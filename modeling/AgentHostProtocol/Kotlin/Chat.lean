import AgentHostProtocol.Kotlin.ToolCall
import AgentHostProtocol.Library.Lists
import AgentHostProtocol.Library.Rfc3339
import Mathlib.Data.Nat.Log

/-!
# The Kotlin chat reducer

`chatReducer` on the actions of a chat, and its helpers; `none` where it throws. `java.time` reads
the timestamps of RFC 3339 as they are meant; what it makes of other texts is a parameter,
`otherParse`, in milliseconds.

The source rebuilds a list of parts only where an update gave another object. As values the two are
equal, so this is left out.
-/

namespace AgentHostProtocol.Kotlin

open Library SessionStatus

variable {U : Type}

/-! ### Timestamps -/

/-- The milliseconds of `Instant.MIN` and `Instant.MAX`. -/
def minInstant : ℤ := -31557014167219200000

def maxInstant : ℤ := 31556889864403199999

/-- The digits of a year: at least four, with a sign outside `0..9999`. -/
def yearChars (y : ℤ) : List Char :=
  (if y < 0 then ['-'] else if 9999 < y then ['+'] else []) ++
    Rfc3339.pad (max 4 (Nat.log 10 y.natAbs + 1)) y.natAbs

/-- The text of an instant under `appendInstant(3)`. -/
def formatInstant (t : ℤ) : String :=
  let (y, m, d) := Rfc3339.civilFromDays (t / Rfc3339.dayMillis)
  let r := (t % Rfc3339.dayMillis).toNat
  String.ofList (yearChars y ++ '-' :: (Rfc3339.pad 2 m.toNat ++ '-' :: (Rfc3339.pad 2 d.toNat ++ 'T' ::
    (Rfc3339.pad 2 (r / 3600000) ++ ':' :: (Rfc3339.pad 2 (r / 60000 % 60) ++ ':' ::
      (Rfc3339.pad 2 (r / 1000 % 60) ++ '.' :: (Rfc3339.pad 3 (r % 1000) ++ ['Z'])))))))

/-- `Instant.plusMillis`; `none` where it throws. -/
def plusMillis (t duration : ℤ) : Option ℤ :=
  if minInstant ≤ t + duration ∧ t + duration ≤ maxInstant then some (t + duration) else none

/-- `addMillisecondsToTimestamp`; `none` where it throws. -/
def addMillisecondsToTimestamp (otherParse : String → Option ℤ) (timestamp : String)
    (duration : ℤ) : Option String :=
  (((Rfc3339.millis? timestamp).or (otherParse timestamp)).bind fun t => plusMillis t duration).map formatInstant

/-! ### Status -/

/-- `withStatusFlag`. -/
def withStatusFlag (status flag : SessionStatus) (set : Bool) : SessionStatus :=
  if set then status ||| flag else status &&& ~~~flag

/-- `hasBlockingToolCall`. -/
def hasBlockingToolCall (state : ChatState U) : Bool :=
  match state.activeTurn with
  | none => false
  | some active => active.responseParts.any fun
    | .toolCall (.pendingConfirmation _) => true
    | .toolCall (.pendingResultConfirmation _) => true
    | .toolCall (.authRequired _) => true
    | _ => false

/-- `hasOpenInputRequest`. -/
def hasOpenInputRequest (state : ChatState U) : Bool :=
  match state.activeTurn with
  | none => false
  | some active => active.responseParts.any fun
    | .inputRequest part => part.response.isNone
    | _ => false

/-- `chatSummaryStatus`. -/
def chatSummaryStatus (state : ChatState U) (terminalStatus : Option SessionStatus) : SessionStatus :=
  let activity :=
    match terminalStatus with
    | some terminal => terminal
    | none =>
      if hasOpenInputRequest state || hasBlockingToolCall state then inputNeeded
      else if state.activeTurn.isSome then inProgress
      else idle
  state.status &&& ~~~activityMask ||| activity

/-- `refreshChatSummaryStatus`. -/
def refreshChatSummaryStatus (state : ChatState U) : ChatState U :=
  { state with status := chatSummaryStatus state none }

/-! ### Response parts -/

/-- A part under `updateToolCallInParts`. -/
def updateToolCall (toolCallId : String) (updater : ToolCallState U → ToolCallState U) :
    ResponsePart U → ResponsePart U
  | .toolCall tc => if toolCallIdOf tc = toolCallId then .toolCall (updater tc) else .toolCall tc
  | part => part

/-- `updateToolCallInParts`. -/
def updateToolCallInParts (state : ChatState U) (turnId toolCallId : String)
    (updater : ToolCallState U → ToolCallState U) : ChatState U :=
  match state.activeTurn with
  | none => state
  | some activeTurn =>
    if activeTurn.id ≠ turnId then state
    else
      let responseParts := activeTurn.responseParts.map (updateToolCall toolCallId updater)
      { state with activeTurn := some { activeTurn with responseParts := responseParts } }

/-- The id by which `updateResponsePart` finds a part. -/
def partId : ResponsePart U → Option String
  | .toolCall tc => some (toolCallIdOf tc)
  | .markdown part => some part.id
  | .reasoning part => some part.id
  | _ => none

/-- `updateResponsePart`. -/
def updateResponsePart (state : ChatState U) (turnId id : String)
    (updater : ResponsePart U → ResponsePart U) : ChatState U :=
  match state.activeTurn with
  | none => state
  | some activeTurn =>
    if activeTurn.id ≠ turnId then state
    else
      match updateFirst (fun part => if partId part = some id then some (updater part) else none)
        activeTurn.responseParts with
      | none => state
      | some responseParts =>
        { state with activeTurn := some { activeTurn with responseParts := responseParts } }

/-- `chat/delta` on its part. -/
def deltaPart (a : ChatDeltaAction) : ResponsePart U → ResponsePart U
  | .markdown part => .markdown { part with content := part.content ++ a.content }
  | part => part

/-- `chat/reasoning` on its part. -/
def reasoningPart (a : ChatReasoningAction) : ResponsePart U → ResponsePart U
  | .reasoning part => .reasoning
    { part with
      content := part.content ++ a.content
      startedAt := a.startedAt.or part.startedAt
      duration := a.duration.or part.duration }
  | part => part

/-- `chat/responsePart`. -/
def responsePart (state : ChatState U) (a : ChatResponsePartAction U) : ChatState U :=
  match state.activeTurn, a.part with
  | none, _ => state
  | some _, .error _ => state
  | some activeTurn, part =>
    if activeTurn.id ≠ a.turnId then state
    else
      { state with
        activeTurn := some { activeTurn with responseParts := activeTurn.responseParts ++ [part] } }

/-- `chat/toolCallStart`. -/
def toolCallStart (state : ChatState U) (a : ChatToolCallStartAction U) : ChatState U :=
  match state.activeTurn with
  | none => state
  | some activeTurn =>
    if activeTurn.id ≠ a.turnId then state
    else
      let newPart : ResponsePart U := .toolCall (.streaming
        { toolCallId := a.toolCallId
          toolName := a.toolName
          displayName := a.displayName
          intention := a.intention
          contributor := a.contributor
          _meta := a._meta
          partialInput := none
          invocationMessage := none })
      { state with
        activeTurn := some { activeTurn with responseParts := activeTurn.responseParts ++ [newPart] } }

/-- `chat/usage`. -/
def usage (state : ChatState U) (a : ChatUsageAction) : ChatState U :=
  match state.activeTurn with
  | none => state
  | some activeTurn =>
    if activeTurn.id ≠ a.turnId then state
    else { state with activeTurn := some { activeTurn with usage := some a.usage } }

/-! ### Turns -/

/-- What `endTurn` makes of a part. -/
def finalPart : ResponsePart U → ResponsePart U
  | .toolCall tc => .toolCall (cancelUnfinished tc)
  | part => part

/-- `endTurn`. -/
def endTurn (otherParse : String → Option ℤ) (state : ChatState U) (turnId : String) (duration : ℤ)
    (turnState : TurnState) (terminalStatus : Option SessionStatus)
    (errorPart : Option ErrorResponsePart) : Option (ChatState U) :=
  match state.activeTurn with
  | none => some state
  | some active =>
    if active.id ≠ turnId then some state
    else
      let finalizedParts := active.responseParts.map finalPart
      let responseParts :=
        match errorPart with
        | none => finalizedParts
        | some errorPart => finalizedParts ++ [.error errorPart]
      let turn : Turn U :=
        { id := active.id
          startedAt := some active.startedAt
          duration := some (max 0 duration)
          message := active.message
          responseParts := responseParts
          usage := active.usage
          state := turnState }
      (addMillisecondsToTimestamp otherParse active.startedAt (max 0 duration)).map fun modifiedAt =>
        let withoutTurn : ChatState U :=
          { state with turns := state.turns ++ [turn], activeTurn := none, modifiedAt := modifiedAt }
        { withoutTurn with status := chatSummaryStatus withoutTurn terminalStatus }

/-- `chat/turnStarted`. -/
def turnStarted (state : ChatState U) (a : ChatTurnStartedAction) : ChatState U :=
  let withTurn : ChatState U :=
    { state with activeTurn := some ⟨a.turnId, a.startedAt, a.message, [], none⟩ }
  let withStatus : ChatState U :=
    { withTurn with
      status := withStatusFlag (chatSummaryStatus withTurn none) isRead false
      modifiedAt := a.startedAt }
  match a.queuedMessageId with
  | none => withStatus
  | some queuedMessageId =>
    let next : ChatState U :=
      if withStatus.steeringMessage.map (·.id) = some queuedMessageId then
        { withStatus with steeringMessage := none }
      else withStatus
    match next.queuedMessages with
    | none => next
    | some queued =>
      let filtered := queued.filter fun m => m.id ≠ queuedMessageId
      { next with queuedMessages := if filtered.isEmpty then none else some filtered }

/-- `chat/turnResume`. -/
def turnResume (state : ChatState U) (turnId : String) : ChatState U :=
  match state.activeTurn, state.turns.getLast? with
  | none, some turn =>
    if turn.id ≠ turnId ∨ turn.state ≠ .error then state
    else
      match turn.responseParts.getLast? with
      | some (.error errorPart) =>
        if errorPart.resumable ≠ some true then state
        else
          let withTurn : ChatState U :=
            { state with
              turns := state.turns.dropLast
              activeTurn := some
                { id := turn.id
                  startedAt := turn.startedAt.getD state.modifiedAt
                  message := turn.message
                  responseParts := turn.responseParts
                  usage := turn.usage } }
          { withTurn with status := withStatusFlag (chatSummaryStatus withTurn none) isRead false }
      | _ => state
  | _, _ => state

/-- `chat/truncated`. -/
def truncated (state : ChatState U) (turnId : Option String) : ChatState U :=
  let truncateTo (turns : List (Turn U)) : ChatState U :=
    let next : ChatState U :=
      { state with
        turns := turns
        turnsNextCursor := if turnId.isNone then none else state.turnsNextCursor
        activeTurn := none }
    { next with status := chatSummaryStatus next none }
  match turnId with
  | none => truncateTo []
  | some id =>
    match state.turns.findIdx? fun t => t.id = id with
    | none => state
    | some idx => truncateTo (state.turns.take (idx + 1))

/-- `chat/turnsLoaded`. -/
def turnsLoaded (state : ChatState U) (a : ChatTurnsLoadedAction U) : ChatState U :=
  let existingIds := state.turns.map (·.id)
  let olderTurns := a.turns.filter fun turn => turn.id ∉ existingIds
  { state with turns := olderTurns ++ state.turns, turnsNextCursor := a.turnsNextCursor }

/-! ### Input requests -/

/-- Whether a part is an open input request with the id. -/
def isOpenRequest (requestId : String) : ResponsePart U → Bool
  | .inputRequest part => part.response.isNone && part.request.id = requestId
  | _ => false

/-- `upsertInputRequest`. -/
def upsertInputRequest (state : ChatState U) (request : ChatInputRequest) : ChatState U :=
  match state.activeTurn with
  | none => state
  | some activeTurn =>
    let responseParts := activeTurn.responseParts
    let updated :=
      match responseParts.findIdx? (isOpenRequest request.id) with
      | none => responseParts ++ [.inputRequest ⟨request, none⟩]
      | some idx =>
        match responseParts[idx]? with
        | some (.inputRequest existing) =>
          responseParts.set idx (.inputRequest
            ⟨{ request with answers := request.answers.or existing.request.answers }, none⟩)
        | _ => responseParts
    let next : ChatState U := { state with activeTurn := some { activeTurn with responseParts := updated } }
    { next with status := withStatusFlag (chatSummaryStatus next none) isRead false }

/-- Rewrites the first open input request with the id, if there is one. -/
def editOpenRequest (state : ChatState U) (requestId : String)
    (f : InputRequestResponsePart → InputRequestResponsePart) : Option (ChatState U) :=
  state.activeTurn.bind fun activeTurn =>
    (activeTurn.responseParts.findIdx? (isOpenRequest requestId)).bind fun idx =>
      match activeTurn.responseParts[idx]? with
      | some (.inputRequest part) =>
        let updated := activeTurn.responseParts.set idx (.inputRequest (f part))
        some { state with activeTurn := some { activeTurn with responseParts := updated } }
      | _ => none

/-- `chat/inputAnswerChanged`. -/
def inputAnswerChanged (state : ChatState U) (a : ChatInputAnswerChangedAction) : ChatState U :=
  let edited := editOpenRequest state a.requestId fun part =>
    let answers := part.request.answers.getD Record.empty
    let answers :=
      match a.answer with
      | none => answers.delete a.questionId
      | some answer => answers.set a.questionId answer
    { part with request := { part.request with answers := if answers.isEmpty then none else some answers } }
  edited.getD state

/-- `chat/inputCompleted`. -/
def inputCompleted (state : ChatState U) (a : ChatInputCompletedAction) : ChatState U :=
  let edited := editOpenRequest state a.requestId fun part =>
    let finalAnswers := (part.request.answers.getD Record.empty).merge (a.answers.getD Record.empty)
    { request := { part.request with answers := if finalAnswers.isEmpty then none else some finalAnswers }
      response := some a.response }
  match edited with
  | none => state
  | some next => { next with status := chatSummaryStatus next none }

/-! ### Pending messages -/

/-- `chat/pendingMessageSet`. -/
def pendingMessageSet (state : ChatState U) (a : ChatPendingMessageSetAction) : ChatState U :=
  let entry : PendingMessage := ⟨a.id, some a.kind, a.message⟩
  let existing := state.queuedMessages.getD []
  let next := upsertWhere (fun m => m.id = a.id) entry existing
  let steeringMessage :=
    if a.kind = .steering then some entry
    else if state.steeringMessage.map (·.id) = some a.id then none
    else state.steeringMessage
  { state with queuedMessages := some next, steeringMessage := steeringMessage }

/-- `chat/pendingMessageRemoved`. -/
def pendingMessageRemoved (state : ChatState U) (a : ChatPendingMessageRemovedAction) : ChatState U :=
  let next : ChatState U :=
    if a.kind = .steering ∧ state.steeringMessage.map (·.id) = some a.id then
      { state with steeringMessage := none }
    else state
  match state.queuedMessages with
  | none => next
  | some existing =>
    match eraseWhere (fun m => m.id = a.id && m.kind.getD .queued = a.kind) existing with
    | none => next
    | some queuedMessages =>
      { next with queuedMessages := if queuedMessages.isEmpty then none else some queuedMessages }

/-- An entry of `existing.associateBy { it.id }`: the last message with the id. -/
def byId (existing : List PendingMessage) (id : String) : Option PendingMessage :=
  existing.reverse.find? fun m => m.id = id

/-- The loop over `order`: the ids that were added, and their messages. -/
def reorder (existing : List PendingMessage) :
    List String → List String → List PendingMessage → List String × List PendingMessage
  | [], ordered, reordered => (ordered, reordered)
  | id :: order, ordered, reordered =>
    match byId existing id with
    | some message =>
      if id ∈ ordered then reorder existing order ordered reordered
      else reorder existing order (ordered ++ [id]) (reordered ++ [message])
    | none => reorder existing order ordered reordered

/-- `chat/queuedMessagesReordered`. -/
def queuedMessagesReordered (state : ChatState U) (order : List String) : ChatState U :=
  match state.queuedMessages with
  | none => state
  | some existing =>
    let (ordered, reordered) := reorder existing order [] []
    let rest := existing.filter fun m => m.id ∉ ordered
    { state with queuedMessages := some (reordered ++ rest) }

/-! ### Other fields -/

/-- `chat/backgroundWorkSet`. -/
def backgroundWorkSet [RawId U] (state : ChatState U) (work : BackgroundWork U) : ChatState U :=
  match work.id? with
  | none => state
  | some id =>
    let list := state.backgroundWork.getD []
    { state with backgroundWork := some (upsertWhere (fun w => w.id? = some id) work list) }

/-- `chat/backgroundWorkRemoved`. -/
def backgroundWorkRemoved [RawId U] (state : ChatState U) (id : String) : ChatState U :=
  match state.backgroundWork with
  | none => state
  | some list =>
    match eraseWhere (fun w => w.id? = some id) list with
    | none => state
    | some next => { state with backgroundWork := some next }

/-- `chat/workingDirectorySet`. -/
def workingDirectorySet (state : ChatState U) (directory : URI) : ChatState U :=
  let list := state.workingDirectories.getD []
  if directory ∈ list then state else { state with workingDirectories := some (list ++ [directory]) }

/-- `chat/workingDirectoryRemoved`. -/
def workingDirectoryRemoved (state : ChatState U) (directory : URI) : ChatState U :=
  match state.workingDirectories with
  | none => state
  | some list =>
    match eraseWhere (fun d => d = directory) list with
    | none => state
    | some updated => { state with workingDirectories := some updated }

/-- `chat/configChanged`. -/
def configChanged (state : ChatState U) (a : ChatConfigChangedAction) : ChatState U :=
  match state.config with
  | none => { state with config := some ⟨none, a.config⟩ }
  | some current =>
    let newValues := if a.replace = some true then a.config else current.values.merge a.config
    { state with config := some { current with values := newValues } }

/-- `chat/moved`. -/
def moved (state : ChatState U) (a : ChatMovedAction) : ChatState U :=
  { state with
    provider := a.provider
    config :=
      match state.config with
      | some current => some { current with schema := a.schema }
      | none => if a.schema.isSome then some ⟨a.schema, Record.empty⟩ else none }

/-! ### The reducer -/

/-- `chatReducer` on the actions of a chat. -/
def chatReducer [RawId U] (otherParse : String → Option ℤ) (state : ChatState U) :
    ChatAction U (ChatToolCallConfirmedAction U) → Option (ChatState U)
  | .turnStarted a => some (turnStarted state a)
  | .delta a => some (updateResponsePart state a.turnId a.partId (deltaPart a))
  | .responsePart a => some (responsePart state a)
  | .turnComplete a => endTurn otherParse state a.turnId a.duration .complete none none
  | .turnCancelled a => endTurn otherParse state a.turnId a.duration .cancelled none none
  | .error a => endTurn otherParse state a.turnId a.duration .error (some SessionStatus.error) (some a.part)
  | .turnResume turnId => some (turnResume state turnId)
  | .activityChanged activity => some { state with activity := activity }
  | .backgroundWorkSet work => some (backgroundWorkSet state work)
  | .backgroundWorkRemoved id => some (backgroundWorkRemoved state id)
  | .movableChanged movable => some { state with movable := some movable }
  | .changesetsChanged changesets => some { state with changesets := changesets }
  | .canvasesChanged canvases => some { state with canvases := canvases }
  | .workingDirectorySet directory => some (workingDirectorySet state directory)
  | .workingDirectoryRemoved directory => some (workingDirectoryRemoved state directory)
  | .toolCallStart a => some (toolCallStart state a)
  | .toolCallDelta a => some (updateToolCallInParts state a.turnId a.toolCallId (toolCallDelta a))
  | .toolCallReady a =>
    some (refreshChatSummaryStatus (updateToolCallInParts state a.turnId a.toolCallId (toolCallReady a)))
  | .toolCallConfirmed a =>
    some (refreshChatSummaryStatus (updateToolCallInParts state a.turnId a.toolCallId (toolCallConfirmed a)))
  | .toolCallComplete a =>
    some (refreshChatSummaryStatus (updateToolCallInParts state a.turnId a.toolCallId (toolCallComplete a)))
  | .toolCallResultConfirmed a =>
    some (refreshChatSummaryStatus
      (updateToolCallInParts state a.turnId a.toolCallId (toolCallResultConfirmed a)))
  | .toolCallContentChanged a =>
    some (updateToolCallInParts state a.turnId a.toolCallId (toolCallContentChanged a))
  | .toolCallAuthRequired a =>
    some (refreshChatSummaryStatus
      (updateToolCallInParts state a.turnId a.toolCallId (toolCallAuthRequired a)))
  | .toolCallAuthResolved a =>
    some (refreshChatSummaryStatus
      (updateToolCallInParts state a.turnId a.toolCallId (toolCallAuthResolved a)))
  | .usage a => some (usage state a)
  | .reasoning a => some (updateResponsePart state a.turnId a.partId (reasoningPart a))
  | .truncated turnId => some (truncated state turnId)
  | .turnsLoaded a => some (turnsLoaded state a)
  | .inputRequested request => some (upsertInputRequest state request)
  | .inputAnswerChanged a => some (inputAnswerChanged state a)
  | .inputCompleted a => some (inputCompleted state a)
  | .pendingMessageSet a => some (pendingMessageSet state a)
  | .pendingMessageRemoved a => some (pendingMessageRemoved state a)
  | .queuedMessagesReordered order => some (queuedMessagesReordered state order)
  | .draftChanged draft => some { state with draft := draft }
  | .isReadChanged value => some { state with status := withStatusFlag state.status isRead value }
  | .isArchivedChanged value =>
    some { state with status := withStatusFlag state.status isArchived value }
  | .configChanged a => some (configChanged state a)
  | .moved a => some (moved state a)

end AgentHostProtocol.Kotlin
