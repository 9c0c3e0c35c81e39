import AgentHostProtocol.Chat.ToolCall
import AgentHostProtocol.Common.Timestamps
import AgentHostProtocol.Library.BitField
import AgentHostProtocol.Library.Lists
import AgentHostProtocol.Library.Runs

/-!
# The chat reducer

`chatReducer` and its helpers. The reducer is a partial function: where the source
throws a `RangeError` (the end of a turn whose start is not a date, or whose duration
leaves the range of dates), it is `none`.

The source returns the very object it was given where nothing changes; as values the
two are equal, so the checks that only serve that are left out.
-/

namespace AgentHostProtocol.Chat

open Library SessionStatus

/-! ### Status -/

/-- Whether the active turn has a tool call blocking on something external to the turn
itself: a pending confirmation or result confirmation, or MCP authentication. -/
def hasBlockingToolCall (state : ChatState Empty) : Bool :=
  match state.activeTurn with
  | none => false
  | some turn => turn.responseParts.any fun
    | .toolCall tc =>
      tc.status = .pendingConfirmation || tc.status = .pendingResultConfirmation ||
        tc.status = .authRequired
    | _ => false

/-- Whether the active turn contains an input request awaiting submission. -/
def hasOpenInputRequest (state : ChatState Empty) : Bool :=
  match state.activeTurn with
  | none => false
  | some turn => turn.responseParts.any fun
    | .inputRequest part => part.response.isNone
    | _ => false

/-- Derives the summary status from live work, preserving orthogonal flags. -/
def summaryStatus (state : ChatState Empty) (terminalStatus : Option SessionStatus) :
    SessionStatus :=
  let activity :=
    match terminalStatus with
    | some terminal => terminal
    | none =>
      if hasOpenInputRequest state || hasBlockingToolCall state then inputNeeded
      else if state.activeTurn.isSome then inProgress else idle
  setField state.status activityMask activity

/-- The state with `status` recomputed. -/
def refreshSummaryStatus (state : ChatState Empty) : ChatState Empty :=
  { state with status := summaryStatus state none }

/-! ### Response parts -/

/-- Whether a part is an input request with the id that awaits submission. -/
def isOpenRequest (requestId : String) : ResponsePart Empty → Bool
  | .inputRequest part => part.response.isNone && part.request.id = requestId
  | _ => false

/-- The index and the part of the first open input request with an id. -/
def findOpenInputRequestPart (responseParts : List (ResponsePart Empty)) (requestId : String) :
    Option (ℕ × InputRequestResponsePart) :=
  (responseParts.findIdx? (isOpenRequest requestId)).bind fun index =>
    match responseParts[index]? with
    | some (.inputRequest part) => some (index, part)
    | _ => none

/-- Whether the last part of a turn is an error marked as resumable. -/
def hasResumableError (turn : Turn Empty) : Bool :=
  match turn.responseParts.getLast? with
  | some (.error part) => part.resumable = some true
  | _ => false

/-- The identifier by which an action targets a part. -/
def partId : ResponsePart Empty → Option String
  | .toolCall tc => some (tcBase tc).toolCallId
  | .markdown part => some part.id
  | .reasoning part => some part.id
  | _ => none

/-- The state with other parts in the active turn. -/
def withResponseParts (state : ChatState Empty) (turn : ActiveTurn Empty)
    (responseParts : List (ResponsePart Empty)) : ChatState Empty :=
  { state with activeTurn := some { turn with responseParts := responseParts } }

/-- The active turn, if it is the one an action names. -/
def activeTurnOf (state : ChatState Empty) (turnId : String) : Option (ActiveTurn Empty) :=
  state.activeTurn.filter fun turn => turn.id = turnId

/-- `updateToolCallInParts` on one part. -/
def updateToolCall (toolCallId : String) (updater : ToolCallState Empty → ToolCallState Empty) :
    ResponsePart Empty → ResponsePart Empty
  | .toolCall tc => if (tcBase tc).toolCallId = toolCallId then .toolCall (updater tc) else .toolCall tc
  | part => part

/-- Updates every tool call with an id in the active turn. -/
def updateToolCallInParts (state : ChatState Empty) (turnId toolCallId : String)
    (updater : ToolCallState Empty → ToolCallState Empty) : ChatState Empty :=
  match activeTurnOf state turnId with
  | none => state
  | some turn =>
    withResponseParts state turn (turn.responseParts.map (updateToolCall toolCallId updater))

/-- Updates the first part with an id in the active turn. -/
def updateResponsePart (state : ChatState Empty) (turnId id : String)
    (updater : ResponsePart Empty → ResponsePart Empty) : ChatState Empty :=
  match activeTurnOf state turnId with
  | none => state
  | some turn =>
    match updateFirst (fun part => if partId part = some id then some (updater part) else none)
      turn.responseParts with
    | none => state
    | some responseParts => withResponseParts state turn responseParts

/-- Creates or replaces the open input request with the id of `request`. A replaced
request keeps its answers unless the new one has its own. -/
def upsertInputRequestPart (state : ChatState Empty) (request : ChatInputRequest) :
    ChatState Empty :=
  match state.activeTurn with
  | none => state
  | some turn =>
    let responseParts :=
      match findOpenInputRequestPart turn.responseParts request.id with
      | some (index, existing) =>
        turn.responseParts.set index (.inputRequest
          ⟨{ request with answers := request.answers.or existing.request.answers }, none⟩)
      | none => turn.responseParts ++ [.inputRequest ⟨request, none⟩]
    let next := withResponseParts state turn responseParts
    { next with status := withStatusFlag (summaryStatus next none) isRead false }

/-- An answer record, absent when it is empty. -/
def nonEmptyAnswers (answers : Record Json) : Option (Record Json) :=
  if answers.isEmpty then none else some answers

/-- `chat/inputAnswerChanged`. -/
def inputAnswerChanged (state : ChatState Empty) (action : ChatInputAnswerChangedAction) :
    ChatState Empty :=
  match state.activeTurn with
  | none => state
  | some turn =>
    match findOpenInputRequestPart turn.responseParts action.requestId with
    | none => state
    | some (index, part) =>
      let answers := part.request.answers.getD Record.empty
      let answers :=
        match action.answer with
        | none => answers.delete action.questionId
        | some answer => answers.set action.questionId answer
      withResponseParts state turn (turn.responseParts.set index (.inputRequest
        { part with request := { part.request with answers := nonEmptyAnswers answers } }))

/-- `chat/inputCompleted`. -/
def inputCompleted (state : ChatState Empty) (action : ChatInputCompletedAction) :
    ChatState Empty :=
  match state.activeTurn with
  | none => state
  | some turn =>
    match findOpenInputRequestPart turn.responseParts action.requestId with
    | none => state
    | some (index, part) =>
      let finalAnswers :=
        (part.request.answers.getD Record.empty).merge (action.answers.getD Record.empty)
      refreshSummaryStatus (withResponseParts state turn (turn.responseParts.set index (.inputRequest
        { request := { part.request with answers := nonEmptyAnswers finalAnswers }
          response := some action.response })))

/-! ### Turns -/

/-- The part a response part becomes when its turn ends. -/
def finalPart : ResponsePart Empty → ResponsePart Empty
  | .toolCall tc => .toolCall (cancelUnfinished tc)
  | part => part

/-- The record of the active turn once it has ended. -/
def endedTurn (active : ActiveTurn Empty) (turnState : TurnState) (duration : ℤ)
    (errorPart : Option ErrorResponsePart) : Turn Empty where
  id := active.id
  startedAt := some active.startedAt
  duration := some (max 0 duration)
  message := active.message
  responseParts := active.responseParts.map finalPart ++ (errorPart.map ResponsePart.error).toList
  usage := active.usage
  state := turnState

/-- Ends the active turn, finalizing it into a completed turn record. -/
def endTurn (legacyParse : String → Option ℤ) (state : ChatState Empty) (turnId : String)
    (turnState : TurnState) (duration : ℤ) (terminalStatus : Option SessionStatus)
    (errorPart : Option ErrorResponsePart) : Option (ChatState Empty) :=
  match activeTurnOf state turnId with
  | none => some state
  | some active =>
    (addMillisecondsToTimestamp legacyParse active.startedAt (max 0 duration)).map fun modifiedAt =>
      let next : ChatState Empty :=
        { state with
          turns := state.turns ++ [endedTurn active turnState duration errorPart]
          activeTurn := none
          modifiedAt := modifiedAt }
      { next with status := summaryStatus next terminalStatus }

/-- `chat/turnStarted`. -/
def turnStarted (state : ChatState Empty) (action : ChatTurnStartedAction) : ChatState Empty :=
  let next : ChatState Empty :=
    { state with activeTurn := some ⟨action.turnId, action.startedAt, action.message, [], none⟩ }
  let next : ChatState Empty :=
    { next with
      status := withStatusFlag (summaryStatus next none) isRead false
      modifiedAt := action.startedAt }
  match action.queuedMessageId with
  | none => next
  | some queuedMessageId =>
    { next with
      steeringMessage :=
        if next.steeringMessage.map (·.id) = some queuedMessageId then none else next.steeringMessage
      queuedMessages := next.queuedMessages.bind fun queued =>
        let filtered := queued.filter fun m => m.id ≠ queuedMessageId
        if filtered.isEmpty then none else some filtered }

/-- The active turn that resuming `turn` gives. -/
def resumedTurn (state : ChatState Empty) (turn : Turn Empty) : ActiveTurn Empty where
  id := turn.id
  startedAt := turn.startedAt.getD state.modifiedAt
  message := turn.message
  responseParts := turn.responseParts
  usage := turn.usage

/-- `chat/turnResume`. -/
def turnResume (state : ChatState Empty) (turnId : String) : ChatState Empty :=
  match state.activeTurn, state.turns.getLast? with
  | none, some turn =>
    if turn.id = turnId ∧ turn.state = .error ∧ hasResumableError turn = true then
      let next : ChatState Empty :=
        { state with
          turns := state.turns.dropLast
          activeTurn := some (resumedTurn state turn) }
      { next with status := withStatusFlag (summaryStatus next none) isRead false }
    else state
  | _, _ => state

/-- The turns that `chat/truncated` keeps; `none` if it names a turn that is not there. -/
def keptTurns (state : ChatState Empty) : Option String → Option (List (Turn Empty))
  | none => some []
  | some turnId =>
    (state.turns.findIdx? fun t => t.id = turnId).map fun idx => state.turns.take (idx + 1)

/-- `chat/truncated`. -/
def truncated (state : ChatState Empty) (turnId : Option String) : ChatState Empty :=
  match keptTurns state turnId with
  | none => state
  | some turns =>
    refreshSummaryStatus
      { state with
        turns := turns
        activeTurn := none
        turnsNextCursor := if turnId.isNone then none else state.turnsNextCursor }

/-- The turns of a page that are not in `turns` yet. -/
def olderTurns (state : ChatState Empty) (page : List (Turn Empty)) : List (Turn Empty) :=
  page.filter fun turn => turn.id ∉ state.turns.map (·.id)

/-- `chat/turnsLoaded`. -/
def turnsLoaded (state : ChatState Empty) (action : ChatTurnsLoadedAction Empty) :
    ChatState Empty :=
  { state with
    turns := olderTurns state action.turns ++ state.turns
    turnsNextCursor := action.turnsNextCursor }

/-- Appends a part to the active turn, if it is the one named. -/
def appendPart (state : ChatState Empty) (turnId : String) (part : ResponsePart Empty) :
    ChatState Empty :=
  match activeTurnOf state turnId with
  | none => state
  | some turn => withResponseParts state turn (turn.responseParts ++ [part])

/-- `chat/responsePart`: error parts are ignored. -/
def responsePart (state : ChatState Empty) (action : ChatResponsePartAction Empty) :
    ChatState Empty :=
  match action.part with
  | .error _ => state
  | part => appendPart state action.turnId part

/-- The call that `chat/toolCallStart` creates. -/
def startedToolCall (action : ChatToolCallStartAction Empty) : ToolCallState Empty :=
  .streaming
    { toolCallId := action.toolCallId
      toolName := action.toolName
      displayName := action.displayName
      intention := action.intention
      contributor := action.contributor
      _meta := action._meta
      partialInput := none
      invocationMessage := none }

/-- `chat/toolCallStart`. -/
def toolCallStart (state : ChatState Empty) (action : ChatToolCallStartAction Empty) :
    ChatState Empty :=
  appendPart state action.turnId (.toolCall (startedToolCall action))

/-- `chat/usage`. -/
def usage (state : ChatState Empty) (action : ChatUsageAction) : ChatState Empty :=
  match activeTurnOf state action.turnId with
  | none => state
  | some turn => { state with activeTurn := some { turn with usage := some action.usage } }

/-- `chat/delta` on its part. -/
def deltaPart (action : ChatDeltaAction) : ResponsePart Empty → ResponsePart Empty
  | .markdown part => .markdown { part with content := part.content ++ action.content }
  | part => part

/-- `chat/reasoning` on its part. -/
def reasoningPart (action : ChatReasoningAction) : ResponsePart Empty → ResponsePart Empty
  | .reasoning part => .reasoning
    { part with
      content := part.content ++ action.content
      startedAt := action.startedAt.or part.startedAt
      duration := action.duration.or part.duration }
  | part => part

/-! ### Pending messages -/

/-- `chat/pendingMessageSet`. -/
def pendingMessageSet (state : ChatState Empty) (action : ChatPendingMessageSetAction) :
    ChatState Empty :=
  let entry : PendingMessage := ⟨action.id, some action.kind, action.message⟩
  { state with
    queuedMessages :=
      some (upsertWhere (fun m => m.id = action.id) entry (state.queuedMessages.getD []))
    steeringMessage :=
      match action.kind with
      | .steering => some entry
      | .queued =>
        if state.steeringMessage.map (·.id) = some action.id then none else state.steeringMessage }

/-- `chat/pendingMessageRemoved`. -/
def pendingMessageRemoved (state : ChatState Empty) (action : ChatPendingMessageRemovedAction) :
    ChatState Empty :=
  let next : ChatState Empty :=
    if action.kind = .steering ∧ state.steeringMessage.map (·.id) = some action.id then
      { state with steeringMessage := none }
    else state
  match eraseWhere (fun m => m.id = action.id && m.kind.getD .queued = action.kind)
    (state.queuedMessages.getD []) with
  | none => next
  | some queuedMessages =>
    { next with queuedMessages := if queuedMessages.isEmpty then none else some queuedMessages }

/-- The last message with an id: the entry of `new Map(existing.map(m => [m.id, m]))`. -/
def messageById (existing : List PendingMessage) (id : String) : Option PendingMessage :=
  existing.reverse.find? fun m => m.id = id

/-- The ids of `order` that are in the list and not yet in `ordered`, in order of first
mention. -/
def mentioned (existing : List PendingMessage) : List String → List String → List String
  | [], ordered => ordered
  | id :: order, ordered =>
    if (messageById existing id).isSome ∧ id ∉ ordered then
      mentioned existing order (ordered ++ [id])
    else mentioned existing order ordered

/-- `chat/queuedMessagesReordered`. -/
def queuedMessagesReordered (state : ChatState Empty) (order : List String) : ChatState Empty :=
  match state.queuedMessages with
  | none => state
  | some existing =>
    let ordered := mentioned existing order []
    { state with
      queuedMessages :=
        some (ordered.filterMap (messageById existing) ++ existing.filter fun m => m.id ∉ ordered) }

/-! ### Other fields -/

/-- `chat/backgroundWorkSet`. -/
def backgroundWorkSet (state : ChatState Empty) (work : BackgroundWork Empty) : ChatState Empty :=
  { state with
    backgroundWork :=
      some (upsertWhere (fun w => w.id? = work.id?) work (state.backgroundWork.getD [])) }

/-- `chat/backgroundWorkRemoved`. -/
def backgroundWorkRemoved (state : ChatState Empty) (id : String) : ChatState Empty :=
  match eraseWhere (fun w => w.id? = some id) (state.backgroundWork.getD []) with
  | none => state
  | some backgroundWork => { state with backgroundWork := some backgroundWork }

/-- `chat/workingDirectorySet`. -/
def workingDirectorySet (state : ChatState Empty) (directory : URI) : ChatState Empty :=
  let list := state.workingDirectories.getD []
  if directory ∈ list then state
  else { state with workingDirectories := some (list ++ [directory]) }

/-- `chat/workingDirectoryRemoved`. -/
def workingDirectoryRemoved (state : ChatState Empty) (directory : URI) : ChatState Empty :=
  match state.workingDirectories with
  | none => state
  | some list =>
    match eraseWhere (fun d => d = directory) list with
    | none => state
    | some updated => { state with workingDirectories := some updated }

/-- `chat/configChanged`. -/
def configChanged (state : ChatState Empty) (action : ChatConfigChangedAction) : ChatState Empty :=
  let values :=
    match state.config with
    | none => action.config
    | some config =>
      if action.replace.getD false then action.config else config.values.merge action.config
  { state with config := some ⟨state.config.bind (·.schema), values⟩ }

/-- `chat/moved`. -/
def moved (state : ChatState Empty) (action : ChatMovedAction) : ChatState Empty :=
  { state with
    provider := action.provider
    config :=
      match state.config with
      | some config => some { config with schema := action.schema }
      | none => action.schema.map fun schema => ⟨some schema, Record.empty⟩ }

/-! ### The reducer -/

/-- `chatReducer`: the state after an action; `none` where the source throws. -/
def chatReducer (legacyParse : String → Option ℤ) (state : ChatState Empty) :
    ChatAction Empty (ChatToolCallConfirmedAction Empty) → Option (ChatState Empty)
  | .turnStarted a => some (turnStarted state a)
  | .delta a => some (updateResponsePart state a.turnId a.partId (deltaPart a))
  | .responsePart a => some (responsePart state a)
  | .turnComplete a => endTurn legacyParse state a.turnId .complete a.duration none none
  | .turnCancelled a => endTurn legacyParse state a.turnId .cancelled a.duration none none
  | .error a => endTurn legacyParse state a.turnId .error a.duration (some SessionStatus.error) (some a.part)
  | .turnResume turnId => some (turnResume state turnId)
  | .activityChanged activity => some { state with activity := activity }
  | .backgroundWorkSet work => some (backgroundWorkSet state work)
  | .backgroundWorkRemoved id => some (backgroundWorkRemoved state id)
  | .movableChanged movable => some { state with movable := some movable }
  | .changesetsChanged changesets => some { state with changesets := changesets }
  | .canvasesChanged canvases => some { state with canvases := canvases }
  | .workingDirectorySet directory => some (workingDirectorySet state directory)
  | .workingDirectoryRemoved directory => some (workingDirectoryRemoved state directory)
  | .toolCallStart a => some (toolCallStart state a)
  | .toolCallDelta a => some (updateToolCallInParts state a.turnId a.toolCallId (toolCallDelta a))
  | .toolCallReady a =>
    some (refreshSummaryStatus (updateToolCallInParts state a.turnId a.toolCallId (toolCallReady a)))
  | .toolCallConfirmed a =>
    some (refreshSummaryStatus (updateToolCallInParts state a.toToolCallActionBase.turnId
      a.toToolCallActionBase.toolCallId (toolCallConfirmed a)))
  | .toolCallComplete a =>
    some (refreshSummaryStatus
      (updateToolCallInParts state a.turnId a.toolCallId (toolCallComplete a)))
  | .toolCallResultConfirmed a =>
    some (refreshSummaryStatus
      (updateToolCallInParts state a.turnId a.toolCallId (toolCallResultConfirmed a)))
  | .toolCallContentChanged a =>
    some (updateToolCallInParts state a.turnId a.toolCallId (toolCallContentChanged a))
  | .toolCallAuthRequired a =>
    some (refreshSummaryStatus
      (updateToolCallInParts state a.turnId a.toolCallId (toolCallAuthRequired a)))
  | .toolCallAuthResolved a =>
    some (refreshSummaryStatus
      (updateToolCallInParts state a.turnId a.toolCallId (toolCallAuthResolved a)))
  | .usage a => some (usage state a)
  | .reasoning a => some (updateResponsePart state a.turnId a.partId (reasoningPart a))
  | .truncated turnId => some (truncated state turnId)
  | .turnsLoaded a => some (turnsLoaded state a)
  | .inputRequested request => some (upsertInputRequestPart state request)
  | .inputAnswerChanged a => some (inputAnswerChanged state a)
  | .inputCompleted a => some (inputCompleted state a)
  | .pendingMessageSet a => some (pendingMessageSet state a)
  | .pendingMessageRemoved a => some (pendingMessageRemoved state a)
  | .queuedMessagesReordered order => some (queuedMessagesReordered state order)
  | .draftChanged draft => some { state with draft := draft }
  | .isReadChanged value => some { state with status := withStatusFlag state.status isRead value }
  | .isArchivedChanged value =>
    some { state with status := withStatusFlag state.status isArchived value }
  | .configChanged a => some (configChanged state a)
  | .moved a => some (moved state a)

end AgentHostProtocol.Chat
