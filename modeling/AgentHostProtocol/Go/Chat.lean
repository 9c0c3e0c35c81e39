import AgentHostProtocol.Go.ToolCall
import AgentHostProtocol.Library.Lists
import AgentHostProtocol.Library.Rfc3339
import Mathlib.Data.Nat.Log

/-!
# The Go chat reducer

`ApplyActionToChat` and its helpers. A function that the source gives a pointer to the state
returns the outcome with the state as it is then. The timestamps are those of the package `time`:
a text with three digits of fraction is read as RFC 3339 says, and what `time.Parse` makes of
other texts is the parameter `otherParse`. A panic is `none`.

A map is a `Record`, whose order the source cannot see.
-/

namespace AgentHostProtocol.Go

open Library SessionStatus

variable {U : Type}

/-- `ReduceOutcome`. -/
inductive ReduceOutcome where
  | applied
  | noOp
  | outOfScope
  deriving DecidableEq

/-! ### Timestamps -/

/-- The digits of a year in a layout: at least four. -/
def yearChars (y : ℤ) : List Char :=
  (if y < 0 then ['-'] else []) ++ Rfc3339.pad (max 4 (Nat.log 10 y.natAbs + 1)) y.natAbs

/-- `Format("2006-01-02T15:04:05.000Z")` of an instant in UTC. -/
def formatTime (t : ℤ) : String :=
  let (y, m, d) := Rfc3339.civilFromDays (t / Rfc3339.dayMillis)
  let r := (t % Rfc3339.dayMillis).toNat
  String.ofList (yearChars y ++ '-' :: (Rfc3339.pad 2 m.toNat ++ '-' :: (Rfc3339.pad 2 d.toNat ++ 'T' ::
    (Rfc3339.pad 2 (r / 3600000) ++ ':' :: (Rfc3339.pad 2 (r / 60000 % 60) ++ ':' ::
      (Rfc3339.pad 2 (r / 1000 % 60) ++ '.' :: (Rfc3339.pad 3 (r % 1000) ++ ['Z'])))))))

/-- The most milliseconds that a `time.Duration` holds. -/
def maxDuration : ℤ := 9223372036854

/-- `addMillisecondsToTimestamp`. -/
def addMillisecondsToTimestamp (otherParse : String → Option ℤ) (timestamp : String)
    (duration : ℤ) : Option String :=
  ((Rfc3339.millis? timestamp).or (otherParse timestamp)).bind fun start =>
    if -maxDuration ≤ duration ∧ duration ≤ maxDuration then some (formatTime (start + duration))
    else none

/-! ### Status -/

/-- `withStatusFlag`. -/
def withStatusFlag (status flag : SessionStatus) (set : Bool) : SessionStatus :=
  if set then status ||| flag else status &&& ~~~flag

/-- `hasBlockingToolCall`. -/
def hasBlockingToolCall (state : ChatState U) : Bool :=
  match state.activeTurn with
  | none => false
  | some active => active.responseParts.any fun
    | .toolCall (.pendingConfirmation _) => true
    | .toolCall (.authRequired _) => true
    | .toolCall (.pendingResultConfirmation _) => true
    | _ => false

/-- `hasOpenInputRequest`. -/
def hasOpenInputRequest (state : ChatState U) : Bool :=
  match state.activeTurn with
  | none => false
  | some active => active.responseParts.any fun
    | .inputRequest input => input.response.isNone
    | _ => false

/-- `hasResumableError`. -/
def hasResumableError (turn : Turn U) : Bool :=
  match turn.responseParts.getLast? with
  | some (.error part) => part.resumable.getD false
  | _ => false

/-- `summaryStatus`. -/
def summaryStatus (state : ChatState U) (terminal : Option SessionStatus) : SessionStatus :=
  let activity :=
    match terminal with
    | some terminal => terminal
    | none =>
      if hasOpenInputRequest state || hasBlockingToolCall state then inputNeeded
      else if state.activeTurn.isSome then inProgress
      else idle
  state.status &&& ~~~activityMask ||| activity

/-- `refreshSummaryStatus`. -/
def refreshSummaryStatus (state : ChatState U) : ChatState U :=
  { state with status := summaryStatus state none }

/-! ### Turns -/

/-- What `endTurn` makes of a part. -/
def finalPart : ResponsePart U → ResponsePart U
  | .toolCall tc => .toolCall (cancelUnfinished tc)
  | part => part

/-- `endTurn`; `none` where it panics. -/
def endTurn (otherParse : String → Option ℤ) (state : ChatState U) (turnID : String) (duration : ℤ)
    (turnState : TurnState) (terminalStatus : Option SessionStatus)
    (errorPart : Option ErrorResponsePart) : Option (ReduceOutcome × ChatState U) :=
  match state.activeTurn with
  | none => some (.noOp, state)
  | some active =>
    if active.id ≠ turnID then some (.noOp, state)
    else
      let parts := active.responseParts.map finalPart
      let parts :=
        match errorPart with
        | some errorPart => parts ++ [.error errorPart]
        | none => parts
      let duration := if duration < 0 then 0 else duration
      let turn : Turn U :=
        { id := active.id
          startedAt := some active.startedAt
          duration := some duration
          message := active.message
          responseParts := parts
          usage := active.usage
          state := turnState }
      (addMillisecondsToTimestamp otherParse active.startedAt duration).map fun modifiedAt =>
        let state : ChatState U :=
          { state with
            activeTurn := none
            turns := state.turns ++ [turn]
            modifiedAt := modifiedAt }
        (.applied, { state with status := summaryStatus state terminalStatus })

/-- `applyTurnStarted`. -/
def turnStarted (state : ChatState U) (a : ChatTurnStartedAction) : ReduceOutcome × ChatState U :=
  let state : ChatState U :=
    { state with activeTurn := some ⟨a.turnId, a.startedAt, a.message, [], none⟩ }
  let state : ChatState U :=
    { state with
      status := withStatusFlag (summaryStatus state none) isRead false
      modifiedAt := a.startedAt }
  match a.queuedMessageId with
  | none => (.applied, state)
  | some qmid =>
    let state : ChatState U :=
      if state.steeringMessage.map (·.id) = some qmid then { state with steeringMessage := none }
      else state
    match state.queuedMessages with
    | none => (.applied, state)
    | some list =>
      let next := list.filter fun m => m.id ≠ qmid
      (.applied, { state with queuedMessages := if next.isEmpty then none else some next })

/-- `chat/turnResume`. -/
def turnResume (state : ChatState U) (turnId : String) : ReduceOutcome × ChatState U :=
  match state.activeTurn, state.turns.getLast? with
  | none, some turn =>
    if turn.id ≠ turnId ∨ turn.state ≠ .error ∨ hasResumableError turn = false then (.noOp, state)
    else
      let state : ChatState U :=
        { state with
          turns := state.turns.dropLast
          activeTurn := some
            { id := turn.id
              startedAt := turn.startedAt.getD state.modifiedAt
              message := turn.message
              responseParts := turn.responseParts
              usage := turn.usage } }
      (.applied, { state with status := withStatusFlag (summaryStatus state none) isRead false })
  | _, _ => (.noOp, state)

/-- `applyTruncated`. -/
def truncated (state : ChatState U) (turnID : Option String) : ReduceOutcome × ChatState U :=
  match turnID with
  | none =>
    let state : ChatState U := { state with turns := [], turnsNextCursor := none, activeTurn := none }
    (.applied, { state with status := summaryStatus state none })
  | some id =>
    match state.turns.findIdx? fun t => t.id = id with
    | none => (.noOp, state)
    | some idx =>
      let state : ChatState U := { state with turns := state.turns.take (idx + 1), activeTurn := none }
      (.applied, { state with status := summaryStatus state none })

/-- `chat/turnsLoaded`. -/
def turnsLoaded (state : ChatState U) (a : ChatTurnsLoadedAction U) : ReduceOutcome × ChatState U :=
  let existingIds := state.turns.map (·.id)
  let olderTurns := a.turns.filter fun turn => turn.id ∉ existingIds
  (.applied, { state with turns := olderTurns ++ state.turns, turnsNextCursor := a.turnsNextCursor })

/-! ### Response parts -/

/-- Runs `k` on the active turn if it has the id, and is a no-op otherwise. -/
def withActiveTurn (state : ChatState U) (turnID : String)
    (k : ActiveTurn U → ReduceOutcome × ChatState U) : ReduceOutcome × ChatState U :=
  match state.activeTurn with
  | none => (.noOp, state)
  | some active => if active.id ≠ turnID then (.noOp, state) else k active

/-- The part with the call updated, if it is the call that is sought. -/
def updatedToolCall (targetToolCallID : String) (updater : ToolCallState U → ToolCallState U) :
    ResponsePart U → Option (ResponsePart U)
  | .toolCall tc => if toolCallID tc = targetToolCallID then some (.toolCall (updater tc)) else none
  | _ => none

/-- `updateToolCall`: updates the first call with the id. -/
def updateToolCall (state : ChatState U) (turnID targetToolCallID : String)
    (updater : ToolCallState U → ToolCallState U) : ReduceOutcome × ChatState U :=
  withActiveTurn state turnID fun active =>
    match updateFirst (updatedToolCall targetToolCallID updater) active.responseParts with
    | none => (.noOp, state)
    | some parts => (.applied, { state with activeTurn := some { active with responseParts := parts } })

/-- Recomputes the status if the outcome is `ReduceOutcomeApplied`. -/
def refreshIfApplied (res : ReduceOutcome × ChatState U) : ReduceOutcome × ChatState U :=
  if res.1 = .applied then (res.1, refreshSummaryStatus res.2) else res

/-- The id by which `updateResponsePart` finds a part, empty where it has none. -/
def partID : ResponsePart U → String
  | .toolCall v => toolCallID v
  | .markdown v => v.id
  | .reasoning v => v.id
  | _ => ""

/-- `updateResponsePart`: updates the first part with the id, which must not be empty. -/
def updateResponsePart (state : ChatState U) (turnID id : String)
    (updater : ResponsePart U → ResponsePart U) : ReduceOutcome × ChatState U :=
  withActiveTurn state turnID fun active =>
    match updateFirst
        (fun part => if partID part ≠ "" ∧ partID part = id then some (updater part) else none)
        active.responseParts with
    | none => (.noOp, state)
    | some parts => (.applied, { state with activeTurn := some { active with responseParts := parts } })

/-- `chat/delta` on its part. -/
def deltaPart (a : ChatDeltaAction) : ResponsePart U → ResponsePart U
  | .markdown m => .markdown { m with content := m.content ++ a.content }
  | p => p

/-- `chat/reasoning` on its part. -/
def reasoningPart (a : ChatReasoningAction) : ResponsePart U → ResponsePart U
  | .reasoning r => .reasoning
    { r with
      content := r.content ++ a.content
      startedAt := a.startedAt.or r.startedAt
      duration := a.duration.or r.duration }
  | p => p

/-- `chat/responsePart`. -/
def responsePart (state : ChatState U) (a : ChatResponsePartAction U) : ReduceOutcome × ChatState U :=
  withActiveTurn state a.turnId fun active =>
    match a.part with
    | .error _ => (.noOp, state)
    | part =>
      (.applied,
        { state with activeTurn := some { active with responseParts := active.responseParts ++ [part] } })

/-- `chat/toolCallStart`. -/
def toolCallStart (state : ChatState U) (a : ChatToolCallStartAction U) :
    ReduceOutcome × ChatState U :=
  withActiveTurn state a.turnId fun active =>
    let tc : ToolCallState U := .streaming
      { toolCallId := a.toolCallId
        toolName := a.toolName
        displayName := a.displayName
        intention := a.intention
        contributor := a.contributor
        _meta := a._meta
        partialInput := none
        invocationMessage := none }
    (.applied,
      { state with
        activeTurn := some { active with responseParts := active.responseParts ++ [.toolCall tc] } })

/-- `chat/usage`. -/
def usage (state : ChatState U) (a : ChatUsageAction) : ReduceOutcome × ChatState U :=
  withActiveTurn state a.turnId fun active =>
    (.applied, { state with activeTurn := some { active with usage := some a.usage } })

/-! ### Input requests -/

/-- The part edited by `f` if it is an open input request with the id. -/
def editOpenRequest (requestID : String)
    (f : InputRequestResponsePart → InputRequestResponsePart) :
    ResponsePart U → Option (ResponsePart U)
  | .inputRequest input =>
    if input.response.isNone && input.request.id = requestID then some (.inputRequest (f input))
    else none
  | _ => none

/-- `upsertInputRequest`. -/
def upsertInputRequest (state : ChatState U) (req : ChatInputRequest) :
    ReduceOutcome × ChatState U :=
  match state.activeTurn with
  | none => (.noOp, state)
  | some active =>
    let parts :=
      match updateFirst (editOpenRequest req.id fun input =>
          ⟨{ req with answers := req.answers.or input.request.answers }, none⟩)
        active.responseParts with
      | some parts => parts
      | none => active.responseParts ++ [.inputRequest ⟨req, none⟩]
    let state : ChatState U := { state with activeTurn := some { active with responseParts := parts } }
    (.applied, { state with status := withStatusFlag (summaryStatus state none) isRead false })

/-- `applyInputAnswerChanged` on the request. -/
def answerChanged (a : ChatInputAnswerChangedAction) (input : InputRequestResponsePart) :
    InputRequestResponsePart :=
  let answers := input.request.answers.getD Record.empty
  let answers :=
    match a.answer with
    | none => answers.delete a.questionId
    | some answer => answers.set a.questionId answer
  { input with
    request := { input.request with answers := if answers.isEmpty then none else some answers } }

/-- `applyInputAnswerChanged`. -/
def inputAnswerChanged (state : ChatState U) (a : ChatInputAnswerChangedAction) :
    ReduceOutcome × ChatState U :=
  match state.activeTurn with
  | none => (.noOp, state)
  | some active =>
    match updateFirst (editOpenRequest a.requestId (answerChanged a)) active.responseParts with
    | none => (.noOp, state)
    | some parts => (.applied, { state with activeTurn := some { active with responseParts := parts } })

/-- `chat/inputCompleted` on the request. -/
def completeRequest (a : ChatInputCompletedAction) (input : InputRequestResponsePart) :
    InputRequestResponsePart :=
  let finalAnswers :=
    (input.request.answers.getD Record.empty).merge (a.answers.getD Record.empty)
  { request :=
      { input.request with answers := if finalAnswers.isEmpty then none else some finalAnswers }
    response := some a.response }

/-- `chat/inputCompleted`. -/
def inputCompleted (state : ChatState U) (a : ChatInputCompletedAction) :
    ReduceOutcome × ChatState U :=
  match state.activeTurn with
  | none => (.noOp, state)
  | some active =>
    match updateFirst (editOpenRequest a.requestId (completeRequest a)) active.responseParts with
    | none => (.noOp, state)
    | some parts =>
      (.applied, refreshSummaryStatus
        { state with activeTurn := some { active with responseParts := parts } })

/-! ### Pending messages -/

/-- `chat/pendingMessageSet`. -/
def pendingMessageSet (state : ChatState U) (a : ChatPendingMessageSetAction) :
    ReduceOutcome × ChatState U :=
  let entry : PendingMessage := ⟨a.id, some a.kind, a.message⟩
  let state : ChatState U :=
    if a.kind = .steering then { state with steeringMessage := some entry }
    else if state.steeringMessage.map (·.id) = some a.id then { state with steeringMessage := none }
    else state
  let list := state.queuedMessages.getD []
  (.applied, { state with queuedMessages := some (upsertWhere (fun m => m.id = entry.id) entry list) })

/-- `chat/pendingMessageRemoved`. -/
def pendingMessageRemoved (state : ChatState U) (a : ChatPendingMessageRemovedAction) :
    ReduceOutcome × ChatState U :=
  let (outcome, state) : ReduceOutcome × ChatState U :=
    if a.kind = .steering ∧ state.steeringMessage.map (·.id) = some a.id then
      (.applied, { state with steeringMessage := none })
    else (.noOp, state)
  match eraseWhere (fun m => m.id = a.id && m.kind.getD .queued = a.kind)
    (state.queuedMessages.getD []) with
  | none => (outcome, state)
  | some list => (.applied, { state with queuedMessages := if list.isEmpty then none else some list })

/-- `byID[id]`: the last message with the id. -/
def byID (messages : List PendingMessage) (id : String) : Option PendingMessage :=
  messages.reverse.find? fun m => m.id = id

/-- The messages of `order` that are not `seen` yet, and the ids seen then. -/
def reorder (messages : List PendingMessage) :
    List String → List PendingMessage → List String → List PendingMessage × List String
  | [], reordered, seen => (reordered, seen)
  | id :: order, reordered, seen =>
    match byID messages id with
    | none => reorder messages order reordered seen
    | some msg =>
      if id ∈ seen then reorder messages order reordered seen
      else reorder messages order (reordered ++ [msg]) (seen ++ [id])

/-- `chat/queuedMessagesReordered`. -/
def queuedMessagesReordered (state : ChatState U) (order : List String) :
    ReduceOutcome × ChatState U :=
  match state.queuedMessages with
  | none => (.noOp, state)
  | some list =>
    let (reordered, seen) := reorder list order [] []
    (.applied,
      { state with queuedMessages := some (reordered ++ list.filter fun m => m.id ∉ seen) })

/-! ### Other fields -/

/-- `backgroundWorkID`: an empty id of an unknown kind is no id. -/
def backgroundWorkID [RawId U] : BackgroundWork U → Option String
  | .shell base _ _ | .subagent base _ => some base.id
  | .unknown raw => (RawId.id? raw).filter fun id => id ≠ ""

/-- `chat/backgroundWorkSet`. -/
def backgroundWorkSet [RawId U] (state : ChatState U) (work : BackgroundWork U) :
    ReduceOutcome × ChatState U :=
  match backgroundWorkID work with
  | none => (.noOp, state)
  | some id =>
    let list := state.backgroundWork.getD []
    (.applied,
      { state with backgroundWork := some (upsertWhere (fun w => backgroundWorkID w = some id) work list) })

/-- `chat/backgroundWorkRemoved`. -/
def backgroundWorkRemoved [RawId U] (state : ChatState U) (id : String) :
    ReduceOutcome × ChatState U :=
  match state.backgroundWork with
  | none => (.noOp, state)
  | some list =>
    match eraseWhere (fun w => backgroundWorkID w = some id) list with
    | none => (.noOp, state)
    | some list => (.applied, { state with backgroundWork := some list })

/-- `chat/workingDirectorySet`. -/
def workingDirectorySet (state : ChatState U) (directory : URI) : ReduceOutcome × ChatState U :=
  let list := state.workingDirectories.getD []
  if directory ∈ list then (.noOp, state)
  else (.applied, { state with workingDirectories := some (list ++ [directory]) })

/-- `chat/workingDirectoryRemoved`: a slice that becomes empty is not `nil`. -/
def workingDirectoryRemoved (state : ChatState U) (directory : URI) : ReduceOutcome × ChatState U :=
  match eraseWhere (fun d => d = directory) (state.workingDirectories.getD []) with
  | none => (.noOp, state)
  | some list => (.applied, { state with workingDirectories := some list })

/-- `chat/configChanged`. -/
def configChanged (state : ChatState U) (a : ChatConfigChangedAction) : ReduceOutcome × ChatState U :=
  let config := state.config.getD ⟨none, Record.empty⟩
  let values := if a.replace.getD false then Record.empty else config.values
  (.applied, { state with config := some { config with values := values.merge a.config } })

/-- `chat/moved`. -/
def moved (state : ChatState U) (a : ChatMovedAction) : ReduceOutcome × ChatState U :=
  let state : ChatState U := { state with provider := a.provider }
  match state.config with
  | some config => (.applied, { state with config := some { config with schema := a.schema } })
  | none =>
    if a.schema.isSome then (.applied, { state with config := some ⟨a.schema, Record.empty⟩ })
    else (.applied, state)

/-! ### The reducer -/

/-- `ApplyActionToChat` on the actions of a chat; `none` where it panics. -/
def applyActionToChat [RawId U] (otherParse : String → Option ℤ) (state : ChatState U) :
    ChatAction U (ChatToolCallConfirmedAction U) → Option (ReduceOutcome × ChatState U)
  | .turnStarted a => some (turnStarted state a)
  | .delta a => some (updateResponsePart state a.turnId a.partId (deltaPart a))
  | .responsePart a => some (responsePart state a)
  | .turnComplete a => endTurn otherParse state a.turnId a.duration .complete none none
  | .turnCancelled a => endTurn otherParse state a.turnId a.duration .cancelled none none
  | .error a =>
    endTurn otherParse state a.turnId a.duration .error (some SessionStatus.error) (some a.part)
  | .turnResume turnId => some (turnResume state turnId)
  | .activityChanged activity => some (.applied, { state with activity := activity })
  | .backgroundWorkSet work => some (backgroundWorkSet state work)
  | .backgroundWorkRemoved id => some (backgroundWorkRemoved state id)
  | .movableChanged movable => some (.applied, { state with movable := some movable })
  | .changesetsChanged changesets =>
    some (.applied, { state with changesets := copySlice changesets })
  | .canvasesChanged canvases => some (.applied, { state with canvases := copySlice canvases })
  | .workingDirectorySet directory => some (workingDirectorySet state directory)
  | .workingDirectoryRemoved directory => some (workingDirectoryRemoved state directory)
  | .toolCallStart a => some (toolCallStart state a)
  | .toolCallDelta a => some (updateToolCall state a.turnId a.toolCallId (toolCallDelta a))
  | .toolCallReady a =>
    some (refreshIfApplied (updateToolCall state a.turnId a.toolCallId (toolCallReady a)))
  | .toolCallConfirmed a =>
    some (refreshIfApplied (updateToolCall state a.turnId a.toolCallId (toolCallConfirmed a)))
  | .toolCallComplete a =>
    some (refreshIfApplied (updateToolCall state a.turnId a.toolCallId (toolCallComplete a)))
  | .toolCallResultConfirmed a =>
    some (refreshIfApplied (updateToolCall state a.turnId a.toolCallId (toolCallResultConfirmed a)))
  | .toolCallContentChanged a =>
    some (updateToolCall state a.turnId a.toolCallId (toolCallContentChanged a))
  | .toolCallAuthRequired a =>
    some (refreshIfApplied (updateToolCall state a.turnId a.toolCallId (toolCallAuthRequired a)))
  | .toolCallAuthResolved a =>
    some (refreshIfApplied (updateToolCall state a.turnId a.toolCallId (toolCallAuthResolved a)))
  | .usage a => some (usage state a)
  | .reasoning a => some (updateResponsePart state a.turnId a.partId (reasoningPart a))
  | .truncated turnId => some (truncated state turnId)
  | .turnsLoaded a => some (turnsLoaded state a)
  | .inputRequested request => some (upsertInputRequest state request)
  | .inputAnswerChanged a => some (inputAnswerChanged state a)
  | .inputCompleted a => some (inputCompleted state a)
  | .pendingMessageSet a => some (pendingMessageSet state a)
  | .pendingMessageRemoved a => some (pendingMessageRemoved state a)
  | .queuedMessagesReordered order => some (queuedMessagesReordered state order)
  | .draftChanged draft => some (.applied, { state with draft := draft })
  | .isReadChanged value =>
    some (.applied, { state with status := withStatusFlag state.status isRead value })
  | .isArchivedChanged value =>
    some (.applied, { state with status := withStatusFlag state.status isArchived value })
  | .configChanged a => some (configChanged state a)
  | .moved a => some (moved state a)

end AgentHostProtocol.Go
