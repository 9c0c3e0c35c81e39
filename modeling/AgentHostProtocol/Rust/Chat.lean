import AgentHostProtocol.Library.Lists
import AgentHostProtocol.Rust.Outcome
import AgentHostProtocol.Rust.ToolCall

/-!
# The Rust chat reducer

`applyActionToChat` and its helpers. A function that the source gives a mutable reference
returns the outcome with the state that the reference then holds.

The source collects queued messages in a hash map when it reorders them; the model keeps
the map as the list of its entries.
-/

namespace AgentHostProtocol.Rust

open Library SessionStatus

variable {U : Type}

/-! ### Status -/

/-- `has_blocking_tool_call`. -/
def hasBlockingToolCall (state : ChatState U) : Bool :=
  match state.activeTurn with
  | none => false
  | some active => active.responseParts.any fun
    | .toolCall (.pendingConfirmation _) => true
    | .toolCall (.pendingResultConfirmation _) => true
    | .toolCall (.authRequired _) => true
    | _ => false

/-- `has_open_input_request`. -/
def hasOpenInputRequest (state : ChatState U) : Bool :=
  match state.activeTurn with
  | none => false
  | some turn => turn.responseParts.any fun
    | .inputRequest input => input.response.isNone
    | _ => false

/-- `with_status_flag`. -/
def withStatusFlag (status flag : SessionStatus) (set : Bool) : SessionStatus :=
  if set then status ||| flag else status &&& ~~~flag

/-- `summary_status`. -/
def summaryStatus (state : ChatState U) (terminal : Option SessionStatus) : SessionStatus :=
  let activity :=
    match terminal with
    | some t => t
    | none =>
      if hasOpenInputRequest state || hasBlockingToolCall state then inputNeeded
      else if state.activeTurn.isSome then inProgress
      else idle
  state.status &&& ~~~activityMask ||| activity

/-- `refresh_summary_status`. -/
def refreshSummaryStatus (state : ChatState U) : ChatState U :=
  { state with status := summaryStatus state none }

/-! ### Turns -/

/-- What `end_turn` makes of a part. -/
def finalPart : ResponsePart U → ResponsePart U
  | .toolCall tc => .toolCall (cancelUnfinished tc)
  | other => other

/-- `end_turn`. The timestamp is derived before anything is written. -/
def endTurn (jiff : Jiff) (state : ChatState U) (turnId : String) (duration : ℤ)
    (turnState : TurnState) (terminalStatus : Option SessionStatus)
    (errorPart : Option ErrorResponsePart) : ReduceOutcome × ChatState U :=
  match state.activeTurn with
  | none => (.noOp, state)
  | some active =>
    if active.id ≠ turnId then (.noOp, state)
    else
      let duration := max duration 0
      match addMillisecondsToTimestamp jiff active.startedAt duration with
      | .error error => (.invalid error, state)
      | .ok modifiedAt =>
        let responseParts := active.responseParts.map finalPart
        let responseParts :=
          match errorPart with
          | some errorPart => responseParts ++ [.error errorPart]
          | none => responseParts
        let turn : Turn U :=
          { id := active.id
            startedAt := some active.startedAt
            duration := some duration
            message := active.message
            responseParts := responseParts
            usage := active.usage
            state := turnState }
        let state : ChatState U :=
          { state with
            activeTurn := none
            turns := state.turns ++ [turn]
            modifiedAt := modifiedAt }
        (.applied, { state with status := summaryStatus state terminalStatus })

/-- `apply_turn_started`. -/
def turnStarted (state : ChatState U) (a : ChatTurnStartedAction) : ReduceOutcome × ChatState U :=
  let state : ChatState U :=
    { state with activeTurn := some ⟨a.turnId, a.startedAt, a.message, [], none⟩ }
  let state : ChatState U :=
    { state with
      status := withStatusFlag (summaryStatus state none) isRead false
      modifiedAt := a.startedAt }
  match a.queuedMessageId with
  | none => (.applied, state)
  | some qmid =>
    let state : ChatState U :=
      if state.steeringMessage.map (·.id) = some qmid then { state with steeringMessage := none }
      else state
    match state.queuedMessages with
    | none => (.applied, state)
    | some list =>
      let list := list.filter fun m => m.id ≠ qmid
      (.applied, { state with queuedMessages := if list.isEmpty then none else some list })

/-- `chat/turnResume`. -/
def turnResume (state : ChatState U) (turnId : String) : ReduceOutcome × ChatState U :=
  match state.activeTurn with
  | some _ => (.noOp, state)
  | none =>
    match state.turns.getLast? with
    | none => (.noOp, state)
    | some turn =>
      if turn.id ≠ turnId ∨ turn.state ≠ .error then (.noOp, state)
      else
        match turn.responseParts.getLast? with
        | some (.error error) =>
          if error.resumable ≠ some true then (.noOp, state)
          else
            let state : ChatState U :=
              { state with
                turns := state.turns.dropLast
                activeTurn := some
                  { id := turn.id
                    startedAt := turn.startedAt.getD state.modifiedAt
                    message := turn.message
                    responseParts := turn.responseParts
                    usage := turn.usage } }
            let state := refreshSummaryStatus state
            (.applied, { state with status := withStatusFlag state.status isRead false })
        | _ => (.noOp, state)

/-- `apply_truncated`. -/
def truncated (state : ChatState U) (turnId : Option String) : ReduceOutcome × ChatState U :=
  match turnId with
  | none =>
    let state : ChatState U := { state with turns := [], turnsNextCursor := none, activeTurn := none }
    (.applied, { state with status := summaryStatus state none })
  | some id =>
    match state.turns.findIdx? fun t => t.id = id with
    | none => (.noOp, state)
    | some idx =>
      let state : ChatState U :=
        { state with turns := state.turns.take (idx + 1), activeTurn := none }
      (.applied, { state with status := summaryStatus state none })

/-- `chat/turnsLoaded`. -/
def turnsLoaded (state : ChatState U) (a : ChatTurnsLoadedAction U) : ReduceOutcome × ChatState U :=
  let existingIds := state.turns.map (·.id)
  let olderTurns := a.turns.filter fun turn => turn.id ∉ existingIds
  (.applied, { state with turns := olderTurns ++ state.turns, turnsNextCursor := a.turnsNextCursor })

/-! ### Response parts -/

/-- Runs `k` on the active turn if it has the id, and is a no-op otherwise. -/
def withActiveTurn (state : ChatState U) (turnId : String)
    (k : ActiveTurn U → ReduceOutcome × ChatState U) : ReduceOutcome × ChatState U :=
  match state.activeTurn with
  | none => (.noOp, state)
  | some active => if active.id ≠ turnId then (.noOp, state) else k active

/-- The part with the call updated, if it is the call that is sought. -/
def updatedToolCall (toolCallIdTarget : String) (updater : ToolCallState U → ToolCallState U) :
    ResponsePart U → Option (ResponsePart U)
  | .toolCall tc => if toolCallId tc = toolCallIdTarget then some (.toolCall (updater tc)) else none
  | _ => none

/-- `update_tool_call`: updates the first call with the id. -/
def updateToolCall (state : ChatState U) (turnId toolCallIdTarget : String)
    (updater : ToolCallState U → ToolCallState U) : ReduceOutcome × ChatState U :=
  withActiveTurn state turnId fun active =>
    match updateFirst (updatedToolCall toolCallIdTarget updater) active.responseParts with
    | none => (.noOp, state)
    | some parts => (.applied, { state with activeTurn := some { active with responseParts := parts } })

/-- Recomputes the status if the outcome is `Applied`. -/
def refreshIfApplied (res : ReduceOutcome × ChatState U) : ReduceOutcome × ChatState U :=
  if res.1 = .applied then (res.1, refreshSummaryStatus res.2) else res

/-- The id by which `update_response_part` finds a part. -/
def partId : ResponsePart U → Option String
  | .toolCall tc => some (toolCallId tc)
  | .markdown m => some m.id
  | .reasoning r => some r.id
  | .error _ | .contentRef _ | .systemNotification _ | .inputRequest _ | .unknown _ => none

/-- `update_response_part`: updates the first part with the id. -/
def updateResponsePart (state : ChatState U) (turnId id : String)
    (updater : ResponsePart U → ResponsePart U) : ReduceOutcome × ChatState U :=
  withActiveTurn state turnId fun active =>
    match updateFirst (fun part => if partId part = some id then some (updater part) else none)
      active.responseParts with
    | none => (.noOp, state)
    | some parts => (.applied, { state with activeTurn := some { active with responseParts := parts } })

/-- `chat/delta` on its part. -/
def deltaPart (a : ChatDeltaAction) : ResponsePart U → ResponsePart U
  | .markdown m => .markdown { m with content := m.content ++ a.content }
  | p => p

/-- `chat/reasoning` on its part. -/
def reasoningPart (a : ChatReasoningAction) : ResponsePart U → ResponsePart U
  | .reasoning r => .reasoning
    { r with
      content := r.content ++ a.content
      startedAt := a.startedAt.or r.startedAt
      duration := a.duration.or r.duration }
  | p => p

/-- `chat/responsePart`. -/
def responsePart (state : ChatState U) (a : ChatResponsePartAction U) : ReduceOutcome × ChatState U :=
  withActiveTurn state a.turnId fun active =>
    match a.part with
    | .error _ => (.noOp, state)
    | part =>
      (.applied,
        { state with activeTurn := some { active with responseParts := active.responseParts ++ [part] } })

/-- `chat/toolCallStart`. -/
def toolCallStart (state : ChatState U) (a : ChatToolCallStartAction U) :
    ReduceOutcome × ChatState U :=
  withActiveTurn state a.turnId fun active =>
    let tc : ToolCallState U := .streaming
      { toolCallId := a.toolCallId
        toolName := a.toolName
        displayName := a.displayName
        intention := a.intention
        contributor := a.contributor
        _meta := a._meta
        partialInput := none
        invocationMessage := none }
    (.applied,
      { state with
        activeTurn := some { active with responseParts := active.responseParts ++ [.toolCall tc] } })

/-- `chat/usage`. -/
def usage (state : ChatState U) (a : ChatUsageAction) : ReduceOutcome × ChatState U :=
  withActiveTurn state a.turnId fun active =>
    (.applied, { state with activeTurn := some { active with usage := some a.usage } })

/-! ### Input requests -/

/-- The part edited by `f` if it is an open input request with the id. -/
def editOpenRequest (requestId : String)
    (f : InputRequestResponsePart → InputRequestResponsePart) :
    ResponsePart U → Option (ResponsePart U)
  | .inputRequest input =>
    if input.response.isNone && input.request.id = requestId then some (.inputRequest (f input))
    else none
  | _ => none

/-- `upsert_input_request`. -/
def upsertInputRequest (state : ChatState U) (request : ChatInputRequest) :
    ReduceOutcome × ChatState U :=
  match state.activeTurn with
  | none => (.noOp, state)
  | some active =>
    let responseParts :=
      match updateFirst (editOpenRequest request.id fun existing =>
          ⟨{ request with answers := request.answers.or existing.request.answers }, none⟩)
        active.responseParts with
      | some parts => parts
      | none => active.responseParts ++ [.inputRequest ⟨request, none⟩]
    let state : ChatState U :=
      { state with activeTurn := some { active with responseParts := responseParts } }
    (.applied, { state with status := withStatusFlag (summaryStatus state none) isRead false })

/-- `apply_input_answer_changed` on the request. -/
def answerChanged (a : ChatInputAnswerChangedAction) (part : InputRequestResponsePart) :
    InputRequestResponsePart :=
  let answers := part.request.answers.getD Record.empty
  let answers :=
    match a.answer with
    | none => answers.delete a.questionId
    | some ans => answers.set a.questionId ans
  { part with
    request := { part.request with answers := if answers.isEmpty then none else some answers } }

/-- `apply_input_answer_changed`. -/
def inputAnswerChanged (state : ChatState U) (a : ChatInputAnswerChangedAction) :
    ReduceOutcome × ChatState U :=
  match state.activeTurn with
  | none => (.noOp, state)
  | some active =>
    match updateFirst (editOpenRequest a.requestId (answerChanged a)) active.responseParts with
    | none => (.noOp, state)
    | some parts => (.applied, { state with activeTurn := some { active with responseParts := parts } })

/-- `chat/inputCompleted` on the request. -/
def completeRequest (a : ChatInputCompletedAction) (part : InputRequestResponsePart) :
    InputRequestResponsePart :=
  let finalAnswers := part.request.answers.getD Record.empty
  let finalAnswers :=
    match a.answers with
    | some answers => finalAnswers.merge answers
    | none => finalAnswers
  { request :=
      { part.request with answers := if finalAnswers.isEmpty then none else some finalAnswers }
    response := some a.response }

/-- `chat/inputCompleted`. -/
def inputCompleted (state : ChatState U) (a : ChatInputCompletedAction) :
    ReduceOutcome × ChatState U :=
  match state.activeTurn with
  | none => (.noOp, state)
  | some active =>
    match updateFirst (editOpenRequest a.requestId (completeRequest a)) active.responseParts with
    | none => (.noOp, state)
    | some parts =>
      (.applied, refreshSummaryStatus
        { state with activeTurn := some { active with responseParts := parts } })

/-! ### Pending messages -/

/-- `chat/pendingMessageSet`. -/
def pendingMessageSet (state : ChatState U) (a : ChatPendingMessageSetAction) :
    ReduceOutcome × ChatState U :=
  let entry : PendingMessage := ⟨a.id, some a.kind, a.message⟩
  let state : ChatState U :=
    if a.kind = .steering then { state with steeringMessage := some entry }
    else if state.steeringMessage.map (·.id) = some a.id then { state with steeringMessage := none }
    else state
  let list := state.queuedMessages.getD []
  (.applied, { state with queuedMessages := some (upsertWhere (fun m => m.id = entry.id) entry list) })

/-- `chat/pendingMessageRemoved`. -/
def pendingMessageRemoved (state : ChatState U) (a : ChatPendingMessageRemovedAction) :
    ReduceOutcome × ChatState U :=
  let (outcome, state) : ReduceOutcome × ChatState U :=
    if a.kind = .steering ∧ state.steeringMessage.map (·.id) = some a.id then
      (.applied, { state with steeringMessage := none })
    else (.noOp, state)
  match state.queuedMessages with
  | none => (outcome, state)
  | some list =>
    match eraseWhere (fun m => m.id = a.id && m.kind.getD .queued = a.kind) list with
    | none => (outcome, state)
    | some list => (.applied, { state with queuedMessages := if list.isEmpty then none else some list })

/-- The entries of a map from ids to messages after the insertion of a message. -/
def insertById (m : PendingMessage) (byId : List PendingMessage) : List PendingMessage :=
  byId.filter (fun x => x.id ≠ m.id) ++ [m]

/-- Takes the messages with the ids out of the map, in the order of the ids. -/
def takeById : List String → List PendingMessage → List PendingMessage × List PendingMessage
  | [], byId => ([], byId)
  | id :: ids, byId =>
    match byId.find? fun m => m.id = id with
    | none => takeById ids byId
    | some msg =>
      let (taken, byId) := takeById ids (byId.filter fun m => m.id ≠ id)
      (msg :: taken, byId)

/-- `chat/queuedMessagesReordered`. -/
def queuedMessagesReordered (state : ChatState U) (order : List String) :
    ReduceOutcome × ChatState U :=
  match state.queuedMessages with
  | none => (.noOp, state)
  | some list =>
    let originalOrder := list.map (·.id)
    let byId := list.foldl (fun byId m => insertById m byId) []
    let (reordered, byId) := takeById order byId
    let (rest, _) := takeById originalOrder byId
    (.applied, { state with queuedMessages := some (reordered ++ rest) })

/-! ### Other fields -/

/-- `chat/backgroundWorkSet`. -/
def backgroundWorkSet [RawId U] (state : ChatState U) (work : BackgroundWork U) :
    ReduceOutcome × ChatState U :=
  match work.id? with
  | none => (.noOp, state)
  | some actionId =>
    let list := state.backgroundWork.getD []
    (.applied,
      { state with backgroundWork := some (upsertWhere (fun w => w.id? = some actionId) work list) })

/-- `chat/backgroundWorkRemoved`. -/
def backgroundWorkRemoved [RawId U] (state : ChatState U) (id : String) :
    ReduceOutcome × ChatState U :=
  match state.backgroundWork with
  | none => (.noOp, state)
  | some list =>
    match eraseWhere (fun w => w.id? = some id) list with
    | none => (.noOp, state)
    | some list => (.applied, { state with backgroundWork := some list })

/-- `chat/workingDirectorySet`: the list is created before the lookup. -/
def workingDirectorySet (state : ChatState U) (directory : URI) : ReduceOutcome × ChatState U :=
  let list := state.workingDirectories.getD []
  let state : ChatState U := { state with workingDirectories := some list }
  if directory ∈ list then (.noOp, state)
  else (.applied, { state with workingDirectories := some (list ++ [directory]) })

/-- `chat/workingDirectoryRemoved`. -/
def workingDirectoryRemoved (state : ChatState U) (directory : URI) : ReduceOutcome × ChatState U :=
  match state.workingDirectories with
  | none => (.noOp, state)
  | some list =>
    match eraseWhere (fun d => d = directory) list with
    | none => (.noOp, state)
    | some list => (.applied, { state with workingDirectories := some list })

/-- `chat/configChanged`. -/
def configChanged (state : ChatState U) (a : ChatConfigChangedAction) : ReduceOutcome × ChatState U :=
  let config := state.config.getD ⟨none, Record.empty⟩
  let values := if a.replace.getD false then a.config else config.values.merge a.config
  (.applied, { state with config := some { config with values := values } })

/-- `chat/moved`. -/
def moved (state : ChatState U) (a : ChatMovedAction) : ReduceOutcome × ChatState U :=
  let state : ChatState U := { state with provider := a.provider }
  match state.config with
  | some config => (.applied, { state with config := some { config with schema := a.schema } })
  | none =>
    if a.schema.isSome then
      (.applied, { state with config := some ⟨a.schema, Record.empty⟩ })
    else (.applied, state)

/-! ### The reducer -/

/-- `apply_action_to_chat` on the actions of a chat. -/
def applyChatAction [RawId U] (jiff : Jiff) (state : ChatState U) :
    ChatAction U (ChatToolCallConfirmedAction U) → ReduceOutcome × ChatState U
  | .turnStarted a => turnStarted state a
  | .delta a => updateResponsePart state a.turnId a.partId (deltaPart a)
  | .responsePart a => responsePart state a
  | .turnComplete a => endTurn jiff state a.turnId a.duration .complete none none
  | .turnCancelled a => endTurn jiff state a.turnId a.duration .cancelled none none
  | .error a =>
    endTurn jiff state a.turnId a.duration .error (some SessionStatus.error) (some a.part)
  | .turnResume turnId => turnResume state turnId
  | .activityChanged activity => (.applied, { state with activity := activity })
  | .backgroundWorkSet work => backgroundWorkSet state work
  | .backgroundWorkRemoved id => backgroundWorkRemoved state id
  | .movableChanged movable => (.applied, { state with movable := some movable })
  | .changesetsChanged changesets => (.applied, { state with changesets := changesets })
  | .canvasesChanged canvases => (.applied, { state with canvases := canvases })
  | .workingDirectorySet directory => workingDirectorySet state directory
  | .workingDirectoryRemoved directory => workingDirectoryRemoved state directory
  | .toolCallStart a => toolCallStart state a
  | .toolCallDelta a => updateToolCall state a.turnId a.toolCallId (toolCallDelta a)
  | .toolCallReady a =>
    refreshIfApplied (updateToolCall state a.turnId a.toolCallId (toolCallReady a))
  | .toolCallConfirmed a =>
    refreshIfApplied (updateToolCall state a.turnId a.toolCallId (toolCallConfirmed a))
  | .toolCallComplete a =>
    refreshIfApplied (updateToolCall state a.turnId a.toolCallId (toolCallComplete a))
  | .toolCallResultConfirmed a =>
    refreshIfApplied (updateToolCall state a.turnId a.toolCallId (toolCallResultConfirmed a))
  | .toolCallContentChanged a =>
    updateToolCall state a.turnId a.toolCallId (toolCallContentChanged a)
  | .toolCallAuthRequired a =>
    refreshIfApplied (updateToolCall state a.turnId a.toolCallId (toolCallAuthRequired a))
  | .toolCallAuthResolved a =>
    refreshIfApplied (updateToolCall state a.turnId a.toolCallId (toolCallAuthResolved a))
  | .usage a => usage state a
  | .reasoning a => updateResponsePart state a.turnId a.partId (reasoningPart a)
  | .truncated turnId => truncated state turnId
  | .turnsLoaded a => turnsLoaded state a
  | .inputRequested request => upsertInputRequest state request
  | .inputAnswerChanged a => inputAnswerChanged state a
  | .inputCompleted a => inputCompleted state a
  | .pendingMessageSet a => pendingMessageSet state a
  | .pendingMessageRemoved a => pendingMessageRemoved state a
  | .queuedMessagesReordered order => queuedMessagesReordered state order
  | .draftChanged draft => (.applied, { state with draft := draft })
  | .isReadChanged value =>
    (.applied, { state with status := withStatusFlag state.status isRead value })
  | .isArchivedChanged value =>
    (.applied, { state with status := withStatusFlag state.status isArchived value })
  | .configChanged a => configChanged state a
  | .moved a => moved state a

end AgentHostProtocol.Rust
