import AgentHostProtocol.Dotnet.Chat
import AgentHostProtocol.Kotlin.ToolCall
import AgentHostProtocol.Library.Lists

/-!
# The .NET chat reducer

`Reducers.ApplyToChat` and its helpers. Like that of a session, the reducer mutates the state it is
given; in the model it returns the outcome with the state as it is then. Only the end of a turn can
throw.
-/

namespace AgentHostProtocol.Dotnet.Chat

open Library SessionStatus

variable {U : Type}

/-- `ChatToolCallConfirmedAction` as it is generated: one record for both variants, as in Kotlin. -/
abbrev ChatToolCallConfirmedAction := Kotlin.ChatToolCallConfirmedAction

/-! ### Tool calls -/

/-- `ToolCallId`. -/
def toolCallId (tc : ToolCallState U) : String := (toolCallMeta tc).toolCallId

/-- `ToolCallMeta` under the metadata of an action. -/
def commonWithMeta (tc : ToolCallState U) (_meta : Option Meta) : ToolCallBase U :=
  { toolCallMeta tc with _meta := _meta.or (toolCallMeta tc)._meta }

/-- `RefineToolCallContributor`. -/
def refineToolCallContributor (current next : Option (ToolCallContributor U)) :
    Option (ToolCallContributor U) :=
  match next with
  | none => current
  | some next =>
    match current with
    | some (.client currentClient) =>
      match next with
      | .client nextClient => if nextClient = currentClient then some next else current
      | _ => current
    | _ =>
      match next with
      | .client _ => current
      | next => some next

/-- `ResolveSelectedOption`. -/
def resolveSelectedOption (options : Option (List ConfirmationOption)) (id : Option String) :
    Option ConfirmationOption :=
  match id, options with
  | some id, some options => options.find? fun opt => opt.id = id
  | _, _ => none

/-- The updater of `ApplyChatToolCallDelta`. -/
def toolCallDelta (a : ChatToolCallDeltaAction) : ToolCallState U → ToolCallState U
  | .streaming s => .streaming
    { s with
      partialInput := (a.content.map fun content => s.partialInput.getD "" ++ content).or s.partialInput
      _meta := a._meta.or s._meta
      invocationMessage := a.invocationMessage.or s.invocationMessage }
  | tc => tc

/-- The call that `ApplyChatToolCallReady` makes of one that it applies to. -/
def readyState (a : ChatToolCallReadyAction U) (tc : ToolCallState U) (toolInput : Option ToolInput)
    (pending : Option (ToolCallPendingConfirmationState U)) : ToolCallState U :=
  let common := commonWithMeta tc a._meta
  let common : ToolCallBase U :=
    { common with
      contributor := refineToolCallContributor common.contributor a.contributor
      intention := a.intention.or common.intention }
  let readyToolInput := a.toolInput.or toolInput
  match a.confirmed with
  | some confirmed => .running
    { common with
      invocationMessage := a.invocationMessage
      toolInput := readyToolInput
      confirmed := confirmed
      selectedOption := none
      content := none }
  | none => .pendingConfirmation
    { common with
      invocationMessage := a.invocationMessage
      toolInput := readyToolInput
      confirmationTitle := a.confirmationTitle.or (pending.bind (·.confirmationTitle))
      riskAssessment := a.riskAssessment.or (pending.bind (·.riskAssessment))
      edits := a.edits.or (pending.bind (·.edits))
      editable := a.editable.or (pending.bind (·.editable))
      options := a.options.or (pending.bind (·.options)) }

/-- The updater of `ApplyChatToolCallReady`. -/
def toolCallReady (a : ChatToolCallReadyAction U) : ToolCallState U → ToolCallState U
  | .streaming s => readyState a (.streaming s) none none
  | .running s => readyState a (.running s) (toolCallInvocationAndInput (.running s)).toolInput none
  | .pendingConfirmation s =>
    readyState a (.pendingConfirmation s) (toolCallInvocationAndInput (.pendingConfirmation s)).toolInput (some s)
  | tc => tc

/-- The input after an approval: only inline input is edited. -/
def confirmedInput (editedToolInput : Option String) (toolInput : Option ToolInput) :
    Option ToolInput :=
  match editedToolInput, toolInput with
  | some edited, some (.inline _) => some (.inline edited)
  | _, toolInput => toolInput

/-- The updater of `ApplyChatToolCallConfirmed`. -/
def toolCallConfirmed (a : ChatToolCallConfirmedAction U) : ToolCallState U → ToolCallState U
  | .pendingConfirmation s =>
    let selected := resolveSelectedOption s.options a.selectedOptionId
    if a.approved then .running
      { s.toToolCallBase with
        _meta := a._meta.or s._meta
        invocationMessage := s.invocationMessage
        toolInput := confirmedInput a.editedToolInput s.toolInput
        confirmed := a.confirmed.getD .notNeeded
        selectedOption := selected
        content := none }
    else .cancelled
      { s.toToolCallBase with
        _meta := a._meta.or s._meta
        invocationMessage := s.invocationMessage
        toolInput := s.toolInput
        reason := a.reason.getD .denied
        reasonMessage := a.reasonMessage
        userSuggestion := a.userSuggestion
        selectedOption := selected }
  | tc => tc

/-- The call that `ApplyChatToolCallComplete` makes of one that it applies to. -/
def completeState (a : ChatToolCallCompleteAction) (tc : ToolCallState U) (params : ToolCallParameterFields)
    (confirmed : ToolCallPostConfirmationFields U) (preAuthContent : Option (List Json))
    (fromAuthRequired : Bool) : ToolCallState U :=
  let common := commonWithMeta tc a._meta
  if a.requiresResultConfirmation = some true ∧ !fromAuthRequired then
    .pendingResultConfirmation ⟨common, params, a.result, confirmed⟩
  else .completed ⟨common, params, { a.result with content := a.result.content.or preAuthContent }, confirmed⟩

/-- The updater of `ApplyChatToolCallComplete`. -/
def toolCallComplete (a : ChatToolCallCompleteAction) : ToolCallState U → ToolCallState U
  | .running v =>
    completeState a (.running v) v.toToolCallParameterFields v.toToolCallPostConfirmationFields none false
  | .pendingConfirmation v =>
    completeState a (.pendingConfirmation v) v.toToolCallParameterFields ⟨.notNeeded, none⟩ none false
  | .authRequired v =>
    if a.result.success then .authRequired v
    else
      completeState a (.authRequired v) v.toToolCallParameterFields v.toToolCallPostConfirmationFields
        v.content true
  | tc => tc

/-- The updater of `ApplyChatToolCallAuthRequired`. -/
def toolCallAuthRequired (a : ChatToolCallAuthRequiredAction) : ToolCallState U → ToolCallState U
  | .running running =>
    match running.contributor with
    | some (.mcp mcp) =>
      .authRequired
        { commonWithMeta (.running running) a._meta with
          contributor := some (.mcp mcp)
          toToolCallParameterFields := running.toToolCallParameterFields
          toToolCallPostConfirmationFields := running.toToolCallPostConfirmationFields
          content := running.content
          auth := a.auth }
    | _ => .running running
  | tc => tc

/-- The updater of `ApplyChatToolCallAuthResolved`. -/
def toolCallAuthResolved (a : ChatToolCallAuthResolvedAction) : ToolCallState U → ToolCallState U
  | .authRequired authRequired =>
    .running
      { commonWithMeta (.authRequired authRequired) a._meta with
        toToolCallParameterFields := authRequired.toToolCallParameterFields
        toToolCallPostConfirmationFields := authRequired.toToolCallPostConfirmationFields
        content := authRequired.content }
  | tc => tc

/-- The updater of `ApplyChatToolCallResultConfirmed`. -/
def toolCallResultConfirmed (a : ChatToolCallResultConfirmedAction) : ToolCallState U → ToolCallState U
  | .pendingResultConfirmation s =>
    let common : ToolCallBase U := { s.toToolCallBase with _meta := a._meta.or s._meta }
    if a.approved then
      .completed ⟨common, s.toToolCallParameterFields, s.toToolCallResult, s.toToolCallPostConfirmationFields⟩
    else .cancelled
      { common with
        toToolCallParameterFields := s.toToolCallParameterFields
        reason := .resultDenied
        reasonMessage := none
        userSuggestion := none
        selectedOption := s.selectedOption }
  | tc => tc

/-- The updater of `ChatToolCallContentChangedAction`. -/
def toolCallContentChanged (a : ChatToolCallContentChangedAction) : ToolCallState U → ToolCallState U
  | .running r => .running { r with _meta := a._meta.or r._meta, content := some a.content }
  | tc => tc

/-! ### The active turn -/

/-- `RefreshChatStatus`. -/
def refreshChatStatus (state : ChatState U) : ChatState U :=
  { state with status := chatSummaryStatus state none }

/-- `WithChatRefresh`. -/
def withChatRefresh (res : ReduceOutcome × ChatState U) : ReduceOutcome × ChatState U :=
  if res.1 = .applied then (res.1, refreshChatStatus res.2) else res

/-- Runs `k` on the active turn if it has the id, and is a no-op otherwise. -/
def withActiveTurn (state : ChatState U) (turnId : String)
    (k : ActiveTurn U → ReduceOutcome × ChatState U) : ReduceOutcome × ChatState U :=
  match state.activeTurn with
  | none => (.noOp, state)
  | some active => if active.id ≠ turnId then (.noOp, state) else k active

/-- The part with the call updated, if it is the call that is sought. -/
def updatedToolCall (targetToolCallId : String) (updater : ToolCallState U → ToolCallState U) :
    ResponsePart U → Option (ResponsePart U)
  | .toolCall tc => if toolCallId tc = targetToolCallId then some (.toolCall (updater tc)) else none
  | _ => none

/-- `UpdateToolCall`. -/
def updateToolCall (state : ChatState U) (turnId targetToolCallId : String)
    (updater : ToolCallState U → ToolCallState U) : ReduceOutcome × ChatState U :=
  withActiveTurn state turnId fun active =>
    match updateFirst (updatedToolCall targetToolCallId updater) active.responseParts with
    | none => (.noOp, state)
    | some parts => (.applied, { state with activeTurn := some { active with responseParts := parts } })

/-- The id by which `UpdateResponsePart` finds a part, empty if it has none. -/
def partId : ResponsePart U → String
  | .toolCall tc => toolCallId tc
  | .markdown v => v.id
  | .reasoning v => v.id
  | _ => ""

/-- `UpdateResponsePart`. -/
def updateResponsePart (state : ChatState U) (turnId id : String)
    (updater : ResponsePart U → ResponsePart U) : ReduceOutcome × ChatState U :=
  withActiveTurn state turnId fun active =>
    let update (part : ResponsePart U) : Option (ResponsePart U) :=
      if 0 < (partId part).length ∧ partId part = id then some (updater part) else none
    match updateFirst update active.responseParts with
    | none => (.noOp, state)
    | some parts => (.applied, { state with activeTurn := some { active with responseParts := parts } })

/-- `ChatDeltaAction` on its part. -/
def deltaPart (a : ChatDeltaAction) : ResponsePart U → ResponsePart U
  | .markdown m => .markdown { m with content := m.content ++ a.content }
  | p => p

/-- `ChatReasoningAction` on its part. -/
def reasoningPart (a : ChatReasoningAction) : ResponsePart U → ResponsePart U
  | .reasoning r => .reasoning
    { r with
      content := r.content ++ a.content
      startedAt := a.startedAt.or r.startedAt
      duration := a.duration.or r.duration }
  | p => p

/-- `ChatResponsePartAction`. -/
def responsePart (state : ChatState U) (a : ChatResponsePartAction U) : ReduceOutcome × ChatState U :=
  withActiveTurn state a.turnId fun active =>
    match a.part with
    | .error _ => (.noOp, state)
    | part =>
      (.applied,
        { state with activeTurn := some { active with responseParts := active.responseParts ++ [part] } })

/-- `ChatToolCallStartAction`. -/
def toolCallStart (state : ChatState U) (a : ChatToolCallStartAction U) : ReduceOutcome × ChatState U :=
  withActiveTurn state a.turnId fun active =>
    let tc : ToolCallState U := .streaming
      { toolCallId := a.toolCallId
        toolName := a.toolName
        displayName := a.displayName
        intention := a.intention
        contributor := a.contributor
        _meta := a._meta
        partialInput := none
        invocationMessage := none }
    (.applied,
      { state with
        activeTurn := some { active with responseParts := active.responseParts ++ [.toolCall tc] } })

/-- `ChatUsageAction`. -/
def usage (state : ChatState U) (a : ChatUsageAction) : ReduceOutcome × ChatState U :=
  withActiveTurn state a.turnId fun active =>
    (.applied, { state with activeTurn := some { active with usage := some a.usage } })

/-! ### Turns -/

/-- `ApplyChatTurnStarted`. -/
def turnStarted (state : ChatState U) (a : ChatTurnStartedAction) : ReduceOutcome × ChatState U :=
  let state : ChatState U :=
    { state with activeTurn := some ⟨a.turnId, a.startedAt, a.message, [], none⟩ }
  let state : ChatState U :=
    { state with status := chatSummaryStatus state none, modifiedAt := a.startedAt }
  let state : ChatState U := { state with status := withStatusFlag state.status isRead false }
  match a.queuedMessageId with
  | none => (.applied, state)
  | some qmid =>
    let state : ChatState U :=
      if state.steeringMessage.map (·.id) = some qmid then { state with steeringMessage := none }
      else state
    match state.queuedMessages with
    | none => (.applied, state)
    | some queued =>
      let queued := queued.filter fun m => m.id ≠ qmid
      (.applied, { state with queuedMessages := if queued.length = 0 then none else some queued })

/-- `ChatTurnResumeAction`. -/
def turnResume (state : ChatState U) (turnId : String) : ReduceOutcome × ChatState U :=
  match state.activeTurn, state.turns.getLast? with
  | none, some resumableTurn =>
    if resumableTurn.id ≠ turnId ∨ resumableTurn.state ≠ .error then (.noOp, state)
    else
      match resumableTurn.responseParts.getLast? with
      | some (.error errorPart) =>
        if errorPart.resumable ≠ some true then (.noOp, state)
        else
          let state : ChatState U :=
            { state with
              turns := state.turns.dropLast
              activeTurn := some
                { id := resumableTurn.id
                  startedAt := resumableTurn.startedAt.getD state.modifiedAt
                  message := resumableTurn.message
                  responseParts := resumableTurn.responseParts
                  usage := resumableTurn.usage } }
          (.applied,
            { state with status := withStatusFlag (chatSummaryStatus state none) isRead false })
      | _ => (.noOp, state)
  | _, _ => (.noOp, state)

/-- The writes of `ApplyChatTruncated` after those to the turns. -/
def withoutActiveTurn (state : ChatState U) : ChatState U :=
  let state : ChatState U := { state with activeTurn := none }
  { state with status := chatSummaryStatus state none }

/-- `ApplyChatTruncated`. -/
def truncated (state : ChatState U) (turnId : Option String) : ReduceOutcome × ChatState U :=
  match turnId with
  | none => (.applied, withoutActiveTurn { state with turns := [], turnsNextCursor := none })
  | some turnId =>
    match state.turns.findIdx? fun t => t.id = turnId with
    | none => (.noOp, state)
    | some idx => (.applied, withoutActiveTurn { state with turns := state.turns.take (idx + 1) })

/-- `ApplyChatTurnsLoaded`. -/
def turnsLoaded (state : ChatState U) (a : ChatTurnsLoadedAction U) : ReduceOutcome × ChatState U :=
  let existingIds := state.turns.map (·.id)
  let merged := a.turns.filter fun turn => turn.id ∉ existingIds
  (.applied, { state with turns := merged ++ state.turns, turnsNextCursor := a.turnsNextCursor })

/-! ### Input requests -/

/-- Whether `FindOpenInputRequestPart` looks for a part. -/
def isOpenRequest (requestId : String) : ResponsePart U → Bool
  | .inputRequest ir => ir.response.isNone && ir.request.id = requestId
  | _ => false

/-- Rewrites the part that `FindOpenInputRequestPart` finds. -/
def editOpenRequest (parts : List (ResponsePart U)) (requestId : String)
    (f : InputRequestResponsePart → InputRequestResponsePart) : Option (List (ResponsePart U)) :=
  (parts.findIdx? (isOpenRequest requestId)).bind fun found =>
    match parts[found]? with
    | some (.inputRequest existing) => some (parts.set found (.inputRequest (f existing)))
    | _ => none

/-- `UpsertChatInputRequestPart`. -/
def upsertChatInputRequestPart (state : ChatState U) (req : ChatInputRequest) :
    ReduceOutcome × ChatState U :=
  match state.activeTurn with
  | none => (.noOp, state)
  | some activeTurn =>
    let edited := editOpenRequest activeTurn.responseParts req.id fun existing =>
      ⟨{ req with answers := req.answers.or existing.request.answers }, none⟩
    let parts := edited.getD (activeTurn.responseParts ++ [.inputRequest ⟨req, none⟩])
    let state : ChatState U :=
      { state with activeTurn := some { activeTurn with responseParts := parts } }
    let state : ChatState U := { state with status := chatSummaryStatus state none }
    (.applied, { state with status := withStatusFlag state.status isRead false })

/-- `ApplyChatInputAnswerChanged`. -/
def inputAnswerChanged (state : ChatState U) (a : ChatInputAnswerChangedAction) :
    ReduceOutcome × ChatState U :=
  match state.activeTurn with
  | none => (.noOp, state)
  | some activeTurn =>
    let edited := editOpenRequest activeTurn.responseParts a.requestId fun part =>
      let answers := part.request.answers.getD Record.empty
      let answers :=
        match a.answer with
        | none => answers.delete a.questionId
        | some answer => answers.set a.questionId answer
      { part with request := { part.request with answers := if answers.isEmpty then none else some answers } }
    match edited with
    | none => (.noOp, state)
    | some parts =>
      (.applied, { state with activeTurn := some { activeTurn with responseParts := parts } })

/-- `ApplyChatInputCompleted`. -/
def inputCompleted (state : ChatState U) (a : ChatInputCompletedAction) : ReduceOutcome × ChatState U :=
  match state.activeTurn with
  | none => (.noOp, state)
  | some activeTurn =>
    let edited := editOpenRequest activeTurn.responseParts a.requestId fun part =>
      let finalAnswers := part.request.answers.getD Record.empty
      let finalAnswers :=
        match a.answers with
        | none => finalAnswers
        | some answers => finalAnswers.merge answers
      { request := { part.request with answers := if finalAnswers.isEmpty then none else some finalAnswers }
        response := some a.response }
    match edited with
    | none => (.noOp, state)
    | some parts =>
      (.applied,
        refreshChatStatus { state with activeTurn := some { activeTurn with responseParts := parts } })

/-! ### Pending messages -/

/-- `ApplyChatPendingMessageSet`. -/
def pendingMessageSet (state : ChatState U) (a : ChatPendingMessageSetAction) :
    ReduceOutcome × ChatState U :=
  let entry : PendingMessage := ⟨a.id, some a.kind, a.message⟩
  let state : ChatState U :=
    if a.kind = .steering then { state with steeringMessage := some entry }
    else if state.steeringMessage.map (·.id) = some a.id then { state with steeringMessage := none }
    else state
  let list := state.queuedMessages.getD []
  (.applied, { state with queuedMessages := some (upsertWhere (fun m => m.id = entry.id) entry list) })

/-- `ApplyChatPendingMessageRemoved`. -/
def pendingMessageRemoved (state : ChatState U) (a : ChatPendingMessageRemovedAction) :
    ReduceOutcome × ChatState U :=
  let (outcome, state) : ReduceOutcome × ChatState U :=
    if a.kind = .steering ∧ state.steeringMessage.map (·.id) = some a.id then
      (.applied, { state with steeringMessage := none })
    else (.noOp, state)
  match state.queuedMessages with
  | none => (outcome, state)
  | some list =>
    match eraseWhere (fun m => m.id = a.id && m.kind.getD .queued = a.kind) list with
    | none => (outcome, state)
    | some list => (.applied, { state with queuedMessages := if list.length = 0 then none else some list })

/-- The entry of `byId`: the last message with the id. -/
def byId (queued : List PendingMessage) (id : String) : Option PendingMessage :=
  queued.reverse.find? fun m => m.id = id

/-- The loop over the order: the ids in `seen`, and the messages of `reordered`. -/
def reorder (queued : List PendingMessage) :
    List String → List String → List PendingMessage → List String × List PendingMessage
  | [], seen, reordered => (seen, reordered)
  | id :: order, seen, reordered =>
    match byId queued id with
    | none => reorder queued order seen reordered
    | some msg =>
      if id ∈ seen then reorder queued order seen reordered
      else reorder queued order (seen ++ [id]) (reordered ++ [msg])

/-- `ApplyChatQueuedMessagesReordered`. -/
def queuedMessagesReordered (state : ChatState U) (order : List String) : ReduceOutcome × ChatState U :=
  match state.queuedMessages with
  | none => (.noOp, state)
  | some queued =>
    let (seen, reordered) := reorder queued order [] []
    let rest := queued.filter fun m => m.id ∉ seen
    (.applied, { state with queuedMessages := some (reordered ++ rest) })

/-! ### Other fields -/

/-- `BackgroundWorkId`. -/
def backgroundWorkId [RawId U] (work : BackgroundWork U) : String := work.id?.getD ""

/-- `ChatBackgroundWorkSetAction`. -/
def backgroundWorkSet [RawId U] (state : ChatState U) (work : BackgroundWork U) :
    ReduceOutcome × ChatState U :=
  let workId := backgroundWorkId work
  let list := state.backgroundWork.getD []
  (.applied,
    { state with backgroundWork := some (upsertWhere (fun w => backgroundWorkId w = workId) work list) })

/-- `ChatBackgroundWorkRemovedAction`. -/
def backgroundWorkRemoved [RawId U] (state : ChatState U) (id : String) : ReduceOutcome × ChatState U :=
  match state.backgroundWork with
  | none => (.noOp, state)
  | some list =>
    match eraseWhere (fun w => backgroundWorkId w = id) list with
    | none => (.noOp, state)
    | some list => (.applied, { state with backgroundWork := some list })

/-- `ChatWorkingDirectorySetAction`. -/
def workingDirectorySet (state : ChatState U) (directory : URI) : ReduceOutcome × ChatState U :=
  let list := state.workingDirectories.getD []
  if directory ∈ list then (.noOp, state)
  else (.applied, { state with workingDirectories := some (list ++ [directory]) })

/-- `ChatWorkingDirectoryRemovedAction`. -/
def workingDirectoryRemoved (state : ChatState U) (directory : URI) : ReduceOutcome × ChatState U :=
  match state.workingDirectories with
  | none => (.noOp, state)
  | some list =>
    match eraseWhere (fun d => d = directory) list with
    | none => (.noOp, state)
    | some list => (.applied, { state with workingDirectories := some list })

/-- `MergeConfig`, of which the map may be missing. -/
def mergeConfig (current : Option (Record Json)) (incoming : Record Json) (replace : Option Bool) :
    Record Json :=
  let values :=
    match current with
    | none => Record.empty
    | some current => if replace = some true then Record.empty else current
  values.merge incoming

/-- `ChatConfigChangedAction`. -/
def configChanged (state : ChatState U) (a : ChatConfigChangedAction) : ReduceOutcome × ChatState U :=
  let chatValues := mergeConfig (state.config.map (·.values)) a.config a.replace
  let config := state.config.getD ⟨none, chatValues⟩
  (.applied, { state with config := some { config with values := chatValues } })

/-- `ChatMovedAction`. -/
def moved (state : ChatState U) (a : ChatMovedAction) : ReduceOutcome × ChatState U :=
  let state : ChatState U := { state with provider := a.provider }
  match state.config with
  | some config => (.applied, { state with config := some { config with schema := a.schema } })
  | none =>
    if a.schema.isSome then (.applied, { state with config := some ⟨a.schema, Record.empty⟩ })
    else (.applied, state)

/-! ### The reducer -/

/-- A case of the reducer that does not throw. -/
def done (res : ReduceOutcome × ChatState U) : EStateM.Result Exn (ChatState U) ReduceOutcome :=
  .ok res.1 res.2

/-- `ApplyToChat` on the actions of a chat. -/
def applyChatAction [RawId U] (otherParse : String → Option DateTimeOffset) (state : ChatState U) :
    ChatAction U (ChatToolCallConfirmedAction U) → EStateM.Result Exn (ChatState U) ReduceOutcome
  | .turnStarted a => done (turnStarted state a)
  | .delta a => done (updateResponsePart state a.turnId a.partId (deltaPart a))
  | .responsePart a => done (responsePart state a)
  | .turnComplete a => (applyToChat otherParse (.turnComplete a)).run state
  | .turnCancelled a => (applyToChat otherParse (.turnCancelled a)).run state
  | .error a => (applyToChat otherParse (.error a)).run state
  | .turnResume turnId => done (turnResume state turnId)
  | .activityChanged activity => .ok .applied { state with activity := activity }
  | .backgroundWorkSet work => done (backgroundWorkSet state work)
  | .backgroundWorkRemoved id => done (backgroundWorkRemoved state id)
  | .movableChanged movable => .ok .applied { state with movable := some movable }
  | .changesetsChanged changesets => .ok .applied { state with changesets := changesets }
  | .canvasesChanged canvases => .ok .applied { state with canvases := canvases }
  | .workingDirectorySet directory => done (workingDirectorySet state directory)
  | .workingDirectoryRemoved directory => done (workingDirectoryRemoved state directory)
  | .toolCallStart a => done (toolCallStart state a)
  | .toolCallDelta a => done (updateToolCall state a.turnId a.toolCallId (toolCallDelta a))
  | .toolCallReady a =>
    done (withChatRefresh (updateToolCall state a.turnId a.toolCallId (toolCallReady a)))
  | .toolCallConfirmed a =>
    done (withChatRefresh (updateToolCall state a.turnId a.toolCallId (toolCallConfirmed a)))
  | .toolCallComplete a =>
    done (withChatRefresh (updateToolCall state a.turnId a.toolCallId (toolCallComplete a)))
  | .toolCallResultConfirmed a =>
    done (withChatRefresh (updateToolCall state a.turnId a.toolCallId (toolCallResultConfirmed a)))
  | .toolCallAuthRequired a =>
    done (withChatRefresh (updateToolCall state a.turnId a.toolCallId (toolCallAuthRequired a)))
  | .toolCallAuthResolved a =>
    done (withChatRefresh (updateToolCall state a.turnId a.toolCallId (toolCallAuthResolved a)))
  | .toolCallContentChanged a =>
    done (updateToolCall state a.turnId a.toolCallId (toolCallContentChanged a))
  | .usage a => done (usage state a)
  | .reasoning a => done (updateResponsePart state a.turnId a.partId (reasoningPart a))
  | .truncated turnId => done (truncated state turnId)
  | .turnsLoaded a => done (turnsLoaded state a)
  | .inputRequested request => done (upsertChatInputRequestPart state request)
  | .inputAnswerChanged a => done (inputAnswerChanged state a)
  | .inputCompleted a => done (inputCompleted state a)
  | .pendingMessageSet a => done (pendingMessageSet state a)
  | .pendingMessageRemoved a => done (pendingMessageRemoved state a)
  | .queuedMessagesReordered order => done (queuedMessagesReordered state order)
  | .draftChanged draft => .ok .applied { state with draft := draft }
  | .isReadChanged value =>
    .ok .applied { state with status := withStatusFlag state.status isRead value }
  | .isArchivedChanged value =>
    .ok .applied { state with status := withStatusFlag state.status isArchived value }
  | .configChanged a => done (configChanged state a)
  | .moved a => done (moved state a)

end AgentHostProtocol.Dotnet.Chat
