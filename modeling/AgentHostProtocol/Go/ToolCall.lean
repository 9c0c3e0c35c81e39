import AgentHostProtocol.Wire.ChatActions

/-!
# Tool call transitions in Go

The update functions that the Go chat reducer hands to `updateToolCall`. A slice that may be
`nil` is an `Option`: `nil` is `none`. The empty and the `nil` slice are told apart, since the
source asks for `nil` in some places.
-/

namespace AgentHostProtocol.Go

variable {U : Type}

/-- `chat/toolCallConfirmed` as it is generated: one struct for both variants. -/
structure ChatToolCallConfirmedAction (U : Type) extends ToolCallActionBase where
  approved : Bool
  confirmed : Option (ToolCallConfirmationReason U)
  reason : Option ToolCallCancellationReason
  editedToolInput : Option String
  userSuggestion : Option Message
  reasonMessage : Option StringOrMarkdown
  selectedOptionId : Option String

/-- `append([]T(nil), slice...)`: a copy of an empty slice is `nil`. -/
def copySlice {α : Type} (slice : Option (List α)) : Option (List α) :=
  slice.filter fun l => !l.isEmpty

/-- `toolCallCommon`. -/
structure ToolCallCommon (U : Type) extends ToolCallBase U where
  toolInput : Option ToolInput

/-- `toolCallMeta`. -/
def toolCallMeta : ToolCallState U → ToolCallCommon U
  | .streaming v => ⟨v.toToolCallBase, none⟩
  | .pendingConfirmation v => ⟨v.toToolCallBase, v.toolInput⟩
  | .running v => ⟨v.toToolCallBase, v.toolInput⟩
  | .authRequired v => ⟨v.toToolCallBase, v.toolInput⟩
  | .pendingResultConfirmation v => ⟨v.toToolCallBase, v.toolInput⟩
  | .completed v => ⟨v.toToolCallBase, v.toolInput⟩
  | .cancelled v => ⟨v.toToolCallBase, v.toolInput⟩
  | .unknown _ =>
    { toolCallId := "", toolName := "", displayName := "", intention := none, contributor := none
      _meta := none, toolInput := none }

/-- `toolCallInvocationMessage`; the zero value encodes as the empty string. -/
def toolCallInvocationMessage : ToolCallState U → StringOrMarkdown
  | .streaming v => v.invocationMessage.getD (.plain "")
  | .pendingConfirmation v => v.invocationMessage
  | .running v => v.invocationMessage
  | .authRequired v => v.invocationMessage
  | .pendingResultConfirmation v => v.invocationMessage
  | _ => .plain ""

/-- `toolCallID`. -/
def toolCallID (tc : ToolCallState U) : String := (toolCallMeta tc).toolCallId

/-- `applyToolCallDelta` on the call. -/
def toolCallDelta (a : ChatToolCallDeltaAction) : ToolCallState U → ToolCallState U
  | .streaming s => .streaming
    { s with
      _meta := a._meta.or s._meta
      partialInput :=
        match a.content with
        | some content => some (s.partialInput.getD "" ++ content)
        | none => s.partialInput
      invocationMessage := a.invocationMessage.or s.invocationMessage }
  | tc => tc

/-- `refineToolCallContributor`. -/
def refineToolCallContributor (current next : Option (ToolCallContributor U)) :
    Option (ToolCallContributor U) :=
  match next with
  | none => current
  | some next =>
    match current with
    | some (.client currentClient) =>
      match next with
      | .client nextClient => if nextClient = currentClient then some next else current
      | _ => current
    | _ =>
      match next with
      | .client _ => current
      | next => some next

/-- `applyToolCallReady` on the call. -/
def toolCallReady (a : ChatToolCallReadyAction U) (tc : ToolCallState U) : ToolCallState U :=
  let common := toolCallMeta tc
  let common : ToolCallCommon U :=
    { common with
      intention := a.intention.or common.intention
      toolInput := a.toolInput.or common.toolInput
      contributor := refineToolCallContributor common.contributor a.contributor
      _meta := a._meta.or common._meta }
  let pending :=
    match tc with
    | .pendingConfirmation value => some value
    | _ => none
  let next : ToolCallState U :=
    match a.confirmed with
    | some confirmed => .running
      { common with
        invocationMessage := a.invocationMessage
        confirmed := confirmed
        selectedOption := none
        content := none }
    | none => .pendingConfirmation
      { common with
        invocationMessage := a.invocationMessage
        confirmationTitle := a.confirmationTitle.or (pending.bind (·.confirmationTitle))
        riskAssessment := a.riskAssessment.or (pending.bind (·.riskAssessment))
        edits := a.edits.or (pending.bind (·.edits))
        editable := a.editable.or (pending.bind (·.editable))
        options := a.options.or (pending.bind (·.options)) }
  match tc with
  | .streaming _ | .running _ | .pendingConfirmation _ => next
  | tc => tc

/-- `resolveSelectedOption`. -/
def resolveSelectedOption (options : Option (List ConfirmationOption)) (id : Option String) :
    Option ConfirmationOption :=
  id.bind fun id => (options.getD []).find? fun o => o.id = id

/-- The input after an approval: only inline input is edited. -/
def confirmedInput (editedToolInput : Option String) (toolInput : Option ToolInput) :
    Option ToolInput :=
  match editedToolInput, toolInput with
  | some edited, some (.inline _) => some (.inline edited)
  | _, toolInput => toolInput

/-- `applyToolCallConfirmed` on the call. -/
def toolCallConfirmed (a : ChatToolCallConfirmedAction U) : ToolCallState U → ToolCallState U
  | .pendingConfirmation s =>
    let selected := resolveSelectedOption s.options a.selectedOptionId
    if a.approved then .running
      { s.toToolCallBase with
        _meta := a._meta.or s._meta
        invocationMessage := s.invocationMessage
        toolInput := confirmedInput a.editedToolInput s.toolInput
        confirmed := a.confirmed.getD .notNeeded
        selectedOption := selected
        content := none }
    else .cancelled
      { s.toToolCallBase with
        _meta := a._meta.or s._meta
        invocationMessage := s.invocationMessage
        toolInput := s.toolInput
        reason := a.reason.getD .denied
        reasonMessage := a.reasonMessage
        userSuggestion := a.userSuggestion
        selectedOption := selected }
  | tc => tc

/-- `applyToolCallComplete` on a call whose parameters, confirmation and content before the
pause for authentication are given. -/
def completeState (a : ChatToolCallCompleteAction) (tc : ToolCallState U)
    (params : ToolCallParameterFields) (post : ToolCallPostConfirmationFields U)
    (preAuthContent : Option (List Json)) (fromAuthRequired : Bool) : ToolCallState U :=
  let common := (toolCallMeta tc).toToolCallBase
  let common : ToolCallBase U := { common with _meta := a._meta.or common._meta }
  let content := a.result.content.or preAuthContent
  let result := { a.result with content := copySlice content }
  if a.requiresResultConfirmation.getD false && !fromAuthRequired then
    .pendingResultConfirmation ⟨common, params, result, post⟩
  else .completed ⟨common, params, result, post⟩

/-- `applyToolCallComplete` on the call. -/
def toolCallComplete (a : ChatToolCallCompleteAction) : ToolCallState U → ToolCallState U
  | .running v => completeState a (.running v) v.toToolCallParameterFields
      v.toToolCallPostConfirmationFields none false
  | .pendingConfirmation v => completeState a (.pendingConfirmation v) v.toToolCallParameterFields
      ⟨.notNeeded, none⟩ none false
  | .authRequired v =>
    if a.result.success then .authRequired v
    else completeState a (.authRequired v) v.toToolCallParameterFields
      v.toToolCallPostConfirmationFields v.content true
  | tc => tc

/-- `applyToolCallResultConfirmed` on the call. -/
def toolCallResultConfirmed (a : ChatToolCallResultConfirmedAction) :
    ToolCallState U → ToolCallState U
  | .pendingResultConfirmation s =>
    let base : ToolCallBase U := { s.toToolCallBase with _meta := a._meta.or s._meta }
    if a.approved then
      .completed ⟨base, s.toToolCallParameterFields, s.toToolCallResult,
        s.toToolCallPostConfirmationFields⟩
    else .cancelled
      { base with
        toToolCallParameterFields := s.toToolCallParameterFields
        reason := .resultDenied
        reasonMessage := none
        userSuggestion := none
        selectedOption := s.selectedOption }
  | tc => tc

/-- `chat/toolCallContentChanged` on the call. -/
def toolCallContentChanged (a : ChatToolCallContentChangedAction) :
    ToolCallState U → ToolCallState U
  | .running r => .running { r with _meta := a._meta.or r._meta, content := copySlice (some a.content) }
  | tc => tc

/-- `applyToolCallAuthRequired` on the call. -/
def toolCallAuthRequired (a : ChatToolCallAuthRequiredAction) : ToolCallState U → ToolCallState U
  | .running s =>
    match s.contributor with
    | some (.mcp _) => .authRequired
      { s.toToolCallBase with
        _meta := a._meta.or s._meta
        toToolCallParameterFields := s.toToolCallParameterFields
        toToolCallPostConfirmationFields := s.toToolCallPostConfirmationFields
        auth := a.auth
        content := copySlice s.content }
    | _ => .running s
  | tc => tc

/-- `applyToolCallAuthResolved` on the call. -/
def toolCallAuthResolved (a : ChatToolCallAuthResolvedAction) : ToolCallState U → ToolCallState U
  | .authRequired s => .running
    { s.toToolCallBase with
      _meta := a._meta.or s._meta
      toToolCallParameterFields := s.toToolCallParameterFields
      toToolCallPostConfirmationFields := s.toToolCallPostConfirmationFields
      content := copySlice s.content }
  | tc => tc

/-- What `endTurn` makes of a call. -/
def cancelUnfinished : ToolCallState U → ToolCallState U
  | .completed v => .completed v
  | .cancelled v => .cancelled v
  | tc => .cancelled
    { (toolCallMeta tc).toToolCallBase with
      invocationMessage := toolCallInvocationMessage tc
      toolInput := (toolCallMeta tc).toolInput
      reason := .skipped
      reasonMessage := none
      userSuggestion := none
      selectedOption := none }

end AgentHostProtocol.Go
