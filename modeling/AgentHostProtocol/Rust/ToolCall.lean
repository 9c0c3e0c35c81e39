import AgentHostProtocol.Wire.ChatActions

/-!
# Tool call transitions in Rust

The update functions that the Rust chat reducer hands to `update_tool_call`. They work on
the open unions of the generated types: a call of an unknown kind has no id and no
action applies to it.
-/

namespace AgentHostProtocol.Rust

variable {U : Type}

/-- `chat/toolCallConfirmed` as it is generated: one struct for both variants. -/
structure ChatToolCallConfirmedAction (U : Type) extends ToolCallActionBase where
  approved : Bool
  confirmed : Option (ToolCallConfirmationReason U)
  reason : Option ToolCallCancellationReason
  editedToolInput : Option String
  userSuggestion : Option Message
  reasonMessage : Option StringOrMarkdown
  selectedOptionId : Option String

/-- What `tool_call_meta` reads off a call. -/
structure ToolCallMeta (U : Type) extends ToolCallBase U where
  toolInput : Option ToolInput

/-- `tool_call_meta`. -/
def toolCallMeta : ToolCallState U → ToolCallMeta U
  | .streaming s => ⟨s.toToolCallBase, none⟩
  | .pendingConfirmation s => ⟨s.toToolCallBase, s.toolInput⟩
  | .running s => ⟨s.toToolCallBase, s.toolInput⟩
  | .authRequired s => ⟨s.toToolCallBase, s.toolInput⟩
  | .pendingResultConfirmation s => ⟨s.toToolCallBase, s.toolInput⟩
  | .completed s => ⟨s.toToolCallBase, s.toolInput⟩
  | .cancelled s => ⟨s.toToolCallBase, s.toolInput⟩
  | .unknown _ =>
    { toolCallId := "", toolName := "", displayName := "", intention := none, contributor := none
      _meta := none, toolInput := none }

/-- `tool_call_id`. -/
def toolCallId : ToolCallState U → String
  | .streaming s => s.toolCallId
  | .pendingConfirmation s => s.toolCallId
  | .running s => s.toolCallId
  | .authRequired s => s.toolCallId
  | .pendingResultConfirmation s => s.toolCallId
  | .completed s => s.toolCallId
  | .cancelled s => s.toolCallId
  | .unknown _ => ""

/-- `refine_tool_call_contributor`. -/
def refineToolCallContributor (current next : Option (ToolCallContributor U)) :
    Option (ToolCallContributor U) :=
  match next with
  | none => current
  | some next =>
    match current with
    | some (.client currentClient) =>
      match next with
      | .client nextClient => if nextClient = currentClient then some next else current
      | _ => current
    | _ =>
      match next with
      | .client _ => current
      | next => some next

/-- `resolve_selected_option`. -/
def resolveSelectedOption (options : Option (List ConfirmationOption)) (id : Option String) :
    Option ConfirmationOption := do
  let id ← id
  let opts ← options
  opts.find? fun o => o.id = id

/-- `apply_tool_call_delta` on the call. -/
def toolCallDelta (a : ChatToolCallDeltaAction) : ToolCallState U → ToolCallState U
  | .streaming s => .streaming
    { s with
      partialInput :=
        match a.content with
        | some content => some (s.partialInput.getD "" ++ content)
        | none => s.partialInput
      _meta := a._meta.or s._meta
      invocationMessage := a.invocationMessage.or s.invocationMessage }
  | other => other

/-- `apply_tool_call_ready` on the call. -/
def toolCallReady (a : ChatToolCallReadyAction U) (tc : ToolCallState U) : ToolCallState U :=
  let base := toolCallMeta tc
  let base : ToolCallMeta U :=
    { base with
      intention := a.intention.or base.intention
      toolInput := a.toolInput.or base.toolInput
      contributor := refineToolCallContributor base.contributor a.contributor
      _meta := a._meta.or base._meta }
  let pending :=
    match tc with
    | .pendingConfirmation value => some value
    | _ => none
  let ready : ToolCallState U :=
    match a.confirmed with
    | some confirmed => .running
      { base with
        invocationMessage := a.invocationMessage
        confirmed := confirmed
        selectedOption := none
        content := none }
    | none => .pendingConfirmation
      { base with
        invocationMessage := a.invocationMessage
        confirmationTitle := a.confirmationTitle.or (pending.bind (·.confirmationTitle))
        riskAssessment := a.riskAssessment.or (pending.bind (·.riskAssessment))
        edits := a.edits.or (pending.bind (·.edits))
        editable := a.editable.or (pending.bind (·.editable))
        options := a.options.or (pending.bind (·.options)) }
  match tc with
  | .streaming _ | .running _ | .pendingConfirmation _ => ready
  | other => other

/-- The input after an approval: `(Some(edited), Some(Inline(_)))` is replaced. -/
def confirmedInput (editedToolInput : Option String) (toolInput : Option ToolInput) :
    Option ToolInput :=
  match editedToolInput, toolInput with
  | some edited, some (.inline _) => some (.inline edited)
  | _, toolInput => toolInput

/-- `apply_tool_call_confirmed` on the call. -/
def toolCallConfirmed (a : ChatToolCallConfirmedAction U) : ToolCallState U → ToolCallState U
  | .pendingConfirmation s =>
    let selectedOption := resolveSelectedOption s.options a.selectedOptionId
    let base : ToolCallBase U := { s.toToolCallBase with _meta := a._meta.or s._meta }
    if a.approved then .running
      { base with
        invocationMessage := s.invocationMessage
        toolInput := confirmedInput a.editedToolInput s.toolInput
        confirmed := a.confirmed.getD .notNeeded
        selectedOption := selectedOption
        content := none }
    else .cancelled
      { base with
        invocationMessage := s.invocationMessage
        toolInput := s.toolInput
        reason := a.reason.getD .denied
        reasonMessage := a.reasonMessage
        userSuggestion := a.userSuggestion
        selectedOption := selectedOption }
  | tc => tc

/-- The call that `apply_tool_call_complete` makes of one whose parameters, confirmation
and earlier content are given. -/
def completeState (a : ChatToolCallCompleteAction) (base : ToolCallBase U)
    (params : ToolCallParameterFields) (post : ToolCallPostConfirmationFields U)
    (preAuthContent : Option (List Json)) (fromAuthRequired : Bool) : ToolCallState U :=
  let base := { base with _meta := a._meta.or base._meta }
  let result := { a.result with content := a.result.content.or preAuthContent }
  if a.requiresResultConfirmation.getD false && !fromAuthRequired then
    .pendingResultConfirmation ⟨base, params, result, post⟩
  else .completed ⟨base, params, result, post⟩

/-- `apply_tool_call_complete` on the call. -/
def toolCallComplete (a : ChatToolCallCompleteAction) : ToolCallState U → ToolCallState U
  | .running s => completeState a s.toToolCallBase s.toToolCallParameterFields
      s.toToolCallPostConfirmationFields none false
  | .pendingConfirmation s => completeState a s.toToolCallBase s.toToolCallParameterFields
      ⟨.notNeeded, none⟩ none false
  | .authRequired s =>
    if a.result.success then .authRequired s
    else completeState a s.toToolCallBase s.toToolCallParameterFields
      s.toToolCallPostConfirmationFields s.content true
  | other => other

/-- `apply_tool_call_result_confirmed` on the call. -/
def toolCallResultConfirmed (a : ChatToolCallResultConfirmedAction) :
    ToolCallState U → ToolCallState U
  | .pendingResultConfirmation s =>
    let base : ToolCallBase U := { s.toToolCallBase with _meta := a._meta.or s._meta }
    if a.approved then
      .completed ⟨base, s.toToolCallParameterFields, s.toToolCallResult,
        s.toToolCallPostConfirmationFields⟩
    else .cancelled
      { base with
        toToolCallParameterFields := s.toToolCallParameterFields
        reason := .resultDenied
        reasonMessage := none
        userSuggestion := none
        selectedOption := s.selectedOption }
  | tc => tc

/-- `apply_tool_call_content_changed` on the call. -/
def toolCallContentChanged (a : ChatToolCallContentChangedAction) :
    ToolCallState U → ToolCallState U
  | .running s => .running { s with _meta := a._meta.or s._meta, content := some a.content }
  | other => other

/-- `apply_tool_call_auth_required` on the call. -/
def toolCallAuthRequired (a : ChatToolCallAuthRequiredAction) : ToolCallState U → ToolCallState U
  | .running s =>
    match s.contributor with
    | some (.mcp _) => .authRequired
      { s.toToolCallBase with
        _meta := a._meta.or s._meta
        toToolCallParameterFields := s.toToolCallParameterFields
        toToolCallPostConfirmationFields := s.toToolCallPostConfirmationFields
        auth := a.auth
        content := s.content }
    | _ => .running s
  | other => other

/-- `apply_tool_call_auth_resolved` on the call. -/
def toolCallAuthResolved (a : ChatToolCallAuthResolvedAction) : ToolCallState U → ToolCallState U
  | .authRequired s => .running
    { s.toToolCallBase with
      _meta := a._meta.or s._meta
      toToolCallParameterFields := s.toToolCallParameterFields
      toToolCallPostConfirmationFields := s.toToolCallPostConfirmationFields
      content := s.content }
  | other => other

/-- The message of a call that the end of its turn cancels. -/
def cancelledMessage : ToolCallState U → StringOrMarkdown
  | .streaming s => s.invocationMessage.getD (.plain "")
  | .pendingConfirmation s => s.invocationMessage
  | .running s => s.invocationMessage
  | .authRequired s => s.invocationMessage
  | .pendingResultConfirmation s => s.invocationMessage
  | _ => .plain ""

/-- What `end_turn` makes of a call. -/
def cancelUnfinished : ToolCallState U → ToolCallState U
  | .completed s => .completed s
  | .cancelled s => .cancelled s
  | tc => .cancelled
    { (toolCallMeta tc).toToolCallBase with
      invocationMessage := cancelledMessage tc
      toolInput := (toolCallMeta tc).toolInput
      reason := .skipped
      reasonMessage := none
      userSuggestion := none
      selectedOption := none }

end AgentHostProtocol.Rust
