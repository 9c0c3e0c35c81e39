import AgentHostProtocol.Wire.ChatActions

/-!
# Tool call transitions

What each tool call action does to one tool call. These are the update functions that
`chatReducer` hands to `updateToolCallInParts`, and the forced cancellation of
`endTurn`. A call whose status an action does not apply to is returned as it is.
-/

namespace AgentHostProtocol

/-- The status of a tool call. -/
def ToolCallState.status : ToolCallState Empty → ToolCallStatus
  | .streaming _ => .streaming
  | .pendingConfirmation _ => .pendingConfirmation
  | .running _ => .running
  | .authRequired _ => .authRequired
  | .pendingResultConfirmation _ => .pendingResultConfirmation
  | .completed _ => .completed
  | .cancelled _ => .cancelled

namespace Chat

/-- Extracts the base fields shared by all tool call states. -/
def tcBase : ToolCallState Empty → ToolCallBase Empty
  | .streaming tc => tc.toToolCallBase
  | .pendingConfirmation tc => tc.toToolCallBase
  | .running tc => tc.toToolCallBase
  | .authRequired tc => tc.toToolCallBase
  | .pendingResultConfirmation tc => tc.toToolCallBase
  | .completed tc => tc.toToolCallBase
  | .cancelled tc => tc.toToolCallBase

/-- The base fields, with the metadata of an action if it carries any. -/
def tcBaseWithMeta (tc : ToolCallState Empty) (meta' : Option Meta) : ToolCallBase Empty :=
  { tcBase tc with _meta := meta'.or (tcBase tc)._meta }

/-- The contributor of a call after an action that names `next`: a client keeps its
calls, and a call that is not a client's does not become one. -/
def refineToolCallContributor (current next : Option (ToolCallContributor Empty)) :
    Option (ToolCallContributor Empty) :=
  match next with
  | none => current
  | some next =>
    match current with
    | some (.client clientId) =>
      match next with
      | .client nextId => if nextId = clientId then some next else current
      | .mcp _ => current
    | _ =>
      match next with
      | .client _ => current
      | .mcp _ => some next

/-- Resolves a selected option from the confirmation options by id. An empty id is
no id. -/
def resolveSelectedOption (options : Option (List ConfirmationOption)) (id : Option String) :
    Option ConfirmationOption :=
  match id, options with
  | some id, some options => if id = "" then none else options.find? fun o => o.id = id
  | _, _ => none

/-! ### `chat/toolCallDelta` and `chat/toolCallReady` -/

/-- `chat/toolCallDelta`. -/
def toolCallDelta (action : ChatToolCallDeltaAction) : ToolCallState Empty → ToolCallState Empty
  | .streaming tc => .streaming
    { tc with
      _meta := action._meta.or tc._meta
      partialInput :=
        match action.content with
        | some content => some (tc.partialInput.getD "" ++ content)
        | none => tc.partialInput
      invocationMessage := action.invocationMessage.or tc.invocationMessage }
  | tc => tc

/-- The call that `chat/toolCallReady` makes of `tc`, whose input so far is `toolInput`
and which was waiting for confirmation as `pending`. -/
def readyState (action : ChatToolCallReadyAction Empty) (tc : ToolCallState Empty)
    (toolInput : Option ToolInput) (pending : Option (ToolCallPendingConfirmationState Empty)) :
    ToolCallState Empty :=
  let base : ToolCallBase Empty :=
    { tcBaseWithMeta tc action._meta with
      contributor := refineToolCallContributor (tcBase tc).contributor action.contributor
      intention := action.intention.or (tcBase tc).intention }
  let toolInput := action.toolInput.or toolInput
  match action.confirmed with
  | some confirmed => .running
    { base with
      invocationMessage := action.invocationMessage
      toolInput := toolInput
      confirmed := confirmed
      selectedOption := none
      content := none }
  | none => .pendingConfirmation
    { base with
      invocationMessage := action.invocationMessage
      toolInput := toolInput
      confirmationTitle := action.confirmationTitle.or (pending.bind (·.confirmationTitle))
      riskAssessment := action.riskAssessment.or (pending.bind (·.riskAssessment))
      edits := action.edits.or (pending.bind (·.edits))
      editable := action.editable.or (pending.bind (·.editable))
      options := action.options.or (pending.bind (·.options)) }

/-- `chat/toolCallReady`. -/
def toolCallReady (action : ChatToolCallReadyAction Empty) :
    ToolCallState Empty → ToolCallState Empty
  | .streaming tc => readyState action (.streaming tc) none none
  | .running tc => readyState action (.running tc) tc.toolInput none
  | .pendingConfirmation tc => readyState action (.pendingConfirmation tc) tc.toolInput (some tc)
  | tc => tc

/-! ### `chat/toolCallConfirmed` -/

/-- The input after an approval: only inline input can be edited. -/
def confirmedInput (editedToolInput : Option String) (toolInput : Option ToolInput) :
    Option ToolInput :=
  match editedToolInput, toolInput with
  | some edited, some (.inline _) => some (.inline edited)
  | _, toolInput => toolInput

/-- `chat/toolCallConfirmed`. -/
def toolCallConfirmed (action : ChatToolCallConfirmedAction Empty) :
    ToolCallState Empty → ToolCallState Empty
  | .pendingConfirmation tc =>
    let base := tcBaseWithMeta (.pendingConfirmation tc) action.toToolCallActionBase._meta
    match action with
    | .approved a => .running
      { base with
        invocationMessage := tc.invocationMessage
        toolInput := confirmedInput a.editedToolInput tc.toolInput
        confirmed := a.confirmed
        selectedOption := resolveSelectedOption tc.options a.selectedOptionId
        content := none }
    | .denied a => .cancelled
      { base with
        invocationMessage := tc.invocationMessage
        toolInput := tc.toolInput
        reason := a.reason
        reasonMessage := a.reasonMessage
        userSuggestion := a.userSuggestion
        selectedOption := resolveSelectedOption tc.options a.selectedOptionId }
  | tc => tc

/-! ### `chat/toolCallComplete` and `chat/toolCallResultConfirmed` -/

/-- The call that `chat/toolCallComplete` makes of `tc`. Content produced before a
pause for authentication stands unless the result has its own, and a call that ends
while paused is not put up for review. -/
def completeState (action : ChatToolCallCompleteAction) (tc : ToolCallState Empty)
    (params : ToolCallParameterFields) (post : ToolCallPostConfirmationFields Empty)
    (preAuthContent : Option (List Json)) : ToolCallState Empty :=
  let base := tcBaseWithMeta tc action._meta
  let result := { action.result with content := action.result.content.or preAuthContent }
  if action.requiresResultConfirmation.getD false ∧ tc.status ≠ .authRequired then
    .pendingResultConfirmation ⟨base, params, result, post⟩
  else .completed ⟨base, params, result, post⟩

/-- `chat/toolCallComplete`. From `auth-required` only a failed result counts: execution
never resumed, so nothing can have produced a real one. -/
def toolCallComplete (action : ChatToolCallCompleteAction) :
    ToolCallState Empty → ToolCallState Empty
  | .running tc => completeState action (.running tc) tc.toToolCallParameterFields
      tc.toToolCallPostConfirmationFields none
  | .pendingConfirmation tc => completeState action (.pendingConfirmation tc)
      tc.toToolCallParameterFields ⟨.notNeeded, none⟩ none
  | .authRequired tc =>
    if action.result.success then .authRequired tc
    else completeState action (.authRequired tc) tc.toToolCallParameterFields
      tc.toToolCallPostConfirmationFields tc.content
  | tc => tc

/-- `chat/toolCallResultConfirmed`. -/
def toolCallResultConfirmed (action : ChatToolCallResultConfirmedAction) :
    ToolCallState Empty → ToolCallState Empty
  | .pendingResultConfirmation tc =>
    let base := tcBaseWithMeta (.pendingResultConfirmation tc) action._meta
    if action.approved then
      .completed ⟨base, tc.toToolCallParameterFields, tc.toToolCallResult,
        tc.toToolCallPostConfirmationFields⟩
    else .cancelled
      { base with
        toToolCallParameterFields := tc.toToolCallParameterFields
        reason := .resultDenied
        reasonMessage := none
        userSuggestion := none
        selectedOption := tc.selectedOption }
  | tc => tc

/-! ### While running -/

/-- `chat/toolCallContentChanged`. -/
def toolCallContentChanged (action : ChatToolCallContentChangedAction) :
    ToolCallState Empty → ToolCallState Empty
  | .running tc =>
    .running { tc with _meta := action._meta.or tc._meta, content := some action.content }
  | tc => tc

/-- `chat/toolCallAuthRequired`: only an MCP server's calls wait for authentication. -/
def toolCallAuthRequired (action : ChatToolCallAuthRequiredAction) :
    ToolCallState Empty → ToolCallState Empty
  | .running tc =>
    match tc.contributor with
    | some (.mcp _) => .authRequired
      { tcBaseWithMeta (.running tc) action._meta with
        toToolCallParameterFields := tc.toToolCallParameterFields
        toToolCallPostConfirmationFields := tc.toToolCallPostConfirmationFields
        auth := action.auth
        content := tc.content }
    | _ => .running tc
  | tc => tc

/-- `chat/toolCallAuthResolved`. -/
def toolCallAuthResolved (action : ChatToolCallAuthResolvedAction) :
    ToolCallState Empty → ToolCallState Empty
  | .authRequired tc => .running
    { tcBaseWithMeta (.authRequired tc) action._meta with
      toToolCallParameterFields := tc.toToolCallParameterFields
      toToolCallPostConfirmationFields := tc.toToolCallPostConfirmationFields
      content := tc.content }
  | tc => tc

/-! ### The end of the turn -/

/-- A call that its turn's end cancels. -/
def skipped (tc : ToolCallState Empty) (params : ToolCallParameterFields) : ToolCallState Empty :=
  .cancelled
    { tcBase tc with
      toToolCallParameterFields := params
      reason := .skipped
      reasonMessage := none
      userSuggestion := none
      selectedOption := none }

/-- Forces a call that is not completed or cancelled into the cancelled state. -/
def cancelUnfinished : ToolCallState Empty → ToolCallState Empty
  | .completed tc => .completed tc
  | .cancelled tc => .cancelled tc
  | .streaming tc => skipped (.streaming tc) ⟨tc.invocationMessage.getD (.plain ""), none⟩
  | .pendingConfirmation tc => skipped (.pendingConfirmation tc) tc.toToolCallParameterFields
  | .running tc => skipped (.running tc) tc.toToolCallParameterFields
  | .authRequired tc => skipped (.authRequired tc) tc.toToolCallParameterFields
  | .pendingResultConfirmation tc =>
    skipped (.pendingResultConfirmation tc) tc.toToolCallParameterFields

end Chat

end AgentHostProtocol
