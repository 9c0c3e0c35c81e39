import AgentHostProtocol.Wire.ChatActions

/-!
# Tool call transitions in Kotlin

The update functions that the Kotlin chat reducer hands to `updateToolCallInParts`.
-/

namespace AgentHostProtocol.Kotlin

variable {U : Type}

/-- `chat/toolCallConfirmed` as it is generated: one class for both variants. -/
structure ChatToolCallConfirmedAction (U : Type) extends ToolCallActionBase where
  approved : Bool
  confirmed : Option (ToolCallConfirmationReason U)
  reason : Option ToolCallCancellationReason
  editedToolInput : Option String
  userSuggestion : Option Message
  reasonMessage : Option StringOrMarkdown
  selectedOptionId : Option String

/-- `ToolCallBase`. -/
structure ToolCallBase (U : Type) extends AgentHostProtocol.ToolCallBase U where
  toolInput : Option ToolInput

/-- `withMeta`. -/
def ToolCallBase.withMeta (base : ToolCallBase U) (_meta : Option Meta) : ToolCallBase U :=
  { base with _meta := _meta.or base._meta }

/-- `toolCallBase`. -/
def toolCallBase : ToolCallState U → ToolCallBase U
  | .streaming tc => ⟨tc.toToolCallBase, none⟩
  | .pendingConfirmation tc => ⟨tc.toToolCallBase, tc.toolInput⟩
  | .running tc => ⟨tc.toToolCallBase, tc.toolInput⟩
  | .authRequired tc => ⟨tc.toToolCallBase, tc.toolInput⟩
  | .pendingResultConfirmation tc => ⟨tc.toToolCallBase, tc.toolInput⟩
  | .completed tc => ⟨tc.toToolCallBase, tc.toolInput⟩
  | .cancelled tc => ⟨tc.toToolCallBase, tc.toolInput⟩
  | .unknown _ =>
    { toolCallId := "", toolName := "", displayName := "", intention := none, contributor := none
      _meta := none, toolInput := none }

/-- `toolCallIdOf`. -/
def toolCallIdOf (tc : ToolCallState U) : String := (toolCallBase tc).toolCallId

/-- `refineToolCallContributor`. -/
def refineToolCallContributor (current next : Option (ToolCallContributor U)) :
    Option (ToolCallContributor U) :=
  match next with
  | none => current
  | some next =>
    match current with
    | some (.client currentClient) =>
      match next with
      | .client nextClient => if nextClient = currentClient then some next else current
      | _ => current
    | _ =>
      match next with
      | .client _ => current
      | next => some next

/-- `resolveSelectedOption`. -/
def resolveSelectedOption (options : Option (List ConfirmationOption)) (id : Option String) :
    Option ConfirmationOption :=
  match id, options with
  | some id, some options => options.find? fun o => o.id = id
  | _, _ => none

/-! ### Before the call runs -/

/-- `chat/toolCallDelta`. -/
def toolCallDelta (a : ChatToolCallDeltaAction) : ToolCallState U → ToolCallState U
  | .streaming tc => .streaming
    { tc with
      _meta := a._meta.or tc._meta
      partialInput := (a.content.map fun content => tc.partialInput.getD "" ++ content).or tc.partialInput
      invocationMessage := a.invocationMessage.or tc.invocationMessage }
  | tc => tc

/-- The call that `chat/toolCallReady` makes of one that it applies to. -/
def readyState (a : ChatToolCallReadyAction U) (tc : ToolCallState U)
    (pending : Option (ToolCallPendingConfirmationState U)) : ToolCallState U :=
  let initialBase := toolCallBase tc
  let base : ToolCallBase U :=
    { initialBase with
      intention := a.intention.or initialBase.intention
      toolInput := a.toolInput.or initialBase.toolInput
      contributor := refineToolCallContributor initialBase.contributor a.contributor }
  let base := base.withMeta a._meta
  match a.confirmed with
  | some confirmed => .running
    { base with
      invocationMessage := a.invocationMessage
      confirmed := confirmed
      selectedOption := none
      content := none }
  | none => .pendingConfirmation
    { base with
      invocationMessage := a.invocationMessage
      confirmationTitle := a.confirmationTitle.or (pending.bind (·.confirmationTitle))
      riskAssessment := a.riskAssessment.or (pending.bind (·.riskAssessment))
      edits := a.edits.or (pending.bind (·.edits))
      editable := a.editable.or (pending.bind (·.editable))
      options := a.options.or (pending.bind (·.options)) }

/-- `chat/toolCallReady`. -/
def toolCallReady (a : ChatToolCallReadyAction U) : ToolCallState U → ToolCallState U
  | .streaming tc => readyState a (.streaming tc) none
  | .running tc => readyState a (.running tc) none
  | .pendingConfirmation tc => readyState a (.pendingConfirmation tc) (some tc)
  | tc => tc

/-- The input after an approval: only inline input is edited. -/
def confirmedInput (editedToolInput : Option String) (toolInput : Option ToolInput) :
    Option ToolInput :=
  match editedToolInput, toolInput with
  | some edited, some (.inline _) => some (.inline edited)
  | _, toolInput => toolInput

/-- `chat/toolCallConfirmed`. -/
def toolCallConfirmed (a : ChatToolCallConfirmedAction U) : ToolCallState U → ToolCallState U
  | .pendingConfirmation tc =>
    let base := (toolCallBase (.pendingConfirmation tc)).withMeta a._meta
    let selectedOption := resolveSelectedOption tc.options a.selectedOptionId
    if a.approved then .running
      { base with
        toolInput := confirmedInput a.editedToolInput tc.toolInput
        invocationMessage := tc.invocationMessage
        confirmed := a.confirmed.getD .userAction
        selectedOption := selectedOption
        content := none }
    else .cancelled
      { base with
        toolInput := tc.toolInput
        invocationMessage := tc.invocationMessage
        reason := a.reason.getD .denied
        reasonMessage := a.reasonMessage
        userSuggestion := a.userSuggestion
        selectedOption := selectedOption }
  | tc => tc

/-! ### Results -/

/-- `CompleteCtx`. -/
structure CompleteCtx (U : Type) extends ToolCallParameterFields, ToolCallPostConfirmationFields U where
  preAuthContent : Option (List Json)
  /-- The call was waiting for authentication: it is completed at once. -/
  fromAuthRequired : Bool

/-- The context of a call that `chat/toolCallComplete` applies to. -/
def completeCtx (result : ToolCallResult) : ToolCallState U → Option (CompleteCtx U)
  | .running tc => some ⟨tc.toToolCallParameterFields, tc.toToolCallPostConfirmationFields, none, false⟩
  | .pendingConfirmation tc => some ⟨tc.toToolCallParameterFields, ⟨.notNeeded, none⟩, none, false⟩
  | .authRequired tc =>
    if result.success then none
    else some ⟨tc.toToolCallParameterFields, tc.toToolCallPostConfirmationFields, tc.content, true⟩
  | _ => none

/-- `chat/toolCallComplete`. -/
def toolCallComplete (a : ChatToolCallCompleteAction) (tc : ToolCallState U) : ToolCallState U :=
  match completeCtx a.result tc with
  | none => tc
  | some ctx =>
    let base := (toolCallBase tc).withMeta a._meta
    let result := { a.result with content := a.result.content.or ctx.preAuthContent }
    if a.requiresResultConfirmation = some true ∧ !ctx.fromAuthRequired then
      .pendingResultConfirmation ⟨base.toToolCallBase, ctx.toToolCallParameterFields, result,
        ctx.toToolCallPostConfirmationFields⟩
    else
      .completed ⟨base.toToolCallBase, ctx.toToolCallParameterFields, result,
        ctx.toToolCallPostConfirmationFields⟩

/-- `chat/toolCallResultConfirmed`. -/
def toolCallResultConfirmed (a : ChatToolCallResultConfirmedAction) : ToolCallState U → ToolCallState U
  | .pendingResultConfirmation tc =>
    let base := (toolCallBase (.pendingResultConfirmation tc)).withMeta a._meta
    if a.approved then
      .completed ⟨base.toToolCallBase, tc.toToolCallParameterFields, tc.toToolCallResult,
        tc.toToolCallPostConfirmationFields⟩
    else .cancelled
      { base with
        toToolCallParameterFields := tc.toToolCallParameterFields
        reason := .resultDenied
        reasonMessage := none
        userSuggestion := none
        selectedOption := tc.selectedOption }
  | tc => tc

/-! ### While running -/

/-- `chat/toolCallContentChanged`. -/
def toolCallContentChanged (a : ChatToolCallContentChangedAction) : ToolCallState U → ToolCallState U
  | .running tc => .running { tc with _meta := a._meta.or tc._meta, content := some a.content }
  | tc => tc

/-- `chat/toolCallAuthRequired`. -/
def toolCallAuthRequired (a : ChatToolCallAuthRequiredAction) : ToolCallState U → ToolCallState U
  | .running tc =>
    match tc.contributor with
    | some (.mcp _) =>
      let base := (toolCallBase (.running tc)).withMeta a._meta
      .authRequired
        { base with
          toToolCallParameterFields := tc.toToolCallParameterFields
          contributor := tc.contributor
          toToolCallPostConfirmationFields := tc.toToolCallPostConfirmationFields
          auth := a.auth
          content := tc.content }
    | _ => .running tc
  | tc => tc

/-- `chat/toolCallAuthResolved`. -/
def toolCallAuthResolved (a : ChatToolCallAuthResolvedAction) : ToolCallState U → ToolCallState U
  | .authRequired tc =>
    let base := (toolCallBase (.authRequired tc)).withMeta a._meta
    .running
      { base with
        toToolCallParameterFields := tc.toToolCallParameterFields
        toToolCallPostConfirmationFields := tc.toToolCallPostConfirmationFields
        content := tc.content }
  | tc => tc

/-! ### The end of the turn -/

/-- The message that `endTurn` keeps of a call that is not over. -/
def keptMessage : ToolCallState U → StringOrMarkdown
  | .streaming tc => tc.invocationMessage.getD (.plain "")
  | .pendingConfirmation tc => tc.invocationMessage
  | .running tc => tc.invocationMessage
  | .authRequired tc => tc.invocationMessage
  | .pendingResultConfirmation tc => tc.invocationMessage
  | _ => .plain ""

/-- What `endTurn` makes of a call. -/
def cancelUnfinished : ToolCallState U → ToolCallState U
  | .completed tc => .completed tc
  | .cancelled tc => .cancelled tc
  | tc =>
    let base := toolCallBase tc
    .cancelled
      { base with
        invocationMessage := keptMessage tc
        reason := .skipped
        reasonMessage := none
        userSuggestion := none
        selectedOption := none }

end AgentHostProtocol.Kotlin
