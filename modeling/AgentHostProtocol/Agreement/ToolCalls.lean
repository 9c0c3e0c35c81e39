import AgentHostProtocol.Chat.Lifecycle
import AgentHostProtocol.Rust.ToolCall

/-!
# Tool call transitions agree

On the closed unions each Rust update function is the TypeScript one. The exception is
`chat/toolCallConfirmed`: to TypeScript an empty option id is no id, to Rust it is an id
like any other (`toolCallConfirmed_agrees_iff`).
-/

namespace AgentHostProtocol.Agreement

/-- `chat/toolCallConfirmed` as the generated struct holds it. -/
def toRustConfirmed {U : Type} :
    ChatToolCallConfirmedAction U → Rust.ChatToolCallConfirmedAction U
  | .approved a =>
    { a.toToolCallActionBase with
      approved := true
      confirmed := some a.confirmed
      reason := none
      editedToolInput := a.editedToolInput
      userSuggestion := none
      reasonMessage := none
      selectedOptionId := a.selectedOptionId }
  | .denied a =>
    { a.toToolCallActionBase with
      approved := false
      confirmed := none
      reason := some a.reason
      editedToolInput := none
      userSuggestion := a.userSuggestion
      reasonMessage := a.reasonMessage
      selectedOptionId := a.selectedOptionId }

/-- The option that a confirmation selects. -/
def selectedOptionId? {U : Type} : ChatToolCallConfirmedAction U → Option String
  | .approved a => a.selectedOptionId
  | .denied a => a.selectedOptionId

theorem toolCallId_eq (tc : ToolCallState Empty) :
    Rust.toolCallId tc = (Chat.tcBase tc).toolCallId := by
  cases tc with
  | unknown raw => exact raw.elim
  | _ => rfl

theorem refineToolCallContributor_eq (current next : Option (ToolCallContributor Empty)) :
    Rust.refineToolCallContributor current next = Chat.refineToolCallContributor current next := by
  rcases next with _ | _ | _ | raw
  · rfl
  · rcases current with _ | _ | _ | _ <;> rfl
  · rcases current with _ | _ | _ | _ <;> rfl
  · exact raw.elim

theorem toolCallDelta_eq (a : ChatToolCallDeltaAction) (tc : ToolCallState Empty) :
    Rust.toolCallDelta a tc = Chat.toolCallDelta a tc := by
  cases tc <;> rfl

theorem toolCallReady_eq (a : ChatToolCallReadyAction Empty) (tc : ToolCallState Empty) :
    Rust.toolCallReady a tc = Chat.toolCallReady a tc := by
  cases tc with
  | streaming s | running s | pendingConfirmation s =>
    simp only [Rust.toolCallReady, Chat.toolCallReady, Chat.readyState, Rust.toolCallMeta, Chat.tcBase,
      Chat.tcBaseWithMeta, refineToolCallContributor_eq]
    cases a.confirmed <;> rfl
  | _ => rfl

theorem toolCallComplete_eq (a : ChatToolCallCompleteAction) (tc : ToolCallState Empty) :
    Rust.toolCallComplete a tc = Chat.toolCallComplete a tc := by
  cases tc with
  | running s | pendingConfirmation s =>
    simp only [Rust.toolCallComplete, Chat.toolCallComplete, Rust.completeState, Chat.completeState,
      ToolCallState.status]
    cases a.requiresResultConfirmation.getD false <;> rfl
  | authRequired s =>
    simp only [Rust.toolCallComplete, Chat.toolCallComplete, Rust.completeState, Chat.completeState,
      ToolCallState.status]
    cases a.result.success <;> simp [Chat.tcBaseWithMeta, Chat.tcBase]
  | _ => rfl

theorem toolCallResultConfirmed_eq (a : ChatToolCallResultConfirmedAction)
    (tc : ToolCallState Empty) :
    Rust.toolCallResultConfirmed a tc = Chat.toolCallResultConfirmed a tc := by
  cases tc <;> rfl

theorem toolCallContentChanged_eq (a : ChatToolCallContentChangedAction)
    (tc : ToolCallState Empty) :
    Rust.toolCallContentChanged a tc = Chat.toolCallContentChanged a tc := by
  cases tc <;> rfl

theorem toolCallAuthRequired_eq (a : ChatToolCallAuthRequiredAction) (tc : ToolCallState Empty) :
    Rust.toolCallAuthRequired a tc = Chat.toolCallAuthRequired a tc := by
  cases tc with
  | running s =>
    rcases hc : s.contributor with _ | _ | _ | _ <;>
      simp [Rust.toolCallAuthRequired, Chat.toolCallAuthRequired, Chat.tcBaseWithMeta, Chat.tcBase, hc]
  | _ => rfl

theorem toolCallAuthResolved_eq (a : ChatToolCallAuthResolvedAction) (tc : ToolCallState Empty) :
    Rust.toolCallAuthResolved a tc = Chat.toolCallAuthResolved a tc := by
  cases tc <;> rfl

theorem cancelUnfinished_eq (tc : ToolCallState Empty) :
    Rust.cancelUnfinished tc = Chat.cancelUnfinished tc := by
  cases tc with
  | unknown raw => exact raw.elim
  | _ => rfl

/-! ### Confirmation -/

/-- Where the two lookups of an option part: an empty id that some option has. -/
def EmptyOption (options : Option (List ConfirmationOption)) (id : Option String) : Prop :=
  id = some "" ∧ ∃ opts o, options = some opts ∧ o ∈ opts ∧ o.id = ""

theorem resolveSelectedOption_eq_iff (options : Option (List ConfirmationOption))
    (id : Option String) :
    Rust.resolveSelectedOption options id = Chat.resolveSelectedOption options id ↔
      ¬ EmptyOption options id := by
  rcases id with _ | id
  · simp [Rust.resolveSelectedOption, Chat.resolveSelectedOption, EmptyOption]
  rcases options with _ | opts
  · simp [Rust.resolveSelectedOption, Chat.resolveSelectedOption, EmptyOption]
  by_cases hid : id = ""
  · subst hid
    simp [Rust.resolveSelectedOption, Chat.resolveSelectedOption, EmptyOption]
  · simp [Rust.resolveSelectedOption, Chat.resolveSelectedOption, EmptyOption, hid]

/-- The call waits for confirmation and the action selects an option with an empty id. -/
def ConfirmsEmptyOption (a : ChatToolCallConfirmedAction Empty) : ToolCallState Empty → Prop
  | .pendingConfirmation s => EmptyOption s.options (selectedOptionId? a)
  | _ => False

theorem toolCallConfirmed_agrees_iff (a : ChatToolCallConfirmedAction Empty)
    (tc : ToolCallState Empty) :
    Rust.toolCallConfirmed (toRustConfirmed a) tc = Chat.toolCallConfirmed a tc ↔
      ¬ ConfirmsEmptyOption a tc := by
  cases tc with
  | pendingConfirmation s =>
    show _ ↔ ¬ EmptyOption s.options (selectedOptionId? a)
    rw [← resolveSelectedOption_eq_iff]
    cases a with
    | approved a =>
      simp only [selectedOptionId?]
      constructor
      · intro h
        exact congrArg (fun s : ToolCallRunningState Empty => s.selectedOption)
          (ToolCallState.running.inj h)
      · intro h
        have hinput : Rust.confirmedInput a.editedToolInput s.toolInput =
            Chat.confirmedInput a.editedToolInput s.toolInput := rfl
        simp only [Rust.toolCallConfirmed, Chat.toolCallConfirmed, toRustConfirmed, if_true]
        rw [h, hinput]
        rfl
    | denied a =>
      simp only [selectedOptionId?]
      constructor
      · intro h
        exact congrArg (fun s : ToolCallCancelledState Empty => s.selectedOption)
          (ToolCallState.cancelled.inj h)
      · intro h
        simp only [Rust.toolCallConfirmed, Chat.toolCallConfirmed, toRustConfirmed, Bool.false_eq_true,
          if_false]
        rw [h]
        rfl
  | _ => exact ⟨fun _ => id, fun _ => rfl⟩

end AgentHostProtocol.Agreement
