import AgentHostProtocol.Agreement.GoCodec

/-!
# Tool call transitions in Go agree

On a call with nothing empty in it each Go update function is the TypeScript one, unless the
action puts something empty in (`EmptiesCall`) or confirms with an empty option id
(`goUpdate_eq`). Go makes an empty list absent where TypeScript keeps it, and writes neither.
-/

namespace AgentHostProtocol.Agreement.GoChat

/-! ### Equal on every call -/

theorem toolCallID_eq (tc : ToolCallState Empty) :
    Go.toolCallID tc = (Chat.tcBase tc).toolCallId := by
  cases tc with
  | unknown raw => exact raw.elim
  | _ => rfl

theorem refineToolCallContributor_eq (current next : Option (ToolCallContributor Empty)) :
    Go.refineToolCallContributor current next = Chat.refineToolCallContributor current next := by
  rcases next with _ | _ | _ | raw
  · rfl
  · rcases current with _ | _ | _ | _ <;> rfl
  · rcases current with _ | _ | _ | _ <;> rfl
  · exact raw.elim

theorem toolCallDelta_eq (a : ChatToolCallDeltaAction) (tc : ToolCallState Empty) :
    Go.toolCallDelta a tc = Chat.toolCallDelta a tc := by
  cases tc <;> rfl

theorem toolCallReady_eq (a : ChatToolCallReadyAction Empty) (tc : ToolCallState Empty) :
    Go.toolCallReady a tc = Chat.toolCallReady a tc := by
  cases tc with
  | streaming s | running s | pendingConfirmation s =>
    simp only [Go.toolCallReady, Chat.toolCallReady, Chat.readyState, Go.toolCallMeta, Chat.tcBase,
      Chat.tcBaseWithMeta, refineToolCallContributor_eq]
    cases a.confirmed <;> simp
  | _ => rfl

theorem toolCallResultConfirmed_eq (a : ChatToolCallResultConfirmedAction)
    (tc : ToolCallState Empty) :
    Go.toolCallResultConfirmed a tc = Chat.toolCallResultConfirmed a tc := by
  cases tc <;> rfl

theorem cancelUnfinished_eq (tc : ToolCallState Empty) :
    Go.cancelUnfinished tc = Chat.cancelUnfinished tc := by
  cases tc with
  | unknown raw => exact raw.elim
  | _ => rfl

theorem resolveSelectedOption_eq_iff (options : Option (List ConfirmationOption))
    (id : Option String) :
    Go.resolveSelectedOption options id = Chat.resolveSelectedOption options id ↔
      ¬ EmptyOption options id := by
  rw [← Agreement.resolveSelectedOption_eq_iff]
  rcases id with _ | id
  · rcases options with _ | options <;> rfl
  · rcases options with _ | options <;> rfl

theorem toolCallConfirmed_agrees_iff (a : ChatToolCallConfirmedAction Empty)
    (tc : ToolCallState Empty) :
    Go.toolCallConfirmed (toGoConfirmed a) tc = Chat.toolCallConfirmed a tc ↔
      ¬ ConfirmsEmptyOption a tc := by
  cases tc with
  | pendingConfirmation s =>
    show _ ↔ ¬ EmptyOption s.options (selectedOptionId? a)
    rw [← resolveSelectedOption_eq_iff]
    cases a with
    | approved a =>
      simp only [selectedOptionId?]
      constructor
      · intro h
        exact congrArg (fun s : ToolCallRunningState Empty => s.selectedOption)
          (ToolCallState.running.inj h)
      · intro h
        have hinput : Go.confirmedInput a.editedToolInput s.toolInput =
            Chat.confirmedInput a.editedToolInput s.toolInput := rfl
        simp only [Go.toolCallConfirmed, Chat.toolCallConfirmed, toGoConfirmed, if_true]
        rw [h, hinput]
        rfl
    | denied a =>
      simp only [selectedOptionId?]
      constructor
      · intro h
        exact congrArg (fun s : ToolCallCancelledState Empty => s.selectedOption)
          (ToolCallState.cancelled.inj h)
      · intro h
        simp only [Go.toolCallConfirmed, Chat.toolCallConfirmed, toGoConfirmed, Bool.false_eq_true,
          if_false]
        rw [h]
        rfl
  | _ => exact ⟨fun _ => id, fun _ => rfl⟩

/-! ### Nothing empty put in -/

/-- Whether the call is in a status that the action acts on. -/
def AppliesTo : Chat.Action → ToolCallState Empty → Prop
  | .toolCallDelta _, tc => tc.status = .streaming
  | .toolCallReady _, tc =>
    tc.status = .streaming ∨ tc.status = .running ∨ tc.status = .pendingConfirmation
  | .toolCallConfirmed _, tc => tc.status = .pendingConfirmation
  | .toolCallComplete a, tc =>
    tc.status = .running ∨ tc.status = .pendingConfirmation ∨
      (tc.status = .authRequired ∧ a.result.success = false)
  | .toolCallResultConfirmed _, tc => tc.status = .pendingResultConfirmation
  | .toolCallContentChanged _, tc => tc.status = .running
  | .toolCallAuthRequired _, tc =>
    tc.status = .running ∧ ∃ server, (Chat.tcBase tc).contributor = some (.mcp server)
  | .toolCallAuthResolved _, tc => tc.status = .authRequired
  | _, _ => False

/-- Whether an action on a call carries an empty list or object to it. -/
def CarriesEmpty : Chat.Action → Prop
  | .toolCallDelta a => a._meta = some Go.emptyObject
  | .toolCallReady a =>
    a._meta = some Go.emptyObject ∨ (a.confirmed = none ∧ a.options = some [])
  | .toolCallConfirmed a => a.toToolCallActionBase._meta = some Go.emptyObject
  | .toolCallComplete a => a._meta = some Go.emptyObject ∨ ¬ FilledResult a.result
  | .toolCallResultConfirmed a => a._meta = some Go.emptyObject
  | .toolCallContentChanged a => a._meta = some Go.emptyObject ∨ a.content = []
  | .toolCallAuthRequired a => a._meta = some Go.emptyObject
  | .toolCallAuthResolved a => a._meta = some Go.emptyObject
  | _ => False

/-- The action puts an empty list or object in the call. -/
def EmptiesCall (a : Chat.Action) (tc : ToolCallState Empty) : Prop := AppliesTo a tc ∧ CarriesEmpty a

/-- What an action does to a call in TypeScript. -/
def tsUpdate : Chat.Action → ToolCallState Empty → ToolCallState Empty
  | .toolCallDelta a => Chat.toolCallDelta a
  | .toolCallReady a => Chat.toolCallReady a
  | .toolCallConfirmed a => Chat.toolCallConfirmed a
  | .toolCallComplete a => Chat.toolCallComplete a
  | .toolCallResultConfirmed a => Chat.toolCallResultConfirmed a
  | .toolCallContentChanged a => Chat.toolCallContentChanged a
  | .toolCallAuthRequired a => Chat.toolCallAuthRequired a
  | .toolCallAuthResolved a => Chat.toolCallAuthResolved a
  | _ => id

/-- What an action does to a call in Go. -/
def goUpdate : Chat.Action → ToolCallState Empty → ToolCallState Empty
  | .toolCallDelta a => Go.toolCallDelta a
  | .toolCallReady a => Go.toolCallReady a
  | .toolCallConfirmed a => Go.toolCallConfirmed (toGoConfirmed a)
  | .toolCallComplete a => Go.toolCallComplete a
  | .toolCallResultConfirmed a => Go.toolCallResultConfirmed a
  | .toolCallContentChanged a => Go.toolCallContentChanged a
  | .toolCallAuthRequired a => Go.toolCallAuthRequired a
  | .toolCallAuthResolved a => Go.toolCallAuthResolved a
  | _ => id

theorem or_ne_some_iff {α : Type} {x y : Option α} {e : α} (hy : y ≠ some e) :
    x.or y ≠ some e ↔ x ≠ some e := by
  cases x <;> simp [hy]

theorem toolCallComplete_eq {a : ChatToolCallCompleteAction} {tc : ToolCallState Empty}
    (h : FilledCall tc) (hne : ¬ EmptiesCall (.toolCallComplete a) tc) :
    Go.toolCallComplete a tc = Chat.toolCallComplete a tc := by
  have hcopy : ∀ {pre : Option (List Json)}, pre ≠ some [] → AppliesTo (.toolCallComplete a) tc →
      Go.copySlice (a.result.content.or pre) = a.result.content.or pre := by
    intro pre hpre happlies
    refine copySlice_eq_self_iff.mpr ((or_ne_some_iff hpre).mpr fun hcontent => ?_)
    exact hne ⟨happlies, .inr fun hfilled => hfilled.content hcontent⟩
  cases tc with
  | running s | pendingConfirmation s =>
    have hcontent : Go.copySlice (a.result.content.or none) = a.result.content.or none :=
      hcopy (by simp) (by simp [AppliesTo, ToolCallState.status])
    simp only [Go.toolCallComplete, Chat.toolCallComplete, Go.completeState, Chat.completeState,
      ToolCallState.status, hcontent]
    cases a.requiresResultConfirmation.getD false <;> rfl
  | authRequired s =>
    simp only [Go.toolCallComplete, Chat.toolCallComplete]
    cases hsuccess : a.result.success with
    | true => rfl
    | false =>
      have hcontent := hcopy h.payload (by simp [AppliesTo, ToolCallState.status, hsuccess])
      simp only [Bool.false_eq_true, if_false, Go.completeState, Chat.completeState,
        ToolCallState.status, hcontent]
      simp [Go.toolCallMeta, Chat.tcBaseWithMeta, Chat.tcBase]
  | _ => rfl

theorem toolCallContentChanged_eq {a : ChatToolCallContentChangedAction} {tc : ToolCallState Empty}
    (hne : ¬ EmptiesCall (.toolCallContentChanged a) tc) :
    Go.toolCallContentChanged a tc = Chat.toolCallContentChanged a tc := by
  cases tc with
  | running s =>
    have hcontent : some a.content ≠ some [] := by
      intro hempty
      exact hne ⟨rfl, .inr (Option.some.inj hempty)⟩
    simp only [Go.toolCallContentChanged, Chat.toolCallContentChanged,
      copySlice_eq_self_iff.mpr hcontent]
  | _ => rfl

theorem toolCallAuthRequired_eq {a : ChatToolCallAuthRequiredAction} {tc : ToolCallState Empty}
    (h : FilledCall tc) : Go.toolCallAuthRequired a tc = Chat.toolCallAuthRequired a tc := by
  cases tc with
  | running s =>
    have hcontent : Go.copySlice s.content = s.content := copySlice_eq_self_iff.mpr h.payload
    rcases hc : s.contributor with _ | _ | _ | _ <;>
      simp [Go.toolCallAuthRequired, Chat.toolCallAuthRequired, Chat.tcBaseWithMeta, Chat.tcBase, hc,
        hcontent]
  | _ => rfl

theorem toolCallAuthResolved_eq {a : ChatToolCallAuthResolvedAction} {tc : ToolCallState Empty}
    (h : FilledCall tc) : Go.toolCallAuthResolved a tc = Chat.toolCallAuthResolved a tc := by
  cases tc with
  | authRequired s =>
    have hcontent : Go.copySlice s.content = s.content := copySlice_eq_self_iff.mpr h.payload
    simp only [Go.toolCallAuthResolved, Chat.toolCallAuthResolved, Chat.tcBaseWithMeta, Chat.tcBase,
      hcontent]
  | _ => rfl

/-- Without something empty or an empty option id, Go does to a call what TypeScript does. -/
theorem goUpdate_eq {a : Chat.Action} {tc : ToolCallState Empty} (h : FilledCall tc)
    (hne : ¬ EmptiesCall a tc)
    (hoption : ∀ x, a = .toolCallConfirmed x → ¬ ConfirmsEmptyOption x tc) :
    goUpdate a tc = tsUpdate a tc := by
  cases a with
  | toolCallDelta a => exact toolCallDelta_eq a tc
  | toolCallReady a => exact toolCallReady_eq a tc
  | toolCallConfirmed a => exact (toolCallConfirmed_agrees_iff a tc).mpr (hoption a rfl)
  | toolCallComplete a => exact toolCallComplete_eq h hne
  | toolCallResultConfirmed a => exact toolCallResultConfirmed_eq a tc
  | toolCallContentChanged a => exact toolCallContentChanged_eq hne
  | toolCallAuthRequired a => exact toolCallAuthRequired_eq h
  | toolCallAuthResolved a => exact toolCallAuthResolved_eq h
  | _ => rfl

/-- What is left of a call that an action does not apply to. -/
theorem tsUpdate_of_not_appliesTo {a : Chat.Action} {tc : ToolCallState Empty}
    (h : ¬ AppliesTo a tc) : tsUpdate a tc = tc := by
  cases a with
  | toolCallDelta a | toolCallReady a | toolCallConfirmed a | toolCallComplete a
  | toolCallResultConfirmed a | toolCallContentChanged a | toolCallAuthResolved a =>
    cases tc <;> simp_all [AppliesTo, ToolCallState.status, tsUpdate, Chat.toolCallDelta,
      Chat.toolCallReady, Chat.toolCallConfirmed, Chat.toolCallComplete, Chat.toolCallResultConfirmed,
      Chat.toolCallContentChanged, Chat.toolCallAuthResolved]
  | toolCallAuthRequired a =>
    cases tc with
    | running s =>
      rcases hc : s.contributor with _ | _ | _ | raw
      · simp [tsUpdate, Chat.toolCallAuthRequired, hc]
      · simp [tsUpdate, Chat.toolCallAuthRequired, hc]
      · exact absurd ⟨rfl, _, hc⟩ h
      · exact raw.elim
    | _ => rfl
  | _ => rfl

theorem filledCall_iff {tc : ToolCallState Empty} :
    FilledCall tc ↔ (Chat.tcBase tc)._meta ≠ some Go.emptyObject ∧ FilledPayload tc :=
  ⟨fun h => ⟨h.metadata, h.payload⟩, fun h => ⟨h.1, h.2⟩⟩

theorem filledCall_toolCallReady_iff {a : ChatToolCallReadyAction Empty} {tc : ToolCallState Empty}
    (h : FilledCall tc) {toolInput : Option ToolInput}
    {pending : Option (ToolCallPendingConfirmationState Empty)}
    (hpending : pending.bind (·.options) ≠ some []) :
    FilledCall (Chat.readyState a tc toolInput pending) ↔ ¬ CarriesEmpty (.toolCallReady a) := by
  have hmeta := or_ne_some_iff (x := a._meta) h.metadata
  rw [filledCall_iff, CarriesEmpty, not_or]
  unfold Chat.readyState
  cases a.confirmed with
  | some confirmed =>
    refine and_congr hmeta (iff_of_true ?_ ?_)
    · simp [FilledPayload]
    · simp
  | none =>
    have hoptions := or_ne_some_iff (x := a.options) hpending
    refine and_congr hmeta (hoptions.trans ?_)
    simp

theorem filledCall_completeState_iff {a : ChatToolCallCompleteAction} {tc : ToolCallState Empty}
    (h : FilledCall tc) {params : ToolCallParameterFields}
    {post : ToolCallPostConfirmationFields Empty} {preAuthContent : Option (List Json)}
    (hpre : preAuthContent ≠ some []) :
    FilledCall (Chat.completeState a tc params post preAuthContent) ↔
      ¬ CarriesEmpty (.toolCallComplete a) := by
  have hmeta := or_ne_some_iff (x := a._meta) h.metadata
  have hcontent := or_ne_some_iff (x := a.result.content) hpre
  have hresult : FilledResult { a.result with content := a.result.content.or preAuthContent } ↔
      FilledResult a.result :=
    ⟨fun hf => ⟨hcontent.mp hf.content, hf.structuredContent, hf.resultMetadata⟩,
      fun hf => ⟨hcontent.mpr hf.content, hf.structuredContent, hf.resultMetadata⟩⟩
  rw [filledCall_iff, CarriesEmpty, not_or, not_not]
  unfold Chat.completeState
  simp only
  split <;> exact and_congr hmeta hresult

/-- A call stays filled exactly if the action puts nothing empty in. -/
theorem filledCall_tsUpdate_iff {a : Chat.Action} {tc : ToolCallState Empty} (h : FilledCall tc) :
    FilledCall (tsUpdate a tc) ↔ ¬ EmptiesCall a tc := by
  by_cases happlies : AppliesTo a tc
  case neg =>
    rw [tsUpdate_of_not_appliesTo happlies]
    exact iff_of_true h fun hempties => happlies hempties.1
  have hempties : EmptiesCall a tc ↔ CarriesEmpty a := and_iff_right happlies
  rw [hempties]
  have hmeta : ∀ {metadata : Option Meta}, metadata.or (Chat.tcBase tc)._meta ≠ some Go.emptyObject ↔
      metadata ≠ some Go.emptyObject := or_ne_some_iff h.metadata
  have hpayload := h.payload
  cases a with
  | toolCallDelta a =>
    cases tc with
    | streaming s => exact filledCall_iff.trans ((and_iff_left trivial).trans hmeta)
    | unknown raw => exact raw.elim
    | _ => cases happlies
  | toolCallReady a =>
    cases tc with
    | streaming s | running s => exact filledCall_toolCallReady_iff h (by simp)
    | pendingConfirmation s => exact filledCall_toolCallReady_iff h hpayload
    | unknown raw => exact raw.elim
    | _ => simp [AppliesTo, ToolCallState.status] at happlies
  | toolCallConfirmed a =>
    cases tc with
    | pendingConfirmation s =>
      cases a with
      | approved a =>
        have hcontent : (none : Option (List Json)) ≠ some [] := by simp
        exact filledCall_iff.trans ((and_iff_left hcontent).trans hmeta)
      | denied a => exact filledCall_iff.trans ((and_iff_left trivial).trans hmeta)
    | unknown raw => exact raw.elim
    | _ => cases happlies
  | toolCallComplete a =>
    cases tc with
    | running s | pendingConfirmation s => exact filledCall_completeState_iff h (by simp)
    | authRequired s =>
      have hsuccess : a.result.success = false := by
        simpa [AppliesTo, ToolCallState.status] using happlies
      simp only [tsUpdate, Chat.toolCallComplete, hsuccess, Bool.false_eq_true, if_false]
      exact filledCall_completeState_iff h hpayload
    | unknown raw => exact raw.elim
    | _ => simp [AppliesTo, ToolCallState.status] at happlies
  | toolCallResultConfirmed a =>
    cases tc with
    | pendingResultConfirmation s =>
      simp only [tsUpdate, Chat.toolCallResultConfirmed]
      split
      · exact filledCall_iff.trans ((and_iff_left hpayload).trans hmeta)
      · exact filledCall_iff.trans ((and_iff_left trivial).trans hmeta)
    | unknown raw => exact raw.elim
    | _ => cases happlies
  | toolCallContentChanged a =>
    cases tc with
    | running s =>
      have hcontent : some a.content ≠ some [] ↔ a.content ≠ [] := Option.some_inj.not
      rw [CarriesEmpty, not_or]
      exact filledCall_iff.trans (and_congr hmeta hcontent)
    | unknown raw => exact raw.elim
    | _ => cases happlies
  | toolCallAuthRequired a =>
    cases tc with
    | running s =>
      obtain ⟨-, server, hserver⟩ := happlies
      have hserver : s.contributor = some (.mcp server) := hserver
      simp only [tsUpdate, Chat.toolCallAuthRequired, hserver]
      exact filledCall_iff.trans ((and_iff_left hpayload).trans hmeta)
    | unknown raw => exact raw.elim
    | _ => cases happlies.1
  | toolCallAuthResolved a =>
    cases tc with
    | authRequired s => exact filledCall_iff.trans ((and_iff_left hpayload).trans hmeta)
    | unknown raw => exact raw.elim
    | _ => cases happlies
  | _ => exact happlies.elim

end AgentHostProtocol.Agreement.GoChat
