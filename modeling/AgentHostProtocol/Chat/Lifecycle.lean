import AgentHostProtocol.Chat.ToolCall
import Mathlib.Logic.Relation

/-!
# The life of a tool call

The lifecycle as a graph of statuses, `ToolCallStatus.next`, and what any update of
the reducer does to one tool call, `ToolCallStep`: it keeps the call's identity and
its owner, moves along an edge of the graph or not at all, and does not touch a call
whose status is terminal.

**What is proved**: every update function is a `ToolCallStep` (`toolCallReady_step`
and its siblings), and what one step keeps, any number of steps keeps
(`ToolCallLater`).
-/

namespace AgentHostProtocol

/-! ### The graph -/

/-- Where a tool call can move from a status in one step. -/
def ToolCallStatus.next : ToolCallStatus → List ToolCallStatus
  | .streaming => [.pendingConfirmation, .running, .cancelled]
  | .pendingConfirmation => [.running, .cancelled, .pendingResultConfirmation, .completed]
  | .running =>
    [.pendingConfirmation, .authRequired, .pendingResultConfirmation, .completed, .cancelled]
  | .authRequired => [.running, .completed, .cancelled]
  | .pendingResultConfirmation => [.completed, .cancelled]
  | .completed | .cancelled => []

/-- A status that is never left. -/
def ToolCallStatus.Terminal (status : ToolCallStatus) : Prop :=
  status = .completed ∨ status = .cancelled

instance (status : ToolCallStatus) : Decidable status.Terminal :=
  inferInstanceAs (Decidable (_ ∨ _))

/-- The terminal statuses are the ones without a way out. -/
theorem ToolCallStatus.terminal_iff {status : ToolCallStatus} :
    status.Terminal ↔ status.next = [] := by
  cases status <;> simp [Terminal, next]

namespace Chat

/-- The client that owns the execution of a call with this contributor. -/
def owner : Option (ToolCallContributor Empty) → Option String
  | some (.client clientId) => some clientId
  | _ => none

/-- Whether a contributor is an MCP server. -/
def isMcp : Option (ToolCallContributor Empty) → Bool
  | some (.mcp _) => true
  | _ => false

/-- The contributor of a call in `auth-required` is an MCP server; the source has it in
the type of that state. -/
def Narrowed (tc : ToolCallState Empty) : Prop :=
  tc.status = .authRequired → isMcp (tcBase tc).contributor

/-- A call refined by an action keeps its owner. -/
theorem owner_refine (current next : Option (ToolCallContributor Empty)) :
    owner (refineToolCallContributor current next) = owner current := by
  rcases next with _ | nextId | _ | raw
  · rfl
  · rcases current with _ | clientId | _ | raw
    · rfl
    · by_cases h : nextId = clientId
      · simp [refineToolCallContributor, owner, h]
      · simp [refineToolCallContributor, owner, h]
    · rfl
    · exact raw.elim
  · rcases current with _ | _ | _ | _ <;> rfl
  · exact raw.elim

/-! ### One step -/

/-- What an action may do to a tool call. -/
structure ToolCallStep (tc tc' : ToolCallState Empty) : Prop where
  toolCallId : (tcBase tc').toolCallId = (tcBase tc).toolCallId
  toolName : (tcBase tc').toolName = (tcBase tc).toolName
  displayName : (tcBase tc').displayName = (tcBase tc).displayName
  owner : owner (tcBase tc').contributor = owner (tcBase tc).contributor
  /-- The status moves along an edge or stays. -/
  status : tc'.status = tc.status ∨ tc'.status ∈ tc.status.next
  /-- A completed or cancelled call is not touched. -/
  terminal : tc.status.Terminal → tc' = tc
  /-- A call that completes while waiting for authentication has failed. -/
  failed : ∀ c, tc.status = .authRequired → tc' = .completed c → c.success = false
  narrowed : Narrowed tc → Narrowed tc'

namespace ToolCallStep

theorem refl (tc : ToolCallState Empty) : ToolCallStep tc tc where
  toolCallId := rfl
  toolName := rfl
  displayName := rfl
  owner := rfl
  status := .inl rfl
  terminal _ := rfl
  failed c hs hc := by rw [hc] at hs; cases hs
  narrowed h := h

/-- A step from a live status that needs no further condition: not into `auth-required`
and not from there to `completed`. -/
theorem of_move {tc tc' : ToolCallState Empty} (source target : ToolCallStatus)
    (hsource : tc.status = source) (htarget : tc'.status = target)
    (hmove : (target = source ∨ target ∈ source.next) ∧ ¬ source.Terminal ∧
      target ≠ .authRequired ∧ (source = .authRequired → target ≠ .completed))
    (hid : (tcBase tc').toolCallId = (tcBase tc).toolCallId)
    (hname : (tcBase tc').toolName = (tcBase tc).toolName)
    (hdisplay : (tcBase tc').displayName = (tcBase tc).displayName)
    (howner : Chat.owner (tcBase tc').contributor = Chat.owner (tcBase tc).contributor) :
    ToolCallStep tc tc' := by
  subst hsource htarget
  obtain ⟨hedge, hlive, hauth, hcompleted⟩ := hmove
  refine ⟨hid, hname, hdisplay, howner, hedge, fun h => absurd h hlive, ?_, fun _ h => absurd h hauth⟩
  rintro c hs rfl
  exact absurd rfl (hcompleted hs)

end ToolCallStep

theorem toolCallDelta_step (action : ChatToolCallDeltaAction) (tc : ToolCallState Empty) :
    ToolCallStep tc (toolCallDelta action tc) := by
  cases tc with
  | streaming tc =>
    exact .of_move .streaming .streaming rfl rfl (by decide) rfl rfl rfl rfl
  | _ => exact .refl _

/-- The call that `chat/toolCallReady` makes of a call it applies to. -/
theorem readyState_step (action : ChatToolCallReadyAction Empty) {tc : ToolCallState Empty}
    (toolInput : Option ToolInput) (pending : Option (ToolCallPendingConfirmationState Empty))
    (hs : tc.status = .streaming ∨ tc.status = .running ∨ tc.status = .pendingConfirmation) :
    ToolCallStep tc (readyState action tc toolInput pending) := by
  unfold readyState
  cases action.confirmed with
  | some confirmed =>
    rcases hs with h | h | h <;>
      exact .of_move _ .running h rfl (by decide) rfl rfl rfl (owner_refine _ _)
  | none =>
    rcases hs with h | h | h <;>
      exact .of_move _ .pendingConfirmation h rfl (by decide) rfl rfl rfl (owner_refine _ _)

theorem toolCallReady_step (action : ChatToolCallReadyAction Empty) (tc : ToolCallState Empty) :
    ToolCallStep tc (toolCallReady action tc) := by
  cases tc with
  | streaming tc => exact readyState_step action _ _ (.inl rfl)
  | running tc => exact readyState_step action _ _ (.inr (.inl rfl))
  | pendingConfirmation tc => exact readyState_step action _ _ (.inr (.inr rfl))
  | _ => exact .refl _

theorem toolCallConfirmed_step (action : ChatToolCallConfirmedAction Empty)
    (tc : ToolCallState Empty) : ToolCallStep tc (toolCallConfirmed action tc) := by
  cases tc with
  | pendingConfirmation tc =>
    cases action with
    | approved a =>
      exact .of_move .pendingConfirmation .running rfl rfl (by decide) rfl rfl rfl rfl
    | denied a =>
      exact .of_move .pendingConfirmation .cancelled rfl rfl (by decide) rfl rfl rfl rfl
  | _ => exact .refl _

/-- A call that completes while waiting for authentication fails. -/
theorem completeState_step (action : ChatToolCallCompleteAction) {tc : ToolCallState Empty}
    (params : ToolCallParameterFields) (post : ToolCallPostConfirmationFields Empty)
    (preAuthContent : Option (List Json))
    (hs : tc.status = .running ∨ tc.status = .pendingConfirmation ∨
      tc.status = .authRequired ∧ action.result.success = false) :
    ToolCallStep tc (completeState action tc params post preAuthContent) := by
  unfold completeState
  by_cases hreview : action.requiresResultConfirmation.getD false ∧ tc.status ≠ .authRequired
  · simp only [if_pos hreview]
    rcases hs with h | h | ⟨h, -⟩
    · exact .of_move _ .pendingResultConfirmation h rfl (by decide) rfl rfl rfl rfl
    · exact .of_move _ .pendingResultConfirmation h rfl (by decide) rfl rfl rfl rfl
    · exact absurd h hreview.2
  · simp only [if_neg hreview]
    rcases hs with h | h | ⟨h, hfail⟩
    · exact .of_move _ .completed h rfl (by decide) rfl rfl rfl rfl
    · exact .of_move _ .completed h rfl (by decide) rfl rfl rfl rfl
    · refine ⟨rfl, rfl, rfl, rfl, .inr ?_, fun ht => absurd ht (by rw [h]; decide), ?_, nofun⟩
      · show ToolCallStatus.completed ∈ _
        rw [h]
        decide
      · rintro c - ⟨⟩
        exact hfail

theorem toolCallComplete_step (action : ChatToolCallCompleteAction) (tc : ToolCallState Empty) :
    ToolCallStep tc (toolCallComplete action tc) := by
  cases tc with
  | running tc => exact completeState_step action _ _ _ (.inl rfl)
  | pendingConfirmation tc => exact completeState_step action _ _ _ (.inr (.inl rfl))
  | authRequired tc =>
    simp only [toolCallComplete]
    by_cases hsuccess : action.result.success = true
    · rw [if_pos hsuccess]
      exact .refl _
    · rw [if_neg hsuccess]
      exact completeState_step action _ _ _ (.inr (.inr ⟨rfl, by simpa using hsuccess⟩))
  | _ => exact .refl _

theorem toolCallResultConfirmed_step (action : ChatToolCallResultConfirmedAction)
    (tc : ToolCallState Empty) : ToolCallStep tc (toolCallResultConfirmed action tc) := by
  cases tc with
  | pendingResultConfirmation tc =>
    unfold toolCallResultConfirmed
    by_cases happroved : action.approved = true
    · simp only [if_pos happroved]
      exact .of_move .pendingResultConfirmation .completed rfl rfl (by decide) rfl rfl rfl rfl
    · simp only [if_neg happroved]
      exact .of_move .pendingResultConfirmation .cancelled rfl rfl (by decide) rfl rfl rfl rfl
  | _ => exact .refl _

theorem toolCallContentChanged_step (action : ChatToolCallContentChangedAction)
    (tc : ToolCallState Empty) : ToolCallStep tc (toolCallContentChanged action tc) := by
  cases tc with
  | running tc => exact .of_move .running .running rfl rfl (by decide) rfl rfl rfl rfl
  | _ => exact .refl _

theorem toolCallAuthRequired_step (action : ChatToolCallAuthRequiredAction)
    (tc : ToolCallState Empty) : ToolCallStep tc (toolCallAuthRequired action tc) := by
  cases tc with
  | running tc =>
    simp only [toolCallAuthRequired]
    split
    · next customizationId hc =>
      refine ⟨rfl, rfl, rfl, rfl, .inr ?_, ?_, fun c hs => (nomatch hs), fun _ _ => ?_⟩
      · show ToolCallStatus.authRequired ∈ ToolCallStatus.running.next
        decide
      · intro h
        rcases h with h | h <;> cases h
      · show isMcp tc.contributor = true
        rw [hc]
        rfl
    · exact .refl _
  | _ => exact .refl _

theorem toolCallAuthResolved_step (action : ChatToolCallAuthResolvedAction)
    (tc : ToolCallState Empty) : ToolCallStep tc (toolCallAuthResolved action tc) := by
  cases tc with
  | authRequired tc =>
    exact .of_move .authRequired .running rfl rfl (by decide) rfl rfl rfl rfl
  | _ => exact .refl _

/-- The end of a turn leaves no call unfinished. -/
theorem terminal_cancelUnfinished (tc : ToolCallState Empty) :
    (cancelUnfinished tc).status.Terminal := by
  cases tc with
  | completed tc => exact .inl rfl
  | unknown raw => exact raw.elim
  | _ => exact .inr rfl

theorem cancelUnfinished_of_terminal {tc : ToolCallState Empty} (h : tc.status.Terminal) :
    cancelUnfinished tc = tc := by
  cases tc with
  | completed tc => rfl
  | cancelled tc => rfl
  | unknown raw => exact raw.elim
  | _ => exact absurd h (by simp [ToolCallState.status, ToolCallStatus.Terminal])

/-- Any live call can be cancelled. -/
theorem skipped_step {tc : ToolCallState Empty} (params : ToolCallParameterFields)
    (hlive : ¬ tc.status.Terminal) : ToolCallStep tc (skipped tc params) := by
  cases hs : tc.status with
  | completed => exact absurd (.inl hs) hlive
  | cancelled => exact absurd (.inr hs) hlive
  | _ => exact .of_move _ .cancelled hs rfl (by decide) rfl rfl rfl rfl

theorem cancelUnfinished_step (tc : ToolCallState Empty) : ToolCallStep tc (cancelUnfinished tc) := by
  cases tc with
  | completed tc => exact .refl _
  | cancelled tc => exact .refl _
  | unknown raw => exact raw.elim
  | _ => exact skipped_step _ (by simp [ToolCallState.status, ToolCallStatus.Terminal])

/-! ### Any number of steps -/

/-- A later version of a tool call. -/
def ToolCallLater : ToolCallState Empty → ToolCallState Empty → Prop :=
  Relation.ReflTransGen ToolCallStep

namespace ToolCallLater

variable {tc tc' : ToolCallState Empty}

/-- A field that every step keeps is kept. -/
theorem keeps {β : Type} (f : ToolCallState Empty → β)
    (hf : ∀ {x y}, ToolCallStep x y → f y = f x) (h : ToolCallLater tc tc') : f tc' = f tc := by
  induction h with
  | refl => rfl
  | tail _ hstep ih => rw [hf hstep, ih]

theorem toolCallId (h : ToolCallLater tc tc') :
    (tcBase tc').toolCallId = (tcBase tc).toolCallId :=
  h.keeps (fun x => (tcBase x).toolCallId) (·.toolCallId)

theorem toolName (h : ToolCallLater tc tc') : (tcBase tc').toolName = (tcBase tc).toolName :=
  h.keeps (fun x => (tcBase x).toolName) (·.toolName)

theorem displayName (h : ToolCallLater tc tc') :
    (tcBase tc').displayName = (tcBase tc).displayName :=
  h.keeps (fun x => (tcBase x).displayName) (·.displayName)

theorem owner (h : ToolCallLater tc tc') :
    Chat.owner (tcBase tc').contributor = Chat.owner (tcBase tc).contributor :=
  h.keeps (fun x => Chat.owner (tcBase x).contributor) (·.owner)

theorem narrowed (h : ToolCallLater tc tc') (hn : Narrowed tc) : Narrowed tc' := by
  induction h with
  | refl => exact hn
  | tail _ hstep ih => exact hstep.narrowed ih

/-- A completed or cancelled call is the same ever after. -/
theorem eq_of_terminal (h : ToolCallLater tc tc') (ht : tc.status.Terminal) : tc' = tc := by
  induction h with
  | refl => rfl
  | tail _ hstep ih =>
    subst ih
    exact hstep.terminal ht

end ToolCallLater

end Chat

end AgentHostProtocol
