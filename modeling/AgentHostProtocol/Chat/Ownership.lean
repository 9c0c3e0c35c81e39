import AgentHostProtocol.Chat.Tracking

/-!
# Who executes a tool call

A call that a client contributes is executed by that client. Who that is is fixed when
the call starts: no action takes a call from its client or gives one to a client.

**What is proved**: the contributor of a call, from its `chat/toolCallStart` on and
wherever its turn goes, names the client it started with or never a client
(`owner_fixed_at_start`); and only an MCP server's calls wait for authentication, in every
chat whose calls came in as their types say (`AllCalls.runs`).
-/

namespace AgentHostProtocol.Chat

open Library

variable {legacyParse : String → Option ℤ} {s s' : ChatState Empty} {a : Action}

theorem owner_eq_some_iff {contributor : Option (ToolCallContributor Empty)} {clientId : String} :
    owner contributor = some clientId ↔ contributor = some (.client clientId) := by
  rcases contributor with _ | _ | _ | raw
  · simp [owner]
  · simp [owner]
  · simp [owner]
  · exact raw.elim

theorem isMcp_iff {contributor : Option (ToolCallContributor Empty)} :
    isMcp contributor = true ↔ ∃ customizationId, contributor = some (.mcp customizationId) := by
  rcases contributor with _ | _ | _ | raw
  · simp [isMcp]
  · simp [isMcp]
  · simp [isMcp]
  · exact raw.elim

/-! ### What holds of all tool calls -/

/-- `Q` holds of every tool call among the parts. -/
def CallsIn (Q : ToolCallState Empty → Prop) (parts : List (ResponsePart Empty)) : Prop :=
  ∀ tc, ResponsePart.toolCall tc ∈ parts → Q tc

/-- `Q` holds of every tool call of a chat. -/
structure AllCalls (Q : ToolCallState Empty → Prop) (s : ChatState Empty) : Prop where
  active : ∀ turn, s.activeTurn = some turn → CallsIn Q turn.responseParts
  done : ∀ turn ∈ s.turns, CallsIn Q turn.responseParts

/-- `Q` holds of every tool call that an action brings in. -/
structure BringsCalls (Q : ToolCallState Empty → Prop) (a : Action) : Prop where
  new : ∀ tc, newPart? a = some (.toolCall tc) → Q tc
  loaded : ∀ x, a = .turnsLoaded x → ∀ turn ∈ x.turns, CallsIn Q turn.responseParts

section

variable {Q : ToolCallState Empty → Prop} (hQ : ∀ {tc tc'}, ToolCallStep tc tc' → Q tc → Q tc')

include hQ

theorem CallsIn.forall₂ {parts parts' : List (ResponsePart Empty)} (h : CallsIn Q parts)
    (hstep : List.Forall₂ PartStep parts parts') : CallsIn Q parts' := by
  induction hstep with
  | nil => exact h
  | @cons part part' parts parts' hpart _ ih =>
    intro tc htc
    rcases List.mem_cons.mp htc with rfl | htc
    · cases hpart with
      | refl => exact h tc List.mem_cons_self
      | toolCall hpart => exact hQ hpart (h _ List.mem_cons_self)
    · exact ih (fun tc htc => h tc (List.mem_cons_of_mem _ htc)) tc htc

theorem CallsIn.endedTurn {turn : ActiveTurn Empty} (h : CallsIn Q turn.responseParts)
    (turnState : TurnState) (duration : ℤ) (errorPart : Option ErrorResponsePart) :
    CallsIn Q (Chat.endedTurn turn turnState duration errorPart).responseParts := by
  intro tc htc
  rcases List.mem_append.mp htc with htc | htc
  · exact h.forall₂ hQ (forall₂_map finalPart_step) tc htc
  · cases errorPart <;> simp at htc

/-- What every step of a call keeps and every call that comes in satisfies, holds of all
calls after an action. -/
theorem AllCalls.step (hs : AllCalls Q s) (ha : BringsCalls Q a)
    (h : chatReducer legacyParse s a = some s') : AllCalls Q s' := by
  cases chatReducer_effect h with
  | within hactive hturns _ _ =>
    refine ⟨fun turn' hturn' => ?_, fun turn hturn => hs.done turn (hturns ▸ hturn)⟩
    rw [hturn'] at hactive
    cases hturn : s.activeTurn with
    | none =>
      rw [hturn] at hactive
      cases hactive
    | some turn =>
      rw [hturn] at hactive
      cases hactive with
      | same => exact hs.active _ hturn
      | edit hedit =>
        obtain ⟨parts, fresh, heq, hparts, hfresh⟩ := hedit.parts
        intro tc htc
        rw [heq] at htc
        rcases List.mem_append.mp htc with htc | htc
        · exact (hs.active _ hturn).forall₂ hQ hparts tc htc
        · exact ha.new tc (hfresh _ htc)
  | started x hactive _ hparts hturns _ =>
    refine ⟨fun turn hturn tc htc => ?_, fun turn hturn => hs.done turn (hturns ▸ hturn)⟩
    rw [hactive] at hturn
    cases hturn
    rw [hparts] at htc
    cases htc
  | ended e _ hturn hactive hturns _ =>
    refine ⟨fun turn h => ?_, fun turn hmem => ?_⟩
    · rw [hactive] at h
      cases h
    · rw [hturns] at hmem
      rcases List.mem_append.mp hmem with hmem | hmem
      · exact hs.done turn hmem
      · rw [List.mem_singleton.mp hmem]
        exact (hs.active _ (activeTurnOf_eq_some.mp hturn).1).endedTurn hQ _ _ _
  | cut turnId hkept hactive _ =>
    refine ⟨fun turn h => ?_, fun turn hmem => ?_⟩
    · rw [hactive] at h
      cases h
    · rw [keptTurns_eq_take hkept] at hmem
      exact hs.done turn (List.mem_of_mem_take hmem)
  | resumed turnId turn _ hturns hactive _ =>
    refine ⟨fun turn' h => ?_, fun turn' hmem => ?_⟩
    · rw [hactive] at h
      cases h
      exact hs.done turn (by rw [hturns]; simp)
    · exact hs.done turn' (by rw [hturns]; exact List.mem_append_left _ hmem)
  | loaded x hactive hturns _ =>
    refine ⟨fun turn h => hs.active turn (hactive ▸ h), fun turn hmem => ?_⟩
    rw [hturns] at hmem
    rcases List.mem_append.mp hmem with hmem | hmem
    · exact ha.loaded x rfl turn (List.mem_filter.mp hmem).1
    · exact hs.done turn hmem

theorem AllCalls.runs {as : List Action} (hs : AllCalls Q s) (ha : ∀ a ∈ as, BringsCalls Q a)
    (hr : runs (chatReducer legacyParse) s as = some s') : AllCalls Q s' :=
  runs_invariant (chatReducer legacyParse) (fun hs ha h => hs.step hQ ha h) hs
    (guarded_of_forall (chatReducer legacyParse) ha s) hr

end

/-! ### The owner of a call -/

/-- A call that starts is the last part of the active turn. -/
theorem turnAt_toolCallStart {x : ChatToolCallStartAction Empty} {turn : ActiveTurn Empty}
    (hturn : activeTurnOf s x.turnId = some turn)
    (h : chatReducer legacyParse s (.toolCallStart x) = some s') :
    turnAt s' .active = some (turn.id, turn.responseParts ++ [.toolCall (startedToolCall x)]) := by
  simp only [chatReducer, toolCallStart, appendPart, hturn, Option.some_inj] at h
  subst h
  rfl

/-- **Ownership**: after any run from its start, wherever its turn is then, a call is still
there at its index and belongs to the client it started with, or to none if it started
with none; if it waits for authentication, it is an MCP server's. And this last is so for
all calls of a chat whose calls came in as their type says. -/
theorem owner_fixed_at_start :
    (∀ s x turn s₁ as s' r', activeTurnOf s x.turnId = some turn →
      chatReducer legacyParse s (.toolCallStart x) = some s₁ →
      runs (chatReducer legacyParse) s₁ as = some s' →
      followRun (chatReducer legacyParse) follow s₁ as .active = some r' →
      ∃ parts tc, turnAt s' r' = some (turn.id, parts) ∧
        parts[turn.responseParts.length]? = some (.toolCall tc) ∧
        (tcBase tc).toolCallId = x.toolCallId ∧
        (∀ clientId, x.contributor = some (.client clientId) →
          (tcBase tc).contributor = some (.client clientId)) ∧
        ((∀ clientId, x.contributor ≠ some (.client clientId)) →
          ∀ clientId, (tcBase tc).contributor ≠ some (.client clientId)) ∧
        (tc.status = .authRequired →
          ∃ customizationId, (tcBase tc).contributor = some (.mcp customizationId))) ∧
    ∀ s as s', AllCalls Narrowed s → (∀ a ∈ as, BringsCalls Narrowed a) →
      runs (chatReducer legacyParse) s as = some s' → AllCalls Narrowed s' := by
  refine ⟨?_, fun s as s' hs ha hr => hs.runs ToolCallStep.narrowed ha hr⟩
  intro s x turn s₁ as s' r' hturn h hr hf
  obtain ⟨⟨turnId, parts⟩, hv, rfl, hgrows⟩ :=
    turnAt_followRun hr hf (turnAt_toolCallStart hturn h)
  have hcall : (turn.responseParts ++ [ResponsePart.toolCall (startedToolCall x)])[
      turn.responseParts.length]? = some (.toolCall (startedToolCall x)) := by
    rw [List.getElem?_concat_length]
  obtain ⟨part, hpart, hlater⟩ := hgrows _ _ hcall
  obtain ⟨tc, rfl, hcallLater⟩ := PartLater.toolCall hlater
  have howner : owner (tcBase tc).contributor = owner x.contributor := hcallLater.owner
  refine ⟨parts, tc, hv, hpart, hcallLater.toolCallId, fun clientId hclient => ?_,
    fun hnone clientId hclient => ?_, fun hauth => ?_⟩
  · rw [← owner_eq_some_iff, howner, owner_eq_some_iff]
    exact hclient
  · rw [← owner_eq_some_iff, howner, owner_eq_some_iff] at hclient
    exact hnone clientId hclient
  · exact isMcp_iff.mp (hcallLater.narrowed nofun hauth)

/-- A client's call for which another client claims to be ready. -/
theorem owner_fixed_at_start_claimed : ∃ s' parts tc,
    runs (chatReducer fun _ => none)
      (toolCallStart (turnStarted (ChatState.new "ahp-chat:/c" "Chat" "2025-03-10T18:00:00.000Z")
        ⟨"t1", "2025-03-10T18:42:03.000Z", ⟨"hello"⟩, none⟩)
        ⟨⟨"t1", "c1", none⟩, "bash", "Bash", none, some (.client "alice")⟩)
      [.toolCallReady ⟨⟨"t1", "c1", none⟩, some (.client "mallory"), none, .plain "Run", none, none,
        none, none, none, none, none⟩] = some s' ∧
    turnAt s' .active = some ("t1", parts) ∧ parts[0]? = some (.toolCall tc) ∧
    (tcBase tc).contributor = some (.client "alice") := by
  obtain ⟨parts, tc, hparts, htc, -, howner, -⟩ := (@owner_fixed_at_start fun _ => none).1
    (turnStarted (ChatState.new "ahp-chat:/c" "Chat" "2025-03-10T18:00:00.000Z")
      ⟨"t1", "2025-03-10T18:42:03.000Z", ⟨"hello"⟩, none⟩)
    ⟨⟨"t1", "c1", none⟩, "bash", "Bash", none, some (.client "alice")⟩ _ _
    [.toolCallReady ⟨⟨"t1", "c1", none⟩, some (.client "mallory"), none, .plain "Run", none, none,
      none, none, none, none, none⟩] _ .active rfl rfl rfl rfl
  exact ⟨_, parts, tc, rfl, hparts, htc, howner "alice" rfl⟩

end AgentHostProtocol.Chat
