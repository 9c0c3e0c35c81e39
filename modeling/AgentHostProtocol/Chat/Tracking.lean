import AgentHostProtocol.Chat.Steps

/-!
# Turns and parts along a run

A turn keeps its id and its parts wherever an action moves it: `follow` names the place
where it is after the action, and the parts there are the parts of before, each at its
index and at most edited by a `PartStep`, with perhaps more at the end.

**What is proved**: this for one action (`turnAt_follow`) and, by following the
reference, for any run (`turnAt_followRun`); `toolCalls_follow_lifecycle` reads off what
it says about tool calls.
-/

namespace AgentHostProtocol.Chat

open Library

variable {legacyParse : String → Option ℤ} {s s' : ChatState Empty} {a : Action} {r r' : TurnRef}

/-! ### Parts over time -/

/-- A later version of a part. -/
def PartLater : ResponsePart Empty → ResponsePart Empty → Prop := Relation.ReflTransGen PartStep

/-- The discriminant of a part. -/
def partKind : ResponsePart Empty → ResponsePartKind
  | .markdown _ => .markdown
  | .contentRef _ => .contentRef
  | .toolCall _ => .toolCall
  | .reasoning _ => .reasoning
  | .systemNotification _ => .systemNotification
  | .inputRequest _ => .inputRequest
  | .error _ => .error

/-- A part keeps its kind and its id. -/
theorem PartLater.same {part part' : ResponsePart Empty} (h : PartLater part part') :
    partKind part' = partKind part ∧ partId part' = partId part := by
  induction h with
  | refl => exact ⟨rfl, rfl⟩
  | tail _ hstep ih =>
    rw [← ih.1, ← ih.2]
    cases hstep with
    | refl => exact ⟨rfl, rfl⟩
    | toolCall h => exact ⟨rfl, congrArg some h.toolCallId⟩
    | markdown h => exact ⟨rfl, congrArg some h⟩
    | reasoning h => exact ⟨rfl, congrArg some h⟩
    | inputRequest h => exact ⟨rfl, rfl⟩

/-- A later version of a tool call part holds a later version of the call. -/
theorem PartLater.toolCall {tc : ToolCallState Empty} {part : ResponsePart Empty}
    (h : PartLater (.toolCall tc) part) : ∃ tc', part = .toolCall tc' ∧ ToolCallLater tc tc' := by
  induction h with
  | refl => exact ⟨tc, rfl, .refl⟩
  | tail _ hstep ih =>
    obtain ⟨tc', rfl, hlater⟩ := ih
    cases hstep with
    | refl => exact ⟨tc', rfl, hlater⟩
    | toolCall h => exact ⟨_, rfl, hlater.tail h⟩

theorem finalPart_step (part : ResponsePart Empty) : PartStep part (finalPart part) := by
  cases part with
  | toolCall tc => exact .toolCall (cancelUnfinished_step tc)
  | _ => exact .refl _

/-- The end of a turn edits its parts in place and may add one. -/
theorem grows_endedTurn {R : ResponsePart Empty → ResponsePart Empty → Prop}
    (hfinal : ∀ part, R part (finalPart part)) (turn : ActiveTurn Empty) (turnState : TurnState)
    (duration : ℤ) (errorPart : Option ErrorResponsePart) :
    Grows R turn.responseParts (endedTurn turn turnState duration errorPart).responseParts :=
  .of_forall₂ (forall₂_map hfinal) _

theorem ActiveEdit.grows {turn : ActiveTurn Empty} {t : Option (ActiveTurn Empty)}
    (h : ActiveEdit a (some turn) t) :
    ∃ turn', t = some turn' ∧ turn'.id = turn.id ∧
      Grows PartStep turn.responseParts turn'.responseParts := by
  cases h with
  | same => exact ⟨turn, rfl, rfl, .refl .refl _⟩
  | edit h =>
    obtain ⟨parts, fresh, heq, hparts, -⟩ := h.parts
    exact ⟨_, rfl, h.id, heq ▸ .of_forall₂ hparts fresh⟩

/-! ### One action -/

/-- What a turn at a reference is to the turn at a later one: the same turn, grown. -/
def TurnStep (v v' : String × List (ResponsePart Empty)) : Prop :=
  v'.1 = v.1 ∧ Grows PartStep v.2 v'.2

theorem turnAt_done {v : String × List (ResponsePart Empty)} {index : ℕ} :
    turnAt s (.done index) = some v ↔
      ∃ turn, s.turns[index]? = some turn ∧ (turn.id, turn.responseParts) = v := by
  simp only [turnAt, Option.map_eq_some_iff]

theorem turnAt_active {v : String × List (ResponsePart Empty)} :
    turnAt s .active = some v ↔
      ∃ turn, s.activeTurn = some turn ∧ (turn.id, turn.responseParts) = v := by
  simp only [turnAt, Option.map_eq_some_iff]

/-- A completed turn is found by the same lookup in a list that agrees at its index. -/
theorem turnAt_done_of_eq {R : ResponsePart Empty → ResponsePart Empty → Prop} (hrefl : ∀ part, R part part)
    {v : String × List (ResponsePart Empty)} {index index' : ℕ}
    (hv : turnAt s (.done index) = some v) (h : s'.turns[index']? = s.turns[index]?) :
    ∃ v', turnAt s' (.done index') = some v' ∧ v'.1 = v.1 ∧ Grows R v.2 v'.2 := by
  refine ⟨v, ?_, rfl, .refl hrefl _⟩
  rw [← hv]
  simp only [turnAt, h]

theorem follow_ended_active {e : Ending} (ha : ending? a = some e) {turn : ActiveTurn Empty}
    (hturn : activeTurnOf s e.turnId = some turn) :
    follow s a .active = some (.done s.turns.length) := by
  cases a <;> cases ha <;> simp_all [follow, ending?]

theorem follow_ended_done {e : Ending} (ha : ending? a = some e) (index : ℕ) :
    follow s a (.done index) = some (.done index) := by
  cases a <;> cases ha <;> rfl

theorem keptTurns_eq_take {turnId : Option String} {turns : List (Turn Empty)}
    (h : keptTurns s turnId = some turns) : turns = s.turns.take turns.length := by
  cases turnId with
  | none =>
    cases h
    simp
  | some turnId =>
    simp only [keptTurns, Option.map_eq_some_iff] at h
    obtain ⟨index, -, rfl⟩ := h
    rw [List.length_take, List.take_eq_take_iff]
    omega

/-- The turn at a reference is at the followed reference, its parts edited as the active turn's are
and as the end of a turn edits them. -/
theorem turnAt_follow_of {R : ResponsePart Empty → ResponsePart Empty → Prop} (hrefl : ∀ part, R part part)
    (hfinal : ∀ part, R part (finalPart part)) {v : String × List (ResponsePart Empty)}
    (h : chatReducer legacyParse s a = some s')
    (hedit : (∀ x, a ≠ .turnStarted x) → ∀ turn turn', s.activeTurn = some turn →
      s'.activeTurn = some turn' → Grows R turn.responseParts turn'.responseParts)
    (hf : follow s a r = some r') (hv : turnAt s r = some v) :
    ∃ v', turnAt s' r' = some v' ∧ v'.1 = v.1 ∧ Grows R v.2 v'.2 := by
  cases chatReducer_effect h with
  | within hactive hturns hfollow _ =>
    have hstarted : ∀ x, a ≠ .turnStarted x := by
      rintro x rfl
      cases hfollow .active
    rw [hfollow r, Option.some_inj] at hf
    subst hf
    cases r with
    | done index => exact turnAt_done_of_eq hrefl hv (by rw [hturns])
    | active =>
      obtain ⟨turn, hturn, rfl⟩ := turnAt_active.mp hv
      rw [hturn] at hactive
      obtain ⟨turn', hturn', hid, -⟩ := hactive.grows
      exact ⟨_, turnAt_active.mpr ⟨turn', hturn', rfl⟩, hid, hedit hstarted turn turn' hturn hturn'⟩
  | started x _ _ _ hturns _ =>
    cases r with
    | active => cases hf
    | done index =>
      cases hf
      exact turnAt_done_of_eq hrefl hv (by rw [hturns])
  | ended e ha hturn _ hturns _ =>
    cases r with
    | active =>
      rw [follow_ended_active ha hturn, Option.some_inj] at hf
      subst hf
      obtain ⟨turn, hactive, rfl⟩ := turnAt_active.mp hv
      obtain rfl := Option.some.inj (hactive.symm.trans (activeTurnOf_eq_some.mp hturn).1)
      refine ⟨_, turnAt_done.mpr ⟨endedTurn turn e.turnState e.duration e.errorPart, ?_, rfl⟩, rfl,
        grows_endedTurn hfinal turn e.turnState e.duration e.errorPart⟩
      rw [hturns, List.getElem?_concat_length]
    | done index =>
      rw [follow_ended_done ha, Option.some_inj] at hf
      subst hf
      obtain ⟨turn, hindex, -⟩ := turnAt_done.mp hv
      have hlt := (List.getElem?_eq_some_iff.mp hindex).1
      exact turnAt_done_of_eq hrefl hv (by rw [hturns, List.getElem?_append_left hlt])
  | cut turnId hkept _ _ =>
    cases r with
    | active => simp [follow, hkept] at hf
    | done index =>
      simp only [follow, hkept] at hf
      split at hf
      · next hlt =>
        cases hf
        refine turnAt_done_of_eq hrefl hv ?_
        rw [keptTurns_eq_take hkept, List.getElem?_take_of_lt hlt]
      · cases hf
  | resumed turnId turn hresumes hturns hactive _ =>
    cases r with
    | active =>
      obtain ⟨turn, hturn, -⟩ := turnAt_active.mp hv
      rw [(resumes_eq_true.mp hresumes).1] at hturn
      cases hturn
    | done index =>
      obtain ⟨turn, hindex, rfl⟩ := turnAt_done.mp hv
      have hlt := (List.getElem?_eq_some_iff.mp hindex).1
      simp only [hturns, List.length_append, List.length_singleton] at hlt
      simp only [follow, hresumes, hturns, List.length_append, List.length_singleton, true_and,
        Option.some_inj] at hf
      rw [hturns] at hindex
      by_cases hlast : index + 1 = s'.turns.length + 1
      · rw [if_pos hlast] at hf
        subst hf
        have : index = s'.turns.length := by omega
        subst this
        simp only [List.getElem?_concat_length, Option.some_inj] at hindex
        subst hindex
        exact ⟨_, turnAt_active.mpr ⟨_, hactive, rfl⟩, rfl, .refl hrefl _⟩
      · rw [if_neg hlast] at hf
        subst hf
        rw [List.getElem?_append_left (by omega)] at hindex
        exact ⟨_, turnAt_done.mpr ⟨turn, hindex, rfl⟩, rfl, .refl hrefl _⟩
  | loaded x hactive hturns _ =>
    cases r with
    | active =>
      cases hf
      exact ⟨v, by rw [← hv]; simp only [turnAt, hactive], rfl, .refl hrefl _⟩
    | done index =>
      cases hf
      refine turnAt_done_of_eq hrefl hv ?_
      rw [hturns, List.getElem?_append_right (by omega), Nat.add_sub_cancel]

/-- The parts of an active turn that goes on are edited in place and extended. -/
theorem grows_active (h : chatReducer legacyParse s a = some s') (hstarted : ∀ x, a ≠ .turnStarted x)
    (turn turn' : ActiveTurn Empty) (hturn : s.activeTurn = some turn) (hturn' : s'.activeTurn = some turn') :
    Grows PartStep turn.responseParts turn'.responseParts := by
  cases chatReducer_effect h with
  | within hactive _ _ _ =>
    rw [hturn, hturn'] at hactive
    obtain ⟨_, heq, -, hgrows⟩ := hactive.grows
    cases heq
    exact hgrows
  | started x => exact absurd rfl (hstarted x)
  | ended _ _ _ hactive | cut _ _ hactive =>
    rw [hactive] at hturn'
    cases hturn'
  | resumed turnId _ hresumes =>
    rw [(resumes_eq_true.mp hresumes).1] at hturn
    cases hturn
  | loaded x hactive _ _ =>
    rw [hactive, hturn] at hturn'
    cases hturn'
    exact .refl .refl _

/-- **One action**: the turn at a reference is at the followed reference, grown. -/
theorem turnAt_follow {v : String × List (ResponsePart Empty)}
    (h : chatReducer legacyParse s a = some s') (hf : follow s a r = some r')
    (hv : turnAt s r = some v) : ∃ v', turnAt s' r' = some v' ∧ TurnStep v v' :=
  turnAt_follow_of PartStep.refl finalPart_step h (grows_active h) hf hv

/-- **Origin**: a turn of the state after an action was followed from the state before, or
it was started or loaded by the action. -/
theorem turnAt_origin {v' : String × List (ResponsePart Empty)}
    (h : chatReducer legacyParse s a = some s') (hv : turnAt s' r' = some v') :
    (∃ r v, turnAt s r = some v ∧ follow s a r = some r') ∨
      (∃ x, a = .turnStarted x ∧ r' = .active) ∨
      ∃ x index, a = .turnsLoaded x ∧ r' = .done index ∧ index < (olderTurns s x.turns).length := by
  cases chatReducer_effect h with
  | within hactive hturns hfollow _ =>
    refine .inl ⟨r', ?_⟩
    cases r' with
    | done index => exact ⟨v', by rw [← hv]; simp only [turnAt, hturns], hfollow _⟩
    | active =>
      obtain ⟨turn', hturn', -⟩ := turnAt_active.mp hv
      obtain ⟨turn, hturn⟩ := Option.isSome_iff_exists.mp (hactive.isSome_eq.symm.trans
        (by rw [hturn']; rfl))
      exact ⟨_, turnAt_active.mpr ⟨turn, hturn, rfl⟩, hfollow _⟩
  | started x _ _ _ hturns _ =>
    cases r' with
    | active => exact .inr (.inl ⟨x, rfl, rfl⟩)
    | done index => exact .inl ⟨.done index, v', by rw [← hv]; simp only [turnAt, hturns], rfl⟩
  | ended e ha hturn hactive hturns _ =>
    obtain ⟨hsome, -⟩ := activeTurnOf_eq_some.mp hturn
    cases r' with
    | active =>
      obtain ⟨_, hturn', -⟩ := turnAt_active.mp hv
      rw [hactive] at hturn'
      cases hturn'
    | done index =>
      obtain ⟨turn', hindex, -⟩ := turnAt_done.mp hv
      rw [hturns] at hindex
      by_cases hlt : index < s.turns.length
      · rw [List.getElem?_append_left hlt] at hindex
        exact .inl ⟨.done index, _, turnAt_done.mpr ⟨turn', hindex, rfl⟩, follow_ended_done ha index⟩
      · have hle := (List.getElem?_eq_some_iff.mp hindex).1
        simp only [List.length_append, List.length_singleton] at hle
        obtain rfl : index = s.turns.length := by omega
        exact .inl ⟨.active, _, turnAt_active.mpr ⟨_, hsome, rfl⟩, follow_ended_active ha hturn⟩
  | cut turnId hkept hactive _ =>
    cases r' with
    | active =>
      obtain ⟨_, hturn', -⟩ := turnAt_active.mp hv
      rw [hactive] at hturn'
      cases hturn'
    | done index =>
      obtain ⟨turn', hindex, -⟩ := turnAt_done.mp hv
      have hlt := (List.getElem?_eq_some_iff.mp hindex).1
      rw [keptTurns_eq_take hkept, List.getElem?_take_of_lt hlt] at hindex
      refine .inl ⟨.done index, _, turnAt_done.mpr ⟨turn', hindex, rfl⟩, ?_⟩
      simp only [follow, hkept, if_pos hlt]
  | resumed turnId turn hresumes hturns hactive _ =>
    have hlength : s.turns.length = s'.turns.length + 1 := by rw [hturns]; simp
    cases r' with
    | active =>
      refine .inl ⟨.done s'.turns.length, _, turnAt_done.mpr ⟨turn, ?_, rfl⟩, ?_⟩
      · rw [hturns, List.getElem?_concat_length]
      · simp only [follow, hresumes, hlength, and_self, if_true]
    | done index =>
      obtain ⟨turn', hindex, -⟩ := turnAt_done.mp hv
      have hlt := (List.getElem?_eq_some_iff.mp hindex).1
      refine .inl ⟨.done index, _, turnAt_done.mpr ⟨turn', ?_, rfl⟩, ?_⟩
      · rw [hturns, List.getElem?_append_left hlt, hindex]
      · have hne : index + 1 ≠ s'.turns.length + 1 := by omega
        simp only [follow, hresumes, hlength, hne, and_false, if_false]
  | loaded x hactive hturns _ =>
    cases r' with
    | active => exact .inl ⟨.active, v', by rw [← hv]; simp only [turnAt, hactive], rfl⟩
    | done index =>
      by_cases hlt : index < (olderTurns s x.turns).length
      · exact .inr (.inr ⟨x, index, rfl, rfl, hlt⟩)
      · obtain ⟨turn', hindex, -⟩ := turnAt_done.mp hv
        rw [hturns, List.getElem?_append_right (by omega)] at hindex
        refine .inl ⟨.done (index - (olderTurns s x.turns).length), _,
          turnAt_done.mpr ⟨turn', hindex, rfl⟩, ?_⟩
        simp only [follow, Option.some_inj, TurnRef.done.injEq]
        omega

/-! ### Runs -/

/-- What a turn is to a later version of it. -/
def TurnLater (v v' : String × List (ResponsePart Empty)) : Prop :=
  v'.1 = v.1 ∧ Grows PartLater v.2 v'.2

/-- **Runs**: the turn at a reference is at the reference followed along the run, grown. -/
theorem turnAt_followRun {as : List Action} {v : String × List (ResponsePart Empty)}
    (hr : runs (chatReducer legacyParse) s as = some s')
    (hf : followRun (chatReducer legacyParse) follow s as r = some r') (hv : turnAt s r = some v) :
    ∃ v', turnAt s' r' = some v' ∧ TurnLater v v' := by
  refine runs_tracked (chatReducer legacyParse) follow turnAt ?_ ?_ ?_ hr hf hv
  · exact fun v => ⟨rfl, .refl (fun _ => .refl) _⟩
  · intro u v w huv hvw
    exact ⟨hvw.1.trans huv.1, huv.2.trans Relation.ReflTransGen.trans hvw.2⟩
  · intro s a s' r r' v h hf hv
    obtain ⟨v', hv', hstep⟩ := turnAt_follow h hf hv
    exact ⟨v', hv', hstep.1, hstep.2.mono .single⟩

/-! ### The lifecycle of tool calls -/

/-- **Lifecycle**, for every action and every run from any state.

* An action moves the status of a tool call along an edge of the lifecycle or leaves it,
  and a call that completes in `auth-required` has failed.
* A run keeps every part of a turn at its index, with its kind and its id, wherever the
  turn is; a tool call keeps its names, and one that has completed or was cancelled is
  the same ever after.
* Following a turn loses none: what is in the state after an action was there before or
  is started or loaded by it. -/
theorem toolCalls_follow_lifecycle :
    (∀ s a s' r r' turnId parts, chatReducer legacyParse s a = some s' → follow s a r = some r' →
      turnAt s r = some (turnId, parts) → ∃ parts', turnAt s' r' = some (turnId, parts') ∧
        ∀ (i : ℕ) (tc : ToolCallState Empty), parts[i]? = some (.toolCall tc) →
          ∃ tc', parts'[i]? = some (.toolCall tc') ∧
            (tc'.status = tc.status ∨ tc'.status ∈ tc.status.next) ∧
            (tc.status = .authRequired → ∀ c, tc' = .completed c → c.success = false)) ∧
    (∀ s as s' r r' turnId parts, runs (chatReducer legacyParse) s as = some s' →
      followRun (chatReducer legacyParse) follow s as r = some r' →
      turnAt s r = some (turnId, parts) → ∃ parts', turnAt s' r' = some (turnId, parts') ∧
        (∀ (i : ℕ) (part : ResponsePart Empty), parts[i]? = some part →
          ∃ part', parts'[i]? = some part' ∧ partKind part' = partKind part ∧
            partId part' = partId part) ∧
        ∀ (i : ℕ) (tc : ToolCallState Empty), parts[i]? = some (.toolCall tc) →
          ∃ tc', parts'[i]? = some (.toolCall tc') ∧
            (tcBase tc').toolCallId = (tcBase tc).toolCallId ∧
            (tcBase tc').toolName = (tcBase tc).toolName ∧
            (tcBase tc').displayName = (tcBase tc).displayName ∧
            (tc.status.Terminal → tc' = tc)) ∧
    ∀ s a s' r' v', chatReducer legacyParse s a = some s' → turnAt s' r' = some v' →
      (∃ r v, turnAt s r = some v ∧ follow s a r = some r') ∨
        (∃ x, a = .turnStarted x ∧ r' = .active) ∨
        ∃ x index, a = .turnsLoaded x ∧ r' = .done index ∧
          index < (olderTurns s x.turns).length := by
  refine ⟨?_, ?_, fun s a s' r' v' => turnAt_origin⟩
  · intro s a s' r r' turnId parts h hf hv
    obtain ⟨⟨turnId', parts'⟩, hv', rfl, hgrows⟩ := turnAt_follow h hf hv
    refine ⟨parts', hv', fun i tc htc => ?_⟩
    obtain ⟨part', hpart', hstep⟩ := hgrows i _ htc
    cases hstep with
    | refl => exact ⟨tc, hpart', .inl rfl, fun hs c hc => (ToolCallStep.refl tc).failed c hs hc⟩
    | toolCall hstep => exact ⟨_, hpart', hstep.status, fun hs c hc => hstep.failed c hs hc⟩
  · intro s as s' r r' turnId parts hr hf hv
    obtain ⟨⟨turnId', parts'⟩, hv', rfl, hgrows⟩ := turnAt_followRun hr hf hv
    refine ⟨parts', hv', fun i part hpart => ?_, fun i tc htc => ?_⟩
    · obtain ⟨part', hpart', hlater⟩ := hgrows i part hpart
      exact ⟨part', hpart', hlater.same⟩
    · obtain ⟨part', hpart', hlater⟩ := hgrows i _ htc
      obtain ⟨tc', rfl, hcall⟩ := PartLater.toolCall hlater
      exact ⟨tc', hpart', hcall.toolCallId, hcall.toolName, hcall.displayName, hcall.eq_of_terminal⟩

/-- A call that is confirmed and then cancelled with its turn. -/
theorem toolCalls_follow_lifecycle_cancelled : ∃ s' parts' tc',
    runs (chatReducer fun _ => none)
      (toolCallStart (turnStarted (ChatState.new "ahp-chat:/c" "Chat" "2025-03-10T18:00:00.000Z")
        ⟨"t1", "2025-03-10T18:42:03.000Z", ⟨"hello"⟩, none⟩)
        ⟨⟨"t1", "c1", none⟩, "bash", "Bash", none, none⟩)
      [.toolCallReady ⟨⟨"t1", "c1", none⟩, none, none, .plain "Run", none, none, none, none, none,
        some .notNeeded, none⟩, .turnCancelled ⟨"t1", 1000⟩] = some s' ∧
    turnAt s' (.done 0) = some ("t1", parts') ∧ parts'[0]? = some (.toolCall tc') ∧
    (tcBase tc').toolName = "bash" := by
  obtain ⟨parts', hparts, -, hcalls⟩ := (@toolCalls_follow_lifecycle fun _ => none).2.1
    (toolCallStart (turnStarted (ChatState.new "ahp-chat:/c" "Chat" "2025-03-10T18:00:00.000Z")
      ⟨"t1", "2025-03-10T18:42:03.000Z", ⟨"hello"⟩, none⟩)
      ⟨⟨"t1", "c1", none⟩, "bash", "Bash", none, none⟩)
    [.toolCallReady ⟨⟨"t1", "c1", none⟩, none, none, .plain "Run", none, none, none, none, none,
      some .notNeeded, none⟩, .turnCancelled ⟨"t1", 1000⟩] _ .active (.done 0) "t1" _ rfl rfl rfl
  obtain ⟨tc', htc, -, hname, -⟩ := hcalls 0 _ rfl
  exact ⟨_, parts', tc', rfl, hparts, htc, hname⟩

end AgentHostProtocol.Chat
