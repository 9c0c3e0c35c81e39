import AgentHostProtocol.Chat.Ownership

/-!
# The history of a chat

The completed turns of a chat change only at their ends: `TurnsStep` lists the ways.

**What is proved**: every action is one of them and alters no entry in place, and the
completed turns of a chat hold only calls that have completed or were cancelled, along
any run whose loaded turns do (`history_conserved`). The ids of all turns, the active one
among them, stay distinct along a run whose loaded pages leave out the active turn, and a
page that holds it makes two turns of one id (`turnIds_nodup_of_runs`).
-/

namespace AgentHostProtocol.Chat

open Library

variable {legacyParse : String → Option ℤ} {s s' : ChatState Empty} {a : Action}

/-! ### How the turns change -/

/-- What becomes of a part when its turn ends. -/
inductive EndedPart : ResponsePart Empty → ResponsePart Empty → Prop
  | other {part : ResponsePart Empty} (h : partKind part ≠ .toolCall) : EndedPart part part
  | finished {tc : ToolCallState Empty} (h : tc.status.Terminal) :
    EndedPart (.toolCall tc) (.toolCall tc)
  | skipped {tc : ToolCallState Empty} (h : ¬ tc.status.Terminal)
    {c : ToolCallCancelledState Empty} (hreason : c.reason = .skipped)
    (hid : c.toolCallId = (tcBase tc).toolCallId) :
    EndedPart (.toolCall tc) (.toolCall (.cancelled c))

theorem finalPart_ended (part : ResponsePart Empty) : EndedPart part (finalPart part) := by
  cases part with
  | toolCall tc =>
    cases tc with
    | completed tc => exact .finished (.inl rfl)
    | cancelled tc => exact .finished (.inr rfl)
    | unknown raw => exact raw.elim
    | _ => exact .skipped (by simp [ToolCallState.status, ToolCallStatus.Terminal]) rfl rfl
  | unknown raw => exact raw.elim
  | _ => exact .other (by simp [partKind])

/-- How an action changes the completed turns. -/
inductive TurnsStep (s : ChatState Empty) (a : Action) (s' : ChatState Empty) : Prop
  | same (h : s'.turns = s.turns)
  /-- The active turn ends and comes last. -/
  | appended {e : Ending} (ha : ending? a = some e) {turn : ActiveTurn Empty} {ended : Turn Empty}
    {parts : List (ResponsePart Empty)} (hactive : s.activeTurn = some turn)
    (hturns : s'.turns = s.turns ++ [ended]) (hid : ended.id = turn.id)
    (hmessage : ended.message = turn.message) (husage : ended.usage = turn.usage)
    (hstate : ended.state = e.turnState)
    (hparts : ended.responseParts = parts ++ (e.errorPart.map ResponsePart.error).toList)
    (hsame : List.Forall₂ EndedPart turn.responseParts parts)
  /-- A suffix is cut off. -/
  | cut {turnId : Option String} (ha : a = .truncated turnId) (h : s'.turns <+: s.turns)
  /-- The last turn, with a resumable error, becomes active again. -/
  | removed {turnId : String} (ha : a = .turnResume turnId) {turn : Turn Empty}
    {active : ActiveTurn Empty} (hturns : s.turns = s'.turns ++ [turn]) (hstate : turn.state = .error)
    (herror : hasResumableError turn = true) (hactive : s'.activeTurn = some active)
    (hid : active.id = turn.id) (hmessage : active.message = turn.message)
    (hparts : active.responseParts = turn.responseParts) (husage : active.usage = turn.usage)
  /-- Turns that were not there come first. -/
  | prepended {x : ChatTurnsLoadedAction Empty} (ha : a = .turnsLoaded x)
    {older : List (Turn Empty)} (hturns : s'.turns = older ++ s.turns) (hloaded : older.Sublist x.turns)
    (hnew : ∀ turn ∈ older, ∀ turn' ∈ s.turns, turn.id ≠ turn'.id)

theorem olderTurns_new {page : List (Turn Empty)} {turn : Turn Empty}
    (h : turn ∈ olderTurns s page) : ∀ turn' ∈ s.turns, turn.id ≠ turn'.id := by
  intro turn' hturn' heq
  have hnot := (List.mem_filter.mp h).2
  rw [decide_eq_true_eq] at hnot
  exact hnot (heq ▸ List.mem_map_of_mem hturn')

theorem turnsStep (h : chatReducer legacyParse s a = some s') : TurnsStep s a s' := by
  cases chatReducer_effect h with
  | within _ hturns _ _ => exact .same hturns
  | started x _ _ _ hturns _ => exact .same hturns
  | ended e ha hturn _ hturns _ =>
    exact .appended ha (activeTurnOf_eq_some.mp hturn).1 hturns rfl rfl rfl rfl rfl
      (forall₂_map finalPart_ended)
  | cut turnId hkept _ _ =>
    refine .cut rfl ?_
    rw [keptTurns_eq_take hkept]
    exact List.take_prefix _ _
  | resumed turnId turn hresumes hturns hactive _ =>
    obtain ⟨-, last, hlast, -, hstate, herror⟩ := resumes_eq_true.mp hresumes
    rw [hturns, List.getLast?_concat] at hlast
    cases hlast
    exact .removed rfl hturns hstate herror hactive rfl rfl rfl rfl
  | loaded x _ hturns _ =>
    exact .prepended rfl hturns List.filter_sublist fun turn hturn => olderTurns_new hturn

/-- An entry that stays among the completed turns is the same. -/
theorem turns_unaltered {i j : ℕ} {turn : Turn Empty} (h : chatReducer legacyParse s a = some s')
    (hturn : s.turns[i]? = some turn) (hf : follow s a (.done i) = some (.done j)) :
    s'.turns[j]? = some turn := by
  have hlt := (List.getElem?_eq_some_iff.mp hturn).1
  cases chatReducer_effect h with
  | within _ hturns hfollow _ =>
    rw [hfollow, Option.some_inj] at hf
    cases hf
    rw [hturns, hturn]
  | started x _ _ _ hturns _ =>
    cases hf
    rw [hturns, hturn]
  | ended e ha _ _ hturns _ =>
    rw [follow_ended_done ha, Option.some_inj] at hf
    cases hf
    rw [hturns, List.getElem?_append_left hlt, hturn]
  | cut turnId hkept _ _ =>
    simp only [follow, hkept] at hf
    split at hf
    · next hi =>
      cases hf
      rw [keptTurns_eq_take hkept, List.getElem?_take_of_lt hi, hturn]
    · cases hf
  | resumed turnId last hresumes hturns _ _ =>
    have hlength : s.turns.length = s'.turns.length + 1 := by rw [hturns]; simp
    simp only [follow, hresumes, hlength, true_and, Option.some_inj] at hf
    split at hf
    · cases hf
    · cases hf
      rw [hturns, List.getElem?_append_left (by omega)] at hturn
      exact hturn
  | loaded x _ hturns _ =>
    cases hf
    rw [hturns, List.getElem?_append_right (by omega), Nat.add_sub_cancel, hturn]

/-! ### What the completed turns hold -/

/-- The completed turns hold only tool calls that have completed or were cancelled. -/
def HistoryFinished (turns : List (Turn Empty)) : Prop :=
  ∀ turn ∈ turns, CallsIn (fun tc => tc.status.Terminal) turn.responseParts

/-- The end of a turn finishes its calls. -/
theorem callsIn_terminal_of_endedPart {parts parts' : List (ResponsePart Empty)}
    (h : List.Forall₂ EndedPart parts parts') : CallsIn (fun tc => tc.status.Terminal) parts' := by
  induction h with
  | nil =>
    intro tc htc
    cases htc
  | cons hpart _ ih =>
    intro tc htc
    rcases List.mem_cons.mp htc with heq | htc
    · cases hpart with
      | other hkind => exact absurd (by rw [← heq]; rfl) hkind
      | finished hterminal =>
        cases heq
        exact hterminal
      | skipped _ _ _ =>
        cases heq
        exact .inr rfl
    · exact ih tc htc

theorem HistoryFinished.step (hs : HistoryFinished s.turns)
    (hload : ∀ x, a = .turnsLoaded x → HistoryFinished x.turns)
    (h : chatReducer legacyParse s a = some s') : HistoryFinished s'.turns := by
  intro turn hmem
  cases turnsStep h with
  | same hturns => exact hs turn (hturns ▸ hmem)
  | appended _ _ hturns _ _ _ _ hparts hsame =>
    rw [hturns] at hmem
    rcases List.mem_append.mp hmem with hmem | hmem
    · exact hs turn hmem
    · rw [List.mem_singleton.mp hmem, hparts]
      intro tc htc
      rcases List.mem_append.mp htc with htc | htc
      · exact callsIn_terminal_of_endedPart hsame tc htc
      · simp at htc
  | cut _ hcut => exact hs turn (hcut.subset hmem)
  | removed _ hturns _ _ _ _ _ _ _ => exact hs turn (by rw [hturns]; simp [hmem])
  | prepended ha hturns hloaded _ =>
    rw [hturns] at hmem
    rcases List.mem_append.mp hmem with hmem | hmem
    · exact hload _ ha turn (hloaded.subset hmem)
    · exact hs turn hmem

/-- **History**: along any run whose loaded turns are finished the completed turns are;
every action changes the completed turns only at their ends; and an entry that stays
among them is not altered. -/
theorem history_conserved :
    (∀ s as s', HistoryFinished s.turns →
      (∀ a ∈ as, ∀ x, a = .turnsLoaded x → HistoryFinished x.turns) →
      runs (chatReducer legacyParse) s as = some s' → HistoryFinished s'.turns) ∧
    (∀ s a s', chatReducer legacyParse s a = some s' → TurnsStep s a s') ∧
    ∀ s a s' (i j : ℕ) (turn : Turn Empty), chatReducer legacyParse s a = some s' →
      s.turns[i]? = some turn → follow s a (.done i) = some (.done j) → s'.turns[j]? = some turn := by
  refine ⟨fun s as s' hs ha hr => ?_, fun s a s' => turnsStep, fun s a s' i j turn => turns_unaltered⟩
  have hstep : ∀ {s a s'}, HistoryFinished s.turns →
      (∀ x, a = .turnsLoaded x → HistoryFinished x.turns) →
      chatReducer legacyParse s a = some s' → HistoryFinished s'.turns :=
    fun hs hload h => hs.step hload h
  exact runs_invariant (chatReducer legacyParse) hstep hs
    (guarded_of_forall (chatReducer legacyParse) ha s) hr

/-- A turn that completes while its call still streams. -/
theorem history_conserved_streaming : ∃ s', runs (chatReducer fun _ => none)
    (ChatState.new "ahp-chat:/c" "Chat" "2025-03-10T18:00:00.000Z")
    [.turnStarted ⟨"t1", "2025-03-10T18:42:03.000Z", ⟨"hello"⟩, none⟩,
      .toolCallStart ⟨⟨"t1", "c1", none⟩, "bash", "Bash", none, none⟩,
      .turnComplete ⟨"t1", 1000⟩] = some s' ∧ s'.turns ≠ [] ∧ HistoryFinished s'.turns := by
  refine ⟨_, rfl, nofun, (@history_conserved fun _ => none).1
    (ChatState.new "ahp-chat:/c" "Chat" "2025-03-10T18:00:00.000Z")
    [.turnStarted ⟨"t1", "2025-03-10T18:42:03.000Z", ⟨"hello"⟩, none⟩,
      .toolCallStart ⟨⟨"t1", "c1", none⟩, "bash", "Bash", none, none⟩,
      .turnComplete ⟨"t1", 1000⟩] _ nofun ?_ rfl⟩
  rintro a ha x rfl
  simp at ha

/-! ### The ids of the turns -/

/-- The ids of all turns, the active one last. -/
def turnIds (s : ChatState Empty) : List String :=
  s.turns.map (·.id) ++ (s.activeTurn.map (·.id)).toList

/-- An action starts a turn under an id of its own and loads a page of distinct turns. -/
def FreshIds (s : ChatState Empty) : Action → Prop
  | .turnStarted x => x.turnId ∉ turnIds s
  | .turnsLoaded x => (x.turns.map (·.id)).Nodup
  | _ => True

/-- Whether a page holds the turn that is active. -/
def loadsActive (s : ChatState Empty) : Action → Bool
  | .turnsLoaded x => s.activeTurn.any fun turn => x.turns.any fun t => t.id = turn.id
  | _ => false

theorem ActiveEdit.map_id {turn turn' : Option (ActiveTurn Empty)} (h : ActiveEdit a turn turn') :
    turn'.map (·.id) = turn.map (·.id) := by
  cases h with
  | same => rfl
  | edit h => rw [Option.map_some, Option.map_some, h.id]

/-- A page adds its new turns in front; with the active turn among them, its id is there
twice. -/
theorem nodup_turnIds_loaded_iff {x : ChatTurnsLoadedAction Empty} (hs : (turnIds s).Nodup)
    (hpage : (x.turns.map (·.id)).Nodup) (hactive : s'.activeTurn = s.activeTurn)
    (hturns : s'.turns = olderTurns s x.turns ++ s.turns) :
    (turnIds s').Nodup ↔ loadsActive s (.turnsLoaded x) = false := by
  have hids : turnIds s' = (olderTurns s x.turns).map (·.id) ++ turnIds s := by
    simp only [turnIds, hactive, hturns, List.map_append, List.append_assoc]
  have holder : ((olderTurns s x.turns).map (·.id)).Nodup :=
    hpage.sublist (List.filter_sublist.map _)
  rw [hids, List.nodup_append]
  constructor
  · rintro ⟨-, -, hdisjoint⟩
    by_contra hloads
    simp only [loadsActive, Bool.not_eq_false, Option.any_eq_true, List.any_eq_true,
      decide_eq_true_eq] at hloads
    obtain ⟨turn, hturn, t, ht, hid⟩ := hloads
    have hmem : turn.id ∈ turnIds s := by simp [turnIds, hturn]
    -- The active turn is not among the completed ones, so the page's filter lets it through.
    have hnot : t.id ∉ s.turns.map (·.id) := by
      intro hin
      rw [turnIds, List.nodup_append] at hs
      exact hs.2.2 _ hin turn.id (by simp [hturn]) hid
    have hkept : t ∈ olderTurns s x.turns := List.mem_filter.mpr ⟨ht, by simpa using hnot⟩
    exact hdisjoint t.id (List.mem_map_of_mem hkept) turn.id hmem hid
  · intro hloads
    refine ⟨holder, hs, ?_⟩
    rintro id hid id' hid' rfl
    obtain ⟨t, ht, rfl⟩ := List.mem_map.mp hid
    rcases List.mem_append.mp hid' with hdone | hactive
    · obtain ⟨t', ht', heq⟩ := List.mem_map.mp hdone
      exact olderTurns_new ht t' ht' heq.symm
    · rw [Option.mem_toList, Option.map_eq_some_iff] at hactive
      obtain ⟨turn, hturn, heq⟩ := hactive
      have : loadsActive s (.turnsLoaded x) = true := by
        simp only [loadsActive, Option.any_eq_true, List.any_eq_true, decide_eq_true_eq]
        exact ⟨turn, hturn, t, (List.mem_filter.mp ht).1, heq.symm⟩
      rw [hloads] at this
      cases this

/-- Any other action keeps the ids distinct: the ids are the same, fewer, or one new. -/
theorem nodup_turnIds_of_ne (hs : (turnIds s).Nodup) (hfresh : FreshIds s a)
    (hne : ∀ x, a ≠ .turnsLoaded x) (h : chatReducer legacyParse s a = some s') :
    (turnIds s').Nodup := by
  have hdone : (s.turns.map (·.id)).Nodup := (List.nodup_append.mp hs).1
  cases chatReducer_effect h with
  | within hactive hturns _ _ =>
    have hids : turnIds s' = turnIds s := by simp only [turnIds, hturns, hactive.map_id]
    rw [hids]
    exact hs
  | started x hactive hid _ hturns _ =>
    have hids : turnIds s' = s.turns.map (·.id) ++ [x.turnId] := by
      simp only [turnIds, hturns, hactive, Option.map_some, hid, Option.toList_some]
    rw [hids, List.nodup_append]
    refine ⟨hdone, List.nodup_singleton _, ?_⟩
    rintro id hid' id' hid'' rfl
    rw [List.mem_singleton] at hid''
    exact hfresh (List.mem_append_left _ (hid'' ▸ hid'))
  | ended e _ hturn hactive hturns _ =>
    have hids : turnIds s' = turnIds s := by
      simp [turnIds, hturns, hactive, (activeTurnOf_eq_some.mp hturn).1, endedTurn]
    rw [hids]
    exact hs
  | cut turnId hkept hactive _ =>
    have hids : turnIds s' = s'.turns.map (·.id) := by simp [turnIds, hactive]
    rw [hids, keptTurns_eq_take hkept]
    exact hdone.sublist ((List.take_sublist _ _).map _)
  | resumed turnId turn hresumes hturns hactive _ =>
    have hids : turnIds s' = turnIds s := by
      simp [turnIds, hturns, hactive, (resumes_eq_true.mp hresumes).1, resumedTurn]
    rw [hids]
    exact hs
  | loaded x _ _ _ => exact absurd rfl (hne x)

/-- An action keeps the ids distinct exactly when it does not load the active turn. -/
theorem nodup_turnIds_iff (hs : (turnIds s).Nodup) (hfresh : FreshIds s a)
    (h : chatReducer legacyParse s a = some s') : (turnIds s').Nodup ↔ loadsActive s a = false := by
  cases a with
  | turnsLoaded x =>
    cases h
    exact nodup_turnIds_loaded_iff hs hfresh rfl rfl
  | _ => exact ⟨fun _ => rfl, fun _ => nodup_turnIds_of_ne hs hfresh nofun h⟩

/-- **Turn ids**: in a run that starts turns under new ids and whose pages do not hold the
active turn the ids of the turns stay distinct, and the next action keeps them so exactly
if its page does not hold the active turn either. -/
theorem turnIds_nodup_of_runs {as : List Action} (hs : (turnIds s).Nodup)
    (hg : Guarded (chatReducer legacyParse) (fun s a => FreshIds s a ∧ loadsActive s a = false) s as)
    (hr : runs (chatReducer legacyParse) s as = some s') :
    (turnIds s').Nodup ∧ ∀ b s'', FreshIds s' b → chatReducer legacyParse s' b = some s'' →
      ((turnIds s'').Nodup ↔ loadsActive s' b = false) := by
  have hstep : ∀ {s a s'}, (turnIds s).Nodup → FreshIds s a ∧ loadsActive s a = false →
      chatReducer legacyParse s a = some s' → (turnIds s').Nodup :=
    fun hs hguard h => (nodup_turnIds_iff hs hguard.1 h).mpr hguard.2
  have hs' : (turnIds s').Nodup := runs_invariant (chatReducer legacyParse) hstep hs hg hr
  exact ⟨hs', fun b s'' hfresh h => nodup_turnIds_iff hs' hfresh h⟩

/-- A turn that failed and may be resumed. -/
def failedTurn : Turn Empty :=
  ⟨"t1", some "2025-03-10T18:42:03.000Z", some 1000, ⟨"hello"⟩, [.error ⟨⟨"boom"⟩, some true⟩], none,
    .error⟩

/-- Loading a failed turn and resuming it. -/
theorem turnIds_nodup_of_runs_resumed : ∃ s', runs (chatReducer fun _ => none)
    (ChatState.new "ahp-chat:/c" "Chat" "2025-03-10T18:00:00.000Z")
    [.turnsLoaded ⟨[failedTurn], none⟩, .turnResume "t1"] = some s' ∧ (turnIds s').Nodup := by
  have hg : Guarded (chatReducer fun _ => none) (fun s a => FreshIds s a ∧ loadsActive s a = false)
      (ChatState.new "ahp-chat:/c" "Chat" "2025-03-10T18:00:00.000Z")
      [.turnsLoaded ⟨[failedTurn], none⟩, .turnResume "t1"] := by
    refine ⟨⟨?_, rfl⟩, fun _ _ => ⟨⟨trivial, rfl⟩, fun _ _ => trivial⟩⟩
    exact List.nodup_singleton "t1"
  have hs : (turnIds (ChatState.new "ahp-chat:/c" "Chat" "2025-03-10T18:00:00.000Z")).Nodup :=
    List.nodup_nil
  exact ⟨_, rfl, (turnIds_nodup_of_runs hs hg rfl).1⟩

/-- A page loaded after the resumption still holds the turn: then its id is there twice. -/
theorem turnsLoaded_duplicates_resumed :
    (turnIds (ChatState.new "ahp-chat:/c" "Chat" "2025-03-10T18:00:00.000Z")).Nodup ∧
    Guarded (chatReducer fun _ => none) FreshIds
      (ChatState.new "ahp-chat:/c" "Chat" "2025-03-10T18:00:00.000Z")
      [.turnsLoaded ⟨[failedTurn], none⟩, .turnResume "t1", .turnsLoaded ⟨[failedTurn], none⟩] ∧
    ∃ s', runs (chatReducer fun _ => none)
      (ChatState.new "ahp-chat:/c" "Chat" "2025-03-10T18:00:00.000Z")
      [.turnsLoaded ⟨[failedTurn], none⟩, .turnResume "t1", .turnsLoaded ⟨[failedTurn], none⟩] =
        some s' ∧ turnIds s' = ["t1", "t1"] ∧ ¬ (turnIds s').Nodup := by
  refine ⟨List.nodup_nil, ?_, _, rfl, rfl, ?_⟩
  · exact ⟨List.nodup_singleton "t1", fun _ _ => ⟨trivial, fun _ _ =>
      ⟨List.nodup_singleton "t1", fun _ _ => trivial⟩⟩⟩
  · show ¬ ["t1", "t1"].Nodup
    decide

end AgentHostProtocol.Chat
