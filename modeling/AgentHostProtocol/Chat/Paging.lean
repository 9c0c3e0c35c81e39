import AgentHostProtocol.Chat.Tracking

/-!
# Paged history

A chat may hold only the end of its history: the rest is loaded in pages, while new turns start and
end. The history is a list of turns of distinct ids, and a page is a segment of it that overlaps the
loaded window or ends right before it (`Page`).

**What is proved** (`paged_history`): the loaded turns are always an end of the history, followed by
the new turns in the order in which they ended; and a page that comes a second time, however late,
changes the cursor only.
-/

namespace AgentHostProtocol.Chat

open Library

variable {legacyParse : String → Option ℤ} {s s' : ChatState Empty} {a : Action}
  {history segment ended : List (Turn Empty)}

/-- The loaded turns of the history. -/
def window (history : List (Turn Empty)) (state : ChatState Empty) : List (Turn Empty) :=
  state.turns.filter fun turn => turn.id ∈ history.map (·.id)

/-- A segment of the history that overlaps the loaded window or ends right before it. -/
def Page (history : List (Turn Empty)) (state : ChatState Empty) (page : List (Turn Empty)) : Prop :=
  ∃ before after, history = before ++ (page ++ after) ∧
    (after = window history state ∨ ∃ turn ∈ page, turn ∈ window history state)

/-- Pages are loaded and turns with fresh ids are started; nothing is truncated or resumed. -/
def Pages (history : List (Turn Empty)) (state : ChatState Empty) : Action → Prop
  | .turnsLoaded x => Page history state x.turns
  | .turnStarted x => x.turnId ∉ history.map (·.id)
  | .turnResume _ | .truncated _ => False
  | _ => True

/-- The record of the turn that an action ends. -/
def completedBy (state : ChatState Empty) (a : Action) : Option (Turn Empty) :=
  (ending? a).bind fun e => (activeTurnOf state e.turnId).map fun turn =>
    endedTurn turn e.turnState e.duration e.errorPart

/-- The turns that a run ends, in order. -/
def completed (legacyParse : String → Option ℤ) : ChatState Empty → List Action → List (Turn Empty)
  | _, [] => []
  | state, a :: actions =>
    (completedBy state a).toList ++
      match chatReducer legacyParse state a with
      | none => []
      | some next => completed legacyParse next actions

/-! ### One action -/

/-- The turns are an end of the history and the turns that have ended since; these and the active
turn are not of the history. -/
structure Loaded (history segment ended : List (Turn Empty)) (s : ChatState Empty) : Prop where
  suffix : segment <:+ history
  turns : s.turns = segment ++ ended
  fresh : ∀ turn ∈ ended, turn.id ∉ history.map (·.id)
  active : ∀ turn, s.activeTurn = some turn → turn.id ∉ history.map (·.id)

theorem Loaded.window_eq (h : Loaded history segment ended s) : window history s = segment := by
  have hsegment : (segment.filter fun turn => turn.id ∈ history.map (·.id)) = segment := by
    refine List.filter_eq_self.mpr fun turn hturn => ?_
    exact decide_eq_true (List.mem_map_of_mem (h.suffix.subset hturn))
  have hended : (ended.filter fun turn => turn.id ∈ history.map (·.id)) = [] := by
    refine List.filter_eq_nil_iff.mpr fun turn hturn => ?_
    simpa using h.fresh turn hturn
  rw [window, h.turns, List.filter_append, hsegment, hended, List.append_nil]

/-- What a page adds to the turns. -/
theorem Loaded.olderTurns (h : Loaded history segment ended s) (page : List (Turn Empty))
    (hpage : ∀ turn ∈ page, turn ∈ history) :
    olderTurns s page = page.filter fun turn => turn.id ∉ segment.map (·.id) := by
  refine List.filter_congr fun turn hturn => ?_
  have hid : turn.id ∉ ended.map (·.id) := by
    intro hmem
    obtain ⟨turn', hturn', heq⟩ := List.mem_map.mp hmem
    exact h.fresh turn' hturn' (heq ▸ List.mem_map_of_mem (hpage turn hturn))
  simp only [h.turns, List.map_append, List.mem_append, hid, or_false]

theorem Loaded.load (hdistinct : (history.map (·.id)).Nodup) (h : Loaded history segment ended s)
    {x : ChatTurnsLoadedAction Empty} (hpage : Page history s x.turns) :
    ∃ segment', Loaded history segment' ended (turnsLoaded s x) := by
  obtain ⟨before, after, hhistory, hmeets⟩ := hpage
  rw [h.window_eq] at hmeets
  have holder := h.olderTurns x.turns fun turn hturn => by
    rw [hhistory]
    exact List.mem_append_right _ (List.mem_append_left _ hturn)
  refine ⟨Chat.olderTurns s x.turns ++ segment, ?_, ?_, h.fresh, h.active⟩
  · rw [holder]
    exact filter_append_suffix hdistinct h.suffix hhistory hmeets
  · simp only [turnsLoaded, h.turns, List.append_assoc]

/-- An action that leaves the turns where they are ends none. -/
theorem completedBy_of_follow (hfollow : follow s a .active = some .active) : completedBy s a = none := by
  unfold completedBy
  cases ha : ending? a with
  | none => rfl
  | some e =>
    cases hturn : activeTurnOf s e.turnId with
    | none => simp [hturn]
    | some turn =>
      rw [follow_ended_active ha hturn] at hfollow
      cases hfollow

/-- **One action**: the loaded end of the history grows to the front, the ended turns to the back. -/
theorem loaded_step (hdistinct : (history.map (·.id)).Nodup) (hs : Loaded history segment ended s)
    (hp : Pages history s a) (h : chatReducer legacyParse s a = some s') :
    ∃ segment', Loaded history segment' (ended ++ (completedBy s a).toList) s' := by
  cases chatReducer_effect h with
  | within hactive hturns hfollow _ =>
    rw [completedBy_of_follow (hfollow .active), Option.toList_none, List.append_nil]
    refine ⟨segment, hs.suffix, hturns ▸ hs.turns, hs.fresh, fun turn' hturn' => ?_⟩
    obtain ⟨turn, hturn⟩ := Option.isSome_iff_exists.mp
      (hactive.isSome_eq.symm.trans (by rw [hturn']; rfl))
    rw [hturn] at hactive
    obtain ⟨_, heq, hid, -⟩ := hactive.grows
    rw [hturn'] at heq
    cases heq
    exact hid ▸ hs.active turn hturn
  | started x hactive hid _ hturns _ =>
    refine ⟨segment, hs.suffix, ?_, ?_, fun turn' hturn' => ?_⟩
    · simp [completedBy, ending?, hturns, hs.turns]
    · simpa [completedBy, ending?] using hs.fresh
    · rw [hactive] at hturn'
      cases hturn'
      exact hid ▸ hp
  | @ended _ e ha _ turn hturn hactive hturns _ =>
    have hcompleted : completedBy s a = some (endedTurn turn e.turnState e.duration e.errorPart) := by
      simp only [completedBy, ha, hturn, Option.bind_some, Option.map_some]
    rw [hcompleted]
    refine ⟨segment, hs.suffix, ?_, fun turn' hturn' => ?_, fun turn' hturn' => ?_⟩
    · rw [hturns, hs.turns, List.append_assoc]
      rfl
    · rcases List.mem_append.mp hturn' with hold | hnew
      · exact hs.fresh turn' hold
      · rw [List.mem_singleton.mp hnew]
        exact hs.active turn (activeTurnOf_eq_some.mp hturn).1
    · rw [hactive] at hturn'
      cases hturn'
  | cut turnId => exact hp.elim
  | resumed turnId => exact hp.elim
  | loaded x _ _ _ =>
    cases h
    obtain ⟨segment', hload⟩ := hs.load hdistinct hp
    exact ⟨segment', by simpa [completedBy, ending?] using hload⟩

/-! ### A page that comes again -/

/-- The turns of a page are all there. -/
def Holds (page : List (Turn Empty)) (s : ChatState Empty) : Prop :=
  ∀ turn ∈ page, turn.id ∈ s.turns.map (·.id)

theorem holds_turnsLoaded (x : ChatTurnsLoadedAction Empty) : Holds x.turns (turnsLoaded s x) := by
  intro turn hturn
  simp only [turnsLoaded, List.map_append, List.mem_append]
  by_cases hold : turn.id ∈ s.turns.map (·.id)
  · exact .inr hold
  · exact .inl (List.mem_map_of_mem (List.mem_filter.mpr ⟨hturn, by simpa using hold⟩))

theorem holds_step {page : List (Turn Empty)} (hs : Holds page s) (hp : Pages history s a)
    (h : chatReducer legacyParse s a = some s') : Holds page s' := by
  cases chatReducer_effect h with
  | within _ hturns _ _ | started x _ _ _ hturns _ =>
    unfold Holds
    rw [hturns]
    exact hs
  | ended e _ _ _ hturns _ =>
    intro turn hturn
    rw [hturns, List.map_append]
    exact List.mem_append_left _ (hs turn hturn)
  | cut turnId => exact hp.elim
  | resumed turnId => exact hp.elim
  | loaded x _ hturns _ =>
    intro turn hturn
    rw [hturns, List.map_append]
    exact List.mem_append_right _ (hs turn hturn)

theorem turnsLoaded_of_holds {page : List (Turn Empty)} (hs : Holds page s) (cursor : Option String) :
    turnsLoaded s ⟨page, cursor⟩ = { s with turnsNextCursor := cursor } := by
  have hnone : olderTurns s page = [] := by
    refine List.filter_eq_nil_iff.mpr fun turn hturn => ?_
    simpa using hs turn hturn
  simp only [turnsLoaded, hnone, List.nil_append]

/-! ### Along a run -/

theorem loaded_runs (hdistinct : (history.map (·.id)).Nodup) (hs : Loaded history segment ended s)
    {actions : List Action} (hguard : Guarded (chatReducer legacyParse) (Pages history) s actions)
    (hrun : runs (chatReducer legacyParse) s actions = some s') :
    ∃ segment', Loaded history segment' (ended ++ completed legacyParse s actions) s' := by
  induction actions generalizing s segment ended with
  | nil =>
    cases hrun
    exact ⟨segment, by simpa [completed] using hs⟩
  | cons a actions ih =>
    obtain ⟨u, hu, hrun⟩ := (runs_cons_eq_some _).mp hrun
    obtain ⟨segment', hstep⟩ := loaded_step hdistinct hs hguard.1 hu
    obtain ⟨segment'', hrest⟩ := ih hstep (hguard.2 u hu) hrun
    exact ⟨segment'', by simpa [completed, hu] using hrest⟩

theorem holds_runs {x : ChatTurnsLoadedAction Empty} {actions : List Action} (hx : .turnsLoaded x ∈ actions)
    (hguard : Guarded (chatReducer legacyParse) (Pages history) s actions)
    (hrun : runs (chatReducer legacyParse) s actions = some s') : Holds x.turns s' := by
  obtain ⟨before, after, rfl⟩ := List.append_of_mem hx
  obtain ⟨u, hu, hrun⟩ := (runs_append_eq_some _).mp hrun
  have hrest := hguard.append.2 u hu
  obtain ⟨w, hw, hrun⟩ := (runs_cons_eq_some _).mp hrun
  cases hw
  exact runs_invariant (chatReducer legacyParse) (fun hs hp h => holds_step hs hp h)
    (holds_turnsLoaded x) (hrest.2 _ rfl) hrun

/-- **Paged history**: while pages of the history are loaded and turns with fresh ids start and end,
the turns are an end of the history followed by the turns that have ended, in order; and a page that
was loaded changes the cursor only when it comes again. -/
theorem paged_history (legacyParse : String → Option ℤ) (hdistinct : (history.map (·.id)).Nodup)
    (hsuffix : s.turns <:+ history)
    (hactive : ∀ turn, s.activeTurn = some turn → turn.id ∉ history.map (·.id))
    (actions : List Action) (hguard : Guarded (chatReducer legacyParse) (Pages history) s actions)
    (hrun : runs (chatReducer legacyParse) s actions = some s') :
    (∃ segment, segment <:+ history ∧ s'.turns = segment ++ completed legacyParse s actions) ∧
      ∀ x, .turnsLoaded x ∈ actions → ∀ cursor,
        chatReducer legacyParse s' (.turnsLoaded ⟨x.turns, cursor⟩) =
          some { s' with turnsNextCursor := cursor } := by
  have hloaded : Loaded history s.turns [] s :=
    ⟨hsuffix, (List.append_nil _).symm, fun _ h => (by cases h), hactive⟩
  obtain ⟨segment, hend⟩ := loaded_runs hdistinct hloaded hguard hrun
  refine ⟨⟨segment, hend.suffix, hend.turns⟩, fun x hx cursor => ?_⟩
  exact congrArg some (turnsLoaded_of_holds (holds_runs hx hguard hrun) cursor)

/-- A completed turn with no contents. -/
def pastTurn (id : String) : Turn Empty :=
  ⟨id, some "2025-03-10T18:00:00.000Z", some 1000, ⟨"hello"⟩, [], none, .complete⟩

/-- A chat that has loaded the second turn of its history. -/
def reopened : ChatState Empty :=
  turnsLoaded (ChatState.new "ahp-chat:/c" "Chat" "2025-03-10T18:00:00.000Z") ⟨[pastTurn "2"], some "1"⟩

/-- The whole history is loaded while a third turn is running. -/
theorem paged_history_reopened :
    ∃ s', runs (chatReducer fun _ => none) reopened
      [.turnStarted ⟨"3", "2025-03-10T18:42:03.000Z", ⟨"hello"⟩, none⟩,
        .turnsLoaded ⟨[pastTurn "1", pastTurn "2"], none⟩, .turnComplete ⟨"3", 1000⟩] = some s' ∧
      ∃ segment, segment <:+ [pastTurn "1", pastTurn "2"] ∧ ∃ turn, s'.turns = segment ++ [turn] := by
  have hdistinct : ([pastTurn "1", pastTurn "2"].map (·.id)).Nodup := by decide
  have hguard : Guarded (chatReducer fun _ => none) (Pages [pastTurn "1", pastTurn "2"]) reopened
      [.turnStarted ⟨"3", "2025-03-10T18:42:03.000Z", ⟨"hello"⟩, none⟩,
        .turnsLoaded ⟨[pastTurn "1", pastTurn "2"], none⟩, .turnComplete ⟨"3", 1000⟩] := by
    refine ⟨?_, ?_⟩
    · show "3" ∉ ["1", "2"]
      decide
    · intro u hu
      cases hu
      refine ⟨⟨[], [], rfl, .inr ⟨pastTurn "2", by simp, ?_⟩⟩, fun _ _ => ⟨trivial, fun _ _ => trivial⟩⟩
      decide
  obtain ⟨⟨segment, hsegment, hturns⟩, -⟩ := paged_history (fun _ => none) hdistinct
    (s := reopened) (by decide) (fun _ h => by cases h) _ hguard rfl
  exact ⟨_, rfl, segment, hsegment, _, hturns⟩

end AgentHostProtocol.Chat
