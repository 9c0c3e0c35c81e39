import AgentHostProtocol.Chat.Steps

/-!
# The status along a run

**What is proved**: an action keeps the agreement of a chat's activity bits with its
contents exactly when it does not raise (`statusAgrees_iff_not_raises`), so a run
without such an action ends in agreement (`statusAgrees_of_runs`). An action raises
when `chat/responsePart` brings a blocking part into an active turn that had none: it
appends the part and leaves the status as it was.
-/

namespace AgentHostProtocol.Chat

open Library SessionStatus

variable {legacyParse : String → Option ℤ} {s s' : ChatState Empty} {a : Action}

/-- With an active turn, agreement is a derived activity. -/
theorem statusAgrees_some_iff {turn : ActiveTurn Empty} (h : s.activeTurn = some turn) :
    StatusAgrees s ↔ s.status.activity = liveActivity (some turn) := by
  unfold StatusAgrees
  rw [h]

/-- Agreement looks at the activity, at whether there is an active turn and at what its
parts call for. -/
theorem StatusAgrees.congr (hs : StatusAgrees s) (hstatus : s'.status.activity = s.status.activity)
    (hsome : s'.activeTurn.isSome = s.activeTurn.isSome)
    (hlive : liveActivity s'.activeTurn = liveActivity s.activeTurn) : StatusAgrees s' := by
  unfold StatusAgrees at hs ⊢
  cases h : s.activeTurn with
  | none =>
    have h' : s'.activeTurn = none := by simpa [h] using hsome
    rw [h] at hs
    rw [h', hstatus]
    exact hs
  | some turn =>
    obtain ⟨turn', h'⟩ := Option.isSome_iff_exists.mp (by rw [hsome, h]; rfl)
    rw [h] at hs hlive
    rw [h'] at hlive ⊢
    show s'.status.activity = _
    rw [hlive, hstatus]
    exact hs

/-- An action that does not raise keeps the agreement. -/
theorem StatusAgrees.step (hs : StatusAgrees s) (hraises : raises s a = false)
    (h : chatReducer legacyParse s a = some s') : StatusAgrees s' := by
  cases chatReducer_effect h with
  | within hactive _ _ hstatus =>
    rcases hstatus with hderived | ⟨hkept, hr | hlive⟩
    · exact statusAgrees_of_derived hderived
    · rw [hraises] at hr
      cases hr
    · exact hs.congr hkept hactive.isSome_eq hlive
  | started x _ _ _ _ hstatus => exact statusAgrees_of_derived hstatus
  | ended e _ _ hactive _ hstatus =>
    unfold StatusAgrees
    rw [hactive]
    by_cases herror : e.turnState = .error
    · exact .inr (by rw [hstatus, if_pos herror])
    · exact .inl (by rw [hstatus, if_neg herror])
  | cut turnId _ _ hstatus => exact statusAgrees_of_derived hstatus
  | resumed turnId _ _ _ _ hstatus => exact statusAgrees_of_derived hstatus
  | loaded x hactive _ hstatus => exact hs.congr hstatus (by rw [hactive]) (by rw [hactive])

/-- An action that raises breaks it: the new part calls for input, the status still
tells of progress. -/
theorem StatusAgrees.not_of_raises (hs : StatusAgrees s) (hraises : raises s a = true)
    (h : chatReducer legacyParse s a = some s') : ¬ StatusAgrees s' := by
  cases a with
  | responsePart x =>
    simp only [raises, Bool.and_eq_true, Option.any_eq_true] at hraises
    obtain ⟨hpart, turn, hturn, hnone⟩ := hraises
    rw [Bool.not_eq_true'] at hnone
    have hactive := (activeTurnOf_eq_some.mp hturn).1
    have hs' : s' = withResponseParts s turn (turn.responseParts ++ [x.part]) := by
      simp only [chatReducer, Option.some.injEq] at h
      rw [← h]
      unfold responsePart
      split
      · next part hx =>
        rw [hx] at hpart
        cases hpart
      · rw [appendPart, hturn]
    have hkept : s'.status.activity = inProgress := by
      rw [hs']
      show s.status.activity = inProgress
      rw [(statusAgrees_some_iff hactive).mp hs]
      simp [liveActivity, hnone]
    have hactive' : s'.activeTurn =
        some { turn with responseParts := turn.responseParts ++ [x.part] } := by
      rw [hs']
      rfl
    intro hs''
    rw [statusAgrees_some_iff hactive', hkept] at hs''
    simp only [liveActivity, List.any_append, List.any_cons, hpart, Bool.true_or, Bool.or_true,
      if_true] at hs''
    exact absurd hs'' (by decide)
  | _ => cases hraises

/-- From agreement, a step leads to agreement exactly when it does not raise. -/
theorem statusAgrees_iff_not_raises (hs : StatusAgrees s) (h : chatReducer legacyParse s a = some s') :
    StatusAgrees s' ↔ raises s a = false := by
  constructor
  · intro hs'
    by_contra hraises
    exact hs.not_of_raises (by simpa using hraises) h hs'
  · intro hraises
    exact hs.step hraises h

/-- **Status agreement**: a run whose actions do not raise ends in agreement, and the
next action keeps it exactly if it does not raise either. -/
theorem statusAgrees_of_runs {as : List Action} (hs : StatusAgrees s)
    (hg : Guarded (chatReducer legacyParse) (fun s a => raises s a = false) s as)
    (hr : runs (chatReducer legacyParse) s as = some s') :
    StatusAgrees s' ∧ ∀ b s'', chatReducer legacyParse s' b = some s'' →
      (StatusAgrees s'' ↔ raises s' b = false) := by
  have hs' : StatusAgrees s' :=
    runs_invariant (chatReducer legacyParse) (fun hs hraises h => hs.step hraises h) hs hg hr
  exact ⟨hs', fun b s'' h => statusAgrees_iff_not_raises hs' h⟩

/-- A turn with a text part. -/
theorem statusAgrees_of_runs_text : ∃ s', runs (chatReducer fun _ => none)
    (ChatState.new "ahp-chat:/c" "Chat" "2025-03-10T18:00:00.000Z")
    [.turnStarted ⟨"t1", "2025-03-10T18:42:03.000Z", ⟨"hello"⟩, none⟩,
      .responsePart ⟨"t1", .markdown ⟨"m1", "hi"⟩⟩] = some s' ∧ StatusAgrees s' := by
  have hg : Guarded (chatReducer fun _ => none) (fun s a => raises s a = false)
      (ChatState.new "ahp-chat:/c" "Chat" "2025-03-10T18:00:00.000Z")
      [.turnStarted ⟨"t1", "2025-03-10T18:42:03.000Z", ⟨"hello"⟩, none⟩,
        .responsePart ⟨"t1", .markdown ⟨"m1", "hi"⟩⟩] := by
    refine ⟨rfl, fun s' h => ⟨?_, fun _ _ => trivial⟩⟩
    cases h
    rfl
  exact ⟨_, rfl, (statusAgrees_of_runs (statusAgrees_new _ _ _) hg rfl).1⟩

/-- An open input request that comes as a response part leaves the chat in progress. -/
theorem responsePart_breaks_statusAgrees :
    StatusAgrees (ChatState.new "ahp-chat:/c" "Chat" "2025-03-10T18:00:00.000Z" : ChatState Empty) ∧
    ∃ s', runs (chatReducer fun _ => none)
      (ChatState.new "ahp-chat:/c" "Chat" "2025-03-10T18:00:00.000Z")
      [.turnStarted ⟨"t1", "2025-03-10T18:42:03.000Z", ⟨"hello"⟩, none⟩,
        .responsePart ⟨"t1", .inputRequest ⟨⟨"q1", none, none, none, none⟩, none⟩⟩] = some s' ∧
      s'.status.activity = inProgress ∧ ¬ StatusAgrees s' := by
  refine ⟨statusAgrees_new _ _ _, _, rfl, rfl, ?_⟩
  show ¬ inProgress = inputNeeded
  decide

end AgentHostProtocol.Chat
