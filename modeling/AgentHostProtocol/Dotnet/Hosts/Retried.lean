import AgentHostProtocol.Dotnet.Hosts.Supervisor

/-!
# Retries of the .NET supervisor

**What is proved** (`retries_kept`): in every run whose steps are `Sound`, every attempt takes up a
`ReconnectAsync` or follows the wait of an enabled policy for the current retry count; no more than
`MaxAttempts` of the latter are made before the host is connected or gives up; and a `ReconnectAsync`
issued while the host is backing off or published as failed is followed by an attempt at once.

A step is not sound when the source loses track of why it is there: an attempt that is cancelled by
nobody counts as one that a `ReconnectAsync` aborted; a failed attempt of a disabled policy is
retried, as one is at the largest cap, where the counter wraps around; and a signal sent during a
backoff, or between the publication of `Failed` and the drain of the park, is dropped.
-/

namespace AgentHostProtocol.Dotnet.Hosts.Supervisor

open Library ReconnectPolicy

variable {F : Type} [Double F] {p : ReconnectPolicy F}

/-! ### What is said of a history -/

/-- The attempts that failed since the host was last connected or gave up. -/
def failures : List Event → ℕ
  | .failed :: history => failures history + 1
  | .dropped :: history | .manualReconnect :: history | .backedOff _ :: history
  | .attempted :: history => failures history
  | [] | .connected :: _ | .gaveUp :: _ => 0

/-- What admits an attempt: a `ReconnectAsync` is taken up, or an enabled policy has been waited for
at the current retry count. -/
def Admitted (p : ReconnectPolicy F) : List Event → Prop
  | .manualReconnect :: _ => True
  | .backedOff delay :: history =>
    p.isDisabled = false ∧ ∃ sample, delay = p.backoffFor sample (UInt32.ofNat (failures history + 1))
  | _ => False

/-- Every attempt of a history meets `P` on what came before it. -/
def EveryAttempt (P : List Event → Prop) : List Event → Prop
  | [] => True
  | .attempted :: history => P history ∧ EveryAttempt P history
  | .failed :: history | .connected :: history | .dropped :: history | .gaveUp :: history
  | .backedOff _ :: history | .manualReconnect :: history => EveryAttempt P history

/-- The attempts since the host was last connected or gave up that take up no `ReconnectAsync`. -/
def retries : List Event → ℕ
  | .attempted :: history =>
    retries history + if history.head? = some .manualReconnect then 0 else 1
  | .failed :: history | .dropped :: history | .manualReconnect :: history
  | .backedOff _ :: history => retries history
  | [] | .connected :: _ | .gaveUp :: _ => 0

/-- An attempt comes next: it is at hand, or a permit for it is there or about to be released; or
the lifetime of the host is over. -/
def Prompt (s : Host F) : Prop :=
  (∃ attempt, s.phase = .head attempt true) ∨ s.phase = .parked ∧ 0 < s.permits + s.releasing ∨
    s.phase = .returned ∧ s.cancelled = true

/-- The count of the attempt under way. -/
def Phase.attempt? : Phase → Option UInt32
  | .attempting attempt _ => some attempt
  | _ => none

/-- Whether an attempt is under way that nobody has cancelled. -/
def Phase.undisturbed : Phase → Bool
  | .attempting _ false => true
  | _ => false

/-- A step at which the supervisor knows why it is there. -/
def Sound (r : Run F) : Act F → Prop
  | .openFails => ∀ attempt ∈ r.1.phase.attempt?,
    (r.1.policy.isDisabled = true →
      0 < r.1.policy.maxAttempts ∧ r.1.policy.maxAttempts < attempt + 1) ∧
    (0 < r.1.policy.maxAttempts → attempt.toNat + 1 < UInt32.size)
  | .openCancelled => r.1.phase.undisturbed = false
  | .reconnect _ => r.1.isBackingOff = false ∧ r.1.phase ≠ .givingUp
  | .drop | .wake | .tornDown | .drain | .arm _ | .elapse | .retryNow | .opened | .cancelLifetime
  | .return | .release => True

instance (r : Run F) : ∀ a, Decidable (Sound r a)
  | .openFails => Option.decidableForallMem r.1.phase.attempt?
  | .openCancelled => inferInstanceAs (Decidable (_ = _))
  | .reconnect _ => inferInstanceAs (Decidable (_ ∧ _))
  | .drop | .wake | .tornDown | .drain | .arm _ | .elapse | .retryNow | .opened | .cancelLifetime
  | .return | .release => inferInstanceAs (Decidable True)

/-! ### What sound steps keep -/

/-- The counter of the loop and the history, and what is known at each place of the loop. -/
structure Counts (p : ReconnectPolicy F) (history : List Event) (attempt : UInt32) : Prop where
  counter : attempt = UInt32.ofNat (failures history + 1)
  cap : 0 < p.maxAttempts → failures history + 1 ≤ p.maxAttempts.toNat

/-- Nothing has been tried since the host was connected or gave up. -/
structure Fresh (history : List Event) : Prop where
  failures : failures history = 0
  retries : retries history = 0

/-- Where the supervisor is fits the history. -/
def InStep (p : ReconnectPolicy F) (history : List Event) : Phase → Prop
  | .connected | .givingUp | .parked => Fresh history
  | .tearingDown manualWhileConnected =>
    Fresh history ∧ (manualWhileConnected = true → history.head? = some .manualReconnect)
  | .head attempt false =>
    Counts p history attempt ∧ retries history ≤ failures history ∧ p.isDisabled = false
  | .head attempt true =>
    Counts p history attempt ∧ retries history ≤ failures history + 1 ∧
      history.head? = some .manualReconnect
  | .backingOff attempt delay =>
    Counts p history attempt ∧ retries history ≤ failures history ∧ p.isDisabled = false ∧
      ∃ sample, delay = p.backoffFor sample attempt
  | .attempting attempt _ => Counts p history attempt ∧ retries history ≤ failures history + 1
  | .returned => True

/-- What holds along a run of sound steps. -/
structure Kept (p : ReconnectPolicy F) (r : Run F) : Prop where
  policy : r.1.policy = p
  log : EveryAttempt (Admitted p) r.2
  row : 0 < p.maxAttempts → retries r.2 ≤ p.maxAttempts.toNat
  inStep : InStep p r.2 r.1.phase
  failed : r.1.isFailed = true → r.1.phase = .givingUp ∨ r.1.phase = .parked ∨
    (∃ attempt, r.1.phase = .head attempt true) ∨ r.1.phase = .returned ∧ r.1.cancelled = true
  owed : r.1.owed = true → Prompt r.1

theorem kept_new (delayable : TimeSpan → Bool) (permits : ℕ) : Kept p (Run.new p delayable permits) where
  policy := rfl
  log := trivial
  row _ := Nat.zero_le _
  inStep := ⟨rfl, rfl⟩
  failed := nofun
  owed := nofun

omit [Double F] in
/-- The first count of an outage. -/
theorem Fresh.counts {history : List Event} (h : Fresh history) : Counts p history 1 where
  counter := by rw [h.failures]; rfl
  cap hpos := by
    rw [UInt32.lt_iff_toNat_lt] at hpos
    rw [h.failures]
    exact hpos

theorem Fresh.le {history : List Event} (h : Fresh history) :
    Supervisor.retries history ≤ Supervisor.failures history := by
  rw [h.retries]
  exact Nat.zero_le _

theorem admitted_of_manual {history : List Event} (h : history.head? = some .manualReconnect) :
    Admitted p history := by
  obtain ⟨history, rfl⟩ := List.head?_eq_some_iff.mp h
  trivial

omit [Double F] in
/-- One more failed attempt that is not over the cap does not wrap the counter around. -/
theorem Counts.again {history : List Event} {attempt : UInt32} (h : Counts p history attempt)
    (hwrap : 0 < p.maxAttempts → attempt.toNat + 1 < UInt32.size)
    (hmore : ¬ (0 < p.maxAttempts ∧ p.maxAttempts < attempt + 1)) :
    Counts p (.failed :: history) (attempt + 1) where
  counter := by
    rw [h.counter, failures, UInt32.ofNat_add (failures history + 1) 1]
    rfl
  cap hpos := by
    have hcap := h.cap hpos
    have hlt := hwrap hpos
    have hmax : p.maxAttempts.toNat < UInt32.size := p.maxAttempts.toNat_lt
    have hattempt : attempt.toNat = failures history + 1 := by
      rw [h.counter, UInt32.toNat_ofNat']
      exact Nat.mod_eq_of_lt (by rw [UInt32.size] at hmax; omega)
    have hsucc : (attempt + 1).toNat = attempt.toNat + 1 := by
      rw [UInt32.toNat_add]
      exact Nat.mod_eq_of_lt hlt
    have hle : ¬ p.maxAttempts.toNat < (attempt + 1).toNat := fun h =>
      hmore ⟨hpos, UInt32.lt_iff_toNat_lt.mpr h⟩
    rw [failures]
    omega

variable {r r' : Run F}

/-- An attempt begins. -/
theorem Kept.begins (hr : Kept p r) {attempt : UInt32} {history : List Event}
    (hcounts : Counts p history attempt) (hadmitted : Admitted p history)
    (hlog : EveryAttempt (Admitted p) history)
    (hrow : retries (.attempted :: history) ≤ failures history + 1) :
    Kept p (r.1.begin attempt, .attempted :: history) where
  policy := hr.policy
  log := ⟨hadmitted, hlog⟩
  row hpos := Nat.le_trans hrow (hcounts.cap hpos)
  inStep := ⟨⟨hcounts.counter, hcounts.cap⟩, hrow⟩
  failed := nofun
  owed := nofun

/-- A step that leaves the history and the phase. -/
theorem Kept.same_phase (hr : Kept p r) {s : Host F} (hpolicy : s.policy = r.1.policy)
    (hstate : s.state = r.1.state) (hphase : s.phase = r.1.phase)
    (hcancelled : r.1.cancelled = true → s.cancelled = true)
    (hsum : s.permits + s.releasing = r.1.permits + r.1.releasing) (howed : s.owed = r.1.owed) :
    Kept p (s, r.2) where
  policy := hpolicy.trans hr.policy
  log := hr.log
  row := hr.row
  inStep := by
    dsimp only
    rw [hphase]
    exact hr.inStep
  failed h := by
    have hfailed : r.1.isFailed = true := by
      rw [Host.isFailed, ← hstate]
      exact h
    dsimp only
    rw [hphase]
    rcases hr.failed hfailed with h | h | h | ⟨h, hc⟩
    · exact .inl h
    · exact .inr (.inl h)
    · exact .inr (.inr (.inl h))
    · exact .inr (.inr (.inr ⟨h, hcancelled hc⟩))
  owed h := by
    rw [howed] at h
    unfold Prompt
    rw [hphase, hsum]
    rcases hr.owed h with h | h | ⟨h, hc⟩
    · exact .inl h
    · exact .inr (.inl h)
    · exact .inr (.inr ⟨h, hcancelled hc⟩)

/-- A step to a place of the loop that leaves the host unpublished as failed, with no signal owed. -/
theorem Kept.moves {s : Host F} {history : List Event} (hpolicy : s.policy = p)
    (hlog : EveryAttempt (Admitted p) history)
    (hrow : 0 < p.maxAttempts → retries history ≤ p.maxAttempts.toNat)
    (hin : InStep p history s.phase) (hfailed : s.isFailed = false) (howed : s.owed = false) :
    Kept p (s, history) where
  policy := hpolicy
  log := hlog
  row := hrow
  inStep := hin
  failed h := by rw [hfailed] at h; cases h
  owed h := by rw [howed] at h; cases h

/-- A step to the head of the loop for an attempt at once. -/
theorem Kept.heads {s : Host F} {history : List Event} {attempt : UInt32} (hpolicy : s.policy = p)
    (hphase : s.phase = .head attempt true) (hlog : EveryAttempt (Admitted p) history)
    (hcounts : Counts p history attempt) (hrow : retries history ≤ failures history + 1)
    (hmanual : history.head? = some .manualReconnect) : Kept p (s, history) where
  policy := hpolicy
  log := hlog
  row hpos := Nat.le_trans hrow (hcounts.cap hpos)
  inStep := by
    dsimp only
    rw [hphase]
    exact ⟨hcounts, hrow, hmanual⟩
  failed _ := .inr (.inr (.inl ⟨attempt, hphase⟩))
  owed _ := .inl ⟨attempt, hphase⟩

/-- No signal is owed where what comes next is no attempt. -/
theorem Kept.not_owed (hr : Kept p r) (h : ¬ Prompt r.1) : r.1.owed = false := by
  cases howed : r.1.owed with
  | false => rfl
  | true => exact absurd (hr.owed howed) h

/-- The places of the loop at which the host is neither published as failed nor parked, and no attempt
is at hand. -/
def Phase.busy : Phase → Bool
  | .connected | .tearingDown _ | .head _ false | .backingOff _ _ | .attempting _ _ => true
  | _ => false

theorem Kept.of_busy (hr : Kept p r) (hbusy : r.1.phase.busy = true) :
    r.1.isFailed = false ∧ r.1.owed = false := by
  constructor
  · cases hfailed : r.1.isFailed with
    | false => rfl
    | true => rcases hr.failed hfailed with h | h | ⟨_, h⟩ | ⟨h, -⟩ <;> (rw [h] at hbusy; cases hbusy)
  · refine hr.not_owed ?_
    rintro (⟨_, h⟩ | ⟨h, -⟩ | ⟨h, -⟩) <;> (rw [h] at hbusy; cases hbusy)

/-- A call of `ReconnectAsync` begins. -/
theorem Kept.signals {s : Host F} {history : List Event} (hr : Kept p (s, history)) (hits : Bool)
    (hbacking : s.isBackingOff = false) (hgiving : s.phase ≠ .givingUp) :
    Kept p ({ s with
      phase := if hits then s.phase.signalled else s.phase
      releasing := s.releasing + 1
      owed := s.owed || s.isBackingOff || s.isFailed }, history) := by
  have hin : InStep p history s.phase := hr.inStep
  by_cases hattempting : ∃ attempt cancelled, s.phase = .attempting attempt cancelled
  · obtain ⟨attempt, cancelled, hphase⟩ := hattempting
    obtain ⟨hfailed, howed⟩ := hr.of_busy (by dsimp only; rw [hphase]; rfl)
    refine .moves hr.policy hr.log hr.row ?_ hfailed (by dsimp only; rw [howed, hbacking, hfailed]; rfl)
    rw [hphase] at hin ⊢
    cases hits <;> exact hin
  · have hphase : (if hits then s.phase.signalled else s.phase) = s.phase := by
      cases hits
      · rfl
      · cases hp : s.phase with
        | attempting attempt cancelled => exact absurd ⟨attempt, cancelled, hp⟩ hattempting
        | _ => rfl
    rw [hphase]
    refine ⟨hr.policy, hr.log, hr.row, hin, hr.failed, fun howed => ?_⟩
    have hprompt : Prompt s ∨ s.phase = .parked := by
      dsimp only at howed
      rw [hbacking, Bool.or_false, Bool.or_eq_true] at howed
      rcases howed with h | h
      · exact .inl (hr.owed h)
      · rcases hr.failed h with h | h | h | h
        · exact absurd h hgiving
        · exact .inr h
        · exact .inl (.inl h)
        · exact .inl (.inr (.inr h))
    rcases hprompt with (h | ⟨h, -⟩ | h) | h
    · exact .inl h
    · exact .inr (.inl ⟨h, Nat.add_pos_right _ (Nat.succ_pos _)⟩)
    · exact .inr (.inr h)
    · exact .inr (.inl ⟨h, Nat.add_pos_right _ (Nat.succ_pos _)⟩)

theorem Kept.step (hr : Kept p r) {a : Act F} (hg : Sound r a) (h : runStep r a = some r') :
    Kept p r' := by
  obtain ⟨s, history⟩ := r
  obtain ⟨s', history'⟩ := r'
  obtain ⟨es, hstep, hhistory⟩ := logged_eq_some.mp h
  dsimp only at hstep hhistory
  subst hhistory
  have hin : InStep p history s.phase := hr.inStep
  have hpolicy : s.policy = p := hr.policy
  have hbusy : s.phase.busy = true → s.isFailed = false ∧ s.owed = false := hr.of_busy
  cases a with
  | drop =>
    simp only [Supervisor.step] at hstep
    split at hstep <;> cases hstep
    next hif =>
    rw [hif.1] at hin hbusy
    exact .moves hpolicy hr.log hr.row ⟨⟨hin.failures, hin.retries⟩, nofun⟩ rfl (hbusy rfl).2
  | wake =>
    simp only [Supervisor.step] at hstep
    split at hstep
    · split at hstep <;> cases hstep <;> rename_i hphase <;> rw [hphase] at hin hbusy
      · exact .moves hpolicy hr.log hr.row ⟨⟨hin.failures, hin.retries⟩, fun _ => rfl⟩ rfl (hbusy rfl).2
      · have hcounts : Counts p history 1 := Fresh.counts hin
        exact .heads hpolicy rfl hr.log ⟨hcounts.counter, hcounts.cap⟩ (Nat.le_succ_of_le hin.le) rfl
    · cases hstep
  | tornDown =>
    simp only [Supervisor.step] at hstep
    split at hstep
    · next manualWhileConnected hphase =>
      rw [hphase] at hin hbusy
      split at hstep <;> cases hstep
      · exact ⟨hpolicy, hr.log, fun _ => Nat.zero_le _, ⟨rfl, rfl⟩, fun _ => .inl rfl, fun howed => by
          have hnone : s.owed = false := (hbusy rfl).2
          cases hnone.symm.trans howed⟩
      · next hnot =>
        have hrow : retries history ≤ failures history := hin.1.le
        cases manualWhileConnected with
        | true => exact .heads hpolicy rfl hr.log hin.1.counts (Nat.le_succ_of_le hrow) (hin.2 rfl)
        | false =>
          have henabled : s.policy.isDisabled = false := by simpa using hnot
          rw [hpolicy] at henabled
          exact .moves hpolicy hr.log hr.row ⟨hin.1.counts, hrow, henabled⟩ (hbusy rfl).1 (hbusy rfl).2
    · cases hstep
  | drain =>
    simp only [Supervisor.step] at hstep
    split at hstep <;> cases hstep
    next hphase =>
    rw [hphase] at hin
    refine ⟨hpolicy, hr.log, hr.row, hin, fun _ => .inr (.inl rfl), fun howed => ?_⟩
    have hnone : s.owed = false :=
      hr.not_owed (by rintro (⟨_, h⟩ | ⟨h, -⟩ | ⟨h, -⟩) <;> cases hphase.symm.trans h)
    cases hnone.symm.trans howed
  | arm sample =>
    simp only [Supervisor.step] at hstep
    split at hstep
    · next attempt hphase _ =>
      rw [hphase] at hin hbusy
      split at hstep <;> cases hstep
      · exact .moves hpolicy hr.log hr.row ⟨hin.1, hin.2.1, hin.2.2, sample, by rw [hpolicy]⟩ rfl (hbusy rfl).2
      · exact .moves hpolicy hr.log hr.row trivial (hbusy rfl).1 (hbusy rfl).2
    · cases hstep
  | elapse =>
    simp only [Supervisor.step] at hstep
    split at hstep <;> cases hstep
    next attempt delay hphase _ =>
    rw [hphase] at hin
    obtain ⟨hcounts, hrow, henabled, sample, rfl⟩ := hin
    change Kept p (s.begin attempt, .attempted :: .backedOff _ :: history)
    exact hr.begins ⟨hcounts.counter, hcounts.cap⟩ ⟨henabled, sample, by rw [hcounts.counter]⟩ hr.log
      (Nat.succ_le_succ hrow)
  | retryNow =>
    simp only [Supervisor.step] at hstep
    split at hstep <;> cases hstep
    next attempt hphase _ =>
    rw [hphase] at hin
    obtain ⟨hcounts, hrow, hmanual⟩ := hin
    change Kept p (s.begin attempt, .attempted :: history)
    refine hr.begins hcounts (admitted_of_manual hmanual) hr.log ?_
    rw [retries, if_pos hmanual]
    exact hrow
  | opened =>
    simp only [Supervisor.step] at hstep
    split at hstep <;> cases hstep
    next hphase =>
    rw [hphase] at hbusy
    exact .moves hpolicy hr.log (fun _ => Nat.zero_le _) ⟨rfl, rfl⟩ rfl (hbusy rfl).2
  | openFails =>
    simp only [Supervisor.step] at hstep
    split at hstep
    · next attempt cancelled hphase =>
      obtain ⟨hdisabled, hwrap⟩ := hg attempt (by dsimp only; rw [hphase]; rfl)
      dsimp only at hdisabled hwrap
      rw [hpolicy] at hdisabled hwrap
      rw [hphase] at hin hbusy
      split at hstep <;> cases hstep
      · exact ⟨hpolicy, hr.log, fun _ => Nat.zero_le _, ⟨rfl, rfl⟩, fun _ => .inl rfl, fun howed => by
          have hnone : s.owed = false := (hbusy rfl).2
          cases hnone.symm.trans howed⟩
      · next hmore =>
        rw [hpolicy] at hmore
        have henabled : p.isDisabled = false := Bool.eq_false_iff.mpr fun h => hmore (hdisabled h)
        exact .moves hpolicy hr.log hr.row ⟨hin.1.again hwrap hmore, hin.2, henabled⟩ (hbusy rfl).1
          (hbusy rfl).2
    · cases hstep
  | openCancelled =>
    simp only [Supervisor.step] at hstep
    split at hstep
    · next attempt cancelled hphase _ =>
      cases hstep
      rw [hphase] at hin
      cases cancelled with
      | false =>
        have hnot : s.phase.undisturbed = false := hg
        rw [hphase] at hnot
        cases hnot
      | true => exact .heads hpolicy rfl hr.log ⟨hin.1.counter, hin.1.cap⟩ hin.2 rfl
    · cases hstep
  | cancelLifetime =>
    cases hstep
    exact hr.same_phase rfl rfl rfl (fun _ => rfl) rfl rfl
  | «return» =>
    simp only [Supervisor.step] at hstep
    split at hstep <;> cases hstep
    next hcancelled =>
    exact ⟨hpolicy, hr.log, hr.row, trivial, fun _ => .inr (.inr (.inr ⟨rfl, hcancelled⟩)),
      fun _ => .inr (.inr ⟨rfl, hcancelled⟩)⟩
  | reconnect hits =>
    cases hstep
    exact hr.signals hits hg.1 hg.2
  | release =>
    simp only [Supervisor.step] at hstep
    split at hstep <;> cases hstep
    next hpos =>
    exact hr.same_phase rfl rfl rfl id (by dsimp only; omega) rfl

/-! ### Runs -/

/-- **Retries**: along a run of sound steps every attempt is admitted, no more than `MaxAttempts` in a
row take up no `ReconnectAsync`, and a `ReconnectAsync` that was issued while the host was backing off
or published as failed is followed by an attempt. -/
theorem retries_kept (p : ReconnectPolicy F) (delayable : TimeSpan → Bool) (permits : ℕ)
    {as : List (Act F)} {r : Run F} (hsound : Guarded runStep Sound (Run.new p delayable permits) as)
    (hr : runs runStep (Run.new p delayable permits) as = some r) :
    EveryAttempt (Admitted p) r.2 ∧ (0 < p.maxAttempts → retries r.2 ≤ p.maxAttempts.toNat) ∧
      (r.1.owed = true → Prompt r.1) := by
  have hkept : Kept p r := runs_invariant runStep (fun hr hg h => hr.step hg h) (kept_new delayable permits) hsound hr
  exact ⟨hkept.log, hkept.row, hkept.owed⟩

/-- One attempt, after a second. -/
def once : ReconnectPolicy ℤ := { (ReconnectPolicy.default : ReconnectPolicy ℤ) with maxAttempts := 1 }

/-- A host of that policy drops and gives up; then it is reconnected. -/
def givesUp : List (Act ℤ) :=
  [.drop, .tornDown, .arm 0, .elapse, .openFails, .drain, .reconnect true, .release, .wake]

theorem retries_kept_once :
    EveryAttempt (Admitted once)
      [.manualReconnect, .gaveUp, .failed, .attempted, .backedOff second, .dropped] := by
  have hsound : Guarded runStep Sound (Run.new once (fun _ => true) 0) givesUp := by decide +kernel
  have hhistory : (runs runStep (Run.new once (fun _ => true) 0) givesUp).map Prod.snd =
      some [.manualReconnect, .gaveUp, .failed, .attempted, .backedOff second, .dropped] := by decide +kernel
  obtain ⟨r, hr, hhistory⟩ := Option.map_eq_some_iff.mp hhistory
  rw [← hhistory]
  exact (retries_kept once (fun _ => true) 0 hsound hr).1

/-- No reconnects. -/
def never : ReconnectPolicy ℤ := disabled

/-- A timeout of the transport factory is retried at once and not counted, for as long as it goes on; a
disabled policy retries the failed attempt of a `ReconnectAsync`; and a `ReconnectAsync` issued in a
backoff, or before the park drains the signals, brings no attempt. -/
theorem retries_not_kept :
    (¬ ∀ (as : List (Act ℤ)) (r : Run ℤ), runs runStep (Run.new once (fun _ => true) 0) as = some r →
      EveryAttempt (Admitted once) r.2) ∧
    (¬ ∀ (as : List (Act ℤ)) (r : Run ℤ), runs runStep (Run.new once (fun _ => true) 0) as = some r →
      retries r.2 ≤ once.maxAttempts.toNat) ∧
    (¬ ∀ (as : List (Act ℤ)) (r : Run ℤ), runs runStep (Run.new never (fun _ => true) 0) as = some r →
      EveryAttempt (Admitted never) r.2) ∧
    (¬ ∀ (as : List (Act ℤ)) (r : Run ℤ), runs runStep (Run.new once (fun _ => true) 0) as = some r →
      r.1.owed = true → Prompt r.1) ∧
    ¬ ∀ (as : List (Act ℤ)) (r : Run ℤ), runs runStep (Run.new never (fun _ => true) 0) as = some r →
      r.1.owed = true → Prompt r.1 := by
  refine ⟨fun h => ?_, fun h => ?_, fun h => ?_, fun h => ?_, fun h => ?_⟩
  · exact (h [.drop, .tornDown, .arm 0, .elapse, .openCancelled, .retryNow] _ rfl).1
  · have htwo := h [.drop, .tornDown, .arm 0, .elapse, .openCancelled, .retryNow] _ rfl
    revert htwo
    decide
  · have hlog := h [.drop, .tornDown, .drain, .reconnect true, .release, .wake, .retryNow, .openFails,
      .arm 0, .elapse] _ rfl
    exact absurd hlog.1.1 (by decide)
  · rcases h [.drop, .tornDown, .arm 0, .reconnect true, .release] _ rfl rfl with ⟨_, h⟩ | ⟨h, -⟩ | ⟨h, -⟩ <;>
      cases h
  · rcases h [.drop, .tornDown, .reconnect true, .release, .drain] _ rfl rfl with ⟨_, h⟩ | ⟨-, h⟩ | ⟨h, -⟩
    · cases h
    · revert h
      decide
    · cases h

end AgentHostProtocol.Dotnet.Hosts.Supervisor
