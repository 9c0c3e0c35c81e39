import AgentHostProtocol.Dotnet.Hosts.Entry

/-!
# Entries on the way down

What is known of an entry at any time (`Tracked`) and what remains of it as a call of
`RemoveHostAsync` or `ShutdownAsync` goes on: no client runs that is not one of a call of
`OpenHostCoreAsync` (`Closed`), no supervisor (`Down`), and no pump either (`Over`). Each of them
stays, and once those calls are `Quiet` no client runs at all.
-/

namespace AgentHostProtocol.Dotnet.Hosts.Registry

open Library

/-- The client of a call of `OpenHostCoreAsync` that is not installed. -/
def Opening.client? : Opening → Option ℕ
  | .handshake client | .closing client => some client
  | _ => none

/-- The call is over. -/
def Opening.isEnded : Opening → Bool
  | .ended _ => true
  | _ => false

/-- The call has no client, and will not create one when its token is cancelled. -/
def Opening.quiet : Opening → Bool
  | .factory | .ended _ => true
  | _ => false

/-- The supervisor has taken the gate. -/
def Supervise.holds : Supervise → Bool
  | .replacing _ | .draining => true
  | _ => false

namespace Entry

/-- The call of `OpenHostCoreAsync` that is awaited. -/
def Awaits (h : Entry) (i : ℕ) : Prop := h.supervise = .opening i ∨ h.supervise = .notStarted ∧ i = 0

/-- Call `i` has installed its client. -/
def Installed (h : Entry) (i : ℕ) : Prop := ∃ a, h.attempts[i]? = some a ∧ a.phase = .ended true

/-- What holds of every entry. -/
structure Tracked (h : Entry) : Prop where
  /-- A client that runs is the installed one, that of a call under way, or about to be replaced. -/
  alive : ∀ j ∈ h.clients, h.client = some j ∨
    (∃ (i : ℕ) (a : Attempt), h.attempts[i]? = some a ∧ a.phase.client? = some j) ∨ h.supervise = .replacing j
  pump : ∀ j ∈ h.pumps, h.pumpTask = some j
  /-- A call whose token is not cancelled is awaited. -/
  live : ∀ (i : ℕ) (a : Attempt), h.attempts[i]? = some a → a.phase.isEnded = false → a.cancelled = false →
    h.cancelled = false → h.Awaits i
  /-- Until the awaited call has installed its client there is none, and no pump. -/
  vacant : ∀ i, h.Awaits i → ¬ h.Installed i → h.client = none ∧ h.pumps = []
  between : h.supervise = .between → h.client = none ∧ h.pumps = []
  holding : h.supervise.holds = true → h.client = none ∧ h.gate = some .supervisor
  watched : ∀ j, h.supervise = .watching j ∨ h.supervise = .woken j → h.client = some j

/-- No call of `OpenHostCoreAsync` can install its client. -/
def Barred (h : Entry) : Prop :=
  h.cancelled = true ∨
    h.supervise = .notStarted ∧ ∀ (i : ℕ) (a : Attempt), h.attempts[i]? = some a →
      a.phase.isEnded = true ∨ a.cancelled = true

/-- Only calls of `OpenHostCoreAsync` have clients, and the supervisor does not have the gate. -/
structure Bare (h : Entry) : Prop where
  released : h.supervise.holds = false
  clients : ∀ j ∈ h.clients, ∃ (i : ℕ) (a : Attempt), h.attempts[i]? = some a ∧ a.phase.client? = some j

/-- The installed client was shut down, and no other will be installed. -/
structure Closed (h : Entry) : Prop extends Bare h where
  cancelled : h.cancelled = true

/-- The supervisor does not run, nor is it about to be started. -/
structure Down (h : Entry) : Prop extends Bare h where
  barred : h.Barred
  supervised : h.supervised = false
  unstarted : h.supervise = .notStarted → ¬ h.Installed 0

/-- No pump runs either. -/
structure Over (h : Entry) : Prop extends Down h where
  pumps : h.pumps = []

/-- No call of `OpenHostCoreAsync` has a client or is about to create one. -/
def Quiet (h : Entry) : Prop := ∀ a ∈ h.attempts, a.phase.quiet = true

/-- A call of `RemoveHostAsync` or `ShutdownAsync` has the gate, and has read `CurrentClient`. -/
structure Held (h : Entry) (r : ℕ) (client : Option ℕ) : Prop where
  cancelled : h.cancelled = true
  gate : h.gate = some (.remover r)
  client : h.client = client

theorem tracked_new (id : String) (owner : ℕ) : Tracked (new id owner) where
  alive _ hj := by cases hj
  pump _ hj := by cases hj
  live i a ha _ _ _ := by
    rcases List.getElem?_eq_some_iff.mp ha with ⟨hlt, -⟩
    exact .inr ⟨rfl, Nat.lt_one_iff.mp hlt⟩
  vacant _ _ _ := ⟨rfl, rfl⟩
  between h := by cases h
  holding h := by cases h
  watched j h := by rcases h with h | h <;> cases h

variable {h h' : Entry}

/-! ### A call goes on -/

theorem getElem?_setAttempt {i j : ℕ} {a b : Attempt} {phase : Opening} (hi : h.attempts[i]? = some a)
    (hj : (h.setAttempt i a phase).attempts[j]? = some b) :
    j = i ∧ b = { a with phase } ∨ j ≠ i ∧ h.attempts[j]? = some b := by
  by_cases hij : j = i
  · subst hij
    have hset := getElem?_set_of_some hi { a with phase }
    cases hset.symm.trans hj
    exact .inl ⟨rfl, rfl⟩
  · refine .inr ⟨hij, ?_⟩
    rwa [setAttempt, List.getElem?_set_ne (Ne.symm hij)] at hj

/-- The client of a call is still that of a call, unless the call that goes on had it. -/
theorem client_setAttempt {i k : ℕ} {a : Attempt} (phase : Opening) (hi : h.attempts[i]? = some a)
    (hk : ∃ (j : ℕ) (b : Attempt), h.attempts[j]? = some b ∧ b.phase.client? = some k) :
    a.phase.client? = some k ∨
      ∃ (j : ℕ) (b : Attempt), (h.setAttempt i a phase).attempts[j]? = some b ∧ b.phase.client? = some k := by
  obtain ⟨j, b, hj, hb⟩ := hk
  by_cases hij : j = i
  · subst hij
    cases hi.symm.trans hj
    exact .inl hb
  · refine .inr ⟨j, b, ?_, hb⟩
    rw [setAttempt, List.getElem?_set_ne (Ne.symm hij)]
    exact hj

/-- A call that goes on without installing its client leaves the calls that have done so. -/
theorem installed_setAttempt {i j : ℕ} {a : Attempt} (phase : Opening) (hi : h.attempts[i]? = some a)
    (hended : a.phase.isEnded = false) (hj : h.Installed j) : (h.setAttempt i a phase).Installed j := by
  obtain ⟨b, hb, hinstalled⟩ := hj
  by_cases hij : j = i
  · subst hij
    cases hi.symm.trans hb
    rw [hinstalled] at hended
    cases hended
  · refine ⟨b, ?_, hinstalled⟩
    rw [setAttempt, List.getElem?_set_ne (Ne.symm hij)]
    exact hb

theorem Tracked.goesOn (ht : h.Tracked) {i created : ℕ} {clients : List ℕ} {a : Attempt} {phase : Opening}
    (hi : h.attempts[i]? = some a) (hended : a.phase.isEnded = false)
    (halive : ∀ j ∈ clients, h.client = some j ∨
      (∃ (k : ℕ) (b : Attempt), (h.setAttempt i a phase).attempts[k]? = some b ∧ b.phase.client? = some j) ∨
      h.supervise = .replacing j) :
    Tracked { h.setAttempt i a phase with created := created, clients := clients } where
  alive := halive
  pump := ht.pump
  live j b hj hb hcancelled hlive := by
    rcases getElem?_setAttempt hi hj with ⟨rfl, rfl⟩ | ⟨-, hj⟩
    · exact ht.live _ a hi hended hcancelled hlive
    · exact ht.live j b hj hb hcancelled hlive
  vacant j hawaits hnot :=
    ht.vacant j hawaits fun hinstalled => hnot (installed_setAttempt phase hi hended hinstalled)
  between := ht.between
  holding := ht.holding
  watched := ht.watched

/-- What runs is known after a call has gone on, if it still has its client or that is down. -/
theorem Tracked.alive_setAttempt (ht : h.Tracked) {i j : ℕ} {a : Attempt} {phase : Opening}
    (hi : h.attempts[i]? = some a) (hkeeps : a.phase.client? = some j → phase.client? = some j)
    (hj : j ∈ h.clients) : h.client = some j ∨
      (∃ (k : ℕ) (b : Attempt), (h.setAttempt i a phase).attempts[k]? = some b ∧ b.phase.client? = some j) ∨
      h.supervise = .replacing j := by
  rcases ht.alive j hj with hclient | hcall | hreplacing
  · exact .inl hclient
  · rcases client_setAttempt phase hi hcall with hown | hother
    · exact .inr (.inl ⟨i, _, getElem?_set_of_some hi _, hkeeps hown⟩)
    · exact .inr (.inl hother)
  · exact .inr (.inr hreplacing)

/-- The supervisor goes on and no call of `OpenHostCoreAsync` that may go on is left behind. -/
theorem Tracked.supervises (ht : h.Tracked) (sup : Supervise)
    (hlive : ∀ (i : ℕ) (a : Attempt), h.attempts[i]? = some a → a.phase.isEnded = false →
      a.cancelled = false → h.cancelled = false → False)
    (hsup : sup ≠ .notStarted ∧ (∀ i, sup ≠ .opening i) ∧ sup.holds = false)
    (hreplacing : ∀ j, h.supervise ≠ .replacing j)
    (hbetween : sup = .between → h.client = none ∧ h.pumps = [])
    (hwatched : ∀ j, sup = .watching j ∨ sup = .woken j → h.client = some j) :
    Tracked { h with supervise := sup } where
  alive j hj := by
    rcases ht.alive j hj with hclient | hcall | hsup
    · exact .inl hclient
    · exact .inr (.inl hcall)
    · exact absurd hsup (hreplacing j)
  pump := ht.pump
  live i a hi hended hcancelled hh := (hlive i a hi hended hcancelled hh).elim
  vacant i hawaits _ := by
    rcases hawaits with hopening | ⟨hnot, -⟩
    · exact absurd hopening (hsup.2.1 i)
    · exact absurd hnot hsup.1
  between := hbetween
  holding hholds := by
    rw [hsup.2.2] at hholds
    cases hholds
  watched := hwatched

/-- Where the supervisor runs and awaits no call, each of them is over or cancelled. -/
theorem Tracked.not_live (ht : h.Tracked) (hstarted : h.supervise ≠ .notStarted)
    (hopening : ∀ i, h.supervise ≠ .opening i) (i : ℕ) (a : Attempt) (hi : h.attempts[i]? = some a)
    (hended : a.phase.isEnded = false) (hcancelled : a.cancelled = false) (hh : h.cancelled = false) :
    False := by
  rcases ht.live i a hi hended hcancelled hh with hsup | ⟨hsup, -⟩
  · exact hopening i hsup
  · exact hstarted hsup

theorem Tracked.shutdownClient (ht : h.Tracked) (client : Option ℕ) : (h.shutdownClient client).Tracked := by
  cases client with
  | none => exact ht
  | some client =>
    exact ⟨fun j hj => ht.alive j (List.mem_of_mem_filter hj), ht.pump, ht.live, ht.vacant, ht.between,
      ht.holding, ht.watched⟩

theorem Tracked.cancel (ht : h.Tracked) : h.cancel.Tracked :=
  ⟨ht.alive, ht.pump, fun _ _ _ _ _ hh => by (cases hh), ht.vacant, ht.between, ht.holding, ht.watched⟩

theorem Tracked.dispose (ht : h.Tracked) : h.dispose.Tracked :=
  ⟨ht.alive, ht.pump, ht.live, ht.vacant, ht.between, ht.holding, ht.watched⟩

/-- A call of `RemoveHostAsync` or `ShutdownAsync` takes the gate or gives it back. -/
theorem Tracked.setGate (ht : h.Tracked) (hgate : h.gate ≠ some .supervisor) (gate : Option Holder) :
    Tracked { h with gate := gate } :=
  ⟨ht.alive, ht.pump, ht.live, ht.vacant, ht.between, fun hholds => absurd (ht.holding hholds).2 hgate,
    ht.watched⟩

theorem Tracked.start (ht : h.Tracked) (hnot : h.supervise = .notStarted) (hinstalled : h.Installed 0) :
    h.start.Tracked := by
  refine ht.supervises .loading (fun i a hi hended hcancelled hh => ?_) (by simp [Supervise.holds])
    (by simp [hnot]) (by simp) (by simp)
  rcases ht.live i a hi hended hcancelled hh with hsup | ⟨-, rfl⟩
  · rw [hnot] at hsup
    cases hsup
  · obtain ⟨b, hb, hphase⟩ := hinstalled
    cases hi.symm.trans hb
    rw [hphase] at hended
    cases hended

/-- A call of `OpenHostCoreAsync` is awaited once. -/
theorem Awaits.unique {i j : ℕ} (hi : h.Awaits i) (hj : h.Awaits j) : i = j := by
  rcases hi with hi | ⟨hi, rfl⟩ <;> rcases hj with hj | ⟨hj, rfl⟩
  · exact Supervise.opening.inj (hi.symm.trans hj)
  · cases hi.symm.trans hj
  · cases hi.symm.trans hj
  · rfl

theorem not_installed {i : ℕ} {a : Attempt} (hi : h.attempts[i]? = some a) (ha : a.phase ≠ .ended true) :
    ¬ h.Installed i := by
  rintro ⟨b, hb, hphase⟩
  cases hi.symm.trans hb
  exact ha hphase

/-- `InstallOpenHost`. -/
theorem Tracked.install (ht : h.Tracked) {i client : ℕ} (hi : h.attempts[i]? = some ⟨.handshake client, false⟩)
    (hcancelled : h.cancelled = false) (hgate : h.gate = none) :
    Tracked { h.setAttempt i ⟨.handshake client, false⟩ (.ended true) with
      client := some client
      pumps := client :: h.pumps
      pumpTask := some client } := by
  have hawaits := ht.live i _ hi rfl rfl hcancelled
  obtain ⟨hclient, hpumps⟩ := ht.vacant i hawaits (not_installed hi (by simp))
  refine ⟨fun j hj => ?_, fun j hj => ?_, fun j b hj hended hb hh => ?_, fun j hj hnot => ?_,
    fun hsup => ?_, fun hholds => ?_, fun j hj => ?_⟩
  · rcases ht.alive j hj with hother | hcall | hreplacing
    · rw [hclient] at hother
      cases hother
    · rcases client_setAttempt (.ended true) hi hcall with hown | hother
      · exact .inl hown
      · exact .inr (.inl hother)
    · exact .inr (.inr hreplacing)
  · change j ∈ client :: h.pumps at hj
    rw [hpumps, List.mem_singleton] at hj
    rw [hj]
  · rcases getElem?_setAttempt hi hj with ⟨rfl, rfl⟩ | ⟨-, hj⟩
    · cases hended
    · exact ht.live j b hj hended hb hh
  · refine absurd ?_ hnot
    rw [Awaits.unique hj hawaits]
    exact ⟨_, getElem?_set_of_some hi _, rfl⟩
  · change h.supervise = .between at hsup
    rcases hawaits with hopening | ⟨hnot, -⟩
    · cases hsup.symm.trans hopening
    · cases hsup.symm.trans hnot
  · have hheld := (ht.holding hholds).2
    rw [hgate] at hheld
    cases hheld
  · have hother := ht.watched j hj
    rw [hclient] at hother
    cases hother

/-- Every step keeps what holds of every entry. -/
theorem Tracked.step {act : Act} (ht : h.Tracked) (hs : h.step act = some h') : h'.Tracked := by
  cases step_does hs with
  | unconnected hi => exact ht.goesOn hi rfl fun j hj => ht.alive_setAttempt hi (by simp [Opening.client?]) hj
  | checked hi => exact ht.goesOn hi rfl fun j hj => ht.alive_setAttempt hi (by simp [Opening.client?]) hj
  | @connected i cancelled hi =>
    refine ht.goesOn hi rfl fun j hj => ?_
    rcases List.mem_cons.mp hj with rfl | hj
    · exact .inr (.inl ⟨i, _, getElem?_set_of_some hi _, rfl⟩)
    · exact ht.alive_setAttempt hi (by simp [Opening.client?]) hj
  | installed hi hcancelled hgate => exact ht.install hi hcancelled hgate
  | aborted hi => exact ht.goesOn hi rfl fun j hj => ht.alive_setAttempt hi (by simp [Opening.client?]) hj
  | @closed i client cancelled hi =>
    have hi' : (h.shutdownClient (some client)).attempts[i]? = some ⟨.closing client, cancelled⟩ := hi
    refine (ht.shutdownClient (some client)).goesOn hi' rfl fun j hj => ?_
    refine (ht.shutdownClient (some client)).alive_setAttempt hi' (fun hown => ?_) hj
    have hne := of_decide_eq_true (List.mem_filter.mp hj).2
    exact absurd (Option.some.inj hown).symm hne
  | @cancelled i a hi =>
    refine ⟨fun j hj => ?_, ht.pump, fun j b hj hended hb hh => ?_, fun j hj hnot => ?_, ht.between,
      ht.holding, ht.watched⟩
    · rcases ht.alive j hj with hclient | ⟨k, b, hk, hb⟩ | hreplacing
      · exact .inl hclient
      · by_cases hki : k = i
        · subst hki
          cases hi.symm.trans hk
          exact .inr (.inl ⟨k, _, getElem?_set_of_some hi _, hb⟩)
        · refine .inr (.inl ⟨k, b, ?_, hb⟩)
          rw [List.getElem?_set_ne (Ne.symm hki)]
          exact hk
      · exact .inr (.inr hreplacing)
    · rcases getElem?_set_eq_some hj with ⟨-, rfl⟩ | ⟨-, hj⟩
      · cases hb
      · exact ht.live j b hj hended hb hh
    · refine ht.vacant j hj fun hinstalled => hnot ?_
      obtain ⟨b, hb, hphase⟩ := hinstalled
      by_cases hji : j = i
      · subst hji
        cases hi.symm.trans hb
        exact ⟨_, getElem?_set_of_some hi _, hphase⟩
      · refine ⟨b, ?_, hphase⟩
        rw [List.getElem?_set_ne (Ne.symm hji)]
        exact hb
  | dropped client => exact ht.shutdownClient (some client)
  | pumpEnded client =>
    refine ⟨ht.alive, fun j hj => ht.pump j (List.mem_of_mem_filter hj), ht.live, fun i hi hnot => ?_,
      fun hsup => ?_, ht.holding, ht.watched⟩
    · obtain ⟨hclient, hpumps⟩ := ht.vacant i hi hnot
      exact ⟨hclient, by rw [hpumps]; rfl⟩
    · obtain ⟨hclient, hpumps⟩ := ht.between hsup
      exact ⟨hclient, by rw [hpumps]; rfl⟩
  | @loaded client hsup hclient =>
    refine ht.supervises _ (ht.not_live (by simp [hsup]) (by simp [hsup])) (by simp [Supervise.holds])
      (by simp [hsup]) (by simp) fun j hj => ?_
    rcases hj with hj | hj
    · rw [hclient, Supervise.watching.inj hj]
    · cases hj
  | @woken client hsup =>
    refine ht.supervises _ (ht.not_live (by simp [hsup]) (by simp [hsup])) (by simp [Supervise.holds])
      (by simp [hsup]) (by simp) fun j hj => ?_
    rcases hj with hj | hj
    · cases hj
    · rw [← Supervise.woken.inj hj]
      exact ht.watched client (.inl hsup)
  | @acquired client hsup hcancelled hgate =>
    have hwatched := ht.watched client (.inr hsup)
    refine ⟨fun j hj => ?_, ht.pump,
      fun i a hi hended ha hh => (ht.not_live (by simp [hsup]) (by simp [hsup]) i a hi hended ha hh).elim,
      fun i hi => ?_, fun hbetween => (by cases hbetween), fun _ => ⟨rfl, rfl⟩, fun j hj => ?_⟩
    · rcases ht.alive j hj with hclient | hcall | hreplacing
      · rw [hwatched] at hclient
        cases hclient
        exact .inr (.inr rfl)
      · exact .inr (.inl hcall)
      · cases hsup.symm.trans hreplacing
    · rcases hi with hi | ⟨hi, -⟩
      · cases hi
      · cases hi
    · rcases hj with hj | hj
      · cases hj
      · cases hj
  | @replaced client hsup =>
    have hheld := ht.holding (by rw [hsup]; rfl)
    refine ⟨fun j hj => ?_, ht.pump,
      fun i a hi hended ha hh => (ht.not_live (by simp [hsup]) (by simp [hsup]) i a hi hended ha hh).elim,
      fun i hi => ?_, fun hbetween => (by cases hbetween), fun _ => hheld, fun j hj => ?_⟩
    · obtain ⟨hj, hne⟩ := List.mem_filter.mp hj
      rcases ht.alive j hj with hclient | hcall | hreplacing
      · exact .inl hclient
      · exact .inr (.inl hcall)
      · cases hsup.symm.trans hreplacing
        exact absurd rfl (of_decide_eq_true hne)
    · rcases hi with hi | ⟨hi, -⟩
      · cases hi
      · cases hi
    · rcases hj with hj | hj
      · cases hj
      · cases hj
  | drained hsup hpump =>
    have hclient := (ht.holding (by rw [hsup]; rfl)).1
    have hpumps : h.pumps = [] :=
      List.eq_nil_iff_forall_not_mem.mpr fun j hj => hpump j (ht.pump j hj) hj
    have hnext := ht.supervises .between (ht.not_live (by simp [hsup]) (by simp [hsup]))
      (by simp [Supervise.holds]) (by simp [hsup]) (fun _ => ⟨hclient, hpumps⟩) (by simp)
    exact ⟨hnext.alive, hnext.pump, hnext.live, hnext.vacant, hnext.between,
      fun hholds => (by cases hholds), hnext.watched⟩
  | attempted hsup hcancelled =>
    obtain ⟨hclient, hpumps⟩ := ht.between hsup
    refine ⟨fun j hj => ?_, ht.pump, fun i a hi hended ha hh => ?_, fun _ _ _ => ⟨hclient, hpumps⟩,
      fun hbetween => (by cases hbetween), fun hholds => (by cases hholds), fun j hj => ?_⟩
    · rcases ht.alive j hj with hother | ⟨i, a, hi, ha⟩ | hreplacing
      · exact .inl hother
      · exact .inr (.inl ⟨i, a, getElem?_concat_of_some hi _, ha⟩)
      · cases hsup.symm.trans hreplacing
    · rcases getElem?_concat_eq_some hi with ⟨rfl, -⟩ | hi
      · exact .inl rfl
      · exact (ht.not_live (by simp [hsup]) (by simp [hsup]) i a hi hended ha hh).elim
    · rcases hj with hj | hj
      · cases hj
      · cases hj
  | @reconnected i cancelled hsup hi =>
    refine ht.supervises _ (fun j b hj hended hb hh => ?_) (by simp [Supervise.holds]) (by simp [hsup])
      (by simp) (by simp)
    cases Awaits.unique (ht.live j b hj hended hb hh) (.inl hsup)
    cases hi.symm.trans hj
    cases hended
  | @again i a hsup hi hnot hover =>
    have hvacant := ht.vacant i (.inl hsup) (not_installed hi hnot)
    refine ht.supervises _ (fun j b hj hended hb hh => ?_) (by simp [Supervise.holds]) (by simp [hsup])
      (fun _ => hvacant) (by simp)
    cases Awaits.unique (ht.live j b hj hended hb hh) (.inl hsup)
    cases hi.symm.trans hj
    rcases hover with hover | hover | hover
    · rw [hover] at hended
      cases hended
    · rw [hover] at hb
      cases hb
    · rw [hover] at hh
      cases hh
  | returned hsupervised hopening hreplacing hdraining =>
    refine ht.supervises _ (ht.not_live (fun hnot => ?_) hopening) (by simp [Supervise.holds]) hreplacing
      (by simp) (by simp)
    rw [supervised, hnot] at hsupervised
    cases hsupervised

/-! ### On the way down -/

theorem Barred.not_live (hb : h.Barred) {i : ℕ} {a : Attempt} (hi : h.attempts[i]? = some a)
    (hended : a.phase.isEnded = false) (hcancelled : a.cancelled = false) (hh : h.cancelled = false) :
    False := by
  rcases hb with hb | ⟨-, hb⟩
  · rw [hb] at hh
    cases hh
  · rcases hb i a hi with hb | hb
    · rw [hb] at hended
      cases hended
    · rw [hb] at hcancelled
      cases hcancelled

/-- Once the supervisor was started it is the token of the entry that bars. -/
theorem Barred.cancelled (hb : h.Barred) (hsup : h.supervise ≠ .notStarted) : h.cancelled = true := by
  rcases hb with hb | ⟨hnot, -⟩
  · exact hb
  · exact absurd hnot hsup

theorem Barred.goesOn (hb : h.Barred) {i : ℕ} {a : Attempt} (hi : h.attempts[i]? = some a)
    (hended : a.phase.isEnded = false) (phase : Opening) : (h.setAttempt i a phase).Barred := by
  rcases hb with hb | ⟨hnot, hb⟩
  · exact .inl hb
  · refine .inr ⟨hnot, fun j b hj => ?_⟩
    rcases getElem?_setAttempt hi hj with ⟨rfl, rfl⟩ | ⟨-, hj⟩
    · rcases hb _ a hi with hover | hover
      · rw [hover] at hended
        cases hended
      · exact .inr hover
    · exact hb j b hj

/-- A step does not cancel the token of the entry, nor take that back. -/
theorem step_cancelled {act : Act} (hs : h.step act = some h') : h'.cancelled = h.cancelled := by
  cases step_does hs <;> rfl

theorem step_id {act : Act} (hs : h.step act = some h') : h'.id = h.id := by
  cases step_does hs <;> rfl

theorem step_owner {act : Act} (hs : h.step act = some h') : h'.owner = h.owner := by
  cases step_does hs <;> rfl

theorem step_disposed {act : Act} (hs : h.step act = some h') : h'.disposed = h.disposed := by
  cases step_does hs <;> rfl

/-- Only `AddHostAsync` starts the supervisor. -/
theorem step_notStarted {act : Act} (hs : h.step act = some h') (hnot : h.supervise = .notStarted) :
    h'.supervise = .notStarted := by
  cases step_does hs with
  | loaded hsup | woken hsup | acquired hsup | replaced hsup | drained hsup | attempted hsup
  | reconnected hsup | again hsup => cases hnot.symm.trans hsup
  | returned hsupervised =>
    rw [supervised, hnot] at hsupervised
    cases hsupervised
  | _ => exact hnot

theorem step_started {act : Act} (hs : h.step act = some h') (hnot : h'.supervise = .notStarted) :
    h.supervise = .notStarted := by
  cases step_does hs with
  | loaded | woken | acquired | replaced | drained | attempted | reconnected | again | returned => cases hnot
  | _ => exact hnot

theorem Barred.step {act : Act} (hb : h.Barred) (hs : h.step act = some h') : h'.Barred := by
  cases step_does hs with
  | unconnected hi | checked hi | connected hi | installed hi | aborted hi | closed hi =>
    exact hb.goesOn hi rfl _
  | @cancelled i a hi =>
    rcases hb with hb | ⟨hnot, hb⟩
    · exact .inl hb
    · refine .inr ⟨hnot, fun j b hj => ?_⟩
      rcases getElem?_set_eq_some hj with ⟨-, rfl⟩ | ⟨-, hj⟩
      · exact .inr rfl
      · exact hb j b hj
  | dropped | pumpEnded => exact hb
  | loaded hsup | woken hsup | acquired hsup | replaced hsup | drained hsup | attempted hsup
  | reconnected hsup | again hsup => exact .inl (hb.cancelled (by simp [hsup]))
  | returned hsupervised =>
    refine .inl (hb.cancelled fun hnot => ?_)
    rw [supervised, hnot] at hsupervised
    cases hsupervised

/-- The other calls keep their clients when one goes on. -/
theorem Bare.goesOn (hbare : h.Bare) {i j : ℕ} {a : Attempt} {phase : Opening}
    (hi : h.attempts[i]? = some a) (hkeeps : a.phase.client? = some j → phase.client? = some j)
    (hj : j ∈ h.clients) :
    ∃ (k : ℕ) (b : Attempt), (h.setAttempt i a phase).attempts[k]? = some b ∧ b.phase.client? = some j := by
  rcases client_setAttempt phase hi (hbare.clients j hj) with hown | hother
  · exact ⟨i, _, getElem?_set_of_some hi _, hkeeps hown⟩
  · exact hother

theorem Bare.step {act : Act} (hbare : h.Bare) (hb : h.Barred) (hs : h.step act = some h') : h'.Bare := by
  cases step_does hs with
  | unconnected hi | checked hi | aborted hi =>
    exact ⟨hbare.released, fun j hj => hbare.goesOn hi (by simp [Opening.client?]) hj⟩
  | @connected i cancelled hi =>
    refine ⟨hbare.released, fun j hj => ?_⟩
    rcases List.mem_cons.mp hj with rfl | hj
    · exact ⟨i, _, getElem?_set_of_some hi _, rfl⟩
    · exact hbare.goesOn hi (by simp [Opening.client?]) hj
  | installed hi hcancelled => exact (hb.not_live hi rfl rfl hcancelled).elim
  | @closed i client cancelled hi =>
    refine ⟨hbare.released, fun j hj => ?_⟩
    obtain ⟨hj, hne⟩ := List.mem_filter.mp hj
    refine hbare.goesOn hi (fun hown => ?_) hj
    exact absurd (Option.some.inj hown).symm (of_decide_eq_true hne)
  | @cancelled i a hi =>
    refine ⟨hbare.released, fun j hj => ?_⟩
    obtain ⟨k, b, hk, hclient⟩ := hbare.clients j hj
    by_cases hki : k = i
    · subst hki
      cases hi.symm.trans hk
      exact ⟨k, _, getElem?_set_of_some hi _, hclient⟩
    · refine ⟨k, b, ?_, hclient⟩
      rw [List.getElem?_set_ne (Ne.symm hki)]
      exact hk
  | dropped client => exact ⟨hbare.released, fun j hj => hbare.clients j (List.mem_of_mem_filter hj)⟩
  | pumpEnded => exact ⟨hbare.released, hbare.clients⟩
  | loaded | woken | reconnected | again | returned => exact ⟨rfl, hbare.clients⟩
  | acquired hsup hcancelled =>
    rw [hb.cancelled (by simp [hsup])] at hcancelled
    cases hcancelled
  | replaced hsup | drained hsup =>
    have hreleased := hbare.released
    rw [hsup] at hreleased
    cases hreleased
  | attempted hsup hcancelled =>
    rw [hb.cancelled (by simp [hsup])] at hcancelled
    cases hcancelled

theorem Closed.step {act : Act} (hc : h.Closed) (hs : h.step act = some h') : h'.Closed where
  toBare := hc.toBare.step (.inl hc.cancelled) hs
  cancelled := by rw [step_cancelled hs, hc.cancelled]

theorem installed_of_setAttempt {i j : ℕ} {a : Attempt} {phase : Opening} (hi : h.attempts[i]? = some a)
    (hphase : phase ≠ .ended true) (hj : (h.setAttempt i a phase).Installed j) : h.Installed j := by
  obtain ⟨b, hb, hinstalled⟩ := hj
  rcases getElem?_setAttempt hi hb with ⟨rfl, rfl⟩ | ⟨-, hb⟩
  · exact absurd hinstalled hphase
  · exact ⟨b, hb, hinstalled⟩

/-- Behind the bar no call installs its client. -/
theorem Barred.installed_step {act : Act} {j : ℕ} (hb : h.Barred) (hs : h.step act = some h')
    (hj : h'.Installed j) : h.Installed j := by
  cases step_does hs with
  | unconnected hi | checked hi | connected hi | aborted hi | closed hi =>
    exact installed_of_setAttempt hi (by simp) hj
  | installed hi hcancelled => exact (hb.not_live hi rfl rfl hcancelled).elim
  | @cancelled i a hi =>
    obtain ⟨b, hb, hphase⟩ := hj
    rcases getElem?_set_eq_some hb with ⟨rfl, rfl⟩ | ⟨-, hb⟩
    · exact ⟨a, hi, hphase⟩
    · exact ⟨b, hb, hphase⟩
  | attempted hsup hcancelled =>
    rw [hb.cancelled (by simp [hsup])] at hcancelled
    cases hcancelled
  | _ => exact hj

theorem Down.step {act : Act} (hd : h.Down) (hs : h.step act = some h') : h'.Down where
  toBare := hd.toBare.step hd.barred hs
  barred := hd.barred.step hs
  supervised := by
    have hsupervised := hd.supervised
    cases step_does hs with
    | loaded hsup | woken hsup | acquired hsup | replaced hsup | drained hsup | attempted hsup
    | reconnected hsup | again hsup =>
      rw [Entry.supervised, hsup] at hsupervised
      cases hsupervised
    | returned => rfl
    | _ => exact hsupervised
  unstarted hnot hinstalled :=
    hd.unstarted (step_started hs hnot) (hd.barred.installed_step hs hinstalled)

theorem Over.step {act : Act} (ho : h.Over) (hs : h.step act = some h') : h'.Over where
  toDown := ho.toDown.step hs
  pumps := by
    have hpumps := ho.pumps
    cases step_does hs with
    | installed hi hcancelled => exact (ho.barred.not_live hi rfl rfl hcancelled).elim
    | pumpEnded client =>
      change h.pumps.filter _ = []
      rw [hpumps]
      rfl
    | _ => exact hpumps

theorem Quiet.step {act : Act} (hq : h.Quiet) (hb : h.Barred) (hs : h.step act = some h') : h'.Quiet := by
  have hquiet : ∀ {i : ℕ} {a : Attempt}, h.attempts[i]? = some a → a.phase.quiet = true :=
    fun hi => hq _ (List.mem_of_getElem? hi)
  intro b hmem
  obtain ⟨j, hj⟩ := List.mem_iff_getElem?.mp hmem
  cases step_does hs with
  | unconnected hi =>
    rcases getElem?_setAttempt hi hj with ⟨-, rfl⟩ | ⟨-, hj⟩
    · rfl
    · exact hquiet hj
  | checked hi hcancelled => exact (hb.not_live hi rfl rfl hcancelled).elim
  | connected hi | installed hi | aborted hi | closed hi => cases hquiet hi
  | @cancelled i a hi =>
    rcases getElem?_set_eq_some hj with ⟨-, rfl⟩ | ⟨-, hj⟩
    · exact (hquiet hi :)
    · exact hquiet hj
  | attempted hsup hcancelled =>
    rw [hb.cancelled (by simp [hsup])] at hcancelled
    cases hcancelled
  | _ => exact hquiet hj

theorem Held.step {act : Act} {r : ℕ} {client : Option ℕ} (hheld : h.Held r client) (ht : h.Tracked)
    (hs : h.step act = some h') : h'.Held r client := by
  have hgate := hheld.gate
  have hcancelled := hheld.cancelled
  cases step_does hs with
  | installed hi hlive =>
    rw [hlive] at hcancelled
    cases hcancelled
  | acquired hsup hlive =>
    rw [hlive] at hcancelled
    cases hcancelled
  | drained hsup =>
    rw [(ht.holding (by rw [hsup]; rfl)).2] at hgate
    cases hgate
  | _ => exact ⟨hcancelled, hgate, hheld.client⟩

/-- An entry with nothing left of it but calls that have no client has no client. -/
theorem Over.clients_eq_nil (ho : h.Over) (hq : h.Quiet) : h.clients = [] := by
  refine List.eq_nil_iff_forall_not_mem.mpr fun j hj => ?_
  obtain ⟨i, a, hi, hclient⟩ := ho.clients j hj
  have hquiet := hq a (List.mem_of_getElem? hi)
  cases hphase : a.phase with
  | factory | checked | ended =>
    rw [hphase] at hclient
    cases hclient
  | handshake | closing =>
    rw [hphase] at hquiet
    cases hquiet

/-- The first call of `OpenHostCoreAsync` fails, or is abandoned. -/
theorem Tracked.isOver (ht : h.Tracked) (hnot : h.supervise = .notStarted) {a : Attempt}
    (hi : h.attempts[0]? = some a) (ha : a.phase ≠ .ended true)
    (hover : a.phase = .ended false ∨ a.cancelled = true ∨ h.cancelled = true) : h.Over := by
  have hfails := not_installed hi ha
  obtain ⟨hclient, hpumps⟩ := ht.vacant 0 (.inr ⟨hnot, rfl⟩) hfails
  refine ⟨⟨⟨by rw [hnot]; rfl, fun j hj => ?_⟩, ?_, by rw [supervised, hnot], fun _ => hfails⟩, hpumps⟩
  · rcases ht.alive j hj with hother | hcall | hreplacing
    · rw [hclient] at hother
      cases hother
    · exact hcall
    · cases hnot.symm.trans hreplacing
  · cases hcancelled : h.cancelled with
    | true => exact .inl hcancelled
    | false =>
      refine .inr ⟨hnot, fun j b hj => ?_⟩
      by_contra hlive
      rw [not_or, Bool.not_eq_true, Bool.not_eq_true] at hlive
      have hawaits := ht.live j b hj hlive.1 hlive.2 hcancelled
      cases hawaits.unique (.inr ⟨hnot, rfl⟩)
      cases hi.symm.trans hj
      rcases hover with hover | hover | hover
      · rw [hover] at hlive
        cases hlive.1
      · rw [hover] at hlive
        cases hlive.2
      · rw [hover] at hcancelled
        cases hcancelled

/-- `client.ShutdownAsync` of a call that has the gate. -/
theorem Held.closed {r : ℕ} {client : Option ℕ} (hheld : h.Held r client) (ht : h.Tracked) :
    (h.shutdownClient client).Closed := by
  have hreleased : h.supervise.holds = false := by
    refine Bool.eq_false_iff.mpr fun hholds => ?_
    have hgate := (ht.holding hholds).2
    rw [hheld.gate] at hgate
    cases hgate
  have hcalls : ∀ j ∈ h.clients, h.client ≠ some j →
      ∃ (i : ℕ) (a : Attempt), h.attempts[i]? = some a ∧ a.phase.client? = some j := by
    intro j hj hne
    rcases ht.alive j hj with hclient | hcall | hreplacing
    · exact absurd hclient hne
    · exact hcall
    · rw [hreplacing] at hreleased
      cases hreleased
  have hclient := hheld.client
  cases client with
  | none => exact ⟨⟨hreleased, fun j hj => hcalls j hj (by rw [hclient]; simp)⟩, hheld.cancelled⟩
  | some client =>
    refine ⟨⟨hreleased, fun j hj => ?_⟩, hheld.cancelled⟩
    obtain ⟨hj, hne⟩ := List.mem_filter.mp hj
    refine hcalls j hj ?_
    rw [hclient]
    exact fun heq => of_decide_eq_true hne (Option.some.inj heq).symm

/-! ### What is kept when an entry changes -/

/-- What is known of an entry on the way down is known of it later. -/
structure Advances (h h' : Entry) : Prop where
  id : h'.id = h.id
  owner : h'.owner = h.owner
  cancelled : h.cancelled = true → h'.cancelled = true
  closed : h.Closed → h'.Closed
  down : h.Down → h'.Down
  done : h.Over → h'.Over
  quiet : h.Over → h.Quiet → h'.Quiet

theorem Advances.trans {h'' : Entry} (ha : Advances h h') (hb : Advances h' h'') : Advances h h'' where
  id := hb.id.trans ha.id
  owner := hb.owner.trans ha.owner
  cancelled hcancelled := hb.cancelled (ha.cancelled hcancelled)
  closed hc := hb.closed (ha.closed hc)
  down hd := hb.down (ha.down hd)
  done ho := hb.done (ha.done ho)
  quiet ho hq := hb.quiet (ha.done ho) (ha.quiet ho hq)

theorem advances_step {act : Act} (hs : h.step act = some h') : Advances h h' where
  id := step_id hs
  owner := step_owner hs
  cancelled hcancelled := by rw [step_cancelled hs, hcancelled]
  closed hc := hc.step hs
  down hd := hd.step hs
  done ho := ho.step hs
  quiet ho hq := hq.step ho.barred hs

theorem advances_cancel (h : Entry) : Advances h h.cancel where
  id := rfl
  owner := rfl
  cancelled _ := rfl
  closed hc := ⟨⟨hc.released, hc.clients⟩, rfl⟩
  down hd := ⟨⟨hd.released, hd.clients⟩, .inl rfl, hd.supervised, hd.unstarted⟩
  done ho := ⟨⟨⟨ho.released, ho.clients⟩, .inl rfl, ho.supervised, ho.unstarted⟩, ho.pumps⟩
  quiet _ hq := hq

theorem advances_dispose (h : Entry) : Advances h h.dispose where
  id := rfl
  owner := rfl
  cancelled hcancelled := hcancelled
  closed hc := ⟨⟨hc.released, hc.clients⟩, hc.cancelled⟩
  down hd := ⟨⟨hd.released, hd.clients⟩, hd.barred, hd.supervised, hd.unstarted⟩
  done ho := ⟨⟨⟨ho.released, ho.clients⟩, ho.barred, ho.supervised, ho.unstarted⟩, ho.pumps⟩
  quiet _ hq := hq

theorem advances_setGate (h : Entry) (gate : Option Holder) : Advances h { h with gate := gate } where
  id := rfl
  owner := rfl
  cancelled hcancelled := hcancelled
  closed hc := ⟨⟨hc.released, hc.clients⟩, hc.cancelled⟩
  down hd := ⟨⟨hd.released, hd.clients⟩, hd.barred, hd.supervised, hd.unstarted⟩
  done ho := ⟨⟨⟨ho.released, ho.clients⟩, ho.barred, ho.supervised, ho.unstarted⟩, ho.pumps⟩
  quiet _ hq := hq

theorem advances_shutdownClient (h : Entry) (client : Option ℕ) :
    Advances h (h.shutdownClient client) := by
  cases client with
  | none => exact ⟨rfl, rfl, fun hc => hc, fun hc => hc, fun hd => hd, fun ho => ho, fun _ hq => hq⟩
  | some client =>
    have hbare : h.Bare → Bare (h.shutdownClient (some client)) := fun hbare =>
      ⟨hbare.released, fun j hj => hbare.clients j (List.mem_of_mem_filter hj)⟩
    exact ⟨rfl, rfl, fun hc => hc, fun hc => ⟨hbare hc.toBare, hc.cancelled⟩,
      fun hd => ⟨hbare hd.toBare, hd.barred, hd.supervised, hd.unstarted⟩,
      fun ho => ⟨⟨hbare ho.toBare, ho.barred, ho.supervised, ho.unstarted⟩, ho.pumps⟩, fun _ hq => hq⟩

/-- The supervisor of an entry on the way down is not started behind the back of the call. -/
theorem advances_start (hnot : h.supervise = .notStarted) (hinstalled : h.Installed 0) :
    Advances h h.start where
  id := rfl
  owner := rfl
  cancelled hcancelled := hcancelled
  closed hc := ⟨⟨rfl, hc.clients⟩, hc.cancelled⟩
  down hd := absurd hinstalled (hd.unstarted hnot)
  done ho := absurd hinstalled (ho.unstarted hnot)
  quiet _ hq := hq

end Entry

end AgentHostProtocol.Dotnet.Hosts.Registry
