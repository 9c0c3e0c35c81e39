import AgentHostProtocol.Go.Hosts.Host

/-!
# Reconnect attempts of the Go supervisor

Which policies the supervisor honours. Passed to `AddHost`, a policy `p` asks for no attempt
after the first one if it is disabled; otherwise for a wait of `backoffFor k` before the
attempt that is the `k`-th consecutive one, where a successful reconnect ends the count only
with `ResetOnSuccess`, and for at most `MaxAttempts` consecutive ones.

* `retries_obey_iff` — every run does what `p` asks for exactly if `p` is `Honoured`.

`AddHost` takes the zero value, which is also `DisabledReconnectPolicy()`, for the default
policy. The counter of `supervise` is a variable of one outage: it restarts at 1 after every
drop, with or without `ResetOnSuccess`. And `attempt++` wraps around, so a cap of `2³² - 1`
is never passed.
-/

namespace AgentHostProtocol.Go.Hosts

open Library ReconnectPolicy

variable {F : Type} [Float64 F]

/-! ### What a policy asks for -/

/-- The number of consecutive retries after one more event. -/
def consecutive (p : ReconnectPolicy F) (k : ℕ) : Retry → ℕ
  | .attempt _ => k + 1
  | .reconnected => if p.resetOnSuccess then 0 else k
  | .gaveUp => k

/-- The attempts of a trace come after the waits of the policy and within its cap, when `k`
consecutive retries were made before. -/
def Meets (p : ReconnectPolicy F) : ℕ → List Retry → Prop
  | _, [] => True
  | k, r :: rest =>
    (∀ wait, r = .attempt wait → wait = p.backoffFor (UInt32.ofNat (k + 1)) ∧
      (0 < p.maxAttempts → k + 1 ≤ p.maxAttempts.toNat)) ∧ Meets p (consecutive p k r) rest

/-- What the trace of a host owes the policy that was passed to `AddHost`. -/
def Obeys (p : ReconnectPolicy F) (retries : List Retry) : Prop :=
  if p.isDisabled then ∀ wait, .attempt wait ∉ retries else Meets p 0 retries

/-- A run of a host that was given the policy `p`: `AddHost` opens it and starts the
supervisor. -/
def Supervised (p : ReconnectPolicy F) (h : Host F) : Prop :=
  ∃ id owner before opened after, runs Host.step (Host.new id owner p.registered false) before = some opened ∧
    opened.opening = .opened ∧ runs Host.step opened.start after = some h

/-- Every backoff of the policy is its first one. -/
def ConstantBackoff (p : ReconnectPolicy F) : Prop := ∀ attempt, p.backoffFor attempt = p.backoffFor 1

/-- The policies that the supervisor honours. -/
def Honoured (p : ReconnectPolicy F) : Prop :=
  p.isZeroValue = false ∧
    (p.isDisabled = true ∨
      p.maxAttempts.toNat + 1 ≠ UInt32.size ∧
        (p.resetOnSuccess = true ∨ p.maxAttempts = 0 ∧ ConstantBackoff p))

theorem meets_append {p : ReconnectPolicy F} {k : ℕ} {rs qs : List Retry} :
    Meets p k (rs ++ qs) ↔ Meets p k rs ∧ Meets p (rs.foldl (consecutive p) k) qs := by
  induction rs generalizing k with
  | nil => simp [Meets]
  | cons r rs ih => simp only [List.cons_append, Meets, ih, List.foldl_cons, and_assoc]

theorem meets_singleton {p : ReconnectPolicy F} {k : ℕ} {r : Retry} :
    Meets p k [r] ↔ ∀ wait, r = .attempt wait → wait = p.backoffFor (UInt32.ofNat (k + 1)) ∧
      (0 < p.maxAttempts → k + 1 ≤ p.maxAttempts.toNat) := by
  simp [Meets]

/-! ### Before the supervisor runs -/

/-- A host whose supervisor has not started has made no retry. -/
structure Unstarted (p : ReconnectPolicy F) (h : Host F) : Prop where
  supervise : h.supervise = .notStarted
  retries : h.retries = []
  policy : h.policy = p
  /-- `AddHost` has installed no client before `openHost` returns. -/
  client : h.opening = .opened → ∃ j, h.client = some j ∧ j < h.clients.length
  handshake : ∀ j, h.opening = .handshake j → j < h.clients.length
  cancelled : h.cancelled = false

theorem unstarted_step {p : ReconnectPolicy F} {h h' : Host F} {a : Host.Act} (hu : Unstarted p h)
    (hs : h.step a = some h') : Unstarted p h' := by
  obtain ⟨hsup, hret, hpol, hcl, hhs, hcan⟩ := hu
  cases a with
  | connect ok =>
    simp only [Host.step] at hs
    split at hs
    · cases ok <;> cases hs
      · exact ⟨hsup, hret, hpol, by simp, by simp, hcan⟩
      · exact ⟨hsup, hret, hpol, by simp, by simp, hcan⟩
    · cases hs
  | initialized ok =>
    simp only [Host.step] at hs
    split at hs
    · next client hopening =>
      cases ok <;> cases hs
      · exact ⟨hsup, hret, hpol, by simp, by simp, hcan⟩
      · exact ⟨hsup, hret, hpol, fun _ => ⟨client, rfl, hhs client hopening⟩, by simp, hcan⟩
    · cases hs
  | drop client =>
    simp only [Host.step] at hs
    split at hs
    · cases hs
      exact ⟨hsup, hret, hpol, by simpa [Host.shutdownClient] using hcl,
        by simpa [Host.shutdownClient] using hhs, hcan⟩
    · cases hs
  | _ => simp [Host.step, hsup] at hs

omit [Float64 F] in
theorem unstarted_new (id : String) (owner : ℕ) (p : ReconnectPolicy F) :
    Unstarted p (Host.new id owner p false) :=
  ⟨rfl, rfl, rfl, by simp [Host.new], by simp [Host.new], rfl⟩

/-! ### Policies that are honoured -/

/-- The consecutive retries of a trace. -/
def counted (p : ReconnectPolicy F) (retries : List Retry) : ℕ := retries.foldl (consecutive p) 0

omit [Float64 F] in
theorem counted_concat (p : ReconnectPolicy F) (retries : List Retry) (r : Retry) :
    counted p (retries ++ [r]) = consecutive p (counted p retries) r := by
  rw [counted, List.foldl_append, List.foldl_cons, List.foldl_nil]
  rfl

theorem meets_concat {p : ReconnectPolicy F} {retries : List Retry} {r : Retry} :
    Meets p 0 (retries ++ [r]) ↔ Meets p 0 retries ∧
      ∀ wait, r = .attempt wait → wait = p.backoffFor (UInt32.ofNat (counted p retries + 1)) ∧
        (0 < p.maxAttempts → counted p retries + 1 ≤ p.maxAttempts.toNat) := by
  rw [meets_append, meets_singleton]
  rfl

/-- The counter of the supervisor against the number of consecutive retries. -/
def InStep (p : ReconnectPolicy F) (k : ℕ) : Supervise → Prop
  | .waiting a => a = UInt32.ofNat (k + 1) ∧ (0 < p.maxAttempts → k + 1 ≤ p.maxAttempts.toNat)
  | .opening a => a = UInt32.ofNat k ∧ (0 < p.maxAttempts → k ≤ p.maxAttempts.toNat)
  | .notStarted | .returned => True
  | _ => k = 0

omit [Float64 F] in
theorem InStep.of_steady {p : ReconnectPolicy F} {k : ℕ} {sup : Supervise} (hsteady : Host.Steady sup)
    (h : InStep p k sup) : k = 0 := by
  cases sup with
  | loading => exact h
  | watching client => exact h
  | dropped client => exact h
  | _ => cases hsteady

omit [Float64 F] in
theorem inStep_of_steady {p : ReconnectPolicy F} {sup : Supervise} (hsteady : Host.Steady sup) :
    InStep p 0 sup := by
  cases sup with
  | loading => exact rfl
  | watching client => exact rfl
  | dropped client => exact rfl
  | _ => cases hsteady

/-- What is kept with a policy that resets the count. -/
def Counts (p : ReconnectPolicy F) (h : Host F) : Prop :=
  h.policy = p ∧ Meets p 0 h.retries ∧ InStep p (counted p h.retries) h.supervise

/-- One more failed attempt that is not over the cap does not wrap the counter around. -/
theorem toNat_succ_le {max : UInt32} {k : ℕ} (hmax : max.toNat + 1 ≠ UInt32.size) (hk : k ≤ max.toNat)
    (hle : ¬ max < UInt32.ofNat k + 1) : k + 1 ≤ max.toNat := by
  have hlt : max.toNat < UInt32.size := max.toNat_lt
  rw [UInt32.size] at hmax hlt
  have hsucc : (UInt32.ofNat k + 1).toNat = k + 1 := by
    rw [UInt32.toNat_add, UInt32.toNat_ofNat']
    have hone : (1 : UInt32).toNat = 1 := rfl
    rw [hone]
    omega
  rw [UInt32.lt_iff_toNat_lt, hsucc] at hle
  omega

theorem counts_step {p : ReconnectPolicy F} (hreset : p.resetOnSuccess = true)
    (hmax : p.maxAttempts.toNat + 1 ≠ UInt32.size) {h h' : Host F} {a : Host.Act} (hc : Counts p h)
    (hs : h.step a = some h') : Counts p h' := by
  obtain ⟨hpolicy, hmeets, hin⟩ := hc
  obtain ⟨hsame, hprogress⟩ := Host.step_progress hs
  refine ⟨hsame.policy.trans hpolicy, ?_⟩
  cases hprogress with
  | idle hsup hret =>
    rw [hsup, hret]
    exact ⟨hmeets, hin⟩
  | watch hsteady hsteady' hret =>
    rw [hret]
    refine ⟨hmeets, ?_⟩
    rw [hin.of_steady hsteady]
    exact inStep_of_steady hsteady'
  | ends _ hsup hret =>
    rw [hsup]
    refine ⟨?_, trivial⟩
    rcases hret with hret | hret
    · rw [hret]
      exact hmeets
    · rw [hret, meets_concat]
      exact ⟨hmeets, fun wait hr => by cases hr⟩
  | outage hsteady hdisabled hsup hret =>
    rw [hret, hsup, hin.of_steady hsteady]
    refine ⟨hmeets, rfl, fun hpos => ?_⟩
    rw [UInt32.lt_iff_toNat_lt] at hpos
    exact hpos
  | attempt a hsup hsup' hret =>
    rw [hsup] at hin
    obtain ⟨rfl, hcap⟩ := hin
    rw [hret, hsup', meets_concat, counted_concat, hpolicy]
    refine ⟨⟨hmeets, ?_⟩, rfl, hcap⟩
    rintro wait ⟨⟩
    exact ⟨rfl, hcap⟩
  | reconnected a hsup hsup' hret =>
    rw [hret, hsup', meets_concat, counted_concat]
    refine ⟨⟨hmeets, fun wait hr => by cases hr⟩, ?_⟩
    exact if_pos hreset
  | again a hsup hmore hsup' hret =>
    rw [hsup] at hin
    obtain ⟨rfl, hcap⟩ := hin
    rw [hpolicy] at hmore
    rw [hret, hsup']
    refine ⟨hmeets, ?_, fun hpos => ?_⟩
    · rw [UInt32.ofNat_add]
      rfl
    · exact toNat_succ_le hmax (hcap hpos) fun hlt => hmore ⟨hpos, hlt⟩

/-- With one backoff for all attempts and no cap there is nothing to count. -/
theorem meets_of_constant {p : ReconnectPolicy F} (hmax : p.maxAttempts = 0)
    (hconst : ConstantBackoff p) {h h' : Host F} {a : Host.Act}
    (hm : h.policy = p ∧ Meets p 0 h.retries) (hs : h.step a = some h') :
    h'.policy = p ∧ Meets p 0 h'.retries := by
  obtain ⟨hpolicy, hmeets⟩ := hm
  obtain ⟨hsame, hprogress⟩ := Host.step_progress hs
  refine ⟨hsame.policy.trans hpolicy, ?_⟩
  have happend : ∀ r, h'.retries = h.retries ++ [r] →
      (∀ wait, r = .attempt wait → ∃ a, wait = p.backoffFor a) → Meets p 0 h'.retries := by
    intro r hret hwait
    rw [hret, meets_concat]
    refine ⟨hmeets, fun wait hr => ⟨?_, fun hpos => ?_⟩⟩
    · obtain ⟨a, rfl⟩ := hwait wait hr
      exact (hconst a).trans (hconst _).symm
    · rw [hmax] at hpos
      exact absurd hpos (by decide)
  cases hprogress with
  | idle _ hret => rw [hret]; exact hmeets
  | watch _ _ hret => rw [hret]; exact hmeets
  | outage _ _ _ hret => rw [hret]; exact hmeets
  | again _ _ _ _ hret => rw [hret]; exact hmeets
  | ends _ _ hret =>
    rcases hret with hret | hret
    · rw [hret]
      exact hmeets
    · exact happend _ hret fun wait hr => by cases hr
  | attempt a _ _ hret =>
    refine happend _ hret ?_
    rintro wait ⟨⟩
    exact ⟨a, by rw [hpolicy]⟩
  | reconnected _ _ _ hret => exact happend _ hret fun wait hr => by cases hr

/-- A disabled policy never gets to a wait. -/
theorem no_attempt_step {p : ReconnectPolicy F} (hdisabled : p.isDisabled = true) {h h' : Host F}
    {a : Host.Act}
    (hi : h.policy = p ∧ (∀ wait, .attempt wait ∉ h.retries) ∧
      ∀ n, h.supervise ≠ .waiting n ∧ h.supervise ≠ .opening n) (hs : h.step a = some h') :
    h'.policy = p ∧ (∀ wait, .attempt wait ∉ h'.retries) ∧
      ∀ n, h'.supervise ≠ .waiting n ∧ h'.supervise ≠ .opening n := by
  obtain ⟨hpolicy, hnone, hsup⟩ := hi
  obtain ⟨hsame, hprogress⟩ := Host.step_progress hs
  refine ⟨hsame.policy.trans hpolicy, ?_⟩
  cases hprogress with
  | idle hsup' hret =>
    rw [hsup', hret]
    exact ⟨hnone, hsup⟩
  | watch _ hsteady' hret =>
    rw [hret]
    refine ⟨hnone, fun n => ⟨fun h => ?_, fun h => ?_⟩⟩ <;> rw [h] at hsteady' <;> exact hsteady'
  | ends _ hsup' hret =>
    rw [hsup']
    refine ⟨fun wait => ?_, by simp⟩
    rcases hret with hret | hret <;> simp [hret, hnone wait]
  | outage _ henabled _ _ =>
    rw [hpolicy, hdisabled] at henabled
    cases henabled
  | attempt n hwaiting _ _ => exact absurd hwaiting (hsup n).1
  | reconnected n hopening _ _ => exact absurd hopening (hsup n).2
  | again n hopening _ _ _ => exact absurd hopening (hsup n).2

theorem registered_of_not_zero {p : ReconnectPolicy F} (h : p.isZeroValue = false) :
    p.registered = p := by
  rw [registered, h]
  rfl

/-- The supervisor does what a policy that it honours asks for. -/
theorem obeys_of_honoured {p : ReconnectPolicy F} (hp : Honoured p) {h : Host F}
    (hh : Supervised p h) : Obeys p h.retries := by
  obtain ⟨hzero, hp⟩ := hp
  obtain ⟨id, owner, before, opened, after, hbefore, hopened, hafter⟩ := hh
  rw [registered_of_not_zero hzero] at hbefore
  have hu := runs_kept Host.step unstarted_step (unstarted_new id owner p) hbefore
  have hpolicy : opened.start.policy = p := hu.policy
  have hret : opened.start.retries = [] := hu.retries
  by_cases hdisabled : p.isDisabled = true
  · rw [Obeys, if_pos hdisabled]
    have hstart : opened.start.policy = p ∧ (∀ wait, .attempt wait ∉ opened.start.retries) ∧
        ∀ n, opened.start.supervise ≠ .waiting n ∧ opened.start.supervise ≠ .opening n :=
      ⟨hpolicy, by simp [hret], by simp [Host.start]⟩
    exact (runs_kept Host.step (no_attempt_step hdisabled) hstart hafter).2.1
  · rw [Obeys, if_neg hdisabled]
    rcases hp with hp | ⟨hmax, hreset | ⟨hunlimited, hconst⟩⟩
    · exact absurd hp hdisabled
    · have hstart : Counts p opened.start :=
        ⟨hpolicy, by rw [hret]; trivial, by rw [hret]; rfl⟩
      exact (runs_kept Host.step (counts_step hreset hmax) hstart hafter).2.1
    · have hstart : opened.start.policy = p ∧ Meets p 0 opened.start.retries :=
        ⟨hpolicy, by rw [hret]; trivial⟩
      exact (runs_kept Host.step (meets_of_constant hunlimited hconst) hstart hafter).2

/-! ### Policies that are not -/

/-- `h'` is reached from `h`. -/
def Reaches (h h' : Host F) : Prop := ∃ actions, runs Host.step h actions = some h'

theorem Reaches.trans {h h' h'' : Host F} (h₁ : Reaches h h') (h₂ : Reaches h' h'') :
    Reaches h h'' := by
  obtain ⟨as, has⟩ := h₁
  obtain ⟨bs, hbs⟩ := h₂
  exact ⟨as ++ bs, (runs_append_eq_some Host.step).mpr ⟨h', has, hbs⟩⟩

/-- A connected host that made the given retries. -/
structure Connected (q : ReconnectPolicy F) (retries : List Retry) (h : Host F) : Prop where
  policy : h.policy = q
  retries : h.retries = retries
  cancelled : h.cancelled = false
  supervise : h.supervise = .loading
  client : ∃ j, h.client = some j ∧ j < h.clients.length

/-- A host that waits for an attempt. -/
structure Waits (q : ReconnectPolicy F) (retries : List Retry) (a : UInt32) (h : Host F) : Prop where
  policy : h.policy = q
  retries : h.retries = retries
  cancelled : h.cancelled = false
  supervise : h.supervise = .waiting a

variable {q : ReconnectPolicy F} {retries : List Retry} {h : Host F}

/-- A connected host can drop. -/
theorem Connected.drops (hc : Connected q retries h) (henabled : q.isDisabled = false) :
    ∃ h', Reaches h h' ∧ Waits q retries 1 h' := by
  obtain ⟨hpolicy, hret, hcancelled, hsup, j, hj, hlt⟩ := hc
  refine ⟨{ h with supervise := .waiting 1, clients := (h.clients.set j true).set j true },
    ⟨[.load, .drop j, .done, .check], ?_⟩, ⟨hpolicy, hret, hcancelled, rfl⟩⟩
  simp [runs, Host.step, Host.shutdownClient, Host.afterDrop, hsup, hj, hlt, hcancelled, hpolicy,
    henabled]

/-- An attempt can begin. -/
theorem Waits.attempts {a : UInt32} (hw : Waits q retries a h) :
    ∃ h', Reaches h h' ∧ h'.retries = retries ++ [.attempt (q.backoffFor a)] := by
  obtain ⟨hpolicy, hret, -, hsup⟩ := hw
  refine ⟨{ h with
      opening := .connecting
      supervise := .opening a
      retries := h.retries ++ [.attempt (h.policy.backoffFor a)] }, ⟨[.timer], ?_⟩, ?_⟩
  · simp [runs, Host.step, hsup]
  · rw [hret, hpolicy]

/-- It can succeed. -/
theorem Waits.reconnects {a : UInt32} (hw : Waits q retries a h) :
    ∃ h', Reaches h h' ∧ Connected q (retries ++ [.attempt (q.backoffFor a), .reconnected]) h' := by
  obtain ⟨hpolicy, hret, hcancelled, hsup⟩ := hw
  refine ⟨{ h with
      client := some h.clients.length
      clients := h.clients ++ [false]
      opening := .idle
      supervise := .loading
      retries := h.retries ++ [.attempt (h.policy.backoffFor a)] ++ [.reconnected] },
    ⟨[.timer, .connect true, .initialized true, .resume], ?_⟩,
    ⟨hpolicy, ?_, hcancelled, rfl, h.clients.length, rfl, ?_⟩⟩
  · simp [runs, Host.step, hsup]
  · simp [hret, hpolicy]
  · simp

/-- It can fail, and if that was not the last one the host waits again. -/
theorem Waits.fails {a : UInt32} (hw : Waits q retries a h)
    (hmore : ¬ (0 < q.maxAttempts ∧ q.maxAttempts < a + 1)) :
    ∃ h', Reaches h h' ∧ Waits q (retries ++ [.attempt (q.backoffFor a)]) (a + 1) h' := by
  obtain ⟨hpolicy, hret, hcancelled, hsup⟩ := hw
  refine ⟨{ h with
      opening := .idle
      supervise := .waiting (a + 1)
      retries := h.retries ++ [.attempt (h.policy.backoffFor a)] },
    ⟨[.timer, .connect false, .resume], ?_⟩, ⟨hpolicy, ?_, hcancelled, rfl⟩⟩
  · subst hpolicy
    simp [runs, Host.step, Host.retry, hsup, hmore]
  · simp [hret, hpolicy]

/-- The host right after `AddHost`. -/
def added (p : ReconnectPolicy F) : Host F :=
  { Host.new "h" 0 p.registered false with
    client := some 0, clients := [false], opening := .idle, supervise := .loading }

theorem added_connected (p : ReconnectPolicy F) : Connected p.registered [] (added p) :=
  ⟨rfl, rfl, rfl, rfl, 0, rfl, Nat.zero_lt_one⟩

theorem supervised_of_reaches {p : ReconnectPolicy F} (h : Reaches (added p) h') :
    Supervised p h' := by
  obtain ⟨after, hafter⟩ := h
  exact ⟨"h", 0, [.connect true, .initialized true],
    { Host.new "h" 0 p.registered false with
      client := some 0, clients := [false], opening := .opened },
    after, rfl, rfl, hafter⟩

/-- Without `ResetOnSuccess` any number of outages leaves that number of retries to count. -/
theorem outages {p : ReconnectPolicy F} (hzero : p.isZeroValue = false)
    (henabled : p.isDisabled = false) (hreset : p.resetOnSuccess = false) (m : ℕ) :
    ∃ h retries, Reaches (added p) h ∧ Connected p retries h ∧ counted p retries = m := by
  induction m with
  | zero =>
    have hc := added_connected p
    rw [registered_of_not_zero hzero] at hc
    exact ⟨added p, [], ⟨[], rfl⟩, hc, rfl⟩
  | succ m ih =>
    obtain ⟨h, retries, hreach, hc, hcounted⟩ := ih
    obtain ⟨h₁, hreach₁, hw⟩ := hc.drops henabled
    obtain ⟨h₂, hreach₂, hc₂⟩ := hw.reconnects
    refine ⟨h₂, _, (hreach.trans hreach₁).trans hreach₂, hc₂, ?_⟩
    rw [List.append_cons, counted_concat, counted_concat, hcounted]
    simp [consecutive, hreset]

/-- The counter never passes a cap of `2³² - 1`. -/
theorem failures {p : ReconnectPolicy F} (hzero : p.isZeroValue = false)
    (henabled : p.isDisabled = false) (hmax : p.maxAttempts.toNat + 1 = UInt32.size) (m : ℕ) :
    ∃ h retries a, Reaches (added p) h ∧ Waits p retries a h ∧ counted p retries = m := by
  induction m with
  | zero =>
    have hc := added_connected p
    rw [registered_of_not_zero hzero] at hc
    obtain ⟨h, hreach, hw⟩ := hc.drops henabled
    exact ⟨h, [], 1, hreach, hw, rfl⟩
  | succ m ih =>
    obtain ⟨h, retries, a, hreach, hw, hcounted⟩ := ih
    have hmore : ¬ (0 < p.maxAttempts ∧ p.maxAttempts < a + 1) := by
      rintro ⟨-, hlt⟩
      rw [UInt32.lt_iff_toNat_lt] at hlt
      have hle : (a + 1).toNat < UInt32.size := (a + 1).toNat_lt
      omega
    obtain ⟨h', hreach', hw'⟩ := hw.fails hmore
    refine ⟨h', _, _, hreach.trans hreach', hw', ?_⟩
    rw [counted_concat, hcounted]
    rfl

/-- What the next attempt of a waiting host has to be. -/
theorem Waits.owes {p : ReconnectPolicy F} {a : UInt32} (hw : Waits p retries a h)
    (hreach : Reaches (added p) h) (henabled : p.isDisabled = false)
    (hobeys : ∀ h, Supervised p h → Obeys p h.retries) :
    p.backoffFor a = p.backoffFor (UInt32.ofNat (counted p retries + 1)) ∧
      (0 < p.maxAttempts → counted p retries + 1 ≤ p.maxAttempts.toNat) := by
  obtain ⟨h', hreach', hret⟩ := hw.attempts
  have hmeets := hobeys h' (supervised_of_reaches (hreach.trans hreach'))
  rw [Obeys, if_neg (by simp [henabled]), hret, meets_concat] at hmeets
  exact hmeets.2 _ rfl

/-- The default policy that stands in for the zero value makes attempts. -/
theorem attempts_of_zero {p : ReconnectPolicy F} (hzero : p.isZeroValue = true) :
    ∃ h, Supervised p h ∧ ¬ Obeys p h.retries := by
  have hregistered : p.registered = defaultReconnectPolicy := by
    rw [registered, hzero]
    rfl
  have hc := added_connected p
  rw [hregistered] at hc
  obtain ⟨h, hreach, hw⟩ := hc.drops rfl
  obtain ⟨h', hreach', hret⟩ := hw.attempts
  refine ⟨h', supervised_of_reaches (hreach.trans hreach'), fun hobeys => ?_⟩
  have hdisabled : p.isDisabled = true := by
    simp only [isZeroValue, Bool.and_eq_true, decide_eq_true_eq] at hzero
    simp [isDisabled, hzero.1.1.1.2]
  rw [Obeys, if_pos hdisabled, hret] at hobeys
  exact hobeys _ List.mem_cons_self

/-- The first retry and a retry with the number 0 wait equally long. -/
theorem backoffFor_zero (p : ReconnectPolicy F) : p.backoffFor 0 = p.backoffFor 1 := rfl

/-- A policy that every run obeys is one that the supervisor honours. -/
theorem honoured_of_obeys {p : ReconnectPolicy F} (hobeys : ∀ h, Supervised p h → Obeys p h.retries) :
    Honoured p := by
  have hzero : p.isZeroValue = false := by
    rw [Bool.eq_false_iff]
    intro hzero
    obtain ⟨h, hh, hnot⟩ := attempts_of_zero hzero
    exact hnot (hobeys h hh)
  refine ⟨hzero, ?_⟩
  by_cases hdisabled : p.isDisabled = true
  · exact .inl hdisabled
  have henabled : p.isDisabled = false := Bool.eq_false_iff.mpr hdisabled
  refine .inr ⟨fun hmax => ?_, ?_⟩
  · obtain ⟨h, retries, a, hreach, hw, hcounted⟩ := failures hzero henabled hmax p.maxAttempts.toNat
    have hpos : 0 < p.maxAttempts.toNat := by
      rw [UInt32.size] at hmax
      omega
    have hcap := (hw.owes hreach henabled hobeys).2 (UInt32.lt_iff_toNat_lt.mpr hpos)
    omega
  · by_cases hreset : p.resetOnSuccess = true
    · exact .inl hreset
    have howes : ∀ m, p.backoffFor 1 = p.backoffFor (UInt32.ofNat (m + 1)) ∧
        (0 < p.maxAttempts → m + 1 ≤ p.maxAttempts.toNat) := by
      intro m
      obtain ⟨h, retries, hreach, hc, hcounted⟩ :=
        outages hzero henabled (Bool.eq_false_iff.mpr hreset) m
      obtain ⟨h', hreach', hw⟩ := hc.drops henabled
      have hnext := hw.owes (hreach.trans hreach') henabled hobeys
      rwa [hcounted] at hnext
    refine .inr ⟨?_, fun a => ?_⟩
    · by_contra hmax
      have hcap := (howes p.maxAttempts.toNat).2 (UInt32.pos_iff_ne_zero.mpr hmax)
      omega
    · by_cases ha : a = 0
      · rw [ha, backoffFor_zero]
      · have hpos : a.toNat - 1 + 1 = a.toNat := by
          have hne : a.toNat ≠ 0 := fun h => ha (UInt32.toNat_inj.mp h)
          omega
        have hwait := (howes (a.toNat - 1)).1
        rw [hpos, UInt32.ofNat_toNat] at hwait
        exact hwait.symm

/-- The supervisor does what `p` asks for in every run exactly if `p` is honoured. -/
theorem retries_obey_iff (p : ReconnectPolicy F) :
    (∀ h, Supervised p h → Obeys p h.retries) ↔ Honoured p :=
  ⟨honoured_of_obeys, fun hp _ hh => obeys_of_honoured hp hh⟩

/-- `DisabledReconnectPolicy`. -/
def disabledReconnectPolicy : ReconnectPolicy ℤ where
  maxAttempts := 0
  initialBackoff := 0
  maxBackoff := 0
  backoffMultiplier := 0
  resetOnSuccess := false

/-- The default policy, capped at one attempt and not reset by a success. -/
def onceReconnectPolicy : ReconnectPolicy ℤ :=
  { defaultReconnectPolicy with maxAttempts := 1, resetOnSuccess := false }

/-- The policy that disables reconnection is given an attempt after the first drop, and the one
that allows a single attempt a second one, with the first backoff again, after the second drop. -/
theorem policies_not_honoured :
    ¬ (∀ h, Supervised disabledReconnectPolicy h → Obeys disabledReconnectPolicy h.retries) ∧
      ¬ ∀ h, Supervised onceReconnectPolicy h → Obeys onceReconnectPolicy h.retries := by
  constructor
  · intro hobeys
    have hruns : runs Host.step (added disabledReconnectPolicy) [.load, .drop 0, .done, .check, .timer] =
        some { added disabledReconnectPolicy with
          clients := [true], opening := .connecting, supervise := .opening 1,
          retries := [.attempt second] } := rfl
    have hnone := hobeys _ (supervised_of_reaches ⟨_, hruns⟩)
    rw [Obeys, if_pos (by decide)] at hnone
    exact hnone second List.mem_cons_self
  · intro hobeys
    have hruns : runs Host.step (added onceReconnectPolicy)
          [.load, .drop 0, .done, .check, .timer, .connect true, .initialized true, .resume,
            .load, .drop 1, .done, .check, .timer] =
        some { added onceReconnectPolicy with
          client := some 1, clients := [true, true], opening := .connecting, supervise := .opening 1,
          retries := [.attempt second, .reconnected, .attempt second] } := rfl
    have hmeets := hobeys _ (supervised_of_reaches ⟨_, hruns⟩)
    rw [Obeys, if_neg (by decide)] at hmeets
    have hsecond := (hmeets.2.2.1 second rfl).2 (by decide)
    revert hsecond
    decide

end AgentHostProtocol.Go.Hosts
