import AgentHostProtocol.Hosts.Policy
import AgentHostProtocol.Library.Runs

/-!
# The supervisor loop

`runSupervisor`, which connects a host, retries by its policy and honours manual reconnects.
A step is what the loop does between two of its awaits, or a call from outside. What a step
does is also reported as events; their history says which attempt follows what.

**What is proved** (`attempts_backed_off`): in every run in which no attempt is made on the
heels of a dropped connection, every attempt but the first follows a manual reconnect, or a
failure that did not exhaust the policy and the backoff for it; with `maxAttempts = 0` it
follows a manual reconnect. In every run at most `maxAttempts + 1` attempts in a row fail, and
the host is then `failed`.

After a drop the loop goes back to its head without a look at the policy and without a
backoff (`dropped_reconnects_at_once`).
-/

namespace AgentHostProtocol.Hosts.Supervisor

open Library

/-! ### State -/

/-- `HostState`. -/
inductive HostState where
  | disconnected
  | connecting
  | connected
  | reconnecting (attempt : ℕ)
  | failed (error : String)
  deriving DecidableEq

/-- Why `runConnection` returns. -/
inductive Outcome where
  | shutdown
  | manualReconnect
  | disconnected
  deriving DecidableEq

/-- The await the loop is at. -/
inductive Phase where
  | unstarted
  /-- `connectOnce`. -/
  | connecting
  /-- `sleepOrAbort`. -/
  | sleeping (delay : ℚ)
  /-- `waitForManualReconnectOrShutdown`. -/
  | parked
  /-- `runConnection`. -/
  | running
  /-- `tearDownClient`. -/
  | tearingDown (outcome : Outcome)
  | stopped
  deriving DecidableEq

/-- The loop with the shared state it writes. -/
structure Loop where
  policy : ReconnectPolicy
  status : HostState
  lastError : Option String
  attempt : ℕ
  phase : Phase
  /-- `manualReconnectController.signal.aborted`. -/
  manualAborted : Bool
  /-- `shared.shutdownReason !== null`. -/
  shutDown : Bool
  deriving DecidableEq

/-- A host that was not started. -/
def Loop.new (policy : ReconnectPolicy) : Loop where
  policy := policy
  status := .disconnected
  lastError := none
  attempt := 0
  phase := .unstarted
  manualAborted := false
  shutDown := false

/-- What a step reports. -/
inductive Event where
  /-- A connection attempt is made. -/
  | attempted (attempt : ℕ)
  /-- An attempt failed. -/
  | failed (attempt : ℕ)
  | connected
  /-- An established connection dropped. -/
  | dropped
  /-- The loop slept for the whole delay. -/
  | backedOff (delay : ℚ)
  /-- The loop honours a manual reconnect. -/
  | manualReconnect
  deriving DecidableEq

/-! ### Steps -/

/-- The head of the loop. -/
def loopHead (s : Loop) : Loop × List Event :=
  if s.shutDown then ({ s with phase := .stopped }, [])
  else
    let attempt := s.attempt + 1
    ({ s with
      attempt := attempt
      status := if attempt = 1 then .connecting else .reconnecting (attempt - 1)
      phase := .connecting },
      [.attempted attempt])

/-- `resetManualReconnectController`, and back to the head with a fresh counter. -/
def retryNow (s : Loop) : Loop × List Event :=
  let head := loopHead { s with manualAborted := false, attempt := 0 }
  (head.1, .manualReconnect :: head.2)

/-- `connectOnce` throws. -/
def connectFails (s : Loop) (error : String) (sample : ℚ) : Loop × List Event :=
  if s.shutDown then ({ s with phase := .stopped }, [])
  else if s.manualAborted then retryNow s
  else
    let s : Loop := { s with lastError := some error }
    if attemptsExhausted s.policy s.attempt then
      ({ s with status := .failed error, phase := .parked }, [.failed s.attempt])
    else
      ({ s with phase := .sleeping (delayWithJitter s.policy s.attempt sample) }, [.failed s.attempt])

/-- `connectOnce` returns a connection, which it does not once its signals are aborted. -/
def connectSucceeds (s : Loop) : Loop × List Event :=
  ({ s with
    attempt := if s.policy.resetOnSuccess then 0 else s.attempt
    status := .connected
    lastError := none
    phase := .running },
    [.connected])

/-- An await that ended because a signal aborted. -/
def wokenUp (s : Loop) : Loop × List Event :=
  if s.shutDown then ({ s with phase := .stopped }, []) else retryNow s

/-- One step of the loop, or a call from outside. -/
inductive Step where
  | start
  | connectFails (error : String) (sample : ℚ)
  | connectSucceeds
  /-- `runConnection` returns. -/
  | connectionEnds (outcome : Outcome)
  | tornDown
  | sleepElapses
  | sleepAborts
  | wakesUp
  | reconnect
  | shutDown
  deriving DecidableEq

/-- The loop after a step and what the step reports, `none` if it cannot happen now. -/
def step (s : Loop) : Step → Option (Loop × List Event)
  | .start => if s.phase = .unstarted then some (loopHead s) else none
  | .connectFails error sample =>
    if s.phase = .connecting then some (connectFails s error sample) else none
  | .connectSucceeds =>
    if s.phase = .connecting ∧ ¬ s.shutDown ∧ ¬ s.manualAborted then some (connectSucceeds s) else none
  | .connectionEnds outcome =>
    if s.phase = .running then
      match outcome with
      | .shutdown => if s.shutDown then some ({ s with phase := .tearingDown .shutdown }, []) else none
      | .manualReconnect =>
        if s.manualAborted ∧ ¬ s.shutDown then some ({ s with phase := .tearingDown .manualReconnect }, [])
        else none
      | .disconnected => some ({ s with phase := .tearingDown .disconnected }, [.dropped])
    else none
  | .tornDown =>
    match s.phase with
    | .tearingDown .shutdown => some ({ s with phase := .stopped }, [])
    | .tearingDown .manualReconnect => some (retryNow s)
    | .tearingDown .disconnected => some (loopHead s)
    | _ => none
  | .sleepElapses =>
    match s.phase with
    | .sleeping delay => some ((loopHead s).1, .backedOff delay :: (loopHead s).2)
    | _ => none
  | .sleepAborts =>
    match s.phase with
    | .sleeping delay => if 0 < delay ∧ (s.shutDown ∨ s.manualAborted) then some (wokenUp s) else none
    | _ => none
  | .wakesUp => if s.phase = .parked ∧ (s.shutDown ∨ s.manualAborted) then some (wokenUp s) else none
  | .reconnect => some ({ s with manualAborted := s.manualAborted || !s.shutDown }, [])
  | .shutDown => some ({ s with shutDown := true }, [])

/-- A loop with the history of its run, newest first. -/
abbrev Run := Loop × List Event

/-- The runs of a loop. -/
abbrev runStep : Run → Step → Option Run := logged step

/-- The start of a run. -/
def Run.new (policy : ReconnectPolicy) : Run := (Loop.new policy, [])

/-! ### What is said of a history -/

/-- What makes an attempt admissible: it is the first, or it follows a manual reconnect, or it
follows the backoff for a failure that did not exhaust the policy. -/
def Admitted (policy : ReconnectPolicy) : List Event → Prop
  | [] => True
  | .manualReconnect :: _ => True
  | .backedOff delay :: .failed attempt :: _ =>
    0 < attempt ∧ attemptsExhausted policy attempt = false ∧
      ∃ sample, delay = delayWithJitter policy attempt sample
  | _ => False

/-- Every attempt of a history is the first or meets `P` on what came before it. -/
def EveryAttempt (P : List Event → Prop) : List Event → Prop
  | [] => True
  | .attempted _ :: history => P history ∧ EveryAttempt P history
  | .failed _ :: history | .connected :: history | .dropped :: history
  | .backedOff _ :: history | .manualReconnect :: history => EveryAttempt P history

/-- The first attempt, or one right after a manual reconnect. -/
def ManualOnly : List Event → Prop
  | [] => True
  | .manualReconnect :: _ => True
  | _ => False

/-- The attempts in a row that failed last. -/
def failures : List Event → ℕ
  | .failed _ :: history => failures history + 1
  | .attempted _ :: history | .dropped :: history | .backedOff _ :: history => failures history
  | [] | .connected :: _ | .manualReconnect :: _ => 0

/-- An attempt is about to be made on the heels of a drop. -/
def FollowsDrop (r : Run) (a : Step) : Prop :=
  a = .tornDown ∧ r.1.phase = .tearingDown .disconnected ∧ r.1.shutDown = false

instance (r : Run) (a : Step) : Decidable (FollowsDrop r a) := inferInstanceAs (Decidable (_ ∧ _ ∧ _))

/-! ### What a step does -/

/-- What a step of the loop does and reports. -/
inductive Does (s : Loop) : Step → Loop → List Event → Prop where
  /-- A call from outside. -/
  | signal {a : Step} (manualAborted shutDown : Bool) :
      Does s a { s with manualAborted := manualAborted, shutDown := shutDown } []
  /-- The loop ends, after a manual reconnect it no longer honours or after a sleep. -/
  | stops {a : Step} (s' : Loop) (es : List Event) (hphase : s'.phase = .stopped)
      (hpolicy : s'.policy = s.policy) (hstatus : s'.status = s.status)
      (hes : es = [] ∨ es = [.manualReconnect] ∨ ∃ delay, s.phase = .sleeping delay ∧ es = [.backedOff delay])
      (hlive : s.phase ≠ .unstarted ∨ es = []) : Does s a s' es
  | starts (hphase : s.phase = .unstarted) (s' : Loop) (hpolicy : s'.policy = s.policy)
      (hattempt : s'.attempt = s.attempt + 1) (hnext : s'.phase = .connecting) :
      Does s .start s' [.attempted s'.attempt]
  | retries {a : Step} (s' : Loop) (hpolicy : s'.policy = s.policy) (hattempt : s'.attempt = 1)
      (hnext : s'.phase = .connecting) : Does s a s' [.manualReconnect, .attempted s'.attempt]
  | resumes (delay : ℚ) (hphase : s.phase = .sleeping delay) (s' : Loop)
      (hpolicy : s'.policy = s.policy) (hattempt : s'.attempt = s.attempt + 1)
      (hnext : s'.phase = .connecting) :
      Does s .sleepElapses s' [.backedOff delay, .attempted s'.attempt]
  | reconnects (hphase : s.phase = .tearingDown .disconnected) (hlive : s.shutDown = false)
      (s' : Loop) (hpolicy : s'.policy = s.policy) (hattempt : s'.attempt = s.attempt + 1)
      (hnext : s'.phase = .connecting) : Does s .tornDown s' [.attempted s'.attempt]
  | parks {a : Step} (hphase : s.phase = .connecting)
      (hexhausted : attemptsExhausted s.policy s.attempt = true) (error : String) :
      Does s a { s with lastError := some error, status := .failed error, phase := .parked }
        [.failed s.attempt]
  | backsOff {a : Step} (hphase : s.phase = .connecting)
      (hexhausted : attemptsExhausted s.policy s.attempt = false) (error : String) (sample : ℚ) :
      Does s a
        { s with lastError := some error, phase := .sleeping (delayWithJitter s.policy s.attempt sample) }
        [.failed s.attempt]
  | connects (hphase : s.phase = .connecting) :
      Does s .connectSucceeds (connectSucceeds s).1 [.connected]
  | ends {a : Step} (hphase : s.phase = .running) (outcome : Outcome) :
      Does s a { s with phase := .tearingDown outcome }
        (if outcome = .disconnected then [.dropped] else [])

variable {s s' : Loop} {a : Step} {es : List Event}

theorem loopHead_eq (s : Loop) :
    (s.shutDown = true ∧ loopHead s = ({ s with phase := .stopped }, [])) ∨
      (s.shutDown = false ∧ (loopHead s).1.policy = s.policy ∧ (loopHead s).1.attempt = s.attempt + 1 ∧
        (loopHead s).1.phase = .connecting ∧ (loopHead s).2 = [.attempted (loopHead s).1.attempt]) := by
  cases hdown : s.shutDown with
  | true => exact .inl ⟨rfl, by simp [loopHead, hdown]⟩
  | false => exact .inr ⟨rfl, by simp [loopHead, hdown]⟩

theorem retryNow_does (hstarted : s.phase ≠ .unstarted) :
    Does s a (retryNow s).1 (retryNow s).2 := by
  rcases loopHead_eq { s with manualAborted := false, attempt := 0 } with ⟨-, h⟩ | ⟨-, hpolicy, hattempt, hphase, hes⟩
  · simp only [retryNow, h]
    exact .stops _ _ rfl rfl rfl (.inr (.inl rfl)) (.inl hstarted)
  · simp only [retryNow, hes]
    exact .retries _ hpolicy (by simpa using hattempt) hphase

theorem wokenUp_does (hstarted : s.phase ≠ .unstarted) : Does s a (wokenUp s).1 (wokenUp s).2 := by
  unfold wokenUp
  split
  · exact .stops _ _ rfl rfl rfl (.inl rfl) (.inl hstarted)
  · exact retryNow_does hstarted

theorem reported {out : Loop × List Event} (h : some out = some (s', es)) : s' = out.1 ∧ es = out.2 := by
  rw [Option.some.inj h]
  exact ⟨rfl, rfl⟩

theorem step_does (h : step s a = some (s', es)) : Does s a s' es := by
  cases a with
  | start =>
    simp only [step] at h
    split at h
    · next hphase =>
      rcases loopHead_eq s with ⟨-, heq⟩ | ⟨-, hpolicy, hattempt, hnext, hes⟩
      · rw [heq] at h
        cases h
        exact .stops _ _ rfl rfl rfl (.inl rfl) (.inr rfl)
      · obtain ⟨rfl, rfl⟩ := reported h
        rw [hes]
        exact .starts hphase _ hpolicy hattempt hnext
    · cases h
  | connectFails error sample =>
    simp only [step] at h
    split at h
    · next hphase =>
      have hstarted : s.phase ≠ .unstarted := by rw [hphase]; nofun
      obtain ⟨rfl, rfl⟩ := reported h
      unfold connectFails
      split
      · exact .stops _ _ rfl rfl rfl (.inl rfl) (.inl hstarted)
      · split
        · exact retryNow_does hstarted
        · dsimp only
          split
          · next hexhausted => exact .parks hphase hexhausted error
          · next hexhausted => exact .backsOff hphase (by simpa using hexhausted) error sample
    · cases h
  | connectSucceeds =>
    simp only [step] at h
    split at h
    · next hguard =>
      cases h
      exact .connects hguard.1
    · cases h
  | connectionEnds outcome =>
    simp only [step] at h
    split at h
    · next hphase =>
      have hends := fun o => Does.ends (a := .connectionEnds outcome) hphase o
      cases outcome with
      | shutdown =>
        dsimp only at h
        split at h <;> cases h
        exact hends .shutdown
      | manualReconnect =>
        dsimp only at h
        split at h <;> cases h
        exact hends .manualReconnect
      | disconnected =>
        cases h
        exact hends .disconnected
    · cases h
  | tornDown =>
    simp only [step] at h
    split at h
    · next hphase =>
      cases h
      exact .stops _ _ rfl rfl rfl (.inl rfl) (.inl (by rw [hphase]; nofun))
    · next hphase =>
      obtain ⟨rfl, rfl⟩ := reported h
      exact retryNow_does (by rw [hphase]; nofun)
    · next hphase =>
      rcases loopHead_eq s with ⟨-, heq⟩ | ⟨hlive, hpolicy, hattempt, hnext, hes⟩
      · rw [heq] at h
        cases h
        exact .stops _ _ rfl rfl rfl (.inl rfl) (.inl (by rw [hphase]; nofun))
      · obtain ⟨rfl, rfl⟩ := reported h
        rw [hes]
        exact .reconnects hphase hlive _ hpolicy hattempt hnext
    · cases h
  | sleepElapses =>
    simp only [step] at h
    split at h
    · next delay hphase =>
      obtain ⟨rfl, rfl⟩ := reported h
      rcases loopHead_eq s with ⟨-, heq⟩ | ⟨-, hpolicy, hattempt, hnext, hes⟩
      · rw [heq]
        exact .stops _ _ rfl rfl rfl (.inr (.inr ⟨delay, hphase, rfl⟩)) (.inl (by rw [hphase]; nofun))
      · rw [hes]
        exact .resumes delay hphase _ hpolicy hattempt hnext
    · cases h
  | sleepAborts =>
    simp only [step] at h
    split at h
    · next delay hphase =>
      split at h
      · obtain ⟨rfl, rfl⟩ := reported h
        exact wokenUp_does (by rw [hphase]; nofun)
      · cases h
    · cases h
  | wakesUp =>
    simp only [step] at h
    split at h
    · next hguard =>
      obtain ⟨rfl, rfl⟩ := reported h
      exact wokenUp_does (by rw [hguard.1]; nofun)
    · cases h
  | reconnect | shutDown =>
    cases h
    exact .signal _ _

/-! ### Backoff -/

variable {policy : ReconnectPolicy} {r r' : Run}

/-- Every attempt made is admissible, and the one a sleep leads to will be. -/
structure BackedOff (policy : ReconnectPolicy) (r : Run) : Prop where
  same : r.1.policy = policy
  history : EveryAttempt (Admitted policy) r.2
  fresh : r.1.phase = .unstarted → r.2 = []
  sleeping : ∀ delay, r.1.phase = .sleeping delay → Admitted policy (.backedOff delay :: r.2)
  positive : r.1.phase = .connecting → 0 < r.1.attempt

theorem backedOff_new (policy : ReconnectPolicy) : BackedOff policy (Run.new policy) where
  same := rfl
  history := trivial
  fresh _ := rfl
  sleeping := nofun
  positive := nofun

/-- A step to the head of the loop that makes an admissible attempt. -/
theorem BackedOff.attempt {s : Loop} {history : List Event} (hpolicy : s.policy = policy)
    (hattempt : 0 < s.attempt) (hphase : s.phase = .connecting)
    (hhistory : EveryAttempt (Admitted policy) history) (hadmitted : Admitted policy history) :
    BackedOff policy (s, .attempted s.attempt :: history) where
  same := hpolicy
  history := ⟨hadmitted, hhistory⟩
  fresh h := by rw [hphase] at h; cases h
  sleeping delay h := by rw [hphase] at h; cases h
  positive _ := hattempt

/-- A step to an await that neither sleeps nor connects. -/
theorem BackedOff.rest {s : Loop} {history : List Event} (hpolicy : s.policy = policy)
    (hunstarted : s.phase ≠ .unstarted) (hsleeping : ∀ delay, s.phase ≠ .sleeping delay)
    (hconnecting : s.phase ≠ .connecting) (hhistory : EveryAttempt (Admitted policy) history) :
    BackedOff policy (s, history) where
  same := hpolicy
  history := hhistory
  fresh h := absurd h hunstarted
  sleeping delay h := absurd h (hsleeping delay)
  positive h := absurd h hconnecting

theorem BackedOff.step (hr : BackedOff policy r) (hguard : ¬ FollowsDrop r a)
    (h : runStep r a = some r') : BackedOff policy r' := by
  obtain ⟨s, history⟩ := r
  obtain ⟨s', history'⟩ := r'
  obtain ⟨es, hstep, hhistory⟩ := logged_eq_some.mp h
  dsimp only at hstep hhistory
  subst hhistory
  cases step_does hstep with
  | signal manualAborted shutDown =>
    exact ⟨hr.same, hr.history, hr.fresh, hr.sleeping, hr.positive⟩
  | stops _ _ hphase hpolicy hstatus hes hlive =>
    refine .rest (hpolicy.trans hr.same) ?_ ?_ ?_ ?_
    · rw [hphase]; nofun
    · rw [hphase]; nofun
    · rw [hphase]; nofun
    · rcases hes with rfl | rfl | ⟨delay, -, rfl⟩ <;> exact hr.history
  | starts hphase _ hpolicy hattempt hnext =>
    have hfresh : history = [] := hr.fresh hphase
    subst hfresh
    exact .attempt (hpolicy.trans hr.same) (by omega) hnext trivial trivial
  | retries _ hpolicy hattempt hnext =>
    exact .attempt (hpolicy.trans hr.same) (by omega) hnext hr.history trivial
  | resumes delay hphase _ hpolicy hattempt hnext =>
    exact .attempt (hpolicy.trans hr.same) (by omega) hnext hr.history (hr.sleeping delay hphase)
  | reconnects hphase hlive => exact absurd ⟨rfl, hphase, hlive⟩ hguard
  | parks hphase hexhausted error =>
    exact .rest hr.same nofun nofun nofun hr.history
  | backsOff hphase hexhausted error sample =>
    refine ⟨hr.same, hr.history, nofun, fun delay hdelay => ?_, nofun⟩
    cases hdelay
    have hpolicy : s.policy = policy := hr.same
    rw [← hpolicy]
    exact ⟨hr.positive hphase, hexhausted, sample, rfl⟩
  | connects hphase => exact .rest hr.same nofun nofun nofun hr.history
  | ends hphase outcome =>
    refine .rest hr.same nofun nofun nofun ?_
    split <;> exact hr.history

/-- With no attempts left to a policy, only a manual reconnect admits one. -/
theorem manualOnly_of_admitted (hmax : policy.maxAttempts = some 0) {history : List Event}
    (h : Admitted policy history) : ManualOnly history := by
  unfold Admitted at h
  split at h
  · trivial
  · trivial
  · rw [attemptsExhausted_zero hmax h.1] at h
    cases h.2.1
  · exact h.elim

theorem EveryAttempt.mono {P Q : List Event → Prop} (hPQ : ∀ history, P history → Q history)
    {history : List Event} (h : EveryAttempt P history) : EveryAttempt Q history := by
  induction history with
  | nil => trivial
  | cons e history ih =>
    cases e with
    | attempted attempt => exact ⟨hPQ _ h.1, ih h.2⟩
    | failed attempt | connected | dropped | backedOff delay | manualReconnect => exact ih h

/-! ### Failures in a row -/

variable {maxAttempts : ℚ}

/-- No more attempts in a row failed than the policy allows, or one more and the host is
`failed`. -/
structure FailsAtMost (maxAttempts : ℚ) (r : Run) : Prop where
  same : r.1.policy.maxAttempts = some maxAttempts
  started : r.1.phase = .unstarted → r.1.attempt = 0 ∧ failures r.2 = 0
  connecting : r.1.phase = .connecting → failures r.2 < r.1.attempt ∧ (failures r.2 : ℚ) ≤ max maxAttempts 0
  sleeping : ∀ delay, r.1.phase = .sleeping delay →
    failures r.2 ≤ r.1.attempt ∧ (r.1.attempt : ℚ) ≤ maxAttempts
  alive : r.1.phase = .running ∨ (∃ outcome, r.1.phase = .tearingDown outcome) → failures r.2 = 0
  bound : (failures r.2 : ℚ) ≤ max maxAttempts 0 ∨
    (failures r.2 : ℚ) ≤ max maxAttempts 0 + 1 ∧ ∃ error, r.1.status = .failed error ∧
      (r.1.phase = .parked ∨ r.1.phase = .stopped)

theorem failsAtMost_new (hmax : policy.maxAttempts = some maxAttempts) :
    FailsAtMost maxAttempts (Run.new policy) where
  same := hmax
  started _ := ⟨rfl, rfl⟩
  connecting := nofun
  sleeping := nofun
  alive := by rintro (h | ⟨_, h⟩) <;> cases h
  bound := .inl (by simp [Run.new, failures])

/-- A step to an attempt after `failures history` failures in a row. -/
theorem FailsAtMost.attempt {s : Loop} {history : List Event}
    (hpolicy : s.policy.maxAttempts = some maxAttempts) (hphase : s.phase = .connecting)
    (hlt : failures history < s.attempt) (hle : (failures history : ℚ) ≤ max maxAttempts 0) :
    FailsAtMost maxAttempts (s, .attempted s.attempt :: history) where
  same := hpolicy
  started h := by rw [hphase] at h; cases h
  connecting _ := ⟨hlt, hle⟩
  sleeping delay h := by rw [hphase] at h; cases h
  alive h := by rcases h with h | ⟨_, h⟩ <;> (rw [hphase] at h; cases h)
  bound := .inl hle

/-- A step to a connection, or away from one. -/
theorem FailsAtMost.connection {s : Loop} {history : List Event}
    (hpolicy : s.policy.maxAttempts = some maxAttempts)
    (hphase : s.phase = .running ∨ ∃ outcome, s.phase = .tearingDown outcome)
    (hnone : failures history = 0) : FailsAtMost maxAttempts (s, history) where
  same := hpolicy
  started h := by rcases hphase with hp | ⟨_, hp⟩ <;> (rw [hp] at h; cases h)
  connecting h := by rcases hphase with hp | ⟨_, hp⟩ <;> (rw [hp] at h; cases h)
  sleeping delay h := by rcases hphase with hp | ⟨_, hp⟩ <;> (rw [hp] at h; cases h)
  alive _ := hnone
  bound := .inl (by simp [hnone])

theorem FailsAtMost.step (hr : FailsAtMost maxAttempts r) (h : runStep r a = some r') :
    FailsAtMost maxAttempts r' := by
  obtain ⟨s, history⟩ := r
  obtain ⟨s', history'⟩ := r'
  obtain ⟨es, hstep, hhistory⟩ := logged_eq_some.mp h
  dsimp only at hstep hhistory
  subst hhistory
  have hzero : (0 : ℚ) ≤ max maxAttempts 0 := le_max_right _ _
  cases step_does hstep with
  | signal manualAborted shutDown =>
    exact ⟨hr.same, hr.started, hr.connecting, hr.sleeping, hr.alive, hr.bound⟩
  | stops _ _ hphase hpolicy hstatus hes hlive =>
    have hmax : s'.policy.maxAttempts = some maxAttempts := hpolicy ▸ hr.same
    have hbound : (failures (es.reverse ++ history) : ℚ) ≤ max maxAttempts 0 ∨
        (failures (es.reverse ++ history) : ℚ) ≤ max maxAttempts 0 + 1 ∧
          ∃ error, s'.status = .failed error := by
      rcases hes with rfl | rfl | ⟨delay, -, rfl⟩
      · rcases hr.bound with hb | ⟨hb, error, hfailed, -⟩
        · exact .inl hb
        · exact .inr ⟨hb, error, hstatus ▸ hfailed⟩
      · exact .inl (by simp [failures])
      · rcases hr.bound with hb | ⟨hb, error, hfailed, -⟩
        · exact .inl hb
        · exact .inr ⟨hb, error, hstatus ▸ hfailed⟩
    refine ⟨hmax, fun hp => ?_, fun hp => ?_, fun delay hp => ?_, fun hp => ?_, ?_⟩
    · rw [hphase] at hp; cases hp
    · rw [hphase] at hp; cases hp
    · rw [hphase] at hp; cases hp
    · rcases hp with hp | ⟨_, hp⟩ <;> (rw [hphase] at hp; cases hp)
    · rcases hbound with hb | ⟨hb, error, hfailed⟩
      · exact .inl hb
      · exact .inr ⟨hb, error, hfailed, .inr hphase⟩
  | starts hphase _ hpolicy hattempt hnext =>
    obtain ⟨hfirst, hnone⟩ := hr.started hphase
    have hfailures : failures history = 0 := hnone
    refine .attempt (hpolicy ▸ hr.same) hnext ?_ ?_
    · show failures history < s'.attempt
      omega
    · simp [hfailures]
  | retries _ hpolicy hattempt hnext =>
    exact .attempt (hpolicy ▸ hr.same) hnext (by simp [failures, hattempt]) (by simp [failures])
  | resumes delay hphase _ hpolicy hattempt hnext =>
    obtain ⟨hle, hmax⟩ := hr.sleeping delay hphase
    refine .attempt (hpolicy ▸ hr.same) hnext ?_ ?_
    · show failures history < s'.attempt
      dsimp only at hle
      omega
    · have hfailures : (failures history : ℚ) ≤ s.attempt := by exact_mod_cast hle
      exact le_max_of_le_left (hfailures.trans hmax)
  | reconnects hphase hlive _ hpolicy hattempt hnext =>
    have hnone : failures history = 0 := hr.alive (.inr ⟨_, hphase⟩)
    refine .attempt (hpolicy ▸ hr.same) hnext ?_ ?_
    · show failures history < s'.attempt
      omega
    · simp [hnone]
  | parks hphase hexhausted error =>
    obtain ⟨-, hle⟩ := hr.connecting hphase
    have hbound : ((failures history + 1 : ℕ) : ℚ) ≤ max maxAttempts 0 + 1 := by
      push_cast
      dsimp only at hle
      linarith
    refine ⟨hr.same, nofun, nofun, nofun, ?_, .inr ⟨hbound, error, rfl, .inl rfl⟩⟩
    rintro (hp | ⟨_, hp⟩) <;> cases hp
  | backsOff hphase hexhausted error sample =>
    obtain ⟨hlt, -⟩ := hr.connecting hphase
    have hattempt : (s.attempt : ℚ) ≤ maxAttempts := le_of_not_attemptsExhausted hr.same hexhausted
    have hsucc : failures history + 1 ≤ s.attempt := hlt
    have hbound : ((failures history + 1 : ℕ) : ℚ) ≤ max maxAttempts 0 :=
      le_max_of_le_left ((by exact_mod_cast hsucc : _ ≤ (s.attempt : ℚ)).trans hattempt)
    refine ⟨hr.same, nofun, nofun, fun delay _ => ⟨hsucc, hattempt⟩, ?_, .inl hbound⟩
    rintro (hp | ⟨_, hp⟩) <;> cases hp
  | connects hphase => exact .connection hr.same (.inl rfl) rfl
  | ends hphase outcome =>
    have hnone : failures history = 0 := hr.alive (.inl hphase)
    refine .connection hr.same (.inr ⟨outcome, rfl⟩) ?_
    split <;> exact hnone

/-! ### Runs -/

/-- **Reconnects**: where no attempt is made on the heels of a dropped connection, every attempt
but the first follows a manual reconnect, or the backoff for a failure that did not exhaust the
policy; where no attempts are allowed, only a manual reconnect. In every run no more than
`maxAttempts + 1` attempts in a row fail, and past `maxAttempts` the host is `failed`. -/
theorem attempts_backed_off (policy : ReconnectPolicy) :
    (∀ as r, Guarded runStep (fun r a => ¬ FollowsDrop r a) (Run.new policy) as →
      runs runStep (Run.new policy) as = some r →
      EveryAttempt (Admitted policy) r.2 ∧
        (policy.maxAttempts = some 0 → EveryAttempt ManualOnly r.2)) ∧
    ∀ as r, runs runStep (Run.new policy) as = some r →
      ∀ maxAttempts ∈ policy.maxAttempts, (failures r.2 : ℚ) ≤ max maxAttempts 0 + 1 ∧
        (max maxAttempts 0 < failures r.2 → ∃ error, r.1.status = .failed error) := by
  constructor
  · intro as r hg hrun
    have hr : BackedOff policy r := runs_invariant runStep BackedOff.step (backedOff_new policy) hg hrun
    exact ⟨hr.history, fun hmax => hr.history.mono fun _ => manualOnly_of_admitted hmax⟩
  · intro as r hrun maxAttempts hmax
    have hg : Guarded runStep (fun _ _ => True) (Run.new policy) as :=
      guarded_of_forall runStep (fun _ _ => trivial) _
    have hr : FailsAtMost maxAttempts r :=
      runs_invariant runStep (fun hr _ h => hr.step h) (failsAtMost_new hmax) hg hrun
    rcases hr.bound with hb | ⟨hb, error, hfailed, -⟩
    · exact ⟨by linarith, fun hlt => absurd hb (not_le.mpr hlt)⟩
    · exact ⟨hb, fun _ => ⟨error, hfailed⟩⟩

/-- A policy with one attempt after the first. -/
def retryOnce : ReconnectPolicy where
  backoff := .constant 100
  jitter := 0
  maxAttempts := some 1
  resetOnSuccess := true

/-- The first attempt fails, the second succeeds. -/
def retried : Run :=
  ({ Loop.new retryOnce with status := .connected, phase := .running },
    [.connected, .attempted 2, .backedOff 100, .failed 1, .attempted 1])

theorem attempts_backed_off_retried :
    EveryAttempt (Admitted retryOnce) retried.2 ∧ (failures retried.2 : ℚ) ≤ max 1 0 + 1 := by
  have hrun : runs runStep (Run.new retryOnce)
      [.start, .connectFails "refused" 0, .sleepElapses, .connectSucceeds] = some retried := by
    decide +kernel
  exact ⟨((attempts_backed_off retryOnce).1 _ retried (by decide +kernel) hrun).1,
    ((attempts_backed_off retryOnce).2 _ retried hrun 1 rfl).1⟩

/-- A host with reconnects disabled connects and drops: an attempt follows at once, without a
failure, a backoff or a manual reconnect. -/
theorem dropped_reconnects_at_once :
    ∃ r, runs runStep (Run.new disabledPolicy)
        [.start, .connectSucceeds, .connectionEnds .disconnected, .tornDown] = some r ∧
      r.2 = [.attempted 1, .dropped, .connected, .attempted 1] ∧
      ¬ EveryAttempt (Admitted disabledPolicy) r.2 ∧ ¬ EveryAttempt ManualOnly r.2 := by
  refine ⟨_, rfl, rfl, fun h => ?_, fun h => ?_⟩
  · exact h.1
  · exact h.1

end AgentHostProtocol.Hosts.Supervisor
