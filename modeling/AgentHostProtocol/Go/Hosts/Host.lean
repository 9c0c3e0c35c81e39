import AgentHostProtocol.Go.Hosts.Policy
import AgentHostProtocol.Library.Runs

/-!
# One host of the Go multi-host client

`hostState` and the goroutine `supervise` with the `openHost` that it or `AddHost` is running.
Each client that was ever created for the host has a place in `clients`, which says whether it
is down: its `Done` channel is closed, because of a `Shutdown` or of a transport failure. A
`select` of which several cases are ready may take any of them, so there is one action for
each case.
-/

namespace AgentHostProtocol.Go.Hosts

open Library

/-- Where a call of `openHost` is. -/
inductive OpenHost where
  /-- None is running. -/
  | idle
  /-- Before `TransportFactory` and `Connect` are done. -/
  | connecting
  /-- In `client.Initialize`. -/
  | handshake (client : ℕ)
  /-- Returned without an error. -/
  | opened
  /-- Returned an error. -/
  | failed
  deriving DecidableEq

/-- Where the goroutine `supervise` is. -/
inductive Supervise where
  | notStarted
  /-- At the top of the outer loop. -/
  | loading
  /-- Blocked on `client.Done()` and `ctx.Done()`. -/
  | watching (client : ℕ)
  /-- `client.Done()` fired. -/
  | dropped (client : ℕ)
  /-- Blocked on `ctx.Done()` and `time.After(delay)`. -/
  | waiting (attempt : UInt32)
  /-- In `openHost`. -/
  | opening (attempt : UInt32)
  | returned
  deriving DecidableEq

/-- What the supervisor did. -/
inductive Retry where
  /-- It called `openHost` after a wait. -/
  | attempt (wait : Duration)
  /-- That succeeded. -/
  | reconnected
  /-- It put the host in the failed state. -/
  | gaveUp
  deriving DecidableEq

/-- `hostState`, and what runs for it. -/
structure Host (F : Type) where
  id : String
  /-- The call of `AddHost` that made it. -/
  owner : ℕ
  /-- `cfg.ReconnectPolicy`. -/
  policy : ReconnectPolicy F
  /-- Whether its context is done. -/
  cancelled : Bool
  /-- `hs.client`. -/
  client : Option ℕ
  /-- For each client ever created whether it is down. -/
  clients : List Bool
  opening : OpenHost
  supervise : Supervise
  retries : List Retry
  deriving DecidableEq

namespace Host

variable {F : Type} [Float64 F]

/-- The host that `AddHost` makes, with `openHost` about to run. -/
def new (id : String) (owner : ℕ) (policy : ReconnectPolicy F) (cancelled : Bool) : Host F where
  id := id
  owner := owner
  policy := policy
  cancelled := cancelled
  client := none
  clients := []
  opening := .connecting
  supervise := .notStarted
  retries := []

/-- Client `j` is down. -/
def shutdownClient (h : Host F) (j : ℕ) : Host F := { h with clients := h.clients.set j true }

/-- `cancel()`. -/
def cancel (h : Host F) : Host F := { h with cancelled := true }

/-- `hs.supervised.Add(1)` and `go m.supervise(hostCtx, hs)`. -/
def start (h : Host F) : Host F := { h with opening := .idle, supervise := .loading }

/-- A step of what runs for a host. -/
inductive Act where
  /-- `TransportFactory` and `Connect` end. -/
  | connect (ok : Bool)
  /-- `client.Initialize` ends. -/
  | initialized (ok : Bool)
  /-- The transport of a client fails. -/
  | drop (client : ℕ)
  /-- The supervisor reads `hs.client`. -/
  | load
  /-- Its `select` takes `client.Done()`. -/
  | done
  /-- Its `select` takes `ctx.Done()`. -/
  | ctxDone
  /-- It looks at the context and the policy after a drop. -/
  | check
  /-- Its `select` takes `time.After(delay)`. -/
  | timer
  /-- It goes on after `openHost`. -/
  | resume
  deriving DecidableEq

/-- The supervisor after a failed attempt. -/
def retry (h : Host F) (attempt : UInt32) : Host F :=
  let attempt := attempt + 1
  if 0 < h.policy.maxAttempts ∧ h.policy.maxAttempts < attempt then
    { h with opening := .idle, supervise := .returned, retries := h.retries ++ [.gaveUp] }
  else { h with opening := .idle, supervise := .waiting attempt }

/-- The supervisor after a drop. -/
def afterDrop (h : Host F) (client : ℕ) : Host F :=
  if h.cancelled then { h with supervise := .returned }
  else if h.policy.isDisabled then
    { h with supervise := .returned, retries := h.retries ++ [.gaveUp] }
  else { h.shutdownClient client with supervise := .waiting 1 }

/-- One step, `none` where the action is not enabled. -/
def step (h : Host F) : Act → Option (Host F)
  | .connect ok =>
    match h.opening with
    | .connecting =>
      some (if ok then
          { h with clients := h.clients ++ [false], opening := .handshake h.clients.length }
        else { h with opening := .failed })
    | _ => none
  | .initialized ok =>
    match h.opening with
    | .handshake client =>
      some (if ok then { h with client := some client, opening := .opened }
        else { h.shutdownClient client with opening := .failed })
    | _ => none
  | .drop client => if client < h.clients.length then some (h.shutdownClient client) else none
  | .load =>
    match h.supervise with
    | .loading =>
      some (match h.client with
        | none => { h with supervise := .returned }
        | some client => { h with supervise := .watching client })
    | _ => none
  | .done =>
    match h.supervise with
    | .watching client =>
      if h.clients[client]? = some true then some { h with supervise := .dropped client } else none
    | _ => none
  | .ctxDone =>
    match h.supervise with
    | .watching _ | .waiting _ => if h.cancelled then some { h with supervise := .returned } else none
    | _ => none
  | .check =>
    match h.supervise with
    | .dropped client => some (h.afterDrop client)
    | _ => none
  | .timer =>
    match h.supervise with
    | .waiting attempt =>
      some { h with
        opening := .connecting
        supervise := .opening attempt
        retries := h.retries ++ [.attempt (h.policy.backoffFor attempt)] }
    | _ => none
  | .resume =>
    match h.supervise, h.opening with
    | .opening _, .opened =>
      some { h with opening := .idle, supervise := .loading, retries := h.retries ++ [.reconnected] }
    | .opening attempt, .failed => some (h.retry attempt)
    | _, _ => none

/-- What a step does. -/
inductive Does (h : Host F) : Act → Host F → Prop
  | connected : h.opening = .connecting → Does h (.connect true)
    { h with clients := h.clients ++ [false], opening := .handshake h.clients.length }
  | unconnected : h.opening = .connecting → Does h (.connect false) { h with opening := .failed }
  | installed {client : ℕ} : h.opening = .handshake client →
    Does h (.initialized true) { h with client := some client, opening := .opened }
  | rejected {client : ℕ} : h.opening = .handshake client →
    Does h (.initialized false) { h.shutdownClient client with opening := .failed }
  | drop {client : ℕ} : client < h.clients.length → Does h (.drop client) (h.shutdownClient client)
  | watch {client : ℕ} : h.supervise = .loading → h.client = some client →
    Does h .load { h with supervise := .watching client }
  | unwatched : h.supervise = .loading → h.client = none →
    Does h .load { h with supervise := .returned }
  | done {client : ℕ} : h.supervise = .watching client → h.clients[client]? = some true →
    Does h .done { h with supervise := .dropped client }
  | ctxDone : ((∃ client, h.supervise = .watching client) ∨ ∃ attempt, h.supervise = .waiting attempt) →
    h.cancelled = true → Does h .ctxDone { h with supervise := .returned }
  | cancelled {client : ℕ} : h.supervise = .dropped client → h.cancelled = true →
    Does h .check { h with supervise := .returned }
  | disabled {client : ℕ} : h.supervise = .dropped client → h.policy.isDisabled = true →
    Does h .check { h with supervise := .returned, retries := h.retries ++ [.gaveUp] }
  | outage {client : ℕ} : h.supervise = .dropped client → h.cancelled = false →
    h.policy.isDisabled = false → Does h .check { h.shutdownClient client with supervise := .waiting 1 }
  | attempt {attempt : UInt32} : h.supervise = .waiting attempt → Does h .timer { h with
      opening := .connecting
      supervise := .opening attempt
      retries := h.retries ++ [.attempt (h.policy.backoffFor attempt)] }
  | reconnected {attempt : UInt32} : h.supervise = .opening attempt → h.opening = .opened →
    Does h .resume
      { h with opening := .idle, supervise := .loading, retries := h.retries ++ [.reconnected] }
  | exhausted {attempt : UInt32} : h.supervise = .opening attempt → h.opening = .failed →
    Does h .resume
      { h with opening := .idle, supervise := .returned, retries := h.retries ++ [.gaveUp] }
  | again {attempt : UInt32} : h.supervise = .opening attempt → h.opening = .failed →
    ¬ (0 < h.policy.maxAttempts ∧ h.policy.maxAttempts < attempt + 1) →
    Does h .resume { h with opening := .idle, supervise := .waiting (attempt + 1) }

/-- Every step is one of these. -/
theorem step_does {h h' : Host F} {a : Act} (hs : h.step a = some h') : Does h a h' := by
  cases a with
  | connect ok =>
    simp only [step] at hs
    split at hs
    · next hopening =>
      cases ok <;> cases hs
      · exact .unconnected hopening
      · exact .connected hopening
    · cases hs
  | initialized ok =>
    simp only [step] at hs
    split at hs
    · next hopening =>
      cases ok <;> cases hs
      · exact .rejected hopening
      · exact .installed hopening
    · cases hs
  | drop client =>
    simp only [step] at hs
    split at hs
    · next hlt =>
      cases hs
      exact .drop hlt
    · cases hs
  | load =>
    simp only [step] at hs
    split at hs
    · next hsup =>
      cases hs
      split
      · next hnone => exact .unwatched hsup hnone
      · next client hclient => exact .watch hsup hclient
    · cases hs
  | done =>
    simp only [step] at hs
    split at hs
    · next hsup =>
      split at hs
      · next hdown =>
        cases hs
        exact .done hsup hdown
      · cases hs
    · cases hs
  | ctxDone =>
    simp only [step] at hs
    split at hs
    · next client hsup =>
      split at hs
      · next hcancelled =>
        cases hs
        exact .ctxDone (.inl ⟨client, hsup⟩) hcancelled
      · cases hs
    · next attempt hsup =>
      split at hs
      · next hcancelled =>
        cases hs
        exact .ctxDone (.inr ⟨attempt, hsup⟩) hcancelled
      · cases hs
    · cases hs
  | check =>
    simp only [step] at hs
    split at hs
    · next client hsup =>
      cases hs
      unfold afterDrop
      split
      · next hcancelled => exact .cancelled hsup hcancelled
      · next hcancelled =>
        split
        · next hdisabled => exact .disabled hsup hdisabled
        · next hdisabled =>
          exact .outage hsup (Bool.eq_false_iff.mpr hcancelled) (Bool.eq_false_iff.mpr hdisabled)
    · cases hs
  | timer =>
    simp only [step] at hs
    split at hs
    · next hsup =>
      cases hs
      exact .attempt hsup
    · cases hs
  | resume =>
    simp only [step] at hs
    split at hs
    · next hsup hopening =>
      cases hs
      exact .reconnected hsup hopening
    · next hsup hopening =>
      cases hs
      unfold retry
      dsimp only
      split
      · exact .exhausted hsup hopening
      · next hmore => exact .again hsup hopening hmore
    · cases hs

/-- Whether the goroutine `supervise` is running. -/
def running (h : Host F) : Bool :=
  match h.supervise with
  | .notStarted | .returned => false
  | _ => true

/-- The supervisor is connected, or has just noticed that it is not. -/
def Steady : Supervise → Prop
  | .loading | .watching _ | .dropped _ => True
  | _ => False

/-- What no step changes. -/
structure SameConfig (h h' : Host F) : Prop where
  id : h'.id = h.id
  owner : h'.owner = h.owner
  policy : h'.policy = h.policy
  cancelled : h'.cancelled = h.cancelled

/-- What a step does to the supervisor and to what it recorded. -/
inductive Progress (h h' : Host F) : Prop
  /-- Another goroutine took the step. -/
  | idle : h'.supervise = h.supervise → h'.retries = h.retries → Progress h h'
  /-- The supervisor goes on watching. -/
  | watch : Steady h.supervise → Steady h'.supervise → h'.retries = h.retries → Progress h h'
  /-- The supervisor returns. -/
  | ends : h.running = true → h'.supervise = .returned →
    (h'.retries = h.retries ∨ h'.retries = h.retries ++ [.gaveUp]) → Progress h h'
  /-- The first wait after a drop. -/
  | outage : Steady h.supervise → h.policy.isDisabled = false → h'.supervise = .waiting 1 →
    h'.retries = h.retries → Progress h h'
  /-- An attempt after a wait. -/
  | attempt (a : UInt32) : h.supervise = .waiting a → h'.supervise = .opening a →
    h'.retries = h.retries ++ [.attempt (h.policy.backoffFor a)] → Progress h h'
  /-- An attempt that succeeded. -/
  | reconnected (a : UInt32) : h.supervise = .opening a → h'.supervise = .loading →
    h'.retries = h.retries ++ [.reconnected] → Progress h h'
  /-- The next wait after an attempt that failed. -/
  | again (a : UInt32) : h.supervise = .opening a →
    ¬ (0 < h.policy.maxAttempts ∧ h.policy.maxAttempts < a + 1) → h'.supervise = .waiting (a + 1) →
    h'.retries = h.retries → Progress h h'

theorem step_progress {h h' : Host F} {a : Act} (hs : h.step a = some h') :
    SameConfig h h' ∧ Progress h h' := by
  cases step_does hs with
  | connected | unconnected | installed | rejected | drop => exact ⟨⟨rfl, rfl, rfl, rfl⟩, .idle rfl rfl⟩
  | watch hsup => exact ⟨⟨rfl, rfl, rfl, rfl⟩, .watch (by rw [hsup]; trivial) trivial rfl⟩
  | unwatched hsup => exact ⟨⟨rfl, rfl, rfl, rfl⟩, .ends (by simp [running, hsup]) rfl (.inl rfl)⟩
  | done hsup => exact ⟨⟨rfl, rfl, rfl, rfl⟩, .watch (by rw [hsup]; trivial) trivial rfl⟩
  | ctxDone hsup =>
    refine ⟨⟨rfl, rfl, rfl, rfl⟩, .ends ?_ rfl (.inl rfl)⟩
    rcases hsup with ⟨client, hsup⟩ | ⟨attempt, hsup⟩ <;> simp [running, hsup]
  | cancelled hsup => exact ⟨⟨rfl, rfl, rfl, rfl⟩, .ends (by simp [running, hsup]) rfl (.inl rfl)⟩
  | disabled hsup => exact ⟨⟨rfl, rfl, rfl, rfl⟩, .ends (by simp [running, hsup]) rfl (.inr rfl)⟩
  | outage hsup _ hdisabled =>
    exact ⟨⟨rfl, rfl, rfl, rfl⟩, .outage (by rw [hsup]; trivial) hdisabled rfl rfl⟩
  | attempt hsup => exact ⟨⟨rfl, rfl, rfl, rfl⟩, .attempt _ hsup rfl rfl⟩
  | reconnected hsup => exact ⟨⟨rfl, rfl, rfl, rfl⟩, .reconnected _ hsup rfl rfl⟩
  | exhausted hsup => exact ⟨⟨rfl, rfl, rfl, rfl⟩, .ends (by simp [running, hsup]) rfl (.inr rfl)⟩
  | again hsup _ hmore => exact ⟨⟨rfl, rfl, rfl, rfl⟩, .again _ hsup hmore rfl rfl⟩

omit [Float64 F] in
theorem running_of_steady {h : Host F} (hsteady : Steady h.supervise) : h.running = true := by
  unfold running
  cases hsup : h.supervise <;> rw [hsup] at hsteady <;> first | rfl | cases hsteady

/-- The supervisor does not start by a step of its own. -/
theorem Progress.running {h h' : Host F} (hp : Progress h h') (hr : h'.running = true) :
    h.running = true := by
  cases hp with
  | idle hsup _ => simpa only [Host.running, hsup] using hr
  | watch hsteady _ _ => exact running_of_steady hsteady
  | ends hrunning _ _ => exact hrunning
  | outage hsteady _ _ _ => exact running_of_steady hsteady
  | attempt a hsup _ _ => simp [Host.running, hsup]
  | reconnected a hsup _ _ => simp [Host.running, hsup]
  | again a hsup _ _ _ => simp [Host.running, hsup]

theorem Progress.notStarted {h h' : Host F} (hp : Progress h h') :
    h'.supervise = .notStarted ↔ h.supervise = .notStarted := by
  cases hp with
  | idle hsup _ => rw [hsup]
  | watch hsteady hsteady' _ =>
    constructor
    · intro h
      rw [h] at hsteady'
      cases hsteady'
    · intro h
      rw [h] at hsteady
      cases hsteady
  | ends hrunning hsup _ =>
    rw [hsup]
    refine ⟨fun h => (by cases h), fun h => ?_⟩
    simp [Host.running, h] at hrunning
  | outage hsteady _ hsup _ =>
    rw [hsup]
    refine ⟨fun h => (by cases h), fun h => ?_⟩
    rw [h] at hsteady
    cases hsteady
  | attempt a hsup hsup' _ => simp [hsup, hsup']
  | reconnected a hsup hsup' _ => simp [hsup, hsup']
  | again a hsup _ hsup' _ => simp [hsup, hsup']

end Host

end AgentHostProtocol.Go.Hosts
