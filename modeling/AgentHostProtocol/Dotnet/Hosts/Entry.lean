import AgentHostProtocol.Library.Lists
import AgentHostProtocol.Library.Runs

/-!
# One entry of the .NET multi-host client

`HostEntry` with the tasks that run for it: the calls of `OpenHostCoreAsync`, of which the one that is
awaited can be abandoned and then goes on by itself, `SuperviseAsync` and the event pumps. A client or
a pump is a number; those that run are listed. What sets the supervisor off (a drop, a manual
reconnect) and how long it waits between attempts is left open.

`BeginCommit` and `InstallOpenHost` run under the gate and without an await, so they are one step.
-/

namespace AgentHostProtocol.Dotnet.Hosts.Registry

open Library

/-- Where a call of `OpenHostCoreAsync` is. -/
inductive Opening where
  /-- In `TransportFactory`. -/
  | factory
  /-- Past `ThrowIfCancellationRequested`. -/
  | checked
  /-- In a request of the handshake, or before the gate. -/
  | handshake (client : ℕ)
  /-- In the `ShutdownAsync` of its `finally`. -/
  | closing (client : ℕ)
  | ended (installed : Bool)
  deriving DecidableEq

/-- A call of `OpenHostCoreAsync`. -/
structure Attempt where
  phase : Opening
  /-- The token of the caller is cancelled, or that of a manual reconnect. -/
  cancelled : Bool
  deriving DecidableEq

/-- Where `SuperviseAsync` is. -/
inductive Supervise where
  | notStarted
  /-- At the top of the outer loop. -/
  | loading
  | watching (client : ℕ)
  /-- Before the gate, after a drop or a manual reconnect. -/
  | woken (client : ℕ)
  /-- In `client.ShutdownAsync`, with the gate. -/
  | replacing (client : ℕ)
  /-- It awaits the old pump, with the gate. -/
  | draining
  /-- It waits for the next attempt. -/
  | between
  | opening (attempt : ℕ)
  | returned
  deriving DecidableEq

/-- Who has taken `ConnectionGate`. -/
inductive Holder where
  | supervisor
  /-- A call of `RemoveHostAsync` or `ShutdownAsync`. -/
  | remover (call : ℕ)
  deriving DecidableEq

/-- `HostEntry`, and what runs for it. -/
structure Entry where
  id : String
  /-- The call of `AddHostAsync` that made it. -/
  owner : ℕ
  /-- `LifetimeCts`. -/
  cancelled : Bool
  disposed : Bool
  gate : Option Holder
  /-- `CurrentClient`. -/
  client : Option ℕ
  /-- The clients that were created. -/
  created : ℕ
  /-- Those that run. -/
  clients : List ℕ
  /-- The clients whose pumps run. -/
  pumps : List ℕ
  /-- The client of `PumpTask`. -/
  pumpTask : Option ℕ
  attempts : List Attempt
  supervise : Supervise
  deriving DecidableEq

namespace Entry

/-- The entry that `AddHostAsync` makes, with its first `OpenHostCoreAsync` under way. -/
def new (id : String) (owner : ℕ) : Entry where
  id := id
  owner := owner
  cancelled := false
  disposed := false
  gate := none
  client := none
  created := 0
  clients := []
  pumps := []
  pumpTask := none
  attempts := [⟨.factory, false⟩]
  supervise := .notStarted

/-- `LifetimeCts.Cancel()`. -/
def cancel (h : Entry) : Entry := { h with cancelled := true }

/-- `Dispose()`. -/
def dispose (h : Entry) : Entry := { h with disposed := true }

/-- `client.ShutdownAsync`, if there is one. -/
def shutdownClient (h : Entry) : Option ℕ → Entry
  | some client => { h with clients := h.clients.filter (· ≠ client) }
  | none => h

/-- `SupervisorTask = Task.Run(() => SuperviseAsync(entry))`. -/
def start (h : Entry) : Entry := { h with supervise := .loading }

/-- A call of `OpenHostCoreAsync` goes on. -/
def setAttempt (h : Entry) (i : ℕ) (a : Attempt) (phase : Opening) : Entry :=
  { h with attempts := h.attempts.set i { a with phase } }

/-- Whether `SuperviseAsync` runs. -/
def supervised (h : Entry) : Bool :=
  match h.supervise with
  | .notStarted | .returned => false
  | _ => true

/-- A step of what runs for an entry. -/
inductive Act where
  /-- `TransportFactory` ends. -/
  | factory (attempt : ℕ) (ok : Bool)
  /-- `AhpClient.Connect`. -/
  | connect (attempt : ℕ)
  /-- `BeginCommit` and `InstallOpenHost`. -/
  | commit (attempt : ℕ)
  /-- The handshake fails, or `BeginCommit` throws. -/
  | abort (attempt : ℕ)
  /-- The client of a failed call is shut down. -/
  | close (attempt : ℕ)
  /-- The caller cancels, or a manual reconnect does. -/
  | cancelAttempt (attempt : ℕ)
  /-- The transport of a client fails. -/
  | drop (client : ℕ)
  /-- A pump ends. -/
  | pumpEnds (client : ℕ)
  /-- The supervisor reads `CurrentClient`. -/
  | load
  /-- A drop or a manual reconnect. -/
  | wake
  /-- It takes the gate, and `BeginReconnect`. -/
  | acquire
  /-- Its `client.ShutdownAsync` is done. -/
  | replaced
  /-- The old pump has ended; it gives the gate back. -/
  | drained
  /-- It calls `OpenHostAsync`. -/
  | attempt
  /-- That ends. -/
  | resume
  /-- It returns, or throws. -/
  | return
  deriving DecidableEq

/-- One step, `none` where the action is not enabled. -/
def step (h : Entry) : Act → Option Entry
  | .factory i ok =>
    match h.attempts[i]? with
    | some ⟨.factory, cancelled⟩ =>
      some (h.setAttempt i ⟨.factory, cancelled⟩
        (if ok && !cancelled && !h.cancelled then .checked else .ended false))
    | _ => none
  | .connect i =>
    match h.attempts[i]? with
    | some ⟨.checked, cancelled⟩ =>
      some { h.setAttempt i ⟨.checked, cancelled⟩ (.handshake h.created) with
        created := h.created + 1
        clients := h.created :: h.clients }
    | _ => none
  | .commit i =>
    match h.attempts[i]? with
    | some ⟨.handshake client, false⟩ =>
      if h.cancelled = false ∧ h.gate = none then
        some { h.setAttempt i ⟨.handshake client, false⟩ (.ended true) with
          client := some client
          pumps := client :: h.pumps
          pumpTask := some client }
      else none
    | _ => none
  | .abort i =>
    match h.attempts[i]? with
    | some ⟨.handshake client, cancelled⟩ =>
      some (h.setAttempt i ⟨.handshake client, cancelled⟩ (.closing client))
    | _ => none
  | .close i =>
    match h.attempts[i]? with
    | some ⟨.closing client, cancelled⟩ =>
      some ((h.setAttempt i ⟨.closing client, cancelled⟩ (.ended false)).shutdownClient (some client))
    | _ => none
  | .cancelAttempt i =>
    match h.attempts[i]? with
    | some a => some { h with attempts := h.attempts.set i { a with cancelled := true } }
    | none => none
  | .drop client => some (h.shutdownClient (some client))
  | .pumpEnds client => some { h with pumps := h.pumps.filter (· ≠ client) }
  | .load =>
    match h.supervise with
    | .loading =>
      some (match h.client with
        | none => { h with supervise := .returned }
        | some client => { h with supervise := .watching client })
    | _ => none
  | .wake =>
    match h.supervise with
    | .watching client => some { h with supervise := .woken client }
    | _ => none
  | .acquire =>
    match h.supervise with
    | .woken client =>
      if h.cancelled = false ∧ h.gate = none then
        some { h with gate := some .supervisor, client := none, supervise := .replacing client }
      else none
    | _ => none
  | .replaced =>
    match h.supervise with
    | .replacing client => some { h.shutdownClient (some client) with supervise := .draining }
    | _ => none
  | .drained =>
    match h.supervise with
    | .draining =>
      if ∀ client ∈ h.pumpTask, client ∉ h.pumps then
        some { h with gate := none, supervise := .between }
      else none
    | _ => none
  | .attempt =>
    match h.supervise with
    | .between =>
      if h.cancelled then none
      else some { h with
        attempts := h.attempts ++ [⟨.factory, false⟩]
        supervise := .opening h.attempts.length }
    | _ => none
  | .resume =>
    match h.supervise with
    | .opening i =>
      match h.attempts[i]? with
      | some ⟨.ended true, _⟩ => some { h with supervise := .loading }
      | some ⟨.ended false, _⟩ => some { h with supervise := .between }
      | some ⟨_, cancelled⟩ =>
        if cancelled || h.cancelled then some { h with supervise := .between } else none
      | none => none
    | _ => none
  | .return =>
    match h.supervise with
    | .between => some { h with supervise := .returned }
    | .loading | .watching _ | .woken _ =>
      if h.cancelled then some { h with supervise := .returned } else none
    | _ => none

/-- What a step does. -/
inductive Does (h : Entry) : Act → Entry → Prop
  | unconnected {i : ℕ} {ok cancelled : Bool} : h.attempts[i]? = some ⟨.factory, cancelled⟩ →
    Does h (.factory i ok) (h.setAttempt i ⟨.factory, cancelled⟩ (.ended false))
  | checked {i : ℕ} : h.attempts[i]? = some ⟨.factory, false⟩ → h.cancelled = false →
    Does h (.factory i true) (h.setAttempt i ⟨.factory, false⟩ .checked)
  | connected {i : ℕ} {cancelled : Bool} : h.attempts[i]? = some ⟨.checked, cancelled⟩ →
    Does h (.connect i) { h.setAttempt i ⟨.checked, cancelled⟩ (.handshake h.created) with
      created := h.created + 1
      clients := h.created :: h.clients }
  | installed {i client : ℕ} : h.attempts[i]? = some ⟨.handshake client, false⟩ →
    h.cancelled = false → h.gate = none →
    Does h (.commit i) { h.setAttempt i ⟨.handshake client, false⟩ (.ended true) with
      client := some client
      pumps := client :: h.pumps
      pumpTask := some client }
  | aborted {i client : ℕ} {cancelled : Bool} :
    h.attempts[i]? = some ⟨.handshake client, cancelled⟩ →
    Does h (.abort i) (h.setAttempt i ⟨.handshake client, cancelled⟩ (.closing client))
  | closed {i client : ℕ} {cancelled : Bool} :
    h.attempts[i]? = some ⟨.closing client, cancelled⟩ →
    Does h (.close i)
      ((h.setAttempt i ⟨.closing client, cancelled⟩ (.ended false)).shutdownClient (some client))
  | cancelled {i : ℕ} {a : Attempt} : h.attempts[i]? = some a →
    Does h (.cancelAttempt i) { h with attempts := h.attempts.set i { a with cancelled := true } }
  | dropped (client : ℕ) : Does h (.drop client) (h.shutdownClient (some client))
  | pumpEnded (client : ℕ) :
    Does h (.pumpEnds client) { h with pumps := h.pumps.filter (· ≠ client) }
  | loaded {client : ℕ} : h.supervise = .loading → h.client = some client →
    Does h .load { h with supervise := .watching client }
  | woken {client : ℕ} : h.supervise = .watching client →
    Does h .wake { h with supervise := .woken client }
  | acquired {client : ℕ} : h.supervise = .woken client → h.cancelled = false → h.gate = none →
    Does h .acquire
      { h with gate := some .supervisor, client := none, supervise := .replacing client }
  | replaced {client : ℕ} : h.supervise = .replacing client →
    Does h .replaced { h.shutdownClient (some client) with supervise := .draining }
  | drained : h.supervise = .draining → (∀ client, h.pumpTask = some client → client ∉ h.pumps) →
    Does h .drained { h with gate := none, supervise := .between }
  | attempted : h.supervise = .between → h.cancelled = false → Does h .attempt
    { h with attempts := h.attempts ++ [⟨.factory, false⟩], supervise := .opening h.attempts.length }
  | reconnected {i : ℕ} {cancelled : Bool} : h.supervise = .opening i →
    h.attempts[i]? = some ⟨.ended true, cancelled⟩ → Does h .resume { h with supervise := .loading }
  | again {i : ℕ} {a : Attempt} : h.supervise = .opening i → h.attempts[i]? = some a →
    a.phase ≠ .ended true → (a.phase = .ended false ∨ a.cancelled = true ∨ h.cancelled = true) →
    Does h .resume { h with supervise := .between }
  /-- The supervisor returns from an await that its token ends, or throws between two attempts. -/
  | returned {a : Act} : h.supervised = true → (∀ i, h.supervise ≠ .opening i) →
    (∀ client, h.supervise ≠ .replacing client) → h.supervise ≠ .draining →
    Does h a { h with supervise := .returned }

theorem returned_of_supervise {h : Entry} {a : Act}
    (hsup : h.supervise = .loading ∨ (∃ client, h.supervise = .watching client) ∨
      (∃ client, h.supervise = .woken client) ∨ h.supervise = .between) :
    Does h a { h with supervise := .returned } := by
  rcases hsup with hsup | ⟨client, hsup⟩ | ⟨client, hsup⟩ | hsup
  all_goals exact .returned (by simp [supervised, hsup]) (by simp [hsup]) (by simp [hsup]) (by simp [hsup])

/-- Every step is one of these. -/
theorem step_does {h h' : Entry} {a : Act} (hs : h.step a = some h') : Does h a h' := by
  cases a with
  | factory i ok =>
    simp only [step] at hs
    split at hs
    · next cancelled hi =>
      cases hs
      split
      · next hok =>
        simp only [Bool.and_eq_true, Bool.not_eq_true'] at hok
        obtain ⟨⟨rfl, rfl⟩, hcancelled⟩ := hok
        exact .checked hi hcancelled
      · exact .unconnected hi
    · cases hs
  | connect i =>
    simp only [step] at hs
    split at hs <;> cases hs
    next hi => exact .connected hi
  | commit i =>
    simp only [step] at hs
    split at hs
    · next client hi =>
      split at hs <;> cases hs
      next hfree => exact .installed hi hfree.1 hfree.2
    · cases hs
  | abort i =>
    simp only [step] at hs
    split at hs <;> cases hs
    next hi => exact .aborted hi
  | close i =>
    simp only [step] at hs
    split at hs <;> cases hs
    next hi => exact .closed hi
  | cancelAttempt i =>
    simp only [step] at hs
    split at hs <;> cases hs
    next hi => exact .cancelled hi
  | drop client =>
    cases hs
    exact .dropped client
  | pumpEnds client =>
    cases hs
    exact .pumpEnded client
  | load =>
    simp only [step] at hs
    split at hs
    · next hsup =>
      cases hs
      split
      · exact returned_of_supervise (by simp [hsup])
      · next client hclient => exact .loaded hsup hclient
    · cases hs
  | wake =>
    simp only [step] at hs
    split at hs <;> cases hs
    next hsup => exact .woken hsup
  | acquire =>
    simp only [step] at hs
    split at hs
    · next hsup =>
      split at hs <;> cases hs
      next hfree => exact .acquired hsup hfree.1 hfree.2
    · cases hs
  | replaced =>
    simp only [step] at hs
    split at hs <;> cases hs
    next hsup => exact .replaced hsup
  | drained =>
    simp only [step] at hs
    split at hs
    · next hsup =>
      split at hs <;> cases hs
      next hpump => exact .drained hsup hpump
    · cases hs
  | attempt =>
    simp only [step] at hs
    split at hs
    · next hsup =>
      split at hs <;> cases hs
      next hcancelled => exact .attempted hsup (Bool.eq_false_iff.mpr hcancelled)
    · cases hs
  | resume =>
    simp only [step] at hs
    split at hs
    · next i hsup =>
      split at hs
      · next hi =>
        cases hs
        exact .reconnected hsup hi
      · next hi =>
        cases hs
        exact .again hsup hi nofun (.inl rfl)
      · next phase cancelled htrue hfalse hi =>
        split at hs <;> cases hs
        next hover =>
        exact .again hsup hi htrue (.inr ((Bool.or_eq_true _ _).mp hover))
      · cases hs
    · cases hs
  | «return» =>
    simp only [step] at hs
    split at hs
    · next hsup =>
      cases hs
      exact returned_of_supervise (by simp [hsup])
    · next hsup =>
      split at hs <;> cases hs
      exact returned_of_supervise (by simp [hsup])
    · next hsup =>
      split at hs <;> cases hs
      exact returned_of_supervise (by simp [hsup])
    · next hsup =>
      split at hs <;> cases hs
      exact returned_of_supervise (by simp [hsup])
    · cases hs

end Entry

end AgentHostProtocol.Dotnet.Hosts.Registry
