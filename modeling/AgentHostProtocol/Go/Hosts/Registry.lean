import AgentHostProtocol.Go.Hosts.Host
import AgentHostProtocol.Library.Lists
import AgentHostProtocol.Library.Record

/-!
# The Go multi-host client

`MultiHostClient` with any number of calls of `AddHost`, `RemoveHost` and `Shutdown` under way.
One step of a call is what it does between two places where another goroutine can come in: a
critical section, the end of a call to the client id store, a step of `openHost`, a
`Client.Shutdown`, the return from `supervised.Wait`.
-/

namespace AgentHostProtocol.Go.Hosts

open Library

/-- What `AddHost` returns. -/
inductive AddResult where
  | ok
  /-- The configuration has no id or no transport factory. -/
  | configError
  | duplicateHost
  /-- The client id store failed. -/
  | storeError
  /-- `openHost` failed. -/
  | openError
  deriving DecidableEq

/-- Where a call of `AddHost` is. -/
inductive Adding where
  | called
  /-- The id was not registered. -/
  | checked
  /-- The client id is stored. -/
  | resolved
  /-- In `openHost`, with its host registered. -/
  | opening (host : ℕ)
  /-- `openHost` failed and the id was deleted. -/
  | cleaned (host : ℕ)
  | returned (result : AddResult)
  deriving DecidableEq

/-- The host that `openHost` is called for. -/
def Adding.opening? : Adding → Option ℕ
  | .opening host => some host
  | _ => none

/-- A call of `AddHost`. -/
structure AddCall (F : Type) where
  id : String
  policy : ReconnectPolicy F
  pc : Adding
  deriving DecidableEq

/-- What a call of `RemoveHost` or `Shutdown` does next. -/
inductive Removing where
  /-- `Shutdown` takes the registry. -/
  | entered
  /-- `hs.cancel()` of the next host, or return. -/
  | next
  /-- Read `hs.client`. -/
  | cancelled
  /-- `client.Shutdown`, if there was one. -/
  | loaded (client : Option ℕ)
  /-- `hs.supervised.Wait()`. -/
  | waiting
  deriving DecidableEq

/-- A call of `RemoveHost` or `Shutdown`. -/
structure Remover where
  /-- The hosts it is done with. -/
  done : List ℕ
  /-- The host it works on and those that follow. -/
  left : List ℕ
  phase : Removing
  deriving DecidableEq

namespace Remover

/-- The call has returned. -/
def returned (r : Remover) : Bool := r.left.isEmpty && r.phase == .next

/-- The hosts it took out of the registry. -/
def took (r : Remover) : List ℕ := r.done ++ r.left

/-- It has read the client of host `k`. -/
def read (r : Remover) (k : ℕ) : Bool :=
  r.done.contains k ||
    match r.phase with
    | .loaded _ | .waiting => r.left.head? == some k
    | _ => false

end Remover

/-- What happened to the registry. -/
inductive Event where
  /-- A call put its host in. -/
  | inserted (call : ℕ) (id : String) (host : ℕ)
  /-- A call returned without an error. -/
  | succeeded (call : ℕ) (id : String)
  /-- A call that failed deleted its id, and with it the given host. -/
  | cleaned (id : String) (own : ℕ) (deleted : Option ℕ)
  /-- `RemoveHost` took the host with this id. -/
  | removed (id : String)
  /-- `Shutdown` took all hosts. -/
  | removedAll
  deriving DecidableEq

/-- `MultiHostClient`, with every host that was ever made. -/
structure State (F : Type) where
  hosts : List (Host F)
  registry : Record ℕ
  adds : List (AddCall F)
  removers : List Remover
  /-- `rootCtx` is done. -/
  rootCancelled : Bool
  log : List Event
  deriving DecidableEq

/-- A step of a goroutine. -/
inductive Act (F : Type) where
  /-- `AddHost` is called, with or without a transport factory. -/
  | addHost (id : String) (factory : Bool) (policy : ReconnectPolicy F)
  /-- A call of `AddHost` goes on; the store works or does not. -/
  | add (call : ℕ) (stored : Bool)
  /-- A step of what runs for a host. -/
  | host (host : ℕ) (act : Host.Act)
  /-- `RemoveHost` takes its host. -/
  | removeHost (id : String)
  /-- `Shutdown` is called. -/
  | shutdown
  /-- `Shutdown` takes all hosts, in some order. -/
  | take (remover : ℕ) (order : List ℕ)
  /-- A call of `RemoveHost` or `Shutdown` goes on. -/
  | remove (remover : ℕ)
  deriving DecidableEq

namespace State

variable {F : Type} [Float64 F]

/-- `NewMultiHostClient`. -/
def new : State F where
  hosts := []
  registry := .empty
  adds := []
  removers := []
  rootCancelled := false
  log := []

/-- The call `c` is at `pc`. -/
def setAdd (s : State F) (c : ℕ) (call : AddCall F) (pc : Adding) : State F :=
  { s with adds := s.adds.set c { call with pc := pc } }

/-- The second critical section of `AddHost`. -/
def insert (s : State F) (c : ℕ) (call : AddCall F) : State F :=
  { s.setAdd c call (.opening s.hosts.length) with
    hosts := s.hosts ++ [Host.new call.id c call.policy.registered s.rootCancelled]
    registry := s.registry.set call.id s.hosts.length
    log := s.log ++ [.inserted c call.id s.hosts.length] }

/-- `AddHost` starts the supervisor and returns. -/
def start (s : State F) (c : ℕ) (call : AddCall F) (k : ℕ) (h : Host F) : State F :=
  { s.setAdd c call (.returned .ok) with
    hosts := s.hosts.set k h.start
    log := s.log ++ [.succeeded c call.id] }

/-- `removeHostLocked`. -/
def clean (s : State F) (c : ℕ) (call : AddCall F) (k : ℕ) : State F :=
  { s.setAdd c call (.cleaned k) with
    registry := s.registry.delete call.id
    log := s.log ++ [.cleaned call.id k (s.registry.get? call.id)] }

/-- A call of `AddHost` goes on. -/
def addStep (s : State F) (c : ℕ) (call : AddCall F) (stored : Bool) : Option (State F) :=
  match call.pc with
  | .called =>
    match s.registry.get? call.id with
    | some _ => some (s.setAdd c call (.returned .duplicateHost))
    | none => some (s.setAdd c call .checked)
  | .checked => some (s.setAdd c call (if stored then .resolved else .returned .storeError))
  | .resolved => some (s.insert c call)
  | .opening k =>
    match s.hosts[k]? with
    | some h =>
      match h.opening with
      | .opened => some (s.start c call k h)
      | .failed => some (s.clean c call k)
      | _ => none
    | none => none
  | .cleaned k =>
    match s.hosts[k]? with
    | some h =>
      some { s.setAdd c call (.returned .openError) with hosts := s.hosts.set k h.cancel }
    | none => none
  | .returned _ => none

/-- `client.Shutdown(ctx)` if `hs.client` was not nil. -/
def shutdownLoaded (h : Host F) : Option ℕ → Host F
  | some client => h.shutdownClient client
  | none => h

/-- A call of `RemoveHost` or `Shutdown` goes on. -/
def removeStep (s : State F) (r : ℕ) (rem : Remover) : Option (State F) :=
  match rem.left with
  | [] => none
  | k :: left =>
    match s.hosts[k]? with
    | none => none
    | some h =>
      match rem.phase with
      | .entered => none
      | .next =>
        some { s with
          hosts := s.hosts.set k h.cancel
          removers := s.removers.set r { rem with phase := .cancelled } }
      | .cancelled => some { s with removers := s.removers.set r { rem with phase := .loaded h.client } }
      | .loaded client =>
        some { s with
          hosts := s.hosts.set k (shutdownLoaded h client)
          removers := s.removers.set r { rem with phase := .waiting } }
      | .waiting =>
        if h.running then none
        else some { s with removers := s.removers.set r ⟨rem.done ++ [k], left, .next⟩ }

/-- One step, `none` where the action is not enabled. -/
def step (s : State F) : Act F → Option (State F)
  | .addHost id factory policy =>
    let pc := if id = "" ∨ factory = false then .returned .configError else .called
    some { s with adds := s.adds ++ [⟨id, policy, pc⟩] }
  | .add c stored => (s.adds[c]?).bind fun call => s.addStep c call stored
  | .host k a =>
    (s.hosts[k]?).bind fun h => (h.step a).map fun h' => { s with hosts := s.hosts.set k h' }
  | .removeHost id =>
    match s.registry.get? id with
    | none => some { s with removers := s.removers ++ [⟨[], [], .next⟩] }
    | some k =>
      some { s with
        registry := s.registry.delete id
        removers := s.removers ++ [⟨[], [k], .next⟩]
        log := s.log ++ [.removed id] }
  | .shutdown =>
    some { s with
      rootCancelled := true
      hosts := s.hosts.map Host.cancel
      removers := s.removers ++ [⟨[], [], .entered⟩] }
  | .take r order =>
    match s.removers[r]? with
    | some ⟨_, _, .entered⟩ =>
      if order.isPerm (s.registry.entries.map Prod.snd) then
        some { s with
          registry := .empty
          removers := s.removers.set r ⟨[], order, .next⟩
          log := s.log ++ [.removedAll] }
      else none
    | _ => none
  | .remove r => (s.removers[r]?).bind fun rem => s.removeStep r rem

/-- What a step does. -/
inductive Moves (s : State F) : Act F → State F → Prop
  | addHost (id : String) (factory : Bool) (policy : ReconnectPolicy F) (pc : Adding) :
    pc = .called ∨ pc = .returned .configError →
    Moves s (.addHost id factory policy) { s with adds := s.adds ++ [⟨id, policy, pc⟩] }
  /-- A call of `AddHost` goes on without touching the hosts. -/
  | decide {c : ℕ} {stored : Bool} {call : AddCall F} (pc : Adding) : s.adds[c]? = some call →
    (call.pc = .called ∨ call.pc = .checked) →
    (pc = .checked ∨ pc = .resolved ∨ pc = .returned .duplicateHost ∨ pc = .returned .storeError) →
    Moves s (.add c stored) (s.setAdd c call pc)
  | insert {c : ℕ} {stored : Bool} {call : AddCall F} : s.adds[c]? = some call →
    call.pc = .resolved → Moves s (.add c stored) (s.insert c call)
  | start {c : ℕ} {stored : Bool} {call : AddCall F} {k : ℕ} {h : Host F} : s.adds[c]? = some call →
    call.pc = .opening k → s.hosts[k]? = some h → h.opening = .opened →
    Moves s (.add c stored) (s.start c call k h)
  | clean {c : ℕ} {stored : Bool} {call : AddCall F} {k : ℕ} {h : Host F} : s.adds[c]? = some call →
    call.pc = .opening k → s.hosts[k]? = some h → h.opening = .failed →
    Moves s (.add c stored) (s.clean c call k)
  | abandon {c : ℕ} {stored : Bool} {call : AddCall F} {k : ℕ} {h : Host F} :
    s.adds[c]? = some call → call.pc = .cleaned k → s.hosts[k]? = some h →
    Moves s (.add c stored)
      { s.setAdd c call (.returned .openError) with hosts := s.hosts.set k h.cancel }
  | host {k : ℕ} {a : Host.Act} {h h' : Host F} : s.hosts[k]? = some h → h.step a = some h' →
    Moves s (.host k a) { s with hosts := s.hosts.set k h' }
  | unknown {id : String} : s.registry.get? id = none →
    Moves s (.removeHost id) { s with removers := s.removers ++ [⟨[], [], .next⟩] }
  | removeHost {id : String} {k : ℕ} : s.registry.get? id = some k →
    Moves s (.removeHost id) { s with
      registry := s.registry.delete id
      removers := s.removers ++ [⟨[], [k], .next⟩]
      log := s.log ++ [.removed id] }
  | shutdown : Moves s .shutdown { s with
      rootCancelled := true
      hosts := s.hosts.map Host.cancel
      removers := s.removers ++ [⟨[], [], .entered⟩] }
  | take {r : ℕ} {rem : Remover} {order : List ℕ} : s.removers[r]? = some rem →
    rem.phase = .entered → order.Perm (s.registry.entries.map Prod.snd) →
    Moves s (.take r order) { s with
      registry := .empty
      removers := s.removers.set r ⟨[], order, .next⟩
      log := s.log ++ [.removedAll] }
  | cancel {r k : ℕ} {rem : Remover} {left : List ℕ} {h : Host F} : s.removers[r]? = some rem →
    rem.left = k :: left → rem.phase = .next → s.hosts[k]? = some h →
    Moves s (.remove r) { s with
      hosts := s.hosts.set k h.cancel
      removers := s.removers.set r ⟨rem.done, k :: left, .cancelled⟩ }
  | load {r k : ℕ} {rem : Remover} {left : List ℕ} {h : Host F} : s.removers[r]? = some rem →
    rem.left = k :: left → rem.phase = .cancelled → s.hosts[k]? = some h →
    Moves s (.remove r)
      { s with removers := s.removers.set r ⟨rem.done, k :: left, .loaded h.client⟩ }
  | close {r k : ℕ} {rem : Remover} {left : List ℕ} {h : Host F} {client : Option ℕ} :
    s.removers[r]? = some rem → rem.left = k :: left → rem.phase = .loaded client →
    s.hosts[k]? = some h →
    Moves s (.remove r) { s with
      hosts := s.hosts.set k (shutdownLoaded h client)
      removers := s.removers.set r ⟨rem.done, k :: left, .waiting⟩ }
  | wait {r k : ℕ} {rem : Remover} {left : List ℕ} {h : Host F} : s.removers[r]? = some rem →
    rem.left = k :: left → rem.phase = .waiting → s.hosts[k]? = some h → h.running = false →
    Moves s (.remove r) { s with removers := s.removers.set r ⟨rem.done ++ [k], left, .next⟩ }

theorem moves_of_addStep {s s' : State F} {c : ℕ} {call : AddCall F} {stored : Bool}
    (hc : s.adds[c]? = some call) (hs : s.addStep c call stored = some s') :
    Moves s (.add c stored) s' := by
  cases hpc : call.pc with
  | called =>
    simp only [addStep, hpc] at hs
    split at hs <;> cases hs
    · exact .decide _ hc (.inl hpc) (by simp)
    · exact .decide _ hc (.inl hpc) (by simp)
  | checked =>
    simp only [addStep, hpc] at hs
    cases hs
    exact .decide _ hc (.inr hpc) (by cases stored <;> simp)
  | resolved =>
    simp only [addStep, hpc] at hs
    cases hs
    exact .insert hc hpc
  | opening k =>
    simp only [addStep, hpc] at hs
    split at hs
    · next h hh =>
      split at hs
      · next hopening =>
        cases hs
        exact .start hc hpc hh hopening
      · next hopening =>
        cases hs
        exact .clean hc hpc hh hopening
      · cases hs
    · cases hs
  | cleaned k =>
    simp only [addStep, hpc] at hs
    split at hs
    · next h hh =>
      cases hs
      exact .abandon hc hpc hh
    · cases hs
  | returned result =>
    simp only [addStep, hpc] at hs
    cases hs

theorem moves_of_removeStep {s s' : State F} {r : ℕ} {rem : Remover} (hr : s.removers[r]? = some rem)
    (hs : s.removeStep r rem = some s') : Moves s (.remove r) s' := by
  cases hleft : rem.left with
  | nil =>
    simp only [removeStep, hleft] at hs
    cases hs
  | cons k left =>
    cases hh : s.hosts[k]? with
    | none =>
      simp only [removeStep, hleft, hh] at hs
      cases hs
    | some h =>
      cases hphase : rem.phase with
      | entered =>
        simp only [removeStep, hleft, hh, hphase] at hs
        cases hs
      | next =>
        simp only [removeStep, hleft, hh, hphase] at hs
        cases hs
        exact .cancel hr hleft hphase hh
      | cancelled =>
        simp only [removeStep, hleft, hh, hphase] at hs
        cases hs
        exact .load hr hleft hphase hh
      | loaded client =>
        simp only [removeStep, hleft, hh, hphase] at hs
        cases hs
        exact .close hr hleft hphase hh
      | waiting =>
        simp only [removeStep, hleft, hh, hphase] at hs
        split at hs
        · cases hs
        · next hrunning =>
          cases hs
          exact .wait hr hleft hphase hh (Bool.eq_false_iff.mpr hrunning)

/-- Every step is one of these. -/
theorem step_moves {s s' : State F} {a : Act F} (hs : s.step a = some s') : Moves s a s' := by
  cases a with
  | addHost id factory policy =>
    cases hs
    refine .addHost id factory policy _ ?_
    by_cases h : id = "" ∨ factory = false
    · exact .inr (if_pos h)
    · exact .inl (if_neg h)
  | add c stored =>
    obtain ⟨call, hc, hs⟩ := Option.bind_eq_some_iff.mp hs
    exact moves_of_addStep hc hs
  | host k a =>
    obtain ⟨h, hh, hs⟩ := Option.bind_eq_some_iff.mp hs
    obtain ⟨h', hstep, rfl⟩ := Option.map_eq_some_iff.mp hs
    exact .host hh hstep
  | removeHost id =>
    simp only [step] at hs
    split at hs
    · next hnone =>
      cases hs
      exact .unknown hnone
    · next k hk =>
      cases hs
      exact .removeHost hk
  | shutdown =>
    cases hs
    exact .shutdown
  | take r order =>
    simp only [step] at hs
    split at hs
    · next hr =>
      split at hs
      · next hperm =>
        cases hs
        exact .take hr rfl (List.isPerm_iff.mp hperm)
      · cases hs
    · cases hs
  | remove r =>
    obtain ⟨rem, hr, hs⟩ := Option.bind_eq_some_iff.mp hs
    exact moves_of_removeStep hr hs

end State

end AgentHostProtocol.Go.Hosts
