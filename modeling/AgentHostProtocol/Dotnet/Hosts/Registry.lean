import AgentHostProtocol.Dotnet.Hosts.Entry
import AgentHostProtocol.Library.Record

/-!
# The .NET multi-host client

`MultiHostClient` with any number of calls of `AddHostAsync`, `RemoveHostAsync` and `ShutdownAsync`
under way. One step of a call is what it does between two places where another task can come in: the
reading of `_didShutDown`, an operation on `_hosts`, the end of an await.
-/

namespace AgentHostProtocol.Dotnet.Hosts.Registry

open Library

/-- How `AddHostAsync` ends. -/
inductive AddResult where
  | ok
  /-- The configuration has no id or no transport factory. -/
  | configError
  | hostShutDown
  /-- The client id store failed. -/
  | storeError
  | duplicateHost
  /-- `OpenHostAsync` failed. -/
  | openError
  deriving DecidableEq

/-- Where a call of `AddHostAsync` is. -/
inductive Adding where
  | called
  /-- `_didShutDown` was not set. -/
  | checked
  /-- The client id is stored. -/
  | stored
  /-- In `OpenHostAsync`, with its entry in `_hosts`. -/
  | opening (entry : ℕ)
  /-- `OpenHostAsync` threw. -/
  | failed (entry : ℕ)
  /-- `TryRemove` removed an entry. -/
  | unregistered (entry : ℕ)
  | returned (result : AddResult)
  deriving DecidableEq

/-- A call of `AddHostAsync`. -/
structure AddCall where
  id : String
  pc : Adding
  deriving DecidableEq

/-- What a call of `RemoveHostAsync` or `ShutdownAsync` does next. -/
inductive Removing where
  /-- `ShutdownAsync` copies `_hosts`. -/
  | entered
  /-- It clears `_hosts`. -/
  | copied
  /-- `LifetimeCts.Cancel()` of the next entry to close, or the wait for the next supervisor. -/
  | next
  /-- `ConnectionGate.WaitAsync`. -/
  | cancelled
  /-- `client.ShutdownAsync`, if there was a client, and the release of the gate. -/
  | closing (client : Option ℕ)
  /-- It awaits `PumpTask`. -/
  | joined
  | returned
  /-- An entry that it uses was disposed. -/
  | faulted
  deriving DecidableEq

/-- A call of `RemoveHostAsync` or `ShutdownAsync`. -/
structure Remover where
  shutdown : Bool
  /-- The entries that it removes. -/
  took : List ℕ
  /-- Those whose client it has yet to shut down. -/
  toClose : List ℕ
  /-- Those whose tasks it has yet to await. -/
  toAwait : List ℕ
  phase : Removing
  deriving DecidableEq

/-- The `TryRemove` of a call of `AddHostAsync` whose entry is `own`. -/
structure Cleaned where
  id : String
  own : ℕ
  deleted : Option ℕ
  deriving DecidableEq

/-- `MultiHostClient`, with every entry that was ever made. -/
structure State where
  entries : List Entry
  /-- `_hosts`. -/
  registry : Record ℕ
  adds : List AddCall
  removers : List Remover
  didShutDown : Bool
  log : List Cleaned
  deriving DecidableEq

/-- A step of a task. -/
inductive Act where
  /-- `AddHostAsync` is called, with or without a transport factory. -/
  | addHost (id : String) (factory : Bool)
  /-- A call of `AddHostAsync` goes on; the store works or does not. -/
  | add (call : ℕ) (stored : Bool)
  /-- A step of what runs for an entry. -/
  | entry (entry : ℕ) (act : Entry.Act)
  /-- `RemoveHostAsync` is called. -/
  | removeHost (id : String)
  /-- `ShutdownAsync` is called. -/
  | shutdown
  /-- `ShutdownAsync` copies `_hosts`, in some order. -/
  | copy (remover : ℕ) (order : List ℕ)
  /-- A call of `RemoveHostAsync` or `ShutdownAsync` goes on. -/
  | remove (remover : ℕ)
  deriving DecidableEq

namespace State

/-- `new MultiHostClient`. -/
def new : State where
  entries := []
  registry := .empty
  adds := []
  removers := []
  didShutDown := false
  log := []

/-- The call `c` is at `pc`. -/
def setAdd (s : State) (c : ℕ) (call : AddCall) (pc : Adding) : State :=
  { s with adds := s.adds.set c { call with pc := pc } }

def setEntry (s : State) (k : ℕ) (h : Entry) : State := { s with entries := s.entries.set k h }

def setRemover (s : State) (r : ℕ) (rem : Remover) : State :=
  { s with removers := s.removers.set r rem }

/-- `TryAdd` of a new entry. -/
def insert (s : State) (c : ℕ) (call : AddCall) : State :=
  { s.setAdd c call (.opening s.entries.length) with
    entries := s.entries ++ [Entry.new call.id c]
    registry := s.registry.set call.id s.entries.length }

/-- `TryRemove` by a call that failed. -/
def clean (s : State) (c : ℕ) (call : AddCall) (k : ℕ) : State :=
  let deleted := s.registry.get? call.id
  { s.setAdd c call (if deleted.isSome then .unregistered k else .returned .openError) with
    registry := s.registry.delete call.id
    log := s.log ++ [⟨call.id, k, deleted⟩] }

/-- A call of `AddHostAsync` goes on. -/
def addStep (s : State) (c : ℕ) (call : AddCall) (stored : Bool) : Option State :=
  match call.pc with
  | .called => some (s.setAdd c call (if s.didShutDown then .returned .hostShutDown else .checked))
  | .checked => some (s.setAdd c call (if stored then .stored else .returned .storeError))
  | .stored =>
    match s.registry.get? call.id with
    | some _ => some (s.setAdd c call (.returned .duplicateHost))
    | none => some (s.insert c call)
  | .opening k =>
    (s.entries[k]?).bind fun h =>
      match h.attempts[(0 : ℕ)]? with
      | some ⟨.ended true, _⟩ => some ((s.setAdd c call (.returned .ok)).setEntry k h.start)
      | some ⟨.ended false, _⟩ => some (s.setAdd c call (.failed k))
      | some ⟨_, cancelled⟩ =>
        if cancelled || h.cancelled then some (s.setAdd c call (.failed k)) else none
      | none => none
  | .failed k => some (s.clean c call k)
  | .unregistered k =>
    (s.entries[k]?).map fun h =>
      (s.setAdd c call (.returned .openError)).setEntry k h.cancel.dispose
  | .returned _ => none

/-- A call of `RemoveHostAsync` or `ShutdownAsync` goes on. -/
def removeStep (s : State) (r : ℕ) (rem : Remover) : Option State :=
  match rem.phase, rem.toClose, rem.toAwait with
  | .copied, _, _ => some { s.setRemover r { rem with phase := .next } with registry := .empty }
  | .next, k :: _, _ =>
    (s.entries[k]?).map fun h =>
      if h.disposed then s.setRemover r { rem with phase := .faulted }
      else (s.setRemover r { rem with phase := .cancelled }).setEntry k h.cancel
  | .cancelled, k :: _, _ =>
    (s.entries[k]?).bind fun h =>
      if h.disposed then some (s.setRemover r { rem with phase := .faulted })
      else if h.gate = none then
        some ((s.setRemover r { rem with phase := .closing h.client }).setEntry k
          { h with gate := some (.remover r) })
      else none
  | .closing client, k :: toClose, _ =>
    (s.entries[k]?).map fun h =>
      if h.disposed then
        (s.setRemover r { rem with phase := .faulted }).setEntry k (h.shutdownClient client)
      else (s.setRemover r { rem with toClose := toClose, phase := .next }).setEntry k
        { h.shutdownClient client with gate := none }
  | .next, [], k :: _ =>
    (s.entries[k]?).bind fun h =>
      if h.supervised then none else some (s.setRemover r { rem with phase := .joined })
  | .joined, _, k :: toAwait =>
    (s.entries[k]?).bind fun h =>
      if ∀ client ∈ h.pumpTask, client ∉ h.pumps then
        some ((s.setRemover r { rem with toAwait := toAwait, phase := .next }).setEntry k h.dispose)
      else none
  | .next, [], [] => some (s.setRemover r { rem with phase := .returned })
  | _, _, _ => none

/-- One step, `none` where the action is not enabled. -/
def step (s : State) : Act → Option State
  | .addHost id factory =>
    some { s with adds := s.adds ++ [⟨id, if factory then .called else .returned .configError⟩] }
  | .add c stored => (s.adds[c]?).bind fun call => s.addStep c call stored
  | .entry k a => (s.entries[k]?).bind fun h => (h.step a).map (s.setEntry k)
  | .removeHost id =>
    match s.registry.get? id with
    | none => some s
    | some k =>
      some { s with
        registry := s.registry.delete id
        removers := s.removers ++ [⟨false, [k], [k], [k], .next⟩] }
  | .shutdown =>
    some { s with
      didShutDown := true
      removers := s.removers ++ [⟨true, [], [], [], if s.didShutDown then .returned else .entered⟩] }
  | .copy r order =>
    match s.removers[r]? with
    | some ⟨true, _, _, _, .entered⟩ =>
      if order.isPerm (s.registry.entries.map Prod.snd) then
        some (s.setRemover r ⟨true, order, order, order, .copied⟩)
      else none
    | _ => none
  | .remove r => (s.removers[r]?).bind fun rem => s.removeStep r rem

/-- What a step does. -/
inductive Moves (s : State) : Act → State → Prop
  | addHost (id : String) (factory : Bool) (pc : Adding) : pc = .called ∨ pc = .returned .configError →
    Moves s (.addHost id factory) { s with adds := s.adds ++ [⟨id, pc⟩] }
  /-- A call of `AddHostAsync` goes on without touching an entry. -/
  | decide {c : ℕ} {stored : Bool} {call : AddCall} (pc : Adding) : s.adds[c]? = some call →
    (pc = .checked ∨ pc = .stored ∨ ∃ result, pc = .returned result) →
    Moves s (.add c stored) (s.setAdd c call pc)
  | insert {c : ℕ} {stored : Bool} {call : AddCall} : s.adds[c]? = some call → call.pc = .stored →
    s.registry.get? call.id = none → Moves s (.add c stored) (s.insert c call)
  | start {c k : ℕ} {stored : Bool} {call : AddCall} {h : Entry} {a : Attempt} : s.adds[c]? = some call →
    call.pc = .opening k → s.entries[k]? = some h → h.attempts[0]? = some a → a.phase = .ended true →
    Moves s (.add c stored) ((s.setAdd c call (.returned .ok)).setEntry k h.start)
  | fail {c k : ℕ} {stored : Bool} {call : AddCall} {h : Entry} {a : Attempt} : s.adds[c]? = some call →
    call.pc = .opening k → s.entries[k]? = some h → h.attempts[0]? = some a → a.phase ≠ .ended true →
    (a.phase = .ended false ∨ a.cancelled = true ∨ h.cancelled = true) →
    Moves s (.add c stored) (s.setAdd c call (.failed k))
  | clean {c k : ℕ} {stored : Bool} {call : AddCall} : s.adds[c]? = some call → call.pc = .failed k →
    Moves s (.add c stored) (s.clean c call k)
  | dispose {c k : ℕ} {stored : Bool} {call : AddCall} {h : Entry} : s.adds[c]? = some call →
    call.pc = .unregistered k → s.entries[k]? = some h →
    Moves s (.add c stored) ((s.setAdd c call (.returned .openError)).setEntry k h.cancel.dispose)
  | entry {k : ℕ} {a : Entry.Act} {h h' : Entry} : s.entries[k]? = some h → h.step a = some h' →
    Moves s (.entry k a) (s.setEntry k h')
  | unknown {id : String} : s.registry.get? id = none → Moves s (.removeHost id) s
  | removeHost {id : String} {k : ℕ} : s.registry.get? id = some k →
    Moves s (.removeHost id) { s with
      registry := s.registry.delete id
      removers := s.removers ++ [⟨false, [k], [k], [k], .next⟩] }
  | shutdown : Moves s .shutdown { s with
      didShutDown := true
      removers := s.removers ++ [⟨true, [], [], [], if s.didShutDown then .returned else .entered⟩] }
  | copy {r : ℕ} {rem : Remover} {order : List ℕ} : s.removers[r]? = some rem → rem.shutdown = true →
    rem.phase = .entered → order.Perm (s.registry.entries.map Prod.snd) →
    Moves s (.copy r order) (s.setRemover r ⟨true, order, order, order, .copied⟩)
  | clear {r : ℕ} {rem : Remover} : s.removers[r]? = some rem → rem.phase = .copied →
    Moves s (.remove r) { s.setRemover r { rem with phase := .next } with registry := .empty }
  | cancel {r k : ℕ} {rem : Remover} {toClose : List ℕ} {h : Entry} : s.removers[r]? = some rem →
    rem.phase = .next → rem.toClose = k :: toClose → s.entries[k]? = some h →
    Moves s (.remove r) ((s.setRemover r { rem with phase := .cancelled }).setEntry k h.cancel)
  | acquire {r k : ℕ} {rem : Remover} {toClose : List ℕ} {h : Entry} : s.removers[r]? = some rem →
    rem.phase = .cancelled → rem.toClose = k :: toClose → s.entries[k]? = some h → h.gate = none →
    Moves s (.remove r) ((s.setRemover r { rem with phase := .closing h.client }).setEntry k
      { h with gate := some (.remover r) })
  | close {r k : ℕ} {rem : Remover} {client : Option ℕ} {toClose : List ℕ} {h : Entry} :
    s.removers[r]? = some rem → rem.phase = .closing client → rem.toClose = k :: toClose →
    s.entries[k]? = some h →
    Moves s (.remove r) ((s.setRemover r { rem with toClose := toClose, phase := .next }).setEntry k
      { h.shutdownClient client with gate := none })
  /-- The entry was disposed. -/
  | fault {r k : ℕ} {rem : Remover} {toClose : List ℕ} {h : Entry} : s.removers[r]? = some rem →
    (rem.phase = .next ∨ rem.phase = .cancelled) → rem.toClose = k :: toClose → s.entries[k]? = some h →
    h.disposed = true → Moves s (.remove r) (s.setRemover r { rem with phase := .faulted })
  | faultClosing {r k : ℕ} {rem : Remover} {client : Option ℕ} {toClose : List ℕ} {h : Entry} :
    s.removers[r]? = some rem → rem.phase = .closing client → rem.toClose = k :: toClose →
    s.entries[k]? = some h → h.disposed = true →
    Moves s (.remove r)
      ((s.setRemover r { rem with phase := .faulted }).setEntry k (h.shutdownClient client))
  | join {r k : ℕ} {rem : Remover} {toAwait : List ℕ} {h : Entry} : s.removers[r]? = some rem →
    rem.phase = .next → rem.toClose = [] → rem.toAwait = k :: toAwait → s.entries[k]? = some h →
    h.supervised = false → Moves s (.remove r) (s.setRemover r { rem with phase := .joined })
  | finish {r k : ℕ} {rem : Remover} {toAwait : List ℕ} {h : Entry} : s.removers[r]? = some rem →
    rem.phase = .joined → rem.toAwait = k :: toAwait → s.entries[k]? = some h →
    (∀ client, h.pumpTask = some client → client ∉ h.pumps) →
    Moves s (.remove r)
      ((s.setRemover r { rem with toAwait := toAwait, phase := .next }).setEntry k h.dispose)
  | «return» {r : ℕ} {rem : Remover} : s.removers[r]? = some rem → rem.phase = .next →
    rem.toClose = [] → rem.toAwait = [] →
    Moves s (.remove r) (s.setRemover r { rem with phase := .returned })

theorem moves_of_addStep {s s' : State} {c : ℕ} {call : AddCall} {stored : Bool}
    (hc : s.adds[c]? = some call) (hs : s.addStep c call stored = some s') : Moves s (.add c stored) s' := by
  cases hpc : call.pc with
  | called =>
    simp only [addStep, hpc] at hs
    cases hs
    exact .decide _ hc (by split <;> simp)
  | checked =>
    simp only [addStep, hpc] at hs
    cases hs
    exact .decide _ hc (by split <;> simp)
  | stored =>
    simp only [addStep, hpc] at hs
    split at hs
    · cases hs
      exact .decide _ hc (by simp)
    · next hfree =>
      cases hs
      exact .insert hc hpc hfree
  | opening k =>
    simp only [addStep, hpc] at hs
    obtain ⟨h, hh, hs⟩ := Option.bind_eq_some_iff.mp hs
    split at hs
    · next hi =>
      cases hs
      exact .start hc hpc hh hi rfl
    · next hi =>
      cases hs
      exact .fail hc hpc hh hi (by simp) (.inl rfl)
    · next phase cancelled htrue hfalse hi =>
      split at hs <;> cases hs
      next hover => exact .fail hc hpc hh hi htrue (.inr ((Bool.or_eq_true _ _).mp hover))
    · cases hs
  | failed k =>
    simp only [addStep, hpc] at hs
    cases hs
    exact .clean hc hpc
  | unregistered k =>
    simp only [addStep, hpc] at hs
    obtain ⟨h, hh, rfl⟩ := Option.map_eq_some_iff.mp hs
    exact .dispose hc hpc hh
  | returned result =>
    simp only [addStep, hpc] at hs
    cases hs

theorem moves_of_removeStep {s s' : State} {r : ℕ} {rem : Remover} (hr : s.removers[r]? = some rem)
    (hs : s.removeStep r rem = some s') : Moves s (.remove r) s' := by
  unfold removeStep at hs
  split at hs
  · next hphase =>
    cases hs
    exact .clear hr hphase
  · next k toClose _ hphase hclose =>
    obtain ⟨h, hh, rfl⟩ := Option.map_eq_some_iff.mp hs
    split
    · next hdisposed => exact .fault hr (.inl hphase) hclose hh hdisposed
    · exact .cancel hr hphase hclose hh
  · next k toClose _ hphase hclose =>
    obtain ⟨h, hh, hs⟩ := Option.bind_eq_some_iff.mp hs
    split at hs
    · next hdisposed =>
      cases hs
      exact .fault hr (.inr hphase) hclose hh hdisposed
    · split at hs <;> cases hs
      next hgate => exact .acquire hr hphase hclose hh hgate
  · next client k toClose _ hphase hclose =>
    obtain ⟨h, hh, rfl⟩ := Option.map_eq_some_iff.mp hs
    split
    · next hdisposed => exact .faultClosing hr hphase hclose hh hdisposed
    · exact .close hr hphase hclose hh
  · next k toAwait hphase hclose hawait =>
    obtain ⟨h, hh, hs⟩ := Option.bind_eq_some_iff.mp hs
    split at hs <;> cases hs
    next hsupervised => exact .join hr hphase hclose hawait hh (Bool.eq_false_iff.mpr hsupervised)
  · next k toAwait hphase hawait =>
    obtain ⟨h, hh, hs⟩ := Option.bind_eq_some_iff.mp hs
    split at hs <;> cases hs
    next hpump => exact .finish hr hphase hawait hh hpump
  · next hphase hclose hawait =>
    cases hs
    exact .return hr hphase hclose hawait
  · cases hs

/-- Every step is one of these. -/
theorem step_moves {s s' : State} {a : Act} (hs : s.step a = some s') : Moves s a s' := by
  cases a with
  | addHost id factory =>
    cases hs
    exact .addHost id factory _ (by cases factory <;> simp)
  | add c stored =>
    obtain ⟨call, hc, hs⟩ := Option.bind_eq_some_iff.mp hs
    exact moves_of_addStep hc hs
  | entry k a =>
    obtain ⟨h, hh, hs⟩ := Option.bind_eq_some_iff.mp hs
    obtain ⟨h', hstep, rfl⟩ := Option.map_eq_some_iff.mp hs
    exact .entry hh hstep
  | removeHost id =>
    simp only [step] at hs
    split at hs
    · next hnone =>
      cases hs
      exact .unknown hnone
    · next k hk =>
      cases hs
      exact .removeHost hk
  | shutdown =>
    cases hs
    exact .shutdown
  | copy r order =>
    simp only [step] at hs
    split at hs
    · next hr =>
      split at hs <;> cases hs
      next hperm => exact .copy hr rfl rfl (List.isPerm_iff.mp hperm)
    · cases hs
  | remove r =>
    obtain ⟨rem, hr, hs⟩ := Option.bind_eq_some_iff.mp hs
    exact moves_of_removeStep hr hs

end State

end AgentHostProtocol.Dotnet.Hosts.Registry
