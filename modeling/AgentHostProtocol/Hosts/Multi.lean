import AgentHostProtocol.Library.Lists
import AgentHostProtocol.Library.Record
import AgentHostProtocol.Library.Runs

/-!
# The multi-host client

`MultiHostClient` with any number of calls of `addHost`, `removeHost` and `shutdown` under way.
A step is what a call does between two of its `await`s, or the end of a supervisor. The client id
store is a map whose operations take time and can fail; a failing `store` has written or has not.

A supervisor ends when it was told to, or when it crashes. Transport factories that call the
client back before they return are left out.
-/

namespace AgentHostProtocol.Hosts.Multi

open Library

/-- How `addHost` settles. -/
inductive AddResult where
  /-- With the snapshot of its runtime. -/
  | ok (runtime : ℕ)
  | duplicateHost
  | clientIdStore
  | hostShutDown
  deriving DecidableEq

/-- Where a call of `addHost` is. -/
inductive Adding where
  /-- It awaits `clientIdStore.load`. -/
  | loading
  /-- It awaits `clientIdStore.store`. -/
  | storing (clientId : String)
  | settled (result : AddResult)
  deriving DecidableEq

/-- Where `resolveClientId` waits first. -/
def Adding.first : Option String → Adding
  | some clientId => .storing clientId
  | none => .loading

/-- Its id is in `pendingHostIds`. -/
def Adding.pending : Adding → Bool
  | .settled _ => false
  | _ => true

/-- A call of `addHost`. -/
structure AddCall where
  id : String
  /-- `config.clientId`. -/
  clientId : Option String
  pc : Adding
  deriving DecidableEq

/-- `shutdownReason`. -/
inductive ShutdownReason where
  | removed
  | shutdown
  deriving DecidableEq

/-- `HostRuntime`, once it was started. -/
structure HostRuntime where
  id : String
  clientId : String
  shutdownReason : Option ShutdownReason
  /-- `supervisorPromise` has resolved. -/
  exited : Bool
  deriving DecidableEq

/-- `shutdown` up to its `await`. -/
def HostRuntime.shutdown (reason : ShutdownReason) (r : HostRuntime) : HostRuntime :=
  { r with shutdownReason := some (r.shutdownReason.getD reason) }

/-- Where a call of `removeHost` is. -/
inductive Removing where
  /-- It awaits the runtime. -/
  | awaiting (runtime : ℕ)
  | removed (runtime : ℕ)
  | unknownHost
  deriving DecidableEq

/-- The runtime that a call waits for. -/
def Removing.awaits? : Removing → Option ℕ
  | .awaiting k => some k
  | _ => none

/-- A call of `removeHost`. -/
structure RemoveCall where
  id : String
  pc : Removing
  deriving DecidableEq

/-- Where a call of `shutdown` is. -/
inductive ShuttingDown where
  /-- It awaits the runtimes. -/
  | awaiting (runtimes : List ℕ)
  | returned
  deriving DecidableEq

/-- `HostEvent`, the two that the registry publishes. -/
inductive HostEvent where
  | added (id : String)
  | removed (id : String)
  deriving DecidableEq

/-- `MultiHostClient`, with every runtime that was started and every call that was made. -/
structure State where
  hosts : Record ℕ
  pendingHostIds : List String
  clientIdStore : Record String
  shutDown : Bool
  /-- The queues of events are closed. -/
  closed : Bool
  runtimes : List HostRuntime
  adds : List AddCall
  removes : List RemoveCall
  shutdowns : List ShuttingDown
  /-- What `hostEventsQueue` was given while it was open. -/
  events : List HostEvent
  deriving DecidableEq

/-- A step. -/
inductive Act where
  | addHost (id : String) (clientId : Option String)
  /-- `load` resolves; `generateClientId` would make `generated`. -/
  | loaded (call : ℕ) (generated : String)
  | loadFails (call : ℕ)
  | stored (call : ℕ)
  | storeFails (call : ℕ) (written : Bool)
  | removeHost (id : String)
  /-- The runtime that a call of `removeHost` awaits is done. -/
  | removed (call : ℕ)
  | shutdown
  /-- The runtimes that a call of `shutdown` awaits are done. -/
  | closeQueues (call : ℕ)
  /-- A supervisor ends. -/
  | exits (runtime : ℕ)
  deriving DecidableEq

namespace State

/-- `new MultiHostClient`, on a store that holds client ids from before. -/
def new (clientIdStore : Record String) : State where
  hosts := .empty
  pendingHostIds := []
  clientIdStore := clientIdStore
  shutDown := false
  closed := false
  runtimes := []
  adds := []
  removes := []
  shutdowns := []
  events := []

/-- `hostEventsQueue.publish`. -/
def publish (event : HostEvent) (s : State) : State :=
  { s with events := if s.closed then s.events else s.events ++ [event] }

/-- A call of `addHost` is at `pc`. -/
def setAdd (s : State) (c : ℕ) (call : AddCall) (pc : Adding) : State :=
  { s with adds := s.adds.set c { call with pc := pc } }

/-- It settles, behind its `finally`. -/
def settle (s : State) (c : ℕ) (call : AddCall) (result : AddResult) : State :=
  { s.setAdd c call (.settled result) with
    pendingHostIds := s.pendingHostIds.filter (· ≠ call.id) }

/-- `addHost` up to its first `await`. -/
def addHost (s : State) (id : String) (clientId : Option String) : State :=
  if s.shutDown then { s with adds := s.adds ++ [⟨id, clientId, .settled .hostShutDown⟩] }
  else if (s.hosts.get? id).isSome || s.pendingHostIds.contains id then
    { s with adds := s.adds ++ [⟨id, clientId, .settled .duplicateHost⟩] }
  else
    { s with
      adds := s.adds ++ [⟨id, clientId, Adding.first clientId⟩]
      pendingHostIds := s.pendingHostIds ++ [id] }

/-- The runtime is registered and started. -/
def start (s : State) (c : ℕ) (call : AddCall) (clientId : String) : State :=
  publish (.added call.id)
    { s.settle c call (.ok s.runtimes.length) with
      hosts := s.hosts.set call.id s.runtimes.length
      runtimes := s.runtimes ++ [⟨call.id, clientId, none, false⟩] }

/-- `addHost` behind `resolveClientId`. -/
def register (s : State) (c : ℕ) (call : AddCall) (clientId : String) : State :=
  if s.shutDown then s.settle c call .hostShutDown
  else if (s.hosts.get? call.id).isSome then s.settle c call .duplicateHost
  else s.start c call clientId

/-- `this.clientIdStore.store`. -/
def store (s : State) (id clientId : String) : State :=
  { s with clientIdStore := s.clientIdStore.set id clientId }

/-- A call of `addHost` goes on. -/
def addStep (s : State) (c : ℕ) (call : AddCall) : Act → Option State
  | .loaded _ generated =>
    match call.pc with
    | .loading => some (s.setAdd c call (.storing ((s.clientIdStore.get? call.id).getD generated)))
    | _ => none
  | .loadFails _ =>
    match call.pc with
    | .loading => some (s.settle c call .clientIdStore)
    | _ => none
  | .stored _ =>
    match call.pc with
    | .storing clientId => some ((s.store call.id clientId).register c call clientId)
    | _ => none
  | .storeFails _ written =>
    match call.pc with
    | .storing clientId =>
      some ((if written then s.store call.id clientId else s).settle c call .clientIdStore)
    | _ => none
  | _ => none

/-- `removeHost` up to its `await`. -/
def removeHost (s : State) (id : String) : State :=
  match s.hosts.get? id with
  | none => { s with removes := s.removes ++ [⟨id, .unknownHost⟩] }
  | some k =>
    { s with
      hosts := s.hosts.delete id
      runtimes := s.runtimes.modify k (HostRuntime.shutdown .removed)
      removes := s.removes ++ [⟨id, .awaiting k⟩] }

/-- The supervisor of the runtime has ended. -/
def hasExited (s : State) (k : ℕ) : Bool := s.runtimes[k]?.any HostRuntime.exited

/-- `shutdown` up to its `await`. -/
def callShutdown (s : State) : State :=
  if s.shutDown then { s with shutdowns := s.shutdowns ++ [.returned] }
  else
    let runtimes := s.hosts.entries.map Prod.snd
    { s with
      shutDown := true
      hosts := .empty
      runtimes := runtimes.foldl (fun rs k => rs.modify k (HostRuntime.shutdown .shutdown)) s.runtimes
      shutdowns := s.shutdowns ++ [.awaiting runtimes] }

/-- One step, `none` where the action is not enabled. -/
def step (s : State) : Act → Option State
  | .addHost id clientId => some (s.addHost id clientId)
  | .removeHost id => some (s.removeHost id)
  | .removed r =>
    match s.removes[r]? with
    | some ⟨id, .awaiting k⟩ =>
      if s.hasExited k then
        some (publish (.removed id) { s with removes := s.removes.set r ⟨id, .removed k⟩ })
      else none
    | _ => none
  | .shutdown => some s.callShutdown
  | .closeQueues d =>
    match s.shutdowns[d]? with
    | some (.awaiting runtimes) =>
      if runtimes.all s.hasExited then
        some { s with shutdowns := s.shutdowns.set d .returned, closed := true }
      else none
    | _ => none
  | .exits k =>
    (s.runtimes[k]?).bind fun r =>
      if r.exited then none else some { s with runtimes := s.runtimes.set k { r with exited := true } }
  | a@(.loaded c _) | a@(.loadFails c) | a@(.stored c) | a@(.storeFails c _) =>
    (s.adds[c]?).bind fun call => s.addStep c call a

end State

end AgentHostProtocol.Hosts.Multi
