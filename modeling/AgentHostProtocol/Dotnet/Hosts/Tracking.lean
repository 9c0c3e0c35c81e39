import AgentHostProtocol.Library.Lists
import Mathlib.Data.Nat.Notation

/-!
# The replay subscription set of the .NET runtime

A host of `MultiHostClient` with its connections, any number of `SubscribeAsync` and
`UnsubscribeAsync` calls under way, and the supervisor that replaces the client. A step is what a
task does between two places where another one can come in; what it does under `ConnectionGate` is
one step where it does not await in it. A connection carries the frames of a client in order to the
host, which answers a `subscribe` as it comes to it. No caller cancels and no request times out. An
attempt that is abandoned never commits (`OpenHostAttempt`), so it is left out once it is abandoned.
-/

namespace AgentHostProtocol.Dotnet.Hosts.Tracking

open Library

/-- `ProtocolVersion.RootResourceUri`. -/
def rootResourceUri : String := "ahp-root://"

/-- The initial subscriptions of `HostConfig.Snapshot`, which the entry copies. -/
def snapshotSubscriptions : Option (List String) → List String
  | some (uri :: uris) => uri :: uris
  | some [] | none => [rootResourceUri]

inductive Kind where
  | subscribe
  | unsubscribe
  deriving DecidableEq

/-- Where a call is. -/
inductive Calling where
  /-- In `WaitForClientAsync`. -/
  | waiting
  /-- It has the client, and is about to send its frame. -/
  | sending (client : ℕ)
  /-- It awaits the response. -/
  | requesting (client : ℕ)
  /-- The response is on its way. -/
  | answered (client : ℕ) (ok : Bool)
  /-- Before `ConnectionGate`. -/
  | tracking (client : ℕ)
  | returned
  | threw
  deriving DecidableEq

structure Call where
  kind : Kind
  uri : String
  pc : Calling
  deriving DecidableEq

/-- What a client sends to the host. -/
inductive Frame where
  | subscribe (call : ℕ) (uri : String)
  | unsubscribe (uri : String)
  deriving DecidableEq

/-- A connection: the host's end and the frames on their way to it. -/
structure Conn where
  alive : Bool
  subscribed : List String
  wire : List Frame
  deriving DecidableEq

/-- Where the supervisor is. -/
inductive Phase where
  /-- Before the first attempt. -/
  | added
  /-- Between two attempts, or parked. -/
  | down
  /-- The handshake of a connection is under way, with the subscriptions it asks for. -/
  | asked (client : ℕ) (requested : List String)
  /-- The host has answered, with what it could not resume. -/
  | answered (client : ℕ) (missing : List String)
  /-- In `InstallOpenHost`, after `SetClient`. -/
  | installing (client : ℕ) (missing : List String)
  /-- In `WaitForDropOrManualReconnectAsync`. -/
  | up
  /-- It awaits the end of the old client under `ConnectionGate`. -/
  | tearing (client : ℕ)
  /-- The first attempt has failed. -/
  | removed
  deriving DecidableEq

structure State where
  config : List String
  /-- `_subscriptions`. -/
  tracked : List String
  /-- `_client`. -/
  current : Option ℕ
  /-- `_state.Kind` is `Connecting` or `Reconnecting`. -/
  connecting : Bool
  isReconnect : Bool
  phase : Phase
  conns : List Conn
  calls : List Call
  deriving DecidableEq

inductive Act where
  | subscribe (uri : String)
  | unsubscribe (uri : String)
  /-- `WaitForClientAsync` returns or throws. -/
  | obtain (call : ℕ)
  | send (call : ℕ)
  /-- The frame is written to a connection that is lost. -/
  | sendLost (call : ℕ)
  /-- The client fails the call, its connection being lost. -/
  | fail (call : ℕ)
  | receive (call : ℕ)
  /-- The call gets `ConnectionGate`. -/
  | track (call : ℕ)
  /-- The host takes the next frame of a connection. -/
  | hostTakes (client : ℕ) (accept : Bool)
  | drop (client : ℕ)
  /-- The supervisor publishes a state while it is down. -/
  | setState (connecting : Bool)
  /-- `OpenHostAsync`, up to the handshake. -/
  | openHost
  /-- The host answers a `reconnect` with a replay. -/
  | hostReplays (missing : List String)
  /-- It answers with snapshots, or refuses and answers the `initialize`. -/
  | hostAnswers
  | attemptFails
  /-- `SetClient` of `InstallOpenHost`. -/
  | install
  /-- `applyHandshake` and `CompleteOpenHost`. -/
  | commit
  /-- `applyHandshake` throws. -/
  | commitFails
  | beginReconnect
  /-- The old client and its pump have ended. -/
  | torn
  deriving DecidableEq

/-- `AddHostAsync`, up to `OpenHostAsync`. -/
def added (initialSubscriptions : Option (List String)) : State where
  config := snapshotSubscriptions initialSubscriptions
  tracked := snapshotSubscriptions initialSubscriptions
  current := none
  connecting := false
  isReconnect := false
  phase := .added
  conns := []
  calls := []

/-- Not returned, and not thrown. -/
def Calling.inFlight : Calling → Bool
  | .returned | .threw => false
  | _ => true

/-- `ConnectionGate` is free. -/
def Phase.gateFree : Phase → Bool
  | .installing _ _ | .tearing _ => false
  | _ => true

namespace State

def newCall (s : State) (kind : Kind) (uri : String) : State :=
  { s with calls := s.calls ++ [⟨kind, uri, .waiting⟩] }

def setPc (s : State) (i : ℕ) (call : Call) (pc : Calling) : State :=
  { s with calls := s.calls.set i { call with pc := pc } }

def setConn (s : State) (c : ℕ) (conn : Conn) : State := { s with conns := s.conns.set c conn }

/-- `AppendSubscription`. -/
def appendSubscription (s : State) (uri : String) : State :=
  if uri ∈ s.tracked then s else { s with tracked := s.tracked ++ [uri] }

/-- `RemoveSubscription`: `List.Remove` takes out the first occurrence. -/
def removeSubscription (s : State) (uri : String) : State :=
  { s with tracked := s.tracked.erase uri }

/-- `RemoveSubscriptions`. -/
def removeSubscriptions (s : State) (uris : List String) : State :=
  { s with tracked := uris.foldl List.erase s.tracked }

/-! ### Calls -/

/-- `WaitForClientAsync`. -/
def obtain (s : State) (i : ℕ) (call : Call) : Option State :=
  match call.pc, s.current with
  | .waiting, some c => some (s.setPc i call (.sending c))
  | .waiting, none => if s.connecting then none else some (s.setPc i call .threw)
  | _, _ => none

def send (s : State) (i : ℕ) (call : Call) : Option State :=
  match call.pc with
  | .sending c =>
    match s.conns[c]? with
    | some conn =>
      if conn.alive then
        match call.kind with
        | .subscribe =>
          some ((s.setConn c { conn with wire := conn.wire ++ [.subscribe i call.uri] }).setPc i call
            (.requesting c))
        | .unsubscribe =>
          some ((s.setConn c { conn with wire := conn.wire ++ [.unsubscribe call.uri] }).setPc i call
            (.tracking c))
      else none
    | none => none
  | _ => none

/-- The connection of a client is lost. -/
def lost (s : State) (c : ℕ) : Bool := (s.conns[c]?).any fun conn => !conn.alive

def sendLost (s : State) (i : ℕ) (call : Call) : Option State :=
  match call.pc with
  | .sending c =>
    if s.lost c then
      some (s.setPc i call
        (match call.kind with | .subscribe => .requesting c | .unsubscribe => .tracking c))
    else none
  | _ => none

def fail (s : State) (i : ℕ) (call : Call) : Option State :=
  match call.pc with
  | .sending c | .requesting c | .answered c _ =>
    if s.lost c then some (s.setPc i call .threw) else none
  | _ => none

def receive (s : State) (i : ℕ) (call : Call) : Option State :=
  match call.pc with
  | .answered c true => some (s.setPc i call (.tracking c))
  | .answered _ false => some (s.setPc i call .threw)
  | _ => none

/-- What a call does under `ConnectionGate`: on a client that was replaced it begins again. -/
def track (s : State) (i : ℕ) (call : Call) : Option State :=
  match call.pc with
  | .tracking c =>
    if s.phase.gateFree then
      if s.current = some c then
        match call.kind with
        | .subscribe => some ((s.appendSubscription call.uri).setPc i call .returned)
        | .unsubscribe => some ((s.removeSubscription call.uri).setPc i call .returned)
      else some (s.setPc i call .waiting)
    else none
  | _ => none

/-! ### The host -/

/-- The host takes the next frame. -/
def hostTakes (s : State) (c : ℕ) (accept : Bool) : Option State :=
  match s.conns[c]? with
  | some conn =>
    if conn.alive then
      match conn.wire with
      | .unsubscribe uri :: rest =>
        some (s.setConn c { conn with subscribed := conn.subscribed.filter (· ≠ uri), wire := rest })
      | .subscribe i uri :: rest =>
        match s.calls[i]? with
        | some call =>
          some ((s.setConn c
            { conn with
              subscribed := if accept then uri :: conn.subscribed else conn.subscribed
              wire := rest }).setPc i call (.answered c accept))
        | none => none
      | [] => none
    else none
  | none => none

def drop (s : State) (c : ℕ) : Option State :=
  (s.conns[c]?).map fun conn => s.setConn c { conn with alive := false }

/-! ### The supervisor -/

def setState (s : State) (connecting : Bool) : Option State :=
  match s.phase with
  | .down => some { s with connecting := connecting }
  | _ => none

/-- A fresh connection, and what its handshake asks for. -/
def openHost (s : State) : Option State :=
  match s.phase with
  | .added =>
    some { s with
      connecting := true, phase := .asked s.conns.length s.config, conns := s.conns ++ [⟨true, [], []⟩] }
  | .down =>
    some { s with
      connecting := true, isReconnect := true, phase := .asked s.conns.length s.tracked
      conns := s.conns ++ [⟨true, [], []⟩] }
  | _ => none

/-- The host subscribes what it does not list as missing. -/
def answer (s : State) (missing : List String) : Option State :=
  match s.phase with
  | .asked c requested =>
    (s.conns[c]?).map fun conn =>
      { s.setConn c { conn with subscribed := requested.filter (· ∉ missing) } with
        phase := .answered c missing }
  | _ => none

def hostReplays (s : State) (missing : List String) : Option State :=
  if s.isReconnect then s.answer missing else none

def attemptFails (s : State) : Option State :=
  match s.phase with
  | .asked _ _ | .answered _ _ =>
    some { s with phase := if s.isReconnect then .down else .removed, connecting := s.isReconnect }
  | _ => none

def install (s : State) : Option State :=
  match s.phase with
  | .answered c missing => some { s with phase := .installing c missing, current := some c }
  | _ => none

def commit (s : State) : Option State :=
  match s.phase with
  | .installing _ missing => some { s.removeSubscriptions missing with phase := .up, connecting := false }
  | _ => none

def commitFails (s : State) : Option State :=
  match s.phase with
  | .installing _ _ => if s.isReconnect then some { s with phase := .down, current := none } else none
  | _ => none

def beginReconnect (s : State) : Option State :=
  match s.phase, s.current with
  | .up, some c => some { s with phase := .tearing c, current := none, connecting := true }
  | _, _ => none

def torn (s : State) : Option State :=
  match s.phase with
  | .tearing c =>
    (s.conns[c]?).map fun conn => { s.setConn c { conn with alive := false } with phase := .down }
  | _ => none

/-- One step, `none` where the action is not enabled. -/
def step (s : State) : Act → Option State
  | .subscribe uri => some (s.newCall .subscribe uri)
  | .unsubscribe uri => some (s.newCall .unsubscribe uri)
  | .obtain i => (s.calls[i]?).bind fun call => s.obtain i call
  | .send i => (s.calls[i]?).bind fun call => s.send i call
  | .sendLost i => (s.calls[i]?).bind fun call => s.sendLost i call
  | .fail i => (s.calls[i]?).bind fun call => s.fail i call
  | .receive i => (s.calls[i]?).bind fun call => s.receive i call
  | .track i => (s.calls[i]?).bind fun call => s.track i call
  | .hostTakes c accept => s.hostTakes c accept
  | .drop c => s.drop c
  | .setState connecting => s.setState connecting
  | .openHost => s.openHost
  | .hostReplays missing => s.hostReplays missing
  | .hostAnswers => s.answer []
  | .attemptFails => s.attemptFails
  | .install => s.install
  | .commit => s.commit
  | .commitFails => s.commitFails
  | .beginReconnect => s.beginReconnect
  | .torn => s.torn

end State

end AgentHostProtocol.Dotnet.Hosts.Tracking
