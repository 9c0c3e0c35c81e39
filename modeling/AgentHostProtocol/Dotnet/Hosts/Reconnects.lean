import AgentHostProtocol.Dotnet.Hosts.Tracking

/-!
# Envelopes across reconnects in the .NET runtime

`OpenHostCoreAsync`, `InstallOpenHost`, `PumpEventsAsync` and the drop handling of `SuperviseAsync`,
as far as envelopes and `serverSeq` go, with the host at the other end of the wire. The host numbers
its envelopes and keeps them; it sends those of the channels that it has subscribed on the
connection. It answers a handshake at once: a replay has all later envelopes of what it resumes, and
every snapshot is of the state that its resource then has. The two handshakes read the number and
the subscriptions when they begin, and nothing else changes them until the commit, which runs without
an await under `ConnectionGate`. The buffers of the client and of the consumers do not overflow, and
the host is not removed.

Calls of `SubscribeAsync` and `UnsubscribeAsync` are seen by what they do: the host subscribes a
channel of the connection or drops it, and the channel is tracked or dropped, in any order.
-/

namespace AgentHostProtocol.Dotnet.Hosts.Reconnects

open Library

/-- `ActionEnvelope`, without its action. -/
structure Envelope where
  channel : String
  serverSeq : ℕ
  deriving DecidableEq

/-- `Snapshot`, without its state. -/
structure Snapshot where
  resource : String
  fromSeq : ℕ
  deriving DecidableEq

/-- `SubscriptionEvent`. -/
inductive Event where
  | action (envelope : Envelope)
  | snapshot (snapshot : Snapshot)
  deriving DecidableEq

/-- The result of a handshake. -/
inductive HandshakeResult where
  | initialized (serverSeq : ℕ) (snapshots : List Snapshot)
  | replay (actions : List Envelope) (missing : List String)
  | snapshot (snapshots : List Snapshot)
  deriving DecidableEq

inductive Phase where
  /-- Before the first attempt. -/
  | added
  /-- Between two attempts, or parked. -/
  | down
  | reconnecting (lastSeenServerSeq : ℕ) (subscriptions : List String)
  | initializing (subscriptions : List String)
  /-- The handshake is answered; `listSessions` is in flight, or the gate is taken. -/
  | answered (result : HandshakeResult)
  /-- In `WaitForDropOrManualReconnectAsync`. -/
  | up
  /-- It awaits the end of the old client and its pump. -/
  | tearing
  /-- The first attempt has failed. -/
  | removed
  deriving DecidableEq

structure State where
  config : List String
  /-- The number of the host's last envelope. -/
  hostSeq : ℕ
  /-- Its envelopes, oldest first. -/
  log : List Envelope
  /-- The channels that it sends on the connection. -/
  feeding : List String
  wire : List Envelope
  /-- The `EventStream` of the client. -/
  stream : List Envelope
  /-- The transport of the client is gone. -/
  closed : Bool
  phase : Phase
  isReconnect : Bool
  /-- `_serverSeq`. -/
  serverSeq : ℕ
  /-- `_subscriptions`. -/
  tracked : List String
  /-- What was passed to `BroadcastPerResourceEvent`, newest first. -/
  published : List Event
  deriving DecidableEq

/-- `AddHostAsync`, up to `OpenHostAsync`. -/
def added (initialSubscriptions : Option (List String)) : State where
  config := Tracking.snapshotSubscriptions initialSubscriptions
  hostSeq := 0
  log := []
  feeding := []
  wire := []
  stream := []
  closed := true
  phase := .added
  isReconnect := false
  serverSeq := 0
  tracked := Tracking.snapshotSubscriptions initialSubscriptions
  published := []

namespace State

/-! ### The handshake -/

/-- `OpenHostCoreAsync`, up to its first request. -/
def openHost (s : State) : Option State :=
  let fresh : State := { s with feeding := [], wire := [], stream := [], closed := false }
  match s.phase with
  | .added => some { fresh with phase := .initializing s.config }
  | .down => some { fresh with isReconnect := true, phase := .reconnecting s.serverSeq s.tracked }
  | _ => none

/-- The client is shut down, and its stream is not pumped. -/
def dropClient (s : State) : State :=
  { s with feeding := [], wire := [], stream := [], closed := true }

/-- `OpenHostCoreAsync` throws before the commit, or is abandoned. -/
def attemptFails (s : State) : Option State :=
  match s.phase with
  | .reconnecting _ _ | .initializing _ | .answered _ =>
    some { s.dropClient with phase := if s.isReconnect then .down else .removed }
  | _ => none

/-- `AdvanceServerSeq`. -/
def raise (serverSeq n : ℕ) : ℕ := if serverSeq < n then n else serverSeq

/-- An envelope is counted and broadcast. -/
def publish (s : State) (e : Envelope) : State :=
  { s with serverSeq := raise s.serverSeq e.serverSeq, published := .action e :: s.published }

/-- The check of `ApplyReconnectReplay`: every envelope is past the one before. -/
def advances (previousSeq : ℕ) : List Envelope → Bool
  | [] => true
  | e :: actions => previousSeq < e.serverSeq && advances e.serverSeq actions

/-- `ApplyReconnectReplay`, `none` where it throws. -/
def applyReconnectReplay (s : State) (actions : List Envelope) (missing : List String) : Option State :=
  if advances s.serverSeq actions then
    some { actions.foldl publish s with tracked := missing.foldl List.erase s.tracked }
  else none

/-- The number after the snapshots. -/
def lastSeq (serverSeq : ℕ) (snapshots : List Snapshot) : ℕ :=
  snapshots.foldl (fun seq snapshot => raise seq snapshot.fromSeq) serverSeq

/-- `ApplyReconnectSnapshot`. -/
def applyReconnectSnapshot (s : State) (snapshots : List Snapshot) : State :=
  { s with
    serverSeq := lastSeq s.serverSeq snapshots
    published := (snapshots.map Event.snapshot).reverse ++ s.published }

/-- What is applied under the gate. Of the snapshots of an `initialize` only the root's is looked at,
for the agents. -/
def applyHandshake (s : State) : HandshakeResult → Option State
  | .initialized serverSeq _ => some { s with serverSeq := serverSeq }
  | .replay actions missing => s.applyReconnectReplay actions missing
  | .snapshot snapshots => some (s.applyReconnectSnapshot snapshots)

/-- `InstallOpenHost`. -/
def commit (s : State) : Option State :=
  match s.phase with
  | .answered result =>
    match s.applyHandshake result with
    | some next => some { next with phase := .up }
    | none => some { s.dropClient with phase := if s.isReconnect then .down else .removed }
  | _ => none

/-! ### The connection -/

/-- `PumpEventsAsync` on the next event. -/
def pump (s : State) : Option State :=
  match s.phase, s.stream with
  | .up, e :: stream | .tearing, e :: stream => some (publish { s with stream := stream } e)
  | _, _ => none

/-- The client reads the next envelope. -/
def receive (s : State) : Option State :=
  match s.wire with
  | e :: wire => some { s with wire := wire, stream := s.stream ++ [e] }
  | [] => none

def closeTransport (s : State) : State := { s with feeding := [], wire := [], closed := true }

/-- A drop, or a `ReconnectAsync`. -/
def beginReconnect (s : State) : Option State :=
  match s.phase with
  | .up => some { s with phase := .tearing }
  | _ => none

/-- The old client is shut down, and its pump has ended. -/
def torn (s : State) : Option State :=
  match s.phase with
  | .tearing => if s.closed ∧ s.stream = [] then some { s with phase := .down } else none
  | _ => none

def track (s : State) (uri : String) : Option State :=
  match s.phase with
  | .up => some { s with tracked := if uri ∈ s.tracked then s.tracked else s.tracked ++ [uri] }
  | _ => none

def untrack (s : State) (uri : String) : Option State :=
  match s.phase with
  | .up => some { s with tracked := s.tracked.erase uri }
  | _ => none

/-! ### The host -/

/-- The envelopes of the channels after a number. -/
def later (log : List Envelope) (channels : List String) (serverSeq : ℕ) : List Envelope :=
  log.filter fun e => e.channel ∈ channels ∧ serverSeq < e.serverSeq

/-- Snapshots of what was asked for: a snapshot has the state up to its number, and its resource has
no later envelope. -/
def Current (s : State) (subscriptions : List String) (snapshots : List Snapshot) : Prop :=
  (∀ uri ∈ subscriptions, uri ∈ snapshots.map (·.resource)) ∧
    ∀ snapshot ∈ snapshots, snapshot.fromSeq ≤ s.hostSeq ∧
      ∀ e ∈ s.log, e.channel = snapshot.resource → e.serverSeq ≤ snapshot.fromSeq

instance (s : State) (subscriptions : List String) (snapshots : List Snapshot) :
    Decidable (s.Current subscriptions snapshots) :=
  inferInstanceAs (Decidable (_ ∧ _))

/-- A `reconnect` is answered with a replay of what is not missing. -/
def hostReplays (s : State) (missing : List String) : Option State :=
  match s.phase, s.closed with
  | .reconnecting lastSeenServerSeq subscriptions, false =>
    let resumed := subscriptions.filter fun u => u ∉ missing
    some { s with
      feeding := resumed, phase := .answered (.replay (later s.log resumed lastSeenServerSeq) missing) }
  | _, _ => none

/-- It is answered with snapshots. -/
def hostSnapshots (s : State) (snapshots : List Snapshot) : Option State :=
  match s.phase, s.closed with
  | .reconnecting _ subscriptions, false =>
    if s.Current subscriptions snapshots then
      some { s with feeding := subscriptions, phase := .answered (.snapshot snapshots) }
    else none
  | _, _ => none

/-- It is refused: fall back to `initialize`. -/
def hostRefuses (s : State) : Option State :=
  match s.phase with
  | .reconnecting _ subscriptions => some { s with phase := .initializing subscriptions }
  | _ => none

/-- An `initialize` is answered. -/
def hostAccepts (s : State) (snapshots : List Snapshot) : Option State :=
  match s.phase, s.closed with
  | .initializing subscriptions, false =>
    if s.Current subscriptions snapshots then
      some { s with
        feeding := subscriptions, phase := .answered (.initialized s.hostSeq snapshots) }
    else none
  | _, _ => none

/-- The host subscribes a channel on the connection. -/
def hostSubscribes (s : State) (uri : String) : Option State :=
  match s.phase, s.closed with
  | .up, false | .tearing, false => some { s with feeding := uri :: s.feeding }
  | _, _ => none

def hostUnsubscribes (s : State) (uri : String) : State :=
  { s with feeding := s.feeding.filter fun u => u ≠ uri }

/-- A channel of the host emits. -/
def emit (s : State) (channel : String) : State :=
  let e : Envelope := { channel := channel, serverSeq := s.hostSeq + 1 }
  { s with
    hostSeq := s.hostSeq + 1
    log := s.log ++ [e]
    wire := if channel ∈ s.feeding then s.wire ++ [e] else s.wire }

/-! ### Steps -/

inductive Step where
  | openHost
  | attemptFails
  | commit
  | pump
  | receive
  | closeTransport
  | beginReconnect
  | torn
  | track (uri : String)
  | untrack (uri : String)
  | hostReplays (missing : List String)
  | hostSnapshots (snapshots : List Snapshot)
  | hostRefuses
  | hostAccepts (snapshots : List Snapshot)
  | hostSubscribes (uri : String)
  | hostUnsubscribes (uri : String)
  | emit (channel : String)
  deriving DecidableEq

/-- The state after a step, `none` if the step cannot happen now. -/
def step (s : State) : Step → Option State
  | .openHost => s.openHost
  | .attemptFails => s.attemptFails
  | .commit => s.commit
  | .pump => s.pump
  | .receive => s.receive
  | .closeTransport => some s.closeTransport
  | .beginReconnect => s.beginReconnect
  | .torn => s.torn
  | .track uri => s.track uri
  | .untrack uri => s.untrack uri
  | .hostReplays missing => s.hostReplays missing
  | .hostSnapshots snapshots => s.hostSnapshots snapshots
  | .hostRefuses => s.hostRefuses
  | .hostAccepts snapshots => s.hostAccepts snapshots
  | .hostSubscribes uri => s.hostSubscribes uri
  | .hostUnsubscribes uri => some (s.hostUnsubscribes uri)
  | .emit channel => some (s.emit channel)

end State

end AgentHostProtocol.Dotnet.Hosts.Reconnects
