import AgentHostProtocol.Library.Runs
import Mathlib.Data.Nat.Notation

/-!
# The sequence number of the Swift runtime

`completeHandshake`, `applyReconnectResult`, `runConnection` and `handleEvent` of `HostRuntime`, as
far as envelopes and `serverSeq` go. Of an envelope only its number matters: a host numbers them in
order. Two tasks advance the shared number. The event pump of a connection applies an envelope and
then passes it to the fan-out; a handshake reads the number before its first await and writes it
back after the last. A connection that ends cancels its pump and does not wait for it, so that the
pump may go on with what its stream has left.
-/

namespace AgentHostProtocol.Swift.Hosts

open Library

/-! ### State -/

/-- The task that pumps the events of a connection. -/
structure Pump where
  /-- What its stream holds, oldest first. -/
  stream : List ℕ
  /-- The envelope in `handleEvent`: applied, not passed on. -/
  held : Option ℕ
  deriving DecidableEq

/-- A pump with nothing to do. -/
def Pump.idle : Pump where
  stream := []
  held := none

/-- The result of a handshake. -/
inductive HandshakeResult where
  | initialized (serverSeq : ℕ)
  | replay (actions : List ℕ)
  /-- The `fromSeq` of each snapshot. -/
  | snapshot (fromSeqs : List ℕ)
  deriving DecidableEq

/-- Where `connectOnce` and the connection it makes are. `priorSeq` is the number that
`completeHandshake` read. -/
inductive Phase where
  | absent
  | reconnecting (priorSeq : ℕ)
  | initializing (priorSeq : ℕ)
  /-- The handshake is answered, `listSessions` is in flight. -/
  | answered (priorSeq : ℕ) (result : HandshakeResult)
  /-- The client is installed; `applyReconnectResult` has these envelopes left, and one that is
  applied and not passed on. -/
  | replaying (actions : List ℕ) (held : Option ℕ)
  | snapshotting (fromSeqs : List ℕ)
  | connected
  deriving DecidableEq

/-- A runtime, its pumps and its host. -/
structure State where
  /-- `fanOutReconnectReplayActions`. -/
  fanOutReplay : Bool
  /-- The number of the host's last envelope. -/
  hostSeq : ℕ
  /-- The host sends its envelopes on the connection. -/
  feeding : Bool
  wire : List ℕ
  phase : Phase
  /-- The pump of the connection, or the stream that it will have. -/
  pump : Pump
  /-- The pump of the last connection that ended. -/
  draining : Pump
  /-- The pumps of the connections before it. -/
  stale : List Pump
  /-- `shared.serverSeq`. -/
  serverSeq : ℕ
  /-- What was passed to the fan-out, oldest first. -/
  fanOut : List ℕ
  deriving DecidableEq

/-- A runtime that was not connected yet. -/
def State.new (fanOutReplay : Bool) : State where
  fanOutReplay := fanOutReplay
  hostSeq := 0
  feeding := false
  wire := []
  phase := .absent
  pump := .idle
  draining := .idle
  stale := []
  serverSeq := 0
  fanOut := []

namespace State

/-! ### The handshake -/

/-- A number that does not go back. -/
def raise (serverSeq n : ℕ) : ℕ := if serverSeq < n then n else serverSeq

/-- `applyAction`. -/
def applyAction (s : State) (n : ℕ) : State := { s with serverSeq := raise s.serverSeq n }

/-- `completeHandshake` up to its request. -/
def connectOnce (s : State) (subscribed : Bool) : Option State :=
  match s.phase with
  | .absent =>
    some
      { s with
        feeding := false
        wire := []
        pump := .idle
        phase :=
          if 0 < s.serverSeq ∧ subscribed then .reconnecting s.serverSeq
          else .initializing s.serverSeq }
  | _ => none

/-- The host refuses to reconnect: fall back to `initialize`. -/
def refuse (s : State) : Option State :=
  match s.phase with
  | .reconnecting priorSeq => some { s with phase := .initializing priorSeq }
  | _ => none

/-- `completeHandshake` throws. -/
def abortConnect (s : State) : Option State :=
  match s.phase with
  | .reconnecting _ | .initializing _ =>
    some { s with phase := .absent, feeding := false, wire := [], pump := .idle }
  | _ => none

/-- The first update after the handshake: the client is installed, and the number is written. -/
def install (s : State) : Option State :=
  let next : State := { s with stale := s.stale ++ [s.draining], draining := .idle }
  match s.phase with
  | .answered _ (.initialized serverSeq) =>
    some { next with serverSeq := serverSeq, phase := .replaying [] none }
  | .answered priorSeq (.replay actions) =>
    some { next with serverSeq := priorSeq, phase := .replaying actions none }
  | .answered priorSeq (.snapshot fromSeqs) =>
    some { next with serverSeq := priorSeq, phase := .snapshotting fromSeqs }
  | _ => none

/-- `applyReconnectResult`, one step of it. -/
def applyReconnectResult (s : State) : Option State :=
  match s.phase with
  | .replaying (n :: actions) none =>
    some
      { applyAction s n with
        phase := .replaying actions (if s.fanOutReplay then some n else none) }
  | .replaying actions (some n) =>
    some { s with fanOut := s.fanOut ++ [n], phase := .replaying actions none }
  | .snapshotting fromSeqs => some { fromSeqs.foldl applyAction s with phase := .replaying [] none }
  | _ => none

/-- The handshake is complete: `runConnection` starts the pump. -/
def connected (s : State) : Option State :=
  match s.phase with
  | .replaying [] none => some { s with phase := .connected }
  | _ => none

/-- `runConnection` returns: its pump is cancelled, and drains what it has. -/
def endConnection (s : State) : Option State :=
  match s.phase with
  | .connected =>
    some
      { s with
        phase := .absent
        feeding := false
        wire := []
        pump := .idle
        draining := s.pump }
  | _ => none

/-! ### The pumps -/

/-- `handleEvent` on the next event, up to the fan-out. -/
def Pump.take (p : Pump) : Option (Pump × ℕ) :=
  match p.held, p.stream with
  | none, n :: stream => some ({ stream := stream, held := some n }, n)
  | _, _ => none

/-- The envelope in `handleEvent` is passed to the fan-out. -/
def Pump.pass (p : Pump) : Option (Pump × ℕ) :=
  match p.held with
  | some n => some ({ p with held := none }, n)
  | none => none

/-- The pump of the connection takes an event. -/
def take (s : State) : Option State :=
  match s.phase with
  | .connected => (Pump.take s.pump).map fun (p, n) => { applyAction s n with pump := p }
  | _ => none

/-- It passes it on. -/
def pass (s : State) : Option State :=
  match s.phase with
  | .connected => (Pump.pass s.pump).map fun (p, n) => { s with pump := p, fanOut := s.fanOut ++ [n] }
  | _ => none

/-- The pump of the last connection takes an event. -/
def takeDraining (s : State) : Option State :=
  (Pump.take s.draining).map fun (p, n) => { applyAction s n with draining := p }

/-- It passes it on. -/
def passDraining (s : State) : Option State :=
  (Pump.pass s.draining).map fun (p, n) => { s with draining := p, fanOut := s.fanOut ++ [n] }

/-- An older pump takes an event. -/
def takeStale (s : State) (i : ℕ) : Option State :=
  match s.stale[i]? with
  | some p => (Pump.take p).map fun (p, n) => { applyAction s n with stale := s.stale.set i p }
  | none => none

/-- It passes it on. -/
def passStale (s : State) (i : ℕ) : Option State :=
  match s.stale[i]? with
  | some p =>
    (Pump.pass p).map fun (p, n) => { s with stale := s.stale.set i p, fanOut := s.fanOut ++ [n] }
  | none => none

/-! ### The host and the wire -/

/-- The envelopes of a replay: later ones than the number, in order. -/
def Later (priorSeq hostSeq : ℕ) (actions : List ℕ) : Prop :=
  actions.Pairwise (· < ·) ∧ ∀ n ∈ actions, priorSeq < n ∧ n ≤ hostSeq

instance (priorSeq hostSeq : ℕ) (actions : List ℕ) : Decidable (Later priorSeq hostSeq actions) :=
  inferInstanceAs (Decidable (_ ∧ _))

/-- The host answers the handshake, and sends its envelopes from now on. -/
def answer (s : State) (result : HandshakeResult) : Option State :=
  match s.phase, result with
  | .initializing priorSeq, .initialized serverSeq =>
    if serverSeq = s.hostSeq then
      some { s with phase := .answered priorSeq result, feeding := true }
    else none
  | .reconnecting priorSeq, .replay actions =>
    if Later priorSeq s.hostSeq actions then
      some { s with phase := .answered priorSeq result, feeding := true }
    else none
  | .reconnecting priorSeq, .snapshot fromSeqs =>
    if ∀ n ∈ fromSeqs, n ≤ s.hostSeq then
      some { s with phase := .answered priorSeq result, feeding := true }
    else none
  | _, _ => none

/-- The host makes an envelope, and sends it if its channel is subscribed. -/
def emit (s : State) (sent : Bool) : State :=
  { s with
    hostSeq := s.hostSeq + 1
    wire := if s.feeding ∧ sent then s.wire ++ [s.hostSeq + 1] else s.wire }

/-- The client reads the next envelope. -/
def receive (s : State) : Option State :=
  match s.wire with
  | n :: wire => some { s with wire := wire, pump := { s.pump with stream := s.pump.stream ++ [n] } }
  | [] => none

/-- The stream is full: its oldest event goes. -/
def overflow (s : State) : State :=
  { s with pump := { s.pump with stream := s.pump.stream.tail } }

/-- The transport closes. -/
def closeTransport (s : State) : State :=
  { s with feeding := false, wire := [] }

/-! ### Steps -/

/-- One step of a task of the runtime, the wire or the host. -/
inductive Step where
  | connectOnce (subscribed : Bool)
  | refuse
  | abortConnect
  | install
  | applyReconnectResult
  | connected
  | endConnection
  | take
  | pass
  | takeDraining
  | passDraining
  | takeStale (i : ℕ)
  | passStale (i : ℕ)
  | answer (result : HandshakeResult)
  | emit (sent : Bool)
  | receive
  | overflow
  | closeTransport
  deriving DecidableEq

/-- The state after a step, `none` if the step cannot happen now. -/
def step (s : State) : Step → Option State
  | .connectOnce subscribed => connectOnce s subscribed
  | .refuse => refuse s
  | .abortConnect => abortConnect s
  | .install => install s
  | .applyReconnectResult => applyReconnectResult s
  | .connected => connected s
  | .endConnection => endConnection s
  | .take => take s
  | .pass => pass s
  | .takeDraining => takeDraining s
  | .passDraining => passDraining s
  | .takeStale i => takeStale s i
  | .passStale i => passStale s i
  | .answer result => answer s result
  | .emit sent => some (emit s sent)
  | .receive => receive s
  | .overflow => some (overflow s)
  | .closeTransport => some (closeTransport s)

end State

end AgentHostProtocol.Swift.Hosts
