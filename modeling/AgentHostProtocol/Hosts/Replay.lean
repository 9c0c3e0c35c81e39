import AgentHostProtocol.Library.Runs
import AgentHostProtocol.Wire.Values

/-!
# Sequence numbers across connections

`connectOnce`, `runConnection` and `applyEnvelopeLocally` as far as envelopes and their
`serverSeq` go, with the host at the other end of the wire. A process of the host numbers its
envelopes from 1 and keeps them; the next process starts over. It answers `initialize` with
its current number and subscribes the channels asked for, and answers `reconnect` with the
later envelopes of the channels it resumes, with snapshots, or with an error; then it sends
what those channels emit. The process that made a message is written on it for the statements
below: the client never looks at it.
-/

namespace AgentHostProtocol.Hosts.Replay

/-! ### Messages -/

/-- `ActionEnvelope`, without its action. -/
structure Envelope where
  process : ℕ
  serverSeq : ℕ
  channel : URI
  deriving DecidableEq

/-- The shared state that a handshake starts from. -/
structure Prior where
  serverSeq : ℕ
  subscriptions : List URI
  deriving DecidableEq

/-- A handshake request. -/
inductive Request where
  | reconnect (lastSeenServerSeq : ℕ) (subscriptions : List URI)
  | initializing (initialSubscriptions : List URI)
  deriving DecidableEq

/-- The result of a handshake. -/
inductive HandshakeResult where
  | initialized (process serverSeq : ℕ)
  | replay (process : ℕ) (actions : List Envelope) (missing : List URI)
  /-- The resources of the snapshots, each with its `fromSeq`. -/
  | snapshot (process : ℕ) (snapshots : List (URI × ℕ))
  deriving DecidableEq

/-- The process that answered. -/
def HandshakeResult.process : HandshakeResult → ℕ
  | .initialized process _ | .replay process _ _ | .snapshot process _ => process

/-- A message from the host. -/
inductive Message where
  | result (result : HandshakeResult)
  | refused
  | envelope (envelope : Envelope)
  deriving DecidableEq

/-! ### State -/

/-- Where `connectOnce` and the connection it makes are. -/
inductive Phase where
  | absent
  | reconnecting (prior : Prior)
  | initializing (prior : Prior)
  /-- The handshake is answered, `listSessions` is in flight. -/
  | refreshing (prior : Prior) (result : HandshakeResult)
  | connected
  deriving DecidableEq

/-- A supervisor, its host and the wire between them. -/
structure System where
  /-- The buffer limit of the client's event queue. -/
  bufferLimit : ℕ
  /-- The process of the host that runs. -/
  process : ℕ
  /-- The number of its last envelope. -/
  hostSeq : ℕ
  /-- Its envelopes, oldest first. -/
  log : List Envelope
  /-- The channels it sends on the connection. -/
  feeding : List URI
  request : Option Request
  inbound : List Message
  /-- The events the client has read and the supervisor has not. -/
  events : List Envelope
  /-- The transport of the client is gone. -/
  closed : Bool
  phase : Phase
  /-- `shared.serverSeq`. -/
  serverSeq : ℕ
  /-- `shared.subscriptions`. -/
  subscriptions : List URI
  /-- What was published to the fan-out, oldest first. -/
  fanOut : List Envelope
  deriving DecidableEq

/-- A supervisor that was not connected yet. -/
def System.new (bufferLimit : ℕ) (initialSubscriptions : List URI) : System where
  bufferLimit := bufferLimit
  process := 0
  hostSeq := 0
  log := []
  feeding := []
  request := none
  inbound := []
  events := []
  closed := false
  phase := .absent
  serverSeq := 0
  subscriptions := initialSubscriptions
  fanOut := []

/-! ### The client -/

/-- A push to a bounded queue: the oldest entries go. -/
def pushBounded (limit : ℕ) (events : List Envelope) (e : Envelope) : List Envelope :=
  (events ++ [e]).drop ((events ++ [e]).length - limit)

/-- `applyEnvelopeLocally`, and the publication to the fan-out. -/
def publish (s : System) (e : Envelope) : System :=
  { s with
    serverSeq := if s.serverSeq < e.serverSeq then e.serverSeq else s.serverSeq
    fanOut := s.fanOut ++ [e] }

/-- `connectOnce` up to its handshake. -/
def connectOnce (s : System) : Option System :=
  match s.phase with
  | .absent =>
    let prior : Prior := { serverSeq := s.serverSeq, subscriptions := s.subscriptions }
    let next : System := { s with feeding := [], inbound := [], events := [], closed := false }
    if 0 < prior.serverSeq ∧ prior.subscriptions ≠ [] then
      some
        { next with
          phase := .reconnecting prior
          request := some (.reconnect prior.serverSeq prior.subscriptions) }
    else
      some
        { next with
          phase := .initializing prior
          request := some (.initializing prior.subscriptions) }
  | _ => none

/-- `initServerSeq` where the handshake is committed. -/
def initServerSeq (prior : Prior) : HandshakeResult → ℕ
  | .initialized _ serverSeq => serverSeq
  | .replay _ _ _ => prior.serverSeq
  | .snapshot _ snapshots =>
    snapshots.foldl (fun seq snap => if seq < snap.2 then snap.2 else seq) prior.serverSeq

/-- The subscriptions that are kept. -/
def retained (prior : Prior) (subscriptions : List URI) : HandshakeResult → List URI
  | .initialized _ _ => subscriptions
  | .replay _ _ missing =>
    if missing = [] then subscriptions else subscriptions.filter fun u => u ∉ missing
  | .snapshot _ snapshots =>
    subscriptions.filter fun u => u ∈ snapshots.map (·.1) ∨ u ∉ prior.subscriptions

/-- The envelopes that are replayed. -/
def replayEnvelopes : HandshakeResult → List Envelope
  | .replay _ actions _ => actions
  | .initialized _ _ | .snapshot _ _ => []

/-- The end of `connectOnce`: shared state is committed, and what was missed is replayed. A
client whose transport closed meanwhile is installed all the same. -/
def commit (s : System) : Option System :=
  match s.phase with
  | .refreshing prior result =>
    let next : System :=
      { s with
        phase := .connected
        serverSeq :=
          if s.serverSeq < initServerSeq prior result then initServerSeq prior result else s.serverSeq
        subscriptions := retained prior s.subscriptions result }
    some ((replayEnvelopes result).foldl publish next)
  | _ => none

/-- The client is shut down, with what it has not handed on. -/
def dropClient (s : System) : System :=
  { s with phase := .absent, feeding := [], request := none, inbound := [], events := [] }

/-- `connectOnce` throws: it failed, or a manual reconnect aborted it. -/
def abortConnect (s : System) : Option System :=
  match s.phase with
  | .reconnecting _ | .initializing _ | .refreshing _ _ => some (dropClient s)
  | .absent | .connected => none

/-- The transport closes: a handshake that awaits its answer fails, `listSessions` may fail,
and the events that were read are still handled. -/
def closeTransport (s : System) : System :=
  match s.phase with
  | .absent => s
  | .reconnecting _ | .initializing _ => dropClient s
  | .refreshing _ _ | .connected =>
    { s with feeding := [], request := none, inbound := [], closed := true }

/-- `handleEvent` on the next event. -/
def handleEvent (s : System) : Option System :=
  match s.phase, s.events with
  | .connected, e :: events => some (publish { s with events := events } e)
  | _, _ => none

/-- `runConnection` returns: the events ended, or there is a manual reconnect, at which events
that were not handled are dropped. -/
def endConnection (s : System) (manualReconnect : Bool) : Option System :=
  match s.phase with
  | .connected =>
    if manualReconnect ∨ s.closed ∧ s.events = [] then some (dropClient s) else none
  | _ => none

/-- The client reads the next message. -/
def receive (s : System) : Option System :=
  match s.inbound with
  | [] => none
  | message :: inbound =>
    let s : System := { s with inbound := inbound }
    match message, s.phase with
    | .envelope e, _ => some { s with events := pushBounded s.bufferLimit s.events e }
    | .result result, .reconnecting prior | .result result, .initializing prior =>
      some { s with phase := .refreshing prior result }
    -- the host refused to reconnect: fall back to `initialize`
    | .refused, .reconnecting prior =>
      some
        { s with
          phase := .initializing prior
          request := some (.initializing prior.subscriptions) }
    | .refused, .initializing _ => some (dropClient s)
    | _, _ => some s

/-! ### The host -/

/-- What the host makes of a handshake. -/
inductive Answer where
  | refuse
  /-- It subscribes what `initialize` asks for. -/
  | accept
  /-- It replays, and cannot resume `missing`. -/
  | replay (missing : List URI)
  /-- It sends snapshots of what it resumes. -/
  | snapshot (resumed : List URI)
  deriving DecidableEq

/-- The envelopes of the channels after a number. -/
def later (log : List Envelope) (channels : List URI) (serverSeq : ℕ) : List Envelope :=
  log.filter fun e => e.channel ∈ channels ∧ serverSeq < e.serverSeq

/-- The channels that the host resumes, and its result. -/
def resultOf (s : System) : Request → Answer → Option (List URI × HandshakeResult)
  | .initializing subscriptions, .accept => some (subscriptions, .initialized s.process s.hostSeq)
  | .reconnect lastSeenServerSeq subscriptions, .replay missing =>
    let resumed := subscriptions.filter fun u => u ∉ missing
    some (resumed, .replay s.process (later s.log resumed lastSeenServerSeq) missing)
  | .reconnect _ subscriptions, .snapshot resumed =>
    let resumed := subscriptions.filter fun u => u ∈ resumed
    some (resumed, .snapshot s.process (resumed.map fun u => (u, s.hostSeq)))
  | _, _ => none

/-- The host answers the handshake. -/
def answer (s : System) (how : Answer) : Option System :=
  match s.request with
  | none => none
  | some request =>
    match how with
    | .refuse => some { s with request := none, inbound := s.inbound ++ [.refused] }
    | _ =>
      (resultOf s request how).map fun (resumed, result) =>
        { s with request := none, feeding := resumed, inbound := s.inbound ++ [.result result] }

/-- A channel of the host emits. -/
def emit (s : System) (channel : URI) : System :=
  let e : Envelope := { process := s.process, serverSeq := s.hostSeq + 1, channel := channel }
  { s with
    hostSeq := s.hostSeq + 1
    log := s.log ++ [e]
    inbound := if channel ∈ s.feeding then s.inbound ++ [.envelope e] else s.inbound }

/-- The process of the host is replaced. -/
def restart (s : System) : System :=
  { closeTransport s with process := s.process + 1, hostSeq := 0, log := [] }

/-! ### Steps -/

/-- One step of the supervisor, its client, the wire or the host. -/
inductive Step where
  | connectOnce
  | commit
  | abortConnect
  | closeTransport
  | handleEvent
  | endConnection (manualReconnect : Bool)
  | receive
  | answer (how : Answer)
  | emit (channel : URI)
  | restart
  deriving DecidableEq

/-- The system after a step, `none` if the step cannot happen now. -/
def step (s : System) : Step → Option System
  | .connectOnce => connectOnce s
  | .commit => commit s
  | .abortConnect => abortConnect s
  | .closeTransport => some (closeTransport s)
  | .handleEvent => handleEvent s
  | .endConnection manualReconnect => endConnection s manualReconnect
  | .receive => receive s
  | .answer how => answer s how
  | .emit channel => some (emit s channel)
  | .restart => some (restart s)

end AgentHostProtocol.Hosts.Replay
