import AgentHostProtocol.Library.Ledger
import AgentHostProtocol.Library.Runs
import AgentHostProtocol.Wire.Values

/-!
# Requests of the client

`AhpClient` as far as requests go: `request`, `sendMessage`, `driveTransport`,
`dispatchInbound`, `tearDown` and `shutdown`. An `Action` is what the event loop may run next:
a call by the user, a frame or an error from the transport, a timer, or the rejection of a send
on its way to the request that made it. `emit` runs it and says which of the calls of `request`
it makes, answers and settles.

A send that throws at once is a send that fails before anything else happens.
-/

namespace AgentHostProtocol.Client.Requests

open Library

/-! ### Messages and errors -/

/-- The `id` of a message. -/
inductive JsonRpcId where
  | number (id : ℕ)
  /-- A string, `null`, or a number that no request has. -/
  | other (id : Json)
  deriving DecidableEq

/-- The `error` of a response. -/
structure ErrorObject where
  code : ℤ
  message : String
  data : Option Json
  deriving DecidableEq

/-- A decoded object, by the keys that `dispatchInbound` looks for. -/
structure ProtocolMessage where
  id : Option JsonRpcId
  result : Option Json
  error : Option ErrorObject
  method : Option String
  deriving DecidableEq

/-- `TransportFrame`, after `decodeMessage`. -/
inductive Frame where
  | malformed
  | message (message : ProtocolMessage)
  deriving DecidableEq

/-- `TransportErrorKind`. -/
inductive TransportErrorKind where
  | closed
  | io
  | protocol
  deriving DecidableEq

/-- `TransportError`. -/
structure TransportError where
  kind : TransportErrorKind
  message : String
  deriving DecidableEq

/-- What a transport throws. -/
inductive Thrown where
  | transportError (error : TransportError)
  | error (message : String)
  deriving DecidableEq

/-- The `TransportError` that is made of what a transport throws. -/
def Thrown.toTransportError (err : Thrown) (failed : String) : TransportError :=
  match err with
  | .transportError te => te
  | .error message => ⟨.io, failed ++ message⟩

/-- `AhpClientError`. -/
inductive AhpClientError where
  | rpcError (error : ErrorObject)
  | rpcTimeoutError (method : String) (timeoutMs : ℕ)
  | clientClosedError
  | transportError (error : TransportError)
  deriving DecidableEq

/-- The text of an error. -/
def AhpClientError.message : AhpClientError → String
  | .rpcError error => s!"RPC error {error.code}: {error.message}"
  | .rpcTimeoutError method timeoutMs => s!"Request \"{method}\" timed out after {timeoutMs}ms"
  | .clientClosedError => "client shut down"
  | .transportError error => error.message

/-- How a request settles. -/
inductive Outcome where
  | resolved (result : Json)
  | rejected (error : AhpClientError)
  deriving DecidableEq

/-! ### The client -/

/-- `ConnectionState`, without its reason. -/
inductive ConnectionStatus where
  | idle
  | connected
  | closing
  | closed
  deriving DecidableEq

/-- Where `driveTransport` is. -/
inductive ReceiveLoop where
  | notStarted
  /-- In `recv`. -/
  | receiving
  | ended
  deriving DecidableEq

/-- `PendingRequest`, with the call of `request` whose promise it settles. -/
structure PendingRequest where
  call : ℕ
  method : String
  deriving DecidableEq

/-- `AhpClient`, with the calls of `request` made so far and what the event loop holds for it. -/
structure AhpClient where
  /-- A JavaScript map, in the order in which the requests were made. -/
  pending : List (ℕ × PendingRequest)
  nextRequestId : ℕ
  status : ConnectionStatus
  receiveLoop : ReceiveLoop
  requestTimeoutMs : ℕ
  calls : ℕ
  /-- The requests whose timer is running. -/
  timers : List ℕ
  /-- The sends under way: of a request, or of another message. -/
  sending : List (Option ℕ)
  /-- Failed sends whose error has not reached the `catch` of the request yet. -/
  failing : List (ℕ × TransportError)
  deriving DecidableEq

/-- What can be observed of requests. -/
inductive Event where
  /-- A call of `request`, with the id it took. -/
  | called (call : ℕ) (id : Option ℕ)
  /-- A message that arrived. -/
  | received (message : ProtocolMessage)
  /-- A `resolve` or `reject` of the promise of a call. -/
  | settled (call : ℕ) (outcome : Outcome)
  deriving DecidableEq

/-- `new AhpClient(transport, { requestTimeoutMs })`. -/
def create (requestTimeoutMs : ℕ) : AhpClient where
  pending := []
  nextRequestId := 1
  status := .idle
  receiveLoop := .notStarted
  requestTimeoutMs := requestTimeoutMs
  calls := 0
  timers := []
  sending := []
  failing := []

namespace AhpClient

/-- `isClosed`. -/
def isClosed (s : AhpClient) : Bool := s.status = .closing || s.status = .closed

/-- Delete the entry of `id`, clear its timer and settle it; nothing if there is none. -/
def settle (s : AhpClient) (id : ℕ) (outcome : PendingRequest → Outcome) : AhpClient × List Event :=
  match s.pending.lookup id with
  | none => (s, [])
  | some pending =>
    ({ s with pending := s.pending.filter (·.1 ≠ id), timers := s.timers.erase id },
      [.settled pending.call (outcome pending)])

/-- `tearDown`. -/
def tearDown (s : AhpClient) (failure : AhpClientError) : AhpClient × List Event :=
  if s.status = .closed then (s, [])
  else
    ({ s with
      status := .closed
      pending := []
      timers := s.timers.filter fun id => (s.pending.lookup id).isNone },
      s.pending.map fun entry => .settled entry.2.call (.rejected failure))

/-- `request`, up to the send. -/
def request (s : AhpClient) (method : String) : AhpClient × List Event :=
  let s' := { s with calls := s.calls + 1 }
  if s.isClosed then (s', [.called s.calls none, .settled s.calls (.rejected .clientClosedError)])
  else
    let id := s.nextRequestId
    ({ s' with
      nextRequestId := id + 1
      pending := s.pending ++ [(id, ⟨s.calls, method⟩)]
      timers := if 0 < s.requestTimeoutMs then s.timers ++ [id] else s.timers
      sending := s.sending ++ [some id] }, [.called s.calls (some id)])

/-- `notify`, up to the send: a call on a closed client throws. -/
def notify (s : AhpClient) : AhpClient :=
  if s.isClosed then s else { s with sending := s.sending ++ [none] }

/-- The `catch` of `sendMessage`: the send at `i` was rejected. -/
def sendFails (s : AhpClient) (i : ℕ) (err : Thrown) : Option (AhpClient × List Event) :=
  s.sending[i]?.map fun sent =>
    let te := err.toTransportError "transport send failed: "
    let (s, events) := tearDown { s with sending := s.sending.eraseIdx i } (.transportError te)
    match sent with
    | some id => ({ s with failing := s.failing ++ [(id, te)] }, events)
    | none => (s, events)

/-- `dispatchInbound`, as far as it settles requests. -/
def dispatchInbound (s : AhpClient) (message : ProtocolMessage) : AhpClient × List Event :=
  match message.id, message.result, message.error with
  | some (.number id), some result, _ => s.settle id fun _ => .resolved result
  | some (.number id), none, some error => s.settle id fun _ => .rejected (.rpcError error)
  | _, _, _ => (s, [])

/-- The loop of `driveTransport` looks at the state before it receives again. -/
def continueLoop (s : AhpClient) : AhpClient :=
  { s with receiveLoop := if s.status = .connected then .receiving else .ended }

/-- `handleFrame`: a malformed frame is logged and dropped. -/
def handleFrame (s : AhpClient) : Frame → AhpClient × List Event
  | .malformed => (s, [])
  | .message message =>
    let (s, events) := s.dispatchInbound message
    (s, .received message :: events)

end AhpClient

/-! ### Actions -/

/-- What the event loop runs next. -/
inductive Action where
  | connect
  | request (method : String)
  | notify
  /-- The answer to a request of the server is sent. -/
  | respond
  | shutdown
  /-- A send under way succeeds. -/
  | sent (i : ℕ)
  | sendFails (i : ℕ) (err : Thrown)
  /-- The error of a failed send reaches the `catch` of the request. -/
  | sendCaught
  /-- The timer of a request fires. -/
  | timeout (id : ℕ)
  | frame (frame : Frame)
  /-- `recv` resolves to `null`. -/
  | transportClosed
  /-- `recv` rejects, or what it resolves to is not an object. -/
  | recvFails (err : Thrown)
  deriving DecidableEq

/-- Run an action; `none` if it cannot happen. -/
def emit (s : AhpClient) : Action → Option (AhpClient × List Event)
  | .connect =>
    some (if s.receiveLoop = .notStarted then { s with status := .connected, receiveLoop := .receiving } else s, [])
  | .request method => some (s.request method)
  | .notify => some (s.notify, [])
  | .respond => some ({ s with sending := s.sending ++ [none] }, [])
  | .shutdown =>
    some (if s.isClosed then (s, [])
      else AhpClient.tearDown { s with status := .closing } .clientClosedError)
  | .sent i => if i < s.sending.length then some ({ s with sending := s.sending.eraseIdx i }, []) else none
  | .sendFails i err => s.sendFails i err
  | .sendCaught =>
    match s.failing with
    | [] => none
    | (id, err) :: failing =>
      some (AhpClient.settle { s with failing := failing } id fun _ => .rejected (.transportError err))
  | .timeout id =>
    if id ∈ s.timers then
      some (AhpClient.settle { s with timers := s.timers.erase id } id fun pending =>
        .rejected (.rpcTimeoutError pending.method s.requestTimeoutMs))
    else none
  | .frame frame =>
    if s.receiveLoop = .receiving then
      let (s, events) := s.handleFrame frame
      some (s.continueLoop, events)
    else none
  | .transportClosed =>
    if s.receiveLoop = .receiving then
      some (AhpClient.tearDown { s with receiveLoop := .ended } (.transportError ⟨.closed, "transport closed"⟩))
    else none
  | .recvFails err =>
    if s.receiveLoop = .receiving then
      some (AhpClient.tearDown { s with receiveLoop := .ended }
        (.transportError (err.toTransportError "transport recv failed: ")))
    else none

end AgentHostProtocol.Client.Requests
