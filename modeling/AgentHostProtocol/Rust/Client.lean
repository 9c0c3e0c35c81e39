import AgentHostProtocol.Library.Lists
import AgentHostProtocol.Library.Record
import Mathlib.Data.Nat.Notation

/-!
# The Rust client and its transport task

`Client` with the task `drive_transport`. A step of the task or of a call is what it does between
two places where another thread can come in: the lock of `pending`, of `subscriptions` or of
`all_events`, and the queue `outbound`. The payloads of messages and events are left out; a
`broadcast` channel is known by its number and is closed when its sender is dropped.
-/

namespace AgentHostProtocol.Rust.Client

open Library

/-- What the peer, or the teardown, answers to a request. -/
inductive Answer where
  | value
  | error
  deriving DecidableEq

/-- What `request` returns. -/
inductive Outcome where
  | answered (answer : Answer)
  /-- `ClientError::Shutdown`. -/
  | shutdown
  deriving DecidableEq

/-- Where a call of `request` is. -/
inductive Requesting where
  /-- Its sender is in `pending`, its message not yet in `outbound`. -/
  | inserted
  /-- In `rx.await`. -/
  | waiting
  | returned (outcome : Outcome)
  deriving DecidableEq

/-- A call of `request` with its `oneshot` channel. -/
structure Request where
  pc : Requesting
  /-- What was sent through the channel. -/
  slot : Option Answer
  deriving DecidableEq

/-- What is in `outbound`. -/
inductive Outbound where
  /-- A request, a notification or a response. -/
  | message
  | shutdown
  deriving DecidableEq

/-- Where a call of `shutdown` is. -/
inductive ShuttingDown where
  | called
  /-- The message is sent, or the queue is gone. -/
  | sent
  | returned
  deriving DecidableEq

/-- Where `drive_transport` is. -/
inductive Driver where
  /-- In its loop. -/
  | running
  /-- In `transport.close()`. -/
  | closing
  /-- Out of the loop. -/
  | left
  /-- `pending` is drained. -/
  | drained
  /-- `subscriptions` is cleared and still locked. -/
  | cleared
  /-- `all_events` is taken. -/
  | taken
  /-- Returned, with the receiver of `outbound` dropped. -/
  | returned
  deriving DecidableEq

/-- A `SessionSubscription` or a `ClientEventStream`. -/
structure Handle where
  channel : ℕ
  buffered : ℕ
  deriving DecidableEq

structure State where
  requests : List Request
  /-- The requests whose senders are in `pending`. -/
  pending : List ℕ
  outbound : List Outbound
  shutdowns : List ShuttingDown
  driver : Driver
  /-- For each `broadcast` channel whether its sender was dropped. -/
  closed : List Bool
  /-- The channel whose sender is kept for a URI. -/
  subscriptions : Record ℕ
  /-- The channel whose sender is in `all_events`. -/
  allEvents : Option ℕ
  handles : List Handle
  deriving DecidableEq

inductive Act where
  /-- `request` puts its sender in `pending`. -/
  | request
  /-- It puts its message in `outbound`. -/
  | send (request : ℕ)
  /-- Its `rx.await` ends. -/
  | resume (request : ℕ)
  /-- Its future is dropped. -/
  | cancel (request : ℕ)
  /-- `notify`, or the answer to a request of the server. -/
  | notify
  /-- `shutdown` is called. -/
  | shutdown
  /-- It goes on. -/
  | shutdownNext (call : ℕ)
  | attachSubscription (uri : String)
  | unsubscribe (uri : String)
  | events
  /-- A handle receives what is buffered for it. -/
  | recv (handle : ℕ)
  /-- `drive_transport` takes a message, and the transport sends it or fails. -/
  | takeOutbound (sent : Bool)
  /-- `transport.close()` ends. -/
  | transportClosed
  /-- It dispatches a response. -/
  | response (request : ℕ) (answer : Answer)
  /-- It dispatches a notification for a channel. -/
  | notification (uri : String)
  /-- `transport.recv()` fails or the connection ends. -/
  | recvEnded
  /-- The next part of the teardown. -/
  | tearDown
  deriving DecidableEq

/-- The capacity of `outbound`. -/
def outboundCapacity : ℕ := 64

/-- `connect`. -/
def connected : State where
  requests := []
  pending := []
  outbound := []
  shutdowns := []
  driver := .running
  closed := [false]
  subscriptions := .empty
  allEvents := some 0
  handles := []

namespace State

/-- `tx.send(answer)` to every request of `pending`, which is drained. -/
def drainPending (s : State) : State :=
  { s with
    requests := s.requests.mapIdx fun i r =>
      if i ∈ s.pending then { r with slot := some .error } else r
    pending := [] }

/-- The call returns, and its guard `PendingRequest` is dropped. -/
def finish (s : State) (i : ℕ) (r : Request) (outcome : Outcome) : State :=
  { s with
    requests := s.requests.set i { r with pc := .returned outcome }
    pending := s.pending.filter (· ≠ i) }

/-- The sender of channel `c` is dropped. -/
def dropSender (s : State) (c : ℕ) : State := { s with closed := s.closed.set c true }

/-- `tx.send(event)` to the handles of channel `c`, each of which keeps up to `capacity` events. -/
def broadcast (capacity : ℕ) (s : State) (c : Option ℕ) : State :=
  { s with handles := s.handles.map fun h =>
      if some h.channel = c then { h with buffered := min capacity (h.buffered + 1) } else h }

/-- `outbound.send(msg)`, `none` while it waits for room; the queue is gone with its receiver. -/
def enqueue (s : State) (msg : Outbound) : Option State :=
  if s.driver = .returned then some s
  else if s.outbound.length < outboundCapacity then some { s with outbound := s.outbound ++ [msg] }
  else none

/-- `send` of a request. -/
def sendRequest (s : State) (i : ℕ) (r : Request) : Option State :=
  if s.driver = .returned then some (s.finish i r .shutdown)
  else (s.enqueue .message).map fun s => { s with requests := s.requests.set i { r with pc := .waiting } }

/-- `attach_subscription`, which waits for the lock. -/
def attachSubscription (s : State) (uri : String) : Option State :=
  if s.driver = .cleared then none
  else
    match s.subscriptions.get? uri with
    | some c => some { s with handles := s.handles ++ [⟨c, 0⟩] }
    | none =>
      some { s with
        closed := s.closed ++ [false]
        subscriptions := s.subscriptions.set uri s.closed.length
        handles := s.handles ++ [⟨s.closed.length, 0⟩] }

/-- The part of `unsubscribe` before its notification, which waits for the lock. -/
def unsubscribe (s : State) (uri : String) : Option State :=
  if s.driver = .cleared then none
  else
    match s.subscriptions.get? uri with
    | some c => some { s.dropSender c with subscriptions := s.subscriptions.delete uri }
    | none => some s

/-- `events`. -/
def events (s : State) : State :=
  match s.allEvents with
  | some c => { s with handles := s.handles ++ [⟨c, 0⟩] }
  | none => { s with closed := s.closed ++ [true], handles := s.handles ++ [⟨s.closed.length, 0⟩] }

/-- The next part of the teardown of `drive_transport`. -/
def tearDown (s : State) : Option State :=
  match s.driver with
  | .left => some { s.drainPending with driver := .drained }
  | .drained =>
    some { s with
      closed := s.subscriptions.entries.foldl (fun closed e => closed.set e.2 true) s.closed
      subscriptions := .empty
      driver := .cleared }
  | .cleared =>
    some { s with
      closed := s.allEvents.elim s.closed fun c => s.closed.set c true
      allEvents := none
      driver := .taken }
  | .taken => some { s with outbound := [], driver := .returned }
  | _ => none

/-- One step, `none` where the action is not enabled. A `broadcast` channel keeps up to `capacity`
events for each receiver, and `recv` skips what was dropped. -/
def step (capacity : ℕ) (s : State) : Act → Option State
  | .request =>
    some { s with
      requests := s.requests ++ [⟨.inserted, none⟩]
      pending := s.pending ++ [s.requests.length] }
  | .send i =>
    match s.requests[i]? with
    | some ⟨.inserted, slot⟩ => s.sendRequest i ⟨.inserted, slot⟩
    | _ => none
  | .resume i =>
    match s.requests[i]? with
    | some ⟨.waiting, some answer⟩ => some (s.finish i ⟨.waiting, some answer⟩ (.answered answer))
    | _ => none
  | .cancel i =>
    match s.requests[i]? with
    | none | some ⟨.returned _, _⟩ => none
    | some r => some (s.finish i r .shutdown)
  | .notify => s.enqueue .message
  | .shutdown => some { s with shutdowns := s.shutdowns ++ [.called] }
  | .shutdownNext j =>
    match s.shutdowns[j]? with
    | some .called => (s.enqueue .shutdown).map fun s => { s with shutdowns := s.shutdowns.set j .sent }
    | some .sent => some { s.drainPending with shutdowns := s.shutdowns.set j .returned }
    | _ => none
  | .attachSubscription uri => s.attachSubscription uri
  | .unsubscribe uri => s.unsubscribe uri
  | .events => some s.events
  | .recv i =>
    match s.handles[i]? with
    | some h =>
      if h.buffered = 0 then none
      else some { s with handles := s.handles.set i { h with buffered := h.buffered - 1 } }
    | none => none
  | .takeOutbound sent =>
    match s.driver, s.outbound with
    | .running, .message :: rest =>
      some { s with outbound := rest, driver := if sent then .running else .left }
    | .running, .shutdown :: rest => some { s with outbound := rest, driver := .closing }
    | _, _ => none
  | .transportClosed => if s.driver = .closing then some { s with driver := .left } else none
  | .response i answer =>
    if s.driver = .running then
      match s.requests[i]? with
      | some r =>
        if i ∈ s.pending then
          some { s with
            requests := s.requests.set i { r with slot := some answer }
            pending := s.pending.filter (· ≠ i) }
        else some s
      | none => some s
    else none
  | .notification uri =>
    if s.driver = .running then
      some ((s.broadcast capacity (s.subscriptions.get? uri)).broadcast capacity s.allEvents)
    else none
  | .recvEnded => if s.driver = .running then some { s with driver := .left } else none
  | .tearDown => s.tearDown

end State

/-- What `recv` of a handle does next. -/
inductive Recv where
  | event
  | ended
  | waits
  deriving DecidableEq

/-- `recv`. -/
def State.recv (s : State) (h : Handle) : Recv :=
  if 0 < h.buffered then .event else if s.closed[h.channel]? = some true then .ended else .waits

/-- The call waits for a response that nobody has sent. -/
def Request.waits (r : Request) : Bool := r.pc == .waiting && r.slot.isNone

end AgentHostProtocol.Rust.Client
