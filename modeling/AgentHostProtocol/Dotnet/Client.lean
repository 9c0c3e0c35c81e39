import AgentHostProtocol.Library.Lists
import Mathlib.Data.Nat.Notation

/-!
# The .NET client

`AhpClient` with its reader and writer tasks, any number of calls of `RequestAsync`,
`NotifyAsync` and `SubscribeAsync` under way, and the close path `ShutdownWithErrorAsync`. A step
is what a task does between two places where another one can come in: a look at
`_shutdownStarted`, an operation on `_pending`, on the outbound channel or on a
`TaskCompletionSource`, a critical section of `_subsLock`. There is no default timeout and no
caller cancels. Messages have no content, and what the handles receive is left out, and so are the
state-change streams. `UnsubscribeAsync` is the `Close` of some handles and a `NotifyAsync`.
-/

namespace AgentHostProtocol.Dotnet.Client

open Library

/-- What completes the `TaskCompletionSource` of a request. -/
inductive Response where
  /-- The result that was received under the id. -/
  | result (id : UInt64)
  /-- `AhpRpcException`. -/
  | rpcError (id : UInt64)
  /-- The exception of the teardown. -/
  | closed
  deriving DecidableEq

/-- What completes `sentTcs`. -/
inductive Sent where
  | ok
  | closed
  /-- The exception of `SendAsync`. -/
  | failed
  deriving DecidableEq

/-- What a call returns or throws. -/
inductive Outcome where
  | response (response : Response)
  /-- The result could not be deserialized, or `subscribe` returned none. -/
  | undecodable
  | sent
  /-- `AhpClientClosedException`. -/
  | closed
  /-- `AhpTransportException`, or the exception of `SendAsync`. -/
  | transport
  | encodeError
  deriving DecidableEq

/-- The call returned the result it asked for. -/
def Outcome.ok : Outcome → Bool
  | .response (.result _) => true
  | _ => false

inductive Kind where
  | request
  | notify
  /-- `EnqueueReplyAsync`: no one waits for it to be sent. -/
  | reply
  deriving DecidableEq

/-- Where a call is. -/
inductive Calling where
  | called
  /-- Before `_pending[id] = tcs`. -/
  | inserting
  /-- Before the second look at `_shutdownStarted`. -/
  | rechecking
  /-- In `WriteAsync`. -/
  | writing
  /-- In `sentTcs.Task.WaitAsync`. -/
  | sending
  /-- In `tcs.Task.WaitAsync`. -/
  | receiving
  /-- Before `_pending.TryRemove(id)`. -/
  | failing (outcome : Outcome)
  /-- In `SubscribeAsync`, before `sub.Close()`. -/
  | closing (outcome : Outcome)
  | returned (outcome : Outcome)
  deriving DecidableEq

structure Call where
  kind : Kind
  /-- The id, once it is minted. -/
  id : Option UInt64
  /-- The handle of `SubscribeAsync`. -/
  sub : Option ℕ
  pc : Calling
  sent : Option Sent
  response : Option Response
  deriving DecidableEq

/-- `Subscription` or `EventStream`. -/
structure Handle where
  /-- `Close` was called. -/
  closed : Bool
  /-- The application has it. -/
  returned : Bool
  deriving DecidableEq

/-- Where `RunReaderAsync` is. -/
inductive Reader where
  | receiving
  /-- In `Deliver`, with the entry taken out of `_pending`. -/
  | delivering (call : ℕ) (response : Response)
  /-- In `ShutdownWithErrorAsync`. -/
  | tearingDown
  | returned
  deriving DecidableEq

/-- Where `RunWriterAsync` is. -/
inductive Writer where
  /-- In `ReadAllAsync`, before `TryRead`. -/
  | reading
  /-- In `WaitToReadAsync`. -/
  | waiting
  | sending (call : ℕ)
  /-- In `ShutdownWithErrorAsync`. -/
  | tearingDown
  | returned
  deriving DecidableEq

/-- How the writer fares with a message. -/
inductive Sending where
  | sent
  /-- `EncodeMessage` throws. -/
  | encodeError
  /-- `SendAsync` is cancelled by `_lifetimeCts`. -/
  | cancelled
  /-- `SendAsync` throws. -/
  | failed
  deriving DecidableEq

/-- A call of `ShutdownAsync`. -/
inductive Shutdown where
  /-- It runs `ShutdownWithErrorAsync`. -/
  | tearingDown
  /-- It awaits the reader and the writer. -/
  | joining
  | returned
  deriving DecidableEq

/-- Where `ShutdownWithErrorAsync` is. -/
inductive Teardown where
  | notCalled
  /-- `_shutdownStarted` is 1. -/
  | begun
  /-- `_lifetimeCts` is cancelled. -/
  | cancelled
  /-- The transport is disposed of. -/
  | disposed
  /-- The outbound channel is completed. -/
  | completed
  /-- In the loop over `_pending`, with what is left of the keys it began with. -/
  | failing (left : List UInt64)
  /-- The registries are copied, and the handles left are to be closed. -/
  | closing (left : List ℕ)
  | finished
  deriving DecidableEq

/-- Who runs `ShutdownWithErrorAsync`. -/
inductive Runner where
  | shutdown (call : ℕ)
  | reader
  | writer
  | keepAlive
  deriving DecidableEq

structure State where
  calls : List Call
  nextId : UInt64
  /-- The requests by id. -/
  pending : List (UInt64 × ℕ)
  outbound : List ℕ
  reader : Reader
  writer : Writer
  teardown : Teardown
  runner : Runner
  shutdowns : List Shutdown
  handles : List Handle
  subscriptions : List (String × ℕ)
  eventListeners : List ℕ
  returns : List (ℕ × Outcome)
  deriving DecidableEq

inductive Act where
  | request
  | subscribe (uri : String)
  | notify
  /-- The reply to a request of the server. -/
  | reply
  /-- A call looks at `_shutdownStarted`; a notification serializes its parameters. -/
  | check (call : ℕ) (encoded : Bool)
  /-- It puts its `TaskCompletionSource` into `_pending`. -/
  | insert (call : ℕ)
  /-- It looks at `_shutdownStarted` again, and serializes its parameters. -/
  | recheck (call : ℕ) (encoded : Bool)
  /-- `WriteAsync` writes. -/
  | enqueue (call : ℕ)
  /-- `WriteAsync` throws. -/
  | refused (call : ℕ)
  /-- `sentTcs` is completed. -/
  | wasSent (call : ℕ)
  /-- `tcs` is completed. -/
  | receive (call : ℕ) (decoded : Bool)
  /-- It removes its id from `_pending`. -/
  | fail (call : ℕ)
  /-- `SubscribeAsync` closes its handle. -/
  | closeSub (call : ℕ)
  | attachSubscription (uri : String)
  | createEventStream
  /-- `Close` of a handle. -/
  | close (handle : ℕ)
  /-- The reader gets a response. -/
  | response (id : UInt64) (ok : Bool)
  /-- It completes the `TaskCompletionSource`. -/
  | deliver
  /-- `ReceiveAsync` throws. -/
  | recvError
  /-- The reader sees that the client is shut down. -/
  | readerStop
  /-- `TryRead`. -/
  | writerRead
  /-- `WaitToReadAsync` returns. -/
  | writerWake
  /-- `WaitToReadAsync` is cancelled. -/
  | writerStop
  | writerSend (result : Sending)
  /-- A ping of the keep-alive loop fails. -/
  | pingFailed
  /-- `ShutdownAsync`, up to its first `await`. -/
  | shutdown
  /-- `ShutdownAsync` returns. -/
  | joined (call : ℕ)
  /-- `ShutdownWithErrorAsync` goes on. -/
  | tearDown
  /-- Its loop comes upon an entry that was added since it began. -/
  | failAdded (id : UInt64)
  deriving DecidableEq

/-- The capacity of the outbound channel. -/
def outboundCapacity : ℕ := 64

namespace Teardown

/-- `_shutdownStarted` is 1. -/
def started : Teardown → Bool
  | .notCalled => false
  | _ => true

/-- `_lifetimeCts.IsCancellationRequested`. -/
def isCancelled : Teardown → Bool
  | .notCalled | .begun => false
  | _ => true

/-- The outbound channel is completed. -/
def isCompleted : Teardown → Bool
  | .notCalled | .begun | .cancelled | .disposed => false
  | _ => true

/-- The loop over `_pending` has ended. -/
def hasFailed : Teardown → Bool
  | .closing _ | .finished => true
  | _ => false

end Teardown

/-- `Connect`. -/
def connected : State where
  calls := []
  nextId := 1
  pending := []
  outbound := []
  reader := .receiving
  writer := .reading
  teardown := .notCalled
  runner := .keepAlive
  shutdowns := []
  handles := []
  subscriptions := []
  eventListeners := []
  returns := []

namespace State

def newCall (s : State) (kind : Kind) (sub : Option ℕ) : State :=
  { s with calls := s.calls ++ [⟨kind, none, sub, .called, none, none⟩] }

def setCall (s : State) (i : ℕ) (call : Call) : State := { s with calls := s.calls.set i call }

/-- `_pending.TryRemove(id)`. -/
def removePending (s : State) (id : Option UInt64) : State :=
  { s with pending := s.pending.filter fun e => some e.1 ≠ id }

/-- `TrySetResult` or `TrySetException` of a request. -/
def complete (s : State) (i : ℕ) (r : Response) : State :=
  match s.calls[i]? with
  | some call => s.setCall i { call with response := call.response.or (some r) }
  | none => s

/-- `item.Sent?.TrySetResult` or `TrySetException`; a reply has no `Sent`. -/
def completeSent (s : State) (i : ℕ) (v : Sent) : State :=
  match s.calls[i]? with
  | some call =>
    if call.kind = .reply then s else s.setCall i { call with sent := call.sent.or (some v) }
  | none => s

/-- The entries of the registries. -/
def registered (s : State) : List ℕ := s.subscriptions.map Prod.snd ++ s.eventListeners

/-- `Close` of a handle, and its detach hook. -/
def closeHandle (s : State) (k : ℕ) : State :=
  match s.handles[k]? with
  | some h =>
    { s with
      handles := s.handles.set k { h with closed := true }
      subscriptions := s.subscriptions.filter (·.2 ≠ k)
      eventListeners := s.eventListeners.filter (· ≠ k) }
  | none => s

/-- The handle goes to the application. -/
def returnHandle (s : State) (k : ℕ) : State :=
  match s.handles[k]? with
  | some h => { s with handles := s.handles.set k { h with returned := true } }
  | none => s

/-- The call returns or throws. -/
def leave (s : State) (i : ℕ) (call : Call) (outcome : Outcome) : State :=
  { s.setCall i { call with pc := .returned outcome } with returns := s.returns ++ [(i, outcome)] }

/-- `RequestAsync` or `NotifyAsync` returns; `SubscribeAsync` passes its handle on or closes it
first. -/
def finish (s : State) (i : ℕ) (call : Call) (outcome : Outcome) : State :=
  match call.sub with
  | none => s.leave i call outcome
  | some k =>
    if outcome.ok then (s.returnHandle k).leave i call outcome
    else s.setCall i { call with pc := .closing outcome }

/-- `SendMessageAsync` throws. -/
def abort (s : State) (i : ℕ) (call : Call) (outcome : Outcome) : State :=
  if call.kind = .request then s.setCall i { call with pc := .failing outcome }
  else s.finish i call outcome

/-- `AttachSubscription`. -/
def attachSubscription (s : State) (uri : String) (returned : Bool) : State :=
  { s with
    handles := s.handles ++ [⟨false, returned⟩]
    subscriptions := s.subscriptions ++ [(uri, s.handles.length)] }

/-- `CreateEventStream`. -/
def createEventStream (s : State) : State :=
  { s with
    handles := s.handles ++ [⟨false, true⟩]
    eventListeners := s.eventListeners ++ [s.handles.length] }

/-! ### Calls -/

def check (s : State) (i : ℕ) (call : Call) (encoded : Bool) : Option State :=
  match call.pc with
  | .called =>
    if s.teardown.started then some (s.finish i call .closed)
    else
      match call.kind with
      | .request =>
        some { s.setCall i { call with id := some s.nextId, pc := .inserting } with
          nextId := s.nextId + 1 }
      | .notify =>
        if encoded then some (s.setCall i { call with pc := .writing })
        else some (s.finish i call .encodeError)
      | .reply => some (s.setCall i { call with pc := .writing })
  | _ => none

def insert (s : State) (i : ℕ) (call : Call) : Option State :=
  match call.pc, call.id with
  | .inserting, some id =>
    some { s.setCall i { call with pc := .rechecking } with
      pending := s.pending.filter (·.1 ≠ id) ++ [(id, i)] }
  | _, _ => none

def recheck (s : State) (i : ℕ) (call : Call) (encoded : Bool) : Option State :=
  match call.pc with
  | .rechecking =>
    if s.teardown.started then some (s.setCall i { call with pc := .failing .closed })
    -- The serializer throws outside the `try` that removes the entry.
    else if encoded = false then some (s.finish i call .encodeError)
    else some (s.setCall i { call with pc := .writing })
  | _ => none

def enqueue (s : State) (i : ℕ) (call : Call) : Option State :=
  match call.pc with
  | .writing =>
    if s.teardown.isCompleted = false ∧ s.outbound.length < outboundCapacity then
      if call.kind = .reply then
        some { s.finish i call .sent with outbound := s.outbound ++ [i] }
      else
        some { s.setCall i { call with pc := .sending } with outbound := s.outbound ++ [i] }
    else none
  | _ => none

def refused (s : State) (i : ℕ) (call : Call) : Option State :=
  match call.pc with
  | .writing =>
    if s.teardown.isCompleted then
      some (s.abort i call (if s.teardown.started then .closed else .transport))
    else none
  | _ => none

def wasSent (s : State) (i : ℕ) (call : Call) : Option State :=
  match call.pc, call.sent with
  | .sending, some .ok =>
    if call.kind = .request then some (s.setCall i { call with pc := .receiving })
    else some (s.finish i call .sent)
  | .sending, some .closed => some (s.abort i call .closed)
  | .sending, some .failed => some (s.abort i call .transport)
  | _, _ => none

def receive (s : State) (i : ℕ) (call : Call) (decoded : Bool) : Option State :=
  match call.pc, call.response with
  | .receiving, some (.result id) =>
    some (s.finish i call (if decoded then .response (.result id) else .undecodable))
  | .receiving, some (.rpcError id) => some (s.finish i call (.response (.rpcError id)))
  | .receiving, some .closed => some (s.finish i call (.response .closed))
  | _, _ => none

def fail (s : State) (i : ℕ) (call : Call) : Option State :=
  match call.pc with
  | .failing outcome => some ((s.removePending call.id).finish i call outcome)
  | _ => none

def closeSub (s : State) (i : ℕ) (call : Call) : Option State :=
  match call.pc, call.sub with
  | .closing outcome, some k => some ((s.closeHandle k).leave i call outcome)
  | _, _ => none

/-! ### The teardown -/

/-- `ShutdownWithErrorAsync` up to the cancellation of `_lifetimeCts`, for the first caller. -/
def begin (s : State) (runner : Runner) : State :=
  { s with teardown := .begun, runner := runner }

/-- `TryRemove` and `TrySetException` of one entry. -/
def failEntry (s : State) (id : UInt64) : State :=
  match s.pending.lookup id with
  | some i => (s.removePending (some id)).complete i .closed
  | none => s

/-- `ShutdownWithErrorAsync` returns to who runs it. -/
def finishTeardown (s : State) : State :=
  match s.runner with
  | .shutdown c => { s with teardown := .finished, shutdowns := s.shutdowns.set c .joining }
  | .reader => { s with teardown := .finished, reader := .returned }
  | .writer => { s with teardown := .finished, writer := .returned }
  | .keepAlive => { s with teardown := .finished }

def tearDown (s : State) : Option State :=
  match s.teardown with
  | .notCalled => none
  | .begun => some { s with teardown := .cancelled }
  | .cancelled => some { s with teardown := .disposed }
  | .disposed => some { s with teardown := .completed }
  | .completed => some { s with teardown := .failing (s.pending.map Prod.fst) }
  | .failing (id :: left) => some { s.failEntry id with teardown := .failing left }
  | .failing [] => some { s with teardown := .closing s.registered, eventListeners := [] }
  | .closing (k :: left) => some { s.closeHandle k with teardown := .closing left }
  | .closing [] => some s.finishTeardown
  | .finished => none

def failAdded (s : State) (id : UInt64) : Option State :=
  match s.teardown with
  | .failing _ => some (s.failEntry id)
  | _ => none

def pingFailed (s : State) : Option State :=
  if s.teardown.started then some s else some (s.begin .keepAlive)

def shutdown (s : State) : Option State :=
  if s.teardown.started then some { s with shutdowns := s.shutdowns ++ [.joining] }
  else
    some { s.begin (.shutdown s.shutdowns.length) with shutdowns := s.shutdowns ++ [.tearingDown] }

def joined (s : State) (c : ℕ) : Option State :=
  match s.shutdowns[c]?, s.reader, s.writer with
  | some .joining, .returned, .returned => some { s with shutdowns := s.shutdowns.set c .returned }
  | _, _, _ => none

/-! ### The reader and the writer -/

/-- `Dispatch` of a response, up to `TryRemove`. -/
def dispatch (s : State) (id : UInt64) (ok : Bool) : Option State :=
  match s.reader with
  | .receiving =>
    match s.pending.lookup id with
    | some i =>
      some { s.removePending (some id) with
        reader := .delivering i (if ok then .result id else .rpcError id) }
    | none => some s
  | _ => none

def deliver (s : State) : Option State :=
  match s.reader with
  | .delivering i r => some { s.complete i r with reader := .receiving }
  | _ => none

def recvError (s : State) : Option State :=
  match s.reader with
  | .receiving =>
    if s.teardown.started then some { s with reader := .returned }
    else some { s.begin .reader with reader := .tearingDown }
  | _ => none

def readerStop (s : State) : Option State :=
  match s.reader with
  | .receiving => if s.teardown.started then some { s with reader := .returned } else none
  | _ => none

def writerRead (s : State) : Option State :=
  match s.writer, s.outbound with
  | .reading, i :: rest => some { s with writer := .sending i, outbound := rest }
  | .reading, [] => some { s with writer := .waiting }
  | _, _ => none

def writerWake (s : State) : Option State :=
  match s.writer, s.outbound with
  | .waiting, _ :: _ => some { s with writer := .reading }
  | _, _ => none

def writerStop (s : State) : Option State :=
  match s.writer with
  | .waiting => if s.teardown.isCancelled then some { s with writer := .returned } else none
  | _ => none

/-- The writer gives up, and tears the client down if no one has yet. -/
def writerFails (s : State) : State :=
  if s.teardown.started then { s with writer := .returned }
  else { s.begin .writer with writer := .tearingDown }

def writerSend (s : State) (result : Sending) : Option State :=
  match s.writer, result with
  | .sending i, .sent => some { s.completeSent i .ok with writer := .reading }
  | .sending _, .encodeError => some s.writerFails
  | .sending i, .cancelled =>
    if s.teardown.isCancelled then some { s.completeSent i .closed with writer := .returned }
    else none
  | .sending i, .failed => some (s.completeSent i .failed).writerFails
  | _, _ => none

/-- One step, `none` where the action is not enabled. -/
def step (s : State) : Act → Option State
  | .request => some (s.newCall .request none)
  | .subscribe uri =>
    some ((s.attachSubscription uri false).newCall .request (some s.handles.length))
  | .notify => some (s.newCall .notify none)
  | .reply => some (s.newCall .reply none)
  | .check i encoded => (s.calls[i]?).bind fun call => s.check i call encoded
  | .insert i => (s.calls[i]?).bind fun call => s.insert i call
  | .recheck i encoded => (s.calls[i]?).bind fun call => s.recheck i call encoded
  | .enqueue i => (s.calls[i]?).bind fun call => s.enqueue i call
  | .refused i => (s.calls[i]?).bind fun call => s.refused i call
  | .wasSent i => (s.calls[i]?).bind fun call => s.wasSent i call
  | .receive i decoded => (s.calls[i]?).bind fun call => s.receive i call decoded
  | .fail i => (s.calls[i]?).bind fun call => s.fail i call
  | .closeSub i => (s.calls[i]?).bind fun call => s.closeSub i call
  | .attachSubscription uri => some (s.attachSubscription uri true)
  | .createEventStream => some s.createEventStream
  | .close k => if k < s.handles.length then some (s.closeHandle k) else none
  | .response id ok => s.dispatch id ok
  | .deliver => s.deliver
  | .recvError => s.recvError
  | .readerStop => s.readerStop
  | .writerRead => s.writerRead
  | .writerWake => s.writerWake
  | .writerStop => s.writerStop
  | .writerSend result => s.writerSend result
  | .pingFailed => s.pingFailed
  | .shutdown => s.shutdown
  | .joined c => s.joined c
  | .tearDown => s.tearDown
  | .failAdded id => s.failAdded id

end State

end AgentHostProtocol.Dotnet.Client
