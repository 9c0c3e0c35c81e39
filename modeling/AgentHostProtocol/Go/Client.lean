import AgentHostProtocol.Library.Lists
import AgentHostProtocol.Library.Record
import Mathlib.Data.Nat.Notation

/-!
# The Go client

`Client` with its reader and writer goroutines, any number of calls under way, and the close path
`shutdownWithError`. A step is what a goroutine does between two places where another one can come
in: a critical section of `pendingMu`, of `subscriptionsMu` or of a handle, an operation on a
channel, one ready case of a `select`. To close a channel twice or to send to a closed one panics.
Messages have no content, and what the handles receive is left out.
-/

namespace AgentHostProtocol.Go.Client

open Library

/-- `pendingResult`. -/
inductive PendingResult where
  /-- The response with the given id, and whether it has a result that can be decoded. -/
  | response (id : UInt64) (ok : Bool)
  /-- The error of the teardown. -/
  | failed
  deriving DecidableEq

/-- What a call returns. -/
inductive Outcome where
  | result (result : PendingResult)
  /-- The zero `pendingResult` that a closed channel yields. -/
  | zero
  | sent
  /-- `ErrShutdown`. -/
  | shutdown
  /-- `ctx.Err()`. -/
  | cancelled
  | encodeError
  | sendError
  deriving DecidableEq

/-- The call got the result it asked for. -/
def Outcome.ok : Outcome → Bool
  | .result (.response _ ok) => ok
  | _ => false

/-- Where a call of `Request` or `Notify` is. -/
inductive Calling where
  | called
  /-- Before `c.pending[id] = resultCh`. -/
  | inserting
  /-- In the first `select` of `send`. -/
  | sending
  /-- In the second one. -/
  | acking
  /-- In the last `select` of `Request`. -/
  | waiting
  /-- Before `delete(c.pending, id)`. -/
  | failing (outcome : Outcome)
  /-- In `Subscribe`, before `sub.Close()`. -/
  | closing (outcome : Outcome)
  | returned (outcome : Outcome)
  deriving DecidableEq

/-- `resultCh`, a channel for one value. -/
structure ResultChan where
  value : Option PendingResult
  closed : Bool
  deriving DecidableEq

/-- A call of `Request` or of `Notify`. -/
structure Call where
  request : Bool
  id : UInt64
  /-- The handle of `Subscribe`. -/
  sub : Option ℕ
  pc : Calling
  /-- What the writer sent through `msg.done`. -/
  ack : Option Bool
  resultCh : ResultChan
  deriving DecidableEq

/-- `Subscription` or `EventStream`. -/
structure Handle where
  /-- The field `closed`. -/
  closed : Bool
  /-- Whether the channel `events` is closed. -/
  channelClosed : Bool
  /-- The application has it. -/
  returned : Bool
  deriving DecidableEq

/-- Where `runReader` is. -/
inductive Reader where
  | receiving
  /-- In `deliver`, before `ch <- r`. -/
  | delivering (call : ℕ) (result : PendingResult)
  /-- In `deliver`, before `close(ch)`. -/
  | closing (call : ℕ)
  /-- In `fanOut`. -/
  | fanningOut (left : List ℕ)
  | returned
  deriving DecidableEq

/-- Where `runWriter` is. -/
inductive Writer where
  | receiving
  | sending (call : ℕ)
  | returned
  deriving DecidableEq

/-- Where `shutdownWithError` is. -/
inductive Teardown where
  | notCalled
  /-- `c.done` is closed. -/
  | begun
  | transportClosed
  /-- Every pending request has failed. -/
  | failed
  /-- The registries are swapped out, and the handles left are to be closed. -/
  | closing (left : List ℕ)
  | finished
  deriving DecidableEq

structure State where
  calls : List Call
  nextID : UInt64
  /-- The requests by id. -/
  pending : List (UInt64 × ℕ)
  outbound : List ℕ
  reader : Reader
  writer : Writer
  /-- `c.done` is closed. -/
  done : Bool
  teardown : Teardown
  handles : List Handle
  subscriptions : Record (List ℕ)
  eventListeners : List ℕ
  /-- What each call of `Unsubscribe` has left to close. -/
  unsubscribes : List (List ℕ)
  returns : List (ℕ × Outcome)
  panicked : Bool
  deriving DecidableEq

inductive Act where
  | request
  | subscribe (uri : String)
  | notify
  /-- `handleServerRequest` sends its response. -/
  | answer
  /-- A call looks at `c.done` and encodes its parameters. -/
  | check (call : ℕ) (encoded : Bool)
  /-- It inserts its channel into `pending`. -/
  | insert (call : ℕ)
  /-- Its `select` sends to `outbound`. -/
  | enqueue (call : ℕ)
  /-- Its `select` receives from `msg.done`. -/
  | acked (call : ℕ)
  /-- Its `select` receives from `resultCh`. -/
  | receive (call : ℕ)
  /-- Its `select` takes `ctx.Done()`. -/
  | cancelled (call : ℕ)
  /-- Its `select` takes `c.done`. -/
  | sawDone (call : ℕ)
  /-- It deletes its id from `pending`. -/
  | fail (call : ℕ)
  /-- `Subscribe` closes its handle. -/
  | closeSub (call : ℕ)
  | attachSubscription (uri : String)
  | events
  /-- `Unsubscribe` takes the handles of a URI. -/
  | unsubscribe (uri : String)
  /-- It closes the next one. -/
  | unsubscribeNext (call : ℕ)
  /-- `Close` of a handle. -/
  | close (handle : ℕ)
  /-- The reader gets a response. -/
  | response (id : UInt64) (ok : Bool)
  /-- It gets a notification. -/
  | notification (uri : String)
  /-- It goes on with what it got. -/
  | readerNext
  /-- `Recv` fails. -/
  | recvError
  /-- The reader sees `c.done`. -/
  | readerDone
  /-- The writer takes a message. -/
  | writerTake
  /-- It encodes and sends it; either can fail. -/
  | writerSend (encoded sent : Bool)
  /-- The writer sees `c.done`. -/
  | writerDone
  /-- `Shutdown`. -/
  | shutdown
  /-- `shutdownWithError` goes on. -/
  | tearDown
  deriving DecidableEq

/-- The capacity of `outbound`. -/
def outboundCapacity : ℕ := 64

/-- `Connect`. -/
def connected : State where
  calls := []
  nextID := 1
  pending := []
  outbound := []
  reader := .receiving
  writer := .receiving
  done := false
  teardown := .notCalled
  handles := []
  subscriptions := .empty
  eventListeners := []
  unsubscribes := []
  returns := []
  panicked := false

namespace State

/-- A call with a fresh `resultCh`. -/
def newCall (s : State) (request : Bool) (sub : Option ℕ) (pc : Calling) : State :=
  { s with calls := s.calls ++ [⟨request, 0, sub, pc, none, ⟨none, false⟩⟩] }

def setPc (s : State) (i : ℕ) (call : Call) (pc : Calling) : State :=
  { s with calls := s.calls.set i { call with pc := pc } }

/-- `ch <- r`. -/
def sendResult (s : State) (i : ℕ) (call : Call) (r : PendingResult) : State :=
  { s with
    calls := s.calls.set i { call with resultCh := { call.resultCh with value := some r } }
    panicked := s.panicked || call.resultCh.closed }

/-- `close(ch)`. -/
def closeResult (s : State) (i : ℕ) (call : Call) : State :=
  { s with
    calls := s.calls.set i { call with resultCh := { call.resultCh with closed := true } }
    panicked := s.panicked || call.resultCh.closed }

/-- `delete(c.pending, id)`. -/
def deletePending (s : State) (id : UInt64) : State :=
  { s with pending := s.pending.filter (·.1 ≠ id) }

/-- `Close` of a handle. -/
def closeHandle (s : State) (k : ℕ) : State :=
  match s.handles[k]? with
  | some h =>
    if h.closed then s
    else { s with
      handles := s.handles.set k { h with closed := true, channelClosed := true }
      panicked := s.panicked || h.channelClosed }
  | none => s

/-- `trySend` to a handle. -/
def trySend (s : State) (k : ℕ) : State :=
  match s.handles[k]? with
  | some h => if h.closed then s else { s with panicked := s.panicked || h.channelClosed }
  | none => s

/-- The handle goes to the application. -/
def returnHandle (s : State) (k : ℕ) : State :=
  match s.handles[k]? with
  | some h => { s with handles := s.handles.set k { h with returned := true } }
  | none => s

/-- The call returns; `Subscribe` passes its handle on or closes it first. -/
def finish (s : State) (i : ℕ) (call : Call) (outcome : Outcome) : State :=
  match call.sub with
  | none => { s.setPc i call (.returned outcome) with returns := s.returns ++ [(i, outcome)] }
  | some k =>
    if outcome.ok then
      { (s.setPc i call (.returned outcome)).returnHandle k with
        returns := s.returns ++ [(i, outcome)] }
    else s.setPc i call (.closing outcome)

/-- An error after `pending` has the call. -/
def abort (s : State) (i : ℕ) (call : Call) (outcome : Outcome) : State :=
  if call.request then s.setPc i call (.failing outcome) else s.finish i call outcome

/-- A new handle in the registry of a URI. -/
def attach (s : State) (uri : String) (returned : Bool) : State :=
  { s with
    handles := s.handles ++ [⟨false, false, returned⟩]
    subscriptions := s.subscriptions.set uri ((s.subscriptions.get? uri).getD [] ++ [s.handles.length]) }

/-- `shutdownWithError` up to the close of the transport, for the first caller. -/
def shutdownWithError (s : State) : State :=
  match s.teardown with
  | .notCalled => { s with done := true, teardown := .begun, panicked := s.panicked || s.done }
  | _ => s

/-- Every in-flight request fails. -/
def failPending (s : State) : State :=
  let taken (i : ℕ) : Bool := s.pending.any fun e => e.2 = i
  { s with
    calls := s.calls.mapIdx fun i call =>
      if taken i then
        { call with resultCh := ⟨call.resultCh.value.or (some .failed), true⟩ }
      else call
    pending := []
    panicked := s.panicked ||
      s.pending.any fun e => (s.calls[e.2]?).any fun call => call.resultCh.closed }

/-- The registries are swapped out. -/
def swapRegistries (s : State) : State :=
  { s with
    subscriptions := .empty
    eventListeners := []
    teardown := .closing ((s.subscriptions.entries.map Prod.snd).flatten ++ s.eventListeners) }

/-- `shutdownWithError` goes on. -/
def tearDown (s : State) : Option State :=
  match s.teardown with
  | .begun => some { s with teardown := .transportClosed }
  | .transportClosed => some { s.failPending with teardown := .failed }
  | .failed => some s.swapRegistries
  | .closing [] => some { s with teardown := .finished }
  | .closing (k :: left) => some { s.closeHandle k with teardown := .closing left }
  | _ => none

/-- A step of a call. -/
def callStep (s : State) (i : ℕ) (call : Call) : Act → Option State
  | .check _ encoded =>
    match call.pc with
    | .called =>
      if s.done then some (s.finish i call .shutdown)
      else if encoded = false then some (s.finish i call .encodeError)
      else if call.request then
        some { s.setPc i { call with id := s.nextID } .inserting with nextID := s.nextID + 1 }
      else some (s.setPc i call .sending)
    | _ => none
  | .insert _ =>
    match call.pc with
    | .inserting =>
      some { (s.setPc i call .sending).deletePending call.id with
        pending := (call.id, i) :: s.pending.filter (·.1 ≠ call.id) }
    | _ => none
  | .enqueue _ =>
    match call.pc with
    | .sending =>
      if s.outbound.length < outboundCapacity then
        some { s.setPc i call .acking with outbound := s.outbound ++ [i] }
      else none
    | _ => none
  | .acked _ =>
    match call.pc, call.ack with
    | .acking, some true =>
      some (if call.request then s.setPc i call .waiting else s.finish i call .sent)
    | .acking, some false => some (s.abort i call .sendError)
    | _, _ => none
  | .receive _ =>
    match call.pc, call.resultCh.value with
    | .waiting, some r =>
      some (s.finish i { call with resultCh := { call.resultCh with value := none } } (.result r))
    | .waiting, none => if call.resultCh.closed then some (s.finish i call .zero) else none
    | _, _ => none
  | .cancelled _ =>
    match call.pc with
    | .sending | .acking => some (s.abort i call .cancelled)
    | .waiting => some (s.setPc i call (.failing .cancelled))
    | _ => none
  | .sawDone _ =>
    if s.done then
      match call.pc with
      | .sending | .acking => some (s.abort i call .shutdown)
      | .waiting => some (s.finish i call .shutdown)
      | _ => none
    else none
  | .fail _ =>
    match call.pc with
    | .failing outcome => some ((s.deletePending call.id).finish i call outcome)
    | _ => none
  | .closeSub _ =>
    match call.pc, call.sub with
    | .closing outcome, some k =>
      some { (s.closeHandle k).setPc i call (.returned outcome) with
        returns := s.returns ++ [(i, outcome)] }
    | _, _ => none
  | _ => none

/-- A call that has returned takes no further step. -/
theorem callStep_returned (s : State) (i : ℕ) {call : Call} {outcome : Outcome} (a : Act)
    (hpc : call.pc = .returned outcome) : s.callStep i call a = none := by
  cases a <;> simp [callStep, hpc]

/-- `deliver` up to `ch <- r`. -/
def deliver (s : State) (id : UInt64) (ok : Bool) : Option State :=
  match s.reader with
  | .receiving =>
    match s.pending.lookup id with
    | some i => some { s.deletePending id with reader := .delivering i (.response id ok) }
    | none => some s
  | _ => none

/-- `fanOut` up to the first `trySend`. -/
def fanOut (s : State) (uri : String) : Option State :=
  match s.reader with
  | .receiving =>
    some { s with
      reader := .fanningOut ((s.subscriptions.get? uri).getD [] ++ s.eventListeners) }
  | _ => none

/-- The reader goes on with what it got. -/
def readerNext (s : State) : Option State :=
  match s.reader with
  | .delivering i r =>
    match s.calls[i]? with
    | some call =>
      if call.resultCh.value.isSome && !call.resultCh.closed then none
      else some { s.sendResult i call r with reader := .closing i }
    | none => none
  | .closing i =>
    (s.calls[i]?).map fun call => { s.closeResult i call with reader := .receiving }
  | .fanningOut [] => some { s with reader := .receiving }
  | .fanningOut (k :: left) => some { s.trySend k with reader := .fanningOut left }
  | _ => none

/-- `Recv` fails. -/
def recvError (s : State) : Option State :=
  match s.reader with
  | .receiving => some { s.shutdownWithError with reader := .returned }
  | _ => none

/-- The reader sees `c.done`. -/
def readerDone (s : State) : Option State :=
  match s.reader, s.done with
  | .receiving, true => some { s with reader := .returned }
  | _, _ => none

/-- The writer takes a message. -/
def writerTake (s : State) : Option State :=
  match s.writer, s.outbound with
  | .receiving, i :: rest => some { s with writer := .sending i, outbound := rest }
  | _, _ => none

/-- It encodes the message and sends it, and says so through `msg.done`. -/
def writerSend (s : State) (encoded sent : Bool) : Option State :=
  match s.writer with
  | .sending i =>
    (s.calls[i]?).map fun call =>
      let acked := { s with calls := s.calls.set i { call with ack := some (encoded && sent) } }
      if encoded && !sent then { acked.shutdownWithError with writer := .returned }
      else { acked with writer := .receiving }
  | _ => none

/-- The writer sees `c.done`. -/
def writerDone (s : State) : Option State :=
  match s.writer, s.done with
  | .receiving, true => some { s with writer := .returned }
  | _, _ => none

/-- One step, `none` where the action is not enabled. -/
def step (s : State) : Act → Option State
  | .request => some (s.newCall true none .called)
  | .subscribe uri => some ((s.attach uri false).newCall true (some s.handles.length) .called)
  | .notify => some (s.newCall false none .called)
  | .answer => some (s.newCall false none .sending)
  | .attachSubscription uri => some (s.attach uri true)
  | .events =>
    some { s with
      handles := s.handles ++ [⟨false, false, true⟩]
      eventListeners := s.eventListeners ++ [s.handles.length] }
  | .unsubscribe uri =>
    some { s with
      subscriptions := s.subscriptions.delete uri
      unsubscribes := s.unsubscribes ++ [(s.subscriptions.get? uri).getD []] }
  | .unsubscribeNext u =>
    match s.unsubscribes[u]? with
    | some (k :: left) => some { s.closeHandle k with unsubscribes := s.unsubscribes.set u left }
    | _ => none
  | .close k => if k < s.handles.length then some (s.closeHandle k) else none
  | .shutdown => some s.shutdownWithError
  | .tearDown => s.tearDown
  | .response id ok => s.deliver id ok
  | .notification uri => s.fanOut uri
  | .readerNext => s.readerNext
  | .recvError => s.recvError
  | .readerDone => s.readerDone
  | .writerTake => s.writerTake
  | .writerSend encoded sent => s.writerSend encoded sent
  | .writerDone => s.writerDone
  | .check i encoded => (s.calls[i]?).bind fun call => s.callStep i call (.check i encoded)
  | .insert i => (s.calls[i]?).bind fun call => s.callStep i call (.insert i)
  | .enqueue i => (s.calls[i]?).bind fun call => s.callStep i call (.enqueue i)
  | .acked i => (s.calls[i]?).bind fun call => s.callStep i call (.acked i)
  | .receive i => (s.calls[i]?).bind fun call => s.callStep i call (.receive i)
  | .cancelled i => (s.calls[i]?).bind fun call => s.callStep i call (.cancelled i)
  | .sawDone i => (s.calls[i]?).bind fun call => s.callStep i call (.sawDone i)
  | .fail i => (s.calls[i]?).bind fun call => s.callStep i call (.fail i)
  | .closeSub i => (s.calls[i]?).bind fun call => s.callStep i call (.closeSub i)

end State

end AgentHostProtocol.Go.Client
