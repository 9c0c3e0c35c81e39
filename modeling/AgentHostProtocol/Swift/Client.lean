import AgentHostProtocol.Library.Lists
import Mathlib.Data.Nat.Notation

/-!
# The Swift client

The actor `AHPClient`: its pending requests, its listeners and its two teardown paths. A step is
what a task does on the actor between two suspensions; a call of a method of the same actor, such
as `transition`, suspends no one, so only `transport.close()` cuts a method in two. `Int` traps
where it overflows, so no id is minted twice. What the streams deliver is left out, and so are
notifications and the replies to the server's requests, which touch nothing but the outbound stream.
-/

namespace AgentHostProtocol.Swift.Client

open Library

/-- `ConnectionState`. -/
inductive ConnectionState where
  | disconnected
  | connecting
  | connected
  deriving DecidableEq

/-- The error that `failAllPending` gets. -/
inductive AHPClientError where
  | shutdown
  | transport
  deriving DecidableEq

/-- What the continuation of a request is resumed with. -/
inductive Resumption where
  /-- The result of the response with the id. -/
  | result (id : ℕ)
  /-- The error of the response with the id. -/
  | rpc (id : ℕ)
  /-- The parameters could not be encoded. -/
  | decoding
  | cancelled
  | requestTimeout
  | failed (error : AHPClientError)
  deriving DecidableEq

/-- A call of `shutdown`. -/
inductive Shutdown where
  /-- In `transport.close()`. -/
  | closing
  | returned
  deriving DecidableEq

structure State where
  nextRequestId : ℕ
  /-- The ids whose continuations were made, the last one first. -/
  opened : List ℕ
  /-- The keys of `pending`. -/
  pending : List ℕ
  /-- The continuations that were resumed, the last one first. -/
  resumed : List (ℕ × Resumption)
  /-- Of each stream ever made, whether it is finished. -/
  streams : List Bool
  perUriListeners : List (String × ℕ)
  eventListeners : List ℕ
  stateListeners : List ℕ
  /-- The calls of `subscribe` that wait for their request: its id, the URI and the stream. -/
  subscribing : List (ℕ × String × ℕ)
  /-- `outboundContinuation` is not `nil`. -/
  outbound : Bool
  connectionState : ConnectionState
  didShutdown : Bool
  shutdowns : List Shutdown
  /-- The calls of `handleTransportFailure` that are in `transport.close()`, with their errors. -/
  failures : List AHPClientError
  deriving DecidableEq

inductive Act where
  | connect
  /-- `request`, in a task that may be cancelled already, with parameters that may not encode. -/
  | request (taskCancelled encodes : Bool)
  /-- `requestRaw`. -/
  | requestRaw (taskCancelled encodes : Bool)
  | subscribe (uri : String) (taskCancelled encodes : Bool)
  /-- A call of `subscribe` goes on, after its request was resumed. -/
  | subscribed (call : ℕ) (decodes : Bool)
  | attachSubscription (uri : String)
  | events
  | stateChanges
  | unsubscribe (uri : String)
  /-- A consumer gives up a stream. -/
  | terminate (stream : ℕ)
  /-- The task of `onTermination` removes the listener of a stream. -/
  | removeListener (stream : ℕ)
  /-- The receive loop gets a response. -/
  | response (id : ℕ) (ok : Bool)
  | cancelPending (id : ℕ)
  | timeoutPending (id : ℕ)
  /-- `handleTransportFailure`, by the receive loop, the writer or the keep-alive task. -/
  | transportFailure (error : AHPClientError)
  /-- It goes on after `transport.close()`. -/
  | failureClosed (call : ℕ)
  | shutdown
  /-- `shutdown` goes on after `transport.close()`. -/
  | shutdownClosed (call : ℕ)
  deriving DecidableEq

/-- `init`. -/
def created : State where
  nextRequestId := 1
  opened := []
  pending := []
  resumed := []
  streams := []
  perUriListeners := []
  eventListeners := []
  stateListeners := []
  subscribing := []
  outbound := false
  connectionState := .disconnected
  didShutdown := false
  shutdowns := []
  failures := []

namespace State

/-- The streams in the registries. -/
def registered (s : State) : List ℕ :=
  s.perUriListeners.map Prod.snd ++ s.eventListeners ++ s.stateListeners

/-- `finish` of the continuations of some streams. -/
def finish (s : State) (ks : List ℕ) : State :=
  { s with streams := s.streams.mapIdx fun k finished => finished || ks.contains k }

/-- `pending.removeValue(forKey:)`, and the continuation is resumed. -/
def resume (s : State) (id : ℕ) (r : Resumption) : State :=
  if id ∈ s.pending then
    { s with pending := s.pending.erase id, resumed := (id, r) :: s.resumed }
  else s

def failAllPending (s : State) (error : AHPClientError) : State :=
  { s with
    pending := []
    resumed := s.pending.reverse.map (fun id => (id, .failed error)) ++ s.resumed }

def finishAllSubscriptions (s : State) : State :=
  { s.finish (s.perUriListeners.map Prod.snd) with perUriListeners := [] }

def finishAllEventListeners (s : State) : State :=
  { s.finish s.eventListeners with eventListeners := [] }

def finishAllStateListeners (s : State) : State :=
  { s.finish s.stateListeners with stateListeners := [] }

/-- A request is made: there is no `await` before its entry is in `pending`. -/
def makeRequest (s : State) (taskCancelled encodes : Bool) : State :=
  if s.didShutdown || !s.outbound || taskCancelled then s
  else
    { s with
      nextRequestId := s.nextRequestId + 1
      opened := s.nextRequestId :: s.opened
      pending := if encodes then s.pending ++ [s.nextRequestId] else s.pending
      resumed := if encodes then s.resumed else (s.nextRequestId, .decoding) :: s.resumed }

def request (s : State) (taskCancelled encodes : Bool) : State := s.makeRequest taskCancelled encodes

def requestRaw (s : State) (taskCancelled encodes : Bool) : State :=
  s.makeRequest taskCancelled encodes

/-- `attachSubscriptionInternal`. -/
def attachSubscriptionInternal (s : State) (uri : String) : State :=
  { s with
    streams := s.streams ++ [false]
    perUriListeners := s.perUriListeners ++ [(uri, s.streams.length)] }

def removeAndFinishSubscriptionListener (s : State) (uri : String) (k : ℕ) : State :=
  if (uri, k) ∈ s.perUriListeners then
    { s.finish [k] with perUriListeners := s.perUriListeners.erase (uri, k) }
  else s

def subscribe (s : State) (uri : String) (taskCancelled encodes : Bool) : State :=
  let attached := s.attachSubscriptionInternal uri
  if s.didShutdown || !s.outbound || taskCancelled then
    attached.removeAndFinishSubscriptionListener uri s.streams.length
  else
    { attached.request taskCancelled encodes with
      subscribing := s.subscribing ++ [(s.nextRequestId, uri, s.streams.length)] }

/-- The request of a call of `subscribe` was resumed: the stream is returned, or removed. -/
def subscribed (s : State) (call : ℕ) (decodes : Bool) : Option State :=
  match s.subscribing[call]? with
  | some (id, uri, k) =>
    match s.resumed.lookup id with
    | some r =>
      if r = .result id ∧ decodes then
        some { s with subscribing := s.subscribing.eraseIdx call }
      else
        some { s.removeAndFinishSubscriptionListener uri k with
          subscribing := s.subscribing.eraseIdx call }
    | none => none
  | none => none

def events (s : State) : State :=
  { s with
    streams := s.streams ++ [false]
    eventListeners := s.eventListeners ++ [s.streams.length] }

def stateChanges (s : State) : State :=
  { s with
    streams := s.streams ++ [false]
    stateListeners := s.stateListeners ++ [s.streams.length] }

def unsubscribe (s : State) (uri : String) : State :=
  { s.finish ((s.perUriListeners.filter (·.1 = uri)).map Prod.snd) with
    perUriListeners := s.perUriListeners.filter (·.1 ≠ uri) }

/-- `removeSubscriptionListener`, `removeEventListener` and `removeStateListener`. -/
def removeListener (s : State) (k : ℕ) : Option State :=
  if s.streams[k]? = some true then
    some { s with
      perUriListeners := s.perUriListeners.filter (·.2 ≠ k)
      eventListeners := s.eventListeners.filter (· ≠ k)
      stateListeners := s.stateListeners.filter (· ≠ k) }
  else none

def dispatchInbound (s : State) (id : ℕ) (ok : Bool) : State :=
  s.resume id (if ok then .result id else .rpc id)

def cancelPending (s : State) (id : ℕ) : State := s.resume id .cancelled

def timeoutPending (s : State) (id : ℕ) : State := s.resume id .requestTimeout

/-- `connect` throws after a shutdown and does nothing while connected. -/
def connect (s : State) : State :=
  if s.didShutdown then s
  else if s.connectionState = .connected then s
  else { s with outbound := true, connectionState := .connected }

/-- `handleTransportFailure`, up to `transport.close()`. -/
def handleTransportFailure (s : State) (error : AHPClientError) : State :=
  if s.didShutdown ∨ s.connectionState = .disconnected then s
  else { s with outbound := false, failures := s.failures ++ [error] }

/-- `handleTransportFailure`, after it. -/
def failureClosed (s : State) (call : ℕ) : Option State :=
  match s.failures[call]? with
  | some error =>
    some { (s.failAllPending error).finishAllSubscriptions with
      connectionState := .disconnected, failures := s.failures.eraseIdx call }
  | none => none

/-- `shutdown`, up to `transport.close()`. -/
def shutdown (s : State) : State :=
  if s.didShutdown then { s with shutdowns := s.shutdowns ++ [.returned] }
  else { s with didShutdown := true, outbound := false, shutdowns := s.shutdowns ++ [.closing] }

/-- `shutdown`, after it. -/
def shutdownClosed (s : State) (call : ℕ) : Option State :=
  match s.shutdowns[call]? with
  | some .closing =>
    some { (s.failAllPending .shutdown).finishAllSubscriptions.finishAllEventListeners.finishAllStateListeners with
      connectionState := .disconnected, shutdowns := s.shutdowns.set call .returned }
  | _ => none

/-- One step, `none` where the action is not enabled. -/
def step (s : State) : Act → Option State
  | .connect => some s.connect
  | .request taskCancelled encodes => some (s.request taskCancelled encodes)
  | .requestRaw taskCancelled encodes => some (s.requestRaw taskCancelled encodes)
  | .subscribe uri taskCancelled encodes => some (s.subscribe uri taskCancelled encodes)
  | .subscribed call decodes => s.subscribed call decodes
  | .attachSubscription uri => some (s.attachSubscriptionInternal uri)
  | .events => some s.events
  | .stateChanges => some s.stateChanges
  | .unsubscribe uri => some (s.unsubscribe uri)
  | .terminate k => some (s.finish [k])
  | .removeListener k => s.removeListener k
  | .response id ok => some (s.dispatchInbound id ok)
  | .cancelPending id => some (s.cancelPending id)
  | .timeoutPending id => some (s.timeoutPending id)
  | .transportFailure error => some (s.handleTransportFailure error)
  | .failureClosed call => s.failureClosed call
  | .shutdown => some s.shutdown
  | .shutdownClosed call => s.shutdownClosed call

end State

end AgentHostProtocol.Swift.Client
