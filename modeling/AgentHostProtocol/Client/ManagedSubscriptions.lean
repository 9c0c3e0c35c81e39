import AgentHostProtocol.Client.Requests
import AgentHostProtocol.Library.Record

/-!
# Managed subscriptions

`ManagedSubscriptionManager` over the parts of `AhpClient` it uses: `subscribe`, `unsubscribe`
and the per-URI queues that these attach, close and drop. Entries, subscriptions and leases are
objects that outlive their place in the manager's map; they are numbered in the order in which
they were created, and held by number.

The client is connected, so that once it is closed it stays closed; nobody else subscribes or
unsubscribes with it. `start` and `pump` of an entry are its `activity`: where they wait. The
events that pass through the queues are not followed here. That the iteration of a queue ends
only after the queue was closed or the reader returned is `Does.next_done` and
`Does.next_detached` of `Client.AsyncQueue`.
-/

namespace AgentHostProtocol.Client.ManagedSubscriptions

open Library Requests

/-! ### The client -/

/-- `SubscribeOptions`: the `maxLatencyMs` of its `delivery` and the `turns` of its `view`. -/
structure SubscribeOptions where
  delivery : Option (Option ℕ)
  view : Option (Option ℕ)
  deriving DecidableEq

/-- A message about a channel. -/
inductive WireMessage where
  | subscribe (channel : URI) (options : SubscribeOptions)
  | unsubscribe (channel : URI)
  deriving DecidableEq

/-- A queue that the client attached for a URI. -/
structure Queue where
  uri : URI
  closed : Bool
  deriving DecidableEq

/-- `Subscription`: a reader of a queue. -/
structure Subscription where
  queue : ℕ
  detached : Bool
  deriving DecidableEq

/-- `AhpClient`, with the queues it has created and the messages it has sent, in order. -/
structure SubscribingClient where
  closed : Bool
  subscriptions : Record ℕ
  queues : List Queue
  /-- How many messages the transport takes before it throws, if it will. -/
  transport : Option ℕ
  wire : List WireMessage
  deriving DecidableEq

namespace SubscribingClient

/-- A connected client. -/
def create : SubscribingClient where
  closed := false
  subscriptions := .empty
  queues := []
  transport := none
  wire := []

/-- `tearDown`: close every queue of `subscriptions` and clear the map. -/
def tearDown (c : SubscribingClient) : SubscribingClient :=
  if c.closed then c
  else
    { c with
      closed := true
      subscriptions := .empty
      queues := c.queues.mapIdx fun i queue =>
        if c.subscriptions.entries.any fun e => e.2 = i then { queue with closed := true } else queue }

/-- `sendMessage`: a transport that throws closes the client. -/
def send (c : SubscribingClient) (message : WireMessage) : SubscribingClient :=
  match c.transport with
  | some 0 => c.tearDown
  | some (left + 1) => { c with transport := some left, wire := c.wire ++ [message] }
  | none => { c with wire := c.wire ++ [message] }

/-- `attachSubscription`; `none` where it throws. -/
def attachSubscription (c : SubscribingClient) (uri : URI) : Option (SubscribingClient × Subscription) :=
  if c.closed then none
  else
    match c.subscriptions.get? uri with
    | some queue => some (c, ⟨queue, false⟩)
    | none =>
      let queue := c.queues.length
      some ({ c with
        subscriptions := c.subscriptions.set uri queue
        queues := c.queues ++ [⟨uri, false⟩] }, ⟨queue, false⟩)

/-- `subscribe`, up to the answer; without a subscription where it throws. -/
def subscribe (c : SubscribingClient) (uri : URI) (options : SubscribeOptions) :
    SubscribingClient × Option Subscription :=
  match c.attachSubscription uri with
  | none => (c, none)
  | some (c, subscription) => (c.send (.subscribe uri options), some subscription)

/-- Remove the queue of the URI from the map and close it. -/
def dropQueue (c : SubscribingClient) (uri : URI) : SubscribingClient :=
  match c.subscriptions.get? uri with
  | none => c
  | some queue =>
    { c with
      subscriptions := c.subscriptions.delete uri
      queues := c.queues.modify queue fun queue => { queue with closed := true } }

/-- `unsubscribe`. -/
def unsubscribe (c : SubscribingClient) (uri : URI) : SubscribingClient :=
  if c.closed then c else (c.dropQueue uri).send (.unsubscribe uri)

end SubscribingClient

/-! ### Entries -/

/-- `ManagedSubscriptionStatus`. -/
inductive ManagedSubscriptionStatus where
  | pending
  | active
  | failed
  | closed
  deriving DecidableEq

/-- What `ready` rejects with. -/
inductive ReadyError where
  | failure (error : AhpClientError)
  /-- A `ClientClosedError`. -/
  | closed (message : String)
  deriving DecidableEq

/-- `ManagedSubscriptionState`, with how `ready` has settled. -/
structure ManagedSubscriptionState where
  status : ManagedSubscriptionStatus
  result : Option Json
  error : Option AhpClientError
  ready : Option (Json ⊕ ReadyError)
  deriving DecidableEq

namespace ManagedSubscriptionState

/-- `new ManagedSubscriptionState(uri)`. -/
def create : ManagedSubscriptionState := ⟨.pending, none, none, none⟩

/-- `activate`. -/
def activate (s : ManagedSubscriptionState) (result : Json) : ManagedSubscriptionState :=
  if s.status ≠ .pending then s
  else { s with result := some result, status := .active, ready := some (.inl result) }

/-- `fail`. -/
def fail (s : ManagedSubscriptionState) (error : AhpClientError) : ManagedSubscriptionState :=
  if s.status ≠ .pending then s
  else { s with error := some error, status := .failed, ready := some (.inr (.failure error)) }

/-- `close`. -/
def close (s : ManagedSubscriptionState) (message : String) : ManagedSubscriptionState :=
  if s.status = .failed ∨ s.status = .closed then s
  else
    { s with
      ready := if s.status = .pending then some (.inr (.closed message)) else s.ready
      status := .closed }

end ManagedSubscriptionState

/-- What `subscriptionOptionsKey` makes a string of. -/
structure OptionsKey where
  maxLatencyMs : Option ℕ
  turns : Option ℕ
  deriving DecidableEq

/-- `subscriptionOptionsKey`. -/
def subscriptionOptionsKey (options : SubscribeOptions) : OptionsKey :=
  ⟨options.delivery.join, options.view.join⟩

/-- Where the asynchronous functions of an entry are. -/
inductive Activity where
  /-- `start` waits for `subscribe`, with the subscription that this attached. -/
  | starting (subscription : Option Subscription)
  /-- `pump` iterates over the source. -/
  | pumping
  | finished
  deriving DecidableEq

/-- `Entry`, with where its functions are. -/
structure Entry where
  uri : URI
  optionsKey : OptionsKey
  subscription : ManagedSubscriptionState
  /-- Whether the fan-out `events` is closed. -/
  eventsClosed : Bool
  /-- A JavaScript map from holder ids to owners. -/
  holders : List (ℕ × String)
  source : Option Subscription
  activity : Activity
  deriving DecidableEq

/-- A new entry. -/
def Entry.create (uri : URI) (optionsKey : OptionsKey) : Entry where
  uri := uri
  optionsKey := optionsKey
  subscription := .create
  eventsClosed := false
  holders := []
  source := none
  activity := .finished

/-- The holders of an entry after `holders.delete(holderId)`. -/
def Entry.without (entry : Entry) (holderId : ℕ) : List (ℕ × String) :=
  entry.holders.filter fun holder => holder.1 ≠ holderId

/-- What a lease's `Symbol.dispose` closes over. -/
structure Lease where
  holderId : ℕ
  entry : ℕ
  released : Bool
  deriving DecidableEq

/-! ### The manager -/

/-- `ManagedSubscriptionManager`, with the entries and leases it has created. -/
structure Manager where
  client : SubscribingClient
  /-- The current entry of each URI. -/
  entries : Record ℕ
  nextHolderId : ℕ
  closed : Bool
  heap : List Entry
  leases : List Lease
  deriving DecidableEq

/-- What `acquire` throws. -/
inductive AcquireError where
  | clientClosedError (message : String)
  | typeError (message : String)
  deriving DecidableEq

namespace Manager

/-- `new ManagedSubscriptionManager(client)`. -/
def create : Manager where
  client := .create
  entries := .empty
  nextHolderId := 1
  closed := false
  heap := []
  leases := []

/-- Whether the entry is the current one of its URI. -/
def current (m : Manager) (e : ℕ) (entry : Entry) : Bool := m.entries.get? entry.uri = some e

/-- Write to an entry. -/
def update (m : Manager) (e : ℕ) (f : Entry → Entry) : Manager := { m with heap := m.heap.modify e f }

/-- `createLease`. -/
def createLease (m : Manager) (e : ℕ) (owner : String) : Manager :=
  let holderId := m.nextHolderId
  { m.update e fun entry => { entry with holders := entry.holders ++ [(holderId, owner)] } with
    nextHolderId := holderId + 1
    leases := m.leases ++ [⟨holderId, e, false⟩] }

/-- `start`, up to the answer of `subscribe`. -/
def start (m : Manager) (e : ℕ) (uri : URI) (options : SubscribeOptions) : Manager :=
  let (client, subscription) := m.client.subscribe uri options
  { m.update e fun entry => { entry with activity := .starting subscription } with client := client }

/-- `acquire`. The lease is the last of `leases` after it. -/
def acquire (m : Manager) (uri : URI) (owner : String) (options : SubscribeOptions) :
    Except AcquireError Manager :=
  if m.closed then .error (.clientClosedError "managed subscription manager closed")
  else
    let optionsKey := subscriptionOptionsKey options
    match m.entries.get? uri with
    | some e =>
      match m.heap[e]? with
      | none => .ok m
      | some entry =>
        if entry.optionsKey ≠ optionsKey then
          .error (.typeError s!"subscription options for \"{uri}\" differ from the active subscription")
        else
          let m := m.createLease e owner
          .ok (if entry.holders.length + 1 = 1 then m.start e uri options else m)
    | none =>
      let e := m.heap.length
      let m := { m with entries := m.entries.set uri e, heap := m.heap ++ [Entry.create uri optionsKey] }
      .ok ((m.createLease e owner).start e uri options)

/-- `disposeEntry`: the entry is closed, its URI unsubscribed and its source detached. -/
def disposeEntry (m : Manager) (e : ℕ) (uri : URI) (message : String) : Manager :=
  { m.update e fun entry =>
      { entry with
        subscription := entry.subscription.close message
        eventsClosed := true
        source := entry.source.map fun source => { source with detached := true } } with
    client := m.client.unsubscribe uri }

/-- The `Symbol.dispose` of the lease `l`. -/
def dispose (m : Manager) (l : ℕ) : Option Manager :=
  m.leases[l]?.map fun lease =>
    if lease.released then m
    else
      let m := { m with leases := m.leases.set l { lease with released := true } }
      match m.heap[lease.entry]? with
      | none => m
      | some entry =>
        let m := m.update lease.entry fun entry => { entry with holders := entry.without lease.holderId }
        if entry.without lease.holderId = [] ∧ m.current lease.entry entry then
          { m with entries := m.entries.delete entry.uri }.disposeEntry lease.entry entry.uri
            "managed subscription released before ready"
        else m

/-- The loop of `close` over the entries that it took out of the map. -/
def disposeEntries (m : Manager) (taken : List (URI × ℕ)) : Manager :=
  taken.foldl (fun m e => m.disposeEntry e.2 e.1 "managed subscription manager closed") m

/-- `close`. -/
def close (m : Manager) : Manager :=
  if m.closed then m
  else { m with closed := true, entries := .empty }.disposeEntries m.entries.entries

/-- `start`, after `subscribe` resolved. -/
def subscribed (m : Manager) (e : ℕ) (result : Json) : Option Manager :=
  match m.heap[e]? with
  | none => none
  | some entry =>
    match entry.activity with
    | .starting (some subscription) =>
      some (if !m.current e entry || entry.holders = [] then
        m.update e fun entry => { entry with activity := .finished }
      else
        m.update e fun entry =>
          { entry with
            source := some subscription
            subscription := entry.subscription.activate result
            activity := .pumping })
    | _ => none

/-- The `catch` of `start`, after `subscribe` rejected. -/
def rejected (m : Manager) (e : ℕ) (error : AhpClientError) : Option Manager :=
  match m.heap[e]? with
  | none => none
  | some entry =>
    match entry.activity with
    | .starting _ =>
      let m := m.update e fun entry => { entry with activity := .finished }
      some (if !m.current e entry then m
      else
        let m := { m with entries := m.entries.delete entry.uri }.update e fun entry =>
          { entry with subscription := entry.subscription.fail error, eventsClosed := true }
        { m with client := m.client.unsubscribe entry.uri })
    | _ => none

/-- Whether the iteration of a source can end: its queue is closed, or it was detached. -/
def ended (m : Manager) (source : Subscription) : Bool :=
  source.detached || m.client.queues[source.queue]?.any fun queue => queue.closed

/-- The `finally` of `pump`, after its source ended. -/
def pumpEnds (m : Manager) (e : ℕ) : Option Manager :=
  match m.heap[e]? with
  | none => none
  | some entry =>
    match entry.activity, entry.source with
    | .pumping, some source =>
      if m.ended source then
        let m := m.update e fun entry => { entry with activity := .finished }
        some (if !m.current e entry then m
        else
          { m with entries := m.entries.delete entry.uri }.update e fun entry =>
            { entry with
              subscription := entry.subscription.close "managed subscription event stream closed"
              eventsClosed := true })
      else none
    | _, _ => none

end Manager

/-! ### Steps -/

/-- What happens next. -/
inductive Action where
  | acquire (uri : URI) (owner : String) (options : SubscribeOptions)
  | dispose (lease : ℕ)
  | close
  /-- The `subscribe` of the entry resolves. -/
  | subscribed (entry : ℕ) (result : Json)
  /-- The `subscribe` of the entry rejects. -/
  | rejected (entry : ℕ) (error : AhpClientError)
  | pumpEnds (entry : ℕ)
  /-- The client is shut down, or its transport closes or fails. -/
  | connectionCloses
  /-- The transport will take `left` more messages. -/
  | transportFails (left : ℕ)
  deriving DecidableEq

/-- One action; `none` if it cannot happen. An `acquire` that throws changes nothing. -/
def step (m : Manager) : Action → Option Manager
  | .acquire uri owner options =>
    match m.acquire uri owner options with
    | .ok m => some m
    | .error _ => some m
  | .dispose lease => m.dispose lease
  | .close => some m.close
  | .subscribed entry result => m.subscribed entry result
  | .rejected entry error => m.rejected entry error
  | .pumpEnds entry => m.pumpEnds entry
  | .connectionCloses => some { m with client := m.client.tearDown }
  | .transportFails left => some { m with client := { m.client with transport := some left } }

end AgentHostProtocol.Client.ManagedSubscriptions
