import AgentHostProtocol.Library.Runs
import AgentHostProtocol.Wire.Values

/-!
# The TypeScript host supervisor

`HostRuntime` with the `AhpClient` it drives and the host at the other end of the wire, as
far as subscriptions go. The source is single-threaded and interleaves at its awaits; a
step here is what runs between two of them: a call to `subscribe` or `unsubscribe` up to its
first await, the continuation of a `subscribe` whose response came in, a phase of
`connectOnce`, the loss of a connection. The host handles the messages of a connection in
order and answers as it likes; it subscribes a channel on a connection only if asked to on
that connection.
-/

namespace AgentHostProtocol.Hosts

/-! ### Messages -/

/-- The result of `reconnect`. -/
inductive ReconnectResult where
  /-- Channels that could not be resumed are `missing`. -/
  | replay (missing : List URI)
  /-- The resources of the snapshots. -/
  | snapshot (resources : List URI)
  deriving DecidableEq

/-- A message to the host. -/
inductive Request where
  | reconnect (subscriptions : List URI)
  | initializing (initialSubscriptions : List URI)
  | subscribe (uri : URI) (call : ℕ)
  | unsubscribe (uri : URI)
  deriving DecidableEq

/-- The channels that a message asks for. -/
def Request.channels : Request → List URI
  | .reconnect subscriptions => subscriptions
  | .initializing initialSubscriptions => initialSubscriptions
  | .subscribe uri _ => [uri]
  | .unsubscribe _ => []

/-- A message from the host. -/
inductive Response where
  | reconnected (result : ReconnectResult)
  | initialized
  | handshakeRefused
  | subscribed (call : ℕ)
  | subscribeRefused (call : ℕ)
  deriving DecidableEq

/-! ### State -/

/-- Where `connectOnce` and the connection it makes are. `prior` is the copy of the
subscriptions that its handshake asks for. -/
inductive Connection where
  /-- No transport. -/
  | absent
  /-- `reconnect` is in flight. -/
  | reconnecting (prior : List URI)
  /-- `initialize` is in flight. -/
  | initializing (prior : List URI)
  /-- The handshake is answered, `listSessions` is in flight. -/
  | refreshing (prior : List URI) (reconnectResult : Option ReconnectResult)
  /-- `shared.currentClient` is the client of the connection. -/
  | connected
  /-- `shared.currentClient` is a client whose transport is gone. -/
  | closed
  deriving DecidableEq

/-- The subscriptions that a handshake under way asks for. -/
def Connection.prior? : Connection → Option (List URI)
  | .reconnecting prior | .initializing prior | .refreshing prior _ => some prior
  | .absent | .connected | .closed => none

/-- A call of `subscribe` that awaits its response, or has it and did not yet go on. -/
structure Call where
  id : ℕ
  uri : URI
  answered : Bool
  deriving DecidableEq

/-- A host supervisor with its connection. -/
structure HostRuntime where
  /-- `shared.shutdownReason !== null`. -/
  shutDown : Bool
  /-- `shared.subscriptions`. -/
  subscriptions : List URI
  connection : Connection
  /-- The calls of `subscribe` in flight. -/
  calls : List Call
  nextCall : ℕ
  /-- Messages on their way to the host. -/
  outbound : List Request
  /-- Messages on their way to the client. -/
  inbound : List Response
  /-- What the host holds for the connection. -/
  held : List URI
  deriving DecidableEq

/-- `makeInitialShared`. -/
def HostRuntime.new (initialSubscriptions : List URI) : HostRuntime where
  shutDown := false
  subscriptions := initialSubscriptions
  connection := .absent
  calls := []
  nextCall := 0
  outbound := []
  inbound := []
  held := []

/-! ### Subscriptions -/

/-- `trackSubscription`. -/
def trackSubscription (subscriptions : List URI) (uri : URI) : List URI :=
  if uri ∈ subscriptions then subscriptions else subscriptions ++ [uri]

/-- `untrackSubscription`. -/
def untrackSubscription (subscriptions : List URI) (uri : URI) : List URI :=
  subscriptions.filter fun u => u ≠ uri

/-- `HostRuntime.subscribe` up to its first await. On a client that is closed the request
is rejected at once. -/
def subscribe (s : HostRuntime) (uri : URI) : HostRuntime :=
  if s.shutDown then s
  else
    match s.connection with
    | .connected =>
      { s with
        calls := s.calls ++ [⟨s.nextCall, uri, false⟩]
        nextCall := s.nextCall + 1
        outbound := s.outbound ++ [.subscribe uri s.nextCall] }
    | .closed => s
    | _ => { s with subscriptions := trackSubscription s.subscriptions uri }

/-- The rest of `HostRuntime.subscribe` once the response is in. -/
def finishSubscribe (s : HostRuntime) (call : Call) : HostRuntime :=
  { s with
    subscriptions := trackSubscription s.subscriptions call.uri
    calls := s.calls.filter fun c => c.id ≠ call.id }

/-- `HostRuntime.unsubscribe`. -/
def unsubscribe (s : HostRuntime) (uri : URI) : HostRuntime :=
  let next : HostRuntime := { s with subscriptions := untrackSubscription s.subscriptions uri }
  if s.shutDown then next
  else
    match s.connection with
    | .connected => { next with outbound := s.outbound ++ [.unsubscribe uri] }
    | _ => next

/-! ### Connections -/

/-- The subscriptions kept when a handshake is committed. -/
def retained (prior subscriptions : List URI) : Option ReconnectResult → List URI
  | none => subscriptions
  | some (.replay missing) =>
    if missing.isEmpty then subscriptions else subscriptions.filter fun u => u ∉ missing
  | some (.snapshot resources) => subscriptions.filter fun u => u ∈ resources ∨ u ∉ prior

/-- The transport is gone: what is on the wire is lost, what the host held is dropped, and
the requests without a response are rejected. -/
def dropTransport (s : HostRuntime) (connection : Connection) : HostRuntime :=
  { s with
    connection := connection
    calls := s.calls.filter fun c => c.answered
    outbound := []
    inbound := []
    held := [] }

/-- `connectOnce` up to its handshake, which is a `reconnect` if the supervisor has seen a
`serverSeq` and has subscriptions. -/
def connectOnce (s : HostRuntime) (seen : Bool) : Option HostRuntime :=
  match s.connection with
  | .absent =>
    if s.shutDown then none
    else
      let prior := s.subscriptions
      let next : HostRuntime := { s with inbound := [], held := [] }
      if seen ∧ prior ≠ [] then
        some { next with connection := .reconnecting prior, outbound := [.reconnect prior] }
      else some { next with connection := .initializing prior, outbound := [.initializing prior] }
  | _ => none

/-- The end of `connectOnce`: shared state is committed. -/
def commit (s : HostRuntime) : Option HostRuntime :=
  match s.connection with
  | .refreshing prior reconnectResult =>
    some
      { s with
        subscriptions := retained prior s.subscriptions reconnectResult
        connection := .connected }
  | _ => none

/-- `connectOnce` fails or is aborted. -/
def abortConnect (s : HostRuntime) : Option HostRuntime :=
  match s.connection with
  | .reconnecting _ | .initializing _ | .refreshing _ _ => some (dropTransport s .absent)
  | _ => none

/-- The transport of the current client closes. -/
def loseConnection (s : HostRuntime) : Option HostRuntime :=
  match s.connection with
  | .connected => some (dropTransport s .closed)
  | _ => none

/-- `tearDownClient`. -/
def tearDownClient (s : HostRuntime) : Option HostRuntime :=
  match s.connection with
  | .connected | .closed => some (dropTransport s .absent)
  | _ => none

/-! ### The wire -/

/-- The client handles the next message from the host. -/
def receive (s : HostRuntime) : Option HostRuntime :=
  match s.inbound with
  | [] => none
  | message :: inbound =>
    let s : HostRuntime := { s with inbound := inbound }
    match message with
    | .reconnected result =>
      match s.connection with
      | .reconnecting prior => some { s with connection := .refreshing prior (some result) }
      | _ => some s
    | .initialized =>
      match s.connection with
      | .initializing prior => some { s with connection := .refreshing prior none }
      | _ => some s
    | .handshakeRefused =>
      match s.connection with
      -- the host refused to reconnect: fall back to `initialize`
      | .reconnecting prior =>
        some { s with connection := .initializing prior, outbound := s.outbound ++ [.initializing prior] }
      | .initializing _ => some (dropTransport s .absent)
      | _ => some s
    | .subscribed call =>
      some { s with calls := s.calls.map fun c => if c.id = call then { c with answered := true } else c }
    | .subscribeRefused call => some { s with calls := s.calls.filter fun c => c.id ≠ call }

/-- What the host makes of the next message. -/
inductive Answer where
  | refuse
  /-- It resumes `taken`, with this result. -/
  | reconnect (taken : List URI) (result : ReconnectResult)
  /-- It subscribes `taken`. -/
  | initializing (taken : List URI)
  | accept
  deriving DecidableEq

/-- The host handles the next message from the client. -/
def serve (s : HostRuntime) (answer : Answer) : Option HostRuntime :=
  match s.outbound with
  | [] => none
  | message :: outbound =>
    let s : HostRuntime := { s with outbound := outbound }
    match message, answer with
    | .reconnect subscriptions, .reconnect taken result =>
      if taken.all fun u => u ∈ subscriptions then
        some { s with held := taken, inbound := s.inbound ++ [.reconnected result] }
      else none
    | .initializing subscriptions, .initializing taken =>
      if taken.all fun u => u ∈ subscriptions then
        some { s with held := taken, inbound := s.inbound ++ [.initialized] }
      else none
    | .reconnect _, .refuse | .initializing _, .refuse =>
      some { s with inbound := s.inbound ++ [.handshakeRefused] }
    | .subscribe uri call, .accept =>
      some { s with held := trackSubscription s.held uri, inbound := s.inbound ++ [.subscribed call] }
    | .subscribe _ call, .refuse =>
      some { s with inbound := s.inbound ++ [.subscribeRefused call] }
    | .unsubscribe uri, .accept => some { s with held := untrackSubscription s.held uri }
    | _, _ => none

/-! ### Steps -/

/-- One step of the supervisor, of its callers or of its surroundings. -/
inductive Step where
  | subscribe (uri : URI)
  | unsubscribe (uri : URI)
  /-- The call goes on after its response. -/
  | finishSubscribe (call : ℕ)
  /-- The request of the call times out. -/
  | timeOut (call : ℕ)
  | shutDown
  | connectOnce (seen : Bool)
  | commit
  | abortConnect
  | loseConnection
  | tearDownClient
  | receive
  | serve (answer : Answer)
  deriving DecidableEq

/-- The supervisor after a step, `none` if the step cannot happen now. -/
def step (s : HostRuntime) : Step → Option HostRuntime
  | .subscribe uri => some (subscribe s uri)
  | .unsubscribe uri => some (unsubscribe s uri)
  | .finishSubscribe id =>
    (s.calls.find? fun c => c.id = id && c.answered).map fun call => finishSubscribe s call
  | .timeOut id => some { s with calls := s.calls.filter fun c => c.id ≠ id || c.answered }
  | .shutDown => some { s with shutDown := true }
  | .connectOnce seen => connectOnce s seen
  | .commit => commit s
  | .abortConnect => abortConnect s
  | .loseConnection => loseConnection s
  | .tearDownClient => tearDownClient s
  | .receive => receive s
  | .serve answer => serve s answer

/-! ### What a step can do -/

variable {s s' : HostRuntime}

/-- A message from the host moves a handshake on, fails it, lets `reconnect` fall back to
`initialize`, or settles a call. -/
theorem receive_cases (h : receive s = some s') : ∃ message inbound, s.inbound = message :: inbound ∧
    ((∃ connection, connection.prior? = s.connection.prior? ∧
        (connection = .absent ↔ s.connection = .absent) ∧
        (message = .handshakeRefused → ∀ prior, s.connection ≠ .reconnecting prior) ∧
        s' = { s with inbound := inbound, connection := connection }) ∨
      (∃ prior, message = .handshakeRefused ∧ s.connection = .reconnecting prior ∧
        s' = { s with
          inbound := inbound
          connection := .initializing prior
          outbound := s.outbound ++ [.initializing prior] }) ∨
      (∃ prior, s.connection = .initializing prior ∧
        s' = dropTransport { s with inbound := inbound } .absent) ∨
      (∃ calls, message ≠ .handshakeRefused ∧
        (∀ call ∈ calls, ∃ old ∈ s.calls, old.id = call.id ∧ old.uri = call.uri) ∧
        s' = { s with inbound := inbound, calls := calls })) := by
  unfold receive at h
  cases hin : s.inbound with
  | nil =>
    rw [hin] at h
    cases h
  | cons message inbound =>
    refine ⟨message, inbound, rfl, ?_⟩
    rw [hin] at h
    cases message with
    | reconnected result =>
      left
      cases hc : s.connection with
      | reconnecting prior =>
        simp only [hc] at h
        cases h
        exact ⟨.refreshing prior (some result), rfl, by simp, nofun, rfl⟩
      | absent | initializing prior | refreshing prior result | connected | closed =>
        simp only [hc] at h
        cases h
        exact ⟨_, rfl, Iff.rfl, nofun, rfl⟩
    | initialized =>
      left
      cases hc : s.connection with
      | initializing prior =>
        simp only [hc] at h
        cases h
        exact ⟨.refreshing prior none, rfl, by simp, nofun, rfl⟩
      | absent | reconnecting prior | refreshing prior result | connected | closed =>
        simp only [hc] at h
        cases h
        exact ⟨_, rfl, Iff.rfl, nofun, rfl⟩
    | handshakeRefused =>
      cases hc : s.connection with
      | reconnecting prior =>
        simp only [hc] at h
        cases h
        exact .inr (.inl ⟨prior, rfl, rfl, rfl⟩)
      | initializing prior =>
        simp only [hc] at h
        cases h
        exact .inr (.inr (.inl ⟨prior, rfl, rfl⟩))
      | absent | refreshing prior result | connected | closed =>
        simp only [hc] at h
        cases h
        exact .inl ⟨_, rfl, Iff.rfl, nofun, rfl⟩
    | subscribed id =>
      cases h
      refine .inr (.inr (.inr ⟨_, nofun, fun call hcall => ?_, rfl⟩))
      obtain ⟨old, hold, rfl⟩ := List.mem_map.mp hcall
      refine ⟨old, hold, ?_⟩
      split <;> exact ⟨rfl, rfl⟩
    | subscribeRefused id =>
      cases h
      refine .inr (.inr (.inr ⟨_, nofun, fun call hcall => ?_, rfl⟩))
      exact ⟨call, List.mem_of_mem_filter hcall, rfl, rfl⟩

/-- The host takes a message off the wire, changes what it holds to channels it held or the
message asks for, and may answer. -/
theorem serve_cases {answer : Answer} (h : serve s answer = some s') :
    ∃ message outbound held inbound, s.outbound = message :: outbound ∧
      (∀ uri ∈ held, uri ∈ s.held ∨ uri ∈ message.channels) ∧
      s' = { s with outbound := outbound, held := held, inbound := inbound } := by
  unfold serve at h
  cases hout : s.outbound with
  | nil =>
    rw [hout] at h
    cases h
  | cons message outbound =>
    rw [hout] at h
    have hheld : ∀ uri ∈ s.held, uri ∈ s.held ∨ uri ∈ message.channels := fun _ => .inl
    have hall : ∀ {taken subscriptions : List URI},
        (taken.all fun u => u ∈ subscriptions) = true → ∀ uri ∈ taken, uri ∈ s.held ∨ uri ∈ subscriptions :=
      fun hall uri hu => .inr (of_decide_eq_true (List.all_eq_true.mp hall uri hu))
    dsimp only at h
    split at h
    · split at h <;> cases h
      exact ⟨_, outbound, _, _, rfl, hall ‹_›, rfl⟩
    · split at h <;> cases h
      exact ⟨_, outbound, _, _, rfl, hall ‹_›, rfl⟩
    · cases h
      exact ⟨_, outbound, _, _, rfl, hheld, rfl⟩
    · cases h
      exact ⟨_, outbound, _, _, rfl, hheld, rfl⟩
    · next uri call =>
      cases h
      refine ⟨_, outbound, _, _, rfl, fun u hu => ?_, rfl⟩
      unfold trackSubscription at hu
      split at hu
      · exact .inl hu
      · rcases List.mem_append.mp hu with hu | hu
        · exact .inl hu
        · exact .inr hu
    · cases h
      exact ⟨_, outbound, _, _, rfl, hheld, rfl⟩
    · cases h
      exact ⟨_, outbound, _, _, rfl, fun u hu => .inl (List.mem_of_mem_filter hu), rfl⟩
    · cases h

/-- A handshake is started on the subscriptions. -/
theorem connectOnce_cases {seen : Bool} (h : connectOnce s seen = some s') :
    s.connection = .absent ∧ s'.connection.prior? = some s.subscriptions ∧
      s' = { s with inbound := [], held := [], connection := s'.connection, outbound := s'.outbound } ∧
      s'.outbound =
        [if seen ∧ s.subscriptions ≠ [] then .reconnect s.subscriptions else .initializing s.subscriptions] := by
  unfold connectOnce at h
  split at h
  · next hc =>
    split at h
    · cases h
    · dsimp only at h
      split at h
      all_goals
        next hseen =>
        cases h
        exact ⟨hc, rfl, rfl, by simp [hseen]⟩
  · cases h

/-- The connection is given up, or lost. -/
theorem lost_cases {a : Step} (ha : a = .abortConnect ∨ a = .loseConnection ∨ a = .tearDownClient)
    (h : step s a = some s') : s.connection ≠ .absent ∧
      ((s' = dropTransport s .absent) ∨ s.connection = .connected ∧ s' = dropTransport s .closed) := by
  rcases ha with rfl | rfl | rfl <;>
  · simp only [step, abortConnect, loseConnection, tearDownClient] at h
    split at h <;> cases h
    all_goals
      next hc =>
      simp [hc]

end AgentHostProtocol.Hosts
