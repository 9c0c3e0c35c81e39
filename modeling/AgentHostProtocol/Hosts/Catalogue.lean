import AgentHostProtocol.Library.Runs
import AgentHostProtocol.Wire.Session

/-!
# The session catalogue

`connectOnce`, `runConnection` and `handleEvent` as far as session summaries go, in the
TypeScript and in the Rust runtime, with the host at the other end of the wire. The two runtimes
take the same steps and differ in the fields that they copy from a change
(`applySummaryChange`, `applySummaryChanges`). The host sends a notification for every change of
its catalogue while a connection is up, and answers `listSessions` with the catalogue as it is
then; responses and notifications travel in one order.
-/

namespace AgentHostProtocol.Hosts.Catalogue

open Library

/-! ### Summaries -/

/-- `SessionSummary`. -/
structure SessionSummary where
  provider : String
  title : String
  status : SessionStatus
  activity : Option String
  origin : Option Json
  project : Option Json
  workingDirectories : Option (List URI)
  annotations : Option Json
  resource : URI
  createdAt : String
  modifiedAt : String
  changes : Option Json
  _meta : Option Meta
  chats : Option (List Json)
  defaultChat : Option URI
  deriving DecidableEq

/-- `Partial<SessionSummary>`. -/
structure PartialSessionSummary where
  provider : Option String
  title : Option String
  status : Option SessionStatus
  activity : Option String
  origin : Option Json
  project : Option Json
  workingDirectories : Option (List URI)
  annotations : Option Json
  resource : Option URI
  createdAt : Option String
  modifiedAt : Option String
  changes : Option Json
  _meta : Option Meta
  chats : Option (List Json)
  defaultChat : Option URI
  deriving DecidableEq

/-- A change of nothing. -/
def PartialSessionSummary.empty : PartialSessionSummary where
  provider := none
  title := none
  status := none
  activity := none
  origin := none
  project := none
  workingDirectories := none
  annotations := none
  resource := none
  createdAt := none
  modifiedAt := none
  changes := none
  _meta := none
  chats := none
  defaultChat := none

/-- The identity fields are omitted. -/
def PartialSessionSummary.Mutable (c : PartialSessionSummary) : Prop :=
  c.resource = none ∧ c.provider = none ∧ c.createdAt = none
  deriving Decidable

/-- What the host makes of a change: every mutable field that is present has a new value. -/
def change (existing : SessionSummary) (c : PartialSessionSummary) : SessionSummary :=
  { existing with
    title := c.title.getD existing.title
    status := c.status.getD existing.status
    activity := c.activity.or existing.activity
    origin := c.origin.or existing.origin
    project := c.project.or existing.project
    workingDirectories := c.workingDirectories.or existing.workingDirectories
    annotations := c.annotations.or existing.annotations
    modifiedAt := c.modifiedAt.getD existing.modifiedAt
    changes := c.changes.or existing.changes
    _meta := c._meta.or existing._meta
    chats := c.chats.or existing.chats
    defaultChat := c.defaultChat.or existing.defaultChat }

/-- The merge of TypeScript's `applySummaryChange`. -/
def applySummaryChange (existing : SessionSummary) (c : PartialSessionSummary) : SessionSummary :=
  { existing with
    title := c.title.getD existing.title
    status := c.status.getD existing.status
    activity := c.activity.or existing.activity
    origin := c.origin.or existing.origin
    modifiedAt := c.modifiedAt.getD existing.modifiedAt
    project := c.project.or existing.project
    workingDirectories := c.workingDirectories.or existing.workingDirectories
    _meta := c._meta.or existing._meta
    chats := c.chats.or existing.chats }

/-- Rust's `apply_summary_changes`. -/
def applySummaryChanges (existing : SessionSummary) (c : PartialSessionSummary) : SessionSummary :=
  { existing with
    provider := c.provider.getD existing.provider
    title := c.title.getD existing.title
    status := c.status.getD existing.status
    activity := c.activity.or existing.activity
    origin := c.origin.or existing.origin
    modifiedAt := c.modifiedAt.getD existing.modifiedAt
    createdAt := c.createdAt.getD existing.createdAt
    project := c.project.or existing.project
    workingDirectories := c.workingDirectories.or existing.workingDirectories
    annotations := c.annotations.or existing.annotations
    changes := c.changes.or existing.changes
    chats := c.chats.or existing.chats }

/-- The two runtimes. -/
inductive Runtime where
  | typeScript
  | rust
  deriving DecidableEq

/-- The merge of a runtime. -/
def Runtime.merge : Runtime → SessionSummary → PartialSessionSummary → SessionSummary
  | .typeScript => applySummaryChange
  | .rust => applySummaryChanges

/-- A change of fields that the runtime merges. -/
def Runtime.Merges : Runtime → PartialSessionSummary → Prop
  | .typeScript, c => c.annotations = none ∧ c.changes = none ∧ c.defaultChat = none
  | .rust, c => c._meta = none ∧ c.defaultChat = none

instance : ∀ (r : Runtime) (c : PartialSessionSummary), Decidable (r.Merges c)
  | .typeScript, _ => inferInstanceAs (Decidable (_ ∧ _ ∧ _))
  | .rust, _ => inferInstanceAs (Decidable (_ ∧ _))

/-! ### Messages -/

/-- A notification of the host. -/
inductive Notification where
  | sessionAdded (summary : SessionSummary)
  | sessionRemoved (session : URI)
  | sessionSummaryChanged (session : URI) (changes : PartialSessionSummary)
  /-- An action or `authRequired`: the cache has no part in it. -/
  | other
  deriving DecidableEq

/-- A request of `connectOnce`. -/
inductive Request where
  | reconnect
  | initializing
  | listSessions
  deriving DecidableEq

/-- A message from the host. -/
inductive Message where
  /-- The result of a handshake. -/
  | result
  /-- The refusal of a handshake. -/
  | refused
  /-- The result of `listSessions`. -/
  | sessions (items : List SessionSummary)
  | notification (n : Notification)
  deriving DecidableEq

/-! ### State -/

/-- Where `connectOnce` and the connection it makes are. -/
inductive Phase where
  | absent
  | reconnecting
  | initializing
  /-- `listSessions` is in flight. -/
  | refreshing
  /-- `listSessions` is settled, with its items if it was answered. -/
  | refreshed (summaries : Option (List SessionSummary))
  | connected
  deriving DecidableEq

/-- A supervisor, its host and the wire between them. -/
structure System where
  /-- The buffer limit of the client's event queue. -/
  bufferLimit : ℕ
  /-- The sessions of the host. -/
  catalogue : Record SessionSummary
  /-- The host sends its notifications on the connection. -/
  feeding : Bool
  request : Option Request
  inbound : List Message
  /-- The events the client has read and the supervisor has not. -/
  events : List Notification
  /-- The transport of the client is gone. -/
  closed : Bool
  phase : Phase
  /-- `shared.sessionSummaries`. -/
  sessionSummaries : Record SessionSummary
  deriving DecidableEq

/-- A host without sessions, and a supervisor that was not connected yet. -/
def System.new (bufferLimit : ℕ) : System where
  bufferLimit := bufferLimit
  catalogue := Record.empty
  feeding := false
  request := none
  inbound := []
  events := []
  closed := false
  phase := .absent
  sessionSummaries := Record.empty

/-! ### The client -/

/-- `connectOnce` up to its handshake. -/
def connectOnce (s : System) (canReconnect : Bool) : Option System :=
  match s.phase with
  | .absent =>
    some
      { s with
        feeding := false
        inbound := []
        events := []
        closed := false
        phase := if canReconnect then .reconnecting else .initializing
        request := some (if canReconnect then .reconnect else .initializing) }
  | _ => none

/-- The items of a listing, written into a cleared cache. -/
def refresh (items : List SessionSummary) : Record SessionSummary :=
  items.foldl (fun cache summary => cache.set summary.resource summary) Record.empty

/-- The end of `connectOnce`: a listing that failed leaves the cache as it is. -/
def commit (s : System) : Option System :=
  match s.phase with
  | .refreshed none => some { s with phase := .connected }
  | .refreshed (some items) => some { s with phase := .connected, sessionSummaries := refresh items }
  | _ => none

/-- The client is shut down, with what it has not handed on. -/
def dropClient (s : System) : System :=
  { s with phase := .absent, feeding := false, request := none, inbound := [], events := [] }

/-- `connectOnce` throws: it failed, or a manual reconnect aborted it. -/
def abortConnect (s : System) : Option System :=
  match s.phase with
  | .absent | .connected => none
  | _ => some (dropClient s)

/-- `listSessions` times out. -/
def loseListing (s : System) : Option System :=
  match s.phase with
  | .refreshing => some { s with phase := .refreshed none }
  | _ => none

/-- The transport closes: a handshake that awaits its answer fails and so does `listSessions`; the
events that were read are still handled. -/
def closeTransport (s : System) : System :=
  match s.phase with
  | .absent => s
  | .reconnecting | .initializing => dropClient s
  | .refreshing =>
    { s with feeding := false, request := none, inbound := [], closed := true, phase := .refreshed none }
  | .refreshed _ | .connected =>
    { s with feeding := false, request := none, inbound := [], closed := true }

/-- `handleEvent`, as far as the cache goes. -/
def handle (runtime : Runtime) (cache : Record SessionSummary) : Notification → Record SessionSummary
  | .sessionAdded summary => cache.set summary.resource summary
  | .sessionRemoved session => cache.delete session
  | .sessionSummaryChanged session changes =>
    match cache.get? session with
    | some existing => cache.set session (runtime.merge existing changes)
    | none => cache
  | .other => cache

/-- `handleEvent` on the next event. -/
def handleEvent (runtime : Runtime) (s : System) : Option System :=
  match s.phase, s.events with
  | .connected, n :: events =>
    some { s with events := events, sessionSummaries := handle runtime s.sessionSummaries n }
  | _, _ => none

/-- `runConnection` returns: the events ended, or there is a manual reconnect, at which events
that were not handled are dropped. -/
def endConnection (s : System) (manualReconnect : Bool) : Option System :=
  match s.phase with
  | .connected =>
    if manualReconnect ∨ s.closed ∧ s.events = [] then some (dropClient s) else none
  | _ => none

/-- A push to the event queue: the oldest entries go. -/
def pushBounded (limit : ℕ) (events : List Notification) (n : Notification) : List Notification :=
  (events ++ [n]).drop ((events ++ [n]).length - limit)

/-- The result of a handshake: `listSessions` is next. -/
def readResult (s : System) : System :=
  match s.phase with
  | .reconnecting | .initializing => { s with phase := .refreshing, request := some .listSessions }
  | _ => s

/-- The host refused to reconnect: fall back to `initialize`. -/
def readRefused (s : System) : System :=
  match s.phase with
  | .reconnecting => { s with phase := .initializing, request := some .initializing }
  | .initializing => dropClient s
  | _ => s

/-- The result of `listSessions`. -/
def readSessions (s : System) (items : List SessionSummary) : System :=
  match s.phase with
  | .refreshing => { s with phase := .refreshed (some items) }
  | _ => s

/-- What the client makes of a message. -/
def read (s : System) : Message → System
  | .result => readResult s
  | .refused => readRefused s
  | .sessions items => readSessions s items
  | .notification n => { s with events := pushBounded s.bufferLimit s.events n }

/-- The client reads the next message. -/
def receive (s : System) : Option System :=
  match s.inbound with
  | [] => none
  | message :: inbound => some (read { s with inbound := inbound } message)

/-! ### The host -/

/-- The host accepts a handshake or refuses it, and answers `listSessions` with its catalogue. -/
def answer (s : System) (accept : Bool) : Option System :=
  match s.request with
  | none => none
  | some .listSessions =>
    some
      { s with
        request := none
        inbound := s.inbound ++ [.sessions (s.catalogue.entries.map Prod.snd)] }
  | some _ =>
    if accept then
      some { s with request := none, feeding := true, inbound := s.inbound ++ [.result] }
    else
      some { s with request := none, inbound := s.inbound ++ [.refused] }

/-- The host sends a notification, if a connection is up. -/
def notify (s : System) (n : Notification) : System :=
  if s.feeding then { s with inbound := s.inbound ++ [.notification n] } else s

/-- A session is created. -/
def addSession (s : System) (summary : SessionSummary) : System :=
  notify { s with catalogue := s.catalogue.set summary.resource summary } (.sessionAdded summary)

/-- A session is disposed of. -/
def removeSession (s : System) (session : URI) : System :=
  notify { s with catalogue := s.catalogue.delete session } (.sessionRemoved session)

/-- Fields of a session's summary are set. -/
def changeSession (s : System) (session : URI) (changes : PartialSessionSummary) : Option System :=
  match s.catalogue.get? session with
  | some existing =>
    if changes.Mutable then
      some (notify { s with catalogue := s.catalogue.set session (change existing changes) }
        (.sessionSummaryChanged session changes))
    else none
  | none => none

/-! ### Steps -/

/-- One step of the supervisor, its client, the wire or the host. -/
inductive Step where
  | connectOnce (canReconnect : Bool)
  | commit
  | abortConnect
  | loseListing
  | closeTransport
  | handleEvent
  | endConnection (manualReconnect : Bool)
  | receive
  | answer (accept : Bool)
  | addSession (summary : SessionSummary)
  | removeSession (session : URI)
  | changeSession (session : URI) (changes : PartialSessionSummary)
  /-- The host sends what the cache has no part in. -/
  | emit
  deriving DecidableEq

/-- The system after a step, `none` if the step cannot happen now. -/
def step (runtime : Runtime) (s : System) : Step → Option System
  | .connectOnce canReconnect => connectOnce s canReconnect
  | .commit => commit s
  | .abortConnect => abortConnect s
  | .loseListing => loseListing s
  | .closeTransport => some (closeTransport s)
  | .handleEvent => handleEvent runtime s
  | .endConnection manualReconnect => endConnection s manualReconnect
  | .receive => receive s
  | .answer accept => answer s accept
  | .addSession summary => some (addSession s summary)
  | .removeSession session => some (removeSession s session)
  | .changeSession session changes => changeSession s session changes
  | .emit => some (notify s .other)

end AgentHostProtocol.Hosts.Catalogue
