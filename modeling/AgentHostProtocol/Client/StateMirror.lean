import AgentHostProtocol.Channels.Reducers
import AgentHostProtocol.Library.Register

/-!
# The state mirror

`AhpStateMirror` keeps what snapshots and action envelopes say of the resources of one host. Both
are routed by the prefix of a URI, and what a snapshot carries is cast to the type of the map it
is routed to. A map can hold a state of another kind than its own, so its values are a union:
a state of the protocol, or a value `J` that is none and that a reducer made of such a state.
What JavaScript makes of a reducer that is given a state of another kind is the parameter `Casts`.

* `route` — where a URI leads.
* `ResourceMaps` — the maps of sessions, canvases, terminals, changesets and automation runs,
  which both mirrors have.
* `AhpStateMirror` — the mirror. Its methods return what they throw beside the mirror.
-/

namespace AgentHostProtocol.Client

open Library Channels

/-- `s.startsWith(p)`. -/
def startsWith (s p : String) : Bool := p.toList.isPrefixOf s.toList

/-- `ROOT_URI`, `ROOT_RESOURCE_URI`. -/
def rootUri : URI := "ahp-root://"

/-- `AUTOMATIONS_URI`. -/
def automationsUri : URI := "ahp-automations://"

/-- `Snapshot['state']`. -/
inductive SnapshotState where
  | root (state : RootState)
  | session (state : SessionState Empty)
  | terminal (state : TerminalState Empty)
  | changeset (state : ChangesetState Empty)
  | resourceWatch (state : ResourceWatchState)
  | annotations (state : AnnotationsState)
  | chat (state : ChatState Empty)
  | canvas (state : CanvasState)
  | automations (state : AutomationState)
  | automationRun (state : AutomationRunState)
  | empty

/-- `Snapshot`. -/
structure Snapshot where
  resource : URI
  state : SnapshotState

/-- `ActionEnvelope`. -/
structure ActionEnvelope where
  channel : URI
  action : StateAction

/-! ### Resources -/

/-- The kinds of resource that have a map. -/
inductive ResourceKind where
  | session
  | canvas
  | terminal
  | changeset
  | automationRun
  deriving DecidableEq

/-- The state of a resource of the kind. -/
abbrev ResourceKind.State : ResourceKind → Type
  | .session => SessionState Empty
  | .canvas => CanvasState
  | .terminal => TerminalState Empty
  | .changeset => ChangesetState Empty
  | .automationRun => AutomationRunState

/-- The reducer of the kind: an action of another channel is an unknown one. -/
def ResourceKind.reduce : (r : ResourceKind) → r.State → StateAction → r.State
  | .session, state, .session a => Session.sessionReducer state a
  | .canvas, state, .canvas a => canvasReducer state a
  | .terminal, state, .terminal a => terminalReducer state a
  | .changeset, state, .changeset a => changesetReducer state a
  | .automationRun, state, .automationRun a => automationRunReducer state a
  | _, state, _ => state

/-- The state of a resource as the state of a snapshot. -/
def ResourceKind.toSnapshotState : (r : ResourceKind) → r.State → SnapshotState
  | .session, state => .session state
  | .canvas, state => .canvas state
  | .terminal, state => .terminal state
  | .changeset, state => .changeset state
  | .automationRun, state => .automationRun state

/-- The state, if it is of the kind. -/
def SnapshotState.as? : (r : ResourceKind) → SnapshotState → Option r.State
  | .session, .session state => some state
  | .canvas, .canvas state => some state
  | .terminal, .terminal state => some state
  | .changeset, .changeset state => some state
  | .automationRun, .automationRun state => some state
  | _, _ => none

/-- `isCanvasState`: no other state has an `instanceId`. -/
def isCanvasState : SnapshotState → Bool
  | .canvas _ => true
  | _ => false

/-- `state.entries`, which no other state has. -/
def SnapshotState.entries? : SnapshotState → Option (List AutomationEntry)
  | .automations state => some state.entries
  | _ => none

/-- Where a URI leads. -/
inductive Route where
  | root
  | automations
  | resource (r : ResourceKind)
  deriving DecidableEq

/-- The tests of `applySnapshot` and `apply`, in their order. -/
def route (uri : URI) : Option Route :=
  if uri = rootUri then some .root
  else if startsWith uri "ahp-session:" then some (.resource .session)
  else if startsWith uri "ahp-canvas:" then some (.resource .canvas)
  else if startsWith uri "ahp-terminal:" then some (.resource .terminal)
  else if startsWith uri "ahp-changeset:" then some (.resource .changeset)
  else if uri = automationsUri then some .automations
  else if startsWith uri "ahp-automation-run:" then some (.resource .automationRun)
  else none

/-! ### Casts -/

/-- What a call throws. -/
inductive Thrown where
  /-- `new Error(message)`. -/
  | error (message : String)
  /-- A `TypeError` of the language. -/
  | typeError
  deriving DecidableEq

/-- What a map holds. -/
inductive Stored (J : Type) where
  /-- A state of the protocol. -/
  | state (s : SnapshotState)
  /-- A value that is none. -/
  | other (v : J)

/-- The reducers on values of another kind than their own. -/
structure Casts (J : Type) where
  root : Stored J → StateAction → Except Thrown (Stored J)
  resource : ResourceKind → Stored J → StateAction → Except Thrown (Stored J)

section

variable {J : Type}

/-- `rootReducer` on what is kept of the root. -/
def reduceRoot (casts : Casts J) : Stored J → StateAction → Except Thrown (Stored J)
  | .state (.root state), .root a => .ok (.state (.root (rootReducer state a)))
  | .state (.root state), _ => .ok (.state (.root state))
  | v, a => casts.root v a

/-- The reducer of the kind on what is kept of a resource. -/
def reduceResource (casts : Casts J) (r : ResourceKind) (v : Stored J) (a : StateAction) :
    Except Thrown (Stored J) :=
  match v with
  | .state s =>
    match s.as? r with
    | some state => .ok (.state (r.toSnapshotState (r.reduce state a)))
    | none => casts.resource r v a
  | .other _ => casts.resource r v a

/-- `automationReducer` on what is kept of the catalogue. It looks for `entries` only to set or
remove an automation. -/
def reduceCatalog : SnapshotState → StateAction → Except Thrown SnapshotState
  | .automations state, .automation a => .ok (.automations (automationReducer state a))
  | .automations state, _ => .ok (.automations state)
  | _, .automation (.set _) | _, .automation (.removed _) => .error .typeError
  | s, _ => .ok s

/-! ### The maps -/

/-- `sessionsMap`, `canvasesMap`, `terminalsMap`, `changesetsMap` and `automationRunsMap`. -/
abbrev ResourceMaps (J : Type) := ResourceKind → Record (Stored J)

namespace ResourceMaps

/-- `new Map()` for each kind. -/
def new : ResourceMaps J := fun _ => Record.empty

/-- `map.set(key, v)` on the map of the kind. -/
def set (maps : ResourceMaps J) (r : ResourceKind) (key : String) (v : Stored J) :
    ResourceMaps J :=
  fun r' => if r' = r then (maps r').set key v else maps r'

/-- The branches of `applySnapshot` for the maps. -/
def applySnapshot (maps : ResourceMaps J) (r : ResourceKind) (key : String)
    (state : SnapshotState) : Option Thrown × ResourceMaps J :=
  if r = .canvas ∧ ¬ isCanvasState state then (some (.error "Invalid canvas snapshot state"), maps)
  else (none, maps.set r key (.state state))

/-- Whether `action.type` is `ActionType.CanvasStateChanged`. -/
def isCanvasStateChanged : StateAction → Bool
  | .canvas (.stateChanged _) => true
  | _ => false

/-- The branches of `apply` for the maps. -/
def apply (casts : Casts J) (maps : ResourceMaps J) (r : ResourceKind) (key : String)
    (action : StateAction) : Option Thrown × ResourceMaps J :=
  match (maps r).get? key with
  | none => (none, maps)
  | some current =>
    if r = .canvas ∧ ¬ isCanvasStateChanged action then (none, maps)
    else
      match reduceResource casts r current action with
      | .error thrown => (some thrown, maps)
      | .ok next => (none, maps.set r key next)

end ResourceMaps

/-! ### The mirror -/

/-- `INITIAL_ROOT`. -/
def initialRoot : RootState where
  agents := []
  activeSessions := none
  terminals := none
  config := none
  _meta := none

/-- `INITIAL_AUTOMATION_CATALOG`. -/
def initialAutomationCatalog : AutomationState := ⟨[], none⟩

/-- `AhpStateMirror`. -/
structure AhpStateMirror (J : Type) where
  rootState : Stored J
  maps : ResourceMaps J
  automationCatalogState : SnapshotState
  automationsMap : Record AutomationEntry

namespace AhpStateMirror

/-- `new AhpStateMirror()`. -/
def new : AhpStateMirror J where
  rootState := .state (.root initialRoot)
  maps := ResourceMaps.new
  automationCatalogState := .automations initialAutomationCatalog
  automationsMap := Record.empty

/-- `setAutomationCatalog`: a state without `entries` cannot be iterated over. -/
def setAutomationCatalog (m : AhpStateMirror J) (state : SnapshotState) :
    Option Thrown × AhpStateMirror J :=
  let m := { m with automationCatalogState := state, automationsMap := Record.empty }
  match state.entries? with
  | none => (some .typeError, m)
  | some entries =>
    (none, { m with automationsMap := entries.foldl (fun map a => map.set a.resource a) m.automationsMap })

/-- `applySnapshot`. -/
def applySnapshot (m : AhpStateMirror J) (snapshot : Snapshot) : Option Thrown × AhpStateMirror J :=
  match route snapshot.resource with
  | some .root => (none, { m with rootState := .state snapshot.state })
  | some .automations => m.setAutomationCatalog snapshot.state
  | some (.resource r) =>
    let (thrown, maps) := m.maps.applySnapshot r snapshot.resource snapshot.state
    (thrown, { m with maps := maps })
  | none => (none, m)

/-- `apply`. -/
def apply (casts : Casts J) (m : AhpStateMirror J) (envelope : ActionEnvelope) :
    Option Thrown × AhpStateMirror J :=
  match route envelope.channel with
  | some .root =>
    match reduceRoot casts m.rootState envelope.action with
    | .error thrown => (some thrown, m)
    | .ok root => (none, { m with rootState := root })
  | some .automations =>
    match reduceCatalog m.automationCatalogState envelope.action with
    | .error thrown => (some thrown, m)
    | .ok state => m.setAutomationCatalog state
  | some (.resource r) =>
    let (thrown, maps) := m.maps.apply casts r envelope.channel envelope.action
    (thrown, { m with maps := maps })
  | none => (none, m)

/-- The calls that change a mirror. -/
inductive Input where
  | snapshot (snapshot : Snapshot)
  | envelope (envelope : ActionEnvelope)

/-- The mirror after a call, returned from or not. -/
def step (casts : Casts J) (m : AhpStateMirror J) : Input → AhpStateMirror J
  | .snapshot snapshot => (m.applySnapshot snapshot).2
  | .envelope envelope => (m.apply casts envelope).2

/-- A new mirror after a list of calls. -/
def run (casts : Casts J) (inputs : List Input) : AhpStateMirror J := inputs.foldl (step casts) new

end AhpStateMirror

end

end AgentHostProtocol.Client
