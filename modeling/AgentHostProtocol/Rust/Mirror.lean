import AgentHostProtocol.Library.Register
import AgentHostProtocol.Rust.Reducers
import Mathlib.Logic.Function.Basic

/-!
# The Rust mirror of several hosts

`MultiHostStateMirror` keeps what snapshots and action envelopes say of the resources of
every host. A `HashMap` is the function of its lookups. A notification other than an action
moves no state and has no data here.

* `Kind` — the kinds of resource, each with the state the mirror keeps and its reducer.
* `stored` — what the mirror keeps of the resource at a key.
* `Input`, `step` — the calls that change the mirror.
-/

namespace AgentHostProtocol.Rust

open Library Function

variable {U : Type}

/-- `ROOT_RESOURCE_URI`. -/
def rootResourceUri : URI := "ahp-root://"

/-- `AUTOMATIONS_RESOURCE_URI`. -/
def automationsResourceUri : URI := "ahp-automations://"

/-- `HostId`. -/
abbrev HostId := String

/-- `HostedResourceKey`: a channel of a host. -/
structure HostedResourceKey where
  hostId : HostId
  uri : URI
  deriving DecidableEq

/-- `SnapshotState`. -/
inductive SnapshotState (U : Type) where
  | empty
  | session (state : SessionState U)
  | chat (state : ChatState U)
  | canvas (state : CanvasState)
  | terminal (state : TerminalState U)
  | changeset (state : ChangesetState U)
  | resourceWatch (state : ResourceWatchState)
  | annotations (state : AnnotationsState)
  | automations (state : AutomationState)
  | automationRun (state : AutomationRunState)
  | root (state : RootState)
  | unknown (raw : U)

/-- `Snapshot`. -/
structure Snapshot (U : Type) where
  resource : URI
  state : SnapshotState U

/-- `ActionEnvelope`. -/
structure ActionEnvelope (U : Type) where
  channel : URI
  action : StateAction U

/-- `SubscriptionEvent`. -/
inductive SubscriptionEvent (U : Type) where
  | action (envelope : ActionEnvelope U)
  | sessionAdded
  | sessionRemoved
  | sessionSummaryChanged
  | authRequired

/-- `HostSubscriptionEvent`. -/
structure HostSubscriptionEvent (U : Type) where
  hostId : HostId
  event : SubscriptionEvent U

/-- `MultiHostStateMirror`. -/
structure MultiHostStateMirror (U : Type) where
  rootStates : HostId → Option RootState
  sessions : HostedResourceKey → Option (SessionState U)
  chats : HostedResourceKey → Option (ChatState U)
  canvases : HostedResourceKey → Option CanvasState
  terminals : HostedResourceKey → Option (TerminalState U)
  changesets : HostedResourceKey → Option (ChangesetState U)
  annotations : HostedResourceKey → Option AnnotationsState
  resourceWatches : HostedResourceKey → Option ResourceWatchState
  automationCatalogs : HostId → Option AutomationState
  automations : HostedResourceKey → Option AutomationEntry
  automationRuns : HostedResourceKey → Option AutomationRunState

/-- `HashMap::retain` of the keys of other hosts. -/
def retainOthers {σ : Type} (map : HostedResourceKey → Option σ) (host : HostId) :
    HostedResourceKey → Option σ :=
  fun key => if key.hostId ≠ host then map key else none

namespace MultiHostStateMirror

/-- `new`. -/
def new : MultiHostStateMirror U where
  rootStates _ := none
  sessions _ := none
  chats _ := none
  canvases _ := none
  terminals _ := none
  changesets _ := none
  annotations _ := none
  resourceWatches _ := none
  automationCatalogs _ := none
  automations _ := none
  automationRuns _ := none

/-- `replace_automations`. -/
def replaceAutomations (m : MultiHostStateMirror U) (host : HostId)
    (automations : List AutomationEntry) : MultiHostStateMirror U :=
  { m with
    automations :=
      automations.foldl (fun map automation => update map ⟨host, automation.resource⟩ (some automation))
        (retainOthers m.automations host) }

/-- The root state before anything is known of the host. -/
def defaultRoot : RootState where
  agents := []
  activeSessions := none
  terminals := none
  config := none
  _meta := none

/-- `apply_envelope`. -/
def applyEnvelope [RawId U] (jiff : Jiff) (m : MultiHostStateMirror U) (host : HostId)
    (envelope : ActionEnvelope U) : MultiHostStateMirror U :=
  if envelope.channel = rootResourceUri then
    let root := (m.rootStates host).getD defaultRoot
    { m with
      rootStates := update m.rootStates host (some (applyActionToRoot root envelope.action).2) }
  else if envelope.channel = automationsResourceUri then
    match m.automationCatalogs host with
    | none => m
    | some catalog =>
      let catalog := (applyActionToAutomation catalog envelope.action).2
      { m with
        automationCatalogs :=
          update m.automationCatalogs host (some catalog) }.replaceAutomations host catalog.entries
  else
    let key : HostedResourceKey := ⟨host, envelope.channel⟩
    match m.sessions key with
    | some session =>
      { m with
        sessions := update m.sessions key (some (applyActionToSession session envelope.action).2) }
    | none =>
      match m.chats key with
      | some chat =>
        { m with chats := update m.chats key (some (applyActionToChat jiff chat envelope.action).2) }
      | none =>
        match m.canvases key with
        | some canvas =>
          { m with
            canvases := update m.canvases key (some (applyActionToCanvas canvas envelope.action).2) }
        | none =>
          match m.terminals key with
          | some terminal =>
            { m with
              terminals :=
                update m.terminals key (some (applyActionToTerminal terminal envelope.action).2) }
          | none =>
            match m.automationRuns key with
            | some run =>
              { m with
                automationRuns :=
                  update m.automationRuns key
                    (some (applyActionToAutomationRun run envelope.action).2) }
            -- changesets and annotations fall through
            | none => m

/-- `apply_snapshot`. -/
def applySnapshot (m : MultiHostStateMirror U) (host : HostId) (snapshot : Snapshot U) :
    MultiHostStateMirror U :=
  let key : HostedResourceKey := ⟨host, snapshot.resource⟩
  match snapshot.state with
  | .empty | .unknown _ => m
  | .root state => { m with rootStates := update m.rootStates host (some state) }
  | .session state => { m with sessions := update m.sessions key (some state) }
  | .chat state => { m with chats := update m.chats key (some state) }
  | .canvas state => { m with canvases := update m.canvases key (some state) }
  | .terminal state => { m with terminals := update m.terminals key (some state) }
  | .changeset state => { m with changesets := update m.changesets key (some state) }
  | .resourceWatch state => { m with resourceWatches := update m.resourceWatches key (some state) }
  | .annotations state => { m with annotations := update m.annotations key (some state) }
  | .automations state =>
    let m := m.replaceAutomations host state.entries
    { m with automationCatalogs := update m.automationCatalogs host (some state) }
  | .automationRun state => { m with automationRuns := update m.automationRuns key (some state) }

/-- `apply_event`. -/
def applyEvent [RawId U] (jiff : Jiff) (m : MultiHostStateMirror U)
    (event : HostSubscriptionEvent U) : MultiHostStateMirror U :=
  match event.event with
  | .action envelope => m.applyEnvelope jiff event.hostId envelope
  | _ => m

/-- `reset_host`. -/
def resetHost (m : MultiHostStateMirror U) (host : HostId) : MultiHostStateMirror U where
  rootStates := update m.rootStates host none
  sessions := retainOthers m.sessions host
  chats := retainOthers m.chats host
  canvases := retainOthers m.canvases host
  terminals := retainOthers m.terminals host
  changesets := retainOthers m.changesets host
  annotations := retainOthers m.annotations host
  resourceWatches := retainOthers m.resourceWatches host
  automationCatalogs := update m.automationCatalogs host none
  automations := retainOthers m.automations host
  automationRuns := retainOthers m.automationRuns host

/-- `reset`. -/
def reset (_ : MultiHostStateMirror U) : MultiHostStateMirror U := new

/-! ### Resources -/

end MultiHostStateMirror

/-- The kinds of resource that the mirror keeps. -/
inductive Kind where
  | root
  | session
  | chat
  | canvas
  | terminal
  | changeset
  | annotations
  | resourceWatch
  | automations
  | automationRun
  deriving DecidableEq

/-- The state of a resource of the kind. -/
abbrev Kind.State (U : Type) : Kind → Type
  | .root => RootState
  | .session => SessionState U
  | .chat => ChatState U
  | .canvas => CanvasState
  | .terminal => TerminalState U
  | .changeset => ChangesetState U
  | .annotations => AnnotationsState
  | .resourceWatch => ResourceWatchState
  | .automations => AutomationState
  | .automationRun => AutomationRunState

/-- The reducer of the kind. -/
def Kind.reduce [RawId U] (jiff : Jiff) : (k : Kind) → k.State U → StateAction U → k.State U
  | .root, s, a => (applyActionToRoot s a).2
  | .session, s, a => (applyActionToSession s a).2
  | .chat, s, a => (applyActionToChat jiff s a).2
  | .canvas, s, a => (applyActionToCanvas s a).2
  | .terminal, s, a => (applyActionToTerminal s a).2
  | .changeset, s, a => (applyActionToChangeset s a).2
  | .annotations, s, a => (applyActionToAnnotations s a).2
  | .resourceWatch, s, a => (applyActionToResourceWatch s a).2
  | .automations, s, a => (applyActionToAutomation s a).2
  | .automationRun, s, a => (applyActionToAutomationRun s a).2

/-- The key of the resource of the kind that a snapshot of `resource` describes: a host has
one root and one catalogue of automations, whatever the resource is called. -/
def Kind.keyOf (host : HostId) (resource : URI) : Kind → HostedResourceKey
  | .root => ⟨host, rootResourceUri⟩
  | .automations => ⟨host, automationsResourceUri⟩
  | _ => ⟨host, resource⟩

/-- The state, if it is of the kind. -/
def SnapshotState.as? : (k : Kind) → SnapshotState U → Option (k.State U)
  | .root, .root s => some s
  | .session, .session s => some s
  | .chat, .chat s => some s
  | .canvas, .canvas s => some s
  | .terminal, .terminal s => some s
  | .changeset, .changeset s => some s
  | .annotations, .annotations s => some s
  | .resourceWatch, .resourceWatch s => some s
  | .automations, .automations s => some s
  | .automationRun, .automationRun s => some s
  | _, _ => none

namespace MultiHostStateMirror

/-- What the mirror keeps of the resource of the kind on a channel of a host. -/
def stored (m : MultiHostStateMirror U) : (k : Kind) → HostedResourceKey → Option (k.State U)
  | .root, key => if key.uri = rootResourceUri then m.rootStates key.hostId else none
  | .session, key => m.sessions key
  | .chat, key => m.chats key
  | .canvas, key => m.canvases key
  | .terminal, key => m.terminals key
  | .changeset, key => m.changesets key
  | .annotations, key => m.annotations key
  | .resourceWatch, key => m.resourceWatches key
  | .automations, key =>
    if key.uri = automationsResourceUri then m.automationCatalogs key.hostId else none
  | .automationRun, key => m.automationRuns key

/-- The calls that change a mirror. -/
inductive Input (U : Type) where
  | snapshot (host : HostId) (snapshot : Snapshot U)
  | envelope (host : HostId) (envelope : ActionEnvelope U)
  | event (event : HostSubscriptionEvent U)
  | resetHost (host : HostId)
  | reset

/-- The mirror after a call. -/
def step [RawId U] (jiff : Jiff) (m : MultiHostStateMirror U) : Input U → MultiHostStateMirror U
  | .snapshot host snapshot => m.applySnapshot host snapshot
  | .envelope host envelope => m.applyEnvelope jiff host envelope
  | .event event => m.applyEvent jiff event
  | .resetHost host => m.resetHost host
  | .reset => m.reset

/-- A new mirror after a list of calls. -/
def run [RawId U] (jiff : Jiff) (inputs : List (Input U)) : MultiHostStateMirror U :=
  inputs.foldl (step jiff) new

end MultiHostStateMirror

end AgentHostProtocol.Rust
