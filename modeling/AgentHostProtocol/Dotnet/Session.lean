import AgentHostProtocol.Library.Lists
import AgentHostProtocol.Library.Ref
import AgentHostProtocol.Wire.Session

/-!
# The .NET session reducer

`Reducers.ApplyToSession` and its helpers. The reducer mutates the state it is given; in the
model it returns the outcome with the state as it is then. Every object of the state and of
an action is held once, so a write through one reference is seen through no other.
-/

namespace AgentHostProtocol.Dotnet

open Library SessionStatus

/-- `ReduceOutcome`. -/
inductive ReduceOutcome where
  | applied
  | noOp
  | outOfScope
  deriving DecidableEq

namespace Session

variable {U : Type}

/-! ### Status -/

/-- `AwaitsUser`. -/
def awaitsUser : SessionInputRequest U → Bool
  | .toolClientExecution _ _ _ _ => false
  | _ => true

/-- `WithInputNeededStatus`. -/
def withInputNeededStatus (status : SessionStatus) (inputNeeded : List (SessionInputRequest U)) :
    SessionStatus :=
  if inputNeeded.any awaitsUser then status &&& ~~~activityMask ||| SessionStatus.inputNeeded
  else status &&& ~~~(SessionStatus.inputNeeded &&& ~~~inProgress)

/-! ### Ids -/

/-- `SessionInputRequestId`: an unknown request without an id has the empty one. -/
def sessionInputRequestId [RawId U] : SessionInputRequest U → String
  | .chatInput v _ | .toolConfirmation v _ _ | .toolClientExecution v _ _ _
  | .toolAuthentication v _ _ => v.id
  | .unknown raw => (RawId.id? raw).getD ""

/-- `TryCustomizationId`: only containers have an id here, an MCP server has none. -/
def tryCustomizationId : Customization U → Option String
  | .plugin v => some v.id
  | .directory v => some v.id
  | .mcpServer _ | .unknown _ => none

/-- `TryChildCustomizationId`. -/
def tryChildCustomizationId : ChildCustomization U → Option String
  | .agent v => some v.id
  | .skill v => some v.id
  | .prompt v => some v.id
  | .rule v => some v.id
  | .hook v => some v.id
  | .mcpServer v => some v.id
  | .unknown _ => none

/-- `ContainerChildren`. -/
def containerChildren : Customization U → Option (Ref (Customization U) (List (ChildCustomization U)))
  | .plugin v => v.children.map fun children => ⟨children, fun l => .plugin { v with children := some l }⟩
  | .directory v =>
    v.children.map fun children => ⟨children, fun l => .directory { v with children := some l }⟩
  | .mcpServer _ | .unknown _ => none

/-! ### Toggles -/

/-- `EffectiveEnabled`. -/
def effectiveEnabled (enablement : List (CustomizationEnablement U)) : Bool :=
  match enablement.head? with
  | none => true
  | some (.global enabled) => enabled
  | some (.workspace _ enabled) => enabled
  | some (.session enabled) => enabled
  | some (.unknown _) => true

/-- `enablement.Count == 0 ? null : CopyList(enablement)`. -/
def copyEnablement (enablement : List (CustomizationEnablement U)) :
    Option (List (CustomizationEnablement U)) :=
  if enablement.length = 0 then none else some enablement

/-- `WithChildEnablement`. -/
def withChildEnablement (enablement : List (CustomizationEnablement U)) :
    ChildCustomization U → ChildCustomization U
  | .agent v => .agent { v with enabled := some (effectiveEnabled enablement) }
  | .skill v => .skill { v with enabled := some (effectiveEnabled enablement) }
  | .prompt v => .prompt { v with enabled := some (effectiveEnabled enablement) }
  | .rule v => .rule { v with enabled := some (effectiveEnabled enablement) }
  | .hook v => .hook { v with enabled := some (effectiveEnabled enablement) }
  | .mcpServer v => .mcpServer { v with enablement := copyEnablement enablement }
  | .unknown raw => .unknown raw

/-- `ToggleMcpServerSkill`: the server after the toggle, if it has the skill. -/
def toggleMcpServerSkill (server : McpServerCustomization U) (id : String)
    (enablement : List (CustomizationEnablement U)) : Option (McpServerCustomization U) :=
  server.children.bind fun skills =>
    (Ref.find? (fun skill => skill.id = id) skills).map fun skill =>
      { server with
        children := some (skill.modify fun skill =>
          { skill with enabled := some (effectiveEnabled enablement) }) }

/-- The first loop of `ApplyToggle`, on one entry of the list. -/
def toggleEntry (id : String) (enablement : List (CustomizationEnablement U)) :
    Customization U → Option (Customization U)
  | .mcpServer top =>
    if top.id = id then some (.mcpServer { top with enablement := copyEnablement enablement }) else none
  | .plugin plugin =>
    if plugin.id = id then some (.plugin { plugin with enablement := copyEnablement enablement })
    else none
  | .directory directory =>
    if directory.id = id then
      some (.directory { directory with enabled := effectiveEnabled enablement })
    else none
  | .unknown _ => none

/-- The first loop over the children of a container. -/
def toggleChild (id : String) (enablement : List (CustomizationEnablement U))
    (child : ChildCustomization U) : Option (ChildCustomization U) :=
  if tryChildCustomizationId child = some id then some (withChildEnablement enablement child) else none

/-- The second loop over the children of a container. -/
def toggleNestedServer (id : String) (enablement : List (CustomizationEnablement U)) :
    ChildCustomization U → Option (ChildCustomization U)
  | .mcpServer nestedServer => (toggleMcpServerSkill nestedServer id enablement).map .mcpServer
  | _ => none

/-- The second loop of `ApplyToggle`, on one container: the two loops over its children. -/
def toggleChildren (id : String) (enablement : List (CustomizationEnablement U))
    (c : Customization U) : Option (Customization U) :=
  (containerChildren c).bind fun children =>
    match updateFirst (toggleChild id enablement) children.value with
    | some l => some (children.write l)
    | none => (updateFirst (toggleNestedServer id enablement) children.value).map children.write

/-- The second loop of `ApplyToggle`, on one entry of the list. -/
def toggleBelow (id : String) (enablement : List (CustomizationEnablement U)) :
    Customization U → Option (Customization U)
  | .mcpServer server => (toggleMcpServerSkill server id enablement).map .mcpServer
  | c => toggleChildren id enablement c

/-- `ApplyToggle`. -/
def applyToggle (list : List (Customization U)) (id : String)
    (enablement : List (CustomizationEnablement U)) : Option (List (Customization U)) :=
  match updateFirst (toggleEntry id enablement) list with
  | some list => some list
  | none => updateFirst (toggleBelow id enablement) list

/-- `SessionCustomizationToggledAction`. -/
def customizationToggled (state : SessionState U) (id : String)
    (enablement : List (CustomizationEnablement U)) : ReduceOutcome × SessionState U :=
  match state.customizations with
  | none => (.noOp, state)
  | some list =>
    match applyToggle list id enablement with
    | some list => (.applied, { state with customizations := some list })
    | none => (.noOp, state)

/-! ### Customizations -/

/-- `ApplyCustomizationUpdated`. -/
def applyCustomizationUpdated (state : SessionState U) (customization : Customization U) :
    ReduceOutcome × SessionState U :=
  match tryCustomizationId customization with
  | none => (.noOp, state)
  | some actionId =>
    let list :=
      upsertWhere (fun c => tryCustomizationId c = some actionId) customization
        (state.customizations.getD [])
    (.applied, { state with customizations := some list })

/-- The loop of `ApplyCustomizationRemoved` over the containers, on one of them. -/
def removeChild (id : String) (c : Customization U) : Option (Customization U) :=
  (containerChildren c).bind fun children =>
    (eraseWhere (fun child => tryChildCustomizationId child = some id) children.value).map
      children.write

/-- `ApplyCustomizationRemoved`. -/
def applyCustomizationRemoved (state : SessionState U) (id : String) :
    ReduceOutcome × SessionState U :=
  match state.customizations with
  | none => (.noOp, state)
  | some list =>
    match eraseWhere (fun c => tryCustomizationId c = some id) list with
    | some list => (.applied, { state with customizations := some list })
    | none =>
      match updateFirst (removeChild id) list with
      | some list => (.applied, { state with customizations := some list })
      | none => (.noOp, state)

/-! ### MCP servers -/

/-- `update(mcp) ? Applied : NoOp`, with the server after the update. -/
def runUpdate (update : McpServerCustomization U → Option (McpServerCustomization U))
    (mcp : McpServerCustomization U) : ReduceOutcome × McpServerCustomization U :=
  match update mcp with
  | some mcp => (.applied, mcp)
  | none => (.noOp, mcp)

/-- The first loop of `UpdateMcpServerCustomization`, on one entry of the list. -/
def updateEntry (id : String)
    (update : McpServerCustomization U → Option (McpServerCustomization U)) :
    Customization U → Option (ReduceOutcome × Customization U)
  | .mcpServer top =>
    if top.id = id then some ((runUpdate update top).1, .mcpServer (runUpdate update top).2) else none
  | c => if tryCustomizationId c = some id then some (.noOp, c) else none

/-- The loop over the children of a container, on one of them. -/
def updateChild (id : String)
    (update : McpServerCustomization U → Option (McpServerCustomization U)) :
    ChildCustomization U → Option (ReduceOutcome × ChildCustomization U)
  | .mcpServer mcp =>
    if mcp.id = id then some ((runUpdate update mcp).1, .mcpServer (runUpdate update mcp).2) else none
  | child => if tryChildCustomizationId child = some id then some (.noOp, child) else none

/-- The second loop of `UpdateMcpServerCustomization`, on one container. -/
def updateBelow (id : String)
    (update : McpServerCustomization U → Option (McpServerCustomization U))
    (c : Customization U) : Option (ReduceOutcome × Customization U) :=
  (containerChildren c).bind fun children =>
    (returnFirst (updateChild id update) children.value).map fun r => (r.1, children.write r.2)

/-- `UpdateMcpServerCustomization`, where `update` gives the changed server, or none if it
changes nothing. -/
def updateMcpServerCustomization (state : SessionState U) (id : String)
    (update : McpServerCustomization U → Option (McpServerCustomization U)) :
    ReduceOutcome × SessionState U :=
  match state.customizations with
  | none => (.noOp, state)
  | some list =>
    match returnFirst (updateEntry id update) list with
    | some (outcome, list) => (outcome, { state with customizations := some list })
    | none =>
      match returnFirst (updateBelow id update) list with
      | some (outcome, list) => (outcome, { state with customizations := some list })
      | none => (.noOp, state)

/-- `ApplyMcpServerStateChanged`. -/
def applyMcpServerStateChanged (state : SessionState U) (a : SessionMcpServerStateChangedAction U) :
    ReduceOutcome × SessionState U :=
  updateMcpServerCustomization state a.id fun mcp =>
    some { mcp with state := a.state, channel := a.channel }

/-- `SessionMcpServerStartRequestedAction`. -/
def mcpServerStartRequested (state : SessionState U) (id : String) :
    ReduceOutcome × SessionState U :=
  updateMcpServerCustomization state id fun mcp =>
    some { mcp with state := .starting none, channel := none }

/-- `SessionMcpServerBackgroundRequestedAction`. -/
def mcpServerBackgroundRequested (state : SessionState U) (id : String) :
    ReduceOutcome × SessionState U :=
  updateMcpServerCustomization state id fun mcp =>
    match mcp.state with
    | .starting (some true) => some { mcp with state := .starting (some false) }
    | _ => none

/-- `SessionMcpServerStopRequestedAction`. -/
def mcpServerStopRequested (state : SessionState U) (id : String) :
    ReduceOutcome × SessionState U :=
  updateMcpServerCustomization state id fun mcp =>
    some { mcp with state := .stopped, channel := none }

/-! ### The chat catalogue -/

/-- `ApplySessionChatAdded`. -/
def applySessionChatAdded (state : SessionState U) (summary : ChatSummary) :
    ReduceOutcome × SessionState U :=
  (.applied,
    { state with chats := upsertWhere (fun c => c.resource = summary.resource) summary state.chats })

/-- `ApplySessionChatRemoved`. -/
def applySessionChatRemoved (state : SessionState U) (chat : URI) : ReduceOutcome × SessionState U :=
  match eraseWhere (fun c => c.resource = chat) state.chats with
  | none => (.noOp, state)
  | some chats =>
    (.applied,
      { state with
        chats := chats
        defaultChat := if state.defaultChat = some chat then none else state.defaultChat })

/-- The merge of `ApplySessionChatUpdated`, field by field. -/
def mergeChanges (ch : PartialChatSummary) (s : ChatSummary) : ChatSummary :=
  { s with
    title := ch.title.getD s.title
    status := ch.status.getD s.status
    activity := ch.activity.or s.activity
    modifiedAt := ch.modifiedAt.getD s.modifiedAt
    changes := ch.changes.or s.changes
    origin := ch.origin.or s.origin
    interactivity := ch.interactivity.or s.interactivity
    workingDirectories := ch.workingDirectories.or s.workingDirectories }

/-- `ApplySessionChatUpdated`. -/
def applySessionChatUpdated (state : SessionState U) (chat : URI) (changes : PartialChatSummary) :
    ReduceOutcome × SessionState U :=
  match Ref.find? (fun c => c.resource = chat) state.chats with
  | none => (.noOp, state)
  | some s => (.applied, { state with chats := s.modify (mergeChanges changes) })

/-- `summaries.TryGetValue`: the last summary of the resource. -/
def summary? (chats : List ChatSummary) (resource : URI) : Option ChatSummary :=
  chats.reverse.find? fun c => c.resource = resource

/-- `ApplySessionChatsReordered`. -/
def applySessionChatsReordered (state : SessionState U) (chats : List URI) :
    ReduceOutcome × SessionState U :=
  if chats.length ≠ state.chats.length ∨ chats.dedup.length ≠ state.chats.length then (.noOp, state)
  else if (chats.zip state.chats).all fun (resource, c) => resource = c.resource then (.noOp, state)
  else
    match chats.mapM (summary? state.chats) with
    | none => (.noOp, state)
    | some reordered => (.applied, { state with chats := reordered })

/-! ### Other fields -/

/-- `MergeConfig`. -/
def mergeConfig (current incoming : Record Json) (replace : Option Bool) : Record Json :=
  (if replace = some true then Record.empty else current).merge incoming

/-- `SessionConfigChangedAction`. -/
def configChanged (state : SessionState U) (a : SessionConfigChangedAction) :
    ReduceOutcome × SessionState U :=
  match state.config with
  | none => (.noOp, state)
  | some config =>
    (.applied,
      { state with config := some { config with values := mergeConfig config.values a.config a.replace } })

/-- `SessionActiveClientSetAction`. -/
def activeClientSet (state : SessionState U) (activeClient : SessionActiveClient) :
    ReduceOutcome × SessionState U :=
  (.applied,
    { state with
      activeClients :=
        upsertWhere (fun c => c.clientId = activeClient.clientId) activeClient state.activeClients })

/-- `SessionActiveClientRemovedAction`. -/
def activeClientRemoved (state : SessionState U) (clientId : String) :
    ReduceOutcome × SessionState U :=
  match eraseWhere (fun c => c.clientId = clientId) state.activeClients with
  | none => (.noOp, state)
  | some activeClients => (.applied, { state with activeClients := activeClients })

/-- `SessionWorkingDirectorySetAction`. -/
def workingDirectorySet (state : SessionState U) (directory : URI) : ReduceOutcome × SessionState U :=
  if (state.workingDirectories.map fun list => list.contains directory) = some true then (.noOp, state)
  else
    (.applied,
      { state with workingDirectories := some (state.workingDirectories.getD [] ++ [directory]) })

/-- `SessionWorkingDirectoryRemovedAction`. -/
def workingDirectoryRemoved (state : SessionState U) (directory : URI) :
    ReduceOutcome × SessionState U :=
  match state.workingDirectories with
  | none => (.noOp, state)
  | some list =>
    match eraseWhere (fun d => d = directory) list with
    | none => (.noOp, state)
    | some list => (.applied, { state with workingDirectories := some list })

/-- The loop that removes, from position `i` down, every other copy of the replacement. -/
def removeCopies (index : ℕ) (replacement : URI) : ℕ → List URI → List URI
  | 0, list => list
  | i + 1, list =>
    removeCopies index replacement i
      (if i ≠ index ∧ list[i]? = some replacement then list.eraseIdx i else list)

/-- `SessionWorkingDirectoryReplacedAction`. -/
def workingDirectoryReplaced (state : SessionState U) (directory replacement : URI) :
    ReduceOutcome × SessionState U :=
  match state.workingDirectories with
  | none => (.noOp, state)
  | some list =>
    match list.findIdx? fun d => d = directory with
    | none => (.noOp, state)
    | some index =>
      if (list.findIdx? fun d => d = replacement).any fun replacementIndex => replacementIndex < index then
        (.applied, { state with workingDirectories := some (list.eraseIdx index) })
      else
        let list := list.set index replacement
        (.applied,
          { state with workingDirectories := some (removeCopies index replacement list.length list) })

/-- `SessionInputNeededSetAction`. -/
def inputNeededSet [RawId U] (state : SessionState U) (request : SessionInputRequest U) :
    ReduceOutcome × SessionState U :=
  let reqId := sessionInputRequestId request
  let list :=
    upsertWhere (fun r => sessionInputRequestId r = reqId) request (state.inputNeeded.getD [])
  (.applied,
    { state with
      inputNeeded := some list
      status := withInputNeededStatus state.status list })

/-- `SessionInputNeededRemovedAction`. -/
def inputNeededRemoved [RawId U] (state : SessionState U) (id : String) :
    ReduceOutcome × SessionState U :=
  match state.inputNeeded with
  | none => (.noOp, state)
  | some list =>
    match eraseWhere (fun r => sessionInputRequestId r = id) list with
    | none => (.noOp, state)
    | some list =>
      (.applied,
        { state with
          inputNeeded := if list.length = 0 then none else some list
          status := withInputNeededStatus state.status list })

/-! ### The reducer -/

/-- `ApplyToSession` on the actions of a session. -/
def applyToSession [RawId U] (state : SessionState U) :
    SessionAction U → ReduceOutcome × SessionState U
  | .ready => (.applied, { state with lifecycle := .ready })
  | .creationFailed error =>
    (.applied, { state with lifecycle := .failed, creationError := some error })
  | .titleChanged title => (.applied, { state with title := title })
  | .isReadChanged value =>
    (.applied, { state with status := withStatusFlag state.status isRead value })
  | .isArchivedChanged value =>
    (.applied, { state with status := withStatusFlag state.status isArchived value })
  | .activityChanged activity => (.applied, { state with activity := activity })
  | .changesetsChanged changesets => (.applied, { state with changesets := changesets })
  | .configChanged a => configChanged state a
  | .metaChanged _meta => (.applied, { state with _meta := _meta })
  | .serverToolsChanged tools => (.applied, { state with serverTools := some tools })
  | .activeClientSet activeClient => activeClientSet state activeClient
  | .activeClientRemoved clientId => activeClientRemoved state clientId
  | .workingDirectorySet directory => workingDirectorySet state directory
  | .workingDirectoryRemoved directory => workingDirectoryRemoved state directory
  | .workingDirectoryReplaced directory replacement =>
    workingDirectoryReplaced state directory replacement
  | .inputNeededSet request => inputNeededSet state request
  | .inputNeededRemoved id => inputNeededRemoved state id
  | .customizationsChanged customizations =>
    (.applied, { state with customizations := some customizations })
  | .customizationToggled id enablement => customizationToggled state id enablement
  | .customizationUpdated customization => applyCustomizationUpdated state customization
  | .customizationRemoved id => applyCustomizationRemoved state id
  | .mcpServerStateChanged a => applyMcpServerStateChanged state a
  | .mcpServerStartRequested id => mcpServerStartRequested state id
  | .mcpServerBackgroundRequested id => mcpServerBackgroundRequested state id
  | .mcpServerStopRequested id => mcpServerStopRequested state id
  | .chatAdded summary => applySessionChatAdded state summary
  | .chatRemoved chat => applySessionChatRemoved state chat
  | .chatUpdated chat changes => applySessionChatUpdated state chat changes
  | .chatsReordered chats => applySessionChatsReordered state chats
  | .defaultChatChanged defaultChat => (.applied, { state with defaultChat := defaultChat })

end Session

end AgentHostProtocol.Dotnet
