import AgentHostProtocol.Library.Lists
import AgentHostProtocol.Wire.Session

/-!
# The session reducer

`sessionReducer` and its helpers, on the closed unions. The source tells a list that it
rebuilt from the one it started with by object identity; here it is compared by value,
which gives the same state.
-/

namespace AgentHostProtocol.Session

open Library SessionStatus

/-! ### Status -/

/-- `awaitsUser`: whether an entry blocks on the user. -/
def awaitsUser : SessionInputRequest Empty → Bool
  | .toolClientExecution _ _ _ _ => false
  | _ => true

/-- `withInputNeededStatus`: reflects the input queue into the activity bits. -/
def withInputNeededStatus (status : SessionStatus) (list : List (SessionInputRequest Empty)) :
    SessionStatus :=
  if list.any awaitsUser then status &&& ~~~activityMask ||| inputNeeded
  else status &&& ~~~(inputNeeded &&& ~~~inProgress)

/-- The id of an entry of the input queue. -/
def requestId : SessionInputRequest Empty → String
  | .chatInput base _ | .toolConfirmation base _ _ | .toolClientExecution base _ _ _
  | .toolAuthentication base _ _ => base.id

/-! ### Customizations -/

/-- The id of a top-level customization. -/
def customizationId : Customization Empty → String
  | .plugin c => c.id
  | .directory c => c.id
  | .mcpServer c => c.id

/-- The id of a child customization. -/
def childId : ChildCustomization Empty → String
  | .agent c => c.id
  | .skill c => c.id
  | .prompt c => c.id
  | .rule c => c.id
  | .hook c => c.id
  | .mcpServer c => c.id

/-- `container.children` of a customization that is not an MCP server. -/
def children? : Customization Empty → Option (List (ChildCustomization Empty))
  | .plugin c => c.children
  | .directory c => c.children
  | .mcpServer _ => none

/-- `{ ...container, children }`. -/
def withChildren (children : List (ChildCustomization Empty)) :
    Customization Empty → Customization Empty
  | .plugin c => .plugin { c with children := some children }
  | .directory c => .directory { c with children := some children }
  | .mcpServer c => .mcpServer c

/-- Writing the children back changes nothing. -/
theorem withChildren_children? {c : Customization Empty} {l : List (ChildCustomization Empty)}
    (h : children? c = some l) : withChildren l c = c := by
  cases c with
  | unknown raw => exact raw.elim
  | mcpServer m => rfl
  | plugin p =>
    show Customization.plugin { p with children := some l } = _
    rw [← show p.children = some l from h]
  | directory d =>
    show Customization.directory { d with children := some l } = _
    rw [← show d.children = some l from h]

/-- The container with the child of the id updated, if it has that child and the child is
an MCP server. -/
def updateMcpServerChild (id : String)
    (update : McpServerCustomization Empty → McpServerCustomization Empty)
    (container : Customization Empty) : Option (Customization Empty) :=
  (children? container).bind fun children =>
    (children.findIdx? fun c => childId c = id).bind fun childIdx =>
      match children[childIdx]? with
      | some (.mcpServer child) =>
        some (withChildren (children.set childIdx (.mcpServer (update child))) container)
      | _ => none

/-- `list.map` with a flag for whether any element changed; `none` if none did. -/
def mapChanged {α : Type} (f : α → Option α) (list : List α) : Option (List α) :=
  if list.any fun x => (f x).isSome then some (list.map fun x => (f x).getD x) else none

/-- `updateMcpServerCustomization`. -/
def updateMcpServerCustomization (state : SessionState Empty) (id : String)
    (update : McpServerCustomization Empty → McpServerCustomization Empty) : SessionState Empty :=
  match state.customizations with
  | none => state
  | some list =>
    match list.findIdx? fun c => customizationId c = id with
    | some topIdx =>
      match list[topIdx]? with
      | some (.mcpServer entry) =>
        { state with customizations := some (list.set topIdx (.mcpServer (update entry))) }
      | _ => state
    | none =>
      match mapChanged (updateMcpServerChild id update) list with
      | none => state
      | some updated => { state with customizations := some updated }

/-- The `enabled` of a decision. -/
def enabled : CustomizationEnablement Empty → Bool
  | .global enabled | .workspace _ enabled | .session enabled => enabled

/-- `enablement[0]?.enabled ?? true`. -/
def firstEnabled (enablement : List (CustomizationEnablement Empty)) : Bool :=
  (enablement.head?.map enabled).getD true

/-- The decisions as a plugin or an MCP server keeps them. -/
def provenance (enablement : List (CustomizationEnablement Empty)) :
    Option (List (CustomizationEnablement Empty)) :=
  if 0 < enablement.length then some enablement else none

/-- `applyCustomizationEnablement` on a top-level customization. -/
def applyCustomizationEnablement (enablement : List (CustomizationEnablement Empty)) :
    Customization Empty → Customization Empty
  | .plugin c => .plugin { c with enablement := provenance enablement }
  | .mcpServer c => .mcpServer { c with enablement := provenance enablement }
  | .directory c => .directory { c with enabled := firstEnabled enablement }

/-- `applyCustomizationEnablement` on a child. -/
def applyChildEnablement (enablement : List (CustomizationEnablement Empty)) :
    ChildCustomization Empty → ChildCustomization Empty
  | .mcpServer c => .mcpServer { c with enablement := provenance enablement }
  | .agent c => .agent { c with enabled := some (firstEnabled enablement) }
  | .skill c => .skill { c with enabled := some (firstEnabled enablement) }
  | .prompt c => .prompt { c with enabled := some (firstEnabled enablement) }
  | .rule c => .rule { c with enabled := some (firstEnabled enablement) }
  | .hook c => .hook { c with enabled := some (firstEnabled enablement) }

/-- `toggleMcpServerSkill`. -/
def toggleMcpServerSkill (server : McpServerCustomization Empty) (id : String)
    (enablement : List (CustomizationEnablement Empty)) : Option (McpServerCustomization Empty) :=
  server.children.bind fun skills =>
    (skills.findIdx? fun c => c.id = id).bind fun skillIdx =>
      skills[skillIdx]?.map fun skill =>
        { server with
          children := some (skills.set skillIdx { skill with enabled := some (firstEnabled enablement) }) }

/-- A child with the skill of the id toggled, if it is an MCP server that serves it. -/
def toggleChildSkill (id : String) (enablement : List (CustomizationEnablement Empty)) :
    ChildCustomization Empty → Option (ChildCustomization Empty)
  | .mcpServer child => (toggleMcpServerSkill child id enablement).map .mcpServer
  | _ => none

/-- `toggleContainerChild`. -/
def toggleContainerChild (container : Customization Empty) (id : String)
    (enablement : List (CustomizationEnablement Empty)) : Option (Customization Empty) :=
  (children? container).bind fun children =>
    match children.findIdx? fun c => childId c = id with
    | some childIdx =>
      children[childIdx]?.map fun child =>
        withChildren (children.set childIdx (applyChildEnablement enablement child)) container
    | none =>
      (updateFirst (toggleChildSkill id enablement) children).map fun newChildren =>
        withChildren newChildren container

/-- A container with what is below it and has the id toggled. -/
def toggleBelow (id : String) (enablement : List (CustomizationEnablement Empty)) :
    Customization Empty → Option (Customization Empty)
  | .mcpServer server => (toggleMcpServerSkill server id enablement).map .mcpServer
  | container => toggleContainerChild container id enablement

/-- `session/customizationToggled`. -/
def customizationToggled (state : SessionState Empty) (id : String)
    (enablement : List (CustomizationEnablement Empty)) : SessionState Empty :=
  match state.customizations with
  | none => state
  | some list =>
    match list.findIdx? fun c => customizationId c = id with
    | some topIdx =>
      match list[topIdx]? with
      | some entry =>
        { state with
          customizations := some (list.set topIdx (applyCustomizationEnablement enablement entry)) }
      | none => state
    | none =>
      match updateFirst (toggleBelow id enablement) list with
      | none => state
      | some updated => { state with customizations := some updated }

/-- `session/customizationUpdated`. -/
def customizationUpdated (state : SessionState Empty) (customization : Customization Empty) :
    SessionState Empty :=
  { state with
    customizations :=
      some (upsertWhere (fun c => customizationId c = customizationId customization) customization
        (state.customizations.getD [])) }

/-- The container without its child of the id, if it has that child. -/
def removeChild (id : String) (container : Customization Empty) : Option (Customization Empty) :=
  (children? container).bind fun children =>
    (eraseWhere (fun c => childId c = id) children).map fun newChildren =>
      withChildren newChildren container

/-- `session/customizationRemoved`. -/
def customizationRemoved (state : SessionState Empty) (id : String) : SessionState Empty :=
  match state.customizations with
  | none => state
  | some list =>
    match eraseWhere (fun c => customizationId c = id) list with
    | some updated => { state with customizations := some updated }
    | none =>
      match mapChanged (removeChild id) list with
      | none => state
      | some updated => { state with customizations := some updated }

/-! ### MCP servers -/

/-- `session/mcpServerStateChanged` on the server. -/
def mcpServerStateChanged (a : SessionMcpServerStateChangedAction Empty)
    (entry : McpServerCustomization Empty) : McpServerCustomization Empty :=
  { entry with state := a.state, channel := a.channel }

/-- `session/mcpServerStartRequested` on the server. -/
def mcpServerStartRequested (entry : McpServerCustomization Empty) : McpServerCustomization Empty :=
  { entry with state := .starting none, channel := none }

/-- `session/mcpServerBackgroundRequested` on the server. -/
def mcpServerBackgroundRequested (entry : McpServerCustomization Empty) :
    McpServerCustomization Empty :=
  match entry.state with
  | .starting (some true) => { entry with state := .starting (some false) }
  | _ => entry

/-- `session/mcpServerStopRequested` on the server. -/
def mcpServerStopRequested (entry : McpServerCustomization Empty) : McpServerCustomization Empty :=
  { entry with state := .stopped, channel := none }

/-! ### The chat catalogue -/

/-- `session/chatAdded`. -/
def chatAdded (state : SessionState Empty) (summary : ChatSummary) : SessionState Empty :=
  { state with chats := upsertWhere (fun c => c.resource = summary.resource) summary state.chats }

/-- `session/chatRemoved`. -/
def chatRemoved (state : SessionState Empty) (chat : URI) : SessionState Empty :=
  match eraseWhere (fun c => c.resource = chat) state.chats with
  | none => state
  | some updated =>
    { state with
      chats := updated
      defaultChat := if state.defaultChat = some chat then none else state.defaultChat }

/-- `{ ...summary, ...changes }` without the resource and the provider of the changes. -/
def applyChanges (changes : PartialChatSummary) (summary : ChatSummary) : ChatSummary :=
  { resource := summary.resource
    title := changes.title.getD summary.title
    status := changes.status.getD summary.status
    activity := changes.activity.or summary.activity
    modifiedAt := changes.modifiedAt.getD summary.modifiedAt
    changes := changes.changes.or summary.changes
    origin := changes.origin.or summary.origin
    movable := changes.movable.or summary.movable
    interactivity := changes.interactivity.or summary.interactivity
    provider := summary.provider
    workingDirectories := changes.workingDirectories.or summary.workingDirectories }

/-- `session/chatUpdated`. -/
def chatUpdated (state : SessionState Empty) (chat : URI) (changes : PartialChatSummary) :
    SessionState Empty :=
  match state.chats.findIdx? fun c => c.resource = chat with
  | none => state
  | some idx =>
    match state.chats[idx]? with
    | none => state
    | some summary => { state with chats := state.chats.set idx (applyChanges changes summary) }

/-- The entry of `new Map(list.map(summary => [summary.resource, summary]))`. -/
def summaryOf (list : List ChatSummary) (resource : URI) : Option ChatSummary :=
  list.reverse.find? fun c => c.resource = resource

/-- `session/chatsReordered`. -/
def chatsReordered (state : SessionState Empty) (chats : List URI) : SessionState Empty :=
  if chats.length ≠ state.chats.length ∨ chats.dedup.length ≠ state.chats.length then state
  else
    match chats.mapM (summaryOf state.chats) with
    | none => state
    | some reordered => if reordered = state.chats then state else { state with chats := reordered }

/-! ### Other fields -/

/-- `session/configChanged`. -/
def configChanged (state : SessionState Empty) (a : SessionConfigChangedAction) :
    SessionState Empty :=
  match state.config with
  | none => state
  | some config =>
    { state with
      config := some
        { config with
          values := if a.replace.getD false then a.config else config.values.merge a.config } }

/-- `session/activeClientSet`. -/
def activeClientSet (state : SessionState Empty) (activeClient : SessionActiveClient) :
    SessionState Empty :=
  { state with
    activeClients :=
      upsertWhere (fun c => c.clientId = activeClient.clientId) activeClient state.activeClients }

/-- `session/activeClientRemoved`. -/
def activeClientRemoved (state : SessionState Empty) (clientId : String) : SessionState Empty :=
  match eraseWhere (fun c => c.clientId = clientId) state.activeClients with
  | none => state
  | some updated => { state with activeClients := updated }

/-- `session/workingDirectorySet`. -/
def workingDirectorySet (state : SessionState Empty) (directory : URI) : SessionState Empty :=
  let list := state.workingDirectories.getD []
  if directory ∈ list then state
  else { state with workingDirectories := some (list ++ [directory]) }

/-- `session/workingDirectoryRemoved`. -/
def workingDirectoryRemoved (state : SessionState Empty) (directory : URI) : SessionState Empty :=
  match state.workingDirectories with
  | none => state
  | some list =>
    match eraseWhere (fun d => d = directory) list with
    | none => state
    | some updated => { state with workingDirectories := some updated }

/-- The list with the directory at `idx` replaced and the replacement nowhere else. -/
def replaceAt (list : List URI) (idx : ℕ) (replacement : URI) : List URI :=
  let mapped := list.zipIdx.map fun (directory, index) =>
    if index = idx then replacement else directory
  (mapped.zipIdx.filter fun (directory, index) => index = idx || directory ≠ replacement).map Prod.fst

/-- `session/workingDirectoryReplaced`. -/
def workingDirectoryReplaced (state : SessionState Empty) (directory replacement : URI) :
    SessionState Empty :=
  match state.workingDirectories with
  | none => state
  | some list =>
    match list.findIdx? fun d => d = directory with
    | none => state
    | some idx =>
      match list.findIdx? fun d => d = replacement with
      | some replacementIdx =>
        if replacementIdx < idx then { state with workingDirectories := some (list.eraseIdx idx) }
        else { state with workingDirectories := some (replaceAt list idx replacement) }
      | none => { state with workingDirectories := some (replaceAt list idx replacement) }

/-- `session/inputNeededSet`. -/
def inputNeededSet (state : SessionState Empty) (request : SessionInputRequest Empty) :
    SessionState Empty :=
  let inputNeeded :=
    upsertWhere (fun r => requestId r = requestId request) request (state.inputNeeded.getD [])
  { state with
    inputNeeded := some inputNeeded
    status := withInputNeededStatus state.status inputNeeded }

/-- `session/inputNeededRemoved`. -/
def inputNeededRemoved (state : SessionState Empty) (id : String) : SessionState Empty :=
  match state.inputNeeded with
  | none => state
  | some list =>
    match eraseWhere (fun r => requestId r = id) list with
    | none => state
    | some remaining =>
      { state with
        status := withInputNeededStatus state.status remaining
        inputNeeded := if 0 < remaining.length then some remaining else none }

/-! ### The reducer -/

/-- `sessionReducer`. -/
def sessionReducer (state : SessionState Empty) : SessionAction Empty → SessionState Empty
  | .ready => { state with lifecycle := .ready }
  | .creationFailed error => { state with lifecycle := .failed, creationError := some error }
  | .chatAdded summary => chatAdded state summary
  | .chatRemoved chat => chatRemoved state chat
  | .chatUpdated chat changes => chatUpdated state chat changes
  | .chatsReordered chats => chatsReordered state chats
  | .defaultChatChanged defaultChat => { state with defaultChat := defaultChat }
  | .titleChanged title => { state with title := title }
  | .isReadChanged value => { state with status := withStatusFlag state.status isRead value }
  | .isArchivedChanged value => { state with status := withStatusFlag state.status isArchived value }
  | .activityChanged activity => { state with activity := activity }
  | .changesetsChanged changesets => { state with changesets := changesets }
  | .configChanged a => configChanged state a
  | .metaChanged _meta => { state with _meta := _meta }
  | .serverToolsChanged tools => { state with serverTools := some tools }
  | .activeClientSet activeClient => activeClientSet state activeClient
  | .activeClientRemoved clientId => activeClientRemoved state clientId
  | .workingDirectorySet directory => workingDirectorySet state directory
  | .workingDirectoryRemoved directory => workingDirectoryRemoved state directory
  | .workingDirectoryReplaced directory replacement =>
    workingDirectoryReplaced state directory replacement
  | .inputNeededSet request => inputNeededSet state request
  | .inputNeededRemoved id => inputNeededRemoved state id
  | .customizationsChanged customizations => { state with customizations := some customizations }
  | .customizationToggled id enablement => customizationToggled state id enablement
  | .customizationUpdated customization => customizationUpdated state customization
  | .customizationRemoved id => customizationRemoved state id
  | .mcpServerStateChanged a => updateMcpServerCustomization state a.id (mcpServerStateChanged a)
  | .mcpServerStartRequested id => updateMcpServerCustomization state id mcpServerStartRequested
  | .mcpServerBackgroundRequested id =>
    updateMcpServerCustomization state id mcpServerBackgroundRequested
  | .mcpServerStopRequested id => updateMcpServerCustomization state id mcpServerStopRequested

end AgentHostProtocol.Session
