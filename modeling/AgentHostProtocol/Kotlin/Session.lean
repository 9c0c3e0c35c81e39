import AgentHostProtocol.Kotlin.Chat
import AgentHostProtocol.Library.Lists
import AgentHostProtocol.Wire.Session

/-!
# The Kotlin session reducer

`sessionReducer` and its helpers, on the closed unions. A loop that returns from inside is
`updateFirst`.
-/

namespace AgentHostProtocol.Kotlin

open Library SessionStatus

namespace Session

/-! ### Status -/

/-- `awaitsUser`. -/
def awaitsUser : SessionInputRequest Empty → Bool
  | .toolClientExecution _ _ _ _ => false
  | _ => true

/-- `withInputNeededStatus`. -/
def withInputNeededStatus (status : SessionStatus) (inputNeeded : List (SessionInputRequest Empty)) :
    SessionStatus :=
  if inputNeeded.any awaitsUser then status &&& ~~~activityMask ||| SessionStatus.inputNeeded
  else
    let inputBit := SessionStatus.inputNeeded &&& ~~~inProgress
    status &&& ~~~inputBit

/-! ### Customizations -/

/-- `customizationId`. -/
def customizationId : Customization Empty → Option String
  | .plugin c => some c.id
  | .directory c => some c.id
  | .mcpServer c => some c.id

/-- `sessionInputRequestId`. -/
def sessionInputRequestId : SessionInputRequest Empty → Option String
  | .chatInput base _ => some base.id
  | .toolConfirmation base _ _ => some base.id
  | .toolClientExecution base _ _ _ => some base.id
  | .toolAuthentication base _ _ => some base.id

/-- `customizationChildren`. -/
def customizationChildren : Customization Empty → Option (List (ChildCustomization Empty))
  | .plugin c => c.children
  | .directory c => c.children
  | .mcpServer _ => none

/-- `withCustomizationChildren`. -/
def withCustomizationChildren (c : Customization Empty) (children : List (ChildCustomization Empty)) :
    Customization Empty :=
  match c with
  | .plugin c => .plugin { c with children := some children }
  | .directory c => .directory { c with children := some children }
  | .mcpServer c => .mcpServer c

/-- `effectiveEnablement`. -/
def effectiveEnablement (enablement : List (CustomizationEnablement Empty)) : Bool :=
  match enablement.head? with
  | some (.global enabled) => enabled
  | some (.workspace _ enabled) => enabled
  | some (.session enabled) => enabled
  | none => true

/-- `enablement.takeIf { it.isNotEmpty() }`. -/
def provenance (enablement : List (CustomizationEnablement Empty)) :
    Option (List (CustomizationEnablement Empty)) :=
  if enablement.isEmpty then none else some enablement

/-- `withCustomizationEnablement`. -/
def withCustomizationEnablement (c : Customization Empty)
    (enablement : List (CustomizationEnablement Empty)) : Customization Empty :=
  let enabled := effectiveEnablement enablement
  let provenance := provenance enablement
  match c with
  | .plugin c => .plugin { c with enablement := provenance }
  | .directory c => .directory { c with enabled := enabled }
  | .mcpServer c => .mcpServer { c with enablement := provenance }

/-- `withChildCustomizationEnablement`. -/
def withChildCustomizationEnablement (c : ChildCustomization Empty)
    (enablement : List (CustomizationEnablement Empty)) : ChildCustomization Empty :=
  let enabled := effectiveEnablement enablement
  let provenance := provenance enablement
  match c with
  | .agent c => .agent { c with enabled := some enabled }
  | .skill c => .skill { c with enabled := some enabled }
  | .prompt c => .prompt { c with enabled := some enabled }
  | .rule c => .rule { c with enabled := some enabled }
  | .hook c => .hook { c with enabled := some enabled }
  | .mcpServer c => .mcpServer { c with enablement := provenance }

/-- `toggleMcpServerSkill`. -/
def toggleMcpServerSkill (server : McpServerCustomization Empty) (id : String)
    (enablement : List (CustomizationEnablement Empty)) : Option (McpServerCustomization Empty) :=
  server.children.bind fun skills =>
    (skills.findIdx? fun skill => skill.id = id).bind fun index =>
      skills[index]?.map fun skill =>
        { server with
          children := some (skills.set index { skill with enabled := some (effectiveEnablement enablement) }) }

/-- A round of the loop of `toggleContainerChild` over the children. -/
def toggleChildSkill (id : String) (enablement : List (CustomizationEnablement Empty)) :
    ChildCustomization Empty → Option (ChildCustomization Empty)
  | .mcpServer child => (toggleMcpServerSkill child id enablement).map .mcpServer
  | _ => none

/-- `childCustomizationId`. -/
def childCustomizationId : ChildCustomization Empty → Option String
  | .agent c => some c.id
  | .skill c => some c.id
  | .prompt c => some c.id
  | .rule c => some c.id
  | .hook c => some c.id
  | .mcpServer c => some c.id

/-- `toggleContainerChild`. -/
def toggleContainerChild (id : String) (enablement : List (CustomizationEnablement Empty)) :
    Customization Empty → Option (Customization Empty)
  | .mcpServer server => (toggleMcpServerSkill server id enablement).map .mcpServer
  | container =>
    (customizationChildren container).bind fun children =>
      match children.findIdx? fun c => childCustomizationId c = some id with
      | some childIndex =>
        children[childIndex]?.map fun child =>
          withCustomizationChildren container
            (children.set childIndex (withChildCustomizationEnablement child enablement))
      | none =>
        (updateFirst (toggleChildSkill id enablement) children).map (withCustomizationChildren container)

/-- `session/customizationToggled`. -/
def customizationToggled (state : SessionState Empty) (id : String)
    (enablement : List (CustomizationEnablement Empty)) : SessionState Empty :=
  match state.customizations with
  | none => state
  | some list =>
    match list.findIdx? fun c => customizationId c = some id with
    | some idx =>
      match list[idx]? with
      | some entry =>
        { state with customizations := some (list.set idx (withCustomizationEnablement entry enablement)) }
      | none => state
    | none =>
      match updateFirst (toggleContainerChild id enablement) list with
      | none => state
      | some updated => { state with customizations := some updated }

/-- `session/customizationUpdated`. -/
def customizationUpdated (state : SessionState Empty) (customization : Customization Empty) :
    SessionState Empty :=
  match customizationId customization with
  | none => state
  | some targetId =>
    let list := state.customizations.getD []
    { state with
      customizations := some (upsertWhere (fun c => customizationId c = some targetId) customization list) }

/-- A container without its first child of the id, if it has one. -/
def removeChild (id : String) (container : Customization Empty) : Option (Customization Empty) :=
  (customizationChildren container).bind fun children =>
    (eraseWhere (fun c => childCustomizationId c = some id) children).map
      (withCustomizationChildren container)

/-- `session/customizationRemoved`. -/
def customizationRemoved (state : SessionState Empty) (id : String) : SessionState Empty :=
  match state.customizations with
  | none => state
  | some list =>
    match eraseWhere (fun c => customizationId c = some id) list with
    | some updated => { state with customizations := some updated }
    | none =>
      let updated := list.map fun container => (removeChild id container).getD container
      let changed := list.any fun container => (removeChild id container).isSome
      if changed then { state with customizations := some updated } else state

/-! ### MCP servers -/

/-- The first child of the id of a container. -/
def firstChild (id : String) (container : Customization Empty) : Option (ChildCustomization Empty) :=
  (customizationChildren container).bind fun children =>
    children.find? fun c => childCustomizationId c = some id

/-- The loop of `findMcpServerCustomization` over the containers. -/
def findMcpServerChild (id : String) :
    List (Customization Empty) → Option (McpServerCustomization Empty)
  | [] => none
  | container :: list =>
    match firstChild id container with
    | some (.mcpServer child) => some child
    | _ => findMcpServerChild id list

/-- `findMcpServerCustomization`. -/
def findMcpServerCustomization (state : SessionState Empty) (id : String) :
    Option (McpServerCustomization Empty) :=
  match state.customizations with
  | none => none
  | some list =>
    match list.find? fun c => customizationId c = some id with
    | some (.mcpServer entry) => some entry
    | some _ => none
    | none => findMcpServerChild id list

/-- A container with its first child of the id in another state, if that is an MCP server. -/
def updateMcpServerChild (id : String) (nextState : McpServerState Empty) (channel : Option URI)
    (container : Customization Empty) : Option (Customization Empty) :=
  (customizationChildren container).bind fun children =>
    (children.findIdx? fun c => childCustomizationId c = some id).bind fun childIdx =>
      match children[childIdx]? with
      | some (.mcpServer child) =>
        some (withCustomizationChildren container
          (children.set childIdx (.mcpServer { child with state := nextState, channel := channel })))
      | _ => none

/-- `updateMcpServerCustomizationState`. -/
def updateMcpServerCustomizationState (state : SessionState Empty) (id : String)
    (nextState : McpServerState Empty) (channel : Option URI) : SessionState Empty :=
  match state.customizations with
  | none => state
  | some list =>
    match list.findIdx? fun c => customizationId c = some id with
    | some topIdx =>
      match list[topIdx]? with
      | some (.mcpServer entry) =>
        let updated := list.set topIdx (.mcpServer { entry with state := nextState, channel := channel })
        { state with customizations := some updated }
      | _ => state
    | none =>
      let update := updateMcpServerChild id nextState channel
      let updated := list.map fun container => (update container).getD container
      let changed := list.any fun container => (update container).isSome
      if changed then { state with customizations := some updated } else state

/-- `session/mcpServerBackgroundRequested`. -/
def mcpServerBackgroundRequested (state : SessionState Empty) (id : String) : SessionState Empty :=
  match findMcpServerCustomization state id with
  | none => state
  | some entry =>
    match entry.state with
    | .starting (some true) =>
      updateMcpServerCustomizationState state id (.starting (some false)) entry.channel
    | _ => state

/-! ### The chat catalogue -/

/-- `session/chatAdded`. -/
def chatAdded (state : SessionState Empty) (summary : ChatSummary) : SessionState Empty :=
  { state with chats := upsertWhere (fun c => c.resource = summary.resource) summary state.chats }

/-- `session/chatRemoved`. -/
def chatRemoved (state : SessionState Empty) (chat : URI) : SessionState Empty :=
  match eraseWhere (fun c => c.resource = chat) state.chats with
  | none => state
  | some updated =>
    { state with
      chats := updated
      defaultChat := if state.defaultChat = some chat then none else state.defaultChat }

/-- The summary that `session/chatUpdated` makes; whether the chat is movable and how the user can
interact with it are those of `prior`. -/
def applyChanges (c : PartialChatSummary) (prior : ChatSummary) : ChatSummary :=
  { prior with
    title := c.title.getD prior.title
    status := c.status.getD prior.status
    activity := c.activity.or prior.activity
    modifiedAt := c.modifiedAt.getD prior.modifiedAt
    changes := c.changes.or prior.changes
    origin := c.origin.or prior.origin
    workingDirectories := c.workingDirectories.or prior.workingDirectories }

/-- `session/chatUpdated`. -/
def chatUpdated (state : SessionState Empty) (chat : URI) (changes : PartialChatSummary) :
    SessionState Empty :=
  match state.chats.findIdx? fun c => c.resource = chat with
  | none => state
  | some idx =>
    match state.chats[idx]? with
    | none => state
    | some prior => { state with chats := state.chats.set idx (applyChanges changes prior) }

/-- An entry of `state.chats.associateBy { it.resource }`: the last chat with the resource. -/
def summaryOf (chats : List ChatSummary) (resource : URI) : Option ChatSummary :=
  chats.reverse.find? fun c => c.resource = resource

/-- `session/chatsReordered`. -/
def chatsReordered (state : SessionState Empty) (chats : List URI) : SessionState Empty :=
  if chats.length ≠ state.chats.length ∨ chats.dedup.length ≠ state.chats.length then state
  else
    let reordered := chats.filterMap (summaryOf state.chats)
    if reordered.length ≠ state.chats.length then state else { state with chats := reordered }

/-! ### Other fields -/

/-- `session/configChanged`. -/
def configChanged (state : SessionState Empty) (a : SessionConfigChangedAction) : SessionState Empty :=
  match state.config with
  | none => state
  | some config =>
    let newValues := if a.replace = some true then a.config else config.values.merge a.config
    { state with config := some { config with values := newValues } }

/-- `session/activeClientSet`. -/
def activeClientSet (state : SessionState Empty) (client : SessionActiveClient) : SessionState Empty :=
  { state with
    activeClients := upsertWhere (fun c => c.clientId = client.clientId) client state.activeClients }

/-- `session/activeClientRemoved`. -/
def activeClientRemoved (state : SessionState Empty) (clientId : String) : SessionState Empty :=
  match eraseWhere (fun c => c.clientId = clientId) state.activeClients with
  | none => state
  | some updated => { state with activeClients := updated }

/-- `session/workingDirectorySet`. -/
def workingDirectorySet (state : SessionState Empty) (directory : URI) : SessionState Empty :=
  let list := state.workingDirectories.getD []
  if directory ∈ list then state else { state with workingDirectories := some (list ++ [directory]) }

/-- `session/workingDirectoryRemoved`. -/
def workingDirectoryRemoved (state : SessionState Empty) (directory : URI) : SessionState Empty :=
  match state.workingDirectories with
  | none => state
  | some list =>
    match eraseWhere (fun d => d = directory) list with
    | none => state
    | some updated => { state with workingDirectories := some updated }

/-- `list.filterIndexed { index, _ -> index != idx }`. -/
def withoutIndex (list : List URI) (idx : ℕ) : List URI :=
  (list.zipIdx.filter fun (_, index) => index ≠ idx).map Prod.fst

/-- The list with the directory at `idx` replaced and the replacement nowhere else. -/
def replaceAt (list : List URI) (idx : ℕ) (replacement : URI) : List URI :=
  list.zipIdx.filterMap fun (directory, index) =>
    if index = idx then some replacement
    else if directory = replacement then none
    else some directory

/-- `session/workingDirectoryReplaced`. -/
def workingDirectoryReplaced (state : SessionState Empty) (directory replacement : URI) :
    SessionState Empty :=
  match state.workingDirectories with
  | none => state
  | some list =>
    match list.findIdx? fun d => d = directory with
    | none => state
    | some idx =>
      let replacementIdx := list.findIdx? fun d => d = replacement
      if replacementIdx.any fun i => i < idx then
        { state with workingDirectories := some (withoutIndex list idx) }
      else { state with workingDirectories := some (replaceAt list idx replacement) }

/-- `session/inputNeededSet`. -/
def inputNeededSet (state : SessionState Empty) (request : SessionInputRequest Empty) :
    SessionState Empty :=
  match sessionInputRequestId request with
  | none => state
  | some id =>
    let list := state.inputNeeded.getD []
    let updated := upsertWhere (fun r => sessionInputRequestId r = some id) request list
    { state with inputNeeded := some updated, status := withInputNeededStatus state.status updated }

/-- `session/inputNeededRemoved`. -/
def inputNeededRemoved (state : SessionState Empty) (id : String) : SessionState Empty :=
  match state.inputNeeded with
  | none => state
  | some list =>
    match eraseWhere (fun r => sessionInputRequestId r = some id) list with
    | none => state
    | some updated =>
      { state with
        inputNeeded := if updated.isEmpty then none else some updated
        status := withInputNeededStatus state.status updated }

end Session

/-! ### The reducer -/

/-- `sessionReducer` on the actions of a session. -/
def sessionReducer (state : SessionState Empty) : SessionAction Empty → SessionState Empty
  | .ready => { state with lifecycle := .ready }
  | .creationFailed error => { state with lifecycle := .failed, creationError := some error }
  | .chatAdded summary => Session.chatAdded state summary
  | .chatRemoved chat => Session.chatRemoved state chat
  | .chatUpdated chat changes => Session.chatUpdated state chat changes
  | .defaultChatChanged defaultChat => { state with defaultChat := defaultChat }
  | .chatsReordered chats => Session.chatsReordered state chats
  | .titleChanged title => { state with title := title }
  | .isReadChanged value => { state with status := withStatusFlag state.status isRead value }
  | .isArchivedChanged value => { state with status := withStatusFlag state.status isArchived value }
  | .activityChanged activity => { state with activity := activity }
  | .changesetsChanged changesets => { state with changesets := changesets }
  | .configChanged a => Session.configChanged state a
  | .metaChanged _meta => { state with _meta := _meta }
  | .serverToolsChanged tools => { state with serverTools := some tools }
  | .activeClientSet client => Session.activeClientSet state client
  | .activeClientRemoved clientId => Session.activeClientRemoved state clientId
  | .workingDirectorySet directory => Session.workingDirectorySet state directory
  | .workingDirectoryRemoved directory => Session.workingDirectoryRemoved state directory
  | .workingDirectoryReplaced directory replacement =>
    Session.workingDirectoryReplaced state directory replacement
  | .inputNeededSet request => Session.inputNeededSet state request
  | .inputNeededRemoved id => Session.inputNeededRemoved state id
  | .customizationsChanged customizations => { state with customizations := some customizations }
  | .customizationToggled id enablement => Session.customizationToggled state id enablement
  | .customizationUpdated customization => Session.customizationUpdated state customization
  | .customizationRemoved id => Session.customizationRemoved state id
  | .mcpServerStateChanged a =>
    Session.updateMcpServerCustomizationState state a.id a.state a.channel
  | .mcpServerStartRequested id =>
    Session.updateMcpServerCustomizationState state id (.starting none) none
  | .mcpServerBackgroundRequested id => Session.mcpServerBackgroundRequested state id
  | .mcpServerStopRequested id => Session.updateMcpServerCustomizationState state id .stopped none

end AgentHostProtocol.Kotlin
