import AgentHostProtocol.Library.Lists
import AgentHostProtocol.Library.Ref
import AgentHostProtocol.Rust.Chat
import AgentHostProtocol.Wire.Session

/-!
# The Rust session reducer

`applyActionToSession` and its helpers. A helper that mutates what it is given and
returns whether it did is a function to an option. A mutable reference is a `Ref`.
-/

namespace AgentHostProtocol.Rust.Session

open Library SessionStatus

variable {U : Type}

/-! ### Status -/

/-- `awaits_user`. -/
def awaitsUser : SessionInputRequest U → Bool
  | .toolClientExecution _ _ _ _ => false
  | _ => true

/-- `with_input_needed_status`. -/
def withInputNeededStatus (status : SessionStatus) (list : List (SessionInputRequest U)) :
    SessionStatus :=
  if list.any awaitsUser then status &&& ~~~activityMask ||| inputNeeded
  else status &&& ~~~(inputNeeded &&& ~~~inProgress)

/-! ### Ids -/

/-- `customization_id`: an unknown customization has none. -/
def customizationId : Customization U → Option String
  | .plugin p => some p.id
  | .directory d => some d.id
  | .mcpServer m => some m.id
  | .unknown _ => none

/-- `session_input_request_id`. -/
def inputRequestId [RawId U] : SessionInputRequest U → Option String
  | .chatInput x _ | .toolConfirmation x _ _ | .toolClientExecution x _ _ _
  | .toolAuthentication x _ _ => some x.id
  | .unknown raw => RawId.id? raw

/-- `child_id_of`. -/
def childIdOf : ChildCustomization U → Option String
  | .agent x => some x.id
  | .skill x => some x.id
  | .prompt x => some x.id
  | .rule x => some x.id
  | .hook x => some x.id
  | .mcpServer x => some x.id
  | .unknown _ => none

/-! ### Customizations -/

/-- `container_children_mut`. -/
def containerChildren : Customization U →
    Option (Ref (Customization U) (List (ChildCustomization U)))
  | .plugin p => p.children.map fun children => ⟨children, fun l => .plugin { p with children := some l }⟩
  | .directory d =>
    d.children.map fun children => ⟨children, fun l => .directory { d with children := some l }⟩
  | .mcpServer _ | .unknown _ => none

/-- `effective_enablement`. -/
def effectiveEnablement (enablement : List (CustomizationEnablement U)) : Bool :=
  match enablement.head? with
  | some (.global enabled) => enabled
  | some (.workspace _ enabled) => enabled
  | some (.session enabled) => enabled
  | some (.unknown _) => false
  | none => true

/-- The decisions, if there are any. -/
def provenance (enablement : List (CustomizationEnablement U)) :
    Option (List (CustomizationEnablement U)) :=
  if enablement.isEmpty then none else some enablement

/-- `apply_container_enablement`. -/
def applyContainerEnablement (enablement : List (CustomizationEnablement U)) :
    Customization U → Customization U
  | .plugin p => .plugin { p with enablement := provenance enablement }
  | .directory d => .directory { d with enabled := effectiveEnablement enablement }
  | .mcpServer m => .mcpServer { m with enablement := provenance enablement }
  | .unknown raw => .unknown raw

/-- `apply_child_enablement`. -/
def applyChildEnablement (enablement : List (CustomizationEnablement U)) :
    ChildCustomization U → ChildCustomization U
  | .agent x => .agent { x with enabled := some (effectiveEnablement enablement) }
  | .skill x => .skill { x with enabled := some (effectiveEnablement enablement) }
  | .prompt x => .prompt { x with enabled := some (effectiveEnablement enablement) }
  | .rule x => .rule { x with enabled := some (effectiveEnablement enablement) }
  | .hook x => .hook { x with enabled := some (effectiveEnablement enablement) }
  | .mcpServer x => .mcpServer { x with enablement := provenance enablement }
  | .unknown raw => .unknown raw

/-- `toggle_mcp_server_skill`. -/
def toggleMcpServerSkill (server : McpServerCustomization U) (id : String)
    (enablement : List (CustomizationEnablement U)) : Option (McpServerCustomization U) :=
  server.children.bind fun skills =>
    (Ref.find? (fun skill => skill.id = id) skills).map fun skill =>
      { server with
        children := some (skill.modify fun skill =>
          { skill with enabled := some (effectiveEnablement enablement) }) }

/-- The inner loop of `apply_toggle`: an MCP server among the children. -/
def toggleChild (id : String) (enablement : List (CustomizationEnablement U)) :
    ChildCustomization U → Option (ChildCustomization U)
  | .mcpServer server => (toggleMcpServerSkill server id enablement).map .mcpServer
  | _ => none

/-- The outer loop of `apply_toggle` on a container that is not an MCP server. -/
def toggleChildren (container : Customization U) (id : String)
    (enablement : List (CustomizationEnablement U)) : Option (Customization U) :=
  (containerChildren container).bind fun children =>
    match Ref.find? (fun c => childIdOf c = some id) children.value with
    | some child => some (children.write (child.modify (applyChildEnablement enablement)))
    | none => (updateFirst (toggleChild id enablement) children.value).map children.write

/-- The outer loop of `apply_toggle`: one container. -/
def toggleContainer (id : String) (enablement : List (CustomizationEnablement U)) :
    Customization U → Option (Customization U)
  | .mcpServer server => (toggleMcpServerSkill server id enablement).map .mcpServer
  | container => toggleChildren container id enablement

/-- `apply_toggle`. -/
def applyToggle (list : List (Customization U)) (id : String)
    (enablement : List (CustomizationEnablement U)) : Option (List (Customization U)) :=
  match Ref.find? (fun c => customizationId c = some id) list with
  | some container => some (container.modify (applyContainerEnablement enablement))
  | none => updateFirst (toggleContainer id enablement) list

/-- `session/customizationToggled`. -/
def customizationToggled (state : SessionState U) (id : String)
    (enablement : List (CustomizationEnablement U)) : ReduceOutcome × SessionState U :=
  match state.customizations with
  | none => (.noOp, state)
  | some list =>
    match applyToggle list id enablement with
    | some list => (.applied, { state with customizations := some list })
    | none => (.noOp, state)

/-- `session/customizationUpdated`: the list is created before the id is looked at. -/
def customizationUpdated (state : SessionState U) (customization : Customization U) :
    ReduceOutcome × SessionState U :=
  let list := state.customizations.getD []
  let state : SessionState U := { state with customizations := some list }
  match customizationId customization with
  | none => (.noOp, state)
  | some actionId =>
    (.applied,
      { state with
        customizations :=
          some (upsertWhere (fun c => customizationId c = some actionId) customization list) })

/-- The loop of `session/customizationRemoved`: one container. -/
def removeChild (id : String) (container : Customization U) : Option (Customization U) :=
  (containerChildren container).bind fun children =>
    (eraseWhere (fun c => childIdOf c = some id) children.value).map children.write

/-- `session/customizationRemoved`. -/
def customizationRemoved (state : SessionState U) (id : String) : ReduceOutcome × SessionState U :=
  match state.customizations with
  | none => (.noOp, state)
  | some list =>
    match eraseWhere (fun c => customizationId c = some id) list with
    | some list => (.applied, { state with customizations := some list })
    | none =>
      match updateFirst (removeChild id) list with
      | some list => (.applied, { state with customizations := some list })
      | none => (.noOp, state)

/-! ### MCP servers -/

/-- The first child of the id in a container. -/
def findChild (id : String) (container : Customization U) :
    Option (Ref (Customization U) (ChildCustomization U)) :=
  (containerChildren container).bind fun children =>
    (Ref.find? (fun c => childIdOf c = some id) children.value).map children.comp

/-- The loop of `find_mcp_server_customization_mut` over the containers. It stops at the
first child with the id. -/
def findMcpServerChild (id : String) : List (Customization U) →
    Option (Ref (List (Customization U)) (McpServerCustomization U))
  | [] => none
  | container :: list =>
    match findChild id container with
    | none => (findMcpServerChild id list).map (Ref.comp ⟨list, fun list => container :: list⟩)
    | some child =>
      match child.value with
      | .mcpServer m => some ⟨m, fun m => child.write (.mcpServer m) :: list⟩
      | _ => none

/-- `state.customizations.as_mut()`. -/
def customizationsMut (state : SessionState U) :
    Option (Ref (SessionState U) (List (Customization U))) :=
  state.customizations.map fun list => ⟨list, fun list => { state with customizations := some list }⟩

/-- `find_mcp_server_customization_mut`. -/
def findMcpServerCustomization (state : SessionState U) (id : String) :
    Option (Ref (SessionState U) (McpServerCustomization U)) :=
  (customizationsMut state).bind fun list =>
    match Ref.find? (fun c => customizationId c = some id) list.value with
    | some entry =>
      match entry.value with
      | .mcpServer m => some (list.comp ⟨m, fun m => entry.write (.mcpServer m)⟩)
      | _ => none
    | none => (findMcpServerChild id list.value).map list.comp

theorem containerChildren_lawful {c : Customization U}
    {r : Ref (Customization U) (List (ChildCustomization U))} (h : containerChildren c = some r) :
    r.Lawful c := by
  cases c with
  | plugin p =>
    obtain ⟨children, hchildren, rfl⟩ := Option.map_eq_some_iff.mp h
    show Customization.plugin { p with children := some children } = _
    rw [← hchildren]
  | directory d =>
    obtain ⟨children, hchildren, rfl⟩ := Option.map_eq_some_iff.mp h
    show Customization.directory { d with children := some children } = _
    rw [← hchildren]
  | _ => cases h

theorem findChild_lawful {id : String} {c : Customization U}
    {r : Ref (Customization U) (ChildCustomization U)} (h : findChild id c = some r) :
    r.Lawful c := by
  obtain ⟨children, hchildren, h⟩ := Option.bind_eq_some_iff.mp h
  obtain ⟨child, hchild, rfl⟩ := Option.map_eq_some_iff.mp h
  exact (containerChildren_lawful hchildren).comp (Ref.find?_lawful hchild)

theorem findMcpServerChild_lawful {id : String} {l : List (Customization U)}
    {r : Ref (List (Customization U)) (McpServerCustomization U)}
    (h : findMcpServerChild id l = some r) : r.Lawful l := by
  induction l generalizing r with
  | nil => cases h
  | cons c l ih =>
    unfold findMcpServerChild at h
    cases hchild : findChild id c with
    | none =>
      rw [hchild] at h
      obtain ⟨q, hq, rfl⟩ := Option.map_eq_some_iff.mp h
      exact Ref.Lawful.comp rfl (ih hq)
    | some child =>
      simp only [hchild] at h
      split at h
      · next m hm =>
        cases h
        show child.write (.mcpServer m) :: l = c :: l
        rw [← hm, findChild_lawful hchild]
      · cases h

theorem customizationsMut_lawful {s : SessionState U}
    {r : Ref (SessionState U) (List (Customization U))} (h : customizationsMut s = some r) :
    r.Lawful s := by
  obtain ⟨l, hl, rfl⟩ := Option.map_eq_some_iff.mp h
  show { s with customizations := some l } = s
  rw [← hl]

theorem findMcpServerCustomization_lawful {s : SessionState U} {id : String}
    {r : Ref (SessionState U) (McpServerCustomization U)}
    (h : findMcpServerCustomization s id = some r) : r.Lawful s := by
  obtain ⟨list, hlist, h⟩ := Option.bind_eq_some_iff.mp h
  have hs := customizationsMut_lawful hlist
  split at h
  · next entry hentry =>
    split at h
    · next m hm =>
      cases h
      refine hs.comp ?_
      show entry.write (.mcpServer m) = list.value
      rw [← hm, Ref.find?_lawful hentry]
    · cases h
  · obtain ⟨q, hq, rfl⟩ := Option.map_eq_some_iff.mp h
    exact hs.comp (findMcpServerChild_lawful hq)

/-- `update_mcp_server_customization_state`. -/
def updateMcpServerCustomizationState (state : SessionState U) (id : String)
    (nextState : McpServerState U) (channel : Option URI) : ReduceOutcome × SessionState U :=
  match findMcpServerCustomization state id with
  | none => (.noOp, state)
  | some m => (.applied, m.modify fun m => { m with state := nextState, channel := channel })

/-- `session/mcpServerBackgroundRequested`. -/
def mcpServerBackgroundRequested (state : SessionState U) (id : String) :
    ReduceOutcome × SessionState U :=
  match findMcpServerCustomization state id with
  | none => (.noOp, state)
  | some m =>
    match m.value.state with
    | .starting (some true) =>
      (.applied, m.modify fun m => { m with state := .starting (some false) })
    | _ => (.noOp, state)

/-! ### The chat catalogue -/

/-- `session/chatAdded`. -/
def chatAdded (state : SessionState U) (summary : ChatSummary) : ReduceOutcome × SessionState U :=
  (.applied,
    { state with chats := upsertWhere (fun chat => chat.resource = summary.resource) summary state.chats })

/-- `session/chatRemoved`. -/
def chatRemoved (state : SessionState U) (chat : URI) : ReduceOutcome × SessionState U :=
  match eraseWhere (fun c => c.resource = chat) state.chats with
  | none => (.noOp, state)
  | some chats =>
    (.applied,
      { state with
        chats := chats
        defaultChat := if state.defaultChat = some chat then none else state.defaultChat })

/-- `session/chatUpdated` on the summary, field by field. -/
def applyChanges (changes : PartialChatSummary) (chat : ChatSummary) : ChatSummary :=
  { chat with
    title := changes.title.getD chat.title
    status := changes.status.getD chat.status
    activity := changes.activity.or chat.activity
    modifiedAt := changes.modifiedAt.getD chat.modifiedAt
    changes := changes.changes.or chat.changes
    origin := changes.origin.or chat.origin
    workingDirectories := changes.workingDirectories.or chat.workingDirectories }

/-- `session/chatUpdated`. -/
def chatUpdated (state : SessionState U) (chat : URI) (changes : PartialChatSummary) :
    ReduceOutcome × SessionState U :=
  match Ref.find? (fun c => c.resource = chat) state.chats with
  | none => (.noOp, state)
  | some chat => (.applied, { state with chats := chat.modify (applyChanges changes) })

/-- `session/chatsReordered`. -/
def chatsReordered (state : SessionState U) (chats : List URI) : ReduceOutcome × SessionState U :=
  if chats.length ≠ state.chats.length ∨ chats.dedup.length ≠ state.chats.length then (.noOp, state)
  else if (chats.zip state.chats).all fun (resource, summary) => resource = summary.resource then
    (.noOp, state)
  else
    match chats.mapM fun resource => state.chats.find? fun chat => chat.resource = resource with
    | none => (.noOp, state)
    | some reordered => (.applied, { state with chats := reordered })

/-! ### Other fields -/

/-- `session/configChanged`. -/
def configChanged (state : SessionState U) (a : SessionConfigChangedAction) :
    ReduceOutcome × SessionState U :=
  match state.config with
  | none => (.noOp, state)
  | some config =>
    let values := if a.replace.getD false then a.config else config.values.merge a.config
    (.applied, { state with config := some { config with values := values } })

/-- `session/activeClientSet`. -/
def activeClientSet (state : SessionState U) (activeClient : SessionActiveClient) :
    ReduceOutcome × SessionState U :=
  (.applied,
    { state with
      activeClients :=
        upsertWhere (fun c => c.clientId = activeClient.clientId) activeClient state.activeClients })

/-- `session/activeClientRemoved`. -/
def activeClientRemoved (state : SessionState U) (clientId : String) :
    ReduceOutcome × SessionState U :=
  match eraseWhere (fun c => c.clientId = clientId) state.activeClients with
  | none => (.noOp, state)
  | some activeClients => (.applied, { state with activeClients := activeClients })

/-- `session/workingDirectorySet`: the list is created before the lookup. -/
def workingDirectorySet (state : SessionState U) (directory : URI) : ReduceOutcome × SessionState U :=
  let list := state.workingDirectories.getD []
  let state : SessionState U := { state with workingDirectories := some list }
  if directory ∈ list then (.noOp, state)
  else (.applied, { state with workingDirectories := some (list ++ [directory]) })

/-- `session/workingDirectoryRemoved`. -/
def workingDirectoryRemoved (state : SessionState U) (directory : URI) :
    ReduceOutcome × SessionState U :=
  match state.workingDirectories with
  | none => (.noOp, state)
  | some list =>
    match eraseWhere (fun d => d = directory) list with
    | none => (.noOp, state)
    | some list => (.applied, { state with workingDirectories := some list })

/-- The list with the directory at `idx` replaced and the replacement nowhere else. -/
def replaceAt (list : List URI) (idx : ℕ) (replacement : URI) : List URI :=
  list.zipIdx.filterMap fun (directory, i) =>
    if i = idx then some replacement
    else if directory ≠ replacement then some directory
    else none

/-- `session/workingDirectoryReplaced`. -/
def workingDirectoryReplaced (state : SessionState U) (directory replacement : URI) :
    ReduceOutcome × SessionState U :=
  match state.workingDirectories with
  | none => (.noOp, state)
  | some list =>
    match list.findIdx? fun d => d = directory with
    | none => (.noOp, state)
    | some idx =>
      if (list.take idx).any fun d => d = replacement then
        (.applied, { state with workingDirectories := some (list.eraseIdx idx) })
      else
        (.applied, { state with workingDirectories := some (replaceAt list idx replacement) })

/-- `session/inputNeededSet`. -/
def inputNeededSet [RawId U] (state : SessionState U) (request : SessionInputRequest U) :
    ReduceOutcome × SessionState U :=
  match inputRequestId request with
  | none => (.noOp, state)
  | some actionId =>
    let list :=
      upsertWhere (fun r => inputRequestId r = some actionId) request (state.inputNeeded.getD [])
    (.applied,
      { state with
        inputNeeded := some list
        status := withInputNeededStatus state.status list })

/-- `session/inputNeededRemoved`. -/
def inputNeededRemoved [RawId U] (state : SessionState U) (id : String) :
    ReduceOutcome × SessionState U :=
  match state.inputNeeded with
  | none => (.noOp, state)
  | some list =>
    match eraseWhere (fun r => inputRequestId r = some id) list with
    | none => (.noOp, state)
    | some list =>
      let inputNeeded := if list.isEmpty then none else some list
      (.applied,
        { state with
          inputNeeded := inputNeeded
          status := withInputNeededStatus state.status (inputNeeded.getD []) })

/-! ### The reducer -/

/-- `apply_action_to_session` on the actions of a session. -/
def applySessionAction [RawId U] (state : SessionState U) :
    SessionAction U → ReduceOutcome × SessionState U
  | .ready => (.applied, { state with lifecycle := .ready })
  | .creationFailed error =>
    (.applied, { state with lifecycle := .failed, creationError := some error })
  | .chatAdded summary => chatAdded state summary
  | .chatRemoved chat => chatRemoved state chat
  | .chatUpdated chat changes => chatUpdated state chat changes
  | .defaultChatChanged defaultChat => (.applied, { state with defaultChat := defaultChat })
  | .chatsReordered chats => chatsReordered state chats
  | .titleChanged title => (.applied, { state with title := title })
  | .isReadChanged value =>
    (.applied, { state with status := withStatusFlag state.status isRead value })
  | .isArchivedChanged value =>
    (.applied, { state with status := withStatusFlag state.status isArchived value })
  | .activityChanged activity => (.applied, { state with activity := activity })
  | .changesetsChanged changesets => (.applied, { state with changesets := changesets })
  | .configChanged a => configChanged state a
  | .metaChanged _meta => (.applied, { state with _meta := _meta })
  | .serverToolsChanged tools => (.applied, { state with serverTools := some tools })
  | .activeClientSet activeClient => activeClientSet state activeClient
  | .activeClientRemoved clientId => activeClientRemoved state clientId
  | .workingDirectorySet directory => workingDirectorySet state directory
  | .workingDirectoryRemoved directory => workingDirectoryRemoved state directory
  | .workingDirectoryReplaced directory replacement =>
    workingDirectoryReplaced state directory replacement
  | .inputNeededSet request => inputNeededSet state request
  | .inputNeededRemoved id => inputNeededRemoved state id
  | .customizationsChanged customizations =>
    (.applied, { state with customizations := some customizations })
  | .customizationToggled id enablement => customizationToggled state id enablement
  | .customizationUpdated customization => customizationUpdated state customization
  | .customizationRemoved id => customizationRemoved state id
  | .mcpServerStateChanged a => updateMcpServerCustomizationState state a.id a.state a.channel
  | .mcpServerStartRequested id =>
    updateMcpServerCustomizationState state id (.starting none) none
  | .mcpServerBackgroundRequested id => mcpServerBackgroundRequested state id
  | .mcpServerStopRequested id => updateMcpServerCustomizationState state id .stopped none

end AgentHostProtocol.Rust.Session
