import AgentHostProtocol.Wire.Chat

/-!
# Session state

The state of a session channel: lifecycle, chat catalogue, active clients, the queue of
requests that need input, and the tree of customizations; and the actions of the channel.

Customizations form three levels: containers, their children, and the skills that an
MCP server serves. An MCP server occurs on the first two.
-/

namespace AgentHostProtocol

open Library

variable (U : Type)

/-! ### Customizations -/

/-- One decision on whether a customization is enabled. -/
inductive CustomizationEnablement where
  | global (enabled : Bool)
  | workspace (uri : URI) (enabled : Bool)
  | session (enabled : Bool)
  | unknown (raw : U)
  deriving DecidableEq

/-- Fields common to every customization. -/
structure CustomizationBase where
  id : String
  uri : URI
  name : String
  icons : Option (List Json)
  range : Option Json
  _meta : Option Meta
  deriving DecidableEq

/-- Fields common to the children of containers. -/
structure ChildCustomizationBase extends CustomizationBase where
  enabled : Option Bool
  deriving DecidableEq

/-- A custom agent. -/
structure AgentCustomization extends ChildCustomizationBase where
  description : Option String
  model : Option String
  tools : Option (List String)
  disableModelInvocation : Option Bool
  disableUserInvocation : Option Bool
  deriving DecidableEq

/-- A skill. -/
structure SkillCustomization extends ChildCustomizationBase where
  description : Option String
  disableModelInvocation : Option Bool
  disableUserInvocation : Option Bool
  deriving DecidableEq

/-- A prompt. -/
structure PromptCustomization extends ChildCustomizationBase where
  description : Option String
  deriving DecidableEq

/-- A rule. -/
structure RuleCustomization extends ChildCustomizationBase where
  description : Option String
  alwaysApply : Option Bool
  globs : Option (List String)
  deriving DecidableEq

/-- A hook. -/
structure HookCustomization extends ChildCustomizationBase
  deriving DecidableEq

/-- The state of an MCP server. -/
inductive McpServerState where
  | starting (blocking : Option Bool)
  | ready
  | authRequired (requirement : Json)
  | error (error : ErrorInfo)
  | stopped
  | unknown (raw : U)
  deriving DecidableEq

/-- An MCP server with the skills it serves. -/
structure McpServerCustomization extends CustomizationBase where
  enablement : Option (List (CustomizationEnablement U))
  state : McpServerState U
  channel : Option URI
  mcpApp : Option Json
  children : Option (List SkillCustomization)
  deriving DecidableEq

/-- A child of a container. -/
inductive ChildCustomization where
  | agent (c : AgentCustomization)
  | skill (c : SkillCustomization)
  | prompt (c : PromptCustomization)
  | rule (c : RuleCustomization)
  | hook (c : HookCustomization)
  | mcpServer (c : McpServerCustomization U)
  | unknown (raw : U)
  deriving DecidableEq

/-- Fields of the customizations that have children. -/
structure ContainerCustomizationBase extends CustomizationBase where
  clientId : Option String
  load : Option Json
  children : Option (List (ChildCustomization U))
  deriving DecidableEq

/-- A plugin. -/
structure PluginCustomization extends ContainerCustomizationBase U where
  enablement : Option (List (CustomizationEnablement U))
  version : Option String
  deriving DecidableEq

/-- A directory of customizations. -/
structure DirectoryCustomization extends ContainerCustomizationBase U where
  enabled : Bool
  contents : Json
  writable : Bool
  deriving DecidableEq

/-- A customization at the top of the tree. -/
inductive Customization where
  | plugin (c : PluginCustomization U)
  | directory (c : DirectoryCustomization U)
  | mcpServer (c : McpServerCustomization U)
  | unknown (raw : U)
  deriving DecidableEq

/-! ### The chat catalogue -/

/-- Catalogue entry of a chat. -/
structure ChatSummary where
  resource : URI
  title : String
  status : SessionStatus
  activity : Option String
  modifiedAt : String
  changes : Option Json
  origin : Option Json
  movable : Option Bool
  interactivity : Option Json
  provider : Option String
  workingDirectories : Option (List URI)
  deriving DecidableEq

/-- `Partial<ChatSummary>`. -/
structure PartialChatSummary where
  resource : Option URI
  title : Option String
  status : Option SessionStatus
  activity : Option String
  modifiedAt : Option String
  changes : Option Json
  origin : Option Json
  movable : Option Bool
  interactivity : Option Json
  provider : Option String
  workingDirectories : Option (List URI)
  deriving DecidableEq

/-! ### Requests for input -/

/-- Fields common to every entry of the input queue. -/
structure SessionInputRequestBase where
  id : String
  chat : URI
  deriving DecidableEq

/-- An entry of the input queue. -/
inductive SessionInputRequest where
  | chatInput (base : SessionInputRequestBase) (request : ChatInputRequest)
  | toolConfirmation (base : SessionInputRequestBase) (turnId : String) (toolCall : Json)
  | toolClientExecution (base : SessionInputRequestBase) (turnId clientId : String) (toolCall : Json)
  | toolAuthentication (base : SessionInputRequestBase) (turnId : String) (toolCall : Json)
  | unknown (raw : U)
  deriving DecidableEq

/-! ### The session -/

/-- Lifecycle of a session. -/
inductive SessionLifecycle where
  | creating
  | ready
  | failed
  deriving DecidableEq

/-- A client attached to a session. -/
structure SessionActiveClient where
  clientId : String
  displayName : Option String
  tools : List Json
  customizations : Option (List Json)
  deriving DecidableEq

/-- A session's configuration. -/
structure SessionConfigState where
  schema : Json
  values : Record Json
  deriving DecidableEq

/-- Full state of a session. -/
structure SessionState where
  provider : String
  title : String
  status : SessionStatus
  activity : Option String
  origin : Option Json
  project : Option Json
  workingDirectories : Option (List URI)
  annotations : Option Json
  lifecycle : SessionLifecycle
  creationError : Option ErrorInfo
  serverTools : Option (List Json)
  activeClients : List SessionActiveClient
  chats : List ChatSummary
  defaultChat : Option URI
  config : Option SessionConfigState
  customizations : Option (List (Customization U))
  changesets : Option (List Json)
  inputNeeded : Option (List (SessionInputRequest U))
  _meta : Option Meta
  deriving DecidableEq

variable {U}

/-- A session that is being created. -/
def SessionState.new (provider title : String) : SessionState U where
  provider := provider
  title := title
  status := SessionStatus.idle
  activity := none
  origin := none
  project := none
  workingDirectories := none
  annotations := none
  lifecycle := .creating
  creationError := none
  serverTools := none
  activeClients := []
  chats := []
  defaultChat := none
  config := none
  customizations := none
  changesets := none
  inputNeeded := none
  _meta := none

/-! ### Actions -/

/-- `session/configChanged`. -/
structure SessionConfigChangedAction where
  config : Record Json
  replace : Option Bool

/-- `session/mcpServerStateChanged`. -/
structure SessionMcpServerStateChangedAction (U : Type) where
  id : String
  state : McpServerState U
  channel : Option URI

/-- The actions of a session channel. -/
inductive SessionAction (U : Type) where
  | ready
  | creationFailed (error : ErrorInfo)
  | chatAdded (summary : ChatSummary)
  | chatRemoved (chat : URI)
  | chatUpdated (chat : URI) (changes : PartialChatSummary)
  | defaultChatChanged (defaultChat : Option URI)
  | chatsReordered (chats : List URI)
  | titleChanged (title : String)
  | isReadChanged (isRead : Bool)
  | isArchivedChanged (isArchived : Bool)
  | activityChanged (activity : Option String)
  | changesetsChanged (changesets : Option (List Json))
  | configChanged (a : SessionConfigChangedAction)
  | metaChanged (_meta : Option Meta)
  | serverToolsChanged (tools : List Json)
  | activeClientSet (activeClient : SessionActiveClient)
  | activeClientRemoved (clientId : String)
  | workingDirectorySet (directory : URI)
  | workingDirectoryRemoved (directory : URI)
  | workingDirectoryReplaced (directory replacement : URI)
  | inputNeededSet (request : SessionInputRequest U)
  | inputNeededRemoved (id : String)
  | customizationsChanged (customizations : List (Customization U))
  | customizationToggled (id : String) (enablement : List (CustomizationEnablement U))
  | customizationUpdated (customization : Customization U)
  | customizationRemoved (id : String)
  | mcpServerStateChanged (a : SessionMcpServerStateChangedAction U)
  | mcpServerStartRequested (id : String)
  | mcpServerBackgroundRequested (id : String)
  | mcpServerStopRequested (id : String)

end AgentHostProtocol
