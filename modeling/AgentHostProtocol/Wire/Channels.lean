import AgentHostProtocol.Wire.Values

/-!
# The other channels

States and actions of the root, canvas, terminal, changeset, annotations, resource watch,
automation and automation run channels.
-/

namespace AgentHostProtocol

open Library

variable (U : Type)

/-! ### Root -/

/-- The configuration of the host. -/
structure RootConfigState where
  schema : Json
  values : Record Json
  deriving DecidableEq

/-- The state of a host. -/
structure RootState where
  agents : List Json
  activeSessions : Option ℤ
  terminals : Option (List Json)
  config : Option RootConfigState
  _meta : Option Meta
  deriving DecidableEq

/-- The actions of the root channel. -/
inductive RootAction where
  | agentsChanged (agents : List Json)
  | activeSessionsChanged (activeSessions : ℤ)
  | terminalsChanged (terminals : List Json)
  | configChanged (config : Record Json) (replace : Option Bool)

/-! ### Canvas -/

/-- The state of a canvas. -/
structure CanvasState where
  instanceId : String
  extensionId : String
  extensionName : Option String
  canvasId : String
  title : Option String
  status : Option String
  url : Option URI
  deriving DecidableEq

/-- The action of a canvas channel. -/
inductive CanvasAction where
  | stateChanged (canvas : CanvasState)

/-! ### Terminal -/

/-- Output of one command. -/
structure TerminalCommandPart where
  commandId : String
  commandLine : String
  output : String
  timestamp : ℤ
  isComplete : Bool
  exitCode : Option ℤ
  durationMs : Option ℤ
  deriving DecidableEq

/-- One part of the content of a terminal. -/
inductive TerminalContentPart where
  | unclassified (value : String)
  | command (part : TerminalCommandPart)
  | unknown (raw : U)
  deriving DecidableEq

/-- Whether the process of a terminal runs. -/
inductive TerminalLifecycleState where
  | running
  | exited (exitCode : Option ℤ)
  deriving DecidableEq

/-- The state of a terminal. -/
structure TerminalState where
  title : String
  cwd : Option URI
  cols : Option ℤ
  rows : Option ℤ
  content : List (TerminalContentPart U)
  lifecycle : TerminalLifecycleState
  claim : Json
  supportsCommandDetection : Option Bool
  isPty : Option Bool
  deriving DecidableEq

/-- The actions of a terminal channel. -/
inductive TerminalAction where
  | data (data : String)
  | input (data : String)
  | resized (cols rows : ℤ)
  | claimed (claim : Json)
  | titleChanged (title : String)
  | cwdChanged (cwd : URI)
  | exited (exitCode : Option ℤ)
  | cleared
  | commandDetectionAvailable
  | commandExecuted (commandId commandLine : String) (timestamp : ℤ)
  | commandFinished (commandId : String) (exitCode durationMs : Option ℤ)

/-! ### Changeset -/

/-- Status of a changeset. -/
inductive ChangesetStatus where
  | computing
  | recomputing
  | ready
  | error
  | unknown (raw : U)
  deriving DecidableEq

/-- A changed file. -/
structure ChangesetFile where
  id : String
  edit : Json
  reviewed : Option Bool
  _meta : Option Meta
  nonce : Option String
  isEditing : Option Bool
  deriving DecidableEq

/-- Status of an operation. -/
inductive ChangesetOperationStatus where
  | idle
  | running
  | error
  | disabled
  | unknown (raw : U)
  deriving DecidableEq

/-- An operation on a changeset. -/
structure ChangesetOperation where
  id : String
  label : String
  description : Option String
  scopes : List Json
  confirmation : Option StringOrMarkdown
  icon : Option String
  group : Option String
  status : ChangesetOperationStatus U
  error : Option ErrorInfo
  deriving DecidableEq

/-- The state of a changeset. -/
structure ChangesetState where
  status : ChangesetStatus U
  error : Option ErrorInfo
  files : List ChangesetFile
  operations : Option (List (ChangesetOperation U))
  deriving DecidableEq

/-- The actions of a changeset channel. -/
inductive ChangesetAction where
  | statusChanged (status : ChangesetStatus U) (error : Option ErrorInfo)
  | fileSet (file : ChangesetFile)
  | fileRemoved (fileId : String)
  | filesReviewChanged (files : List String) (reviewed : Bool)
  | contentChanged (files : List ChangesetFile) (operations : Option (List (ChangesetOperation U)))
  | operationsChanged (operations : Option (List (ChangesetOperation U)))
  | operationStatusChanged (operationId : String) (status : ChangesetOperationStatus U)
    (error : Option ErrorInfo)
  | cleared

/-! ### Annotations -/

/-- An entry of an annotation. -/
structure AnnotationEntry where
  id : String
  text : StringOrMarkdown
  _meta : Option Meta
  deriving DecidableEq

/-- A thread of entries on a resource. -/
structure AnnotationThread where
  id : String
  origin : Json
  resource : URI
  range : Option Json
  resolved : Bool
  entries : List AnnotationEntry
  _meta : Option Meta
  deriving DecidableEq

/-- The annotations of a session. -/
structure AnnotationsState where
  annotations : List AnnotationThread
  deriving DecidableEq

/-- `annotations/updated`. -/
structure AnnotationsUpdatedAction where
  annotationId : String
  origin : Option Json
  resource : Option URI
  range : Option Json
  resolved : Option Bool

/-- The actions of an annotations channel. -/
inductive AnnotationsAction where
  | set (thread : AnnotationThread)
  | updated (a : AnnotationsUpdatedAction)
  | removed (annotationId : String)
  | entrySet (annotationId : String) (entry : AnnotationEntry)
  | entryRemoved (annotationId entryId : String)

/-! ### Resource watch -/

/-- The state of a resource watch. -/
structure ResourceWatchState where
  root : URI
  recursive : Bool
  excludes : Option Json
  includes : Option Json
  deriving DecidableEq

/-- The action of a resource watch channel. -/
inductive ResourceWatchAction where
  | changed (changes : Json)

/-! ### Automations -/

/-- An automation. -/
structure AutomationEntry where
  resource : URI
  definition : Json
  nextRunAt : Option String
  runCount : Option ℤ
  runs : List Json
  runsNextCursor : Option String
  operations : List Json
  customizations : Option (List Json)
  createdAt : String
  modifiedAt : String
  _meta : Option Meta
  deriving DecidableEq

/-- The catalogue of automations. -/
structure AutomationState where
  entries : List AutomationEntry
  _meta : Option Meta
  deriving DecidableEq

/-- The actions of the automation channel. -/
inductive AutomationAction where
  | createRequested (resource : URI) (definition : Json)
  | updateRequested (resource : URI) (changes : Json)
  | set (automation : AutomationEntry)
  | removed (resource : URI)

/-- One run of an automation. -/
structure AutomationRunState where
  resource : URI
  automation : URI
  origin : Json
  lifecycle : Json
  sessions : List URI
  primarySession : Option URI
  _meta : Option Meta
  deriving DecidableEq

/-- The actions of an automation run channel. -/
inductive AutomationRunAction where
  | lifecycleChanged (lifecycle : Json)
  | sessionSet (session : URI)
  | sessionRemoved (session : URI)
  | primarySessionChanged (primarySession : Option URI)
  | cancelRequested

end AgentHostProtocol
