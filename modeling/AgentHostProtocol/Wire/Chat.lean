import AgentHostProtocol.Wire.ToolCall

/-!
# Chat state

The state of a chat channel: completed turns, the active turn with its response
parts, pending messages and the denormalized summary fields.
-/

namespace AgentHostProtocol

open Library

variable (U : Type)

/-! ### Response parts -/

/-- A markdown part, the target of `chat/delta`. -/
structure MarkdownResponsePart where
  id : String
  content : String
  deriving DecidableEq

/-- A reasoning part, the target of `chat/reasoning`. -/
structure ReasoningResponsePart where
  id : String
  content : String
  startedAt : Option String
  duration : Option ℤ
  deriving DecidableEq

/-- The payload of an input request. -/
structure ChatInputRequest where
  id : String
  message : Option String
  url : Option URI
  questions : Option (List Json)
  answers : Option (Record Json)
  deriving DecidableEq

/-- How a client completed an input request. -/
inductive ChatInputResponseKind where
  | accept
  | decline
  | cancel
  deriving DecidableEq

/-- A live or resolved input request; `response` is absent until it is completed. -/
structure InputRequestResponsePart where
  request : ChatInputRequest
  response : Option ChatInputResponseKind
  deriving DecidableEq

/-- An error at which the turn stopped. -/
structure ErrorResponsePart where
  error : ErrorInfo
  resumable : Option Bool
  deriving DecidableEq

/-- One part of a response, in stream order. -/
inductive ResponsePart where
  | markdown (part : MarkdownResponsePart)
  | contentRef (ref : Json)
  | toolCall (toolCall : ToolCallState U)
  | reasoning (part : ReasoningResponsePart)
  | systemNotification (notification : Json)
  | inputRequest (part : InputRequestResponsePart)
  | error (part : ErrorResponsePart)
  | unknown (raw : U)
  deriving DecidableEq

/-- The discriminant of a response part. -/
inductive ResponsePartKind where
  | markdown
  | contentRef
  | toolCall
  | reasoning
  | systemNotification
  | inputRequest
  | error
  deriving DecidableEq

/-! ### Turns -/

/-- How a turn ended. -/
inductive TurnState where
  | complete
  | cancelled
  | error
  deriving DecidableEq

/-- A completed request/response cycle. -/
structure Turn where
  id : String
  startedAt : Option String
  duration : Option ℤ
  message : Message
  responseParts : List (ResponsePart U)
  usage : Option UsageInfo
  state : TurnState
  deriving DecidableEq

/-- The turn in progress. -/
structure ActiveTurn where
  id : String
  startedAt : String
  message : Message
  responseParts : List (ResponsePart U)
  usage : Option UsageInfo
  deriving DecidableEq

/-! ### Pending messages, background work, configuration -/

/-- Delivery kind of a pending message. -/
inductive PendingMessageKind where
  | steering
  | queued
  deriving DecidableEq

/-- A message queued for future delivery; an absent kind means `queued`. -/
structure PendingMessage where
  id : String
  kind : Option PendingMessageKind
  message : Message
  deriving DecidableEq

/-- Fields common to every background work variant. -/
structure BackgroundWorkBase where
  id : String
  label : String
  startedAt : String
  _meta : Option Meta
  deriving DecidableEq

/-- Work running in the background of a chat. -/
inductive BackgroundWork where
  | shell (base : BackgroundWorkBase) (command : String) (terminal : Option URI)
  | subagent (base : BackgroundWorkBase) (chat : URI)
  | unknown (raw : U)
  deriving DecidableEq

/-- A chat's configuration. -/
structure ChatConfigState where
  schema : Option Json
  values : Record Json
  deriving DecidableEq

/-! ### The chat -/

/-- Full state of a single chat. -/
structure ChatState where
  resource : URI
  title : String
  status : SessionStatus
  activity : Option String
  modifiedAt : String
  changes : Option Json
  origin : Option Json
  movable : Option Bool
  interactivity : Option Json
  provider : Option String
  workingDirectories : Option (List URI)
  changesets : Option (List Json)
  backgroundWork : Option (List (BackgroundWork U))
  canvases : Option (List Json)
  config : Option ChatConfigState
  /-- Completed turns. -/
  turns : List (Turn U)
  turnsNextCursor : Option String
  /-- The turn in progress. -/
  activeTurn : Option (ActiveTurn U)
  steeringMessage : Option PendingMessage
  queuedMessages : Option (List PendingMessage)
  draft : Option Message
  _meta : Option Meta
  deriving DecidableEq

variable {U}

/-- A chat without turns. -/
def ChatState.new (resource : URI) (title modifiedAt : String) : ChatState U where
  resource := resource
  title := title
  status := SessionStatus.idle
  activity := none
  modifiedAt := modifiedAt
  changes := none
  origin := none
  movable := none
  interactivity := none
  provider := none
  workingDirectories := none
  changesets := none
  backgroundWork := none
  canvases := none
  config := none
  turns := []
  turnsNextCursor := none
  activeTurn := none
  steeringMessage := none
  queuedMessages := none
  draft := none
  _meta := none

/-- The id of a background work entry. -/
def BackgroundWork.id? [RawId U] : BackgroundWork U → Option String
  | .shell base _ _ | .subagent base _ => some base.id
  | .unknown raw => RawId.id? raw

end AgentHostProtocol
