import AgentHostProtocol.Wire.Chat

/-!
# Chat actions

The actions of a chat channel, each with the data its reducer reads. The payload of
`chat/toolCallConfirmed` is the parameter `C` of the union: TypeScript has the union
of an approval and a denial, the generated SDKs one struct with all fields optional.
-/

namespace AgentHostProtocol

open Library

/-- Fields common to the tool call actions. -/
structure ToolCallActionBase where
  turnId : String
  toolCallId : String
  _meta : Option Meta

/-- `chat/turnStarted`. -/
structure ChatTurnStartedAction where
  turnId : String
  startedAt : String
  message : Message
  queuedMessageId : Option String

/-- `chat/delta`. -/
structure ChatDeltaAction where
  turnId : String
  partId : String
  content : String

/-- `chat/responsePart`. -/
structure ChatResponsePartAction (U : Type) where
  turnId : String
  part : ResponsePart U

/-- `chat/toolCallStart`. -/
structure ChatToolCallStartAction (U : Type) extends ToolCallActionBase where
  toolName : String
  displayName : String
  intention : Option String
  contributor : Option (ToolCallContributor U)

/-- `chat/toolCallDelta`. -/
structure ChatToolCallDeltaAction extends ToolCallActionBase where
  content : Option String
  invocationMessage : Option StringOrMarkdown

/-- `chat/toolCallReady`. -/
structure ChatToolCallReadyAction (U : Type) extends ToolCallActionBase where
  contributor : Option (ToolCallContributor U)
  intention : Option String
  invocationMessage : StringOrMarkdown
  toolInput : Option ToolInput
  confirmationTitle : Option StringOrMarkdown
  riskAssessment : Option Json
  edits : Option Json
  editable : Option Bool
  confirmed : Option (ToolCallConfirmationReason U)
  options : Option (List ConfirmationOption)

/-- `chat/toolCallConfirmed` with `approved: true`. -/
structure ChatToolCallApprovedAction (U : Type) extends ToolCallActionBase where
  confirmed : ToolCallConfirmationReason U
  editedToolInput : Option String
  selectedOptionId : Option String

/-- `chat/toolCallConfirmed` with `approved: false`. -/
structure ChatToolCallDeniedAction extends ToolCallActionBase where
  reason : ToolCallCancellationReason
  userSuggestion : Option Message
  reasonMessage : Option StringOrMarkdown
  selectedOptionId : Option String

/-- `chat/toolCallConfirmed`. -/
inductive ChatToolCallConfirmedAction (U : Type) where
  | approved (a : ChatToolCallApprovedAction U)
  | denied (a : ChatToolCallDeniedAction)

/-- The fields common to both variants. -/
def ChatToolCallConfirmedAction.toToolCallActionBase {U : Type} :
    ChatToolCallConfirmedAction U → ToolCallActionBase
  | .approved a => a.toToolCallActionBase
  | .denied a => a.toToolCallActionBase

/-- `chat/toolCallComplete`. -/
structure ChatToolCallCompleteAction extends ToolCallActionBase where
  result : ToolCallResult
  requiresResultConfirmation : Option Bool

/-- `chat/toolCallResultConfirmed`. -/
structure ChatToolCallResultConfirmedAction extends ToolCallActionBase where
  approved : Bool

/-- `chat/toolCallContentChanged`. -/
structure ChatToolCallContentChangedAction extends ToolCallActionBase where
  content : List Json

/-- `chat/toolCallAuthRequired`. -/
structure ChatToolCallAuthRequiredAction extends ToolCallActionBase where
  auth : Json

/-- `chat/toolCallAuthResolved`. -/
structure ChatToolCallAuthResolvedAction extends ToolCallActionBase

/-- `chat/turnComplete` and `chat/turnCancelled`. -/
structure ChatTurnEndedAction where
  turnId : String
  duration : ℤ

/-- `chat/error`. -/
structure ChatErrorAction where
  turnId : String
  duration : ℤ
  part : ErrorResponsePart

/-- `chat/usage`. -/
structure ChatUsageAction where
  turnId : String
  usage : UsageInfo

/-- `chat/reasoning`. -/
structure ChatReasoningAction where
  turnId : String
  partId : String
  content : String
  startedAt : Option String
  duration : Option ℤ

/-- `chat/turnsLoaded`. -/
structure ChatTurnsLoadedAction (U : Type) where
  turns : List (Turn U)
  turnsNextCursor : Option String

/-- `chat/pendingMessageSet`. -/
structure ChatPendingMessageSetAction where
  kind : PendingMessageKind
  id : String
  message : Message

/-- `chat/pendingMessageRemoved`. -/
structure ChatPendingMessageRemovedAction where
  kind : PendingMessageKind
  id : String

/-- `chat/configChanged`. -/
structure ChatConfigChangedAction where
  config : Record Json
  replace : Option Bool

/-- `chat/moved`. -/
structure ChatMovedAction where
  session : URI
  provider : Option String
  schema : Option Json

/-- `chat/inputAnswerChanged`. -/
structure ChatInputAnswerChangedAction where
  requestId : String
  questionId : String
  answer : Option Json

/-- `chat/inputCompleted`. -/
structure ChatInputCompletedAction where
  requestId : String
  response : ChatInputResponseKind
  answers : Option (Record Json)

/-- The actions of a chat channel. -/
inductive ChatAction (U C : Type) where
  | turnStarted (a : ChatTurnStartedAction)
  | delta (a : ChatDeltaAction)
  | responsePart (a : ChatResponsePartAction U)
  | toolCallStart (a : ChatToolCallStartAction U)
  | toolCallDelta (a : ChatToolCallDeltaAction)
  | toolCallReady (a : ChatToolCallReadyAction U)
  | toolCallConfirmed (a : C)
  | toolCallComplete (a : ChatToolCallCompleteAction)
  | toolCallResultConfirmed (a : ChatToolCallResultConfirmedAction)
  | toolCallContentChanged (a : ChatToolCallContentChangedAction)
  | toolCallAuthRequired (a : ChatToolCallAuthRequiredAction)
  | toolCallAuthResolved (a : ChatToolCallAuthResolvedAction)
  | turnComplete (a : ChatTurnEndedAction)
  | turnCancelled (a : ChatTurnEndedAction)
  | error (a : ChatErrorAction)
  | turnResume (turnId : String)
  | activityChanged (activity : Option String)
  | backgroundWorkSet (work : BackgroundWork U)
  | backgroundWorkRemoved (id : String)
  | movableChanged (movable : Bool)
  | changesetsChanged (changesets : Option (List Json))
  | canvasesChanged (canvases : Option (List Json))
  | workingDirectorySet (directory : URI)
  | workingDirectoryRemoved (directory : URI)
  | usage (a : ChatUsageAction)
  | reasoning (a : ChatReasoningAction)
  | truncated (turnId : Option String)
  | turnsLoaded (a : ChatTurnsLoadedAction U)
  | pendingMessageSet (a : ChatPendingMessageSetAction)
  | pendingMessageRemoved (a : ChatPendingMessageRemovedAction)
  | queuedMessagesReordered (order : List String)
  | draftChanged (draft : Option Message)
  | isReadChanged (isRead : Bool)
  | isArchivedChanged (isArchived : Bool)
  | configChanged (a : ChatConfigChangedAction)
  | moved (a : ChatMovedAction)
  | inputRequested (request : ChatInputRequest)
  | inputAnswerChanged (a : ChatInputAnswerChangedAction)
  | inputCompleted (a : ChatInputCompletedAction)

end AgentHostProtocol
