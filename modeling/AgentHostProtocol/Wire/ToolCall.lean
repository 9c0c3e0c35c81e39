import AgentHostProtocol.Wire.Values

/-!
# Tool calls

The lifecycle states of a tool call. The base fields are shared by all of them; what
else a state has depends on its status.
-/

namespace AgentHostProtocol

variable (U : Type)

/-- Tool input represented inline or by reference. -/
inductive ToolInput where
  /-- Inline text. -/
  | inline (text : String)
  /-- A `ContentRef`. -/
  | contentRef (ref : Json)
  deriving DecidableEq

/-- How a tool call was confirmed for execution. -/
inductive ToolCallConfirmationReason where
  | notNeeded
  | userAction
  | setting
  | unknown (raw : U)
  deriving DecidableEq

/-- Why a tool call was cancelled. -/
inductive ToolCallCancellationReason where
  | denied
  | skipped
  | resultDenied
  deriving DecidableEq

/-- A confirmation option offered for a tool call awaiting approval. -/
structure ConfirmationOption where
  id : String
  label : String
  kind : Json
  group : Option ℤ
  deriving DecidableEq

/-- The source of a tool call's implementation: the client that executes it, or the
MCP server customization that contributes it. -/
inductive ToolCallContributor where
  | client (clientId : String)
  | mcp (customizationId : String)
  | unknown (raw : U)
  deriving DecidableEq

/-- Fields common to all tool call states. -/
structure ToolCallBase where
  toolCallId : String
  toolName : String
  displayName : String
  intention : Option String
  contributor : Option (ToolCallContributor U)
  _meta : Option Meta
  deriving DecidableEq

/-- Fields available once the parameters are fully received. -/
structure ToolCallParameterFields where
  invocationMessage : StringOrMarkdown
  toolInput : Option ToolInput
  deriving DecidableEq

/-- Fields of every state after confirmation has been resolved. -/
structure ToolCallPostConfirmationFields where
  confirmed : ToolCallConfirmationReason U
  selectedOption : Option ConfirmationOption
  deriving DecidableEq

/-- Execution result details. -/
structure ToolCallResult where
  success : Bool
  pastTenseMessage : StringOrMarkdown
  content : Option (List Json)
  structuredContent : Option Json
  resultMetadata : Option Json
  error : Option Json
  deriving DecidableEq

/-- The parameters are being streamed. -/
structure ToolCallStreamingState extends ToolCallBase U where
  partialInput : Option String
  invocationMessage : Option StringOrMarkdown
  deriving DecidableEq

/-- Waiting for the client to confirm the parameters. -/
structure ToolCallPendingConfirmationState extends ToolCallBase U, ToolCallParameterFields where
  confirmationTitle : Option StringOrMarkdown
  riskAssessment : Option Json
  edits : Option Json
  editable : Option Bool
  options : Option (List ConfirmationOption)
  deriving DecidableEq

/-- Actively executing. -/
structure ToolCallRunningState extends ToolCallBase U, ToolCallParameterFields,
    ToolCallPostConfirmationFields U where
  content : Option (List Json)
  deriving DecidableEq

/-- Paused because the MCP server backing the call needs authentication. -/
structure ToolCallAuthRequiredState extends ToolCallBase U, ToolCallParameterFields,
    ToolCallPostConfirmationFields U where
  auth : Json
  content : Option (List Json)
  deriving DecidableEq

/-- Finished, waiting for the client to approve the result. -/
structure ToolCallPendingResultConfirmationState extends ToolCallBase U, ToolCallParameterFields,
    ToolCallResult, ToolCallPostConfirmationFields U
  deriving DecidableEq

/-- Completed, successfully or with an error. -/
structure ToolCallCompletedState extends ToolCallBase U, ToolCallParameterFields, ToolCallResult,
    ToolCallPostConfirmationFields U
  deriving DecidableEq

/-- Cancelled. -/
structure ToolCallCancelledState extends ToolCallBase U, ToolCallParameterFields where
  reason : ToolCallCancellationReason
  reasonMessage : Option StringOrMarkdown
  userSuggestion : Option Message
  selectedOption : Option ConfirmationOption
  deriving DecidableEq

/-- The union of all tool call lifecycle states. -/
inductive ToolCallState where
  | streaming (s : ToolCallStreamingState U)
  | pendingConfirmation (s : ToolCallPendingConfirmationState U)
  | running (s : ToolCallRunningState U)
  | authRequired (s : ToolCallAuthRequiredState U)
  | pendingResultConfirmation (s : ToolCallPendingResultConfirmationState U)
  | completed (s : ToolCallCompletedState U)
  | cancelled (s : ToolCallCancelledState U)
  | unknown (raw : U)
  deriving DecidableEq

/-- Status of a tool call in the lifecycle state machine. -/
inductive ToolCallStatus where
  | streaming
  | pendingConfirmation
  | running
  | authRequired
  | pendingResultConfirmation
  | completed
  | cancelled
  deriving DecidableEq

end AgentHostProtocol
