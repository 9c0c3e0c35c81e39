import AgentHostProtocol.Go.Chat
import AgentHostProtocol.Library.Runs

/-!
# The JSON codec of the Go chat types

What `json.Unmarshal` reads into the generated types and `json.Marshal` writes of them. A field
that is not `omitempty` or is behind a pointer is written as it is. A slice or a map that is
`omitempty` is left out when it is empty, present or not (`encodeChatState`).

The generated types of the parts that no reducer looks into have codecs of their own. They are
the parameter `reencode`, what is written of a part that was read; `none` if it is not read. So
is the range of an `int64` part of what is read.
-/

namespace AgentHostProtocol.Go

open Library

/-! ### Encoding -/

/-- A slice behind `omitempty`. -/
def omitEmpty {α : Type} (slice : Option (List α)) : Option (List α) :=
  slice.filter fun l => !l.isEmpty

/-- The empty object. -/
def emptyObject : Json := ⟨"\x7b\x7d"⟩

/-- A `map[string]json.RawMessage` behind `omitempty`. -/
def omitEmptyObject (object : Option Json) : Option Json := object.filter fun o => o ≠ emptyObject

/-- A map of answers behind `omitempty`. -/
def omitEmptyMap (map : Option (Record Json)) : Option (Record Json) :=
  map.filter fun m => !m.isEmpty

variable {U : Type}

def encodeBase (base : ToolCallBase U) : ToolCallBase U :=
  { base with _meta := omitEmptyObject base._meta }

def encodeResult (result : ToolCallResult) : ToolCallResult :=
  { result with
    content := omitEmpty result.content
    structuredContent := omitEmptyObject result.structuredContent
    resultMetadata := omitEmptyObject result.resultMetadata }

/-- What is written of a tool call. -/
def encodeToolCall : ToolCallState U → ToolCallState U
  | .streaming v => .streaming { v with toToolCallBase := encodeBase v.toToolCallBase }
  | .pendingConfirmation v => .pendingConfirmation
    { v with toToolCallBase := encodeBase v.toToolCallBase, options := omitEmpty v.options }
  | .running v => .running
    { v with toToolCallBase := encodeBase v.toToolCallBase, content := omitEmpty v.content }
  | .authRequired v => .authRequired
    { v with toToolCallBase := encodeBase v.toToolCallBase, content := omitEmpty v.content }
  | .pendingResultConfirmation v => .pendingResultConfirmation
    { v with
      toToolCallBase := encodeBase v.toToolCallBase
      toToolCallResult := encodeResult v.toToolCallResult }
  | .completed v => .completed
    { v with
      toToolCallBase := encodeBase v.toToolCallBase
      toToolCallResult := encodeResult v.toToolCallResult }
  | .cancelled v => .cancelled { v with toToolCallBase := encodeBase v.toToolCallBase }
  | .unknown raw => .unknown raw

def encodeRequest (request : ChatInputRequest) : ChatInputRequest :=
  { request with
    questions := omitEmpty request.questions
    answers := omitEmptyMap request.answers }

/-- What is written of a response part. -/
def encodePart : ResponsePart U → ResponsePart U
  | .toolCall tc => .toolCall (encodeToolCall tc)
  | .inputRequest part => .inputRequest { part with request := encodeRequest part.request }
  | part => part

def encodeTurn (turn : Turn U) : Turn U :=
  { turn with responseParts := turn.responseParts.map encodePart }

def encodeActiveTurn (turn : ActiveTurn U) : ActiveTurn U :=
  { turn with responseParts := turn.responseParts.map encodePart }

/-- What is written of a background work entry. -/
def encodeWork : BackgroundWork U → BackgroundWork U
  | .shell base command terminal =>
    .shell { base with _meta := omitEmptyObject base._meta } command terminal
  | .subagent base chat => .subagent { base with _meta := omitEmptyObject base._meta } chat
  | .unknown raw => .unknown raw

/-- `json.Marshal` of a chat. The background work is behind a pointer to its slice. -/
def encodeChatState (state : ChatState U) : ChatState U :=
  { state with
    workingDirectories := omitEmpty state.workingDirectories
    changesets := omitEmpty state.changesets
    backgroundWork := state.backgroundWork.map fun list => list.map encodeWork
    canvases := omitEmpty state.canvases
    turns := state.turns.map encodeTurn
    activeTurn := state.activeTurn.map encodeActiveTurn
    queuedMessages := omitEmpty state.queuedMessages
    _meta := omitEmptyObject state._meta }

/-! ### Decoding -/

/-- The generated types of the parts that no reducer looks into. -/
inductive Leaf where
  | message
  | usageInfo
  | errorInfo
  | changesSummary
  | chatOrigin
  | chatInteractivity
  | changeset
  | canvasReference
  | sessionConfigSchema
  | contentRef
  | resourceResponsePart
  | systemNotificationResponsePart
  | toolResultContent
  | toolCallRiskAssessment
  | fileEditCollection
  | mcpAuthRequirement
  | confirmationOptionKind
  | chatInputQuestion
  | chatInputAnswer
  deriving DecidableEq

/-- An `int64`. -/
def decodeInt (n : ℤ) : Option ℤ :=
  if -9223372036854775808 ≤ n ∧ n ≤ 9223372036854775807 then some n else none

/-- An optional field. -/
def decodeOption {α : Type} (decode : α → Option α) : Option α → Option (Option α)
  | none => some none
  | some x => (decode x).map some

section

variable (reencode : Leaf → Json → Option Json)

def decodeToolInput : ToolInput → Option ToolInput
  | .inline text => some (.inline text)
  | .contentRef ref => (reencode .contentRef ref).map .contentRef

def decodeConfirmationOption (o : ConfirmationOption) : Option ConfirmationOption := do
  let kind ← reencode .confirmationOptionKind o.kind
  let group ← decodeOption decodeInt o.group
  pure { o with kind := kind, group := group }

def decodeParameters (fields : ToolCallParameterFields) : Option ToolCallParameterFields := do
  let toolInput ← decodeOption (decodeToolInput reencode) fields.toolInput
  pure { fields with toolInput := toolInput }

def decodePostConfirmation (fields : ToolCallPostConfirmationFields U) :
    Option (ToolCallPostConfirmationFields U) := do
  let selectedOption ← decodeOption (decodeConfirmationOption reencode) fields.selectedOption
  pure { fields with selectedOption := selectedOption }

def decodeContent (content : List Json) : Option (List Json) :=
  content.mapM (reencode .toolResultContent)

def decodeResult (result : ToolCallResult) : Option ToolCallResult := do
  let content ← decodeOption (decodeContent reencode) result.content
  pure { result with content := content }

/-- What is read of a tool call. -/
def decodeToolCall : ToolCallState U → Option (ToolCallState U)
  | .streaming v => some (.streaming v)
  | .pendingConfirmation v => do
    let params ← decodeParameters reencode v.toToolCallParameterFields
    let riskAssessment ← decodeOption (reencode .toolCallRiskAssessment) v.riskAssessment
    let edits ← decodeOption (reencode .fileEditCollection) v.edits
    let options ← decodeOption (fun l => l.mapM (decodeConfirmationOption reencode)) v.options
    pure (.pendingConfirmation
      { v with
        toToolCallParameterFields := params
        riskAssessment := riskAssessment
        edits := edits
        options := options })
  | .running v => do
    let params ← decodeParameters reencode v.toToolCallParameterFields
    let post ← decodePostConfirmation reencode v.toToolCallPostConfirmationFields
    let content ← decodeOption (decodeContent reencode) v.content
    pure (.running
      { v with
        toToolCallParameterFields := params
        toToolCallPostConfirmationFields := post
        content := content })
  | .authRequired v => do
    let params ← decodeParameters reencode v.toToolCallParameterFields
    let post ← decodePostConfirmation reencode v.toToolCallPostConfirmationFields
    let auth ← reencode .mcpAuthRequirement v.auth
    let content ← decodeOption (decodeContent reencode) v.content
    pure (.authRequired
      { v with
        toToolCallParameterFields := params
        toToolCallPostConfirmationFields := post
        auth := auth
        content := content })
  | .pendingResultConfirmation v => do
    let params ← decodeParameters reencode v.toToolCallParameterFields
    let result ← decodeResult reencode v.toToolCallResult
    let post ← decodePostConfirmation reencode v.toToolCallPostConfirmationFields
    pure (.pendingResultConfirmation ⟨v.toToolCallBase, params, result, post⟩)
  | .completed v => do
    let params ← decodeParameters reencode v.toToolCallParameterFields
    let result ← decodeResult reencode v.toToolCallResult
    let post ← decodePostConfirmation reencode v.toToolCallPostConfirmationFields
    pure (.completed ⟨v.toToolCallBase, params, result, post⟩)
  | .cancelled v => do
    let params ← decodeParameters reencode v.toToolCallParameterFields
    let userSuggestion ← decodeOption (reencode .message) v.userSuggestion
    let selectedOption ← decodeOption (decodeConfirmationOption reencode) v.selectedOption
    pure (.cancelled
      { v with
        toToolCallParameterFields := params
        userSuggestion := userSuggestion
        selectedOption := selectedOption })
  | .unknown raw => some (.unknown raw)

def decodeAnswers (answers : Record Json) : Option (Record Json) := do
  let values ← answers.entries.mapM fun e => (reencode .chatInputAnswer e.2).map (e.1, ·)
  pure (values.foldl (fun r e => r.set e.1 e.2) Record.empty)

def decodeRequest (request : ChatInputRequest) : Option ChatInputRequest := do
  let questions ← decodeOption (fun l => l.mapM (reencode .chatInputQuestion)) request.questions
  let answers ← decodeOption (decodeAnswers reencode) request.answers
  pure { request with questions := questions, answers := answers }

def decodeErrorPart (part : ErrorResponsePart) : Option ErrorResponsePart := do
  let error ← reencode .errorInfo part.error
  pure { part with error := error }

/-- What is read of a response part. -/
def decodePart : ResponsePart U → Option (ResponsePart U)
  | .markdown part => some (.markdown part)
  | .contentRef ref => (reencode .resourceResponsePart ref).map .contentRef
  | .toolCall tc => (decodeToolCall reencode tc).map .toolCall
  | .reasoning part => do
    let duration ← decodeOption decodeInt part.duration
    pure (.reasoning { part with duration := duration })
  | .systemNotification notification =>
    (reencode .systemNotificationResponsePart notification).map .systemNotification
  | .inputRequest part => do
    let request ← decodeRequest reencode part.request
    pure (.inputRequest { part with request := request })
  | .error part => (decodeErrorPart reencode part).map .error
  | .unknown raw => some (.unknown raw)

def decodeTurn (turn : Turn U) : Option (Turn U) := do
  let duration ← decodeOption decodeInt turn.duration
  let message ← reencode .message turn.message
  let responseParts ← turn.responseParts.mapM (decodePart reencode)
  let usage ← decodeOption (reencode .usageInfo) turn.usage
  pure
    { turn with
      duration := duration
      message := message
      responseParts := responseParts
      usage := usage }

def decodeActiveTurn (turn : ActiveTurn U) : Option (ActiveTurn U) := do
  let message ← reencode .message turn.message
  let responseParts ← turn.responseParts.mapM (decodePart reencode)
  let usage ← decodeOption (reencode .usageInfo) turn.usage
  pure { turn with message := message, responseParts := responseParts, usage := usage }

def decodePendingMessage (m : PendingMessage) : Option PendingMessage := do
  let message ← reencode .message m.message
  pure { m with message := message }

def decodeConfig (config : ChatConfigState) : Option ChatConfigState := do
  let schema ← decodeOption (reencode .sessionConfigSchema) config.schema
  pure { config with schema := schema }

/-- `json.Unmarshal` into a chat; `none` is an error. -/
def decodeChatState (state : ChatState U) : Option (ChatState U) := do
  let changes ← decodeOption (reencode .changesSummary) state.changes
  let origin ← decodeOption (reencode .chatOrigin) state.origin
  let interactivity ← decodeOption (reencode .chatInteractivity) state.interactivity
  let changesets ← decodeOption (fun l => l.mapM (reencode .changeset)) state.changesets
  let canvases ← decodeOption (fun l => l.mapM (reencode .canvasReference)) state.canvases
  let config ← decodeOption (decodeConfig reencode) state.config
  let turns ← state.turns.mapM (decodeTurn reencode)
  let activeTurn ← decodeOption (decodeActiveTurn reencode) state.activeTurn
  let steeringMessage ← decodeOption (decodePendingMessage reencode) state.steeringMessage
  let queuedMessages ← decodeOption (fun l => l.mapM (decodePendingMessage reencode))
    state.queuedMessages
  let draft ← decodeOption (reencode .message) state.draft
  pure
    { state with
      changes := changes
      origin := origin
      interactivity := interactivity
      changesets := changesets
      canvases := canvases
      config := config
      turns := turns
      activeTurn := activeTurn
      steeringMessage := steeringMessage
      queuedMessages := queuedMessages
      draft := draft }

/-- `chat/toolCallConfirmed` read into the struct for both variants. -/
def decodeConfirmed : AgentHostProtocol.ChatToolCallConfirmedAction U →
    Option (ChatToolCallConfirmedAction U)
  | .approved a => some
    { a.toToolCallActionBase with
      approved := true
      confirmed := some a.confirmed
      reason := none
      editedToolInput := a.editedToolInput
      userSuggestion := none
      reasonMessage := none
      selectedOptionId := a.selectedOptionId }
  | .denied a => do
    let userSuggestion ← decodeOption (reencode .message) a.userSuggestion
    pure
      { a.toToolCallActionBase with
        approved := false
        confirmed := none
        reason := some a.reason
        editedToolInput := none
        userSuggestion := userSuggestion
        reasonMessage := a.reasonMessage
        selectedOptionId := a.selectedOptionId }

/-- `json.Unmarshal` into a chat action; `none` is an error. -/
def decodeChatAction : ChatAction U (AgentHostProtocol.ChatToolCallConfirmedAction U) →
    Option (ChatAction U (ChatToolCallConfirmedAction U))
  | .turnStarted a => do
    let message ← reencode .message a.message
    pure (.turnStarted { a with message := message })
  | .delta a => some (.delta a)
  | .responsePart a => do
    let part ← decodePart reencode a.part
    pure (.responsePart { a with part := part })
  | .toolCallStart a => some (.toolCallStart a)
  | .toolCallDelta a => some (.toolCallDelta a)
  | .toolCallReady a => do
    let toolInput ← decodeOption (decodeToolInput reencode) a.toolInput
    let riskAssessment ← decodeOption (reencode .toolCallRiskAssessment) a.riskAssessment
    let edits ← decodeOption (reencode .fileEditCollection) a.edits
    let options ← decodeOption (fun l => l.mapM (decodeConfirmationOption reencode)) a.options
    pure (.toolCallReady
      { a with
        toolInput := toolInput
        riskAssessment := riskAssessment
        edits := edits
        options := options })
  | .toolCallConfirmed a => (decodeConfirmed reencode a).map .toolCallConfirmed
  | .toolCallComplete a => do
    let result ← decodeResult reencode a.result
    pure (.toolCallComplete { a with result := result })
  | .toolCallResultConfirmed a => some (.toolCallResultConfirmed a)
  | .toolCallContentChanged a => do
    let content ← decodeContent reencode a.content
    pure (.toolCallContentChanged { a with content := content })
  | .toolCallAuthRequired a => do
    let auth ← reencode .mcpAuthRequirement a.auth
    pure (.toolCallAuthRequired { a with auth := auth })
  | .toolCallAuthResolved a => some (.toolCallAuthResolved a)
  | .turnComplete a => do
    let duration ← decodeInt a.duration
    pure (.turnComplete { a with duration := duration })
  | .turnCancelled a => do
    let duration ← decodeInt a.duration
    pure (.turnCancelled { a with duration := duration })
  | .error a => do
    let duration ← decodeInt a.duration
    let part ← decodeErrorPart reencode a.part
    pure (.error { a with duration := duration, part := part })
  | .turnResume turnId => some (.turnResume turnId)
  | .activityChanged activity => some (.activityChanged activity)
  | .backgroundWorkSet work => some (.backgroundWorkSet work)
  | .backgroundWorkRemoved id => some (.backgroundWorkRemoved id)
  | .movableChanged movable => some (.movableChanged movable)
  | .changesetsChanged changesets =>
    (decodeOption (fun l => l.mapM (reencode .changeset)) changesets).map .changesetsChanged
  | .canvasesChanged canvases =>
    (decodeOption (fun l => l.mapM (reencode .canvasReference)) canvases).map .canvasesChanged
  | .workingDirectorySet directory => some (.workingDirectorySet directory)
  | .workingDirectoryRemoved directory => some (.workingDirectoryRemoved directory)
  | .usage a => do
    let usage ← reencode .usageInfo a.usage
    pure (.usage { a with usage := usage })
  | .reasoning a => do
    let duration ← decodeOption decodeInt a.duration
    pure (.reasoning { a with duration := duration })
  | .truncated turnId => some (.truncated turnId)
  | .turnsLoaded a => do
    let turns ← a.turns.mapM (decodeTurn reencode)
    pure (.turnsLoaded { a with turns := turns })
  | .pendingMessageSet a => do
    let message ← reencode .message a.message
    pure (.pendingMessageSet { a with message := message })
  | .pendingMessageRemoved a => some (.pendingMessageRemoved a)
  | .queuedMessagesReordered order => some (.queuedMessagesReordered order)
  | .draftChanged draft => (decodeOption (reencode .message) draft).map .draftChanged
  | .isReadChanged isRead => some (.isReadChanged isRead)
  | .isArchivedChanged isArchived => some (.isArchivedChanged isArchived)
  | .configChanged a => some (.configChanged a)
  | .moved a => do
    let schema ← decodeOption (reencode .sessionConfigSchema) a.schema
    pure (.moved { a with schema := schema })
  | .inputRequested request => (decodeRequest reencode request).map .inputRequested
  | .inputAnswerChanged a => do
    let answer ← decodeOption (reencode .chatInputAnswer) a.answer
    pure (.inputAnswerChanged { a with answer := answer })
  | .inputCompleted a => do
    let answers ← decodeOption (decodeAnswers reencode) a.answers
    pure (.inputCompleted { a with answers := answers })

end

/-! ### A run -/

/-- One JSON action on a Go chat; `none` if it does not decode or the reducer panics. -/
def applyJson [RawId U] (reencode : Leaf → Json → Option Json) (otherParse : String → Option ℤ)
    (state : ChatState U) (a : ChatAction U (AgentHostProtocol.ChatToolCallConfirmedAction U)) :
    Option (ChatState U) := do
  let a ← decodeChatAction reencode a
  let res ← applyActionToChat otherParse state a
  pure res.2

/-- Decodes a chat, applies the actions and encodes the result. -/
def applyAll [RawId U] (reencode : Leaf → Json → Option Json) (otherParse : String → Option ℤ)
    (state : ChatState U) (as : List (ChatAction U (AgentHostProtocol.ChatToolCallConfirmedAction U))) :
    Option (ChatState U) := do
  let state ← decodeChatState reencode state
  let state ← runs (applyJson reencode otherParse) state as
  pure (encodeChatState state)

end AgentHostProtocol.Go
