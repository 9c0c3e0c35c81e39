import AgentHostProtocol.Kotlin.Chat
import AgentHostProtocol.Library.Lists
import AgentHostProtocol.Wire.Channels
import AgentHostProtocol.Wire.Session

/-!
# The Kotlin reducers of the other channels

Each on the actions of all channels: an action of another channel, or one that is not known, leaves
the state as it is.
-/

namespace AgentHostProtocol.Kotlin

open Library

variable {U : Type}

/-- `StateAction`: the actions of all channels. -/
inductive StateAction (U : Type) where
  | root (a : RootAction)
  | session (a : SessionAction U)
  | chat (a : ChatAction U (ChatToolCallConfirmedAction U))
  | canvas (a : CanvasAction)
  | terminal (a : TerminalAction)
  | changeset (a : ChangesetAction U)
  | annotations (a : AnnotationsAction)
  | resourceWatch (a : ResourceWatchAction)
  | automation (a : AutomationAction)
  | automationRun (a : AutomationRunAction)
  | unknown (raw : U)

/-- `root/configChanged`. -/
def rootConfigChanged (state : RootState) (values : Record Json) (replace : Option Bool) : RootState :=
  match state.config with
  | none => state
  | some config =>
    let newValues := if replace = some true then values else config.values.merge values
    { state with config := some { config with values := newValues } }

/-- `rootReducer`. -/
def rootReducer (state : RootState) : StateAction U → RootState
  | .root (.agentsChanged agents) => { state with agents := agents }
  | .root (.activeSessionsChanged activeSessions) => { state with activeSessions := some activeSessions }
  | .root (.terminalsChanged terminals) => { state with terminals := some terminals }
  | .root (.configChanged values replace) => rootConfigChanged state values replace
  | _ => state

/-- `canvasReducer`. -/
def canvasReducer (state : CanvasState) : StateAction U → CanvasState
  | .canvas (.stateChanged canvas) => canvas
  | _ => state

/-! ### Terminal -/

/-- `terminal/data`. -/
def terminalData (content : List (TerminalContentPart U)) (data : String) :
    List (TerminalContentPart U) :=
  let lastIndex := content.length - 1
  match content.getLast? with
  | some (.command tail) =>
    if !tail.isComplete then content.set lastIndex (.command { tail with output := tail.output ++ data })
    else content ++ [.unclassified data]
  | some (.unclassified value) => content.set lastIndex (.unclassified (value ++ data))
  | _ => content ++ [.unclassified data]

/-- `terminal/commandFinished` on one part. -/
def finishCommand (commandId : String) (exitCode durationMs : Option ℤ) :
    TerminalContentPart U → TerminalContentPart U
  | .command part =>
    if part.commandId = commandId then
      .command { part with isComplete := true, exitCode := exitCode, durationMs := durationMs }
    else .command part
  | part => part

/-- `terminalReducer`. -/
def terminalReducer (state : TerminalState U) : StateAction U → TerminalState U
  | .terminal (.data data) => { state with content := terminalData state.content data }
  | .terminal (.input _) => state
  | .terminal (.resized cols rows) => { state with cols := some cols, rows := some rows }
  | .terminal (.claimed claim) => { state with claim := claim }
  | .terminal (.titleChanged title) => { state with title := title }
  | .terminal (.cwdChanged cwd) => { state with cwd := some cwd }
  | .terminal (.exited exitCode) => { state with lifecycle := .exited exitCode }
  | .terminal .cleared => { state with content := [] }
  | .terminal .commandDetectionAvailable => { state with supportsCommandDetection := some true }
  | .terminal (.commandExecuted commandId commandLine timestamp) =>
    let newPart : TerminalContentPart U := .command
      { commandId := commandId
        commandLine := commandLine
        output := ""
        timestamp := timestamp
        isComplete := false
        exitCode := none
        durationMs := none }
    { state with content := state.content ++ [newPart], supportsCommandDetection := some true }
  | .terminal (.commandFinished commandId exitCode durationMs) =>
    { state with content := state.content.map (finishCommand commandId exitCode durationMs) }
  | _ => state

/-! ### Changeset -/

/-- `changeset/filesReviewChanged`. -/
def filesReviewChanged (state : ChangesetState U) (ids : List String) (reviewed : Bool) :
    ChangesetState U :=
  let kept (file : ChangesetFile) : Bool := file.id ∉ ids || file.reviewed = some reviewed
  let next := state.files.map fun file => if kept file then file else { file with reviewed := some reviewed }
  let changed := state.files.any fun file => !kept file
  if changed then { state with files := next } else state

/-- `changeset/operationStatusChanged`. -/
def operationStatusChanged (state : ChangesetState U) (operationId : String)
    (status : ChangesetOperationStatus U) (error : Option ErrorInfo) : ChangesetState U :=
  match state.operations with
  | none => state
  | some operations =>
    match operations.findIdx? fun o => o.id = operationId with
    | none => state
    | some idx =>
      match operations[idx]? with
      | none => state
      | some current =>
        let nextOp : ChangesetOperation U :=
          match status with
          | .error => { current with status := status, error := error }
          | _ => { current with status := status, error := none }
        { state with operations := some (operations.set idx nextOp) }

/-- `changesetReducer`. -/
def changesetReducer (state : ChangesetState U) : StateAction U → ChangesetState U
  | .changeset (.statusChanged status error) =>
    match status with
    | .error => { state with status := status, error := error }
    | _ => { state with status := status, error := none }
  | .changeset (.fileSet file) =>
    { state with files := upsertWhere (fun f => f.id = file.id) file state.files }
  | .changeset (.fileRemoved fileId) =>
    match eraseWhere (fun f => f.id = fileId) state.files with
    | none => state
    | some next => { state with files := next }
  | .changeset (.filesReviewChanged files reviewed) => filesReviewChanged state files reviewed
  | .changeset (.contentChanged files operations) =>
    match operations with
    | none => { state with files := files }
    | some operations => { state with files := files, operations := some operations }
  | .changeset (.operationsChanged operations) => { state with operations := operations }
  | .changeset (.operationStatusChanged operationId status error) =>
    operationStatusChanged state operationId status error
  | .changeset .cleared => if state.files.isEmpty then state else { state with files := [] }
  | _ => state

/-! ### Annotations -/

/-- Rewrites the first annotation with the id, if there is one and `f` gives another. -/
def editAnnotation (state : AnnotationsState) (annotationId : String)
    (f : AnnotationThread → Option AnnotationThread) : AnnotationsState :=
  match state.annotations.findIdx? fun t => t.id = annotationId with
  | none => state
  | some idx =>
    match state.annotations[idx]?.bind f with
    | none => state
    | some updated => { state with annotations := state.annotations.set idx updated }

/-- `annotationsReducer`. -/
def annotationsReducer (state : AnnotationsState) : StateAction U → AnnotationsState
  | .annotations (.set annotation) =>
    { state with annotations := upsertWhere (fun t => t.id = annotation.id) annotation state.annotations }
  | .annotations (.updated a) =>
    editAnnotation state a.annotationId fun annotation =>
      some
        { annotation with
          origin := a.origin.getD annotation.origin
          resource := a.resource.getD annotation.resource
          range := a.range.or annotation.range
          resolved := a.resolved.getD annotation.resolved }
  | .annotations (.removed annotationId) =>
    match eraseWhere (fun t => t.id = annotationId) state.annotations with
    | none => state
    | some next => { state with annotations := next }
  | .annotations (.entrySet annotationId entry) =>
    editAnnotation state annotationId fun annotation =>
      some { annotation with entries := upsertWhere (fun c => c.id = entry.id) entry annotation.entries }
  | .annotations (.entryRemoved annotationId entryId) =>
    editAnnotation state annotationId fun annotation =>
      (eraseWhere (fun c => c.id = entryId) annotation.entries).map fun nextEntries =>
        { annotation with entries := nextEntries }
  | _ => state

/-- `resourceWatchReducer`. -/
def resourceWatchReducer (state : ResourceWatchState) : StateAction U → ResourceWatchState
  | .resourceWatch (.changed _) => state
  | _ => state

/-! ### Automations -/

/-- `automationReducer`. -/
def automationReducer (state : AutomationState) : StateAction U → AutomationState
  | .automation (.createRequested _ _) => state
  | .automation (.updateRequested _ _) => state
  | .automation (.set automation) =>
    { state with
      entries := upsertWhere (fun a => a.resource = automation.resource) automation state.entries }
  | .automation (.removed resource) =>
    match eraseWhere (fun a => a.resource = resource) state.entries with
    | none => state
    | some entries => { state with entries := entries }
  | _ => state

/-- `automationRunReducer`. -/
def automationRunReducer (state : AutomationRunState) : StateAction U → AutomationRunState
  | .automationRun (.lifecycleChanged lifecycle) => { state with lifecycle := lifecycle }
  | .automationRun (.sessionSet session) =>
    if session ∈ state.sessions then state
    else { state with sessions := state.sessions ++ [session] }
  | .automationRun (.sessionRemoved session) =>
    match eraseWhere (fun s => s = session) state.sessions with
    | none => state
    | some sessions =>
      { state with
        sessions := sessions
        primarySession := if state.primarySession = some session then none else state.primarySession }
  | .automationRun (.primarySessionChanged primarySession) =>
    { state with primarySession := primarySession }
  | .automationRun .cancelRequested => state
  | _ => state

end AgentHostProtocol.Kotlin
