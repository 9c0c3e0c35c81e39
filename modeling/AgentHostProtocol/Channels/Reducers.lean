import AgentHostProtocol.Library.Lists
import AgentHostProtocol.Session.Reducer
import AgentHostProtocol.Wire.Channels
import AgentHostProtocol.Wire.ChatActions

/-!
# The reducers of the other channels

`rootReducer`, `canvasReducer`, `terminalReducer`, `changesetReducer`, `annotationsReducer`,
`automationReducer` and `automationRunReducer`, on the closed unions, and the union of all actions. An optional field
that is deleted from an object is `none`.
-/

namespace AgentHostProtocol.Channels

open Library

/-- `StateAction`: the actions of all channels. -/
inductive StateAction where
  | root (a : RootAction)
  | session (a : SessionAction Empty)
  | chat (a : ChatAction Empty (ChatToolCallConfirmedAction Empty))
  | canvas (a : CanvasAction)
  | terminal (a : TerminalAction)
  | changeset (a : ChangesetAction Empty)
  | annotations (a : AnnotationsAction)
  | resourceWatch (a : ResourceWatchAction)
  | automation (a : AutomationAction)
  | automationRun (a : AutomationRunAction)

/-- `rootReducer`. -/
def rootReducer (state : RootState) : RootAction → RootState
  | .agentsChanged agents => { state with agents := agents }
  | .activeSessionsChanged activeSessions => { state with activeSessions := some activeSessions }
  | .terminalsChanged terminals => { state with terminals := some terminals }
  | .configChanged values replace =>
    match state.config with
    | none => state
    | some config =>
      let values := if replace.getD false then values else config.values.merge values
      { state with config := some { config with values := values } }

/-- `canvasReducer`. -/
def canvasReducer (_ : CanvasState) : CanvasAction → CanvasState
  | .stateChanged canvas => canvas

/-! ### Terminal -/

/-- `terminal/data`. -/
def terminalData (content : List (TerminalContentPart Empty)) (data : String) :
    List (TerminalContentPart Empty) :=
  match content.getLast? with
  | some (.command tail) =>
    if tail.isComplete then content ++ [.unclassified data]
    else content.dropLast ++ [.command { tail with output := tail.output ++ data }]
  | some (.unclassified value) => content.dropLast ++ [.unclassified (value ++ data)]
  | none => content ++ [.unclassified data]

/-- `terminal/commandFinished` on one part. -/
def finishCommand (commandId : String) (exitCode durationMs : Option ℤ) :
    TerminalContentPart Empty → TerminalContentPart Empty
  | .command p =>
    if p.commandId = commandId then
      .command { p with isComplete := true, exitCode := exitCode, durationMs := durationMs }
    else .command p
  | p => p

/-- `terminalReducer`. -/
def terminalReducer (state : TerminalState Empty) : TerminalAction → TerminalState Empty
  | .data data => { state with content := terminalData state.content data }
  | .input _ => state
  | .resized cols rows => { state with cols := some cols, rows := some rows }
  | .claimed claim => { state with claim := claim }
  | .titleChanged title => { state with title := title }
  | .cwdChanged cwd => { state with cwd := some cwd }
  | .exited exitCode => { state with lifecycle := .exited exitCode }
  | .cleared => { state with content := [] }
  | .commandDetectionAvailable => { state with supportsCommandDetection := some true }
  | .commandExecuted commandId commandLine timestamp =>
    { state with
      content := state.content ++
        [.command
          { commandId := commandId
            commandLine := commandLine
            output := ""
            timestamp := timestamp
            isComplete := false
            exitCode := none
            durationMs := none }]
      supportsCommandDetection := some true }
  | .commandFinished commandId exitCode durationMs =>
    { state with content := state.content.map (finishCommand commandId exitCode durationMs) }

/-! ### Changeset -/

/-- `changeset/filesReviewChanged`: the state itself is returned when no file changes, which is
the same value. -/
def filesReviewChanged (state : ChangesetState Empty) (ids : List String) (reviewed : Bool) :
    ChangesetState Empty :=
  { state with
    files := state.files.map fun f =>
      if f.id ∉ ids ∨ f.reviewed = some reviewed then f else { f with reviewed := some reviewed } }

/-- `changeset/operationStatusChanged` on the operation. -/
def operationStatus (status : ChangesetOperationStatus Empty) (error : Option ErrorInfo)
    (current : ChangesetOperation Empty) : ChangesetOperation Empty :=
  match status with
  | .error => { current with status := status, error := error }
  | _ => { current with status := status, error := none }

/-- `changeset/operationStatusChanged`. -/
def operationStatusChanged (state : ChangesetState Empty) (operationId : String)
    (status : ChangesetOperationStatus Empty) (error : Option ErrorInfo) : ChangesetState Empty :=
  match state.operations with
  | none => state
  | some operations =>
    match operations.findIdx? (fun o => o.id = operationId) with
    | none => state
    | some idx =>
      { state with operations := some (operations.modify idx (operationStatus status error)) }

/-- `changesetReducer`. -/
def changesetReducer (state : ChangesetState Empty) : ChangesetAction Empty → ChangesetState Empty
  | .statusChanged status error =>
    match status with
    | .error => { state with status := status, error := error }
    | _ => { state with status := status, error := none }
  | .fileSet file => { state with files := upsertWhere (fun f => f.id = file.id) file state.files }
  | .fileRemoved fileId =>
    match eraseWhere (fun f => f.id = fileId) state.files with
    | none => state
    | some files => { state with files := files }
  | .filesReviewChanged files reviewed => filesReviewChanged state files reviewed
  | .contentChanged files operations =>
    { state with files := files, operations := operations.or state.operations }
  | .operationsChanged operations => { state with operations := operations }
  | .operationStatusChanged operationId status error =>
    operationStatusChanged state operationId status error
  | .cleared => if state.files.length = 0 then state else { state with files := [] }

/-! ### Annotations -/

/-- `annotations/updated` on the annotation. -/
def updateThread (a : AnnotationsUpdatedAction) (thread : AnnotationThread) : AnnotationThread :=
  { thread with
    origin := a.origin.getD thread.origin
    resource := a.resource.getD thread.resource
    range := a.range.or thread.range
    resolved := a.resolved.getD thread.resolved }

/-- Rewrites the entries of the annotation, if it is there. Where `f` gives none, the state itself is
returned, which is the same value. -/
def editEntries (state : AnnotationsState) (annotationId : String)
    (f : List AnnotationEntry → Option (List AnnotationEntry)) : AnnotationsState :=
  match state.annotations.findIdx? (fun t => t.id = annotationId) with
  | none => state
  | some tIdx =>
    ⟨state.annotations.modify tIdx fun thread =>
      { thread with entries := (f thread.entries).getD thread.entries }⟩

/-- `annotationsReducer`. -/
def annotationsReducer (state : AnnotationsState) : AnnotationsAction → AnnotationsState
  | .set thread => ⟨upsertWhere (fun t => t.id = thread.id) thread state.annotations⟩
  | .updated a =>
    match state.annotations.findIdx? (fun t => t.id = a.annotationId) with
    | none => state
    | some idx => ⟨state.annotations.modify idx (updateThread a)⟩
  | .removed annotationId =>
    match eraseWhere (fun t => t.id = annotationId) state.annotations with
    | none => state
    | some annotations => ⟨annotations⟩
  | .entrySet annotationId entry =>
    editEntries state annotationId fun entries =>
      some (upsertWhere (fun c => c.id = entry.id) entry entries)
  | .entryRemoved annotationId entryId =>
    editEntries state annotationId (eraseWhere fun c => c.id = entryId)

/-! ### Automations -/

/-- `automationReducer`. -/
def automationReducer (state : AutomationState) : AutomationAction → AutomationState
  | .createRequested _ _ | .updateRequested _ _ => state
  | .set automation =>
    { state with
      entries := upsertWhere (fun a => a.resource = automation.resource) automation state.entries }
  | .removed resource =>
    match eraseWhere (fun a => a.resource = resource) state.entries with
    | none => state
    | some entries => { state with entries := entries }

/-- `automationRunReducer`. -/
def automationRunReducer (state : AutomationRunState) : AutomationRunAction → AutomationRunState
  | .lifecycleChanged lifecycle => { state with lifecycle := lifecycle }
  | .sessionSet session =>
    if session ∈ state.sessions then state
    else { state with sessions := state.sessions ++ [session] }
  | .sessionRemoved session =>
    match eraseWhere (fun s => s = session) state.sessions with
    | none => state
    | some sessions =>
      { state with
        sessions := sessions
        primarySession := if state.primarySession = some session then none else state.primarySession }
  | .primarySessionChanged primarySession => { state with primarySession := primarySession }
  | .cancelRequested => state

end AgentHostProtocol.Channels
