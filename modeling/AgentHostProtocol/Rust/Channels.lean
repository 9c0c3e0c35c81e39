import AgentHostProtocol.Library.Lists
import AgentHostProtocol.Library.Ref
import AgentHostProtocol.Rust.Outcome
import AgentHostProtocol.Wire.Channels

/-!
# The Rust reducers of the other channels

Each on the actions of its own channel.
-/

namespace AgentHostProtocol.Rust

open Library

variable {U : Type}

/-- `apply_action_to_root` on the actions of the root channel. -/
def applyRootAction (state : RootState) : RootAction → ReduceOutcome × RootState
  | .agentsChanged agents => (.applied, { state with agents := agents })
  | .activeSessionsChanged activeSessions =>
    (.applied, { state with activeSessions := some activeSessions })
  | .terminalsChanged terminals => (.applied, { state with terminals := some terminals })
  | .configChanged values replace =>
    match state.config with
    | none => (.noOp, state)
    | some config =>
      let values := if replace.getD false then values else config.values.merge values
      (.applied, { state with config := some { config with values := values } })

/-- `apply_action_to_canvas` on the action of a canvas. -/
def applyCanvasAction (_ : CanvasState) : CanvasAction → ReduceOutcome × CanvasState
  | .stateChanged canvas => (.applied, canvas)

/-! ### Terminal -/

/-- `terminal/data`: continues the last part if it is an open command or unclassified. -/
def terminalData (content : List (TerminalContentPart U)) (data : String) :
    List (TerminalContentPart U) :=
  match content.getLast? with
  | some (.command c) =>
    if c.isComplete then content ++ [.unclassified data]
    else content.dropLast ++ [.command { c with output := c.output ++ data }]
  | some (.unclassified value) => content.dropLast ++ [.unclassified (value ++ data)]
  | _ => content ++ [.unclassified data]

/-- `terminal/commandFinished` on one part. -/
def finishCommand (commandId : String) (exitCode durationMs : Option ℤ) :
    TerminalContentPart U → Option (TerminalContentPart U)
  | .command c =>
    if c.commandId = commandId then
      some (.command { c with isComplete := true, exitCode := exitCode, durationMs := durationMs })
    else none
  | _ => none

/-- `apply_action_to_terminal` on the actions of a terminal. -/
def applyTerminalAction (state : TerminalState U) : TerminalAction → ReduceOutcome × TerminalState U
  | .data data => (.applied, { state with content := terminalData state.content data })
  | .input _ => (.noOp, state)
  | .resized cols rows => (.applied, { state with cols := some cols, rows := some rows })
  | .claimed claim => (.applied, { state with claim := claim })
  | .titleChanged title => (.applied, { state with title := title })
  | .cwdChanged cwd => (.applied, { state with cwd := some cwd })
  | .exited exitCode => (.applied, { state with lifecycle := .exited exitCode })
  | .cleared => (.applied, { state with content := [] })
  | .commandDetectionAvailable => (.applied, { state with supportsCommandDetection := some true })
  | .commandExecuted commandId commandLine timestamp =>
    (.applied,
      { state with
        content := state.content ++
          [.command
            { commandId := commandId
              commandLine := commandLine
              output := ""
              timestamp := timestamp
              isComplete := false
              exitCode := none
              durationMs := none }]
        supportsCommandDetection := some true })
  | .commandFinished commandId exitCode durationMs =>
    match updateFirst (finishCommand commandId exitCode durationMs) state.content with
    | some content => (.applied, { state with content := content })
    | none => (.noOp, state)

/-! ### Changeset -/

/-- Whether `changeset/filesReviewChanged` changes a file. -/
def reviewChanges (ids : List String) (reviewed : Bool) (file : ChangesetFile) : Bool :=
  !(file.id ∉ ids || file.reviewed = some reviewed)

/-- `changeset/filesReviewChanged`: the loop over the files. -/
def filesReviewChanged (state : ChangesetState U) (ids : List String) (reviewed : Bool) :
    ReduceOutcome × ChangesetState U :=
  let changed := state.files.any (reviewChanges ids reviewed)
  let files := state.files.map fun file =>
    if reviewChanges ids reviewed file then { file with reviewed := some reviewed } else file
  (if changed then .applied else .noOp, { state with files := files })

/-- `changeset/operationStatusChanged`. -/
def operationStatusChanged (state : ChangesetState U) (operationId : String)
    (status : ChangesetOperationStatus U) (error : Option ErrorInfo) :
    ReduceOutcome × ChangesetState U :=
  match state.operations with
  | none => (.noOp, state)
  | some ops =>
    match Ref.find? (fun o => o.id = operationId) ops with
    | none => (.noOp, state)
    | some op =>
      let ops := op.modify fun op =>
        match status with
        | .error => { op with status := status, error := error }
        | _ => { op with status := status, error := none }
      (.applied, { state with operations := some ops })

/-- `apply_action_to_changeset` on the actions of a changeset. -/
def applyChangesetAction (state : ChangesetState U) :
    ChangesetAction U → ReduceOutcome × ChangesetState U
  | .statusChanged status error =>
    match status with
    | .error => (.applied, { state with status := status, error := error })
    | _ => (.applied, { state with status := status, error := none })
  | .fileSet file =>
    (.applied, { state with files := upsertWhere (fun f => f.id = file.id) file state.files })
  | .fileRemoved fileId =>
    match eraseWhere (fun f => f.id = fileId) state.files with
    | none => (.noOp, state)
    | some files => (.applied, { state with files := files })
  | .filesReviewChanged files reviewed => filesReviewChanged state files reviewed
  | .contentChanged files operations =>
    (.applied, { state with files := files, operations := operations.or state.operations })
  | .operationsChanged operations => (.applied, { state with operations := operations })
  | .operationStatusChanged operationId status error =>
    operationStatusChanged state operationId status error
  | .cleared =>
    if state.files.isEmpty then (.noOp, state) else (.applied, { state with files := [] })

/-! ### Annotations -/

/-- `annotations/updated` on the annotation. -/
def updateThread (a : AnnotationsUpdatedAction) (ann : AnnotationThread) : AnnotationThread :=
  { ann with
    origin := a.origin.getD ann.origin
    resource := a.resource.getD ann.resource
    range := a.range.or ann.range
    resolved := a.resolved.getD ann.resolved }

/-- Runs `k` on the entries of the annotation, if it is there. -/
def withEntries (state : AnnotationsState) (annotationId : String)
    (k : List AnnotationEntry → Option (List AnnotationEntry)) : ReduceOutcome × AnnotationsState :=
  match Ref.find? (fun t => t.id = annotationId) state.annotations with
  | none => (.noOp, state)
  | some ann =>
    match k ann.value.entries with
    | none => (.noOp, state)
    | some entries => (.applied, ⟨ann.write { ann.value with entries := entries }⟩)

/-- `apply_action_to_annotations` on the actions of an annotations channel. -/
def applyAnnotationsAction (state : AnnotationsState) :
    AnnotationsAction → ReduceOutcome × AnnotationsState
  | .set thread =>
    (.applied, ⟨upsertWhere (fun t => t.id = thread.id) thread state.annotations⟩)
  | .updated a =>
    match Ref.find? (fun t => t.id = a.annotationId) state.annotations with
    | none => (.noOp, state)
    | some ann => (.applied, ⟨ann.modify (updateThread a)⟩)
  | .removed annotationId =>
    match eraseWhere (fun t => t.id = annotationId) state.annotations with
    | none => (.noOp, state)
    | some annotations => (.applied, ⟨annotations⟩)
  | .entrySet annotationId entry =>
    withEntries state annotationId fun entries =>
      some (upsertWhere (fun e => e.id = entry.id) entry entries)
  | .entryRemoved annotationId entryId =>
    withEntries state annotationId fun entries => eraseWhere (fun e => e.id = entryId) entries

/-! ### Resource watch and automations -/

/-- `apply_action_to_resource_watch` on the action of a resource watch. -/
def applyResourceWatchAction (state : ResourceWatchState) :
    ResourceWatchAction → ReduceOutcome × ResourceWatchState
  | .changed _ => (.noOp, state)

/-- `apply_action_to_automation` on the actions of the automation channel. -/
def applyAutomationAction (state : AutomationState) :
    AutomationAction → ReduceOutcome × AutomationState
  | .createRequested _ _ | .updateRequested _ _ => (.noOp, state)
  | .set automation =>
    (.applied,
      { state with
        entries := upsertWhere (fun a => a.resource = automation.resource) automation state.entries })
  | .removed resource =>
    match eraseWhere (fun a => a.resource = resource) state.entries with
    | none => (.noOp, state)
    | some entries => (.applied, { state with entries := entries })

/-- `apply_action_to_automation_run` on the actions of an automation run. -/
def applyAutomationRunAction (state : AutomationRunState) :
    AutomationRunAction → ReduceOutcome × AutomationRunState
  | .lifecycleChanged lifecycle => (.applied, { state with lifecycle := lifecycle })
  | .sessionSet session =>
    if session ∈ state.sessions then (.noOp, state)
    else (.applied, { state with sessions := state.sessions ++ [session] })
  | .sessionRemoved session =>
    match eraseWhere (fun s => s = session) state.sessions with
    | none => (.noOp, state)
    | some sessions =>
      (.applied,
        { state with
          sessions := sessions
          primarySession :=
            if state.primarySession = some session then none else state.primarySession })
  | .primarySessionChanged primarySession => (.applied, { state with primarySession := primarySession })
  | .cancelRequested => (.noOp, state)

end AgentHostProtocol.Rust
