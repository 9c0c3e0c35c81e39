import AgentHostProtocol.Channels.Terminal
import AgentHostProtocol.Library.Runs
import AgentHostProtocol.Rust.Channels

/-!
# Where the reducers of the other channels agree

**What is proved** (`channels_agree`): the Rust reducers of terminals, changesets and annotations leave
the states that those of TypeScript do, along every run; for terminals as long as a command is executed
under an id that no command of the content has.

TypeScript finishes every command with the id, Rust the first one; there is at most one.
-/

namespace AgentHostProtocol.Agreement

open Library Channels

/-! ### Terminal -/

/-- The ids of the commands of a terminal. -/
def commandIds (state : TerminalState Empty) : List String := state.content.filterMap commandId?

/-- No two commands of a terminal have the same id. -/
def DistinctCommands (state : TerminalState Empty) : Prop := (commandIds state).Nodup

/-- A command is executed under a new id. -/
def FreshCommand (state : TerminalState Empty) : TerminalAction → Prop
  | .commandExecuted commandId _ _ => commandId ∉ commandIds state
  | _ => True

instance (state : TerminalState Empty) : Decidable (DistinctCommands state) :=
  inferInstanceAs (Decidable (List.Nodup _))

instance (state : TerminalState Empty) : ∀ a, Decidable (FreshCommand state a)
  | .commandExecuted commandId _ _ => inferInstanceAs (Decidable (commandId ∉ commandIds state))
  | .data _ | .input _ | .resized _ _ | .claimed _ | .titleChanged _ | .cwdChanged _ | .exited _ | .cleared
  | .commandDetectionAvailable | .commandFinished _ _ _ => inferInstanceAs (Decidable True)

theorem terminalData_eq (content : List (TerminalContentPart Empty)) (data : String) :
    Rust.terminalData content data = terminalData content data := by
  unfold Rust.terminalData terminalData
  cases content.getLast? with
  | none => rfl
  | some part =>
    cases part with
    | unknown raw => exact raw.elim
    | _ => rfl

theorem finishCommand_eq (commandId : String) (exitCode durationMs : Option ℤ)
    (part : TerminalContentPart Empty) :
    (Rust.finishCommand commandId exitCode durationMs part).getD part =
      finishCommand commandId exitCode durationMs part := by
  cases part with
  | unclassified value => rfl
  | command part =>
    simp only [Rust.finishCommand, finishCommand]
    split <;> rfl
  | unknown raw => exact raw.elim

theorem commandId?_of_finishCommand {commandId : String} {exitCode durationMs : Option ℤ}
    {part part' : TerminalContentPart Empty}
    (h : Rust.finishCommand commandId exitCode durationMs part = some part') :
    commandId? part = some commandId := by
  cases part with
  | command part =>
    simp only [Rust.finishCommand] at h
    split at h
    · next heq => rw [commandId?, heq]
    · cases h
  | _ => cases h

theorem applyTerminalAction_eq {state : TerminalState Empty} (h : DistinctCommands state)
    (a : TerminalAction) : (Rust.applyTerminalAction state a).2 = terminalReducer state a := by
  cases a with
  | data data =>
    simp only [Rust.applyTerminalAction, terminalReducer, terminalData_eq]
  | commandFinished commandId exitCode durationMs =>
    have hfinish := funext (finishCommand_eq commandId exitCode durationMs)
    simp only [Rust.applyTerminalAction, terminalReducer, ← hfinish]
    cases hupdate : updateFirst (Rust.finishCommand commandId exitCode durationMs) state.content with
    | none => rw [map_eq_self_of_updateFirst_eq_none hupdate]
    | some content => rw [map_eq_of_updateFirst commandId?_of_finishCommand h hupdate]
  | _ => rfl

/-- Data continues a part of the same command, or opens a part of none. -/
theorem commandIds_terminalData (content : List (TerminalContentPart Empty)) (data : String) :
    (terminalData content data).filterMap commandId? = content.filterMap commandId? := by
  rcases List.eq_nil_or_concat content with rfl | ⟨before, last, rfl⟩
  · rfl
  · cases last with
    | unclassified value =>
      simp [terminalData]
      rfl
    | command part =>
      by_cases hcomplete : part.isComplete = true
      · simp [terminalData, commandId?, hcomplete]
      · simp [terminalData, commandId?, hcomplete]
    | unknown raw => exact raw.elim

theorem commandId?_finishCommand (commandId : String) (exitCode durationMs : Option ℤ)
    (part : TerminalContentPart Empty) :
    commandId? (finishCommand commandId exitCode durationMs part) = commandId? part := by
  cases part with
  | command part =>
    simp only [finishCommand]
    split <;> rfl
  | _ => rfl

/-- The ids of the commands stay distinct. -/
theorem DistinctCommands.step {state : TerminalState Empty} {a : TerminalAction} (h : DistinctCommands state)
    (hfresh : FreshCommand state a) : DistinctCommands (terminalReducer state a) := by
  cases a with
  | data data =>
    rw [DistinctCommands, commandIds, terminalReducer, commandIds_terminalData]
    exact h
  | cleared => exact List.nodup_nil
  | commandExecuted commandId commandLine timestamp =>
    rw [DistinctCommands, commandIds, terminalReducer, List.filterMap_append]
    exact List.nodup_append_comm.mp (List.nodup_cons.mpr ⟨hfresh, h⟩)
  | commandFinished commandId exitCode durationMs =>
    have hids := funext (commandId?_finishCommand commandId exitCode durationMs)
    rw [DistinctCommands, commandIds, terminalReducer, List.filterMap_map]
    exact (congrArg (fun f => (state.content.filterMap f).Nodup) hids).mpr h
  | _ => exact h

/-! ### Changeset -/

theorem filesReviewChanged_eq (state : ChangesetState Empty) (ids : List String) (reviewed : Bool) :
    (Rust.filesReviewChanged state ids reviewed).2 = filesReviewChanged state ids reviewed := by
  simp only [Rust.filesReviewChanged, filesReviewChanged]
  congr 1
  refine List.map_congr_left fun file _ => ?_
  by_cases hkeep : file.id ∉ ids ∨ file.reviewed = some reviewed
  · have hsame : Rust.reviewChanges ids reviewed file = false := by
      simpa [Rust.reviewChanges, or_iff_not_imp_left] using hkeep
    rw [hsame, if_pos hkeep]
    rfl
  · have hchanges : Rust.reviewChanges ids reviewed file = true := by
      simpa [Rust.reviewChanges] using hkeep
    rw [hchanges, if_neg hkeep]
    rfl

theorem operationStatusChanged_eq (state : ChangesetState Empty) (operationId : String)
    (status : ChangesetOperationStatus Empty) (error : Option ErrorInfo) :
    (Rust.operationStatusChanged state operationId status error).2 =
      operationStatusChanged state operationId status error := by
  unfold Rust.operationStatusChanged operationStatusChanged
  cases state.operations with
  | none => rfl
  | some operations =>
    cases hi : operations.findIdx? fun o => o.id = operationId with
    | none => simp only [Ref.find?_eq_none.mpr hi, hi]
    | some i =>
      obtain ⟨current, hcurrent, hfind⟩ := Ref.find?_of_findIdx? hi
      simp only [hfind, hi, Ref.modify, List.modify_eq_set_getElem?, hcurrent, Option.map_eq_map,
        Option.map_some, Option.getD_some]
      cases status with
      | unknown raw => exact raw.elim
      | _ => rfl

theorem applyChangesetAction_eq (state : ChangesetState Empty) (a : ChangesetAction Empty) :
    (Rust.applyChangesetAction state a).2 = changesetReducer state a := by
  cases a with
  | statusChanged status error =>
    cases status with
    | unknown raw => exact raw.elim
    | _ => rfl
  | fileRemoved fileId =>
    simp only [Rust.applyChangesetAction, changesetReducer]
    cases eraseWhere (fun f => f.id = fileId) state.files <;> rfl
  | filesReviewChanged files reviewed => exact filesReviewChanged_eq state files reviewed
  | operationStatusChanged operationId status error =>
    exact operationStatusChanged_eq state operationId status error
  | cleared =>
    simp only [Rust.applyChangesetAction, changesetReducer, List.isEmpty_iff_length_eq_zero]
    split <;> rfl
  | _ => rfl

/-! ### Annotations -/

theorem withEntries_eq (state : AnnotationsState) (annotationId : String)
    (f : List AnnotationEntry → Option (List AnnotationEntry)) :
    (Rust.withEntries state annotationId f).2 = editEntries state annotationId f := by
  unfold Rust.withEntries editEntries
  cases hi : state.annotations.findIdx? fun t => t.id = annotationId with
  | none => simp only [Ref.find?_eq_none.mpr hi]
  | some i =>
    obtain ⟨thread, hthread, hfind⟩ := Ref.find?_of_findIdx? hi
    have hself : state.annotations.set i thread = state.annotations := Ref.find?_lawful hfind
    simp only [hfind, List.modify_eq_set_getElem?, hthread, Option.map_eq_map, Option.map_some,
      Option.getD_some]
    cases f thread.entries with
    | none => exact congrArg AnnotationsState.mk hself.symm
    | some entries => rfl

theorem applyAnnotationsAction_eq (state : AnnotationsState) (a : AnnotationsAction) :
    (Rust.applyAnnotationsAction state a).2 = annotationsReducer state a := by
  cases a with
  | updated a =>
    simp only [Rust.applyAnnotationsAction, annotationsReducer]
    cases hi : state.annotations.findIdx? fun t => t.id = a.annotationId with
    | none => simp only [Ref.find?_eq_none.mpr hi]
    | some i =>
      obtain ⟨thread, hthread, hfind⟩ := Ref.find?_of_findIdx? hi
      simp only [hfind, Ref.modify, List.modify_eq_set_getElem?, hthread, Option.map_eq_map,
        Option.map_some, Option.getD_some]
      rfl
  | removed annotationId =>
    simp only [Rust.applyAnnotationsAction, annotationsReducer]
    cases eraseWhere (fun t => t.id = annotationId) state.annotations <;> rfl
  | set thread => rfl
  | entrySet annotationId entry => exact withEntries_eq state annotationId _
  | entryRemoved annotationId entryId => exact withEntries_eq state annotationId _

/-! ### Runs -/

/-- **Agreement**: along every run the Rust reducers leave what those of TypeScript do; for terminals
if their commands have distinct ids and commands are executed under new ones. -/
theorem channels_agree :
    (∀ state : TerminalState Empty, DistinctCommands state → ∀ actions,
      Guarded (fun s a => some (terminalReducer s a)) FreshCommand state actions →
      actions.foldl (fun s a => (Rust.applyTerminalAction s a).2) state = actions.foldl terminalReducer state) ∧
    (∀ (state : ChangesetState Empty) (actions : List (ChangesetAction Empty)),
      actions.foldl (fun s a => (Rust.applyChangesetAction s a).2) state =
        actions.foldl changesetReducer state) ∧
    ∀ (state : AnnotationsState) (actions : List AnnotationsAction),
      actions.foldl (fun s a => (Rust.applyAnnotationsAction s a).2) state =
        actions.foldl annotationsReducer state := by
  refine ⟨fun state h actions hguarded => ?_, fun state actions => ?_, fun state actions => ?_⟩
  · exact @foldl_agrees _ _ (fun s a => (Rust.applyTerminalAction s a).2) terminalReducer FreshCommand
      DistinctCommands applyTerminalAction_eq DistinctCommands.step state h actions hguarded
  · rw [funext₂ applyChangesetAction_eq]
  · rw [funext₂ applyAnnotationsAction_eq]

/-- A command that is finished after another one was executed. -/
def twoCommands : List TerminalAction :=
  [.commandExecuted "1" "sleep 9 &" 0, .data "[1] 4711\n", .commandExecuted "2" "ls" 1, .data "src",
    .commandFinished "1" none (some 9000), .commandFinished "2" (some 0) none]

theorem channels_agree_two_commands :
    twoCommands.foldl (fun s a => (Rust.applyTerminalAction s a).2) TerminalState.new =
      twoCommands.foldl terminalReducer TerminalState.new :=
  channels_agree.1 TerminalState.new (by decide) twoCommands (by decide)

end AgentHostProtocol.Agreement
