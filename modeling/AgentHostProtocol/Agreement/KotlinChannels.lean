import AgentHostProtocol.Agreement.KotlinChat
import AgentHostProtocol.Channels.Reducers
import AgentHostProtocol.Kotlin.Channels
import AgentHostProtocol.Library.Runs

/-!
# Where the other Kotlin channels are those of TypeScript

**What is proved** (`kotlinChannels_agree`): on every run of actions, of whatever channels, each Kotlin
reducer leaves the state that the TypeScript reducer makes of the actions of its own channel, in
their order. Nothing is asked of the states.
-/

namespace AgentHostProtocol.Agreement.KotlinChannels

open Library

/-- An action of any channel as the Kotlin classes hold it. -/
def toKotlin : Channels.StateAction → Kotlin.StateAction Empty
  | .root a => .root a
  | .session a => .session a
  | .chat a => .chat (KotlinChat.toKotlin a)
  | .canvas a => .canvas a
  | .terminal a => .terminal a
  | .changeset a => .changeset a
  | .annotations a => .annotations a
  | .resourceWatch a => .resourceWatch a
  | .automation a => .automation a
  | .automationRun a => .automationRun a

/-! ### The actions of one channel -/

def root? : Channels.StateAction → Option RootAction
  | .root a => some a
  | _ => none

def canvas? : Channels.StateAction → Option CanvasAction
  | .canvas a => some a
  | _ => none

def terminal? : Channels.StateAction → Option TerminalAction
  | .terminal a => some a
  | _ => none

def changeset? : Channels.StateAction → Option (ChangesetAction Empty)
  | .changeset a => some a
  | _ => none

def annotations? : Channels.StateAction → Option AnnotationsAction
  | .annotations a => some a
  | _ => none

def automation? : Channels.StateAction → Option AutomationAction
  | .automation a => some a
  | _ => none

def automationRun? : Channels.StateAction → Option AutomationRunAction
  | .automationRun a => some a
  | _ => none

/-! ### Root and canvas -/

theorem rootReducer_eq (s : RootState) (a : Channels.StateAction) :
    Kotlin.rootReducer s (toKotlin a) = ((root? a).map (Channels.rootReducer s)).getD s := by
  cases a with
  | root a =>
    cases a with
    | configChanged values replace =>
      simp only [toKotlin, Kotlin.rootReducer, Kotlin.rootConfigChanged, root?, Channels.rootReducer,
        Option.map_some, Option.getD_some]
      cases s.config with
      | none => rfl
      | some config => rcases replace with _ | _ | _ <;> simp
    | _ => rfl
  | _ => rfl

theorem canvasReducer_eq (s : CanvasState) (a : Channels.StateAction) :
    Kotlin.canvasReducer s (toKotlin a) = ((canvas? a).map (Channels.canvasReducer s)).getD s := by
  cases a with
  | canvas a => cases a; rfl
  | _ => rfl

/-! ### Terminal -/

/-- The last element of a list under another one. -/
theorem set_last {α : Type} {l : List α} {x : α} (hlast : l.getLast? = some x) (y : α) :
    l.set (l.length - 1) y = l.dropLast ++ [y] := by
  obtain ⟨before, rfl⟩ := List.getLast?_eq_some_iff.mp hlast
  simp

theorem terminalData_eq (content : List (TerminalContentPart Empty)) (data : String) :
    Kotlin.terminalData content data = Channels.terminalData content data := by
  unfold Kotlin.terminalData Channels.terminalData
  cases hlast : content.getLast? with
  | none => rfl
  | some part =>
    cases part with
    | unknown raw => exact raw.elim
    | unclassified value => exact set_last hlast _
    | command tail =>
      simp only [set_last hlast]
      cases tail.isComplete <;> rfl

theorem finishCommand_eq (commandId : String) (exitCode durationMs : Option ℤ) :
    Kotlin.finishCommand commandId exitCode durationMs =
      Channels.finishCommand commandId exitCode durationMs := by
  funext part
  cases part <;> rfl

theorem terminalReducer_eq (s : TerminalState Empty) (a : Channels.StateAction) :
    Kotlin.terminalReducer s (toKotlin a) = ((terminal? a).map (Channels.terminalReducer s)).getD s := by
  cases a with
  | terminal a =>
    cases a with
    | data data => simp [toKotlin, Kotlin.terminalReducer, terminal?, Channels.terminalReducer, terminalData_eq]
    | commandFinished commandId exitCode durationMs =>
      simp [toKotlin, Kotlin.terminalReducer, terminal?, Channels.terminalReducer, finishCommand_eq]
    | _ => rfl
  | _ => rfl

/-! ### Changeset -/

theorem filesReviewChanged_eq (s : ChangesetState Empty) (ids : List String) (reviewed : Bool) :
    Kotlin.filesReviewChanged s ids reviewed = Channels.filesReviewChanged s ids reviewed := by
  have hmap : ∀ file : ChangesetFile,
      (if decide (file.id ∉ ids) || decide (file.reviewed = some reviewed) then file
        else { file with reviewed := some reviewed }) =
      if file.id ∉ ids ∨ file.reviewed = some reviewed then file
        else { file with reviewed := some reviewed } := by
    intro file
    simp
  simp only [Kotlin.filesReviewChanged, Channels.filesReviewChanged, hmap]
  split
  · rfl
  · next hnone =>
    -- no file changes
    have hsame : s.files.map (fun file =>
        if file.id ∉ ids ∨ file.reviewed = some reviewed then file
        else { file with reviewed := some reviewed }) = s.files := by
      refine (List.map_congr_left fun file hfile => if_pos ?_).trans (List.map_id s.files)
      have hkept := List.any_eq_false.mp (Bool.eq_false_iff.mpr hnone) file hfile
      simpa [or_iff_not_imp_left] using hkept
    rw [hsame]

theorem operationStatusChanged_eq (s : ChangesetState Empty) (operationId : String)
    (status : ChangesetOperationStatus Empty) (error : Option ErrorInfo) :
    Kotlin.operationStatusChanged s operationId status error =
      Channels.operationStatusChanged s operationId status error := by
  unfold Kotlin.operationStatusChanged Channels.operationStatusChanged
  cases s.operations with
  | none => rfl
  | some operations =>
    dsimp only
    cases hi : operations.findIdx? fun o => o.id = operationId with
    | none => rfl
    | some idx =>
      obtain ⟨current, hget, -⟩ := getElem?_of_findIdx? hi
      simp only [hget, List.modify_eq_set_getElem?, Option.map_eq_map, Option.map_some, Option.getD_some]
      cases status with
      | unknown raw => exact raw.elim
      | _ => rfl

theorem changesetReducer_eq (s : ChangesetState Empty) (a : Channels.StateAction) :
    Kotlin.changesetReducer s (toKotlin a) = ((changeset? a).map (Channels.changesetReducer s)).getD s := by
  cases a with
  | changeset a =>
    cases a with
    | statusChanged status error =>
      cases status with
      | unknown raw => exact raw.elim
      | _ => rfl
    | filesReviewChanged files reviewed => exact filesReviewChanged_eq s files reviewed
    | contentChanged files operations => cases operations <;> rfl
    | operationStatusChanged operationId status error =>
      exact operationStatusChanged_eq s operationId status error
    | cleared =>
      simp [toKotlin, Kotlin.changesetReducer, changeset?, Channels.changesetReducer]
    | _ => rfl
  | _ => rfl

/-! ### Annotations -/

theorem editAnnotation_eq (s : AnnotationsState) (annotationId : String)
    (f : List AnnotationEntry → Option (List AnnotationEntry)) :
    Kotlin.editAnnotation s annotationId (fun thread =>
        (f thread.entries).map fun entries => { thread with entries := entries }) =
      Channels.editEntries s annotationId f := by
  unfold Kotlin.editAnnotation Channels.editEntries
  cases hi : s.annotations.findIdx? fun t => t.id = annotationId with
  | none => rfl
  | some idx =>
    obtain ⟨thread, hget, -⟩ := getElem?_of_findIdx? hi
    simp only [hget, List.modify_eq_set_getElem?, Option.map_eq_map, Option.map_some, Option.getD_some,
      Option.bind_some]
    cases f thread.entries with
    | none => simp [set_eq_self hget]
    | some entries => rfl

theorem annotationsReducer_eq (s : AnnotationsState) (a : Channels.StateAction) :
    Kotlin.annotationsReducer s (toKotlin a) =
      ((annotations? a).map (Channels.annotationsReducer s)).getD s := by
  cases a with
  | annotations a =>
    cases a with
    | updated a =>
      simp only [toKotlin, Kotlin.annotationsReducer, Kotlin.editAnnotation, annotations?,
        Channels.annotationsReducer, Option.map_some, Option.getD_some]
      cases hi : s.annotations.findIdx? fun t => t.id = a.annotationId with
      | none => rfl
      | some idx =>
        obtain ⟨thread, hget, -⟩ := getElem?_of_findIdx? hi
        simp [hget, List.modify_eq_set_getElem?, Channels.updateThread]
    | entrySet annotationId entry =>
      exact editAnnotation_eq s annotationId fun entries =>
        some (upsertWhere (fun c => c.id = entry.id) entry entries)
    | entryRemoved annotationId entryId => exact editAnnotation_eq s annotationId _
    | _ => rfl
  | _ => rfl

/-! ### Automations -/

theorem automationReducer_eq (s : AutomationState) (a : Channels.StateAction) :
    Kotlin.automationReducer s (toKotlin a) = ((automation? a).map (Channels.automationReducer s)).getD s := by
  cases a with
  | automation a => cases a <;> rfl
  | _ => rfl

theorem automationRunReducer_eq (s : AutomationRunState) (a : Channels.StateAction) :
    Kotlin.automationRunReducer s (toKotlin a) =
      ((automationRun? a).map (Channels.automationRunReducer s)).getD s := by
  cases a with
  | automationRun a => cases a <;> rfl
  | _ => rfl

theorem resourceWatchReducer_eq (s : ResourceWatchState) (a : Channels.StateAction) :
    Kotlin.resourceWatchReducer s (toKotlin a) = s := by
  cases a with
  | resourceWatch a => cases a; rfl
  | _ => rfl

/-! ### Runs -/

/-- **The other Kotlin channels**: on a run of actions of all channels, each reducer does what the
TypeScript reducer does on the actions of its channel. -/
theorem kotlinChannels_agree (as : List Channels.StateAction) :
    (∀ s, (as.map toKotlin).foldl Kotlin.rootReducer s =
      (as.filterMap root?).foldl Channels.rootReducer s) ∧
    (∀ s, (as.map toKotlin).foldl Kotlin.canvasReducer s =
      (as.filterMap canvas?).foldl Channels.canvasReducer s) ∧
    (∀ s, (as.map toKotlin).foldl Kotlin.terminalReducer s =
      (as.filterMap terminal?).foldl Channels.terminalReducer s) ∧
    (∀ s, (as.map toKotlin).foldl Kotlin.changesetReducer s =
      (as.filterMap changeset?).foldl Channels.changesetReducer s) ∧
    (∀ s, (as.map toKotlin).foldl Kotlin.annotationsReducer s =
      (as.filterMap annotations?).foldl Channels.annotationsReducer s) ∧
    (∀ s, (as.map toKotlin).foldl Kotlin.resourceWatchReducer s = s) ∧
    (∀ s, (as.map toKotlin).foldl Kotlin.automationReducer s =
      (as.filterMap automation?).foldl Channels.automationReducer s) ∧
    ∀ s, (as.map toKotlin).foldl Kotlin.automationRunReducer s =
      (as.filterMap automationRun?).foldl Channels.automationRunReducer s := by
  simp only [List.foldl_map]
  refine ⟨fun s => ?_, fun s => ?_, fun s => ?_, fun s => ?_, fun s => ?_, fun s => ?_, fun s => ?_, fun s => ?_⟩
  · exact foldl_filterMap_own rootReducer_eq s as
  · exact foldl_filterMap_own canvasReducer_eq s as
  · exact foldl_filterMap_own terminalReducer_eq s as
  · exact foldl_filterMap_own changesetReducer_eq s as
  · exact foldl_filterMap_own annotationsReducer_eq s as
  · simp only [resourceWatchReducer_eq]
    exact List.foldl_fixed' (fun _ => rfl) as
  · exact foldl_filterMap_own automationReducer_eq s as
  · exact foldl_filterMap_own automationRunReducer_eq s as

end AgentHostProtocol.Agreement.KotlinChannels
