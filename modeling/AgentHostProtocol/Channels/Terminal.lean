import AgentHostProtocol.Channels.Reducers
import Mathlib.Data.List.Chain

/-!
# The output of a terminal

The data of a terminal goes to the last part of its content or opens a new part, and commands
that are executed and finished change which part that is. `Conserves data old new` says what an
action does to the content: `data` comes after its text, no two unclassified parts become
adjacent, and the parts stay where they are.

**What is proved** (`output_conserved`): along any run without `terminal/cleared` the text of the
content is what it was, followed by the data of the run in order.
-/

namespace AgentHostProtocol.Channels

open Library

/-- The text of a part. -/
def partText : TerminalContentPart Empty → String
  | .unclassified value => value
  | .command part => part.output
  | .unknown raw => raw.elim

def isUnclassified : TerminalContentPart Empty → Bool
  | .unclassified _ => true
  | _ => false

/-- The command whose output a part is. -/
def commandId? : TerminalContentPart Empty → Option String
  | .command part => some part.commandId
  | _ => none

/-- The text of all parts. -/
def contentText (content : List (TerminalContentPart Empty)) : String :=
  String.join (content.map partText)

/-- No two adjacent parts are unclassified. -/
def Apart (content : List (TerminalContentPart Empty)) : Prop :=
  content.IsChain fun x y => ¬ (isUnclassified x = true ∧ isUnclassified y = true)

instance (content : List (TerminalContentPart Empty)) : Decidable (Apart content) :=
  inferInstanceAs (Decidable (List.IsChain _ _))

/-- A part of the same kind, of the same command. -/
def SamePart (x y : TerminalContentPart Empty) : Prop :=
  isUnclassified y = isUnclassified x ∧ commandId? y = commandId? x

/-- What an action does to the content: `data` is added to the text, no unclassified parts become
adjacent, and the parts stay. -/
structure Conserves (data : String) (old new : List (TerminalContentPart Empty)) : Prop where
  text : contentText new = contentText old ++ data
  apart : Apart old → Apart new
  kept : Grows SamePart old new

namespace Conserves

variable {data : String} {old new : List (TerminalContentPart Empty)}

theorem refl (content : List (TerminalContentPart Empty)) : Conserves "" content content where
  text := (String.append_empty).symm
  apart := id
  kept := Grows.refl (fun _ => ⟨rfl, rfl⟩) content

theorem trans {data' : String} {newer : List (TerminalContentPart Empty)}
    (h : Conserves data old new) (h' : Conserves data' new newer) :
    Conserves (data ++ data') old newer where
  text := by rw [h'.text, h.text, String.append_assoc]
  apart := fun hold => h'.apart (h.apart hold)
  kept := Grows.trans (fun h₁ h₂ => ⟨h₂.1.trans h₁.1, h₂.2.trans h₁.2⟩) h.kept h'.kept

/-- Parts that are edited in place. -/
theorem of_forall₂ (htext : contentText new = contentText old ++ data)
    (h : List.Forall₂ SamePart old new) : Conserves data old new where
  text := htext
  apart := by
    intro hold
    have hmap : new.map isUnclassified = old.map isUnclassified := by
      clear htext hold
      induction h with
      | nil => rfl
      | cons hxy _ ih => rw [List.map_cons, List.map_cons, hxy.1, ih]
    have hchain := (List.isChain_map (R := fun x y => ¬ (x = true ∧ y = true)) isUnclassified).mpr hold
    rw [← hmap] at hchain
    exact (List.isChain_map _).mp hchain
  kept := by simpa using Grows.of_forall₂ h []

/-- The last part gets more text. -/
theorem edit_last (before : List (TerminalContentPart Empty)) {x y : TerminalContentPart Empty}
    (hsame : SamePart x y) (htext : partText y = partText x ++ data) :
    Conserves data (before ++ [x]) (before ++ [y]) := by
  apply of_forall₂
  · simp only [contentText, List.map_append, String.join_append, List.map_cons, List.map_nil,
      String.join_cons, String.join_nil, String.append_empty, htext, String.append_assoc]
  · refine List.rel_append ?_ (.cons hsame .nil)
    exact List.forall₂_same.mpr fun x _ => ⟨rfl, rfl⟩

/-- A new part after one that is of another kind. -/
theorem push {content : List (TerminalContentPart Empty)} {part : TerminalContentPart Empty}
    (htext : partText part = data)
    (hkind : isUnclassified part = true → ∀ x, content.getLast? = some x → isUnclassified x = false) :
    Conserves data content (content ++ [part]) where
  text := by
    simp only [contentText, List.map_append, String.join_append, List.map_cons, List.map_nil,
      String.join_cons, String.join_nil, String.append_empty, htext]
  apart := by
    intro hold
    refine List.IsChain.append hold (List.isChain_singleton _) fun x hx y hy => ?_
    cases hy
    rintro ⟨hx', hpart⟩
    rw [hkind hpart x hx] at hx'
    cases hx'
  kept := Grows.of_forall₂ (List.forall₂_same.mpr fun _ _ => ⟨rfl, rfl⟩) [part]

end Conserves

/-! ### The actions -/

theorem terminalData_conserves (content : List (TerminalContentPart Empty)) (data : String) :
    Conserves data content (terminalData content data) := by
  rcases List.eq_nil_or_concat content with rfl | ⟨before, last, rfl⟩
  · exact .push rfl fun _ x hx => by cases hx
  · simp only [List.concat_eq_append, terminalData, List.getLast?_append, List.getLast?_singleton,
      Option.some_or, List.dropLast_concat]
    cases last with
    | unclassified value => exact .edit_last before ⟨rfl, rfl⟩ rfl
    | command tail =>
      by_cases hcomplete : tail.isComplete = true
      · simp only [hcomplete, if_true]
        refine .push rfl fun _ x hx => ?_
        simp only [List.getLast?_append, List.getLast?_singleton, Option.some_or] at hx
        cases hx
        rfl
      · simp only [hcomplete]
        exact .edit_last before ⟨rfl, rfl⟩ rfl
    | unknown raw => exact raw.elim

theorem finishCommand_conserves (content : List (TerminalContentPart Empty)) (commandId : String)
    (exitCode durationMs : Option ℤ) :
    Conserves "" content (content.map (finishCommand commandId exitCode durationMs)) := by
  have hpart : ∀ part, SamePart part (finishCommand commandId exitCode durationMs part) ∧
      partText (finishCommand commandId exitCode durationMs part) = partText part := by
    intro part
    cases part with
    | unclassified value => exact ⟨⟨rfl, rfl⟩, rfl⟩
    | command part =>
      simp only [finishCommand]
      split <;> exact ⟨⟨rfl, rfl⟩, rfl⟩
    | unknown raw => exact raw.elim
  apply Conserves.of_forall₂
  · simp only [contentText, List.map_map, String.append_empty]
    congr 1
    exact List.map_congr_left fun part _ => (hpart part).2
  · exact forall₂_map fun part => (hpart part).1

/-- The data that an action brings. -/
def actionData : TerminalAction → String
  | .data data => data
  | _ => ""

/-- Any action but `terminal/cleared`. -/
theorem terminalReducer_conserves (state : TerminalState Empty) {a : TerminalAction} (h : a ≠ .cleared) :
    Conserves (actionData a) state.content (terminalReducer state a).content := by
  cases a with
  | data data => exact terminalData_conserves state.content data
  | commandExecuted commandId commandLine timestamp => exact .push rfl fun h => by cases h
  | commandFinished commandId exitCode durationMs =>
    exact finishCommand_conserves state.content commandId exitCode durationMs
  | cleared => exact absurd rfl h
  | _ => exact .refl state.content

theorem foldl_conserves (state : TerminalState Empty) {actions : List TerminalAction}
    (h : .cleared ∉ actions) :
    Conserves (String.join (actions.map actionData)) state.content
      (actions.foldl terminalReducer state).content := by
  induction actions generalizing state with
  | nil => exact .refl state.content
  | cons a actions ih =>
    rw [List.mem_cons, not_or] at h
    have hone := terminalReducer_conserves state (Ne.symm h.1)
    have hrest := ih (terminalReducer state a) h.2
    rw [List.map_cons, String.join_cons, List.foldl_cons]
    exact hone.trans hrest

/-- **Conservation**: without `terminal/cleared`, the text of the content is what it was, followed
by the data of all actions in order; unclassified parts stay apart; and the parts that were there
keep their places and command ids. -/
theorem output_conserved {state : TerminalState Empty} (hapart : Apart state.content)
    {actions : List TerminalAction} (huncleared : .cleared ∉ actions) :
    contentText (actions.foldl terminalReducer state).content =
        contentText state.content ++ String.join (actions.map actionData) ∧
      Apart (actions.foldl terminalReducer state).content ∧
      Grows SamePart state.content (actions.foldl terminalReducer state).content :=
  have h := foldl_conserves state huncleared
  ⟨h.text, h.apart hapart, h.kept⟩

/-- A terminal that has just started. -/
def TerminalState.new : TerminalState Empty where
  title := "zsh"
  cwd := none
  cols := none
  rows := none
  content := []
  lifecycle := .running
  claim := ⟨"\x7b\x7d"⟩
  supportsCommandDetection := none
  isPty := none

/-- A prompt, a command with its output, and the next prompt. -/
theorem output_conserved_prompt :
    contentText ([.data "$ ", .commandExecuted "1" "ls" 0, .data "src", .commandFinished "1" (some 0) none,
      .data "$ "].foldl terminalReducer TerminalState.new).content = "$ src$ " :=
  have hapart : Apart TerminalState.new.content := by decide
  (output_conserved hapart (by simp)).1.trans (by decide)

end AgentHostProtocol.Channels
