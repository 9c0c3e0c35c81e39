import AgentHostProtocol.Channels.Terminal
import AgentHostProtocol.Chat.Steps

/-!
# Combining streaming updates

A server may hold back updates of streaming text and send them as one. Two updates of one target
are the update with both texts, in which an optional field is the later one that is present;
`foldl_batch` makes lists of them.

**What is proved** (`streaming_combined`): a list of `chat/delta`, `chat/reasoning`,
`chat/toolCallDelta` or `terminal/data` actions for one target does what the combined action does,
whatever the target is and whether it is there.
-/

namespace AgentHostProtocol.Channels

open Library Chat

/-! ### Optional fields -/

/-- The last value that is present. -/
def lastPresent {α : Type} : List (Option α) → Option α
  | [] => none
  | x :: l => (lastPresent l).or x

/-- The concatenation of the texts that are present, absent when none is. -/
def joinPresent : List (Option String) → Option String
  | [] => none
  | none :: l => joinPresent l
  | some x :: l => some (x ++ (joinPresent l).getD "")

/-- Two optional texts, one after the other. -/
def appendPresent : Option String → Option String → Option String
  | none, y => y
  | some x, y => some (x ++ y.getD "")

theorem joinPresent_cons (x : Option String) (l : List (Option String)) :
    joinPresent (x :: l) = appendPresent x (joinPresent l) := by
  cases x <;> rfl

/-! ### Two updates of one target -/

section

variable (s : ChatState Empty) (turnId id : String)

theorem activeTurnOf_withResponseParts {turn : ActiveTurn Empty} (hturn : activeTurnOf s turnId = some turn)
    (parts : List (ResponsePart Empty)) : activeTurnOf (withResponseParts s turn parts) turnId =
      some { turn with responseParts := parts } :=
  activeTurnOf_eq_some.mpr ⟨rfl, (activeTurnOf_eq_some.mp hturn).2⟩

/-- The parts are rewritten, to what they were if no part has the id. -/
theorem updateResponsePart_eq {turn : ActiveTurn Empty} (hturn : activeTurnOf s turnId = some turn)
    (f : ResponsePart Empty → ResponsePart Empty) :
    updateResponsePart s turnId id f = withResponseParts s turn
      ((updateFirst (fun part => if partId part = some id then some (f part) else none)
        turn.responseParts).getD turn.responseParts) := by
  simp only [updateResponsePart, hturn]
  cases updateFirst (fun part => if partId part = some id then some (f part) else none)
      turn.responseParts with
  | none =>
    rw [Option.getD_none, withResponseParts, ← (activeTurnOf_eq_some.mp hturn).1]
  | some parts => rfl

theorem updateResponsePart_updateResponsePart {f g : ResponsePart Empty → ResponsePart Empty}
    (hf : ∀ part, partId (f part) = partId part) :
    updateResponsePart (updateResponsePart s turnId id f) turnId id g =
      updateResponsePart s turnId id fun part => g (f part) := by
  cases hturn : activeTurnOf s turnId with
  | none => simp only [updateResponsePart, hturn]
  | some turn =>
    rw [updateResponsePart_eq s turnId id hturn f, updateResponsePart_eq s turnId id hturn]
    have htwice := updateFirst_getD_getD (p := fun part => partId part = some id) (f := f) (g := g)
      (fun part hpart => (hf part).trans hpart) (l := turn.responseParts) rfl
    rw [← htwice]
    exact updateResponsePart_eq _ turnId id (activeTurnOf_withResponseParts s turnId hturn _) g

theorem updateToolCallInParts_eq {turn : ActiveTurn Empty} (hturn : activeTurnOf s turnId = some turn)
    (f : ToolCallState Empty → ToolCallState Empty) :
    updateToolCallInParts s turnId id f =
      withResponseParts s turn (turn.responseParts.map (updateToolCall id f)) := by
  simp only [updateToolCallInParts, hturn]

theorem updateToolCallInParts_updateToolCallInParts {f g : ToolCallState Empty → ToolCallState Empty}
    (hf : ∀ tc, (tcBase (f tc)).toolCallId = (tcBase tc).toolCallId) :
    updateToolCallInParts (updateToolCallInParts s turnId id f) turnId id g =
      updateToolCallInParts s turnId id fun tc => g (f tc) := by
  cases hturn : activeTurnOf s turnId with
  | none => simp only [updateToolCallInParts, hturn]
  | some turn =>
    have htwice : updateToolCall id (fun tc => g (f tc)) =
        updateToolCall id g ∘ updateToolCall id f := by
      funext part
      cases part with
      | toolCall tc =>
        by_cases htc : (tcBase tc).toolCallId = id
        · simp only [Function.comp, updateToolCall, htc, hf tc, if_true]
        · simp only [Function.comp, updateToolCall, htc, if_false]
      | _ => rfl
    rw [updateToolCallInParts_eq s turnId id hturn f, updateToolCallInParts_eq s turnId id hturn,
      htwice, ← List.map_map]
    exact updateToolCallInParts_eq _ turnId id (activeTurnOf_withResponseParts s turnId hturn _) g

end

/-! ### The four kinds of update -/

/-- The `chat/delta` actions of a batch as one. -/
def combinedDelta (turnId partId : String) (actions : List ChatDeltaAction) : ChatDeltaAction :=
  ⟨turnId, partId, String.join (actions.map (·.content))⟩

/-- The `chat/reasoning` actions of a batch as one. -/
def combinedReasoning (turnId partId : String) (actions : List ChatReasoningAction) :
    ChatReasoningAction where
  turnId := turnId
  partId := partId
  content := String.join (actions.map (·.content))
  startedAt := lastPresent (actions.map (·.startedAt))
  duration := lastPresent (actions.map (·.duration))

/-- The `chat/toolCallDelta` actions of a batch as one. -/
def combinedToolCallDelta (turnId toolCallId : String) (actions : List ChatToolCallDeltaAction) :
    ChatToolCallDeltaAction where
  turnId := turnId
  toolCallId := toolCallId
  _meta := lastPresent (actions.map (·._meta))
  content := joinPresent (actions.map (·.content))
  invocationMessage := lastPresent (actions.map (·.invocationMessage))

variable {turnId partId toolCallId : String}

theorem delta_combined (s : ChatState Empty) {actions : List ChatDeltaAction} (hne : actions ≠ [])
    (h : ∀ a ∈ actions, a.turnId = turnId ∧ a.partId = partId) :
    actions.foldl (fun s a => updateResponsePart s a.turnId a.partId (deltaPart a)) s =
      updateResponsePart s turnId partId (deltaPart (combinedDelta turnId partId actions)) := by
  refine foldl_batch (fun s a => updateResponsePart s a.turnId a.partId (deltaPart a))
    (fun a b => { b with content := a.content ++ b.content }) (combinedDelta turnId partId)
    (P := fun a => a.turnId = turnId ∧ a.partId = partId) ?_ ?_ ?_ ?_ s hne h
  · rintro ⟨_, _, content⟩ ⟨rfl, rfl⟩
    simp [combinedDelta]
  · intro a b as
    simp only [combinedDelta, List.map_cons, String.join_cons]
  · exact fun _ => ⟨rfl, rfl⟩
  · rintro s ⟨_, _, content⟩ ⟨_, _, content'⟩ ⟨rfl, rfl⟩ ⟨rfl, rfl⟩
    rw [updateResponsePart_updateResponsePart]
    · congr 1
      funext part
      cases part <;> simp [deltaPart, String.append_assoc]
    · intro part
      cases part <;> rfl

theorem reasoning_combined (s : ChatState Empty) {actions : List ChatReasoningAction}
    (hne : actions ≠ []) (h : ∀ a ∈ actions, a.turnId = turnId ∧ a.partId = partId) :
    actions.foldl (fun s a => updateResponsePart s a.turnId a.partId (reasoningPart a)) s =
      updateResponsePart s turnId partId (reasoningPart (combinedReasoning turnId partId actions)) := by
  refine foldl_batch (fun s a => updateResponsePart s a.turnId a.partId (reasoningPart a))
    (fun a b =>
      { b with
        content := a.content ++ b.content
        startedAt := b.startedAt.or a.startedAt
        duration := b.duration.or a.duration })
    (combinedReasoning turnId partId) (P := fun a => a.turnId = turnId ∧ a.partId = partId)
    ?_ ?_ ?_ ?_ s hne h
  · rintro ⟨_, _, content, startedAt, duration⟩ ⟨rfl, rfl⟩
    simp [combinedReasoning, lastPresent]
  · intro a b as
    simp only [combinedReasoning, List.map_cons, String.join_cons, lastPresent]
  · exact fun _ => ⟨rfl, rfl⟩
  · rintro s ⟨_, _, content, startedAt, duration⟩ ⟨_, _, content', startedAt', duration'⟩ ⟨rfl, rfl⟩
      ⟨rfl, rfl⟩
    rw [updateResponsePart_updateResponsePart]
    · congr 1
      funext part
      cases part <;> simp [reasoningPart, String.append_assoc, Option.or_assoc]
    · intro part
      cases part <;> rfl

theorem toolCallDelta_combined (s : ChatState Empty) {actions : List ChatToolCallDeltaAction}
    (hne : actions ≠ []) (h : ∀ a ∈ actions, a.turnId = turnId ∧ a.toolCallId = toolCallId) :
    actions.foldl (fun s a => updateToolCallInParts s a.turnId a.toolCallId (toolCallDelta a)) s =
      updateToolCallInParts s turnId toolCallId
        (toolCallDelta (combinedToolCallDelta turnId toolCallId actions)) := by
  refine foldl_batch (fun s a => updateToolCallInParts s a.turnId a.toolCallId (toolCallDelta a))
    (fun a b =>
      { b with
        _meta := b._meta.or a._meta
        content := appendPresent a.content b.content
        invocationMessage := b.invocationMessage.or a.invocationMessage })
    (combinedToolCallDelta turnId toolCallId)
    (P := fun a => a.turnId = turnId ∧ a.toolCallId = toolCallId) ?_ ?_ ?_ ?_ s hne h
  · rintro ⟨⟨_, _, _⟩, content, _⟩ ⟨rfl, rfl⟩
    cases content <;> simp [combinedToolCallDelta, lastPresent, joinPresent]
  · intro a b as
    simp only [combinedToolCallDelta, List.map_cons, joinPresent_cons, lastPresent]
  · exact fun _ => ⟨rfl, rfl⟩
  · rintro s ⟨⟨_, _, _⟩, content, _⟩ ⟨⟨_, _, _⟩, content', _⟩ ⟨rfl, rfl⟩ ⟨rfl, rfl⟩
    rw [updateToolCallInParts_updateToolCallInParts _ _ _ fun tc => (toolCallDelta_step _ tc).toolCallId]
    congr 1
    funext tc
    cases tc with
    | streaming tc =>
      cases content <;> cases content' <;>
        simp [toolCallDelta, appendPresent, String.append_assoc, Option.or_assoc]
    | _ => rfl

theorem terminalData_combined (content : List (TerminalContentPart Empty)) (data data' : String) :
    terminalData (terminalData content data) data' = terminalData content (data ++ data') := by
  rcases List.eq_nil_or_concat content with rfl | ⟨before, last, rfl⟩
  · rfl
  · cases last with
    | unclassified value => simp [terminalData, String.append_assoc]
    | command tail =>
      by_cases hcomplete : tail.isComplete = true
      · simp [terminalData, hcomplete]
      · simp [terminalData, hcomplete, String.append_assoc]
    | unknown raw => exact raw.elim

theorem data_combined (s : TerminalState Empty) {data : List String} (hne : data ≠ []) :
    data.foldl (fun s d => terminalReducer s (.data d)) s = terminalReducer s (.data (String.join data)) := by
  refine foldl_batch (fun s d => terminalReducer s (.data d)) (· ++ ·) String.join (P := fun _ => True)
    ?_ ?_ ?_ ?_ s hne fun _ _ => trivial
  · simp
  · intro a b as
    simp only [String.join_cons]
  · exact fun _ => trivial
  · intro s a b _ _
    simp only [terminalReducer, terminalData_combined]

/-- **Batches**: updates of one target are the update with all their text. -/
theorem streaming_combined (legacyParse : String → Option ℤ) :
    (∀ (s : ChatState Empty) (turnId partId : String) (actions : List ChatDeltaAction), actions ≠ [] →
      (∀ a ∈ actions, a.turnId = turnId ∧ a.partId = partId) →
      runs (chatReducer legacyParse) s (actions.map .delta) =
        chatReducer legacyParse s (.delta (combinedDelta turnId partId actions))) ∧
    (∀ (s : ChatState Empty) (turnId partId : String) (actions : List ChatReasoningAction), actions ≠ [] →
      (∀ a ∈ actions, a.turnId = turnId ∧ a.partId = partId) →
      runs (chatReducer legacyParse) s (actions.map .reasoning) =
        chatReducer legacyParse s (.reasoning (combinedReasoning turnId partId actions))) ∧
    (∀ (s : ChatState Empty) (turnId toolCallId : String) (actions : List ChatToolCallDeltaAction),
      actions ≠ [] → (∀ a ∈ actions, a.turnId = turnId ∧ a.toolCallId = toolCallId) →
      runs (chatReducer legacyParse) s (actions.map .toolCallDelta) =
        chatReducer legacyParse s (.toolCallDelta (combinedToolCallDelta turnId toolCallId actions))) ∧
    ∀ (s : TerminalState Empty) (data : List String), data ≠ [] →
      (data.map .data).foldl terminalReducer s = terminalReducer s (.data (String.join data)) := by
  refine ⟨fun s turnId partId actions hne h => ?_, fun s turnId partId actions hne h => ?_,
    fun s turnId toolCallId actions hne h => ?_, fun s data hne => ?_⟩
  · rw [runs_map_of_total (chatReducer legacyParse) (fun _ _ => rfl), delta_combined s hne h]
    rfl
  · rw [runs_map_of_total (chatReducer legacyParse) (fun _ _ => rfl), reasoning_combined s hne h]
    rfl
  · rw [runs_map_of_total (chatReducer legacyParse) (fun _ _ => rfl), toolCallDelta_combined s hne h]
    rfl
  · rw [List.foldl_map, data_combined s hne]

/-- Two chunks of output, the first of which opens the part that the second goes to. -/
theorem streaming_combined_chunks :
    (["ls", "\n"].map TerminalAction.data).foldl terminalReducer TerminalState.new =
      terminalReducer TerminalState.new (.data "ls\n") :=
  (streaming_combined fun _ => none).2.2.2 TerminalState.new ["ls", "\n"] (by simp)

end AgentHostProtocol.Channels
