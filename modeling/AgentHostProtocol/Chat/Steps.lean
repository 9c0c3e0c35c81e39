import AgentHostProtocol.Chat.Activity
import AgentHostProtocol.Chat.Lifecycle

/-!
# What one action does to a conversation

`Effect s a s'` says what an action does to the turns of a chat: it edits the active
turn in place, starts, ends, resumes or drops one, cuts the history or loads older
turns; each case with what it means for the status. `chatReducer_effect` is the
inversion lemma: every step is one of these. The invariants of a chat are proved from
it and do not look into the reducer again.

Turns move between `activeTurn` and `turns`; `follow` says where the turn at a
reference is after an action.
-/

namespace AgentHostProtocol.Chat

open Library SessionStatus

/-- The actions of the TypeScript reducer. -/
abbrev Action := ChatAction Empty (ChatToolCallConfirmedAction Empty)

/-! ### Where a turn is -/

/-- A place where a chat keeps a turn. -/
inductive TurnRef where
  | active
  | done (index : ℕ)
  deriving DecidableEq

/-- The id and the parts of the turn at a reference. -/
def turnAt (state : ChatState Empty) : TurnRef → Option (String × List (ResponsePart Empty))
  | .active => state.activeTurn.map fun turn => (turn.id, turn.responseParts)
  | .done index => state.turns[index]?.map fun turn => (turn.id, turn.responseParts)

/-- How an action ends a turn. -/
structure Ending where
  turnId : String
  duration : ℤ
  turnState : TurnState
  errorPart : Option ErrorResponsePart

/-- The ending that an action brings. -/
def ending? : Action → Option Ending
  | .turnComplete a => some ⟨a.turnId, a.duration, .complete, none⟩
  | .turnCancelled a => some ⟨a.turnId, a.duration, .cancelled, none⟩
  | .error a => some ⟨a.turnId, a.duration, .error, some a.part⟩
  | _ => none

/-- Whether `chat/turnResume` takes up the last turn. -/
def resumes (state : ChatState Empty) (turnId : String) : Bool :=
  state.activeTurn.isNone && state.turns.getLast?.any fun turn =>
    turn.id = turnId && turn.state = .error && hasResumableError turn

/-- Where the turn at a reference is after an action, `none` if the action drops it. -/
def follow (state : ChatState Empty) (action : Action) : TurnRef → Option TurnRef
  | .active =>
    match action with
    | .turnStarted _ => none
    | .truncated turnId => if (keptTurns state turnId).isSome then none else some .active
    | action =>
      match ending? action with
      | some e =>
        some (if (activeTurnOf state e.turnId).isSome then .done state.turns.length else .active)
      | none => some .active
  | .done index =>
    match action with
    | .turnResume turnId =>
      some (if resumes state turnId ∧ index + 1 = state.turns.length then .active else .done index)
    | .truncated turnId =>
      match keptTurns state turnId with
      | none => some (.done index)
      | some turns => if index < turns.length then some (.done index) else none
    | .turnsLoaded a => some (.done (index + (olderTurns state a.turns).length))
    | _ => some (.done index)

/-- Whether an action may move a turn. -/
def movesTurns : Action → Bool
  | .turnStarted _ | .turnComplete _ | .turnCancelled _ | .error _ | .turnResume _ | .truncated _
  | .turnsLoaded _ => true
  | _ => false

/-- Any other action leaves every turn where it is. -/
theorem follow_of_not_moves {a : Action} (h : movesTurns a = false) (s : ChatState Empty)
    (r : TurnRef) : follow s a r = some r := by
  cases a <;> cases h <;> cases r <;> rfl

/-! ### Edits of the active turn -/

/-- What an action may do to a response part. -/
inductive PartStep : ResponsePart Empty → ResponsePart Empty → Prop
  | refl (part : ResponsePart Empty) : PartStep part part
  | toolCall {tc tc' : ToolCallState Empty} (h : ToolCallStep tc tc') :
    PartStep (.toolCall tc) (.toolCall tc')
  | markdown {part part' : MarkdownResponsePart} (h : part'.id = part.id) :
    PartStep (.markdown part) (.markdown part')
  | reasoning {part part' : ReasoningResponsePart} (h : part'.id = part.id) :
    PartStep (.reasoning part) (.reasoning part')
  | inputRequest {part part' : InputRequestResponsePart} (h : part'.request.id = part.request.id) :
    PartStep (.inputRequest part) (.inputRequest part')

/-- The part that an action may append. -/
def newPart? : Action → Option (ResponsePart Empty)
  | .responsePart a => some a.part
  | .toolCallStart a => some (.toolCall (startedToolCall a))
  | .inputRequested request => some (.inputRequest ⟨request, none⟩)
  | _ => none

/-- A later version of the active turn: its parts edited in place and extended. -/
structure TurnEdit (action : Action) (turn turn' : ActiveTurn Empty) : Prop where
  id : turn'.id = turn.id
  startedAt : turn'.startedAt = turn.startedAt
  message : turn'.message = turn.message
  parts : ∃ parts fresh, turn'.responseParts = parts ++ fresh ∧
    List.Forall₂ PartStep turn.responseParts parts ∧ ∀ part ∈ fresh, newPart? action = some part

/-- The active turn before and after an action that neither starts nor ends one. -/
inductive ActiveEdit (action : Action) :
    Option (ActiveTurn Empty) → Option (ActiveTurn Empty) → Prop
  | same (turn : Option (ActiveTurn Empty)) : ActiveEdit action turn turn
  | edit {turn turn' : ActiveTurn Empty} (h : TurnEdit action turn turn') :
    ActiveEdit action (some turn) (some turn')

/-- The activity is the one derived from the contents. -/
def Derived (state : ChatState Empty) : Prop :=
  state.status.activity = liveActivity state.activeTurn

/-- Whether `chat/responsePart` brings into the active turn a part that blocks it while
none of its parts does. -/
def raises (state : ChatState Empty) : Action → Bool
  | .responsePart a =>
    blocks a.part && (activeTurnOf state a.turnId).any fun turn => !turn.responseParts.any blocks
  | _ => false

/-- The status after an edit: derived anew, or kept along with what it is derived from
unless the action raises. -/
def StatusStep (s : ChatState Empty) (a : Action) (s' : ChatState Empty) : Prop :=
  Derived s' ∨ s'.status.activity = s.status.activity ∧
    (raises s a = true ∨ liveActivity s'.activeTurn = liveActivity s.activeTurn)

/-! ### The effects -/

/-- What an action does to the turns of a chat. -/
inductive Effect (s : ChatState Empty) : Action → ChatState Empty → Prop
  | within {a : Action} {s' : ChatState Empty} (hactive : ActiveEdit a s.activeTurn s'.activeTurn)
    (hturns : s'.turns = s.turns) (hfollow : ∀ r, follow s a r = some r)
    (hstatus : StatusStep s a s') : Effect s a s'
  | started (x : ChatTurnStartedAction) {s' : ChatState Empty} {turn : ActiveTurn Empty}
    (hactive : s'.activeTurn = some turn) (hid : turn.id = x.turnId) (hparts : turn.responseParts = [])
    (hturns : s'.turns = s.turns) (hstatus : Derived s') : Effect s (.turnStarted x) s'
  | ended {a : Action} (e : Ending) (ha : ending? a = some e) {s' : ChatState Empty}
    {turn : ActiveTurn Empty} (hturn : activeTurnOf s e.turnId = some turn)
    (hactive : s'.activeTurn = none)
    (hturns : s'.turns = s.turns ++ [endedTurn turn e.turnState e.duration e.errorPart])
    (hstatus : s'.status.activity = if e.turnState = .error then SessionStatus.error else idle) :
    Effect s a s'
  | cut (turnId : Option String) {s' : ChatState Empty} (hturns : keptTurns s turnId = some s'.turns)
    (hactive : s'.activeTurn = none) (hstatus : Derived s') : Effect s (.truncated turnId) s'
  | resumed (turnId : String) {s' : ChatState Empty} (turn : Turn Empty)
    (hresumes : resumes s turnId = true) (hturns : s.turns = s'.turns ++ [turn])
    (hactive : s'.activeTurn = some (resumedTurn s turn)) (hstatus : Derived s') :
    Effect s (.turnResume turnId) s'
  | loaded (x : ChatTurnsLoadedAction Empty) {s' : ChatState Empty}
    (hactive : s'.activeTurn = s.activeTurn) (hturns : s'.turns = olderTurns s x.turns ++ s.turns)
    (hstatus : s'.status.activity = s.status.activity) : Effect s (.turnsLoaded x) s'

/-- An action that leaves the turns and the activity alone. -/
theorem Effect.quiet {s s' : ChatState Empty} {a : Action} (hactive : s'.activeTurn = s.activeTurn)
    (hturns : s'.turns = s.turns) (hstatus : s'.status.activity = s.status.activity)
    (hfollow : ∀ r, follow s a r = some r) : Effect s a s' := by
  refine .within ?_ hturns hfollow (.inr ⟨hstatus, .inr (by rw [hactive])⟩)
  rw [hactive]
  exact .same _

/-! ### Lookups -/

theorem activeTurnOf_eq_some {s : ChatState Empty} {turnId : String} {turn : ActiveTurn Empty} :
    activeTurnOf s turnId = some turn ↔ s.activeTurn = some turn ∧ turn.id = turnId := by
  simp [activeTurnOf, Option.filter_eq_some_iff]

theorem findOpenInputRequestPart_eq_some {parts : List (ResponsePart Empty)} {requestId : String}
    {index : ℕ} {part : InputRequestResponsePart}
    (h : findOpenInputRequestPart parts requestId = some (index, part)) :
    parts[index]? = some (.inputRequest part) ∧ part.response = none ∧
      part.request.id = requestId := by
  unfold findOpenInputRequestPart at h
  rw [Option.bind_eq_some_iff] at h
  obtain ⟨i, hi, h⟩ := h
  rw [List.findIdx?_eq_some_iff_getElem] at hi
  obtain ⟨hlt, hopen, -⟩ := hi
  split at h
  · next part' hpart =>
    simp only [Option.some.injEq, Prod.mk.injEq] at h
    obtain ⟨rfl, rfl⟩ := h
    rw [List.getElem?_eq_some_iff] at hpart
    obtain ⟨_, hpart⟩ := hpart
    rw [hpart] at hopen
    simp only [isOpenRequest, Bool.and_eq_true, Option.isNone_iff_eq_none, decide_eq_true_eq] at hopen
    exact ⟨by rw [List.getElem?_eq_getElem hlt, hpart], hopen.1, hopen.2⟩
  · cases h

/-! ### Edits by the helpers -/

variable {s : ChatState Empty} {a : Action}

theorem ActiveEdit.of_forall₂ {turn : ActiveTurn Empty} {parts : List (ResponsePart Empty)}
    (h : List.Forall₂ PartStep turn.responseParts parts) :
    ActiveEdit a (some turn) (some { turn with responseParts := parts }) := by
  refine .edit ⟨rfl, rfl, rfl, parts, [], ?_, h, ?_⟩
  · simp
  · simp

theorem ActiveEdit.append {turn : ActiveTurn Empty} {part : ResponsePart Empty}
    (h : newPart? a = some part) :
    ActiveEdit a (some turn) (some { turn with responseParts := turn.responseParts ++ [part] }) := by
  refine .edit ⟨rfl, rfl, rfl, turn.responseParts, [part], rfl, ?_, ?_⟩
  · exact List.forall₂_same.mpr fun x _ => .refl x
  · simpa using h

theorem ActiveEdit.isSome_eq {turn turn' : Option (ActiveTurn Empty)} (h : ActiveEdit a turn turn') :
    turn'.isSome = turn.isSome := by
  cases h <;> rfl

/-- Edits of parts that leave alone which of them block leave the activity. -/
theorem liveActivity_congr {turn : ActiveTurn Empty} {parts : List (ResponsePart Empty)}
    (h : List.Forall₂ (fun x y => blocks y = blocks x) turn.responseParts parts) :
    liveActivity (some { turn with responseParts := parts }) = liveActivity (some turn) := by
  simp only [liveActivity, any_eq_of_forall₂ h]

section UpdateToolCallInParts

variable (turnId toolCallId : String) {f : ToolCallState Empty → ToolCallState Empty}

@[simp] theorem updateToolCallInParts_turns :
    (updateToolCallInParts s turnId toolCallId f).turns = s.turns := by
  unfold updateToolCallInParts
  split <;> rfl

@[simp] theorem updateToolCallInParts_status :
    (updateToolCallInParts s turnId toolCallId f).status = s.status := by
  unfold updateToolCallInParts
  split <;> rfl

/-- What `updateToolCallInParts` does to the parts, for any relation that the update
function respects. -/
theorem updateToolCallInParts_activeTurn (R : ResponsePart Empty → ResponsePart Empty → Prop)
    (hrefl : ∀ part, R part part) (hf : ∀ tc, R (.toolCall tc) (.toolCall (f tc))) :
    (updateToolCallInParts s turnId toolCallId f).activeTurn = s.activeTurn ∨
      ∃ turn parts, s.activeTurn = some turn ∧ List.Forall₂ R turn.responseParts parts ∧
        (updateToolCallInParts s turnId toolCallId f).activeTurn =
          some { turn with responseParts := parts } := by
  unfold updateToolCallInParts
  split
  · exact .inl rfl
  · next turn hturn =>
    refine .inr ⟨turn, _, (activeTurnOf_eq_some.mp hturn).1, forall₂_map fun part => ?_, rfl⟩
    cases part with
    | toolCall tc =>
      simp only [updateToolCall]
      split
      · exact hf tc
      · exact hrefl _
    | _ => exact hrefl _

theorem updateToolCallInParts_edit (hf : ∀ tc, ToolCallStep tc (f tc)) :
    ActiveEdit a s.activeTurn (updateToolCallInParts s turnId toolCallId f).activeTurn := by
  rcases updateToolCallInParts_activeTurn turnId toolCallId PartStep PartStep.refl
    fun tc => .toolCall (hf tc) with h | ⟨turn, parts, hturn, hparts, h⟩
  · rw [h]
    exact .same _
  · rw [h, hturn]
    exact .of_forall₂ hparts

theorem liveActivity_updateToolCallInParts (hf : ∀ tc, (f tc).status = tc.status) :
    liveActivity (updateToolCallInParts s turnId toolCallId f).activeTurn =
      liveActivity s.activeTurn := by
  have hblocks : ∀ tc, blocks (.toolCall (f tc)) = blocks (.toolCall tc) := by
    intro tc
    simp only [blocks, hf]
  rcases updateToolCallInParts_activeTurn turnId toolCallId (fun x y => blocks y = blocks x)
    (fun _ => rfl) hblocks with h | ⟨turn, parts, hturn, hparts, h⟩
  · rw [h]
  · rw [h, hturn, liveActivity_congr hparts]

end UpdateToolCallInParts

section UpdateResponsePart

variable (turnId id : String) {f : ResponsePart Empty → ResponsePart Empty}

@[simp] theorem updateResponsePart_turns : (updateResponsePart s turnId id f).turns = s.turns := by
  unfold updateResponsePart
  split
  · rfl
  · split <;> rfl

@[simp] theorem updateResponsePart_status :
    (updateResponsePart s turnId id f).status = s.status := by
  unfold updateResponsePart
  split
  · rfl
  · split <;> rfl

/-- What `updateResponsePart` does to the parts, for any relation that the update
function respects. -/
theorem updateResponsePart_activeTurn (R : ResponsePart Empty → ResponsePart Empty → Prop)
    (hrefl : ∀ part, R part part) (hf : ∀ part, R part (f part)) :
    (updateResponsePart s turnId id f).activeTurn = s.activeTurn ∨
      ∃ turn parts, s.activeTurn = some turn ∧ List.Forall₂ R turn.responseParts parts ∧
        (updateResponsePart s turnId id f).activeTurn =
          some { turn with responseParts := parts } := by
  unfold updateResponsePart
  split
  · exact .inl rfl
  · next turn hturn =>
    split
    · exact .inl rfl
    · next parts hparts =>
      refine .inr ⟨turn, parts, (activeTurnOf_eq_some.mp hturn).1,
        forall₂_updateFirst hrefl ?_ hparts, rfl⟩
      intro x y hxy
      by_cases hid : partId x = some id
      · rw [if_pos hid] at hxy
        cases hxy
        exact hf x
      · rw [if_neg hid] at hxy
        cases hxy

theorem updateResponsePart_effect (hf : ∀ part, PartStep part (f part))
    (hblocks : ∀ part, blocks (f part) = blocks part) (hfollow : ∀ r, follow s a r = some r) :
    Effect s a (updateResponsePart s turnId id f) := by
  refine .within ?_ (by simp) hfollow (.inr ⟨by simp, .inr ?_⟩)
  · rcases updateResponsePart_activeTurn turnId id PartStep PartStep.refl hf with
      h | ⟨turn, parts, hturn, hparts, h⟩
    · rw [h]
      exact .same _
    · rw [h, hturn]
      exact .of_forall₂ hparts
  · rcases updateResponsePart_activeTurn turnId id (fun x y => blocks y = blocks x) (fun _ => rfl)
      hblocks with h | ⟨turn, parts, hturn, hparts, h⟩
    · rw [h]
    · rw [h, hturn, liveActivity_congr hparts]

end UpdateResponsePart

theorem appendPart_cases (s : ChatState Empty) (turnId : String) (part : ResponsePart Empty) :
    appendPart s turnId part = s ∨ ∃ turn, activeTurnOf s turnId = some turn ∧
      appendPart s turnId part = withResponseParts s turn (turn.responseParts ++ [part]) := by
  unfold appendPart
  cases hturn : activeTurnOf s turnId with
  | none => exact .inl rfl
  | some turn => exact .inr ⟨turn, rfl, rfl⟩

/-- Appending a part that does not block leaves the activity. -/
theorem liveActivity_append {turn : ActiveTurn Empty} {part : ResponsePart Empty}
    (h : blocks part = true → turn.responseParts.any blocks = true) :
    liveActivity (some { turn with responseParts := turn.responseParts ++ [part] }) =
      liveActivity (some turn) := by
  simp only [liveActivity, List.any_append, List.any_cons, List.any_nil, Bool.or_false]
  cases hpart : blocks part with
  | false => rw [Bool.or_false]
  | true => rw [h hpart, Bool.true_or]

theorem appendPart_effect {turnId : String} {part : ResponsePart Empty}
    (hnew : newPart? a = some part) (hfollow : ∀ r, follow s a r = some r)
    (hraise : blocks part = true → ∀ turn, activeTurnOf s turnId = some turn →
      turn.responseParts.any blocks = true ∨ raises s a = true) :
    Effect s a (appendPart s turnId part) := by
  rcases appendPart_cases s turnId part with h | ⟨turn, hturn, h⟩
  · rw [h]
    exact .quiet rfl rfl rfl hfollow
  · have hactive := (activeTurnOf_eq_some.mp hturn).1
    rw [h]
    refine .within ?_ rfl hfollow (.inr ⟨rfl, ?_⟩)
    · rw [hactive]
      exact .append hnew
    · by_cases hpart : blocks part = true
      · rcases hraise hpart turn hturn with hany | hraises
        · rw [hactive]
          exact .inr (liveActivity_append fun _ => hany)
        · exact .inl hraises
      · rw [hactive]
        exact .inr (liveActivity_append fun h => absurd h hpart)

/-! ### Input requests -/

theorem upsertInputRequestPart_effect (request : ChatInputRequest) :
    Effect s (.inputRequested request) (upsertInputRequestPart s request) := by
  unfold upsertInputRequestPart
  cases hactive : s.activeTurn with
  | none => exact .quiet rfl rfl rfl (follow_of_not_moves rfl s)
  | some turn =>
    refine .within ?_ rfl (follow_of_not_moves rfl s) (.inl ?_)
    · rw [hactive]
      show ActiveEdit _ (some turn) (some _)
      split
      · next index part hfind =>
        obtain ⟨hpart, -, hid⟩ := findOpenInputRequestPart_eq_some hfind
        exact .of_forall₂ (forall₂_set .refl hpart (.inputRequest hid.symm))
      · exact .append rfl
    · unfold Derived
      simp

theorem inputAnswerChanged_effect (x : ChatInputAnswerChangedAction) :
    Effect s (.inputAnswerChanged x) (inputAnswerChanged s x) := by
  have hfollow : ∀ r, follow s (.inputAnswerChanged x) r = some r := follow_of_not_moves rfl s
  unfold inputAnswerChanged
  cases hactive : s.activeTurn with
  | none => exact .quiet rfl rfl rfl hfollow
  | some turn =>
    simp only
    split
    · exact .quiet rfl rfl rfl hfollow
    · next index part hfind =>
      obtain ⟨hpart, -, -⟩ := findOpenInputRequestPart_eq_some hfind
      refine .within ?_ rfl hfollow (.inr ⟨rfl, .inr ?_⟩)
      · rw [hactive]
        exact .of_forall₂ (forall₂_set .refl hpart (.inputRequest rfl))
      · rw [hactive]
        have hblocks : ∀ part : ResponsePart Empty, blocks part = blocks part := fun _ => rfl
        exact liveActivity_congr (forall₂_set hblocks hpart rfl)

theorem inputCompleted_effect (x : ChatInputCompletedAction) :
    Effect s (.inputCompleted x) (inputCompleted s x) := by
  have hfollow : ∀ r, follow s (.inputCompleted x) r = some r := follow_of_not_moves rfl s
  unfold inputCompleted
  cases hactive : s.activeTurn with
  | none => exact .quiet rfl rfl rfl hfollow
  | some turn =>
    simp only
    split
    · exact .quiet rfl rfl rfl hfollow
    · next index part hfind =>
      obtain ⟨hpart, -, -⟩ := findOpenInputRequestPart_eq_some hfind
      refine .within ?_ rfl hfollow (.inl (activity_refreshSummaryStatus _))
      rw [hactive]
      exact .of_forall₂ (forall₂_set .refl hpart (.inputRequest rfl))

/-! ### Turns -/

theorem turnStarted_effect (x : ChatTurnStartedAction) :
    Effect s (.turnStarted x) (turnStarted s x) := by
  unfold turnStarted
  cases x.queuedMessageId with
  | none => exact .started x rfl rfl rfl rfl (by simp [Derived])
  | some queuedMessageId => exact .started x rfl rfl rfl rfl (by simp [Derived])

/-- The three endings leave every reference in place when they are stale. -/
theorem follow_of_stale_ending {e : Ending} (ha : ending? a = some e)
    (h : activeTurnOf s e.turnId = none) (r : TurnRef) : follow s a r = some r := by
  cases a <;> cases ha <;> cases r <;> simp_all [follow, ending?]

theorem endTurn_effect {legacyParse : String → Option ℤ} {s' : ChatState Empty} (e : Ending)
    {terminalStatus : Option SessionStatus}
    (hterminal : terminalStatus = if e.turnState = .error then some SessionStatus.error else none)
    (ha : ending? a = some e)
    (h : endTurn legacyParse s e.turnId e.turnState e.duration terminalStatus e.errorPart = some s') :
    Effect s a s' := by
  unfold endTurn at h
  split at h
  · next hturn =>
    cases h
    exact .quiet rfl rfl rfl (follow_of_stale_ending ha hturn)
  · next turn hturn =>
    rw [Option.map_eq_some_iff] at h
    obtain ⟨modifiedAt, -, rfl⟩ := h
    refine .ended e ha hturn rfl rfl ?_
    rw [hterminal]
    split <;> simp

theorem resumes_eq_true {turnId : String} :
    resumes s turnId = true ↔ s.activeTurn = none ∧ ∃ turn, s.turns.getLast? = some turn ∧
      turn.id = turnId ∧ turn.state = .error ∧ hasResumableError turn = true := by
  simp [resumes, Option.any_eq_true, and_assoc]

theorem turnResume_effect (turnId : String) :
    Effect s (.turnResume turnId) (turnResume s turnId) := by
  by_cases hresumes : resumes s turnId = true
  · obtain ⟨hactive, turn, hlast, hturn⟩ := resumes_eq_true.mp hresumes
    have heq : turnResume s turnId = { s with
        turns := s.turns.dropLast
        activeTurn := some (resumedTurn s turn)
        status := withStatusFlag (summaryStatus { s with
          turns := s.turns.dropLast
          activeTurn := some (resumedTurn s turn) } none) isRead false } := by
      simp only [turnResume, hactive, hlast, if_pos hturn]
    rw [heq]
    refine .resumed turnId turn hresumes ?_ rfl (by simp [Derived])
    exact (List.dropLast_append_getLast? turn hlast).symm
  · have heq : turnResume s turnId = s := by
      unfold turnResume
      split
      · next turn hactive hlast =>
        rw [if_neg fun hturn => hresumes (resumes_eq_true.mpr ⟨hactive, turn, hlast, hturn⟩)]
      · rfl
    rw [heq]
    exact .quiet rfl rfl rfl fun r => by cases r <;> simp [follow, ending?, hresumes]

theorem truncated_effect (turnId : Option String) :
    Effect s (.truncated turnId) (truncated s turnId) := by
  unfold truncated
  cases hkept : keptTurns s turnId with
  | none => exact .quiet rfl rfl rfl fun r => by cases r <;> simp [follow, hkept]
  | some turns => exact .cut turnId hkept rfl (activity_refreshSummaryStatus _)

/-! ### Tool calls -/

/-- The actions that recompute the status whatever they find. -/
theorem refresh_effect {turnId toolCallId : String} {f : ToolCallState Empty → ToolCallState Empty}
    (hf : ∀ tc, ToolCallStep tc (f tc)) (hfollow : ∀ r, follow s a r = some r) :
    Effect s a (refreshSummaryStatus (updateToolCallInParts s turnId toolCallId f)) :=
  .within (updateToolCallInParts_edit _ _ hf) (by simp) hfollow
    (.inl (activity_refreshSummaryStatus _))

/-- The actions on tool calls that leave the status alone. -/
theorem update_effect {turnId toolCallId : String} {f : ToolCallState Empty → ToolCallState Empty}
    (hf : ∀ tc, ToolCallStep tc (f tc)) (hstatus : ∀ tc, (f tc).status = tc.status)
    (hfollow : ∀ r, follow s a r = some r) :
    Effect s a (updateToolCallInParts s turnId toolCallId f) :=
  .within (updateToolCallInParts_edit _ _ hf) (by simp) hfollow
    (.inr ⟨by simp, .inr (liveActivity_updateToolCallInParts _ _ hstatus)⟩)

theorem status_toolCallDelta (x : ChatToolCallDeltaAction) (tc : ToolCallState Empty) :
    (toolCallDelta x tc).status = tc.status := by
  cases tc <;> rfl

theorem status_toolCallContentChanged (x : ChatToolCallContentChangedAction)
    (tc : ToolCallState Empty) : (toolCallContentChanged x tc).status = tc.status := by
  cases tc <;> rfl

/-! ### Parts and other fields -/

theorem responsePart_effect (x : ChatResponsePartAction Empty) :
    Effect s (.responsePart x) (responsePart s x) := by
  have hfollow : ∀ r, follow s (.responsePart x) r = some r := follow_of_not_moves rfl s
  have happend : Effect s (.responsePart x) (appendPart s x.turnId x.part) := by
    refine appendPart_effect rfl hfollow fun hpart turn hturn => ?_
    cases hany : turn.responseParts.any blocks with
    | true => exact .inl rfl
    | false => exact .inr (by simp [raises, hpart, hturn, hany])
  unfold responsePart
  split
  · exact .quiet rfl rfl rfl hfollow
  · exact happend

theorem deltaPart_step (x : ChatDeltaAction) (part : ResponsePart Empty) :
    PartStep part (deltaPart x part) := by
  cases part with
  | markdown part => exact .markdown rfl
  | _ => exact .refl _

theorem reasoningPart_step (x : ChatReasoningAction) (part : ResponsePart Empty) :
    PartStep part (reasoningPart x part) := by
  cases part with
  | reasoning part => exact .reasoning rfl
  | _ => exact .refl _

theorem usage_effect (x : ChatUsageAction) : Effect s (.usage x) (usage s x) := by
  have hfollow : ∀ r, follow s (.usage x) r = some r := follow_of_not_moves rfl s
  unfold usage
  cases hturn : activeTurnOf s x.turnId with
  | none => exact .quiet rfl rfl rfl hfollow
  | some turn =>
    have hactive := (activeTurnOf_eq_some.mp hturn).1
    refine .within ?_ rfl hfollow (.inr ⟨rfl, .inr ?_⟩)
    · rw [hactive]
      refine .edit ⟨rfl, rfl, rfl, turn.responseParts, [], ?_, ?_, ?_⟩
      · simp
      · exact List.forall₂_same.mpr fun x _ => .refl x
      · simp
    · rw [hactive]
      rfl

theorem backgroundWorkRemoved_effect (id : String) :
    Effect s (.backgroundWorkRemoved id) (backgroundWorkRemoved s id) := by
  unfold backgroundWorkRemoved
  split <;> exact .quiet rfl rfl rfl (follow_of_not_moves rfl s)

theorem workingDirectorySet_effect (directory : URI) :
    Effect s (.workingDirectorySet directory) (workingDirectorySet s directory) := by
  unfold workingDirectorySet
  simp only
  split <;> exact .quiet rfl rfl rfl (follow_of_not_moves rfl s)

theorem workingDirectoryRemoved_effect (directory : URI) :
    Effect s (.workingDirectoryRemoved directory) (workingDirectoryRemoved s directory) := by
  unfold workingDirectoryRemoved
  split
  · exact .quiet rfl rfl rfl (follow_of_not_moves rfl s)
  · split <;> exact .quiet rfl rfl rfl (follow_of_not_moves rfl s)

theorem pendingMessageRemoved_effect (x : ChatPendingMessageRemovedAction) :
    Effect s (.pendingMessageRemoved x) (pendingMessageRemoved s x) := by
  unfold pendingMessageRemoved
  simp only
  by_cases h : x.kind = .steering ∧ s.steeringMessage.map (·.id) = some x.id
  · simp only [if_pos h]
    split <;> exact .quiet rfl rfl rfl (follow_of_not_moves rfl s)
  · simp only [if_neg h]
    split <;> exact .quiet rfl rfl rfl (follow_of_not_moves rfl s)

theorem queuedMessagesReordered_effect (order : List String) :
    Effect s (.queuedMessagesReordered order) (queuedMessagesReordered s order) := by
  unfold queuedMessagesReordered
  split <;> exact .quiet rfl rfl rfl (follow_of_not_moves rfl s)

/-! ### The inversion lemma -/

/-- **Inversion**: what a step of the chat reducer does to the turns. -/
theorem chatReducer_effect {legacyParse : String → Option ℤ} {s' : ChatState Empty}
    (h : chatReducer legacyParse s a = some s') : Effect s a s' := by
  cases a with
  | turnComplete x =>
    exact endTurn_effect ⟨x.turnId, x.duration, .complete, none⟩ rfl rfl h
  | turnCancelled x =>
    exact endTurn_effect ⟨x.turnId, x.duration, .cancelled, none⟩ rfl rfl h
  | error x =>
    exact endTurn_effect ⟨x.turnId, x.duration, .error, some x.part⟩ rfl rfl h
  | turnStarted x => cases h; exact turnStarted_effect x
  | turnResume turnId => cases h; exact turnResume_effect turnId
  | truncated turnId => cases h; exact truncated_effect turnId
  | turnsLoaded x => cases h; exact .loaded x rfl rfl rfl
  | responsePart x => cases h; exact responsePart_effect x
  | toolCallStart x =>
    cases h
    exact appendPart_effect rfl (follow_of_not_moves rfl s) nofun
  | delta x =>
    cases h
    exact updateResponsePart_effect _ _ (deltaPart_step x) (fun part => by cases part <;> rfl)
      (follow_of_not_moves rfl s)
  | reasoning x =>
    cases h
    exact updateResponsePart_effect _ _ (reasoningPart_step x) (fun part => by cases part <;> rfl)
      (follow_of_not_moves rfl s)
  | usage x => cases h; exact usage_effect x
  | toolCallDelta x =>
    cases h
    exact update_effect (toolCallDelta_step x) (status_toolCallDelta x) (follow_of_not_moves rfl s)
  | toolCallContentChanged x =>
    cases h
    exact update_effect (toolCallContentChanged_step x) (status_toolCallContentChanged x)
      (follow_of_not_moves rfl s)
  | toolCallReady x =>
    cases h
    exact refresh_effect (toolCallReady_step x) (follow_of_not_moves rfl s)
  | toolCallConfirmed x =>
    cases h
    exact refresh_effect (toolCallConfirmed_step x) (follow_of_not_moves rfl s)
  | toolCallComplete x =>
    cases h
    exact refresh_effect (toolCallComplete_step x) (follow_of_not_moves rfl s)
  | toolCallResultConfirmed x =>
    cases h
    exact refresh_effect (toolCallResultConfirmed_step x) (follow_of_not_moves rfl s)
  | toolCallAuthRequired x =>
    cases h
    exact refresh_effect (toolCallAuthRequired_step x) (follow_of_not_moves rfl s)
  | toolCallAuthResolved x =>
    cases h
    exact refresh_effect (toolCallAuthResolved_step x) (follow_of_not_moves rfl s)
  | inputRequested x => cases h; exact upsertInputRequestPart_effect x
  | inputAnswerChanged x => cases h; exact inputAnswerChanged_effect x
  | inputCompleted x => cases h; exact inputCompleted_effect x
  | isReadChanged value =>
    cases h
    exact .quiet rfl rfl (activity_withStatusFlag_isRead _ _) (follow_of_not_moves rfl s)
  | isArchivedChanged value =>
    cases h
    exact .quiet rfl rfl (activity_withStatusFlag_isArchived _ _) (follow_of_not_moves rfl s)
  | backgroundWorkRemoved id => cases h; exact backgroundWorkRemoved_effect id
  | workingDirectorySet directory => cases h; exact workingDirectorySet_effect directory
  | workingDirectoryRemoved directory => cases h; exact workingDirectoryRemoved_effect directory
  | pendingMessageRemoved x => cases h; exact pendingMessageRemoved_effect x
  | queuedMessagesReordered order => cases h; exact queuedMessagesReordered_effect order
  | _ => cases h; exact .quiet rfl rfl rfl (follow_of_not_moves rfl s)

end AgentHostProtocol.Chat
