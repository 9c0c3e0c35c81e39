import AgentHostProtocol.Agreement.ChatReducer
import AgentHostProtocol.Agreement.GoTimestamps
import AgentHostProtocol.Kotlin.Chat

/-!
# Where the Kotlin chat is the TypeScript chat

**What is proved** (`kotlinChat_agrees`): on a chat whose active turn starts at a time that both
languages read alike, the two reducers give the same chat or both throw, on every action but these:

* a confirmation that selects an option whose id is empty,
* the end of a turn in a year that is written in one way in Kotlin and in another in TypeScript,
  or that only one of them can write.

Nothing is asked of the ids of a chat.
-/

namespace AgentHostProtocol.Agreement.KotlinChat

open Library SessionStatus
open GoChat (yearOf yearOf_bounds length_pad)

variable {s : ChatState Empty} {legacyParse otherParse : String → Option ℤ}

/-! ### Timestamps -/

/-- The years that Kotlin and TypeScript write alike: four digits, or six with a sign. -/
def WrittenAlike (y : ℤ) : Prop := 0 ≤ y ∧ y ≤ 9999 ∨ y ≤ -100000 ∨ 100000 ≤ y

/-- Of the years that a `Date` can have. -/
theorem yearChars_eq_iff {y : ℤ} (hlow : -999999 ≤ y) (hhigh : y ≤ 999999) :
    Kotlin.yearChars y = Rfc3339.yearChars y ↔ WrittenAlike y := by
  have hdigits : ∀ k, k ≠ 0 → (Nat.log 10 y.natAbs < k ↔ y.natAbs < 10 ^ k) := fun k hk =>
    ⟨Nat.lt_pow_of_log_lt (by omega), Nat.log_lt_of_lt_pow' hk⟩
  have hfour := hdigits 4 (by omega)
  have hfive := hdigits 5 (by omega)
  have hsix := hdigits 6 (by omega)
  -- a signed year is written alike if it has six digits
  have hsigned : ∀ c : Char, (y < 0 ∨ 9999 < y) →
      (c :: Rfc3339.pad (max 4 (Nat.log 10 y.natAbs + 1)) y.natAbs = c :: Rfc3339.pad 6 y.natAbs ↔
        WrittenAlike y) := by
    intro c hsign
    unfold WrittenAlike
    constructor
    · intro h
      have hlength := congrArg List.length h
      simp only [List.length_cons, length_pad] at hlength
      omega
    · intro h
      rw [show max 4 (Nat.log 10 y.natAbs + 1) = 6 by omega]
  by_cases hyear : 0 ≤ y ∧ y ≤ 9999
  · refine iff_of_true ?_ (.inl hyear)
    simp only [Kotlin.yearChars, Rfc3339.yearChars, if_pos hyear, if_neg (show ¬ y < 0 by omega),
      if_neg (show ¬ 9999 < y by omega), List.nil_append]
    rw [show max 4 (Nat.log 10 y.natAbs + 1) = 4 by omega, show y.natAbs = y.toNat by omega]
  · by_cases hneg : y < 0
    · simpa only [Kotlin.yearChars, Rfc3339.yearChars, if_neg hyear, if_pos hneg, List.singleton_append]
        using hsigned '-' (.inl hneg)
    · have hlate : 9999 < y := by omega
      simpa only [Kotlin.yearChars, Rfc3339.yearChars, if_neg hyear, if_neg hneg, if_pos hlate,
        List.singleton_append] using hsigned '+' (.inr hlate)

/-- An instant that a `Date` can hold. -/
def IsDate (t : ℤ) : Prop := -maxTimeValue ≤ t ∧ t ≤ maxTimeValue

theorem formatInstant_eq_text_iff {t : ℤ} (h : IsDate t) :
    Kotlin.formatInstant t = Rfc3339.text t ↔ WrittenAlike (yearOf t) := by
  rw [← yearChars_eq_iff (yearOf_bounds h).1 (yearOf_bounds h).2]
  unfold Kotlin.formatInstant Rfc3339.text yearOf
  simp only
  constructor
  · intro htext
    exact List.append_cancel_right (String.ofList_injective htext)
  · intro hyear
    rw [hyear]

/-- Both languages write an instant alike, or neither can. -/
def AddedAlike (t : ℤ) : Prop :=
  IsDate t ∧ WrittenAlike (yearOf t) ∨ ¬ IsDate t ∧ ¬ (Kotlin.minInstant ≤ t ∧ t ≤ Kotlin.maxInstant)

theorem addMilliseconds_eq_iff {timestamp : String} {t duration : ℤ}
    (hts : dateParse legacyParse timestamp = some t) (hkotlin : dateParse otherParse timestamp = some t) :
    Kotlin.addMillisecondsToTimestamp otherParse timestamp duration =
        addMillisecondsToTimestamp legacyParse timestamp duration ↔ AddedAlike (t + duration) := by
  unfold dateParse at hkotlin
  simp only [Kotlin.addMillisecondsToTimestamp, addMillisecondsToTimestamp, hts, hkotlin, Option.bind_some,
    Kotlin.plusMillis, toISOString, AddedAlike]
  by_cases hdate : IsDate (t + duration)
  · have hinstant : Kotlin.minInstant ≤ t + duration ∧ t + duration ≤ Kotlin.maxInstant := by
      unfold IsDate maxTimeValue at hdate
      unfold Kotlin.minInstant Kotlin.maxInstant
      omega
    simp only [if_pos hinstant, if_pos (show -maxTimeValue ≤ t + duration ∧ t + duration ≤ maxTimeValue from hdate),
      Option.map_some, Option.some_inj, formatInstant_eq_text_iff hdate, hdate, true_and, not_true_eq_false,
      false_and, or_false]
  · simp only [if_neg (show ¬ (-maxTimeValue ≤ t + duration ∧ t + duration ≤ maxTimeValue) from hdate), hdate,
      false_and, not_false_eq_true, true_and, false_or]
    split
    · next h => simp [h]
    · next h => simp [h]

theorem addMilliseconds_none {timestamp : String} (hts : dateParse legacyParse timestamp = none)
    (hkotlin : dateParse otherParse timestamp = none) (duration : ℤ) :
    Kotlin.addMillisecondsToTimestamp otherParse timestamp duration =
      addMillisecondsToTimestamp legacyParse timestamp duration := by
  unfold dateParse at hkotlin
  simp [Kotlin.addMillisecondsToTimestamp, addMillisecondsToTimestamp, hts, hkotlin]

/-! ### Tool calls -/

/-- `chat/toolCallConfirmed` as the generated class holds it. -/
def toKotlinConfirmed : ChatToolCallConfirmedAction Empty → Kotlin.ChatToolCallConfirmedAction Empty
  | .approved a =>
    { a.toToolCallActionBase with
      approved := true
      confirmed := some a.confirmed
      reason := none
      editedToolInput := a.editedToolInput
      userSuggestion := none
      reasonMessage := none
      selectedOptionId := a.selectedOptionId }
  | .denied a =>
    { a.toToolCallActionBase with
      approved := false
      confirmed := none
      reason := some a.reason
      editedToolInput := none
      userSuggestion := a.userSuggestion
      reasonMessage := a.reasonMessage
      selectedOptionId := a.selectedOptionId }

theorem toolCallIdOf_eq (tc : ToolCallState Empty) : Kotlin.toolCallIdOf tc = (Chat.tcBase tc).toolCallId := by
  cases tc with
  | unknown raw => exact raw.elim
  | _ => rfl

theorem refineToolCallContributor_eq (current next : Option (ToolCallContributor Empty)) :
    Kotlin.refineToolCallContributor current next = Chat.refineToolCallContributor current next := by
  rcases next with _ | _ | _ | raw
  · rfl
  · rcases current with _ | _ | _ | _ <;> rfl
  · rcases current with _ | _ | _ | _ <;> rfl
  · exact raw.elim

theorem toolCallDelta_eq (a : ChatToolCallDeltaAction) (tc : ToolCallState Empty) :
    Kotlin.toolCallDelta a tc = Chat.toolCallDelta a tc := by
  cases tc with
  | streaming tc => cases h : a.content <;> simp [Kotlin.toolCallDelta, Chat.toolCallDelta, h]
  | _ => rfl

theorem toolCallReady_eq (a : ChatToolCallReadyAction Empty) (tc : ToolCallState Empty) :
    Kotlin.toolCallReady a tc = Chat.toolCallReady a tc := by
  cases tc with
  | streaming tc | running tc | pendingConfirmation tc =>
    simp only [Kotlin.toolCallReady, Kotlin.readyState, Kotlin.ToolCallBase.withMeta, Kotlin.toolCallBase,
      Chat.toolCallReady, Chat.readyState, Chat.tcBase, Chat.tcBaseWithMeta, refineToolCallContributor_eq]
    cases a.confirmed <;> rfl
  | _ => rfl

theorem toolCallComplete_eq (a : ChatToolCallCompleteAction) (tc : ToolCallState Empty) :
    Kotlin.toolCallComplete a tc = Chat.toolCallComplete a tc := by
  cases tc with
  | running tc | pendingConfirmation tc =>
    rcases hreview : a.requiresResultConfirmation with _ | _ | _ <;>
      simp [Kotlin.toolCallComplete, Kotlin.completeCtx, Kotlin.ToolCallBase.withMeta, Kotlin.toolCallBase,
        Chat.toolCallComplete, Chat.completeState, Chat.tcBaseWithMeta, Chat.tcBase, ToolCallState.status, hreview]
  | authRequired tc =>
    cases hsuccess : a.result.success <;>
      simp [Kotlin.toolCallComplete, Kotlin.completeCtx, Kotlin.ToolCallBase.withMeta, Kotlin.toolCallBase,
        Chat.toolCallComplete, Chat.completeState, Chat.tcBaseWithMeta, Chat.tcBase, ToolCallState.status, hsuccess]
  | _ => rfl

theorem toolCallResultConfirmed_eq (a : ChatToolCallResultConfirmedAction) (tc : ToolCallState Empty) :
    Kotlin.toolCallResultConfirmed a tc = Chat.toolCallResultConfirmed a tc := by
  cases tc <;> rfl

theorem toolCallContentChanged_eq (a : ChatToolCallContentChangedAction) (tc : ToolCallState Empty) :
    Kotlin.toolCallContentChanged a tc = Chat.toolCallContentChanged a tc := by
  cases tc <;> rfl

theorem toolCallAuthRequired_eq (a : ChatToolCallAuthRequiredAction) (tc : ToolCallState Empty) :
    Kotlin.toolCallAuthRequired a tc = Chat.toolCallAuthRequired a tc := by
  cases tc with
  | running tc =>
    rcases hc : tc.contributor with _ | _ | _ | _ <;>
      simp [Kotlin.toolCallAuthRequired, Kotlin.ToolCallBase.withMeta, Kotlin.toolCallBase,
        Chat.toolCallAuthRequired, Chat.tcBaseWithMeta, Chat.tcBase, hc]
  | _ => rfl

theorem toolCallAuthResolved_eq (a : ChatToolCallAuthResolvedAction) (tc : ToolCallState Empty) :
    Kotlin.toolCallAuthResolved a tc = Chat.toolCallAuthResolved a tc := by
  cases tc <;> rfl

theorem finalPart_eq (part : ResponsePart Empty) : Kotlin.finalPart part = Chat.finalPart part := by
  cases part with
  | toolCall tc =>
    cases tc with
    | unknown raw => exact raw.elim
    | _ => rfl
  | _ => rfl

theorem resolveSelectedOption_eq_iff (options : Option (List ConfirmationOption)) (id : Option String) :
    Kotlin.resolveSelectedOption options id = Chat.resolveSelectedOption options id ↔ ¬ EmptyOption options id := by
  rcases id with _ | id
  · simp [Kotlin.resolveSelectedOption, Chat.resolveSelectedOption, EmptyOption]
  rcases options with _ | opts
  · simp [Kotlin.resolveSelectedOption, Chat.resolveSelectedOption, EmptyOption]
  by_cases hid : id = ""
  · subst hid
    simp [Kotlin.resolveSelectedOption, Chat.resolveSelectedOption, EmptyOption]
  · simp [Kotlin.resolveSelectedOption, Chat.resolveSelectedOption, EmptyOption, hid]

theorem toolCallConfirmed_agrees_iff (a : ChatToolCallConfirmedAction Empty) (tc : ToolCallState Empty) :
    Kotlin.toolCallConfirmed (toKotlinConfirmed a) tc = Chat.toolCallConfirmed a tc ↔
      ¬ ConfirmsEmptyOption a tc := by
  cases tc with
  | pendingConfirmation tc =>
    show _ ↔ ¬ EmptyOption tc.options (selectedOptionId? a)
    rw [← resolveSelectedOption_eq_iff]
    cases a with
    | approved a =>
      simp only [selectedOptionId?]
      constructor
      · intro h
        exact congrArg (fun tc : ToolCallRunningState Empty => tc.selectedOption) (ToolCallState.running.inj h)
      · intro h
        have hinput : Kotlin.confirmedInput a.editedToolInput tc.toolInput =
            Chat.confirmedInput a.editedToolInput tc.toolInput := rfl
        simp only [Kotlin.toolCallConfirmed, Chat.toolCallConfirmed, toKotlinConfirmed, if_true]
        rw [h, hinput]
        rfl
    | denied a =>
      simp only [selectedOptionId?]
      constructor
      · intro h
        exact congrArg (fun tc : ToolCallCancelledState Empty => tc.selectedOption)
          (ToolCallState.cancelled.inj h)
      · intro h
        simp only [Kotlin.toolCallConfirmed, Chat.toolCallConfirmed, toKotlinConfirmed, Bool.false_eq_true,
          if_false]
        rw [h]
        rfl
  | _ => exact ⟨fun _ => id, fun _ => rfl⟩

/-! ### Status -/

theorem hasBlockingToolCall_eq (s : ChatState Empty) :
    Kotlin.hasBlockingToolCall s = Chat.hasBlockingToolCall s := by
  unfold Kotlin.hasBlockingToolCall Chat.hasBlockingToolCall
  cases s.activeTurn with
  | none => rfl
  | some turn =>
    simp only
    congr 1
    funext part
    cases part with
    | toolCall tc =>
      cases tc with
      | unknown raw => exact raw.elim
      | _ => rfl
    | _ => rfl

theorem hasOpenInputRequest_eq (s : ChatState Empty) :
    Kotlin.hasOpenInputRequest s = Chat.hasOpenInputRequest s := by
  unfold Kotlin.hasOpenInputRequest Chat.hasOpenInputRequest
  cases s.activeTurn with
  | none => rfl
  | some turn =>
    simp only
    congr 1
    funext part
    cases part <;> rfl

@[simp] theorem chatSummaryStatus_eq (s : ChatState Empty) (terminal : Option SessionStatus) :
    Kotlin.chatSummaryStatus s terminal = Chat.summaryStatus s terminal := by
  unfold Kotlin.chatSummaryStatus Chat.summaryStatus setField
  cases terminal <;> simp only [hasBlockingToolCall_eq, hasOpenInputRequest_eq]

@[simp] theorem withStatusFlag_eq : Kotlin.withStatusFlag = SessionStatus.withStatusFlag := rfl

theorem refreshChatSummaryStatus_eq (s : ChatState Empty) :
    Kotlin.refreshChatSummaryStatus s = Chat.refreshSummaryStatus s := by
  simp [Kotlin.refreshChatSummaryStatus, Chat.refreshSummaryStatus]

/-! ### The active turn -/

/-- The active turn is the one that is named, or there is none of the name. -/
theorem activeTurn_cases (s : ChatState Empty) (turnId : String) :
    (∃ turn, s.activeTurn = some turn ∧ turn.id = turnId ∧ Chat.activeTurnOf s turnId = some turn) ∨
      Chat.activeTurnOf s turnId = none ∧
        (s.activeTurn = none ∨ ∃ turn, s.activeTurn = some turn ∧ turn.id ≠ turnId) := by
  cases hof : Chat.activeTurnOf s turnId with
  | some turn =>
    obtain ⟨hturn, hid⟩ := Chat.activeTurnOf_eq_some.mp hof
    exact .inl ⟨turn, hturn, hid, rfl⟩
  | none =>
    refine .inr ⟨rfl, ?_⟩
    cases hturn : s.activeTurn with
    | none => exact .inl rfl
    | some turn => exact .inr ⟨turn, rfl, Chat.activeTurnOf_eq_none.mp hof turn hturn⟩

theorem updateToolCallInParts_eq (turnId id : String) (f : ToolCallState Empty → ToolCallState Empty) :
    Kotlin.updateToolCallInParts s turnId id f = Chat.updateToolCallInParts s turnId id f := by
  have hpart : Kotlin.updateToolCall id f = Chat.updateToolCall id f := by
    funext part
    cases part with
    | toolCall tc => simp [Kotlin.updateToolCall, Chat.updateToolCall, toolCallIdOf_eq]
    | _ => rfl
  unfold Kotlin.updateToolCallInParts Chat.updateToolCallInParts
  rcases activeTurn_cases s turnId with ⟨turn, hturn, hid, hof⟩ | ⟨hof, hturn | ⟨turn, hturn, hid⟩⟩
  · simp [hturn, hid, hof, hpart, Chat.withResponseParts]
  · simp [hturn, hof]
  · simp [hturn, hid, hof]

theorem partId_eq (part : ResponsePart Empty) : Kotlin.partId part = Chat.partId part := by
  cases part with
  | toolCall tc => exact congrArg some (toolCallIdOf_eq tc)
  | _ => rfl

theorem updateResponsePart_eq (turnId id : String) (f : ResponsePart Empty → ResponsePart Empty) :
    Kotlin.updateResponsePart s turnId id f = Chat.updateResponsePart s turnId id f := by
  unfold Kotlin.updateResponsePart Chat.updateResponsePart
  rcases activeTurn_cases s turnId with ⟨turn, hturn, rfl, hof⟩ | ⟨hof, hturn | ⟨turn, hturn, hid⟩⟩
  · simp only [hturn, hof, partId_eq, ne_eq, not_true_eq_false, if_false]
    generalize updateFirst _ _ = parts
    cases parts <;> rfl
  · simp [hturn, hof]
  · simp [hturn, hid, hof]

theorem deltaPart_eq (a : ChatDeltaAction) :
    (Kotlin.deltaPart a : ResponsePart Empty → ResponsePart Empty) = Chat.deltaPart a := by
  funext part
  cases part <;> rfl

theorem reasoningPart_eq (a : ChatReasoningAction) :
    (Kotlin.reasoningPart a : ResponsePart Empty → ResponsePart Empty) = Chat.reasoningPart a := by
  funext part
  cases part <;> rfl

theorem responsePart_eq (a : ChatResponsePartAction Empty) :
    Kotlin.responsePart s a = Chat.responsePart s a := by
  unfold Kotlin.responsePart Chat.responsePart Chat.appendPart
  rcases activeTurn_cases s a.turnId with ⟨turn, hturn, hid, hof⟩ | ⟨hof, hturn | ⟨turn, hturn, hid⟩⟩
  · cases a.part <;> simp [hturn, hid, hof, Chat.withResponseParts]
  · cases a.part <;> simp [hturn, hof]
  · cases a.part <;> simp [hturn, hid, hof]

theorem toolCallStart_eq (a : ChatToolCallStartAction Empty) :
    Kotlin.toolCallStart s a = Chat.toolCallStart s a := by
  unfold Kotlin.toolCallStart Chat.toolCallStart Chat.appendPart
  rcases activeTurn_cases s a.turnId with ⟨turn, hturn, hid, hof⟩ | ⟨hof, hturn | ⟨turn, hturn, hid⟩⟩
  · simp [hturn, hid, hof, Chat.withResponseParts, Chat.startedToolCall]
  · simp [hturn, hof]
  · simp [hturn, hid, hof]

theorem usage_eq (a : ChatUsageAction) : Kotlin.usage s a = Chat.usage s a := by
  unfold Kotlin.usage Chat.usage
  rcases activeTurn_cases s a.turnId with ⟨turn, hturn, hid, hof⟩ | ⟨hof, hturn | ⟨turn, hturn, hid⟩⟩
  · simp [hturn, hid, hof]
  · simp [hturn, hof]
  · simp [hturn, hid, hof]

/-! ### Turns -/

theorem turnStarted_eq (a : ChatTurnStartedAction) : Kotlin.turnStarted s a = Chat.turnStarted s a := by
  unfold Kotlin.turnStarted Chat.turnStarted
  cases a.queuedMessageId with
  | none => simp
  | some id =>
    simp only [chatSummaryStatus_eq, withStatusFlag_eq]
    by_cases hsteer : s.steeringMessage.map (·.id) = some id
    · simp only [if_pos hsteer]
      cases s.queuedMessages <;> rfl
    · simp only [if_neg hsteer]
      cases s.queuedMessages <;> simp

theorem turnResume_eq (turnId : String) : Kotlin.turnResume s turnId = Chat.turnResume s turnId := by
  unfold Kotlin.turnResume Chat.turnResume Chat.hasResumableError
  cases hactive : s.activeTurn with
  | some turn => rfl
  | none =>
    cases hlast : s.turns.getLast? with
    | none => rfl
    | some turn =>
      simp only
      by_cases hid : turn.id = turnId
      · by_cases hstate : turn.state = .error
        · cases hpart : turn.responseParts.getLast? with
          | none => simp
          | some part =>
            cases part with
            | error part => by_cases hresumable : part.resumable = some true <;> simp [hid, hstate, hresumable, Chat.resumedTurn]
            | _ => simp
        · simp [hstate]
      · simp [hid]

theorem truncated_eq (turnId : Option String) : Kotlin.truncated s turnId = Chat.truncated s turnId := by
  unfold Kotlin.truncated Chat.truncated Chat.keptTurns Chat.refreshSummaryStatus
  cases turnId with
  | none => simp
  | some id => cases h : s.turns.findIdx? fun t => t.id = id <;> simp [h]

/-- The end of a turn: the two agree if they agree on its date. -/
theorem endTurn_eq_iff {turn : ActiveTurn Empty} {turnId : String} (hof : Chat.activeTurnOf s turnId = some turn)
    (duration : ℤ) (turnState : TurnState) (terminalStatus : Option SessionStatus)
    (errorPart : Option ErrorResponsePart) :
    Kotlin.endTurn otherParse s turnId duration turnState terminalStatus errorPart =
        Chat.endTurn legacyParse s turnId turnState duration terminalStatus errorPart ↔
      Kotlin.addMillisecondsToTimestamp otherParse turn.startedAt (max 0 duration) =
        addMillisecondsToTimestamp legacyParse turn.startedAt (max 0 duration) := by
  obtain ⟨hactive, rfl⟩ := Chat.activeTurnOf_eq_some.mp hof
  have hfinal : (Kotlin.finalPart : ResponsePart Empty → ResponsePart Empty) = Chat.finalPart := funext finalPart_eq
  have hdate : ∀ next : String → ChatState Empty, (∀ modifiedAt, (next modifiedAt).modifiedAt = modifiedAt) →
      Function.Injective (Option.map next) := fun next hnext =>
    Option.map_injective fun x y h => (hnext x).symm.trans ((congrArg ChatState.modifiedAt h).trans (hnext y))
  unfold Kotlin.endTurn Chat.endTurn Chat.endedTurn
  cases errorPart with
  | none =>
    simp only [hactive, hof, hfinal, chatSummaryStatus_eq, ne_eq, not_true_eq_false, if_false, Option.map_none,
      Option.toList_none, List.append_nil]
    exact (hdate _ fun _ => rfl).eq_iff
  | some part =>
    simp only [hactive, hof, hfinal, chatSummaryStatus_eq, ne_eq, not_true_eq_false, if_false, Option.map_some,
      Option.toList_some]
    exact (hdate _ fun _ => rfl).eq_iff

theorem endTurn_of_notActive {turnId : String} (hof : Chat.activeTurnOf s turnId = none) (duration : ℤ)
    (turnState : TurnState) (terminalStatus : Option SessionStatus) (errorPart : Option ErrorResponsePart) :
    Kotlin.endTurn otherParse s turnId duration turnState terminalStatus errorPart =
      Chat.endTurn legacyParse s turnId turnState duration terminalStatus errorPart := by
  unfold Kotlin.endTurn Chat.endTurn
  rcases activeTurn_cases s turnId with ⟨turn, -, -, hsome⟩ | ⟨-, hturn | ⟨turn, hturn, hid⟩⟩
  · rw [hof] at hsome
    cases hsome
  · simp [hturn, hof]
  · simp [hturn, hid, hof]

/-! ### Input requests -/

theorem isOpenRequest_eq (id : String) : Kotlin.isOpenRequest (U := Empty) id = Chat.isOpenRequest id := by
  funext part
  cases part <;> rfl

theorem upsertInputRequest_eq (request : ChatInputRequest) :
    Kotlin.upsertInputRequest s request = Chat.upsertInputRequestPart s request := by
  unfold Kotlin.upsertInputRequest Chat.upsertInputRequestPart Chat.findOpenInputRequestPart
  cases s.activeTurn with
  | none => rfl
  | some turn =>
    simp only [isOpenRequest_eq, chatSummaryStatus_eq, withStatusFlag_eq]
    cases hidx : turn.responseParts.findIdx? (Chat.isOpenRequest request.id) with
    | none => rfl
    | some idx =>
      obtain ⟨part, hpart, -, hopen⟩ := getElem?_of_findIdx? hidx
      cases part with
      | inputRequest part =>
        simp only [hpart, Option.bind_some]
        rfl
      | _ => cases hopen

/-- What the search for an open request finds. -/
theorem editOpenRequest_eq (requestId : String) (f : InputRequestResponsePart → InputRequestResponsePart) :
    Kotlin.editOpenRequest s requestId f = s.activeTurn.bind fun turn =>
      (Chat.findOpenInputRequestPart turn.responseParts requestId).map fun found =>
        Chat.withResponseParts s turn (turn.responseParts.set found.1 (.inputRequest (f found.2))) := by
  unfold Kotlin.editOpenRequest Chat.findOpenInputRequestPart
  rw [isOpenRequest_eq]
  congr 1
  funext turn
  cases hidx : turn.responseParts.findIdx? (Chat.isOpenRequest requestId) with
  | none => rfl
  | some idx =>
    obtain ⟨part, hpart, -, hopen⟩ := getElem?_of_findIdx? hidx
    cases part with
    | inputRequest part =>
      simp only [hpart, Option.bind_some]
      rfl
    | _ => cases hopen

theorem inputAnswerChanged_eq (a : ChatInputAnswerChangedAction) :
    Kotlin.inputAnswerChanged s a = Chat.inputAnswerChanged s a := by
  unfold Kotlin.inputAnswerChanged Chat.inputAnswerChanged
  simp only [editOpenRequest_eq]
  cases s.activeTurn with
  | none => rfl
  | some turn =>
    cases h : Chat.findOpenInputRequestPart turn.responseParts a.requestId with
    | none => simp [h]
    | some found =>
      simp only [h, Option.bind_some, Option.map_some, Option.getD_some]
      rfl

theorem inputCompleted_eq (a : ChatInputCompletedAction) :
    Kotlin.inputCompleted s a = Chat.inputCompleted s a := by
  unfold Kotlin.inputCompleted Chat.inputCompleted
  simp only [editOpenRequest_eq]
  cases s.activeTurn with
  | none => rfl
  | some turn =>
    cases h : Chat.findOpenInputRequestPart turn.responseParts a.requestId <;>
      simp [h, Chat.nonEmptyAnswers, Chat.refreshSummaryStatus]

/-! ### Pending messages -/

theorem pendingMessageSet_eq (a : ChatPendingMessageSetAction) :
    Kotlin.pendingMessageSet s a = Chat.pendingMessageSet s a := by
  cases h : a.kind <;> simp [Kotlin.pendingMessageSet, Chat.pendingMessageSet, h]

theorem pendingMessageRemoved_eq (a : ChatPendingMessageRemovedAction) :
    Kotlin.pendingMessageRemoved s a = Chat.pendingMessageRemoved s a := by
  unfold Kotlin.pendingMessageRemoved Chat.pendingMessageRemoved
  cases s.queuedMessages with
  | none => rfl
  | some existing => rfl

/-- The loop over the order keeps the messages of the ids that it has added. -/
theorem reorder_eq (existing : List PendingMessage) (order ordered : List String) :
    Kotlin.reorder existing order ordered (ordered.filterMap (Chat.messageById existing)) =
      (Chat.mentioned existing order ordered,
        (Chat.mentioned existing order ordered).filterMap (Chat.messageById existing)) := by
  induction order generalizing ordered with
  | nil => rfl
  | cons id order ih =>
    have hbyId : Kotlin.byId existing id = Chat.messageById existing id := rfl
    unfold Kotlin.reorder Chat.mentioned
    rw [hbyId]
    cases hfound : Chat.messageById existing id with
    | none => simpa using ih ordered
    | some message =>
      by_cases hmem : id ∈ ordered
      · simpa [hmem] using ih ordered
      · have hnext := ih (ordered ++ [id])
        rw [List.filterMap_append] at hnext
        simpa [hmem, hfound] using hnext

theorem queuedMessagesReordered_eq (order : List String) :
    Kotlin.queuedMessagesReordered s order = Chat.queuedMessagesReordered s order := by
  unfold Kotlin.queuedMessagesReordered Chat.queuedMessagesReordered
  cases s.queuedMessages with
  | none => rfl
  | some existing =>
    have horder := reorder_eq existing order []
    simp only [List.filterMap_nil] at horder
    simp only [horder]

/-! ### Other fields -/

theorem backgroundWorkSet_eq (work : BackgroundWork Empty) :
    Kotlin.backgroundWorkSet s work = Chat.backgroundWorkSet s work := by
  cases work with
  | unknown raw => exact raw.elim
  | _ => rfl

theorem backgroundWorkRemoved_eq (id : String) :
    Kotlin.backgroundWorkRemoved s id = Chat.backgroundWorkRemoved s id := by
  unfold Kotlin.backgroundWorkRemoved Chat.backgroundWorkRemoved
  cases s.backgroundWork with
  | none => rfl
  | some list =>
    simp only [Option.getD_some]
    generalize eraseWhere _ list = next
    cases next <;> rfl

theorem configChanged_eq (a : ChatConfigChangedAction) : Kotlin.configChanged s a = Chat.configChanged s a := by
  unfold Kotlin.configChanged Chat.configChanged
  cases s.config with
  | none => rfl
  | some config => rcases a.replace with _ | _ | _ <;> simp

theorem moved_eq (a : ChatMovedAction) : Kotlin.moved s a = Chat.moved s a := by
  unfold Kotlin.moved Chat.moved
  cases s.config with
  | some config => rfl
  | none => cases a.schema <;> simp

/-! ### The reducers -/

/-- A chat action as the Kotlin classes hold it. -/
def toKotlin : Chat.Action → ChatAction Empty (Kotlin.ChatToolCallConfirmedAction Empty)
  | .turnStarted a => .turnStarted a
  | .delta a => .delta a
  | .responsePart a => .responsePart a
  | .toolCallStart a => .toolCallStart a
  | .toolCallDelta a => .toolCallDelta a
  | .toolCallReady a => .toolCallReady a
  | .toolCallConfirmed a => .toolCallConfirmed (toKotlinConfirmed a)
  | .toolCallComplete a => .toolCallComplete a
  | .toolCallResultConfirmed a => .toolCallResultConfirmed a
  | .toolCallContentChanged a => .toolCallContentChanged a
  | .toolCallAuthRequired a => .toolCallAuthRequired a
  | .toolCallAuthResolved a => .toolCallAuthResolved a
  | .turnComplete a => .turnComplete a
  | .turnCancelled a => .turnCancelled a
  | .error a => .error a
  | .turnResume turnId => .turnResume turnId
  | .activityChanged activity => .activityChanged activity
  | .backgroundWorkSet work => .backgroundWorkSet work
  | .backgroundWorkRemoved id => .backgroundWorkRemoved id
  | .movableChanged movable => .movableChanged movable
  | .changesetsChanged changesets => .changesetsChanged changesets
  | .canvasesChanged canvases => .canvasesChanged canvases
  | .workingDirectorySet directory => .workingDirectorySet directory
  | .workingDirectoryRemoved directory => .workingDirectoryRemoved directory
  | .usage a => .usage a
  | .reasoning a => .reasoning a
  | .truncated turnId => .truncated turnId
  | .turnsLoaded a => .turnsLoaded a
  | .pendingMessageSet a => .pendingMessageSet a
  | .pendingMessageRemoved a => .pendingMessageRemoved a
  | .queuedMessagesReordered order => .queuedMessagesReordered order
  | .draftChanged draft => .draftChanged draft
  | .isReadChanged value => .isReadChanged value
  | .isArchivedChanged value => .isArchivedChanged value
  | .configChanged a => .configChanged a
  | .moved a => .moved a
  | .inputRequested request => .inputRequested request
  | .inputAnswerChanged a => .inputAnswerChanged a
  | .inputCompleted a => .inputCompleted a

/-- The chat after an action in Kotlin. -/
def kotlinNext (otherParse : String → Option ℤ) (s : ChatState Empty) (a : Chat.Action) :
    Option (ChatState Empty) :=
  Kotlin.chatReducer otherParse s (toKotlin a)

/-- The actions on which the two reducers part. -/
inductive Diverges (legacyParse : String → Option ℤ) (s : ChatState Empty) : Chat.Action → Prop
  /-- To TypeScript an empty option id is no id. -/
  | emptyOption {x : ChatToolCallConfirmedAction Empty} {turn : ActiveTurn Empty}
    {tc : ToolCallState Empty}
    (hturn : Chat.activeTurnOf s x.toToolCallActionBase.turnId = some turn)
    (htc : ResponsePart.toolCall tc ∈ turn.responseParts)
    (hid : (Chat.tcBase tc).toolCallId = x.toToolCallActionBase.toolCallId)
    (hempty : ConfirmsEmptyOption x tc) : Diverges legacyParse s (.toolCallConfirmed x)
  /-- The turn ends in a year that is written differently. -/
  | written {a : Chat.Action} {e : Chat.Ending} (ha : Chat.ending? a = some e)
    {turn : ActiveTurn Empty} (hturn : Chat.activeTurnOf s e.turnId = some turn) {t : ℤ}
    (ht : dateParse legacyParse turn.startedAt = some t)
    (hadded : ¬ AddedAlike (t + max 0 e.duration)) : Diverges legacyParse s a

/-- Both languages read the start of the active turn alike. -/
def ReadAlike (legacyParse otherParse : String → Option ℤ) (s : ChatState Empty) : Prop :=
  ∀ turn, s.activeTurn = some turn →
    dateParse legacyParse turn.startedAt = dateParse otherParse turn.startedAt

theorem not_diverges {a : Chat.Action} (hconfirmed : ∀ x, a ≠ .toolCallConfirmed x)
    (hending : Chat.ending? a = none) : ¬ Diverges legacyParse s a := by
  rintro (⟨-, -, -, -⟩ | ⟨h, -, -, -⟩)
  · exact hconfirmed _ rfl
  · rw [hending] at h
    cases h

theorem diverges_ending_iff {a : Chat.Action} {e : Chat.Ending} (ha : Chat.ending? a = some e) :
    Diverges legacyParse s a ↔ ∃ turn t, Chat.activeTurnOf s e.turnId = some turn ∧
      dateParse legacyParse turn.startedAt = some t ∧ ¬ AddedAlike (t + max 0 e.duration) := by
  constructor
  · rintro (⟨-, -, -, -⟩ | ⟨h, hturn, ht, hadded⟩)
    · cases ha
    · rw [ha] at h
      cases h
      exact ⟨_, _, hturn, ht, hadded⟩
  · rintro ⟨turn, t, hturn, ht, hadded⟩
    exact .written ha hturn ht hadded

theorem diverges_confirmed_iff {x : ChatToolCallConfirmedAction Empty} :
    Diverges legacyParse s (.toolCallConfirmed x) ↔
      ∃ turn tc, Chat.activeTurnOf s x.toToolCallActionBase.turnId = some turn ∧
        ResponsePart.toolCall tc ∈ turn.responseParts ∧
        (Chat.tcBase tc).toolCallId = x.toToolCallActionBase.toolCallId ∧ ConfirmsEmptyOption x tc := by
  constructor
  · rintro (⟨hturn, htc, hid, hempty⟩ | ⟨h, -, -, -⟩)
    · exact ⟨_, _, hturn, htc, hid, hempty⟩
    · cases h
  · rintro ⟨turn, tc, hturn, htc, hid, hempty⟩
    exact .emptyOption hturn htc hid hempty

/-- Any other action agrees if its two branches do. -/
theorem agrees_iff {a : Chat.Action} (hconfirmed : ∀ x, a ≠ .toolCallConfirmed x)
    (hending : Chat.ending? a = none) {x y : ChatState Empty} (h : x = y) :
    some x = some y ↔ ¬ Diverges legacyParse s a :=
  iff_of_true (congrArg some h) (not_diverges hconfirmed hending)

theorem endTurn_agrees_iff (hread : ReadAlike legacyParse otherParse s) {a : Chat.Action} {e : Chat.Ending}
    (ha : Chat.ending? a = some e) (terminalStatus : Option SessionStatus) :
    Kotlin.endTurn otherParse s e.turnId e.duration e.turnState terminalStatus e.errorPart =
        Chat.endTurn legacyParse s e.turnId e.turnState e.duration terminalStatus e.errorPart ↔
      ¬ Diverges legacyParse s a := by
  rw [diverges_ending_iff ha]
  cases hof : Chat.activeTurnOf s e.turnId with
  | none =>
    refine iff_of_true (endTurn_of_notActive hof _ _ _ _) ?_
    rintro ⟨turn, t, ⟨⟩, -, -⟩
  | some turn =>
    have hsame := hread turn (Chat.activeTurnOf_eq_some.mp hof).1
    rw [endTurn_eq_iff hof]
    cases ht : dateParse legacyParse turn.startedAt with
    | none =>
      refine iff_of_true (addMilliseconds_none ht (hsame ▸ ht) _) ?_
      rintro ⟨turn', t, ⟨⟩, ht', -⟩
      rw [ht] at ht'
      cases ht'
    | some t =>
      rw [addMilliseconds_eq_iff ht (hsame ▸ ht)]
      constructor
      · rintro hadded ⟨turn', t', ⟨⟩, ht', hnot⟩
        rw [ht] at ht'
        cases ht'
        exact hnot hadded
      · intro h
        by_contra hadded
        exact h ⟨turn, t, rfl, ht, hadded⟩

/-- An action on a tool call that both languages treat alike. -/
theorem updated_eq {turnId id : String} {f g : ToolCallState Empty → ToolCallState Empty}
    (hfg : ∀ tc, f tc = g tc) :
    Kotlin.updateToolCallInParts s turnId id f = Chat.updateToolCallInParts s turnId id g := by
  obtain rfl : f = g := funext hfg
  exact updateToolCallInParts_eq turnId id f

theorem refreshed_eq {turnId id : String} {f g : ToolCallState Empty → ToolCallState Empty}
    (hfg : ∀ tc, f tc = g tc) :
    Kotlin.refreshChatSummaryStatus (Kotlin.updateToolCallInParts s turnId id f) =
      Chat.refreshSummaryStatus (Chat.updateToolCallInParts s turnId id g) := by
  rw [updated_eq hfg, refreshChatSummaryStatus_eq]

theorem refreshSummaryStatus_inj_activeTurn {s s' : ChatState Empty}
    (h : Chat.refreshSummaryStatus s = Chat.refreshSummaryStatus s') : s.activeTurn = s'.activeTurn := by
  have hactive := congrArg ChatState.activeTurn h
  exact hactive

theorem confirmed_agrees_iff (x : ChatToolCallConfirmedAction Empty) :
    kotlinNext otherParse s (.toolCallConfirmed x) = Chat.chatReducer legacyParse s (.toolCallConfirmed x) ↔
      ¬ Diverges legacyParse s (.toolCallConfirmed x) := by
  rw [diverges_confirmed_iff]
  have hkotlin : kotlinNext otherParse s (.toolCallConfirmed x) =
      some (Chat.refreshSummaryStatus (Chat.updateToolCallInParts s x.toToolCallActionBase.turnId
        x.toToolCallActionBase.toolCallId (Kotlin.toolCallConfirmed (toKotlinConfirmed x)))) := by
    rw [← updateToolCallInParts_eq, ← refreshChatSummaryStatus_eq]
    cases x <;> rfl
  rw [hkotlin]
  refine Option.some_inj.trans ?_
  constructor
  · rintro h ⟨turn, tc, hof, htc, hid, hempty⟩
    have hactive := updateToolCallInParts_activeTurn_congr.mp (refreshSummaryStatus_inj_activeTurn h)
    exact (toolCallConfirmed_agrees_iff x tc).mp (hactive turn tc hof htc hid) hempty
  · intro h
    have hactive := updateToolCallInParts_activeTurn_congr.mpr fun turn tc hof htc hid =>
      (toolCallConfirmed_agrees_iff x tc).mpr fun hempty => h ⟨turn, tc, hof, htc, hid, hempty⟩
    rw [updateToolCallInParts_eq_with _ _ (Kotlin.toolCallConfirmed _), hactive,
      ← updateToolCallInParts_eq_with _ _ (Chat.toolCallConfirmed x)]

/-- **One step**: the reducers agree exactly where they do not diverge. -/
theorem kotlinNext_agrees_iff (hread : ReadAlike legacyParse otherParse s) (a : Chat.Action) :
    kotlinNext otherParse s a = Chat.chatReducer legacyParse s a ↔ ¬ Diverges legacyParse s a := by
  cases a with
  | turnComplete x =>
    have ha : Chat.ending? (.turnComplete x) = some _ := rfl
    exact endTurn_agrees_iff hread ha none
  | turnCancelled x =>
    have ha : Chat.ending? (.turnCancelled x) = some _ := rfl
    exact endTurn_agrees_iff hread ha none
  | error x =>
    have ha : Chat.ending? (.error x) = some _ := rfl
    exact endTurn_agrees_iff hread ha (some SessionStatus.error)
  | toolCallConfirmed x => exact confirmed_agrees_iff x
  | toolCallReady x => exact agrees_iff (by simp) rfl (refreshed_eq (toolCallReady_eq x))
  | toolCallComplete x => exact agrees_iff (by simp) rfl (refreshed_eq (toolCallComplete_eq x))
  | toolCallResultConfirmed x =>
    exact agrees_iff (by simp) rfl (refreshed_eq (toolCallResultConfirmed_eq x))
  | toolCallAuthRequired x => exact agrees_iff (by simp) rfl (refreshed_eq (toolCallAuthRequired_eq x))
  | toolCallAuthResolved x => exact agrees_iff (by simp) rfl (refreshed_eq (toolCallAuthResolved_eq x))
  | toolCallDelta x => exact agrees_iff (by simp) rfl (updated_eq (toolCallDelta_eq x))
  | toolCallContentChanged x => exact agrees_iff (by simp) rfl (updated_eq (toolCallContentChanged_eq x))
  | delta x =>
    refine agrees_iff (by simp) rfl ?_
    rw [updateResponsePart_eq, deltaPart_eq]
  | reasoning x =>
    refine agrees_iff (by simp) rfl ?_
    rw [updateResponsePart_eq, reasoningPart_eq]
  | turnStarted x => exact agrees_iff (by simp) rfl (turnStarted_eq x)
  | turnResume x => exact agrees_iff (by simp) rfl (turnResume_eq x)
  | truncated x => exact agrees_iff (by simp) rfl (truncated_eq x)
  | responsePart x => exact agrees_iff (by simp) rfl (responsePart_eq x)
  | toolCallStart x => exact agrees_iff (by simp) rfl (toolCallStart_eq x)
  | usage x => exact agrees_iff (by simp) rfl (usage_eq x)
  | inputRequested x => exact agrees_iff (by simp) rfl (upsertInputRequest_eq x)
  | inputAnswerChanged x => exact agrees_iff (by simp) rfl (inputAnswerChanged_eq x)
  | inputCompleted x => exact agrees_iff (by simp) rfl (inputCompleted_eq x)
  | pendingMessageSet x => exact agrees_iff (by simp) rfl (pendingMessageSet_eq x)
  | pendingMessageRemoved x => exact agrees_iff (by simp) rfl (pendingMessageRemoved_eq x)
  | queuedMessagesReordered x => exact agrees_iff (by simp) rfl (queuedMessagesReordered_eq x)
  | backgroundWorkSet x => exact agrees_iff (by simp) rfl (backgroundWorkSet_eq x)
  | backgroundWorkRemoved x => exact agrees_iff (by simp) rfl (backgroundWorkRemoved_eq x)
  | configChanged x => exact agrees_iff (by simp) rfl (configChanged_eq x)
  | moved x => exact agrees_iff (by simp) rfl (moved_eq x)
  | _ => exact agrees_iff (by simp) rfl rfl

/-- A turn that ends in the first second of the year 10000: the year has five digits in Kotlin and
six in TypeScript. -/
theorem kotlinChat_disagrees_late : ∃ s kotlin ts,
    runs (Chat.chatReducer fun _ => none)
      (ChatState.new "ahp-chat:/c" "Chat" "2025-03-10T18:00:00.000Z")
      [.turnStarted ⟨"t1", "9999-12-31T23:59:59.000Z", ⟨"hello"⟩, none⟩] = some s ∧
    kotlinNext (fun _ => none) s (.turnComplete ⟨"t1", 1000⟩) = some kotlin ∧
    Chat.chatReducer (fun _ => none) s (.turnComplete ⟨"t1", 1000⟩) = some ts ∧
    kotlin.modifiedAt = "+10000-01-01T00:00:00.000Z" ∧ ts.modifiedAt = "+010000-01-01T00:00:00.000Z" := by
  exact ⟨_, _, _, rfl, rfl, rfl, by decide, by decide⟩

end AgentHostProtocol.Agreement.KotlinChat
