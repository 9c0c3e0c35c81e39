import AgentHostProtocol.Agreement.GoToolCalls

/-!
# The Go chat reducer and the TypeScript one

What each helper of `ApplyActionToChat` leaves is what the TypeScript one leaves, on chats and
actions without unknown variants. No ids have to be distinct here: a reordering takes the last
message of an id in both.
-/

namespace AgentHostProtocol.Agreement.GoChat

open Library SessionStatus

variable {s : ChatState Empty}

/-! ### Status -/

theorem hasBlockingToolCall_eq (s : ChatState Empty) :
    Go.hasBlockingToolCall s = Chat.hasBlockingToolCall s := by
  unfold Go.hasBlockingToolCall Chat.hasBlockingToolCall
  cases s.activeTurn with
  | none => rfl
  | some turn =>
    simp only
    congr 1
    funext part
    cases part with
    | toolCall tc =>
      cases tc with
      | unknown raw => exact raw.elim
      | _ => rfl
    | _ => rfl

theorem hasOpenInputRequest_eq (s : ChatState Empty) :
    Go.hasOpenInputRequest s = Chat.hasOpenInputRequest s := by
  unfold Go.hasOpenInputRequest Chat.hasOpenInputRequest
  cases s.activeTurn with
  | none => rfl
  | some turn =>
    simp only
    congr 1
    funext part
    cases part <;> rfl

theorem summaryStatus_eq (s : ChatState Empty) (terminal : Option SessionStatus) :
    Go.summaryStatus s terminal = Chat.summaryStatus s terminal := by
  have hblocking := hasBlockingToolCall_eq s
  have hinput := hasOpenInputRequest_eq s
  unfold Go.summaryStatus Chat.summaryStatus setField
  cases terminal <;> simp only [hblocking, hinput]

theorem refreshSummaryStatus_eq (s : ChatState Empty) :
    Go.refreshSummaryStatus s = Chat.refreshSummaryStatus s := by
  unfold Go.refreshSummaryStatus Chat.refreshSummaryStatus
  rw [summaryStatus_eq]

theorem withStatusFlag_eq : Go.withStatusFlag = SessionStatus.withStatusFlag := rfl

/-! ### Turns -/

theorem turnStarted_eq (a : ChatTurnStartedAction) :
    (Go.turnStarted s a).2 = Chat.turnStarted s a := by
  unfold Go.turnStarted Chat.turnStarted
  simp only [summaryStatus_eq, withStatusFlag_eq]
  cases a.queuedMessageId with
  | none => rfl
  | some id =>
    simp only
    by_cases hsteer : s.steeringMessage.map (·.id) = some id
    · simp only [if_pos hsteer]
      cases s.queuedMessages <;> rfl
    · simp only [if_neg hsteer]
      cases s.queuedMessages <;> simp

theorem hasResumableError_eq (turn : Turn Empty) :
    Go.hasResumableError turn = Chat.hasResumableError turn := by
  unfold Go.hasResumableError Chat.hasResumableError
  cases turn.responseParts.getLast? with
  | none => rfl
  | some part =>
    cases part with
    | error part => rcases part with ⟨_, _ | _ | _⟩ <;> rfl
    | _ => rfl

theorem turnResume_eq (turnId : String) : (Go.turnResume s turnId).2 = Chat.turnResume s turnId := by
  unfold Go.turnResume Chat.turnResume
  cases s.activeTurn with
  | some turn => rfl
  | none =>
    cases s.turns.getLast? with
    | none => rfl
    | some turn =>
      simp only [hasResumableError_eq]
      by_cases hresumes : turn.id = turnId ∧ turn.state = .error ∧ Chat.hasResumableError turn = true
      · rw [if_pos hresumes, if_neg (by simpa [not_or] using hresumes)]
        simp only [summaryStatus_eq, withStatusFlag_eq, Chat.resumedTurn]
      · rw [if_neg hresumes, if_pos]
        by_contra hnot
        simp only [not_or, not_not, ne_eq, Bool.not_eq_false] at hnot
        exact hresumes hnot

theorem truncated_eq (turnId : Option String) : (Go.truncated s turnId).2 = Chat.truncated s turnId := by
  unfold Go.truncated Chat.truncated Chat.keptTurns Chat.refreshSummaryStatus
  cases turnId with
  | none => simp only [summaryStatus_eq]; rfl
  | some id =>
    simp only [summaryStatus_eq]
    cases s.turns.findIdx? fun t => t.id = id <;> rfl

theorem finalPart_eq (part : ResponsePart Empty) : Go.finalPart part = Chat.finalPart part := by
  cases part with
  | toolCall tc => exact congrArg ResponsePart.toolCall (cancelUnfinished_eq tc)
  | _ => rfl

/-! ### Response parts -/

theorem withActiveTurn_eq (turnId : String)
    (k : ActiveTurn Empty → Go.ReduceOutcome × ChatState Empty) :
    Go.withActiveTurn s turnId k =
      match Chat.activeTurnOf s turnId with
      | none => (.noOp, s)
      | some turn => k turn := by
  unfold Go.withActiveTurn Chat.activeTurnOf
  cases s.activeTurn with
  | none => rfl
  | some turn => by_cases hid : turn.id = turnId <;> simp [Option.filter, hid]

theorem responsePart_eq (a : ChatResponsePartAction Empty) :
    (Go.responsePart s a).2 = Chat.responsePart s a := by
  unfold Go.responsePart Chat.responsePart Chat.appendPart
  rw [withActiveTurn_eq]
  cases Chat.activeTurnOf s a.turnId with
  | none => cases a.part <;> rfl
  | some turn => cases a.part <;> rfl

theorem toolCallStart_eq (a : ChatToolCallStartAction Empty) :
    (Go.toolCallStart s a).2 = Chat.toolCallStart s a := by
  unfold Go.toolCallStart Chat.toolCallStart Chat.appendPart
  rw [withActiveTurn_eq]
  cases Chat.activeTurnOf s a.turnId <;> rfl

theorem usage_eq (a : ChatUsageAction) : (Go.usage s a).2 = Chat.usage s a := by
  unfold Go.usage Chat.usage
  rw [withActiveTurn_eq]
  cases Chat.activeTurnOf s a.turnId <;> rfl

theorem deltaPart_eq (a : ChatDeltaAction) :
    (Go.deltaPart a : ResponsePart Empty → _) = Chat.deltaPart a := by
  funext part
  cases part <;> rfl

theorem reasoningPart_eq (a : ChatReasoningAction) :
    (Go.reasoningPart a : ResponsePart Empty → _) = Chat.reasoningPart a := by
  funext part
  cases part <;> rfl

/-! ### Input requests -/

theorem editOpenRequest_eq (requestId : String)
    (f : InputRequestResponsePart → InputRequestResponsePart) :
    (Go.editOpenRequest requestId f : ResponsePart Empty → _) = Rust.editOpenRequest requestId f := by
  funext part
  cases part <;> rfl

/-- The Go search edits what the TypeScript search finds. -/
theorem updateFirst_editOpenRequest (parts : List (ResponsePart Empty)) (requestId : String)
    (f : InputRequestResponsePart → InputRequestResponsePart) :
    updateFirst (Go.editOpenRequest requestId f) parts =
      (Chat.findOpenInputRequestPart parts requestId).map fun found =>
        parts.set found.1 (.inputRequest (f found.2)) := by
  rw [editOpenRequest_eq]
  exact Agreement.updateFirst_editOpenRequest parts requestId f

theorem upsertInputRequest_eq (request : ChatInputRequest) :
    (Go.upsertInputRequest s request).2 = Chat.upsertInputRequestPart s request := by
  unfold Go.upsertInputRequest Chat.upsertInputRequestPart
  cases s.activeTurn with
  | none => rfl
  | some turn =>
    simp only [updateFirst_editOpenRequest, summaryStatus_eq, withStatusFlag_eq]
    cases Chat.findOpenInputRequestPart turn.responseParts request.id <;> rfl

theorem answerChanged_eq (a : ChatInputAnswerChangedAction) :
    (Go.inputAnswerChanged s a).2 = Chat.inputAnswerChanged s a := by
  unfold Go.inputAnswerChanged Chat.inputAnswerChanged
  cases s.activeTurn with
  | none => rfl
  | some turn =>
    simp only [updateFirst_editOpenRequest]
    cases Chat.findOpenInputRequestPart turn.responseParts a.requestId <;> rfl

theorem inputCompleted_eq (a : ChatInputCompletedAction) :
    (Go.inputCompleted s a).2 = Chat.inputCompleted s a := by
  unfold Go.inputCompleted Chat.inputCompleted
  cases s.activeTurn with
  | none => rfl
  | some turn =>
    simp only [updateFirst_editOpenRequest]
    cases Chat.findOpenInputRequestPart turn.responseParts a.requestId with
    | none => rfl
    | some found =>
      simp only [Option.map_some, refreshSummaryStatus_eq]
      rfl

/-! ### Pending messages -/

theorem pendingMessageSet_eq (a : ChatPendingMessageSetAction) :
    (Go.pendingMessageSet s a).2 = Chat.pendingMessageSet s a := by
  unfold Go.pendingMessageSet Chat.pendingMessageSet
  cases a.kind with
  | steering => rfl
  | queued =>
    simp only [reduceCtorEq, if_false]
    split <;> rfl

theorem pendingMessageRemoved_eq (a : ChatPendingMessageRemovedAction) :
    (Go.pendingMessageRemoved s a).2 = Chat.pendingMessageRemoved s a := by
  unfold Go.pendingMessageRemoved Chat.pendingMessageRemoved
  by_cases h : a.kind = .steering ∧ s.steeringMessage.map (·.id) = some a.id
  · simp only [if_pos h]
    generalize eraseWhere _ _ = l
    cases l <;> rfl
  · simp only [if_neg h]
    generalize eraseWhere _ _ = l
    cases l <;> rfl

/-- Go collects the messages of the ids that TypeScript collects. -/
theorem reorder_eq (existing : List PendingMessage) (order ordered : List String) :
    Go.reorder existing order (ordered.filterMap (Chat.messageById existing)) ordered =
      ((Chat.mentioned existing order ordered).filterMap (Chat.messageById existing),
        Chat.mentioned existing order ordered) := by
  induction order generalizing ordered with
  | nil => rfl
  | cons id order ih =>
    have hbyID : Go.byID existing id = Chat.messageById existing id := rfl
    rw [Go.reorder, Chat.mentioned, hbyID]
    cases hm : Chat.messageById existing id with
    | none => simp [ih]
    | some m =>
      by_cases hid : id ∈ ordered
      · simp [hid, ih]
      · have happend : ordered.filterMap (Chat.messageById existing) ++ [m] =
            (ordered ++ [id]).filterMap (Chat.messageById existing) := by
          simp [hm]
        simp only [hid, happend, ih, Option.isSome_some, not_false_eq_true, and_self, if_true,
          if_false]

theorem queuedMessagesReordered_eq (order : List String) :
    (Go.queuedMessagesReordered s order).2 = Chat.queuedMessagesReordered s order := by
  unfold Go.queuedMessagesReordered Chat.queuedMessagesReordered
  cases s.queuedMessages with
  | none => rfl
  | some existing =>
    have hreorder := reorder_eq existing order []
    simp only [List.filterMap_nil] at hreorder
    simp only [hreorder]

/-! ### Other fields -/

theorem backgroundWorkID_eq (work : BackgroundWork Empty) : Go.backgroundWorkID work = work.id? := by
  cases work with
  | unknown raw => exact raw.elim
  | _ => rfl

theorem backgroundWorkSet_eq (work : BackgroundWork Empty) :
    (Go.backgroundWorkSet s work).2 = Chat.backgroundWorkSet s work := by
  unfold Go.backgroundWorkSet Chat.backgroundWorkSet
  simp only [backgroundWorkID_eq]
  cases work with
  | unknown raw => exact raw.elim
  | _ => rfl

theorem backgroundWorkRemoved_eq (id : String) :
    (Go.backgroundWorkRemoved s id).2 = Chat.backgroundWorkRemoved s id := by
  unfold Go.backgroundWorkRemoved Chat.backgroundWorkRemoved
  simp only [backgroundWorkID_eq]
  cases s.backgroundWork with
  | none => rfl
  | some list =>
    simp only [Option.getD_some]
    generalize eraseWhere _ list = l
    cases l <;> rfl

theorem workingDirectorySet_eq (directory : URI) :
    (Go.workingDirectorySet s directory).2 = Chat.workingDirectorySet s directory := by
  unfold Go.workingDirectorySet Chat.workingDirectorySet
  simp only
  split <;> rfl

theorem workingDirectoryRemoved_eq (directory : URI) :
    (Go.workingDirectoryRemoved s directory).2 = Chat.workingDirectoryRemoved s directory := by
  unfold Go.workingDirectoryRemoved Chat.workingDirectoryRemoved
  cases s.workingDirectories with
  | none => rfl
  | some list =>
    simp only [Option.getD_some]
    generalize eraseWhere _ list = l
    cases l <;> rfl

theorem configChanged_eq (a : ChatConfigChangedAction) :
    (Go.configChanged s a).2 = Chat.configChanged s a := by
  unfold Go.configChanged Chat.configChanged
  cases s.config with
  | none =>
    simp only [Option.getD_none, Record.empty_merge, ite_self]
    rfl
  | some config =>
    simp only [Option.getD_some]
    split
    · rw [Record.empty_merge]
      rfl
    · rfl

theorem moved_eq (a : ChatMovedAction) : (Go.moved s a).2 = Chat.moved s a := by
  unfold Go.moved Chat.moved
  cases hconfig : s.config with
  | some config => simp
  | none => cases a.schema <;> simp

end AgentHostProtocol.Agreement.GoChat
