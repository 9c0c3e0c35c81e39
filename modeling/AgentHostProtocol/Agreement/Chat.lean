import AgentHostProtocol.Agreement.ToolCalls
import AgentHostProtocol.Chat.Stale
import AgentHostProtocol.Rust.Chat

/-!
# The two chat reducers

The Rust chat reducer against the TypeScript one, on chats and actions without unknown
variants, whose active turn starts at a valid timestamp and in which no two tool calls of
the active turn, and no two queued messages, share an id.
-/

namespace AgentHostProtocol.Agreement

open Library SessionStatus

variable {s : ChatState Empty}

/-! ### Status -/

theorem hasBlockingToolCall_eq (s : ChatState Empty) :
    Rust.hasBlockingToolCall s = Chat.hasBlockingToolCall s := by
  unfold Rust.hasBlockingToolCall Chat.hasBlockingToolCall
  cases s.activeTurn with
  | none => rfl
  | some turn =>
    simp only
    congr 1
    funext part
    cases part with
    | toolCall tc =>
      cases tc with
      | unknown raw => exact raw.elim
      | _ => rfl
    | _ => rfl

theorem hasOpenInputRequest_eq (s : ChatState Empty) :
    Rust.hasOpenInputRequest s = Chat.hasOpenInputRequest s := by
  unfold Rust.hasOpenInputRequest Chat.hasOpenInputRequest
  cases s.activeTurn with
  | none => rfl
  | some turn =>
    simp only
    congr 1
    funext part
    cases part <;> rfl

theorem summaryStatus_eq (s : ChatState Empty) (terminal : Option SessionStatus) :
    Rust.summaryStatus s terminal = Chat.summaryStatus s terminal := by
  have hblocking := hasBlockingToolCall_eq s
  have hinput := hasOpenInputRequest_eq s
  unfold Rust.summaryStatus Chat.summaryStatus setField
  cases terminal <;> simp only [hblocking, hinput]

theorem refreshSummaryStatus_eq (s : ChatState Empty) :
    Rust.refreshSummaryStatus s = Chat.refreshSummaryStatus s := by
  unfold Rust.refreshSummaryStatus Chat.refreshSummaryStatus
  rw [summaryStatus_eq]

theorem withStatusFlag_eq : Rust.withStatusFlag = SessionStatus.withStatusFlag := rfl

/-! ### Turns -/

theorem turnStarted_eq (a : ChatTurnStartedAction) :
    (Rust.turnStarted s a).2 = Chat.turnStarted s a := by
  unfold Rust.turnStarted Chat.turnStarted
  simp only [summaryStatus_eq, withStatusFlag_eq]
  cases a.queuedMessageId with
  | none => rfl
  | some id =>
    simp only
    by_cases hsteer : s.steeringMessage.map (·.id) = some id
    · simp only [if_pos hsteer]
      cases s.queuedMessages <;> rfl
    · simp only [if_neg hsteer]
      cases s.queuedMessages <;> simp

theorem turnResume_eq (turnId : String) : (Rust.turnResume s turnId).2 = Chat.turnResume s turnId := by
  unfold Rust.turnResume Chat.turnResume
  cases hactive : s.activeTurn with
  | some turn => rfl
  | none =>
    cases hlast : s.turns.getLast? with
    | none => rfl
    | some turn =>
      simp only
      by_cases hid : turn.id ≠ turnId ∨ turn.state ≠ .error
      · rw [if_pos hid, if_neg (by tauto)]
      · rw [not_or, not_not, not_not] at hid
        rw [if_neg (by tauto)]
        obtain ⟨rfl, hstate⟩ := hid
        simp only [hstate, true_and]
        unfold Chat.hasResumableError
        split
        · next error hpart =>
          by_cases hresumable : error.resumable = some true
          · rw [if_neg (not_not.mpr hresumable), if_pos (by simp [hpart, hresumable])]
            simp only [refreshSummaryStatus_eq, withStatusFlag_eq, Chat.refreshSummaryStatus,
              Chat.resumedTurn]
          · rw [if_pos hresumable, if_neg (by simp [hpart, hresumable])]
        · next hpart =>
          rw [if_neg]
          split
          · next error hpart' => exact absurd hpart' (hpart error)
          · exact Bool.false_ne_true

theorem truncated_eq (turnId : Option String) : (Rust.truncated s turnId).2 = Chat.truncated s turnId := by
  unfold Rust.truncated Chat.truncated Chat.keptTurns Chat.refreshSummaryStatus
  cases turnId with
  | none => simp only [summaryStatus_eq]; rfl
  | some id =>
    simp only [summaryStatus_eq]
    cases s.turns.findIdx? fun t => t.id = id <;> rfl

theorem finalPart_eq (part : ResponsePart Empty) : Rust.finalPart part = Chat.finalPart part := by
  cases part with
  | toolCall tc => exact congrArg ResponsePart.toolCall (cancelUnfinished_eq tc)
  | _ => rfl

/-! ### Response parts -/

theorem withActiveTurn_eq (turnId : String)
    (k : ActiveTurn Empty → Rust.ReduceOutcome × ChatState Empty) :
    Rust.withActiveTurn s turnId k =
      match Chat.activeTurnOf s turnId with
      | none => (.noOp, s)
      | some turn => k turn := by
  unfold Rust.withActiveTurn Chat.activeTurnOf
  cases s.activeTurn with
  | none => rfl
  | some turn => by_cases hid : turn.id = turnId <;> simp [Option.filter, hid]

theorem partId_eq (part : ResponsePart Empty) : Rust.partId part = Chat.partId part := by
  cases part with
  | toolCall tc => exact congrArg some (toolCallId_eq tc)
  | _ => rfl

theorem updateResponsePart_eq (turnId id : String) {f g : ResponsePart Empty → ResponsePart Empty}
    (hfg : f = g) : (Rust.updateResponsePart s turnId id f).2 = Chat.updateResponsePart s turnId id g := by
  subst hfg
  unfold Rust.updateResponsePart Chat.updateResponsePart
  rw [withActiveTurn_eq]
  cases Chat.activeTurnOf s turnId with
  | none => rfl
  | some turn =>
    simp only [partId_eq]
    generalize updateFirst _ _ = parts
    cases parts <;> rfl

theorem deltaPart_eq (a : ChatDeltaAction) :
    (Rust.deltaPart a : ResponsePart Empty → _) = Chat.deltaPart a := by
  funext part
  cases part <;> rfl

theorem reasoningPart_eq (a : ChatReasoningAction) :
    (Rust.reasoningPart a : ResponsePart Empty → _) = Chat.reasoningPart a := by
  funext part
  cases part <;> rfl

theorem responsePart_eq (a : ChatResponsePartAction Empty) :
    (Rust.responsePart s a).2 = Chat.responsePart s a := by
  unfold Rust.responsePart Chat.responsePart Chat.appendPart
  rw [withActiveTurn_eq]
  cases Chat.activeTurnOf s a.turnId with
  | none => cases a.part <;> rfl
  | some turn => cases a.part <;> rfl

theorem toolCallStart_eq (a : ChatToolCallStartAction Empty) :
    (Rust.toolCallStart s a).2 = Chat.toolCallStart s a := by
  unfold Rust.toolCallStart Chat.toolCallStart Chat.appendPart
  rw [withActiveTurn_eq]
  cases Chat.activeTurnOf s a.turnId <;> rfl

theorem usage_eq (a : ChatUsageAction) : (Rust.usage s a).2 = Chat.usage s a := by
  unfold Rust.usage Chat.usage
  rw [withActiveTurn_eq]
  cases Chat.activeTurnOf s a.turnId <;> rfl

/-! ### Input requests -/

/-- The Rust search edits what the TypeScript search finds. -/
theorem updateFirst_editOpenRequest (parts : List (ResponsePart Empty)) (requestId : String)
    (f : InputRequestResponsePart → InputRequestResponsePart) :
    updateFirst (Rust.editOpenRequest requestId f) parts =
      (Chat.findOpenInputRequestPart parts requestId).map fun found =>
        parts.set found.1 (.inputRequest (f found.2)) := by
  have hf : ∀ part,
      (Rust.editOpenRequest requestId f part).isSome = Chat.isOpenRequest requestId part := by
    intro part
    cases part with
    | inputRequest part =>
      simp only [Rust.editOpenRequest, Chat.isOpenRequest]
      split
      · next h => exact h.symm
      · next h => exact (Bool.eq_false_of_not_eq_true h).symm
    | _ => rfl
  rw [updateFirst_eq_findIdx? hf, Chat.findOpenInputRequestPart]
  cases hi : parts.findIdx? (Chat.isOpenRequest requestId) with
  | none => rfl
  | some i =>
    obtain ⟨hlt, hopen, -⟩ := List.findIdx?_eq_some_iff_getElem.mp hi
    simp only [Option.bind_some, List.getElem?_eq_getElem hlt]
    cases hpart : parts[i] with
    | inputRequest part =>
      rw [hpart] at hopen
      simp only [Chat.isOpenRequest] at hopen
      simp only [Rust.editOpenRequest, if_pos hopen, Option.map_some]
    | _ =>
      rw [hpart] at hopen
      cases hopen

theorem upsertInputRequest_eq (request : ChatInputRequest) :
    (Rust.upsertInputRequest s request).2 = Chat.upsertInputRequestPart s request := by
  unfold Rust.upsertInputRequest Chat.upsertInputRequestPart
  cases s.activeTurn with
  | none => rfl
  | some turn =>
    simp only [updateFirst_editOpenRequest, summaryStatus_eq, withStatusFlag_eq]
    cases Chat.findOpenInputRequestPart turn.responseParts request.id <;> rfl

theorem answerChanged_eq (a : ChatInputAnswerChangedAction) :
    (Rust.inputAnswerChanged s a).2 = Chat.inputAnswerChanged s a := by
  unfold Rust.inputAnswerChanged Chat.inputAnswerChanged
  cases s.activeTurn with
  | none => rfl
  | some turn =>
    simp only [updateFirst_editOpenRequest]
    cases Chat.findOpenInputRequestPart turn.responseParts a.requestId <;> rfl

theorem inputCompleted_eq (a : ChatInputCompletedAction) :
    (Rust.inputCompleted s a).2 = Chat.inputCompleted s a := by
  unfold Rust.inputCompleted Chat.inputCompleted
  cases s.activeTurn with
  | none => rfl
  | some turn =>
    simp only [updateFirst_editOpenRequest]
    cases Chat.findOpenInputRequestPart turn.responseParts a.requestId with
    | none => rfl
    | some found =>
      simp only [Option.map_some, refreshSummaryStatus_eq, Rust.completeRequest, Chat.nonEmptyAnswers]
      cases a.answers <;> rfl

/-! ### Pending messages -/

theorem pendingMessageSet_eq (a : ChatPendingMessageSetAction) :
    (Rust.pendingMessageSet s a).2 = Chat.pendingMessageSet s a := by
  unfold Rust.pendingMessageSet Chat.pendingMessageSet
  cases a.kind with
  | steering => rfl
  | queued =>
    simp only [reduceCtorEq, if_false]
    split <;> rfl

theorem pendingMessageRemoved_eq (a : ChatPendingMessageRemovedAction) :
    (Rust.pendingMessageRemoved s a).2 = Chat.pendingMessageRemoved s a := by
  unfold Rust.pendingMessageRemoved Chat.pendingMessageRemoved
  by_cases h : a.kind = .steering ∧ s.steeringMessage.map (·.id) = some a.id
  · simp only [if_pos h]
    cases s.queuedMessages with
    | none => rfl
    | some list =>
      simp only [Option.getD_some]
      generalize eraseWhere _ list = l
      cases l <;> rfl
  · simp only [if_neg h]
    cases s.queuedMessages with
    | none => rfl
    | some list =>
      simp only [Option.getD_some]
      generalize eraseWhere _ list = l
      cases l <;> rfl

/-! ### Reordering -/

/-- No two messages share an id. -/
abbrev DistinctIds (l : List PendingMessage) : Prop := (l.map (·.id)).Nodup

/-- Collected into a map, messages with distinct ids stay as they are. -/
theorem foldl_insertById {l acc : List PendingMessage} (h : DistinctIds (acc ++ l)) :
    l.foldl (fun byId m => Rust.insertById m byId) acc = acc ++ l := by
  induction l generalizing acc with
  | nil => simp
  | cons m l ih =>
    have hinsert : Rust.insertById m acc = acc ++ [m] := by
      unfold Rust.insertById
      congr 1
      rw [List.filter_eq_self]
      intro x hx
      rw [DistinctIds, List.map_append, List.nodup_append] at h
      have hne := h.2.2 x.id (List.mem_map_of_mem hx) m.id (by simp)
      simpa using hne
    rw [List.foldl_cons, hinsert, ih (by simpa [DistinctIds] using h)]
    simp

theorem messageById_eq_some_iff {l : List PendingMessage} (h : DistinctIds l) {id : String}
    {m : PendingMessage} : Chat.messageById l id = some m ↔ m ∈ l ∧ m.id = id := by
  unfold Chat.messageById
  rw [find?_eq_some_iff_of_nodup (by rw [List.map_reverse, List.nodup_reverse]; exact h),
    List.mem_reverse]

/-- Taking the ids of an order out of the map takes those that are mentioned first. -/
theorem takeById_order {existing : List PendingMessage} (h : DistinctIds existing)
    (order ordered : List String) :
    ∃ new, Chat.mentioned existing order ordered = ordered ++ new ∧
      Rust.takeById order (existing.filter fun m => m.id ∉ ordered) =
        (new.filterMap (Chat.messageById existing),
          existing.filter fun m => m.id ∉ ordered ++ new) := by
  induction order generalizing ordered with
  | nil => exact ⟨[], by simp [Chat.mentioned], by simp [Rust.takeById]⟩
  | cons id order ih =>
    have hfilter : DistinctIds (existing.filter fun m => m.id ∉ ordered) :=
      h.sublist (List.filter_sublist.map _)
    by_cases hid : (Chat.messageById existing id).isSome ∧ id ∉ ordered
    · obtain ⟨m, hm⟩ := Option.isSome_iff_exists.mp hid.1
      obtain ⟨hmem, rfl⟩ := (messageById_eq_some_iff h).mp hm
      have hfind : (existing.filter fun m => m.id ∉ ordered).find? (fun x => x.id = m.id) = some m := by
        rw [find?_eq_some_iff_of_nodup hfilter]
        exact ⟨List.mem_filter.mpr ⟨hmem, by simpa using hid.2⟩, rfl⟩
      have hdrop : (existing.filter fun x => x.id ∉ ordered).filter (fun x => x.id ≠ m.id) =
          existing.filter fun x => x.id ∉ ordered ++ [m.id] := by
        rw [List.filter_filter]
        congr 1
        funext x
        simp [and_comm]
      obtain ⟨new, hnew, htake⟩ := ih (ordered ++ [m.id])
      refine ⟨m.id :: new, ?_, ?_⟩
      · rw [Chat.mentioned, if_pos hid, hnew]
        simp
      · simp only [Rust.takeById, hfind, hdrop, htake, List.filterMap_cons, hm]
        simp
    · have hfind : (existing.filter fun m => m.id ∉ ordered).find? (fun x => x.id = id) = none := by
        by_contra hne
        obtain ⟨m, hm⟩ := Option.ne_none_iff_exists'.mp hne
        obtain ⟨hmem, rfl⟩ := (find?_eq_some_iff_of_nodup hfilter).mp hm
        obtain ⟨hmem, hnot⟩ := List.mem_filter.mp hmem
        refine hid ⟨?_, by simpa using hnot⟩
        rw [(messageById_eq_some_iff h).mpr ⟨hmem, rfl⟩]
        rfl
      obtain ⟨new, hnew, htake⟩ := ih ordered
      refine ⟨new, ?_, ?_⟩
      · rw [Chat.mentioned, if_neg hid, hnew]
      · simp only [Rust.takeById, hfind, htake]

/-- Taking out what is left, in the original order, takes everything. -/
theorem takeById_rest {existing : List PendingMessage} (h : DistinctIds existing)
    (p : PendingMessage → Bool) :
    Rust.takeById (existing.map (·.id)) (existing.filter p) = (existing.filter p, []) := by
  induction existing with
  | nil => rfl
  | cons m l ih =>
    have hl : DistinctIds l := (List.nodup_cons.mp h).2
    by_cases hp : p m = true
    · have hdistinct : ((m :: l.filter p).map (·.id)).Nodup :=
        h.sublist ((List.filter_sublist.cons_cons m).map _)
      have hdrop := filter_ne_head hdistinct
      simp only [List.map_cons, List.filter_cons_of_pos hp, Rust.takeById]
      rw [List.find?_cons_of_pos (by simp)]
      simp only [hdrop, ih hl]
    · have hfind : (l.filter p).find? (fun x => x.id = m.id) = none := by
        rw [List.find?_eq_none]
        intro x hx
        have hne : x.id ≠ m.id := fun heq =>
          (List.nodup_cons.mp h).1 (List.mem_map.mpr ⟨x, (List.mem_filter.mp hx).1, heq⟩)
        simpa using hne
      simp only [List.map_cons, List.filter_cons_of_neg hp, Rust.takeById, hfind, ih hl]

theorem queuedMessagesReordered_eq (order : List String)
    (h : ∀ l, s.queuedMessages = some l → DistinctIds l) :
    (Rust.queuedMessagesReordered s order).2 = Chat.queuedMessagesReordered s order := by
  unfold Rust.queuedMessagesReordered Chat.queuedMessagesReordered
  cases hq : s.queuedMessages with
  | none => rfl
  | some existing =>
    have hd := h existing hq
    obtain ⟨new, hnew, htake⟩ := takeById_order hd order []
    have hall : existing.filter (fun m => m.id ∉ ([] : List String)) = existing := by simp
    rw [hall] at htake
    have hfold := @foldl_insertById _ [] hd
    rw [List.nil_append] at hfold hnew htake
    simp only [hfold, htake, takeById_rest hd, hnew]

/-! ### Other fields -/

theorem backgroundWorkSet_eq (work : BackgroundWork Empty) :
    (Rust.backgroundWorkSet s work).2 = Chat.backgroundWorkSet s work := by
  cases work with
  | unknown raw => exact raw.elim
  | _ => rfl

theorem backgroundWorkRemoved_eq (id : String) :
    (Rust.backgroundWorkRemoved s id).2 = Chat.backgroundWorkRemoved s id := by
  unfold Rust.backgroundWorkRemoved Chat.backgroundWorkRemoved
  cases s.backgroundWork with
  | none => rfl
  | some list =>
    simp only [Option.getD_some]
    generalize eraseWhere _ list = l
    cases l <;> rfl

theorem workingDirectorySet_eq (directory : URI) :
    (Rust.workingDirectorySet s directory).2 = Chat.workingDirectorySet s directory := by
  unfold Rust.workingDirectorySet Chat.workingDirectorySet
  cases hlist : s.workingDirectories with
  | none => simp
  | some list =>
    simp only [Option.getD_some]
    split
    · rw [← hlist]
    · rfl

theorem workingDirectoryRemoved_eq (directory : URI) :
    (Rust.workingDirectoryRemoved s directory).2 = Chat.workingDirectoryRemoved s directory := by
  unfold Rust.workingDirectoryRemoved Chat.workingDirectoryRemoved
  cases s.workingDirectories with
  | none => rfl
  | some list =>
    simp only
    generalize eraseWhere _ list = l
    cases l <;> rfl

theorem configChanged_eq (a : ChatConfigChangedAction) :
    (Rust.configChanged s a).2 = Chat.configChanged s a := by
  unfold Rust.configChanged Chat.configChanged
  cases s.config with
  | none =>
    simp only [Option.getD_none, Record.empty_merge, ite_self]
    rfl
  | some config => rfl

theorem moved_eq (a : ChatMovedAction) : (Rust.moved s a).2 = Chat.moved s a := by
  unfold Rust.moved Chat.moved
  cases hconfig : s.config with
  | some config => simp
  | none => cases a.schema <;> simp

end AgentHostProtocol.Agreement
