import AgentHostProtocol.Chat.Steps

/-!
# The pending messages of a chat

Messages wait in `queuedMessages`, steering messages among them; `steeringMessage` is a slot that
repeats one of these for older clients. `PendingStep` says what an action does to the two.

**What is proved**: reordering by any list of ids is a permutation that puts the known ids first, in
the order of their first mention; along any run the ids stay distinct and a message leaves the list
only when it is removed or a turn is started from it (`pending_conserved`); and the slot repeats an
entry of the list (`steering_viewed`).
-/

namespace AgentHostProtocol.Chat

open Library

variable {legacyParse : String → Option ℤ} {s s' : ChatState Empty} {a : Action}

/-- The pending messages. -/
def pending (state : ChatState Empty) : List PendingMessage := state.queuedMessages.getD []

def pendingIds (state : ChatState Empty) : List String := (pending state).map (·.id)

/-- The kind of a message; a message without one is queued. -/
def effectiveKind (m : PendingMessage) : PendingMessageKind := m.kind.getD .queued

/-- The entry that an action sets. -/
def pendingEntry (x : ChatPendingMessageSetAction) : PendingMessage := ⟨x.id, some x.kind, x.message⟩

/-- The message leaves the list: it is removed as what it is, or a turn is started from it. -/
def Takes (a : Action) (m : PendingMessage) : Prop :=
  a = .pendingMessageRemoved ⟨effectiveKind m, m.id⟩ ∨
    ∃ x, a = .turnStarted x ∧ x.queuedMessageId = some m.id

/-- The slot is empty, or repeats a steering message of the list. -/
def Viewed (state : ChatState Empty) : Prop :=
  ∀ m, state.steeringMessage = some m → m ∈ pending state ∧ m.kind = some .steering

/-! ### Reordering -/

section

variable {existing : List PendingMessage}

theorem messageById_eq_some (hdistinct : (existing.map (·.id)).Nodup) {id : String} {m : PendingMessage} :
    messageById existing id = some m ↔ m ∈ existing ∧ m.id = id := by
  unfold messageById
  have hreverse : (existing.reverse.map (·.id)).Nodup := by
    rw [List.map_reverse]
    exact List.nodup_reverse.mpr hdistinct
  rw [find?_eq_some_iff_of_nodup hreverse, List.mem_reverse]

/-- The ids that are known and not mentioned yet, in order of first mention. -/
theorem mentioned_eq (order ordered : List String) : mentioned existing order ordered =
    ordered ++ (order.filter fun id => id ∈ existing.map (·.id) ∧ id ∉ ordered).eraseDups := by
  induction order generalizing ordered with
  | nil => simp [mentioned]
  | cons id order ih =>
    have hknown : (messageById existing id).isSome = true ↔ id ∈ existing.map (·.id) := by
      simp [messageById]
    by_cases h : id ∈ existing.map (·.id) ∧ id ∉ ordered
    · rw [mentioned, if_pos ⟨hknown.mpr h.1, h.2⟩, ih, List.filter_cons_of_pos (by simpa using h),
        List.eraseDups_cons, List.filter_filter, List.append_assoc, List.singleton_append]
      congr 3
      refine List.filter_congr fun u _ => ?_
      by_cases hu : u = id <;> simp [hu]
    · rw [mentioned, if_neg fun hid => h ⟨hknown.mp hid.1, hid.2⟩, ih,
        List.filter_cons_of_neg (by simpa using h)]

theorem mem_mentioned {order : List String} {id : String} :
    id ∈ mentioned existing order [] ↔ id ∈ order ∧ id ∈ existing.map (·.id) := by
  rw [mentioned_eq, List.nil_append, List.mem_eraseDups, List.mem_filter]
  simp

/-- The ids after a reordering. -/
theorem reordered_ids (hdistinct : (existing.map (·.id)).Nodup) (order : List String) :
    ((mentioned existing order []).filterMap (messageById existing) ++
        existing.filter fun m => m.id ∉ mentioned existing order []).map (·.id) =
      (order.filter fun id => id ∈ existing.map (·.id)).eraseDups ++
        (existing.map (·.id)).filter fun id => id ∉ order := by
  have hfront : ((mentioned existing order []).filterMap (messageById existing)).map (·.id) =
      mentioned existing order [] := by
    rw [List.map_filterMap]
    have hsome : ∀ id ∈ mentioned existing order [],
        (messageById existing id).map (·.id) = some id := by
      intro id hid
      obtain ⟨m, hm, hmid⟩ := List.mem_map.mp (mem_mentioned.mp hid).2
      rw [(messageById_eq_some hdistinct).mpr ⟨hm, hmid⟩, Option.map_some, hmid]
    rw [List.filterMap_congr hsome, List.filterMap_some]
  have hback : (existing.filter fun m => m.id ∉ mentioned existing order []).map (·.id) =
      (existing.map (·.id)).filter fun id => id ∉ order := by
    rw [List.filter_map]
    congr 1
    refine List.filter_congr fun m hm => ?_
    have hknown : m.id ∈ existing.map (·.id) := List.mem_map_of_mem hm
    simp only [Function.comp, mem_mentioned, hknown, and_true]
  rw [List.map_append, hfront, hback, mentioned_eq, List.nil_append]
  simp

theorem nodup_mentioned (order : List String) {ordered : List String} (h : ordered.Nodup) :
    (mentioned existing order ordered).Nodup := by
  induction order generalizing ordered with
  | nil => exact h
  | cons id order ih =>
    by_cases hid : (messageById existing id).isSome ∧ id ∉ ordered
    · rw [mentioned, if_pos hid]
      refine ih (List.nodup_append.mpr ⟨h, List.nodup_singleton _, fun u hu v hv => ?_⟩)
      rw [List.mem_singleton.mp hv]
      rintro rfl
      exact hid.2 hu
    · rw [mentioned, if_neg hid]
      exact ih h

/-- A reordering keeps the messages. -/
theorem reordered_perm (hdistinct : (existing.map (·.id)).Nodup) (order : List String) :
    ((mentioned existing order []).filterMap (messageById existing) ++
      existing.filter fun m => m.id ∉ mentioned existing order []).Perm existing := by
  have hids : (((mentioned existing order []).filterMap (messageById existing) ++
      existing.filter fun m => m.id ∉ mentioned existing order []).map (·.id)).Nodup := by
    have hfront : mentioned existing order [] = _ := mentioned_eq order []
    simp only [List.nil_append, List.not_mem_nil, not_false_eq_true, and_true] at hfront
    rw [reordered_ids hdistinct]
    refine List.nodup_append.mpr ⟨hfront ▸ nodup_mentioned order List.nodup_nil, hdistinct.filter _,
      fun u hu v hv => ?_⟩
    rintro rfl
    rw [List.mem_eraseDups] at hu
    have hnot : u ∉ order := by simpa using (List.mem_filter.mp hv).2
    exact hnot (List.mem_filter.mp hu).1
  refine (List.perm_ext_iff_of_nodup hids.of_map hdistinct.of_map).mpr fun m => ?_
  simp only [List.mem_append, List.mem_filterMap, List.mem_filter, messageById_eq_some hdistinct,
    decide_eq_true_eq]
  constructor
  · rintro (⟨_, -, hm, -⟩ | ⟨hm, -⟩) <;> exact hm
  · intro hm
    by_cases hmentioned : m.id ∈ mentioned existing order []
    · exact .inl ⟨m.id, hmentioned, hm, rfl⟩
    · exact .inr ⟨hm, hmentioned⟩

end

/-! ### What an action does to the list and the slot -/

/-- Neither the list nor the slot changes. -/
structure SamePending (s s' : ChatState Empty) : Prop where
  pending : pending s' = pending s
  slot : s'.steeringMessage = s.steeringMessage

/-- What an action does to the list and the slot. -/
inductive PendingStep (s : ChatState Empty) : Action → ChatState Empty → Prop
  | same {a : Action} {s' : ChatState Empty} (h : SamePending s s') : PendingStep s a s'
  | set (x : ChatPendingMessageSetAction) {s' : ChatState Empty}
    (hpending : pending s' = upsertWhere (fun m => m.id = x.id) (pendingEntry x) (pending s))
    (hslot : ∀ m, s'.steeringMessage = some m →
      x.kind = .steering ∧ m = pendingEntry x ∨ s.steeringMessage = some m ∧ m.id ≠ x.id) :
    PendingStep s (.pendingMessageSet x) s'
  | removed (x : ChatPendingMessageRemovedAction) {s' : ChatState Empty}
    (hpending : pending s' = (eraseWhere (fun m => m.id = x.id && effectiveKind m = x.kind)
      (pending s)).getD (pending s))
    (hslot : ∀ m, s'.steeringMessage = some m →
      s.steeringMessage = some m ∧ ¬ (x.kind = .steering ∧ m.id = x.id)) :
    PendingStep s (.pendingMessageRemoved x) s'
  | started (x : ChatTurnStartedAction) (id : String) (hid : x.queuedMessageId = some id)
    {s' : ChatState Empty} (hpending : pending s' = (pending s).filter fun m => m.id ≠ id)
    (hslot : ∀ m, s'.steeringMessage = some m → s.steeringMessage = some m ∧ m.id ≠ id) :
    PendingStep s (.turnStarted x) s'
  | reordered (order : List String) {s' : ChatState Empty}
    (hpending : pending s' = (mentioned (pending s) order []).filterMap (messageById (pending s)) ++
      (pending s).filter fun m => m.id ∉ mentioned (pending s) order [])
    (hslot : s'.steeringMessage = s.steeringMessage) :
    PendingStep s (.queuedMessagesReordered order) s'

theorem getD_ite_isEmpty (l : List PendingMessage) :
    (if l.isEmpty then none else some l).getD [] = l := by
  cases l <;> rfl

theorem updateToolCallInParts_pending (turnId id : String) (f : ToolCallState Empty → ToolCallState Empty) :
    SamePending s (updateToolCallInParts s turnId id f) := by
  unfold updateToolCallInParts
  split <;> exact ⟨rfl, rfl⟩

theorem refresh_pending (turnId id : String) (f : ToolCallState Empty → ToolCallState Empty) :
    SamePending s (refreshSummaryStatus (updateToolCallInParts s turnId id f)) :=
  have h := updateToolCallInParts_pending (s := s) turnId id f
  ⟨h.pending, h.slot⟩

theorem updateResponsePart_pending (turnId id : String) (f : ResponsePart Empty → ResponsePart Empty) :
    SamePending s (updateResponsePart s turnId id f) := by
  unfold updateResponsePart
  split
  · exact ⟨rfl, rfl⟩
  · split <;> exact ⟨rfl, rfl⟩

theorem appendPart_pending (turnId : String) (part : ResponsePart Empty) :
    SamePending s (appendPart s turnId part) := by
  unfold appendPart
  split <;> exact ⟨rfl, rfl⟩

theorem endTurn_pending {turnId : String} {turnState : TurnState} {duration : ℤ}
    {terminalStatus : Option SessionStatus} {errorPart : Option ErrorResponsePart}
    (h : endTurn legacyParse s turnId turnState duration terminalStatus errorPart = some s') :
    SamePending s s' := by
  unfold endTurn at h
  split at h
  · cases h
    exact ⟨rfl, rfl⟩
  · obtain ⟨modifiedAt, -, rfl⟩ := Option.map_eq_some_iff.mp h
    exact ⟨rfl, rfl⟩

theorem turnStarted_pending (x : ChatTurnStartedAction) :
    PendingStep s (.turnStarted x) (turnStarted s x) := by
  cases hid : x.queuedMessageId with
  | none =>
    refine .same ⟨?_, ?_⟩
    · simp only [turnStarted, hid, pending]
    · simp only [turnStarted, hid]
  | some id =>
    refine .started x id hid ?_ fun m hm => ?_
    · simp only [turnStarted, hid, pending]
      cases s.queuedMessages with
      | none => rfl
      | some queued => exact getD_ite_isEmpty _
    · simp only [turnStarted, hid] at hm
      split at hm
      · cases hm
      · next hne =>
        rw [hm] at hne
        exact ⟨hm, fun h => hne (congrArg some h)⟩

theorem pendingMessageSet_pending (x : ChatPendingMessageSetAction) :
    PendingStep s (.pendingMessageSet x) (pendingMessageSet s x) := by
  refine .set x rfl fun m hm => ?_
  cases hkind : x.kind with
  | steering =>
    simp only [pendingMessageSet, hkind, Option.some.injEq] at hm
    exact .inl ⟨rfl, by rw [← hm, pendingEntry, hkind]⟩
  | queued =>
    simp only [pendingMessageSet, hkind] at hm
    split at hm
    · cases hm
    · next hne =>
      rw [hm] at hne
      exact .inr ⟨hm, fun h => hne (congrArg some h)⟩

theorem pendingMessageRemoved_pending (x : ChatPendingMessageRemovedAction) :
    PendingStep s (.pendingMessageRemoved x) (pendingMessageRemoved s x) := by
  have hnext : ∀ m, (if x.kind = .steering ∧ s.steeringMessage.map (·.id) = some x.id then
        { s with steeringMessage := none } else s).steeringMessage = some m →
      s.steeringMessage = some m ∧ ¬ (x.kind = .steering ∧ m.id = x.id) := by
    intro m hm
    split at hm
    · cases hm
    · next hne =>
      rw [hm] at hne
      exact ⟨hm, fun h => hne ⟨h.1, congrArg some h.2⟩⟩
  have hlist : (if x.kind = .steering ∧ s.steeringMessage.map (·.id) = some x.id then
        { s with steeringMessage := none } else s).queuedMessages = s.queuedMessages := by
    split <;> rfl
  refine .removed x ?_ fun m hm => ?_
  · cases herase : eraseWhere (fun m => m.id = x.id && effectiveKind m = x.kind) (pending s) with
    | none =>
      have hnone : eraseWhere (fun m => m.id = x.id && m.kind.getD .queued = x.kind)
          (s.queuedMessages.getD []) = none := herase
      simp only [pendingMessageRemoved, hnone, pending, hlist, Option.getD_none]
    | some l =>
      have hsome : eraseWhere (fun m => m.id = x.id && m.kind.getD .queued = x.kind)
          (s.queuedMessages.getD []) = some l := herase
      simp only [pendingMessageRemoved, hsome, pending]
      exact getD_ite_isEmpty l
  · refine hnext m ?_
    simp only [pendingMessageRemoved] at hm
    split at hm <;> exact hm

theorem pending_queuedMessagesReordered (order : List String) :
    pending (queuedMessagesReordered s order) =
      (mentioned (pending s) order []).filterMap (messageById (pending s)) ++
        (pending s).filter fun m => m.id ∉ mentioned (pending s) order [] := by
  cases hqueued : s.queuedMessages with
  | none =>
    have hpending : pending s = [] := by rw [pending, hqueued]; rfl
    rw [hpending, mentioned_eq]
    simpa [queuedMessagesReordered, hqueued] using hpending
  | some existing =>
    have hpending : pending s = existing := by rw [pending, hqueued]; rfl
    rw [hpending]
    simp only [queuedMessagesReordered, hqueued]
    rfl

theorem queuedMessagesReordered_pending (order : List String) :
    PendingStep s (.queuedMessagesReordered order) (queuedMessagesReordered s order) := by
  refine .reordered order (pending_queuedMessagesReordered order) ?_
  unfold queuedMessagesReordered
  split <;> rfl

/-- **Inversion**: what a step of the chat reducer does to the list and the slot. -/
theorem pendingStep (h : chatReducer legacyParse s a = some s') : PendingStep s a s' := by
  cases a with
  | turnComplete x | turnCancelled x | error x => exact .same (endTurn_pending h)
  | turnStarted x => cases h; exact turnStarted_pending x
  | pendingMessageSet x => cases h; exact pendingMessageSet_pending x
  | pendingMessageRemoved x => cases h; exact pendingMessageRemoved_pending x
  | queuedMessagesReordered order => cases h; exact queuedMessagesReordered_pending order
  | toolCallDelta x | toolCallContentChanged x =>
    cases h
    exact .same (updateToolCallInParts_pending _ _ _)
  | toolCallReady x | toolCallConfirmed x | toolCallComplete x | toolCallResultConfirmed x
  | toolCallAuthRequired x | toolCallAuthResolved x => cases h; exact .same (refresh_pending _ _ _)
  | delta x | reasoning x => cases h; exact .same (updateResponsePart_pending _ _ _)
  | toolCallStart x => cases h; exact .same (appendPart_pending _ _)
  | responsePart x =>
    cases h
    unfold responsePart
    split
    · exact .same ⟨rfl, rfl⟩
    · exact .same (appendPart_pending _ _)
  | usage x =>
    cases h
    unfold usage
    split <;> exact .same ⟨rfl, rfl⟩
  | turnResume turnId =>
    cases h
    unfold turnResume
    split
    · split <;> exact .same ⟨rfl, rfl⟩
    · exact .same ⟨rfl, rfl⟩
  | truncated turnId =>
    cases h
    unfold truncated
    split <;> exact .same ⟨rfl, rfl⟩
  | inputRequested request =>
    cases h
    unfold upsertInputRequestPart
    split <;> exact .same ⟨rfl, rfl⟩
  | inputAnswerChanged x =>
    cases h
    unfold inputAnswerChanged
    split
    · exact .same ⟨rfl, rfl⟩
    · split <;> exact .same ⟨rfl, rfl⟩
  | inputCompleted x =>
    cases h
    unfold inputCompleted
    split
    · exact .same ⟨rfl, rfl⟩
    · split <;> exact .same ⟨rfl, rfl⟩
  | backgroundWorkRemoved id =>
    cases h
    unfold backgroundWorkRemoved
    split <;> exact .same ⟨rfl, rfl⟩
  | workingDirectorySet directory =>
    cases h
    unfold workingDirectorySet
    simp only
    split <;> exact .same ⟨rfl, rfl⟩
  | workingDirectoryRemoved directory =>
    cases h
    unfold workingDirectoryRemoved
    split
    · exact .same ⟨rfl, rfl⟩
    · split <;> exact .same ⟨rfl, rfl⟩
  | _ => cases h; exact .same ⟨rfl, rfl⟩

/-! ### Along a run -/

theorem distinct_step (h : (pendingIds s).Nodup) (hstep : PendingStep s a s') : (pendingIds s').Nodup := by
  unfold pendingIds at h ⊢
  cases hstep with
  | same hsame => rwa [hsame.pending]
  | set x hpending _ =>
    rw [hpending]
    exact nodup_map_upsertWhere h (pendingEntry x)
  | removed x hpending _ =>
    rw [hpending]
    cases herase : eraseWhere (fun m => m.id = x.id && effectiveKind m = x.kind) (pending s) with
    | none => exact h
    | some l => exact h.sublist ((sublist_of_eraseWhere herase).map _)
  | started x id hid hpending _ =>
    rw [hpending]
    exact h.sublist (List.filter_sublist.map _)
  | reordered order hpending _ =>
    rw [hpending]
    exact ((reordered_perm h order).map _).nodup_iff.mpr h

/-- A message stays, is set anew, or is taken. -/
theorem pending_step (h : (pendingIds s).Nodup) (hstep : PendingStep s a s') {m : PendingMessage}
    (hm : m ∈ pending s) :
    m ∈ pending s' ∨ Takes a m ∨
      ∃ x, a = .pendingMessageSet x ∧ x.id = m.id ∧ pendingEntry x ∈ pending s' := by
  cases hstep with
  | same hsame => exact .inl (hsame.pending ▸ hm)
  | set x hpending _ =>
    rw [hpending]
    by_cases hid : m.id = x.id
    · exact .inr (.inr ⟨x, rfl, hid.symm, mem_upsertWhere_self _ _ _⟩)
    · exact .inl (mem_upsertWhere_of_mem hm (by simpa using hid))
  | removed x hpending _ =>
    rw [hpending]
    by_cases htaken : m.id = x.id ∧ effectiveKind m = x.kind
    · exact .inr (.inl (.inl (by rw [htaken.1, htaken.2])))
    · exact .inl (mem_eraseWhere_getD_of_mem hm (by simpa using htaken))
  | started x id hid hpending _ =>
    rw [hpending]
    by_cases htaken : m.id = id
    · exact .inr (.inl (.inr ⟨x, rfl, by rw [hid, htaken]⟩))
    · exact .inl (List.mem_filter.mpr ⟨hm, by simpa using htaken⟩)
  | reordered order hpending _ =>
    rw [hpending]
    exact .inl ((reordered_perm h order).mem_iff.mpr hm)

/-- **Pending messages**: a reordering is a permutation, with the known ids in order of first mention
first and the others as they were. Along any run the ids stay distinct, and a message leaves the list
only when it is removed as what it is or a turn is started from it; until then only setting it anew
changes it. -/
theorem pending_conserved (legacyParse : String → Option ℤ) (hdistinct : (pendingIds s).Nodup) :
    (∀ order, ∃ s', chatReducer legacyParse s (.queuedMessagesReordered order) = some s' ∧
      (pending s').Perm (pending s) ∧
      pendingIds s' = (order.filter fun id => id ∈ pendingIds s).eraseDups ++
        (pendingIds s).filter fun id => id ∉ order) ∧
    ∀ actions s', runs (chatReducer legacyParse) s actions = some s' →
      (pendingIds s').Nodup ∧
      ∀ a s'', chatReducer legacyParse s' a = some s'' → ∀ m ∈ pending s',
        m ∈ pending s'' ∨ Takes a m ∨
          ∃ x, a = .pendingMessageSet x ∧ x.id = m.id ∧ pendingEntry x ∈ pending s'' := by
  refine ⟨fun order => ⟨queuedMessagesReordered s order, rfl, ?_⟩, fun actions s' hrun => ?_⟩
  · have hpending := pending_queuedMessagesReordered (s := s) order
    refine ⟨?_, ?_⟩
    · rw [hpending]
      exact reordered_perm hdistinct order
    · rw [pendingIds, hpending]
      exact reordered_ids hdistinct order
  · have hnodup := runs_kept (I := fun s => (pendingIds s).Nodup) (chatReducer legacyParse)
      (fun h hs => distinct_step h (pendingStep hs)) hdistinct hrun
    exact ⟨hnodup, fun a s'' hs m hm => pending_step hnodup (pendingStep hs) hm⟩

/-- A chat in which a queued and a steering message wait. -/
def waiting : ChatState Empty :=
  { (ChatState.new "ahp-chat:/c" "Chat" "2025-03-10T18:00:00.000Z" : ChatState Empty) with
    queuedMessages := some [⟨"1", some .queued, ⟨"a"⟩⟩, ⟨"2", some .steering, ⟨"b"⟩⟩]
    steeringMessage := some ⟨"2", some .steering, ⟨"b"⟩⟩ }

/-- An old order names the second message twice, and one that has gone. -/
theorem pending_conserved_waiting :
    ∃ s', chatReducer (fun _ => none) waiting (.queuedMessagesReordered ["2", "3", "2"]) = some s' ∧
      pendingIds s' = ["2", "1"] := by
  have hdistinct : (pendingIds waiting).Nodup := by decide
  obtain ⟨s', hs, -, hids⟩ :=
    (pending_conserved (fun _ => none) hdistinct).1 ["2", "3", "2"]
  exact ⟨s', hs, hids.trans (by decide)⟩

/-! ### The steering slot -/

theorem viewed_step (hdistinct : (pendingIds s).Nodup) (h : Viewed s) (hstep : PendingStep s a s') :
    Viewed s' := by
  intro m hm
  cases hstep with
  | same hsame =>
    rw [hsame.pending]
    exact h m (hsame.slot ▸ hm)
  | set x hpending hslot =>
    rw [hpending]
    rcases hslot m hm with ⟨hkind, rfl⟩ | ⟨hold, hid⟩
    · exact ⟨mem_upsertWhere_self _ _ _, congrArg some hkind⟩
    · obtain ⟨hmem, hkind⟩ := h m hold
      exact ⟨mem_upsertWhere_of_mem hmem (by simpa using hid), hkind⟩
  | removed x hpending hslot =>
    obtain ⟨hold, hnot⟩ := hslot m hm
    obtain ⟨hmem, hkind⟩ := h m hold
    have hsteering : effectiveKind m = .steering := by rw [effectiveKind, hkind]; rfl
    rw [hpending]
    refine ⟨mem_eraseWhere_getD_of_mem hmem ?_, hkind⟩
    simp only [Bool.and_eq_true, decide_eq_true_eq, not_and]
    rintro hid hx
    exact hnot ⟨hx ▸ hsteering, hid⟩
  | started x id hid hpending hslot =>
    obtain ⟨hold, hne⟩ := hslot m hm
    obtain ⟨hmem, hkind⟩ := h m hold
    rw [hpending]
    exact ⟨List.mem_filter.mpr ⟨hmem, by simpa using hne⟩, hkind⟩
  | reordered order hpending hslot =>
    obtain ⟨hmem, hkind⟩ := h m (hslot ▸ hm)
    rw [hpending]
    exact ⟨(reordered_perm hdistinct order).mem_iff.mpr hmem, hkind⟩

/-- **The steering slot**: along any run it is empty or repeats a steering message of the list. -/
theorem steering_viewed (legacyParse : String → Option ℤ) (hdistinct : (pendingIds s).Nodup)
    (h : Viewed s) (actions : List Action) (hrun : runs (chatReducer legacyParse) s actions = some s') : Viewed s' :=
  (runs_kept (I := fun s => (pendingIds s).Nodup ∧ Viewed s) (chatReducer legacyParse)
    (fun h hs => ⟨distinct_step h.1 (pendingStep hs), viewed_step h.1 h.2 (pendingStep hs)⟩)
    ⟨hdistinct, h⟩ hrun).2

/-- The steering message becomes a queued one. -/
theorem steering_viewed_waiting :
    Viewed (pendingMessageSet waiting ⟨.queued, "2", ⟨"b"⟩⟩) := by
  have hdistinct : (pendingIds waiting).Nodup := by decide
  have hviewed : Viewed waiting := by
    intro m hm
    cases hm
    decide
  exact steering_viewed (fun _ => none) hdistinct hviewed
    [.pendingMessageSet ⟨.queued, "2", ⟨"b"⟩⟩] rfl

end AgentHostProtocol.Chat
