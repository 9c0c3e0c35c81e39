import AgentHostProtocol.Library.BitField
import AgentHostProtocol.Session.Frames

/-!
# The input queue and the status of a session

The queue of a session's open requests is keyed by id, and one bit of the status, the bit
of `InputNeeded` that `InProgress` lacks, says whether a request of the queue blocks on the
user. Both facts are kept by every action.

That the whole activity is `InputNeeded` is kept too, but it is not re-established by an
action that leaves the queue alone: a session may start with the bit beside other activity
bits, and a change of the title leaves them.
-/

namespace AgentHostProtocol.Session

open Library SessionStatus

/-- `state.inputNeeded ?? []`. -/
def queue (state : SessionState Empty) : List (SessionInputRequest Empty) :=
  state.inputNeeded.getD []

/-- Whether a request of the queue blocks on the user. -/
def Blocked (state : SessionState Empty) : Prop := ∃ r ∈ queue state, awaitsUser r = true

/-- The bit of `InputNeeded` that is not a bit of `InProgress`. -/
def waitingBit : SessionStatus := inputNeeded &&& ~~~inProgress

/-- The ids of the queue are distinct. -/
def DistinctRequests (state : SessionState Empty) : Prop :=
  ((queue state).map requestId).Nodup

/-- The bit says whether the session is blocked. -/
def BitTracksQueue (state : SessionState Empty) : Prop :=
  state.status &&& waitingBit ≠ 0 ↔ Blocked state

/-- A blocked session has the activity `InputNeeded`. -/
def BlockedIsInputNeeded (state : SessionState Empty) : Prop :=
  Blocked state → state.status.activity = inputNeeded

/-- The `IsRead` and `IsArchived` bits. -/
def readFlags (status : SessionStatus) : SessionStatus := status &&& (isRead ||| isArchived)

/-- Whether an action sets or removes an entry of the queue. -/
def editsQueue (state : SessionState Empty) : SessionAction Empty → Bool
  | .inputNeededSet _ => true
  | .inputNeededRemoved id => (queue state).any fun r => requestId r = id
  | _ => false

/-- Whether some action of a run sets or removes an entry. -/
def EditsQueue (state : SessionState Empty) (actions : List (SessionAction Empty)) : Prop :=
  ∃ before a after, actions = before ++ a :: after ∧
    editsQueue (before.foldl sessionReducer state) a = true

/-! ### The bits -/

theorem withInputNeededStatus_of_any {list : List (SessionInputRequest Empty)}
    (h : ∃ r ∈ list, awaitsUser r = true) (status : SessionStatus) :
    withInputNeededStatus status list = setField status activityMask inputNeeded := by
  have hany : list.any awaitsUser = true := List.any_eq_true.mpr h
  simp only [withInputNeededStatus, hany, if_true, setField]

theorem withInputNeededStatus_of_not_any {list : List (SessionInputRequest Empty)}
    (h : ¬ ∃ r ∈ list, awaitsUser r = true) (status : SessionStatus) :
    withInputNeededStatus status list = status &&& ~~~waitingBit := by
  have hany : list.any awaitsUser = false := by
    rw [← Bool.not_eq_true, List.any_eq_true]
    exact h
  simp only [withInputNeededStatus, hany, waitingBit]
  rfl

/-- The recomputed status has the bit exactly when a request of the list blocks. -/
theorem withInputNeededStatus_waitingBit (status : SessionStatus)
    (list : List (SessionInputRequest Empty)) :
    withInputNeededStatus status list &&& waitingBit ≠ 0 ↔ ∃ r ∈ list, awaitsUser r = true := by
  by_cases h : ∃ r ∈ list, awaitsUser r = true
  · rw [withInputNeededStatus_of_any h, setField_and_of_subset _ _ (by decide)]
    exact ⟨fun _ => h, fun _ => by decide⟩
  · rw [withInputNeededStatus_of_not_any h, and_not_and_self]
    exact ⟨fun hne => absurd rfl hne, fun hex => absurd hex h⟩

/-- The recomputed status has the activity `InputNeeded` if a request of the list blocks. -/
theorem activity_withInputNeededStatus {list : List (SessionInputRequest Empty)}
    (h : ∃ r ∈ list, awaitsUser r = true) (status : SessionStatus) :
    (withInputNeededStatus status list).activity = inputNeeded := by
  rw [withInputNeededStatus_of_any h, activity, setField_and]
  rfl

/-- The read and archived bits lie outside both masks. -/
theorem readFlags_withInputNeededStatus (status : SessionStatus)
    (list : List (SessionInputRequest Empty)) :
    readFlags (withInputNeededStatus status list) = readFlags status := by
  by_cases h : ∃ r ∈ list, awaitsUser r = true
  · rw [withInputNeededStatus_of_any h]
    exact setField_and_of_disjoint _ (by decide) (by decide)
  · rw [withInputNeededStatus_of_not_any h]
    exact and_not_and_of_disjoint _ (by decide)

/-- A flag outside the activity leaves the bit and the activity. -/
theorem withStatusFlag_and (status : SessionStatus) {flag mask : SessionStatus}
    (h : flag &&& mask = 0) (value : Bool) :
    withStatusFlag status flag value &&& mask = status &&& mask := by
  cases value
  · exact and_not_and_of_disjoint status h
  · exact or_and_of_disjoint status h

/-! ### What an action does to the queue and the status -/

section Steps

variable {state : SessionState Empty}

/-- Neither the queue nor the status changes. -/
def SameQueue (state state' : SessionState Empty) : Prop :=
  state'.inputNeeded = state.inputNeeded ∧ state'.status = state.status

theorem sameQueue_chatUpdated (chat : URI) (changes : PartialChatSummary) :
    SameQueue state (chatUpdated state chat changes) := by
  unfold chatUpdated
  split
  · exact ⟨rfl, rfl⟩
  · split <;> exact ⟨rfl, rfl⟩

theorem sameQueue_chatsReordered (chats : List URI) :
    SameQueue state (chatsReordered state chats) := by
  unfold chatsReordered
  split
  · exact ⟨rfl, rfl⟩
  · split
    · exact ⟨rfl, rfl⟩
    · split <;> exact ⟨rfl, rfl⟩

/-- An action that does not edit the queue and is not one of the two flag actions. -/
def LeavesQueue (state : SessionState Empty) (a : SessionAction Empty) : Prop :=
  editsQueue state a = false ∧ ∀ value, a ≠ .isReadChanged value ∧ a ≠ .isArchivedChanged value

/-- Only an edit of the queue and the two flag actions change the queue or the status. -/
theorem sameQueue_of_leavesQueue {a : SessionAction Empty} (h : LeavesQueue state a) :
    SameQueue state (sessionReducer state a) := by
  obtain ⟨hedit, hflags⟩ := h
  cases a with
  | isReadChanged value => exact absurd rfl (hflags value).1
  | isArchivedChanged value => exact absurd rfl (hflags value).2
  | inputNeededSet request => simp [editsQueue] at hedit
  | inputNeededRemoved id =>
    simp only [sessionReducer, inputNeededRemoved]
    cases hqueue : state.inputNeeded with
    | none => exact ⟨rfl, rfl⟩
    | some list =>
      simp only [editsQueue, queue, hqueue, Option.getD_some] at hedit
      simp only [eraseWhere_eq_none.mpr hedit]
      exact ⟨rfl, rfl⟩
  | chatUpdated chat changes => exact sameQueue_chatUpdated chat changes
  | chatsReordered chats => exact sameQueue_chatsReordered chats
  | chatRemoved chat =>
    simp only [sessionReducer, chatRemoved]
    split <;> exact ⟨rfl, rfl⟩
  | chatAdded | defaultChatChanged => exact ⟨rfl, rfl⟩
  | _ =>
    exact ⟨(sessionReducer_elsewhere rfl rfl).inputNeeded, (sessionReducer_elsewhere rfl rfl).status⟩

/-- An edit recomputes the status from the queue that it leaves, and keeps the ids distinct. -/
theorem edited_of_editsQueue {a : SessionAction Empty} (h : editsQueue state a = true) :
    (sessionReducer state a).status =
        withInputNeededStatus state.status (queue (sessionReducer state a)) ∧
      (DistinctRequests state → DistinctRequests (sessionReducer state a)) := by
  cases a with
  | inputNeededSet request => exact ⟨rfl, fun hd => nodup_map_upsertWhere hd request⟩
  | inputNeededRemoved id =>
    simp only [sessionReducer, inputNeededRemoved]
    cases hqueue : state.inputNeeded with
    | none => simp [editsQueue, queue, hqueue] at h
    | some list =>
      simp only [editsQueue, queue, hqueue, Option.getD_some] at h
      cases hremaining : eraseWhere (fun r => requestId r = id) list with
      | none => rw [eraseWhere_eq_none.mp hremaining] at h; cases h
      | some remaining =>
        -- An empty queue is stored as an absent one, which reads the same.
        have hq : (if 0 < remaining.length then some remaining else none).getD [] = remaining := by
          cases remaining <;> rfl
        simp only [DistinctRequests, queue, hqueue, hremaining, hq, Option.getD_some]
        refine ⟨trivial, fun hd => hd.sublist ?_⟩
        exact (sublist_of_eraseWhere hremaining).map requestId
  | _ => simp [editsQueue] at h

/-- An action leaves the queue and the status, sets one of the two flags, or edits the
queue. -/
theorem action_cases (state : SessionState Empty) (a : SessionAction Empty) :
    LeavesQueue state a ∨ (∃ value, a = .isReadChanged value ∨ a = .isArchivedChanged value) ∨
      editsQueue state a = true := by
  by_cases hedit : editsQueue state a = true
  · exact .inr (.inr hedit)
  · by_cases hflag : ∃ value, a = .isReadChanged value ∨ a = .isArchivedChanged value
    · exact .inr (.inl hflag)
    · refine .inl ⟨by simpa using hedit, fun value => ⟨fun h => ?_, fun h => ?_⟩⟩
      · exact hflag ⟨value, .inl h⟩
      · exact hflag ⟨value, .inr h⟩

/-- A flag action writes one flag, which lies outside the activity. -/
theorem flag_effect {a : SessionAction Empty} {value : Bool}
    (h : a = .isReadChanged value ∨ a = .isArchivedChanged value) :
    (sessionReducer state a).inputNeeded = state.inputNeeded ∧
      ∀ mask, mask &&& activityMask = mask →
        (sessionReducer state a).status &&& mask = state.status &&& mask := by
  rcases h with rfl | rfl
  · refine ⟨rfl, fun mask hmask => withStatusFlag_and state.status ?_ value⟩
    rw [← hmask, BitVec.and_comm mask, ← BitVec.and_assoc]
    simp [isRead, activityMask]
  · refine ⟨rfl, fun mask hmask => withStatusFlag_and state.status ?_ value⟩
    rw [← hmask, BitVec.and_comm mask, ← BitVec.and_assoc]
    simp [isArchived, activityMask]

/-! ### What an action keeps -/

/-- Outside the edits of the queue, the queue and every part of the activity stay. -/
theorem unedited {a : SessionAction Empty} (h : editsQueue state a = false) :
    queue (sessionReducer state a) = queue state ∧
      ∀ mask, mask &&& activityMask = mask →
        (sessionReducer state a).status &&& mask = state.status &&& mask := by
  rcases action_cases state a with hleaves | ⟨value, hflag⟩ | hedit
  · obtain ⟨hqueue, hstatus⟩ := sameQueue_of_leavesQueue hleaves
    exact ⟨by rw [queue, queue, hqueue], fun mask _ => by rw [hstatus]⟩
  · obtain ⟨hqueue, hstatus⟩ := @flag_effect state _ _ hflag
    exact ⟨by rw [queue, queue, hqueue], hstatus⟩
  · rw [h] at hedit
    cases hedit

/-- An action keeps the ids distinct. -/
theorem distinctRequests_step (h : DistinctRequests state) (a : SessionAction Empty) :
    DistinctRequests (sessionReducer state a) := by
  by_cases hedit : editsQueue state a = true
  · exact (edited_of_editsQueue hedit).2 h
  · rw [DistinctRequests, (unedited (by simpa using hedit)).1]
    exact h

/-- After an edit of the queue the bit tracks it, whatever the status was. -/
theorem bitTracksQueue_of_edit {a : SessionAction Empty} (h : editsQueue state a = true) :
    BitTracksQueue (sessionReducer state a) := by
  rw [BitTracksQueue, (edited_of_editsQueue h).1]
  exact withInputNeededStatus_waitingBit _ _

/-- An action keeps the bit equal to what the queue says. -/
theorem bitTracksQueue_step (h : BitTracksQueue state) (a : SessionAction Empty) :
    BitTracksQueue (sessionReducer state a) := by
  by_cases hedit : editsQueue state a = true
  · exact bitTracksQueue_of_edit hedit
  · obtain ⟨hqueue, hstatus⟩ := @unedited state a (by simpa using hedit)
    rw [BitTracksQueue, Blocked, hqueue, hstatus waitingBit (by decide)]
    exact h

/-- After an edit of the queue a blocked session has the activity `InputNeeded`. -/
theorem blockedIsInputNeeded_of_edit {a : SessionAction Empty} (h : editsQueue state a = true) :
    BlockedIsInputNeeded (sessionReducer state a) := by
  intro hblocked
  rw [(edited_of_editsQueue h).1]
  exact activity_withInputNeededStatus hblocked _

/-- An action keeps the activity of a blocked session. -/
theorem blockedIsInputNeeded_step (h : BlockedIsInputNeeded state) (a : SessionAction Empty) :
    BlockedIsInputNeeded (sessionReducer state a) := by
  by_cases hedit : editsQueue state a = true
  · exact blockedIsInputNeeded_of_edit hedit
  · obtain ⟨hqueue, hstatus⟩ := @unedited state a (by simpa using hedit)
    rw [BlockedIsInputNeeded, Blocked, hqueue, activity, hstatus activityMask (by decide)]
    exact h

/-- Only the two flag actions change the read and archived bits. -/
theorem readFlags_step {a : SessionAction Empty}
    (h : ∀ value, a ≠ .isReadChanged value ∧ a ≠ .isArchivedChanged value) :
    readFlags (sessionReducer state a).status = readFlags state.status := by
  by_cases hedit : editsQueue state a = true
  · rw [(edited_of_editsQueue hedit).1]
    exact readFlags_withInputNeededStatus _ _
  · rw [(sameQueue_of_leavesQueue ⟨by simpa using hedit, h⟩).2]

end Steps

/-! ### Runs -/

/-- What a run keeps if each action keeps it. -/
theorem foldl_kept {I : SessionState Empty → Prop}
    (hstep : ∀ {state}, I state → ∀ a, I (sessionReducer state a)) {state : SessionState Empty}
    (h : I state) (actions : List (SessionAction Empty)) :
    I (actions.foldl sessionReducer state) := by
  induction actions generalizing state with
  | nil => exact h
  | cons a actions ih => exact ih (hstep h a)

/-- A run in which the queue was edited ends with `InputNeeded` on every blocked session. -/
theorem blockedIsInputNeeded_of_edits {state : SessionState Empty}
    {actions : List (SessionAction Empty)} (h : EditsQueue state actions) :
    BlockedIsInputNeeded (actions.foldl sessionReducer state) := by
  obtain ⟨before, a, after, rfl, hedit⟩ := h
  rw [List.foldl_append, List.foldl_cons]
  exact foldl_kept blockedIsInputNeeded_step (blockedIsInputNeeded_of_edit hedit) after

/-- In every state of a run the ids of the queue are distinct and the bit says whether a
request blocks on the user; the activity of a blocked session is `InputNeeded` if it was so
at the start or the queue was edited since; and no other action touches the two flags. -/
theorem status_tracks_queue {state : SessionState Empty} (hids : DistinctRequests state)
    (hbit : BitTracksQueue state) (actions : List (SessionAction Empty)) :
    DistinctRequests (actions.foldl sessionReducer state) ∧
      BitTracksQueue (actions.foldl sessionReducer state) ∧
      (BlockedIsInputNeeded state ∨ EditsQueue state actions →
        BlockedIsInputNeeded (actions.foldl sessionReducer state)) ∧
      ∀ a, (∀ value, a ≠ .isReadChanged value ∧ a ≠ .isArchivedChanged value) →
        readFlags (sessionReducer (actions.foldl sessionReducer state) a).status =
          readFlags (actions.foldl sessionReducer state).status := by
  refine ⟨foldl_kept distinctRequests_step hids actions, foldl_kept bitTracksQueue_step hbit actions,
    ?_, fun a ha => readFlags_step ha⟩
  rintro (hstart | hedit)
  · exact foldl_kept blockedIsInputNeeded_step hstart actions
  · exact blockedIsInputNeeded_of_edits hedit

/-- A tool call that waits for its confirmation. -/
def confirmation : SessionInputRequest Empty :=
  .toolConfirmation ⟨"r1", "ahp-chat:/c"⟩ "t1"
    ⟨"\x7b\"toolCallId\":\"k1\",\"toolName\":\"shell\",\"displayName\":\"Shell\",\"status\":\"pending-confirmation\"\x7d"⟩

/-- A confirmation is asked for, then the title and the read flag change. -/
theorem status_tracks_queue_confirmation :
    let actions : List (SessionAction Empty) :=
      [.inputNeededSet confirmation, .titleChanged "Tests", .isReadChanged true]
    DistinctRequests (SessionState.new "agent" "Session") ∧
      BitTracksQueue (SessionState.new "agent" "Session") ∧
      (actions.foldl sessionReducer (SessionState.new "agent" "Session")).status.activity =
        inputNeeded := by
  intro actions
  have hids : DistinctRequests (SessionState.new "agent" "Session") := List.nodup_nil
  have hbit : BitTracksQueue (SessionState.new "agent" "Session") := by
    refine ⟨fun h => absurd (by decide) h, ?_⟩
    rintro ⟨r, hr, -⟩
    cases hr
  refine ⟨hids, hbit, (status_tracks_queue hids hbit actions).2.2.1 (.inr ⟨[], _, _, rfl, rfl⟩) ?_⟩
  exact ⟨confirmation, List.mem_singleton.mpr rfl, rfl⟩

/-- A session that waits for a confirmation with the bit set beside `Idle`. -/
def idleAndBlocked : SessionState Empty :=
  { SessionState.new "agent" "Session" with
    status := idle ||| waitingBit
    inputNeeded := some [confirmation] }

/-- The bit tracks the queue, and the activity of the blocked session stays what it was
while nobody edits the queue. -/
theorem blocked_without_inputNeeded :
    DistinctRequests idleAndBlocked ∧ BitTracksQueue idleAndBlocked ∧
      Blocked ([SessionAction.titleChanged "Tests"].foldl sessionReducer idleAndBlocked) ∧
      ([SessionAction.titleChanged "Tests"].foldl sessionReducer idleAndBlocked).status.activity ≠
        inputNeeded := by
  have hblocked : ∃ r ∈ queue idleAndBlocked, awaitsUser r = true :=
    ⟨confirmation, List.mem_singleton.mpr rfl, rfl⟩
  exact ⟨List.nodup_singleton _, ⟨fun _ => hblocked, fun _ => by decide⟩, hblocked, by decide⟩

/-! ### Raising and resolving a request -/

/-- The status after a request was raised and resolved in a queue that does not block. -/
theorem status_raised_resolved {list : List (SessionInputRequest Empty)}
    (hfree : ¬ ∃ r ∈ list, awaitsUser r = true) (request : SessionInputRequest Empty)
    (status : SessionStatus) :
    withInputNeededStatus (withInputNeededStatus status (list ++ [request])) list =
      if awaitsUser request then setField status activityMask inProgress
      else status &&& ~~~waitingBit := by
  rw [withInputNeededStatus_of_not_any hfree]
  by_cases hr : awaitsUser request = true
  · have hany : ∃ r ∈ list ++ [request], awaitsUser r = true :=
      ⟨request, List.mem_append_right _ (List.mem_singleton.mpr rfl), hr⟩
    rw [withInputNeededStatus_of_any hany, if_pos hr, setField_and_not _ _ (by decide)]
    rfl
  · have hany : ¬ ∃ r ∈ list ++ [request], awaitsUser r = true := by
      rintro ⟨r, hmem, hblocks⟩
      rcases List.mem_append.mp hmem with hmem | hmem
      · exact hfree ⟨r, hmem, hblocks⟩
      · rw [List.mem_singleton.mp hmem] at hblocks
        exact hr hblocks
    rw [withInputNeededStatus_of_not_any hany, if_neg hr, BitVec.and_assoc, BitVec.and_self]

end AgentHostProtocol.Session
