import AgentHostProtocol.Chat.Reducer

/-!
# The activity bits of a chat

What the activity bits of a chat's status should say, `liveActivity`, and that a
recomputed status says it. The other bits, `IsRead` and `IsArchived`, lie outside the
mask, so changing them leaves the activity alone.
-/

namespace AgentHostProtocol

open Library

namespace SessionStatus

@[simp] theorem activity_setField (status a : SessionStatus) :
    activity (setField status activityMask a) = activity a :=
  setField_and status activityMask a

@[simp] theorem activity_withStatusFlag_isRead (status : SessionStatus) (set : Bool) :
    (withStatusFlag status isRead set).activity = status.activity := by
  cases set
  · exact and_not_and_of_disjoint status (by decide)
  · exact or_and_of_disjoint status (by decide)

@[simp] theorem activity_withStatusFlag_isArchived (status : SessionStatus) (set : Bool) :
    (withStatusFlag status isArchived set).activity = status.activity := by
  cases set
  · exact and_not_and_of_disjoint status (by decide)
  · exact or_and_of_disjoint status (by decide)

end SessionStatus

namespace Chat

open SessionStatus

/-- Whether a part blocks its turn on something external: an input request without a
response, or a tool call waiting for a confirmation or for authentication. -/
def blocks : ResponsePart Empty → Bool
  | .inputRequest part => part.response.isNone
  | .toolCall tc =>
    tc.status = .pendingConfirmation || tc.status = .pendingResultConfirmation ||
      tc.status = .authRequired
  | _ => false

/-- The activity that the active turn calls for. -/
def liveActivity : Option (ActiveTurn Empty) → SessionStatus
  | none => idle
  | some turn => if turn.responseParts.any blocks then inputNeeded else inProgress

@[simp] theorem liveActivity_none : liveActivity none = idle := rfl

theorem activity_liveActivity (turn : Option (ActiveTurn Empty)) :
    (liveActivity turn).activity = liveActivity turn := by
  cases turn with
  | none => decide
  | some turn =>
    simp only [liveActivity]
    split <;> decide

/-- The two searches of `summaryStatus` look for a part that blocks. -/
theorem waiting_eq (state : ChatState Empty) :
    (hasOpenInputRequest state || hasBlockingToolCall state) =
      state.activeTurn.any fun turn => turn.responseParts.any blocks := by
  unfold hasOpenInputRequest hasBlockingToolCall
  cases state.activeTurn with
  | none => rfl
  | some turn =>
    simp only [Option.any_some]
    induction turn.responseParts with
    | nil => rfl
    | cons part parts ih =>
      simp only [List.any_cons, ← ih]
      cases part <;> simp [blocks, Bool.or_assoc, Bool.or_left_comm]

theorem summaryStatus_none (state : ChatState Empty) :
    summaryStatus state none = setField state.status activityMask (liveActivity state.activeTurn) := by
  unfold summaryStatus liveActivity
  rw [waiting_eq]
  cases state.activeTurn with
  | none => rfl
  | some turn => rfl

@[simp] theorem activity_summaryStatus_none (state : ChatState Empty) :
    (summaryStatus state none).activity = liveActivity state.activeTurn := by
  rw [summaryStatus_none, activity_setField, activity_liveActivity]

@[simp] theorem activity_summaryStatus_error (state : ChatState Empty) :
    (summaryStatus state (some SessionStatus.error)).activity = SessionStatus.error := by
  show activity (setField state.status activityMask SessionStatus.error) = _
  rw [activity_setField]
  decide

/-- Recomputing a status changes nothing exactly when its activity is right already. -/
theorem summaryStatus_none_eq_self_iff {state : ChatState Empty} :
    summaryStatus state none = state.status ↔
      state.status.activity = liveActivity state.activeTurn := by
  rw [summaryStatus_none]
  exact setField_eq_self_iff (activity_liveActivity _)

/-! ### Recomputation -/

@[simp] theorem refreshSummaryStatus_turns (state : ChatState Empty) :
    (refreshSummaryStatus state).turns = state.turns := rfl

@[simp] theorem refreshSummaryStatus_activeTurn (state : ChatState Empty) :
    (refreshSummaryStatus state).activeTurn = state.activeTurn := rfl

@[simp] theorem activity_refreshSummaryStatus (state : ChatState Empty) :
    (refreshSummaryStatus state).status.activity = liveActivity state.activeTurn :=
  activity_summaryStatus_none state

theorem refreshSummaryStatus_eq_self_iff {state : ChatState Empty} :
    refreshSummaryStatus state = state ↔
      state.status.activity = liveActivity state.activeTurn := by
  rw [← summaryStatus_none_eq_self_iff]
  constructor
  · intro h
    exact congrArg ChatState.status h
  · intro h
    unfold refreshSummaryStatus
    rw [h]

/-! ### Agreement -/

/-- The activity bits of a chat agree with its contents. Without an active turn they may
tell of an error too. -/
def StatusAgrees (state : ChatState Empty) : Prop :=
  match state.activeTurn with
  | some turn => state.status.activity = liveActivity (some turn)
  | none => state.status.activity = idle ∨ state.status.activity = SessionStatus.error

theorem statusAgrees_new (resource : URI) (title modifiedAt : String) :
    StatusAgrees (ChatState.new resource title modifiedAt) :=
  Or.inl (by decide : activity idle = idle)

/-- A status whose activity is derived from the contents agrees with them. -/
theorem statusAgrees_of_derived {state : ChatState Empty}
    (h : state.status.activity = liveActivity state.activeTurn) : StatusAgrees state := by
  unfold StatusAgrees
  split
  · next turn ht => rw [h, ht]
  · next ht => exact .inl (by rw [h, ht]; rfl)

end Chat

end AgentHostProtocol
