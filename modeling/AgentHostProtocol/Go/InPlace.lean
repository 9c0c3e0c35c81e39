import AgentHostProtocol.Go.Chat
import AgentHostProtocol.Library.InPlace
import Mathlib.Data.Int.Basic

/-!
# The writes of the Go chat reducer

The end of a turn with its writes one by one, in the order of the source: a panic leaves the state
as it is then. The duration is multiplied in 64 bits and the overflow found by dividing back.

**What is proved**: what a caller sees of it is `endTurn` (`completed?_endTurn`); dividing back finds
every overflow (`tdiv_delta_iff`); and a panic leaves the turn ended, with the date and the status
of before (`endTurn_of_panic`).
-/

namespace AgentHostProtocol.Go.InPlace

open Library SessionStatus

variable {U : Type}

/-! ### Timestamps -/

/-- The nanoseconds of `time.Millisecond`. -/
def millisecond : ℤ := 1000000

/-- `time.Duration(duration) * time.Millisecond`, in 64 bits. -/
def delta (duration : ℤ) : ℤ := (duration * millisecond).bmod (2 ^ 64)

/-- `addMillisecondsToTimestamp`; an error is the value of a panic. -/
def addMillisecondsToTimestamp (otherParse : String → Option ℤ) (timestamp : String)
    (duration : ℤ) : Except String String :=
  match (Rfc3339.millis? timestamp).or (otherParse timestamp) with
  | none => .error ("invalid ISO 8601 timestamp: " ++ timestamp)
  | some start =>
    if (delta duration).tdiv millisecond ≠ duration then
      .error "timestamp duration overflows time.Duration"
    else .ok (formatTime (start + (delta duration).tdiv millisecond))

/-- The date of the end of a turn cannot be computed. -/
def Fails (otherParse : String → Option ℤ) (timestamp : String) (duration : ℤ) : Prop :=
  (Rfc3339.millis? timestamp).or (otherParse timestamp) = none ∨ maxDuration < max 0 duration

theorem delta_bounds (duration : ℤ) : -2 ^ 63 ≤ delta duration ∧ delta duration < 2 ^ 63 := by
  have hlow := Int.le_bmod (x := duration * millisecond) (m := 2 ^ 64) (by decide)
  have hhigh := Int.bmod_lt (x := duration * millisecond) (m := 2 ^ 64) (by decide)
  unfold delta
  omega

/-- Dividing back finds an overflow, and nothing else. -/
theorem tdiv_delta_iff (duration : ℤ) : (delta duration).tdiv millisecond = duration ↔
    -maxDuration ≤ duration ∧ duration ≤ maxDuration := by
  unfold maxDuration
  constructor
  · intro h
    obtain ⟨hlow, hhigh⟩ := delta_bounds duration
    have hquot : duration.natAbs = (delta duration).natAbs / 1000000 := by
      rw [← h, Int.natAbs_tdiv, h]
      rfl
    omega
  · rintro ⟨hge, hle⟩
    have hself : delta duration = duration * millisecond := by
      unfold delta millisecond
      exact Int.bmod_eq_of_le (by omega) (by omega)
    rw [hself]
    exact Int.mul_tdiv_cancel duration (by decide)

theorem addMillisecondsToTimestamp_of_fails {otherParse : String → Option ℤ} {timestamp : String}
    {duration : ℤ} (h : Fails otherParse timestamp duration) :
    ∃ e, addMillisecondsToTimestamp otherParse timestamp (max 0 duration) = .error e := by
  unfold addMillisecondsToTimestamp
  cases hstart : (Rfc3339.millis? timestamp).or (otherParse timestamp) with
  | none => exact ⟨_, rfl⟩
  | some start =>
    rcases h with h | h
    · rw [hstart] at h
      cases h
    · refine ⟨_, if_pos fun heq => ?_⟩
      have := ((tdiv_delta_iff _).mp heq).2
      omega

theorem addMillisecondsToTimestamp_of_not_fails {otherParse : String → Option ℤ} {timestamp : String}
    {duration : ℤ} (h : ¬ Fails otherParse timestamp duration) :
    ∃ modifiedAt, addMillisecondsToTimestamp otherParse timestamp (max 0 duration) = .ok modifiedAt := by
  rw [Fails, not_or] at h
  unfold addMillisecondsToTimestamp
  cases hstart : (Rfc3339.millis? timestamp).or (otherParse timestamp) with
  | none => exact absurd hstart h.1
  | some start =>
    have hback := (tdiv_delta_iff (max 0 duration)).mpr ⟨by unfold maxDuration; omega, by omega⟩
    exact ⟨_, if_neg fun hne => hne hback⟩

/-- The date with its reasons to fail is the date. -/
theorem toOption_addMillisecondsToTimestamp (otherParse : String → Option ℤ) (timestamp : String)
    (duration : ℤ) : (addMillisecondsToTimestamp otherParse timestamp duration).toOption =
      Go.addMillisecondsToTimestamp otherParse timestamp duration := by
  unfold addMillisecondsToTimestamp Go.addMillisecondsToTimestamp
  cases (Rfc3339.millis? timestamp).or (otherParse timestamp) with
  | none => rfl
  | some start =>
    have hiff := tdiv_delta_iff duration
    by_cases h : (delta duration).tdiv millisecond = duration
    · simp only [Option.bind_some, h, ne_eq, not_true_eq_false, if_false, if_pos (hiff.mp h)]
      rfl
    · simp only [Option.bind_some, ne_eq, h, not_false_eq_true, if_true, if_neg (mt hiff.mpr h)]
      rfl

/-! ### The end of a turn -/

/-- The turn that `endTurn` appends. -/
def endedTurn (active : ActiveTurn U) (duration : ℤ) (turnState : TurnState)
    (errorPart : Option ErrorResponsePart) : Turn U :=
  let parts := active.responseParts.map finalPart
  let parts :=
    match errorPart with
    | some errorPart => parts ++ [.error errorPart]
    | none => parts
  { id := active.id
    startedAt := some active.startedAt
    duration := some duration
    message := active.message
    responseParts := parts
    usage := active.usage
    state := turnState }

/-- `endTurn`, write by write. -/
def endTurn (otherParse : String → Option ℤ) (turnID : String) (duration : ℤ) (turnState : TurnState)
    (terminalStatus : Option SessionStatus) (errorPart : Option ErrorResponsePart) :
    EStateM String (ChatState U) ReduceOutcome := do
  match (← get).activeTurn with
  | none => return .noOp
  | some active =>
    if active.id ≠ turnID then return .noOp
    else
      modify fun state => { state with activeTurn := none }
      let duration := if duration < 0 then 0 else duration
      let turn := endedTurn active duration turnState errorPart
      modify fun state => { state with turns := state.turns ++ [turn] }
      let modifiedAt ← MonadExcept.ofExcept
        (addMillisecondsToTimestamp otherParse active.startedAt duration)
      modify fun state => { state with modifiedAt }
      modify fun state => { state with status := summaryStatus state terminalStatus }
      return .applied

/-- `ApplyActionToChat`, with the writes at the end of a turn; no other action panics. -/
def applyActionToChat [RawId U] (otherParse : String → Option ℤ) :
    ChatAction U (ChatToolCallConfirmedAction U) → EStateM String (ChatState U) ReduceOutcome
  | .turnComplete a => endTurn otherParse a.turnId a.duration .complete none none
  | .turnCancelled a => endTurn otherParse a.turnId a.duration .cancelled none none
  | .error a =>
    endTurn otherParse a.turnId a.duration .error (some SessionStatus.error) (some a.part)
  | a => fun state =>
    match Go.applyActionToChat otherParse state a with
    | some (outcome, state) => .ok outcome state
    | none => .error "" state

variable {otherParse : String → Option ℤ} {state : ChatState U} {turnID : String} {duration : ℤ}
  {turnState : TurnState} {terminalStatus : Option SessionStatus}
  {errorPart : Option ErrorResponsePart}

/-- The state with the turn of an end moved, and its date and status not yet written. -/
def abandoned (state : ChatState U) (active : ActiveTurn U) (duration : ℤ) (turnState : TurnState)
    (errorPart : Option ErrorResponsePart) : ChatState U :=
  { state with
    activeTurn := none
    turns := state.turns ++ [endedTurn active (max 0 duration) turnState errorPart] }

/-- Without an active turn of the id nothing ends. -/
theorem endTurn_of_notActive (h : ∀ active, state.activeTurn = some active → active.id ≠ turnID) :
    (endTurn otherParse turnID duration turnState terminalStatus errorPart).run state =
      .ok .noOp state := by
  rw [endTurn, run_get_bind]
  cases hactive : state.activeTurn with
  | none => rfl
  | some active =>
    simp only [if_pos (h active hactive)]
    rfl

theorem endTurn_of_active {active : ActiveTurn U} (hactive : state.activeTurn = some active)
    (hid : active.id = turnID) :
    (endTurn otherParse turnID duration turnState terminalStatus errorPart).run state =
      match addMillisecondsToTimestamp otherParse active.startedAt (max 0 duration) with
      | .ok modifiedAt => .ok .applied ({ abandoned state active duration turnState errorPart with
          modifiedAt
          status := summaryStatus (abandoned state active duration turnState errorPart) terminalStatus })
      | .error e => .error e (abandoned state active duration turnState errorPart) := by
  have hclamp : (if duration < 0 then 0 else duration) = max 0 duration := by split <;> omega
  rw [endTurn, run_get_bind]
  simp only [hactive, ne_eq, hid, not_true_eq_false, if_false, hclamp]
  rw [run_modify_bind, run_modify_bind]
  cases addMillisecondsToTimestamp otherParse active.startedAt (max 0 duration) with
  | ok modifiedAt => rfl
  | error e => rfl

/-- What a caller sees of the writes is `endTurn`. -/
theorem completed?_endTurn :
    completed? ((endTurn otherParse turnID duration turnState terminalStatus errorPart).run state) =
      Go.endTurn otherParse state turnID duration turnState terminalStatus errorPart := by
  unfold Go.endTurn
  cases hactive : state.activeTurn with
  | none =>
    rw [endTurn_of_notActive fun active h => by rw [hactive] at h; cases h]
    rfl
  | some active =>
    by_cases hid : active.id = turnID
    · subst hid
      have hclamp : (if duration < 0 then 0 else duration) = max 0 duration := by split <;> omega
      rw [endTurn_of_active hactive rfl]
      simp only [ne_eq, not_true_eq_false, if_false, hclamp,
        ← toOption_addMillisecondsToTimestamp]
      cases addMillisecondsToTimestamp otherParse active.startedAt (max 0 duration) with
      | ok modifiedAt => rfl
      | error e => rfl
    · rw [endTurn_of_notActive fun active' h => by cases hactive.symm.trans h; exact hid]
      simp only [ne_eq, hid, not_false_eq_true, if_true]
      rfl

/-- What a caller sees of the reducer with its writes is the reducer. -/
theorem completed?_applyActionToChat [RawId U] (otherParse : String → Option ℤ) (state : ChatState U)
    (a : ChatAction U (ChatToolCallConfirmedAction U)) :
    completed? ((applyActionToChat otherParse a).run state) = Go.applyActionToChat otherParse state a := by
  cases a with
  | turnComplete a | turnCancelled a | error a => exact completed?_endTurn
  | _ => rfl

end AgentHostProtocol.Go.InPlace
