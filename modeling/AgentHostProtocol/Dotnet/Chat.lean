import AgentHostProtocol.Dotnet.Session
import AgentHostProtocol.Library.InPlace
import AgentHostProtocol.Library.Rfc3339
import AgentHostProtocol.Wire.ChatActions

/-!
# The end of a turn in the .NET chat reducer

`Reducers.ApplyToChat` on the actions that end a turn, with its writes one by one: an exception
leaves the state as it is then. A timestamp with three digits of fraction is read as RFC 3339 says;
what `DateTimeOffset.Parse` makes of other texts is the parameter `otherParse`. A `null` text is the
empty one.
-/

namespace AgentHostProtocol.Dotnet.Chat

open Library SessionStatus

variable {U : Type}

/-! ### Timestamps -/

/-- The ticks of a millisecond. -/
def ticksPerMillisecond : ℤ := 10000

/-- The ticks of a minute. -/
def ticksPerMinute : ℤ := 600000000

/-- The ticks from the beginning of the year 1 to 1970-01-01. -/
def unixEpochTicks : ℤ := 621355968000000000

/-- The last tick of the year 9999. -/
def maxTicks : ℤ := 3155378975999999999

/-- `DateTimeOffset`: the ticks its clock shows, and by how many minutes the clock is ahead of UTC. -/
structure DateTimeOffset where
  clockTicks : ℤ
  offset : ℤ
  clock_valid : 0 ≤ clockTicks ∧ clockTicks ≤ maxTicks
  offset_valid : -840 ≤ offset ∧ offset ≤ 840
  utc_valid : 0 ≤ clockTicks - ticksPerMinute * offset ∧
    clockTicks - ticksPerMinute * offset ≤ maxTicks

/-- The ticks of `UtcDateTime`. -/
def DateTimeOffset.utcTicks (d : DateTimeOffset) : ℤ := d.clockTicks - ticksPerMinute * d.offset

/-- `new DateTimeOffset(clock, offset)`; `none` where it throws. -/
def DateTimeOffset.ofClock? (clockTicks offset : ℤ) : Option DateTimeOffset :=
  if h : (0 ≤ clockTicks ∧ clockTicks ≤ maxTicks) ∧ (-840 ≤ offset ∧ offset ≤ 840) ∧
      0 ≤ clockTicks - ticksPerMinute * offset ∧ clockTicks - ticksPerMinute * offset ≤ maxTicks then
    some ⟨clockTicks, offset, h.1, h.2.1, h.2.2⟩
  else none

/-- `DateTimeOffset.Parse` under the invariant culture, UTC where the text has no offset. -/
def DateTimeOffset.parse (otherParse : String → Option DateTimeOffset) (text : String) :
    Option DateTimeOffset :=
  match Rfc3339.millis? text, Rfc3339.offset (text.toList.drop 23) with
  | some t, some offset =>
    ofClock? (unixEpochTicks + ticksPerMillisecond * t + ticksPerMinute * offset) offset
  | _, _ => otherParse text

/-- `AddMilliseconds`; `none` where it throws. -/
def DateTimeOffset.addMilliseconds (d : DateTimeOffset) (milliseconds : ℤ) : Option DateTimeOffset :=
  ofClock? (d.clockTicks + ticksPerMillisecond * milliseconds) d.offset

/-- `UtcDateTime.ToString("yyyy-MM-ddTHH:mm:ss.fffZ")`. -/
def DateTimeOffset.utcText (d : DateTimeOffset) : String :=
  Rfc3339.text ((d.utcTicks - unixEpochTicks) / ticksPerMillisecond)

/-- What the computation of a date throws. -/
inductive Exn where
  | formatException
  | argumentOutOfRange
  deriving DecidableEq

/-- `AddMillisecondsToTimestamp`. -/
def addMillisecondsToTimestamp (otherParse : String → Option DateTimeOffset) (timestamp : String)
    (milliseconds : ℤ) : Except Exn String :=
  match DateTimeOffset.parse otherParse timestamp with
  | none => .error .formatException
  | some start =>
    match start.addMilliseconds milliseconds with
    | none => .error .argumentOutOfRange
    | some d => .ok d.utcText

/-- The date of the end of a turn cannot be computed: the start does not parse, or the end is after
the year 9999 by the clock of the start or in UTC. -/
def Fails (otherParse : String → Option DateTimeOffset) (timestamp : String) (duration : ℤ) : Prop :=
  ∀ start, DateTimeOffset.parse otherParse timestamp = some start →
    maxTicks < max start.clockTicks start.utcTicks + ticksPerMillisecond * max 0 duration

theorem DateTimeOffset.addMilliseconds_isSome_iff (start : DateTimeOffset) (duration : ℤ)
    (h : 0 ≤ duration) : (start.addMilliseconds duration).isSome ↔
      max start.clockTicks start.utcTicks + ticksPerMillisecond * duration ≤ maxTicks := by
  obtain ⟨clockTicks, offset, ⟨hclock, -⟩, hoffset, hutc, -⟩ := start
  unfold addMilliseconds ofClock? utcTicks ticksPerMillisecond
  dsimp only
  constructor
  · intro hsome
    split at hsome <;> rename_i hvalid
    · omega
    · cases hsome
  · intro hle
    rw [dif_pos ⟨by omega, hoffset, by omega⟩]
    rfl

theorem addMillisecondsToTimestamp_of_fails {otherParse : String → Option DateTimeOffset}
    {timestamp : String} {duration : ℤ} (h : Fails otherParse timestamp duration) :
    ∃ e, addMillisecondsToTimestamp otherParse timestamp (max 0 duration) = .error e := by
  unfold addMillisecondsToTimestamp
  cases hstart : DateTimeOffset.parse otherParse timestamp with
  | none => exact ⟨_, rfl⟩
  | some start =>
    have hlate := h start hstart
    have hnone : start.addMilliseconds (max 0 duration) = none := by
      have hiff := start.addMilliseconds_isSome_iff (max 0 duration) (by omega)
      rw [← Option.not_isSome_iff_eq_none, hiff]
      omega
    simp only [hnone]
    exact ⟨_, rfl⟩

theorem addMillisecondsToTimestamp_of_not_fails {otherParse : String → Option DateTimeOffset}
    {timestamp : String} {duration : ℤ} (h : ¬ Fails otherParse timestamp duration) :
    ∃ modifiedAt, addMillisecondsToTimestamp otherParse timestamp (max 0 duration) = .ok modifiedAt := by
  unfold Fails at h
  push Not at h
  obtain ⟨start, hstart, hle⟩ := h
  obtain ⟨d, hd⟩ := Option.isSome_iff_exists.mp
    ((start.addMilliseconds_isSome_iff (max 0 duration) (by omega)).mpr hle)
  exact ⟨d.utcText, by simp only [addMillisecondsToTimestamp, hstart, hd]⟩

/-! ### Tool calls -/

/-- `ToolCallMeta`. -/
def toolCallMeta : ToolCallState U → ToolCallBase U
  | .streaming v => v.toToolCallBase
  | .pendingConfirmation v => v.toToolCallBase
  | .running v => v.toToolCallBase
  | .authRequired v => v.toToolCallBase
  | .pendingResultConfirmation v => v.toToolCallBase
  | .completed v => v.toToolCallBase
  | .cancelled v => v.toToolCallBase
  | .unknown _ =>
    { toolCallId := "", toolName := "", displayName := "", intention := none, contributor := none
      _meta := none }

/-- `ToolCallInvocationAndInput`. -/
def toolCallInvocationAndInput : ToolCallState U → ToolCallParameterFields
  | .streaming v => ⟨v.invocationMessage.getD (.plain ""), none⟩
  | .pendingConfirmation v => ⟨v.invocationMessage, v.toolInput⟩
  | .running v => ⟨v.invocationMessage, v.toolInput⟩
  | .authRequired v => ⟨v.invocationMessage, v.toolInput⟩
  | .pendingResultConfirmation v => ⟨v.invocationMessage, v.toolInput⟩
  | _ => ⟨.plain "", none⟩

/-- What `EndTurn` makes of a part. -/
def finalPart : ResponsePart U → ResponsePart U
  | .toolCall (.completed v) => .toolCall (.completed v)
  | .toolCall (.cancelled v) => .toolCall (.cancelled v)
  | .toolCall tc => .toolCall (.cancelled
    { toolCallMeta tc, toolCallInvocationAndInput tc with
      reason := .skipped
      reasonMessage := none
      userSuggestion := none
      selectedOption := none })
  | part => part

/-! ### Status -/

/-- `HasBlockingToolCall`. -/
def hasBlockingToolCall (state : ChatState U) : Bool :=
  match state.activeTurn with
  | none => false
  | some active => active.responseParts.any fun
    | .toolCall (.pendingConfirmation _) => true
    | .toolCall (.pendingResultConfirmation _) => true
    | .toolCall (.authRequired _) => true
    | _ => false

/-- `HasOpenInputRequest`. -/
def hasOpenInputRequest (state : ChatState U) : Bool :=
  match state.activeTurn with
  | none => false
  | some active => active.responseParts.any fun
    | .inputRequest ir => ir.response.isNone
    | _ => false

/-- `ChatSummaryStatus`. -/
def chatSummaryStatus (state : ChatState U) (terminal : Option SessionStatus) : SessionStatus :=
  let activity :=
    match terminal with
    | some terminal => terminal
    | none =>
      if hasOpenInputRequest state || hasBlockingToolCall state then inputNeeded
      else if state.activeTurn.isSome then inProgress
      else idle
  state.status &&& ~~~activityMask ||| activity

/-! ### The end of a turn -/

/-- The turn that `EndTurn` adds. -/
def endedTurn (active : ActiveTurn U) (duration : ℤ) (turnState : TurnState)
    (errorPart : Option ErrorResponsePart) : Turn U :=
  let parts := active.responseParts.map finalPart
  let parts :=
    match errorPart with
    | some errorPart => parts ++ [.error errorPart]
    | none => parts
  { id := active.id
    startedAt := some active.startedAt
    duration := some (max 0 duration)
    message := active.message
    responseParts := parts
    usage := active.usage
    state := turnState }

/-- `EndTurn`, write by write. -/
def endTurn (otherParse : String → Option DateTimeOffset) (turnId : String) (turnState : TurnState)
    (duration : ℤ) (terminalStatus : Option SessionStatus) (errorPart : Option ErrorResponsePart) :
    EStateM Exn (ChatState U) ReduceOutcome := do
  match (← get).activeTurn with
  | none => return .noOp
  | some active =>
    if active.id ≠ turnId then return .noOp
    else
      modify fun state => { state with activeTurn := none }
      let turn := endedTurn active duration turnState errorPart
      modify fun state => { state with turns := state.turns ++ [turn] }
      let modifiedAt ← MonadExcept.ofExcept
        (addMillisecondsToTimestamp otherParse active.startedAt (turn.duration.getD 0))
      modify fun state => { state with modifiedAt }
      modify fun state => { state with status := chatSummaryStatus state terminalStatus }
      return .applied

/-- The actions that end a turn. -/
inductive TurnEnd where
  | turnComplete (a : ChatTurnEndedAction)
  | turnCancelled (a : ChatTurnEndedAction)
  | error (a : ChatErrorAction)

/-- `ApplyToChat` on the actions that end a turn. -/
def applyToChat (otherParse : String → Option DateTimeOffset) :
    TurnEnd → EStateM Exn (ChatState U) ReduceOutcome
  | .turnComplete a => endTurn otherParse a.turnId .complete a.duration none none
  | .turnCancelled a => endTurn otherParse a.turnId .cancelled a.duration none none
  | .error a =>
    endTurn otherParse a.turnId .error a.duration (some SessionStatus.error) (some a.part)

variable {otherParse : String → Option DateTimeOffset} {state : ChatState U} {turnId : String}
  {turnState : TurnState} {duration : ℤ} {terminalStatus : Option SessionStatus}
  {errorPart : Option ErrorResponsePart}

/-- The state with the turn of an end moved, and its date and status not yet written. -/
def abandoned (state : ChatState U) (active : ActiveTurn U) (duration : ℤ) (turnState : TurnState)
    (errorPart : Option ErrorResponsePart) : ChatState U :=
  { state with
    activeTurn := none
    turns := state.turns ++ [endedTurn active duration turnState errorPart] }

/-- Without an active turn of the id nothing ends. -/
theorem endTurn_of_notActive (h : ∀ active, state.activeTurn = some active → active.id ≠ turnId) :
    (endTurn otherParse turnId turnState duration terminalStatus errorPart).run state =
      .ok .noOp state := by
  rw [endTurn, run_get_bind]
  cases hactive : state.activeTurn with
  | none => rfl
  | some active =>
    simp only [if_pos (h active hactive)]
    rfl

theorem endTurn_of_active {active : ActiveTurn U} (hactive : state.activeTurn = some active)
    (hid : active.id = turnId) :
    (endTurn otherParse turnId turnState duration terminalStatus errorPart).run state =
      match addMillisecondsToTimestamp otherParse active.startedAt (max 0 duration) with
      | .ok modifiedAt => .ok .applied
        { abandoned state active duration turnState errorPart with
          modifiedAt
          status := chatSummaryStatus (abandoned state active duration turnState errorPart)
            terminalStatus }
      | .error e => .error e (abandoned state active duration turnState errorPart) := by
  have hduration : (endedTurn active duration turnState errorPart).duration.getD 0 = max 0 duration := rfl
  rw [endTurn, run_get_bind]
  simp only [hactive, ne_eq, hid, not_true_eq_false, if_false, hduration]
  rw [run_modify_bind, run_modify_bind]
  cases addMillisecondsToTimestamp otherParse active.startedAt (max 0 duration) with
  | ok modifiedAt => rfl
  | error e => rfl

end AgentHostProtocol.Dotnet.Chat
