import AgentHostProtocol.Dotnet.Chat
import AgentHostProtocol.Go.InPlace

/-!
# Ends of turns that fail

The Go and the .NET reducer take the active turn out of the state and append it to the turns, and
compute the date of its end after that. When the computation fails the two writes stay.

**What is proved** (`ends_untouched_iff`): each leaves the state as it was exactly when the date can
be computed or no turn ends, and otherwise the state has lost its active turn, holds the ended one
and has the date and the status of before.
-/

namespace AgentHostProtocol.Agreement

open Library Dotnet.Chat

variable {U : Type}

/-- The action of the wire. -/
def endAction : TurnEnd → ChatAction U (Go.ChatToolCallConfirmedAction U)
  | .turnComplete a => .turnComplete a
  | .turnCancelled a => .turnCancelled a
  | .error a => .error a

def endTurnId : TurnEnd → String
  | .turnComplete a | .turnCancelled a => a.turnId
  | .error a => a.turnId

def endDuration : TurnEnd → ℤ
  | .turnComplete a | .turnCancelled a => a.duration
  | .error a => a.duration

/-- A turn ends whose date the Go reducer cannot compute. -/
def GoFails (otherParse : String → Option ℤ) (state : ChatState U) (e : TurnEnd) : Prop :=
  ∃ active, state.activeTurn = some active ∧ active.id = endTurnId e ∧
    Go.InPlace.Fails otherParse active.startedAt (endDuration e)

/-- A turn ends whose date the .NET reducer cannot compute. -/
def DotnetFails (otherParse : String → Option DateTimeOffset) (state : ChatState U) (e : TurnEnd) :
    Prop :=
  ∃ active, state.activeTurn = some active ∧ active.id = endTurnId e ∧
    Dotnet.Chat.Fails otherParse active.startedAt (endDuration e)

/-- The active turn was moved to the turns, the date and the status are those of before. -/
structure HalfEnded (state state' : ChatState U) : Prop where
  was : state.activeTurn.isSome
  lost : state'.activeTurn = none
  turns : ∃ turn, state'.turns = state.turns ++ [turn]
  modifiedAt : state'.modifiedAt = state.modifiedAt
  status : state'.status = state.status

theorem HalfEnded.ne {state state' : ChatState U} (h : HalfEnded state state') : state' ≠ state := by
  rintro rfl
  have hwas := h.was
  rw [h.lost] at hwas
  cases hwas

/-- A run that ends well, or leaves a half ended turn when the condition holds. -/
def Splits {ε : Type} {α : Type} (x : EStateM ε (ChatState U) α) (state : ChatState U) (fails : Prop) :
    Prop :=
  (∃ a state', ¬ fails ∧ x.run state = .ok a state') ∨
    ∃ e state', fails ∧ x.run state = .error e state' ∧ HalfEnded state state'

theorem Splits.untouched_iff {ε α : Type} {x : EStateM ε (ChatState U) α} {state : ChatState U}
    {fails : Prop} (h : Splits x state fails) :
    (Untouched x state ↔ ¬ fails) ∧
      ∀ e state', x.run state = .error e state' → HalfEnded state state' := by
  rcases h with ⟨a, state', hnot, hok⟩ | ⟨e, state', hfails, herror, hhalf⟩
  · refine ⟨⟨fun _ => hnot, fun _ => untouched_of_ok hok⟩, fun e state'' he => ?_⟩
    rw [hok] at he
    cases he
  · refine ⟨⟨fun h => absurd h (not_untouched herror hhalf.ne), fun h => absurd hfails h⟩, ?_⟩
    intro e' state'' he
    rw [herror] at he
    cases he
    exact hhalf

section

variable {state : ChatState U} {turnId : String} {turnState : TurnState} {duration : ℤ}
  {terminalStatus : Option SessionStatus} {errorPart : Option ErrorResponsePart}

/-- The condition on the active turn of the id decides how the run ends. -/
theorem splits_of_active {ε α : Type} {x : EStateM ε (ChatState U) α} {fails : ActiveTurn U → Prop}
    (hidle : (∀ active, state.activeTurn = some active → active.id ≠ turnId) →
      ∃ a, x.run state = .ok a state)
    (hends : ∀ active, state.activeTurn = some active → active.id = turnId → ¬ fails active →
      ∃ a state', x.run state = .ok a state')
    (hfails : ∀ active, state.activeTurn = some active → active.id = turnId → fails active →
      ∃ e state', x.run state = .error e state' ∧ HalfEnded state state') :
    Splits x state (∃ active, state.activeTurn = some active ∧ active.id = turnId ∧ fails active) := by
  by_cases h : ∃ active, state.activeTurn = some active ∧ active.id = turnId
  · obtain ⟨active, hactive, hid⟩ := h
    by_cases hf : fails active
    · obtain ⟨e, state', hrun, hhalf⟩ := hfails active hactive hid hf
      exact .inr ⟨e, state', ⟨active, hactive, hid, hf⟩, hrun, hhalf⟩
    · obtain ⟨a, state', hrun⟩ := hends active hactive hid hf
      refine .inl ⟨a, state', fun ⟨active', hactive', _, hf'⟩ => hf ?_, hrun⟩
      obtain rfl := Option.some.inj (hactive.symm.trans hactive')
      exact hf'
  · obtain ⟨a, hrun⟩ := hidle fun active hactive hid => h ⟨active, hactive, hid⟩
    exact .inl ⟨a, state, fun ⟨active, hactive, hid, _⟩ => h ⟨active, hactive, hid⟩, hrun⟩

theorem go_splits (otherParse : String → Option ℤ) :
    Splits (Go.InPlace.endTurn otherParse turnId duration turnState terminalStatus errorPart) state
      (∃ active, state.activeTurn = some active ∧ active.id = turnId ∧
        Go.InPlace.Fails otherParse active.startedAt duration) := by
  refine splits_of_active (fun h => ⟨_, Go.InPlace.endTurn_of_notActive h⟩) ?_ ?_
  · intro active hactive hid hnot
    obtain ⟨modifiedAt, hok⟩ := Go.InPlace.addMillisecondsToTimestamp_of_not_fails hnot
    rw [Go.InPlace.endTurn_of_active hactive hid, hok]
    exact ⟨_, _, rfl⟩
  · intro active hactive hid hfails
    obtain ⟨e, he⟩ := Go.InPlace.addMillisecondsToTimestamp_of_fails hfails
    rw [Go.InPlace.endTurn_of_active hactive hid, he]
    exact ⟨_, _, rfl, by rw [hactive]; rfl, rfl, ⟨_, rfl⟩, rfl, rfl⟩

theorem dotnet_splits (otherParse : String → Option DateTimeOffset) :
    Splits (Dotnet.Chat.endTurn otherParse turnId turnState duration terminalStatus errorPart) state
      (∃ active, state.activeTurn = some active ∧ active.id = turnId ∧
        Dotnet.Chat.Fails otherParse active.startedAt duration) := by
  refine splits_of_active (fun h => ⟨_, Dotnet.Chat.endTurn_of_notActive h⟩) ?_ ?_
  · intro active hactive hid hnot
    obtain ⟨modifiedAt, hok⟩ := Dotnet.Chat.addMillisecondsToTimestamp_of_not_fails hnot
    rw [Dotnet.Chat.endTurn_of_active hactive hid, hok]
    exact ⟨_, _, rfl⟩
  · intro active hactive hid hfails
    obtain ⟨e, he⟩ := Dotnet.Chat.addMillisecondsToTimestamp_of_fails hfails
    rw [Dotnet.Chat.endTurn_of_active hactive hid, he]
    exact ⟨_, _, rfl, by rw [hactive]; rfl, rfl, ⟨_, rfl⟩, rfl, rfl⟩

end

/-- **Failing ends**: a failure leaves the state as it was exactly when there is none, and what it
leaves is a half ended turn. -/
theorem ends_untouched_iff [RawId U] (goParse : String → Option ℤ)
    (dotnetParse : String → Option DateTimeOffset) (state : ChatState U) (e : TurnEnd) :
    ((Untouched (Go.InPlace.applyActionToChat goParse (endAction e)) state ↔ ¬ GoFails goParse state e) ∧
      ∀ panic state', (Go.InPlace.applyActionToChat goParse (endAction e)).run state =
        .error panic state' → HalfEnded state state') ∧
    (Untouched (applyToChat dotnetParse e) state ↔ ¬ DotnetFails dotnetParse state e) ∧
      ∀ exn state', (applyToChat dotnetParse e).run state = .error exn state' →
        HalfEnded state state' := by
  cases e with
  | turnComplete a => exact ⟨(go_splits goParse).untouched_iff, (dotnet_splits dotnetParse).untouched_iff⟩
  | turnCancelled a => exact ⟨(go_splits goParse).untouched_iff, (dotnet_splits dotnetParse).untouched_iff⟩
  | error a => exact ⟨(go_splits goParse).untouched_iff, (dotnet_splits dotnetParse).untouched_iff⟩

/-- A turn started in 2025. -/
def runningChat : ChatState Empty :=
  { (ChatState.new "ahp-chat:/chat" "Chat" "2025-03-10T18:42:03.123Z" : ChatState Empty) with
    activeTurn := some
      { id := "turn", startedAt := "2025-03-10T18:42:03.123Z", message := ⟨"\"Hello\""⟩
        responseParts := [], usage := none } }

/-- The turn ends after ten thousand years: each reducer fails with the turn moved. -/
theorem ends_untouched_false :
    (¬ ∀ (goParse : String → Option ℤ) (state : ChatState Empty) (e : TurnEnd),
      Untouched (Go.InPlace.applyActionToChat goParse (endAction e)) state) ∧
    ¬ ∀ (dotnetParse : String → Option DateTimeOffset) (state : ChatState Empty) (e : TurnEnd),
      Untouched (applyToChat dotnetParse e) state := by
  constructor
  · intro h
    have hgo := h (fun _ => none) runningChat (.turnComplete ⟨"turn", 400000000000000⟩)
    exact (go_splits _).untouched_iff.1.mp hgo ⟨_, rfl, rfl, .inr (by decide)⟩
  · intro h
    have hdotnet := h (fun _ => none) runningChat (.turnComplete ⟨"turn", 400000000000000⟩)
    refine (dotnet_splits _).untouched_iff.1.mp hdotnet ⟨_, rfl, rfl, fun start _ => ?_⟩
    -- No clock shows less than the first tick.
    have hfirst := start.clock_valid.1
    dsimp only [maxTicks, ticksPerMillisecond, endDuration]
    omega

end AgentHostProtocol.Agreement
