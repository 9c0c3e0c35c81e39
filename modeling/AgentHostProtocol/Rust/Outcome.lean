import AgentHostProtocol.Library.Rfc3339

/-!
# Outcomes of the Rust reducers

A Rust reducer mutates its state in place and returns a `ReduceOutcome`. In the model it
returns the outcome with the state as it is then, so a write that comes before a `NoOp`
is visible.

Timestamps are the `jiff` crate's. What the reducers use of it is the parameter `Jiff`;
`Jiff.Documented` is what its documentation says.
-/

namespace AgentHostProtocol.Rust

open Library

/-- Why an action could not be reduced safely. -/
inductive ReduceError where
  | invalidTimestamp (timestamp reason : String)
  | timestampArithmetic (timestamp : String) (durationMs : ℤ) (reason : String)
  deriving DecidableEq

/-- What happened when an action was applied. -/
inductive ReduceOutcome where
  | applied
  | noOp
  | outOfScope
  | invalid (error : ReduceError)
  deriving DecidableEq

/-- The state is as it was, unless the action was applied. -/
def KeepsState {σ : Type} (state : σ) (res : ReduceOutcome × σ) : Prop :=
  res.1 ≠ .applied → res.2 = state

section

variable {σ : Type} {s s' : σ}

@[simp] theorem keepsState_applied : KeepsState s (.applied, s') := fun h => absurd rfl h

@[simp] theorem keepsState_self {outcome : ReduceOutcome} : KeepsState s (outcome, s) := fun _ => rfl

end

/-- What the reducers use of the `jiff` crate. -/
structure Jiff where
  /-- `jiff::Timestamp`. -/
  Timestamp : Type
  /-- `str::parse`. -/
  parse : String → Except String Timestamp
  /-- `Timestamp::checked_add` of a number of milliseconds. -/
  checkedAdd : Timestamp → ℤ → Except String Timestamp
  /-- The display with three decimals, `{:.3}`. -/
  display : Timestamp → String

namespace Jiff

/-- The last millisecond of `Timestamp::MAX`, 9999-12-30T22:00:00.999Z. -/
def maxMillis : ℤ := 253402207200999

/-- The first millisecond of `Timestamp::MIN`, -009999-01-02T01:59:59.000Z. -/
def minMillis : ℤ := -377705023201000

/-- The milliseconds in which a `Timestamp` can lie. -/
def InRange (t : ℤ) : Prop := minMillis ≤ t ∧ t ≤ maxMillis

instance (t : ℤ) : Decidable (InRange t) := inferInstanceAs (Decidable (_ ∧ _))

/-- What the documentation says, with `instant` the millisecond in which a timestamp
lies: parsing and addition succeed exactly within the range, and the display is the RFC
3339 text. -/
structure Documented (jiff : Jiff) (instant : jiff.Timestamp → ℤ) : Prop where
  parse_ok : ∀ {text t}, Rfc3339.millis? text = some t → InRange t →
    ∃ ts, jiff.parse text = .ok ts ∧ instant ts = t
  parse_error : ∀ {text t}, Rfc3339.millis? text = some t → ¬ InRange t →
    ∃ e, jiff.parse text = .error e
  add_ok : ∀ {ts d}, InRange (instant ts + d) →
    ∃ ts', jiff.checkedAdd ts d = .ok ts' ∧ instant ts' = instant ts + d
  add_error : ∀ {ts d}, ¬ InRange (instant ts + d) → ∃ e, jiff.checkedAdd ts d = .error e
  display_eq : ∀ ts, jiff.display ts = Rfc3339.text (instant ts)

/-- A calendar that counts milliseconds. -/
def counting : Jiff where
  Timestamp := ℤ
  parse text :=
    match Rfc3339.millis? text with
    | none => .error "not a timestamp"
    | some t => if InRange t then .ok t else .error "out of range"
  checkedAdd ts d := if InRange (ts + d) then .ok (ts + d) else .error "out of range"
  display := Rfc3339.text

theorem counting_documented : counting.Documented id where
  parse_ok {text t} h ht := ⟨t, by simp only [counting, h, if_pos ht], rfl⟩
  parse_error {text t} h ht := ⟨"out of range", by simp only [counting, h, if_neg ht]⟩
  add_ok {ts d} h := ⟨Int.add ts d, if_pos h, rfl⟩
  add_error {ts d} h := ⟨"out of range", if_neg h⟩
  display_eq _ := rfl

end Jiff

/-- `add_milliseconds_to_timestamp`. -/
def addMillisecondsToTimestamp (jiff : Jiff) (timestamp : String) (duration : ℤ) :
    Except ReduceError String :=
  match jiff.parse timestamp with
  | .error reason => .error (.invalidTimestamp timestamp reason)
  | .ok start =>
    match jiff.checkedAdd start duration with
    | .error reason => .error (.timestampArithmetic timestamp duration reason)
    | .ok «end» => .ok (jiff.display «end»)

section

variable {jiff : Jiff} {instant : jiff.Timestamp → ℤ} (hjiff : jiff.Documented instant)
  {timestamp : String} {t duration : ℤ}

include hjiff

theorem addMillisecondsToTimestamp_ok (h : Rfc3339.millis? timestamp = some t)
    (ht : Jiff.InRange t) (hd : Jiff.InRange (t + duration)) :
    addMillisecondsToTimestamp jiff timestamp duration = .ok (Rfc3339.text (t + duration)) := by
  obtain ⟨ts, hts, rfl⟩ := hjiff.parse_ok h ht
  obtain ⟨ts', hts', hinstant⟩ := hjiff.add_ok hd
  simp only [addMillisecondsToTimestamp, hts, hts', hjiff.display_eq, hinstant]

theorem addMillisecondsToTimestamp_error (h : Rfc3339.millis? timestamp = some t)
    (hd : ¬ (Jiff.InRange t ∧ Jiff.InRange (t + duration))) :
    ∃ e, addMillisecondsToTimestamp jiff timestamp duration = .error e := by
  by_cases ht : Jiff.InRange t
  · obtain ⟨ts, hts, rfl⟩ := hjiff.parse_ok h ht
    obtain ⟨reason, hreason⟩ := hjiff.add_error fun hd' => hd ⟨ht, hd'⟩
    exact ⟨.timestampArithmetic timestamp duration reason,
      by simp only [addMillisecondsToTimestamp, hts, hreason]⟩
  · obtain ⟨reason, hreason⟩ := hjiff.parse_error h ht
    exact ⟨.invalidTimestamp timestamp reason,
      by simp only [addMillisecondsToTimestamp, hreason]⟩

end

end AgentHostProtocol.Rust
