import AgentHostProtocol.Agreement.Chat
import AgentHostProtocol.Go.Chat

/-!
# Timestamps in Go and in TypeScript

An instant has the same text in both exactly if its year is written alike: four digits from 0 to
9999, and a sign with six digits before -99999 (`formatTime_eq_text_iff`). After 9999 Go writes no
sign, and between it writes fewer digits.
-/

namespace AgentHostProtocol.Agreement.GoChat

open Library

/-- The year of an instant. -/
def yearOf (t : ℤ) : ℤ := (Rfc3339.civilFromDays (t / Rfc3339.dayMillis)).1

/-- The years that Go and TypeScript write alike. -/
def WrittenAlike (y : ℤ) : Prop := 0 ≤ y ∧ y ≤ 9999 ∨ y ≤ -100000

theorem length_pad (w v : ℕ) : (Rfc3339.pad w v).length = w := by
  induction w generalizing v with
  | zero => rfl
  | succ w ih => exact congrArg (· + 1) (ih _)

/-- Of the years that a `Date` can have. -/
theorem yearChars_eq_iff {y : ℤ} (hlow : -999999 ≤ y) (hhigh : y ≤ 999999) :
    Go.yearChars y = Rfc3339.yearChars y ↔ WrittenAlike y := by
  have hdigits : ∀ k, k ≠ 0 → (Nat.log 10 y.natAbs < k ↔ y.natAbs < 10 ^ k) := fun k hk =>
    ⟨Nat.lt_pow_of_log_lt (by omega), Nat.log_lt_of_lt_pow' hk⟩
  have hfour := hdigits 4 (by omega)
  have hfive := hdigits 5 (by omega)
  have hsix := hdigits 6 (by omega)
  unfold WrittenAlike
  by_cases hneg : y < 0
  · have hnot : ¬ (0 ≤ y ∧ y ≤ 9999) := by omega
    simp only [Go.yearChars, Rfc3339.yearChars, if_pos hneg, if_neg hnot, List.singleton_append,
      List.cons.injEq, true_and]
    constructor
    · intro h
      have hlength := congrArg List.length h
      rw [length_pad, length_pad] at hlength
      omega
    · intro h
      rw [show max 4 (Nat.log 10 y.natAbs + 1) = 6 by omega]
  · simp only [Go.yearChars, if_neg hneg, List.nil_append]
    by_cases hyear : 0 ≤ y ∧ y ≤ 9999
    · refine iff_of_true ?_ (.inl hyear)
      rw [Rfc3339.yearChars, if_pos hyear, show max 4 (Nat.log 10 y.natAbs + 1) = 4 by omega,
        show y.natAbs = y.toNat by omega]
    · refine iff_of_false (fun h => ?_) (by omega)
      have hlength := congrArg List.length h
      rw [length_pad, Rfc3339.yearChars, if_neg hyear, List.length_cons, length_pad] at hlength
      omega

/-- The year is at most a few days from what the count of days gives. -/
theorem civilFromDays_bounds (z : ℤ) :
    400 * ((z + 719468) / 146097) ≤ (Rfc3339.civilFromDays z).1 ∧
      (Rfc3339.civilFromDays z).1 ≤ 400 * ((z + 719468) / 146097) + 404 := by
  unfold Rfc3339.civilFromDays
  simp only
  split <;> simp only <;> omega

/-- The year of an instant that is a `Date`. -/
theorem yearOf_bounds {t : ℤ} (h : -maxTimeValue ≤ t ∧ t ≤ maxTimeValue) :
    -999999 ≤ yearOf t ∧ yearOf t ≤ 999999 := by
  have hyear := civilFromDays_bounds (t / Rfc3339.dayMillis)
  unfold maxTimeValue at h
  unfold yearOf
  unfold Rfc3339.dayMillis at hyear ⊢
  omega

/-- **Timestamps**: Go and TypeScript write an instant alike exactly if they write its year
alike. -/
theorem formatTime_eq_text_iff {t : ℤ} (h : -maxTimeValue ≤ t ∧ t ≤ maxTimeValue) :
    Go.formatTime t = Rfc3339.text t ↔ WrittenAlike (yearOf t) := by
  rw [← yearChars_eq_iff (yearOf_bounds h).1 (yearOf_bounds h).2]
  unfold Go.formatTime Rfc3339.text yearOf
  simp only
  constructor
  · intro htext
    exact List.append_cancel_right (String.ofList_injective htext)
  · intro hyear
    rw [hyear]

/-! ### The end of a turn -/

/-- Whether Go and TypeScript add a duration to an instant alike: both write the year alike, or
neither can represent the result. -/
def AddedAlike (t duration : ℤ) : Prop :=
  (duration ≤ Go.maxDuration ∧ -maxTimeValue ≤ t + duration ∧ t + duration ≤ maxTimeValue ∧
      WrittenAlike (yearOf (t + duration))) ∨
    (Go.maxDuration < duration ∧
      ¬ (-maxTimeValue ≤ t + duration ∧ t + duration ≤ maxTimeValue))

theorem addMilliseconds_eq_iff {legacyParse otherParse : String → Option ℤ} {timestamp : String}
    {t duration : ℤ} (hts : dateParse legacyParse timestamp = some t)
    (hgo : dateParse otherParse timestamp = some t) (hduration : 0 ≤ duration) :
    Go.addMillisecondsToTimestamp otherParse timestamp duration =
        addMillisecondsToTimestamp legacyParse timestamp duration ↔ AddedAlike t duration := by
  have hlow : -Go.maxDuration ≤ duration := by
    have hpos : 0 ≤ Go.maxDuration := by decide
    omega
  unfold dateParse at hgo
  unfold Go.addMillisecondsToTimestamp addMillisecondsToTimestamp toISOString AddedAlike
  rw [hts, hgo]
  simp only [Option.bind_some]
  generalize hmaxTime : maxTimeValue = maxTime
  generalize Go.maxDuration = maxDuration at hlow ⊢
  by_cases hin : -maxTime ≤ t + duration ∧ t + duration ≤ maxTime
  · have hformat := formatTime_eq_text_iff (hmaxTime ▸ hin)
    by_cases hmax : duration ≤ maxDuration
    · simp only [hin, hmax, hlow, and_self, if_true, Option.some_inj, hformat, true_and, not_true_eq_false,
        and_false, or_false]
    · simp only [hin, hmax, and_false, if_false, and_self, if_true, reduceCtorEq, false_and,
        not_true_eq_false, or_self]
  · by_cases hmax : duration ≤ maxDuration
    · refine iff_of_false ?_ (by omega)
      rw [if_pos ⟨hlow, hmax⟩, if_neg hin]
      simp
    · refine iff_of_true ?_ (.inr ⟨not_le.mp hmax, hin⟩)
      rw [if_neg fun h => hmax h.2, if_neg hin]

theorem addMilliseconds_none {legacyParse otherParse : String → Option ℤ} {timestamp : String}
    (hts : dateParse legacyParse timestamp = none) (hgo : dateParse otherParse timestamp = none)
    (duration : ℤ) :
    Go.addMillisecondsToTimestamp otherParse timestamp duration =
      addMillisecondsToTimestamp legacyParse timestamp duration := by
  unfold dateParse at hgo
  unfold Go.addMillisecondsToTimestamp addMillisecondsToTimestamp
  simp only [hts, hgo, Option.bind_none]

end AgentHostProtocol.Agreement.GoChat
