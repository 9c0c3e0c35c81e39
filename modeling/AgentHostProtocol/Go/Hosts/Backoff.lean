import AgentHostProtocol.Go.Hosts.Policy
import AgentHostProtocol.Library.Binary64

/-!
# The backoff of the Go client

The wait before a retry, with `float64` as the double precision of amd64: what has no `int64` is
converted to the least one.

**What is proved** (`backoffFor_eq_iff`): under a policy that doubles, the wait is the first backoff
times a power of two, capped, exactly as long as the double that is computed for it is below `2 ^ 63`
and the first backoff is itself a double or what it is rounded to lies beyond the cap. From then on
the conversion comes before the cap and the wait is the least `int64`, so that a retry follows at once.
-/

namespace AgentHostProtocol.Go.Hosts

open Library Binary64

/-- What an integer becomes as an `int64`, if it has one. -/
def toInt64 (n : ℤ) : Duration := if -2 ^ 63 ≤ n ∧ n < 2 ^ 63 then n else -2 ^ 63

theorem toInt64_of_nonneg {n : ℤ} (h : 0 ≤ n) : toInt64 n = if n < 2 ^ 63 then n else -2 ^ 63 := by
  have hrange : (-2 ^ 63 ≤ n ∧ n < 2 ^ 63) ↔ n < 2 ^ 63 := by omega
  simp only [toInt64, hrange]

/-- `float64` on amd64. -/
instance : Float64 Binary64 where
  isZero x := x.beq (.finite 0)
  nonpositive x := x.le (.finite 0)
  one := .finite 1
  two := .finite 2
  mul := Binary64.mul
  ofDuration d := .ofRat d
  toDuration
    -- the fraction is cut off
    | .finite q => toInt64 (if 0 ≤ q then ⌊q⌋ else ⌈q⌉)
    | .infinity _ | .nan => -2 ^ 63

namespace ReconnectPolicy

/-- A policy that doubles the backoff of each retry, in durations that are `int64`. -/
structure Doubles (p : ReconnectPolicy Binary64) : Prop where
  factor : p.backoffMultiplier = Float64.two
  initial : 0 < p.initialBackoff
  capped : p.initialBackoff ≤ p.maxBackoff
  int64 : p.maxBackoff < 2 ^ 63

/-- The first backoff times a power of two, capped. -/
def exponential (p : ReconnectPolicy Binary64) (attempt : UInt32) : Duration :=
  min p.maxBackoff (p.initialBackoff * 2 ^ (attempt.toNat - 1))

/-- The doubled backoff of the attempt has an `int64`, and it is not affected by rounding. -/
structure InRange (p : ReconnectPolicy Binary64) (attempt : UInt32) : Prop where
  lt : nearest p.initialBackoff * 2 ^ (attempt.toNat - 1) < 2 ^ 63
  exact : nearest p.initialBackoff = p.initialBackoff ∨
    p.maxBackoff ≤ p.initialBackoff * 2 ^ (attempt.toNat - 1) ∧
      p.maxBackoff ≤ nearest p.initialBackoff * 2 ^ (attempt.toNat - 1)

variable {p : ReconnectPolicy Binary64}

namespace Doubles

theorem nearest_nonneg (h : Doubles p) : 0 ≤ nearest p.initialBackoff :=
  Binary64.nearest_nonneg (Int.cast_nonneg h.initial.le)

/-- The doubled first backoff, as a double and as an integer. -/
theorem exists_scaled (h : Doubles p) (n : ℕ) : Representable (nearest p.initialBackoff * 2 ^ n) ∧
    ∃ k : ℤ, 0 ≤ k ∧ nearest p.initialBackoff * 2 ^ n = k := by
  induction n with
  | zero =>
    obtain ⟨k, hk⟩ := exists_nearest_intCast p.initialBackoff
    refine ⟨?_, k, ?_, ?_⟩
    · rw [pow_zero, mul_one]
      exact representable_nearest _
    · have hnonneg := h.nearest_nonneg
      rw [hk] at hnonneg
      exact_mod_cast hnonneg
    · rw [pow_zero, mul_one, hk]
  | succ n ih =>
    obtain ⟨hrepresentable, k, hnonneg, hk⟩ := ih
    rw [pow_succ, ← mul_assoc]
    refine ⟨hrepresentable.mul_two, k * 2, by omega, ?_⟩
    rw [hk]
    push_cast
    rfl

/-- The backoff is doubled exactly until it overflows. -/
theorem scaled_eq (h : Doubles p) (n : ℕ) : scaled p n =
    if nearest p.initialBackoff * 2 ^ n < 2 ^ 1024 then .finite (nearest p.initialBackoff * 2 ^ n)
    else .infinity false := by
  induction n with
  | zero =>
    have hpositive : ¬ (p.initialBackoff : ℚ) < 0 := not_lt.mpr (Int.cast_nonneg h.initial.le)
    show ofRat p.initialBackoff = _
    rw [ofRat, abs_of_nonneg h.nearest_nonneg, decide_eq_false hpositive, pow_zero, mul_one]
  | succ n ih =>
    obtain ⟨hrepresentable, k, hnonneg, hk⟩ := h.exists_scaled n
    have htwo : multiplier p = .finite 2 := by
      rw [multiplier, h.factor]
      rfl
    have hpositive : 0 ≤ nearest p.initialBackoff * 2 ^ n := by
      rw [hk]
      exact Int.cast_nonneg hnonneg
    rw [scaled, ih, htwo, pow_succ (2 : ℚ) n, ← mul_assoc]
    split
    · exact Binary64.mul_two hrepresentable hpositive
    · next hlarge =>
      have hdouble := le_mul_of_one_le_right hpositive one_le_two
      rw [if_neg fun hlt => hlarge (hdouble.trans_lt hlt)]
      rfl

/-- A doubled backoff without an `int64` becomes the least one. -/
theorem toDuration_scaled (h : Doubles p) {n : ℕ} {k : ℤ} (hk : nearest p.initialBackoff * 2 ^ n = k) :
    Float64.toDuration (scaled p n) = if k < 2 ^ 63 then k else -2 ^ 63 := by
  obtain ⟨-, k', hnonneg, hk'⟩ := h.exists_scaled n
  obtain rfl : k' = k := by
    rw [hk] at hk'
    exact_mod_cast hk'.symm
  rw [h.scaled_eq, hk]
  split
  · show toInt64 (if 0 ≤ (k' : ℚ) then ⌊(k' : ℚ)⌋ else ⌈(k' : ℚ)⌉) = _
    rw [Int.floor_intCast, Int.ceil_intCast, ite_self, toInt64_of_nonneg hnonneg]
  · next hlarge =>
    have hout : ¬ k' < 2 ^ 63 := by
      intro hlt
      refine hlarge (lt_trans (show (k' : ℚ) < 2 ^ 63 from by exact_mod_cast hlt) ?_)
      exact pow_lt_pow_right₀ one_lt_two (by decide)
    rw [if_neg hout]
    rfl

/-- What the backoff is, with the doubled first backoff as an integer. -/
theorem backoffFor_eq (h : Doubles p) {attempt : UInt32} {k : ℤ}
    (hk : nearest p.initialBackoff * 2 ^ (attempt.toNat - 1) = k) :
    p.backoffFor attempt = if k < 2 ^ 63 then min p.maxBackoff k else -2 ^ 63 := by
  have henabled : p.isDisabled = false := decide_eq_false (not_le.mpr h.initial)
  have hmax : 0 < p.maxBackoff := h.initial.trans_le h.capped
  rw [backoffFor, henabled, h.toDuration_scaled hk]
  simp only [Bool.false_eq_true, if_false, hmax, true_and]
  by_cases hlt : k < 2 ^ 63
  · simp only [hlt, if_true]
    split
    · next hcap => rw [min_eq_left hcap.le]
    · next hcap => rw [min_eq_right (not_lt.mp hcap)]
  · have hnegative : ¬ p.maxBackoff < -2 ^ 63 := not_lt.mpr (le_trans (by decide) hmax.le)
    simp only [hlt, if_false, hnegative]

end Doubles

/-- The double of the attempt as an integer. -/
theorem inRange_iff {attempt : UInt32} {k : ℤ}
    (hk : nearest p.initialBackoff * 2 ^ (attempt.toNat - 1) = k) :
    InRange p attempt ↔ k < 2 ^ 63 ∧ (k = p.initialBackoff * 2 ^ (attempt.toNat - 1) ∨
      p.maxBackoff ≤ p.initialBackoff * 2 ^ (attempt.toNat - 1) ∧ p.maxBackoff ≤ k) := by
  have hexact : nearest p.initialBackoff = p.initialBackoff ↔
      k = p.initialBackoff * 2 ^ (attempt.toNat - 1) := by
    have hscale : (2 : ℚ) ^ (attempt.toNat - 1) ≠ 0 := pow_ne_zero _ two_ne_zero
    rw [← mul_left_inj' hscale, hk]
    norm_cast
  constructor
  · rintro ⟨hlt, hexact'⟩
    rw [hk, hexact] at hexact'
    rw [hk] at hlt
    exact ⟨by exact_mod_cast hlt, hexact'.imp_right (And.imp_right (by exact_mod_cast ·))⟩
  · rintro ⟨hlt, hexact'⟩
    refine ⟨?_, ?_⟩
    · rw [hk]
      exact_mod_cast hlt
    · rw [hk, hexact]
      exact hexact'.imp_right (And.imp_right (by exact_mod_cast ·))

theorem min_eq_min_iff {m k n : ℤ} : min m k = min m n ↔ k = n ∨ m ≤ n ∧ m ≤ k := by
  omega

/-- **Backoff**: under a policy that doubles, the wait of an attempt is the exponential one exactly if
its double is in range, and then it is positive, not below the first backoff, and at most the wait of
every later attempt of which the same holds. -/
theorem backoffFor_eq_iff (h : Doubles p) {attempt : UInt32} (hattempt : 1 ≤ attempt) :
    (p.backoffFor attempt = exponential p attempt ↔ InRange p attempt) ∧
    (InRange p attempt → 0 < p.backoffFor attempt ∧ p.initialBackoff ≤ p.backoffFor attempt ∧
      ∀ later, attempt ≤ later → InRange p later → p.backoffFor attempt ≤ p.backoffFor later) := by
  have hmax : 0 < p.maxBackoff := h.initial.trans_le h.capped
  have hpower : ∀ n : ℕ, p.initialBackoff ≤ p.initialBackoff * 2 ^ n := fun n =>
    le_mul_of_one_le_right h.initial.le (one_le_pow₀ one_le_two)
  have hiff : ∀ attempt, p.backoffFor attempt = exponential p attempt ↔ InRange p attempt := by
    intro attempt
    obtain ⟨-, k, hnonneg, hk⟩ := h.exists_scaled (attempt.toNat - 1)
    have hpositive : 0 < exponential p attempt := lt_min hmax (h.initial.trans_le (hpower _))
    rw [inRange_iff hk, h.backoffFor_eq hk]
    split
    · next hlt =>
      rw [exponential, min_eq_min_iff]
      exact (and_iff_right hlt).symm
    · next hlt =>
      refine iff_of_false ?_ fun hin => hlt hin.1
      exact ((show (-2 ^ 63 : ℤ) < 0 by decide).trans hpositive).ne
  refine ⟨hiff attempt, fun hin => ?_⟩
  rw [(hiff attempt).mpr hin]
  refine ⟨lt_min hmax (h.initial.trans_le (hpower _)), le_min h.capped (hpower _), fun later hle hlater => ?_⟩
  rw [(hiff later).mpr hlater]
  refine min_le_min_left _ (mul_le_mul_of_nonneg_left ?_ h.initial.le)
  exact pow_le_pow_right₀ one_le_two (Nat.sub_le_sub_right (UInt32.le_iff_toNat_le.mp hle) 1)

/-- The default policy doubles a second. -/
theorem doubles_default : Doubles (defaultReconnectPolicy : ReconnectPolicy Binary64) :=
  ⟨rfl, by decide, by decide, by decide⟩

theorem default_doubled (n : ℕ) :
    nearest (defaultReconnectPolicy : ReconnectPolicy Binary64).initialBackoff * 2 ^ n =
      ((second * 2 ^ n : ℤ) : ℚ) := by
  have hexact : nearest (second : ℤ) = (second : ℤ) := nearest_eq_self (representable_intCast (by decide))
  rw [show (defaultReconnectPolicy : ReconnectPolicy Binary64).initialBackoff = second from rfl, hexact]
  push_cast
  rfl

/-- Under the default policy the second attempt waits for two seconds. -/
theorem backoffFor_eq_iff_second :
    (defaultReconnectPolicy : ReconnectPolicy Binary64).backoffFor 2 = 2 * second := by
  have hin : InRange (defaultReconnectPolicy : ReconnectPolicy Binary64) 2 :=
    (inRange_iff (default_doubled _)).mpr ⟨by decide, .inl rfl⟩
  exact ((backoffFor_eq_iff doubles_default (by decide)).1.mpr hin).trans (by decide)

/-- From the thirty-fifth attempt on, the default policy does not wait. -/
theorem default_policy_stops_waiting :
    ¬ ∀ p : ReconnectPolicy Binary64, Doubles p → ∀ attempt : UInt32, 1 ≤ attempt →
      p.backoffFor attempt = exponential p attempt := by
  intro hall
  have hwait := hall defaultReconnectPolicy doubles_default 35 (by decide)
  rw [doubles_default.backoffFor_eq (default_doubled _)] at hwait
  exact absurd hwait (by decide)

end ReconnectPolicy

end AgentHostProtocol.Go.Hosts
