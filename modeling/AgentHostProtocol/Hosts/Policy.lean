import Mathlib.Algebra.Order.Field.Rat
import Mathlib.Algebra.Order.Ring.Rat
import Mathlib.Tactic.Linarith

/-!
# Reconnect policies

The backoff schedule of a host and the number of attempts it is given. A JavaScript number is
a rational here: nothing below depends on how a delay is rounded.
-/

namespace AgentHostProtocol.Hosts

/-- Backoff schedule between reconnect attempts, in milliseconds. -/
inductive Backoff where
  | immediate
  | constant (delayMs : ℚ)
  | exponential (initialMs maxMs multiplier : ℚ)
  deriving DecidableEq

/-- The delay before the `attempt`-th retry. -/
def backoffDelayForAttempt (backoff : Backoff) (attempt : ℕ) : ℚ :=
  let safeAttempt := max 1 attempt
  match backoff with
  | .immediate => 0
  | .constant delayMs => max 0 delayMs
  | .exponential initialMs maxMs multiplier =>
    min (max 0 (initialMs * max 1 multiplier ^ (safeAttempt - 1))) maxMs

/-- Reconnect behaviour for a single host. -/
structure ReconnectPolicy where
  backoff : Backoff
  jitter : ℚ
  /-- `none` is `null`: retry forever. -/
  maxAttempts : Option ℚ
  resetOnSuccess : Bool
  deriving DecidableEq

/-- The delay before the `attempt`-th retry, with jitter by a random sample. -/
def delayWithJitter (policy : ReconnectPolicy) (attempt : ℕ) (sample : ℚ) : ℚ :=
  let base := backoffDelayForAttempt policy.backoff attempt
  if policy.jitter ≤ 0 ∨ base = 0 then base
  else
    let jitter := min 1 (max 0 policy.jitter)
    let clamped := min 1 (max 0 sample)
    max 0 (base * (1 + (clamped * 2 - 1) * jitter))

/-- Whether `attempt` exceeds the policy's `maxAttempts`. -/
def attemptsExhausted (policy : ReconnectPolicy) (attempt : ℕ) : Bool :=
  match policy.maxAttempts with
  | none => false
  | some maxAttempts => maxAttempts < attempt

/-- Disables reconnects. -/
def disabledPolicy : ReconnectPolicy where
  backoff := .immediate
  jitter := 0
  maxAttempts := some 0
  resetOnSuccess := true

variable {policy : ReconnectPolicy} {attempt : ℕ} {sample : ℚ}

/-- A jittered delay stays within the jitter of the delay it is made from. -/
theorem delayWithJitter_mem (hbase : 0 ≤ backoffDelayForAttempt policy.backoff attempt) :
    backoffDelayForAttempt policy.backoff attempt * (1 - min 1 (max 0 policy.jitter)) ≤
        delayWithJitter policy attempt sample ∧
      delayWithJitter policy attempt sample ≤
        backoffDelayForAttempt policy.backoff attempt * (1 + min 1 (max 0 policy.jitter)) := by
  unfold delayWithJitter
  generalize backoffDelayForAttempt policy.backoff attempt = base at *
  have hj0 : 0 ≤ min 1 (max 0 policy.jitter) := le_min zero_le_one (le_max_left _ _)
  have hj1 : min 1 (max 0 policy.jitter) ≤ 1 := min_le_left _ _
  have hc0 : 0 ≤ min 1 (max 0 sample) := le_min zero_le_one (le_max_left _ _)
  have hc1 : min 1 (max 0 sample) ≤ 1 := min_le_left _ _
  generalize min 1 (max 0 policy.jitter) = j at *
  generalize min 1 (max 0 sample) = c at *
  dsimp only
  split
  · constructor
    · exact mul_le_of_le_one_right hbase (by linarith)
    · exact le_mul_of_one_le_right hbase (by linarith)
  · have hcj0 : 0 ≤ c * j := mul_nonneg hc0 hj0
    have hcj1 : c * j ≤ j := mul_le_of_le_one_left hj0 hc1
    have hlow : 1 - j ≤ 1 + (c * 2 - 1) * j := by linarith
    have hhigh : 1 + (c * 2 - 1) * j ≤ 1 + j := by linarith
    refine ⟨le_max_of_le_right (mul_le_mul_of_nonneg_left hlow hbase), max_le ?_ ?_⟩
    · exact mul_nonneg hbase (by linarith)
    · exact mul_le_mul_of_nonneg_left hhigh hbase

/-- A policy without attempts is exhausted by the first. -/
theorem attemptsExhausted_zero (hmax : policy.maxAttempts = some 0) (hattempt : 0 < attempt) :
    attemptsExhausted policy attempt = true := by
  simpa [attemptsExhausted, hmax] using hattempt

theorem le_of_not_attemptsExhausted {maxAttempts : ℚ} (hmax : policy.maxAttempts = some maxAttempts)
    (h : attemptsExhausted policy attempt = false) : (attempt : ℚ) ≤ maxAttempts := by
  simpa [attemptsExhausted, hmax] using h

end AgentHostProtocol.Hosts
