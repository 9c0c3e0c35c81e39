import Mathlib.Data.Nat.Notation
import Mathlib.Data.Int.Notation

/-!
# Reconnect policies of the Go client

`ReconnectPolicy` and the wait before a retry. A `time.Duration` is an integer number of
nanoseconds. The arithmetic of `float64` is a parameter: nothing here depends on how a product
is rounded.
-/

namespace AgentHostProtocol.Go.Hosts

/-- `time.Duration`. -/
abbrev Duration := ℤ

/-- The operations of `float64` that a policy uses. -/
class Float64 (F : Type) where
  /-- `x == 0`. -/
  isZero : F → Bool
  /-- `x <= 0`. -/
  nonpositive : F → Bool
  /-- `1`. -/
  one : F
  /-- `2.0`. -/
  two : F
  /-- `x * y`. -/
  mul : F → F → F
  /-- `float64(d)`. -/
  ofDuration : Duration → F
  /-- `time.Duration(x)`. -/
  toDuration : F → Duration

/-- Arithmetic that is exact, as `float64` is on small integers. -/
instance exactFloat : Float64 ℤ where
  isZero x := x = 0
  nonpositive x := x ≤ 0
  one := 1
  two := 2
  mul x y := x * y
  ofDuration d := d
  toDuration x := x

/-- Controls how aggressively a host retries after an unexpected drop. -/
structure ReconnectPolicy (F : Type) where
  /-- The cap on consecutive retries; zero means unlimited. -/
  maxAttempts : UInt32
  initialBackoff : Duration
  maxBackoff : Duration
  backoffMultiplier : F
  resetOnSuccess : Bool
  deriving DecidableEq

namespace ReconnectPolicy

variable {F : Type} [Float64 F]

/-- `time.Second`. -/
def second : Duration := 1000000000

/-- `DefaultReconnectPolicy`. -/
def defaultReconnectPolicy : ReconnectPolicy F where
  maxAttempts := 0
  initialBackoff := second
  maxBackoff := 30 * second
  backoffMultiplier := Float64.two
  resetOnSuccess := true

/-- `cfg.ReconnectPolicy == (ReconnectPolicy{})`. -/
def isZeroValue (p : ReconnectPolicy F) : Bool :=
  p.maxAttempts = 0 && p.initialBackoff = 0 && p.maxBackoff = 0 &&
    Float64.isZero p.backoffMultiplier && !p.resetOnSuccess

/-- `IsDisabled`. -/
def isDisabled (p : ReconnectPolicy F) : Bool := p.initialBackoff ≤ 0

/-- The factor of one retry, `mult` of `backoffFor`. -/
def multiplier (p : ReconnectPolicy F) : F :=
  if Float64.nonpositive p.backoffMultiplier then Float64.one else p.backoffMultiplier

/-- The backoff after `n` rounds of the loop of `backoffFor`. -/
def scaled (p : ReconnectPolicy F) : ℕ → F
  | 0 => Float64.ofDuration p.initialBackoff
  | n + 1 => Float64.mul (scaled p n) (multiplier p)

/-- `backoffFor`. -/
def backoffFor (p : ReconnectPolicy F) (attempt : UInt32) : Duration :=
  if p.isDisabled then 0
  else
    let cap := Float64.toDuration (scaled p (attempt.toNat - 1))
    if 0 < p.maxBackoff ∧ p.maxBackoff < cap then p.maxBackoff else cap

/-- The policy under which `AddHost` supervises a host that is given `p`. -/
def registered (p : ReconnectPolicy F) : ReconnectPolicy F :=
  if p.isZeroValue then defaultReconnectPolicy else p

end ReconnectPolicy

end AgentHostProtocol.Go.Hosts
