import Mathlib.Data.Nat.Notation
import Mathlib.Data.Int.Notation

/-!
# Reconnect policies of the .NET client

`ReconnectPolicy` and the wait before a retry. A `TimeSpan` is a number of ticks. The arithmetic of
`double` is a parameter: nothing here depends on how a product is rounded.
-/

namespace AgentHostProtocol.Dotnet.Hosts

/-- `TimeSpan`, in ticks. -/
abbrev TimeSpan := ℤ

/-- The operations of `double` that a policy uses. -/
class Double (F : Type) where
  /-- `(double)n`. -/
  ofInt : ℤ → F
  /-- `(long)x`. -/
  toInt : F → ℤ
  /-- `x < y`. -/
  lt : F → F → Bool
  /-- `x <= y`. -/
  le : F → F → Bool
  add : F → F → F
  sub : F → F → F
  mul : F → F → F

/-- Arithmetic that is exact, as `double` is on small integers. -/
instance exactDouble : Double ℤ where
  ofInt n := n
  toInt x := x
  lt x y := x < y
  le x y := x ≤ y
  add x y := x + y
  sub x y := x - y
  mul x y := x * y

/-- Controls reconnects after an unexpected drop. -/
structure ReconnectPolicy (F : Type) where
  /-- The cap on consecutive retries; zero means unlimited. -/
  maxAttempts : UInt32
  initialBackoff : TimeSpan
  maxBackoff : TimeSpan
  backoffMultiplier : F
  jitter : F
  deriving DecidableEq

namespace ReconnectPolicy

open Double

variable {F : Type} [Double F]

/-- The ticks of a second. -/
def second : TimeSpan := 10000000

/-- `Default`. -/
def default : ReconnectPolicy F where
  maxAttempts := 0
  initialBackoff := second
  maxBackoff := 30 * second
  backoffMultiplier := ofInt 2
  jitter := ofInt 0

/-- `Disabled`. -/
def disabled : ReconnectPolicy F where
  maxAttempts := 0
  initialBackoff := 0
  maxBackoff := 0
  backoffMultiplier := ofInt 2
  jitter := ofInt 0

/-- `IsDisabled`. -/
def isDisabled (p : ReconnectPolicy F) : Bool := p.initialBackoff ≤ 0

/-- The factor of one retry, `mult` of `BackoffFor`. -/
def multiplier (p : ReconnectPolicy F) : F :=
  if le p.backoffMultiplier (ofInt 0) then ofInt 1 else p.backoffMultiplier

/-- The loop of `BackoffFor` with `n` rounds to go. -/
def scaled (p : ReconnectPolicy F) : ℕ → F → F
  | 0, b => b
  | n + 1, b =>
    let b := mul b (multiplier p)
    if 0 < p.maxBackoff ∧ le (ofInt p.maxBackoff) b then ofInt p.maxBackoff else scaled p n b

/-- A wait is cut to `MaxBackoff`, if there is one. -/
def capped (p : ReconnectPolicy F) (wait : TimeSpan) : TimeSpan :=
  if 0 < p.maxBackoff ∧ p.maxBackoff < wait then p.maxBackoff else wait

/-- `Clamp(Jitter, 0.0, 1.0)`. -/
def clampedJitter (p : ReconnectPolicy F) : F :=
  if lt p.jitter (ofInt 0) then ofInt 0 else if lt (ofInt 1) p.jitter then ofInt 1 else p.jitter

/-- `BackoffFor`, with what `NextDouble` returns. -/
def backoffFor (p : ReconnectPolicy F) (sample : F) (attempt : UInt32) : TimeSpan :=
  if p.isDisabled then 0
  else
    let wait := capped p (toInt (scaled p (attempt.toNat - 1) (ofInt p.initialBackoff)))
    if lt (ofInt 0) p.jitter then
      let factor := add (ofInt 1) (mul (sub (mul sample (ofInt 2)) (ofInt 1)) (clampedJitter p))
      capped p (max 0 (toInt (mul (ofInt wait) factor)))
    else wait

/-- The default policy waits a second, two, four, and so on up to thirty. -/
example : [1, 2, 3, 6, 7].map ((default : ReconnectPolicy ℤ).backoffFor 0) =
    [second, 2 * second, 4 * second, 30 * second, 30 * second] := by decide

end ReconnectPolicy

end AgentHostProtocol.Dotnet.Hosts
