import AgentHostProtocol.Library.Rfc3339

/-!
# Timestamps

`addMillisecondsToTimestamp` on top of JavaScript's `Date`. The language fixes
`Date.parse` on the ISO 8601 format and leaves it to the implementation on other
strings, so the latter is a parameter, `legacyParse`.
-/

namespace AgentHostProtocol

open Library

/-- `Date.parse`; `none` is `NaN`. -/
def dateParse (legacyParse : String → Option ℤ) (timestamp : String) : Option ℤ :=
  (Rfc3339.millis? timestamp).or (legacyParse timestamp)

/-- The largest time value of a `Date`, in milliseconds. -/
def maxTimeValue : ℤ := 8640000000000000

/-- `new Date(t).toISOString()`; `none` is a `RangeError`. -/
def toISOString (t : ℤ) : Option String :=
  if -maxTimeValue ≤ t ∧ t ≤ maxTimeValue then some (Rfc3339.text t) else none

/-- `addMillisecondsToTimestamp`; `none` is a `RangeError`. -/
def addMillisecondsToTimestamp (legacyParse : String → Option ℤ) (timestamp : String)
    (duration : ℤ) : Option String :=
  (dateParse legacyParse timestamp).bind fun t => toISOString (t + duration)

/-- On a timestamp of the ISO format the implementation has no say. -/
theorem addMillisecondsToTimestamp_of_millis {legacyParse : String → Option ℤ} {timestamp : String}
    {t : ℤ} (h : Rfc3339.millis? timestamp = some t) (duration : ℤ) :
    addMillisecondsToTimestamp legacyParse timestamp duration = toISOString (t + duration) := by
  simp [addMillisecondsToTimestamp, dateParse, h]

end AgentHostProtocol
