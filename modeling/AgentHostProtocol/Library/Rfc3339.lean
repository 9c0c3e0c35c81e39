import Mathlib.Data.Int.Basic
import Mathlib.Data.List.Basic

/-!
# RFC 3339 timestamps with milliseconds

The instants of the proleptic Gregorian calendar, counted in milliseconds from
1970-01-01T00:00:00Z, and their text `YYYY-MM-DDTHH:MM:SS.mmm` followed by `Z` or a
numeric offset.

A calendar year is taken to begin in March, so that the leap day comes last; `400`
such years are `146097` days.
-/

namespace AgentHostProtocol.Library.Rfc3339

/-! ### The calendar -/

/-- Whether February has 29 days in year `y`. -/
def isLeap (y : ℤ) : Bool := y % 4 = 0 && (y % 100 ≠ 0 || y % 400 = 0)

/-- The number of days of month `m` of year `y`. -/
def daysInMonth (y m : ℤ) : ℤ :=
  if m = 2 then (if isLeap y then 29 else 28)
  else if m = 4 ∨ m = 6 ∨ m = 9 ∨ m = 11 then 30 else 31

/-- The number of days from 1970-01-01 to day `d` of month `m` of year `y`. -/
def daysFromCivil (y m d : ℤ) : ℤ :=
  let y := if m ≤ 2 then y - 1 else y
  let mp := if m ≤ 2 then m + 9 else m - 3
  let yoe := y % 400
  146097 * (y / 400) + (365 * yoe + yoe / 4 - yoe / 100 + ((153 * mp + 2) / 5 + d - 1)) - 719468

/-- The year, month and day that are `z` days after 1970-01-01. -/
def civilFromDays (z : ℤ) : ℤ × ℤ × ℤ :=
  let doe := (z + 719468) % 146097
  let c := min (doe / 36524) 3
  let doc := doe - 36524 * c
  let q := doc / 1461
  let doq := doc - 1461 * q
  let yq := min (doq / 365) 3
  let doy := doq - 365 * yq
  let mp := (5 * doy + 2) / 153
  let d := doy - (153 * mp + 2) / 5 + 1
  let y := 400 * ((z + 719468) / 146097) + 100 * c + 4 * q + yq
  if mp < 10 then (y, mp + 3, d) else (y + 1, mp - 9, d)

/-- The milliseconds of a day. -/
def dayMillis : ℤ := 86400000

/-! ### Text -/

/-- The decimal digit `v`. -/
def digitChar (v : ℕ) : Char := Char.ofNat (48 + v)

/-- The value of a decimal digit. -/
def digit? (c : Char) : Option ℕ := if '0' ≤ c ∧ c ≤ '9' then some (c.toNat - 48) else none

/-- `v` in exactly `w` digits. -/
def pad : ℕ → ℕ → List Char
  | 0, _ => []
  | w + 1, v => digitChar (v / 10 ^ w) :: pad w (v % 10 ^ w)

/-- Read exactly `w` digits after the value `acc`. -/
def digits : ℕ → ℕ → List Char → Option (ℕ × List Char)
  | 0, acc, cs => some (acc, cs)
  | _ + 1, _, [] => none
  | w + 1, acc, c :: cs => (digit? c).bind fun d => digits w (10 * acc + d) cs

/-- Read the character `c`. -/
def char (c : Char) : List Char → Option (List Char)
  | [] => none
  | x :: cs => if x = c then some cs else none

/-- The offset from UTC in minutes: `Z`, or a sign with hours and minutes. -/
def offset (cs : List Char) : Option ℤ :=
  if cs = ['Z'] then some 0 else do
    let sign ← cs.head?
    let (h, cs) ← digits 2 0 cs.tail
    let cs ← char ':' cs
    let (m, cs) ← digits 2 0 cs
    if cs = [] ∧ h < 24 ∧ m < 60 then
      if sign = '+' then some (60 * h + m) else if sign = '-' then some (-(60 * h + m : ℤ)) else none
    else none

/-- The instant of a timestamp text, `none` if the text is not an RFC 3339
timestamp with milliseconds. -/
def millis? (text : String) : Option ℤ := do
  let (y, cs) ← digits 4 0 text.toList
  let cs ← char '-' cs
  let (mo, cs) ← digits 2 0 cs
  let cs ← char '-' cs
  let (d, cs) ← digits 2 0 cs
  let cs ← char 'T' cs
  let (h, cs) ← digits 2 0 cs
  let cs ← char ':' cs
  let (mi, cs) ← digits 2 0 cs
  let cs ← char ':' cs
  let (s, cs) ← digits 2 0 cs
  let cs ← char '.' cs
  let (ms, cs) ← digits 3 0 cs
  let off ← offset cs
  if 1 ≤ mo ∧ mo ≤ 12 ∧ 1 ≤ d ∧ (d : ℤ) ≤ daysInMonth y mo ∧ h < 24 ∧ mi < 60 ∧ s < 60 then
    some (dayMillis * daysFromCivil y mo d + (3600000 * h + 60000 * (mi - off) + 1000 * s + ms))
  else none

/-- The digits of a year: four, or a sign and six outside `0..9999`. -/
def yearChars (y : ℤ) : List Char :=
  if 0 ≤ y ∧ y ≤ 9999 then pad 4 y.toNat
  else (if y < 0 then '-' else '+') :: pad 6 y.natAbs

/-- The text of an instant, in UTC. -/
def text (t : ℤ) : String :=
  let (y, m, d) := civilFromDays (t / dayMillis)
  let r := (t % dayMillis).toNat
  String.ofList (yearChars y ++ '-' :: (pad 2 m.toNat ++ '-' :: (pad 2 d.toNat ++ 'T' ::
    (pad 2 (r / 3600000) ++ ':' :: (pad 2 (r / 60000 % 60) ++ ':' :: (pad 2 (r / 1000 % 60) ++
      '.' :: (pad 3 (r % 1000) ++ ['Z'])))))))

example : millis? "2025-03-10T18:42:03.123Z" = some 1741632123123 := by decide

example : text 1741632123123 = "2025-03-10T18:42:03.123Z" := by decide

end AgentHostProtocol.Library.Rfc3339
