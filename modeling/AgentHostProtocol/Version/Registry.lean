import AgentHostProtocol.Library.Binary64
import AgentHostProtocol.Library.Decimal

/-!
# The version registry

How the versions that a client offers in `initialize` are read, compared and chosen from. The
components of a version are JavaScript numbers, in double precision.
-/

namespace AgentHostProtocol.Version

open Library

/-- A JavaScript number. -/
abbrev Number := Binary64

/-- `Number(digits)`. -/
def Number.ofDigits (digits : List Char) : Number := .ofRat (Nat.ofDigitChars 10 digits 0)

/-- `x || y`: zero and `NaN` are falsy. -/
def Number.or (x y : Number) : Number :=
  if x = .finite 0 ∨ x = .nan then y else x

/-! ### Reading and comparing -/

/-- A dot, and what follows. -/
def dot : List Char → Option (List Char)
  | '.' :: rest => some rest
  | _ => none

/-- The groups of `^(0|[1-9]\d*)\.(0|[1-9]\d*)\.(0|[1-9]\d*)$`, which match in one way if at all. -/
def groups (cs : List Char) : Option (List Char × List Char × List Char) := do
  let (major, rest) ← readDecimal cs
  let (minor, rest) ← readDecimal (← dot rest)
  let (patch, rest) ← readDecimal (← dot rest)
  if rest = [] then some (major, minor, patch) else none

def parseSemver (version : String) : Except String (Number × Number × Number) :=
  match groups version.toList with
  | some (major, minor, patch) => .ok (.ofDigits major, .ofDigits minor, .ofDigits patch)
  | none => .error ("Invalid protocol version: " ++ version)

def compareProtocolVersions (a b : String) : Except String Number := do
  let (aMajor, aMinor, aPatch) ← parseSemver a
  let (bMajor, bMinor, bPatch) ← parseSemver b
  return Number.or (Number.or (aMajor.sub bMajor) (aMinor.sub bMinor)) (aPatch.sub bPatch)

/-! ### Negotiating -/

def SUPPORTED_PROTOCOL_VERSIONS : List String := ["1.0.0", "0.9.0"]

/-- `0`. -/
def zero : Number := .finite 0

/-- Whether an offered version is in the caret range of a baseline. -/
def compatible (version : String) (parts : Number × Number × Number) (baseline : String) :
    Except String Bool := do
  let (major, minor, patch) := parts
  let (baseMajor, baseMinor, basePatch) ← parseSemver baseline
  if major.beq baseMajor && (zero.lt major || minor.beq baseMinor) &&
      (zero.lt major || zero.lt minor || patch.beq basePatch) then
    return zero.le (← compareProtocolVersions version baseline)
  else return false

/-- One offer, against the version selected among the earlier ones. -/
def consider (selected : Option String) (version : String) : Except String (Option String) := do
  let parts ← parseSemver version
  if ← SUPPORTED_PROTOCOL_VERSIONS.anyM (compatible version parts) then
    match selected with
    | none => return some version
    | some best =>
      return if zero.lt (← compareProtocolVersions version best) then some version else selected
  else return selected

def negotiateProtocolVersion (offered : List String) : Except String (Option String) :=
  offered.foldlM consider none

end AgentHostProtocol.Version
