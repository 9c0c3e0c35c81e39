import AgentHostProtocol.Library.Record
import Mathlib.Data.BitVec

/-!
# Values on the wire

The protocol's types are declared once, in TypeScript, and the other SDKs' types are
generated from them. A TypeScript union is closed; the generated one has a further
variant that keeps the raw JSON of anything the SDK does not know. Here such a type
takes the type `U` of those raw values: `T Empty` is the closed union the TypeScript
reducers are written against, `T U` the open one.

An optional field is an `Option`. A part of a value that no reducer looks into is a
`Json`.
-/

namespace AgentHostProtocol

open Library

/-- A JSON value that is copied as a whole. -/
structure Json where
  /-- Its text. -/
  text : String
  deriving DecidableEq

/-- `URI = string`. -/
abbrev URI := String

/-- A message that initiates or steers a turn. -/
abbrev Message := Json

/-- Token usage of a turn. -/
abbrev UsageInfo := Json

/-- Details of an error. -/
abbrev ErrorInfo := Json

/-- `_meta`: provider-specific metadata. -/
abbrev Meta := Json

/-- `StringOrMarkdown`. -/
inductive StringOrMarkdown where
  /-- A plain string. -/
  | plain (text : String)
  /-- `{ markdown }`. -/
  | markdown (source : String)
  deriving DecidableEq

/-- A raw value of an unknown variant whose `id`, if it is a string, can be read. -/
class RawId (U : Type) where
  /-- The string under the key `id`. -/
  id? : U → Option String

instance : RawId Empty := ⟨nofun⟩

/-- Raw objects of strings. -/
instance : RawId (Record String) := ⟨fun raw => raw.get? "id"⟩

/-! ### Session status -/

/-- `SessionStatus`: a bit set. The bit operators of both languages act on 32-bit
words. -/
abbrev SessionStatus := BitVec 32

namespace SessionStatus

/-- No turn is active. -/
def idle : SessionStatus := 1#32

/-- Ended with an error. -/
def error : SessionStatus := 2#32

/-- A turn is actively streaming. -/
def inProgress : SessionStatus := 8#32

/-- A turn is in progress but blocked: `(1 << 3) | (1 << 4)`. -/
def inputNeeded : SessionStatus := 24#32

/-- Viewed since the last modification. -/
def isRead : SessionStatus := 32#32

/-- Archived by the client. -/
def isArchived : SessionStatus := 64#32

/-- `STATUS_ACTIVITY_MASK`: the mutually exclusive activity bits, `(1 << 5) - 1`. -/
def activityMask : SessionStatus := 31#32

/-- The activity bits of a status. -/
def activity (status : SessionStatus) : SessionStatus := status &&& activityMask

/-- `withStatusFlag`: sets or clears a metadata flag on a status value. -/
def withStatusFlag (status flag : SessionStatus) (set : Bool) : SessionStatus :=
  if set then status ||| flag else status &&& ~~~flag

end SessionStatus

end AgentHostProtocol
