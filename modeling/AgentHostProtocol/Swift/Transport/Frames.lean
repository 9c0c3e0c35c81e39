import AgentHostProtocol.Library.BigEndian
import AgentHostProtocol.Library.Incremental

/-!
# The frames of the Swift WebSocket transport

`parseFrameFromBuffer` takes one frame off `readBuffer`, `makeClientFrame` writes one. `Int` has 64
bits; a sum that is too large for it stops the process, and a frame whose length comes near
`Int.max` reaches that sum.

**What is proved**

* `incremental_parse` — bytes that come later change nothing of what the parser said of those before.
* `frames_of_sent` — the frames that were sent are parsed back, whatever the keys of their masks,
  and no front of a frame is taken for a frame.
-/

namespace AgentHostProtocol.Swift.WebSocket

open Library

/-- `Int.max`. -/
def intMax : ℕ := 2 ^ 63 - 1

/-- The key of a mask. -/
abbrev MaskKey := { key : List UInt8 // key.length = 4 }

/-- The bytes with the key laid over them. -/
def mask (key : MaskKey) (bytes : List UInt8) : List UInt8 :=
  bytes.mapIdx fun i b => b ^^^ key.1.getD (i % 4) 0

/-- `ParsedFrame`. -/
structure ParsedFrame where
  fin : Bool
  opcode : UInt8
  payload : List UInt8
  deriving DecidableEq

/-- Why a frame cannot be parsed. -/
inductive ParseError where
  | unsupportedFrameLength (length : ℕ)
  /-- `index + payloadCount` is larger than `Int.max`, which stops the process. -/
  | overflow
  deriving DecidableEq

/-! ### Parsing -/

/-- The payload length and the index behind it, `none` while bytes of it are missing. -/
def payloadLength (readBuffer : List UInt8) (secondByte : UInt8) : Option (ℕ × ℕ) :=
  if secondByte &&& 0x7F = 126 then
    if readBuffer.length < 4 then none else some (bigEndian ((readBuffer.drop 2).take 2), 4)
  else if secondByte &&& 0x7F = 127 then
    if readBuffer.length < 10 then none else some (bigEndian ((readBuffer.drop 2).take 8), 10)
  else some ((secondByte &&& 0x7F).toNat, 2)

/-- The key of the mask, if there is one, and the index behind it, `none` while bytes of it are
missing. -/
def maskKey (readBuffer : List UInt8) (masked : Bool) (index : ℕ) : Option (Option MaskKey × ℕ) :=
  if masked then
    if h : index + 4 ≤ readBuffer.length then
      some (some ⟨(readBuffer.drop index).take 4, by simp; omega⟩, index + 4)
    else none
  else some (none, index)

/-- `parseFrameFromBuffer` from where the payload starts. -/
def parsePayload (readBuffer : List UInt8) (firstByte : UInt8) (length index : ℕ)
    (key : Option MaskKey) : Front ParsedFrame ParseError UInt8 :=
  if intMax < index + length then .failed .overflow
  else if readBuffer.length < index + length then .more
  else
    let payload := (readBuffer.drop index).take length
    .got
      { fin := firstByte &&& 0x80 ≠ 0
        opcode := firstByte &&& 0x0F
        payload := (key.map fun k => mask k payload).getD payload }
      (readBuffer.drop (index + length))

/-- `parseFrameFromBuffer`. -/
def parseFrameFromBuffer (readBuffer : List UInt8) : Front ParsedFrame ParseError UInt8 :=
  match readBuffer with
  | firstByte :: secondByte :: _ =>
    match payloadLength readBuffer secondByte with
    | none => .more
    | some (length, index) =>
      if intMax < length then .failed (.unsupportedFrameLength length)
      else
        match maskKey readBuffer (secondByte &&& 0x80 ≠ 0) index with
        | none => .more
        | some (key, index) => parsePayload readBuffer firstByte length index key
  | _ => .more

/-! ### Writing -/

/-- The length of a payload and the mask bit, in the shortest of three forms. -/
def lengthBytes (payloadCount : ℕ) : List UInt8 :=
  if payloadCount ≤ 125 then [0x80 ||| payloadCount.toUInt8]
  else if payloadCount ≤ 65535 then (0x80 ||| 126) :: bytesAt (byteShifts 2) payloadCount
  else (0x80 ||| 127) :: bytesAt (byteShifts 8) payloadCount

/-- `makeClientFrame`, with the key that it draws. -/
def makeClientFrame (opcode : UInt8) (payload : List UInt8) (key : MaskKey) : List UInt8 :=
  (0x80 ||| (opcode &&& 0x0F)) :: lengthBytes payload.length ++ key.1 ++ mask key payload

/-! ### Later bytes -/

theorem slice_append {b : List UInt8} {i n : ℕ} (h : i + n ≤ b.length) (c : List UInt8) :
    ((b ++ c).drop i).take n = (b.drop i).take n := by
  rw [List.drop_append_of_le_length (by omega), List.take_append_of_le_length (by simp; omega)]

theorem payloadLength_append {b : List UInt8} {secondByte : UInt8} {x : ℕ × ℕ}
    (h : payloadLength b secondByte = some x) (c : List UInt8) :
    payloadLength (b ++ c) secondByte = some x := by
  have hlen : (b ++ c).length = b.length + c.length := List.length_append
  unfold payloadLength at h ⊢
  split
  · next h126 =>
    rw [if_pos h126] at h
    split at h
    · cases h
    · next hshort => rw [if_neg (by omega), slice_append (by omega), h]
  · next h126 =>
    rw [if_neg h126] at h
    split
    · next h127 =>
      rw [if_pos h127] at h
      split at h
      · cases h
      · next hshort => rw [if_neg (by omega), slice_append (by omega), h]
    · next h127 => rw [if_neg h127] at h; exact h

theorem maskKey_append {b : List UInt8} {masked : Bool} {index : ℕ} {x : Option MaskKey × ℕ}
    (h : maskKey b masked index = some x) (c : List UInt8) : maskKey (b ++ c) masked index = some x := by
  unfold maskKey at h ⊢
  cases masked with
  | false => exact h
  | true =>
    rw [if_pos rfl] at h ⊢
    split at h
    · next hlen =>
      have hlen' : index + 4 ≤ (b ++ c).length := by rw [List.length_append]; omega
      rw [dif_pos hlen', ← h]
      simp only [slice_append hlen]
    · cases h

/-- What the parser needs of a buffer in which it finds a frame, or fails. -/
theorem parse_cases {b : List UInt8} (h : parseFrameFromBuffer b ≠ .more) :
    ∃ firstByte secondByte tail length index, b = firstByte :: secondByte :: tail ∧
      payloadLength b secondByte = some (length, index) ∧
      (intMax < length ∧ parseFrameFromBuffer b = .failed (.unsupportedFrameLength length) ∨
        ¬ intMax < length ∧ ∃ key start, maskKey b (secondByte &&& 0x80 ≠ 0) index = some (key, start) ∧
          parseFrameFromBuffer b = parsePayload b firstByte length start key) := by
  match b, h with
  | [], h => exact absurd rfl h
  | [_], h => exact absurd rfl h
  | firstByte :: secondByte :: tail, h =>
    unfold parseFrameFromBuffer at h ⊢
    simp only at h ⊢
    cases hlen : payloadLength (firstByte :: secondByte :: tail) secondByte with
    | none => rw [hlen] at h; exact absurd rfl h
    | some x =>
      obtain ⟨length, index⟩ := x
      rw [hlen] at h
      simp only at h
      refine ⟨firstByte, secondByte, tail, length, index, rfl, hlen, ?_⟩
      by_cases hmax : intMax < length
      · simp only [if_pos hmax]
        exact .inl ⟨hmax, trivial⟩
      · simp only [if_neg hmax] at h ⊢
        cases hkey : maskKey (firstByte :: secondByte :: tail) (secondByte &&& 0x80 ≠ 0) index with
        | none => rw [hkey] at h; exact absurd rfl h
        | some y => exact .inr ⟨hmax, y.1, y.2, rfl, rfl⟩

theorem parsePayload_failed {b : List UInt8} {firstByte : UInt8} {length index : ℕ} {key : Option MaskKey}
    {e : ParseError} (h : parsePayload b firstByte length index key = .failed e) (c : List UInt8) :
    parsePayload (b ++ c) firstByte length index key = .failed e := by
  unfold parsePayload at h ⊢
  split at h
  · next hmax => rw [if_pos hmax, h]
  · split at h <;> cases h

theorem parsePayload_got {b rest : List UInt8} {firstByte : UInt8} {length index : ℕ}
    {key : Option MaskKey} {frame : ParsedFrame}
    (h : parsePayload b firstByte length index key = .got frame rest) :
    index + length ≤ b.length ∧ rest = b.drop (index + length) ∧
      ∀ c, parsePayload (b ++ c) firstByte length index key = .got frame (rest ++ c) := by
  unfold parsePayload at h ⊢
  split at h
  · cases h
  · next hmax =>
    split at h
    · cases h
    · next hshort =>
      have hlen : index + length ≤ b.length := by omega
      cases h
      refine ⟨hlen, rfl, fun c => ?_⟩
      have hnot : ¬ (b ++ c).length < index + length := by rw [List.length_append]; omega
      rw [if_neg hmax, if_neg hnot, List.drop_append_of_le_length hlen]
      simp only [slice_append hlen]

theorem payloadLength_index {b : List UInt8} {secondByte : UInt8} {length index : ℕ}
    (h : payloadLength b secondByte = some (length, index)) : 2 ≤ index := by
  unfold payloadLength at h
  split at h
  · split at h <;> cases h
    decide
  · split at h
    · split at h <;> cases h
      decide
    · cases h
      exact Nat.le_refl 2

theorem maskKey_index {b : List UInt8} {masked : Bool} {index start : ℕ} {key : Option MaskKey}
    (h : maskKey b masked index = some (key, start)) : index ≤ start := by
  unfold maskKey at h
  split at h
  · split at h <;> cases h
    omega
  · cases h
    exact Nat.le_refl _

/-- The parser on a buffer of which it has read the fields before the payload. -/
theorem parse_append_of_fields {firstByte secondByte : UInt8} {tail : List UInt8} {length index : ℕ}
    (hlen : payloadLength (firstByte :: secondByte :: tail) secondByte = some (length, index))
    (c : List UInt8) :
    parseFrameFromBuffer (firstByte :: secondByte :: tail ++ c) =
      if intMax < length then .failed (.unsupportedFrameLength length)
      else
        match maskKey (firstByte :: secondByte :: tail ++ c) (secondByte &&& 0x80 ≠ 0) index with
        | none => .more
        | some (key, start) =>
          parsePayload (firstByte :: secondByte :: tail ++ c) firstByte length start key := by
  have hlen' := payloadLength_append hlen c
  rw [List.cons_append, List.cons_append] at hlen' ⊢
  unfold parseFrameFromBuffer
  simp only [hlen']

/-- **Later bytes** change nothing of what was parsed. -/
theorem incremental_parse : Incremental parseFrameFromBuffer where
  shorter := by
    intro b frame rest h
    obtain ⟨_, _, _, length, index, rfl, hlen, ⟨_, hp⟩ | ⟨_, key, start, hkey, hp⟩⟩ :=
      parse_cases (b := b) (by rw [h]; nofun)
    · rw [hp] at h
      cases h
    · rw [hp] at h
      obtain ⟨hle, rfl, -⟩ := parsePayload_got h
      have hindex := payloadLength_index hlen
      have hstart := maskKey_index hkey
      rw [List.length_drop]
      omega
  got_append := by
    intro b frame rest h c
    obtain ⟨_, _, _, length, index, rfl, hlen, ⟨_, hp⟩ | ⟨hmax, key, start, hkey, hp⟩⟩ :=
      parse_cases (b := b) (by rw [h]; nofun)
    · rw [hp] at h
      cases h
    · rw [hp] at h
      rw [parse_append_of_fields hlen, if_neg hmax, maskKey_append hkey]
      exact (parsePayload_got h).2.2 c
  failed_append := by
    intro b e h c
    obtain ⟨_, _, _, length, index, rfl, hlen, ⟨hmax, hp⟩ | ⟨hmax, key, start, hkey, hp⟩⟩ :=
      parse_cases (b := b) (by rw [h]; nofun)
    · rw [parse_append_of_fields hlen, if_pos hmax, ← h, hp]
    · rw [hp] at h
      rw [parse_append_of_fields hlen, if_neg hmax, maskKey_append hkey]
      exact parsePayload_failed h c

/-! ### What was written is parsed -/

theorem mask_mask (key : MaskKey) (bytes : List UInt8) : mask key (mask key bytes) = bytes := by
  unfold mask
  rw [List.mapIdx_mapIdx]
  apply List.ext_getElem
  · simp
  · intro i h _
    simp [UInt8.xor_assoc]

@[simp] theorem length_mask (key : MaskKey) (bytes : List UInt8) :
    (mask key bytes).length = bytes.length := List.length_mapIdx

theorem or_and_distrib (a b c : UInt8) : (a ||| b) &&& c = (a &&& c) ||| (b &&& c) :=
  UInt8.toBitVec_inj.mp BitVec.and_or_distrib_right

/-- The first byte of a frame says that it is final, and what it is. -/
theorem firstByte_bits (opcode : UInt8) :
    (0x80 ||| (opcode &&& 0x0F)) &&& 0x80 ≠ 0 ∧ (0x80 ||| (opcode &&& 0x0F)) &&& 0x0F = opcode &&& 0x0F := by
  constructor
  · have h : (0x0F : UInt8) &&& 0x80 = 0 := by decide
    rw [or_and_distrib, UInt8.and_assoc, h, UInt8.and_zero]
    decide
  · have h : (0x80 : UInt8) &&& 0x0F = 0 := by decide
    rw [or_and_distrib, UInt8.and_assoc, h, UInt8.zero_or, UInt8.and_self]

/-- The second byte of a frame with a short payload. -/
theorem secondByte_bits : ∀ n < 126,
    (0x80 ||| n.toUInt8) &&& 0x80 ≠ 0 ∧ (0x80 ||| n.toUInt8) &&& 0x7F ≠ 126 ∧
      (0x80 ||| n.toUInt8) &&& 0x7F ≠ 127 ∧ ((0x80 ||| n.toUInt8) &&& 0x7F).toNat = n := by
  decide

/-- The length that was written is read, whatever stands behind it. -/
theorem lengthBytes_read {n : ℕ} (h : n ≤ intMax) : ∃ second tail, lengthBytes n = second :: tail ∧
    tail.length ≤ 8 ∧ second &&& 0x80 ≠ 0 ∧ ∀ first t,
      payloadLength (first :: second :: tail ++ t) second = some (n, 2 + tail.length) := by
  unfold lengthBytes
  split
  · next hn =>
    obtain ⟨hmask, h126, h127, hval⟩ := secondByte_bits n (by omega)
    refine ⟨_, [], rfl, by simp, hmask, fun first t => ?_⟩
    rw [payloadLength, if_neg h126, if_neg h127, hval]
    rfl
  · split
    · next hn =>
      refine ⟨_, _, rfl, by simp, by decide, fun first t => ?_⟩
      have hshort : ¬ (first :: (0x80 ||| 126) :: bytesAt (byteShifts 2) n ++ t).length < 4 := by simp
      rw [payloadLength, if_pos (by decide), if_neg hshort]
      rw [List.cons_append, List.cons_append, List.drop_succ_cons, List.drop_succ_cons, List.drop_zero,
        List.take_left' (by simp), bigEndian_bytesAt, Nat.mod_eq_of_lt (by omega), length_bytesAt,
        length_byteShifts]
    · next hn =>
      refine ⟨_, _, rfl, by simp, by decide, fun first t => ?_⟩
      have hmax : n < 256 ^ 8 := by unfold intMax at h; omega
      have hshort : ¬ (first :: (0x80 ||| 127) :: bytesAt (byteShifts 8) n ++ t).length < 10 := by simp
      rw [payloadLength, if_neg (by decide), if_pos (by decide), if_neg hshort]
      rw [List.cons_append, List.cons_append, List.drop_succ_cons, List.drop_succ_cons, List.drop_zero,
        List.take_left' (by simp), bigEndian_bytesAt, Nat.mod_eq_of_lt hmax, length_bytesAt,
        length_byteShifts]

/-- A frame that was sent is parsed, whatever stands behind it. -/
theorem parse_makeClientFrame (opcode : UInt8) {payload : List UInt8} (key : MaskKey)
    (h : payload.length + 14 ≤ intMax) (rest : List UInt8) :
    parseFrameFromBuffer (makeClientFrame opcode payload key ++ rest) =
      .got ⟨true, opcode &&& 0x0F, payload⟩ rest := by
  obtain ⟨second, tail, hbytes, htail, hmasked, hlen⟩ := lengthBytes_read (n := payload.length) (by omega)
  obtain ⟨hfin, hopcode⟩ := firstByte_bits opcode
  generalize hfirst : 0x80 ||| (opcode &&& 0x0F) = first at hfin hopcode
  have hbuffer : makeClientFrame opcode payload key ++ rest =
      first :: second :: tail ++ (key.1 ++ (mask key payload ++ rest)) := by
    unfold makeClientFrame
    rw [hbytes, hfirst]
    simp
  have hkey : maskKey (first :: second :: tail ++ (key.1 ++ (mask key payload ++ rest)))
      (second &&& 0x80 ≠ 0) (2 + tail.length) = some (some key, 2 + tail.length + 4) := by
    have hroom : 2 + tail.length + 4 ≤
        (first :: second :: tail ++ (key.1 ++ (mask key payload ++ rest))).length := by
      simp [key.2]
      omega
    have hdrop : (first :: second :: tail ++ (key.1 ++ (mask key payload ++ rest))).drop (2 + tail.length) =
        key.1 ++ (mask key payload ++ rest) := List.drop_left' (by simp; omega)
    unfold maskKey
    rw [if_pos (by simpa using hmasked), dif_pos hroom]
    simp only [hdrop, List.take_left' key.2]
  have hroom : ¬ intMax < 2 + tail.length + 4 + payload.length := by omega
  rw [hbuffer, parse_append_of_fields (by simpa using hlen first []), if_neg (by omega)]
  simp only [hkey]
  have hdrop : (first :: second :: tail ++ (key.1 ++ (mask key payload ++ rest))).drop
      (2 + tail.length + 4) = mask key payload ++ rest := by
    rw [← List.append_assoc]
    exact List.drop_left' (by simp [key.2]; omega)
  have hlong : ¬ (first :: second :: tail ++ (key.1 ++ (mask key payload ++ rest))).length <
      2 + tail.length + 4 + payload.length := by
    simp [key.2]
    omega
  have hend : (first :: second :: tail ++ (key.1 ++ (mask key payload ++ rest))).drop
      (2 + tail.length + 4 + payload.length) = rest := by
    rw [← List.drop_drop, hdrop]
    exact List.drop_left' (by simp)
  unfold parsePayload
  rw [if_neg hroom, if_neg hlong, hdrop, hend, List.take_left' (by simp)]
  simp [mask_mask, hfin, hopcode]

/-- A frame to be sent. -/
structure Outgoing where
  opcode : UInt8
  payload : List UInt8
  key : MaskKey

/-- The frame as its reader sees it. -/
def Outgoing.parsed (frame : Outgoing) : ParsedFrame := ⟨true, frame.opcode &&& 0x0F, frame.payload⟩

def Outgoing.bytes (frame : Outgoing) : List UInt8 :=
  makeClientFrame frame.opcode frame.payload frame.key

/-- **Round trip**: however the bytes of frames that were sent are cut into chunks, the parser finds
those frames in order, with nothing left over, and takes no part of a frame for a frame. -/
theorem frames_of_sent {sent : List Outgoing} (h : ∀ frame ∈ sent, frame.payload.length + 14 ≤ intMax)
    {chunks : List (List UInt8)} (hcut : chunks.flatten = sent.flatMap Outgoing.bytes) :
    feed parseFrameFromBuffer chunks = (sent.map Outgoing.parsed, []) ∧
      ∀ frame ∈ sent, ∀ part rest, frame.bytes = part ++ rest → rest ≠ [] →
        parseFrameFromBuffer part = .more := by
  constructor
  · have hreads : Reads parseFrameFromBuffer (sent.flatMap Outgoing.bytes ++ [])
        (sent.map Outgoing.parsed) [] :=
      reads_flatMap (fun frame hmem rest => parse_makeClientFrame frame.opcode frame.key (h frame hmem) rest) []
    rw [feed_eq incremental_parse, hcut]
    rw [List.append_nil] at hreads
    rw [hreads.units_eq incremental_parse, units_of_ne_got incremental_parse.read_nil_ne_got, List.append_nil]
  · intro frame hmem part rest hbytes hrest
    have hparsed := parse_makeClientFrame frame.opcode frame.key (h frame hmem) []
    rw [List.append_nil] at hparsed
    change parseFrameFromBuffer frame.bytes = _ at hparsed
    rw [hbytes] at hparsed
    exact read_part_of_unit incremental_parse hparsed hrest

/-- A masked text frame in three chunks, cut inside its header and inside its key. -/
theorem frames_of_sent_in_three :
    let frame : Outgoing := ⟨1, [104, 105], ⟨[1, 2, 3, 4], rfl⟩⟩
    feed parseFrameFromBuffer [[129], [130, 1, 2, 3], [4, 105, 107]] = ([⟨true, 1, [104, 105]⟩], []) ∧
      ∀ f ∈ [frame], ∀ part rest, f.bytes = part ++ rest → rest ≠ [] →
        parseFrameFromBuffer part = .more := by
  intro frame
  have hlen : ∀ f ∈ [frame], f.payload.length + 14 ≤ intMax := by decide
  have hcut : [[129], [130, 1, 2, 3], [4, 105, 107]].flatten = [frame].flatMap Outgoing.bytes := by decide
  have hparsed : [frame].map Outgoing.parsed = [⟨true, 1, [104, 105]⟩] := by decide
  rw [← hparsed]
  exact frames_of_sent hlen hcut

end AgentHostProtocol.Swift.WebSocket
