import AgentHostProtocol.Library.Runs
import AgentHostProtocol.Swift.Transport.Frames

/-!
# The receive loop of the Swift WebSocket transport

`recv` of the transport under the receive loop of the client, which calls it again as soon as it
has returned a message. A step is one pass of the loop over `readBuffer`, a chunk that arrives, or
the end of the connection. After a frame that is no message of its own, a ping or a part of a
message, the loop waits for a chunk, although the next frame may be in the buffer already.

**What is proved**

* `received_prefix` — in every run, what `recv` has returned and which pings were answered is the
  front of what the whole stream holds, however the stream is cut into chunks.
* `caught_up_iff` — when the loop waits, it has looked at every frame that has come exactly when in
  each chunk only the last frame it completes is no message of its own.
-/

namespace AgentHostProtocol.Swift.WebSocket

open Library

/-- `CompleteMessage`. -/
inductive CompleteMessage where
  | text (text : String)
  | binary (data : List UInt8)
  deriving DecidableEq

/-- How the loop ended. -/
inductive Ending where
  /-- `recv` returned `nil`. -/
  | closed
  | unparsable (error : ParseError)
  | malformedFrame
  | io
  deriving DecidableEq

/-- What the frames seen so far have come to. -/
structure Assembly where
  fragmentedOpcode : Option UInt8
  fragmentedPayload : List UInt8
  /-- What `recv` has returned. -/
  received : List CompleteMessage
  /-- The payloads of the pings that were answered. -/
  pongs : List (List UInt8)
  ending : Option Ending
  deriving DecidableEq

/-- No frame was seen. -/
def Assembly.fresh : Assembly := ⟨none, [], [], [], none⟩

variable (utf8 : List UInt8 → Option String)

/-- `completeMessage`, for a decoder of UTF-8. -/
def completeMessage (opcode : UInt8) (payload : List UInt8) : Option CompleteMessage :=
  if opcode = 0x1 then (utf8 payload).map .text
  else if opcode = 0x2 then some (.binary payload)
  else none

/-- A message is returned, or its text is not UTF-8. -/
def Assembly.complete (asm : Assembly) (opcode : UInt8) (payload : List UInt8) : Assembly :=
  match completeMessage utf8 opcode payload with
  | some message => { asm with received := asm.received ++ [message] }
  | none => { asm with ending := some .malformedFrame }

/-- `nextMessageFromBuffer` on the frame it has parsed. -/
def Assembly.handle (asm : Assembly) (frame : ParsedFrame) : Assembly :=
  if frame.opcode = 0x0 then
    match asm.fragmentedOpcode with
    | none => { asm with ending := some .malformedFrame }
    | some opcode =>
      let payload := asm.fragmentedPayload ++ frame.payload
      if frame.fin then
        { asm with fragmentedOpcode := none, fragmentedPayload := [] }.complete utf8 opcode payload
      else { asm with fragmentedPayload := payload }
  else if frame.opcode = 0x1 ∨ frame.opcode = 0x2 then
    if frame.fin then asm.complete utf8 frame.opcode frame.payload
    else { asm with fragmentedOpcode := some frame.opcode, fragmentedPayload := frame.payload }
  else if frame.opcode = 0x8 then { asm with ending := some .closed }
  else if frame.opcode = 0x9 then { asm with pongs := asm.pongs ++ [frame.payload] }
  else asm

/-- The frame is no message of its own, and does not close the connection: the loop goes on to wait. -/
def ParsedFrame.quiet (frame : ParsedFrame) : Bool :=
  if frame.opcode = 0x0 ∨ frame.opcode = 0x1 ∨ frame.opcode = 0x2 then !frame.fin
  else frame.opcode ≠ 0x8

structure State where
  readBuffer : List UInt8
  asm : Assembly
  /-- In `receiveRaw`. -/
  waiting : Bool
  /-- Every byte behind the response header that has come so far. -/
  arrived : List UInt8

inductive Act where
  /-- A pass of the loop. Where the frame is a ping, whether its pong could be sent. -/
  | poll (sent : Bool)
  /-- `receiveRaw` returns, nothing at the end of the stream. -/
  | chunk (data : List UInt8)
  /-- `receiveRaw` throws. -/
  | ioError

/-- After the handshake, with what came behind the response header in the same chunks. -/
def opened (leftover : List UInt8) : State := ⟨leftover, .fresh, false, leftover⟩

namespace State

/-- A pass of the loop. -/
def poll (s : State) (sent : Bool) : State :=
  match parseFrameFromBuffer s.readBuffer with
  | .more => { s with waiting := true }
  | .failed error => { s with asm := { s.asm with ending := some (.unparsable error) } }
  | .got frame rest =>
    if frame.opcode = 0x9 ∧ sent = false then
      { s with readBuffer := rest, asm := { s.asm with ending := some .io } }
    else
      { s with readBuffer := rest, asm := s.asm.handle utf8 frame, waiting := frame.quiet }

/-- A step of the loop. When it has ended there is none. -/
def step (s : State) (a : Act) : Option State :=
  if s.asm.ending.isSome then none
  else
    match a with
    | .poll sent => if s.waiting then none else some (s.poll utf8 sent)
    | .chunk data =>
      if s.waiting = false then none
      else if data = [] then some { s with asm := { s.asm with ending := some .closed } }
      else
        some { s with
          readBuffer := s.readBuffer ++ data
          waiting := false
          arrived := s.arrived ++ data }
    | .ioError =>
      if s.waiting then some { s with asm := { s.asm with ending := some .io } } else none

end State

/-! ### What the stream holds -/

/-- The frames that bytes hold. -/
def framesOf (bytes : List UInt8) : List ParsedFrame := (units parseFrameFromBuffer bytes).1

/-- A frame is handled unless the connection has ended. -/
def Assembly.next (asm : Assembly) (frame : ParsedFrame) : Assembly :=
  if asm.ending.isSome then asm else asm.handle utf8 frame

/-- What frames come to. -/
def assembled (frames : List ParsedFrame) : Assembly := frames.foldl (Assembly.next utf8) .fresh

theorem assembled_concat (frames : List ParsedFrame) (frame : ParsedFrame) :
    assembled utf8 (frames ++ [frame]) = (assembled utf8 frames).next utf8 frame := by
  unfold assembled
  rw [List.foldl_append]
  rfl

/-- Later messages and pongs come behind those there are. -/
def Assembly.Extends (asm asm' : Assembly) : Prop :=
  asm.received <+: asm'.received ∧ asm.pongs <+: asm'.pongs

theorem Assembly.Extends.refl (asm : Assembly) : asm.Extends asm :=
  ⟨List.prefix_refl _, List.prefix_refl _⟩

theorem Assembly.Extends.trans {a b c : Assembly} (h : a.Extends b) (h' : b.Extends c) : a.Extends c :=
  ⟨h.1.trans h'.1, h.2.trans h'.2⟩

theorem Assembly.extends_complete (asm : Assembly) (opcode : UInt8) (payload : List UInt8) :
    asm.Extends (asm.complete utf8 opcode payload) := by
  unfold Assembly.complete
  split
  · exact ⟨List.prefix_append _ _, List.prefix_refl _⟩
  · exact .refl _

theorem Assembly.extends_handle (asm : Assembly) (frame : ParsedFrame) :
    asm.Extends (asm.handle utf8 frame) := by
  unfold Assembly.handle
  split
  · split
    · exact .refl _
    · dsimp only
      split
      · exact Assembly.extends_complete utf8 { asm with fragmentedOpcode := none, fragmentedPayload := [] } _ _
      · exact .refl _
  · split
    · split
      · exact Assembly.extends_complete utf8 asm _ _
      · exact .refl _
    · split
      · exact .refl _
      · split
        · exact ⟨List.prefix_refl _, List.prefix_append _ _⟩
        · exact .refl _

theorem Assembly.extends_next (asm : Assembly) (frame : ParsedFrame) :
    asm.Extends (asm.next utf8 frame) := by
  unfold Assembly.next
  split
  · exact .refl _
  · exact asm.extends_handle utf8 frame

theorem Assembly.extends_foldl (asm : Assembly) (frames : List ParsedFrame) :
    asm.Extends (frames.foldl (Assembly.next utf8) asm) := by
  induction frames generalizing asm with
  | nil => exact .refl _
  | cons frame frames ih => exact (asm.extends_next utf8 frame).trans (ih _)

namespace State

/-- The frames that lie complete in the buffer. -/
def backlog (s : State) : List ParsedFrame := framesOf s.readBuffer

/-- The loop waits for bytes. -/
def Waits (s : State) : Prop := s.waiting = true ∧ s.asm.ending = none

/-- What was read off the stream is what was handled, but for the frame on which the loop ended. -/
structure Follows (s : State) (handled : List ParsedFrame) : Prop where
  reads : Reads parseFrameFromBuffer s.arrived handled s.readBuffer
  going : s.asm.ending = none → s.asm = assembled utf8 handled
  seen : s.asm.Extends (assembled utf8 handled)

variable {utf8}

theorem follows_opened (leftover : List UInt8) : Follows utf8 (opened leftover) [] :=
  ⟨.nil _, fun _ => rfl, .refl _⟩

theorem Follows.poll {s : State} {handled : List ParsedFrame} (h : Follows utf8 s handled)
    (hgoing : s.asm.ending = none) (sent : Bool) : ∃ handled', Follows utf8 (s.poll utf8 sent) handled' := by
  have hasm := h.going hgoing
  unfold State.poll
  cases hparse : parseFrameFromBuffer s.readBuffer with
  | more => exact ⟨handled, h.reads, h.going, h.seen⟩
  | failed e => exact ⟨handled, h.reads, nofun, h.seen⟩
  | got frame rest =>
    have hnext : assembled utf8 (handled ++ [frame]) = s.asm.handle utf8 frame := by
      rw [assembled_concat, ← hasm, Assembly.next, hgoing]
      rfl
    dsimp only
    split
    · refine ⟨handled ++ [frame], h.reads.concat hparse, nofun, ?_⟩
      rw [hnext]
      exact s.asm.extends_handle utf8 frame
    · refine ⟨handled ++ [frame], h.reads.concat hparse, fun _ => hnext.symm, ?_⟩
      rw [hnext]
      exact .refl _

theorem follows_step {s s' : State} {a : Act} (h : ∃ handled, Follows utf8 s handled)
    (hs : s.step utf8 a = some s') : ∃ handled, Follows utf8 s' handled := by
  obtain ⟨handled, h⟩ := h
  unfold State.step at hs
  split at hs
  · cases hs
  · next hnot =>
    have hgoing : s.asm.ending = none := by simpa using hnot
    cases a with
    | poll sent =>
      dsimp only at hs
      split at hs
      · cases hs
      · cases hs
        exact h.poll hgoing sent
    | chunk data =>
      dsimp only at hs
      split at hs
      · cases hs
      · split at hs
        · cases hs
          exact ⟨handled, h.reads, nofun, h.seen⟩
        · cases hs
          exact ⟨handled, h.reads.append_right incremental_parse data, h.going, h.seen⟩
    | ioError =>
      dsimp only at hs
      split at hs
      · cases hs
        exact ⟨handled, h.reads, nofun, h.seen⟩
      · cases hs

theorem follows_run {leftover : List UInt8} {acts : List Act} {s : State}
    (hr : runs (step utf8) (opened leftover) acts = some s) : ∃ handled, Follows utf8 s handled :=
  runs_kept (step utf8) follows_step ⟨[], follows_opened leftover⟩ hr

/-- A pass of the loop waits, ends the loop or takes a frame off the buffer. -/
theorem poll_progress (s : State) (sent : Bool) :
    (s.poll utf8 sent).waiting = true ∨ (s.poll utf8 sent).asm.ending.isSome ∨
      (s.poll utf8 sent).readBuffer.length < s.readBuffer.length := by
  unfold State.poll
  cases hparse : parseFrameFromBuffer s.readBuffer with
  | more => exact .inl rfl
  | failed e => exact .inr (.inl rfl)
  | got frame rest =>
    have hshort := incremental_parse.shorter hparse
    dsimp only
    split
    · exact .inr (.inl rfl)
    · exact .inr (.inr hshort)

/-- Left alone, the loop comes to wait, or it ends. -/
theorem settles (s : State) : ∃ n s', runs (step utf8) s (List.replicate n (.poll true)) = some s' ∧
    (s'.waiting = true ∨ s'.asm.ending.isSome) := by
  generalize hlen : s.readBuffer.length = len
  induction len using Nat.strong_induction_on generalizing s with
  | _ len ih =>
    by_cases hover : s.asm.ending.isSome
    · exact ⟨0, s, rfl, .inr hover⟩
    · cases hwait : s.waiting with
      | true => exact ⟨0, s, rfl, .inl hwait⟩
      | false =>
        have hstep : s.step utf8 (.poll true) = some (s.poll utf8 true) := by
          simp [State.step, hover, hwait]
        rcases s.poll_progress true with h | h | h
        · exact ⟨1, _, by rw [List.replicate_one, runs, hstep]; rfl, .inl h⟩
        · exact ⟨1, _, by rw [List.replicate_one, runs, hstep]; rfl, .inr h⟩
        · obtain ⟨n, s', hrun, hdone⟩ := ih _ (hlen ▸ h) (s.poll utf8 true) rfl
          refine ⟨n + 1, s', ?_, hdone⟩
          rw [List.replicate_succ, runs, hstep, Option.bind_some]
          exact hrun

end State

open State in
/-- **Order**: whatever way the stream is cut and whenever the loop runs, what `recv` has returned and
the pings that were answered are the front of what the stream holds, whatever comes later; and the
loop comes to wait for more, or ends. -/
theorem received_prefix {leftover : List UInt8} {acts : List Act} {s : State}
    (hr : runs (step utf8) (opened leftover) acts = some s) :
    (∀ later, s.asm.received <+: (assembled utf8 (framesOf (s.arrived ++ later))).received ∧
      s.asm.pongs <+: (assembled utf8 (framesOf (s.arrived ++ later))).pongs) ∧
    ∃ n s', runs (step utf8) s (List.replicate n (.poll true)) = some s' ∧
      (s'.waiting = true ∨ s'.asm.ending.isSome) := by
  refine ⟨fun later => ?_, s.settles⟩
  obtain ⟨handled, h⟩ := follows_run hr
  have hunits := (h.reads.append_right incremental_parse later).units_eq incremental_parse
  have hframes : framesOf (s.arrived ++ later) =
      handled ++ framesOf (s.readBuffer ++ later) := congrArg Prod.fst hunits
  rw [hframes, assembled, List.foldl_append]
  exact h.seen.trans (Assembly.extends_foldl utf8 _ _)

/-- `String(data:encoding:)` for UTF-8. -/
def decodeUtf8 (bytes : List UInt8) : Option String := String.fromUTF8? ⟨bytes.toArray⟩

namespace State

/-- A ping and a message come in one chunk. -/
def pingAndMessage : List Act := [.poll true, .chunk [0x89, 0, 0x82, 1, 7], .poll true]

/-- The loop waits behind the ping. -/
def behindPing : State :=
  ⟨[0x82, 1, 7], ⟨none, [], [], [[]], none⟩, true, [0x89, 0, 0x82, 1, 7]⟩

theorem runs_pingAndMessage :
    runs (step decodeUtf8) (opened []) pingAndMessage = some behindPing := rfl

end State

open State in
theorem received_prefix_behind_ping :
    (∀ later,
      behindPing.asm.received <+: (assembled decodeUtf8 (framesOf (behindPing.arrived ++ later))).received ∧
      behindPing.asm.pongs <+: (assembled decodeUtf8 (framesOf (behindPing.arrived ++ later))).pongs) ∧
    ∃ n s', runs (step decodeUtf8) behindPing (List.replicate n (.poll true)) = some s' ∧
      (s'.waiting = true ∨ s'.asm.ending.isSome) :=
  received_prefix decodeUtf8 runs_pingAndMessage

/-! ### When every frame has been looked at -/

/-- Only the last of the frames may be no message of its own. -/
def Prompt (frames : List ParsedFrame) : Prop := ∀ frame ∈ frames.dropLast, frame.quiet = false

namespace State

variable {utf8}

/-- The frames that will lie in the buffer when the loop waits next. -/
def left (s : State) : List ParsedFrame :=
  if s.waiting then s.backlog else dropThrough ParsedFrame.quiet s.backlog

/-- A pass of the loop that does not end it changes nothing of that. -/
theorem left_poll {s : State} (hwait : s.waiting = false) (sent : Bool)
    (hgoing : (s.poll utf8 sent).asm.ending = none) : (s.poll utf8 sent).left = s.left := by
  unfold State.poll at hgoing ⊢
  cases hparse : parseFrameFromBuffer s.readBuffer with
  | more =>
    have hnone : framesOf s.readBuffer = [] :=
      congrArg Prod.fst (units_of_ne_got (b := s.readBuffer) (by rw [hparse]; nofun))
    simp [left, backlog, hwait, hnone, dropThrough]
  | failed e => rw [hparse] at hgoing; cases hgoing
  | got frame rest =>
    have hsome : framesOf s.readBuffer = frame :: framesOf rest :=
      congrArg Prod.fst (units_of_got incremental_parse hparse)
    rw [hparse] at hgoing
    dsimp only at hgoing ⊢
    split at hgoing
    · cases hgoing
    · next hsent =>
      rw [if_neg hsent]
      simp [left, backlog, hwait, hsome, dropThrough]

theorem prompt_iff (frames : List ParsedFrame) :
    Prompt frames ↔ dropThrough ParsedFrame.quiet frames = [] :=
  (dropThrough_eq_nil_iff _ _).symm

/-- A loop that goes on has not ended. -/
theorem going_of_run {s s' : State} {acts : List Act} (hr : runs (step utf8) s acts = some s')
    (hgoing : s'.asm.ending = none) : s.asm.ending = none := by
  cases acts with
  | nil => cases hr; exact hgoing
  | cons a acts =>
    obtain ⟨u, hu, -⟩ := (runs_cons_eq_some (step utf8)).mp hr
    unfold State.step at hu
    split at hu
    · cases hu
    · next h => simpa using h

/-- Wherever a run waits nothing lies in the buffer exactly when nothing did at its start and nothing
was left by a chunk. -/
theorem caught_up_from {s s' : State} {acts : List Act} (hr : runs (step utf8) s acts = some s')
    (hw : s'.Waits) :
    Guarded (step utf8) (fun s _ => s.waiting = true → s.backlog = []) s acts ∧ s'.backlog = [] ↔
      s.left = [] ∧ Guarded (step utf8)
        (fun s a => ∀ data, a = .chunk data → Prompt (framesOf (s.readBuffer ++ data))) s acts := by
  induction acts generalizing s with
  | nil =>
    cases hr
    simp [Guarded, left, hw.1]
  | cons a acts ih =>
    obtain ⟨u, hu, hr⟩ := (runs_cons_eq_some (step utf8)).mp hr
    have hgoing := going_of_run hr hw.2
    rw [guarded_cons _ hu, guarded_cons _ hu, and_assoc, ih hr]
    have hnot : ¬ s.asm.ending.isSome := by
      intro h
      simp [State.step, h] at hu
    unfold State.step at hu
    rw [if_neg hnot] at hu
    cases a with
    | poll sent =>
      dsimp only at hu
      cases hwait : s.waiting with
      | true => simp [hwait] at hu
      | false =>
        rw [hwait, if_neg (by simp)] at hu
        cases hu
        rw [left_poll hwait sent hgoing]
        simp
    | chunk data =>
      dsimp only at hu
      cases hwait : s.waiting with
      | false => simp [hwait] at hu
      | true =>
        rw [hwait, if_neg (by simp)] at hu
        split at hu
        · cases hu
          cases hgoing
        · cases hu
          have hleft : s.left = s.backlog := by simp [left, hwait]
          rw [hleft]
          simp only [left, backlog, Bool.false_eq_true, if_false, forall_const, Act.chunk.injEq,
            forall_eq', prompt_iff]
    | ioError =>
      dsimp only at hu
      split at hu
      · cases hu
        cases hgoing
      · cases hu

end State

open State in
/-- **Caught up**: of a run that ends where the loop waits. It has looked at every frame that had come,
here and wherever it asked for a chunk before, exactly when of the frames that the leftover of the
handshake completes, and of those that each chunk completes, only the last is no message of its own.
Where it has, all that the stream holds is received. -/
theorem caught_up_iff {leftover : List UInt8} {acts : List Act} {s : State}
    (hr : runs (step utf8) (opened leftover) acts = some s) (hw : s.Waits) :
    (Guarded (step utf8) (fun s _ => s.waiting = true → s.backlog = []) (opened leftover) acts ∧
        s.backlog = [] ↔
      Prompt (framesOf leftover) ∧ Guarded (step utf8)
        (fun s a => ∀ data, a = .chunk data → Prompt (framesOf (s.readBuffer ++ data)))
        (opened leftover) acts) ∧
    ∃ handled, framesOf s.arrived = handled ++ s.backlog ∧ s.asm = assembled utf8 handled := by
  constructor
  · rw [prompt_iff]
    exact caught_up_from hr hw
  · obtain ⟨handled, h⟩ := follows_run hr
    exact ⟨handled, congrArg Prod.fst (h.reads.units_eq incremental_parse), h.going hw.2⟩

open State in
theorem caught_up_iff_behind_ping :
    (Guarded (step decodeUtf8) (fun s _ => s.waiting = true → s.backlog = []) (opened []) pingAndMessage ∧
        behindPing.backlog = [] ↔
      Prompt (framesOf []) ∧ Guarded (step decodeUtf8)
        (fun s a => ∀ data, a = .chunk data → Prompt (framesOf (s.readBuffer ++ data)))
        (opened []) pingAndMessage) ∧
    ∃ handled, framesOf behindPing.arrived = handled ++ behindPing.backlog ∧
      behindPing.asm = assembled decodeUtf8 handled :=
  caught_up_iff decodeUtf8 runs_pingAndMessage ⟨rfl, rfl⟩

open State in
/-- Where the connection ends behind a ping, the message that came with it is never returned. -/
example : ∃ s, runs (step decodeUtf8) (opened []) (pingAndMessage ++ [.chunk []]) = some s ∧
    s.asm.ending = some .closed ∧ s.asm.received = [] ∧
    (assembled decodeUtf8 (framesOf s.arrived)).received = [.binary [7]] :=
  ⟨_, rfl, rfl, rfl, rfl⟩

end AgentHostProtocol.Swift.WebSocket
