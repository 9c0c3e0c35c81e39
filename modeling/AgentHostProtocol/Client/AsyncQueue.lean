import AgentHostProtocol.Library.Delivery
import AgentHostProtocol.Library.Runs

/-!
# The broadcast queue

`AsyncBroadcastQueue`: one publisher, any number of readers, each with a cursor of its own
into a bounded buffer that is trimmed at the front. A position is absolute: the number of
values that had been published before the one it points at.

`step_does` says once what an operation does to one reader; `step_ok` that the positions of
attached cursors stay inside the buffer (`Ok`). What the readers receive is the subject of
`Client.Delivered`, what becomes of parked calls that of `Client.Parked`.
-/

namespace AgentHostProtocol.Client

open Library

universe u

/-- What a call of `next` resolves to. -/
inductive IteratorResult (T : Type u) where
  | value (item : T)
  | done
  deriving DecidableEq

/-- The promise that a call of `next` returned. -/
structure Promise (T : Type u) where
  /-- How many values had been published when `next` was called. -/
  asked : ℕ
  /-- `none` as long as it is unresolved. -/
  result : Option (IteratorResult T)
  deriving DecidableEq

/-- `resolve`: a promise settles once. -/
def Promise.resolve {T : Type u} (p : Promise T) (result : IteratorResult T) : Promise T :=
  { p with result := p.result <|> some result }

/-- An iterator with its `Cursor`, and what its user has seen: how many values had been
published when it was created, and the promises it returned, in order. -/
structure Reader (T : Type u) where
  /-- Absolute logical position of the next value this cursor will read. -/
  position : ℕ
  /-- Which of the promises is parked. -/
  waiter : Option ℕ
  detached : Bool
  since : ℕ
  promises : List (Promise T)
  deriving DecidableEq

/-- `AsyncBroadcastQueue`. The cursors of the queue are those of `readers` that are not
detached: `reader` adds a cursor as it creates it, and `detach` removes it. -/
structure AsyncBroadcastQueue (T : Type u) where
  buffer : List T
  /-- Absolute logical position of `buffer[0]`. -/
  base : ℕ
  readers : List (Reader T)
  closed : Bool
  bufferLimit : ℕ
  /-- Every value that was accepted, in order. -/
  published : List T
  deriving DecidableEq

variable {T : Type u}

namespace Reader

/-- Resolve the parked promise `p`. -/
def settle (r : Reader T) (p : ℕ) (result : IteratorResult T) : Reader T :=
  { r with waiter := none, promises := r.promises.modify p fun promise => promise.resolve result }

/-- Return a promise that is resolved already. -/
def answer (r : Reader T) (asked : ℕ) (result : IteratorResult T) : Reader T :=
  { r with promises := r.promises ++ [⟨asked, some result⟩] }

/-- Return a promise and park it. -/
def park (r : Reader T) (asked : ℕ) : Reader T :=
  { r with waiter := some r.promises.length, promises := r.promises ++ [⟨asked, none⟩] }

end Reader

namespace AsyncBroadcastQueue

/-- `new AsyncBroadcastQueue(bufferLimit)`. -/
def create (bufferLimit : ℕ) : AsyncBroadcastQueue T where
  buffer := []
  base := 0
  readers := []
  closed := false
  bufferLimit := bufferLimit
  published := []

/-- The buffered value at an absolute position. -/
def itemAt (q : AsyncBroadcastQueue T) (position : ℕ) : Option T :=
  if q.base ≤ position then q.buffer[position - q.base]? else none

/-- The cursors of the queue. -/
def attached (q : AsyncBroadcastQueue T) : List (Reader T) := q.readers.filter fun r => !r.detached

/-- Drop buffer entries that every cursor has already consumed. -/
def trim (q : AsyncBroadcastQueue T) : AsyncBroadcastQueue T :=
  match (q.attached.map Reader.position).min? with
  | none => { q with buffer := [], base := q.base + q.buffer.length }
  | some minPos =>
    let drop := minPos - q.base
    { q with buffer := q.buffer.drop drop, base := q.base + drop }

/-- Move a cursor that points below `base` to it. -/
def fastForward (base : ℕ) (r : Reader T) : Reader T :=
  if r.detached = false ∧ r.position < base then { r with position := base } else r

/-- Enforce the bounded buffer. -/
def dropOldest (q : AsyncBroadcastQueue T) : AsyncBroadcastQueue T :=
  if q.bufferLimit < q.buffer.length then
    let drop := q.buffer.length - q.bufferLimit
    { q with
      buffer := q.buffer.drop drop
      base := q.base + drop
      readers := q.readers.map (fastForward (q.base + drop)) }
  else q

/-- Give a parked cursor its value, if that is in the buffer. -/
def wake (q : AsyncBroadcastQueue T) (r : Reader T) : Reader T :=
  match r.detached, r.waiter, q.itemAt r.position with
  | false, some p, some item => { r with position := r.position + 1 }.settle p (.value item)
  | _, _, _ => r

/-- Publish a value to every attached reader. -/
def publish (q : AsyncBroadcastQueue T) (value : T) : AsyncBroadcastQueue T :=
  if q.closed then q
  else
    let q := dropOldest { q with buffer := q.buffer ++ [value], published := q.published ++ [value] }
    trim { q with readers := q.readers.map q.wake }

/-- End a parked cursor that has nothing left in the buffer. -/
def finish (q : AsyncBroadcastQueue T) (r : Reader T) : Reader T :=
  match r.detached, r.waiter with
  | false, some p => if q.base + q.buffer.length ≤ r.position then r.settle p .done else r
  | _, _ => r

/-- Close the queue. -/
def close (q : AsyncBroadcastQueue T) : AsyncBroadcastQueue T :=
  if q.closed then q else { q with closed := true, readers := q.readers.map q.finish }

/-- Create a new independent reader. -/
def reader (q : AsyncBroadcastQueue T) : AsyncBroadcastQueue T :=
  let cursor : Reader T :=
    { position := q.base + q.buffer.length
      waiter := none
      detached := q.closed
      since := q.published.length
      promises := [] }
  { q with readers := q.readers ++ [cursor] }

/-- `next` of the reader `i`. -/
def next (q : AsyncBroadcastQueue T) (i : ℕ) : Option (AsyncBroadcastQueue T) :=
  q.readers[i]?.map fun r =>
    let asked := q.published.length
    if r.detached then { q with readers := q.readers.set i (r.answer asked .done) }
    else
      match q.itemAt r.position with
      | some item =>
        trim { q with
          readers := q.readers.set i ({ r with position := r.position + 1 }.answer asked (.value item)) }
      | none =>
        if q.closed then { q with readers := q.readers.set i (r.answer asked .done) }
        else { q with readers := q.readers.set i (r.park asked) }

/-- `return` of the reader `i`. -/
def detach (q : AsyncBroadcastQueue T) (i : ℕ) : Option (AsyncBroadcastQueue T) :=
  q.readers[i]?.map fun r =>
    if r.detached then q else trim { q with readers := q.readers.set i { r with detached := true } }

/-! ### Operations -/

/-- A call on the queue or on one of its readers. -/
inductive Op (T : Type u) where
  | publish (value : T)
  | close
  | reader
  | next (i : ℕ)
  /-- `return` of the reader `i`. -/
  | detach (i : ℕ)
  deriving DecidableEq

/-- One call. It is refused for a reader that was not created. -/
def step (q : AsyncBroadcastQueue T) : Op T → Option (AsyncBroadcastQueue T)
  | .publish value => some (q.publish value)
  | .close => some q.close
  | .reader => some q.reader
  | .next i => q.next i
  | .detach i => q.detach i

/-! ### The positions of the cursors -/

/-- An attached cursor points into the buffer or at its end, and at its end if it is parked. -/
structure ReaderOk (q : AsyncBroadcastQueue T) (r : Reader T) : Prop where
  base_le : r.detached = false → q.base ≤ r.position
  le_length : r.detached = false → r.position ≤ q.published.length
  parked : r.detached = false → ∀ p, r.waiter = some p → r.position = q.published.length ∧ q.closed = false
  waiter : ∀ p, r.waiter = some p → ∃ asked, r.promises[p]? = some ⟨asked, none⟩

/-- The buffer holds the last of what was published, and the cursors point into it. -/
structure Ok (q : AsyncBroadcastQueue T) : Prop where
  limit : 0 < q.bufferLimit
  base_le : q.base ≤ q.published.length
  buffer_eq : q.buffer = q.published.drop q.base
  readers : ∀ r ∈ q.readers, ReaderOk q r

variable {q q' : AsyncBroadcastQueue T} {r r' : Reader T} {i : ℕ}

theorem ok_create {limit : ℕ} (h : 0 < limit) : Ok (create (T := T) limit) where
  limit := h
  base_le := Nat.le_refl _
  buffer_eq := rfl
  readers r hr := by cases hr

theorem Ok.end_eq (h : Ok q) : q.base + q.buffer.length = q.published.length := by
  have hle := h.base_le
  rw [h.buffer_eq, List.length_drop]
  omega

/-- What is buffered at a position is what was published there. -/
theorem Ok.itemAt_eq (h : Ok q) {position : ℕ} (hle : q.base ≤ position) :
    q.itemAt position = q.published[position]? := by
  unfold itemAt
  rw [if_pos hle, h.buffer_eq, List.getElem?_drop]
  congr 1
  omega

@[simp] theorem trim_readers : q.trim.readers = q.readers := by unfold trim; split <;> rfl

@[simp] theorem trim_closed : q.trim.closed = q.closed := by unfold trim; split <;> rfl

@[simp] theorem trim_published : q.trim.published = q.published := by unfold trim; split <;> rfl

@[simp] theorem trim_bufferLimit : q.trim.bufferLimit = q.bufferLimit := by unfold trim; split <;> rfl

theorem mem_attached : r ∈ q.attached ↔ r ∈ q.readers ∧ r.detached = false := by
  simp [attached]

/-- Trimming stops at the slowest cursor. -/
theorem Ok.trim (h : Ok q) : Ok q.trim := by
  have hend := h.end_eq
  have hbase : q.base ≤ q.trim.base ∧ q.trim.base ≤ q.published.length ∧
      q.trim.buffer = q.published.drop q.trim.base ∧
      ∀ r ∈ q.readers, r.detached = false → q.trim.base ≤ r.position := by
    unfold AsyncBroadcastQueue.trim
    cases hmin : (q.attached.map Reader.position).min? with
    | none =>
      rw [List.min?_eq_none_iff, List.map_eq_nil_iff] at hmin
      refine ⟨Nat.le_add_right _ _, Nat.le_of_eq hend, ?_, fun r hr hd => ?_⟩
      · show [] = q.published.drop (q.base + q.buffer.length)
        rw [hend, List.drop_length]
      · have hmem := mem_attached.mpr ⟨hr, hd⟩
        rw [hmin] at hmem
        cases hmem
    | some minPos =>
      obtain ⟨hmem, hle⟩ := List.min?_eq_some_iff.mp hmin
      obtain ⟨r, hr, rfl⟩ := List.mem_map.mp hmem
      obtain ⟨hr, hd⟩ := mem_attached.mp hr
      have hlow := (h.readers r hr).base_le hd
      have hhigh := (h.readers r hr).le_length hd
      have hnew : q.base + (r.position - q.base) = r.position := by omega
      refine ⟨Nat.le_add_right _ _, by show q.base + (r.position - q.base) ≤ _; omega, ?_, fun s hs hd' => ?_⟩
      · show q.buffer.drop (r.position - q.base) = _
        rw [h.buffer_eq, List.drop_drop]
      · have hmin' := hle s.position (List.mem_map_of_mem (mem_attached.mpr ⟨hs, hd'⟩))
        show q.base + (r.position - q.base) ≤ s.position
        omega
  obtain ⟨-, hle, hbuffer, hpositions⟩ := hbase
  exact
    { limit := by rw [trim_bufferLimit]; exact h.limit
      base_le := by rw [trim_published]; exact hle
      buffer_eq := by rw [trim_published]; exact hbuffer
      readers := by
        rw [trim_readers]
        intro s hs
        have hok := h.readers s hs
        exact
          { base_le := hpositions s hs
            le_length := by rw [trim_published]; exact hok.le_length
            parked := by rw [trim_published, trim_closed]; exact hok.parked
            waiter := hok.waiter } }

/-! ### What an operation does to one reader -/

/-- What `op` makes of the reader `r` at `i`. -/
inductive Does (q : AsyncBroadcastQueue T) (i : ℕ) (r : Reader T) : Op T → Reader T → Prop where
  /-- A closed queue accepts nothing, a detached reader gets nothing. -/
  | unheard {value} : q.closed = true ∨ r.detached = true → Does q i r (.publish value) r
  /-- A reader that is not parked stays where it is or is moved past values that were dropped. -/
  | passed {value position} : q.closed = false → r.detached = false → r.waiter = none →
      r.position ≤ position → position ≤ q.published.length →
      (∀ k, r.position ≤ k → k < position → k + 1 + q.bufferLimit ≤ q.published.length + 1) →
      Does q i r (.publish value) { r with position := position }
  /-- A parked reader gets the value. -/
  | woken {value p} : q.closed = false → r.detached = false → r.waiter = some p →
      Does q i r (.publish value) ({ r with position := r.position + 1 }.settle p (.value value))
  | stayed : q.closed = true ∨ r.detached = true ∨ r.waiter = none → Does q i r .close r
  | ended {p} : q.closed = false → r.detached = false → r.waiter = some p →
      Does q i r .close (r.settle p .done)
  | opened : Does q i r .reader r
  | other_next {j} : j ≠ i → Does q i r (.next j) r
  | other_detach {j} : j ≠ i → Does q i r (.detach j) r
  | next_detached : r.detached = true → Does q i r (.next i) (r.answer q.published.length .done)
  | next_value {item} : r.detached = false → q.published[r.position]? = some item →
      Does q i r (.next i)
        ({ r with position := r.position + 1 }.answer q.published.length (.value item))
  | next_done : r.detached = false → q.closed = true → r.position = q.published.length →
      Does q i r (.next i) (r.answer q.published.length .done)
  | next_parked : r.detached = false → q.closed = false → r.position = q.published.length →
      Does q i r (.next i) (r.park q.published.length)
  | detached : Does q i r (.detach i) { r with detached := true }

/-- The queue that `publish` leaves, before it is trimmed and its readers are woken. -/
def pushed (q : AsyncBroadcastQueue T) (value : T) : AsyncBroadcastQueue T :=
  dropOldest { q with buffer := q.buffer ++ [value], published := q.published ++ [value] }

/-- Pushing moves the base past what the limit leaves no room for. -/
theorem pushed_base (h : Ok q) (value : T) :
    (q.pushed value).published = q.published ++ [value] ∧ (q.pushed value).closed = q.closed ∧
      (q.pushed value).bufferLimit = q.bufferLimit ∧
      (q.pushed value).base = max q.base (q.published.length + 1 - q.bufferLimit) ∧
      (q.pushed value).buffer = (q.published ++ [value]).drop (q.pushed value).base ∧
      (q.pushed value).readers = q.readers.map (fastForward (q.pushed value).base) := by
  have hend := h.end_eq
  have hbase := h.base_le
  have hbuffer : q.buffer ++ [value] = (q.published ++ [value]).drop q.base := by
    rw [h.buffer_eq, List.drop_append_of_le_length hbase]
  unfold pushed dropOldest
  split
  next hover =>
    simp only [List.length_append, List.length_singleton] at hover ⊢
    have hnew : q.base + (q.buffer.length + 1 - q.bufferLimit) =
        max q.base (q.published.length + 1 - q.bufferLimit) := by omega
    refine ⟨trivial, trivial, trivial, hnew, ?_, trivial⟩
    rw [hbuffer, List.drop_drop]
  next hroom =>
    simp only [List.length_append, List.length_singleton] at hroom ⊢
    refine ⟨trivial, trivial, trivial, by omega, hbuffer, ?_⟩
    have hstay : ∀ r ∈ q.readers, fastForward q.base r = r := fun r hr => by
      unfold fastForward
      rw [if_neg]
      rintro ⟨hd, hlt⟩
      have hle := (h.readers r hr).base_le hd
      omega
    rw [List.map_congr_left hstay, List.map_id']

/-- What publishing does to a reader, and that it ends above the new base. -/
theorem wake_does (h : Ok q) (hopen : q.closed = false) (value : T) (hr : r ∈ q.readers) :
    Does q i r (.publish value) ((q.pushed value).wake (fastForward (q.pushed value).base r)) ∧
      (r.detached = false → (q.pushed value).base ≤
        ((q.pushed value).wake (fastForward (q.pushed value).base r)).position) := by
  obtain ⟨-, -, -, hbase, hbuffer, -⟩ := pushed_base h value
  have hok := h.readers r hr
  have hlimit := h.limit
  have hitem : ∀ {position}, (q.pushed value).base ≤ position →
      (q.pushed value).itemAt position = (q.published ++ [value])[position]? := by
    intro position hle
    unfold itemAt
    rw [if_pos hle, hbuffer, List.getElem?_drop]
    congr 1
    omega
  cases hd : r.detached with
  | true =>
    have hstay : fastForward (q.pushed value).base r = r := if_neg (by rw [hd]; simp)
    have hwake : (q.pushed value).wake r = r := by unfold wake; rw [hd]
    rw [hstay, hwake]
    exact ⟨.unheard (.inr hd), fun hd' => by cases hd'⟩
  | false =>
    have hlow := hok.base_le hd
    have hhigh := hok.le_length hd
    cases hw : r.waiter with
    | none =>
      have hwake : ∀ s : Reader T, s.waiter = none → (q.pushed value).wake s = s := fun s hs => by
        unfold wake
        rw [hs]
        cases s.detached <;> rfl
      unfold fastForward
      split
      next hlt =>
        rw [hwake { r with position := (q.pushed value).base } hw]
        refine ⟨.passed hopen hd hw (by omega) (by omega) fun k _ hk => ?_, fun _ => Nat.le_refl _⟩
        omega
      next hge =>
        rw [hwake r hw]
        have hsame : Does q i r (.publish value) { r with position := r.position } :=
          .passed hopen hd hw (Nat.le_refl _) hhigh fun k _ hk => by omega
        exact ⟨hsame, fun _ => Nat.le_of_not_lt fun hlt => hge ⟨hd, hlt⟩⟩
    | some p =>
      obtain ⟨hend, -⟩ := hok.parked hd p hw
      have hstay : fastForward (q.pushed value).base r = r :=
        if_neg fun hlt => by omega
      have hwake : (q.pushed value).wake r =
          { r with position := r.position + 1 }.settle p (.value value) := by
        unfold wake
        rw [hd, hw, hitem (by omega), hend, List.getElem?_concat_length]
      rw [hstay, hwake]
      refine ⟨.woken hopen hd hw, fun _ => ?_⟩
      show _ ≤ r.position + 1
      omega

/-- The queue with other readers. -/
def withReaders (q : AsyncBroadcastQueue T) (readers : List (Reader T)) : AsyncBroadcastQueue T :=
  { q with readers := readers }

theorem publish_eq (h : Ok q) (hopen : q.closed = false) (value : T) :
    q.publish value = trim ((q.pushed value).withReaders
      (q.readers.map fun r => (q.pushed value).wake (fastForward (q.pushed value).base r))) := by
  obtain ⟨-, -, -, -, -, hreaders⟩ := pushed_base h value
  have hmap := congrArg (List.map (q.pushed value).wake) hreaders
  rw [List.map_map] at hmap
  unfold publish
  rw [if_neg (by rw [hopen]; exact Bool.false_ne_true)]
  exact congrArg (fun readers => trim ((q.pushed value).withReaders readers)) hmap

/-- What publishing does to the reader at `i`. -/
theorem publish_does (h : Ok q) (hopen : q.closed = false) (value : T) (hr : q.readers[i]? = some r) :
    ∃ r', (q.publish value).readers[i]? = some r' ∧ Does q i r (.publish value) r' := by
  refine ⟨_, ?_, (wake_does h hopen value (List.mem_of_getElem? hr)).1⟩
  rw [publish_eq h hopen, trim_readers]
  show (q.readers.map _)[i]? = _
  rw [List.getElem?_map, hr]
  rfl

/-- What closing does to a reader. -/
theorem close_does (h : Ok q) (hr : q.readers[i]? = some r) :
    ∃ r', q.close.readers[i]? = some r' ∧ Does q i r .close r' := by
  have hok := h.readers r (List.mem_of_getElem? hr)
  unfold close
  cases hclosed : q.closed with
  | true => exact ⟨r, hr, .stayed (.inl hclosed)⟩
  | false =>
    rw [if_neg Bool.false_ne_true]
    refine ⟨q.finish r, by rw [List.getElem?_map, hr]; rfl, ?_⟩
    unfold finish
    cases hd : r.detached with
    | true => exact .stayed (.inr (.inl hd))
    | false =>
      cases hw : r.waiter with
      | none => exact .stayed (.inr (.inr hw))
      | some p =>
        have hend := (hok.parked hd p hw).1
        have hlength := h.end_eq
        show Does q i r .close (if _ then _ else _)
        rw [if_pos (by omega)]
        exact .ended hclosed hd hw

/-- What a call of `next` does to its own reader. -/
theorem next_does (h : Ok q) (hs : q.next i = some q') (hr : q.readers[i]? = some r) :
    ∃ r', Does q i r (.next i) r' ∧ (q' = q.withReaders (q.readers.set i r') ∨
      q' = trim (q.withReaders (q.readers.set i r'))) := by
  have hok := h.readers r (List.mem_of_getElem? hr)
  unfold next at hs
  rw [hr, Option.map_some, Option.some.injEq] at hs
  dsimp only at hs
  cases hd : r.detached with
  | true =>
    rw [if_pos hd] at hs
    exact ⟨_, .next_detached hd, .inl hs.symm⟩
  | false =>
    have hlow := hok.base_le hd
    have hhigh := hok.le_length hd
    rw [if_neg (by rw [hd]; exact Bool.false_ne_true), h.itemAt_eq hlow] at hs
    cases hitem : q.published[r.position]? with
    | some item =>
      simp only [hitem] at hs
      exact ⟨_, .next_value hd hitem, .inr hs.symm⟩
    | none =>
      have hend : r.position = q.published.length := by
        have hle := List.getElem?_eq_none_iff.mp hitem
        omega
      simp only [hitem] at hs
      cases hclosed : q.closed with
      | true =>
        rw [if_pos hclosed] at hs
        exact ⟨_, .next_done hd hclosed hend, .inl hs.symm⟩
      | false =>
        rw [if_neg (by rw [hclosed]; exact Bool.false_ne_true)] at hs
        exact ⟨_, .next_parked hd hclosed hend, .inl hs.symm⟩

/-- What `return` does to its own reader. -/
theorem detach_does (hs : q.detach i = some q') (hr : q.readers[i]? = some r) :
    ∃ r', Does q i r (.detach i) r' ∧ (q' = q.withReaders (q.readers.set i r') ∨
      q' = trim (q.withReaders (q.readers.set i r'))) := by
  refine ⟨_, .detached, ?_⟩
  unfold detach at hs
  rw [hr, Option.map_some, Option.some.injEq] at hs
  split at hs
  next hd =>
    subst hs
    have hsame : { r with detached := true } = r := by rw [← hd]
    obtain ⟨hlt, rfl⟩ := List.getElem?_eq_some_iff.mp hr
    left
    rw [hsame, List.set_getElem_self]
    rfl
  next => exact .inr hs.symm

/-- A call on a reader is a call on one that was created. -/
theorem exists_reader {op : Op T} (hop : op = .next i ∨ op = .detach i) (hs : q.step op = some q') :
    ∃ r, q.readers[i]? = some r := by
  cases hr : q.readers[i]? with
  | some r => exact ⟨r, rfl⟩
  | none => rcases hop with rfl | rfl <;> simp [step, next, detach, hr] at hs

/-- What a call of `next` or `return` does to its own reader; nothing else of the readers changes. -/
theorem own_does (h : Ok q) {op : Op T} (hop : op = .next i ∨ op = .detach i)
    (hs : q.step op = some q') : ∃ r r', q.readers[i]? = some r ∧ Does q i r op r' ∧
      (q' = q.withReaders (q.readers.set i r') ∨ q' = trim (q.withReaders (q.readers.set i r'))) := by
  obtain ⟨r, hr⟩ := exists_reader hop hs
  rcases hop with rfl | rfl
  · obtain ⟨r', hdoes, hq⟩ := next_does h hs hr
    exact ⟨r, r', hr, hdoes, hq⟩
  · obtain ⟨r', hdoes, hq⟩ := detach_does hs hr
    exact ⟨r, r', hr, hdoes, hq⟩

private theorem own_readers {readers : List (Reader T)}
    (h : q' = q.withReaders readers ∨ q' = trim (q.withReaders readers)) : q'.readers = readers := by
  rcases h with rfl | rfl
  · rfl
  · rw [trim_readers]
    rfl

/-- **One reader**: an operation does one of these to it, and never removes it. -/
theorem step_does (h : Ok q) {op : Op T} (hs : q.step op = some q') (hr : q.readers[i]? = some r) :
    ∃ r', q'.readers[i]? = some r' ∧ Does q i r op r' := by
  have hlt := (List.getElem?_eq_some_iff.mp hr).1
  -- A call on the reader at `j` is a call on the one at `i`, or leaves that alone.
  have hown : ∀ j, op = .next j ∨ op = .detach j → (j ≠ i → Does q i r op r) →
      ∃ r', q'.readers[i]? = some r' ∧ Does q i r op r' := by
    intro j hop hother
    obtain ⟨rj, r', hrj, hdoes, hq⟩ := own_does h hop hs
    rw [own_readers hq]
    by_cases hij : j = i
    · subst hij
      rw [hr] at hrj
      cases hrj
      exact ⟨r', List.getElem?_set_self hlt, hdoes⟩
    · exact ⟨r, by rw [List.getElem?_set_ne hij]; exact hr, hother hij⟩
  cases op with
  | publish value =>
    cases hs
    cases hclosed : q.closed with
    | true => exact ⟨r, by unfold publish; rw [hclosed]; exact hr, .unheard (.inl hclosed)⟩
    | false => exact publish_does h hclosed value hr
  | close =>
    cases hs
    exact close_does h hr
  | reader =>
    cases hs
    exact ⟨r, by unfold reader; rw [List.getElem?_append_left hlt]; exact hr, .opened⟩
  | next j => exact hown j (.inl rfl) .other_next
  | detach j => exact hown j (.inr rfl) .other_detach

/-! ### What an operation does to the queue -/

/-- The values that `op` adds to those published. -/
def accepted (q : AsyncBroadcastQueue T) : Op T → List T
  | .publish value => if q.closed then [] else [value]
  | _ => []

/-- Whether the queue is closed after `op`. -/
def closes (q : AsyncBroadcastQueue T) : Op T → Bool
  | .close => true
  | _ => q.closed

theorem accepted_of_open (hopen : q.closed = false) (value : T) : q.accepted (.publish value) = [value] :=
  if_neg (by rw [hopen]; exact Bool.false_ne_true)

theorem accepted_of_closed (hclosed : q.closed = true) (op : Op T) : q.accepted op = [] := by
  cases op with
  | publish value => exact if_pos hclosed
  | close => rfl
  | reader => rfl
  | next => rfl
  | detach => rfl

theorem step_queue (h : Ok q) {op : Op T} (hs : q.step op = some q') :
    q'.published = q.published ++ q.accepted op ∧ q'.closed = q.closes op ∧
      q'.bufferLimit = q.bufferLimit := by
  have hown : ∀ j, op = .next j ∨ op = .detach j → q'.published = q.published ∧
      q'.closed = q.closed ∧ q'.bufferLimit = q.bufferLimit := by
    intro j hop
    obtain ⟨r, r', -, -, rfl | rfl⟩ := own_does h hop hs
    · exact ⟨rfl, rfl, rfl⟩
    · exact ⟨trim_published, trim_closed, trim_bufferLimit⟩
  cases op with
  | publish value =>
    cases hs
    unfold accepted closes
    cases hclosed : q.closed with
    | true =>
      have hq : q.publish value = q := by unfold publish; rw [if_pos hclosed]
      rw [hq, hclosed]
      exact ⟨(List.append_nil _).symm, rfl, rfl⟩
    | false =>
      obtain ⟨hpublished, hopen, hlimit, -⟩ := pushed_base h value
      rw [publish_eq h hclosed, trim_published, trim_closed, trim_bufferLimit]
      exact ⟨hpublished, hopen.trans hclosed, hlimit⟩
  | close =>
    cases hs
    unfold close accepted closes
    cases hclosed : q.closed with
    | true => exact ⟨(List.append_nil _).symm, hclosed, rfl⟩
    | false => exact ⟨(List.append_nil _).symm, rfl, rfl⟩
  | reader =>
    cases hs
    exact ⟨(List.append_nil _).symm, rfl, rfl⟩
  | next j =>
    obtain ⟨hpublished, hclosed, hlimit⟩ := hown j (.inl rfl)
    exact ⟨by rw [hpublished]; exact (List.append_nil _).symm, hclosed, hlimit⟩
  | detach j =>
    obtain ⟨hpublished, hclosed, hlimit⟩ := hown j (.inr rfl)
    exact ⟨by rw [hpublished]; exact (List.append_nil _).symm, hclosed, hlimit⟩

/-! ### The positions stay inside the buffer -/

/-- A promise that was returned before is still there after another one. -/
private theorem pending_append {promises : List (Promise T)} {p : ℕ}
    (h : ∃ asked, promises[p]? = some ⟨asked, none⟩) (promise : Promise T) :
    ∃ asked, (promises ++ [promise])[p]? = some ⟨asked, none⟩ := by
  obtain ⟨asked, hp⟩ := h
  exact ⟨asked, by rw [List.getElem?_append_left (List.getElem?_eq_some_iff.mp hp).1]; exact hp⟩

/-- A reader that nobody touched fits the queue as long as no value is published and the queue
closes only if the reader is not parked. -/
private theorem ReaderOk.of_eq (h : ReaderOk q r) (hpublished : q'.published = q.published)
    (hclosed : q'.closed = q.closed ∨ r.detached = true ∨ r.waiter = none)
    (hbase : r.detached = false → q'.base ≤ r.position) : ReaderOk q' r where
  base_le := hbase
  le_length := by rw [hpublished]; exact h.le_length
  parked hd p hw := by
    obtain ⟨hend, hopen⟩ := h.parked hd p hw
    rcases hclosed with hclosed | hd' | hw'
    · exact ⟨by rw [hpublished]; exact hend, by rw [hclosed]; exact hopen⟩
    · rw [hd] at hd'
      cases hd'
    · rw [hw] at hw'
      cases hw'
  waiter := h.waiter

/-- A reader that was just answered, or gave up its waiter, is not parked. -/
private theorem ReaderOk.of_not_parked (hw : r.detached = false → r.waiter = none)
    (hbase : r.detached = false → q.base ≤ r.position)
    (hlength : r.detached = false → r.position ≤ q.published.length)
    (hpending : ∀ p, r.waiter = some p → ∃ asked, r.promises[p]? = some ⟨asked, none⟩) :
    ReaderOk q r where
  base_le := hbase
  le_length := hlength
  parked hd p hw' := by
    rw [hw hd] at hw'
    cases hw'
  waiter := hpending

/-- A parked reader points past everything published. -/
private theorem ReaderOk.waiter_eq_none (h : ReaderOk q r) (hd : r.detached = false)
    (hbusy : q.closed = true ∨ r.position < q.published.length) : r.waiter = none := by
  cases hw : r.waiter with
  | none => rfl
  | some p =>
    obtain ⟨hend, hopen⟩ := h.parked hd p hw
    rcases hbusy with hclosed | hlt
    · rw [hopen] at hclosed
      cases hclosed
    · omega

/-- A reader never moves back, and a detached one stays detached. -/
theorem Does.advances {op : Op T} (hdoes : Does q i r op r') :
    r.position ≤ r'.position ∧ (r'.detached = false → r.detached = false) := by
  cases hdoes with
  | passed _ _ _ hle => exact ⟨hle, id⟩
  | woken => exact ⟨Nat.le_succ _, id⟩
  | next_value => exact ⟨Nat.le_succ _, id⟩
  | detached => exact ⟨Nat.le_refl _, fun hd => by cases hd⟩
  | unheard => exact ⟨Nat.le_refl _, id⟩
  | stayed => exact ⟨Nat.le_refl _, id⟩
  | ended => exact ⟨Nat.le_refl _, id⟩
  | opened => exact ⟨Nat.le_refl _, id⟩
  | other_next => exact ⟨Nat.le_refl _, id⟩
  | other_detach => exact ⟨Nat.le_refl _, id⟩
  | next_detached => exact ⟨Nat.le_refl _, id⟩
  | next_done => exact ⟨Nat.le_refl _, id⟩
  | next_parked => exact ⟨Nat.le_refl _, id⟩

/-- A reader that an operation changed fits the queue that the operation leaves. -/
theorem Does.readerOk {op : Op T} (hdoes : Does q i r op r') (h : ReaderOk q r)
    (hpublished : q'.published = q.published ++ q.accepted op) (hclosed : q'.closed = q.closes op)
    (hbase : r'.detached = false → q'.base ≤ r'.position) : ReaderOk q' r' := by
  have hlength : q.published.length ≤ q'.published.length := by
    rw [hpublished, List.length_append]
    omega
  have hsame : q.accepted op = [] → q'.published = q.published := fun hnil => by
    rw [hpublished, hnil, List.append_nil]
  cases hdoes with
  | unheard hquiet =>
    rcases hquiet with hc | hd
    · exact h.of_eq (hsame (if_pos hc)) (.inl hclosed) hbase
    · have hno : r.detached ≠ false := by rw [hd]; exact Bool.noConfusion
      exact .of_not_parked (fun hd' => absurd hd' hno) hbase (fun hd' => absurd hd' hno) h.waiter
  | passed hc hd hw _ hle _ =>
    exact .of_not_parked (fun _ => hw) hbase (fun _ => Nat.le_trans hle hlength) h.waiter
  | @woken value p hc hd hw =>
    have hend := (h.parked hd p hw).1
    refine .of_not_parked (fun _ => rfl) hbase (fun _ => ?_) fun p hp => by cases hp
    rw [hpublished, accepted_of_open hc, List.length_append, List.length_singleton]
    show r.position + 1 ≤ _
    omega
  | stayed hquiet =>
    refine h.of_eq (hsame rfl) ?_ hbase
    rcases hquiet with hc | hquiet
    · exact .inl (hclosed.trans hc.symm)
    · exact .inr hquiet
  | ended hc hd hw =>
    exact .of_not_parked (fun _ => rfl) hbase (fun hd' => Nat.le_trans (h.le_length hd') hlength) fun p hp => by cases hp
  | opened => exact h.of_eq (hsame rfl) (.inl hclosed) hbase
  | other_next => exact h.of_eq (hsame rfl) (.inl hclosed) hbase
  | other_detach => exact h.of_eq (hsame rfl) (.inl hclosed) hbase
  | next_detached hd =>
    have hno : r.detached ≠ false := by rw [hd]; exact Bool.noConfusion
    exact .of_not_parked (fun hd' => absurd hd' hno) hbase (fun hd' => absurd hd' hno)
      fun p hp => pending_append (h.waiter p hp) _
  | next_value hd hitem =>
    have hlt := (List.getElem?_eq_some_iff.mp hitem).1
    have hw := h.waiter_eq_none hd (.inr hlt)
    refine .of_not_parked (fun _ => hw) hbase (fun _ => ?_) fun p hp => pending_append (h.waiter p hp) _
    show r.position + 1 ≤ _
    omega
  | next_done hd hc hend =>
    have hw := h.waiter_eq_none hd (.inl hc)
    exact .of_not_parked (fun _ => hw) hbase (fun hd' => Nat.le_trans (h.le_length hd') hlength)
      fun p hp => pending_append (h.waiter p hp) _
  | next_parked hd hc hend =>
    refine ⟨hbase, fun hd' => Nat.le_trans (h.le_length hd') hlength, fun _ p hp => ?_, fun p hp => ?_⟩
    · rw [hsame rfl]
      exact ⟨hend, hclosed.trans hc⟩
    · cases hp
      exact ⟨_, List.getElem?_concat_length⟩
  | detached => exact .of_not_parked (fun hd => by cases hd) hbase (fun hd => by cases hd) h.waiter

private theorem Ok.of_own (h : Ok q) {op : Op T} (hop : op = .next i ∨ op = .detach i)
    (hr : q.readers[i]? = some r) (hdoes : Does q i r op r') :
    Ok (q.withReaders (q.readers.set i r')) where
  limit := h.limit
  base_le := h.base_le
  buffer_eq := h.buffer_eq
  readers s hs := by
    have hnone : q.accepted op = [] ∧ q.closes op = q.closed := by
      rcases hop with rfl | rfl <;> exact ⟨rfl, rfl⟩
    rcases List.mem_or_eq_of_mem_set hs with hs | rfl
    · exact (h.readers s hs).of_eq rfl (.inl rfl) (h.readers s hs).base_le
    · have hok := h.readers r (List.mem_of_getElem? hr)
      refine hdoes.readerOk hok ?_ ?_ fun hd => ?_
      · rw [hnone.1]
        exact (List.append_nil _).symm
      · rw [hnone.2]
        rfl
      · obtain ⟨hle, hattached⟩ := hdoes.advances
        exact Nat.le_trans (hok.base_le (hattached hd)) hle

/-- The operations keep the positions inside the buffer. -/
theorem step_ok (h : Ok q) {op : Op T} (hs : q.step op = some q') : Ok q' := by
  obtain ⟨hpublished, hclosed, hlimit⟩ := step_queue h hs
  have hown : ∀ j, op = .next j ∨ op = .detach j → Ok q' := by
    intro j hop
    obtain ⟨r, r', hr, hdoes, rfl | rfl⟩ := own_does h hop hs
    · exact h.of_own hop hr hdoes
    · exact (h.of_own hop hr hdoes).trim
  cases op with
  | publish value =>
    cases hs
    cases hc : q.closed with
    | true =>
      have hq : q.publish value = q := by unfold publish; rw [if_pos hc]
      rw [hq]
      exact h
    | false =>
      obtain ⟨hpublished, hopen, hlimit, hbase, hbuffer, -⟩ := pushed_base h value
      have hle := h.base_le
      have hpos := h.limit
      rw [publish_eq h hc]
      refine Ok.trim ⟨by rw [← hlimit] at hpos; exact hpos, ?_, ?_, ?_⟩
      · show (q.pushed value).base ≤ (q.pushed value).published.length
        rw [hpublished, hbase, List.length_append, List.length_singleton]
        omega
      · show (q.pushed value).buffer = (q.pushed value).published.drop (q.pushed value).base
        rw [hbuffer, hpublished]
      · intro s hs
        obtain ⟨r, hr, rfl⟩ := List.mem_map.mp hs
        obtain ⟨hdoes, hlow⟩ := wake_does (i := 0) h hc value hr
        refine hdoes.readerOk (h.readers r hr) ?_ hopen fun hd => hlow (hdoes.advances.2 hd)
        rw [accepted_of_open hc]
        exact hpublished
  | close =>
    cases hs
    have hkept : q.close.base = q.base ∧ q.close.buffer = q.buffer := by
      unfold close
      split <;> exact ⟨rfl, rfl⟩
    have hpublished' : q.close.published = q.published := hpublished.trans (List.append_nil _)
    refine ⟨by rw [hlimit]; exact h.limit, ?_, ?_, fun s hs => ?_⟩
    · rw [hkept.1, hpublished']
      exact h.base_le
    · rw [hkept.1, hkept.2, hpublished']
      exact h.buffer_eq
    · obtain ⟨i, hi⟩ := List.mem_iff_getElem?.mp hs
      obtain ⟨r, hr⟩ : ∃ r, q.readers[i]? = some r := by
        have hlength : q.close.readers.length = q.readers.length := by
          unfold close
          split
          · rfl
          · exact List.length_map _
        have hlt := (List.getElem?_eq_some_iff.mp hi).1
        exact ⟨_, List.getElem?_eq_getElem (by omega)⟩
      obtain ⟨r', hr', hdoes⟩ := close_does h hr
      rw [hi] at hr'
      cases hr'
      have hok := h.readers r (List.mem_of_getElem? hr)
      obtain ⟨hle, hattached⟩ := hdoes.advances
      refine hdoes.readerOk hok hpublished hclosed fun hd => ?_
      rw [hkept.1]
      exact Nat.le_trans (hok.base_le (hattached hd)) hle
  | reader =>
    cases hs
    refine ⟨h.limit, h.base_le, h.buffer_eq, fun s hs => ?_⟩
    rcases List.mem_append.mp hs with hs | hs
    · exact (h.readers s hs).of_eq rfl (.inl rfl) (h.readers s hs).base_le
    · rw [List.mem_singleton.mp hs]
      have hend := h.end_eq
      exact .of_not_parked (fun _ => rfl) (fun _ => Nat.le_add_right _ _)
        (fun _ => Nat.le_of_eq hend) fun p hp => by cases hp
  | next j => exact hown j (.inl rfl)
  | detach j => exact hown j (.inr rfl)

/-- The operations keep the positions inside the buffer over a run. -/
theorem runs_ok {limit : ℕ} (hlimit : 0 < limit) {ops : List (Op T)}
    (hrun : runs step (create limit) ops = some q) : Ok q :=
  runs_kept step (fun hok hs => step_ok hok hs) (ok_create hlimit) hrun

/-- A reader of the queue after an operation was there before, or the operation created it. -/
theorem step_created (h : Ok q) {op : Op T} (hs : q.step op = some q') (hr : q'.readers[i]? = some r') :
    (∃ r, q.readers[i]? = some r ∧ Does q i r op r') ∨
      op = .reader ∧ r' = ⟨q.published.length, none, q.closed, q.published.length, []⟩ := by
  cases hold : q.readers[i]? with
  | some r =>
    obtain ⟨r'', hr'', hdoes⟩ := step_does h hs hold
    rw [hr] at hr''
    cases hr''
    exact .inl ⟨r, rfl, hdoes⟩
  | none =>
    right
    have hlt := (List.getElem?_eq_some_iff.mp hr).1
    have hge := List.getElem?_eq_none_iff.mp hold
    have hown : ∀ j, op = .next j ∨ op = .detach j → q'.readers.length = q.readers.length := by
      intro j hop
      obtain ⟨rj, rj', -, -, hq⟩ := own_does h hop hs
      rw [own_readers hq, List.length_set]
    cases op with
    | publish value =>
      cases hs
      have hlength : (q.publish value).readers.length = q.readers.length := by
        cases hc : q.closed with
        | true => rw [show q.publish value = q by unfold publish; rw [if_pos hc]]
        | false =>
          rw [publish_eq h hc, trim_readers]
          exact List.length_map _
      omega
    | close =>
      cases hs
      have hlength : q.close.readers.length = q.readers.length := by
        unfold close
        split
        · rfl
        · exact List.length_map _
      omega
    | reader =>
      cases hs
      refine ⟨rfl, ?_⟩
      unfold reader at hr hlt
      rw [List.length_append, List.length_singleton] at hlt
      obtain rfl : i = q.readers.length := by omega
      rw [List.getElem?_concat_length, h.end_eq] at hr
      exact (Option.some.inj hr).symm
    | next j =>
      have hlength := hown j (.inl rfl)
      omega
    | detach j =>
      have hlength := hown j (.inr rfl)
      omega

end AsyncBroadcastQueue

end AgentHostProtocol.Client
