import Mathlib.Data.List.Induction

/-!
# Reading units off a growing buffer

A reader of units takes the first unit off the front of a buffer, asks for more, or fails. It is
incremental when bytes that come later do not change what it said of those before. Then a stream
splits into the same units however it is cut into chunks.

* `units_append` — the units of a buffer to which a chunk is added are those it had, and those
  that what was left over gives with the chunk.
* `Reads.units_eq` — what was read off so far is the front of the units of the whole stream.
* `feed_eq` — chunk by chunk a stream gives the units that it gives as a whole.
-/

namespace AgentHostProtocol.Library

universe u v w

/-- What the front of a buffer gives. -/
inductive Front (α : Type u) (ε : Type v) (β : Type w) where
  /-- Not enough has come yet. -/
  | more
  | got (a : α) (rest : List β)
  | failed (e : ε)

variable {α : Type u} {ε : Type v} {β : Type w} {read : List β → Front α ε β}

/-- A unit is not empty, and later bytes change nothing of what was read. -/
structure Incremental (read : List β → Front α ε β) : Prop where
  shorter : ∀ {b a rest}, read b = .got a rest → rest.length < b.length
  got_append : ∀ {b a rest}, read b = .got a rest → ∀ c, read (b ++ c) = .got a (rest ++ c)
  failed_append : ∀ {b e}, read b = .failed e → ∀ c, read (b ++ c) = .failed e

/-- The units `as` are read off the front of a buffer, which leaves `rest`. -/
inductive Reads (read : List β → Front α ε β) : List β → List α → List β → Prop where
  | nil (b : List β) : Reads read b [] b
  | cons {b b' rest : List β} {a : α} {as : List α} :
      read b = .got a b' → Reads read b' as rest → Reads read b (a :: as) rest

namespace Reads

variable {b b' c rest : List β} {a : α} {as bs : List α}

/-- One unit more is read off. -/
theorem concat (h : Reads read b as b') (hread : read b' = .got a rest) :
    Reads read b (as ++ [a]) rest := by
  induction h with
  | nil b => exact .cons hread (.nil rest)
  | cons hb _ ih => exact .cons hb (ih hread)

theorem append (h : Reads read b as b') (h' : Reads read b' bs rest) :
    Reads read b (as ++ bs) rest := by
  induction h with
  | nil b => exact h'
  | cons hb _ ih => exact .cons hb (ih h')

/-- Later bytes stand behind what is left over. -/
theorem append_right (h : Incremental read) (hr : Reads read b as rest) (c : List β) :
    Reads read (b ++ c) as (rest ++ c) := by
  induction hr with
  | nil b => exact .nil (b ++ c)
  | cons hb _ ih => exact .cons (h.got_append hb c) ih

end Reads

/-! ### All units of a buffer -/

/-- At most `fuel` units of a buffer, and what is left over. -/
def unitsWithin (read : List β → Front α ε β) : ℕ → List β → List α × List β
  | 0, b => ([], b)
  | fuel + 1, b =>
    match read b with
    | .got a rest => (a :: (unitsWithin read fuel rest).1, (unitsWithin read fuel rest).2)
    | _ => ([], b)

/-- All units of a buffer, and what is left over. -/
def units (read : List β → Front α ε β) (b : List β) : List α × List β := unitsWithin read b.length b

namespace Incremental

variable {b rest : List β} {as : List α}

theorem read_nil_ne_got (h : Incremental read) (a : α) (rest : List β) : read [] ≠ .got a rest := by
  intro hread
  have hlt := h.shorter hread
  rw [List.length_nil] at hlt
  exact Nat.not_lt_zero _ hlt

/-- Fuel for every byte is enough. -/
theorem unitsWithin_spec (h : Incremental read) {fuel : ℕ} (hfuel : b.length ≤ fuel) :
    Reads read b (unitsWithin read fuel b).1 (unitsWithin read fuel b).2 ∧
      ∀ a rest, read (unitsWithin read fuel b).2 ≠ .got a rest := by
  induction fuel generalizing b with
  | zero =>
    obtain rfl := List.eq_nil_of_length_eq_zero (Nat.le_zero.mp hfuel)
    exact ⟨.nil [], h.read_nil_ne_got⟩
  | succ fuel ih =>
    cases hread : read b with
    | got a rest =>
      have hlt := h.shorter hread
      obtain ⟨hreads, hleft⟩ := ih (b := rest) (by omega)
      simp only [unitsWithin, hread]
      exact ⟨.cons hread hreads, hleft⟩
    | more =>
      simp only [unitsWithin, hread]
      exact ⟨.nil b, by simp⟩
    | failed e =>
      simp only [unitsWithin, hread]
      exact ⟨.nil b, by simp⟩

theorem reads_units (h : Incremental read) (b : List β) :
    Reads read b (units read b).1 (units read b).2 :=
  (h.unitsWithin_spec (Nat.le_refl _)).1

/-- What is left over holds no unit. -/
theorem read_units_ne_got (h : Incremental read) (b : List β) (a : α) (rest : List β) :
    read (units read b).2 ≠ .got a rest :=
  (h.unitsWithin_spec (Nat.le_refl _)).2 a rest

end Incremental

/-- Units that are read off until none is left are all there are. -/
theorem Reads.eq_of_read_ne_got {b rest rest' : List β} {as as' : List α} (hr : Reads read b as rest)
    (hr' : Reads read b as' rest') (hno : ∀ a b', read rest ≠ .got a b')
    (hno' : ∀ a b', read rest' ≠ .got a b') : as = as' ∧ rest = rest' := by
  induction hr generalizing as' with
  | nil b =>
    cases hr' with
    | nil => exact ⟨rfl, rfl⟩
    | cons hread _ => exact absurd hread (hno _ _)
  | cons hread _ ih =>
    cases hr' with
    | nil => exact absurd hread (hno' _ _)
    | cons hread' htail =>
      rw [hread] at hread'
      cases hread'
      obtain ⟨rfl, rfl⟩ := ih htail hno
      exact ⟨rfl, rfl⟩

/-- What was read off so far is the front of all units. -/
theorem Reads.units_eq (h : Incremental read) {b rest : List β} {as : List α}
    (hr : Reads read b as rest) :
    units read b = (as ++ (units read rest).1, (units read rest).2) := by
  have hall := hr.append (h.reads_units rest)
  obtain ⟨hunits, hleft⟩ := (h.reads_units b).eq_of_read_ne_got hall (h.read_units_ne_got b)
    (h.read_units_ne_got rest)
  exact Prod.ext hunits hleft

theorem units_of_got (h : Incremental read) {b rest : List β} {a : α} (hread : read b = .got a rest) :
    units read b = (a :: (units read rest).1, (units read rest).2) :=
  (Reads.cons hread (.nil rest)).units_eq h

theorem units_of_ne_got {b : List β} (hno : ∀ a rest, read b ≠ .got a rest) : units read b = ([], b) := by
  unfold units
  cases b.length with
  | zero => rfl
  | succ n =>
    unfold unitsWithin
    split
    · next a rest hread => exact absurd hread (hno a rest)
    · rfl

/-- **Chunks**: the units of a buffer and of a chunk added to it. -/
theorem units_append (h : Incremental read) (b c : List β) :
    units read (b ++ c) = ((units read b).1 ++ (units read ((units read b).2 ++ c)).1,
      (units read ((units read b).2 ++ c)).2) :=
  ((h.reads_units b).append_right h c).units_eq h

/-- The units that chunks give, and what is left over, one chunk at a time. -/
def feed (read : List β → Front α ε β) (chunks : List (List β)) : List α × List β :=
  chunks.foldl (fun r c => (r.1 ++ (units read (r.2 ++ c)).1, (units read (r.2 ++ c)).2)) ([], [])

/-- A stream gives the same units however it is cut. -/
theorem feed_eq (h : Incremental read) (chunks : List (List β)) :
    feed read chunks = units read chunks.flatten := by
  induction chunks using List.reverseRecOn with
  | nil => exact (units_of_ne_got h.read_nil_ne_got).symm
  | append_singleton chunks c ih =>
    have hstep : feed read (chunks ++ [c]) =
        ((feed read chunks).1 ++ (units read ((feed read chunks).2 ++ c)).1,
          (units read ((feed read chunks).2 ++ c)).2) := by
      unfold feed
      rw [List.foldl_append]
      rfl
    rw [hstep, ih, List.flatten_append, List.flatten_singleton, units_append h chunks.flatten c]

/-- Units that are written one behind the other are read off again. -/
theorem reads_flatMap {γ : Type*} {write : γ → List β} {unit : γ → α} {xs : List γ}
    (hwrite : ∀ x ∈ xs, ∀ rest, read (write x ++ rest) = .got (unit x) rest) (rest : List β) :
    Reads read (xs.flatMap write ++ rest) (xs.map unit) rest := by
  induction xs with
  | nil => exact .nil rest
  | cons x xs ih =>
    rw [List.flatMap_cons, List.append_assoc, List.map_cons]
    exact .cons (hwrite x List.mem_cons_self _) (ih fun y hy => hwrite y (List.mem_cons_of_mem x hy))

/-- A part of a unit that was written is neither a unit nor an error. -/
theorem read_part_of_unit (h : Incremental read) {b c : List β} {a : α} (hread : read (b ++ c) = .got a [])
    (hc : c ≠ []) : read b = .more := by
  cases hb : read b with
  | more => rfl
  | got a' rest =>
    rw [h.got_append hb c] at hread
    injection hread with _ hnil
    exact absurd (List.append_eq_nil_iff.mp hnil).2 hc
  | failed e => rw [h.failed_append hb c] at hread; cases hread

/-! ### Up to a unit of a kind -/

/-- What stands behind the first unit that `stop` holds of. -/
def dropThrough (stop : α → Bool) : List α → List α
  | [] => []
  | a :: as => if stop a then as else dropThrough stop as

/-- Nothing is left behind exactly when no unit before the last one stops. -/
theorem dropThrough_eq_nil_iff (stop : α → Bool) (as : List α) :
    dropThrough stop as = [] ↔ ∀ a ∈ as.dropLast, stop a = false := by
  induction as with
  | nil => simp [dropThrough]
  | cons a as ih =>
    cases as with
    | nil => simp [dropThrough]
    | cons b as =>
      unfold dropThrough
      rw [List.dropLast_cons_of_ne_nil (List.cons_ne_nil b as), List.forall_mem_cons]
      cases ha : stop a with
      | true => simp
      | false =>
        rw [if_neg (by simp), ih]
        simp

end AgentHostProtocol.Library
