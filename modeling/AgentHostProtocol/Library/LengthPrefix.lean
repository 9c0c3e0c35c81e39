import Mathlib.Algebra.Ring.Nat
import Mathlib.Data.List.Infix

/-!
# Length-prefixed words

A word written as its length, a separator and its letters. The length may count a letter more
than once, as a length in code units does; it is only needed that every letter counts.

* `prefix_unique` — of two such words that start the same text, neither is shorter: they are
  the same.
-/

namespace AgentHostProtocol.Library

universe u

/-- How a length is written, and what a letter counts. -/
structure LengthPrefix (α : Type u) where
  /-- The text of a length. -/
  header : ℕ → List α
  /-- The letter that ends it. -/
  sep : α
  /-- What a letter counts. -/
  size : α → ℕ
  header_injective : Function.Injective header
  sep_notMem : ∀ n, sep ∉ header n
  size_pos : ∀ a, 0 < size a

namespace LengthPrefix

variable {α : Type u} (c : LengthPrefix α)

/-- The length of a word. -/
def length (w : List α) : ℕ := (w.map c.size).sum

/-- The word with its length before it. -/
def encode (w : List α) : List α := c.header (c.length w) ++ c.sep :: w

/-- A prefix of a word that counts as much as the word is the word. -/
theorem eq_of_prefix_of_length {v w : List α} (h : v <+: w) (hlen : c.length v = c.length w) :
    v = w := by
  obtain ⟨t, rfl⟩ := h
  cases t with
  | nil => simp
  | cons a t =>
    have ha := c.size_pos a
    unfold length at hlen
    rw [List.map_append, List.sum_append, List.map_cons, List.sum_cons] at hlen
    omega

/-- Two texts that are cut at the first separator are cut at the same place. -/
theorem eq_of_sep {sep : α} {h h' t t' : List α} (hsep : sep ∉ h) (hsep' : sep ∉ h')
    (heq : h ++ sep :: t = h' ++ sep :: t') : h = h' ∧ t = t' := by
  induction h generalizing h' with
  | nil =>
    cases h' with
    | nil => exact ⟨rfl, (List.cons.inj heq).2⟩
    | cons b h' =>
      have hb : sep = b := (List.cons.inj heq).1
      exact absurd (hb ▸ List.mem_cons_self) hsep'
  | cons a h ih =>
    cases h' with
    | nil =>
      have ha : a = sep := (List.cons.inj heq).1
      exact absurd (ha ▸ List.mem_cons_self) hsep
    | cons b h' =>
      rw [List.cons_append, List.cons_append] at heq
      obtain ⟨rfl, htail⟩ := List.cons.inj heq
      obtain ⟨rfl, rfl⟩ := ih (List.not_mem_of_not_mem_cons hsep)
        (List.not_mem_of_not_mem_cons hsep') htail
      exact ⟨rfl, rfl⟩

/-- **No confusion**: words whose encodings start the same text are equal. -/
theorem prefix_unique {v w text : List α} (hv : c.encode v <+: text) (hw : c.encode w <+: text) :
    v = w := by
  obtain ⟨s, rfl⟩ := hv
  obtain ⟨t, ht⟩ := hw
  unfold encode at ht
  rw [List.append_assoc, List.append_assoc, List.cons_append, List.cons_append] at ht
  obtain ⟨hheader, hrest⟩ := eq_of_sep (c.sep_notMem _) (c.sep_notMem _) ht
  have hlen : c.length w = c.length v := c.header_injective hheader
  have hwv : w <+: v ++ s := ⟨t, hrest⟩
  rcases List.prefix_or_prefix_of_prefix (List.prefix_append v s) hwv with h | h
  · exact c.eq_of_prefix_of_length h hlen.symm
  · exact (c.eq_of_prefix_of_length h hlen).symm

end LengthPrefix

end AgentHostProtocol.Library
