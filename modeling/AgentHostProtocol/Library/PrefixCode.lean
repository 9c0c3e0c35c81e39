import Mathlib.Data.List.Basic

/-!
# Codes that are read from the front

A code writes each letter as a word. Where the front of a text tells which word it starts
with, a text written letter by letter can be read again.

* `PrefixCode.flatMap_injective` — two texts with the same code are the same.
-/

namespace AgentHostProtocol.Library

universe u v

/-- The words of a code are not empty and the front of a text tells its first word. -/
structure PrefixCode {α : Type u} {β : Type v} (code : α → List β) : Prop where
  ne_nil : ∀ a, code a ≠ []
  letter : ∀ {a b : α} {s t : List β}, code a ++ s = code b ++ t → a = b

namespace PrefixCode

variable {α : Type u} {β : Type v} {code : α → List β}

/-- A text that starts with a word is not empty. -/
theorem append_ne_nil (h : PrefixCode code) (a : α) (s : List β) : code a ++ s ≠ [] := by
  intro hs
  exact h.ne_nil a (List.append_eq_nil_iff.mp hs).1

/-- What stands behind the first word is the same too. -/
theorem rest (h : PrefixCode code) {a b : α} {s t : List β} (hst : code a ++ s = code b ++ t) :
    a = b ∧ s = t := by
  have hab : a = b := h.letter hst
  subst hab
  exact ⟨rfl, List.append_cancel_left hst⟩

/-- Two texts with the same code are the same. -/
theorem flatMap_injective (h : PrefixCode code) : Function.Injective (List.flatMap code) := by
  intro as
  induction as with
  | nil =>
    intro bs hbs
    cases bs with
    | nil => rfl
    | cons b bs => exact absurd hbs.symm (h.append_ne_nil b _)
  | cons a as ih =>
    intro bs hbs
    cases bs with
    | nil => exact absurd hbs (h.append_ne_nil a _)
    | cons b bs =>
      rw [List.flatMap_cons, List.flatMap_cons] at hbs
      obtain ⟨rfl, htail⟩ := h.rest hbs
      rw [ih htail]

end PrefixCode

end AgentHostProtocol.Library
