import Mathlib.Data.List.Basic

/-!
# Canonical decimals

The decimal digits of a number as they are written, without leading zeros, and how a text that
begins with them is read.

* `toDigits_ofDigitChars`, `canonical_toDigits`: the canonical digit strings are those of the
  numbers.
* `readDecimal_append`: they are read back in front of anything that goes on without a digit.
-/

namespace AgentHostProtocol.Library

/-- Digits without a leading zero. -/
inductive Canonical : List Char → Prop
  | zero : Canonical ['0']
  | digits {c : Char} {cs : List Char} : c.isDigit = true → c ≠ '0' → (∀ d ∈ cs, d.isDigit = true) →
    Canonical (c :: cs)

/-- Read digits without a leading zero, as many as there are, and what follows. -/
def readDecimal : List Char → Option (List Char × List Char)
  | [] => none
  | c :: cs =>
    if c = '0' then some (['0'], cs)
    else if c.isDigit then some (c :: cs.takeWhile Char.isDigit, cs.dropWhile Char.isDigit)
    else none

theorem readDecimal_eq_some {cs ds rest : List Char} (h : readDecimal cs = some (ds, rest)) :
    cs = ds ++ rest ∧ Canonical ds := by
  cases cs with
  | nil => cases h
  | cons c cs =>
    simp only [readDecimal] at h
    split at h
    · next hzero =>
      cases h
      exact ⟨by rw [hzero]; rfl, .zero⟩
    · next hne =>
      split at h
      · next hdigit =>
        cases h
        refine ⟨by rw [List.cons_append, List.takeWhile_append_dropWhile], .digits hdigit hne fun d hd => ?_⟩
        exact List.all_eq_true.mp List.all_takeWhile d hd
      · cases h

theorem readDecimal_append {ds rest : List Char} (h : Canonical ds)
    (hrest : ∀ c ∈ rest.head?, c.isDigit = false) : readDecimal (ds ++ rest) = some (ds, rest) := by
  cases h with
  | zero => rfl
  | @digits c cs hdigit hne hall =>
    have hdrop : rest.dropWhile Char.isDigit = rest := by
      cases rest with
      | nil => rfl
      | cons d rest => simp [hrest d rfl]
    have htake : rest.takeWhile Char.isDigit = [] := by
      cases rest with
      | nil => rfl
      | cons d rest => simp [hrest d rfl]
    simp only [List.cons_append, readDecimal, hne, hdigit, if_true, if_false]
    rw [List.takeWhile_append_of_pos hall, List.dropWhile_append_of_pos hall, hdrop, htake, List.append_nil]

/-! ### The digits of a number -/

theorem digitChar_value {c : Char} (h : c.isDigit = true) :
    (c.toNat - '0'.toNat).digitChar = c ∧ c.toNat - '0'.toNat < 10 := by
  obtain ⟨hlo, hhi⟩ := Char.isDigit_iff_toNat.mp h
  have hlt : c.toNat - '0'.toNat < 10 := by
    simp only [Char.reduceToNat] at hlo hhi ⊢
    omega
  refine ⟨Char.toNat_inj.mp ?_, hlt⟩
  rw [Nat.toNat_digitChar_of_lt_ten hlt]
  simp only [Char.reduceToNat] at hlo ⊢
  omega

/-- Digits that follow those of a positive number are those of a number. -/
theorem toDigits_append {ds : List Char} (hall : ∀ d ∈ ds, d.isDigit = true) {n : ℕ} (hn : 0 < n) :
    Nat.toDigits 10 n ++ ds = Nat.toDigits 10 (Nat.ofDigitChars 10 ds n) := by
  induction ds generalizing n with
  | nil => rw [List.append_nil, Nat.ofDigitChars_nil]
  | cons d ds ih =>
    obtain ⟨hchar, hlt⟩ := digitChar_value (hall d List.mem_cons_self)
    have hd : Nat.toDigits 10 (d.toNat - '0'.toNat) = [d] := by
      rw [Nat.toDigits_of_lt_base hlt, hchar]
    rw [Nat.ofDigitChars_cons, ← ih (fun e he => hall e (List.mem_cons_of_mem _ he)) (by omega),
      ← Nat.toDigits_append_toDigits (by decide) hn hlt, hd, List.append_assoc, List.singleton_append]

/-- A canonical decimal is the digits of its value. -/
theorem toDigits_ofDigitChars {ds : List Char} (h : Canonical ds) :
    Nat.toDigits 10 (Nat.ofDigitChars 10 ds 0) = ds := by
  cases h with
  | zero => rfl
  | @digits c cs hdigit hne hall =>
    obtain ⟨hchar, hlt⟩ := digitChar_value hdigit
    have hpos : 0 < c.toNat - '0'.toNat := by
      refine Nat.pos_of_ne_zero fun hzero => hne ?_
      rw [← hchar, hzero]
      rfl
    rw [Nat.ofDigitChars_cons, Nat.mul_zero, Nat.zero_add, ← toDigits_append hall hpos,
      Nat.toDigits_of_lt_base hlt, hchar, List.singleton_append]

/-- The digits of a number are canonical. -/
theorem canonical_toDigits (n : ℕ) : Canonical (Nat.toDigits 10 n) := by
  induction n using Nat.strongRecOn with
  | ind n ih =>
    have hdigit : ∀ d ∈ Nat.toDigits 10 n, d.isDigit = true := fun d hd =>
      Nat.isDigit_of_mem_toDigits (by decide) (by decide) hd
    by_cases hlt : n < 10
    · rw [Nat.toDigits_of_lt_base hlt] at hdigit ⊢
      by_cases hzero : n = 0
      · rw [hzero]
        exact .zero
      · refine .digits (hdigit _ List.mem_cons_self) (fun heq => ?_) fun _ hd => by cases hd
        exact hzero (Nat.digitChar_eq_zero.mp heq)
    · -- the leading digit is that of the quotient, which is not zero
      have hpos : 0 < n / 10 := by omega
      have hquotient := ih (n / 10) (by omega)
      rw [Nat.toDigits_of_base_le (by decide) (by omega)] at hdigit ⊢
      generalize hds : Nat.toDigits 10 (n / 10) = ds at hquotient hdigit ⊢
      cases hquotient with
      | zero =>
        have hvalue := congrArg (fun ds => Nat.ofDigitChars 10 ds 0) hds
        simp only [Nat.ofDigitChars_ten_toDigits] at hvalue
        rw [hvalue] at hpos
        cases hpos
      | digits hc hne hall =>
        exact .digits hc hne fun d hd => hdigit d (List.mem_cons_of_mem _ hd)

end AgentHostProtocol.Library
