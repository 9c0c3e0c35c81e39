import Mathlib.Data.BitVec

/-!
# A field of bits inside a word

A mask `m` marks the bits of a field. `setField s m a` writes `a` into the field
and leaves the other bits of `s`; flags outside the mask do not touch the field.
-/

namespace AgentHostProtocol.Library

variable {n : ℕ}

/-- Write `a` into the field `m` of `s`. -/
def setField (s m a : BitVec n) : BitVec n := s &&& ~~~m ||| a

/-- The field of a word into which `a` was written is `a`. -/
theorem setField_and (s m a : BitVec n) : setField s m a &&& m = a &&& m := by
  unfold setField
  ext i hi
  simp only [BitVec.getElem_and, BitVec.getElem_or, BitVec.getElem_not]
  cases s[i] <;> cases m[i] <;> cases a[i] <;> rfl

/-- Writing `a` changes nothing exactly when the field holds `a` already. -/
theorem setField_eq_self_iff {s m a : BitVec n} (ha : a &&& m = a) :
    setField s m a = s ↔ s &&& m = a := by
  constructor
  · intro h
    rw [← h, setField_and, ha]
  · rintro rfl
    unfold setField
    ext i hi
    simp only [BitVec.getElem_and, BitVec.getElem_or, BitVec.getElem_not]
    cases s[i] <;> cases m[i] <;> rfl

/-- Setting a flag outside the field leaves the field. -/
theorem or_and_of_disjoint (s : BitVec n) {f m : BitVec n} (h : f &&& m = 0) :
    (s ||| f) &&& m = s &&& m := by
  rw [BitVec.and_comm, BitVec.and_or_distrib_left, BitVec.and_comm m f, h, BitVec.and_comm]
  simp

/-- Clearing a flag outside the field leaves the field. -/
theorem and_not_and_of_disjoint (s : BitVec n) {f m : BitVec n} (h : f &&& m = 0) :
    (s &&& ~~~f) &&& m = s &&& m := by
  ext i hi
  have hi' : (f &&& m)[i] = false := by rw [h]; simp
  simp only [BitVec.getElem_and, BitVec.getElem_not] at hi' ⊢
  cases s[i] <;> cases hm : m[i] <;> cases hf : f[i] <;> simp_all

/-- Flags inside the field read what was written. -/
theorem setField_and_of_subset (s : BitVec n) {f m : BitVec n} (a : BitVec n) (h : m &&& f = f) :
    setField s m a &&& f = a &&& f := by
  rw [← h, ← BitVec.and_assoc, setField_and, BitVec.and_assoc]

/-- Writing the field leaves the flags outside it. -/
theorem setField_and_of_disjoint (s : BitVec n) {f m a : BitVec n} (h : m &&& f = 0)
    (ha : a &&& f = 0) : setField s m a &&& f = s &&& f := by
  unfold setField
  rw [or_and_of_disjoint _ ha, and_not_and_of_disjoint _ h]

/-- A cleared flag reads as zero. -/
theorem and_not_and_self (s f : BitVec n) : s &&& ~~~f &&& f = 0 := by
  rw [BitVec.and_assoc, BitVec.and_comm (~~~f), BitVec.and_not_self]
  simp

/-- Clearing a flag of the field that was written is writing the field without it. -/
theorem setField_and_not (s a : BitVec n) {m f : BitVec n} (h : m &&& f = f) :
    setField s m a &&& ~~~f = setField s m (a &&& ~~~f) := by
  unfold setField
  ext i hi
  have hi' : (m &&& f)[i] = f[i] := by rw [h]
  simp only [BitVec.getElem_and, BitVec.getElem_or, BitVec.getElem_not] at hi' ⊢
  cases s[i] <;> cases hm : m[i] <;> cases hf : f[i] <;> simp_all

/-- Clearing a flag changes nothing exactly when it is clear already. -/
theorem and_not_eq_self_iff {s f : BitVec n} : s &&& ~~~f = s ↔ s &&& f = 0 := by
  constructor
  · intro h
    rw [← h]
    exact and_not_and_self s f
  · intro h
    ext i hi
    have hi' : (s &&& f)[i] = false := by rw [h]; simp
    simp only [BitVec.getElem_and, BitVec.getElem_not] at hi' ⊢
    cases hs : s[i] <;> cases hf : f[i] <;> simp_all

end AgentHostProtocol.Library
