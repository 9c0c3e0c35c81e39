import Mathlib.Data.List.Basic

/-!
# Mutable references

A mutable reference into a value: what it points at, and the whole after a write through
it. References compose, so a search through nested containers is one reference.
-/

namespace AgentHostProtocol.Library

universe u v w

variable {σ : Type u} {τ : Type v} {β : Type w} {α : Type u}

/-- A mutable reference to a `β` inside a `σ`. -/
structure Ref (σ : Type u) (β : Type v) where
  /-- What it points at. -/
  value : β
  /-- The whole after a write. -/
  write : β → σ

namespace Ref

/-- A reference through a reference. -/
def comp (r : Ref σ τ) (q : Ref τ β) : Ref σ β := ⟨q.value, fun b => r.write (q.write b)⟩

/-- The whole with what the reference points at rewritten. -/
def modify (r : Ref σ β) (f : β → β) : σ := r.write (f r.value)

/-- A write of what is there changes nothing. -/
def Lawful (r : Ref σ β) (s : σ) : Prop := r.write r.value = s

theorem Lawful.comp {r : Ref σ τ} {s : σ} (hr : r.Lawful s) {q : Ref τ β} (hq : q.Lawful r.value) :
    (r.comp q).Lawful s := by
  show r.write (q.write q.value) = s
  rw [hq, hr]

/-- The first element that satisfies `p`. -/
def find? (p : α → Bool) (l : List α) : Option (Ref (List α) α) :=
  (l.findIdx? p).bind fun i => l[i]?.map fun x => ⟨x, fun y => l.set i y⟩

theorem find?_eq_none {p : α → Bool} {l : List α} : find? p l = none ↔ l.findIdx? p = none := by
  unfold find?
  cases h : l.findIdx? p with
  | none => simp
  | some i =>
    obtain ⟨hi, -⟩ := List.findIdx?_eq_some_iff_getElem.mp h
    simp [List.getElem?_eq_getElem hi]

theorem find?_of_findIdx? {p : α → Bool} {l : List α} {i : ℕ} (h : l.findIdx? p = some i) :
    ∃ x, l[i]? = some x ∧ find? p l = some ⟨x, fun y => l.set i y⟩ := by
  obtain ⟨hlt, -⟩ := List.findIdx?_eq_some_iff_getElem.mp h
  refine ⟨l[i], List.getElem?_eq_getElem hlt, ?_⟩
  rw [find?, h, Option.bind_some, List.getElem?_eq_getElem hlt]
  rfl

theorem find?_lawful {p : α → Bool} {l : List α} {r : Ref (List α) α} (h : find? p l = some r) :
    r.Lawful l := by
  unfold find? at h
  obtain ⟨i, -, h⟩ := Option.bind_eq_some_iff.mp h
  obtain ⟨x, hx, rfl⟩ := Option.map_eq_some_iff.mp h
  obtain ⟨hlt, rfl⟩ := List.getElem?_eq_some_iff.mp hx
  exact List.set_getElem_self hlt

end Ref

end AgentHostProtocol.Library
