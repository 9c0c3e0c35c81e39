import Mathlib.Data.List.Basic
import Mathlib.Data.List.Nodup

/-!
# Records

A finite map from strings as a program keeps it in an object: the keys in the order
in which they were first written, each key once.
-/

namespace AgentHostProtocol.Library

universe u

/-- A map from strings, its keys in order of first insertion. -/
structure Record (V : Type u) where
  /-- The keys with their values. -/
  entries : List (String × V)
  /-- Each key occurs once. -/
  nodup : (entries.map Prod.fst).Nodup
  deriving DecidableEq

namespace Record

variable {V : Type u}

/-- The record without keys. -/
def empty : Record V := ⟨[], List.nodup_nil⟩

/-- Whether the record has no keys. -/
def isEmpty (r : Record V) : Bool := r.entries.isEmpty

private theorem map_fst_replace (k : String) (v : V) (l : List (String × V)) :
    (l.map fun e => if e.1 = k then (k, v) else e).map Prod.fst = l.map Prod.fst := by
  rw [List.map_map]
  refine List.map_congr_left fun e _ => ?_
  by_cases h : e.1 = k <;> simp [h]

private theorem nodup_append_new {k : String} {v : V} {l : List (String × V)}
    (hl : (l.map Prod.fst).Nodup) (h : k ∉ l.map Prod.fst) : ((l ++ [(k, v)]).map Prod.fst).Nodup := by
  rw [List.map_append, List.map_singleton, List.nodup_append]
  refine ⟨hl, List.nodup_singleton k, fun a ha b hb hab => h ?_⟩
  rw [List.mem_singleton] at hb
  rwa [hab, hb] at ha

/-- `r[k]`. -/
def get? (r : Record V) (k : String) : Option V := r.entries.lookup k

/-- `r[k] = v`: the value of a key that is present is replaced where it stands, a
new key comes last. -/
def set (r : Record V) (k : String) (v : V) : Record V :=
  if h : k ∈ r.entries.map Prod.fst then
    ⟨r.entries.map fun e => if e.1 = k then (k, v) else e, by rw [map_fst_replace]; exact r.nodup⟩
  else
    ⟨r.entries ++ [(k, v)], nodup_append_new r.nodup h⟩

/-- `delete r[k]`. -/
def delete (r : Record V) (k : String) : Record V :=
  ⟨r.entries.filter fun e => e.1 ≠ k, r.nodup.sublist (List.filter_sublist.map _)⟩

/-- The entries of `b` written one by one into `a`: `{ ...a, ...b }`. -/
def merge (a b : Record V) : Record V := b.entries.foldl (fun r e => r.set e.1 e.2) a

private theorem foldl_set_entries (l : List (String × V)) (r : Record V)
    (h : ((r.entries ++ l).map Prod.fst).Nodup) :
    (l.foldl (fun r e => r.set e.1 e.2) r).entries = r.entries ++ l := by
  induction l generalizing r with
  | nil => simp
  | cons e l ih =>
    have hnew : e.1 ∉ r.entries.map Prod.fst := by
      rw [List.map_append, List.nodup_append] at h
      exact fun hmem => h.2.2 e.1 hmem e.1 (by simp) rfl
    have hset : (r.set e.1 e.2).entries = r.entries ++ [e] := by
      unfold set
      rw [dif_neg hnew]
    rw [List.foldl_cons, ih, hset]
    · simp
    · rw [hset]
      simpa using h

/-- Writing the entries of a record into the empty one gives the record. -/
theorem empty_merge (r : Record V) : empty.merge r = r := by
  have h := foldl_set_entries r.entries empty (by simpa [empty] using r.nodup)
  unfold merge
  generalize List.foldl _ _ _ = r' at h
  cases r'
  cases r
  cases h
  rfl

/-! ### Reading what was written -/

theorem get?_empty (k : String) : (empty : Record V).get? k = none := rfl

/-- An entry of the record is what its key reads. -/
theorem mem_entries {r : Record V} {k : String} {v : V} : (k, v) ∈ r.entries ↔ r.get? k = some v := by
  have h := r.nodup
  unfold get?
  generalize r.entries = l at h
  induction l with
  | nil => simp
  | cons e l ih =>
    obtain ⟨k', v'⟩ := e
    rw [List.map_cons, List.nodup_cons] at h
    by_cases hk : k = k'
    · subst hk
      rw [List.lookup_cons_self]
      constructor
      · intro hmem
        rcases List.mem_cons.mp hmem with heq | hmem
        · rw [(Prod.mk.inj heq).2]
        · exact absurd (List.mem_map_of_mem hmem) h.1
      · rintro heq
        rw [Option.some.inj heq]
        exact List.mem_cons_self
    · have hne : (k == k') = false := beq_false_of_ne hk
      rw [List.lookup_cons, hne, List.mem_cons]
      refine Iff.trans ?_ (ih h.2)
      constructor
      · rintro (heq | hmem)
        · exact absurd (Prod.mk.inj heq).1 hk
        · exact hmem
      · exact .inr

/-- A key that reads nothing is not there. -/
theorem get?_eq_none {r : Record V} {k : String} : r.get? k = none ↔ k ∉ r.entries.map Prod.fst := by
  constructor
  · intro h hmem
    obtain ⟨e, he, rfl⟩ := List.mem_map.mp hmem
    have hsome := mem_entries.mp (show (e.1, e.2) ∈ r.entries from he)
    rw [h] at hsome
    cases hsome
  · intro h
    cases hget : r.get? k with
    | none => rfl
    | some v => exact absurd (List.mem_map_of_mem (mem_entries.mpr hget)) h

/-- Reading after a write. -/
theorem get?_set (r : Record V) (k k' : String) (v : V) :
    (r.set k v).get? k' = if k' = k then some v else r.get? k' := by
  ext w
  rw [← mem_entries]
  unfold set
  split
  next hmem =>
    rw [List.mem_map]
    by_cases hk : k' = k
    · rw [if_pos hk]
      subst hk
      constructor
      · rintro ⟨e, he, heq⟩
        by_cases hek : e.1 = k'
        · rw [if_pos hek] at heq
          rw [(Prod.mk.inj heq).2]
        · rw [if_neg hek] at heq
          exact absurd (congrArg Prod.fst heq) hek
      · rintro hw
        obtain ⟨e, he, hek⟩ := List.mem_map.mp hmem
        exact ⟨e, he, by rw [if_pos hek, Option.some.inj hw]⟩
    · rw [if_neg hk, ← mem_entries]
      constructor
      · rintro ⟨e, he, heq⟩
        by_cases hek : e.1 = k
        · rw [if_pos hek] at heq
          exact absurd (Prod.mk.inj heq).1.symm hk
        · rw [if_neg hek] at heq
          rwa [← heq]
      · intro he
        exact ⟨_, he, if_neg hk⟩
  next hnew =>
    rw [List.mem_append, List.mem_singleton, Prod.mk.injEq]
    by_cases hk : k' = k
    · subst hk
      rw [if_pos rfl]
      constructor
      · rintro (he | ⟨-, rfl⟩)
        · exact absurd (List.mem_map_of_mem he) hnew
        · rfl
      · intro hw
        exact .inr ⟨rfl, (Option.some.inj hw).symm⟩
    · rw [if_neg hk, ← mem_entries]
      constructor
      · rintro (he | ⟨heq, -⟩)
        · exact he
        · exact absurd heq hk
      · exact .inl

/-- Reading after a deletion. -/
theorem get?_delete (r : Record V) (k k' : String) :
    (r.delete k).get? k' = if k' = k then none else r.get? k' := by
  ext w
  rw [← mem_entries]
  unfold delete
  rw [List.mem_filter]
  by_cases hk : k' = k
  · simp [hk]
  · rw [if_neg hk, ← mem_entries]
    simp [hk]

/-! ### Some of the keys -/

/-- The entries whose keys satisfy `p`, in their order. -/
def restrict (p : String → Bool) (r : Record V) : Record V :=
  ⟨r.entries.filter fun e => p e.1, r.nodup.sublist (List.filter_sublist.map _)⟩

theorem ext_entries {r r' : Record V} (h : r.entries = r'.entries) : r = r' := by
  cases r
  cases r'
  cases h
  rfl

theorem get?_restrict (p : String → Bool) (r : Record V) (k : String) :
    (r.restrict p).get? k = if p k then r.get? k else none := by
  ext v
  rw [← mem_entries]
  unfold restrict
  rw [List.mem_filter, mem_entries]
  by_cases hk : p k <;> simp [hk]

@[simp] theorem restrict_empty (p : String → Bool) : (empty : Record V).restrict p = empty := rfl

/-- A write under a key that is not looked at is not seen. -/
theorem restrict_set_of_not {p : String → Bool} {k : String} (hk : p k = false) (r : Record V)
    (v : V) : (r.set k v).restrict p = r.restrict p := by
  apply ext_entries
  show (r.set k v).entries.filter _ = r.entries.filter _
  unfold set
  split
  · rw [List.filter_map]
    have hp : ((fun e : String × V => p e.1) ∘ fun e => if e.1 = k then (k, v) else e) =
        fun e => p e.1 := by
      funext e
      by_cases he : e.1 = k <;> simp [he, hk]
    rw [hp]
    refine (List.map_congr_left fun e he => ?_).trans (List.map_id _)
    have hne : e.1 ≠ k := by
      rintro rfl
      rw [(List.mem_filter.mp he).2] at hk
      cases hk
    exact if_neg hne
  · rw [List.filter_append]
    simp [hk]

/-- A write under a key that is looked at. -/
theorem restrict_set_of_pos {p : String → Bool} {k : String} (hk : p k) (r : Record V) (v : V) :
    (r.set k v).restrict p = (r.restrict p).set k v := by
  have hmem : k ∈ (r.restrict p).entries.map Prod.fst ↔ k ∈ r.entries.map Prod.fst := by
    rw [← not_iff_not, ← get?_eq_none, ← get?_eq_none, get?_restrict, if_pos hk]
  apply ext_entries
  show (r.set k v).entries.filter _ = ((r.restrict p).set k v).entries
  by_cases h : k ∈ r.entries.map Prod.fst
  · unfold set
    rw [dif_pos h, dif_pos (hmem.mpr h)]
    show (r.entries.map _).filter _ = (r.entries.filter _).map _
    rw [List.filter_map]
    congr 2
    funext e
    by_cases he : e.1 = k <;> simp [he, hk]
  · unfold set
    rw [dif_neg h, dif_neg fun hr => h (hmem.mp hr)]
    show (r.entries ++ _).filter _ = r.entries.filter _ ++ _
    rw [List.filter_append]
    simp [hk]

/-- What is looked at twice. -/
theorem restrict_restrict (p q : String → Bool) (r : Record V) :
    (r.restrict q).restrict p = r.restrict fun k => p k && q k := by
  apply ext_entries
  exact List.filter_filter

theorem restrict_comm (p q : String → Bool) (r : Record V) :
    (r.restrict q).restrict p = (r.restrict p).restrict q := by
  rw [restrict_restrict, restrict_restrict]
  congr 1
  funext k
  exact Bool.and_comm _ _

theorem delete_eq_restrict (r : Record V) (k : String) : r.delete k = r.restrict fun k' => k' ≠ k := rfl

/-- Removing keys that are not looked at is not seen. -/
theorem restrict_restrict_of_imp {p q : String → Bool} (h : ∀ k, p k → q k) (r : Record V) :
    (r.restrict q).restrict p = r.restrict p := by
  rw [restrict_restrict]
  congr 1
  funext k
  by_cases hk : p k
  · rw [hk, h k hk, Bool.and_true]
  · rw [Bool.eq_false_iff.mpr hk, Bool.false_and]

/-- Nothing is left of what was removed. -/
theorem restrict_restrict_not (p : String → Bool) (r : Record V) :
    (r.restrict fun k => !p k).restrict p = empty := by
  rw [restrict_restrict]
  apply ext_entries
  exact List.filter_eq_nil_iff.mpr fun e _ => by simp

end Record

end AgentHostProtocol.Library
