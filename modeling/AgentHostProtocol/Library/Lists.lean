import Mathlib.Data.List.Basic
import Mathlib.Data.List.Forall2
import Mathlib.Data.List.Nodup

/-!
# Lists edited in place

The list edits that programs make by searching: replace the first element that
matches or append (`upsertWhere`), remove the first that matches (`eraseWhere`),
rewrite the first that accepts a rewrite (`updateFirst`). And `Grows R xs ys`,
the relation between a list and a later version of it that keeps every position:
the element at `i` is still at `i`, related to what it was by `R`, and there may
be more at the end.
-/

namespace AgentHostProtocol.Library

universe u v w

variable {α : Type u} {κ : Type v}

/-! ### Search and edit -/

/-- What a search finds is in the list and satisfies `p`. -/
theorem getElem?_of_findIdx? {p : α → Bool} {l : List α} {i : ℕ} (h : l.findIdx? p = some i) :
    ∃ x, l[i]? = some x ∧ x ∈ l ∧ p x = true := by
  obtain ⟨hi, hp, -⟩ := List.findIdx?_eq_some_iff_getElem.mp h
  exact ⟨l[i], List.getElem?_eq_getElem hi, List.getElem_mem hi, hp⟩

theorem set_eq_self {l : List α} {i : ℕ} {x : α} (h : l[i]? = some x) : l.set i x = l := by
  obtain ⟨hi, rfl⟩ := List.getElem?_eq_some_iff.mp h
  exact List.set_getElem_self hi

/-- Put `x` in place of the first element that satisfies `p`, or at the end. -/
def upsertWhere (p : α → Bool) (x : α) (l : List α) : List α :=
  match l.findIdx? p with
  | none => l ++ [x]
  | some i => l.set i x

theorem mem_upsertWhere_self (p : α → Bool) (x : α) (l : List α) : x ∈ upsertWhere p x l := by
  unfold upsertWhere
  cases h : l.findIdx? p with
  | none => simp
  | some i =>
    obtain ⟨hi, -, -⟩ := List.findIdx?_eq_some_iff_getElem.mp h
    exact List.mem_set hi x

theorem eq_or_mem_of_mem_upsertWhere {p : α → Bool} {x y : α} {l : List α}
    (h : y ∈ upsertWhere p x l) : y = x ∨ y ∈ l := by
  unfold upsertWhere at h
  cases hi : l.findIdx? p with
  | none =>
    rw [hi] at h
    rcases List.mem_append.mp h with h | h
    · exact .inr h
    · exact .inl (List.mem_singleton.mp h)
  | some i =>
    rw [hi] at h
    exact (List.mem_or_eq_of_mem_set h).symm

/-- An element that is not replaced stays. -/
theorem mem_upsertWhere_of_mem {p : α → Bool} {x y : α} {l : List α} (hy : y ∈ l) (hp : ¬ p y = true) :
    y ∈ upsertWhere p x l := by
  unfold upsertWhere
  cases h : l.findIdx? p with
  | none => exact List.mem_append_left _ hy
  | some i =>
    obtain ⟨hi, hmatch, -⟩ := List.findIdx?_eq_some_iff_getElem.mp h
    obtain ⟨j, hj, rfl⟩ := List.getElem_of_mem hy
    have hne : i ≠ j := by
      rintro rfl
      exact hp hmatch
    exact List.mem_iff_getElem.mpr ⟨j, by simpa using hj, List.getElem_set_ne hne _⟩

/-- Remove the first element that satisfies `p`; `none` if there is none. -/
def eraseWhere (p : α → Bool) (l : List α) : Option (List α) :=
  (l.findIdx? p).map fun i => l.eraseIdx i

theorem eraseWhere_eq_none {p : α → Bool} {l : List α} :
    eraseWhere p l = none ↔ l.any p = false := by
  rw [eraseWhere, Option.map_eq_none_iff, List.findIdx?_eq_none_iff, List.any_eq_false]
  simp

theorem sublist_of_eraseWhere {p : α → Bool} {l l' : List α} (h : eraseWhere p l = some l') :
    l'.Sublist l := by
  obtain ⟨i, -, rfl⟩ := Option.map_eq_some_iff.mp h
  exact List.eraseIdx_sublist l i

/-- An element that does not match is not removed. -/
theorem mem_eraseWhere_getD_of_mem {p : α → Bool} {y : α} {l : List α} (hy : y ∈ l) (hp : ¬ p y = true) :
    y ∈ (eraseWhere p l).getD l := by
  unfold eraseWhere
  cases h : l.findIdx? p with
  | none => exact hy
  | some i =>
    obtain ⟨hi, hmatch, -⟩ := List.findIdx?_eq_some_iff_getElem.mp h
    obtain ⟨j, hj, rfl⟩ := List.getElem_of_mem hy
    have hne : j ≠ i := by
      rintro rfl
      exact hp hmatch
    exact List.mem_eraseIdx_iff_getElem.mpr ⟨j, hj, hne, rfl⟩

/-- An element that nothing else matches goes to the end. -/
theorem upsertWhere_of_not_any {p : α → Bool} {l : List α} (h : l.any p = false) (x : α) :
    upsertWhere p x l = l ++ [x] := by
  unfold upsertWhere
  rw [List.findIdx?_eq_none_iff.mpr fun y hy => by simpa using List.any_eq_false.mp h y hy]

/-- Removing the last element, which is the first that matches. -/
theorem eraseWhere_concat {p : α → Bool} {l : List α} (h : l.any p = false) {x : α} (hx : p x = true) :
    eraseWhere p (l ++ [x]) = some l := by
  have hnone : l.findIdx? p = none :=
    List.findIdx?_eq_none_iff.mpr fun y hy => by simpa using List.any_eq_false.mp h y hy
  unfold eraseWhere
  rw [List.findIdx?_append, hnone]
  simp [hx, List.eraseIdx_append_of_length_le]

/-- Of several writes a place holds the last that meets it. -/
theorem foldl_writes {σ : Type v} {V : Type w} (read : σ → Option V) {write : σ → α → σ} {p : α → Bool}
    {f : α → V} (h : ∀ s a, read (write s a) = if p a then some (f a) else read s) (s : σ) (as : List α) :
    read (as.foldl write s) = ((as.reverse.find? p).map f).or (read s) := by
  induction as generalizing s with
  | nil => rfl
  | cons a as ih =>
    rw [List.foldl_cons, ih, List.reverse_cons, List.find?_append, h]
    cases as.reverse.find? p with
    | some x => rfl
    | none => cases ha : p a <;> simp [ha]

theorem findIdx?_congr {p q : α → Bool} {l : List α} (h : ∀ x ∈ l, p x = q x) :
    l.findIdx? p = l.findIdx? q := by
  induction l with
  | nil => rfl
  | cons x l ih =>
    rw [List.findIdx?_cons, List.findIdx?_cons, h x List.mem_cons_self,
      ih fun y hy => h y (List.mem_cons_of_mem _ hy)]

/-- Two tests that agree on the elements of a list find the same place in it. -/
theorem upsertWhere_congr {p q : α → Bool} {l : List α} (h : ∀ x ∈ l, p x = q x) (x : α) :
    upsertWhere p x l = upsertWhere q x l := by
  rw [upsertWhere, upsertWhere, findIdx?_congr h]

theorem eraseWhere_congr {p q : α → Bool} {l : List α} (h : ∀ x ∈ l, p x = q x) :
    eraseWhere p l = eraseWhere q l := by
  rw [eraseWhere, eraseWhere, findIdx?_congr h]

/-- What is read after a write at `k`. -/
theorem getElem?_set_eq_some {l : List α} {k j : ℕ} {x y : α} (h : (l.set k y)[j]? = some x) :
    (j = k ∧ x = y) ∨ (j ≠ k ∧ l[j]? = some x) := by
  by_cases hj : j = k
  · subst hj
    rw [List.getElem?_set_self'] at h
    obtain ⟨-, -, rfl⟩ := Option.map_eq_some_iff.mp h
    exact .inl ⟨rfl, rfl⟩
  · rw [List.getElem?_set_ne (Ne.symm hj)] at h
    exact .inr ⟨hj, h⟩

/-- A place that is written reads what was written. -/
theorem getElem?_set_of_some {l : List α} {k : ℕ} {x : α} (h : l[k]? = some x) (y : α) :
    (l.set k y)[k]? = some y := by
  rw [List.getElem?_set_self', h]
  rfl

/-- A place reads the same after the same is written anywhere. -/
theorem getElem?_set_same {l : List α} {k j : ℕ} {x : α} (h : l[j]? = some x) :
    (l.set k x)[j]? = some x := by
  by_cases hk : k = j
  · subst hk
    exact getElem?_set_of_some h x
  · rw [List.getElem?_set_ne hk]
    exact h

/-- What is read after one more element. -/
theorem getElem?_concat_eq_some {l : List α} {j : ℕ} {x y : α} (h : (l ++ [y])[j]? = some x) :
    (j = l.length ∧ x = y) ∨ l[j]? = some x := by
  by_cases hj : j < l.length
  · rw [List.getElem?_append_left hj] at h
    exact .inr h
  · rw [List.getElem?_append_right (by omega)] at h
    obtain ⟨hlt, rfl⟩ := List.getElem?_eq_some_iff.mp h
    rw [List.length_singleton] at hlt
    exact .inl ⟨by omega, by simp⟩

/-- A place that was there reads the same. -/
theorem getElem?_concat_of_some {l : List α} {j : ℕ} {x : α} (h : l[j]? = some x) (y : α) :
    (l ++ [y])[j]? = some x := by
  rw [List.getElem?_append_left (List.getElem?_eq_some_iff.mp h).1]
  exact h

/-- What is looked up is an entry. -/
theorem mem_of_lookup_eq_some [DecidableEq κ] {l : List (κ × α)} {k : κ} {x : α}
    (h : l.lookup k = some x) : (k, x) ∈ l := by
  obtain ⟨before, after, rfl, -⟩ := List.lookup_eq_some_iff.mp h
  exact List.mem_append_right _ List.mem_cons_self

/-- With one entry a key, an entry is what is looked up. -/
theorem lookup_eq_some_of_mem [DecidableEq κ] {l : List (κ × α)} (hl : (l.map Prod.fst).Nodup)
    {k : κ} {x : α} (h : (k, x) ∈ l) : l.lookup k = some x := by
  induction l with
  | nil => cases h
  | cons e l ih =>
    obtain ⟨hnot, hrest⟩ := List.nodup_cons.mp hl
    rcases List.mem_cons.mp h with rfl | hmem
    · exact List.lookup_cons_self
    · have hne : (k == e.1) = false := by
        rw [beq_eq_false_iff_ne]
        rintro rfl
        exact hnot (List.mem_map.mpr ⟨_, hmem, rfl⟩)
      obtain ⟨k', x'⟩ := e
      rw [List.lookup_cons, hne]
      exact ih hrest hmem

/-- Rewrite the first element that `f` rewrites; `none` if there is none. -/
def updateFirst (f : α → Option α) : List α → Option (List α)
  | [] => none
  | x :: xs =>
    match f x with
    | some y => some (y :: xs)
    | none => (updateFirst f xs).map fun ys => x :: ys

/-- A loop over a list that rewrites the first element its body returns at, and what it
returns there; `none` if it runs to the end. -/
def returnFirst {ρ : Type v} (body : α → Option (ρ × α)) : List α → Option (ρ × List α)
  | [] => none
  | x :: xs =>
    match body x with
    | some (r, y) => some (r, y :: xs)
    | none => (returnFirst body xs).map fun (r, ys) => (r, x :: ys)

theorem updateFirst_eq_none {f : α → Option α} {l : List α} :
    updateFirst f l = none ↔ ∀ x ∈ l, f x = none := by
  induction l with
  | nil => simp [updateFirst]
  | cons x xs ih =>
    cases hx : f x with
    | some y => simp [updateFirst, hx]
    | none => simp [updateFirst, hx, ih]

/-- Two updates of the first element that matches, the list itself where none does. -/
theorem updateFirst_getD_getD {p : α → Prop} [DecidablePred p] {f g : α → α} (hf : ∀ x, p x → p (f x))
    {l l' : List α} (hl' : (updateFirst (fun x => if p x then some (f x) else none) l).getD l = l') :
    (updateFirst (fun x => if p x then some (g x) else none) l').getD l' =
      (updateFirst (fun x => if p x then some (g (f x)) else none) l).getD l := by
  subst hl'
  induction l with
  | nil => rfl
  | cons x xs ih =>
    by_cases hx : p x
    · simp [updateFirst, hx, hf x hx]
    · have hcons : ∀ (u : Option (List α)) (l : List α),
          (u.map fun ys => x :: ys).getD (x :: l) = x :: u.getD l := by
        rintro (_ | _) l <;> rfl
      simp only [updateFirst, hx, if_false, hcons, ih]

/-- What `updateFirst` does when it succeeds. -/
theorem updateFirst_eq_some {f : α → Option α} {l l' : List α} (h : updateFirst f l = some l') :
    ∃ pre x y post, l = pre ++ x :: post ∧ (∀ z ∈ pre, f z = none) ∧ f x = some y ∧
      l' = pre ++ y :: post := by
  induction l generalizing l' with
  | nil => simp [updateFirst] at h
  | cons x xs ih =>
    cases hx : f x with
    | some y =>
      simp only [updateFirst, hx, Option.some.injEq] at h
      exact ⟨[], x, y, xs, rfl, by simp, hx, h.symm⟩
    | none =>
      simp only [updateFirst, hx, Option.map_eq_some_iff] at h
      obtain ⟨ys, hys, rfl⟩ := h
      obtain ⟨pre, z, y, post, rfl, hpre, hz, rfl⟩ := ih hys
      refine ⟨x :: pre, z, y, post, rfl, ?_, hz, rfl⟩
      intro w hw
      rcases List.mem_cons.mp hw with rfl | hw
      · exact hx
      · exact hpre w hw

/-- What holds of every element and of every rewrite of one holds after an update. -/
theorem forall_of_updateFirst {P : α → Prop} {f : α → Option α} {l l' : List α}
    (hl : ∀ x ∈ l, P x) (hf : ∀ x ∈ l, ∀ y, f x = some y → P y) (h : updateFirst f l = some l') :
    ∀ x ∈ l', P x := by
  obtain ⟨pre, x, y, post, rfl, -, hx, rfl⟩ := updateFirst_eq_some h
  intro z hz
  rcases List.mem_append.mp hz with hz | hz
  · exact hl z (List.mem_append_left _ hz)
  · rcases List.mem_cons.mp hz with rfl | hz
    · exact hf x (by simp) z hx
    · exact hl z (by simp [hz])

/-- An update of the first match is an update of every match when there is at most one. -/
theorem map_eq_of_updateFirst_of_pairwise {f : α → Option α} {l l' : List α}
    (hl : l.Pairwise fun x y => f x = none ∨ f y = none) (h : updateFirst f l = some l') :
    l.map (fun x => (f x).getD x) = l' := by
  obtain ⟨pre, x, y, post, rfl, hpre, hx, rfl⟩ := updateFirst_eq_some h
  have hpost : ∀ z ∈ post, f z = none := by
    intro z hz
    have hcons := (List.pairwise_append.mp hl).2.1
    rcases List.rel_of_pairwise_cons hcons hz with hnone | hnone
    · rw [hx] at hnone
      cases hnone
    · exact hnone
  have hid : ∀ {zs : List α}, (∀ z ∈ zs, f z = none) → zs.map (fun x => (f x).getD x) = zs := by
    intro zs hzs
    conv_rhs => rw [← List.map_id zs]
    exact List.map_congr_left fun z hz => by simp [hzs z hz]
  simp [hid hpre, hid hpost, hx]

/-- There is at most one match when at most one element carries the key that `f` looks for. -/
theorem map_eq_of_updateFirst {f : α → Option α} {key : α → Option κ} {k : κ}
    (hf : ∀ {x y}, f x = some y → key x = some k) {l l' : List α} (hl : (l.filterMap key).Nodup)
    (h : updateFirst f l = some l') : l.map (fun x => (f x).getD x) = l' := by
  refine map_eq_of_updateFirst_of_pairwise ?_ h
  rw [List.Nodup, List.pairwise_filterMap] at hl
  refine hl.imp fun {x y} hne => ?_
  by_contra hor
  rw [not_or] at hor
  obtain ⟨x', hx⟩ := Option.ne_none_iff_exists'.mp hor.1
  obtain ⟨y', hy⟩ := Option.ne_none_iff_exists'.mp hor.2
  exact hne k (hf hx) k (hf hy) rfl

/-- Where nothing matches, an update of every match changes nothing. -/
theorem map_eq_self_of_updateFirst_eq_none {f : α → Option α} {l : List α}
    (h : updateFirst f l = none) : l.map (fun x => (f x).getD x) = l := by
  rw [updateFirst_eq_none] at h
  conv_rhs => rw [← List.map_id l]
  exact List.map_congr_left fun x hx => by simp [h x hx]

/-- `updateFirst` as a search for the index followed by an edit there. -/
theorem updateFirst_eq_findIdx? {f : α → Option α} {p : α → Bool} (hf : ∀ x, (f x).isSome = p x)
    (l : List α) : updateFirst f l =
      (l.findIdx? p).bind fun i => l[i]?.bind fun x => (f x).map fun y => l.set i y := by
  induction l with
  | nil => rfl
  | cons x xs ih =>
    rw [List.findIdx?_cons, updateFirst]
    cases hx : f x with
    | some y =>
      have hp : p x = true := by rw [← hf, hx]; rfl
      simp [hp, hx]
    | none =>
      have hp : p x = false := by rw [← hf, hx]; rfl
      simp only [hp, ih, Bool.false_eq_true, if_false, Option.bind_map, Option.map_bind]
      congr 1
      funext i
      simp only [Function.comp_apply, List.getElem?_cons_succ, Option.map_bind]
      congr 1
      funext z
      cases hz : f z <;> simp [hz]

/-- An update of the first element that satisfies `p`. -/
theorem updateFirst_ite (p : α → Prop) [DecidablePred p] (g : α → α) (l : List α) :
    updateFirst (fun x => if p x then some (g x) else none) l =
      (l.findIdx? p).bind fun i => l[i]?.map fun x => l.set i (g x) := by
  rw [updateFirst_eq_findIdx? (p := fun x => p x) (fun x => by by_cases hp : p x <;> simp [hp])]
  cases h : l.findIdx? p with
  | none => rfl
  | some i =>
    obtain ⟨hi, hp, -⟩ := List.findIdx?_eq_some_iff_getElem.mp h
    have hp : p l[i] := by simpa using hp
    simp [List.getElem?_eq_getElem hi, hp]

/-- Rewriting the first element that satisfies `p` changes nothing exactly if it leaves that
element alone. -/
theorem updateFirst_ite_getD_eq_self_iff (p : α → Prop) [DecidablePred p] (g : α → α) {l : List α} :
    (updateFirst (fun x => if p x then some (g x) else none) l).getD l = l ↔
      ∀ x, l.find? (fun x => p x) = some x → g x = x := by
  induction l with
  | nil => simp [updateFirst]
  | cons x xs ih =>
    by_cases hp : p x
    · simp [updateFirst, hp]
    · rw [List.find?_cons_of_neg (by simpa using hp), ← ih]
      simp only [updateFirst, if_neg hp]
      cases updateFirst (fun x => if p x then some (g x) else none) xs <;> simp

/-- A loop whose body returns at the elements that satisfy `p`. -/
theorem returnFirst_ite {ρ : Type v} (p : α → Prop) [DecidablePred p] (g : α → ρ × α) (l : List α) :
    returnFirst (fun x => if p x then some (g x) else none) l =
      (l.findIdx? p).bind fun i => l[i]?.map fun x => ((g x).1, l.set i (g x).2) := by
  induction l with
  | nil => rfl
  | cons x xs ih =>
    rw [List.findIdx?_cons, returnFirst]
    by_cases hp : p x
    · simp [hp]
    · simp only [hp, if_false, ih, decide_false, Bool.false_eq_true, Option.bind_map, Option.map_bind]
      congr 1
      funext i
      simp [Function.comp_def]

/-- A loop that returns at most once in a list leaves what an update leaves that agrees with
its body wherever the body returns. -/
theorem map_snd_returnFirst {ρ : Type v} {body : α → Option (ρ × α)} {f : α → Option α} {l : List α}
    (hnone : ∀ x ∈ l, body x = none → f x = none)
    (hsome : ∀ x ∈ l, ∀ r y, body x = some (r, y) → (f x).getD x = y)
    (honce : l.Pairwise fun x y => body x = none ∨ f y = none) :
    ((returnFirst body l).map Prod.snd).getD l = (updateFirst f l).getD l := by
  induction l with
  | nil => rfl
  | cons x xs ih =>
    rw [List.pairwise_cons] at honce
    rw [returnFirst, updateFirst]
    cases hx : body x with
    | none =>
      have htail := ih (fun y hy => hnone y (List.mem_cons_of_mem _ hy))
        (fun y hy => hsome y (List.mem_cons_of_mem _ hy)) honce.2
      rw [hnone x List.mem_cons_self hx]
      cases hr : returnFirst body xs <;> cases hu : updateFirst f xs <;> simp_all
    | some r =>
      have hy := hsome x List.mem_cons_self r.1 r.2 hx
      have hrest : updateFirst f xs = none := by
        rw [updateFirst_eq_none]
        intro y hy
        rcases honce.1 y hy with h | h
        · rw [hx] at h
          cases h
        · exact h
      cases hf : f x with
      | none => simpa [hf, hrest] using hy.symm
      | some y => simpa [hf] using hy.symm

/-- Editing the last element. -/
theorem modify_length_concat (l : List α) (x : α) (f : α → α) :
    (l ++ [x]).modify l.length f = l ++ [f x] := by
  induction l with
  | nil => rfl
  | cons y l ih => exact congrArg (y :: ·) ih

theorem length_foldl_modify (f : α → α) (ks : List ℕ) (l : List α) :
    (ks.foldl (fun l k => l.modify k f) l).length = l.length := by
  induction ks generalizing l with
  | nil => rfl
  | cons k ks ih => rw [List.foldl_cons, ih, List.length_modify]

/-- Several places are changed, each as often as it is named, by what does nothing more the second
time. -/
theorem getElem?_foldl_modify {f : α → α} (hf : ∀ x, f (f x) = f x) (ks : List ℕ) (l : List α) (j : ℕ) :
    (ks.foldl (fun l k => l.modify k f) l)[j]? = l[j]?.map fun x => if j ∈ ks then f x else x := by
  induction ks generalizing l with
  | nil => simp
  | cons k ks ih =>
    rw [List.foldl_cons, ih, List.getElem?_modify]
    cases l[j]? with
    | none => rfl
    | some x =>
      by_cases hk : k = j
      · subst hk
        by_cases hmem : k ∈ ks <;> simp [hmem, hf]
      · simp [hk, Ne.symm hk]

/-- A narrower search finds the same position when it accepts what the wider one finds. -/
theorem findIdx?_eq_of_find? {p q : α → Bool} {l : List α} (hqp : ∀ x, q x → p x)
    (h : ∀ x, l.find? p = some x → q x) : l.findIdx? q = l.findIdx? p := by
  induction l with
  | nil => rfl
  | cons x xs ih =>
    rw [List.findIdx?_cons, List.findIdx?_cons]
    by_cases hp : p x
    · rw [if_pos hp, if_pos (h x (List.find?_cons_of_pos hp))]
    · have hq : ¬ q x := fun hq => hp (hqp x hq)
      rw [if_neg hp, if_neg hq, ih fun y hy => h y (by rw [List.find?_cons_of_neg hp, hy])]

/-- The position of what a search finds. -/
theorem findIdx?_of_find?_eq_some {p : α → Bool} {x : α} {l : List α} (h : l.find? p = some x) :
    ∃ i, l.findIdx? p = some i ∧ l[i]? = some x := by
  obtain ⟨hp, i, hi, rfl, hfirst⟩ := List.find?_eq_some_iff_getElem.mp h
  refine ⟨i, List.findIdx?_eq_some_iff_getElem.mpr ⟨hi, hp, ?_⟩, List.getElem?_eq_getElem hi⟩
  intro j hj
  simpa using hfirst j hj

/-- A search by element and one by position find nothing, or the same element. -/
theorem find?_cases (p : α → Bool) (l : List α) :
    l.find? p = none ∧ l.findIdx? p = none ∨
      ∃ i x, l.find? p = some x ∧ l.findIdx? p = some i ∧ l[i]? = some x := by
  cases h : l.find? p with
  | none =>
    refine .inl ⟨rfl, List.findIdx?_eq_none_iff.mpr fun x hx => ?_⟩
    simpa using List.find?_eq_none.mp h x hx
  | some x =>
    obtain ⟨i, hi, hx⟩ := findIdx?_of_find?_eq_some h
    exact .inr ⟨i, x, rfl, hi, hx⟩

/-- What was put in is found. -/
theorem find?_upsertWhere {p : α → Bool} {x : α} (hx : p x) (l : List α) :
    (upsertWhere p x l).find? p = some x := by
  induction l with
  | nil => simp [upsertWhere, hx]
  | cons y ys ih =>
    unfold upsertWhere at ih ⊢
    rw [List.findIdx?_cons]
    by_cases hy : p y
    · simp [hy, hx]
    · rw [if_neg hy]
      cases hi : ys.findIdx? p with
      | none => simpa [hi, hy] using ih
      | some i => simpa [hi, hy] using ih

/-- Putting in what is found changes nothing. -/
theorem upsertWhere_eq_self {p : α → Bool} {x : α} {l : List α} (h : l.find? p = some x) :
    upsertWhere p x l = l := by
  obtain ⟨i, hidx, hx⟩ := findIdx?_of_find?_eq_some h
  obtain ⟨hi, rfl⟩ := List.getElem?_eq_some_iff.mp hx
  rw [upsertWhere, hidx]
  exact List.set_getElem_self hi

/-! ### Search by a key that occurs once -/

section Keyed

variable {key : α → κ} [DecidableEq κ]

/-- In a list of distinct keys a search finds the element that has the key. -/
theorem find?_eq_some_iff_of_nodup {l : List α} (hl : (l.map key).Nodup) {k : κ} {x : α} :
    l.find? (fun y => key y = k) = some x ↔ x ∈ l ∧ key x = k := by
  induction l with
  | nil => simp
  | cons y ys ih =>
    rw [List.map_cons, List.nodup_cons] at hl
    by_cases hy : key y = k
    · rw [List.find?_cons_of_pos (by simpa using hy), Option.some_inj]
      constructor
      · rintro rfl
        exact ⟨List.mem_cons_self, hy⟩
      · rintro ⟨hx, hk⟩
        rcases List.mem_cons.mp hx with rfl | hx
        · rfl
        · exact absurd (List.mem_map.mpr ⟨x, hx, hk.trans hy.symm⟩) hl.1
    · rw [List.find?_cons_of_neg (by simpa using hy), ih hl.2, List.mem_cons]
      constructor
      · rintro ⟨hx, hk⟩
        exact ⟨.inr hx, hk⟩
      · rintro ⟨rfl | hx, hk⟩
        · exact absurd hk hy
        · exact ⟨hx, hk⟩

/-- Dropping the key of the head from a list of distinct keys drops the head. -/
theorem filter_ne_head {x : α} {xs : List α} (hl : ((x :: xs).map key).Nodup) :
    (x :: xs).filter (fun y => key y ≠ key x) = xs := by
  rw [List.map_cons, List.nodup_cons] at hl
  rw [List.filter_cons_of_neg (by simp), List.filter_eq_self]
  intro y hy
  have hne : key y ≠ key x := fun h => hl.1 (h ▸ List.mem_map_of_mem hy)
  simpa using hne

/-- Putting an element where its key is leaves the keys, or appends its key. -/
theorem map_upsertWhere (x : α) (l : List α) :
    (upsertWhere (fun y => key y = key x) x l).map key =
      if key x ∈ l.map key then l.map key else l.map key ++ [key x] := by
  unfold upsertWhere
  cases h : l.findIdx? fun y => key y = key x with
  | none =>
    have hx : key x ∉ l.map key := by
      rw [List.findIdx?_eq_none_iff] at h
      intro hmem
      obtain ⟨y, hy, hk⟩ := List.mem_map.mp hmem
      simpa [hk] using h y hy
    rw [if_neg hx, List.map_append, List.map_singleton]
  | some i =>
    obtain ⟨hi, hk, -⟩ := List.findIdx?_eq_some_iff_getElem.mp h
    have hk : key l[i] = key x := by simpa using hk
    rw [if_pos (List.mem_map.mpr ⟨l[i], List.getElem_mem hi, hk⟩), List.map_set, ← hk]
    refine List.ext_getElem (by simp) fun j h₁ h₂ => ?_
    rw [List.getElem_set]
    split
    · next hij => subst hij; rw [List.getElem_map]
    · rfl

/-- Removing the element of a key removes the key. -/
theorem map_eraseWhere (x : κ) (l : List α) :
    ((eraseWhere (fun y => key y = x) l).getD l).map key = (l.map key).erase x := by
  have herase : (eraseWhere (fun y => key y = x) l).getD l = l.eraseP fun y => key y = x := by
    rw [eraseWhere, List.eraseP_eq_eraseIdx]
    cases l.findIdx? fun y => key y = x <;> rfl
  rw [herase, List.erase_eq_eraseP', List.eraseP_map]
  congr 2

theorem nodup_map_upsertWhere {l : List α} (hl : (l.map key).Nodup) (x : α) :
    ((upsertWhere (fun y => key y = key x) x l).map key).Nodup := by
  rw [map_upsertWhere]
  split
  · exact hl
  · next hx =>
    rw [List.nodup_append]
    refine ⟨hl, List.nodup_singleton _, ?_⟩
    intro a ha b hb hab
    rw [List.mem_singleton] at hb
    exact hx (hb ▸ hab ▸ ha)

end Keyed

/-! ### Segments -/

section Segments

variable {key : α → κ} [DecidableEq κ]

/-- The elements of a segment whose keys do not come later are its first part. -/
theorem filter_notMem_append {c d after : List α} (hdistinct : ((c ++ (d ++ after)).map key).Nodup) :
    ((c ++ d).filter fun x => key x ∉ (d ++ after).map key) = c := by
  rw [List.map_append, List.nodup_append] at hdistinct
  have hc : (c.filter fun x => key x ∉ (d ++ after).map key) = c := by
    refine List.filter_eq_self.mpr fun x hx => ?_
    simp only [decide_eq_true_eq]
    exact fun hmem => hdistinct.2.2 _ (List.mem_map_of_mem hx) _ hmem rfl
  have hd : (d.filter fun x => key x ∉ (d ++ after).map key) = [] := by
    refine List.filter_eq_nil_iff.mpr fun x hx => ?_
    simp only [decide_eq_true_eq, not_not]
    exact List.mem_map_of_mem (List.mem_append_left _ hx)
  rw [List.filter_append, hc, hd, List.append_nil]

/-- A segment that meets an end of a list, put before it without what is there already, makes a
longer end of the list. -/
theorem filter_append_suffix {whole window before page after : List α} (hdistinct : (whole.map key).Nodup)
    (hwindow : window <:+ whole) (hpage : whole = before ++ (page ++ after))
    (hmeets : after = window ∨ ∃ x ∈ page, x ∈ window) :
    (page.filter fun x => key x ∉ window.map key) ++ window <:+ whole := by
  obtain ⟨pre, hpre⟩ := hwindow
  rcases List.append_eq_append_iff.mp (hpre.trans hpage) with ⟨c, -, hrest⟩ | ⟨c, rfl, hrest⟩
  · -- the segment is part of the end
    have hnone : (page.filter fun x => key x ∉ window.map key) = [] := by
      refine List.filter_eq_nil_iff.mpr fun x hx => ?_
      simp only [decide_eq_true_eq, not_not]
      rw [hrest]
      exact List.mem_map_of_mem (List.mem_append_right _ (List.mem_append_left _ hx))
    rw [hnone]
    exact ⟨pre, hpre⟩
  · -- it begins before the end: what it adds is `c`
    have hsplit : ∃ d, page = c ++ d ∧ window = d ++ after := by
      rcases List.append_eq_append_iff.mp hrest with ⟨d, rfl, rfl⟩ | ⟨d, rfl, rfl⟩
      · rcases hmeets with hafter | ⟨x, hx, hxwindow⟩
        · have hlength := congrArg List.length hafter
          rw [List.length_append] at hlength
          obtain rfl := List.eq_nil_of_length_eq_zero (l := d) (by omega)
          exact ⟨[], by simp, by simp⟩
        · rw [← hpre, List.map_append, List.nodup_append] at hdistinct
          have hxpre : x ∈ before ++ (page ++ d) :=
            List.mem_append_right _ (List.mem_append_left _ hx)
          exact absurd rfl (hdistinct.2.2 _ (List.mem_map_of_mem hxpre) _ (List.mem_map_of_mem hxwindow))
      · exact ⟨d, rfl, rfl⟩
    obtain ⟨d, rfl, rfl⟩ := hsplit
    rw [← hpre, List.append_assoc, List.map_append] at hdistinct
    rw [filter_notMem_append (List.nodup_append.mp hdistinct).2.1]
    exact ⟨before, by rw [← hpre, List.append_assoc]⟩

end Segments

/-! ### Search in a forest -/

section Forest

variable (ids : α → List κ) {k : κ} {g : α → α}

theorem map_eq_self_of_notMem_ids {l : List α} (hk : ∀ x ∈ l, k ∉ ids x) (hother : ∀ x, k ∉ ids x → g x = x) :
    l.map g = l := by
  have hid : l.map g = l.map id := List.map_congr_left fun x hx => hother x (hk x hx)
  rw [hid, List.map_id]

/-- When one tree holds the key, a map that changes no other tree changes that one. -/
theorem map_of_mem_ids {pre post : List α} {x : α} (hdistinct : ((pre ++ x :: post).flatMap ids).Nodup)
    (hk : k ∈ ids x) (hother : ∀ x, k ∉ ids x → g x = x) :
    (pre ++ x :: post).map g = pre ++ g x :: post := by
  rw [List.flatMap_append, List.flatMap_cons, List.nodup_append, List.nodup_append] at hdistinct
  obtain ⟨-, ⟨-, -, hpost⟩, hpre⟩ := hdistinct
  have hbefore : pre.map g = pre := map_eq_self_of_notMem_ids ids (fun y hy hmem =>
    hpre k (List.mem_flatMap.mpr ⟨y, hy, hmem⟩) k (List.mem_append_left _ hk) rfl) hother
  have hafter : post.map g = post := map_eq_self_of_notMem_ids ids (fun y hy hmem =>
    hpost k hk k (List.mem_flatMap.mpr ⟨y, hy, hmem⟩) rfl) hother
  rw [List.map_append, List.map_cons, hbefore, hafter]

/-- The tree with the key at its root is replaced. -/
theorem set_eq_map {l : List α} (hdistinct : (l.flatMap ids).Nodup) (hother : ∀ x, k ∉ ids x → g x = x)
    {i : ℕ} {x : α} (hx : l[i]? = some x) (hk : k ∈ ids x) : l.set i (g x) = l.map g := by
  obtain ⟨hi, rfl⟩ := List.getElem?_eq_some_iff.mp hx
  obtain ⟨pre, post, hl, -, hset⟩ : ∃ pre post, l = pre ++ l[i] :: post ∧ pre.length = i ∧
      l.set i (g l[i]) = pre ++ g l[i] :: post := List.exists_of_set hi
  rw [hl] at hdistinct
  rw [hset, ← map_of_mem_ids ids hdistinct hk hother, ← hl]

/-- The tree that a search for its root finds is replaced. -/
theorem set_eq_map_of_findIdx? [DecidableEq κ] {l : List α} (hdistinct : (l.flatMap ids).Nodup)
    (hother : ∀ x, k ∉ ids x → g x = x) {root : α → κ} (hroot : ∀ x, root x ∈ ids x) {i : ℕ}
    (h : l.findIdx? (fun x => root x = k) = some i) :
    ∃ x, l[i]? = some x ∧ x ∈ l ∧ root x = k ∧ l.set i (g x) = l.map g := by
  obtain ⟨x, hx, hmem, hp⟩ := getElem?_of_findIdx? h
  have hk : root x = k := of_decide_eq_true hp
  exact ⟨x, hx, hmem, hk, set_eq_map ids hdistinct hother hx (hk ▸ hroot x)⟩

/-- A search that rewrites the trees that hold the key rewrites the one that does, if there is one. -/
theorem updateFirst_forest {l : List α} (hdistinct : (l.flatMap ids).Nodup)
    (hother : ∀ x, k ∉ ids x → g x = x) {f : α → Option α}
    (hf : ∀ x ∈ l, k ∉ ids x ∧ f x = none ∨ k ∈ ids x ∧ f x = some (g x)) :
    k ∉ l.flatMap ids ∧ updateFirst f l = none ∨
      k ∈ l.flatMap ids ∧ updateFirst f l = some (l.map g) := by
  cases h : updateFirst f l with
  | none =>
    refine .inl ⟨fun hmem => ?_, rfl⟩
    obtain ⟨x, hx, hk⟩ := List.mem_flatMap.mp hmem
    have hnone := updateFirst_eq_none.mp h x hx
    rcases hf x hx with ⟨hnot, -⟩ | ⟨-, hsome⟩
    · exact hnot hk
    · rw [hsome] at hnone
      cases hnone
  | some l' =>
    obtain ⟨pre, x, y, post, rfl, -, hx, rfl⟩ := updateFirst_eq_some h
    have hmem : x ∈ pre ++ x :: post := List.mem_append_right _ List.mem_cons_self
    rcases hf x hmem with ⟨-, hnone⟩ | ⟨hk, hsome⟩
    · rw [hnone] at hx
      cases hx
    · rw [hsome] at hx
      cases hx
      exact .inr ⟨List.mem_flatMap.mpr ⟨x, hmem, hk⟩,
        congrArg some (map_of_mem_ids ids hdistinct hk hother).symm⟩

end Forest

/-! ### Edits element by element -/

section Forall₂

variable {R : α → α → Prop}

theorem forall₂_set (hrefl : ∀ x, R x x) {xs : List α} {i : ℕ} {x y : α} (hx : xs[i]? = some x)
    (h : R x y) : List.Forall₂ R xs (xs.set i y) := by
  induction xs generalizing i with
  | nil => simp at hx
  | cons z zs ih =>
    cases i with
    | zero =>
      simp only [List.getElem?_cons_zero, Option.some.injEq] at hx
      subst hx
      exact .cons h (List.forall₂_same.mpr fun w _ => hrefl w)
    | succ i =>
      rw [List.getElem?_cons_succ] at hx
      exact .cons (hrefl z) (ih hx)

theorem forall₂_updateFirst (hrefl : ∀ x, R x x) {f : α → Option α}
    (hf : ∀ {x y}, f x = some y → R x y) {xs ys : List α} (h : updateFirst f xs = some ys) :
    List.Forall₂ R xs ys := by
  obtain ⟨pre, x, y, post, rfl, -, hx, rfl⟩ := updateFirst_eq_some h
  have hset : pre ++ y :: post = (pre ++ x :: post).set pre.length y := by simp
  rw [hset]
  exact forall₂_set hrefl (by simp) (hf hx)

theorem forall₂_map {f : α → α} {xs : List α} (h : ∀ x, R x (f x)) : List.Forall₂ R xs (xs.map f) := by
  rw [List.forall₂_map_right_iff]
  exact List.forall₂_same.mpr fun x _ => h x

/-- What is at a place of related lists is related. -/
theorem exists_of_forall₂_left {xs ys : List α} (h : List.Forall₂ R xs ys) {i : ℕ} {x : α}
    (hx : xs[i]? = some x) : ∃ y, ys[i]? = some y ∧ R x y := by
  induction h generalizing i with
  | nil => simp at hx
  | cons hxy _ ih =>
    cases i with
    | zero =>
      rw [List.getElem?_cons_zero, Option.some.injEq] at hx
      subst hx
      exact ⟨_, rfl, hxy⟩
    | succ i => exact ih hx

theorem exists_of_forall₂_right {xs ys : List α} (h : List.Forall₂ R xs ys) {i : ℕ} {y : α}
    (hy : ys[i]? = some y) : ∃ x, xs[i]? = some x ∧ R x y := by
  obtain ⟨x, hx, hR⟩ := exists_of_forall₂_left (List.Forall₂.flip h) hy
  exact ⟨x, hx, hR⟩

/-- Elements for which a predicate says the same before and after satisfy it somewhere
before when they do after. -/
theorem any_eq_of_forall₂ {p : α → Bool} {xs ys : List α}
    (h : List.Forall₂ (fun x y => p y = p x) xs ys) : ys.any p = xs.any p := by
  induction h with
  | nil => rfl
  | cons hxy _ ih => rw [List.any_cons, List.any_cons, hxy, ih]

end Forall₂

/-! ### Lists that grow in place -/

/-- `ys` is a later version of `xs`: what was at a position is still there, related
to what it was by `R`. -/
def Grows (R : α → α → Prop) (xs ys : List α) : Prop :=
  ∀ (i : ℕ) (x : α), xs[i]? = some x → ∃ y, ys[i]? = some y ∧ R x y

namespace Grows

variable {R S : α → α → Prop}

theorem refl (h : ∀ x, R x x) (xs : List α) : Grows R xs xs := fun _ x hx => ⟨x, hx, h x⟩

theorem trans (h : ∀ {x y z}, R x y → R y z → R x z) {xs ys zs : List α} (h₁ : Grows R xs ys)
    (h₂ : Grows R ys zs) : Grows R xs zs := by
  intro i x hx
  obtain ⟨y, hy, hR⟩ := h₁ i x hx
  obtain ⟨z, hz, hS⟩ := h₂ i y hy
  exact ⟨z, hz, h hR hS⟩

theorem mono (h : ∀ {x y}, R x y → S x y) {xs ys : List α} (hg : Grows R xs ys) : Grows S xs ys := by
  intro i x hx
  obtain ⟨y, hy, hR⟩ := hg i x hx
  exact ⟨y, hy, h hR⟩

/-- A list edited element by element and extended has grown. -/
theorem of_forall₂ {xs ys : List α} (h : List.Forall₂ R xs ys) (fresh : List α) :
    Grows R xs (ys ++ fresh) := by
  intro i x hx
  obtain ⟨hi, rfl⟩ := List.getElem?_eq_some_iff.mp hx
  have hi' : i < ys.length := h.length_eq ▸ hi
  refine ⟨ys[i], ?_, h.get hi hi'⟩
  rw [List.getElem?_append_left hi', List.getElem?_eq_getElem hi']

end Grows

end AgentHostProtocol.Library
