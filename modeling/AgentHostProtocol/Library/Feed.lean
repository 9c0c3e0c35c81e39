import Mathlib.Data.List.Basic
import Mathlib.Logic.Function.Basic

/-!
# A feed of edits

A store of values under keys, and a feed of edits of it: a value is put, removed or patched. A
follower that copies the store in the middle of a feed and then works through the whole feed
applies edits that the copy has already seen. It ends at the store all the same
(`replay_self`), provided that patches compose and that a patch made twice is made once.
-/

namespace AgentHostProtocol.Library

universe u v w

/-- Patches of values. -/
structure Patching (V : Type v) (P : Type w) where
  merge : V → P → V
  /-- Two patches as one. -/
  comp : P → P → P
  merge_comp : ∀ v p q, merge (merge v p) q = merge v (comp p q)
  merge_self : ∀ v p, merge (merge v p) p = merge v p

/-- An edit of a store. -/
inductive Edit (K : Type u) (V : Type v) (P : Type w) where
  | put (key : K) (value : V)
  | remove (key : K)
  /-- A value that is not there is not patched. -/
  | patch (key : K) (change : P)

namespace Edit

variable {K : Type u} {V : Type v} {P : Type w} [DecidableEq K]

/-- The store after an edit, by what a patch makes of a value. -/
def apply (merge : V → P → V) (store : K → Option V) : Edit K V P → K → Option V
  | put key value => Function.update store key (some value)
  | remove key => Function.update store key none
  | patch key change => Function.update store key ((store key).map fun v => merge v change)

/-- What edits do under one key: they fix what is there, leave it, or patch it. -/
inductive Effect (merge : V → P → V) (k : K) (f : (K → Option V) → K → Option V) : Prop where
  | fixed (value : Option V) (h : ∀ store, f store k = value)
  | left (h : ∀ store, f store k = store k)
  | patched (change : P) (h : ∀ store, f store k = (store k).map fun v => merge v change)

theorem effect_apply (merge : V → P → V) (k : K) (e : Edit K V P) :
    Effect merge k fun store => apply merge store e := by
  cases e with
  | put k' v =>
    by_cases hk : k = k'
    · subst hk
      exact .fixed (some v) fun store => Function.update_self _ _ _
    · exact .left fun store => Function.update_of_ne hk _ _
  | remove k' =>
    by_cases hk : k = k'
    · subst hk
      exact .fixed none fun store => Function.update_self _ _ _
    · exact .left fun store => Function.update_of_ne hk _ _
  | patch k' p =>
    by_cases hk : k = k'
    · subst hk
      exact .patched p fun store => Function.update_self _ _ _
    · exact .left fun store => Function.update_of_ne hk _ _

end Edit

namespace Patching

variable {K : Type u} {V : Type v} {P : Type w} [DecidableEq K] (patching : Patching V P)

/-- The store after a feed. -/
def follow (store : K → Option V) (es : List (Edit K V P)) : K → Option V :=
  es.foldl (Edit.apply patching.merge) store

@[simp] theorem follow_nil (store : K → Option V) : patching.follow store [] = store := rfl

@[simp] theorem follow_cons (store : K → Option V) (e : Edit K V P) (es : List (Edit K V P)) :
    patching.follow store (e :: es) = patching.follow (Edit.apply patching.merge store e) es := rfl

theorem follow_append (store : K → Option V) (es fs : List (Edit K V P)) :
    patching.follow store (es ++ fs) = patching.follow (patching.follow store es) fs :=
  List.foldl_append

/-- What a feed does under one key is what one edit can do. -/
theorem effect_follow (k : K) (es : List (Edit K V P)) :
    Edit.Effect patching.merge k fun store => patching.follow store es := by
  induction es with
  | nil => exact .left fun store => rfl
  | cons e es ih =>
    cases ih with
    | fixed value h => exact .fixed value fun store => h _
    | left h =>
      cases Edit.effect_apply patching.merge k e with
      | fixed value he => exact .fixed value fun store => (h _).trans (he store)
      | left he => exact .left fun store => (h _).trans (he store)
      | patched p he => exact .patched p fun store => (h _).trans (he store)
    | patched q h =>
      cases Edit.effect_apply patching.merge k e with
      | fixed value he =>
        refine .fixed (value.map fun v => patching.merge v q) fun store => (h _).trans ?_
        rw [he store]
      | left he =>
        refine .patched q fun store => (h _).trans ?_
        rw [he store]
      | patched p he =>
        refine .patched (patching.comp p q) fun store => (h _).trans ?_
        rw [he store, Option.map_map]
        congr 1
        funext v
        exact patching.merge_comp v p q

/-- **Stale replays converge**: a feed worked through again, from where it ends, ends there. -/
theorem replay_self (store : K → Option V) (es : List (Edit K V P)) :
    patching.follow (patching.follow store es) es = patching.follow store es := by
  funext k
  cases patching.effect_follow k es with
  | fixed value h => rw [h, h]
  | left h => exact h _
  | patched p h =>
    rw [h, h, Option.map_map]
    congr 1
    funext v
    exact patching.merge_self v p

end Patching

end AgentHostProtocol.Library
