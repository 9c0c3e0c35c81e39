import Mathlib.Data.List.Basic

/-!
# Reading a growing list with losses

A reader of a list that only grows keeps a position, takes the value there and moves past it.
It may be moved forward, past values it never sees. `Delivery limit published start takes stop`
says that what it took between two positions is in order, each position at most once, and that
a value was passed over only when `limit` later ones were in the list as the reader asked for
the next. A take is what the reader got with the number of values in the list when it asked.
-/

namespace AgentHostProtocol.Library

universe u

variable {T : Type u}

/-- The takes of a reader of `published` that moved from `start` to `stop`. -/
inductive Delivery (limit : ℕ) (published : List T) (start : ℕ) : List (ℕ × T) → ℕ → Prop where
  | nil : Delivery limit published start [] start
  /-- Asking at length `asked`, the reader gets the value at `i`, passing over what is between. -/
  | take {takes : List (ℕ × T)} {stop asked i : ℕ} {item : T} :
      Delivery limit published start takes stop → stop ≤ i → published[i]? = some item →
      (∀ k, stop ≤ k → k < i → k + 1 + limit ≤ asked) →
      Delivery limit published start (takes ++ [(asked, item)]) (i + 1)

namespace Delivery

variable {limit start stop : ℕ} {published : List T} {takes : List (ℕ × T)}

theorem start_le (h : Delivery limit published start takes stop) : start ≤ stop := by
  induction h with
  | nil => exact Nat.le_refl _
  | take _ hle _ _ ih => omega

/-- Values published later change nothing of what was taken. -/
theorem append (h : Delivery limit published start takes stop) (later : List T) :
    Delivery limit (published ++ later) start takes stop := by
  induction h with
  | nil => exact .nil
  | take _ hle hitem hskip ih =>
    obtain ⟨hlt, -⟩ := List.getElem?_eq_some_iff.mp hitem
    exact .take ih hle (by rw [List.getElem?_append_left hlt]; exact hitem) hskip

private theorem drop_take_succ {i : ℕ} {item : T} (hle : start ≤ i) (hitem : published[i]? = some item) :
    (published.take (i + 1)).drop start = (published.take i).drop start ++ [item] := by
  obtain ⟨hlt, rfl⟩ := List.getElem?_eq_some_iff.mp hitem
  rw [List.take_add_one, List.getElem?_eq_getElem hlt, Option.toList_some, List.drop_append_of_le_length]
  rw [List.length_take]
  omega

/-- **In order, without repetition**: what was taken is a subsequence of what lies between the
two positions. -/
theorem sublist_take (h : Delivery limit published start takes stop) :
    (takes.map Prod.snd).Sublist ((published.take stop).drop start) := by
  induction h with
  | nil => exact List.nil_sublist _
  | take hd hle hitem _ ih =>
    have hstart := hd.start_le
    rw [List.map_append, List.map_singleton, drop_take_succ (by omega) hitem]
    refine List.Sublist.append (ih.trans ?_) (List.Sublist.refl _)
    exact ((List.take_prefix_take_left hle).sublist).drop _

theorem sublist (h : Delivery limit published start takes stop) :
    (takes.map Prod.snd).Sublist (published.drop start) :=
  h.sublist_take.trans ((List.take_sublist _ _).drop _)

end Delivery

end AgentHostProtocol.Library
