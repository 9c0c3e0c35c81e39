import Mathlib.Data.List.Nodup
import Mathlib.Data.List.Perm.Basic

/-!
# Ledgers

What a component owes answers for: the keys that were opened, those that are still pending and
those that were settled. `Ledger opened pending settled` says that every key was opened once and
is either pending or was settled once. Opening a fresh key, settling a pending one and settling
all of them keep it.
-/

namespace AgentHostProtocol.Library

universe u

variable {κ : Type u}

/-- Each key is opened once, and is either pending or settled, once. -/
structure Ledger (opened pending settled : List κ) : Prop where
  opened_nodup : opened.Nodup
  perm : opened.Perm (pending ++ settled)

namespace Ledger

variable {opened pending settled before after : List κ} {k : κ}

theorem empty : Ledger ([] : List κ) [] [] := ⟨List.nodup_nil, List.Perm.refl _⟩

theorem nodup (h : Ledger opened pending settled) : (pending ++ settled).Nodup :=
  h.perm.nodup_iff.mp h.opened_nodup

theorem settled_nodup (h : Ledger opened pending settled) : settled.Nodup :=
  (List.nodup_append.mp h.nodup).2.1

/-- What is pending was not settled. -/
theorem not_settled (h : Ledger opened pending settled) (hk : k ∈ pending) : k ∉ settled :=
  fun hk' => (List.nodup_append.mp h.nodup).2.2 k hk k hk' rfl

/-- What was opened is pending or settled. -/
theorem pending_or_settled (h : Ledger opened pending settled) (hk : k ∈ opened) :
    k ∈ pending ∨ k ∈ settled :=
  List.mem_append.mp (h.perm.mem_iff.mp hk)

/-- Opening a fresh key. -/
theorem opens (h : Ledger opened pending settled) (hk : k ∉ opened) :
    Ledger (k :: opened) (pending ++ [k]) settled where
  opened_nodup := List.nodup_cons.mpr ⟨hk, h.opened_nodup⟩
  perm := by
    rw [List.append_assoc]
    exact (List.Perm.cons k h.perm).trans List.perm_middle.symm

/-- A fresh key that is settled as it is opened. -/
theorem refused (h : Ledger opened pending settled) (hk : k ∉ opened) :
    Ledger (k :: opened) pending (k :: settled) where
  opened_nodup := List.nodup_cons.mpr ⟨hk, h.opened_nodup⟩
  perm := (List.Perm.cons k h.perm).trans List.perm_middle.symm

/-- Settling a pending key. -/
theorem settles (h : Ledger opened (before ++ k :: after) settled) :
    Ledger opened (before ++ after) (k :: settled) where
  opened_nodup := h.opened_nodup
  perm := by
    refine h.perm.trans ?_
    rw [List.append_assoc, List.append_assoc]
    refine List.Perm.append_left before ?_
    exact List.perm_middle.symm

/-- Settling all that is pending. -/
theorem settlesAll (h : Ledger opened pending settled) :
    Ledger opened [] (pending.reverse ++ settled) where
  opened_nodup := h.opened_nodup
  perm := h.perm.trans ((List.reverse_perm pending).symm.append_right settled)

end Ledger

end AgentHostProtocol.Library
