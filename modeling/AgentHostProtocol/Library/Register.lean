import Mathlib.Data.List.Induction

/-!
# Registers that are seeded and advanced

A register holds nothing, or a value that a seed put there and that later actions advance.
What one input does to it is an `Effect`; `register` is its content after a list of inputs.

* `register_eq_some` — the register holds exactly the last seed, advanced by the actions since.
-/

namespace AgentHostProtocol.Library

universe u v w

/-- What one input does to a register. -/
inductive Effect (σ : Type u) (α : Type v) where
  /-- Nothing. -/
  | keep
  /-- A seed replaces what is there. -/
  | put (seed : σ)
  /-- An action advances what is there. -/
  | advance (a : α)
  /-- What is there is removed. -/
  | drop

namespace Effect

variable {σ : Type u} {α : Type v}

/-- The content after the effect. -/
def apply (next : σ → α → σ) : Effect σ α → Option σ → Option σ
  | .keep, r => r
  | .put seed, _ => some seed
  | .advance a, r => r.map fun s => next s a
  | .drop, _ => none

/-- The effect neither seeds nor removes. -/
def Quiet : Effect σ α → Prop
  | .keep | .advance _ => True
  | .put _ | .drop => False

/-- The action of the effect. -/
def action? : Effect σ α → Option α
  | .advance a => some a
  | _ => none

instance (e : Effect σ α) : Decidable e.Quiet := by
  cases e <;> unfold Quiet <;> infer_instance

/-- A quiet effect advances what is there by its action, if it has one. -/
theorem Quiet.apply_some {e : Effect σ α} (h : e.Quiet) (next : σ → α → σ) (s : σ) :
    e.apply next (some s) = some (e.action?.toList.foldl next s) := by
  cases e with
  | keep | advance => rfl
  | put | drop => exact h.elim

/-- A register that holds all that another holds still does after the same effect. -/
theorem apply_mono {next : σ → α → σ} {e : Effect σ α} {r r' : Option σ}
    (h : ∀ s, r = some s → r' = some s) {s : σ} (he : e.apply next r = some s) :
    e.apply next r' = some s := by
  cases e with
  | keep => exact h s he
  | put => exact he
  | advance =>
    obtain ⟨s', hs', rfl⟩ := Option.map_eq_some_iff.mp he
    rw [h s' hs']
    rfl
  | drop => cases he

/-- What leaves an empty register empty leaves every empty register empty. -/
theorem apply_none {next : σ → α → σ} {e : Effect σ α} {r r' : Option σ} (h : r = none → r' = none)
    (he : e.apply next r = none) : e.apply next r' = none := by
  cases e with
  | keep => exact h he
  | put => cases he
  | advance =>
    have hr : r = none := Option.map_eq_none_iff.mp he
    rw [h hr]
    rfl
  | drop => rfl

end Effect

section

variable {σ : Type u} {α : Type v} {ι : Type w} (next : σ → α → σ) (effect : ι → Effect σ α)

/-- The content of a register that started empty. -/
def register (inputs : List ι) : Option σ := inputs.foldl (fun r i => (effect i).apply next r) none

/-- The actions of a list of inputs on the register, in order. -/
def actionsOf (inputs : List ι) : List α := inputs.filterMap fun i => (effect i).action?

@[simp] theorem register_nil : register next effect [] = none := rfl

theorem register_concat (inputs : List ι) (i : ι) :
    register next effect (inputs ++ [i]) = (effect i).apply next (register next effect inputs) := by
  unfold register
  rw [List.foldl_append]
  rfl

theorem foldl_actionsOf_concat (inputs : List ι) (i : ι) (s : σ) :
    (actionsOf effect (inputs ++ [i])).foldl next s =
      (effect i).action?.toList.foldl next ((actionsOf effect inputs).foldl next s) := by
  unfold actionsOf
  rw [List.filterMap_append, List.foldl_append]
  cases h : (effect i).action? <;> simp [h]

variable {next effect}

/-- After a seed, quiet inputs advance it by their actions. -/
theorem register_of_seed {before after : List ι} {i : ι} {seed : σ} (hi : effect i = .put seed)
    (hquiet : ∀ j ∈ after, (effect j).Quiet) :
    register next effect (before ++ i :: after) = some ((actionsOf effect after).foldl next seed) := by
  induction after using List.reverseRecOn with
  | nil => rw [register_concat, hi]; rfl
  | append_singleton after j ih =>
    have hafter := ih fun k hk => hquiet k (List.mem_append_left _ hk)
    have hj : (effect j).Quiet := hquiet j (by simp)
    rw [show before ++ i :: (after ++ [j]) = (before ++ i :: after) ++ [j] by simp, register_concat,
      hafter, hj.apply_some, foldl_actionsOf_concat]

/-- What a register holds was seeded, and advanced by the actions since. -/
theorem seed_of_register {inputs : List ι} {s : σ} (h : register next effect inputs = some s) :
    ∃ before i after seed, inputs = before ++ i :: after ∧ effect i = .put seed ∧
      (∀ j ∈ after, (effect j).Quiet) ∧ s = (actionsOf effect after).foldl next seed := by
  induction inputs using List.reverseRecOn generalizing s with
  | nil => cases h
  | append_singleton inputs j ih =>
    rw [register_concat] at h
    cases hj : effect j with
    | put seed =>
      rw [hj] at h
      cases h
      exact ⟨inputs, j, [], s, rfl, hj, by simp, rfl⟩
    | drop =>
      rw [hj] at h
      cases h
    | keep | advance =>
      have hquiet : (effect j).Quiet := by rw [hj]; trivial
      obtain ⟨s', hs'⟩ : ∃ s', register next effect inputs = some s' := by
        cases hr : register next effect inputs with
        | some s' => exact ⟨s', rfl⟩
        | none =>
          rw [hr, hj] at h
          cases h
      rw [hs', hquiet.apply_some] at h
      obtain ⟨before, i, after, seed, rfl, hi, hafter, rfl⟩ := ih hs'
      refine ⟨before, i, after ++ [j], seed, by simp, hi, ?_, ?_⟩
      · intro k hk
        rcases List.mem_append.mp hk with hk | hk
        · exact hafter k hk
        · rw [List.mem_singleton.mp hk]
          exact hquiet
      · rw [foldl_actionsOf_concat]
        exact (Option.some.inj h).symm

/-- **The content of a register**: the last seed, advanced by the actions since. -/
theorem register_eq_some {inputs : List ι} {s : σ} :
    register next effect inputs = some s ↔
      ∃ before i after seed, inputs = before ++ i :: after ∧ effect i = .put seed ∧
        (∀ j ∈ after, (effect j).Quiet) ∧ s = (actionsOf effect after).foldl next seed := by
  refine ⟨seed_of_register, ?_⟩
  rintro ⟨before, i, after, seed, rfl, hi, hquiet, rfl⟩
  exact register_of_seed hi hquiet

end

end AgentHostProtocol.Library
