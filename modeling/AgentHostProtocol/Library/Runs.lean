import Mathlib.Data.List.Basic

/-!
# Runs of a partial step function

A machine given by a step function that may refuse an action, `step s a = none`,
and what holds along its runs. An action list either runs to a state or is
refused on the way; everything said here is about runs that are not refused.

* `runs_invariant` — an invariant kept by every step of a run that meets a guard
  holds where the run ends. The guard may look at the state before the step. With no guard this
  is `runs_kept`.
* `runs_tracked` — when every step carries the thing at a reference `r` to a
  related thing at the reference `follow s a r`, so does a run.
* `runs_agree`, `runs_congr`, `foldl_agrees` — two machines that agree on every guarded step, or in the states of an
  invariant, agree on every guarded run.
* `foldl_batch` — a list of steps that may be combined in pairs is one step of the batch.
* `foldl_filter_of_view`, `foldl_filterMap_own` — what an observer sees of a run is what the inputs that concern it do.
-/

namespace AgentHostProtocol.Library

universe u v w x

variable {σ : Type u} {α : Type v} (step : σ → α → Option σ)

/-- The state after a list of actions, `none` if one of them is refused. -/
def runs : σ → List α → Option σ
  | s, [] => some s
  | s, a :: as => (step s a).bind fun s' => runs s' as

/-- Every step of the run of `as` from `s` meets `guard`. -/
def Guarded (guard : σ → α → Prop) : σ → List α → Prop
  | _, [] => True
  | s, a :: as => guard s a ∧ ∀ s', step s a = some s' → Guarded guard s' as

@[simp] theorem runs_nil (s : σ) : runs step s [] = some s := rfl

theorem runs_cons_eq_some {s s' : σ} {a : α} {as : List α} :
    runs step s (a :: as) = some s' ↔ ∃ u, step s a = some u ∧ runs step u as = some s' := by
  simp only [runs, Option.bind_eq_some_iff]

theorem runs_append (s : σ) (as bs : List α) :
    runs step s (as ++ bs) = (runs step s as).bind fun u => runs step u bs := by
  induction as generalizing s with
  | nil => rfl
  | cons a as ih =>
    simp only [List.cons_append, runs, Option.bind_assoc]
    congr 1
    funext u
    exact ih u

theorem runs_append_eq_some {s s' : σ} {as bs : List α} :
    runs step s (as ++ bs) = some s' ↔ ∃ u, runs step s as = some u ∧ runs step u bs = some s' := by
  rw [runs_append, Option.bind_eq_some_iff]

/-- A guard that looks at the action alone holds along any run of such actions. -/
theorem guarded_of_forall {P : α → Prop} {as : List α} (h : ∀ a ∈ as, P a) (s : σ) :
    Guarded step (fun _ a => P a) s as := by
  induction as generalizing s with
  | nil => trivial
  | cons a as ih =>
    exact ⟨h a List.mem_cons_self, fun s' _ => ih (fun b hb => h b (List.mem_cons_of_mem _ hb)) s'⟩

/-- Whether a run is guarded can be computed if the guard can. -/
instance Guarded.decidable {guard : σ → α → Prop} [∀ s a, Decidable (guard s a)] :
    ∀ s as, Decidable (Guarded step guard s as)
  | _, [] => inferInstanceAs (Decidable True)
  | s, a :: as =>
    have : Decidable (∀ s', step s a = some s' → Guarded step guard s' as) :=
      match h : step s a with
      | none => isTrue fun _ hs => by cases hs
      | some u =>
        have : Decidable (Guarded step guard u as) := Guarded.decidable u as
        decidable_of_iff (Guarded step guard u as)
          ⟨fun hg _ hs => by cases hs; exact hg, fun hg => hg u rfl⟩
    inferInstanceAs (Decidable (_ ∧ _))

/-- A guarded run is guarded on its first part, and on the rest from where that ends. -/
theorem Guarded.append {guard : σ → α → Prop} {s : σ} {as bs : List α}
    (h : Guarded step guard s (as ++ bs)) :
    Guarded step guard s as ∧ ∀ u, runs step s as = some u → Guarded step guard u bs := by
  induction as generalizing s with
  | nil =>
    refine ⟨trivial, fun u hu => ?_⟩
    cases hu
    exact h
  | cons a as ih =>
    refine ⟨⟨h.1, fun s' hs => (ih (h.2 s' hs)).1⟩, fun u hu => ?_⟩
    obtain ⟨s', hs, hu⟩ := (runs_cons_eq_some step).mp hu
    exact (ih (h.2 s' hs)).2 u hu

/-- A guarded run from its first step. -/
theorem guarded_cons {guard : σ → α → Prop} {s u : σ} {a : α} {as : List α} (hu : step s a = some u) :
    Guarded step guard s (a :: as) ↔ guard s a ∧ Guarded step guard u as := by
  constructor
  · intro h
    exact ⟨h.1, h.2 u hu⟩
  · intro h
    refine ⟨h.1, fun s' hs => ?_⟩
    rw [hu] at hs
    cases hs
    exact h.2

theorem guarded_concat {guard : σ → α → Prop} {s : σ} {as : List α} {a : α} :
    Guarded step guard s (as ++ [a]) ↔
      Guarded step guard s as ∧ ∀ u, runs step s as = some u → guard u a := by
  constructor
  · intro h
    obtain ⟨has, hlast⟩ := h.append
    exact ⟨has, fun u hu => (hlast u hu).1⟩
  · intro h
    induction as generalizing s with
    | nil => exact ⟨h.2 s rfl, fun _ _ => trivial⟩
    | cons b as ih =>
      refine ⟨h.1.1, fun s' hs => ih ⟨h.1.2 s' hs, fun u hu => h.2 u ?_⟩⟩
      exact (runs_cons_eq_some step).mpr ⟨s', hs, hu⟩

/-- The run of a machine that never refuses. -/
theorem runs_total (next : σ → α → σ) (s : σ) (as : List α) :
    runs (fun s a => some (next s a)) s as = some (as.foldl next s) := by
  induction as generalizing s with
  | nil => rfl
  | cons a as ih => exact ih (next s a)

/-- A run of steps that are never refused. -/
theorem runs_map_of_total {β : Type w} {f : β → α} {next : σ → β → σ}
    (h : ∀ s b, step s (f b) = some (next s b)) (s : σ) (bs : List β) :
    runs step s (bs.map f) = some (bs.foldl next s) := by
  induction bs generalizing s with
  | nil => rfl
  | cons b bs ih =>
    rw [List.map_cons, runs, h s b, Option.bind_some, List.foldl_cons]
    exact ih (next s b)

/-- **Batches**: when two steps are the step of their merger, a list of steps is the step of its
batch. -/
theorem foldl_batch (next : σ → α → σ) (merge : α → α → α) (batch : List α → α) {P : α → Prop}
    (hone : ∀ a, P a → batch [a] = a) (hcons : ∀ a b as, batch (a :: b :: as) = merge a (batch (b :: as)))
    (hbatch : ∀ as, P (batch as)) (hmerge : ∀ s a b, P a → P b → next (next s a) b = next s (merge a b))
    (s : σ) {as : List α} (hne : as ≠ []) (h : ∀ a ∈ as, P a) : as.foldl next s = next s (batch as) := by
  induction as generalizing s with
  | nil => exact absurd rfl hne
  | cons a as ih =>
    have ha := h a List.mem_cons_self
    cases as with
    | nil => rw [hone a ha]; rfl
    | cons b as =>
      have hrest := ih (next s a) (by simp) fun c hc => h c (List.mem_cons_of_mem _ hc)
      rw [List.foldl_cons, hrest, hcons]
      exact hmerge s a _ ha (hbatch (b :: as))

/-- **Invariants**: what every guarded step keeps, a guarded run keeps. -/
theorem runs_invariant {guard : σ → α → Prop} {I : σ → Prop}
    (hstep : ∀ {s a s'}, I s → guard s a → step s a = some s' → I s') {s s' : σ} {as : List α}
    (hs : I s) (hg : Guarded step guard s as) (hr : runs step s as = some s') : I s' := by
  induction as generalizing s with
  | nil => cases hr; exact hs
  | cons a as ih =>
    obtain ⟨u, hu, hr⟩ := (runs_cons_eq_some step).mp hr
    exact ih (hstep hs hg.1 hu) (hg.2 u hu) hr

/-- What every step keeps, a run keeps. -/
theorem runs_kept {I : σ → Prop} (hstep : ∀ {s a s'}, I s → step s a = some s' → I s') {s s' : σ}
    {as : List α} (hs : I s) (hr : runs step s as = some s') : I s' :=
  runs_invariant step (fun hi (_ : True) hs => hstep hi hs) hs
    (guarded_of_forall step (P := fun _ => True) (fun _ _ => trivial) s) hr

/-! ### Following a reference along a run -/

section Tracking

variable {ρ : Type w} {β : Type x} (follow : σ → α → ρ → Option ρ) (view : σ → ρ → Option β)

/-- Where the thing at `r` is after the run of `as` from `s`, `none` if it is gone
or the run is refused. -/
def followRun : σ → List α → ρ → Option ρ
  | _, [], r => some r
  | s, a :: as, r => (step s a).bind fun s' => (follow s a r).bind fun r' => followRun s' as r'

theorem followRun_cons_eq_some {s : σ} {a : α} {as : List α} {r r' : ρ} :
    followRun step follow s (a :: as) r = some r' ↔
      ∃ u, step s a = some u ∧ ∃ q, follow s a r = some q ∧ followRun step follow u as q = some r' := by
  simp only [followRun, Option.bind_eq_some_iff]

/-- **Tracking**: when every guarded step relates the thing at a reference to the thing at
the followed reference by `R`, a guarded run relates them by any relation that contains
`R` and is reflexive and transitive. -/
theorem runs_tracked_of_guarded {guard : σ → α → Prop} {R : β → β → Prop} (hrefl : ∀ b, R b b)
    (htrans : ∀ {a b c}, R a b → R b c → R a c)
    (hstep : ∀ {s a s' r r' b}, guard s a → step s a = some s' → follow s a r = some r' →
      view s r = some b → ∃ b', view s' r' = some b' ∧ R b b')
    {s s' : σ} {as : List α} {r r' : ρ} {b : β} (hg : Guarded step guard s as)
    (hr : runs step s as = some s') (hf : followRun step follow s as r = some r')
    (hv : view s r = some b) : ∃ b', view s' r' = some b' ∧ R b b' := by
  induction as generalizing s r b with
  | nil => cases hr; cases hf; exact ⟨b, hv, hrefl b⟩
  | cons a as ih =>
    obtain ⟨u, hu, hr⟩ := (runs_cons_eq_some step).mp hr
    obtain ⟨u', hu', q, hq, hf⟩ := (followRun_cons_eq_some step follow).mp hf
    rw [hu] at hu'
    cases hu'
    obtain ⟨c, hc, hR⟩ := hstep hg.1 hu hq hv
    obtain ⟨b', hb', hR'⟩ := ih (hg.2 u hu) hr hf hc
    exact ⟨b', hb', htrans hR hR'⟩

/-- Tracking along any run. -/
theorem runs_tracked {R : β → β → Prop} (hrefl : ∀ b, R b b) (htrans : ∀ {a b c}, R a b → R b c → R a c)
    (hstep : ∀ {s a s' r r' b}, step s a = some s' → follow s a r = some r' → view s r = some b →
      ∃ b', view s' r' = some b' ∧ R b b')
    {s s' : σ} {as : List α} {r r' : ρ} {b : β} (hr : runs step s as = some s')
    (hf : followRun step follow s as r = some r') (hv : view s r = some b) :
    ∃ b', view s' r' = some b' ∧ R b b' :=
  runs_tracked_of_guarded step follow view hrefl htrans (fun (_ : True) hs hf hv => hstep hs hf hv)
    (guarded_of_forall step (P := fun _ => True) (fun _ _ => trivial) s) hr hf hv

end Tracking

/-! ### Recorded runs -/

section Recorded

variable {ε : Type w} (event : α → Option ε)

/-- The machine that also keeps a history of its steps, newest first. -/
def recorded (r : σ × List ε) (a : α) : Option (σ × List ε) :=
  (step r.1 a).map fun s' => (s', (event a).toList ++ r.2)

theorem recorded_eq_some {r r' : σ × List ε} {a : α} :
    recorded step event r a = some r' ↔
      step r.1 a = some r'.1 ∧ r'.2 = (event a).toList ++ r.2 := by
  unfold recorded
  rw [Option.map_eq_some_iff]
  constructor
  · rintro ⟨s', hs, rfl⟩
    exact ⟨hs, rfl⟩
  · rintro ⟨hs, hh⟩
    exact ⟨r'.1, hs, by rw [← hh]⟩

/-- The machine whose steps also say what happened, in order, with the history of its run,
newest first. -/
def logged (emit : σ → α → Option (σ × List ε)) (r : σ × List ε) (a : α) : Option (σ × List ε) :=
  (emit r.1 a).map fun out => (out.1, out.2.reverse ++ r.2)

theorem logged_eq_some {emit : σ → α → Option (σ × List ε)} {r r' : σ × List ε} {a : α} :
    logged emit r a = some r' ↔ ∃ es, emit r.1 a = some (r'.1, es) ∧ r'.2 = es.reverse ++ r.2 := by
  unfold logged
  rw [Option.map_eq_some_iff]
  constructor
  · rintro ⟨⟨s', es⟩, hs, rfl⟩
    exact ⟨es, hs, rfl⟩
  · rintro ⟨es, hs, hh⟩
    exact ⟨(r'.1, es), hs, by rw [← hh]⟩

end Recorded

/-! ### Two machines -/

/-- **Agreement**: a machine and a total one that agree on every guarded step end in
the same state after every guarded run. -/
theorem runs_agree {guard : σ → α → Prop} {next : σ → α → σ}
    (hstep : ∀ {s a}, guard s a → step s a = some (next s a)) {s : σ} {as : List α}
    (hg : Guarded step guard s as) : runs step s as = some (as.foldl next s) := by
  induction as generalizing s with
  | nil => rfl
  | cons a as ih =>
    have hs := hstep hg.1
    simp only [runs, hs, Option.bind_some, List.foldl_cons]
    exact ih (hg.2 _ hs)

/-- Two machines that agree on every guarded step agree on every guarded run, and both refuse it or
neither. -/
theorem runs_congr {step' : σ → α → Option σ} {guard : σ → α → Prop}
    (hstep : ∀ {s a}, guard s a → step' s a = step s a) {s : σ} {as : List α}
    (hg : Guarded step guard s as) : runs step' s as = runs step s as := by
  induction as generalizing s with
  | nil => rfl
  | cons a as ih =>
    simp only [runs, hstep hg.1]
    cases hs : step s a with
    | none => rfl
    | some s' => exact ih (hg.2 s' hs)

/-- Two total machines that agree in the states of an invariant, which guarded steps keep, agree on
every guarded run. -/
theorem foldl_agrees {next next' : σ → α → σ} {guard : σ → α → Prop} {Inv : σ → Prop}
    (hstep : ∀ {s}, Inv s → ∀ a, next s a = next' s a)
    (hkept : ∀ {s a}, Inv s → guard s a → Inv (next' s a)) {s : σ} (h : Inv s) {as : List α}
    (hg : Guarded (fun s a => some (next' s a)) guard s as) : as.foldl next s = as.foldl next' s := by
  induction as generalizing s with
  | nil => rfl
  | cons a as ih =>
    rw [List.foldl_cons, List.foldl_cons, hstep h]
    exact ih (hkept h hg.1) (hg.2 _ rfl)

/-! ### What one observer sees -/

/-- **Isolation**: when the inputs that do not concern an observer change nothing that it sees,
and the others act on what it sees, then it sees what those alone do. -/
theorem foldl_filter_of_view {τ : Type w} {next : σ → α → σ} {next' : τ → α → τ} (view : σ → τ)
    (concerns : α → Bool) (hother : ∀ s a, concerns a = false → view (next s a) = view s)
    (hown : ∀ s a, concerns a → view (next s a) = next' (view s) a) (s : σ) (as : List α) :
    view (as.foldl next s) = (as.filter concerns).foldl next' (view s) := by
  induction as generalizing s with
  | nil => rfl
  | cons a as ih =>
    rw [List.foldl_cons, ih]
    by_cases ha : concerns a
    · rw [List.filter_cons_of_pos ha, List.foldl_cons, hown s a ha]
    · rw [List.filter_cons_of_neg ha, hother s a (Bool.eq_false_iff.mpr ha)]

/-- What a machine does that acts on its own inputs and passes the others by. -/
theorem foldl_filterMap_own {β : Type w} {next : σ → α → σ} {next' : σ → β → σ} {own : α → Option β}
    (hown : ∀ s a, next s a = ((own a).map (next' s)).getD s) (s : σ) (as : List α) :
    as.foldl next s = (as.filterMap own).foldl next' s := by
  induction as generalizing s with
  | nil => rfl
  | cons a as ih =>
    rw [List.foldl_cons, ih, hown]
    cases ha : own a with
    | none => rw [List.filterMap_cons_none ha, Option.map_none, Option.getD_none]
    | some b => rw [List.filterMap_cons_some ha, List.foldl_cons, Option.map_some, Option.getD_some]

end AgentHostProtocol.Library
