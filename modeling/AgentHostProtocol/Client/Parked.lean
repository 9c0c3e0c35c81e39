import AgentHostProtocol.Client.AsyncQueue

/-!
# Parked calls of the broadcast queue

A call of `next` that finds nothing is parked: its promise stays unresolved until a value is
published or the queue is closed. A reader has one slot for it. Two things empty the slot
without resolving the promise: another call of `next` takes it over, and `return` removes the
cursor with it. Such a promise is never resolved (`step_lost`); `close`, which removes cursors
from use in the same way, resolves what is parked.

* `none_stranded_iff` — after a run every unresolved call is registered, and will be resolved
  by the next value or by closing, exactly when no call of `next` or `return` was made on a
  reader while one of its calls was parked.
* `return_strands_parked` — the disposal of a managed subscription's lease while its holder
  waits for the next event.
-/

namespace AgentHostProtocol.Client.AsyncBroadcastQueue

open Library

universe u

variable {T : Type u} {q q' : AsyncBroadcastQueue T} {r r' : Reader T} {i p : ℕ} {op : Op T}

/-- The promise `p` of the reader is unresolved. -/
def Unresolved (r : Reader T) (p : ℕ) : Prop := ∃ asked, r.promises[p]? = some ⟨asked, none⟩

/-- The promise `p` of the reader is resolved. -/
def Resolved (r : Reader T) (p : ℕ) : Prop :=
  ∃ asked result, r.promises[p]? = some ⟨asked, some result⟩

/-- The promise is the waiter of an attached cursor of an open queue. -/
def Registered (q : AsyncBroadcastQueue T) (r : Reader T) (p : ℕ) : Prop :=
  q.closed = false ∧ r.detached = false ∧ r.waiter = some p

/-- After `op` the promise `p` of the reader at `i` is resolved. -/
def Resolves (q : AsyncBroadcastQueue T) (op : Op T) (i p : ℕ) : Prop :=
  ∀ q', q.step op = some q' → ∃ r', q'.readers[i]? = some r' ∧ Resolved r' p

/-- No reader is stranded: each unresolved promise is registered, so that a later publish or
close resolves it. -/
def NoneStranded (q : AsyncBroadcastQueue T) : Prop :=
  ∀ (i : ℕ) (r : Reader T), q.readers[i]? = some r → ∀ p, Unresolved r p →
    Registered q r p ∧ (∀ value, Resolves q (.publish value) i p) ∧ Resolves q .close i p

/-- Whether a call of the reader at `i` is parked. -/
def parked (q : AsyncBroadcastQueue T) (i : ℕ) : Bool := q.readers[i]?.any fun r => r.waiter.isSome

/-- `op` is not a call on a reader that is parked. -/
def Unparked (q : AsyncBroadcastQueue T) : Op T → Prop
  | .next i | .detach i => q.parked i = false
  | _ => True

instance (q : AsyncBroadcastQueue T) : ∀ op, Decidable (Unparked q op)
  | .next i | .detach i => inferInstanceAs (Decidable (q.parked i = false))
  | .publish _ | .close | .reader => inferInstanceAs (Decidable True)

/-- A promise of the reader is unresolved and not its waiter. -/
def Lost (q : AsyncBroadcastQueue T) : Prop :=
  ∃ (i : ℕ) (r : Reader T) (p : ℕ), q.readers[i]? = some r ∧ Unresolved r p ∧
    (r.detached = true ∨ r.waiter ≠ some p)

theorem parked_eq_false (hr : q.readers[i]? = some r) (h : q.parked i = false) : r.waiter = none := by
  unfold parked at h
  rw [hr] at h
  simpa using h

/-! ### Promises along a step -/

theorem Unresolved.append (h : Unresolved r p) (promise : Promise T) :
    ∃ asked, (r.promises ++ [promise])[p]? = some ⟨asked, none⟩ := by
  obtain ⟨asked, hp⟩ := h
  exact ⟨asked, by rw [List.getElem?_append_left (List.getElem?_eq_some_iff.mp hp).1]; exact hp⟩

/-- Settling resolves the promise that is named, and no other. -/
theorem settle_resolved (h : Unresolved r p) (result : IteratorResult T) :
    Resolved (r.settle p result) p := by
  obtain ⟨asked, hp⟩ := h
  refine ⟨asked, result, ?_⟩
  show (r.promises.modify p _)[p]? = _
  rw [List.getElem?_modify_eq, hp]
  rfl

theorem settle_unresolved (h : Unresolved r p) {k : ℕ} (hne : k ≠ p) (result : IteratorResult T) :
    Unresolved (r.settle k result) p := by
  obtain ⟨asked, hp⟩ := h
  refine ⟨asked, ?_⟩
  show (r.promises.modify k _)[p]? = _
  rw [List.getElem?_modify_ne _ _ hne]
  exact hp

/-- An unresolved promise that is not the waiter of an attached cursor stays so. -/
theorem Does.keeps_lost (h : Does q i r op r') (hp : Unresolved r p)
    (hlost : r.detached = true ∨ r.waiter ≠ some p) :
    Unresolved r' p ∧ (r'.detached = true ∨ r'.waiter ≠ some p) := by
  have hattached : ∀ {k}, r.detached = false → r.waiter = some k → k ≠ p := by
    rintro k hd hw rfl
    rcases hlost with hd' | hw'
    · rw [hd] at hd'
      cases hd'
    · exact hw' hw
  cases h with
  | unheard => exact ⟨hp, hlost⟩
  | passed => exact ⟨hp, hlost⟩
  | woken _ hd hw =>
    exact ⟨settle_unresolved (r := { r with position := r.position + 1 }) hp (hattached hd hw) _,
      .inr fun hnone => by cases hnone⟩
  | stayed => exact ⟨hp, hlost⟩
  | ended _ hd hw =>
    exact ⟨settle_unresolved hp (hattached hd hw) _, .inr fun hnone => by cases hnone⟩
  | opened => exact ⟨hp, hlost⟩
  | other_next => exact ⟨hp, hlost⟩
  | other_detach => exact ⟨hp, hlost⟩
  | next_detached => exact ⟨hp.append _, hlost⟩
  | next_value => exact ⟨hp.append _, hlost⟩
  | next_done => exact ⟨hp.append _, hlost⟩
  | next_parked =>
    refine ⟨hp.append _, .inr fun hw => ?_⟩
    obtain ⟨asked, hp⟩ := hp
    have hlt := (List.getElem?_eq_some_iff.mp hp).1
    cases hw
    omega
  | detached => exact ⟨hp, .inl rfl⟩

/-- What is lost stays lost. -/
theorem step_lost (hok : Ok q) (hs : q.step op = some q') (h : Lost q) : Lost q' := by
  obtain ⟨i, r, p, hr, hp, hlost⟩ := h
  obtain ⟨r', hr', hdoes⟩ := step_does hok hs hr
  exact ⟨i, r', p, hr', hdoes.keeps_lost hp hlost⟩

/-- An unresolved promise after settling was unresolved before, and is not the one settled. -/
theorem unresolved_settle {k : ℕ} {result : IteratorResult T} (h : Unresolved (r.settle k result) p) :
    Unresolved r p ∧ p ≠ k := by
  obtain ⟨asked, hp⟩ := h
  have hmod : (r.promises.modify k fun promise => promise.resolve result)[p]? = some ⟨asked, none⟩ := hp
  by_cases hne : k = p
  · subst hne
    rw [List.getElem?_modify_eq] at hmod
    obtain ⟨promise, -, heq⟩ := Option.map_eq_some_iff.mp hmod
    have hresult : (promise.result <|> some result) = none := congrArg Promise.result heq
    cases hr : promise.result <;> rw [hr] at hresult <;> cases hresult
  · rw [List.getElem?_modify_ne _ _ hne] at hmod
    exact ⟨⟨asked, hmod⟩, fun heq => hne heq.symm⟩

/-- An unresolved promise after another was returned was there before or is that one. -/
theorem unresolved_append {promises : List (Promise T)} {promise : Promise T} {asked : ℕ}
    (h : (promises ++ [promise])[p]? = some ⟨asked, none⟩) :
    promises[p]? = some ⟨asked, none⟩ ∨ p = promises.length ∧ promise = ⟨asked, none⟩ := by
  by_cases hlt : p < promises.length
  · rw [List.getElem?_append_left hlt] at h
    exact .inl h
  · have hlast := (List.getElem?_eq_some_iff.mp h).1
    rw [List.length_append, List.length_singleton] at hlast
    obtain rfl : p = promises.length := by omega
    rw [List.getElem?_concat_length] at h
    exact .inr ⟨rfl, Option.some.inj h⟩

/-- A call that is answered at once adds no unresolved promise. -/
theorem unresolved_answer {asked : ℕ} {result : IteratorResult T}
    (h : Unresolved (r.answer asked result) p) : Unresolved r p := by
  obtain ⟨asked', hp⟩ := h
  rcases unresolved_append hp with hp | ⟨-, heq⟩
  · exact ⟨asked', hp⟩
  · cases heq

/-- A reader whose unresolved promise is its waiter stays so, unless a call is made on it while
that is parked. -/
theorem Does.keeps_registered (h : Does q i r op r') (hguard : Unparked q op)
    (hr : q.readers[i]? = some r) (hall : ∀ k, Unresolved r k → r.detached = false ∧ r.waiter = some k)
    (hp : Unresolved r' p) : r'.detached = false ∧ r'.waiter = some p := by
  -- On a reader that is not parked nothing was unresolved.
  have hfree : q.parked i = false → ∀ k, ¬ Unresolved r k := fun hfree k hk => by
    have hw := (hall k hk).2
    rw [parked_eq_false hr hfree] at hw
    cases hw
  cases h with
  | unheard => exact hall p hp
  | passed => exact hall p hp
  | @woken value k _ _ hw =>
    obtain ⟨hp, hne⟩ := unresolved_settle hp
    have hw' := (hall p hp).2
    rw [hw] at hw'
    cases hw'
    exact absurd rfl hne
  | stayed => exact hall p hp
  | ended _ _ hw =>
    obtain ⟨hp, hne⟩ := unresolved_settle hp
    have hw' := (hall p hp).2
    rw [hw] at hw'
    cases hw'
    exact absurd rfl hne
  | opened => exact hall p hp
  | other_next => exact hall p hp
  | other_detach => exact hall p hp
  | next_detached => exact absurd (unresolved_answer hp) (hfree hguard p)
  | next_value => exact absurd (unresolved_answer hp) (hfree hguard p)
  | next_done => exact absurd (unresolved_answer hp) (hfree hguard p)
  | next_parked hd =>
    obtain ⟨asked, hp⟩ := hp
    rcases unresolved_append hp with hp | ⟨rfl, -⟩
    · exact absurd ⟨asked, hp⟩ (hfree hguard p)
    · exact ⟨hd, rfl⟩
  | detached => exact absurd hp (hfree hguard p)

/-- No promise is lost by a call that is not made on a parked reader. -/
theorem step_not_lost (hok : Ok q) (hs : q.step op = some q') (hguard : Unparked q op)
    (h : ¬ Lost q) : ¬ Lost q' := by
  rintro ⟨i, r', p, hr', hp, hlost⟩
  rcases step_created hok hs hr' with ⟨r, hr, hdoes⟩ | ⟨-, rfl⟩
  · have hall : ∀ k, Unresolved r k → r.detached = false ∧ r.waiter = some k := by
      intro k hk
      by_contra hnot
      refine h ⟨i, r, k, hr, hk, ?_⟩
      by_cases hd : r.detached = true
      · exact .inl hd
      · exact .inr fun hw => hnot ⟨by simpa using hd, hw⟩
    obtain ⟨hd, hw⟩ := hdoes.keeps_registered hguard hr hall hp
    rcases hlost with hd' | hw'
    · rw [hd] at hd'
      cases hd'
    · exact hw' hw
  · obtain ⟨asked, hp⟩ := hp
    cases hp

/-- A call on a parked reader loses the promise that was parked. -/
theorem step_loses (hok : Ok q) (hs : q.step op = some q') (hguard : ¬ Unparked q op) : Lost q' := by
  obtain ⟨i, hop, hparked⟩ : ∃ i, (op = .next i ∨ op = .detach i) ∧ q.parked i = true := by
    cases op with
    | next i => exact ⟨i, .inl rfl, by simpa [Unparked] using hguard⟩
    | detach i => exact ⟨i, .inr rfl, by simpa [Unparked] using hguard⟩
    | publish => exact absurd trivial hguard
    | close => exact absurd trivial hguard
    | reader => exact absurd trivial hguard
  obtain ⟨r, hr⟩ := exists_reader hop hs
  obtain ⟨p, hw⟩ : ∃ p, r.waiter = some p := by
    unfold parked at hparked
    rw [hr] at hparked
    exact Option.isSome_iff_exists.mp hparked
  have hrok := hok.readers r (List.mem_of_getElem? hr)
  have hp : Unresolved r p := hrok.waiter p hw
  obtain ⟨r', hr', hdoes⟩ := step_does hok hs hr
  refine ⟨i, r', p, hr', ?_⟩
  cases hd : r.detached with
  | true => exact hdoes.keeps_lost hp (.inl hd)
  | false =>
    obtain ⟨hend, hopen⟩ := hrok.parked hd p hw
    rcases hop with rfl | rfl
    · cases hdoes with
      | other_next hne => exact absurd rfl hne
      | next_detached hd' =>
        rw [hd] at hd'
        cases hd'
      | next_value _ hitem =>
        have hlt := (List.getElem?_eq_some_iff.mp hitem).1
        omega
      | next_done _ hclosed =>
        rw [hopen] at hclosed
        cases hclosed
      | next_parked =>
        refine ⟨hp.append _, .inr fun hw' => ?_⟩
        obtain ⟨asked, hp⟩ := hp
        have hlt := (List.getElem?_eq_some_iff.mp hp).1
        cases hw'
        omega
    · cases hdoes with
      | other_detach hne => exact absurd rfl hne
      | detached => exact ⟨hp, .inl rfl⟩

/-! ### Stranded readers -/

/-- A publish or a close resolves the waiter of an attached cursor of an open queue. -/
theorem resolves_of_registered (hok : Ok q) (hr : q.readers[i]? = some r) (hp : Unresolved r p)
    (hreg : Registered q r p) :
    (∀ value, Resolves q (.publish value) i p) ∧ Resolves q .close i p := by
  obtain ⟨hopen, hd, hw⟩ := hreg
  refine ⟨fun value q' hs => ?_, fun q' hs => ?_⟩
  · obtain ⟨r', hr', hdoes⟩ := step_does hok hs hr
    refine ⟨r', hr', ?_⟩
    cases hdoes with
    | unheard hquiet => simp [hopen, hd] at hquiet
    | passed _ _ hnone =>
      rw [hw] at hnone
      cases hnone
    | woken _ _ hw' =>
      rw [hw] at hw'
      cases hw'
      exact settle_resolved (r := { r with position := r.position + 1 }) hp _
  · obtain ⟨r', hr', hdoes⟩ := step_does hok hs hr
    refine ⟨r', hr', ?_⟩
    cases hdoes with
    | stayed hquiet => simp [hopen, hd, hw] at hquiet
    | ended _ _ hw' =>
      rw [hw] at hw'
      cases hw'
      exact settle_resolved hp _

/-- No reader is stranded exactly if no promise is lost. -/
theorem noneStranded_iff (hok : Ok q) : NoneStranded q ↔ ¬ Lost q := by
  constructor
  · rintro h ⟨i, r, p, hr, hp, hlost⟩
    obtain ⟨⟨-, hd, hw⟩, -⟩ := h i r hr p hp
    rcases hlost with hd' | hw'
    · rw [hd] at hd'
      cases hd'
    · exact hw' hw
  · intro h i r hr p hp
    have hd : r.detached = false := by
      by_contra hd
      exact h ⟨i, r, p, hr, hp, .inl (by simpa using hd)⟩
    have hw : r.waiter = some p := by
      by_contra hw
      exact h ⟨i, r, p, hr, hp, .inr hw⟩
    have hopen := ((hok.readers r (List.mem_of_getElem? hr)).parked hd p hw).2
    exact ⟨⟨hopen, hd, hw⟩, resolves_of_registered hok hr hp ⟨hopen, hd, hw⟩⟩

theorem runs_lost {ops : List (Op T)} (hok : Ok q) (hrun : runs step q ops = some q') (h : Lost q) :
    Lost q' :=
  (runs_kept step (I := fun q => Ok q ∧ Lost q)
    (fun ⟨hok, hlost⟩ hs => ⟨step_ok hok hs, step_lost hok hs hlost⟩) ⟨hok, h⟩ hrun).2

/-- From a queue without a lost promise, one is lost by a run exactly if a call is made on a
parked reader. -/
theorem runs_not_lost_iff {ops : List (Op T)} (hok : Ok q) (h : ¬ Lost q)
    (hrun : runs step q ops = some q') : ¬ Lost q' ↔ Guarded step Unparked q ops := by
  induction ops generalizing q with
  | nil =>
    cases hrun
    exact ⟨fun _ => trivial, fun _ => h⟩
  | cons op ops ih =>
    obtain ⟨u, hs, hrest⟩ := (runs_cons_eq_some step).mp hrun
    by_cases hguard : Unparked q op
    · have hiff := ih (step_ok hok hs) (step_not_lost hok hs hguard h) hrest
      rw [hiff]
      refine ⟨fun hg => ⟨hguard, fun u' hs' => ?_⟩, fun hg => hg.2 u hs⟩
      rw [hs] at hs'
      cases hs'
      exact hg
    · have hlost := runs_lost (step_ok hok hs) hrest (step_loses hok hs hguard)
      exact ⟨fun hnot => absurd hlost hnot, fun hg => absurd hg.1 hguard⟩

theorem not_lost_create (limit : ℕ) : ¬ Lost (create (T := T) limit) := by
  rintro ⟨i, r, p, hr, -⟩
  cases hr

/-- **Parked calls**: after any run, every unresolved call is registered and will be resolved by
the next publish or close, exactly if no call of `next` or `return` was made on a reader while
one of its calls was parked. -/
theorem none_stranded_iff {limit : ℕ} (hlimit : 1 ≤ limit) {ops : List (Op T)}
    (hrun : runs step (create limit) ops = some q) :
    NoneStranded q ↔ Guarded step Unparked (create limit) ops := by
  rw [noneStranded_iff (runs_ok hlimit hrun)]
  exact runs_not_lost_iff (ok_create hlimit) (not_lost_create limit) hrun

/-- A reader that waits, is given its value and waits again until the queue is closed. -/
theorem none_stranded_iff_waiting :
    ∃ q, runs step (create (T := ℕ) 1) [.reader, .next 0, .publish 7, .next 0, .close] = some q ∧
      (NoneStranded q ↔
        Guarded step Unparked (create (T := ℕ) 1) [.reader, .next 0, .publish 7, .next 0, .close]) :=
  ⟨_, rfl, none_stranded_iff (by decide) rfl⟩

/-- **Stranded**: the lease of a managed subscription is disposed while its holder waits for the
next event: `return` is called on the reader whose `next` is parked. Neither the call itself nor
the closing of the queue resolves the promise. -/
theorem return_strands_parked :
    (∃ q, runs step (create (T := ℕ) 4096) [.reader, .next 0, .detach 0] = some q ∧ ¬ NoneStranded q) ∧
      ∃ q, runs step (create (T := ℕ) 4096) [.reader, .next 0, .detach 0, .close] = some q ∧
        ¬ NoneStranded q := by
  refine ⟨⟨_, rfl, fun h => ?_⟩, _, rfl, fun h => ?_⟩
  · obtain ⟨⟨-, hattached, -⟩, -⟩ := h 0 _ rfl 0 ⟨0, rfl⟩
    cases hattached
  · obtain ⟨⟨hopen, -⟩, -⟩ := h 0 _ rfl 0 ⟨0, rfl⟩
    cases hopen

end AgentHostProtocol.Client.AsyncBroadcastQueue
