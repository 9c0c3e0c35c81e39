import AgentHostProtocol.Hosts.Registered

/-!
# The events of the registry

What `added` and `removed` tell a reader of `hostEvents` about the registry. `removeHost` frees
the id before it waits for the runtime and publishes `removed` behind the wait, so a host that is
added again meanwhile is announced before the earlier one is taken back.

* `announced` — the two kinds of events balance; the last one for an id says whether the id is
  registered or being removed as long as no call registers an id that is being removed; and where
  one does, `removed` can be the last that is heard of a host that is there.
-/

namespace AgentHostProtocol.Hosts.Multi

open Library

/-- The event is about `id`. -/
def HostEvent.about (id : String) : HostEvent → Bool
  | .added i | .removed i => i = id

/-- The call waits for a runtime of `id`. -/
def RemoveCall.waitsFor (id : String) (call : RemoveCall) : Bool :=
  call.id = id && call.pc.awaits?.isSome

namespace State

/-- The last event about `id`. -/
def lastEvent (id : String) (s : State) : Option HostEvent := (s.events.filter (HostEvent.about id)).getLast?

/-- The number of hosts registered for `id`. -/
def registered (id : String) (s : State) : ℕ := if (s.hosts.get? id).isSome then 1 else 0

/-- The number of calls of `removeHost` for `id` that are waiting. -/
def removing (id : String) (s : State) : ℕ := s.removes.countP (RemoveCall.waitsFor id)

/-- No call of `addHost` registers an id that is being removed. -/
def Apart (s : State) (a : Act) : Prop :=
  ∀ c, a = .stored c → ∀ call ∈ s.adds[c]?, s.removing call.id = 0

instance (s : State) (a : Act) : Decidable (Apart s a) :=
  match a with
  | .stored c => decidable_of_iff (∀ call ∈ s.adds[c]?, s.removing call.id = 0)
      ⟨fun h _ hc => by cases hc; exact h, fun h => h c rfl⟩
  | .addHost .. | .loaded .. | .loadFails .. | .storeFails .. | .removeHost .. | .removed .. | .shutdown
  | .closeQueues .. | .exits .. => isTrue nofun

/-! ### What a step announces -/

/-- One if the ids are the same. -/
def one (i id : String) : ℕ := if i = id then 1 else 0

theorem countP_waitsFor_concat (id : String) (l : List RemoveCall) (call : RemoveCall) :
    (l ++ [call]).countP (RemoveCall.waitsFor id) =
      l.countP (RemoveCall.waitsFor id) + if call.waitsFor id then 1 else 0 := by
  rw [List.countP_append, List.countP_singleton]

/-- A call that was waiting has returned. -/
theorem countP_waitsFor_set {l : List RemoveCall} {i k : ℕ} {id id' : String}
    (hcall : l[i]? = some ⟨id', .awaiting k⟩) :
    l.countP (RemoveCall.waitsFor id) =
      (l.set i ⟨id', .removed k⟩).countP (RemoveCall.waitsFor id) + one id' id := by
  obtain ⟨hi, hget⟩ := List.getElem?_eq_some_iff.mp hcall
  rw [List.countP_set hi, hget]
  by_cases hid : id' = id
  · have hpos : 0 < l.countP (RemoveCall.waitsFor id) :=
      List.countP_pos_iff.mpr ⟨_, List.mem_of_getElem? hcall, by simp [RemoveCall.waitsFor, Removing.awaits?, hid]⟩
    simp only [RemoveCall.waitsFor, Removing.awaits?, hid, one, decide_true, Option.isSome_some, Option.isSome_none,
      Bool.and_true, Bool.and_false, Bool.false_eq_true, ↓reduceIte]
    change 0 < l.countP (RemoveCall.waitsFor id) at hpos
    change l.countP (RemoveCall.waitsFor id) = l.countP (RemoveCall.waitsFor id) - 1 + 0 + 1
    omega
  · simp [RemoveCall.waitsFor, hid, one]

variable {ids : Record String} {acts : List Act} {s s' : State}

/-- The registry and the calls of `removeHost` before and after a step, with what it announces. -/
inductive Announces (s : State) (a : Act) (s' : State) : Prop where
  | nothing (hregistered : ∀ id, s'.registered id = s.registered id)
      (hremoving : ∀ id, s'.removing id = s.removing id) (hevents : s'.events = s.events)
  | added (i : String) (hact : Apart s a → s.removing i = 0) (hfree : s.registered i = 0)
      (hregistered : ∀ id, s'.registered id = s.registered id + one i id)
      (hremoving : ∀ id, s'.removing id = s.removing id) (hevents : s'.events = s.events ++ [.added i])
  | removing (i : String) (hregistered : ∀ id, s.registered id = s'.registered id + one i id)
      (hremoving : ∀ id, s'.removing id = s.removing id + one i id) (hevents : s'.events = s.events)
  | removed (i : String) (hregistered : ∀ id, s'.registered id = s.registered id)
      (hremoving : ∀ id, s.removing id = s'.removing id + one i id)
      (hevents : s'.events = s.events ++ [.removed i])

/-- The queues are open until `shutdown` is called. -/
theorem Inv.closed_eq_false (h : Inv ids s) (hopen : s.shutDown = false) : s.closed = false := by
  by_contra hne
  have hfirst := h.stopping.closed.mp (eq_true_of_ne_false hne)
  have hnil : s.shutdowns = [] := by
    by_contra hne'
    rw [h.stopping.called.mpr hne'] at hopen
    cases hopen
  rw [hnil] at hfirst
  cases hfirst

theorem step_announces {a : Act} (h : Inv ids s) (hs : s.step a = some s') (hopen : s'.shutDown = false) :
    Announces s a s' := by
  cases step_does hs with
  | refused | reserved | loaded | failed | failedWritten | again | closed | exits =>
    exact .nothing (fun _ => rfl) (fun _ => rfl) rfl
  | @started c call x hcall hpc hshut hfree =>
    have hfree' : s.registered call.id = 0 := by simp [registered, hfree]
    refine .added call.id (fun hapart => hapart c rfl call hcall) hfree' (fun id => ?_) (fun _ => rfl) ?_
    · change (if ((s.hosts.set call.id s.runtimes.length).get? id).isSome then 1 else 0) = _
      rw [Record.get?_set]
      by_cases hid : id = call.id
      · rw [if_pos hid, hid, hfree']
        simp [one]
      · rw [if_neg hid]
        simp [one, Ne.symm hid, registered]
    · change (if s.closed then s.events else _) = _
      rw [h.closed_eq_false hshut]
      rfl
  | @unknownHost id hnone =>
    refine .nothing (fun _ => rfl) (fun id' => ?_) rfl
    exact (countP_waitsFor_concat id' _ _).trans (by simp [RemoveCall.waitsFor, Removing.awaits?, removing])
  | @removing id k hk =>
    refine .removing id (fun id' => ?_) (fun id' => ?_) rfl
    · change _ = (if ((s.hosts.delete id).get? id').isSome then 1 else 0) + _
      rw [Record.get?_delete]
      by_cases hid : id' = id
      · subst hid
        simp [registered, hk, one]
      · rw [if_neg hid]
        simp [registered, one, Ne.symm hid]
    · refine (countP_waitsFor_concat id' _ _).trans ?_
      simp [RemoveCall.waitsFor, Removing.awaits?, removing, one]
  | @removed i k id hcall hexited =>
    refine .removed id (fun _ => rfl) (fun id' => countP_waitsFor_set hcall) ?_
    change (if s.closed then s.events else _) = _
    rw [h.closed_eq_false hopen]
    rfl
  | shutdown => cases hopen

/-! ### Every run -/

/-- The hosts that were announced and not taken back are there. -/
def Balanced (s : State) : Prop :=
  ∀ id, s.events.count (.added id) = s.events.count (.removed id) + s.registered id + s.removing id

/-- The last event for an id tells whether it is there. -/
def Orderly (s : State) : Prop :=
  ∀ id, s.registered id + s.removing id ≤ 1 ∧
    (s.lastEvent id = some (.added id) ↔ s.registered id + s.removing id = 1)

theorem Balanced.step {a : Act} (h : Balanced s) (ha : Announces s a s') : Balanced s' := by
  intro id
  have hid := h id
  cases ha with
  | nothing hregistered hremoving hevents => rw [hevents, hregistered, hremoving, hid]
  | added i hact hfree hregistered hremoving hevents =>
    rw [hevents, hregistered, hremoving, List.count_append, List.count_append, hid]
    by_cases hi : i = id
    · simp only [one, hi, List.count_singleton_self, ↓reduceIte]
      simp
      omega
    · simp [one, hi]
  | removing i hregistered hremoving hevents =>
    rw [hevents, hremoving, hid, hregistered]
    omega
  | removed i hregistered hremoving hevents =>
    rw [hevents, hregistered, List.count_append, List.count_append, hid, hremoving]
    by_cases hi : i = id
    · simp only [one, hi, List.count_singleton_self, ↓reduceIte]
      simp
      omega
    · simp [one, hi]

theorem lastEvent_concat (id : String) {s s' : State} (event : HostEvent) (hevents : s'.events = s.events ++ [event]) :
    s'.lastEvent id = if event.about id then some event else s.lastEvent id := by
  unfold lastEvent
  rw [hevents, List.filter_append]
  split_ifs with habout <;> simp [habout]

theorem Orderly.step {a : Act} (h : Orderly s) (ha : Announces s a s') (hapart : Apart s a) : Orderly s' := by
  intro id
  obtain ⟨hle, hlast⟩ := h id
  cases ha with
  | nothing hregistered hremoving hevents =>
    rw [hregistered, hremoving]
    unfold lastEvent
    rw [hevents]
    exact ⟨hle, hlast⟩
  | added i hact hfree hregistered hremoving hevents =>
    rw [hregistered, hremoving, lastEvent_concat id _ hevents]
    by_cases hi : i = id
    · subst hi
      rw [hfree, hact hapart]
      simp [one, HostEvent.about]
    · simpa [one, HostEvent.about, hi] using ⟨hle, hlast⟩
  | removing i hregistered hremoving hevents =>
    have hlast' : s'.lastEvent id = s.lastEvent id := by
      unfold lastEvent
      rw [hevents]
    rw [hregistered] at hle hlast
    rw [hlast', hremoving, hlast]
    omega
  | removed i hregistered hremoving hevents =>
    rw [hremoving] at hle hlast
    rw [hregistered, lastEvent_concat id _ hevents]
    by_cases hi : i = id
    · subst hi
      have hone : one i i = 1 := if_pos rfl
      rw [hone] at hle
      simp only [HostEvent.about, decide_true, ↓reduceIte, Option.some.injEq, reduceCtorEq, false_iff]
      omega
    · have hone : one i id = 0 := if_neg hi
      rw [hone, Nat.add_zero] at hle hlast
      simpa [HostEvent.about, hi] using ⟨hle, hlast⟩

/-- The client was open all along. -/
theorem shutDown_eq_false {a : Act} (hs : s.step a = some s') (hopen : s'.shutDown = false) : s.shutDown = false := by
  by_contra hne
  rw [shutDown_step hs (eq_true_of_ne_false hne)] at hopen
  cases hopen

theorem balanced_of_runs (hr : runs step (new ids) acts = some s) (hopen : s.shutDown = false) : Balanced s := by
  refine (runs_kept step (I := fun s => Inv ids s ∧ (s.shutDown = false → Balanced s))
    (fun h hs => ⟨h.1.step hs, fun hopen => ?_⟩) ⟨Inv.new ids, fun _ id => ?_⟩ hr).2 hopen
  · exact (h.2 (shutDown_eq_false hs hopen)).step (step_announces h.1 hs hopen)
  · simp [new, registered, removing, Record.get?_empty]

theorem orderly_of_runs (hr : runs step (new ids) acts = some s) (hapart : Guarded step Apart (new ids) acts)
    (hopen : s.shutDown = false) : Orderly s := by
  refine (runs_invariant step (I := fun s => Inv ids s ∧ (s.shutDown = false → Orderly s))
    (fun h hg hs => ⟨h.1.step hs, fun hopen => ?_⟩) ⟨Inv.new ids, fun _ id => ?_⟩ hapart hr).2 hopen
  · exact (h.2 (shutDown_eq_false hs hopen)).step (step_announces h.1 hs hopen) hg
  · simp [new, registered, removing, lastEvent, Record.get?_empty]

/-- A call of `removeHost` returns, and `removed` is the last event for its id. -/
theorem Inv.removed_last (h : Inv ids s) (hopen : s.shutDown = false) {i k : ℕ} {id : String}
    (hcall : s.removes[i]? = some ⟨id, .awaiting k⟩) (hexited : s.hasExited k = true) :
    ∃ s', s.step (.removed i) = some s' ∧ s'.hosts = s.hosts ∧ s'.lastEvent id = some (.removed id) := by
  refine ⟨publish (.removed id) { s with removes := s.removes.set i ⟨id, .removed k⟩ }, ?_, rfl, ?_⟩
  · simp only [State.step, hcall, hexited]
    rfl
  · refine (@lastEvent_concat id s _ (.removed id) ?_).trans (if_pos (by simp [HostEvent.about]))
    change (if s.closed then s.events else _) = _
    rw [h.closed_eq_false hopen]
    rfl

/-- What is heard last of a host that is there while its id is being removed can be `removed`. -/
theorem Inv.removed_of_removing (h : Inv ids s) (hopen : s.shutDown = false) {id : String}
    (hregistered : s.registered id = 1) (hremoving : s.removing id ≠ 0) :
    ∃ more s', runs State.step s more = some s' ∧ s'.registered id = 1 ∧
      s'.lastEvent id = some (.removed id) := by
  obtain ⟨call, hmem, hwaits⟩ := List.countP_pos_iff.mp (Nat.pos_of_ne_zero hremoving)
  obtain ⟨i, hi⟩ := List.mem_iff_getElem?.mp hmem
  obtain ⟨id', pc⟩ := call
  simp only [RemoveCall.waitsFor, Bool.and_eq_true, decide_eq_true_eq] at hwaits
  obtain ⟨rfl, hsome⟩ := hwaits
  obtain ⟨k, rfl⟩ : ∃ k, pc = .awaiting k := by
    cases pc with
    | awaiting k => exact ⟨k, rfl⟩
    | removed | unknownHost => cases hsome
  obtain ⟨r, hr, -, -⟩ := h.stopping.removing hi
  cases hexited : r.exited with
  | true =>
    obtain ⟨s', hs', hhosts, hlast⟩ := h.removed_last hopen hi (Stopping.hasExited_iff.mpr ⟨r, hr, hexited⟩)
    refine ⟨[.removed i], s', (runs_cons_eq_some _).mpr ⟨s', hs', rfl⟩, ?_, hlast⟩
    unfold registered
    rw [hhosts]
    exact hregistered
  | false =>
    have hu : s.step (.exits k) = some { s with runtimes := s.runtimes.set k { r with exited := true } } := by
      simp [State.step, hr, hexited]
    obtain ⟨s', hs', hhosts, hlast⟩ := (h.step hu).removed_last hopen hi
      (Stopping.hasExited_iff.mpr ⟨_, getElem?_set_of_some hr _, rfl⟩)
    refine ⟨[.exits k, .removed i], s',
      (runs_cons_eq_some _).mpr ⟨_, hu, (runs_cons_eq_some _).mpr ⟨s', hs', rfl⟩⟩, ?_, hlast⟩
    unfold registered
    rw [hhosts]
    exact hregistered

end State

open State

/-- **What is announced**, until `shutdown` is called. -/
theorem announced {ids : Record String} {acts : List Act} {s : State}
    (hr : runs step (new ids) acts = some s) (hopen : s.shutDown = false) :
    s.Balanced ∧ (Guarded step Apart (new ids) acts → s.Orderly) ∧
      ∀ id, s.registered id = 1 → s.removing id ≠ 0 →
        ∃ more s', runs step s more = some s' ∧ s'.registered id = 1 ∧
          s'.lastEvent id = some (.removed id) :=
  ⟨balanced_of_runs hr hopen, fun hapart => orderly_of_runs hr hapart hopen,
    fun _ => (inv_of_runs hr).removed_of_removing hopen⟩

/-- The run in which a host is added again before its removal is over. -/
theorem announced_addedAgain : ∃ s, runs step (new .empty) addedAgain = some s ∧
    s.Balanced ∧ (Guarded step Apart (new .empty) addedAgain → s.Orderly) ∧
      ∀ id, s.registered id = 1 → s.removing id ≠ 0 →
        ∃ more s', runs step s more = some s' ∧ s'.registered id = 1 ∧
          s'.lastEvent id = some (.removed id) :=
  ⟨_, rfl, @announced .empty addedAgain _ rfl rfl⟩

example : ∃ s, runs step (new .empty) addedAgain = some s ∧ s.hosts.get? "h" = some 1 ∧
    s.events = [.added "h", .added "h", .removed "h"] := ⟨_, rfl, rfl, rfl⟩

end AgentHostProtocol.Hosts.Multi
