import AgentHostProtocol.Go.Hosts.Registry
import AgentHostProtocol.Library.Runs

/-!
# The registry of the Go multi-host client

What holds however the calls of `AddHost`, `RemoveHost` and `Shutdown` interleave, as long as
every call of `AddHost` finds the registry as it left it (`Undisturbed`): the id is still free
when its host goes in, and the host that it opened is still the one registered when it returns.

* `exclusive_of_undisturbed` — at most one `AddHost` per id succeeds between two removals, one
  that registers no host is refused, one that fails deletes its own host only, and a supervisor
  belongs to a registered host or to one that is being removed.

`AddHost` itself only sees to the first half, and only before it loads and stores the client id:
its second critical section writes over whatever is there, and a failing call deletes it.
-/

namespace AgentHostProtocol.Go.Hosts

open Library ReconnectPolicy

/-! ### What is claimed -/

def afterSuccess (id : String) (n : ℕ) : Event → ℕ
  | .succeeded _ i => if i = id then n + 1 else n
  | .removed i => if i = id then 0 else n
  | .removedAll => 0
  | _ => n

/-- The number of calls for `id` that succeeded since the last removal. -/
def successes (id : String) (log : List Event) : ℕ := log.foldl (afterSuccess id) 0

def afterInsertion (id : String) (n : ℕ) : Event → ℕ
  | .inserted _ i _ => if i = id then n + 1 else n
  | .cleaned i _ _ | .removed i => if i = id then 0 else n
  | .removedAll => 0
  | _ => n

/-- The number of hosts that were registered for `id` since the last one was removed or deleted. -/
def insertions (id : String) (log : List Event) : ℕ := log.foldl (afterInsertion id) 0

namespace State

variable {F : Type}

/-- The registry serves one call of `AddHost` per id at a time. -/
structure Exclusive (s : State F) : Prop where
  /-- At most one call per id succeeds between two removals. -/
  successes : ∀ id, successes id s.log ≤ 1
  /-- No host is registered over another. -/
  insertions : ∀ id, insertions id s.log ≤ 1
  /-- A call that registered no host was refused, or its own configuration or store failed. -/
  refused : ∀ c call result, s.adds[c]? = some call → call.pc = .returned result →
    (∀ k, .inserted c call.id k ∉ s.log) →
    result = .duplicateHost ∨ result = .configError ∨ result = .storeError
  /-- A failing call deletes its own host only. -/
  own : ∀ id k j, .cleaned id k (some j) ∈ s.log → j = k
  /-- A supervisor can be reached. -/
  supervised : ∀ k h, s.hosts[k]? = some h → h.running = true →
    s.registry.get? h.id = some k ∨ ∃ rem ∈ s.removers, rem.returned = false ∧ k ∈ rem.took

/-- A call of `AddHost` finds the registry as it left it. -/
def Undisturbed (s : State F) : Act F → Prop
  | .add c _ => ∀ call ∈ s.adds[c]?,
    (call.pc = .resolved → s.registry.get? call.id = none) ∧
      ∀ k ∈ call.pc.opening?, ∀ h ∈ s.hosts[k]?,
        (h.opening = .opened → s.registry.get? call.id = some k) ∧
          (h.opening = .failed → ∀ j ∈ s.registry.get? call.id, j = k)
  | _ => True

instance (s : State F) (a : Act F) : Decidable (Undisturbed s a) := by
  cases a <;> unfold Undisturbed <;> infer_instance

/-! ### The invariant -/

/-- The call has registered a host. -/
def Registering : Adding → Prop
  | .opening _ | .cleaned _ | .returned .ok | .returned .openError => True
  | _ => False

/-- A call of `RemoveHost` or `Shutdown` has yet to wait for host `k`. -/
def Pending (removers : List Remover) (k : ℕ) : Prop := ∃ rem ∈ removers, k ∈ rem.left

structure Registered (s : State F) : Prop where
  opening : ∀ {c : ℕ} {call : AddCall F} {k : ℕ}, s.adds[c]? = some call → call.pc = .opening k →
    ∃ h, s.hosts[k]? = some h ∧ h.id = call.id ∧ h.owner = c ∧ h.supervise = .notStarted
  listed : ∀ {id : String} {k : ℕ}, s.registry.get? id = some k → ∃ h, s.hosts[k]? = some h ∧ h.id = id
  success : ∀ id, Hosts.successes id s.log = 0 ∨ Hosts.successes id s.log = 1 ∧
    ∃ k h, s.registry.get? id = some k ∧ s.hosts[k]? = some h ∧ h.supervise ≠ .notStarted
  insertion : ∀ id, Hosts.insertions id s.log = if (s.registry.get? id).isSome then 1 else 0
  inserted : ∀ {c : ℕ} {call : AddCall F}, s.adds[c]? = some call → Registering call.pc →
    ∃ k, .inserted c call.id k ∈ s.log
  own : ∀ {id : String} {k j : ℕ}, .cleaned id k (some j) ∈ s.log → j = k
  supervised : ∀ {k : ℕ} {h : Host F}, s.hosts[k]? = some h → h.running = true →
    s.registry.get? h.id = some k ∨ Pending s.removers k

theorem Registered.exclusive {s : State F} (hs : Registered s) : Exclusive s where
  successes id := by
    rcases hs.success id with h | ⟨h, -⟩ <;> omega
  insertions id := by
    rw [hs.insertion id]
    split <;> omega
  refused c call result hc hpc hnone := by
    cases result with
    | duplicateHost => exact .inl rfl
    | configError => exact .inr (.inl rfl)
    | storeError => exact .inr (.inr rfl)
    | ok =>
      obtain ⟨k, hk⟩ := hs.inserted hc (by rw [hpc]; trivial)
      exact absurd hk (hnone k)
    | openError =>
      obtain ⟨k, hk⟩ := hs.inserted hc (by rw [hpc]; trivial)
      exact absurd hk (hnone k)
  own _ _ _ h := hs.own h
  supervised k h hk hrunning := by
    rcases hs.supervised hk hrunning with hlisted | ⟨rem, hrem, hleft⟩
    · exact .inl hlisted
    · refine .inr ⟨rem, hrem, ?_, List.mem_append_right _ hleft⟩
      cases hl : rem.left with
      | nil =>
        rw [hl] at hleft
        cases hleft
      | cons j left => simp [Remover.returned, hl]

theorem registered_new : Registered (new : State F) where
  opening h := by simp [new] at h
  listed h := by simp [new, Record.get?_empty] at h
  success _ := .inl rfl
  insertion _ := rfl
  inserted h := by simp [new] at h
  own h := by simp [new] at h
  supervised h := by simp [new] at h

/-- The hosts are the same as before for the registry, and no supervisor has started. -/
structure Kin (h h' : Host F) : Prop where
  id : h'.id = h.id
  owner : h'.owner = h.owner
  running : h'.running = true → h.running = true
  notStarted : h'.supervise = .notStarted ↔ h.supervise = .notStarted

theorem Kin.refl (h : Host F) : Kin h h := ⟨rfl, rfl, fun hr => hr, Iff.rfl⟩

theorem kin_of_step [Float64 F] {h h' : Host F} {a : Host.Act} (hs : h.step a = some h') : Kin h h' := by
  obtain ⟨hsame, hprogress⟩ := Host.step_progress hs
  exact ⟨hsame.id, hsame.owner, hprogress.running, hprogress.notStarted⟩

theorem kin_cancel (h : Host F) : Kin h h.cancel := ⟨rfl, rfl, fun hr => hr, Iff.rfl⟩

theorem kin_shutdownLoaded (h : Host F) (client : Option ℕ) : Kin h (shutdownLoaded h client) := by
  cases client with
  | none => exact .refl h
  | some client => exact ⟨rfl, rfl, fun hr => hr, Iff.rfl⟩

/-- What a step does that neither touches the registry nor is one of `AddHost`. -/
theorem Registered.of_kin {s s' : State F} (hi : Registered s) (hadds : s'.adds = s.adds)
    (hlog : s'.log = s.log) (hregistry : s'.registry = s.registry)
    (hhosts : List.Forall₂ Kin s.hosts s'.hosts)
    (hpending : ∀ {k : ℕ} {h : Host F}, s'.hosts[k]? = some h → h.running = true → Pending s.removers k →
      Pending s'.removers k) : Registered s' where
  opening hc hpc := by
    rw [hadds] at hc
    obtain ⟨h, hh, hid, howner, hsup⟩ := hi.opening hc hpc
    obtain ⟨h', hh', hkin⟩ := exists_of_forall₂_left hhosts hh
    exact ⟨h', hh', hkin.id.trans hid, hkin.owner.trans howner, hkin.notStarted.mpr hsup⟩
  listed hk := by
    rw [hregistry] at hk
    obtain ⟨h, hh, hid⟩ := hi.listed hk
    obtain ⟨h', hh', hkin⟩ := exists_of_forall₂_left hhosts hh
    exact ⟨h', hh', hkin.id.trans hid⟩
  success id := by
    rw [hlog, hregistry]
    rcases hi.success id with hzero | ⟨hone, k, h, hk, hh, hsup⟩
    · exact .inl hzero
    · obtain ⟨h', hh', hkin⟩ := exists_of_forall₂_left hhosts hh
      exact .inr ⟨hone, k, h', hk, hh', fun h => hsup (hkin.notStarted.mp h)⟩
  insertion id := by
    rw [hlog, hregistry]
    exact hi.insertion id
  inserted hc hpc := by
    rw [hadds] at hc
    rw [hlog]
    exact hi.inserted hc hpc
  own h := by
    rw [hlog] at h
    exact hi.own h
  supervised hh hrunning := by
    obtain ⟨h, hk, hkin⟩ := exists_of_forall₂_right hhosts hh
    rw [hregistry, hkin.id]
    rcases hi.supervised hk (hkin.running hrunning) with hlisted | hpend
    · exact .inl hlisted
    · exact .inr (hpending hh hrunning hpend)

/-- What a step of `AddHost` does that only says where it is. -/
theorem Registered.of_adds {s : State F} (hi : Registered s) {adds : List (AddCall F)}
    (hadds : ∀ {c : ℕ} {call : AddCall F}, adds[c]? = some call →
      s.adds[c]? = some call ∨ (∀ k, call.pc ≠ .opening k) ∧
        (Registering call.pc → ∃ call', s.adds[c]? = some call' ∧ call'.id = call.id ∧
          Registering call'.pc)) : Registered { s with adds := adds } where
  opening hc hpc := by
    rcases hadds hc with hsame | ⟨hne, -⟩
    · exact hi.opening hsame hpc
    · exact absurd hpc (hne _)
  listed := hi.listed
  success := hi.success
  insertion := hi.insertion
  inserted hc hpc := by
    rcases hadds hc with hsame | ⟨-, hbefore⟩
    · exact hi.inserted hsame hpc
    · obtain ⟨call', hc', hid, hpc'⟩ := hbefore hpc
      rw [← hid]
      exact hi.inserted hc' hpc'
  own := hi.own
  supervised := hi.supervised

theorem successes_concat (id : String) (log : List Event) (e : Event) :
    Hosts.successes id (log ++ [e]) = afterSuccess id (Hosts.successes id log) e := by
  rw [Hosts.successes, List.foldl_append, List.foldl_cons, List.foldl_nil]
  rfl

theorem insertions_concat (id : String) (log : List Event) (e : Event) :
    Hosts.insertions id (log ++ [e]) = afterInsertion id (Hosts.insertions id log) e := by
  rw [Hosts.insertions, List.foldl_append, List.foldl_cons, List.foldl_nil]
  rfl

/-- A host goes in under a free id. -/
theorem registered_insert [Float64 F] {s : State F} (hi : Registered s) {c : ℕ} {call : AddCall F}
    (hc : s.adds[c]? = some call) (hfree : s.registry.get? call.id = none) :
    Registered (s.insert c call) where
  opening hc' hpc := by
    rcases getElem?_set_eq_some hc' with ⟨rfl, rfl⟩ | ⟨-, hc'⟩
    · cases hpc
      exact ⟨_, List.getElem?_concat_length, rfl, rfl, rfl⟩
    · obtain ⟨h, hh, hrest⟩ := hi.opening hc' hpc
      exact ⟨h, getElem?_concat_of_some hh _, hrest⟩
  listed {id k} hk := by
    change (s.registry.set _ _).get? id = some k at hk
    rw [Record.get?_set] at hk
    split at hk
    · next heq =>
      cases hk
      exact ⟨_, List.getElem?_concat_length, heq.symm⟩
    · obtain ⟨h, hh, hid⟩ := hi.listed hk
      exact ⟨h, getElem?_concat_of_some hh _, hid⟩
  success id := by
    change Hosts.successes id (s.log ++ [_]) = 0 ∨ Hosts.successes id (s.log ++ [_]) = 1 ∧ _
    rw [successes_concat]
    rcases hi.success id with hzero | ⟨hone, k, h, hk, hh, hsup⟩
    · exact .inl hzero
    · refine .inr ⟨hone, k, h, ?_, getElem?_concat_of_some hh _, hsup⟩
      change (s.registry.set _ _).get? id = some k
      have hne : id ≠ call.id := by
        rintro rfl
        rw [hfree] at hk
        cases hk
      rw [Record.get?_set, if_neg hne]
      exact hk
  insertion id := by
    change Hosts.insertions id (s.log ++ [_]) = if ((s.registry.set _ _).get? id).isSome then 1 else 0
    rw [insertions_concat, Record.get?_set, hi.insertion id]
    by_cases hid : id = call.id
    · subst hid
      simp [afterInsertion, hfree]
    · simp [afterInsertion, hid, Ne.symm hid]
  inserted hc' hpc := by
    rcases getElem?_set_eq_some hc' with ⟨rfl, rfl⟩ | ⟨-, hc'⟩
    · exact ⟨_, List.mem_append_right _ List.mem_cons_self⟩
    · obtain ⟨k, hk⟩ := hi.inserted hc' hpc
      exact ⟨k, List.mem_append_left _ hk⟩
  own h := by
    rcases List.mem_append.mp h with h | h
    · exact hi.own h
    · simp at h
  supervised {k h} hh hrunning := by
    change (s.registry.set _ _).get? h.id = some k ∨ _
    rcases getElem?_concat_eq_some hh with ⟨rfl, rfl⟩ | hh
    · cases hrunning
    · rcases hi.supervised hh hrunning with hlisted | hpend
      · left
        have hne : h.id ≠ call.id := by
          intro hid
          rw [hid, hfree] at hlisted
          cases hlisted
        rw [Record.get?_set, if_neg hne]
        exact hlisted
      · exact .inr hpend

/-- The insertion of a call stays in the log when the call goes on. -/
theorem Registered.inserted_moved {s : State F} (hi : Registered s) {c : ℕ} {call moved : AddCall F}
    (hc : s.adds[c]? = some call) (hpc : Registering call.pc) {e : Event} {c' : ℕ} {call' : AddCall F}
    (hc' : (s.adds.set c moved)[c']? = some call') (hpc' : Registering call'.pc)
    (hid : moved.id = call.id) : ∃ j, .inserted c' call'.id j ∈ s.log ++ [e] := by
  have hbefore : ∃ j, .inserted c' call'.id j ∈ s.log := by
    rcases getElem?_set_eq_some hc' with ⟨rfl, rfl⟩ | ⟨-, hother⟩
    · rw [hid]
      exact hi.inserted hc hpc
    · exact hi.inserted hother hpc'
  obtain ⟨j, hj⟩ := hbefore
  exact ⟨j, List.mem_append_left _ hj⟩

/-- A call of `AddHost` starts the supervisor of its host, which is still registered. -/
theorem registered_start {s : State F} (hi : Registered s) {c k : ℕ} {call : AddCall F} {h : Host F}
    (hc : s.adds[c]? = some call) (hpc : call.pc = .opening k) (hh : s.hosts[k]? = some h)
    (hlisted : s.registry.get? call.id = some k) : Registered (s.start c call k h) := by
  obtain ⟨h₀, hh₀, hid, howner, hsup⟩ := hi.opening hc hpc
  rw [hh] at hh₀
  cases hh₀
  refine ⟨?_, ?_, ?_, ?_, ?_, ?_, ?_⟩
  · intro c' call' k' hc' hpc'
    rcases getElem?_set_eq_some hc' with ⟨rfl, rfl⟩ | ⟨hne, hc'⟩
    · cases hpc'
    · obtain ⟨h', hh', hid', howner', hsup'⟩ := hi.opening hc' hpc'
      refine ⟨h', ?_, hid', howner', hsup'⟩
      -- the host of another call has another owner
      have hk : k ≠ k' := by
        rintro rfl
        rw [hh] at hh'
        cases hh'
        exact hne (howner'.symm.trans howner)
      exact (List.getElem?_set_ne hk).trans hh'
  · intro id k' hk'
    obtain ⟨h', hh', hid'⟩ := hi.listed hk'
    by_cases hk : k = k'
    · subst hk
      rw [hh] at hh'
      cases hh'
      exact ⟨h.start, getElem?_set_of_some hh _, hid'⟩
    · exact ⟨h', (List.getElem?_set_ne hk).trans hh', hid'⟩
  · intro id
    change Hosts.successes id (s.log ++ [_]) = 0 ∨ Hosts.successes id (s.log ++ [_]) = 1 ∧ _
    rw [successes_concat]
    by_cases heq : call.id = id
    · subst heq
      right
      have hzero : Hosts.successes call.id s.log = 0 := by
        rcases hi.success call.id with hzero | ⟨-, k', h', hk', hh', hstarted⟩
        · exact hzero
        · rw [hlisted] at hk'
          cases hk'
          rw [hh] at hh'
          cases hh'
          exact absurd hsup hstarted
      rw [hzero]
      refine ⟨if_pos rfl, k, h.start, hlisted, getElem?_set_of_some hh _, ?_⟩
      simp [Host.start]
    · have hsame : afterSuccess id (Hosts.successes id s.log) (.succeeded c call.id) =
          Hosts.successes id s.log := if_neg heq
      rw [hsame]
      rcases hi.success id with hzero | ⟨hone, k', h', hk', hh', hstarted⟩
      · exact .inl hzero
      · refine .inr ⟨hone, k', h', hk', ?_, hstarted⟩
        have hk : k ≠ k' := by
          rintro rfl
          rw [hh] at hh'
          cases hh'
          exact hstarted hsup
        exact (List.getElem?_set_ne hk).trans hh'
  · intro id
    change Hosts.insertions id (s.log ++ [_]) = _
    rw [insertions_concat]
    exact hi.insertion id
  · intro c' call' hc' hpc'
    exact hi.inserted_moved hc (by rw [hpc]; trivial) hc' hpc' rfl
  · intro id k' j hmem
    rcases List.mem_append.mp hmem with hmem | hmem
    · exact hi.own hmem
    · simp at hmem
  · intro k' h' hh' hrunning
    rcases getElem?_set_eq_some hh' with ⟨rfl, rfl⟩ | ⟨-, hh'⟩
    · left
      change s.registry.get? h.id = some k'
      rw [hid]
      exact hlisted
    · exact hi.supervised hh' hrunning

/-- A call of `AddHost` that failed deletes its id, under which no other host is registered. -/
theorem registered_clean {s : State F} (hi : Registered s) {c k : ℕ} {call : AddCall F}
    (hc : s.adds[c]? = some call) (hpc : call.pc = .opening k)
    (hown : ∀ j, s.registry.get? call.id = some j → j = k) : Registered (s.clean c call k) := by
  obtain ⟨h, hh, hid, howner, hsup⟩ := hi.opening hc hpc
  refine ⟨?_, ?_, ?_, ?_, ?_, ?_, ?_⟩
  · intro c' call' k' hc' hpc'
    rcases getElem?_set_eq_some hc' with ⟨rfl, rfl⟩ | ⟨-, hc'⟩
    · cases hpc'
    · exact hi.opening hc' hpc'
  · intro id k' hk'
    change (s.registry.delete call.id).get? id = some k' at hk'
    rw [Record.get?_delete] at hk'
    split at hk'
    · cases hk'
    · exact hi.listed hk'
  · intro id
    change Hosts.successes id (s.log ++ [_]) = 0 ∨ Hosts.successes id (s.log ++ [_]) = 1 ∧ _
    rw [successes_concat]
    rcases hi.success id with hzero | ⟨hone, k', h', hk', hh', hstarted⟩
    · exact .inl hzero
    · refine .inr ⟨hone, k', h', ?_, hh', hstarted⟩
      change (s.registry.delete call.id).get? id = some k'
      have hne : id ≠ call.id := by
        rintro rfl
        rw [hown k' hk', hh] at hh'
        cases hh'
        exact hstarted hsup
      rw [Record.get?_delete, if_neg hne]
      exact hk'
  · intro id
    change Hosts.insertions id (s.log ++ [_]) =
      if ((s.registry.delete call.id).get? id).isSome then 1 else 0
    rw [insertions_concat, Record.get?_delete, hi.insertion id]
    by_cases heq : id = call.id
    · subst heq
      simp [afterInsertion]
    · simp [afterInsertion, heq, Ne.symm heq]
  · intro c' call' hc' hpc'
    exact hi.inserted_moved hc (by rw [hpc]; trivial) hc' hpc' rfl
  · intro id k' j hmem
    rcases List.mem_append.mp hmem with hmem | hmem
    · exact hi.own hmem
    · rw [List.mem_singleton, Event.cleaned.injEq] at hmem
      obtain ⟨-, rfl, hj⟩ := hmem
      exact hown j hj.symm
  · intro k' h' hh' hrunning
    rcases hi.supervised hh' hrunning with hlisted | hpend
    · left
      change (s.registry.delete call.id).get? h'.id = some k'
      have hne : h'.id ≠ call.id := by
        intro heq
        rw [heq] at hlisted
        rw [hown k' hlisted] at hh'
        change s.hosts[k]? = some h' at hh'
        rw [hh] at hh'
        cases hh'
        simp [Host.running, hsup] at hrunning
      rw [Record.get?_delete, if_neg hne]
      exact hlisted
    · exact .inr hpend

/-- Hosts are taken out of the registry by a call that is to wait for them. -/
theorem registered_taken {s : State F} (hi : Registered s) {registry : Record ℕ}
    {removers : List Remover} {e : Event} (gone : String → Prop)
    (hregistry : ∀ {id : String}, (gone id → registry.get? id = none) ∧
      (¬ gone id → registry.get? id = s.registry.get? id))
    (hsuccess : ∀ {id : String} {n : ℕ}, (gone id → afterSuccess id n e = 0) ∧
      (¬ gone id → afterSuccess id n e = n))
    (hinsertion : ∀ {id : String} {n : ℕ}, (gone id → afterInsertion id n e = 0) ∧
      (¬ gone id → afterInsertion id n e = n))
    (hevent : ∀ {id : String} {k j : ℕ}, e ≠ .cleaned id k (some j))
    (hgone : ∀ {id : String} {k : ℕ}, gone id → s.registry.get? id = some k → Pending removers k)
    (hpending : ∀ {k : ℕ}, Pending s.removers k → Pending removers k) :
    Registered { s with registry := registry, removers := removers, log := s.log ++ [e] } := by
  refine ⟨hi.opening, ?_, ?_, ?_, ?_, ?_, ?_⟩
  · intro id k hk
    by_cases hid : gone id
    · change registry.get? id = some k at hk
      rw [hregistry.1 hid] at hk
      cases hk
    · exact hi.listed ((hregistry.2 hid).symm.trans hk)
  · intro id
    change Hosts.successes id (s.log ++ [e]) = 0 ∨ Hosts.successes id (s.log ++ [e]) = 1 ∧ _
    rw [successes_concat]
    by_cases hid : gone id
    · exact .inl (hsuccess.1 hid)
    · rw [hsuccess.2 hid]
      rcases hi.success id with hzero | ⟨hone, k, h, hk, hrest⟩
      · exact .inl hzero
      · exact .inr ⟨hone, k, h, (hregistry.2 hid).trans hk, hrest⟩
  · intro id
    change Hosts.insertions id (s.log ++ [e]) = if (registry.get? id).isSome then 1 else 0
    rw [insertions_concat]
    by_cases hid : gone id
    · rw [hinsertion.1 hid, hregistry.1 hid]
      rfl
    · rw [hinsertion.2 hid, hregistry.2 hid]
      exact hi.insertion id
  · intro c call hc hpc
    obtain ⟨k, hk⟩ := hi.inserted hc hpc
    exact ⟨k, List.mem_append_left _ hk⟩
  · intro id k j hmem
    rcases List.mem_append.mp hmem with hmem | hmem
    · exact hi.own hmem
    · exact absurd (List.mem_singleton.mp hmem).symm hevent
  · intro k h hh hrunning
    rcases hi.supervised hh hrunning with hlisted | hpend
    · by_cases hid : gone h.id
      · exact .inr (hgone hid hlisted)
      · exact .inl ((hregistry.2 hid).trans hlisted)
    · exact .inr (hpending hpend)

theorem Pending.concat {removers : List Remover} {k : ℕ} (hp : Pending removers k) (rem : Remover) :
    Pending (removers ++ [rem]) k := by
  obtain ⟨rem', hmem, hleft⟩ := hp
  exact ⟨rem', List.mem_append_left _ hmem, hleft⟩

/-- A host that a call still has to wait for stays so as long as the call keeps it. -/
theorem Pending.set {removers : List Remover} {r k : ℕ} {rem rem' : Remover}
    (hr : removers[r]? = some rem) (hkeep : k ∈ rem.left → k ∈ rem'.left)
    (hp : Pending removers k) : Pending (removers.set r rem') k := by
  obtain ⟨rem₀, hmem, hleft⟩ := hp
  obtain ⟨i, hi⟩ := List.mem_iff_getElem?.mp hmem
  by_cases heq : i = r
  · subst heq
    rw [hr] at hi
    cases hi
    exact ⟨rem', List.mem_of_getElem? (getElem?_set_of_some hr rem'), hkeep hleft⟩
  · have hi' : (removers.set r rem')[i]? = some rem₀ := by
      rw [List.getElem?_set_ne (Ne.symm heq)]
      exact hi
    exact ⟨rem₀, List.mem_of_getElem? hi', hleft⟩

/-- A call of `Shutdown` that has not taken the registry has no hosts. -/
def Empty (removers : List Remover) : Prop := ∀ rem ∈ removers, rem.phase = .entered → rem.left = []

theorem registered_step [Float64 F] {s s' : State F} {a : Act F} (hi : Registered s)
    (hempty : Empty s.removers) (hg : Undisturbed s a) (hs : s.step a = some s') :
    Registered s' := by
  have hself : List.Forall₂ Kin s.hosts s.hosts := List.forall₂_same.mpr fun h _ => .refl h
  cases step_moves hs with
  | addHost id factory policy pc hpc =>
    refine hi.of_adds fun {c call} hc => ?_
    rcases getElem?_concat_eq_some hc with ⟨-, rfl⟩ | hc
    · right
      rcases hpc with rfl | rfl
      · exact ⟨by simp, fun h => h.elim⟩
      · exact ⟨by simp, fun h => h.elim⟩
    · exact .inl hc
  | decide pc hc hbefore hafter =>
    refine hi.of_adds fun {c' call'} hc' => ?_
    rcases getElem?_set_eq_some hc' with ⟨-, rfl⟩ | ⟨-, hc'⟩
    · right
      rcases hafter with rfl | rfl | rfl | rfl <;> exact ⟨by simp, fun h => h.elim⟩
    · exact .inl hc'
  | insert hc hpc => exact registered_insert hi hc ((hg _ hc).1 hpc)
  | start hc hpc hh hopened =>
    exact registered_start hi hc hpc hh (((hg _ hc).2 _ (by rw [hpc]; rfl) _ hh).1 hopened)
  | clean hc hpc hh hfailed =>
    exact registered_clean hi hc hpc (((hg _ hc).2 _ (by rw [hpc]; rfl) _ hh).2 hfailed)
  | @abandon c stored call k h hc hpc hh =>
    have hadds : Registered (s.setAdd c call (.returned .openError)) := by
      refine hi.of_adds fun {c' call'} hc' => ?_
      rcases getElem?_set_eq_some hc' with ⟨rfl, rfl⟩ | ⟨-, hc'⟩
      · exact .inr ⟨by simp, fun _ => ⟨call, hc, rfl, by rw [hpc]; trivial⟩⟩
      · exact .inl hc'
    exact hadds.of_kin rfl rfl rfl (forall₂_set Kin.refl hh (kin_cancel h)) fun _ _ hp => hp
  | host hh hstep =>
    exact hi.of_kin rfl rfl rfl (forall₂_set Kin.refl hh (kin_of_step hstep)) fun _ _ hp => hp
  | unknown hnone => exact hi.of_kin rfl rfl rfl hself fun _ _ hp => hp.concat _
  | @removeHost id k hk =>
    refine registered_taken hi (· = id) ?_ ?_ ?_ ?_ ?_ fun hp => hp.concat _
    · intro i
      rw [Record.get?_delete]
      exact ⟨fun h => if_pos h, fun h => if_neg h⟩
    · intro i n
      exact ⟨fun h => if_pos h.symm, fun h => if_neg (Ne.symm h)⟩
    · intro i n
      exact ⟨fun h => if_pos h.symm, fun h => if_neg (Ne.symm h)⟩
    · intro i k j h
      cases h
    · rintro i j rfl hj
      rw [hk] at hj
      cases hj
      exact ⟨_, List.mem_append_right _ List.mem_cons_self, List.mem_cons_self⟩
  | shutdown =>
    exact hi.of_kin rfl rfl rfl (forall₂_map kin_cancel) fun _ _ hp => hp.concat _
  | @take r rem order hr hphase hperm =>
    refine registered_taken hi (fun _ => True) ?_ ?_ ?_ ?_ ?_ ?_
    · intro i
      exact ⟨fun _ => rfl, fun h => absurd trivial h⟩
    · intro i n
      exact ⟨fun _ => rfl, fun h => absurd trivial h⟩
    · intro i n
      exact ⟨fun _ => rfl, fun h => absurd trivial h⟩
    · intro i k j h
      cases h
    · intro i k _ hk
      have hmem : k ∈ order := hperm.mem_iff.mpr (List.mem_map.mpr ⟨_, Record.mem_entries.mpr hk, rfl⟩)
      exact ⟨_, List.mem_of_getElem? (getElem?_set_of_some hr _), hmem⟩
    · intro k hp
      refine hp.set hr fun hk => ?_
      rw [hempty rem (List.mem_of_getElem? hr) hphase] at hk
      cases hk
  | cancel hr hleft hphase hh =>
    refine hi.of_kin rfl rfl rfl (forall₂_set Kin.refl hh (kin_cancel _)) fun _ _ hp => hp.set hr ?_
    rw [hleft]
    exact fun hk => hk
  | load hr hleft hphase hh =>
    refine hi.of_kin rfl rfl rfl hself fun _ _ hp => hp.set hr ?_
    rw [hleft]
    exact fun hk => hk
  | close hr hleft hphase hh =>
    refine hi.of_kin rfl rfl rfl (forall₂_set Kin.refl hh (kin_shutdownLoaded _ _))
      fun _ _ hp => hp.set hr ?_
    rw [hleft]
    exact fun hk => hk
  | @wait r k rem left h hr hleft hphase hh hrunning =>
    refine hi.of_kin rfl rfl rfl hself fun {j h'} hh' hrunning' hp => hp.set hr fun hk => ?_
    rw [hleft] at hk
    rcases List.mem_cons.mp hk with rfl | hk
    · change s.hosts[j]? = some h' at hh'
      rw [hh] at hh'
      cases hh'
      rw [hrunning] at hrunning'
      cases hrunning'
    · exact hk

theorem empty_step [Float64 F] {s s' : State F} {a : Act F} (he : Empty s.removers)
    (hs : s.step a = some s') : Empty s'.removers := by
  have hset : ∀ {r : ℕ} {rem : Remover}, rem.phase ≠ .entered → Empty (s.removers.set r rem) := by
    intro r rem hne rem' hmem hphase
    obtain ⟨i, hi⟩ := List.mem_iff_getElem?.mp hmem
    rcases getElem?_set_eq_some hi with ⟨-, rfl⟩ | ⟨-, hi⟩
    · exact absurd hphase hne
    · exact he rem' (List.mem_of_getElem? hi) hphase
  have hconcat : ∀ {rem : Remover}, (rem.phase = .entered → rem.left = []) →
      Empty (s.removers ++ [rem]) := by
    intro rem hrem rem' hmem hphase
    rcases List.mem_append.mp hmem with hmem | hmem
    · exact he rem' hmem hphase
    · rw [List.mem_singleton.mp hmem] at hphase ⊢
      exact hrem hphase
  cases step_moves hs with
  | addHost | decide | insert | start | clean | abandon | host => exact he
  | unknown => exact hconcat fun _ => rfl
  | removeHost => exact hconcat fun h => (by cases h)
  | shutdown => exact hconcat fun _ => rfl
  | take => exact hset (by simp)
  | cancel => exact hset (by simp)
  | load => exact hset (by simp)
  | close => exact hset (by simp)
  | wait => exact hset (by simp)

/-- As long as every call of `AddHost` finds the registry as it left it, the registry serves one
call per id at a time. -/
theorem exclusive_of_undisturbed [Float64 F] (actions : List (Act F)) (s : State F)
    (hg : Guarded step Undisturbed new actions) (hr : runs step new actions = some s) :
    Exclusive s := by
  have hinv : Registered s ∧ Empty s.removers :=
    runs_invariant step (I := fun s => Registered s ∧ Empty s.removers)
      (fun hi hg hs => ⟨registered_step hi.1 hi.2 hg hs, empty_step hi.2 hs⟩)
      ⟨registered_new, by simp [Empty, new]⟩ hg hr
  exact hinv.1.exclusive

/-- A second call is refused, and after `RemoveHost` a third one succeeds. -/
theorem exclusive_of_undisturbed_readded :
    ∃ actions : List (Act ℤ), ∃ s : State ℤ, Guarded step Undisturbed new actions ∧
      runs step new actions = some s ∧ s.Exclusive ∧
      s.adds.map AddCall.pc = [.returned .ok, .returned .duplicateHost, .returned .ok] := by
  let opened (c k : ℕ) : List (Act ℤ) :=
    [.add c true, .add c true, .add c true, .host k (.connect true), .host k (.initialized true),
      .add c true]
  let actions : List (Act ℤ) :=
    .addHost "h" true defaultReconnectPolicy :: opened 0 0 ++
      [.addHost "h" true defaultReconnectPolicy, .add 1 true, .removeHost "h", .remove 0, .remove 0,
        .host 0 .load, .remove 0, .host 0 .ctxDone, .remove 0,
        .addHost "h" true defaultReconnectPolicy] ++ opened 2 1
  have hpcs : (runs step new actions).map (fun s => s.adds.map AddCall.pc) =
      some [.returned .ok, .returned .duplicateHost, .returned .ok] := by decide +kernel
  obtain ⟨s, hr, hpcs⟩ := Option.map_eq_some_iff.mp hpcs
  have hg : Guarded step Undisturbed new actions := by decide +kernel
  exact ⟨actions, s, hg, hr, exclusive_of_undisturbed actions s hg hr, hpcs⟩

/-- Two calls of `AddHost` for one id that both find it free both succeed; where the first one
fails it deletes the host of the second. -/
theorem duplicate_hosts_accepted :
    ¬ (∀ (actions : List (Act ℤ)) (s : State ℤ), runs step new actions = some s →
        ∀ id, Hosts.successes id s.log ≤ 1) ∧
      ¬ (∀ (actions : List (Act ℤ)) (s : State ℤ), runs step new actions = some s →
        ∀ k h, s.hosts[k]? = some h → h.running = true →
          s.registry.get? h.id = some k ∨ ∃ rem ∈ s.removers, rem.returned = false ∧ k ∈ rem.took) ∧
      ¬ ∀ (actions : List (Act ℤ)) (s : State ℤ), runs step new actions = some s →
        ∀ id k j, .cleaned id k (some j) ∈ s.log → j = k := by
  let race : List (Act ℤ) :=
    [.addHost "h" true defaultReconnectPolicy, .addHost "h" true defaultReconnectPolicy,
      .add 0 true, .add 1 true, .add 0 true, .add 1 true, .add 0 true, .add 1 true]
  let both : List (Act ℤ) := race ++
    [.host 0 (.connect true), .host 0 (.initialized true), .add 0 true,
      .host 1 (.connect true), .host 1 (.initialized true), .add 1 true]
  let first : List (Act ℤ) := race ++ [.host 0 (.connect false), .add 0 true]
  refine ⟨fun h => ?_, fun h => ?_, fun h => ?_⟩
  · have htwo : (runs step new both).map (fun s => Hosts.successes "h" s.log) = some 2 := by decide +kernel
    obtain ⟨s, hr, htwo⟩ := Option.map_eq_some_iff.mp htwo
    have hone := h both s hr "h"
    omega
  · have hlost : (runs step new both).map (fun s => ((s.hosts[0]?).map fun h => (h.id, h.running),
        s.registry.get? "h", s.removers)) = some (some ("h", true), some 1, []) := by decide +kernel
    obtain ⟨s, hr, hlost⟩ := Option.map_eq_some_iff.mp hlost
    obtain ⟨hhost, hregistry, hremovers⟩ : _ ∧ _ ∧ _ := by simpa only [Prod.mk.injEq] using hlost
    obtain ⟨host, hh, hhost⟩ := Option.map_eq_some_iff.mp hhost
    obtain ⟨hid, hrunning⟩ := Prod.mk.inj hhost
    rcases h both s hr 0 host hh hrunning with hlisted | ⟨rem, hmem, -⟩
    · rw [hid, hregistry] at hlisted
      cases hlisted
    · rw [hremovers] at hmem
      cases hmem
  · have hlog : (runs step new first).map (fun s => s.log.getLast?) =
        some (some (.cleaned "h" 0 (some 1))) := by decide +kernel
    obtain ⟨s, hr, hlog⟩ := Option.map_eq_some_iff.mp hlog
    have hown := h first s hr "h" 0 1 (List.mem_of_getLast? hlog)
    omega

end State

end AgentHostProtocol.Go.Hosts
