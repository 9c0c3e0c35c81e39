import AgentHostProtocol.Hosts.Multi

/-!
# The registry of the multi-host client

What holds in every run of `MultiHostClient`, however its calls interleave.

* `registry_of_runs` — one running host for an id; the second check of `addHost` never finds one;
  the store and the runtimes agree on client ids.
* `attended_of_runs` — a runtime that was told to stop is waited for by the call that told it.

The first call of `shutdown` does not wait for runtimes that are being removed, and a second one
waits for nothing.
-/

namespace AgentHostProtocol.Hosts.Multi

open Library

namespace HostRuntime

/-- What a runtime is once and for all: what it was made with, why it stops, that it has ended. -/
structure Later (r r' : HostRuntime) : Prop where
  id : r'.id = r.id
  clientId : r'.clientId = r.clientId
  told : r.shutdownReason.isSome = true → r'.shutdownReason = r.shutdownReason
  exited : r.exited = true → r'.exited = true

theorem Later.refl (r : HostRuntime) : Later r r := ⟨rfl, rfl, fun _ => rfl, fun h => h⟩

theorem Later.shutdown (reason : ShutdownReason) (r : HostRuntime) :
    Later r (r.shutdown reason) where
  id := rfl
  clientId := rfl
  told h := by
    obtain ⟨x, hx⟩ := Option.isSome_iff_exists.mp h
    simp [HostRuntime.shutdown, hx]
  exited h := h

end HostRuntime

namespace State

/-! ### What a step does -/

/-- A call of `addHost` that is under way. -/
def Adds (s : State) (c : ℕ) (call : AddCall) : Prop :=
  s.adds[c]? = some call ∧ call.pc.pending = true

/-- What a step does. -/
inductive Does (s : State) : Act → State → Prop where
  | refused {id : String} {clientId : Option String} (result : AddResult)
      (hresult : result = .hostShutDown ∧ s.shutDown = true ∨ result = .duplicateHost) :
      Does s (.addHost id clientId) { s with adds := s.adds ++ [⟨id, clientId, .settled result⟩] }
  | reserved {id : String} {clientId : Option String} (hopen : s.shutDown = false)
      (hfree : s.hosts.get? id = none) (hpending : id ∉ s.pendingHostIds) :
      Does s (.addHost id clientId)
        { s with adds := s.adds ++ [⟨id, clientId, .first clientId⟩]
                 pendingHostIds := s.pendingHostIds ++ [id] }
  | loaded {c : ℕ} {call : AddCall} {generated : String} (hcall : s.adds[c]? = some call)
      (hpc : call.pc = .loading) :
      Does s (.loaded c generated)
        (s.setAdd c call (.storing ((s.clientIdStore.get? call.id).getD generated)))
  | failed {a : Act} {c : ℕ} {call : AddCall} (hcall : s.Adds c call) (result : AddResult)
      (hresult : result = .clientIdStore) : Does s a (s.settle c call result)
  | failedWritten {a : Act} {c : ℕ} {call : AddCall} {clientId : String} (hcall : s.adds[c]? = some call)
      (hpc : call.pc = .storing clientId) (result : AddResult) (hresult : ∀ k, result ≠ .ok k) :
      Does s a ((s.store call.id clientId).settle c call result)
  | started {c : ℕ} {call : AddCall} {clientId : String} (hcall : s.adds[c]? = some call)
      (hpc : call.pc = .storing clientId) (hopen : s.shutDown = false)
      (hfree : s.hosts.get? call.id = none) :
      Does s (.stored c) ((s.store call.id clientId).start c call clientId)
  | unknownHost {id : String} (hnone : s.hosts.get? id = none) :
      Does s (.removeHost id) { s with removes := s.removes ++ [⟨id, .unknownHost⟩] }
  | removing {id : String} {k : ℕ} (hk : s.hosts.get? id = some k) :
      Does s (.removeHost id)
        { s with hosts := s.hosts.delete id
                 runtimes := s.runtimes.modify k (HostRuntime.shutdown .removed)
                 removes := s.removes ++ [⟨id, .awaiting k⟩] }
  | removed {i k : ℕ} {id : String} (hcall : s.removes[i]? = some ⟨id, .awaiting k⟩)
      (hexited : s.hasExited k = true) :
      Does s (.removed i) (publish (.removed id) { s with removes := s.removes.set i ⟨id, .removed k⟩ })
  | again (hshut : s.shutDown = true) : Does s .shutdown { s with shutdowns := s.shutdowns ++ [.returned] }
  | shutdown (hopen : s.shutDown = false) :
      Does s .shutdown
        { s with shutDown := true
                 hosts := .empty
                 runtimes := (s.hosts.entries.map Prod.snd).foldl
                   (fun rs k => rs.modify k (HostRuntime.shutdown .shutdown)) s.runtimes
                 shutdowns := s.shutdowns ++ [.awaiting (s.hosts.entries.map Prod.snd)] }
  | closed {d : ℕ} {runtimes : List ℕ} (hcall : s.shutdowns[d]? = some (.awaiting runtimes))
      (hexited : ∀ k ∈ runtimes, s.hasExited k = true) :
      Does s (.closeQueues d) { s with shutdowns := s.shutdowns.set d .returned, closed := true }
  | exits {k : ℕ} {r : HostRuntime} (hr : s.runtimes[k]? = some r) (hexited : r.exited = false) :
      Does s (.exits k) { s with runtimes := s.runtimes.set k { r with exited := true } }

theorem step_does {s s' : State} {a : Act} (h : s.step a = some s') : Does s a s' := by
  cases a with
  | addHost id clientId =>
    cases h
    unfold addHost
    split_ifs with hshut hdup
    · exact .refused _ (.inl ⟨rfl, hshut⟩)
    · exact .refused _ (.inr rfl)
    · simp only [Bool.or_eq_true, Option.isSome_iff_ne_none, List.contains_eq_mem, decide_eq_true_eq,
        not_or, not_not] at hdup
      exact .reserved (by simpa using hshut) hdup.1 hdup.2
  | loaded c generated =>
    obtain ⟨call, hcall, h⟩ := Option.bind_eq_some_iff.mp h
    simp only [addStep] at h
    split at h
    · rename_i hpc
      cases h
      exact .loaded hcall hpc
    · cases h
  | loadFails c =>
    obtain ⟨call, hcall, h⟩ := Option.bind_eq_some_iff.mp h
    simp only [addStep] at h
    split at h
    · rename_i hpc
      cases h
      exact .failed ⟨hcall, by rw [hpc]; rfl⟩ _ rfl
    · cases h
  | stored c =>
    obtain ⟨call, hcall, h⟩ := Option.bind_eq_some_iff.mp h
    simp only [addStep] at h
    split at h
    · rename_i clientId hpc
      cases h
      unfold register
      split_ifs with hshut hdup
      · exact .failedWritten hcall hpc _ (by simp)
      · exact .failedWritten hcall hpc _ (by simp)
      · exact .started hcall hpc (Bool.eq_false_iff.mpr hshut) (Option.not_isSome_iff_eq_none.mp hdup)
    · cases h
  | storeFails c written =>
    obtain ⟨call, hcall, h⟩ := Option.bind_eq_some_iff.mp h
    simp only [addStep] at h
    split at h
    · rename_i clientId hpc
      cases h
      cases written
      · exact .failed ⟨hcall, by rw [hpc]; rfl⟩ _ rfl
      · exact .failedWritten hcall hpc _ (by simp)
    · cases h
  | removeHost id =>
    cases h
    unfold removeHost
    split
    · exact .unknownHost ‹_›
    · exact .removing ‹_›
  | removed i =>
    simp only [step] at h
    split at h
    · rename_i id k hcall
      split_ifs at h with hexited
      cases h
      exact .removed hcall hexited
    · cases h
  | shutdown =>
    cases h
    unfold callShutdown
    split_ifs with hshut
    · exact .again hshut
    · exact .shutdown (by simpa using hshut)
  | closeQueues d =>
    simp only [step] at h
    split at h
    · rename_i runtimes hcall
      split_ifs at h with hexited
      cases h
      exact .closed hcall (by simpa using hexited)
    · cases h
  | exits k =>
    obtain ⟨r, hr, h⟩ := Option.bind_eq_some_iff.mp h
    split_ifs at h with hexited
    cases h
    exact .exits hr (by simpa using hexited)

/-! ### Reservations -/

theorem adds_concat {s s' : State} {call : AddCall} (hadds : s'.adds = s.adds ++ [call])
    (hpc : call.pc.pending = false) {c : ℕ} {x : AddCall} : s'.Adds c x ↔ s.Adds c x := by
  constructor
  · rintro ⟨hx, hpending⟩
    rw [hadds] at hx
    rcases getElem?_concat_eq_some hx with ⟨-, rfl⟩ | hx
    · rw [hpc] at hpending
      cases hpending
    · exact ⟨hx, hpending⟩
  · rintro ⟨hx, hpending⟩
    exact ⟨by rw [hadds]; exact getElem?_concat_of_some hx call, hpending⟩

/-- `pendingHostIds` has the ids of the calls of `addHost` that are under way, each for one call, and
none of them is registered. -/
structure Reserving (s : State) : Prop where
  reserved : ∀ {c call}, s.Adds c call → call.id ∈ s.pendingHostIds ∧ s.hosts.get? call.id = none
  held : ∀ {id}, id ∈ s.pendingHostIds → ∃ c call, s.Adds c call ∧ call.id = id
  single : ∀ {c c' call call'}, s.Adds c call → s.Adds c' call' → call.id = call'.id → c = c'

namespace Reserving

/-- Nothing but the registry changes, and it gains no id. -/
theorem congr {s s' : State} (h : Reserving s) (hadds : ∀ {c call}, s'.Adds c call ↔ s.Adds c call)
    (hpending : s'.pendingHostIds = s.pendingHostIds)
    (hhosts : ∀ id, s.hosts.get? id = none → s'.hosts.get? id = none) : Reserving s' where
  reserved hcall := by
    rw [hpending]
    exact ⟨(h.reserved (hadds.mp hcall)).1, hhosts _ (h.reserved (hadds.mp hcall)).2⟩
  held hid := by
    rw [hpending] at hid
    obtain ⟨c, call, hcall, rfl⟩ := h.held hid
    exact ⟨c, call, hadds.mpr hcall, rfl⟩
  single hc hc' := h.single (hadds.mp hc) (hadds.mp hc')

/-- A call settles, and its id may be registered. -/
theorem settle {s s' : State} (h : Reserving s) {c : ℕ} {call : AddCall} (hcall : s.Adds c call)
    {result : AddResult} (hadds : s'.adds = s.adds.set c { call with pc := .settled result })
    (hpending : s'.pendingHostIds = s.pendingHostIds.filter (· ≠ call.id))
    (hhosts : ∀ id, id ≠ call.id → s.hosts.get? id = none → s'.hosts.get? id = none) :
    Reserving s' := by
  have hrest : ∀ {c' x}, s'.Adds c' x ↔ s.Adds c' x ∧ c' ≠ c := by
    intro c' x
    constructor
    · rintro ⟨hx, hp⟩
      rw [hadds] at hx
      rcases getElem?_set_eq_some hx with ⟨-, rfl⟩ | ⟨hne, hx⟩
      · cases hp
      · exact ⟨⟨hx, hp⟩, hne⟩
    · rintro ⟨⟨hx, hp⟩, hne⟩
      exact ⟨by rw [hadds, List.getElem?_set_ne (Ne.symm hne)]; exact hx, hp⟩
  have hother : ∀ {c' x}, s'.Adds c' x → x.id ≠ call.id := fun hx hid =>
    (hrest.mp hx).2 (h.single (hrest.mp hx).1 hcall hid)
  constructor
  · intro c' x hx
    have hold := h.reserved (hrest.mp hx).1
    rw [hpending, List.mem_filter]
    exact ⟨⟨hold.1, by simpa using hother hx⟩, hhosts _ (hother hx) hold.2⟩
  · intro id hid
    rw [hpending, List.mem_filter] at hid
    obtain ⟨c', x, hx, rfl⟩ := h.held hid.1
    refine ⟨c', x, hrest.mpr ⟨hx, ?_⟩, rfl⟩
    rintro rfl
    have heq : x = call := Option.some.inj (hx.1.symm.trans hcall.1)
    simp [heq] at hid
  · intro c₁ c₂ x y hx hy hid
    exact h.single (hrest.mp hx).1 (hrest.mp hy).1 hid

theorem new (clientIdStore : Record String) : Reserving (new clientIdStore) where
  reserved h := by simp [State.new, Adds] at h
  held h := by simp [State.new] at h
  single h := by simp [State.new, Adds] at h

theorem step {s s' : State} {a : Act} (h : Reserving s) (hs : s.step a = some s') : Reserving s' := by
  cases step_does hs with
  | refused result => exact h.congr (adds_concat rfl rfl) rfl fun _ => id
  | @reserved id clientId hopen hfree hpending =>
    have hpc : (Adding.first clientId).pending = true := by cases clientId <;> rfl
    have hcases : ∀ {c x}, (s.adds ++ [⟨id, clientId, .first clientId⟩])[c]? = some x → x.pc.pending = true →
        (c = s.adds.length ∧ x.id = id) ∨ s.Adds c x := by
      intro c x hx hp
      rcases getElem?_concat_eq_some hx with ⟨hc, rfl⟩ | hx
      · exact .inl ⟨hc, rfl⟩
      · exact .inr ⟨hx, hp⟩
    have hnot : ∀ {c x}, s.Adds c x → x.id ≠ id := by
      rintro c x hx rfl
      exact hpending (h.reserved hx).1
    constructor
    · rintro c x ⟨hx, hp⟩
      rcases hcases hx hp with ⟨-, hid⟩ | hx
      · rw [hid]
        exact ⟨by simp, hfree⟩
      · exact ⟨List.mem_append_left _ (h.reserved hx).1, (h.reserved hx).2⟩
    · intro id' hid
      rcases List.mem_append.mp hid with hid | hid
      · obtain ⟨c, x, hx, rfl⟩ := h.held hid
        exact ⟨c, x, ⟨getElem?_concat_of_some hx.1 _, hx.2⟩, rfl⟩
      · rw [List.mem_singleton] at hid
        exact ⟨s.adds.length, _, ⟨List.getElem?_concat_length, hpc⟩, hid.symm⟩
    · rintro c₁ c₂ x y ⟨hx, hpx⟩ ⟨hy, hpy⟩ hid
      rcases hcases hx hpx with ⟨hc, hx⟩ | hx <;> rcases hcases hy hpy with ⟨hc', hy⟩ | hy
      · rw [hc, hc']
      · exact absurd (hid.symm.trans hx) (hnot hy)
      · exact absurd (hid.trans hy) (hnot hx)
      · exact h.single hx hy hid
  | @loaded c call generated hcall hpc =>
    have hold : s.Adds c call := ⟨hcall, by rw [hpc]; rfl⟩
    generalize (s.clientIdStore.get? call.id).getD generated = clientId
    have hcases : ∀ {c' x}, (s.setAdd c call (.storing clientId)).Adds c' x → ∃ y, s.Adds c' y ∧ y.id = x.id := by
      rintro c' x ⟨hx, hp⟩
      rcases getElem?_set_eq_some hx with ⟨rfl, rfl⟩ | ⟨-, hx⟩
      · exact ⟨call, hold, rfl⟩
      · exact ⟨x, ⟨hx, hp⟩, rfl⟩
    constructor
    · intro c' x hx
      obtain ⟨y, hy, hid⟩ := hcases hx
      rw [← hid]
      exact h.reserved hy
    · intro id hid
      obtain ⟨c', x, hx, rfl⟩ := h.held hid
      by_cases hc : c' = c
      · subst hc
        have heq : x = call := Option.some.inj (hx.1.symm.trans hcall)
        exact ⟨c', _, ⟨getElem?_set_of_some hcall _, rfl⟩, by rw [heq]⟩
      · exact ⟨c', x, ⟨(List.getElem?_set_ne (Ne.symm hc)).trans hx.1, hx.2⟩, rfl⟩
    · intro c₁ c₂ x y hx hy hid
      obtain ⟨x', hx', hidx⟩ := hcases hx
      obtain ⟨y', hy', hidy⟩ := hcases hy
      exact h.single hx' hy' (hidx.trans (hid.trans hidy.symm))
  | failed hcall result => exact h.settle hcall rfl rfl fun _ _ => id
  | failedWritten hcall hpc result => exact h.settle ⟨hcall, by rw [hpc]; rfl⟩ rfl rfl fun _ _ => id
  | started hcall hpc hopen hfree =>
    refine h.settle ⟨hcall, by rw [hpc]; rfl⟩ rfl rfl fun id hne hnone => ?_
    change (s.hosts.set _ _).get? id = none
    rw [Record.get?_set, if_neg hne]
    exact hnone
  | unknownHost | removed | again | closed | exits => exact h.congr Iff.rfl rfl fun _ => id
  | removing hk =>
    refine h.congr Iff.rfl rfl fun id hnone => ?_
    change (s.hosts.delete _).get? id = none
    rw [Record.get?_delete, hnone, ite_self]
  | shutdown => exact h.congr Iff.rfl rfl fun _ _ => rfl

end Reserving

/-! ### Runtimes -/

/-- The runtimes that were not told to stop are those that are registered. -/
structure Running (s : State) : Prop where
  live : ∀ {k r}, s.runtimes[k]? = some r → (r.shutdownReason = none ↔ s.hosts.get? r.id = some k)
  listed : ∀ {id k}, s.hosts.get? id = some k → ∃ r, s.runtimes[k]? = some r ∧ r.id = id
  emptied : s.shutDown = true → s.hosts = .empty

namespace Running

theorem new (clientIdStore : Record String) : Running (new clientIdStore) where
  live h := by simp [State.new] at h
  listed h := by simp [State.new, Record.get?_empty] at h
  emptied h := by cases h

theorem mem_hosts {s : State} {k : ℕ} :
    k ∈ s.hosts.entries.map Prod.snd ↔ ∃ id, s.hosts.get? id = some k := by
  constructor
  · intro h
    obtain ⟨⟨id, k'⟩, hmem, rfl⟩ := List.mem_map.mp h
    exact ⟨id, Record.mem_entries.mp hmem⟩
  · rintro ⟨id, h⟩
    exact List.mem_map_of_mem (Record.mem_entries.mpr h)

/-- A registered runtime is told to stop by `shutdown`, another was told before. -/
theorem getElem?_shutdown {s : State} (h : Running s) {k : ℕ} {r : HostRuntime}
    (hr : ((s.hosts.entries.map Prod.snd).foldl
      (fun rs k => rs.modify k (HostRuntime.shutdown .shutdown)) s.runtimes)[k]? = some r) :
    ∃ r', s.runtimes[k]? = some r' ∧ r.id = r'.id ∧ r.clientId = r'.clientId ∧ r.exited = r'.exited ∧
      (r'.shutdownReason = none ∧ r.shutdownReason = some .shutdown ∧ k ∈ s.hosts.entries.map Prod.snd ∨
        r'.shutdownReason.isSome ∧ r.shutdownReason = r'.shutdownReason) := by
  rw [getElem?_foldl_modify (fun r => by simp [HostRuntime.shutdown])] at hr
  obtain ⟨r', hr', rfl⟩ := Option.map_eq_some_iff.mp hr
  refine ⟨r', hr', ?_, ?_, ?_, ?_⟩ <;> split_ifs with hk <;> try rfl
  · cases hreason : r'.shutdownReason with
    | none => exact .inl ⟨rfl, by simp [HostRuntime.shutdown, hreason], hk⟩
    | some reason => exact .inr ⟨rfl, by simp [HostRuntime.shutdown, hreason]⟩
  · cases hreason : r'.shutdownReason with
    | none => exact absurd (mem_hosts.mpr ⟨_, (h.live hr').mp hreason⟩) hk
    | some reason => exact .inr ⟨rfl, rfl⟩

theorem step {s s' : State} {a : Act} (h : Running s) (hs : s.step a = some s') : Running s' := by
  cases step_does hs with
  | refused | reserved | loaded | failed | failedWritten | unknownHost | removed | again | closed =>
    exact ⟨h.live, h.listed, h.emptied⟩
  | @started c call clientId hcall hpc hopen hfree =>
    constructor
    · intro k r hr
      change r.shutdownReason = none ↔ (s.hosts.set call.id s.runtimes.length).get? r.id = some k
      rw [Record.get?_set]
      have hr' : (s.runtimes ++ [⟨call.id, clientId, none, false⟩])[k]? = some r := hr
      rcases getElem?_concat_eq_some hr' with ⟨rfl, rfl⟩ | hr
      · simp
      · have hne : k ≠ s.runtimes.length := Nat.ne_of_lt (List.getElem?_eq_some_iff.mp hr).1
        rw [h.live hr]
        by_cases hid : r.id = call.id
        · simp [hid, hfree, hne.symm]
        · rw [if_neg hid]
    · intro id k hk
      change (s.hosts.set call.id s.runtimes.length).get? id = some k at hk
      rw [Record.get?_set] at hk
      split_ifs at hk with hid
      · cases hk
        exact ⟨_, List.getElem?_concat_length, hid.symm⟩
      · obtain ⟨r, hr, hrid⟩ := h.listed hk
        exact ⟨r, getElem?_concat_of_some hr _, hrid⟩
    · intro hshut
      exact absurd hopen (by rw [show s.shutDown = true from hshut]; simp)
  | @removing id k hk =>
    obtain ⟨r, hr, hrid⟩ := h.listed hk
    constructor
    · intro j x hx
      change x.shutdownReason = none ↔ (s.hosts.delete id).get? x.id = some j
      rw [Record.get?_delete]
      rw [List.getElem?_modify] at hx
      obtain ⟨y, hy, rfl⟩ := Option.map_eq_some_iff.mp hx
      by_cases hkj : k = j
      · subst hkj
        obtain rfl : y = r := Option.some.inj (hy.symm.trans hr)
        simp [HostRuntime.shutdown, hrid]
      · rw [if_neg hkj, h.live hy]
        by_cases hyid : y.id = id
        · simp [hyid, hk, hkj]
        · rw [if_neg hyid]
    · intro id' j hj
      change (s.hosts.delete id).get? id' = some j at hj
      rw [Record.get?_delete] at hj
      split_ifs at hj with hid
      obtain ⟨x, hx, hxid⟩ := h.listed hj
      refine ⟨_, by rw [List.getElem?_modify, hx]; rfl, ?_⟩
      split_ifs <;> exact hxid
    · intro hshut
      have hempty := h.emptied hshut
      rw [hempty, Record.get?_empty] at hk
      cases hk
  | shutdown hopen =>
    constructor
    · intro k r hr
      obtain ⟨r', -, -, -, -, ⟨-, hreason, -⟩ | ⟨hsome, hreason⟩⟩ := h.getElem?_shutdown hr
      · simp [hreason, Record.get?_empty]
      · simp [hreason, Option.isSome_iff_ne_none.mp hsome, Record.get?_empty]
    · intro id k hk
      rw [Record.get?_empty] at hk
      cases hk
    · exact fun _ => rfl
  | @exits k r hr hexited =>
    constructor
    · intro j x hx
      rcases getElem?_set_eq_some hx with ⟨rfl, rfl⟩ | ⟨-, hx⟩
      · exact (h.live hr :)
      · exact h.live hx
    · intro id j hj
      obtain ⟨x, hx, hxid⟩ := h.listed hj
      by_cases hjk : j = k
      · subst hjk
        obtain rfl : x = r := Option.some.inj (hx.symm.trans hr)
        exact ⟨_, getElem?_set_of_some hr _, hxid⟩
      · exact ⟨x, by rw [List.getElem?_set_ne (Ne.symm hjk)]; exact hx, hxid⟩
    · exact h.emptied

end Running

/-- No runtime is lost, and none goes back. -/
theorem step_later {s s' : State} {a : Act} (hs : s.step a = some s') :
    Grows HostRuntime.Later s.runtimes s'.runtimes := by
  intro k r hr
  cases step_does hs with
  | refused | reserved | loaded | failed | failedWritten | unknownHost | removed | again | closed =>
    exact ⟨r, hr, .refl r⟩
  | started => exact ⟨r, getElem?_concat_of_some hr _, .refl r⟩
  | removing =>
    refine ⟨_, by rw [List.getElem?_modify, hr]; rfl, ?_⟩
    split_ifs
    · exact .shutdown _ r
    · exact .refl r
  | shutdown =>
    refine ⟨_, by rw [getElem?_foldl_modify (fun r => by simp [HostRuntime.shutdown]), hr]; rfl, ?_⟩
    split_ifs
    · exact .shutdown _ r
    · exact .refl r
  | @exits j x hx hexited =>
    by_cases hj : j = k
    · subst hj
      obtain rfl : x = r := Option.some.inj (hx.symm.trans hr)
      exact ⟨_, getElem?_set_of_some hr _, rfl, rfl, fun _ => rfl, fun _ => rfl⟩
    · exact ⟨r, by rw [List.getElem?_set_ne hj]; exact hr, .refl r⟩

/-! ### Who waits for a runtime -/

/-- A runtime that was told to stop is awaited until it has ended, and only such runtimes are. The
first call of `shutdown` is the one that waits. -/
structure Stopping (s : State) : Prop where
  removing : ∀ {i k : ℕ} {id : String}, s.removes[i]? = some ⟨id, .awaiting k⟩ →
    ∃ r, s.runtimes[k]? = some r ∧ r.id = id ∧ r.shutdownReason = some .removed
  removed : ∀ {i k : ℕ} {id : String}, s.removes[i]? = some ⟨id, .removed k⟩ → s.hasExited k = true
  stopping : ∀ {d : ℕ} {ks : List ℕ}, s.shutdowns[d]? = some (.awaiting ks) →
    d = 0 ∧ ∀ k ∈ ks, ∃ r, s.runtimes[k]? = some r ∧ r.shutdownReason = some .shutdown
  removal : ∀ {k : ℕ} {r : HostRuntime}, s.runtimes[k]? = some r → r.exited = false → r.shutdownReason = some .removed →
    ∃ i : ℕ, s.removes[i]? = some ⟨r.id, .awaiting k⟩
  shutdown : ∀ {k : ℕ} {r : HostRuntime}, s.runtimes[k]? = some r → r.exited = false → r.shutdownReason = some .shutdown →
    ∃ ks, s.shutdowns[0]? = some (.awaiting ks) ∧ k ∈ ks
  called : s.shutDown = true ↔ s.shutdowns ≠ []
  closed : s.closed = true ↔ s.shutdowns[0]? = some .returned

namespace Stopping

theorem new (clientIdStore : Record String) : Stopping (new clientIdStore) where
  removing h := by simp [State.new] at h
  removed h := by simp [State.new] at h
  stopping h := by simp [State.new] at h
  removal h := by simp [State.new] at h
  shutdown h := by simp [State.new] at h
  called := by simp [State.new]
  closed := by simp [State.new]

theorem hasExited_iff {s : State} {k : ℕ} :
    s.hasExited k = true ↔ ∃ r, s.runtimes[k]? = some r ∧ r.exited = true := by
  unfold hasExited
  cases s.runtimes[k]? <;> simp

variable {s s' : State}

theorem hasExited_later (hlater : Grows HostRuntime.Later s.runtimes s'.runtimes) {k : ℕ}
    (h : s.hasExited k = true) : s'.hasExited k = true := by
  obtain ⟨r, hr, hexited⟩ := hasExited_iff.mp h
  obtain ⟨r', hr', hlater⟩ := hlater k r hr
  exact hasExited_iff.mpr ⟨r', hr', hlater.exited hexited⟩

/-- The reason that a runtime was given stays. -/
theorem told_later (hlater : Grows HostRuntime.Later s.runtimes s'.runtimes) {k : ℕ} {r : HostRuntime}
    {reason : ShutdownReason} (hr : s.runtimes[k]? = some r) (hreason : r.shutdownReason = some reason) :
    ∃ r', s'.runtimes[k]? = some r' ∧ r'.id = r.id ∧ r'.shutdownReason = some reason := by
  obtain ⟨r', hr', hlater⟩ := hlater k r hr
  exact ⟨r', hr', hlater.id, by rw [hlater.told (by rw [hreason]; rfl), hreason]⟩

theorem step {a : Act} (h : Stopping s) (hrun : Running s) (hs : s.step a = some s') : Stopping s' := by
  have hlater := step_later hs
  cases step_does hs with
  | refused | reserved | loaded | failed | failedWritten =>
    exact ⟨h.removing, h.removed, h.stopping, h.removal, h.shutdown, h.called, h.closed⟩
  | @started c call clientId hcall hpc hopen hfree =>
    have hcases : ∀ {k : ℕ} {r : HostRuntime} {reason : ShutdownReason},
        (s.runtimes ++ [⟨call.id, clientId, none, false⟩])[k]? = some r → r.shutdownReason = some reason →
        s.runtimes[k]? = some r := by
      intro k r reason hr hreason
      rcases getElem?_concat_eq_some hr with ⟨-, rfl⟩ | hr
      · cases hreason
      · exact hr
    constructor
    · intro i id k hi
      obtain ⟨r, hr, hid, hreason⟩ := h.removing hi
      exact ⟨r, getElem?_concat_of_some hr _, hid, hreason⟩
    · exact fun hi => hasExited_later hlater (h.removed hi)
    · intro d ks hd
      refine ⟨(h.stopping hd).1, fun k hk => ?_⟩
      obtain ⟨r, hr, hreason⟩ := (h.stopping hd).2 k hk
      exact ⟨r, getElem?_concat_of_some hr _, hreason⟩
    · exact fun hr hexited hreason => h.removal (hcases hr hreason) hexited hreason
    · exact fun hr hexited hreason => h.shutdown (hcases hr hreason) hexited hreason
    · exact h.called
    · exact h.closed
  | @unknownHost id hnone =>
    constructor
    · intro i id' k hi
      rcases getElem?_concat_eq_some hi with ⟨-, hcall⟩ | hi
      · cases hcall
      · exact h.removing hi
    · intro i id' k hi
      rcases getElem?_concat_eq_some hi with ⟨-, hcall⟩ | hi
      · cases hcall
      · exact h.removed hi
    · exact h.stopping
    · intro k r hr hexited hreason
      obtain ⟨i, hi⟩ := h.removal hr hexited hreason
      exact ⟨i, getElem?_concat_of_some hi _⟩
    · exact h.shutdown
    · exact h.called
    · exact h.closed
  | @removing id k hk =>
    obtain ⟨x, hx, hxid⟩ := hrun.listed hk
    have hlive : x.shutdownReason = none := (hrun.live hx).mpr (by rw [hxid]; exact hk)
    have hcases : ∀ {j : ℕ} {r : HostRuntime} {reason : ShutdownReason},
        (s.runtimes.modify k (HostRuntime.shutdown .removed))[j]? = some r → r.shutdownReason = some reason →
        j = k ∧ r.id = id ∧ reason = .removed ∨ s.runtimes[j]? = some r := by
      intro j r reason hr hreason
      rw [List.getElem?_modify] at hr
      obtain ⟨y, hy, rfl⟩ := Option.map_eq_some_iff.mp hr
      by_cases hkj : k = j
      · subst hkj
        obtain rfl : y = x := Option.some.inj (hy.symm.trans hx)
        simp only [HostRuntime.shutdown, hlive, ↓reduceIte, Option.getD_none, Option.some.injEq] at hreason
        exact .inl ⟨rfl, by simpa [HostRuntime.shutdown] using hxid, hreason.symm⟩
      · exact .inr (by simpa [hkj] using hy)
    constructor
    · intro i id' j hi
      rcases getElem?_concat_eq_some hi with ⟨-, hcall⟩ | hi
      · cases hcall
        refine ⟨_, by rw [List.getElem?_modify, hx]; rfl, ?_⟩
        simp [HostRuntime.shutdown, hlive, hxid]
      · obtain ⟨r, hr, rfl, hreason⟩ := h.removing hi
        exact told_later hlater hr hreason
    · intro i id' j hi
      rcases getElem?_concat_eq_some hi with ⟨-, hcall⟩ | hi
      · cases hcall
      · exact hasExited_later hlater (h.removed hi)
    · intro d ks hd
      refine ⟨(h.stopping hd).1, fun j hj => ?_⟩
      obtain ⟨r, hr, hreason⟩ := (h.stopping hd).2 j hj
      obtain ⟨r', hr', -, hreason'⟩ := told_later hlater hr hreason
      exact ⟨r', hr', hreason'⟩
    · intro j r hr hexited hreason
      rcases hcases hr hreason with ⟨rfl, rfl, -⟩ | hr
      · exact ⟨s.removes.length, List.getElem?_concat_length⟩
      · obtain ⟨i, hi⟩ := h.removal hr hexited hreason
        exact ⟨i, getElem?_concat_of_some hi _⟩
    · intro j r hr hexited hreason
      rcases hcases hr hreason with ⟨-, -, hne⟩ | hr
      · cases hne
      · exact h.shutdown hr hexited hreason
    · exact h.called
    · exact h.closed
  | @removed i k id hcall hexited =>
    constructor
    · intro j id' k' hj
      rcases getElem?_set_eq_some hj with ⟨-, hnew⟩ | ⟨-, hj⟩
      · cases hnew
      · exact h.removing hj
    · intro j id' k' hj
      rcases getElem?_set_eq_some hj with ⟨-, hnew⟩ | ⟨-, hj⟩
      · cases hnew
        exact hexited
      · exact h.removed hj
    · exact h.stopping
    · intro j r hr hrun' hreason
      obtain ⟨i', hi'⟩ := h.removal hr hrun' hreason
      refine ⟨i', ?_⟩
      by_cases hne : i' = i
      · subst hne
        cases hi'.symm.trans hcall
        obtain ⟨x, hx, hdone⟩ := hasExited_iff.mp hexited
        obtain rfl : x = r := Option.some.inj (hx.symm.trans hr)
        rw [hdone] at hrun'
        cases hrun'
      · exact (List.getElem?_set_ne (Ne.symm hne)).trans hi'
    · exact h.shutdown
    · exact h.called
    · exact h.closed
  | again hshut =>
    have hne : s.shutdowns ≠ [] := h.called.mp hshut
    have hfirst : (s.shutdowns ++ [.returned])[0]? = s.shutdowns[0]? :=
      List.getElem?_append_left (List.length_pos_iff.mpr hne)
    constructor
    · exact h.removing
    · exact h.removed
    · intro d ks hd
      rcases getElem?_concat_eq_some hd with ⟨-, hnew⟩ | hd
      · cases hnew
      · exact h.stopping hd
    · exact h.removal
    · intro k r hr hexited hreason
      obtain ⟨ks, hks, hk⟩ := h.shutdown hr hexited hreason
      exact ⟨ks, hfirst.trans hks, hk⟩
    · simp [hshut]
    · change s.closed = true ↔ _
      rw [hfirst]
      exact h.closed
  | shutdown hopen =>
    have hnil : s.shutdowns = [] := by
      by_contra hne
      rw [h.called.mpr hne] at hopen
      cases hopen
    constructor
    · intro i id k hi
      obtain ⟨r, hr, rfl, hreason⟩ := h.removing hi
      exact told_later hlater hr hreason
    · exact fun hi => hasExited_later hlater (h.removed hi)
    · intro d ks hd
      rw [hnil] at hd
      rcases getElem?_concat_eq_some hd with ⟨hzero, hnew⟩ | hd
      · cases hnew
        refine ⟨hzero, fun k hk => ?_⟩
        obtain ⟨id, hid⟩ := Running.mem_hosts.mp hk
        obtain ⟨x, hx, rfl⟩ := hrun.listed hid
        have hlive : x.shutdownReason = none := (hrun.live hx).mpr hid
        refine ⟨_, by rw [getElem?_foldl_modify (fun r => by simp [HostRuntime.shutdown]), hx]; rfl, ?_⟩
        simp only [if_pos hk]
        simp [HostRuntime.shutdown, hlive]
      · cases hd
    · intro k r hr hexited hreason
      obtain ⟨x, hx, hid, -, hrun', ⟨-, hshut, -⟩ | ⟨-, hsame⟩⟩ := hrun.getElem?_shutdown hr
      · rw [hreason] at hshut
        cases hshut
      · rw [hid]
        exact h.removal hx (hrun' ▸ hexited) (hsame ▸ hreason)
    · intro k r hr hexited hreason
      rw [hnil]
      obtain ⟨x, hx, -, -, hrun', ⟨-, -, hk⟩ | ⟨-, hsame⟩⟩ := hrun.getElem?_shutdown hr
      · exact ⟨_, rfl, hk⟩
      · obtain ⟨ks, hks, -⟩ := h.shutdown hx (hrun' ▸ hexited) (hsame ▸ hreason)
        rw [hnil] at hks
        cases hks
    · simp
    · have hclosed : s.closed = false := by
        rw [Bool.eq_false_iff, Ne, h.closed, hnil]
        simp
      change s.closed = true ↔ _
      rw [hclosed, hnil]
      simp
  | @closed d ks hcall hexited =>
    obtain ⟨rfl, -⟩ := h.stopping hcall
    constructor
    · exact h.removing
    · exact h.removed
    · intro d ks' hd
      rcases getElem?_set_eq_some hd with ⟨-, hnew⟩ | ⟨-, hd⟩
      · cases hnew
      · exact h.stopping hd
    · exact h.removal
    · intro k r hr hrun' hreason
      obtain ⟨ks', hks, hk⟩ := h.shutdown hr hrun' hreason
      cases hks.symm.trans hcall
      obtain ⟨x, hx, hdone⟩ := hasExited_iff.mp (hexited k hk)
      obtain rfl : x = r := Option.some.inj (hx.symm.trans hr)
      rw [hdone] at hrun'
      cases hrun'
    · change s.shutDown = true ↔ s.shutdowns.set 0 .returned ≠ []
      rw [h.called]
      simp
    · change true = true ↔ _
      simpa using getElem?_set_of_some hcall _
  | @exits k r hr hexited =>
    have hcases : ∀ {j : ℕ} {x : HostRuntime}, (s.runtimes.set k { r with exited := true })[j]? = some x → x.exited = false →
        s.runtimes[j]? = some x := by
      intro j x hx hrun'
      rcases getElem?_set_eq_some hx with ⟨-, rfl⟩ | ⟨-, hx⟩
      · cases hrun'
      · exact hx
    constructor
    · intro i id j hi
      obtain ⟨x, hx, rfl, hreason⟩ := h.removing hi
      exact told_later hlater hx hreason
    · exact fun hi => hasExited_later hlater (h.removed hi)
    · intro d ks hd
      refine ⟨(h.stopping hd).1, fun j hj => ?_⟩
      obtain ⟨x, hx, hreason⟩ := (h.stopping hd).2 j hj
      obtain ⟨x', hx', -, hreason'⟩ := told_later hlater hx hreason
      exact ⟨x', hx', hreason'⟩
    · exact fun hx hrun' hreason => h.removal (hcases hx hrun') hrun' hreason
    · exact fun hx hrun' hreason => h.shutdown (hcases hx hrun') hrun' hreason
    · exact h.called
    · exact h.closed

end Stopping

/-! ### Client ids -/

/-- No call of `addHost` for `id` came with a client id. -/
def Implicit (s : State) (id : String) : Prop :=
  ∀ (c : ℕ) (call : AddCall), s.adds[c]? = some call → call.id = id → call.clientId = none

theorem Implicit.of_concat {s s' : State} {id : String} {x : AddCall} (h : Implicit s' id)
    (hadds : s'.adds = s.adds ++ [x]) : Implicit s id := fun c call hcall =>
  h c call (by rw [hadds]; exact getElem?_concat_of_some hcall x)

theorem Implicit.of_set {s s' : State} {id : String} {c : ℕ} {call : AddCall} {pc : Adding}
    (h : Implicit s' id) (hcall : s.adds[c]? = some call)
    (hadds : s'.adds = s.adds.set c { call with pc := pc }) : Implicit s id := by
  intro c' x hx hid
  by_cases hc : c' = c
  · subst hc
    obtain rfl : x = call := Option.some.inj (hx.symm.trans hcall)
    exact h c' { x with pc := pc } (by rw [hadds]; exact getElem?_set_of_some hx _) hid
  · exact h c' x (by rw [hadds]; exact (List.getElem?_set_ne (Ne.symm hc)).trans hx) hid

/-- What the runtimes and the store have to do with the calls of `addHost`, on a store that held
`clientIdStore` at first. -/
structure Identified (clientIdStore : Record String) (s : State) : Prop where
  accepted : ∀ {c : ℕ} {call : AddCall} {k : ℕ}, s.adds[c]? = some call → call.pc = .settled (.ok k) →
    ∃ r, s.runtimes[k]? = some r ∧ r.id = call.id ∧ ∀ e ∈ call.clientId, r.clientId = e
  explicit : ∀ {c : ℕ} {call : AddCall}, s.adds[c]? = some call → call.pc = .loading → call.clientId = none
  stored : ∀ {c : ℕ} {call : AddCall} {x : String}, s.adds[c]? = some call → call.pc = .storing x →
    ∀ e ∈ call.clientId, x = e
  current : ∀ {id : String} {k : ℕ} {r : HostRuntime}, s.hosts.get? id = some k → s.runtimes[k]? = some r →
    s.clientIdStore.get? id = some r.clientId
  kept : ∀ {id : String}, Implicit s id →
    (∀ {k : ℕ} {r : HostRuntime}, s.runtimes[k]? = some r → r.id = id →
      s.clientIdStore.get? id = some r.clientId) ∧
    (∀ {c : ℕ} {call : AddCall} {x y : String}, s.adds[c]? = some call → call.id = id →
      call.pc = .storing x → s.clientIdStore.get? id = some y → x = y) ∧
    ∀ {y : String}, clientIdStore.get? id = some y → s.clientIdStore.get? id = some y

namespace Identified

variable {ids : Record String} {s s' : State}

theorem new (ids : Record String) : Identified ids (new ids) where
  accepted h := by simp [State.new] at h
  explicit h := by simp [State.new] at h
  stored h := by simp [State.new] at h
  current h := by simp [State.new, Record.get?_empty] at h
  kept _ := ⟨fun h => by simp [State.new] at h, fun h => by simp [State.new] at h, fun h => h⟩

/-- The calls, the store and the registry stay, and the runtimes are what they were. -/
theorem of_runtimes (h : Identified ids s) (hlater : Grows HostRuntime.Later s.runtimes s'.runtimes)
    (hback : s'.runtimes.length = s.runtimes.length) (hadds : s'.adds = s.adds)
    (hstore : s'.clientIdStore = s.clientIdStore)
    (hhosts : ∀ {id k}, s'.hosts.get? id = some k → s.hosts.get? id = some k) : Identified ids s' := by
  have hold : ∀ {k : ℕ} {r' : HostRuntime}, s'.runtimes[k]? = some r' →
      ∃ r, s.runtimes[k]? = some r ∧ r'.id = r.id ∧ r'.clientId = r.clientId := by
    intro k r' hr'
    have hlt : k < s.runtimes.length := hback ▸ (List.getElem?_eq_some_iff.mp hr').1
    obtain ⟨x, hx, hxr⟩ := hlater k _ (List.getElem?_eq_getElem hlt)
    obtain rfl : x = r' := Option.some.inj (hx.symm.trans hr')
    exact ⟨_, List.getElem?_eq_getElem hlt, hxr.id, hxr.clientId⟩
  constructor
  · intro c call k hcall hpc
    rw [hadds] at hcall
    obtain ⟨r, hr, hid, he⟩ := h.accepted hcall hpc
    obtain ⟨r', hr', hlater⟩ := hlater k r hr
    exact ⟨r', hr', hlater.id.trans hid, by rw [hlater.clientId]; exact he⟩
  · rw [hadds]
    exact h.explicit
  · rw [hadds]
    exact h.stored
  · intro id k r' hk hr'
    obtain ⟨r, hr, -, hclient⟩ := hold hr'
    rw [hstore, hclient]
    exact h.current (hhosts hk) hr
  · intro id himplicit
    have himplicit' : Implicit s id := fun c call hcall => himplicit c call (by rw [hadds]; exact hcall)
    obtain ⟨hruntimes, hcalls, hfirst⟩ := h.kept himplicit'
    rw [hadds, hstore]
    refine ⟨fun hr' hid => ?_, hcalls, hfirst⟩
    obtain ⟨r, hr, hid', hclient⟩ := hold hr'
    rw [hclient]
    exact hruntimes hr (hid' ▸ hid)

/-- A call of `addHost` is made, or one goes on without registering a runtime. -/
theorem of_adds (h : Identified ids s) (hruntimes : s'.runtimes = s.runtimes)
    (hhosts : s'.hosts = s.hosts) (hstore : s'.clientIdStore = s.clientIdStore)
    (himplicit : ∀ {id}, Implicit s' id → Implicit s id)
    (hcalls : ∀ {c : ℕ} {call : AddCall}, s'.adds[c]? = some call → s.adds[c]? = some call ∨
      (∀ k, call.pc ≠ .settled (.ok k)) ∧ (call.pc = .loading → call.clientId = none) ∧
        ∀ x, call.pc = .storing x → (∀ e ∈ call.clientId, x = e) ∧
          (call.clientId = none → ∀ y, s.clientIdStore.get? call.id = some y → x = y)) :
    Identified ids s' := by
  constructor
  · intro c call k hcall hpc
    rw [hruntimes]
    rcases hcalls hcall with hcall | ⟨hne, -⟩
    · exact h.accepted hcall hpc
    · exact absurd hpc (hne k)
  · intro c call hcall hpc
    rcases hcalls hcall with hcall | ⟨-, hloading, -⟩
    · exact h.explicit hcall hpc
    · exact hloading hpc
  · intro c call x hcall hpc
    rcases hcalls hcall with hcall | ⟨-, -, hstoring⟩
    · exact h.stored hcall hpc
    · exact (hstoring x hpc).1
  · rw [hruntimes, hhosts, hstore]
    exact h.current
  · intro id hi
    obtain ⟨hrun, hold, hfirst⟩ := h.kept (himplicit hi)
    rw [hruntimes, hstore]
    refine ⟨hrun, fun hcall hid hpc hy => ?_, hfirst⟩
    rcases hcalls hcall with hcall | ⟨-, -, hstoring⟩
    · exact hold hcall hid hpc hy
    · exact (hstoring _ hpc).2 (hi _ _ ‹_› hid) _ (hid ▸ hy)

/-- A call of `addHost` writes its client id. -/
theorem written (h : Identified ids s) (hres : Reserving s) {c : ℕ} {call : AddCall} {x : String}
    (hcall : s.adds[c]? = some call) (hpc : call.pc = .storing x) : Identified ids (s.store call.id x) := by
  have hfree : s.hosts.get? call.id = none := (hres.reserved ⟨hcall, by rw [hpc]; rfl⟩).2
  constructor
  · exact h.accepted
  · exact h.explicit
  · exact h.stored
  · intro id k r hk hr
    change (s.clientIdStore.set call.id x).get? id = _
    have hne : id ≠ call.id := by
      rintro rfl
      rw [show s.hosts.get? call.id = some k from hk] at hfree
      cases hfree
    rw [Record.get?_set, if_neg hne]
    exact h.current hk hr
  · intro id hi
    obtain ⟨hruntimes, hcalls, hfirst⟩ := h.kept hi
    change (∀ {k : ℕ} {r : HostRuntime}, s.runtimes[k]? = some r → r.id = id →
        (s.clientIdStore.set call.id x).get? id = some r.clientId) ∧
      (∀ {c : ℕ} {call' : AddCall} {x' y : String}, s.adds[c]? = some call' → call'.id = id →
        call'.pc = .storing x' → (s.clientIdStore.set call.id x).get? id = some y → x' = y) ∧
      ∀ {y : String}, _ → (s.clientIdStore.set call.id x).get? id = some y
    rw [Record.get?_set]
    by_cases hid : id = call.id
    · subst hid
      rw [if_pos rfl]
      refine ⟨fun hr hrid => ?_, fun hcall' hid' hpc' hy => ?_, fun hy => ?_⟩
      · rw [hcalls hcall rfl hpc (hruntimes hr hrid)]
      · have hc := hres.single ⟨hcall', by rw [hpc']; rfl⟩ ⟨hcall, by rw [hpc]; rfl⟩ hid'
        subst hc
        cases hcall'.symm.trans hcall
        cases hpc'.symm.trans hpc
        exact Option.some.inj hy
      · rw [hcalls hcall rfl hpc (hfirst hy)]
    · rw [if_neg hid]
      exact ⟨hruntimes, hcalls, hfirst⟩

/-- The runtime of a call is registered, with the client id that the call has written. -/
theorem started (h : Identified ids s) (hrun : Running s) {c : ℕ} {call : AddCall} {x : String}
    (hcall : s.adds[c]? = some call) (hpc : call.pc = .storing x) (hx : s.clientIdStore.get? call.id = some x) :
    Identified ids (s.start c call x) := by
  have hcalls : ∀ {c' : ℕ} {call' : AddCall}, (s.start c call x).adds[c']? = some call' →
      call' = { call with pc := .settled (.ok s.runtimes.length) } ∨ s.adds[c']? = some call' := by
    intro c' call' hcall'
    rcases getElem?_set_eq_some hcall' with ⟨-, rfl⟩ | ⟨-, hcall'⟩
    · exact .inl rfl
    · exact .inr hcall'
  have hruntimes : ∀ {k : ℕ} {r : HostRuntime}, (s.start c call x).runtimes[k]? = some r →
      r = ⟨call.id, x, none, false⟩ ∨ s.runtimes[k]? = some r := by
    intro k r hr
    rcases getElem?_concat_eq_some hr with ⟨-, rfl⟩ | hr
    · exact .inl rfl
    · exact .inr hr
  constructor
  · intro c' call' k hcall' hpc'
    rcases hcalls hcall' with rfl | hcall'
    · cases hpc'
      exact ⟨_, List.getElem?_concat_length, rfl, fun e he => h.stored hcall hpc e he⟩
    · obtain ⟨r, hr, hid, he⟩ := h.accepted hcall' hpc'
      exact ⟨r, getElem?_concat_of_some hr _, hid, he⟩
  · intro c' call' hcall' hpc'
    rcases hcalls hcall' with rfl | hcall'
    · cases hpc'
    · exact h.explicit hcall' hpc'
  · intro c' call' y hcall' hpc'
    rcases hcalls hcall' with rfl | hcall'
    · cases hpc'
    · exact h.stored hcall' hpc'
  · intro id k r hk hr
    change (s.hosts.set call.id s.runtimes.length).get? id = some k at hk
    rw [Record.get?_set] at hk
    split_ifs at hk with hid
    · cases hk
      rcases getElem?_concat_eq_some hr with ⟨-, rfl⟩ | hr
      · rw [hid]
        exact hx
      · exact absurd (List.getElem?_eq_some_iff.mp hr).1 (Nat.lt_irrefl _)
    · rcases getElem?_concat_eq_some hr with ⟨rfl, -⟩ | hr
      · obtain ⟨r', hr', -⟩ := hrun.listed hk
        exact absurd (List.getElem?_eq_some_iff.mp hr').1 (Nat.lt_irrefl _)
      · exact h.current hk hr
  · intro id hi
    obtain ⟨hold, hstoring, hfirst⟩ := h.kept (hi.of_set hcall rfl)
    refine ⟨fun hr hrid => ?_, fun hcall' hid hpc' => ?_, hfirst⟩
    · rcases hruntimes hr with rfl | hr
      · exact hrid ▸ hx
      · exact hold hr hrid
    · rcases hcalls hcall' with rfl | hcall'
      · cases hpc'
      · exact hstoring hcall' hid hpc'

theorem step {a : Act} (h : Identified ids s) (hres : Reserving s) (hrun : Running s)
    (hs : s.step a = some s') : Identified ids s' := by
  have hlater := step_later hs
  cases step_does hs with
  | refused result hresult =>
    refine h.of_adds rfl rfl rfl (fun hi => hi.of_concat rfl) fun hcall => ?_
    rcases getElem?_concat_eq_some hcall with ⟨-, rfl⟩ | hcall
    · refine .inr ⟨fun k hk => ?_, nofun, nofun⟩
      rcases hresult with ⟨rfl, -⟩ | rfl <;> cases hk
    · exact .inl hcall
  | @reserved id clientId hopen hfree hpending =>
    refine h.of_adds rfl rfl rfl (fun hi => hi.of_concat rfl) fun hcall => ?_
    rcases getElem?_concat_eq_some hcall with ⟨-, rfl⟩ | hcall
    · right
      cases clientId with
      | none => exact ⟨nofun, fun _ => rfl, nofun⟩
      | some e =>
        refine ⟨nofun, nofun, fun x hx => ?_⟩
        cases hx
        exact ⟨fun _ he => Option.some.inj he, nofun⟩
    · exact .inl hcall
  | @loaded c call generated hcall hpc =>
    refine h.of_adds rfl rfl rfl (fun hi => hi.of_set hcall rfl) fun hcall' => ?_
    rcases getElem?_set_eq_some hcall' with ⟨-, rfl⟩ | ⟨-, hcall'⟩
    · refine .inr ⟨nofun, nofun, fun x hx => ?_⟩
      cases hx
      refine ⟨fun e he => ?_, fun _ y hy => ?_⟩
      · rw [h.explicit hcall hpc] at he
        cases he
      · exact congrArg (Option.getD · generated) hy
    · exact .inl hcall'
  | failed hcall result hresult =>
    refine h.of_adds rfl rfl rfl (fun hi => hi.of_set hcall.1 rfl) fun hcall' => ?_
    rcases getElem?_set_eq_some hcall' with ⟨-, rfl⟩ | ⟨-, hcall'⟩
    · refine .inr ⟨fun k hk => ?_, nofun, nofun⟩
      rw [hresult] at hk
      cases hk
    · exact .inl hcall'
  | @failedWritten _ c call x hcall hpc result hresult =>
    refine (h.written hres hcall hpc).of_adds rfl rfl rfl (fun hi => hi.of_set hcall rfl) fun hcall' => ?_
    rcases getElem?_set_eq_some hcall' with ⟨-, rfl⟩ | ⟨-, hcall'⟩
    · exact .inr ⟨fun k hk => hresult k (by cases hk; rfl), nofun, nofun⟩
    · exact .inl hcall'
  | @started c call x hcall hpc hopen hfree =>
    refine (h.written hres hcall hpc).started ⟨hrun.live, hrun.listed, hrun.emptied⟩ hcall hpc ?_
    change (s.clientIdStore.set call.id x).get? call.id = some x
    rw [Record.get?_set, if_pos rfl]
  | unknownHost | removed | again | closed =>
    exact ⟨h.accepted, h.explicit, h.stored, h.current, h.kept⟩
  | @removing id k hk =>
    refine h.of_runtimes hlater (List.length_modify _ _ _) rfl rfl fun hj => ?_
    rw [Record.get?_delete] at hj
    split_ifs at hj
    exact hj
  | shutdown hopen =>
    refine h.of_runtimes hlater (length_foldl_modify _ _ _) rfl rfl fun hj => ?_
    rw [Record.get?_empty] at hj
    cases hj
  | exits hr hexited => exact h.of_runtimes hlater List.length_set rfl rfl id

end Identified

/-! ### The calls that started the runtimes -/

variable {ids : Record String} {acts : List Act} {s s' : State}

/-- A call of `addHost` that has settled stays as it is. -/
theorem step_settled {a : Act} (hs : s.step a = some s') :
    Grows (fun x y : AddCall => x.pc.pending = false → y = x) s.adds s'.adds := by
  have hset : ∀ {c : ℕ} {call : AddCall}, s.Adds c call → ∀ pc,
      Grows (fun x y : AddCall => x.pc.pending = false → y = x) s.adds (s.adds.set c { call with pc := pc }) := by
    intro c call hcall pc c' x hx
    by_cases hc : c' = c
    · subst hc
      obtain rfl : x = call := Option.some.inj (hx.symm.trans hcall.1)
      refine ⟨_, getElem?_set_of_some hx _, fun hsettled => ?_⟩
      rw [hcall.2] at hsettled
      cases hsettled
    · exact ⟨x, (List.getElem?_set_ne (Ne.symm hc)).trans hx, fun _ => rfl⟩
  cases step_does hs with
  | refused | reserved => exact fun c x hx => ⟨x, getElem?_concat_of_some hx _, fun _ => rfl⟩
  | loaded hcall hpc | failedWritten hcall hpc | started hcall hpc => exact hset ⟨hcall, by rw [hpc]; rfl⟩ _
  | failed hcall => exact hset hcall _
  | unknownHost | removing | removed | again | shutdown | closed | exits =>
    exact Grows.refl (fun _ _ => rfl) _

/-- A step starts no runtime, or one that its call returns while the client is open. -/
theorem step_runtimes {a : Act} (hs : s.step a = some s') :
    s'.runtimes.length = s.runtimes.length ∨
      s.shutDown = false ∧ s'.runtimes.length = s.runtimes.length + 1 ∧
        ∃ (c : ℕ) (call : AddCall), s'.adds[c]? = some call ∧ call.pc = .settled (.ok s.runtimes.length) := by
  cases step_does hs with
  | refused | reserved | loaded | failed | failedWritten | unknownHost | removed | again | closed =>
    exact .inl rfl
  | started hcall hpc hopen hfree =>
    exact .inr ⟨hopen, List.length_append, _, _, getElem?_set_of_some hcall _, rfl⟩
  | removing => exact .inl (List.length_modify _ _ _)
  | shutdown => exact .inl (length_foldl_modify _ _ _)
  | exits => exact .inl List.length_set

/-- Every runtime was returned by a call of `addHost`. -/
def Owned (s : State) : Prop :=
  ∀ k < s.runtimes.length, ∃ (c : ℕ) (call : AddCall), s.adds[c]? = some call ∧ call.pc = .settled (.ok k)

theorem Owned.step {a : Act} (h : Owned s) (hs : s.step a = some s') : Owned s' := by
  have hold : ∀ k < s.runtimes.length,
      ∃ (c : ℕ) (call : AddCall), s'.adds[c]? = some call ∧ call.pc = .settled (.ok k) := by
    intro k hk
    obtain ⟨c, call, hcall, hpc⟩ := h k hk
    obtain ⟨call', hcall', heq⟩ := step_settled hs c call hcall
    exact ⟨c, call', hcall', by rw [heq (by rw [hpc]; rfl), hpc]⟩
  intro k hk
  rcases step_runtimes hs with hlen | ⟨-, hlen, hnew⟩
  · exact hold k (hlen ▸ hk)
  · rw [hlen] at hk
    rcases Nat.lt_succ_iff_lt_or_eq.mp hk with hk | rfl
    · exact hold k hk
    · exact hnew

/-! ### What the registry promises -/

/-- The parts of the invariant. -/
structure Inv (ids : Record String) (s : State) : Prop where
  reserving : Reserving s
  running : Running s
  stopping : Stopping s
  identified : Identified ids s
  owned : Owned s

theorem Inv.new (ids : Record String) : Inv ids (new ids) :=
  ⟨.new ids, .new ids, .new ids, .new ids, fun k hk => absurd hk (Nat.not_lt_zero k)⟩

theorem Inv.step {a : Act} (h : Inv ids s) (hs : s.step a = some s') : Inv ids s' :=
  ⟨h.reserving.step hs, h.running.step hs, h.stopping.step h.running hs,
    h.identified.step h.reserving h.running hs, h.owned.step hs⟩

theorem inv_of_runs (hr : runs State.step (State.new ids) acts = some s) : Inv ids s :=
  runs_kept State.step (I := Inv ids) Inv.step (.new ids) hr

/-- One host for an id, whatever calls are under way, on a store that held `ids`. -/
structure Registry (ids : Record String) (s : State) : Prop where
  /-- The runtimes that were not told to stop are those that are registered. -/
  live : ∀ {k r}, s.runtimes[k]? = some r → (r.shutdownReason = none ↔ s.hosts.get? r.id = some k)
  /-- An id is reserved exactly while a call for it is under way. -/
  reserved : ∀ {id}, id ∈ s.pendingHostIds ↔ ∃ c call, s.Adds c call ∧ call.id = id
  /-- Of the calls for an id at most one is under way, and meanwhile the id is not registered. -/
  alone : ∀ {c call}, s.Adds c call → s.hosts.get? call.id = none ∧
    ∀ {c' call'}, s.Adds c' call' → call'.id = call.id → c' = c
  /-- A call that succeeds returns a runtime of its id, with the client id that it came with. -/
  accepted : ∀ {c : ℕ} {call : AddCall} {k : ℕ}, s.adds[c]? = some call → call.pc = .settled (.ok k) →
    ∃ r, s.runtimes[k]? = some r ∧ r.id = call.id ∧ ∀ e ∈ call.clientId, r.clientId = e
  /-- A call returned each of them. -/
  owned : Owned s
  /-- The store holds the client id of a registered host. -/
  current : ∀ {id : String} {k : ℕ} {r : HostRuntime}, s.hosts.get? id = some k → s.runtimes[k]? = some r →
    s.clientIdStore.get? id = some r.clientId
  /-- Without a client id from outside a host keeps its first one, however often it is added. -/
  stable : ∀ {id : String}, Implicit s id →
    ∀ {k : ℕ} {r : HostRuntime}, s.runtimes[k]? = some r → r.id = id →
      (∀ e ∈ ids.get? id, r.clientId = e) ∧
        ∀ {k' : ℕ} {r' : HostRuntime}, s.runtimes[k']? = some r' → r'.id = id → r'.clientId = r.clientId

end State

open State

/-- **One host for an id**: in every run of `addHost`, `removeHost` and `shutdown`. -/
theorem registry_of_runs {ids : Record String} {acts : List Act} {s : State}
    (hr : runs step (new ids) acts = some s) : s.Registry ids := by
  have h := inv_of_runs hr
  constructor
  · exact h.running.live
  · refine ⟨h.reserving.held, ?_⟩
    rintro ⟨c, call, hcall, rfl⟩
    exact (h.reserving.reserved hcall).1
  · exact fun hcall => ⟨(h.reserving.reserved hcall).2, fun hcall' => h.reserving.single hcall' hcall⟩
  · exact h.identified.accepted
  · exact h.owned
  · exact h.identified.current
  · intro id hi k r hr hid
    obtain ⟨hruntimes, -, hfirst⟩ := h.identified.kept hi
    have hstore := hruntimes hr hid
    exact ⟨fun e he => Option.some.inj (hstore.symm.trans (hfirst he)),
      fun hr' hid' => Option.some.inj ((hruntimes hr' hid').symm.trans hstore)⟩

/-- A host that is removed while another call for it is refused, and added again. -/
def addedAgain : List Act :=
  [.addHost "h" none, .addHost "h" none, .loaded 0 "c", .stored 0, .removeHost "h", .addHost "h" none,
    .loaded 2 "d", .stored 2, .exits 0, .removed 0]

theorem registry_of_runs_addedAgain : ∃ s, runs step (new .empty) addedAgain = some s ∧
    s.Registry .empty := ⟨_, rfl, @registry_of_runs .empty addedAgain _ rfl⟩

namespace State

variable {ids : Record String} {acts : List Act} {s s' : State}

/-- Whom the calls of `removeHost` and `shutdown` wait for. -/
structure Attended (s : State) : Prop where
  /-- A call of `removeHost` waits for a runtime that it told to stop. -/
  removing : ∀ {i k : ℕ} {id : String}, s.removes[i]? = some ⟨id, .awaiting k⟩ →
    ∃ r, s.runtimes[k]? = some r ∧ r.id = id ∧ r.shutdownReason = some .removed
  /-- When it returns the supervisor has ended. -/
  removed : ∀ {i k : ℕ} {id : String}, s.removes[i]? = some ⟨id, .removed k⟩ → s.hasExited k = true
  /-- A runtime that was told to stop has ended, or is waited for by the call that told it. -/
  told : ∀ {k : ℕ} {r : HostRuntime}, s.runtimes[k]? = some r → r.shutdownReason.isSome = true →
    r.exited = true ∨ (∃ i : ℕ, s.removes[i]? = some ⟨r.id, .awaiting k⟩) ∨
      ∃ ks, s.shutdowns[0]? = some (.awaiting ks) ∧ k ∈ ks
  /-- From the first call of `shutdown` on no host is registered. -/
  emptied : s.shutDown = true → s.hosts = .empty
  /-- A call of `shutdown` has returned: the queues are closed, or it was not the first. -/
  returned : ∀ {d : ℕ}, s.shutdowns[d]? = some .returned → s.closed = true ∨ d ≠ 0
  /-- Once they are closed only runtimes that a call of `removeHost` waits for go on. -/
  closed : s.closed = true → ∀ {k : ℕ} {r : HostRuntime}, s.runtimes[k]? = some r →
    r.exited = true ∨ ∃ i : ℕ, s.removes[i]? = some ⟨r.id, .awaiting k⟩
  /-- A call waits only while a runtime that was told to stop goes on. -/
  progress : (∀ {k : ℕ} {r : HostRuntime}, s.runtimes[k]? = some r → r.shutdownReason.isSome = true →
      r.exited = true) →
    (∀ {i k : ℕ} {id : String}, s.removes[i]? = some ⟨id, .awaiting k⟩ → (s.step (.removed i)).isSome) ∧
      ∀ {d : ℕ} {ks : List ℕ}, s.shutdowns[d]? = some (.awaiting ks) → (s.step (.closeQueues d)).isSome

theorem Inv.attended (h : Inv ids s) : Attended s := by
  have htold : ∀ {k : ℕ} {r : HostRuntime}, s.runtimes[k]? = some r → r.shutdownReason.isSome = true →
      r.exited = true ∨ (∃ i : ℕ, s.removes[i]? = some ⟨r.id, .awaiting k⟩) ∨
        ∃ ks, s.shutdowns[0]? = some (.awaiting ks) ∧ k ∈ ks := by
    intro k r hr hsome
    obtain ⟨reason, hreason⟩ := Option.isSome_iff_exists.mp hsome
    cases hexited : r.exited with
    | true => exact .inl rfl
    | false =>
      cases reason with
      | removed => exact .inr (.inl (h.stopping.removal hr hexited hreason))
      | shutdown => exact .inr (.inr (h.stopping.shutdown hr hexited hreason))
  constructor
  · exact h.stopping.removing
  · exact h.stopping.removed
  · exact htold
  · exact h.running.emptied
  · intro d hd
    by_cases hzero : d = 0
    · subst hzero
      exact .inl (h.stopping.closed.mpr hd)
    · exact .inr hzero
  · intro hclosed k r hr
    have hfirst := h.stopping.closed.mp hclosed
    have hshut : s.shutDown = true := by
      rw [h.stopping.called]
      rintro hnil
      rw [hnil] at hfirst
      cases hfirst
    have hsome : r.shutdownReason.isSome = true := by
      rw [Option.isSome_iff_ne_none, Ne, h.running.live hr, h.running.emptied hshut, Record.get?_empty]
      simp
    rcases htold hr hsome with hexited | hremoval | ⟨ks, hks, -⟩
    · exact .inl hexited
    · exact .inr hremoval
    · cases hks.symm.trans hfirst
  · intro hall
    constructor
    · intro i k id hi
      obtain ⟨r, hr, -, hreason⟩ := h.stopping.removing hi
      have hexited : s.hasExited k = true :=
        Stopping.hasExited_iff.mpr ⟨r, hr, hall hr (by rw [hreason]; rfl)⟩
      simp only [State.step, hi, hexited]
      rfl
    · intro d ks hd
      have hexited : ks.all s.hasExited = true := by
        rw [List.all_eq_true]
        intro k hk
        obtain ⟨r, hr, hreason⟩ := (h.stopping.stopping hd).2 k hk
        exact Stopping.hasExited_iff.mpr ⟨r, hr, hall hr (by rw [hreason]; rfl)⟩
      simp only [State.step, hd, hexited]
      rfl

/-- `shutdown` is for good. -/
theorem shutDown_step {a : Act} (hs : s.step a = some s') (hshut : s.shutDown = true) : s'.shutDown = true := by
  cases step_does hs with
  | refused | reserved | loaded | failed | failedWritten | started | unknownHost | removing | removed | again
  | closed | exits => exact hshut
  | shutdown => rfl

theorem runtimes_of_shutDown (hshut : s.shutDown = true) (hr : runs step s acts = some s') :
    s'.runtimes.length = s.runtimes.length := by
  refine (runs_kept step (I := fun u => u.shutDown = true ∧ u.runtimes.length = s.runtimes.length)
    (fun {u a u'} h hs => ?_) ⟨hshut, rfl⟩ hr).2
  refine ⟨shutDown_step hs h.1, ?_⟩
  rcases step_runtimes hs with hlen | ⟨hopen, -⟩
  · rw [hlen, h.2]
  · rw [h.1] at hopen
    cases hopen

end State

/-- **Stopping**: in every run a runtime that was told to stop is waited for, a call waits only for such
ones, and after `shutdown` was called no runtime starts. -/
theorem attended_of_runs {ids : Record String} {acts : List Act} {s : State}
    (hr : runs step (new ids) acts = some s) :
    s.Attended ∧ ∀ more s', runs step s more = some s' → s.shutDown = true →
      s'.runtimes.length = s.runtimes.length :=
  ⟨(inv_of_runs hr).attended, fun _ _ hmore hshut => runtimes_of_shutDown hshut hmore⟩

/-- `shutdown`, twice, while a host is being removed, another runs and a third is being added. -/
def shutDownWhileRemoving : List Act :=
  [.addHost "a" (some "x"), .stored 0, .addHost "b" (some "y"), .stored 1, .removeHost "a",
    .addHost "c" none, .shutdown, .shutdown, .loaded 2 "z", .stored 2, .exits 1, .closeQueues 0]

theorem attended_of_runs_shutDownWhileRemoving :
    ∃ s, runs step (new .empty) shutDownWhileRemoving = some s ∧
      s.Attended ∧ ∀ more s', runs step s more = some s' → s.shutDown = true →
        s'.runtimes.length = s.runtimes.length :=
  ⟨_, rfl, @attended_of_runs .empty shutDownWhileRemoving _ rfl⟩

end AgentHostProtocol.Hosts.Multi
