import AgentHostProtocol.Rust.Client
import AgentHostProtocol.Library.Runs

/-!
# The teardown of the Rust client

`drive_transport` drains `pending`, clears `subscriptions`, takes `all_events` and drops the
receiver of `outbound`, in this order. What a call puts in behind it stays there, since the client
that is still held keeps `pending` and `subscriptions` alive.

* `torn_down_of_in_time` — once `drive_transport` has returned no request waits and every handle
  ends, in every run in which no request puts in its message after its place in `pending` was
  passed by, and no subscription is attached after the others were cleared.
-/

namespace AgentHostProtocol.Rust.Client

open Library

/-- The teardown has yet to drain `pending`. -/
def Driver.beforeDrain : Driver → Bool
  | .running | .closing | .left => true
  | _ => false

/-- It has cleared `subscriptions`. -/
def Driver.pastClear : Driver → Bool
  | .cleared | .taken | .returned => true
  | _ => false

/-- It has taken `all_events`. -/
def Driver.pastTake : Driver → Bool
  | .taken | .returned => true
  | _ => false

namespace State

/-- The call is in time for the teardown. -/
def InTime (s : State) : Act → Prop
  | .send i => s.driver = .drained ∨ s.driver = .cleared ∨ s.driver = .taken → i ∉ s.pending
  | .attachSubscription _ => s.driver.pastTake = false
  | _ => True

instance (s : State) (a : Act) : Decidable (InTime s a) := by
  cases a <;> unfold InTime <;> infer_instance

/-- The invariant of the requests. -/
structure Answered (s : State) : Prop where
  /-- A request without an answer has its sender in `pending`. -/
  pending : ∀ {i : ℕ} {r : Request}, s.requests[i]? = some r → r.slot = none →
    (∀ outcome, r.pc ≠ .returned outcome) → i ∈ s.pending
  /-- After that no request waits without an answer. -/
  drained : s.driver.beforeDrain = false → ∀ {i : ℕ} {r : Request},
    s.requests[i]? = some r → r.pc = .waiting → r.slot ≠ none

/-- The invariant of the handles. -/
structure Bound (s : State) : Prop where
  handle : ∀ h ∈ s.handles, s.closed[h.channel]? = some true ∨ s.allEvents = some h.channel ∨
    ∃ uri, s.subscriptions.get? uri = some h.channel
  /-- A sender that is kept belongs to a channel. -/
  kept : ∀ {c : ℕ}, s.allEvents = some c ∨ (∃ uri, s.subscriptions.get? uri = some c) →
    c < s.closed.length
  cleared : s.driver.pastClear = true → s.subscriptions = .empty
  taken : s.driver.pastTake = true → s.allEvents = none

theorem answered_connected : Answered connected where
  pending h := by simp [connected] at h
  drained h := by cases h

theorem bound_connected : Bound connected where
  handle h hh := by cases hh
  kept h := by
    rcases h with h | ⟨uri, h⟩
    · cases h
      exact Nat.zero_lt_one
    · cases h
  cleared h := by cases h
  taken h := by cases h

/-! ### Requests -/

theorem enqueue_eq {s s' : State} {msg : Outbound} (h : s.enqueue msg = some s') :
    ∃ outbound, s' = { s with outbound := outbound } := by
  unfold enqueue at h
  split at h
  · cases h
    exact ⟨s.outbound, rfl⟩
  · split at h
    · cases h
      exact ⟨_, rfl⟩
    · cases h

/-- A step that leaves the requests alone. -/
theorem Answered.of_eq {s s' : State} (ha : Answered s) (hrequests : s'.requests = s.requests)
    (hpending : s'.pending = s.pending)
    (hdriver : s'.driver.beforeDrain = false → s.driver.beforeDrain = false) : Answered s' where
  pending hr := by
    rw [hrequests] at hr
    rw [hpending]
    exact ha.pending hr
  drained hd {_ _} hr := by
    rw [hrequests] at hr
    exact ha.drained (hdriver hd) hr

theorem Answered.finish {s : State} (ha : Answered s) (i : ℕ) (r : Request) (outcome : Outcome) :
    Answered (s.finish i r outcome) where
  pending hr hslot hpc := by
    rcases getElem?_set_eq_some hr with ⟨-, rfl⟩ | ⟨hne, hr⟩
    · exact absurd rfl (hpc outcome)
    · exact List.mem_filter.mpr ⟨ha.pending hr hslot hpc, by simpa using hne⟩
  drained hd {_ _} hr hpc := by
    rcases getElem?_set_eq_some hr with ⟨-, rfl⟩ | ⟨-, hr⟩
    · cases hpc
    · exact ha.drained hd hr hpc

/-- After a drain every request has its answer. -/
theorem slot_of_drainPending {s : State} (ha : Answered s) {i : ℕ} {r : Request}
    (hr : s.drainPending.requests[i]? = some r) (hpc : ∀ outcome, r.pc ≠ .returned outcome) :
    r.slot ≠ none := by
  change (s.requests.mapIdx _)[i]? = some r at hr
  rw [List.getElem?_mapIdx] at hr
  obtain ⟨r₀, hr₀, rfl⟩ := Option.map_eq_some_iff.mp hr
  split
  · simp
  · next hnot =>
    rw [if_neg hnot] at hpc
    exact fun hslot => hnot (ha.pending hr₀ hslot hpc)

theorem Answered.drainPending {s : State} (ha : Answered s) : Answered s.drainPending where
  pending hr hslot hpc := absurd hslot (slot_of_drainPending ha hr hpc)
  drained _ {_ _} hr hpc := slot_of_drainPending ha hr (by simp [hpc])

theorem Answered.sendRequest {s s' : State} (ha : Answered s) {i : ℕ} {r : Request}
    (hr : s.requests[i]? = some r) (hpc : r.pc = .inserted) (hg : InTime s (.send i))
    (hs : s.sendRequest i r = some s') : Answered s' := by
  unfold State.sendRequest at hs
  split at hs
  · cases hs
    exact ha.finish i r .shutdown
  · next hopen =>
    obtain ⟨u, hu, rfl⟩ := Option.map_eq_some_iff.mp hs
    obtain ⟨outbound, rfl⟩ := enqueue_eq hu
    have hpending : r.slot = none → i ∈ s.pending := fun hslot => ha.pending hr hslot (by simp [hpc])
    constructor
    · intro j q hq hslot hqpc
      rcases getElem?_set_eq_some hq with ⟨rfl, rfl⟩ | ⟨-, hq⟩
      · exact hpending hslot
      · exact ha.pending hq hslot hqpc
    · intro hd j q hq hqpc hslot
      rcases getElem?_set_eq_some hq with ⟨rfl, rfl⟩ | ⟨-, hq⟩
      · refine hg ?_ (hpending hslot)
        change s.driver.beforeDrain = false at hd
        cases hdriver : s.driver with
        | drained => exact .inl rfl
        | cleared => exact .inr (.inl rfl)
        | taken => exact .inr (.inr rfl)
        | returned => exact absurd hdriver hopen
        | running | closing | left =>
          rw [hdriver] at hd
          cases hd
      · exact ha.drained hd hq hqpc hslot

theorem answered_step {capacity : ℕ} {s s' : State} {a : Act} (ha : Answered s) (hg : InTime s a)
    (hs : s.step capacity a = some s') : Answered s' := by
  cases a with
  | request =>
    cases hs
    constructor
    · intro j q hq hslot hpc
      rcases getElem?_concat_eq_some hq with ⟨rfl, -⟩ | hq
      · exact List.mem_append_right _ List.mem_cons_self
      · exact List.mem_append_left _ (ha.pending hq hslot hpc)
    · intro hd j q hq hpc
      rcases getElem?_concat_eq_some hq with ⟨-, rfl⟩ | hq
      · cases hpc
      · exact ha.drained hd hq hpc
  | send i =>
    simp only [step] at hs
    split at hs
    · next hr => exact ha.sendRequest hr rfl hg hs
    · cases hs
  | resume i =>
    simp only [step] at hs
    split at hs
    · cases hs
      exact ha.finish ..
    · cases hs
  | cancel i =>
    simp only [step] at hs
    split at hs
    · cases hs
    · cases hs
    · cases hs
      exact ha.finish ..
  | notify =>
    obtain ⟨outbound, rfl⟩ := enqueue_eq hs
    exact ha.of_eq rfl rfl id
  | shutdown =>
    cases hs
    exact ha.of_eq rfl rfl id
  | shutdownNext j =>
    simp only [step] at hs
    split at hs
    · obtain ⟨u, hu, rfl⟩ := Option.map_eq_some_iff.mp hs
      obtain ⟨outbound, rfl⟩ := enqueue_eq hu
      exact ha.of_eq rfl rfl id
    · cases hs
      exact ha.drainPending.of_eq rfl rfl id
    · cases hs
  | attachSubscription uri =>
    change s.attachSubscription uri = some s' at hs
    unfold State.attachSubscription at hs
    split at hs
    · cases hs
    · split at hs <;> cases hs <;> exact ha.of_eq rfl rfl id
  | unsubscribe uri =>
    change s.unsubscribe uri = some s' at hs
    unfold State.unsubscribe at hs
    split at hs
    · cases hs
    · split at hs <;> cases hs <;> exact ha.of_eq rfl rfl id
  | events =>
    cases hs
    unfold State.events
    split <;> exact ha.of_eq rfl rfl id
  | recv i =>
    simp only [step] at hs
    split at hs
    · split at hs
      · cases hs
      · cases hs
        exact ha.of_eq rfl rfl id
    · cases hs
  | takeOutbound sent =>
    simp only [step] at hs
    split at hs
    · cases hs
      refine ha.of_eq rfl rfl fun hd => ?_
      cases sent <;> cases hd
    · cases hs
      exact ha.of_eq rfl rfl fun hd => (by cases hd)
    · cases hs
  | transportClosed =>
    simp only [step] at hs
    split at hs
    · cases hs
      exact ha.of_eq rfl rfl fun hd => (by cases hd)
    · cases hs
  | response i answer =>
    simp only [step] at hs
    split at hs
    · next hrunning =>
      split at hs
      · next r hr =>
        split at hs
        · cases hs
          constructor
          · intro j q hq hslot hpc
            rcases getElem?_set_eq_some hq with ⟨-, rfl⟩ | ⟨hne, hq⟩
            · cases hslot
            · exact List.mem_filter.mpr ⟨ha.pending hq hslot hpc, by simpa using hne⟩
          · intro hd
            change s.driver.beforeDrain = false at hd
            rw [hrunning] at hd
            cases hd
        · cases hs
          exact ha
      · cases hs
        exact ha
    · cases hs
  | notification uri =>
    simp only [step] at hs
    split at hs
    · cases hs
      exact ha.of_eq rfl rfl id
    · cases hs
  | recvEnded =>
    simp only [step] at hs
    split at hs
    · cases hs
      exact ha.of_eq rfl rfl fun hd => (by cases hd)
    · cases hs
  | tearDown =>
    change s.tearDown = some s' at hs
    unfold State.tearDown at hs
    split at hs
    · cases hs
      refine ⟨ha.drainPending.pending, fun _ {_ _} hr hpc => ?_⟩
      exact slot_of_drainPending ha hr (by simp [hpc])
    · next hdriver =>
      cases hs
      exact ha.of_eq rfl rfl fun _ => (by rw [hdriver]; rfl)
    · next hdriver =>
      cases hs
      exact ha.of_eq rfl rfl fun _ => (by rw [hdriver]; rfl)
    · next hdriver =>
      cases hs
      exact ha.of_eq rfl rfl fun _ => (by rw [hdriver]; rfl)
    · cases hs

/-! ### Handles -/

/-- A step that leaves the senders alone. -/
theorem Bound.of_eq {s s' : State} (hb : Bound s)
    (hhandles : ∀ h ∈ s'.handles, ∃ h₀ ∈ s.handles, h₀.channel = h.channel)
    (hclosed : s'.closed = s.closed) (hsubs : s'.subscriptions = s.subscriptions)
    (hall : s'.allEvents = s.allEvents)
    (hclear : s'.driver.pastClear = true → s.driver.pastClear = true)
    (htake : s'.driver.pastTake = true → s.driver.pastTake = true) : Bound s' where
  handle h hh := by
    obtain ⟨h₀, hh₀, hchannel⟩ := hhandles h hh
    rw [← hchannel, hclosed, hsubs, hall]
    exact hb.handle h₀ hh₀
  kept hc := by
    rw [hall, hsubs] at hc
    rw [hclosed]
    exact hb.kept hc
  cleared h := by
    rw [hsubs]
    exact hb.cleared (hclear h)
  taken h := by
    rw [hall]
    exact hb.taken (htake h)

/-- A step that changes neither handles nor senders. -/
theorem Bound.of_same {s s' : State} (hb : Bound s) (hhandles : s'.handles = s.handles)
    (hclosed : s'.closed = s.closed) (hsubs : s'.subscriptions = s.subscriptions)
    (hall : s'.allEvents = s.allEvents)
    (hclear : s'.driver.pastClear = true → s.driver.pastClear = true)
    (htake : s'.driver.pastTake = true → s.driver.pastTake = true) : Bound s' :=
  hb.of_eq (fun h hh => ⟨h, hhandles ▸ hh, rfl⟩) hclosed hsubs hall hclear htake

/-- One more handle. -/
theorem Bound.handles {s : State} (hb : Bound s) {c : ℕ}
    (hc : s.closed[c]? = some true ∨ s.allEvents = some c ∨ ∃ uri, s.subscriptions.get? uri = some c) :
    Bound { s with handles := s.handles ++ [⟨c, 0⟩] } where
  handle h hh := by
    rcases List.mem_append.mp hh with hh | hh
    · exact hb.handle h hh
    · cases List.mem_singleton.mp hh
      exact hc
  kept := hb.kept
  cleared := hb.cleared
  taken := hb.taken

/-- One more channel. -/
theorem Bound.channel {s : State} (hb : Bound s) (closed : Bool) :
    Bound { s with closed := s.closed ++ [closed] } where
  handle h hh := by
    rcases hb.handle h hh with hclosed | hkept
    · exact .inl (getElem?_concat_of_some hclosed _)
    · exact .inr hkept
  kept hc := by
    have hlt := hb.kept hc
    change _ < (s.closed ++ [closed]).length
    rw [List.length_append]
    omega
  cleared := hb.cleared
  taken := hb.taken

theorem Bound.attachSubscription {s s' : State} (hb : Bound s) {uri : String}
    (hg : s.driver.pastTake = false) (hs : s.attachSubscription uri = some s') : Bound s' := by
  unfold State.attachSubscription at hs
  split at hs
  · cases hs
  · next hlocked =>
    split at hs
    · next c hc =>
      cases hs
      exact hb.handles (.inr (.inr ⟨uri, hc⟩))
    · next hnone =>
      cases hs
      have hopen : s.driver.pastClear = false := by
        cases hd : s.driver <;> simp_all [Driver.pastTake, Driver.pastClear]
      have hnext : Bound { s with
          closed := s.closed ++ [false], subscriptions := s.subscriptions.set uri s.closed.length } := by
        have hb' := hb.channel false
        refine ⟨fun h hh => ?_, fun hc => ?_, fun h => ?_, hb'.taken⟩
        · rcases hb'.handle h hh with hclosed | hall | ⟨uri', hget⟩
          · exact .inl hclosed
          · exact .inr (.inl hall)
          · refine .inr (.inr ⟨uri', ?_⟩)
            have hne : uri' ≠ uri := by
              rintro rfl
              change s.subscriptions.get? uri' = _ at hget
              rw [hnone] at hget
              cases hget
            rw [Record.get?_set, if_neg hne]
            exact hget
        · rcases hc with hc | ⟨uri', hget⟩
          · exact hb'.kept (.inl hc)
          · rw [Record.get?_set] at hget
            split at hget
            · cases hget
              simp
            · exact hb'.kept (.inr ⟨uri', hget⟩)
        · change s.driver.pastClear = true at h
          rw [hopen] at h
          cases h
      refine hnext.handles (.inr (.inr ⟨uri, ?_⟩))
      rw [Record.get?_set, if_pos rfl]

theorem Bound.unsubscribe {s s' : State} (hb : Bound s) {uri : String}
    (hs : s.unsubscribe uri = some s') : Bound s' := by
  unfold State.unsubscribe at hs
  split at hs
  · cases hs
  · split at hs
    · next c hc =>
      cases hs
      refine ⟨fun h hh => ?_, fun {c'} hc' => ?_, fun h => ?_, hb.taken⟩
      · rcases hb.handle h hh with hclosed | hall | ⟨uri', hget⟩
        · exact .inl (getElem?_set_same hclosed)
        · exact .inr (.inl hall)
        · by_cases huri : uri' = uri
          · subst huri
            rw [hc] at hget
            cases hget
            left
            have hlt := hb.kept (.inr ⟨uri', hc⟩)
            exact getElem?_set_of_some (List.getElem?_eq_getElem hlt) true
          · refine .inr (.inr ⟨uri', ?_⟩)
            rw [Record.get?_delete, if_neg huri]
            exact hget
      · change c' < (s.closed.set c true).length
        rw [List.length_set]
        rcases hc' with hall | ⟨uri', hget⟩
        · exact hb.kept (.inl hall)
        · rw [Record.get?_delete] at hget
          split at hget
          · cases hget
          · exact hb.kept (.inr ⟨uri', hget⟩)
      · have hempty := hb.cleared h
        rw [hempty] at hc
        cases hc
    · cases hs
      exact hb

theorem Bound.events {s : State} (hb : Bound s) : Bound s.events := by
  unfold State.events
  split
  · next c hc => exact hb.handles (.inr (.inl hc))
  · exact (hb.channel true).handles (.inl List.getElem?_concat_length)

/-- All senders of a list of channels are dropped. -/
theorem closed_foldl {entries : List (String × ℕ)} {closed : List Bool} {c : ℕ}
    (h : closed[c]? = some true ∨ c < closed.length ∧ c ∈ entries.map Prod.snd) :
    (entries.foldl (fun closed e => closed.set e.2 true) closed)[c]? = some true := by
  induction entries generalizing closed with
  | nil =>
    rcases h with h | ⟨-, h⟩
    · exact h
    · cases h
  | cons e entries ih =>
    rw [List.foldl_cons]
    refine ih ?_
    rcases h with h | ⟨hlt, hmem⟩
    · exact .inl (getElem?_set_same h)
    · rw [List.map_cons] at hmem
      rcases List.mem_cons.mp hmem with rfl | hmem
      · exact .inl (getElem?_set_of_some (List.getElem?_eq_getElem hlt) true)
      · exact .inr ⟨by rwa [List.length_set], hmem⟩

theorem length_foldl_set (entries : List (String × ℕ)) (closed : List Bool) :
    (entries.foldl (fun closed e => closed.set e.2 true) closed).length = closed.length := by
  induction entries generalizing closed with
  | nil => rfl
  | cons e entries ih =>
    rw [List.foldl_cons, ih, List.length_set]

theorem Bound.tearDown {s s' : State} (hb : Bound s) (hs : s.tearDown = some s') : Bound s' := by
  unfold State.tearDown at hs
  split at hs
  · cases hs
    exact hb.of_same rfl rfl rfl rfl (fun h => by cases h) fun h => by cases h
  · cases hs
    refine ⟨fun h hh => ?_, fun {c} hc => ?_, fun _ => rfl, fun h => by cases h⟩
    · rcases hb.handle h hh with hclosed | hall | ⟨uri, hget⟩
      · exact .inl (closed_foldl (.inl hclosed))
      · exact .inr (.inl hall)
      · refine .inl (closed_foldl (.inr ⟨hb.kept (.inr ⟨uri, hget⟩), ?_⟩))
        exact List.mem_map.mpr ⟨_, Record.mem_entries.mpr hget, rfl⟩
    · rcases hc with hall | ⟨uri, hget⟩
      · rw [length_foldl_set]
        exact hb.kept (.inl hall)
      · cases hget
  · next hdriver =>
    cases hs
    have hempty := hb.cleared (by rw [hdriver]; rfl)
    refine ⟨fun h hh => ?_, fun {c} hc => ?_, fun _ => hempty, fun _ => rfl⟩
    · rcases hb.handle h hh with hclosed | hall | ⟨uri, hget⟩
      · left
        cases hall : s.allEvents with
        | none => exact hclosed
        | some c => exact getElem?_set_same hclosed
      · left
        rw [hall]
        exact getElem?_set_of_some (List.getElem?_eq_getElem (hb.kept (.inl hall))) true
      · rw [hempty] at hget
        cases hget
    · rcases hc with hc | ⟨uri, hget⟩
      · cases hc
      · change s.subscriptions.get? uri = some c at hget
        rw [hempty] at hget
        cases hget
  · next hdriver =>
    cases hs
    exact hb.of_same rfl rfl rfl rfl (fun _ => by rw [hdriver]; rfl) fun _ => by rw [hdriver]; rfl
  · cases hs

theorem bound_step {capacity : ℕ} {s s' : State} {a : Act} (hb : Bound s) (hg : InTime s a)
    (hs : s.step capacity a = some s') : Bound s' := by
  cases a with
  | request =>
    cases hs
    exact hb.of_same rfl rfl rfl rfl id id
  | send i =>
    simp only [step] at hs
    split at hs
    · unfold State.sendRequest at hs
      split at hs
      · cases hs
        exact hb.of_same rfl rfl rfl rfl id id
      · obtain ⟨u, hu, rfl⟩ := Option.map_eq_some_iff.mp hs
        obtain ⟨outbound, rfl⟩ := enqueue_eq hu
        exact hb.of_same rfl rfl rfl rfl id id
    · cases hs
  | resume i =>
    simp only [step] at hs
    split at hs
    · cases hs
      exact hb.of_same rfl rfl rfl rfl id id
    · cases hs
  | cancel i =>
    simp only [step] at hs
    split at hs
    · cases hs
    · cases hs
    · cases hs
      exact hb.of_same rfl rfl rfl rfl id id
  | notify =>
    obtain ⟨outbound, rfl⟩ := enqueue_eq hs
    exact hb.of_same rfl rfl rfl rfl id id
  | shutdown =>
    cases hs
    exact hb.of_same rfl rfl rfl rfl id id
  | shutdownNext j =>
    simp only [step] at hs
    split at hs
    · obtain ⟨u, hu, rfl⟩ := Option.map_eq_some_iff.mp hs
      obtain ⟨outbound, rfl⟩ := enqueue_eq hu
      exact hb.of_same rfl rfl rfl rfl id id
    · cases hs
      exact hb.of_same rfl rfl rfl rfl id id
    · cases hs
  | attachSubscription uri => exact hb.attachSubscription hg hs
  | unsubscribe uri => exact hb.unsubscribe hs
  | events =>
    cases hs
    exact hb.events
  | recv i =>
    simp only [step] at hs
    split at hs
    · next h hh =>
      split at hs
      · cases hs
      · cases hs
        refine hb.of_eq (fun h' hh' => ?_) rfl rfl rfl id id
        rcases List.mem_or_eq_of_mem_set hh' with hh' | rfl
        · exact ⟨h', hh', rfl⟩
        · exact ⟨h, List.mem_of_getElem? hh, rfl⟩
    · cases hs
  | takeOutbound sent =>
    simp only [step] at hs
    split at hs
    · next hdriver _ =>
      cases hs
      refine hb.of_same rfl rfl rfl rfl (fun h => ?_) fun h => ?_
      · cases sent <;> cases h
      · cases sent <;> cases h
    · cases hs
      exact hb.of_same rfl rfl rfl rfl (fun h => by cases h) fun h => by cases h
    · cases hs
  | transportClosed =>
    simp only [step] at hs
    split at hs
    · cases hs
      exact hb.of_same rfl rfl rfl rfl (fun h => by cases h) fun h => by cases h
    · cases hs
  | response i answer =>
    simp only [step] at hs
    split at hs
    · split at hs
      · split at hs
        · cases hs
          exact hb.of_same rfl rfl rfl rfl id id
        · cases hs
          exact hb
      · cases hs
        exact hb
    · cases hs
  | notification uri =>
    have hbroadcast : ∀ {s : State} (c : Option ℕ), Bound s → Bound (s.broadcast capacity c) := by
      intro s c hb
      refine hb.of_eq (fun h hh => ?_) rfl rfl rfl id id
      obtain ⟨h₀, hh₀, rfl⟩ := List.mem_map.mp hh
      refine ⟨h₀, hh₀, ?_⟩
      split <;> rfl
    simp only [step] at hs
    split at hs
    · cases hs
      exact hbroadcast _ (hbroadcast _ hb)
    · cases hs
  | recvEnded =>
    simp only [step] at hs
    split at hs
    · cases hs
      exact hb.of_same rfl rfl rfl rfl (fun h => by cases h) fun h => by cases h
    · cases hs
  | tearDown => exact hb.tearDown hs

/-- Once `drive_transport` has returned no request waits for a response, and every handle yields
what is buffered for it and then ends, when every call was in time. -/
theorem torn_down_of_in_time (capacity : ℕ) (actions : List Act) (s : State)
    (hg : Guarded (step capacity) InTime connected actions)
    (hr : runs (step capacity) connected actions = some s) (hreturned : s.driver = .returned) :
    (∀ r ∈ s.requests, r.waits = false) ∧ ∀ h ∈ s.handles, s.recv h ≠ .waits := by
  obtain ⟨ha, hb⟩ : Answered s ∧ Bound s :=
    runs_invariant (step capacity) (I := fun s => Answered s ∧ Bound s)
      (fun hi hg hs => ⟨answered_step hi.1 hg hs, bound_step hi.2 hg hs⟩)
      ⟨answered_connected, bound_connected⟩ hg hr
  constructor
  · intro r hmem
    obtain ⟨i, hi⟩ := List.mem_iff_getElem?.mp hmem
    have hslot := ha.drained (by rw [hreturned]; rfl) hi
    cases hpc : r.pc with
    | waiting =>
      have hsome := hslot hpc
      cases hs : r.slot with
      | none => exact absurd hs hsome
      | some answer => simp [Request.waits, hs]
    | inserted => simp [Request.waits, hpc]
    | returned outcome => simp [Request.waits, hpc]
  · intro h hh
    have hclosed : s.closed[h.channel]? = some true := by
      rcases hb.handle h hh with hclosed | hall | ⟨uri, hget⟩
      · exact hclosed
      · rw [hb.taken (by rw [hreturned]; rfl)] at hall
        cases hall
      · rw [hb.cleared (by rw [hreturned]; rfl)] at hget
        cases hget
    by_cases hbuffered : 0 < h.buffered
    · simp [State.recv, hbuffered]
    · simp [State.recv, hbuffered, hclosed]

/-- A request and a subscription before the connection ends, and streams from before and after. -/
theorem torn_down_of_in_time_ended :
    ∃ s : State, s.driver = .returned ∧ s.requests.length = 1 ∧ s.handles.length = 3 ∧
      (∀ r ∈ s.requests, r.waits = false) ∧ ∀ h ∈ s.handles, s.recv h ≠ .waits := by
  let actions : List Act :=
    [.request, .send 0, .attachSubscription "ahp-root://", .events, .notification "ahp-root://",
      .recvEnded, .tearDown, .tearDown, .tearDown, .tearDown, .events]
  have hview : (runs (step 256) connected actions).map
      (fun s => (s.driver, s.requests.length, s.handles.length)) = some (.returned, 1, 3) := by decide
  obtain ⟨s, hr, hview⟩ := Option.map_eq_some_iff.mp hview
  obtain ⟨hdriver, hlengths⟩ := Prod.mk.inj hview
  obtain ⟨hrequests, hhandles⟩ := Prod.mk.inj hlengths
  have hg : Guarded (step 256) InTime connected actions := by decide
  exact ⟨s, hdriver, hrequests, hhandles, torn_down_of_in_time 256 actions s hg hr hdriver⟩

/-- A request that slips in between the drain of `pending` and the end of the queue waits forever,
and so does a subscription that is attached after the teardown. -/
theorem late_calls_wait :
    ¬ (∀ (actions : List Act) (s : State), runs (step 256) connected actions = some s →
        s.driver = .returned → ∀ r ∈ s.requests, r.waits = false) ∧
      ¬ ∀ (actions : List Act) (s : State), runs (step 256) connected actions = some s →
        s.driver = .returned → ∀ h ∈ s.handles, s.recv h ≠ .waits := by
  constructor
  · intro h
    have hview : (runs (step 256) connected [.recvEnded, .tearDown, .request, .send 0, .tearDown,
        .tearDown, .tearDown]).map (fun s => (s.driver, s.requests)) =
        some (.returned, [⟨.waiting, none⟩]) := by decide
    obtain ⟨s, hr, hview⟩ := Option.map_eq_some_iff.mp hview
    obtain ⟨hdriver, hrequests⟩ := Prod.mk.inj hview
    have hnot := h _ s hr hdriver ⟨.waiting, none⟩ (by rw [hrequests]; exact List.mem_cons_self)
    cases hnot
  · intro h
    have hview : (runs (step 256) connected [.recvEnded, .tearDown, .tearDown, .tearDown, .tearDown,
        .attachSubscription "ahp-root://"]).map (fun s => (s.driver, s.handles, s.closed)) =
        some (.returned, [⟨1, 0⟩], [true, false]) := by decide
    obtain ⟨s, hr, hview⟩ := Option.map_eq_some_iff.mp hview
    obtain ⟨hdriver, hrest⟩ := Prod.mk.inj hview
    obtain ⟨hhandles, hclosed⟩ := Prod.mk.inj hrest
    refine h _ s hr hdriver ⟨1, 0⟩ (by rw [hhandles]; exact List.mem_cons_self) ?_
    simp [State.recv, hclosed]

end State

end AgentHostProtocol.Rust.Client
