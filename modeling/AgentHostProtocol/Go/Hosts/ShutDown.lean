import AgentHostProtocol.Go.Hosts.Registry
import AgentHostProtocol.Library.Runs

/-!
# Removing a host of the Go multi-host client

`RemoveHost` and `Shutdown` read `hs.client` once and then wait for the supervisor alone. So a
client is left open that an `openHost` under way installs after that, or that the `openHost` of
a call of `AddHost` still works on when the wait is over.

* `shut_down_of_no_late_client` — in every run without such a late client, all clients of the
  hosts that a call took are down once it has returned.
-/

namespace AgentHostProtocol.Go.Hosts

open Library ReconnectPolicy

/-- `client.Initialize` is under way. -/
def OpenHost.inHandshake : OpenHost → Bool
  | .handshake _ => true
  | _ => false

variable {F : Type}

/-! ### One host -/

namespace Host

/-- What holds of every host. -/
structure Tracked (h : Host F) : Prop where
  /-- A client that is up is the one installed or about to be. -/
  alive : ∀ {j : ℕ}, h.clients[j]? = some false → h.client = some j ∨ h.opening = .handshake j
  installed : ∀ {j : ℕ}, h.client = some j → j < h.clients.length
  created : ∀ {j : ℕ}, h.opening = .handshake j → j < h.clients.length
  /-- While the supervisor watches or waits no `openHost` runs. -/
  idle : h.supervise ≠ .notStarted → (∀ a, h.supervise ≠ .opening a) → h.opening = .idle
  watched : ∀ {j : ℕ}, h.supervise = .watching j ∨ h.supervise = .dropped j → h.client = some j
  /-- Before a new client is installed the old one is down. -/
  replaced : (h.opening = .connecting ∨ h.opening.inHandshake = true ∨ h.opening = .failed ∨
      ∃ a, h.supervise = .waiting a) →
    ∀ {j : ℕ}, h.client = some j → h.clients[j]? = some true

/-- No client of the host can be up any more. -/
structure Finished (h : Host F) : Prop where
  cancelled : h.cancelled = true
  down : ∀ down ∈ h.clients, down = true
  opening : h.opening.inHandshake = false
  supervise : ∀ a, h.supervise ≠ .waiting a ∧ h.supervise ≠ .opening a

theorem tracked_new (id : String) (owner : ℕ) (policy : ReconnectPolicy F) (cancelled : Bool) :
    Tracked (new id owner policy cancelled) where
  alive h := by simp [new] at h
  installed h := by cases h
  created h := by cases h
  idle h := absurd rfl h
  watched h := by simp [new] at h
  replaced _ := fun h => by cases h

theorem Tracked.cancel {h : Host F} (ht : Tracked h) : Tracked h.cancel :=
  ⟨ht.alive, ht.installed, ht.created, ht.idle, ht.watched, ht.replaced⟩

theorem up_of_set {clients : List Bool} {i j : ℕ} (h : (clients.set i true)[j]? = some false) :
    j ≠ i ∧ clients[j]? = some false := by
  rcases getElem?_set_eq_some h with ⟨-, hfalse⟩ | hother
  · cases hfalse
  · exact hother

theorem Tracked.shutdownClient {h : Host F} (ht : Tracked h) (i : ℕ) :
    Tracked (h.shutdownClient i) where
  alive hj := ht.alive (up_of_set hj).2
  installed hj := by
    change _ < (h.clients.set i true).length
    rw [List.length_set]
    exact ht.installed hj
  created hj := by
    change _ < (h.clients.set i true).length
    rw [List.length_set]
    exact ht.created hj
  idle := ht.idle
  watched := ht.watched
  replaced hopening _ hj := getElem?_set_same (ht.replaced hopening hj)

theorem Tracked.start {h : Host F} (ht : Tracked h) (hopened : h.opening = .opened) :
    Tracked h.start where
  alive hj := by
    rcases ht.alive hj with hclient | hopening
    · exact .inl hclient
    · rw [hopened] at hopening
      cases hopening
  installed := ht.installed
  created hj := by cases hj
  idle _ _ := rfl
  watched hsup := by simp [Host.start] at hsup
  replaced hopening := by simp [Host.start, OpenHost.inHandshake] at hopening

/-- What an `openHost` that is under way says about a supervisor that watches or waits. -/
theorem Tracked.not_idle {h : Host F} (ht : Tracked h) (hne : h.opening ≠ .idle) :
    (∀ j, h.supervise ≠ .watching j ∧ h.supervise ≠ .dropped j) ∧ ∀ a, h.supervise ≠ .waiting a := by
  refine ⟨fun j => ⟨fun hsup => ?_, fun hsup => ?_⟩, fun a hsup => ?_⟩
  · exact hne (ht.idle (by rw [hsup]; simp) (by rw [hsup]; simp))
  · exact hne (ht.idle (by rw [hsup]; simp) (by rw [hsup]; simp))
  · exact hne (ht.idle (by rw [hsup]; simp) (by rw [hsup]; simp))

/-- The supervisor goes on while no `openHost` runs. -/
theorem Tracked.supervises {h : Host F} (ht : Tracked h) (hidle : h.opening = .idle) {sup : Supervise}
    {retries : List Retry}
    (hwatched : ∀ {j : ℕ}, sup = .watching j ∨ sup = .dropped j → h.client = some j)
    (hwaiting : ∀ {a : UInt32} {j : ℕ}, sup = .waiting a → h.client = some j →
      h.clients[j]? = some true) :
    Tracked { h with supervise := sup, retries := retries } where
  alive := ht.alive
  installed := ht.installed
  created := ht.created
  idle _ _ := hidle
  watched := hwatched
  replaced hbusy := by
    intro j hj
    change h.opening = _ ∨ h.opening.inHandshake = true ∨ h.opening = _ ∨ _ at hbusy
    rw [hidle] at hbusy
    rcases hbusy with hbusy | hbusy | hbusy | ⟨a, hbusy⟩
    · cases hbusy
    · cases hbusy
    · cases hbusy
    · exact hwaiting hbusy hj

/-- `openHost` has returned. -/
theorem Tracked.resumes {h : Host F} (ht : Tracked h) (hnot : h.opening.inHandshake = false)
    {sup : Supervise} {retries : List Retry}
    (hwatched : ∀ {j : ℕ}, sup = .watching j ∨ sup = .dropped j → h.client = some j)
    (hwaiting : ∀ {a : UInt32} {j : ℕ}, sup = .waiting a → h.client = some j →
      h.clients[j]? = some true) :
    Tracked { h with opening := .idle, supervise := sup, retries := retries } where
  alive hj := by
    rcases ht.alive hj with hclient | hother
    · exact .inl hclient
    · rw [hother] at hnot
      cases hnot
  installed := ht.installed
  created hj := by cases hj
  idle _ _ := rfl
  watched := hwatched
  replaced hbusy := by
    intro j hj
    rcases hbusy with hbusy | hbusy | hbusy | ⟨a, hbusy⟩
    · cases hbusy
    · cases hbusy
    · cases hbusy
    · exact hwaiting hbusy hj

variable [Float64 F]

theorem tracked_step {h h' : Host F} {a : Act} (ht : Tracked h) (hs : h.step a = some h') :
    Tracked h' := by
  cases step_does hs with
  | connected hopening =>
    have hdown := @Tracked.replaced F h ht (.inl hopening)
    refine ⟨fun {j} hj => ?_, fun {j} hj => ?_, fun hj => ?_, fun h₁ h₂ => ?_, ht.watched,
      fun _ j hj => ?_⟩
    · rcases getElem?_concat_eq_some hj with ⟨rfl, -⟩ | hj
      · exact .inr rfl
      · rcases ht.alive hj with hclient | hother
        · exact .inl hclient
        · rw [hopening] at hother
          cases hother
    · have hlt := ht.installed hj
      change j < (h.clients ++ [false]).length
      rw [List.length_append, List.length_singleton]
      omega
    · cases hj
      simp
    · have hidle := ht.idle h₁ h₂
      rw [hopening] at hidle
      cases hidle
    · exact getElem?_concat_of_some (hdown hj) _
  | unconnected hopening =>
    have hdown := @Tracked.replaced F h ht (.inl hopening)
    refine ⟨fun hj => ?_, ht.installed, fun hj => (by cases hj), fun h₁ h₂ => ?_, ht.watched,
      fun _ => hdown⟩
    · rcases ht.alive hj with hclient | hother
      · exact .inl hclient
      · rw [hopening] at hother
        cases hother
    · have hidle := ht.idle h₁ h₂
      rw [hopening] at hidle
      cases hidle
  | @installed client hopening =>
    have hdown := @Tracked.replaced F h ht (.inr (.inl (by rw [hopening]; rfl)))
    obtain ⟨hwatch, hwait⟩ := ht.not_idle (by rw [hopening]; simp)
    refine ⟨fun {j} hj => ?_, fun hj => ?_, fun hj => (by cases hj), fun h₁ h₂ => ?_, fun hj => ?_,
      fun hbusy => ?_⟩
    · rcases ht.alive hj with hclient | hother
      · have hup := hdown hclient
        change h.clients[j]? = some false at hj
        rw [hj] at hup
        cases hup
      · rw [hopening, OpenHost.handshake.injEq] at hother
        rw [hother]
        exact .inl rfl
    · cases hj
      exact ht.created hopening
    · have hidle := ht.idle h₁ h₂
      rw [hopening] at hidle
      cases hidle
    · rcases hj with hj | hj
      · exact absurd hj (hwatch _).1
      · exact absurd hj (hwatch _).2
    · rcases hbusy with hbusy | hbusy | hbusy | ⟨a, hbusy⟩
      · cases hbusy
      · cases hbusy
      · cases hbusy
      · exact absurd hbusy (hwait a)
  | @rejected client hopening =>
    have hdown := @Tracked.replaced F h ht (.inr (.inl (by rw [hopening]; rfl)))
    refine ⟨fun hj => ?_, fun {j} hj => ?_, fun hj => (by cases hj), fun h₁ h₂ => ?_, ht.watched,
      fun _ j hj => ?_⟩
    · obtain ⟨hne, hj⟩ := up_of_set hj
      rcases ht.alive hj with hclient | hother
      · exact .inl hclient
      · rw [hopening, OpenHost.handshake.injEq] at hother
        exact absurd hother.symm hne
    · change j < (h.clients.set client true).length
      rw [List.length_set]
      exact ht.installed hj
    · have hidle := ht.idle h₁ h₂
      rw [hopening] at hidle
      cases hidle
    · exact getElem?_set_same (hdown hj)
  | drop hlt => exact ht.shutdownClient _
  | @watch client hsup hclient =>
    have hidle : h.opening = .idle := ht.idle (by rw [hsup]; simp) (by rw [hsup]; simp)
    refine ht.supervises hidle (fun hj => ?_) fun ha => by cases ha
    rcases hj with hj | hj
    · cases hj
      exact hclient
    · cases hj
  | unwatched hsup hnone =>
    have hidle : h.opening = .idle := ht.idle (by rw [hsup]; simp) (by rw [hsup]; simp)
    exact ht.supervises hidle (by simp) fun ha => by cases ha
  | @done client hsup hdown =>
    have hidle : h.opening = .idle := ht.idle (by rw [hsup]; simp) (by rw [hsup]; simp)
    refine ht.supervises hidle (fun hj => ?_) fun ha => by cases ha
    rcases hj with hj | hj
    · cases hj
    · cases hj
      exact ht.watched (.inl hsup)
  | ctxDone hsup hcancelled =>
    have hidle : h.opening = .idle := by
      rcases hsup with ⟨client, hsup⟩ | ⟨attempt, hsup⟩
      · exact ht.idle (by rw [hsup]; simp) (by rw [hsup]; simp)
      · exact ht.idle (by rw [hsup]; simp) (by rw [hsup]; simp)
    exact ht.supervises hidle (by simp) fun ha => by cases ha
  | cancelled hsup hcancelled =>
    have hidle : h.opening = .idle := ht.idle (by rw [hsup]; simp) (by rw [hsup]; simp)
    exact ht.supervises hidle (by simp) fun ha => by cases ha
  | disabled hsup hdisabled =>
    have hidle : h.opening = .idle := ht.idle (by rw [hsup]; simp) (by rw [hsup]; simp)
    exact ht.supervises hidle (by simp) fun ha => by cases ha
  | @outage client hsup hcancelled hdisabled =>
    have hidle : h.opening = .idle := ht.idle (by rw [hsup]; simp) (by rw [hsup]; simp)
    have hclient := ht.watched (.inr hsup)
    refine (ht.shutdownClient client).supervises hidle (by simp) fun {a j} _ hj => ?_
    change h.client = some j at hj
    rw [hclient, Option.some.injEq] at hj
    subst hj
    exact getElem?_set_of_some (List.getElem?_eq_getElem (ht.installed hclient)) true
  | attempt hsup =>
    have hdown := @Tracked.replaced F h ht (.inr (.inr (.inr ⟨_, hsup⟩)))
    have hidle : h.opening = .idle := ht.idle (by rw [hsup]; simp) (by rw [hsup]; simp)
    refine ⟨fun hj => ?_, ht.installed, fun hj => (by cases hj), fun _ h₂ => absurd rfl (h₂ _),
      fun hj => ?_, fun _ => hdown⟩
    · rcases ht.alive hj with hclient | hother
      · exact .inl hclient
      · rw [hidle] at hother
        cases hother
    · simp at hj
  | reconnected hsup hopening =>
    exact ht.resumes (by rw [hopening]; rfl) (by simp) fun ha => by cases ha
  | exhausted hsup hopening =>
    exact ht.resumes (by rw [hopening]; rfl) (by simp) fun ha => by cases ha
  | again hsup hopening hmore =>
    have hdown := @Tracked.replaced F h ht (.inr (.inr (.inl hopening)))
    exact ht.resumes (by rw [hopening]; rfl) (by simp) fun _ hj => hdown hj

/-- A step keeps the installed client, unless it installs one. -/
theorem step_client {h h' : Host F} {a : Act} (hs : h.step a = some h') (ha : a ≠ .initialized true) :
    h'.client = h.client := by
  cases step_does hs with
  | installed => exact absurd rfl ha
  | _ => rfl

/-- A client that is down stays so. -/
theorem step_down {h h' : Host F} {a : Act} (hs : h.step a = some h') {j : ℕ}
    (hj : h.clients[j]? = some true) : h'.clients[j]? = some true := by
  cases step_does hs with
  | connected => exact getElem?_concat_of_some hj _
  | rejected => exact getElem?_set_same hj
  | drop => exact getElem?_set_same hj
  | outage => exact getElem?_set_same hj
  | _ => exact hj

omit [Float64 F] in
theorem Finished.shutdownClient {h : Host F} (hf : Finished h) (i : ℕ) :
    Finished (h.shutdownClient i) where
  cancelled := hf.cancelled
  down _ hd := by
    rcases List.mem_or_eq_of_mem_set hd with hd | rfl
    · exact hf.down _ hd
    · rfl
  opening := hf.opening
  supervise := hf.supervise

theorem finished_step {h h' : Host F} {a : Act} (hf : Finished h) (hs : h.step a = some h')
    (ha : a ≠ .connect true) : Finished h' := by
  cases step_does hs with
  | connected => exact absurd rfl ha
  | unconnected => exact ⟨hf.cancelled, hf.down, rfl, hf.supervise⟩
  | installed hopening | rejected hopening =>
    have hnot := hf.opening
    rw [hopening] at hnot
    cases hnot
  | drop => exact hf.shutdownClient _
  | watch | unwatched | done | ctxDone | cancelled | disabled =>
    exact ⟨hf.cancelled, hf.down, hf.opening, by simp⟩
  | outage hsup hcancelled =>
    rw [hf.cancelled] at hcancelled
    cases hcancelled
  | attempt hsup => exact absurd hsup (hf.supervise _).1
  | reconnected hsup | exhausted hsup | again hsup => exact absurd hsup (hf.supervise _).2

end Host

/-! ### The calls that take hosts down -/

namespace State

/-- No `openHost` gets a client past a call that takes its host down: none is created once the
call is done with the host, none is installed once the call has read `hs.client`, and none is in
its handshake when the wait for the supervisor is over. -/
def NoLateClient (s : State F) : Act F → Prop
  | .host k (.connect true) => ∀ rem ∈ s.removers, k ∉ rem.done
  | .host k (.initialized true) => ∀ rem ∈ s.removers, rem.read k = false
  | .remove r => ∀ rem ∈ s.removers[r]?, rem.phase = .waiting →
      ∀ k ∈ rem.left.head?, ∀ h ∈ s.hosts[k]?, h.opening.inHandshake = false
  | _ => True

instance (s : State F) : ∀ a, Decidable (NoLateClient s a)
  | .host k (.connect true) => inferInstanceAs (Decidable (∀ rem ∈ s.removers, k ∉ rem.done))
  | .host k (.initialized true) =>
    inferInstanceAs (Decidable (∀ rem ∈ s.removers, rem.read k = false))
  | .remove r => inferInstanceAs (Decidable (∀ rem ∈ s.removers[r]?, rem.phase = .waiting →
      ∀ k ∈ rem.left.head?, ∀ h ∈ s.hosts[k]?, h.opening.inHandshake = false))
  | .host _ (.connect false) | .host _ (.initialized false) | .host _ (.drop _) | .host _ .load
  | .host _ .done | .host _ .ctxDone | .host _ .check | .host _ .timer | .host _ .resume
  | .addHost .. | .add .. | .removeHost _ | .shutdown | .take .. => inferInstanceAs (Decidable True)

/-- What a call that takes the host down has seen to before `phase`. -/
def Seen (h : Host F) : Removing → Prop
  | .entered | .next => True
  | .cancelled => h.cancelled = true
  | .loaded client => h.cancelled = true ∧ h.client = client
  | .waiting => h.cancelled = true ∧ ∀ {j : ℕ}, h.client = some j → h.clients[j]? = some true

structure Descending (s : State F) : Prop where
  hosts : ∀ {k : ℕ} {h : Host F}, s.hosts[k]? = some h → h.Tracked
  listed : ∀ {id : String} {k : ℕ}, s.registry.get? id = some k → k < s.hosts.length
  took : ∀ {rem : Remover}, rem ∈ s.removers → ∀ k ∈ rem.took, k < s.hosts.length
  done : ∀ {rem : Remover}, rem ∈ s.removers → ∀ {k : ℕ} {h : Host F}, k ∈ rem.done →
    s.hosts[k]? = some h → h.Finished
  seen : ∀ {rem : Remover}, rem ∈ s.removers → ∀ {k : ℕ} {h : Host F}, rem.left.head? = some k →
    s.hosts[k]? = some h → Seen h rem.phase

/-- A host changes. -/
theorem Descending.of_host {s : State F} (hi : Descending s) {k : ℕ} {h h' : Host F}
    (hh : s.hosts[k]? = some h) (ht : h'.Tracked)
    (hdone : h.Finished → (∃ rem ∈ s.removers, k ∈ rem.done) → h'.Finished)
    (hseen : ∀ rem ∈ s.removers, rem.left.head? = some k → Seen h rem.phase → Seen h' rem.phase) :
    Descending { s with hosts := s.hosts.set k h' } where
  hosts hj := by
    rcases getElem?_set_eq_some hj with ⟨-, rfl⟩ | ⟨-, hj⟩
    · exact ht
    · exact hi.hosts hj
  listed hk := by
    rw [List.length_set]
    exact hi.listed hk
  took hrem := by
    rw [List.length_set]
    exact hi.took hrem
  done {rem} hrem {j} _ hmem hj := by
    rcases getElem?_set_eq_some hj with ⟨rfl, rfl⟩ | ⟨-, hj⟩
    · exact hdone (hi.done hrem hmem hh) ⟨rem, hrem, hmem⟩
    · exact hi.done hrem hmem hj
  seen {rem} hrem {j} _ hhead hj := by
    rcases getElem?_set_eq_some hj with ⟨rfl, rfl⟩ | ⟨-, hj⟩
    · exact hseen rem hrem hhead (hi.seen hrem hhead hh)
    · exact hi.seen hrem hhead hj

/-- A call that takes hosts down begins or goes on. -/
theorem Descending.of_removers {s : State F} (hi : Descending s) {removers : List Remover}
    {rem : Remover} (hremovers : ∀ {rem'}, rem' ∈ removers → rem' ∈ s.removers ∨ rem' = rem)
    (htook : ∀ k ∈ rem.took, k < s.hosts.length)
    (hdone : ∀ {k : ℕ} {h : Host F}, k ∈ rem.done → s.hosts[k]? = some h → h.Finished)
    (hseen : ∀ {k : ℕ} {h : Host F}, rem.left.head? = some k → s.hosts[k]? = some h →
      Seen h rem.phase) : Descending { s with removers := removers } where
  hosts := hi.hosts
  listed := hi.listed
  took hmem := by
    rcases hremovers hmem with hmem | rfl
    · exact hi.took hmem
    · exact htook
  done hmem := by
    rcases hremovers hmem with hmem | rfl
    · exact hi.done hmem
    · exact hdone
  seen hmem := by
    rcases hremovers hmem with hmem | rfl
    · exact hi.seen hmem
    · exact hseen

theorem mem_concat {removers : List Remover} {rem rem' : Remover} (h : rem' ∈ removers ++ [rem]) :
    rem' ∈ removers ∨ rem' = rem := by
  simpa using h

/-- A call that goes on with the same hosts. -/
theorem Descending.goes_on {s : State F} (hi : Descending s) {r k : ℕ} {rem : Remover} {left : List ℕ}
    (hr : s.removers[r]? = some rem) (hleft : rem.left = k :: left) {phase : Removing}
    (hseen : ∀ {h : Host F}, s.hosts[k]? = some h → Seen h phase) :
    Descending { s with removers := s.removers.set r ⟨rem.done, k :: left, phase⟩ } := by
  have hmem := List.mem_of_getElem? hr
  refine hi.of_removers List.mem_or_eq_of_mem_set ?_ (hi.done hmem) ?_
  · intro j hj
    rw [Remover.took, ← hleft] at hj
    exact hi.took hmem j hj
  · intro j h hj hh
    cases hj
    exact hseen hh

theorem Seen.mono {h h' : Host F} {phase : Removing} (hs : Seen h phase)
    (hcancelled : h.cancelled = true → h'.cancelled = true)
    (hclient : (∃ client, phase = .loaded client) ∨ phase = .waiting → h'.client = h.client)
    (hdown : ∀ {j : ℕ}, h.clients[j]? = some true → h'.clients[j]? = some true) : Seen h' phase := by
  cases phase with
  | entered => trivial
  | next => trivial
  | cancelled => exact hcancelled hs
  | loaded client => exact ⟨hcancelled hs.1, (hclient (.inl ⟨client, rfl⟩)).trans hs.2⟩
  | waiting =>
    refine ⟨hcancelled hs.1, fun {j} hj => ?_⟩
    rw [hclient (.inr rfl)] at hj
    exact hdown (hs.2 hj)

theorem Descending.cancel {s : State F} (hi : Descending s) {k : ℕ} {h : Host F}
    (hh : s.hosts[k]? = some h) : Descending { s with hosts := s.hosts.set k h.cancel } :=
  hi.of_host hh (hi.hosts hh).cancel (fun hf _ => ⟨rfl, hf.down, hf.opening, hf.supervise⟩)
    fun _ _ _ hs => hs.mono (fun _ => rfl) (fun _ => rfl) fun hj => hj

theorem Descending.cancelAll {s : State F} (hi : Descending s) :
    Descending { s with hosts := s.hosts.map Host.cancel } where
  hosts hj := by
    obtain ⟨h, hh, rfl⟩ := Option.map_eq_some_iff.mp (List.getElem?_map.symm.trans hj)
    exact (hi.hosts hh).cancel
  listed hk := by
    rw [List.length_map]
    exact hi.listed hk
  took hrem := by
    rw [List.length_map]
    exact hi.took hrem
  done {_} hrem {_ _} hmem hj := by
    obtain ⟨h, hh, rfl⟩ := Option.map_eq_some_iff.mp (List.getElem?_map.symm.trans hj)
    have hf := hi.done hrem hmem hh
    exact ⟨rfl, hf.down, hf.opening, hf.supervise⟩
  seen {_} hrem {_ _} hhead hj := by
    obtain ⟨h, hh, rfl⟩ := Option.map_eq_some_iff.mp (List.getElem?_map.symm.trans hj)
    exact (hi.seen hrem hhead hh).mono (fun _ => rfl) (fun _ => rfl) fun hj => hj

theorem Descending.shutdownLoaded {s : State F} (hi : Descending s) {k : ℕ} {h : Host F}
    (hh : s.hosts[k]? = some h) (client : Option ℕ) :
    Descending { s with hosts := s.hosts.set k (State.shutdownLoaded h client) } := by
  cases client with
  | none => exact hi.of_host hh (hi.hosts hh) (fun hf _ => hf) fun _ _ _ hs => hs
  | some client =>
    exact hi.of_host hh ((hi.hosts hh).shutdownClient client) (fun hf _ => hf.shutdownClient client)
      fun _ _ _ hs => hs.mono (fun hc => hc) (fun _ => rfl) getElem?_set_same

/-- The client that was read is shut down, and it still is the installed one. -/
theorem seen_shutdownLoaded {h : Host F} {client : Option ℕ} (ht : h.Tracked)
    (hs : Seen h (.loaded client)) : Seen (State.shutdownLoaded h client) .waiting := by
  obtain ⟨hcancelled, rfl⟩ := hs
  cases hclient : h.client with
  | none =>
    refine ⟨hcancelled, fun {j} hj => ?_⟩
    change h.client = some j at hj
    rw [hclient] at hj
    cases hj
  | some client =>
    refine ⟨hcancelled, fun {j} hj => ?_⟩
    change h.client = some j at hj
    rw [hclient, Option.some.injEq] at hj
    subst hj
    exact getElem?_set_of_some (List.getElem?_eq_getElem (ht.installed hclient)) true

/-- The wait for the supervisor is over. -/
theorem finished_of_seen {h : Host F} (ht : h.Tracked) (hs : Seen h .waiting)
    (hrunning : h.running = false) (hopening : h.opening.inHandshake = false) : h.Finished where
  cancelled := hs.1
  down down hmem := by
    obtain ⟨j, hj⟩ := List.mem_iff_getElem?.mp hmem
    cases down with
    | true => rfl
    | false =>
      rcases ht.alive hj with hclient | hother
      · have hdown := hs.2 hclient
        rw [hj] at hdown
        cases hdown
      · rw [hother] at hopening
        cases hopening
  opening := hopening
  supervise a := by
    constructor
    · intro hsup
      simp [Host.running, hsup] at hrunning
    · intro hsup
      simp [Host.running, hsup] at hrunning

theorem descending_new : Descending (new : State F) where
  hosts h := by simp [new] at h
  listed h := by simp [new, Record.get?_empty] at h
  took h := by simp [new] at h
  done h := by simp [new] at h
  seen h := by simp [new] at h

variable [Float64 F]

theorem descending_insert {s : State F} (hi : Descending s) (c : ℕ) (call : AddCall F) :
    Descending (s.insert c call) where
  hosts hj := by
    rcases getElem?_concat_eq_some hj with ⟨-, rfl⟩ | hj
    · exact Host.tracked_new ..
    · exact hi.hosts hj
  listed {id k} hk := by
    change k < (s.hosts ++ [_]).length
    change (s.registry.set _ _).get? id = some k at hk
    rw [Record.get?_set] at hk
    rw [List.length_append, List.length_singleton]
    split at hk
    · cases hk
      omega
    · have hlt := hi.listed hk
      omega
  took hrem k hk := by
    change k < (s.hosts ++ [_]).length
    have hlt := hi.took hrem k hk
    rw [List.length_append]
    omega
  done {_} hrem {_ _} hmem hj := by
    rcases getElem?_concat_eq_some hj with ⟨rfl, -⟩ | hj
    · have hlt := hi.took hrem _ (List.mem_append_left _ hmem)
      omega
    · exact hi.done hrem hmem hj
  seen {_} hrem {_ _} hhead hj := by
    rcases getElem?_concat_eq_some hj with ⟨rfl, -⟩ | hj
    · have hlt := hi.took hrem _ (List.mem_append_right _ (List.mem_of_head? hhead))
      omega
    · exact hi.seen hrem hhead hj

theorem descending_host {s : State F} (hi : Descending s) {k : ℕ} {a : Host.Act} {h h' : Host F}
    (hg : NoLateClient s (.host k a)) (hh : s.hosts[k]? = some h) (hs : h.step a = some h') :
    Descending { s with hosts := s.hosts.set k h' } := by
  have hcancelled := (Host.step_progress hs).1.cancelled
  refine hi.of_host hh (Host.tracked_step (hi.hosts hh) hs) ?_ ?_
  · rintro hf ⟨rem, hrem, hmem⟩
    refine Host.finished_step hf hs ?_
    rintro rfl
    exact hg rem hrem hmem
  · intro rem hrem hhead hseen
    refine hseen.mono (fun h => hcancelled.trans h) (fun hread => ?_) (Host.step_down hs)
    refine Host.step_client hs ?_
    rintro rfl
    have hnot := hg rem hrem
    rcases hread with ⟨client, hphase⟩ | hphase <;> simp [Remover.read, hphase, hhead] at hnot

theorem descending_step {s s' : State F} {a : Act F} (hi : Descending s) (hg : NoLateClient s a)
    (hs : s.step a = some s') : Descending s' := by
  cases step_moves hs with
  | addHost | decide => exact ⟨hi.hosts, hi.listed, hi.took, hi.done, hi.seen⟩
  | insert => exact descending_insert hi _ _
  | start hc hpc hh hopened =>
    have hnext := hi.of_host hh ((hi.hosts hh).start hopened)
      (fun hf _ => ⟨hf.cancelled, hf.down, rfl, by simp [Host.start]⟩)
      fun _ _ _ hseen => hseen.mono (fun h => h) (fun _ => rfl) fun hj => hj
    exact ⟨hnext.hosts, hnext.listed, hnext.took, hnext.done, hnext.seen⟩
  | @clean c stored call k h =>
    refine ⟨hi.hosts, fun {id j} hk => ?_, hi.took, hi.done, hi.seen⟩
    change (s.registry.delete call.id).get? id = some j at hk
    rw [Record.get?_delete] at hk
    split at hk
    · cases hk
    · exact hi.listed hk
  | abandon hc hpc hh =>
    have hnext := hi.cancel hh
    exact ⟨hnext.hosts, hnext.listed, hnext.took, hnext.done, hnext.seen⟩
  | host hh hstep => exact descending_host hi hg hh hstep
  | unknown hnone =>
    exact hi.of_removers mem_concat (by simp [Remover.took]) (by simp) (by simp)
  | @removeHost id k hk =>
    have hlt := hi.listed hk
    have hnext : Descending { s with removers := s.removers ++ [⟨[], [k], .next⟩] } :=
      hi.of_removers mem_concat (by simpa [Remover.took]) (by simp) fun _ _ => trivial
    refine ⟨hnext.hosts, fun {i j} hj => ?_, hnext.took, hnext.done, hnext.seen⟩
    change (s.registry.delete id).get? i = some j at hj
    rw [Record.get?_delete] at hj
    split at hj
    · cases hj
    · exact hi.listed hj
  | shutdown =>
    have hnext : Descending { s with
        hosts := s.hosts.map Host.cancel, removers := s.removers ++ [⟨[], [], .entered⟩] } :=
      hi.cancelAll.of_removers mem_concat (by simp [Remover.took]) (by simp) (by simp)
    exact ⟨hnext.hosts, hnext.listed, hnext.took, hnext.done, hnext.seen⟩
  | @take r rem order hr hphase hperm =>
    have htook : ∀ k ∈ order, k < s.hosts.length := by
      intro k hk
      obtain ⟨e, he, rfl⟩ := List.mem_map.mp (hperm.mem_iff.mp hk)
      exact hi.listed (Record.mem_entries.mp he)
    have hnext : Descending { s with removers := s.removers.set r ⟨[], order, .next⟩ } :=
      hi.of_removers List.mem_or_eq_of_mem_set htook (by simp) fun _ _ => trivial
    refine ⟨hnext.hosts, fun hj => ?_, hnext.took, hnext.done, hnext.seen⟩
    cases hj
  | @cancel r k rem left h hr hleft hphase hh =>
    refine (hi.cancel hh).goes_on hr hleft fun {h'} hh' => ?_
    change (s.hosts.set k h.cancel)[k]? = some h' at hh'
    rw [getElem?_set_of_some hh] at hh'
    cases hh'
    exact rfl
  | @load r k rem left h hr hleft hphase hh =>
    have hseen : Seen h rem.phase := hi.seen (List.mem_of_getElem? hr) (by rw [hleft]; rfl) hh
    rw [hphase] at hseen
    refine hi.goes_on hr hleft fun {h'} hh' => ?_
    rw [hh] at hh'
    cases hh'
    exact ⟨hseen, rfl⟩
  | @close r k rem left h client hr hleft hphase hh =>
    have hseen : Seen h rem.phase := hi.seen (List.mem_of_getElem? hr) (by rw [hleft]; rfl) hh
    rw [hphase] at hseen
    refine (hi.shutdownLoaded hh client).goes_on hr hleft fun {h'} hh' => ?_
    change (s.hosts.set k (State.shutdownLoaded h client))[k]? = some h' at hh'
    rw [getElem?_set_of_some hh] at hh'
    cases hh'
    exact seen_shutdownLoaded (hi.hosts hh) hseen
  | @wait r k rem left h hr hleft hphase hh hrunning =>
    have hmem := List.mem_of_getElem? hr
    have hseen : Seen h rem.phase := hi.seen hmem (by rw [hleft]; rfl) hh
    rw [hphase] at hseen
    have hopening := hg rem hr hphase k (by rw [hleft]; rfl) h hh
    have hf := finished_of_seen (hi.hosts hh) hseen hrunning hopening
    refine hi.of_removers List.mem_or_eq_of_mem_set ?_ ?_ fun _ _ => trivial
    · intro j hj
      refine hi.took hmem j ?_
      rw [Remover.took, hleft]
      simpa [Remover.took] using hj
    · intro j h' hj hh'
      rcases List.mem_append.mp hj with hj | hj
      · exact hi.done hmem hj hh'
      · cases List.mem_singleton.mp hj
        rw [hh] at hh'
        cases hh'
        exact hf

/-- A host that reconnects when `RemoveHost` takes it: its second client is in the handshake. -/
def reconnecting : List (Act ℤ) :=
  [.addHost "h" true defaultReconnectPolicy, .add 0 true, .add 0 true, .add 0 true,
    .host 0 (.connect true), .host 0 (.initialized true), .add 0 true,
    .host 0 .load, .host 0 (.drop 0), .host 0 .done, .host 0 .check, .host 0 .timer,
    .host 0 (.connect true), .removeHost "h", .remove 0, .remove 0]

end State

end AgentHostProtocol.Go.Hosts
