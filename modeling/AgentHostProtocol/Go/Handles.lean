import AgentHostProtocol.Go.Answered

/-!
# The handles of the Go client

A handle that is not closed is in one of the registries, or someone who took it out has yet to
close it. After the teardown has swapped the registries out, those in the fresh ones are of a
`Subscribe` that fails.
-/

namespace AgentHostProtocol.Go.Client

open Library

/-- The registries are swapped out. -/
def Teardown.swapped : Teardown → Bool
  | .closing _ | .finished => true
  | _ => false

namespace State

def closedAt (s : State) (k : ℕ) : Bool := (s.handles[k]?).any fun h => h.closed

/-- The handle is in one of the registries. -/
def Registered (s : State) (k : ℕ) : Prop :=
  (∃ uri list, s.subscriptions.get? uri = some list ∧ k ∈ list) ∨ k ∈ s.eventListeners

/-- The application does not get the handle. -/
def Withheld (s : State) (k : ℕ) : Prop :=
  (∀ h, s.handles[k]? = some h → h.returned = false) ∧
    ∀ call ∈ s.calls, call.sub = some k → call.pc.hopeless = true

/-- The invariant of the handles. -/
structure Bound (s : State) : Prop where
  same : ∀ {k : ℕ} {h : Handle}, s.handles[k]? = some h → h.channelClosed = h.closed
  sub : ∀ call ∈ s.calls, ∀ {k : ℕ}, call.sub = some k → k < s.handles.length
  done : s.done = true ↔ s.teardown ≠ .notCalled
  /-- A handle that is not closed is to be. -/
  kept : ∀ {k : ℕ} {h : Handle}, s.handles[k]? = some h → h.closed = false →
    s.Registered k ∨ (∃ left ∈ s.unsubscribes, k ∈ left) ∨ ∃ left, s.teardown = .closing left ∧ k ∈ left
  swapped : s.teardown.swapped = true → ∀ {k : ℕ}, s.Registered k → s.Withheld k
  finished : s.teardown = .finished → ∀ left ∈ s.unsubscribes, ∀ k ∈ left,
    s.closedAt k = true ∨ s.Withheld k

theorem bound_connected : Bound connected where
  same h := by simp [connected] at h
  sub call h := by cases h
  done := by decide
  kept h := by simp [connected] at h
  swapped h := by cases h
  finished h := by cases h

/-- A step that leaves the handles alone. -/
theorem Bound.of_eq {s s' : State} (hb : Bound s) (hcalls : s'.calls = s.calls)
    (hhandles : s'.handles = s.handles) (hsubs : s'.subscriptions = s.subscriptions)
    (hlisteners : s'.eventListeners = s.eventListeners) (hunsubs : s'.unsubscribes = s.unsubscribes)
    (hdone : s'.done = s.done) (hteardown : s'.teardown = s.teardown) : Bound s' := by
  obtain ⟨calls, nextID, pending, outbound, reader, writer, done, teardown, handles, subscriptions,
    eventListeners, unsubscribes, returns, panicked⟩ := s'
  cases hcalls
  cases hhandles
  cases hsubs
  cases hlisteners
  cases hunsubs
  cases hdone
  cases hteardown
  exact ⟨hb.same, hb.sub, hb.done, hb.kept, hb.swapped, hb.finished⟩

/-! ### Calls -/

theorem Withheld.set {s : State} {k i : ℕ} {call call' : Call} (h : s.Withheld k)
    (hc : s.calls[i]? = some call) (hdone : s.done = true) (hadv : call.Advances s.done call') :
    Withheld { s with calls := s.calls.set i call' } k := by
  refine ⟨h.1, fun other hmem hsub => ?_⟩
  rcases List.mem_or_eq_of_mem_set hmem with hmem | rfl
  · exact h.2 other hmem hsub
  · rw [hadv.sub] at hsub
    exact hadv.hopeless hdone (h.2 call (List.mem_of_getElem? hc) hsub)

theorem Bound.set {s : State} (hb : Bound s) {i : ℕ} {call call' : Call}
    (hc : s.calls[i]? = some call) (hadv : call.Advances s.done call') :
    Bound { s with calls := s.calls.set i call' } where
  same := hb.same
  sub other hmem k hsub := by
    rcases List.mem_or_eq_of_mem_set hmem with hmem | rfl
    · exact hb.sub other hmem hsub
    · rw [hadv.sub] at hsub
      exact hb.sub call (List.mem_of_getElem? hc) hsub
  done := hb.done
  kept := hb.kept
  swapped hswapped _ hk := by
    have hdone : s.done = true := hb.done.mpr fun h => by
      change s.teardown.swapped = true at hswapped
      rw [h] at hswapped
      cases hswapped
    exact (hb.swapped hswapped hk).set hc hdone hadv
  finished hfinished left hleft k hk := by
    have hdone : s.done = true := hb.done.mpr fun h => by
      change s.teardown = _ at hfinished
      rw [h] at hfinished
      cases hfinished
    exact (hb.finished hfinished left hleft k hk).imp_right fun h => h.set hc hdone hadv

theorem Bound.newCall {s : State} (hb : Bound s) (request : Bool) {sub : Option ℕ} {pc : Calling}
    (hsub : ∀ k, sub = some k → k < s.handles.length ∧ pc.hopeless = true) :
    Bound (s.newCall request sub pc) := by
  have hkeeps : ∀ {k}, s.Withheld k → (s.newCall request sub pc).Withheld k := by
    refine fun h => ⟨h.1, fun other hmem hother => ?_⟩
    rcases List.mem_append.mp hmem with hmem | hmem
    · exact h.2 other hmem hother
    · cases List.mem_singleton.mp hmem
      exact (hsub _ hother).2
  refine ⟨hb.same, fun other hmem k hother => ?_, hb.done, hb.kept,
    fun h _ hk => hkeeps (hb.swapped h hk),
    fun h left hleft k hk => (hb.finished h left hleft k hk).imp_right hkeeps⟩
  rcases List.mem_append.mp hmem with hmem | hmem
  · exact hb.sub other hmem hother
  · cases List.mem_singleton.mp hmem
    exact (hsub _ hother).1

/-! ### Handles -/

/-- What happens to one handle leaves it closed if it was, and returns none that is withheld. -/
theorem Bound.mapHandles {s : State} (hb : Bound s) {handles : List Handle} (f : ℕ → Handle → Handle)
    (hf : ∀ j, handles[j]? = (s.handles[j]?).map (f j))
    (hsame : ∀ j h, h.channelClosed = h.closed → (f j h).channelClosed = (f j h).closed)
    (hclosed : ∀ j h, h.closed = true → (f j h).closed = true)
    (hreturned : ∀ j h, s.Withheld j → (f j h).returned = h.returned) :
    Bound { s with handles := handles } := by
  have hlength : handles.length = s.handles.length := by
    have hbound : ∀ j, handles.length ≤ j ↔ s.handles.length ≤ j := fun j => by
      rw [← List.getElem?_eq_none_iff, hf j, Option.map_eq_none_iff, List.getElem?_eq_none_iff]
    have h₁ := hbound handles.length
    have h₂ := hbound s.handles.length
    omega
  have hkeeps : ∀ {k}, s.Withheld k → Withheld { s with handles := handles } k := by
    refine fun {k} h => ⟨fun h' hk => ?_, h.2⟩
    change handles[k]? = _ at hk
    rw [hf k] at hk
    obtain ⟨h₀, hk₀, rfl⟩ := Option.map_eq_some_iff.mp hk
    rw [hreturned k h₀ h]
    exact h.1 h₀ hk₀
  constructor
  · intro k h hk
    change handles[k]? = _ at hk
    rw [hf k] at hk
    obtain ⟨h₀, hk₀, rfl⟩ := Option.map_eq_some_iff.mp hk
    exact hsame k h₀ (hb.same hk₀)
  · intro call hmem k hsub
    change k < handles.length
    rw [hlength]
    exact hb.sub call hmem hsub
  · exact hb.done
  · intro k h hk hopen
    change handles[k]? = _ at hk
    rw [hf k] at hk
    obtain ⟨h₀, hk₀, rfl⟩ := Option.map_eq_some_iff.mp hk
    refine hb.kept hk₀ ?_
    cases hc : h₀.closed with
    | false => rfl
    | true =>
      rw [hclosed k h₀ hc] at hopen
      cases hopen
  · exact fun h _ hk => hkeeps (hb.swapped h hk)
  · intro h left hleft k hk
    refine (hb.finished h left hleft k hk).imp (fun hat => ?_) hkeeps
    unfold closedAt at hat ⊢
    change (handles[k]?).any _ = true
    rw [hf k]
    cases hk : s.handles[k]? with
    | none =>
      rw [hk] at hat
      cases hat
    | some h₀ =>
      rw [hk] at hat
      exact hclosed k h₀ hat

/-- `Close` of a handle closes it at most once. -/
theorem Bound.closeHandle_eq {s : State} (hb : Bound s) (k : ℕ) : ∃ handles,
    s.closeHandle k = { s with handles := handles } ∧ ∀ j, handles[j]? = (s.handles[j]?).map fun h =>
      if j = k then { h with closed := true, channelClosed := true } else h := by
  unfold closeHandle
  cases hk : s.handles[k]? with
  | none =>
    refine ⟨s.handles, rfl, fun j => ?_⟩
    by_cases hj : j = k
    · rw [hj, hk]
      rfl
    · simp [hj]
  | some h =>
    have hsame := hb.same hk
    cases hc : h.closed with
    | true =>
      rw [hc] at hsame
      refine ⟨s.handles, by simp [hc], fun j => ?_⟩
      by_cases hj : j = k
      · obtain ⟨closed, channelClosed, returned⟩ := h
        cases hc
        cases hsame
        rw [hj, hk]
        simp
      · simp [hj]
    | false =>
      rw [hc] at hsame
      refine ⟨s.handles.set k { h with closed := true, channelClosed := true }, ?_, fun j => ?_⟩
      · simp [hc, hsame]
      · by_cases hj : j = k
        · rw [hj, getElem?_set_of_some hk, hk]
          simp
        · rw [List.getElem?_set_ne (Ne.symm hj)]
          simp [hj]

theorem Bound.closeHandle {s : State} (hb : Bound s) (k : ℕ) : Bound (s.closeHandle k) := by
  obtain ⟨handles, heq, hf⟩ := hb.closeHandle_eq k
  rw [heq]
  refine hb.mapHandles (fun j h => if j = k then { h with closed := true, channelClosed := true } else h)
    hf (fun j h hsame => ?_) (fun j h hclosed => ?_) fun j h _ => ?_
  · by_cases hj : j = k <;> simp [hj, hsame]
  · by_cases hj : j = k <;> simp [hj, hclosed]
  · by_cases hj : j = k <;> simp [hj]

theorem Bound.closed_closeHandle {s : State} (hb : Bound s) {k : ℕ} {h : Handle}
    (hk : (s.closeHandle k).handles[k]? = some h) : h.closed = true := by
  obtain ⟨handles, heq, hf⟩ := hb.closeHandle_eq k
  rw [heq] at hk
  change handles[k]? = _ at hk
  rw [hf k] at hk
  obtain ⟨h₀, -, rfl⟩ := Option.map_eq_some_iff.mp hk
  simp

theorem Bound.trySend_eq {s : State} (hb : Bound s) (k : ℕ) : s.trySend k = s := by
  unfold trySend
  cases hk : s.handles[k]? with
  | none => rfl
  | some h =>
    have hsame := hb.same hk
    cases hc : h.closed with
    | true => simp [hc]
    | false =>
      rw [hc] at hsame
      simp [hc, hsame]

theorem returnHandle_eq (s : State) (k : ℕ) : ∃ handles,
    s.returnHandle k = { s with handles := handles } ∧ ∀ j, handles[j]? = (s.handles[j]?).map fun h =>
      if j = k then { h with returned := true } else h := by
  unfold returnHandle
  cases hk : s.handles[k]? with
  | none =>
    refine ⟨s.handles, rfl, fun j => ?_⟩
    by_cases hj : j = k
    · rw [hj, hk]
      rfl
    · simp [hj]
  | some h =>
    refine ⟨s.handles.set k { h with returned := true }, rfl, fun j => ?_⟩
    by_cases hj : j = k
    · rw [hj, getElem?_set_of_some hk, hk]
      simp
    · rw [List.getElem?_set_ne (Ne.symm hj)]
      simp [hj]

theorem Bound.returnHandle {s : State} (hb : Bound s) {k : ℕ} {call : Call} (hmem : call ∈ s.calls)
    (hsub : call.sub = some k) (hpc : call.pc.hopeless = false) : Bound (s.returnHandle k) := by
  obtain ⟨handles, heq, hf⟩ := returnHandle_eq s k
  rw [heq]
  refine hb.mapHandles (fun j h => if j = k then { h with returned := true } else h) hf
    (fun j h hsame => ?_) (fun j h hclosed => ?_) fun j h hwithheld => ?_
  · by_cases hj : j = k <;> simp [hj, hsame]
  · by_cases hj : j = k <;> simp [hj, hclosed]
  · have hj : j ≠ k := by
      rintro rfl
      rw [hwithheld.2 call hmem hsub] at hpc
      cases hpc
    simp [hj]

/-- A new handle in one of the registries. -/
theorem Bound.register {s : State} (hb : Bound s) {subscriptions : Record (List ℕ)}
    {eventListeners : List ℕ} {returned : Bool}
    (hreg : ∀ k, Registered { s with
      subscriptions := subscriptions, eventListeners := eventListeners } k ↔
        s.Registered k ∨ k = s.handles.length)
    (hret : s.teardown.swapped = true → returned = false) :
    Bound { s with
      handles := s.handles ++ [⟨false, false, returned⟩]
      subscriptions := subscriptions
      eventListeners := eventListeners } := by
  have hkeeps : s.teardown.swapped = true → ∀ {k}, s.Withheld k → Withheld { s with
      handles := s.handles ++ [⟨false, false, returned⟩]
      subscriptions := subscriptions
      eventListeners := eventListeners } k := by
    refine fun hswapped {k} h => ⟨fun h' hk => ?_, h.2⟩
    rcases getElem?_concat_eq_some hk with ⟨-, rfl⟩ | hk
    · exact hret hswapped
    · exact h.1 h' hk
  constructor
  · intro k h hk
    rcases getElem?_concat_eq_some hk with ⟨-, rfl⟩ | hk
    · rfl
    · exact hb.same hk
  · intro call hmem k hsub
    have hlt := hb.sub call hmem hsub
    change k < (s.handles ++ _).length
    rw [List.length_append]
    omega
  · exact hb.done
  · intro k h hk hopen
    rcases getElem?_concat_eq_some hk with ⟨rfl, -⟩ | hk
    · exact .inl ((hreg _).mpr (.inr rfl))
    · exact (hb.kept hk hopen).imp_left fun h => (hreg k).mpr (.inl h)
  · intro hswapped k hk
    rcases (hreg k).mp hk with hk | rfl
    · exact hkeeps hswapped (hb.swapped hswapped hk)
    · refine ⟨fun h hk => ?_, fun call hmem hsub => ?_⟩
      · rcases getElem?_concat_eq_some hk with ⟨-, rfl⟩ | hk
        · exact hret hswapped
        · rw [List.getElem?_eq_none (Nat.le_refl _)] at hk
          cases hk
      · have hlt := hb.sub call hmem hsub
        omega
  · intro hfinished left hleft k hk
    change s.teardown = _ at hfinished
    refine (hb.finished hfinished left hleft k hk).imp (fun hat => ?_)
      (hkeeps (by rw [hfinished]; rfl))
    unfold closedAt at hat ⊢
    cases hk : s.handles[k]? with
    | none =>
      rw [hk] at hat
      cases hat
    | some h =>
      rw [hk] at hat
      change ((s.handles ++ _)[k]?).any _ = true
      rw [getElem?_concat_of_some hk]
      exact hat

theorem Bound.attach {s : State} (hb : Bound s) (uri : String) {returned : Bool}
    (hret : s.teardown.swapped = true → returned = false) : Bound (s.attach uri returned) := by
  refine hb.register (fun k => ?_) hret
  constructor
  · rintro (⟨uri', list, hget, hk⟩ | hk)
    · change (s.subscriptions.set uri _).get? uri' = _ at hget
      rw [Record.get?_set] at hget
      split at hget
      · cases hget
        rcases List.mem_append.mp hk with hk | hk
        · cases hlist : s.subscriptions.get? uri with
          | none =>
            rw [hlist] at hk
            cases hk
          | some list =>
            rw [hlist] at hk
            exact .inl (.inl ⟨uri, list, hlist, hk⟩)
        · exact .inr (List.mem_singleton.mp hk)
      · exact .inl (.inl ⟨uri', list, hget, hk⟩)
    · exact .inl (.inr hk)
  · have hnew : (s.subscriptions.set uri
        ((s.subscriptions.get? uri).getD [] ++ [s.handles.length])).get? uri =
        some ((s.subscriptions.get? uri).getD [] ++ [s.handles.length]) := by
      rw [Record.get?_set, if_pos rfl]
    rintro ((⟨uri', list, hget, hk⟩ | hk) | rfl)
    · by_cases huri : uri' = uri
      · subst huri
        refine .inl ⟨uri', _, hnew, List.mem_append_left _ ?_⟩
        rw [hget]
        exact hk
      · refine .inl ⟨uri', list, ?_, hk⟩
        rw [Record.get?_set, if_neg huri]
        exact hget
    · exact .inr hk
    · exact .inl ⟨uri, _, hnew, List.mem_append_right _ List.mem_cons_self⟩

theorem Bound.events {s : State} (hb : Bound s) (hswapped : s.teardown.swapped = false) :
    Bound { s with
      handles := s.handles ++ [⟨false, false, true⟩]
      eventListeners := s.eventListeners ++ [s.handles.length] } := by
  refine hb.register (fun k => ?_) fun h => by rw [hswapped] at h; cases h
  unfold Registered
  rw [List.mem_append, List.mem_singleton, or_assoc]

theorem Bound.unsubscribe {s : State} (hb : Bound s) (uri : String) :
    Bound { s with
      subscriptions := s.subscriptions.delete uri
      unsubscribes := s.unsubscribes ++ [(s.subscriptions.get? uri).getD []] } := by
  have hold : ∀ {k}, Registered { s with
      subscriptions := s.subscriptions.delete uri
      unsubscribes := s.unsubscribes ++ [(s.subscriptions.get? uri).getD []] } k →
      s.Registered k := by
    rintro k (⟨uri', list, hget, hk⟩ | hk)
    · change (s.subscriptions.delete uri).get? uri' = _ at hget
      rw [Record.get?_delete] at hget
      split at hget
      · cases hget
      · exact .inl ⟨uri', list, hget, hk⟩
    · exact .inr hk
  refine ⟨hb.same, hb.sub, hb.done, fun {k h} hk hopen => ?_, fun h {_} hk => hb.swapped h (hold hk),
    fun hfinished left hleft k hk => ?_⟩
  · rcases hb.kept hk hopen with (⟨uri', list, hget, hmem⟩ | hmem) | ⟨left, hleft, hmem⟩ | hclosing
    · by_cases huri : uri' = uri
      · subst huri
        refine .inr (.inl ⟨_, List.mem_append_right _ List.mem_cons_self, ?_⟩)
        rw [hget]
        exact hmem
      · refine .inl (.inl ⟨uri', list, ?_, hmem⟩)
        rw [Record.get?_delete, if_neg huri]
        exact hget
    · exact .inl (.inr hmem)
    · exact .inr (.inl ⟨left, List.mem_append_left _ hleft, hmem⟩)
    · exact .inr (.inr hclosing)
  · change s.teardown = _ at hfinished
    rcases List.mem_append.mp hleft with hleft | hleft
    · exact hb.finished hfinished left hleft k hk
    · obtain rfl := List.mem_singleton.mp hleft
      cases hget : s.subscriptions.get? uri with
      | none =>
        rw [hget] at hk
        cases hk
      | some list =>
        rw [hget] at hk
        exact .inr (hb.swapped (by rw [hfinished]; rfl) (.inl ⟨uri, list, hget, hk⟩))

theorem Bound.unsubscribeNext {s : State} (hb : Bound s) {u k : ℕ} {left : List ℕ}
    (hu : s.unsubscribes[u]? = some (k :: left)) :
    Bound { s.closeHandle k with unsubscribes := s.unsubscribes.set u left } := by
  have hclose := hb.closeHandle k
  have hclosed := fun h => hb.closed_closeHandle (k := k) (h := h)
  obtain ⟨handles, heq, -⟩ := hb.closeHandle_eq k
  rw [heq] at hclose hclosed ⊢
  refine ⟨hclose.same, hclose.sub, hclose.done, fun {j h} hj hopen => ?_, hclose.swapped,
    fun hfinished left' hleft j hj => ?_⟩
  · rcases hclose.kept hj hopen with hreg | ⟨left', hleft, hmem⟩ | hclosing
    · exact .inl hreg
    · obtain ⟨v, hv⟩ := List.mem_iff_getElem?.mp hleft
      change s.unsubscribes[v]? = _ at hv
      by_cases huv : u = v
      · subst huv
        rw [hu] at hv
        cases hv
        rcases List.mem_cons.mp hmem with rfl | hmem
        · rw [hclosed h hj] at hopen
          cases hopen
        · exact .inr (.inl ⟨left, List.mem_of_getElem? (getElem?_set_of_some hu left), hmem⟩)
      · refine .inr (.inl ⟨left', List.mem_of_getElem? (i := v) ?_, hmem⟩)
        rw [List.getElem?_set_ne huv]
        exact hv
    · exact .inr (.inr hclosing)
  · rcases List.mem_or_eq_of_mem_set hleft with hleft | rfl
    · exact hclose.finished hfinished left' hleft j hj
    · exact hclose.finished hfinished _ (List.mem_of_getElem? hu) j (List.mem_cons_of_mem _ hj)

/-! ### The teardown -/

/-- The calls are where they were. -/
theorem Bound.mapCalls {s : State} (hb : Bound s) {calls : List Call}
    (h : ∀ call' ∈ calls, ∃ call ∈ s.calls, call.sub = call'.sub ∧ call.pc = call'.pc) :
    Bound { s with calls := calls } := by
  have hkeeps : ∀ {k}, s.Withheld k → Withheld { s with calls := calls } k := by
    refine fun hk => ⟨hk.1, fun call' hmem hsub => ?_⟩
    obtain ⟨call, hcall, hsub', hpc⟩ := h call' hmem
    rw [← hpc]
    exact hk.2 call hcall (hsub'.trans hsub)
  refine ⟨hb.same, fun call' hmem k hsub => ?_, hb.done, hb.kept, fun h _ hk => hkeeps (hb.swapped h hk),
    fun h left hleft k hk => (hb.finished h left hleft k hk).imp_right hkeeps⟩
  obtain ⟨call, hcall, hsub', -⟩ := h call' hmem
  exact hb.sub call hcall (hsub'.trans hsub)

theorem Bound.mapCalls_set {s : State} (hb : Bound s) {i : ℕ} {call : Call}
    (hc : s.calls[i]? = some call) (resultCh : ResultChan) :
    Bound { s with calls := s.calls.set i { call with resultCh := resultCh } } := by
  refine hb.mapCalls fun call' hmem => ?_
  rcases List.mem_or_eq_of_mem_set hmem with hmem | rfl
  · exact ⟨call', hmem, rfl, rfl⟩
  · exact ⟨call, List.mem_of_getElem? hc, rfl, rfl⟩

/-- The teardown goes on before the swap. -/
theorem Bound.proceeds {s : State} (hb : Bound s) {teardown : Teardown}
    (hold : s.teardown.swapped = false) (hstarted : s.teardown ≠ .notCalled)
    (hnew : teardown.swapped = false) (hcalled : teardown ≠ .notCalled) :
    Bound { s with teardown := teardown } where
  same := hb.same
  sub := hb.sub
  done := ⟨fun _ => hcalled, fun _ => hb.done.mpr hstarted⟩
  kept hk hopen := by
    rcases hb.kept hk hopen with hreg | hleft | ⟨left, hclosing, -⟩
    · exact .inl hreg
    · exact .inr (.inl hleft)
    · rw [hclosing] at hold
      cases hold
  swapped h := by
    change teardown.swapped = true at h
    rw [hnew] at h
    cases h
  finished h := by
    change teardown = _ at h
    rw [h] at hnew
    cases hnew

theorem Bound.swapRegistries {s : State} (hb : Bound s) (hfailed : s.teardown = .failed) :
    Bound s.swapRegistries where
  same := hb.same
  sub := hb.sub
  done := ⟨fun _ h => (by cases h), fun _ => hb.done.mpr (by rw [hfailed]; simp)⟩
  kept hk hopen := by
    rcases hb.kept hk hopen with hreg | hleft | ⟨left, hclosing, -⟩
    · refine .inr (.inr ⟨_, rfl, List.mem_append.mpr ?_⟩)
      rcases hreg with ⟨uri, list, hget, hk⟩ | hk
      · refine .inl (List.mem_flatten.mpr ⟨list, ?_, hk⟩)
        exact List.mem_map.mpr ⟨_, Record.mem_entries.mpr hget, rfl⟩
      · exact .inr hk
    · exact .inr (.inl hleft)
    · rw [hfailed] at hclosing
      cases hclosing
  swapped _ {_} hk := by
    rcases hk with ⟨uri, list, hget, -⟩ | hk
    · cases hget
    · cases hk
  finished h := by cases h

theorem Bound.closesNext {s : State} (hb : Bound s) {k : ℕ} {left : List ℕ}
    (hclosing : s.teardown = .closing (k :: left)) :
    Bound { s.closeHandle k with teardown := .closing left } := by
  have hclose := hb.closeHandle k
  have hclosed := fun h => hb.closed_closeHandle (k := k) (h := h)
  obtain ⟨handles, heq, -⟩ := hb.closeHandle_eq k
  rw [heq] at hclose hclosed ⊢
  refine ⟨hclose.same, hclose.sub, ⟨fun _ h => (by cases h), fun _ => hb.done.mpr ?_⟩,
    fun {j h} hj hopen => ?_, fun _ {_} hreg => hclose.swapped ?_ hreg, fun h => (by cases h)⟩
  · rw [hclosing]
    simp
  · rcases hclose.kept hj hopen with hreg | hleft | ⟨left', hclosing', hmem⟩
    · exact .inl hreg
    · exact .inr (.inl hleft)
    · change s.teardown = _ at hclosing'
      rw [hclosing] at hclosing'
      cases hclosing'
      rcases List.mem_cons.mp hmem with rfl | hmem
      · rw [hclosed h hj] at hopen
        cases hopen
      · exact .inr (.inr ⟨left, rfl, hmem⟩)
  · change s.teardown.swapped = true
    rw [hclosing]
    rfl

theorem Bound.finishes {s : State} (hb : Bound s) (hclosing : s.teardown = .closing [])
    (hleft : ∀ left ∈ s.unsubscribes, ∀ k ∈ left, s.closedAt k = true) :
    Bound { s with teardown := .finished } where
  same := hb.same
  sub := hb.sub
  done := ⟨fun _ h => (by cases h), fun _ => hb.done.mpr (by rw [hclosing]; simp)⟩
  kept hk hopen := by
    rcases hb.kept hk hopen with hreg | hleft | ⟨left, hclosing', hmem⟩
    · exact .inl hreg
    · exact .inr (.inl hleft)
    · rw [hclosing] at hclosing'
      cases hclosing'
      cases hmem
  swapped _ {_} hk := hb.swapped (by rw [hclosing]; rfl) hk
  finished _ left hmem k hk := .inl (hleft left hmem k hk)

end State

end AgentHostProtocol.Go.Client
