import AgentHostProtocol.Swift.Client
import AgentHostProtocol.Library.Ledger
import AgentHostProtocol.Library.Runs
import Mathlib.Order.Nat

/-!
# The teardown of the Swift client

Whoever removes an entry of `pending` resumes its continuation, so the ids are a `Ledger`
(`Resumed`), whatever the calls do. The rest depends on what comes in while a teardown is in
`transport.close()`: `shutdown` returns at once to a second caller, a stream that is made after it
is finished by no one, and a `connect` after a drop can be undone by a `handleTransportFailure` that
is still on its way.

* `requests_resumed_and_streams_finished` — a continuation is resumed at most once, by its own
  response if by one; and in every run without such a call nothing is pending while the client is
  disconnected, and once a `shutdown` has returned nothing is pending and all streams are finished.
-/

namespace AgentHostProtocol.Swift.Client

open Library

/-- A response has the id of the request. -/
def Resumption.Of (id : ℕ) : Resumption → Prop
  | .result id' | .rpc id' => id' = id
  | _ => True

namespace State

/-- The continuations are pending or were resumed, once. -/
structure Resumed (s : State) : Prop where
  ledger : Ledger s.opened s.pending (s.resumed.map Prod.fst)
  fresh : ∀ id ∈ s.opened, id < s.nextRequestId
  own : ∀ {id : ℕ} {r : Resumption}, (id, r) ∈ s.resumed → r.Of id

theorem resumed_created : Resumed created where
  ledger := .empty
  fresh _ h := by cases h
  own h := by cases h

/-- A step that makes no request and resumes none. -/
theorem Resumed.of_eq {s s' : State} (hs : Resumed s) (hnext : s'.nextRequestId = s.nextRequestId)
    (hopened : s'.opened = s.opened) (hpending : s'.pending = s.pending)
    (hresumed : s'.resumed = s.resumed) : Resumed s' := by
  refine ⟨?_, ?_, ?_⟩
  · rw [hopened, hpending, hresumed]
    exact hs.ledger
  · rw [hopened, hnext]
    exact hs.fresh
  · rw [hresumed]
    exact hs.own

theorem Resumed.resume {s : State} (hs : Resumed s) {id : ℕ} {r : Resumption} (hr : r.Of id) :
    Resumed (s.resume id r) := by
  unfold State.resume
  split
  · next hmem =>
    obtain ⟨before, after, -, hpending, herase⟩ := List.exists_erase_eq hmem
    have hledger := hs.ledger
    rw [hpending] at hledger
    refine ⟨?_, hs.fresh, fun {id' r'} h => ?_⟩
    · change Ledger s.opened (s.pending.erase id) (id :: s.resumed.map Prod.fst)
      rw [herase]
      exact hledger.settles
    · rcases List.mem_cons.mp h with h | h
      · cases h
        exact hr
      · exact hs.own h
  · exact hs

theorem Resumed.failAllPending {s : State} (hs : Resumed s) (error : AHPClientError) :
    Resumed (s.failAllPending error) := by
  refine ⟨?_, hs.fresh, fun {id r} h => ?_⟩
  · have hkeys : ((s.pending.reverse.map fun id => (id, Resumption.failed error)) ++ s.resumed).map
        Prod.fst = s.pending.reverse ++ s.resumed.map Prod.fst := by
      rw [List.map_append, List.map_map]
      congr 1
      exact List.map_id _
    change Ledger s.opened [] _
    rw [show (s.failAllPending error).resumed.map Prod.fst = _ from hkeys]
    exact hs.ledger.settlesAll
  · rcases List.mem_append.mp h with h | h
    · obtain ⟨id', -, heq⟩ := List.mem_map.mp h
      cases heq
      trivial
    · exact hs.own h

theorem Resumed.makeRequest {s : State} (hs : Resumed s) (taskCancelled encodes : Bool) :
    Resumed (s.makeRequest taskCancelled encodes) := by
  unfold State.makeRequest
  split
  · exact hs
  · have hnew : s.nextRequestId ∉ s.opened := fun h => absurd (hs.fresh _ h) (lt_irrefl _)
    have hlt : ∀ id ∈ s.nextRequestId :: s.opened, id < s.nextRequestId + 1 := by
      intro id h
      rcases List.mem_cons.mp h with rfl | h
      · omega
      · have := hs.fresh id h
        omega
    cases encodes with
    | true => exact ⟨hs.ledger.opens hnew, hlt, hs.own⟩
    | false =>
      refine ⟨hs.ledger.refused hnew, hlt, fun {id r} h => ?_⟩
      rcases List.mem_cons.mp h with h | h
      · cases h
        trivial
      · exact hs.own h

theorem removeAndFinish_eq (s : State) (uri : String) (k : ℕ) :
    ∃ streams listeners, s.removeAndFinishSubscriptionListener uri k =
      { s with streams := streams, perUriListeners := listeners } := by
  unfold removeAndFinishSubscriptionListener
  split
  · exact ⟨_, _, rfl⟩
  · exact ⟨s.streams, s.perUriListeners, rfl⟩

theorem resumed_step {s s' : State} {a : Act} (hs : Resumed s) (h : s.step a = some s') :
    Resumed s' := by
  cases a with
  | connect =>
    cases h
    unfold connect
    split
    · exact hs
    · split
      · exact hs
      · exact hs.of_eq rfl rfl rfl rfl
  | request taskCancelled encodes =>
    cases h
    exact hs.makeRequest _ _
  | requestRaw taskCancelled encodes =>
    cases h
    exact hs.makeRequest _ _
  | subscribe uri taskCancelled encodes =>
    cases h
    unfold subscribe
    dsimp only
    split
    · obtain ⟨streams, listeners, heq⟩ :=
        removeAndFinish_eq (s.attachSubscriptionInternal uri) uri s.streams.length
      rw [heq]
      exact hs.of_eq rfl rfl rfl rfl
    · have hattached : Resumed (s.attachSubscriptionInternal uri) := hs.of_eq rfl rfl rfl rfl
      exact (hattached.makeRequest taskCancelled encodes).of_eq rfl rfl rfl rfl
  | subscribed call decodes =>
    simp only [step, subscribed] at h
    split at h
    · next id uri k _ =>
      split at h
      · split at h
        · cases h
          exact hs.of_eq rfl rfl rfl rfl
        · cases h
          obtain ⟨streams, listeners, heq⟩ := removeAndFinish_eq s uri k
          rw [heq]
          exact hs.of_eq rfl rfl rfl rfl
      · cases h
    · cases h
  | attachSubscription uri =>
    cases h
    exact hs.of_eq rfl rfl rfl rfl
  | events =>
    cases h
    exact hs.of_eq rfl rfl rfl rfl
  | stateChanges =>
    cases h
    exact hs.of_eq rfl rfl rfl rfl
  | unsubscribe uri =>
    cases h
    exact hs.of_eq rfl rfl rfl rfl
  | terminate k =>
    cases h
    exact hs.of_eq rfl rfl rfl rfl
  | removeListener k =>
    simp only [step, removeListener] at h
    split at h
    · cases h
      exact hs.of_eq rfl rfl rfl rfl
    · cases h
  | response id ok =>
    cases h
    exact hs.resume (by cases ok <;> rfl)
  | cancelPending id =>
    cases h
    exact hs.resume trivial
  | timeoutPending id =>
    cases h
    exact hs.resume trivial
  | transportFailure error =>
    cases h
    unfold handleTransportFailure
    split
    · exact hs
    · exact hs.of_eq rfl rfl rfl rfl
  | failureClosed call =>
    simp only [step, failureClosed] at h
    split at h
    · cases h
      exact (hs.failAllPending _).of_eq rfl rfl rfl rfl
    · cases h
  | shutdown =>
    cases h
    unfold shutdown
    split
    · exact hs.of_eq rfl rfl rfl rfl
    · exact hs.of_eq rfl rfl rfl rfl
  | shutdownClosed call =>
    simp only [step, shutdownClosed] at h
    split at h
    · cases h
      exact (hs.failAllPending _).of_eq rfl rfl rfl rfl
    · cases h

/-! ### The teardown -/

/-- A shutdown is over, and none is under way. -/
def closed (s : State) : Bool := s.didShutdown && !s.shutdowns.contains .closing

/-- The action does not come in at a bad time. -/
def InTime (s : State) : Act → Prop
  | .connect => s.didShutdown = false → s.connectionState ≠ .connected → s.failures = []
  | .shutdown => s.didShutdown = true → s.closed = true
  | .attachSubscription _ | .events | .stateChanges => s.closed = false
  | _ => True

instance (s : State) (a : Act) : Decidable (InTime s a) := by
  cases a <;> unfold InTime <;> infer_instance

/-- The invariant of the connection. -/
structure Connection (s : State) : Prop where
  outbound : s.outbound = true →
    s.connectionState = .connected ∧ s.didShutdown = false ∧ s.failures = []
  pending : s.connectionState = .disconnected → s.pending = []
  closed : s.closed = true → s.pending = []

/-- The invariant of the streams. -/
structure Listening (s : State) : Prop where
  registered : ∀ {k : ℕ}, s.streams[k]? = some false → k ∈ s.registered
  closed : s.closed = true → s.registered = []

/-- The invariant of the calls of `shutdown`. -/
structure ShuttingDown (s : State) : Prop where
  first : ∀ {c : ℕ}, s.shutdowns[c]? = some .closing → c = 0
  none : s.didShutdown = false → s.shutdowns = []
  returned : Shutdown.returned ∈ s.shutdowns → s.closed = true

structure Sound (s : State) : Prop where
  connection : Connection s
  listening : Listening s
  shuttingDown : ShuttingDown s

theorem sound_created : Sound created where
  connection := ⟨fun h => (by cases h), fun _ => rfl, fun _ => rfl⟩
  listening := ⟨fun h => by simp [created] at h, fun _ => rfl⟩
  shuttingDown := ⟨fun h => by simp [created] at h, fun _ => rfl, fun h => by cases h⟩

theorem closed_of_eq {s s' : State} (hdid : s'.didShutdown = s.didShutdown)
    (hshutdowns : s'.shutdowns = s.shutdowns) : s'.closed = s.closed := by
  unfold closed
  rw [hdid, hshutdowns]

theorem ShuttingDown.of_eq {s s' : State} (hs : ShuttingDown s) (hdid : s'.didShutdown = s.didShutdown)
    (hshutdowns : s'.shutdowns = s.shutdowns) : ShuttingDown s' := by
  refine ⟨?_, ?_, ?_⟩
  · rw [hshutdowns]
    exact hs.first
  · rw [hshutdowns, hdid]
    exact hs.none
  · rw [hshutdowns, closed_of_eq hdid hshutdowns]
    exact hs.returned

theorem Listening.of_eq {s s' : State} (hs : Listening s) (hstreams : s'.streams = s.streams)
    (hregistered : s'.registered = s.registered) (hclosed : s'.closed = s.closed) : Listening s' := by
  refine ⟨?_, ?_⟩
  · rw [hstreams, hregistered]
    exact hs.registered
  · rw [hclosed, hregistered]
    exact hs.closed

theorem Connection.of_eq {s s' : State} (hs : Connection s) (houtbound : s'.outbound = s.outbound)
    (hstate : s'.connectionState = s.connectionState) (hdid : s'.didShutdown = s.didShutdown)
    (hfailures : s'.failures = s.failures) (hshutdowns : s'.shutdowns = s.shutdowns)
    (hpending : s.pending = [] → s'.pending = []) : Connection s' := by
  refine ⟨?_, ?_, ?_⟩
  · rw [houtbound, hstate, hdid, hfailures]
    exact hs.outbound
  · rw [hstate]
    exact fun h => hpending (hs.pending h)
  · rw [closed_of_eq hdid hshutdowns]
    exact fun h => hpending (hs.closed h)

/-! ### Requests -/

theorem not_closed {s : State} (h : s.didShutdown = false) : s.closed = false := by
  unfold closed
  rw [h]
  rfl

/-- A request is only made on a connection. -/
theorem Sound.makeRequest {s : State} (hs : Sound s) (taskCancelled encodes : Bool) :
    Sound (s.makeRequest taskCancelled encodes) := by
  unfold State.makeRequest
  split
  · exact hs
  · next hmade =>
    simp only [Bool.or_eq_true, Bool.not_eq_true', not_or, Bool.not_eq_true] at hmade
    obtain ⟨⟨hdid, hout⟩, -⟩ := hmade
    obtain ⟨hstate, -, hfailures⟩ := hs.connection.outbound (by simpa using hout)
    refine ⟨⟨fun _ => ⟨hstate, hdid, hfailures⟩, fun h => ?_, fun h => ?_⟩,
      hs.listening.of_eq rfl rfl rfl, hs.shuttingDown.of_eq rfl rfl⟩
    · change s.connectionState = _ at h
      rw [hstate] at h
      cases h
    · change s.closed = true at h
      rw [not_closed hdid] at h
      cases h

theorem Sound.resume {s : State} (hs : Sound s) (id : ℕ) (r : Resumption) : Sound (s.resume id r) := by
  unfold State.resume
  split
  · refine ⟨hs.connection.of_eq rfl rfl rfl rfl rfl fun h => ?_, hs.listening.of_eq rfl rfl rfl,
      hs.shuttingDown.of_eq rfl rfl⟩
    change s.pending.erase id = []
    rw [h]
    rfl
  · exact hs

/-! ### Streams -/

theorem getElem?_finish {s : State} {ks : List ℕ} {k : ℕ} (h : (s.finish ks).streams[k]? = some false) :
    s.streams[k]? = some false ∧ k ∉ ks := by
  simp only [finish, List.getElem?_mapIdx, Option.map_eq_some_iff, Bool.or_eq_false_iff] at h
  obtain ⟨finished, hk, rfl, hnot⟩ := h
  exact ⟨hk, by simpa using hnot⟩

theorem mem_registered {s : State} {k : ℕ} :
    k ∈ s.registered ↔
      (∃ uri, (uri, k) ∈ s.perUriListeners) ∨ k ∈ s.eventListeners ∨ k ∈ s.stateListeners := by
  simp [registered]

/-- A stream is made, with its listener. -/
theorem Listening.attach {s : State} (hs : Listening s) (hopen : s.closed = false)
    {perUri : List (String × ℕ)} {events states : List ℕ}
    (hsub : ∀ k ∈ s.registered, k ∈ perUri.map Prod.snd ++ events ++ states)
    (hnew : s.streams.length ∈ perUri.map Prod.snd ++ events ++ states) :
    Listening { s with
      streams := s.streams ++ [false], perUriListeners := perUri, eventListeners := events,
      stateListeners := states } := by
  refine ⟨fun {k} hk => ?_, fun h => ?_⟩
  · rcases getElem?_concat_eq_some hk with ⟨rfl, -⟩ | hk
    · exact hnew
    · exact hsub k (hs.registered hk)
  · change s.closed = true at h
    rw [hopen] at h
    cases h

theorem Listening.attachSubscriptionInternal {s : State} (hs : Listening s) (hopen : s.closed = false)
    (uri : String) : Listening (s.attachSubscriptionInternal uri) := by
  refine hs.attach hopen (fun k hk => ?_) ?_
  · rw [List.map_append]
    rcases List.mem_append.mp hk with hk | hk
    · rcases List.mem_append.mp hk with hk | hk
      · exact List.mem_append_left _ (List.mem_append_left _ (List.mem_append_left _ hk))
      · exact List.mem_append_left _ (List.mem_append_right _ hk)
    · exact List.mem_append_right _ hk
  · simp

/-- Streams are finished, and some listeners removed. -/
theorem Listening.shrink {s : State} (hs : Listening s) {streams : List Bool}
    {perUri : List (String × ℕ)} {events states : List ℕ}
    (hstreams : ∀ {k : ℕ}, streams[k]? = some false → s.streams[k]? = some false ∧
      (k ∈ s.registered → k ∈ perUri.map Prod.snd ++ events ++ states))
    (hnone : s.registered = [] → perUri.map Prod.snd ++ events ++ states = []) :
    Listening { s with
      streams := streams, perUriListeners := perUri, eventListeners := events,
      stateListeners := states } := by
  refine ⟨fun hk => ?_, fun h => hnone (hs.closed h)⟩
  obtain ⟨hold, hkept⟩ := hstreams hk
  exact hkept (hs.registered hold)

theorem registered_eq_nil {s : State} :
    s.registered = [] ↔ s.perUriListeners = [] ∧ s.eventListeners = [] ∧ s.stateListeners = [] := by
  simp [registered]

theorem Listening.finish {s : State} (hs : Listening s) (ks : List ℕ) : Listening (s.finish ks) :=
  hs.shrink (fun hk => ⟨(getElem?_finish hk).1, fun h => h⟩) fun h => h

theorem Listening.rollBack {s : State} (hs : Listening s) (uri : String) (k : ℕ) :
    Listening (s.removeAndFinishSubscriptionListener uri k) := by
  unfold removeAndFinishSubscriptionListener
  split
  · refine hs.shrink (fun {j} hj => ?_) fun h => ?_
    · obtain ⟨hold, hne⟩ := getElem?_finish hj
      refine ⟨hold, fun h => ?_⟩
      rw [List.mem_singleton] at hne
      rcases mem_registered.mp h with ⟨uri', h⟩ | h | h
      · have hother : (uri', j) ≠ (uri, k) := fun heq => hne (Prod.mk.inj heq).2
        have hkept := (List.mem_erase_of_ne hother).mpr h
        exact List.mem_append_left _ (List.mem_append_left _ (List.mem_map.mpr ⟨_, hkept, rfl⟩))
      · exact List.mem_append_left _ (List.mem_append_right _ h)
      · exact List.mem_append_right _ h
    · obtain ⟨hperUri, hevents, hstates⟩ := registered_eq_nil.mp h
      change (s.perUriListeners.erase (uri, k)).map Prod.snd ++ s.eventListeners ++ s.stateListeners = []
      rw [hperUri, hevents, hstates]
      rfl
  · exact hs

theorem Listening.unsubscribe {s : State} (hs : Listening s) (uri : String) :
    Listening (s.unsubscribe uri) := by
  refine hs.shrink (fun {j} hj => ?_) fun h => ?_
  · obtain ⟨hold, hnot⟩ := getElem?_finish hj
    refine ⟨hold, fun h => ?_⟩
    rcases mem_registered.mp h with ⟨uri', h⟩ | h | h
    · have hother : uri' ≠ uri := by
        rintro rfl
        exact hnot (List.mem_map.mpr ⟨_, List.mem_filter.mpr ⟨h, decide_eq_true rfl⟩, rfl⟩)
      have hkept : (uri', j) ∈ s.perUriListeners.filter (·.1 ≠ uri) :=
        List.mem_filter.mpr ⟨h, decide_eq_true hother⟩
      exact List.mem_append_left _ (List.mem_append_left _ (List.mem_map.mpr ⟨_, hkept, rfl⟩))
    · exact List.mem_append_left _ (List.mem_append_right _ h)
    · exact List.mem_append_right _ h
  · obtain ⟨hperUri, hevents, hstates⟩ := registered_eq_nil.mp h
    change (s.perUriListeners.filter _).map Prod.snd ++ s.eventListeners ++ s.stateListeners = []
    rw [hperUri, hevents, hstates]
    rfl

theorem Listening.removeListener {s s' : State} (hs : Listening s) {k : ℕ}
    (h : s.removeListener k = some s') : Listening s' := by
  unfold State.removeListener at h
  split at h
  · next hfinished =>
    cases h
    refine hs.shrink (fun {j} hj => ⟨hj, fun h => ?_⟩) fun h => ?_
    · have hne : j ≠ k := by
        rintro rfl
        rw [hfinished] at hj
        cases hj
      rcases mem_registered.mp h with ⟨uri, h⟩ | h | h
      · have hkept : (uri, j) ∈ s.perUriListeners.filter (·.2 ≠ k) :=
          List.mem_filter.mpr ⟨h, decide_eq_true hne⟩
        exact List.mem_append_left _ (List.mem_append_left _ (List.mem_map.mpr ⟨_, hkept, rfl⟩))
      · exact List.mem_append_left _
          (List.mem_append_right _ (List.mem_filter.mpr ⟨h, decide_eq_true hne⟩))
      · exact List.mem_append_right _ (List.mem_filter.mpr ⟨h, decide_eq_true hne⟩)
    · obtain ⟨hperUri, hevents, hstates⟩ := registered_eq_nil.mp h
      rw [hperUri, hevents, hstates]
      rfl
  · cases h

theorem Listening.finishAllSubscriptions {s : State} (hs : Listening s) :
    Listening s.finishAllSubscriptions := by
  refine hs.shrink (fun {j} hj => ?_) fun h => ?_
  · obtain ⟨hold, hnot⟩ := getElem?_finish hj
    refine ⟨hold, fun h => ?_⟩
    rcases mem_registered.mp h with ⟨uri, h⟩ | h | h
    · exact absurd (List.mem_map.mpr ⟨_, h, rfl⟩) hnot
    · exact List.mem_append_left _ (List.mem_append_right _ h)
    · exact List.mem_append_right _ h
  · obtain ⟨-, hevents, hstates⟩ := registered_eq_nil.mp h
    change ([] : List (String × ℕ)).map Prod.snd ++ s.eventListeners ++ s.stateListeners = []
    rw [hevents, hstates]
    rfl

/-- `subscribe` on a closed client leaves no listener. -/
theorem Listening.subscribe {s : State} (hs : Listening s) (uri : String) :
    Listening ((s.attachSubscriptionInternal uri).removeAndFinishSubscriptionListener uri
      s.streams.length) := by
  cases hopen : s.closed with
  | false => exact (hs.attachSubscriptionInternal hopen uri).rollBack uri _
  | true =>
    obtain ⟨hperUri, hevents, hstates⟩ := registered_eq_nil.mp (hs.closed hopen)
    have hmem : (uri, s.streams.length) ∈ (s.attachSubscriptionInternal uri).perUriListeners :=
      List.mem_append_right _ List.mem_cons_self
    unfold removeAndFinishSubscriptionListener
    rw [if_pos hmem]
    have hnone : State.registered
        { (s.attachSubscriptionInternal uri).finish [s.streams.length] with
          perUriListeners := (s.attachSubscriptionInternal uri).perUriListeners.erase
            (uri, s.streams.length) } = [] := by
      refine registered_eq_nil.mpr ⟨?_, hevents, hstates⟩
      change (s.perUriListeners ++ [(uri, s.streams.length)]).erase (uri, s.streams.length) = []
      rw [hperUri]
      simp
    refine ⟨fun {k} hk => ?_, fun _ => hnone⟩
    obtain ⟨hold, hne⟩ := getElem?_finish hk
    rcases getElem?_concat_eq_some hold with ⟨rfl, -⟩ | hold
    · exact absurd List.mem_cons_self hne
    · have hreg := hs.registered hold
      rw [hs.closed hopen] at hreg
      cases hreg

/-- After `shutdown` there is no listener, and all streams are finished. -/
theorem Listening.finishAll {s : State} (hs : Listening s) {k : ℕ} :
    s.finishAllSubscriptions.finishAllEventListeners.finishAllStateListeners.streams[k]? ≠
      some false := by
  intro hk
  obtain ⟨hk, hstate⟩ := getElem?_finish hk
  obtain ⟨hk, hevent⟩ := getElem?_finish hk
  obtain ⟨hk, hperUri⟩ := getElem?_finish hk
  rcases mem_registered.mp (hs.registered hk) with ⟨uri, h⟩ | h | h
  · exact hperUri (List.mem_map.mpr ⟨_, h, rfl⟩)
  · exact hevent h
  · exact hstate h

/-! ### Runs -/

/-- A step that concerns the streams alone. -/
theorem Sound.streams {s s' : State} (hs : Sound s) (hlistening : Listening s')
    (houtbound : s'.outbound = s.outbound) (hstate : s'.connectionState = s.connectionState)
    (hdid : s'.didShutdown = s.didShutdown) (hfailures : s'.failures = s.failures)
    (hshutdowns : s'.shutdowns = s.shutdowns) (hpending : s'.pending = s.pending) : Sound s' :=
  ⟨hs.connection.of_eq houtbound hstate hdid hfailures hshutdowns fun h => hpending.trans h, hlistening,
    hs.shuttingDown.of_eq hdid hshutdowns⟩

theorem Sound.connect {s : State} (hs : Sound s) (hg : InTime s .connect) : Sound s.connect := by
  unfold State.connect
  split
  · exact hs
  · next hdid =>
    have hdid : s.didShutdown = false := by simpa using hdid
    split
    · exact hs
    · next hstate =>
      refine ⟨⟨fun _ => ⟨rfl, hdid, hg hdid hstate⟩, fun h => (by cases h), fun h => ?_⟩,
        hs.listening.of_eq rfl rfl rfl, hs.shuttingDown.of_eq rfl rfl⟩
      change s.closed = true at h
      rw [not_closed hdid] at h
      cases h

theorem Sound.handleTransportFailure {s : State} (hs : Sound s) (error : AHPClientError) :
    Sound (s.handleTransportFailure error) := by
  unfold State.handleTransportFailure
  split
  · exact hs
  · exact ⟨⟨fun h => (by cases h), hs.connection.pending, hs.connection.closed⟩,
      hs.listening.of_eq rfl rfl rfl, hs.shuttingDown.of_eq rfl rfl⟩

theorem Sound.failureClosed {s s' : State} (hs : Sound s) {call : ℕ}
    (h : s.failureClosed call = some s') : Sound s' := by
  unfold State.failureClosed at h
  split at h
  · next error hfailure =>
    cases h
    have hout : s.outbound = false := by
      cases hout : s.outbound with
      | false => rfl
      | true =>
        obtain ⟨-, -, hnone⟩ := hs.connection.outbound hout
        rw [hnone] at hfailure
        cases hfailure
    have hfailed : Listening (s.failAllPending error) := hs.listening.of_eq rfl rfl rfl
    refine ⟨⟨fun h => ?_, fun _ => rfl, fun _ => rfl⟩,
      hfailed.finishAllSubscriptions.of_eq rfl rfl rfl, hs.shuttingDown.of_eq rfl rfl⟩
    change s.outbound = true at h
    rw [hout] at h
    cases h
  · cases h

theorem Sound.shutdown {s : State} (hs : Sound s) (hg : InTime s .shutdown) : Sound s.shutdown := by
  unfold State.shutdown
  split
  · next hdid =>
    have hclosed := hg hdid
    have hsame : State.closed { s with shutdowns := s.shutdowns ++ [.returned] } = s.closed := by
      simp [State.closed]
    refine ⟨⟨hs.connection.outbound, hs.connection.pending, fun _ => hs.connection.closed hclosed⟩,
      hs.listening.of_eq rfl rfl hsame, ⟨fun {c} h => ?_, fun h => ?_, fun _ => hsame.trans hclosed⟩⟩
    · rcases getElem?_concat_eq_some h with ⟨-, h⟩ | h
      · cases h
      · exact hs.shuttingDown.first h
    · change s.didShutdown = false at h
      rw [hdid] at h
      cases h
  · next hdid =>
    have hnone := hs.shuttingDown.none (by simpa using hdid)
    have hopen : State.closed
        { s with didShutdown := true, outbound := false, shutdowns := s.shutdowns ++ [.closing] } =
          false := by
      simp [State.closed]
    refine ⟨⟨fun h => (by cases h), hs.connection.pending, fun h => ?_⟩,
      ⟨hs.listening.registered, fun h => ?_⟩, ⟨fun {c} h => ?_, fun h => (by cases h), fun h => ?_⟩⟩
    · rw [hopen] at h
      cases h
    · rw [hopen] at h
      cases h
    · rw [hnone] at h
      rcases getElem?_concat_eq_some h with ⟨hc, -⟩ | h
      · exact hc
      · cases h
    · rw [hnone] at h
      cases List.mem_singleton.mp h

theorem Sound.shutdownClosed {s s' : State} (hs : Sound s) {call : ℕ}
    (h : s.shutdownClosed call = some s') : Sound s' := by
  unfold State.shutdownClosed at h
  split at h
  · next hclosing =>
    cases h
    have hzero := hs.shuttingDown.first hclosing
    have hdid : s.didShutdown = true := by
      cases hdid : s.didShutdown with
      | true => rfl
      | false =>
        rw [hs.shuttingDown.none hdid] at hclosing
        cases hclosing
    have hout : s.outbound = false := by
      cases hout : s.outbound with
      | false => rfl
      | true =>
        obtain ⟨-, hnot, -⟩ := hs.connection.outbound hout
        rw [hdid] at hnot
        cases hnot
    -- The call that was closing the transport was the only one.
    have hnone : ∀ {c : ℕ}, (s.shutdowns.set call .returned)[c]? ≠ some .closing := by
      intro c h
      rcases getElem?_set_eq_some h with ⟨-, h⟩ | ⟨hne, h⟩
      · cases h
      · exact hne ((hs.shuttingDown.first h).trans hzero.symm)
    have hover : ∀ t : State, t.didShutdown = true → t.shutdowns = s.shutdowns.set call .returned →
        t.closed = true := by
      intro t hd hsd
      unfold State.closed
      rw [hd, hsd]
      simp only [Bool.true_and, Bool.not_eq_true', List.contains_eq_mem, decide_eq_false_iff_not]
      intro hmem
      obtain ⟨c, hc⟩ := List.mem_iff_getElem?.mp hmem
      exact hnone hc
    have hfailed : Listening (s.failAllPending .shutdown) := hs.listening.of_eq rfl rfl rfl
    refine ⟨⟨fun h => ?_, fun _ => rfl, fun _ => rfl⟩, ⟨fun h => absurd h hfailed.finishAll, fun _ => rfl⟩,
      ⟨fun h => absurd h hnone, fun h => ?_, fun _ => hover _ hdid rfl⟩⟩
    · change s.outbound = true at h
      rw [hout] at h
      cases h
    · change s.didShutdown = false at h
      rw [hdid] at h
      cases h
  · cases h

theorem Sound.subscribe {s : State} (hs : Sound s) (uri : String) (taskCancelled encodes : Bool) :
    Sound (s.subscribe uri taskCancelled encodes) := by
  unfold State.subscribe
  dsimp only
  split
  · have hlistening := hs.listening.subscribe uri
    obtain ⟨streams, listeners, heq⟩ :=
      removeAndFinish_eq (s.attachSubscriptionInternal uri) uri s.streams.length
    rw [heq] at hlistening ⊢
    exact hs.streams hlistening rfl rfl rfl rfl rfl rfl
  · next hmade =>
    simp only [Bool.or_eq_true, Bool.not_eq_true', not_or, Bool.not_eq_true] at hmade
    have hlistening := hs.listening.attachSubscriptionInternal (not_closed hmade.1.1) uri
    have hattached : Sound (s.attachSubscriptionInternal uri) :=
      hs.streams hlistening rfl rfl rfl rfl rfl rfl
    have hrequested := hattached.makeRequest taskCancelled encodes
    exact hrequested.streams (hrequested.listening.of_eq rfl rfl rfl) rfl rfl rfl rfl rfl rfl

theorem Sound.subscribed {s s' : State} (hs : Sound s) {call : ℕ} {decodes : Bool}
    (h : s.subscribed call decodes = some s') : Sound s' := by
  unfold State.subscribed at h
  split at h
  · next id uri k _ =>
    split at h
    · split at h
      · cases h
        exact hs.streams (hs.listening.of_eq rfl rfl rfl) rfl rfl rfl rfl rfl rfl
      · cases h
        have hlistening := hs.listening.rollBack uri k
        obtain ⟨streams, listeners, heq⟩ := removeAndFinish_eq s uri k
        rw [heq] at hlistening ⊢
        exact hs.streams (hlistening.of_eq rfl rfl rfl) rfl rfl rfl rfl rfl rfl
    · cases h
  · cases h

theorem Sound.removeListener {s s' : State} (hs : Sound s) {k : ℕ} (h : s.removeListener k = some s') :
    Sound s' := by
  have hlistening := hs.listening.removeListener h
  unfold State.removeListener at h
  split at h
  · cases h
    exact hs.streams hlistening rfl rfl rfl rfl rfl rfl
  · cases h

theorem sound_step {s s' : State} {a : Act} (hs : Sound s) (hg : InTime s a) (h : s.step a = some s') :
    Sound s' := by
  cases a with
  | connect =>
    cases h
    exact hs.connect hg
  | request taskCancelled encodes =>
    cases h
    exact hs.makeRequest _ _
  | requestRaw taskCancelled encodes =>
    cases h
    exact hs.makeRequest _ _
  | subscribe uri taskCancelled encodes =>
    cases h
    exact hs.subscribe _ _ _
  | subscribed call decodes => exact hs.subscribed h
  | attachSubscription uri =>
    cases h
    exact hs.streams (hs.listening.attachSubscriptionInternal hg uri) rfl rfl rfl rfl rfl rfl
  | events =>
    cases h
    refine hs.streams (hs.listening.attach hg (fun k hk => ?_) ?_) rfl rfl rfl rfl rfl rfl
    · rcases mem_registered.mp hk with ⟨uri, h⟩ | h | h
      · exact List.mem_append_left _ (List.mem_append_left _ (List.mem_map.mpr ⟨_, h, rfl⟩))
      · exact List.mem_append_left _ (List.mem_append_right _ (List.mem_append_left _ h))
      · exact List.mem_append_right _ h
    · exact List.mem_append_left _ (List.mem_append_right _ (List.mem_append_right _ List.mem_cons_self))
  | stateChanges =>
    cases h
    refine hs.streams (hs.listening.attach hg (fun k hk => ?_) ?_) rfl rfl rfl rfl rfl rfl
    · rcases List.mem_append.mp hk with h | h
      · exact List.mem_append_left _ h
      · exact List.mem_append_right _ (List.mem_append_left _ h)
    · exact List.mem_append_right _ (List.mem_append_right _ List.mem_cons_self)
  | unsubscribe uri =>
    cases h
    exact hs.streams (hs.listening.unsubscribe uri) rfl rfl rfl rfl rfl rfl
  | terminate k =>
    cases h
    exact hs.streams (hs.listening.finish [k]) rfl rfl rfl rfl rfl rfl
  | removeListener k => exact hs.removeListener h
  | response id ok =>
    cases h
    exact hs.resume _ _
  | cancelPending id =>
    cases h
    exact hs.resume _ _
  | timeoutPending id =>
    cases h
    exact hs.resume _ _
  | transportFailure error =>
    cases h
    exact hs.handleTransportFailure error
  | failureClosed call => exact hs.failureClosed h
  | shutdown =>
    cases h
    exact hs.shutdown hg
  | shutdownClosed call => exact hs.shutdownClosed h

/-- **The teardown**: a continuation is resumed at most once, by a response only if that had its id,
and is pending until then. In every run in which no stream is made after a shutdown, no `shutdown` is
called during another one and no `connect` comes in while a `handleTransportFailure` closes the
transport, nothing is pending while the client is disconnected, and once a call of `shutdown` has
returned every continuation was resumed and every stream is finished. -/
theorem requests_resumed_and_streams_finished (actions : List Act) (s : State)
    (hg : Guarded step InTime created actions) (hr : runs step created actions = some s) :
    Ledger s.opened s.pending (s.resumed.map Prod.fst) ∧ (∀ e ∈ s.resumed, e.2.Of e.1) ∧
      (s.connectionState = .disconnected → s.pending = []) ∧
      (Shutdown.returned ∈ s.shutdowns →
        (∀ id ∈ s.opened, id ∈ s.resumed.map Prod.fst) ∧ s.pending = [] ∧
          ∀ finished ∈ s.streams, finished = true) := by
  have hresumed : Resumed s := runs_kept step resumed_step resumed_created hr
  have hs : Sound s := runs_invariant step sound_step sound_created hg hr
  refine ⟨hresumed.ledger, fun e he => hresumed.own he, hs.connection.pending, fun hreturned => ?_⟩
  have hclosed := hs.shuttingDown.returned hreturned
  have hnone := hs.connection.closed hclosed
  refine ⟨fun id hid => ?_, hnone, fun finished hmem => ?_⟩
  · rcases hresumed.ledger.pending_or_settled hid with h | h
    · rw [hnone] at h
      cases h
    · exact h
  · obtain ⟨k, hk⟩ := List.mem_iff_getElem?.mp hmem
    cases finished with
    | true => rfl
    | false =>
      have hreg := hs.listening.registered hk
      rw [hs.listening.closed hclosed] at hreg
      cases hreg

/-- One request answered, one cancelled, one timed out and late, one cut off by the shutdown; and
streams of all kinds. -/
theorem requests_resumed_and_streams_finished_all :
    ∃ s : State, s.shutdowns = [.returned] ∧ s.streams.length = 4 ∧
      s.resumed = [(4, .failed .shutdown), (3, .requestTimeout), (2, .cancelled), (1, .result 1)] ∧
      ∀ finished ∈ s.streams, finished = true := by
  let actions : List Act :=
    [.events, .stateChanges, .connect, .subscribe "ahp-root://" false true, .response 1 true,
      .subscribed 0 true, .attachSubscription "ahp-root://", .request false true,
      .requestRaw false true, .request false true, .cancelPending 2, .timeoutPending 3,
      .response 3 true, .transportFailure .transport, .shutdown, .shutdownClosed 0, .failureClosed 0]
  have hview : (runs step created actions).map (fun s => (s.shutdowns, s.streams.length, s.resumed)) =
      some ([.returned], 4,
        [(4, .failed .shutdown), (3, .requestTimeout), (2, .cancelled), (1, .result 1)]) := by
    decide +kernel
  obtain ⟨s, hr, hview⟩ := Option.map_eq_some_iff.mp hview
  obtain ⟨hshutdowns, hrest⟩ := Prod.mk.inj hview
  obtain ⟨hlength, hresumed⟩ := Prod.mk.inj hrest
  have hg : Guarded step InTime created actions := by decide +kernel
  obtain ⟨-, -, -, hdown⟩ := requests_resumed_and_streams_finished actions s hg hr
  exact ⟨s, hshutdowns, hlength, hresumed,
    (hdown (by rw [hshutdowns]; exact List.mem_cons_self)).2.2⟩

/-- A second `shutdown` returns while the first closes the transport and a request is pending; a
stream that is attached after a shutdown is never finished; and after a drop seen twice and a
`connect` in between, a request is pending on a client that says it is disconnected. -/
theorem second_shutdown_returns_early :
    (∃ (actions : List Act) (s : State), runs step created actions = some s ∧
      s.shutdowns = [.closing, .returned] ∧ s.pending = [1]) ∧
    (∃ (actions : List Act) (s : State), runs step created actions = some s ∧
      s.shutdowns = [.returned] ∧ s.streams = [false]) ∧
    ∃ (actions : List Act) (s : State), runs step created actions = some s ∧
      s.connectionState = .disconnected ∧ s.pending = [2] := by
  refine ⟨?_, ?_, ?_⟩
  · let actions : List Act := [.connect, .request false true, .shutdown, .shutdown]
    have hview : (runs step created actions).map (fun s => (s.shutdowns, s.pending)) =
        some ([.closing, .returned], [1]) := by decide +kernel
    obtain ⟨s, hr, hview⟩ := Option.map_eq_some_iff.mp hview
    obtain ⟨hshutdowns, hpending⟩ := Prod.mk.inj hview
    exact ⟨actions, s, hr, hshutdowns, hpending⟩
  · let actions : List Act := [.connect, .shutdown, .shutdownClosed 0, .attachSubscription "ahp-root://"]
    have hview : (runs step created actions).map (fun s => (s.shutdowns, s.streams)) =
        some ([.returned], [false]) := by decide +kernel
    obtain ⟨s, hr, hview⟩ := Option.map_eq_some_iff.mp hview
    obtain ⟨hshutdowns, hstreams⟩ := Prod.mk.inj hview
    exact ⟨actions, s, hr, hshutdowns, hstreams⟩
  · let actions : List Act :=
      [.connect, .transportFailure .transport, .transportFailure .transport, .failureClosed 0, .connect,
        .request false true, .failureClosed 0, .request false true]
    have hview : (runs step created actions).map (fun s => (s.connectionState, s.pending)) =
        some (.disconnected, [2]) := by decide +kernel
    obtain ⟨s, hr, hview⟩ := Option.map_eq_some_iff.mp hview
    obtain ⟨hstate, hpending⟩ := Prod.mk.inj hview
    exact ⟨actions, s, hr, hstate, hpending⟩

end State

end AgentHostProtocol.Swift.Client
