import AgentHostProtocol.Hosts.Runtime

/-!
# A channel that was unsubscribed

What a supervisor and its host keep of a channel whose most recent call was `unsubscribe`.

**What is proved** (`unsubscribed_released`): in every run in which no `subscribe` goes on
after an `unsubscribe` of its channel that was called later, such a channel is not among the
subscriptions, and the host does not hold it on a connection whose handshake began and
completed after the call; if besides no channel is unsubscribed while a handshake that asks
for it is under way, the host does not hold it on any connection that completed after the
call.

Without the first condition the channel comes back (`late_response_resubscribes`):
`subscribe` tracks its channel after its await and does not look whether it was unsubscribed
meanwhile.
-/

namespace AgentHostProtocol.Hosts

open Library

/-! ### History -/

/-- The calls of the public interface. -/
inductive CallKind where
  | subscribe
  | unsubscribe
  deriving DecidableEq

/-- What the history of a run records. -/
inductive Event where
  | call (kind : CallKind) (uri : URI)
  /-- A handshake was sent. -/
  | connecting
  /-- A handshake was committed. -/
  | connected
  deriving DecidableEq

/-- The event of a step. -/
def event? : Step → Option Event
  | .subscribe uri => some (.call .subscribe uri)
  | .unsubscribe uri => some (.call .unsubscribe uri)
  | .connectOnce _ => some .connecting
  | .commit => some .connected
  | _ => none

/-- A supervisor with the history of its run, newest first. -/
abbrev Run := HostRuntime × List Event

/-- The runs of a supervisor. -/
abbrev runStep : Run → Step → Option Run := recorded step event?

/-- The start of a run. -/
def Run.new (initialSubscriptions : List URI) : Run := (HostRuntime.new initialSubscriptions, [])

/-- The most recent call for a channel. -/
def lastCall (uri : URI) : List Event → Option CallKind
  | [] => none
  | .call kind u :: history => if u = uri then some kind else lastCall uri history
  | .connecting :: history | .connected :: history => lastCall uri history

/-- What came after the most recent call for a channel. -/
def sinceCall (uri : URI) : List Event → List Event
  | [] => []
  | .call kind u :: history => if u = uri then [] else .call kind u :: sinceCall uri history
  | .connecting :: history => .connecting :: sinceCall uri history
  | .connected :: history => .connected :: sinceCall uri history

/-! ### The conditions -/

/-- A call of `subscribe` goes on though its channel was unsubscribed after it was called. -/
def FinishesLate (r : Run) : Step → Prop
  | .finishSubscribe id =>
    ∃ call ∈ r.1.calls.find? fun c => c.id = id && c.answered, lastCall call.uri r.2 = some .unsubscribe
  | _ => False

instance (r : Run) : DecidablePred (FinishesLate r)
  | .finishSubscribe _ => inferInstanceAs (Decidable (∃ _ ∈ _, _))
  | .subscribe _ | .unsubscribe _ | .timeOut _ | .shutDown | .connectOnce _ | .commit
  | .abortConnect | .loseConnection | .tearDownClient | .receive | .serve _ =>
    inferInstanceAs (Decidable False)

/-- A channel is unsubscribed while a handshake that asks for it is under way. -/
def UnsubscribesMidHandshake (r : Run) : Step → Prop
  | .unsubscribe uri => ∃ prior ∈ r.1.connection.prior?, uri ∈ prior
  | _ => False

instance (r : Run) : DecidablePred (UnsubscribesMidHandshake r)
  | .unsubscribe _ => inferInstanceAs (Decidable (∃ _ ∈ _, _))
  | .subscribe _ | .finishSubscribe _ | .timeOut _ | .shutDown | .connectOnce _ | .commit
  | .abortConnect | .loseConnection | .tearDownClient | .receive | .serve _ =>
    inferInstanceAs (Decidable False)

/-! ### Subscriptions -/

variable {s s' : HostRuntime} {a : Step} {uri : URI}

@[simp] theorem mem_trackSubscription {subscriptions : List URI} {u : URI} :
    u ∈ trackSubscription subscriptions uri ↔ u ∈ subscriptions ∨ u = uri := by
  unfold trackSubscription
  split
  · next h =>
    constructor
    · exact .inl
    · rintro (hu | rfl)
      · exact hu
      · exact h
  · simp

@[simp] theorem mem_untrackSubscription {subscriptions : List URI} {u : URI} :
    u ∈ untrackSubscription subscriptions uri ↔ u ∈ subscriptions ∧ u ≠ uri := by
  simp [untrackSubscription]

theorem retained_subset {prior subscriptions : List URI} {result : Option ReconnectResult} :
    retained prior subscriptions result ⊆ subscriptions := by
  intro u hu
  unfold retained at hu
  split at hu
  · exact hu
  · split at hu
    · exact hu
    · exact List.mem_of_mem_filter hu
  · exact List.mem_of_mem_filter hu

/-- Only `subscribe`, at once or after its response, adds a channel to the subscriptions. -/
theorem mem_subscriptions_step (h : step s a = some s') (hu : uri ∈ s'.subscriptions) :
    uri ∈ s.subscriptions ∨ a = .subscribe uri ∨ ∃ id call, a = .finishSubscribe id ∧
      (s.calls.find? fun c => c.id = id && c.answered) = some call ∧ call.uri = uri := by
  cases a with
  | subscribe u =>
    cases h
    unfold subscribe at hu
    split at hu
    · exact .inl hu
    · split at hu
      · exact .inl hu
      · exact .inl hu
      · rcases mem_trackSubscription.mp hu with hu | rfl
        · exact .inl hu
        · exact .inr (.inl rfl)
  | unsubscribe u =>
    cases h
    have hmem : uri ∈ untrackSubscription s.subscriptions u := by
      unfold unsubscribe at hu
      split at hu
      · exact hu
      · split at hu <;> exact hu
    exact .inl (mem_untrackSubscription.mp hmem).1
  | finishSubscribe id =>
    obtain ⟨call, hcall, rfl⟩ := Option.map_eq_some_iff.mp h
    rcases mem_trackSubscription.mp hu with hu | rfl
    · exact .inl hu
    · exact .inr (.inr ⟨id, call, rfl, hcall, rfl⟩)
  | commit =>
    simp only [step, commit] at h
    split at h
    · cases h
      exact .inl (retained_subset hu)
    · cases h
  | timeOut id | shutDown =>
    cases h
    exact .inl hu
  | connectOnce seen =>
    obtain ⟨-, -, hs', -⟩ := connectOnce_cases h
    rw [hs'] at hu
    exact .inl hu
  | abortConnect | loseConnection | tearDownClient =>
    obtain ⟨-, rfl | ⟨-, rfl⟩⟩ := lost_cases (by simp) h <;> exact .inl hu
  | receive =>
    obtain ⟨_, _, -, ⟨_, -, -, -, rfl⟩ | ⟨_, -, -, rfl⟩ | ⟨_, -, rfl⟩ | ⟨_, -, -, rfl⟩⟩ := receive_cases h <;>
      exact .inl hu
  | serve answer =>
    obtain ⟨_, _, _, _, -, -, rfl⟩ := serve_cases h
    exact .inl hu

theorem not_mem_unsubscribe (s : HostRuntime) (uri : URI) : uri ∉ (unsubscribe s uri).subscriptions := by
  have hnot : uri ∉ untrackSubscription s.subscriptions uri := by simp
  unfold unsubscribe
  split
  · exact hnot
  · split <;> exact hnot

/-! ### What a connection asks for -/

/-- The connection holds the channel, or is about to ask for it. -/
def Asked (s : HostRuntime) (uri : URI) : Prop :=
  uri ∈ s.held ∨ (∃ message ∈ s.outbound, uri ∈ message.channels) ∨
    ∃ prior, s.connection.prior? = some prior ∧ uri ∈ prior

theorem not_asked_dropTransport {connection : Connection} (h : connection.prior? = none) :
    ¬ Asked (dropTransport s connection) uri := by
  rintro (hu | ⟨message, hm, -⟩ | ⟨prior, hprior, -⟩)
  · cases hu
  · cases hm
  · cases h.symm.trans hprior

/-- A step that leaves the connection and what is on its way to the host as they are. -/
theorem Asked.congr (hu : Asked s' uri) (hheld : s'.held = s.held)
    (houtbound : s'.outbound = s.outbound)
    (hprior : s'.connection.prior? = s.connection.prior?) : Asked s uri := by
  unfold Asked at hu
  rwa [hheld, houtbound, hprior] at hu

theorem asked_of_subscribe {u : URI} (hu : Asked (subscribe s u) uri) :
    Asked s uri ∨ u = uri ∧ s.connection = .connected := by
  unfold subscribe at hu
  split at hu
  · exact .inl hu
  · split at hu
    · next hconnected =>
      rcases hu with hu | ⟨message, hm, hu⟩ | ⟨prior, hprior, hu⟩
      · exact .inl (.inl hu)
      · rcases List.mem_append.mp hm with hm | hm
        · exact .inl (.inr (.inl ⟨message, hm, hu⟩))
        · rw [List.mem_singleton.mp hm] at hu
          exact .inr ⟨(List.mem_singleton.mp hu).symm, hconnected⟩
      · exact .inl (.inr (.inr ⟨prior, hprior, hu⟩))
    · exact .inl hu
    · exact .inl (hu.congr rfl rfl rfl)

theorem asked_of_unsubscribe {u : URI} (hu : Asked (unsubscribe s u) uri) : Asked s uri := by
  unfold unsubscribe at hu
  split at hu
  · exact hu.congr rfl rfl rfl
  · split at hu
    · rcases hu with hu | ⟨message, hm, hu⟩ | ⟨prior, hprior, hu⟩
      · exact .inl hu
      · rcases List.mem_append.mp hm with hm | hm
        · exact .inr (.inl ⟨message, hm, hu⟩)
        · rw [List.mem_singleton.mp hm] at hu
          cases hu
      · exact .inr (.inr ⟨prior, hprior, hu⟩)
    · exact hu.congr rfl rfl rfl

/-- A new connection asks for the subscriptions. -/
theorem asked_of_connectOnce {seen : Bool} (h : connectOnce s seen = some s') (hu : Asked s' uri) :
    uri ∈ s.subscriptions := by
  obtain ⟨-, hprior, hs', houtbound⟩ := connectOnce_cases h
  rcases hu with hu | ⟨message, hm, hu⟩ | ⟨prior, hprior', hu⟩
  · rw [hs'] at hu
    cases hu
  · rw [houtbound, List.mem_singleton] at hm
    subst hm
    split at hu <;> exact hu
  · cases hprior.symm.trans hprior'
    exact hu

theorem asked_of_receive (h : receive s = some s') (hu : Asked s' uri) : Asked s uri := by
  obtain ⟨message, inbound, -, hcases⟩ := receive_cases h
  rcases hcases with ⟨connection, hprior, -, -, rfl⟩ | ⟨prior, -, hc, rfl⟩ | ⟨prior, -, rfl⟩ | ⟨calls, -, -, rfl⟩
  · exact hu.congr rfl rfl hprior
  · have hprior : s.connection.prior? = some prior := by rw [hc]; rfl
    rcases hu with hu | ⟨message, hm, hu⟩ | ⟨prior', hprior', hu⟩
    · exact .inl hu
    · rcases List.mem_append.mp hm with hm | hm
      · exact .inr (.inl ⟨message, hm, hu⟩)
      -- the message that falls back asks for what `reconnect` asked for
      · rw [List.mem_singleton.mp hm] at hu
        exact .inr (.inr ⟨prior, hprior, hu⟩)
    · cases hprior'
      exact .inr (.inr ⟨prior, hprior, hu⟩)
  · exact absurd hu (not_asked_dropTransport rfl)
  · exact hu.congr rfl rfl rfl

/-- What the host takes, it was asked for. -/
theorem asked_of_serve {answer : Answer} (h : serve s answer = some s') (hu : Asked s' uri) :
    Asked s uri := by
  obtain ⟨message, outbound, held, inbound, hout, hheld, rfl⟩ := serve_cases h
  rcases hu with hu | ⟨m, hm, hu⟩ | hu
  · rcases hheld uri hu with hu | hu
    · exact .inl hu
    · exact .inr (.inl ⟨message, hout ▸ List.mem_cons_self, hu⟩)
  · exact .inr (.inl ⟨m, hout ▸ List.mem_cons_of_mem _ hm, hu⟩)
  · exact .inr (.inr hu)

/-- What a connection asks for, it asked for before the step, or the step is a call of
`subscribe` or the start of the connection. -/
theorem asked_step (h : step s a = some s') (hu : Asked s' uri) :
    (Asked s uri ∧ ∀ seen, a ≠ .connectOnce seen) ∨
      (a = .subscribe uri ∧ s.connection = .connected) ∨
      ∃ seen, a = .connectOnce seen ∧ uri ∈ s.subscriptions := by
  cases a with
  | subscribe u =>
    cases h
    rcases asked_of_subscribe hu with hu | ⟨rfl, hconnected⟩
    · exact .inl ⟨hu, fun _ hseen => (by cases hseen)⟩
    · exact .inr (.inl ⟨rfl, hconnected⟩)
  | unsubscribe u =>
    cases h
    exact .inl ⟨asked_of_unsubscribe hu, fun _ hseen => (by cases hseen)⟩
  | finishSubscribe id =>
    obtain ⟨call, -, rfl⟩ := Option.map_eq_some_iff.mp h
    exact .inl ⟨hu.congr rfl rfl rfl, fun _ hseen => (by cases hseen)⟩
  | timeOut id | shutDown =>
    cases h
    exact .inl ⟨hu.congr rfl rfl rfl, fun _ hseen => (by cases hseen)⟩
  | connectOnce seen => exact .inr (.inr ⟨seen, rfl, asked_of_connectOnce h hu⟩)
  | commit =>
    simp only [step, commit] at h
    split at h
    · cases h
      rcases hu with hu | hu | ⟨prior, hprior, -⟩
      · exact .inl ⟨.inl hu, fun _ hseen => (by cases hseen)⟩
      · exact .inl ⟨.inr (.inl hu), fun _ hseen => (by cases hseen)⟩
      · cases hprior
    · cases h
  | abortConnect | loseConnection | tearDownClient =>
    obtain ⟨-, rfl | ⟨-, rfl⟩⟩ := lost_cases (by simp) h <;>
      exact absurd hu (not_asked_dropTransport rfl)
  | receive => exact .inl ⟨asked_of_receive h hu, fun _ hseen => (by cases hseen)⟩
  | serve answer => exact .inl ⟨asked_of_serve h hu, fun _ hseen => (by cases hseen)⟩

@[simp] theorem subscribe_connection (s : HostRuntime) (uri : URI) :
    (subscribe s uri).connection = s.connection := by
  unfold subscribe
  split
  · rfl
  · split <;> rfl

@[simp] theorem unsubscribe_connection (s : HostRuntime) (uri : URI) :
    (unsubscribe s uri).connection = s.connection := by
  unfold unsubscribe
  split
  · rfl
  · split <;> rfl

theorem receive_prior {prior : List URI} (h : receive s = some s')
    (hprior : s'.connection.prior? = some prior) : s.connection.prior? = some prior := by
  obtain ⟨message, inbound, -, hcases⟩ := receive_cases h
  rcases hcases with ⟨connection, hc, -, -, rfl⟩ | ⟨prior', -, hc, rfl⟩ | ⟨prior', -, rfl⟩ | ⟨calls, -, -, rfl⟩
  · exact hc.symm.trans hprior
  · rw [hc]
    exact hprior
  · cases hprior
  · exact hprior

theorem serve_connection {answer : Answer} (h : serve s answer = some s') :
    s'.connection = s.connection := by
  obtain ⟨message, outbound, held, inbound, -, -, rfl⟩ := serve_cases h
  rfl

/-- A handshake under way was under way before the step, or the step starts it. -/
theorem prior_step {prior : List URI} (h : step s a = some s')
    (hprior : s'.connection.prior? = some prior) :
    s.connection.prior? = some prior ∨ ∃ seen, a = .connectOnce seen ∧ prior = s.subscriptions := by
  cases a with
  | subscribe u | unsubscribe u =>
    cases h
    exact .inl (by simpa using hprior)
  | finishSubscribe id =>
    obtain ⟨call, -, rfl⟩ := Option.map_eq_some_iff.mp h
    exact .inl hprior
  | timeOut id | shutDown =>
    cases h
    exact .inl hprior
  | connectOnce seen =>
    obtain ⟨-, hnew, -, -⟩ := connectOnce_cases h
    exact .inr ⟨seen, rfl, Option.some.inj (hprior.symm.trans hnew)⟩
  | commit =>
    simp only [step, commit] at h
    split at h <;> cases h
    cases hprior
  | abortConnect | loseConnection | tearDownClient =>
    obtain ⟨-, rfl | ⟨-, rfl⟩⟩ := lost_cases (by simp) h <;> cases hprior
  | receive => exact .inl (receive_prior h hprior)
  | serve answer => exact .inl (serve_connection h ▸ hprior)

/-! ### The history of a step -/

section History

variable {history : List Event}

/-- A step that is no call for the channel leaves its most recent call. -/
theorem lastCall_step (hs : a ≠ .subscribe uri) (hu : a ≠ .unsubscribe uri) :
    lastCall uri ((event? a).toList ++ history) = lastCall uri history := by
  cases a with
  | subscribe u => exact if_neg fun h => hs (by rw [h])
  | unsubscribe u => exact if_neg fun h => hu (by rw [h])
  | _ => rfl

theorem mem_sinceCall_step {e : Event} (h : e ∈ sinceCall uri ((event? a).toList ++ history)) :
    event? a = some e ∨ e ∈ sinceCall uri history := by
  cases a with
  | subscribe u | unsubscribe u =>
    simp only [event?, Option.toList_some, List.singleton_append, sinceCall] at h
    split at h
    · cases h
    · rcases List.mem_cons.mp h with rfl | h
      · exact .inl rfl
      · exact .inr h
  | connectOnce seen | commit =>
    rcases List.mem_cons.mp h with rfl | h
    · exact .inl rfl
    · exact .inr h
  | _ => exact .inr h

end History

/-! ### Invariants -/

variable {r r' : Run}

/-- Neither the subscriptions nor a connection that began after it have a channel whose most
recent call was `unsubscribe`. -/
def Released (r : Run) : Prop :=
  ∀ uri, lastCall uri r.2 = some .unsubscribe →
    uri ∉ r.1.subscriptions ∧ (.connecting ∈ sinceCall uri r.2 → ¬ Asked r.1 uri)

/-- A handshake under way asks for nothing but its copy of the subscriptions. -/
def HandshakeAsks (s : HostRuntime) : Prop :=
  ∀ {prior}, s.connection.prior? = some prior → ∀ {uri}, Asked s uri → uri ∈ prior

/-- Nor has a connection whose handshake is under way or completed after it. -/
def ReleasedAtOnce (r : Run) : Prop :=
  ∀ uri, lastCall uri r.2 = some .unsubscribe →
    r.1.connection.prior?.isSome ∨ .connected ∈ sinceCall uri r.2 → ¬ Asked r.1 uri

theorem not_mem_subscriptions_of_released (hr : Released r) (hlate : ¬ FinishesLate r a)
    (h : step r.1 a = some s') (hlast : lastCall uri r.2 = some .unsubscribe)
    (hs : a ≠ .subscribe uri) : uri ∉ s'.subscriptions := by
  intro hu
  rcases mem_subscriptions_step h hu with hu | rfl | ⟨id, call, rfl, hcall, rfl⟩
  · exact (hr uri hlast).1 hu
  · exact hs rfl
  · exact hlate ⟨call, hcall, hlast⟩

theorem Released.step (hr : Released r) (hlate : ¬ FinishesLate r a)
    (h : runStep r a = some r') : Released r' := by
  obtain ⟨hstep, hhistory⟩ := (recorded_eq_some Hosts.step event?).mp h
  intro uri hlast
  rw [hhistory] at hlast ⊢
  by_cases hs : a = .subscribe uri
  · subst hs
    simp [event?, lastCall] at hlast
  · by_cases hu : a = .unsubscribe uri
    · subst hu
      rw [← Option.some.inj hstep]
      refine ⟨not_mem_unsubscribe _ _, fun hmem => ?_⟩
      simp [event?, sinceCall] at hmem
    · rw [lastCall_step hs hu] at hlast
      refine ⟨not_mem_subscriptions_of_released hr hlate hstep hlast hs, fun hmem hasked => ?_⟩
      rcases asked_step hstep hasked with ⟨hasked, hne⟩ | ⟨rfl, -⟩ | ⟨seen, rfl, hsub⟩
      · rcases mem_sinceCall_step hmem with hevent | hmem
        · cases a with
          | connectOnce seen => exact hne seen rfl
          | _ => cases hevent
        · exact (hr uri hlast).2 hmem hasked
      · exact hs rfl
      · exact (hr uri hlast).1 hsub

theorem HandshakeAsks.step (hs : HandshakeAsks s) (h : Hosts.step s a = some s') : HandshakeAsks s' := by
  intro prior hprior uri hasked
  rcases prior_step h hprior with hprior' | ⟨seen, rfl, rfl⟩
  · rcases asked_step h hasked with ⟨hasked, -⟩ | ⟨-, hconnected⟩ | ⟨seen, rfl, hsub⟩
    · exact hs hprior' hasked
    · rw [hconnected] at hprior'
      cases hprior'
    · obtain ⟨habsent, -, -, -⟩ := connectOnce_cases h
      rw [habsent] at hprior'
      cases hprior'
  · rcases asked_step h hasked with ⟨-, hne⟩ | ⟨ha, -⟩ | ⟨-, -, hsub⟩
    · exact absurd rfl (hne seen)
    · cases ha
    · exact hsub

theorem ReleasedAtOnce.step (hr : ReleasedAtOnce r) (hreleased : Released r)
    (hhandshake : HandshakeAsks r.1) (hmid : ¬ UnsubscribesMidHandshake r a)
    (h : runStep r a = some r') : ReleasedAtOnce r' := by
  obtain ⟨hstep, hhistory⟩ := (recorded_eq_some Hosts.step event?).mp h
  intro uri hlast hwhen hasked
  rw [hhistory] at hlast hwhen
  by_cases hs : a = .subscribe uri
  · subst hs
    simp [event?, lastCall] at hlast
  · by_cases hu : a = .unsubscribe uri
    · subst hu
      have hnow : r'.1.connection.prior?.isSome := by
        simpa [event?, sinceCall] using hwhen
      obtain ⟨prior, hprior⟩ := Option.isSome_iff_exists.mp hnow
      have hmem := hhandshake.step hstep hprior hasked
      rcases prior_step hstep hprior with hprior | ⟨seen, ha, -⟩
      · exact hmid ⟨prior, hprior, hmem⟩
      · cases ha
    · rw [lastCall_step hs hu] at hlast
      rcases asked_step hstep hasked with ⟨hasked, hne⟩ | ⟨rfl, -⟩ | ⟨seen, rfl, hsub⟩
      · refine hr uri hlast ?_ hasked
        rcases hwhen with hnow | hmem
        · obtain ⟨prior, hprior⟩ := Option.isSome_iff_exists.mp hnow
          rcases prior_step hstep hprior with hprior | ⟨seen, rfl, -⟩
          · exact .inl (Option.isSome_iff_exists.mpr ⟨prior, hprior⟩)
          · exact absurd rfl (hne seen)
        · rcases mem_sinceCall_step hmem with hevent | hmem
          · cases a with
            | commit =>
              simp only [Hosts.step, commit] at hstep
              split at hstep
              · next hc => exact .inl (by rw [hc]; rfl)
              · cases hstep
            | _ => cases hevent
          · exact .inr hmem
      · exact hs rfl
      · exact (hreleased uri hlast).1 hsub

/-- What holds if no channel is unsubscribed while a handshake asks for it. -/
structure ReleasedStrictly (r : Run) : Prop where
  released : Released r
  handshake : HandshakeAsks r.1
  atOnce : ReleasedAtOnce r

theorem ReleasedStrictly.step (hr : ReleasedStrictly r)
    (hguard : ¬ FinishesLate r a ∧ ¬ UnsubscribesMidHandshake r a)
    (h : runStep r a = some r') : ReleasedStrictly r' where
  released := hr.released.step hguard.1 h
  handshake := HandshakeAsks.step hr.handshake ((recorded_eq_some Hosts.step event?).mp h).1
  atOnce := hr.atOnce.step hr.released hr.handshake hguard.2 h

/-! ### Runs -/

/-- **Unsubscribed channels**: where no `subscribe` goes on late, a channel whose most recent
call was `unsubscribe` is not among the subscriptions and not held on a connection that began
and completed after the call; where besides none is unsubscribed during a handshake that asks
for it, it is not held on a connection that completed after the call. -/
theorem unsubscribed_released (initial : List URI) :
    (∀ as r, Guarded runStep (fun r a => ¬ FinishesLate r a) (Run.new initial) as →
      runs runStep (Run.new initial) as = some r →
      ∀ uri, lastCall uri r.2 = some .unsubscribe → uri ∉ r.1.subscriptions ∧
        (.connecting ∈ sinceCall uri r.2 → uri ∉ r.1.held)) ∧
    ∀ as r,
      Guarded runStep (fun r a => ¬ FinishesLate r a ∧ ¬ UnsubscribesMidHandshake r a)
        (Run.new initial) as →
      runs runStep (Run.new initial) as = some r →
      ∀ uri, lastCall uri r.2 = some .unsubscribe → uri ∉ r.1.subscriptions ∧
        (.connected ∈ sinceCall uri r.2 → uri ∉ r.1.held) := by
  have hstart : Released (Run.new initial) := fun uri hlast => by cases hlast
  have hhandshake : HandshakeAsks (HostRuntime.new initial) := by
    intro prior hprior
    cases hprior
  constructor
  · intro as r hg hrun uri hlast
    have hr : Released r := runs_invariant runStep Released.step hstart hg hrun
    obtain ⟨hsub, hasked⟩ := hr uri hlast
    exact ⟨hsub, fun hmem hheld => hasked hmem (.inl hheld)⟩
  · intro as r hg hrun uri hlast
    have hr : ReleasedStrictly r :=
      runs_invariant runStep ReleasedStrictly.step
        ⟨hstart, hhandshake, fun uri hlast => by cases hlast⟩ hg hrun
    exact ⟨(hr.released uri hlast).1,
      fun hmem hheld => hr.atOnce uri hlast (.inr hmem) (.inl hheld)⟩

/-- A connection is made, which asks for what the supervisor tracks. -/
def connects (tracked : List URI) : List Step :=
  [.connectOnce false, .serve (.initializing tracked), .receive, .commit]

/-- The connection is lost and made again. -/
def reconnects (tracked : List URI) : List Step :=
  [.loseConnection, .tearDownClient] ++ connects tracked

/-- A channel is subscribed, answered and unsubscribed before the connection is lost. -/
def subscribedInTime : List Step :=
  connects [] ++ [.subscribe "ahp-session:/s", .serve .accept, .receive, .finishSubscribe 0,
    .unsubscribe "ahp-session:/s", .serve .accept] ++ reconnects []

/-- Where that run ends. -/
def afterInTime : Run :=
  ({ HostRuntime.new [] with connection := .connected, nextCall := 1 },
    [.connected, .connecting, .call .unsubscribe "ahp-session:/s",
      .call .subscribe "ahp-session:/s", .connected, .connecting])

/-- It stays unsubscribed over the reconnect. -/
theorem unsubscribed_released_reconnect :
    "ahp-session:/s" ∉ afterInTime.1.subscriptions ∧ "ahp-session:/s" ∉ afterInTime.1.held := by
  have h := (unsubscribed_released []).2 subscribedInTime afterInTime (by decide +kernel)
    (by decide +kernel) "ahp-session:/s" (by decide)
  exact ⟨h.1, h.2 (by decide)⟩

/-- The channel is unsubscribed before the response of its `subscribe` comes in: it is tracked
with no call in flight, and the host holds it after the next reconnect. -/
theorem late_response_resubscribes :
    (∃ r, runs runStep (Run.new []) (connects [] ++
        [.subscribe "ahp-session:/s", .serve .accept, .unsubscribe "ahp-session:/s", .receive,
          .finishSubscribe 0, .serve .accept]) = some r ∧
      r.1.calls = [] ∧ lastCall "ahp-session:/s" r.2 = some .unsubscribe ∧
      "ahp-session:/s" ∈ r.1.subscriptions) ∧
    ∃ r, runs runStep (Run.new []) (connects [] ++
        [.subscribe "ahp-session:/s", .serve .accept, .unsubscribe "ahp-session:/s", .receive,
          .finishSubscribe 0, .serve .accept] ++ reconnects ["ahp-session:/s"]) = some r ∧
      r.1.calls = [] ∧ lastCall "ahp-session:/s" r.2 = some .unsubscribe ∧
      r.1.connection = .connected ∧ "ahp-session:/s" ∈ r.1.held := by
  refine ⟨⟨_, rfl, ?_⟩, _, rfl, ?_⟩
  · exact ⟨by decide, by decide, by decide⟩
  · exact ⟨by decide, by decide, by decide, by decide⟩

end AgentHostProtocol.Hosts
