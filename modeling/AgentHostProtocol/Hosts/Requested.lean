import AgentHostProtocol.Hosts.Unsubscribed

/-!
# What a connection was asked for

A supervisor may take `subscribe` calls at any time: on a client it sends the request, and
without one it records the channel for the next connect. Whether every channel it records is
asked for on the connection it ends up with depends on when the call falls into `connectOnce`.

**What is proved** (`subscriptions_requested`): in every run in which no handshake is committed
that misses a channel subscribed during it, and no `subscribe` goes on after a later connection
was opened that did not ask for its channel, every subscription of a connected supervisor was
requested on its connection, and what is recorded while it is not connected is requested by the
next connect that succeeds.

A handshake asks for a copy of the subscriptions that `connectOnce` takes before its awaits
(`subscribed_mid_handshake`): what is recorded between the copy and the commit is tracked, and
asked for by nobody.
-/

namespace AgentHostProtocol.Hosts

open Library

/-! ### Messages sent -/

/-- What a step sends to the host. -/
def sends (s : HostRuntime) : Step → List Request
  | .subscribe uri =>
    if s.shutDown then []
    else
      match s.connection with
      | .connected => [.subscribe uri s.nextCall]
      | _ => []
  | .unsubscribe uri =>
    if s.shutDown then []
    else
      match s.connection with
      | .connected => [.unsubscribe uri]
      | _ => []
  | .connectOnce seen =>
    if seen ∧ s.subscriptions ≠ [] then [.reconnect s.subscriptions]
    else [.initializing s.subscriptions]
  | .receive =>
    match s.inbound, s.connection with
    | .handshakeRefused :: _, .reconnecting prior => [.initializing prior]
    | _, _ => []
  | _ => []

/-- A supervisor with the history of its run and what it sent on its last connection. -/
structure Asking where
  run : Run
  /-- The messages sent since the connection was opened. -/
  sent : List Request
  /-- The first call of `subscribe` that can be made on the connection. -/
  firstCall : ℕ
  deriving DecidableEq

/-- The channels requested on the connection. -/
def Asking.requested (c : Asking) : List URI := c.sent.flatMap Request.channels

/-- The host is in the connected state: a client is installed. -/
def Asking.Connected (c : Asking) : Prop :=
  c.run.1.connection = .connected ∨ c.run.1.connection = .closed

instance (c : Asking) : Decidable c.Connected := inferInstanceAs (Decidable (_ ∨ _))

/-- The start of a run. -/
def Asking.new (initialSubscriptions : List URI) : Asking where
  run := Run.new initialSubscriptions
  sent := []
  firstCall := 0

/-- A step with what it sends. -/
def askStep (c : Asking) (a : Step) : Option Asking :=
  (runStep c.run a).map fun run =>
    match a with
    | .connectOnce _ => { run := run, sent := sends c.run.1 a, firstCall := c.run.1.nextCall }
    | _ => { c with run := run, sent := c.sent ++ sends c.run.1 a }

/-! ### The conditions -/

/-- The channels subscribed, and not unsubscribed again, since the last handshake was sent. -/
def calledMidHandshake : List Event → List URI
  | [] | .connecting :: _ => []
  | .call .subscribe uri :: history => uri :: calledMidHandshake history
  | .call .unsubscribe uri :: history => untrackSubscription (calledMidHandshake history) uri
  | .connected :: history => calledMidHandshake history

/-- A handshake is committed though a channel was subscribed during it that it did not ask
for. -/
def MissesSubscription (c : Asking) : Step → Prop
  | .commit => ∃ prior ∈ c.run.1.connection.prior?, ∃ uri ∈ calledMidHandshake c.run.2, uri ∉ prior
  | _ => False

instance (c : Asking) : DecidablePred (MissesSubscription c)
  | .commit => inferInstanceAs (Decidable (∃ _ ∈ _, _))
  | .subscribe _ | .unsubscribe _ | .finishSubscribe _ | .timeOut _ | .shutDown | .connectOnce _
  | .abortConnect | .loseConnection | .tearDownClient | .receive | .serve _ =>
    inferInstanceAs (Decidable False)

/-- A call of `subscribe` goes on after a later connection was opened that did not ask for its
channel. -/
def FinishesOnLaterConnection (c : Asking) : Step → Prop
  | .finishSubscribe id =>
    c.run.1.connection ≠ .absent ∧
      ∃ call ∈ c.run.1.calls.find? fun call => call.id = id && call.answered,
        call.id < c.firstCall ∧ call.uri ∉ c.requested
  | _ => False

instance (c : Asking) : DecidablePred (FinishesOnLaterConnection c)
  | .finishSubscribe _ => inferInstanceAs (Decidable (_ ∧ ∃ _ ∈ _, _))
  | .subscribe _ | .unsubscribe _ | .timeOut _ | .shutDown | .connectOnce _ | .commit
  | .abortConnect | .loseConnection | .tearDownClient | .receive | .serve _ =>
    inferInstanceAs (Decidable False)

/-- What a run must avoid for its subscriptions to be requested. -/
def AsksInTime (c : Asking) (a : Step) : Prop :=
  ¬ MissesSubscription c a ∧ ¬ FinishesOnLaterConnection c a

instance (c : Asking) (a : Step) : Decidable (AsksInTime c a) := inferInstanceAs (Decidable (_ ∧ _))

/-! ### Steps -/

variable {s s' : HostRuntime} {a : Step} {uri : URI}

theorem sends_receive_eq_nil {message : Response} {inbound : List Response}
    (hin : s.inbound = message :: inbound)
    (hnot : message = .handshakeRefused → ∀ prior, s.connection ≠ .reconnecting prior) :
    sends s .receive = [] := by
  unfold sends
  rw [hin]
  cases message with
  | handshakeRefused =>
    cases hc : s.connection with
    | reconnecting prior => exact absurd hc (hnot rfl prior)
    | absent | initializing prior | refreshing prior result | connected | closed => rfl
  | reconnected result | initialized | subscribed call | subscribeRefused call => rfl

/-- What is on its way to the host after a step: some of what was, then what the step sends. -/
theorem outbound_step (h : step s a = some s') :
    ∃ kept, kept <:+ s.outbound ∧ s'.outbound = kept ++ sends s a := by
  have hall : s.outbound <:+ s.outbound := List.suffix_refl _
  have hnone : [] <:+ s.outbound := List.nil_suffix
  cases a with
  | subscribe u =>
    cases h
    refine ⟨s.outbound, hall, ?_⟩
    unfold subscribe sends
    split
    · simp
    · split <;> simp_all
  | unsubscribe u =>
    cases h
    refine ⟨s.outbound, hall, ?_⟩
    unfold unsubscribe sends
    split
    · simp
    · split <;> simp_all
  | finishSubscribe id =>
    obtain ⟨call, -, rfl⟩ := Option.map_eq_some_iff.mp h
    exact ⟨s.outbound, hall, by simp [finishSubscribe, sends]⟩
  | timeOut id | shutDown =>
    cases h
    exact ⟨s.outbound, hall, by simp [sends]⟩
  | connectOnce seen =>
    obtain ⟨-, -, -, hout⟩ := connectOnce_cases h
    refine ⟨[], hnone, ?_⟩
    rw [hout]
    by_cases hseen : seen = true ∧ s.subscriptions ≠ [] <;> simp [sends, hseen]
  | commit =>
    simp only [step, commit] at h
    split at h <;> cases h
    exact ⟨s.outbound, hall, by simp [sends]⟩
  | abortConnect | loseConnection | tearDownClient =>
    obtain ⟨-, rfl | ⟨-, rfl⟩⟩ := lost_cases (by simp) h <;>
      exact ⟨[], hnone, by simp [sends, dropTransport]⟩
  | receive =>
    obtain ⟨message, inbound, hin, hcases⟩ := receive_cases h
    rcases hcases with ⟨connection, -, -, hnot, rfl⟩ | ⟨prior, rfl, hc, rfl⟩ | ⟨prior, hc, rfl⟩ | ⟨calls, hnot, -, rfl⟩
    · exact ⟨s.outbound, hall, by simp [sends_receive_eq_nil hin hnot]⟩
    · exact ⟨s.outbound, hall, by simp [sends, hin, hc]⟩
    · exact ⟨[], hnone, by simp [sends, hc, dropTransport]⟩
    · exact ⟨s.outbound, hall, by simp [sends_receive_eq_nil hin (absurd · hnot)]⟩
  | serve answer =>
    obtain ⟨message, outbound, held, inbound, hout, -, rfl⟩ := serve_cases h
    exact ⟨outbound, hout ▸ List.suffix_cons message outbound, by simp [sends]⟩

/-- Where the connection is after a step. -/
theorem connection_step (h : step s a = some s') :
    s'.connection = .absent ∨ (∃ seen, a = .connectOnce seen) ∨
      (∃ prior, s.connection.prior? = some prior ∧ a = .commit ∧ s'.connection = .connected) ∨
      (s.connection ≠ .absent ∧ s'.connection.prior? = s.connection.prior?) := by
  by_cases habsent : s'.connection = .absent
  · exact .inl habsent
  right
  cases a with
  | connectOnce seen => exact .inl ⟨seen, rfl⟩
  | commit =>
    simp only [step, commit] at h
    split at h
    · next prior result hc =>
      cases h
      exact .inr (.inl ⟨prior, by rw [hc]; rfl, rfl, rfl⟩)
    · cases h
  | subscribe u | unsubscribe u =>
    cases h
    right
    right
    simpa using habsent
  | finishSubscribe id =>
    obtain ⟨call, -, rfl⟩ := Option.map_eq_some_iff.mp h
    exact .inr (.inr ⟨habsent, rfl⟩)
  | timeOut id | shutDown =>
    cases h
    exact .inr (.inr ⟨habsent, rfl⟩)
  | abortConnect | loseConnection | tearDownClient =>
    obtain ⟨hne, rfl | ⟨hc, rfl⟩⟩ := lost_cases (by simp) h
    · exact absurd rfl habsent
    · exact .inr (.inr ⟨hne, by rw [hc]; rfl⟩)
  | receive =>
    right
    right
    obtain ⟨message, inbound, -, hcases⟩ := receive_cases h
    rcases hcases with ⟨connection, hprior, hiff, -, rfl⟩ | ⟨prior, -, hc, rfl⟩ | ⟨prior, -, rfl⟩ | ⟨calls, -, -, rfl⟩
    · exact ⟨fun hc => habsent (hiff.mpr hc), hprior⟩
    · exact ⟨by simp [hc], by rw [hc]; rfl⟩
    · exact absurd rfl habsent
    · exact ⟨habsent, rfl⟩
  | serve answer =>
    have hc := serve_connection h
    exact .inr (.inr ⟨hc ▸ habsent, by rw [hc]⟩)

/-- A call in flight was in flight before the step, or the step makes it and sends its
request. -/
theorem mem_calls_step {call : Call} (h : step s a = some s') (hcall : call ∈ s'.calls) :
    (∃ old ∈ s.calls, old.id = call.id ∧ old.uri = call.uri) ∨
      (call.id = s.nextCall ∧ s'.nextCall = s.nextCall + 1 ∧ .subscribe call.uri s.nextCall ∈ sends s a) := by
  have hsame : call ∈ s.calls → ∃ old ∈ s.calls, old.id = call.id ∧ old.uri = call.uri :=
    fun hc => ⟨call, hc, rfl, rfl⟩
  have hmem : ∀ {P : Call → Bool}, call ∈ s.calls.filter P →
      ∃ old ∈ s.calls, old.id = call.id ∧ old.uri = call.uri :=
    fun hc => hsame (List.mem_of_mem_filter hc)
  cases a with
  | subscribe u =>
    cases h
    unfold subscribe at hcall
    unfold subscribe sends
    split at hcall
    · exact .inl (hsame hcall)
    · next hdown =>
      simp only [hdown]
      split at hcall
      · next hc =>
        rcases List.mem_append.mp hcall with hcall | hcall
        · exact .inl (hsame hcall)
        · rw [List.mem_singleton.mp hcall]
          exact .inr ⟨rfl, by simp [hc], by simp [hc]⟩
      · exact .inl (hsame hcall)
      · exact .inl (hsame hcall)
  | unsubscribe u =>
    cases h
    left
    unfold unsubscribe at hcall
    split at hcall
    · exact hsame hcall
    · split at hcall <;> exact hsame hcall
  | finishSubscribe id =>
    obtain ⟨call', -, rfl⟩ := Option.map_eq_some_iff.mp h
    exact .inl (hmem hcall)
  | timeOut id =>
    cases h
    exact .inl (hmem hcall)
  | shutDown =>
    cases h
    exact .inl (hsame hcall)
  | connectOnce seen =>
    obtain ⟨-, -, hs', -⟩ := connectOnce_cases h
    rw [hs'] at hcall
    exact .inl (hsame hcall)
  | commit =>
    simp only [step, commit] at h
    split at h <;> cases h
    exact .inl (hsame hcall)
  | abortConnect | loseConnection | tearDownClient =>
    obtain ⟨-, rfl | ⟨-, rfl⟩⟩ := lost_cases (by simp) h <;> exact .inl (hmem hcall)
  | receive =>
    left
    obtain ⟨_, _, -, ⟨_, -, -, -, rfl⟩ | ⟨_, -, -, rfl⟩ | ⟨_, -, rfl⟩ | ⟨calls, -, hold, rfl⟩⟩ := receive_cases h
    · exact hsame hcall
    · exact hsame hcall
    · exact hmem hcall
    · exact hold call hcall
  | serve answer =>
    obtain ⟨_, _, _, _, -, -, rfl⟩ := serve_cases h
    exact .inl (hsame hcall)

theorem nextCall_step (h : step s a = some s') : s.nextCall ≤ s'.nextCall := by
  cases a with
  | subscribe u =>
    cases h
    unfold subscribe
    split
    · exact le_rfl
    · split
      · exact Nat.le_succ _
      · exact le_rfl
      · exact le_rfl
  | unsubscribe u =>
    cases h
    unfold unsubscribe
    split
    · exact le_rfl
    · split <;> exact le_rfl
  | finishSubscribe id =>
    obtain ⟨call', -, rfl⟩ := Option.map_eq_some_iff.mp h
    exact le_rfl
  | timeOut id | shutDown =>
    cases h
    exact le_rfl
  | connectOnce seen =>
    obtain ⟨-, -, hs', -⟩ := connectOnce_cases h
    rw [hs']
  | commit =>
    simp only [step, commit] at h
    split at h <;> cases h
    exact le_rfl
  | abortConnect | loseConnection | tearDownClient =>
    obtain ⟨-, rfl | ⟨-, rfl⟩⟩ := lost_cases (by simp) h <;> exact le_rfl
  | receive =>
    obtain ⟨_, _, -, ⟨_, -, -, -, rfl⟩ | ⟨_, -, -, rfl⟩ | ⟨_, -, rfl⟩ | ⟨_, -, -, rfl⟩⟩ := receive_cases h <;>
      exact le_rfl
  | serve answer =>
    obtain ⟨_, _, _, _, -, -, rfl⟩ := serve_cases h
    exact le_rfl

variable {c c' : Asking}

theorem askStep_cases (h : askStep c a = some c') : runStep c.run a = some c'.run ∧
    ((∃ seen, a = .connectOnce seen ∧ c'.sent = sends c.run.1 a ∧ c'.firstCall = c.run.1.nextCall) ∨
      ((∀ seen, a ≠ .connectOnce seen) ∧ c'.sent = c.sent ++ sends c.run.1 a ∧
        c'.firstCall = c.firstCall)) := by
  obtain ⟨run, hrun, rfl⟩ := Option.map_eq_some_iff.mp h
  cases a with
  | connectOnce seen => exact ⟨hrun, .inl ⟨seen, rfl, rfl, rfl⟩⟩
  | _ => exact ⟨hrun, .inr ⟨nofun, rfl, rfl⟩⟩

theorem mem_requested_of_sends {message : Request} (hsent : c'.sent = c.sent ++ sends c.run.1 a)
    (hm : message ∈ sends c.run.1 a) (hu : uri ∈ message.channels) : uri ∈ c'.requested := by
  unfold Asking.requested
  rw [hsent, List.mem_flatMap]
  exact ⟨message, List.mem_append_right _ hm, hu⟩

theorem requested_append (hsent : c'.sent = c.sent ++ sends c.run.1 a) (hu : uri ∈ c.requested) :
    uri ∈ c'.requested := by
  unfold Asking.requested at hu ⊢
  rw [hsent, List.flatMap_append]
  exact List.mem_append_left _ hu

/-- A handshake asks for the subscriptions. -/
theorem mem_requested_of_connectOnce {seen : Bool} (hsent : c'.sent = sends c.run.1 (.connectOnce seen))
    (hu : uri ∈ c.run.1.subscriptions) : uri ∈ c'.requested := by
  unfold Asking.requested
  rw [hsent]
  by_cases hseen : seen = true ∧ c.run.1.subscriptions ≠ []
  · simpa [sends, hseen, Request.channels] using hu
  · simpa [sends, hseen, Request.channels] using hu

/-- What was called during a handshake stays so until it is unsubscribed or the next handshake. -/
theorem mem_calledMidHandshake_step {history : List Event} (hu : a ≠ .unsubscribe uri)
    (hc : ∀ seen, a ≠ .connectOnce seen) (h : uri ∈ calledMidHandshake history) :
    uri ∈ calledMidHandshake ((event? a).toList ++ history) := by
  cases a with
  | subscribe u => exact List.mem_cons_of_mem _ h
  | unsubscribe u => exact mem_untrackSubscription.mpr ⟨h, fun heq => hu (heq ▸ rfl)⟩
  | connectOnce seen => exact absurd rfl (hc seen)
  | _ => exact h

/-! ### The invariant -/

/-- A subscription is requested on the connection, or was recorded during its handshake. -/
def Covered (c : Asking) (uri : URI) : Prop :=
  uri ∈ c.requested ∨ c.run.1.connection.prior?.isSome ∧ uri ∈ calledMidHandshake c.run.2

/-- What holds in a run that asks in time. -/
structure Asks (c : Asking) : Prop where
  /-- The subscriptions of a supervisor with a transport are covered. -/
  covered : c.run.1.connection ≠ .absent → ∀ uri ∈ c.run.1.subscriptions, Covered c uri
  /-- A handshake has asked for its copy of the subscriptions. -/
  prior : ∀ prior ∈ c.run.1.connection.prior?, ∀ uri ∈ prior, uri ∈ c.requested
  /-- The calls made on the connection have sent their requests. -/
  calls : ∀ call ∈ c.run.1.calls, c.firstCall ≤ call.id → call.uri ∈ c.requested
  /-- Calls are numbered as they are made. -/
  numbered : ∀ call ∈ c.run.1.calls, call.id < c.run.1.nextCall

theorem asks_new (initial : List URI) : Asks (Asking.new initial) where
  covered h := absurd rfl h
  prior := nofun
  calls := nofun
  numbered := nofun

theorem numbered_step (hn : ∀ call ∈ s.calls, call.id < s.nextCall) (h : step s a = some s') :
    ∀ call ∈ s'.calls, call.id < s'.nextCall := by
  intro call hcall
  rcases mem_calls_step h hcall with ⟨old, hold, hid, -⟩ | ⟨hid, hnext, -⟩
  · have hlt := hn old hold
    have hle := nextCall_step h
    omega
  · omega

theorem Asks.calls_step (hc : Asks c) (h : step c.run.1 a = some c'.run.1)
    (hsent : c'.sent = c.sent ++ sends c.run.1 a) (hfirst : c'.firstCall = c.firstCall) :
    ∀ call ∈ c'.run.1.calls, c'.firstCall ≤ call.id → call.uri ∈ c'.requested := by
  intro call hcall hle
  rcases mem_calls_step h hcall with ⟨old, hold, hid, huri⟩ | ⟨-, -, hsends⟩
  · rw [← huri]
    exact requested_append hsent (hc.calls old hold (by omega))
  · exact mem_requested_of_sends hsent hsends (by simp [Request.channels])

/-- A call of `subscribe` with a transport sends its request, or is made during the handshake,
or records nothing. -/
theorem covered_of_subscribe (hsent : c'.sent = c.sent ++ sends c.run.1 (.subscribe uri))
    (hrun : runStep c.run (.subscribe uri) = some c'.run) (hne : c'.run.1.connection ≠ .absent) :
    uri ∈ c.run.1.subscriptions ∨ uri ∉ c'.run.1.subscriptions ∨ Covered c' uri := by
  obtain ⟨hstep, hhistory⟩ := (recorded_eq_some Hosts.step event?).mp hrun
  have hs' : subscribe c.run.1 uri = c'.run.1 := Option.some.inj hstep
  have hconnection : c'.run.1.connection = c.run.1.connection := by rw [← hs', subscribe_connection]
  by_cases hmem : uri ∈ c.run.1.subscriptions
  · exact .inl hmem
  right
  by_cases hdown : c.run.1.shutDown
  · left
    rw [← hs']
    simpa [subscribe, hdown] using hmem
  · have hmid : c.run.1.connection.prior?.isSome → Covered c' uri := fun hp => by
      refine .inr ⟨by rw [hconnection]; exact hp, ?_⟩
      rw [hhistory]
      exact List.mem_cons_self
    cases hc : c.run.1.connection with
    | absent => exact absurd (hconnection.trans hc) hne
    | connected =>
      have hsends : .subscribe uri c.run.1.nextCall ∈ sends c.run.1 (.subscribe uri) := by
        simp [sends, hdown, hc]
      exact .inr (.inl (mem_requested_of_sends hsent hsends (by simp [Request.channels])))
    | closed =>
      left
      rw [← hs']
      simpa [subscribe, hdown, hc] using hmem
    | reconnecting prior | initializing prior | refreshing prior result =>
      exact .inr (hmid (by rw [hc]; rfl))

theorem Asks.covered_step (hc : Asks c) (hguard : AsksInTime c a)
    (hrun : runStep c.run a = some c'.run) (hne : ∀ seen, a ≠ .connectOnce seen)
    (hsent : c'.sent = c.sent ++ sends c.run.1 a) (hconnection : c'.run.1.connection ≠ .absent)
    (hu : uri ∈ c'.run.1.subscriptions) : Covered c' uri := by
  obtain ⟨hstep, hhistory⟩ := (recorded_eq_some Hosts.step event?).mp hrun
  have hkept : uri ∈ c.run.1.subscriptions → Covered c' uri := by
    intro hmem
    rcases connection_step hstep with habsent | ⟨seen, ha⟩ | ⟨prior, hprior, rfl, -⟩ | ⟨hpresent, hprior⟩
    · exact absurd habsent hconnection
    · exact absurd ha (hne seen)
    · -- what a handshake was called for in time, it asked for
      left
      have hpresent : c.run.1.connection ≠ .absent := fun habsent => by
        rw [habsent] at hprior
        cases hprior
      rcases hc.covered hpresent uri hmem with hreq | ⟨-, hmid⟩
      · exact requested_append hsent hreq
      · refine requested_append hsent (hc.prior prior hprior uri ?_)
        by_contra hnot
        exact hguard.1 ⟨prior, hprior, uri, hmid, hnot⟩
    · rcases hc.covered hpresent uri hmem with hreq | ⟨hsome, hmid⟩
      · exact .inl (requested_append hsent hreq)
      · refine .inr ⟨hprior ▸ hsome, ?_⟩
        rw [hhistory]
        refine mem_calledMidHandshake_step (fun ha => ?_) hne hmid
        subst ha
        rw [← Option.some.inj hstep] at hu
        exact not_mem_unsubscribe _ _ hu
  rcases mem_subscriptions_step hstep hu with hmem | rfl | ⟨id, call, rfl, hcall, rfl⟩
  · exact hkept hmem
  · rcases covered_of_subscribe hsent hrun hconnection with hmem | hnot | hcovered
    · exact hkept hmem
    · exact absurd hu hnot
    · exact hcovered
  · have hpresent : c.run.1.connection ≠ .absent := by
      obtain ⟨call', -, hs'⟩ := Option.map_eq_some_iff.mp hstep
      rw [← hs'] at hconnection
      exact hconnection
    left
    apply requested_append hsent
    by_cases hold : call.id < c.firstCall
    · by_contra hnot
      exact hguard.2 ⟨hpresent, call, hcall, hold, hnot⟩
    · exact hc.calls call (List.mem_of_find?_eq_some hcall) (by omega)

theorem Asks.step (hc : Asks c) (hguard : AsksInTime c a) (h : askStep c a = some c') : Asks c' := by
  obtain ⟨hrun, hcases⟩ := askStep_cases h
  obtain ⟨hstep, hhistory⟩ := (recorded_eq_some Hosts.step event?).mp hrun
  have hnumbered := numbered_step hc.numbered hstep
  rcases hcases with ⟨seen, rfl, hsent, hfirst⟩ | ⟨hne, hsent, hfirst⟩
  · obtain ⟨-, hprior, hs', -⟩ := connectOnce_cases hstep
    refine ⟨fun _ uri hu => .inl ?_, fun prior hp uri hu => ?_, fun call hcall hle => ?_, hnumbered⟩
    · rw [hs'] at hu
      exact mem_requested_of_connectOnce hsent hu
    · cases hprior.symm.trans hp
      exact mem_requested_of_connectOnce hsent hu
    · rw [hs'] at hcall
      have hlt := hc.numbered call hcall
      omega
  · refine ⟨fun hpresent uri hu => hc.covered_step hguard hrun hne hsent hpresent hu,
      fun prior hp uri hu => ?_, hc.calls_step hstep hsent hfirst, hnumbered⟩
    rcases prior_step hstep hp with hold | ⟨seen, ha, -⟩
    · exact requested_append hsent (hc.prior prior hold uri hu)
    · exact absurd ha (hne seen)

/-! ### Runs -/

/-- Only `unsubscribe` and a commit drop a subscription. -/
theorem subscriptions_kept_step (hcommit : a ≠ .commit) (hun : a ≠ .unsubscribe uri)
    (h : step s a = some s') (hu : uri ∈ s.subscriptions) : uri ∈ s'.subscriptions := by
  cases a with
  | subscribe u =>
    cases h
    unfold subscribe
    split
    · exact hu
    · split
      · exact hu
      · exact hu
      · exact mem_trackSubscription.mpr (.inl hu)
  | unsubscribe u =>
    cases h
    have hmem : uri ∈ untrackSubscription s.subscriptions u :=
      mem_untrackSubscription.mpr ⟨hu, fun heq => hun (heq ▸ rfl)⟩
    unfold unsubscribe
    split
    · exact hmem
    · split <;> exact hmem
  | finishSubscribe id =>
    obtain ⟨call, -, rfl⟩ := Option.map_eq_some_iff.mp h
    exact mem_trackSubscription.mpr (.inl hu)
  | timeOut id | shutDown =>
    cases h
    exact hu
  | connectOnce seen =>
    obtain ⟨-, -, hs', -⟩ := connectOnce_cases h
    rw [hs']
    exact hu
  | commit => exact absurd rfl hcommit
  | abortConnect | loseConnection | tearDownClient =>
    obtain ⟨-, rfl | ⟨-, rfl⟩⟩ := lost_cases (by simp) h <;> exact hu
  | receive =>
    obtain ⟨_, _, -, ⟨_, -, -, -, rfl⟩ | ⟨_, -, -, rfl⟩ | ⟨_, -, rfl⟩ | ⟨_, -, -, rfl⟩⟩ := receive_cases h <;>
      exact hu
  | serve answer =>
    obtain ⟨_, _, _, _, -, -, rfl⟩ := serve_cases h
    exact hu

theorem subscriptions_kept {as : List Step} (hcommit : .commit ∉ as) (hun : .unsubscribe uri ∉ as)
    (hr : runs askStep c as = some c') (hu : uri ∈ c.run.1.subscriptions) :
    uri ∈ c'.run.1.subscriptions := by
  induction as generalizing c with
  | nil =>
    cases hr
    exact hu
  | cons a as ih =>
    obtain ⟨d, hd, hr⟩ := (runs_cons_eq_some askStep).mp hr
    obtain ⟨hstep, -⟩ := (recorded_eq_some step event?).mp (askStep_cases hd).1
    refine ih (fun h => hcommit (List.mem_cons_of_mem _ h)) (fun h => hun (List.mem_cons_of_mem _ h)) hr ?_
    exact subscriptions_kept_step (fun h => hcommit (h ▸ List.mem_cons_self))
      (fun h => hun (h ▸ List.mem_cons_self)) hstep hu

/-- A commit in time has asked for what is recorded. -/
theorem Asks.commit (hc : Asks c) (hguard : AsksInTime c .commit) (h : askStep c .commit = some c')
    (hu : uri ∈ c.run.1.subscriptions) : uri ∈ c'.requested := by
  obtain ⟨hrun, hcases⟩ := askStep_cases h
  obtain ⟨hstep, -⟩ := (recorded_eq_some Hosts.step event?).mp hrun
  rcases hcases with ⟨seen, ha, -⟩ | ⟨-, hsent, -⟩
  · cases ha
  simp only [Hosts.step, Hosts.commit] at hstep
  split at hstep
  · next prior result hconnection =>
    have hprior : c.run.1.connection.prior? = some prior := by rw [hconnection]; rfl
    apply requested_append hsent
    rcases hc.covered (by simp [hconnection]) uri hu with hreq | ⟨-, hmid⟩
    · exact hreq
    · refine hc.prior prior hprior uri ?_
      by_contra hnot
      exact hguard.1 ⟨prior, hprior, uri, hmid, hnot⟩
  · cases hstep

theorem Asks.requested_of_connected (hc : Asks c) (hconnected : c.Connected)
    (hu : uri ∈ c.run.1.subscriptions) : uri ∈ c.requested := by
  have hpresent : c.run.1.connection ≠ .absent := fun habsent => by
    rcases hconnected with h | h <;> cases habsent.symm.trans h
  rcases hc.covered hpresent uri hu with hreq | ⟨hsome, -⟩
  · exact hreq
  · rcases hconnected with h | h <;> (rw [h] at hsome; cases hsome)

/-- **Requested channels**: where every handshake that is committed asked for what was
subscribed during it, and no `subscribe` goes on after a later connection that did not ask for
its channel, the subscriptions of a connected supervisor were requested on its connection, and
a recorded channel is requested by the next connect that succeeds. -/
theorem subscriptions_requested :
    ∀ initial as c, Guarded askStep AsksInTime (Asking.new initial) as →
      runs askStep (Asking.new initial) as = some c →
      (c.Connected → ∀ uri ∈ c.run.1.subscriptions, uri ∈ c.requested) ∧
      ∀ uri ∈ c.run.1.subscriptions, ∀ bs c', .commit ∉ bs → .unsubscribe uri ∉ bs →
        Guarded askStep AsksInTime c (bs ++ [.commit]) →
        runs askStep c (bs ++ [.commit]) = some c' → uri ∈ c'.requested := by
  intro initial as c hg hrun
  have hc : Asks c := runs_invariant askStep Asks.step (asks_new initial) hg hrun
  refine ⟨fun hconnected uri hu => hc.requested_of_connected hconnected hu, ?_⟩
  intro uri hu bs c' hcommit hun hg' hrun'
  obtain ⟨d, hd, hlast⟩ := (runs_append_eq_some askStep).mp hrun'
  obtain ⟨hguards, hend⟩ := hg'.append
  obtain ⟨e, he, hnil⟩ := (runs_cons_eq_some askStep).mp hlast
  cases hnil
  have hasks : Asks d := runs_invariant askStep Asks.step hc hguards hd
  exact hasks.commit (hend d hd).1 he (subscriptions_kept hcommit hun hd hu)

/-- A supervisor that recorded a channel before it connected. -/
def recordedFirst : Asking :=
  { run := ({ HostRuntime.new ["ahp-session:/s"] with connection := .connected, held := ["ahp-session:/s"] },
      [.connected, .connecting, .call .subscribe "ahp-session:/s"])
    sent := [.initializing ["ahp-session:/s"]]
    firstCall := 0 }

/-- Its connection asked for the channel. -/
theorem subscriptions_requested_first : "ahp-session:/s" ∈ recordedFirst.requested :=
  (subscriptions_requested [] (.subscribe "ahp-session:/s" :: connects ["ahp-session:/s"]) recordedFirst
    (by decide +kernel) (by decide +kernel)).1 (by decide) "ahp-session:/s" (by decide)

/-- The channel is recorded while `initialize` is in flight: the supervisor ends up connected
and tracks it, and never asked the host for it. -/
theorem subscribed_mid_handshake :
    ∃ c, runs askStep (Asking.new [])
        [.connectOnce false, .subscribe "ahp-session:/s", .serve (.initializing []), .receive, .commit] =
          some c ∧
      c.Connected ∧ "ahp-session:/s" ∈ c.run.1.subscriptions ∧ "ahp-session:/s" ∉ c.requested := by
  refine ⟨_, rfl, ?_⟩
  exact ⟨by decide, by decide, by decide⟩

end AgentHostProtocol.Hosts
