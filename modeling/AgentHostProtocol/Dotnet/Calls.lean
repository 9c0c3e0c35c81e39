import AgentHostProtocol.Dotnet.Answered

/-!
# The steps of the calls of the .NET client

The invariant of the client, and that each step of a call keeps it. A handle is in the registries,
or the teardown is about to close it, or it belongs to a `SubscribeAsync` that cannot succeed any
more. `InTime` says which actions leave no one behind.
-/

namespace AgentHostProtocol.Dotnet.Client

open Library

/-- The call whose step it is. -/
def Act.caller : Act → Option ℕ
  | .check i _ | .insert i | .recheck i _ | .enqueue i | .refused i | .wasSent i | .receive i _
  | .fail i | .closeSub i => some i
  | _ => none

theorem Teardown.started_of_hasFailed {t : Teardown} (h : t.hasFailed = true) : t.started = true := by
  cases t with
  | closing left => rfl
  | finished => rfl
  | _ => cases h

/-- The message that the writer holds. -/
def Writer.message? : Writer → Option ℕ
  | .sending i => some i
  | _ => none

namespace State

/-- No frame of a call is in the channel. -/
def NoneLeft (s : State) : Prop := ∀ i ∈ s.outbound, s.isReply i = true

instance (s : State) : Decidable s.NoneLeft := inferInstanceAs (Decidable (∀ i ∈ s.outbound, _))

/-- No request under way has the id that is minted next. -/
def Fresh (s : State) : Prop :=
  ∀ other ∈ s.calls, other.pc.isReturned = true ∨ other.id ≠ some s.nextId

instance (s : State) : Decidable s.Fresh := inferInstanceAs (Decidable (∀ other ∈ s.calls, _))

/-- The action leaves no one behind. -/
def InTime (s : State) : Act → Prop
  | .check i _ =>
    s.teardown.started = false → (s.calls[i]?).any (·.kind = .request) = true → s.Fresh
  | .enqueue i => s.writer.stopped = true → s.isReply i = true
  | .writerStop => s.NoneLeft
  | .writerSend .sent => True
  | .writerSend .encodeError => s.NoneLeft ∧ (s.writer.message?).all s.isReply = true
  | .writerSend .cancelled | .writerSend .failed => s.NoneLeft
  | .attachSubscription _ | .createEventStream => s.teardown.hasFailed = false
  | .joined _ => s.teardown = .finished
  | _ => True

instance (s : State) (a : Act) : Decidable (InTime s a) := by
  unfold InTime
  split <;> infer_instance

/-- The handle does not go to the application any more. -/
def Withheld (s : State) (k : ℕ) : Prop :=
  s.teardown.started = true ∧ (∀ h, s.handles[k]? = some h → h.returned = false) ∧
    ∀ {i : ℕ} {call : Call}, s.calls[i]? = some call → call.sub = some k → call.pc.hopeless = true

/-- The invariant of the handles. -/
structure Tended (s : State) : Prop where
  sub : ∀ {i k : ℕ} {call : Call}, s.calls[i]? = some call → call.sub = some k → k < s.handles.length
  kept : ∀ {k : ℕ} {h : Handle}, s.handles[k]? = some h → h.closed = false →
    s.teardown.hasFailed = false ∧ k ∈ s.registered ∨
      (∃ left, s.teardown = .closing left ∧ k ∈ left) ∨ s.Withheld k

/-- Who runs the teardown is in it until its end, and once a `ShutdownAsync` has returned
everything is over. -/
def Joined (s : State) : Prop :=
  (∀ c : ℕ, s.shutdowns[c]? = some .returned →
    s.teardown = .finished ∧ s.reader = .returned ∧ s.writer = .returned) ∧
  (s.teardown.started = true → s.teardown ≠ .finished →
    (s.runner = .reader → s.reader = .tearingDown) ∧ (s.runner = .writer → s.writer = .tearingDown))

/-- The invariant of the client. -/
structure Sound (s : State) : Prop where
  answered : Answered s
  written : Written s
  tended : Tended s
  joined : Joined s

theorem sound_connected : Sound connected where
  answered := answered_connected
  written := written_connected
  tended := ⟨fun h => by simp [connected] at h, fun h => by simp [connected] at h⟩
  joined := ⟨fun c h => by simp [connected] at h, fun h => by cases h⟩

/-! ### Handles -/

theorem Tended.of_eq {s s' : State} (ht : Tended s) (hcalls : s'.calls = s.calls)
    (hteardown : s'.teardown = s.teardown) (hhandles : s'.handles = s.handles)
    (hregistered : s'.registered = s.registered) : Tended s' := by
  constructor
  · intro i k call hc hsub
    rw [hcalls] at hc
    rw [hhandles]
    exact ht.sub hc hsub
  · intro k h hk hopen
    rw [hhandles] at hk
    have hkept := ht.kept hk hopen
    unfold Withheld at hkept ⊢
    rw [hcalls, hteardown, hhandles, hregistered]
    exact hkept

theorem Tended.set {s : State} (ht : Tended s) {i : ℕ} {call call' : Call}
    (hc : s.calls[i]? = some call) (hadv : call.Advances s.teardown.started call') :
    Tended (s.setCall i call') := by
  constructor
  · intro j k other ho hsub
    rcases getElem?_set_eq_some ho with ⟨rfl, rfl⟩ | ⟨-, ho⟩
    · exact ht.sub hc (hadv.sub ▸ hsub)
    · exact ht.sub ho hsub
  · intro k h hk hopen
    rcases ht.kept hk hopen with hreg | hleft | ⟨hstarted, hnot, hhopeless⟩
    · exact .inl hreg
    · exact .inr (.inl hleft)
    · refine .inr (.inr ⟨hstarted, hnot, fun ho hsub => ?_⟩)
      rcases getElem?_set_eq_some ho with ⟨rfl, rfl⟩ | ⟨-, ho⟩
      · exact hadv.hopeless hstarted (hhopeless hc (hadv.sub ▸ hsub))
      · exact hhopeless ho hsub

theorem Tended.newCall {s : State} (ht : Tended s) (kind : Kind) : Tended (s.newCall kind none) := by
  constructor
  · intro j k other ho hsub
    rcases getElem?_concat_eq_some ho with ⟨-, rfl⟩ | ho
    · cases hsub
    · exact ht.sub ho hsub
  · intro k h hk hopen
    rcases ht.kept hk hopen with hreg | hleft | ⟨hstarted, hnot, hhopeless⟩
    · exact .inl hreg
    · exact .inr (.inl hleft)
    · refine .inr (.inr ⟨hstarted, hnot, fun ho hsub => ?_⟩)
      rcases getElem?_concat_eq_some ho with ⟨-, rfl⟩ | ho
      · rfl
      · exact hhopeless ho hsub

/-- A handle is added. -/
theorem Tended.attach {s : State} (ht : Tended s) {h : Handle} {subscriptions : List (String × ℕ)}
    {eventListeners : List ℕ}
    (hregistered : ∀ k ∈ s.registered, k ∈ subscriptions.map Prod.snd ++ eventListeners)
    (hnew : s.handles.length ∈ subscriptions.map Prod.snd ++ eventListeners)
    (hlate : s.teardown.hasFailed = true → h.returned = false) :
    Tended { s with
      handles := s.handles ++ [h], subscriptions := subscriptions,
      eventListeners := eventListeners } := by
  have hlt : ∀ {i k : ℕ} {call : Call}, s.calls[i]? = some call → call.sub = some k →
      k < (s.handles ++ [h]).length := by
    intro i k call hc hsub
    have := ht.sub hc hsub
    rw [List.length_append]
    omega
  refine ⟨hlt, fun {k g} hk hopen => ?_⟩
  rcases getElem?_concat_eq_some hk with ⟨rfl, rfl⟩ | hk
  · cases hfailed : s.teardown.hasFailed with
    | false => exact .inl ⟨rfl, hnew⟩
    | true =>
      refine .inr (.inr ⟨?_, fun g' hg' => ?_, fun {i call} hc hsub => ?_⟩)
      · exact Teardown.started_of_hasFailed hfailed
      · change (s.handles ++ [g])[s.handles.length]? = some g' at hg'
        rw [List.getElem?_concat_length] at hg'
        cases hg'
        exact hlate hfailed
      · have := ht.sub hc hsub
        omega
  · rcases ht.kept hk hopen with ⟨hnot, hmem⟩ | hleft | ⟨hstarted, hnot, hhopeless⟩
    · exact .inl ⟨hnot, hregistered k hmem⟩
    · exact .inr (.inl hleft)
    · refine .inr (.inr ⟨hstarted, fun g' hg' => ?_, hhopeless⟩)
      change (s.handles ++ [h])[k]? = some g' at hg'
      rw [getElem?_concat_of_some hk] at hg'
      cases hg'
      exact hnot g hk

/-- A call of `SubscribeAsync` with its handle. -/
theorem Tended.subscribe {s : State} (ht : Tended s) (uri : String) :
    Tended ((s.attachSubscription uri false).newCall .request (some s.handles.length)) := by
  have hattached : Tended (s.attachSubscription uri false) := by
    refine ht.attach (fun k hk => ?_) ?_ fun _ => rfl
    · rcases List.mem_append.mp hk with hk | hk
      · rw [List.map_append]
        exact List.mem_append_left _ (List.mem_append_left _ hk)
      · exact List.mem_append_right _ hk
    · rw [List.map_append]
      exact List.mem_append_left _ (List.mem_append_right _ List.mem_cons_self)
  constructor
  · intro j k other ho hsub
    rcases getElem?_concat_eq_some ho with ⟨-, rfl⟩ | ho
    · cases hsub
      change s.handles.length < (s.handles ++ [_]).length
      simp
    · exact hattached.sub ho hsub
  · intro k h hk hopen
    rcases hattached.kept hk hopen with hreg | hleft | ⟨hstarted, hnot, hhopeless⟩
    · exact .inl hreg
    · exact .inr (.inl hleft)
    · refine .inr (.inr ⟨hstarted, hnot, fun ho hsub => ?_⟩)
      rcases getElem?_concat_eq_some ho with ⟨-, rfl⟩ | ho
      · rfl
      · exact hhopeless ho hsub

theorem mem_registered {s : State} {k : ℕ} :
    k ∈ s.registered ↔ (∃ uri, (uri, k) ∈ s.subscriptions) ∨ k ∈ s.eventListeners := by
  simp [registered]

theorem Tended.closeHandle {s : State} (ht : Tended s) (k : ℕ) : Tended (s.closeHandle k) := by
  unfold State.closeHandle
  cases hk : s.handles[k]? with
  | none => exact ht
  | some h =>
    constructor
    · intro i j call hc hsub
      change j < (s.handles.set k _).length
      rw [List.length_set]
      exact ht.sub hc hsub
    · intro j g hj hopen
      rcases getElem?_set_eq_some hj with ⟨-, rfl⟩ | ⟨hne, hj⟩
      · cases hopen
      · rcases ht.kept hj hopen with ⟨hnot, hmem⟩ | hleft | ⟨hstarted, hnot, hhopeless⟩
        · refine .inl ⟨hnot, mem_registered.mpr ?_⟩
          rcases mem_registered.mp hmem with ⟨uri, hmem⟩ | hmem
          · exact .inl ⟨uri, List.mem_filter.mpr ⟨hmem, by simpa using hne⟩⟩
          · exact .inr (List.mem_filter.mpr ⟨hmem, by simpa using hne⟩)
        · exact .inr (.inl hleft)
        · refine .inr (.inr ⟨hstarted, fun g' hg' => ?_, hhopeless⟩)
          rcases getElem?_set_eq_some hg' with ⟨h', -⟩ | ⟨-, hg'⟩
          · exact absurd h' hne
          · exact hnot g' hg'

/-- The handle of a subscription that has succeeded. -/
theorem Tended.returnHandle {s : State} (ht : Tended s) {i k : ℕ} {call : Call}
    (hc : s.calls[i]? = some call) (hsub : call.sub = some k) (hpc : call.pc.hopeless = false) :
    Tended (s.returnHandle k) := by
  unfold State.returnHandle
  cases hk : s.handles[k]? with
  | none => exact ht
  | some h =>
    constructor
    · intro i j call hc hsub
      change j < (s.handles.set k _).length
      rw [List.length_set]
      exact ht.sub hc hsub
    · intro j g hj hopen
      have hold : ∃ g', s.handles[j]? = some g' ∧ g'.closed = false := by
        rcases getElem?_set_eq_some hj with ⟨rfl, rfl⟩ | ⟨-, hj⟩
        · exact ⟨h, hk, hopen⟩
        · exact ⟨g, hj, hopen⟩
      obtain ⟨g', hg', hopen'⟩ := hold
      rcases ht.kept hg' hopen' with hreg | hleft | ⟨hstarted, hnot, hhopeless⟩
      · exact .inl hreg
      · exact .inr (.inl hleft)
      · have hne : j ≠ k := by
          rintro rfl
          rw [hhopeless hc hsub] at hpc
          cases hpc
        refine .inr (.inr ⟨hstarted, fun g'' hg'' => ?_, hhopeless⟩)
        rcases getElem?_set_eq_some hg'' with ⟨h', -⟩ | ⟨-, hg''⟩
        · exact absurd h' hne
        · exact hnot g'' hg''

/-! ### Steps of a call -/

theorem Sound.frame {s : State} (hs : Sound s) (nextId : UInt64) : Sound { s with nextId := nextId } :=
  ⟨hs.answered.of_eq rfl rfl rfl (fun h => h) rfl, hs.written.of_eq rfl rfl rfl,
    hs.tended.of_eq rfl rfl rfl rfl, hs.joined⟩

theorem Sound.set {s : State} (hs : Sound s) {i : ℕ} {call call' : Call}
    (hc : s.calls[i]? = some call) (hadv : call.Advances s.teardown.started call')
    (hid : call'.id = call.id)
    (hexpects : call.kind = .request → call'.pc.expects = true → call.pc.expects = true)
    (hsending : call'.pc = .sending → call.pc = .sending) : Sound (s.setCall i call') :=
  ⟨hs.answered.set hc hadv hid hexpects, hs.written.set hc hadv hsending, hs.tended.set hc hadv,
    hs.joined⟩

theorem Sound.leave {s : State} (hs : Sound s) {i : ℕ} {call call' : Call} {outcome : Outcome}
    (hc : s.calls[i]? = some call) (hlive : call.pc.isReturned = false)
    (hadv : call.Advances s.teardown.started { call' with pc := .returned outcome })
    (hid : call'.id = call.id) : Sound (s.leave i call' outcome) :=
  ⟨hs.answered.leave hc hlive hadv hid,
    (hs.written.set hc hadv fun h => by cases h).of_eq rfl rfl rfl,
    (hs.tended.set hc hadv).of_eq rfl rfl rfl rfl, hs.joined⟩

theorem Sound.closeHandle {s : State} (hs : Sound s) (k : ℕ) : Sound (s.closeHandle k) := by
  have htended := hs.tended.closeHandle k
  unfold State.closeHandle at htended ⊢
  split
  · exact ⟨hs.answered.of_eq rfl rfl rfl (fun h => h) rfl, hs.written.of_eq rfl rfl rfl, by simpa [*] using htended,
      hs.joined⟩
  · exact hs

theorem Sound.removeOwn {s : State} (hs : Sound s) {i : ℕ} {call : Call}
    (hc : s.calls[i]? = some call) (hlive : call.pc.isReturned = false)
    (hover : call.pc.expects = false) : Sound (s.removePending call.id) :=
  ⟨hs.answered.removeOwn hc hlive hover, hs.written.of_eq rfl rfl rfl, hs.tended.of_eq rfl rfl rfl rfl,
    hs.joined⟩

/-- A call that is at another place. -/
theorem advances_moves {call : Call} (hok : call.Ok) {started : Bool} {pc : Calling}
    (hlive : call.pc.isReturned = false) (hcalled : pc ≠ .called) (hinserting : pc ≠ .inserting)
    (hreceiving : pc = .receiving → call.kind = .request)
    (hsending : pc = .sending → call.kind ≠ .reply)
    (hclosing : ∀ {outcome : Outcome}, pc = .closing outcome → call.sub ≠ none)
    (houtcome : ∀ {id : UInt64}, pc.outcome? = some (.response (.result id)) → call.id = some id)
    (hhopeless : started = true → call.pc.hopeless = true → pc.hopeless = true)
    (hawaits : started = true → call.kind = .request → pc.awaits = true → call.pc.awaits = true) :
    call.Advances started { call with pc := pc } where
  kind := rfl
  sub := rfl
  id h := h
  sent h := h
  response h := h
  ok := ⟨fun h => absurd h hcalled, fun h => absurd h hinserting, hreceiving, hsending, hclosing,
    hok.own, houtcome⟩
  returned h := by
    rw [h] at hlive
    cases hlive
  hopeless := hhopeless
  awaits := hawaits

/-- A call that has its outcome. -/
theorem Sound.finish {s : State} (hs : Sound s) {i : ℕ} {call : Call} {outcome : Outcome}
    (hc : s.calls[i]? = some call) (hlive : call.pc.isReturned = false)
    (hown : ∀ {id : UInt64}, outcome = .response (.result id) → call.id = some id)
    (hok : outcome.ok = true → call.pc.hopeless = false) : Sound (s.finish i call outcome) := by
  have hreturned : call.Advances s.teardown.started { call with pc := .returned outcome } :=
    advances_moves (hs.answered.calls hc) hlive (by simp) (by simp) (by simp) (by simp) (by simp)
      (fun h => hown (by cases h; rfl)) (fun _ _ => rfl) (fun _ _ h => by cases h)
  unfold State.finish
  split
  · exact hs.leave hc hlive hreturned rfl
  · next k hsub =>
    split
    · next h =>
      have htended := hs.tended.returnHandle hc hsub (hok h)
      have hnext : Sound (s.returnHandle k) := by
        unfold State.returnHandle at htended ⊢
        split
        · next g hg =>
          rw [hg] at htended
          exact ⟨hs.answered.of_eq rfl rfl rfl (fun h => h) rfl, hs.written.of_eq rfl rfl rfl, htended,
            hs.joined⟩
        · exact hs
      have hsame : (s.returnHandle k).calls = s.calls ∧ (s.returnHandle k).teardown = s.teardown := by
        unfold State.returnHandle
        split
        · exact ⟨rfl, rfl⟩
        · exact ⟨rfl, rfl⟩
      exact hnext.leave (hsame.1 ▸ hc) hlive (hsame.2 ▸ hreturned) rfl
    · have hclosing : call.Advances s.teardown.started { call with pc := .closing outcome } :=
        advances_moves (hs.answered.calls hc) hlive (by simp) (by simp) (by simp) (by simp)
          (fun _ => by rw [hsub]; simp) (fun h => hown (by cases h; rfl)) (fun _ _ => rfl)
          (fun _ _ h => by cases h)
      exact hs.set hc hclosing rfl (fun _ h => by cases h) fun h => by cases h

theorem finish_sent (s : State) {i : ℕ} {call : Call} (hc : s.calls[i]? = some call)
    (hkind : call.kind = .reply) :
    (s.finish i call .sent).outbound = s.outbound ∧ (s.finish i call .sent).isReply i = true := by
  unfold State.finish
  split
  · exact ⟨rfl, isReply_iff.mpr ⟨_, getElem?_set_of_some hc _, hkind⟩⟩
  · rw [if_neg (by decide)]
    exact ⟨rfl, isReply_iff.mpr ⟨_, getElem?_set_of_some hc _, hkind⟩⟩

/-- A call that fails. -/
theorem Sound.abort {s : State} (hs : Sound s) {i : ℕ} {call : Call} {outcome : Outcome}
    (hc : s.calls[i]? = some call) (hlive : call.pc.isReturned = false)
    (hhopeless : call.pc.hopeless = false)
    (hown : ∀ {id : UInt64}, outcome = .response (.result id) → call.id = some id) :
    Sound (s.abort i call outcome) := by
  unfold State.abort
  split
  · refine hs.set hc (advances_moves (hs.answered.calls hc) hlive (by simp) (by simp) (by simp)
      (by simp) (by simp) (fun h => hown (by cases h; rfl)) (fun _ h => ?_) (fun _ _ h => by cases h))
      rfl (fun _ h => by cases h) fun h => by cases h
    rw [hhopeless] at h
    cases h
  · exact hs.finish hc hlive hown fun _ => hhopeless

/-- A call goes on to its next wait. -/
theorem Sound.goes {s : State} (hs : Sound s) {i : ℕ} {call : Call} {pc : Calling}
    (hc : s.calls[i]? = some call) (hlive : call.pc.isReturned = false)
    (hnext : pc = .writing ∨ pc = .receiving ∧ call.kind = .request)
    (hexpects : call.kind = .request → call.pc.expects = true)
    (hstarted : s.teardown.started = true → call.pc.hopeless = false ∧ call.pc.awaits = true) :
    Sound (s.setCall i { call with pc := pc }) := by
  have hok := hs.answered.calls hc
  have hopen : s.teardown.started = true → call.pc.hopeless = true → pc.hopeless = true := by
    intro h hhopeless
    rw [(hstarted h).1] at hhopeless
    cases hhopeless
  rcases hnext with rfl | ⟨rfl, hkind⟩
  · exact hs.set hc (advances_moves hok hlive (by simp) (by simp) (by simp) (by simp) (by simp)
      (fun h => by cases h) hopen fun h _ _ => (hstarted h).2) rfl (fun hkind _ => hexpects hkind)
      fun h => by cases h
  · exact hs.set hc (advances_moves hok hlive (by simp) (by simp) (fun _ => hkind) (by simp)
      (by simp) (fun h => by cases h) hopen fun h _ _ => (hstarted h).2) rfl
      (fun hkind _ => hexpects hkind) fun h => by cases h

theorem Sound.check {s s' : State} (hs : Sound s) {i : ℕ} {call : Call} {encoded : Bool}
    (hc : s.calls[i]? = some call) (hg : InTime s (.check i encoded))
    (h : s.check i call encoded = some s') : Sound s' := by
  unfold State.check at h
  split at h
  · next hpc =>
    have hlive : call.pc.isReturned = false := by rw [hpc]; rfl
    split at h
    · cases h
      exact hs.finish hc hlive (fun h => by cases h) fun h => by cases h
    · next hstarted =>
      split at h
      · next hkind =>
        cases h
        have hfresh : s.Fresh := hg (by simpa using hstarted) (by rw [hc]; simp [hkind])
        have hok := hs.answered.calls hc
        have hmint := hs.answered.mint hc hpc hfresh
        have hadv : call.Advances s.teardown.started
            { call with id := some s.nextId, pc := .inserting } := by
          refine ⟨rfl, rfl, fun h => ?_, fun h => h, fun h => h,
            hmint.calls (getElem?_set_of_some hc _), fun h => ?_, fun h => absurd h hstarted,
            fun _ _ h => (by cases h)⟩
          · rw [hok.unminted hpc] at h
            cases h
          · rw [hpc] at h
            cases h
        have hset : Sound (s.setCall i { call with id := some s.nextId, pc := .inserting }) :=
          ⟨hmint, hs.written.set hc hadv fun h => (by cases h), hs.tended.set hc hadv, hs.joined⟩
        exact hset.frame _
      · next hkind =>
        split at h
        · cases h
          exact hs.goes hc hlive (.inl rfl) (fun h => by rw [hkind] at h; cases h)
            fun h => absurd h hstarted
        · cases h
          exact hs.finish hc hlive (fun h => by cases h) fun h => by cases h
      · next hkind =>
        cases h
        exact hs.goes hc hlive (.inl rfl) (fun h => by rw [hkind] at h; cases h)
          fun h => absurd h hstarted
  · cases h

theorem Sound.insert {s s' : State} (hs : Sound s) {i : ℕ} {call : Call}
    (hc : s.calls[i]? = some call) (h : s.insert i call = some s') : Sound s' := by
  unfold State.insert at h
  split at h
  · next id hpc hid =>
    cases h
    have hadv : call.Advances s.teardown.started { call with pc := .rechecking } :=
      advances_moves (hs.answered.calls hc) (by rw [hpc]; rfl) (by simp) (by simp) (by simp) (by simp)
        (by simp) (fun h => by cases h) (fun _ h => by rw [hpc] at h; cases h) fun _ _ h => by cases h
    exact ⟨hs.answered.insert hc hpc hid,
      (hs.written.set hc hadv fun h => by cases h).of_eq rfl rfl rfl,
      (hs.tended.set hc hadv).of_eq rfl rfl rfl rfl, hs.joined⟩
  · cases h

theorem Sound.recheck {s s' : State} (hs : Sound s) {i : ℕ} {call : Call} {encoded : Bool}
    (hc : s.calls[i]? = some call) (h : s.recheck i call encoded = some s') : Sound s' := by
  unfold State.recheck at h
  split at h
  · next hpc =>
    have hlive : call.pc.isReturned = false := by rw [hpc]; rfl
    split at h
    · cases h
      exact hs.set hc (advances_moves (hs.answered.calls hc) hlive (by simp) (by simp) (by simp)
        (by simp) (by simp) (fun h => by cases h) (fun _ h => by rw [hpc] at h; cases h)
        fun _ _ h => by cases h) rfl (fun _ h => by cases h) fun h => by cases h
    · next hstarted =>
      split at h
      · cases h
        exact hs.finish hc hlive (fun h => by cases h) fun h => by cases h
      · cases h
        exact hs.goes hc hlive (.inl rfl) (fun _ => by rw [hpc]; rfl) fun h => absurd h hstarted
  · cases h

theorem Sound.enqueue {s s' : State} (hs : Sound s) {i : ℕ} {call : Call}
    (hc : s.calls[i]? = some call) (hg : InTime s (.enqueue i)) (h : s.enqueue i call = some s') :
    Sound s' := by
  unfold State.enqueue at h
  split at h
  · next hpc =>
    have hlive : call.pc.isReturned = false := by rw [hpc]; rfl
    split at h
    · split at h
      · next hkind =>
        cases h
        have hfinish : Sound (s.finish i call .sent) :=
          hs.finish hc hlive (fun h => by cases h) fun h => by cases h
        obtain ⟨houtbound, hreply⟩ := s.finish_sent hc hkind
        refine ⟨hfinish.answered.of_eq rfl rfl rfl (fun h => h) rfl, ?_,
          hfinish.tended.of_eq rfl rfl rfl rfl, hfinish.joined⟩
        rw [← houtbound]
        exact hfinish.written.append hreply
      · next hkind =>
        cases h
        have hadv : call.Advances s.teardown.started { call with pc := .sending } :=
          advances_moves (hs.answered.calls hc) hlive (by simp) (by simp) (by simp) (fun _ => hkind)
            (by simp) (fun h => by cases h) (fun _ h => by rw [hpc] at h; cases h)
            fun _ _ _ => by rw [hpc]; rfl
        refine ⟨(hs.answered.set hc hadv rfl fun _ _ => by rw [hpc]; rfl).of_eq rfl rfl rfl (fun h => h) rfl,
          hs.written.enqueue hc hadv fun hstopped => ?_, (hs.tended.set hc hadv).of_eq rfl rfl rfl rfl,
          hs.joined⟩
        obtain ⟨other, ho, hreply⟩ := isReply_iff.mp (hg hstopped)
        rw [hc] at ho
        cases ho
        exact hreply
    · cases h
  · cases h

theorem Sound.refused {s s' : State} (hs : Sound s) {i : ℕ} {call : Call}
    (hc : s.calls[i]? = some call) (h : s.refused i call = some s') : Sound s' := by
  unfold State.refused at h
  split at h
  · next hpc =>
    split at h
    · cases h
      refine hs.abort hc (by rw [hpc]; rfl) (by rw [hpc]; rfl) fun h => ?_
      split at h
      · cases h
      · cases h
    · cases h
  · cases h

theorem Sound.wasSent {s s' : State} (hs : Sound s) {i : ℕ} {call : Call}
    (hc : s.calls[i]? = some call) (h : s.wasSent i call = some s') : Sound s' := by
  unfold State.wasSent at h
  split at h
  · next hpc _ =>
    have hlive : call.pc.isReturned = false := by rw [hpc]; rfl
    split at h
    · next hkind =>
      cases h
      exact hs.goes hc hlive (.inr ⟨rfl, hkind⟩) (fun _ => by rw [hpc]; rfl)
        fun _ => ⟨by rw [hpc]; rfl, by rw [hpc]; rfl⟩
    · cases h
      exact hs.finish hc hlive (fun h => by cases h) fun h => by cases h
  · next hpc _ =>
    cases h
    exact hs.abort hc (by rw [hpc]; rfl) (by rw [hpc]; rfl) fun h => by cases h
  · next hpc _ =>
    cases h
    exact hs.abort hc (by rw [hpc]; rfl) (by rw [hpc]; rfl) fun h => by cases h
  · cases h

theorem Sound.receive {s s' : State} (hs : Sound s) {i : ℕ} {call : Call} {decoded : Bool}
    (hc : s.calls[i]? = some call) (h : s.receive i call decoded = some s') : Sound s' := by
  cases hpc : call.pc with
  | receiving =>
    cases hr : call.response with
    | none =>
      simp only [State.receive, hpc, hr] at h
      cases h
    | some response =>
      cases response with
      | result id =>
        simp only [State.receive, hpc, hr] at h
        cases h
        refine hs.finish hc (by rw [hpc]; rfl) (fun h => ?_) fun _ => by rw [hpc]; rfl
        split at h
        · cases h
          exact (hs.answered.calls hc).own hr
        · cases h
      | rpcError id =>
        simp only [State.receive, hpc, hr] at h
        cases h
        exact hs.finish hc (by rw [hpc]; rfl) (fun h => by cases h) fun h => by cases h
      | closed =>
        simp only [State.receive, hpc, hr] at h
        cases h
        exact hs.finish hc (by rw [hpc]; rfl) (fun h => by cases h) fun h => by cases h
  | _ =>
    simp only [State.receive, hpc] at h
    cases h

theorem Sound.fail {s s' : State} (hs : Sound s) {i : ℕ} {call : Call}
    (hc : s.calls[i]? = some call) (h : s.fail i call = some s') : Sound s' := by
  unfold State.fail at h
  split at h
  · next outcome hpc =>
    cases h
    have hlive : call.pc.isReturned = false := by rw [hpc]; rfl
    refine (hs.removeOwn hc hlive (by rw [hpc]; rfl)).finish hc hlive (fun h => ?_)
      fun _ => by rw [hpc]; rfl
    exact (hs.answered.calls hc).outcome (by rw [hpc]; exact congrArg some h)
  · cases h

theorem Sound.closeSub {s s' : State} (hs : Sound s) {i : ℕ} {call : Call}
    (hc : s.calls[i]? = some call) (h : s.closeSub i call = some s') : Sound s' := by
  unfold State.closeSub at h
  split at h
  · next outcome k hpc hsub =>
    cases h
    have hclosed := hs.closeHandle k
    have hsame : (s.closeHandle k).calls = s.calls := by
      unfold State.closeHandle
      split
      · rfl
      · rfl
    have hc' := hsame ▸ hc
    refine hclosed.leave hc' (by rw [hpc]; rfl) (advances_moves (hclosed.answered.calls hc')
      (by rw [hpc]; rfl) (by simp) (by simp) (by simp) (by simp) (by simp) (fun h => ?_)
      (fun _ _ => rfl) fun _ _ h => by cases h) rfl
    exact (hs.answered.calls hc).outcome (by rw [hpc]; exact h)
  · cases h

end State

end AgentHostProtocol.Dotnet.Client
