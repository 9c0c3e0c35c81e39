import AgentHostProtocol.Go.Handles
import AgentHostProtocol.Library.Runs

/-!
# The teardown of the Go client

`shutdownWithError` closes `c.done`, fails what is in `pending`, swaps the registries out and
closes the handles in them. A call that comes too late for `pending` still sees `c.done`. But a
handle that `AttachSubscription` or `Events` puts into the fresh registries is closed by no one,
and the handles that an `Unsubscribe` under way has taken out are closed in its own time.

* `torn_down_of_handles_in_time` — in every run without such a handle nothing is closed twice or sent to
  after it is closed, every call returns at most one outcome, its own, and once the teardown has
  finished no call is stuck and all handles that were returned are closed.
-/

namespace AgentHostProtocol.Go.Client

open Library

/-- The call whose step it is. -/
def Act.caller : Act → Option ℕ
  | .check i _ | .insert i | .enqueue i | .acked i | .receive i | .cancelled i | .sawDone i
  | .fail i | .closeSub i => some i
  | _ => none

namespace State

/-- The action is in time for the teardown. -/
def InTime (s : State) : Act → Prop
  | .attachSubscription _ | .events => s.teardown.swapped = false
  | .tearDown => s.teardown = .closing [] → ∀ left ∈ s.unsubscribes, ∀ k ∈ left, s.closedAt k = true
  | _ => True

instance (s : State) (a : Act) : Decidable (InTime s a) := by
  cases a <;> unfold InTime <;> infer_instance

/-- The invariant of the client. -/
structure Sound (s : State) : Prop where
  answered : Answered s
  bound : Bound s
  safe : s.panicked = false

theorem sound_connected : Sound connected := ⟨answered_connected, bound_connected, rfl⟩

/-- Nothing that the invariant is about changes. -/
theorem Sound.frame {s : State} (hs : Sound s) (nextID : UInt64) (outbound : List ℕ)
    (writer : Writer) :
    Sound { s with nextID := nextID, outbound := outbound, writer := writer } :=
  ⟨hs.answered.of_eq rfl rfl rfl rfl, hs.bound.of_eq rfl rfl rfl rfl rfl rfl rfl, hs.safe⟩

theorem Sound.reads {s : State} (hs : Sound s) {reader : Reader}
    (hdelivering : ∀ i r, reader ≠ .delivering i r) (hclosing : ∀ i, reader ≠ .closing i) :
    Sound { s with reader := reader } :=
  ⟨hs.answered.reads hdelivering hclosing, hs.bound.of_eq rfl rfl rfl rfl rfl rfl rfl, hs.safe⟩

/-! ### Calls -/

theorem Sound.newCall {s : State} (hs : Sound s) (request : Bool) {sub : Option ℕ} {pc : Calling}
    (hpc : pc = .called ∨ pc = .sending)
    (hsub : ∀ k, sub = some k → k < s.handles.length ∧ pc.hopeless = true) :
    Sound (s.newCall request sub pc) :=
  ⟨hs.answered.newCall request sub hpc, hs.bound.newCall request hsub, hs.safe⟩

theorem Sound.set {s : State} (hs : Sound s) {i : ℕ} {call call' : Call}
    (hc : s.calls[i]? = some call) (hadv : call.Advances s.done call') :
    Sound { s with calls := s.calls.set i call' } :=
  ⟨hs.answered.set hc hadv, hs.bound.set hc hadv, hs.safe⟩

theorem Sound.deletePending {s : State} (hs : Sound s) (id : UInt64) : Sound (s.deletePending id) :=
  ⟨hs.answered.filterPending _, hs.bound.of_eq rfl rfl rfl rfl rfl rfl rfl, hs.safe⟩

theorem Sound.ret {s : State} (hs : Sound s) {i : ℕ} {call call' : Call} {outcome : Outcome}
    (hc : s.calls[i]? = some call) (hadv : call.Advances s.done call')
    (hnot : ∀ outcome, call.pc ≠ .returned outcome) (hpc : call'.pc = .returned outcome) :
    Sound { s with calls := s.calls.set i call', returns := s.returns ++ [(i, outcome)] } :=
  ⟨hs.answered.ret hc hadv hnot hpc, (hs.bound.set hc hadv).of_eq rfl rfl rfl rfl rfl rfl rfl, hs.safe⟩

theorem Sound.closeHandle {s : State} (hs : Sound s) (k : ℕ) : Sound (s.closeHandle k) := by
  have hbound := hs.bound.closeHandle k
  obtain ⟨handles, heq, -⟩ := hs.bound.closeHandle_eq k
  rw [heq] at hbound ⊢
  exact ⟨hs.answered.of_eq rfl rfl rfl rfl, hbound, hs.safe⟩

theorem returnHandle_setPc (s : State) (i : ℕ) (call : Call) (pc : Calling) (k : ℕ) :
    (s.setPc i call pc).returnHandle k = (s.returnHandle k).setPc i call pc := by
  have hsame : (s.setPc i call pc).handles = s.handles := rfl
  unfold returnHandle
  rw [hsame]
  cases s.handles[k]? <;> rfl

/-- A call that has its outcome returns, or closes the handle of `Subscribe` first. -/
theorem Sound.finish {s : State} (hs : Sound s) {i : ℕ} {call call' : Call} {outcome : Outcome}
    (hc : s.calls[i]? = some call)
    (hreturned : call.Advances s.done { call' with pc := .returned outcome })
    (hclosing : call.sub ≠ none → call.Advances s.done { call' with pc := .closing outcome })
    (hnot : ∀ outcome, call.pc ≠ .returned outcome)
    (hok : outcome.ok = true → call.pc.hopeless = false) : Sound (s.finish i call' outcome) := by
  have hsub : call'.sub = call.sub := hreturned.sub
  unfold State.finish
  cases hcall : call'.sub with
  | none => exact hs.ret hc hreturned hnot rfl
  | some k =>
    rw [hsub] at hcall
    cases h : outcome.ok with
    | true =>
      have hbound := hs.bound.returnHandle (List.mem_of_getElem? hc) hcall (hok h)
      obtain ⟨handles, heq, -⟩ := returnHandle_eq s k
      change Sound { (s.setPc i call' (.returned outcome)).returnHandle k with
        returns := s.returns ++ [(i, outcome)] }
      rw [returnHandle_setPc]
      rw [heq] at hbound ⊢
      have hnext : Sound { s with handles := handles } :=
        ⟨hs.answered.of_eq rfl rfl rfl rfl, hbound, hs.safe⟩
      exact hnext.ret hc hreturned hnot rfl
    | false => exact hs.set hc (hclosing (by rw [hcall]; simp))

/-- A call that has received nothing gets its outcome. -/
theorem Sound.finish_same {s : State} (hs : Sound s) {i : ℕ} {call : Call} {outcome : Outcome}
    (hc : s.calls[i]? = some call) (hnot : ∀ outcome, call.pc ≠ .returned outcome)
    (hof : outcome.Of call.id) (hok : outcome.ok = true → call.pc.hopeless = false) :
    Sound (s.finish i call outcome) := by
  have hreturned : call.Advances s.done { call with pc := .returned outcome } := by
    refine ⟨rfl, fun _ => rfl, fun _ => rfl, fun _ => rfl, fun _ _ => rfl, fun h => ?_, .inl rfl,
      fun h => ?_, fun h => ?_⟩
    · exact absurd h (hnot _)
    · cases h
      exact hof
    · cases h
  refine hs.finish hc hreturned (fun hsub => ?_) hnot hok
  refine ⟨rfl, fun _ => rfl, fun _ => rfl, fun _ => rfl, fun _ _ => rfl, fun h => ?_, .inl rfl,
    fun h => ?_, fun _ => hsub⟩
  · exact absurd h (hnot _)
  · cases h
    exact hof

/-- A call goes on to a place where it has no outcome yet. -/
theorem Sound.moves {s : State} (hs : Sound s) {i : ℕ} {call : Call} {pc : Calling}
    (hc : s.calls[i]? = some call) (hfrom : call.pc.isOver = false)
    (hhopeless : call.pc.hopeless = true → s.done = false)
    (hin : pc.inserted = true) (hof : ∀ {o}, pc.outcome? = some o → Outcome.Of call.id o)
    (hnot : ∀ o, pc ≠ .closing o) : Sound (s.setPc i call pc) := by
  refine hs.set hc ⟨rfl, fun _ => rfl, fun _ => hin, fun h => ?_, fun hdone h => ?_, fun h => ?_,
    .inl rfl, hof, fun h => absurd h (hnot _)⟩
  · rw [hfrom] at h
    cases h
  · rw [hhopeless h] at hdone
    cases hdone
  · rw [h] at hfrom
    cases hfrom

/-- An error after the call is in `pending`. -/
theorem Sound.abort {s : State} (hs : Sound s) {i : ℕ} {call : Call} {outcome : Outcome}
    (hc : s.calls[i]? = some call) (hover : call.pc.isOver = false) (hhopeless : call.pc.hopeless = false)
    (hof : outcome.Of call.id) : Sound (s.abort i call outcome) := by
  unfold State.abort
  split
  · refine hs.moves hc hover (fun h => ?_) rfl (fun h => ?_) fun o h => by cases h
    · rw [hhopeless] at h
      cases h
    · cases h
      exact hof
  · refine hs.finish_same hc (fun o h => ?_) hof fun _ => hhopeless
    rw [h] at hover
    cases hover

theorem Sound.check {s s' : State} (hs : Sound s) {i : ℕ} {call : Call} {encoded : Bool}
    (hc : s.calls[i]? = some call) (h : s.callStep i call (.check i encoded) = some s') :
    Sound s' := by
  simp only [callStep] at h
  split at h
  · next hpc =>
    have hnot : ∀ outcome, call.pc ≠ .returned outcome := fun o ho => by rw [hpc] at ho; cases ho
    split at h
    · cases h
      exact hs.finish_same hc hnot trivial fun h => by cases h
    · next hdone =>
      split at h
      · cases h
        exact hs.finish_same hc hnot trivial fun h => by cases h
      · split at h
        · cases h
          have hadv : call.Advances s.done { call with id := s.nextID, pc := .inserting } := by
            constructor <;>
              simp [hpc, hdone, Calling.inserted, Calling.isOver, Calling.hopeless, Calling.outcome?]
          exact (hs.set hc hadv).frame _ _ _
        · cases h
          refine hs.moves hc (by rw [hpc]; rfl) (fun _ => by simpa using hdone) rfl (fun h => ?_)
            fun o h => ?_
          · cases h
          · cases h
  · cases h

theorem Sound.insert {s s' : State} (hs : Sound s) {i : ℕ} {call : Call}
    (hc : s.calls[i]? = some call) (h : s.callStep i call (.insert i) = some s') : Sound s' := by
  simp only [callStep] at h
  split at h
  · next hpc =>
    cases h
    have hadv : call.Advances s.done { call with pc := .sending } := by
      constructor <;> simp [hpc, Calling.inserted, Calling.isOver, Calling.hopeless, Calling.outcome?]
    exact ⟨hs.answered.insert hc hpc, (hs.bound.set hc hadv).of_eq rfl rfl rfl rfl rfl rfl rfl, hs.safe⟩
  · cases h

theorem Sound.enqueue {s s' : State} (hs : Sound s) {i : ℕ} {call : Call}
    (hc : s.calls[i]? = some call) (h : s.callStep i call (.enqueue i) = some s') : Sound s' := by
  simp only [callStep] at h
  split at h
  · next hpc =>
    split at h
    · cases h
      have hmoved : Sound (s.setPc i call .acking) := by
        refine hs.moves hc (by rw [hpc]; rfl) (fun h => ?_) rfl (fun h => by cases h) fun o h => by cases h
        rw [hpc] at h
        cases h
      exact hmoved.frame _ _ _
    · cases h
  · cases h

theorem Sound.acked {s s' : State} (hs : Sound s) {i : ℕ} {call : Call}
    (hc : s.calls[i]? = some call) (h : s.callStep i call (.acked i) = some s') : Sound s' := by
  simp only [callStep] at h
  split at h
  · next hpc _ =>
    split at h
    · cases h
      refine hs.moves hc (by rw [hpc]; rfl) (fun h => ?_) rfl (fun h => by cases h) fun o h => by cases h
      rw [hpc] at h
      cases h
    · cases h
      exact hs.finish_same hc (fun o ho => by rw [hpc] at ho; cases ho) trivial fun h => by cases h
  · next hpc _ =>
    cases h
    exact hs.abort hc (by rw [hpc]; rfl) (by rw [hpc]; rfl) trivial
  · cases h

theorem Sound.receive {s s' : State} (hs : Sound s) {i : ℕ} {call : Call}
    (hc : s.calls[i]? = some call) (h : s.callStep i call (.receive i) = some s') : Sound s' := by
  have hok := hs.answered.calls hc
  simp only [callStep] at h
  split at h
  · next r hpc hvalue =>
    cases h
    have hof : Outcome.Of call.id (.result r) := by
      cases r with
      | response id ok => exact hok.own hvalue
      | failed => trivial
    have hnot : ∀ outcome, call.pc ≠ .returned outcome := fun o ho => by rw [hpc] at ho; cases ho
    refine hs.finish hc ?_ (fun hsub => ?_) hnot fun _ => by rw [hpc]; rfl
    · refine ⟨rfl, fun _ => rfl, fun _ => rfl, fun _ => rfl, fun _ _ => rfl, fun h => ?_,
        .inr ⟨by rw [hvalue]; simp, rfl, rfl⟩, fun h => ?_, fun h => ?_⟩
      · exact absurd h (hnot _)
      · cases h
        exact hof
      · cases h
    · refine ⟨rfl, fun _ => rfl, fun _ => rfl, fun _ => rfl, fun _ _ => rfl, fun h => ?_,
        .inr ⟨by rw [hvalue]; simp, rfl, rfl⟩, fun h => ?_, fun _ => hsub⟩
      · exact absurd h (hnot _)
      · cases h
        exact hof
  · next hpc hvalue =>
    split at h
    · next hclosed =>
      -- A call that waits has the value of a closed channel before it.
      have hover := hok.closed hclosed hvalue
      rw [hpc] at hover
      cases hover
    · cases h
  · cases h

theorem Sound.cancelled {s s' : State} (hs : Sound s) {i : ℕ} {call : Call}
    (hc : s.calls[i]? = some call) (h : s.callStep i call (.cancelled i) = some s') : Sound s' := by
  simp only [callStep] at h
  split at h
  · next hpc =>
    cases h
    exact hs.abort hc (by rw [hpc]; rfl) (by rw [hpc]; rfl) trivial
  · next hpc =>
    cases h
    exact hs.abort hc (by rw [hpc]; rfl) (by rw [hpc]; rfl) trivial
  · next hpc =>
    cases h
    refine hs.moves hc (by rw [hpc]; rfl) (fun h => ?_) rfl (fun h => ?_) fun o h => by cases h
    · rw [hpc] at h
      cases h
    · cases h
      trivial
  · cases h

theorem Sound.sawDone {s s' : State} (hs : Sound s) {i : ℕ} {call : Call}
    (hc : s.calls[i]? = some call) (h : s.callStep i call (.sawDone i) = some s') : Sound s' := by
  simp only [callStep] at h
  split at h
  · split at h
    · next hpc =>
      cases h
      exact hs.abort hc (by rw [hpc]; rfl) (by rw [hpc]; rfl) trivial
    · next hpc =>
      cases h
      exact hs.abort hc (by rw [hpc]; rfl) (by rw [hpc]; rfl) trivial
    · next hpc =>
      cases h
      exact hs.finish_same hc (fun o ho => by rw [hpc] at ho; cases ho) trivial fun h => by cases h
    · cases h
  · cases h

theorem Sound.fail {s s' : State} (hs : Sound s) {i : ℕ} {call : Call}
    (hc : s.calls[i]? = some call) (h : s.callStep i call (.fail i) = some s') : Sound s' := by
  simp only [callStep] at h
  split at h
  · next outcome hpc =>
    cases h
    have hof := (hs.answered.calls hc).outcome (by rw [hpc]; rfl)
    refine (hs.deletePending call.id).finish_same hc (fun o ho => ?_) hof fun _ => by rw [hpc]; rfl
    rw [hpc] at ho
    cases ho
  · cases h

theorem Sound.closeSub {s s' : State} (hs : Sound s) {i : ℕ} {call : Call}
    (hc : s.calls[i]? = some call) (h : s.callStep i call (.closeSub i) = some s') : Sound s' := by
  simp only [callStep] at h
  split at h
  · next outcome k hpc hsub =>
    cases h
    have hof := (hs.answered.calls hc).outcome (by rw [hpc]; rfl)
    have hclosed := hs.closeHandle k
    obtain ⟨handles, heq, -⟩ := hs.bound.closeHandle_eq k
    rw [heq] at hclosed ⊢
    have hadv : call.Advances s.done { call with pc := .returned outcome } := by
      constructor <;> simp [hpc, Calling.inserted, Calling.isOver, Calling.hopeless, Calling.outcome?, hof]
    refine hclosed.ret hc hadv (fun o ho => ?_) rfl
    rw [hpc] at ho
    cases ho
  · cases h

/-! ### The reader, the writer and the teardown -/

theorem Sound.shutdownWithError {s : State} (hs : Sound s) : Sound s.shutdownWithError := by
  unfold State.shutdownWithError
  split
  · next hcalled =>
    have hopen : s.done = false := by
      cases h : s.done with
      | false => rfl
      | true => exact absurd hcalled (hs.bound.done.mp h)
    refine ⟨hs.answered.of_eq rfl rfl rfl rfl, ?_, ?_⟩
    · refine ⟨hs.bound.same, hs.bound.sub, ⟨fun _ h => (by cases h), fun _ => rfl⟩,
        fun {k h} hk hopen => ?_, fun h => (by cases h), fun h => (by cases h)⟩
      rcases hs.bound.kept hk hopen with hreg | hleft | ⟨left, hclosing, -⟩
      · exact .inl hreg
      · exact .inr (.inl hleft)
      · rw [hcalled] at hclosing
        cases hclosing
    · change (s.panicked || s.done) = false
      rw [hs.safe, hopen]
      rfl
  · exact hs

theorem Sound.deliver {s s' : State} (hs : Sound s) {id : UInt64} {ok : Bool}
    (h : s.deliver id ok = some s') : Sound s' := by
  unfold State.deliver at h
  split at h
  · split at h
    · next i hi =>
      cases h
      exact ⟨hs.answered.take ok hi, hs.bound.of_eq rfl rfl rfl rfl rfl rfl rfl, hs.safe⟩
    · cases h
      exact hs
  · cases h

theorem Sound.fanOut {s s' : State} (hs : Sound s) {uri : String} (h : s.fanOut uri = some s') :
    Sound s' := by
  unfold State.fanOut at h
  split at h
  · cases h
    exact hs.reads (fun _ _ h => by cases h) fun _ h => by cases h
  · cases h

theorem Sound.readerNext {s s' : State} (hs : Sound s) (h : s.readerNext = some s') : Sound s' := by
  unfold State.readerNext at h
  split at h
  · next i r hreader =>
    split at h
    · next call hc =>
      split at h
      · cases h
      · cases h
        obtain ⟨hanswered, hsafe⟩ := hs.answered.sendResult hreader hc
        refine ⟨hanswered, ?_, hsafe.trans hs.safe⟩
        exact (hs.bound.mapCalls_set hc _).of_eq rfl rfl rfl rfl rfl rfl rfl
    · cases h
  · next i hreader =>
    obtain ⟨call, hc, rfl⟩ := Option.map_eq_some_iff.mp h
    obtain ⟨hanswered, hsafe⟩ := hs.answered.closeResult hreader hc
    refine ⟨hanswered, ?_, hsafe.trans hs.safe⟩
    exact (hs.bound.mapCalls_set hc _).of_eq rfl rfl rfl rfl rfl rfl rfl
  · cases h
    exact hs.reads (fun _ _ h => by cases h) fun _ h => by cases h
  · cases h
    rw [hs.bound.trySend_eq]
    exact hs.reads (fun _ _ h => by cases h) fun _ h => by cases h
  · cases h

theorem Sound.recvError {s s' : State} (hs : Sound s) (h : s.recvError = some s') : Sound s' := by
  unfold State.recvError at h
  split at h
  · cases h
    exact hs.shutdownWithError.reads (fun _ _ h => by cases h) fun _ h => by cases h
  · cases h

theorem Sound.readerDone {s s' : State} (hs : Sound s) (h : s.readerDone = some s') : Sound s' := by
  unfold State.readerDone at h
  split at h
  · cases h
    exact hs.reads (fun _ _ h => by cases h) fun _ h => by cases h
  · cases h

theorem Sound.writerTake {s s' : State} (hs : Sound s) (h : s.writerTake = some s') : Sound s' := by
  unfold State.writerTake at h
  split at h
  · cases h
    exact hs.frame _ _ _
  · cases h

theorem Sound.writerSend {s s' : State} (hs : Sound s) {encoded sent : Bool}
    (h : s.writerSend encoded sent = some s') : Sound s' := by
  unfold State.writerSend at h
  split at h
  · obtain ⟨call, hc, rfl⟩ := Option.map_eq_some_iff.mp h
    have hacked := hs.set hc ((hs.answered.calls hc).acked s.done (some (encoded && sent)))
    dsimp only
    split
    · exact hacked.shutdownWithError.frame _ _ _
    · exact hacked.frame _ _ _
  · cases h

theorem Sound.writerDone {s s' : State} (hs : Sound s) (h : s.writerDone = some s') : Sound s' := by
  unfold State.writerDone at h
  split at h
  · cases h
    exact hs.frame _ _ _
  · cases h

theorem Sound.tearDown {s s' : State} (hs : Sound s) (hg : InTime s .tearDown)
    (h : s.tearDown = some s') : Sound s' := by
  unfold State.tearDown at h
  split at h
  · next hbegun =>
    cases h
    refine ⟨hs.answered.of_eq rfl rfl rfl rfl, hs.bound.proceeds ?_ ?_ rfl (fun h => by cases h), hs.safe⟩
    · rw [hbegun]
      rfl
    · rw [hbegun]
      simp
  · next hclosed =>
    cases h
    obtain ⟨hanswered, hsafe⟩ := hs.answered.failPending
    refine ⟨hanswered.of_eq rfl rfl rfl rfl, ?_, hsafe.trans hs.safe⟩
    have hcalls : Bound { s with calls := s.failPending.calls } := by
      refine hs.bound.mapCalls fun call' hmem => ?_
      obtain ⟨i, hi⟩ := List.mem_iff_getElem?.mp hmem
      rw [getElem?_failPending] at hi
      obtain ⟨call, hc, rfl⟩ := Option.map_eq_some_iff.mp hi
      refine ⟨call, List.mem_of_getElem? hc, ?_⟩
      split
      · exact ⟨rfl, rfl⟩
      · exact ⟨rfl, rfl⟩
    have hfailed : Bound { s with calls := s.failPending.calls, teardown := .failed } := by
      refine hcalls.proceeds ?_ ?_ rfl fun h => by cases h
      · change s.teardown.swapped = false
        rw [hclosed]
        rfl
      · change s.teardown ≠ _
        rw [hclosed]
        simp
    exact hfailed.of_eq rfl rfl rfl rfl rfl rfl rfl
  · next hfailed =>
    cases h
    exact ⟨hs.answered.of_eq rfl rfl rfl rfl, hs.bound.swapRegistries hfailed, hs.safe⟩
  · next hclosing =>
    cases h
    exact ⟨hs.answered.of_eq rfl rfl rfl rfl, hs.bound.finishes hclosing (hg hclosing), hs.safe⟩
  · next k left hclosing =>
    cases h
    have hclose := hs.closeHandle k
    exact ⟨hclose.answered.of_eq rfl rfl rfl rfl, hs.bound.closesNext hclosing, hclose.safe⟩
  · cases h

theorem sound_step {s s' : State} {a : Act} (hs : Sound s) (hg : InTime s a)
    (h : s.step a = some s') : Sound s' := by
  cases a with
  | request =>
    cases h
    exact hs.newCall true (.inl rfl) fun k hk => by cases hk
  | subscribe uri =>
    cases h
    have hattached : Sound (s.attach uri false) :=
      ⟨hs.answered.of_eq rfl rfl rfl rfl, hs.bound.attach uri fun _ => rfl, hs.safe⟩
    refine hattached.newCall true (.inl rfl) fun k hk => ⟨?_, rfl⟩
    cases hk
    change s.handles.length < (s.handles ++ _).length
    rw [List.length_append, List.length_singleton]
    omega
  | notify =>
    cases h
    exact hs.newCall false (.inl rfl) fun k hk => by cases hk
  | answer =>
    cases h
    exact hs.newCall false (.inr rfl) fun k hk => by cases hk
  | check i encoded =>
    obtain ⟨call, hc, h⟩ := Option.bind_eq_some_iff.mp h
    exact hs.check hc h
  | insert i =>
    obtain ⟨call, hc, h⟩ := Option.bind_eq_some_iff.mp h
    exact hs.insert hc h
  | enqueue i =>
    obtain ⟨call, hc, h⟩ := Option.bind_eq_some_iff.mp h
    exact hs.enqueue hc h
  | acked i =>
    obtain ⟨call, hc, h⟩ := Option.bind_eq_some_iff.mp h
    exact hs.acked hc h
  | receive i =>
    obtain ⟨call, hc, h⟩ := Option.bind_eq_some_iff.mp h
    exact hs.receive hc h
  | cancelled i =>
    obtain ⟨call, hc, h⟩ := Option.bind_eq_some_iff.mp h
    exact hs.cancelled hc h
  | sawDone i =>
    obtain ⟨call, hc, h⟩ := Option.bind_eq_some_iff.mp h
    exact hs.sawDone hc h
  | fail i =>
    obtain ⟨call, hc, h⟩ := Option.bind_eq_some_iff.mp h
    exact hs.fail hc h
  | closeSub i =>
    obtain ⟨call, hc, h⟩ := Option.bind_eq_some_iff.mp h
    exact hs.closeSub hc h
  | attachSubscription uri =>
    cases h
    refine ⟨hs.answered.of_eq rfl rfl rfl rfl, hs.bound.attach uri fun hswapped => ?_, hs.safe⟩
    rw [hg] at hswapped
    cases hswapped
  | events =>
    cases h
    exact ⟨hs.answered.of_eq rfl rfl rfl rfl, hs.bound.events hg, hs.safe⟩
  | unsubscribe uri =>
    cases h
    exact ⟨hs.answered.of_eq rfl rfl rfl rfl, hs.bound.unsubscribe uri, hs.safe⟩
  | unsubscribeNext u =>
    simp only [step] at h
    split at h
    · next k left hu =>
      cases h
      have hclose := hs.closeHandle k
      exact ⟨hclose.answered.of_eq rfl rfl rfl rfl, hs.bound.unsubscribeNext hu, hclose.safe⟩
    · cases h
  | close k =>
    simp only [step] at h
    split at h
    · cases h
      exact hs.closeHandle k
    · cases h
  | shutdown =>
    cases h
    exact hs.shutdownWithError
  | tearDown => exact hs.tearDown hg h
  | response id ok => exact hs.deliver h
  | notification uri => exact hs.fanOut h
  | readerNext => exact hs.readerNext h
  | recvError => exact hs.recvError h
  | readerDone => exact hs.readerDone h
  | writerTake => exact hs.writerTake h
  | writerSend encoded sent => exact hs.writerSend h
  | writerDone => exact hs.writerDone h

/-- Once `c.done` is closed every call can go on. -/
theorem Sound.enabled {s : State} (hs : Sound s) (hdone : s.done = true) {i : ℕ} {call : Call}
    (hc : s.calls[i]? = some call) :
    (∃ outcome, call.pc = .returned outcome) ∨ ∃ a, a.caller = some i ∧ (s.step a).isSome = true := by
  cases hpc : call.pc with
  | called => exact .inr ⟨.check i true, rfl, by simp [step, callStep, hc, hpc, hdone]⟩
  | inserting => exact .inr ⟨.insert i, rfl, by simp [step, callStep, hc, hpc]⟩
  | sending => exact .inr ⟨.sawDone i, rfl, by simp [step, callStep, hc, hpc, hdone]⟩
  | acking => exact .inr ⟨.sawDone i, rfl, by simp [step, callStep, hc, hpc, hdone]⟩
  | waiting => exact .inr ⟨.sawDone i, rfl, by simp [step, callStep, hc, hpc, hdone]⟩
  | failing outcome => exact .inr ⟨.fail i, rfl, by simp [step, callStep, hc, hpc]⟩
  | closing outcome =>
    have hsub := (hs.answered.calls hc).closing hpc
    cases h : call.sub with
    | none => exact absurd h hsub
    | some k => exact .inr ⟨.closeSub i, rfl, by simp [step, callStep, hc, hpc, h]⟩
  | returned outcome => exact .inl ⟨outcome, rfl⟩

/-- No channel is closed twice or sent to after that, every call returns at most one outcome, and a
response only if it has the id of the call. Once the teardown has finished no call is stuck and
every handle that was returned is closed. All of this in every run in which each handle came in
time and no `Unsubscribe` had open handles left when the teardown finished. -/
theorem torn_down_of_handles_in_time (actions : List Act) (s : State)
    (hg : Guarded step InTime connected actions) (hr : runs step connected actions = some s) :
    s.panicked = false ∧ (s.returns.map Prod.fst).Nodup ∧
      (∀ e ∈ s.returns, ∃ call, s.calls[e.1]? = some call ∧ call.pc = .returned e.2 ∧
        e.2.Of call.id) ∧
      (s.teardown = .finished →
        (∀ (i : ℕ) (call : Call), s.calls[i]? = some call → (∃ outcome, call.pc = .returned outcome) ∨
          ∃ a, a.caller = some i ∧ (s.step a).isSome = true) ∧
        ∀ h ∈ s.handles, h.returned = true → h.closed = true ∧ h.channelClosed = true) := by
  have hs : Sound s := runs_invariant step sound_step sound_connected hg hr
  refine ⟨hs.safe, hs.answered.once, fun e he => ?_, fun hfinished => ⟨fun i call hc => ?_, ?_⟩⟩
  · obtain ⟨i, outcome⟩ := e
    obtain ⟨call, hc, hpc⟩ := hs.answered.returns he
    exact ⟨call, hc, hpc, (hs.answered.calls hc).outcome (by rw [hpc]; rfl)⟩
  · exact hs.enabled (hs.bound.done.mpr (by rw [hfinished]; simp)) hc
  · intro h hmem hreturned
    obtain ⟨k, hk⟩ := List.mem_iff_getElem?.mp hmem
    have hclosed : h.closed = true := by
      cases hopen : h.closed with
      | true => rfl
      | false =>
        have hwithheld : s.Withheld k := by
          rcases hs.bound.kept hk hopen with hreg | ⟨left, hleft, hmem⟩ | ⟨left, hclosing, -⟩
          · exact hs.bound.swapped (by rw [hfinished]; rfl) hreg
          · rcases hs.bound.finished hfinished left hleft k hmem with hat | hwithheld
            · unfold closedAt at hat
              rw [hk] at hat
              exact absurd (hopen.symm.trans hat) (by simp)
            · exact hwithheld
          · rw [hfinished] at hclosing
            cases hclosing
        rw [hwithheld.1 h hk] at hreturned
        cases hreturned
    exact ⟨hclosed, (hs.bound.same hk).trans hclosed⟩

/-- A request that is answered and a `Subscribe` that is cut off, with a subscription and a stream
that the teardown closes. -/
theorem torn_down_of_handles_in_time_finished :
    ∃ s : State, s.teardown = .finished ∧ s.handles.length = 3 ∧
      s.returns = [(0, .result (.response 1 true)), (1, .shutdown)] ∧ s.panicked = false ∧
      ∀ h ∈ s.handles, h.returned = true → h.closed = true ∧ h.channelClosed = true := by
  let actions : List Act :=
    [.request, .subscribe "ahp-root://", .attachSubscription "ahp-root://", .events, .check 0 true,
      .insert 0, .enqueue 0, .writerTake, .writerSend true true, .acked 0, .response 1 true,
      .readerNext, .readerNext, .receive 0, .check 1 true, .insert 1, .shutdown, .tearDown,
      .tearDown, .tearDown, .tearDown, .tearDown, .tearDown, .tearDown, .sawDone 1, .fail 1,
      .closeSub 1]
  have hview : (runs step connected actions).map
      (fun s => (s.teardown, s.handles.length, s.returns)) =
        some (.finished, 3, [(0, .result (.response 1 true)), (1, .shutdown)]) := by decide +kernel
  obtain ⟨s, hr, hview⟩ := Option.map_eq_some_iff.mp hview
  obtain ⟨hfinished, hrest⟩ := Prod.mk.inj hview
  obtain ⟨hlength, hreturns⟩ := Prod.mk.inj hrest
  have hg : Guarded step InTime connected actions := by decide +kernel
  obtain ⟨hsafe, -, -, hdown⟩ := torn_down_of_handles_in_time actions s hg hr
  exact ⟨s, hfinished, hlength, hreturns, hsafe, (hdown hfinished).2⟩

/-- A subscription that is attached after the teardown stays open, and so does one that an
`Unsubscribe` has taken out and not closed yet. -/
theorem handles_left_open :
    ¬ (∀ (actions : List Act) (s : State), runs step connected actions = some s →
        s.teardown = .finished → ∀ h ∈ s.handles, h.returned = true → h.closed = true) ∧
      ∃ (actions : List Act) (s : State), runs step connected actions = some s ∧
        s.teardown = .finished ∧ s.unsubscribes = [[0]] ∧ s.handles = [⟨false, false, true⟩] := by
  constructor
  · intro h
    have hview : (runs step connected [.shutdown, .tearDown, .tearDown, .tearDown, .tearDown,
        .attachSubscription "ahp-root://"]).map (fun s => (s.teardown, s.handles)) =
        some (.finished, [⟨false, false, true⟩]) := by decide
    obtain ⟨s, hr, hview⟩ := Option.map_eq_some_iff.mp hview
    obtain ⟨hfinished, hhandles⟩ := Prod.mk.inj hview
    have hclosed := h _ s hr hfinished ⟨false, false, true⟩ (by rw [hhandles]; exact List.mem_cons_self)
      rfl
    cases hclosed
  · let actions : List Act :=
      [.attachSubscription "ahp-root://", .unsubscribe "ahp-root://", .shutdown, .tearDown, .tearDown,
        .tearDown, .tearDown]
    have hview : (runs step connected actions).map (fun s => (s.teardown, s.unsubscribes, s.handles)) =
        some (.finished, [[0]], [⟨false, false, true⟩]) := by decide
    obtain ⟨s, hr, hview⟩ := Option.map_eq_some_iff.mp hview
    obtain ⟨hfinished, hrest⟩ := Prod.mk.inj hview
    obtain ⟨hunsubs, hhandles⟩ := Prod.mk.inj hrest
    exact ⟨actions, s, hr, hfinished, hunsubs, hhandles⟩

end State

end AgentHostProtocol.Go.Client
