import AgentHostProtocol.Dotnet.Calls
import AgentHostProtocol.Library.Runs

/-!
# The teardown of the .NET client

`ShutdownWithErrorAsync` cancels the reader and the writer, completes the outbound channel, fails
what is in `_pending` and closes the handles in the registries. A call that waits for its frame to
be sent is told of it by the writer alone: what is in the channel when the writer stops, or comes
into it before it is completed, is dropped, and the call waits for ever. A handle that is attached
after the registries were copied stays open. And a `ShutdownAsync` that comes second awaits the
reader and the writer, which stop before the teardown is over.

* `shutdown_settles_and_closes` — in every run in which the writer leaves no frame of a call
  behind, no handle comes too late and no second `ShutdownAsync` returns too early, a call returns
  at most one outcome, its own, and once a `ShutdownAsync` has returned no call waits and all
  handles that were returned are closed.
-/

namespace AgentHostProtocol.Dotnet.Client

open Library

namespace State

/-! ### The reader and the writer -/

/-- The teardown begins. -/
theorem Sound.begin {s : State} (hs : Sound s) (hstarted : s.teardown.started = false)
    {runner : Runner} {reader : Reader} {writer : Writer} {shutdowns : List Shutdown}
    (hreader : ∀ i r, s.reader = .delivering i r → reader = .delivering i r)
    (hreading : ∀ i r, reader = .delivering i r → s.reader = .delivering i r)
    (hwriter : ∀ {i : ℕ} {call : Call}, s.calls[i]? = some call → call.pc = .sending →
      s.writer = .sending i → call.sent ≠ none ∨ writer = .sending i)
    (hstopped : writer.stopped = true → s.NoneLeft)
    (hshutdowns : ∀ c : ℕ, shutdowns[c]? ≠ some Shutdown.returned)
    (hreads : runner = .reader → reader = .tearingDown)
    (hwrites : runner = .writer → writer = .tearingDown) :
    Sound { s with
      teardown := .begun, runner := runner, reader := reader, writer := writer,
      shutdowns := shutdowns } := by
  refine ⟨⟨hs.answered.calls, hs.answered.pending, hs.answered.keys,
    fun h => hs.answered.delivering (hreading _ _ h), fun {i call} hc hkind hpc => ?_,
    hs.answered.distinct, fun _ _ _ _ => trivial, hs.answered.returns, hs.answered.once⟩,
    ⟨fun hc hpc => ?_, hstopped⟩, ⟨hs.tended.sub, fun hk hopen => ?_⟩, ?_⟩
  · rcases hs.answered.awaited hc hkind hpc with h | h | ⟨r, h⟩
    · exact .inl h
    · exact .inr (.inl h)
    · exact .inr (.inr ⟨r, hreader _ _ h⟩)
  · rcases hs.written.sending hc hpc with h | h | h
    · exact .inl h
    · exact .inr (.inl h)
    · rcases hwriter hc hpc h with h | h
      · exact .inl h
      · exact .inr (.inr h)
  · rcases hs.tended.kept hk hopen with ⟨-, hreg⟩ | ⟨left, hleft, -⟩ | ⟨hon, -⟩
    · exact .inl ⟨rfl, hreg⟩
    · rw [hleft] at hstarted
      cases hstarted
    · rw [hstarted] at hon
      cases hon
  · exact ⟨fun c h => absurd h (hshutdowns c), fun _ _ => ⟨hreads, hwrites⟩⟩

/-- No `ShutdownAsync` has returned before the teardown has begun. -/
theorem Sound.none_joined {s : State} (hs : Sound s) (hstarted : s.teardown.started = false) (c : ℕ) :
    s.shutdowns[c]? ≠ some .returned := by
  intro h
  rw [(hs.joined.1 c h).1] at hstarted
  cases hstarted

/-- The reader goes on, and is not in the teardown. -/
theorem Sound.reads {s s' : State} (hs : Sound s) {reader : Reader}
    (ha : Answered { s' with reader := reader }) (hwritten : Written s') (htended : Tended s')
    (hshutdowns : s'.shutdowns = s.shutdowns) (hteardown : s'.teardown = s.teardown)
    (hrunner : s'.runner = s.runner) (hwriter : s'.writer = s.writer)
    (hnot : s.reader ≠ .tearingDown ∧ s.reader ≠ .returned) : Sound { s' with reader := reader } := by
  refine ⟨ha, hwritten.of_eq rfl rfl rfl, htended.of_eq rfl rfl rfl rfl, fun c h => ?_,
    fun hon hunfinished => ⟨fun h => ?_, fun h => ?_⟩⟩
  · change s'.shutdowns[c]? = _ at h
    rw [hshutdowns] at h
    exact absurd (hs.joined.1 c h).2.1 hnot.2
  · change s'.teardown.started = true at hon
    change s'.runner = _ at h
    rw [hteardown] at hon
    rw [hrunner] at h
    exact absurd ((hs.joined.2 hon (hteardown ▸ hunfinished)).1 h) hnot.1
  · change s'.teardown.started = true at hon
    change s'.runner = _ at h
    rw [hteardown] at hon
    rw [hrunner] at h
    exact hwriter.trans ((hs.joined.2 hon (hteardown ▸ hunfinished)).2 h)

theorem Sound.dispatch {s s' : State} (hs : Sound s) {id : UInt64} {ok : Bool}
    (h : s.dispatch id ok = some s') : Sound s' := by
  unfold State.dispatch at h
  split at h
  · next hreader =>
    split at h
    · next i hi =>
      cases h
      exact hs.reads (hs.answered.dispatch hreader hi ok) (hs.written.of_eq rfl rfl rfl)
        (hs.tended.of_eq rfl rfl rfl rfl) rfl rfl rfl rfl (by rw [hreader]; simp)
    · cases h
      exact hs
  · cases h

theorem Sound.complete {s : State} (hs : Sound s) {i : ℕ} {r : Response}
    (hown : ∀ {id : UInt64}, r = .result id → ∃ call, s.calls[i]? = some call ∧ call.id = some id) :
    Sound (s.complete i r) := by
  cases hc : s.calls[i]? with
  | none =>
    unfold State.complete
    rw [hc]
    exact hs
  | some call =>
    rw [complete_of_some hc]
    refine hs.set hc (advances_complete (hs.answered.calls hc) _ fun hr => ?_) rfl (fun _ h => h)
      fun h => h
    obtain ⟨other, ho, hid⟩ := hown hr
    rw [hc] at ho
    cases ho
    exact hid

theorem Sound.deliver {s s' : State} (hs : Sound s) (h : s.deliver = some s') : Sound s' := by
  unfold State.deliver at h
  split at h
  · next i r hreader =>
    cases h
    have hcomplete : Sound (s.complete i r) := hs.complete fun h => hs.answered.delivering (h ▸ hreader)
    have hanswered := hs.answered.deliver hreader
    obtain ⟨calls, heq, -⟩ := complete_eq s i r
    rw [heq] at hcomplete hanswered ⊢
    exact hs.reads hanswered hcomplete.written hcomplete.tended rfl rfl rfl rfl (by rw [hreader]; simp)
  · cases h

theorem Sound.readerStops {s : State} (hs : Sound s) (hreader : s.reader = .receiving) :
    Sound { s with reader := .returned } := by
  refine hs.reads (hs.answered.reads (fun i r h => ?_) fun h => by cases h) hs.written hs.tended rfl
    rfl rfl rfl (by rw [hreader]; simp)
  rw [hreader] at h
  cases h

theorem Sound.recvError {s s' : State} (hs : Sound s) (h : s.recvError = some s') : Sound s' := by
  unfold State.recvError at h
  split at h
  · next hreader =>
    split at h
    · cases h
      exact hs.readerStops hreader
    · next hstarted =>
      cases h
      have hstarted : s.teardown.started = false := by simpa using hstarted
      refine hs.begin hstarted (fun i r h => ?_) (fun i r h => by cases h) (fun _ _ h => .inr h)
        hs.written.stopped (hs.none_joined hstarted) (fun _ => rfl) fun h => by cases h
      rw [hreader] at h
      cases h
  · cases h

theorem Sound.readerStop {s s' : State} (hs : Sound s) (h : s.readerStop = some s') : Sound s' := by
  unfold State.readerStop at h
  split at h
  · next hreader =>
    split at h
    · cases h
      exact hs.readerStops hreader
    · cases h
  · cases h

/-- The writer goes on, and is not in the teardown. -/
theorem Sound.writes {s : State} (hs : Sound s) {writer : Writer} {outbound : List ℕ}
    (hwritten : Written { s with writer := writer, outbound := outbound })
    (hnot : s.writer.stopped = false) :
    Sound { s with writer := writer, outbound := outbound } := by
  refine ⟨hs.answered.of_eq rfl rfl rfl (fun h => h) rfl, hwritten, hs.tended.of_eq rfl rfl rfl rfl,
    fun c h => ?_, fun hon hunfinished => ⟨(hs.joined.2 hon hunfinished).1, fun h => ?_⟩⟩
  · rw [(hs.joined.1 c h).2.2] at hnot
    cases hnot
  · rw [(hs.joined.2 hon hunfinished).2 h] at hnot
    cases hnot

theorem Sound.writerRead {s s' : State} (hs : Sound s) (h : s.writerRead = some s') : Sound s' := by
  unfold State.writerRead at h
  split at h
  · next i rest hwriter houtbound =>
    cases h
    refine hs.writes (hs.written.writes (fun {j call} _ _ h => ?_) fun h => by cases h)
      (by rw [hwriter]; rfl)
    rcases h with h | h
    · rw [houtbound] at h
      rcases List.mem_cons.mp h with rfl | h
      · exact .inr (.inr rfl)
      · exact .inr (.inl h)
    · rw [hwriter] at h
      cases h
  · next hwriter houtbound =>
    cases h
    refine hs.writes (hs.written.writes (fun {j call} _ _ h => ?_) fun h => by cases h)
      (by rw [hwriter]; rfl)
    rcases h with h | h
    · exact .inr (.inl h)
    · rw [hwriter] at h
      cases h
  · cases h

/-- The writer holds no message. -/
theorem Sound.writer_moves {s : State} (hs : Sound s) {writer : Writer} (hold : s.writer.message? = none)
    (hnot : s.writer.stopped = false) (hstopped : writer.stopped = true → s.NoneLeft) :
    Sound { s with writer := writer } := by
  refine hs.writes (hs.written.writes (fun {j call} _ _ h => ?_) hstopped) hnot
  rcases h with h | h
  · exact .inr (.inl h)
  · rw [h] at hold
    cases hold

theorem Sound.writerWake {s s' : State} (hs : Sound s) (h : s.writerWake = some s') : Sound s' := by
  unfold State.writerWake at h
  split at h
  · next hwriter _ =>
    cases h
    exact hs.writer_moves (by rw [hwriter]; rfl) (by rw [hwriter]; rfl) fun h => by cases h
  · cases h

theorem Sound.writerStop {s s' : State} (hs : Sound s) (hg : InTime s .writerStop)
    (h : s.writerStop = some s') : Sound s' := by
  unfold State.writerStop at h
  split at h
  · next hwriter =>
    split at h
    · cases h
      exact hs.writer_moves (by rw [hwriter]; rfl) (by rw [hwriter]; rfl) fun _ => hg
    · cases h
  · cases h

theorem completeSent_eq (s : State) (i : ℕ) (v : Sent) :
    ∃ calls, s.completeSent i v = { s with calls := calls } ∧
      ∀ call, calls[i]? = some call → call.kind = .reply ∨ call.sent ≠ none := by
  unfold completeSent
  cases hc : s.calls[i]? with
  | none => exact ⟨s.calls, rfl, fun call h => by rw [hc] at h; cases h⟩
  | some call =>
    by_cases hkind : call.kind = .reply
    · refine ⟨s.calls, if_pos hkind, fun call' h => .inl ?_⟩
      rw [hc] at h
      cases h
      exact hkind
    · refine ⟨_, if_neg hkind, fun call' h => .inr ?_⟩
      rw [getElem?_set_of_some hc] at h
      cases h
      cases call.sent <;> simp

theorem Sound.completeSent {s : State} (hs : Sound s) (i : ℕ) (v : Sent) :
    Sound (s.completeSent i v) := by
  unfold State.completeSent
  split
  · next call hc =>
    split
    · exact hs
    · have hok := hs.answered.calls hc
      refine hs.set hc ⟨rfl, rfl, fun h => h, fun h => ?_, fun h => h, ⟨hok.unminted, hok.minted,
        hok.receiving, hok.sending, hok.closing, hok.own, hok.outcome⟩, fun h => h, fun _ h => h,
        fun _ _ h => h⟩ rfl (fun _ h => h) fun h => h
      cases hsent : call.sent with
      | none => exact absurd hsent h
      | some v' => simp
  · exact hs

/-- The call whose message the writer held knows of it. -/
theorem Sound.told {s : State} (hs : Sound s) (i : ℕ) (v : Sent) {call : Call}
    (hc : (s.completeSent i v).calls[i]? = some call) (hpc : call.pc = .sending) : call.sent ≠ none := by
  have hok := (hs.completeSent i v).answered.calls hc
  obtain ⟨calls, heq, htold⟩ := completeSent_eq s i v
  rw [heq] at hc
  rcases htold call hc with hreply | hsent
  · exact absurd hreply (hok.sending hpc)
  · exact hsent

theorem NoneLeft.completeSent {s : State} (h : s.NoneLeft) (i : ℕ) (v : Sent) :
    (s.completeSent i v).NoneLeft := by
  unfold State.completeSent
  split
  · next call hc =>
    split
    · exact h
    · intro j hj
      exact isReply_set { call with sent := call.sent.or (some v) } hc rfl (h j hj)
  · exact h

theorem completeSent_writer (s : State) (i : ℕ) (v : Sent) :
    (s.completeSent i v).writer = s.writer ∧ (s.completeSent i v).teardown = s.teardown := by
  obtain ⟨calls, heq, -⟩ := completeSent_eq s i v
  rw [heq]
  exact ⟨rfl, rfl⟩

/-- The writer is done with the message it held. -/
theorem Sound.writer_leaves {s : State} (hs : Sound s) {i : ℕ} (hwriter : s.writer = .sending i)
    (htold : ∀ {call : Call}, s.calls[i]? = some call → call.pc = .sending → call.sent ≠ none)
    {writer : Writer} (hstopped : writer.stopped = true → s.NoneLeft) :
    Sound { s with writer := writer } := by
  refine hs.writes (hs.written.writes (fun {j call} hc hpc h => ?_) hstopped) (by rw [hwriter]; rfl)
  rcases h with h | h
  · exact .inr (.inl h)
  · rw [hwriter] at h
    cases h
    exact .inl (htold hc hpc)

theorem Sound.writerFails {s : State} (hs : Sound s) {i : ℕ} (hwriter : s.writer = .sending i)
    (htold : ∀ {call : Call}, s.calls[i]? = some call → call.pc = .sending → call.sent ≠ none)
    (hleft : s.NoneLeft) : Sound s.writerFails := by
  unfold State.writerFails
  split
  · exact hs.writer_leaves hwriter htold fun _ => hleft
  · next hstarted =>
    have hstarted : s.teardown.started = false := by simpa using hstarted
    refine hs.begin hstarted (fun _ _ h => h) (fun _ _ h => h) (fun hc hpc h => ?_) (fun _ => hleft)
      (hs.none_joined hstarted) (fun h => by cases h) fun _ => rfl
    rw [hwriter] at h
    cases h
    exact .inl (htold hc hpc)

theorem Sound.writerSend {s s' : State} (hs : Sound s) {result : Sending}
    (hg : InTime s (.writerSend result)) (h : s.writerSend result = some s') : Sound s' := by
  unfold State.writerSend at h
  split at h
  · next i hwriter =>
    cases h
    exact (hs.completeSent i .ok).writer_leaves ((completeSent_writer s i .ok).1.trans hwriter)
      (hs.told i .ok) fun h => by cases h
  · next i hwriter =>
    cases h
    obtain ⟨hleft, hreply⟩ := hg
    rw [hwriter] at hreply
    refine hs.writerFails hwriter (fun hc hpc => ?_) hleft
    obtain ⟨other, ho, hkind⟩ := isReply_iff.mp hreply
    rw [hc] at ho
    cases ho
    exact absurd hkind ((hs.answered.calls hc).sending hpc)
  · next i hwriter =>
    split at h
    · cases h
      exact (hs.completeSent i .closed).writer_leaves
        ((completeSent_writer s i .closed).1.trans hwriter) (hs.told i .closed)
        fun _ => NoneLeft.completeSent hg i .closed
    · cases h
  · next i hwriter =>
    cases h
    exact (hs.completeSent i .failed).writerFails ((completeSent_writer s i .failed).1.trans hwriter)
      (hs.told i .failed) (NoneLeft.completeSent hg i .failed)
  · cases h

/-! ### The teardown -/

theorem Sound.pingFailed {s s' : State} (hs : Sound s) (h : s.pingFailed = some s') : Sound s' := by
  unfold State.pingFailed at h
  split at h
  · cases h
    exact hs
  · next hstarted =>
    cases h
    have hstarted : s.teardown.started = false := by simpa using hstarted
    exact hs.begin hstarted (fun _ _ h => h) (fun _ _ h => h) (fun _ _ h => .inr h)
      hs.written.stopped (hs.none_joined hstarted) (fun h => by cases h) fun h => by cases h

/-- Only the list of the calls of `ShutdownAsync` changes. -/
theorem Sound.shutdowns {s : State} (hs : Sound s) {shutdowns : List Shutdown}
    (h : ∀ c : ℕ, shutdowns[c]? = some Shutdown.returned →
      s.teardown = .finished ∧ s.reader = .returned ∧ s.writer = .returned) :
    Sound { s with shutdowns := shutdowns } :=
  ⟨hs.answered.of_eq rfl rfl rfl (fun h => h) rfl, hs.written.of_eq rfl rfl rfl,
    hs.tended.of_eq rfl rfl rfl rfl, h, hs.joined.2⟩

theorem Sound.shutdown {s s' : State} (hs : Sound s) (h : s.shutdown = some s') : Sound s' := by
  unfold State.shutdown at h
  split at h
  · cases h
    refine hs.shutdowns fun c h => ?_
    rcases getElem?_concat_eq_some h with ⟨-, h⟩ | h
    · cases h
    · exact hs.joined.1 c h
  · next hstarted =>
    cases h
    have hstarted : s.teardown.started = false := by simpa using hstarted
    refine hs.begin hstarted (fun _ _ h => h) (fun _ _ h => h) (fun _ _ h => .inr h)
      hs.written.stopped (fun c h => ?_) (fun h => by cases h) fun h => by cases h
    rcases getElem?_concat_eq_some h with ⟨-, h⟩ | h
    · cases h
    · exact hs.none_joined hstarted c h

theorem Sound.joins {s s' : State} (hs : Sound s) {c : ℕ} (hg : InTime s (.joined c))
    (h : State.joined s c = some s') : Sound s' := by
  unfold State.joined at h
  split at h
  · next hjoining hreader hwriter =>
    cases h
    refine hs.shutdowns fun d h => ?_
    rcases getElem?_set_eq_some h with - | ⟨-, h⟩
    · exact ⟨hg, hreader, hwriter⟩
    · exact hs.joined.1 d h
  · cases h

/-- The teardown goes on, before it is finished. -/
theorem Sound.advances {s : State} (hs : Sound s) {teardown : Teardown}
    (hstarted : s.teardown.started = true) (hstarted' : teardown.started = true)
    (hunfinished : s.teardown ≠ .finished)
    (hreach : ∀ e ∈ s.pending, s.teardown.Reaches e.1 → teardown.Reaches e.1)
    (hkept : ∀ {k : ℕ} {h : Handle}, s.handles[k]? = some h → h.closed = false →
      s.teardown.hasFailed = false ∧ k ∈ s.registered ∨
        (∃ left, s.teardown = .closing left ∧ k ∈ left) →
      teardown.hasFailed = false ∧ k ∈ s.registered ∨ ∃ left, teardown = .closing left ∧ k ∈ left) :
    Sound { s with teardown := teardown } := by
  refine ⟨hs.answered.reach hreach, hs.written.of_eq rfl rfl rfl, ⟨hs.tended.sub, fun hk hopen => ?_⟩,
    fun c h => absurd (hs.joined.1 c h).1 hunfinished, fun _ _ => hs.joined.2 hstarted hunfinished⟩
  rcases hs.tended.kept hk hopen with h | h | ⟨-, hnot, hhopeless⟩
  · rcases hkept hk hopen (.inl h) with h | h
    · exact .inl h
    · exact .inr (.inl h)
  · rcases hkept hk hopen (.inr h) with h | h
    · exact .inl h
    · exact .inr (.inl h)
  · exact .inr (.inr ⟨hstarted', hnot, hhopeless⟩)

/-- An early step of the teardown. -/
theorem Sound.early {s : State} (hs : Sound s) {teardown : Teardown}
    (hstarted : s.teardown.started = true) (hstarted' : teardown.started = true)
    (hold : s.teardown.hasFailed = false) (hnew : teardown.hasFailed = false)
    (hreach : ∀ e ∈ s.pending, s.teardown.Reaches e.1 → teardown.Reaches e.1) :
    Sound { s with teardown := teardown } := by
  refine hs.advances hstarted hstarted' (fun h => ?_) hreach fun _ _ h => ?_
  · rw [h] at hold
    cases hold
  · rcases h with h | ⟨left, h, -⟩
    · exact .inl ⟨hnew, h.2⟩
    · rw [h] at hold
      cases hold

theorem Sound.failEntry {s : State} (hs : Sound s) (id : UInt64) : Sound (s.failEntry id) := by
  have hanswered := hs.answered.failEntry id
  unfold State.failEntry at hanswered ⊢
  cases hi : s.pending.lookup id with
  | none => exact hs
  | some i =>
    rw [hi] at hanswered
    have hcomplete := hs.complete (i := i) (r := .closed) fun h => by cases h
    change Answered ((s.removePending (some id)).complete i .closed) at hanswered
    change Sound ((s.removePending (some id)).complete i .closed)
    rw [complete_removePending] at hanswered ⊢
    exact ⟨hanswered, hcomplete.written.of_eq rfl rfl rfl, hcomplete.tended.of_eq rfl rfl rfl rfl,
      hcomplete.joined⟩

theorem closed_closeHandle {s : State} {k : ℕ} {h : Handle} (hk : (s.closeHandle k).handles[k]? = some h) :
    h.closed = true := by
  unfold closeHandle at hk
  cases hold : s.handles[k]? with
  | none =>
    rw [hold] at hk
    change s.handles[k]? = some h at hk
    rw [hold] at hk
    cases hk
  | some g =>
    rw [hold] at hk
    change (s.handles.set k _)[k]? = some h at hk
    rw [getElem?_set_of_some hold] at hk
    cases hk
    rfl

theorem closeHandle_teardown (s : State) (k : ℕ) : (s.closeHandle k).teardown = s.teardown := by
  unfold closeHandle
  split
  · rfl
  · rfl

/-- `ShutdownWithErrorAsync` returns. -/
theorem Sound.finishTeardown {s : State} (hs : Sound s) (hclosing : s.teardown = .closing []) :
    Sound s.finishTeardown := by
  have hstarted : s.teardown.started = true := by rw [hclosing]; rfl
  have hunfinished : s.teardown ≠ .finished := by rw [hclosing]; simp
  have hfinished : Sound { s with teardown := .finished } := by
    refine hs.advances hstarted rfl hunfinished (fun e _ h => ?_) fun _ _ h => ?_
    · rw [hclosing] at h
      exact h
    · rcases h with ⟨h, -⟩ | ⟨left, hleft, hmem⟩
      · rw [hclosing] at h
        cases h
      · rw [hclosing] at hleft
        cases hleft
        cases hmem
  obtain ⟨hreads, hwrites⟩ := hs.joined.2 hstarted hunfinished
  have hnone : ∀ c : ℕ, s.shutdowns[c]? ≠ some .returned :=
    fun c h => hunfinished (hs.joined.1 c h).1
  unfold State.finishTeardown
  split
  · next c hrunner =>
    refine hfinished.shutdowns fun d h => ?_
    rcases getElem?_set_eq_some h with ⟨-, h⟩ | ⟨-, h⟩
    · cases h
    · exact absurd h (hnone d)
  · next hrunner =>
    have hreader := hreads hrunner
    refine ⟨hfinished.answered.reads (fun i r h => ?_) fun h => (by cases h),
      hfinished.written.of_eq rfl rfl rfl, hfinished.tended.of_eq rfl rfl rfl rfl,
      fun c h => absurd h (hnone c), fun _ h => absurd rfl h⟩
    change s.reader = _ at h
    rw [hreader] at h
    cases h
  · next hrunner =>
    have hwriter := hwrites hrunner
    refine ⟨hfinished.answered.of_eq rfl rfl rfl (fun h => h) rfl,
      hfinished.written.writes (fun _ _ h => ?_) fun _ => hfinished.written.stopped ?_,
      hfinished.tended.of_eq rfl rfl rfl rfl, fun c h => absurd h (hnone c), fun _ h => absurd rfl h⟩
    · rcases h with h | h
      · exact .inr (.inl h)
      · change s.writer = _ at h
        rw [hwriter] at h
        cases h
    · change s.writer.stopped = true
      rw [hwriter]
      rfl
  · exact hfinished

theorem Sound.tearDown {s s' : State} (hs : Sound s) (h : s.tearDown = some s') : Sound s' := by
  unfold State.tearDown at h
  split at h
  · cases h
  · next hteardown =>
    cases h
    exact hs.early (by rw [hteardown]; rfl) rfl (by rw [hteardown]; rfl) rfl fun _ _ _ => trivial
  · next hteardown =>
    cases h
    exact hs.early (by rw [hteardown]; rfl) rfl (by rw [hteardown]; rfl) rfl fun _ _ _ => trivial
  · next hteardown =>
    cases h
    exact hs.early (by rw [hteardown]; rfl) rfl (by rw [hteardown]; rfl) rfl fun _ _ _ => trivial
  · next hteardown =>
    cases h
    exact hs.early (by rw [hteardown]; rfl) rfl (by rw [hteardown]; rfl) rfl
      fun e he _ => List.mem_map_of_mem he
  · next id left hteardown =>
    cases h
    have hfailed := hs.failEntry id
    obtain ⟨calls, pending, heq, hgone⟩ := failEntry_eq s id
    rw [heq] at hfailed ⊢
    refine hfailed.early (by rw [hteardown]; rfl) rfl (by rw [hteardown]; rfl) rfl fun e he h => ?_
    rw [hteardown] at h
    rcases List.mem_cons.mp h with h | h
    · exact absurd h (hgone e he).2
    · exact h
  · next hteardown =>
    cases h
    have hstarted : s.teardown.started = true := by rw [hteardown]; rfl
    have hclosing : Sound { s with teardown := .closing s.registered } := by
      refine hs.advances hstarted rfl (by rw [hteardown]; simp) (fun e _ h => ?_) fun _ _ h => ?_
      · rw [hteardown] at h
        cases h
      · rcases h with ⟨-, h⟩ | ⟨left, h, -⟩
        · exact .inr ⟨_, rfl, h⟩
        · rw [hteardown] at h
          cases h
    refine ⟨hclosing.answered.of_eq rfl rfl rfl (fun h => h) rfl, hclosing.written.of_eq rfl rfl rfl,
      ⟨hclosing.tended.sub, fun hk hopen => ?_⟩, hclosing.joined⟩
    rcases hclosing.tended.kept hk hopen with ⟨h, -⟩ | h | h
    · cases h
    · exact .inr (.inl h)
    · exact .inr (.inr h)
  · next k left hteardown =>
    cases h
    have hclosed := hs.closeHandle k
    have hsame := (closeHandle_teardown s k).trans hteardown
    refine hclosed.advances (by rw [hsame]; rfl) rfl (by rw [hsame]; simp) (fun e _ h => ?_)
      fun hj hopen h => ?_
    · rw [hsame] at h
      exact h
    · rcases h with ⟨h, -⟩ | ⟨left', h, hmem⟩
      · rw [hsame] at h
        cases h
      · rw [hsame] at h
        cases h
        rcases List.mem_cons.mp hmem with rfl | hmem
        · rw [closed_closeHandle hj] at hopen
          cases hopen
        · exact .inr ⟨left, rfl, hmem⟩
  · next hteardown =>
    cases h
    exact hs.finishTeardown hteardown
  · cases h

theorem Sound.failAdded {s s' : State} (hs : Sound s) {id : UInt64} (h : s.failAdded id = some s') :
    Sound s' := by
  unfold State.failAdded at h
  split at h
  · cases h
    exact hs.failEntry id
  · cases h

theorem sound_step {s s' : State} {a : Act} (hs : Sound s) (hg : InTime s a) (h : s.step a = some s') :
    Sound s' := by
  cases a with
  | request =>
    cases h
    exact ⟨hs.answered.newCall _ _, hs.written.newCall _ _, hs.tended.newCall _, hs.joined⟩
  | subscribe uri =>
    cases h
    have hanswered : Answered (s.attachSubscription uri false) :=
      hs.answered.of_eq rfl rfl rfl (fun h => h) rfl
    have hwritten : Written (s.attachSubscription uri false) := hs.written.of_eq rfl rfl rfl
    exact ⟨hanswered.newCall _ _, hwritten.newCall _ _, hs.tended.subscribe uri, hs.joined⟩
  | notify =>
    cases h
    exact ⟨hs.answered.newCall _ _, hs.written.newCall _ _, hs.tended.newCall _, hs.joined⟩
  | reply =>
    cases h
    exact ⟨hs.answered.newCall _ _, hs.written.newCall _ _, hs.tended.newCall _, hs.joined⟩
  | check i encoded =>
    obtain ⟨call, hc, h⟩ := Option.bind_eq_some_iff.mp h
    exact hs.check hc hg h
  | insert i =>
    obtain ⟨call, hc, h⟩ := Option.bind_eq_some_iff.mp h
    exact hs.insert hc h
  | recheck i encoded =>
    obtain ⟨call, hc, h⟩ := Option.bind_eq_some_iff.mp h
    exact hs.recheck hc h
  | enqueue i =>
    obtain ⟨call, hc, h⟩ := Option.bind_eq_some_iff.mp h
    exact hs.enqueue hc hg h
  | refused i =>
    obtain ⟨call, hc, h⟩ := Option.bind_eq_some_iff.mp h
    exact hs.refused hc h
  | wasSent i =>
    obtain ⟨call, hc, h⟩ := Option.bind_eq_some_iff.mp h
    exact hs.wasSent hc h
  | receive i decoded =>
    obtain ⟨call, hc, h⟩ := Option.bind_eq_some_iff.mp h
    exact hs.receive hc h
  | fail i =>
    obtain ⟨call, hc, h⟩ := Option.bind_eq_some_iff.mp h
    exact hs.fail hc h
  | closeSub i =>
    obtain ⟨call, hc, h⟩ := Option.bind_eq_some_iff.mp h
    exact hs.closeSub hc h
  | attachSubscription uri =>
    cases h
    refine ⟨hs.answered.of_eq rfl rfl rfl (fun h => h) rfl, hs.written.of_eq rfl rfl rfl,
      hs.tended.attach (fun k hk => ?_) ?_ fun h => ?_, hs.joined⟩
    · rcases List.mem_append.mp hk with hk | hk
      · rw [List.map_append]
        exact List.mem_append_left _ (List.mem_append_left _ hk)
      · exact List.mem_append_right _ hk
    · rw [List.map_append]
      exact List.mem_append_left _ (List.mem_append_right _ List.mem_cons_self)
    · rw [show s.teardown.hasFailed = false from hg] at h
      cases h
  | createEventStream =>
    cases h
    refine ⟨hs.answered.of_eq rfl rfl rfl (fun h => h) rfl, hs.written.of_eq rfl rfl rfl,
      hs.tended.attach (fun k hk => ?_) ?_ fun h => ?_, hs.joined⟩
    · rw [← List.append_assoc]
      exact List.mem_append_left _ hk
    · exact List.mem_append_right _ (List.mem_append_right _ List.mem_cons_self)
    · rw [show s.teardown.hasFailed = false from hg] at h
      cases h
  | close k =>
    simp only [step] at h
    split at h
    · cases h
      exact hs.closeHandle k
    · cases h
  | response id ok => exact hs.dispatch h
  | deliver => exact hs.deliver h
  | recvError => exact hs.recvError h
  | readerStop => exact hs.readerStop h
  | writerRead => exact hs.writerRead h
  | writerWake => exact hs.writerWake h
  | writerStop => exact hs.writerStop hg h
  | writerSend result => exact hs.writerSend hg h
  | pingFailed => exact hs.pingFailed h
  | shutdown => exact hs.shutdown h
  | joined c => exact hs.joins hg h
  | tearDown => exact hs.tearDown h
  | failAdded id => exact hs.failAdded h

/-- Once a `ShutdownAsync` has returned no call waits. -/
theorem Sound.enabled {s : State} (hs : Sound s) {c : ℕ} (hjoined : s.shutdowns[c]? = some .returned)
    {i : ℕ} {call : Call} (hc : s.calls[i]? = some call) :
    (∃ outcome, call.pc = .returned outcome) ∨ ∃ a, a.caller = some i ∧ (s.step a).isSome = true := by
  obtain ⟨hfinished, hreader, hwriter⟩ := hs.joined.1 c hjoined
  have hok := hs.answered.calls hc
  have hcompleted : s.teardown.isCompleted = true := by rw [hfinished]; rfl
  cases hpc : call.pc with
  | called =>
    refine .inr ⟨.check i true, rfl, ?_⟩
    simp [step, hc, State.check, hpc, hfinished, Teardown.started]
  | inserting =>
    obtain ⟨id, hid⟩ := Option.ne_none_iff_exists'.mp (hok.minted hpc)
    refine .inr ⟨.insert i, rfl, ?_⟩
    simp [step, hc, State.insert, hpc, hid]
  | rechecking =>
    refine .inr ⟨.recheck i true, rfl, ?_⟩
    simp [step, hc, State.recheck, hpc, hfinished, Teardown.started]
  | writing =>
    refine .inr ⟨.refused i, rfl, ?_⟩
    simp [step, hc, State.refused, hpc, hcompleted]
  | sending =>
    have hsent : call.sent ≠ none := by
      rcases hs.written.sending hc hpc with h | h | h
      · exact h
      · obtain ⟨other, ho, hkind⟩ := isReply_iff.mp (hs.written.stopped (by rw [hwriter]; rfl) i h)
        rw [hc] at ho
        cases ho
        exact absurd hkind (hok.sending hpc)
      · rw [hwriter] at h
        cases h
    refine .inr ⟨.wasSent i, rfl, ?_⟩
    obtain ⟨v, hv⟩ := Option.ne_none_iff_exists'.mp hsent
    cases v with
    | ok => by_cases hkind : call.kind = .request <;> simp [step, hc, State.wasSent, hpc, hv, hkind]
    | closed => simp [step, hc, State.wasSent, hpc, hv]
    | failed => simp [step, hc, State.wasSent, hpc, hv]
  | receiving =>
    have hkind := hok.receiving hpc
    have hresponse : call.response ≠ none := by
      rcases hs.answered.awaited hc hkind (by rw [hpc]; rfl) with h | ⟨id, -, hmem⟩ | ⟨r, h⟩
      · exact h
      · have hreached := hs.answered.reached hmem hc hkind (by rw [hpc]; rfl)
        rw [hfinished] at hreached
        cases hreached
      · rw [hreader] at h
        cases h
    refine .inr ⟨.receive i true, rfl, ?_⟩
    obtain ⟨r, hr⟩ := Option.ne_none_iff_exists'.mp hresponse
    rw [step, hc, Option.bind_some, State.receive, hpc, hr]
    cases r <;> rfl
  | failing outcome =>
    refine .inr ⟨.fail i, rfl, ?_⟩
    simp [step, hc, State.fail, hpc]
  | closing outcome =>
    obtain ⟨k, hk⟩ := Option.ne_none_iff_exists'.mp (hok.closing hpc)
    refine .inr ⟨.closeSub i, rfl, ?_⟩
    simp [step, hc, State.closeSub, hpc, hk]
  | returned outcome => exact .inl ⟨outcome, rfl⟩

/-- Once a `ShutdownAsync` has returned the application has no open handle. -/
theorem Sound.closed {s : State} (hs : Sound s) {c : ℕ} (hjoined : s.shutdowns[c]? = some .returned)
    {h : Handle} (hmem : h ∈ s.handles) (hreturned : h.returned = true) : h.closed = true := by
  obtain ⟨hfinished, -, -⟩ := hs.joined.1 c hjoined
  obtain ⟨k, hk⟩ := List.mem_iff_getElem?.mp hmem
  cases hopen : h.closed with
  | true => rfl
  | false =>
    rcases hs.tended.kept hk hopen with ⟨hnot, -⟩ | ⟨left, hleft, -⟩ | ⟨-, hnot, -⟩
    · rw [hfinished] at hnot
      cases hnot
    · rw [hfinished] at hleft
      cases hleft
    · rw [hnot h hk] at hreturned
      cases hreturned

/-- **The teardown**: in every run in which the writer leaves no frame of a call behind, no request
gets the id of another one under way, no handle is attached after the registries were copied and no
`ShutdownAsync` returns before the teardown is finished, every call returns at most once, a result
only under its own id, and once a `ShutdownAsync` has returned no call waits and all handles that
were returned are closed. -/
theorem shutdown_settles_and_closes (actions : List Act) (s : State)
    (hg : Guarded step InTime connected actions) (hr : runs step connected actions = some s) :
    (s.returns.map Prod.fst).Nodup ∧
      (∀ e ∈ s.returns, ∃ call, s.calls[e.1]? = some call ∧ call.pc = .returned e.2 ∧
        ∀ id, e.2 = .response (.result id) → call.id = some id) ∧
      ((∃ c : ℕ, s.shutdowns[c]? = some .returned) →
        (∀ (i : ℕ) (call : Call), s.calls[i]? = some call → (∃ outcome, call.pc = .returned outcome) ∨
          ∃ a, a.caller = some i ∧ (s.step a).isSome = true) ∧
        ∀ h ∈ s.handles, h.returned = true → h.closed = true) := by
  have hs : Sound s := runs_invariant step sound_step sound_connected hg hr
  refine ⟨hs.answered.once, fun e he => ?_, fun ⟨c, hjoined⟩ => ⟨fun i call hc => ?_, fun h hmem => ?_⟩⟩
  · obtain ⟨i, outcome⟩ := e
    obtain ⟨call, hc, hpc⟩ := hs.answered.returns he
    refine ⟨call, hc, hpc, fun id h => (hs.answered.calls hc).outcome ?_⟩
    rw [hpc]
    exact congrArg some h
  · exact hs.enabled hjoined hc
  · exact hs.closed hjoined hmem

/-- A request that is answered, a subscription and a stream, a notification that is cut off by the
teardown, and two calls of `ShutdownAsync`. -/
theorem shutdown_settles_and_closes_answered :
    ∃ s : State, s.shutdowns = [.returned, .returned] ∧
      s.returns = [(0, .response (.result 1)), (1, .closed)] ∧ s.handles.length = 2 ∧
      ∀ h ∈ s.handles, h.returned = true → h.closed = true := by
  let actions : List Act :=
    [.attachSubscription "ahp-root://", .createEventStream, .request, .check 0 true, .insert 0,
      .recheck 0 true, .enqueue 0, .writerRead, .writerSend .sent, .wasSent 0, .response 1 true,
      .deliver, .receive 0 true, .notify, .check 1 true, .enqueue 1, .writerRead, .shutdown, .shutdown,
      .tearDown, .writerSend .cancelled, .wasSent 1, .readerStop, .tearDown, .tearDown, .tearDown,
      .tearDown, .tearDown, .tearDown, .tearDown, .joined 0, .joined 1]
  have hview : (runs step connected actions).map
      (fun s => (s.shutdowns, s.returns, s.handles.length)) =
        some ([.returned, .returned], [(0, .response (.result 1)), (1, .closed)], 2) := by
    decide +kernel
  obtain ⟨s, hr, hview⟩ := Option.map_eq_some_iff.mp hview
  obtain ⟨hshutdowns, hrest⟩ := Prod.mk.inj hview
  obtain ⟨hreturns, hlength⟩ := Prod.mk.inj hrest
  have hg : Guarded step InTime connected actions := by decide +kernel
  obtain ⟨-, -, hdown⟩ := shutdown_settles_and_closes actions s hg hr
  exact ⟨s, hshutdowns, hreturns, hlength, (hdown ⟨0, by rw [hshutdowns]; rfl⟩).2⟩

/-- A notification whose frame comes into the channel after the writer has stopped waits for ever: the
writer is the only one to complete its `sentTcs`. A handle that is attached after the teardown stays
open. And a second `ShutdownAsync` returns while the first is at the transport and a request waits. -/
theorem frame_left_behind :
    (∃ (actions : List Act) (s : State), runs step connected actions = some s ∧
      s.shutdowns = [.returned] ∧ s.reader = .returned ∧ s.writer = .returned ∧
      s.calls = [⟨.notify, none, none, .sending, none, none⟩] ∧
      ∀ a : Act, a.caller = some 0 → s.step a = none) ∧
    (∃ (actions : List Act) (s : State), runs step connected actions = some s ∧
      s.shutdowns = [.returned] ∧ s.handles = [⟨false, true⟩]) ∧
    ∃ (actions : List Act) (s : State), runs step connected actions = some s ∧
      s.shutdowns = [.tearingDown, .returned] ∧
      s.calls = [⟨.request, some 1, none, .receiving, some .ok, none⟩] := by
  refine ⟨?_, ?_, ?_⟩
  · let actions : List Act :=
      [.notify, .check 0 true, .writerRead, .shutdown, .tearDown, .writerStop, .enqueue 0, .readerStop,
        .tearDown, .tearDown, .tearDown, .tearDown, .tearDown, .joined 0]
    have hview : (runs step connected actions).map
        (fun s => (s.shutdowns, s.reader, s.writer, s.calls)) =
          some ([.returned], .returned, .returned, [⟨.notify, none, none, .sending, none, none⟩]) := by
      decide +kernel
    obtain ⟨s, hr, hview⟩ := Option.map_eq_some_iff.mp hview
    obtain ⟨hshutdowns, hrest⟩ := Prod.mk.inj hview
    obtain ⟨hreader, hrest⟩ := Prod.mk.inj hrest
    obtain ⟨hwriter, hcalls⟩ := Prod.mk.inj hrest
    refine ⟨actions, s, hr, hshutdowns, hreader, hwriter, hcalls, fun a ha => ?_⟩
    cases a with
    | receive i decoded =>
      cases ha
      rw [step, hcalls]
      rfl
    | _ => cases ha <;> simp [step, hcalls, check, insert, recheck, enqueue, refused, wasSent, fail, closeSub]
  · let actions : List Act :=
      [.writerRead, .shutdown, .tearDown, .writerStop, .readerStop, .tearDown, .tearDown, .tearDown,
        .tearDown, .tearDown, .joined 0, .attachSubscription "ahp-root://"]
    have hview : (runs step connected actions).map (fun s => (s.shutdowns, s.handles)) =
        some ([.returned], [⟨false, true⟩]) := by decide +kernel
    obtain ⟨s, hr, hview⟩ := Option.map_eq_some_iff.mp hview
    obtain ⟨hshutdowns, hhandles⟩ := Prod.mk.inj hview
    exact ⟨actions, s, hr, hshutdowns, hhandles⟩
  · let actions : List Act :=
      [.request, .check 0 true, .insert 0, .recheck 0 true, .enqueue 0, .writerRead, .writerSend .sent,
        .wasSent 0, .writerRead, .shutdown, .tearDown, .shutdown, .writerStop, .readerStop, .joined 1]
    have hview : (runs step connected actions).map (fun s => (s.shutdowns, s.calls)) =
        some ([.tearingDown, .returned], [⟨.request, some 1, none, .receiving, some .ok, none⟩]) := by
      decide +kernel
    obtain ⟨s, hr, hview⟩ := Option.map_eq_some_iff.mp hview
    obtain ⟨hshutdowns, hcalls⟩ := Prod.mk.inj hview
    exact ⟨actions, s, hr, hshutdowns, hcalls⟩

end State

end AgentHostProtocol.Dotnet.Client
