import AgentHostProtocol.Go.Client
import AgentHostProtocol.Library.Lists

/-!
# The calls of the Go client

Who may send to the channel of a request and close it: it is in `pending`, or the reader or the
teardown has taken it out, and only one of these. So a channel gets one result, the response to
its own request, and is closed after it.
-/

namespace AgentHostProtocol.Go.Client

open Library

/-- The call's id and channel have been in `pending`, or the call needs none. -/
def Calling.inserted : Calling → Bool
  | .called | .inserting => false
  | _ => true

/-- The call gets no result any more. -/
def Calling.isOver : Calling → Bool
  | .failing _ | .closing _ | .returned _ => true
  | _ => false

/-- Once `c.done` is closed the call cannot succeed. -/
def Calling.hopeless : Calling → Bool
  | .called | .closing _ | .returned _ => true
  | _ => false

/-- What the call is about to return or has returned. -/
def Calling.outcome? : Calling → Option Outcome
  | .failing outcome | .closing outcome | .returned outcome => some outcome
  | _ => none

/-- A response belongs to the request with the id, and a result is there. -/
def Outcome.Of (id : UInt64) : Outcome → Prop
  | .result (.response id' _) => id' = id
  | .zero => False
  | _ => True

namespace Call

/-- What holds of every call. -/
structure Ok (call : Call) : Prop where
  fresh : call.pc.inserted = false → call.resultCh = ⟨none, false⟩
  own : ∀ {id : UInt64} {ok : Bool}, call.resultCh.value = some (.response id ok) → id = call.id
  /-- A closed channel has a value for as long as the call may receive. -/
  closed : call.resultCh.closed = true → call.resultCh.value = none → call.pc.isOver = true
  outcome : ∀ {outcome : Outcome}, call.pc.outcome? = some outcome → outcome.Of call.id
  closing : ∀ {outcome : Outcome}, call.pc = .closing outcome → call.sub ≠ none

/-- What a step of the call itself may do to it. -/
structure Advances (done : Bool) (call call' : Call) : Prop where
  sub : call'.sub = call.sub
  id : call.pc.inserted = true → call'.id = call.id
  inserted : call.pc.inserted = true → call'.pc.inserted = true
  isOver : call.pc.isOver = true → call'.pc.isOver = true
  hopeless : done = true → call.pc.hopeless = true → call'.pc.hopeless = true
  returned : ∀ {outcome : Outcome}, call.pc = .returned outcome → call'.pc = .returned outcome
  resultCh : call'.resultCh = call.resultCh ∨
    call.resultCh.value ≠ none ∧ call'.resultCh = ⟨none, call.resultCh.closed⟩ ∧ call'.pc.isOver = true
  outcome : ∀ {outcome : Outcome}, call'.pc.outcome? = some outcome → outcome.Of call'.id
  closing : ∀ {outcome : Outcome}, call'.pc = .closing outcome → call'.sub ≠ none

theorem Ok.advances {done : Bool} {call call' : Call} (hok : call.Ok)
    (ha : call.Advances done call') : call'.Ok where
  fresh hfresh := by
    have hnot : call.pc.inserted = false := by
      cases h : call.pc.inserted with
      | false => rfl
      | true => rw [ha.inserted h] at hfresh; cases hfresh
    have hch := hok.fresh hnot
    rcases ha.resultCh with heq | ⟨hvalue, -⟩
    · rw [heq, hch]
    · rw [hch] at hvalue
      exact absurd rfl hvalue
  own hvalue := by
    rcases ha.resultCh with heq | ⟨-, heq, -⟩
    · rw [heq] at hvalue
      have hin : call.pc.inserted = true := by
        cases h : call.pc.inserted with
        | true => rfl
        | false => rw [hok.fresh h] at hvalue; cases hvalue
      rw [ha.id hin]
      exact hok.own hvalue
    · rw [heq] at hvalue
      cases hvalue
  closed hclosed hnone := by
    rcases ha.resultCh with heq | ⟨-, -, hover⟩
    · rw [heq] at hclosed hnone
      exact ha.isOver (hok.closed hclosed hnone)
    · exact hover
  outcome := ha.outcome
  closing := ha.closing

/-- Only the result of the send is new. -/
theorem Ok.acked {call : Call} (hok : call.Ok) (done : Bool) (ack : Option Bool) :
    call.Advances done { call with ack := ack } :=
  ⟨rfl, fun _ => rfl, fun h => h, fun h => h, fun _ h => h, fun h => h, .inl rfl, hok.outcome,
    hok.closing⟩

end Call

namespace State

/-- The request is to get its result. -/
def Awaits (s : State) (i : ℕ) (id : UInt64) : Prop :=
  ∃ call, s.calls[i]? = some call ∧ call.id = id ∧ call.resultCh = ⟨none, false⟩ ∧
    call.pc.inserted = true

/-- The invariant of the calls. -/
structure Answered (s : State) : Prop where
  calls : ∀ {i : ℕ} {call : Call}, s.calls[i]? = some call → call.Ok
  pending : ∀ {id : UInt64} {i : ℕ}, (id, i) ∈ s.pending → s.Awaits i id
  nodup : (s.pending.map Prod.snd).Nodup
  delivering : ∀ {i : ℕ} {r : PendingResult}, s.reader = .delivering i r →
    i ∉ s.pending.map Prod.snd ∧ ∃ id ok, r = .response id ok ∧ s.Awaits i id
  closing : ∀ {i : ℕ}, s.reader = .closing i →
    i ∉ s.pending.map Prod.snd ∧ ∃ call, s.calls[i]? = some call ∧ call.pc.inserted = true ∧
      call.resultCh.closed = false ∧ (call.resultCh.value ≠ none ∨ call.pc.isOver = true)
  returns : ∀ {i : ℕ} {outcome : Outcome}, (i, outcome) ∈ s.returns →
    ∃ call, s.calls[i]? = some call ∧ call.pc = .returned outcome
  once : (s.returns.map Prod.fst).Nodup

theorem answered_connected : Answered connected where
  calls h := by simp [connected] at h
  pending h := by cases h
  nodup := List.nodup_nil
  delivering h := by cases h
  closing h := by cases h
  returns h := by cases h
  once := List.nodup_nil

/-- A step that leaves the calls alone. -/
theorem Answered.of_eq {s s' : State} (ha : Answered s) (hcalls : s'.calls = s.calls)
    (hpending : s'.pending = s.pending) (hreader : s'.reader = s.reader)
    (hreturns : s'.returns = s.returns) : Answered s' := by
  obtain ⟨calls, nextID, pending, outbound, reader, writer, done, teardown, handles, subscriptions,
    eventListeners, unsubscribes, returns, panicked⟩ := s'
  cases hcalls
  cases hpending
  cases hreader
  cases hreturns
  exact ⟨ha.calls, ha.pending, ha.nodup, ha.delivering, ha.closing, ha.returns, ha.once⟩

/-- A request that has not been in `pending` is not there. -/
theorem Answered.not_pending {s : State} (ha : Answered s) {i : ℕ} {call : Call}
    (hc : s.calls[i]? = some call) (hpc : call.pc.inserted = false) :
    i ∉ s.pending.map Prod.snd := by
  intro hi
  obtain ⟨⟨id, j⟩, hmem, rfl⟩ := List.mem_map.mp hi
  obtain ⟨call', hc', -, -, hin⟩ := ha.pending hmem
  rw [hc] at hc'
  cases hc'
  rw [hpc] at hin
  cases hin

/-! ### New calls and steps of a call -/

theorem Answered.newCall {s : State} (ha : Answered s) (request : Bool) (sub : Option ℕ)
    {pc : Calling} (hpc : pc = .called ∨ pc = .sending) : Answered (s.newCall request sub pc) := by
  have hkeeps : ∀ {i id}, s.Awaits i id → (s.newCall request sub pc).Awaits i id :=
    fun ⟨call, hc, hrest⟩ => ⟨call, getElem?_concat_of_some hc _, hrest⟩
  have hnone : pc.outcome? = none := by
    rcases hpc with rfl | rfl
    · rfl
    · rfl
  constructor
  · intro i call hc
    rcases getElem?_concat_eq_some hc with ⟨-, rfl⟩ | hc
    · constructor
      · exact fun _ => rfl
      · exact fun h => by cases h
      · exact fun h => by cases h
      · intro outcome h
        change pc.outcome? = _ at h
        rw [hnone] at h
        cases h
      · intro outcome h
        change pc = _ at h
        rw [h] at hnone
        cases hnone
    · exact ha.calls hc
  · exact fun hmem => hkeeps (ha.pending hmem)
  · exact ha.nodup
  · intro i r hr
    obtain ⟨hnot, id, ok, heq, haw⟩ := ha.delivering hr
    exact ⟨hnot, id, ok, heq, hkeeps haw⟩
  · intro i hr
    obtain ⟨hnot, call, hc, hrest⟩ := ha.closing hr
    exact ⟨hnot, call, getElem?_concat_of_some hc _, hrest⟩
  · intro i outcome hmem
    obtain ⟨call, hc, hpc⟩ := ha.returns hmem
    exact ⟨call, getElem?_concat_of_some hc _, hpc⟩
  · exact ha.once

/-- Reading a call after one of them was replaced. -/
theorem getElem?_set_cases {s : State} {i : ℕ} {call : Call} (hc : s.calls[i]? = some call)
    (call' : Call) {j : ℕ} {other : Call} (hj : s.calls[j]? = some other) :
    j = i ∧ other = call ∧ (s.calls.set i call')[j]? = some call' ∨
      (s.calls.set i call')[j]? = some other := by
  by_cases hij : i = j
  · subst hij
    rw [hc] at hj
    cases hj
    exact .inl ⟨rfl, rfl, getElem?_set_of_some hc call'⟩
  · exact .inr (by rw [List.getElem?_set_ne hij]; exact hj)

theorem Awaits.set {s : State} {i j : ℕ} {id : UInt64} {call call' : Call} {done : Bool}
    (h : s.Awaits j id) (hc : s.calls[i]? = some call) (hadv : call.Advances done call') :
    Awaits { s with calls := s.calls.set i call' } j id := by
  obtain ⟨other, hj, hid, hch, hin⟩ := h
  rcases getElem?_set_cases hc call' hj with ⟨rfl, rfl, hset⟩ | hset
  · refine ⟨call', hset, (hadv.id hin).trans hid, ?_, hadv.inserted hin⟩
    rcases hadv.resultCh with heq | ⟨hvalue, -⟩
    · rw [heq, hch]
    · rw [hch] at hvalue
      exact absurd rfl hvalue
  · exact ⟨other, hset, hid, hch, hin⟩

theorem Answered.set {s : State} (ha : Answered s) {i : ℕ} {call call' : Call} {done : Bool}
    (hc : s.calls[i]? = some call) (hadv : call.Advances done call') :
    Answered { s with calls := s.calls.set i call' } where
  calls hj := by
    rcases getElem?_set_eq_some hj with ⟨-, rfl⟩ | ⟨-, hj⟩
    · exact (ha.calls hc).advances hadv
    · exact ha.calls hj
  pending hmem := (ha.pending hmem).set hc hadv
  nodup := ha.nodup
  delivering hr := by
    obtain ⟨hnot, id, ok, heq, haw⟩ := ha.delivering hr
    exact ⟨hnot, id, ok, heq, haw.set hc hadv⟩
  closing hr := by
    obtain ⟨hnot, other, hj, hin, hclosed, hvalue⟩ := ha.closing hr
    refine ⟨hnot, ?_⟩
    rcases getElem?_set_cases hc call' hj with ⟨rfl, rfl, hset⟩ | hset
    · rcases hadv.resultCh with heq | ⟨-, heq, hover⟩
      · rw [← heq] at hclosed hvalue
        exact ⟨call', hset, hadv.inserted hin, hclosed, hvalue.imp_right hadv.isOver⟩
      · exact ⟨call', hset, hadv.inserted hin, by rw [heq]; exact hclosed, .inr hover⟩
    · exact ⟨other, hset, hin, hclosed, hvalue⟩
  returns hmem := by
    obtain ⟨other, hj, hpc⟩ := ha.returns hmem
    rcases getElem?_set_cases hc call' hj with ⟨rfl, rfl, hset⟩ | hset
    · exact ⟨call', hset, hadv.returned hpc⟩
    · exact ⟨other, hset, hpc⟩
  once := ha.once

/-- A call returns. -/
theorem Answered.ret {s : State} (ha : Answered s) {i : ℕ} {call call' : Call} {done : Bool}
    {outcome : Outcome} (hc : s.calls[i]? = some call) (hadv : call.Advances done call')
    (hnot : ∀ outcome, call.pc ≠ .returned outcome) (hpc : call'.pc = .returned outcome) :
    Answered { s with
      calls := s.calls.set i call', returns := s.returns ++ [(i, outcome)] } := by
  have hset := ha.set hc hadv
  refine ⟨hset.calls, hset.pending, hset.nodup, hset.delivering, hset.closing, ?_, ?_⟩
  · intro j o hmem
    rcases List.mem_append.mp hmem with hmem | hmem
    · exact hset.returns hmem
    · cases List.mem_singleton.mp hmem
      exact ⟨call', getElem?_set_of_some hc call', hpc⟩
  · rw [List.map_append]
    refine List.Nodup.append ha.once (List.nodup_singleton i) ?_
    intro j hj hi
    obtain rfl := List.mem_singleton.mp hi
    obtain ⟨⟨j, o⟩, hmem, rfl⟩ := List.mem_map.mp hj
    obtain ⟨other, hother, hreturned⟩ := ha.returns hmem
    rw [hc] at hother
    cases hother
    exact hnot o hreturned

/-! ### `pending` -/

/-- Some entries of `pending` go. -/
theorem Answered.filterPending {s : State} (ha : Answered s) (p : UInt64 × ℕ → Bool) :
    Answered { s with pending := s.pending.filter p } := by
  have hsub : ∀ {i}, i ∈ (s.pending.filter p).map Prod.snd → i ∈ s.pending.map Prod.snd :=
    fun hi => (List.filter_sublist.map Prod.snd).subset hi
  constructor
  · exact ha.calls
  · exact fun hmem => ha.pending (List.mem_filter.mp hmem).1
  · exact ha.nodup.sublist (List.filter_sublist.map _)
  · intro i r hr
    obtain ⟨hnot, hrest⟩ := ha.delivering hr
    exact ⟨fun hi => hnot (hsub hi), hrest⟩
  · intro i hr
    obtain ⟨hnot, hrest⟩ := ha.closing hr
    exact ⟨fun hi => hnot (hsub hi), hrest⟩
  · exact ha.returns
  · exact ha.once

/-- `c.pending[id] = resultCh`. -/
theorem Answered.insert {s : State} (ha : Answered s) {i : ℕ} {call : Call}
    (hc : s.calls[i]? = some call) (hpc : call.pc = .inserting) :
    Answered { (s.setPc i call .sending).deletePending call.id with
      pending := (call.id, i) :: s.pending.filter (·.1 ≠ call.id) } := by
  have hadv : call.Advances s.done { call with pc := .sending } := by
    constructor <;> simp [hpc, Calling.inserted, Calling.isOver, Calling.hopeless, Calling.outcome?]
  have hnot := ha.not_pending hc (by rw [hpc]; rfl)
  have hch := (ha.calls hc).fresh (by rw [hpc]; rfl)
  have hset := (ha.set hc hadv).filterPending (fun e => e.1 ≠ call.id)
  have hne : ∀ {j}, j ∉ s.pending.map Prod.snd → (∃ other : Call, s.calls[j]? = some other ∧
      other.pc.inserted = true) →
      j ∉ ((call.id, i) :: s.pending.filter (·.1 ≠ call.id)).map Prod.snd := by
    intro j hj ⟨other, hother, hin⟩ hmem
    rcases List.mem_cons.mp hmem with rfl | hmem
    · rw [hc] at hother
      cases hother
      rw [hpc] at hin
      cases hin
    · exact hj ((List.filter_sublist.map Prod.snd).subset hmem)
  constructor
  · exact hset.calls
  · intro id j hmem
    rcases List.mem_cons.mp hmem with heq | hmem
    · cases heq
      exact ⟨_, getElem?_set_of_some hc _, rfl, hch, rfl⟩
    · exact hset.pending hmem
  · refine List.nodup_cons.mpr ⟨fun hmem => hnot ?_, hset.nodup⟩
    exact (List.filter_sublist.map Prod.snd).subset hmem
  · intro j r hr
    obtain ⟨-, hrest⟩ := hset.delivering hr
    obtain ⟨hj, id, ok, -, other, hother, -, -, hin⟩ := ha.delivering hr
    exact ⟨hne hj ⟨other, hother, hin⟩, hrest⟩
  · intro j hr
    obtain ⟨-, hrest⟩ := hset.closing hr
    obtain ⟨hj, other, hother, hin, -⟩ := ha.closing hr
    exact ⟨hne hj ⟨other, hother, hin⟩, hrest⟩
  · exact hset.returns
  · exact hset.once

/-! ### The reader and the teardown -/

/-- The reader goes on without a call. -/
theorem Answered.reads {s : State} (ha : Answered s) {reader : Reader}
    (hdelivering : ∀ i r, reader ≠ .delivering i r) (hclosing : ∀ i, reader ≠ .closing i) :
    Answered { s with reader := reader } where
  calls := ha.calls
  pending := ha.pending
  nodup := ha.nodup
  delivering hr := absurd hr (hdelivering _ _)
  closing hr := absurd hr (hclosing _)
  returns := ha.returns
  once := ha.once

/-- Two entries of one call are one. -/
theorem eq_of_mem_pending {pending : List (UInt64 × ℕ)} (hnd : (pending.map Prod.snd).Nodup)
    {id id' : UInt64} {i : ℕ} (h : (id, i) ∈ pending) (h' : (id', i) ∈ pending) : id = id' := by
  have heq := List.inj_on_of_nodup_map hnd h h' rfl
  exact (Prod.mk.inj heq).1

/-- The reader takes a request out of `pending`. -/
theorem Answered.take {s : State} (ha : Answered s) {id : UInt64} {i : ℕ} (ok : Bool)
    (hi : s.pending.lookup id = some i) :
    Answered { s.deletePending id with reader := .delivering i (.response id ok) } := by
  have hmem := mem_of_lookup_eq_some hi
  have hrest := ha.filterPending fun e => e.1 ≠ id
  refine ⟨hrest.calls, hrest.pending, hrest.nodup, ?_, fun hr => (by cases hr), ha.returns,
    ha.once⟩
  intro j r hr
  cases hr
  refine ⟨fun hj => ?_, id, ok, rfl, ha.pending hmem⟩
  obtain ⟨⟨id', j⟩, hj, rfl⟩ := List.mem_map.mp hj
  obtain ⟨hj, hne⟩ := List.mem_filter.mp hj
  obtain rfl := eq_of_mem_pending ha.nodup hmem hj
  simp at hne

/-- Only the channel of the call is new, and no one else has it. -/
theorem Awaits.set_ne {s : State} {i j : ℕ} {id : UInt64} (h : s.Awaits j id) (hne : i ≠ j)
    (call : Call) : Awaits { s with calls := s.calls.set i call } j id := by
  obtain ⟨other, hj, hrest⟩ := h
  exact ⟨other, by rw [← hj]; exact List.getElem?_set_ne hne, hrest⟩

/-- A call that is replaced where it is has returned what it had. -/
theorem Answered.returns_set {s : State} (ha : Answered s) {i : ℕ} {call : Call}
    (hc : s.calls[i]? = some call) {call' : Call} (hpc : call'.pc = call.pc) {j : ℕ} {outcome : Outcome}
    (hmem : (j, outcome) ∈ s.returns) :
    ∃ other, (s.calls.set i call')[j]? = some other ∧ other.pc = .returned outcome := by
  obtain ⟨other, hj, hreturned⟩ := ha.returns hmem
  rcases getElem?_set_cases hc call' hj with ⟨rfl, rfl, hset⟩ | hset
  · exact ⟨call', hset, hpc.trans hreturned⟩
  · exact ⟨other, hset, hreturned⟩

/-- The reader sends the result. -/
theorem Answered.sendResult {s : State} (ha : Answered s) {i : ℕ} {call : Call} {r : PendingResult}
    (hr : s.reader = .delivering i r) (hc : s.calls[i]? = some call) :
    Answered { s.sendResult i call r with reader := .closing i } ∧
      (s.sendResult i call r).panicked = s.panicked := by
  obtain ⟨hnot, id, ok, rfl, other, hother, hid, hch, hin⟩ := ha.delivering hr
  rw [hc] at hother
  obtain rfl := Option.some.inj hother
  have hok := ha.calls hc
  constructor
  · constructor
    · intro j other hj
      rcases getElem?_set_eq_some hj with ⟨-, rfl⟩ | ⟨-, hj⟩
      · constructor
        · intro hfresh
          change call.pc.inserted = false at hfresh
          rw [hin] at hfresh
          cases hfresh
        · intro id' ok' hvalue
          cases hvalue
          exact hid.symm
        · exact fun _ hnone => by cases hnone
        · exact hok.outcome
        · exact hok.closing
      · exact ha.calls hj
    · intro id' j hmem
      refine (ha.pending hmem).set_ne ?_ _
      rintro rfl
      exact hnot (List.mem_map_of_mem hmem)
    · exact ha.nodup
    · exact fun h => by cases h
    · intro j hj
      cases hj
      refine ⟨hnot, _, getElem?_set_of_some hc _, hin, ?_, .inl (by simp)⟩
      rw [hch]
    · intro j outcome hmem
      exact ha.returns_set hc (by rfl) hmem
    · exact ha.once
  · change (s.panicked || call.resultCh.closed) = s.panicked
    rw [hch, Bool.or_false]

/-- The reader closes the channel. -/
theorem Answered.closeResult {s : State} (ha : Answered s) {i : ℕ} {call : Call}
    (hr : s.reader = .closing i) (hc : s.calls[i]? = some call) :
    Answered { s.closeResult i call with reader := .receiving } ∧
      (s.closeResult i call).panicked = s.panicked := by
  obtain ⟨hnot, other, hother, hin, hclosed, hvalue⟩ := ha.closing hr
  rw [hc] at hother
  obtain rfl := Option.some.inj hother
  have hok := ha.calls hc
  constructor
  · constructor
    · intro j other hj
      rcases getElem?_set_eq_some hj with ⟨-, rfl⟩ | ⟨-, hj⟩
      · constructor
        · intro hfresh
          change call.pc.inserted = false at hfresh
          rw [hin] at hfresh
          cases hfresh
        · exact hok.own
        · intro _ hnone
          rcases hvalue with hvalue | hover
          · exact absurd hnone hvalue
          · exact hover
        · exact hok.outcome
        · exact hok.closing
      · exact ha.calls hj
    · intro id' j hmem
      refine (ha.pending hmem).set_ne ?_ _
      rintro rfl
      exact hnot (List.mem_map_of_mem hmem)
    · exact ha.nodup
    · exact fun h => by cases h
    · exact fun h => by cases h
    · intro j outcome hmem
      exact ha.returns_set hc (by rfl) hmem
    · exact ha.once
  · change (s.panicked || call.resultCh.closed) = s.panicked
    rw [hclosed, Bool.or_false]

/-- A call after the teardown has gone through `pending`. -/
theorem getElem?_failPending {s : State} (i : ℕ) :
    s.failPending.calls[i]? = (s.calls[i]?).map fun call =>
      if i ∈ s.pending.map Prod.snd then
        { call with resultCh := ⟨call.resultCh.value.or (some .failed), true⟩ }
      else call := by
  change (s.calls.mapIdx _)[i]? = _
  rw [List.getElem?_mapIdx]
  congr 1
  funext call
  have hiff : (s.pending.any fun e => e.2 = i) = true ↔ i ∈ s.pending.map Prod.snd := by
    simp [List.any_eq_true]
  by_cases hi : i ∈ s.pending.map Prod.snd
  · rw [if_pos hi, if_pos (hiff.mpr hi)]
  · rw [if_neg hi, if_neg fun h => hi (hiff.mp h)]

theorem Answered.failPending {s : State} (ha : Answered s) :
    Answered s.failPending ∧ s.failPending.panicked = s.panicked := by
  have hother : ∀ {i call}, i ∉ s.pending.map Prod.snd → s.calls[i]? = some call →
      s.failPending.calls[i]? = some call := by
    intro i call hi hc
    rw [getElem?_failPending, hc]
    simp only [Option.map_some, if_neg hi]
  constructor
  · constructor
    · intro i call hc
      rw [getElem?_failPending] at hc
      obtain ⟨call₀, hc₀, rfl⟩ := Option.map_eq_some_iff.mp hc
      have hok := ha.calls hc₀
      split
      · next hi =>
        obtain ⟨⟨id, j⟩, hmem, rfl⟩ := List.mem_map.mp hi
        obtain ⟨call₁, hc₁, -, hch, hin⟩ := ha.pending hmem
        rw [hc₀] at hc₁
        obtain rfl := Option.some.inj hc₁
        constructor
        · intro hfresh
          change call₀.pc.inserted = false at hfresh
          rw [hin] at hfresh
          cases hfresh
        · intro id' ok' hvalue
          simp [hch] at hvalue
        · intro _ hnone
          simp [hch] at hnone
        · exact hok.outcome
        · exact hok.closing
      · exact hok
    · exact fun hmem => by cases hmem
    · exact List.nodup_nil
    · intro i r hr
      obtain ⟨hnot, id, ok, heq, call, hc, hrest⟩ := ha.delivering hr
      exact ⟨List.not_mem_nil, id, ok, heq, call, hother hnot hc, hrest⟩
    · intro i hr
      obtain ⟨hnot, call, hc, hrest⟩ := ha.closing hr
      exact ⟨List.not_mem_nil, call, hother hnot hc, hrest⟩
    · intro i outcome hmem
      obtain ⟨call, hc, hpc⟩ := ha.returns hmem
      refine ⟨_, by rw [getElem?_failPending, hc]; rfl, ?_⟩
      split <;> exact hpc
    · exact ha.once
  · change (s.panicked || _) = s.panicked
    have hopen : (s.pending.any fun e => (s.calls[e.2]?).any fun call => call.resultCh.closed) =
        false := by
      refine List.any_eq_false.mpr fun e hmem => ?_
      obtain ⟨id, i⟩ := e
      obtain ⟨call, hc, -, hch, -⟩ := ha.pending hmem
      rw [hc]
      simp [hch]
    rw [hopen, Bool.or_false]

end State

end AgentHostProtocol.Go.Client
