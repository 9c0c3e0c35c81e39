import AgentHostProtocol.Dotnet.Client

/-!
# The calls of the .NET client

A request that has put its `TaskCompletionSource` into `_pending` finds its response in it, or the
entry is still there, or the reader has just taken it out. A call that waits for its frame to be
sent has it in the outbound channel or with the writer, or has heard of it. The first holds as long
as no two requests under way have one id, the second as long as the writer leaves no frame behind.
-/

namespace AgentHostProtocol.Dotnet.Client

open Library

namespace Calling

/-- The request has had an entry in `_pending`, and wants its response. -/
def expects : Calling → Bool
  | .rechecking | .writing | .sending | .receiving => true
  | _ => false

/-- The request goes on without a look at `_shutdownStarted`. -/
def awaits : Calling → Bool
  | .writing | .sending | .receiving => true
  | _ => false

/-- Once the client is shut down the call cannot succeed. -/
def hopeless : Calling → Bool
  | .called | .closing _ | .returned _ => true
  | _ => false

def isReturned : Calling → Bool
  | .returned _ => true
  | _ => false

/-- What the call is about to return or has returned. -/
def outcome? : Calling → Option Outcome
  | .failing outcome | .closing outcome | .returned outcome => some outcome
  | _ => none

end Calling

namespace Call

/-- What holds of every call. -/
structure Ok (call : Call) : Prop where
  unminted : call.pc = .called → call.id = none
  minted : call.pc = .inserting → call.id ≠ none
  receiving : call.pc = .receiving → call.kind = .request
  sending : call.pc = .sending → call.kind ≠ .reply
  closing : ∀ {outcome : Outcome}, call.pc = .closing outcome → call.sub ≠ none
  own : ∀ {id : UInt64}, call.response = some (.result id) → call.id = some id
  outcome : ∀ {id : UInt64}, call.pc.outcome? = some (.response (.result id)) → call.id = some id

/-- What a step may do to a call. -/
structure Advances (started : Bool) (call call' : Call) : Prop where
  kind : call'.kind = call.kind
  sub : call'.sub = call.sub
  id : ∀ {id : UInt64}, call.id = some id → call'.id = some id
  sent : call.sent ≠ none → call'.sent ≠ none
  response : call.response ≠ none → call'.response ≠ none
  ok : call'.Ok
  returned : ∀ {outcome : Outcome}, call.pc = .returned outcome → call'.pc = .returned outcome
  hopeless : started = true → call.pc.hopeless = true → call'.pc.hopeless = true
  awaits : started = true → call'.kind = .request → call'.pc.awaits = true → call.pc.awaits = true

end Call

/-- The writer takes no more messages. -/
def Writer.stopped : Writer → Bool
  | .tearingDown | .returned => true
  | _ => false

/-- The loop over `_pending` has not passed the id. -/
def Teardown.Reaches (id : UInt64) : Teardown → Prop
  | .failing left => id ∈ left
  | .closing _ | .finished => False
  | _ => True

namespace State

/-- The call is a reply. -/
def isReply (s : State) (i : ℕ) : Bool := (s.calls[i]?).any (·.kind = .reply)

/-- The response of the request is there, or there is still who brings it. -/
def Awaited (s : State) (i : ℕ) (call : Call) : Prop :=
  call.response ≠ none ∨ (∃ id, call.id = some id ∧ (id, i) ∈ s.pending) ∨
    ∃ r, s.reader = .delivering i r

/-- The invariant of `_pending` and of the calls. -/
structure Answered (s : State) : Prop where
  calls : ∀ {i : ℕ} {call : Call}, s.calls[i]? = some call → call.Ok
  pending : ∀ {id : UInt64} {i : ℕ}, (id, i) ∈ s.pending →
    ∃ call, s.calls[i]? = some call ∧ call.id = some id
  keys : (s.pending.map Prod.fst).Nodup
  delivering : ∀ {i : ℕ} {id : UInt64}, s.reader = .delivering i (.result id) →
    ∃ call, s.calls[i]? = some call ∧ call.id = some id
  awaited : ∀ {i : ℕ} {call : Call}, s.calls[i]? = some call → call.kind = .request →
    call.pc.expects = true → s.Awaited i call
  distinct : ∀ {i j : ℕ} {call other : Call} {id : UInt64}, s.calls[i]? = some call →
    s.calls[j]? = some other → call.pc.isReturned = false → other.pc.isReturned = false →
    call.id = some id → other.id = some id → i = j
  reached : ∀ {id : UInt64} {i : ℕ} {call : Call}, (id, i) ∈ s.pending → s.calls[i]? = some call →
    call.kind = .request → call.pc.awaits = true → s.teardown.Reaches id
  returns : ∀ {i : ℕ} {outcome : Outcome}, (i, outcome) ∈ s.returns →
    ∃ call, s.calls[i]? = some call ∧ call.pc = .returned outcome
  once : (s.returns.map Prod.fst).Nodup

/-- The invariant of the outbound channel. -/
structure Written (s : State) : Prop where
  sending : ∀ {i : ℕ} {call : Call}, s.calls[i]? = some call → call.pc = .sending →
    call.sent ≠ none ∨ i ∈ s.outbound ∨ s.writer = .sending i
  stopped : s.writer.stopped = true → ∀ i ∈ s.outbound, s.isReply i = true

theorem answered_connected : Answered connected where
  calls h := by simp [connected] at h
  pending h := by cases h
  keys := List.nodup_nil
  delivering h := by cases h
  awaited h := by simp [connected] at h
  distinct h := by simp [connected] at h
  reached h := by cases h
  returns h := by cases h
  once := List.nodup_nil

theorem written_connected : Written connected where
  sending h := by simp [connected] at h
  stopped h := by cases h

/-- A step that leaves alone what the invariant is about. -/
theorem Answered.of_eq {s s' : State} (ha : Answered s) (hcalls : s'.calls = s.calls)
    (hpending : s'.pending = s.pending) (hreader : s'.reader = s.reader)
    (hteardown : ∀ {id}, s.teardown.Reaches id → s'.teardown.Reaches id)
    (hreturns : s'.returns = s.returns) : Answered s' := by
  constructor
  · intro i call hc
    rw [hcalls] at hc
    exact ha.calls hc
  · intro id i hmem
    rw [hpending] at hmem
    rw [hcalls]
    exact ha.pending hmem
  · rw [hpending]
    exact ha.keys
  · intro i id hr
    rw [hreader] at hr
    rw [hcalls]
    exact ha.delivering hr
  · intro i call hc hkind hpc
    rw [hcalls] at hc
    have haw := ha.awaited hc hkind hpc
    unfold Awaited at haw ⊢
    rw [hpending, hreader]
    exact haw
  · intro i j call other id hc ho
    rw [hcalls] at hc ho
    exact ha.distinct hc ho
  · intro id i call hmem hc hkind hpc
    rw [hpending] at hmem
    rw [hcalls] at hc
    exact hteardown (ha.reached hmem hc hkind hpc)
  · intro i outcome hmem
    rw [hreturns] at hmem
    rw [hcalls]
    exact ha.returns hmem
  · rw [hreturns]
    exact ha.once

theorem Written.of_eq {s s' : State} (hw : Written s) (hcalls : s'.calls = s.calls)
    (houtbound : s'.outbound = s.outbound) (hwriter : s'.writer = s.writer) : Written s' := by
  constructor
  · intro i call hc hpc
    rw [hcalls] at hc
    rw [houtbound, hwriter]
    exact hw.sending hc hpc
  · intro hstopped i hi
    rw [hwriter] at hstopped
    rw [houtbound] at hi
    unfold isReply
    rw [hcalls]
    exact hw.stopped hstopped i hi

/-! ### A call is made or goes on -/

theorem Answered.newCall {s : State} (ha : Answered s) (kind : Kind) (sub : Option ℕ) :
    Answered (s.newCall kind sub) := by
  constructor
  · intro i call hc
    rcases getElem?_concat_eq_some hc with ⟨-, rfl⟩ | hc
    · constructor <;> simp [Calling.outcome?]
    · exact ha.calls hc
  · intro id i hmem
    obtain ⟨call, hc, hid⟩ := ha.pending hmem
    exact ⟨call, getElem?_concat_of_some hc _, hid⟩
  · exact ha.keys
  · intro i id hr
    obtain ⟨call, hc, hid⟩ := ha.delivering hr
    exact ⟨call, getElem?_concat_of_some hc _, hid⟩
  · intro i call hc hkind hpc
    rcases getElem?_concat_eq_some hc with ⟨-, rfl⟩ | hc
    · cases hpc
    · exact ha.awaited hc hkind hpc
  · intro i j call other id hc ho hlive hlive' hid hid'
    rcases getElem?_concat_eq_some hc with ⟨-, rfl⟩ | hc
    · cases hid
    · rcases getElem?_concat_eq_some ho with ⟨-, rfl⟩ | ho
      · cases hid'
      · exact ha.distinct hc ho hlive hlive' hid hid'
  · intro id i call hmem hc hkind hpc
    rcases getElem?_concat_eq_some hc with ⟨-, rfl⟩ | hc
    · cases hpc
    · exact ha.reached hmem hc hkind hpc
  · intro i outcome hmem
    obtain ⟨call, hc, hpc⟩ := ha.returns hmem
    exact ⟨call, getElem?_concat_of_some hc _, hpc⟩
  · exact ha.once

theorem isReply_iff {s : State} {i : ℕ} :
    s.isReply i = true ↔ ∃ call, s.calls[i]? = some call ∧ call.kind = .reply := by
  unfold isReply
  cases s.calls[i]? with
  | none => simp
  | some call => simp

theorem Written.newCall {s : State} (hw : Written s) (kind : Kind) (sub : Option ℕ) :
    Written (s.newCall kind sub) := by
  constructor
  · intro i call hc hpc
    rcases getElem?_concat_eq_some hc with ⟨-, rfl⟩ | hc
    · cases hpc
    · exact hw.sending hc hpc
  · intro hstopped i hi
    obtain ⟨call, hc, hkind⟩ := isReply_iff.mp (hw.stopped hstopped i hi)
    exact isReply_iff.mpr ⟨call, getElem?_concat_of_some hc _, hkind⟩

/-- A call goes on, with the id it has. -/
theorem Answered.set {s : State} (ha : Answered s) {i : ℕ} {call call' : Call}
    (hc : s.calls[i]? = some call) (hadv : call.Advances s.teardown.started call')
    (hid : call'.id = call.id)
    (hexpects : call.kind = .request → call'.pc.expects = true → call.pc.expects = true) :
    Answered (s.setCall i call') := by
  have hkeeps : ∀ {j : ℕ} {id : UInt64}, (∃ other, s.calls[j]? = some other ∧ other.id = some id) →
      ∃ other, (s.setCall i call').calls[j]? = some other ∧ other.id = some id := by
    rintro j id ⟨other, ho, hoid⟩
    by_cases hji : j = i
    · subst hji
      rw [hc] at ho
      cases ho
      exact ⟨call', getElem?_set_of_some hc call', hadv.id hoid⟩
    · exact ⟨other, (List.getElem?_set_ne (Ne.symm hji)).trans ho, hoid⟩
  constructor
  · intro j other ho
    rcases getElem?_set_eq_some ho with ⟨-, rfl⟩ | ⟨-, ho⟩
    · exact hadv.ok
    · exact ha.calls ho
  · exact fun hmem => hkeeps (ha.pending hmem)
  · exact ha.keys
  · exact fun hr => hkeeps (ha.delivering hr)
  · intro j other ho hkind hpc
    rcases getElem?_set_eq_some ho with ⟨rfl, rfl⟩ | ⟨-, ho⟩
    · have hrequest : call.kind = .request := hadv.kind ▸ hkind
      rcases ha.awaited hc hrequest (hexpects hrequest hpc) with hr | ⟨id, hcid, hmem⟩ | hr
      · exact .inl (hadv.response hr)
      · exact .inr (.inl ⟨id, hadv.id hcid, hmem⟩)
      · exact .inr (.inr hr)
    · exact ha.awaited ho hkind hpc
  · -- A call that has returned does not come back.
    have hlive : call'.pc.isReturned = false → call.pc.isReturned = false := by
      intro h
      cases hpc : call.pc with
      | returned outcome =>
        rw [hadv.returned hpc] at h
        cases h
      | _ => rfl
    intro j k other another id ho ha' hl hl' hoid haid
    rcases getElem?_set_eq_some ho with ⟨rfl, rfl⟩ | ⟨-, hold⟩
    · rcases getElem?_set_eq_some ha' with ⟨rfl, rfl⟩ | ⟨-, ha'⟩
      · rfl
      · exact ha.distinct hc ha' (hlive hl) hl' (hid ▸ hoid) haid
    · rcases getElem?_set_eq_some ha' with ⟨rfl, rfl⟩ | ⟨-, ha'⟩
      · exact ha.distinct hold hc hl (hlive hl') hoid (hid ▸ haid)
      · exact ha.distinct hold ha' hl hl' hoid haid
  · intro id j other hmem ho hkind hpc
    rcases getElem?_set_eq_some ho with ⟨rfl, rfl⟩ | ⟨-, ho⟩
    · cases hstarted : s.teardown.started with
      | true =>
        exact ha.reached hmem hc (hadv.kind ▸ hkind) (hadv.awaits hstarted hkind hpc)
      | false =>
        cases hteardown : s.teardown with
        | notCalled =>
          change s.teardown.Reaches id
          rw [hteardown]
          trivial
        | _ =>
          rw [hteardown] at hstarted
          cases hstarted
    · exact ha.reached hmem ho hkind hpc
  · intro j outcome hmem
    obtain ⟨other, ho, hpc⟩ := ha.returns hmem
    by_cases hji : j = i
    · subst hji
      rw [hc] at ho
      cases ho
      exact ⟨call', getElem?_set_of_some hc call', hadv.returned hpc⟩
    · exact ⟨other, (List.getElem?_set_ne (Ne.symm hji)).trans ho, hpc⟩
  · exact ha.once

theorem isReply_set {s : State} {i : ℕ} {call : Call} (call' : Call) (hc : s.calls[i]? = some call)
    (hkind : call'.kind = call.kind) {j : ℕ} (hj : s.isReply j = true) :
    (s.setCall i call').isReply j = true := by
  obtain ⟨other, ho, hreply⟩ := isReply_iff.mp hj
  by_cases hji : j = i
  · subst hji
    rw [hc] at ho
    cases ho
    exact isReply_iff.mpr ⟨call', getElem?_set_of_some hc call', hkind.trans hreply⟩
  · exact isReply_iff.mpr ⟨other, (List.getElem?_set_ne (Ne.symm hji)).trans ho, hreply⟩

theorem Written.set {s : State} (hw : Written s) {i : ℕ} {call call' : Call}
    (hc : s.calls[i]? = some call) {started : Bool} (hadv : call.Advances started call')
    (hsending : call'.pc = .sending → call.pc = .sending) : Written (s.setCall i call') := by
  constructor
  · intro j other ho hpc
    rcases getElem?_set_eq_some ho with ⟨rfl, rfl⟩ | ⟨-, ho⟩
    · rcases hw.sending hc (hsending hpc) with hsent | hrest
      · exact .inl (hadv.sent hsent)
      · exact .inr hrest
    · exact hw.sending ho hpc
  · intro hstopped j hj
    exact isReply_set call' hc hadv.kind (hw.stopped hstopped j hj)

/-- The id of the request is minted. -/
theorem Answered.mint {s : State} (ha : Answered s) {i : ℕ} {call : Call}
    (hc : s.calls[i]? = some call) (hpc : call.pc = .called)
    (hfresh : ∀ other ∈ s.calls, other.pc.isReturned = true ∨ other.id ≠ some s.nextId) :
    Answered (s.setCall i { call with id := some s.nextId, pc := .inserting }) := by
  have hnone := (ha.calls hc).unminted hpc
  have hkeeps : ∀ {j : ℕ} {id : UInt64}, (∃ other, s.calls[j]? = some other ∧ other.id = some id) →
      ∃ other, (s.setCall i { call with id := some s.nextId, pc := .inserting }).calls[j]? =
        some other ∧ other.id = some id := by
    rintro j id ⟨other, ho, hoid⟩
    have hji : j ≠ i := by
      rintro rfl
      rw [hc] at ho
      cases ho
      rw [hnone] at hoid
      cases hoid
    exact ⟨other, (List.getElem?_set_ne (Ne.symm hji)).trans ho, hoid⟩
  have hother : ∀ {j : ℕ} {other : Call}, s.calls[j]? = some other →
      other.pc.isReturned = false → other.id ≠ some s.nextId := by
    intro j other ho hlive
    rcases hfresh other (List.mem_of_getElem? ho) with h | h
    · rw [hlive] at h
      cases h
    · exact h
  constructor
  · intro j other ho
    rcases getElem?_set_eq_some ho with ⟨-, rfl⟩ | ⟨-, ho⟩
    · have hok := ha.calls hc
      constructor <;> simp only [reduceCtorEq, false_implies, ne_eq, not_false_eq_true, implies_true,
        Calling.outcome?]
      intro id hr
      have hown := hok.own hr
      rw [hnone] at hown
      cases hown
    · exact ha.calls ho
  · exact fun hmem => hkeeps (ha.pending hmem)
  · exact ha.keys
  · exact fun hr => hkeeps (ha.delivering hr)
  · intro j other ho hk hpc
    rcases getElem?_set_eq_some ho with ⟨rfl, rfl⟩ | ⟨-, ho⟩
    · cases hpc
    · exact ha.awaited ho hk hpc
  · intro j k other another id ho han hl hl' hoid haid
    rcases getElem?_set_eq_some ho with ⟨rfl, rfl⟩ | ⟨-, hold⟩
    · rcases getElem?_set_eq_some han with ⟨rfl, rfl⟩ | ⟨-, hold'⟩
      · rfl
      · cases hoid
        exact absurd haid (hother hold' hl')
    · rcases getElem?_set_eq_some han with ⟨rfl, rfl⟩ | ⟨-, hold'⟩
      · cases haid
        exact absurd hoid (hother hold hl)
      · exact ha.distinct hold hold' hl hl' hoid haid
  · intro id j other hmem ho hk hpc
    rcases getElem?_set_eq_some ho with ⟨rfl, rfl⟩ | ⟨-, ho⟩
    · cases hpc
    · exact ha.reached hmem ho hk hpc
  · intro j outcome hmem
    obtain ⟨other, ho, hret⟩ := ha.returns hmem
    have hji : j ≠ i := by
      rintro rfl
      rw [hc] at ho
      cases ho
      rw [hpc] at hret
      cases hret
    exact ⟨other, (List.getElem?_set_ne (Ne.symm hji)).trans ho, hret⟩
  · exact ha.once

/-! ### The entries of `_pending` -/

/-- A removal that takes no entry from a call with no other hope of a response. -/
theorem Answered.filterPending {s : State} (ha : Answered s) {p : UInt64 × ℕ → Bool}
    (hp : ∀ {id : UInt64} {i : ℕ} {call : Call}, (id, i) ∈ s.pending → s.calls[i]? = some call →
      call.pc.expects = true → call.id = some id → call.response = none →
      (∀ r, s.reader ≠ .delivering i r) → p (id, i) = true) :
    Answered { s with pending := s.pending.filter p } where
  calls := ha.calls
  pending hmem := ha.pending (List.mem_filter.mp hmem).1
  keys := ha.keys.sublist (List.filter_sublist.map Prod.fst)
  delivering := ha.delivering
  awaited {i call} hc hkind hpc := by
    rcases ha.awaited hc hkind hpc with hr | ⟨id, hid, hmem⟩ | hr
    · exact .inl hr
    · by_cases hr : call.response = none
      · by_cases hd : ∃ r, s.reader = .delivering i r
        · exact .inr (.inr hd)
        · have hkept := hp hmem hc hpc hid hr fun r heq => hd ⟨r, heq⟩
          exact .inr (.inl ⟨id, hid, List.mem_filter.mpr ⟨hmem, hkept⟩⟩)
      · exact .inl hr
    · exact .inr (.inr hr)
  distinct := ha.distinct
  reached hmem := ha.reached (List.mem_filter.mp hmem).1
  returns := ha.returns
  once := ha.once

/-- A call that has failed removes its own entry. -/
theorem Answered.removeOwn {s : State} (ha : Answered s) {i : ℕ} {call : Call}
    (hc : s.calls[i]? = some call) (hlive : call.pc.isReturned = false)
    (hover : call.pc.expects = false) : Answered (s.removePending call.id) := by
  refine ha.filterPending fun {id j other} _ ho hpc hoid _ _ => decide_eq_true fun hid => ?_
  have hother : other.pc.isReturned = false := by
    cases h : other.pc with
    | returned o =>
      rw [h] at hpc
      cases hpc
    | _ => rfl
  have hij := ha.distinct hc ho hlive hother hid.symm hoid
  subst hij
  rw [hc] at ho
  cases ho
  rw [hover] at hpc
  cases hpc

/-- `_pending[id] = tcs`. -/
theorem Answered.insert {s : State} (ha : Answered s) {i : ℕ} {call : Call} {id : UInt64}
    (hc : s.calls[i]? = some call) (hpc : call.pc = .inserting) (hid : call.id = some id) :
    Answered { s.setCall i { call with pc := .rechecking } with
      pending := s.pending.filter (·.1 ≠ id) ++ [(id, i)] } := by
  have hlive : call.pc.isReturned = false := by rw [hpc]; rfl
  have hover : call.pc.expects = false := by rw [hpc]; rfl
  have hremoved := ha.removeOwn hc hlive hover
  have heq : (s.pending.filter fun e => some e.1 ≠ call.id) = s.pending.filter (·.1 ≠ id) := by
    refine List.filter_congr fun e _ => ?_
    rw [hid]
    simp
  unfold removePending at hremoved
  rw [heq] at hremoved
  have hmoved : ∀ {j : ℕ} {other : Call}, j ≠ i → s.calls[j]? = some other →
      (s.setCall i { call with pc := .rechecking }).calls[j]? = some other :=
    fun hji ho => (List.getElem?_set_ne (Ne.symm hji)).trans ho
  have hself := getElem?_set_of_some hc { call with pc := Calling.rechecking }
  have hkeeps : ∀ {j : ℕ} {id' : UInt64}, (∃ other, s.calls[j]? = some other ∧ other.id = some id') →
      ∃ other, (s.setCall i { call with pc := .rechecking }).calls[j]? = some other ∧
        other.id = some id' := by
    rintro j id' ⟨other, ho, hoid⟩
    by_cases hji : j = i
    · subst hji
      rw [hc] at ho
      cases ho
      exact ⟨_, hself, hoid⟩
    · exact ⟨other, hmoved hji ho, hoid⟩
  constructor
  · intro j other ho
    rcases getElem?_set_eq_some ho with ⟨-, rfl⟩ | ⟨-, ho⟩
    · have hok := ha.calls hc
      constructor <;> simp only [reduceCtorEq, false_implies, implies_true, Calling.outcome?]
      exact hok.own
    · exact ha.calls ho
  · intro id' j hmem
    rcases List.mem_append.mp hmem with hmem | hmem
    · exact hkeeps (hremoved.pending hmem)
    · cases List.mem_singleton.mp hmem
      exact ⟨_, hself, hid⟩
  · rw [List.map_append, List.nodup_append]
    refine ⟨hremoved.keys, List.nodup_singleton _, ?_⟩
    intro a ha' b hb
    obtain ⟨e, he, rfl⟩ := List.mem_map.mp ha'
    cases List.mem_singleton.mp hb
    simpa using (List.mem_filter.mp he).2
  · exact fun hr => hkeeps (ha.delivering hr)
  · intro j other ho hkind hexp
    rcases getElem?_set_eq_some ho with ⟨rfl, rfl⟩ | ⟨-, ho⟩
    · exact .inr (.inl ⟨id, hid, List.mem_append_right _ List.mem_cons_self⟩)
    · rcases hremoved.awaited ho hkind hexp with hr | ⟨id', hoid, hmem⟩ | hr
      · exact .inl hr
      · exact .inr (.inl ⟨id', hoid, List.mem_append_left _ hmem⟩)
      · exact .inr (.inr hr)
  · intro j k other another id' ho han hl hl' hoid haid
    rcases getElem?_set_eq_some ho with ⟨rfl, rfl⟩ | ⟨-, hold⟩
    · rcases getElem?_set_eq_some han with ⟨rfl, rfl⟩ | ⟨-, hold'⟩
      · rfl
      · exact ha.distinct hc hold' hlive hl' hoid haid
    · rcases getElem?_set_eq_some han with ⟨rfl, rfl⟩ | ⟨-, hold'⟩
      · exact ha.distinct hold hc hl hlive hoid haid
      · exact ha.distinct hold hold' hl hl' hoid haid
  · intro id' j other hmem ho hkind haw
    rcases getElem?_set_eq_some ho with ⟨rfl, rfl⟩ | ⟨hji, ho⟩
    · cases haw
    · rcases List.mem_append.mp hmem with hmem | hmem
      · exact hremoved.reached hmem ho hkind haw
      · cases List.mem_singleton.mp hmem
        exact absurd rfl hji
  · intro j outcome hmem
    obtain ⟨other, ho, hret⟩ := ha.returns hmem
    have hji : j ≠ i := by
      rintro rfl
      rw [hc] at ho
      cases ho
      rw [hpc] at hret
      cases hret
    exact ⟨other, hmoved hji ho, hret⟩
  · exact ha.once

/-! ### Responses -/

theorem complete_of_some {s : State} {i : ℕ} {call : Call} (hc : s.calls[i]? = some call)
    (r : Response) :
    s.complete i r = s.setCall i { call with response := call.response.or (some r) } := by
  unfold complete
  rw [hc]

/-- The response of a request comes. -/
theorem advances_complete {call : Call} (hok : call.Ok) (started : Bool) {r : Response}
    (hown : ∀ {id : UInt64}, r = .result id → call.id = some id) :
    call.Advances started { call with response := call.response.or (some r) } := by
  refine ⟨rfl, rfl, fun h => h, fun h => h, fun h => ?_, ?_, fun h => h, fun _ h => h,
    fun _ _ h => h⟩
  · cases hr : call.response with
    | none => exact absurd hr h
    | some r' => simp
  · refine ⟨hok.unminted, hok.minted, hok.receiving, hok.sending, hok.closing, fun h => ?_,
      hok.outcome⟩
    cases hr : call.response with
    | none =>
      simp only [hr, Option.none_or, Option.some.injEq] at h
      exact hown h
    | some r' =>
      simp only [hr, Option.some_or, Option.some.injEq] at h
      exact hok.own (hr.trans (congrArg some h))

theorem Answered.complete {s : State} (ha : Answered s) {i : ℕ} {r : Response}
    (hown : ∀ {id : UInt64}, r = .result id → ∃ call, s.calls[i]? = some call ∧ call.id = some id) :
    Answered (s.complete i r) := by
  cases hc : s.calls[i]? with
  | none =>
    unfold State.complete
    rw [hc]
    exact ha
  | some call =>
    rw [complete_of_some hc]
    refine ha.set hc (advances_complete (ha.calls hc) _ fun hr => ?_) rfl fun _ h => h
    obtain ⟨other, ho, hid⟩ := hown hr
    rw [hc] at ho
    cases ho
    exact hid

/-- Only the calls change, and the call has its response. -/
theorem complete_eq (s : State) (i : ℕ) (r : Response) :
    ∃ calls, s.complete i r = { s with calls := calls } ∧
      (∀ call, calls[i]? = some call → call.response ≠ none) := by
  unfold complete
  cases hc : s.calls[i]? with
  | none => exact ⟨s.calls, rfl, fun call h => by rw [hc] at h; cases h⟩
  | some call =>
    refine ⟨_, rfl, fun call' h => ?_⟩
    rw [getElem?_set_of_some hc] at h
    cases h
    cases call.response <;> simp

theorem Answered.deliver {s : State} (ha : Answered s) {i : ℕ} {r : Response}
    (hr : s.reader = .delivering i r) :
    Answered { s.complete i r with reader := .receiving } := by
  have hcomplete := ha.complete (i := i) (r := r) fun h => ha.delivering (h ▸ hr)
  obtain ⟨calls, heq, hthere⟩ := complete_eq s i r
  rw [heq] at hcomplete ⊢
  refine ⟨hcomplete.calls, hcomplete.pending, hcomplete.keys, fun h => (by cases h),
    fun {j call} hc hkind hpc => ?_, hcomplete.distinct, hcomplete.reached, hcomplete.returns,
    hcomplete.once⟩
  rcases hcomplete.awaited hc hkind hpc with h | h | ⟨r', h⟩
  · exact .inl h
  · exact .inr (.inl h)
  · change s.reader = _ at h
    rw [hr] at h
    cases h
    exact .inl (hthere call hc)

/-- The reader is not about to deliver anything. -/
theorem Answered.reads {s : State} (ha : Answered s) (hold : ∀ i r, s.reader ≠ .delivering i r)
    {reader : Reader}
    (hnew : ∀ {i : ℕ} {id : UInt64}, reader = .delivering i (.result id) →
      ∃ call, s.calls[i]? = some call ∧ call.id = some id) : Answered { s with reader := reader } where
  calls := ha.calls
  pending := ha.pending
  keys := ha.keys
  delivering := hnew
  awaited hc hkind hpc := by
    rcases ha.awaited hc hkind hpc with h | h | ⟨r, h⟩
    · exact .inl h
    · exact .inr (.inl h)
    · exact absurd h (hold _ r)
  distinct := ha.distinct
  reached := ha.reached
  returns := ha.returns
  once := ha.once

/-- `TryRemove` in `Deliver`. -/
theorem Answered.dispatch {s : State} (ha : Answered s) (hreader : s.reader = .receiving) {id : UInt64}
    {i : ℕ} (hi : s.pending.lookup id = some i) (ok : Bool) :
    Answered { s.removePending (some id) with
      reader := .delivering i (if ok then .result id else .rpcError id) } := by
  have hread : Answered { s with reader := .delivering i (if ok then .result id else .rpcError id) } := by
    refine ha.reads (fun j r h => ?_) fun {j id'} h => ?_
    · rw [hreader] at h
      cases h
    · obtain ⟨call, hc, hid⟩ := ha.pending (mem_of_lookup_eq_some hi)
      cases ok <;> cases h
      exact ⟨call, hc, hid⟩
  refine hread.filterPending fun {id' j call} hmem _ _ _ _ hnot => decide_eq_true fun heq => ?_
  cases heq
  have hsame := lookup_eq_some_of_mem ha.keys hmem
  rw [hi] at hsame
  cases hsame
  exact hnot _ rfl

theorem complete_removePending (s : State) (id : Option UInt64) (i : ℕ) (r : Response) :
    (s.removePending id).complete i r = (s.complete i r).removePending id := by
  unfold complete removePending
  dsimp only
  cases s.calls[i]? <;> rfl

/-- `TryRemove` and `TrySetException` of an entry, in the loop of the teardown. -/
theorem Answered.failEntry {s : State} (ha : Answered s) (id : UInt64) : Answered (s.failEntry id) := by
  unfold State.failEntry
  cases hi : s.pending.lookup id with
  | none => exact ha
  | some i =>
    have hcomplete := ha.complete (i := i) (r := .closed) fun h => by cases h
    obtain ⟨calls, heq, hthere⟩ := complete_eq s i .closed
    change Answered ((s.removePending (some id)).complete i .closed)
    rw [complete_removePending]
    rw [heq] at hcomplete ⊢
    refine hcomplete.filterPending fun {id' j call} hmem hc _ _ hnone _ => decide_eq_true fun h => ?_
    cases h
    have hsame := lookup_eq_some_of_mem ha.keys hmem
    rw [hi] at hsame
    cases hsame
    exact hthere call hc hnone

/-- The entry is gone, and nothing else than calls and entries changes. -/
theorem failEntry_eq (s : State) (id : UInt64) :
    ∃ calls pending, s.failEntry id = { s with calls := calls, pending := pending } ∧
      ∀ e ∈ pending, e ∈ s.pending ∧ e.1 ≠ id := by
  unfold State.failEntry
  cases hi : s.pending.lookup id with
  | none =>
    refine ⟨s.calls, s.pending, rfl, fun e he => ⟨he, fun heq => ?_⟩⟩
    have hall := List.lookup_eq_none_iff.mp hi e he
    rw [heq] at hall
    simp at hall
  | some i =>
    obtain ⟨calls, heq, -⟩ := complete_eq (s.removePending (some id)) i .closed
    refine ⟨calls, _, heq, fun e he => ?_⟩
    obtain ⟨hmem, hne⟩ := List.mem_filter.mp he
    exact ⟨hmem, fun h => of_decide_eq_true hne (congrArg some h)⟩

/-- The loop goes on to the next entry. -/
theorem Answered.reach {s : State} (ha : Answered s) {teardown : Teardown}
    (h : ∀ e ∈ s.pending, s.teardown.Reaches e.1 → teardown.Reaches e.1) :
    Answered { s with teardown := teardown } where
  calls := ha.calls
  pending := ha.pending
  keys := ha.keys
  delivering := ha.delivering
  awaited := ha.awaited
  distinct := ha.distinct
  reached hmem hc hkind hpc := h _ hmem (ha.reached hmem hc hkind hpc)
  returns := ha.returns
  once := ha.once

/-- A call returns or throws. -/
theorem Answered.leave {s : State} (ha : Answered s) {i : ℕ} {call call' : Call} {outcome : Outcome}
    (hc : s.calls[i]? = some call) (hlive : call.pc.isReturned = false)
    (hadv : call.Advances s.teardown.started { call' with pc := .returned outcome })
    (hid : call'.id = call.id) : Answered (s.leave i call' outcome) := by
  have hset := ha.set hc hadv hid fun _ h => by cases h
  have hself : (s.leave i call' outcome).calls[i]? = some { call' with pc := .returned outcome } :=
    getElem?_set_of_some hc _
  refine ⟨hset.calls, hset.pending, hset.keys, hset.delivering, hset.awaited, hset.distinct,
    hset.reached, fun {j o} hmem => ?_, ?_⟩
  · rcases List.mem_append.mp hmem with hmem | hmem
    · exact hset.returns hmem
    · cases List.mem_singleton.mp hmem
      exact ⟨_, hself, rfl⟩
  · change ((s.returns ++ [(i, outcome)]).map Prod.fst).Nodup
    rw [List.map_append, List.nodup_append]
    refine ⟨ha.once, List.nodup_singleton _, ?_⟩
    intro a hmem b hb heq
    obtain ⟨⟨j, o⟩, hret, rfl⟩ := List.mem_map.mp hmem
    cases List.mem_singleton.mp hb
    obtain ⟨other, ho, hpc⟩ := ha.returns hret
    cases heq
    rw [hc] at ho
    cases ho
    rw [hpc] at hlive
    cases hlive

/-! ### The outbound channel -/

/-- A call writes its message to the channel. -/
theorem Written.enqueue {s : State} (hw : Written s) {i : ℕ} {call call' : Call}
    (hc : s.calls[i]? = some call) {started : Bool} (hadv : call.Advances started call')
    (hstopped : s.writer.stopped = true → call'.kind = .reply) :
    Written { s.setCall i call' with outbound := s.outbound ++ [i] } := by
  constructor
  · intro j other ho hpc
    rcases getElem?_set_eq_some ho with ⟨rfl, rfl⟩ | ⟨-, ho⟩
    · exact .inr (.inl (List.mem_append_right _ List.mem_cons_self))
    · rcases hw.sending ho hpc with hsent | hmem | hwriter
      · exact .inl hsent
      · exact .inr (.inl (List.mem_append_left _ hmem))
      · exact .inr (.inr hwriter)
  · intro hstop j hj
    rcases List.mem_append.mp hj with hj | hj
    · exact isReply_set call' hc hadv.kind (hw.stopped hstop j hj)
    · cases List.mem_singleton.mp hj
      exact isReply_iff.mpr ⟨call', getElem?_set_of_some hc call', hstopped hstop⟩

/-- A message that no one waits for. -/
theorem Written.append {s : State} (hw : Written s) {i : ℕ} (hi : s.isReply i = true) :
    Written { s with outbound := s.outbound ++ [i] } := by
  constructor
  · intro j other ho hpc
    rcases hw.sending ho hpc with hsent | hmem | hwriter
    · exact .inl hsent
    · exact .inr (.inl (List.mem_append_left _ hmem))
    · exact .inr (.inr hwriter)
  · intro hstop j hj
    rcases List.mem_append.mp hj with hj | hj
    · exact hw.stopped hstop j hj
    · cases List.mem_singleton.mp hj
      exact hi

/-- The writer goes on, with every message it does not hold left in the channel. -/
theorem Written.writes {s : State} (hw : Written s) {writer : Writer} {outbound : List ℕ}
    (hkept : ∀ {i : ℕ} {call : Call}, s.calls[i]? = some call → call.pc = .sending →
      i ∈ s.outbound ∨ s.writer = .sending i → call.sent ≠ none ∨ i ∈ outbound ∨ writer = .sending i)
    (hstopped : writer.stopped = true → ∀ i ∈ outbound, s.isReply i = true) :
    Written { s with writer := writer, outbound := outbound } where
  sending hc hpc := by
    rcases hw.sending hc hpc with hsent | hrest
    · exact .inl hsent
    · exact hkept hc hpc hrest
  stopped := hstopped

end State

end AgentHostProtocol.Dotnet.Client
