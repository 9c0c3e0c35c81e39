import AgentHostProtocol.Client.Requests

/-!
# Settlement of requests

The receive loop, the timers, failed sends and teardown all remove entries from the map of
pending requests, and whoever removes an entry settles it. `Does` says once what an action can do
to the map; over a run the calls of `request` are a `Ledger` (`step_ok`), with the pending ones
those of the map.

* `requests_settle` — a call settles at most once; one that is answered was answered by a
  message with its own id that arrived while it was pending; no two calls have the same id; and
  on a closed connection nothing is pending and every call has settled.
-/

namespace AgentHostProtocol.Client.Requests

open Library

variable {s s' : AhpClient} {history events : List Event}

/-! ### What is observed -/

/-- The call that an event makes. -/
def Event.called? : Event → Option ℕ
  | .called call _ => some call
  | _ => none

/-- The id that a call takes. -/
def Event.id? : Event → Option ℕ
  | .called _ id => id
  | _ => none

/-- The call that an event settles. -/
def Event.settled? : Event → Option ℕ
  | .settled call _ => some call
  | _ => none

/-- The calls made, newest first. -/
def calledIn (history : List Event) : List ℕ := history.filterMap Event.called?

/-- The calls settled, newest first. -/
def settledIn (history : List Event) : List ℕ := history.filterMap Event.settled?

/-- The ids taken, newest first. -/
def idsIn (history : List Event) : List ℕ := history.filterMap Event.id?

/-- Whether an outcome comes from the other side. -/
def Outcome.answered : Outcome → Bool
  | .resolved _ => true
  | .rejected (.rpcError _) => true
  | .rejected _ => false

/-- The outcome that a message has for the request of its id. -/
def ProtocolMessage.outcome? (message : ProtocolMessage) : Option Outcome :=
  match message.result, message.error with
  | some result, _ => some (.resolved result)
  | none, some error => some (.rejected (.rpcError error))
  | none, none => none

/-- A call that was answered was answered by the message that had just arrived, which carries
the id of the call; the call was pending. -/
def Answered (history : List Event) : Prop :=
  ∀ later call outcome earlier, history = later ++ .settled call outcome :: earlier →
    outcome.answered = true → ∃ message id rest, earlier = .received message :: rest ∧
      message.id = some (.number id) ∧ message.outcome? = some outcome ∧
      .called call (some id) ∈ rest ∧ call ∉ settledIn rest

/-- Elements with the same image in a list without duplicates are the same. -/
private theorem eq_of_filterMap_nodup {f : Event → Option ℕ} {id : ℕ} {e e' : Event}
    (h : (history.filterMap f).Nodup) (he : e ∈ history) (he' : e' ∈ history) (hid : f e = some id)
    (hid' : f e' = some id) : e = e' := by
  induction history with
  | nil => cases he
  | cons first history ih =>
    have hmem : ∀ {x}, x ∈ history → f x = some id → id ∈ history.filterMap f := fun hx hfx =>
      List.mem_filterMap.mpr ⟨_, hx, hfx⟩
    rw [List.filterMap_cons] at h
    rcases List.mem_cons.mp he with heq | hin <;> rcases List.mem_cons.mp he' with heq' | hin'
    · rw [heq, heq']
    · rw [← heq, hid] at h
      exact absurd (hmem hin' hid') (List.nodup_cons.mp h).1
    · rw [← heq', hid'] at h
      exact absurd (hmem hin hid) (List.nodup_cons.mp h).1
    · refine ih ?_ hin hin'
      cases hf : f first with
      | none => rw [hf] at h; exact h
      | some b => rw [hf] at h; exact (List.nodup_cons.mp h).2

theorem mem_calledIn {call : ℕ} : call ∈ calledIn history ↔ ∃ id, .called call id ∈ history := by
  constructor
  · intro h
    obtain ⟨e, he, heq⟩ := List.mem_filterMap.mp h
    cases e with
    | called c id => cases heq; exact ⟨id, he⟩
    | received => cases heq
    | settled => cases heq
  · rintro ⟨id, h⟩
    exact List.mem_filterMap.mpr ⟨_, h, rfl⟩

theorem mem_settledIn {call : ℕ} : call ∈ settledIn history ↔ ∃ outcome, .settled call outcome ∈ history := by
  constructor
  · intro h
    obtain ⟨e, he, heq⟩ := List.mem_filterMap.mp h
    cases e with
    | settled c outcome => cases heq; exact ⟨outcome, he⟩
    | received => cases heq
    | called => cases heq
  · rintro ⟨outcome, h⟩
    exact List.mem_filterMap.mpr ⟨_, h, rfl⟩

/-! ### What an action does -/

/-- The numbers of the client stay as they are, and it is not closed by this. -/
structure Kept (s s' : AhpClient) : Prop where
  nextRequestId : s'.nextRequestId = s.nextRequestId
  calls : s'.calls = s.calls
  status : s'.status = .closed → s.status = .closed

/-- What an action does to the pending requests. -/
inductive Does (s s' : AhpClient) : List Event → Prop where
  | idle : Kept s s' → s'.pending = s.pending → Does s s' []
  /-- A message that settles nothing. -/
  | ignored {message} : Kept s s' → s'.pending = s.pending → Does s s' [.received message]
  | refused : s'.nextRequestId = s.nextRequestId → s'.calls = s.calls + 1 → s'.status = s.status →
      s'.pending = s.pending →
      Does s s' [.called s.calls none, .settled s.calls (.rejected .clientClosedError)]
  | opened {method} : s'.nextRequestId = s.nextRequestId + 1 → s'.calls = s.calls + 1 →
      s.status ≠ .closed → s'.status = s.status →
      s'.pending = s.pending ++ [(s.nextRequestId, ⟨s.calls, method⟩)] →
      Does s s' [.called s.calls (some s.nextRequestId)]
  | answered {message id pending outcome before after} : Kept s s' →
      message.id = some (.number id) → message.outcome? = some outcome →
      s.pending = before ++ (id, pending) :: after → s'.pending = before ++ after →
      Does s s' [.received message, .settled pending.call outcome]
  | abandoned {id pending outcome before after} : Kept s s' → outcome.answered = false →
      s.pending = before ++ (id, pending) :: after → s'.pending = before ++ after →
      Does s s' [.settled pending.call outcome]
  | tornDown {failure} : s'.nextRequestId = s.nextRequestId → s'.calls = s.calls →
      (Outcome.rejected failure).answered = false → s'.pending = [] →
      Does s s' (s.pending.map fun entry => .settled entry.2.call (.rejected failure))

/-- The entry that is found is the only one of its id. -/
private theorem split_of_lookup {pending : List (ℕ × PendingRequest)} {id : ℕ} {p : PendingRequest}
    (hnd : (pending.map Prod.fst).Nodup) (h : pending.lookup id = some p) :
    ∃ before after, pending = before ++ (id, p) :: after ∧
      pending.filter (·.1 ≠ id) = before ++ after := by
  obtain ⟨before, after, rfl, hbefore⟩ := List.lookup_eq_some_iff.mp h
  rw [List.map_append, List.map_cons, List.nodup_append, List.nodup_cons] at hnd
  have hkept : ∀ entries : List (ℕ × PendingRequest), id ∉ entries.map Prod.fst →
      entries.filter (·.1 ≠ id) = entries := by
    intro entries hid
    refine List.filter_eq_self.mpr fun e he => ?_
    rw [decide_eq_true_eq]
    rintro rfl
    exact hid (List.mem_map_of_mem he)
  refine ⟨before, after, rfl, ?_⟩
  have hfirst : id ∉ before.map Prod.fst := fun hmem => hnd.2.2 id hmem id List.mem_cons_self rfl
  rw [List.filter_append, List.filter_cons_of_neg (by simp), hkept before hfirst, hkept after hnd.2.1.1]

/-- Settling by id: nothing, or the entry of the id is removed and settled. -/
theorem settle_cases (hnd : (s.pending.map Prod.fst).Nodup) (id : ℕ) (outcome : PendingRequest → Outcome) :
    s.settle id outcome = (s, []) ∨
      ∃ pending before after, s.pending = before ++ (id, pending) :: after ∧
        (s.settle id outcome).1.pending = before ++ after ∧ Kept s (s.settle id outcome).1 ∧
        (s.settle id outcome).2 = [.settled pending.call (outcome pending)] := by
  unfold AhpClient.settle
  cases hfound : s.pending.lookup id with
  | none => exact .inl rfl
  | some pending =>
    obtain ⟨before, after, hsplit, hfilter⟩ := split_of_lookup hnd hfound
    exact .inr ⟨pending, before, after, hsplit, hfilter, ⟨rfl, rfl, fun h => h⟩, rfl⟩

/-- Teardown settles everything that is pending, once. -/
theorem tearDown_does (u : AhpClient) {failure : AhpClientError}
    (hfailure : (Outcome.rejected failure).answered = false) (hpending : u.pending = s.pending)
    (hnext : u.nextRequestId = s.nextRequestId) (hcalls : u.calls = s.calls)
    (hstatus : u.status = .closed → s.status = .closed) :
    Does s (u.tearDown failure).1 (u.tearDown failure).2 := by
  unfold AhpClient.tearDown
  split
  next => exact .idle ⟨hnext, hcalls, hstatus⟩ hpending
  next =>
    rw [hpending]
    exact .tornDown hnext hcalls hfailure rfl

/-- What a frame does: it settles at most the request whose id it carries. -/
theorem frame_does (hnd : (s.pending.map Prod.fst).Nodup) (frame : Frame) :
    Does s (s.handleFrame frame).1.continueLoop (s.handleFrame frame).2 := by
  cases frame with
  | malformed => exact .idle ⟨rfl, rfl, id⟩ rfl
  | message message =>
    show Does s (s.dispatchInbound message).1.continueLoop (.received message :: (s.dispatchInbound message).2)
    have hsettle : ∀ id outcome, message.id = some (.number id) → message.outcome? = some outcome →
        s.dispatchInbound message = s.settle id (fun _ => outcome) →
        Does s (s.dispatchInbound message).1.continueLoop (.received message :: (s.dispatchInbound message).2) := by
      intro id outcome hid houtcome heq
      rw [heq]
      rcases settle_cases hnd id fun _ => outcome with hnone | ⟨pending, before, after, hsplit, hrest, hkept, hevents⟩
      · rw [hnone]
        exact .ignored ⟨rfl, rfl, fun h => h⟩ rfl
      · rw [hevents]
        exact .answered ⟨hkept.nextRequestId, hkept.calls, hkept.status⟩ hid houtcome
          hsplit hrest
    have hnone : s.dispatchInbound message = (s, []) →
        Does s (s.dispatchInbound message).1.continueLoop (.received message :: (s.dispatchInbound message).2) := by
      intro heq
      rw [heq]
      exact .ignored ⟨rfl, rfl, fun h => h⟩ rfl
    obtain ⟨id, result, error, method⟩ := message
    cases id with
    | none => exact hnone rfl
    | some id =>
      cases id with
      | other => exact hnone rfl
      | number id =>
        cases result with
        | some result => exact hsettle id _ rfl rfl rfl
        | none =>
          cases error with
          | some error => exact hsettle id _ rfl rfl rfl
          | none => exact hnone rfl

/-- A timer or a failed send settles at most its own request. -/
theorem abandon_does (u : AhpClient) (id : ℕ) {outcome : PendingRequest → Outcome}
    (hnd : (s.pending.map Prod.fst).Nodup) (hpending : u.pending = s.pending) (hkept : Kept s u)
    (houtcome : ∀ p, (outcome p).answered = false) :
    Does s (u.settle id outcome).1 (u.settle id outcome).2 := by
  rw [← hpending] at hnd
  rcases settle_cases hnd id outcome with hnone | ⟨pending, before, after, hsplit, hrest, hkept', hevents⟩
  · rw [hnone]
    exact .idle hkept hpending
  · rw [hevents]
    rw [hpending] at hsplit
    exact .abandoned ⟨hkept'.nextRequestId.trans hkept.nextRequestId, hkept'.calls.trans hkept.calls,
      fun h => hkept.status (hkept'.status h)⟩ (houtcome pending) hsplit hrest

theorem request_does (method : String) : Does s (s.request method).1 (s.request method).2 := by
  unfold AhpClient.request
  split
  next => exact .refused rfl rfl rfl rfl
  next hopen =>
    refine .opened rfl rfl (fun hclosed => hopen ?_) rfl rfl
    unfold AhpClient.isClosed
    rw [hclosed]
    rfl

/-- Teardown does not look at the failed sends. -/
private theorem tearDown_failing (u : AhpClient) (failing : List (ℕ × TransportError))
    (failure : AhpClientError) : AhpClient.tearDown { u with failing := failing } failure =
      ({ (u.tearDown failure).1 with failing := failing }, (u.tearDown failure).2) := by
  unfold AhpClient.tearDown
  split <;> rfl

theorem sendFails_does {i : ℕ} {err : Thrown} (h : s.sendFails i err = some (s', events)) :
    Does s s' events := by
  obtain ⟨sent, -, heq⟩ := Option.map_eq_some_iff.mp h
  cases sent with
  | none =>
    cases heq
    exact tearDown_does { s with sending := s.sending.eraseIdx i } rfl rfl rfl rfl fun h => h
  | some id =>
    cases heq
    have hfailure : (Outcome.rejected (.transportError
        (err.toTransportError "transport send failed: "))).answered = false := rfl
    have hdoes := tearDown_does (s := s) { s with
        sending := s.sending.eraseIdx i
        failing := (AhpClient.tearDown { s with sending := s.sending.eraseIdx i } (.transportError
          (err.toTransportError "transport send failed: "))).1.failing ++
            [(id, err.toTransportError "transport send failed: ")] }
      hfailure rfl rfl rfl fun h => h
    rw [tearDown_failing { s with sending := s.sending.eraseIdx i }] at hdoes
    exact hdoes

private theorem Does.of_some {out : AhpClient × List Event} (hdoes : Does s out.1 out.2)
    (h : some out = some (s', events)) : Does s s' events := by
  cases h
  exact hdoes

/-- What an action does to the pending requests. -/
theorem emit_does {action : Action} (hnd : (s.pending.map Prod.fst).Nodup)
    (h : emit s action = some (s', events)) : Does s s' events := by
  cases action with
  | connect =>
    refine Does.of_some ?_ h
    split
    next => exact .idle ⟨rfl, rfl, fun h => by cases h⟩ rfl
    next => exact .idle ⟨rfl, rfl, fun h => h⟩ rfl
  | request method => exact (request_does method).of_some h
  | notify =>
    refine Does.of_some ?_ h
    unfold AhpClient.notify
    split <;> exact .idle ⟨rfl, rfl, fun h => h⟩ rfl
  | respond =>
    refine Does.of_some ?_ h
    exact .idle ⟨rfl, rfl, fun h => h⟩ rfl
  | shutdown =>
    refine Does.of_some ?_ h
    split
    next => exact .idle ⟨rfl, rfl, fun h => h⟩ rfl
    next => exact tearDown_does { s with status := .closing } rfl rfl rfl rfl fun h => by cases h
  | sent i =>
    simp only [emit] at h
    split at h
    next =>
      refine Does.of_some ?_ h
      exact .idle ⟨rfl, rfl, fun h => h⟩ rfl
    next => cases h
  | sendFails i err => exact sendFails_does h
  | sendCaught =>
    simp only [emit] at h
    split at h
    next => cases h
    next id err failing _ =>
      exact (abandon_does { s with failing := failing } id hnd rfl ⟨rfl, rfl, fun h => h⟩
        fun _ => rfl).of_some h
  | timeout id =>
    simp only [emit] at h
    split at h
    next =>
      exact (abandon_does { s with timers := s.timers.erase id } id hnd rfl ⟨rfl, rfl, fun h => h⟩
        fun _ => rfl).of_some h
    next => cases h
  | frame frame =>
    simp only [emit] at h
    split at h
    next => exact (frame_does hnd frame).of_some h
    next => cases h
  | transportClosed =>
    simp only [emit] at h
    split at h
    next =>
      refine Does.of_some ?_ h
      exact tearDown_does { s with receiveLoop := .ended } rfl rfl rfl rfl fun h => h
    next => cases h
  | recvFails err =>
    simp only [emit] at h
    split at h
    next =>
      refine Does.of_some ?_ h
      exact tearDown_does { s with receiveLoop := .ended } rfl rfl rfl rfl fun h => h
    next => cases h

/-! ### Runs -/

/-- The pending requests and the history fit. -/
structure Ok (s : AhpClient) (history : List Event) : Prop where
  ids_nodup : (s.pending.map Prod.fst).Nodup
  /-- The ids taken are different, and the next one is new. -/
  taken_nodup : (idsIn history).Nodup
  taken_lt : ∀ id ∈ idsIn history, id < s.nextRequestId
  calls_lt : ∀ call ∈ calledIn history, call < s.calls
  /-- An entry is a call that took its id. -/
  called : ∀ entry ∈ s.pending, .called entry.2.call (some entry.1) ∈ history
  ledger : Ledger (calledIn history) (s.pending.map fun entry => entry.2.call) (settledIn history)
  closed : s.status = .closed → s.pending = []
  answered : Answered history

theorem ok_create (requestTimeoutMs : ℕ) : Ok (create requestTimeoutMs) [] where
  ids_nodup := List.nodup_nil
  taken_nodup := List.nodup_nil
  taken_lt _ h := by cases h
  calls_lt _ h := by cases h
  called _ h := by cases h
  ledger := Ledger.empty
  closed _ := rfl
  answered later call outcome earlier h := by cases later <;> cases h

/-- An event that settles nothing with an answer leaves what was answered. -/
theorem Answered.cons {e : Event} (h : Answered history)
    (he : ∀ call outcome, e = .settled call outcome → outcome.answered = false) :
    Answered (e :: history) := by
  intro later call outcome earlier heq houtcome
  cases later with
  | nil =>
    obtain ⟨rfl, rfl⟩ := List.cons.inj heq
    rw [he call outcome rfl] at houtcome
    cases houtcome
  | cons first later =>
    obtain ⟨rfl, rfl⟩ := List.cons.inj heq
    exact h later call outcome earlier rfl houtcome

/-- An answer to a pending call. -/
theorem Answered.answer {message : ProtocolMessage} {id call : ℕ} {outcome : Outcome}
    (h : Answered history) (hid : message.id = some (.number id))
    (houtcome : message.outcome? = some outcome) (hcalled : .called call (some id) ∈ history)
    (hpending : call ∉ settledIn history) :
    Answered (.settled call outcome :: .received message :: history) := by
  intro later call' outcome' earlier heq hanswered
  cases later with
  | nil =>
    cases heq
    exact ⟨message, id, history, rfl, hid, houtcome, hcalled, hpending⟩
  | cons first later =>
    obtain ⟨-, htail⟩ := List.cons.inj heq
    exact (h.cons (e := .received message) fun _ _ h => by cases h) later call' outcome' earlier htail hanswered

/-- Removing an entry settles its call. -/
private theorem Ledger.of_split {opened settled : List ℕ} {pending : List (ℕ × PendingRequest)}
    {before after : List (ℕ × PendingRequest)} {id : ℕ} {p : PendingRequest}
    (h : Ledger opened (pending.map fun entry => entry.2.call) settled)
    (hsplit : pending = before ++ (id, p) :: after) :
    Ledger opened ((before ++ after).map fun entry => entry.2.call) (p.call :: settled) := by
  subst hsplit
  rw [List.map_append, List.map_cons] at h
  rw [List.map_append]
  exact h.settles

/-- Events that settle nothing with an answer. -/
theorem Answered.append {es : List Event} (h : Answered history)
    (hes : ∀ call outcome, .settled call outcome ∈ es → outcome.answered = false) :
    Answered (es ++ history) := by
  induction es with
  | nil => exact h
  | cons e es ih =>
    refine Answered.cons (ih fun call outcome hmem => hes call outcome (List.mem_cons_of_mem _ hmem)) ?_
    rintro call outcome rfl
    exact hes call outcome List.mem_cons_self

/-- The events of a teardown call nothing. -/
private theorem filterMap_tornDown {f : Event → Option ℕ} (hf : ∀ call outcome, f (.settled call outcome) = none)
    (pending : List (ℕ × PendingRequest)) (outcome : Outcome) :
    ((pending.map fun entry => Event.settled entry.2.call outcome).reverse ++ history).filterMap f =
      history.filterMap f := by
  rw [List.filterMap_append, ← List.map_reverse, List.filterMap_map]
  have hnone : f ∘ (fun entry : ℕ × PendingRequest => Event.settled entry.2.call outcome) =
      fun _ => none := funext fun entry => hf _ _
  rw [hnone, List.filterMap_none, List.nil_append]

/-- The events of a teardown settle what is pending. -/
private theorem settledIn_tornDown (pending : List (ℕ × PendingRequest)) (outcome : Outcome) :
    settledIn ((pending.map fun entry => Event.settled entry.2.call outcome).reverse ++ history) =
      (pending.map fun entry => entry.2.call).reverse ++ settledIn history := by
  unfold settledIn
  rw [List.filterMap_append, ← List.map_reverse, List.filterMap_map, ← List.map_reverse]
  exact congrArg (· ++ _) (congrFun List.filterMap_eq_map' _)

/-- The ids of a split list of entries. -/
private theorem nodup_of_split {pending before after : List (ℕ × PendingRequest)}
    {entry : ℕ × PendingRequest} (h : (pending.map Prod.fst).Nodup)
    (hsplit : pending = before ++ entry :: after) :
    ((before ++ after).map Prod.fst).Nodup := by
  subst hsplit
  refine h.sublist (List.Sublist.map _ ?_)
  exact List.Sublist.append_left (List.sublist_cons_self _ _) _

private theorem mem_of_split {pending before after : List (ℕ × PendingRequest)}
    {entry other : ℕ × PendingRequest} (hsplit : pending = before ++ entry :: after)
    (h : other ∈ before ++ after) : other ∈ pending := by
  rw [hsplit]
  exact (List.Sublist.append_left (List.sublist_cons_self _ _) _).subset h

/-- An action keeps the pending requests and the history fitting. -/
theorem Does.ok (hdoes : Does s s' events) (h : Ok s history) : Ok s' (events.reverse ++ history) := by
  cases hdoes with
  | idle hkept hpending =>
    exact
      { h with
        ids_nodup := by rw [hpending]; exact h.ids_nodup
        taken_lt := by rw [hkept.nextRequestId]; exact h.taken_lt
        calls_lt := by rw [hkept.calls]; exact h.calls_lt
        called := by rw [hpending]; exact h.called
        ledger := by rw [hpending]; exact h.ledger
        closed := fun hc => by rw [hpending]; exact h.closed (hkept.status hc) }
  | ignored hkept hpending =>
    exact
      { ids_nodup := by rw [hpending]; exact h.ids_nodup
        taken_nodup := h.taken_nodup
        taken_lt := by rw [hkept.nextRequestId]; exact h.taken_lt
        calls_lt := by rw [hkept.calls]; exact h.calls_lt
        called := fun entry he => List.mem_cons_of_mem _ (h.called entry (hpending ▸ he))
        ledger := by rw [hpending]; exact h.ledger
        closed := fun hc => by rw [hpending]; exact h.closed (hkept.status hc)
        answered := h.answered.cons fun _ _ he => by cases he }
  | refused hnext hcalls hstatus hpending =>
    have hnew : s.calls ∉ calledIn history := fun hmem => Nat.lt_irrefl _ (h.calls_lt _ hmem)
    exact
      { ids_nodup := by rw [hpending]; exact h.ids_nodup
        taken_nodup := h.taken_nodup
        taken_lt := by rw [hnext]; exact h.taken_lt
        calls_lt := fun call hmem => by
          rw [hcalls]
          rcases List.mem_cons.mp hmem with rfl | hmem
          · exact Nat.lt_succ_self _
          · exact Nat.lt_succ_of_lt (h.calls_lt call hmem)
        called := fun entry he =>
          List.mem_cons_of_mem _ (List.mem_cons_of_mem _ (h.called entry (hpending ▸ he)))
        ledger := by rw [hpending]; exact h.ledger.refused hnew
        closed := fun hc => by rw [hpending]; exact h.closed (hstatus ▸ hc)
        answered := (h.answered.cons fun _ _ he => by cases he).cons fun _ _ he => by cases he; rfl }
  | @opened method hnext hcalls hopen hstatus hpending =>
    have hnew : s.calls ∉ calledIn history := fun hmem => Nat.lt_irrefl _ (h.calls_lt _ hmem)
    have hfresh : s.nextRequestId ∉ idsIn history := fun hmem => Nat.lt_irrefl _ (h.taken_lt _ hmem)
    have hpendingIds : s.nextRequestId ∉ s.pending.map Prod.fst := fun hmem => by
      obtain ⟨entry, he, hid⟩ := List.mem_map.mp hmem
      exact hfresh (List.mem_filterMap.mpr ⟨_, h.called entry he, congrArg some hid⟩)
    exact
      { ids_nodup := by
          rw [hpending, List.map_append]
          refine List.nodup_append.mpr ⟨h.ids_nodup, List.nodup_singleton _, fun a ha b hb hab => ?_⟩
          have heq : a = s.nextRequestId := hab.trans (List.mem_singleton.mp hb)
          exact hpendingIds (heq ▸ ha)
        taken_nodup := List.nodup_cons.mpr ⟨hfresh, h.taken_nodup⟩
        taken_lt := fun id hmem => by
          rw [hnext]
          rcases List.mem_cons.mp hmem with rfl | hmem
          · exact Nat.lt_succ_self _
          · exact Nat.lt_succ_of_lt (h.taken_lt id hmem)
        calls_lt := fun call hmem => by
          rw [hcalls]
          rcases List.mem_cons.mp hmem with rfl | hmem
          · exact Nat.lt_succ_self _
          · exact Nat.lt_succ_of_lt (h.calls_lt call hmem)
        called := fun entry he => by
          rw [hpending] at he
          rcases List.mem_append.mp he with he | he
          · exact List.mem_cons_of_mem _ (h.called entry he)
          · rw [List.mem_singleton.mp he]
            exact List.mem_cons_self
        ledger := by
          rw [hpending, List.map_append]
          exact h.ledger.opens hnew
        closed := fun hc => absurd (hstatus ▸ hc) hopen
        answered := h.answered.cons fun _ _ he => by cases he }
  | @answered message id pending outcome before after hkept hid houtcome hsplit hrest =>
    have hmem : (id, pending) ∈ s.pending := by
      rw [hsplit]
      exact List.mem_append_right _ List.mem_cons_self
    have hunsettled := h.ledger.not_settled (List.mem_map_of_mem hmem)
    exact
      { ids_nodup := by rw [hrest]; exact nodup_of_split h.ids_nodup hsplit
        taken_nodup := h.taken_nodup
        taken_lt := by rw [hkept.nextRequestId]; exact h.taken_lt
        calls_lt := by rw [hkept.calls]; exact h.calls_lt
        called := fun entry he => by
          rw [hrest] at he
          have hentry := h.called entry (mem_of_split hsplit he)
          exact List.mem_cons_of_mem _ (List.mem_cons_of_mem _ hentry)
        ledger := by rw [hrest]; exact Ledger.of_split h.ledger hsplit
        closed := fun hc => by
          have hnil := h.closed (hkept.status hc)
          rw [hnil] at hmem
          cases hmem
        answered := h.answered.answer hid houtcome (h.called _ hmem) hunsettled }
  | @abandoned id pending outcome before after hkept houtcome hsplit hrest =>
    have hmem : (id, pending) ∈ s.pending := by
      rw [hsplit]
      exact List.mem_append_right _ List.mem_cons_self
    exact
      { ids_nodup := by rw [hrest]; exact nodup_of_split h.ids_nodup hsplit
        taken_nodup := h.taken_nodup
        taken_lt := by rw [hkept.nextRequestId]; exact h.taken_lt
        calls_lt := by rw [hkept.calls]; exact h.calls_lt
        called := fun entry he => by
          rw [hrest] at he
          exact List.mem_cons_of_mem _ (h.called entry (mem_of_split hsplit he))
        ledger := by rw [hrest]; exact Ledger.of_split h.ledger hsplit
        closed := fun hc => by
          have hnil := h.closed (hkept.status hc)
          rw [hnil] at hmem
          cases hmem
        answered := h.answered.cons fun _ _ he => by cases he; exact houtcome }
  | @tornDown failure hnext hcalls hfailure hpending =>
    have hids : idsIn ((s.pending.map fun entry => Event.settled entry.2.call (.rejected failure)).reverse ++
        history) = idsIn history := filterMap_tornDown (fun _ _ => rfl) _ _
    have hcalled : calledIn ((s.pending.map fun entry => Event.settled entry.2.call (.rejected failure)).reverse ++
        history) = calledIn history := filterMap_tornDown (fun _ _ => rfl) _ _
    exact
      { ids_nodup := by rw [hpending]; exact List.nodup_nil
        taken_nodup := by rw [hids]; exact h.taken_nodup
        taken_lt := by rw [hids, hnext]; exact h.taken_lt
        calls_lt := by rw [hcalled, hcalls]; exact h.calls_lt
        called := fun entry he => by
          rw [hpending] at he
          cases he
        ledger := by
          rw [hcalled, settledIn_tornDown, hpending]
          exact h.ledger.settlesAll
        closed := fun _ => hpending
        answered := h.answered.append fun call outcome hmem => by
          rw [List.mem_reverse] at hmem
          obtain ⟨entry, -, heq⟩ := List.mem_map.mp hmem
          cases heq
          exact hfailure }

/-- Over a run the pending requests and the history fit. -/
theorem runs_ok {requestTimeoutMs : ℕ} {actions : List Action}
    (hrun : runs (logged emit) (create requestTimeoutMs, []) actions = some (s, history)) : Ok s history :=
  runs_kept (logged emit) (I := fun r => Ok r.1 r.2)
    (fun hok hs => by
      obtain ⟨events, hemit, hhistory⟩ := (logged_eq_some).mp hs
      rw [hhistory]
      exact (emit_does hok.ids_nodup hemit).ok hok)
    (ok_create requestTimeoutMs) hrun

end AgentHostProtocol.Client.Requests
