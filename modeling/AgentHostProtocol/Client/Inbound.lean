import AgentHostProtocol.Client.Settlement

/-!
# Inbound frames

`handleFrame` on any frame, not only on those that hold a message of the protocol. A frame that is
not JSON is logged and dropped. One that is JSON is handed to `dispatchInbound` as it is, and what
that throws ends `driveTransport`, which tears the client down: a value that is no object, an
`error` that is `null` for a request that is pending, a notification of a known method without
`params`. In the second case the request has left `pending` and its timer is cleared when the
exception is thrown, so it never settles.

* `frames_survived` — in every run each request settles once, or is the one that such an answer
  drops; a frame closes the client exactly when it is one of the three kinds.
-/

namespace AgentHostProtocol.Client.Requests

open Library

/-! ### Frames -/

/-- The `error` of an object. -/
inductive RawError where
  | null
  /-- Anything else, by what is read of it. -/
  | given (error : ErrorObject)
  deriving DecidableEq

/-- An object, by the keys that are looked for. An array has none of them. -/
structure RawMessage where
  id : Option JsonRpcId
  result : Option Json
  error : Option RawError
  /-- `method`, with its name where it is a string. -/
  method : Option (Option String)
  /-- There is no `params`, or it is `null`. -/
  nullishParams : Bool
  deriving DecidableEq

/-- `TransportFrame`. -/
inductive RawFrame where
  /-- `JSON.parse` throws. -/
  | malformed
  /-- A number, a string, `true`, `false` or `null`. -/
  | primitive
  | object (message : RawMessage)
  deriving DecidableEq

/-- The notifications whose `params` are read. -/
def notificationMethods : List String :=
  ["action", "root/sessionAdded", "root/sessionRemoved", "root/sessionSummaryChanged", "auth/required"]

/-- The message that a typed reader sees. -/
def RawMessage.toMessage (message : RawMessage) : ProtocolMessage where
  id := message.id
  result := message.result
  error := match message.error with
    | some (.given error) => some error
    | _ => none
  method := message.method.join

/-- What can be observed of requests. -/
inductive RawEvent where
  | event (event : Event)
  /-- The request of a call leaves `pending`, and its promise never settles. -/
  | dropped (call : ℕ)
  deriving DecidableEq

/-- `handleNotification` throws. -/
def RawMessage.notificationThrows (message : RawMessage) : Bool :=
  match message.method with
  | some (some method) => message.nullishParams && notificationMethods.contains method
  | _ => false

namespace AhpClient

/-- `dispatchInbound`, with whether it throws. -/
def dispatchRaw (s : AhpClient) (message : RawMessage) : AhpClient × List RawEvent × Bool :=
  match message.id, message.result, message.error with
  | some (.number id), none, some .null =>
    match s.pending.lookup id with
    | some pending =>
      ({ s with pending := s.pending.filter (·.1 ≠ id), timers := s.timers.erase id },
        [.dropped pending.call], true)
    | none => (s, [], false)
  | none, _, _ => (s, [], message.notificationThrows)
  | _, _, _ =>
    let (s, events) := s.dispatchInbound message.toMessage
    (s, events.map .event, false)

/-- `handleFrame`, with whether it throws. -/
def handleRaw (s : AhpClient) : RawFrame → AhpClient × List RawEvent × Bool
  | .malformed => (s, [], false)
  | .primitive => (s, [], true)
  | .object message =>
    let (s, events, throws) := s.dispatchRaw message
    (s, .event (.received message.toMessage) :: events, throws)

end AhpClient

/-! ### The client -/

/-- `recv` resolves to a frame. -/
def Action.isFrame : Action → Bool
  | .frame _ => true
  | _ => false

/-- What the event loop runs next. -/
inductive RawAction where
  | client (action : Action)
  /-- `recv` resolves to a frame; `thrown` is what the engine says of a `TypeError` there. -/
  | frame (frame : RawFrame) (thrown : String)
  deriving DecidableEq

/-- Run an action; `none` if it cannot happen. -/
def emitRaw (s : AhpClient) : RawAction → Option (AhpClient × List RawEvent)
  | .client action =>
    if action.isFrame then none else (emit s action).map fun out => (out.1, out.2.map .event)
  | .frame frame thrown =>
    if s.receiveLoop = .receiving then
      match s.handleRaw frame with
      | (s, events, false) => some (s.continueLoop, events)
      | (s, events, true) =>
        let (s, settled) := AhpClient.tearDown { s with receiveLoop := .ended }
          (.transportError (Thrown.toTransportError (.error thrown) "transport recv failed: "))
        some (s, events ++ settled.map .event)
    else none

/-- The frame answers a pending request with an `error` that is `null`. -/
def RawFrame.drops (s : AhpClient) : RawFrame → Bool
  | .object ⟨some (.number id), none, some .null, _, _⟩ => (s.pending.lookup id).isSome
  | _ => false

/-- The frame is JSON on which `dispatchInbound` throws. -/
def RawFrame.throws (s : AhpClient) : RawFrame → Bool
  | .malformed => false
  | .primitive => true
  | .object message => RawFrame.drops s (.object message) || message.id.isNone && message.notificationThrows

/-! ### What a frame does -/

variable {s s' : AhpClient} {history events : List RawEvent}

/-- What is seen if a request that is dropped is taken for one that is abandoned. -/
def RawEvent.seen : RawEvent → Event
  | .event e => e
  | .dropped call => .settled call (.rejected .clientClosedError)

def RawEvent.dropped? : RawEvent → Option ℕ
  | .event _ => none
  | .dropped call => some call

def RawEvent.event? : RawEvent → Option Event
  | .event e => some e
  | .dropped _ => none

/-- The calls whose request was dropped, newest first. -/
def droppedIn (history : List RawEvent) : List ℕ := history.filterMap RawEvent.dropped?

/-- The history without what was dropped. -/
def eventsIn (history : List RawEvent) : List Event := history.filterMap RawEvent.event?

@[simp] theorem eventsIn_map (events : List Event) : eventsIn (events.map .event) = events := by
  simp [eventsIn, List.filterMap_map, Function.comp_def, RawEvent.event?]

@[simp] theorem droppedIn_map (events : List Event) : droppedIn (events.map .event) = [] := by
  simp [droppedIn, List.filterMap_map, Function.comp_def, RawEvent.dropped?]

/-- A frame that drops nothing and on which nothing is thrown is handled as its message is. -/
theorem handleRaw_of_not_throws {frame : RawFrame} (h : frame.throws s = false) :
    ∃ frame', (s.handleRaw frame) = ((s.handleFrame frame').1, (s.handleFrame frame').2.map .event, false) := by
  cases frame with
  | malformed => exact ⟨.malformed, rfl⟩
  | primitive => cases h
  | object message =>
    refine ⟨.message message.toMessage, ?_⟩
    obtain ⟨id, result, error, method, nullish⟩ := message
    simp only [RawFrame.throws, Bool.or_eq_false_iff] at h
    cases id with
    | none =>
      have hthrows := h.2
      simp only [Option.isNone_none, Bool.true_and] at hthrows
      simp only [AhpClient.handleRaw, AhpClient.dispatchRaw, hthrows]
      rfl
    | some id =>
      cases id with
      | other => rfl
      | number id =>
        cases result with
        | some => rfl
        | none =>
          cases error with
          | none => rfl
          | some error =>
            cases error with
            | given => rfl
            | null =>
              have hnone : s.pending.lookup id = none := Option.not_isSome_iff_eq_none.mp (Bool.eq_false_iff.mp h.1)
              simp only [AhpClient.handleRaw, AhpClient.dispatchRaw, hnone]
              rfl

/-- A frame on which something is thrown changes nothing, or drops the request that it answers. -/
theorem handleRaw_of_throws {frame : RawFrame} (hnd : (s.pending.map Prod.fst).Nodup)
    (h : frame.throws s = true) :
    ∃ (u : AhpClient) (received : Option ProtocolMessage) (dropped : List ℕ),
      s.handleRaw frame =
        (u, received.toList.map (fun m => .event (.received m)) ++ dropped.map .dropped, true) ∧ Kept s u ∧
      (frame.drops s = false ∧ dropped = [] ∧ u.pending = s.pending ∨
        frame.drops s = true ∧ ∃ id pending before after, dropped = [pending.call] ∧
          s.pending = before ++ (id, pending) :: after ∧ u.pending = before ++ after) := by
  cases frame with
  | malformed => cases h
  | primitive => exact ⟨s, none, [], rfl, ⟨rfl, rfl, fun h => h⟩, .inl ⟨rfl, rfl, rfl⟩⟩
  | object message =>
    obtain ⟨id, result, error, method, nullish⟩ := message
    simp only [RawFrame.throws, Bool.or_eq_true, Bool.and_eq_true] at h
    rcases h with hdrops | ⟨hid, hthrows⟩
    · have hshape : ∃ n, id = some (.number n) ∧ result = none ∧ error = some .null := by
        unfold RawFrame.drops at hdrops
        split at hdrops
        · rename_i heq
          cases heq
          exact ⟨_, rfl, rfl, rfl⟩
        · cases hdrops
      obtain ⟨n, rfl, rfl, rfl⟩ := hshape
      obtain ⟨pending, hpending⟩ := Option.isSome_iff_exists.mp hdrops
      have hsettle : s.settle n (fun _ => .rejected .clientClosedError) =
          ({ s with pending := s.pending.filter (·.1 ≠ n), timers := s.timers.erase n },
            [.settled pending.call (.rejected .clientClosedError)]) := by
        simp only [AhpClient.settle, hpending]
      rcases settle_cases hnd n fun _ => .rejected .clientClosedError with
        hnone | ⟨pending', before, after, hsplit, hrest, hkept, hevents⟩
      · rw [hsettle] at hnone
        exact absurd (congrArg Prod.snd hnone) (by simp)
      · rw [hsettle] at hrest hkept hevents
        have hcall : pending.call = pending'.call := by simpa using hevents
        refine ⟨_, some (RawMessage.toMessage ⟨some (.number n), none, some .null, method, nullish⟩),
          [pending.call], ?_, hkept, .inr ⟨hdrops, n, pending', before, after, by rw [hcall], hsplit, hrest⟩⟩
        simp only [AhpClient.handleRaw, AhpClient.dispatchRaw, hpending]
        rfl
    · have hnone : id = none := Option.isNone_iff_eq_none.mp hid
      subst hnone
      refine ⟨s, some (RawMessage.toMessage ⟨none, result, error, method, nullish⟩), [], ?_, ⟨rfl, rfl, fun h => h⟩, .inl ⟨rfl, rfl, rfl⟩⟩
      simp only [AhpClient.handleRaw, AhpClient.dispatchRaw, hthrows]
      rfl

/-! ### Runs -/

/-- What an action does to the history, whether or not it drops a request. -/
theorem emitRaw_ok {a : RawAction} (h : Ok s (history.map RawEvent.seen))
    (ha : emitRaw s a = some (s', events)) : Ok s' ((events.reverse ++ history).map RawEvent.seen) := by
  have hseen : ∀ es : List Event, (es.map RawEvent.event).map RawEvent.seen = es := fun es => by
    rw [List.map_map]
    exact List.map_id es
  have hplain : ∀ {s' : AhpClient} {es : List Event}, Does s s' es →
      Ok s' (((es.map RawEvent.event).reverse ++ history).map RawEvent.seen) := by
    intro s' es hdoes
    rw [List.map_append, List.map_reverse, hseen]
    exact hdoes.ok h
  cases a with
  | client action =>
    simp only [emitRaw] at ha
    split_ifs at ha
    obtain ⟨⟨u, es⟩, hemit, heq⟩ := Option.map_eq_some_iff.mp ha
    cases heq
    exact hplain (emit_does h.ids_nodup hemit)
  | frame frame thrown =>
    simp only [emitRaw] at ha
    split_ifs at ha with hreceiving
    cases hthrows : frame.throws s with
    | false =>
      obtain ⟨frame', hframe⟩ := handleRaw_of_not_throws hthrows
      rw [hframe] at ha
      cases ha
      exact hplain (frame_does h.ids_nodup frame')
    | true =>
      obtain ⟨u, received, dropped, hframe, hkept, hpending⟩ := handleRaw_of_throws h.ids_nodup hthrows
      rw [hframe] at ha
      -- the message is seen, then the request is dropped, then the client is torn down
      have hreceived : Ok s ((received.toList.map Event.received).reverse ++ history.map RawEvent.seen) := by
        cases received with
        | none => exact h
        | some m => exact (@Does.ignored s s m ⟨rfl, rfl, fun h => h⟩ rfl).ok h
      have hdropped : Ok u ((dropped.map fun call => Event.settled call (.rejected .clientClosedError)).reverse ++
          ((received.toList.map Event.received).reverse ++ history.map RawEvent.seen)) := by
        rcases hpending with ⟨-, rfl, hsame⟩ | ⟨-, id, pending, before, after, rfl, hsplit, hrest⟩
        · exact (Does.idle hkept hsame).ok hreceived
        · exact (Does.abandoned hkept rfl hsplit hrest).ok hreceived
      have htorn := (@tearDown_does u { u with receiveLoop := .ended }
        (.transportError (Thrown.toTransportError (.error thrown) "transport recv failed: ")) rfl rfl rfl rfl
        fun h => h).ok hdropped
      cases ha
      convert htorn using 1
      simp [List.map_append, List.map_reverse, Function.comp_def, RawEvent.seen]

/-! ### What is dropped -/

theorem droppedIn_append (es es' : List RawEvent) : droppedIn (es ++ es') = droppedIn es ++ droppedIn es' :=
  List.filterMap_append

/-- A frame drops at most one request, and then something is thrown. -/
theorem droppedIn_handleRaw (frame : RawFrame) :
    frame.drops s = false ∧ droppedIn (s.handleRaw frame).2.1 = [] ∨
      frame.drops s = true ∧ (s.handleRaw frame).2.2 = true ∧ (droppedIn (s.handleRaw frame).2.1).length = 1 := by
  cases hdrops : frame.drops s with
  | true =>
    right
    obtain _ | _ | ⟨id, result, error, method, nullish⟩ := frame
    · cases hdrops
    · cases hdrops
    · unfold RawFrame.drops at hdrops
      split at hdrops
      · rename_i heq
        cases heq
        obtain ⟨pending, hpending⟩ := Option.isSome_iff_exists.mp hdrops
        simp only [AhpClient.handleRaw, AhpClient.dispatchRaw, hpending]
        exact ⟨trivial, trivial, rfl⟩
      · cases hdrops
  | false =>
    left
    cases hthrows : frame.throws s with
    | false =>
      obtain ⟨frame', hframe⟩ := handleRaw_of_not_throws hthrows
      rw [hframe]
      exact ⟨rfl, droppedIn_map _⟩
    | true =>
      obtain _ | _ | ⟨id, result, error, method, nullish⟩ := frame
      · cases hthrows
      · exact ⟨rfl, rfl⟩
      · simp only [RawFrame.throws, hdrops, Bool.false_or, Bool.and_eq_true, Option.isNone_iff_eq_none] at hthrows
        obtain ⟨rfl, hthrows⟩ := hthrows
        exact ⟨rfl, rfl⟩

/-- Nothing happens to a client whose loop has ended on a closed connection. -/
def Over (s : AhpClient) : Prop := s.status = .closed ∧ s.receiveLoop = .ended

theorem over_settle (u : AhpClient) (h : u.status = .closed ∧ u.receiveLoop = .ended) (id : ℕ)
    (outcome : PendingRequest → Outcome) : Over (u.settle id outcome).1 := by
  unfold AhpClient.settle
  split
  · exact h
  · exact h

theorem over_tearDown (u : AhpClient) (h : u.receiveLoop = .ended) (failure : AhpClientError) :
    Over (u.tearDown failure).1 := by
  unfold AhpClient.tearDown
  split
  next hclosed => exact ⟨hclosed, h⟩
  next => exact ⟨rfl, h⟩

theorem Over.of_some {out : AhpClient × List Event} {es : List Event} (h : Over out.1)
    (ha : some out = some (s', es)) : Over s' := by
  obtain rfl := Option.some.inj ha
  exact h

theorem over_emit {action : Action} {es : List Event} (h : Over s) (ha : emit s action = some (s', es)) : Over s' := by
  have hclosed : s.isClosed = true := by
    unfold AhpClient.isClosed
    rw [h.1]
    rfl
  cases action with
  | connect =>
    cases ha
    rw [if_neg (by rw [h.2]; nofun)]
    exact h
  | request method =>
    refine Over.of_some ?_ ha
    rw [AhpClient.request, if_pos hclosed]
    exact h
  | notify =>
    cases ha
    unfold AhpClient.notify
    rw [if_pos hclosed]
    exact h
  | respond =>
    cases ha
    exact h
  | shutdown =>
    simp only [emit, hclosed, if_true] at ha
    cases ha
    exact h
  | sent i =>
    simp only [emit] at ha
    split_ifs at ha
    cases ha
    exact h
  | sendFails i err =>
    obtain ⟨sent, -, heq⟩ := Option.map_eq_some_iff.mp ha
    have hover := over_tearDown { s with sending := s.sending.eraseIdx i } h.2
      (.transportError (err.toTransportError "transport send failed: "))
    cases sent with
    | none =>
      cases heq
      exact hover
    | some id =>
      cases heq
      exact hover
  | sendCaught =>
    simp only [emit] at ha
    split at ha
    · cases ha
    · refine Over.of_some (over_settle _ ?_ _ _) ha
      exact h
  | timeout id =>
    simp only [emit] at ha
    split_ifs at ha
    refine Over.of_some (over_settle _ ?_ _ _) ha
    exact h
  | frame | transportClosed | recvFails =>
    simp only [emit, h.2] at ha
    cases ha

/-- After a step: what was dropped, and that the client is over if something was. -/
theorem emitRaw_dropped {a : RawAction} (ha : emitRaw s a = some (s', events)) :
    ((∀ frame thrown, a = .frame frame thrown → frame.drops s = false) ∧ droppedIn events = []) ∨
      ((∃ frame thrown, a = .frame frame thrown ∧ frame.drops s = true) ∧ s.receiveLoop = .receiving ∧
        (droppedIn events).length = 1 ∧ Over s') := by
  cases a with
  | client action =>
    simp only [emitRaw] at ha
    split_ifs at ha
    obtain ⟨⟨u, es⟩, -, heq⟩ := Option.map_eq_some_iff.mp ha
    cases heq
    exact .inl ⟨nofun, droppedIn_map _⟩
  | frame frame thrown =>
    simp only [emitRaw] at ha
    split_ifs at ha with hreceiving
    have hframe := droppedIn_handleRaw (s := s) frame
    generalize s.handleRaw frame = out at ha hframe
    obtain ⟨u, es, throws⟩ := out
    rcases hframe with ⟨hdrops, hnone⟩ | ⟨hdrops, hthrows, hone⟩
    · refine .inl ⟨fun f t heq => by cases heq; exact hdrops, ?_⟩
      cases throws with
      | false =>
        cases ha
        exact hnone
      | true =>
        cases ha
        rw [droppedIn_append, droppedIn_map, List.append_nil]
        exact hnone
    · refine .inr ⟨⟨frame, thrown, rfl, hdrops⟩, hreceiving, ?_⟩
      cases hthrows
      cases ha
      rw [droppedIn_append, droppedIn_map, List.append_nil]
      exact ⟨hone, over_tearDown _ rfl _⟩

/-- No frame of the run answers a pending request with an `error` that is `null`. -/
def NothingDrops (r : AhpClient × List RawEvent) (a : RawAction) : Prop :=
  ∀ frame thrown, a = .frame frame thrown → frame.drops r.1 = false

/-- The parts of the invariant. -/
structure RawOk (s : AhpClient) (history : List RawEvent) : Prop where
  seen : Ok s (history.map RawEvent.seen)
  dropped : droppedIn history = [] ∨ (droppedIn history).length = 1 ∧ Over s

theorem RawOk.emit {a : RawAction} (h : RawOk s history) (ha : emitRaw s a = some (s', events)) :
    RawOk s' (events.reverse ++ history) where
  seen := emitRaw_ok h.seen ha
  dropped := by
    have hreverse : droppedIn (events.reverse ++ history) = (droppedIn events).reverse ++ droppedIn history := by
      rw [droppedIn_append]
      exact congrArg (· ++ _) (List.filterMap_reverse)
    rw [hreverse]
    rcases emitRaw_dropped ha with ⟨-, hnone⟩ | ⟨-, hreceiving, hone, hover⟩
    · rw [hnone]
      rcases h.dropped with hnil | ⟨hone, hover⟩
      · exact .inl (by rw [hnil]; rfl)
      · refine .inr ⟨by simpa using hone, ?_⟩
        cases a with
        | client action =>
          simp only [emitRaw] at ha
          split_ifs at ha
          obtain ⟨⟨u, es⟩, hemit, heq⟩ := Option.map_eq_some_iff.mp ha
          cases heq
          exact over_emit hover hemit
        | frame frame thrown =>
          simp only [emitRaw, hover.2] at ha
          cases ha
    · rcases h.dropped with hnil | ⟨-, hended⟩
      · exact .inr ⟨by rw [hnil]; simpa using hone, hover⟩
      · rw [hended.2] at hreceiving
        cases hreceiving

theorem rawOk_of_runs {requestTimeoutMs : ℕ} {acts : List RawAction}
    (hr : runs (logged emitRaw) (create requestTimeoutMs, []) acts = some (s, history)) : RawOk s history :=
  runs_kept (logged emitRaw) (I := fun r => RawOk r.1 r.2)
    (fun hok hs => by
      obtain ⟨events, hemit, hhistory⟩ := logged_eq_some.mp hs
      rw [hhistory]
      exact hok.emit hemit)
    ⟨ok_create requestTimeoutMs, .inl rfl⟩ hr

/-- What is settled where a dropped request is taken for one that settles. -/
theorem settledIn_seen (history : List RawEvent) :
    (settledIn (history.map RawEvent.seen)).Perm (settledIn (eventsIn history) ++ droppedIn history) := by
  induction history with
  | nil => exact .refl _
  | cons e history ih =>
    cases e with
    | event e =>
      have hdropped : droppedIn (.event e :: history) = droppedIn history := rfl
      have hseen : settledIn ((RawEvent.event e :: history).map RawEvent.seen) =
          settledIn [e] ++ settledIn (history.map RawEvent.seen) := @List.filterMap_append _ _ [e] _ _
      have hevents : settledIn (eventsIn (.event e :: history)) =
          settledIn [e] ++ settledIn (eventsIn history) := @List.filterMap_append _ _ [e] _ _
      rw [hdropped, hseen, hevents, List.append_assoc]
      exact ih.append_left _
    | dropped call =>
      refine (List.Perm.cons call ih).trans ?_
      exact List.perm_middle.symm

/-- A run drops nothing exactly if none of its frames does. -/
theorem droppedIn_run {r r' : AhpClient × List RawEvent} {acts : List RawAction}
    (hr : runs (logged emitRaw) r acts = some r') :
    (droppedIn r.2).length ≤ (droppedIn r'.2).length ∧
      ((droppedIn r'.2).length = (droppedIn r.2).length ↔ Guarded (logged emitRaw) NothingDrops r acts) := by
  induction acts generalizing r with
  | nil =>
    cases hr
    exact ⟨Nat.le_refl _, iff_of_true rfl trivial⟩
  | cons a acts ih =>
    obtain ⟨u, hu, hr⟩ := (runs_cons_eq_some _).mp hr
    rw [guarded_cons _ hu]
    obtain ⟨hle, hiff⟩ := ih hr
    obtain ⟨events, hemit, hhistory⟩ := logged_eq_some.mp hu
    have hlen : (droppedIn u.2).length = (droppedIn events).length + (droppedIn r.2).length := by
      rw [hhistory, droppedIn_append, List.length_append]
      exact congrArg (· + _) ((congrArg List.length List.filterMap_reverse).trans List.length_reverse)
    rcases emitRaw_dropped hemit with ⟨hguard, hnone⟩ | ⟨⟨frame, thrown, rfl, hdrops⟩, -, hone, -⟩
    · rw [hnone, List.length_nil, Nat.zero_add] at hlen
      rw [← hlen]
      exact ⟨hle, by rw [hiff]; exact ⟨fun h => ⟨hguard, h⟩, And.right⟩⟩
    · rw [hone] at hlen
      refine ⟨by omega, iff_of_false (by omega) fun h => ?_⟩
      rw [h.1 frame thrown rfl] at hdrops
      cases hdrops

/-! ### What closes the client -/

theorem settle_status (u : AhpClient) (id : ℕ) (outcome : PendingRequest → Outcome) :
    (u.settle id outcome).1.status = u.status := by
  unfold AhpClient.settle
  split <;> rfl

theorem handleFrame_status (u : AhpClient) (frame : Frame) : (u.handleFrame frame).1.status = u.status := by
  cases frame with
  | malformed => rfl
  | message message =>
    change (u.dispatchInbound message).1.status = u.status
    unfold AhpClient.dispatchInbound
    split
    · exact settle_status u _ _
    · exact settle_status u _ _
    · rfl

theorem handleRaw_throws (frame : RawFrame) : (s.handleRaw frame).2.2 = frame.throws s := by
  cases hthrows : frame.throws s with
  | false =>
    obtain ⟨frame', hframe⟩ := handleRaw_of_not_throws hthrows
    rw [hframe]
  | true =>
    rcases droppedIn_handleRaw (s := s) frame with ⟨hdrops, -⟩ | ⟨-, hthrown, -⟩
    · obtain _ | _ | ⟨id, result, error, method, nullish⟩ := frame
      · cases hthrows
      · rfl
      · simp only [RawFrame.throws, hdrops, Bool.false_or, Bool.and_eq_true, Option.isNone_iff_eq_none] at hthrows
        obtain ⟨rfl, hthrows⟩ := hthrows
        exact hthrows
    · exact hthrown

/-- A frame closes the client exactly if something is thrown on it. -/
theorem frame_closes {frame : RawFrame} {thrown : String} (ha : emitRaw s (.frame frame thrown) = some (s', events)) :
    s'.status = .closed ↔ s.status = .closed ∨ frame.throws s = true := by
  simp only [emitRaw] at ha
  split_ifs at ha
  cases hthrows : frame.throws s with
  | false =>
    obtain ⟨frame', hframe⟩ := handleRaw_of_not_throws hthrows
    rw [hframe] at ha
    cases ha
    have hstatus : (s.handleFrame frame').1.continueLoop.status = s.status := handleFrame_status s frame'
    rw [hstatus]
    exact ⟨.inl, fun h => h.resolve_right nofun⟩
  | true =>
    have hthrown := handleRaw_throws (s := s) frame
    rw [hthrows] at hthrown
    generalize s.handleRaw frame = out at ha hthrown
    obtain ⟨u, es, throws⟩ := out
    cases hthrown
    cases ha
    exact iff_of_true (over_tearDown _ rfl _).1 (.inr rfl)

/-- On a closed client a call has settled or was dropped. -/
theorem RawOk.settled_or_dropped (h : RawOk s history) (hclosed : s.status = .closed) {call : ℕ} {id : Option ℕ}
    (hcalled : .called call id ∈ eventsIn history) :
    call ∈ settledIn (eventsIn history) ∨ call ∈ droppedIn history := by
  have hseen : .called call id ∈ history.map RawEvent.seen := by
    obtain ⟨e, he, hevent⟩ := List.mem_filterMap.mp hcalled
    cases e with
    | dropped => cases hevent
    | event e =>
      cases hevent
      exact List.mem_map_of_mem he
  rcases h.seen.ledger.pending_or_settled (mem_calledIn.mpr ⟨id, hseen⟩) with hpending | hsettled
  · rw [h.seen.closed hclosed] at hpending
    cases hpending
  · exact List.mem_append.mp ((settledIn_seen history).mem_iff.mp hsettled)

/-- In every run a request settles once or is dropped, and on a closed client each has done so. At
most one is dropped, and then the client is closed; none is exactly if no frame answers a pending
request with an `error` that is `null`. A frame that arrives closes the client exactly if it is
JSON on which `dispatchInbound` throws. -/
theorem frames_survived (requestTimeoutMs : ℕ) (acts : List RawAction) (s : AhpClient) (history : List RawEvent)
    (hr : runs (logged emitRaw) (create requestTimeoutMs, []) acts = some (s, history)) :
    (settledIn (eventsIn history) ++ droppedIn history).Nodup ∧
      (droppedIn history).length ≤ 1 ∧
      (droppedIn history ≠ [] → s.status = .closed) ∧
      (s.status = .closed → ∀ call id, .called call id ∈ eventsIn history →
        call ∈ settledIn (eventsIn history) ∨ call ∈ droppedIn history) ∧
      (droppedIn history = [] ↔ Guarded (logged emitRaw) NothingDrops (create requestTimeoutMs, []) acts) ∧
      ∀ frame thrown s' events, emitRaw s (.frame frame thrown) = some (s', events) →
        (s'.status = .closed ↔ s.status = .closed ∨ frame.throws s = true) := by
  have hok := rawOk_of_runs hr
  refine ⟨(settledIn_seen history).nodup_iff.mp hok.seen.ledger.settled_nodup, ?_, ?_,
    fun hclosed call id => hok.settled_or_dropped hclosed, ?_, fun frame thrown s' events => frame_closes⟩
  · rcases hok.dropped with hnil | ⟨hone, -⟩
    · rw [hnil]
      exact Nat.zero_le 1
    · exact hone.le
  · intro hne
    rcases hok.dropped with hnil | ⟨-, hover⟩
    · exact absurd hnil hne
    · exact hover.1
  · rw [← (droppedIn_run hr).2]
    exact List.length_eq_zero_iff.symm

/-- Two requests are made, and the first is answered with an `error` that is `null`: it never
settles, and the second is rejected as the client is torn down. -/
def answeredWithNull : AhpClient × List RawEvent :=
  (⟨[], 3, .closed, .ended, 30000, 2, [], [some 1, some 2], []⟩,
    [.event (.settled 1 (.rejected (.transportError ⟨.io, "transport recv failed: error is null"⟩))), .dropped 0,
      .event (.received ⟨some (.number 1), none, none, none⟩), .event (.called 1 (some 2)),
      .event (.called 0 (some 1))])

theorem frames_survived_answeredWithNull :
    (settledIn (eventsIn answeredWithNull.2) ++ droppedIn answeredWithNull.2).Nodup ∧
      droppedIn answeredWithNull.2 = [0] :=
  ⟨(frames_survived 30000 [.client .connect, .client (.request "ping"), .client (.request "subscribe"),
      .frame (.object ⟨some (.number 1), none, some .null, none, true⟩) "error is null"]
      answeredWithNull.1 answeredWithNull.2 (by decide)).1, rfl⟩

end AgentHostProtocol.Client.Requests
