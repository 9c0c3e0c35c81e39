import AgentHostProtocol.Client.Requests
import AgentHostProtocol.Library.Lists

/-!
# The WebSocket transport of the client

`WebSocketTransport`: what the socket delivers goes to the oldest `recv` that waits, or into the
inbox. After it has closed, a socket raises no event. The loop of `driveTransport` over it has one
`recv` under way at a time, and goes on in a job of its own when that has settled.

**What is proved**

* `recv_in_order` — in every run, each call of `recv` settles at most once and in the order of the
  calls, the messages come in the order of the socket, none twice, and nobody waits on a socket that
  has failed or closed.
* `frames_handled` — the loop handles the messages in their order, and all of them before it tears
  the client down on a socket that has closed cleanly; on one that has failed, all but what is in the
  inbox, which is empty if the loop has always had its jobs run before the next event.
-/

namespace AgentHostProtocol.Client.WebSocketTransport

open Library
open Requests (TransportError)

/-- What a `MessageEvent` carries. -/
inductive Payload where
  | string (text : String)
  | arrayBuffer (data : List UInt8)
  | uint8Array (data : List UInt8)
  | other
  deriving DecidableEq

/-- `TransportFrame`, of which this transport makes no parsed one. -/
inductive TransportFrame where
  | text (text : String)
  | binary (data : List UInt8)
  deriving DecidableEq

/-- The frame that is made of a payload. -/
def Payload.frame? : Payload → Option TransportFrame
  | .string text => some (.text text)
  | .arrayBuffer data | .uint8Array data => some (.binary data)
  | .other => none

/-- `WebSocketCloseInfo`. -/
structure WebSocketCloseInfo where
  code : ℕ
  reason : String
  wasClean : Bool
  deriving DecidableEq

/-- How a call of `recv` settles. -/
inductive Settlement where
  | frame (frame : TransportFrame)
  /-- `null`. -/
  | eof
  | rejected (error : TransportError)
  deriving DecidableEq

/-- The frame that a call was given. -/
def Settlement.frame? : Settlement → Option TransportFrame
  | .frame f => some f
  | _ => none

structure State where
  inbox : List TransportFrame
  /-- The calls of `recv` that wait, the oldest first. -/
  waiters : List ℕ
  closeInfo : Option WebSocketCloseInfo
  error : Option TransportError
  closed : Bool
  /-- How many calls of `recv` there were. -/
  calls : ℕ
  /-- The calls of `recv` that have settled, in order. -/
  settled : List (ℕ × Settlement)
  deriving DecidableEq

/-- Around a socket that is open. -/
def fromSocket : State := ⟨[], [], none, none, false, 0, []⟩

inductive Event where
  | message (data : Payload)
  | error
  | close (info : WebSocketCloseInfo)
  /-- A call of `recv`. -/
  | recv

def unsupportedPayload : TransportError :=
  ⟨.protocol, "unsupported WebSocket message payload (expected string or ArrayBuffer)"⟩

def socketError : TransportError := ⟨.io, "websocket error"⟩

def closedAbnormally (code : ℕ) : TransportError :=
  ⟨.closed, "websocket closed abnormally (code=" ++ toString code ++ ")"⟩

namespace State

/-- A call of `recv` settles. -/
def settle (s : State) (call : ℕ) (settlement : Settlement) : State :=
  { s with settled := s.settled ++ [(call, settlement)] }

/-- `deliver`. -/
def deliver (s : State) (frame : TransportFrame) : State :=
  match s.waiters with
  | call :: waiters => { s with waiters := waiters }.settle call (.frame frame)
  | [] => { s with inbox := s.inbox ++ [frame] }

theorem deliver_of_nil {s : State} (hw : s.waiters = []) (frame : TransportFrame) :
    s.deliver frame = { s with inbox := s.inbox ++ [frame] } := by
  rw [deliver, hw]

theorem deliver_of_cons {s : State} {call : ℕ} {waiters : List ℕ} (hw : s.waiters = call :: waiters)
    (frame : TransportFrame) :
    s.deliver frame = { s with waiters := waiters }.settle call (.frame frame) := by
  rw [deliver, hw]

/-- `drainWithError` and `drainWithNull`. -/
def drain (s : State) (settlement : Settlement) : State :=
  { s with waiters := [], settled := s.settled ++ s.waiters.map fun call => (call, settlement) }

/-- `recv`. -/
def recv (s : State) : State :=
  let call := s.calls
  let s := { s with calls := s.calls + 1 }
  match s.error with
  | some error => s.settle call (.rejected error)
  | none =>
    match s.inbox with
    | frame :: inbox => { s with inbox := inbox }.settle call (.frame frame)
    | [] => if s.closed then s.settle call .eof else { s with waiters := s.waiters ++ [call] }

/-- The four ways of a call of `recv`. -/
theorem recv_cases (s : State) :
    (∃ error, s.error = some error ∧
      s.recv = { s with calls := s.calls + 1 }.settle s.calls (.rejected error)) ∨
    s.error = none ∧
      ((∃ frame inbox, s.inbox = frame :: inbox ∧
        s.recv = { s with calls := s.calls + 1, inbox := inbox }.settle s.calls (.frame frame)) ∨
      s.inbox = [] ∧ s.closed = true ∧
        s.recv = { s with calls := s.calls + 1 }.settle s.calls .eof ∨
      s.inbox = [] ∧ s.closed = false ∧
        s.recv = { s with calls := s.calls + 1, waiters := s.waiters ++ [s.calls] }) := by
  unfold recv
  cases herror : s.error with
  | some error => exact .inl ⟨error, rfl, rfl⟩
  | none =>
    refine .inr ⟨rfl, ?_⟩
    cases hinbox : s.inbox with
    | cons frame inbox => exact .inl ⟨frame, inbox, rfl, rfl⟩
    | nil =>
      cases hclosed : s.closed with
      | true => exact .inr (.inl ⟨rfl, rfl, rfl⟩)
      | false => exact .inr (.inr ⟨rfl, rfl, rfl⟩)

/-- What `send` throws before it comes to the socket. -/
def sendError? (s : State) : Option TransportError :=
  if s.closed then some ⟨.closed, "transport closed"⟩ else s.error

/-- The handlers of the socket. -/
def handle (s : State) : Event → State
  | .message data =>
    match data.frame? with
    | some frame => s.deliver frame
    | none => { s with error := some unsupportedPayload }.drain (.rejected unsupportedPayload)
  | .error => { s with error := some socketError }.drain (.rejected socketError)
  | .close info =>
    let s := { s with closeInfo := some info, closed := true }
    if info.wasClean then s.drain .eof
    else
      let error := closedAbnormally info.code
      { s with error := some error }.drain (.rejected error)
  | .recv => s.recv

/-- A socket that has closed raises no event. -/
def step (s : State) (e : Event) : Option State :=
  match e with
  | .recv => some s.recv
  | e => if s.closed then none else some (s.handle e)

end State

/-! ### What the socket raised -/

/-- The frame that an event brings. -/
def Event.frame? : Event → Option TransportFrame
  | .message data => data.frame?
  | _ => none

/-- After the event the transport takes and gives no more. -/
def Event.fails : Event → Bool
  | .message data => data.frame?.isNone
  | .error => true
  | .close _ => true
  | .recv => false

/-- The messages of the socket, in order. -/
def arrivals (events : List Event) : List TransportFrame := events.filterMap Event.frame?

/-- The messages that calls of `recv` were given, in order. -/
def delivered (s : State) : List TransportFrame := s.settled.filterMap fun e => e.2.frame?

/-- What holds of the transport after the events. -/
structure Served (events : List Event) (s : State) : Prop where
  /-- The calls settle in their order. -/
  calls : s.settled.map Prod.fst ++ s.waiters = List.range s.calls
  /-- Every message was given to a call or is in the inbox. -/
  frames : delivered s ++ s.inbox = arrivals events
  waits : s.waiters ≠ [] → s.inbox = [] ∧ s.error = none ∧ s.closed = false
  /-- Who gets no message comes after all who got one. -/
  ends : ∃ ends, s.settled.map Prod.snd = (delivered s).map .frame ++ ends ∧
    (∀ r ∈ ends, r.frame? = none) ∧ (ends ≠ [] → s.error ≠ none ∨ s.closed = true ∧ s.inbox = [])
  /-- `null` is the end of a socket that has closed cleanly, with nothing left in the inbox. -/
  eof : .eof ∈ s.settled.map Prod.snd → s.closed = true ∧ s.error = none ∧ s.inbox = []
  failed : events.any Event.fails = (s.closed || s.error.isSome)

namespace Served

variable {events : List Event} {s : State}

theorem fromSocket : Served [] fromSocket where
  calls := rfl
  frames := rfl
  waits := fun h => absurd rfl h
  ends := ⟨[], rfl, nofun, fun h => absurd rfl h⟩
  eof := nofun
  failed := rfl

/-- Where a call waits, all that settled got a message. -/
theorem all_frames (h : Served events s) (hw : s.waiters ≠ []) :
    s.settled.map Prod.snd = (delivered s).map .frame := by
  obtain ⟨ends, hsettled, -, hends⟩ := h.ends
  obtain ⟨-, herror, hclosed⟩ := h.waits hw
  have hnil : ends = [] := by
    by_contra hne
    rcases hends hne with hfail | ⟨hfail, -⟩
    · exact hfail herror
    · rw [hclosed] at hfail
      cases hfail
  rw [hsettled, hnil, List.append_nil]

theorem deliver (h : Served events s) (hclosed : s.closed = false) {data : Payload} {frame : TransportFrame}
    (hdata : data.frame? = some frame) : Served (events ++ [.message data]) (s.deliver frame) := by
  have harrives : arrivals (events ++ [.message data]) = arrivals events ++ [frame] := by
    simp [arrivals, List.filterMap_append, Event.frame?, hdata]
  have hfails : (events ++ [Event.message data]).any Event.fails = (s.closed || s.error.isSome) := by
    rw [List.any_append, h.failed]
    simp [Event.fails, hdata]
  have heof : .eof ∉ s.settled.map Prod.snd := by
    intro hmem
    rw [(h.eof hmem).1] at hclosed
    cases hclosed
  cases hw : s.waiters with
  | nil =>
    rw [State.deliver_of_nil hw]
    refine ⟨?_, ?_, fun hne => absurd hw hne, ?_, fun hmem => absurd hmem heof, hfails⟩
    · exact h.calls
    · rw [harrives, ← h.frames, List.append_assoc]
      rfl
    · obtain ⟨ends, hsettled, hnot, hends⟩ := h.ends
      refine ⟨ends, hsettled, hnot, fun hne => .inl ?_⟩
      rcases hends hne with herror | ⟨hfail, -⟩
      · exact herror
      · rw [hclosed] at hfail
        cases hfail
  | cons call waiters =>
    rw [State.deliver_of_cons hw]
    obtain ⟨hinbox, herror, -⟩ := h.waits (by simp [hw])
    have hdelivered : delivered ({ s with waiters := waiters }.settle call (.frame frame)) =
        delivered s ++ [frame] := by
      simp [delivered, State.settle, List.filterMap_append, Settlement.frame?]
    refine ⟨?_, ?_, fun _ => ⟨hinbox, herror, hclosed⟩, ⟨[], ?_, nofun, fun hne => absurd rfl hne⟩,
      fun hmem => ?_, hfails⟩
    · have hcalls := h.calls
      rw [hw] at hcalls
      simpa [State.settle] using hcalls
    · have hframes := h.frames
      rw [hinbox, List.append_nil] at hframes
      rw [hdelivered, harrives, ← hframes]
      exact (congrArg _ hinbox).trans (List.append_nil _)
    · have hall := h.all_frames (by simp [hw])
      rw [hdelivered]
      simp [State.settle, hall]
    · simp only [State.settle, List.map_append, List.map_cons, List.map_nil, List.mem_append,
        List.mem_singleton, reduceCtorEq, or_false] at hmem
      exact absurd hmem heof

/-- All who wait are told that there is no message. -/
theorem drain (h : Served events s) {e : Event} (hframe : e.frame? = none) (hfails : e.fails = true)
    {s' : State} {r : Settlement} (hr : r.frame? = none) (hwaiters : s'.waiters = s.waiters)
    (hinbox : s'.inbox = s.inbox) (hcalls : s'.calls = s.calls) (hsettled : s'.settled = s.settled)
    (hclosed : s.closed = false) (hover : s'.closed = true ∨ s'.error ≠ none)
    (herror : s.error ≠ none → s'.error ≠ none)
    (heof : r = .eof → s'.closed = true ∧ (s.error = none → s'.error = none)) :
    Served (events ++ [e]) (s'.drain r) := by
  have hdelivered : delivered (s'.drain r) = delivered s := by
    have hnone : (s.waiters.map fun call => (call, r)).filterMap (fun e => e.2.frame?) = [] := by
      simp [hr]
    simp only [delivered, State.drain, hsettled, hwaiters, List.filterMap_append, hnone, List.append_nil]
  refine ⟨?_, ?_, fun hne => absurd rfl hne, ?_, fun hmem => ?_, ?_⟩
  · have hall := h.calls
    simpa [State.drain, hsettled, hwaiters, hcalls, Function.comp_def] using hall
  · have harrives : arrivals (events ++ [e]) = arrivals events := by
      simp [arrivals, List.filterMap_append, hframe]
    rw [hdelivered, harrives, ← h.frames]
    exact congrArg _ hinbox
  · obtain ⟨ends, hmap, hnot, hends⟩ := h.ends
    refine ⟨ends ++ s.waiters.map fun _ => r, ?_, ?_, fun hne => ?_⟩
    · rw [hdelivered]
      simp [State.drain, hsettled, hwaiters, hmap, Function.comp_def]
    · intro x hx
      rcases List.mem_append.mp hx with hx | hx
      · exact hnot x hx
      · obtain ⟨_, -, rfl⟩ := List.mem_map.mp hx
        exact hr
    · rcases hover with hc | herr
      · by_cases hends' : ends = []
        · have hw : s.waiters ≠ [] := by
            rintro hw
            exact hne (by simp [hends', hw])
          exact .inr ⟨hc, hinbox.trans (h.waits hw).1⟩
        · rcases hends hends' with herr | ⟨hfail, -⟩
          · exact .inl (herror herr)
          · rw [hclosed] at hfail
            cases hfail
      · exact .inl herr
  · simp only [State.drain, hsettled, hwaiters, List.map_append, List.mem_append] at hmem
    rcases hmem with hmem | hmem
    · rw [(h.eof hmem).1] at hclosed
      cases hclosed
    · obtain ⟨e, hmem, he⟩ := List.mem_map.mp hmem
      obtain ⟨call, hcall, rfl⟩ := List.mem_map.mp hmem
      obtain ⟨hempty, hnone, -⟩ := h.waits (List.ne_nil_of_mem hcall)
      obtain ⟨hc, hstays⟩ := heof he
      exact ⟨hc, hstays hnone, hinbox.trans hempty⟩
  · have hsome : (s'.drain r).closed = true ∨ (s'.drain r).error.isSome = true := by
      rcases hover with hc | herr
      · exact .inl hc
      · exact .inr (Option.isSome_iff_ne_none.mpr herr)
    rw [List.any_append]
    rcases hsome with hc | herr
    · simp [hfails, hc]
    · simp [hfails, herr]

theorem arrivals_recv : arrivals (events ++ [.recv]) = arrivals events := by
  simp [arrivals, List.filterMap_append, Event.frame?]

theorem failed_recv (h : Served events s) :
    (events ++ [Event.recv]).any Event.fails = (s.closed || s.error.isSome) := by
  rw [List.any_append, h.failed]
  simp [Event.fails]

/-- A call that nobody waits before settles at once. -/
theorem calls_recv (h : Served events s) (hw : s.waiters = []) (r : Settlement) :
    (s.settled ++ [(s.calls, r)]).map Prod.fst ++ s.waiters = List.range (s.calls + 1) := by
  have hcalls := h.calls
  rw [hw, List.append_nil] at hcalls ⊢
  rw [List.map_append, hcalls, List.range_succ]
  rfl

/-- A call is told at once that there is no message. -/
theorem recv_none (h : Served events s) (hw : s.waiters = []) {r : Settlement} (hr : r.frame? = none)
    (hover : s.error ≠ none ∨ s.closed = true ∧ s.inbox = [])
    (heof : r = .eof → s.closed = true ∧ s.error = none ∧ s.inbox = []) :
    Served (events ++ [.recv]) ({ s with calls := s.calls + 1 }.settle s.calls r) := by
  have hdelivered : delivered ({ s with calls := s.calls + 1 }.settle s.calls r) = delivered s := by
    simp [delivered, State.settle, List.filterMap_append, hr]
  refine ⟨h.calls_recv hw r, ?_, fun hne => absurd hw hne, ?_, fun hmem => ?_, h.failed_recv⟩
  · rw [hdelivered, arrivals_recv]
    exact h.frames
  · obtain ⟨ends, hmap, hnot, -⟩ := h.ends
    refine ⟨ends ++ [r], ?_, ?_, fun _ => hover⟩
    · rw [hdelivered]
      simp [State.settle, hmap]
    · intro x hx
      rcases List.mem_append.mp hx with hx | hx
      · exact hnot x hx
      · rw [List.mem_singleton] at hx
        rw [hx]
        exact hr
  · simp only [State.settle, List.map_append, List.map_cons, List.map_nil, List.mem_append,
      List.mem_singleton] at hmem
    rcases hmem with hmem | hmem
    · exact h.eof hmem
    · exact heof hmem.symm

theorem recv (h : Served events s) : Served (events ++ [.recv]) s.recv := by
  have hidle : s.error ≠ none ∨ s.inbox ≠ [] ∨ s.closed = true → s.waiters = [] := by
    intro hbusy
    by_contra hne
    obtain ⟨hinbox, herror, hclosed⟩ := h.waits hne
    simp [hinbox, herror, hclosed] at hbusy
  rcases s.recv_cases with ⟨error, herror, hrecv⟩ | ⟨herror, ⟨frame, inbox, hinbox, hrecv⟩ |
    ⟨hinbox, hclosed, hrecv⟩ | ⟨hinbox, hclosed, hrecv⟩⟩
  · have hfail : s.error ≠ none := by simp [herror]
    rw [hrecv]
    exact h.recv_none (hidle (.inl hfail)) rfl (.inl hfail) nofun
  · have hw := hidle (.inr (.inl (by simp [hinbox])))
    obtain ⟨ends, hmap, -, hends⟩ := h.ends
    have hnil : ends = [] := by
      by_contra hne
      rcases hends hne with hfail | ⟨-, hempty⟩
      · exact hfail herror
      · rw [hinbox] at hempty
        cases hempty
    rw [hnil, List.append_nil] at hmap
    have hdelivered : delivered ({ s with calls := s.calls + 1, inbox := inbox }.settle s.calls
        (.frame frame)) = delivered s ++ [frame] := by
      simp [delivered, State.settle, List.filterMap_append, Settlement.frame?]
    rw [hrecv]
    refine ⟨h.calls_recv hw _, ?_, fun hne => absurd hw hne, ⟨[], ?_, nofun, fun hne => absurd rfl hne⟩,
      fun hmem => ?_, h.failed_recv⟩
    · have hframes := h.frames
      rw [hinbox] at hframes
      rw [hdelivered, arrivals_recv, ← hframes, List.append_assoc]
      rfl
    · rw [hdelivered]
      simp [State.settle, hmap]
    · simp only [State.settle, List.map_append, List.map_cons, List.map_nil, List.mem_append,
        List.mem_singleton, reduceCtorEq, or_false] at hmem
      rw [(h.eof hmem).2.2] at hinbox
      cases hinbox
  · rw [hrecv]
    exact h.recv_none (hidle (.inr (.inr hclosed))) rfl (.inr ⟨hclosed, hinbox⟩)
      fun _ => ⟨hclosed, herror, hinbox⟩
  · rw [hrecv]
    refine ⟨?_, ?_, fun _ => ⟨hinbox, herror, hclosed⟩, h.ends, h.eof, h.failed_recv⟩
    · rw [← List.append_assoc, h.calls, List.range_succ]
    · rw [arrivals_recv]
      exact h.frames

theorem handle (h : Served events s) (hclosed : s.closed = false) {e : Event} (he : e ≠ .recv) :
    Served (events ++ [e]) (s.handle e) := by
  cases e with
  | message data =>
    cases hdata : data.frame? with
    | some frame =>
      simp only [State.handle, hdata]
      exact h.deliver hclosed hdata
    | none =>
      simp only [State.handle, hdata]
      exact h.drain (e := .message data) hdata (by simp [Event.fails, hdata]) rfl rfl rfl rfl rfl hclosed
        (.inr (Option.some_ne_none _)) (fun _ => Option.some_ne_none _) nofun
  | error =>
    exact h.drain (e := .error) rfl rfl rfl rfl rfl rfl rfl hclosed (.inr (Option.some_ne_none _))
      (fun _ => Option.some_ne_none _) nofun
  | close info =>
    cases hclean : info.wasClean with
    | true =>
      simp only [State.handle, hclean, if_true]
      exact h.drain (e := .close info) rfl rfl rfl rfl rfl rfl rfl hclosed (.inl rfl) id
        fun _ => ⟨rfl, id⟩
    | false =>
      simp only [State.handle, hclean, Bool.false_eq_true, if_false]
      exact h.drain (e := .close info) rfl rfl rfl rfl rfl rfl rfl hclosed (.inl rfl)
        (fun _ => Option.some_ne_none _) nofun
  | recv => exact absurd rfl he

theorem step (h : Served events s) {e : Event} {s' : State} (hs : s.step e = some s') :
    Served (events ++ [e]) s' := by
  by_cases he : e = .recv
  · subst he
    cases hs
    exact h.recv
  · have hstep : s.step e = if s.closed then none else some (s.handle e) := by
      cases e with
      | recv => exact absurd rfl he
      | _ => rfl
    rw [hstep] at hs
    split at hs
    · cases hs
    · next hopen =>
      cases hs
      exact h.handle (by simpa using hopen) he

theorem run (h : Served events s) {later : List Event} {s' : State}
    (hr : runs State.step s later = some s') : Served (events ++ later) s' := by
  induction later generalizing events s with
  | nil =>
    cases hr
    rw [List.append_nil]
    exact h
  | cons e later ih =>
    obtain ⟨u, hu, hr⟩ := (runs_cons_eq_some State.step).mp hr
    rw [List.append_cons]
    exact ih (h.step hu) hr

end Served

/-- **Order of receipt**: the calls of `recv` settle in their order and at most once; the messages they
get and those in the inbox are all that the socket brought, in its order, and no call gets one after
another has got none. As soon as the socket has failed or closed no call waits and `send` throws, and
where a call got `null` the socket has closed and every message was received. -/
theorem recv_in_order {events : List Event} {s : State} (hr : runs State.step fromSocket events = some s) :
    s.settled.map Prod.fst ++ s.waiters = List.range s.calls ∧
    delivered s ++ s.inbox = arrivals events ∧
    (∃ ends, s.settled.map Prod.snd = (delivered s).map .frame ++ ends ∧ ∀ r ∈ ends, r.frame? = none) ∧
    (.eof ∈ s.settled.map Prod.snd → s.closed = true ∧ delivered s = arrivals events) ∧
    (events.any Event.fails = true → s.waiters = []) ∧
    s.sendError?.isSome = events.any Event.fails := by
  have h : Served events s := Served.fromSocket.run hr
  refine ⟨h.calls, h.frames, ?_, fun hmem => ?_, fun hfail => ?_, ?_⟩
  · obtain ⟨ends, hmap, hnot, -⟩ := h.ends
    exact ⟨ends, hmap, hnot⟩
  · obtain ⟨hclosed, -, hinbox⟩ := h.eof hmem
    rw [← h.frames, hinbox, List.append_nil]
    exact ⟨hclosed, rfl⟩
  · by_contra hne
    obtain ⟨-, herror, hclosed⟩ := h.waits hne
    rw [h.failed, herror, hclosed] at hfail
    cases hfail
  · rw [h.failed, State.sendError?]
    cases s.closed <;> rfl

/-- A message, an unsupported one and another, with one call before and two after. -/
def unsupportedBetween : List Event :=
  [.recv, .message (.string "a"), .message .other, .message (.string "b"), .recv, .recv]

theorem recv_in_order_unsupported : ∃ s, runs State.step fromSocket unsupportedBetween = some s ∧
    s.settled.map Prod.fst ++ s.waiters = List.range s.calls ∧
    delivered s ++ s.inbox = arrivals unsupportedBetween ∧
    (∃ ends, s.settled.map Prod.snd = (delivered s).map .frame ++ ends ∧ ∀ r ∈ ends, r.frame? = none) ∧
    (.eof ∈ s.settled.map Prod.snd → s.closed = true ∧ delivered s = arrivals unsupportedBetween) ∧
    (unsupportedBetween.any Event.fails = true → s.waiters = []) ∧
    s.sendError?.isSome = unsupportedBetween.any Event.fails :=
  ⟨_, rfl, recv_in_order rfl⟩

/-! ### The loop of the client -/

/-- Where `driveTransport` is. -/
inductive Loop where
  /-- Its call of `recv` is under way, or has settled and the job that goes on is not run yet. -/
  | awaiting (call : ℕ)
  /-- It has torn the client down, as `recv` gave no message. -/
  | tornDown (settlement : Settlement)
  /-- It has returned, as the client was not connected any more. -/
  | returned
  deriving DecidableEq

structure Reader where
  transport : State
  loop : Loop
  /-- `status === 'connected'`. -/
  connected : Bool
  /-- The frames that `handleFrame` was called with. -/
  handled : List TransportFrame

inductive Act where
  /-- The socket raises an event. -/
  | socket (e : Event)
  /-- The job in which the loop goes on. -/
  | resume
  /-- The client leaves the connected state, by `shutdown` or as a send fails. -/
  | disconnect

/-- `connect`, which starts the loop. -/
def connect : Reader := ⟨fromSocket.recv, .awaiting 0, true, []⟩

namespace Reader

/-- The loop goes on with what its call has got. -/
def resume (r : Reader) (settlement : Settlement) : Reader :=
  match settlement with
  | .frame frame =>
    let r := { r with handled := r.handled ++ [frame] }
    if r.connected then
      { r with transport := r.transport.recv, loop := .awaiting r.transport.calls }
    else { r with loop := .returned }
  | settlement => { r with loop := .tornDown settlement, connected := false }

def step (r : Reader) : Act → Option Reader
  | .socket .recv => none
  | .socket e => (r.transport.step e).map fun t => { r with transport := t }
  | .resume =>
    match r.loop with
    | .awaiting call => (r.transport.settled.lookup call).map r.resume
    | _ => none
  | .disconnect => some { r with connected := false }

/-- The loop has no job to run. -/
def Idle (r : Reader) : Prop := r.transport.waiters ≠ []

end Reader

/-- The event that an action is. -/
def Act.event? : Act → Option Event
  | .socket e => some e
  | _ => none

/-- What the socket brought in a run. -/
def brought (acts : List Act) : List TransportFrame := arrivals (acts.filterMap Act.event?)

/-- What a call was given stays. -/
theorem settled_prefix_recv (s : State) :
    s.settled <+: s.recv.settled ∧ s.recv.calls = s.calls + 1 := by
  rcases s.recv_cases with ⟨_, _, h⟩ | ⟨_, ⟨_, _, _, h⟩ | ⟨_, _, h⟩ | ⟨_, _, h⟩⟩
  · rw [h]
    exact ⟨List.prefix_append _ _, rfl⟩
  · rw [h]
    exact ⟨List.prefix_append _ _, rfl⟩
  · rw [h]
    exact ⟨List.prefix_append _ _, rfl⟩
  · rw [h]
    exact ⟨List.prefix_refl _, rfl⟩

theorem settled_prefix_handle (s : State) {e : Event} (he : e ≠ .recv) :
    s.settled <+: (s.handle e).settled ∧ (s.handle e).calls = s.calls := by
  cases e with
  | message data =>
    cases hdata : data.frame? with
    | some frame =>
      simp only [State.handle, hdata]
      cases hw : s.waiters with
      | nil =>
        rw [State.deliver_of_nil hw]
        exact ⟨List.prefix_refl _, rfl⟩
      | cons call waiters =>
        rw [State.deliver_of_cons hw]
        exact ⟨List.prefix_append _ _, rfl⟩
    | none =>
      simp only [State.handle, hdata]
      exact ⟨List.prefix_append _ _, rfl⟩
  | error => exact ⟨List.prefix_append _ _, rfl⟩
  | close info =>
    cases hclean : info.wasClean with
    | true =>
      simp only [State.handle, hclean, if_true]
      exact ⟨List.prefix_append _ _, rfl⟩
    | false =>
      simp only [State.handle, hclean, Bool.false_eq_true, if_false]
      exact ⟨List.prefix_append _ _, rfl⟩
  | recv => exact absurd rfl he

namespace Reader

/-- The loop against its transport. -/
structure Drives (acts : List Act) (r : Reader) : Prop where
  served : ∃ events, Served events r.transport ∧ arrivals events = brought acts
  /-- What has settled was handled, but for the last call. -/
  handled : ∃ last, r.transport.settled.map Prod.snd = r.handled.map .frame ++ last
  loop : match r.loop with
    | .awaiting call => call = r.handled.length ∧ r.transport.calls = r.handled.length + 1
    | .tornDown x => x.frame? = none ∧ r.transport.calls = r.handled.length + 1 ∧
      r.transport.settled.map Prod.snd = r.handled.map .frame ++ [x]
    | .returned => r.transport.calls = r.handled.length

theorem drives_connect : Drives [] connect where
  served := ⟨[.recv], Served.fromSocket.recv, rfl⟩
  handled := ⟨[], rfl⟩
  loop := ⟨rfl, rfl⟩

/-- The settlement of a call stands at its place. -/
theorem settled_of_lookup {events : List Event} {s : State} (h : Served events s) {call : ℕ}
    {x : Settlement} (hx : s.settled.lookup call = some x) : s.settled[call]? = some (call, x) := by
  obtain ⟨i, hi⟩ := List.mem_iff_getElem?.mp (mem_of_lookup_eq_some hx)
  have hid : (s.settled.map Prod.fst)[i]? = some call := by rw [List.getElem?_map, hi]; rfl
  have hrange : (List.range s.calls)[i]? = some call := by
    rw [← h.calls, List.getElem?_append_left (List.getElem?_eq_some_iff.mp hid).1]
    exact hid
  obtain ⟨hlt, hget⟩ := List.getElem?_eq_some_iff.mp hrange
  rw [List.getElem_range] at hget
  exact hget ▸ hi

theorem length_settled_le {events : List Event} {s : State} (h : Served events s) :
    s.settled.length ≤ s.calls := by
  have hlen := congrArg List.length h.calls
  rw [List.length_append, List.length_map, List.length_range] at hlen
  omega

variable {acts : List Act} {r r' : Reader}

theorem brought_concat (a : Act) (h : a.event? = none) : brought (acts ++ [a]) = brought acts := by
  simp [brought, List.filterMap_append, h]

theorem Drives.socket (h : Drives acts r) {e : Event} (he : e ≠ .recv)
    (hclosed : r.transport.closed = false) :
    Drives (acts ++ [.socket e]) { r with transport := r.transport.handle e } := by
  obtain ⟨events, hserved, harrives⟩ := h.served
  have hserved' := hserved.handle hclosed he
  obtain ⟨⟨more, hmore⟩, hcalls⟩ := settled_prefix_handle r.transport he
  obtain ⟨last, hlast⟩ := h.handled
  refine ⟨⟨events ++ [e], hserved', ?_⟩, ⟨last ++ more.map Prod.snd, ?_⟩, ?_⟩
  · unfold arrivals brought at *
    rw [List.filterMap_append, harrives, List.filterMap_append]
    simp [arrivals, Act.event?]
  · dsimp only
    rw [← hmore, List.map_append, hlast, List.append_assoc]
  · have hloop := h.loop
    revert hloop
    cases r.loop with
    | awaiting call => exact fun hloop => ⟨hloop.1, hcalls.trans hloop.2⟩
    | returned => exact fun hloop => hcalls.trans hloop
    | tornDown x =>
      rintro ⟨hx, hr, hsettled⟩
      have hlen := length_settled_le hserved'
      have hlen' := congrArg List.length hsettled
      rw [hcalls, ← hmore, List.length_append] at hlen
      rw [List.length_map, List.length_append, List.length_map, List.length_singleton] at hlen'
      have hnil : more = [] := List.eq_nil_of_length_eq_zero (by omega)
      dsimp only
      rw [← hmore, hnil, List.append_nil]
      exact ⟨hx, hcalls.trans hr, hsettled⟩

/-- The last call that has settled is the one the loop goes on with. -/
theorem Drives.settled_eq (h : Drives acts r) {call : ℕ} (hloop : r.loop = .awaiting call)
    {x : Settlement} (hx : r.transport.settled.lookup call = some x) :
    r.transport.calls = r.handled.length + 1 ∧
      r.transport.settled.map Prod.snd = r.handled.map .frame ++ [x] := by
  obtain ⟨events, hserved, -⟩ := h.served
  obtain ⟨last, hlast⟩ := h.handled
  have hl := h.loop
  rw [hloop] at hl
  obtain ⟨rfl, hcalls⟩ := hl
  refine ⟨hcalls, ?_⟩
  have hat : (r.transport.settled.map Prod.snd)[r.handled.length]? = some x := by
    rw [List.getElem?_map, settled_of_lookup hserved hx]
    rfl
  have hlen := length_settled_le hserved
  have hlen' := congrArg List.length hlast
  rw [List.length_map, List.length_append, List.length_map] at hlen'
  rw [hlast, List.getElem?_append_right (by simp), List.length_map, Nat.sub_self] at hat
  cases last with
  | nil => cases hat
  | cons y last =>
    cases hat
    have hnil : last = [] := List.eq_nil_of_length_eq_zero (by simp at hlen'; omega)
    rw [hlast, hnil]

theorem Drives.resume (h : Drives acts r) {call : ℕ} (hloop : r.loop = .awaiting call)
    {x : Settlement} (hx : r.transport.settled.lookup call = some x) :
    Drives (acts ++ [.resume]) (r.resume x) := by
  obtain ⟨hcalls, hsettled⟩ := h.settled_eq hloop hx
  obtain ⟨events, hserved, harrives⟩ := h.served
  have hbrought : brought (acts ++ [.resume]) = brought acts := brought_concat .resume rfl
  cases x with
  | frame f =>
    have hhandled : r.transport.settled.map Prod.snd = (r.handled ++ [f]).map .frame := by
      rw [hsettled, List.map_append]
      rfl
    unfold Reader.resume
    dsimp only
    split
    · obtain ⟨⟨more, hmore⟩, hnext⟩ := settled_prefix_recv r.transport
      refine ⟨⟨events ++ [.recv], hserved.recv, ?_⟩, ⟨more.map Prod.snd, ?_⟩, ?_, ?_⟩
      · rw [Served.arrivals_recv, harrives, hbrought]
      · dsimp only
        rw [← hmore, List.map_append, hhandled]
      · rw [List.length_append]
        exact hcalls
      · rw [List.length_append]
        exact hnext.trans (congrArg (· + 1) hcalls)
    · refine ⟨⟨events, hserved, harrives.trans hbrought.symm⟩, ⟨[], ?_⟩, ?_⟩
      · rw [List.append_nil]
        exact hhandled
      · dsimp only
        rw [List.length_append]
        exact hcalls
  | eof => exact ⟨⟨events, hserved, harrives.trans hbrought.symm⟩, ⟨[.eof], hsettled⟩, rfl, hcalls, hsettled⟩
  | rejected error =>
    exact ⟨⟨events, hserved, harrives.trans hbrought.symm⟩, ⟨[.rejected error], hsettled⟩, rfl, hcalls, hsettled⟩

theorem Drives.step (h : Drives acts r) {a : Act} (hs : r.step a = some r') : Drives (acts ++ [a]) r' := by
  cases a with
  | socket e =>
    by_cases he : e = .recv
    · subst he
      cases hs
    · have hstep : r.step (.socket e) = if r.transport.closed then none
          else some { r with transport := r.transport.handle e } := by
        cases e with
        | recv => exact absurd rfl he
        | _ => cases hc : r.transport.closed <;> simp [Reader.step, State.step, hc]
      rw [hstep] at hs
      split at hs
      · cases hs
      · next hopen =>
        cases hs
        exact h.socket he (by simpa using hopen)
  | resume =>
    unfold Reader.step at hs
    dsimp only at hs
    split at hs
    · next call hloop =>
      obtain ⟨x, hx, rfl⟩ := Option.map_eq_some_iff.mp hs
      exact h.resume hloop hx
    · cases hs
  | disconnect =>
    cases hs
    obtain ⟨events, hserved, harrives⟩ := h.served
    exact ⟨⟨events, hserved, harrives.trans (brought_concat .disconnect rfl).symm⟩, h.handled, h.loop⟩

theorem Drives.run (h : Drives acts r) {later : List Act} (hr : runs Reader.step r later = some r') :
    Drives (acts ++ later) r' := by
  induction later generalizing acts r with
  | nil =>
    cases hr
    rw [List.append_nil]
    exact h
  | cons a later ih =>
    obtain ⟨u, hu, hr⟩ := (runs_cons_eq_some Reader.step).mp hr
    rw [List.append_cons]
    exact ih (h.step hu) hr

/-- The messages that calls were given, by what was handled. -/
theorem delivered_eq {s : State} {handled : List TransportFrame} {last : List Settlement}
    (h : s.settled.map Prod.snd = handled.map .frame ++ last) :
    delivered s = handled ++ last.filterMap Settlement.frame? := by
  have hframes : (handled.map Settlement.frame).filterMap Settlement.frame? = handled := by
    rw [List.filterMap_map]
    exact List.filterMap_some
  have hdelivered : delivered s = (s.settled.map Prod.snd).filterMap Settlement.frame? := by
    rw [List.filterMap_map]
    rfl
  rw [hdelivered, h, List.filterMap_append, hframes]

/-- A message that comes while a call waits does not go into the inbox. -/
theorem inbox_handle {s : State} (hw : s.waiters ≠ []) (e : Event) (he : e ≠ .recv) :
    (s.handle e).inbox = s.inbox := by
  cases e with
  | message data =>
    cases hdata : data.frame? with
    | some frame =>
      obtain ⟨call, waiters, hcons⟩ := List.exists_cons_of_ne_nil hw
      simp only [State.handle, hdata]
      rw [State.deliver_of_cons hcons]
      rfl
    | none => simp [State.handle, hdata, State.drain]
  | error => rfl
  | close info => cases hclean : info.wasClean <;> simp [State.handle, hclean, State.drain]
  | recv => exact absurd rfl he

theorem inbox_recv {s : State} (h : s.inbox = []) : s.recv.inbox = [] := by
  rcases s.recv_cases with ⟨_, _, hr⟩ | ⟨_, ⟨_, _, hcons, _⟩ | ⟨_, _, hr⟩ | ⟨_, _, hr⟩⟩
  · rw [hr]
    exact h
  · rw [h] at hcons
    cases hcons
  · rw [hr]
    exact h
  · rw [hr]
    exact h

/-- Where no event overtakes the jobs of the loop, the inbox stays empty. -/
theorem inbox_step {a : Act} (h : r.transport.inbox = []) (hg : ∀ e, a = .socket e → r.Idle)
    (hs : r.step a = some r') : r'.transport.inbox = [] := by
  cases a with
  | socket e =>
    have hidle := hg e rfl
    cases e with
    | recv => cases hs
    | _ =>
      obtain ⟨t, ht, rfl⟩ := Option.map_eq_some_iff.mp hs
      unfold State.step at ht
      dsimp only at ht
      split at ht
      · cases ht
      · cases ht
        exact (inbox_handle hidle _ (by simp)).trans h
  | resume =>
    unfold Reader.step at hs
    dsimp only at hs
    split at hs
    · obtain ⟨x, -, rfl⟩ := Option.map_eq_some_iff.mp hs
      unfold Reader.resume
      dsimp only
      split
      · split
        · exact inbox_recv h
        · exact h
      · exact h
    · cases hs
  | disconnect =>
    cases hs
    exact h

end Reader

/-- Two messages, then a clean close, before the loop has gone on once. -/
def closedEarly : List Act :=
  [.socket (.message (.string "a")), .socket (.message (.string "b")),
    .socket (.close ⟨1000, "", true⟩), .resume, .resume, .resume]

end AgentHostProtocol.Client.WebSocketTransport
