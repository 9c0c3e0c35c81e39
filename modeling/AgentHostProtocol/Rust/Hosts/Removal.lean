import AgentHostProtocol.Library.Lists
import AgentHostProtocol.Library.Runs
import Mathlib.Data.Nat.Notation

/-!
# Removing a host of the Rust multi-host client

`HostRuntime` of one host with its clients, the handles that `MultiHostClient::client` issues,
and `remove_host`. A step is what runs between two places where another task can come in: an
await of the runtime, the lock of the shared state, a queue. Of the messages only those passed
to a handle are told apart.

* `removed_of_uninstalled` — once `remove_host` has returned there is no current client and
  nothing passed to a handle reaches a transport, in every run in which the shutdown does not
  interrupt a `connect_once` that has installed its client.

The handles go by the generation, which a removal does not change: what holds them back is the
`Shutdown` that `tear_down_client` puts in the queue of their client, ahead of what they send.
-/

namespace AgentHostProtocol.Rust.Hosts

open Library

/-- What is in the queue of a client. -/
inductive Outbound where
  /-- A message of a call on a handle. -/
  | call (call : ℕ)
  /-- A message of the runtime. -/
  | other
  | shutdown
  deriving DecidableEq

/-- A client with its transport task. -/
structure Connection where
  outbound : List Outbound
  /-- The task has returned. -/
  ended : Bool
  /-- The calls whose messages the transport was given. -/
  reached : List ℕ
  deriving DecidableEq

/-- Where `run` is. -/
inductive Runtime where
  /-- In `connect_once`, without a client. -/
  | opening
  /-- In `connect_once`, before the new client is installed. -/
  | handshaking (client : ℕ)
  /-- In `connect_once`, after it. -/
  | installed (client : ℕ)
  /-- In `run_connection`. -/
  | connected (client : ℕ)
  /-- Before `tear_down_client` takes the current client. -/
  | tearingDown (stop : Bool)
  /-- In `client.shutdown()`. -/
  | closing (client : ℕ) (stop : Bool)
  /-- In `sleep_or_command` or `wait_for_manual_reconnect_or_shutdown`. -/
  | pausing
  | returned
  deriving DecidableEq

/-- `HostClientHandle`. -/
structure Handle where
  generation : ℕ
  client : ℕ
  deriving DecidableEq

/-- Where a call of `dispatch` or `request` on a handle is. -/
inductive Calling where
  | called
  /-- `check_alive` let it pass. -/
  | checked
  /-- `HostReconnected`. -/
  | refused
  | sent
  /-- `ClientError::Shutdown`. -/
  | failed
  deriving DecidableEq

structure Call where
  handle : Handle
  pc : Calling
  /-- It was made after `remove_host` returned. -/
  late : Bool
  deriving DecidableEq

/-- Where `remove_host` is. -/
inductive Removal where
  /-- The host is registered. -/
  | registered
  /-- It is out of the registry. -/
  | removed
  /-- In `join.await`. -/
  | joining
  | returned
  deriving DecidableEq

structure State where
  runtime : Runtime
  generation : ℕ
  /-- `current_client`. -/
  currentClient : Option ℕ
  /-- Every client that was ever created. -/
  connections : List Connection
  handles : List Handle
  /-- How many calls of `MultiHostClient::client` have found the host. -/
  lookups : ℕ
  calls : List Call
  removal : Removal
  /-- `shutdown_signal` holds a permit. -/
  notified : Bool
  deriving DecidableEq

inductive Act where
  /-- `open_transport` and `Client::connect` end. -/
  | opened (ok : Bool)
  /-- The handshake ends, and the client is installed. -/
  | handshake (ok : Bool)
  /-- `connect_once` returns. -/
  | connected
  /-- The `select!` around `connect_once` takes the shutdown. -/
  | interrupt
  /-- The connection ends, or a reconnect is asked for. -/
  | disconnected
  /-- `run_connection` takes the shutdown. -/
  | stop
  /-- `tear_down_client` takes the current client. -/
  | take
  /-- `client.shutdown()` puts `Shutdown` in the queue. -/
  | close
  /-- The pause ends. -/
  | resume
  /-- The pause takes the shutdown. -/
  | stopPause
  /-- `MultiHostClient::client` finds the host. -/
  | lookup
  /-- It reads the shared state. -/
  | issue
  /-- `dispatch` or `request` is called on a handle. -/
  | call (handle : ℕ)
  /-- `check_alive`. -/
  | check (call : ℕ)
  /-- The message goes into the queue. -/
  | send (call : ℕ)
  /-- So does another one. -/
  | sendOther (client : ℕ)
  /-- The transport task takes a message. -/
  | transmit (client : ℕ)
  /-- A connection ends. -/
  | lost (client : ℕ)
  /-- `remove_host` takes the host out of the registry. -/
  | remove
  /-- `notify_one`, and the inbox is closed. -/
  | notify
  /-- `join.await` ends. -/
  | join
  deriving DecidableEq

/-- The capacity of `outbound`. -/
def outboundCapacity : ℕ := 64

/-- `spawn`. -/
def spawned : State where
  runtime := .opening
  generation := 0
  currentClient := none
  connections := []
  handles := []
  lookups := 0
  calls := []
  removal := .registered
  notified := false

namespace State

/-- `outbound.send(msg)`, `none` while it waits for room; the queue is gone when the task is. -/
def push (s : State) (client : ℕ) (msg : Outbound) : Option State :=
  match s.connections[client]? with
  | some c =>
    if c.ended then some s
    else if c.outbound.length < outboundCapacity then
      some { s with connections := s.connections.set client { c with outbound := c.outbound ++ [msg] } }
    else none
  | none => none

/-- The transport task of a client returns. -/
def endTask (s : State) (client : ℕ) (c : Connection) : State :=
  { s with connections := s.connections.set client { c with outbound := [], ended := true } }

/-- The client is gone for good, or will be when its task gets to the `Shutdown` in its queue. -/
def sealed (s : State) (client : ℕ) : Bool :=
  (s.connections[client]?).any fun c => c.ended || c.outbound.contains .shutdown

/-- The message of a checked call goes into the queue of its client. -/
def send (s : State) (i : ℕ) (call : Call) : Option State :=
  let pc : Calling :=
    if (s.connections[call.handle.client]?).any Connection.ended then .failed else .sent
  (s.push call.handle.client (.call i)).map fun s =>
    { s with calls := s.calls.set i { call with pc := pc } }

/-- The transport task takes the next message. -/
def transmit (s : State) (client : ℕ) (c : Connection) : Option State :=
  match c.outbound with
  | [] => none
  | .call i :: rest =>
    some { s with
      connections := s.connections.set client { c with outbound := rest, reached := c.reached ++ [i] } }
  | .other :: rest =>
    some { s with connections := s.connections.set client { c with outbound := rest } }
  | .shutdown :: _ => some (s.endTask client c)

/-- One step, `none` where the action is not enabled. -/
def step (s : State) : Act → Option State
  | .opened ok =>
    match s.runtime with
    | .opening =>
      some (if ok then
          { s with
            runtime := .handshaking s.connections.length
            connections := s.connections ++ [⟨[], false, []⟩] }
        else { s with runtime := .pausing })
    | _ => none
  | .handshake ok =>
    match s.runtime with
    | .handshaking client =>
      some (if ok then
          { s with
            runtime := .installed client
            generation := min (s.generation + 1) (UInt64.size - 1)
            currentClient := some client }
        else { s with runtime := .pausing })
    | _ => none
  | .connected =>
    match s.runtime with
    | .installed client => some { s with runtime := .connected client }
    | _ => none
  | .interrupt =>
    match s.runtime, s.notified with
    | .opening, true | .handshaking _, true | .installed _, true =>
      some { s with runtime := .returned, notified := false }
    | _, _ => none
  | .disconnected =>
    match s.runtime with
    | .connected _ => some { s with runtime := .tearingDown false }
    | _ => none
  | .stop =>
    match s.runtime, s.notified with
    | .connected _, true => some { s with runtime := .tearingDown true, notified := false }
    | _, _ => none
  | .take =>
    match s.runtime, s.currentClient with
    | .tearingDown stop, some client =>
      some { s with runtime := .closing client stop, currentClient := none }
    | .tearingDown stop, none => some { s with runtime := if stop then .returned else .pausing }
    | _, _ => none
  | .close =>
    match s.runtime with
    | .closing client stop =>
      (s.push client .shutdown).map fun s =>
        { s with runtime := if stop then .returned else .pausing }
    | _ => none
  | .resume =>
    match s.runtime with
    | .pausing => some { s with runtime := .opening }
    | _ => none
  | .stopPause =>
    match s.runtime, s.notified with
    | .pausing, true => some { s with runtime := .returned, notified := false }
    | _, _ => none
  | .lookup => if s.removal = .registered then some { s with lookups := s.lookups + 1 } else none
  | .issue =>
    match s.lookups, s.currentClient with
    | n + 1, some client =>
      some { s with lookups := n, handles := s.handles ++ [⟨s.generation, client⟩] }
    | n + 1, none => some { s with lookups := n }
    | 0, _ => none
  | .call h =>
    (s.handles[h]?).map fun handle =>
      { s with calls := s.calls ++ [⟨handle, .called, s.removal = .returned⟩] }
  | .check i =>
    match s.calls[i]? with
    | some ⟨handle, .called, late⟩ =>
      let pc : Calling := if handle.generation = s.generation then .checked else .refused
      some { s with calls := s.calls.set i ⟨handle, pc, late⟩ }
    | _ => none
  | .send i =>
    match s.calls[i]? with
    | some ⟨handle, .checked, late⟩ => s.send i ⟨handle, .checked, late⟩
    | _ => none
  | .sendOther client => s.push client .other
  | .transmit client => (s.connections[client]?).bind fun c => s.transmit client c
  | .lost client => (s.connections[client]?).map fun c => s.endTask client c
  | .remove => if s.removal = .registered then some { s with removal := .removed } else none
  | .notify =>
    if s.removal = .removed then some { s with removal := .joining, notified := true } else none
  | .join =>
    if s.removal = .joining ∧ s.runtime = .returned then some { s with removal := .returned } else none

/-- The shutdown does not interrupt a `connect_once` that has installed its client. -/
def Uninstalled (s : State) : Act → Prop
  | .interrupt => ∀ client, s.runtime ≠ .installed client
  | _ => True

instance (s : State) (a : Act) : Decidable (Uninstalled s a) :=
  match a with
  | .interrupt =>
    match h : s.runtime with
    | .installed client => isFalse fun hu => hu client h
    | .opening | .handshaking _ | .connected _ | .tearingDown _ | .closing _ _ | .pausing
    | .returned => isTrue fun client hc => by rw [h] at hc; cases hc
  | .opened _ | .handshake _ | .connected | .disconnected | .stop | .take | .close | .resume
  | .stopPause | .lookup | .issue | .call _ | .check _ | .send _ | .sendOther _ | .transmit _
  | .lost _ | .remove | .notify | .join => isTrue trivial

/-! ### The invariant -/

/-- The calls whose messages come before a `Shutdown`. -/
def ahead : List Outbound → List ℕ
  | [] => []
  | .call i :: rest => i :: ahead rest
  | .other :: rest => ahead rest
  | .shutdown :: _ => []

/-- The message of the call is or was in the queue. -/
def Mentions (c : Connection) (i : ℕ) : Prop := i ∈ c.reached ∨ .call i ∈ c.outbound

/-- It has reached the transport or will. -/
def Reaches (c : Connection) (i : ℕ) : Prop := i ∈ c.reached ∨ i ∈ ahead c.outbound

/-- The current client is that of the connection that the runtime is in. -/
def Current (runtime : Runtime) (currentClient : Option ℕ) : Prop :=
  match runtime with
  | .installed client | .connected client => currentClient = some client
  | .tearingDown _ => True
  | _ => currentClient = none

/-- A client that a handle may have is current, or is closing, or is sealed. -/
def Held (s : State) (client : ℕ) : Prop :=
  s.sealed client = true ∨ s.currentClient = some client ∨ ∃ stop, s.runtime = .closing client stop

structure Guarding (s : State) : Prop where
  current : Current s.runtime s.currentClient
  handles : ∀ h ∈ s.handles, Held s h.client
  calls : ∀ call ∈ s.calls, call.handle ∈ s.handles
  returned : s.removal = .returned → s.runtime = .returned
  known : ∀ c ∈ s.connections, ∀ i, Mentions c i → i < s.calls.length
  late : ∀ {i : ℕ} {call : Call}, s.calls[i]? = some call → call.late = true →
    s.removal = .returned ∧ ∀ c ∈ s.connections, ¬ Reaches c i

theorem guarding_spawned : Guarding spawned where
  current := rfl
  handles h hh := by cases hh
  calls call hc := by cases hc
  returned h := by cases h
  known c hc := by cases hc
  late h := by simp [spawned] at h

/-- Once `remove_host` has returned the clients of all handles are sealed. -/
theorem Guarding.sealed {s : State} (hi : Guarding s) (hreturned : s.removal = .returned) {h : Handle}
    (hh : h ∈ s.handles) : s.sealed h.client = true := by
  have hruntime := hi.returned hreturned
  have hcurrent := hi.current
  rw [hruntime] at hcurrent
  rcases hi.handles h hh with hsealed | hclient | ⟨stop, hclosing⟩
  · exact hsealed
  · change s.currentClient = none at hcurrent
    rw [hcurrent] at hclient
    cases hclient
  · rw [hruntime] at hclosing
    cases hclosing

/-! ### The runtime -/

/-- The runtime goes on. -/
theorem Guarding.of_runtime {s : State} (hi : Guarding s) {runtime : Runtime}
    {currentClient : Option ℕ} {generation : ℕ} {notified : Bool} (hbusy : s.runtime ≠ .returned)
    (hcurrent : Current runtime currentClient)
    (hheld : ∀ client, Held s client → s.sealed client = true ∨ currentClient = some client ∨
      ∃ stop, runtime = .closing client stop) :
    Guarding { s with
      runtime := runtime, currentClient := currentClient, generation := generation,
      notified := notified } where
  current := hcurrent
  handles h hh := hheld h.client (hi.handles h hh)
  calls := hi.calls
  returned h := absurd (hi.returned h) hbusy
  known := hi.known
  late := hi.late

/-- A step of the runtime while there is no current client. -/
theorem Guarding.without_client {s : State} (hi : Guarding s) {runtime : Runtime} {notified : Bool}
    (hbusy : s.runtime ≠ .returned) (hnone : s.currentClient = none)
    (hopen : ∀ client stop, s.runtime ≠ .closing client stop) (hcurrent : Current runtime none) :
    Guarding { s with runtime := runtime, notified := notified } := by
  refine hi.of_runtime hbusy (by rwa [hnone]) ?_
  rintro client (hsealed | hclient | ⟨stop, hclosing⟩)
  · exact .inl hsealed
  · rw [hnone] at hclient
    cases hclient
  · exact absurd hclosing (hopen client stop)

/-- A step of the runtime that keeps the current client. -/
theorem Guarding.with_client {s : State} (hi : Guarding s) {runtime : Runtime} {notified : Bool}
    (hbusy : s.runtime ≠ .returned) (hopen : ∀ client stop, s.runtime ≠ .closing client stop)
    (hcurrent : Current runtime s.currentClient) :
    Guarding { s with runtime := runtime, notified := notified } := by
  refine hi.of_runtime hbusy hcurrent ?_
  rintro client (hsealed | hclient | ⟨stop, hclosing⟩)
  · exact .inl hsealed
  · exact .inr (.inl hclient)
  · exact absurd hclosing (hopen client stop)

/-! ### Connections -/

theorem sealed_eq {s : State} {client : ℕ} {c : Connection} (hc : s.connections[client]? = some c) :
    s.sealed client = (c.ended || c.outbound.contains .shutdown) := by
  rw [State.sealed, hc]
  rfl

/-- The client whose transport task or queue changes. -/
theorem Guarding.of_connection {s : State} (hi : Guarding s) {client : ℕ} {c c' : Connection}
    (hc : s.connections[client]? = some c)
    (hsealed : (c.ended || c.outbound.contains .shutdown) = true →
      (c'.ended || c'.outbound.contains .shutdown) = true)
    (hknown : ∀ i, Mentions c' i → Mentions c i ∨ i < s.calls.length)
    (hlate : ∀ i, Reaches c' i → Reaches c i ∨ ∀ call, s.calls[i]? = some call → call.late = false) :
    Guarding { s with connections := s.connections.set client c' } where
  current := hi.current
  handles h hh := by
    rcases hi.handles h hh with hs | hrest
    · left
      by_cases hne : client = h.client
      · subst hne
        rw [sealed_eq hc] at hs
        rw [sealed_eq (getElem?_set_of_some hc c')]
        exact hsealed hs
      · rw [State.sealed, List.getElem?_set_ne hne]
        exact hs
    · exact .inr hrest
  calls := hi.calls
  returned := hi.returned
  known c₀ hmem i hm := by
    rcases List.mem_or_eq_of_mem_set hmem with hmem | rfl
    · exact hi.known c₀ hmem i hm
    · rcases hknown i hm with hm | hlt
      · exact hi.known c (List.mem_of_getElem? hc) i hm
      · exact hlt
  late {i call} hcall hl := by
    obtain ⟨hreturned, hnot⟩ := hi.late hcall hl
    refine ⟨hreturned, fun c₀ hmem hr => ?_⟩
    rcases List.mem_or_eq_of_mem_set hmem with hmem | rfl
    · exact hnot c₀ hmem hr
    · rcases hlate i hr with hr | hearly
      · exact hnot c (List.mem_of_getElem? hc) hr
      · rw [hearly call hcall] at hl
        cases hl

theorem ahead_concat {q : List Outbound} {msg : Outbound} {i : ℕ} (h : i ∈ ahead (q ++ [msg])) :
    i ∈ ahead q ∨ msg = .call i ∧ .shutdown ∉ q := by
  induction q with
  | nil =>
    cases msg with
    | call j =>
      cases List.mem_singleton.mp h
      exact .inr ⟨rfl, List.not_mem_nil⟩
    | other => cases h
    | shutdown => cases h
  | cons m q ih =>
    cases m with
    | call j =>
      rcases List.mem_cons.mp h with rfl | h
      · exact .inl List.mem_cons_self
      · rcases ih h with hq | ⟨hmsg, hnot⟩
        · exact .inl (List.mem_cons_of_mem _ hq)
        · exact .inr ⟨hmsg, by simpa using hnot⟩
    | other =>
      rcases ih h with hq | ⟨hmsg, hnot⟩
      · exact .inl hq
      · exact .inr ⟨hmsg, by simpa using hnot⟩
    | shutdown => cases h

/-- A message goes into a queue; that of a late call into one that is sealed. -/
theorem Guarding.push {s s' : State} (hi : Guarding s) {client : ℕ} {msg : Outbound}
    (hmsg : ∀ i, msg = .call i → i < s.calls.length ∧
      ((∃ call, s.calls[i]? = some call ∧ call.late = true) → s.sealed client = true))
    (hs : s.push client msg = some s') : Guarding s' := by
  unfold State.push at hs
  split at hs
  · next c hc =>
    split at hs
    · cases hs
      exact hi
    · next hended =>
      split at hs
      · cases hs
        refine hi.of_connection hc ?_ ?_ ?_
        · simp only [Bool.or_eq_true, List.contains_iff_mem, List.mem_append]
          rintro (h | h)
          · exact .inl h
          · exact .inr (.inl h)
        · rintro i (h | h)
          · exact .inl (.inl h)
          · rcases List.mem_append.mp h with h | h
            · exact .inl (.inr h)
            · exact .inr (hmsg i (List.mem_singleton.mp h).symm).1
        · rintro i (h | h)
          · exact .inl (.inl h)
          · rcases ahead_concat h with h | ⟨rfl, hnot⟩
            · exact .inl (.inr h)
            · right
              intro call hcall
              by_contra hl
              have hsealed := (hmsg i rfl).2 ⟨call, hcall, Bool.of_not_eq_false hl⟩
              rw [sealed_eq hc, Bool.or_eq_true, List.contains_iff_mem] at hsealed
              rcases hsealed with h | h
              · exact hended h
              · exact hnot h
      · cases hs
  · cases hs

theorem Guarding.endTask {s : State} (hi : Guarding s) {client : ℕ} {c : Connection}
    (hc : s.connections[client]? = some c) : Guarding (s.endTask client c) := by
  refine hi.of_connection hc (fun _ => rfl) ?_ ?_
  · rintro i (h | h)
    · exact .inl (.inl h)
    · cases h
  · rintro i (h | h)
    · exact .inl (.inl h)
    · cases h

theorem Guarding.transmit {s s' : State} (hi : Guarding s) {client : ℕ} {c : Connection}
    (hc : s.connections[client]? = some c) (hs : s.transmit client c = some s') : Guarding s' := by
  unfold State.transmit at hs
  split at hs
  · cases hs
  · next i rest hout =>
    cases hs
    refine hi.of_connection hc (by simp [hout]) ?_ ?_
    · rintro j (h | h)
      · rcases List.mem_append.mp h with h | h
        · exact .inl (.inl h)
        · cases List.mem_singleton.mp h
          exact .inl (.inr (by rw [hout]; exact List.mem_cons_self))
      · exact .inl (.inr (by rw [hout]; exact List.mem_cons_of_mem _ h))
    · rintro j (h | h)
      · rcases List.mem_append.mp h with h | h
        · exact .inl (.inl h)
        · cases List.mem_singleton.mp h
          exact .inl (.inr (by rw [hout]; exact List.mem_cons_self))
      · exact .inl (.inr (by rw [hout]; exact List.mem_cons_of_mem _ h))
  · next rest hout =>
    cases hs
    refine hi.of_connection hc (by simp [hout]) ?_ ?_
    · rintro j (h | h)
      · exact .inl (.inl h)
      · exact .inl (.inr (by rw [hout]; exact List.mem_cons_of_mem _ h))
    · rintro j (h | h)
      · exact .inl (.inl h)
      · exact .inl (.inr (by rw [hout]; exact h))
  · cases hs
    exact hi.endTask hc

/-! ### Handles and calls -/

/-- A call goes on. -/
theorem Guarding.of_call {s : State} (hi : Guarding s) {i : ℕ} {call : Call}
    (hc : s.calls[i]? = some call) (pc : Calling) :
    Guarding { s with calls := s.calls.set i { call with pc := pc } } where
  current := hi.current
  handles := hi.handles
  calls call' hmem := by
    rcases List.mem_or_eq_of_mem_set hmem with hmem | rfl
    · exact hi.calls call' hmem
    · exact hi.calls call (List.mem_of_getElem? hc)
  returned := hi.returned
  known c hmem j hm := by
    rw [List.length_set]
    exact hi.known c hmem j hm
  late hcall hl := by
    rcases getElem?_set_eq_some hcall with ⟨rfl, rfl⟩ | ⟨-, hcall⟩
    · exact hi.late hc hl
    · exact hi.late hcall hl

/-- A call is made. -/
theorem Guarding.newCall {s : State} (hi : Guarding s) {h : Handle} (hh : h ∈ s.handles) :
    Guarding { s with calls := s.calls ++ [⟨h, .called, s.removal = .returned⟩] } where
  current := hi.current
  handles := hi.handles
  calls call hmem := by
    rcases List.mem_append.mp hmem with hmem | hmem
    · exact hi.calls call hmem
    · cases List.mem_singleton.mp hmem
      exact hh
  returned := hi.returned
  known c hmem i hm := by
    have hlt := hi.known c hmem i hm
    rw [List.length_append]
    omega
  late {i call} hcall hl := by
    rcases getElem?_concat_eq_some hcall with ⟨rfl, rfl⟩ | hcall
    · refine ⟨of_decide_eq_true hl, fun c hmem hr => ?_⟩
      have hmentions : Mentions c s.calls.length := by
        rcases hr with hr | hr
        · exact .inl hr
        · right
          revert hr
          generalize c.outbound = q
          induction q with
          | nil => exact fun h => by cases h
          | cons m q ih =>
            cases m with
            | call j =>
              intro h
              rcases List.mem_cons.mp h with h | h
              · rw [h]
                exact List.mem_cons_self
              · exact List.mem_cons_of_mem _ (ih h)
            | other => exact fun h => List.mem_cons_of_mem _ (ih h)
            | shutdown => exact fun h => by cases h
      exact absurd (hi.known c hmem _ hmentions) (Nat.lt_irrefl _)
    · exact hi.late hcall hl

/-- A handle for the current client is issued. -/
theorem Guarding.newHandle {s : State} (hi : Guarding s) {lookups client : ℕ}
    (hc : s.currentClient = some client) :
    Guarding { s with lookups := lookups, handles := s.handles ++ [⟨s.generation, client⟩] } where
  current := hi.current
  handles h hmem := by
    rcases List.mem_append.mp hmem with hmem | hmem
    · exact hi.handles h hmem
    · cases List.mem_singleton.mp hmem
      exact .inr (.inl hc)
  calls call hmem := List.mem_append_left _ (hi.calls call hmem)
  returned := hi.returned
  known := hi.known
  late := hi.late

theorem Guarding.sendCall {s s' : State} (hi : Guarding s) {i : ℕ} {call : Call}
    (hc : s.calls[i]? = some call) (hs : s.send i call = some s') : Guarding s' := by
  obtain ⟨u, hu, rfl⟩ := Option.map_eq_some_iff.mp hs
  have hcalls : u.calls = s.calls := by
    unfold State.push at hu
    split at hu
    · split at hu
      · cases hu
        rfl
      · split at hu
        · cases hu
          rfl
        · cases hu
    · cases hu
  have hnext : Guarding u := by
    refine hi.push ?_ hu
    rintro j ⟨⟩
    refine ⟨(List.getElem?_eq_some_iff.mp hc).1, ?_⟩
    rintro ⟨call', hcall', hl⟩
    exact hi.sealed (hi.late hcall' hl).1 (hi.calls call (List.mem_of_getElem? hc))
  exact hnext.of_call (by rw [hcalls]; exact hc) _

/-! ### Runs -/

/-- `client.shutdown()` seals the client. -/
theorem guarding_close {s u : State} (hi : Guarding s) {client : ℕ} {stop : Bool} {runtime : Runtime}
    (hruntime : s.runtime = .closing client stop) (hu : s.push client .shutdown = some u)
    (hnext : runtime = .returned ∨ runtime = .pausing) : Guarding { u with runtime := runtime } := by
  have hpushed := hi.push (by simp) hu
  have hkept : u.runtime = s.runtime ∧ u.currentClient = s.currentClient ∧ u.sealed client = true := by
    unfold State.push at hu
    split at hu
    · next c hc =>
      split at hu
      · next hended =>
        cases hu
        exact ⟨rfl, rfl, by rw [sealed_eq hc, hended, Bool.true_or]⟩
      · split at hu
        · cases hu
          refine ⟨rfl, rfl, ?_⟩
          rw [sealed_eq (getElem?_set_of_some hc _)]
          simp
        · cases hu
    · cases hu
  obtain ⟨hsame, hclient, hsealed⟩ := hkept
  rw [hruntime] at hsame
  have hnone : u.currentClient = none := by
    have hcurrent := hpushed.current
    rw [hsame] at hcurrent
    exact hcurrent
  have hbusy : u.runtime ≠ .returned := by
    rw [hsame]
    simp
  refine hpushed.of_runtime hbusy ?_ ?_
  · rw [hnone]
    rcases hnext with rfl | rfl
    · exact rfl
    · exact rfl
  · rintro client' (hs | hs | ⟨stop', hs⟩)
    · exact .inl hs
    · exact .inr (.inl hs)
    · rw [hsame] at hs
      cases hs
      exact .inl hsealed

/-- `Client::connect`. -/
theorem Guarding.newConnection {s : State} (hi : Guarding s) :
    Guarding { s with connections := s.connections ++ [⟨[], false, []⟩] } where
  current := hi.current
  handles h hh := by
    rcases hi.handles h hh with hs | hrest
    · left
      obtain ⟨c, hc, hseal⟩ := (Option.any_eq_true _ _).mp hs
      rw [sealed_eq (getElem?_concat_of_some hc _)]
      exact hseal
    · exact .inr hrest
  calls := hi.calls
  returned := hi.returned
  known c hmem i hm := by
    rcases List.mem_append.mp hmem with hmem | hmem
    · exact hi.known c hmem i hm
    · cases List.mem_singleton.mp hmem
      rcases hm with hm | hm <;> cases hm
  late hcall hl := by
    obtain ⟨hreturned, hnot⟩ := hi.late hcall hl
    refine ⟨hreturned, fun c hmem hr => ?_⟩
    rcases List.mem_append.mp hmem with hmem | hmem
    · exact hnot c hmem hr
    · cases List.mem_singleton.mp hmem
      rcases hr with hr | hr <;> cases hr

/-- `remove_host` goes on. -/
theorem Guarding.of_removal {s : State} (hi : Guarding s) {removal : Removal} {notified : Bool}
    (hbefore : s.removal ≠ .returned) (hreturned : removal = .returned → s.runtime = .returned) :
    Guarding { s with removal := removal, notified := notified } where
  current := hi.current
  handles := hi.handles
  calls := hi.calls
  returned := hreturned
  known := hi.known
  late hcall hl := absurd (hi.late hcall hl).1 hbefore

theorem guarding_step {s s' : State} {a : Act} (hi : Guarding s) (hg : Uninstalled s a)
    (hs : s.step a = some s') : Guarding s' := by
  have hcurrent := hi.current
  cases a with
  | opened ok =>
    simp only [step] at hs
    split at hs
    · next hruntime =>
      rw [hruntime] at hcurrent
      cases ok with
      | true =>
        cases hs
        have hnew := hi.newConnection
        exact hnew.without_client (by simp [hruntime]) hcurrent (by simp [hruntime]) rfl
      | false =>
        cases hs
        exact hi.without_client (by simp [hruntime]) hcurrent (by simp [hruntime]) rfl
    · cases hs
  | handshake ok =>
    simp only [step] at hs
    split at hs
    · next client hruntime =>
      rw [hruntime] at hcurrent
      cases ok with
      | true =>
        cases hs
        refine hi.of_runtime (by simp [hruntime]) rfl ?_
        rintro client' (hsealed | hclient | ⟨stop, hclosing⟩)
        · exact .inl hsealed
        · change s.currentClient = none at hcurrent
          rw [hcurrent] at hclient
          cases hclient
        · rw [hruntime] at hclosing
          cases hclosing
      | false =>
        cases hs
        exact hi.without_client (by simp [hruntime]) hcurrent (by simp [hruntime]) rfl
    · cases hs
  | connected =>
    simp only [step] at hs
    split at hs
    · next client hruntime =>
      rw [hruntime] at hcurrent
      cases hs
      exact hi.with_client (by simp [hruntime]) (by simp [hruntime]) hcurrent
    · cases hs
  | interrupt =>
    simp only [step] at hs
    split at hs
    · next hruntime _ =>
      rw [hruntime] at hcurrent
      cases hs
      exact hi.without_client (by simp [hruntime]) hcurrent (by simp [hruntime]) rfl
    · next hruntime _ =>
      rw [hruntime] at hcurrent
      cases hs
      exact hi.without_client (by simp [hruntime]) hcurrent (by simp [hruntime]) rfl
    · next client hruntime _ => exact absurd hruntime (hg client)
    · cases hs
  | disconnected =>
    simp only [step] at hs
    split at hs
    · next client hruntime =>
      cases hs
      exact hi.with_client (by simp [hruntime]) (by simp [hruntime]) trivial
    · cases hs
  | stop =>
    simp only [step] at hs
    split at hs
    · next client hruntime _ =>
      cases hs
      exact hi.with_client (by simp [hruntime]) (by simp [hruntime]) trivial
    · cases hs
  | take =>
    simp only [step] at hs
    split at hs
    · next stop client hruntime hclient =>
      cases hs
      refine hi.of_runtime (by simp [hruntime]) rfl ?_
      rintro client' (hsealed | hclient' | ⟨stop', hclosing⟩)
      · exact .inl hsealed
      · rw [hclient, Option.some.injEq] at hclient'
        exact .inr (.inr ⟨stop, by rw [hclient']⟩)
      · rw [hruntime] at hclosing
        cases hclosing
    · next stop hruntime hnone =>
      cases hs
      exact hi.without_client (by simp [hruntime]) hnone (by simp [hruntime]) (by cases stop <;> rfl)
    · cases hs
  | close =>
    simp only [step] at hs
    split at hs
    · next client stop hruntime =>
      obtain ⟨u, hu, rfl⟩ := Option.map_eq_some_iff.mp hs
      exact guarding_close hi hruntime hu (by cases stop <;> simp)
    · cases hs
  | resume =>
    simp only [step] at hs
    split at hs
    · next hruntime =>
      rw [hruntime] at hcurrent
      cases hs
      exact hi.without_client (by simp [hruntime]) hcurrent (by simp [hruntime]) rfl
    · cases hs
  | stopPause =>
    simp only [step] at hs
    split at hs
    · next hruntime _ =>
      rw [hruntime] at hcurrent
      cases hs
      exact hi.without_client (by simp [hruntime]) hcurrent (by simp [hruntime]) rfl
    · cases hs
  | lookup =>
    simp only [step] at hs
    split at hs
    · cases hs
      exact ⟨hi.current, hi.handles, hi.calls, hi.returned, hi.known, hi.late⟩
    · cases hs
  | issue =>
    simp only [step] at hs
    split at hs
    · next hclient =>
      cases hs
      exact hi.newHandle hclient
    · cases hs
      exact ⟨hi.current, hi.handles, hi.calls, hi.returned, hi.known, hi.late⟩
    · cases hs
  | call h =>
    obtain ⟨handle, hh, rfl⟩ := Option.map_eq_some_iff.mp hs
    exact hi.newCall (List.mem_of_getElem? hh)
  | check i =>
    simp only [step] at hs
    split at hs
    · next hc =>
      cases hs
      exact hi.of_call hc _
    · cases hs
  | send i =>
    simp only [step] at hs
    split at hs
    · next hc => exact hi.sendCall hc hs
    · cases hs
  | sendOther client => exact hi.push (by simp) hs
  | transmit client =>
    obtain ⟨c, hc, hs⟩ := Option.bind_eq_some_iff.mp hs
    exact hi.transmit hc hs
  | lost client =>
    obtain ⟨c, hc, rfl⟩ := Option.map_eq_some_iff.mp hs
    exact hi.endTask hc
  | remove =>
    simp only [step] at hs
    split at hs
    · next hregistered =>
      cases hs
      exact hi.of_removal (by simp [hregistered]) (by simp)
    · cases hs
  | notify =>
    simp only [step] at hs
    split at hs
    · next hremoved =>
      cases hs
      exact hi.of_removal (by simp [hremoved]) (by simp)
    · cases hs
  | join =>
    simp only [step] at hs
    split at hs
    · next hjoining =>
      cases hs
      exact hi.of_removal (by simp [hjoining.1]) fun _ => hjoining.2
    · cases hs

/-- Once `remove_host` has returned the shared state has no current client, and no message of a
call made on a handle since then has reached a transport, when the shutdown did not interrupt a
`connect_once` that had installed its client. -/
theorem removed_of_uninstalled (actions : List Act) (s : State)
    (hg : Guarded step Uninstalled spawned actions) (hr : runs step spawned actions = some s)
    (hreturned : s.removal = .returned) :
    s.currentClient = none ∧ ∀ i call, s.calls[i]? = some call → call.late = true →
      ∀ c ∈ s.connections, i ∉ c.reached := by
  have hi : Guarding s := runs_invariant step guarding_step guarding_spawned hg hr
  constructor
  · have hcurrent := hi.current
    rw [hi.returned hreturned] at hcurrent
    exact hcurrent
  · intro i call hcall hl c hc hreached
    exact (hi.late hcall hl).2 c hc (.inl hreached)

/-- The host is connected and a handle issued. -/
def issued : List Act := [.opened true, .handshake true, .lookup, .issue]

/-- The host is removed while it is connected, and a message of the handle comes too late. -/
theorem removed_of_uninstalled_connected :
    ∃ s : State, s.calls.map Call.pc = [.sent] ∧ s.currentClient = none ∧
      ∀ i call, s.calls[i]? = some call → call.late = true → ∀ c ∈ s.connections, i ∉ c.reached := by
  let actions := issued ++
    [.connected, .remove, .notify, .stop, .take, .close, .join, .call 0, .check 0, .send 0, .transmit 0]
  have hview : (runs step spawned actions).map (fun s => (s.removal, s.calls.map Call.pc)) =
      some (.returned, [.sent]) := by decide
  obtain ⟨s, hr, hview⟩ := Option.map_eq_some_iff.mp hview
  obtain ⟨hremoval, hpcs⟩ := Prod.mk.inj hview
  have hg : Guarded step Uninstalled spawned actions := by decide
  exact ⟨s, hpcs, removed_of_uninstalled actions s hg hr hremoval⟩

/-- The shutdown interrupts `connect_once` after it has installed the client: the client stays,
and the handle goes on sending through it. -/
theorem client_survives_removal :
    ¬ ∀ (actions : List Act) (s : State), runs step spawned actions = some s →
      s.removal = .returned → s.currentClient = none ∧
        ∀ i call, s.calls[i]? = some call → call.late = true → ∀ c ∈ s.connections, i ∉ c.reached := by
  intro h
  let actions := issued ++
    [.remove, .notify, .interrupt, .join, .call 0, .check 0, .send 0, .transmit 0]
  have hview : (runs step spawned actions).map
      (fun s => (s.removal, s.calls, s.connections)) =
      some (.returned, [⟨⟨1, 0⟩, .sent, true⟩], [⟨[], false, [0]⟩]) := by decide
  obtain ⟨s, hr, hview⟩ := Option.map_eq_some_iff.mp hview
  obtain ⟨hremoval, hrest⟩ := Prod.mk.inj hview
  obtain ⟨hcalls, hconnections⟩ := Prod.mk.inj hrest
  have hnot := (h actions s hr hremoval).2 0 ⟨⟨1, 0⟩, .sent, true⟩ (by rw [hcalls]; rfl) rfl
    ⟨[], false, [0]⟩ (by rw [hconnections]; exact List.mem_cons_self)
  exact hnot List.mem_cons_self

end State

end AgentHostProtocol.Rust.Hosts
