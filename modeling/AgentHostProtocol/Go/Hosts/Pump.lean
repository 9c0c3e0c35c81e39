import AgentHostProtocol.Library.Lists
import AgentHostProtocol.Library.Runs
import Mathlib.Data.Nat.Notation

/-!
# Events of one connection of the Go multi-host client

The goroutine `runReader` of a client, the `openHost` that waits for the initialize response,
and the goroutine `pumpEvents` that `openHost` starts. `fanOut` looks at the listeners of the
moment; `pumpEvents` is one of them from its call of `client.Events()` on.

* `forwarded_iff_listening` — a channel of `Subscriptions()` gets all events that the server
  sends after its response, once and in order, exactly if the reader dispatched none of them
  before `pumpEvents` listened.
-/

namespace AgentHostProtocol.Go.Hosts.Connection

open Library

/-- Where `runReader` is. -/
inductive Reader (E : Type) where
  /-- In `Recv`. -/
  | receiving
  /-- In `fanOut`, which found the listener of `pumpEvents`. -/
  | sending (event : E)
  deriving DecidableEq

/-- Where `pumpEvents` is. -/
inductive Pump (E : Type) where
  | notStarted
  /-- Before `client.Events()`. -/
  | started
  /-- In `range stream.Events()`. -/
  | listening
  /-- Before it copies `m.subs`. -/
  | received (event : E)
  /-- It sends to the channels that are left. -/
  | forwarding (event : E) (left : List ℕ)
  deriving DecidableEq

/-- A channel of `Subscriptions()`. -/
structure Channel (E : Type) where
  /-- How many events it holds. -/
  buffered : ℕ
  /-- The events of this connection that were ever put in. -/
  forwarded : List E
  deriving DecidableEq

/-- A connection with the channels of the multi-host client. -/
structure State (E : Type) where
  reader : Reader E
  pump : Pump E
  /-- The initialize response was dispatched. -/
  responded : Bool
  /-- The buffer of the listener. -/
  stream : List E
  subs : List (Channel E)
  /-- What the server sent after the response. -/
  sent : List E
  /-- An event was dropped at a full buffer. -/
  overflowed : Bool
  deriving DecidableEq

inductive Act (E : Type) where
  /-- The reader dispatches the initialize response. -/
  | response
  /-- The reader dispatches an action or a notification. -/
  | event (event : E)
  /-- It sends to the listener. -/
  | trySend
  /-- `openHost` installs the client and starts `pumpEvents`. -/
  | opened
  /-- `client.Events()`. -/
  | listen
  /-- `pumpEvents` takes an event from the listener's channel. -/
  | receive
  /-- It copies `m.subs`. -/
  | copy
  /-- It sends to the next channel. -/
  | forward
  /-- `Subscriptions()`. -/
  | subscribe
  /-- An application receives from a channel. -/
  | consume (channel : ℕ)
  /-- Another connection sends to a channel. -/
  | other (channel : ℕ)
  deriving DecidableEq

variable {E : Type}

/-- The capacity of the channels of `Subscriptions()`. -/
def subsCapacity : ℕ := 256

/-- The connection before `openHost`, with `n` channels. -/
def new (n : ℕ) : State E where
  reader := .receiving
  pump := .notStarted
  responded := false
  stream := []
  subs := List.replicate n ⟨0, []⟩
  sent := []
  overflowed := false

namespace Pump

/-- The listener is registered. -/
def registered : Pump E → Bool
  | .notStarted | .started => false
  | _ => true

/-- The loop over the channels that are left. -/
def forwardTo (event : E) : List ℕ → Pump E
  | [] => .listening
  | left => .forwarding event left

end Pump

/-- The non-blocking send of `pumpEvents` to channel `i`. -/
def State.sendTo (s : State E) (event : E) (i : ℕ) : State E :=
  match s.subs[i]? with
  | some ch =>
    if ch.buffered < subsCapacity then
      { s with subs := s.subs.set i ⟨ch.buffered + 1, ch.forwarded ++ [event]⟩ }
    else { s with overflowed := true }
  | none => s

/-- One step, `none` where the action is not enabled; a listener has room for `capacity` events. -/
def step (capacity : ℕ) (s : State E) : Act E → Option (State E)
  | .response => if s.responded then none else some { s with responded := true }
  | .event e =>
    match s.reader with
    | .receiving =>
      some { s with
        reader := if s.pump.registered then .sending e else .receiving
        sent := if s.responded then s.sent ++ [e] else s.sent }
    | .sending _ => none
  | .trySend =>
    match s.reader with
    | .sending e =>
      some (if s.stream.length < capacity then { s with reader := .receiving, stream := s.stream ++ [e] }
        else { s with reader := .receiving, overflowed := true })
    | .receiving => none
  | .opened =>
    match s.pump, s.responded with
    | .notStarted, true => some { s with pump := .started }
    | _, _ => none
  | .listen =>
    match s.pump with
    | .started => some { s with pump := .listening }
    | _ => none
  | .receive =>
    match s.pump, s.stream with
    | .listening, e :: stream => some { s with pump := .received e, stream := stream }
    | _, _ => none
  | .copy =>
    match s.pump with
    | .received e => some { s with pump := .forwardTo e (List.range s.subs.length) }
    | _ => none
  | .forward =>
    match s.pump with
    | .forwarding e (i :: left) => some { s.sendTo e i with pump := .forwardTo e left }
    | _ => none
  | .subscribe => some { s with subs := s.subs ++ [⟨0, []⟩] }
  | .consume i =>
    match s.subs[i]? with
    | some ch =>
      if ch.buffered = 0 then none
      else some { s with subs := s.subs.set i { ch with buffered := ch.buffered - 1 } }
    | none => none
  | .other i =>
    match s.subs[i]? with
    | some ch =>
      if ch.buffered < subsCapacity then
        some { s with subs := s.subs.set i { ch with buffered := ch.buffered + 1 } }
      else none
    | none => none

/-! ### What is claimed -/

/-- The events of the connection that channel `i` got. -/
def State.forwarded (s : State E) (i : ℕ) : List E := ((s.subs[i]?).map Channel.forwarded).getD []

/-- The goroutines have nothing left to do with the events that were sent. -/
def State.quiet (s : State E) : Prop := s.reader = .receiving ∧ s.stream = [] ∧ ∀ e left,
  s.pump ≠ .received e ∧ s.pump ≠ .forwarding e left

/-- An event that the server sends after its response finds the listener registered. -/
def Listening (s : State E) : Act E → Prop
  | .event _ => s.responded = true → s.pump.registered = true
  | _ => True

instance (s : State E) : ∀ a, Decidable (Listening s a)
  | .event _ => inferInstanceAs (Decidable (s.responded = true → s.pump.registered = true))
  | .response | .trySend | .opened | .listen | .receive | .copy | .forward | .subscribe
  | .consume _ | .other _ => inferInstanceAs (Decidable True)

/-! ### Where the events are -/

/-- What `pumpEvents` has taken and not yet sent to channel `i`. -/
def Pump.holds (i : ℕ) : Pump E → List E
  | .received e => [e]
  | .forwarding e left => if i ∈ left then [e] else []
  | _ => []

/-- What the reader has dispatched and not yet sent. -/
def Reader.holds : Reader E → List E
  | .receiving => []
  | .sending e => [e]

/-- What is on its way to channel `i`. -/
def State.onTheWay (s : State E) (i : ℕ) : List E := s.pump.holds i ++ s.stream ++ s.reader.holds

/-- The events that were sent are those that were missed, those that channel `i` got, and those
on the way to it. -/
structure Accounted (i : ℕ) (missed : List E) (s : State E) : Prop where
  sent : s.sent = missed ++ s.forwarded i ++ s.onTheWay i
  channel : i < s.subs.length
  /-- Nothing gets anywhere before `pumpEvents` listens. -/
  unregistered : s.pump.registered = false →
    s.reader = .receiving ∧ s.stream = [] ∧ s.forwarded i = []
  /-- `openHost` waits for the response. -/
  unresponded : s.responded = false → s.pump = .notStarted
  /-- The loop visits each channel once. -/
  left : ∀ {e : E} {left : List ℕ}, s.pump = .forwarding e left → left.Nodup

theorem accounted_new {i n : ℕ} (hi : i < n) : Accounted i [] (new n : State E) where
  sent := by simp [new, State.forwarded, State.onTheWay, Pump.holds, Reader.holds, hi]
  channel := by simpa [new] using hi
  unregistered _ := ⟨rfl, rfl, by simp [new, State.forwarded, hi]⟩
  unresponded _ := rfl
  left h := by cases h

@[simp] theorem Pump.registered_forwardTo (e : E) (left : List ℕ) :
    (Pump.forwardTo e left).registered = true := by
  cases left <;> rfl

theorem Pump.holds_forwardTo (i : ℕ) (e : E) (left : List ℕ) :
    (Pump.forwardTo e left).holds i = if i ∈ left then [e] else [] := by
  cases left with
  | nil => rfl
  | cons j left => rfl

theorem Pump.left_of_forwardTo {e e' : E} {left left' : List ℕ}
    (h : Pump.forwardTo e left = .forwarding e' left') : left' = left := by
  cases left with
  | nil => cases h
  | cons j left =>
    cases h
    rfl

/-- The channel after a write to the list of channels. -/
theorem forwarded_set {s : State E} {i j : ℕ} {ch ch' : Channel E} (hj : s.subs[j]? = some ch)
    (hsame : ch'.forwarded = ch.forwarded) :
    State.forwarded { s with subs := s.subs.set j ch' } i = s.forwarded i := by
  unfold State.forwarded
  by_cases hij : j = i
  · subst hij
    rw [getElem?_set_of_some hj, hj]
    simp [hsame]
  · rw [List.getElem?_set_ne hij]

/-- A step that leaves alone what is accounted for. -/
theorem Accounted.of_eq {i : ℕ} {missed : List E} {s s' : State E} (ha : Accounted i missed s)
    (hsent : s'.sent = s.sent) (hforwarded : s'.forwarded i = s.forwarded i)
    (hpump : s'.pump = s.pump) (hstream : s'.stream = s.stream) (hreader : s'.reader = s.reader)
    (hlength : s.subs.length ≤ s'.subs.length) (hresponded : s'.responded = false → s.responded = false) :
    Accounted i missed s' where
  sent := by
    rw [hsent, hforwarded, State.onTheWay, hpump, hstream, hreader]
    exact ha.sent
  channel := Nat.lt_of_lt_of_le ha.channel hlength
  unregistered h := by
    rw [hpump] at h
    rw [hreader, hstream, hforwarded]
    exact ha.unregistered h
  unresponded h := by
    rw [hpump]
    exact ha.unresponded (hresponded h)
  left h := by
    rw [hpump] at h
    exact ha.left h

/-- The send to channel `i`, which was not full. -/
theorem sendTo_self {s : State E} {e : E} {i : ℕ} (hi : i < s.subs.length)
    (hfits : (s.sendTo e i).overflowed = false) :
    State.forwarded (s.sendTo e i) i = s.forwarded i ++ [e] := by
  have hget : s.subs[i]? = some s.subs[i] := List.getElem?_eq_getElem hi
  unfold State.sendTo at hfits ⊢
  rw [hget] at hfits ⊢
  dsimp only at hfits ⊢
  split at hfits
  · next hroom =>
    rw [if_pos hroom]
    unfold State.forwarded
    rw [getElem?_set_of_some hget, hget]
    rfl
  · cases hfits

theorem sendTo_ne {s : State E} {e : E} {i j : ℕ} (hij : j ≠ i) :
    State.forwarded (s.sendTo e j) i = s.forwarded i := by
  unfold State.sendTo
  split
  · split
    · unfold State.forwarded
      rw [List.getElem?_set_ne hij]
    · rfl
  · rfl

theorem sendTo_rest (s : State E) (e : E) (j : ℕ) :
    (s.sendTo e j).sent = s.sent ∧ (s.sendTo e j).stream = s.stream ∧
      (s.sendTo e j).reader = s.reader ∧ (s.sendTo e j).responded = s.responded ∧
      (s.sendTo e j).subs.length = s.subs.length ∧
      (s.overflowed = true → (s.sendTo e j).overflowed = true) := by
  unfold State.sendTo
  split
  · split
    · exact ⟨rfl, rfl, rfl, rfl, List.length_set, id⟩
    · exact ⟨rfl, rfl, rfl, rfl, rfl, fun _ => rfl⟩
  · exact ⟨rfl, rfl, rfl, rfl, rfl, id⟩

theorem accounted_event {i capacity : ℕ} {missed : List E} {s s' : State E} {e : E}
    (ha : Accounted i missed s) (hs : step capacity s (.event e) = some s') :
    ∃ more, Accounted i (missed ++ more) s' ∧ (more = [] ↔ Listening s (.event e)) := by
  simp only [step] at hs
  split at hs
  · next hreader =>
    cases hs
    by_cases hresponded : s.responded = true
    · by_cases hregistered : s.pump.registered = true
      · refine ⟨[], ⟨?_, ha.channel, fun h => ?_, ha.unresponded, ha.left⟩, by simp [Listening, hregistered]⟩
        · have hsent := ha.sent
          simp only [State.onTheWay, hreader, Reader.holds, List.append_nil] at hsent
          simp [State.onTheWay, State.forwarded, Reader.holds, hresponded, hregistered, hsent]
        · change s.pump.registered = false at h
          rw [hregistered] at h
          cases h
      · have hunregistered := Bool.eq_false_iff.mpr hregistered
        obtain ⟨hreader, hstream, hforwarded⟩ := ha.unregistered hunregistered
        have hholds : s.pump.holds i = [] := by
          cases hp : s.pump <;> rw [hp] at hunregistered <;> first | rfl | cases hunregistered
        refine ⟨[e], ⟨?_, ha.channel, fun _ => ⟨?_, hstream, hforwarded⟩, ha.unresponded, ha.left⟩, ?_⟩
        · have hsent := ha.sent
          simp only [State.onTheWay, hreader, hstream, hforwarded, hholds, Reader.holds,
            List.append_nil] at hsent
          change (if s.responded then s.sent ++ [e] else s.sent) =
            missed ++ [e] ++ s.forwarded i ++ (s.pump.holds i ++ s.stream ++ Reader.holds _)
          simp [hresponded, hregistered, hforwarded, hholds, hstream, hsent, Reader.holds]
        · simp [hregistered]
        · simp [Listening, hresponded, hregistered]
    · have hunresponded := Bool.eq_false_iff.mpr hresponded
      have hpump := ha.unresponded hunresponded
      refine ⟨[], ⟨?_, ha.channel, fun h => ?_, ha.unresponded, ha.left⟩, by simp [Listening, hresponded]⟩
      · have hsent := ha.sent
        simp only [State.onTheWay, hreader, Reader.holds, List.append_nil] at hsent
        simp [State.onTheWay, State.forwarded, Reader.holds, Pump.registered, hresponded, hpump, hsent]
      · obtain ⟨-, hstream, hforwarded⟩ := ha.unregistered h
        exact ⟨by simp [hpump, Pump.registered], hstream, hforwarded⟩
  · cases hs

theorem accounted_step {i capacity : ℕ} {missed : List E} {s s' : State E} {a : Act E}
    (ha : Accounted i missed s) (hs : step capacity s a = some s') (hfits : s'.overflowed = false) :
    ∃ more, Accounted i (missed ++ more) s' ∧ (more = [] ↔ Listening s a) := by
  -- the reader alone can miss an event
  have hnone : Accounted i missed s' → Listening s a →
      ∃ more, Accounted i (missed ++ more) s' ∧ (more = [] ↔ Listening s a) := by
    intro h hl
    exact ⟨[], by simpa using h, by simp [hl]⟩
  cases a with
  | event e => exact accounted_event ha hs
  | response =>
    refine hnone ?_ trivial
    simp only [step] at hs
    split at hs
    · cases hs
    · cases hs
      exact ha.of_eq rfl rfl rfl rfl rfl (Nat.le_refl _) (by simp)
  | trySend =>
    refine hnone ?_ trivial
    simp only [step] at hs
    split at hs
    · next e hreader =>
      cases hs
      split at hfits
      · next hroom =>
        rw [if_pos hroom]
        refine ⟨?_, ha.channel, fun h => ?_, ha.unresponded, ha.left⟩
        · have hsent := ha.sent
          simp only [State.onTheWay, hreader, Reader.holds] at hsent
          change s.sent = missed ++ s.forwarded i ++ (s.pump.holds i ++ (s.stream ++ [e]) ++ [])
          rw [hsent]
          simp
        · have hreceiving := (ha.unregistered h).1
          rw [hreader] at hreceiving
          cases hreceiving
      · cases hfits
    · cases hs
  | opened =>
    refine hnone ?_ trivial
    simp only [step] at hs
    split at hs
    · next hpump hresponded =>
      cases hs
      refine ⟨?_, ha.channel, fun _ => ha.unregistered (by rw [hpump]; rfl), fun h => ?_, fun h => ?_⟩
      · have hsent := ha.sent
        rw [State.onTheWay, hpump] at hsent
        exact hsent
      · change s.responded = false at h
        rw [hresponded] at h
        cases h
      · cases h
    · cases hs
  | listen =>
    refine hnone ?_ trivial
    simp only [step] at hs
    split at hs
    · next hpump =>
      cases hs
      refine ⟨?_, ha.channel, fun h => (by cases h), fun h => ?_, fun h => (by cases h)⟩
      · have hsent := ha.sent
        rw [State.onTheWay, hpump] at hsent
        exact hsent
      · have hnot := ha.unresponded h
        rw [hpump] at hnot
        cases hnot
    · cases hs
  | receive =>
    refine hnone ?_ trivial
    simp only [step] at hs
    split at hs
    · next e stream hpump hstream =>
      cases hs
      refine ⟨?_, ha.channel, fun h => (by cases h), fun h => ?_, fun h => (by cases h)⟩
      · have hsent := ha.sent
        rw [State.onTheWay, hpump, hstream] at hsent
        exact hsent
      · have hnot := ha.unresponded h
        rw [hpump] at hnot
        cases hnot
    · cases hs
  | copy =>
    refine hnone ?_ trivial
    simp only [step] at hs
    split at hs
    · next e hpump =>
      cases hs
      refine ⟨?_, ha.channel, fun h => ?_, fun h => ?_, fun h => ?_⟩
      · have hsent := ha.sent
        rw [State.onTheWay, hpump] at hsent
        change s.sent = missed ++ s.forwarded i ++ ((Pump.forwardTo e _).holds i ++ s.stream ++ _)
        rw [Pump.holds_forwardTo, if_pos (List.mem_range.mpr ha.channel)]
        exact hsent
      · change (Pump.forwardTo e _).registered = false at h
        rw [Pump.registered_forwardTo] at h
        cases h
      · have hnot := ha.unresponded h
        rw [hpump] at hnot
        cases hnot
      · rw [Pump.left_of_forwardTo h]
        exact List.nodup_range
    · cases hs
  | forward =>
    refine hnone ?_ trivial
    simp only [step] at hs
    split at hs
    · next e j left hpump =>
      cases hs
      obtain ⟨hsent', hstream', hreader', hresponded', hlength', -⟩ := sendTo_rest s e j
      have hnodup := List.nodup_cons.mp (ha.left hpump)
      refine ⟨?_, ?_, fun h => ?_, fun h => ?_, fun h => ?_⟩
      · have hsent := ha.sent
        rw [State.onTheWay, hpump] at hsent
        change (s.sendTo e j).sent = missed ++ (s.sendTo e j).forwarded i ++
          ((Pump.forwardTo e left).holds i ++ (s.sendTo e j).stream ++ (s.sendTo e j).reader.holds)
        rw [hsent', hstream', hreader', hsent, Pump.holds_forwardTo]
        by_cases hij : j = i
        · subst hij
          rw [sendTo_self ha.channel hfits, if_neg hnodup.1]
          simp [Pump.holds]
        · rw [sendTo_ne hij]
          simp [Pump.holds, Ne.symm hij]
      · change i < (s.sendTo e j).subs.length
        rw [hlength']
        exact ha.channel
      · change (Pump.forwardTo e left).registered = false at h
        rw [Pump.registered_forwardTo] at h
        cases h
      · change (s.sendTo e j).responded = false at h
        rw [hresponded'] at h
        have hnot := ha.unresponded h
        rw [hpump] at hnot
        cases hnot
      · rw [Pump.left_of_forwardTo h]
        exact hnodup.2
    · cases hs
  | subscribe =>
    refine hnone ?_ trivial
    cases hs
    refine ha.of_eq rfl ?_ rfl rfl rfl (by simp) id
    unfold State.forwarded
    rw [List.getElem?_append_left ha.channel]
  | consume j =>
    refine hnone ?_ trivial
    simp only [step] at hs
    split at hs
    · next ch hj =>
      split at hs
      · cases hs
      · cases hs
        exact ha.of_eq rfl (forwarded_set hj rfl) rfl rfl rfl (by simp) id
    · cases hs
  | other j =>
    refine hnone ?_ trivial
    simp only [step] at hs
    split at hs
    · next ch hj =>
      split at hs
      · cases hs
        exact ha.of_eq rfl (forwarded_set hj rfl) rfl rfl rfl (by simp) id
      · cases hs
    · cases hs

/-- What was dropped stays dropped. -/
theorem overflowed_step {capacity : ℕ} {s s' : State E} {a : Act E} (hs : step capacity s a = some s')
    (ho : s.overflowed = true) : s'.overflowed = true := by
  cases a with
  | forward =>
    simp only [step] at hs
    split at hs
    · next e j left hpump =>
      cases hs
      exact (sendTo_rest s e j).2.2.2.2.2 ho
    · cases hs
  | trySend =>
    simp only [step] at hs
    split at hs
    · cases hs
      split
      · exact ho
      · rfl
    · cases hs
  | subscribe =>
    cases hs
    exact ho
  | consume j =>
    simp only [step] at hs
    split at hs
    · split at hs
      · cases hs
      · cases hs
        exact ho
    · cases hs
  | other j =>
    simp only [step] at hs
    split at hs
    · split at hs
      · cases hs
        exact ho
      · cases hs
    · cases hs
  | response =>
    simp only [step] at hs
    split at hs
    · cases hs
    · cases hs
      exact ho
  | _ =>
    simp only [step] at hs
    split at hs
    · cases hs
      exact ho
    · cases hs

theorem accounted_runs {i capacity : ℕ} {missed : List E} {s s' : State E} {actions : List (Act E)}
    (ha : Accounted i missed s) (hr : runs (step capacity) s actions = some s')
    (hfits : s'.overflowed = false) :
    ∃ more, Accounted i (missed ++ more) s' ∧
      (more = [] ↔ Guarded (step capacity) Listening s actions) := by
  induction actions generalizing s missed with
  | nil =>
    cases hr
    exact ⟨[], by simpa using ha, by simp [Guarded]⟩
  | cons a actions ih =>
    obtain ⟨u, hu, hr⟩ := (runs_cons_eq_some _).mp hr
    have hfitsu : u.overflowed = false := by
      by_contra ho
      have hdropped := runs_kept (step capacity) (I := fun s => s.overflowed = true)
        (fun ho hs => overflowed_step hs ho) (Bool.of_not_eq_false ho) hr
      rw [hfits] at hdropped
      cases hdropped
    obtain ⟨first, hau, hfirst⟩ := accounted_step ha hu hfitsu
    obtain ⟨rest, has', hrest⟩ := ih hau hr
    refine ⟨first ++ rest, by simpa using has', ?_⟩
    rw [List.append_eq_nil_iff, hfirst, hrest]
    constructor
    · rintro ⟨hl, hg⟩
      refine ⟨hl, fun u' hu' => ?_⟩
      rw [hu] at hu'
      cases hu'
      exact hg
    · rintro ⟨hl, hg⟩
      exact ⟨hl, hg u hu⟩

theorem onTheWay_of_quiet {s : State E} (hq : s.quiet) (i : ℕ) : s.onTheWay i = [] := by
  obtain ⟨hreader, hstream, hpump⟩ := hq
  rw [State.onTheWay, hreader, hstream]
  cases hp : s.pump with
  | received e => exact absurd hp (hpump e []).1
  | forwarding e left => exact absurd hp (hpump e left).2
  | _ => rfl

/-- When no buffer overflowed, what a channel got is always the first part of what the server
sent after its response, and all of it once the goroutines are quiet, exactly if the listener was
registered whenever the reader dispatched one of these events. -/
theorem forwarded_iff_listening {i n capacity : ℕ} (hi : i < n) (actions : List (Act E)) (s : State E)
    (hr : runs (step capacity) (new n) actions = some s) (hfits : s.overflowed = false) :
    (Guarded (step capacity) Listening (new n) actions → s.forwarded i <+: s.sent) ∧
      (s.quiet → (s.forwarded i = s.sent ↔ Guarded (step capacity) Listening (new n) actions)) := by
  obtain ⟨missed, ha, hmissed⟩ := accounted_runs (accounted_new hi) hr hfits
  have hsent := ha.sent
  rw [List.nil_append] at hsent
  constructor
  · intro hg
    rw [hsent, hmissed.mpr hg, List.nil_append]
    exact List.prefix_append _ _
  · intro hq
    rw [onTheWay_of_quiet hq, List.append_nil] at hsent
    rw [← hmissed, hsent]
    constructor
    · intro heq
      have hlength := congrArg List.length heq
      rw [List.length_append] at hlength
      exact List.length_eq_zero_iff.mp (by omega)
    · rintro rfl
      rfl

/-- An event that arrives once `pumpEvents` listens gets to the channel. -/
theorem forwarded_iff_listening_listened :
    ∃ s : State ℕ, s.sent = [7] ∧ s.forwarded 0 = s.sent := by
  let actions : List (Act ℕ) :=
    [.response, .opened, .listen, .event 7, .trySend, .receive, .copy, .forward]
  have hrun : ∃ s, runs (step 256) (new 1) actions = some s ∧ s.overflowed = false ∧ s.quiet ∧
      s.sent = [7] := by
    refine ⟨_, rfl, rfl, ⟨rfl, rfl, fun e left => ⟨?_, ?_⟩⟩, rfl⟩
    · intro h
      cases h
    · intro h
      cases h
  obtain ⟨s, hr, hfits, hq, hsent⟩ := hrun
  have hg : Guarded (step 256) Listening (new 1) actions := by decide
  exact ⟨s, hsent, ((forwarded_iff_listening Nat.zero_lt_one actions s hr hfits).2 hq).mpr hg⟩

/-- An event that arrives between the response and the call of `client.Events()` gets nowhere. -/
theorem event_missed :
    ¬ ∀ (actions : List (Act ℕ)) (s : State ℕ), runs (step 256) (new 1) actions = some s →
      s.overflowed = false → s.quiet → s.forwarded 0 = s.sent := by
  intro h
  have hquiet : State.quiet (E := ℕ) ⟨.receiving, .listening, true, [], [⟨0, []⟩], [7], false⟩ := by
    refine ⟨rfl, rfl, fun e left => ⟨fun h => ?_, fun h => ?_⟩⟩ <;> cases h
  have hall := h [.response, .event 7, .opened, .listen] _ rfl rfl hquiet
  cases hall

end AgentHostProtocol.Go.Hosts.Connection
