import AgentHostProtocol.Dotnet.Hosts.Reconnects
import AgentHostProtocol.Library.Runs
import Mathlib.Order.Nat

/-!
# Following a resource across reconnects

Whether the consumers of `EventsForHost` can follow a resource that stays tracked. What is to come
on a connection is in order and later than `_serverSeq`, and has every envelope of the resource past
that number, up to the place where a lost transport cut it off. The replay goes on from there, and a
snapshot result is published snapshot by snapshot.

* `published_without_gap` — every envelope is published at most once and in order, and an envelope
  of the resource that is skipped is covered by a snapshot that was published before the next one,
  in every run in which no `initialize` that a reconnect fell back to is committed past an envelope
  of the resource. At rest nothing is left out.
* `initialize_skips_envelope` — the snapshots of such an `initialize` are not published, and
  `ApplyConnected` takes its number.
-/

namespace AgentHostProtocol.Dotnet.Hosts.Reconnects

open Library

/-! ### What a consumer sees -/

def Event.envelope? : Event → Option Envelope
  | .action envelope => some envelope
  | .snapshot _ => none

/-- An envelope is among the events, or a snapshot of its resource that was taken after it is. -/
def Covered (events : List Event) (e : Envelope) : Prop :=
  .action e ∈ events ∨
    ∃ snapshot, .snapshot snapshot ∈ events ∧ snapshot.resource = e.channel ∧
      e.serverSeq ≤ snapshot.fromSeq

/-- Of the events, newest first: an envelope of `uri` comes when every earlier one after `start` is
covered. -/
def Unbroken (log : List Envelope) (uri : String) (start : ℕ) : List Event → Prop
  | [] => True
  | .action e :: earlier =>
    (e.channel = uri → ∀ x ∈ log, x.channel = uri → start < x.serverSeq → x.serverSeq < e.serverSeq →
      Covered earlier x) ∧ Unbroken log uri start earlier
  | .snapshot _ :: earlier => Unbroken log uri start earlier

theorem Covered.mono {events later : List Event} {e : Envelope} (h : Covered events e)
    (hsub : ∀ event ∈ events, event ∈ later) : Covered later e := by
  rcases h with h | ⟨snapshot, h, hresource, hle⟩
  · exact .inl (hsub _ h)
  · exact .inr ⟨snapshot, hsub _ h, hresource, hle⟩

theorem Unbroken.snapshots {log : List Envelope} {uri : String} {start : ℕ} {events : List Event}
    (h : Unbroken log uri start events) (snapshots : List Snapshot) :
    Unbroken log uri start ((snapshots.map Event.snapshot).reverse ++ events) := by
  rw [← List.map_reverse]
  induction snapshots.reverse with
  | nil => exact h
  | cons snapshot snapshots ih => exact ih

/-- A new envelope is later than what was published. -/
theorem Unbroken.emit {log : List Envelope} {uri : String} {start n : ℕ} {events : List Event}
    {e : Envelope} (h : Unbroken log uri start events)
    (hle : ∀ x, Event.action x ∈ events → x.serverSeq ≤ n) (he : e.serverSeq = n + 1) :
    Unbroken (log ++ [e]) uri start events := by
  induction events with
  | nil => trivial
  | cons event events ih =>
    have hrest := fun x hx => hle x (List.mem_cons_of_mem _ hx)
    cases event with
    | snapshot snapshot => exact ih h hrest
    | action a =>
      refine ⟨fun ha x hx hchannel hstart hlt => ?_, ih h.2 hrest⟩
      rcases List.mem_append.mp hx with hx | hx
      · exact h.1 ha x hx hchannel hstart hlt
      · rw [List.mem_singleton.mp hx] at hlt
        have hale := hle a List.mem_cons_self
        omega

namespace State

/-! ### Envelopes in order -/

/-- Envelopes after a number, in order. -/
def Numbered (low : ℕ) (es : List Envelope) : Prop :=
  (∀ e ∈ es, low < e.serverSeq) ∧ es.Pairwise fun a b => a.serverSeq < b.serverSeq

theorem numbered_nil (low : ℕ) : Numbered low [] := ⟨fun _ h => (by cases h), .nil⟩

theorem Numbered.tail {low : ℕ} {e : Envelope} {es : List Envelope} (h : Numbered low (e :: es)) :
    low < e.serverSeq ∧ Numbered e.serverSeq es := by
  obtain ⟨hhead, htail⟩ := List.pairwise_cons.mp h.2
  exact ⟨h.1 e List.mem_cons_self, hhead, htail⟩

theorem Numbered.sublist {low : ℕ} {es es' : List Envelope} (h : Numbered low es)
    (hsub : es'.Sublist es) : Numbered low es' :=
  ⟨fun e he => h.1 e (hsub.subset he), h.2.sublist hsub⟩

theorem Numbered.mono {low low' : ℕ} {es : List Envelope} (h : Numbered low es) (hle : low' ≤ low) :
    Numbered low' es :=
  ⟨fun e he => hle.trans_lt (h.1 e he), h.2⟩

/-- The last one comes last. -/
theorem Numbered.concat {low : ℕ} {es : List Envelope} {e : Envelope} (h : Numbered low es)
    (hlow : low < e.serverSeq) (hlast : ∀ x ∈ es, x.serverSeq < e.serverSeq) :
    Numbered low (es ++ [e]) := by
  refine ⟨fun x hx => ?_, List.pairwise_append.mpr ⟨h.2, List.pairwise_singleton _ _, fun a ha b hb => ?_⟩⟩
  · rcases List.mem_append.mp hx with hx | hx
    · exact h.1 x hx
    · rw [List.mem_singleton.mp hx]
      exact hlow
  · rw [List.mem_singleton.mp hb]
    exact hlast a ha

theorem raise_eq {serverSeq n : ℕ} (h : serverSeq < n) : raise serverSeq n = n := if_pos h

theorem le_lastSeq (serverSeq : ℕ) (snapshots : List Snapshot) :
    serverSeq ≤ lastSeq serverSeq snapshots := by
  induction snapshots generalizing serverSeq with
  | nil => exact le_rfl
  | cons snapshot snapshots ih =>
    have hle : serverSeq ≤ raise serverSeq snapshot.fromSeq := by
      unfold raise
      split <;> omega
    exact hle.trans (ih _)

theorem lastSeq_le {serverSeq n : ℕ} {snapshots : List Snapshot} (h : serverSeq ≤ n)
    (hall : ∀ snapshot ∈ snapshots, snapshot.fromSeq ≤ n) : lastSeq serverSeq snapshots ≤ n := by
  induction snapshots generalizing serverSeq with
  | nil => exact h
  | cons snapshot snapshots ih =>
    have hfirst := hall snapshot List.mem_cons_self
    have hraise : raise serverSeq snapshot.fromSeq ≤ n := by
      unfold raise
      split <;> omega
    exact ih hraise fun x hx => hall x (List.mem_cons_of_mem _ hx)

theorem mem_later {log : List Envelope} {channels : List String} {serverSeq : ℕ} {e : Envelope} :
    e ∈ later log channels serverSeq ↔ e ∈ log ∧ e.channel ∈ channels ∧ serverSeq < e.serverSeq := by
  simp [later]

theorem later_numbered {log : List Envelope} (channels : List String) (serverSeq : ℕ)
    (h : log.Pairwise fun a b => a.serverSeq < b.serverSeq) :
    Numbered serverSeq (later log channels serverSeq) :=
  ⟨fun _ he => (mem_later.mp he).2.2, h.sublist List.filter_sublist⟩

/-! ### Publishing -/

variable {s s' : State}

/-- What was published, with `pending` still to be. -/
structure Passing (s : State) (pending : List Envelope) : Prop where
  sorted : s.log.Pairwise fun a b => a.serverSeq < b.serverSeq
  log_le : ∀ e ∈ s.log, e.serverSeq ≤ s.hostSeq
  seq_le : s.serverSeq ≤ s.hostSeq
  ordered : (s.published.filterMap Event.envelope?).Pairwise fun a b => b.serverSeq < a.serverSeq
  passed : ∀ e, Event.action e ∈ s.published → e.serverSeq ≤ s.serverSeq
  numbered : Numbered s.serverSeq pending
  mem : ∀ e ∈ pending, e ∈ s.log

theorem Passing.publish {e : Envelope} {rest : List Envelope} (h : Passing s (e :: rest)) :
    Passing (s.publish e) rest ∧ (s.publish e).serverSeq = e.serverSeq := by
  obtain ⟨hlt, htail⟩ := h.numbered.tail
  have hseq : raise s.serverSeq e.serverSeq = e.serverSeq := raise_eq hlt
  refine ⟨⟨h.sorted, h.log_le, ?_, ?_, fun x hx => ?_, ?_, fun x hx => h.mem x (List.mem_cons_of_mem _ hx)⟩,
    hseq⟩
  · exact hseq.trans_le (h.log_le e (h.mem e List.mem_cons_self))
  · refine List.pairwise_cons.mpr ⟨fun x hx => ?_, h.ordered⟩
    obtain ⟨event, hevent, hx⟩ := List.mem_filterMap.mp hx
    cases event with
    | snapshot snapshot => cases hx
    | action a =>
      cases hx
      exact (h.passed x hevent).trans_lt hlt
  · refine le_trans ?_ hseq.ge
    rcases List.mem_cons.mp hx with hx | hx
    · cases hx
      exact le_rfl
    · exact (h.passed x hx).trans hlt.le
  · exact htail.mono hseq.le

theorem Passing.publishes {actions rest : List Envelope} (h : Passing s (actions ++ rest)) :
    Passing (actions.foldl State.publish s) rest := by
  induction actions generalizing s with
  | nil => exact h
  | cons e actions ih => exact ih h.publish.1

/-- Publishing leaves the rest of the state. -/
theorem foldl_publish_eq (actions : List Envelope) (s : State) : ∃ serverSeq published,
    actions.foldl State.publish s = { s with serverSeq := serverSeq, published := published } := by
  induction actions generalizing s with
  | nil => exact ⟨s.serverSeq, s.published, rfl⟩
  | cons e actions ih =>
    obtain ⟨serverSeq, published, heq⟩ := ih (s.publish e)
    exact ⟨serverSeq, published, heq⟩

/-- What of `uri` was published is without a gap, and `pending` has the rest of it, up to where the
transport cut it off. -/
structure Covers (uri : String) (start : ℕ) (s : State) (pending : List Envelope) : Prop where
  settled : ∀ x ∈ s.log, x.channel = uri → start < x.serverSeq → x.serverSeq ≤ s.serverSeq →
    Covered s.published x
  unbroken : Unbroken s.log uri start s.published
  pending : ∀ x ∈ s.log, x.channel = uri → start < x.serverSeq → s.serverSeq < x.serverSeq →
    x ∈ pending ∨ s.closed = true ∧ ∀ y ∈ pending, y.serverSeq < x.serverSeq

variable {uri : String} {start : ℕ}

theorem Covers.publish {e : Envelope} {rest : List Envelope} (h : Covers uri start s (e :: rest))
    (hpassing : Passing s (e :: rest)) : Covers uri start (s.publish e) rest := by
  obtain ⟨hlt, htail⟩ := hpassing.numbered.tail
  have hseq := hpassing.publish.2
  -- an envelope up to this one is this one, or was published before
  have hcovered : ∀ x ∈ s.log, x.channel = uri → start < x.serverSeq → x.serverSeq ≤ e.serverSeq →
      x = e ∨ Covered s.published x := by
    intro x hx hchannel hstart hle
    by_cases hold : x.serverSeq ≤ s.serverSeq
    · exact .inr (h.settled x hx hchannel hstart hold)
    rcases h.pending x hx hchannel hstart (by omega) with hmem | ⟨-, hlast⟩
    · rcases List.mem_cons.mp hmem with heq | hmem
      · exact .inl heq
      · have hgt := htail.1 x hmem
        omega
    · have hgt := hlast e List.mem_cons_self
      omega
  refine ⟨fun x hx hchannel hstart hle => ?_, ⟨fun _ x hx hchannel hstart hlt => ?_, h.unbroken⟩,
    fun x hx hchannel hstart hgt => ?_⟩
  · rw [hseq] at hle
    rcases hcovered x hx hchannel hstart hle with rfl | hcovered
    · exact .inl List.mem_cons_self
    · exact hcovered.mono fun _ => List.mem_cons_of_mem _
  · rcases hcovered x hx hchannel hstart hlt.le with rfl | hcovered
    · exact absurd hlt (lt_irrefl _)
    · exact hcovered
  · rw [hseq] at hgt
    rcases h.pending x hx hchannel hstart (hlt.trans hgt) with hmem | ⟨hclosed, hlast⟩
    · rcases List.mem_cons.mp hmem with rfl | hmem
      · exact absurd hgt (lt_irrefl _)
      · exact .inl hmem
    · exact .inr ⟨hclosed, fun y hy => hlast y (List.mem_cons_of_mem _ hy)⟩

theorem Covers.publishes {actions rest : List Envelope} (h : Covers uri start s (actions ++ rest))
    (hpassing : Passing s (actions ++ rest)) : Covers uri start (actions.foldl State.publish s) rest := by
  induction actions generalizing s with
  | nil => exact h
  | cons e actions ih => exact ih (h.publish hpassing) hpassing.publish.1

/-! ### The invariants -/

/-- The envelopes of the result, ahead of the stream. -/
def actions : Phase → List Envelope
  | .answered (.replay actions _) => actions
  | _ => []

/-- The number that the stream starts from. -/
def base (s : State) : ℕ :=
  match s.phase with
  | .answered (.initialized serverSeq _) => serverSeq
  | .answered (.snapshot snapshots) => lastSeq s.serverSeq snapshots
  | _ => s.serverSeq

/-- What is to come on the connection. -/
def upcoming (s : State) : List Envelope := actions s.phase ++ (s.stream ++ s.wire)

/-- The host has answered, and the connection is not given up. -/
def live : Phase → Bool
  | .answered _ | .up | .tearing => true
  | _ => false

/-- The number of an `initialize` that is about to be committed. -/
def initialized? : Phase → Option ℕ
  | .answered (.initialized serverSeq _) => some serverSeq
  | _ => none

structure Inv (s : State) : Prop where
  passing : Passing s s.upcoming
  base : Numbered s.base s.upcoming ∧ s.serverSeq ≤ s.base ∧ s.base ≤ s.hostSeq
  idle : live s.phase = false → s.stream = [] ∧ s.wire = [] ∧ s.feeding = []
  closed : s.closed = true → s.feeding = [] ∧ s.wire = []
  lastSeen : ∀ n subscriptions, s.phase = .reconnecting n subscriptions →
    n = s.serverSeq ∧ s.isReconnect = true
  added : s.phase = .added → s.isReconnect = false

/-- What holds of a resource from when the host began to send it. -/
structure Kept (uri : String) (start : ℕ) (s : State) : Prop where
  settled : ∀ x ∈ s.log, x.channel = uri → start < x.serverSeq → x.serverSeq ≤ s.serverSeq →
    Covered s.published x
  unbroken : Unbroken s.log uri start s.published
  pending : live s.phase → ∀ x ∈ s.log, x.channel = uri → start < x.serverSeq → s.base < x.serverSeq →
    x ∈ s.upcoming ∨ s.closed = true ∧ ∀ y ∈ s.upcoming, y.serverSeq < x.serverSeq
  fed : live s.phase → s.closed = false → uri ∈ s.feeding
  snapped : ∀ snapshots, s.phase = .answered (.snapshot snapshots) →
    ∀ x ∈ s.log, x.channel = uri → x.serverSeq ≤ s.base →
      ∃ snapshot ∈ snapshots, snapshot.resource = uri ∧ x.serverSeq ≤ snapshot.fromSeq
  asked : ∀ subscriptions, (∃ n, s.phase = .reconnecting n subscriptions) ∨
    s.phase = .initializing subscriptions → uri ∈ subscriptions
  first : s.isReconnect = false → s.phase ≠ .added ∧ (∀ subscriptions, s.phase ≠ .initializing subscriptions) ∧
    ∀ n ∈ initialized? s.phase, n ≤ start

/-- What the resource is asked to do: it stays tracked, and its host keeps sending it. -/
def Stays (uri : String) (s : State) : Step → Prop
  | .openHost => uri ∈ s.tracked
  | .untrack u | .hostUnsubscribes u => u ≠ uri
  | .hostReplays missing => uri ∉ missing
  | _ => True

/-- The condition: an `initialize` that a reconnect fell back to is not committed past an envelope of
the resource. -/
def Reseeded (uri : String) (s : State) : Step → Prop
  | .commit => s.isReconnect = true → ∀ n ∈ initialized? s.phase, ∀ x ∈ s.log, x.channel = uri →
      x.serverSeq ≤ s.serverSeq ∨ n < x.serverSeq
  | _ => True

instance (uri : String) (s : State) : ∀ a : Step, Decidable (Stays uri s a)
  | .openHost => inferInstanceAs (Decidable (uri ∈ s.tracked))
  | .untrack u | .hostUnsubscribes u => inferInstanceAs (Decidable (u ≠ uri))
  | .hostReplays missing => inferInstanceAs (Decidable (uri ∉ missing))
  | .attemptFails | .commit | .pump | .receive | .closeTransport | .beginReconnect | .torn | .track _
  | .hostSnapshots _ | .hostRefuses | .hostAccepts _ | .hostSubscribes _ | .emit _ =>
    inferInstanceAs (Decidable True)

instance (uri : String) (s : State) : ∀ a : Step, Decidable (Reseeded uri s a)
  | .commit =>
    inferInstanceAs (Decidable (s.isReconnect = true → ∀ n ∈ initialized? s.phase, ∀ x ∈ s.log,
      x.channel = uri → x.serverSeq ≤ s.serverSeq ∨ n < x.serverSeq))
  | .openHost | .attemptFails | .pump | .receive | .closeTransport | .beginReconnect | .torn | .track _
  | .untrack _ | .hostReplays _ | .hostSnapshots _ | .hostRefuses | .hostAccepts _ | .hostSubscribes _
  | .hostUnsubscribes _ | .emit _ => inferInstanceAs (Decidable True)

theorem live_eq_false_iff {phase : Phase} : live phase = false ↔
    (∀ result, phase ≠ .answered result) ∧ phase ≠ .up ∧ phase ≠ .tearing := by
  cases phase <;> simp [live]

theorem not_live_base (h : live s.phase = false) : s.base = s.serverSeq ∧ actions s.phase = [] := by
  unfold base
  cases hphase : s.phase <;> simp_all [live, actions]

theorem connected_base (h : s.phase = .up ∨ s.phase = .tearing) :
    s.base = s.serverSeq ∧ s.upcoming = s.stream ++ s.wire := by
  unfold base upcoming
  rcases h with h | h <;> rw [h] <;> exact ⟨rfl, rfl⟩

theorem Passing.nil {pending : List Envelope} (h : Passing s pending) : Passing s [] :=
  ⟨h.sorted, h.log_le, h.seq_le, h.ordered, h.passed, numbered_nil _, fun _ hx => by cases hx⟩

/-- Nothing is on a connection, and the host has not answered on it. -/
theorem Inv.reset (h : Inv s) {phase : Phase} (hidle : live phase = false) (closed isReconnect : Bool)
    (hseen : ∀ n subscriptions, phase = .reconnecting n subscriptions →
      n = s.serverSeq ∧ isReconnect = true)
    (hadded : phase ≠ .added) : Inv { s with
      feeding := [], wire := [], stream := [], closed := closed, phase := phase
      isReconnect := isReconnect } := by
  set next : State := { s with
    feeding := [], wire := [], stream := [], closed := closed, phase := phase
    isReconnect := isReconnect } with hnext
  obtain ⟨hbase, hactions⟩ := not_live_base (s := next) hidle
  have hupcoming : next.upcoming = [] := by
    unfold upcoming
    rw [hactions]
    rfl
  have hpassing := h.passing.nil
  constructor
  case passing =>
    rw [hupcoming]
    exact ⟨hpassing.sorted, hpassing.log_le, hpassing.seq_le, hpassing.ordered, hpassing.passed,
      numbered_nil _, fun _ hx => by cases hx⟩
  case base =>
    rw [hupcoming, hbase]
    exact ⟨numbered_nil _, le_rfl, hpassing.seq_le⟩
  case idle => exact fun _ => ⟨rfl, rfl, rfl⟩
  case closed => exact fun _ => ⟨rfl, rfl⟩
  case lastSeen => exact hseen
  case added => exact fun hp => absurd hp hadded

theorem Kept.reset (h : Kept uri start s) {phase : Phase} (hidle : live phase = false)
    (closed isReconnect : Bool)
    (hasked : ∀ subscriptions, (∃ n, phase = .reconnecting n subscriptions) ∨
      phase = .initializing subscriptions → uri ∈ subscriptions)
    (hfirst : isReconnect = false → phase ≠ .added ∧ ∀ subscriptions, phase ≠ .initializing subscriptions) :
    Kept uri start { s with
      feeding := [], wire := [], stream := [], closed := closed, phase := phase
      isReconnect := isReconnect } := by
  have hnot := live_eq_false_iff.mp hidle
  refine ⟨h.settled, h.unbroken, fun hlive => ?_, fun hlive => ?_, fun snapshots hphase => ?_, hasked,
    fun hr => ⟨(hfirst hr).1, (hfirst hr).2, fun n hn => ?_⟩⟩
  · exact absurd (hidle.symm.trans hlive) (by simp)
  · exact absurd (hidle.symm.trans hlive) (by simp)
  · exact absurd hphase (hnot.1 _)
  · cases phase with
    | answered result => exact absurd rfl (hnot.1 result)
    | _ => cases hn

/-! ### The handshake -/

theorem Inv.openHost (h : Inv s) (hs : s.openHost = some s') : Inv s' := by
  unfold State.openHost at hs
  split at hs
  · cases hs
    exact h.reset rfl false s.isReconnect (fun _ _ hp => by cases hp) (by simp)
  · cases hs
    exact h.reset rfl false true (fun _ _ hp => by cases hp; exact ⟨rfl, rfl⟩) (by simp)
  · cases hs

theorem Kept.openHost (h : Kept uri start s) (hinv : Inv s) (hstays : Stays uri s .openHost)
    (hs : s.openHost = some s') : Kept uri start s' := by
  unfold State.openHost at hs
  split at hs
  · next hphase => exact absurd hphase (h.first (hinv.added hphase)).1
  · cases hs
    refine h.reset rfl false true (fun subscriptions hp => ?_) fun hr => by cases hr
    rcases hp with ⟨n, hp⟩ | hp
    · cases hp
      exact hstays
    · cases hp
  · cases hs

/-- Where an attempt that fails leaves the supervisor. -/
def failed (isReconnect : Bool) : Phase := if isReconnect then .down else .removed

theorem live_failed (isReconnect : Bool) : live (failed isReconnect) = false := by
  cases isReconnect <;> rfl

theorem Inv.fails (h : Inv s) : Inv { s.dropClient with phase := failed s.isReconnect } := by
  have hnot : ∀ n u, failed s.isReconnect ≠ .reconnecting n u := by
    cases s.isReconnect <;> simp [failed]
  refine h.reset (live_failed _) true s.isReconnect (fun n u hp => absurd hp (hnot n u)) ?_
  cases s.isReconnect <;> simp [failed]

theorem Kept.fails (h : Kept uri start s) :
    Kept uri start { s.dropClient with phase := failed s.isReconnect } := by
  refine h.reset (live_failed _) true s.isReconnect (fun subscriptions hp => ?_) fun _ => ?_
  · cases hr : s.isReconnect <;> simp [failed, hr] at hp
  · cases s.isReconnect <;> simp [failed]

theorem attemptFails_eq (hs : s.attemptFails = some s') :
    s' = { s.dropClient with phase := failed s.isReconnect } := by
  unfold State.attemptFails at hs
  split at hs <;> first | (cases hs; rfl) | cases hs

/-- The host answers, and sends what it resumes from then on. -/
theorem Inv.answered (h : Inv s) (hidle : live s.phase = false) {result : HandshakeResult}
    (feeding : List String)
    (hactions : Passing s (actions (.answered result)))
    (hbase : Numbered (State.base { s with phase := .answered result }) (actions (.answered result)) ∧
      s.serverSeq ≤ State.base { s with phase := .answered result } ∧
      State.base { s with phase := .answered result } ≤ s.hostSeq) (hopen : s.closed = false) :
    Inv { s with feeding := feeding, phase := .answered result } := by
  obtain ⟨hstream, hwire, -⟩ := h.idle hidle
  have hupcoming : State.upcoming { s with feeding := feeding, phase := .answered result } =
      actions (.answered result) := by
    unfold upcoming
    rw [hstream, hwire]
    exact List.append_nil _
  constructor
  case passing =>
    rw [hupcoming]
    exact ⟨hactions.sorted, hactions.log_le, hactions.seq_le, hactions.ordered, hactions.passed,
      hactions.numbered, hactions.mem⟩
  case base =>
    rw [hupcoming]
    exact hbase
  case idle => exact fun hp => by cases hp
  case closed => exact fun hc => absurd (hopen.symm.trans hc) (by simp)
  case lastSeen => exact fun _ _ hp => by cases hp
  case added => exact fun hp => by cases hp

theorem Inv.hostReplays (h : Inv s) {missing : List String} (hs : s.hostReplays missing = some s') :
    Inv s' := by
  unfold State.hostReplays at hs
  split at hs
  · next n subscriptions hphase hopen =>
    cases hs
    have hidle : live s.phase = false := by rw [hphase]; rfl
    obtain ⟨rfl, -⟩ := h.lastSeen n subscriptions hphase
    have hnumbered := later_numbered (subscriptions.filter fun u => u ∉ missing) s.serverSeq h.passing.sorted
    refine h.answered hidle _ ⟨h.passing.sorted, h.passing.log_le, h.passing.seq_le, h.passing.ordered,
      h.passing.passed, hnumbered, fun e he => (mem_later.mp he).1⟩ ⟨hnumbered, le_rfl, h.passing.seq_le⟩ hopen
  · cases hs

theorem Inv.hostSnapshots (h : Inv s) {snapshots : List Snapshot}
    (hs : s.hostSnapshots snapshots = some s') : Inv s' := by
  unfold State.hostSnapshots at hs
  split at hs
  · next n subscriptions hphase hopen =>
    split at hs
    · next hcurrent =>
      cases hs
      have hidle : live s.phase = false := by rw [hphase]; rfl
      refine h.answered hidle _ h.passing.nil ⟨numbered_nil _, le_lastSeq _ _, ?_⟩ hopen
      exact lastSeq_le h.passing.seq_le fun snapshot hmem => (hcurrent.2 snapshot hmem).1
    · cases hs
  · cases hs

theorem Inv.hostAccepts (h : Inv s) {snapshots : List Snapshot}
    (hs : s.hostAccepts snapshots = some s') : Inv s' := by
  unfold State.hostAccepts at hs
  split at hs
  · next subscriptions hphase hopen =>
    split at hs
    · cases hs
      have hidle : live s.phase = false := by rw [hphase]; rfl
      exact h.answered hidle _ h.passing.nil ⟨numbered_nil _, h.passing.seq_le, le_rfl⟩ hopen
    · cases hs
  · cases hs

/-- With nothing on the connection only the phase changes. -/
theorem eq_reset (hstream : s.stream = []) (hwire : s.wire = []) (hfeeding : s.feeding = [])
    (phase : Phase) : { s with phase := phase } =
      { s with
        feeding := [], wire := [], stream := [], closed := s.closed, phase := phase
        isReconnect := s.isReconnect } := by
  obtain ⟨config, hostSeq, log, feeding, wire, stream, closed, old, isReconnect, serverSeq, tracked, published⟩ := s
  cases hstream
  cases hwire
  cases hfeeding
  rfl

theorem Inv.hostRefuses (h : Inv s) (hs : s.hostRefuses = some s') : Inv s' := by
  unfold State.hostRefuses at hs
  split at hs
  · next n subscriptions hphase =>
    cases hs
    obtain ⟨hstream, hwire, hfeeding⟩ := h.idle (by rw [hphase]; rfl)
    rw [eq_reset hstream hwire hfeeding]
    exact h.reset rfl s.closed s.isReconnect (fun _ _ hp => by cases hp) (by simp)
  · cases hs

theorem Kept.hostRefuses (h : Kept uri start s) (hinv : Inv s) (hs : s.hostRefuses = some s') :
    Kept uri start s' := by
  unfold State.hostRefuses at hs
  split at hs
  · next n subscriptions hphase =>
    cases hs
    obtain ⟨hstream, hwire, hfeeding⟩ := hinv.idle (by rw [hphase]; rfl)
    rw [eq_reset hstream hwire hfeeding]
    refine h.reset rfl s.closed s.isReconnect (fun subscriptions' hp => ?_) fun hr => ?_
    · rcases hp with ⟨n, hp⟩ | hp
      · cases hp
      · cases hp
        exact h.asked subscriptions (.inl ⟨n, hphase⟩)
    · exact absurd ((hinv.lastSeen n subscriptions hphase).2.symm.trans hr) (by simp)
  · cases hs

theorem fromSeq_le_lastSeq (serverSeq : ℕ) {snapshots : List Snapshot} {snapshot : Snapshot}
    (h : snapshot ∈ snapshots) : snapshot.fromSeq ≤ lastSeq serverSeq snapshots := by
  induction snapshots generalizing serverSeq with
  | nil => cases h
  | cons first snapshots ih =>
    rcases List.mem_cons.mp h with rfl | h
    · have hle : snapshot.fromSeq ≤ raise serverSeq snapshot.fromSeq := by
        unfold raise
        split <;> omega
      exact hle.trans (le_lastSeq _ _)
    · exact ih _ h

/-- The snapshot of a resource that was asked for has all its envelopes. -/
theorem Current.covers {subscriptions : List String} {snapshots : List Snapshot}
    (h : s.Current subscriptions snapshots) (huri : uri ∈ subscriptions) :
    ∃ snapshot ∈ snapshots, snapshot.resource = uri ∧
      ∀ x ∈ s.log, x.channel = uri → x.serverSeq ≤ snapshot.fromSeq := by
  obtain ⟨snapshot, hmem, rfl⟩ := List.mem_map.mp (h.1 uri huri)
  exact ⟨snapshot, hmem, rfl, (h.2 snapshot hmem).2⟩

theorem Kept.answered (h : Kept uri start s) {result : HandshakeResult} {feeding : List String} (hfed : uri ∈ feeding)
    (hpending : ∀ x ∈ s.log, x.channel = uri → start < x.serverSeq →
      State.base { s with phase := .answered result } < x.serverSeq → x ∈ actions (.answered result))
    (hsnapped : ∀ snapshots, result = .snapshot snapshots → ∀ x ∈ s.log, x.channel = uri →
      ∃ snapshot ∈ snapshots, snapshot.resource = uri ∧ x.serverSeq ≤ snapshot.fromSeq)
    (hfirst : s.isReconnect = true) :
    Kept uri start { s with feeding := feeding, phase := .answered result } := by
  refine ⟨h.settled, h.unbroken, fun _ x hx hchannel hstart hbase => .inl ?_, fun _ _ => hfed,
    fun snapshots hp x hx hchannel _ => ?_, fun subscriptions hp => ?_, fun hr => ?_⟩
  · exact List.mem_append_left _ (hpending x hx hchannel hstart hbase)
  · cases hp
    exact hsnapped snapshots rfl x hx hchannel
  · rcases hp with ⟨n, hp⟩ | hp <;> cases hp
  · exact absurd (hfirst.symm.trans hr) (by simp)

theorem Kept.hostReplays (h : Kept uri start s) (hinv : Inv s) {missing : List String}
    (hstays : uri ∉ missing) (hs : s.hostReplays missing = some s') : Kept uri start s' := by
  unfold State.hostReplays at hs
  split at hs
  · next n subscriptions hphase hopen =>
    cases hs
    obtain ⟨rfl, hreconnect⟩ := hinv.lastSeen n subscriptions hphase
    have hasked := h.asked subscriptions (.inl ⟨_, hphase⟩)
    have hresumed : uri ∈ subscriptions.filter fun u => u ∉ missing := by simp [hasked, hstays]
    refine h.answered hresumed (fun x hx hchannel _ hbase => ?_)
      (fun _ hp => by cases hp) hreconnect
    exact mem_later.mpr ⟨hx, hchannel ▸ hresumed, hbase⟩
  · cases hs

theorem Kept.hostSnapshots (h : Kept uri start s) (hinv : Inv s) {snapshots : List Snapshot}
    (hs : s.hostSnapshots snapshots = some s') : Kept uri start s' := by
  unfold State.hostSnapshots at hs
  split at hs
  · next n subscriptions hphase hopen =>
    split at hs
    · next hcurrent =>
      cases hs
      have hasked := h.asked subscriptions (.inl ⟨_, hphase⟩)
      obtain ⟨snapshot, hmem, hresource, hall⟩ := hcurrent.covers hasked
      refine h.answered hasked (fun x hx hchannel _ hbase => ?_)
        (fun snapshots' hp x hx hchannel => ?_) (hinv.lastSeen n subscriptions hphase).2
      · have hle := (hall x hx hchannel).trans (fromSeq_le_lastSeq s.serverSeq hmem)
        exact absurd hbase (not_lt.mpr hle)
      · cases hp
        exact ⟨snapshot, hmem, hresource, hall x hx hchannel⟩
    · cases hs
  · cases hs

theorem Kept.hostAccepts (h : Kept uri start s) (hinv : Inv s) {snapshots : List Snapshot}
    (hs : s.hostAccepts snapshots = some s') : Kept uri start s' := by
  unfold State.hostAccepts at hs
  split at hs
  · next subscriptions hphase hopen =>
    split at hs
    · cases hs
      have hasked := h.asked subscriptions (.inr hphase)
      have hreconnect : s.isReconnect = true := by
        by_contra hr
        exact (h.first (by simpa using hr)).2.1 subscriptions hphase
      refine h.answered hasked (fun x hx _ _ hbase => ?_)
        (fun _ hp => by cases hp) hreconnect
      exact absurd hbase (not_lt.mpr (hinv.passing.log_le x hx))
    · cases hs
  · cases hs

/-! ### The commit -/

/-- A connection whose result is applied. -/
theorem Inv.connected (h : Inv s) {tracked : List String} {serverSeq : ℕ} {published : List Event}
    (hpassing : Passing { s with serverSeq := serverSeq, published := published } (s.stream ++ s.wire)) :
    Inv { s with serverSeq := serverSeq, published := published, tracked := tracked, phase := .up } where
  passing := ⟨hpassing.sorted, hpassing.log_le, hpassing.seq_le, hpassing.ordered, hpassing.passed,
    hpassing.numbered, hpassing.mem⟩
  base := ⟨hpassing.numbered, le_rfl, hpassing.seq_le⟩
  idle hp := by cases hp
  closed := h.closed
  lastSeen _ _ hp := by cases hp
  added hp := by cases hp

theorem Kept.connected (h : Kept uri start s) (hlive : live s.phase = true) {tracked : List String}
    {serverSeq : ℕ} {published : List Event}
    (hcovers : Covers uri start { s with serverSeq := serverSeq, published := published }
      (s.stream ++ s.wire)) :
    Kept uri start
      { s with serverSeq := serverSeq, published := published, tracked := tracked, phase := .up } where
  settled := hcovers.settled
  unbroken := hcovers.unbroken
  pending _ x hx hchannel hstart hbase := hcovers.pending x hx hchannel hstart hbase
  fed _ := h.fed hlive
  snapped _ hp := by cases hp
  asked subscriptions hp := by rcases hp with ⟨n, hp⟩ | hp <;> cases hp
  first _ := ⟨by simp, by simp, fun n hn => by cases hn⟩

theorem upcoming_of_answered {result : HandshakeResult} (hphase : s.phase = .answered result) :
    s.upcoming = actions (.answered result) ++ (s.stream ++ s.wire) := by
  rw [upcoming, hphase]

/-- The number from which a connection goes on that the host has answered. -/
theorem base_of_answered {result : HandshakeResult} (hphase : s.phase = .answered result) :
    s.base = match result with
      | .initialized serverSeq _ => serverSeq
      | .snapshot snapshots => lastSeq s.serverSeq snapshots
      | .replay _ _ => s.serverSeq := by
  unfold State.base
  split
  · next hresult => cases hphase.symm.trans hresult; rfl
  · next hresult => cases hphase.symm.trans hresult; rfl
  · next hinitialized hsnapshot =>
    cases result with
    | initialized n snapshots => exact absurd hphase (hinitialized n snapshots)
    | snapshot snapshots => exact absurd hphase (hsnapshot snapshots)
    | replay replayed missing => rfl

/-- The result of an `initialize` is committed. -/
theorem Inv.commitInitialized (h : Inv s) {n : ℕ} {snapshots : List Snapshot}
    (hphase : s.phase = .answered (.initialized n snapshots)) :
    Inv { s with serverSeq := n, phase := .up } := by
  obtain ⟨hnumbered, hle, hhost⟩ := h.base
  have hpassing := h.passing
  have hbase : s.base = n := base_of_answered hphase
  have hupcoming : s.upcoming = s.stream ++ s.wire := upcoming_of_answered hphase
  rw [hbase] at hnumbered hle hhost
  rw [hupcoming] at hnumbered hpassing
  exact h.connected ⟨hpassing.sorted, hpassing.log_le, hhost, hpassing.ordered,
    fun e he => (hpassing.passed e he).trans hle, hnumbered, hpassing.mem⟩

theorem Kept.commitInitialized (h : Kept uri start s) {n : ℕ} {snapshots : List Snapshot}
    (hphase : s.phase = .answered (.initialized n snapshots)) (hreseeded : Reseeded uri s .commit) :
    Kept uri start { s with serverSeq := n, phase := .up } := by
  have hinitialized : n ∈ initialized? s.phase := by rw [hphase]; rfl
  have hbase : s.base = n := base_of_answered hphase
  have hupcoming : s.upcoming = s.stream ++ s.wire := upcoming_of_answered hphase
  have hlive : live s.phase = true := by rw [hphase]; rfl
  refine h.connected hlive ⟨fun x hx hchannel hstart hle => ?_, h.unbroken, ?_⟩
  · cases hr : s.isReconnect with
    | true =>
      rcases hreseeded hr n hinitialized x hx hchannel with hold | hnew
      · exact h.settled x hx hchannel hstart hold
      · exact absurd hle (not_le.mpr hnew)
    | false =>
      -- the first `initialize` is where the resource starts
      have hfirst := (h.first hr).2.2 n hinitialized
      exact absurd (hstart.trans_le hle) (not_lt.mpr hfirst)
  · have hpending := h.pending hlive
    rw [hbase, hupcoming] at hpending
    exact hpending

/-- A replay is committed. -/
theorem Inv.commitReplay (h : Inv s) {replayed : List Envelope} {missing : List String}
    (hphase : s.phase = .answered (.replay replayed missing)) {next : State}
    (hs : s.applyReconnectReplay replayed missing = some next) : Inv { next with phase := .up } := by
  have hupcoming : s.upcoming = replayed ++ (s.stream ++ s.wire) := upcoming_of_answered hphase
  have hpassing := h.passing
  rw [hupcoming] at hpassing
  have hpublished := hpassing.publishes
  unfold applyReconnectReplay at hs
  split at hs
  · cases hs
    obtain ⟨serverSeq, published, heq⟩ := foldl_publish_eq replayed s
    rw [heq] at hpublished ⊢
    exact h.connected hpublished
  · cases hs

theorem Kept.commitReplay (h : Kept uri start s) (hinv : Inv s) {replayed : List Envelope}
    {missing : List String} (hphase : s.phase = .answered (.replay replayed missing)) {next : State}
    (hs : s.applyReconnectReplay replayed missing = some next) :
    Kept uri start { next with phase := .up } := by
  have hupcoming : s.upcoming = replayed ++ (s.stream ++ s.wire) := upcoming_of_answered hphase
  have hbase : s.base = s.serverSeq := base_of_answered hphase
  have hlive : live s.phase = true := by rw [hphase]; rfl
  have hpassing := hinv.passing
  have hpending := h.pending hlive
  rw [hupcoming] at hpassing hpending
  rw [hbase] at hpending
  have hcovers : Covers uri start s (replayed ++ (s.stream ++ s.wire)) :=
    ⟨h.settled, h.unbroken, hpending⟩
  have hpublished := hcovers.publishes hpassing
  unfold applyReconnectReplay at hs
  split at hs
  · cases hs
    obtain ⟨serverSeq, published, heq⟩ := foldl_publish_eq replayed s
    rw [heq] at hpublished ⊢
    exact h.connected hlive hpublished
  · cases hs

theorem envelopes_of_snapshots (snapshots : List Snapshot) (published : List Event) :
    ((snapshots.map Event.snapshot).reverse ++ published).filterMap Event.envelope? =
      published.filterMap Event.envelope? := by
  rw [List.filterMap_append, List.filterMap_reverse, List.filterMap_map]
  simp [Function.comp_def, Event.envelope?]

theorem Inv.commitSnapshot (h : Inv s) {snapshots : List Snapshot}
    (hphase : s.phase = .answered (.snapshot snapshots)) :
    Inv { s.applyReconnectSnapshot snapshots with phase := .up } := by
  obtain ⟨hnumbered, hle, hhost⟩ := h.base
  have hpassing := h.passing
  have hbase : s.base = lastSeq s.serverSeq snapshots := base_of_answered hphase
  have hupcoming : s.upcoming = s.stream ++ s.wire := upcoming_of_answered hphase
  rw [hbase] at hnumbered hle hhost
  rw [hupcoming] at hnumbered hpassing
  refine h.connected ⟨hpassing.sorted, hpassing.log_le, hhost, ?_, fun e he => ?_, hnumbered, hpassing.mem⟩
  · exact (envelopes_of_snapshots snapshots s.published).symm ▸ hpassing.ordered
  · rcases List.mem_append.mp he with he | he
    · obtain ⟨snapshot, -, he⟩ := List.mem_map.mp (List.mem_reverse.mp he)
      cases he
    · exact (hpassing.passed e he).trans hle

theorem Kept.commitSnapshot (h : Kept uri start s) {snapshots : List Snapshot}
    (hphase : s.phase = .answered (.snapshot snapshots)) :
    Kept uri start { s.applyReconnectSnapshot snapshots with phase := .up } := by
  have hbase : s.base = lastSeq s.serverSeq snapshots := base_of_answered hphase
  have hupcoming : s.upcoming = s.stream ++ s.wire := upcoming_of_answered hphase
  have hlive : live s.phase = true := by rw [hphase]; rfl
  have hpending := h.pending hlive
  have hsnapped := h.snapped snapshots hphase
  rw [hbase, hupcoming] at hpending
  rw [hbase] at hsnapped
  refine h.connected hlive ⟨fun x hx hchannel _ hle => ?_, ?_, hpending⟩
  · obtain ⟨snapshot, hmem, hresource, hle⟩ := hsnapped x hx hchannel hle
    refine .inr ⟨snapshot, List.mem_append_left _ ?_, hresource.trans hchannel.symm, hle⟩
    exact List.mem_reverse.mpr (List.mem_map.mpr ⟨snapshot, hmem, rfl⟩)
  · exact h.unbroken.snapshots snapshots

/-- What a commit makes of the result of the handshake. -/
theorem commit_cases (hs : s.commit = some s') :
    (∃ n snapshots, s.phase = .answered (.initialized n snapshots) ∧
      s' = { s with serverSeq := n, phase := .up }) ∨
    (∃ snapshots, s.phase = .answered (.snapshot snapshots) ∧
      s' = { s.applyReconnectSnapshot snapshots with phase := .up }) ∨
    (∃ replayed missing next, s.phase = .answered (.replay replayed missing) ∧
      s.applyReconnectReplay replayed missing = some next ∧ s' = { next with phase := .up }) ∨
    s' = { s.dropClient with phase := failed s.isReconnect } := by
  unfold State.commit at hs
  split at hs
  · next result hphase =>
    cases result with
    | initialized n snapshots =>
      cases hs
      exact .inl ⟨n, snapshots, hphase, rfl⟩
    | snapshot snapshots =>
      cases hs
      exact .inr (.inl ⟨snapshots, hphase, rfl⟩)
    | replay replayed missing =>
      cases hnext : s.applyReconnectReplay replayed missing with
      | none =>
        simp only [applyHandshake, hnext] at hs
        cases hs
        exact .inr (.inr (.inr rfl))
      | some next =>
        simp only [applyHandshake, hnext] at hs
        cases hs
        exact .inr (.inr (.inl ⟨replayed, missing, next, hphase, hnext, rfl⟩))
  · cases hs

theorem Inv.commit (h : Inv s) (hs : s.commit = some s') : Inv s' := by
  obtain ⟨n, snapshots, hphase, rfl⟩ | ⟨snapshots, hphase, rfl⟩ |
    ⟨replayed, missing, next, hphase, hnext, rfl⟩ | rfl := commit_cases hs
  · exact h.commitInitialized hphase
  · exact h.commitSnapshot hphase
  · exact h.commitReplay hphase hnext
  · exact h.fails

theorem Kept.commit (h : Kept uri start s) (hinv : Inv s) (hreseeded : Reseeded uri s .commit)
    (hs : s.commit = some s') : Kept uri start s' := by
  obtain ⟨n, snapshots, hphase, rfl⟩ | ⟨snapshots, hphase, rfl⟩ |
    ⟨replayed, missing, next, hphase, hnext, rfl⟩ | rfl := commit_cases hs
  · exact h.commitInitialized hphase hreseeded
  · exact h.commitSnapshot hphase
  · exact h.commitReplay hinv hphase hnext
  · exact h.fails

/-! ### The connection -/

/-- A step that leaves what is to come as it is. -/
theorem Inv.frame (h : Inv s) {stream wire : List Envelope} {tracked feeding : List String}
    (hstream : stream ++ wire = s.stream ++ s.wire) (hfeeding : s.feeding = [] → feeding = [])
    (hwire : s.wire = [] → wire = []) (hidle : live s.phase = false → stream = []) :
    Inv { s with stream := stream, wire := wire, tracked := tracked, feeding := feeding } := by
  have hupcoming : State.upcoming { s with
      stream := stream, wire := wire, tracked := tracked, feeding := feeding } = s.upcoming := by
    unfold State.upcoming
    rw [hstream]
  constructor
  case passing =>
    rw [hupcoming]
    have hpassing := h.passing
    exact ⟨hpassing.sorted, hpassing.log_le, hpassing.seq_le, hpassing.ordered, hpassing.passed,
      hpassing.numbered, hpassing.mem⟩
  case base =>
    rw [hupcoming]
    exact h.base
  case idle =>
    intro hlive
    obtain ⟨-, hnone, hunfed⟩ := h.idle hlive
    exact ⟨hidle hlive, hwire hnone, hfeeding hunfed⟩
  case closed =>
    intro hclosed
    obtain ⟨hunfed, hnone⟩ := h.closed hclosed
    exact ⟨hfeeding hunfed, hwire hnone⟩
  case lastSeen => exact h.lastSeen
  case added => exact h.added

theorem Kept.frame (h : Kept uri start s) {stream wire : List Envelope} {tracked feeding : List String}
    (hstream : stream ++ wire = s.stream ++ s.wire) (hfed : uri ∈ s.feeding → uri ∈ feeding) :
    Kept uri start { s with stream := stream, wire := wire, tracked := tracked, feeding := feeding } := by
  have hupcoming : State.upcoming { s with
      stream := stream, wire := wire, tracked := tracked, feeding := feeding } = s.upcoming := by
    unfold State.upcoming
    rw [hstream]
  refine ⟨h.settled, h.unbroken, ?_, fun hlive hopen => hfed (h.fed hlive hopen), h.snapped, h.asked, h.first⟩
  rw [hupcoming]
  exact h.pending

theorem receive_eq (hs : s.receive = some s') : ∃ e wire, s.wire = e :: wire ∧
    s' = { s with wire := wire, stream := s.stream ++ [e] } := by
  unfold State.receive at hs
  split at hs
  · next e wire hwire =>
    cases hs
    exact ⟨e, wire, hwire, rfl⟩
  · cases hs

theorem Inv.receive (h : Inv s) (hs : s.receive = some s') : Inv s' := by
  obtain ⟨e, wire, hwire, rfl⟩ := receive_eq hs
  refine h.frame (by simp [hwire]) (fun hf => hf) (fun hnil => ?_) fun hidle => ?_
  · rw [hwire] at hnil
    cases hnil
  · have hnil := (h.idle hidle).2.1
    rw [hwire] at hnil
    cases hnil

theorem Kept.receive (h : Kept uri start s) (hs : s.receive = some s') : Kept uri start s' := by
  obtain ⟨e, wire, hwire, rfl⟩ := receive_eq hs
  exact h.frame (by simp [hwire]) fun hf => hf

/-- Publishing the next event of the stream. -/
theorem pump_eq (hs : s.pump = some s') : (s.phase = .up ∨ s.phase = .tearing) ∧
    ∃ e stream, s.stream = e :: stream ∧ s' = State.publish { s with stream := stream } e := by
  unfold State.pump at hs
  split at hs
  · next e stream hphase hstream =>
    cases hs
    exact ⟨.inl hphase, e, stream, hstream, rfl⟩
  · next e stream hphase hstream =>
    cases hs
    exact ⟨.inr hphase, e, stream, hstream, rfl⟩
  · cases hs

theorem Inv.pump (h : Inv s) (hs : s.pump = some s') : Inv s' := by
  obtain ⟨hphase, e, stream, hstream, rfl⟩ := pump_eq hs
  obtain ⟨-, hupcoming⟩ := connected_base hphase
  have hpassing := h.passing
  rw [hupcoming, hstream] at hpassing
  have hpublished := (hpassing.publish).1
  have hphase' : (State.publish { s with stream := stream } e).phase = .up ∨
      (State.publish { s with stream := stream } e).phase = .tearing := hphase
  obtain ⟨hbase', hupcoming'⟩ := connected_base hphase'
  have hlive : live s.phase = true := by rcases hphase with hp | hp <;> rw [hp] <;> rfl
  constructor
  case passing =>
    rw [hupcoming']
    exact ⟨hpublished.sorted, hpublished.log_le, hpublished.seq_le, hpublished.ordered, hpublished.passed,
      hpublished.numbered, hpublished.mem⟩
  case base =>
    rw [hbase', hupcoming']
    exact ⟨hpublished.numbered, le_rfl, hpublished.seq_le⟩
  case idle => exact fun hidle => absurd (hlive.symm.trans hidle) (by simp)
  case closed => exact h.closed
  case lastSeen =>
    intro n subscriptions hp
    rcases hphase with hphase | hphase <;> cases hphase.symm.trans hp
  case added =>
    intro hp
    rcases hphase with hphase | hphase <;> cases hphase.symm.trans hp

theorem Kept.pump (h : Kept uri start s) (hinv : Inv s) (hs : s.pump = some s') : Kept uri start s' := by
  obtain ⟨hphase, e, stream, hstream, rfl⟩ := pump_eq hs
  obtain ⟨hbase, hupcoming⟩ := connected_base hphase
  have hpassing := hinv.passing
  have hlive : live s.phase = true := by rcases hphase with hp | hp <;> rw [hp] <;> rfl
  have hpending := h.pending hlive
  rw [hbase, hupcoming, hstream] at hpending
  rw [hupcoming, hstream] at hpassing
  have hcovers : Covers uri start s (e :: stream ++ s.wire) := ⟨h.settled, h.unbroken, hpending⟩
  have hpublished := hcovers.publish hpassing
  have hphase' : (State.publish { s with stream := stream } e).phase = .up ∨
      (State.publish { s with stream := stream } e).phase = .tearing := hphase
  obtain ⟨hbase', hupcoming'⟩ := connected_base hphase'
  refine ⟨hpublished.settled, hpublished.unbroken, fun _ => ?_, h.fed, fun snapshots hp => ?_, h.asked, h.first⟩
  · rw [hbase', hupcoming']
    exact hpublished.pending
  · rcases hphase with hphase | hphase <;> cases hphase.symm.trans hp

/-- What was on the wire of a transport that closes is lost. -/
theorem Inv.closeTransport (h : Inv s) : Inv s.closeTransport := by
  have hsub : (State.upcoming s.closeTransport).Sublist s.upcoming := by
    unfold State.upcoming State.closeTransport
    rw [List.append_nil]
    exact List.Sublist.append (List.Sublist.refl _) (List.sublist_append_left _ _)
  have hpassing := h.passing
  exact ⟨⟨hpassing.sorted, hpassing.log_le, hpassing.seq_le, hpassing.ordered, hpassing.passed,
      hpassing.numbered.sublist hsub, fun e he => hpassing.mem e (hsub.subset he)⟩,
    ⟨h.base.1.sublist hsub, h.base.2⟩, fun hidle => ⟨(h.idle hidle).1, rfl, rfl⟩, fun _ => ⟨rfl, rfl⟩,
    h.lastSeen, h.added⟩

theorem Kept.closeTransport (h : Kept uri start s) (hinv : Inv s) : Kept uri start s.closeTransport := by
  refine ⟨h.settled, h.unbroken, fun hlive x hx hchannel hstart hbase => ?_, fun _ hopen => ?_, h.snapped,
    h.asked, h.first⟩
  · have hsplit : s.upcoming = State.upcoming s.closeTransport ++ s.wire := by
      unfold State.upcoming State.closeTransport
      simp
    have hordered := hinv.passing.numbered.2
    rw [hsplit] at hordered
    have hbefore := (List.pairwise_append.mp hordered).2.2
    rcases h.pending hlive x hx hchannel hstart hbase with hmem | ⟨-, hlast⟩
    · rw [hsplit] at hmem
      rcases List.mem_append.mp hmem with hmem | hmem
      · exact .inl hmem
      · exact .inr ⟨rfl, fun y hy => hbefore y hy x hmem⟩
    · refine .inr ⟨rfl, fun y hy => hlast y ?_⟩
      rw [hsplit]
      exact List.mem_append_left _ hy
  · cases hopen

theorem Inv.beginReconnect (h : Inv s) (hs : s.beginReconnect = some s') : Inv s' := by
  unfold State.beginReconnect at hs
  split at hs
  · next hphase =>
    cases hs
    obtain ⟨hbase, hupcoming⟩ := connected_base (.inl hphase)
    have hpassing := h.passing
    have hstart := h.base
    rw [hupcoming] at hpassing hstart
    rw [hbase] at hstart
    exact ⟨⟨hpassing.sorted, hpassing.log_le, hpassing.seq_le, hpassing.ordered, hpassing.passed,
      hpassing.numbered, hpassing.mem⟩, hstart, fun hp => (by cases hp), h.closed, fun _ _ hp => (by cases hp),
      fun hp => (by cases hp)⟩
  · cases hs

theorem Kept.beginReconnect (h : Kept uri start s) (hs : s.beginReconnect = some s') :
    Kept uri start s' := by
  unfold State.beginReconnect at hs
  split at hs
  · next hphase =>
    cases hs
    obtain ⟨hbase, hupcoming⟩ := connected_base (.inl hphase)
    have hlive : live s.phase = true := by rw [hphase]; rfl
    have hpending := h.pending hlive
    rw [hbase, hupcoming] at hpending
    refine ⟨h.settled, h.unbroken, fun _ => hpending, fun _ => h.fed hlive, fun _ hp => (by cases hp),
      fun subscriptions hp => ?_, fun _ => ⟨by simp, by simp, fun n hn => (by cases hn)⟩⟩
    rcases hp with ⟨n, hp⟩ | hp <;> cases hp
  · cases hs

theorem torn_eq (hs : s.torn = some s') :
    s.closed = true ∧ s.stream = [] ∧ s' = { s with phase := .down } := by
  unfold State.torn at hs
  split at hs
  · split at hs
    · next hend =>
      cases hs
      exact ⟨hend.1, hend.2, rfl⟩
    · cases hs
  · cases hs

theorem Inv.torn (h : Inv s) (hs : s.torn = some s') : Inv s' := by
  obtain ⟨hclosed, hstream, rfl⟩ := torn_eq hs
  obtain ⟨hfeeding, hwire⟩ := h.closed hclosed
  rw [eq_reset hstream hwire hfeeding]
  exact h.reset rfl s.closed s.isReconnect (fun _ _ hp => by cases hp) (by simp)

theorem Kept.torn (h : Kept uri start s) (hinv : Inv s) (hs : s.torn = some s') : Kept uri start s' := by
  obtain ⟨hclosed, hstream, rfl⟩ := torn_eq hs
  obtain ⟨hfeeding, hwire⟩ := hinv.closed hclosed
  rw [eq_reset hstream hwire hfeeding]
  refine h.reset rfl s.closed s.isReconnect (fun subscriptions hp => ?_) fun _ => by simp
  rcases hp with ⟨n, hp⟩ | hp <;> cases hp

/-! ### The host -/

/-- The envelopes to come when a channel emits. -/
theorem upcoming_emit (channel : String) : State.upcoming (s.emit channel) =
    s.upcoming ++ (if channel ∈ s.feeding then [⟨channel, s.hostSeq + 1⟩] else []) := by
  unfold State.upcoming State.emit
  split <;> simp

theorem Inv.emit (h : Inv s) (channel : String) : Inv (s.emit channel) := by
  have hpassing := h.passing
  have hle : ∀ x ∈ s.upcoming, x.serverSeq < s.hostSeq + 1 := fun x hx =>
    Nat.lt_succ_of_le (hpassing.log_le x (hpassing.mem x hx))
  have hnumbered : ∀ low, Numbered low s.upcoming → low ≤ s.hostSeq →
      Numbered low (State.upcoming (s.emit channel)) := by
    intro low hlow hhost
    rw [upcoming_emit]
    split
    · exact hlow.concat (Nat.lt_succ_of_le hhost) hle
    · rw [List.append_nil]
      exact hlow
  refine ⟨⟨?_, fun e he => ?_, Nat.le_succ_of_le hpassing.seq_le, hpassing.ordered, hpassing.passed,
    hnumbered _ hpassing.numbered hpassing.seq_le, fun e he => ?_⟩,
    ⟨hnumbered _ h.base.1 h.base.2.2, h.base.2.1, Nat.le_succ_of_le h.base.2.2⟩, fun hidle => ?_,
    fun hclosed => ?_, h.lastSeen, h.added⟩
  · refine List.pairwise_append.mpr ⟨hpassing.sorted, List.pairwise_singleton _ _, fun a ha b hb => ?_⟩
    rw [List.mem_singleton.mp hb]
    exact Nat.lt_succ_of_le (hpassing.log_le a ha)
  · rcases List.mem_append.mp he with he | he
    · exact Nat.le_succ_of_le (hpassing.log_le e he)
    · rw [List.mem_singleton.mp he]
      exact le_rfl
  · rw [upcoming_emit] at he
    rcases List.mem_append.mp he with he | he
    · exact List.mem_append_left _ (hpassing.mem e he)
    · split at he
      · exact List.mem_append_right _ he
      · cases he
  · obtain ⟨hstream, hwire, hfeeding⟩ := h.idle hidle
    refine ⟨hstream, ?_, hfeeding⟩
    simp [State.emit, hwire, hfeeding]
  · obtain ⟨hfeeding, hwire⟩ := h.closed hclosed
    refine ⟨hfeeding, ?_⟩
    simp [State.emit, hwire, hfeeding]

theorem Kept.emit (h : Kept uri start s) (hinv : Inv s) (channel : String) :
    Kept uri start (s.emit channel) := by
  have hpassing := hinv.passing
  have hnew : ∀ x, x ∈ (s.emit channel).log → x.serverSeq ≤ s.hostSeq → x ∈ s.log := by
    intro x hx hle
    rcases List.mem_append.mp hx with hx | hx
    · exact hx
    · rw [List.mem_singleton.mp hx] at hle
      exact absurd hle (by simp)
  refine ⟨fun x hx hchannel hstart hle => ?_, ?_, fun hlive x hx hchannel hstart hbase => ?_, h.fed,
    fun snapshots hp x hx hchannel hle => ?_, h.asked, h.first⟩
  · exact h.settled x (hnew x hx (hle.trans hpassing.seq_le)) hchannel hstart hle
  · exact h.unbroken.emit (fun x hx => (hpassing.passed x hx).trans hpassing.seq_le) rfl
  · have hlast : ∀ y ∈ s.upcoming, y.serverSeq < s.hostSeq + 1 := fun y hy =>
      Nat.lt_succ_of_le (hpassing.log_le y (hpassing.mem y hy))
    rw [upcoming_emit]
    rcases List.mem_append.mp hx with hx | hx
    · rcases h.pending hlive x hx hchannel hstart hbase with hmem | ⟨hclosed, hcut⟩
      · exact .inl (List.mem_append_left _ hmem)
      · refine .inr ⟨hclosed, ?_⟩
        rw [(hinv.closed hclosed).1]
        simpa using hcut
    · have hx := List.mem_singleton.mp hx
      subst hx
      cases hclosed : s.closed with
      | true =>
        refine .inr ⟨hclosed, ?_⟩
        rw [(hinv.closed hclosed).1]
        simpa using hlast
      | false =>
        have hfed := h.fed hlive hclosed
        rw [← hchannel] at hfed
        rw [if_pos hfed]
        exact .inl (List.mem_append_right _ (List.mem_singleton.mpr rfl))
  · exact h.snapped snapshots hp x (hnew x hx (hle.trans hinv.base.2.2)) hchannel hle

theorem Inv.hostUnsubscribes (h : Inv s) (u : String) : Inv (s.hostUnsubscribes u) :=
  h.frame rfl (fun hf => by rw [hf]; rfl) (fun hw => hw) fun hidle => (h.idle hidle).1

theorem hostSubscribes_eq {u : String} (hs : s.hostSubscribes u = some s') :
    (s.phase = .up ∨ s.phase = .tearing) ∧ s.closed = false ∧ s' = { s with feeding := u :: s.feeding } := by
  unfold State.hostSubscribes at hs
  split at hs
  · next hphase hopen =>
    cases hs
    exact ⟨.inl hphase, hopen, rfl⟩
  · next hphase hopen =>
    cases hs
    exact ⟨.inr hphase, hopen, rfl⟩
  · cases hs

theorem Inv.hostSubscribes (h : Inv s) {u : String} (hs : s.hostSubscribes u = some s') : Inv s' := by
  obtain ⟨hphase, hopen, rfl⟩ := hostSubscribes_eq hs
  have hlive : live s.phase = true := by rcases hphase with hp | hp <;> rw [hp] <;> rfl
  have hpassing := h.passing
  exact ⟨⟨hpassing.sorted, hpassing.log_le, hpassing.seq_le, hpassing.ordered, hpassing.passed,
    hpassing.numbered, hpassing.mem⟩, h.base, fun hidle => absurd (hlive.symm.trans hidle) (by simp),
    fun hclosed => absurd (hopen.symm.trans hclosed) (by simp), h.lastSeen, h.added⟩

theorem track_eq {u : String} (hs : s.track u = some s') :
    ∃ tracked, s' = { s with tracked := tracked } := by
  unfold State.track at hs
  split at hs
  · cases hs
    exact ⟨_, rfl⟩
  · cases hs

theorem untrack_eq {u : String} (hs : s.untrack u = some s') :
    ∃ tracked, s' = { s with tracked := tracked } := by
  unfold State.untrack at hs
  split at hs
  · cases hs
    exact ⟨_, rfl⟩
  · cases hs

/-! ### Runs -/

theorem inv_added (initialSubscriptions : Option (List String)) : Inv (added initialSubscriptions) where
  passing := ⟨.nil, fun _ h => (by cases h), le_rfl, .nil, fun _ h => (by cases h), numbered_nil _,
    fun _ h => (by cases h)⟩
  base := ⟨numbered_nil _, le_rfl, le_rfl⟩
  idle _ := ⟨rfl, rfl, rfl⟩
  closed _ := ⟨rfl, rfl⟩
  lastSeen _ _ hp := by cases hp
  added _ := rfl

theorem inv_step {a : Step} (h : Inv s) (hs : s.step a = some s') : Inv s' := by
  cases a with
  | openHost => exact h.openHost hs
  | attemptFails => exact attemptFails_eq hs ▸ h.fails
  | commit => exact h.commit hs
  | pump => exact h.pump hs
  | receive => exact h.receive hs
  | closeTransport =>
    cases hs
    exact h.closeTransport
  | beginReconnect => exact h.beginReconnect hs
  | torn => exact h.torn hs
  | track u =>
    obtain ⟨tracked, rfl⟩ := track_eq hs
    exact h.frame rfl (fun hf => hf) (fun hw => hw) fun hidle => (h.idle hidle).1
  | untrack u =>
    obtain ⟨tracked, rfl⟩ := untrack_eq hs
    exact h.frame rfl (fun hf => hf) (fun hw => hw) fun hidle => (h.idle hidle).1
  | hostReplays missing => exact h.hostReplays hs
  | hostSnapshots snapshots => exact h.hostSnapshots hs
  | hostRefuses => exact h.hostRefuses hs
  | hostAccepts snapshots => exact h.hostAccepts hs
  | hostSubscribes u => exact h.hostSubscribes hs
  | hostUnsubscribes u =>
    cases hs
    exact h.hostUnsubscribes u
  | emit channel =>
    cases hs
    exact h.emit channel

theorem kept_step {a : Step} (h : Kept uri start s) (hinv : Inv s) (hstays : Stays uri s a)
    (hreseeded : Reseeded uri s a) (hs : s.step a = some s') : Kept uri start s' := by
  cases a with
  | openHost => exact h.openHost hinv hstays hs
  | attemptFails => exact attemptFails_eq hs ▸ h.fails
  | commit => exact h.commit hinv hreseeded hs
  | pump => exact h.pump hinv hs
  | receive => exact h.receive hs
  | closeTransport =>
    cases hs
    exact h.closeTransport hinv
  | beginReconnect => exact h.beginReconnect hs
  | torn => exact h.torn hinv hs
  | track u =>
    obtain ⟨tracked, rfl⟩ := track_eq hs
    exact h.frame rfl fun hf => hf
  | untrack u =>
    obtain ⟨tracked, rfl⟩ := untrack_eq hs
    exact h.frame rfl fun hf => hf
  | hostReplays missing => exact h.hostReplays hinv hstays hs
  | hostSnapshots snapshots => exact h.hostSnapshots hinv hs
  | hostRefuses => exact h.hostRefuses hinv hs
  | hostAccepts snapshots => exact h.hostAccepts hinv hs
  | hostSubscribes u =>
    obtain ⟨-, -, rfl⟩ := hostSubscribes_eq hs
    exact h.frame rfl (List.mem_cons_of_mem _)
  | hostUnsubscribes u =>
    cases hs
    refine h.frame rfl fun hf => List.mem_filter.mpr ⟨hf, ?_⟩
    simpa using fun heq => hstays heq.symm
  | emit channel =>
    cases hs
    exact h.emit hinv channel

/-- Nothing is missed of what comes later than all envelopes. -/
theorem unbroken_of_le {log : List Envelope} (hle : ∀ x ∈ log, x.serverSeq ≤ start) (events : List Event) :
    Unbroken log uri start events := by
  induction events with
  | nil => trivial
  | cons event events ih =>
    cases event with
    | snapshot snapshot => exact ih
    | action e =>
      refine ⟨fun _ x hx _ hstart _ => ?_, ih⟩
      exact absurd (hle x hx) (not_le.mpr hstart)

/-- From when the host begins to send a resource. -/
theorem Inv.kept (h : Inv s) (hfed : uri ∈ s.feeding)
    (hsnapped : ∀ snapshots, s.phase = .answered (.snapshot snapshots) → ∀ x ∈ s.log, x.channel = uri →
      ∃ snapshot ∈ snapshots, snapshot.resource = uri ∧ x.serverSeq ≤ snapshot.fromSeq) :
    Kept uri s.hostSeq s := by
  have hle := h.passing.log_le
  have hlive : live s.phase = true := by
    by_contra hidle
    rw [(h.idle (by simpa using hidle)).2.2] at hfed
    cases hfed
  refine ⟨fun x hx _ hstart => absurd (hle x hx) (not_le.mpr hstart), unbroken_of_le hle _,
    fun _ x hx _ hstart => absurd (hle x hx) (not_le.mpr hstart), fun _ _ => hfed,
    fun snapshots hp x hx hchannel _ => hsnapped snapshots hp x hx hchannel, fun subscriptions hp => ?_,
    fun _ => ⟨fun hp => ?_, fun subscriptions hp => ?_, fun n hn => ?_⟩⟩
  · rcases hp with ⟨n, hp⟩ | hp <;>
    · rw [hp] at hlive
      cases hlive
  · rw [hp] at hlive
    cases hlive
  · rw [hp] at hlive
    cases hlive
  · have hbase := h.base.2.2
    unfold State.base at hbase
    cases hphase : s.phase with
    | answered result =>
      rw [hphase] at hn hbase
      cases result with
      | initialized serverSeq snapshots =>
        cases hn
        exact hbase
      | _ => cases hn
    | _ =>
      rw [hphase] at hn
      cases hn

/-- What a resource needs to be sent after a step: it was sent before, or snapshots of it were
asked for, or the step does not lead to snapshots. -/
theorem feeding_of_step {a : Step} (hs : s.step a = some s') (hfed : uri ∈ s'.feeding) :
    uri ∈ s.feeding ∨
      (∃ snapshots subscriptions, s.Current subscriptions snapshots ∧ uri ∈ subscriptions ∧
        s'.log = s.log ∧ s'.phase = .answered (.snapshot snapshots)) ∨
      ∀ snapshots, s'.phase ≠ .answered (.snapshot snapshots) := by
  cases a with
  | openHost =>
    simp only [step, State.openHost] at hs
    split at hs <;> cases hs <;> cases hfed
  | attemptFails =>
    obtain rfl := attemptFails_eq hs
    cases hfed
  | commit =>
    simp only [step, State.commit] at hs
    split at hs
    · next result _ =>
      cases hnext : s.applyHandshake result with
      | none =>
        rw [hnext] at hs
        cases hs
        cases hfed
      | some next =>
        rw [hnext] at hs
        cases hs
        exact .inr (.inr fun snapshots hp => by cases hp)
    · cases hs
  | pump =>
    obtain ⟨-, e, stream, -, rfl⟩ := pump_eq hs
    exact .inl hfed
  | receive =>
    obtain ⟨e, wire, -, rfl⟩ := receive_eq hs
    exact .inl hfed
  | closeTransport =>
    cases hs
    cases hfed
  | beginReconnect =>
    simp only [step, State.beginReconnect] at hs
    split at hs <;> cases hs
    exact .inl hfed
  | torn =>
    obtain ⟨-, -, rfl⟩ := torn_eq hs
    exact .inl hfed
  | track u =>
    obtain ⟨tracked, rfl⟩ := track_eq hs
    exact .inl hfed
  | untrack u =>
    obtain ⟨tracked, rfl⟩ := untrack_eq hs
    exact .inl hfed
  | hostReplays missing =>
    simp only [step, State.hostReplays] at hs
    split at hs <;> cases hs
    exact .inr (.inr fun snapshots hp => by cases hp)
  | hostSnapshots snapshots =>
    simp only [step, State.hostSnapshots] at hs
    split at hs
    · next n subscriptions _ _ =>
      split at hs
      · next hcurrent =>
        cases hs
        exact .inr (.inl ⟨snapshots, subscriptions, hcurrent, hfed, rfl, rfl⟩)
      · cases hs
    · cases hs
  | hostRefuses =>
    simp only [step, State.hostRefuses] at hs
    split at hs <;> cases hs
    exact .inl hfed
  | hostAccepts snapshots =>
    simp only [step, State.hostAccepts] at hs
    split at hs
    · split at hs <;> cases hs
      exact .inr (.inr fun snapshots hp => by cases hp)
    · cases hs
  | hostSubscribes u =>
    obtain ⟨hphase, -, rfl⟩ := hostSubscribes_eq hs
    refine .inr (.inr fun snapshots hp => ?_)
    rcases hphase with hphase | hphase <;> cases hphase.symm.trans hp
  | hostUnsubscribes u =>
    cases hs
    exact .inl (List.mem_filter.mp hfed).1
  | emit channel =>
    cases hs
    exact .inl hfed

/-- A step after which the host sends a resource that it did not send before. -/
theorem kept_of_step {a : Step} (h : Inv s) (hs : s.step a = some s') (hbefore : uri ∉ s.feeding)
    (hfed : uri ∈ s'.feeding) : Kept uri s'.hostSeq s' := by
  refine (inv_step h hs).kept hfed fun snapshots hp x hx hchannel => ?_
  rcases feeding_of_step hs hfed with hold | ⟨snapshots', subscriptions, hcurrent, huri, hlog, hphase⟩ | hnone
  · exact absurd hold hbefore
  · cases hphase.symm.trans hp
    obtain ⟨snapshot, hmem, hresource, hall⟩ := hcurrent.covers huri
    rw [hlog] at hx
    exact ⟨snapshot, hmem, hresource, hall x hx hchannel⟩
  · exact absurd hp (hnone snapshots)

/-! ### Gap-free delivery -/

/-- Connected, with nothing to come. -/
def AtRest (s : State) : Prop := s.phase = .up ∧ s.closed = false ∧ s.stream = [] ∧ s.wire = []

/-- **Gap-free delivery**, of a resource from when the host begins to send it, while it stays tracked
and every `initialize` that a reconnect falls back to meets the condition: every envelope is published
at most once and in order, and one that is skipped is covered by a snapshot that was published before
the next one. At rest every envelope is covered. -/
theorem published_without_gap {initialSubscriptions : Option (List String)} {uri : String}
    {before after : List Step} {a : Step} {s₀ s₁ s : State}
    (hbefore : runs step (added initialSubscriptions) before = some s₀) (hstep : s₀.step a = some s₁)
    (hnew : uri ∉ s₀.feeding) (hfed : uri ∈ s₁.feeding)
    (hguarded : Guarded step (fun s a => Stays uri s a ∧ Reseeded uri s a) s₁ after)
    (hafter : runs step s₁ after = some s) :
    (s.published.filterMap Event.envelope?).Pairwise (fun a b => b.serverSeq < a.serverSeq) ∧
      Unbroken s.log uri s₁.hostSeq s.published ∧
      (AtRest s → ∀ x ∈ s.log, x.channel = uri → s₁.hostSeq < x.serverSeq → Covered s.published x) := by
  have hinv₀ : Inv s₀ := runs_kept step inv_step (inv_added initialSubscriptions) hbefore
  have hstart : Inv s₁ ∧ Kept uri s₁.hostSeq s₁ := ⟨inv_step hinv₀ hstep, kept_of_step hinv₀ hstep hnew hfed⟩
  obtain ⟨hinv, hkept⟩ := runs_invariant step (I := fun s => Inv s ∧ Kept uri s₁.hostSeq s)
    (fun hi hg hs => ⟨inv_step hi.1 hs, kept_step hi.2 hi.1 hg.1 hg.2 hs⟩) hstart hguarded hafter
  refine ⟨hinv.passing.ordered, hkept.unbroken, fun hrest x hx hchannel hstart => ?_⟩
  obtain ⟨hphase, hopen, hstream, hwire⟩ := hrest
  obtain ⟨hbase, hupcoming⟩ := connected_base (.inl hphase)
  by_cases hle : x.serverSeq ≤ s.serverSeq
  · exact hkept.settled x hx hchannel hstart hle
  · have hpending := hkept.pending (by rw [hphase]; rfl) x hx hchannel hstart (by rw [hbase]; omega)
    rw [hupcoming, hstream, hwire, hopen] at hpending
    simp at hpending

/-! ### Two runs -/

/-- The first handshake of a host with one session. -/
def connecting : State :=
  { added (some ["ahp-session:/s"]) with closed := false, phase := .initializing ["ahp-session:/s"] }

/-- It is answered. -/
def accepted : State :=
  { connecting with
    feeding := ["ahp-session:/s"], phase := .answered (.initialized 0 [⟨"ahp-session:/s", 0⟩]) }

/-- One envelope is pumped and one is lost, which is replayed. -/
def replaying : List Step :=
  [.commit, .emit "ahp-session:/s", .receive, .pump, .emit "ahp-session:/s", .closeTransport,
    .beginReconnect, .torn, .openHost, .hostReplays [], .commit]

def replayed : State :=
  { accepted with
    hostSeq := 2
    log := [⟨"ahp-session:/s", 1⟩, ⟨"ahp-session:/s", 2⟩]
    phase := .up
    isReconnect := true
    serverSeq := 2
    published := [.action ⟨"ahp-session:/s", 2⟩, .action ⟨"ahp-session:/s", 1⟩] }

theorem published_without_gap_replay :
    runs step (added (some ["ahp-session:/s"])) [.openHost] = some connecting ∧
      connecting.step (.hostAccepts [⟨"ahp-session:/s", 0⟩]) = some accepted ∧
      runs step accepted replaying = some replayed ∧
      Unbroken replayed.log "ahp-session:/s" accepted.hostSeq replayed.published :=
  have hopen : runs step (added (some ["ahp-session:/s"])) [.openHost] = some connecting := by decide
  have haccepts : connecting.step (.hostAccepts [⟨"ahp-session:/s", 0⟩]) = some accepted := by decide
  have hreplays : runs step accepted replaying = some replayed := by decide
  ⟨hopen, haccepts, hreplays,
    (published_without_gap hopen haccepts (by decide) (by decide) (by decide) hreplays).2.1⟩

/-- An envelope is lost, and the reconnect is refused. -/
def refused : List Step :=
  [.commit, .emit "ahp-session:/s", .closeTransport, .beginReconnect, .torn, .openHost, .hostRefuses,
    .hostAccepts [⟨"ahp-session:/s", 1⟩], .commit, .emit "ahp-session:/s", .receive, .pump]

/-- The second envelope is the first that is published, and no snapshot is. -/
def skipped : State :=
  { replayed with published := [.action ⟨"ahp-session:/s", 2⟩] }

theorem initialize_skips_envelope :
    runs step (added (some ["ahp-session:/s"])) [.openHost] = some connecting ∧
      connecting.step (.hostAccepts [⟨"ahp-session:/s", 0⟩]) = some accepted ∧
      Guarded step (Stays "ahp-session:/s") accepted refused ∧ runs step accepted refused = some skipped ∧
      ¬ Unbroken skipped.log "ahp-session:/s" accepted.hostSeq skipped.published := by
  refine ⟨by decide, by decide, by decide, by decide, fun h => ?_⟩
  have hcovered := h.1 rfl ⟨"ahp-session:/s", 1⟩ (by decide) rfl (by decide) (by decide)
  rcases hcovered with hmem | ⟨snapshot, hmem, -⟩ <;> cases hmem

end State

end AgentHostProtocol.Dotnet.Hosts.Reconnects
