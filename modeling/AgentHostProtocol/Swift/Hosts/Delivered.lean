import AgentHostProtocol.Swift.Hosts.Publication
import Mathlib.Order.Nat

/-!
# What the Swift runtime passes on

What is to come on a connection, `upcoming`, is in order and later than the shared number, and
what was passed on is not later than it. The pump of a connection that ended keeps both as long
as no handshake has read the number; after that the handshake writes back a number that the pump
has passed, and replays what the pump has passed on.

* `passed_once_in_order` — every envelope is passed on at most once and in order, and the number
  is never smaller than that of an envelope passed on, in every run in which no pump of a
  connection that ended takes an event once a handshake has read the number, or goes on once the
  next client is installed.
* `pump_races_handshake` — otherwise an envelope may be passed on twice and the number go back.
-/

namespace AgentHostProtocol.Swift.Hosts

open Library

namespace State

/-! ### Numbers in order -/

variable {lo mid hi n : ℕ} {ns ms : List ℕ}

theorem later_nil (lo hi : ℕ) : Later lo hi [] := ⟨List.Pairwise.nil, nofun⟩

theorem Later.sublist (h : Later lo hi ns) (hms : ms.Sublist ns) : Later lo hi ms :=
  ⟨h.1.sublist hms, fun n hn => h.2 n (hms.subset hn)⟩

theorem Later.tail (h : Later lo hi (n :: ns)) : lo < n ∧ n ≤ hi ∧ Later n hi ns := by
  obtain ⟨hlt, hsorted⟩ := List.pairwise_cons.mp h.1
  obtain ⟨hlo, hhi⟩ := h.2 n List.mem_cons_self
  exact ⟨hlo, hhi, hsorted, fun m hm => ⟨hlt m hm, (h.2 m (List.mem_cons_of_mem _ hm)).2⟩⟩

/-- The next number comes last. -/
theorem Later.concat (h : Later lo hi ns) (hle : lo ≤ hi) : Later lo (hi + 1) (ns ++ [hi + 1]) := by
  refine ⟨List.pairwise_append.mpr ⟨h.1, List.pairwise_singleton _ _, fun a ha b hb => ?_⟩, ?_⟩
  · have hlast := (h.2 a ha).2
    rw [List.mem_singleton.mp hb]
    omega
  · intro m hm
    rcases List.mem_append.mp hm with hm | hm
    · have hmem := h.2 m hm
      omega
    · rw [List.mem_singleton.mp hm]
      omega

theorem Later.succ (h : Later lo hi ns) : Later lo (hi + 1) ns :=
  ⟨h.1, fun n hn => ⟨(h.2 n hn).1, Nat.le_succ_of_le (h.2 n hn).2⟩⟩

/-- The number after some others. -/
def raised (serverSeq : ℕ) (ns : List ℕ) : ℕ := ns.foldl raise serverSeq

theorem le_raise (serverSeq n : ℕ) : serverSeq ≤ raise serverSeq n := by
  unfold raise
  split <;> omega

theorem raise_of_lt {serverSeq : ℕ} (h : serverSeq < n) : raise serverSeq n = n := if_pos h

theorem raise_le {serverSeq : ℕ} (h : serverSeq ≤ hi) (hn : n ≤ hi) : raise serverSeq n ≤ hi := by
  unfold raise
  split <;> assumption

theorem le_raised (serverSeq : ℕ) (ns : List ℕ) : serverSeq ≤ raised serverSeq ns := by
  induction ns generalizing serverSeq with
  | nil => exact le_rfl
  | cons n ns ih => exact (le_raise serverSeq n).trans (ih _)

theorem raised_le {serverSeq : ℕ} (h : serverSeq ≤ hi) (hns : ∀ n ∈ ns, n ≤ hi) :
    raised serverSeq ns ≤ hi := by
  induction ns generalizing serverSeq with
  | nil => exact h
  | cons n ns ih =>
    exact ih (raise_le h (hns n List.mem_cons_self)) fun m hm => hns m (List.mem_cons_of_mem _ hm)

theorem foldl_applyAction (s : State) (ns : List ℕ) :
    ns.foldl applyAction s = { s with serverSeq := raised s.serverSeq ns } := by
  induction ns generalizing s with
  | nil => rfl
  | cons n ns ih => exact ih _

/-! ### The invariant -/

/-- What the result has, ahead of the stream. -/
def Phase.actions : Phase → List ℕ
  | .answered _ (.replay actions) | .replaying actions _ => actions
  | _ => []

/-- The number that the stream starts from. -/
def base (s : State) : ℕ :=
  match s.phase with
  | .answered _ (.initialized serverSeq) => serverSeq
  | .answered _ (.snapshot fromSeqs) | .snapshotting fromSeqs => raised s.serverSeq fromSeqs
  | _ => s.serverSeq

/-- What is to come on the connection. -/
def upcoming (s : State) : List ℕ := Phase.actions s.phase ++ (s.pump.stream ++ s.wire)

/-- The number that the handshake has read. -/
def Phase.priorSeq? : Phase → Option ℕ
  | .reconnecting priorSeq | .initializing priorSeq | .answered priorSeq _ => some priorSeq
  | _ => none

/-- The handshake is not answered. -/
def Phase.unanswered : Phase → Bool
  | .absent | .reconnecting _ | .initializing _ => true
  | _ => false

/-- The client is installed. -/
def Phase.installed : Phase → Bool
  | .replaying _ _ | .snapshotting _ | .connected => true
  | _ => false

theorem Phase.not_installed_of_unanswered {phase : Phase} (h : Phase.unanswered phase) :
    ¬ Phase.installed phase := by
  cases phase <;> simp_all [Phase.unanswered, Phase.installed]

/-- The envelope that is applied and not passed on. -/
def held (s : State) : Option ℕ :=
  match s.phase with
  | .replaying _ held => held
  | .connected => s.pump.held
  | _ => s.draining.held

/-- The invariant. -/
structure Inv (s : State) : Prop where
  sorted : s.fanOut.Pairwise (· < ·)
  passed : ∀ n ∈ s.fanOut, n ≤ s.serverSeq
  held : ∀ n ∈ s.held, n ≤ s.serverSeq ∧ ∀ m ∈ s.fanOut, m < n
  prior : ∀ n ∈ Phase.priorSeq? s.phase, n = s.serverSeq
  draining : Later s.serverSeq s.hostSeq s.draining.stream
  installed : Phase.installed s.phase → s.draining = .idle
  unanswered : Phase.unanswered s.phase → s.feeding = false ∧ s.wire = [] ∧ s.pump = .idle
  released : s.phase ≠ .connected → s.pump.held = none
  upcoming : Later s.base s.hostSeq s.upcoming
  base_le : s.serverSeq ≤ s.base ∧ s.base ≤ s.hostSeq

theorem inv_new (fanOutReplay : Bool) : Inv (new fanOutReplay) where
  sorted := List.Pairwise.nil
  passed n h := by cases h
  held n h := by cases h
  prior n h := by cases h
  draining := later_nil _ _
  installed h := by cases h
  unanswered _ := ⟨rfl, rfl, rfl⟩
  released _ := rfl
  upcoming := later_nil _ _
  base_le := ⟨le_rfl, le_rfl⟩

/-- The condition on a step: a pump of a connection that ended takes no event once the next
handshake has read the number, and does nothing once the next client is installed. -/
def Meets (s : State) : Step → Prop
  | .takeDraining => s.phase = .absent
  | .takeStale _ | .passStale _ => False
  | _ => True

instance (s : State) : ∀ a : Step, Decidable (Meets s a)
  | .takeDraining => inferInstanceAs (Decidable (s.phase = .absent))
  | .takeStale _ | .passStale _ => inferInstanceAs (Decidable False)
  | .connectOnce _ | .refuse | .abortConnect | .install | .applyReconnectResult | .connected
  | .endConnection | .take | .pass | .passDraining | .answer _ | .emit _ | .receive | .overflow
  | .closeTransport => inferInstanceAs (Decidable True)

variable {s s' : State}

theorem Inv.le_hostSeq (h : Inv s) : s.serverSeq ≤ s.hostSeq := h.base_le.1.trans h.base_le.2

/-! ### The handshake -/

/-- While no client is installed, what is held is held by the pump of the last connection. -/
theorem held_of_not_installed (hphase : ¬ Phase.installed s.phase) : s.held = s.draining.held := by
  unfold State.held
  split
  next hp => rw [hp] at hphase; exact absurd rfl hphase
  next hp => rw [hp] at hphase; exact absurd rfl hphase
  next => rfl

theorem Inv.held_draining (h : Inv s) (hphase : ¬ Phase.installed s.phase) :
    ∀ n ∈ s.draining.held, n ≤ s.serverSeq ∧ ∀ m ∈ s.fanOut, m < n :=
  held_of_not_installed hphase ▸ h.held

theorem Inv.connectOnce (h : Inv s) {subscribed : Bool} (hs : connectOnce s subscribed = some s') :
    Inv s' := by
  unfold State.connectOnce at hs
  split at hs
  next hphase =>
    have hheld := h.held_draining (by rw [hphase]; nofun)
    cases hs
    by_cases hreconnect : 0 < s.serverSeq ∧ subscribed = true
    · rw [if_pos hreconnect]
      exact ⟨h.sorted, h.passed, hheld, (fun n hn => by cases hn; rfl), h.draining, nofun,
        fun _ => ⟨rfl, rfl, rfl⟩, fun _ => rfl, later_nil _ _, le_rfl, h.le_hostSeq⟩
    · rw [if_neg hreconnect]
      exact ⟨h.sorted, h.passed, hheld, (fun n hn => by cases hn; rfl), h.draining, nofun,
        fun _ => ⟨rfl, rfl, rfl⟩, fun _ => rfl, later_nil _ _, le_rfl, h.le_hostSeq⟩
  next => cases hs

theorem Inv.refuse (h : Inv s) (hs : refuse s = some s') : Inv s' := by
  unfold State.refuse at hs
  split at hs
  next priorSeq hphase =>
    have hheld := h.held_draining (by rw [hphase]; nofun)
    have hquiet := h.unanswered (by rw [hphase]; rfl)
    have hprior := h.prior priorSeq (by rw [hphase]; rfl)
    have hreleased := h.released (by rw [hphase]; nofun)
    have hupcoming : s.pump.stream ++ s.wire = [] := by rw [hquiet.2.1, hquiet.2.2]; rfl
    cases hs
    refine ⟨h.sorted, h.passed, hheld, (fun n hn => by cases hn; exact hprior), h.draining, nofun,
      fun _ => hquiet, fun _ => hreleased, ?_, le_rfl, h.le_hostSeq⟩
    show Later s.serverSeq s.hostSeq ([] ++ (s.pump.stream ++ s.wire))
    rw [hupcoming]
    exact later_nil _ _
  next => cases hs

/-- A connection attempt that fails. -/
theorem Inv.abandoned (h : Inv s) (hphase : ¬ Phase.installed s.phase) :
    Inv { s with phase := .absent, feeding := false, wire := [], pump := .idle } :=
  ⟨h.sorted, h.passed, h.held_draining hphase, nofun, h.draining, nofun, fun _ => ⟨rfl, rfl, rfl⟩,
    fun _ => rfl, later_nil _ _, le_rfl, h.le_hostSeq⟩

theorem Inv.abortConnect (h : Inv s) (hs : abortConnect s = some s') : Inv s' := by
  unfold State.abortConnect at hs
  split at hs
  next hphase => cases hs; exact h.abandoned (by rw [hphase]; nofun)
  next hphase => cases hs; exact h.abandoned (by rw [hphase]; nofun)
  next => cases hs

/-- The host answers a handshake that has read the number. -/
theorem Inv.answered (h : Inv s) {priorSeq : ℕ} (hunanswered : Phase.unanswered s.phase)
    (hprior : priorSeq = s.serverSeq) {result : HandshakeResult}
    (hbase : s.serverSeq ≤ base { s with phase := .answered priorSeq result } ∧
      base { s with phase := .answered priorSeq result } ≤ s.hostSeq)
    (hactions : Later (base { s with phase := .answered priorSeq result }) s.hostSeq
      (Phase.actions (.answered priorSeq result))) :
    Inv { s with phase := .answered priorSeq result, feeding := true } := by
  have hinstalled := Phase.not_installed_of_unanswered hunanswered
  obtain ⟨-, hwire, hpump⟩ := h.unanswered hunanswered
  refine ⟨h.sorted, h.passed, h.held_draining hinstalled, (fun n hn => by cases hn; exact hprior),
    h.draining, nofun, nofun, fun _ => by rw [hpump]; rfl, ?_, hbase⟩
  show Later _ _ (Phase.actions (.answered priorSeq result) ++ (s.pump.stream ++ s.wire))
  rw [hwire, hpump, List.append_nil]
  show Later _ _ (Phase.actions (.answered priorSeq result) ++ [])
  rw [List.append_nil]
  exact hactions

theorem Inv.answer (h : Inv s) {result : HandshakeResult} (hs : answer s result = some s') : Inv s' := by
  unfold State.answer at hs
  split at hs
  next priorSeq serverSeq hphase =>
    have hprior := h.prior priorSeq (by rw [hphase]; rfl)
    split at hs
    next heq =>
      cases hs
      refine h.answered (by rw [hphase]; rfl) hprior ⟨?_, ?_⟩ (later_nil _ _)
      · exact h.le_hostSeq.trans heq.ge
      · exact heq.le
    next => cases hs
  next priorSeq actions hphase =>
    have hprior := h.prior priorSeq (by rw [hphase]; rfl)
    split at hs
    next hlater =>
      cases hs
      exact h.answered (by rw [hphase]; rfl) hprior ⟨le_rfl, h.le_hostSeq⟩ (hprior ▸ hlater)
    next => cases hs
  next priorSeq fromSeqs hphase =>
    have hprior := h.prior priorSeq (by rw [hphase]; rfl)
    split at hs
    next hle =>
      cases hs
      refine h.answered (by rw [hphase]; rfl) hprior ⟨le_raised _ _, ?_⟩ (later_nil _ _)
      exact raised_le h.le_hostSeq hle
    next => cases hs
  next => cases hs

/-- The client is installed: the number is the one that the handshake has read, or a later one. -/
theorem Inv.install (h : Inv s) (hs : install s = some s') : Inv s' := by
  unfold State.install at hs
  have hupcoming := h.upcoming
  have hbase := h.base_le
  have hprior := h.prior
  unfold State.upcoming State.base at hupcoming
  unfold State.base at hbase
  have hreleased := h.released
  split at hs
  next priorSeq serverSeq hphase =>
    rw [hphase] at hupcoming hbase hreleased
    cases hs
    exact ⟨h.sorted, fun n hn => (h.passed n hn).trans hbase.1, nofun, nofun, later_nil _ _, fun _ => rfl,
      nofun, fun _ => hreleased nofun, hupcoming, le_rfl, hbase.2⟩
  next priorSeq actions hphase =>
    rw [hphase] at hupcoming hbase hreleased hprior
    obtain rfl := hprior priorSeq rfl
    cases hs
    exact ⟨h.sorted, h.passed, nofun, nofun, later_nil _ _, fun _ => rfl, nofun,
      fun _ => hreleased nofun, hupcoming, le_rfl, h.le_hostSeq⟩
  next priorSeq fromSeqs hphase =>
    rw [hphase] at hupcoming hbase hreleased hprior
    obtain rfl := hprior priorSeq rfl
    cases hs
    exact ⟨h.sorted, h.passed, nofun, nofun, later_nil _ _, fun _ => rfl, nofun,
      fun _ => hreleased nofun, hupcoming, hbase⟩
  next => cases hs

/-- A number that is applied next is later than all that was passed on. -/
theorem Inv.lt_of_upcoming (h : Inv s) {n : ℕ} (hn : s.serverSeq < n) : ∀ m ∈ s.fanOut, m < n :=
  fun m hm => (h.passed m hm).trans_lt hn

/-- An envelope that is held is passed on. -/
theorem Inv.pass_fanOut (h : Inv s) {n : ℕ} (hn : n ∈ s.held) :
    (s.fanOut ++ [n]).Pairwise (· < ·) ∧ ∀ m ∈ s.fanOut ++ [n], m ≤ s.serverSeq := by
  obtain ⟨hle, hlt⟩ := h.held n hn
  refine ⟨List.pairwise_append.mpr ⟨h.sorted, List.pairwise_singleton _ _, fun a ha b hb => ?_⟩, ?_⟩
  · rw [List.mem_singleton.mp hb]
    exact hlt a ha
  · intro m hm
    rcases List.mem_append.mp hm with hm | hm
    · exact h.passed m hm
    · rw [List.mem_singleton.mp hm]
      exact hle

theorem Inv.applyReconnectResult (h : Inv s) (hs : applyReconnectResult s = some s') : Inv s' := by
  unfold State.applyReconnectResult at hs
  have hupcoming := h.upcoming
  have hbase := h.base_le
  unfold State.upcoming State.base at hupcoming
  unfold State.base at hbase
  have hreleased := h.released
  split at hs
  next n actions hphase =>
    rw [hphase] at hupcoming hreleased
    obtain ⟨hlo, hhi, htail⟩ := Later.tail hupcoming
    have hseq : raise s.serverSeq n = n := raise_of_lt hlo
    have hdraining := h.installed (by rw [hphase]; rfl)
    cases hs
    unfold applyAction
    rw [hseq]
    refine ⟨h.sorted, fun m hm => (h.lt_of_upcoming hlo m hm).le, fun m hm => ?_, nofun, ?_,
      fun _ => hdraining, nofun, fun _ => hreleased nofun, htail, le_rfl, hhi⟩
    · change m ∈ (if s.fanOutReplay = true then some n else none) at hm
      split at hm
      next =>
        cases hm
        exact ⟨le_rfl, h.lt_of_upcoming hlo⟩
      next => cases hm
    · show Later _ _ s.draining.stream
      rw [hdraining]
      exact later_nil _ _
  next actions n hphase =>
    obtain ⟨hsorted, hpassed⟩ := h.pass_fanOut (n := n) (by unfold State.held; rw [hphase]; rfl)
    rw [hphase] at hupcoming hreleased
    have hdraining := h.installed (by rw [hphase]; rfl)
    cases hs
    exact ⟨hsorted, hpassed, nofun, nofun, h.draining, fun _ => hdraining, nofun,
      fun _ => hreleased nofun, hupcoming, le_rfl, h.le_hostSeq⟩
  next fromSeqs hphase =>
    rw [hphase] at hupcoming hbase hreleased
    have hdraining := h.installed (by rw [hphase]; rfl)
    cases hs
    rw [foldl_applyAction]
    refine ⟨h.sorted, fun n hn => (h.passed n hn).trans hbase.1, nofun, nofun, ?_, fun _ => hdraining,
      nofun, fun _ => hreleased nofun, hupcoming, le_rfl, hbase.2⟩
    show Later _ _ s.draining.stream
    rw [hdraining]
    exact later_nil _ _
  next => cases hs

theorem Inv.connected (h : Inv s) (hs : connected s = some s') : Inv s' := by
  unfold State.connected at hs
  split at hs
  next hphase =>
    have hreleased := h.released (by rw [hphase]; nofun)
    have hdraining := h.installed (by rw [hphase]; rfl)
    have hupcoming := h.upcoming
    unfold State.upcoming State.base at hupcoming
    rw [hphase] at hupcoming
    cases hs
    refine ⟨h.sorted, h.passed, fun n hn => ?_, nofun, h.draining, fun _ => hdraining, nofun,
      fun hne => absurd rfl hne, hupcoming, le_rfl, h.le_hostSeq⟩
    change n ∈ s.pump.held at hn
    rw [hreleased] at hn
    cases hn
  next => cases hs

/-- The connection ends: its pump has the events that were to come. -/
theorem Inv.endConnection (h : Inv s) (hs : endConnection s = some s') : Inv s' := by
  unfold State.endConnection at hs
  split at hs
  next hphase =>
    have hheld := h.held
    have hupcoming := h.upcoming
    unfold State.held at hheld
    unfold State.upcoming State.base at hupcoming
    rw [hphase] at hheld hupcoming
    cases hs
    exact ⟨h.sorted, h.passed, hheld, nofun, hupcoming.sublist (List.sublist_append_left _ _), nofun,
      fun _ => ⟨rfl, rfl, rfl⟩, fun _ => rfl, later_nil _ _, le_rfl, h.le_hostSeq⟩
  next => cases hs

/-! ### The pumps -/

/-- The next event is later than what was applied. -/
theorem take_eq_some {p p' : Pump} (hp : Pump.take p = some (p', n)) :
    p.stream = n :: p'.stream ∧ p'.held = some n := by
  unfold Pump.take at hp
  split at hp
  next stream hheld hstream =>
    cases hp
    exact ⟨hstream, rfl⟩
  next => cases hp

theorem pass_eq_some {p p' : Pump} (hp : Pump.pass p = some (p', n)) :
    p.held = some n ∧ p'.stream = p.stream ∧ p'.held = none := by
  unfold Pump.pass at hp
  split at hp
  next hheld =>
    cases hp
    exact ⟨hheld, rfl, rfl⟩
  next => cases hp

theorem Inv.take (h : Inv s) (hs : take s = some s') : Inv s' := by
  unfold State.take at hs
  split at hs
  next hphase =>
    obtain ⟨⟨p, n⟩, hp, rfl⟩ := Option.map_eq_some_iff.mp hs
    obtain ⟨hstream, hheld⟩ := take_eq_some hp
    have hupcoming := h.upcoming
    unfold State.upcoming State.base at hupcoming
    rw [hphase, hstream] at hupcoming
    obtain ⟨hlo, hhi, htail⟩ := Later.tail hupcoming
    have hseq : raise s.serverSeq n = n := raise_of_lt hlo
    have hdraining := h.installed (by rw [hphase]; rfl)
    have hidle : s.draining.stream = [] := by rw [hdraining]; rfl
    show Inv { s with serverSeq := raise s.serverSeq n, pump := p }
    rw [hseq]
    refine ⟨h.sorted, fun m hm => (h.lt_of_upcoming hlo m hm).le, fun m hm => ?_, fun m hm => ?_, ?_,
      fun _ => hdraining, fun hu => ?_, fun hne => absurd hphase hne, ?_, ?_⟩
    · unfold State.held at hm
      rw [hphase] at hm
      change m ∈ p.held at hm
      rw [hheld] at hm
      cases hm
      exact ⟨le_rfl, h.lt_of_upcoming hlo⟩
    · rw [hphase] at hm
      cases hm
    · show Later _ _ s.draining.stream
      rw [hidle]
      exact later_nil _ _
    · rw [hphase] at hu
      cases hu
    · unfold State.upcoming State.base
      rw [hphase]
      exact htail
    · unfold State.base
      rw [hphase]
      exact ⟨le_rfl, hhi⟩
  next => cases hs

theorem Inv.pass (h : Inv s) (hs : pass s = some s') : Inv s' := by
  unfold State.pass at hs
  split at hs
  next hphase =>
    obtain ⟨⟨p, n⟩, hp, rfl⟩ := Option.map_eq_some_iff.mp hs
    obtain ⟨hheld, hstream, hnone⟩ := pass_eq_some hp
    obtain ⟨hsorted, hpassed⟩ := h.pass_fanOut (n := n) (by unfold State.held; rw [hphase]; exact hheld)
    have hupcoming := h.upcoming
    refine ⟨hsorted, hpassed, fun m hm => ?_, h.prior, h.draining, h.installed, fun hu => ?_,
      fun hne => absurd hphase hne, ?_, h.base_le⟩
    · unfold State.held at hm
      rw [hphase] at hm
      change m ∈ p.held at hm
      rw [hnone] at hm
      cases hm
    · rw [hphase] at hu
      cases hu
    · unfold State.upcoming at hupcoming ⊢
      show Later _ _ (Phase.actions s.phase ++ (p.stream ++ s.wire))
      rw [hstream]
      exact hupcoming
  next => cases hs

/-- The pump of the last connection takes an event before the next handshake reads the number. -/
theorem Inv.takeDraining (h : Inv s) (hphase : s.phase = .absent) (hs : takeDraining s = some s') :
    Inv s' := by
  unfold State.takeDraining at hs
  obtain ⟨⟨p, n⟩, hp, rfl⟩ := Option.map_eq_some_iff.mp hs
  obtain ⟨hstream, hheld⟩ := take_eq_some hp
  have hdraining := h.draining
  rw [hstream] at hdraining
  obtain ⟨hlo, hhi, htail⟩ := Later.tail hdraining
  have hquiet := h.unanswered (by rw [hphase]; rfl)
  have hseq : raise s.serverSeq n = n := raise_of_lt hlo
  show Inv { s with serverSeq := raise s.serverSeq n, draining := p }
  rw [hseq]
  refine ⟨h.sorted, fun m hm => (h.lt_of_upcoming hlo m hm).le, fun m hm => ?_, fun m hm => ?_, htail,
    fun hi => ?_, fun _ => hquiet, h.released, ?_, ?_⟩
  · unfold State.held at hm
    rw [hphase] at hm
    change m ∈ p.held at hm
    rw [hheld] at hm
    cases hm
    exact ⟨le_rfl, h.lt_of_upcoming hlo⟩
  · rw [hphase] at hm
    cases hm
  · rw [hphase] at hi
    cases hi
  · unfold State.upcoming
    show Later _ _ (Phase.actions s.phase ++ (s.pump.stream ++ s.wire))
    rw [hphase, hquiet.2.1, hquiet.2.2]
    exact later_nil _ _
  · unfold State.base
    rw [hphase]
    exact ⟨le_rfl, hhi⟩

/-- What the pump of the last connection holds is passed on before the next client is installed. -/
theorem Inv.passDraining (h : Inv s) (hs : passDraining s = some s') : Inv s' := by
  unfold State.passDraining at hs
  obtain ⟨⟨p, n⟩, hp, rfl⟩ := Option.map_eq_some_iff.mp hs
  obtain ⟨hheld, hstream, hnone⟩ := pass_eq_some hp
  have hinstalled : ¬ Phase.installed s.phase := by
    intro hi
    rw [h.installed hi] at hheld
    cases hheld
  have hempty : State.held { s with draining := p, fanOut := s.fanOut ++ [n] } = none :=
    (held_of_not_installed (s := { s with draining := p, fanOut := s.fanOut ++ [n] }) hinstalled).trans
      hnone
  obtain ⟨hsorted, hpassed⟩ := h.pass_fanOut (n := n) (held_of_not_installed hinstalled ▸ hheld)
  refine ⟨hsorted, hpassed, fun m hm => ?_, h.prior, ?_, fun hi => absurd hi hinstalled, h.unanswered,
    h.released, h.upcoming, h.base_le⟩
  · change m ∈ State.held { s with draining := p, fanOut := s.fanOut ++ [n] } at hm
    rw [hempty] at hm
    cases hm
  · show Later _ _ p.stream
    rw [hstream]
    exact h.draining

/-! ### The host and the wire -/

/-- Some of what was to come does not come. -/
theorem Inv.lose (h : Inv s) {feeding : Bool} (stream wire : List ℕ)
    (hfeeding : feeding = true → s.feeding = true)
    (hlost : (stream ++ wire).Sublist (s.pump.stream ++ s.wire)) :
    Inv { s with feeding := feeding, pump := { s.pump with stream := stream }, wire := wire } := by
  refine ⟨h.sorted, h.passed, h.held, h.prior, h.draining, h.installed, fun hu => ?_, h.released, ?_,
    h.base_le⟩
  · obtain ⟨hunfed, hwire, hpump⟩ := h.unanswered hu
    rw [hwire, hpump] at hlost
    have hnil := List.eq_nil_of_sublist_nil hlost
    obtain ⟨rfl, rfl⟩ := List.append_eq_nil_iff.mp hnil
    refine ⟨?_, rfl, by rw [hpump]; rfl⟩
    cases feeding
    · rfl
    · rw [hfeeding rfl] at hunfed
      cases hunfed
  · exact h.upcoming.sublist (hlost.append_left _)

theorem Inv.overflow (h : Inv s) : Inv (overflow s) :=
  h.lose s.pump.stream.tail s.wire id
    ((List.tail_sublist _).append_right _)

theorem Inv.closeTransport (h : Inv s) : Inv (closeTransport s) :=
  h.lose s.pump.stream [] nofun (List.nil_sublist _ |>.append_left _)

theorem Inv.receive (h : Inv s) (hs : receive s = some s') : Inv s' := by
  unfold State.receive at hs
  split at hs
  next n wire hwire =>
    cases hs
    have hsame : (s.pump.stream ++ [n]) ++ wire = s.pump.stream ++ s.wire := by
      rw [hwire, List.append_assoc]
      rfl
    exact h.lose (s.pump.stream ++ [n]) wire id (hsame ▸ List.Sublist.refl _)
  next => cases hs

/-- The host makes the next envelope. -/
theorem Inv.emit (h : Inv s) (sent : Bool) : Inv (emit s sent) := by
  have hbase := h.base_le
  refine ⟨h.sorted, h.passed, h.held, h.prior, h.draining.succ, h.installed, fun hu => ?_, h.released, ?_,
    hbase.1, Nat.le_succ_of_le hbase.2⟩
  · obtain ⟨hunfed, hwire, hpump⟩ := h.unanswered hu
    refine ⟨hunfed, ?_, hpump⟩
    show (if s.feeding = true ∧ sent = true then _ else _) = _
    rw [if_neg fun hf => by rw [hunfed] at hf; cases hf.1]
    exact hwire
  · show Later _ (s.hostSeq + 1) (Phase.actions s.phase ++ (s.pump.stream ++
      if s.feeding = true ∧ sent = true then s.wire ++ [s.hostSeq + 1] else s.wire))
    split
    next =>
      have hnext := h.upcoming.concat hbase.2
      unfold State.upcoming at hnext
      rwa [List.append_assoc, List.append_assoc] at hnext
    next => exact h.upcoming.succ

/-! ### Runs -/

theorem inv_step {a : Step} (h : Inv s) (ha : Meets s a) (hs : step s a = some s') : Inv s' := by
  cases a with
  | connectOnce subscribed => exact h.connectOnce hs
  | refuse => exact h.refuse hs
  | abortConnect => exact h.abortConnect hs
  | install => exact h.install hs
  | applyReconnectResult => exact h.applyReconnectResult hs
  | connected => exact h.connected hs
  | endConnection => exact h.endConnection hs
  | take => exact h.take hs
  | pass => exact h.pass hs
  | takeDraining => exact h.takeDraining ha hs
  | passDraining => exact h.passDraining hs
  | takeStale i => exact absurd ha id
  | passStale i => exact absurd ha id
  | answer result => exact h.answer hs
  | emit sent => cases hs; exact h.emit sent
  | receive => exact h.receive hs
  | overflow => cases hs; exact h.overflow
  | closeTransport => cases hs; exact h.closeTransport

/-- **Once and in order**: what was passed to the fan-out is in order, without repetition, and not
later than the shared number, in every run that meets the condition. -/
theorem passed_once_in_order (fanOutReplay : Bool) {steps : List Step} {s : State}
    (hmeets : Guarded step Meets (new fanOutReplay) steps)
    (hrun : runs step (new fanOutReplay) steps = some s) :
    s.fanOut.Pairwise (· < ·) ∧ ∀ n ∈ s.fanOut, n ≤ s.serverSeq := by
  have hinv := runs_invariant step (fun h ha hs => inv_step h ha hs) (inv_new fanOutReplay) hmeets hrun
  exact ⟨hinv.sorted, hinv.passed⟩

/-- A runtime connects, and the connection ends with an envelope in its stream. -/
def endsWithEnvelope : List Step :=
  [.connectOnce true, .answer (.initialized 0), .install, .connected, .emit true, .receive, .take,
    .pass, .emit true, .receive, .endConnection]

/-- The host replays what it has sent after the first envelope. -/
def replaysEnvelope : List Step :=
  [.answer (.replay [2]), .install, .applyReconnectResult, .applyReconnectResult, .connected]

/-- The pump drops the envelope that it has left, and the host replays it. -/
theorem passed_once_in_order_replay :
    ∃ s, runs step (new true) (endsWithEnvelope ++ .connectOnce true :: replaysEnvelope) = some s ∧
      s.fanOut.Pairwise (· < ·) := by
  refine ⟨_, rfl, ?_⟩
  have hmeets : Guarded step Meets (new true) (endsWithEnvelope ++ .connectOnce true :: replaysEnvelope) := by
    decide +kernel
  exact (passed_once_in_order true hmeets rfl).1

/-- The pump goes on once the handshake has read the number: the handshake writes back a smaller
one than that of an envelope passed on, and the replay passes the envelope on again. -/
theorem pump_races_handshake :
    (∃ s, runs step (new true) (endsWithEnvelope ++ [.connectOnce true, .takeDraining, .passDraining,
        .answer (.replay [2]), .install]) = some s ∧ s.serverSeq = 1 ∧ s.fanOut = [1, 2]) ∧
      ∃ s, runs step (new true) (endsWithEnvelope ++ .connectOnce true :: .takeDraining ::
        .passDraining :: replaysEnvelope) = some s ∧ s.fanOut = [1, 2, 2] :=
  ⟨⟨_, rfl, rfl, rfl⟩, _, rfl, rfl⟩

end State

end AgentHostProtocol.Swift.Hosts
