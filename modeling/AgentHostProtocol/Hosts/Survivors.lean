import AgentHostProtocol.Library.Runs
import AgentHostProtocol.Wire.Values

/-!
# Subscriptions that survive a reconnect

What the TypeScript, Rust and Swift runtimes make of the result of `reconnect`, as far as the
subscriptions are concerned that they replay. A result says in one of two ways what the host
resumed: it lists the channels that are `missing`, or it has snapshots of those that are not. A
snapshot whose state has no fields may be left out, though, and all three runtimes take a channel
without a snapshot for one that was not resumed.

* `resumed_kept` — what the host resumed is kept and asked for again, in every run in which every
  snapshot result that is committed has a snapshot of each resumed channel.
* `commit_keeps_iff` — a commit keeps what the host resumed only then.
* `stateless_channel_pruned` — a channel without state is dropped, and not asked for again.
-/

namespace AgentHostProtocol.Hosts.Survivors

open Library

/-! ### Results -/

/-- `Snapshot`, without its state. -/
structure Snapshot where
  resource : URI
  fromSeq : ℕ
  deriving DecidableEq

/-- `ReconnectResult`. Of the actions only their numbers matter here. -/
inductive ReconnectResult where
  | replay (actions : List ℕ) (missing : List URI)
  | snapshot (snapshots : List Snapshot)
  deriving DecidableEq

/-- The shared state of a runtime that a handshake reads and writes. -/
structure Shared where
  serverSeq : ℕ
  subscriptions : List URI
  deriving DecidableEq

/-- `applyEnvelopeLocally`, `apply_action`, `applyAction`: the number goes up. -/
def raise (serverSeq n : ℕ) : ℕ := if serverSeq < n then n else serverSeq

/-- The number after the snapshots. -/
def raiseAll (serverSeq : ℕ) (snapshots : List Snapshot) : ℕ :=
  snapshots.foldl (fun seq snapshot => raise seq snapshot.fromSeq) serverSeq

/-- TypeScript: the end of `connectOnce`. -/
def connectOnceResult (prior shared : Shared) : ReconnectResult → Shared
  | .replay actions missing =>
    { serverSeq := actions.foldl raise (raise shared.serverSeq prior.serverSeq)
      subscriptions :=
        if missing = [] then shared.subscriptions
        else shared.subscriptions.filter fun u => u ∉ missing }
  | .snapshot snapshots =>
    let surviving := snapshots.map (·.resource)
    { serverSeq := raise shared.serverSeq (raiseAll prior.serverSeq snapshots)
      subscriptions :=
        shared.subscriptions.filter fun u => u ∈ surviving ∨ u ∉ prior.subscriptions }

/-- Rust: `apply_reconnect_result`, after `connect_once` has installed the client. -/
def applyReconnectResult (prior shared : Shared) : ReconnectResult → Shared
  | .replay actions missing =>
    { serverSeq := actions.foldl raise (raise shared.serverSeq prior.serverSeq)
      subscriptions :=
        if missing = [] then shared.subscriptions
        else shared.subscriptions.filter fun u => u ∉ missing }
  | .snapshot snapshots =>
    let surviving := snapshots.map (·.resource)
    { serverSeq := raiseAll (raise shared.serverSeq prior.serverSeq) snapshots
      subscriptions :=
        shared.subscriptions.filter fun u => u ∈ surviving ∨ u ∉ prior.subscriptions }

/-- Swift: `applyReconnectResult`, after `completeHandshake` has written the number that it read
before the handshake. -/
def applyReconnectResultSwift (prior shared : Shared) : ReconnectResult → Shared
  | .replay actions missing =>
    { serverSeq := actions.foldl raise prior.serverSeq
      subscriptions :=
        if missing = [] then shared.subscriptions
        else shared.subscriptions.filter fun u => u ∉ missing }
  | .snapshot snapshots =>
    let surviving := snapshots.map (·.resource)
    { serverSeq := raiseAll prior.serverSeq snapshots
      subscriptions :=
        shared.subscriptions.filter fun u => ¬(u ∈ prior.subscriptions ∧ u ∉ surviving) }

/-- The three runtimes. -/
inductive Runtime where
  | typeScript
  | rust
  | swift
  deriving DecidableEq

/-- What a runtime makes of a result. -/
def Runtime.apply : Runtime → Shared → Shared → ReconnectResult → Shared
  | .typeScript => connectOnceResult
  | .rust => applyReconnectResult
  | .swift => applyReconnectResultSwift

/-- The number after `initialize`: Swift writes it, the others do not go back. -/
def Runtime.initialSeq : Runtime → Shared → ℕ → ℕ
  | .typeScript, shared, serverSeq | .rust, shared, serverSeq => raise shared.serverSeq serverSeq
  | .swift, _, serverSeq => serverSeq

/-! ### State -/

/-- Where a connection attempt is. -/
inductive Phase where
  | absent
  | reconnecting (prior : Shared)
  | initializing (prior : Shared)
  | reconnected (prior : Shared) (result : ReconnectResult)
  | initialized (serverSeq : ℕ)
  | connected
  deriving DecidableEq

/-- A runtime and what its host resumed last. -/
structure System where
  shared : Shared
  phase : Phase
  /-- The channels that the host resumed in its last answer to `reconnect`. -/
  resumed : List URI
  deriving DecidableEq

/-- A runtime that was not connected yet. -/
def System.new (initialSubscriptions : List URI) : System where
  shared := { serverSeq := 0, subscriptions := initialSubscriptions }
  phase := .absent
  resumed := []

/-! ### Steps -/

/-- A call of `subscribe` records its channel. -/
def trackSubscription (s : System) (uri : URI) : System :=
  if uri ∈ s.shared.subscriptions then s
  else { s with shared := { s.shared with subscriptions := s.shared.subscriptions ++ [uri] } }

/-- A connection attempt sends its handshake, which is made from the shared state. -/
def connectOnce (s : System) : Option System :=
  match s.phase with
  | .absent =>
    if 0 < s.shared.serverSeq ∧ s.shared.subscriptions ≠ [] then
      some { s with phase := .reconnecting s.shared }
    else some { s with phase := .initializing s.shared }
  | _ => none

/-- The host answers with a replay. -/
def answerReplay (s : System) (actions : List ℕ) (missing : List URI) : Option System :=
  match s.phase with
  | .reconnecting prior =>
    some
      { s with
        phase := .reconnected prior (.replay actions missing)
        resumed := prior.subscriptions.filter fun u => u ∉ missing }
  | _ => none

/-- The host resumes some of the channels and sends their snapshots. It may leave out a channel
whose state has no fields. -/
def answerSnapshot (hasFields : URI → Bool) (s : System) (resumed : List URI)
    (snapshots : List Snapshot) : Option System :=
  match s.phase with
  | .reconnecting prior =>
    if (∀ u ∈ resumed, u ∈ prior.subscriptions) ∧ (∀ snapshot ∈ snapshots, snapshot.resource ∈ resumed) ∧
        ∀ u ∈ resumed, hasFields u → u ∈ snapshots.map (·.resource) then
      some { s with phase := .reconnected prior (.snapshot snapshots), resumed := resumed }
    else none
  | _ => none

/-- The host answers `initialize`. -/
def answerInitialize (s : System) (serverSeq : ℕ) : Option System :=
  match s.phase with
  | .initializing _ => some { s with phase := .initialized serverSeq }
  | _ => none

/-- The result of the handshake is committed. -/
def commit (runtime : Runtime) (s : System) : Option System :=
  match s.phase with
  | .reconnected prior result =>
    some { s with phase := .connected, shared := runtime.apply prior s.shared result }
  | .initialized serverSeq =>
    some
      { s with
        phase := .connected
        shared := { s.shared with serverSeq := runtime.initialSeq s.shared serverSeq } }
  | _ => none

/-- An envelope arrives. -/
def hear (s : System) (serverSeq : ℕ) : System :=
  { s with shared := { s.shared with serverSeq := raise s.shared.serverSeq serverSeq } }

/-- One step of a runtime or its host. -/
inductive Step where
  | subscribe (uri : URI)
  | connectOnce
  | answerReplay (actions : List ℕ) (missing : List URI)
  | answerSnapshot (resumed : List URI) (snapshots : List Snapshot)
  | answerInitialize (serverSeq : ℕ)
  | commit
  | hear (serverSeq : ℕ)
  /-- The attempt fails, or the connection drops. -/
  | lose
  deriving DecidableEq

/-- The system after a step, `none` if the step cannot happen now. -/
def step (runtime : Runtime) (hasFields : URI → Bool) (s : System) : Step → Option System
  | .subscribe uri => some (trackSubscription s uri)
  | .connectOnce => connectOnce s
  | .answerReplay actions missing => answerReplay s actions missing
  | .answerSnapshot resumed snapshots => answerSnapshot hasFields s resumed snapshots
  | .answerInitialize serverSeq => answerInitialize s serverSeq
  | .commit => commit runtime s
  | .hear serverSeq => some (hear s serverSeq)
  | .lose => some { s with phase := .absent }

/-! ### What a result keeps -/

/-- The result lets the runtime know that a channel was resumed. -/
def ReconnectResult.Names : ReconnectResult → URI → Prop
  | .replay _ missing, u => u ∉ missing
  | .snapshot snapshots, u => u ∈ snapshots.map (·.resource)

instance : ∀ (result : ReconnectResult) (u : URI), Decidable (result.Names u)
  | .replay _ _, _ => inferInstanceAs (Decidable (¬ _))
  | .snapshot _, _ => inferInstanceAs (Decidable (_ ∈ _))

variable {runtime : Runtime} {hasFields : URI → Bool} {s s' : System} {prior shared : Shared}
  {result : ReconnectResult} {u : URI}

/-- A channel that was asked for is kept exactly if the result names it. -/
theorem mem_apply_iff (runtime : Runtime) (result : ReconnectResult) (hprior : u ∈ prior.subscriptions)
    (hshared : u ∈ shared.subscriptions) :
    u ∈ (runtime.apply prior shared result).subscriptions ↔ result.Names u := by
  cases result with
  | replay actions missing =>
    have hreplay : u ∈ (if missing = [] then shared.subscriptions
        else shared.subscriptions.filter fun u => u ∉ missing) ↔ u ∉ missing := by
      split
      next hnone =>
        rw [hnone]
        exact ⟨fun _ => List.not_mem_nil, fun _ => hshared⟩
      next => simp [hshared]
    cases runtime <;> exact hreplay
  | snapshot snapshots =>
    cases runtime <;>
      simp [Runtime.apply, connectOnceResult, applyReconnectResult, applyReconnectResultSwift,
        ReconnectResult.Names, hprior, hshared]

/-! ### Runs -/

/-- A snapshot result has a snapshot of every channel resumed. -/
def Phase.Complete (resumed : List URI) : Phase → Prop
  | .reconnected _ (.snapshot snapshots) => ∀ u ∈ resumed, u ∈ snapshots.map (·.resource)
  | _ => True

instance (resumed : List URI) : ∀ phase : Phase, Decidable (phase.Complete resumed)
  | .reconnected _ (.snapshot _) => inferInstanceAs (Decidable (∀ _ ∈ _, _))
  | .reconnected _ (.replay _ _) | .absent | .reconnecting _ | .initializing _ | .initialized _
  | .connected => inferInstanceAs (Decidable True)

/-- The condition on a step: the result that is committed is complete. -/
def Meets (s : System) : Step → Prop
  | .commit => s.phase.Complete s.resumed
  | _ => True

instance (s : System) : ∀ a : Step, Decidable (Meets s a)
  | .commit => inferInstanceAs (Decidable (s.phase.Complete _))
  | .subscribe _ | .connectOnce | .answerReplay _ _ | .answerSnapshot _ _ | .answerInitialize _
  | .hear _ | .lose => inferInstanceAs (Decidable True)

/-- The channels asked for by the handshake, while it is not committed. -/
def Phase.prior? : Phase → Option Shared
  | .reconnecting prior | .initializing prior | .reconnected prior _ => some prior
  | .absent | .initialized _ | .connected => none

/-- The invariant. -/
structure Inv (s : System) : Prop where
  kept : ∀ u ∈ s.resumed, u ∈ s.shared.subscriptions
  asked : ∀ prior ∈ s.phase.prior?,
    (∀ u ∈ s.resumed, u ∈ prior.subscriptions) ∧ ∀ u ∈ prior.subscriptions, u ∈ s.shared.subscriptions
  /-- A replay names what was resumed. -/
  named : ∀ prior actions missing, s.phase = .reconnected prior (.replay actions missing) →
    ∀ u ∈ s.resumed, u ∉ missing

theorem inv_new (initialSubscriptions : List URI) : Inv (System.new initialSubscriptions) where
  kept u hu := by cases hu
  asked prior h := by cases h
  named _ _ _ h := by cases h

theorem Inv.subscribe (h : Inv s) (uri : URI) : Inv (trackSubscription s uri) := by
  unfold trackSubscription
  split
  next => exact h
  next =>
    refine ⟨fun u hu => List.mem_append_left _ (h.kept u hu), fun prior hprior => ?_, h.named⟩
    obtain ⟨hresumed, hshared⟩ := h.asked prior hprior
    exact ⟨hresumed, fun u hu => List.mem_append_left _ (hshared u hu)⟩

theorem Inv.connectOnce (h : Inv s) (hs : connectOnce s = some s') : Inv s' := by
  have hasked : ∀ prior ∈ some s.shared, (∀ u ∈ s.resumed, u ∈ prior.subscriptions) ∧
      ∀ u ∈ prior.subscriptions, u ∈ s.shared.subscriptions := by
    rintro prior ⟨⟩
    exact ⟨h.kept, fun u hu => hu⟩
  unfold Survivors.connectOnce at hs
  split at hs
  next =>
    split at hs
    next => cases hs; exact ⟨h.kept, hasked, fun _ _ _ hphase => by cases hphase⟩
    next => cases hs; exact ⟨h.kept, hasked, fun _ _ _ hphase => by cases hphase⟩
  next => cases hs

theorem Inv.answerReplay (h : Inv s) {actions : List ℕ} {missing : List URI}
    (hs : answerReplay s actions missing = some s') : Inv s' := by
  unfold Survivors.answerReplay at hs
  split at hs
  next prior hphase =>
    cases hs
    obtain ⟨-, hshared⟩ := h.asked prior (by rw [hphase]; rfl)
    refine ⟨fun u hu => hshared u (List.mem_of_mem_filter hu), ?_, ?_⟩
    · rintro prior' ⟨⟩
      exact ⟨fun u hu => List.mem_of_mem_filter hu, hshared⟩
    · rintro prior' actions' missing' ⟨⟩ u hu
      exact of_decide_eq_true (List.mem_filter.mp hu).2
  next => cases hs

theorem Inv.answerSnapshot (h : Inv s) {resumed : List URI} {snapshots : List Snapshot}
    (hs : answerSnapshot hasFields s resumed snapshots = some s') : Inv s' := by
  unfold Survivors.answerSnapshot at hs
  split at hs
  next prior hphase =>
    split at hs
    next hresumed =>
      cases hs
      obtain ⟨-, hshared⟩ := h.asked prior (by rw [hphase]; rfl)
      refine ⟨fun u hu => hshared u (hresumed.1 u hu), ?_, fun _ _ _ hphase => by cases hphase⟩
      rintro prior' ⟨⟩
      exact ⟨hresumed.1, hshared⟩
    next => cases hs
  next => cases hs

theorem Inv.answerInitialize (h : Inv s) {serverSeq : ℕ}
    (hs : answerInitialize s serverSeq = some s') : Inv s' := by
  unfold Survivors.answerInitialize at hs
  split at hs
  next =>
    cases hs
    exact ⟨h.kept, (fun prior hprior => by cases hprior), fun _ _ _ hphase => by cases hphase⟩
  next => cases hs

/-- A commit keeps what the host resumed exactly if the condition is met. -/
theorem commit_keeps_iff (h : Inv s) (hs : commit runtime s = some s') :
    (∀ u ∈ s'.resumed, u ∈ s'.shared.subscriptions) ↔ Meets s .commit := by
  unfold commit at hs
  unfold Meets
  split at hs
  next prior result hphase =>
    cases hs
    obtain ⟨hresumed, -⟩ := h.asked prior (by rw [hphase]; rfl)
    have hiff : (∀ u ∈ s.resumed, u ∈ (runtime.apply prior s.shared result).subscriptions) ↔
        ∀ u ∈ s.resumed, result.Names u :=
      forall₂_congr fun u hu => mem_apply_iff runtime result (hresumed u hu) (h.kept u hu)
    refine hiff.trans ?_
    rw [hphase]
    cases result with
    | replay actions missing => exact iff_of_true (h.named _ _ _ hphase) trivial
    | snapshot snapshots => exact Iff.rfl
  next serverSeq hphase =>
    cases hs
    rw [hphase]
    exact iff_of_true h.kept trivial
  next => cases hs

theorem Inv.commit (h : Inv s) (hmeets : Meets s .commit) (hs : commit runtime s = some s') :
    Inv s' := by
  have hkept := (commit_keeps_iff h hs).mpr hmeets
  unfold Survivors.commit at hs
  split at hs
  next =>
    cases hs
    exact ⟨hkept, (fun prior hprior => by cases hprior), fun _ _ _ hphase => by cases hphase⟩
  next =>
    cases hs
    exact ⟨hkept, (fun prior hprior => by cases hprior), fun _ _ _ hphase => by cases hphase⟩
  next => cases hs

theorem inv_step {a : Step} (h : Inv s) (ha : Meets s a) (hs : step runtime hasFields s a = some s') :
    Inv s' := by
  cases a with
  | subscribe uri => cases hs; exact h.subscribe uri
  | connectOnce => exact h.connectOnce hs
  | answerReplay actions missing => exact h.answerReplay hs
  | answerSnapshot resumed snapshots => exact h.answerSnapshot hs
  | answerInitialize serverSeq => exact h.answerInitialize hs
  | commit => exact h.commit ha hs
  | hear serverSeq => cases hs; exact ⟨h.kept, h.asked, h.named⟩
  | lose =>
    cases hs
    exact ⟨h.kept, (fun prior hprior => by cases hprior), fun _ _ _ hphase => by cases hphase⟩

/-- **What the host resumed is kept**, and asked for by the next reconnect, in every run in which a
snapshot result that is committed has a snapshot of each channel resumed. -/
theorem resumed_kept (runtime : Runtime) (hasFields : URI → Bool) (initialSubscriptions : List URI)
    {steps : List Step} {s : System}
    (hmeets : Guarded (step runtime hasFields) Meets (System.new initialSubscriptions) steps)
    (hrun : runs (step runtime hasFields) (System.new initialSubscriptions) steps = some s) :
    ∀ u ∈ s.resumed, u ∈ s.shared.subscriptions ∧
      ∀ prior, s.phase = .reconnecting prior → u ∈ prior.subscriptions := by
  have hinv := runs_invariant (step runtime hasFields) (fun h ha hs => inv_step h ha hs)
    (inv_new initialSubscriptions) hmeets hrun
  intro u hu
  refine ⟨hinv.kept u hu, fun prior hphase => ?_⟩
  exact (hinv.asked prior (by rw [hphase]; rfl)).1 u hu

/-- The channels of a host: its log channel has no state. -/
def loggingHost (u : URI) : Bool := u ≠ "ahp-otlp://logs"

/-- A runtime connects, the connection drops, and the host answers the next handshake by
snapshots. -/
def reconnects (snapshots : List Snapshot) : List Step :=
  [.connectOnce, .answerInitialize 3, .commit, .lose, .connectOnce,
    .answerSnapshot ["ahp-session:/s", "ahp-otlp://logs"] snapshots, .commit]

/-- The state that a run ends in. -/
def afterReconnect (runtime : Runtime) (snapshots : List Snapshot) : Option System :=
  runs (step runtime loggingHost) (System.new ["ahp-session:/s", "ahp-otlp://logs"])
    (reconnects snapshots ++ [.lose, .connectOnce])

theorem resumed_kept_with_snapshots :
    ∃ s, afterReconnect .swift [⟨"ahp-session:/s", 5⟩, ⟨"ahp-otlp://logs", 5⟩] = some s ∧
      "ahp-otlp://logs" ∈ s.shared.subscriptions := by
  refine ⟨_, rfl, ?_⟩
  have hmeets : Guarded (step .swift loggingHost) Meets
      (System.new ["ahp-session:/s", "ahp-otlp://logs"])
      (reconnects [⟨"ahp-session:/s", 5⟩, ⟨"ahp-otlp://logs", 5⟩] ++ [.lose, .connectOnce]) := by
    decide +kernel
  exact (resumed_kept .swift loggingHost ["ahp-session:/s", "ahp-otlp://logs"] hmeets rfl
    "ahp-otlp://logs" (by decide)).1

/-- The snapshot of a channel without state is left out: the channel was resumed, and is neither
kept nor asked for by the next reconnect. -/
def Prunes (runtime : Runtime) : Prop :=
  ∃ s, afterReconnect runtime [⟨"ahp-session:/s", 5⟩] = some s ∧ "ahp-otlp://logs" ∈ s.resumed ∧
    "ahp-otlp://logs" ∉ s.shared.subscriptions ∧
    s.phase = .reconnecting { serverSeq := 5, subscriptions := ["ahp-session:/s"] }

/-- All three runtimes do so. -/
theorem stateless_channel_pruned :
    Prunes .typeScript ∧ Prunes .rust ∧ Prunes .swift := by
  refine ⟨⟨_, rfl, ?_⟩, ⟨_, rfl, ?_⟩, _, rfl, ?_⟩ <;> exact ⟨by decide, by decide, rfl⟩

end AgentHostProtocol.Hosts.Survivors
