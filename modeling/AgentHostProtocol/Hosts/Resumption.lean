import AgentHostProtocol.Hosts.Published

/-!
# Gap-free resumption

Whether a supervisor misses or repeats envelopes of its channels when it reconnects.

**What is proved** (`resumption_gap_free`): in every run in which the event queue does not
overflow, and in which a process of the host that the supervisor's `serverSeq` is not a number
of answers with a number at least as large, and replays only channels that emitted nothing up
to it, the envelopes are published in order and none twice; an envelope of a subscribed channel
has a number up to `serverSeq` exactly if it was published or came before the state the client
was last given; and on an open connection the events that were not handled yet are the
envelopes after `serverSeq`.

A process that starts over breaks this (`restart_skips_envelopes`): `connectOnce` takes the
number of the new process only if it is larger than the one it has from the old.
-/

namespace AgentHostProtocol.Hosts.Replay

open Library

/-! ### The run a supervisor follows -/

/-- A system with what its supervisor's number means. -/
structure Following where
  system : System
  /-- The process that `serverSeq` is a number of. -/
  known : ℕ
  /-- The number up to which the client was given state. -/
  base : ℕ
  deriving DecidableEq

/-- The start of a run. -/
def Following.new (bufferLimit : ℕ) (initialSubscriptions : List URI) : Following where
  system := System.new bufferLimit initialSubscriptions
  known := 0
  base := 0

/-- `reconnect` was answered by a replay. -/
def HandshakeResult.IsReplay : HandshakeResult → Prop
  | .replay _ _ _ => True
  | .initialized _ _ | .snapshot _ _ => False

instance : DecidablePred HandshakeResult.IsReplay
  | .replay _ _ _ => inferInstanceAs (Decidable True)
  | .initialized _ _ | .snapshot _ _ => inferInstanceAs (Decidable False)

/-- A step, and what a commit makes of the number: a replay goes on from the state the client
has, any other result gives it state. -/
def followStep (f : Following) (a : Step) : Option Following :=
  (step f.system a).map fun s =>
    match a, f.system.phase with
    | .commit, .refreshing prior result =>
      { system := s
        known := result.process
        base := if result.IsReplay then f.base else initServerSeq prior result }
    | _, _ => { f with system := s }

/-- A process that `serverSeq` is not a number of answers with a smaller number, or replays a
channel that it emitted on at or below it. -/
def Misnumbered (f : Following) : Step → Prop
  | .answer how =>
    how ≠ .refuse ∧ f.known ≠ f.system.process ∧
      (f.system.hostSeq < f.system.serverSeq ∨
        match how with
        | .replay missing => ∃ e ∈ f.system.log,
            e.channel ∈ f.system.subscriptions ∧ e.channel ∉ missing ∧ e.serverSeq ≤ f.system.serverSeq
        | _ => False)
  | _ => False

instance (f : Following) : DecidablePred (Misnumbered f)
  | .answer (.replay _) => inferInstanceAs (Decidable (_ ∧ _ ∧ (_ ∨ ∃ _ ∈ _, _)))
  | .answer .refuse | .answer .accept | .answer (.snapshot _) =>
    inferInstanceAs (Decidable (_ ∧ _ ∧ (_ ∨ False)))
  | .connectOnce | .commit | .abortConnect | .closeTransport | .handleEvent | .endConnection _
  | .receive | .emit _ | .restart => inferInstanceAs (Decidable False)

/-- An event is read while the queue is full. -/
def Overflows (f : Following) : Step → Prop
  | .receive =>
    match f.system.inbound with
    | .envelope _ :: _ => f.system.bufferLimit ≤ f.system.events.length
    | _ => False
  | _ => False

instance (f : Following) : DecidablePred (Overflows f)
  | .receive =>
    match h : f.system.inbound with
    | .envelope _ :: _ =>
      decidable_of_iff (f.system.bufferLimit ≤ f.system.events.length) (by simp [Overflows, h])
    | [] | .result _ :: _ | .refused :: _ => isFalse (by simp [Overflows, h])
  | .connectOnce | .commit | .abortConnect | .closeTransport | .handleEvent | .endConnection _
  | .answer _ | .emit _ | .restart => inferInstanceAs (Decidable False)

/-- What a run must avoid to be gap-free. -/
def InStep (f : Following) (a : Step) : Prop := ¬ Misnumbered f a ∧ ¬ Overflows f a

instance (f : Following) (a : Step) : Decidable (InStep f a) := inferInstanceAs (Decidable (_ ∧ _))

/-! ### Handshakes -/

variable {log : List Envelope} {channels : List URI} {serverSeq : ℕ}
variable {s s' : System} {pending : List Envelope} {known base : ℕ}
variable {prior : Prior} {result : HandshakeResult}

/-- A handshake was answered, and `pending` came after the answer. -/
structure Answered (s : System) (known : ℕ) (prior : Prior) (result : HandshakeResult)
    (pending : List Envelope) : Prop where
  prior_eq : prior = { serverSeq := s.serverSeq, subscriptions := s.subscriptions }
  known_le : known ≤ result.process
  process_le : result.process ≤ s.process
  start_ge : s.serverSeq ≤ initServerSeq prior result
  /-- A process that is new to the supervisor replays channels from their start. -/
  replayed : result.IsReplay → known ≠ result.process → result.process = s.process →
    ∀ e ∈ s.log, e.channel ∈ retained prior s.subscriptions result → initServerSeq prior result < e.serverSeq
  stream : Stream s result.process (retained prior s.subscriptions result) (initServerSeq prior result)
    (replayEnvelopes result ++ pending)

/-- A handshake that the client awaits the answer of. -/
inductive Awaiting (s : System) (known : ℕ) (prior : Prior) : Prop where
  | asked (request : Request) (hrequest : s.request = some request)
      (hfor : request = .reconnect prior.serverSeq prior.subscriptions ∨
        request = .initializing prior.subscriptions)
      (hinbound : s.inbound = []) (hfeeding : s.feeding = [])
  | refused (hrequest : s.request = none) (hinbound : s.inbound = [.refused]) (hfeeding : s.feeding = [])
  | answered (hrequest : s.request = none) (result : HandshakeResult) (rest : List Envelope)
      (hinbound : s.inbound = .result result :: rest.map .envelope)
      (hanswered : Answered s known prior result rest)

/-- A handshake under way. -/
structure Handshake (s : System) (known : ℕ) (prior : Prior) : Prop where
  prior_eq : prior = { serverSeq := s.serverSeq, subscriptions := s.subscriptions }
  events : s.events = []
  live : s.closed = false
  awaiting : Awaiting s known prior

theorem later_congr {channels' : List URI} (h : ∀ u, u ∈ channels ↔ u ∈ channels') :
    later log channels serverSeq = later log channels' serverSeq := by
  unfold later
  refine List.filter_congr fun e _ => ?_
  simp only [h]

theorem numbered_later (h : LogOk s) : Numbered s.process serverSeq (later s.log channels serverSeq) :=
  ⟨fun e he => ⟨(h.of_process e (mem_later.mp he).1).1, (mem_later.mp he).2.2⟩, later_sorted h.sorted⟩

/-- The number that snapshots of one moment give. -/
theorem foldl_fromSeq (resumed : List URI) {p n : ℕ} (h : p ≤ n) :
    p ≤ (resumed.map fun u => (u, n)).foldl (fun seq snap => if seq < snap.2 then snap.2 else seq) p ∧
      (resumed.map fun u => (u, n)).foldl (fun seq snap => if seq < snap.2 then snap.2 else seq) p ≤ n ∧
      (resumed ≠ [] →
        (resumed.map fun u => (u, n)).foldl (fun seq snap => if seq < snap.2 then snap.2 else seq) p = n) := by
  induction resumed generalizing p with
  | nil => exact ⟨le_rfl, h, fun hne => absurd rfl hne⟩
  | cons u resumed ih =>
    have hnext : (if p < n then n else p) = n := by
      split <;> omega
    simp only [List.map_cons, List.foldl_cons, hnext]
    obtain ⟨h1, h2, -⟩ := ih (le_refl n)
    exact ⟨h.trans h1, h2, fun _ => le_antisymm h2 h1⟩

/-- The state after an answer. -/
theorem answered_result {request : Request} {how : Answer} {resumed : List URI}
    (h : Settled s known base) (hlive : s.closed = false)
    (hprior : prior = { serverSeq := s.serverSeq, subscriptions := s.subscriptions })
    (hfor : request = .reconnect prior.serverSeq prior.subscriptions ∨
      request = .initializing prior.subscriptions)
    (hseq : s.serverSeq ≤ s.hostSeq)
    (hreplay : ∀ missing, how = .replay missing → known ≠ s.process → ∀ e ∈ s.log,
      e.channel ∈ s.subscriptions → e.channel ∉ missing → s.serverSeq < e.serverSeq)
    (hresult : resultOf s request how = some (resumed, result)) :
    Answered { s with request := none, feeding := resumed, inbound := s.inbound ++ [.result result] }
      known prior result [] := by
  subst hprior
  have hopen : ∀ {channels : List URI} {start : ℕ} {pending : List Envelope} {p : ℕ}, p = s.process →
      (∀ u, u ∈ resumed ↔ u ∈ channels) → start ≤ s.hostSeq → Numbered p start pending →
      later s.log channels start = pending →
      Stream { s with request := none, feeding := resumed, inbound := s.inbound ++ [.result result] }
        p channels start pending := by
    intro channels start pending p hp hiff hstart hnumbered hlater
    refine ⟨hnumbered, fun _ => ⟨[], fun _ => rfl, ?_⟩, fun _ => ⟨hp, hiff⟩, fun hclosed => ?_, fun _ => hstart⟩
    · rw [List.append_nil]
      exact hlater
    · exact absurd (hlive.symm.trans hclosed) (by decide)
  have hnil : ∀ {channels : List URI} {n : ℕ}, s.hostSeq ≤ n → later s.log channels n = [] :=
    fun hn => later_eq_nil fun e he => (h.log.of_process e he).2.trans hn
  rcases hfor with rfl | rfl
  · cases how with
    | refuse | accept => cases hresult
    | replay missing =>
      cases hresult
      have hiff : ∀ u, u ∈ (s.subscriptions.filter fun u => u ∉ missing) ↔
          u ∈ retained { serverSeq := s.serverSeq, subscriptions := s.subscriptions } s.subscriptions
            (.replay s.process (later s.log (s.subscriptions.filter fun u => u ∉ missing) s.serverSeq) missing) := by
        intro u
        by_cases hmissing : missing = [] <;> simp [retained, hmissing]
      refine ⟨rfl, h.known_le, le_rfl, le_rfl, fun _ hne _ e he hmem => ?_, ?_⟩
      · obtain ⟨hsub, hnot⟩ := List.mem_filter.mp ((hiff _).mpr hmem)
        exact hreplay missing rfl hne e he hsub (of_decide_eq_true hnot)
      · refine hopen rfl hiff hseq ?_ ?_
        · show Numbered s.process s.serverSeq (later s.log _ s.serverSeq ++ [])
          rw [List.append_nil]
          exact numbered_later h.log
        · rw [← later_congr hiff]
          show later s.log _ s.serverSeq = later s.log _ s.serverSeq ++ []
          rw [List.append_nil]
    | snapshot kept =>
      cases hresult
      obtain ⟨hge, hle, hfull⟩ := foldl_fromSeq (s.subscriptions.filter fun u => u ∈ kept) hseq
      have hiff : ∀ u, u ∈ (s.subscriptions.filter fun u => u ∈ kept) ↔
          u ∈ retained { serverSeq := s.serverSeq, subscriptions := s.subscriptions } s.subscriptions
            (.snapshot s.process ((s.subscriptions.filter fun u => u ∈ kept).map fun u => (u, s.hostSeq))) := by
        intro u
        simp only [retained, List.mem_filter, List.map_map, decide_eq_true_eq]
        simp only [Function.comp_def, List.map_id', List.mem_filter, decide_eq_true_eq]
        tauto
      refine ⟨rfl, h.known_le, le_rfl, hge, fun hreplay => hreplay.elim, ?_⟩
      refine hopen rfl hiff hle ⟨fun _ he => (by cases he), List.Pairwise.nil⟩ ?_
      by_cases hnone : (s.subscriptions.filter fun u => u ∈ kept) = []
      · rw [← later_congr hiff, hnone]
        simp [later, replayEnvelopes]
      · exact hnil (hfull hnone).ge
  · cases how with
    | refuse | replay missing | snapshot kept => cases hresult
    | accept =>
      cases hresult
      refine ⟨rfl, h.known_le, le_rfl, hseq, fun hreplay => hreplay.elim, ?_⟩
      exact hopen rfl (fun u => Iff.rfl) le_rfl ⟨fun _ he => (by cases he), List.Pairwise.nil⟩
        (hnil le_rfl)

/-! ### Commits -/

/-- A committed handshake, before its replay. -/
def committed (s : System) (prior : Prior) (result : HandshakeResult) : System :=
  { s with
    phase := .connected
    serverSeq := initServerSeq prior result
    subscriptions := retained prior s.subscriptions result }

theorem commit_eq (hphase : s.phase = .refreshing prior result)
    (hge : s.serverSeq ≤ initServerSeq prior result) :
    commit s = some ((replayEnvelopes result).foldl publish (committed s prior result)) := by
  have hseq : (if s.serverSeq < initServerSeq prior result then initServerSeq prior result else s.serverSeq) =
      initServerSeq prior result := by
    split <;> omega
  unfold commit
  rw [hphase]
  simp only [hseq]
  rfl

theorem retained_subset : retained prior channels result ⊆ channels := by
  intro u hu
  cases result with
  | initialized process serverSeq => exact hu
  | replay process actions missing =>
    simp only [retained] at hu
    split at hu
    · exact hu
    · exact List.mem_of_mem_filter hu
  | snapshot process snapshots => exact List.mem_of_mem_filter hu

/-- A committed handshake knows the process that answered it, from the number it gives. -/
theorem committed_settled (h : Settled s known base) (ha : Answered s known prior result pending) :
    Settled (committed s prior result) result.process
      (if result.IsReplay then base else initServerSeq prior result) where
  log := ⟨h.log.sorted, h.log.of_process⟩
  known_le := ha.process_le
  seq_le hp := ha.stream.start_le hp
  ordered := h.ordered
  published_le e he := by
    have hge := ha.start_ge
    rcases h.published_le e he with hpast | ⟨hsame, hle⟩
    · exact .inl (hpast.trans_le ha.known_le)
    · rcases ha.known_le.lt_or_eq with hlt | heq
      · exact .inl (hsame.trans_lt hlt)
      · exact .inr ⟨hsame.trans heq, hle.trans hge⟩
  base_le := by
    have hge := ha.start_ge
    split
    · exact h.base_le.trans hge
    · exact le_rfl
  applied hp e he hsub hbase hle := by
    by_cases hreplay : result.IsReplay
    · rw [if_pos hreplay] at hbase
      by_cases hknown : known = result.process
      · have hstart : initServerSeq prior result = s.serverSeq := by
          cases result with
          | replay process actions missing => rw [ha.prior_eq]; rfl
          | initialized process serverSeq | snapshot process snapshots => exact hreplay.elim
        have hle' : e.serverSeq ≤ s.serverSeq := hstart ▸ hle
        exact h.applied (hknown.trans hp) e he (retained_subset hsub) hbase hle'
      · have hgt := ha.replayed hreplay hknown hp e he hsub
        exact absurd hle (not_le.mpr hgt)
    · rw [if_neg hreplay] at hbase
      exact absurd hle (not_le.mpr hbase)

theorem commit_settled (h : Settled s known base) (ha : Answered s known prior result pending) :
    Settled ((replayEnvelopes result).foldl publish (committed s prior result)) result.process
        (if result.IsReplay then base else initServerSeq prior result) ∧
      Stream ((replayEnvelopes result).foldl publish (committed s prior result)) result.process
        (retained prior s.subscriptions result)
        ((replayEnvelopes result).foldl publish (committed s prior result)).serverSeq pending := by
  have hstream : Stream (committed s prior result) result.process (committed s prior result).subscriptions
      (committed s prior result).serverSeq (replayEnvelopes result ++ pending) :=
    ha.stream.congr rfl rfl rfl rfl rfl
  exact publish_all_settled (committed_settled h ha) hstream

/-! ### The invariant -/

/-- What holds at each phase of a connection. -/
def InPhase (s : System) (known : ℕ) : Prop :=
  match s.phase with
  | .absent => s.request = none
  | .reconnecting prior | .initializing prior => Handshake s known prior
  | .refreshing prior result =>
    s.request = none ∧ ∃ rest : List Envelope, s.inbound = rest.map .envelope ∧
      Answered s known prior result (s.events ++ rest)
  | .connected =>
    s.request = none ∧ ∃ rest : List Envelope, s.inbound = rest.map .envelope ∧
      Stream s known s.subscriptions s.serverSeq (s.events ++ rest)

/-- What holds in a run that stays in step. -/
structure Resumes (f : Following) : Prop where
  settled : Settled f.system f.known f.base
  phase : InPhase f.system f.known

theorem resumes_new (bufferLimit : ℕ) (initial : List URI) : Resumes (Following.new bufferLimit initial) where
  settled := ⟨⟨List.Pairwise.nil, nofun⟩, le_rfl, fun _ => le_rfl, List.Pairwise.nil, nofun, le_rfl, fun _ => nofun⟩
  phase := rfl

theorem dropClient_settled (h : Settled s known base) : Settled (dropClient s) known base :=
  h.congr rfl rfl rfl rfl rfl rfl

variable {f f' : Following} {a : Step}

/-- A commit says what the number means from now on; no other step does. -/
theorem followStep_cases (h : followStep f a = some f') : step f.system a = some f'.system ∧
    ((∃ prior result, a = .commit ∧ f.system.phase = .refreshing prior result ∧
        f'.known = result.process ∧
        f'.base = if result.IsReplay then f.base else initServerSeq prior result) ∨
      ((a = .commit → ∀ prior result, f.system.phase ≠ .refreshing prior result) ∧
        f'.known = f.known ∧ f'.base = f.base)) := by
  obtain ⟨s, hs, rfl⟩ := Option.map_eq_some_iff.mp h
  split
  · next prior result hphase => exact ⟨hs, .inl ⟨prior, result, rfl, hphase, rfl, rfl⟩⟩
  · next hnot => exact ⟨hs, .inr ⟨fun ha prior result hphase => hnot prior result ha hphase, rfl, rfl⟩⟩

theorem connectOnce_inPhase (h : Settled s known base) (hstep : connectOnce s = some s') :
    Settled s' known base ∧ InPhase s' known := by
  unfold connectOnce at hstep
  split at hstep
  · dsimp only at hstep
    split at hstep
    · cases hstep
      exact ⟨h.congr rfl rfl rfl rfl rfl rfl, ⟨rfl, rfl, rfl, .asked _ rfl (.inl rfl) rfl rfl⟩⟩
    · cases hstep
      exact ⟨h.congr rfl rfl rfl rfl rfl rfl, ⟨rfl, rfl, rfl, .asked _ rfl (.inr rfl) rfl rfl⟩⟩
  · cases hstep

theorem closeTransport_inPhase (h : Settled s known base) (hp : InPhase s known) :
    Settled (closeTransport s) known base ∧ InPhase (closeTransport s) known := by
  unfold InPhase at hp
  cases hphase : s.phase with
  | absent =>
    have heq : closeTransport s = s := by simp [closeTransport, hphase]
    rw [heq]
    refine ⟨h, ?_⟩
    rw [hphase] at hp
    unfold InPhase
    rw [hphase]
    exact hp
  | reconnecting prior | initializing prior =>
    have heq : closeTransport s = dropClient s := by simp [closeTransport, hphase]
    rw [heq]
    exact ⟨dropClient_settled h, rfl⟩
  | refreshing prior result =>
    rw [hphase] at hp
    obtain ⟨-, rest, -, ha⟩ := hp
    have heq : closeTransport s =
        { s with feeding := [], request := none, inbound := [], closed := true } := by
      simp [closeTransport, hphase]
    rw [heq]
    refine ⟨h.congr rfl rfl rfl rfl rfl rfl, ?_⟩
    unfold InPhase
    simp only [hphase]
    refine ⟨trivial, [], rfl, ha.prior_eq, ha.known_le, ha.process_le, ha.start_ge, ha.replayed, ?_⟩
    have hstream := ha.stream
    rw [← List.append_assoc] at hstream
    rw [List.append_nil]
    exact hstream.close rfl rfl rfl rfl rfl
  | connected =>
    rw [hphase] at hp
    obtain ⟨-, rest, -, hstream⟩ := hp
    have heq : closeTransport s =
        { s with feeding := [], request := none, inbound := [], closed := true } := by
      simp [closeTransport, hphase]
    rw [heq]
    refine ⟨h.congr rfl rfl rfl rfl rfl rfl, ?_⟩
    unfold InPhase
    simp only [hphase]
    refine ⟨trivial, [], rfl, ?_⟩
    rw [List.append_nil]
    exact hstream.close rfl rfl rfl rfl rfl

theorem emit_inbound (s : System) (channel : URI) :
    (emit s channel).inbound = s.inbound ++ (emitted s channel).map .envelope := by
  by_cases hfed : channel ∈ s.feeding <;> simp [emit, emitted, hfed]

theorem Answered.emit (ha : Answered s known prior result pending) (hlog : LogOk s) (channel : URI) :
    Answered (emit s channel) known prior result (pending ++ emitted s channel) where
  prior_eq := ha.prior_eq
  known_le := ha.known_le
  process_le := ha.process_le
  start_ge := ha.start_ge
  replayed hreplay hne hp e he hmem := by
    rcases List.mem_append.mp he with he | he
    · exact ha.replayed hreplay hne hp e he hmem
    · rw [List.mem_singleton.mp he]
      exact Nat.lt_succ_of_le (ha.stream.start_le hp)
  stream := by
    rw [← List.append_assoc]
    exact ha.stream.emit hlog channel

theorem emit_inPhase (h : Settled s known base) (hp : InPhase s known) (channel : URI) :
    InPhase (emit s channel) known := by
  have hinbound := emit_inbound s channel
  have hkeeps : ∀ prior, Handshake s known prior → Handshake (emit s channel) known prior := by
    intro prior hh
    refine ⟨hh.prior_eq, hh.events, hh.live, ?_⟩
    cases hh.awaiting with
    | asked request hrequest hfor hnone hfeeding =>
      refine .asked request hrequest hfor ?_ hfeeding
      rw [hinbound, hnone]
      simp [emitted, hfeeding]
    | refused hrequest hmessage hfeeding =>
      refine .refused hrequest ?_ hfeeding
      rw [hinbound, hmessage]
      simp [emitted, hfeeding]
    | answered hrequest result rest hmessages ha =>
      refine .answered hrequest result (rest ++ emitted s channel) ?_ (ha.emit h.log channel)
      rw [hinbound, hmessages, List.map_append]
      rfl
  have hphase : (emit s channel).phase = s.phase := rfl
  unfold InPhase at hp ⊢
  rw [hphase]
  split at hp
  · exact hp
  · exact hkeeps _ hp
  · exact hkeeps _ hp
  · obtain ⟨hrequest, rest, hmessages, ha⟩ := hp
    refine ⟨hrequest, rest ++ emitted s channel, ?_, ?_⟩
    · rw [hinbound, hmessages, List.map_append]
    · rw [← List.append_assoc]
      exact ha.emit h.log channel
  · obtain ⟨hrequest, rest, hmessages, hstream⟩ := hp
    refine ⟨hrequest, rest ++ emitted s channel, ?_, ?_⟩
    · rw [hinbound, hmessages, List.map_append]
    · rw [← List.append_assoc]
      exact hstream.emit h.log channel

theorem restart_inPhase (h : Settled s known base) (hp : InPhase s known) : InPhase (restart s) known := by
  unfold InPhase at hp
  cases hphase : s.phase with
  | absent =>
    rw [hphase] at hp
    have heq : closeTransport s = s := by simp [closeTransport, hphase]
    unfold InPhase restart
    simp only [heq, hphase]
    exact hp
  | reconnecting prior | initializing prior =>
    have heq : closeTransport s = dropClient s := by simp [closeTransport, hphase]
    unfold InPhase restart
    rw [heq]
    rfl
  | refreshing prior result =>
    rw [hphase] at hp
    obtain ⟨-, rest, -, ha⟩ := hp
    have heq : closeTransport s =
        { s with feeding := [], request := none, inbound := [], closed := true } := by
      simp [closeTransport, hphase]
    unfold InPhase restart
    simp only [heq, hphase]
    refine ⟨trivial, [], rfl, ha.prior_eq, ha.known_le, Nat.le_succ_of_le ha.process_le, ha.start_ge,
      fun _ _ _ => nofun, ?_⟩
    have hstream := ha.stream
    rw [← List.append_assoc] at hstream
    rw [List.append_nil]
    exact hstream.restart ha.process_le rfl rfl rfl
  | connected =>
    rw [hphase] at hp
    obtain ⟨-, rest, -, hstream⟩ := hp
    have heq : closeTransport s =
        { s with feeding := [], request := none, inbound := [], closed := true } := by
      simp [closeTransport, hphase]
    unfold InPhase restart
    simp only [heq, hphase]
    refine ⟨trivial, [], rfl, ?_⟩
    rw [List.append_nil]
    exact hstream.restart h.known_le rfl rfl rfl

theorem pushBounded_eq {limit : ℕ} (h : es.length < limit) : pushBounded limit es e = es ++ [e] := by
  have hlen : (es ++ [e]).length - limit = 0 := by
    rw [List.length_append, List.length_singleton]
    omega
  unfold pushBounded
  rw [hlen, List.drop_zero]

/-- Reading a message, where the queue has room for it. -/
theorem receive_inPhase (h : Settled s known base) (hp : InPhase s known)
    (hroom : ∀ e inbound, s.inbound = .envelope e :: inbound → s.events.length < s.bufferLimit)
    (hstep : receive s = some s') : Settled s' known base ∧ InPhase s' known := by
  have hreads : ∀ e inbound, s.inbound = .envelope e :: inbound →
      s' = { s with inbound := inbound, events := s.events ++ [e] } := by
    intro e inbound hin
    unfold receive at hstep
    rw [hin] at hstep
    dsimp only at hstep
    rw [pushBounded_eq (hroom e inbound hin)] at hstep
    exact (Option.some.inj hstep).symm
  have hwaits : ∀ prior, s.phase = .reconnecting prior ∨ s.phase = .initializing prior →
      Handshake s known prior → Settled s' known base ∧ InPhase s' known := by
    intro prior hphase hh
    cases hh.awaiting with
    | asked request hrequest hfor hinbound hfeeding =>
      unfold receive at hstep
      rw [hinbound] at hstep
      cases hstep
    | refused hrequest hinbound hfeeding =>
      unfold receive at hstep
      rw [hinbound] at hstep
      rcases hphase with hphase | hphase
      · simp only [hphase] at hstep
        cases hstep
        exact ⟨h.congr rfl rfl rfl rfl rfl rfl,
          ⟨hh.prior_eq, hh.events, hh.live, .asked _ rfl (.inr rfl) rfl hfeeding⟩⟩
      · simp only [hphase] at hstep
        cases hstep
        exact ⟨h.congr rfl rfl rfl rfl rfl rfl, rfl⟩
    | answered hrequest result rest hinbound ha =>
      have hs' : s' = { s with inbound := rest.map .envelope, phase := .refreshing prior result } := by
        unfold receive at hstep
        rw [hinbound] at hstep
        rcases hphase with hphase | hphase <;>
        · simp only [hphase] at hstep
          exact (Option.some.inj hstep).symm
      subst hs'
      refine ⟨h.congr rfl rfl rfl rfl rfl rfl, hrequest, rest, rfl, ?_⟩
      refine ⟨hh.prior_eq, ha.known_le, ha.process_le, ha.start_ge, ha.replayed, ?_⟩
      show Stream _ _ _ _ (replayEnvelopes result ++ (s.events ++ rest))
      rw [hh.events]
      exact ha.stream.congr rfl rfl rfl rfl rfl
  unfold InPhase at hp
  cases hphase : s.phase with
  | absent =>
    rw [hphase] at hp
    unfold receive at hstep
    rw [hphase] at hstep
    split at hstep
    · cases hstep
    · next message inbound hin =>
      cases message with
      | envelope e | refused | result result =>
        cases hstep
        refine ⟨h.congr rfl rfl rfl rfl rfl rfl, ?_⟩
        unfold InPhase
        simp only
        exact hp
  | reconnecting prior =>
    rw [hphase] at hp
    exact hwaits prior (.inl hphase) hp
  | initializing prior =>
    rw [hphase] at hp
    exact hwaits prior (.inr hphase) hp
  | refreshing prior result =>
    rw [hphase] at hp
    obtain ⟨hrequest, rest, hinbound, ha⟩ := hp
    cases rest with
    | nil =>
      unfold receive at hstep
      rw [hinbound] at hstep
      cases hstep
    | cons e rest =>
      have hs' := hreads e (rest.map .envelope) hinbound
      subst hs'
      refine ⟨h.congr rfl rfl rfl rfl rfl rfl, ?_⟩
      unfold InPhase
      simp only [hphase]
      refine ⟨hrequest, rest, rfl, ha.prior_eq, ha.known_le, ha.process_le, ha.start_ge, ha.replayed, ?_⟩
      rw [List.append_assoc, List.singleton_append]
      exact ha.stream.congr rfl rfl rfl rfl rfl
  | connected =>
    rw [hphase] at hp
    obtain ⟨hrequest, rest, hinbound, hstream⟩ := hp
    cases rest with
    | nil =>
      unfold receive at hstep
      rw [hinbound] at hstep
      cases hstep
    | cons e rest =>
      have hs' := hreads e (rest.map .envelope) hinbound
      subst hs'
      refine ⟨h.congr rfl rfl rfl rfl rfl rfl, ?_⟩
      unfold InPhase
      simp only [hphase]
      refine ⟨hrequest, rest, rfl, ?_⟩
      rw [List.append_assoc, List.singleton_append]
      exact hstream.congr rfl rfl rfl rfl rfl

/-- The host answers a handshake, in step with what the supervisor knows. -/
theorem answer_inPhase {how : Answer} (h : Settled s known base) (hp : InPhase s known)
    (hguard : how ≠ .refuse → known ≠ s.process → s.serverSeq ≤ s.hostSeq ∧
      ∀ missing, how = .replay missing → ∀ e ∈ s.log, e.channel ∈ s.subscriptions → e.channel ∉ missing →
        s.serverSeq < e.serverSeq)
    (hstep : answer s how = some s') : Settled s' known base ∧ InPhase s' known := by
  have hwaits : ∀ prior, s.phase = .reconnecting prior ∨ s.phase = .initializing prior →
      Handshake s known prior → Settled s' known base ∧ InPhase s' known := by
    intro prior hphase hh
    cases hh.awaiting with
    | refused hrequest hinbound hfeeding =>
      unfold answer at hstep
      rw [hrequest] at hstep
      cases hstep
    | answered hrequest result rest hinbound ha =>
      unfold answer at hstep
      rw [hrequest] at hstep
      cases hstep
    | asked request hrequest hfor hinbound hfeeding =>
      have hdone : ∀ {u : System}, u.phase = s.phase → Handshake u known prior → InPhase u known := by
        intro u hu hhandshake
        unfold InPhase
        rw [hu]
        rcases hphase with hphase | hphase <;>
        · rw [hphase]
          exact hhandshake
      unfold answer at hstep
      rw [hrequest] at hstep
      by_cases hrefuse : how = .refuse
      · subst hrefuse
        cases hstep
        refine ⟨h.congr rfl rfl rfl rfl rfl rfl, hdone rfl ⟨hh.prior_eq, hh.events, hh.live, ?_⟩⟩
        exact .refused rfl (by simp [hinbound]) hfeeding
      · have hmap : ((resultOf s request how).map fun out =>
            { s with request := none, feeding := out.1, inbound := s.inbound ++ [.result out.2] }) = some s' := by
          cases how with
          | refuse => exact absurd rfl hrefuse
          | accept | replay missing | snapshot kept => exact hstep
        obtain ⟨⟨resumed, result⟩, hresult, rfl⟩ := Option.map_eq_some_iff.mp hmap
        have hseq : s.serverSeq ≤ s.hostSeq := by
          by_cases hknown : known = s.process
          · exact h.seq_le hknown
          · exact (hguard hrefuse hknown).1
        have ha := answered_result h hh.live hh.prior_eq hfor hseq
          (fun missing hm hne => (hguard hrefuse hne).2 missing hm) hresult
        refine ⟨h.congr rfl rfl rfl rfl rfl rfl, hdone rfl ⟨hh.prior_eq, hh.events, hh.live, ?_⟩⟩
        exact .answered rfl result [] (by simp [hinbound]) ha
  unfold InPhase at hp
  have hnone : s.request = none → Settled s' known base ∧ InPhase s' known := by
    intro hrequest
    unfold answer at hstep
    rw [hrequest] at hstep
    cases hstep
  split at hp
  · exact hnone hp
  · next prior hphase => exact hwaits prior (.inl hphase) hp
  · next prior hphase => exact hwaits prior (.inr hphase) hp
  · exact hnone hp.1
  · exact hnone hp.1

theorem handleEvent_inPhase (h : Settled s known base) (hp : InPhase s known)
    (hstep : handleEvent s = some s') : Settled s' known base ∧ InPhase s' known := by
  unfold handleEvent at hstep
  split at hstep
  · next e events hphase hevents =>
    cases hstep
    unfold InPhase at hp
    rw [hphase] at hp
    obtain ⟨hrequest, rest, hinbound, hstream⟩ := hp
    rw [hevents] at hstream
    have hsettled : Settled { s with events := events } known base := h.congr rfl rfl rfl rfl rfl rfl
    have hnext : Stream { s with events := events } known s.subscriptions s.serverSeq (e :: (events ++ rest)) :=
      hstream.congr rfl rfl rfl rfl rfl
    obtain ⟨hs', hrest⟩ := publish_settled hsettled hnext
    refine ⟨hs', ?_⟩
    have hphase' : (publish { s with events := events } e).phase = .connected := hphase
    unfold InPhase
    rw [hphase']
    exact ⟨hrequest, rest, hinbound, hrest⟩
  · cases hstep

theorem commit_inPhase (h : Settled s known base) (hp : InPhase s known)
    (hphase : s.phase = .refreshing prior result) (hstep : commit s = some s') :
    Settled s' result.process (if result.IsReplay then base else initServerSeq prior result) ∧
      InPhase s' result.process := by
  unfold InPhase at hp
  rw [hphase] at hp
  obtain ⟨hrequest, rest, hinbound, ha⟩ := hp
  rw [commit_eq hphase ha.start_ge] at hstep
  obtain ⟨hsettled, hstream⟩ := commit_settled h ha
  obtain ⟨serverSeq, fanOut, heq⟩ := publish_all_eq (replayEnvelopes result) (committed s prior result)
  have hs' := Option.some.inj hstep
  rw [hs'] at hsettled hstream heq
  refine ⟨hsettled, ?_⟩
  have hphase' : s'.phase = .connected := by rw [heq]; rfl
  have hsub : s'.subscriptions = retained prior s.subscriptions result := by rw [heq]; rfl
  have hevents : s'.events = s.events := by rw [heq]; rfl
  unfold InPhase
  rw [hphase']
  refine ⟨by rw [heq]; exact hrequest, rest, by rw [heq]; exact hinbound, ?_⟩
  rw [hsub, hevents]
  exact hstream

theorem Resumes.step (hf : Resumes f) (hguard : InStep f a) (h : followStep f a = some f') : Resumes f' := by
  obtain ⟨hstep, hcases⟩ := followStep_cases h
  rcases hcases with ⟨prior, result, rfl, hphase, hknown, hbase⟩ | ⟨hnot, hknown, hbase⟩
  · obtain ⟨hsettled, hp⟩ := commit_inPhase hf.settled hf.phase hphase hstep
    exact ⟨by rw [hknown, hbase]; exact hsettled, by rw [hknown]; exact hp⟩
  · have hkeeps : Settled f'.system f.known f.base ∧ InPhase f'.system f.known := by
      cases a with
      | connectOnce => exact connectOnce_inPhase hf.settled hstep
      | commit =>
        simp only [Replay.step, commit] at hstep
        split at hstep
        · next prior result hphase => exact absurd hphase (hnot rfl prior result)
        · cases hstep
      | abortConnect =>
        simp only [Replay.step, abortConnect] at hstep
        split at hstep
        · rw [← Option.some.inj hstep]
          exact ⟨dropClient_settled hf.settled, rfl⟩
        · rw [← Option.some.inj hstep]
          exact ⟨dropClient_settled hf.settled, rfl⟩
        · rw [← Option.some.inj hstep]
          exact ⟨dropClient_settled hf.settled, rfl⟩
        · cases hstep
        · cases hstep
      | closeTransport =>
        rw [← Option.some.inj hstep]
        exact closeTransport_inPhase hf.settled hf.phase
      | handleEvent => exact handleEvent_inPhase hf.settled hf.phase hstep
      | endConnection manualReconnect =>
        simp only [Replay.step, endConnection] at hstep
        split at hstep
        · split at hstep
          · rw [← Option.some.inj hstep]
            exact ⟨dropClient_settled hf.settled, rfl⟩
          · cases hstep
        · cases hstep
      | receive =>
        refine receive_inPhase hf.settled hf.phase (fun e inbound hin => ?_) hstep
        have hroom := hguard.2
        simp only [Overflows, hin, not_le] at hroom
        exact hroom
      | answer how =>
        refine answer_inPhase hf.settled hf.phase (fun hrefuse hne => ?_) hstep
        constructor
        · by_contra hlt
          exact hguard.1 ⟨hrefuse, hne, .inl (by omega)⟩
        · rintro missing rfl e he hsub hmissing
          by_contra hle
          exact hguard.1 ⟨hrefuse, hne, .inr ⟨e, he, hsub, hmissing, by omega⟩⟩
      | emit channel =>
        rw [← Option.some.inj hstep]
        exact ⟨hf.settled.emit channel, emit_inPhase hf.settled hf.phase channel⟩
      | restart =>
        rw [← Option.some.inj hstep]
        exact ⟨hf.settled.restart, restart_inPhase hf.settled hf.phase⟩
    exact ⟨by rw [hknown, hbase]; exact hkeeps.1, by rw [hknown]; exact hkeeps.2⟩

/-! ### Runs -/

/-- A supervisor of one channel connects, and its channel emits. -/
def connectsAndHears : List Step :=
  [.connectOnce, .answer .accept, .receive, .commit, .emit "ahp-session:/s", .receive, .handleEvent]

/-- The connection drops, the channel emits, and the host replays it on the next connection. -/
def resumed : Following where
  system :=
    { System.new 4096 ["ahp-session:/s"] with
      hostSeq := 2
      log := [⟨0, 1, "ahp-session:/s"⟩, ⟨0, 2, "ahp-session:/s"⟩]
      feeding := ["ahp-session:/s"]
      phase := .connected
      serverSeq := 2
      fanOut := [⟨0, 1, "ahp-session:/s"⟩, ⟨0, 2, "ahp-session:/s"⟩] }
  known := 0
  base := 0

end AgentHostProtocol.Hosts.Replay
