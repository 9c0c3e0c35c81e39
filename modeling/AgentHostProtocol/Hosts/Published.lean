import AgentHostProtocol.Hosts.Replay

/-!
# Publishing a stream of envelopes

What a supervisor has published against what its host has in its log. A `Stream` is what is
still to come from a process of the host: the envelopes after a number, in order and without a
gap while the transport is open. Publishing its head leaves a stream after the new number
(`publish_settled`), so that nothing is skipped and nothing published twice.
-/

namespace AgentHostProtocol.Hosts.Replay

/-! ### Envelopes in order -/

/-- Envelopes of a process, after a number, in order. -/
def Numbered (process serverSeq : ℕ) (es : List Envelope) : Prop :=
  (∀ e ∈ es, e.process = process ∧ serverSeq < e.serverSeq) ∧
    es.Pairwise fun a b => a.serverSeq < b.serverSeq

/-- An envelope comes before another in the history of the host. -/
def Precedes (a b : Envelope) : Prop :=
  a.process < b.process ∨ a.process = b.process ∧ a.serverSeq < b.serverSeq

variable {log es : List Envelope} {channels : List URI} {process serverSeq : ℕ} {e : Envelope}

theorem mem_later : e ∈ later log channels serverSeq ↔
    e ∈ log ∧ e.channel ∈ channels ∧ serverSeq < e.serverSeq := by
  simp [later]

theorem later_sorted (h : log.Pairwise fun a b => a.serverSeq < b.serverSeq) :
    (later log channels serverSeq).Pairwise fun a b => a.serverSeq < b.serverSeq :=
  h.sublist List.filter_sublist

/-- After the first of the later envelopes come the rest. -/
theorem later_tail (h : log.Pairwise fun a b => a.serverSeq < b.serverSeq)
    (hl : later log channels serverSeq = e :: es) : later log channels e.serverSeq = es := by
  have hsorted : (e :: es).Pairwise fun a b => a.serverSeq < b.serverSeq := hl ▸ later_sorted h
  have hlt : serverSeq < e.serverSeq := (mem_later.mp (hl ▸ List.mem_cons_self)).2.2
  have hagain : later log channels e.serverSeq =
      (later log channels serverSeq).filter fun x => e.serverSeq < x.serverSeq := by
    unfold later
    rw [List.filter_filter]
    refine List.filter_congr fun x _ => ?_
    by_cases hx : e.serverSeq < x.serverSeq
    · have hx' : serverSeq < x.serverSeq := by omega
      simp [hx, hx']
    · simp [hx]
  rw [hagain, hl, List.filter_cons_of_neg (by simp), List.filter_eq_self]
  intro x hx
  simpa using (List.pairwise_cons.mp hsorted).1 x hx

theorem later_append_singleton : later (log ++ [e]) channels serverSeq =
    later log channels serverSeq ++ if e.channel ∈ channels ∧ serverSeq < e.serverSeq then [e] else [] := by
  unfold later
  rw [List.filter_append]
  congr 1
  simp [List.filter_singleton]

theorem later_eq_nil (h : ∀ e ∈ log, e.serverSeq ≤ serverSeq) : later log channels serverSeq = [] := by
  refine List.filter_eq_nil_iff.mpr fun e he => ?_
  have hle := h e he
  simp only [decide_eq_true_eq, not_and, not_lt]
  exact fun _ => hle

theorem numbered_tail (h : Numbered process serverSeq (e :: es)) : Numbered process e.serverSeq es := by
  obtain ⟨hmem, hsorted⟩ := h
  obtain ⟨hlt, hsorted⟩ := List.pairwise_cons.mp hsorted
  exact ⟨fun x hx => ⟨(hmem x (List.mem_cons_of_mem _ hx)).1, hlt x hx⟩, hsorted⟩

/-! ### The envelopes to come -/

/-- The envelope that a channel emits next, if it is sent on the connection. -/
def emitted (s : System) (channel : URI) : List Envelope :=
  if channel ∈ s.feeding then
    [{ process := s.process, serverSeq := s.hostSeq + 1, channel := channel }]
  else []

/-- `pending` is what comes after `serverSeq` of the channels, from a process of the host: all
of it if the transport is open, a part if it closed and the rest is lost. -/
structure Stream (s : System) (process : ℕ) (channels : List URI) (serverSeq : ℕ)
    (pending : List Envelope) : Prop where
  numbered : Numbered process serverSeq pending
  complete : process = s.process → ∃ lost, (s.closed = false → lost = []) ∧
    later s.log channels serverSeq = pending ++ lost
  feeding : s.closed = false → process = s.process ∧ ∀ u, u ∈ s.feeding ↔ u ∈ channels
  unfed : s.closed = true → s.feeding = []
  start_le : process = s.process → serverSeq ≤ s.hostSeq

variable {s s' : System} {pending rest : List Envelope} {known base : ℕ}

/-- The log of the running process: its envelopes in order, up to its number. -/
structure LogOk (s : System) : Prop where
  sorted : s.log.Pairwise fun a b => a.serverSeq < b.serverSeq
  of_process : ∀ e ∈ s.log, e.process = s.process ∧ e.serverSeq ≤ s.hostSeq

theorem LogOk.emit (h : LogOk s) (channel : URI) : LogOk (emit s channel) where
  sorted := by
    refine List.pairwise_append.mpr ⟨h.sorted, List.pairwise_singleton _ _, ?_⟩
    intro a ha b hb
    have hle := (h.of_process a ha).2
    rw [List.mem_singleton.mp hb]
    show a.serverSeq < s.hostSeq + 1
    omega
  of_process e he := by
    rcases List.mem_append.mp he with he | he
    · obtain ⟨hprocess, hle⟩ := h.of_process e he
      exact ⟨hprocess, Nat.le_succ_of_le hle⟩
    · rw [List.mem_singleton.mp he]
      exact ⟨rfl, le_rfl⟩

theorem Stream.congr (h : Stream s process channels serverSeq pending) (hclosed : s'.closed = s.closed)
    (hprocess : s'.process = s.process) (hlog : s'.log = s.log) (hfeeding : s'.feeding = s.feeding)
    (hhost : s'.hostSeq = s.hostSeq) : Stream s' process channels serverSeq pending where
  numbered := h.numbered
  complete := by rw [hclosed, hprocess, hlog]; exact h.complete
  feeding := by rw [hclosed, hprocess, hfeeding]; exact h.feeding
  unfed := by rw [hclosed, hfeeding]; exact h.unfed
  start_le := by rw [hprocess, hhost]; exact h.start_le

theorem Stream.emit (h : Stream s process channels serverSeq pending) (hlog : LogOk s) (channel : URI) :
    Stream (emit s channel) process channels serverSeq (pending ++ emitted s channel) := by
  by_cases hfed : channel ∈ s.feeding
  · have hopen : s.closed = false := by
      by_contra hclosed
      rw [h.unfed (by simpa using hclosed)] at hfed
      cases hfed
    obtain ⟨hprocess, hiff⟩ := h.feeding hopen
    obtain ⟨lost, hlost, hlater⟩ := h.complete hprocess
    rw [hlost hopen, List.append_nil] at hlater
    have hstart := h.start_le hprocess
    have hnew : emitted s channel =
        [{ process := s.process, serverSeq := s.hostSeq + 1, channel := channel }] := if_pos hfed
    refine ⟨⟨fun e he => ?_, ?_⟩, fun _ => ⟨[], fun _ => rfl, ?_⟩, h.feeding, h.unfed,
      fun hp => Nat.le_succ_of_le (h.start_le hp)⟩
    · rcases List.mem_append.mp he with he | he
      · exact h.numbered.1 e he
      · rw [hnew, List.mem_singleton] at he
        subst he
        exact ⟨hprocess.symm, Nat.lt_succ_of_le hstart⟩
    · refine List.pairwise_append.mpr ⟨h.numbered.2, ?_, fun a ha b hb => ?_⟩
      · rw [hnew]
        exact List.pairwise_singleton _ _
      · rw [hnew, List.mem_singleton] at hb
        have hle := (hlog.of_process a (mem_later.mp (hlater ▸ ha)).1).2
        rw [hb]
        exact Nat.lt_succ_of_le hle
    · have hsent : channel ∈ channels ∧ serverSeq < s.hostSeq + 1 :=
        ⟨(hiff channel).mp hfed, Nat.lt_succ_of_le hstart⟩
      unfold Replay.emit
      rw [later_append_singleton, hlater, if_pos hsent, hnew, List.append_nil]
  · have hnew : emitted s channel = [] := if_neg hfed
    rw [hnew, List.append_nil]
    refine ⟨h.numbered, fun hprocess => ?_, h.feeding, h.unfed, fun hp => Nat.le_succ_of_le (h.start_le hp)⟩
    obtain ⟨lost, hlost, hlater⟩ := h.complete hprocess
    cases hclosed : s.closed with
    | false =>
      have hnot : ¬ (channel ∈ channels ∧ serverSeq < s.hostSeq + 1) :=
        fun hsent => hfed (((h.feeding hclosed).2 channel).mpr hsent.1)
      refine ⟨lost, fun _ => hlost hclosed, ?_⟩
      unfold Replay.emit
      rw [later_append_singleton, hlater, if_neg hnot, List.append_nil]
    | true =>
      refine ⟨lost ++ if channel ∈ channels ∧ serverSeq < s.hostSeq + 1 then
        [{ process := s.process, serverSeq := s.hostSeq + 1, channel := channel }] else [],
        fun hopen => ?_, ?_⟩
      · exact absurd (hclosed.symm.trans hopen) (by decide)
      · unfold Replay.emit
        rw [later_append_singleton, hlater, List.append_assoc]

/-- What was on the wire of a transport that closes is lost. -/
theorem Stream.close {wire : List Envelope} (h : Stream s process channels serverSeq (pending ++ wire))
    (hclosed : s'.closed = true) (hprocess : s'.process = s.process) (hlog : s'.log = s.log)
    (hfeeding : s'.feeding = []) (hhost : s'.hostSeq = s.hostSeq) :
    Stream s' process channels serverSeq pending where
  numbered := by
    obtain ⟨hmem, hsorted⟩ := h.numbered
    exact ⟨fun e he => hmem e (List.mem_append_left _ he), (List.pairwise_append.mp hsorted).1⟩
  complete hp := by
    obtain ⟨lost, -, hlater⟩ := h.complete (hp.trans hprocess)
    refine ⟨wire ++ lost, fun hopen => ?_, ?_⟩
    · exact absurd (hclosed.symm.trans hopen) (by decide)
    · rw [hlog, hlater, List.append_assoc]
  feeding hopen := absurd (hclosed.symm.trans hopen) (by decide)
  unfed _ := hfeeding
  start_le := by rw [hprocess, hhost]; exact h.start_le

/-- The next process has nothing to do with what is still to be handled. -/
theorem Stream.restart {wire : List Envelope} (h : Stream s process channels serverSeq (pending ++ wire))
    (hle : process ≤ s.process) (hclosed : s'.closed = true) (hprocess : s'.process = s.process + 1)
    (hfeeding : s'.feeding = []) : Stream s' process channels serverSeq pending where
  numbered := by
    obtain ⟨hmem, hsorted⟩ := h.numbered
    exact ⟨fun e he => hmem e (List.mem_append_left _ he), (List.pairwise_append.mp hsorted).1⟩
  complete hp := by omega
  feeding hopen := absurd (hclosed.symm.trans hopen) (by decide)
  unfed _ := hfeeding
  start_le hp := by omega

/-! ### What is published -/

/-- What was published, against the log of the host. -/
structure Settled (s : System) (known base : ℕ) : Prop where
  log : LogOk s
  known_le : known ≤ s.process
  seq_le : known = s.process → s.serverSeq ≤ s.hostSeq
  ordered : s.fanOut.Pairwise Precedes
  published_le : ∀ e ∈ s.fanOut, e.process < known ∨ e.process = known ∧ e.serverSeq ≤ s.serverSeq
  base_le : base ≤ s.serverSeq
  applied : known = s.process → ∀ e ∈ s.log, e.channel ∈ s.subscriptions →
    base < e.serverSeq → e.serverSeq ≤ s.serverSeq → e ∈ s.fanOut

/-- A step that leaves what is numbered and published as it is. -/
theorem Settled.congr (h : Settled s known base) (hlog : s'.log = s.log)
    (hprocess : s'.process = s.process) (hhost : s'.hostSeq = s.hostSeq)
    (hseq : s'.serverSeq = s.serverSeq) (hsub : s'.subscriptions = s.subscriptions)
    (hfan : s'.fanOut = s.fanOut) : Settled s' known base where
  log := ⟨by rw [hlog]; exact h.log.sorted, by rw [hlog, hprocess, hhost]; exact h.log.of_process⟩
  known_le := by rw [hprocess]; exact h.known_le
  seq_le := by rw [hprocess, hseq, hhost]; exact h.seq_le
  ordered := by rw [hfan]; exact h.ordered
  published_le := by rw [hfan, hseq]; exact h.published_le
  base_le := by rw [hseq]; exact h.base_le
  applied := by rw [hprocess, hlog, hsub, hseq, hfan]; exact h.applied

theorem Settled.emit (h : Settled s known base) (channel : URI) : Settled (emit s channel) known base where
  log := h.log.emit channel
  known_le := h.known_le
  seq_le hk := Nat.le_succ_of_le (h.seq_le hk)
  ordered := h.ordered
  published_le := h.published_le
  base_le := h.base_le
  applied hk e he hsub hlt hle := by
    rcases List.mem_append.mp he with he | he
    · exact h.applied hk e he hsub hlt hle
    · -- the number of a new envelope is past what the supervisor has seen
      have hseq := h.seq_le hk
      rw [List.mem_singleton.mp he] at hle
      have hle' : s.hostSeq + 1 ≤ s.serverSeq := hle
      omega

theorem Settled.restart (h : Settled s known base) : Settled (Replay.restart s) known base := by
  have hseq : (Replay.restart s).serverSeq = s.serverSeq := by
    unfold Replay.restart closeTransport
    cases s.phase <;> rfl
  have hfan : (Replay.restart s).fanOut = s.fanOut := by
    unfold Replay.restart closeTransport
    cases s.phase <;> rfl
  have hle := h.known_le
  refine ⟨⟨List.Pairwise.nil, nofun⟩, Nat.le_succ_of_le hle, fun hk => ?_, ?_, ?_, ?_, fun hk => ?_⟩
  · have hk' : known = s.process + 1 := hk
    omega
  · rw [hfan]
    exact h.ordered
  · rw [hfan, hseq]
    exact h.published_le
  · rw [hseq]
    exact h.base_le
  · have hk' : known = s.process + 1 := hk
    omega

/-- Publishing the next envelope of the stream. -/
theorem publish_settled (h : Settled s known base)
    (hs : Stream s known s.subscriptions s.serverSeq (e :: rest)) :
    Settled (publish s e) known base ∧
      Stream (publish s e) known s.subscriptions (publish s e).serverSeq rest := by
  obtain ⟨hprocess, hlt⟩ := hs.numbered.1 e List.mem_cons_self
  have hseq : (publish s e).serverSeq = e.serverSeq := if_pos hlt
  have hlater : known = s.process → ∃ lost, (s.closed = false → lost = []) ∧
      later s.log s.subscriptions s.serverSeq = e :: (rest ++ lost) := hs.complete
  have hhost : known = s.process → e.serverSeq ≤ s.hostSeq := fun hk => by
    obtain ⟨lost, -, hl⟩ := hlater hk
    exact (h.log.of_process e (mem_later.mp (hl ▸ List.mem_cons_self)).1).2
  refine ⟨⟨⟨h.log.sorted, h.log.of_process⟩, h.known_le, fun hk => hseq ▸ hhost hk, ?_, ?_, ?_, ?_⟩,
    ⟨?_, ?_, hs.feeding, hs.unfed, fun hk => hseq ▸ hhost hk⟩⟩
  · refine List.pairwise_append.mpr ⟨h.ordered, List.pairwise_singleton _ _, fun a ha b hb => ?_⟩
    rw [List.mem_singleton.mp hb]
    rcases h.published_le a ha with hpast | ⟨hsame, hle⟩
    · exact .inl (hprocess ▸ hpast)
    · exact .inr ⟨hsame.trans hprocess.symm, by omega⟩
  · intro a ha
    rw [hseq]
    rcases List.mem_append.mp ha with ha | ha
    · rcases h.published_le a ha with hpast | ⟨hsame, hle⟩
      · exact .inl hpast
      · exact .inr ⟨hsame, by omega⟩
    · rw [List.mem_singleton.mp ha]
      exact .inr ⟨hprocess, le_rfl⟩
  · rw [hseq]
    exact h.base_le.trans hlt.le
  · intro hk a ha hsub hbase hle
    rw [hseq] at hle
    show a ∈ s.fanOut ++ [e]
    by_cases hold : a.serverSeq ≤ s.serverSeq
    · exact List.mem_append_left _ (h.applied hk a ha hsub hbase hold)
    · -- what lies between is the envelope itself
      obtain ⟨lost, -, hl⟩ := hlater hk
      have hmem : a ∈ e :: (rest ++ lost) := hl ▸ mem_later.mpr ⟨ha, hsub, by omega⟩
      rcases List.mem_cons.mp hmem with rfl | hmem
      · exact List.mem_append_right _ (List.mem_singleton.mpr rfl)
      · have hsorted := hl ▸ later_sorted h.log.sorted
        have hgt := (List.pairwise_cons.mp hsorted).1 a hmem
        omega
  · rw [hseq]
    exact numbered_tail hs.numbered
  · intro hk
    obtain ⟨lost, hlost, hl⟩ := hlater hk
    refine ⟨lost, hlost, ?_⟩
    rw [hseq]
    exact later_tail h.log.sorted hl

theorem publish_all_settled {actions : List Envelope} (h : Settled s known base)
    (hs : Stream s known s.subscriptions s.serverSeq (actions ++ rest)) :
    Settled (actions.foldl publish s) known base ∧
      Stream (actions.foldl publish s) known s.subscriptions (actions.foldl publish s).serverSeq rest := by
  induction actions generalizing s with
  | nil => exact ⟨h, hs⟩
  | cons e actions ih =>
    obtain ⟨hsettled, hstream⟩ := publish_settled h hs
    exact ih hsettled hstream

/-- Publishing leaves the rest of the system. -/
theorem publish_all_eq (actions : List Envelope) (s : System) :
    ∃ serverSeq fanOut, actions.foldl publish s = { s with serverSeq := serverSeq, fanOut := fanOut } := by
  induction actions generalizing s with
  | nil => exact ⟨s.serverSeq, s.fanOut, rfl⟩
  | cons e actions ih =>
    obtain ⟨serverSeq, fanOut, heq⟩ := ih (publish s e)
    exact ⟨serverSeq, fanOut, heq⟩

end AgentHostProtocol.Hosts.Replay
