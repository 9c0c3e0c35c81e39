import AgentHostProtocol.Swift.Hosts.Commands
import AgentHostProtocol.Library.Ledger

/-!
# Which commands are resumed

The commands that the supervisor still owes an answer are those ahead of `.shutdown` in its stream
and the one it is handling. They make a ledger with those it has resumed; what is issued after a
call of `shutdown` has put in `.shutdown` never enters it, since nobody consumes what is behind.

* `resumed_iff_none_late` — no continuation is resumed twice, and once `run` has finished every
  command was resumed exactly if none was issued behind `.shutdown`.
* `late_command_never_resumed` — one that was waits forever.
-/

namespace AgentHostProtocol.Swift.Hosts.Commands

open Library

namespace State

/-! ### What is owed -/

/-- The commands ahead of `.shutdown`. -/
def ahead : List HostCommand → List ℕ
  | [] | .shutdown :: _ => []
  | .command _ reply :: stream => reply :: ahead stream
  | .connectionEnded _ :: stream | .backoffElapsed _ :: stream => ahead stream

/-- The command that the supervisor holds. -/
def held : Supervisor → List ℕ
  | .handling _ reply | .parkedHandling reply | .sleepingHandling _ reply | .reconnecting reply
  | .tearingDown (.manualReconnect reply) => [reply]
  | _ => []

/-- It has taken `.shutdown`. -/
def stopped : Supervisor → Bool
  | .tearingDown .shutdown | .finished => true
  | _ => false

/-- The commands that are owed an answer. -/
def pending (s : State) : List ℕ :=
  held s.supervisor ++ if stopped s.supervisor then [] else ahead s.stream

/-- Behind `.shutdown` nothing is seen. -/
theorem ahead_append_of_mem {stream : List HostCommand} (h : .shutdown ∈ stream) (cmd : HostCommand) :
    ahead (stream ++ [cmd]) = ahead stream := by
  induction stream with
  | nil => cases h
  | cons c stream ih =>
    cases c with
    | shutdown => rfl
    | command request reply =>
      have htail := ih ((List.mem_cons.mp h).resolve_left nofun)
      show reply :: ahead (stream ++ [cmd]) = _
      rw [htail]
      rfl
    | connectionEnded token => exact ih ((List.mem_cons.mp h).resolve_left nofun)
    | backoffElapsed token => exact ih ((List.mem_cons.mp h).resolve_left nofun)

/-- Ahead of it a command comes last. -/
theorem ahead_append_of_not_mem {stream : List HostCommand} (h : .shutdown ∉ stream)
    (cmd : HostCommand) : ahead (stream ++ [cmd]) = ahead stream ++ ahead [cmd] := by
  induction stream with
  | nil => rfl
  | cons c stream ih =>
    obtain ⟨hne, htail⟩ := not_or.mp (mt List.mem_cons.mpr h)
    cases c with
    | shutdown => exact absurd rfl hne
    | command request reply =>
      show reply :: ahead (stream ++ [cmd]) = reply :: ahead stream ++ ahead [cmd]
      rw [ih htail]
      rfl
    | connectionEnded token => exact ih htail
    | backoffElapsed token => exact ih htail

/-- A command that carries no reply leaves what is ahead as it is. -/
theorem ahead_append_signal {cmd : HostCommand} (hcmd : ahead [cmd] = []) (stream : List HostCommand) :
    ahead (stream ++ [cmd]) = ahead stream := by
  by_cases h : HostCommand.shutdown ∈ stream
  · exact ahead_append_of_mem h cmd
  · rw [ahead_append_of_not_mem h, hcmd, List.append_nil]

/-! ### The invariant -/

/-- The invariant. -/
structure Inv (s : State) : Prop where
  ledger : Ledger s.issued (pending s) s.resumed
  fresh : ∀ n, n ∈ s.issued ∨ n ∈ s.late → n < s.next
  covered : ∀ n < s.next, n ∈ s.issued ∨ n ∈ s.late
  disjoint : ∀ n ∈ s.late, n ∉ s.issued
  /-- Before `shutdown` is called. -/
  uncalled : s.shutdowns = [] →
    .shutdown ∉ s.stream ∧ s.streamFinished = false ∧ stopped s.supervisor = false
  called : s.shutdowns ≠ [] → stopped s.supervisor = true ∨ .shutdown ∈ s.stream

theorem inv_new : Inv new where
  ledger := .empty
  fresh n h := by rcases h with h | h <;> cases h
  covered n h := by cases h
  disjoint n h := by cases h
  uncalled _ := ⟨nofun, rfl, rfl⟩
  called h := absurd rfl h

variable {s s' : State}

/-- The supervisor moves on: it consumes some of the stream, and what it holds and what is ahead
of `.shutdown` stay the same. -/
theorem Inv.moves (h : Inv s) (supervisor : Supervisor) (stream : List HostCommand) (tokens : ℕ)
    (hpending : pending { s with supervisor := supervisor, stream := stream } = pending s)
    (hstream : ∀ cmd ∈ stream, cmd ∈ s.stream)
    (hstopped : stopped supervisor = true → stopped s.supervisor = true ∨ .shutdown ∈ s.stream ∨
      s.streamFinished = true)
    (hshutdown : stopped supervisor = false → stopped s.supervisor = false ∧
      (.shutdown ∈ s.stream → .shutdown ∈ stream)) :
    Inv { s with supervisor := supervisor, stream := stream, tokens := tokens } where
  ledger := by
    have hledger := h.ledger
    rw [← hpending] at hledger
    exact hledger
  fresh := h.fresh
  covered := h.covered
  disjoint := h.disjoint
  uncalled huncalled := by
    obtain ⟨hmem, hfinished, hrunning⟩ := h.uncalled huncalled
    refine ⟨fun hs => hmem (hstream _ hs), hfinished, ?_⟩
    rw [Bool.eq_false_iff]
    intro hs
    rcases hstopped hs with hs | hs | hs
    · rw [hrunning] at hs
      cases hs
    · exact hmem hs
    · rw [hfinished] at hs
      cases hs
  called hcalled := by
    cases hs : stopped supervisor with
    | true => exact .inl rfl
    | false =>
      obtain ⟨hrunning, hkeep⟩ := hshutdown hs
      rcases h.called hcalled with hstop | hmem
      · rw [hrunning] at hstop
        cases hstop
      · exact .inr (hkeep hmem)

/-! ### Callers -/

/-- A signal of a task is put in. -/
theorem Inv.signal (h : Inv s) {cmd : HostCommand} (hcmd : ahead [cmd] = []) (hne : cmd ≠ .shutdown) :
    Inv (yield s cmd) := by
  unfold yield
  split
  next => exact h
  next =>
    have hpending : pending { s with stream := s.stream ++ [cmd] } = pending s := by
      unfold pending
      rw [ahead_append_signal hcmd]
    refine ⟨hpending ▸ h.ledger, h.fresh, h.covered, h.disjoint, fun huncalled => ?_, fun hcalled => ?_⟩
    · obtain ⟨hmem, hrest⟩ := h.uncalled huncalled
      refine ⟨fun hs => ?_, hrest⟩
      rcases List.mem_append.mp hs with hs | hs
      · exact hmem hs
      · exact hne (List.mem_singleton.mp hs).symm
    · exact (h.called hcalled).imp_right fun hmem => List.mem_append_left _ hmem

/-- A command is issued before `shutdown` is called: it is owed an answer. -/
theorem Inv.issued (h : Inv s) (huncalled : s.shutdowns = []) (request : Request) :
    Inv
      { s with
        next := s.next + 1
        issued := s.next :: s.issued
        stream := s.stream ++ [.command request s.next] } := by
  obtain ⟨hmem, hfinished, hrunning⟩ := h.uncalled huncalled
  have hnew : s.next ∉ s.issued := fun hn => absurd (h.fresh _ (.inl hn)) (Nat.lt_irrefl _)
  refine ⟨?_, fun n hn => ?_, fun n hn => ?_, fun n hn hn' => ?_, fun _ => ⟨fun hs => ?_, hfinished, hrunning⟩,
    fun hcalled => absurd huncalled hcalled⟩
  · have hledger := h.ledger.opens hnew
    have hpending : pending { s with
        next := s.next + 1
        issued := s.next :: s.issued
        stream := s.stream ++ [.command request s.next] } = pending s ++ [s.next] := by
      unfold pending
      simp only [hrunning, Bool.false_eq_true, if_false]
      rw [ahead_append_of_not_mem hmem, List.append_assoc]
      rfl
    rw [hpending]
    exact hledger
  · rcases hn with hn | hn
    · rcases List.mem_cons.mp hn with rfl | hn
      · exact Nat.lt_succ_self _
      · exact Nat.lt_succ_of_lt (h.fresh n (.inl hn))
    · exact Nat.lt_succ_of_lt (h.fresh n (.inr hn))
  · rcases Nat.lt_succ_iff_lt_or_eq.mp hn with hn | rfl
    · exact (h.covered n hn).imp_left fun hn => List.mem_cons_of_mem _ hn
    · exact .inl List.mem_cons_self
  · rcases List.mem_cons.mp hn' with rfl | hn'
    · exact absurd (h.fresh _ (.inr hn)) (Nat.lt_irrefl _)
    · exact h.disjoint n hn hn'
  · rcases List.mem_append.mp hs with hs | hs
    · exact hmem hs
    · cases List.mem_singleton.mp hs

/-- A command is issued after that: nobody will see it. -/
theorem Inv.issuedLate (h : Inv s) (hcalled : s.shutdowns ≠ []) (request : Request) :
    Inv (yield { s with next := s.next + 1, late := s.next :: s.late } (.command request s.next)) := by
  have hlate : Inv { s with next := s.next + 1, late := s.next :: s.late } := by
    refine ⟨h.ledger, fun n hn => ?_, fun n hn => ?_, fun n hn hn' => ?_, h.uncalled, h.called⟩
    · rcases hn with hn | hn
      · exact Nat.lt_succ_of_lt (h.fresh n (.inl hn))
      · rcases List.mem_cons.mp hn with rfl | hn
        · exact Nat.lt_succ_self _
        · exact Nat.lt_succ_of_lt (h.fresh n (.inr hn))
    · rcases Nat.lt_succ_iff_lt_or_eq.mp hn with hn | rfl
      · exact (h.covered n hn).imp_right fun hn => List.mem_cons_of_mem _ hn
      · exact .inr List.mem_cons_self
    · rcases List.mem_cons.mp hn with rfl | hn
      · exact absurd (h.fresh _ (.inl hn')) (Nat.lt_irrefl _)
      · exact h.disjoint n hn hn'
  unfold yield
  split
  next => exact hlate
  next =>
    have hpending : pending { s with stream := s.stream ++ [.command request s.next] } = pending s := by
      unfold pending
      rcases h.called hcalled with hstopped | hmem
      · simp only [hstopped, if_true]
      · rw [ahead_append_of_mem hmem]
    refine ⟨?_, hlate.fresh, hlate.covered, hlate.disjoint, fun huncalled => absurd huncalled hcalled, fun _ => ?_⟩
    · show Ledger s.issued (pending { s with stream := s.stream ++ [.command request s.next] }) s.resumed
      rw [hpending]
      exact h.ledger
    · exact (h.called hcalled).imp_right fun hmem => List.mem_append_left _ hmem

theorem Inv.issue (h : Inv s) (request : Request) : Inv (issue s request) := by
  unfold State.issue
  split
  next huncalled =>
    have hfinished := (h.uncalled huncalled).2.1
    unfold yield
    rw [if_neg (by rw [hfinished]; nofun)]
    exact h.issued huncalled request
  next hcalled => exact h.issuedLate hcalled request

theorem Inv.callShutdown (h : Inv s) : Inv (callShutdown s) := by
  have hcalls : s.shutdowns ++ [ShutdownCall.yielded] ≠ [] := List.append_ne_nil_of_right_ne_nil _ nofun
  unfold State.callShutdown yield
  split
  next hfinished =>
    -- the stream was finished by an earlier call
    have hcalled : s.shutdowns ≠ [] := fun huncalled => by
      have hopen := (h.uncalled huncalled).2.1
      exact absurd hfinished (by rw [hopen]; nofun)
    exact ⟨h.ledger, h.fresh, h.covered, h.disjoint, fun hnil => absurd hnil hcalls,
      fun _ => h.called hcalled⟩
  next =>
    refine ⟨?_, h.fresh, h.covered, h.disjoint, fun hnil => absurd hnil hcalls,
      fun _ => .inr (List.mem_append_right _ List.mem_cons_self)⟩
    have hledger := h.ledger
    unfold pending at hledger ⊢
    show Ledger s.issued (held s.supervisor ++
      if stopped s.supervisor then [] else ahead (s.stream ++ [.shutdown])) s.resumed
    rw [ahead_append_signal rfl]
    exact hledger

/-- The calls of `shutdown` go on. -/
theorem Inv.shutdownGoes (h : Inv s) {i : ℕ} {c c' : ShutdownCall} (hi : s.shutdowns[i]? = some c)
    (finished : Bool) : Inv { s with streamFinished := finished, shutdowns := s.shutdowns.set i c' } := by
  have hcalled : s.shutdowns ≠ [] := by
    rintro hnil
    rw [hnil] at hi
    cases hi
  refine ⟨h.ledger, h.fresh, h.covered, h.disjoint, fun hnil => ?_, fun _ => h.called hcalled⟩
  exact absurd (by simpa using hnil) hcalled

theorem Inv.finishStream (h : Inv s) {i : ℕ} (hs : finishStream s i = some s') : Inv s' := by
  unfold State.finishStream at hs
  split at hs
  next hi =>
    cases hs
    exact h.shutdownGoes hi true
  next => cases hs

theorem Inv.returnShutdown (h : Inv s) {i : ℕ} (hs : returnShutdown s i = some s') : Inv s' := by
  unfold State.returnShutdown at hs
  split at hs
  next hi _ =>
    cases hs
    exact h.shutdownGoes hi s.streamFinished
  next => cases hs

/-! ### The supervisor -/

/-- A command is taken from the stream. -/
theorem Inv.takes (h : Inv s) {cmd : HostCommand} {stream : List HostCommand} (supervisor : Supervisor)
    (hstream : s.stream = cmd :: stream) (hrunning : stopped s.supervisor = false)
    (hheld : (held supervisor ++ if stopped supervisor then [] else ahead stream) =
      held s.supervisor ++ ahead (cmd :: stream))
    (hstopped : stopped supervisor = true ↔ cmd = .shutdown) :
    Inv { s with supervisor := supervisor, stream := stream } := by
  refine h.moves supervisor stream s.tokens ?_ (fun c hc => hstream ▸ List.mem_cons_of_mem _ hc) (fun hs => ?_)
    fun hs => ⟨hrunning, fun hmem => ?_⟩
  · unfold pending
    rw [hrunning, hstream]
    exact hheld
  · rw [hstopped.mp hs] at hstream
    exact .inr (.inl (hstream ▸ List.mem_cons_self))
  · rw [hstream] at hmem
    rcases List.mem_cons.mp hmem with hcmd | hmem
    · rw [hstopped.mpr hcmd.symm] at hs
      cases hs
    · exact hmem

/-- A signal is taken that changes nothing. -/
theorem Inv.ignores (h : Inv s) {cmd : HostCommand} {stream : List HostCommand}
    (hstream : s.stream = cmd :: stream) (hrunning : stopped s.supervisor = false)
    (hcmd : ahead (cmd :: stream) = ahead stream) (hne : cmd ≠ .shutdown) :
    Inv { s with stream := stream } := by
  refine h.takes s.supervisor hstream hrunning ?_ (iff_of_false ?_ hne)
  · rw [hrunning, hcmd]
    rfl
  · rw [hrunning]
    nofun

theorem Inv.runConnection (h : Inv s) {token : ℕ} {cmd : HostCommand} {stream : List HostCommand}
    (hsupervisor : s.supervisor = .running token) (hstream : s.stream = cmd :: stream) :
    Inv (runConnection { s with stream := stream } token cmd) := by
  have hrunning : stopped s.supervisor = false := by rw [hsupervisor]; rfl
  have htakes := fun supervisor => h.takes supervisor hstream hrunning
  rw [hsupervisor] at htakes
  cases cmd with
  | shutdown => exact htakes (.tearingDown .shutdown) rfl (iff_of_true rfl rfl)
  | connectionEnded t =>
    show Inv (if t = token then { s with stream := stream, supervisor := .tearingDown .disconnected }
      else { s with stream := stream })
    split
    next => exact htakes (.tearingDown .disconnected) rfl (iff_of_false nofun nofun)
    next => exact h.ignores hstream hrunning rfl nofun
  | backoffElapsed t => exact h.ignores hstream hrunning rfl nofun
  | command request reply =>
    cases request with
    | manualReconnect =>
      exact htakes (.tearingDown (.manualReconnect reply)) rfl (iff_of_false nofun nofun)
    | subscribe => exact htakes (.handling token reply) rfl (iff_of_false nofun nofun)
    | unsubscribe => exact htakes (.handling token reply) rfl (iff_of_false nofun nofun)
    | dispatch => exact htakes (.handling token reply) rfl (iff_of_false nofun nofun)

theorem Inv.waitForManualReconnectOrShutdown (h : Inv s) {cmd : HostCommand}
    {stream : List HostCommand} (hsupervisor : s.supervisor = .parked)
    (hstream : s.stream = cmd :: stream) :
    Inv (waitForManualReconnectOrShutdown { s with stream := stream } cmd) := by
  have hrunning : stopped s.supervisor = false := by rw [hsupervisor]; rfl
  have htakes := fun supervisor => h.takes supervisor hstream hrunning
  rw [hsupervisor] at htakes
  cases cmd with
  | shutdown => exact htakes .finished rfl (iff_of_true rfl rfl)
  | connectionEnded t => exact h.ignores hstream hrunning rfl nofun
  | backoffElapsed t => exact h.ignores hstream hrunning rfl nofun
  | command request reply =>
    cases request with
    | manualReconnect => exact htakes (.reconnecting reply) rfl (iff_of_false nofun nofun)
    | subscribe => exact htakes (.parkedHandling reply) rfl (iff_of_false nofun nofun)
    | unsubscribe => exact htakes (.parkedHandling reply) rfl (iff_of_false nofun nofun)
    | dispatch => exact htakes (.parkedHandling reply) rfl (iff_of_false nofun nofun)

theorem Inv.sleepOrCommand (h : Inv s) {token : ℕ} {cmd : HostCommand} {stream : List HostCommand}
    (hsupervisor : s.supervisor = .sleeping token) (hstream : s.stream = cmd :: stream) :
    Inv (sleepOrCommand { s with stream := stream } token cmd) := by
  have hrunning : stopped s.supervisor = false := by rw [hsupervisor]; rfl
  have htakes := fun supervisor => h.takes supervisor hstream hrunning
  rw [hsupervisor] at htakes
  cases cmd with
  | shutdown => exact htakes .finished rfl (iff_of_true rfl rfl)
  | connectionEnded t => exact h.ignores hstream hrunning rfl nofun
  | backoffElapsed t =>
    show Inv (if t = token then { s with stream := stream, supervisor := .connecting }
      else { s with stream := stream })
    split
    next => exact htakes .connecting rfl (iff_of_false nofun nofun)
    next => exact h.ignores hstream hrunning rfl nofun
  | command request reply =>
    cases request with
    | manualReconnect => exact htakes (.reconnecting reply) rfl (iff_of_false nofun nofun)
    | subscribe => exact htakes (.sleepingHandling token reply) rfl (iff_of_false nofun nofun)
    | unsubscribe => exact htakes (.sleepingHandling token reply) rfl (iff_of_false nofun nofun)
    | dispatch => exact htakes (.sleepingHandling token reply) rfl (iff_of_false nofun nofun)

theorem Inv.take (h : Inv s) (hs : take s = some s') : Inv s' := by
  unfold State.take at hs
  split at hs
  next => cases hs
  next cmd stream hstream =>
    split at hs
    next token hsupervisor => cases hs; exact h.runConnection hsupervisor hstream
    next hsupervisor => cases hs; exact h.waitForManualReconnectOrShutdown hsupervisor hstream
    next token hsupervisor => cases hs; exact h.sleepOrCommand hsupervisor hstream
    next => cases hs

/-- The supervisor moves on without the stream. -/
theorem Inv.goes (h : Inv s) {supervisor : Supervisor} {tokens : ℕ}
    (hheld : held supervisor = held s.supervisor) (hstopped : stopped supervisor = stopped s.supervisor) :
    Inv { s with supervisor := supervisor, tokens := tokens } := by
  refine h.moves supervisor s.stream tokens ?_ (fun _ => id) (fun hs => .inl (hstopped ▸ hs))
    fun hs => ⟨hstopped ▸ hs, id⟩
  unfold pending
  rw [hheld, hstopped]

/-- The stream has ended, and the supervisor with it. -/
theorem Inv.takeNil (h : Inv s) (hs : takeNil s = some s') : Inv s' := by
  unfold State.takeNil at hs
  split at hs
  next hended =>
    have hmoves := fun supervisor hpending => h.moves supervisor s.stream s.tokens hpending (fun _ => id) (fun _ => .inr (.inr hended.2))
    split at hs
    next hsupervisor =>
      cases hs
      refine hmoves (.tearingDown .shutdown) ?_ nofun
      unfold pending
      rw [hsupervisor, hended.1]
      rfl
    next hsupervisor =>
      cases hs
      refine hmoves .finished ?_ nofun
      unfold pending
      rw [hsupervisor, hended.1]
      rfl
    next hsupervisor =>
      cases hs
      refine hmoves .finished ?_ nofun
      unfold pending
      rw [hsupervisor, hended.1]
      rfl
    next => cases hs
  next => cases hs

/-- The command that is held is resumed. -/
theorem Inv.resumes (h : Inv s) {supervisor : Supervisor} {reply : ℕ}
    (hheld : held s.supervisor = [reply]) (hnone : held supervisor = [])
    (hrunning : stopped s.supervisor = false) (hstopped : stopped supervisor = false) :
    Inv { s with supervisor := supervisor, resumed := reply :: s.resumed } := by
  have hledger := h.ledger
  unfold pending at hledger
  rw [hheld, hrunning] at hledger
  have hsettled : Ledger s.issued ([] ++ ahead s.stream) (reply :: s.resumed) := hledger.settles
  refine ⟨?_, h.fresh, h.covered, h.disjoint, fun huncalled => ?_, fun hcalled => ?_⟩
  · show Ledger s.issued (held supervisor ++ if stopped supervisor then [] else ahead s.stream) _
    rw [hnone, hstopped]
    exact hsettled
  · obtain ⟨hmem, hfinished, -⟩ := h.uncalled huncalled
    exact ⟨hmem, hfinished, hstopped⟩
  · rcases h.called hcalled with hs | hmem
    · rw [hrunning] at hs
      cases hs
    · exact .inr hmem

theorem Inv.resumeCommand (h : Inv s) (hs : resumeCommand s = some s') : Inv s' := by
  unfold State.resumeCommand at hs
  split at hs
  next hsupervisor =>
    cases hs
    exact h.resumes (by rw [hsupervisor]; rfl) rfl (by rw [hsupervisor]; rfl) rfl
  next hsupervisor =>
    cases hs
    exact h.resumes (by rw [hsupervisor]; rfl) rfl (by rw [hsupervisor]; rfl) rfl
  next hsupervisor =>
    cases hs
    exact h.resumes (by rw [hsupervisor]; rfl) rfl (by rw [hsupervisor]; rfl) rfl
  next hsupervisor =>
    cases hs
    exact h.resumes (by rw [hsupervisor]; rfl) rfl (by rw [hsupervisor]; rfl) rfl
  next => cases hs

theorem Inv.tearDownClient (h : Inv s) (hs : tearDownClient s = some s') : Inv s' := by
  unfold State.tearDownClient at hs
  split at hs
  next hsupervisor => cases hs; exact h.goes (by rw [hsupervisor]; rfl) (by rw [hsupervisor]; rfl)
  next hsupervisor => cases hs; exact h.goes (by rw [hsupervisor]; rfl) (by rw [hsupervisor]; rfl)
  next hsupervisor => cases hs; exact h.goes (by rw [hsupervisor]; rfl) (by rw [hsupervisor]; rfl)
  next => cases hs

theorem Inv.connectOnce (h : Inv s) {succeeds : Bool} (hs : connectOnce s succeeds = some s') :
    Inv s' := by
  unfold State.connectOnce at hs
  split at hs
  next hsupervisor =>
    split at hs
    next => cases hs; exact h.goes (by rw [hsupervisor]; rfl) (by rw [hsupervisor]; rfl)
    next => cases hs; exact h.goes (by rw [hsupervisor]; rfl) (by rw [hsupervisor]; rfl)
  next => cases hs

theorem Inv.retry (h : Inv s) {how : Retry} (hs : retry s how = some s') : Inv s' := by
  unfold State.retry at hs
  split at hs
  next hsupervisor =>
    cases how with
    | exhausted => cases hs; exact h.goes (by rw [hsupervisor]; rfl) (by rw [hsupervisor]; rfl)
    | atOnce => cases hs; exact h.goes (by rw [hsupervisor]; rfl) (by rw [hsupervisor]; rfl)
    | backOff => cases hs; exact h.goes (by rw [hsupervisor]; rfl) (by rw [hsupervisor]; rfl)
  next => cases hs

/-! ### Runs -/

theorem inv_step {a : Step} (h : Inv s) (hs : step s a = some s') : Inv s' := by
  cases a with
  | issue request => cases hs; exact h.issue request
  | signalEnded token => cases hs; exact h.signal rfl nofun
  | signalElapsed token => cases hs; exact h.signal rfl nofun
  | callShutdown => cases hs; exact h.callShutdown
  | finishStream i => exact h.finishStream hs
  | returnShutdown i => exact h.returnShutdown hs
  | connectOnce succeeds => exact h.connectOnce hs
  | take => exact h.take hs
  | takeNil => exact h.takeNil hs
  | resumeCommand => exact h.resumeCommand hs
  | tearDownClient => exact h.tearDownClient hs
  | retry how => exact h.retry hs

theorem inv_runs {steps : List Step} (hrun : runs step new steps = some s) : Inv s :=
  runs_kept step (fun h hs => inv_step h hs) inv_new hrun

/-- Nothing is owed once `run` has finished. -/
theorem Inv.resumed_of_issued (h : Inv s) (hfinished : s.supervisor = .finished) {n : ℕ}
    (hn : n ∈ s.issued) : n ∈ s.resumed := by
  have hpending : pending s = [] := by
    unfold pending
    rw [hfinished]
    rfl
  have hledger := h.ledger
  rw [hpending] at hledger
  rcases hledger.pending_or_settled hn with hnil | hmem
  · cases hnil
  · exact hmem

/-- A command issued behind `.shutdown` is never resumed. -/
theorem Inv.late_not_resumed (h : Inv s) {n : ℕ} (hn : n ∈ s.late) : n ∉ s.resumed :=
  fun hmem => h.disjoint n hn (h.ledger.perm.mem_iff.mpr (List.mem_append_right _ hmem))

/-- **Settlement**: no continuation is resumed twice, and once `run` has finished and `shutdown` has
returned every command was resumed exactly if none was issued after a call of `shutdown` had put in
`.shutdown`. -/
theorem resumed_iff_none_late {steps : List Step} (hrun : runs step new steps = some s) :
    s.resumed.Nodup ∧ (s.supervisor = .finished → .returned ∈ s.shutdowns →
      ((∀ n < s.next, n ∈ s.resumed) ↔ s.late = [])) := by
  have hinv := inv_runs hrun
  refine ⟨hinv.ledger.settled_nodup, fun hfinished _ => ⟨fun hall => ?_, fun hnone n hn => ?_⟩⟩
  · refine List.eq_nil_iff_forall_not_mem.mpr fun n hn => ?_
    exact hinv.late_not_resumed hn (hall n (hinv.fresh n (.inr hn)))
  · rcases hinv.covered n hn with hissued | hlate
    · exact hinv.resumed_of_issued hfinished hissued
    · rw [hnone] at hlate
      cases hlate

/-- A command is issued while the runtime connects and one while it is connected; then it is shut
down. -/
def shutsDown : List Step :=
  [.issue .subscribe, .connectOnce true, .take, .resumeCommand, .issue .dispatch, .callShutdown,
    .finishStream 0, .take, .resumeCommand, .take, .tearDownClient, .returnShutdown 0]

theorem resumed_iff_none_late_shutsDown :
    ∃ s, runs step new shutsDown = some s ∧ s.resumed.Nodup ∧ ∀ n < 2, n ∈ s.resumed := by
  refine ⟨_, rfl, ?_⟩
  have hsettled := resumed_iff_none_late (show runs step new shutsDown = some _ from rfl)
  exact ⟨hsettled.1, (hsettled.2 rfl (by decide)).mpr rfl⟩

/-- A command that is queued behind `.shutdown`, and one that is issued after `shutdown` has
returned, wait forever: `run` has finished, and nothing is left that could resume them. -/
theorem late_command_never_resumed :
    ∃ s, runs step new [.connectOnce true, .callShutdown, .issue .subscribe, .finishStream 0, .take,
        .tearDownClient, .returnShutdown 0, .issue .dispatch] = some s ∧
      s.supervisor = .finished ∧ .returned ∈ s.shutdowns ∧ s.next = 2 ∧ s.resumed = [] :=
  ⟨_, rfl, rfl, by decide, rfl, rfl⟩

end State

end AgentHostProtocol.Swift.Hosts.Commands
