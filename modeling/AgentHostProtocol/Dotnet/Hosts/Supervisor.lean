import AgentHostProtocol.Dotnet.Hosts.Policy
import AgentHostProtocol.Library.Runs

/-!
# The supervisor of a .NET host

`SuperviseAsync` of one host with the manual signals of its `HostEntry`. A step is what the
supervisor does between two of its awaits, or half of a call of `ReconnectAsync`, which first cancels
the attempt under way and then releases the semaphore. What a step does is also reported as events.

The teardown of the old client and the handshake of the new one are one await each here: how they
end is up to the environment, also by an `OperationCanceledException` of its own.
-/

namespace AgentHostProtocol.Dotnet.Hosts.Supervisor

open Library

variable {F : Type}

/-! ### State -/

/-- `HostState`, with the text of its error. -/
inductive HostState where
  | connecting
  | connected
  | reconnecting (attempt : UInt32)
  | failed (error : String)
  deriving DecidableEq

/-- Where the supervisor is. -/
inductive Phase where
  /-- `WaitForDropOrManualReconnectAsync`. -/
  | connected
  /-- The old client and its pump are shut down. -/
  | tearingDown (manualWhileConnected : Bool)
  /-- `Failed` is published, `ParkUntilManualReconnectAsync` has not drained the signals. -/
  | givingUp
  /-- `WaitForManualReconnectAsync`. -/
  | parked
  /-- The head of the attempt loop. -/
  | head (attempt : UInt32) (immediate : Bool)
  | backingOff (attempt : UInt32) (delay : TimeSpan)
  /-- `OpenHostAsync`, with whether the token of the attempt is cancelled. -/
  | attempting (attempt : UInt32) (cancelled : Bool)
  | returned
  deriving DecidableEq

/-- A host under supervision. -/
structure Host (F : Type) where
  policy : ReconnectPolicy F
  /-- Whether `DelayAsync` takes a delay; it throws for one that is too long for a timer. -/
  delayable : TimeSpan → Bool
  state : HostState
  phase : Phase
  /-- The count of `_manualReconnect`. -/
  permits : ℕ
  /-- The calls of `ReconnectAsync` that have not released it yet. -/
  releasing : ℕ
  /-- `LifetimeCts`. -/
  cancelled : Bool
  /-- Not in the source: a `ReconnectAsync` was issued while the host was backing off or published
  as failed, and no attempt was made since. -/
  owed : Bool

/-- A host that `AddHostAsync` has connected; signals may have come before. -/
def Host.new (policy : ReconnectPolicy F) (delayable : TimeSpan → Bool) (permits : ℕ) : Host F where
  policy := policy
  delayable := delayable
  state := .connected
  phase := .connected
  permits := permits
  releasing := 0
  cancelled := false
  owed := false

/-- What a step reports. -/
inductive Event where
  | dropped
  /-- The supervisor takes up a `ReconnectAsync`: it was waiting for one, or the attempt under way
  was cancelled by one. -/
  | manualReconnect
  /-- It waited the whole delay. -/
  | backedOff (delay : TimeSpan)
  | attempted
  /-- An attempt failed and is counted. -/
  | failed
  | connected
  /-- `Failed` is published. -/
  | gaveUp
  deriving DecidableEq

/-! ### Steps -/

/-- A step of the supervisor, half a call of `ReconnectAsync`, or the end of the lifetime. -/
inductive Act (F : Type) where
  | drop
  /-- A permit of the semaphore is taken. -/
  | wake
  | tornDown
  /-- `DrainManualReconnectSignals` of the park. -/
  | drain
  /-- A delay is armed; `sample` is what `NextDouble` returns. -/
  | arm (sample : F)
  | elapse
  /-- An attempt without a delay. -/
  | retryNow
  | opened
  /-- The attempt throws anything but an `OperationCanceledException`. -/
  | openFails
  /-- The attempt throws an `OperationCanceledException`. -/
  | openCancelled
  | cancelLifetime
  | return
  /-- `_attemptCts?.Cancel()`, which may miss the attempt under way. -/
  | reconnect (hits : Bool)
  /-- `_manualReconnect.Release()`. -/
  | release

/-- The error of a drop with the policy disabled. -/
def reconnectDisabled : String := "hosts: transport closed and reconnect disabled"

/-- The error of an exhausted policy. -/
def exceededAttempts (maxAttempts : UInt32) : String :=
  "hosts: exceeded " ++ toString maxAttempts.toNat ++ " reconnect attempts"

/-- `BeginAttempt` and `OpenHostAsync`, which publishes `Connecting`. -/
def Host.begin (s : Host F) (attempt : UInt32) : Host F :=
  { s with state := .connecting, phase := .attempting attempt false, owed := false }

/-- Whether the published state is `Failed`. -/
def Host.isFailed (s : Host F) : Bool :=
  match s.state with
  | .failed _ => true
  | _ => false

/-- Whether the supervisor waits for the delay of a retry. -/
def Host.isBackingOff (s : Host F) : Bool :=
  match s.phase with
  | .backingOff _ _ => true
  | _ => false

/-- The token of the attempt under way is cancelled. -/
def Phase.signalled : Phase → Phase
  | .attempting attempt _ => .attempting attempt true
  | phase => phase

/-- The host after a step and what the step reports, `none` if it cannot happen now. -/
def step [Double F] (s : Host F) : Act F → Option (Host F × List Event)
  | .drop =>
    if s.phase = .connected ∧ s.cancelled = false then
      some ({ s with state := .reconnecting 1, phase := .tearingDown false }, [.dropped])
    else none
  | .wake =>
    if 0 < s.permits ∧ s.cancelled = false then
      match s.phase with
      | .connected =>
        some ({ s with
          state := .reconnecting 1, phase := .tearingDown true, permits := s.permits - 1 },
          [.manualReconnect])
      | .parked => some ({ s with phase := .head 1 true, permits := s.permits - 1 }, [.manualReconnect])
      | _ => none
    else none
  | .tornDown =>
    match s.phase with
    | .tearingDown manualWhileConnected =>
      if !manualWhileConnected && s.policy.isDisabled then
        some ({ s with state := .failed reconnectDisabled, phase := .givingUp }, [.gaveUp])
      else some ({ s with phase := .head 1 manualWhileConnected }, [])
    | _ => none
  | .drain =>
    if s.phase = .givingUp then some ({ s with phase := .parked, permits := 0 }, []) else none
  | .arm sample =>
    match s.phase, s.cancelled with
    | .head attempt false, false =>
      let delay := s.policy.backoffFor sample attempt
      if s.delayable delay then
        some ({ s with state := .reconnecting attempt, phase := .backingOff attempt delay }, [])
      else some ({ s with phase := .returned }, [])
    | _, _ => none
  | .elapse =>
    match s.phase, s.cancelled with
    | .backingOff attempt delay, false => some (s.begin attempt, [.backedOff delay, .attempted])
    | _, _ => none
  | .retryNow =>
    match s.phase, s.cancelled with
    | .head attempt true, false => some (s.begin attempt, [.attempted])
    | _, _ => none
  | .opened =>
    match s.phase with
    | .attempting _ _ =>
      some ({ s with state := .connected, phase := .connected, permits := 0 }, [.connected])
    | _ => none
  | .openFails =>
    match s.phase with
    | .attempting attempt _ =>
      if 0 < s.policy.maxAttempts ∧ s.policy.maxAttempts < attempt + 1 then
        some ({ s with state := .failed (exceededAttempts s.policy.maxAttempts), phase := .givingUp },
          [.failed, .gaveUp])
      else some ({ s with phase := .head (attempt + 1) false }, [.failed])
    | _ => none
  | .openCancelled =>
    match s.phase, s.cancelled with
    | .attempting attempt cancelled, false =>
      some ({ s with phase := .head attempt true, permits := 0 },
        if cancelled then [.manualReconnect] else [])
    | _, _ => none
  | .cancelLifetime => some ({ s with cancelled := true }, [])
  | .return => if s.cancelled then some ({ s with phase := .returned }, []) else none
  | .reconnect hits =>
    some ({ s with
      phase := if hits then s.phase.signalled else s.phase
      releasing := s.releasing + 1
      owed := s.owed || s.isBackingOff || s.isFailed }, [])
  | .release =>
    if 0 < s.releasing then
      some ({ s with permits := s.permits + 1, releasing := s.releasing - 1 }, [])
    else none

/-- A host with the history of its run, newest first. -/
abbrev Run (F : Type) := Host F × List Event

/-- The runs of a host. -/
abbrev runStep [Double F] : Run F → Act F → Option (Run F) := logged step

/-- The start of a run. -/
def Run.new (policy : ReconnectPolicy F) (delayable : TimeSpan → Bool) (permits : ℕ) : Run F :=
  (Host.new policy delayable permits, [])

end AgentHostProtocol.Dotnet.Hosts.Supervisor
