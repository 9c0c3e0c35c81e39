import AgentHostProtocol.Library.Runs
import Mathlib.Data.Nat.Notation

/-!
# The commands of the Swift runtime

`run` of `HostRuntime` with the stream of commands that it consumes at four places: while it is
connected, while it backs off and once it has failed, each time until an outcome; and not at all
while it connects. A call of `subscribe`, `unsubscribe`, `dispatch` or `reconnect` puts a command
into the stream and waits for its continuation, here the number of the call. `shutdown` puts in
`.shutdown`, finishes the stream and waits for the supervisor. What the commands do besides is
left out.
-/

namespace AgentHostProtocol.Swift.Hosts.Commands

open Library

/-! ### State -/

/-- What a command asks for. -/
inductive Request where
  | subscribe
  | unsubscribe
  | dispatch
  | manualReconnect
  deriving DecidableEq

/-- `HostCommand`. -/
inductive HostCommand where
  | command (request : Request) (reply : ℕ)
  | shutdown
  | connectionEnded (token : ℕ)
  | backoffElapsed (token : ℕ)
  deriving DecidableEq

/-- `RunOutcome`. -/
inductive RunOutcome where
  | shutdown
  | disconnected
  | manualReconnect (reply : ℕ)
  deriving DecidableEq

/-- The await that `run` is at. -/
inductive Supervisor where
  /-- `connectOnce`. -/
  | connecting
  /-- `runConnection`, at the stream. -/
  | running (token : ℕ)
  /-- `runConnection`, in the handler of a command. -/
  | handling (token reply : ℕ)
  | tearingDown (outcome : RunOutcome)
  /-- The connection is gone, or the attempt failed. -/
  | disconnected
  /-- `waitForManualReconnectOrShutdown`, at the stream. -/
  | parked
  | parkedHandling (reply : ℕ)
  /-- `sleepOrCommand`, at the stream. -/
  | sleeping (token : ℕ)
  | sleepingHandling (token reply : ℕ)
  /-- A manual reconnect ended the wait: its reply is next. -/
  | reconnecting (reply : ℕ)
  | finished
  deriving DecidableEq

/-- Where a call of `shutdown` is. -/
inductive ShutdownCall where
  /-- It has put in `.shutdown`. -/
  | yielded
  /-- It has finished the stream, and waits for the supervisor. -/
  | waiting
  | returned
  deriving DecidableEq

/-- A runtime and the calls of its commands. -/
structure State where
  stream : List HostCommand
  streamFinished : Bool
  supervisor : Supervisor
  /-- The last token of `signalTokenSource`. -/
  tokens : ℕ
  shutdowns : List ShutdownCall
  /-- The number of the next command. -/
  next : ℕ
  /-- The commands issued before a call of `shutdown` has put in `.shutdown`. -/
  issued : List ℕ
  /-- Those issued after it. -/
  late : List ℕ
  /-- The continuations that were resumed, the last one first. -/
  resumed : List ℕ
  deriving DecidableEq

/-- A supervisor that makes its first attempt. -/
def State.new : State where
  stream := []
  streamFinished := false
  supervisor := .connecting
  tokens := 0
  shutdowns := []
  next := 0
  issued := []
  late := []
  resumed := []

namespace State

/-! ### The stream -/

/-- `cmdContinuation.yield`: a finished stream drops it. -/
def yield (s : State) (cmd : HostCommand) : State :=
  if s.streamFinished then s else { s with stream := s.stream ++ [cmd] }

/-- A command is issued. -/
def issue (s : State) (request : Request) : State :=
  let cmd : HostCommand := .command request s.next
  if s.shutdowns = [] then yield { s with next := s.next + 1, issued := s.next :: s.issued } cmd
  else yield { s with next := s.next + 1, late := s.next :: s.late } cmd

/-- A pump, a drop detector or a sleep task signals. -/
def signalEnded (s : State) (token : ℕ) : State := yield s (.connectionEnded token)

def signalElapsed (s : State) (token : ℕ) : State := yield s (.backoffElapsed token)

/-- `shutdown` up to `finish`. -/
def callShutdown (s : State) : State :=
  yield { s with shutdowns := s.shutdowns ++ [.yielded] } .shutdown

/-- `cmdContinuation.finish`. -/
def finishStream (s : State) (i : ℕ) : Option State :=
  match s.shutdowns[i]? with
  | some .yielded => some { s with streamFinished := true, shutdowns := s.shutdowns.set i .waiting }
  | _ => none

/-- The supervisor task is over: `shutdown` returns. -/
def returnShutdown (s : State) (i : ℕ) : Option State :=
  match s.shutdowns[i]?, s.supervisor with
  | some .waiting, .finished => some { s with shutdowns := s.shutdowns.set i .returned }
  | _, _ => none

/-! ### The supervisor -/

/-- `connectOnce` returns or throws. -/
def connectOnce (s : State) (succeeds : Bool) : Option State :=
  match s.supervisor with
  | .connecting =>
    if succeeds then some { s with tokens := s.tokens + 1, supervisor := .running (s.tokens + 1) }
    else some { s with supervisor := .disconnected }
  | _ => none

/-- `runConnection` on the next command. -/
def runConnection (s : State) (token : ℕ) : HostCommand → State
  | .shutdown => { s with supervisor := .tearingDown .shutdown }
  | .connectionEnded t =>
    if t = token then { s with supervisor := .tearingDown .disconnected } else s
  | .backoffElapsed _ => s
  | .command .manualReconnect reply => { s with supervisor := .tearingDown (.manualReconnect reply) }
  | .command _ reply => { s with supervisor := .handling token reply }

/-- `waitForManualReconnectOrShutdown` on the next command. -/
def waitForManualReconnectOrShutdown (s : State) : HostCommand → State
  | .shutdown => { s with supervisor := .finished }
  | .connectionEnded _ | .backoffElapsed _ => s
  | .command .manualReconnect reply => { s with supervisor := .reconnecting reply }
  | .command _ reply => { s with supervisor := .parkedHandling reply }

/-- `sleepOrCommand` on the next command. -/
def sleepOrCommand (s : State) (token : ℕ) : HostCommand → State
  | .shutdown => { s with supervisor := .finished }
  | .connectionEnded _ => s
  | .backoffElapsed t => if t = token then { s with supervisor := .connecting } else s
  | .command .manualReconnect reply => { s with supervisor := .reconnecting reply }
  | .command _ reply => { s with supervisor := .sleepingHandling token reply }

/-- `iter.next()` returns a command. -/
def take (s : State) : Option State :=
  match s.stream with
  | [] => none
  | cmd :: stream =>
    match s.supervisor with
    | .running token => some (runConnection { s with stream := stream } token cmd)
    | .parked => some (waitForManualReconnectOrShutdown { s with stream := stream } cmd)
    | .sleeping token => some (sleepOrCommand { s with stream := stream } token cmd)
    | _ => none

/-- `iter.next()` returns `nil`: the loops return `.shutdown`. -/
def takeNil (s : State) : Option State :=
  if s.stream = [] ∧ s.streamFinished then
    match s.supervisor with
    | .running _ => some { s with supervisor := .tearingDown .shutdown }
    | .parked | .sleeping _ => some { s with supervisor := .finished }
    | _ => none
  else none

/-- The handler of a command resumes its continuation. -/
def resumeCommand (s : State) : Option State :=
  match s.supervisor with
  | .handling token reply =>
    some { s with supervisor := .running token, resumed := reply :: s.resumed }
  | .parkedHandling reply => some { s with supervisor := .parked, resumed := reply :: s.resumed }
  | .sleepingHandling token reply =>
    some { s with supervisor := .sleeping token, resumed := reply :: s.resumed }
  | .reconnecting reply => some { s with supervisor := .connecting, resumed := reply :: s.resumed }
  | _ => none

/-- `tearDownClient` returns, and `run` looks at the outcome. -/
def tearDownClient (s : State) : Option State :=
  match s.supervisor with
  | .tearingDown .shutdown => some { s with supervisor := .finished }
  | .tearingDown .disconnected => some { s with supervisor := .disconnected }
  | .tearingDown (.manualReconnect reply) => some { s with supervisor := .reconnecting reply }
  | _ => none

/-- What the policy says of the next attempt. -/
inductive Retry where
  /-- `attemptsExhausted`. -/
  | exhausted
  /-- The delay is zero. -/
  | atOnce
  | backOff
  deriving DecidableEq

/-- The supervisor asks its policy. -/
def retry (s : State) (how : Retry) : Option State :=
  match s.supervisor with
  | .disconnected =>
    match how with
    | .exhausted => some { s with supervisor := .parked }
    | .atOnce => some { s with supervisor := .connecting }
    | .backOff => some { s with tokens := s.tokens + 1, supervisor := .sleeping (s.tokens + 1) }
  | _ => none

/-! ### Steps -/

/-- One step of a caller, the supervisor or a task that it has started. -/
inductive Step where
  | issue (request : Request)
  | signalEnded (token : ℕ)
  | signalElapsed (token : ℕ)
  | callShutdown
  | finishStream (i : ℕ)
  | returnShutdown (i : ℕ)
  | connectOnce (succeeds : Bool)
  | take
  | takeNil
  | resumeCommand
  | tearDownClient
  | retry (how : Retry)
  deriving DecidableEq

/-- The state after a step, `none` if the step cannot happen now. -/
def step (s : State) : Step → Option State
  | .issue request => some (issue s request)
  | .signalEnded token => some (signalEnded s token)
  | .signalElapsed token => some (signalElapsed s token)
  | .callShutdown => some (callShutdown s)
  | .finishStream i => finishStream s i
  | .returnShutdown i => returnShutdown s i
  | .connectOnce succeeds => connectOnce s succeeds
  | .take => take s
  | .takeNil => takeNil s
  | .resumeCommand => resumeCommand s
  | .tearDownClient => tearDownClient s
  | .retry how => retry s how

end State

end AgentHostProtocol.Swift.Hosts.Commands
