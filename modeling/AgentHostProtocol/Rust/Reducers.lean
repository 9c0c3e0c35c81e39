import AgentHostProtocol.Rust.Channels
import AgentHostProtocol.Rust.Session

/-!
# The Rust reducers on any action

Every reducer takes any `StateAction`; one of another channel, or one that the SDK does not
know, is out of scope. The variants of `StateAction` are grouped by channel.
-/

namespace AgentHostProtocol.Rust

variable {U : Type}

/-- `StateAction`. -/
inductive StateAction (U : Type) where
  | root (a : RootAction)
  | session (a : SessionAction U)
  | chat (a : ChatAction U (ChatToolCallConfirmedAction U))
  | canvas (a : CanvasAction)
  | terminal (a : TerminalAction)
  | changeset (a : ChangesetAction U)
  | annotations (a : AnnotationsAction)
  | resourceWatch (a : ResourceWatchAction)
  | automation (a : AutomationAction)
  | automationRun (a : AutomationRunAction)
  | unknown (raw : U)

/-- `apply_action_to_root`. -/
def applyActionToRoot (state : RootState) : StateAction U → ReduceOutcome × RootState
  | .root a => applyRootAction state a
  | _ => (.outOfScope, state)

/-- `apply_action_to_session`. -/
def applyActionToSession [RawId U] (state : SessionState U) :
    StateAction U → ReduceOutcome × SessionState U
  | .session a => Session.applySessionAction state a
  | _ => (.outOfScope, state)

/-- `apply_action_to_chat`. -/
def applyActionToChat [RawId U] (jiff : Jiff) (state : ChatState U) :
    StateAction U → ReduceOutcome × ChatState U
  | .chat a => applyChatAction jiff state a
  | _ => (.outOfScope, state)

/-- `apply_action_to_canvas`. -/
def applyActionToCanvas (state : CanvasState) : StateAction U → ReduceOutcome × CanvasState
  | .canvas a => applyCanvasAction state a
  | _ => (.outOfScope, state)

/-- `apply_action_to_terminal`. -/
def applyActionToTerminal (state : TerminalState U) :
    StateAction U → ReduceOutcome × TerminalState U
  | .terminal a => applyTerminalAction state a
  | _ => (.outOfScope, state)

/-- `apply_action_to_changeset`. -/
def applyActionToChangeset (state : ChangesetState U) :
    StateAction U → ReduceOutcome × ChangesetState U
  | .changeset a => applyChangesetAction state a
  | _ => (.outOfScope, state)

/-- `apply_action_to_annotations`. -/
def applyActionToAnnotations (state : AnnotationsState) :
    StateAction U → ReduceOutcome × AnnotationsState
  | .annotations a => applyAnnotationsAction state a
  | _ => (.outOfScope, state)

/-- `apply_action_to_resource_watch`. -/
def applyActionToResourceWatch (state : ResourceWatchState) :
    StateAction U → ReduceOutcome × ResourceWatchState
  | .resourceWatch a => applyResourceWatchAction state a
  | _ => (.outOfScope, state)

/-- `apply_action_to_automation`. -/
def applyActionToAutomation (state : AutomationState) :
    StateAction U → ReduceOutcome × AutomationState
  | .automation a => applyAutomationAction state a
  | _ => (.outOfScope, state)

/-- `apply_action_to_automation_run`. -/
def applyActionToAutomationRun (state : AutomationRunState) :
    StateAction U → ReduceOutcome × AutomationRunState
  | .automationRun a => applyAutomationRunAction state a
  | _ => (.outOfScope, state)

end AgentHostProtocol.Rust
