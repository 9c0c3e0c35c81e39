import AgentHostProtocol.Rust.Reducers

/-!
# Actions that are not applied

**What is proved**: a Rust reducer that returns anything but `Applied` has left the state as
it was, for every reducer, state and action, except that `session/customizationUpdated` with
a customization of an unknown variant creates the list of customizations before it finds
that there is no id to match on (`unapplied_keeps_state`).
-/

namespace AgentHostProtocol.Rust

open Library

variable {U : Type}

/-! ### The chat reducer -/

theorem withActiveTurn_keeps {s : ChatState U} {turnId : String}
    {k : ActiveTurn U → ReduceOutcome × ChatState U} (hk : ∀ turn, KeepsState s (k turn)) :
    KeepsState s (withActiveTurn s turnId k) := by
  unfold withActiveTurn
  split
  · simp
  · next turn _ =>
    split
    · simp
    · exact hk turn

theorem updateToolCall_keeps (s : ChatState U) (turnId id : String)
    (f : ToolCallState U → ToolCallState U) : KeepsState s (updateToolCall s turnId id f) := by
  refine withActiveTurn_keeps fun turn => ?_
  split <;> simp

theorem updateResponsePart_keeps (s : ChatState U) (turnId id : String)
    (f : ResponsePart U → ResponsePart U) : KeepsState s (updateResponsePart s turnId id f) := by
  refine withActiveTurn_keeps fun turn => ?_
  split <;> simp

theorem refreshIfApplied_keeps {s : ChatState U} {res : ReduceOutcome × ChatState U}
    (h : KeepsState s res) : KeepsState s (refreshIfApplied res) := by
  unfold refreshIfApplied
  split
  · next happlied =>
    rw [happlied]
    simp
  · exact h

/-- The timestamp of an ending is derived before anything is written. -/
theorem endTurn_keeps (jiff : Jiff) (s : ChatState U) (turnId : String) (duration : ℤ)
    (turnState : TurnState) (terminal : Option SessionStatus) (part : Option ErrorResponsePart) :
    KeepsState s (endTurn jiff s turnId duration turnState terminal part) := by
  unfold endTurn
  split
  · simp
  · split
    · simp
    · dsimp only
      split <;> simp

theorem turnStarted_keeps (s : ChatState U) (a : ChatTurnStartedAction) :
    KeepsState s (turnStarted s a) := by
  unfold turnStarted
  dsimp only
  split
  · simp
  · split <;> simp

theorem turnResume_keeps (s : ChatState U) (turnId : String) : KeepsState s (turnResume s turnId) := by
  unfold turnResume
  split
  · simp
  · split
    · simp
    · split
      · simp
      · split
        · split <;> simp
        · simp

theorem truncated_keeps (s : ChatState U) (turnId : Option String) :
    KeepsState s (truncated s turnId) := by
  unfold truncated
  split
  · simp
  · split <;> simp

theorem responsePart_keeps (s : ChatState U) (a : ChatResponsePartAction U) :
    KeepsState s (responsePart s a) := by
  refine withActiveTurn_keeps fun turn => ?_
  split <;> simp

theorem upsertInputRequest_keeps (s : ChatState U) (request : ChatInputRequest) :
    KeepsState s (upsertInputRequest s request) := by
  unfold upsertInputRequest
  split <;> simp

theorem inputAnswerChanged_keeps (s : ChatState U) (a : ChatInputAnswerChangedAction) :
    KeepsState s (inputAnswerChanged s a) := by
  unfold inputAnswerChanged
  split
  · simp
  · split <;> simp

theorem inputCompleted_keeps (s : ChatState U) (a : ChatInputCompletedAction) :
    KeepsState s (inputCompleted s a) := by
  unfold inputCompleted
  split
  · simp
  · split <;> simp

/-- The steering message is removed with the outcome `Applied` in hand. -/
theorem pendingMessageRemoved_keeps (s : ChatState U) (a : ChatPendingMessageRemovedAction) :
    KeepsState s (pendingMessageRemoved s a) := by
  unfold pendingMessageRemoved
  by_cases hsteering : a.kind = .steering ∧ s.steeringMessage.map (·.id) = some a.id
  · simp only [if_pos hsteering]
    split
    · simp
    · split <;> simp
  · simp only [if_neg hsteering]
    split
    · simp
    · split <;> simp

theorem queuedMessagesReordered_keeps (s : ChatState U) (order : List String) :
    KeepsState s (queuedMessagesReordered s order) := by
  unfold queuedMessagesReordered
  split <;> simp

theorem backgroundWorkSet_keeps [RawId U] (s : ChatState U) (work : BackgroundWork U) :
    KeepsState s (backgroundWorkSet s work) := by
  unfold backgroundWorkSet
  split <;> simp

theorem backgroundWorkRemoved_keeps [RawId U] (s : ChatState U) (id : String) :
    KeepsState s (backgroundWorkRemoved s id) := by
  unfold backgroundWorkRemoved
  split
  · simp
  · split <;> simp

/-- Where the list is created, the directory is not in it. -/
theorem workingDirectorySet_keeps (s : ChatState U) (directory : URI) :
    KeepsState s (workingDirectorySet s directory) := by
  unfold workingDirectorySet
  cases hlist : s.workingDirectories with
  | none => simp
  | some list =>
    dsimp only [Option.getD_some]
    split
    · rw [← hlist]
      simp
    · simp

theorem workingDirectoryRemoved_keeps (s : ChatState U) (directory : URI) :
    KeepsState s (workingDirectoryRemoved s directory) := by
  unfold workingDirectoryRemoved
  split
  · simp
  · split <;> simp

theorem moved_keeps (s : ChatState U) (a : ChatMovedAction) : KeepsState s (moved s a) := by
  unfold moved
  dsimp only
  split
  · simp
  · split <;> simp

theorem applyChatAction_keeps [RawId U] (jiff : Jiff) (s : ChatState U)
    (a : ChatAction U (ChatToolCallConfirmedAction U)) : KeepsState s (applyChatAction jiff s a) := by
  cases a with
  | turnStarted a => exact turnStarted_keeps s a
  | turnComplete a | turnCancelled a | error a =>
    rw [applyChatAction]
    exact endTurn_keeps jiff s _ _ _ _ _
  | turnResume turnId => exact turnResume_keeps s turnId
  | truncated turnId => exact truncated_keeps s turnId
  | delta a | reasoning a => exact updateResponsePart_keeps s _ _ _
  | responsePart a => exact responsePart_keeps s a
  | toolCallStart a | usage a => exact withActiveTurn_keeps fun turn => keepsState_applied
  | toolCallDelta a | toolCallContentChanged a => exact updateToolCall_keeps s _ _ _
  | toolCallReady a | toolCallConfirmed a | toolCallComplete a | toolCallResultConfirmed a
  | toolCallAuthRequired a | toolCallAuthResolved a =>
    exact refreshIfApplied_keeps (updateToolCall_keeps s _ _ _)
  | inputRequested request => exact upsertInputRequest_keeps s request
  | inputAnswerChanged a => exact inputAnswerChanged_keeps s a
  | inputCompleted a => exact inputCompleted_keeps s a
  | pendingMessageRemoved a => exact pendingMessageRemoved_keeps s a
  | queuedMessagesReordered order => exact queuedMessagesReordered_keeps s order
  | backgroundWorkSet work => exact backgroundWorkSet_keeps s work
  | backgroundWorkRemoved id => exact backgroundWorkRemoved_keeps s id
  | workingDirectorySet directory => exact workingDirectorySet_keeps s directory
  | workingDirectoryRemoved directory => exact workingDirectoryRemoved_keeps s directory
  | moved a => exact moved_keeps s a
  | _ => exact keepsState_applied

/-! ### The session reducer -/

namespace Session

theorem updateMcpServerCustomizationState_keeps (s : SessionState U) (id : String)
    (next : McpServerState U) (channel : Option URI) :
    KeepsState s (updateMcpServerCustomizationState s id next channel) := by
  unfold updateMcpServerCustomizationState
  split <;> simp

theorem mcpServerBackgroundRequested_keeps (s : SessionState U) (id : String) :
    KeepsState s (mcpServerBackgroundRequested s id) := by
  unfold mcpServerBackgroundRequested
  split
  · simp
  · split <;> simp

theorem customizationToggled_keeps (s : SessionState U) (id : String)
    (enablement : List (CustomizationEnablement U)) :
    KeepsState s (customizationToggled s id enablement) := by
  unfold customizationToggled
  split
  · simp
  · split <;> simp

theorem customizationRemoved_keeps (s : SessionState U) (id : String) :
    KeepsState s (customizationRemoved s id) := by
  unfold customizationRemoved
  split
  · simp
  · split
    · simp
    · split <;> simp

theorem chatsReordered_keeps (s : SessionState U) (chats : List URI) :
    KeepsState s (chatsReordered s chats) := by
  unfold chatsReordered
  split
  · simp
  · split
    · simp
    · split <;> simp

theorem workingDirectorySet_keeps (s : SessionState U) (directory : URI) :
    KeepsState s (workingDirectorySet s directory) := by
  unfold workingDirectorySet
  cases hlist : s.workingDirectories with
  | none => simp
  | some list =>
    dsimp only [Option.getD_some]
    split
    · rw [← hlist]
      simp
    · simp

theorem workingDirectoryRemoved_keeps (s : SessionState U) (directory : URI) :
    KeepsState s (workingDirectoryRemoved s directory) := by
  unfold workingDirectoryRemoved
  split
  · simp
  · split <;> simp

theorem workingDirectoryReplaced_keeps (s : SessionState U) (directory replacement : URI) :
    KeepsState s (workingDirectoryReplaced s directory replacement) := by
  unfold workingDirectoryReplaced
  split
  · simp
  · split
    · simp
    · split <;> simp

theorem inputNeededRemoved_keeps [RawId U] (s : SessionState U) (id : String) :
    KeepsState s (inputNeededRemoved s id) := by
  unfold inputNeededRemoved
  split
  · simp
  · split <;> simp

/-- The action updates a customization of an unknown variant in a session that has no list of
customizations. -/
def CreatesList (s : SessionState U) : SessionAction U → Prop
  | .customizationUpdated (.unknown _) => s.customizations = none
  | _ => False

theorem customizationUpdated_keeps_iff (s : SessionState U) (c : Customization U) :
    KeepsState s (customizationUpdated s c) ↔ ¬ CreatesList s (.customizationUpdated c) := by
  cases c with
  | unknown raw =>
    show (_ → { s with customizations := some (s.customizations.getD []) } = s) ↔
      ¬ s.customizations = none
    cases hlist : s.customizations with
    | none =>
      refine iff_of_false (fun h => ?_) fun h => h rfl
      have hsome := congrArg SessionState.customizations (h nofun)
      rw [hlist] at hsome
      cases hsome
    | some list =>
      refine iff_of_true (fun _ => ?_) (by simp)
      rw [Option.getD_some, ← hlist]
  | _ => exact iff_of_true (keepsState_applied) not_false

theorem applySessionAction_keeps_iff [RawId U] (s : SessionState U) (a : SessionAction U) :
    KeepsState s (applySessionAction s a) ↔ ¬ CreatesList s a := by
  cases a with
  | customizationUpdated c => exact customizationUpdated_keeps_iff s c
  | chatRemoved chat =>
    refine iff_of_true ?_ not_false
    simp only [applySessionAction, chatRemoved]
    split <;> simp
  | chatUpdated chat changes =>
    refine iff_of_true ?_ not_false
    simp only [applySessionAction, chatUpdated]
    split <;> simp
  | configChanged a =>
    refine iff_of_true ?_ not_false
    simp only [applySessionAction, configChanged]
    split <;> simp
  | activeClientRemoved id =>
    refine iff_of_true ?_ not_false
    simp only [applySessionAction, activeClientRemoved]
    split <;> simp
  | inputNeededSet request =>
    refine iff_of_true ?_ not_false
    simp only [applySessionAction, inputNeededSet]
    split <;> simp
  | chatsReordered chats => exact iff_of_true (chatsReordered_keeps s chats) not_false
  | workingDirectorySet d => exact iff_of_true (workingDirectorySet_keeps s d) not_false
  | workingDirectoryRemoved d => exact iff_of_true (workingDirectoryRemoved_keeps s d) not_false
  | workingDirectoryReplaced d r => exact iff_of_true (workingDirectoryReplaced_keeps s d r) not_false
  | inputNeededRemoved id => exact iff_of_true (inputNeededRemoved_keeps s id) not_false
  | customizationToggled id enablement =>
    exact iff_of_true (customizationToggled_keeps s id enablement) not_false
  | customizationRemoved id => exact iff_of_true (customizationRemoved_keeps s id) not_false
  | mcpServerStateChanged a =>
    exact iff_of_true (updateMcpServerCustomizationState_keeps s _ _ _) not_false
  | mcpServerStartRequested id | mcpServerStopRequested id =>
    exact iff_of_true (updateMcpServerCustomizationState_keeps s _ _ _) not_false
  | mcpServerBackgroundRequested id =>
    exact iff_of_true (mcpServerBackgroundRequested_keeps s id) not_false
  | _ => exact iff_of_true (keepsState_applied) not_false

end Session

/-! ### The other reducers -/

theorem applyRootAction_keeps (s : RootState) (a : RootAction) : KeepsState s (applyRootAction s a) := by
  cases a with
  | configChanged values replace =>
    simp only [applyRootAction]
    split <;> simp
  | _ => exact keepsState_applied

theorem applyTerminalAction_keeps (s : TerminalState U) (a : TerminalAction) :
    KeepsState s (applyTerminalAction s a) := by
  cases a with
  | input data => exact keepsState_self
  | commandFinished commandId exitCode durationMs =>
    simp only [applyTerminalAction]
    split <;> simp
  | _ => exact keepsState_applied

/-- Without a change the loop writes nothing. -/
theorem filesReviewChanged_keeps (s : ChangesetState U) (ids : List String) (reviewed : Bool) :
    KeepsState s (filesReviewChanged s ids reviewed) := by
  unfold filesReviewChanged
  cases hchanged : s.files.any (reviewChanges ids reviewed) with
  | true => simp
  | false =>
    intro _
    have hfiles : (s.files.map fun file =>
        if reviewChanges ids reviewed file then { file with reviewed := some reviewed } else file) =
        s.files := by
      conv_rhs => rw [← List.map_id s.files]
      refine List.map_congr_left fun file hfile => ?_
      have hfile : reviewChanges ids reviewed file = false := by
        simpa using List.any_eq_false.mp hchanged file hfile
      simp [hfile]
    simp only [hfiles]

theorem operationStatusChanged_keeps (s : ChangesetState U) (operationId : String)
    (status : ChangesetOperationStatus U) (error : Option ErrorInfo) :
    KeepsState s (operationStatusChanged s operationId status error) := by
  unfold operationStatusChanged
  split
  · simp
  · split <;> simp

theorem applyChangesetAction_keeps (s : ChangesetState U) (a : ChangesetAction U) :
    KeepsState s (applyChangesetAction s a) := by
  cases a with
  | statusChanged status error =>
    simp only [applyChangesetAction]
    split <;> simp
  | fileRemoved fileId =>
    simp only [applyChangesetAction]
    split <;> simp
  | filesReviewChanged files reviewed => exact filesReviewChanged_keeps s files reviewed
  | operationStatusChanged operationId status error =>
    exact operationStatusChanged_keeps s operationId status error
  | cleared =>
    simp only [applyChangesetAction]
    split <;> simp
  | _ => exact keepsState_applied

theorem withEntries_keeps (s : AnnotationsState) (annotationId : String)
    (k : List AnnotationEntry → Option (List AnnotationEntry)) :
    KeepsState s (withEntries s annotationId k) := by
  unfold withEntries
  split
  · simp
  · split <;> simp

theorem applyAnnotationsAction_keeps (s : AnnotationsState) (a : AnnotationsAction) :
    KeepsState s (applyAnnotationsAction s a) := by
  cases a with
  | set thread => exact keepsState_applied
  | updated a =>
    simp only [applyAnnotationsAction]
    split <;> simp
  | removed annotationId =>
    simp only [applyAnnotationsAction]
    split <;> simp
  | entrySet annotationId entry => exact withEntries_keeps s _ _
  | entryRemoved annotationId entryId => exact withEntries_keeps s _ _

theorem applyAutomationAction_keeps (s : AutomationState) (a : AutomationAction) :
    KeepsState s (applyAutomationAction s a) := by
  cases a with
  | removed resource =>
    simp only [applyAutomationAction]
    split <;> simp
  | set automation => exact keepsState_applied
  | _ => exact keepsState_self

theorem applyAutomationRunAction_keeps (s : AutomationRunState) (a : AutomationRunAction) :
    KeepsState s (applyAutomationRunAction s a) := by
  cases a with
  | sessionSet session =>
    simp only [applyAutomationRunAction]
    split <;> simp
  | sessionRemoved session =>
    simp only [applyAutomationRunAction]
    split <;> simp
  | cancelRequested => exact keepsState_self
  | _ => exact keepsState_applied

/-! ### All of them -/

/-- The session action creates the list of customizations. -/
def CreatesList (s : SessionState U) : StateAction U → Prop
  | .session a => Session.CreatesList s a
  | _ => False

theorem applyActionToSession_keeps_iff [RawId U] (s : SessionState U) (a : StateAction U) :
    KeepsState s (applyActionToSession s a) ↔ ¬ CreatesList s a := by
  cases a with
  | session a => exact Session.applySessionAction_keeps_iff s a
  | _ => exact iff_of_true (keepsState_self) not_false

/-- **Actions that are not applied**: nine reducers leave the state as it was, and the session
reducer does exactly where the action does not create the list of customizations. -/
theorem unapplied_keeps_state [RawId U] (jiff : Jiff) (a : StateAction U) :
    (∀ s, KeepsState s (applyActionToRoot s a)) ∧
    (∀ s, KeepsState s (applyActionToSession s a) ↔ ¬ CreatesList s a) ∧
    (∀ s, KeepsState s (applyActionToChat jiff s a)) ∧
    (∀ s, KeepsState s (applyActionToCanvas s a)) ∧
    (∀ s, KeepsState s (applyActionToTerminal s a)) ∧
    (∀ s, KeepsState s (applyActionToChangeset s a)) ∧
    (∀ s, KeepsState s (applyActionToAnnotations s a)) ∧
    (∀ s, KeepsState s (applyActionToResourceWatch s a)) ∧
    (∀ s, KeepsState s (applyActionToAutomation s a)) ∧
    ∀ s, KeepsState s (applyActionToAutomationRun s a) := by
  refine ⟨fun s => ?_, fun s => applyActionToSession_keeps_iff s a, fun s => ?_, fun s => ?_,
    fun s => ?_, fun s => ?_, fun s => ?_, fun s => ?_, fun s => ?_, fun s => ?_⟩
  · cases a with
    | root a => exact applyRootAction_keeps s a
    | _ => exact keepsState_self
  · cases a with
    | chat a => exact applyChatAction_keeps jiff s a
    | _ => exact keepsState_self
  · cases a with
    | canvas a => exact keepsState_applied
    | _ => exact keepsState_self
  · cases a with
    | terminal a => exact applyTerminalAction_keeps s a
    | _ => exact keepsState_self
  · cases a with
    | changeset a => exact applyChangesetAction_keeps s a
    | _ => exact keepsState_self
  · cases a with
    | annotations a => exact applyAnnotationsAction_keeps s a
    | _ => exact keepsState_self
  · cases a with
    | resourceWatch a => exact keepsState_self
    | _ => exact keepsState_self
  · cases a with
    | automation a => exact applyAutomationAction_keeps s a
    | _ => exact keepsState_self
  · cases a with
    | automationRun a => exact applyAutomationRunAction_keeps s a
    | _ => exact keepsState_self

/-- A customization of a variant that the SDK does not know. -/
def unknownCustomization : Customization (Record String) :=
  .unknown ((Record.empty.set "type" "theme").set "id" "t1")

/-- On a new session it is a no-op that creates an empty list. -/
theorem customizationUpdated_creates_list :
    (applyActionToSession (SessionState.new "copilot" "Session")
      (.session (.customizationUpdated unknownCustomization))).1 = .noOp ∧
    (SessionState.new "copilot" "Session" : SessionState (Record String)).customizations = none ∧
    (applyActionToSession (SessionState.new "copilot" "Session")
      (.session (.customizationUpdated unknownCustomization))).2.customizations = some [] :=
  ⟨rfl, rfl, rfl⟩

end AgentHostProtocol.Rust
