import AgentHostProtocol.Session.Reducer

/-!
# What most actions leave

Most actions of a session touch neither the chat catalogue nor the input queue and the status
(`Elsewhere`).
-/

namespace AgentHostProtocol.Session

open Library

variable {state : SessionState Empty}

/-- The catalogue, the input queue and the status are as they were. -/
structure Elsewhere (state state' : SessionState Empty) : Prop where
  chats : state'.chats = state.chats
  defaultChat : state'.defaultChat = state.defaultChat
  inputNeeded : state'.inputNeeded = state.inputNeeded
  status : state'.status = state.status

/-- The action is for the catalogue. -/
def onCatalogue : SessionAction Empty → Bool
  | .chatAdded _ | .chatRemoved _ | .chatUpdated _ _ | .chatsReordered _ | .defaultChatChanged _ => true
  | _ => false

/-- The action is for the input queue or the status. -/
def onQueue : SessionAction Empty → Bool
  | .inputNeededSet _ | .inputNeededRemoved _ | .isReadChanged _ | .isArchivedChanged _ => true
  | _ => false

theorem elsewhere_updateMcpServerCustomization (id : String)
    (update : McpServerCustomization Empty → McpServerCustomization Empty) :
    Elsewhere state (updateMcpServerCustomization state id update) := by
  unfold updateMcpServerCustomization
  split
  · exact ⟨rfl, rfl, rfl, rfl⟩
  · split <;> split <;> exact ⟨rfl, rfl, rfl, rfl⟩

theorem elsewhere_customizationToggled (id : String) (enablement : List (CustomizationEnablement Empty)) :
    Elsewhere state (customizationToggled state id enablement) := by
  unfold customizationToggled
  split
  · exact ⟨rfl, rfl, rfl, rfl⟩
  · split <;> split <;> exact ⟨rfl, rfl, rfl, rfl⟩

theorem elsewhere_customizationRemoved (id : String) : Elsewhere state (customizationRemoved state id) := by
  unfold customizationRemoved
  split
  · exact ⟨rfl, rfl, rfl, rfl⟩
  · split
    · exact ⟨rfl, rfl, rfl, rfl⟩
    · split <;> exact ⟨rfl, rfl, rfl, rfl⟩

theorem elsewhere_workingDirectoryRemoved (directory : URI) :
    Elsewhere state (workingDirectoryRemoved state directory) := by
  unfold workingDirectoryRemoved
  split
  · exact ⟨rfl, rfl, rfl, rfl⟩
  · split <;> exact ⟨rfl, rfl, rfl, rfl⟩

theorem elsewhere_workingDirectoryReplaced (directory replacement : URI) :
    Elsewhere state (workingDirectoryReplaced state directory replacement) := by
  unfold workingDirectoryReplaced
  split
  · exact ⟨rfl, rfl, rfl, rfl⟩
  · split
    · exact ⟨rfl, rfl, rfl, rfl⟩
    · split
      · split <;> exact ⟨rfl, rfl, rfl, rfl⟩
      · exact ⟨rfl, rfl, rfl, rfl⟩

/-- Only the actions for the catalogue, the queue and the status change these. -/
theorem sessionReducer_elsewhere {a : SessionAction Empty} (hcatalogue : onCatalogue a = false)
    (hqueue : onQueue a = false) : Elsewhere state (sessionReducer state a) := by
  cases a with
  | chatAdded | chatRemoved | chatUpdated | chatsReordered | defaultChatChanged => cases hcatalogue
  | inputNeededSet | inputNeededRemoved | isReadChanged | isArchivedChanged => cases hqueue
  | workingDirectoryRemoved directory => exact elsewhere_workingDirectoryRemoved directory
  | workingDirectoryReplaced directory replacement =>
    exact elsewhere_workingDirectoryReplaced directory replacement
  | customizationToggled id enablement => exact elsewhere_customizationToggled id enablement
  | customizationRemoved id => exact elsewhere_customizationRemoved id
  | mcpServerStateChanged | mcpServerStartRequested | mcpServerBackgroundRequested
  | mcpServerStopRequested => exact elsewhere_updateMcpServerCustomization _ _
  | configChanged a =>
    simp only [sessionReducer, configChanged]
    split <;> exact ⟨rfl, rfl, rfl, rfl⟩
  | activeClientRemoved clientId =>
    simp only [sessionReducer, activeClientRemoved]
    split <;> exact ⟨rfl, rfl, rfl, rfl⟩
  | workingDirectorySet directory =>
    simp only [sessionReducer, workingDirectorySet]
    split <;> exact ⟨rfl, rfl, rfl, rfl⟩
  | ready | creationFailed | titleChanged | activityChanged | changesetsChanged | metaChanged
  | serverToolsChanged | activeClientSet | customizationsChanged | customizationUpdated =>
    exact ⟨rfl, rfl, rfl, rfl⟩

end AgentHostProtocol.Session
