import AgentHostProtocol.Session.Reducer

/-!
# Entries of unknown variants

The queue of requests for input and the customizations of a session that may hold objects of variants
that this version does not have. The TypeScript reducer looks at the `id`, the kind and the `children`
of an entry, whatever its variant.
-/

namespace AgentHostProtocol.Session.UnknownVariants

open Library SessionStatus

/-- An object below an entry of an unknown variant. -/
structure RawChild where
  id : Option String
  /-- Its other fields. -/
  rest : Json
  deriving DecidableEq

/-- A JSON object of an unknown variant that carries a string id. -/
structure RawEntry where
  id : String
  children : Option (List RawChild)
  /-- Its other fields. -/
  rest : Json
  deriving DecidableEq

instance : RawId RawEntry := ⟨fun raw => some raw.id⟩

/-! ### Requests for input -/

/-- `awaitsUser`. -/
def awaitsUser : SessionInputRequest RawEntry → Bool
  | .toolClientExecution _ _ _ _ => false
  | _ => true

/-- `withInputNeededStatus`. -/
def withInputNeededStatus (status : SessionStatus) (list : List (SessionInputRequest RawEntry)) :
    SessionStatus :=
  if list.any awaitsUser then status &&& ~~~activityMask ||| inputNeeded
  else status &&& ~~~(inputNeeded &&& ~~~inProgress)

/-- The id of an entry of the input queue. -/
def requestId : SessionInputRequest RawEntry → String
  | .chatInput base _ | .toolConfirmation base _ _ | .toolClientExecution base _ _ _
  | .toolAuthentication base _ _ => base.id
  | .unknown raw => raw.id

/-- `session/inputNeededSet`. -/
def inputNeededSet (state : SessionState RawEntry) (request : SessionInputRequest RawEntry) :
    SessionState RawEntry :=
  let inputNeeded :=
    upsertWhere (fun r => requestId r = requestId request) request (state.inputNeeded.getD [])
  { state with
    inputNeeded := some inputNeeded
    status := withInputNeededStatus state.status inputNeeded }

/-- `session/inputNeededRemoved`. -/
def inputNeededRemoved (state : SessionState RawEntry) (id : String) : SessionState RawEntry :=
  match state.inputNeeded with
  | none => state
  | some list =>
    match eraseWhere (fun r => requestId r = id) list with
    | none => state
    | some remaining =>
      { state with
        status := withInputNeededStatus state.status remaining
        inputNeeded := if 0 < remaining.length then some remaining else none }

/-! ### Customizations -/

/-- The id of a top-level customization. -/
def customizationId : Customization RawEntry → String
  | .plugin c => c.id
  | .directory c => c.id
  | .mcpServer c => c.id
  | .unknown raw => raw.id

/-- The id of a child customization. -/
def childId : ChildCustomization RawEntry → String
  | .agent c => c.id
  | .skill c => c.id
  | .prompt c => c.id
  | .rule c => c.id
  | .hook c => c.id
  | .mcpServer c => c.id
  | .unknown raw => raw.id

/-- `session/customizationUpdated`. -/
def customizationUpdated (state : SessionState RawEntry) (customization : Customization RawEntry) :
    SessionState RawEntry :=
  { state with
    customizations :=
      some (upsertWhere (fun c => customizationId c = customizationId customization) customization
        (state.customizations.getD [])) }

/-- `children` without the one of the id, if it is there. -/
def removeFrom (id : String) (children : Option (List (ChildCustomization RawEntry))) :
    Option (List (ChildCustomization RawEntry)) :=
  children.bind (eraseWhere fun c => childId c = id)

/-- The container without its child of the id, if it has that child. -/
def removeChild (id : String) : Customization RawEntry → Option (Customization RawEntry)
  | .mcpServer _ => none
  | .plugin c => (removeFrom id c.children).map fun children => .plugin { c with children := some children }
  | .directory c =>
    (removeFrom id c.children).map fun children => .directory { c with children := some children }
  | .unknown raw =>
    (raw.children.bind (eraseWhere fun c => c.id = some id)).map fun children =>
      .unknown { raw with children := some children }

/-- `session/customizationRemoved`. -/
def customizationRemoved (state : SessionState RawEntry) (id : String) : SessionState RawEntry :=
  match state.customizations with
  | none => state
  | some list =>
    match eraseWhere (fun c => customizationId c = id) list with
    | some updated => { state with customizations := some updated }
    | none =>
      match mapChanged (removeChild id) list with
      | none => state
      | some updated => { state with customizations := some updated }

/-! ### The actions -/

/-- The actions that put or remove one entry. -/
inductive EntryAction where
  | inputNeededSet (request : SessionInputRequest RawEntry)
  | inputNeededRemoved (id : String)
  | customizationUpdated (customization : Customization RawEntry)
  | customizationRemoved (id : String)

/-- Among the actions of the channel. -/
def EntryAction.toSession : EntryAction → SessionAction RawEntry
  | .inputNeededSet request => .inputNeededSet request
  | .inputNeededRemoved id => .inputNeededRemoved id
  | .customizationUpdated customization => .customizationUpdated customization
  | .customizationRemoved id => .customizationRemoved id

/-- `sessionReducer` on these actions. -/
def sessionReducer (state : SessionState RawEntry) : EntryAction → SessionState RawEntry
  | .inputNeededSet request => inputNeededSet state request
  | .inputNeededRemoved id => inputNeededRemoved state id
  | .customizationUpdated customization => customizationUpdated state customization
  | .customizationRemoved id => customizationRemoved state id

end AgentHostProtocol.Session.UnknownVariants
