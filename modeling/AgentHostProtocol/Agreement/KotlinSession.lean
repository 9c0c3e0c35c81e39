import AgentHostProtocol.Agreement.Session
import AgentHostProtocol.Kotlin.Session
import AgentHostProtocol.Library.Runs

/-!
# Where the Kotlin session is the TypeScript session

**What is proved** (`kotlinSession_agrees`): the two reducers make the same session of every session
and every action but these:

* a `session/chatUpdated` that changes whether a catalogued chat is movable or how the user can
  interact with it,
* a `session/mcpServerBackgroundRequested` for an id that several containers have a server of, where
  the servers are not all starting as the first one is.

Nothing is asked of the ids of a session: an edit of the child of an id goes to every container that
has it in both languages. Only to put a server in the background Kotlin looks at the first one, and
then writes its state and its channel to all.
-/

namespace AgentHostProtocol.Agreement.KotlinSession

open Library

variable {s : SessionState Empty}

/-! ### Ids and status -/

@[simp] theorem awaitsUser_eq : Kotlin.Session.awaitsUser = Session.awaitsUser := by
  funext r
  cases r <;> rfl

@[simp] theorem withInputNeededStatus_eq :
    Kotlin.Session.withInputNeededStatus = Session.withInputNeededStatus := by
  funext status list
  simp [Kotlin.Session.withInputNeededStatus, Session.withInputNeededStatus]

@[simp] theorem sessionInputRequestId_eq (r : SessionInputRequest Empty) :
    Kotlin.Session.sessionInputRequestId r = some (Session.requestId r) := by
  cases r with
  | unknown raw => exact raw.elim
  | _ => rfl

@[simp] theorem customizationId_eq (c : Customization Empty) :
    Kotlin.Session.customizationId c = some (Session.customizationId c) := by
  cases c with
  | unknown raw => exact raw.elim
  | _ => rfl

@[simp] theorem childCustomizationId_eq (c : ChildCustomization Empty) :
    Kotlin.Session.childCustomizationId c = some (Session.childId c) := by
  cases c with
  | unknown raw => exact raw.elim
  | _ => rfl

@[simp] theorem customizationChildren_eq : Kotlin.Session.customizationChildren = Session.children? := by
  funext c
  cases c with
  | unknown raw => exact raw.elim
  | _ => rfl

@[simp] theorem withCustomizationChildren_eq (c : Customization Empty) :
    Kotlin.Session.withCustomizationChildren c = fun children => Session.withChildren children c := by
  funext children
  cases c with
  | unknown raw => exact raw.elim
  | _ => rfl

/-! ### Customizations -/

@[simp] theorem effectiveEnablement_eq (enablement : List (CustomizationEnablement Empty)) :
    Kotlin.Session.effectiveEnablement enablement = Session.firstEnabled enablement := by
  cases enablement with
  | nil => rfl
  | cons e _ =>
    cases e with
    | unknown raw => exact raw.elim
    | _ => rfl

@[simp] theorem provenance_eq (enablement : List (CustomizationEnablement Empty)) :
    Kotlin.Session.provenance enablement = Session.provenance enablement := by
  cases enablement <;> rfl

@[simp] theorem withCustomizationEnablement_eq (c : Customization Empty)
    (enablement : List (CustomizationEnablement Empty)) :
    Kotlin.Session.withCustomizationEnablement c enablement =
      Session.applyCustomizationEnablement enablement c := by
  cases c with
  | unknown raw => exact raw.elim
  | _ => simp [Kotlin.Session.withCustomizationEnablement, Session.applyCustomizationEnablement]

@[simp] theorem withChildCustomizationEnablement_eq (c : ChildCustomization Empty)
    (enablement : List (CustomizationEnablement Empty)) :
    Kotlin.Session.withChildCustomizationEnablement c enablement =
      Session.applyChildEnablement enablement c := by
  cases c with
  | unknown raw => exact raw.elim
  | _ => simp [Kotlin.Session.withChildCustomizationEnablement, Session.applyChildEnablement]

@[simp] theorem toggleMcpServerSkill_eq (server : McpServerCustomization Empty) (id : String)
    (enablement : List (CustomizationEnablement Empty)) :
    Kotlin.Session.toggleMcpServerSkill server id enablement =
      Session.toggleMcpServerSkill server id enablement := by
  simp [Kotlin.Session.toggleMcpServerSkill, Session.toggleMcpServerSkill]

@[simp] theorem toggleChildSkill_eq (id : String) (enablement : List (CustomizationEnablement Empty)) :
    Kotlin.Session.toggleChildSkill id enablement = Session.toggleChildSkill id enablement := by
  funext c
  cases c with
  | mcpServer server => simp [Kotlin.Session.toggleChildSkill, Session.toggleChildSkill]
  | _ => rfl

@[simp] theorem toggleContainerChild_eq (id : String) (enablement : List (CustomizationEnablement Empty)) :
    Kotlin.Session.toggleContainerChild id enablement = Session.toggleBelow id enablement := by
  funext c
  cases c with
  | mcpServer server => simp [Kotlin.Session.toggleContainerChild, Session.toggleBelow]
  | unknown raw => exact raw.elim
  | _ =>
    simp only [Kotlin.Session.toggleContainerChild, Session.toggleBelow, Session.toggleContainerChild,
      customizationChildren_eq, childCustomizationId_eq, withCustomizationChildren_eq,
      withChildCustomizationEnablement_eq, toggleChildSkill_eq, Option.some_inj] <;> rfl

theorem customizationToggled_eq (id : String) (enablement : List (CustomizationEnablement Empty)) :
    Kotlin.Session.customizationToggled s id enablement = Session.customizationToggled s id enablement := by
  simp only [Kotlin.Session.customizationToggled, Session.customizationToggled, customizationId_eq,
    Option.some_inj, toggleContainerChild_eq, withCustomizationEnablement_eq] <;> rfl

theorem customizationUpdated_eq (c : Customization Empty) :
    Kotlin.Session.customizationUpdated s c = Session.customizationUpdated s c := by
  simp [Kotlin.Session.customizationUpdated, Session.customizationUpdated]

theorem customizationRemoved_eq (id : String) :
    Kotlin.Session.customizationRemoved s id = Session.customizationRemoved s id := by
  have hremove : Kotlin.Session.removeChild id = Session.removeChild id := by
    funext c
    simp [Kotlin.Session.removeChild, Session.removeChild]
  unfold Kotlin.Session.customizationRemoved Session.customizationRemoved
  cases s.customizations with
  | none => rfl
  | some list =>
    simp only [customizationId_eq, Option.some_inj, hremove]
    cases eraseWhere (fun c => Session.customizationId c = id) list with
    | some updated => rfl
    | none =>
      by_cases hany : list.any fun c => (Session.removeChild id c).isSome
      · simp [Session.mapChanged, hany]
      · simp [Session.mapChanged, hany]

/-! ### MCP servers -/

/-- The server of the id that is the first child with the id of a container. -/
def serverBelow (id : String) (container : Customization Empty) : Option (McpServerCustomization Empty) :=
  ((Session.children? container).bind fun children => children.find? fun c => Session.childId c = id).bind
    fun
    | .mcpServer child => some child
    | _ => none

/-- The MCP servers that an action on the id is for. -/
def serversOf (s : SessionState Empty) (id : String) : List (McpServerCustomization Empty) :=
  match s.customizations with
  | none => []
  | some list =>
    match list.find? fun c => Session.customizationId c = id with
    | some (.mcpServer entry) => [entry]
    | some _ => []
    | none => list.filterMap (serverBelow id)

theorem updateMcpServerCustomizationState_eq (id : String) (next : McpServerState Empty)
    (channel : Option URI) :
    Kotlin.Session.updateMcpServerCustomizationState s id next channel =
      Session.updateMcpServerCustomization s id fun m => { m with state := next, channel := channel } := by
  have hchild : Kotlin.Session.updateMcpServerChild id next channel =
      Session.updateMcpServerChild id fun m => { m with state := next, channel := channel } := by
    funext c
    simp only [Kotlin.Session.updateMcpServerChild, Session.updateMcpServerChild, customizationChildren_eq,
      childCustomizationId_eq, withCustomizationChildren_eq, Option.some_inj] <;> rfl
  unfold Kotlin.Session.updateMcpServerCustomizationState Session.updateMcpServerCustomization
  cases s.customizations with
  | none => rfl
  | some list =>
    simp only [customizationId_eq, Option.some_inj, hchild]
    cases list.findIdx? fun c => Session.customizationId c = id with
    | some topIdx => rfl
    | none =>
      generalize Session.updateMcpServerChild id _ = update
      by_cases hany : list.any fun c => (update c).isSome
      · simp [Session.mapChanged, hany]
      · simp [Session.mapChanged, hany]

theorem findMcpServerChild_eq (id : String) (list : List (Customization Empty)) :
    Kotlin.Session.findMcpServerChild id list = (list.filterMap (serverBelow id)).head? := by
  induction list with
  | nil => rfl
  | cons c list ih =>
    have hfirst : Kotlin.Session.firstChild id c =
        (Session.children? c).bind fun children => children.find? fun c => Session.childId c = id := by
      simp [Kotlin.Session.firstChild]
    simp only [Kotlin.Session.findMcpServerChild, List.filterMap_cons, serverBelow, hfirst, ih]
    cases (Session.children? c).bind fun children => children.find? fun c => Session.childId c = id with
    | none => rfl
    | some child => cases child <;> rfl

theorem findMcpServerCustomization_eq (id : String) :
    Kotlin.Session.findMcpServerCustomization s id = (serversOf s id).head? := by
  unfold Kotlin.Session.findMcpServerCustomization serversOf
  cases s.customizations with
  | none => rfl
  | some list =>
    simp only [customizationId_eq, Option.some_inj, findMcpServerChild_eq]
    cases list.find? fun c => Session.customizationId c = id with
    | none => rfl
    | some c => cases c <;> rfl

/-- Two updates of a server make the same container exactly if they agree on its server. -/
theorem updateMcpServerChild_congr_iff {id : String}
    {f g : McpServerCustomization Empty → McpServerCustomization Empty} (c : Customization Empty) :
    (Session.updateMcpServerChild id f c).getD c = (Session.updateMcpServerChild id g c).getD c ↔
      ∀ m, serverBelow id c = some m → f m = g m := by
  unfold Session.updateMcpServerChild serverBelow
  cases hc : Session.children? c with
  | none => simp
  | some children =>
    simp only [Option.bind_some]
    rcases find?_cases (fun c => Session.childId c = id) children with ⟨hfind, hidx⟩ | ⟨i, child, hfind, hidx, hget⟩
    · simp [hfind, hidx]
    · simp only [hfind, hidx, hget, Option.bind_some]
      obtain ⟨hi, -⟩ := List.getElem?_eq_some_iff.mp hget
      cases child with
      | mcpServer m =>
        simp only [Option.getD_some, Option.some_inj, forall_eq']
        constructor
        · intro h
          have hchildren : ∀ l, Session.children? (Session.withChildren l c) = some l := by
            intro l
            cases c with
            | mcpServer server => cases hc
            | unknown raw => exact raw.elim
            | _ => rfl
          have hlist := congrArg Session.children? h
          rw [hchildren, hchildren, Option.some_inj] at hlist
          have hat := congrArg (fun l => l[i]?) hlist
          simpa [hi] using hat
        · intro h
          rw [h]
      | _ => simp

/-- An update of the server of an id that no customization at the top has. -/
theorem updateMcpServerCustomization_below {id : String} {list : List (Customization Empty)}
    (hl : s.customizations = some list) (htop : (list.findIdx? fun c => Session.customizationId c = id) = none)
    (f : McpServerCustomization Empty → McpServerCustomization Empty) :
    Session.updateMcpServerCustomization s id f =
      { s with customizations := some (list.map fun c => (Session.updateMcpServerChild id f c).getD c) } := by
  simp only [Session.updateMcpServerCustomization, Session.mapChanged, hl, htop]
  by_cases hany : list.any fun c => (Session.updateMcpServerChild id f c).isSome
  · simp [hany]
  · have hsame : list.map (fun c => (Session.updateMcpServerChild id f c).getD c) = list := by
      refine (List.map_congr_left fun c hc => ?_).trans (List.map_id list)
      have hnone := List.any_eq_false.mp (Bool.eq_false_iff.mpr hany) c hc
      rw [Option.not_isSome_iff_eq_none.mp hnone]
      rfl
    simp only [hany, hsame, ← hl]
    rfl

/-- **The servers of an id** are all that an update of the id depends on. -/
theorem updateMcpServerCustomization_congr_iff {id : String}
    {f g : McpServerCustomization Empty → McpServerCustomization Empty} :
    Session.updateMcpServerCustomization s id f = Session.updateMcpServerCustomization s id g ↔
      ∀ m ∈ serversOf s id, f m = g m := by
  cases hl : s.customizations with
  | none => simp [Session.updateMcpServerCustomization, serversOf, hl]
  | some list =>
    rcases find?_cases (fun c => Session.customizationId c = id) list with ⟨hfind, hidx⟩ | ⟨i, c, hfind, hidx, hget⟩
    · rw [updateMcpServerCustomization_below hl hidx, updateMcpServerCustomization_below hl hidx]
      simp only [serversOf, hl, hfind, List.mem_filterMap]
      constructor
      · rintro h m ⟨c, hc, hm⟩
        have hlist := Option.some.inj (congrArg SessionState.customizations h)
        exact (updateMcpServerChild_congr_iff c).mp (List.map_inj_left.mp hlist c hc) m hm
      · intro h
        have hlist := List.map_congr_left fun c hc =>
          (updateMcpServerChild_congr_iff c).mpr fun m hm => h m ⟨c, hc, hm⟩
        rw [hlist]
    · simp only [Session.updateMcpServerCustomization, serversOf, hl, hfind, hidx, hget]
      obtain ⟨hi, -⟩ := List.getElem?_eq_some_iff.mp hget
      cases c with
      | mcpServer entry =>
        simp only [List.mem_singleton, forall_eq]
        constructor
        · intro h
          have hat := congrArg (fun l => l[i]?) (Option.some.inj (congrArg SessionState.customizations h))
          simpa [hi] using hat
        · intro h
          rw [h]
      | _ => simp

/-- An update that leaves every server as it is. -/
theorem updateMcpServerCustomization_id (id : String) :
    Session.updateMcpServerCustomization s id (fun m => m) = s := by
  cases hl : s.customizations with
  | none => simp [Session.updateMcpServerCustomization, hl]
  | some list =>
    rcases find?_cases (fun c => Session.customizationId c = id) list with ⟨-, hidx⟩ | ⟨i, c, -, hidx, hget⟩
    · have hchild : ∀ c, (Session.updateMcpServerChild id (fun m => m) c).getD c = c := by
        intro c
        unfold Session.updateMcpServerChild
        cases hc : Session.children? c with
        | none => rfl
        | some children =>
          rcases find?_cases (fun c => Session.childId c = id) children with ⟨-, hidx⟩ | ⟨i, child, -, hidx, hget⟩
          · simp [hidx]
          · cases child with
            | mcpServer m => simp [hidx, hget, set_eq_self hget, Session.withChildren_children? hc]
            | _ => simp [hidx, hget]
      rw [updateMcpServerCustomization_below hl hidx]
      simp [hchild, ← hl]
    · simp only [Session.updateMcpServerCustomization, hl, hidx, hget]
      cases c with
      | mcpServer entry => simp [set_eq_self hget, ← hl]
      | _ => rfl

theorem updateMcpServerCustomization_eq_self_iff {id : String}
    {f : McpServerCustomization Empty → McpServerCustomization Empty} :
    Session.updateMcpServerCustomization s id f = s ↔ ∀ m ∈ serversOf s id, f m = m := by
  conv_lhs => rhs; rw [← updateMcpServerCustomization_id (s := s) id]
  exact updateMcpServerCustomization_congr_iff

/-- Kotlin, which looks at the first server, puts `m` in the background just as TypeScript does. -/
def StartsAlike (first m : McpServerCustomization Empty) : Prop :=
  if first.state = .starting (some true) then
    (m.state = .starting (some true) ∨ m.state = .starting (some false)) ∧ m.channel = first.channel
  else m.state ≠ .starting (some true)

theorem startsAlike_self (m : McpServerCustomization Empty) : StartsAlike m m := by
  by_cases h : m.state = .starting (some true) <;> simp [StartsAlike, h]

theorem background_of_blocking {m : McpServerCustomization Empty} (h : m.state = .starting (some true)) :
    Session.mcpServerBackgroundRequested m = { m with state := .starting (some false) } := by
  simp [Session.mcpServerBackgroundRequested, h]

theorem background_of_not_blocking {m : McpServerCustomization Empty} (h : m.state ≠ .starting (some true)) :
    Session.mcpServerBackgroundRequested m = m := by
  unfold Session.mcpServerBackgroundRequested
  split
  · next hstate => exact absurd hstate h
  · rfl

theorem background_eq_self_iff (m : McpServerCustomization Empty) :
    Session.mcpServerBackgroundRequested m = m ↔ m.state ≠ .starting (some true) := by
  constructor
  · intro h hstate
    rw [background_of_blocking hstate] at h
    have hstate' := congrArg McpServerCustomization.state h
    rw [hstate] at hstate'
    simp at hstate'
  · exact background_of_not_blocking

/-- A server in the state and with the channel that Kotlin writes to all servers of the id. -/
theorem written_eq_background_iff (m : McpServerCustomization Empty) (channel : Option URI) :
    { m with state := .starting (some false), channel := channel } = Session.mcpServerBackgroundRequested m ↔
      (m.state = .starting (some true) ∨ m.state = .starting (some false)) ∧ m.channel = channel := by
  by_cases h : m.state = .starting (some true)
  · rw [background_of_blocking h]
    constructor
    · intro heq
      exact ⟨.inl h, (congrArg McpServerCustomization.channel heq).symm⟩
    · rintro ⟨-, rfl⟩
      rfl
  · rw [background_of_not_blocking h]
    constructor
    · intro heq
      have hstate := congrArg McpServerCustomization.state heq
      have hchannel := congrArg McpServerCustomization.channel heq
      exact ⟨.inr hstate.symm, hchannel.symm⟩
    · rintro ⟨hstate | hstate, rfl⟩
      · exact absurd hstate h
      · rw [← hstate]

theorem mcpServerBackgroundRequested_eq_iff (id : String) :
    Kotlin.Session.mcpServerBackgroundRequested s id =
        Session.updateMcpServerCustomization s id Session.mcpServerBackgroundRequested ↔
      ∀ first, (serversOf s id).head? = some first → ∀ m ∈ serversOf s id, StartsAlike first m := by
  unfold Kotlin.Session.mcpServerBackgroundRequested
  rw [findMcpServerCustomization_eq]
  cases hhead : (serversOf s id).head? with
  | none =>
    refine iff_of_true ?_ (by simp)
    refine (updateMcpServerCustomization_eq_self_iff.mpr fun m hm => ?_).symm
    rw [List.head?_eq_none_iff.mp hhead] at hm
    cases hm
  | some first =>
    simp only [Option.some_inj, forall_eq']
    by_cases hstate : first.state = .starting (some true)
    · simp only [hstate, updateMcpServerCustomizationState_eq, updateMcpServerCustomization_congr_iff,
        written_eq_background_iff, StartsAlike, if_true]
    · split
      · next h => exact absurd h hstate
      · refine eq_comm.trans ?_
        simp only [updateMcpServerCustomization_eq_self_iff, background_eq_self_iff, StartsAlike, if_neg hstate]

/-! ### The chat catalogue -/

theorem applyChanges_eq_iff (changes : PartialChatSummary) (summary : ChatSummary) :
    Kotlin.Session.applyChanges changes summary = Session.applyChanges changes summary ↔
      ¬ Uncopied changes summary := by
  rw [← applyChanges_agrees_iff]
  rfl

theorem chatUpdated_eq_iff (chat : URI) (changes : PartialChatSummary) :
    Kotlin.Session.chatUpdated s chat changes = Session.chatUpdated s chat changes ↔
      ¬ LosesField s (.chatUpdated chat changes) := by
  unfold Kotlin.Session.chatUpdated Session.chatUpdated LosesField
  rcases find?_cases (fun c => c.resource = chat) s.chats with ⟨hfind, hidx⟩ | ⟨i, summary, hfind, hidx, hget⟩
  · simp [hfind, hidx]
  · simp only [hfind, hidx, hget, Option.some_inj, exists_eq_left', ← applyChanges_eq_iff]
    obtain ⟨hi, -⟩ := List.getElem?_eq_some_iff.mp hget
    constructor
    · intro h
      have hat := congrArg (fun l => l[i]?) (congrArg SessionState.chats h)
      simpa [hi] using hat
    · intro h
      rw [h]

/-- A look-up of a list succeeds if one that drops what is not there drops nothing. -/
theorem mapM_eq_filterMap {α β : Type} (f : α → Option β) (l : List α) :
    l.mapM f = if (l.filterMap f).length = l.length then some (l.filterMap f) else none := by
  induction l with
  | nil => simp
  | cons x l ih =>
    have hle := List.length_filterMap_le f l
    cases hx : f x with
    | none =>
      have hshort : (l.filterMap f).length ≠ l.length + 1 := by omega
      simp [hx, hshort]
    | some y =>
      by_cases hall : (l.filterMap f).length = l.length <;> simp [hx, ih, hall]

theorem chatsReordered_eq (chats : List URI) :
    Kotlin.Session.chatsReordered s chats = Session.chatsReordered s chats := by
  have hsummary : Kotlin.Session.summaryOf s.chats = Session.summaryOf s.chats := rfl
  unfold Kotlin.Session.chatsReordered Session.chatsReordered
  split
  · rfl
  · next hlengths =>
    rw [not_or, not_not] at hlengths
    simp only [hsummary, mapM_eq_filterMap, ← hlengths.1]
    by_cases hall : (chats.filterMap (Session.summaryOf s.chats)).length = chats.length
    · simp only [hall, ne_eq, not_true_eq_false, if_false, if_true]
      split
      · next hsame => rw [hsame]
      · rfl
    · simp [hall]

/-! ### Other fields -/

theorem configChanged_eq (a : SessionConfigChangedAction) :
    Kotlin.Session.configChanged s a = Session.configChanged s a := by
  unfold Kotlin.Session.configChanged Session.configChanged
  cases s.config with
  | none => rfl
  | some config => rcases a.replace with _ | _ | _ <;> simp

theorem withoutIndex_from (l : List URI) (idx k : ℕ) :
    ((l.zipIdx k).filter fun (_, index) => index ≠ idx + k).map Prod.fst = l.eraseIdx idx := by
  induction l generalizing idx k with
  | nil => rfl
  | cons d l ih =>
    cases idx with
    | zero =>
      have hrest : (l.zipIdx (k + 1)).filter (fun (_, index) => index ≠ 0 + k) = l.zipIdx (k + 1) := by
        rw [List.filter_eq_self]
        rintro ⟨d, index⟩ hmem
        have hle := List.le_snd_of_mem_zipIdx hmem
        simp
        omega
      simp only [List.zipIdx_cons, List.filter_cons, hrest]
      simp
    | succ idx =>
      have htail := ih idx (k + 1)
      rw [show idx + (k + 1) = idx + 1 + k by omega] at htail
      simp only [List.zipIdx_cons, List.filter_cons, List.eraseIdx_cons_succ, ← htail]
      simp

theorem workingDirectoryReplaced_eq (directory replacement : URI) :
    Kotlin.Session.workingDirectoryReplaced s directory replacement =
      Session.workingDirectoryReplaced s directory replacement := by
  have hreplace : ∀ list idx, Kotlin.Session.replaceAt list idx replacement =
      Session.replaceAt list idx replacement := by
    intro list idx
    refine Eq.trans ?_ (Session.replaceAt_from list idx replacement 0).symm
    simp [Kotlin.Session.replaceAt]
  have hwithout : ∀ list idx, Kotlin.Session.withoutIndex list idx = list.eraseIdx idx := fun list idx =>
    withoutIndex_from list idx 0
  unfold Kotlin.Session.workingDirectoryReplaced Session.workingDirectoryReplaced
  cases s.workingDirectories with
  | none => rfl
  | some list =>
    dsimp only
    cases list.findIdx? fun d => d = directory with
    | none => rfl
    | some idx =>
      dsimp only
      cases list.findIdx? fun d => d = replacement with
      | none => simp [hreplace]
      | some replacementIdx => by_cases hlt : replacementIdx < idx <;> simp [hlt, hreplace, hwithout]

theorem inputNeededSet_eq (request : SessionInputRequest Empty) :
    Kotlin.Session.inputNeededSet s request = Session.inputNeededSet s request := by
  simp [Kotlin.Session.inputNeededSet, Session.inputNeededSet]

theorem inputNeededRemoved_eq (id : String) :
    Kotlin.Session.inputNeededRemoved s id = Session.inputNeededRemoved s id := by
  unfold Kotlin.Session.inputNeededRemoved Session.inputNeededRemoved
  cases s.inputNeeded with
  | none => rfl
  | some list =>
    simp only [sessionInputRequestId_eq, Option.some_inj, withInputNeededStatus_eq]
    cases eraseWhere (fun r => Session.requestId r = id) list with
    | none => rfl
    | some updated => cases updated <;> rfl

/-! ### The reducers -/

/-- The actions on which the two reducers part. -/
inductive Diverges (s : SessionState Empty) : SessionAction Empty → Prop
  /-- Kotlin leaves a field of the summary as it was. -/
  | field {a : SessionAction Empty} (h : LosesField s a) : Diverges s a
  /-- The servers of the id are not all starting as the first one is. -/
  | servers {id : String} {first m : McpServerCustomization Empty}
    (hfirst : (serversOf s id).head? = some first) (hm : m ∈ serversOf s id) (h : ¬ StartsAlike first m) :
    Diverges s (.mcpServerBackgroundRequested id)

theorem diverges_iff_losesField {a : SessionAction Empty} (ha : ∀ id, a ≠ .mcpServerBackgroundRequested id) :
    Diverges s a ↔ LosesField s a := by
  constructor
  · rintro (h | ⟨-, -, -⟩)
    · exact h
    · exact absurd rfl (ha _)
  · exact .field

theorem diverges_background_iff {id : String} :
    Diverges s (.mcpServerBackgroundRequested id) ↔
      ∃ first, (serversOf s id).head? = some first ∧ ∃ m ∈ serversOf s id, ¬ StartsAlike first m := by
  constructor
  · rintro (h | ⟨hfirst, hm, h⟩)
    · exact h.elim
    · exact ⟨_, hfirst, _, hm, h⟩
  · rintro ⟨first, hfirst, m, hm, h⟩
    exact .servers hfirst hm h

/-- Any other action agrees if its two branches do. -/
theorem agrees_iff {a : SessionAction Empty} (ha : ∀ id, a ≠ .mcpServerBackgroundRequested id)
    (hfield : ¬ LosesField s a) {x y : SessionState Empty} (h : x = y) : x = y ↔ ¬ Diverges s a :=
  iff_of_true h (mt (diverges_iff_losesField ha).mp hfield)

/-- **One step**: the reducers agree exactly where they do not diverge. -/
theorem sessionReducer_eq_iff (s : SessionState Empty) (a : SessionAction Empty) :
    Kotlin.sessionReducer s a = Session.sessionReducer s a ↔ ¬ Diverges s a := by
  cases a with
  | chatUpdated chat changes =>
    rw [diverges_iff_losesField (by simp)]
    exact chatUpdated_eq_iff chat changes
  | mcpServerBackgroundRequested id =>
    refine (mcpServerBackgroundRequested_eq_iff id).trans ?_
    rw [diverges_background_iff]
    push Not
    rfl
  | chatsReordered chats => exact agrees_iff (by simp) id (chatsReordered_eq chats)
  | configChanged a => exact agrees_iff (by simp) id (configChanged_eq a)
  | workingDirectoryReplaced directory replacement =>
    exact agrees_iff (by simp) id (workingDirectoryReplaced_eq directory replacement)
  | inputNeededSet request => exact agrees_iff (by simp) id (inputNeededSet_eq request)
  | inputNeededRemoved requestId => exact agrees_iff (by simp) id (inputNeededRemoved_eq requestId)
  | customizationToggled customizationId enablement =>
    exact agrees_iff (by simp) id (customizationToggled_eq customizationId enablement)
  | customizationUpdated c => exact agrees_iff (by simp) id (customizationUpdated_eq c)
  | customizationRemoved customizationId =>
    exact agrees_iff (by simp) id (customizationRemoved_eq customizationId)
  | mcpServerStateChanged a =>
    exact agrees_iff (by simp) id (updateMcpServerCustomizationState_eq a.id a.state a.channel)
  | mcpServerStartRequested serverId =>
    exact agrees_iff (by simp) id (updateMcpServerCustomizationState_eq serverId _ _)
  | mcpServerStopRequested serverId =>
    exact agrees_iff (by simp) id (updateMcpServerCustomizationState_eq serverId _ _)
  | _ => exact agrees_iff (by simp) id rfl

/-- An MCP server of the id `m`. -/
def serverOn (channel : URI) (blocking : Bool) : McpServerCustomization Empty :=
  { id := "m", uri := "file:///m", name := "M", icons := none, range := none, _meta := none
    enablement := none, state := .starting (some blocking), channel := some channel, mcpApp := none
    children := none }

/-- A plugin with one MCP server. -/
def pluginWith (id : String) (server : McpServerCustomization Empty) : Customization Empty :=
  .plugin
    { id := id, uri := "file:///p", name := "P", icons := none, range := none, _meta := none
      clientId := none, load := none, children := some [.mcpServer server], enablement := none
      version := none }

/-- A session of two plugins that serve `m`, each on a channel of its own. -/
def twoServers (channel : URI) : SessionState Empty :=
  { SessionState.new "copilot" "Session" with
    customizations :=
      some [pluginWith "p" (serverOn "mcp:/a" true), pluginWith "q" (serverOn channel true)] }

/-- On two channels, Kotlin moves the second server to the channel of the first. -/
theorem kotlinSession_disagrees_channels :
    serversOf (Kotlin.sessionReducer (twoServers "mcp:/b") (.mcpServerBackgroundRequested "m")) "m" =
      [serverOn "mcp:/a" false, serverOn "mcp:/a" false] ∧
    serversOf (Session.sessionReducer (twoServers "mcp:/b") (.mcpServerBackgroundRequested "m")) "m" =
      [serverOn "mcp:/a" false, serverOn "mcp:/b" false] := by
  exact ⟨by decide, by decide⟩

end AgentHostProtocol.Agreement.KotlinSession
