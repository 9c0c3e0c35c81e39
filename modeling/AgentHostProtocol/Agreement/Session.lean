import AgentHostProtocol.Rust.Session
import AgentHostProtocol.Session.ChatCatalogue
import AgentHostProtocol.Session.WorkingDirectories

/-!
# Where the two session reducers agree

**What is proved**: on a session whose catalogued chats have distinct resources and whose
containers share no child id, the two reducers agree on an action exactly when it is not a
`session/chatUpdated` that changes whether a catalogued chat is movable or how the user can
interact with it (`sessionReducers_agree`). The Rust reducer does not copy these two fields.

TypeScript edits the child of an id in every container that has it, Rust in the first one;
the searches through the tree agree because there is at most one.
-/

namespace AgentHostProtocol.Agreement

open Library

variable {s : SessionState Empty}

/-! ### Ids and status -/

theorem awaitsUser_eq (r : SessionInputRequest Empty) :
    Rust.Session.awaitsUser r = Session.awaitsUser r := by
  cases r <;> rfl

theorem withInputNeededStatus_eq (status : SessionStatus) (l : List (SessionInputRequest Empty)) :
    Rust.Session.withInputNeededStatus status l = Session.withInputNeededStatus status l := by
  unfold Rust.Session.withInputNeededStatus Session.withInputNeededStatus
  rw [funext awaitsUser_eq]

theorem inputRequestId_eq (r : SessionInputRequest Empty) :
    Rust.Session.inputRequestId r = some (Session.requestId r) := by
  cases r with
  | unknown raw => exact raw.elim
  | _ => rfl

theorem customizationId_eq (c : Customization Empty) :
    Rust.Session.customizationId c = some (Session.customizationId c) := by
  cases c with
  | unknown raw => exact raw.elim
  | _ => rfl

theorem childIdOf_eq (c : ChildCustomization Empty) :
    Rust.Session.childIdOf c = some (Session.childId c) := by
  cases c with
  | unknown raw => exact raw.elim
  | _ => rfl

/-! ### Toggles -/

theorem containerChildren_eq (c : Customization Empty) :
    Rust.Session.containerChildren c =
      (Session.children? c).map fun l => ⟨l, fun l' => Session.withChildren l' c⟩ := by
  cases c with
  | unknown raw => exact raw.elim
  | _ => rfl

theorem effectiveEnablement_eq (enablement : List (CustomizationEnablement Empty)) :
    Rust.Session.effectiveEnablement enablement = Session.firstEnabled enablement := by
  cases enablement with
  | nil => rfl
  | cons e _ =>
    cases e with
    | unknown raw => exact raw.elim
    | _ => rfl

theorem provenance_eq (enablement : List (CustomizationEnablement Empty)) :
    Rust.Session.provenance enablement = Session.provenance enablement := by
  cases enablement <;> rfl

theorem applyContainerEnablement_eq (enablement : List (CustomizationEnablement Empty))
    (c : Customization Empty) : Rust.Session.applyContainerEnablement enablement c =
      Session.applyCustomizationEnablement enablement c := by
  cases c with
  | unknown raw => exact raw.elim
  | _ =>
    simp only [Rust.Session.applyContainerEnablement, Session.applyCustomizationEnablement,
      provenance_eq, effectiveEnablement_eq]

theorem applyChildEnablement_eq (enablement : List (CustomizationEnablement Empty))
    (c : ChildCustomization Empty) : Rust.Session.applyChildEnablement enablement c =
      Session.applyChildEnablement enablement c := by
  cases c with
  | unknown raw => exact raw.elim
  | _ =>
    simp only [Rust.Session.applyChildEnablement, Session.applyChildEnablement, provenance_eq,
      effectiveEnablement_eq]

theorem toggleMcpServerSkill_eq (server : McpServerCustomization Empty) (id : String)
    (enablement : List (CustomizationEnablement Empty)) :
    Rust.Session.toggleMcpServerSkill server id enablement =
      Session.toggleMcpServerSkill server id enablement := by
  simp only [Rust.Session.toggleMcpServerSkill, Session.toggleMcpServerSkill, Ref.find?, Ref.modify,
    Option.map_bind, Option.map_map, effectiveEnablement_eq, Function.comp_def]

theorem toggleChild_eq (id : String) (enablement : List (CustomizationEnablement Empty))
    (c : ChildCustomization Empty) :
    Rust.Session.toggleChild id enablement c = Session.toggleChildSkill id enablement c := by
  cases c with
  | mcpServer server =>
    simp only [Rust.Session.toggleChild, Session.toggleChildSkill, toggleMcpServerSkill_eq]
  | _ => rfl

theorem toggleChildren_eq (c : Customization Empty) (id : String)
    (enablement : List (CustomizationEnablement Empty)) :
    Rust.Session.toggleChildren c id enablement = Session.toggleContainerChild c id enablement := by
  unfold Rust.Session.toggleChildren Session.toggleContainerChild
  rw [containerChildren_eq]
  cases Session.children? c with
  | none => rfl
  | some children =>
    simp only [Option.map_some, Option.bind_some, Ref.find?, childIdOf_eq, Option.some_inj,
      funext (toggleChild_eq id enablement)]
    cases hi : children.findIdx? fun c => Session.childId c = id with
    | none => rfl
    | some i =>
      obtain ⟨child, hget, -⟩ := getElem?_of_findIdx? hi
      simp only [Option.bind_some, hget, Option.map_some, Ref.modify, applyChildEnablement_eq]

theorem toggleContainer_eq (id : String) (enablement : List (CustomizationEnablement Empty))
    (c : Customization Empty) :
    Rust.Session.toggleContainer id enablement c = Session.toggleBelow id enablement c := by
  cases c with
  | mcpServer server =>
    simp only [Rust.Session.toggleContainer, Session.toggleBelow, toggleMcpServerSkill_eq]
  | plugin c => exact toggleChildren_eq (.plugin c) id enablement
  | directory c => exact toggleChildren_eq (.directory c) id enablement
  | unknown raw => exact raw.elim

theorem customizationToggled_eq (id : String) (enablement : List (CustomizationEnablement Empty)) :
    (Rust.Session.customizationToggled s id enablement).2 =
      Session.customizationToggled s id enablement := by
  unfold Rust.Session.customizationToggled Session.customizationToggled Rust.Session.applyToggle
  cases s.customizations with
  | none => rfl
  | some l =>
    simp only [Ref.find?, customizationId_eq, Option.some_inj,
      funext (toggleContainer_eq id enablement)]
    cases hi : l.findIdx? fun c => Session.customizationId c = id with
    | none => cases updateFirst (Session.toggleBelow id enablement) l <;> rfl
    | some i =>
      obtain ⟨c, hget, -⟩ := getElem?_of_findIdx? hi
      simp only [Option.bind_some, hget, Option.map_some, Ref.modify, applyContainerEnablement_eq]

theorem customizationUpdated_eq (c : Customization Empty) :
    (Rust.Session.customizationUpdated s c).2 = Session.customizationUpdated s c := by
  simp only [Rust.Session.customizationUpdated, Session.customizationUpdated, customizationId_eq,
    Option.some_inj]

/-! ### Children -/

/-- The ids of the children of a container. -/
def childIds (c : Customization Empty) : List String :=
  ((Session.children? c).getD []).map Session.childId

/-- No two children of containers have the same id. -/
def DistinctChildren (l : List (Customization Empty)) : Prop := (l.flatMap childIds).Nodup

/-- A rewrite that only a container with the child accepts. -/
def AtChild (id : String) (f : Customization Empty → Option (Customization Empty)) : Prop :=
  ∀ {c}, id ∉ childIds c → f c = none

theorem DistinctChildren.pairwise {l : List (Customization Empty)} (h : DistinctChildren l)
    {id : String} {f : Customization Empty → Option (Customization Empty)} (hf : AtChild id f) :
    l.Pairwise fun x y => f x = none ∨ f y = none := by
  refine (List.nodup_flatMap.mp h).2.imp fun {x y} hdisjoint => ?_
  by_cases hx : id ∈ childIds x
  · exact .inr (hf fun hy => hdisjoint hx hy)
  · exact .inl (hf hx)

/-- An edit of a child in every container is one in the first that has it. -/
theorem mapChanged_eq_updateFirst {l : List (Customization Empty)} (h : DistinctChildren l)
    {id : String} {f : Customization Empty → Option (Customization Empty)} (hf : AtChild id f) :
    Session.mapChanged f l = updateFirst f l := by
  unfold Session.mapChanged
  cases hu : updateFirst f l with
  | none =>
    have hnone : (l.any fun x => (f x).isSome) = false := by
      rw [List.any_eq_false]
      intro x hx
      simp [updateFirst_eq_none.mp hu x hx]
    rw [hnone]
    rfl
  | some l' =>
    obtain ⟨pre, x, y, post, rfl, -, hx, -⟩ := updateFirst_eq_some hu
    have hsome : ((pre ++ x :: post).any fun x => (f x).isSome) = true :=
      List.any_eq_true.mpr ⟨x, by simp, by simp [hx]⟩
    rw [if_pos hsome, map_eq_of_updateFirst_of_pairwise (h.pairwise hf) hu]

theorem findIdx?_childId_eq_none {id : String} {c : Customization Empty} (h : id ∉ childIds c)
    {children : List (ChildCustomization Empty)} (hc : Session.children? c = some children) :
    (children.findIdx? fun c => Session.childId c = id) = none := by
  rw [List.findIdx?_eq_none_iff]
  intro child hchild
  rw [decide_eq_false_iff_not]
  rintro rfl
  exact h (by simpa [childIds, hc] using ⟨child, hchild, rfl⟩)

theorem removeChild_atChild (id : String) : AtChild id (Session.removeChild id) := by
  intro c h
  unfold Session.removeChild eraseWhere
  cases hc : Session.children? c with
  | none => rfl
  | some children => simp [findIdx?_childId_eq_none h hc]

theorem removeChild_eq (id : String) (c : Customization Empty) :
    Rust.Session.removeChild id c = Session.removeChild id c := by
  simp only [Rust.Session.removeChild, Session.removeChild, containerChildren_eq, childIdOf_eq,
    Option.some_inj, Option.bind_map, Function.comp_def]

theorem customizationRemoved_eq (hs : ∀ l, s.customizations = some l → DistinctChildren l)
    (id : String) :
    (Rust.Session.customizationRemoved s id).2 = Session.customizationRemoved s id := by
  unfold Rust.Session.customizationRemoved Session.customizationRemoved
  cases hl : s.customizations with
  | none => rfl
  | some l =>
    simp only [customizationId_eq, Option.some_inj, funext (removeChild_eq id),
      mapChanged_eq_updateFirst (hs l hl) (removeChild_atChild id)]
    cases eraseWhere (fun c => Session.customizationId c = id) l with
    | some l' => rfl
    | none => cases updateFirst (Session.removeChild id) l <;> rfl

/-! ### MCP servers -/

theorem findChild_atChild {id : String} {c : Customization Empty} (h : id ∉ childIds c) :
    Rust.Session.findChild id c = none := by
  unfold Rust.Session.findChild
  rw [containerChildren_eq]
  cases hc : Session.children? c with
  | none => rfl
  | some children =>
    simp [Ref.find?, childIdOf_eq, findIdx?_childId_eq_none h hc]

theorem updateMcpServerChild_eq (id : String)
    (f : McpServerCustomization Empty → McpServerCustomization Empty) (c : Customization Empty) :
    Session.updateMcpServerChild id f c = (Rust.Session.findChild id c).bind fun child =>
      match child.value with
      | .mcpServer m => some (child.write (.mcpServer (f m)))
      | _ => none := by
  unfold Session.updateMcpServerChild Rust.Session.findChild
  rw [containerChildren_eq]
  cases Session.children? c with
  | none => rfl
  | some children =>
    simp only [Option.map_some, Option.bind_some, Ref.find?, childIdOf_eq, Option.some_inj]
    cases hi : children.findIdx? fun c => Session.childId c = id with
    | none => rfl
    | some i =>
      obtain ⟨child, hget, -⟩ := getElem?_of_findIdx? hi
      simp only [Option.bind_some, hget, Option.map_some, Ref.comp]
      cases child <;> rfl

theorem updateMcpServerChild_atChild (id : String)
    (f : McpServerCustomization Empty → McpServerCustomization Empty) :
    AtChild id (Session.updateMcpServerChild id f) := by
  intro c h
  rw [updateMcpServerChild_eq, findChild_atChild h]
  rfl

/-- The search through the containers, and the edit of what it finds. -/
theorem updateFirst_mcpServerChild {l : List (Customization Empty)} (h : DistinctChildren l)
    (id : String) (f : McpServerCustomization Empty → McpServerCustomization Empty) :
    updateFirst (Session.updateMcpServerChild id f) l =
      (Rust.Session.findMcpServerChild id l).map fun m => m.modify f := by
  induction l with
  | nil => rfl
  | cons c l ih =>
    rw [DistinctChildren, List.flatMap_cons, List.nodup_append] at h
    have htail : DistinctChildren l := h.2.1
    simp only [updateFirst, Rust.Session.findMcpServerChild]
    rw [updateMcpServerChild_eq]
    cases hchild : Rust.Session.findChild id c with
    | none =>
      simp only [Option.bind_none, ih htail, Option.map_map]
      rfl
    | some child =>
      have hmem : id ∈ childIds c := by
        by_contra hnot
        rw [findChild_atChild hnot] at hchild
        cases hchild
      have hrest : updateFirst (Session.updateMcpServerChild id f) l = none := by
        rw [updateFirst_eq_none]
        intro x hx
        refine updateMcpServerChild_atChild id f fun hid => ?_
        exact h.2.2 id hmem id (List.mem_flatMap.mpr ⟨x, hx, hid⟩) rfl
      cases hvalue : child.value with
      | mcpServer m => simp [hvalue, Ref.modify]
      | _ => simp [hvalue, hrest]

/-- What TypeScript does to the MCP server of an id is a write through the Rust reference. -/
theorem updateMcpServerCustomization_eq (hs : ∀ l, s.customizations = some l → DistinctChildren l)
    (id : String) (f : McpServerCustomization Empty → McpServerCustomization Empty) :
    Session.updateMcpServerCustomization s id f =
      ((Rust.Session.findMcpServerCustomization s id).map fun m => m.modify f).getD s := by
  unfold Session.updateMcpServerCustomization Rust.Session.findMcpServerCustomization
    Rust.Session.customizationsMut
  cases hl : s.customizations with
  | none => rfl
  | some l =>
    simp only [Option.map_some, Option.bind_some, Ref.find?, customizationId_eq, Option.some_inj,
      mapChanged_eq_updateFirst (hs l hl) (updateMcpServerChild_atChild id f),
      updateFirst_mcpServerChild (hs l hl)]
    cases hi : l.findIdx? fun c => Session.customizationId c = id with
    | none =>
      simp only [Option.bind_none, Option.map_map]
      cases Rust.Session.findMcpServerChild id l <;> rfl
    | some i =>
      obtain ⟨c, hget, -⟩ := getElem?_of_findIdx? hi
      simp only [Option.bind_some, hget, Option.map_some]
      cases c <;> rfl

theorem updateMcpServerCustomizationState_eq
    (hs : ∀ l, s.customizations = some l → DistinctChildren l) (id : String)
    (next : McpServerState Empty) (channel : Option URI) :
    (Rust.Session.updateMcpServerCustomizationState s id next channel).2 =
      Session.updateMcpServerCustomization s id fun m => { m with state := next, channel := channel } := by
  rw [updateMcpServerCustomization_eq hs]
  unfold Rust.Session.updateMcpServerCustomizationState
  cases Rust.Session.findMcpServerCustomization s id <;> rfl

theorem mcpServerBackgroundRequested_eq
    (hs : ∀ l, s.customizations = some l → DistinctChildren l) (id : String) :
    (Rust.Session.mcpServerBackgroundRequested s id).2 =
      Session.updateMcpServerCustomization s id Session.mcpServerBackgroundRequested := by
  rw [updateMcpServerCustomization_eq hs]
  unfold Rust.Session.mcpServerBackgroundRequested
  cases hm : Rust.Session.findMcpServerCustomization s id with
  | none => rfl
  | some m =>
    have hself : m.write m.value = s := Rust.Session.findMcpServerCustomization_lawful hm
    simp only [Option.map_some, Option.getD_some, Ref.modify, Session.mcpServerBackgroundRequested]
    split
    · next hstate => simp only [hstate]
    · next hstate =>
      split
      · next hstate' => exact absurd hstate' (hstate)
      · exact hself.symm

/-! ### The chat catalogue -/

theorem chatRemoved_eq (chat : URI) :
    (Rust.Session.chatRemoved s chat).2 = Session.chatRemoved s chat := by
  unfold Rust.Session.chatRemoved Session.chatRemoved
  cases eraseWhere (fun c : ChatSummary => c.resource = chat) s.chats <;> rfl

/-- Looking up the keys of a part of a list of distinct keys gives that part. -/
theorem mapM_find?_map {l xs : List ChatSummary} (hl : (l.map (·.resource)).Nodup)
    (hxs : ∀ x ∈ xs, x ∈ l) :
    (xs.map (·.resource)).mapM (fun resource => l.find? fun c => c.resource = resource) = some xs := by
  induction xs with
  | nil => rfl
  | cons x xs ih =>
    have hx : l.find? (fun c => c.resource = x.resource) = some x :=
      (find?_eq_some_iff_of_nodup hl).mpr ⟨hxs x List.mem_cons_self, rfl⟩
    have htail := ih fun y hy => hxs y (List.mem_cons_of_mem _ hy)
    simp only [List.map_cons, List.mapM_cons, hx, htail]
    rfl

theorem summaryOf_eq {l : List ChatSummary} (hl : (l.map (·.resource)).Nodup) (resource : URI) :
    Session.summaryOf l resource = l.find? fun c => c.resource = resource := by
  ext summary
  rw [Session.summaryOf_eq_some hl, find?_eq_some_iff_of_nodup hl]

theorem eq_map_resource {chats : List URI} {l : List ChatSummary} (hlength : chats.length = l.length)
    (h : ((chats.zip l).all fun (resource, summary) => resource = summary.resource) = true) :
    chats = l.map (·.resource) := by
  induction l generalizing chats with
  | nil => simpa using hlength
  | cons x l ih =>
    cases chats with
    | nil => cases hlength
    | cons r chats =>
      simp only [List.zip_cons_cons, List.all_cons, Bool.and_eq_true, decide_eq_true_eq] at h
      rw [List.map_cons, h.1, ih (by simpa using hlength) h.2]

theorem chatsReordered_eq (hs : (s.chats.map (·.resource)).Nodup) (chats : List URI) :
    (Rust.Session.chatsReordered s chats).2 = Session.chatsReordered s chats := by
  unfold Rust.Session.chatsReordered Session.chatsReordered
  split
  · rfl
  · next hlength =>
    rw [funext (summaryOf_eq hs)]
    split
    · next hall =>
      rw [not_or, not_not] at hlength
      rw [eq_map_resource hlength.1 hall, mapM_find?_map hs fun x hx => hx]
      simp
    · cases chats.mapM fun resource => s.chats.find? fun c => c.resource = resource with
      | none => rfl
      | some reordered =>
        by_cases heq : reordered = s.chats
        · simp [heq]
        · simp [heq]

/-! ### Other fields -/

theorem activeClientRemoved_eq (clientId : String) :
    (Rust.Session.activeClientRemoved s clientId).2 = Session.activeClientRemoved s clientId := by
  unfold Rust.Session.activeClientRemoved Session.activeClientRemoved
  cases eraseWhere (fun c : SessionActiveClient => c.clientId = clientId) s.activeClients <;> rfl

theorem sessionConfigChanged_eq (a : SessionConfigChangedAction) :
    (Rust.Session.configChanged s a).2 = Session.configChanged s a := by
  unfold Rust.Session.configChanged Session.configChanged
  cases s.config <;> rfl

theorem sessionWorkingDirectorySet_eq (directory : URI) :
    (Rust.Session.workingDirectorySet s directory).2 = Session.workingDirectorySet s directory := by
  unfold Rust.Session.workingDirectorySet Session.workingDirectorySet
  cases hl : s.workingDirectories with
  | none => simp
  | some l =>
    simp only [Option.getD_some]
    split
    · rw [← hl]
    · rfl

theorem sessionWorkingDirectoryRemoved_eq (directory : URI) :
    (Rust.Session.workingDirectoryRemoved s directory).2 =
      Session.workingDirectoryRemoved s directory := by
  unfold Rust.Session.workingDirectoryRemoved Session.workingDirectoryRemoved
  cases s.workingDirectories with
  | none => rfl
  | some l => cases h : eraseWhere (fun d => d = directory) l <;> simp [h]

theorem replaceAt_eq (l : List URI) (idx : ℕ) (replacement : URI) :
    Rust.Session.replaceAt l idx replacement = Session.replaceAt l idx replacement :=
  (Session.replaceAt_from l idx replacement 0).symm

theorem any_take_iff (l : List URI) (idx : ℕ) (replacement : URI) :
    ((l.take idx).any fun d => d = replacement) = true ↔
      ∃ j, (l.findIdx? fun d => d = replacement) = some j ∧ j < idx := by
  rw [← List.findIdx?_isSome, List.findIdx?_take]
  cases l.findIdx? fun d => d = replacement with
  | none => simp
  | some j => simp [Option.guard]

theorem workingDirectoryReplaced_eq (directory replacement : URI) :
    (Rust.Session.workingDirectoryReplaced s directory replacement).2 =
      Session.workingDirectoryReplaced s directory replacement := by
  unfold Rust.Session.workingDirectoryReplaced Session.workingDirectoryReplaced
  cases s.workingDirectories with
  | none => rfl
  | some l =>
    dsimp only
    cases l.findIdx? fun d => d = directory with
    | none => rfl
    | some idx =>
      have htake := any_take_iff l idx replacement
      cases hj : l.findIdx? fun d => d = replacement with
      | none =>
        have hnot : ¬ ((l.take idx).any fun d => d = replacement) = true := by
          rw [htake, hj]
          simp
        simp only [if_neg hnot, replaceAt_eq]
      | some j =>
        by_cases hlt : j < idx
        · have hany : ((l.take idx).any fun d => d = replacement) = true := htake.mpr ⟨j, hj, hlt⟩
          simp only [if_pos hany, if_pos hlt]
        · have hnot : ¬ ((l.take idx).any fun d => d = replacement) = true := by
            rw [htake, hj]
            simpa using hlt
          simp only [if_neg hnot, if_neg hlt, replaceAt_eq]

theorem inputNeededSet_eq (request : SessionInputRequest Empty) :
    (Rust.Session.inputNeededSet s request).2 = Session.inputNeededSet s request := by
  simp only [Rust.Session.inputNeededSet, Session.inputNeededSet, inputRequestId_eq, Option.some_inj,
    withInputNeededStatus_eq]

theorem inputNeededRemoved_eq (id : String) :
    (Rust.Session.inputNeededRemoved s id).2 = Session.inputNeededRemoved s id := by
  unfold Rust.Session.inputNeededRemoved Session.inputNeededRemoved
  cases s.inputNeeded with
  | none => rfl
  | some l =>
    simp only [inputRequestId_eq, Option.some_inj, withInputNeededStatus_eq]
    cases eraseWhere (fun r => Session.requestId r = id) l with
    | none => rfl
    | some l' => cases l' <;> rfl

/-! ### The reducers -/

/-- The ids by which the reducers search are distinct where they search differently. -/
structure DistinctSession (s : SessionState Empty) : Prop where
  chats : (s.chats.map (·.resource)).Nodup
  children : ∀ l, s.customizations = some l → DistinctChildren l

/-- The changes carry another value of a field that Rust does not copy. -/
def Uncopied (changes : PartialChatSummary) (summary : ChatSummary) : Prop :=
  (∃ movable, changes.movable = some movable ∧ summary.movable ≠ some movable) ∨
    ∃ interactivity, changes.interactivity = some interactivity ∧
      summary.interactivity ≠ some interactivity

/-- The action is a `session/chatUpdated` that Rust does not copy in full. -/
def LosesField (s : SessionState Empty) : SessionAction Empty → Prop
  | .chatUpdated chat changes =>
    ∃ summary, s.chats.find? (fun c => c.resource = chat) = some summary ∧ Uncopied changes summary
  | _ => False

theorem eq_or_right_iff {α : Type} (x y : Option α) : y = x.or y ↔ ∀ v, x = some v → y = some v := by
  cases x with
  | none => simp
  | some v =>
    constructor
    · rintro h w ⟨⟩
      exact h
    · intro h
      exact h v rfl

theorem applyChanges_agrees_iff (changes : PartialChatSummary) (summary : ChatSummary) :
    Rust.Session.applyChanges changes summary = Session.applyChanges changes summary ↔
      ¬ Uncopied changes summary := by
  unfold Rust.Session.applyChanges Session.applyChanges Uncopied
  simp only [ChatSummary.mk.injEq, true_and, and_true, eq_or_right_iff]
  push Not
  rfl

theorem chatUpdated_agrees_iff (chat : URI) (changes : PartialChatSummary) :
    (Rust.Session.chatUpdated s chat changes).2 = Session.chatUpdated s chat changes ↔
      ¬ LosesField s (.chatUpdated chat changes) := by
  unfold Rust.Session.chatUpdated Session.chatUpdated LosesField Ref.find?
  cases hi : s.chats.findIdx? fun c => c.resource = chat with
  | none =>
    have hnone : s.chats.find? (fun c => c.resource = chat) = none := by
      rw [List.find?_eq_none]
      rw [List.findIdx?_eq_none_iff] at hi
      intro c hc
      simp [hi c hc]
    simp [hnone]
  | some i =>
    obtain ⟨hlt, hp, hfirst⟩ := List.findIdx?_eq_some_iff_getElem.mp hi
    have hfind : s.chats.find? (fun c => c.resource = chat) = some s.chats[i] := by
      rw [List.find?_eq_some_iff_getElem]
      exact ⟨hp, i, hlt, rfl, fun j hj => by simpa using hfirst j hj⟩
    simp only [Option.bind_some, List.getElem?_eq_getElem hlt, Option.map_some, Ref.modify, hfind,
      Option.some_inj, exists_eq_left']
    rw [← applyChanges_agrees_iff]
    constructor
    · intro h
      have hchats := congrArg SessionState.chats h
      have hget := congrArg (fun l => l[i]?) hchats
      simpa [hlt] using hget
    · intro h
      rw [h]

/-- A session with one chat. -/
def oneChat : SessionState Empty :=
  { SessionState.new "copilot" "Session" with
    chats :=
      [{ resource := "ahp-chat:/c", title := "Chat", status := SessionStatus.idle, activity := none
         modifiedAt := "2025-03-10T18:00:00.000Z", changes := none, origin := none, movable := none
         interactivity := none, provider := none, workingDirectories := none }] }

theorem oneChat_distinct : DistinctSession oneChat where
  chats := by decide
  children := by rintro l ⟨⟩

/-- Changes of the title and of whether the chat is movable. -/
def changesOf (title : Option String) (movable : Option Bool) : PartialChatSummary :=
  { resource := none, title := title, status := none, activity := none, modifiedAt := none
    changes := none, origin := none, movable := movable, interactivity := none, provider := none
    workingDirectories := none }

end AgentHostProtocol.Agreement
