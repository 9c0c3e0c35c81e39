import AgentHostProtocol.Agreement.Session
import AgentHostProtocol.Dotnet.Session
import AgentHostProtocol.Library.Runs

/-!
# Where the .NET session reducer agrees

**What is proved**: on a session of distinct ids `ApplyToSession` and `sessionReducer` leave
the same state exactly when the action is none of three kinds (`Diverges`): a
`session/customizationUpdated` that puts in an MCP server, or puts a container in the place
of one; a `session/customizationRemoved` of a top-level MCP server; and a
`session/chatUpdated` that changes whether a catalogued chat is movable. `TryCustomizationId`
knows no MCP server, and the field-by-field merge of a summary lacks `Movable`.
-/

namespace AgentHostProtocol.Agreement

open Library

variable {s : SessionState Empty}

namespace Dotnet

/-! ### Ids and status -/

theorem awaitsUser_eq (r : SessionInputRequest Empty) :
    Dotnet.Session.awaitsUser r = Session.awaitsUser r := by
  cases r <;> rfl

theorem withInputNeededStatus_eq (status : SessionStatus) (l : List (SessionInputRequest Empty)) :
    Dotnet.Session.withInputNeededStatus status l = Session.withInputNeededStatus status l := by
  unfold Dotnet.Session.withInputNeededStatus Session.withInputNeededStatus
  rw [funext awaitsUser_eq]

theorem sessionInputRequestId_eq (r : SessionInputRequest Empty) :
    Dotnet.Session.sessionInputRequestId r = Session.requestId r := by
  cases r with
  | unknown raw => exact raw.elim
  | _ => rfl

theorem tryChildCustomizationId_eq (c : ChildCustomization Empty) :
    Dotnet.Session.tryChildCustomizationId c = some (Session.childId c) := by
  cases c with
  | unknown raw => exact raw.elim
  | _ => rfl

/-- Whether a customization is an MCP server. -/
def isMcpServer : Customization Empty → Bool
  | .mcpServer _ => true
  | _ => false

/-- `TryCustomizationId` has no id for an MCP server. -/
theorem tryCustomizationId_eq (c : Customization Empty) :
    Dotnet.Session.tryCustomizationId c =
      if isMcpServer c then none else some (Session.customizationId c) := by
  cases c with
  | unknown raw => exact raw.elim
  | _ => rfl

theorem containerChildren_eq (c : Customization Empty) :
    Dotnet.Session.containerChildren c =
      (Session.children? c).map fun l => ⟨l, fun l' => Session.withChildren l' c⟩ := by
  cases c with
  | unknown raw => exact raw.elim
  | _ => rfl

/-! ### Toggles -/

theorem effectiveEnabled_eq (enablement : List (CustomizationEnablement Empty)) :
    Dotnet.Session.effectiveEnabled enablement = Session.firstEnabled enablement := by
  cases enablement with
  | nil => rfl
  | cons e _ =>
    cases e with
    | unknown raw => exact raw.elim
    | _ => rfl

theorem copyEnablement_eq (enablement : List (CustomizationEnablement Empty)) :
    Dotnet.Session.copyEnablement enablement = Session.provenance enablement := by
  cases enablement <;> rfl

theorem toggleEntry_eq (id : String) (enablement : List (CustomizationEnablement Empty))
    (c : Customization Empty) :
    Dotnet.Session.toggleEntry id enablement c =
      if Session.customizationId c = id then
        some (Session.applyCustomizationEnablement enablement c)
      else none := by
  cases c with
  | unknown raw => exact raw.elim
  | _ =>
    simp only [Dotnet.Session.toggleEntry, Session.applyCustomizationEnablement,
      Session.customizationId, copyEnablement_eq, effectiveEnabled_eq]
    rfl

theorem toggleChild_eq (id : String) (enablement : List (CustomizationEnablement Empty))
    (c : ChildCustomization Empty) :
    Dotnet.Session.toggleChild id enablement c =
      if Session.childId c = id then some (Session.applyChildEnablement enablement c) else none := by
  have happly : Dotnet.Session.withChildEnablement enablement c =
      Session.applyChildEnablement enablement c := by
    cases c with
    | unknown raw => exact raw.elim
    | _ =>
      simp only [Dotnet.Session.withChildEnablement, Session.applyChildEnablement,
        copyEnablement_eq, effectiveEnabled_eq]
  rw [Dotnet.Session.toggleChild, tryChildCustomizationId_eq, happly]
  simp only [Option.some_inj]

theorem toggleMcpServerSkill_eq (server : McpServerCustomization Empty) (id : String)
    (enablement : List (CustomizationEnablement Empty)) :
    Dotnet.Session.toggleMcpServerSkill server id enablement =
      Session.toggleMcpServerSkill server id enablement := by
  simp only [Dotnet.Session.toggleMcpServerSkill, Session.toggleMcpServerSkill, Ref.find?,
    Ref.modify, Option.map_bind, Option.map_map, effectiveEnabled_eq, Function.comp_def]

theorem toggleNestedServer_eq (id : String) (enablement : List (CustomizationEnablement Empty))
    (c : ChildCustomization Empty) :
    Dotnet.Session.toggleNestedServer id enablement c =
      Session.toggleChildSkill id enablement c := by
  cases c with
  | mcpServer server =>
    simp only [Dotnet.Session.toggleNestedServer, Session.toggleChildSkill, toggleMcpServerSkill_eq]
  | _ => rfl

theorem toggleChildren_eq (id : String) (enablement : List (CustomizationEnablement Empty))
    (c : Customization Empty) :
    Dotnet.Session.toggleChildren id enablement c = Session.toggleContainerChild c id enablement := by
  rw [Dotnet.Session.toggleChildren, containerChildren_eq, Session.toggleContainerChild]
  cases Session.children? c with
  | none => rfl
  | some children =>
    simp only [Option.map_some, Option.bind_some, funext (toggleChild_eq id enablement),
      funext (toggleNestedServer_eq id enablement), updateFirst_ite]
    cases hi : children.findIdx? fun c => Session.childId c = id with
    | none => rfl
    | some i =>
      obtain ⟨child, hget, -⟩ := getElem?_of_findIdx? hi
      simp [hget]

theorem toggleBelow_eq (id : String) (enablement : List (CustomizationEnablement Empty))
    (c : Customization Empty) :
    Dotnet.Session.toggleBelow id enablement c = Session.toggleBelow id enablement c := by
  cases c with
  | mcpServer server =>
    simp only [Dotnet.Session.toggleBelow, Session.toggleBelow, toggleMcpServerSkill_eq]
  | plugin c => exact toggleChildren_eq id enablement (.plugin c)
  | directory c => exact toggleChildren_eq id enablement (.directory c)
  | unknown raw => exact raw.elim

theorem customizationToggled_eq (id : String) (enablement : List (CustomizationEnablement Empty)) :
    (Dotnet.Session.customizationToggled s id enablement).2 =
      Session.customizationToggled s id enablement := by
  unfold Dotnet.Session.customizationToggled Session.customizationToggled Dotnet.Session.applyToggle
  cases s.customizations with
  | none => rfl
  | some l =>
    simp only [funext (toggleEntry_eq id enablement), funext (toggleBelow_eq id enablement),
      updateFirst_ite]
    cases hi : l.findIdx? fun c => Session.customizationId c = id with
    | none => cases updateFirst (Session.toggleBelow id enablement) l <;> rfl
    | some i =>
      obtain ⟨c, hget, -⟩ := getElem?_of_findIdx? hi
      simp only [Option.bind_some, hget, Option.map_some]

/-! ### Distinct ids -/

/-- The ids of the customizations of a list and of their children. -/
def treeIds (l : List (Customization Empty)) : List String :=
  l.map Session.customizationId ++ l.flatMap childIds

/-- The ids by which the reducers search the state are distinct. -/
structure DistinctIds (s : SessionState Empty) : Prop where
  chats : (s.chats.map (·.resource)).Nodup
  customizations : (treeIds (s.customizations.getD [])).Nodup

theorem DistinctIds.children (hs : DistinctIds s) {l : List (Customization Empty)}
    (hl : s.customizations = some l) : DistinctChildren l := by
  have hids := hs.customizations
  rw [hl] at hids
  exact (List.nodup_append.mp hids).2.1

theorem DistinctIds.tops (hs : DistinctIds s) {l : List (Customization Empty)}
    (hl : s.customizations = some l) : (l.map Session.customizationId).Nodup := by
  have hids := hs.customizations
  rw [hl] at hids
  exact (List.nodup_append.mp hids).1

/-- No child has the id of a top-level customization. -/
theorem DistinctIds.not_child (hs : DistinctIds s) {l : List (Customization Empty)}
    (hl : s.customizations = some l) {c c' : Customization Empty} (hc : c ∈ l) (hc' : c' ∈ l) :
    Session.customizationId c ∉ childIds c' := by
  have hids := hs.customizations
  rw [hl] at hids
  intro hmem
  exact (List.nodup_append.mp hids).2.2 _ (List.mem_map_of_mem hc) _
    (List.mem_flatMap.mpr ⟨c', hc', hmem⟩) rfl

/-! ### Customizations -/

/-- The customization of an id at the top of the tree. -/
def entry (s : SessionState Empty) (id : String) : Option (Customization Empty) :=
  (s.customizations.getD []).find? fun c => Session.customizationId c = id

theorem entry_of_some {l : List (Customization Empty)} (hl : s.customizations = some l)
    (id : String) : entry s id = l.find? fun c => Session.customizationId c = id := by
  rw [entry, hl, Option.getD_some]

/-- The search by `TryCustomizationId` finds what the search by id finds, unless that is an
MCP server. -/
theorem findIdx?_tryCustomizationId {l : List (Customization Empty)} {id : String}
    (h : ∀ c, l.find? (fun c => Session.customizationId c = id) = some c → isMcpServer c = false) :
    (l.findIdx? fun c => Dotnet.Session.tryCustomizationId c = some id) =
      l.findIdx? fun c => Session.customizationId c = id := by
  refine findIdx?_eq_of_find? (fun c hc => ?_) (fun c hc => ?_)
  · rw [tryCustomizationId_eq] at hc
    cases hm : isMcpServer c
    · simpa [hm] using hc
    · simp [hm] at hc
  · have hid := List.find?_some hc
    rw [tryCustomizationId_eq, h c hc]
    simpa using hid

/-- In a list of distinct ids, when the entry of an id is an MCP server, `TryCustomizationId`
finds nothing. -/
theorem findIdx?_tryCustomizationId_eq_none {l : List (Customization Empty)}
    (hl : (l.map Session.customizationId).Nodup) {id : String} {c : Customization Empty}
    (hc : l.find? (fun c => Session.customizationId c = id) = some c) (hm : isMcpServer c = true) :
    (l.findIdx? fun c => Dotnet.Session.tryCustomizationId c = some id) = none := by
  obtain ⟨hmem, hid⟩ := (find?_eq_some_iff_of_nodup hl).mp hc
  rw [List.findIdx?_eq_none_iff]
  intro x hx
  rw [decide_eq_false_iff_not, tryCustomizationId_eq]
  intro htry
  cases hxm : isMcpServer x with
  | true => simp [hxm] at htry
  | false =>
    have hxid : Session.customizationId x = id := by simpa [hxm] using htry
    have hsame : x = c := by
      have hfound := (find?_eq_some_iff_of_nodup hl).mpr ⟨hx, hxid⟩
      rw [hc] at hfound
      exact (Option.some_inj.mp hfound).symm
    rw [hsame, hm] at hxm
    cases hxm

/-- Whether the action puts in an MCP server, or a container in the place of one, and is not
what is there already. -/
def PutsMcpServer (s : SessionState Empty) (c : Customization Empty) : Prop :=
  (isMcpServer c = true ∨
      ∃ c', entry s (Session.customizationId c) = some c' ∧ isMcpServer c' = true) ∧
    entry s (Session.customizationId c) ≠ some c

/-- Whether the customization of the id is a top-level MCP server. -/
def IsTopMcpServer (s : SessionState Empty) (id : String) : Prop :=
  ∃ c, entry s id = some c ∧ isMcpServer c = true

/-- A put of an MCP server is dropped, which shows unless it is there already. -/
theorem customizationUpdated_of_mcpServer {c : Customization Empty} (hm : isMcpServer c = true) :
    (Dotnet.Session.applyCustomizationUpdated s c).2 = Session.customizationUpdated s c ↔
      entry s (Session.customizationId c) = some c := by
  have hdropped : (Dotnet.Session.applyCustomizationUpdated s c).2 = s := by
    rw [Dotnet.Session.applyCustomizationUpdated, tryCustomizationId_eq, if_pos hm]
  rw [hdropped]
  constructor
  · intro h
    have hl : s.customizations = some (upsertWhere
        (fun c' => Session.customizationId c' = Session.customizationId c) c
        (s.customizations.getD [])) := congrArg SessionState.customizations h
    rw [entry_of_some hl]
    exact find?_upsertWhere (by simp) _
  · intro h
    rw [Session.customizationUpdated, upsertWhere_eq_self h]
    cases hl : s.customizations with
    | none =>
      rw [entry, hl] at h
      cases h
    | some l => rw [Option.getD_some, ← hl]

theorem customizationUpdated_agrees_iff (hs : DistinctIds s) (c : Customization Empty) :
    (Dotnet.Session.applyCustomizationUpdated s c).2 = Session.customizationUpdated s c ↔
      ¬ PutsMcpServer s c := by
  cases hm : isMcpServer c with
  | true =>
    rw [customizationUpdated_of_mcpServer hm, PutsMcpServer]
    simp [hm]
  | false =>
    have hputs : PutsMcpServer s c ↔
        ∃ c', entry s (Session.customizationId c) = some c' ∧ isMcpServer c' = true := by
      rw [PutsMcpServer]
      constructor
      · rintro ⟨hc | hc, -⟩
        · rw [hm] at hc
          cases hc
        · exact hc
      · rintro ⟨c', hc', hm'⟩
        refine ⟨.inr ⟨c', hc', hm'⟩, ?_⟩
        rintro hsame
        rw [hc', Option.some_inj] at hsame
        rw [← hsame, hm'] at hm
        cases hm
    simp only [Dotnet.Session.applyCustomizationUpdated, Session.customizationUpdated, hputs,
      tryCustomizationId_eq c, hm, Bool.false_eq_true, if_false, upsertWhere]
    constructor
    · rintro h ⟨c', hc', hm'⟩
      -- The container is appended, and not put in the place of the server.
      have hlists := Option.some_inj.mp (congrArg SessionState.customizations h)
      have htops : ((s.customizations.getD []).map Session.customizationId).Nodup :=
        (List.nodup_append.mp hs.customizations).1
      rw [findIdx?_tryCustomizationId_eq_none htops hc' hm'] at hlists
      obtain ⟨i, hidx, -⟩ := findIdx?_of_find?_eq_some hc'
      rw [hidx] at hlists
      have hlength := congrArg List.length hlists
      simp at hlength
    · intro h
      rw [findIdx?_tryCustomizationId]
      intro c' hc'
      by_contra hm'
      exact h ⟨c', hc', by simpa using hm'⟩

theorem removeChild_eq (id : String) (c : Customization Empty) :
    Dotnet.Session.removeChild id c = Session.removeChild id c := by
  simp only [Dotnet.Session.removeChild, Session.removeChild, containerChildren_eq,
    tryChildCustomizationId_eq, Option.some_inj, Option.bind_map, Function.comp_def]

/-- A removal of a top-level MCP server finds nothing to remove. -/
theorem customizationRemoved_of_mcpServer (hs : DistinctIds s) {id : String}
    (h : IsTopMcpServer s id) :
    (Dotnet.Session.applyCustomizationRemoved s id).2 = s ∧ Session.customizationRemoved s id ≠ s := by
  obtain ⟨c, hc, hm⟩ := h
  cases hl : s.customizations with
  | none =>
    rw [entry, hl] at hc
    cases hc
  | some l =>
    rw [entry_of_some hl] at hc
    obtain ⟨i, hidx, hi⟩ := findIdx?_of_find?_eq_some hc
    obtain ⟨hmem, rfl⟩ := (find?_eq_some_iff_of_nodup (hs.tops hl)).mp hc
    have hbelow : updateFirst (Session.removeChild (Session.customizationId c)) l = none := by
      rw [updateFirst_eq_none]
      intro c' hc'
      exact removeChild_atChild _ (hs.not_child hl hmem hc')
    constructor
    · simp only [Dotnet.Session.applyCustomizationRemoved, hl, eraseWhere,
        findIdx?_tryCustomizationId_eq_none (hs.tops hl) hc hm, Option.map_none,
        funext (removeChild_eq (Session.customizationId c)), hbelow]
    · intro h
      simp only [Session.customizationRemoved, hl, eraseWhere, hidx, Option.map_some] at h
      have hlists := congrArg SessionState.customizations h
      rw [hl] at hlists
      have hlength := congrArg List.length (Option.some_inj.mp hlists)
      obtain ⟨hlt, -⟩ := List.getElem?_eq_some_iff.mp hi
      rw [List.length_eraseIdx_of_lt hlt] at hlength
      omega

theorem customizationRemoved_agrees_iff (hs : DistinctIds s) (id : String) :
    (Dotnet.Session.applyCustomizationRemoved s id).2 = Session.customizationRemoved s id ↔
      ¬ IsTopMcpServer s id := by
  constructor
  · intro h hm
    obtain ⟨hkept, hremoved⟩ := customizationRemoved_of_mcpServer hs hm
    exact hremoved (h.symm.trans hkept)
  · intro h
    unfold Dotnet.Session.applyCustomizationRemoved Session.customizationRemoved
    cases hl : s.customizations with
    | none => rfl
    | some l =>
      have hentry : ∀ c, l.find? (fun c => Session.customizationId c = id) = some c →
          isMcpServer c = false := by
        intro c hc
        by_contra hm
        exact h ⟨c, by rw [entry_of_some hl, hc], by simpa using hm⟩
      have hidx := findIdx?_tryCustomizationId hentry
      simp only [eraseWhere, hidx, funext (removeChild_eq id),
        mapChanged_eq_updateFirst (hs.children hl) (removeChild_atChild id)]
      cases l.findIdx? fun c => Session.customizationId c = id with
      | some i => rfl
      | none => cases updateFirst (Session.removeChild id) l <;> rfl

/-! ### MCP servers -/

section Update

variable {id : String} {update : McpServerCustomization Empty → Option (McpServerCustomization Empty)}
  {f : McpServerCustomization Empty → McpServerCustomization Empty}

/-- What an update leaves at the top-level entry at which the loop returns. -/
def updatedEntry (update : McpServerCustomization Empty → Option (McpServerCustomization Empty)) :
    Customization Empty → Dotnet.ReduceOutcome × Customization Empty
  | .mcpServer m =>
    ((Dotnet.Session.runUpdate update m).1, .mcpServer (Dotnet.Session.runUpdate update m).2)
  | c => (.noOp, c)

/-- What an update leaves at the child at which the loop returns. -/
def updatedChild (update : McpServerCustomization Empty → Option (McpServerCustomization Empty)) :
    ChildCustomization Empty → Dotnet.ReduceOutcome × ChildCustomization Empty
  | .mcpServer m =>
    ((Dotnet.Session.runUpdate update m).1, .mcpServer (Dotnet.Session.runUpdate update m).2)
  | c => (.noOp, c)

theorem updateEntry_eq (c : Customization Empty) :
    Dotnet.Session.updateEntry id update c =
      if Session.customizationId c = id then some (updatedEntry update c) else none := by
  cases c with
  | unknown raw => exact raw.elim
  | mcpServer m => rfl
  | _ =>
    simp only [Dotnet.Session.updateEntry, Dotnet.Session.tryCustomizationId, Option.some_inj]
    rfl

theorem updateChild_eq (c : ChildCustomization Empty) :
    Dotnet.Session.updateChild id update c =
      if Session.childId c = id then some (updatedChild update c) else none := by
  cases c with
  | unknown raw => exact raw.elim
  | mcpServer m => rfl
  | _ =>
    simp only [Dotnet.Session.updateChild, Dotnet.Session.tryChildCustomizationId, Option.some_inj]
    rfl

/-- The loop over the children of a container returns at the first child of the id. -/
theorem updateBelow_eq (c : Customization Empty) :
    Dotnet.Session.updateBelow id update c =
      (Session.children? c).bind fun children =>
        (children.findIdx? fun child => Session.childId child = id).bind fun i =>
          children[i]?.map fun child =>
            ((updatedChild update child).1,
              Session.withChildren (children.set i (updatedChild update child).2) c) := by
  rw [Dotnet.Session.updateBelow, containerChildren_eq]
  cases Session.children? c with
  | none => rfl
  | some children =>
    simp only [Option.map_some, Option.bind_some, funext updateChild_eq, returnFirst_ite,
      Option.map_bind, Option.map_map, Function.comp_def]

theorem updateBelow_atChild {c : Customization Empty} (h : id ∉ childIds c) :
    Dotnet.Session.updateBelow id update c = none := by
  rw [updateBelow_eq]
  cases hc : Session.children? c with
  | none => rfl
  | some children => simp [findIdx?_childId_eq_none h hc]

/-- The container after the loop is the one TypeScript makes, or it is as it was. -/
theorem updateBelow_agrees (hf : ∀ m, (Dotnet.Session.runUpdate update m).2 = f m)
    (c : Customization Empty) :
    (Dotnet.Session.updateBelow id update c = none → Session.updateMcpServerChild id f c = none) ∧
      ∀ r c', Dotnet.Session.updateBelow id update c = some (r, c') →
        (Session.updateMcpServerChild id f c).getD c = c' := by
  rw [updateBelow_eq, Session.updateMcpServerChild]
  cases hc : Session.children? c with
  | none => exact ⟨fun _ => rfl, fun _ _ h => by cases h⟩
  | some children =>
    simp only [Option.bind_some]
    cases hi : children.findIdx? fun child => Session.childId child = id with
    | none => exact ⟨fun _ => rfl, fun _ _ h => by cases h⟩
    | some i =>
      obtain ⟨child, hget, -⟩ := getElem?_of_findIdx? hi
      simp only [Option.bind_some, hget, Option.map_some, reduceCtorEq, false_implies,
        Option.some.injEq, Prod.mk.injEq, true_and]
      rintro r c' ⟨-, rfl⟩
      cases child with
      | mcpServer m => simp [updatedChild, hf]
      | unknown raw => exact raw.elim
      | _ => simp [updatedChild, set_eq_self hget, Session.withChildren_children? hc]

/-- An update in place is the rebuild of the tree with the server updated. -/
theorem updateMcpServerCustomization_eq (hs : DistinctIds s)
    (hf : ∀ m, (Dotnet.Session.runUpdate update m).2 = f m) :
    (Dotnet.Session.updateMcpServerCustomization s id update).2 =
      Session.updateMcpServerCustomization s id f := by
  unfold Dotnet.Session.updateMcpServerCustomization Session.updateMcpServerCustomization
  cases hl : s.customizations with
  | none => rfl
  | some l =>
    simp only [funext updateEntry_eq, returnFirst_ite]
    cases hi : l.findIdx? fun c => Session.customizationId c = id with
    | some i =>
      obtain ⟨c, hget, -⟩ := getElem?_of_findIdx? hi
      simp only [Option.bind_some, hget, Option.map_some]
      cases c with
      | mcpServer m => simp [updatedEntry, hf]
      | unknown raw => exact raw.elim
      | _ => simp [updatedEntry, set_eq_self hget, ← hl]
    | none =>
      have honce : l.Pairwise fun x y => Dotnet.Session.updateBelow id update x = none ∨
          Session.updateMcpServerChild id f y = none := by
        refine (List.nodup_flatMap.mp (hs.children hl)).2.imp fun {x y} hdisjoint => ?_
        by_cases hx : id ∈ childIds x
        · exact .inr (updateMcpServerChild_atChild id f fun hy => hdisjoint hx hy)
        · exact .inl (updateBelow_atChild hx)
      have hagree := map_snd_returnFirst (fun c _ => (updateBelow_agrees hf c).1)
        (fun c _ => (updateBelow_agrees hf c).2) honce
      rw [mapChanged_eq_updateFirst (hs.children hl) (updateMcpServerChild_atChild id f)]
      -- A loop that found nothing to change leaves the list that was there.
      have hkept : { s with customizations := some l } = s := by rw [← hl]
      cases hr : returnFirst (Dotnet.Session.updateBelow id update) l with
      | none =>
        cases hu : updateFirst (Session.updateMcpServerChild id f) l with
        | none => rfl
        | some l' =>
          rw [hr, hu] at hagree
          obtain rfl : l = l' := hagree
          exact hkept.symm
      | some r =>
        cases hu : updateFirst (Session.updateMcpServerChild id f) l with
        | none =>
          rw [hr, hu] at hagree
          have hback : r.2 = l := hagree
          simpa [hback] using hkept
        | some l' =>
          rw [hr, hu] at hagree
          obtain rfl : r.2 = l' := hagree
          rfl

end Update

theorem applyMcpServerStateChanged_eq (hs : DistinctIds s)
    (a : SessionMcpServerStateChangedAction Empty) :
    (Dotnet.Session.applyMcpServerStateChanged s a).2 =
      Session.updateMcpServerCustomization s a.id (Session.mcpServerStateChanged a) :=
  updateMcpServerCustomization_eq hs fun _ => rfl

theorem mcpServerStartRequested_eq (hs : DistinctIds s) (id : String) :
    (Dotnet.Session.mcpServerStartRequested s id).2 =
      Session.updateMcpServerCustomization s id Session.mcpServerStartRequested :=
  updateMcpServerCustomization_eq hs fun _ => rfl

theorem mcpServerStopRequested_eq (hs : DistinctIds s) (id : String) :
    (Dotnet.Session.mcpServerStopRequested s id).2 =
      Session.updateMcpServerCustomization s id Session.mcpServerStopRequested :=
  updateMcpServerCustomization_eq hs fun _ => rfl

theorem mcpServerBackgroundRequested_eq (hs : DistinctIds s) (id : String) :
    (Dotnet.Session.mcpServerBackgroundRequested s id).2 =
      Session.updateMcpServerCustomization s id Session.mcpServerBackgroundRequested := by
  refine updateMcpServerCustomization_eq hs fun m => ?_
  obtain ⟨base, enablement, state, channel, mcpApp, children⟩ := m
  cases state with
  | starting blocking => rcases blocking with _ | _ | _ <;> rfl
  | _ => rfl

/-! ### The chat catalogue -/

theorem applySessionChatRemoved_eq (chat : URI) :
    (Dotnet.Session.applySessionChatRemoved s chat).2 = Session.chatRemoved s chat := by
  unfold Dotnet.Session.applySessionChatRemoved Session.chatRemoved
  cases eraseWhere (fun c : ChatSummary => c.resource = chat) s.chats <;> rfl

theorem applySessionChatsReordered_eq (hs : DistinctIds s) (chats : List URI) :
    (Dotnet.Session.applySessionChatsReordered s chats).2 = Session.chatsReordered s chats := by
  unfold Dotnet.Session.applySessionChatsReordered Session.chatsReordered
  split
  · rfl
  · next hlength =>
    rw [not_or, not_not] at hlength
    split
    · next hall =>
      -- The resources are those of the catalogue, so the summaries are the catalogue.
      have hchats := eq_map_resource hlength.1 hall
      rw [funext (summaryOf_eq hs.chats), hchats, mapM_find?_map hs.chats fun x hx => hx]
      simp
    · have hsummary : Dotnet.Session.summary? s.chats = Session.summaryOf s.chats := rfl
      rw [hsummary]
      cases chats.mapM (Session.summaryOf s.chats) with
      | none => rfl
      | some reordered =>
        by_cases heq : reordered = s.chats
        · simp [heq]
        · simp [heq]

/-- The changes carry another value of the one field that the merge lacks. -/
def ChangesMovable (changes : PartialChatSummary) (summary : ChatSummary) : Prop :=
  ∃ movable, changes.movable = some movable ∧ summary.movable ≠ some movable

theorem mergeChanges_agrees_iff (changes : PartialChatSummary) (summary : ChatSummary) :
    Dotnet.Session.mergeChanges changes summary = Session.applyChanges changes summary ↔
      ¬ ChangesMovable changes summary := by
  unfold Dotnet.Session.mergeChanges Session.applyChanges ChangesMovable
  simp only [ChatSummary.mk.injEq, true_and, and_true, eq_or_right_iff]
  push Not
  rfl

theorem applySessionChatUpdated_agrees_iff (chat : URI) (changes : PartialChatSummary) :
    (Dotnet.Session.applySessionChatUpdated s chat changes).2 = Session.chatUpdated s chat changes ↔
      ¬ ∃ summary, s.chats.find? (fun c => c.resource = chat) = some summary ∧
        ChangesMovable changes summary := by
  unfold Dotnet.Session.applySessionChatUpdated Session.chatUpdated Ref.find?
  cases hfind : s.chats.find? fun c => c.resource = chat with
  | none =>
    have hidx : s.chats.findIdx? (fun c => c.resource = chat) = none := by
      rw [List.findIdx?_eq_none_iff]
      intro c hc
      simpa using List.find?_eq_none.mp hfind c hc
    simp [hidx]
  | some summary =>
    obtain ⟨i, hidx, hi⟩ := findIdx?_of_find?_eq_some hfind
    simp only [hidx, Option.bind_some, hi, Option.map_some, Ref.modify, Option.some_inj,
      exists_eq_left']
    rw [← mergeChanges_agrees_iff]
    obtain ⟨hlt, -⟩ := List.getElem?_eq_some_iff.mp hi
    constructor
    · intro h
      have hget := congrArg (fun s => s.chats[i]?) h
      simpa [hlt] using hget
    · intro h
      rw [h]

/-! ### Other fields -/

theorem configChanged_eq (a : SessionConfigChangedAction) :
    (Dotnet.Session.configChanged s a).2 = Session.configChanged s a := by
  unfold Dotnet.Session.configChanged Session.configChanged Dotnet.Session.mergeConfig
  cases s.config with
  | none => rfl
  | some config =>
    cases a.replace with
    | none => rfl
    | some replace =>
      cases replace
      · rfl
      · simp [Record.empty_merge]

theorem activeClientRemoved_eq (clientId : String) :
    (Dotnet.Session.activeClientRemoved s clientId).2 = Session.activeClientRemoved s clientId := by
  unfold Dotnet.Session.activeClientRemoved Session.activeClientRemoved
  cases eraseWhere (fun c : SessionActiveClient => c.clientId = clientId) s.activeClients <;> rfl

theorem workingDirectorySet_eq (directory : URI) :
    (Dotnet.Session.workingDirectorySet s directory).2 = Session.workingDirectorySet s directory := by
  unfold Dotnet.Session.workingDirectorySet Session.workingDirectorySet
  cases s.workingDirectories with
  | none => simp
  | some l => by_cases hmem : directory ∈ l <;> simp [hmem]

theorem workingDirectoryRemoved_eq (directory : URI) :
    (Dotnet.Session.workingDirectoryRemoved s directory).2 =
      Session.workingDirectoryRemoved s directory := by
  unfold Dotnet.Session.workingDirectoryRemoved Session.workingDirectoryRemoved
  cases s.workingDirectories with
  | none => rfl
  | some l => cases h : eraseWhere (fun d => d = directory) l <;> simp [h]

/-- What the loop from position `n` down leaves: the kept elements before `n`, then the rest. -/
theorem removeCopies_eq (index : ℕ) (replacement : URI) (n : ℕ) (l : List URI) (hn : n ≤ l.length) :
    Dotnet.Session.removeCopies index replacement n l =
      ((l.take n).zipIdx.filter fun (directory, i) => i = index || directory ≠ replacement).map
        Prod.fst ++ l.drop n := by
  induction n generalizing l with
  | zero => simp [Dotnet.Session.removeCopies]
  | succ n ih =>
    have hlt : n < l.length := hn
    rw [Dotnet.Session.removeCopies, List.take_succ_eq_append_getElem hlt, List.zipIdx_append,
      List.filter_append, List.map_append, List.append_assoc]
    have hlength : (l.take n).length = n := List.length_take_of_le hlt.le
    by_cases hcopy : n ≠ index ∧ l[n]? = some replacement
    · have hget : l[n] = replacement := by simpa [hlt] using hcopy.2
      have hle : n ≤ (l.eraseIdx n).length := by
        rw [List.length_eraseIdx_of_lt hlt]
        omega
      rw [if_pos hcopy, ih _ hle, List.take_eraseIdx_eq_take_of_le _ _ _ le_rfl]
      simp [hlength, hcopy.1, hget, List.eraseIdx_eq_take_drop_succ]
    · rw [if_neg hcopy, ih _ hlt.le]
      have hkept : n = index ∨ l[n] ≠ replacement := by
        by_contra hnot
        rw [not_or, not_not] at hnot
        exact hcopy ⟨hnot.1, by rw [List.getElem?_eq_getElem hlt, hnot.2]⟩
      rw [hlength, List.zipIdx_singleton, List.drop_eq_getElem_cons hlt,
        List.filter_cons_of_pos (by simpa using hkept)]
      rfl

theorem zipIdx_map_set (l : List URI) (idx k : ℕ) (replacement : URI) :
    ((l.zipIdx k).map fun (directory, index) =>
        if index = k + idx then replacement else directory) = l.set idx replacement := by
  induction l generalizing idx k with
  | nil => rfl
  | cons d l ih =>
    cases idx with
    | zero =>
      have hrest : ((l.zipIdx (k + 1)).map fun (directory, index) =>
          if index = k then replacement else directory) = l := by
        conv_rhs => rw [← List.zipIdx_map_fst (k + 1) l]
        refine List.map_congr_left fun x hx => ?_
        have hle : k + 1 ≤ x.2 := List.le_snd_of_mem_zipIdx hx
        exact if_neg (by omega)
      simpa using hrest
    | succ idx =>
      have htail := ih idx (k + 1)
      simp only [List.zipIdx_cons, List.map_cons, List.set_cons_succ]
      rw [if_neg (by omega), ← htail]
      congr 1
      refine List.map_congr_left fun x _ => ?_
      rw [show k + 1 + idx = k + (idx + 1) by omega]

theorem replaceAt_eq (l : List URI) (idx : ℕ) (replacement : URI) :
    Dotnet.Session.removeCopies idx replacement (l.set idx replacement).length
      (l.set idx replacement) = Session.replaceAt l idx replacement := by
  have hset := zipIdx_map_set l idx 0 replacement
  rw [Nat.zero_add] at hset
  rw [removeCopies_eq _ _ _ _ le_rfl, Session.replaceAt]
  simp only [hset, List.take_length, List.drop_length, List.append_nil]

theorem workingDirectoryReplaced_eq (directory replacement : URI) :
    (Dotnet.Session.workingDirectoryReplaced s directory replacement).2 =
      Session.workingDirectoryReplaced s directory replacement := by
  unfold Dotnet.Session.workingDirectoryReplaced Session.workingDirectoryReplaced
  cases s.workingDirectories with
  | none => rfl
  | some l =>
    dsimp only
    cases l.findIdx? fun d => d = directory with
    | none => rfl
    | some idx =>
      simp only [replaceAt_eq]
      cases l.findIdx? fun d => d = replacement with
      | none => rfl
      | some j => by_cases hlt : j < idx <;> simp [hlt]

theorem inputNeededSet_eq (request : SessionInputRequest Empty) :
    (Dotnet.Session.inputNeededSet s request).2 = Session.inputNeededSet s request := by
  simp only [Dotnet.Session.inputNeededSet, Session.inputNeededSet, sessionInputRequestId_eq,
    withInputNeededStatus_eq]

theorem inputNeededRemoved_eq (id : String) :
    (Dotnet.Session.inputNeededRemoved s id).2 = Session.inputNeededRemoved s id := by
  unfold Dotnet.Session.inputNeededRemoved Session.inputNeededRemoved
  cases s.inputNeeded with
  | none => rfl
  | some l =>
    simp only [sessionInputRequestId_eq, withInputNeededStatus_eq]
    cases eraseWhere (fun r => Session.requestId r = id) l with
    | none => rfl
    | some l' => cases l' <;> rfl

/-! ### The reducers -/

/-- The actions on which the .NET reducer leaves another state. -/
def Diverges (s : SessionState Empty) : SessionAction Empty → Prop
  | .customizationUpdated c => PutsMcpServer s c
  | .customizationRemoved id => IsTopMcpServer s id
  | .chatUpdated chat changes =>
    ∃ summary, s.chats.find? (fun c => c.resource = chat) = some summary ∧
      ChangesMovable changes summary
  | _ => False

/-- On a session of distinct ids the two reducers leave the same state exactly if the action
is not one of those. -/
theorem applyToSession_agrees_iff (hs : DistinctIds s) (a : SessionAction Empty) :
    (Dotnet.Session.applyToSession s a).2 = Session.sessionReducer s a ↔ ¬ Diverges s a := by
  cases a with
  | customizationUpdated c => exact customizationUpdated_agrees_iff hs c
  | customizationRemoved id => exact customizationRemoved_agrees_iff hs id
  | chatUpdated chat changes => exact applySessionChatUpdated_agrees_iff chat changes
  | chatRemoved chat => exact iff_of_true (applySessionChatRemoved_eq chat) not_false
  | chatsReordered chats => exact iff_of_true (applySessionChatsReordered_eq hs chats) not_false
  | configChanged a => exact iff_of_true (configChanged_eq a) not_false
  | activeClientRemoved id => exact iff_of_true (activeClientRemoved_eq id) not_false
  | workingDirectorySet d => exact iff_of_true (workingDirectorySet_eq d) not_false
  | workingDirectoryRemoved d => exact iff_of_true (workingDirectoryRemoved_eq d) not_false
  | workingDirectoryReplaced d r => exact iff_of_true (workingDirectoryReplaced_eq d r) not_false
  | inputNeededSet request => exact iff_of_true (inputNeededSet_eq request) not_false
  | inputNeededRemoved id => exact iff_of_true (inputNeededRemoved_eq id) not_false
  | customizationToggled id enablement =>
    exact iff_of_true (customizationToggled_eq id enablement) not_false
  | mcpServerStateChanged a => exact iff_of_true (applyMcpServerStateChanged_eq hs a) not_false
  | mcpServerStartRequested id => exact iff_of_true (mcpServerStartRequested_eq hs id) not_false
  | mcpServerBackgroundRequested id =>
    exact iff_of_true (mcpServerBackgroundRequested_eq hs id) not_false
  | mcpServerStopRequested id => exact iff_of_true (mcpServerStopRequested_eq hs id) not_false
  | _ => exact iff_of_true rfl not_false

/-- The state that `ApplyToSession` leaves. -/
def applied (s : SessionState Empty) (a : SessionAction Empty) : SessionState Empty :=
  (Dotnet.Session.applyToSession s a).2

/-- An MCP server at the top of the tree. -/
def server : McpServerCustomization Empty :=
  { id := "m1", uri := "mcp:/m1", name := "Files", icons := none, range := none, _meta := none
    enablement := none, state := .stopped, channel := none, mcpApp := none, children := none }

/-- A session with one chat and one MCP server. -/
def oneServer : SessionState Empty := { oneChat with customizations := some [.mcpServer server] }

theorem oneServer_distinct : DistinctIds oneServer where
  chats := by decide
  customizations := by decide

end Dotnet

end AgentHostProtocol.Agreement
