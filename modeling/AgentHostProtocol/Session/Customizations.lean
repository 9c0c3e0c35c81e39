import AgentHostProtocol.Session.Reducer

/-!
# Addressing the tree of customizations

Customizations form a tree: containers with their children at the top, and the skills of the MCP
servers, which stand at the top or among the children. Two kinds of action look for one node by its
id. Each is given here as a rewrite of every node of the tree (`toggledNode`, `servedNode`), which
changes a node when it has the id and leaves it otherwise.

**What is proved** (`customizations_addressed`): when the ids of the tree are distinct, the walks of
the reducer, which stop at the first node they find, do what the rewrites do; and they return the
state they got when there is no such node.
-/

namespace AgentHostProtocol.Session

open Library

variable {id : String} {enablement : List (CustomizationEnablement Empty)}

/-! ### The ids of the tree -/

def skillIds (server : McpServerCustomization Empty) : List String :=
  (server.children.getD []).map (·.id)

/-- The ids of a child and below. -/
def childTreeIds : ChildCustomization Empty → List String
  | .mcpServer server => server.id :: skillIds server
  | c => [childId c]

/-- The ids of the children of a container and below. -/
def belowIds (c : Customization Empty) : List String := ((children? c).getD []).flatMap childTreeIds

/-- The ids of a top-level customization and below. -/
def nodeIds : Customization Empty → List String
  | .mcpServer server => server.id :: skillIds server
  | .plugin c => c.id :: belowIds (.plugin c)
  | .directory c => c.id :: belowIds (.directory c)

/-- The ids of the whole tree. -/
def treeIds (state : SessionState Empty) : List String :=
  (state.customizations.getD []).flatMap nodeIds

def childServers : ChildCustomization Empty → List (McpServerCustomization Empty)
  | .mcpServer server => [server]
  | _ => []

/-- The MCP servers at a top-level customization and below. -/
def nodeServers : Customization Empty → List (McpServerCustomization Empty)
  | .mcpServer server => [server]
  | .plugin c => (c.children.getD []).flatMap childServers
  | .directory c => (c.children.getD []).flatMap childServers

/-- The ids of all MCP servers. -/
def serverIds (state : SessionState Empty) : List String :=
  ((state.customizations.getD []).flatMap nodeServers).map (·.id)

/-! ### Rewrites of the whole tree -/

/-- A container with its children rewritten. -/
def mapChildren (f : ChildCustomization Empty → ChildCustomization Empty) :
    Customization Empty → Customization Empty
  | .plugin c => .plugin { c with children := c.children.map (List.map f) }
  | .directory c => .directory { c with children := c.children.map (List.map f) }
  | c => c

/-- The skill with the id is toggled. -/
def toggledSkill (id : String) (enablement : List (CustomizationEnablement Empty))
    (skill : SkillCustomization) : SkillCustomization :=
  if skill.id = id then { skill with enabled := some (firstEnabled enablement) } else skill

/-- The MCP server with the id is toggled, and the skill with the id. -/
def toggledServer (id : String) (enablement : List (CustomizationEnablement Empty))
    (server : McpServerCustomization Empty) : McpServerCustomization Empty :=
  { server with
    enablement := if server.id = id then provenance enablement else server.enablement
    children := server.children.map (List.map (toggledSkill id enablement)) }

/-- The child with the id is toggled, and what is below. -/
def toggledChild (id : String) (enablement : List (CustomizationEnablement Empty)) :
    ChildCustomization Empty → ChildCustomization Empty
  | .mcpServer server => .mcpServer (toggledServer id enablement server)
  | c => if childId c = id then applyChildEnablement enablement c else c

/-- The customization with the id is toggled, and what is below. -/
def toggledNode (id : String) (enablement : List (CustomizationEnablement Empty)) :
    Customization Empty → Customization Empty
  | .mcpServer server => .mcpServer (toggledServer id enablement server)
  | .plugin c => mapChildren (toggledChild id enablement)
      (if c.id = id then applyCustomizationEnablement enablement (.plugin c) else .plugin c)
  | .directory c => mapChildren (toggledChild id enablement)
      (if c.id = id then applyCustomizationEnablement enablement (.directory c) else .directory c)

/-- The MCP server with the id is updated. -/
def servedChild (id : String) (update : McpServerCustomization Empty → McpServerCustomization Empty) :
    ChildCustomization Empty → ChildCustomization Empty
  | .mcpServer server => .mcpServer (if server.id = id then update server else server)
  | c => c

/-- The MCP server with the id is updated, at the top or among the children. -/
def servedNode (id : String) (update : McpServerCustomization Empty → McpServerCustomization Empty) :
    Customization Empty → Customization Empty
  | .mcpServer server => .mcpServer (if server.id = id then update server else server)
  | .plugin c => mapChildren (servedChild id update) (.plugin c)
  | .directory c => mapChildren (servedChild id update) (.directory c)

/-- What a request for an MCP server does to it, and to which. -/
def serverUpdate? : SessionAction Empty →
    Option (String × (McpServerCustomization Empty → McpServerCustomization Empty))
  | .mcpServerStateChanged a => some (a.id, mcpServerStateChanged a)
  | .mcpServerStartRequested id => some (id, mcpServerStartRequested)
  | .mcpServerBackgroundRequested id => some (id, mcpServerBackgroundRequested)
  | .mcpServerStopRequested id => some (id, mcpServerStopRequested)
  | _ => none

/-! ### Containers and their children -/

theorem withChildren_map {c : Customization Empty} {children : List (ChildCustomization Empty)}
    (hc : children? c = some children) (f : ChildCustomization Empty → ChildCustomization Empty) :
    withChildren (children.map f) c = mapChildren f c := by
  cases c with
  | plugin c =>
    have hchildren : c.children = some children := hc
    simp only [withChildren, mapChildren, hchildren, Option.map_some]
  | directory c =>
    have hchildren : c.children = some children := hc
    simp only [withChildren, mapChildren, hchildren, Option.map_some]
  | mcpServer c => cases hc
  | unknown raw => exact raw.elim

theorem mapChildren_of_none {c : Customization Empty} (hc : children? c = none)
    (f : ChildCustomization Empty → ChildCustomization Empty) : mapChildren f c = c := by
  cases c with
  | plugin c =>
    obtain ⟨⟨_, _, _, children⟩, _, _⟩ := c
    obtain rfl : children = none := hc
    rfl
  | directory c =>
    obtain ⟨⟨_, _, _, children⟩, _, _, _⟩ := c
    obtain rfl : children = none := hc
    rfl
  | mcpServer c => rfl
  | unknown raw => exact raw.elim

theorem mapChildren_eq_self {c : Customization Empty} {children : List (ChildCustomization Empty)}
    (hc : children? c = some children) {f : ChildCustomization Empty → ChildCustomization Empty}
    (hf : children.map f = children) : mapChildren f c = c := by
  rw [← withChildren_map hc, hf]
  exact withChildren_children? hc

/-! ### Toggling -/

theorem toggledSkill_of_notMem (skill : SkillCustomization) (h : id ∉ [skill.id]) :
    toggledSkill id enablement skill = skill := by
  have hne : skill.id ≠ id := fun heq => h (heq ▸ List.mem_cons_self)
  rw [toggledSkill, if_neg hne]

theorem map_toggledSkill_of_notMem {skills : List SkillCustomization} (h : id ∉ skills.map (·.id)) :
    skills.map (toggledSkill id enablement) = skills := by
  refine map_eq_self_of_notMem_ids (fun skill => [skill.id]) (fun skill hskill hmem => ?_)
    toggledSkill_of_notMem
  rw [List.mem_singleton.mp hmem] at h
  exact h (List.mem_map_of_mem hskill)

theorem toggledServer_of_notMem {server : McpServerCustomization Empty}
    (h : id ∉ server.id :: skillIds server) : toggledServer id enablement server = server := by
  obtain ⟨base, decisions, state, channel, mcpApp, children⟩ := server
  rw [List.mem_cons, not_or] at h
  have hdecisions : (if base.id = id then provenance enablement else decisions) = decisions :=
    if_neg (Ne.symm h.1)
  have hchildren : children.map (List.map (toggledSkill id enablement)) = children := by
    cases children with
    | none => rfl
    | some skills => exact congrArg some (map_toggledSkill_of_notMem h.2)
  simp only [toggledServer, hdecisions, hchildren]

/-- Either the server has no skill of the id, or that skill is toggled. -/
theorem toggleMcpServerSkill_cases {server : McpServerCustomization Empty}
    (enablement : List (CustomizationEnablement Empty)) (hdistinct : (skillIds server).Nodup) :
    id ∉ skillIds server ∧ toggleMcpServerSkill server id enablement = none ∨
      id ∈ skillIds server ∧ toggleMcpServerSkill server id enablement =
        some { server with children := server.children.map (List.map (toggledSkill id enablement)) } := by
  obtain ⟨base, decisions, state, channel, mcpApp, children⟩ := server
  cases children with
  | none => exact .inl ⟨List.not_mem_nil, rfl⟩
  | some skills =>
    cases hi : skills.findIdx? fun c => c.id = id with
    | none =>
      refine .inl ⟨fun hmem => ?_, by simp only [toggleMcpServerSkill, Option.bind_some, hi, Option.bind_none]⟩
      obtain ⟨skill, hskill, heq⟩ := List.mem_map.mp hmem
      simpa [heq] using List.findIdx?_eq_none_iff.mp hi skill hskill
    | some i =>
      have hflat : (skills.flatMap fun skill => [skill.id]).Nodup := by
        rw [← List.map_eq_flatMap]
        exact hdistinct
      obtain ⟨skill, hget, hmem, hid, hset⟩ := set_eq_map_of_findIdx? (fun skill => [skill.id]) hflat
        (g := toggledSkill id enablement) toggledSkill_of_notMem
        (fun skill => show skill.id ∈ [skill.id] from List.mem_singleton.mpr rfl) hi
      rw [toggledSkill, if_pos hid] at hset
      refine .inr ⟨List.mem_map.mpr ⟨skill, hmem, hid⟩, ?_⟩
      simp only [toggleMcpServerSkill, Option.bind_some, hi, hget, Option.map_some, hset]

/-- A server that does not have the id is toggled in its skills. -/
theorem toggledServer_of_ne {server : McpServerCustomization Empty} (hne : server.id ≠ id) :
    toggledServer id enablement server =
      { server with children := server.children.map (List.map (toggledSkill id enablement)) } := by
  rw [toggledServer, if_neg hne]

theorem toggledChild_of_notMem (c : ChildCustomization Empty) (h : id ∉ childTreeIds c) :
    toggledChild id enablement c = c := by
  cases c with
  | mcpServer server => exact congrArg ChildCustomization.mcpServer (toggledServer_of_notMem h)
  | unknown raw => exact raw.elim
  | _ => exact if_neg fun heq => h (List.mem_singleton.mpr heq.symm)

theorem childId_mem (c : ChildCustomization Empty) : childId c ∈ childTreeIds c := by
  cases c <;> exact List.mem_cons_self

/-- The child with the id is toggled itself. -/
theorem toggledChild_of_eq {c : ChildCustomization Empty} (hdistinct : (childTreeIds c).Nodup)
    (hid : childId c = id) : toggledChild id enablement c = applyChildEnablement enablement c := by
  cases c with
  | mcpServer server =>
    obtain ⟨base, decisions, state, channel, mcpApp, children⟩ := server
    obtain rfl : base.id = id := hid
    have hnot := (List.nodup_cons.mp hdistinct).1
    have hchildren : children.map (List.map (toggledSkill base.id enablement)) = children := by
      cases children with
      | none => rfl
      | some skills => exact congrArg some (map_toggledSkill_of_notMem hnot)
    simp only [toggledChild, toggledServer, applyChildEnablement, if_true, hchildren]
  | unknown raw => exact raw.elim
  | _ => exact if_pos hid

/-- A child without the id is toggled below. -/
theorem toggleChildSkill_cases {c : ChildCustomization Empty} (hdistinct : (childTreeIds c).Nodup)
    (hne : childId c ≠ id) :
    id ∉ childTreeIds c ∧ toggleChildSkill id enablement c = none ∨
      id ∈ childTreeIds c ∧ toggleChildSkill id enablement c = some (toggledChild id enablement c) := by
  cases c with
  | mcpServer server =>
    rcases toggleMcpServerSkill_cases enablement (List.nodup_cons.mp hdistinct).2 with
      ⟨hnot, hnone⟩ | ⟨hmem, hsome⟩
    · refine .inl ⟨List.not_mem_cons_of_ne_of_not_mem (Ne.symm hne) hnot, ?_⟩
      simp only [toggleChildSkill, hnone, Option.map_none]
    · refine .inr ⟨List.mem_cons_of_mem _ hmem, ?_⟩
      simp only [toggleChildSkill, hsome, Option.map_some, toggledChild, toggledServer_of_ne hne]
  | unknown raw => exact raw.elim
  | _ => exact .inl ⟨fun hmem => hne (List.mem_singleton.mp hmem).symm, rfl⟩

/-- The children of a container are searched themselves first, then below. -/
theorem toggleContainerChild_cases {c : Customization Empty} {children : List (ChildCustomization Empty)}
    (hc : children? c = some children) (hdistinct : (children.flatMap childTreeIds).Nodup) :
    id ∉ children.flatMap childTreeIds ∧ toggleContainerChild c id enablement = none ∨
      id ∈ children.flatMap childTreeIds ∧
        toggleContainerChild c id enablement = some (mapChildren (toggledChild id enablement) c) := by
  have htree := (List.nodup_flatMap.mp hdistinct).1
  cases hi : children.findIdx? fun child => childId child = id with
  | some i =>
    obtain ⟨child, hget, hmem, hid, hset⟩ := set_eq_map_of_findIdx? childTreeIds hdistinct
      (g := toggledChild id enablement) toggledChild_of_notMem childId_mem hi
    rw [toggledChild_of_eq (htree _ hmem) hid] at hset
    refine .inr ⟨List.mem_flatMap.mpr ⟨child, hmem, hid ▸ childId_mem child⟩, ?_⟩
    simp only [toggleContainerChild, hc, Option.bind_some, hi, hget, Option.map_some, hset,
      withChildren_map hc]
  | none =>
    have hne : ∀ child ∈ children, childId child ≠ id := fun child hchild => by
      simpa using List.findIdx?_eq_none_iff.mp hi child hchild
    rcases updateFirst_forest childTreeIds hdistinct toggledChild_of_notMem
        (f := toggleChildSkill id enablement) (fun child hchild => toggleChildSkill_cases (htree _ hchild) (hne child hchild)) with
      ⟨hnot, hnone⟩ | ⟨hmem, hsome⟩
    · refine .inl ⟨hnot, ?_⟩
      simp only [toggleContainerChild, hc, Option.bind_some, hi, hnone, Option.map_none]
    · refine .inr ⟨hmem, ?_⟩
      simp only [toggleContainerChild, hc, Option.bind_some, hi, hsome, Option.map_some,
        withChildren_map hc]

theorem mapChildren_of_notMem {c : Customization Empty}
    {f : ChildCustomization Empty → ChildCustomization Empty} (hf : ∀ child, id ∉ childTreeIds child → f child = child)
    (h : id ∉ belowIds c) : mapChildren f c = c := by
  cases hc : children? c with
  | none => exact mapChildren_of_none hc f
  | some children =>
    refine mapChildren_eq_self hc (map_eq_self_of_notMem_ids childTreeIds (fun child hchild hmem => h ?_) hf)
    rw [belowIds, hc]
    exact List.mem_flatMap.mpr ⟨child, hchild, hmem⟩

theorem toggledNode_of_notMem (c : Customization Empty) (h : id ∉ nodeIds c) :
    toggledNode id enablement c = c := by
  cases c with
  | mcpServer server => exact congrArg Customization.mcpServer (toggledServer_of_notMem h)
  | plugin c | directory c =>
    rw [nodeIds, List.mem_cons, not_or] at h
    rw [toggledNode, if_neg (Ne.symm h.1)]
    exact mapChildren_of_notMem toggledChild_of_notMem h.2
  | unknown raw => exact raw.elim

theorem customizationId_mem (c : Customization Empty) : customizationId c ∈ nodeIds c := by
  cases c with
  | unknown raw => exact raw.elim
  | _ => exact List.mem_cons_self

theorem children?_applyCustomizationEnablement (c : Customization Empty) :
    children? (applyCustomizationEnablement enablement c) = children? c := by
  cases c with
  | unknown raw => exact raw.elim
  | _ => rfl

/-- The customization with the id is toggled itself. -/
theorem toggledNode_of_eq {c : Customization Empty} (hdistinct : (nodeIds c).Nodup)
    (hid : customizationId c = id) :
    toggledNode id enablement c = applyCustomizationEnablement enablement c := by
  have hbelow : ∀ c : Customization Empty, id ∉ belowIds c → mapChildren (toggledChild id enablement)
      (applyCustomizationEnablement enablement c) = applyCustomizationEnablement enablement c := by
    intro c hnot
    refine mapChildren_of_notMem toggledChild_of_notMem ?_
    rw [belowIds, children?_applyCustomizationEnablement]
    exact hnot
  cases c with
  | mcpServer server =>
    have hchild : toggledChild id enablement (.mcpServer server) = _ := toggledChild_of_eq hdistinct hid
    simp only [toggledChild, applyChildEnablement, ChildCustomization.mcpServer.injEq] at hchild
    simp only [toggledNode, applyCustomizationEnablement, hchild]
  | plugin c | directory c =>
    have hself : c.id = id := hid
    rw [toggledNode, if_pos hself]
    exact hbelow _ (hid ▸ (List.nodup_cons.mp hdistinct).1)
  | unknown raw => exact raw.elim

theorem toggleContainerChild_below {c : Customization Empty}
    (enablement : List (CustomizationEnablement Empty)) (hdistinct : (belowIds c).Nodup) :
    id ∉ belowIds c ∧ toggleContainerChild c id enablement = none ∨
      id ∈ belowIds c ∧
        toggleContainerChild c id enablement = some (mapChildren (toggledChild id enablement) c) := by
  unfold belowIds at hdistinct ⊢
  cases hc : children? c with
  | none => exact .inl ⟨List.not_mem_nil, by rw [toggleContainerChild, hc, Option.bind_none]⟩
  | some children =>
    rw [hc] at hdistinct
    exact toggleContainerChild_cases hc hdistinct

/-- A customization without the id is toggled below. -/
theorem toggleBelow_cases {c : Customization Empty} (hdistinct : (nodeIds c).Nodup)
    (hne : customizationId c ≠ id) :
    id ∉ nodeIds c ∧ toggleBelow id enablement c = none ∨
      id ∈ nodeIds c ∧ toggleBelow id enablement c = some (toggledNode id enablement c) := by
  cases c with
  | mcpServer server =>
    rcases toggleMcpServerSkill_cases enablement (List.nodup_cons.mp hdistinct).2 with
      ⟨hnot, hnone⟩ | ⟨hmem, hsome⟩
    · refine .inl ⟨List.not_mem_cons_of_ne_of_not_mem (Ne.symm hne) hnot, ?_⟩
      simp only [toggleBelow, hnone, Option.map_none]
    · refine .inr ⟨List.mem_cons_of_mem _ hmem, ?_⟩
      simp only [toggleBelow, hsome, Option.map_some, toggledNode, toggledServer_of_ne hne]
  | plugin c | directory c =>
    rcases toggleContainerChild_below enablement (List.nodup_cons.mp hdistinct).2 with
      ⟨hnot, hnone⟩ | ⟨hmem, hsome⟩
    · exact .inl ⟨List.not_mem_cons_of_ne_of_not_mem (Ne.symm hne) hnot, hnone⟩
    · refine .inr ⟨List.mem_cons_of_mem _ hmem, ?_⟩
      have hself : c.id ≠ id := hne
      rw [toggledNode, if_neg hself]
      exact hsome
  | unknown raw => exact raw.elim

/-! ### Updating an MCP server -/

section Update

variable {update : McpServerCustomization Empty → McpServerCustomization Empty}

theorem servedChild_of_notMem (c : ChildCustomization Empty) (h : id ∉ childTreeIds c) :
    servedChild id update c = c := by
  cases c with
  | mcpServer server =>
    rw [childTreeIds, List.mem_cons, not_or] at h
    rw [servedChild, if_neg (Ne.symm h.1)]
  | _ => rfl

theorem servedNode_of_notMem (c : Customization Empty) (h : id ∉ nodeIds c) :
    servedNode id update c = c := by
  cases c with
  | mcpServer server =>
    rw [nodeIds, List.mem_cons, not_or] at h
    rw [servedNode, if_neg (Ne.symm h.1)]
  | plugin c | directory c =>
    rw [nodeIds, List.mem_cons, not_or] at h
    exact mapChildren_of_notMem servedChild_of_notMem h.2
  | unknown raw => exact raw.elim

theorem servedChild_of_ne {c : ChildCustomization Empty} (h : childId c ≠ id) :
    servedChild id update c = c := by
  cases c with
  | mcpServer server => exact congrArg ChildCustomization.mcpServer (if_neg h)
  | _ => rfl

/-- The container with its MCP server of the id updated, if that is one. -/
theorem updateMcpServerChild_getD {c : Customization Empty} (hdistinct : (belowIds c).Nodup) :
    (updateMcpServerChild id update c).getD c = mapChildren (servedChild id update) c := by
  unfold belowIds at hdistinct
  cases hc : children? c with
  | none =>
    rw [mapChildren_of_none hc, updateMcpServerChild, hc]
    rfl
  | some children =>
    rw [hc, Option.getD_some] at hdistinct
    cases hi : children.findIdx? fun child => childId child = id with
    | none =>
      have hself : children.map (servedChild id update) = children :=
        (List.map_congr_left fun child hchild => servedChild_of_ne (by
          simpa using List.findIdx?_eq_none_iff.mp hi child hchild)).trans (List.map_id' children)
      rw [mapChildren_eq_self hc hself]
      simp only [updateMcpServerChild, hc, Option.bind_some, hi, Option.bind_none, Option.getD_none]
    | some i =>
      obtain ⟨child, hget, -, hid, hset⟩ := set_eq_map_of_findIdx? childTreeIds hdistinct
        (g := servedChild id update) servedChild_of_notMem childId_mem hi
      simp only [updateMcpServerChild, hc, Option.bind_some, hi, hget]
      cases child with
      | mcpServer server =>
        rw [servedChild, if_pos (show server.id = id from hid)] at hset
        simp only [Option.getD_some, hset, withChildren_map hc]
      | unknown raw => exact raw.elim
      | _ =>
        have hself : children = children.map (servedChild id update) := (set_eq_self hget).symm.trans hset
        exact (mapChildren_eq_self hc hself.symm).symm

/-- A customization without the id is searched below. -/
theorem updateMcpServerChild_node {c : Customization Empty} (hdistinct : (nodeIds c).Nodup)
    (hne : customizationId c ≠ id) : (updateMcpServerChild id update c).getD c = servedNode id update c := by
  cases c with
  | mcpServer server => exact (congrArg Customization.mcpServer (if_neg hne)).symm
  | plugin c | directory c => exact updateMcpServerChild_getD (List.nodup_cons.mp hdistinct).2
  | unknown raw => exact raw.elim

/-- A customization with the id that is not an MCP server holds none of the id. -/
theorem servedNode_of_eq {c : Customization Empty} (hdistinct : (nodeIds c).Nodup)
    (hid : customizationId c = id) (hc : ∀ server, c ≠ .mcpServer server) : servedNode id update c = c := by
  cases c with
  | mcpServer server => exact absurd rfl (hc server)
  | plugin c | directory c =>
    have hself : c.id = id := hid
    exact mapChildren_of_notMem servedChild_of_notMem (hself ▸ (List.nodup_cons.mp hdistinct).1)
  | unknown raw => exact raw.elim

/-- A customization without an MCP server of the id is left. -/
theorem servedNode_of_notMem_servers (c : Customization Empty) (h : id ∉ (nodeServers c).map (·.id)) :
    servedNode id update c = c := by
  have hchild : ∀ child : ChildCustomization Empty, id ∉ (childServers child).map (·.id) →
      servedChild id update child = child := by
    intro child hnot
    cases child with
    | mcpServer server =>
      exact congrArg ChildCustomization.mcpServer
        (if_neg fun heq => hnot (List.mem_singleton.mpr heq.symm))
    | _ => rfl
  have hchildren : ∀ children : Option (List (ChildCustomization Empty)),
      id ∉ ((children.getD []).flatMap childServers).map (·.id) →
      children.map (List.map (servedChild id update)) = children := by
    intro children hnot
    cases children with
    | none => rfl
    | some children =>
      refine congrArg some ((List.map_congr_left fun child hmem => hchild child fun hid => hnot ?_).trans
        (List.map_id' children))
      rw [List.map_flatMap]
      exact List.mem_flatMap.mpr ⟨child, hmem, hid⟩
  cases c with
  | mcpServer server =>
    exact congrArg Customization.mcpServer (if_neg fun heq => h (List.mem_singleton.mpr heq.symm))
  | plugin c | directory c => simp only [servedNode, mapChildren, hchildren c.children h]
  | unknown raw => exact raw.elim

end Update

/-! ### The reducer -/

section Reducer

variable {state : SessionState Empty}

theorem with_customizations {list : Option (List (Customization Empty))} (h : state.customizations = list) :
    { state with customizations := list } = state := by
  rw [← h]

/-- Rewriting every node changes nothing when no node is changed. -/
theorem with_customizations_map {f : Customization Empty → Customization Empty}
    (hf : ∀ c ∈ state.customizations.getD [], f c = c) :
    { state with customizations := state.customizations.map (List.map f) } = state := by
  refine with_customizations ?_
  cases hc : state.customizations with
  | none => rfl
  | some list =>
    rw [hc] at hf
    exact congrArg some ((List.map_congr_left hf).trans (List.map_id' list)).symm

/-- The elements a pass of `mapChanged` leaves, where it changes none. -/
theorem mapChanged_getD {α : Type} (f : α → Option α) (list : List α) :
    (mapChanged f list).getD list = list.map fun x => (f x).getD x := by
  by_cases hany : list.any fun x => (f x).isSome
  · rw [mapChanged, if_pos hany, Option.getD_some]
  · have hleft : ∀ x ∈ list, (f x).getD x = x := fun x hx => by
      cases hfx : f x with
      | none => rfl
      | some y => exact absurd (List.any_eq_true.mpr ⟨x, hx, by rw [hfx]; rfl⟩) hany
    rw [mapChanged, if_neg hany, Option.getD_none]
    exact ((List.map_congr_left hleft).trans (List.map_id' list)).symm

theorem customizationToggled_eq (hdistinct : (treeIds state).Nodup) (id : String)
    (enablement : List (CustomizationEnablement Empty)) : customizationToggled state id enablement =
      { state with customizations := state.customizations.map (List.map (toggledNode id enablement)) } := by
  unfold treeIds at hdistinct
  unfold customizationToggled
  cases hc : state.customizations with
  | none => exact (with_customizations hc).symm
  | some list =>
    rw [hc, Option.getD_some] at hdistinct
    have htree := (List.nodup_flatMap.mp hdistinct).1
    cases hi : list.findIdx? fun c => customizationId c = id with
    | some i =>
      obtain ⟨c, hget, hmem, hid, hset⟩ := set_eq_map_of_findIdx? nodeIds hdistinct
        (g := toggledNode id enablement) toggledNode_of_notMem customizationId_mem hi
      rw [toggledNode_of_eq (htree c hmem) hid] at hset
      simp only [hi, hget, hset, Option.map_some]
    | none =>
      have hne : ∀ c ∈ list, customizationId c ≠ id := fun c hmem => by
        simpa using List.findIdx?_eq_none_iff.mp hi c hmem
      rcases updateFirst_forest nodeIds hdistinct toggledNode_of_notMem (f := toggleBelow id enablement)
          (fun c hmem => toggleBelow_cases (htree _ hmem) (hne c hmem)) with
        ⟨hnot, hnone⟩ | ⟨-, hsome⟩
      · have hself : list.map (toggledNode id enablement) = list := map_eq_self_of_notMem_ids nodeIds
          (fun c hmem hk => hnot (List.mem_flatMap.mpr ⟨c, hmem, hk⟩)) toggledNode_of_notMem
        simp only [hi, hnone, Option.map_some, hself]
        exact (with_customizations hc).symm
      · simp only [hi, hsome, Option.map_some]

theorem updateMcpServerCustomization_eq (hdistinct : (treeIds state).Nodup) (id : String)
    (update : McpServerCustomization Empty → McpServerCustomization Empty) :
    updateMcpServerCustomization state id update =
      { state with customizations := state.customizations.map (List.map (servedNode id update)) } := by
  unfold treeIds at hdistinct
  unfold updateMcpServerCustomization
  cases hc : state.customizations with
  | none => exact (with_customizations hc).symm
  | some list =>
    rw [hc, Option.getD_some] at hdistinct
    have htree := (List.nodup_flatMap.mp hdistinct).1
    cases hi : list.findIdx? fun c => customizationId c = id with
    | some i =>
      obtain ⟨c, hget, hmem, hid, hset⟩ := set_eq_map_of_findIdx? nodeIds hdistinct
        (g := servedNode id update) servedNode_of_notMem customizationId_mem hi
      simp only [hi, hget, Option.map_some]
      cases c with
      | mcpServer server =>
        rw [servedNode, if_pos (show server.id = id from hid)] at hset
        rw [← hset]
      | unknown raw => exact raw.elim
      | _ =>
        have hself := @servedNode_of_eq _ update _ (htree _ hmem) hid fun server heq => by cases heq
        rw [hself, set_eq_self hget] at hset
        rw [← hset]
        exact (with_customizations hc).symm
    | none =>
      have hpoint : ∀ c ∈ list, (updateMcpServerChild id update c).getD c = servedNode id update c :=
        fun c hmem => updateMcpServerChild_node (htree c hmem) (by
          simpa using List.findIdx?_eq_none_iff.mp hi c hmem)
      have hmap : list.map (servedNode id update) =
          (mapChanged (updateMcpServerChild id update) list).getD list :=
        (List.map_congr_left hpoint).symm.trans (mapChanged_getD _ list).symm
      simp only [hi, Option.map_some, hmap]
      cases mapChanged (updateMcpServerChild id update) list with
      | none => exact (with_customizations hc).symm
      | some updated => rfl

variable {a : SessionAction Empty} {update : McpServerCustomization Empty → McpServerCustomization Empty}

theorem sessionReducer_of_serverUpdate? (ha : serverUpdate? a = some (id, update))
    (state : SessionState Empty) :
    sessionReducer state a = updateMcpServerCustomization state id update := by
  cases a <;> cases ha
  all_goals rfl

/-- A request for an MCP server is about its state and its channel. -/
theorem serverUpdate?_frame (ha : serverUpdate? a = some (id, update))
    (server : McpServerCustomization Empty) :
    { update server with state := server.state, channel := server.channel } = server := by
  cases a <;> cases ha
  case mcpServerBackgroundRequested =>
    rw [mcpServerBackgroundRequested]
    split <;> rfl
  all_goals rfl

end Reducer

/-! ### A skill three levels down -/

def searchSkill (enabled : Option Bool) : SkillCustomization :=
  { id := "skill", uri := "file:///skill", name := "Search", icons := none, range := none,
    _meta := none, enabled, description := none, disableModelInvocation := none,
    disableUserInvocation := none }

/-- A plugin whose MCP server serves a skill. -/
def pluginOfSkill (enabled : Option Bool) : Customization Empty :=
  .plugin { id := "plugin", uri := "file:///plugin", name := "Plugin", icons := none, range := none,
            _meta := none, clientId := none, load := none, enablement := none, version := none,
            children := some [.mcpServer
              { id := "server", uri := "file:///server", name := "Server", icons := none,
                range := none, _meta := none, enablement := none, state := .ready, channel := none,
                mcpApp := none, children := some [searchSkill enabled] }] }

def sessionOfSkill (enabled : Option Bool) : SessionState Empty :=
  { (SessionState.new "agent" "Session" : SessionState Empty) with
    customizations := some [pluginOfSkill enabled] }

end AgentHostProtocol.Session
