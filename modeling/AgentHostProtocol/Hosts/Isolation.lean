import AgentHostProtocol.Hosts.StateMirror
import AgentHostProtocol.Library.Runs
import Mathlib.Data.List.Induction

/-!
# Hosts do not see each other

**What is proved** of `MultiHostStateMirror`, for every list of calls (`hosts_isolated`):
* the entries of a host are, in their order, those of the mirror to which only the calls for that
  host were made;
* `resetHost` removes the entries of its host and of no other, and every key is the key of a host;
* the automations kept for a host are those of its catalogue, the last of one name.

Calls that throw count: what they have changed by then stays.
-/

namespace AgentHostProtocol.Hosts

open Library Channels Client

variable {J : Type}

/-! ### The entries of one host -/

section

variable {V : Type}

/-- Whether a key is of the host. -/
def isOf (h : HostId) (key : String) : Bool := startsWith key (hostedResourceKeyPrefix h)

theorem isOf_own (h : HostId) (uri : URI) : isOf h (hostedResourceKey h uri) = true :=
  startsWith_own h uri

theorem isOf_of_ne {g h : HostId} (hne : g ≠ h) (uri : URI) :
    isOf h (hostedResourceKey g uri) = false := by
  rw [← Bool.not_eq_true]
  exact fun hs => hne (startsWith_prefix_iff.mp hs)

/-- The entries of a map that are of the host. -/
def ofHost (h : HostId) (map : Record V) : Record V := map.restrict (isOf h)

theorem ofHost_set_own (h : HostId) (uri : URI) (map : Record V) (v : V) :
    ofHost h (map.set (hostedResourceKey h uri) v) =
      (ofHost h map).set (hostedResourceKey h uri) v :=
  Record.restrict_set_of_pos (isOf_own h uri) map v

theorem ofHost_set_of_ne {g h : HostId} (hne : g ≠ h) (uri : URI) (map : Record V) (v : V) :
    ofHost h (map.set (hostedResourceKey g uri) v) = ofHost h map :=
  Record.restrict_set_of_not (isOf_of_ne hne uri) map v

theorem get?_ofHost (h : HostId) (uri : URI) (map : Record V) :
    (ofHost h map).get? (hostedResourceKey h uri) = map.get? (hostedResourceKey h uri) := by
  unfold ofHost
  rw [Record.get?_restrict, if_pos (isOf_own h uri)]

theorem ofHost_deletePrefix_own (h : HostId) (map : Record V) :
    ofHost h (deletePrefix map (hostedResourceKeyPrefix h)) = Record.empty :=
  Record.restrict_restrict_not _ map

theorem ofHost_deletePrefix_comm (g h : HostId) (map : Record V) :
    ofHost h (deletePrefix map (hostedResourceKeyPrefix g)) =
      deletePrefix (ofHost h map) (hostedResourceKeyPrefix g) :=
  Record.restrict_comm _ _ map

theorem ofHost_deletePrefix_of_ne {g h : HostId} (hne : g ≠ h) (map : Record V) :
    ofHost h (deletePrefix map (hostedResourceKeyPrefix g)) = ofHost h map := by
  refine Record.restrict_restrict_of_imp (fun key hkey => ?_) map
  rw [Bool.not_eq_true', ← Bool.not_eq_true]
  exact fun hg => hne (host_unique hg hkey)

/-- The entry of a map that is keyed by host. -/
def onlyHost (h : HostId) (map : Record V) : Record V := map.restrict fun g => g = h

theorem onlyHost_set_own (h : HostId) (map : Record V) (v : V) :
    onlyHost h (map.set h v) = (onlyHost h map).set h v :=
  Record.restrict_set_of_pos (by simp) map v

theorem onlyHost_set_of_ne {g h : HostId} (hne : g ≠ h) (map : Record V) (v : V) :
    onlyHost h (map.set g v) = onlyHost h map :=
  Record.restrict_set_of_not (by simpa using hne) map v

theorem get?_onlyHost (h : HostId) (map : Record V) : (onlyHost h map).get? h = map.get? h := by
  unfold onlyHost
  rw [Record.get?_restrict, if_pos (decide_eq_true rfl)]

theorem onlyHost_delete_own (h : HostId) (map : Record V) :
    onlyHost h (map.delete h) = Record.empty := by
  have hdelete : map.delete h = map.restrict fun k => !decide (k = h) := by
    rw [Record.delete_eq_restrict]
    congr 1
    funext k
    exact decide_not
  unfold onlyHost
  rw [hdelete]
  exact Record.restrict_restrict_not _ map

theorem onlyHost_delete_comm (g h : HostId) (map : Record V) :
    onlyHost h (map.delete g) = (onlyHost h map).delete g := by
  rw [Record.delete_eq_restrict, Record.delete_eq_restrict]
  exact Record.restrict_comm _ _ map

theorem onlyHost_delete_of_ne {g h : HostId} (hne : g ≠ h) (map : Record V) :
    onlyHost h (map.delete g) = onlyHost h map := by
  rw [Record.delete_eq_restrict]
  refine Record.restrict_restrict_of_imp (fun k hk => ?_) map
  obtain rfl := of_decide_eq_true hk
  exact decide_eq_true hne.symm

end

/-! ### The resources of one host -/

/-- The entries of all maps that are of the host. -/
def mapsOf (h : HostId) (maps : ResourceMaps J) : ResourceMaps J := fun r => ofHost h (maps r)

theorem mapsOf_set_own (h : HostId) (maps : ResourceMaps J) (r : ResourceKind) (uri : URI)
    (v : Stored J) :
    mapsOf h (maps.set r (hostedResourceKey h uri) v) =
      (mapsOf h maps).set r (hostedResourceKey h uri) v := by
  funext r'
  unfold mapsOf ResourceMaps.set
  by_cases hr : r' = r
  · rw [if_pos hr, if_pos hr, ofHost_set_own]
  · rw [if_neg hr, if_neg hr]

theorem mapsOf_set_of_ne {g h : HostId} (hne : g ≠ h) (maps : ResourceMaps J) (r : ResourceKind)
    (uri : URI) (v : Stored J) :
    mapsOf h (maps.set r (hostedResourceKey g uri) v) = mapsOf h maps := by
  funext r'
  unfold mapsOf ResourceMaps.set
  by_cases hr : r' = r
  · rw [if_pos hr, ofHost_set_of_ne hne]
  · rw [if_neg hr]

theorem mapsOf_applySnapshot_own (h : HostId) (maps : ResourceMaps J) (r : ResourceKind) (uri : URI)
    (state : SnapshotState) :
    mapsOf h (maps.applySnapshot r (hostedResourceKey h uri) state).2 =
      ((mapsOf h maps).applySnapshot r (hostedResourceKey h uri) state).2 := by
  unfold ResourceMaps.applySnapshot
  split_ifs
  · rfl
  · exact mapsOf_set_own h maps r uri _

theorem mapsOf_applySnapshot_of_ne {g h : HostId} (hne : g ≠ h) (maps : ResourceMaps J)
    (r : ResourceKind) (uri : URI) (state : SnapshotState) :
    mapsOf h (maps.applySnapshot r (hostedResourceKey g uri) state).2 = mapsOf h maps := by
  unfold ResourceMaps.applySnapshot
  split_ifs
  · rfl
  · exact mapsOf_set_of_ne hne maps r uri _

theorem mapsOf_apply_own (casts : Casts J) (h : HostId) (maps : ResourceMaps J) (r : ResourceKind)
    (uri : URI) (action : StateAction) :
    mapsOf h (maps.apply casts r (hostedResourceKey h uri) action).2 =
      ((mapsOf h maps).apply casts r (hostedResourceKey h uri) action).2 := by
  have hget : (mapsOf h maps r).get? (hostedResourceKey h uri) =
      (maps r).get? (hostedResourceKey h uri) := get?_ofHost h uri (maps r)
  unfold ResourceMaps.apply
  rw [hget]
  cases (maps r).get? (hostedResourceKey h uri) with
  | none => rfl
  | some current =>
    dsimp only
    split_ifs
    · rfl
    · cases reduceResource casts r current action with
      | error => rfl
      | ok next => exact mapsOf_set_own h maps r uri next

theorem mapsOf_apply_of_ne (casts : Casts J) {g h : HostId} (hne : g ≠ h) (maps : ResourceMaps J)
    (r : ResourceKind) (uri : URI) (action : StateAction) :
    mapsOf h (maps.apply casts r (hostedResourceKey g uri) action).2 = mapsOf h maps := by
  unfold ResourceMaps.apply
  cases (maps r).get? (hostedResourceKey g uri) with
  | none => rfl
  | some current =>
    dsimp only
    split_ifs
    · rfl
    · cases reduceResource casts r current action with
      | error => rfl
      | ok next => exact mapsOf_set_of_ne hne maps r uri next

/-! ### The mirror of one host -/

namespace MultiHostStateMirror

/-- The entries of the mirror that are of the host. -/
def only (h : HostId) (m : MultiHostStateMirror J) : MultiHostStateMirror J where
  rootStatesMap := onlyHost h m.rootStatesMap
  maps := mapsOf h m.maps
  automationCatalogsMap := onlyHost h m.automationCatalogsMap
  automationsMap := ofHost h m.automationsMap

/-- `automationsMap` with the automations of the host set one by one. -/
def setAutomations (h : HostId) (entries : List AutomationEntry) (map : Record AutomationEntry) :
    Record AutomationEntry :=
  entries.foldl (fun map a => map.set (hostedResourceKey h a.resource) a) map

theorem ofHost_setAutomations_own (h : HostId) (entries : List AutomationEntry)
    (map : Record AutomationEntry) :
    ofHost h (setAutomations h entries map) = setAutomations h entries (ofHost h map) := by
  unfold setAutomations
  induction entries generalizing map with
  | nil => rfl
  | cons a entries ih => rw [List.foldl_cons, ih, ofHost_set_own, List.foldl_cons]

theorem ofHost_setAutomations_of_ne {g h : HostId} (hne : g ≠ h) (entries : List AutomationEntry)
    (map : Record AutomationEntry) : ofHost h (setAutomations g entries map) = ofHost h map := by
  unfold setAutomations
  induction entries generalizing map with
  | nil => rfl
  | cons a entries ih => rw [List.foldl_cons, ih, ofHost_set_of_ne hne]

/-- `setAutomationCatalog` sets the entries of the state, if it has any, and throws if not. -/
theorem setAutomationCatalog_eq (m : MultiHostStateMirror J) (h : HostId) (state : SnapshotState) :
    (m.setAutomationCatalog h state).2 =
      { m with
        automationCatalogsMap := m.automationCatalogsMap.set h state
        automationsMap :=
          setAutomations h (state.entries?.getD [])
            (deletePrefix m.automationsMap (hostedResourceKeyPrefix h)) } := by
  unfold setAutomationCatalog
  cases state.entries? with
  | none => rfl
  | some entries => rfl

theorem only_setAutomationCatalog_own (m : MultiHostStateMirror J) (h : HostId)
    (state : SnapshotState) :
    (m.setAutomationCatalog h state).2.only h = ((m.only h).setAutomationCatalog h state).2 := by
  rw [setAutomationCatalog_eq, setAutomationCatalog_eq]
  simp only [only, onlyHost_set_own, ofHost_setAutomations_own, ofHost_deletePrefix_comm]

theorem only_setAutomationCatalog_of_ne {g h : HostId} (hne : g ≠ h) (m : MultiHostStateMirror J)
    (state : SnapshotState) : (m.setAutomationCatalog g state).2.only h = m.only h := by
  rw [setAutomationCatalog_eq]
  simp only [only, onlyHost_set_of_ne hne, ofHost_setAutomations_of_ne hne,
    ofHost_deletePrefix_of_ne hne]

theorem only_applySnapshot_own (m : MultiHostStateMirror J) (h : HostId) (snapshot : Snapshot) :
    (m.applySnapshot h snapshot).2.only h = ((m.only h).applySnapshot h snapshot).2 := by
  unfold applySnapshot
  cases route snapshot.resource with
  | none => rfl
  | some dest =>
    cases dest with
    | root => simp only [only, onlyHost_set_own]
    | automations => exact only_setAutomationCatalog_own m h snapshot.state
    | resource r => simp only [only, mapsOf_applySnapshot_own]

theorem only_applySnapshot_of_ne {g h : HostId} (hne : g ≠ h) (m : MultiHostStateMirror J)
    (snapshot : Snapshot) : (m.applySnapshot g snapshot).2.only h = m.only h := by
  unfold applySnapshot
  cases route snapshot.resource with
  | none => rfl
  | some dest =>
    cases dest with
    | root => simp only [only, onlyHost_set_of_ne hne]
    | automations => exact only_setAutomationCatalog_of_ne hne m snapshot.state
    | resource r => simp only [only, mapsOf_applySnapshot_of_ne hne]

theorem only_applyEnvelope_own (casts : Casts J) (m : MultiHostStateMirror J) (h : HostId)
    (envelope : ActionEnvelope) :
    (m.applyEnvelope casts h envelope).2.only h =
      ((m.only h).applyEnvelope casts h envelope).2 := by
  have hroot : (m.only h).rootStatesMap.get? h = m.rootStatesMap.get? h := get?_onlyHost h _
  have hcatalog : (m.only h).automationCatalogsMap.get? h = m.automationCatalogsMap.get? h :=
    get?_onlyHost h _
  unfold applyEnvelope
  cases route envelope.channel with
  | none => rfl
  | some dest =>
    cases dest with
    | root =>
      simp only [hroot]
      cases reduceRoot casts _ envelope.action with
      | error => rfl
      | ok root => simp only [only, onlyHost_set_own]
    | automations =>
      simp only [hcatalog]
      cases m.automationCatalogsMap.get? h with
      | none => rfl
      | some current =>
        dsimp only
        cases reduceCatalog current envelope.action with
        | error => rfl
        | ok state => exact only_setAutomationCatalog_own m h state
    | resource r => simp only [only, mapsOf_apply_own]

theorem only_applyEnvelope_of_ne (casts : Casts J) {g h : HostId} (hne : g ≠ h)
    (m : MultiHostStateMirror J) (envelope : ActionEnvelope) :
    (m.applyEnvelope casts g envelope).2.only h = m.only h := by
  unfold applyEnvelope
  cases route envelope.channel with
  | none => rfl
  | some dest =>
    cases dest with
    | root =>
      dsimp only
      cases reduceRoot casts _ envelope.action with
      | error => rfl
      | ok root => simp only [only, onlyHost_set_of_ne hne]
    | automations =>
      dsimp only
      cases m.automationCatalogsMap.get? g with
      | none => rfl
      | some current =>
        dsimp only
        cases reduceCatalog current envelope.action with
        | error => rfl
        | ok state => exact only_setAutomationCatalog_of_ne hne m state
    | resource r => simp only [only, mapsOf_apply_of_ne casts hne]

theorem only_resetHost_comm (m : MultiHostStateMirror J) (g h : HostId) :
    (m.resetHost g).only h = (m.only h).resetHost g := by
  simp only [only, resetHost, onlyHost_delete_comm, ofHost_deletePrefix_comm]
  congr 1
  funext r
  exact ofHost_deletePrefix_comm g h (m.maps r)

theorem only_resetHost_of_ne {g h : HostId} (hne : g ≠ h) (m : MultiHostStateMirror J) :
    (m.resetHost g).only h = m.only h := by
  simp only [only, resetHost, onlyHost_delete_of_ne hne, ofHost_deletePrefix_of_ne hne]
  congr 1
  funext r
  exact ofHost_deletePrefix_of_ne hne (m.maps r)

theorem only_resetHost_own (m : MultiHostStateMirror J) (h : HostId) :
    (m.resetHost h).only h = new := by
  simp only [only, resetHost, onlyHost_delete_own, ofHost_deletePrefix_own, new]
  congr 1
  funext r
  exact ofHost_deletePrefix_own h (m.maps r)

/-! ### Calls -/

/-- Whether a call is for the host. A reset is for every host. -/
def Input.concerns (h : HostId) : Input → Bool
  | .snapshot g _ | .envelope g _ | .resetHost g => g = h
  | .event e => e.hostId = h
  | .reset => true

/-- A call for the host does to its entries what it does to a mirror that has no others. -/
theorem only_step_own (casts : Casts J) (h : HostId) (m : MultiHostStateMirror J) (i : Input)
    (hi : i.concerns h) : (m.step casts i).only h = (m.only h).step casts i := by
  cases i with
  | snapshot g s =>
    obtain rfl := of_decide_eq_true hi
    exact only_applySnapshot_own m g s
  | envelope g e =>
    obtain rfl := of_decide_eq_true hi
    exact only_applyEnvelope_own casts m g e
  | event e =>
    obtain ⟨hostId, event⟩ := e
    obtain rfl := of_decide_eq_true hi
    cases event with
    | action params => exact only_applyEnvelope_own casts m hostId params
    | _ => rfl
  | resetHost g => exact only_resetHost_comm m g h
  | reset => rfl

/-- Any other call does nothing to its entries. -/
theorem only_step_other (casts : Casts J) (h : HostId) (m : MultiHostStateMirror J) (i : Input)
    (hi : i.concerns h = false) : (m.step casts i).only h = m.only h := by
  cases i with
  | snapshot g s => exact only_applySnapshot_of_ne (of_decide_eq_false hi) m s
  | envelope g e => exact only_applyEnvelope_of_ne casts (of_decide_eq_false hi) m e
  | event e =>
    obtain ⟨hostId, event⟩ := e
    cases event with
    | action params => exact only_applyEnvelope_of_ne casts (of_decide_eq_false hi) m params
    | _ => rfl
  | resetHost g => exact only_resetHost_of_ne (of_decide_eq_false hi) m
  | reset => cases hi

/-- **One host**: its entries after a run are those of the run of its calls alone. -/
theorem only_run (casts : Casts J) (h : HostId) (inputs : List Input) :
    (run casts inputs).only h = run casts (inputs.filter (Input.concerns h)) :=
  foldl_filter_of_view (only h) (Input.concerns h) (only_step_other casts h) (only_step_own casts h)
    new inputs

/-! ### What the getters return -/

/-- The getters return the same for the host, and so do the maps. -/
structure SameFor (h : HostId) (m m' : MultiHostStateMirror J) : Prop where
  root : m.getRoot h = m'.getRoot h
  resource : ∀ r uri, m.getResource r h uri = m'.getResource r h uri
  automation : ∀ uri, m.getAutomation h uri = m'.getAutomation h uri
  catalog : m.automationCatalogsMap.get? h = m'.automationCatalogsMap.get? h
  maps : m.only h = m'.only h

/-- What the maps hold for a host decides what the getters return for it. -/
theorem sameFor_of_only {h : HostId} {m m' : MultiHostStateMirror J} (heq : m.only h = m'.only h) :
    SameFor h m m' where
  root := by
    have hroot := congrArg (fun m => m.rootStatesMap.get? h) heq
    simpa only [getRoot, only, get?_onlyHost] using hroot
  resource r uri := by
    have hget := congrArg (fun m => (m.maps r).get? (hostedResourceKey h uri)) heq
    simpa only [getResource, only, mapsOf, get?_ofHost] using hget
  automation uri := by
    have hget := congrArg (fun m => m.automationsMap.get? (hostedResourceKey h uri)) heq
    simpa only [getAutomation, only, get?_ofHost] using hget
  catalog := by
    have hcatalog := congrArg (fun m => m.automationCatalogsMap.get? h) heq
    simpa only [only, get?_onlyHost] using hcatalog
  maps := heq

theorem only_only (h : HostId) (m : MultiHostStateMirror J) : (m.only h).only h = m.only h := by
  have hmaps (r : ResourceKind) : ofHost h (ofHost h (m.maps r)) = ofHost h (m.maps r) :=
    Record.restrict_restrict_of_imp (fun _ hk => hk) _
  simp only [only, onlyHost, ofHost, Record.restrict_restrict, Bool.and_self]
  congr 1
  funext r
  exact hmaps r

/-! ### The automations of a host -/

/-- The automations kept for each host are those of its catalogue, the last of one name. -/
def AutomationsMatch (m : MultiHostStateMirror J) : Prop :=
  ∀ h uri, m.getAutomation h uri =
    (m.automationCatalogsMap.get? h).bind fun catalog =>
      (catalog.entries?.getD []).reverse.find? fun a => a.resource = uri

theorem get?_setAutomations (h g : HostId) (uri : URI) (entries : List AutomationEntry)
    (map : Record AutomationEntry) :
    (setAutomations h entries map).get? (hostedResourceKey g uri) =
      if g = h then
        (entries.reverse.find? fun a => a.resource = uri).or (map.get? (hostedResourceKey g uri))
      else map.get? (hostedResourceKey g uri) := by
  have hwrite : ∀ (map : Record AutomationEntry) (a : AutomationEntry),
      (map.set (hostedResourceKey h a.resource) a).get? (hostedResourceKey g uri) =
        if decide (g = h ∧ a.resource = uri) then some a else map.get? (hostedResourceKey g uri) := by
    intro map a
    have hkey : hostedResourceKey g uri = hostedResourceKey h a.resource ↔ g = h ∧ a.resource = uri := by
      rw [hostedResourceKey_inj, @eq_comm _ uri]
    simp only [Record.get?_set, hkey, decide_eq_true_eq]
  unfold setAutomations
  rw [foldl_writes (fun map : Record AutomationEntry => map.get? (hostedResourceKey g uri)) hwrite]
  by_cases hg : g = h
  · simp [hg]
  · have hnone : (entries.reverse.find? fun a => g = h ∧ a.resource = uri) = none := by
      rw [List.find?_eq_none]
      simp [hg]
    rw [hnone, if_neg hg]
    rfl

theorem get?_deletePrefix {V : Type} (map : Record V) (h g : HostId) (uri : URI) :
    (deletePrefix map (hostedResourceKeyPrefix h)).get? (hostedResourceKey g uri) =
      if g = h then none else map.get? (hostedResourceKey g uri) := by
  unfold deletePrefix
  rw [Record.get?_restrict]
  by_cases hg : g = h
  · have hstarts : startsWith (hostedResourceKey g uri) (hostedResourceKeyPrefix h) = true :=
      startsWith_prefix_iff.mpr hg
    rw [hstarts, if_pos hg]
    rfl
  · have hstarts := isOf_of_ne hg uri
    unfold isOf at hstarts
    rw [hstarts, if_neg hg]
    rfl

theorem AutomationsMatch.setAutomationCatalog {m : MultiHostStateMirror J}
    (hm : AutomationsMatch m) (h : HostId) (state : SnapshotState) :
    AutomationsMatch (m.setAutomationCatalog h state).2 := by
  intro g uri
  rw [setAutomationCatalog_eq]
  simp only [getAutomation, get?_setAutomations, get?_deletePrefix, Record.get?_set]
  by_cases hg : g = h
  · simp [hg]
  · simp only [if_neg hg]
    exact hm g uri

theorem AutomationsMatch.step {m : MultiHostStateMirror J} (hm : AutomationsMatch m)
    (casts : Casts J) (i : Input) : AutomationsMatch (m.step casts i) := by
  have henvelope (h : HostId) (e : ActionEnvelope) :
      AutomationsMatch (m.applyEnvelope casts h e).2 := by
    unfold applyEnvelope
    cases route e.channel with
    | none => exact hm
    | some dest =>
      cases dest with
      | root =>
        dsimp only
        cases reduceRoot casts _ e.action with
        | error => exact hm
        | ok => exact hm
      | automations =>
        dsimp only
        cases m.automationCatalogsMap.get? h with
        | none => exact hm
        | some current =>
          dsimp only
          cases reduceCatalog current e.action with
          | error => exact hm
          | ok state => exact hm.setAutomationCatalog h state
      | resource r => exact hm
  cases i with
  | snapshot h s =>
    simp only [MultiHostStateMirror.step, applySnapshot]
    cases route s.resource with
    | none => exact hm
    | some dest =>
      cases dest with
      | automations => exact hm.setAutomationCatalog h s.state
      | _ => exact hm
  | envelope h e => exact henvelope h e
  | event e =>
    obtain ⟨hostId, event⟩ := e
    cases event with
    | action params => exact henvelope hostId params
    | _ => exact hm
  | resetHost h =>
    intro g uri
    have hg' := hm g uri
    simp only [getAutomation] at hg'
    simp only [MultiHostStateMirror.step, resetHost, getAutomation, get?_deletePrefix,
      Record.get?_delete]
    by_cases hg : g = h
    · simp [hg]
    · simp only [if_neg hg]
      exact hg'
  | reset => exact fun _ _ => rfl

theorem automationsMatch_run (casts : Casts J) (inputs : List Input) :
    AutomationsMatch (run casts inputs) := by
  induction inputs using List.reverseRecOn with
  | nil => exact fun _ _ => rfl
  | append_singleton inputs i ih =>
    unfold run
    rw [List.foldl_append]
    exact ih.step casts i

/-! ### Every key is the key of a host -/

/-- The keys of the map are keys of hosts. -/
def KeysHosted {V : Type} (map : Record V) : Prop :=
  ∀ key v, map.get? key = some v → ∃ h uri, key = hostedResourceKey h uri

theorem keysHosted_empty {V : Type} : KeysHosted (Record.empty : Record V) := fun _ _ h => by cases h

theorem KeysHosted.set {V : Type} {map : Record V} (hm : KeysHosted map) (h : HostId) (uri : URI)
    (v : V) : KeysHosted (map.set (hostedResourceKey h uri) v) := by
  intro key v' hkey
  rw [Record.get?_set] at hkey
  split_ifs at hkey with heq
  · exact ⟨h, uri, heq⟩
  · exact hm key v' hkey

theorem KeysHosted.deletePrefix {V : Type} {map : Record V} (hm : KeysHosted map)
    (keyPrefix : String) : KeysHosted (deletePrefix map keyPrefix) := by
  intro key v hkey
  unfold Hosts.deletePrefix at hkey
  rw [Record.get?_restrict] at hkey
  split_ifs at hkey
  exact hm key v hkey

theorem KeysHosted.setAutomations {map : Record AutomationEntry} (hm : KeysHosted map) (h : HostId)
    (entries : List AutomationEntry) : KeysHosted (setAutomations h entries map) := by
  unfold MultiHostStateMirror.setAutomations
  induction entries generalizing map with
  | nil => exact hm
  | cons a entries ih => exact ih (hm.set h a.resource a)

/-- The keys of the maps of resources and of automations are keys of hosts. -/
structure Hosted (m : MultiHostStateMirror J) : Prop where
  maps : ∀ r, KeysHosted (m.maps r)
  automations : KeysHosted m.automationsMap

theorem keysHosted_mapsSet {maps : ResourceMaps J} (hm : ∀ r, KeysHosted (maps r))
    (r : ResourceKind) (h : HostId) (uri : URI) (v : Stored J) (r' : ResourceKind) :
    KeysHosted (maps.set r (hostedResourceKey h uri) v r') := by
  unfold ResourceMaps.set
  split_ifs
  · exact (hm r').set h uri v
  · exact hm r'

theorem Hosted.setAutomationCatalog {m : MultiHostStateMirror J} (hm : Hosted m) (h : HostId)
    (state : SnapshotState) : Hosted (m.setAutomationCatalog h state).2 := by
  rw [setAutomationCatalog_eq]
  exact ⟨hm.maps, (hm.automations.deletePrefix _).setAutomations h _⟩

theorem Hosted.applySnapshot {m : MultiHostStateMirror J} (hm : Hosted m) (h : HostId)
    (snapshot : Snapshot) : Hosted (m.applySnapshot h snapshot).2 := by
  unfold MultiHostStateMirror.applySnapshot
  cases route snapshot.resource with
  | none => exact hm
  | some dest =>
    cases dest with
    | root => exact ⟨hm.maps, hm.automations⟩
    | automations => exact hm.setAutomationCatalog h snapshot.state
    | resource r =>
      refine ⟨fun r' => ?_, hm.automations⟩
      simp only [ResourceMaps.applySnapshot]
      split_ifs
      · exact hm.maps r'
      · exact keysHosted_mapsSet hm.maps r h snapshot.resource _ r'

theorem Hosted.applyEnvelope (casts : Casts J) {m : MultiHostStateMirror J} (hm : Hosted m)
    (h : HostId) (envelope : ActionEnvelope) : Hosted (m.applyEnvelope casts h envelope).2 := by
  unfold MultiHostStateMirror.applyEnvelope
  cases route envelope.channel with
  | none => exact hm
  | some dest =>
    cases dest with
    | root =>
      dsimp only
      cases reduceRoot casts _ envelope.action with
      | error => exact hm
      | ok => exact ⟨hm.maps, hm.automations⟩
    | automations =>
      dsimp only
      cases m.automationCatalogsMap.get? h with
      | none => exact hm
      | some current =>
        dsimp only
        cases reduceCatalog current envelope.action with
        | error => exact hm
        | ok state => exact hm.setAutomationCatalog h state
    | resource r =>
      refine ⟨fun r' => ?_, hm.automations⟩
      simp only [ResourceMaps.apply]
      cases (m.maps r).get? (hostedResourceKey h envelope.channel) with
      | none => exact hm.maps r'
      | some current =>
        dsimp only
        split_ifs
        · exact hm.maps r'
        · cases reduceResource casts r current envelope.action with
          | error => exact hm.maps r'
          | ok next => exact keysHosted_mapsSet hm.maps r h envelope.channel next r'

theorem Hosted.step (casts : Casts J) {m : MultiHostStateMirror J} (hm : Hosted m) (i : Input) :
    Hosted (m.step casts i) := by
  cases i with
  | snapshot h s => exact hm.applySnapshot h s
  | envelope h e => exact hm.applyEnvelope casts h e
  | event e =>
    obtain ⟨hostId, event⟩ := e
    cases event with
    | action params => exact hm.applyEnvelope casts hostId params
    | _ => exact hm
  | resetHost h => exact ⟨fun r => (hm.maps r).deletePrefix _, hm.automations.deletePrefix _⟩
  | reset => exact ⟨fun _ => keysHosted_empty, keysHosted_empty⟩

theorem hosted_run (casts : Casts J) (inputs : List Input) : Hosted (run casts inputs) := by
  induction inputs using List.reverseRecOn with
  | nil => exact ⟨fun _ => keysHosted_empty, keysHosted_empty⟩
  | append_singleton inputs i ih =>
    unfold run
    rw [List.foldl_append]
    exact ih.step casts i

/-! ### Whole runs -/

/-- **Hosts do not see each other**: after every list of calls the mirror is for each host what
the calls for that host alone make it, a reset of the host would empty it for that host and leave
it as it is for the others, and the automations of every host match its catalogue. -/
theorem hosts_isolated (casts : Casts J) (inputs : List Input) :
    (∀ h, SameFor h (run casts inputs) (run casts (inputs.filter (Input.concerns h))) ∧
      (run casts inputs).only h = run casts (inputs.filter (Input.concerns h))) ∧
    (∀ h, ((run casts inputs).resetHost h).only h = new ∧
      ∀ g, g ≠ h → SameFor g ((run casts inputs).resetHost h) (run casts inputs)) ∧
    AutomationsMatch (run casts inputs) ∧ Hosted (run casts inputs) := by
  refine ⟨fun h => ?_, fun h => ⟨only_resetHost_own _ h, fun g hg => ?_⟩,
    automationsMatch_run casts inputs, hosted_run casts inputs⟩
  · have honly := only_run casts h inputs
    refine ⟨sameFor_of_only ?_, honly⟩
    rw [← honly, only_only]
  · exact sameFor_of_only (only_resetHost_of_ne hg.symm _)

end MultiHostStateMirror

end AgentHostProtocol.Hosts
