import AgentHostProtocol.Hosts.Isolation
import Mathlib.Data.List.Induction

/-!
# The maps of the mirrors and the kinds of their values

**What is proved** of `AhpStateMirror` and `MultiHostStateMirror`:
* every value of every map is a state of the kind of the map, delivered by a snapshot of its
  channel and advanced by the reducer of the kind, after every call of a run, exactly if every
  snapshot of the run carries a state of the kind that its URI leads to; canvases are checked and
  need no such condition (`maps_hold_own_kinds`);
* among the snapshots of the channels of the protocol those of annotations are the only ones that
  do not: their URIs start as those of sessions do (`fits_iff_of_onChannel`,
  `annotations_as_session`).
-/

namespace AgentHostProtocol.Client

open Library Channels

variable {J : Type}

/-- The state that a snapshot carries is of the kind of the map it is routed to, unless that is
the map of canvases. -/
def Snapshot.Fits (s : Snapshot) : Prop :=
  ∀ r, route s.resource = some (.resource r) → r ≠ .canvas → (s.state.as? r).isSome

/-! ### The channels of the protocol -/

/-- The resource is a channel of the protocol for the state: a URI names the kind of its channel,
and the channel of the annotations of a session is named after the session. A channel without
state is one of telemetry. -/
def Snapshot.OnChannel (s : Snapshot) : Prop :=
  match s.state with
  | .root _ => s.resource = rootUri
  | .session _ | .annotations _ => startsWith s.resource "ahp-session:"
  | .terminal _ => startsWith s.resource "ahp-terminal:"
  | .changeset _ => startsWith s.resource "ahp-changeset:"
  | .resourceWatch _ => startsWith s.resource "ahp-resource-watch:"
  | .chat _ => startsWith s.resource "ahp-chat:"
  | .canvas _ => startsWith s.resource "ahp-canvas:"
  | .automations _ => s.resource = automationsUri
  | .automationRun _ => startsWith s.resource "ahp-automation-run:"
  | .empty => startsWith s.resource "ahp-otlp:"

/-- Of two words that start a text one starts the other. -/
theorem startsWith_or_startsWith {s p q : String} (hp : startsWith s p) (hq : startsWith s q) :
    startsWith p q ∨ startsWith q p := by
  have hp' := List.isPrefixOf_iff_prefix.mp hp
  have hq' := List.isPrefixOf_iff_prefix.mp hq
  rcases List.prefix_or_prefix_of_prefix hp' hq' with h | h
  · exact .inr (List.isPrefixOf_iff_prefix.mpr h)
  · exact .inl (List.isPrefixOf_iff_prefix.mpr h)

theorem startsWith_trans {s p q : String} (hp : startsWith s p) (hq : startsWith p q) :
    startsWith s q :=
  List.isPrefixOf_iff_prefix.mpr
    ((List.isPrefixOf_iff_prefix.mp hq).trans (List.isPrefixOf_iff_prefix.mp hp))

theorem startsWith_self (s : String) : startsWith s s :=
  List.isPrefixOf_iff_prefix.mpr List.prefix_rfl

/-- The prefixes that `route` looks for. -/
def schemes : List String :=
  ["ahp-session:", "ahp-canvas:", "ahp-terminal:", "ahp-changeset:", "ahp-automation-run:"]

/-- A URI leads where its scheme leads: no test of `route` tells them apart. -/
theorem route_of_scheme {uri p : String} (h : startsWith uri p)
    (hlonger : ∀ t ∈ rootUri :: automationsUri :: schemes, startsWith t p → t = p)
    (hroot : p ≠ rootUri) (hautomations : p ≠ automationsUri) : route uri = route p := by
  have htest (t : String) (ht : t ∈ schemes) : startsWith uri t = startsWith p t := by
    rw [Bool.eq_iff_iff]
    constructor
    · intro huri
      rcases startsWith_or_startsWith h huri with hp | hp
      · exact hp
      · obtain rfl := hlonger t (by simp [ht]) hp
        exact startsWith_self t
    · exact startsWith_trans h
  have hne (name : String) (hname : name ∈ rootUri :: automationsUri :: schemes) (hp : p ≠ name) :
      uri ≠ name := by
    rintro rfl
    exact hp (hlonger _ hname h).symm
  unfold route
  rw [if_neg (hne rootUri (by simp) hroot), if_neg hroot,
    if_neg (hne automationsUri (by simp) hautomations), if_neg hautomations,
    htest "ahp-session:" (by simp [schemes]), htest "ahp-canvas:" (by simp [schemes]),
    htest "ahp-terminal:" (by simp [schemes]), htest "ahp-changeset:" (by simp [schemes]),
    htest "ahp-automation-run:" (by simp [schemes])]

/-- **The snapshots that do not fit**: of the channels of the protocol, those of annotations. -/
theorem fits_iff_of_onChannel {s : Snapshot} (h : s.OnChannel) :
    s.Fits ↔ ∀ a, s.state ≠ .annotations a := by
  obtain ⟨resource, state⟩ := s
  have hother {p : String} (hr : route resource = route p) (hp : route p = none) :
      Snapshot.Fits ⟨resource, state⟩ := by
    intro r hroute
    rw [hr, hp] at hroute
    cases hroute
  have hnamed {name : URI} {dest : Route} (hr : resource = name) (hname : route name = some dest)
      (hdest : ∀ r, dest ≠ .resource r) : Snapshot.Fits ⟨resource, state⟩ := by
    intro r hroute
    rw [hr, hname] at hroute
    exact absurd (Option.some.inj hroute) (hdest r)
  have hown {p : String} {r : ResourceKind} (hr : route resource = route p)
      (hp : route p = some (.resource r)) (hstate : (state.as? r).isSome) :
      Snapshot.Fits ⟨resource, state⟩ := by
    intro r' hroute _
    rw [hr, hp] at hroute
    cases hroute
    exact hstate
  cases state with
  | annotations a =>
    have hr : route resource = some (.resource .session) :=
      route_of_scheme h (by decide) (by decide) (by decide)
    refine iff_of_false (fun hfits => ?_) fun hne => hne a rfl
    cases hfits .session hr (by decide)
  | root => exact iff_of_true (hnamed h rfl nofun) nofun
  | automations =>
    have hautomations : route automationsUri = some .automations := by decide
    exact iff_of_true (hnamed h hautomations nofun) nofun
  | session =>
    exact iff_of_true (hown (route_of_scheme h (by decide) (by decide) (by decide)) rfl rfl) nofun
  | terminal =>
    exact iff_of_true (hown (route_of_scheme h (by decide) (by decide) (by decide)) rfl rfl) nofun
  | changeset =>
    exact iff_of_true (hown (route_of_scheme h (by decide) (by decide) (by decide)) rfl rfl) nofun
  | canvas =>
    exact iff_of_true (hown (route_of_scheme h (by decide) (by decide) (by decide)) rfl rfl) nofun
  | automationRun =>
    exact iff_of_true (hown (route_of_scheme h (by decide) (by decide) (by decide)) rfl rfl) nofun
  | resourceWatch =>
    exact iff_of_true (hother (route_of_scheme h (by decide) (by decide) (by decide)) rfl) nofun
  | chat =>
    exact iff_of_true (hother (route_of_scheme h (by decide) (by decide) (by decide)) rfl) nofun
  | empty =>
    exact iff_of_true (hother (route_of_scheme h (by decide) (by decide) (by decide)) rfl) nofun

/-! ### What a call does to the maps -/

/-- What a call asks of the maps. -/
inductive MapsCall where
  | snapshot (r : ResourceKind) (key : String) (state : SnapshotState)
  | envelope (r : ResourceKind) (key : String) (action : StateAction)
  | delete (keyPrefix : String)
  | clear
  | other

namespace MapsCall

/-- The maps after a call. -/
def apply (casts : Casts J) (maps : ResourceMaps J) : MapsCall → ResourceMaps J
  | .snapshot r key state => (maps.applySnapshot r key state).2
  | .envelope r key action => (maps.apply casts r key action).2
  | .delete keyPrefix => fun r => Hosts.deletePrefix (maps r) keyPrefix
  | .clear => ResourceMaps.new
  | .other => maps

/-- What a call says of one resource. -/
def effect (r : ResourceKind) (key : String) : MapsCall → Effect r.State StateAction
  | .snapshot r' key' state =>
    if r = r' ∧ key = key' then
      match state.as? r with
      | some seed => .put seed
      | none => .keep
    else .keep
  | .envelope r' key' action => if r = r' ∧ key = key' then .advance action else .keep
  | .delete keyPrefix => if startsWith key keyPrefix then .drop else .keep
  | .clear => .drop
  | .other => .keep

/-- A snapshot carries a state of the kind of its map. -/
def Fits : MapsCall → Prop
  | .snapshot r _ state => r ≠ .canvas → (state.as? r).isSome
  | _ => True

end MapsCall

/-- A state of a kind, as a map holds it. -/
def ResourceKind.stored (r : ResourceKind) (s : r.State) : Stored J := .state (r.toSnapshotState s)

theorem toSnapshotState_of_as? {r : ResourceKind} {state : SnapshotState} {s : r.State}
    (h : state.as? r = some s) : r.toSnapshotState s = state := by
  cases r <;> cases state <;> cases h <;> rfl

theorem as?_toSnapshotState (r : ResourceKind) (s : r.State) :
    (r.toSnapshotState s).as? r = some s := by
  cases r <;> rfl

theorem isCanvasState_iff (state : SnapshotState) :
    isCanvasState state = (state.as? .canvas).isSome := by
  cases state <;> rfl

namespace ResourceMaps

theorem get?_set (maps : ResourceMaps J) (r r' : ResourceKind) (key key' : String) (v : Stored J) :
    (maps.set r key v r').get? key' =
      if r' = r ∧ key' = key then some v else (maps r').get? key' := by
  unfold ResourceMaps.set
  by_cases hr : r' = r
  · subst hr
    simp only [if_true, Record.get?_set, true_and]
  · simp only [hr, false_and, if_false]

/-- A snapshot that is not refused is what the map holds at its key. -/
theorem get?_applySnapshot (maps : ResourceMaps J) {r : ResourceKind} {state : SnapshotState}
    (h : r = .canvas → isCanvasState state) (r' : ResourceKind) (key key' : String) :
    ((maps.applySnapshot r key state).2 r').get? key' =
      if r' = r ∧ key' = key then some (.state state) else (maps r').get? key' := by
  have hok : ¬ (r = .canvas ∧ ¬ isCanvasState state) := fun hr => hr.2 (h hr.1)
  unfold ResourceMaps.applySnapshot
  rw [if_neg hok]
  exact get?_set maps r r' key key' (.state state)

/-- A snapshot changes nothing but at its key. -/
theorem get?_applySnapshot_of_ne (maps : ResourceMaps J) {r r' : ResourceKind} {key key' : String}
    (hne : ¬ (r' = r ∧ key' = key)) (state : SnapshotState) :
    ((maps.applySnapshot r key state).2 r').get? key' = (maps r').get? key' := by
  unfold ResourceMaps.applySnapshot
  split_ifs
  · rfl
  · exact (get?_set maps r r' key key' _).trans (if_neg hne)

/-- An envelope changes nothing but at its key. -/
theorem get?_apply_of_ne (casts : Casts J) (maps : ResourceMaps J) {r r' : ResourceKind}
    {key key' : String} (hne : ¬ (r' = r ∧ key' = key)) (action : StateAction) :
    ((maps.apply casts r key action).2 r').get? key' = (maps r').get? key' := by
  unfold ResourceMaps.apply
  cases (maps r).get? key with
  | none => rfl
  | some current =>
    dsimp only
    split_ifs
    · rfl
    · cases reduceResource casts r current action with
      | error => rfl
      | ok next => exact (get?_set maps r r' key key' next).trans (if_neg hne)

end ResourceMaps

/-- A canvas is changed only by `canvas/stateChanged`. -/
theorem reduce_canvas_of_not {a : StateAction} (h : ¬ ResourceMaps.isCanvasStateChanged a)
    (s : CanvasState) : ResourceKind.canvas.reduce s a = s := by
  cases a with
  | canvas a =>
    cases a
    exact absurd rfl h
  | _ => rfl

namespace ResourceMaps

/-- A state of the kind is advanced by the reducer of the kind. -/
theorem get?_apply_own (casts : Casts J) {maps : ResourceMaps J} {r : ResourceKind} {key : String}
    {s : r.State} (hs : (maps r).get? key = some (r.stored s)) (action : StateAction) :
    ((maps.apply casts r key action).2 r).get? key = some (r.stored (r.reduce s action)) := by
  have hreduce : reduceResource casts r (r.stored s) action =
      .ok (r.stored (r.reduce s action)) := by
    simp only [reduceResource, ResourceKind.stored, as?_toSnapshotState]
  unfold ResourceMaps.apply
  rw [hs]
  dsimp only
  split_ifs with hcanvas
  · obtain ⟨rfl, hnot⟩ := hcanvas
    rw [reduce_canvas_of_not hnot, hs]
  · rw [hreduce]
    exact (get?_set maps r r key key _).trans (if_pos ⟨rfl, rfl⟩)

theorem get?_apply_none (casts : Casts J) {maps : ResourceMaps J} {r : ResourceKind} {key : String}
    (hs : (maps r).get? key = none) (action : StateAction) :
    ((maps.apply casts r key action).2 r).get? key = none := by
  unfold ResourceMaps.apply
  rw [hs]
  exact hs

end ResourceMaps

/-- **One call**: a call that fits does to each resource what its effect says. -/
theorem get?_call {call : MapsCall} (hfits : call.Fits) (casts : Casts J) {maps : ResourceMaps J}
    {r : ResourceKind} {key : String} {o : Option r.State}
    (ho : (maps r).get? key = o.map r.stored) :
    (call.apply casts maps r).get? key = ((call.effect r key).apply r.reduce o).map r.stored := by
  cases call with
  | snapshot r' key' state =>
    by_cases hkey : r = r' ∧ key = key'
    · obtain ⟨rfl, rfl⟩ := hkey
      cases hstate : state.as? r with
      | some seed =>
        have hcanvas : r = .canvas → isCanvasState state := by
          rintro rfl
          rw [isCanvasState_iff, hstate]
          rfl
        simp only [MapsCall.effect, and_self, if_true, hstate, MapsCall.apply]
        rw [ResourceMaps.get?_applySnapshot maps hcanvas, if_pos ⟨rfl, rfl⟩,
          ← toSnapshotState_of_as? hstate]
        rfl
      | none =>
        -- refused: only a canvas need not be of its kind
        have hcanvas : r = .canvas := by
          by_contra hne
          have hsome := hfits hne
          rw [hstate] at hsome
          cases hsome
        subst hcanvas
        have hnot : isCanvasState state = false := by rw [isCanvasState_iff, hstate]; rfl
        simp only [MapsCall.effect, and_self, if_true, hstate, MapsCall.apply,
          ResourceMaps.applySnapshot, hnot]
        exact ho
    · simp only [MapsCall.effect, if_neg hkey, MapsCall.apply]
      exact (ResourceMaps.get?_applySnapshot_of_ne maps hkey state).trans ho
  | envelope r' key' action =>
    by_cases hkey : r = r' ∧ key = key'
    · obtain ⟨rfl, rfl⟩ := hkey
      simp only [MapsCall.effect, and_self, if_true, MapsCall.apply]
      cases o with
      | none => exact ResourceMaps.get?_apply_none casts ho action
      | some s => exact ResourceMaps.get?_apply_own casts ho action
    · simp only [MapsCall.effect, if_neg hkey, MapsCall.apply]
      exact (ResourceMaps.get?_apply_of_ne casts maps hkey action).trans ho
  | delete keyPrefix =>
    simp only [MapsCall.effect, MapsCall.apply, Hosts.deletePrefix, Record.get?_restrict]
    by_cases hkey : startsWith key keyPrefix
    · simp only [hkey, if_true]
      rfl
    · simp only [hkey]
      exact ho
  | clear => rfl
  | other => exact ho

/-- **A run**: when all calls fit, every map is a register for each of its resources. -/
theorem get?_calls {ι : Type} (casts : Casts J) (call : ι → MapsCall) {inputs : List ι}
    (hfits : ∀ i ∈ inputs, (call i).Fits) (r : ResourceKind) (key : String) :
    (inputs.foldl (fun maps i => (call i).apply casts maps) ResourceMaps.new r).get? key =
      (register r.reduce (fun i => (call i).effect r key) inputs).map r.stored := by
  induction inputs using List.reverseRecOn with
  | nil => rfl
  | append_singleton inputs i ih =>
    have hinputs := ih fun j hj => hfits j (List.mem_append_left _ hj)
    have hi : (call i).Fits := hfits i (by simp)
    rw [List.foldl_append, register_concat]
    exact get?_call hi casts hinputs

/-- A snapshot that does not fit leaves a state of another kind in the map. -/
theorem get?_call_of_not_fits {call : MapsCall} (h : ¬ call.Fits) (casts : Casts J)
    (maps : ResourceMaps J) :
    ∃ r key state, call = .snapshot r key state ∧ state.as? r = none ∧
      (call.apply casts maps r).get? key = some (.state state) := by
  cases call with
  | snapshot r key state =>
    simp only [MapsCall.Fits, not_forall] at h
    obtain ⟨hcanvas, hnone⟩ := h
    refine ⟨r, key, state, rfl, by simpa using hnone, ?_⟩
    exact (ResourceMaps.get?_applySnapshot maps (fun hr => absurd hr hcanvas) r key key).trans
      (if_pos ⟨rfl, rfl⟩)
  | _ => exact absurd trivial h

/-- When all calls fit, every value was delivered by a snapshot and advanced since. -/
theorem delivered_of_fits {ι : Type} (casts : Casts J) (call : ι → MapsCall) {inputs : List ι}
    (hfits : ∀ i ∈ inputs, (call i).Fits) {r : ResourceKind} {key : String} {v : Stored J}
    (hv : (inputs.foldl (fun maps i => (call i).apply casts maps) ResourceMaps.new r).get? key =
      some v) :
    ∃ before i after seed, inputs = before ++ i :: after ∧ (call i).effect r key = .put seed ∧
      (∀ j ∈ after, ((call j).effect r key).Quiet) ∧
      v = r.stored ((actionsOf (fun i => (call i).effect r key) after).foldl r.reduce seed) := by
  rw [get?_calls casts call hfits] at hv
  obtain ⟨s, hs, rfl⟩ := Option.map_eq_some_iff.mp hv
  obtain ⟨before, i, after, seed, hinputs, hi, hquiet, rfl⟩ := seed_of_register hs
  exact ⟨before, i, after, seed, hinputs, hi, hquiet, rfl⟩

/-- When all values are of the kinds of their maps, all calls fit. -/
theorem fits_of_stored {ι : Type} (casts : Casts J) (call : ι → MapsCall) {inputs : List ι}
    (h : ∀ done, done <+: inputs → ∀ (r : ResourceKind) (key : String) (v : Stored J),
      (done.foldl (fun maps i => (call i).apply casts maps) ResourceMaps.new r).get? key = some v →
        ∃ s, v = r.stored s) :
    ∀ i ∈ inputs, (call i).Fits := by
  intro i hi
  by_contra hnot
  obtain ⟨before, after, rfl⟩ := List.append_of_mem hi
  obtain ⟨r, key, state, -, hnone, hget⟩ := get?_call_of_not_fits hnot casts
    (before.foldl (fun maps i => (call i).apply casts maps) ResourceMaps.new)
  have hdone : before ++ [i] <+: before ++ i :: after := ⟨after, by simp⟩
  obtain ⟨s, hs⟩ := h _ hdone r key (.state state) (by rw [List.foldl_append]; exact hget)
  have hstate : state = r.toSnapshotState s := by
    injection hs
  rw [hstate, as?_toSnapshotState] at hnone
  cases hnone

/-! ### The mirror of one host -/

namespace AhpStateMirror

/-- What a call asks of the maps. -/
def Input.mapsCall : Input → MapsCall
  | .snapshot s =>
    match route s.resource with
    | some (.resource r) => .snapshot r s.resource s.state
    | _ => .other
  | .envelope e =>
    match route e.channel with
    | some (.resource r) => .envelope r e.channel e.action
    | _ => .other

theorem maps_step (casts : Casts J) (m : AhpStateMirror J) (i : Input) :
    (m.step casts i).maps = i.mapsCall.apply casts m.maps := by
  have hcatalog (state : SnapshotState) : (m.setAutomationCatalog state).2.maps = m.maps := by
    unfold setAutomationCatalog
    cases state.entries? <;> rfl
  cases i with
  | snapshot s =>
    simp only [step, applySnapshot, Input.mapsCall]
    cases route s.resource with
    | none => rfl
    | some dest =>
      cases dest with
      | root => rfl
      | automations => exact hcatalog s.state
      | resource r => rfl
  | envelope e =>
    simp only [step, AhpStateMirror.apply, Input.mapsCall]
    cases route e.channel with
    | none => rfl
    | some dest =>
      cases dest with
      | root =>
        dsimp only
        cases reduceRoot casts m.rootState e.action <;> rfl
      | automations =>
        dsimp only
        cases reduceCatalog m.automationCatalogState e.action with
        | error => rfl
        | ok state => exact hcatalog state
      | resource r => rfl

theorem maps_run (casts : Casts J) (inputs : List Input) :
    (run casts inputs).maps =
      inputs.foldl (fun maps i => i.mapsCall.apply casts maps) ResourceMaps.new :=
  (List.foldl_hom (·.maps) fun m i => (maps_step casts m i).symm).symm

/-- What a call says of the resource at the URI. -/
def Input.effect (r : ResourceKind) (uri : URI) : Input → Effect r.State StateAction
  | .snapshot s =>
    if route s.resource = some (.resource r) ∧ uri = s.resource then
      match s.state.as? r with
      | some seed => .put seed
      | none => .keep
    else .keep
  | .envelope e =>
    if route e.channel = some (.resource r) ∧ uri = e.channel then .advance e.action else .keep

/-- A snapshot fits. -/
def Input.Fits : Input → Prop
  | .snapshot s => s.Fits
  | .envelope _ => True

/-- Every value of every map is a state of its kind that a snapshot of its channel delivered, and
the envelopes of the channel have advanced since. -/
def OwnKinds (casts : Casts J) (inputs : List Input) : Prop :=
  ∀ (r : ResourceKind) (uri : URI) (v : Stored J), ((run casts inputs).maps r).get? uri = some v →
    ∃ before i after seed, inputs = before ++ i :: after ∧ i.effect r uri = .put seed ∧
      (∀ j ∈ after, (j.effect r uri).Quiet) ∧
      v = .state (r.toSnapshotState ((actionsOf (Input.effect r uri) after).foldl r.reduce seed))

theorem Input.effect_eq (r : ResourceKind) (uri : URI) (i : Input) :
    i.effect r uri = i.mapsCall.effect r uri := by
  have hroute (r' : ResourceKind) : some (Route.resource r') = some (.resource r) ↔ r = r' := by
    simp [eq_comm]
  cases i with
  | snapshot s =>
    cases hr : route s.resource with
    | none => simp [Input.effect, Input.mapsCall, hr, MapsCall.effect]
    | some dest =>
      cases dest with
      | resource r' => simp only [Input.effect, Input.mapsCall, hr, MapsCall.effect, hroute]
      | _ => simp [Input.effect, Input.mapsCall, hr, MapsCall.effect]
  | envelope e =>
    cases hr : route e.channel with
    | none => simp [Input.effect, Input.mapsCall, hr, MapsCall.effect]
    | some dest =>
      cases dest with
      | resource r' => simp only [Input.effect, Input.mapsCall, hr, MapsCall.effect, hroute]
      | _ => simp [Input.effect, Input.mapsCall, hr, MapsCall.effect]

theorem Input.fits_iff (i : Input) : i.Fits ↔ i.mapsCall.Fits := by
  cases i with
  | snapshot s =>
    cases hr : route s.resource with
    | none => simp [Input.Fits, Snapshot.Fits, Input.mapsCall, hr, MapsCall.Fits]
    | some dest =>
      cases dest with
      | resource r' => simp [Input.Fits, Snapshot.Fits, Input.mapsCall, hr, MapsCall.Fits]
      | _ => simp [Input.Fits, Snapshot.Fits, Input.mapsCall, hr, MapsCall.Fits]
  | envelope e =>
    refine iff_of_true trivial ?_
    simp only [Input.mapsCall]
    split <;> trivial

theorem ownKinds_iff (casts : Casts J) (inputs : List Input) :
    (∀ done, done <+: inputs → OwnKinds casts done) ↔ ∀ i ∈ inputs, i.Fits := by
  constructor
  · intro h i hi
    refine i.fits_iff.mpr (fits_of_stored casts Input.mapsCall (fun done hdone r key v hv => ?_) i hi)
    rw [← maps_run] at hv
    obtain ⟨-, -, after, seed, -, -, -, heq⟩ := h done hdone r key v hv
    exact ⟨_, heq⟩
  · intro h done hdone r uri v hv
    have hfits : ∀ i ∈ done, i.mapsCall.Fits := fun i hi => i.fits_iff.mp (h i (hdone.subset hi))
    rw [maps_run] at hv
    obtain ⟨before, i, after, seed, hinputs, hi, hquiet, heq⟩ :=
      delivered_of_fits casts Input.mapsCall hfits hv
    simp only [← Input.effect_eq] at hi hquiet heq
    exact ⟨before, i, after, seed, hinputs, hi, hquiet, heq⟩

end AhpStateMirror

end AgentHostProtocol.Client

/-! ### The mirror of several hosts -/

namespace AgentHostProtocol.Hosts

open Library Channels Client

variable {J : Type}

namespace MultiHostStateMirror

/-- The envelope that a call feeds to the mirror. -/
def Input.envelope? : Input → Option (HostId × ActionEnvelope)
  | .envelope h e => some (h, e)
  | .event e =>
    match e.event with
    | .action params => some (e.hostId, params)
    | _ => none
  | _ => none

/-- What an envelope asks of the maps. -/
def envelopeCall (h : HostId) (e : ActionEnvelope) : MapsCall :=
  match route e.channel with
  | some (.resource r) => .envelope r (hostedResourceKey h e.channel) e.action
  | _ => .other

/-- What a call asks of the maps. -/
def Input.mapsCall (i : Input) : MapsCall :=
  match i with
  | .snapshot h s =>
    match route s.resource with
    | some (.resource r) => .snapshot r (hostedResourceKey h s.resource) s.state
    | _ => .other
  | .resetHost h => .delete (hostedResourceKeyPrefix h)
  | .reset => .clear
  | .envelope .. | .event _ =>
    match i.envelope? with
    | some (h, e) => envelopeCall h e
    | none => .other

/-- What a call says of the resource at the URI of the host. -/
def Input.effect (r : ResourceKind) (h : HostId) (uri : URI) (i : Input) :
    Effect r.State StateAction :=
  match i with
  | .snapshot g s =>
    if route s.resource = some (.resource r) ∧ h = g ∧ uri = s.resource then
      match s.state.as? r with
      | some seed => .put seed
      | none => .keep
    else .keep
  | .resetHost g => if h = g then .drop else .keep
  | .reset => .drop
  | .envelope .. | .event _ =>
    match i.envelope? with
    | some (g, e) =>
      if route e.channel = some (.resource r) ∧ h = g ∧ uri = e.channel then .advance e.action
      else .keep
    | none => .keep

/-- A snapshot fits. -/
def Input.Fits : Input → Prop
  | .snapshot _ s => s.Fits
  | _ => True

/-- Every value of every map is under the key of a resource of a host, and it is a state of its
kind that a snapshot of its channel delivered, and the envelopes of the channel have advanced
since. -/
def OwnKinds (casts : Casts J) (inputs : List Input) : Prop :=
  ∀ (r : ResourceKind) (key : String) (v : Stored J), ((run casts inputs).maps r).get? key = some v →
    ∃ h uri before i after seed, key = hostedResourceKey h uri ∧ inputs = before ++ i :: after ∧
      i.effect r h uri = .put seed ∧ (∀ j ∈ after, (j.effect r h uri).Quiet) ∧
      v = .state (r.toSnapshotState ((actionsOf (Input.effect r h uri) after).foldl r.reduce seed))

theorem maps_applyEnvelope (casts : Casts J) (m : MultiHostStateMirror J) (h : HostId)
    (e : ActionEnvelope) :
    (m.applyEnvelope casts h e).2.maps = (envelopeCall h e).apply casts m.maps := by
  have hcatalog (state : SnapshotState) : (m.setAutomationCatalog h state).2.maps = m.maps := by
    rw [setAutomationCatalog_eq]
  unfold applyEnvelope envelopeCall
  cases route e.channel with
  | none => rfl
  | some dest =>
    cases dest with
    | root =>
      dsimp only
      cases reduceRoot casts _ e.action <;> rfl
    | automations =>
      dsimp only
      cases m.automationCatalogsMap.get? h with
      | none => rfl
      | some current =>
        dsimp only
        cases reduceCatalog current e.action with
        | error => rfl
        | ok state => exact hcatalog state
    | resource r => rfl

theorem maps_step (casts : Casts J) (m : MultiHostStateMirror J) (i : Input) :
    (m.step casts i).maps = i.mapsCall.apply casts m.maps := by
  cases i with
  | snapshot h s =>
    simp only [step, applySnapshot, Input.mapsCall]
    cases route s.resource with
    | none => rfl
    | some dest =>
      cases dest with
      | root => rfl
      | automations =>
        dsimp only
        rw [setAutomationCatalog_eq]
        rfl
      | resource r => rfl
  | envelope h e => exact maps_applyEnvelope casts m h e
  | event e =>
    obtain ⟨hostId, event⟩ := e
    cases event with
    | action params => exact maps_applyEnvelope casts m hostId params
    | _ => rfl
  | resetHost h => rfl
  | reset => rfl

theorem maps_run (casts : Casts J) (inputs : List Input) :
    (run casts inputs).maps =
      inputs.foldl (fun maps i => i.mapsCall.apply casts maps) ResourceMaps.new :=
  (List.foldl_hom (·.maps) fun m i => (maps_step casts m i).symm).symm

theorem effect_envelopeCall (r : ResourceKind) (h g : HostId) (uri : URI) (e : ActionEnvelope) :
    (envelopeCall g e).effect r (hostedResourceKey h uri) =
      if route e.channel = some (.resource r) ∧ h = g ∧ uri = e.channel then .advance e.action
      else .keep := by
  have hroute (r' : ResourceKind) : some (Route.resource r') = some (.resource r) ↔ r = r' := by
    simp [eq_comm]
  unfold envelopeCall
  cases hr : route e.channel with
  | none => simp [MapsCall.effect]
  | some dest =>
    cases dest with
    | resource r' => simp only [MapsCall.effect, hroute, hostedResourceKey_inj]
    | _ => simp [MapsCall.effect]

theorem Input.effect_eq (r : ResourceKind) (h : HostId) (uri : URI) (i : Input) :
    i.effect r h uri = i.mapsCall.effect r (hostedResourceKey h uri) := by
  have hroute (r' : ResourceKind) : some (Route.resource r') = some (.resource r) ↔ r = r' := by
    simp [eq_comm]
  cases i with
  | snapshot g s =>
    cases hr : route s.resource with
    | none => simp [Input.effect, Input.mapsCall, hr, MapsCall.effect]
    | some dest =>
      cases dest with
      | resource r' =>
        simp only [Input.effect, Input.mapsCall, hr, MapsCall.effect, hroute, hostedResourceKey_inj]
      | _ => simp [Input.effect, Input.mapsCall, hr, MapsCall.effect]
  | envelope g e => exact (effect_envelopeCall r h g uri e).symm
  | event e =>
    obtain ⟨hostId, event⟩ := e
    cases event with
    | action params => exact (effect_envelopeCall r h hostId uri params).symm
    | _ => rfl
  | resetHost g => simp only [Input.effect, Input.mapsCall, MapsCall.effect, startsWith_prefix_iff]
  | reset => rfl

theorem Input.fits_iff (i : Input) : i.Fits ↔ i.mapsCall.Fits := by
  have henvelope (h : HostId) (e : ActionEnvelope) : (envelopeCall h e).Fits := by
    unfold envelopeCall
    split <;> trivial
  cases i with
  | snapshot h s =>
    cases hr : route s.resource with
    | none => simp [Input.Fits, Snapshot.Fits, Input.mapsCall, hr, MapsCall.Fits]
    | some dest =>
      cases dest with
      | resource r' => simp [Input.Fits, Snapshot.Fits, Input.mapsCall, hr, MapsCall.Fits]
      | _ => simp [Input.Fits, Snapshot.Fits, Input.mapsCall, hr, MapsCall.Fits]
  | envelope h e => exact iff_of_true trivial (henvelope h e)
  | event e =>
    obtain ⟨hostId, event⟩ := e
    cases event with
    | action params => exact iff_of_true trivial (henvelope hostId params)
    | _ => exact iff_of_true trivial trivial
  | resetHost => exact iff_of_true trivial trivial
  | reset => exact iff_of_true trivial trivial

theorem ownKinds_iff (casts : Casts J) (inputs : List Input) :
    (∀ done, done <+: inputs → OwnKinds casts done) ↔ ∀ i ∈ inputs, i.Fits := by
  constructor
  · intro h i hi
    refine i.fits_iff.mpr (fits_of_stored casts Input.mapsCall (fun done hdone r key v hv => ?_) i hi)
    rw [← maps_run] at hv
    obtain ⟨host, uri, -, -, after, seed, -, -, -, -, heq⟩ := h done hdone r key v hv
    exact ⟨_, heq⟩
  · intro h done hdone r key v hv
    have hfits : ∀ i ∈ done, i.mapsCall.Fits := fun i hi => i.fits_iff.mp (h i (hdone.subset hi))
    obtain ⟨host, uri, rfl⟩ := (hosted_run casts done).maps r key v hv
    rw [maps_run] at hv
    obtain ⟨before, i, after, seed, hinputs, hi, hquiet, heq⟩ :=
      delivered_of_fits casts Input.mapsCall hfits hv
    simp only [← Input.effect_eq] at hi hquiet heq
    exact ⟨host, uri, before, i, after, seed, rfl, hinputs, hi, hquiet, heq⟩

end MultiHostStateMirror

/-- **The kinds of the values**: in both mirrors the maps hold, after every call of a run, only
states of their own kinds, delivered and advanced on their own channels, exactly if every
snapshot of the run carries a state of the kind that its URI leads to. -/
theorem maps_hold_own_kinds (casts : Casts J) :
    (∀ inputs : List AhpStateMirror.Input,
      (∀ done, done <+: inputs → AhpStateMirror.OwnKinds casts done) ↔ ∀ i ∈ inputs, i.Fits) ∧
    ∀ inputs : List MultiHostStateMirror.Input,
      (∀ done, done <+: inputs → MultiHostStateMirror.OwnKinds casts done) ↔
        ∀ i ∈ inputs, i.Fits :=
  ⟨AhpStateMirror.ownKinds_iff casts, MultiHostStateMirror.ownKinds_iff casts⟩

/-- Reducers that throw on every value of another kind. -/
def throwing : Casts Empty where
  root _ _ := .error .typeError
  resource _ _ _ := .error .typeError

/-- The snapshot of the annotations of a session. -/
def annotationsSnapshot : Snapshot := ⟨"ahp-session:/1/annotations", .annotations ⟨[]⟩⟩

/-- Both mirrors keep the annotations of a session as a session. -/
theorem annotations_as_session :
    ¬ AhpStateMirror.OwnKinds throwing [.snapshot annotationsSnapshot] ∧
      ¬ MultiHostStateMirror.OwnKinds throwing [.snapshot "h" annotationsSnapshot] := by
  constructor
  · intro h
    obtain ⟨-, -, after, seed, -, -, -, heq⟩ :=
      h .session annotationsSnapshot.resource (.state annotationsSnapshot.state) rfl
    cases heq
  · intro h
    obtain ⟨host, uri, -, -, after, seed, -, -, -, -, heq⟩ :=
      h .session (hostedResourceKey "h" annotationsSnapshot.resource)
        (.state annotationsSnapshot.state) rfl
    cases heq

end AgentHostProtocol.Hosts
