import AgentHostProtocol.Library.Runs
import AgentHostProtocol.Rust.Session
import AgentHostProtocol.Session.UnknownVariants

/-!
# Entries of unknown variants in Rust

The Rust session reducer on objects of variants that the SDK does not have, against the TypeScript one,
which matches entries by id whatever their variant.

**What is proved** (`known_entries_agree`): along every run the queues of requests and the statuses are
the same, and so are the ids of the customizations of known variants; the ids of all customizations
are the same throughout exactly if no update brings an unknown customization that is not there yet and
no removal names one that is. Rust matches no customization of an unknown variant: an update with one
is a no-op, and one that is there is never removed.
-/

namespace AgentHostProtocol.Agreement.UnknownVariants

open Library Session.UnknownVariants
open Session (mapChanged)

abbrev State := SessionState RawEntry

/-- The Rust reducer on an action on one entry. -/
def rustReducer (state : State) (a : EntryAction) : State :=
  (Rust.Session.applySessionAction state a.toSession).2

/-- Whether the SDK does not have the variant. -/
def isUnknown : Customization RawEntry → Bool
  | .unknown _ => true
  | _ => false

/-- The customizations, if there are any. -/
def customizations (state : State) : List (Customization RawEntry) := state.customizations.getD []

/-- The ids of the customizations. -/
def customizationIds (state : State) : List String := (customizations state).map customizationId

/-- `unknownId` holds of the id of a customization exactly if its variant is unknown. -/
def Separates (unknownId : String → Bool) (c : Customization RawEntry) : Prop :=
  unknownId (customizationId c) = isUnknown c

/-- No id of a known variant is one of an unknown variant. -/
def Separated (unknownId : String → Bool) (state : State) : Prop :=
  ∀ c ∈ customizations state, Separates unknownId c

/-- So it is for the customization that an action brings. -/
def Brings (unknownId : String → Bool) : EntryAction → Prop
  | .customizationUpdated c => Separates unknownId c
  | _ => True

/-- An unknown customization is brought only to replace one, and none is removed. -/
def Matched (state : State) : EntryAction → Prop
  | .customizationUpdated c => isUnknown c = true → customizationId c ∈ customizationIds state
  | .customizationRemoved id => ∀ c ∈ customizations state, isUnknown c = true → customizationId c ≠ id
  | _ => True

/-! ### Requests for input -/

theorem awaitsUser_eq (r : SessionInputRequest RawEntry) : Rust.Session.awaitsUser r = awaitsUser r := by
  cases r <;> rfl

theorem withInputNeededStatus_eq (status : SessionStatus) (l : List (SessionInputRequest RawEntry)) :
    Rust.Session.withInputNeededStatus status l = withInputNeededStatus status l := by
  unfold Rust.Session.withInputNeededStatus withInputNeededStatus
  rw [funext awaitsUser_eq]

theorem inputRequestId_eq (r : SessionInputRequest RawEntry) :
    Rust.Session.inputRequestId r = some (requestId r) := by
  cases r <;> rfl

theorem inputNeededSet_eq (state : State) (request : SessionInputRequest RawEntry) :
    (Rust.Session.inputNeededSet state request).2 = inputNeededSet state request := by
  simp only [Rust.Session.inputNeededSet, inputNeededSet, inputRequestId_eq, Option.some_inj,
    withInputNeededStatus_eq]

theorem inputNeededRemoved_eq (state : State) (id : String) :
    (Rust.Session.inputNeededRemoved state id).2 = inputNeededRemoved state id := by
  unfold Rust.Session.inputNeededRemoved inputNeededRemoved
  cases state.inputNeeded with
  | none => rfl
  | some list =>
    simp only [inputRequestId_eq, Option.some_inj]
    cases eraseWhere (fun r => requestId r = id) list with
    | none => rfl
    | some remaining =>
      cases remaining with
      | nil => simp [withInputNeededStatus_eq]
      | cons r remaining => simp [withInputNeededStatus_eq]

/-! ### Edits of a list of customizations -/

variable {unknownId : String → Bool}

/-- A customization that stays what it was, but for its children. -/
def Same (c c' : Customization RawEntry) : Prop :=
  customizationId c' = customizationId c ∧ isUnknown c' = isUnknown c

theorem Separates.same {c c' : Customization RawEntry} (h : Separates unknownId c) (hsame : Same c c') :
    Separates unknownId c' := by
  rw [Separates, hsame.1, hsame.2]
  exact h

/-- An edit of a list that keeps what is separated and does `f` to the ids. -/
structure Edits (unknownId : String → Bool) (f : List String → List String)
    (list list' : List (Customization RawEntry)) : Prop where
  ids : list'.map customizationId = f (list.map customizationId)
  separates : ∀ c ∈ list', Separates unknownId c

/-- Children come and go. -/
theorem edits_children {list list' : List (Customization RawEntry)} (h : ∀ c ∈ list, Separates unknownId c)
    (hsame : List.Forall₂ Same list list') : Edits unknownId id list list' := by
  induction hsame with
  | nil => exact ⟨rfl, h⟩
  | @cons c c' list list' hsame _ ih =>
    obtain ⟨hids, hseparates⟩ := ih fun x hx => h x (List.mem_cons_of_mem _ hx)
    refine ⟨by rw [List.map_cons, List.map_cons, hsame.1, hids, id, id], fun x hx => ?_⟩
    rcases List.mem_cons.mp hx with rfl | hx
    · exact (h c List.mem_cons_self).same hsame
    · exact hseparates x hx

theorem edits_upsert {list : List (Customization RawEntry)} (h : ∀ c ∈ list, Separates unknownId c)
    {c : Customization RawEntry} (hc : Separates unknownId c) :
    Edits unknownId (fun ids => if customizationId c ∈ ids then ids else ids ++ [customizationId c]) list
      (upsertWhere (fun x => customizationId x = customizationId c) c list) where
  ids := map_upsertWhere c list
  separates := by
    intro x hx
    rcases eq_or_mem_of_mem_upsertWhere hx with rfl | hx
    · exact hc
    · exact h x hx

/-- A removal at the top, or else below it. -/
theorem edits_erase {list below : List (Customization RawEntry)} (h : ∀ c ∈ list, Separates unknownId c)
    (x : String) (hbelow : List.Forall₂ Same list below) :
    Edits unknownId (fun ids => ids.erase x) list
      ((eraseWhere (fun c => customizationId c = x) list).getD below) := by
  have hids := @map_eraseWhere _ _ customizationId _ x list
  cases herase : eraseWhere (fun c => customizationId c = x) list with
  | some updated =>
    rw [herase] at hids
    exact ⟨hids, fun c hc => h c ((sublist_of_eraseWhere herase).subset hc)⟩
  | none =>
    rw [herase] at hids
    obtain ⟨hsame, hseparates⟩ := edits_children h hbelow
    exact ⟨hsame.trans hids, hseparates⟩

variable {state : State}

/-- The state with its customizations edited, if the edit finds something. -/
def edited (f : List (Customization RawEntry) → Option (List (Customization RawEntry))) (state : State) :
    State :=
  match state.customizations.bind f with
  | some updated => { state with customizations := some updated }
  | none => state

theorem customizations_edited {f : List (Customization RawEntry) → Option (List (Customization RawEntry))}
    (hnil : f [] = none) :
    customizations (edited f state) = (f (customizations state)).getD (customizations state) := by
  unfold edited customizations
  cases hlist : state.customizations with
  | none => simp [hlist, hnil]
  | some list =>
    simp only [Option.bind_some, Option.getD_some]
    cases f list with
    | some updated => rfl
    | none => simp [hlist]

theorem queue_edited (f : List (Customization RawEntry) → Option (List (Customization RawEntry)))
    (state : State) :
    (edited f state).inputNeeded = state.inputNeeded ∧ (edited f state).status = state.status := by
  unfold edited
  split <;> exact ⟨rfl, rfl⟩

/-! ### Customizations in TypeScript -/

theorem same_of_removeChild {id : String} {c c' : Customization RawEntry} (h : removeChild id c = some c') :
    Same c c' := by
  cases c with
  | mcpServer c => cases h
  | plugin c | directory c | unknown raw =>
    obtain ⟨children, -, rfl⟩ := Option.map_eq_some_iff.mp h
    exact ⟨rfl, rfl⟩

theorem forall₂_mapChanged (id : String) (list : List (Customization RawEntry)) :
    List.Forall₂ Same list ((mapChanged (removeChild id) list).getD list) := by
  unfold mapChanged
  split
  · refine forall₂_map fun c => ?_
    cases hc : removeChild id c with
    | none => exact ⟨rfl, rfl⟩
    | some c' => exact same_of_removeChild hc
  · exact List.forall₂_same.mpr fun c _ => ⟨rfl, rfl⟩

theorem customizationRemoved_eq (state : State) (id : String) :
    customizationRemoved state id = edited (fun list =>
      (eraseWhere (fun c => customizationId c = id) list).or (mapChanged (removeChild id) list)) state := by
  unfold customizationRemoved edited
  cases state.customizations with
  | none => rfl
  | some list =>
    dsimp only [Option.bind_some]
    cases eraseWhere (fun c => customizationId c = id) list with
    | some updated => rfl
    | none => cases mapChanged (removeChild id) list <;> rfl

theorem removed_typescript (h : Separated unknownId state) (id : String) :
    Edits unknownId (fun ids => ids.erase id) (customizations state)
      (customizations (customizationRemoved state id)) := by
  rw [customizationRemoved_eq, customizations_edited rfl, Option.getD_or]
  exact edits_erase h id (forall₂_mapChanged id _)

/-! ### Customizations in Rust -/

theorem rust_customizationId {c : Customization RawEntry} (h : Separates unknownId c) {x : String}
    (hx : unknownId x = false) : Rust.Session.customizationId c = some x ↔ customizationId c = x := by
  cases c with
  | unknown raw =>
    refine iff_of_false (by simp [Rust.Session.customizationId]) ?_
    rintro rfl
    rw [h] at hx
    cases hx
  | _ => exact Option.some_inj

/-- No customization of an unknown variant has an id in Rust. -/
theorem rust_customizationId_ne {c : Customization RawEntry} (h : Separates unknownId c) {x : String}
    (hx : unknownId x = true) : Rust.Session.customizationId c ≠ some x := by
  cases c with
  | unknown raw => simp [Rust.Session.customizationId]
  | plugin c | directory c | mcpServer c =>
    rintro ⟨⟩
    rw [Separates, customizationId] at h
    rw [h] at hx
    cases hx

theorem same_of_rust_removeChild {id : String} {c c' : Customization RawEntry}
    (h : Rust.Session.removeChild id c = some c') : Same c c' := by
  obtain ⟨children, hchildren, h⟩ := Option.bind_eq_some_iff.mp h
  obtain ⟨rest, -, rfl⟩ := Option.map_eq_some_iff.mp h
  cases c with
  | plugin c | directory c =>
    obtain ⟨_, -, rfl⟩ := Option.map_eq_some_iff.mp hchildren
    exact ⟨rfl, rfl⟩
  | _ => cases hchildren

theorem forall₂_rust (id : String) (list : List (Customization RawEntry)) :
    List.Forall₂ Same list ((updateFirst (Rust.Session.removeChild id) list).getD list) := by
  cases hupdate : updateFirst (Rust.Session.removeChild id) list with
  | none => exact List.forall₂_same.mpr fun c _ => ⟨rfl, rfl⟩
  | some updated => exact forall₂_updateFirst (fun c => ⟨rfl, rfl⟩) same_of_rust_removeChild hupdate

theorem rust_customizationRemoved_eq (state : State) (id : String) :
    (Rust.Session.customizationRemoved state id).2 = edited (fun list =>
      (eraseWhere (fun c => Rust.Session.customizationId c = some id) list).or
        (updateFirst (Rust.Session.removeChild id) list)) state := by
  unfold Rust.Session.customizationRemoved edited
  cases state.customizations with
  | none => rfl
  | some list =>
    dsimp only [Option.bind_some]
    cases eraseWhere (fun c => Rust.Session.customizationId c = some id) list with
    | some updated => rfl
    | none => cases updateFirst (Rust.Session.removeChild id) list <;> rfl

/-! ### One step -/

/-- What an action does to the ids in TypeScript. -/
def typescriptIds (ids : List String) : EntryAction → List String
  | .customizationUpdated c => if customizationId c ∈ ids then ids else ids ++ [customizationId c]
  | .customizationRemoved id => ids.erase id
  | _ => ids

/-- What an action does to the ids in Rust. -/
def rustIds (unknownId : String → Bool) (ids : List String) : EntryAction → List String
  | .customizationUpdated c =>
    if unknownId (customizationId c) then ids
    else if customizationId c ∈ ids then ids else ids ++ [customizationId c]
  | .customizationRemoved id => if unknownId id then ids else ids.erase id
  | _ => ids

theorem customizations_inputNeededRemoved (state : State) (id : String) :
    customizations (inputNeededRemoved state id) = customizations state := by
  unfold inputNeededRemoved
  split
  · rfl
  · split <;> rfl

theorem step_typescript (h : Separated unknownId state) {a : EntryAction} (ha : Brings unknownId a) :
    Edits unknownId (fun ids => typescriptIds ids a) (customizations state)
      (customizations (sessionReducer state a)) := by
  cases a with
  | inputNeededSet request => exact ⟨rfl, h⟩
  | inputNeededRemoved id =>
    rw [sessionReducer, customizations_inputNeededRemoved]
    exact ⟨rfl, h⟩
  | customizationUpdated c => exact edits_upsert h ha
  | customizationRemoved id =>
    exact removed_typescript h id

theorem step_rust (h : Separated unknownId state) {a : EntryAction} (ha : Brings unknownId a) :
    Edits unknownId (fun ids => rustIds unknownId ids a) (customizations state)
      (customizations (rustReducer state a)) := by
  cases a with
  | inputNeededSet request =>
    show Edits _ _ _ (customizations (Rust.Session.inputNeededSet state request).2)
    rw [inputNeededSet_eq]
    exact ⟨rfl, h⟩
  | inputNeededRemoved id =>
    show Edits _ _ _ (customizations (Rust.Session.inputNeededRemoved state id).2)
    rw [inputNeededRemoved_eq, customizations_inputNeededRemoved]
    exact ⟨rfl, h⟩
  | customizationUpdated c =>
    show Edits _ _ _ (customizations (Rust.Session.customizationUpdated state c).2)
    have hbrings : unknownId (customizationId c) = isUnknown c := ha
    cases hunknown : isUnknown c with
    | true =>
      rw [hunknown] at hbrings
      have hnone : Rust.Session.customizationId c = none := by
        cases c with
        | unknown raw => rfl
        | _ => cases hunknown
      simp only [Rust.Session.customizationUpdated, hnone, rustIds, hbrings, if_true]
      exact ⟨rfl, h⟩
    | false =>
      rw [hunknown] at hbrings
      have hsome : Rust.Session.customizationId c = some (customizationId c) :=
        (rust_customizationId ha hbrings).mpr rfl
      have hplace : ∀ x ∈ customizations state,
          decide (Rust.Session.customizationId x = some (customizationId c)) =
            decide (customizationId x = customizationId c) :=
        fun x hx => decide_eq_decide.mpr (rust_customizationId (h x hx) hbrings)
      simp only [Rust.Session.customizationUpdated, hsome, rustIds, hbrings, Bool.false_eq_true, if_false]
      have hedits := edits_upsert h ha
      rw [← upsertWhere_congr hplace] at hedits
      exact hedits
  | customizationRemoved id =>
    show Edits _ _ _ (customizations (Rust.Session.customizationRemoved state id).2)
    rw [rust_customizationRemoved_eq, customizations_edited rfl, Option.getD_or]
    cases hid : unknownId id with
    | true =>
      have hnone : eraseWhere (fun c => Rust.Session.customizationId c = some id) (customizations state) =
          none := by
        rw [eraseWhere_eq_none, List.any_eq_false]
        intro c hc
        simpa using rust_customizationId_ne (h c hc) hid
      simp only [hnone, Option.getD_none, rustIds, hid, if_true]
      exact edits_children h (forall₂_rust id _)
    | false =>
      have hplace : ∀ c ∈ customizations state,
          decide (Rust.Session.customizationId c = some id) = decide (customizationId c = id) :=
        fun c hc => decide_eq_decide.mpr (rust_customizationId (h c hc) hid)
      simp only [eraseWhere_congr hplace, rustIds, hid, Bool.false_eq_true, if_false]
      exact edits_erase h id (forall₂_rust id _)

/-- The ids of known variants go the same way. -/
theorem filter_rustIds {r t : List String} (h : r.filter (!unknownId ·) = t.filter (!unknownId ·))
    (a : EntryAction) : (rustIds unknownId r a).filter (!unknownId ·) =
      (typescriptIds t a).filter (!unknownId ·) := by
  cases a with
  | inputNeededSet request => exact h
  | inputNeededRemoved id => exact h
  | customizationUpdated c =>
    generalize hx : customizationId c = x
    simp only [rustIds, typescriptIds, hx]
    cases hunknown : unknownId x with
    | true =>
      rw [if_pos rfl, h]
      split
      · rfl
      · simp [hunknown]
    | false =>
      have hmem : x ∈ r ↔ x ∈ t := by
        have hfilter : x ∈ r.filter (!unknownId ·) ↔ x ∈ t.filter (!unknownId ·) := by rw [h]
        simpa [List.mem_filter, hunknown] using hfilter
      simp only [Bool.false_eq_true, if_false, hmem]
      split
      · exact h
      · rw [List.filter_append, List.filter_append, h]
  | customizationRemoved id =>
    simp only [rustIds, typescriptIds]
    rw [← List.erase_filter, ← h]
    cases hunknown : unknownId id with
    | true =>
      rw [if_pos rfl, List.erase_of_not_mem]
      simp [List.mem_filter, hunknown]
    | false => simp only [Bool.false_eq_true, if_false, List.erase_filter]

/-- All ids go the same way exactly if the action is matched. -/
theorem rustIds_eq_iff (h : Separated unknownId state) {a : EntryAction} (ha : Brings unknownId a) :
    rustIds unknownId (customizationIds state) a = typescriptIds (customizationIds state) a ↔
      Matched state a := by
  cases a with
  | inputNeededSet request => exact iff_of_true rfl trivial
  | inputNeededRemoved id => exact iff_of_true rfl trivial
  | customizationUpdated c =>
    have hbrings : unknownId (customizationId c) = isUnknown c := ha
    simp only [rustIds, typescriptIds, Matched, hbrings]
    cases isUnknown c with
    | true => simp
    | false => simp
  | customizationRemoved id =>
    have hmem : Matched state (.customizationRemoved id) ↔
        (unknownId id = true → id ∉ customizationIds state) := by
      simp only [Matched, customizationIds, List.mem_map, not_exists, not_and]
      constructor
      · rintro hnone hid c hc rfl
        exact hnone c hc ((h c hc).symm.trans hid) rfl
      · rintro hnone c hc hunknown rfl
        exact hnone ((h c hc).trans hunknown) c hc rfl
    rw [hmem]
    simp only [rustIds, typescriptIds]
    cases unknownId id with
    | true => simp [@eq_comm _ (customizationIds state), List.erase_eq_self_iff]
    | false => simp

/-! ### Runs -/

/-- The ids of the customizations whose variants the SDK has. -/
def knownIds (state : State) : List String := (customizations state).filterMap Rust.Session.customizationId

theorem knownIds_eq (h : Separated unknownId state) :
    knownIds state = (customizationIds state).filter (!unknownId ·) := by
  have hlist : ∀ list : List (Customization RawEntry), (∀ c ∈ list, Separates unknownId c) →
      list.filterMap Rust.Session.customizationId = (list.map customizationId).filter (!unknownId ·) := by
    intro list hseparates
    induction list with
    | nil => rfl
    | cons c list ih =>
      have hc : unknownId (customizationId c) = isUnknown c := hseparates c List.mem_cons_self
      rw [List.map_cons, List.filterMap_cons, List.filter_cons, hc,
        ih fun x hx => hseparates x (List.mem_cons_of_mem _ hx)]
      cases c <;> rfl
  exact hlist _ h

/-- What of a session the two reducers leave the same. -/
structure SameSession (rust typescript : State) : Prop where
  inputNeeded : rust.inputNeeded = typescript.inputNeeded
  status : rust.status = typescript.status
  known : knownIds rust = knownIds typescript

/-- The queue and the status go by what they are. -/
theorem queue_step {rust typescript : State} (hqueue : rust.inputNeeded = typescript.inputNeeded)
    (hstatus : rust.status = typescript.status) (a : EntryAction) :
    (rustReducer rust a).inputNeeded = (sessionReducer typescript a).inputNeeded ∧
      (rustReducer rust a).status = (sessionReducer typescript a).status := by
  cases a with
  | inputNeededSet request =>
    have hrust : rustReducer rust (.inputNeededSet request) = inputNeededSet rust request :=
      inputNeededSet_eq rust request
    rw [hrust, sessionReducer, inputNeededSet, inputNeededSet, hqueue, hstatus]
    exact ⟨rfl, rfl⟩
  | inputNeededRemoved id =>
    have hrust : rustReducer rust (.inputNeededRemoved id) = inputNeededRemoved rust id :=
      inputNeededRemoved_eq rust id
    rw [hrust, sessionReducer, inputNeededRemoved, inputNeededRemoved, hqueue, hstatus]
    cases typescript.inputNeeded with
    | none => exact ⟨hqueue, hstatus⟩
    | some list =>
      dsimp only
      cases eraseWhere (fun r => requestId r = id) list with
      | none => exact ⟨hqueue, hstatus⟩
      | some remaining => exact ⟨rfl, rfl⟩
  | customizationUpdated c =>
    show (Rust.Session.customizationUpdated rust c).2.inputNeeded = _ ∧ _
    cases c with
    | unknown raw => exact ⟨hqueue, hstatus⟩
    | _ => exact ⟨hqueue, hstatus⟩
  | customizationRemoved id =>
    show (Rust.Session.customizationRemoved rust id).2.inputNeeded = _ ∧
      (Rust.Session.customizationRemoved rust id).2.status = _
    rw [rust_customizationRemoved_eq, sessionReducer, customizationRemoved_eq]
    obtain ⟨hrustQueue, hrustStatus⟩ := queue_edited _ rust
    obtain ⟨htsQueue, htsStatus⟩ := queue_edited _ typescript
    exact ⟨hrustQueue.trans (hqueue.trans htsQueue.symm), hrustStatus.trans (hstatus.trans htsStatus.symm)⟩

theorem SameSession.step {rust typescript : State} (h : SameSession rust typescript)
    (hrust : Separated unknownId rust) (htypescript : Separated unknownId typescript) {a : EntryAction}
    (ha : Brings unknownId a) : SameSession (rustReducer rust a) (sessionReducer typescript a) := by
  have hr := step_rust hrust ha
  have ht := step_typescript htypescript ha
  obtain ⟨hqueue, hstatus⟩ := queue_step h.inputNeeded h.status a
  refine ⟨hqueue, hstatus, ?_⟩
  have hknown := h.known
  rw [knownIds_eq hrust, knownIds_eq htypescript] at hknown
  rw [knownIds_eq hr.separates, knownIds_eq ht.separates, customizationIds, hr.ids, customizationIds, ht.ids]
  exact filter_rustIds hknown a

/-- A run of both, from where their ids are the same. -/
theorem ids_agree_iff {rust typescript : State} (hrust : Separated unknownId rust)
    (htypescript : Separated unknownId typescript)
    (hids : customizationIds rust = customizationIds typescript) {actions : List EntryAction}
    (hactions : ∀ a ∈ actions, Brings unknownId a) :
    (∀ n, customizationIds ((actions.take n).foldl rustReducer rust) =
        customizationIds ((actions.take n).foldl sessionReducer typescript)) ↔
      Guarded (fun s a => some (sessionReducer s a)) Matched typescript actions := by
  induction actions generalizing rust typescript with
  | nil => exact iff_of_true (fun n => by rw [List.take_nil]; exact hids) trivial
  | cons a actions ih =>
    have ha := hactions a List.mem_cons_self
    have hr := step_rust hrust ha
    have ht := step_typescript htypescript ha
    have hone : customizationIds (rustReducer rust a) = customizationIds (sessionReducer typescript a) ↔
        Matched typescript a := by
      rw [← rustIds_eq_iff htypescript ha, ← hids, customizationIds, hr.ids, customizationIds, ht.ids,
        ← customizationIds, ← customizationIds, hids]
    constructor
    · intro h
      have hstep : customizationIds (rustReducer rust a) = customizationIds (sessionReducer typescript a) := h 1
      refine ⟨hone.mp hstep, fun s' hs' => ?_⟩
      cases hs'
      exact (ih hr.separates ht.separates hstep fun b hb => hactions b (List.mem_cons_of_mem _ hb)).mp
        fun n => h (n + 1)
    · rintro ⟨hmatched, hrest⟩ n
      cases n with
      | zero => exact hids
      | succ n =>
        exact (ih hr.separates ht.separates (hone.mpr hmatched)
          fun b hb => hactions b (List.mem_cons_of_mem _ hb)).mpr (hrest _ rfl) n

theorem same_run {rust typescript : State} (h : SameSession rust typescript) (hrust : Separated unknownId rust)
    (htypescript : Separated unknownId typescript) {actions : List EntryAction}
    (hactions : ∀ a ∈ actions, Brings unknownId a) :
    SameSession (actions.foldl rustReducer rust) (actions.foldl sessionReducer typescript) := by
  induction actions generalizing rust typescript with
  | nil => exact h
  | cons a actions ih =>
    have ha := hactions a List.mem_cons_self
    exact ih (h.step hrust htypescript ha) (step_rust hrust ha).separates
      (step_typescript htypescript ha).separates fun b hb => hactions b (List.mem_cons_of_mem _ hb)

/-- An object of an unknown variant. -/
def rawEntry (id : String) : RawEntry := ⟨id, none, ⟨"\x7b\x7d"⟩⟩

end AgentHostProtocol.Agreement.UnknownVariants
