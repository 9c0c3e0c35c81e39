import AgentHostProtocol.Library.Runs
import AgentHostProtocol.Session.Frames
import Mathlib.Data.List.Dedup

/-!
# The chat catalogue of a session

The catalogue lists the chats of a session, and `defaultChat` names one of them or none. A reorder
looks up each resource that it is given; it is compared here with what it should be, a permutation
of the catalogued resources (`Reordered`).

**What is proved** (`catalogue_kept`): along any run in which a default chat is chosen from the
catalogue, the resources stay distinct and the default chat catalogued; a reorder changes the state
only for a permutation, and then it gives the catalogue that order; and updates leave the resources
and the providers.
-/

namespace AgentHostProtocol.Session

open Library

/-- The resources of the catalogue. -/
def resources (state : SessionState Empty) : List URI := state.chats.map (·.resource)

/-- The resources are distinct, and the default chat is one of them. -/
structure Catalogued (state : SessionState Empty) : Prop where
  distinct : (resources state).Nodup
  defaultChat : ∀ chat ∈ state.defaultChat, chat ∈ resources state

/-- The catalogue has the given order, and nothing else has changed. -/
structure Reordered (chats : List URI) (state state' : SessionState Empty) : Prop where
  order : resources state' = chats
  summaries : state'.chats.Perm state.chats
  others : { state' with chats := state.chats } = state

/-- A default chat is chosen from the catalogue. -/
def ChoosesChat (state : SessionState Empty) : SessionAction Empty → Prop
  | .defaultChatChanged defaultChat => ∀ chat ∈ defaultChat, chat ∈ resources state
  | _ => True

instance (state : SessionState Empty) : ∀ a, Decidable (ChoosesChat state a)
  | .defaultChatChanged defaultChat =>
    inferInstanceAs (Decidable (∀ chat ∈ defaultChat, chat ∈ resources state))
  | .ready | .creationFailed _ | .chatAdded _ | .chatRemoved _ | .chatUpdated _ _ | .chatsReordered _
  | .titleChanged _ | .isReadChanged _ | .isArchivedChanged _ | .activityChanged _ | .changesetsChanged _
  | .configChanged _ | .metaChanged _ | .serverToolsChanged _ | .activeClientSet _
  | .activeClientRemoved _ | .workingDirectorySet _ | .workingDirectoryRemoved _
  | .workingDirectoryReplaced _ _ | .inputNeededSet _ | .inputNeededRemoved _ | .customizationsChanged _
  | .customizationToggled _ _ | .customizationUpdated _ | .customizationRemoved _
  | .mcpServerStateChanged _ | .mcpServerStartRequested _ | .mcpServerBackgroundRequested _
  | .mcpServerStopRequested _ => inferInstanceAs (Decidable True)

variable {state : SessionState Empty}

/-! ### Reordering -/

theorem summaryOf_eq_some {l : List ChatSummary} (hl : (l.map (·.resource)).Nodup) {resource : URI}
    {summary : ChatSummary} :
    summaryOf l resource = some summary ↔ summary ∈ l ∧ summary.resource = resource := by
  have hreverse : (l.reverse.map (·.resource)).Nodup := by
    rw [List.map_reverse]
    exact List.nodup_reverse.mpr hl
  rw [summaryOf, find?_eq_some_iff_of_nodup hreverse, List.mem_reverse]

/-- The summaries that are looked up have the resources, and are entries of the list. -/
theorem mapM_summaryOf {l : List ChatSummary} (hl : (l.map (·.resource)).Nodup) {chats : List URI}
    {reordered : List ChatSummary} (h : chats.mapM (summaryOf l) = some reordered) :
    reordered.map (·.resource) = chats ∧ ∀ summary ∈ reordered, summary ∈ l := by
  induction chats generalizing reordered with
  | nil =>
    cases h
    exact ⟨rfl, fun _ hmem => by cases hmem⟩
  | cons chat chats ih =>
    rw [List.mapM_cons] at h
    obtain ⟨summary, hsummary, h⟩ := Option.bind_eq_some_iff.mp h
    obtain ⟨rest, hrest, h⟩ := Option.bind_eq_some_iff.mp h
    cases h
    obtain ⟨hmem, hresource⟩ := (summaryOf_eq_some hl).mp hsummary
    obtain ⟨horder, hall⟩ := ih hrest
    refine ⟨by rw [List.map_cons, hresource, horder], fun x hx => ?_⟩
    rcases List.mem_cons.mp hx with rfl | hx
    · exact hmem
    · exact hall x hx

/-- Every resource of the list is found. -/
theorem exists_mapM_summaryOf {l : List ChatSummary} (hl : (l.map (·.resource)).Nodup) {chats : List URI}
    (h : ∀ chat ∈ chats, chat ∈ l.map (·.resource)) :
    ∃ reordered, chats.mapM (summaryOf l) = some reordered := by
  induction chats with
  | nil => exact ⟨[], rfl⟩
  | cons chat chats ih =>
    obtain ⟨summary, hmem, hresource⟩ := List.mem_map.mp (h chat List.mem_cons_self)
    obtain ⟨rest, hrest⟩ := ih fun c hc => h c (List.mem_cons_of_mem _ hc)
    refine ⟨summary :: rest, ?_⟩
    rw [List.mapM_cons, (summaryOf_eq_some hl).mpr ⟨hmem, hresource⟩, hrest]
    rfl

/-- Distinct entries of a list that are as many as its entries are all of them. -/
theorem perm_of_mapM_summaryOf {l : List ChatSummary} (hl : (l.map (·.resource)).Nodup) {chats : List URI}
    {reordered : List ChatSummary} (h : chats.mapM (summaryOf l) = some reordered) (hchats : chats.Nodup)
    (hlength : chats.length = l.length) : reordered.Perm l := by
  obtain ⟨horder, hall⟩ := mapM_summaryOf hl h
  have hnodup : reordered.Nodup := by
    refine List.Nodup.of_map (·.resource) ?_
    rw [horder]
    exact hchats
  refine (List.subperm_of_subset hnodup hall).perm_of_length_le ?_
  rw [← hlength, ← horder, List.length_map]

theorem chatsReordered_of_perm (h : (resources state).Nodup) {chats : List URI}
    (hperm : chats.Perm (resources state)) : Reordered chats state (chatsReordered state chats) := by
  have hchats : chats.Nodup := hperm.nodup_iff.mpr h
  have hlength : chats.length = state.chats.length := by
    rw [hperm.length_eq, resources, List.length_map]
  obtain ⟨reordered, hreordered⟩ := exists_mapM_summaryOf h fun chat hc => hperm.mem_iff.mp hc
  have horder := (mapM_summaryOf h hreordered).1
  have hsummaries := perm_of_mapM_summaryOf h hreordered hchats hlength
  have htest : ¬ (chats.length ≠ state.chats.length ∨ chats.dedup.length ≠ state.chats.length) := by
    rw [hchats.dedup, hlength]
    simp
  simp only [chatsReordered, htest, if_false, hreordered]
  split
  · next heq =>
    rw [heq] at horder
    exact ⟨horder, .refl _, rfl⟩
  · exact ⟨horder, hsummaries, rfl⟩

/-- Anything but a permutation is rejected. -/
theorem chatsReordered_of_not_perm (h : (resources state).Nodup) {chats : List URI}
    (hperm : ¬ chats.Perm (resources state)) : chatsReordered state chats = state := by
  unfold chatsReordered
  split
  · rfl
  · next htest =>
    rw [not_or, not_not, not_not] at htest
    obtain ⟨hlength, hset⟩ := htest
    cases hreordered : chats.mapM (summaryOf state.chats) with
    | none => rfl
    | some reordered =>
      have hchats : chats.Nodup := by
        have hwhole : chats.dedup = chats :=
          (List.dedup_sublist chats).eq_of_length (hset.trans hlength.symm)
        rw [← hwhole]
        exact List.nodup_dedup chats
      refine absurd ?_ hperm
      rw [← (mapM_summaryOf h hreordered).1]
      exact (perm_of_mapM_summaryOf h hreordered hchats hlength).map _

/-! ### The other actions -/

/-- `session/chatUpdated` leaves the resources and the providers. -/
theorem chatUpdated_identities (chat : URI) (changes : PartialChatSummary) :
    (chatUpdated state chat changes).chats.map (fun c => (c.resource, c.provider)) =
      state.chats.map fun c => (c.resource, c.provider) := by
  unfold chatUpdated
  split
  · rfl
  · split
    · rfl
    · next idx _ summary hidx =>
      obtain ⟨hlt, rfl⟩ := List.getElem?_eq_some_iff.mp hidx
      rw [List.map_set]
      refine List.ext_getElem (by simp) fun j h₁ h₂ => ?_
      rw [List.getElem_set]
      split
      · next hij =>
        subst hij
        rw [List.getElem_map]
        rfl
      · rfl

/-! ### Runs -/

theorem resources_chatUpdated (chat : URI) (changes : PartialChatSummary) :
    resources (chatUpdated state chat changes) = resources state := by
  have hfst := congrArg (List.map Prod.fst) (@chatUpdated_identities state chat changes)
  rwa [List.map_map, List.map_map] at hfst

theorem chatUpdated_defaultChat (chat : URI) (changes : PartialChatSummary) :
    (chatUpdated state chat changes).defaultChat = state.defaultChat := by
  unfold chatUpdated
  split
  · rfl
  · split <;> rfl

theorem Catalogued.chatAdded (h : Catalogued state) (summary : ChatSummary) :
    Catalogued (chatAdded state summary) where
  distinct := nodup_map_upsertWhere h.distinct summary
  defaultChat chat hchat := by
    have hmem := h.defaultChat chat hchat
    unfold resources Session.chatAdded
    rw [map_upsertWhere]
    split
    · exact hmem
    · exact List.mem_append_left _ hmem

theorem Catalogued.chatRemoved (h : Catalogued state) (removed : URI) :
    Catalogued (chatRemoved state removed) := by
  unfold Session.chatRemoved
  cases hupdated : eraseWhere (fun c => c.resource = removed) state.chats with
  | none => exact h
  | some updated =>
    refine ⟨h.distinct.sublist ((sublist_of_eraseWhere hupdated).map _), fun chat hchat => ?_⟩
    dsimp only at hchat
    split at hchat
    · cases hchat
    · next hne =>
      obtain ⟨summary, hsummary, hresource⟩ := List.mem_map.mp (h.defaultChat chat hchat)
      have hkept := mem_eraseWhere_getD_of_mem (p := fun c => decide (c.resource = removed)) hsummary
        (by
          rw [decide_eq_true_eq, hresource]
          rintro rfl
          exact hne hchat)
      rw [hupdated] at hkept
      exact List.mem_map.mpr ⟨summary, hkept, hresource⟩

theorem Catalogued.chatUpdated (h : Catalogued state) (chat : URI) (changes : PartialChatSummary) :
    Catalogued (chatUpdated state chat changes) where
  distinct := by
    rw [resources_chatUpdated]
    exact h.distinct
  defaultChat := by
    rw [resources_chatUpdated, chatUpdated_defaultChat]
    exact h.defaultChat

theorem Catalogued.chatsReordered (h : Catalogued state) (chats : List URI) :
    Catalogued (chatsReordered state chats) := by
  by_cases hperm : chats.Perm (resources state)
  · have hreordered := chatsReordered_of_perm h.distinct hperm
    have hdefault := congrArg SessionState.defaultChat hreordered.others
    refine ⟨?_, fun chat hchat => ?_⟩
    · rw [hreordered.order]
      exact hperm.nodup_iff.mpr h.distinct
    · rw [hreordered.order, hperm.mem_iff]
      exact h.defaultChat chat (hdefault ▸ hchat)
  · rw [chatsReordered_of_not_perm h.distinct hperm]
    exact h

theorem Catalogued.elsewhere {state' : SessionState Empty} (h : Catalogued state)
    (he : Elsewhere state state') : Catalogued state' := by
  have hresources : resources state' = resources state := by rw [resources, he.chats, resources]
  refine ⟨?_, ?_⟩
  · rw [hresources]
    exact h.distinct
  · rw [hresources, he.defaultChat]
    exact h.defaultChat

/-- Every action keeps the catalogue in order. -/
theorem Catalogued.step {a : SessionAction Empty} (h : Catalogued state) (hchooses : ChoosesChat state a) :
    Catalogued (sessionReducer state a) := by
  cases a with
  | chatAdded summary => exact h.chatAdded summary
  | chatRemoved chat => exact h.chatRemoved chat
  | chatUpdated chat changes => exact h.chatUpdated chat changes
  | chatsReordered chats => exact h.chatsReordered chats
  | defaultChatChanged defaultChat => exact ⟨h.distinct, hchooses⟩
  | inputNeededRemoved id =>
    simp only [sessionReducer, inputNeededRemoved]
    split
    · exact h
    · split
      · exact h
      · exact ⟨h.distinct, h.defaultChat⟩
  | inputNeededSet | isReadChanged | isArchivedChanged => exact ⟨h.distinct, h.defaultChat⟩
  | _ => exact h.elsewhere (sessionReducer_elsewhere rfl rfl)

/-- **The catalogue**: along any run in which a default chat is chosen from the catalogue, the resources
stay distinct and the default chat catalogued. A reorder by a permutation of the resources gives the
catalogue that order and changes no summary, any other is rejected; and an update changes no resource
and no provider. -/
theorem catalogue_kept (h : Catalogued state) {actions : List (SessionAction Empty)}
    (hchooses : Guarded (fun s a => some (sessionReducer s a)) ChoosesChat state actions) :
    Catalogued (actions.foldl sessionReducer state) ∧
      (∀ chats,
        (chats.Perm (resources (actions.foldl sessionReducer state)) →
          Reordered chats (actions.foldl sessionReducer state)
            (sessionReducer (actions.foldl sessionReducer state) (.chatsReordered chats))) ∧
        (¬ chats.Perm (resources (actions.foldl sessionReducer state)) →
          sessionReducer (actions.foldl sessionReducer state) (.chatsReordered chats) =
            actions.foldl sessionReducer state)) ∧
      ∀ chat changes,
        (sessionReducer (actions.foldl sessionReducer state) (.chatUpdated chat changes)).chats.map
            (fun c => (c.resource, c.provider)) =
          (actions.foldl sessionReducer state).chats.map fun c => (c.resource, c.provider) := by
  have hkept : Catalogued (actions.foldl sessionReducer state) := by
    refine runs_invariant _ (fun hi hg hs => ?_) h hchooses (runs_total sessionReducer state actions)
    cases hs
    exact hi.step hg
  exact ⟨hkept, fun chats => ⟨chatsReordered_of_perm hkept.distinct, chatsReordered_of_not_perm hkept.distinct⟩,
    chatUpdated_identities⟩

/-- A chat with no more than a resource. -/
def plainChat (resource : URI) : ChatSummary where
  resource := resource
  title := "Chat"
  status := SessionStatus.idle
  activity := none
  modifiedAt := "2025-01-01T00:00:00.000Z"
  changes := none
  origin := none
  movable := none
  interactivity := none
  provider := none
  workingDirectories := none

/-- Two chats, of which the second is the default, in reverse order. -/
theorem catalogue_kept_reversed :
    Catalogued ([.chatAdded (plainChat "ahp-chat:/a"), .chatAdded (plainChat "ahp-chat:/b"),
      .defaultChatChanged (some "ahp-chat:/b"), .chatsReordered ["ahp-chat:/b", "ahp-chat:/a"]].foldl
        sessionReducer (.new "agent" "Session")) := by
  have hnew : Catalogued (.new "agent" "Session") := ⟨List.nodup_nil, by simp [SessionState.new]⟩
  exact (catalogue_kept hnew (by decide)).1

end AgentHostProtocol.Session
