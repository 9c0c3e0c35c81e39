import AgentHostProtocol.Hosts.Catalogue
import AgentHostProtocol.Library.Feed

/-!
# Following the catalogue

The notifications that a supervisor has not handled are a feed of edits of the host's catalogue.
Until the listing is answered they lead from some store to the catalogue; from then on they lead
from what the listing leaves in the cache to the catalogue, since stale edits converge
(`Library.Patching.replay_self`). Neither runtime merges every field, though.

* `summaries_followed` — with every message read and handled the cache is the catalogue, in every
  run whose changes set fields that the runtime merges, whose event queue never overflows and whose
  listings are answered in time.
* `unmerged_fields_kept` — each runtime keeps an old value of a field that the other merges, and
  both of `defaultChat`.
-/

namespace AgentHostProtocol.Hosts.Catalogue

open Library

/-! ### Edits -/

/-- The changes of a host, as patches. -/
def patching : Patching SessionSummary PartialSessionSummary where
  merge := change
  comp p q :=
    { provider := q.provider.or p.provider
      title := q.title.or p.title
      status := q.status.or p.status
      activity := q.activity.or p.activity
      origin := q.origin.or p.origin
      project := q.project.or p.project
      workingDirectories := q.workingDirectories.or p.workingDirectories
      annotations := q.annotations.or p.annotations
      resource := q.resource.or p.resource
      createdAt := q.createdAt.or p.createdAt
      modifiedAt := q.modifiedAt.or p.modifiedAt
      changes := q.changes.or p.changes
      _meta := q._meta.or p._meta
      chats := q.chats.or p.chats
      defaultChat := q.defaultChat.or p.defaultChat }
  merge_comp v p q := by
    unfold change
    simp only [Option.or_assoc, Option.getD_or]
  merge_self v p := by
    unfold change
    simp only [← Option.or_assoc, Option.or_self, ← Option.getD_or]

/-- What a notification does to the store. -/
def edit? : Notification → Option (Edit URI SessionSummary PartialSessionSummary)
  | .sessionAdded summary => some (.put summary.resource summary)
  | .sessionRemoved session => some (.remove session)
  | .sessionSummaryChanged session changes => some (.patch session changes)
  | .other => none

/-- The store after notifications. -/
def followed (store : URI → Option SessionSummary) (ns : List Notification) :
    URI → Option SessionSummary :=
  patching.follow store (ns.filterMap edit?)

@[simp] theorem followed_nil (store : URI → Option SessionSummary) : followed store [] = store := rfl

theorem followed_append (store : URI → Option SessionSummary) (ns ms : List Notification) :
    followed store (ns ++ ms) = followed (followed store ns) ms := by
  unfold followed
  rw [List.filterMap_append, patching.follow_append]

theorem followed_cons (store : URI → Option SessionSummary) (n : Notification)
    (ns : List Notification) : followed store (n :: ns) = followed (followed store [n]) ns :=
  followed_append store [n] ns

/-- The runtime merges what the notification changes. -/
def Notification.MergedBy (runtime : Runtime) : Notification → Prop
  | .sessionSummaryChanged _ changes => runtime.Merges changes ∧ changes.Mutable
  | _ => True

/-- A change of merged fields is merged as the host made it. -/
theorem merge_eq_change {runtime : Runtime} {c : PartialSessionSummary} (hmerges : runtime.Merges c)
    (hmutable : c.Mutable) (existing : SessionSummary) :
    runtime.merge existing c = change existing c := by
  obtain ⟨-, hprovider, hcreated⟩ := hmutable
  cases runtime with
  | typeScript =>
    obtain ⟨hannotations, hchanges, hdefault⟩ := hmerges
    simp [Runtime.merge, applySummaryChange, change, hannotations, hchanges, hdefault]
  | rust =>
    obtain ⟨hmeta, hdefault⟩ := hmerges
    simp [Runtime.merge, applySummaryChanges, change, hmeta, hdefault, hprovider, hcreated]

/-- A write under a key, as a function. -/
theorem get?_set_eq_update (r : Record SessionSummary) (k : URI) (v : SessionSummary) :
    (r.set k v).get? = Function.update r.get? k (some v) := by
  funext k'
  rw [Record.get?_set, Function.update_apply]

theorem get?_delete_eq_update (r : Record SessionSummary) (k : URI) :
    (r.delete k).get? = Function.update r.get? k none := by
  funext k'
  rw [Record.get?_delete, Function.update_apply]

/-- `handleEvent` makes the edit. -/
theorem get?_handle {runtime : Runtime} {n : Notification} (hn : n.MergedBy runtime)
    (cache : Record SessionSummary) : (handle runtime cache n).get? = followed cache.get? [n] := by
  cases n with
  | sessionAdded summary => exact get?_set_eq_update cache _ _
  | sessionRemoved session => exact get?_delete_eq_update cache _
  | sessionSummaryChanged session changes =>
    obtain ⟨hmerges, hmutable⟩ := hn
    show _ = Function.update cache.get? session ((cache.get? session).map fun v => change v changes)
    cases hget : cache.get? session with
    | none =>
      simp only [handle, hget, Option.map_none]
      rw [← hget, Function.update_eq_self]
    | some existing =>
      simp only [handle, hget, Option.map_some]
      rw [get?_set_eq_update, merge_eq_change hmerges hmutable]
  | other => rfl

/-! ### The listing -/

/-- Every session is kept under its URI. -/
def Keyed (r : Record SessionSummary) : Prop := ∀ k v, r.get? k = some v → v.resource = k

theorem Keyed.set {r : Record SessionSummary} (h : Keyed r) {k : URI} {v : SessionSummary}
    (hv : v.resource = k) : Keyed (r.set k v) := by
  intro k' w hw
  rw [Record.get?_set] at hw
  split at hw
  next hk =>
    cases hw
    rw [hv, hk]
  next => exact h k' w hw

theorem Keyed.delete {r : Record SessionSummary} (h : Keyed r) (k : URI) : Keyed (r.delete k) := by
  intro k' w hw
  rw [Record.get?_delete] at hw
  split at hw
  next => cases hw
  next => exact h k' w hw

/-- What the listing of a catalogue leaves in the cache is the catalogue. -/
theorem refresh_listing {r : Record SessionSummary} (h : Keyed r) :
    refresh (r.entries.map Prod.snd) = r := by
  have hmerge := Record.empty_merge r
  unfold Record.merge at hmerge
  unfold refresh
  rw [List.foldl_map]
  refine Eq.trans ?_ hmerge
  refine List.foldl_ext _ _ _ fun cache e he => ?_
  rw [h e.1 e.2 (Record.mem_entries.mp he)]

/-! ### The notifications to come -/

/-- The notification of a message. -/
def notification? : Message → Option Notification
  | .notification n => some n
  | _ => none

/-- The listing of a message. -/
def items? : Message → Option (List SessionSummary)
  | .sessions items => some items
  | _ => none

/-- What was sent on the connection and not handled, oldest first. -/
def pending (s : System) : List Notification := s.events ++ s.inbound.filterMap notification?

/-- The listings on the wire. -/
def listings (s : System) : List (List SessionSummary) := s.inbound.filterMap items?

/-- The store that the pending notifications start from, by where the connection is. -/
inductive Base (s : System) : (URI → Option SessionSummary) → Prop where
  /-- The host has not accepted a handshake. -/
  | unfed {store : URI → Option SessionSummary}
      (hphase : s.phase = .reconnecting ∨ s.phase = .initializing)
      (hrequest : s.request ≠ some .listSessions) (hfeeding : s.feeding = false)
      (hevents : s.events = []) (hinbound : ∀ m ∈ s.inbound, m = .refused) : Base s store
  /-- It has, and the result was not read. -/
  | greeted {store : URI → Option SessionSummary}
      (hphase : s.phase = .reconnecting ∨ s.phase = .initializing)
      (hrequest : s.request ≠ some .listSessions) (hfeeding : s.feeding = true)
      (hlistings : listings s = []) : Base s store
  | asked {store : URI → Option SessionSummary} (hphase : s.phase = .refreshing)
      (hrequest : s.request = some .listSessions) (hfeeding : s.feeding = true)
      (hlistings : listings s = []) : Base s store
  | listed (items : List SessionSummary) (hphase : s.phase = .refreshing)
      (hrequest : s.request = none) (hfeeding : s.feeding = true)
      (hlistings : listings s = [items]) : Base s (refresh items).get?
  | refreshed (items : List SessionSummary) (hphase : s.phase = .refreshed (some items))
      (hrequest : s.request = none) (hfeeding : s.feeding = true)
      (hlistings : listings s = []) : Base s (refresh items).get?
  | connected (hphase : s.phase = .connected) (hrequest : s.request = none)
      (hfeeding : s.feeding = true) (hlistings : listings s = []) : Base s s.sessionSummaries.get?

/-- The pending notifications lead to the catalogue. -/
def Current (s : System) : Prop := ∃ store, Base s store ∧ followed store (pending s) = s.catalogue.get?

/-- The invariant. -/
structure Inv (runtime : Runtime) (s : System) : Prop where
  keyed : Keyed s.catalogue
  merged : ∀ n ∈ pending s, n.MergedBy runtime
  current : s.phase ≠ .absent → s.closed = false → Current s

/-- The condition on a step: a change sets fields that the runtime merges, the event queue has
room, and `listSessions` is answered in time. -/
def Meets (runtime : Runtime) (s : System) : Step → Prop
  | .changeSession _ changes => runtime.Merges changes
  | .receive => s.events.length < s.bufferLimit
  | .loseListing => False
  | _ => True

instance (runtime : Runtime) (s : System) (a : Step) : Decidable (Meets runtime s a) := by
  cases a <;> unfold Meets <;> infer_instance

variable {runtime : Runtime} {s s' : System}

theorem inv_new (runtime : Runtime) (bufferLimit : ℕ) : Inv runtime (System.new bufferLimit) where
  keyed k v h := by cases h
  merged n h := by cases h
  current h := absurd rfl h

/-! ### Messages of the host -/

theorem filterMap_concat_some {α β : Type} {f : α → Option β} {l : List α} {a : α} {b : β}
    (h : f a = some b) : (l ++ [a]).filterMap f = l.filterMap f ++ [b] := by
  rw [List.filterMap_append]
  simp [h]

theorem filterMap_concat_none {α β : Type} {f : α → Option β} {l : List α} {a : α}
    (h : f a = none) : (l ++ [a]).filterMap f = l.filterMap f := by
  rw [List.filterMap_append]
  simp [h]

/-- A notification of a fed connection comes last, and everything else stays. -/
theorem Base.notified {store : URI → Option SessionSummary} (h : Base s store) (n : Notification)
    (r : Record SessionSummary) (hfeeding : s.feeding = true) :
    Base { s with catalogue := r, inbound := s.inbound ++ [.notification n] } store := by
  have hlistings : ∀ {l : List (List SessionSummary)}, listings s = l →
      (s.inbound ++ [Message.notification n]).filterMap items? = l := fun hl =>
    (filterMap_concat_none rfl).trans hl
  cases h with
  | unfed hphase hrequest hunfed => rw [hfeeding] at hunfed; cases hunfed
  | greeted hphase hrequest hfed hl => exact .greeted hphase hrequest hfed (hlistings hl)
  | asked hphase hrequest hfed hl => exact .asked hphase hrequest hfed (hlistings hl)
  | listed items hphase hrequest hfed hl => exact .listed _ hphase hrequest hfed (hlistings hl)
  | refreshed items hphase hrequest hfed hl => exact .refreshed _ hphase hrequest hfed (hlistings hl)
  | connected hphase hrequest hfed hl => exact .connected hphase hrequest hfed (hlistings hl)

/-- The host changes its catalogue by an edit, and says so if the connection is up. -/
theorem Inv.notify (h : Inv runtime s) {n : Notification} (hn : n.MergedBy runtime)
    {r : Record SessionSummary} (hr : Keyed r) (hedit : r.get? = followed s.catalogue.get? [n]) :
    Inv runtime (notify { s with catalogue := r } n) := by
  unfold Catalogue.notify
  split
  next hfeeding =>
    have hpending : pending { s with catalogue := r, inbound := s.inbound ++ [.notification n] } =
        pending s ++ [n] := by
      unfold pending
      rw [List.append_assoc]
      exact congrArg _ (filterMap_concat_some rfl)
    refine ⟨hr, fun m hm => ?_, fun hphase hopen => ?_⟩
    · rw [hpending] at hm
      rcases List.mem_append.mp hm with hm | hm
      · exact h.merged m hm
      · rw [List.mem_singleton.mp hm]
        exact hn
    · obtain ⟨store, hbase, hfollow⟩ := h.current hphase hopen
      refine ⟨store, hbase.notified n r hfeeding, ?_⟩
      rw [hpending, followed_append, hfollow]
      exact hedit.symm
  next hunfed =>
    refine ⟨hr, h.merged, fun hphase hopen => ?_⟩
    obtain ⟨store, hbase, hfollow⟩ := h.current hphase hopen
    cases hbase with
    | unfed hphase hrequest hfeeding hevents hinbound =>
      -- nothing is pending, so that any store will do
      have hnone : s.inbound.filterMap notification? = [] :=
        List.filterMap_eq_nil_iff.mpr fun m hm => by rw [hinbound m hm]; rfl
      refine ⟨r.get?, .unfed hphase hrequest hfeeding hevents hinbound, ?_⟩
      show followed r.get? (s.events ++ s.inbound.filterMap notification?) = r.get?
      rw [hevents, hnone]
      rfl
    | greeted _ _ hfeeding => exact absurd hfeeding hunfed
    | asked _ _ hfeeding => exact absurd hfeeding hunfed
    | listed _ _ _ hfeeding => exact absurd hfeeding hunfed
    | refreshed _ _ _ hfeeding => exact absurd hfeeding hunfed
    | connected _ _ hfeeding => exact absurd hfeeding hunfed

theorem Inv.addSession (h : Inv runtime s) (summary : SessionSummary) :
    Inv runtime (addSession s summary) :=
  h.notify (n := .sessionAdded summary) trivial (h.keyed.set rfl) (get?_set_eq_update _ _ _)

theorem Inv.removeSession (h : Inv runtime s) (session : URI) :
    Inv runtime (removeSession s session) :=
  h.notify (n := .sessionRemoved session) trivial (h.keyed.delete session) (get?_delete_eq_update _ _)

theorem Inv.changeSession (h : Inv runtime s) {session : URI} {changes : PartialSessionSummary}
    (hmerges : runtime.Merges changes) (hs : changeSession s session changes = some s') :
    Inv runtime s' := by
  unfold Catalogue.changeSession at hs
  split at hs
  next existing hget =>
    split at hs
    next hmutable =>
      cases hs
      have hresource : (change existing changes).resource = session := h.keyed session existing hget
      refine h.notify (n := .sessionSummaryChanged session changes) ⟨hmerges, hmutable⟩
        (h.keyed.set hresource) ?_
      rw [get?_set_eq_update]
      show _ = Function.update s.catalogue.get? session
        ((s.catalogue.get? session).map fun v => change v changes)
      rw [hget]
      rfl
    next => cases hs
  next => cases hs

theorem Inv.emit (h : Inv runtime s) : Inv runtime (Catalogue.notify s .other) :=
  h.notify (n := .other) (r := s.catalogue) trivial h.keyed rfl

/-- An answer of the host is no notification. -/
theorem pending_answered {m : Message} (hm : notification? m = none) (request : Option Request)
    (feeding : Bool) :
    pending { s with request := request, feeding := feeding, inbound := s.inbound ++ [m] } = pending s := by
  unfold pending
  rw [filterMap_concat_none hm]

/-- The host answers a handshake. -/
theorem Inv.answered (h : Inv runtime s) {m : Message} (hm : m = .result ∨ m = .refused)
    (hrequest : s.request ≠ none) (hlisting : s.request ≠ some .listSessions) :
    Inv runtime
      { s with
        request := none
        feeding := if m = .result then true else s.feeding
        inbound := s.inbound ++ [m] } := by
  have hnotification : notification? m = none := by rcases hm with rfl | rfl <;> rfl
  have hitems : items? m = none := by rcases hm with rfl | rfl <;> rfl
  have hpending := pending_answered (s := s) hnotification none (if m = .result then true else s.feeding)
  refine ⟨h.keyed, fun n hn => h.merged n (hpending ▸ hn), fun hpresent hopen => ?_⟩
  obtain ⟨store, hbase, hfollow⟩ := h.current hpresent hopen
  refine ⟨store, ?_, hpending ▸ hfollow⟩
  cases hbase with
  | unfed hphase _ hfeeding hevents hinbound =>
    rcases hm with rfl | rfl
    · refine .greeted hphase nofun rfl ?_
      refine (filterMap_concat_none hitems).trans ?_
      exact List.filterMap_eq_nil_iff.mpr fun m hm => by rw [hinbound m hm]; rfl
    · refine .unfed hphase nofun hfeeding hevents fun m hm => ?_
      rcases List.mem_append.mp hm with hm | hm
      · exact hinbound m hm
      · exact List.mem_singleton.mp hm
  | greeted hphase _ hfeeding hlistings =>
    refine .greeted hphase nofun ?_ ((filterMap_concat_none hitems).trans hlistings)
    show (if m = .result then true else s.feeding) = true
    rw [hfeeding, ite_self]
  | asked _ hasked => exact absurd hasked hlisting
  | listed _ _ hnone => exact absurd hnone hrequest
  | refreshed _ _ hnone => exact absurd hnone hrequest
  | connected _ hnone => exact absurd hnone hrequest

/-- The host answers `listSessions`: with what is pending leading to the catalogue, it leads from
the catalogue to the catalogue. -/
theorem Inv.listed (h : Inv runtime s) (hrequest : s.request = some .listSessions) :
    Inv runtime
      { s with
        request := none
        inbound := s.inbound ++ [.sessions (s.catalogue.entries.map Prod.snd)] } := by
  have hpending := pending_answered (s := s) (m := .sessions (s.catalogue.entries.map Prod.snd)) rfl
    none s.feeding
  refine ⟨h.keyed, fun n hn => h.merged n (hpending ▸ hn), fun hpresent hopen => ?_⟩
  obtain ⟨store, hbase, hfollow⟩ := h.current hpresent hopen
  cases hbase with
  | asked hphase _ hfeeding hlistings =>
    refine ⟨(refresh (s.catalogue.entries.map Prod.snd)).get?, .listed _ hphase rfl hfeeding ?_, ?_⟩
    · refine (filterMap_concat_some (f := items?) rfl).trans ?_
      show listings s ++ _ = _
      rw [hlistings, List.nil_append]
    · rw [hpending, refresh_listing h.keyed]
      show followed s.catalogue.get? (pending s) = s.catalogue.get?
      rw [← hfollow]
      exact patching.replay_self store _
  | unfed _ hother => exact absurd hrequest hother
  | greeted _ hother => exact absurd hrequest hother
  | listed _ _ hnone => rw [hrequest] at hnone; cases hnone
  | refreshed _ _ hnone => rw [hrequest] at hnone; cases hnone
  | connected _ hnone => rw [hrequest] at hnone; cases hnone

theorem Inv.answer (h : Inv runtime s) {accept : Bool} (hs : answer s accept = some s') :
    Inv runtime s' := by
  unfold Catalogue.answer at hs
  split at hs
  next => cases hs
  next hrequest =>
    cases hs
    exact h.listed hrequest
  next request hlisting hrequest =>
    have hsome : s.request ≠ none := by rw [hrequest]; nofun
    have hother : s.request ≠ some .listSessions := by
      rw [hrequest]
      rintro heq
      exact hlisting (Option.some.inj heq)
    split at hs
    next =>
      cases hs
      exact h.answered (.inl rfl) hsome hother
    next =>
      cases hs
      exact h.answered (.inr rfl) hsome hother

/-! ### The client -/

/-- With no connection there is nothing to follow. -/
theorem Inv.absent (h : Inv runtime s) : Inv runtime (dropClient s) where
  keyed := h.keyed
  merged n hn := by cases hn
  current hphase := absurd rfl hphase

/-- A closed connection gives nothing up that is not read. -/
theorem Inv.closed (h : Inv runtime s) (phase : Phase) :
    Inv runtime
      { s with feeding := false, request := none, inbound := [], closed := true, phase := phase } where
  keyed := h.keyed
  merged n hn := by
    refine h.merged n (List.mem_append_left _ ?_)
    exact (List.append_nil s.events) ▸ hn
  current _ hopen := by cases hopen

theorem Inv.closeTransport (h : Inv runtime s) : Inv runtime (closeTransport s) := by
  unfold Catalogue.closeTransport
  split
  next => exact h
  next => exact h.absent
  next => exact h.absent
  next => exact h.closed _
  next => exact h.closed _
  next => exact h.closed _

theorem Inv.connectOnce (h : Inv runtime s) {canReconnect : Bool}
    (hs : connectOnce s canReconnect = some s') : Inv runtime s' := by
  unfold Catalogue.connectOnce at hs
  split at hs
  next =>
    cases hs
    refine ⟨h.keyed, (fun n hn => by cases hn), fun _ _ => ⟨s.catalogue.get?, ?_, rfl⟩⟩
    refine .unfed ?_ ?_ rfl rfl fun m hm => by cases hm
    · cases canReconnect
      · exact .inr rfl
      · exact .inl rfl
    · cases canReconnect <;> nofun
  next => cases hs

theorem Inv.commit (h : Inv runtime s) (hs : commit s = some s') : Inv runtime s' := by
  unfold Catalogue.commit at hs
  split at hs
  next hphase =>
    cases hs
    refine ⟨h.keyed, h.merged, fun _ hopen => ?_⟩
    obtain ⟨store, hbase, -⟩ := h.current (by rw [hphase]; nofun) hopen
    cases hbase <;> simp_all
  next items hphase =>
    cases hs
    refine ⟨h.keyed, h.merged, fun _ hopen => ?_⟩
    obtain ⟨store, hbase, hfollow⟩ := h.current (by rw [hphase]; nofun) hopen
    cases hbase with
    | refreshed items' hphase' hrequest hfeeding hlistings =>
      rw [hphase] at hphase'
      cases hphase'
      exact ⟨_, .connected rfl hrequest hfeeding hlistings, hfollow⟩
    | _ => simp_all
  next => cases hs

/-- A step of the connected supervisor on its events. -/
theorem Inv.handleEvent (h : Inv runtime s) (hs : handleEvent runtime s = some s') : Inv runtime s' := by
  unfold Catalogue.handleEvent at hs
  split at hs
  next n events hphase hevents =>
    cases hs
    have hpending : pending s = n :: (events ++ s.inbound.filterMap notification?) := by
      unfold pending
      rw [hevents, List.cons_append]
    refine ⟨h.keyed, fun m hm => h.merged m (hpending ▸ List.mem_cons_of_mem _ hm), fun _ hopen => ?_⟩
    obtain ⟨store, hbase, hfollow⟩ := h.current (by rw [hphase]; nofun) hopen
    cases hbase with
    | connected _ hrequest hfeeding hlistings =>
      refine ⟨_, .connected hphase hrequest hfeeding hlistings, ?_⟩
      show followed (handle runtime s.sessionSummaries n).get?
        (events ++ s.inbound.filterMap notification?) = _
      rw [get?_handle (h.merged n (hpending ▸ List.mem_cons_self)), ← followed_cons, ← hpending]
      exact hfollow
    | _ => simp_all
  next => cases hs

theorem Inv.endConnection (h : Inv runtime s) {manualReconnect : Bool}
    (hs : endConnection s manualReconnect = some s') : Inv runtime s' := by
  unfold Catalogue.endConnection at hs
  split at hs
  next =>
    split at hs
    next =>
      cases hs
      exact h.absent
    next => cases hs
  next => cases hs

theorem Inv.abortConnect (h : Inv runtime s) (hs : abortConnect s = some s') : Inv runtime s' := by
  unfold Catalogue.abortConnect at hs
  split at hs
  next => cases hs
  next => cases hs
  next =>
    cases hs
    exact h.absent

/-- A push to a queue with room. -/
theorem pushBounded_of_lt {limit : ℕ} {events : List Notification} (n : Notification)
    (hroom : events.length < limit) : pushBounded limit events n = events ++ [n] := by
  unfold pushBounded
  have hzero : (events ++ [n]).length - limit = 0 := by
    rw [List.length_append, List.length_singleton]
    omega
  rw [hzero, List.drop_zero]

/-- A notification that is read is still pending. -/
theorem Inv.readNotification (h : Inv runtime s) {n : Notification} {inbound : List Message}
    (hinbound : s.inbound = .notification n :: inbound) :
    Inv runtime { s with inbound := inbound, events := s.events ++ [n] } := by
  have hpending : pending { s with inbound := inbound, events := s.events ++ [n] } = pending s := by
    unfold pending
    rw [hinbound, List.append_assoc]
    rfl
  have hlistings : listings { s with inbound := inbound, events := s.events ++ [n] } = listings s := by
    unfold listings
    rw [hinbound]
    rfl
  refine ⟨h.keyed, fun m hm => h.merged m (hpending ▸ hm), fun hpresent hopen => ?_⟩
  obtain ⟨store, hbase, hfollow⟩ := h.current hpresent hopen
  refine ⟨store, ?_, hpending ▸ hfollow⟩
  cases hbase with
  | unfed _ _ _ _ hrefused =>
    have hhead := hrefused (.notification n) (hinbound ▸ List.mem_cons_self)
    cases hhead
  | greeted hphase hrequest hfed hl => exact .greeted hphase hrequest hfed (hlistings.trans hl)
  | asked hphase hrequest hfed hl => exact .asked hphase hrequest hfed (hlistings.trans hl)
  | listed items hphase hrequest hfed hl => exact .listed _ hphase hrequest hfed (hlistings.trans hl)
  | refreshed items hphase hrequest hfed hl =>
    exact .refreshed _ hphase hrequest hfed (hlistings.trans hl)
  | connected hphase hrequest hfed hl => exact .connected hphase hrequest hfed (hlistings.trans hl)

section Handshake

variable {m : Message} {inbound : List Message}

/-- An answer that is read was not pending. -/
theorem pending_tail (hinbound : s.inbound = m :: inbound) (hm : notification? m = none)
    (phase : Phase) (request : Option Request) :
    pending { s with inbound := inbound, phase := phase, request := request } = pending s := by
  unfold pending
  rw [hinbound, List.filterMap_cons_none hm]

theorem listings_tail (hinbound : s.inbound = m :: inbound) (hm : items? m = none)
    (phase : Phase) (request : Option Request) :
    listings { s with inbound := inbound, phase := phase, request := request } = listings s := by
  unfold listings
  rw [hinbound, List.filterMap_cons_none hm]

/-- A handshake that was answered already is not answered again. -/
theorem Inv.skip (h : Inv runtime s) (hinbound : s.inbound = m :: inbound)
    (hm : notification? m = none) (hitems : items? m = none)
    (hphase : s.phase ≠ .reconnecting ∧ s.phase ≠ .initializing) :
    Inv runtime { s with inbound := inbound } := by
  have hpending := pending_tail hinbound hm s.phase s.request
  have hlistings := listings_tail hinbound hitems s.phase s.request
  refine ⟨h.keyed, fun n hn => h.merged n (hpending ▸ hn), fun hpresent hopen => ?_⟩
  obtain ⟨store, hbase, hfollow⟩ := h.current hpresent hopen
  refine ⟨store, ?_, hpending ▸ hfollow⟩
  cases hbase with
  | unfed hhandshake => exact absurd hhandshake (not_or.mpr hphase)
  | greeted hhandshake => exact absurd hhandshake (not_or.mpr hphase)
  | asked hphase hrequest hfed hl => exact .asked hphase hrequest hfed (hlistings.trans hl)
  | listed items hphase hrequest hfed hl => exact .listed _ hphase hrequest hfed (hlistings.trans hl)
  | refreshed items hphase hrequest hfed hl =>
    exact .refreshed _ hphase hrequest hfed (hlistings.trans hl)
  | connected hphase hrequest hfed hl => exact .connected hphase hrequest hfed (hlistings.trans hl)

/-- The result of a handshake was sent by a host that feeds the connection. -/
theorem Inv.greeted (h : Inv runtime s) (hinbound : s.inbound = .result :: inbound)
    (hhandshake : s.phase = .reconnecting ∨ s.phase = .initializing) :
    Inv runtime { s with inbound := inbound, phase := .refreshing, request := some .listSessions } := by
  have hpending := pending_tail hinbound rfl .refreshing (some .listSessions)
  have hlistings := listings_tail hinbound rfl .refreshing (some .listSessions)
  refine ⟨h.keyed, fun n hn => h.merged n (hpending ▸ hn), fun _ hopen => ?_⟩
  have hpresent : s.phase ≠ .absent := by rcases hhandshake with hp | hp <;> rw [hp] <;> nofun
  obtain ⟨store, hbase, hfollow⟩ := h.current hpresent hopen
  refine ⟨store, ?_, hpending ▸ hfollow⟩
  cases hbase with
  | unfed _ _ _ _ hrefused =>
    have hhead := hrefused .result (hinbound ▸ List.mem_cons_self)
    cases hhead
  | greeted _ _ hfeeding hl => exact .asked rfl rfl hfeeding (hlistings.trans hl)
  | _ => simp_all

/-- The refusal of `reconnect` is read: the fallback is a handshake too. -/
theorem Inv.refused (h : Inv runtime s) (hinbound : s.inbound = .refused :: inbound)
    (hphase : s.phase = .reconnecting) :
    Inv runtime { s with inbound := inbound, phase := .initializing, request := some .initializing } := by
  have hpending := pending_tail hinbound rfl .initializing (some .initializing)
  have hlistings := listings_tail hinbound rfl .initializing (some .initializing)
  refine ⟨h.keyed, fun n hn => h.merged n (hpending ▸ hn), fun _ hopen => ?_⟩
  obtain ⟨store, hbase, hfollow⟩ := h.current (by rw [hphase]; nofun) hopen
  refine ⟨store, ?_, hpending ▸ hfollow⟩
  cases hbase with
  | unfed _ _ hfeeding hevents hrefused =>
    refine .unfed (.inr rfl) nofun hfeeding hevents fun m hm => ?_
    exact hrefused m (hinbound ▸ List.mem_cons_of_mem _ hm)
  | greeted _ _ hfeeding hl => exact .greeted (.inr rfl) nofun hfeeding (hlistings.trans hl)
  | _ => simp_all

/-- A listing on the wire is the one that was asked for. -/
theorem Base.of_sessions {store : URI → Option SessionSummary} (h : Base s store)
    {items : List SessionSummary} (hinbound : s.inbound = .sessions items :: inbound) :
    s.phase = .refreshing ∧ s.request = none ∧ s.feeding = true ∧ store = (refresh items).get? ∧
      inbound.filterMap items? = [] := by
  have hlistings : listings s = items :: inbound.filterMap items? := by
    unfold listings
    rw [hinbound]
    rfl
  cases h with
  | unfed _ _ _ _ hrefused =>
    have hhead := hrefused (.sessions items) (hinbound ▸ List.mem_cons_self)
    cases hhead
  | listed items' hphase hrequest hfed hl =>
    obtain ⟨rfl, htail⟩ := List.cons.inj (hlistings.symm.trans hl)
    exact ⟨hphase, hrequest, hfed, rfl, htail⟩
  | greeted _ _ _ hl => cases hlistings.symm.trans hl
  | asked _ _ _ hl => cases hlistings.symm.trans hl
  | refreshed _ _ _ _ hl => cases hlistings.symm.trans hl
  | connected _ _ _ hl => cases hlistings.symm.trans hl

/-- The listing is read. -/
theorem Inv.readSessions (h : Inv runtime s) {items : List SessionSummary}
    (hinbound : s.inbound = .sessions items :: inbound) :
    Inv runtime (readSessions { s with inbound := inbound } items) := by
  have hpending := fun phase => pending_tail hinbound rfl phase s.request
  unfold Catalogue.readSessions
  split
  next hphase =>
    refine ⟨h.keyed, fun n hn => h.merged n (hpending _ ▸ hn), fun _ hopen => ?_⟩
    obtain ⟨store, hbase, hfollow⟩ := h.current (fun ha => by cases hphase.symm.trans ha) hopen
    obtain ⟨-, hrequest, hfeeding, rfl, htail⟩ := hbase.of_sessions hinbound
    exact ⟨_, .refreshed items rfl hrequest hfeeding htail, hpending _ ▸ hfollow⟩
  next hphase =>
    refine ⟨h.keyed, fun n hn => h.merged n (hpending s.phase ▸ hn), fun hpresent hopen => ?_⟩
    obtain ⟨store, hbase, -⟩ := h.current hpresent hopen
    exact absurd (hbase.of_sessions hinbound).1 hphase

end Handshake

theorem Inv.receive (h : Inv runtime s) (hroom : s.events.length < s.bufferLimit)
    (hs : receive s = some s') : Inv runtime s' := by
  unfold Catalogue.receive at hs
  split at hs
  next => cases hs
  next message inbound hinbound =>
    cases hs
    cases message with
    | result =>
      show Inv runtime (readResult _)
      unfold readResult
      split
      next hphase => exact h.greeted hinbound (.inl hphase)
      next hphase => exact h.greeted hinbound (.inr hphase)
      next hreconnecting hinitializing => exact h.skip hinbound rfl rfl ⟨hreconnecting, hinitializing⟩
    | refused =>
      show Inv runtime (readRefused _)
      unfold readRefused
      split
      next hphase => exact h.refused hinbound hphase
      next =>
        exact ⟨h.keyed, (fun n hn => by cases hn), fun hpresent => absurd rfl hpresent⟩
      next hreconnecting hinitializing => exact h.skip hinbound rfl rfl ⟨hreconnecting, hinitializing⟩
    | sessions items => exact h.readSessions hinbound
    | notification n =>
      show Inv runtime
        { s with inbound := inbound, events := pushBounded s.bufferLimit s.events n }
      rw [pushBounded_of_lt n hroom]
      exact h.readNotification hinbound

/-! ### Runs -/

theorem inv_step {a : Step} (h : Inv runtime s) (ha : Meets runtime s a)
    (hs : step runtime s a = some s') : Inv runtime s' := by
  cases a with
  | connectOnce canReconnect => exact h.connectOnce hs
  | commit => exact h.commit hs
  | abortConnect => exact h.abortConnect hs
  | loseListing => exact absurd ha id
  | closeTransport => cases hs; exact h.closeTransport
  | handleEvent => exact h.handleEvent hs
  | endConnection manualReconnect => exact h.endConnection hs
  | receive => exact h.receive ha hs
  | answer accept => exact h.answer hs
  | addSession summary => cases hs; exact h.addSession summary
  | removeSession session => cases hs; exact h.removeSession session
  | changeSession session changes => exact h.changeSession ha hs
  | emit => cases hs; exact h.emit

/-- The connection is up, and every message was read and handled. -/
def Settled (s : System) : Prop :=
  s.phase = .connected ∧ s.closed = false ∧ s.inbound = [] ∧ s.events = []
  deriving Decidable

/-- **The cache is the catalogue** of the host whenever every message was read and handled, in every
run that meets the condition. -/
theorem summaries_followed (runtime : Runtime) (bufferLimit : ℕ) {steps : List Step} {s : System}
    (hmeets : Guarded (step runtime) (Meets runtime) (System.new bufferLimit) steps)
    (hrun : runs (step runtime) (System.new bufferLimit) steps = some s) (hsettled : Settled s)
    (session : URI) : s.sessionSummaries.get? session = s.catalogue.get? session := by
  obtain ⟨hphase, hopen, hinbound, hevents⟩ := hsettled
  have hinv := runs_invariant (step runtime) (fun h ha hs => inv_step h ha hs)
    (inv_new runtime bufferLimit) hmeets hrun
  obtain ⟨store, hbase, hfollow⟩ := hinv.current (by rw [hphase]; nofun) hopen
  have hpending : pending s = [] := by
    unfold pending
    rw [hevents, hinbound]
    rfl
  rw [hpending, followed_nil] at hfollow
  cases hbase with
  | connected => exact congrFun hfollow session
  | _ => simp_all

/-- A summary with nothing but what it must have. -/
def summaryOf (resource : URI) : SessionSummary where
  provider := "agent"
  title := "Session"
  status := 1
  activity := none
  origin := none
  project := none
  workingDirectories := none
  annotations := none
  resource := resource
  createdAt := "2025-03-10T18:42:03.123Z"
  modifiedAt := "2025-03-10T18:42:03.123Z"
  changes := none
  _meta := none
  chats := none
  defaultChat := none

/-- A listing with a session whose title changed before it and again behind it. -/
def listsBetweenChanges : List Step :=
  [.addSession (summaryOf "ahp-session:/s"), .connectOnce false, .answer true,
    .changeSession "ahp-session:/s" { PartialSessionSummary.empty with title := some "First" },
    .receive, .receive, .answer true,
    .changeSession "ahp-session:/s" { PartialSessionSummary.empty with title := some "Second" },
    .receive, .receive, .commit, .handleEvent, .handleEvent]

theorem summaries_followed_between :
    ∃ s, runs (step .rust) (System.new 4096) listsBetweenChanges = some s ∧
      s.sessionSummaries.get? "ahp-session:/s" = s.catalogue.get? "ahp-session:/s" := by
  refine ⟨_, rfl, ?_⟩
  have hmeets : Guarded (step .rust) (Meets .rust) (System.new 4096) listsBetweenChanges := by
    decide +kernel
  exact summaries_followed .rust 4096 hmeets rfl (by decide +kernel) _

/-- A supervisor connects, the host changes a session, and the change is handled. -/
def hearsChange (changes : PartialSessionSummary) : List Step :=
  [.addSession (summaryOf "ahp-session:/s"), .connectOnce false, .answer true, .receive, .answer true,
    .receive, .commit, .changeSession "ahp-session:/s" changes, .receive, .handleEvent]

/-- The cache has an old value of a field once everything is handled. -/
def KeepsOld (runtime : Runtime) (changes : PartialSessionSummary) : Prop :=
  ∃ s, runs (step runtime) (System.new 4096) (hearsChange changes) = some s ∧ Settled s ∧
    s.sessionSummaries.get? "ahp-session:/s" ≠ s.catalogue.get? "ahp-session:/s"

/-- TypeScript never merges `annotations`, `changes` and `defaultChat`; Rust never merges `_meta`
and `defaultChat`. -/
theorem unmerged_fields_kept :
    KeepsOld .typeScript { PartialSessionSummary.empty with annotations := some ⟨"\x7b\x7d"⟩ } ∧
      KeepsOld .typeScript { PartialSessionSummary.empty with changes := some ⟨"\x7b\x7d"⟩ } ∧
      KeepsOld .typeScript { PartialSessionSummary.empty with defaultChat := some "ahp-chat:/c" } ∧
      KeepsOld .rust { PartialSessionSummary.empty with _meta := some ⟨"\x7b\x7d"⟩ } ∧
      KeepsOld .rust { PartialSessionSummary.empty with defaultChat := some "ahp-chat:/c" } := by
  refine ⟨⟨_, rfl, ?_⟩, ⟨_, rfl, ?_⟩, ⟨_, rfl, ?_⟩, ⟨_, rfl, ?_⟩, _, rfl, ?_⟩ <;>
    exact ⟨by decide +kernel, by decide +kernel⟩

end AgentHostProtocol.Hosts.Catalogue
