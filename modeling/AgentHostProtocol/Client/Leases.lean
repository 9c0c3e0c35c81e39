import AgentHostProtocol.Client.ManagedSubscriptions
import AgentHostProtocol.Library.Lists

/-!
# Leases and the wire

What a manager of subscriptions says on the wire against what it holds. The client half of the
invariant is `ClientOk held c`: the messages of every URI alternate, and on an open connection
the last one of a URI is `subscribe` exactly if the URI is `held`. `subscribe` and `unsubscribe`
move a URI into and out of `held`. The manager half is `Ok`: the URIs held are those of the map,
and a current entry has a holder with a live lease and, on an open connection, a live source, so
that its `pump` cannot end.

* `subscriptions_alternate` — the four parts of this over every run.
-/

namespace AgentHostProtocol.Client.ManagedSubscriptions

open Library Requests

/-! ### Messages of a URI -/

/-- What a message does. -/
inductive Kind where
  | subscribe
  | unsubscribe
  deriving DecidableEq

/-- The other kind. -/
def Kind.other : Kind → Kind
  | .subscribe => .unsubscribe
  | .unsubscribe => .subscribe

/-- The kinds alternate, the first being `k`. -/
def AlternatesFrom : Kind → List Kind → Prop
  | _, [] => True
  | k, k' :: rest => k' = k ∧ AlternatesFrom k.other rest

/-- The URI and the kind of a message. -/
def WireMessage.parts : WireMessage → URI × Kind
  | .subscribe channel _ => (channel, .subscribe)
  | .unsubscribe channel => (channel, .unsubscribe)

/-- The kinds of the messages of a URI, in order. -/
def messagesOf (wire : List WireMessage) (uri : URI) : List Kind :=
  ((wire.map WireMessage.parts).filter fun p => p.1 = uri).map Prod.snd

/-- The kind that may come after an alternating list. -/
def nextKind (first : Kind) (kinds : List Kind) : Kind :=
  match kinds.getLast? with
  | none => first
  | some last => last.other

theorem AlternatesFrom.concat {first : Kind} {kinds : List Kind} (h : AlternatesFrom first kinds) :
    AlternatesFrom first (kinds ++ [nextKind first kinds]) := by
  induction kinds generalizing first with
  | nil => exact ⟨rfl, trivial⟩
  | cons k kinds ih =>
    obtain ⟨rfl, hrest⟩ := h
    refine ⟨rfl, ?_⟩
    have hnext : nextKind k (k :: kinds) = nextKind k.other kinds := by
      unfold nextKind
      cases hlast : kinds.getLast? with
      | none =>
        rw [List.getLast?_eq_none_iff] at hlast
        subst hlast
        rfl
      | some last =>
        obtain ⟨front, rfl⟩ := List.getLast?_eq_some_iff.mp hlast
        rw [← List.cons_append, List.getLast?_concat]
    rw [hnext]
    exact ih hrest

theorem messagesOf_concat (wire : List WireMessage) (message : WireMessage) (uri : URI) :
    messagesOf (wire ++ [message]) uri =
      messagesOf wire uri ++ if message.parts.1 = uri then [message.parts.2] else [] := by
  unfold messagesOf
  rw [List.map_append, List.map_singleton, List.filter_append, List.map_append]
  by_cases h : message.parts.1 = uri <;> simp [h]

/-! ### The client -/

/-- The messages of every URI alternate; while the client is open the last of a URI is
`subscribe` exactly if it is held; and the queues of the map are open. -/
structure ClientOk (held : URI → Prop) (c : SubscribingClient) : Prop where
  alternates : ∀ uri, AlternatesFrom .subscribe (messagesOf c.wire uri)
  last : c.closed = false → ∀ uri, (messagesOf c.wire uri).getLast? = some .subscribe ↔ held uri
  queues : c.closed = false → ∀ uri queue, c.subscriptions.get? uri = some queue →
    c.queues[queue]? = some ⟨uri, false⟩

variable {held held' : URI → Prop} {c : SubscribingClient} {uri : URI}

theorem clientOk_create : ClientOk (fun _ => False) .create where
  alternates _ := trivial
  last _ uri := by
    constructor
    · intro h
      cases h
    · exact False.elim
  queues _ uri queue h := by cases h

theorem ClientOk.congr (h : ClientOk held c) (hheld : ∀ uri, held' uri ↔ held uri) : ClientOk held' c where
  alternates := h.alternates
  last hopen uri := (h.last hopen uri).trans (hheld uri).symm
  queues := h.queues

/-- What is held does not matter once the client is closed. -/
theorem ClientOk.of_closed (h : ClientOk held c) {c' : SubscribingClient} (hwire : c'.wire = c.wire)
    (hclosed : c'.closed = true) : ClientOk held' c' where
  alternates := by rw [hwire]; exact h.alternates
  last hopen := by
    rw [hclosed] at hopen
    cases hopen
  queues hopen := by
    rw [hclosed] at hopen
    cases hopen

theorem tearDown_closed : c.tearDown.closed = true := by
  unfold SubscribingClient.tearDown
  split
  next h => exact h
  next => rfl

theorem tearDown_wire : c.tearDown.wire = c.wire := by
  unfold SubscribingClient.tearDown
  split <;> rfl

/-- Sending closes the client, or adds the message and leaves the queues as they are. -/
theorem send_cases (c : SubscribingClient) (message : WireMessage) :
    (c.send message).closed = true ∧ (c.send message).wire = c.wire ∨
      (c.send message).closed = c.closed ∧ (c.send message).wire = c.wire ++ [message] ∧
        (c.send message).subscriptions = c.subscriptions ∧ (c.send message).queues = c.queues := by
  unfold SubscribingClient.send
  split
  · exact .inl ⟨tearDown_closed, tearDown_wire⟩
  · exact .inr ⟨rfl, rfl, rfl, rfl⟩
  · exact .inr ⟨rfl, rfl, rfl, rfl⟩

/-- Sending the message whose turn it is for its URI. -/
theorem ClientOk.send {message : WireMessage} (h : ClientOk held c) (hopen : c.closed = false)
    (hturn : message.parts.2 = .subscribe ↔ ¬ held message.parts.1)
    (hheld : ∀ uri, held' uri ↔ if uri = message.parts.1 then message.parts.2 = .subscribe else held uri) :
    ClientOk held' (c.send message) := by
  rcases send_cases c message with ⟨hclosed, hwire⟩ | ⟨hclosed, hwire, hsubscriptions, hqueues⟩
  · exact h.of_closed hwire hclosed
  refine ⟨fun uri => ?_, fun _ uri => ?_, fun _ => ?_⟩
  · rw [hwire, messagesOf_concat]
    split
    next heq =>
      have hnext : nextKind .subscribe (messagesOf c.wire uri) = message.parts.2 := by
        have hlast := h.last hopen uri
        rw [heq] at hturn
        unfold nextKind
        cases hget : (messagesOf c.wire uri).getLast? with
        | none =>
          rw [hget] at hlast
          have hnot : ¬ held uri := fun hh => by cases hlast.mpr hh
          exact (hturn.mpr hnot).symm
        | some k =>
          rw [hget] at hlast
          cases k with
          | subscribe =>
            have hno : ¬ message.parts.2 = .subscribe := fun hs => hturn.mp hs (hlast.mp rfl)
            cases hk : message.parts.2 with
            | subscribe => exact absurd hk hno
            | unsubscribe => rfl
          | unsubscribe =>
            have hnot : ¬ held uri := fun hh => by cases hlast.mpr hh
            exact (hturn.mpr hnot).symm
      rw [← hnext]
      exact (h.alternates uri).concat
    next =>
      rw [List.append_nil]
      exact h.alternates uri
  · rw [hwire, messagesOf_concat, hheld]
    by_cases heq : uri = message.parts.1
    · rw [if_pos heq, if_pos heq.symm, List.getLast?_concat, Option.some.injEq]
    · rw [if_neg heq, if_neg fun hs => heq hs.symm, List.append_nil]
      exact h.last hopen uri
  · rw [hsubscriptions, hqueues]
    exact h.queues hopen

/-- Attaching reuses the queue of the URI or creates one; the others stay. -/
theorem attach_spec (h : ClientOk held c) (hopen : c.closed = false) (uri : URI) :
    ∃ c' subscription, c.attachSubscription uri = some (c', subscription) ∧ ClientOk held c' ∧
      c'.closed = false ∧ c'.subscriptions.get? uri = some subscription.queue ∧
      subscription.detached = false ∧
      ∀ u queue, c.subscriptions.get? u = some queue → c'.subscriptions.get? u = some queue := by
  unfold SubscribingClient.attachSubscription
  rw [if_neg (by rw [hopen]; exact Bool.false_ne_true)]
  cases hget : c.subscriptions.get? uri with
  | some queue => exact ⟨c, ⟨queue, false⟩, rfl, h, hopen, hget, rfl, fun _ _ h => h⟩
  | none =>
    refine ⟨_, _, rfl, ⟨h.alternates, h.last, fun _ u queue hu => ?_⟩, hopen, ?_, rfl, fun u queue hu => ?_⟩
    · rw [Record.get?_set] at hu
      split at hu
      next heq =>
        cases hu
        rw [heq]
        exact List.getElem?_concat_length
      next =>
        have hold := h.queues hopen u queue hu
        rw [List.getElem?_append_left (List.getElem?_eq_some_iff.mp hold).1]
        exact hold
    · rw [Record.get?_set, if_pos rfl]
    · rw [Record.get?_set]
      split
      next heq =>
        rw [heq, hget] at hu
        cases hu
      next => exact hu

/-- Subscribing to a URI that is not held. -/
theorem subscribe_spec (h : ClientOk held c) (hnot : ¬ held uri)
    (hheld : ∀ u, held' u ↔ held u ∨ u = uri) (options : SubscribeOptions) :
    ClientOk held' (c.subscribe uri options).1 ∧ ((c.subscribe uri options).1.closed = false →
      c.closed = false ∧
      (∃ subscription, (c.subscribe uri options).2 = some subscription ∧
        (c.subscribe uri options).1.subscriptions.get? uri = some subscription.queue ∧
        subscription.detached = false) ∧
      ∀ u queue, c.subscriptions.get? u = some queue →
        (c.subscribe uri options).1.subscriptions.get? u = some queue) := by
  cases hopen : c.closed with
  | true =>
    have hnone : c.subscribe uri options = (c, none) := by
      unfold SubscribingClient.subscribe SubscribingClient.attachSubscription
      rw [if_pos hopen]
    rw [hnone]
    refine ⟨h.of_closed rfl hopen, fun hc => ?_⟩
    rw [hopen] at hc
    cases hc
  | false =>
    obtain ⟨c', subscription, hattach, hok, hopen', hqueue, hdetached, hkept⟩ := attach_spec h hopen uri
    have hsub : c.subscribe uri options = (c'.send (.subscribe uri options), some subscription) := by
      unfold SubscribingClient.subscribe
      rw [hattach]
    rw [hsub]
    refine ⟨hok.send hopen' ⟨fun _ => hnot, fun _ => rfl⟩ fun u => ?_, fun hc => ⟨rfl, ?_⟩⟩
    · show held' u ↔ if u = uri then Kind.subscribe = .subscribe else held u
      rw [hheld]
      split
      next heq => exact ⟨fun _ => rfl, fun _ => .inr heq⟩
      next hne => exact ⟨fun hu => hu.resolve_right hne, .inl⟩
    · rcases send_cases c' (.subscribe uri options) with ⟨hclosed, -⟩ | ⟨-, -, hsubscriptions, -⟩
      · exact absurd (hc.symm.trans hclosed) Bool.false_ne_true
      · refine ⟨⟨subscription, rfl, ?_, hdetached⟩, fun u queue hu => ?_⟩
        · show (c'.send _).subscriptions.get? uri = _
          rw [hsubscriptions]
          exact hqueue
        · show (c'.send _).subscriptions.get? u = _
          rw [hsubscriptions]
          exact hkept u queue hu

/-- Dropping the queue of a URI says nothing on the wire and leaves the queues of the others. -/
theorem dropQueue_spec (h : ClientOk held c) (hopen : c.closed = false) (uri : URI) :
    ClientOk held (c.dropQueue uri) ∧ (c.dropQueue uri).closed = false ∧
      ∀ u, u ≠ uri → (c.dropQueue uri).subscriptions.get? u = c.subscriptions.get? u := by
  unfold SubscribingClient.dropQueue
  cases hget : c.subscriptions.get? uri with
  | none => exact ⟨h, hopen, fun _ _ => rfl⟩
  | some queue =>
    refine ⟨⟨h.alternates, h.last, fun _ u other ho => ?_⟩, hopen, fun u hne => ?_⟩
    · rw [Record.get?_delete] at ho
      split at ho
      next => cases ho
      next hne =>
        have hother := h.queues hopen u other ho
        have hsame := h.queues hopen uri queue hget
        rw [List.getElem?_modify_ne]
        · exact hother
        · rintro rfl
          rw [hother] at hsame
          cases hsame
          exact hne rfl
    · rw [Record.get?_delete, if_neg hne]

/-- Unsubscribing from a URI that is held. -/
theorem unsubscribe_spec (h : ClientOk held c) (hu : held uri)
    (hheld : ∀ u, held' u ↔ held u ∧ u ≠ uri) :
    ClientOk held' (c.unsubscribe uri) ∧ ((c.unsubscribe uri).closed = false → c.closed = false ∧
      ∀ u, u ≠ uri → (c.unsubscribe uri).subscriptions.get? u = c.subscriptions.get? u) := by
  unfold SubscribingClient.unsubscribe
  by_cases hclosed : c.closed = true
  · rw [if_pos hclosed]
    refine ⟨h.of_closed rfl hclosed, fun hc => ?_⟩
    rw [hclosed] at hc
    cases hc
  · rw [if_neg hclosed]
    have hopen : c.closed = false := by simpa using hclosed
    obtain ⟨hok, hopen', hkept⟩ := dropQueue_spec h hopen uri
    refine ⟨hok.send hopen' ⟨fun hk => (by cases hk), fun hk => absurd hu hk⟩ fun u => ?_, fun hc => ⟨hopen, fun u hne => ?_⟩⟩
    · show held' u ↔ if u = uri then Kind.unsubscribe = .subscribe else held u
      rw [hheld]
      split
      next heq => exact ⟨fun hh => absurd heq hh.2, fun hk => (by cases hk)⟩
      next hne => exact ⟨fun hh => hh.1, fun hh => ⟨hh, hne⟩⟩
    · rcases send_cases (c.dropQueue uri) (.unsubscribe uri) with ⟨hclosed, -⟩ | ⟨-, -, hsubscriptions, -⟩
      · exact absurd (hc.symm.trans hclosed) Bool.false_ne_true
      · rw [hsubscriptions]
        exact hkept u hne

/-! ### The manager -/

/-- The URIs of the map. -/
def Manager.holds (m : Manager) (uri : URI) : Prop := m.entries.get? uri ≠ none

/-- On an open connection the entry has the queue of its URI, and waits for the answer or pumps. -/
def Feeds (c : SubscribingClient) (entry : Entry) : Prop :=
  c.closed = false → ∃ subscription, (entry.activity = .starting (some subscription) ∨
      entry.activity = .pumping ∧ entry.source = some subscription) ∧
    c.subscriptions.get? entry.uri = some subscription.queue ∧ subscription.detached = false

/-- Every holder of an entry has a lease that is not disposed. -/
def HoldersOk (m : Manager) : Prop :=
  ∀ (e : ℕ) (entry : Entry), m.heap[e]? = some entry → ∀ holder ∈ entry.holders,
    ∃ (l : ℕ) (lease : Lease), m.leases[l]? = some lease ∧ lease.holderId = holder.1 ∧
      lease.entry = e ∧ lease.released = false

/-- What a manager holds and what its client has said. -/
structure Ok (m : Manager) : Prop where
  client : ClientOk m.holds m.client
  current : ∀ uri e, m.entries.get? uri = some e → ∃ entry, m.heap[e]? = some entry ∧
    entry.uri = uri ∧ entry.holders ≠ [] ∧ Feeds m.client entry
  holders : HoldersOk m

variable {m m' : Manager} {e i : ℕ} {entry : Entry} {f : Entry → Entry}

theorem ok_create : Ok .create where
  client := by
    refine ⟨clientOk_create.alternates, fun hopen uri => ?_, clientOk_create.queues⟩
    exact (clientOk_create.last hopen uri).trans ⟨False.elim, fun h => h rfl⟩
  current uri e h := by cases h
  holders e entry h := by cases h

theorem update_heap_self (he : m.heap[e]? = some entry) : (m.update e f).heap[e]? = some (f entry) := by
  unfold Manager.update
  rw [List.getElem?_modify_eq, he]
  rfl

theorem update_heap_ne (h : e ≠ i) : (m.update e f).heap[i]? = m.heap[i]? :=
  List.getElem?_modify_ne _ _ h

theorem update_current : (m.update e f).current i entry = m.current i entry := rfl

/-- What is read after an update is what was there, or the updated entry. -/
theorem update_heap_cases (h : (m.update e f).heap[i]? = some entry) :
    (i ≠ e ∧ m.heap[i]? = some entry) ∨ i = e ∧ ∃ old, m.heap[e]? = some old ∧ entry = f old := by
  by_cases hi : i = e
  · subst hi
    unfold Manager.update at h
    rw [List.getElem?_modify_eq] at h
    obtain ⟨old, hold, heq⟩ := Option.map_eq_some_iff.mp h
    exact .inr ⟨rfl, old, hold, heq.symm⟩
  · rw [update_heap_ne fun h => hi h.symm] at h
    exact .inl ⟨hi, h⟩

/-- Changes that leave the holders of every entry and the leases alone. -/
theorem HoldersOk.update (h : HoldersOk m) (hf : ∀ entry, (f entry).holders = entry.holders) :
    HoldersOk (m.update e f) := by
  intro i entry hi holder hholder
  rcases update_heap_cases hi with ⟨-, hold⟩ | ⟨rfl, old, hold, rfl⟩
  · exact h i entry hold holder hholder
  · rw [hf] at hholder
    exact h i old hold holder hholder

/-- A source that feeds a current entry has not ended. -/
theorem Feeds.not_ended (h : Feeds m.client entry) (hok : ClientOk m.holds m.client)
    (hopen : m.client.closed = false) (hactivity : entry.activity = .pumping)
    {source : Subscription} (hsource : entry.source = some source) : m.ended source = false := by
  obtain ⟨subscription, hwhere, hqueue, hdetached⟩ := h hopen
  have hsame : subscription = source := by
    rcases hwhere with hstarting | ⟨-, hs⟩
    · rw [hactivity] at hstarting
      cases hstarting
    · rw [hsource] at hs
      exact (Option.some.inj hs).symm
  subst hsame
  have hlive := hok.queues hopen _ _ hqueue
  unfold Manager.ended
  rw [hdetached, hlive]
  rfl

/-- A current entry is known by its URI: what the map holds for it. -/
theorem Ok.eq_of_current (h : Ok m) (he : m.heap[e]? = some entry) {u : URI}
    (hu : m.entries.get? u = some e) : entry.uri = u ∧ m.current e entry = true ∧ entry.holders ≠ [] := by
  obtain ⟨entry', he', huri, hholders, -⟩ := h.current u e hu
  rw [he] at he'
  cases he'
  refine ⟨huri, ?_, hholders⟩
  unfold Manager.current
  rw [huri, hu]
  exact decide_eq_true rfl

/-- Nothing that is done with an entry that is not current matters. -/
theorem Ok.update_old (h : Ok m) (he : m.heap[e]? = some entry) (hold : m.current e entry = false)
    (hf : ∀ entry, (f entry).holders = entry.holders) : Ok (m.update e f) where
  client := h.client
  current u e' hu := by
    obtain ⟨entry', he', hrest⟩ := h.current u e' hu
    refine ⟨entry', ?_, hrest⟩
    rw [update_heap_ne]
    · exact he'
    · rintro rfl
      have hcurrent := (h.eq_of_current he hu).2.1
      rw [hold] at hcurrent
      cases hcurrent
  holders := h.holders.update hf

/-- An entry leaves the map: its URI is not held any more, and the entries of the other URIs stay
as they are. -/
theorem Ok.release {c : SubscribingClient} (he : m.heap[e]? = some entry) (huri : entry.uri = uri)
    (hcurrent : ∀ u e', u ≠ uri → m.entries.get? u = some e' → ∃ entry, m.heap[e']? = some entry ∧
      entry.uri = u ∧ entry.holders ≠ [] ∧ Feeds m.client entry)
    (hholders : HoldersOk m) (hf : ∀ entry, (f entry).holders = entry.holders)
    (hclient : ClientOk (fun u => m.holds u ∧ u ≠ uri) c)
    (hframe : c.closed = false → m.client.closed = false ∧
      ∀ u, u ≠ uri → c.subscriptions.get? u = m.client.subscriptions.get? u) :
    Ok { m.update e f with entries := m.entries.delete uri, client := c } where
  client := by
    refine hclient.congr fun u => ?_
    show (m.entries.delete uri).get? u ≠ none ↔ m.entries.get? u ≠ none ∧ u ≠ uri
    rw [Record.get?_delete]
    split
    next heq => exact ⟨fun h => absurd rfl h, fun h => absurd heq h.2⟩
    next hne => exact ⟨fun h => ⟨h, hne⟩, fun h => h.1⟩
  current u e' hu := by
    change (m.entries.delete uri).get? u = some e' at hu
    rw [Record.get?_delete] at hu
    split at hu
    next => cases hu
    next hne =>
      obtain ⟨entry', he', huri', hnonempty, hfeeds⟩ := hcurrent u e' hne hu
      refine ⟨entry', ?_, huri', hnonempty, fun hopen => ?_⟩
      · show (m.update e f).heap[e']? = some entry'
        rw [update_heap_ne]
        · exact he'
        · rintro rfl
          rw [he] at he'
          cases he'
          exact hne (huri'.symm.trans huri)
      · obtain ⟨hopen', hsame⟩ := hframe hopen
        obtain ⟨subscription, hwhere, hqueue, hdetached⟩ := hfeeds hopen'
        exact ⟨subscription, hwhere, by rw [hsame _ (huri' ▸ hne)]; exact hqueue, hdetached⟩
  holders := hholders.update hf

/-! ### The steps -/

theorem subscribed_ok (h : Ok m) {result : Json} (hs : m.subscribed e result = some m') : Ok m' := by
  unfold Manager.subscribed at hs
  cases he : m.heap[e]? with
  | none =>
    rw [he] at hs
    cases hs
  | some entry =>
    simp only [he] at hs
    split at hs
    next subscription hactivity =>
      cases hs
      cases hcurrent : m.current e entry with
      | false => exact h.update_old he hcurrent fun _ => rfl
      | true =>
        have hin : m.entries.get? entry.uri = some e := of_decide_eq_true hcurrent
        obtain ⟨-, -, hholders⟩ := h.eq_of_current he hin
        rw [if_neg (by simp [hholders])]
        refine ⟨h.client, fun u e' hu => ?_, h.holders.update fun _ => rfl⟩
        obtain ⟨entry', he', huri, hnonempty, hfeeds⟩ := h.current u e' hu
        by_cases hsame : e = e'
        · subst hsame
          rw [he] at he'
          cases he'
          refine ⟨_, update_heap_self he, huri, hnonempty, fun hopen => ?_⟩
          obtain ⟨fed, hwhere, hqueue, hdetached⟩ := hfeeds hopen
          rcases hwhere with hstarting | ⟨hpumping, -⟩
          · rw [hactivity] at hstarting
            cases hstarting
            exact ⟨subscription, .inr ⟨rfl, rfl⟩, hqueue, hdetached⟩
          · rw [hactivity] at hpumping
            cases hpumping
        · refine ⟨entry', ?_, huri, hnonempty, hfeeds⟩
          rw [update_heap_ne hsame]
          exact he'
    next => cases hs

/-- The current entry leaves the map, and its URI is unsubscribed. -/
theorem Ok.unsubscribed (h : Ok m) (he : m.heap[e]? = some entry) (hcurrent : m.current e entry = true)
    (hf : ∀ entry, (f entry).holders = entry.holders) :
    Ok { m.update e f with
      entries := m.entries.delete entry.uri
      client := m.client.unsubscribe entry.uri } := by
  have hin : m.entries.get? entry.uri = some e := of_decide_eq_true hcurrent
  have hheld : m.holds entry.uri := by
    unfold Manager.holds
    rw [hin]
    exact Option.some_ne_none e
  obtain ⟨hclient, hframe⟩ := unsubscribe_spec h.client hheld fun u => Iff.rfl
  exact Ok.release he rfl (fun u e' _ hu => h.current u e' hu) h.holders hf hclient hframe

/-- The end of an entry: one that is not current is finished, and a current one leaves the map too. -/
theorem Ok.finished {m₁ : Manager} {c : SubscribingClient} {g : Entry → Entry} (h : Ok m)
    (he : m.heap[e]? = some entry)
    (hcurrent : m.current e entry = true → Ok { m.update e (g ∘ fun entry => { entry with activity := .finished }) with
      entries := m.entries.delete entry.uri
      client := c })
    (heq : (if !(m.update e fun entry => { entry with activity := .finished }).current e entry then
        m.update e fun entry => { entry with activity := .finished }
      else
        { { m.update e (fun entry => { entry with activity := .finished }) with
            entries := m.entries.delete entry.uri }.update e g with client := c }) = m₁) : Ok m₁ := by
  cases hin : m.current e entry with
  | false =>
    rw [update_current, hin, Bool.not_false, if_pos rfl] at heq
    rw [← heq]
    exact h.update_old he hin fun _ => rfl
  | true =>
    have hfinal := hcurrent hin
    rw [update_current, hin, Bool.not_true, if_neg Bool.false_ne_true] at heq
    rw [← heq]
    unfold Manager.update at hfinal ⊢
    rw [List.modify_modify_eq]
    exact hfinal

theorem rejected_ok (h : Ok m) {error : AhpClientError} (hs : m.rejected e error = some m') : Ok m' := by
  unfold Manager.rejected at hs
  cases he : m.heap[e]? with
  | none =>
    rw [he] at hs
    cases hs
  | some entry =>
    simp only [he] at hs
    split at hs
    next hactivity =>
      refine h.finished he (fun hcurrent => ?_) (Option.some.inj hs)
      exact h.unsubscribed he hcurrent fun _ => rfl
    next => cases hs

theorem pumpEnds_ok (h : Ok m) (hs : m.pumpEnds e = some m') : Ok m' := by
  unfold Manager.pumpEnds at hs
  cases he : m.heap[e]? with
  | none =>
    rw [he] at hs
    cases hs
  | some entry =>
    simp only [he] at hs
    split at hs
    next source hactivity hsource =>
      split at hs
      next hended =>
        refine h.finished he (fun hcurrent => ?_) (Option.some.inj hs)
        -- The source of a current entry ends only when the client is closed.
        have hin : m.entries.get? entry.uri = some e := of_decide_eq_true hcurrent
        obtain ⟨entry', he', -, -, hfeeds⟩ := h.current _ _ hin
        rw [he] at he'
        cases he'
        have hclosed : m.client.closed = true := by
          by_contra hopen
          have hlive := hfeeds.not_ended h.client (by simpa using hopen) hactivity hsource
          rw [hended] at hlive
          cases hlive
        exact Ok.release he rfl (fun u e' _ hu => h.current u e' hu) h.holders (fun _ => rfl)
          (h.client.of_closed rfl hclosed) (fun hopen => ⟨hopen, fun _ _ => rfl⟩)
      next => cases hs
    next => cases hs

/-- A holder other than that of the disposed lease keeps its lease. -/
theorem HoldersOk.lease_of_other (h : HoldersOk m) {l : ℕ} {lease : Lease} (hl : m.leases[l]? = some lease)
    (he : m.heap[e]? = some entry) {holder : ℕ × String} (hholder : holder ∈ entry.holders)
    (hne : e = lease.entry → holder.1 ≠ lease.holderId) : ∃ (l' : ℕ) (lease' : Lease),
      (m.leases.set l { lease with released := true })[l']? = some lease' ∧
        lease'.holderId = holder.1 ∧ lease'.entry = e ∧ lease'.released = false := by
  obtain ⟨l', lease', hl', hid, hentry, hreleased⟩ := h e entry he holder hholder
  refine ⟨l', lease', ?_, hid, hentry, hreleased⟩
  rw [List.getElem?_set_ne]
  · exact hl'
  · rintro rfl
    rw [hl] at hl'
    cases hl'
    exact hne hentry.symm hid.symm

/-- The manager after a lease is disposed, before its entry is looked at. -/
def Manager.leave (m : Manager) (l : ℕ) (lease : Lease) : Manager :=
  { m with leases := m.leases.set l { lease with released := true } }.update lease.entry
    fun entry => { entry with holders := entry.without lease.holderId }

/-- A lease is disposed and its holder leaves the entry. -/
theorem HoldersOk.leave (h : HoldersOk m) {l : ℕ} {lease : Lease} (hl : m.leases[l]? = some lease) :
    HoldersOk (m.leave l lease) := by
  intro e entry he holder hholder
  rcases update_heap_cases he with ⟨hne, hold⟩ | ⟨rfl, old, hold, rfl⟩
  · exact h.lease_of_other hl hold hholder fun heq => absurd heq hne
  · obtain ⟨hholder, hid⟩ := List.mem_filter.mp hholder
    exact h.lease_of_other hl hold hholder fun _ => of_decide_eq_true hid

theorem dispose_ok (h : Ok m) {l : ℕ} (hs : m.dispose l = some m') : Ok m' := by
  unfold Manager.dispose at hs
  obtain ⟨lease, hl, heq⟩ := Option.map_eq_some_iff.mp hs
  split at heq
  next =>
    rw [← heq]
    exact h
  next hreleased =>
    dsimp only at heq
    cases he : m.heap[lease.entry]? with
    | none =>
      rw [he] at heq
      rw [← heq]
      refine ⟨h.client, h.current, fun e entry hentry holder hholder => ?_⟩
      refine h.holders.lease_of_other hl hentry hholder ?_
      rintro rfl
      rw [he] at hentry
      cases hentry
    | some entry =>
      simp only [he] at heq
      have hholders := h.holders.leave hl
      have hleave : (m.leave l lease).heap[lease.entry]? =
          some { entry with holders := entry.without lease.holderId } := update_heap_self he
      -- The entries of the other URIs are not touched.
      have hother : ∀ u e, e ≠ lease.entry → m.entries.get? u = some e →
          ∃ entry, (m.leave l lease).heap[e]? = some entry ∧ entry.uri = u ∧ entry.holders ≠ [] ∧
            Feeds m.client entry := by
        intro u e hne hu
        obtain ⟨entry', he', hrest⟩ := h.current u e hu
        exact ⟨entry', (update_heap_ne hne.symm).trans he', hrest⟩
      split at heq
      next hlast =>
        rw [← heq]
        have hcurrent : m.current lease.entry entry = true := hlast.2
        have hin : m.entries.get? entry.uri = some lease.entry := of_decide_eq_true hcurrent
        have hheld : m.holds entry.uri := by
          unfold Manager.holds
          rw [hin]
          exact Option.some_ne_none lease.entry
        obtain ⟨hclient, hframe⟩ := unsubscribe_spec h.client hheld fun u => Iff.rfl
        refine Ok.release (m := m.leave l lease) hleave rfl (fun u e hne hu => ?_) hholders ?_ hclient hframe
        · refine hother u e (fun heq => hne ?_) hu
          rw [heq] at hu
          exact (h.eq_of_current he hu).1.symm
        · exact fun _ => rfl
      next hstays =>
        rw [← heq]
        refine ⟨h.client, fun u e hu => ?_, hholders⟩
        by_cases hsame : e = lease.entry
        · rw [hsame] at hu
          obtain ⟨huri, hcurrent, -⟩ := h.eq_of_current he hu
          obtain ⟨entry', he', -, -, hfeeds⟩ := h.current u _ hu
          rw [he] at he'
          cases he'
          rw [hsame]
          exact ⟨_, hleave, huri, fun hnone => hstays ⟨hnone, hcurrent⟩, hfeeds⟩
        · exact hother u e hsame hu

/-- The loop of `close` unsubscribes every URI that was taken out of the map. -/
theorem disposeEntries_ok {taken : List (URI × ℕ)} (hnd : (taken.map Prod.fst).Nodup)
    (hclient : ClientOk (fun u => u ∈ taken.map Prod.fst) m.client) (hholders : HoldersOk m) :
    ClientOk (fun _ => False) (m.disposeEntries taken).client ∧ HoldersOk (m.disposeEntries taken) ∧
      (m.disposeEntries taken).entries = m.entries := by
  induction taken generalizing m with
  | nil => exact ⟨hclient.congr fun u => ⟨False.elim, fun h => by cases h⟩, hholders, rfl⟩
  | cons first taken ih =>
    obtain ⟨uri, e⟩ := first
    rw [List.map_cons, List.nodup_cons] at hnd
    have hheld : ∀ u, u ∈ taken.map Prod.fst ↔ u ∈ ((uri, e) :: taken).map Prod.fst ∧ u ≠ uri := by
      intro u
      rw [List.map_cons, List.mem_cons]
      constructor
      · intro hu
        exact ⟨.inr hu, fun heq => hnd.1 (heq ▸ hu)⟩
      · rintro ⟨heq | hu, hne⟩
        · exact absurd heq hne
        · exact hu
    have hrest := (unsubscribe_spec hclient List.mem_cons_self hheld).1
    exact ih (m := m.disposeEntry e uri "managed subscription manager closed") hnd.2 hrest
      (hholders.update fun _ => rfl)

theorem close_ok (h : Ok m) : Ok m.close := by
  unfold Manager.close
  split
  next => exact h
  next =>
    have hclient : ClientOk (fun u => u ∈ m.entries.entries.map Prod.fst) m.client :=
      h.client.congr fun u => by
        unfold Manager.holds
        rw [ne_eq, Record.get?_eq_none, not_not]
    obtain ⟨hclient', hholders', hentries'⟩ :=
      disposeEntries_ok (m := { m with closed := true, entries := .empty }) m.entries.nodup hclient h.holders
    refine ⟨hclient'.congr fun u => ?_, fun u e hu => ?_, hholders'⟩
    · unfold Manager.holds
      rw [hentries']
      exact ⟨fun hne => hne rfl, False.elim⟩
    · rw [hentries'] at hu
      cases hu

/-- The new lease of an entry. -/
theorem HoldersOk.createLease (h : HoldersOk m) (e : ℕ) (owner : String) :
    HoldersOk (m.createLease e owner) := by
  have hkept : ∀ {l : ℕ} {lease : Lease}, m.leases[l]? = some lease →
      (m.createLease e owner).leases[l]? = some lease := fun {l lease} hl => by
    show (m.leases ++ [_])[l]? = some lease
    rw [List.getElem?_append_left (List.getElem?_eq_some_iff.mp hl).1]
    exact hl
  intro i entry hi holder hholder
  rcases update_heap_cases hi with ⟨-, hold⟩ | ⟨rfl, old, hold, rfl⟩
  · obtain ⟨l, lease, hl, hrest⟩ := h i entry hold holder hholder
    exact ⟨l, lease, hkept hl, hrest⟩
  · rcases List.mem_append.mp hholder with hholder | hholder
    · obtain ⟨l, lease, hl, hrest⟩ := h i old hold holder hholder
      exact ⟨l, lease, hkept hl, hrest⟩
    · rw [List.mem_singleton.mp hholder]
      exact ⟨m.leases.length, _, List.getElem?_concat_length, rfl, rfl, rfl⟩

/-- Another lease of a current entry. -/
theorem Ok.createLease (h : Ok m) (e : ℕ) (owner : String) : Ok (m.createLease e owner) where
  client := h.client
  current u e' hu := by
    obtain ⟨entry', he', huri, hnonempty, hfeeds⟩ := h.current u e' hu
    by_cases hsame : e = e'
    · subst hsame
      refine ⟨_, update_heap_self he', huri, ?_, hfeeds⟩
      show entry'.holders ++ [_] ≠ []
      exact List.append_ne_nil_of_right_ne_nil _ (List.cons_ne_nil _ _)
    · exact ⟨entry', (update_heap_ne hsame).trans he', huri, hnonempty, hfeeds⟩
  holders := h.holders.createLease e owner

/-- A URI without an entry gets one, with a first lease, and is subscribed to. -/
theorem Ok.startNew (h : Ok m) {uri : URI} (hnone : m.entries.get? uri = none) (optionsKey : OptionsKey)
    (owner : String) (options : SubscribeOptions) :
    Ok (({ m with
      entries := m.entries.set uri m.heap.length
      heap := m.heap ++ [Entry.create uri optionsKey] }.createLease
        m.heap.length owner).start m.heap.length uri options) := by
  have hold : ∀ {e : ℕ} {entry : Entry}, m.heap[e]? = some entry → e ≠ m.heap.length ∧
      (m.heap ++ [Entry.create uri optionsKey])[e]? = some entry := by
    intro e entry he
    have hlt := (List.getElem?_eq_some_iff.mp he).1
    exact ⟨by omega, by rw [List.getElem?_append_left hlt]; exact he⟩
  have hholders : HoldersOk { m with
      entries := m.entries.set uri m.heap.length
      heap := m.heap ++ [Entry.create uri optionsKey] } := by
    intro e entry he holder hholder
    have hlt := (List.getElem?_eq_some_iff.mp he).1
    rw [List.length_append, List.length_singleton] at hlt
    by_cases hnew : e = m.heap.length
    · subst hnew
      rw [List.getElem?_concat_length] at he
      cases he
      cases hholder
    · rw [List.getElem?_append_left (by omega)] at he
      exact h.holders e entry he holder hholder
  have hheld : ∀ u, (m.entries.set uri m.heap.length).get? u ≠ none ↔ m.holds u ∨ u = uri := by
    intro u
    rw [Record.get?_set]
    split
    next heq => exact ⟨fun _ => .inr heq, fun _ => Option.some_ne_none _⟩
    next hne => exact ⟨.inl, fun hu => hu.resolve_right hne⟩
  obtain ⟨hclient, hframe⟩ := subscribe_spec h.client (fun hh => hh hnone) hheld options
  refine ⟨hclient, fun u e hu => ?_, (hholders.createLease _ _).update fun _ => rfl⟩
  change (m.entries.set uri m.heap.length).get? u = some e at hu
  rw [Record.get?_set] at hu
  split at hu
  next heq =>
    cases hu
    refine ⟨_, update_heap_self (update_heap_self List.getElem?_concat_length), heq.symm,
      List.cons_ne_nil _ _, fun hopen => ?_⟩
    obtain ⟨-, ⟨subscription, hsub, hqueue, hdetached⟩, -⟩ := hframe hopen
    exact ⟨subscription, .inl (congrArg Activity.starting hsub), hqueue, hdetached⟩
  next =>
    obtain ⟨entry, he, huri, hnonempty, hfeeds⟩ := h.current u e hu
    obtain ⟨hne, he'⟩ := hold he
    refine ⟨entry, ?_, huri, hnonempty, fun hopen => ?_⟩
    · exact (update_heap_ne hne.symm).trans ((update_heap_ne hne.symm).trans he')
    · obtain ⟨hopen', -, hkept⟩ := hframe hopen
      obtain ⟨subscription, hwhere, hqueue, hdetached⟩ := hfeeds hopen'
      exact ⟨subscription, hwhere, hkept _ _ hqueue, hdetached⟩

theorem acquire_ok (h : Ok m) {uri : URI} {owner : String} {options : SubscribeOptions}
    (hs : m.acquire uri owner options = .ok m') : Ok m' := by
  unfold Manager.acquire at hs
  split at hs
  next => cases hs
  next =>
    dsimp only at hs
    split at hs
    next e he =>
      obtain ⟨entry, hentry, -, hnonempty, -⟩ := h.current uri e he
      simp only [hentry] at hs
      split at hs
      next => cases hs
      next =>
        rw [if_neg (by have hlength := List.length_pos_iff.mpr hnonempty; omega)] at hs
        cases hs
        exact h.createLease e owner
    next hnone =>
      cases hs
      exact h.startNew hnone _ owner options

/-- Every step keeps the manager and its client fitting. -/
theorem step_ok (h : Ok m) {action : Action} (hs : step m action = some m') : Ok m' := by
  cases action with
  | acquire uri owner options =>
    cases hacquire : m.acquire uri owner options with
    | ok m'' =>
      simp only [step, hacquire] at hs
      cases hs
      exact acquire_ok h hacquire
    | error =>
      simp only [step, hacquire] at hs
      cases hs
      exact h
  | dispose lease => exact dispose_ok h hs
  | close =>
    cases hs
    exact close_ok h
  | subscribed entry result => exact subscribed_ok h hs
  | rejected entry error => exact rejected_ok h hs
  | pumpEnds entry => exact pumpEnds_ok h hs
  | connectionCloses =>
    cases hs
    refine ⟨h.client.of_closed tearDown_wire tearDown_closed, fun u e hu => ?_, h.holders⟩
    obtain ⟨entry, he, huri, hnonempty, -⟩ := h.current u e hu
    refine ⟨entry, he, huri, hnonempty, fun hopen => ?_⟩
    rw [show m.client.tearDown.closed = true from tearDown_closed] at hopen
    cases hopen
  | transportFails left =>
    cases hs
    exact ⟨⟨h.client.alternates, h.client.last, h.client.queues⟩, h.current, h.holders⟩

/-- A lease of an entry that is not current changes nothing but its holders. -/
theorem dispose_old {l : ℕ} {lease : Lease} (hl : m.leases[l]? = some lease)
    (he : m.heap[lease.entry]? = some entry) (hold : m.entries.get? entry.uri ≠ some lease.entry)
    (hs : m.dispose l = some m') : m'.client = m.client ∧ m'.entries = m.entries := by
  unfold Manager.dispose at hs
  rw [hl, Option.map_some, Option.some.injEq] at hs
  split at hs
  next =>
    rw [← hs]
    exact ⟨rfl, rfl⟩
  next =>
    simp only [he] at hs
    split at hs
    next hlast => exact absurd (of_decide_eq_true hlast.2) hold
    next =>
      rw [← hs]
      exact ⟨rfl, rfl⟩

/-- **Managed subscriptions**: over every run, the messages of each URI alternate, starting with
`subscribe`; while the connection is open the last message of a URI is `subscribe` exactly if the
manager holds an entry for it; every entry it holds has a lease that is not disposed; and
disposing a lease whose entry is not the current one of its URI says nothing and leaves the
current entries. -/
theorem subscriptions_alternate {actions : List Action} (hrun : runs step .create actions = some m) :
    (∀ uri, AlternatesFrom .subscribe (messagesOf m.client.wire uri)) ∧
      (m.client.closed = false → ∀ uri,
        (messagesOf m.client.wire uri).getLast? = some .subscribe ↔ m.entries.get? uri ≠ none) ∧
      (∀ uri e, m.entries.get? uri = some e →
        ∃ lease ∈ m.leases, lease.entry = e ∧ lease.released = false) ∧
      (∀ (l : ℕ) (lease : Lease) (entry : Entry) (m' : Manager), m.leases[l]? = some lease →
        m.heap[lease.entry]? = some entry → m.entries.get? entry.uri ≠ some lease.entry →
        m.dispose l = some m' → m'.client = m.client ∧ m'.entries = m.entries) := by
  have hok : Ok m := runs_kept step (fun h hs => step_ok h hs) ok_create hrun
  refine ⟨hok.client.alternates, hok.client.last, fun uri e he => ?_, fun l lease entry m' => dispose_old⟩
  obtain ⟨entry, hentry, -, hnonempty, -⟩ := hok.current uri e he
  obtain ⟨holder, hholder⟩ := List.exists_mem_of_ne_nil _ hnonempty
  obtain ⟨l, lease, hl, -, hlease, hreleased⟩ := hok.holders e entry hentry holder hholder
  exact ⟨lease, List.mem_of_getElem? hl, hlease, hreleased⟩

/-- The only lease of a URI is disposed before `subscribe` is answered, the URI is acquired again,
and the first answer arrives. -/
def disposedEarly : List Action :=
  [.acquire "ahp-session:/s" "view" ⟨none, none⟩, .dispose 0,
    .acquire "ahp-session:/s" "mirror" ⟨none, none⟩, .subscribed 0 ⟨"null"⟩]

theorem disposedEarly_runs : (runs step .create disposedEarly).isSome = true := by decide +kernel

/-- The second entry stays subscribed. -/
theorem subscriptions_alternate_disposedEarly : ∃ m, runs step .create disposedEarly = some m ∧
    messagesOf m.client.wire "ahp-session:/s" = [.subscribe, .unsubscribe, .subscribe] ∧
    m.entries.get? "ahp-session:/s" = some 1 ∧
    AlternatesFrom .subscribe (messagesOf m.client.wire "ahp-session:/s") :=
  ⟨(runs step .create disposedEarly).get disposedEarly_runs, (Option.some_get disposedEarly_runs).symm,
    by decide +kernel, by decide +kernel,
    (subscriptions_alternate (Option.some_get disposedEarly_runs).symm).1 _⟩

end AgentHostProtocol.Client.ManagedSubscriptions
