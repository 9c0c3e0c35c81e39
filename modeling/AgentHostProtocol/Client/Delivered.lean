import AgentHostProtocol.Client.AsyncQueue
import AgentHostProtocol.Library.Lists

/-!
# What the readers of the broadcast queue receive

Reading the queue is a `Delivery` of the values published: in order, no value twice, and a
value passed over only when the buffer had to make room for `bufferLimit` later ones before
the reader asked (`step_heard`, for runs `runs_heard`). A closed queue still hands out what is
buffered, and ends the stream after that (`drain`).

The calls may come in any order: also a second `next` while one is parked, which the source
does not expect. `Client.Parked` is about what becomes of the first one then.
-/

namespace AgentHostProtocol.Client

open Library

universe u

variable {T : Type u}

namespace Reader

/-- The value that a promise resolved to, with the number of values published when it was
asked for. -/
def take? (promise : Promise T) : Option (ℕ × T) :=
  match promise.result with
  | some (.value item) => some (promise.asked, item)
  | _ => none

/-- The values received, each with the number of values published when it was asked for. -/
def takes (r : Reader T) : List (ℕ × T) := r.promises.filterMap take?

/-- The values received. -/
def received (r : Reader T) : List T := r.takes.map Prod.snd

/-- The results of the calls. -/
def results (r : Reader T) : List (Option (IteratorResult T)) := r.promises.map Promise.result

end Reader

namespace AsyncBroadcastQueue

/-- Whether `op` is a call of `next` of the reader at `i`. -/
def Op.asks (i : ℕ) : Op T → Bool
  | .next j => j == i
  | _ => false

/-- What is still buffered for a reader. -/
def unread (q : AsyncBroadcastQueue T) (r : Reader T) : List T := q.buffer.drop (r.position - q.base)

/-- The results of calls of `next` when `items` are left and nothing comes after them: each of
them, and then the end of the stream. -/
def drained : List T → ℕ → List (IteratorResult T)
  | _, 0 => []
  | [], calls + 1 => .done :: drained [] calls
  | item :: items, calls + 1 => .value item :: drained items calls

variable {q q' : AsyncBroadcastQueue T} {r r' : Reader T} {i : ℕ} {op : Op T}

/-! ### Received in order -/

/-- What the reader has received, and what it will be asked for next. -/
structure Heard (q : AsyncBroadcastQueue T) (r : Reader T) : Prop where
  /-- Between the last value received and the cursor lies only what had to make room. -/
  delivery : ∃ stop, Delivery q.bufferLimit q.published r.since r.takes stop ∧
    (r.detached = false → stop ≤ r.position ∧
      ∀ k, stop ≤ k → k < r.position → k + 1 + q.bufferLimit ≤ q.published.length)
  /-- Nothing was published since the parked call. -/
  parked : r.detached = false → ∀ p, r.waiter = some p →
    ∃ before, r.promises = before ++ [⟨q.published.length, none⟩] ∧ p = before.length

theorem takes_answer_done (r : Reader T) (asked : ℕ) : (r.answer asked .done).takes = r.takes := by
  show List.filterMap Reader.take? (r.promises ++ [_]) = _
  rw [List.filterMap_append]
  exact List.append_nil _

theorem takes_park (r : Reader T) (asked : ℕ) : (r.park asked).takes = r.takes := by
  show List.filterMap Reader.take? (r.promises ++ [_]) = _
  rw [List.filterMap_append]
  exact List.append_nil _

theorem takes_answer_value (r : Reader T) (asked : ℕ) (item : T) :
    (r.answer asked (.value item)).takes = r.takes ++ [(asked, item)] := by
  show List.filterMap Reader.take? (r.promises ++ [_]) = _
  rw [List.filterMap_append]
  rfl

/-- Resolving the last promise: what was received is what the result adds. -/
theorem takes_settle {before : List (Promise T)} {asked : ℕ} (result : IteratorResult T)
    (h : r.promises = before ++ [⟨asked, none⟩]) :
    (r.settle before.length result).takes =
      r.takes ++ (Reader.take? ⟨asked, some result⟩).toList := by
  have hsettle : (r.settle before.length result).promises = before ++ [⟨asked, some result⟩] := by
    show r.promises.modify before.length _ = _
    rw [h, modify_length_concat]
    rfl
  unfold Reader.takes
  rw [hsettle, h, List.filterMap_append, List.filterMap_append, List.append_assoc]
  cases result <;> rfl

/-- What was received stays so when values are published and the cursor is moved past those
that have to make room. -/
theorem Heard.publish (h : Heard q r) {value : T} (hpublished : q'.published = q.published ++ [value])
    (hlimit : q'.bufferLimit = q.bufferLimit) {position : ℕ} (hle : r.position ≤ position)
    (hskip : r.detached = false → ∀ k, r.position ≤ k → k < position →
      k + 1 + q.bufferLimit ≤ q.published.length + 1)
    (hw : r.detached = false → r.waiter = none) : Heard q' { r with position := position } where
  delivery := by
    obtain ⟨stop, hdelivery, hstop⟩ := h.delivery
    refine ⟨stop, by rw [hpublished, hlimit]; exact hdelivery.append [value], fun hd => ?_⟩
    obtain ⟨hle', hpassed⟩ := hstop hd
    refine ⟨Nat.le_trans hle' hle, fun k hk hk' => ?_⟩
    rw [hpublished, hlimit, List.length_append, List.length_singleton]
    by_cases hbefore : k < r.position
    · have hroom := hpassed k hk hbefore
      omega
    · exact hskip hd k (by omega) hk'
  parked hd p hw' := by
    have hnone := hw hd
    rw [show r.waiter = some p from hw'] at hnone
    cases hnone

/-- What was received stays so when nothing is published and the reader is not touched. -/
theorem Heard.of_eq (h : Heard q r) (hpublished : q'.published = q.published)
    (hlimit : q'.bufferLimit = q.bufferLimit) : Heard q' r where
  delivery := by rw [hpublished, hlimit]; exact h.delivery
  parked := by rw [hpublished]; exact h.parked

/-- An operation keeps what a reader has received a delivery. -/
theorem Does.heard (hdoes : Does q i r op r') (hok : ReaderOk q r) (h : Heard q r)
    (hpublished : q'.published = q.published ++ q.accepted op)
    (hlimit : q'.bufferLimit = q.bufferLimit) : Heard q' r' := by
  have hsame : q.accepted op = [] → q'.published = q.published := fun hnil => by
    rw [hpublished, hnil, List.append_nil]
  cases hdoes with
  | @unheard value hquiet =>
    cases hc : q.closed with
    | true => exact h.of_eq (hsame (accepted_of_closed hc _)) hlimit
    | false =>
      rw [accepted_of_open hc] at hpublished
      have hd : r.detached ≠ false := by simpa [hc] using hquiet
      exact h.publish hpublished hlimit (Nat.le_refl r.position) (fun hd' => absurd hd' hd)
        fun hd' => absurd hd' hd
  | passed hc hd hw hle _ hskip =>
    rw [accepted_of_open hc] at hpublished
    exact h.publish hpublished hlimit hle (fun _ => hskip) (fun _ => hw)
  | @woken value p hc hd hw =>
    rw [accepted_of_open hc] at hpublished
    obtain ⟨before, hpromises, rfl⟩ := h.parked hd p hw
    obtain ⟨stop, hdelivery, hstop⟩ := h.delivery
    obtain ⟨hle, hskip⟩ := hstop hd
    have hend := (hok.parked hd _ hw).1
    refine ⟨⟨r.position + 1, ?_, fun _ => ⟨Nat.le_refl _, fun k hk hk' => ?_⟩⟩, fun _ p hp => by cases hp⟩
    · have htakes : ({ r with position := r.position + 1 }.settle before.length (.value value)).takes =
          r.takes ++ [(q.published.length, value)] :=
        takes_settle (r := { r with position := r.position + 1 }) (.value value) hpromises
      rw [htakes, hpublished, hlimit]
      refine .take (hdelivery.append [value]) hle ?_ hskip
      rw [hend, List.getElem?_concat_length]
    · exact absurd hk' (Nat.not_lt.mpr hk)
  | stayed => exact h.of_eq (hsame rfl) hlimit
  | @ended p hc hd hw =>
    obtain ⟨before, hpromises, rfl⟩ := h.parked hd p hw
    have htakes : (r.settle before.length .done).takes = r.takes :=
      (takes_settle .done hpromises).trans (List.append_nil _)
    refine ⟨?_, fun _ p hp => by cases hp⟩
    rw [htakes, hsame rfl, hlimit]
    exact h.delivery
  | opened => exact h.of_eq (hsame rfl) hlimit
  | other_next => exact h.of_eq (hsame rfl) hlimit
  | other_detach => exact h.of_eq (hsame rfl) hlimit
  | next_detached hd =>
    refine ⟨?_, fun hd' => ?_⟩
    · rw [takes_answer_done, hsame rfl, hlimit]
      exact h.delivery
    · rw [show (r.answer _ _).detached = r.detached from rfl, hd] at hd'
      cases hd'
  | next_value hd hitem =>
    obtain ⟨stop, hdelivery, hstop⟩ := h.delivery
    obtain ⟨hle, hskip⟩ := hstop hd
    have hlt := (List.getElem?_eq_some_iff.mp hitem).1
    refine ⟨⟨r.position + 1, ?_, fun _ => ⟨Nat.le_refl _, fun k hk hk' => ?_⟩⟩, fun _ p hp => ?_⟩
    · rw [takes_answer_value, hsame rfl, hlimit]
      exact .take hdelivery hle hitem hskip
    · exact absurd hk' (Nat.not_lt.mpr hk)
    · have hend := (hok.parked hd p hp).1
      omega
  | next_done hd hc hend =>
    refine ⟨?_, fun _ p hp => ?_⟩
    · rw [takes_answer_done, hsame rfl, hlimit]
      exact h.delivery
    · have hopen := (hok.parked hd p hp).2
      rw [hc] at hopen
      cases hopen
  | next_parked hd hc hend =>
    refine ⟨?_, fun _ p hp => ?_⟩
    · rw [takes_park, hsame rfl, hlimit]
      exact h.delivery
    · cases hp
      exact ⟨r.promises, by rw [hsame rfl]; rfl, rfl⟩
  | detached =>
    refine ⟨?_, fun hd => by cases hd⟩
    obtain ⟨stop, hdelivery, -⟩ := h.delivery
    refine ⟨stop, by rw [hsame rfl, hlimit]; exact hdelivery, fun hd => by cases hd⟩

/-- Every reader of the queue has received a delivery. -/
def AllHeard (q : AsyncBroadcastQueue T) : Prop := ∀ r ∈ q.readers, Heard q r

theorem step_heard (hok : Ok q) (hs : q.step op = some q') (h : AllHeard q) : AllHeard q' := by
  obtain ⟨hpublished, -, hlimit⟩ := step_queue hok hs
  intro r' hr'
  obtain ⟨i, hi⟩ := List.mem_iff_getElem?.mp hr'
  rcases step_created hok hs hi with ⟨r, hr, hdoes⟩ | ⟨rfl, rfl⟩
  · have hmem := List.mem_of_getElem? hr
    exact hdoes.heard (hok.readers r hmem) (h r hmem) hpublished hlimit
  · have hsame : q'.published = q.published := hpublished.trans (List.append_nil _)
    refine ⟨⟨q.published.length, .nil, fun _ => ⟨Nat.le_refl _, fun k hk hk' => ?_⟩⟩, fun _ p hp => by cases hp⟩
    exact absurd hk' (Nat.not_lt.mpr hk)

theorem runs_heard {limit : ℕ} (hlimit : 1 ≤ limit) {ops : List (Op T)}
    (hrun : runs step (create limit) ops = some q) :
    Ok q ∧ AllHeard q ∧ q.bufferLimit = limit :=
  runs_kept step (I := fun q => Ok q ∧ AllHeard q ∧ q.bufferLimit = limit)
    (fun ⟨hok, hheard, heq⟩ hs =>
      ⟨step_ok hok hs, step_heard hok hs hheard, (step_queue hok hs).2.2.trans heq⟩)
    ⟨ok_create hlimit, fun _ hr => (by cases hr), rfl⟩ hrun

/-! ### After closing -/

theorem unread_eq (hok : Ok q) (hr : r ∈ q.readers) (hd : r.detached = false) :
    q.unread r = q.published.drop r.position := by
  have hle := (hok.readers r hr).base_le hd
  unfold unread
  rw [hok.buffer_eq, List.drop_drop]
  congr 1
  omega

theorem results_answer (r : Reader T) (asked : ℕ) (result : IteratorResult T) :
    (r.answer asked result).results = r.results ++ [some result] := by
  show List.map Promise.result (r.promises ++ [_]) = _
  rw [List.map_append]
  rfl

/-- On a closed queue an operation other than its `return` leaves a reader alone or is a call of
its `next`, which gives the next value or the end. -/
theorem Does.closed (hdoes : Does q i r op r') (hc : q.closed = true) (hd : r.detached = false)
    (hreturn : op ≠ .detach i) :
    op ≠ .next i ∧ r' = r ∨
      op = .next i ∧ r'.detached = false ∧
        ((∃ item, q.published[r.position]? = some item ∧ r'.position = r.position + 1 ∧
            r'.results = r.results ++ [some (.value item)]) ∨
          r.position = q.published.length ∧ r'.position = r.position ∧
            r'.results = r.results ++ [some .done]) := by
  have hopen : q.closed ≠ false := by rw [hc]; exact Bool.noConfusion
  cases hdoes with
  | unheard => exact .inl ⟨fun heq => (by cases heq), rfl⟩
  | passed ho => exact absurd ho hopen
  | woken ho => exact absurd ho hopen
  | stayed => exact .inl ⟨fun heq => (by cases heq), rfl⟩
  | ended ho => exact absurd ho hopen
  | opened => exact .inl ⟨fun heq => (by cases heq), rfl⟩
  | other_next hne => exact .inl ⟨fun heq => hne (Op.next.inj heq), rfl⟩
  | other_detach => exact .inl ⟨fun heq => (by cases heq), rfl⟩
  | next_detached hd' =>
    rw [hd] at hd'
    cases hd'
  | next_value _ hitem => exact .inr ⟨rfl, hd, .inl ⟨_, hitem, rfl, results_answer _ _ _⟩⟩
  | next_done _ _ hend => exact .inr ⟨rfl, hd, .inr ⟨hend, rfl, results_answer _ _ _⟩⟩
  | next_parked _ ho => exact absurd ho hopen
  | detached => exact absurd rfl hreturn

theorem drained_zero (items : List T) : drained items 0 = [] := by cases items <;> rfl

theorem asks_of_ne (h : op ≠ .next i) : op.asks i = false := by
  cases op with
  | next j => exact beq_false_of_ne fun heq => h (congrArg Op.next heq)
  | publish => rfl
  | close => rfl
  | reader => rfl
  | detach => rfl

/-- The calls of `next` on a closed queue give what was left, and then the end of the stream. -/
theorem drain {ops : List (Op T)} (hok : Ok q) (hc : q.closed = true) (hr : q.readers[i]? = some r)
    (hd : r.detached = false) (hreturn : .detach i ∉ ops) (hrun : runs step q ops = some q') :
    ∃ r', q'.readers[i]? = some r' ∧ r'.results = r.results ++
      (drained (q.published.drop r.position) (ops.countP (Op.asks i))).map some := by
  induction ops generalizing q r with
  | nil =>
    cases hrun
    refine ⟨r, hr, ?_⟩
    rw [List.countP_nil, drained_zero]
    exact (List.append_nil _).symm
  | cons op ops ih =>
    obtain ⟨u, hs, hrest⟩ := (runs_cons_eq_some step).mp hrun
    obtain ⟨hhead, htail⟩ : op ≠ .detach i ∧ .detach i ∉ ops :=
      ⟨fun heq => hreturn (heq ▸ List.mem_cons_self), fun hmem => hreturn (List.mem_cons_of_mem _ hmem)⟩
    obtain ⟨hpublished, hclosed, -⟩ := step_queue hok hs
    have hsame : u.published = q.published := by
      rw [hpublished, accepted_of_closed hc, List.append_nil]
    have hstill : u.closed = true := by
      rw [hclosed]
      cases op <;> first | exact hc | rfl
    obtain ⟨s, hsr, hdoes⟩ := step_does hok hs hr
    rw [List.countP_cons]
    rcases hdoes.closed hc hd hhead with ⟨hne, rfl⟩ | ⟨rfl, hd', hcall⟩
    · obtain ⟨r', hr', hresults⟩ := ih (step_ok hok hs) hstill hsr hd htail hrest
      refine ⟨r', hr', ?_⟩
      rw [asks_of_ne hne, ← hsame]
      exact hresults
    · obtain ⟨r', hr', hresults⟩ := ih (step_ok hok hs) hstill hsr hd' htail hrest
      refine ⟨r', hr', ?_⟩
      have hasks : (Op.next (T := T) i).asks i = true := beq_self_eq_true i
      rw [hasks, if_pos rfl, hresults, hsame]
      rcases hcall with ⟨item, hitem, hposition, hs'⟩ | ⟨hend, hposition, hs'⟩
      · obtain ⟨hlt, rfl⟩ := List.getElem?_eq_some_iff.mp hitem
        rw [hs', hposition, List.drop_eq_getElem_cons hlt, List.append_assoc]
        rfl
      · rw [hs', hposition, hend, List.drop_length, List.append_assoc]
        rfl

/-! ### Delivery -/

/-- **Delivery**: over every run of a queue with a positive limit, what a reader receives is a
subsequence, in order of publication, of what was published after it was created; a value is
passed over only if `limit` later ones had been published when the reader asked for the next,
and what lies between the last value received and the cursor had to make room as well; and
after closing, as long as `return` is not called, the calls of `next` give what is still
buffered for the reader, all that was published from its position on, and then the end. -/
theorem delivered_in_order {limit : ℕ} (hlimit : 1 ≤ limit) {ops : List (Op T)}
    (hrun : runs step (create limit) ops = some q) (hr : q.readers[i]? = some r) :
    r.received.Sublist (q.published.drop r.since) ∧
      (∃ stop, Delivery limit q.published r.since r.takes stop ∧ (r.detached = false →
        stop ≤ r.position ∧
          ∀ k, stop ≤ k → k < r.position → k + 1 + limit ≤ q.published.length)) ∧
      (q.closed = true → r.detached = false → q.unread r = q.published.drop r.position ∧
        ∀ (calls : List (Op T)) (q' : AsyncBroadcastQueue T), .detach i ∉ calls →
          runs step q calls = some q' → ∃ r', q'.readers[i]? = some r' ∧
            r'.results = r.results ++ (drained (q.unread r) (calls.countP (Op.asks i))).map some) := by
  obtain ⟨hok, hheard, hsame⟩ := runs_heard hlimit hrun
  have hmem := List.mem_of_getElem? hr
  obtain ⟨stop, hdelivery, hstop⟩ := (hheard r hmem).delivery
  rw [hsame] at hdelivery hstop
  refine ⟨hdelivery.sublist, ⟨stop, hdelivery, hstop⟩, fun hc hd => ?_⟩
  have hunread := unread_eq hok hmem hd
  refine ⟨hunread, fun calls q' hreturn hrest => ?_⟩
  rw [hunread]
  exact drain hok hc hr hd hreturn hrest

/-- A reader that asked twice after three values were published to a queue of limit two. -/
def lagging : Reader ℕ := ⟨3, none, false, 0, [⟨3, some (.value 2)⟩, ⟨3, some (.value 3)⟩]⟩

/-- It received the last two of the values, and would now be told that the stream has ended. -/
theorem delivered_in_order_lagging :
    runs step (create 2) [.reader, .publish 1, .publish 2, .publish 3, .close, .next 0, .next 0] =
        some ⟨[], 3, [lagging], true, 2, [1, 2, 3]⟩ ∧
      lagging.received = [2, 3] ∧ lagging.received.Sublist [1, 2, 3] := by
  have hrun : runs step (create 2)
      [.reader, .publish 1, .publish 2, .publish 3, .close, .next 0, .next 0] =
        some ⟨[], 3, [lagging], true, 2, [1, 2, 3]⟩ := by decide
  have hr : [lagging][0]? = some lagging := rfl
  exact ⟨hrun, rfl, (delivered_in_order (by decide) hrun hr).1⟩

end AsyncBroadcastQueue

end AgentHostProtocol.Client
