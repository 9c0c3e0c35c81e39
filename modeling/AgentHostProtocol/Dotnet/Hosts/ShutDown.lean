import AgentHostProtocol.Dotnet.Hosts.Registry
import AgentHostProtocol.Dotnet.Hosts.Stopped

/-!
# Taking hosts out of the .NET multi-host client

What is left when `AddHostAsync` fails and once `RemoveHostAsync` or `ShutdownAsync` has returned, for
any interleaving of their calls.

* `torn_down_of_orderly` — in every run whose steps are `Orderly` a failing `AddHostAsync` removes its
  own entry only, nothing runs for an entry once a call that removed it has returned, and once
  `ShutdownAsync` has returned `_hosts` stays empty and nothing runs for any entry.

The calls do not see to this by themselves: `AddHostAsync` checks `_didShutDown` long before `TryAdd`,
its `TryRemove` goes by the id alone, its supervisor is started after the first connection is made, and
nobody awaits a call of `OpenHostCoreAsync` that was abandoned.
-/

namespace AgentHostProtocol.Dotnet.Hosts.Registry

open Library

/-- The entry that `OpenHostAsync` failed for. -/
def Adding.failed? : Adding → Option ℕ
  | .failed entry => some entry
  | _ => none

/-- Nothing runs for the entry. -/
structure Entry.Stopped (h : Entry) : Prop where
  clients : h.clients = []
  supervised : h.supervised = false
  pumps : h.pumps = []

namespace State

structure TornDown (s : State) : Prop where
  /-- A failing call of `AddHostAsync` removes its own entry only. -/
  own : ∀ e ∈ s.log, ∀ k ∈ e.deleted, k = e.own
  /-- Nothing runs for an entry that was removed. -/
  removed : ∀ rem ∈ s.removers, rem.phase = .returned → ∀ k ∈ rem.took, ∀ h ∈ s.entries[k]?, h.Stopped
  /-- Once `ShutdownAsync` has returned there is no entry, and nothing runs. -/
  shutDown : ∀ rem ∈ s.removers, rem.shutdown = true → rem.phase = .returned →
    (∀ id, s.registry.get? id = none) ∧ ∀ h ∈ s.entries, h.Stopped

/-- `TryAdd` registers no entry that a call of `AddHostAsync` for the same id is about to remove, nor one
that `ShutdownAsync` has not copied; and where `OpenHostAsync` fails the entry that is registered, if
any, is the one that it was called for. -/
def AddOrderly (s : State) (call : AddCall) : Prop :=
  match call.pc with
  | .stored => s.registry.get? call.id = none →
    (∀ other ∈ s.adds, other.id = call.id → other.pc.failed? = none) ∧
      ∀ rem ∈ s.removers, rem.shutdown = true → rem.phase = .entered
  | .opening k => ∀ h ∈ s.entries[k]?, ∀ a ∈ h.attempts[0]?, a.phase ≠ .ended true →
    ∀ j ∈ s.registry.get? call.id, j = k
  | _ => True

/-- A call goes past a supervisor only when none is about to be started. It returns only when no call of
`OpenHostCoreAsync` for its entries has a client or is about to create one; for `ShutdownAsync` this goes
for every entry, and no call of `RemoveHostAsync` has tasks left to await. -/
def RemoveOrderly (s : State) (rem : Remover) : Prop :=
  match rem.phase, rem.toClose, rem.toAwait with
  | .next, [], k :: _ => ∀ h ∈ s.entries[k]?, h.supervise = .notStarted →
    ∀ a ∈ h.attempts[0]?, a.phase ≠ .ended true
  | .next, [], [] => (∀ k ∈ rem.took, ∀ h ∈ s.entries[k]?, h.Quiet) ∧
    (rem.shutdown = true → (∀ h ∈ s.entries, h.Quiet) ∧
      ∀ other ∈ s.removers, other.shutdown = false → other.toAwait = [] ∨ other.phase = .faulted)
  | _, _, _ => True

instance (h : Entry) : Decidable h.Quiet :=
  inferInstanceAs (Decidable (∀ a ∈ h.attempts, a.phase.quiet = true))

instance (s : State) (call : AddCall) : Decidable (s.AddOrderly call) := by
  unfold AddOrderly
  split <;> infer_instance

instance (s : State) (rem : Remover) : Decidable (s.RemoveOrderly rem) := by
  unfold RemoveOrderly
  split <;> infer_instance

/-- The condition on a step. `ShutdownAsync` is called again only when it has returned. -/
def Orderly (s : State) : Act → Prop
  | .add c _ => ∀ call ∈ s.adds[c]?, s.AddOrderly call
  | .shutdown => ∀ rem ∈ s.removers, rem.shutdown = true → rem.phase = .returned
  | .remove r => ∀ rem ∈ s.removers[r]?, s.RemoveOrderly rem
  | _ => True

instance (s : State) (a : Act) : Decidable (Orderly s a) := by
  cases a <;> unfold Orderly <;> infer_instance

/-! ### The invariant -/

/-- What the calls of `AddHostAsync` know. -/
def AddSound (entries : List Entry) (registry : Record ℕ) (c : ℕ) (call : AddCall) : Prop :=
  match call.pc with
  | .opening k => ∃ h, entries[k]? = some h ∧ h.owner = c ∧ h.supervise = .notStarted
  | .failed k => (∃ h, entries[k]? = some h ∧ h.Over) ∧ ∀ j ∈ registry.get? call.id, j = k
  | .unregistered k => ∃ h, entries[k]? = some h ∧ h.Over
  | _ => True

/-- What a call of `RemoveHostAsync` or `ShutdownAsync` has seen to where it is. -/
def Seen (entries : List Entry) (registry : Record ℕ) (r : ℕ) (rem : Remover) : Prop :=
  match rem.phase with
  | .entered => rem.took = []
  | .next => True
  | .copied => ∀ id, ∀ k ∈ registry.get? id, k ∈ rem.took
  | .cancelled => ∀ k ∈ rem.toClose.head?, ∀ h ∈ entries[k]?, h.cancelled = true
  | .closing client => ∀ k ∈ rem.toClose.head?, ∀ h ∈ entries[k]?, h.Held r client
  | .joined => ∀ k ∈ rem.toAwait.head?, ∀ h ∈ entries[k]?, h.Down
  | .returned => ∀ k ∈ rem.took, ∀ h ∈ entries[k]?, h.Over ∧ h.Quiet
  | .faulted => rem.shutdown = false → ∀ k ∈ rem.took, ∀ h ∈ entries[k]?, h.Over

/-- What holds of a call of `RemoveHostAsync` or `ShutdownAsync`. -/
structure RemoverSound (entries : List Entry) (registry : Record ℕ) (r : ℕ) (rem : Remover) : Prop where
  bound : ∀ k ∈ rem.took, k < entries.length
  toClose : ∀ k ∈ rem.toClose, k ∈ rem.took
  toAwait : ∀ k ∈ rem.toAwait, k ∈ rem.took
  closed : ∀ k ∈ rem.took, k ∈ rem.toClose ∨ ∀ h ∈ entries[k]?, h.Closed
  done : ∀ k ∈ rem.took, k ∈ rem.toAwait ∨ ∀ h ∈ entries[k]?, h.Over
  seen : Seen entries registry r rem
  /-- `RemoveHostAsync` takes one entry. -/
  single : rem.shutdown = false → (∃ k, rem.took = [k]) ∧ rem.phase ≠ .entered ∧ rem.phase ≠ .copied
  emptied : rem.shutdown = true → rem.phase ≠ .entered → rem.phase ≠ .copied → ∀ id, registry.get? id = none
  finished : rem.shutdown = true → rem.phase = .returned →
    ∀ (k : ℕ) (h : Entry), entries[k]? = some h → h.Over ∧ h.Quiet

structure Sound (s : State) : Prop where
  tracked : ∀ {k : ℕ} {h : Entry}, s.entries[k]? = some h → h.Tracked
  disposed : ∀ {k : ℕ} {h : Entry}, s.entries[k]? = some h → h.disposed = true → h.Over
  adds : ∀ {c : ℕ} {call : AddCall}, s.adds[c]? = some call → AddSound s.entries s.registry c call
  listed : ∀ {id : String} {k : ℕ}, s.registry.get? id = some k → k < s.entries.length
  removers : ∀ {r : ℕ} {rem : Remover}, s.removers[r]? = some rem → RemoverSound s.entries s.registry r rem
  /-- An entry is registered, or a call has taken it, or it is over. -/
  accounted : ∀ {k : ℕ} {h : Entry}, s.entries[k]? = some h →
    s.registry.get? h.id = some k ∨ (∃ rem ∈ s.removers, k ∈ rem.took) ∨ h.Over
  flag : s.didShutDown = true → ∃ rem ∈ s.removers, rem.shutdown = true
  unset : s.didShutDown = false → ∀ rem ∈ s.removers, rem.shutdown = false
  /-- One call of `ShutdownAsync` goes past the flag. -/
  sole : ∀ {r r' : ℕ} {rem rem' : Remover}, s.removers[r]? = some rem → s.removers[r']? = some rem' →
    rem.shutdown = true → rem'.shutdown = true → rem.phase ≠ .returned → rem'.phase ≠ .returned → r = r'
  own : ∀ e ∈ s.log, ∀ k ∈ e.deleted, k = e.own

theorem sound_new : Sound new where
  tracked hk := by cases hk
  disposed hk := by cases hk
  adds hc := by cases hc
  listed hk := by cases hk
  removers hr := by cases hr
  accounted hk := by cases hk
  flag h := by cases h
  unset _ _ hrem := by cases hrem
  sole hr := by cases hr
  own _ he := by cases he

theorem stopped_of_over {h : Entry} (ho : h.Over ∧ h.Quiet) : h.Stopped :=
  ⟨ho.1.clients_eq_nil ho.2, ho.1.supervised, ho.1.pumps⟩

theorem Sound.tornDown {s : State} (hi : Sound s) : TornDown s where
  own := hi.own
  removed rem hrem hreturned k hk h hh := by
    obtain ⟨r, hr⟩ := List.mem_iff_getElem?.mp hrem
    have hseen := (hi.removers hr).seen
    rw [Seen, hreturned] at hseen
    exact stopped_of_over (hseen k hk h hh)
  shutDown rem hrem hshutdown hreturned := by
    obtain ⟨r, hr⟩ := List.mem_iff_getElem?.mp hrem
    have hrem := hi.removers hr
    refine ⟨hrem.emptied hshutdown (by simp [hreturned]) (by simp [hreturned]), fun h hh => ?_⟩
    obtain ⟨k, hk⟩ := List.mem_iff_getElem?.mp hh
    exact stopped_of_over (hrem.finished hshutdown hreturned k h hk)

/-! ### An entry changes -/

theorem forall_set {P : Entry → Prop} {entries : List Entry} {k j : ℕ} {h h' : Entry}
    (hk : entries[k]? = some h) (hP : j = k → P h → P h') (hj : ∀ x ∈ entries[j]?, P x) :
    ∀ x ∈ (entries.set k h')[j]?, P x := by
  intro x hx
  rcases getElem?_set_eq_some hx with ⟨rfl, rfl⟩ | ⟨-, hx⟩
  · exact hP rfl (hj h hk)
  · exact hj x hx

section Changed

variable {entries : List Entry} {registry : Record ℕ} {k : ℕ} {h h' : Entry}

theorem AddSound.setEntry {c : ℕ} {call : AddCall} (hc : AddSound entries registry c call)
    (hk : entries[k]? = some h) (ha : h.Advances h')
    (hnot : h.owner = c → call.pc = .opening k → h.supervise = .notStarted → h'.supervise = .notStarted) :
    AddSound (entries.set k h') registry c call := by
  unfold AddSound at hc ⊢
  split at hc
  · next j hpc =>
    obtain ⟨x, hx, howner, hsup⟩ := hc
    by_cases hjk : j = k
    · subst hjk
      cases hk.symm.trans hx
      exact ⟨h', getElem?_set_of_some hk h', ha.owner.trans howner, hnot howner hpc hsup⟩
    · exact ⟨x, by rwa [List.getElem?_set_ne (Ne.symm hjk)], howner, hsup⟩
  · next j hpc =>
    obtain ⟨⟨x, hx, ho⟩, hown⟩ := hc
    by_cases hjk : j = k
    · subst hjk
      cases hk.symm.trans hx
      exact ⟨⟨h', getElem?_set_of_some hk h', ha.done ho⟩, hown⟩
    · exact ⟨⟨x, by rwa [List.getElem?_set_ne (Ne.symm hjk)], ho⟩, hown⟩
  · next j hpc =>
    obtain ⟨x, hx, ho⟩ := hc
    by_cases hjk : j = k
    · subst hjk
      cases hk.symm.trans hx
      exact ⟨h', getElem?_set_of_some hk h', ha.done ho⟩
    · exact ⟨x, by rwa [List.getElem?_set_ne (Ne.symm hjk)], ho⟩
  · trivial

theorem Seen.setEntry {r : ℕ} {rem : Remover} (hs : Seen entries registry r rem)
    (hk : entries[k]? = some h) (ha : h.Advances h')
    (hheld : ∀ client, rem.phase = .closing client → h.Held r client → h'.Held r client) :
    Seen (entries.set k h') registry r rem := by
  cases hphase : rem.phase with
  | next => simp only [Seen, hphase]
  | entered | copied =>
    simp only [Seen, hphase] at hs ⊢
    exact hs
  | cancelled =>
    simp only [Seen, hphase] at hs ⊢
    exact fun j hj => forall_set hk (fun _ => ha.cancelled) (hs j hj)
  | closing client =>
    simp only [Seen, hphase] at hs ⊢
    exact fun j hj => forall_set hk (fun _ => hheld client hphase) (hs j hj)
  | joined =>
    simp only [Seen, hphase] at hs ⊢
    exact fun j hj => forall_set hk (fun _ => ha.down) (hs j hj)
  | returned =>
    simp only [Seen, hphase] at hs ⊢
    exact fun j hj => forall_set hk (fun _ ho => ⟨ha.done ho.1, ha.quiet ho.1 ho.2⟩) (hs j hj)
  | faulted =>
    simp only [Seen, hphase] at hs ⊢
    exact fun hshutdown j hj => forall_set hk (fun _ => ha.done) (hs hshutdown j hj)

theorem RemoverSound.setEntry {r : ℕ} {rem : Remover} (hr : RemoverSound entries registry r rem)
    (hk : entries[k]? = some h) (ha : h.Advances h')
    (hheld : ∀ client, rem.phase = .closing client → h.Held r client → h'.Held r client) :
    RemoverSound (entries.set k h') registry r rem where
  bound := by simpa using hr.bound
  toClose := hr.toClose
  toAwait := hr.toAwait
  closed j hj := (hr.closed j hj).imp_right (forall_set hk fun _ => ha.closed)
  done j hj := (hr.done j hj).imp_right (forall_set hk fun _ => ha.done)
  seen := hr.seen.setEntry hk ha hheld
  single := hr.single
  emptied := hr.emptied
  finished hshutdown hreturned j x hx := by
    have hall := hr.finished hshutdown hreturned
    refine forall_set hk (fun _ ho => ?_) (hall j) x hx
    exact ⟨ha.done ho.1, ha.quiet ho.1 ho.2⟩

end Changed

/-- An entry changes. -/
theorem Sound.setEntry {s : State} (hi : Sound s) {k : ℕ} {h h' : Entry} (hk : s.entries[k]? = some h)
    (ha : h.Advances h') (ht : h'.Tracked) (hdisposed : h'.disposed = true → h.disposed = false → h'.Over)
    (hnot : ∀ call, s.adds[h.owner]? = some call → call.pc = .opening k → h.supervise = .notStarted →
      h'.supervise = .notStarted)
    (hheld : ∀ r rem client, s.removers[r]? = some rem → rem.phase = .closing client → h.Held r client →
      h'.Held r client) : Sound (s.setEntry k h') where
  tracked hj := by
    rcases getElem?_set_eq_some hj with ⟨-, rfl⟩ | ⟨-, hj⟩
    · exact ht
    · exact hi.tracked hj
  disposed hj hx := by
    rcases getElem?_set_eq_some hj with ⟨-, rfl⟩ | ⟨-, hj⟩
    · cases hbefore : h.disposed with
      | true => exact ha.done (hi.disposed hk hbefore)
      | false => exact hdisposed hx hbefore
    · exact hi.disposed hj hx
  adds {c call} hc := (hi.adds hc).setEntry hk ha fun howner hpc hsup => by
    subst howner
    exact hnot call hc hpc hsup
  listed hid := by
    change _ < (s.entries.set k h').length
    rw [List.length_set]
    exact hi.listed hid
  removers {r rem} hr := (hi.removers hr).setEntry hk ha (hheld r rem · hr)
  accounted {j x} hj := by
    rcases getElem?_set_eq_some hj with ⟨rfl, rfl⟩ | ⟨-, hj⟩
    · rw [ha.id]
      rcases hi.accounted hk with hlisted | htook | ho
      · exact .inl hlisted
      · exact .inr (.inl htook)
      · exact .inr (.inr (ha.done ho))
    · exact hi.accounted hj
  flag := hi.flag
  unset := hi.unset
  sole := hi.sole
  own := hi.own

/-! ### A call goes on -/

theorem Sound.setAdd {s : State} (hi : Sound s) {c : ℕ} {call : AddCall} {pc : Adding}
    (hnew : AddSound s.entries s.registry c { call with pc := pc }) : Sound (s.setAdd c call pc) where
  tracked := hi.tracked
  disposed := hi.disposed
  adds hc := by
    rcases getElem?_set_eq_some hc with ⟨rfl, rfl⟩ | ⟨-, hc⟩
    · exact hnew
    · exact hi.adds hc
  listed := hi.listed
  removers := hi.removers
  accounted := hi.accounted
  flag := hi.flag
  unset := hi.unset
  sole := hi.sole
  own := hi.own

theorem Sound.setRemover {s : State} (hi : Sound s) {r : ℕ} {rem rem' : Remover}
    (hr : s.removers[r]? = some rem) (hnew : RemoverSound s.entries s.registry r rem')
    (hshutdown : rem'.shutdown = rem.shutdown) (htook : ∀ k ∈ rem.took, k ∈ rem'.took)
    (hphase : rem.phase ≠ .returned) : Sound (s.setRemover r rem') where
  tracked := hi.tracked
  disposed := hi.disposed
  adds := hi.adds
  listed := hi.listed
  removers hr' := by
    rcases getElem?_set_eq_some hr' with ⟨rfl, rfl⟩ | ⟨-, hr'⟩
    · exact hnew
    · exact hi.removers hr'
  accounted {k h} hk := by
    rcases hi.accounted hk with hlisted | ⟨other, hother, hmem⟩ | ho
    · exact .inl hlisted
    · obtain ⟨j, hj⟩ := List.mem_iff_getElem?.mp hother
      by_cases hjr : j = r
      · subst hjr
        cases hr.symm.trans hj
        exact .inr (.inl ⟨rem', List.mem_of_getElem? (getElem?_set_of_some hr rem'), htook k hmem⟩)
      · refine .inr (.inl ⟨other, List.mem_of_getElem? (i := j) ?_, hmem⟩)
        change (s.removers.set r rem')[j]? = some other
        rw [List.getElem?_set_ne (Ne.symm hjr)]
        exact hj
    · exact .inr (.inr ho)
  flag hflag := by
    obtain ⟨other, hother, hdown⟩ := hi.flag hflag
    obtain ⟨j, hj⟩ := List.mem_iff_getElem?.mp hother
    by_cases hjr : j = r
    · subst hjr
      cases hr.symm.trans hj
      exact ⟨rem', List.mem_of_getElem? (getElem?_set_of_some hr rem'), hshutdown.trans hdown⟩
    · refine ⟨other, List.mem_of_getElem? (i := j) ?_, hdown⟩
      change (s.removers.set r rem')[j]? = some other
      rw [List.getElem?_set_ne (Ne.symm hjr)]
      exact hj
  unset hflag other hother := by
    rcases List.mem_or_eq_of_mem_set hother with hother | rfl
    · exact hi.unset hflag other hother
    · rw [hshutdown]
      exact hi.unset hflag rem (List.mem_of_getElem? hr)
  sole {i j x y} hx hy hsx hsy hpx hpy := by
    rcases getElem?_set_eq_some hx with ⟨rfl, rfl⟩ | ⟨-, hx'⟩ <;>
      rcases getElem?_set_eq_some hy with ⟨rfl, rfl⟩ | ⟨-, hy'⟩
    · rfl
    · exact hi.sole hr hy' (hshutdown ▸ hsx) hsy hphase hpy
    · exact hi.sole hx' hr hsx (hshutdown ▸ hsy) hpx hphase
    · exact hi.sole hx' hy' hsx hsy hpx hpy
  own := hi.own

/-- `RemoveHostAsync` has taken an entry, or `ShutdownAsync` is called. -/
theorem Sound.append {s : State} (hi : Sound s) {rem : Remover} (flag : Bool)
    (hnew : RemoverSound s.entries s.registry s.removers.length rem)
    (hflag : flag = true ↔ s.didShutDown = true ∨ rem.shutdown = true)
    (hsole : rem.shutdown = true → rem.phase ≠ .returned → s.didShutDown = false) :
    Sound { s with didShutDown := flag, removers := s.removers ++ [rem] } where
  tracked := hi.tracked
  disposed := hi.disposed
  adds := hi.adds
  listed := hi.listed
  removers hr := by
    rcases getElem?_concat_eq_some hr with ⟨rfl, rfl⟩ | hr
    · exact hnew
    · exact hi.removers hr
  accounted hk := by
    rcases hi.accounted hk with hlisted | ⟨other, hother, hmem⟩ | ho
    · exact .inl hlisted
    · exact .inr (.inl ⟨other, List.mem_append_left _ hother, hmem⟩)
    · exact .inr (.inr ho)
  flag hset := by
    rcases hflag.mp hset with hset | hdown
    · obtain ⟨other, hother, hdown⟩ := hi.flag hset
      exact ⟨other, List.mem_append_left _ hother, hdown⟩
    · exact ⟨rem, List.mem_append_right _ List.mem_cons_self, hdown⟩
  unset hunset other hother := by
    change flag = false at hunset
    have hnot : ¬ (s.didShutDown = true ∨ rem.shutdown = true) := by
      rw [← hflag, hunset]
      exact Bool.false_ne_true
    rw [not_or, Bool.not_eq_true, Bool.not_eq_true] at hnot
    rcases List.mem_append.mp hother with hother | hother
    · exact hi.unset hnot.1 other hother
    · rw [List.mem_singleton.mp hother]
      exact hnot.2
  sole {i j x y} hx hy hsx hsy hpx hpy := by
    rcases getElem?_concat_eq_some hx with ⟨rfl, rfl⟩ | hx' <;>
      rcases getElem?_concat_eq_some hy with ⟨rfl, rfl⟩ | hy'
    · rfl
    · rw [hi.unset (hsole hsx hpx) y (List.mem_of_getElem? hy')] at hsy
      cases hsy
    · rw [hi.unset (hsole hsy hpy) x (List.mem_of_getElem? hx')] at hsx
      cases hsx
    · exact hi.sole hx' hy' hsx hsy hpx hpy
  own := hi.own

/-- Entries leave the registry that are over or that a call has taken. -/
theorem Sound.unregister {s : State} (hi : Sound s) {registry : Record ℕ}
    (hshrinks : ∀ id, ∀ k ∈ registry.get? id, s.registry.get? id = some k)
    (haccounted : ∀ (k : ℕ) (h : Entry), s.entries[k]? = some h → s.registry.get? h.id = some k →
      registry.get? h.id = some k ∨ (∃ rem ∈ s.removers, k ∈ rem.took) ∨ h.Over) :
    Sound { s with registry := registry } where
  tracked := hi.tracked
  disposed := hi.disposed
  adds {c call} hc := by
    have hadd := hi.adds hc
    unfold AddSound at hadd ⊢
    split at hadd
    · exact hadd
    · exact ⟨hadd.1, fun j hj => hadd.2 j (hshrinks call.id j hj)⟩
    · exact hadd
    · trivial
  listed hid := hi.listed (hshrinks _ _ hid)
  removers {r rem} hr := by
    have hrem := hi.removers hr
    refine ⟨hrem.bound, hrem.toClose, hrem.toAwait, hrem.closed, hrem.done, ?_, hrem.single,
      fun hshutdown hentered hcopied id => ?_, hrem.finished⟩
    · have hseen := hrem.seen
      unfold Seen at hseen ⊢
      split at hseen
      · exact hseen
      · trivial
      · exact fun id k hk => hseen id k (hshrinks id k hk)
      all_goals exact hseen
    · refine Option.eq_none_iff_forall_ne_some.mpr fun k hk => ?_
      have hbefore := hshrinks id k hk
      rw [hrem.emptied hshutdown hentered hcopied id] at hbefore
      cases hbefore
  accounted {k h} hk := by
    rcases hi.accounted hk with hlisted | htook | ho
    · exact haccounted k h hk hlisted
    · exact .inr (.inl htook)
    · exact .inr (.inr ho)
  flag := hi.flag
  unset := hi.unset
  sole := hi.sole
  own := hi.own

/-! ### `TryAdd` -/

theorem forall_concat {P : Entry → Prop} {entries : List Entry} {j : ℕ} {x : Entry}
    (hlt : j < entries.length) (hj : ∀ h ∈ entries[j]?, P h) : ∀ h ∈ (entries ++ [x])[j]?, P h := by
  intro h hh
  rw [List.getElem?_append_left hlt] at hh
  exact hj h hh

theorem RemoverSound.insert {entries : List Entry} {registry : Record ℕ} {r : ℕ} {rem : Remover}
    (hr : RemoverSound entries registry r rem) (hguard : rem.shutdown = true → rem.phase = .entered)
    (id : String) (x : Entry) :
    RemoverSound (entries ++ [x]) (registry.set id entries.length) r rem where
  bound k hk := by
    have hlt := hr.bound k hk
    rw [List.length_append]
    omega
  toClose := hr.toClose
  toAwait := hr.toAwait
  closed k hk := (hr.closed k hk).imp_right (forall_concat (hr.bound k hk))
  done k hk := (hr.done k hk).imp_right (forall_concat (hr.bound k hk))
  seen := by
    have hseen := hr.seen
    cases hshutdown : rem.shutdown with
    | true =>
      simp only [Seen, hguard hshutdown] at hseen ⊢
      exact hseen
    | false =>
      unfold Seen at hseen ⊢
      split at hseen
      · exact hseen
      · trivial
      · next hphase => exact absurd hphase (hr.single hshutdown).2.2
      · exact fun k hk => forall_concat (hr.bound k (hr.toClose k (List.mem_of_mem_head? hk))) (hseen k hk)
      · exact fun k hk => forall_concat (hr.bound k (hr.toClose k (List.mem_of_mem_head? hk))) (hseen k hk)
      · exact fun k hk => forall_concat (hr.bound k (hr.toAwait k (List.mem_of_mem_head? hk))) (hseen k hk)
      · exact fun k hk => forall_concat (hr.bound k hk) (hseen k hk)
      · exact fun hfalse k hk => forall_concat (hr.bound k hk) (hseen hfalse k hk)
  single := hr.single
  emptied hshutdown hentered := absurd (hguard hshutdown) hentered
  finished hshutdown hreturned := by
    rw [hguard hshutdown] at hreturned
    cases hreturned

theorem AddSound.insert {entries : List Entry} {registry : Record ℕ} {c : ℕ} {call : AddCall}
    (hc : AddSound entries registry c call) {id : String}
    (hguard : call.id = id → call.pc.failed? = none) (x : Entry) :
    AddSound (entries ++ [x]) (registry.set id entries.length) c call := by
  unfold AddSound at hc ⊢
  split at hc
  · obtain ⟨h, hh, hc⟩ := hc
    exact ⟨h, getElem?_concat_of_some hh x, hc⟩
  · next k hpc =>
    obtain ⟨⟨h, hh, ho⟩, hown⟩ := hc
    refine ⟨⟨h, getElem?_concat_of_some hh x, ho⟩, ?_⟩
    rw [Record.get?_set]
    split
    · next hid =>
      have hfailed := hguard hid
      rw [hpc] at hfailed
      cases hfailed
    · exact hown
  · obtain ⟨h, hh, ho⟩ := hc
    exact ⟨h, getElem?_concat_of_some hh x, ho⟩
  · trivial

theorem Sound.insert {s : State} (hi : Sound s) {c : ℕ} {call : AddCall} (hc : s.adds[c]? = some call)
    (hfree : s.registry.get? call.id = none)
    (hfailed : ∀ other ∈ s.adds, other.id = call.id → other.pc.failed? = none)
    (hguard : ∀ rem ∈ s.removers, rem.shutdown = true → rem.phase = .entered) :
    Sound (s.insert c call) where
  tracked hk := by
    rcases getElem?_concat_eq_some hk with ⟨-, rfl⟩ | hk
    · exact Entry.tracked_new _ _
    · exact hi.tracked hk
  disposed hk hdisposed := by
    rcases getElem?_concat_eq_some hk with ⟨-, rfl⟩ | hk
    · cases hdisposed
    · exact hi.disposed hk hdisposed
  adds {d other} hd := by
    rcases getElem?_set_eq_some hd with ⟨rfl, rfl⟩ | ⟨-, hd⟩
    · exact ⟨Entry.new call.id d, by simp [State.insert], rfl, rfl⟩
    · exact (hi.adds hd).insert (hfailed other (List.mem_of_getElem? hd)) _
  listed {id k} hid := by
    change k < (s.entries ++ [Entry.new call.id c]).length
    rw [List.length_append, List.length_singleton]
    change (s.registry.set call.id s.entries.length).get? id = some k at hid
    rw [Record.get?_set] at hid
    split at hid
    · cases hid
      omega
    · have hlt := hi.listed hid
      omega
  removers {r rem} hr := (hi.removers hr).insert (hguard rem (List.mem_of_getElem? hr)) _ _
  accounted {k h} hk := by
    change (s.registry.set call.id s.entries.length).get? h.id = some k ∨ _
    rcases getElem?_concat_eq_some hk with ⟨rfl, rfl⟩ | hk
    · left
      rw [Record.get?_set]
      exact if_pos rfl
    · rcases hi.accounted hk with hlisted | htook | ho
      · left
        rw [Record.get?_set, if_neg]
        · exact hlisted
        · intro hid
          rw [hid, hfree] at hlisted
          cases hlisted
      · exact .inr (.inl htook)
      · exact .inr (.inr ho)
  flag := hi.flag
  unset := hi.unset
  sole := hi.sole
  own := hi.own

/-! ### `AddHostAsync` -/

theorem Sound.start {s : State} (hi : Sound s) {c k : ℕ} {call : AddCall} {h : Entry}
    (hc : s.adds[c]? = some call) (hpc : call.pc = .opening k) (hh : s.entries[k]? = some h)
    (hinstalled : h.Installed 0) : Sound ((s.setAdd c call (.returned .ok)).setEntry k h.start) := by
  have hadd := hi.adds hc
  rw [AddSound, hpc] at hadd
  obtain ⟨x, hx, howner, hnot⟩ := hadd
  cases hh.symm.trans hx
  have hnext : Sound (s.setAdd c call (.returned .ok)) := hi.setAdd trivial
  refine hnext.setEntry hh (Entry.advances_start hnot hinstalled) ((hi.tracked hh).start hnot hinstalled)
    (fun hset hunset => ?_) (fun other hother hpc' => ?_) fun _ _ _ _ _ hheld => ?_
  · cases hset.symm.trans hunset
  · -- the call that starts the supervisor is the one that made the entry
    rw [howner] at hother
    cases (getElem?_set_of_some hc _).symm.trans hother
    cases hpc'
  · exact ⟨hheld.cancelled, hheld.gate, hheld.client⟩

theorem Sound.fail {s : State} (hi : Sound s) {c k : ℕ} {call : AddCall} {h : Entry} {a : Attempt}
    (hc : s.adds[c]? = some call) (hpc : call.pc = .opening k) (hh : s.entries[k]? = some h)
    (ha : h.attempts[0]? = some a) (hne : a.phase ≠ .ended true)
    (hover : a.phase = .ended false ∨ a.cancelled = true ∨ h.cancelled = true)
    (hown : ∀ j ∈ s.registry.get? call.id, j = k) : Sound (s.setAdd c call (.failed k)) := by
  have hadd := hi.adds hc
  rw [AddSound, hpc] at hadd
  obtain ⟨x, hx, -, hnot⟩ := hadd
  cases hh.symm.trans hx
  exact hi.setAdd ⟨⟨h, hh, (hi.tracked hh).isOver hnot ha hne hover⟩, hown⟩

theorem delete_shrinks {registry : Record ℕ} {id : String} :
    ∀ id', ∀ k ∈ (registry.delete id).get? id', registry.get? id' = some k := by
  intro id' k hk
  rw [Record.get?_delete] at hk
  split at hk
  · cases hk
  · exact hk

theorem Sound.clean {s : State} (hi : Sound s) {c k : ℕ} {call : AddCall}
    (hc : s.adds[c]? = some call) (hpc : call.pc = .failed k) : Sound (s.clean c call k) := by
  have hadd := hi.adds hc
  rw [AddSound, hpc] at hadd
  obtain ⟨⟨h, hh, ho⟩, hown⟩ := hadd
  have hdeleted : Sound { s with registry := s.registry.delete call.id } := by
    refine hi.unregister delete_shrinks fun j x hj hlisted => ?_
    by_cases hid : x.id = call.id
    · rw [hid] at hlisted
      cases hown j hlisted
      cases hh.symm.trans hj
      exact .inr (.inr ho)
    · left
      rw [Record.get?_delete, if_neg hid]
      exact hlisted
  have hnext : Sound (State.setAdd { s with registry := s.registry.delete call.id } c call
      (if (s.registry.get? call.id).isSome then .unregistered k else .returned .openError)) := by
    refine hdeleted.setAdd ?_
    split
    · exact ⟨h, hh, ho⟩
    · trivial
  refine ⟨hnext.tracked, hnext.disposed, hnext.adds, hnext.listed, hnext.removers, hnext.accounted,
    hnext.flag, hnext.unset, hnext.sole, fun e he j hj => ?_⟩
  rcases List.mem_append.mp he with he | he
  · exact hi.own e he j hj
  · cases List.mem_singleton.mp he
    exact hown j hj

theorem Sound.dispose {s : State} (hi : Sound s) {c k : ℕ} {call : AddCall} {h : Entry}
    (hc : s.adds[c]? = some call) (hpc : call.pc = .unregistered k) (hh : s.entries[k]? = some h) :
    Sound ((s.setAdd c call (.returned .openError)).setEntry k h.cancel.dispose) := by
  have hadd := hi.adds hc
  rw [AddSound, hpc] at hadd
  obtain ⟨x, hx, ho⟩ := hadd
  cases hh.symm.trans hx
  have hnext : Sound (s.setAdd c call (.returned .openError)) := hi.setAdd trivial
  have ha := (Entry.advances_cancel h).trans (Entry.advances_dispose h.cancel)
  exact hnext.setEntry hh ha (hi.tracked hh).cancel.dispose (fun _ _ => ha.done ho)
    (fun _ _ _ hnot => hnot) fun _ _ _ _ _ hheld => ⟨rfl, hheld.gate, hheld.client⟩

/-! ### `RemoveHostAsync` and `ShutdownAsync` -/

/-- A call goes on with the same entries. -/
theorem RemoverSound.goesOn {entries : List Entry} {registry : Record ℕ} {r : ℕ} {rem : Remover}
    (hr : RemoverSound entries registry r rem) {phase : Removing}
    (hbefore : rem.phase ≠ .entered ∧ rem.phase ≠ .copied)
    (hafter : phase ≠ .entered ∧ phase ≠ .copied ∧ phase ≠ .returned)
    (hseen : Seen entries registry r { rem with phase := phase }) :
    RemoverSound entries registry r { rem with phase := phase } where
  bound := hr.bound
  toClose := hr.toClose
  toAwait := hr.toAwait
  closed := hr.closed
  done := hr.done
  seen := hseen
  single hshutdown := ⟨(hr.single hshutdown).1, hafter.1, hafter.2.1⟩
  emptied hshutdown _ _ := hr.emptied hshutdown hbefore.1 hbefore.2
  finished _ hreturned := absurd hreturned hafter.2.2

theorem Sound.goesOn {s : State} (hi : Sound s) {r : ℕ} {rem : Remover} (hr : s.removers[r]? = some rem)
    {phase : Removing} (hbefore : rem.phase ≠ .entered ∧ rem.phase ≠ .copied ∧ rem.phase ≠ .returned)
    (hafter : phase ≠ .entered ∧ phase ≠ .copied ∧ phase ≠ .returned)
    (hseen : Seen s.entries s.registry r { rem with phase := phase }) :
    Sound (s.setRemover r { rem with phase := phase }) :=
  hi.setRemover hr ((hi.removers hr).goesOn ⟨hbefore.1, hbefore.2.1⟩ hafter hseen) rfl (fun _ hk => hk)
    hbefore.2.2

theorem Sound.removeHost {s : State} (hi : Sound s) {id : String} {k : ℕ}
    (hk : s.registry.get? id = some k) : Sound { s with
      registry := s.registry.delete id
      removers := s.removers ++ [⟨false, [k], [k], [k], .next⟩] } := by
  have hnew : RemoverSound s.entries s.registry s.removers.length ⟨false, [k], [k], [k], .next⟩ := by
    refine ⟨fun j hj => ?_, fun _ hj => hj, fun _ hj => hj, fun _ hj => .inl hj, fun _ hj => .inl hj, trivial,
      fun _ => ⟨⟨k, rfl⟩, by simp, by simp⟩, fun hshutdown => (by cases hshutdown),
      fun hshutdown => by cases hshutdown⟩
    rw [List.mem_singleton.mp hj]
    exact hi.listed hk
  have hnext : Sound { s with removers := s.removers ++ [⟨false, [k], [k], [k], .next⟩] } :=
    hi.append s.didShutDown hnew (by simp) (by simp)
  refine hnext.unregister delete_shrinks fun j x hj hlisted => ?_
  by_cases hid : x.id = id
  · rw [hid] at hlisted
    cases hk.symm.trans hlisted
    exact .inr (.inl ⟨_, List.mem_append_right _ List.mem_cons_self, List.mem_cons_self⟩)
  · left
    rw [Record.get?_delete, if_neg hid]
    exact hlisted

theorem Sound.shutdown {s : State} (hi : Sound s)
    (hg : ∀ rem ∈ s.removers, rem.shutdown = true → rem.phase = .returned) : Sound { s with
      didShutDown := true
      removers := s.removers ++ [⟨true, [], [], [], if s.didShutDown then .returned else .entered⟩] } := by
  refine hi.append true ?_ (by simp) (by simp)
  have hnone : ∀ k ∈ ([] : List ℕ), False := fun k hk => by cases hk
  cases hflag : s.didShutDown with
  | false =>
    exact ⟨fun k hk => (hnone k hk).elim, fun k hk => (hnone k hk).elim, fun k hk => (hnone k hk).elim,
      fun k hk => (hnone k hk).elim, fun k hk => (hnone k hk).elim, rfl,
      fun hshutdown => (by cases hshutdown), fun _ hentered => absurd rfl hentered,
      fun _ hreturned => (by cases hreturned)⟩
  | true =>
    -- an earlier call has seen to everything
    obtain ⟨rem, hrem, hshutdown⟩ := hi.flag hflag
    have hreturned := hg rem hrem hshutdown
    obtain ⟨r, hr⟩ := List.mem_iff_getElem?.mp hrem
    have hsound := hi.removers hr
    exact ⟨fun k hk => (hnone k hk).elim, fun k hk => (hnone k hk).elim, fun k hk => (hnone k hk).elim,
      fun k hk => (hnone k hk).elim, fun k hk => (hnone k hk).elim, fun k hk => (hnone k hk).elim,
      fun hshutdown => (by cases hshutdown),
      fun _ _ _ => hsound.emptied hshutdown (by simp [hreturned]) (by simp [hreturned]),
      fun _ _ => hsound.finished hshutdown hreturned⟩

theorem Sound.copy {s : State} (hi : Sound s) {r : ℕ} {rem : Remover} {order : List ℕ}
    (hr : s.removers[r]? = some rem) (hshutdown : rem.shutdown = true) (hphase : rem.phase = .entered)
    (hperm : order.Perm (s.registry.entries.map Prod.snd)) :
    Sound (s.setRemover r ⟨true, order, order, order, .copied⟩) := by
  have htook := (hi.removers hr).seen
  rw [Seen, hphase] at htook
  refine hi.setRemover hr ?_ hshutdown.symm (by simp [htook]) (by simp [hphase])
  refine ⟨fun k hk => ?_, fun _ hk => hk, fun _ hk => hk, fun _ hk => .inl hk, fun _ hk => .inl hk,
    fun id k hk => ?_, fun hfalse => (by cases hfalse), fun _ _ hcopied => absurd rfl hcopied,
    fun _ hreturned => (by cases hreturned)⟩
  · obtain ⟨e, he, rfl⟩ := List.mem_map.mp (hperm.mem_iff.mp hk)
    exact hi.listed (Record.mem_entries.mp he)
  · exact hperm.mem_iff.mpr (List.mem_map.mpr ⟨(id, k), Record.mem_entries.mpr hk, rfl⟩)

theorem Sound.clear {s : State} (hi : Sound s) {r : ℕ} {rem : Remover} (hr : s.removers[r]? = some rem)
    (hphase : rem.phase = .copied) :
    Sound { s.setRemover r { rem with phase := .next } with registry := .empty } := by
  have hseen := (hi.removers hr).seen
  rw [Seen, hphase] at hseen
  have hcleared : Sound { s with registry := .empty } := by
    refine hi.unregister (fun id k hk => by cases hk) fun k h _ hlisted => ?_
    exact .inr (.inl ⟨rem, List.mem_of_getElem? hr, hseen h.id k hlisted⟩)
  have hrem := hcleared.removers hr
  refine hcleared.setRemover hr ?_ rfl (fun _ hk => hk) (by simp [hphase])
  exact ⟨hrem.bound, hrem.toClose, hrem.toAwait, hrem.closed, hrem.done, trivial,
    fun hshutdown => absurd hphase (hrem.single hshutdown).2.2, fun _ _ _ _ => rfl,
    fun _ hreturned => (by cases hreturned)⟩

theorem head?_mem {toClose : List ℕ} {k : ℕ} {rem : Remover} (hclose : rem.toClose = k :: toClose) :
    ∀ j ∈ rem.toClose.head?, j = k := by
  intro j hj
  rw [hclose] at hj
  exact (Option.some.inj hj).symm

theorem Sound.cancel {s : State} (hi : Sound s) {r k : ℕ} {rem : Remover} {toClose : List ℕ} {h : Entry}
    (hr : s.removers[r]? = some rem) (hphase : rem.phase = .next) (hclose : rem.toClose = k :: toClose)
    (hh : s.entries[k]? = some h) :
    Sound ((s.setRemover r { rem with phase := .cancelled }).setEntry k h.cancel) := by
  have hnext := hi.setEntry hh (Entry.advances_cancel h) (hi.tracked hh).cancel
    (fun hset hunset => by cases hset.symm.trans hunset) (fun _ _ _ hnot => hnot)
    fun _ _ _ _ _ hheld => ⟨rfl, hheld.gate, hheld.client⟩
  refine hnext.goesOn hr (by simp [hphase]) (by simp) fun j hj x hx => ?_
  cases head?_mem hclose j hj
  cases (getElem?_set_of_some hh h.cancel).symm.trans hx
  rfl

theorem Sound.acquire {s : State} (hi : Sound s) {r k : ℕ} {rem : Remover} {toClose : List ℕ} {h : Entry}
    (hr : s.removers[r]? = some rem) (hphase : rem.phase = .cancelled) (hclose : rem.toClose = k :: toClose)
    (hh : s.entries[k]? = some h) (hgate : h.gate = none) :
    Sound ((s.setRemover r { rem with phase := .closing h.client }).setEntry k
      { h with gate := some (.remover r) }) := by
  have hseen := (hi.removers hr).seen
  rw [Seen, hphase] at hseen
  have hnext := hi.setEntry hh (Entry.advances_setGate h (some (.remover r)))
    ((hi.tracked hh).setGate (by simp [hgate]) _) (fun hset hunset => by cases hset.symm.trans hunset)
    (fun _ _ _ hnot => hnot) fun _ _ _ _ _ hheld => by
      have hother := hheld.gate
      rw [hgate] at hother
      cases hother
  refine hnext.goesOn hr (by simp [hphase]) (by simp) fun j hj x hx => ?_
  cases head?_mem hclose j hj
  cases (getElem?_set_of_some hh _).symm.trans hx
  exact ⟨hseen k hj h hh, rfl, rfl⟩

theorem setRemover_setEntry_setRemover (s : State) (r k : ℕ) (rem rem' : Remover) (h : Entry) :
    ((s.setRemover r rem).setEntry k h).setRemover r rem' = (s.setRemover r rem').setEntry k h := by
  simp only [setRemover, setEntry, List.set_set]

theorem Sound.close {s : State} (hi : Sound s) {r k : ℕ} {rem : Remover} {client : Option ℕ}
    {toClose : List ℕ} {h : Entry} (hr : s.removers[r]? = some rem) (hphase : rem.phase = .closing client)
    (hclose : rem.toClose = k :: toClose) (hh : s.entries[k]? = some h) :
    Sound ((s.setRemover r { rem with toClose := toClose, phase := .next }).setEntry k
      { h.shutdownClient client with gate := none }) := by
  have hseen := (hi.removers hr).seen
  rw [Seen, hphase] at hseen
  have hheld : h.Held r client := hseen k (by rw [hclose]; rfl) h hh
  have ht := hi.tracked hh
  have hgate : (h.shutdownClient client).gate = some (.remover r) := by
    cases client <;> exact hheld.gate
  have hclosed : Entry.Closed { h.shutdownClient client with gate := none } :=
    (Entry.advances_setGate _ none).closed (hheld.closed ht)
  -- while the gate is given back the call itself claims nothing
  have hfree : Sound (s.setRemover r { rem with phase := .next }) :=
    hi.goesOn hr (by simp [hphase]) (by simp) trivial
  have hr' : (s.setRemover r { rem with phase := .next }).removers[r]? = some { rem with phase := .next } :=
    getElem?_set_of_some hr _
  have hnext := hfree.setEntry hh ((Entry.advances_shutdownClient h client).trans (Entry.advances_setGate _ none))
    ((ht.shutdownClient client).setGate (by simp [hgate]) none)
    (fun hset hunset => by cases client <;> cases hset.symm.trans hunset)
    (fun _ _ _ hnot => by cases client <;> exact hnot) fun r' rem' client' hr'' hphase' hheld' => by
      cases Holder.remover.inj (Option.some.inj (hheld.gate.symm.trans hheld'.gate))
      cases hr'.symm.trans hr''
      cases hphase'
  have hr'' : ((s.setRemover r { rem with phase := .next }).setEntry k
      { h.shutdownClient client with gate := none }).removers[r]? = some { rem with phase := .next } := hr'
  have hrem := hnext.removers hr''
  have hlast : RemoverSound _ s.registry r { rem with toClose := toClose, phase := .next } :=
    { bound := hrem.bound
      toClose := fun j hj => hrem.toClose j (by
        change j ∈ rem.toClose
        rw [hclose]
        exact List.mem_cons_of_mem _ hj)
      toAwait := hrem.toAwait
      closed := fun j hj => by
        rcases hrem.closed j hj with hmem | hdone
        · change j ∈ rem.toClose at hmem
          rw [hclose] at hmem
          rcases List.mem_cons.mp hmem with rfl | hmem
          · refine .inr fun x hx => ?_
            cases (getElem?_set_of_some hh _).symm.trans hx
            exact hclosed
          · exact .inl hmem
        · exact .inr hdone
      done := hrem.done
      seen := trivial
      single := hrem.single
      emptied := hrem.emptied
      finished := fun _ hreturned => by cases hreturned }
  have hdone := hnext.setRemover hr'' hlast rfl (fun _ hk => hk) (by simp)
  rwa [setRemover_setEntry_setRemover] at hdone

/-- The entry that a call fails on is over, and for `RemoveHostAsync` there is no other. -/
theorem Sound.fault {s : State} (hi : Sound s) {r k : ℕ} {rem : Remover} {toClose : List ℕ} {h : Entry}
    (hr : s.removers[r]? = some rem)
    (hphase : rem.phase ≠ .entered ∧ rem.phase ≠ .copied ∧ rem.phase ≠ .returned)
    (hclose : rem.toClose = k :: toClose) (hh : s.entries[k]? = some h) (hdisposed : h.disposed = true) :
    Sound (s.setRemover r { rem with phase := .faulted }) := by
  have hrem := hi.removers hr
  refine hi.goesOn hr hphase (by simp) fun hshutdown j hj x hx => ?_
  obtain ⟨⟨i, hsingle⟩, -⟩ := hrem.single hshutdown
  have hk := hrem.toClose k (by rw [hclose]; exact List.mem_cons_self)
  change j ∈ rem.took at hj
  rw [hsingle, List.mem_singleton] at hk hj
  subst hk
  subst hj
  cases hh.symm.trans hx
  exact hi.disposed hh hdisposed

theorem Sound.faultClosing {s : State} (hi : Sound s) {r k : ℕ} {rem : Remover} {client : Option ℕ}
    {toClose : List ℕ} {h : Entry} (hr : s.removers[r]? = some rem) (hphase : rem.phase = .closing client)
    (hclose : rem.toClose = k :: toClose) (hh : s.entries[k]? = some h) (hdisposed : h.disposed = true) :
    Sound ((s.setRemover r { rem with phase := .faulted }).setEntry k (h.shutdownClient client)) := by
  have hnext := hi.setEntry hh (Entry.advances_shutdownClient h client) ((hi.tracked hh).shutdownClient client)
    (fun _ hunset => by cases hdisposed.symm.trans hunset) (fun _ _ _ hnot => by cases client <;> exact hnot)
    fun _ _ _ _ _ hheld => by cases client <;> exact ⟨hheld.cancelled, hheld.gate, hheld.client⟩
  have hh' : (s.setEntry k (h.shutdownClient client)).entries[k]? = some (h.shutdownClient client) :=
    getElem?_set_of_some hh _
  exact hnext.fault hr (by simp [hphase]) hclose hh' (by cases client <;> exact hdisposed)

theorem Sound.join {s : State} (hi : Sound s) {r k : ℕ} {rem : Remover} {toAwait : List ℕ} {h : Entry}
    (hr : s.removers[r]? = some rem) (hphase : rem.phase = .next) (hclose : rem.toClose = [])
    (hawait : rem.toAwait = k :: toAwait) (hh : s.entries[k]? = some h) (hsupervised : h.supervised = false)
    (hunstarted : h.supervise = .notStarted → ∀ a ∈ h.attempts[0]?, a.phase ≠ .ended true) :
    Sound (s.setRemover r { rem with phase := .joined }) := by
  have hrem := hi.removers hr
  refine hi.goesOn hr (by simp [hphase]) (by simp) fun j hj x hx => ?_
  change j ∈ rem.toAwait.head? at hj
  rw [hawait] at hj
  cases Option.some.inj hj
  cases hh.symm.trans hx
  have hk : k ∈ rem.took := hrem.toAwait k (by rw [hawait]; exact List.mem_cons_self)
  rcases hrem.closed k hk with hmem | hclosed
  · rw [hclose] at hmem
    cases hmem
  · have hc := hclosed h hh
    refine ⟨hc.toBare, .inl hc.cancelled, hsupervised, fun hnot hinstalled => ?_⟩
    obtain ⟨a, ha, hinstalled⟩ := hinstalled
    exact hunstarted hnot a ha hinstalled

theorem Sound.finish {s : State} (hi : Sound s) {r k : ℕ} {rem : Remover} {toAwait : List ℕ} {h : Entry}
    (hr : s.removers[r]? = some rem) (hphase : rem.phase = .joined) (hawait : rem.toAwait = k :: toAwait)
    (hh : s.entries[k]? = some h) (hpump : ∀ client, h.pumpTask = some client → client ∉ h.pumps) :
    Sound ((s.setRemover r { rem with toAwait := toAwait, phase := .next }).setEntry k h.dispose) := by
  have hseen := (hi.removers hr).seen
  rw [Seen, hphase] at hseen
  have ht := hi.tracked hh
  have hpumps : h.pumps = [] :=
    List.eq_nil_iff_forall_not_mem.mpr fun j hj => hpump j (ht.pump j hj) hj
  have ho : h.Over := ⟨hseen k (by rw [hawait]; rfl) h hh, hpumps⟩
  have ho' : h.dispose.Over := (Entry.advances_dispose h).done ho
  have hnext := hi.setEntry hh (Entry.advances_dispose h) ht.dispose (fun _ _ => ho')
    (fun _ _ _ hnot => hnot) fun _ _ _ _ _ hheld => ⟨hheld.cancelled, hheld.gate, hheld.client⟩
  have hrem := hnext.removers hr
  refine hnext.setRemover hr ?_ rfl (fun _ hk => hk) (by simp [hphase])
  refine ⟨hrem.bound, hrem.toClose, fun j hj => hrem.toAwait j ?_, hrem.closed, fun j hj => ?_, trivial,
    fun hshutdown => ⟨(hrem.single hshutdown).1, by simp, by simp⟩,
    fun hshutdown _ _ => hrem.emptied hshutdown (by simp [hphase]) (by simp [hphase]),
    fun _ hreturned => (by cases hreturned)⟩
  · rw [hawait]
    exact List.mem_cons_of_mem _ hj
  · rcases hrem.done j hj with hmem | hdone
    · rw [hawait] at hmem
      rcases List.mem_cons.mp hmem with rfl | hmem
      · refine .inr fun x hx => ?_
        cases (getElem?_set_of_some hh h.dispose).symm.trans hx
        exact ho'
      · exact .inl hmem
    · exact .inr hdone

/-- Where `ShutdownAsync` is about to return every entry is over. -/
theorem Sound.all_over {s : State} (hi : Sound s) {r : ℕ} {rem : Remover} (hr : s.removers[r]? = some rem)
    (hshutdown : rem.shutdown = true) (hphase : rem.phase = .next) (hawait : rem.toAwait = [])
    (hother : ∀ other ∈ s.removers, other.shutdown = false → other.toAwait = [] ∨ other.phase = .faulted) {k : ℕ} {h : Entry} (hk : s.entries[k]? = some h) :
    h.Over := by
  rcases hi.accounted hk with hlisted | ⟨other, hmem, htook⟩ | ho
  · rw [(hi.removers hr).emptied hshutdown (by simp [hphase]) (by simp [hphase])] at hlisted
    cases hlisted
  · obtain ⟨j, hj⟩ := List.mem_iff_getElem?.mp hmem
    have hseen := (hi.removers hj).seen
    cases hkind : other.shutdown with
    | false =>
      rcases hother other hmem hkind with hdone | hfaulted
      · rcases (hi.removers hj).done k htook with hleft | ho
        · rw [hdone] at hleft
          cases hleft
        · exact ho h hk
      · rw [Seen, hfaulted] at hseen
        exact hseen hkind k htook h hk
    | true =>
      by_cases hreturned : other.phase = .returned
      · rw [Seen, hreturned] at hseen
        exact (hseen k htook h hk).1
      · cases hi.sole hr hj hshutdown hkind (by simp [hphase]) hreturned
        cases hr.symm.trans hj
        rcases (hi.removers hr).done k htook with hleft | hdone
        · rw [hawait] at hleft
          cases hleft
        · exact hdone h hk
  · exact ho

theorem Sound.return {s : State} (hi : Sound s) {r : ℕ} {rem : Remover} (hr : s.removers[r]? = some rem)
    (hphase : rem.phase = .next) (hawait : rem.toAwait = [])
    (hquiet : ∀ k ∈ rem.took, ∀ h ∈ s.entries[k]?, h.Quiet)
    (hall : rem.shutdown = true → (∀ h ∈ s.entries, h.Quiet) ∧
      ∀ other ∈ s.removers, other.shutdown = false → other.toAwait = [] ∨ other.phase = .faulted) :
    Sound (s.setRemover r { rem with phase := .returned }) := by
  have hrem := hi.removers hr
  refine hi.setRemover hr ?_ rfl (fun _ hk => hk) (by simp [hphase])
  refine ⟨hrem.bound, hrem.toClose, hrem.toAwait, hrem.closed, hrem.done, fun k hk h hh => ?_,
    fun hshutdown => ⟨(hrem.single hshutdown).1, by simp, by simp⟩,
    fun hshutdown _ _ => hrem.emptied hshutdown (by simp [hphase]) (by simp [hphase]),
    fun hshutdown _ k h hk => ?_⟩
  · rcases hrem.done k hk with hleft | hdone
    · rw [hawait] at hleft
      cases hleft
    · exact ⟨hdone h hh, hquiet k hk h hh⟩
  · obtain ⟨hquiet, hother⟩ := hall hshutdown
    exact ⟨hi.all_over hr hshutdown hphase hawait hother hk, hquiet h (List.mem_of_getElem? hk)⟩

/-- Every step that meets the condition keeps the invariant. -/
theorem sound_step {s s' : State} {a : Act} (hi : Sound s) (hg : s.Orderly a) (hs : s.step a = some s') :
    Sound s' := by
  cases step_moves hs with
  | addHost id factory pc hpc =>
    refine ⟨hi.tracked, hi.disposed, fun {c call} hc => ?_, hi.listed, hi.removers, hi.accounted, hi.flag,
      hi.unset, hi.sole, hi.own⟩
    rcases getElem?_concat_eq_some hc with ⟨-, rfl⟩ | hc
    · rcases hpc with rfl | rfl <;> trivial
    · exact hi.adds hc
  | decide pc hc hpc =>
    refine hi.setAdd ?_
    rcases hpc with rfl | rfl | ⟨result, rfl⟩ <;> trivial
  | insert hc hpc hfree =>
    have horderly := hg _ hc
    rw [AddOrderly, hpc] at horderly
    obtain ⟨hfailed, hentered⟩ := horderly hfree
    exact hi.insert hc hfree hfailed hentered
  | start hc hpc hh ha hphase => exact hi.start hc hpc hh ⟨_, ha, hphase⟩
  | fail hc hpc hh ha hne hover =>
    have horderly := hg _ hc
    rw [AddOrderly, hpc] at horderly
    exact hi.fail hc hpc hh ha hne hover (horderly _ hh _ ha hne)
  | clean hc hpc => exact hi.clean hc hpc
  | dispose hc hpc hh => exact hi.dispose hc hpc hh
  | entry hh hstep =>
    have ht := hi.tracked hh
    refine hi.setEntry hh (Entry.advances_step hstep) (ht.step hstep) (fun hset hunset => ?_)
      (fun _ _ _ hnot => Entry.step_notStarted hstep hnot) fun _ _ _ _ _ hheld => hheld.step ht hstep
    rw [Entry.step_disposed hstep, hunset] at hset
    cases hset
  | unknown => exact hi
  | removeHost hk => exact hi.removeHost hk
  | shutdown => exact hi.shutdown hg
  | copy hr hshutdown hphase hperm => exact hi.copy hr hshutdown hphase hperm
  | clear hr hphase => exact hi.clear hr hphase
  | cancel hr hphase hclose hh => exact hi.cancel hr hphase hclose hh
  | acquire hr hphase hclose hh hgate => exact hi.acquire hr hphase hclose hh hgate
  | close hr hphase hclose hh => exact hi.close hr hphase hclose hh
  | fault hr hphase hclose hh hdisposed =>
    refine hi.fault hr ?_ hclose hh hdisposed
    rcases hphase with hphase | hphase <;> simp [hphase]
  | faultClosing hr hphase hclose hh hdisposed => exact hi.faultClosing hr hphase hclose hh hdisposed
  | join hr hphase hclose hawait hh hsupervised =>
    have horderly := hg _ hr
    rw [RemoveOrderly, hphase, hclose, hawait] at horderly
    exact hi.join hr hphase hclose hawait hh hsupervised (horderly _ hh)
  | finish hr hphase hawait hh hpump => exact hi.finish hr hphase hawait hh hpump
  | «return» hr hphase hclose hawait =>
    have horderly := hg _ hr
    rw [RemoveOrderly, hphase, hclose, hawait] at horderly
    exact hi.return hr hphase hawait horderly.1 horderly.2

/-- In every run whose steps meet the condition, a failing `AddHostAsync` removes its own entry only,
nothing runs for an entry once a call that removed it has returned, and once `ShutdownAsync` has returned
there is no entry and nothing runs for any. -/
theorem torn_down_of_orderly (actions : List Act) (s : State) (hg : Guarded step Orderly new actions)
    (hr : runs step new actions = some s) : TornDown s := by
  have hi : Sound s := runs_invariant step sound_step sound_new hg hr
  exact hi.tornDown

/-- A host whose second client is in its handshake when `RemoveHostAsync` takes it, then
`ShutdownAsync`. -/
def reconnecting : List Act :=
  [.addHost "h" true, .add 0 true, .add 0 true, .add 0 true, .entry 0 (.factory 0 true),
    .entry 0 (.connect 0), .entry 0 (.commit 0), .add 0 true, .entry 0 .load, .entry 0 (.drop 0),
    .entry 0 .wake, .entry 0 .acquire, .entry 0 .replaced, .entry 0 (.pumpEnds 0), .entry 0 .drained,
    .entry 0 .attempt, .entry 0 (.factory 1 true), .entry 0 (.connect 1), .removeHost "h", .remove 0,
    .entry 0 (.abort 1), .entry 0 (.close 1), .remove 0, .remove 0, .entry 0 .resume, .entry 0 .return,
    .remove 0, .remove 0, .remove 0, .shutdown, .copy 1 [], .remove 1, .remove 1]

theorem torn_down_of_orderly_reconnecting :
    ∃ s, runs step new reconnecting = some s ∧ s.removers.map Remover.phase = [.returned, .returned] ∧
      s.entries.map Entry.created = [2] ∧ TornDown s := by
  have hview : (runs step new reconnecting).map
      (fun s => (s.removers.map Remover.phase, s.entries.map Entry.created)) =
      some ([.returned, .returned], [2]) := by decide +kernel
  obtain ⟨s, hr, hview⟩ := Option.map_eq_some_iff.mp hview
  obtain ⟨hphases, hcreated⟩ := Prod.mk.inj hview
  have hg : Guarded step Orderly new reconnecting := by decide +kernel
  exact ⟨s, hr, hphases, hcreated, torn_down_of_orderly reconnecting s hg hr⟩

/-- A call of `AddHostAsync` fails, and the entry that it removes is that of a later call for the same id;
a client is in its handshake when `RemoveHostAsync` returns; and `AddHostAsync`, past its check of
`_didShutDown`, registers an entry after `ShutdownAsync` has returned. -/
theorem hosts_not_torn_down :
    (¬ ∀ (actions : List Act) (s : State), runs step new actions = some s →
      ∀ e ∈ s.log, ∀ k ∈ e.deleted, k = e.own) ∧
    (¬ ∀ (actions : List Act) (s : State), runs step new actions = some s →
      ∀ rem ∈ s.removers, rem.phase = .returned → ∀ k ∈ rem.took, ∀ h ∈ s.entries[k]?, h.clients = []) ∧
    ¬ ∀ (actions : List Act) (s : State), runs step new actions = some s →
      ∀ rem ∈ s.removers, rem.shutdown = true → rem.phase = .returned → ∀ id, s.registry.get? id = none := by
  refine ⟨fun h => ?_, fun h => ?_, fun h => ?_⟩
  · let actions : List Act :=
      [.addHost "h" true, .add 0 true, .add 0 true, .add 0 true, .entry 0 (.factory 0 false), .add 0 true,
        .removeHost "h", .addHost "h" true, .add 1 true, .add 1 true, .add 1 true, .add 0 true]
    have hview : (runs step new actions).map (fun s => s.log) = some [⟨"h", 0, some 1⟩] := by decide +kernel
    obtain ⟨s, hr, hlog⟩ := Option.map_eq_some_iff.mp hview
    have hown := h actions s hr ⟨"h", 0, some 1⟩ (by rw [hlog]; exact List.mem_cons_self) 1 rfl
    cases hown
  · let actions : List Act :=
      [.addHost "h" true, .add 0 true, .add 0 true, .add 0 true, .entry 0 (.factory 0 true),
        .entry 0 (.connect 0), .removeHost "h", .remove 0, .remove 0, .remove 0, .remove 0, .remove 0,
        .remove 0]
    have hview : (runs step new actions).map (fun s => (s.removers, (s.entries[0]?).map Entry.clients)) =
        some ([⟨false, [0], [], [], .returned⟩], some [0]) := by decide +kernel
    obtain ⟨s, hr, hview⟩ := Option.map_eq_some_iff.mp hview
    obtain ⟨hremovers, hclients⟩ := Prod.mk.inj hview
    obtain ⟨entry, hentry, hclients⟩ := Option.map_eq_some_iff.mp hclients
    have hnone := h actions s hr ⟨false, [0], [], [], .returned⟩
      (by rw [hremovers]; exact List.mem_cons_self) rfl 0 List.mem_cons_self entry hentry
    rw [hclients] at hnone
    cases hnone
  · let actions : List Act :=
      [.addHost "h" true, .add 0 true, .add 0 true, .shutdown, .copy 0 [], .remove 0, .remove 0, .add 0 true]
    have hview : (runs step new actions).map (fun s => (s.removers, s.registry.get? "h")) =
        some ([⟨true, [], [], [], .returned⟩], some 0) := by decide +kernel
    obtain ⟨s, hr, hview⟩ := Option.map_eq_some_iff.mp hview
    obtain ⟨hremovers, hlisted⟩ := Prod.mk.inj hview
    have hnone := h actions s hr ⟨true, [], [], [], .returned⟩
      (by rw [hremovers]; exact List.mem_cons_self) rfl rfl "h"
    rw [hlisted] at hnone
    cases hnone

end State

end AgentHostProtocol.Dotnet.Hosts.Registry
