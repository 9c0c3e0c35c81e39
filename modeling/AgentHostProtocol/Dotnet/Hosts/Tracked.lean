import AgentHostProtocol.Dotnet.Hosts.Tracking
import AgentHostProtocol.Library.Runs
import Mathlib.Data.List.Nodup
import Mathlib.Data.List.Duplicate
import Mathlib.Order.Nat

/-!
# The replay set is what the host has subscribed

At rest the subscriptions that a host of `MultiHostClient` tracks for replay are those that the
host has subscribed on the connection (`tracked_is_subscribed_iff`), when no URI occurs twice in
`InitialSubscriptions`. `HostConfig.Snapshot` copies the list as it is, and `RemoveSubscription`
takes out one occurrence, so that a URI that was listed twice stays tracked after it was
unsubscribed (`unsubscribed_stays_tracked`); `AppendSubscription` looks for the URI first.

The invariant `Sound` says of every connection that is not lost what the frames on it and the calls
about to be tracked mean (`Carries`), and that the tracked set is the set of the host otherwise.
-/

namespace AgentHostProtocol.Dotnet.Hosts.Tracking

open Library

/-- What is asked of the callers: no call for a URI of a call in flight. -/
def NoOverlap (s : State) : Act → Prop
  | .subscribe uri | .unsubscribe uri => ∀ call ∈ s.calls, call.pc.inFlight → call.uri ≠ uri
  | _ => True

/-- The client of a call. -/
def Calling.client? : Calling → Option ℕ
  | .sending c | .requesting c | .answered c _ | .tracking c => some c
  | .waiting | .returned | .threw => none

/-- The host has done what the call asks for, and the tracked set is yet to follow. -/
def Calling.engaged? : Calling → Option ℕ
  | .answered c true | .tracking c => some c
  | _ => none

def Frame.uri : Frame → String
  | .subscribe _ uri | .unsubscribe uri => uri

/-- The host has a URI subscribed, with the frames on their way. -/
def Conn.has (conn : Conn) (uri : String) : Prop :=
  uri ∈ conn.subscribed ∧ Frame.unsubscribe uri ∉ conn.wire

/-- The connection that a handshake is under way on. -/
def Phase.handshake? : Phase → Option ℕ
  | .asked c _ | .answered c _ => some c
  | _ => none

/-- The connection that the tracked set is about, with what is still to be pruned from the set. -/
def State.Serves (s : State) (c : ℕ) (missing : List String) : Prop :=
  s.phase = .up ∧ s.current = some c ∧ missing = [] ∨
    s.phase = .answered c missing ∨ s.phase = .installing c missing

def State.Engaged (s : State) (c : ℕ) (uri : String) : Prop :=
  ∃ (i : ℕ) (call : Call), s.calls[i]? = some call ∧ call.uri = uri ∧ call.pc.engaged? = some c

/-- What the frames of a connection and the calls on it mean. -/
structure Carries (calls : List Call) (c : ℕ) (conn : Conn) : Prop where
  requests : ∀ i uri, Frame.subscribe i uri ∈ conn.wire →
    calls[i]? = some ⟨.subscribe, uri, .requesting c⟩
  apart : conn.wire.Pairwise fun f g => ∀ i uri, f = .subscribe i uri → g.uri ≠ uri
  settled : ∀ (i : ℕ) (call : Call), calls[i]? = some call → call.pc.engaged? = some c →
    (conn.has call.uri ↔ call.kind = .subscribe)

/-- The invariant of the supervisor. -/
structure Fits (s : State) : Prop where
  nodup : s.tracked.Nodup
  config : s.phase = .added → s.config = s.tracked
  asked : ∀ c requested, s.phase = .asked c requested → requested = s.tracked
  current : ∀ c, s.current = some c →
    c < s.conns.length ∧ (s.phase = .up ∨ ∃ missing, s.phase = .installing c missing)
  installed : ∀ c missing, s.phase = .installing c missing → s.current = some c
  handshake : ∀ c, s.phase.handshake? = some c → c < s.conns.length

/-- The invariant of the calls and the connections. -/
structure Underway (s : State) : Prop where
  known : ∀ (i : ℕ) (call : Call) (c : ℕ), s.calls[i]? = some call → call.pc.client? = some c →
    c < s.conns.length ∧ s.phase.handshake? ≠ some c
  apart : ∀ (i j : ℕ) (call other : Call), s.calls[i]? = some call → s.calls[j]? = some other →
    call.pc.inFlight → other.pc.inFlight → call.uri = other.uri → i = j
  fresh : ∀ (c : ℕ) (conn : Conn), s.phase.handshake? = some c → s.conns[c]? = some conn →
    conn.wire = []
  carries : ∀ (c : ℕ) (conn : Conn), s.conns[c]? = some conn → conn.alive → Carries s.calls c conn

/-- The tracked set is what the host has subscribed, but for the URIs that a call is about to
track. -/
def State.Matches (s : State) : Prop :=
  ∀ (c : ℕ) (missing : List String) (conn : Conn), s.Serves c missing → s.conns[c]? = some conn →
    conn.alive → ∀ uri, ¬ s.Engaged c uri → (uri ∈ s.tracked ∧ uri ∉ missing ↔ conn.has uri)

structure Sound (s : State) : Prop where
  fits : Fits s
  underway : Underway s
  serves : s.Matches

variable {s s' : State}

/-! ### Calls -/

theorem Calling.client?_of_engaged? {pc : Calling} {c : ℕ} (h : pc.engaged? = some c) :
    pc.client? = some c := by
  cases pc with
  | answered d ok => cases ok <;> simp_all [Calling.engaged?, Calling.client?]
  | _ => simp_all [Calling.engaged?, Calling.client?]

theorem Calling.inFlight_of_engaged? {pc : Calling} {c : ℕ} (h : pc.engaged? = some c) :
    pc.inFlight := by
  cases pc with
  | returned | threw => cases h
  | _ => rfl

/-- A serving connection is the current one, or the one of the handshake. -/
theorem State.Serves.of_client {s : State} {c : ℕ} {missing : List String} (h : s.Serves c missing)
    (hfits : Fits s) : s.current = some c ∨ s.phase.handshake? = some c := by
  rcases h with ⟨-, hcurrent, -⟩ | hphase | hphase
  · exact .inl hcurrent
  · rw [hphase]
    exact .inr rfl
  · exact .inl (hfits.installed c missing hphase)

/-- A call moves on, and leaves no frame and joins no tracking of a connection that is not lost. -/
theorem Underway.setPc (hunderway : Underway s) (hfits : Fits s) {i : ℕ} {call : Call}
    (hcall : s.calls[i]? = some call) (pc : Calling) (hflight : pc.inFlight → call.pc.inFlight)
    (hclient : ∀ c, pc.client? = some c → call.pc.client? = some c ∨ s.current = some c)
    (hrequest : ∀ c conn, s.conns[c]? = some conn → conn.alive → call.pc ≠ .requesting c)
    (henters : ∀ c conn, s.conns[c]? = some conn → conn.alive → pc.engaged? = some c →
      call.pc.engaged? = some c) : Underway (s.setPc i call pc) where
  known := by
    intro j other c hj hc
    rcases getElem?_set_eq_some hj with ⟨-, rfl⟩ | ⟨-, hj⟩
    · rcases hclient c hc with hc | hc
      · exact hunderway.known i call c hcall hc
      · obtain ⟨hlt, hphase⟩ := hfits.current c hc
        refine ⟨hlt, ?_⟩
        rcases hphase with hphase | ⟨missing, hphase⟩ <;>
          simp [State.setPc, hphase, Phase.handshake?]
    · exact hunderway.known j other c hj hc
  apart := by
    intro j k one other hj hk hone hother huri
    rcases getElem?_set_eq_some hj with ⟨rfl, rfl⟩ | ⟨-, hj'⟩ <;>
      rcases getElem?_set_eq_some hk with ⟨rfl, rfl⟩ | ⟨-, hk'⟩
    · rfl
    · exact hunderway.apart j k call other hcall hk' (hflight hone) hother huri
    · exact hunderway.apart j k one call hj' hcall hone (hflight hother) huri
    · exact hunderway.apart j k one other hj' hk' hone hother huri
  fresh := hunderway.fresh
  carries := by
    intro c conn hconn halive
    have hcarries := hunderway.carries c conn hconn halive
    refine ⟨fun j uri hj => ?_, hcarries.apart, fun j other hj hengaged => ?_⟩
    · have hj := hcarries.requests j uri hj
      have hne : i ≠ j := by
        rintro rfl
        rw [hcall] at hj
        cases hj
        exact hrequest c conn hconn halive rfl
      exact (List.getElem?_set_ne hne).trans hj
    · rcases getElem?_set_eq_some hj with ⟨-, rfl⟩ | ⟨-, hj⟩
      · exact hcarries.settled i call hcall (henters c conn hconn halive hengaged)
      · exact hcarries.settled j other hj hengaged

theorem Fits.setPc (hfits : Fits s) {i : ℕ} {call : Call} {pc : Calling} : Fits (s.setPc i call pc) :=
  ⟨hfits.nodup, hfits.config, hfits.asked, hfits.current, hfits.installed, hfits.handshake⟩

/-- A call moves on, and the tracked set is none of its business. -/
theorem Sound.setPc (hsound : Sound s) {i : ℕ} {call : Call} (hcall : s.calls[i]? = some call)
    {pc : Calling} (hflight : pc.inFlight → call.pc.inFlight)
    (hclient : ∀ c, pc.client? = some c → call.pc.client? = some c ∨ s.current = some c)
    (hrequest : ∀ c conn, s.conns[c]? = some conn → conn.alive → call.pc ≠ .requesting c)
    (henters : ∀ c conn, s.conns[c]? = some conn → conn.alive → pc.engaged? = some c →
      call.pc.engaged? = some c)
    (hleaves : ∀ c missing conn, s.Serves c missing → s.conns[c]? = some conn → conn.alive →
      call.pc.engaged? = some c → pc.engaged? = some c) : Sound (s.setPc i call pc) where
  fits := hsound.fits.setPc
  underway := hsound.underway.setPc hsound.fits hcall pc hflight hclient hrequest henters
  serves := by
    intro c missing conn hserves hconn halive uri hnot
    refine hsound.serves c missing conn hserves hconn halive uri ?_
    rintro ⟨j, other, hj, huri, hengaged⟩
    apply hnot
    by_cases hij : i = j
    · subst hij
      rw [hcall] at hj
      cases hj
      exact ⟨i, _, getElem?_set_of_some hcall _, huri, hleaves c missing conn hserves hconn halive hengaged⟩
    · exact ⟨j, other, (List.getElem?_set_ne hij).trans hj, huri, hengaged⟩

/-- A call moves on with a frame of its connection. What the host has of the other subscriptions
stays, and so it does of its own unless the tracked set is to follow. -/
theorem Sound.exchange (hsound : Sound s) {i c : ℕ} {call : Call} {conn conn' : Conn} {pc : Calling}
    (hcall : s.calls[i]? = some call) (hconn : s.conns[c]? = some conn) (halive : conn.alive)
    (hclient : call.pc.client? = some c) (hfree : call.pc.engaged? = none) (hclient' : pc.client? = some c)
    (hflight : call.pc.inFlight)
    (hcarries : Carries (s.calls.set i { call with pc := pc }) c conn')
    (hhas : ∀ uri, uri ≠ call.uri ∨ pc.engaged? = none → (conn'.has uri ↔ conn.has uri)) :
    Sound ((s.setConn c conn').setPc i call pc) where
  fits := by
    obtain ⟨hnodup, hconfig, hasked, hcurrent, hinstalled, hhandshake⟩ := hsound.fits
    refine ⟨hnodup, hconfig, hasked, fun d hd => ?_, hinstalled, fun d hd => ?_⟩
    · obtain ⟨hlt, hphase⟩ := hcurrent d hd
      exact ⟨by simpa [State.setPc, State.setConn] using hlt, hphase⟩
    · have hlt := hhandshake d hd
      simpa [State.setPc, State.setConn] using hlt
  underway := by
    refine ⟨?known, ?apart, ?fresh, ?carries⟩
    case known =>
      intro j other d hj hd
      have hknown : d < s.conns.length ∧ s.phase.handshake? ≠ some d := by
        rcases getElem?_set_eq_some hj with ⟨-, rfl⟩ | ⟨-, hj⟩
        · rw [hclient'] at hd
          cases hd
          exact hsound.underway.known i call c hcall hclient
        · exact hsound.underway.known j other d hj hd
      exact ⟨by simpa [State.setPc, State.setConn] using hknown.1, hknown.2⟩
    case apart =>
      intro j k one other hj hk hone hother huri
      rcases getElem?_set_eq_some hj with ⟨rfl, rfl⟩ | ⟨-, hj'⟩ <;>
        rcases getElem?_set_eq_some hk with ⟨rfl, rfl⟩ | ⟨-, hk'⟩
      · rfl
      · exact hsound.underway.apart j k call other hcall hk' hflight hother huri
      · exact hsound.underway.apart j k one call hj' hcall hone hflight huri
      · exact hsound.underway.apart j k one other hj' hk' hone hother huri
    case fresh =>
      intro d other hd hother
      rcases getElem?_set_eq_some hother with ⟨rfl, -⟩ | ⟨-, hother⟩
      · exact absurd hd (hsound.underway.known i call d hcall hclient).2
      · exact hsound.underway.fresh d other hd hother
    case carries =>
      intro d other hother hlive
      rcases getElem?_set_eq_some hother with ⟨rfl, rfl⟩ | ⟨hne, hother⟩
      · exact hcarries
      have hothers := hsound.underway.carries d other hother hlive
      refine ⟨fun j uri hj => ?_, hothers.apart, fun j one hj hengaged => ?_⟩
      · have hj := hothers.requests j uri hj
        have hij : i ≠ j := by
          rintro rfl
          rw [hcall] at hj
          cases hj
          exact hne (Option.some_inj.mp hclient)
        exact (List.getElem?_set_ne hij).trans hj
      · rcases getElem?_set_eq_some hj with ⟨-, rfl⟩ | ⟨-, hj⟩
        · have hclient := Calling.client?_of_engaged? hengaged
          rw [hclient'] at hclient
          exact absurd (Option.some_inj.mp hclient).symm hne
        · exact hothers.settled j one hj hengaged
  serves := by
    intro d missing other hserves hother hlive uri hnot
    have hnot' : ¬ s.Engaged d uri := by
      rintro ⟨j, one, hj, huri, hengaged⟩
      have hij : i ≠ j := by
        rintro rfl
        rw [hcall] at hj
        cases hj
        rw [hfree] at hengaged
        cases hengaged
      exact hnot ⟨j, one, (List.getElem?_set_ne hij).trans hj, huri, hengaged⟩
    rcases getElem?_set_eq_some hother with ⟨rfl, rfl⟩ | ⟨hne, hother⟩
    · refine (hsound.serves d missing conn hserves hconn halive uri hnot').trans (hhas uri ?_).symm
      by_cases huri : uri = call.uri
      · refine .inr (Option.eq_none_iff_forall_ne_some.mpr fun d' hd' => hnot ?_)
        have hd := Calling.client?_of_engaged? hd'
        rw [hclient'] at hd
        cases hd
        exact ⟨i, _, getElem?_set_of_some hcall _, huri.symm, hd'⟩
      · exact .inl huri
    · exact hsound.serves d missing other hserves hother hlive uri hnot'

/-- A connection changes, and not for the calls. -/
theorem Sound.setConn (hsound : Sound s) {c : ℕ} {conn conn' : Conn} (hconn : s.conns[c]? = some conn)
    (hwire : conn.wire = [] → conn'.wire = [])
    (hcarries : conn'.alive → conn.alive ∧ Carries s.calls c conn')
    (hhas : conn'.alive → ∀ uri, conn'.has uri ↔ conn.has uri) : Sound (s.setConn c conn') where
  fits := by
    obtain ⟨hnodup, hconfig, hasked, hcurrent, hinstalled, hhandshake⟩ := hsound.fits
    refine ⟨hnodup, hconfig, hasked, fun d hd => ?_, hinstalled, fun d hd => ?_⟩
    · obtain ⟨hlt, hphase⟩ := hcurrent d hd
      exact ⟨by simpa [State.setConn] using hlt, hphase⟩
    · have hlt := hhandshake d hd
      simpa [State.setConn] using hlt
  underway := by
    refine ⟨?known, ?apart, ?fresh, ?carries⟩
    case known =>
      intro j other d hj hd
      obtain ⟨hlt, hne⟩ := hsound.underway.known j other d hj hd
      exact ⟨by simpa [State.setConn] using hlt, hne⟩
    case apart => exact hsound.underway.apart
    case fresh =>
      intro d other hd hother
      rcases getElem?_set_eq_some hother with ⟨rfl, rfl⟩ | ⟨-, hother⟩
      · exact hwire (hsound.underway.fresh d conn hd hconn)
      · exact hsound.underway.fresh d other hd hother
    case carries =>
      intro d other hother hlive
      rcases getElem?_set_eq_some hother with ⟨rfl, rfl⟩ | ⟨-, hother⟩
      · exact (hcarries hlive).2
      · exact hsound.underway.carries d other hother hlive
  serves := by
    intro d missing other hserves hother hlive uri hnot
    rcases getElem?_set_eq_some hother with ⟨rfl, rfl⟩ | ⟨-, hother⟩
    · exact (hsound.serves d missing conn hserves hconn (hcarries hlive).1 uri hnot).trans
        (hhas hlive uri).symm
    · exact hsound.serves d missing other hserves hother hlive uri hnot

/-- The supervisor moves on, and serves no other connection for it. -/
theorem Sound.moves (hsound : Sound s) (hfits : Fits s') (hcalls : s'.calls = s.calls)
    (hconns : s'.conns = s.conns) (htracked : s'.tracked = s.tracked)
    (hhandshake : ∀ c, s'.phase.handshake? = some c → s.phase.handshake? = some c)
    (hserves : ∀ c missing, s'.Serves c missing → s.Serves c missing) : Sound s' where
  fits := hfits
  underway := by
    refine ⟨?known, ?apart, ?fresh, ?carries⟩
    case known =>
      intro i call c hi hc
      rw [hcalls] at hi
      obtain ⟨hlt, hne⟩ := hsound.underway.known i call c hi hc
      exact ⟨by rw [hconns]; exact hlt, fun hc => hne (hhandshake c hc)⟩
    case apart =>
      rw [hcalls]
      exact hsound.underway.apart
    case fresh =>
      intro c conn hc hconn
      rw [hconns] at hconn
      exact hsound.underway.fresh c conn (hhandshake c hc) hconn
    case carries =>
      rw [hcalls, hconns]
      exact hsound.underway.carries
  serves := by
    intro c missing conn hc hconn halive uri hnot
    rw [hconns] at hconn
    rw [htracked]
    refine hsound.serves c missing conn (hserves c missing hc) hconn halive uri ?_
    rintro ⟨i, call, hi, huri, hengaged⟩
    exact hnot ⟨i, call, by rw [hcalls]; exact hi, huri, hengaged⟩

/-! ### The steps of a call -/

theorem Sound.newCall (hsound : Sound s) {kind : Kind} {uri : String}
    (hnone : ∀ call ∈ s.calls, call.pc.inFlight → call.uri ≠ uri) : Sound (s.newCall kind uri) where
  fits := ⟨hsound.fits.nodup, hsound.fits.config, hsound.fits.asked, hsound.fits.current,
    hsound.fits.installed, hsound.fits.handshake⟩
  underway := by
    refine ⟨?known, ?apart, ?fresh, ?carries⟩
    case known =>
      intro i call c hi hc
      rcases getElem?_concat_eq_some hi with ⟨-, rfl⟩ | hi
      · cases hc
      · exact hsound.underway.known i call c hi hc
    case apart =>
      intro i j call other hi hj hcall hother huri
      rcases getElem?_concat_eq_some hi with ⟨rfl, rfl⟩ | hi' <;>
        rcases getElem?_concat_eq_some hj with ⟨rfl, rfl⟩ | hj'
      · rfl
      · exact absurd huri.symm (hnone other (List.mem_of_getElem? hj') hother)
      · exact absurd huri (hnone call (List.mem_of_getElem? hi') hcall)
      · exact hsound.underway.apart i j call other hi' hj' hcall hother huri
    case fresh => exact hsound.underway.fresh
    case carries =>
      intro c conn hconn halive
      have hcarries := hsound.underway.carries c conn hconn halive
      refine ⟨fun i uri hi => getElem?_concat_of_some (hcarries.requests i uri hi) _, hcarries.apart,
        fun i call hi hengaged => ?_⟩
      rcases getElem?_concat_eq_some hi with ⟨-, rfl⟩ | hi
      · cases hengaged
      · exact hcarries.settled i call hi hengaged
  serves := by
    intro c missing conn hserves hconn halive uri hnot
    refine hsound.serves c missing conn hserves hconn halive uri ?_
    rintro ⟨i, call, hi, huri, hengaged⟩
    exact hnot ⟨i, call, getElem?_concat_of_some hi _, huri, hengaged⟩

theorem Sound.obtain (hsound : Sound s) {i : ℕ} {call : Call} (hcall : s.calls[i]? = some call)
    (hs : s.obtain i call = some s') : Sound s' := by
  obtain ⟨kind, uri, pc⟩ := call
  unfold State.obtain at hs
  split at hs
  · next c hpc hcurrent =>
    cases hpc
    cases hs
    exact hsound.setPc hcall (fun _ => rfl) (fun d hd => .inr (by cases hd; exact hcurrent))
      (fun _ _ _ _ => by simp) (fun _ _ _ _ hd => by cases hd) (fun _ _ _ _ _ _ hd => by cases hd)
  · next hpc hcurrent =>
    cases hpc
    split at hs
    · cases hs
    · cases hs
      exact hsound.setPc hcall (fun _ => rfl) (fun d hd => by cases hd) (fun _ _ _ _ => by simp)
        (fun _ _ _ _ hd => by cases hd) (fun _ _ _ _ _ _ hd => by cases hd)
  · cases hs

/-- A lost connection is not alive. -/
theorem State.not_alive_of_lost {c : ℕ} {conn : Conn} (hlost : s.lost c) (hconn : s.conns[c]? = some conn) :
    ¬ conn.alive := by
  rw [State.lost, hconn, Option.any_some] at hlost
  simpa using hlost

theorem Sound.sendLost (hsound : Sound s) {i : ℕ} {call : Call} (hcall : s.calls[i]? = some call)
    (hs : s.sendLost i call = some s') : Sound s' := by
  obtain ⟨kind, uri, pc⟩ := call
  unfold State.sendLost at hs
  split at hs
  · next c hpc =>
    cases hpc
    split at hs
    · next hlost =>
      cases hs
      refine hsound.setPc hcall (fun _ => rfl) (fun d hd => ?_) (fun _ _ _ _ => by simp)
        (fun d conn hconn halive hd => ?_) (fun _ _ _ _ _ _ hd => by cases hd)
      · cases kind <;> exact .inl hd
      · cases kind with
        | subscribe => cases hd
        | unsubscribe =>
          cases hd
          exact absurd halive (State.not_alive_of_lost hlost hconn)
    · cases hs
  · cases hs

/-- The client fails a call whose connection is lost. -/
theorem State.fail_eq {i : ℕ} {call : Call} (hs : s.fail i call = some s') :
    (∃ c, call.pc.client? = some c ∧ s.lost c) ∧ s' = s.setPc i call .threw := by
  obtain ⟨kind, uri, pc⟩ := call
  cases pc with
  | sending c | requesting c | answered c _ =>
    simp only [State.fail, Option.ite_none_right_eq_some, Option.some.injEq] at hs
    exact ⟨⟨c, rfl, hs.1⟩, hs.2.symm⟩
  | _ => cases hs

theorem Sound.fail (hsound : Sound s) {i : ℕ} {call : Call} (hcall : s.calls[i]? = some call)
    (hs : s.fail i call = some s') : Sound s' := by
  obtain ⟨⟨c, hclient, hlost⟩, rfl⟩ := State.fail_eq hs
  refine hsound.setPc hcall (fun h => by cases h) (fun d hd => by cases hd)
    (fun d conn hconn halive hd => ?_) (fun _ _ _ _ hd => by cases hd)
    (fun d missing conn hserves hconn halive hd => ?_)
  · rw [hd] at hclient
    cases hclient
    exact State.not_alive_of_lost hlost hconn halive
  · rw [Calling.client?_of_engaged? hd] at hclient
    cases hclient
    exact absurd halive (State.not_alive_of_lost hlost hconn)

theorem Sound.receive (hsound : Sound s) {i : ℕ} {call : Call} (hcall : s.calls[i]? = some call)
    (hs : s.receive i call = some s') : Sound s' := by
  obtain ⟨kind, uri, pc⟩ := call
  unfold State.receive at hs
  split at hs
  · next c hpc =>
    cases hpc
    cases hs
    exact hsound.setPc hcall (fun _ => rfl) (fun d hd => .inl hd) (fun _ _ _ _ => by simp)
      (fun _ _ _ _ hd => hd) (fun _ _ _ _ _ _ hd => hd)
  · next c hpc =>
    cases hpc
    cases hs
    exact hsound.setPc hcall (fun h => by cases h) (fun d hd => by cases hd) (fun _ _ _ _ => by simp)
      (fun _ _ _ _ hd => by cases hd) (fun _ _ _ _ _ _ hd => by cases hd)
  · cases hs

/-- No other call asks for the URI of a call in flight on the same wire. -/
theorem Carries.uri_ne (hsound : Sound s) {c i j : ℕ} {conn : Conn} {call : Call} {uri : String}
    (hcarries : Carries s.calls c conn) (hcall : s.calls[i]? = some call) (hflight : call.pc.inFlight)
    (hne : call.pc ≠ .requesting c) (hframe : Frame.subscribe j uri ∈ conn.wire) : call.uri ≠ uri := by
  intro huri
  have hj := hcarries.requests j uri hframe
  have hij := hsound.underway.apart i j call _ hcall hj hflight rfl huri
  subst hij
  rw [hcall] at hj
  cases hj
  exact hne rfl

theorem Conn.has_append {alive : Bool} {subscribed : List String} {wire : List Frame} {frame : Frame}
    {uri : String} : (Conn.mk alive subscribed (wire ++ [frame])).has uri ↔
      (Conn.mk alive subscribed wire).has uri ∧ Frame.unsubscribe uri ≠ frame := by
  simp only [Conn.has, List.mem_append, List.mem_singleton, not_or, and_assoc, ne_eq]

/-- A call sends its frame behind the others. -/
theorem Carries.sent (hsound : Sound s) {c i : ℕ} {conn : Conn} {call : Call}
    (hcarries : Carries s.calls c conn) (hcall : s.calls[i]? = some call) (pc : Calling) (frame : Frame)
    (hpc : call.pc = .sending c)
    (huri : frame.uri = call.uri)
    (hframe : ∀ j uri, frame = .subscribe j uri →
      j = i ∧ ({ call with pc := pc } : Call) = ⟨.subscribe, uri, .requesting c⟩)
    (hsettled : pc.engaged? = some c →
      (({ conn with wire := conn.wire ++ [frame] } : Conn).has call.uri ↔ call.kind = .subscribe)) :
    Carries (s.calls.set i { call with pc := pc }) c { conn with wire := conn.wire ++ [frame] } := by
  have hflight : call.pc.inFlight := by rw [hpc]; rfl
  have hne : call.pc ≠ .requesting c := by rw [hpc]; simp
  refine ⟨fun j uri hj => ?_, ?_, fun j other hj hengaged => ?_⟩
  · rcases List.mem_append.mp hj with hj | hj
    · have hcalls := hcarries.requests j uri hj
      have hij : i ≠ j := by
        rintro rfl
        rw [hcall] at hcalls
        cases hcalls
        exact hne rfl
      exact (List.getElem?_set_ne hij).trans hcalls
    · obtain ⟨rfl, hcall'⟩ := hframe j uri (List.mem_singleton.mp hj).symm
      rw [getElem?_set_of_some hcall, hcall']
  · refine List.pairwise_append.mpr ⟨hcarries.apart, List.pairwise_singleton _ _, ?_⟩
    intro f hf g hg j uri hfj
    rw [List.mem_singleton.mp hg, huri]
    exact hcarries.uri_ne hsound hcall hflight hne (hfj ▸ hf)
  · rcases getElem?_set_eq_some hj with ⟨-, rfl⟩ | ⟨hji, hj⟩
    · exact hsettled hengaged
    · have hother : call.uri ≠ other.uri := fun h =>
        hji (hsound.underway.apart i j call other hcall hj hflight (Calling.inFlight_of_engaged? hengaged) h).symm
      refine (Conn.has_append.trans (and_iff_left fun h => hother ?_)).trans
        (hcarries.settled j other hj hengaged)
      rw [← huri, ← h]
      rfl

theorem Sound.send (hsound : Sound s) {i : ℕ} {call : Call} (hcall : s.calls[i]? = some call)
    (hs : s.send i call = some s') : Sound s' := by
  obtain ⟨kind, uri, pc⟩ := call
  cases pc with
  | sending c =>
    cases hconn : s.conns[c]? with
    | none => simp [State.send, hconn] at hs
    | some conn =>
      obtain ⟨alive, subscribed, wire⟩ := conn
      cases alive with
      | false => simp [State.send, hconn] at hs
      | true =>
        have hcarries := hsound.underway.carries c _ hconn rfl
        cases kind with
        | subscribe =>
          simp only [State.send, hconn, if_true, Option.some.injEq] at hs
          subst hs
          have hsent := hcarries.sent hsound hcall (.requesting c) (.subscribe i uri) rfl rfl
            (fun j u h => by cases h; exact ⟨rfl, rfl⟩) (fun h => by cases h)
          exact hsound.exchange hcall hconn rfl rfl rfl rfl rfl hsent fun u _ => by
            rw [Conn.has_append]
            simp
        | unsubscribe =>
          simp only [State.send, hconn, if_true, Option.some.injEq] at hs
          subst hs
          have hsent := hcarries.sent hsound hcall (.tracking c) (.unsubscribe uri) rfl rfl
            (fun j u h => by cases h) (fun _ => by rw [Conn.has_append]; simp)
          refine hsound.exchange hcall hconn rfl rfl rfl rfl rfl hsent fun u hu => ?_
          have hne : u ≠ uri := hu.resolve_right (by simp [Calling.engaged?])
          rw [Conn.has_append]
          simpa using fun _ => hne
  | _ => cases hs

/-- A call that is tracked: its URI is as it asked for, and the others are as they were. -/
theorem Sound.tracks (hsound : Sound s) {i c : ℕ} {call : Call} (hcall : s.calls[i]? = some call)
    (hpc : call.pc = .tracking c) (hphase : s.phase = .up) (hcurrent : s.current = some c)
    {tracked : List String} (hnodup : tracked.Nodup) (hown : call.uri ∈ tracked ↔ call.kind = .subscribe)
    (hothers : ∀ uri, uri ≠ call.uri → (uri ∈ tracked ↔ uri ∈ s.tracked)) :
    Sound ({ s with tracked := tracked }.setPc i call .returned) where
  fits := by
    refine ⟨hnodup, fun h => ?_, fun _ _ h => ?_, hsound.fits.current, hsound.fits.installed,
      hsound.fits.handshake⟩ <;>
    · have hphase' := hphase.symm.trans h
      cases hphase'
  underway := by
    have hmoved := hsound.underway.setPc hsound.fits hcall .returned (fun h => by cases h)
      (fun _ h => by cases h) (fun _ _ _ _ => by rw [hpc]; simp) (fun _ _ _ _ h => by cases h)
    exact ⟨hmoved.known, hmoved.apart, hmoved.fresh, hmoved.carries⟩
  serves := by
    intro d missing conn hserves hconn halive uri hnot
    have hd : d = c ∧ missing = [] := by
      rcases hserves with ⟨-, hd, hmissing⟩ | hd | hd
      · exact ⟨Option.some_inj.mp (hd.symm.trans hcurrent), hmissing⟩
      · exact absurd (hphase.symm.trans hd) (by simp)
      · exact absurd (hphase.symm.trans hd) (by simp)
    obtain ⟨rfl, rfl⟩ := hd
    by_cases huri : uri = call.uri
    · have hsettled := (hsound.underway.carries d conn hconn halive).settled i call hcall (by rw [hpc]; rfl)
      rw [huri, hsettled, ← hown]
      simp [State.setPc]
    · have hbefore := hsound.serves d [] conn (.inl ⟨hphase, hcurrent, rfl⟩) hconn halive uri ?_
      · rw [← hbefore]
        exact and_congr_left fun _ => hothers uri huri
      · rintro ⟨j, other, hj, hother, hengaged⟩
        have hij : i ≠ j := by
          rintro rfl
          rw [hcall] at hj
          cases hj
          exact huri hother.symm
        exact hnot ⟨j, other, (List.getElem?_set_ne hij).trans hj, hother, hengaged⟩

/-- The gate is free with a client: the host is connected. -/
theorem Fits.up (hfits : Fits s) {c : ℕ} (hfree : s.phase.gateFree) (hcurrent : s.current = some c) :
    s.phase = .up := by
  rcases (hfits.current c hcurrent).2 with hphase | ⟨missing, hphase⟩
  · exact hphase
  · rw [hphase] at hfree
    cases hfree

theorem Sound.track (hsound : Sound s) {i : ℕ} {call : Call} (hcall : s.calls[i]? = some call)
    (hs : s.track i call = some s') : Sound s' := by
  obtain ⟨kind, uri, pc⟩ := call
  cases pc with
  | tracking c =>
    simp only [State.track] at hs
    split at hs
    · next hfree =>
      split at hs
      · next hcurrent =>
        have hphase := hsound.fits.up hfree hcurrent
        have hnodup := hsound.fits.nodup
        cases kind with
        | subscribe =>
          cases hs
          unfold State.appendSubscription
          split
          · next hmem =>
            exact hsound.tracks hcall rfl hphase hcurrent hnodup (by simpa using hmem) (fun _ _ => Iff.rfl)
          · next hmem =>
            refine hsound.tracks hcall rfl hphase hcurrent ?_ (by simp) (fun u hu => ?_)
            · refine List.nodup_append.mpr ⟨hnodup, List.nodup_singleton _, fun a ha b hb => ?_⟩
              rw [List.mem_singleton.mp hb]
              rintro rfl
              exact hmem ha
            · simpa using fun h => absurd h hu
        | unsubscribe =>
          cases hs
          refine hsound.tracks hcall rfl hphase hcurrent (hnodup.erase _) ?_ (fun u hu => ?_)
          · simpa using hnodup.not_mem_erase
          · exact List.mem_erase_of_ne hu
      · next hcurrent =>
        cases hs
        refine hsound.setPc hcall (fun _ => rfl) (fun d hd => by cases hd) (fun _ _ _ _ => by simp)
          (fun _ _ _ _ hd => by cases hd) (fun d missing conn hserves _ _ hd => ?_)
        cases hd
        rcases hserves.of_client hsound.fits with h | h
        · exact absurd h hcurrent
        · exact absurd h (hsound.underway.known i _ c hcall rfl).2
    · cases hs
  | _ => cases hs

/-! ### The steps of the host -/

theorem Conn.has_cons_subscribe {alive : Bool} {subscribed : List String} {wire : List Frame} {i : ℕ}
    {uri u : String} : (Conn.mk alive subscribed (.subscribe i uri :: wire)).has u ↔
      (Conn.mk alive subscribed wire).has u := by
  simp [Conn.has]

/-- An `unsubscribe` that is on its way is as good as taken. -/
theorem Conn.has_cons_unsubscribe {alive : Bool} {subscribed : List String} {wire : List Frame}
    {uri u : String} : (Conn.mk alive subscribed (.unsubscribe uri :: wire)).has u ↔
      (Conn.mk alive (subscribed.filter (· ≠ uri)) wire).has u := by
  simp only [Conn.has, List.mem_cons, Frame.unsubscribe.injEq, not_or, List.mem_filter, ne_eq,
    decide_not, Bool.not_eq_eq_eq_not, Bool.not_true, decide_eq_false_iff_not, and_assoc]

/-- The host has what it accepts, no `unsubscribe` for it being behind the request. -/
theorem Conn.has_accepted {alive : Bool} {subscribed : List String} {wire : List Frame}
    {uri u : String} {accept : Bool} (hbehind : Frame.unsubscribe uri ∉ wire) :
    (Conn.mk alive (if accept then uri :: subscribed else subscribed) wire).has u ↔
      accept ∧ u = uri ∨ (Conn.mk alive subscribed wire).has u := by
  cases accept with
  | false => simp
  | true =>
    by_cases hu : u = uri
    · simp [Conn.has, hu, hbehind]
    · simp [Conn.has, hu]

theorem Sound.takesUnsubscribe (hsound : Sound s) {c : ℕ} {subscribed : List String} {uri : String}
    {rest : List Frame} (hconn : s.conns[c]? = some ⟨true, subscribed, .unsubscribe uri :: rest⟩) :
    Sound (s.setConn c ⟨true, subscribed.filter (· ≠ uri), rest⟩) := by
  refine hsound.setConn hconn (fun h => by cases h) (fun _ => ⟨rfl, ?_⟩)
    fun _ u => Conn.has_cons_unsubscribe.symm
  have hcarries := hsound.underway.carries c _ hconn rfl
  exact ⟨fun i u hi => hcarries.requests i u (List.mem_cons_of_mem _ hi),
    (List.pairwise_cons.mp hcarries.apart).2,
    fun i call hi hengaged => Conn.has_cons_unsubscribe.symm.trans (hcarries.settled i call hi hengaged)⟩

theorem Sound.takesSubscribe (hsound : Sound s) {c i : ℕ} {subscribed : List String} {uri : String}
    {rest : List Frame} {call : Call}
    (hconn : s.conns[c]? = some ⟨true, subscribed, .subscribe i uri :: rest⟩)
    (hcall : s.calls[i]? = some call) (accept : Bool) :
    Sound ((s.setConn c ⟨true, if accept then uri :: subscribed else subscribed, rest⟩).setPc i call
      (.answered c accept)) := by
  have hcarries := hsound.underway.carries c _ hconn rfl
  have hrequest := hcarries.requests i uri List.mem_cons_self
  rw [hcall] at hrequest
  cases hrequest
  obtain ⟨hbehind, hapart⟩ := List.pairwise_cons.mp hcarries.apart
  have hnone : Frame.unsubscribe uri ∉ rest := fun h => hbehind _ h i uri rfl rfl
  refine hsound.exchange hcall hconn rfl rfl rfl rfl rfl
    ⟨fun j u hj => ?_, hapart, fun j other hj hengaged => ?_⟩ fun u hu => ?_
  · have hij : i ≠ j := by
      rintro rfl
      have hagain := hcarries.requests i u (List.mem_cons_of_mem _ hj)
      rw [hcall] at hagain
      cases hagain
      exact hbehind _ hj i uri rfl rfl
    exact (List.getElem?_set_ne hij).trans (hcarries.requests j u (List.mem_cons_of_mem _ hj))
  · rw [Conn.has_accepted hnone]
    rcases getElem?_set_eq_some hj with ⟨-, rfl⟩ | ⟨hji, hj⟩
    · cases accept with
      | true => simp
      | false => cases hengaged
    · have hother : other.uri ≠ uri := fun h =>
        hji (hsound.underway.apart j i other _ hj hcall (Calling.inFlight_of_engaged? hengaged) rfl h)
      rw [← hcarries.settled j other hj hengaged, Conn.has_cons_subscribe]
      simp [hother]
  · rw [Conn.has_accepted hnone, Conn.has_cons_subscribe]
    rcases hu with hu | hu
    · simp [hu]
    · cases accept with
      | true => cases hu
      | false => simp

theorem Sound.hostTakes (hsound : Sound s) {c : ℕ} {accept : Bool}
    (hs : s.hostTakes c accept = some s') : Sound s' := by
  cases hconn : s.conns[c]? with
  | none => simp [State.hostTakes, hconn] at hs
  | some conn =>
    obtain ⟨alive, subscribed, wire⟩ := conn
    cases alive with
    | false => simp [State.hostTakes, hconn] at hs
    | true =>
      cases wire with
      | nil => simp [State.hostTakes, hconn] at hs
      | cons frame rest =>
        cases frame with
        | unsubscribe uri =>
          simp only [State.hostTakes, hconn, if_true, Option.some.injEq] at hs
          subst hs
          exact hsound.takesUnsubscribe hconn
        | subscribe i uri =>
          cases hcall : s.calls[i]? with
          | none => simp [State.hostTakes, hconn, hcall] at hs
          | some call =>
            simp only [State.hostTakes, hconn, hcall, if_true, Option.some.injEq] at hs
            subst hs
            exact hsound.takesSubscribe hconn hcall accept

/-- A connection is lost. -/
theorem Sound.lose (hsound : Sound s) {c : ℕ} {conn : Conn} (hconn : s.conns[c]? = some conn) :
    Sound (s.setConn c { conn with alive := false }) :=
  hsound.setConn hconn (fun h => h) (fun h => by cases h) fun h => by cases h

theorem Sound.drop (hsound : Sound s) {c : ℕ} (hs : s.drop c = some s') : Sound s' := by
  obtain ⟨conn, hconn, rfl⟩ := Option.map_eq_some_iff.mp hs
  exact hsound.lose hconn

/-! ### The steps of the supervisor -/

/-- Nothing of the subscriptions is read while the supervisor is in such a phase. -/
def Phase.idle : Phase → Bool
  | .down | .tearing _ | .removed => true
  | _ => false

/-- The supervisor goes idle. -/
theorem Sound.idle (hsound : Sound s) (phase : Phase) (hidle : phase.idle) (connecting : Bool) :
    Sound { s with phase := phase, connecting := connecting, current := none } := by
  have hphase : phase.handshake? = none ∧ phase ≠ .added ∧ (∀ c u, phase ≠ .asked c u) ∧
      (∀ c u, phase ≠ .installing c u) ∧ phase ≠ .up := by
    cases phase <;> simp_all [Phase.idle, Phase.handshake?]
  obtain ⟨hhandshake, hadded, hasked, hinstalling, hup⟩ := hphase
  refine hsound.moves ⟨hsound.fits.nodup, fun h => absurd h hadded, fun c u h => absurd h (hasked c u),
    fun c h => (by cases h), fun c u h => absurd h (hinstalling c u), fun c h => ?_⟩ rfl rfl rfl
    (fun c h => ?_) (fun c missing h => ?_)
  · rw [hhandshake] at h
    cases h
  · rw [hhandshake] at h
    cases h
  · rcases h with ⟨h, -, -⟩ | h | h
    · exact absurd h hup
    · simp only at h
      rw [h] at hhandshake
      cases hhandshake
    · exact absurd h (hinstalling c missing)

/-- There is no client but on an installed connection. -/
theorem Fits.current_eq_none (hfits : Fits s) (hup : s.phase ≠ .up)
    (hinstalling : ∀ c missing, s.phase ≠ .installing c missing) : s.current = none := by
  refine Option.eq_none_iff_forall_ne_some.mpr fun c hc => ?_
  rcases (hfits.current c hc).2 with h | ⟨missing, h⟩
  · exact hup h
  · exact hinstalling c missing h

theorem Sound.setState (hsound : Sound s) {connecting : Bool} (hs : s.setState connecting = some s') :
    Sound s' := by
  unfold State.setState at hs
  split at hs
  · next hphase =>
    cases hs
    have hcurrent := hsound.fits.current_eq_none (by simp [hphase]) (by simp [hphase])
    have hidle := hsound.idle .down rfl connecting
    rw [← hphase, ← hcurrent] at hidle
    exact hidle
  · cases hs

/-- A fresh connection is asked for what is tracked. -/
theorem Sound.opens (hsound : Sound s) (hcurrent : s.current = none) {requested : List String}
    (hrequested : requested = s.tracked) (isReconnect : Bool) :
    Sound { s with
      connecting := true, isReconnect := isReconnect, phase := .asked s.conns.length requested
      conns := s.conns ++ [⟨true, [], []⟩] } where
  fits := by
    refine ⟨hsound.fits.nodup, fun h => (by cases h), fun c u h => (by cases h; exact hrequested), fun c h => ?_,
      fun c u h => (by cases h), fun c h => ?_⟩
    · exact absurd (h.symm.trans hcurrent) (by simp)
    · cases h
      simp
  underway := by
    refine ⟨fun i call c hi hc => ?_, hsound.underway.apart, fun c conn hc hconn => ?_,
      fun c conn hconn halive => ?_⟩
    · have hlt := (hsound.underway.known i call c hi hc).1
      refine ⟨by rw [List.length_append]; omega, fun h => ?_⟩
      cases h
      omega
    · cases hc
      rw [List.getElem?_concat_length] at hconn
      cases hconn
      rfl
    · rcases getElem?_concat_eq_some hconn with ⟨hc, rfl⟩ | hconn
      · refine ⟨fun _ _ h => (by cases h), .nil, fun i call hi hengaged => ?_⟩
        have hlt := (hsound.underway.known i call c hi (Calling.client?_of_engaged? hengaged)).1
        omega
      · exact hsound.underway.carries c conn hconn halive
  serves := by
    intro c missing conn hserves
    rcases hserves with ⟨h, -, -⟩ | h | h <;> cases h

theorem Sound.openHost (hsound : Sound s) (hs : s.openHost = some s') : Sound s' := by
  unfold State.openHost at hs
  split at hs
  · next hphase =>
    cases hs
    exact hsound.opens (hsound.fits.current_eq_none (by simp [hphase]) (by simp [hphase]))
      (hsound.fits.config hphase) s.isReconnect
  · next hphase =>
    cases hs
    exact hsound.opens (hsound.fits.current_eq_none (by simp [hphase]) (by simp [hphase])) rfl true
  · cases hs

/-- The host answers: it has what it was asked for, without what it lists as missing. -/
theorem Sound.answer (hsound : Sound s) {missing : List String} (hs : s.answer missing = some s') :
    Sound s' := by
  unfold State.answer at hs
  split at hs
  · next c requested hphase =>
    obtain ⟨conn, hconn, rfl⟩ := Option.map_eq_some_iff.mp hs
    obtain ⟨hnodup, -, hasked, -, -, hhandshake⟩ := hsound.fits
    have hcurrent := hsound.fits.current_eq_none (by simp [hphase]) (by simp [hphase])
    have hshake : s.phase.handshake? = some c := by rw [hphase]; rfl
    have hwire := hsound.underway.fresh c conn hshake hconn
    have hnocall : ∀ (i : ℕ) (call : Call), s.calls[i]? = some call → call.pc.engaged? ≠ some c :=
      fun i call hi hengaged =>
        (hsound.underway.known i call c hi (Calling.client?_of_engaged? hengaged)).2 hshake
    constructor
    case fits =>
      refine ⟨hnodup, fun h => (by cases h), fun d u h => (by cases h), fun d h => ?_, fun d u h => (by cases h),
        fun d h => ?_⟩
      · exact absurd (h.symm.trans hcurrent) (by simp)
      · cases h
        simpa [State.setConn] using hhandshake c hshake
    case underway =>
      refine ⟨fun i call d hi hd => ?_, hsound.underway.apart, fun d other hd hother => ?_,
        fun d other hother halive => ?_⟩
      · obtain ⟨hlt, hne⟩ := hsound.underway.known i call d hi hd
        exact ⟨by simpa [State.setConn] using hlt, fun h => hne (by rw [hshake]; exact h)⟩
      · cases hd
        rcases getElem?_set_eq_some hother with ⟨-, rfl⟩ | ⟨hne, -⟩
        · exact hwire
        · exact absurd rfl hne
      · rcases getElem?_set_eq_some hother with ⟨rfl, rfl⟩ | ⟨-, hother⟩
        · refine ⟨fun i u h => ?_, ?_, fun i call hi h => absurd h (hnocall i call hi)⟩
          · simp only [hwire] at h
            cases h
          · simp only [hwire]
            exact .nil
        · exact hsound.underway.carries d other hother halive
    case serves =>
      intro d lost other hserves hother halive u hnot
      have hd : d = c ∧ lost = missing := by
        rcases hserves with ⟨h, -, -⟩ | h | h
        · cases h
        · cases h
          exact ⟨rfl, rfl⟩
        · cases h
      obtain ⟨rfl, rfl⟩ := hd
      rcases getElem?_set_eq_some hother with ⟨-, rfl⟩ | ⟨hne, -⟩
      · simp [Conn.has, hwire, hasked d requested hphase, State.setConn]
      · exact absurd rfl hne
  · cases hs

theorem Sound.attemptFails (hsound : Sound s) (hs : s.attemptFails = some s') : Sound s' := by
  have hcurrent : s.current = none ∧ s' =
      { s with phase := if s.isReconnect then .down else .removed, connecting := s.isReconnect } := by
    unfold State.attemptFails at hs
    split at hs
    · next hphase =>
      cases hs
      exact ⟨hsound.fits.current_eq_none (by simp [hphase]) (by simp [hphase]), rfl⟩
    · next hphase =>
      cases hs
      exact ⟨hsound.fits.current_eq_none (by simp [hphase]) (by simp [hphase]), rfl⟩
    · cases hs
  obtain ⟨hcurrent, rfl⟩ := hcurrent
  have hidle := hsound.idle (if s.isReconnect then .down else .removed)
    (by cases s.isReconnect <;> rfl) s.isReconnect
  rw [← hcurrent] at hidle
  exact hidle

/-- `SetClient`: the connection of the handshake is the client's. -/
theorem Sound.install (hsound : Sound s) (hs : s.install = some s') : Sound s' := by
  unfold State.install at hs
  split at hs
  · next c missing hphase =>
    cases hs
    have hlt : c < s.conns.length := hsound.fits.handshake c (by rw [hphase]; rfl)
    refine hsound.moves ⟨hsound.fits.nodup, fun h => (by cases h), fun d u h => (by cases h), fun d h => ?_,
      fun d u h => (by cases h; rfl), fun d h => (by cases h)⟩ rfl rfl rfl (fun d h => by cases h)
      fun d lost h => ?_
    · cases h
      exact ⟨hlt, .inr ⟨missing, rfl⟩⟩
    · rcases h with ⟨h, -, -⟩ | h | h
      · cases h
      · cases h
      · cases h
        exact .inr (.inl hphase)
  · cases hs

theorem mem_foldl_erase (uris : List String) {tracked : List String} (hnodup : tracked.Nodup) :
    (uris.foldl List.erase tracked).Nodup ∧
      ∀ u, u ∈ uris.foldl List.erase tracked ↔ u ∈ tracked ∧ u ∉ uris := by
  induction uris generalizing tracked with
  | nil => exact ⟨hnodup, fun u => by simp⟩
  | cons uri uris ih =>
    obtain ⟨hrest, hmem⟩ := ih (hnodup.erase uri)
    refine ⟨hrest, fun u => ?_⟩
    rw [List.foldl_cons, hmem, hnodup.mem_erase_iff, List.mem_cons, not_or]
    tauto

/-- What the host could not resume is pruned, and the host is connected. -/
theorem Sound.commit (hsound : Sound s) (hs : s.commit = some s') : Sound s' := by
  unfold State.commit at hs
  split at hs
  · next c missing hphase =>
    cases hs
    have hcurrent := hsound.fits.installed c missing hphase
    obtain ⟨hnodup, hmem⟩ := mem_foldl_erase missing hsound.fits.nodup
    constructor
    case fits =>
      exact ⟨hnodup, fun h => (by cases h), fun d u h => (by cases h),
        fun d h => ⟨(hsound.fits.current d h).1, .inl rfl⟩, fun d u h => (by cases h), fun d h => (by cases h)⟩
    case underway =>
      exact ⟨fun i call d hi hd => ⟨(hsound.underway.known i call d hi hd).1, by simp [Phase.handshake?]⟩,
        hsound.underway.apart, fun d conn hd => (by cases hd), hsound.underway.carries⟩
    case serves =>
      intro d lost conn hserves hconn halive u hnot
      have hd : d = c ∧ lost = [] := by
        rcases hserves with ⟨-, h, rfl⟩ | h | h
        · exact ⟨Option.some_inj.mp (h.symm.trans hcurrent), rfl⟩
        · cases h
        · cases h
      obtain ⟨rfl, rfl⟩ := hd
      rw [← hsound.serves d missing conn (.inr (.inr hphase)) hconn halive u hnot, ← hmem u]
      simp [State.removeSubscriptions]
  · cases hs

theorem Sound.commitFails (hsound : Sound s) (hs : s.commitFails = some s') : Sound s' := by
  unfold State.commitFails at hs
  split at hs
  · split at hs
    · cases hs
      exact hsound.idle .down rfl s.connecting
    · cases hs
  · cases hs

theorem Sound.beginReconnect (hsound : Sound s) (hs : s.beginReconnect = some s') : Sound s' := by
  unfold State.beginReconnect at hs
  split at hs
  · next c hphase hcurrent =>
    cases hs
    exact hsound.idle (.tearing c) rfl true
  · cases hs

theorem Sound.torn (hsound : Sound s) (hs : s.torn = some s') : Sound s' := by
  unfold State.torn at hs
  split at hs
  · next c hphase =>
    obtain ⟨conn, hconn, rfl⟩ := Option.map_eq_some_iff.mp hs
    have hcurrent := hsound.fits.current_eq_none (by simp [hphase]) (by simp [hphase])
    have hidle := (hsound.lose hconn).idle .down rfl s.connecting
    rw [← hcurrent] at hidle
    exact hidle
  · cases hs

/-! ### Runs -/

theorem sound_step {a : Act} (hsound : Sound s) (hguard : NoOverlap s a) (hs : s.step a = some s') :
    Sound s' := by
  cases a with
  | subscribe uri | unsubscribe uri =>
    cases hs
    exact hsound.newCall hguard
  | obtain i =>
    obtain ⟨call, hcall, hs⟩ := Option.bind_eq_some_iff.mp hs
    exact hsound.obtain hcall hs
  | send i =>
    obtain ⟨call, hcall, hs⟩ := Option.bind_eq_some_iff.mp hs
    exact hsound.send hcall hs
  | sendLost i =>
    obtain ⟨call, hcall, hs⟩ := Option.bind_eq_some_iff.mp hs
    exact hsound.sendLost hcall hs
  | fail i =>
    obtain ⟨call, hcall, hs⟩ := Option.bind_eq_some_iff.mp hs
    exact hsound.fail hcall hs
  | receive i =>
    obtain ⟨call, hcall, hs⟩ := Option.bind_eq_some_iff.mp hs
    exact hsound.receive hcall hs
  | track i =>
    obtain ⟨call, hcall, hs⟩ := Option.bind_eq_some_iff.mp hs
    exact hsound.track hcall hs
  | hostTakes c accept => exact hsound.hostTakes hs
  | drop c => exact hsound.drop hs
  | setState connecting => exact hsound.setState hs
  | openHost => exact hsound.openHost hs
  | hostReplays missing =>
    simp only [State.step, State.hostReplays, Option.ite_none_right_eq_some] at hs
    exact hsound.answer hs.2
  | hostAnswers => exact hsound.answer hs
  | attemptFails => exact hsound.attemptFails hs
  | install => exact hsound.install hs
  | commit => exact hsound.commit hs
  | commitFails => exact hsound.commitFails hs
  | beginReconnect => exact hsound.beginReconnect hs
  | torn => exact hsound.torn hs

theorem sound_added {initialSubscriptions : Option (List String)}
    (hnodup : (snapshotSubscriptions initialSubscriptions).Nodup) : Sound (added initialSubscriptions) where
  fits := ⟨hnodup, fun _ => rfl, fun c u h => (by cases h), fun c h => (by cases h), fun c u h => (by cases h),
    fun c h => (by cases h)⟩
  underway := ⟨fun i call c hi => (by cases hi), fun i j call other hi => (by cases hi),
    fun c conn h => (by cases h), fun c conn h => (by cases h)⟩
  serves := by
    intro c missing conn hserves hconn
    cases hconn

/-- The host is connected, and no call or handshake is in flight: `conn` is the connection. -/
def State.Quiet (s : State) (conn : Conn) : Prop :=
  s.phase = .up ∧ (∃ c, s.current = some c ∧ s.conns[c]? = some conn) ∧ conn.alive ∧ conn.wire = [] ∧
    ∀ call ∈ s.calls, call.pc.inFlight = false

theorem Sound.tracked_iff {conn : Conn} (hsound : Sound s) (hquiet : s.Quiet conn) (uri : String) :
    uri ∈ s.tracked ↔ uri ∈ conn.subscribed := by
  obtain ⟨hphase, ⟨c, hcurrent, hconn⟩, halive, hwire, hcalls⟩ := hquiet
  have hnot : ¬ s.Engaged c uri := by
    rintro ⟨i, call, hi, -, hengaged⟩
    have hflight := Calling.inFlight_of_engaged? hengaged
    rw [hcalls call (List.mem_of_getElem? hi)] at hflight
    cases hflight
  have hserves := hsound.serves c [] conn (.inl ⟨hphase, hcurrent, rfl⟩) hconn halive uri hnot
  simpa [Conn.has, hwire] using hserves

/-- Connect, and unsubscribe from a URI. -/
def unsubscribing (uri : String) : List Act :=
  [.openHost, .hostAnswers, .install, .commit, .unsubscribe uri, .obtain 0, .send 0, .hostTakes 0 true,
    .track 0]

theorem guarded_unsubscribing (initialSubscriptions : Option (List String)) (uri : String) :
    Guarded State.step NoOverlap (added initialSubscriptions) (unsubscribing uri) := by
  refine ⟨trivial, fun s hs => ?_⟩
  cases hs
  refine ⟨trivial, fun s hs => ?_⟩
  cases hs
  refine ⟨trivial, fun s hs => ?_⟩
  cases hs
  refine ⟨trivial, fun s hs => ?_⟩
  cases hs
  refine ⟨fun call hcall => (by cases hcall), fun s _ => ?_⟩
  exact ⟨trivial, fun _ _ => ⟨trivial, fun _ _ => ⟨trivial, fun _ _ => ⟨trivial, fun _ _ => trivial⟩⟩⟩⟩

/-- One occurrence of the URI is taken out, and the host has none. -/
theorem runs_unsubscribing (initialSubscriptions : Option (List String)) (uri : String) :
    ∃ s conn, runs State.step (added initialSubscriptions) (unsubscribing uri) = some s ∧ s.Quiet conn ∧
      s.tracked = (snapshotSubscriptions initialSubscriptions).erase uri ∧ uri ∉ conn.subscribed := by
  refine ⟨_, _, rfl, ⟨rfl, ⟨0, rfl, rfl⟩, rfl, rfl, ?_⟩, rfl, ?_⟩
  · intro call hcall
    rw [List.mem_singleton.mp hcall]
    rfl
  · intro huri
    simpa using (List.mem_filter.mp huri).2

/-- **The replay set**: it is what the host has subscribed, in every run and whenever nothing is in
flight, if and only if the initial subscriptions list no URI twice. -/
theorem tracked_is_subscribed_iff (initialSubscriptions : Option (List String)) :
    (∀ actions s conn, Guarded State.step NoOverlap (added initialSubscriptions) actions →
      runs State.step (added initialSubscriptions) actions = some s → s.Quiet conn →
      ∀ uri, uri ∈ s.tracked ↔ uri ∈ conn.subscribed) ↔
    (snapshotSubscriptions initialSubscriptions).Nodup := by
  constructor
  · intro hall
    by_contra hdup
    obtain ⟨uri, huri⟩ := List.exists_duplicate_iff_not_nodup.mpr hdup
    obtain ⟨s, conn, hruns, hquiet, htracked, hnot⟩ := runs_unsubscribing initialSubscriptions uri
    apply hnot
    rw [← hall _ s conn (guarded_unsubscribing initialSubscriptions uri) hruns hquiet uri, htracked]
    have htwice := List.duplicate_iff_two_le_count.mp huri
    rw [← List.count_pos_iff, List.count_erase_self]
    omega
  · intro hnodup actions s conn hguarded hruns hquiet
    have hsound := runs_invariant State.step sound_step (sound_added hnodup) hguarded hruns
    exact hsound.tracked_iff hquiet

/-- A URI that is listed twice stays tracked after it was unsubscribed. -/
theorem unsubscribed_stays_tracked : ∃ actions s conn,
    Guarded State.step NoOverlap (added (some ["ahp-root://", "ahp-root://"])) actions ∧
      runs State.step (added (some ["ahp-root://", "ahp-root://"])) actions = some s ∧ s.Quiet conn ∧
      "ahp-root://" ∈ s.tracked ∧ "ahp-root://" ∉ conn.subscribed := by
  obtain ⟨s, conn, hruns, hquiet, htracked, hnot⟩ :=
    runs_unsubscribing (some ["ahp-root://", "ahp-root://"]) "ahp-root://"
  refine ⟨_, s, conn, guarded_unsubscribing _ "ahp-root://", hruns, hquiet, ?_, hnot⟩
  rw [htracked]
  decide

end AgentHostProtocol.Dotnet.Hosts.Tracking
