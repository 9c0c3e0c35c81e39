import AgentHostProtocol.Client.StateMirror
import AgentHostProtocol.Library.LengthPrefix

/-!
# The state mirror of several hosts

`MultiHostStateMirror` keeps what `AhpStateMirror` keeps, for several hosts: maps are keyed by the
length of the host id in UTF-16 code units, a NUL, the host id and the URI. A notification other
than an action moves no state and has no data here.

* `hostedResourceKey`, `hostedResourceKeyPrefix` — the keys; `startsWith_prefix_iff` says that
  the entries under the prefix of a host are those of the host.
* `MultiHostStateMirror` — the mirror.
-/

namespace AgentHostProtocol.Hosts

open Library Channels Client

/-- `HostId = string`. -/
abbrev HostId := String

/-! ### Keys -/

/-- The UTF-16 code units of a character. -/
def utf16Size (c : Char) : ℕ := if c.toNat < 0x10000 then 1 else 2

/-- `s.length`. -/
def utf16Length (s : String) : ℕ := (s.toList.map utf16Size).sum

/-- `hostedResourceKeyPrefix`. -/
def hostedResourceKeyPrefix (hostId : HostId) : String :=
  toString (utf16Length hostId) ++ "\x00" ++ hostId

/-- `hostedResourceKey`. -/
def hostedResourceKey (hostId : HostId) (uri : URI) : String :=
  toString (utf16Length hostId) ++ "\x00" ++ hostId ++ uri

/-- The keys as length-prefixed words. -/
def keyCode : LengthPrefix Char where
  header n := Nat.toDigits 10 n
  sep := '\x00'
  size := utf16Size
  header_injective m n h := by
    have hm : Nat.ofDigitChars 10 (Nat.toDigits 10 m) 0 = m := Nat.ofDigitChars_ten_toDigits
    have hn : Nat.ofDigitChars 10 (Nat.toDigits 10 n) 0 = n := Nat.ofDigitChars_ten_toDigits
    rw [← hm, ← hn, show Nat.toDigits 10 m = Nat.toDigits 10 n from h]
  sep_notMem n h := by
    have hdigit : '\x00'.isDigit = true := Nat.isDigit_of_mem_toDigits (by decide) (by decide) h
    revert hdigit
    decide
  size_pos c := by
    unfold utf16Size
    split <;> decide

theorem toList_hostedResourceKeyPrefix (hostId : HostId) :
    (hostedResourceKeyPrefix hostId).toList = keyCode.encode hostId.toList := by
  simp [hostedResourceKeyPrefix, LengthPrefix.encode, keyCode, LengthPrefix.length, utf16Length]

theorem hostedResourceKey_eq (hostId : HostId) (uri : URI) :
    hostedResourceKey hostId uri = hostedResourceKeyPrefix hostId ++ uri := rfl

/-- No key starts with the prefixes of two hosts. -/
theorem host_unique {key : String} {g h : HostId} (hg : startsWith key (hostedResourceKeyPrefix g))
    (hh : startsWith key (hostedResourceKeyPrefix h)) : g = h := by
  have hg' := List.isPrefixOf_iff_prefix.mp hg
  have hh' := List.isPrefixOf_iff_prefix.mp hh
  rw [toList_hostedResourceKeyPrefix] at hg' hh'
  exact String.toList_inj.mp (keyCode.prefix_unique hg' hh')

theorem startsWith_own (hostId : HostId) (uri : URI) :
    startsWith (hostedResourceKey hostId uri) (hostedResourceKeyPrefix hostId) := by
  rw [hostedResourceKey_eq]
  unfold startsWith
  rw [String.toList_append]
  exact List.isPrefixOf_iff_prefix.mpr (List.prefix_append _ _)

/-- The keys under the prefix of a host are its own. -/
theorem startsWith_prefix_iff {g h : HostId} {uri : URI} :
    startsWith (hostedResourceKey g uri) (hostedResourceKeyPrefix h) ↔ g = h := by
  constructor
  · intro hh
    exact host_unique (startsWith_own g uri) hh
  · rintro rfl
    exact startsWith_own g uri

theorem hostedResourceKey_inj {g h : HostId} {uri uri' : URI} :
    hostedResourceKey g uri = hostedResourceKey h uri' ↔ g = h ∧ uri = uri' := by
  constructor
  · intro heq
    have hgh : g = h := host_unique (startsWith_own g uri) (heq ▸ startsWith_own h uri')
    subst hgh
    rw [hostedResourceKey_eq, hostedResourceKey_eq] at heq
    exact ⟨rfl, by simpa using heq⟩
  · rintro ⟨rfl, rfl⟩
    rfl

/-! ### The mirror -/

/-- `SubscriptionEvent`. -/
inductive SubscriptionEvent where
  | action (params : ActionEnvelope)
  | sessionAdded
  | sessionRemoved
  | sessionSummaryChanged
  | authRequired

/-- `HostSubscriptionEvent`. -/
structure HostSubscriptionEvent where
  hostId : HostId
  event : SubscriptionEvent

section

variable {J : Type}

/-- `MultiHostStateMirror`. -/
structure MultiHostStateMirror (J : Type) where
  rootStatesMap : Record (Stored J)
  maps : ResourceMaps J
  automationCatalogsMap : Record SnapshotState
  automationsMap : Record AutomationEntry

/-- Deletes the keys that start with `prefix`. -/
def deletePrefix {V : Type} (map : Record V) (keyPrefix : String) : Record V :=
  map.restrict fun key => !startsWith key keyPrefix

namespace MultiHostStateMirror

/-- `new MultiHostStateMirror()`. -/
def new : MultiHostStateMirror J where
  rootStatesMap := Record.empty
  maps := ResourceMaps.new
  automationCatalogsMap := Record.empty
  automationsMap := Record.empty

/-- `getRoot`. -/
def getRoot (m : MultiHostStateMirror J) (hostId : HostId) : Option (Stored J) :=
  m.rootStatesMap.get? hostId

/-- `getSession`, `getCanvas`, `getTerminal` and `getChangeset`, and a run of an automation. -/
def getResource (m : MultiHostStateMirror J) (r : ResourceKind) (hostId : HostId) (uri : URI) :
    Option (Stored J) :=
  (m.maps r).get? (hostedResourceKey hostId uri)

/-- `getAutomation`. -/
def getAutomation (m : MultiHostStateMirror J) (hostId : HostId) (uri : URI) :
    Option AutomationEntry :=
  m.automationsMap.get? (hostedResourceKey hostId uri)

/-- `setAutomationCatalog`: a state without `entries` cannot be iterated over. -/
def setAutomationCatalog (m : MultiHostStateMirror J) (hostId : HostId) (state : SnapshotState) :
    Option Thrown × MultiHostStateMirror J :=
  let m :=
    { m with
      automationCatalogsMap := m.automationCatalogsMap.set hostId state
      automationsMap := deletePrefix m.automationsMap (hostedResourceKeyPrefix hostId) }
  match state.entries? with
  | none => (some .typeError, m)
  | some entries =>
    (none,
      { m with
        automationsMap :=
          entries.foldl (fun map a => map.set (hostedResourceKey hostId a.resource) a)
            m.automationsMap })

/-- `applyEnvelope`. -/
def applyEnvelope (casts : Casts J) (m : MultiHostStateMirror J) (hostId : HostId)
    (envelope : ActionEnvelope) : Option Thrown × MultiHostStateMirror J :=
  match route envelope.channel with
  | some .root =>
    let root := (m.rootStatesMap.get? hostId).getD (.state (.root initialRoot))
    match reduceRoot casts root envelope.action with
    | .error thrown => (some thrown, m)
    | .ok root => (none, { m with rootStatesMap := m.rootStatesMap.set hostId root })
  | some .automations =>
    match m.automationCatalogsMap.get? hostId with
    | none => (none, m)
    | some current =>
      match reduceCatalog current envelope.action with
      | .error thrown => (some thrown, m)
      | .ok state => m.setAutomationCatalog hostId state
  | some (.resource r) =>
    let key := hostedResourceKey hostId envelope.channel
    let (thrown, maps) := m.maps.apply casts r key envelope.action
    (thrown, { m with maps := maps })
  | none => (none, m)

/-- `applySnapshot`. -/
def applySnapshot (m : MultiHostStateMirror J) (hostId : HostId) (snapshot : Snapshot) :
    Option Thrown × MultiHostStateMirror J :=
  match route snapshot.resource with
  | some .root => (none, { m with rootStatesMap := m.rootStatesMap.set hostId (.state snapshot.state) })
  | some .automations => m.setAutomationCatalog hostId snapshot.state
  | some (.resource r) =>
    let key := hostedResourceKey hostId snapshot.resource
    let (thrown, maps) := m.maps.applySnapshot r key snapshot.state
    (thrown, { m with maps := maps })
  | none => (none, m)

/-- `applyEvent`. -/
def applyEvent (casts : Casts J) (m : MultiHostStateMirror J) (event : HostSubscriptionEvent) :
    Option Thrown × MultiHostStateMirror J :=
  match event.event with
  | .action params => m.applyEnvelope casts event.hostId params
  | _ => (none, m)

/-- `resetHost`. -/
def resetHost (m : MultiHostStateMirror J) (hostId : HostId) : MultiHostStateMirror J where
  rootStatesMap := m.rootStatesMap.delete hostId
  maps r := deletePrefix (m.maps r) (hostedResourceKeyPrefix hostId)
  automationCatalogsMap := m.automationCatalogsMap.delete hostId
  automationsMap := deletePrefix m.automationsMap (hostedResourceKeyPrefix hostId)

/-- `reset`. -/
def reset (_ : MultiHostStateMirror J) : MultiHostStateMirror J := new

/-- The calls that change a mirror. -/
inductive Input where
  | snapshot (hostId : HostId) (snapshot : Snapshot)
  | envelope (hostId : HostId) (envelope : ActionEnvelope)
  | event (event : HostSubscriptionEvent)
  | resetHost (hostId : HostId)
  | reset

/-- The mirror after a call, returned from or not. -/
def step (casts : Casts J) (m : MultiHostStateMirror J) : Input → MultiHostStateMirror J
  | .snapshot hostId snapshot => (m.applySnapshot hostId snapshot).2
  | .envelope hostId envelope => (m.applyEnvelope casts hostId envelope).2
  | .event event => (m.applyEvent casts event).2
  | .resetHost hostId => m.resetHost hostId
  | .reset => m.reset

/-- A new mirror after a list of calls. -/
def run (casts : Casts J) (inputs : List Input) : MultiHostStateMirror J :=
  inputs.foldl (step casts) new

end MultiHostStateMirror

end

end AgentHostProtocol.Hosts
