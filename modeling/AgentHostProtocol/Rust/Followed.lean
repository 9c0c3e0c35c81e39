import AgentHostProtocol.Library.Runs
import AgentHostProtocol.Rust.Mirror

/-!
# Every resource of the Rust mirror and its channel

A mirror is meant to be a register for every resource: a snapshot seeds it, the envelopes of its
channel advance it by the reducer of its kind, and a reset empties it.

**What is proved**:
* what the mirror keeps follows the channels through a whole run exactly if no envelope of the
  run is lost on the way, `Heard`: a state kept on the channel of the envelope that is not the
  one the envelope is routed to would not have been changed by it either. Changesets and
  annotations are never routed to, so theirs are the envelopes that get lost
  (`resources_follow_channels`, `frozen_changeset`);
* the automations kept one by one are those of the catalogue of their host after every run.
-/

namespace AgentHostProtocol.Rust.MultiHostStateMirror

open Library Function

variable {U : Type}

/-! ### Routing -/

/-- The kind of the state that an envelope on the channel reaches. -/
def route (m : MultiHostStateMirror U) (key : HostedResourceKey) : Option Kind :=
  if key.uri = rootResourceUri then some .root
  else if key.uri = automationsResourceUri then some .automations
  else [Kind.session, .chat, .canvas, .terminal, .automationRun].find? fun k =>
    (m.stored k key).isSome

/-- The mirror with the state of one resource replaced. -/
def put (m : MultiHostStateMirror U) :
    (k : Kind) → HostedResourceKey → k.State U → MultiHostStateMirror U
  | .root, key, s => { m with rootStates := update m.rootStates key.hostId (some s) }
  | .session, key, s => { m with sessions := update m.sessions key (some s) }
  | .chat, key, s => { m with chats := update m.chats key (some s) }
  | .canvas, key, s => { m with canvases := update m.canvases key (some s) }
  | .terminal, key, s => { m with terminals := update m.terminals key (some s) }
  | .changeset, key, s => { m with changesets := update m.changesets key (some s) }
  | .annotations, key, s => { m with annotations := update m.annotations key (some s) }
  | .resourceWatch, key, s => { m with resourceWatches := update m.resourceWatches key (some s) }
  | .automations, key, s =>
    { m with
      automationCatalogs :=
        update m.automationCatalogs key.hostId (some s) }.replaceAutomations key.hostId s.entries
  | .automationRun, key, s => { m with automationRuns := update m.automationRuns key (some s) }

/-- A resource of the kind can be on the channel. -/
def Fits (key : HostedResourceKey) : Kind → Prop
  | .root => key.uri = rootResourceUri
  | .automations => key.uri = automationsResourceUri
  | _ => True

theorem fits_keyOf (k : Kind) (host : HostId) (resource : URI) : Fits (k.keyOf host resource) k := by
  cases k <;> first | rfl | trivial

/-- What the mirror keeps is on a channel of its kind. -/
theorem fits_of_stored {m : MultiHostStateMirror U} {k : Kind} {key : HostedResourceKey}
    {s : k.State U} (h : m.stored k key = some s) : Fits key k := by
  cases k with
  | root =>
    by_contra hne
    have hnone : m.stored .root key = none := if_neg hne
    rw [hnone] at h
    cases h
  | automations =>
    by_contra hne
    have hnone : m.stored .automations key = none := if_neg hne
    rw [hnone] at h
    cases h
  | _ => trivial

private theorem update_of_fits {σ : Type} (map : HostId → Option σ) {key : HostedResourceKey}
    {uri : URI} (hkey : key.uri = uri) (s : σ) (key' : HostedResourceKey) :
    (if key'.uri = uri then update map key.hostId (some s) key'.hostId else none) =
      if key' = key then some s else if key'.uri = uri then map key'.hostId else none := by
  subst hkey
  obtain ⟨host, uri⟩ := key
  obtain ⟨host', uri'⟩ := key'
  by_cases huri : uri' = uri
  · by_cases hhost : host' = host <;> simp [huri, hhost]
  · simp [huri]

theorem stored_put_self {m : MultiHostStateMirror U} {k : Kind} {key : HostedResourceKey}
    (hfits : Fits key k) (s : k.State U) (key' : HostedResourceKey) :
    (m.put k key s).stored k key' = if key' = key then some s else m.stored k key' := by
  cases k with
  | root => exact update_of_fits m.rootStates hfits s key'
  | automations => exact update_of_fits m.automationCatalogs hfits s key'
  | _ => exact update_apply _ key (some s) key'

theorem stored_put_of_ne (m : MultiHostStateMirror U) {k k' : Kind} (h : k' ≠ k)
    (key key' : HostedResourceKey) (s : k.State U) :
    (m.put k key s).stored k' key' = m.stored k' key' := by
  cases k <;> cases k' <;> first | rfl | exact absurd rfl h

/-! ### Snapshots -/

section

variable {m : MultiHostStateMirror U} {host : HostId} {snapshot : Snapshot U}

/-- A snapshot puts the state it carries at the key of its resource. -/
theorem applySnapshot_of_some {k : Kind} {s : k.State U} (h : snapshot.state.as? k = some s) :
    m.applySnapshot host snapshot = m.put k (k.keyOf host snapshot.resource) s := by
  obtain ⟨resource, state⟩ := snapshot
  cases k <;> cases state <;> cases h <;> rfl

/-- A snapshot without a state of any kind does nothing. -/
theorem applySnapshot_of_none (h : ∀ k, snapshot.state.as? k = none) :
    m.applySnapshot host snapshot = m := by
  obtain ⟨resource, state⟩ := snapshot
  cases state with
  | empty | unknown => rfl
  | root => cases h .root
  | session => cases h .session
  | chat => cases h .chat
  | canvas => cases h .canvas
  | terminal => cases h .terminal
  | changeset => cases h .changeset
  | resourceWatch => cases h .resourceWatch
  | annotations => cases h .annotations
  | automations => cases h .automations
  | automationRun => cases h .automationRun

theorem stored_applySnapshot (k : Kind) (key : HostedResourceKey) :
    (m.applySnapshot host snapshot).stored k key =
      match snapshot.state.as? k with
      | some s => if key = k.keyOf host snapshot.resource then some s else m.stored k key
      | none => m.stored k key := by
  cases h : snapshot.state.as? k with
  | some s => rw [applySnapshot_of_some h, stored_put_self (fits_keyOf k host snapshot.resource)]
  | none =>
    by_cases hall : ∀ k', snapshot.state.as? k' = none
    · rw [applySnapshot_of_none hall]
    · obtain ⟨k', hk'⟩ := not_forall.mp hall
      obtain ⟨s, hs⟩ := Option.ne_none_iff_exists'.mp hk'
      have hne : k ≠ k' := by
        rintro rfl
        exact hk' h
      rw [applySnapshot_of_some hs, stored_put_of_ne m hne]

end

/-! ### Envelopes -/

/-- An envelope is routed to a kind that can be on its channel. -/
theorem fits_of_route {m : MultiHostStateMirror U} {key : HostedResourceKey} {k : Kind} (h : m.route key = some k) :
    Fits key k := by
  unfold route at h
  split_ifs at h with hroot haut
  · cases h
    exact hroot
  · cases h
    exact haut
  · have hsome : (m.stored k key).isSome := List.find?_some (p := fun k => (m.stored k key).isSome) h
    obtain ⟨s, hs⟩ := Option.isSome_iff_exists.mp hsome
    exact fits_of_stored hs

section

variable [RawId U] {jiff : Jiff} {m : MultiHostStateMirror U} {host : HostId}
  {envelope : ActionEnvelope U}

/-- What an envelope does: it is not routed, or the state it is routed to, which for a root may
be the default one, is reduced. -/
theorem applyEnvelope_cases (jiff : Jiff) (m : MultiHostStateMirror U) (host : HostId)
    (envelope : ActionEnvelope U) :
    (m.applyEnvelope jiff host envelope = m ∧
        ∀ k, m.route ⟨host, envelope.channel⟩ = some k →
          m.stored k ⟨host, envelope.channel⟩ = none ∧ k ≠ .root) ∨
      ∃ k s, m.route ⟨host, envelope.channel⟩ = some k ∧
        (m.stored k ⟨host, envelope.channel⟩ = some s ∨
          k = .root ∧ m.stored k ⟨host, envelope.channel⟩ = none) ∧
        m.applyEnvelope jiff host envelope =
          m.put k ⟨host, envelope.channel⟩ (k.reduce jiff s envelope.action) := by
  obtain ⟨channel, action⟩ := envelope
  by_cases hroot : channel = rootResourceUri
  · subst hroot
    refine .inr ⟨.root, (m.rootStates host).getD defaultRoot, rfl, ?_, rfl⟩
    show m.rootStates host = _ ∨ .root = Kind.root ∧ m.rootStates host = none
    cases m.rootStates host with
    | none => exact .inr ⟨rfl, rfl⟩
    | some s => exact .inl rfl
  by_cases haut : channel = automationsResourceUri
  · subst haut
    have hroute : m.route ⟨host, automationsResourceUri⟩ = some .automations := rfl
    cases hcatalog : m.automationCatalogs host with
    | none =>
      refine .inl ⟨?_, fun k hk => ?_⟩
      · simp only [applyEnvelope, if_neg hroot, if_true, hcatalog]
      · cases hroute.symm.trans hk
        exact ⟨hcatalog, nofun⟩
    | some catalog =>
      refine .inr ⟨.automations, catalog, hroute, .inl hcatalog, ?_⟩
      simp only [applyEnvelope, if_neg hroot, if_true, hcatalog]
      rfl
  simp only [applyEnvelope, route, if_neg hroot, if_neg haut, List.find?, stored]
  cases hsession : m.sessions ⟨host, channel⟩ with
  | some s => exact .inr ⟨.session, s, rfl, .inl hsession, rfl⟩
  | none =>
  cases hchat : m.chats ⟨host, channel⟩ with
  | some s => exact .inr ⟨.chat, s, rfl, .inl hchat, rfl⟩
  | none =>
  cases hcanvas : m.canvases ⟨host, channel⟩ with
  | some s => exact .inr ⟨.canvas, s, rfl, .inl hcanvas, rfl⟩
  | none =>
  cases hterminal : m.terminals ⟨host, channel⟩ with
  | some s => exact .inr ⟨.terminal, s, rfl, .inl hterminal, rfl⟩
  | none =>
  cases hrun : m.automationRuns ⟨host, channel⟩ with
  | some s => exact .inr ⟨.automationRun, s, rfl, .inl hrun, rfl⟩
  | none => exact .inl ⟨rfl, nofun⟩

/-- An envelope changes nothing on the other channels. -/
theorem stored_applyEnvelope_of_ne {k : Kind} {key : HostedResourceKey}
    (hne : key ≠ ⟨host, envelope.channel⟩) :
    (m.applyEnvelope jiff host envelope).stored k key = m.stored k key := by
  rcases applyEnvelope_cases jiff m host envelope with ⟨heq, -⟩ | ⟨k', s, hroute, -, heq⟩
  · rw [heq]
  · rw [heq]
    by_cases hk : k = k'
    · subst hk
      rw [stored_put_self (fits_of_route hroute), if_neg hne]
    · rw [stored_put_of_ne m hk]

/-- Of the states on its own channel an envelope advances the one it is routed to. -/
theorem stored_applyEnvelope_of_some {k : Kind} {s : k.State U}
    (hs : m.stored k ⟨host, envelope.channel⟩ = some s) :
    (m.applyEnvelope jiff host envelope).stored k ⟨host, envelope.channel⟩ =
      some (if m.route ⟨host, envelope.channel⟩ = some k then k.reduce jiff s envelope.action
        else s) := by
  rcases applyEnvelope_cases jiff m host envelope with ⟨heq, hnone⟩ | ⟨k', s', hroute, hs', heq⟩
  · have hne : m.route ⟨host, envelope.channel⟩ ≠ some k := by
      intro hroute
      rw [(hnone k hroute).1] at hs
      cases hs
    rw [heq, if_neg hne, hs]
  · rw [heq]
    by_cases hk : k = k'
    · subst hk
      rw [stored_put_self (fits_of_route hroute), if_pos rfl, if_pos hroute]
      rcases hs' with hs' | ⟨-, hs'⟩
      · rw [Option.some.inj (hs.symm.trans hs')]
      · rw [hs'] at hs
        cases hs
    · have hne : m.route ⟨host, envelope.channel⟩ ≠ some k := by
        rw [hroute]
        exact fun h => hk (Option.some.inj h).symm
      rw [stored_put_of_ne m hk, hs, if_neg hne]

/-- Only a root comes into being by an envelope. -/
theorem stored_applyEnvelope_of_none {k : Kind} (hk : k ≠ .root) {key : HostedResourceKey}
    (hs : m.stored k key = none) : (m.applyEnvelope jiff host envelope).stored k key = none := by
  by_cases hkey : key = ⟨host, envelope.channel⟩
  · subst hkey
    rcases applyEnvelope_cases jiff m host envelope with ⟨heq, -⟩ | ⟨k', s', hroute, hs', heq⟩
    · rw [heq, hs]
    · have hne : k ≠ k' := by
        rintro rfl
        rcases hs' with hs' | ⟨hroot, -⟩
        · rw [hs'] at hs
          cases hs
        · exact hk hroot
      rw [heq, stored_put_of_ne m hne, hs]
  · rw [stored_applyEnvelope_of_ne hkey, hs]

end

/-! ### Resets -/

theorem stored_resetHost (m : MultiHostStateMirror U) (host : HostId) (k : Kind)
    (key : HostedResourceKey) :
    (m.resetHost host).stored k key = if key.hostId = host then none else m.stored k key := by
  have hretain {σ : Type} (map : HostedResourceKey → Option σ) :
      retainOthers map host key = if key.hostId = host then none else map key := ite_not _ _ _
  cases k with
  | root => simp only [stored, resetHost, update_apply]; split_ifs <;> rfl
  | automations => simp only [stored, resetHost, update_apply]; split_ifs <;> rfl
  | _ => exact hretain _

theorem stored_new (k : Kind) (key : HostedResourceKey) :
    (new : MultiHostStateMirror U).stored k key = none := by
  cases k with
  | root | automations => exact ite_self none
  | _ => rfl

/-! ### The mirror as a register for each resource -/

/-- The envelope that a call feeds to the mirror. -/
def Input.envelope? : Input U → Option (HostId × ActionEnvelope U)
  | .envelope host e => some (host, e)
  | .event e =>
    match e.event with
    | .action sent => some (e.hostId, sent)
    | _ => none
  | _ => none

/-- What a call says of one resource. -/
def Input.effect (k : Kind) (key : HostedResourceKey) (i : Input U) :
    Effect (k.State U) (StateAction U) :=
  match i with
  | .snapshot host s =>
    match s.state.as? k with
    | some seed => if key = k.keyOf host s.resource then .put seed else .keep
    | none => .keep
  | .resetHost host => if key.hostId = host then .drop else .keep
  | .reset => .drop
  | .envelope .. | .event _ =>
    match i.envelope? with
    | some (host, e) => if key = ⟨host, e.channel⟩ then .advance e.action else .keep
    | none => .keep

section

variable [RawId U] (jiff : Jiff) {m : MultiHostStateMirror U} {i : Input U} {k : Kind}
  {key : HostedResourceKey}

/-- A call that feeds an envelope applies it and nothing else. -/
theorem step_of_envelope (m : MultiHostStateMirror U) (k : Kind) (key : HostedResourceKey)
    {host : HostId} {e : ActionEnvelope U} (h : i.envelope? = some (host, e)) :
    m.step jiff i = m.applyEnvelope jiff host e ∧
      i.effect k key = if key = ⟨host, e.channel⟩ then .advance e.action else .keep := by
  cases i with
  | envelope host' e' =>
    cases h
    exact ⟨rfl, rfl⟩
  | event e' =>
    obtain ⟨hostId, event⟩ := e'
    cases event with
    | action sent =>
      cases h
      exact ⟨rfl, rfl⟩
    | _ => cases h
  | _ => cases h

/-- A call that feeds none does to each resource what its effect says. -/
theorem stored_step_of_none (h : i.envelope? = none) :
    (m.step jiff i).stored k key = (i.effect k key).apply (k.reduce jiff) (m.stored k key) := by
  cases i with
  | snapshot host s =>
    simp only [step, stored_applySnapshot, Input.effect]
    cases s.state.as? k with
    | none => rfl
    | some seed => dsimp only; split_ifs <;> rfl
  | envelope => cases h
  | event e =>
    obtain ⟨hostId, event⟩ := e
    cases event with
    | action => cases h
    | _ => rfl
  | resetHost host =>
    simp only [step, stored_resetHost, Input.effect]
    split_ifs <;> rfl
  | reset => exact stored_new k key

theorem run_concat (inputs : List (Input U)) (i : Input U) :
    run jiff (inputs ++ [i]) = (run jiff inputs).step jiff i := by
  unfold run
  rw [List.foldl_append]
  rfl

/-! ### Following the channels -/

/-- The mirror keeps of every resource the state of its last snapshot, reduced by the envelopes
of its channel since. -/
def Follows (inputs : List (Input U)) : Prop :=
  ∀ (k : Kind) (key : HostedResourceKey) (before : List (Input U)) (i : Input U)
    (after : List (Input U)) (seed : k.State U),
    inputs = before ++ i :: after → i.effect k key = .put seed →
    (∀ j ∈ after, (j.effect k key).Quiet) →
    (run jiff inputs).stored k key =
      some ((actionsOf (Input.effect k key) after).foldl (k.reduce jiff) seed)

/-- No envelope is lost: a state kept on its channel is the one it is routed to, or would not be
changed by it. -/
def Heard (m : MultiHostStateMirror U) (i : Input U) : Prop :=
  ∀ host e, i.envelope? = some (host, e) →
    ∀ k s, m.stored k ⟨host, e.channel⟩ = some s →
      m.route ⟨host, e.channel⟩ = some k ∨ k.reduce jiff s e.action = s

theorem follows_iff_register {inputs : List (Input U)} :
    Follows jiff inputs ↔ ∀ (k : Kind) (key : HostedResourceKey) (s : k.State U),
      register (k.reduce jiff) (Input.effect k key) inputs = some s →
        (run jiff inputs).stored k key = some s := by
  constructor
  · intro h k key s hs
    obtain ⟨before, i, after, seed, hinputs, hi, hquiet, rfl⟩ := seed_of_register hs
    exact h k key before i after seed hinputs hi hquiet
  · intro h k key before i after seed hinputs hi hquiet
    refine h k key _ ?_
    rw [hinputs]
    exact register_of_seed hi hquiet

/-- A resource that was not seeded is not kept, unless it is a root. -/
theorem stored_run_of_register {k : Kind} (hk : k ≠ .root) {key : HostedResourceKey}
    {inputs : List (Input U)}
    (h : register (k.reduce jiff) (Input.effect k key) inputs = none) :
    (run jiff inputs).stored k key = none := by
  induction inputs using List.reverseRecOn with
  | nil => exact stored_new k key
  | append_singleton inputs i ih =>
    rw [register_concat] at h
    rw [run_concat]
    cases henv : i.envelope? with
    | none =>
      rw [stored_step_of_none jiff henv]
      exact Effect.apply_none ih h
    | some sent =>
      obtain ⟨host, e⟩ := sent
      obtain ⟨hstep, heffect⟩ := step_of_envelope jiff (run jiff inputs) k key henv
      rw [hstep]
      refine stored_applyEnvelope_of_none hk (ih ?_)
      rw [heffect] at h
      split_ifs at h
      · exact Option.map_eq_none_iff.mp h
      · exact h

/-- **One call**: a mirror that follows its channels still does exactly if no envelope is lost. -/
theorem follows_concat {inputs : List (Input U)} (h : Follows jiff inputs) (i : Input U) :
    Follows jiff (inputs ++ [i]) ↔ Heard jiff (run jiff inputs) i := by
  rw [follows_iff_register] at h ⊢
  constructor
  · intro hnext host e henv k s hs
    by_cases hroute : (run jiff inputs).route ⟨host, e.channel⟩ = some k
    · exact .inl hroute
    · refine .inr ?_
      have hk : k ≠ .root := by
        rintro rfl
        exact hroute (if_pos (fits_of_stored hs))
      obtain ⟨s', hs'⟩ : ∃ s', register (k.reduce jiff) (Input.effect k ⟨host, e.channel⟩) inputs =
          some s' := by
        refine Option.ne_none_iff_exists'.mp fun hnone => ?_
        rw [stored_run_of_register jiff hk hnone] at hs
        cases hs
      cases (h k _ s' hs').symm.trans hs
      obtain ⟨hstep, heffect⟩ := step_of_envelope jiff (run jiff inputs) k ⟨host, e.channel⟩ henv
      have hreg : register (k.reduce jiff) (Input.effect k ⟨host, e.channel⟩) (inputs ++ [i]) =
          some (k.reduce jiff s e.action) := by
        rw [register_concat, hs', heffect, if_pos rfl]
        rfl
      have hafter := hnext k _ _ hreg
      rw [run_concat, hstep, stored_applyEnvelope_of_some hs, if_neg hroute] at hafter
      exact (Option.some.inj hafter).symm
  · intro hheard k key s hs
    rw [register_concat] at hs
    rw [run_concat]
    cases henv : i.envelope? with
    | none =>
      rw [stored_step_of_none jiff henv]
      exact Effect.apply_mono (h k key) hs
    | some sent =>
      obtain ⟨host, e⟩ := sent
      obtain ⟨hstep, heffect⟩ := step_of_envelope jiff (run jiff inputs) k key henv
      rw [hstep]
      rw [heffect] at hs
      split_ifs at hs with hkey
      · subst hkey
        obtain ⟨s', hs', rfl⟩ := Option.map_eq_some_iff.mp hs
        have hstored := h k _ s' hs'
        rw [stored_applyEnvelope_of_some hstored]
        split_ifs with hroute
        · rfl
        · rcases hheard host e henv k s' hstored with hr | hr
          · exact absurd hr hroute
          · rw [hr]
      · rw [stored_applyEnvelope_of_ne hkey]
        exact h k key s hs

/-! ### The automations of a host -/

end

/-- The automations kept one by one are those of the catalogues, the last of one name. -/
def AutomationsMatch (m : MultiHostStateMirror U) : Prop :=
  ∀ host uri, m.automations ⟨host, uri⟩ =
    (m.automationCatalogs host).bind fun catalog =>
      catalog.entries.reverse.find? fun a => a.resource = uri

theorem foldl_update_automations (map : HostedResourceKey → Option AutomationEntry)
    (host : HostId) (entries : List AutomationEntry) (host' : HostId) (uri : URI) :
    (entries.foldl (fun map a => update map ⟨host, a.resource⟩ (some a)) map :
        HostedResourceKey → Option AutomationEntry) ⟨host', uri⟩ =
      if host' = host then (entries.reverse.find? fun a => a.resource = uri).or (map ⟨host', uri⟩)
      else map ⟨host', uri⟩ := by
  have hwrite : ∀ (map : HostedResourceKey → Option AutomationEntry) (a : AutomationEntry),
      update map ⟨host, a.resource⟩ (some a) ⟨host', uri⟩ =
        if decide (host' = host ∧ a.resource = uri) then some a else map ⟨host', uri⟩ := by
    intro map a
    have hkey : (⟨host', uri⟩ : HostedResourceKey) = ⟨host, a.resource⟩ ↔
        host' = host ∧ a.resource = uri := by
      rw [HostedResourceKey.mk.injEq, @eq_comm _ uri]
    simp only [update_apply, hkey, decide_eq_true_eq]
  rw [foldl_writes (fun map : HostedResourceKey → Option AutomationEntry => map ⟨host', uri⟩) hwrite]
  by_cases hhost : host' = host
  · simp [hhost]
  · have hnone : (entries.reverse.find? fun a => host' = host ∧ a.resource = uri) = none := by
      rw [List.find?_eq_none]
      simp [hhost]
    rw [hnone, if_neg hhost]
    rfl

theorem automations_replaceAutomations (m : MultiHostStateMirror U) (host host' : HostId)
    (entries : List AutomationEntry) (uri : URI) :
    (m.replaceAutomations host entries).automations ⟨host', uri⟩ =
      if host' = host then entries.reverse.find? fun a => a.resource = uri
      else m.automations ⟨host', uri⟩ := by
  simp only [replaceAutomations, foldl_update_automations, retainOthers]
  by_cases hhost : host' = host <;> simp [hhost]

theorem AutomationsMatch.put {m : MultiHostStateMirror U} (h : AutomationsMatch m) (k : Kind)
    (key : HostedResourceKey) (s : k.State U) : AutomationsMatch (m.put k key s) := by
  cases k with
  | automations =>
    intro host uri
    simp only [MultiHostStateMirror.put]
    rw [automations_replaceAutomations]
    by_cases hhost : host = key.hostId
    · simp [replaceAutomations, hhost]
    · simp [replaceAutomations, hhost, h host uri]
  | _ => exact h

theorem AutomationsMatch.step [RawId U] {m : MultiHostStateMirror U} (h : AutomationsMatch m)
    (jiff : Jiff) (i : Input U) : AutomationsMatch (m.step jiff i) := by
  have henvelope (host : HostId) (e : ActionEnvelope U) :
      AutomationsMatch (m.applyEnvelope jiff host e) := by
    rcases applyEnvelope_cases jiff m host e with ⟨heq, -⟩ | ⟨k, s, -, -, heq⟩
    · rw [heq]
      exact h
    · rw [heq]
      exact h.put k _ _
  cases i with
  | snapshot host s =>
    by_cases hall : ∀ k, s.state.as? k = none
    · simp only [MultiHostStateMirror.step, applySnapshot_of_none hall]
      exact h
    · obtain ⟨k, hk⟩ := not_forall.mp hall
      obtain ⟨seed, hseed⟩ := Option.ne_none_iff_exists'.mp hk
      simp only [MultiHostStateMirror.step, applySnapshot_of_some hseed]
      exact h.put k _ _
  | envelope host e => exact henvelope host e
  | event e =>
    obtain ⟨hostId, event⟩ := e
    cases event with
    | action sent => exact henvelope hostId sent
    | _ => exact h
  | resetHost host =>
    intro host' uri
    have h' := h host' uri
    simp only [MultiHostStateMirror.step, resetHost, retainOthers]
    by_cases hhost : host' = host
    · simp [hhost]
    · simp [hhost, h']
  | reset => exact fun _ _ => rfl

theorem automationsMatch_run [RawId U] (jiff : Jiff) (inputs : List (Input U)) :
    AutomationsMatch (run jiff inputs) := by
  induction inputs using List.reverseRecOn with
  | nil => exact fun _ _ => rfl
  | append_singleton inputs i ih =>
    rw [run_concat]
    exact ih.step jiff i

/-! ### Whole runs -/

/-- **Every resource follows its channel** in every state of a run exactly if no envelope of
the run is lost; the automations match the catalogues in any case. -/
theorem resources_follow_channels [RawId U] (jiff : Jiff) (inputs : List (Input U)) :
    ((∀ done, done <+: inputs → Follows jiff done) ↔
        Guarded (fun m i => some (step jiff m i)) (Heard jiff) new inputs) ∧
      ∀ done, done <+: inputs → AutomationsMatch (run jiff done) := by
  refine ⟨?_, fun done _ => automationsMatch_run jiff done⟩
  induction inputs using List.reverseRecOn with
  | nil =>
    refine ⟨fun _ => trivial, fun _ done hdone => ?_⟩
    rw [List.prefix_nil.mp hdone, follows_iff_register]
    intro k key s hs
    cases hs
  | append_singleton inputs i ih =>
    have hrun : ∀ u, runs (fun m i => some (step jiff m i)) new inputs = some u ↔
        run jiff inputs = u := by
      intro u
      rw [runs_total]
      exact Option.some_inj
    rw [guarded_concat, ← ih]
    simp only [hrun, forall_eq']
    constructor
    · intro h
      have hinputs : ∀ done, done <+: inputs → Follows jiff done := fun done hdone =>
        h done (hdone.trans (List.prefix_append inputs [i]))
      exact ⟨hinputs, (follows_concat jiff (hinputs inputs List.prefix_rfl) i).mp
        (h _ List.prefix_rfl)⟩
    · rintro ⟨hinputs, hheard⟩ done hdone
      rcases List.prefix_concat_iff.mp hdone with rfl | hdone
      · exact (follows_concat jiff (hinputs inputs List.prefix_rfl) i).mpr hheard
      · exact hinputs done hdone

/-- A changeset with one file. -/
def oneFile : ChangesetState (Record String) where
  status := .ready
  error := none
  files := [⟨"f", ⟨"edit"⟩, none, none, none, none⟩]
  operations := none

/-- A changeset that is cleared after its snapshot keeps its file. -/
theorem frozen_changeset :
    ¬ Follows Jiff.counting
      [.snapshot "h" ⟨"ahp-changeset:/c", .changeset oneFile⟩,
        .envelope "h" ⟨"ahp-changeset:/c", .changeset .cleared⟩] := by
  intro h
  have hstored := h .changeset ⟨"h", "ahp-changeset:/c"⟩ []
    (.snapshot "h" ⟨"ahp-changeset:/c", .changeset oneFile⟩)
    [.envelope "h" ⟨"ahp-changeset:/c", .changeset .cleared⟩] oneFile rfl rfl (by decide)
  have hfiles := congrArg (Option.map ChangesetState.files) hstored
  revert hfiles
  decide

end AgentHostProtocol.Rust.MultiHostStateMirror
