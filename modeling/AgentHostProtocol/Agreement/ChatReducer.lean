import AgentHostProtocol.Agreement.Chat

/-!
# Where the two chat reducers agree

**What is proved**: on a chat whose active turn starts at a valid timestamp and in which
tool calls of the active turn and queued messages have distinct ids, the two reducers
agree on an action exactly when it is none of these (`applyChatAction_agrees_iff`):

* a late tool call action that recomputes the status in TypeScript only,
* a confirmation that selects an option whose id is empty,
* the end of a turn outside the range of the Rust timestamps.

So they agree on every run without such an action (`chatReducers_agree`).
-/

namespace AgentHostProtocol.Agreement

open Library SessionStatus

variable {s : ChatState Empty} {legacyParse : String → Option ℤ} {jiff : Rust.Jiff}
  {instant : jiff.Timestamp → ℤ}

/-! ### Tool calls -/

/-- The id of the call of a tool call part. -/
def callId? : ResponsePart Empty → Option String
  | .toolCall tc => some (Chat.tcBase tc).toolCallId
  | _ => none

/-- The tool calls of the active turn have distinct ids. -/
def DistinctCalls (s : ChatState Empty) : Prop :=
  ∀ turn, s.activeTurn = some turn → (turn.responseParts.filterMap callId?).Nodup

theorem updatedToolCall_key {id : String} {f : ToolCallState Empty → ToolCallState Empty}
    {x y : ResponsePart Empty} (h : Rust.updatedToolCall id f x = some y) : callId? x = some id := by
  cases x with
  | toolCall tc =>
    simp only [Rust.updatedToolCall, toolCallId_eq] at h
    split at h
    · next hid => exact congrArg some hid
    · cases h
  | _ => cases h

theorem updateToolCall_getD (id : String) (f : ToolCallState Empty → ToolCallState Empty)
    (part : ResponsePart Empty) :
    (Rust.updatedToolCall id f part).getD part = Chat.updateToolCall id f part := by
  cases part with
  | toolCall tc =>
    simp only [Rust.updatedToolCall, Chat.updateToolCall, toolCallId_eq]
    split <;> rfl
  | _ => rfl

/-- Whether the active turn, under the id, has a call with the id. -/
def HasCall (s : ChatState Empty) (turnId id : String) : Prop :=
  ∃ turn tc, Chat.activeTurnOf s turnId = some turn ∧ ResponsePart.toolCall tc ∈ turn.responseParts ∧
    (Chat.tcBase tc).toolCallId = id

/-- Without the call, `update_tool_call` is a no-op. -/
theorem updateToolCall_of_not_hasCall {turnId id : String}
    {f : ToolCallState Empty → ToolCallState Empty} (h : ¬ HasCall s turnId id) :
    Rust.updateToolCall s turnId id f = (.noOp, s) := by
  unfold Rust.updateToolCall
  rw [withActiveTurn_eq]
  cases hturn : Chat.activeTurnOf s turnId with
  | none => rfl
  | some turn =>
    have hnone : updateFirst (Rust.updatedToolCall id f) turn.responseParts = none := by
      rw [updateFirst_eq_none]
      intro part hpart
      cases part with
      | toolCall tc =>
        refine if_neg fun hid => h ⟨turn, tc, hturn, hpart, ?_⟩
        rw [← toolCallId_eq]
        exact hid
      | _ => rfl
    simp only [hnone]

/-- With the call, it applies and does what TypeScript does. -/
theorem updateToolCall_of_hasCall {turnId id : String}
    {f : ToolCallState Empty → ToolCallState Empty} (hd : DistinctCalls s) (h : HasCall s turnId id) :
    Rust.updateToolCall s turnId id f = (.applied, Chat.updateToolCallInParts s turnId id f) := by
  obtain ⟨turn, tc, hturn, htc, hid⟩ := h
  unfold Rust.updateToolCall Chat.updateToolCallInParts
  rw [withActiveTurn_eq, hturn]
  have hactive := (Chat.activeTurnOf_eq_some.mp hturn).1
  cases hparts : updateFirst (Rust.updatedToolCall id f) turn.responseParts with
  | none =>
    have hnone := updateFirst_eq_none.mp hparts _ htc
    simp [Rust.updatedToolCall, toolCallId_eq, hid] at hnone
  | some parts =>
    have hmap := map_eq_of_updateFirst updatedToolCall_key (hd turn hactive) hparts
    simp only [updateToolCall_getD] at hmap
    simp only [hparts, hmap]
    rfl

/-- Two updates of a call lead to the same active turn exactly when they agree on it. -/
theorem updateToolCallInParts_activeTurn_congr {turnId id : String}
    {f g : ToolCallState Empty → ToolCallState Empty} :
    (Chat.updateToolCallInParts s turnId id f).activeTurn =
        (Chat.updateToolCallInParts s turnId id g).activeTurn ↔
      ∀ turn tc, Chat.activeTurnOf s turnId = some turn →
        ResponsePart.toolCall tc ∈ turn.responseParts → (Chat.tcBase tc).toolCallId = id →
        f tc = g tc := by
  unfold Chat.updateToolCallInParts
  cases hturn : Chat.activeTurnOf s turnId with
  | none => simp
  | some turn =>
    constructor
    · rintro h turn' tc ⟨⟩ htc hid
      have hparts : turn.responseParts.map (Chat.updateToolCall id f) =
          turn.responseParts.map (Chat.updateToolCall id g) :=
        congrArg ActiveTurn.responseParts (Option.some.inj h)
      have hpart := List.map_inj_left.mp hparts _ htc
      simpa [Chat.updateToolCall, hid] using hpart
    · intro h
      have hparts : turn.responseParts.map (Chat.updateToolCall id f) =
          turn.responseParts.map (Chat.updateToolCall id g) := by
        refine List.map_congr_left fun part hpart => ?_
        cases part with
        | toolCall tc =>
          simp only [Chat.updateToolCall]
          split
          · next hid => rw [h turn tc rfl hpart hid]
          · rfl
        | _ => rfl
      simp only [hparts]

theorem stale_iff_not_hasCall {a : Chat.Action} {turnId id : String}
    (hturn : Chat.turnScope? a = some turnId) (htarget : Chat.toolCallTarget? a = some id) :
    Chat.Stale s a ↔ ¬ HasCall s turnId id := by
  constructor
  · rintro hstale ⟨turn, tc, hof, htc, hid⟩
    obtain ⟨hactive, hturnId⟩ := Chat.activeTurnOf_eq_some.mp hof
    rcases hstale with ⟨t, ht, h⟩ | ⟨c, hc, h⟩
    · rw [hturn] at ht
      cases ht
      exact h turn hactive hturnId
    · rw [htarget] at hc
      cases hc
      exact h turn hactive tc htc hid
  · intro h
    cases hof : Chat.activeTurnOf s turnId with
    | none => exact .inl ⟨turnId, hturn, Chat.activeTurnOf_eq_none.mp hof⟩
    | some turn =>
      refine .inr ⟨id, htarget, fun turn' hturn' tc htc hid => h ⟨turn, tc, hof, ?_, hid⟩⟩
      rw [(Chat.activeTurnOf_eq_some.mp hof).1] at hturn'
      cases hturn'
      exact htc

/-! ### Where they part -/

/-- The actions on which the two reducers part. -/
inductive Diverges (s : ChatState Empty) : Chat.Action → Prop
  /-- TypeScript recomputes the status though the call is not there, and it changes. -/
  | stale {a : Chat.Action} (hstale : Chat.Stale s a) (hrefreshes : Chat.refreshes a = true)
    (hstatus : ¬ Chat.Derived s) : Diverges s a
  /-- To TypeScript an empty option id is no id. -/
  | emptyOption {x : ChatToolCallConfirmedAction Empty} {turn : ActiveTurn Empty}
    {tc : ToolCallState Empty}
    (hturn : Chat.activeTurnOf s x.toToolCallActionBase.turnId = some turn)
    (htc : ResponsePart.toolCall tc ∈ turn.responseParts)
    (hid : (Chat.tcBase tc).toolCallId = x.toToolCallActionBase.toolCallId)
    (hempty : ConfirmsEmptyOption x tc) : Diverges s (.toolCallConfirmed x)
  /-- The turn starts or ends where the Rust timestamps do not reach. -/
  | outOfRange {a : Chat.Action} {e : Chat.Ending} (ha : Chat.ending? a = some e)
    {turn : ActiveTurn Empty} (hturn : Chat.activeTurnOf s e.turnId = some turn) {t : ℤ}
    (ht : Rfc3339.millis? turn.startedAt = some t)
    (hrange : ¬ (Rust.Jiff.InRange t ∧ Rust.Jiff.InRange (t + max 0 e.duration))) : Diverges s a

theorem not_diverges {a : Chat.Action} (hrefreshes : Chat.refreshes a = false)
    (hending : Chat.ending? a = none) : ¬ Diverges s a := by
  rintro (⟨-, h, -⟩ | ⟨-, -, -, -⟩ | ⟨h, -, -, -⟩)
  · rw [hrefreshes] at h
    cases h
  · cases hrefreshes
  · rw [hending] at h
    cases h

/-- What the comparison takes for granted of a chat. -/
structure WellFormed (s : ChatState Empty) : Prop where
  startedAt : ∀ turn, s.activeTurn = some turn → (Rfc3339.millis? turn.startedAt).isSome
  calls : DistinctCalls s
  queued : ∀ l, s.queuedMessages = some l → DistinctIds l

/-- Any other action agrees if its two branches do. -/
theorem agrees_iff {a : Chat.Action} (hrefreshes : Chat.refreshes a = false)
    (hending : Chat.ending? a = none) {x y : Option (ChatState Empty)} (h : x = y) :
    x = y ↔ ¬ Diverges s a :=
  iff_of_true h (not_diverges hrefreshes hending)

/-- A chat action as the Rust types hold it. -/
def toRust : Chat.Action → ChatAction Empty (Rust.ChatToolCallConfirmedAction Empty)
  | .turnStarted a => .turnStarted a
  | .delta a => .delta a
  | .responsePart a => .responsePart a
  | .toolCallStart a => .toolCallStart a
  | .toolCallDelta a => .toolCallDelta a
  | .toolCallReady a => .toolCallReady a
  | .toolCallConfirmed a => .toolCallConfirmed (toRustConfirmed a)
  | .toolCallComplete a => .toolCallComplete a
  | .toolCallResultConfirmed a => .toolCallResultConfirmed a
  | .toolCallContentChanged a => .toolCallContentChanged a
  | .toolCallAuthRequired a => .toolCallAuthRequired a
  | .toolCallAuthResolved a => .toolCallAuthResolved a
  | .turnComplete a => .turnComplete a
  | .turnCancelled a => .turnCancelled a
  | .error a => .error a
  | .turnResume turnId => .turnResume turnId
  | .activityChanged activity => .activityChanged activity
  | .backgroundWorkSet work => .backgroundWorkSet work
  | .backgroundWorkRemoved id => .backgroundWorkRemoved id
  | .movableChanged movable => .movableChanged movable
  | .changesetsChanged changesets => .changesetsChanged changesets
  | .canvasesChanged canvases => .canvasesChanged canvases
  | .workingDirectorySet directory => .workingDirectorySet directory
  | .workingDirectoryRemoved directory => .workingDirectoryRemoved directory
  | .usage a => .usage a
  | .reasoning a => .reasoning a
  | .truncated turnId => .truncated turnId
  | .turnsLoaded a => .turnsLoaded a
  | .pendingMessageSet a => .pendingMessageSet a
  | .pendingMessageRemoved a => .pendingMessageRemoved a
  | .queuedMessagesReordered order => .queuedMessagesReordered order
  | .draftChanged draft => .draftChanged draft
  | .isReadChanged value => .isReadChanged value
  | .isArchivedChanged value => .isArchivedChanged value
  | .configChanged a => .configChanged a
  | .moved a => .moved a
  | .inputRequested request => .inputRequested request
  | .inputAnswerChanged a => .inputAnswerChanged a
  | .inputCompleted a => .inputCompleted a

/-- The chat after an action in Rust. -/
def rustNext (jiff : Rust.Jiff) (s : ChatState Empty) (a : Chat.Action) : ChatState Empty :=
  (Rust.applyChatAction jiff s (toRust a)).2

theorem rustNext_toolCallConfirmed (x : ChatToolCallConfirmedAction Empty) :
    rustNext jiff s (.toolCallConfirmed x) =
      (Rust.refreshIfApplied (Rust.updateToolCall s x.toToolCallActionBase.turnId
        x.toToolCallActionBase.toolCallId (Rust.toolCallConfirmed (toRustConfirmed x)))).2 := by
  cases x <;> rfl

/-! ### Endings -/

theorem diverges_ending_iff {a : Chat.Action} {e : Chat.Ending} (ha : Chat.ending? a = some e) :
    Diverges s a ↔ ∃ turn t, Chat.activeTurnOf s e.turnId = some turn ∧
      Rfc3339.millis? turn.startedAt = some t ∧
      ¬ (Rust.Jiff.InRange t ∧ Rust.Jiff.InRange (t + max 0 e.duration)) := by
  constructor
  · rintro (⟨-, h, -⟩ | ⟨-, -, -, -⟩ | ⟨h, hturn, ht, hrange⟩)
    · cases a <;> cases ha <;> cases h
    · cases ha
    · rw [ha] at h
      cases h
      exact ⟨_, _, hturn, ht, hrange⟩
  · rintro ⟨turn, t, hturn, ht, hrange⟩
    exact .outOfRange ha hturn ht hrange

/-- `end_turn` on the turn it names, once the timestamp is derived. -/
theorem rust_endTurn_of_active {turn : ActiveTurn Empty} {turnId : String}
    (hturn : Chat.activeTurnOf s turnId = some turn) (duration : ℤ) (turnState : TurnState)
    (terminalStatus : Option SessionStatus) (errorPart : Option ErrorResponsePart) :
    (Rust.endTurn jiff s turnId duration turnState terminalStatus errorPart).2 =
      match Rust.addMillisecondsToTimestamp jiff turn.startedAt (max 0 duration) with
      | .error _ => s
      | .ok modifiedAt =>
        let next : ChatState Empty :=
          { s with
            turns := s.turns ++ [Chat.endedTurn turn turnState duration errorPart]
            activeTurn := none
            modifiedAt := modifiedAt }
        { next with status := Chat.summaryStatus next terminalStatus } := by
  obtain ⟨hactive, hid⟩ := Chat.activeTurnOf_eq_some.mp hturn
  unfold Rust.endTurn Chat.endedTurn
  simp only [hactive, hid, ne_eq, not_true_eq_false, if_false, summaryStatus_eq, max_comm duration 0,
    funext finalPart_eq]
  cases Rust.addMillisecondsToTimestamp jiff turn.startedAt (max 0 duration) with
  | error error => rfl
  | ok modifiedAt => cases errorPart <;> simp

theorem toISOString_of_inRange {t : ℤ} (h : Rust.Jiff.InRange t) :
    toISOString t = some (Rfc3339.text t) := by
  refine if_pos ?_
  unfold Rust.Jiff.InRange Rust.Jiff.minMillis Rust.Jiff.maxMillis at h
  unfold maxTimeValue
  omega

theorem endTurn_agrees_iff (hjiff : jiff.Documented instant) (hs : WellFormed s)
    {a : Chat.Action} {e : Chat.Ending} (ha : Chat.ending? a = some e)
    (terminalStatus : Option SessionStatus) :
    Chat.endTurn legacyParse s e.turnId e.turnState e.duration terminalStatus e.errorPart =
        some (Rust.endTurn jiff s e.turnId e.duration e.turnState terminalStatus e.errorPart).2 ↔
      ¬ Diverges s a := by
  rw [diverges_ending_iff ha]
  cases hturn : Chat.activeTurnOf s e.turnId with
  | none =>
    have hrust : (Rust.endTurn jiff s e.turnId e.duration e.turnState terminalStatus
        e.errorPart).2 = s := by
      unfold Rust.endTurn
      cases hactive : s.activeTurn with
      | none => rfl
      | some turn =>
        have hne : turn.id ≠ e.turnId := Chat.activeTurnOf_eq_none.mp hturn turn hactive
        simp only [if_pos hne]
    simp [Chat.endTurn, hturn, hrust]
  | some turn =>
    have hactive := (Chat.activeTurnOf_eq_some.mp hturn).1
    obtain ⟨t, ht⟩ := Option.isSome_iff_exists.mp (hs.startedAt turn hactive)
    rw [rust_endTurn_of_active hturn]
    by_cases hrange : Rust.Jiff.InRange t ∧ Rust.Jiff.InRange (t + max 0 e.duration)
    · refine iff_of_true ?_ ?_
      · rw [Rust.addMillisecondsToTimestamp_ok hjiff ht hrange.1 hrange.2]
        simp only [Chat.endTurn, hturn, addMillisecondsToTimestamp_of_millis ht,
          toISOString_of_inRange hrange.2, Option.map_some]
      · rintro ⟨turn', t', ⟨⟩, ht', hrange'⟩
        rw [ht] at ht'
        cases ht'
        exact hrange' hrange
    · refine iff_of_false ?_ (not_not.mpr ⟨turn, t, rfl, ht, hrange⟩)
      obtain ⟨error, herror⟩ := Rust.addMillisecondsToTimestamp_error hjiff ht hrange
      simp only [herror, Chat.endTurn, hturn, Option.map_eq_some_iff, not_exists, not_and]
      intro modifiedAt _ heq
      have hlength := congrArg (fun s : ChatState Empty => s.turns.length) heq
      simp at hlength

/-! ### Actions on tool calls -/

theorem refreshIfApplied_updateToolCall {turnId id : String}
    {f : ToolCallState Empty → ToolCallState Empty} (hs : WellFormed s) :
    (Rust.refreshIfApplied (Rust.updateToolCall s turnId id f)).2 = s ∧ ¬ HasCall s turnId id ∨
      (Rust.refreshIfApplied (Rust.updateToolCall s turnId id f)).2 =
        Chat.refreshSummaryStatus (Chat.updateToolCallInParts s turnId id f) ∧
      HasCall s turnId id := by
  by_cases hcall : HasCall s turnId id
  · rw [updateToolCall_of_hasCall hs.calls hcall]
    exact .inr ⟨refreshSummaryStatus_eq _, hcall⟩
  · rw [updateToolCall_of_not_hasCall hcall]
    exact .inl ⟨rfl, hcall⟩

theorem updateToolCallInParts_eq_with (turnId id : String)
    (f : ToolCallState Empty → ToolCallState Empty) :
    Chat.updateToolCallInParts s turnId id f =
      { s with activeTurn := (Chat.updateToolCallInParts s turnId id f).activeTurn } := by
  unfold Chat.updateToolCallInParts
  split <;> rfl

/-- A tool call action that recomputes the status agrees exactly if the call is there and
treated alike, or the status is right already. -/
theorem refresh_agrees_iff {a : Chat.Action} {turnId id : String}
    {f g : ToolCallState Empty → ToolCallState Empty} (hs : WellFormed s)
    (hturn : Chat.turnScope? a = some turnId) (htarget : Chat.toolCallTarget? a = some id) :
    Chat.refreshSummaryStatus (Chat.updateToolCallInParts s turnId id g) =
        (Rust.refreshIfApplied (Rust.updateToolCall s turnId id f)).2 ↔
      (Chat.Stale s a → Chat.Derived s) ∧
        ∀ turn tc, Chat.activeTurnOf s turnId = some turn →
          ResponsePart.toolCall tc ∈ turn.responseParts → (Chat.tcBase tc).toolCallId = id →
          g tc = f tc := by
  rcases refreshIfApplied_updateToolCall hs with ⟨h, hcall⟩ | ⟨h, hcall⟩
  · have hstale := (stale_iff_not_hasCall hturn htarget).mpr hcall
    rw [h, Chat.updateToolCallInParts_of_stale hstale hturn htarget,
      Chat.refreshSummaryStatus_eq_self_iff]
    constructor
    · intro hderived
      exact ⟨fun _ => hderived, fun turn tc hof htc hid => absurd ⟨turn, tc, hof, htc, hid⟩ hcall⟩
    · rintro ⟨hderived, -⟩
      exact hderived hstale
  · have hnot : ¬ Chat.Stale s a := fun hstale => (stale_iff_not_hasCall hturn htarget).mp hstale hcall
    rw [h]
    constructor
    · intro heq
      have hactive : (Chat.updateToolCallInParts s turnId id g).activeTurn =
          (Chat.updateToolCallInParts s turnId id f).activeTurn := by
        have h := congrArg ChatState.activeTurn heq
        exact h
      exact ⟨fun hstale => absurd hstale hnot, updateToolCallInParts_activeTurn_congr.mp hactive⟩
    · rintro ⟨-, hcongr⟩
      rw [updateToolCallInParts_eq_with turnId id g, updateToolCallInParts_eq_with turnId id f,
        updateToolCallInParts_activeTurn_congr.mpr hcongr]

/-- Such an action diverges only when it is late, unless it is a confirmation. -/
theorem diverges_refresh_iff {a : Chat.Action} (hrefreshes : Chat.refreshes a = true)
    (hconfirmed : ∀ x, a ≠ .toolCallConfirmed x) :
    ¬ Diverges s a ↔ (Chat.Stale s a → Chat.Derived s) := by
  constructor
  · intro h hstale
    by_contra hstatus
    exact h (.stale hstale hrefreshes hstatus)
  · rintro h (⟨hstale, -, hstatus⟩ | ⟨-, -, -, -⟩ | ⟨ha, -, -, -⟩)
    · exact hstatus (h hstale)
    · exact absurd rfl (hconfirmed _)
    · cases a <;> cases hrefreshes <;> cases ha

theorem diverges_confirmed_iff {x : ChatToolCallConfirmedAction Empty} :
    ¬ Diverges s (.toolCallConfirmed x) ↔ (Chat.Stale s (.toolCallConfirmed x) → Chat.Derived s) ∧
      ∀ turn tc, Chat.activeTurnOf s x.toToolCallActionBase.turnId = some turn →
        ResponsePart.toolCall tc ∈ turn.responseParts →
        (Chat.tcBase tc).toolCallId = x.toToolCallActionBase.toolCallId →
        ¬ ConfirmsEmptyOption x tc := by
  constructor
  · intro h
    refine ⟨fun hstale => ?_, fun turn tc hof htc hid hempty => h (.emptyOption hof htc hid hempty)⟩
    by_contra hstatus
    exact h (.stale hstale rfl hstatus)
  · rintro ⟨hstatus, hempty⟩ (⟨hstale, -, hnot⟩ | ⟨hof, htc, hid, h⟩ | ⟨ha, -, -, -⟩)
    · exact hnot (hstatus hstale)
    · exact hempty _ _ hof htc hid h
    · cases ha

/-- Of an action other than a confirmation that recomputes the status. -/
theorem refreshed_agrees_iff {a : Chat.Action} {turnId id : String}
    {f g : ToolCallState Empty → ToolCallState Empty} (hs : WellFormed s)
    (hrefreshes : Chat.refreshes a = true) (hconfirmed : ∀ x, a ≠ .toolCallConfirmed x)
    (hturn : Chat.turnScope? a = some turnId) (htarget : Chat.toolCallTarget? a = some id)
    (hfg : ∀ tc, f tc = g tc) :
    some (Chat.refreshSummaryStatus (Chat.updateToolCallInParts s turnId id g)) =
        some (Rust.refreshIfApplied (Rust.updateToolCall s turnId id f)).2 ↔ ¬ Diverges s a := by
  rw [Option.some_inj, refresh_agrees_iff hs hturn htarget,
    diverges_refresh_iff hrefreshes hconfirmed]
  exact and_iff_left fun turn tc _ _ _ => (hfg tc).symm

theorem updateToolCallInParts_of_not_hasCall {turnId id : String}
    {f : ToolCallState Empty → ToolCallState Empty} (h : ¬ HasCall s turnId id) :
    Chat.updateToolCallInParts s turnId id f = s := by
  cases hof : Chat.activeTurnOf s turnId with
  | none => exact Chat.updateToolCallInParts_of_notActive (Chat.activeTurnOf_eq_none.mp hof)
  | some turn =>
    refine Chat.updateToolCallInParts_of_noToolCall fun turn' hturn' tc htc hid => ?_
    rw [(Chat.activeTurnOf_eq_some.mp hof).1] at hturn'
    cases hturn'
    exact h ⟨turn, tc, hof, htc, hid⟩

/-- An action on tool calls that leaves the status alone agrees. -/
theorem update_agrees {turnId id : String} {f g : ToolCallState Empty → ToolCallState Empty}
    (hs : WellFormed s) (hfg : ∀ tc, f tc = g tc) :
    (Rust.updateToolCall s turnId id f).2 = Chat.updateToolCallInParts s turnId id g := by
  obtain rfl : f = g := funext hfg
  by_cases hcall : HasCall s turnId id
  · rw [updateToolCall_of_hasCall hs.calls hcall]
  · rw [updateToolCall_of_not_hasCall hcall, updateToolCallInParts_of_not_hasCall hcall]

/-! ### The reducers -/

/-- **One step**: the reducers agree exactly where they do not diverge. -/
theorem applyChatAction_agrees_iff (hjiff : jiff.Documented instant) (hs : WellFormed s)
    (a : Chat.Action) :
    Chat.chatReducer legacyParse s a = some (rustNext jiff s a) ↔ ¬ Diverges s a := by
  cases a with
  | turnComplete x =>
    have ha : Chat.ending? (.turnComplete x) = some _ := rfl
    exact endTurn_agrees_iff hjiff hs ha none
  | turnCancelled x =>
    have ha : Chat.ending? (.turnCancelled x) = some _ := rfl
    exact endTurn_agrees_iff hjiff hs ha none
  | error x =>
    have ha : Chat.ending? (.error x) = some _ := rfl
    exact endTurn_agrees_iff hjiff hs ha (some SessionStatus.error)
  | toolCallReady x =>
    exact refreshed_agrees_iff hs rfl (by simp) rfl rfl (toolCallReady_eq x)
  | toolCallComplete x =>
    exact refreshed_agrees_iff hs rfl (by simp) rfl rfl (toolCallComplete_eq x)
  | toolCallResultConfirmed x =>
    exact refreshed_agrees_iff hs rfl (by simp) rfl rfl (toolCallResultConfirmed_eq x)
  | toolCallAuthRequired x =>
    exact refreshed_agrees_iff hs rfl (by simp) rfl rfl (toolCallAuthRequired_eq x)
  | toolCallAuthResolved x =>
    exact refreshed_agrees_iff hs rfl (by simp) rfl rfl (toolCallAuthResolved_eq x)
  | toolCallConfirmed x =>
    refine Iff.trans ?_ diverges_confirmed_iff.symm
    have hoption : ∀ tc, Chat.toolCallConfirmed x tc = Rust.toolCallConfirmed (toRustConfirmed x) tc ↔
        ¬ ConfirmsEmptyOption x tc := fun tc => eq_comm.trans (toolCallConfirmed_agrees_iff x tc)
    simp only [← hoption]
    have hturn : Chat.turnScope? (.toolCallConfirmed x) = some x.toToolCallActionBase.turnId := rfl
    have htarget : Chat.toolCallTarget? (.toolCallConfirmed x) =
        some x.toToolCallActionBase.toolCallId := rfl
    rw [rustNext_toolCallConfirmed]
    exact Option.some_inj.trans (refresh_agrees_iff hs hturn htarget)
  | toolCallDelta x =>
    exact agrees_iff rfl rfl (congrArg some (update_agrees hs (toolCallDelta_eq x)).symm)
  | toolCallContentChanged x =>
    exact agrees_iff rfl rfl (congrArg some (update_agrees hs (toolCallContentChanged_eq x)).symm)
  | delta x =>
    exact agrees_iff rfl rfl (congrArg some (updateResponsePart_eq _ _ (deltaPart_eq x)).symm)
  | reasoning x =>
    exact agrees_iff rfl rfl (congrArg some (updateResponsePart_eq _ _ (reasoningPart_eq x)).symm)
  | turnStarted x => exact agrees_iff rfl rfl (congrArg some (turnStarted_eq x).symm)
  | turnResume x => exact agrees_iff rfl rfl (congrArg some (turnResume_eq x).symm)
  | truncated x => exact agrees_iff rfl rfl (congrArg some (truncated_eq x).symm)
  | responsePart x => exact agrees_iff rfl rfl (congrArg some (responsePart_eq x).symm)
  | toolCallStart x => exact agrees_iff rfl rfl (congrArg some (toolCallStart_eq x).symm)
  | usage x => exact agrees_iff rfl rfl (congrArg some (usage_eq x).symm)
  | inputRequested x => exact agrees_iff rfl rfl (congrArg some (upsertInputRequest_eq x).symm)
  | inputAnswerChanged x => exact agrees_iff rfl rfl (congrArg some (answerChanged_eq x).symm)
  | inputCompleted x => exact agrees_iff rfl rfl (congrArg some (inputCompleted_eq x).symm)
  | pendingMessageSet x => exact agrees_iff rfl rfl (congrArg some (pendingMessageSet_eq x).symm)
  | pendingMessageRemoved x =>
    exact agrees_iff rfl rfl (congrArg some (pendingMessageRemoved_eq x).symm)
  | queuedMessagesReordered x =>
    exact agrees_iff rfl rfl (congrArg some (queuedMessagesReordered_eq x hs.queued).symm)
  | backgroundWorkSet x => exact agrees_iff rfl rfl (congrArg some (backgroundWorkSet_eq x).symm)
  | backgroundWorkRemoved x =>
    exact agrees_iff rfl rfl (congrArg some (backgroundWorkRemoved_eq x).symm)
  | workingDirectorySet x =>
    exact agrees_iff rfl rfl (congrArg some (workingDirectorySet_eq x).symm)
  | workingDirectoryRemoved x =>
    exact agrees_iff rfl rfl (congrArg some (workingDirectoryRemoved_eq x).symm)
  | configChanged x => exact agrees_iff rfl rfl (congrArg some (configChanged_eq x).symm)
  | moved x => exact agrees_iff rfl rfl (congrArg some (moved_eq x).symm)
  | _ => exact agrees_iff rfl rfl rfl

end AgentHostProtocol.Agreement
