import AgentHostProtocol.Agreement.GoChat

/-!
# What an action empties

The TypeScript reducer on a chat with nothing empty in it. **What is proved**: after an action
the chat is again so, exactly if the action is not one of `Loses` (`filled_chatReducer_iff`).
They either remove the last working directory or carry something empty into the chat.
-/

namespace AgentHostProtocol.Agreement.GoChat

open Library

variable {s s' : ChatState Empty} {a : Chat.Action}

/-- The call is one that the action names, in the active turn. -/
def Targets (s : ChatState Empty) (a : Chat.Action) (tc : ToolCallState Empty) : Prop :=
  ∃ turnId id turn, Chat.turnScope? a = some turnId ∧ Chat.toolCallTarget? a = some id ∧
    Chat.activeTurnOf s turnId = some turn ∧ ResponsePart.toolCall tc ∈ turn.responseParts ∧
    (Chat.tcBase tc).toolCallId = id

/-- The actions after which a list or an object is there and empty. -/
inductive Loses (s : ChatState Empty) : Chat.Action → Prop
  | workingDirectories {directory : URI} (h : s.workingDirectories = some [directory]) :
    Loses s (.workingDirectoryRemoved directory)
  | changesets : Loses s (.changesetsChanged (some []))
  | canvases : Loses s (.canvasesChanged (some []))
  | responsePart {x : ChatResponsePartAction Empty} {turn : ActiveTurn Empty}
    (hturn : Chat.activeTurnOf s x.turnId = some turn) (hpart : ¬ FilledPart x.part) :
    Loses s (.responsePart x)
  | toolCallStart {x : ChatToolCallStartAction Empty} {turn : ActiveTurn Empty}
    (hturn : Chat.activeTurnOf s x.turnId = some turn) (hmeta : x._meta = some Go.emptyObject) :
    Loses s (.toolCallStart x)
  | toolCall {a : Chat.Action} {tc : ToolCallState Empty} (htc : Targets s a tc)
    (hempties : EmptiesCall a tc) : Loses s a
  | backgroundWork {work : BackgroundWork Empty} (hwork : ¬ FilledWork work) :
    Loses s (.backgroundWorkSet work)
  | turnsLoaded {x : ChatTurnsLoadedAction Empty} {turn : Turn Empty} {part : ResponsePart Empty}
    (hturn : turn ∈ x.turns) (hnew : turn.id ∉ s.turns.map (·.id))
    (hmem : part ∈ turn.responseParts) (hpart : ¬ FilledPart part) : Loses s (.turnsLoaded x)
  | inputRequested {request : ChatInputRequest} {turn : ActiveTurn Empty}
    (hactive : s.activeTurn = some turn) (hrequest : ¬ FilledRequest request) :
    Loses s (.inputRequested request)

/-! ### The active turn -/

theorem Filled.parts (hs : Filled s) {turnId : String} {turn : ActiveTurn Empty}
    (h : Chat.activeTurnOf s turnId = some turn) : ∀ part ∈ turn.responseParts, FilledPart part :=
  hs.activeTurn turn (Chat.activeTurnOf_eq_some.mp h).1

/-- Only the parts of the active turn decide, when nothing else changes. -/
theorem filled_withResponseParts_iff (hs : Filled s) (turn : ActiveTurn Empty)
    (parts : List (ResponsePart Empty)) :
    Filled (Chat.withResponseParts s turn parts) ↔ ∀ part ∈ parts, FilledPart part := by
  constructor
  · intro h
    exact h.activeTurn _ rfl
  · intro h
    refine { hs with activeTurn := ?_ }
    rintro turn' ⟨⟩
    exact h

/-- The status is always written. -/
theorem filled_withStatus_iff (status : SessionStatus) :
    Filled { s with status := status } ↔ Filled s :=
  ⟨fun h => { h with }, fun h => { h with }⟩

theorem filled_refreshSummaryStatus_iff : Filled (Chat.refreshSummaryStatus s) ↔ Filled s :=
  filled_withStatus_iff _

/-- A chat without an active turn. -/
theorem Filled.withoutTurn (hs : Filled s) {turns : List (Turn Empty)}
    (hturns : ∀ turn ∈ turns, ∀ part ∈ turn.responseParts, FilledPart part)
    {turnsNextCursor : Option String} {modifiedAt : String} {status : SessionStatus} :
    Filled
      { s with
        turns := turns
        activeTurn := none
        turnsNextCursor := turnsNextCursor
        modifiedAt := modifiedAt
        status := status } := by
  refine { hs with turns := hturns, activeTurn := ?_ }
  rintro turn ⟨⟩

theorem filledPart_finalPart {part : ResponsePart Empty} (h : FilledPart part) :
    FilledPart (Chat.finalPart part) := by
  cases part with
  | toolCall tc =>
    cases tc with
    | completed v | cancelled v => exact h
    | unknown raw => exact raw.elim
    | _ => exact ⟨h.metadata, trivial⟩
  | _ => exact h

/-- The parts of a turn that has ended. -/
theorem filledPart_of_ended {active : ActiveTurn Empty} {turnState : TurnState} {duration : ℤ}
    {errorPart : Option ErrorResponsePart} (h : ∀ part ∈ active.responseParts, FilledPart part)
    {part : ResponsePart Empty}
    (hpart : part ∈ (Chat.endedTurn active turnState duration errorPart).responseParts) :
    FilledPart part := by
  rcases List.mem_append.mp hpart with hpart | hpart
  · obtain ⟨old, hold, rfl⟩ := List.mem_map.mp hpart
    exact filledPart_finalPart (h old hold)
  · obtain ⟨error, -, rfl⟩ := Option.map_eq_some_iff.mp (Option.mem_toList.mp hpart)
    exact trivial

theorem Filled.turnStarted (hs : Filled s) (x : ChatTurnStartedAction) :
    Filled (Chat.turnStarted s x) := by
  have hstarted : ∀ status : SessionStatus, Filled
      { s with
        activeTurn := some ⟨x.turnId, x.startedAt, x.message, [], none⟩
        status := status
        modifiedAt := x.startedAt } := by
    intro status
    refine { hs with activeTurn := ?_ }
    rintro turn ⟨⟩ part hpart
    cases hpart
  unfold Chat.turnStarted
  cases x.queuedMessageId with
  | none => exact hstarted _
  | some queuedMessageId =>
    have hnext := hstarted s.status
    refine { hnext with queuedMessages := ?_ }
    intro hqueued
    obtain ⟨queued, -, hfiltered⟩ := Option.bind_eq_some_iff.mp hqueued
    by_cases hempty : (queued.filter fun m => m.id ≠ queuedMessageId).isEmpty = true
    · simp only [if_pos hempty] at hfiltered
      cases hfiltered
    · simp only [if_neg hempty] at hfiltered
      rw [Option.some.inj hfiltered] at hempty
      exact hempty rfl

theorem Filled.endTurn (hs : Filled s) {legacyParse : String → Option ℤ} {turnId : String}
    {turnState : TurnState} {duration : ℤ} {terminalStatus : Option SessionStatus}
    {errorPart : Option ErrorResponsePart}
    (h : Chat.endTurn legacyParse s turnId turnState duration terminalStatus errorPart = some s') :
    Filled s' := by
  unfold Chat.endTurn at h
  cases hturn : Chat.activeTurnOf s turnId with
  | none =>
    rw [hturn] at h
    cases h
    exact hs
  | some active =>
    simp only [hturn, Option.map_eq_some_iff] at h
    obtain ⟨modifiedAt, -, rfl⟩ := h
    refine hs.withoutTurn fun turn hmem part hpart => ?_
    rcases List.mem_append.mp hmem with hmem | hmem
    · exact hs.turns turn hmem part hpart
    · rw [List.mem_singleton.mp hmem] at hpart
      exact filledPart_of_ended (hs.parts hturn) hpart

theorem Filled.turnResume (hs : Filled s) (turnId : String) : Filled (Chat.turnResume s turnId) := by
  unfold Chat.turnResume
  split
  · next turn hactive hlast =>
    split
    · refine { hs with turns := ?_, activeTurn := ?_ }
      · intro other hother
        exact hs.turns other (List.mem_of_mem_dropLast hother)
      · rintro resumed ⟨⟩
        exact hs.turns turn (List.mem_of_getLast? hlast)
    · exact hs
  · exact hs

theorem Filled.truncated (hs : Filled s) (turnId : Option String) :
    Filled (Chat.truncated s turnId) := by
  unfold Chat.truncated
  cases hkept : Chat.keptTurns s turnId with
  | none => exact hs
  | some turns =>
    refine filled_refreshSummaryStatus_iff.mpr (hs.withoutTurn fun turn hturn => hs.turns turn ?_)
    cases turnId with
    | none =>
      cases hkept
      cases hturn
    | some id =>
      obtain ⟨idx, -, rfl⟩ := Option.map_eq_some_iff.mp hkept
      exact List.mem_of_mem_take hturn

theorem filled_turnsLoaded_iff (hs : Filled s) (x : ChatTurnsLoadedAction Empty) :
    Filled (Chat.turnsLoaded s x) ↔ ¬ Loses s (.turnsLoaded x) := by
  constructor
  · rintro h (_ | _ | _ | _ | _ | ⟨-, hempties⟩ | _ | ⟨hturn, hnew, hmem, hpart⟩ | _)
    · exact hempties.1.elim
    · refine hpart (h.turns _ (List.mem_append_left _ (List.mem_filter.mpr ⟨hturn, ?_⟩)) _ hmem)
      simpa using hnew
  · intro hloses
    refine { hs with turns := fun turn hturn part hmem => ?_ }
    rcases List.mem_append.mp hturn with hturn | hturn
    · obtain ⟨hturn, hnew⟩ := List.mem_filter.mp hturn
      by_contra hpart
      exact hloses (.turnsLoaded hturn (by simpa using hnew) hmem hpart)
    · exact hs.turns turn hturn part hmem

/-! ### Response parts -/

theorem Filled.updateResponsePart (hs : Filled s) {turnId id : String}
    {f : ResponsePart Empty → ResponsePart Empty} (hf : ∀ part, FilledPart part → FilledPart (f part)) :
    Filled (Chat.updateResponsePart s turnId id f) := by
  unfold Chat.updateResponsePart
  cases hturn : Chat.activeTurnOf s turnId with
  | none => exact hs
  | some turn =>
    simp only
    split
    · exact hs
    · next parts hparts =>
      refine (filled_withResponseParts_iff hs turn parts).mpr ?_
      refine forall_of_updateFirst (hs.parts hturn) (fun part hpart part' hpart' => ?_) hparts
      split at hpart'
      · cases hpart'
        exact hf part (hs.parts hturn part hpart)
      · cases hpart'

theorem filled_appendPart_iff (hs : Filled s) (turnId : String) (part : ResponsePart Empty) :
    Filled (Chat.appendPart s turnId part) ↔
      ∀ turn, Chat.activeTurnOf s turnId = some turn → FilledPart part := by
  unfold Chat.appendPart
  cases hturn : Chat.activeTurnOf s turnId with
  | none => exact iff_of_true hs nofun
  | some turn =>
    rw [filled_withResponseParts_iff hs]
    constructor
    · intro h turn' _
      exact h part (by simp)
    · intro h other hother
      rcases List.mem_append.mp hother with hother | hother
      · exact hs.parts hturn other hother
      · rw [List.mem_singleton.mp hother]
        exact h turn rfl

theorem filled_responsePart_iff (hs : Filled s) (x : ChatResponsePartAction Empty) :
    Filled (Chat.responsePart s x) ↔ ¬ Loses s (.responsePart x) := by
  have hloses : Loses s (.responsePart x) ↔
      ∃ turn, Chat.activeTurnOf s x.turnId = some turn ∧ ¬ FilledPart x.part := by
    constructor
    · rintro (_ | _ | _ | ⟨hturn, hpart⟩ | _ | ⟨-, hempties⟩ | _ | _ | _)
      · exact ⟨_, hturn, hpart⟩
      · exact hempties.1.elim
    · rintro ⟨turn, hturn, hpart⟩
      exact .responsePart hturn hpart
  have happend := filled_appendPart_iff hs x.turnId x.part
  rw [hloses]
  unfold Chat.responsePart
  cases hpart : x.part with
  | error error => exact iff_of_true hs fun ⟨_, _, h⟩ => h trivial
  | _ =>
    rw [hpart] at happend
    rw [happend]
    simp only [not_exists, not_and, not_not]

theorem filled_toolCallStart_iff (hs : Filled s) (x : ChatToolCallStartAction Empty) :
    Filled (Chat.toolCallStart s x) ↔ ¬ Loses s (.toolCallStart x) := by
  have hcall : FilledPart (.toolCall (Chat.startedToolCall x)) ↔ x._meta ≠ some Go.emptyObject :=
    filledCall_iff.trans (and_iff_left trivial)
  unfold Chat.toolCallStart
  rw [filled_appendPart_iff hs, hcall]
  constructor
  · rintro h (_ | _ | _ | _ | ⟨hturn, hmeta⟩ | ⟨-, hempties⟩ | _ | _ | _)
    · exact h _ hturn hmeta
    · exact hempties.1.elim
  · intro h turn hturn hmeta
    exact h (.toolCallStart hturn hmeta)

/-- A call that an action names stays filled exactly if nothing empty is put in, and no other
call changes. -/
theorem filled_updateToolCallInParts_iff (hs : Filled s) {turnId id : String}
    (hturn : Chat.turnScope? a = some turnId) (htarget : Chat.toolCallTarget? a = some id) :
    Filled (Chat.updateToolCallInParts s turnId id (tsUpdate a)) ↔
      ∀ tc, Targets s a tc → ¬ EmptiesCall a tc := by
  unfold Chat.updateToolCallInParts
  cases hof : Chat.activeTurnOf s turnId with
  | none =>
    refine iff_of_true hs ?_
    rintro tc ⟨turnId', id', turn, hturn', -, hof', -⟩
    rw [hturn] at hturn'
    cases hturn'
    rw [hof] at hof'
    cases hof'
  | some turn =>
    rw [filled_withResponseParts_iff hs]
    constructor
    · rintro h tc ⟨turnId', id', turn', hturn', htarget', hof', hmem, hid⟩
      rw [hturn] at hturn'
      cases hturn'
      rw [htarget] at htarget'
      cases htarget'
      rw [hof] at hof'
      cases hof'
      have hpart := h _ (List.mem_map_of_mem hmem)
      simp only [Chat.updateToolCall, hid, if_true] at hpart
      exact (filledCall_tsUpdate_iff (hs.parts hof _ hmem)).mp hpart
    · intro h part hpart
      obtain ⟨old, hold, rfl⟩ := List.mem_map.mp hpart
      have hfilled := hs.parts hof old hold
      cases old with
      | toolCall tc =>
        simp only [Chat.updateToolCall]
        split
        · next hid =>
          exact (filledCall_tsUpdate_iff hfilled).mpr
            (h tc ⟨turnId, id, turn, hturn, htarget, hof, hold, hid⟩)
        · exact hfilled
      | _ => exact hfilled

/-- An action on a call loses something exactly through the call. -/
theorem loses_toolCall_iff {id : String} (htarget : Chat.toolCallTarget? a = some id) :
    Loses s a ↔ ∃ tc, Targets s a tc ∧ EmptiesCall a tc := by
  constructor
  · intro h
    cases h with
    | toolCall htc hempties => exact ⟨_, htc, hempties⟩
    | _ => cases htarget
  · rintro ⟨tc, htc, hempties⟩
    exact .toolCall htc hempties

theorem filled_toolCall_iff (hs : Filled s) {turnId id : String}
    (hturn : Chat.turnScope? a = some turnId) (htarget : Chat.toolCallTarget? a = some id) :
    Filled (Chat.updateToolCallInParts s turnId id (tsUpdate a)) ↔ ¬ Loses s a := by
  rw [filled_updateToolCallInParts_iff hs hturn htarget, loses_toolCall_iff htarget]
  simp only [not_exists, not_and]

theorem Filled.usage (hs : Filled s) (x : ChatUsageAction) : Filled (Chat.usage s x) := by
  unfold Chat.usage
  cases hturn : Chat.activeTurnOf s x.turnId with
  | none => exact hs
  | some turn =>
    have hparts := hs.parts hturn
    refine { hs with activeTurn := ?_ }
    rintro turn' ⟨⟩
    exact hparts

/-! ### Input requests -/

theorem filledRequest_of_found {parts : List (ResponsePart Empty)} {requestId : String}
    {found : ℕ × InputRequestResponsePart}
    (h : Chat.findOpenInputRequestPart parts requestId = some found)
    (hparts : ∀ part ∈ parts, FilledPart part) : FilledRequest found.2.request := by
  obtain ⟨index, -, hpart⟩ := Option.bind_eq_some_iff.mp h
  split at hpart
  · next part hget =>
    cases hpart
    exact hparts _ (List.mem_of_getElem? hget)
  · cases hpart

theorem filled_set_iff {parts : List (ResponsePart Empty)} {requestId : String}
    {found : ℕ × InputRequestResponsePart}
    (h : Chat.findOpenInputRequestPart parts requestId = some found)
    (hparts : ∀ part ∈ parts, FilledPart part) (input : InputRequestResponsePart) :
    (∀ part ∈ parts.set found.1 (.inputRequest input), FilledPart part) ↔
      FilledRequest input.request := by
  have hlt : found.1 < parts.length := by
    obtain ⟨index, -, hpart⟩ := Option.bind_eq_some_iff.mp h
    split at hpart
    · next part hget =>
      cases hpart
      exact (List.getElem?_eq_some_iff.mp hget).1
    · cases hpart
  constructor
  · intro hset
    exact hset _ (List.mem_set hlt _)
  · intro hinput part hpart
    rcases List.mem_or_eq_of_mem_set hpart with hpart | rfl
    · exact hparts part hpart
    · exact hinput

theorem nonEmptyAnswers_ne (answers : Record Json) :
    Chat.nonEmptyAnswers answers ≠ some Record.empty := by
  unfold Chat.nonEmptyAnswers
  split
  · simp
  · next hne =>
    intro h
    rw [Option.some.inj h] at hne
    exact hne rfl

theorem filled_upsertInputRequestPart_iff (hs : Filled s) (request : ChatInputRequest) :
    Filled (Chat.upsertInputRequestPart s request) ↔ ¬ Loses s (.inputRequested request) := by
  have hloses : Loses s (.inputRequested request) ↔
      ∃ turn, s.activeTurn = some turn ∧ ¬ FilledRequest request := by
    constructor
    · rintro (_ | _ | _ | _ | _ | ⟨-, hempties⟩ | _ | _ | ⟨hactive, hrequest⟩)
      · exact hempties.1.elim
      · exact ⟨_, hactive, hrequest⟩
    · rintro ⟨turn, hactive, hrequest⟩
      exact .inputRequested hactive hrequest
  rw [hloses]
  unfold Chat.upsertInputRequestPart
  cases hactive : s.activeTurn with
  | none => exact iff_of_true hs (by simp)
  | some turn =>
    have hparts := hs.activeTurn turn hactive
    simp only [Option.some.injEq, exists_eq_left', not_not]
    rw [filled_withStatus_iff, filled_withResponseParts_iff hs]
    cases hfound : Chat.findOpenInputRequestPart turn.responseParts request.id with
    | some found =>
      have hold := filledRequest_of_found hfound hparts
      have hanswers := or_ne_some_iff (x := request.answers) hold.answers
      rw [filled_set_iff hfound hparts]
      exact ⟨fun h => ⟨h.questions, hanswers.mp h.answers⟩,
        fun h => ⟨h.questions, hanswers.mpr h.answers⟩⟩
    | none =>
      constructor
      · intro h
        exact h (.inputRequest ⟨request, none⟩) (by simp)
      · intro h part hpart
        rcases List.mem_append.mp hpart with hpart | hpart
        · exact hparts part hpart
        · rw [List.mem_singleton.mp hpart]
          exact h

theorem Filled.inputAnswerChanged (hs : Filled s) (x : ChatInputAnswerChangedAction) :
    Filled (Chat.inputAnswerChanged s x) := by
  unfold Chat.inputAnswerChanged
  cases hactive : s.activeTurn with
  | none => exact hs
  | some turn =>
    have hparts := hs.activeTurn turn hactive
    simp only
    cases hfound : Chat.findOpenInputRequestPart turn.responseParts x.requestId with
    | none => exact hs
    | some found =>
      refine (filled_withResponseParts_iff hs turn _).mpr ((filled_set_iff hfound hparts _).mpr ?_)
      exact ⟨(filledRequest_of_found hfound hparts).questions, nonEmptyAnswers_ne _⟩

theorem Filled.inputCompleted (hs : Filled s) (x : ChatInputCompletedAction) :
    Filled (Chat.inputCompleted s x) := by
  unfold Chat.inputCompleted
  cases hactive : s.activeTurn with
  | none => exact hs
  | some turn =>
    have hparts := hs.activeTurn turn hactive
    simp only
    cases hfound : Chat.findOpenInputRequestPart turn.responseParts x.requestId with
    | none => exact hs
    | some found =>
      refine filled_refreshSummaryStatus_iff.mpr ((filled_withResponseParts_iff hs turn _).mpr ?_)
      refine (filled_set_iff hfound hparts _).mpr ?_
      exact ⟨(filledRequest_of_found hfound hparts).questions, nonEmptyAnswers_ne _⟩

/-! ### Lists of the chat -/

theorem upsertWhere_ne_nil {α : Type} (p : α → Bool) (x : α) (l : List α) :
    upsertWhere p x l ≠ [] :=
  List.ne_nil_of_mem (mem_upsertWhere_self p x l)

theorem Filled.pendingMessageSet (hs : Filled s) (x : ChatPendingMessageSetAction) :
    Filled (Chat.pendingMessageSet s x) := by
  refine { hs with queuedMessages := fun h => ?_ }
  exact upsertWhere_ne_nil _ _ _ (Option.some.inj h)

theorem Filled.pendingMessageRemoved (hs : Filled s) (x : ChatPendingMessageRemovedAction) :
    Filled (Chat.pendingMessageRemoved s x) := by
  have hnext : Filled (if x.kind = .steering ∧ s.steeringMessage.map (·.id) = some x.id then
      { s with steeringMessage := none } else s) := by
    split
    · exact { hs with }
    · exact hs
  unfold Chat.pendingMessageRemoved
  simp only
  split
  · exact hnext
  · next queued _ =>
    refine { hnext with queuedMessages := ?_ }
    cases queued with
    | nil => simp
    | cons m l => simp

theorem Filled.queuedMessagesReordered (hs : Filled s) (order : List String) :
    Filled (Chat.queuedMessagesReordered s order) := by
  unfold Chat.queuedMessagesReordered
  cases hqueued : s.queuedMessages with
  | none => exact hs
  | some existing =>
    refine { hs with queuedMessages := fun h => ?_ }
    obtain ⟨hmentioned, hrest⟩ := List.append_eq_nil_iff.mp (Option.some.inj h)
    obtain ⟨m, hm⟩ := List.exists_mem_of_ne_nil existing fun hnil => hs.queuedMessages (hnil ▸ hqueued)
    -- A message that is not at the end is one of those mentioned.
    have hid : m.id ∈ Chat.mentioned existing order [] := by
      by_contra hnot
      exact List.filter_eq_nil_iff.mp hrest m hm (by simpa using hnot)
    have hnone := List.filterMap_eq_nil_iff.mp hmentioned m.id hid
    have hne := List.find?_eq_none.mp hnone m (List.mem_reverse.mpr hm)
    simp at hne

theorem filled_backgroundWorkSet_iff (hs : Filled s) (work : BackgroundWork Empty) :
    Filled (Chat.backgroundWorkSet s work) ↔ ¬ Loses s (.backgroundWorkSet work) := by
  constructor
  · rintro h (_ | _ | _ | _ | _ | ⟨-, hempties⟩ | hwork | _ | _)
    · exact hempties.1.elim
    · exact hwork (h.backgroundWork _ rfl work (mem_upsertWhere_self _ _ _))
  · intro hloses
    refine { hs with backgroundWork := ?_ }
    rintro l ⟨⟩ other hother
    rcases eq_or_mem_of_mem_upsertWhere hother with rfl | hother
    · by_contra hwork
      exact hloses (.backgroundWork hwork)
    · cases hlist : s.backgroundWork with
      | none =>
        rw [hlist] at hother
        cases hother
      | some list =>
        rw [hlist] at hother
        exact hs.backgroundWork list hlist other hother

theorem Filled.backgroundWorkRemoved (hs : Filled s) (id : String) :
    Filled (Chat.backgroundWorkRemoved s id) := by
  unfold Chat.backgroundWorkRemoved
  split
  · exact hs
  · next rest hrest =>
    refine { hs with backgroundWork := ?_ }
    rintro l ⟨⟩ work hwork
    have hmem := (sublist_of_eraseWhere hrest).subset hwork
    cases hlist : s.backgroundWork with
    | none =>
      rw [hlist] at hmem
      cases hmem
    | some list =>
      rw [hlist] at hmem
      exact hs.backgroundWork list hlist work hmem

theorem Filled.workingDirectorySet (hs : Filled s) (directory : URI) :
    Filled (Chat.workingDirectorySet s directory) := by
  unfold Chat.workingDirectorySet
  simp only
  split
  · exact hs
  · refine { hs with workingDirectories := ?_ }
    simp

/-- Removing the first match empties a list exactly if it is the only element. -/
theorem eraseWhere_eq_nil_iff {d : URI} {l : List URI} :
    eraseWhere (fun x => x = d) l = some [] ↔ l = [d] := by
  constructor
  · intro h
    obtain ⟨i, hi, hnil⟩ := Option.map_eq_some_iff.mp h
    obtain ⟨hlt, hd, -⟩ := List.findIdx?_eq_some_iff_getElem.mp hi
    have hlength := List.length_eraseIdx_of_lt hlt
    rw [hnil, List.length_nil] at hlength
    obtain ⟨x, rfl⟩ := List.length_eq_one_iff.mp (show l.length = 1 by omega)
    have hx : i = 0 := by simpa using hlt
    subst hx
    simpa using hd
  · rintro rfl
    simp [eraseWhere]

theorem filled_workingDirectoryRemoved_iff (hs : Filled s) (directory : URI) :
    Filled (Chat.workingDirectoryRemoved s directory) ↔ ¬ Loses s (.workingDirectoryRemoved directory) := by
  have hloses : Loses s (.workingDirectoryRemoved directory) ↔
      s.workingDirectories = some [directory] := by
    constructor
    · rintro (h | _ | _ | _ | _ | ⟨-, hempties⟩ | _ | _ | _)
      · exact h
      · exact hempties.1.elim
    · exact .workingDirectories
  rw [hloses]
  unfold Chat.workingDirectoryRemoved
  cases hlist : s.workingDirectories with
  | none => exact iff_of_true hs (by simp)
  | some list =>
    rw [Option.some_inj, ← eraseWhere_eq_nil_iff]
    simp only
    cases herase : eraseWhere (fun d => d = directory) list with
    | none => exact iff_of_true hs (by simp)
    | some updated =>
      constructor
      · intro h
        exact h.workingDirectories
      · intro hne
        exact { hs with workingDirectories := hne }

/-! ### One action -/

/-- What the reducer makes of an action on a call. -/
theorem chatReducer_toolCall (legacyParse : String → Option ℤ) (s : ChatState Empty) {id : String}
    (htarget : Chat.toolCallTarget? a = some id) :
    ∃ turnId, Chat.turnScope? a = some turnId ∧ Chat.chatReducer legacyParse s a =
      some (if Chat.refreshes a then
        Chat.refreshSummaryStatus (Chat.updateToolCallInParts s turnId id (tsUpdate a))
      else Chat.updateToolCallInParts s turnId id (tsUpdate a)) := by
  cases a <;> first | (cases htarget; exact ⟨_, rfl, rfl⟩) | cases htarget

/-- The actions that can lose something. -/
def mayLose : Chat.Action → Bool
  | .workingDirectoryRemoved _ | .changesetsChanged _ | .canvasesChanged _ | .responsePart _
  | .toolCallStart _ | .backgroundWorkSet _ | .turnsLoaded _ | .inputRequested _ => true
  | a => (Chat.toolCallTarget? a).isSome

theorem mayLose_of_loses (h : Loses s a) : mayLose a = true := by
  cases h with
  | toolCall htc hempties =>
    obtain ⟨turnId, id, turn, -, hid, -⟩ := htc
    cases a <;> first | rfl | cases hid
  | _ => rfl

theorem filled_iff_of_not_mayLose (h : Filled s') (hloses : mayLose a = false) :
    Filled s' ↔ ¬ Loses s a := by
  refine iff_of_true h fun hl => ?_
  rw [mayLose_of_loses hl] at hloses
  cases hloses

/-- **One action**: on a chat with nothing empty in it, the reducer leaves such a chat exactly
if the action loses nothing. -/
theorem filled_chatReducer_iff {legacyParse : String → Option ℤ} (hs : Filled s)
    (h : Chat.chatReducer legacyParse s a = some s') : Filled s' ↔ ¬ Loses s a := by
  cases htarget : Chat.toolCallTarget? a with
  | some id =>
    obtain ⟨turnId, hturn, hreducer⟩ := chatReducer_toolCall legacyParse s htarget
    rw [hreducer] at h
    cases h
    split
    · exact filled_refreshSummaryStatus_iff.trans (filled_toolCall_iff hs hturn htarget)
    · exact filled_toolCall_iff hs hturn htarget
  | none =>
  cases a with
  | turnComplete x | turnCancelled x | error x => exact filled_iff_of_not_mayLose (hs.endTurn h) rfl
  | toolCallDelta x | toolCallContentChanged x | toolCallReady x | toolCallConfirmed x
  | toolCallComplete x | toolCallResultConfirmed x | toolCallAuthRequired x
  | toolCallAuthResolved x => cases htarget
  | responsePart x =>
    cases h
    exact filled_responsePart_iff hs x
  | toolCallStart x =>
    cases h
    exact filled_toolCallStart_iff hs x
  | backgroundWorkSet work =>
    cases h
    exact filled_backgroundWorkSet_iff hs work
  | workingDirectoryRemoved directory =>
    cases h
    exact filled_workingDirectoryRemoved_iff hs directory
  | turnsLoaded x =>
    cases h
    exact filled_turnsLoaded_iff hs x
  | inputRequested request =>
    cases h
    exact filled_upsertInputRequestPart_iff hs request
  | changesetsChanged changesets =>
    cases h
    constructor
    · rintro hf (_ | _ | _ | _ | _ | ⟨-, hempties⟩ | _ | _ | _)
      · exact hf.changesets rfl
      · exact hempties.1.elim
    · intro hloses
      refine { hs with changesets := ?_ }
      rintro rfl
      exact hloses .changesets
  | canvasesChanged canvases =>
    cases h
    constructor
    · rintro hf (_ | _ | _ | _ | _ | ⟨-, hempties⟩ | _ | _ | _)
      · exact hf.canvases rfl
      · exact hempties.1.elim
    · intro hloses
      refine { hs with canvases := ?_ }
      rintro rfl
      exact hloses .canvases
  | turnStarted x =>
    cases h
    exact filled_iff_of_not_mayLose (hs.turnStarted x) rfl
  | delta x =>
    cases h
    refine filled_iff_of_not_mayLose (hs.updateResponsePart fun part hpart => ?_) rfl
    cases part <;> exact hpart
  | reasoning x =>
    cases h
    refine filled_iff_of_not_mayLose (hs.updateResponsePart fun part hpart => ?_) rfl
    cases part <;> exact hpart
  | turnResume turnId =>
    cases h
    exact filled_iff_of_not_mayLose (hs.turnResume turnId) rfl
  | backgroundWorkRemoved id =>
    cases h
    exact filled_iff_of_not_mayLose (hs.backgroundWorkRemoved id) rfl
  | workingDirectorySet directory =>
    cases h
    exact filled_iff_of_not_mayLose (hs.workingDirectorySet directory) rfl
  | usage x =>
    cases h
    exact filled_iff_of_not_mayLose (hs.usage x) rfl
  | truncated turnId =>
    cases h
    exact filled_iff_of_not_mayLose (hs.truncated turnId) rfl
  | pendingMessageSet x =>
    cases h
    exact filled_iff_of_not_mayLose (hs.pendingMessageSet x) rfl
  | pendingMessageRemoved x =>
    cases h
    exact filled_iff_of_not_mayLose (hs.pendingMessageRemoved x) rfl
  | queuedMessagesReordered order =>
    cases h
    exact filled_iff_of_not_mayLose (hs.queuedMessagesReordered order) rfl
  | inputAnswerChanged x =>
    cases h
    exact filled_iff_of_not_mayLose (hs.inputAnswerChanged x) rfl
  | inputCompleted x =>
    cases h
    exact filled_iff_of_not_mayLose (hs.inputCompleted x) rfl
  | activityChanged _ | movableChanged _ | draftChanged _ | isReadChanged _ | isArchivedChanged _
  | configChanged _ | moved _ =>
    cases h
    exact filled_iff_of_not_mayLose { hs with } rfl

end AgentHostProtocol.Agreement.GoChat
