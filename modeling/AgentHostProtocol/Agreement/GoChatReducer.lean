import AgentHostProtocol.Agreement.GoLosses
import AgentHostProtocol.Agreement.GoTimestamps

/-!
# Where the Go chat is the TypeScript chat

A chat is read into the Go types, actions are applied to it, and it is written again. **What is
proved**: on a chat that the Go types hold, with nothing empty in it, one action gives what
`chatReducer` gives exactly when the action is none of these (`applyJson_agrees_iff`):

* an action on which the two reducers part (`Diverges`),
* an action that leaves a list or an object that is there and empty (`Loses`): it is written as
  absent. A chat that may use no directory then inherits those of its session.

So the chat that is written after any run of other actions is the TypeScript one
(`applyAll_agrees`).
-/

namespace AgentHostProtocol.Agreement.GoChat

open Library SessionStatus

variable {s : ChatState Empty} {a : Chat.Action} {legacyParse otherParse : String → Option ℤ}

/-! ### Actions on calls -/

/-- The chat after an action in Go, before it is written. -/
def goNext (otherParse : String → Option ℤ) (s : ChatState Empty) (a : Chat.Action) :
    Option (ChatState Empty) :=
  (Go.applyActionToChat otherParse s (toGo a)).map (·.2)

/-- What the Go reducer makes of an action on a call. -/
theorem goNext_toolCall (otherParse : String → Option ℤ) (s : ChatState Empty) {id : String}
    (htarget : Chat.toolCallTarget? a = some id) :
    ∃ turnId, Chat.turnScope? a = some turnId ∧ goNext otherParse s a =
      some (if Chat.refreshes a then
        (Go.refreshIfApplied (Go.updateToolCall s turnId id (goUpdate a))).2
      else (Go.updateToolCall s turnId id (goUpdate a)).2) := by
  cases a with
  | toolCallConfirmed x => cases x <;> (cases htarget; exact ⟨_, rfl, rfl⟩)
  | _ => first | (cases htarget; exact ⟨_, rfl, rfl⟩) | cases htarget

/-- The first call with the id stands between parts without it and the rest. -/
structure FirstCall (turn : ActiveTurn Empty) (id : String) (pre : List (ResponsePart Empty))
    (first : ToolCallState Empty) (post : List (ResponsePart Empty)) : Prop where
  parts : turn.responseParts = pre ++ .toolCall first :: post
  before : ∀ part ∈ pre, callId? part ≠ some id
  id_eq : (Chat.tcBase first).toolCallId = id

theorem exists_firstCall {turnId id : String} (h : HasCall s turnId id) :
    ∃ turn pre first post, Chat.activeTurnOf s turnId = some turn ∧ FirstCall turn id pre first post := by
  obtain ⟨turn, tc, hturn, htc, hid⟩ := h
  have hfind : (turn.responseParts.find? fun part => callId? part = some id).isSome := by
    rw [List.find?_isSome]
    exact ⟨_, htc, by simp [callId?, hid]⟩
  obtain ⟨part, hpart⟩ := Option.isSome_iff_exists.mp hfind
  obtain ⟨hid, pre, post, hparts, hbefore⟩ := List.find?_eq_some_iff_append.mp hpart
  cases part with
  | toolCall first =>
    refine ⟨turn, pre, first, post, hturn, hparts, fun x hx => ?_, by simpa [callId?] using hid⟩
    simpa using hbefore x hx
  | _ => simp [callId?] at hid

theorem updatedToolCall_of_ne {id : String} {f : ToolCallState Empty → ToolCallState Empty}
    {part : ResponsePart Empty} (h : callId? part ≠ some id) : Go.updatedToolCall id f part = none := by
  cases part with
  | toolCall tc =>
    refine if_neg fun hid => h ?_
    rw [toolCallID_eq] at hid
    exact congrArg some hid
  | _ => rfl

theorem updateToolCall_of_ne {id : String} {f : ToolCallState Empty → ToolCallState Empty}
    {part : ResponsePart Empty} (h : callId? part ≠ some id) : Chat.updateToolCall id f part = part := by
  cases part with
  | toolCall tc => exact if_neg fun hid => h (congrArg some hid)
  | _ => rfl

/-- Without the call, Go does nothing. -/
theorem updateToolCall_of_not_hasCall {turnId id : String}
    {f : ToolCallState Empty → ToolCallState Empty} (h : ¬ HasCall s turnId id) :
    Go.updateToolCall s turnId id f = (.noOp, s) := by
  unfold Go.updateToolCall
  rw [withActiveTurn_eq]
  cases hturn : Chat.activeTurnOf s turnId with
  | none => rfl
  | some turn =>
    have hnone : updateFirst (Go.updatedToolCall id f) turn.responseParts = none := by
      refine updateFirst_eq_none.mpr fun part hpart => updatedToolCall_of_ne fun hid => ?_
      cases part with
      | toolCall tc => exact h ⟨turn, tc, hturn, hpart, Option.some.inj hid⟩
      | _ => cases hid
    simp only [hnone]

/-- With the call, Go updates the first one. -/
theorem updateToolCall_of_firstCall {turnId id : String} {turn : ActiveTurn Empty}
    {pre post : List (ResponsePart Empty)} {first : ToolCallState Empty}
    (hturn : Chat.activeTurnOf s turnId = some turn) (h : FirstCall turn id pre first post)
    (f : ToolCallState Empty → ToolCallState Empty) :
    Go.updateToolCall s turnId id f =
      (.applied, Chat.withResponseParts s turn (pre ++ .toolCall (f first) :: post)) := by
  have hfirst : Go.updatedToolCall id f (.toolCall first) = some (.toolCall (f first)) :=
    if_pos ((toolCallID_eq first).trans h.id_eq)
  have hparts : updateFirst (Go.updatedToolCall id f) (pre ++ .toolCall first :: post) =
      some (pre ++ .toolCall (f first) :: post) := by
    have hbefore := h.before
    clear h
    induction pre with
    | nil => simp only [List.nil_append, updateFirst, hfirst]
    | cons part pre ih =>
      have hnone : Go.updatedToolCall id f part = none :=
        updatedToolCall_of_ne (hbefore part List.mem_cons_self)
      have htail := ih fun x hx => hbefore x (List.mem_cons_of_mem _ hx)
      simp only [List.cons_append, updateFirst, hnone, htail, Option.map_some]
  unfold Go.updateToolCall
  rw [withActiveTurn_eq, hturn]
  simp only [h.parts, hparts]
  rfl

/-- TypeScript updates the later ones too. -/
theorem updateToolCallInParts_of_firstCall {turnId id : String} {turn : ActiveTurn Empty}
    {pre post : List (ResponsePart Empty)} {first : ToolCallState Empty}
    (hturn : Chat.activeTurnOf s turnId = some turn) (h : FirstCall turn id pre first post)
    (f : ToolCallState Empty → ToolCallState Empty) :
    Chat.updateToolCallInParts s turnId id f =
      Chat.withResponseParts s turn
        (pre ++ .toolCall (f first) :: post.map (Chat.updateToolCall id f)) := by
  have hpre : pre.map (Chat.updateToolCall id f) = pre :=
    map_eq_self_iff.mpr fun part hpart => updateToolCall_of_ne (h.before part hpart)
  have hfirst : Chat.updateToolCall id f (.toolCall first) = .toolCall (f first) := if_pos h.id_eq
  unfold Chat.updateToolCallInParts
  rw [hturn]
  simp only [h.parts, List.map_append, List.map_cons, hpre, hfirst]

/-- A call with the id that the action names, behind the first one. -/
def FurtherCall (s : ChatState Empty) (a : Chat.Action) (tc : ToolCallState Empty) : Prop :=
  ∃ turnId id turn, Chat.turnScope? a = some turnId ∧ Chat.toolCallTarget? a = some id ∧
    Chat.activeTurnOf s turnId = some turn ∧ (Chat.tcBase tc).toolCallId = id ∧
    ResponsePart.toolCall tc ∈ (turn.responseParts.dropWhile fun part => callId? part ≠ some id).tail

theorem dropWhile_of_firstCall {turn : ActiveTurn Empty} {id : String}
    {pre post : List (ResponsePart Empty)} {first : ToolCallState Empty}
    (h : FirstCall turn id pre first post) :
    turn.responseParts.dropWhile (fun part => callId? part ≠ some id) = .toolCall first :: post := by
  have hbefore : ∀ part ∈ pre, decide (callId? part ≠ some id) = true := fun part hpart =>
    decide_eq_true (h.before part hpart)
  have hfirst : decide (callId? (.toolCall first) ≠ some id) = false := by simp [callId?, h.id_eq]
  rw [h.parts, List.dropWhile_append_of_pos hbefore, List.dropWhile_cons_of_neg (by simp [hfirst])]

theorem furtherCall_iff {turnId id : String} {turn : ActiveTurn Empty}
    {pre post : List (ResponsePart Empty)} {first tc : ToolCallState Empty}
    (hscope : Chat.turnScope? a = some turnId) (htarget : Chat.toolCallTarget? a = some id)
    (hturn : Chat.activeTurnOf s turnId = some turn) (h : FirstCall turn id pre first post) :
    FurtherCall s a tc ↔ (Chat.tcBase tc).toolCallId = id ∧ ResponsePart.toolCall tc ∈ post := by
  constructor
  · rintro ⟨turnId', id', turn', hscope', htarget', hturn', hid, hmem⟩
    rw [hscope] at hscope'
    cases hscope'
    rw [htarget] at htarget'
    cases htarget'
    rw [hturn] at hturn'
    cases hturn'
    rw [dropWhile_of_firstCall h] at hmem
    exact ⟨hid, hmem⟩
  · rintro ⟨hid, hmem⟩
    refine ⟨turnId, id, turn, hscope, htarget, hturn, hid, ?_⟩
    rw [dropWhile_of_firstCall h]
    exact hmem

/-! ### Where the reducers part -/

/-- The actions on which the two reducers part. -/
inductive Diverges (legacyParse otherParse : String → Option ℤ) (s : ChatState Empty) :
    Chat.Action → Prop
  /-- TypeScript recomputes the status though the call is not there, and it changes. -/
  | stale {a : Chat.Action} (hstale : Chat.Stale s a) (hrefreshes : Chat.refreshes a = true)
    (hstatus : ¬ Chat.Derived s) : Diverges legacyParse otherParse s a
  /-- To TypeScript an empty option id is no id. -/
  | emptyOption {x : ChatToolCallConfirmedAction Empty} {tc : ToolCallState Empty}
    (htc : Targets s (.toolCallConfirmed x) tc) (hempty : ConfirmsEmptyOption x tc) :
    Diverges legacyParse otherParse s (.toolCallConfirmed x)
  /-- Go updates the first call with an id, TypeScript all of them. -/
  | furtherCall {a : Chat.Action} {tc : ToolCallState Empty} (htc : FurtherCall s a tc)
    (hchanged : tsUpdate a tc ≠ tc) : Diverges legacyParse otherParse s a
  /-- To Go an empty part id is no id. -/
  | delta {x : ChatDeltaAction} {turn : ActiveTurn Empty} {part : ResponsePart Empty}
    (hid : x.partId = "") (hturn : Chat.activeTurnOf s x.turnId = some turn)
    (hpart : turn.responseParts.find? (fun part => Chat.partId part = some "") = some part)
    (hchanged : Chat.deltaPart x part ≠ part) : Diverges legacyParse otherParse s (.delta x)
  | reasoning {x : ChatReasoningAction} {turn : ActiveTurn Empty} {part : ResponsePart Empty}
    (hid : x.partId = "") (hturn : Chat.activeTurnOf s x.turnId = some turn)
    (hpart : turn.responseParts.find? (fun part => Chat.partId part = some "") = some part)
    (hchanged : Chat.reasoningPart x part ≠ part) : Diverges legacyParse otherParse s (.reasoning x)
  /-- The turn's start is read as different instants. -/
  | parse {a : Chat.Action} {e : Chat.Ending} (ha : Chat.ending? a = some e)
    {turn : ActiveTurn Empty} (hturn : Chat.activeTurnOf s e.turnId = some turn)
    (hparse : dateParse legacyParse turn.startedAt ≠ dateParse otherParse turn.startedAt) :
    Diverges legacyParse otherParse s a
  /-- The end of the turn is out of range, or has another text. -/
  | ending {a : Chat.Action} {e : Chat.Ending} (ha : Chat.ending? a = some e)
    {turn : ActiveTurn Empty} (hturn : Chat.activeTurnOf s e.turnId = some turn) {t : ℤ}
    (ht : dateParse legacyParse turn.startedAt = some t)
    (hadded : ¬ AddedAlike t (max 0 e.duration)) : Diverges legacyParse otherParse s a

/-! ### Calls -/

theorem updateToolCall_eq_self_iff {id : String} {f : ToolCallState Empty → ToolCallState Empty}
    {part : ResponsePart Empty} : Chat.updateToolCall id f part = part ↔
      ∀ tc, part = .toolCall tc → (Chat.tcBase tc).toolCallId = id → f tc = tc := by
  cases part with
  | toolCall tc =>
    simp only [Chat.updateToolCall, ResponsePart.toolCall.injEq, forall_eq']
    split
    · next hid => simp [hid]
    · next hid => simp [hid]
  | _ => simp [Chat.updateToolCall]

theorem toolCallTarget?_of_ending {e : Chat.Ending} (ha : Chat.ending? a = some e) :
    Chat.toolCallTarget? a = none := by
  cases a <;> first | rfl | cases ha

/-- The active turn starts at a timestamp of the ISO format. -/
def StartsParse (s : ChatState Empty) : Prop :=
  ∀ turn, s.activeTurn = some turn → (Rfc3339.millis? turn.startedAt).isSome

/-- The reducers leave the same chat if the action does not diverge, and conversely when what is
written is the same. Of a turn's start in another format each has its own reading. -/
def AgreesUnlessDiverges (legacyParse otherParse : String → Option ℤ) (s : ChatState Empty)
    (a : Chat.Action) : Prop :=
  (¬ Diverges legacyParse otherParse s a →
    goNext otherParse s a = Chat.chatReducer legacyParse s a) ∧
  (StartsParse s →
    (goNext otherParse s a).map Go.encodeChatState = Chat.chatReducer legacyParse s a →
    ¬ Diverges legacyParse otherParse s a)

/-- A late action on a call agrees exactly if it does not recompute a status that changes. -/
theorem toolCall_agrees_of_stale {turnId id : String} (hs : Filled s)
    (hscope : Chat.turnScope? a = some turnId) (htarget : Chat.toolCallTarget? a = some id)
    (hcall : ¬ HasCall s turnId id) : AgreesUnlessDiverges legacyParse otherParse s a := by
  have hstale := (stale_iff_not_hasCall hscope htarget).mpr hcall
  have hnone : ∀ tc, ¬ Targets s a tc := by
    rintro tc ⟨turnId', id', turn, hscope', htarget', hturn, hmem, hid⟩
    rw [hscope] at hscope'
    cases hscope'
    rw [htarget] at htarget'
    cases htarget'
    exact hcall ⟨turn, tc, hturn, hmem, hid⟩
  have hdiverges : Diverges legacyParse otherParse s a ↔ Chat.refreshes a = true ∧ ¬ Chat.Derived s := by
    constructor
    · intro h
      cases h with
      | stale _ hrefreshes hstatus => exact ⟨hrefreshes, hstatus⟩
      | emptyOption htc _ => exact absurd htc (hnone _)
      | furtherCall htc _ =>
        obtain ⟨turnId', id', turn, hscope', htarget', hturn, hid, hmem⟩ := htc
        have hmem := (List.dropWhile_sublist _).subset (List.mem_of_mem_tail hmem)
        exact absurd ⟨turnId', id', turn, hscope', htarget', hturn, hmem, hid⟩ (hnone _)
      | delta | reasoning => cases htarget
      | parse ha | ending ha =>
        rw [toolCallTarget?_of_ending ha] at htarget
        cases htarget
    · rintro ⟨hrefreshes, hstatus⟩
      exact .stale hstale hrefreshes hstatus
  obtain ⟨turnId', hscope', hgo⟩ := goNext_toolCall otherParse s htarget
  rw [hscope] at hscope'
  cases hscope'
  have hgo : goNext otherParse s a = some s := by
    rw [hgo, updateToolCall_of_not_hasCall hcall]
    split <;> rfl
  unfold AgreesUnlessDiverges
  rw [hgo, Option.map_some, encodeChatState_eq_self_iff.mpr hs, eq_comm,
    Chat.chatReducer_eq_self_iff_of_stale hstale, hdiverges]
  tauto

/-- The option shows in what is written. -/
theorem encode_toolCallConfirmed_ne {x : ChatToolCallConfirmedAction Empty} {tc : ToolCallState Empty}
    (h : ConfirmsEmptyOption x tc) :
    Go.encodeToolCall (Go.toolCallConfirmed (toGoConfirmed x) tc) ≠ Chat.toolCallConfirmed x tc := by
  cases tc with
  | pendingConfirmation s =>
    have hoption : ¬ Go.resolveSelectedOption s.options (selectedOptionId? x) =
        Chat.resolveSelectedOption s.options (selectedOptionId? x) := fun heq =>
      (resolveSelectedOption_eq_iff _ _).mp heq h
    cases x with
    | approved x =>
      intro heq
      exact hoption (congrArg (fun s : ToolCallRunningState Empty => s.selectedOption)
        (ToolCallState.running.inj heq))
    | denied x =>
      intro heq
      exact hoption (congrArg (fun s : ToolCallCancelledState Empty => s.selectedOption)
        (ToolCallState.cancelled.inj heq))
  | _ => cases h

/-- A confirmation changes a call that waits for it. -/
theorem toolCallConfirmed_ne_self {x : ChatToolCallConfirmedAction Empty} {tc : ToolCallState Empty}
    (h : ConfirmsEmptyOption x tc) : Chat.toolCallConfirmed x tc ≠ tc := by
  cases tc with
  | pendingConfirmation s => cases x <;> (intro heq; cases heq)
  | _ => cases h

/-- An action on a call that is there parts the reducers exactly if it finds an empty option or
changes a further call. -/
theorem diverges_toolCall_iff {turnId id : String} (hscope : Chat.turnScope? a = some turnId)
    (htarget : Chat.toolCallTarget? a = some id) (hcall : HasCall s turnId id) :
    Diverges legacyParse otherParse s a ↔
      (∃ x tc, a = .toolCallConfirmed x ∧ Targets s a tc ∧ ConfirmsEmptyOption x tc) ∨
        ∃ tc, FurtherCall s a tc ∧ tsUpdate a tc ≠ tc := by
  constructor
  · intro h
    cases h with
    | stale hstale => exact absurd hcall ((stale_iff_not_hasCall hscope htarget).mp hstale)
    | emptyOption htc hempty => exact .inl ⟨_, _, rfl, htc, hempty⟩
    | furtherCall htc hchanged => exact .inr ⟨_, htc, hchanged⟩
    | delta | reasoning => cases htarget
    | parse ha | ending ha =>
      rw [toolCallTarget?_of_ending ha] at htarget
      cases htarget
  · rintro (⟨x, tc, rfl, htc, hempty⟩ | ⟨tc, htc, hchanged⟩)
    · exact .emptyOption htc hempty
    · exact .furtherCall htc hchanged

/-- An action that finds its call and loses nothing agrees exactly if it does not diverge. -/
theorem toolCall_agrees_of_hasCall {turnId id : String} (hs : Filled s)
    (hscope : Chat.turnScope? a = some turnId) (htarget : Chat.toolCallTarget? a = some id)
    (hcall : HasCall s turnId id) (hloses : ¬ Loses s a) :
    AgreesUnlessDiverges legacyParse otherParse s a := by
  obtain ⟨turn, pre, first, post, hturn, hfirst⟩ := exists_firstCall hcall
  have hparts := hs.parts hturn
  rw [hfirst.parts] at hparts
  have htargets : ∀ tc, Targets s a tc ↔
      ResponsePart.toolCall tc ∈ turn.responseParts ∧ (Chat.tcBase tc).toolCallId = id := by
    intro tc
    constructor
    · rintro ⟨turnId', id', turn', hscope', htarget', hturn', hmem, hid⟩
      rw [hscope] at hscope'
      cases hscope'
      rw [htarget] at htarget'
      cases htarget'
      rw [hturn] at hturn'
      cases hturn'
      exact ⟨hmem, hid⟩
    · rintro ⟨hmem, hid⟩
      exact ⟨turnId, id, turn, hscope, htarget, hturn, hmem, hid⟩
  have hfirstTarget : Targets s a first := by
    refine (htargets first).mpr ⟨?_, hfirst.id_eq⟩
    rw [hfirst.parts]
    simp
  have hfurther : ∀ tc, FurtherCall s a tc ↔
      (Chat.tcBase tc).toolCallId = id ∧ ResponsePart.toolCall tc ∈ post := fun tc =>
    furtherCall_iff hscope htarget hturn hfirst
  obtain ⟨turnId', hscope', hgo⟩ := goNext_toolCall otherParse s htarget
  rw [hscope] at hscope'
  cases hscope'
  obtain ⟨turnId', hscope', hts⟩ := chatReducer_toolCall legacyParse s htarget
  rw [hscope] at hscope'
  cases hscope'
  rw [updateToolCall_of_firstCall hturn hfirst] at hgo
  rw [updateToolCallInParts_of_firstCall hturn hfirst] at hts
  unfold AgreesUnlessDiverges
  rw [diverges_toolCall_iff hscope htarget hcall]
  constructor
  · intro hdiverges
    rw [not_or] at hdiverges
    have hfilled : FilledCall first := hparts (.toolCall first) (by simp)
    have hupdate : goUpdate a first = tsUpdate a first := by
      refine goUpdate_eq hfilled (fun hempties => hloses (.toolCall hfirstTarget hempties)) ?_
      intro x hx hempty
      exact hdiverges.1 ⟨x, first, hx, hfirstTarget, hempty⟩
    have hpost : post.map (Chat.updateToolCall id (tsUpdate a)) = post := by
      refine map_eq_self_iff.mpr fun part hpart => updateToolCall_eq_self_iff.mpr ?_
      rintro tc rfl hid
      by_contra hchanged
      exact hdiverges.2 ⟨tc, (hfurther tc).mpr ⟨hid, hpart⟩, hchanged⟩
    rw [hpost] at hts
    rw [hgo, hts, hupdate]
    split
    · exact congrArg some (refreshSummaryStatus_eq _)
    · rfl
  · intro _ hagrees
    -- The parts behind the first call are written as they were.
    have hlist : (pre ++ .toolCall (goUpdate a first) :: post).map Go.encodePart =
        pre ++ .toolCall (tsUpdate a first) :: post.map (Chat.updateToolCall id (tsUpdate a)) := by
      rw [hgo, hts, Option.map_some, Option.some_inj] at hagrees
      have hactive := congrArg ChatState.activeTurn hagrees
      split at hactive <;> exact congrArg ActiveTurn.responseParts (Option.some.inj hactive)
    have hpost : post.map Go.encodePart = post :=
      encodeParts_eq_self_iff.mpr fun part hpart => hparts part (by simp [hpart])
    rw [List.map_append, List.map_cons, hpost] at hlist
    obtain ⟨-, hrest⟩ := List.append_inj hlist (by rw [List.length_map])
    obtain ⟨hhead, hpost'⟩ := List.cons.inj hrest
    have hfixed := map_eq_self_iff.mp hpost'.symm
    have hlater : ∀ tc, FurtherCall s a tc → tsUpdate a tc = tc := by
      intro tc htc
      obtain ⟨hid, hmem⟩ := (hfurther tc).mp htc
      exact updateToolCall_eq_self_iff.mp (hfixed _ hmem) tc rfl hid
    rintro (⟨x, tc, rfl, htc, hempty⟩ | ⟨tc, htc, hchanged⟩)
    · obtain ⟨hmem, hid⟩ := (htargets tc).mp htc
      rw [hfirst.parts] at hmem
      rcases List.mem_append.mp hmem with hmem | hmem
      · exact hfirst.before _ hmem (congrArg some hid)
      · rcases List.mem_cons.mp hmem with heq | hmem
        · cases heq
          exact encode_toolCallConfirmed_ne hempty (ResponsePart.toolCall.inj hhead)
        · exact toolCallConfirmed_ne_self hempty (hlater tc ((hfurther tc).mpr ⟨hid, hmem⟩))
    · exact hchanged (hlater tc htc)

/-! ### Parts -/

theorem partID_eq (part : ResponsePart Empty) :
    Go.partID part = (Chat.partId part).getD "" := by
  cases part with
  | toolCall tc => exact toolCallID_eq tc
  | _ => rfl

/-- With an id, Go updates the part that TypeScript updates. -/
theorem updateResponsePart_eq {turnId id : String} (hid : id ≠ "")
    (f : ResponsePart Empty → ResponsePart Empty) :
    (Go.updateResponsePart s turnId id f).2 = Chat.updateResponsePart s turnId id f := by
  have hpart : ∀ part : ResponsePart Empty,
      (Go.partID part ≠ "" ∧ Go.partID part = id) ↔ Chat.partId part = some id := by
    intro part
    rw [partID_eq]
    cases Chat.partId part with
    | none => simp [Ne.symm hid]
    | some other =>
      simp only [Option.getD_some, Option.some_inj]
      exact ⟨fun h => h.2, fun h => ⟨h ▸ hid, h⟩⟩
  unfold Go.updateResponsePart Chat.updateResponsePart
  rw [withActiveTurn_eq]
  cases Chat.activeTurnOf s turnId with
  | none => rfl
  | some turn =>
    simp only [hpart]
    generalize updateFirst _ _ = parts
    cases parts <;> rfl

/-- Without an id, Go updates nothing. -/
theorem updateResponsePart_empty (turnId : String) (f : ResponsePart Empty → ResponsePart Empty) :
    (Go.updateResponsePart s turnId "" f).2 = s := by
  unfold Go.updateResponsePart
  rw [withActiveTurn_eq]
  cases Chat.activeTurnOf s turnId with
  | none => rfl
  | some turn =>
    have hnone : updateFirst (fun part => if Go.partID part ≠ "" ∧ Go.partID part = "" then
        some (f part) else none) turn.responseParts = none :=
      updateFirst_eq_none.mpr fun part _ => if_neg fun h => h.1 h.2
    simp only [hnone]

/-- Then TypeScript updates nothing exactly if the first part with an empty id stays as it is. -/
theorem updateResponsePart_empty_eq_self_iff {turnId : String}
    {f : ResponsePart Empty → ResponsePart Empty} :
    Chat.updateResponsePart s turnId "" f = s ↔
      ∀ turn part, Chat.activeTurnOf s turnId = some turn →
        turn.responseParts.find? (fun part => Chat.partId part = some "") = some part →
        f part = part := by
  unfold Chat.updateResponsePart
  cases hturn : Chat.activeTurnOf s turnId with
  | none => simp
  | some turn =>
    have hactive := (Chat.activeTurnOf_eq_some.mp hturn).1
    have hiff := updateFirst_ite_getD_eq_self_iff (fun part => Chat.partId part = some "") f
      (l := turn.responseParts)
    refine Iff.trans ?_ (hiff.trans ⟨?_, fun h part hpart => h turn part rfl hpart⟩)
    case refine_2 =>
      rintro h _ part ⟨⟩ hpart
      exact h part hpart
    cases hparts : updateFirst (fun part => if Chat.partId part = some "" then some (f part) else none)
        turn.responseParts with
    | none => simp [hparts]
    | some parts =>
      simp only [hparts, Option.getD_some]
      constructor
      · intro h
        have heq := congrArg ChatState.activeTurn h
        rw [hactive] at heq
        exact congrArg ActiveTurn.responseParts (Option.some.inj heq)
      · rintro rfl
        unfold Chat.withResponseParts
        rw [← hactive]

/-- Both actions on a part: without an id they agree if the part stays as it is. -/
theorem part_agrees {turnId id : String} {f : ResponsePart Empty → ResponsePart Empty}
    (h : ∀ turn part, id = "" → Chat.activeTurnOf s turnId = some turn →
      turn.responseParts.find? (fun part => Chat.partId part = some "") = some part → f part = part) :
    (Go.updateResponsePart s turnId id f).2 = Chat.updateResponsePart s turnId id f := by
  by_cases hid : id = ""
  · subst hid
    rw [updateResponsePart_empty, eq_comm, updateResponsePart_empty_eq_self_iff]
    intro turn part hturn hpart
    exact h turn part rfl hturn hpart
  · exact updateResponsePart_eq hid f

theorem part_agrees_iff (hs : Filled s) {turnId id : String}
    {f : ResponsePart Empty → ResponsePart Empty} (hf : ∀ part, FilledPart part → FilledPart (f part)) :
    Go.encodeChatState (Go.updateResponsePart s turnId id f).2 = Chat.updateResponsePart s turnId id f ↔
      ∀ turn part, id = "" → Chat.activeTurnOf s turnId = some turn →
        turn.responseParts.find? (fun part => Chat.partId part = some "") = some part →
        f part = part := by
  by_cases hid : id = ""
  · subst hid
    rw [updateResponsePart_empty, encodeChatState_eq_self_iff.mpr hs, eq_comm,
      updateResponsePart_empty_eq_self_iff]
    simp
  · rw [updateResponsePart_eq hid, encodeChatState_eq_self_iff.mpr (hs.updateResponsePart hf)]
    simp [hid]

theorem not_diverges_delta_iff {x : ChatDeltaAction} :
    ¬ Diverges legacyParse otherParse s (.delta x) ↔
      ∀ turn part, x.partId = "" → Chat.activeTurnOf s x.turnId = some turn →
        turn.responseParts.find? (fun part => Chat.partId part = some "") = some part →
        Chat.deltaPart x part = part := by
  constructor
  · intro h turn part hid hturn hpart
    by_contra hchanged
    exact h (.delta hid hturn hpart hchanged)
  · intro h hdiverges
    cases hdiverges with
    | stale _ hrefreshes => cases hrefreshes
    | furtherCall htc =>
      obtain ⟨turnId, id, turn, -, htarget, -⟩ := htc
      cases htarget
    | delta hid hturn hpart hchanged => exact hchanged (h _ _ hid hturn hpart)
    | parse ha | ending ha => cases ha

theorem not_diverges_reasoning_iff {x : ChatReasoningAction} :
    ¬ Diverges legacyParse otherParse s (.reasoning x) ↔
      ∀ turn part, x.partId = "" → Chat.activeTurnOf s x.turnId = some turn →
        turn.responseParts.find? (fun part => Chat.partId part = some "") = some part →
        Chat.reasoningPart x part = part := by
  constructor
  · intro h turn part hid hturn hpart
    by_contra hchanged
    exact h (.reasoning hid hturn hpart hchanged)
  · intro h hdiverges
    cases hdiverges with
    | stale _ hrefreshes => cases hrefreshes
    | furtherCall htc =>
      obtain ⟨turnId, id, turn, -, htarget, -⟩ := htc
      cases htarget
    | reasoning hid hturn hpart hchanged => exact hchanged (h _ _ hid hturn hpart)
    | parse ha | ending ha => cases ha

theorem delta_agrees (hs : Filled s) (x : ChatDeltaAction) :
    AgreesUnlessDiverges legacyParse otherParse s (.delta x) := by
  have hgo : goNext otherParse s (.delta x) =
      some (Go.updateResponsePart s x.turnId x.partId (Go.deltaPart x)).2 := rfl
  have hts : Chat.chatReducer legacyParse s (.delta x) =
      some (Chat.updateResponsePart s x.turnId x.partId (Chat.deltaPart x)) := rfl
  unfold AgreesUnlessDiverges
  rw [not_diverges_delta_iff, hgo, hts, deltaPart_eq, Option.map_some, Option.some_inj, Option.some_inj]
  refine ⟨part_agrees, fun _ => (part_agrees_iff hs fun part hpart => ?_).mp⟩
  cases part <;> exact hpart

theorem reasoning_agrees (hs : Filled s) (x : ChatReasoningAction) :
    AgreesUnlessDiverges legacyParse otherParse s (.reasoning x) := by
  have hgo : goNext otherParse s (.reasoning x) =
      some (Go.updateResponsePart s x.turnId x.partId (Go.reasoningPart x)).2 := rfl
  have hts : Chat.chatReducer legacyParse s (.reasoning x) =
      some (Chat.updateResponsePart s x.turnId x.partId (Chat.reasoningPart x)) := rfl
  unfold AgreesUnlessDiverges
  rw [not_diverges_reasoning_iff, hgo, hts, reasoningPart_eq, Option.map_some, Option.some_inj, Option.some_inj]
  refine ⟨part_agrees, fun _ => (part_agrees_iff hs fun part hpart => ?_).mp⟩
  cases part <;> exact hpart

/-! ### Endings -/

theorem diverges_ending_iff {e : Chat.Ending} (ha : Chat.ending? a = some e) :
    Diverges legacyParse otherParse s a ↔
      ∃ turn, Chat.activeTurnOf s e.turnId = some turn ∧
        (dateParse legacyParse turn.startedAt ≠ dateParse otherParse turn.startedAt ∨
          ∃ t, dateParse legacyParse turn.startedAt = some t ∧ ¬ AddedAlike t (max 0 e.duration)) := by
  have hnone := toolCallTarget?_of_ending ha
  constructor
  · intro h
    cases h with
    | stale _ hrefreshes => cases a <;> first | (cases ha; done) | cases hrefreshes
    | emptyOption htc | furtherCall htc =>
      obtain ⟨turnId, id, turn, -, htarget, -⟩ := htc
      rw [hnone] at htarget
      cases htarget
    | delta | reasoning => cases ha
    | parse ha' hturn hparse =>
      rw [ha] at ha'
      cases ha'
      exact ⟨_, hturn, .inl hparse⟩
    | ending ha' hturn ht hadded =>
      rw [ha] at ha'
      cases ha'
      exact ⟨_, hturn, .inr ⟨_, ht, hadded⟩⟩
  · rintro ⟨turn, hturn, hparse | ⟨t, ht, hadded⟩⟩
    · exact .parse ha hturn hparse
    · exact .ending ha hturn ht hadded

/-- What an ending leaves in both, if its turn is not the active one. -/
theorem endTurn_of_notActive (legacyParse otherParse : String → Option ℤ) {turnId : String}
    (hturn : Chat.activeTurnOf s turnId = none)
    {duration : ℤ} {turnState : TurnState} {terminalStatus : Option SessionStatus}
    {errorPart : Option ErrorResponsePart} :
    (Go.endTurn otherParse s turnId duration turnState terminalStatus errorPart).map (·.2) = some s ∧
      Chat.endTurn legacyParse s turnId turnState duration terminalStatus errorPart = some s := by
  constructor
  · unfold Go.endTurn
    cases hactive : s.activeTurn with
    | none => rfl
    | some turn => simp only [if_pos (Chat.activeTurnOf_eq_none.mp hturn turn hactive), Option.map_some]
  · simp [Chat.endTurn, hturn]

/-- The chat after an ending with its timestamp. -/
def endedChat (s : ChatState Empty) (turn : ActiveTurn Empty) (duration : ℤ) (turnState : TurnState)
    (terminalStatus : Option SessionStatus) (errorPart : Option ErrorResponsePart)
    (modifiedAt : String) : ChatState Empty :=
  let next : ChatState Empty :=
    { s with
      turns := s.turns ++ [Chat.endedTurn turn turnState duration errorPart]
      activeTurn := none
      modifiedAt := modifiedAt }
  { next with status := Chat.summaryStatus next terminalStatus }

/-- Otherwise both leave that chat. -/
theorem endTurn_of_active (legacyParse otherParse : String → Option ℤ) {turn : ActiveTurn Empty}
    {turnId : String} (hturn : Chat.activeTurnOf s turnId = some turn) (duration : ℤ) (turnState : TurnState)
    (terminalStatus : Option SessionStatus) (errorPart : Option ErrorResponsePart) :
    (Go.endTurn otherParse s turnId duration turnState terminalStatus errorPart).map (·.2) =
        (Go.addMillisecondsToTimestamp otherParse turn.startedAt (max 0 duration)).map
          (endedChat s turn duration turnState terminalStatus errorPart) ∧
      Chat.endTurn legacyParse s turnId turnState duration terminalStatus errorPart =
        (addMillisecondsToTimestamp legacyParse turn.startedAt (max 0 duration)).map
          (endedChat s turn duration turnState terminalStatus errorPart) := by
  obtain ⟨hactive, hid⟩ := Chat.activeTurnOf_eq_some.mp hturn
  have hmax : (if duration < 0 then 0 else duration) = max 0 duration := by
    split <;> omega
  constructor
  · unfold Go.endTurn endedChat Chat.endedTurn
    simp only [hactive, hid, ne_eq, not_true_eq_false, if_false, summaryStatus_eq, hmax,
      funext finalPart_eq, Option.map_map]
    cases errorPart <;> simp [Function.comp_def]
  · unfold Chat.endTurn
    rw [hturn]
    rfl

theorem encode_endedChat (hs : Filled s) {turnId : String} {turn : ActiveTurn Empty}
    (hturn : Chat.activeTurnOf s turnId = some turn) (duration : ℤ) (turnState : TurnState)
    (terminalStatus : Option SessionStatus) (errorPart : Option ErrorResponsePart)
    (modifiedAt : String) :
    Go.encodeChatState (endedChat s turn duration turnState terminalStatus errorPart modifiedAt) =
      endedChat s turn duration turnState terminalStatus errorPart modifiedAt := by
  refine encodeChatState_eq_self_iff.mpr (hs.withoutTurn fun other hother part hpart => ?_)
  rcases List.mem_append.mp hother with hother | hother
  · exact hs.turns other hother part hpart
  · rw [List.mem_singleton.mp hother] at hpart
    exact filledPart_of_ended (hs.parts hturn) hpart

/-- The timestamp shows in the chat. -/
theorem endedChat_injective (s : ChatState Empty) (turn : ActiveTurn Empty) (duration : ℤ)
    (turnState : TurnState) (terminalStatus : Option SessionStatus)
    (errorPart : Option ErrorResponsePart) :
    Function.Injective (endedChat s turn duration turnState terminalStatus errorPart) :=
  fun _ _ h => congrArg ChatState.modifiedAt h

/-- An ending agrees if it does not diverge. -/
theorem ending_agrees (hs : Filled s) {e : Chat.Ending} (ha : Chat.ending? a = some e)
    {terminalStatus : Option SessionStatus}
    (hgo : goNext otherParse s a = (Go.endTurn otherParse s e.turnId e.duration e.turnState
      terminalStatus e.errorPart).map (·.2))
    (hts : Chat.chatReducer legacyParse s a =
      Chat.endTurn legacyParse s e.turnId e.turnState e.duration terminalStatus e.errorPart) :
    AgreesUnlessDiverges legacyParse otherParse s a := by
  unfold AgreesUnlessDiverges
  rw [diverges_ending_iff ha, hgo, hts]
  cases hturn : Chat.activeTurnOf s e.turnId with
  | none =>
    obtain ⟨hgo, hts⟩ := endTurn_of_notActive legacyParse otherParse hturn
    rw [hgo, hts]
    exact ⟨fun _ => rfl, fun _ _ => by simp⟩
  | some turn =>
    obtain ⟨hgo, hts⟩ := endTurn_of_active legacyParse otherParse hturn e.duration e.turnState
      terminalStatus e.errorPart
    rw [hgo, hts]
    constructor
    · intro hdiverges
      have hparse : dateParse legacyParse turn.startedAt = dateParse otherParse turn.startedAt := by
        by_contra hne
        exact hdiverges ⟨turn, rfl, .inl hne⟩
      refine congrArg (Option.map _) ?_
      cases hts : dateParse legacyParse turn.startedAt with
      | none => exact addMilliseconds_none hts (hparse ▸ hts) _
      | some t =>
        refine (addMilliseconds_eq_iff hts (hparse ▸ hts) (le_max_left _ _)).mpr ?_
        by_contra hadded
        exact hdiverges ⟨turn, rfl, .inr ⟨t, hts, hadded⟩⟩
    · intro hstart hagrees
      have hencode : Go.encodeChatState ∘ endedChat s turn e.duration e.turnState terminalStatus
          e.errorPart = endedChat s turn e.duration e.turnState terminalStatus e.errorPart :=
        funext fun modifiedAt => encode_endedChat hs hturn _ _ _ _ modifiedAt
      rw [Option.map_map, hencode] at hagrees
      have hadd := Option.map_injective (endedChat_injective _ _ _ _ _ _) hagrees
      obtain ⟨t, ht⟩ := Option.isSome_iff_exists.mp (hstart turn (Chat.activeTurnOf_eq_some.mp hturn).1)
      have hparse : ∀ parse, dateParse parse turn.startedAt = some t := fun parse => by
        simp [dateParse, ht]
      have hadded := (addMilliseconds_eq_iff (hparse legacyParse) (hparse otherParse)
        (le_max_left _ _)).mp hadd
      rintro ⟨turn', ⟨⟩, hne | ⟨t', ht', hnot⟩⟩
      · exact hne ((hparse _).trans (hparse _).symm)
      · rw [hparse] at ht'
        cases ht'
        exact hnot hadded

/-! ### One action -/

/-- Any other action diverges nowhere. -/
theorem not_diverges (hrefreshes : Chat.refreshes a = false) (htarget : Chat.toolCallTarget? a = none)
    (hending : Chat.ending? a = none) (hdelta : ∀ x, a ≠ .delta x) (hreasoning : ∀ x, a ≠ .reasoning x) :
    ¬ Diverges legacyParse otherParse s a := by
  intro h
  cases h with
  | stale _ h =>
    rw [hrefreshes] at h
    cases h
  | emptyOption htc | furtherCall htc =>
    obtain ⟨turnId, id, turn, -, h, -⟩ := htc
    rw [htarget] at h
    cases h
  | delta => exact hdelta _ rfl
  | reasoning => exact hreasoning _ rfl
  | parse ha | ending ha =>
    rw [hending] at ha
    cases ha

/-- **The reducers**: an action that loses nothing agrees if it does not diverge. -/
theorem goNext_agrees (hs : Filled s) (hloses : ¬ Loses s a) :
    AgreesUnlessDiverges legacyParse otherParse s a := by
  cases htarget : Chat.toolCallTarget? a with
  | some id =>
    obtain ⟨turnId, hscope, -⟩ := goNext_toolCall otherParse s htarget
    by_cases hcall : HasCall s turnId id
    · exact toolCall_agrees_of_hasCall hs hscope htarget hcall hloses
    · exact toolCall_agrees_of_stale hs hscope htarget hcall
  | none =>
  have hother : ∀ {s' : ChatState Empty}, Chat.chatReducer legacyParse s a = some s' →
      goNext otherParse s a = some s' → Chat.refreshes a = false → Chat.ending? a = none →
      (∀ x, a ≠ .delta x) → (∀ x, a ≠ .reasoning x) →
      AgreesUnlessDiverges legacyParse otherParse s a := by
    intro s' hts hgo hrefreshes hending hdelta hreasoning
    exact ⟨fun _ => hgo.trans hts.symm,
      fun _ _ => not_diverges hrefreshes htarget hending hdelta hreasoning⟩
  cases a with
  | turnComplete x | turnCancelled x | error x => exact ending_agrees hs rfl rfl rfl
  | delta x => exact delta_agrees hs x
  | reasoning x => exact reasoning_agrees hs x
  | toolCallDelta x | toolCallContentChanged x | toolCallReady x | toolCallConfirmed x
  | toolCallComplete x | toolCallResultConfirmed x | toolCallAuthRequired x
  | toolCallAuthResolved x => cases htarget
  | turnStarted x => exact hother rfl (congrArg some (turnStarted_eq x)) rfl rfl (by simp) (by simp)
  | turnResume x => exact hother rfl (congrArg some (turnResume_eq x)) rfl rfl (by simp) (by simp)
  | truncated x => exact hother rfl (congrArg some (truncated_eq x)) rfl rfl (by simp) (by simp)
  | responsePart x => exact hother rfl (congrArg some (responsePart_eq x)) rfl rfl (by simp) (by simp)
  | toolCallStart x => exact hother rfl (congrArg some (toolCallStart_eq x)) rfl rfl (by simp) (by simp)
  | usage x => exact hother rfl (congrArg some (usage_eq x)) rfl rfl (by simp) (by simp)
  | inputRequested x =>
    exact hother rfl (congrArg some (upsertInputRequest_eq x)) rfl rfl (by simp) (by simp)
  | inputAnswerChanged x =>
    exact hother rfl (congrArg some (answerChanged_eq x)) rfl rfl (by simp) (by simp)
  | inputCompleted x =>
    exact hother rfl (congrArg some (inputCompleted_eq x)) rfl rfl (by simp) (by simp)
  | pendingMessageSet x =>
    exact hother rfl (congrArg some (pendingMessageSet_eq x)) rfl rfl (by simp) (by simp)
  | pendingMessageRemoved x =>
    exact hother rfl (congrArg some (pendingMessageRemoved_eq x)) rfl rfl (by simp) (by simp)
  | queuedMessagesReordered x =>
    exact hother rfl (congrArg some (queuedMessagesReordered_eq x)) rfl rfl (by simp) (by simp)
  | backgroundWorkSet x =>
    exact hother rfl (congrArg some (backgroundWorkSet_eq x)) rfl rfl (by simp) (by simp)
  | backgroundWorkRemoved x =>
    exact hother rfl (congrArg some (backgroundWorkRemoved_eq x)) rfl rfl (by simp) (by simp)
  | workingDirectorySet x =>
    exact hother rfl (congrArg some (workingDirectorySet_eq x)) rfl rfl (by simp) (by simp)
  | workingDirectoryRemoved x =>
    exact hother rfl (congrArg some (workingDirectoryRemoved_eq x)) rfl rfl (by simp) (by simp)
  | configChanged x => exact hother rfl (congrArg some (configChanged_eq x)) rfl rfl (by simp) (by simp)
  | moved x => exact hother rfl (congrArg some (moved_eq x)) rfl rfl (by simp) (by simp)
  | changesetsChanged changesets =>
    have hcopy : Go.copySlice changesets = changesets := by
      refine copySlice_eq_self_iff.mpr ?_
      rintro rfl
      exact hloses .changesets
    have hgo : goNext otherParse s (.changesetsChanged changesets) =
        some { s with changesets := Go.copySlice changesets } := rfl
    rw [hcopy] at hgo
    exact hother rfl hgo rfl rfl (by simp) (by simp)
  | canvasesChanged canvases =>
    have hcopy : Go.copySlice canvases = canvases := by
      refine copySlice_eq_self_iff.mpr ?_
      rintro rfl
      exact hloses .canvases
    have hgo : goNext otherParse s (.canvasesChanged canvases) =
        some { s with canvases := Go.copySlice canvases } := rfl
    rw [hcopy] at hgo
    exact hother rfl hgo rfl rfl (by simp) (by simp)
  | _ => exact hother rfl rfl rfl rfl (by simp) (by simp)

/-- What is written after an action is a chat in which nothing is lost. -/
theorem not_loses_of_agrees (hs : Filled s)
    (h : (goNext otherParse s a).map Go.encodeChatState = Chat.chatReducer legacyParse s a) :
    ¬ Loses s a := by
  intro hloses
  cases hreducer : Chat.chatReducer legacyParse s a with
  | some s' =>
    rw [hreducer, Option.map_eq_some_iff] at h
    obtain ⟨next, -, rfl⟩ := h
    exact (filled_chatReducer_iff hs hreducer).mp (filled_encodeChatState next) hloses
  | none =>
    -- Only an ending can throw, and that loses nothing.
    have hmay := mayLose_of_loses hloses
    cases a <;> first | cases hreducer | cases hmay

/-- Where the generated types hold an action, it is read as it is. -/
theorem applyJson_eq {reencode : Go.Leaf → Json → Option Json} (ha : HeldAction reencode a) :
    Go.applyJson reencode otherParse s a = goNext otherParse s a := by
  simp only [Go.applyJson, goNext, decodeChatAction_of_held ha, Option.bind_eq_bind, Option.bind_some,
    Option.pure_def, Option.map_eq_bind, Function.comp_def]

/-- **One action**: where the generated types hold the action, what Go writes is the TypeScript
chat exactly if the action neither diverges nor loses something. -/
theorem applyJson_agrees_iff {reencode : Go.Leaf → Json → Option Json} (hs : Filled s)
    (hstarts : StartsParse s) (ha : HeldAction reencode a) :
    (Go.applyJson reencode otherParse s a).map Go.encodeChatState = Chat.chatReducer legacyParse s a ↔
      ¬ Diverges legacyParse otherParse s a ∧ ¬ Loses s a := by
  rw [applyJson_eq ha]
  constructor
  · intro h
    have hloses := not_loses_of_agrees hs h
    exact ⟨(goNext_agrees hs hloses).2 hstarts h, hloses⟩
  · rintro ⟨hdiverges, hloses⟩
    rw [(goNext_agrees hs hloses).1 hdiverges]
    cases hreducer : Chat.chatReducer legacyParse s a with
    | none => rfl
    | some s' =>
      exact congrArg some
        (encodeChatState_eq_self_iff.mpr ((filled_chatReducer_iff hs hreducer).mpr hloses))

/-- What each action of a run has to meet. -/
def Kept (reencode : Go.Leaf → Json → Option Json) (legacyParse otherParse : String → Option ℤ)
    (s : ChatState Empty) (a : Chat.Action) : Prop :=
  HeldAction reencode a ∧ ¬ Diverges legacyParse otherParse s a ∧ ¬ Loses s a

/-- Along such a run the Go chat is the TypeScript chat, with nothing empty in it. -/
theorem runs_applyJson {reencode : Go.Leaf → Json → Option Json} {as : List Chat.Action}
    (hs : Filled s) (hg : Guarded (Chat.chatReducer legacyParse) (Kept reencode legacyParse otherParse) s as) :
    runs (Go.applyJson reencode otherParse) s as = runs (Chat.chatReducer legacyParse) s as := by
  induction as generalizing s with
  | nil => rfl
  | cons a as ih =>
    obtain ⟨⟨ha, hdiverges, hloses⟩, hrest⟩ := hg
    have hstep : Go.applyJson reencode otherParse s a = Chat.chatReducer legacyParse s a :=
      (applyJson_eq ha).trans ((goNext_agrees hs hloses).1 hdiverges)
    simp only [runs, hstep]
    cases hreducer : Chat.chatReducer legacyParse s a with
    | none => rfl
    | some s' => exact ih ((filled_chatReducer_iff hs hreducer).mpr hloses) (hrest s' hreducer)

theorem filled_runs {reencode : Go.Leaf → Json → Option Json} {as : List Chat.Action}
    {s' : ChatState Empty} (hs : Filled s)
    (hg : Guarded (Chat.chatReducer legacyParse) (Kept reencode legacyParse otherParse) s as)
    (hr : runs (Chat.chatReducer legacyParse) s as = some s') : Filled s' :=
  runs_invariant (Chat.chatReducer legacyParse)
    (fun hs hkept h => (filled_chatReducer_iff hs h).mpr hkept.2.2) hs hg hr

/-- Types that hold every part as it is. -/
def holdAll : Go.Leaf → Json → Option Json := fun _ part => some part

end AgentHostProtocol.Agreement.GoChat
