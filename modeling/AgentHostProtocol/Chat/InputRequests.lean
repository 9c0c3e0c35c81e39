import AgentHostProtocol.Chat.Tracking

/-!
# The input requests of a turn

An input request is open until it is answered, and the same id may be raised again after that.
`RequestStep` says what an action may do to a part: an open request stays one of the same id or is
answered, and an answered one stays as it is. `RequestEdit` adds that a new request is only
appended where no other of its id is open.

**What is proved** (`inputRequests_settled`): along any run in which requests enter turns through
`chat/inputRequested` only, a turn has at most one open request of an id, an answered part never
changes again, a request that is raised again takes the place of the open one and its answers, and
an answer to a request that is not open changes nothing.
-/

namespace AgentHostProtocol.Chat

open Library

variable {legacyParse : String → Option ℤ} {s s' : ChatState Empty} {a : Action}

/-- A turn has at most one open request of an id. -/
def SingleOpen (parts : List (ResponsePart Empty)) : Prop :=
  ∀ (requestId : String) (i j : ℕ) (x y : ResponsePart Empty), parts[i]? = some x →
    parts[j]? = some y → isOpenRequest requestId x = true → isOpenRequest requestId y = true → i = j

/-- So it is in every turn. -/
structure Tidy (state : ChatState Empty) : Prop where
  active : ∀ turn, state.activeTurn = some turn → SingleOpen turn.responseParts
  done : ∀ turn ∈ state.turns, SingleOpen turn.responseParts

/-- The action brings no request into a turn by another way than `chat/inputRequested`: a part is no
request, and the turns of a page have at most one open request of an id (none if they have no
requests). -/
def EntersAsRequest : Action → Prop
  | .responsePart x => partKind x.part ≠ .inputRequest
  | .turnsLoaded x => ∀ turn ∈ x.turns, SingleOpen turn.responseParts
  | _ => True

/-! ### Parts -/

/-- A request that has been answered. -/
def Answered (part : ResponsePart Empty) : Prop :=
  ∃ x : InputRequestResponsePart, part = .inputRequest x ∧ x.response.isSome = true

/-- What an action may do to a part. -/
structure RequestStep (x y : ResponsePart Empty) : Prop where
  wasOpen : ∀ requestId, isOpenRequest requestId y = true → isOpenRequest requestId x = true
  answered : Answered x → y = x

namespace RequestStep

theorem refl (x : ResponsePart Empty) : RequestStep x x := ⟨fun _ => id, fun _ => rfl⟩

/-- Neither part is a request. -/
theorem of_other {x y : ResponsePart Empty} (hx : partKind x ≠ .inputRequest)
    (hy : partKind y ≠ .inputRequest) : RequestStep x y where
  wasOpen := by
    intro requestId h
    cases y <;> first | cases h | exact absurd rfl hy
  answered := by
    rintro ⟨_, rfl, -⟩
    exact absurd rfl hx

/-- An open request becomes a request of the same id. -/
theorem of_open {part part' : InputRequestResponsePart} (hopen : part.response = none)
    (hid : part'.request.id = part.request.id) :
    RequestStep (.inputRequest part) (.inputRequest part') where
  wasOpen := by
    intro requestId h
    simp only [isOpenRequest, Bool.and_eq_true, decide_eq_true_eq] at h ⊢
    exact ⟨by rw [hopen]; rfl, hid ▸ h.2⟩
  answered := by
    rintro ⟨_, heq, h⟩
    cases heq
    rw [hopen] at h
    cases h

end RequestStep

theorem finalPart_request (part : ResponsePart Empty) : RequestStep part (finalPart part) := by
  cases part with
  | toolCall tc => exact .of_other (by simp [partKind]) (by simp [finalPart, partKind])
  | _ => exact .refl _

/-- What an action may do to the parts of a turn: edit them, and append a part that is not an open
request of an id that is open already. -/
structure RequestEdit (parts parts' : List (ResponsePart Empty)) : Prop where
  split : ∃ edited fresh, parts' = edited ++ fresh ∧ List.Forall₂ RequestStep parts edited ∧
    fresh.length ≤ 1 ∧ ∀ part ∈ fresh, ∀ requestId, isOpenRequest requestId part = true →
      ∀ x ∈ parts, isOpenRequest requestId x = false

namespace RequestEdit

variable {parts parts' : List (ResponsePart Empty)}

theorem of_forall₂ (h : List.Forall₂ RequestStep parts parts') : RequestEdit parts parts' :=
  ⟨parts', [], by simp, h, by simp, by simp⟩

theorem refl (parts : List (ResponsePart Empty)) : RequestEdit parts parts :=
  of_forall₂ (List.forall₂_same.mpr fun x _ => .refl x)

theorem append (parts : List (ResponsePart Empty)) {part : ResponsePart Empty}
    (h : ∀ requestId, isOpenRequest requestId part = true → ∀ x ∈ parts, isOpenRequest requestId x = false) :
    RequestEdit parts (parts ++ [part]) :=
  ⟨parts, [part], rfl, List.forall₂_same.mpr fun x _ => .refl x, by simp, by simpa using h⟩

/-- An open request is replaced by one of its id. -/
theorem set {index : ℕ} {part part' : InputRequestResponsePart} (hpart : parts[index]? = some (.inputRequest part))
    (hopen : part.response = none) (hid : part'.request.id = part.request.id) :
    RequestEdit parts (parts.set index (.inputRequest part')) :=
  of_forall₂ (forall₂_set RequestStep.refl hpart (.of_open hopen hid))

theorem grows (h : RequestEdit parts parts') : Grows RequestStep parts parts' := by
  obtain ⟨edited, fresh, rfl, hedited, -⟩ := h.split
  exact .of_forall₂ hedited fresh

/-- A part that was there has become this one, or this one is last and new. -/
theorem origin (h : RequestEdit parts parts') {i : ℕ} {y : ResponsePart Empty} (hy : parts'[i]? = some y) :
    (∃ x, parts[i]? = some x ∧ RequestStep x y) ∨
      i = parts.length ∧ ∀ requestId, isOpenRequest requestId y = true →
        ∀ x ∈ parts, isOpenRequest requestId x = false := by
  obtain ⟨edited, fresh, rfl, hedited, hlength, hfresh⟩ := h.split
  by_cases hi : i < edited.length
  · rw [List.getElem?_append_left hi] at hy
    exact .inl (exists_of_forall₂_right hedited hy)
  · rw [List.getElem?_append_right (by omega)] at hy
    have hlt := (List.getElem?_eq_some_iff.mp hy).1
    have hsame := hedited.length_eq
    exact .inr ⟨by omega, hfresh y (List.mem_of_getElem? hy)⟩

theorem singleOpen (h : RequestEdit parts parts') (hsingle : SingleOpen parts) : SingleOpen parts' := by
  intro requestId i j x y hx hy hxopen hyopen
  rcases h.origin hx with ⟨x₀, hx₀, hxstep⟩ | ⟨hi, hxfresh⟩
  · rcases h.origin hy with ⟨y₀, hy₀, hystep⟩ | ⟨hj, hyfresh⟩
    · exact hsingle requestId i j x₀ y₀ hx₀ hy₀ (hxstep.wasOpen _ hxopen) (hystep.wasOpen _ hyopen)
    · have hnot := hyfresh requestId hyopen x₀ (List.mem_of_getElem? hx₀)
      rw [hxstep.wasOpen _ hxopen] at hnot
      cases hnot
  · rcases h.origin hy with ⟨y₀, hy₀, hystep⟩ | ⟨hj, -⟩
    · have hnot := hxfresh requestId hxopen y₀ (List.mem_of_getElem? hy₀)
      rw [hystep.wasOpen _ hyopen] at hnot
      cases hnot
    · rw [hi, hj]

end RequestEdit

/-! ### Lookups -/

section

variable {parts : List (ResponsePart Empty)} {requestId : String}

theorem isOpenRequest_eq_true {part : ResponsePart Empty} : isOpenRequest requestId part = true ↔
    ∃ x : InputRequestResponsePart, part = .inputRequest x ∧ x.response = none ∧ x.request.id = requestId := by
  cases part <;> simp [isOpenRequest]

theorem findOpenInputRequestPart_eq_none : findOpenInputRequestPart parts requestId = none ↔
    ∀ part ∈ parts, isOpenRequest requestId part = false := by
  unfold findOpenInputRequestPart
  rw [Option.bind_eq_none_iff]
  constructor
  · intro h part hpart
    by_contra hopen
    cases hidx : parts.findIdx? (isOpenRequest requestId) with
    | none => exact hopen (List.findIdx?_eq_none_iff.mp hidx part hpart)
    | some i =>
      obtain ⟨hi, hmatch, -⟩ := List.findIdx?_eq_some_iff_getElem.mp hidx
      obtain ⟨x, hx, -⟩ := isOpenRequest_eq_true.mp hmatch
      have hnone := h i hidx
      rw [List.getElem?_eq_getElem hi, hx] at hnone
      cases hnone
  · intro h i hidx
    obtain ⟨hi, hmatch, -⟩ := List.findIdx?_eq_some_iff_getElem.mp hidx
    rw [h _ (List.getElem_mem hi)] at hmatch
    cases hmatch

/-- The open request of an id is the one that is found. -/
theorem SingleOpen.find (h : SingleOpen parts) {i : ℕ} {x : InputRequestResponsePart}
    (hx : parts[i]? = some (.inputRequest x)) (hopen : x.response = none) :
    findOpenInputRequestPart parts x.request.id = some (i, x) := by
  have hmatch : isOpenRequest x.request.id (.inputRequest x) = true :=
    isOpenRequest_eq_true.mpr ⟨x, rfl, hopen, rfl⟩
  cases hfind : findOpenInputRequestPart parts x.request.id with
  | none =>
    rw [findOpenInputRequestPart_eq_none.mp hfind _ (List.mem_of_getElem? hx)] at hmatch
    cases hmatch
  | some found =>
    obtain ⟨hy, hyopen, hyid⟩ := findOpenInputRequestPart_eq_some hfind
    have hsame := h _ _ _ _ _ hy hx (isOpenRequest_eq_true.mpr ⟨_, rfl, hyopen, hyid⟩) hmatch
    obtain ⟨j, y⟩ := found
    obtain rfl : j = i := hsame
    rw [hx] at hy
    cases hy
    rfl

end

/-! ### What an action does to the requests of the active turn -/

/-- An active turn that goes on has its requests edited. -/
def Edited (s s' : ChatState Empty) : Prop :=
  ∀ turn turn', s.activeTurn = some turn → s'.activeTurn = some turn' →
    RequestEdit turn.responseParts turn'.responseParts

theorem Edited.of_eq (h : s'.activeTurn = s.activeTurn) : Edited s s' := by
  intro turn turn' hturn hturn'
  rw [h, hturn] at hturn'
  cases hturn'
  exact .refl _

theorem Edited.of_none (h : s'.activeTurn = none) : Edited s s' := by
  intro turn turn' _ hturn'
  rw [h] at hturn'
  cases hturn'

/-- The active turn gets other parts. -/
theorem Edited.of_parts {turn : ActiveTurn Empty} (hturn : s.activeTurn = some turn)
    {parts : List (ResponsePart Empty)} (h : RequestEdit turn.responseParts parts)
    (hturn' : s'.activeTurn = some { turn with responseParts := parts }) : Edited s s' := by
  intro t t' ht ht'
  rw [hturn] at ht
  rw [hturn'] at ht'
  cases ht
  cases ht'
  exact h

theorem updateToolCallInParts_edited (turnId id : String) (f : ToolCallState Empty → ToolCallState Empty) :
    Edited s (updateToolCallInParts s turnId id f) := by
  have hf : ∀ tc, RequestStep (.toolCall tc) (.toolCall (f tc)) :=
    fun tc => .of_other (by simp [partKind]) (by simp [partKind])
  rcases updateToolCallInParts_activeTurn turnId id RequestStep RequestStep.refl hf with
    h | ⟨turn, parts, hturn, hparts, h⟩
  · exact .of_eq h
  · exact .of_parts hturn (.of_forall₂ hparts) h

theorem refresh_edited (turnId id : String) (f : ToolCallState Empty → ToolCallState Empty) :
    Edited s (refreshSummaryStatus (updateToolCallInParts s turnId id f)) :=
  updateToolCallInParts_edited turnId id f

theorem updateResponsePart_edited (turnId id : String) {f : ResponsePart Empty → ResponsePart Empty}
    (hf : ∀ part, RequestStep part (f part)) : Edited s (updateResponsePart s turnId id f) := by
  rcases updateResponsePart_activeTurn turnId id RequestStep RequestStep.refl hf with
    h | ⟨turn, parts, hturn, hparts, h⟩
  · exact .of_eq h
  · exact .of_parts hturn (.of_forall₂ hparts) h

theorem appendPart_edited (turnId : String) {part : ResponsePart Empty} (hpart : partKind part ≠ .inputRequest) :
    Edited s (appendPart s turnId part) := by
  rcases appendPart_cases s turnId part with h | ⟨turn, hturn, h⟩
  · rw [h]
    exact .of_eq rfl
  · rw [h]
    refine .of_parts (activeTurnOf_eq_some.mp hturn).1 (.append _ fun requestId hopen => ?_) rfl
    obtain ⟨x, rfl, -⟩ := isOpenRequest_eq_true.mp hopen
    exact absurd rfl hpart

theorem responsePart_edited (x : ChatResponsePartAction Empty) (hpart : partKind x.part ≠ .inputRequest) :
    Edited s (responsePart s x) := by
  unfold responsePart
  split
  · exact .of_eq rfl
  · exact appendPart_edited _ hpart

theorem upsertInputRequestPart_edited (request : ChatInputRequest) :
    Edited s (upsertInputRequestPart s request) := by
  unfold upsertInputRequestPart
  cases hactive : s.activeTurn with
  | none => exact .of_eq rfl
  | some turn =>
    cases hfind : findOpenInputRequestPart turn.responseParts request.id with
    | none =>
      refine .of_parts hactive (.append turn.responseParts (?_ : ∀ requestId,
        isOpenRequest requestId (.inputRequest ⟨request, none⟩) = true → _)) ?_
      · intro requestId hopen
        obtain ⟨_, heq, -, hid⟩ := isOpenRequest_eq_true.mp hopen
        cases heq
        exact hid ▸ findOpenInputRequestPart_eq_none.mp hfind
      · simp only [hfind]
        rfl
    | some found =>
      obtain ⟨hpart, hopen, hid⟩ := findOpenInputRequestPart_eq_some hfind
      have hset : RequestEdit turn.responseParts (turn.responseParts.set found.1 (.inputRequest
          ⟨{ request with answers := request.answers.or found.2.request.answers }, none⟩)) :=
        .set hpart hopen hid.symm
      refine .of_parts hactive hset ?_
      simp only [hfind]
      rfl

theorem inputAnswerChanged_edited (x : ChatInputAnswerChangedAction) : Edited s (inputAnswerChanged s x) := by
  unfold inputAnswerChanged
  cases hactive : s.activeTurn with
  | none => exact .of_eq rfl
  | some turn =>
    simp only
    split
    · exact .of_eq rfl
    · next index part hfind =>
      obtain ⟨hpart, hopen, -⟩ := findOpenInputRequestPart_eq_some hfind
      refine .of_parts hactive ?_ rfl
      exact .set hpart hopen rfl

theorem inputCompleted_edited (x : ChatInputCompletedAction) : Edited s (inputCompleted s x) := by
  unfold inputCompleted
  cases hactive : s.activeTurn with
  | none => exact .of_eq rfl
  | some turn =>
    simp only
    split
    · exact .of_eq rfl
    · next index part hfind =>
      obtain ⟨hpart, hopen, -⟩ := findOpenInputRequestPart_eq_some hfind
      refine .of_parts hactive ?_ rfl
      exact .set hpart hopen rfl

theorem endTurn_edited {turnId : String} {turnState : TurnState} {duration : ℤ}
    {terminalStatus : Option SessionStatus} {errorPart : Option ErrorResponsePart}
    (h : endTurn legacyParse s turnId turnState duration terminalStatus errorPart = some s') :
    Edited s s' := by
  unfold endTurn at h
  split at h
  · cases h
    exact .of_eq rfl
  · obtain ⟨modifiedAt, -, rfl⟩ := Option.map_eq_some_iff.mp h
    exact .of_none rfl

theorem turnResume_edited (turnId : String) : Edited s (turnResume s turnId) := by
  unfold turnResume
  split
  · next hactive _ =>
    intro turn _ hturn
    rw [hactive] at hturn
    cases hturn
  · exact .of_eq rfl

/-- Every action but the start of a turn edits the requests of the active turn or drops it. -/
theorem chatReducer_edited (h : chatReducer legacyParse s a = some s') (ha : EntersAsRequest a)
    (hstarted : ∀ x, a ≠ .turnStarted x) : Edited s s' := by
  cases a with
  | turnStarted x => exact absurd rfl (hstarted x)
  | turnComplete x | turnCancelled x | error x => exact endTurn_edited h
  | turnResume turnId => cases h; exact turnResume_edited turnId
  | delta x =>
    cases h
    refine updateResponsePart_edited _ _ fun part => ?_
    cases part with
    | markdown part => exact .of_other (by simp [partKind]) (by simp [deltaPart, partKind])
    | _ => exact .refl _
  | reasoning x =>
    cases h
    refine updateResponsePart_edited _ _ fun part => ?_
    cases part with
    | reasoning part => exact .of_other (by simp [partKind]) (by simp [reasoningPart, partKind])
    | _ => exact .refl _
  | responsePart x => cases h; exact responsePart_edited x ha
  | toolCallStart x => cases h; exact appendPart_edited _ (by simp [partKind])
  | toolCallDelta x | toolCallContentChanged x => cases h; exact updateToolCallInParts_edited _ _ _
  | toolCallReady x | toolCallConfirmed x | toolCallComplete x | toolCallResultConfirmed x
  | toolCallAuthRequired x | toolCallAuthResolved x => cases h; exact refresh_edited _ _ _
  | usage x =>
    cases h
    unfold usage
    split
    · exact .of_eq rfl
    · next turn hturn =>
      intro t t' ht ht'
      rw [(activeTurnOf_eq_some.mp hturn).1] at ht
      cases ht
      cases ht'
      exact .refl _
  | truncated turnId =>
    cases h
    unfold truncated
    split
    · exact .of_eq rfl
    · exact .of_none rfl
  | inputRequested request => cases h; exact upsertInputRequestPart_edited request
  | inputAnswerChanged x => cases h; exact inputAnswerChanged_edited x
  | inputCompleted x => cases h; exact inputCompleted_edited x
  | backgroundWorkRemoved id =>
    cases h
    unfold backgroundWorkRemoved
    split <;> exact .of_eq rfl
  | workingDirectorySet directory =>
    cases h
    unfold workingDirectorySet
    simp only
    split <;> exact .of_eq rfl
  | workingDirectoryRemoved directory =>
    cases h
    unfold workingDirectoryRemoved
    split
    · exact .of_eq rfl
    · split <;> exact .of_eq rfl
  | pendingMessageRemoved x =>
    cases h
    refine .of_eq ?_
    unfold pendingMessageRemoved
    simp only
    split <;> split <;> rfl
  | queuedMessagesReordered order =>
    cases h
    unfold queuedMessagesReordered
    split <;> exact .of_eq rfl
  | _ => cases h; exact .of_eq rfl

/-! ### Along a run -/

theorem singleOpen_nil : SingleOpen [] := by
  intro requestId i j x y hx
  cases hx

/-- The end of a turn edits its requests: it leaves them, and appends no other. -/
theorem endedTurn_request (turn : ActiveTurn Empty) (turnState : TurnState) (duration : ℤ)
    (errorPart : Option ErrorResponsePart) :
    RequestEdit turn.responseParts (endedTurn turn turnState duration errorPart).responseParts := by
  refine ⟨_, _, rfl, forall₂_map finalPart_request, ?_, ?_⟩
  · cases errorPart <;> simp
  · intro part hpart requestId hopen
    obtain ⟨x, rfl, -⟩ := isOpenRequest_eq_true.mp hopen
    cases errorPart <;> simp at hpart

theorem tidy_step (hs : Tidy s) (ha : EntersAsRequest a) (h : chatReducer legacyParse s a = some s') :
    Tidy s' := by
  cases chatReducer_effect h with
  | within hactive hturns hfollow _ =>
    have hstarted : ∀ x, a ≠ .turnStarted x := by
      rintro x rfl
      cases hfollow .active
    refine ⟨fun turn' hturn' => ?_, hturns ▸ hs.done⟩
    obtain ⟨turn, hturn⟩ := Option.isSome_iff_exists.mp
      (hactive.isSome_eq.symm.trans (by rw [hturn']; rfl))
    exact (chatReducer_edited h ha hstarted turn turn' hturn hturn').singleOpen (hs.active turn hturn)
  | started x hactive _ hparts hturns _ =>
    refine ⟨fun turn' hturn' => ?_, hturns ▸ hs.done⟩
    rw [hactive] at hturn'
    cases hturn'
    rw [hparts]
    exact singleOpen_nil
  | ended e _ hturn hactive hturns _ =>
    refine ⟨fun turn' hturn' => (by rw [hactive] at hturn'; cases hturn'), fun turn' hturn' => ?_⟩
    rw [hturns] at hturn'
    rcases List.mem_append.mp hturn' with hold | hnew
    · exact hs.done turn' hold
    · rw [List.mem_singleton.mp hnew]
      exact (endedTurn_request _ _ _ _).singleOpen (hs.active _ (activeTurnOf_eq_some.mp hturn).1)
  | cut turnId hkept hactive _ =>
    refine ⟨fun turn' hturn' => (by rw [hactive] at hturn'; cases hturn'), fun turn' hturn' => ?_⟩
    rw [keptTurns_eq_take hkept] at hturn'
    exact hs.done turn' (List.mem_of_mem_take hturn')
  | resumed turnId turn _ hturns hactive _ =>
    refine ⟨fun turn' hturn' => ?_, fun turn' hturn' => hs.done turn' ?_⟩
    · rw [hactive] at hturn'
      cases hturn'
      exact hs.done turn (by rw [hturns]; exact List.mem_append_right _ List.mem_cons_self)
    · rw [hturns]
      exact List.mem_append_left _ hturn'
  | loaded x hactive hturns _ =>
    refine ⟨hactive ▸ hs.active, fun turn' hturn' => ?_⟩
    rw [hturns] at hturn'
    rcases List.mem_append.mp hturn' with hnew | hold
    · exact ha turn' (List.mem_filter.mp hnew).1
    · exact hs.done turn' hold

/-- What is kept of the parts of a turn: the answered requests. -/
def KeepsAnswered (v v' : String × List (ResponsePart Empty)) : Prop :=
  v'.1 = v.1 ∧ Grows (fun x y => Answered x → y = x) v.2 v'.2

theorem turnAt_answered {r r' : TurnRef} {v : String × List (ResponsePart Empty)}
    (ha : EntersAsRequest a) (h : chatReducer legacyParse s a = some s') (hf : follow s a r = some r')
    (hv : turnAt s r = some v) : ∃ v', turnAt s' r' = some v' ∧ KeepsAnswered v v' := by
  obtain ⟨v', hv', hid, hgrows⟩ := turnAt_follow_of RequestStep.refl finalPart_request h
    (fun hstarted turn turn' hturn hturn' => (chatReducer_edited h ha hstarted turn turn' hturn hturn').grows)
    hf hv
  exact ⟨v', hv', hid, hgrows.mono RequestStep.answered⟩

/-- A request that is raised again takes the place of the open one, and its answers unless it has
its own. -/
theorem inputRequested_open (hs : Tidy s) {turn : ActiveTurn Empty} (hturn : s.activeTurn = some turn)
    {i : ℕ} {x : InputRequestResponsePart} (hx : turn.responseParts[i]? = some (.inputRequest x))
    (hopen : x.response = none) {request : ChatInputRequest} (hid : x.request.id = request.id) :
    (upsertInputRequestPart s request).activeTurn = some { turn with
      responseParts := turn.responseParts.set i (.inputRequest
        ⟨{ request with answers := request.answers.or x.request.answers }, none⟩) } := by
  have hfind := (hs.active turn hturn).find hx hopen
  rw [hid] at hfind
  simp only [upsertInputRequestPart, hturn, hfind]
  rfl

/-- Answers to a request that is not open change nothing. -/
theorem answers_not_open {requestId : String}
    (hnot : ∀ turn, s.activeTurn = some turn →
      ∀ part ∈ turn.responseParts, isOpenRequest requestId part = false) :
    (∀ x, x.requestId = requestId → inputAnswerChanged s x = s) ∧
      ∀ x, x.requestId = requestId → inputCompleted s x = s := by
  cases hturn : s.activeTurn with
  | none => constructor <;> intro x _ <;> simp only [inputAnswerChanged, inputCompleted, hturn]
  | some turn =>
    have hfind := findOpenInputRequestPart_eq_none.mpr (hnot turn hturn)
    constructor
    · rintro x rfl
      simp only [inputAnswerChanged, hturn, hfind]
    · rintro x rfl
      simp only [inputCompleted, hturn, hfind]

/-- **Input requests**, in every run in which requests enter turns through `chat/inputRequested`
only, from any state in which turns have at most one open request of an id.

* So they have where the run ends.
* A request that is answered where the run begins is found where its turn is, at its index and as
  it was.
* A request that is raised again takes the place of the open one, and its answers unless it has its
  own.
* Answers to a request that is not open change nothing. -/
theorem inputRequests_settled (legacyParse : String → Option ℤ) (hs : Tidy s) (actions : List Action)
    (hactions : ∀ a ∈ actions, EntersAsRequest a)
    (hrun : runs (chatReducer legacyParse) s actions = some s') :
    Tidy s' ∧
    (∀ r r' turnId parts, followRun (chatReducer legacyParse) follow s actions r = some r' →
      turnAt s r = some (turnId, parts) → ∃ parts', turnAt s' r' = some (turnId, parts') ∧
        ∀ (i : ℕ) (x : InputRequestResponsePart), parts[i]? = some (.inputRequest x) →
          x.response.isSome = true → parts'[i]? = some (.inputRequest x)) ∧
    (∀ (request : ChatInputRequest) (turn : ActiveTurn Empty) (i : ℕ) (x : InputRequestResponsePart),
      s'.activeTurn = some turn → turn.responseParts[i]? = some (.inputRequest x) →
      x.response = none → x.request.id = request.id →
      ∃ s'', chatReducer legacyParse s' (.inputRequested request) = some s'' ∧
        s''.activeTurn = some { turn with
          responseParts := turn.responseParts.set i (.inputRequest
            ⟨{ request with answers := request.answers.or x.request.answers }, none⟩) }) ∧
    ∀ requestId, (∀ turn, s'.activeTurn = some turn →
        ∀ part ∈ turn.responseParts, isOpenRequest requestId part = false) →
      (∀ x, x.requestId = requestId → chatReducer legacyParse s' (.inputAnswerChanged x) = some s') ∧
        ∀ x, x.requestId = requestId → chatReducer legacyParse s' (.inputCompleted x) = some s' := by
  have hguarded := guarded_of_forall (chatReducer legacyParse) hactions s
  have htidy := runs_invariant (chatReducer legacyParse) tidy_step hs hguarded hrun
  refine ⟨htidy, fun r r' turnId parts hf hv => ?_, fun request turn i x hturn hx hopen hid => ?_,
    fun requestId hnot => ?_⟩
  · have hrefl : ∀ v, KeepsAnswered v v := fun v => ⟨rfl, .refl (fun _ _ => rfl) _⟩
    have htrans : ∀ {u v w}, KeepsAnswered u v → KeepsAnswered v w → KeepsAnswered u w := by
      intro u v w huv hvw
      refine ⟨hvw.1.trans huv.1, huv.2.trans (fun h h' hx => ?_) hvw.2⟩
      have hy := h hx
      subst hy
      exact h' hx
    obtain ⟨⟨turnId', parts'⟩, hv', rfl, hgrows⟩ :=
      runs_tracked_of_guarded (chatReducer legacyParse) follow turnAt hrefl htrans turnAt_answered
        hguarded hrun hf hv
    refine ⟨parts', hv', fun i x hx hanswered => ?_⟩
    obtain ⟨y, hy, hsame⟩ := hgrows i _ hx
    exact hsame ⟨x, rfl, hanswered⟩ ▸ hy
  · exact ⟨_, rfl, inputRequested_open htidy hturn hx hopen hid⟩
  · obtain ⟨hchanged, hcompleted⟩ := answers_not_open hnot
    exact ⟨fun x hx => congrArg some (hchanged x hx), fun x hx => congrArg some (hcompleted x hx)⟩

/-- A turn whose request has been accepted. -/
def accepted : ChatState Empty :=
  inputCompleted
    (upsertInputRequestPart
      (turnStarted (ChatState.new "ahp-chat:/c" "Chat" "2025-03-10T18:00:00.000Z")
        ⟨"t1", "2025-03-10T18:42:03.000Z", ⟨"hello"⟩, none⟩)
      ⟨"q", some "Which?", none, none, none⟩)
    ⟨"q", .accept, none⟩

/-- The request is raised again and the turn ends; the answered part is where it was. -/
theorem inputRequests_settled_accepted : ∃ s' parts',
    runs (chatReducer fun _ => none) accepted
      [.inputRequested ⟨"q", none, none, none, none⟩, .turnComplete ⟨"t1", 1000⟩] = some s' ∧
    turnAt s' (.done 0) = some ("t1", parts') ∧
    parts'[0]? = some (.inputRequest ⟨⟨"q", some "Which?", none, none, none⟩, some .accept⟩) := by
  have hnew : Tidy (ChatState.new "ahp-chat:/c" "Chat" "2025-03-10T18:00:00.000Z") :=
    ⟨fun _ h => (by cases h), fun _ h => (by cases h)⟩
  have htidy : Tidy accepted := (inputRequests_settled (fun _ => none) hnew
    [.turnStarted ⟨"t1", "2025-03-10T18:42:03.000Z", ⟨"hello"⟩, none⟩,
      .inputRequested ⟨"q", some "Which?", none, none, none⟩, .inputCompleted ⟨"q", .accept, none⟩]
    (by simp [EntersAsRequest]) rfl).1
  obtain ⟨parts', hparts, hkept⟩ := (inputRequests_settled (fun _ => none) htidy
    [.inputRequested ⟨"q", none, none, none, none⟩, .turnComplete ⟨"t1", 1000⟩]
    (by simp [EntersAsRequest]) rfl).2.1 .active (.done 0) "t1" _ rfl rfl
  exact ⟨_, parts', rfl, hparts, hkept 0 _ rfl rfl⟩

end AgentHostProtocol.Chat
