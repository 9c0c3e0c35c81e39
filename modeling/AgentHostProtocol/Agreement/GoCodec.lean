import AgentHostProtocol.Agreement.ChatReducer
import AgentHostProtocol.Go.Codec

/-!
# What the Go types hold

A chat is written as it was read when

* no list or object behind `omitempty` is there and empty (`Filled`), and
* the generated types hold each part as it is, and each integer (`Held`).

The first is needed of every chat that is written (`encodeChatState_eq_self_iff`), the second of
the chat and the actions that are read.
-/

namespace AgentHostProtocol.Agreement.GoChat

open Library

/-! ### Nothing empty -/

structure FilledResult (result : ToolCallResult) : Prop where
  content : result.content ≠ some []
  structuredContent : result.structuredContent ≠ some Go.emptyObject
  resultMetadata : result.resultMetadata ≠ some Go.emptyObject

/-- Nothing empty in the fields of the status of a call. -/
def FilledPayload : ToolCallState Empty → Prop
  | .pendingConfirmation v => v.options ≠ some []
  | .running v => v.content ≠ some []
  | .authRequired v => v.content ≠ some []
  | .pendingResultConfirmation v => FilledResult v.toToolCallResult
  | .completed v => FilledResult v.toToolCallResult
  | .streaming _ | .cancelled _ => True

structure FilledCall (tc : ToolCallState Empty) : Prop where
  metadata : (Chat.tcBase tc)._meta ≠ some Go.emptyObject
  payload : FilledPayload tc

structure FilledRequest (request : ChatInputRequest) : Prop where
  questions : request.questions ≠ some []
  answers : request.answers ≠ some Record.empty

def FilledPart : ResponsePart Empty → Prop
  | .toolCall tc => FilledCall tc
  | .inputRequest part => FilledRequest part.request
  | _ => True

def FilledWork : BackgroundWork Empty → Prop
  | .shell base _ _ | .subagent base _ => base._meta ≠ some Go.emptyObject

/-- No list or object behind `omitempty` is there and empty. -/
structure Filled (s : ChatState Empty) : Prop where
  workingDirectories : s.workingDirectories ≠ some []
  changesets : s.changesets ≠ some []
  canvases : s.canvases ≠ some []
  queuedMessages : s.queuedMessages ≠ some []
  backgroundWork : ∀ l ∈ s.backgroundWork, ∀ work ∈ l, FilledWork work
  turns : ∀ turn ∈ s.turns, ∀ part ∈ turn.responseParts, FilledPart part
  activeTurn : ∀ turn ∈ s.activeTurn, ∀ part ∈ turn.responseParts, FilledPart part
  metadata : s._meta ≠ some Go.emptyObject

theorem omitEmpty_eq_self_iff {α : Type} {slice : Option (List α)} :
    Go.omitEmpty slice = slice ↔ slice ≠ some [] := by
  rcases slice with _ | l
  · simp [Go.omitEmpty]
  · cases l <;> simp [Go.omitEmpty, Option.filter]

theorem copySlice_eq_self_iff {α : Type} {slice : Option (List α)} :
    Go.copySlice slice = slice ↔ slice ≠ some [] := omitEmpty_eq_self_iff

theorem omitEmptyObject_eq_self_iff {object : Option Json} :
    Go.omitEmptyObject object = object ↔ object ≠ some Go.emptyObject := by
  rcases object with _ | o
  · simp [Go.omitEmptyObject]
  · by_cases ho : o = Go.emptyObject <;> simp [Go.omitEmptyObject, Option.filter, ho]

theorem omitEmptyMap_eq_self_iff {map : Option (Record Json)} :
    Go.omitEmptyMap map = map ↔ map ≠ some Record.empty := by
  rcases map with _ | r
  · simp [Go.omitEmptyMap]
  · have hempty : r.isEmpty = true ↔ r = Record.empty := by
      rcases r with ⟨_ | _, _⟩ <;> simp [Record.isEmpty, Record.empty]
    by_cases hr : r = Record.empty
    · subst hr
      exact iff_of_false (by rintro ⟨⟩) (not_not.mpr rfl)
    · simp [Go.omitEmptyMap, Option.filter, hempty, hr]

theorem encodeResult_eq_self_iff {result : ToolCallResult} :
    Go.encodeResult result = result ↔ FilledResult result := by
  constructor
  · intro h
    exact ⟨omitEmpty_eq_self_iff.mp (congrArg ToolCallResult.content h),
      omitEmptyObject_eq_self_iff.mp (congrArg ToolCallResult.structuredContent h),
      omitEmptyObject_eq_self_iff.mp (congrArg ToolCallResult.resultMetadata h)⟩
  · intro h
    unfold Go.encodeResult
    rw [omitEmpty_eq_self_iff.mpr h.content, omitEmptyObject_eq_self_iff.mpr h.structuredContent,
      omitEmptyObject_eq_self_iff.mpr h.resultMetadata]

theorem encodeBase_eq_self_iff {base : ToolCallBase Empty} :
    Go.encodeBase base = base ↔ base._meta ≠ some Go.emptyObject := by
  rw [← omitEmptyObject_eq_self_iff]
  constructor
  · exact congrArg ToolCallBase._meta
  · intro h
    unfold Go.encodeBase
    rw [h]

theorem encodeToolCall_eq_self_iff {tc : ToolCallState Empty} :
    Go.encodeToolCall tc = tc ↔ FilledCall tc := by
  constructor
  · intro h
    have hmeta : (Chat.tcBase tc)._meta ≠ some Go.emptyObject := by
      rw [← encodeBase_eq_self_iff]
      have hbase := congrArg Chat.tcBase h
      cases tc with
      | unknown raw => exact raw.elim
      | _ => exact hbase
    refine ⟨hmeta, ?_⟩
    cases tc with
    | streaming v | cancelled v => exact trivial
    | pendingConfirmation v =>
      have hoptions := congrArg ToolCallPendingConfirmationState.options
        (ToolCallState.pendingConfirmation.inj h)
      exact omitEmpty_eq_self_iff.mp hoptions
    | running v =>
      have hcontent := congrArg ToolCallRunningState.content (ToolCallState.running.inj h)
      exact omitEmpty_eq_self_iff.mp hcontent
    | authRequired v =>
      have hcontent := congrArg ToolCallAuthRequiredState.content (ToolCallState.authRequired.inj h)
      exact omitEmpty_eq_self_iff.mp hcontent
    | pendingResultConfirmation v =>
      have hresult := congrArg ToolCallPendingResultConfirmationState.toToolCallResult
        (ToolCallState.pendingResultConfirmation.inj h)
      exact encodeResult_eq_self_iff.mp hresult
    | completed v =>
      have hresult := congrArg ToolCallCompletedState.toToolCallResult
        (ToolCallState.completed.inj h)
      exact encodeResult_eq_self_iff.mp hresult
    | unknown raw => exact raw.elim
  · rintro ⟨hmeta, hpayload⟩
    cases tc with
    | streaming v | cancelled v =>
      have hbase := encodeBase_eq_self_iff.mpr hmeta
      simp only [Chat.tcBase] at hbase
      simp only [Go.encodeToolCall, hbase]
    | pendingConfirmation v | running v | authRequired v =>
      have hbase := encodeBase_eq_self_iff.mpr hmeta
      simp only [Chat.tcBase] at hbase
      simp only [Go.encodeToolCall, hbase, omitEmpty_eq_self_iff.mpr hpayload]
    | pendingResultConfirmation v | completed v =>
      have hbase := encodeBase_eq_self_iff.mpr hmeta
      simp only [Chat.tcBase] at hbase
      simp only [Go.encodeToolCall, hbase, encodeResult_eq_self_iff.mpr hpayload]
    | unknown raw => exact raw.elim

theorem encodeRequest_eq_self_iff {request : ChatInputRequest} :
    Go.encodeRequest request = request ↔ FilledRequest request := by
  constructor
  · intro h
    exact ⟨omitEmpty_eq_self_iff.mp (congrArg ChatInputRequest.questions h),
      omitEmptyMap_eq_self_iff.mp (congrArg ChatInputRequest.answers h)⟩
  · intro h
    unfold Go.encodeRequest
    rw [omitEmpty_eq_self_iff.mpr h.questions, omitEmptyMap_eq_self_iff.mpr h.answers]

theorem encodePart_eq_self_iff {part : ResponsePart Empty} :
    Go.encodePart part = part ↔ FilledPart part := by
  cases part with
  | toolCall tc => exact ResponsePart.toolCall.injEq _ _ ▸ encodeToolCall_eq_self_iff
  | inputRequest part =>
    rw [FilledPart, ← encodeRequest_eq_self_iff]
    constructor
    · intro h
      exact congrArg InputRequestResponsePart.request (ResponsePart.inputRequest.inj h)
    · intro h
      simp only [Go.encodePart, h]
  | _ => exact iff_of_true rfl trivial

theorem encodeWork_eq_self_iff {work : BackgroundWork Empty} :
    Go.encodeWork work = work ↔ FilledWork work := by
  cases work with
  | shell base command terminal =>
    rw [FilledWork, ← omitEmptyObject_eq_self_iff]
    constructor
    · intro h
      exact congrArg BackgroundWorkBase._meta (BackgroundWork.shell.inj h).1
    · intro h
      simp only [Go.encodeWork, h]
  | subagent base chat =>
    rw [FilledWork, ← omitEmptyObject_eq_self_iff]
    constructor
    · intro h
      exact congrArg BackgroundWorkBase._meta (BackgroundWork.subagent.inj h).1
    · intro h
      simp only [Go.encodeWork, h]
  | unknown raw => exact raw.elim

/-- A function leaves a list alone when it leaves its elements alone. -/
theorem map_eq_self_iff {α : Type} {f : α → α} {l : List α} : l.map f = l ↔ ∀ x ∈ l, f x = x := by
  conv_lhs => rhs; rw [← List.map_id l]
  rw [List.map_inj_left]
  rfl

theorem encodeParts_eq_self_iff {parts : List (ResponsePart Empty)} :
    parts.map Go.encodePart = parts ↔ ∀ part ∈ parts, FilledPart part := by
  rw [map_eq_self_iff]
  exact forall₂_congr fun _ _ => encodePart_eq_self_iff

theorem encodeTurn_eq_self_iff {turn : Turn Empty} :
    Go.encodeTurn turn = turn ↔ ∀ part ∈ turn.responseParts, FilledPart part := by
  rw [← encodeParts_eq_self_iff]
  constructor
  · exact congrArg Turn.responseParts
  · intro h
    unfold Go.encodeTurn
    rw [h]

theorem encodeActiveTurn_eq_self_iff {turn : ActiveTurn Empty} :
    Go.encodeActiveTurn turn = turn ↔ ∀ part ∈ turn.responseParts, FilledPart part := by
  rw [← encodeParts_eq_self_iff]
  constructor
  · exact congrArg ActiveTurn.responseParts
  · intro h
    unfold Go.encodeActiveTurn
    rw [h]

theorem map_option_eq_self_iff {α : Type} {f : α → α} {o : Option α} :
    o.map f = o ↔ ∀ x ∈ o, f x = x := by
  cases o <;> simp

/-- A chat is written as it is exactly if nothing in it is there and empty. -/
theorem encodeChatState_eq_self_iff {s : ChatState Empty} : Go.encodeChatState s = s ↔ Filled s := by
  constructor
  · intro h
    refine
      { workingDirectories := omitEmpty_eq_self_iff.mp (congrArg ChatState.workingDirectories h)
        changesets := omitEmpty_eq_self_iff.mp (congrArg ChatState.changesets h)
        canvases := omitEmpty_eq_self_iff.mp (congrArg ChatState.canvases h)
        queuedMessages := omitEmpty_eq_self_iff.mp (congrArg ChatState.queuedMessages h)
        backgroundWork := fun l hl work hwork => ?_
        turns := fun turn hturn => ?_
        activeTurn := fun turn hturn => ?_
        metadata := omitEmptyObject_eq_self_iff.mp (congrArg ChatState._meta h) }
    · have hlist := map_option_eq_self_iff.mp (congrArg ChatState.backgroundWork h) l hl
      exact encodeWork_eq_self_iff.mp (map_eq_self_iff.mp hlist work hwork)
    · have hturns := map_eq_self_iff.mp (congrArg ChatState.turns h)
      exact encodeTurn_eq_self_iff.mp (hturns turn hturn)
    · have hactive := map_option_eq_self_iff.mp (congrArg ChatState.activeTurn h)
      exact encodeActiveTurn_eq_self_iff.mp (hactive turn hturn)
  · intro h
    have hwork : (s.backgroundWork.map fun list => list.map Go.encodeWork) = s.backgroundWork := by
      refine map_option_eq_self_iff.mpr fun l hl => map_eq_self_iff.mpr fun work hwork => ?_
      exact encodeWork_eq_self_iff.mpr (h.backgroundWork l hl work hwork)
    have hturns : s.turns.map Go.encodeTurn = s.turns :=
      map_eq_self_iff.mpr fun turn hturn => encodeTurn_eq_self_iff.mpr (h.turns turn hturn)
    have hactive : s.activeTurn.map Go.encodeActiveTurn = s.activeTurn :=
      map_option_eq_self_iff.mpr fun turn hturn =>
        encodeActiveTurn_eq_self_iff.mpr (h.activeTurn turn hturn)
    unfold Go.encodeChatState
    rw [omitEmpty_eq_self_iff.mpr h.workingDirectories, omitEmpty_eq_self_iff.mpr h.changesets,
      omitEmpty_eq_self_iff.mpr h.canvases, omitEmpty_eq_self_iff.mpr h.queuedMessages, hwork, hturns,
      hactive, omitEmptyObject_eq_self_iff.mpr h.metadata]

theorem omitEmpty_ne {α : Type} (slice : Option (List α)) : Go.omitEmpty slice ≠ some [] := by
  intro h
  have hempty := (Option.filter_eq_some_iff.mp h).2
  simp at hempty

theorem omitEmptyObject_ne (object : Option Json) :
    Go.omitEmptyObject object ≠ some Go.emptyObject := by
  intro h
  have hempty := (Option.filter_eq_some_iff.mp h).2
  simp at hempty

theorem filledPart_encodePart (part : ResponsePart Empty) : FilledPart (Go.encodePart part) := by
  cases part with
  | toolCall tc =>
    cases tc with
    | streaming v | cancelled v => exact ⟨omitEmptyObject_ne _, trivial⟩
    | pendingConfirmation v | running v | authRequired v =>
      exact ⟨omitEmptyObject_ne _, omitEmpty_ne _⟩
    | pendingResultConfirmation v | completed v =>
      exact ⟨omitEmptyObject_ne _, omitEmpty_ne _, omitEmptyObject_ne _, omitEmptyObject_ne _⟩
    | unknown raw => exact raw.elim
  | inputRequest part =>
    refine ⟨omitEmpty_ne _, fun h => ?_⟩
    have hempty := (Option.filter_eq_some_iff.mp h).2
    simp [Record.isEmpty, Record.empty] at hempty
  | unknown raw => exact raw.elim
  | _ => exact trivial

/-- What is written has nothing empty in it. -/
theorem filled_encodeChatState (s : ChatState Empty) : Filled (Go.encodeChatState s) := by
  refine
    { workingDirectories := omitEmpty_ne _
      changesets := omitEmpty_ne _
      canvases := omitEmpty_ne _
      queuedMessages := omitEmpty_ne _
      backgroundWork := fun l hl work hwork => ?_
      turns := fun turn hturn part hpart => ?_
      activeTurn := fun turn hturn part hpart => ?_
      metadata := omitEmptyObject_ne _ }
  · obtain ⟨list, -, rfl⟩ := Option.map_eq_some_iff.mp hl
    obtain ⟨old, -, rfl⟩ := List.mem_map.mp hwork
    cases old with
    | shell base command terminal => exact omitEmptyObject_ne _
    | subagent base chat => exact omitEmptyObject_ne _
    | unknown raw => exact raw.elim
  · obtain ⟨old, -, rfl⟩ := List.mem_map.mp hturn
    obtain ⟨old, -, rfl⟩ := List.mem_map.mp hpart
    exact filledPart_encodePart old
  · obtain ⟨old, -, rfl⟩ := Option.map_eq_some_iff.mp hturn
    obtain ⟨old, -, rfl⟩ := List.mem_map.mp hpart
    exact filledPart_encodePart old

/-! ### Held as it is -/

/-- The range of an `int64`. -/
def HeldInt (n : ℤ) : Prop := -9223372036854775808 ≤ n ∧ n ≤ 9223372036854775807

section

variable (reencode : Go.Leaf → Json → Option Json)

/-- The generated type holds the part as it is. -/
def Held (kind : Go.Leaf) (part : Json) : Prop := reencode kind part = some part

def HeldInput : ToolInput → Prop
  | .inline _ => True
  | .contentRef ref => Held reencode .contentRef ref

def HeldOption (o : ConfirmationOption) : Prop :=
  Held reencode .confirmationOptionKind o.kind ∧ ∀ n ∈ o.group, HeldInt n

def HeldContent (content : List Json) : Prop := ∀ part ∈ content, Held reencode .toolResultContent part

/-- Each part of a call, by the fields of its status. -/
def HeldCall : ToolCallState Empty → Prop
  | .streaming _ => True
  | .pendingConfirmation v =>
    (∀ input ∈ v.toolInput, HeldInput reencode input) ∧
      (∀ risk ∈ v.riskAssessment, Held reencode .toolCallRiskAssessment risk) ∧
      (∀ edits ∈ v.edits, Held reencode .fileEditCollection edits) ∧
      ∀ options ∈ v.options, ∀ o ∈ options, HeldOption reencode o
  | .running v =>
    (∀ input ∈ v.toolInput, HeldInput reencode input) ∧
      (∀ o ∈ v.selectedOption, HeldOption reencode o) ∧
      ∀ content ∈ v.content, HeldContent reencode content
  | .authRequired v =>
    (∀ input ∈ v.toolInput, HeldInput reencode input) ∧
      (∀ o ∈ v.selectedOption, HeldOption reencode o) ∧ Held reencode .mcpAuthRequirement v.auth ∧
      ∀ content ∈ v.content, HeldContent reencode content
  | .pendingResultConfirmation v =>
    (∀ input ∈ v.toolInput, HeldInput reencode input) ∧
      (∀ content ∈ v.content, HeldContent reencode content) ∧
      ∀ o ∈ v.selectedOption, HeldOption reencode o
  | .completed v =>
    (∀ input ∈ v.toolInput, HeldInput reencode input) ∧
      (∀ content ∈ v.content, HeldContent reencode content) ∧
      ∀ o ∈ v.selectedOption, HeldOption reencode o
  | .cancelled v =>
    (∀ input ∈ v.toolInput, HeldInput reencode input) ∧
      (∀ message ∈ v.userSuggestion, Held reencode .message message) ∧
      ∀ o ∈ v.selectedOption, HeldOption reencode o

def HeldAnswers (answers : Record Json) : Prop :=
  ∀ e ∈ answers.entries, Held reencode .chatInputAnswer e.2

def HeldRequest (request : ChatInputRequest) : Prop :=
  (∀ questions ∈ request.questions, ∀ question ∈ questions,
      Held reencode .chatInputQuestion question) ∧
    ∀ answers ∈ request.answers, HeldAnswers reencode answers

def HeldPart : ResponsePart Empty → Prop
  | .markdown _ => True
  | .contentRef ref => Held reencode .resourceResponsePart ref
  | .toolCall tc => HeldCall reencode tc
  | .reasoning part => ∀ n ∈ part.duration, HeldInt n
  | .systemNotification notification => Held reencode .systemNotificationResponsePart notification
  | .inputRequest part => HeldRequest reencode part.request
  | .error part => Held reencode .errorInfo part.error

structure HeldTurn (turn : Turn Empty) : Prop where
  duration : ∀ n ∈ turn.duration, HeldInt n
  message : Held reencode .message turn.message
  responseParts : ∀ part ∈ turn.responseParts, HeldPart reencode part
  usage : ∀ usage ∈ turn.usage, Held reencode .usageInfo usage

structure HeldActiveTurn (turn : ActiveTurn Empty) : Prop where
  message : Held reencode .message turn.message
  responseParts : ∀ part ∈ turn.responseParts, HeldPart reencode part
  usage : ∀ usage ∈ turn.usage, Held reencode .usageInfo usage

/-- The generated types hold each part of the chat as it is, and each integer. -/
structure HeldChat (s : ChatState Empty) : Prop where
  changes : ∀ x ∈ s.changes, Held reencode .changesSummary x
  origin : ∀ x ∈ s.origin, Held reencode .chatOrigin x
  interactivity : ∀ x ∈ s.interactivity, Held reencode .chatInteractivity x
  changesets : ∀ l ∈ s.changesets, ∀ x ∈ l, Held reencode .changeset x
  canvases : ∀ l ∈ s.canvases, ∀ x ∈ l, Held reencode .canvasReference x
  config : ∀ config ∈ s.config, ∀ schema ∈ config.schema, Held reencode .sessionConfigSchema schema
  turns : ∀ turn ∈ s.turns, HeldTurn reencode turn
  activeTurn : ∀ turn ∈ s.activeTurn, HeldActiveTurn reencode turn
  steeringMessage : ∀ m ∈ s.steeringMessage, Held reencode .message m.message
  queuedMessages : ∀ l ∈ s.queuedMessages, ∀ m ∈ l, Held reencode .message m.message
  draft : ∀ m ∈ s.draft, Held reencode .message m

/-- The generated types hold each part of an action as it is, and each integer. -/
def HeldAction : Chat.Action → Prop
  | .turnStarted a => Held reencode .message a.message
  | .responsePart a => HeldPart reencode a.part
  | .toolCallReady a =>
    (∀ input ∈ a.toolInput, HeldInput reencode input) ∧
      (∀ risk ∈ a.riskAssessment, Held reencode .toolCallRiskAssessment risk) ∧
      (∀ edits ∈ a.edits, Held reencode .fileEditCollection edits) ∧
      ∀ options ∈ a.options, ∀ o ∈ options, HeldOption reencode o
  | .toolCallConfirmed (.denied a) => ∀ message ∈ a.userSuggestion, Held reencode .message message
  | .toolCallComplete a => ∀ content ∈ a.result.content, HeldContent reencode content
  | .toolCallContentChanged a => HeldContent reencode a.content
  | .toolCallAuthRequired a => Held reencode .mcpAuthRequirement a.auth
  | .turnComplete a | .turnCancelled a => HeldInt a.duration
  | .error a => HeldInt a.duration ∧ Held reencode .errorInfo a.part.error
  | .changesetsChanged changesets => ∀ l ∈ changesets, ∀ x ∈ l, Held reencode .changeset x
  | .canvasesChanged canvases => ∀ l ∈ canvases, ∀ x ∈ l, Held reencode .canvasReference x
  | .usage a => Held reencode .usageInfo a.usage
  | .reasoning a => ∀ n ∈ a.duration, HeldInt n
  | .turnsLoaded a => ∀ turn ∈ a.turns, HeldTurn reencode turn
  | .pendingMessageSet a => Held reencode .message a.message
  | .draftChanged draft => ∀ m ∈ draft, Held reencode .message m
  | .moved a => ∀ schema ∈ a.schema, Held reencode .sessionConfigSchema schema
  | .inputRequested request => HeldRequest reencode request
  | .inputAnswerChanged a => ∀ answer ∈ a.answer, Held reencode .chatInputAnswer answer
  | .inputCompleted a => ∀ answers ∈ a.answers, HeldAnswers reencode answers
  | _ => True

variable {reencode}

theorem decodeOption_of_held {α : Type} {decode : α → Option α} {o : Option α}
    (h : ∀ x ∈ o, decode x = some x) : Go.decodeOption decode o = some o := by
  cases o with
  | none => rfl
  | some x => simp only [Go.decodeOption, h x rfl, Option.map_some]

theorem mapM_of_held {α : Type} {decode : α → Option α} {l : List α}
    (h : ∀ x ∈ l, decode x = some x) : l.mapM decode = some l := by
  induction l with
  | nil => rfl
  | cons x l ih =>
    have hl := ih fun y hy => h y (List.mem_cons_of_mem _ hy)
    simp only [List.mapM_cons, h x List.mem_cons_self, hl, Option.bind_eq_bind, Option.bind_some,
      Option.pure_def]

theorem decodeInt_of_held {n : ℤ} (h : HeldInt n) : Go.decodeInt n = some n := if_pos h

theorem decodeToolInput_of_held {input : ToolInput} (h : HeldInput reencode input) :
    Go.decodeToolInput reencode input = some input := by
  cases input with
  | inline text => rfl
  | contentRef ref => exact congrArg (Option.map ToolInput.contentRef) h

theorem decodeConfirmationOption_of_held {o : ConfirmationOption} (h : HeldOption reencode o) :
    Go.decodeConfirmationOption reencode o = some o := by
  have hgroup := decodeOption_of_held fun n hn => decodeInt_of_held (h.2 n hn)
  simp only [Go.decodeConfirmationOption, show reencode _ o.kind = some o.kind from h.1, hgroup,
    Option.bind_eq_bind, Option.bind_some, Option.pure_def]

theorem decodeParameters_of_held {fields : ToolCallParameterFields}
    (h : ∀ input ∈ fields.toolInput, HeldInput reencode input) :
    Go.decodeParameters reencode fields = some fields := by
  have hinput := decodeOption_of_held fun input hi => decodeToolInput_of_held (h input hi)
  simp only [Go.decodeParameters, hinput, Option.bind_eq_bind, Option.bind_some, Option.pure_def]

theorem decodePostConfirmation_of_held {fields : ToolCallPostConfirmationFields Empty}
    (h : ∀ o ∈ fields.selectedOption, HeldOption reencode o) :
    Go.decodePostConfirmation reencode fields = some fields := by
  have hoption := decodeOption_of_held fun o ho => decodeConfirmationOption_of_held (h o ho)
  simp only [Go.decodePostConfirmation, hoption, Option.bind_eq_bind, Option.bind_some,
    Option.pure_def]

theorem decodeContent_of_held {content : Option (List Json)}
    (h : ∀ l ∈ content, HeldContent reencode l) :
    Go.decodeOption (Go.decodeContent reencode) content = some content :=
  decodeOption_of_held fun l hl => mapM_of_held (h l hl)

theorem decodeResult_of_held {result : ToolCallResult}
    (h : ∀ l ∈ result.content, HeldContent reencode l) :
    Go.decodeResult reencode result = some result := by
  simp only [Go.decodeResult, decodeContent_of_held h, Option.bind_eq_bind, Option.bind_some,
    Option.pure_def]

theorem decodeToolCall_of_held {tc : ToolCallState Empty} (h : HeldCall reencode tc) :
    Go.decodeToolCall reencode tc = some tc := by
  cases tc with
  | streaming v => rfl
  | pendingConfirmation v =>
    obtain ⟨hinput, hrisk, hedits, hoptions⟩ := h
    have hparams : Go.decodeParameters reencode v.toToolCallParameterFields = _ :=
      decodeParameters_of_held hinput
    have hrisk := decodeOption_of_held hrisk
    have hedits := decodeOption_of_held hedits
    have hoptions := decodeOption_of_held fun l hl =>
      mapM_of_held fun o ho => decodeConfirmationOption_of_held (hoptions l hl o ho)
    simp only [Go.decodeToolCall, hparams, hrisk, hedits, hoptions, Option.bind_eq_bind,
      Option.bind_some, Option.pure_def]
  | running v =>
    obtain ⟨hinput, hoption, hcontent⟩ := h
    have hparams : Go.decodeParameters reencode v.toToolCallParameterFields = _ :=
      decodeParameters_of_held hinput
    have hpost : Go.decodePostConfirmation reencode v.toToolCallPostConfirmationFields = _ :=
      decodePostConfirmation_of_held hoption
    simp only [Go.decodeToolCall, hparams, hpost, decodeContent_of_held hcontent, Option.bind_eq_bind,
      Option.bind_some, Option.pure_def]
  | authRequired v =>
    obtain ⟨hinput, hoption, hauth, hcontent⟩ := h
    have hparams : Go.decodeParameters reencode v.toToolCallParameterFields = _ :=
      decodeParameters_of_held hinput
    have hpost : Go.decodePostConfirmation reencode v.toToolCallPostConfirmationFields = _ :=
      decodePostConfirmation_of_held hoption
    have hauth : reencode .mcpAuthRequirement v.auth = some v.auth := hauth
    simp only [Go.decodeToolCall, hparams, hpost, hauth, decodeContent_of_held hcontent,
      Option.bind_eq_bind, Option.bind_some, Option.pure_def]
  | pendingResultConfirmation v | completed v =>
    obtain ⟨hinput, hcontent, hoption⟩ := h
    have hparams : Go.decodeParameters reencode v.toToolCallParameterFields = _ :=
      decodeParameters_of_held hinput
    have hresult : Go.decodeResult reencode v.toToolCallResult = _ := decodeResult_of_held hcontent
    have hpost : Go.decodePostConfirmation reencode v.toToolCallPostConfirmationFields = _ :=
      decodePostConfirmation_of_held hoption
    simp only [Go.decodeToolCall, hparams, hresult, hpost, Option.bind_eq_bind, Option.bind_some,
      Option.pure_def]
  | cancelled v =>
    obtain ⟨hinput, hmessage, hoption⟩ := h
    have hparams : Go.decodeParameters reencode v.toToolCallParameterFields = _ :=
      decodeParameters_of_held hinput
    have hmessage := decodeOption_of_held hmessage
    have hoption := decodeOption_of_held fun o ho => decodeConfirmationOption_of_held (hoption o ho)
    simp only [Go.decodeToolCall, hparams, hmessage, hoption, Option.bind_eq_bind, Option.bind_some,
      Option.pure_def]
  | unknown raw => exact raw.elim

theorem decodeAnswers_of_held {answers : Record Json} (h : HeldAnswers reencode answers) :
    Go.decodeAnswers reencode answers = some answers := by
  have hvalues : (answers.entries.mapM fun e =>
      (reencode .chatInputAnswer e.2).map (e.1, ·)) = some answers.entries := by
    refine mapM_of_held fun e he => ?_
    rw [show reencode .chatInputAnswer e.2 = some e.2 from h e he, Option.map_some]
  have hmerge := Record.empty_merge answers
  unfold Record.merge at hmerge
  simp only [Go.decodeAnswers, hvalues, hmerge, Option.bind_eq_bind, Option.bind_some, Option.pure_def]

theorem decodeRequest_of_held {request : ChatInputRequest} (h : HeldRequest reencode request) :
    Go.decodeRequest reencode request = some request := by
  have hquestions := decodeOption_of_held fun l hl => mapM_of_held (h.1 l hl)
  have hanswers := decodeOption_of_held fun r hr => decodeAnswers_of_held (h.2 r hr)
  simp only [Go.decodeRequest, hquestions, hanswers, Option.bind_eq_bind, Option.bind_some,
    Option.pure_def]

theorem decodeErrorPart_of_held {part : ErrorResponsePart} (h : Held reencode .errorInfo part.error) :
    Go.decodeErrorPart reencode part = some part := by
  unfold Held at h
  simp only [Go.decodeErrorPart, h, Option.bind_eq_bind, Option.bind_some, Option.pure_def]

theorem decodePart_of_held {part : ResponsePart Empty} (h : HeldPart reencode part) :
    Go.decodePart reencode part = some part := by
  cases part with
  | markdown part => rfl
  | contentRef ref => exact congrArg (Option.map ResponsePart.contentRef) h
  | toolCall tc =>
    exact congrArg (Option.map ResponsePart.toolCall) (decodeToolCall_of_held h)
  | reasoning part =>
    have hduration := decodeOption_of_held fun n hn => decodeInt_of_held (h n hn)
    simp only [Go.decodePart, hduration, Option.bind_eq_bind, Option.bind_some, Option.pure_def]
  | systemNotification notification =>
    exact congrArg (Option.map ResponsePart.systemNotification) h
  | inputRequest part =>
    have hrequest : Go.decodeRequest reencode part.request = _ := decodeRequest_of_held h
    simp only [Go.decodePart, hrequest, Option.bind_eq_bind, Option.bind_some, Option.pure_def]
  | error part => exact congrArg (Option.map ResponsePart.error) (decodeErrorPart_of_held h)
  | unknown raw => exact raw.elim

theorem decodeParts_of_held {parts : List (ResponsePart Empty)}
    (h : ∀ part ∈ parts, HeldPart reencode part) :
    parts.mapM (Go.decodePart reencode) = some parts :=
  mapM_of_held fun part hpart => decodePart_of_held (h part hpart)

theorem decodeTurn_of_held {turn : Turn Empty} (h : HeldTurn reencode turn) :
    Go.decodeTurn reencode turn = some turn := by
  have hduration := decodeOption_of_held fun n hn => decodeInt_of_held (h.duration n hn)
  have hmessage : reencode .message turn.message = some turn.message := h.message
  have husage := decodeOption_of_held h.usage
  simp only [Go.decodeTurn, hduration, hmessage, decodeParts_of_held h.responseParts, husage,
    Option.bind_eq_bind, Option.bind_some, Option.pure_def]

theorem decodeActiveTurn_of_held {turn : ActiveTurn Empty} (h : HeldActiveTurn reencode turn) :
    Go.decodeActiveTurn reencode turn = some turn := by
  have hmessage : reencode .message turn.message = some turn.message := h.message
  have husage := decodeOption_of_held h.usage
  simp only [Go.decodeActiveTurn, hmessage, decodeParts_of_held h.responseParts, husage,
    Option.bind_eq_bind, Option.bind_some, Option.pure_def]

theorem decodePendingMessage_of_held {m : PendingMessage} (h : Held reencode .message m.message) :
    Go.decodePendingMessage reencode m = some m := by
  unfold Held at h
  simp only [Go.decodePendingMessage, h, Option.bind_eq_bind, Option.bind_some, Option.pure_def]

theorem decodeConfig_of_held {config : ChatConfigState}
    (h : ∀ schema ∈ config.schema, Held reencode .sessionConfigSchema schema) :
    Go.decodeConfig reencode config = some config := by
  have hschema := decodeOption_of_held h
  simp only [Go.decodeConfig, hschema, Option.bind_eq_bind, Option.bind_some, Option.pure_def]

/-- A chat is read as it is if the generated types hold it. -/
theorem decodeChatState_of_held {s : ChatState Empty} (h : HeldChat reencode s) :
    Go.decodeChatState reencode s = some s := by
  have hchanges := decodeOption_of_held h.changes
  have horigin := decodeOption_of_held h.origin
  have hinteractivity := decodeOption_of_held h.interactivity
  have hchangesets := decodeOption_of_held fun l hl => mapM_of_held (h.changesets l hl)
  have hcanvases := decodeOption_of_held fun l hl => mapM_of_held (h.canvases l hl)
  have hconfig := decodeOption_of_held fun config hc => decodeConfig_of_held (h.config config hc)
  have hturns := mapM_of_held fun turn hturn => decodeTurn_of_held (h.turns turn hturn)
  have hactive := decodeOption_of_held fun turn hturn =>
    decodeActiveTurn_of_held (h.activeTurn turn hturn)
  have hsteering := decodeOption_of_held fun m hm =>
    decodePendingMessage_of_held (h.steeringMessage m hm)
  have hqueued := decodeOption_of_held fun l hl =>
    mapM_of_held fun m hm => decodePendingMessage_of_held (h.queuedMessages l hl m hm)
  have hdraft := decodeOption_of_held h.draft
  simp only [Go.decodeChatState, hchanges, horigin, hinteractivity, hchangesets, hcanvases, hconfig,
    hturns, hactive, hsteering, hqueued, hdraft, Option.bind_eq_bind, Option.bind_some,
    Option.pure_def]

end

/-! ### Actions -/

/-- `chat/toolCallConfirmed` as the generated struct holds it. -/
def toGoConfirmed : ChatToolCallConfirmedAction Empty → Go.ChatToolCallConfirmedAction Empty
  | .approved a =>
    { a.toToolCallActionBase with
      approved := true
      confirmed := some a.confirmed
      reason := none
      editedToolInput := a.editedToolInput
      userSuggestion := none
      reasonMessage := none
      selectedOptionId := a.selectedOptionId }
  | .denied a =>
    { a.toToolCallActionBase with
      approved := false
      confirmed := none
      reason := some a.reason
      editedToolInput := none
      userSuggestion := a.userSuggestion
      reasonMessage := a.reasonMessage
      selectedOptionId := a.selectedOptionId }

/-- A chat action as the Go types hold it. -/
def toGo : Chat.Action → ChatAction Empty (Go.ChatToolCallConfirmedAction Empty)
  | .turnStarted a => .turnStarted a
  | .delta a => .delta a
  | .responsePart a => .responsePart a
  | .toolCallStart a => .toolCallStart a
  | .toolCallDelta a => .toolCallDelta a
  | .toolCallReady a => .toolCallReady a
  | .toolCallConfirmed a => .toolCallConfirmed (toGoConfirmed a)
  | .toolCallComplete a => .toolCallComplete a
  | .toolCallResultConfirmed a => .toolCallResultConfirmed a
  | .toolCallContentChanged a => .toolCallContentChanged a
  | .toolCallAuthRequired a => .toolCallAuthRequired a
  | .toolCallAuthResolved a => .toolCallAuthResolved a
  | .turnComplete a => .turnComplete a
  | .turnCancelled a => .turnCancelled a
  | .error a => .error a
  | .turnResume turnId => .turnResume turnId
  | .activityChanged activity => .activityChanged activity
  | .backgroundWorkSet work => .backgroundWorkSet work
  | .backgroundWorkRemoved id => .backgroundWorkRemoved id
  | .movableChanged movable => .movableChanged movable
  | .changesetsChanged changesets => .changesetsChanged changesets
  | .canvasesChanged canvases => .canvasesChanged canvases
  | .workingDirectorySet directory => .workingDirectorySet directory
  | .workingDirectoryRemoved directory => .workingDirectoryRemoved directory
  | .usage a => .usage a
  | .reasoning a => .reasoning a
  | .truncated turnId => .truncated turnId
  | .turnsLoaded a => .turnsLoaded a
  | .pendingMessageSet a => .pendingMessageSet a
  | .pendingMessageRemoved a => .pendingMessageRemoved a
  | .queuedMessagesReordered order => .queuedMessagesReordered order
  | .draftChanged draft => .draftChanged draft
  | .isReadChanged value => .isReadChanged value
  | .isArchivedChanged value => .isArchivedChanged value
  | .configChanged a => .configChanged a
  | .moved a => .moved a
  | .inputRequested request => .inputRequested request
  | .inputAnswerChanged a => .inputAnswerChanged a
  | .inputCompleted a => .inputCompleted a

/-- An action is read as it is if the generated types hold it. -/
theorem decodeChatAction_of_held {reencode : Go.Leaf → Json → Option Json} {a : Chat.Action}
    (h : HeldAction reencode a) : Go.decodeChatAction reencode a = some (toGo a) := by
  cases a with
  | turnStarted a | toolCallAuthRequired a | usage a | pendingMessageSet a =>
    have h : reencode _ _ = some _ := h
    simp only [Go.decodeChatAction, toGo, h, Option.bind_eq_bind, Option.bind_some, Option.pure_def]
  | responsePart a =>
    simp only [Go.decodeChatAction, toGo, decodePart_of_held h, Option.bind_eq_bind, Option.bind_some,
      Option.pure_def]
  | toolCallReady a =>
    obtain ⟨hinput, hrisk, hedits, hoptions⟩ := h
    have hinput := decodeOption_of_held fun input hi => decodeToolInput_of_held (hinput input hi)
    have hrisk := decodeOption_of_held hrisk
    have hedits := decodeOption_of_held hedits
    have hoptions := decodeOption_of_held fun l hl =>
      mapM_of_held fun o ho => decodeConfirmationOption_of_held (hoptions l hl o ho)
    simp only [Go.decodeChatAction, toGo, hinput, hrisk, hedits, hoptions, Option.bind_eq_bind,
      Option.bind_some, Option.pure_def]
  | toolCallConfirmed a =>
    cases a with
    | approved a => rfl
    | denied a =>
      have hmessage := decodeOption_of_held h
      simp only [Go.decodeChatAction, toGo, Go.decodeConfirmed, hmessage, Option.bind_eq_bind,
        Option.bind_some, Option.pure_def, Option.map_some, toGoConfirmed]
  | toolCallComplete a =>
    simp only [Go.decodeChatAction, toGo, decodeResult_of_held h, Option.bind_eq_bind,
      Option.bind_some, Option.pure_def]
  | toolCallContentChanged a =>
    have hcontent : Go.decodeContent reencode a.content = some a.content := mapM_of_held h
    simp only [Go.decodeChatAction, toGo, hcontent, Option.bind_eq_bind, Option.bind_some,
      Option.pure_def]
  | turnComplete a | turnCancelled a =>
    simp only [Go.decodeChatAction, toGo, decodeInt_of_held h, Option.bind_eq_bind, Option.bind_some,
      Option.pure_def]
  | error a =>
    simp only [Go.decodeChatAction, toGo, decodeInt_of_held h.1, decodeErrorPart_of_held h.2,
      Option.bind_eq_bind, Option.bind_some, Option.pure_def]
  | changesetsChanged changesets | canvasesChanged canvases =>
    have hlist := decodeOption_of_held fun l hl => mapM_of_held (h l hl)
    simp only [Go.decodeChatAction, toGo, hlist, Option.map_some]
  | reasoning a =>
    have hduration := decodeOption_of_held fun n hn => decodeInt_of_held (h n hn)
    simp only [Go.decodeChatAction, toGo, hduration, Option.bind_eq_bind, Option.bind_some,
      Option.pure_def]
  | turnsLoaded a =>
    have hturns := mapM_of_held fun turn hturn => decodeTurn_of_held (h turn hturn)
    simp only [Go.decodeChatAction, toGo, hturns, Option.bind_eq_bind, Option.bind_some,
      Option.pure_def]
  | draftChanged draft =>
    have hdraft := decodeOption_of_held h
    simp only [Go.decodeChatAction, toGo, hdraft, Option.map_some]
  | moved a =>
    have hschema := decodeOption_of_held h
    simp only [Go.decodeChatAction, toGo, hschema, Option.bind_eq_bind, Option.bind_some,
      Option.pure_def]
  | inputRequested request =>
    simp only [Go.decodeChatAction, toGo, decodeRequest_of_held h, Option.map_some]
  | inputAnswerChanged a =>
    have hanswer := decodeOption_of_held h
    simp only [Go.decodeChatAction, toGo, hanswer, Option.bind_eq_bind, Option.bind_some,
      Option.pure_def]
  | inputCompleted a =>
    have hanswers := decodeOption_of_held fun r hr => decodeAnswers_of_held (h r hr)
    simp only [Go.decodeChatAction, toGo, hanswers, Option.bind_eq_bind, Option.bind_some,
      Option.pure_def]
  | _ => rfl

end AgentHostProtocol.Agreement.GoChat
