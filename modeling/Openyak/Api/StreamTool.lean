/-
# Api.StreamTool -- the events of one tool call

`toolRun t` is a stream as tool `t` sees it: its own deltas and the finish
reasons.  `ToolProgress` reads off the chunks whether the tool has a name, is
closed, and was sent argument text after that; `tracks_toolRun` says the tool's
state is what those bits say, and `shape_toolRun` what its events look like.
-/
import Openyak.Api.OpenAiStream
import Mathlib.Data.List.Infix

namespace Openyak.Api.OpenAi

set_option autoImplicit false

/-! ## What the chunks say of one tool -/

/-- Whether a tool index has a name, whether its block has been closed by a
`tool_calls` finish reason, and whether argument text arrived after that. -/
structure ToolProgress where
  named : Bool := false
  closed : Bool := false
  late : Bool := false
  deriving DecidableEq, Repr

def ToolProgress.step (t : UInt32) (progress : ToolProgress) : Op → ToolProgress
  | .toolCall finishing toolCall =>
      if toolCall.index = t then
        let named := progress.named || toolCall.function.name.isSome
        { named := named
          closed := progress.closed || (named && finishing)
          late := progress.late || (progress.closed && !(argumentText toolCall).isEmpty) }
      else progress
  | .finishReason reason =>
      if reason = some "tool_calls" then
        { progress with closed := progress.closed || progress.named }
      else progress
  | _ => progress

def progress (t : UInt32) (ops : List Op) : ToolProgress :=
  ops.foldl (ToolProgress.step t) {}

/-- The argument text that arrives for a tool index. -/
def received (t : UInt32) (ops : List Op) : List Char :=
  ops.flatMap fun
    | .toolCall _ toolCall => if toolCall.index = t then argumentText toolCall else []
    | _ => []

@[simp] theorem progress_snoc (t : UInt32) (ops : List Op) (op : Op) :
    progress t (ops ++ [op]) = (progress t ops).step t op := by
  simp [progress, List.foldl_append]

@[simp] theorem received_snoc (t : UInt32) (ops : List Op) (op : Op) :
    received t (ops ++ [op]) = received t ops ++ received t [op] := by
  simp [received]

theorem ToolCallState.close_fst (state : ToolCallState) :
    state.close.1 = { state with stopped := state.stopped || state.started } := by
  unfold close
  split <;> rename_i closing
  · simp [markStopped, (Bool.and_eq_true_iff.1 closing).1]
  · cases state
    simp_all

/-! ## The run as one tool sees it -/

def toolStep (t : UInt32) (seen : ToolCallState × List StreamEvent) :
    Op → ToolCallState × List StreamEvent
  | .toolCall finishing toolCall =>
      if toolCall.index = t then
        ((seen.1.ingest finishing toolCall).1, seen.2 ++ (seen.1.ingest finishing toolCall).2)
      else seen
  | .finishReason reason =>
      if reason = some "tool_calls" then (seen.1.close.1, seen.2 ++ seen.1.close.2) else seen
  | _ => seen

def toolRun (t : UInt32) (ops : List Op) : ToolCallState × List StreamEvent :=
  ops.foldl (toolStep t) ({}, [])

@[simp] theorem toolRun_snoc (t : UInt32) (ops : List Op) (op : Op) :
    toolRun t (ops ++ [op]) = toolStep t (toolRun t ops) op := by
  simp [toolRun, List.foldl_append]

/-- The state of tool `t` is what the operations so far say: a block is started
exactly when it has a name, and everything received has been passed on then. -/
structure ToolCallState.Tracks (t : UInt32) (ops : List Op) (state : ToolCallState) : Prop where
  name : state.name.isSome = (progress t ops).named
  started : state.started = (progress t ops).named
  stopped : state.stopped = (progress t ops).closed
  arguments : state.arguments = received t ops
  index : state.started → state.openaiIndex = t
  emitted : state.emittedLen = if state.started then state.arguments.length else 0

/-- The argument text a delta lets through: everything so far when it gives the
name, and otherwise its own. -/
def ToolCallState.passed (state : ToolCallState) (toolCall : DeltaToolCall) : List Char :=
  if state.started then argumentText toolCall else state.arguments ++ argumentText toolCall

/-- The start of tool `t`'s block. -/
def toolStart (t : UInt32) (id name : String) : StreamEvent :=
  .contentBlockStart (t + 1) (.toolUse id name (.object []))

/-- The delta that passes `text` on; none when there is nothing to pass on. -/
def argumentDelta (t : UInt32) (text : List Char) : List StreamEvent :=
  if text.isEmpty then []
  else [.contentBlockDelta (t + 1) (.inputJsonDelta (String.ofList text))]

section OneTool

variable {t : UInt32} {ops : List Op} {state : ToolCallState}

/-- A delta for a tool without a name emits nothing. -/
theorem ingest_unnamed (finishing : Bool) (toolCall : DeltaToolCall)
    (tracks : state.Tracks t ops) (unnamed : (state.apply toolCall).name.isSome = false) :
    state.ingest finishing toolCall = (state.apply toolCall, []) := by
  have noName : (state.apply toolCall).name = none := by simpa using unnamed
  have notStarted : (state.apply toolCall).started = false := by
    have : state.name.isSome = false := by
      simp only [ToolCallState.apply, Option.isSome_or, Bool.or_eq_false_iff] at unnamed
      exact unnamed.2
    simp only [ToolCallState.apply, tracks.started, ← tracks.name, this]
  simp [ToolCallState.ingest, notStarted, ToolCallState.startEvent, noName]

/-- What has not been passed on goes out, and then everything has been. -/
theorem deltaEvent_markStarted (toolCall : DeltaToolCall) (own : toolCall.index = t)
    (tracks : state.Tracks t ops) :
    (state.apply toolCall).markStarted.deltaEvent.1 =
        (state.apply toolCall).markStarted.markEmitted ∧
      (state.apply toolCall).markStarted.deltaEvent.2.toList =
        argumentDelta t (state.passed toolCall) := by
  have emitted : (state.apply toolCall).markStarted.emittedLen
      = if state.started then state.arguments.length else 0 := tracks.emitted
  have arguments : (state.apply toolCall).markStarted.arguments
      = state.arguments ++ argumentText toolCall := rfl
  have index : (state.apply toolCall).markStarted.blockIndex = t + 1 := by rw [← own]; rfl
  generalize (state.apply toolCall).markStarted = next at emitted arguments index
  have pending : next.arguments.drop next.emittedLen = state.passed toolCall := by
    rw [arguments, emitted, ToolCallState.passed]
    split <;> simp
  have within : next.emittedLen ≤ next.arguments.length := by
    rw [arguments, emitted, List.length_append]
    split <;> omega
  unfold ToolCallState.deltaEvent argumentDelta
  split
  · rename_i done
    have nothing : state.passed toolCall = [] := by
      rw [← pending]
      exact List.drop_eq_nil_iff.2 done
    have same : next.emittedLen = next.arguments.length := by omega
    simp [nothing, ToolCallState.markEmitted, ← same]
  · rename_i more
    have something : (state.passed toolCall).isEmpty = false := by
      rw [← pending, List.isEmpty_eq_false_iff, ne_eq, List.drop_eq_nil_iff]
      exact more
    simp [something, pending, index]

/-- A delta for a tool with a name starts the block if need be, passes on what
has not been, and stops the block when the choice finishes with `tool_calls`. -/
theorem ingest_named (finishing : Bool) (toolCall : DeltaToolCall) (own : toolCall.index = t)
    (tracks : state.Tracks t ops) (named : (state.apply toolCall).name.isSome) :
    (state.ingest finishing toolCall).1 =
        { (state.apply toolCall).markStarted.markEmitted with
          stopped := state.stopped || finishing } ∧
      ∃ id name, (state.apply toolCall).name = some name ∧
        (∀ given, (state.apply toolCall).id = some given → id = given) ∧
        (state.ingest finishing toolCall).2 =
          (if state.started then [] else [toolStart t id name]) ++
            argumentDelta t (state.passed toolCall) ++
            (if finishing && !state.stopped then [.contentBlockStop (t + 1)] else []) := by
  obtain ⟨name, hasName⟩ := Option.isSome_iff_exists.1 named
  have index : (state.apply toolCall).blockIndex = t + 1 := by
    simp [ToolCallState.blockIndex, ToolCallState.apply, own]
  obtain ⟨id, given, start⟩ : ∃ id, (∀ given, (state.apply toolCall).id = some given → id = given) ∧
      (state.apply toolCall).startEvent = some (toolStart t id name) := by
    refine ⟨(state.apply toolCall).id.getD
      ("tool_call_" ++ toString (state.apply toolCall).openaiIndex.toNat), ?_, ?_⟩
    · intro given isGiven
      rw [isGiven, Option.getD_some]
    · rw [ToolCallState.startEvent, hasName, Option.map_some, index]
      rfl
  obtain ⟨after, text⟩ := deltaEvent_markStarted toolCall own tracks
  have same : (state.apply toolCall).started = state.started := rfl
  have same' : (state.apply toolCall).markStarted.markEmitted.stopped = state.stopped := rfl
  suffices both : (state.ingest finishing toolCall).1 =
      { (state.apply toolCall).markStarted.markEmitted with
        stopped := state.stopped || finishing } ∧
      (state.ingest finishing toolCall).2 =
        (if state.started then [] else [toolStart t id name]) ++
          argumentDelta t (state.passed toolCall) ++
          (if finishing && !state.stopped then [.contentBlockStop (t + 1)] else []) from
    ⟨both.1, id, name, hasName, given, both.2⟩
  unfold ToolCallState.ingest
  generalize (state.apply toolCall).markStarted.markEmitted = passed at after same' ⊢
  obtain ⟨_, _, _, _, _, _, _⟩ := passed
  simp only at same'
  cases started : state.started <;> cases stopped : state.stopped <;> cases finishing <;>
    simp [same, started, start, after, text, index, same', stopped, ToolCallState.markStopped]

/-- The operations that leave every tool as it is. -/
theorem tracks_of_unchanged {op : Op} (tracks : state.Tracks t ops)
    (progressed : (progress t ops).step t op = progress t ops)
    (silent : received t [op] = []) : state.Tracks t (ops ++ [op]) := by
  refine ⟨?_, ?_, ?_, ?_, tracks.index, tracks.emitted⟩
  · rw [progress_snoc, progressed]; exact tracks.name
  · rw [progress_snoc, progressed]; exact tracks.started
  · rw [progress_snoc, progressed]; exact tracks.stopped
  · rw [received_snoc, silent, List.append_nil]; exact tracks.arguments

/-- A step keeps the state of the tool in track of the operations. -/
theorem tracks_step (tracks : state.Tracks t ops) (events : List StreamEvent) (op : Op) :
    (toolStep t (state, events) op).1.Tracks t (ops ++ [op]) := by
  cases op with
  | head chunk => exact tracks_of_unchanged tracks rfl rfl
  | content content => exact tracks_of_unchanged tracks rfl rfl
  | finishReason reason =>
      by_cases calls : reason = some "tool_calls"
      · have silent : received t [.finishReason reason] = [] := rfl
        simp only [toolStep, calls, if_true, ToolCallState.close_fst]
        refine ⟨?_, ?_, ?_, ?_, tracks.index, tracks.emitted⟩
        · simpa [ToolProgress.step] using tracks.name
        · simpa [ToolProgress.step] using tracks.started
        · simp [ToolProgress.step, tracks.stopped, tracks.started]
        · rw [received_snoc, ← calls, silent, List.append_nil]
          exact tracks.arguments
      · simp only [toolStep, calls, if_false]
        exact tracks_of_unchanged tracks (by simp [ToolProgress.step, calls]) rfl
  | toolCall finishing toolCall =>
      by_cases own : toolCall.index = t
      · have text : (state.apply toolCall).arguments =
            received t (ops ++ [.toolCall finishing toolCall]) := by
          simp [received, own, ToolCallState.apply, tracks.arguments]
        have name : (state.apply toolCall).name.isSome =
            (progress t (ops ++ [.toolCall finishing toolCall])).named := by
          simp [ToolProgress.step, own, ToolCallState.apply, tracks.name, Bool.or_comm]
        have stopped : (state.stopped || ((state.apply toolCall).name.isSome && finishing)) =
            (progress t (ops ++ [.toolCall finishing toolCall])).closed := by
          simp [ToolProgress.step, own, ToolCallState.apply, tracks.name, tracks.stopped,
            Bool.or_comm]
        simp only [toolStep, own, if_true]
        cases named : (state.apply toolCall).name.isSome with
        | false =>
            have notStarted : state.started = false := by
              rw [tracks.started, ← tracks.name]
              simp only [ToolCallState.apply, Option.isSome_or, Bool.or_eq_false_iff] at named
              exact named.2
            rw [ingest_unnamed finishing toolCall tracks named]
            refine ⟨name, ?_, ?_, text, fun _ => own, ?_⟩
            · rw [← name, named]; exact notStarted
            · rw [← stopped, named]; simp [ToolCallState.apply]
            · simpa [ToolCallState.apply, notStarted] using tracks.emitted
        | true =>
            obtain ⟨after, -⟩ := ingest_named finishing toolCall own tracks named
            rw [after]
            refine ⟨name, ?_, ?_, text, fun _ => own, rfl⟩
            · rw [← name, named]; rfl
            · rw [← stopped, named, Bool.true_and]
      · simp only [toolStep, own, if_false]
        exact tracks_of_unchanged tracks (by simp [ToolProgress.step, own])
          (by simp [received, own])

theorem tracks_toolRun (t : UInt32) (ops : List Op) :
    (toolRun t ops).1.Tracks t ops := by
  induction ops using List.reverseRecOn with
  | nil => exact ⟨rfl, rfl, rfl, rfl, by simp [toolRun], rfl⟩
  | append_singleton ops op ih =>
      rw [toolRun_snoc]
      exact tracks_step ih (toolRun t ops).2 op

end OneTool

/-! ## The shape of one tool's events -/

/-- Only a named tool is closed, and text is late only behind a close. -/
theorem progress_order (t : UInt32) (ops : List Op) :
    ((progress t ops).closed → (progress t ops).named) ∧
      ((progress t ops).late → (progress t ops).closed) := by
  induction ops using List.reverseRecOn with
  | nil => simp [progress]
  | append_singleton ops op ih =>
      rw [progress_snoc]
      obtain ⟨closed, late⟩ := ih
      cases op with
      | head chunk => exact ⟨closed, late⟩
      | content content => exact ⟨closed, late⟩
      | finishReason reason =>
          simp only [ToolProgress.step]
          split
          · constructor
            · simp only [Bool.or_eq_true]
              rintro (was | named)
              · exact closed was
              · exact named
            · intro was
              simp [late was]
          · exact ⟨closed, late⟩
      | toolCall finishing toolCall =>
          simp only [ToolProgress.step]
          split
          · constructor
            · simp only [Bool.or_eq_true, Bool.and_eq_true]
              rintro (was | ⟨named, -⟩)
              · exact Or.inl (closed was)
              · exact named
            · simp only [Bool.or_eq_true, Bool.and_eq_true]
              rintro (was | ⟨was, -⟩)
              · exact Or.inl (late was)
              · exact Or.inl was
          · exact ⟨closed, late⟩

/-- A block up to its stop: the start and one delta for each text passed on. -/
def toolBlock (t : UInt32) (id name : String) (texts : List (List Char)) : List StreamEvent :=
  toolStart t id name ::
    texts.map fun text => .contentBlockDelta (t + 1) (.inputJsonDelta (String.ofList text))

theorem toolBlock_append (t : UInt32) (id name : String) (texts : List (List Char))
    (text : List Char) :
    toolBlock t id name texts ++ argumentDelta t text =
      toolBlock t id name (texts ++ if text.isEmpty then [] else [text]) := by
  unfold argumentDelta
  split <;> simp [toolBlock]

theorem flatten_append (texts : List (List Char)) (text : List Char) :
    (texts ++ if text.isEmpty then [] else [text]).flatten = texts.flatten ++ text := by
  split
  · rename_i empty
    simp [List.isEmpty_iff.1 empty]
  · simp

/-- What the events of tool `t` look like after `ops`: nothing before the name;
then one block holding the text received, stopped when the tool is closed; and,
once text was late, a delta behind a stop. -/
structure ToolShape (t : UInt32) (ops : List Op) (events : List StreamEvent) : Prop where
  unnamed : (progress t ops).named = false → events = []
  started : (progress t ops).named → ∃ id name, toolStart t id name ∈ events
  block : (progress t ops).named → (progress t ops).late = false →
    ∃ id name texts, texts.flatten = received t ops ∧
      events = toolBlock t id name texts ++
        if (progress t ops).closed then [.contentBlockStop (t + 1)] else []
  stopped : (progress t ops).closed → .contentBlockStop (t + 1) ∈ events
  late : (progress t ops).late → ∃ before text after,
    events = before ++ .contentBlockDelta (t + 1) (.inputJsonDelta text) :: after ∧
      .contentBlockStop (t + 1) ∈ before

section Shape

variable {t : UInt32} {ops : List Op} {state : ToolCallState} {events : List StreamEvent}

theorem shape_of_unchanged {op : Op} (shape : ToolShape t ops events)
    (progressed : (progress t ops).step t op = progress t ops)
    (silent : received t [op] = []) : ToolShape t (ops ++ [op]) events := by
  have same : progress t (ops ++ [op]) = progress t ops := by rw [progress_snoc, progressed]
  have text : received t (ops ++ [op]) = received t ops := by
    rw [received_snoc, silent, List.append_nil]
  exact ⟨by rw [same]; exact shape.unnamed, by rw [same]; exact shape.started,
    by rw [same, text]; exact shape.block, by rw [same]; exact shape.stopped,
    by rw [same]; exact shape.late⟩

/-- A finish reason adds the stop of a block still open, and nothing else. -/
theorem shape_finishReason (shape : ToolShape t ops events) (tracks : state.Tracks t ops)
    (reason : Option String) :
    ToolShape t (ops ++ [.finishReason reason])
      (toolStep t (state, events) (.finishReason reason)).2 := by
  by_cases calls : reason = some "tool_calls"
  · subst calls
    have now : progress t (ops ++ [.finishReason (some "tool_calls")]) =
        { progress t ops with closed := (progress t ops).closed || (progress t ops).named } := by
      simp [ToolProgress.step]
    have text : received t (ops ++ [.finishReason (some "tool_calls")]) = received t ops := by
      simp [received]
    have emitted : state.close.2 =
        if (progress t ops).named && !(progress t ops).closed then
          [.contentBlockStop (t + 1)] else [] := by
      rw [← tracks.started, ← tracks.stopped, ToolCallState.close]
      split
      · rename_i closing
        simp [ToolCallState.blockIndex, tracks.index (Bool.and_eq_true_iff.1 closing).1]
      · rfl
    simp only [toolStep, if_true, emitted]
    refine ⟨?_, ?_, ?_, ?_, ?_⟩ <;> rw [now]
    · intro unnamed
      simp only at unnamed
      simp [shape.unnamed unnamed, unnamed]
    · intro named
      obtain ⟨id, name, start⟩ := shape.started named
      exact ⟨id, name, List.mem_append_left _ start⟩
    · intro named early
      obtain ⟨id, name, texts, whole, block⟩ := shape.block named early
      refine ⟨id, name, texts, by rw [text, whole], ?_⟩
      simp only at named
      rw [block]
      cases closed : (progress t ops).closed <;> simp [named]
    · intro closed
      simp only [Bool.or_eq_true] at closed
      cases was : (progress t ops).closed
      · have named : (progress t ops).named := by simpa [was] using closed
        simp [named]
      · simp [shape.stopped was]
    · intro late
      obtain ⟨before, text, after, split, stop⟩ := shape.late late
      exact ⟨before, text, after ++ _, by rw [split]; simp; rfl, stop⟩
  · simp only [toolStep, calls, if_false]
    exact shape_of_unchanged shape (by simp [ToolProgress.step, calls]) rfl

theorem shape_toolCall (shape : ToolShape t ops events) (tracks : state.Tracks t ops)
    (finishing : Bool) (toolCall : DeltaToolCall) :
    ToolShape t (ops ++ [.toolCall finishing toolCall])
      (toolStep t (state, events) (.toolCall finishing toolCall)).2 := by
  by_cases own : toolCall.index = t
  · have text : received t (ops ++ [.toolCall finishing toolCall]) =
        received t ops ++ argumentText toolCall := by
      simp [received, own]
    have now : progress t (ops ++ [.toolCall finishing toolCall]) =
        { named := (state.apply toolCall).name.isSome
          closed := (progress t ops).closed ||
            ((state.apply toolCall).name.isSome && finishing)
          late := (progress t ops).late ||
            ((progress t ops).closed && !(argumentText toolCall).isEmpty) } := by
      simp [ToolProgress.step, own, ToolCallState.apply, Option.isSome_or, tracks.name,
        Bool.or_comm]
    simp only [toolStep, own, if_true]
    cases named : (state.apply toolCall).name.isSome with
    | false =>
        have unnamed : (progress t ops).named = false := by
          rw [← tracks.name]
          simp only [ToolCallState.apply, Option.isSome_or, Bool.or_eq_false_iff] at named
          exact named.2
        have opened : (progress t ops).closed = false := by
          by_contra closed
          simp [(progress_order t ops).1 (by simpa using closed)] at unnamed
        have early : (progress t ops).late = false := by
          by_contra late
          simp [(progress_order t ops).2 (by simpa using late)] at opened
        rw [ingest_unnamed finishing toolCall tracks named, shape.unnamed unnamed]
        refine ⟨?_, ?_, ?_, ?_, ?_⟩ <;> rw [now] <;> simp [named, opened, early]
    | true =>
        obtain ⟨-, id, name, -, -, emitted⟩ := ingest_named finishing toolCall own tracks named
        rw [emitted, tracks.started, tracks.stopped]
        refine ⟨?_, ?_, ?_, ?_, ?_⟩ <;> rw [now, named]
        · simp
        · intro _
          cases before : (progress t ops).named with
          | false => exact ⟨id, name, by simp⟩
          | true =>
              obtain ⟨id', name', start⟩ := shape.started before
              exact ⟨id', name', List.mem_append_left _ start⟩
        · intro _ early
          simp only [Bool.or_eq_false_iff, Bool.and_eq_false_iff, Bool.not_eq_false'] at early
          obtain ⟨early, empty⟩ := early
          cases before : (progress t ops).named with
          | false =>
              have opened : (progress t ops).closed = false := by
                by_contra closed
                simp [(progress_order t ops).1 (by simpa using closed)] at before
              have passed : state.passed toolCall =
                  received t ops ++ argumentText toolCall := by
                simp [ToolCallState.passed, tracks.started, before, tracks.arguments]
              have block := toolBlock_append t id name [] (state.passed toolCall)
              have whole := flatten_append [] (state.passed toolCall)
              refine ⟨id, name, _, whole.trans ?_, ?_⟩
              · rw [text, passed, List.flatten_nil, List.nil_append]
              · rw [← block, shape.unnamed before]
                simp [toolBlock, opened]
          | true =>
              have passed : state.passed toolCall = argumentText toolCall := by
                simp [ToolCallState.passed, tracks.started, before]
              obtain ⟨id', name', texts, whole, events_eq⟩ := shape.block before early
              have block := toolBlock_append t id' name' texts (argumentText toolCall)
              have grown := flatten_append texts (argumentText toolCall)
              refine ⟨id', name', _, grown.trans (by rw [text, whole]), ?_⟩
              rw [← block, passed, events_eq]
              cases closed : (progress t ops).closed with
              | false => simp
              | true =>
                  have nothing : argumentDelta t (argumentText toolCall) = [] := by
                    simp only [closed, Bool.true_eq_false, false_or] at empty
                    simp [argumentDelta, empty]
                  simp [nothing]
        · intro closed
          simp only [Bool.or_eq_true, Bool.true_and] at closed
          cases was : (progress t ops).closed with
          | false =>
              have finishing : finishing = true := by simpa [was] using closed
              simp [finishing]
          | true => simp [shape.stopped was]
        · intro late
          simp only [Bool.or_eq_true, Bool.and_eq_true, Bool.not_eq_true'] at late
          rcases late with late | ⟨closed, more⟩
          · obtain ⟨before, delta, after, split, stop⟩ := shape.late late
            exact ⟨before, delta, after ++ _, by rw [split]; simp; rfl, stop⟩
          · have before := (progress_order t ops).1 closed
            have passed : state.passed toolCall = argumentText toolCall := by
              simp [ToolCallState.passed, tracks.started, before]
            refine ⟨events, String.ofList (argumentText toolCall), [], ?_, shape.stopped closed⟩
            simp [before, closed, passed, argumentDelta, more]
  · simp only [toolStep, own, if_false]
    exact shape_of_unchanged shape (by simp [ToolProgress.step, own]) (by simp [received, own])

end Shape

theorem shape_toolRun (t : UInt32) (ops : List Op) : ToolShape t ops (toolRun t ops).2 := by
  induction ops using List.reverseRecOn with
  | nil => exact ⟨fun _ => rfl, by simp [progress], by simp [progress], by simp [progress],
      by simp [progress]⟩
  | append_singleton ops op ih =>
      have tracks := tracks_toolRun t ops
      rw [toolRun_snoc]
      generalize toolRun t ops = seen at ih tracks
      obtain ⟨state, events⟩ := seen
      cases op with
      | head chunk => exact shape_of_unchanged ih rfl rfl
      | content content => exact shape_of_unchanged ih rfl rfl
      | toolCall finishing toolCall => exact shape_toolCall ih tracks finishing toolCall
      | finishReason reason => exact shape_finishReason ih tracks reason

end Openyak.Api.OpenAi
