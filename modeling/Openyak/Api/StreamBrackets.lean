/-
# Api.StreamBrackets -- when the emitted stream events are well bracketed

A stream is `WellFormed` when its message start comes first and its message end
last, each once; when the events of every block are a start, deltas and one
stop; when text stands at index 0 and tools elsewhere; and when a tool block's
deltas are the argument text received for it.

Two inputs break this.  A tool index of `u32::MAX` puts its block at index 0, and
argument text that arrives after a `tool_calls` finish reason has closed the
block is emitted behind its stop.  `wellFormed_iff_onTime` says there is nothing
else.

The events at block index `t + 1` are the events of `toolRun t`
(`blockEvents_run`); those at index 0 are the text's (`textEvents_run`).
-/
import Openyak.Api.StreamTool

namespace Openyak.Api

set_option autoImplicit false

/-- The block an event belongs to. -/
def StreamEvent.blockIndex? : StreamEvent → Option UInt32
  | .contentBlockStart index _ => some index
  | .contentBlockDelta index _ => some index
  | .contentBlockStop index => some index
  | _ => none

def StreamEvent.isStart : StreamEvent → Bool
  | .contentBlockStart .. => true
  | _ => false

def StreamEvent.isDelta : StreamEvent → Bool
  | .contentBlockDelta .. => true
  | _ => false

def StreamEvent.isStop : StreamEvent → Bool
  | .contentBlockStop _ => true
  | _ => false

/-- The events of one block, in order. -/
def blockEvents (index : UInt32) (events : List StreamEvent) : List StreamEvent :=
  events.filter fun event => event.blockIndex? == some index

@[simp] theorem blockEvents_append (index : UInt32) (xs ys : List StreamEvent) :
    blockEvents index (xs ++ ys) = blockEvents index xs ++ blockEvents index ys :=
  List.filter_append ..

theorem blockEvents_all {index : UInt32} {events : List StreamEvent}
    (own : ∀ event ∈ events, event.blockIndex? = some index) :
    blockEvents index events = events := by
  refine List.filter_eq_self.2 fun event held => ?_
  simp [own event held]

theorem blockEvents_none {index : UInt32} {events : List StreamEvent}
    (other : ∀ event ∈ events, event.blockIndex? ≠ some index) :
    blockEvents index events = [] := by
  refine List.filter_eq_nil_iff.2 fun event held => ?_
  simp [other event held]

namespace OpenAi

/-! ## The text block -/

/-- The non-empty contents, in order. -/
def contents (ops : List Op) : List String :=
  ops.flatMap fun
    | .content content => (content.filter (· ≠ "")).toList
    | _ => []

theorem contents_append (xs ys : List Op) : contents (xs ++ ys) = contents xs ++ contents ys :=
  List.flatMap_append

theorem contents_content (content : Option String) :
    contents [.content content] = (content.filter (· ≠ "")).toList :=
  List.append_nil _

theorem contents_of_wordless {ops : List Op} {op : Op}
    (wordless : ∀ content, op ≠ .content content) : contents (ops ++ [op]) = contents ops := by
  rw [contents_append]
  cases op with
  | content content => exact absurd rfl (wordless content)
  | head chunk => simp [contents]
  | toolCall finishing toolCall => simp [contents]
  | finishReason reason => simp [contents]

/-- The text block up to its stop. -/
def textBlock (texts : List String) : List StreamEvent :=
  if texts = [] then []
  else .contentBlockStart 0 (.text "") ::
    texts.map fun text => .contentBlockDelta 0 (.textDelta text)

theorem textBlock_append (texts : List String) (text : String) :
    textBlock (texts ++ [text]) =
      textBlock texts ++ (if texts = [] then [.contentBlockStart 0 (.text "")] else []) ++
        [.contentBlockDelta 0 (.textDelta text)] := by
  by_cases first : texts = [] <;> simp [textBlock, first]

/-! ## The events of every tool at once -/

/-- Events drawn from every tool call, each at its own block index. -/
theorem blockEvents_toolCalls (calls : Std.TreeMap UInt32 ToolCallState) (t : UInt32)
    (emit : ToolCallState → List StreamEvent) (silent : emit {} = [])
    (own : ∀ (k : UInt32) call, calls[k]? = some call →
      ∀ event ∈ emit call, event.blockIndex? = some (k + 1)) :
    blockEvents (t + 1) (calls.toList.flatMap fun call => emit call.2) =
      emit (calls[t]?.getD {}) := by
  have others : ∀ entries : List (UInt32 × ToolCallState), (∀ entry ∈ entries, entry ∈ calls.toList) →
      (∀ entry ∈ entries, entry.1 ≠ t) →
        blockEvents (t + 1) (entries.flatMap fun call => emit call.2) = [] := by
    intro entries held other
    refine blockEvents_none fun event found => ?_
    obtain ⟨⟨k, call⟩, member, found⟩ := List.mem_flatMap.1 found
    rw [own k call (Std.TreeMap.mem_toList_iff_getElem?_eq_some.1 (held _ member)) event found]
    simpa using other _ member
  cases found : calls[t]? with
  | none =>
      rw [others _ (fun _ => id), Option.getD_none, silent]
      rintro ⟨k, call⟩ member rfl
      rw [Std.TreeMap.mem_toList_iff_getElem?_eq_some.1 member] at found
      cases found
  | some call =>
      have member := Std.TreeMap.mem_toList_iff_getElem?_eq_some.2 found
      have distinct := Std.TreeMap.distinct_keys_toList (t := calls)
      obtain ⟨before, after, split⟩ := List.append_of_mem member
      rw [split, List.pairwise_append, List.pairwise_cons] at distinct
      rw [split, List.flatMap_append, List.flatMap_cons, blockEvents_append, blockEvents_append,
        others before (fun entry held => by rw [split]; simp [held]),
        others after (fun entry held => by rw [split]; simp [held]),
        blockEvents_all (own t call found), List.nil_append, List.append_nil, Option.getD_some]
      · intro entry held same
        have := distinct.2.1.1 entry held
        simp [same] at this
      · intro entry held same
        have := distinct.2.2 entry held (t, call) (by simp)
        simp [same] at this

/-- What a step adds to the events of tool `t`. -/
def toolEmitted (t : UInt32) (state : ToolCallState) : Op → List StreamEvent
  | .toolCall finishing toolCall =>
      if toolCall.index = t then (state.ingest finishing toolCall).2 else []
  | .finishReason reason => if reason = some "tool_calls" then state.close.2 else []
  | _ => []

theorem toolStep_emitted (t : UInt32) (seen : ToolCallState × List StreamEvent) (op : Op) :
    (toolStep t seen op).2 = seen.2 ++ toolEmitted t seen.1 op := by
  cases op with
  | head chunk => simp [toolStep, toolEmitted]
  | content content => simp [toolStep, toolEmitted]
  | toolCall finishing toolCall => simp only [toolStep, toolEmitted]; split <;> simp
  | finishReason reason => simp only [toolStep, toolEmitted]; split <;> simp

theorem startEvent_own {state : ToolCallState} {event : StreamEvent}
    (start : state.startEvent = some event) : event.blockIndex? = some state.blockIndex := by
  obtain ⟨name, -, rfl⟩ := Option.map_eq_some_iff.1 start
  rfl

theorem deltaEvent_own {state : ToolCallState} {event : StreamEvent}
    (delta : event ∈ state.deltaEvent.2.toList) : event.blockIndex? = some state.blockIndex := by
  unfold ToolCallState.deltaEvent at delta
  split at delta
  · simp at delta
  · simp only [Option.toList_some, List.mem_singleton] at delta
    rw [delta]
    rfl

theorem close_own {state : ToolCallState} {event : StreamEvent}
    (stop : event ∈ state.close.2) :
    state.started ∧ event.blockIndex? = some state.blockIndex := by
  unfold ToolCallState.close at stop
  split at stop
  · rename_i closing
    simp only [List.mem_singleton] at stop
    rw [stop]
    exact ⟨(Bool.and_eq_true_iff.1 closing).1, rfl⟩
  · simp at stop

/-- A delta's events belong to the block of the delta's own index. -/
theorem ingest_own {state : ToolCallState} {finishing : Bool} {toolCall : DeltaToolCall}
    {event : StreamEvent} (emitted : event ∈ (state.ingest finishing toolCall).2) :
    event.blockIndex? = some (toolCall.index + 1) := by
  have index : (state.apply toolCall).blockIndex = toolCall.index + 1 := rfl
  have started : ∀ starts, (if (state.apply toolCall).started then some [] else
      (state.apply toolCall).startEvent.map fun event => [event]) = some starts →
        ∀ event ∈ starts, event.blockIndex? = some (toolCall.index + 1) := by
    intro starts found event member
    split at found
    · simp only [Option.some.injEq] at found
      simp [← found] at member
    · obtain ⟨start, start_eq, rfl⟩ := Option.map_eq_some_iff.1 found
      rw [List.mem_singleton] at member
      rw [member, startEvent_own start_eq, index]
  simp only [ToolCallState.ingest] at emitted
  split at emitted
  · simp at emitted
  · rename_i starts found
    split at emitted
    · simp only [List.mem_append, List.mem_singleton] at emitted
      rcases emitted with (start | delta) | rfl
      · exact started starts found event start
      · exact deltaEvent_own delta
      · rfl
    · simp only [List.mem_append] at emitted
      rcases emitted with start | delta
      · exact started starts found event start
      · exact deltaEvent_own delta

/-! ## The run, tool by tool -/

/-- The stream's state holds for every index the state of `toolRun`, and has
started the text block when there was text. -/
structure Follows (ops : List Op) (state : StreamState) : Prop where
  tools : ∀ t, state.toolCalls[t]?.getD {} = (toolRun t ops).1
  text : state.textStarted = decide (contents ops ≠ [])

theorem follows_step {ops : List Op} {state : StreamState} (follows : Follows ops state)
    (op : Op) : Follows (ops ++ [op]) (state.step op).1 := by
  cases op with
  | head chunk =>
      have same : (state.step (.head chunk)).1.toolCalls = state.toolCalls ∧
          (state.step (.head chunk)).1.textStarted = state.textStarted := by
        simp only [StreamState.step, StreamState.ingestHead]
        split <;> exact ⟨rfl, rfl⟩
      refine ⟨fun t => ?_, ?_⟩
      · rw [same.1, follows.tools, toolRun_snoc]
        rfl
      · rw [same.2, follows.text, contents_append]
        simp [contents]
  | content content =>
      simp only [StreamState.step, StreamState.ingestContent]
      split
      · rename_i nothing
        refine ⟨fun t => ?_, ?_⟩
        · rw [follows.tools, toolRun_snoc]
          rfl
        · rw [follows.text, contents_append, contents_content, nothing]
          simp
      · rename_i text something
        refine ⟨fun t => ?_, ?_⟩
        · rw [toolRun_snoc]
          exact follows.tools t
        · rw [contents_append, contents_content, something]
          simp
  | toolCall finishing toolCall =>
      refine ⟨fun t => ?_, ?_⟩
      · rw [toolRun_snoc]
        simp only [StreamState.step, StreamState.ingestToolCall, toolStep,
          Std.TreeMap.getElem?_insert]
        by_cases own : toolCall.index = t
        · simp [own, follows.tools t]
        · simp [own, follows.tools t]
      · simp only [StreamState.step, StreamState.ingestToolCall, follows.text, contents_append]
        simp [contents]
  | finishReason reason =>
      have text : contents (ops ++ [.finishReason reason]) = contents ops := by simp [contents]
      simp only [StreamState.step, StreamState.ingestFinishReason]
      split
      · refine ⟨fun t => ?_, by rw [text, follows.text]⟩
        rw [follows.tools, toolRun_snoc]
        rfl
      · rename_i reason
        split
        · rename_i calls
          refine ⟨fun t => ?_, by rw [text]; exact follows.text⟩
          rw [toolRun_snoc, calls]
          simp only [toolStep, if_true, Std.TreeMap.getElem?_map, ← follows.tools t]
          cases state.toolCalls[t]? <;> rfl
        · rename_i other
          refine ⟨fun t => ?_, by rw [text]; exact follows.text⟩
          rw [toolRun_snoc]
          simpa [toolStep, other] using follows.tools t

/-- Every state reached from `new` follows its operations. -/
theorem follows_run (model : String) (ops : List Op) :
    Follows ops (run (StreamState.new model, []) ops).1 := by
  induction ops using List.reverseRecOn with
  | nil => exact ⟨fun t => by simp [run, StreamState.new, toolRun], rfl⟩
  | append_singleton ops op ih =>
      rw [run_append]
      exact follows_step ih op

section Step

variable {ops : List Op} {state : StreamState}

/-- A step other than content adds to a tool's block what it adds for the tool. -/
theorem blockEvents_step (follows : Follows ops state) (op : Op)
    (wordless : ∀ content, op ≠ .content content) (t : UInt32) :
    blockEvents (t + 1) (state.step op).2 = toolEmitted t (toolRun t ops).1 op := by
  cases op with
  | head chunk =>
      refine blockEvents_none fun event emitted => ?_
      simp only [StreamState.step, StreamState.ingestHead] at emitted
      split at emitted
      · simp at emitted
      · simp only [List.mem_singleton] at emitted
        simp [emitted, StreamEvent.blockIndex?]
  | content content => exact absurd rfl (wordless content)
  | toolCall finishing toolCall =>
      simp only [StreamState.step, StreamState.ingestToolCall, toolEmitted]
      by_cases own : toolCall.index = t
      · rw [if_pos own, ← follows.tools t, ← own]
        exact blockEvents_all fun event emitted => ingest_own emitted
      · rw [if_neg own]
        refine blockEvents_none fun event emitted => ?_
        rw [ingest_own emitted]
        simpa using own
  | finishReason reason =>
      simp only [StreamState.step, StreamState.ingestFinishReason]
      split
      · rfl
      · rename_i reason
        simp only [toolEmitted, Option.some.injEq]
        split
        · rw [← follows.tools t]
          refine blockEvents_toolCalls state.toolCalls t (fun call => call.close.2) rfl ?_
          intro k call found event stop
          obtain ⟨started, index⟩ := close_own stop
          have tracks := tracks_toolRun k ops
          rw [← follows.tools k, found, Option.getD_some] at tracks
          rw [index, ToolCallState.blockIndex, tracks.index started]
        · rfl

/-- Content goes to block 0 and to no other. -/
theorem blockEvents_content (follows : Follows ops state) (content : Option String) :
    (∀ t, t + 1 ≠ 0 → blockEvents (t + 1) (state.step (.content content)).2 = []) ∧
      textBlock (contents (ops ++ [.content content])) =
        textBlock (contents ops) ++ blockEvents 0 (state.step (.content content)).2 := by
  rw [contents_append, contents_content]
  simp only [StreamState.step, StreamState.ingestContent, follows.text]
  cases content.filter (· ≠ "") with
  | none => simp [blockEvents]
  | some text =>
      constructor
      · intro t nonzero
        refine blockEvents_none fun event emitted => ?_
        have zero : event.blockIndex? = some 0 := by
          simp only [List.mem_append, List.mem_singleton] at emitted
          rcases emitted with start | rfl
          · split at start
            · simp at start
            · simp only [List.mem_singleton] at start
              rw [start]
              rfl
          · rfl
        rw [zero]
        simpa using nonzero.symm
      · rw [Option.toList_some, textBlock_append]
        by_cases first : contents ops = [] <;> simp [first, blockEvents, StreamEvent.blockIndex?]

end Step

/-- **A block above 0 is its tool's run.** -/
theorem blockEvents_run (model : String) (ops : List Op) (t : UInt32) (nonzero : t + 1 ≠ 0) :
    blockEvents (t + 1) (run (StreamState.new model, []) ops).2 = (toolRun t ops).2 := by
  induction ops using List.reverseRecOn with
  | nil => rfl
  | append_singleton ops op ih =>
      have follows := follows_run model ops
      rw [run_append, toolRun_snoc, toolStep_emitted, ← ih]
      generalize run (StreamState.new model, []) ops = emitted at follows ⊢
      change blockEvents (t + 1) (emitted.2 ++ (emitted.1.step op).2) = _
      rw [blockEvents_append]
      congr 1
      by_cases wordless : ∀ content, op ≠ .content content
      · exact blockEvents_step follows op wordless t
      · simp only [ne_eq, not_forall, not_not] at wordless
        obtain ⟨content, rfl⟩ := wordless
        exact (blockEvents_content follows content).1 t nonzero

/-- The last tool index, whose block index wraps to that of the text. -/
def lastIndex : UInt32 := 4294967295

theorem lastIndex_wraps (t : UInt32) : t + 1 = 0 ↔ t = lastIndex := by
  have zero : lastIndex + 1 = 0 := by decide
  rw [← zero, UInt32.add_left_inj]

theorem unnamed_before {t : UInt32} {ops : List Op} {op : Op}
    (unnamed : (progress t (ops ++ [op])).named = false) : (progress t ops).named = false := by
  rw [progress_snoc] at unnamed
  cases op with
  | head chunk => exact unnamed
  | content content => exact unnamed
  | finishReason reason =>
      simp only [ToolProgress.step] at unnamed
      split at unnamed <;> exact unnamed
  | toolCall finishing toolCall =>
      simp only [ToolProgress.step] at unnamed
      split at unnamed
      · exact (Bool.or_eq_false_iff.1 unnamed).1
      · exact unnamed

/-- **Block 0 is the text's**, as long as the last index has no name. -/
theorem textEvents_run (model : String) (ops : List Op)
    (unnamed : (progress lastIndex ops).named = false) :
    blockEvents 0 (run (StreamState.new model, []) ops).2 = textBlock (contents ops) := by
  induction ops using List.reverseRecOn with
  | nil => rfl
  | append_singleton ops op ih =>
      have follows := follows_run model ops
      specialize ih (unnamed_before unnamed)
      rw [run_append]
      generalize run (StreamState.new model, []) ops = emitted at follows ih ⊢
      change blockEvents 0 (emitted.2 ++ (emitted.1.step op).2) = _
      rw [blockEvents_append, ih]
      by_cases wordless : ∀ content, op ≠ .content content
      · have quiet : toolEmitted lastIndex (toolRun lastIndex ops).1 op = [] := by
          have after := (shape_toolRun lastIndex (ops ++ [op])).unnamed unnamed
          rw [toolRun_snoc, toolStep_emitted] at after
          exact (List.append_eq_nil_iff.1 after).2
        have same := @contents_of_wordless ops op wordless
        have none := blockEvents_step follows op wordless lastIndex
        rw [(lastIndex_wraps lastIndex).2 rfl, quiet] at none
        rw [none, same, List.append_nil]
      · simp only [ne_eq, not_forall, not_not] at wordless
        obtain ⟨content, rfl⟩ := wordless
        exact (blockEvents_content follows content).2.symm

/-- Every event of a tool's run is emitted. -/
theorem toolRun_subset (model : String) (ops : List Op) (t : UInt32) :
    (toolRun t ops).2 ⊆ (run (StreamState.new model, []) ops).2 := by
  induction ops using List.reverseRecOn with
  | nil => exact List.Subset.refl _
  | append_singleton ops op ih =>
      have follows := follows_run model ops
      rw [run_append, toolRun_snoc, toolStep_emitted]
      generalize run (StreamState.new model, []) ops = emitted at follows ih ⊢
      change _ ⊆ emitted.2 ++ (emitted.1.step op).2
      intro event member
      rcases List.mem_append.1 member with before | now
      · exact List.mem_append_left _ (ih before)
      · refine List.mem_append_right _ ?_
        by_cases wordless : ∀ content, op ≠ .content content
        · rw [← blockEvents_step follows op wordless t] at now
          exact List.mem_of_mem_filter now
        · simp only [ne_eq, not_forall, not_not] at wordless
          obtain ⟨content, rfl⟩ := wordless
          simp [toolEmitted] at now

/-! ## The message around the blocks -/

/-- A stream under way: its message start, and block events behind it. -/
structure Begun (emitted : Emitted) : Prop where
  messageStarted : emitted.1.messageStarted = true
  unfinished : emitted.1.finished = false
  textOpen : emitted.1.textFinished = false
  events : ∃ message blocks, emitted.2 = .messageStart message :: blocks ∧
    ∀ event ∈ blocks, event.blockIndex?.isSome

theorem begun_step {emitted : Emitted} (begun : Begun emitted) (op : Op) :
    Begun (emitted.andThen fun state => state.step op) := by
  suffices kept : ((emitted.1.step op).1.messageStarted = true ∧
      (emitted.1.step op).1.finished = false ∧ (emitted.1.step op).1.textFinished = false) ∧
      ∀ event ∈ (emitted.1.step op).2, event.blockIndex?.isSome by
    obtain ⟨⟨messageStarted, unfinished, textOpen⟩, own⟩ := kept
    obtain ⟨message, blocks, split, blocksOwn⟩ := begun.events
    refine ⟨messageStarted, unfinished, textOpen, message, blocks ++ (emitted.1.step op).2, ?_, ?_⟩
    · simp [Emitted.andThen, split]
    · intro event member
      exact (List.mem_append.1 member).elim (blocksOwn event) (own event)
  obtain ⟨messageStarted, unfinished, textOpen, -⟩ := begun
  cases op with
  | head chunk =>
      simp only [StreamState.step, StreamState.ingestHead, messageStarted, if_true]
      exact ⟨⟨trivial, unfinished, textOpen⟩, by simp⟩
  | content content =>
      simp only [StreamState.step, StreamState.ingestContent]
      split
      · exact ⟨⟨messageStarted, unfinished, textOpen⟩, by simp⟩
      · refine ⟨⟨messageStarted, unfinished, textOpen⟩, fun event member => ?_⟩
        split at member <;> simp only [List.nil_append, List.cons_append, List.mem_cons,
          List.not_mem_nil, or_false] at member
        · rw [member]
          rfl
        · rcases member with rfl | rfl <;> rfl
  | toolCall finishing toolCall =>
      refine ⟨⟨messageStarted, unfinished, textOpen⟩, fun event member => ?_⟩
      rw [ingest_own member]
      rfl
  | finishReason reason =>
      simp only [StreamState.step, StreamState.ingestFinishReason]
      split
      · exact ⟨⟨messageStarted, unfinished, textOpen⟩, by simp⟩
      · split
        · refine ⟨⟨messageStarted, unfinished, textOpen⟩, fun event member => ?_⟩
          obtain ⟨call, -, stop⟩ := List.mem_flatMap.1 member
          rw [(close_own stop).2]
          rfl
        · exact ⟨⟨messageStarted, unfinished, textOpen⟩, by simp⟩

theorem begun_run {emitted : Emitted} (begun : Begun emitted) (ops : List Op) :
    Begun (run emitted ops) := by
  induction ops generalizing emitted with
  | nil => exact begun
  | cons op ops ih => exact ih (begun_step begun op)

/-- A stream with a chunk is under way. -/
theorem begun_stream (model : String) (chunk : ChatCompletionChunk)
    (chunks : List ChatCompletionChunk) :
    Begun (run (StreamState.new model, []) (streamOps (chunk :: chunks))) := by
  rw [streamOps, List.flatMap_cons, chunkOps, List.cons_append]
  have first : Begun ((StreamState.new model).ingestHead chunk) :=
    ⟨rfl, rfl, rfl, _, [], rfl, by simp⟩
  exact begun_run first _

/-! ## The whole stream -/

/-- A tool that is not started has no name, so `finish` only closes. -/
theorem finish_eq_close {t : UInt32} {ops : List Op} {state : ToolCallState}
    (tracks : state.Tracks t ops) : state.finish = state.close := by
  unfold ToolCallState.finish
  cases started : state.started with
  | true => simp
  | false =>
      have unnamed : state.name = none := by
        have := tracks.name
        rw [← tracks.started, started] at this
        simpa using this
      simp [ToolCallState.startEvent, unnamed]

/-- All events of tool `t`: `finish` acts on it like a last finish reason. -/
def toolEvents (t : UInt32) (ops : List Op) : List StreamEvent :=
  (toolRun t (ops ++ [.finishReason (some "tool_calls")])).2

theorem toolEvents_eq (t : UInt32) (ops : List Op) :
    toolEvents t ops = (toolRun t ops).2 ++ (toolRun t ops).1.close.2 := by
  simp [toolEvents, toolStep]

theorem toolEvents_unnamed {t : UInt32} {ops : List Op}
    (unnamed : (progress t ops).named = false) : toolEvents t ops = [] :=
  (shape_toolRun t _).unnamed (by simpa [ToolProgress.step] using unnamed)

theorem toolEvents_block {t : UInt32} {ops : List Op} (named : (progress t ops).named)
    (early : (progress t ops).late = false) :
    ∃ id name texts, texts.flatten = received t ops ∧
      toolEvents t ops = toolBlock t id name texts ++ [.contentBlockStop (t + 1)] := by
  obtain ⟨id, name, texts, whole, block⟩ :=
    (shape_toolRun t (ops ++ [.finishReason (some "tool_calls")])).block
      (by simpa [ToolProgress.step] using named) (by simpa [ToolProgress.step] using early)
  refine ⟨id, name, texts, by simpa [received] using whole, ?_⟩
  simpa [toolEvents, ToolProgress.step, named] using block

section Finish

variable {ops : List Op} {state : StreamState}

theorem blockEvents_finish (follows : Follows ops state) (t : UInt32) :
    blockEvents (t + 1) (state.toolCalls.toList.flatMap fun call => call.2.finish.2) =
      (toolRun t ops).1.close.2 := by
  rw [blockEvents_toolCalls state.toolCalls t (fun call => call.finish.2) rfl, follows.tools,
    finish_eq_close (tracks_toolRun t ops)]
  intro k call found event emitted
  have tracks := tracks_toolRun k ops
  rw [← follows.tools k, found, Option.getD_some] at tracks
  rw [finish_eq_close tracks] at emitted
  obtain ⟨started, index⟩ := close_own emitted
  rw [index, ToolCallState.blockIndex, tracks.index started]

/-- The stop of the text block, owed when there was text. -/
def textStop (texts : List String) : List StreamEvent :=
  if texts = [] then [] else [.contentBlockStop 0]

end Finish

/-- **All events of a stream with a chunk**: the run's, the stops still owed, and
the message end. -/
theorem events_eq (model : String) (chunk : ChatCompletionChunk)
    (chunks : List ChatCompletionChunk) :
    let ops := streamOps (chunk :: chunks)
    let emitted := run (StreamState.new model, []) ops
    ∃ delta usage, delta = ⟨some (emitted.1.stopReason.getD "end_turn"), none⟩ ∧
      usage = emitted.1.usage.getD Usage.zero ∧
      StreamState.events model (chunk :: chunks) =
        emitted.2 ++ (textStop (contents ops) ++
          emitted.1.toolCalls.toList.flatMap fun call => call.2.finish.2) ++
            [.messageDelta delta usage, .messageStop] := by
  intro ops emitted
  have begun : Begun emitted := begun_stream model chunk chunks
  have follows : Follows ops emitted.1 := follows_run model ops
  refine ⟨_, _, rfl, rfl, ?_⟩
  have text : (emitted.1.textStarted && !emitted.1.textFinished) =
      decide (contents ops ≠ []) := by
    rw [follows.text, begun.textOpen, Bool.not_false, Bool.and_true]
  rw [StreamState.events, ingestAll_eq_run]
  change emitted.2 ++ emitted.1.finish.2 = _
  simp only [StreamState.finish, begun.unfinished, Bool.false_eq_true, if_false, text,
    begun.messageStarted, if_true, decide_eq_true_eq, textStop]
  by_cases none : contents ops = [] <;> simp [none]

/-! ## Well-formed streams -/

/-- A block is a start, deltas and one stop. -/
def Bracketed (events : List StreamEvent) : Prop :=
  ∃ start deltas stop, events = start :: deltas ++ [stop] ∧
    start.isStart ∧ (∀ delta ∈ deltas, delta.isDelta) ∧ stop.isStop

/-- The tool input a block's deltas carry. -/
def inputJson (events : List StreamEvent) : List Char :=
  events.flatMap fun
    | .contentBlockDelta _ (.inputJsonDelta partialJson) => partialJson.toList
    | _ => []

/-- All argument text sent for a tool index, in order. -/
def argumentFragments (t : UInt32) (chunks : List ChatCompletionChunk) : List Char :=
  chunks.flatMap fun chunk => chunk.choices.flatMap fun choice =>
    choice.delta.toolCalls.flatMap fun toolCall =>
      if toolCall.index = t then argumentText toolCall else []

structure WellFormed (chunks : List ChatCompletionChunk) (events : List StreamEvent) : Prop where
  message : if chunks = [] then events = [] else
    ∃ message blocks delta usage, events =
        .messageStart message :: blocks ++ [.messageDelta delta usage, .messageStop] ∧
      ∀ event ∈ blocks, event.blockIndex?.isSome
  brackets : ∀ index, blockEvents index events = [] ∨ Bracketed (blockEvents index events)
  textStart : ∀ index text, .contentBlockStart index (.text text) ∈ events → index = 0
  textDelta : ∀ index text, .contentBlockDelta index (.textDelta text) ∈ events → index = 0
  toolStart : ∀ index id name input,
    .contentBlockStart index (.toolUse id name input) ∈ events → index ≠ 0
  arguments : ∀ t id name input,
    .contentBlockStart (t + 1) (.toolUse id name input) ∈ events →
      inputJson (blockEvents (t + 1) events) = argumentFragments t chunks

/-- No tool is sent argument text after its block was closed, and the last index
is not given a name. -/
structure Timely (chunks : List ChatCompletionChunk) : Prop where
  early : ∀ t, (progress t (streamOps chunks)).late = false
  below : (progress lastIndex (streamOps chunks)).named = false

theorem received_streamOps (t : UInt32) (chunks : List ChatCompletionChunk) :
    received t (streamOps chunks) = argumentFragments t chunks := by
  have choice : ∀ choice, received t (choiceOps choice) =
      choice.delta.toolCalls.flatMap fun toolCall =>
        if toolCall.index = t then argumentText toolCall else [] := by
    intro choice
    simp [received, choiceOps, List.flatMap_map]
  unfold streamOps argumentFragments
  rw [received, List.flatMap_assoc]
  refine List.flatMap_congr fun chunk _ => ?_
  change [] ++ received t (chunk.choices.flatMap choiceOps) = _
  rw [List.nil_append, received, List.flatMap_assoc]
  exact List.flatMap_congr fun c _ => choice c

/-- Nothing follows the stop of a bracketed block. -/
theorem not_bracketed_behind_stop {index : UInt32} {before after : List StreamEvent}
    {event : StreamEvent} (stop : .contentBlockStop index ∈ before) :
    ¬ Bracketed (before ++ event :: after) := by
  rintro ⟨start, deltas, last, split, isStart, isDelta, -⟩
  have body := congrArg List.dropLast split
  rw [List.dropLast_append_of_ne_nil (by simp), List.dropLast_concat] at body
  have member : .contentBlockStop index ∈ start :: deltas := by
    rw [← body]
    exact List.mem_append_left _ stop
  rcases List.mem_cons.1 member with rfl | delta
  · cases isStart
  · cases isDelta _ delta

theorem mem_blockEvents {index : UInt32} {events : List StreamEvent} {event : StreamEvent}
    (member : event ∈ events) (own : event.blockIndex? = some index) :
    event ∈ blockEvents index events :=
  List.mem_filter.2 ⟨member, by simp [own]⟩

section Stream

variable (model : String) (chunks : List ChatCompletionChunk)

/-- **A block above 0 holds the events of its tool.** -/
theorem blockEvents_events (t : UInt32) (nonzero : t + 1 ≠ 0) :
    blockEvents (t + 1) (StreamState.events model chunks) =
      toolEvents t (streamOps chunks) := by
  cases chunks with
  | nil => rfl
  | cons chunk chunks =>
      obtain ⟨delta, usage, -, -, events⟩ := events_eq model chunk chunks
      have follows := follows_run model (streamOps (chunk :: chunks))
      have noText : blockEvents (t + 1) (textStop (contents (streamOps (chunk :: chunks)))) = [] := by
        refine blockEvents_none fun event member => ?_
        have stop : event = .contentBlockStop 0 := by
          unfold textStop at member
          split at member <;> simp_all
        rw [stop]
        simpa [StreamEvent.blockIndex?] using nonzero.symm
      have noEnd : blockEvents (t + 1) [.messageDelta delta usage, .messageStop] = [] := rfl
      rw [events, blockEvents_append, blockEvents_append, blockEvents_append,
        blockEvents_run model _ t nonzero, blockEvents_finish follows t, noText, noEnd,
        toolEvents_eq, List.nil_append, List.append_nil]

/-- **Block 0 holds the text**, as long as the last index has no name. -/
theorem textEvents_events (below : (progress lastIndex (streamOps chunks)).named = false) :
    blockEvents 0 (StreamState.events model chunks) =
      textBlock (contents (streamOps chunks)) ++ textStop (contents (streamOps chunks)) := by
  cases chunks with
  | nil => rfl
  | cons chunk chunks =>
      obtain ⟨delta, usage, -, -, events⟩ := events_eq model chunk chunks
      have follows := follows_run model (streamOps (chunk :: chunks))
      have noTool : (toolRun lastIndex (streamOps (chunk :: chunks))).1.close.2 = [] := by
        have none := toolEvents_unnamed below
        rw [toolEvents_eq] at none
        exact (List.append_eq_nil_iff.1 none).2
      have tools := blockEvents_finish follows lastIndex
      rw [(lastIndex_wraps lastIndex).2 rfl, noTool] at tools
      have stop : ∀ texts, blockEvents 0 (textStop texts) = textStop texts := by
        intro texts
        unfold textStop
        split <;> rfl
      have noEnd : blockEvents 0 [.messageDelta delta usage, .messageStop] = [] := rfl
      rw [events, blockEvents_append, blockEvents_append, blockEvents_append,
        textEvents_run model _ below, tools, stop, noEnd, List.append_nil, List.append_nil]

/-- The message end, and the message start if any chunk came. -/
theorem message_events :
    if chunks = [] then StreamState.events model chunks = [] else
      ∃ message blocks delta usage, StreamState.events model chunks =
          .messageStart message :: blocks ++ [.messageDelta delta usage, .messageStop] ∧
        ∀ event ∈ blocks, event.blockIndex?.isSome := by
  cases chunks with
  | nil => rfl
  | cons chunk chunks =>
      rw [if_neg (by simp)]
      obtain ⟨delta, usage, -, -, events⟩ := events_eq model chunk chunks
      obtain ⟨message, blocks, begin, own⟩ := (begun_stream model chunk chunks).events
      have follows := follows_run model (streamOps (chunk :: chunks))
      rw [begin] at events
      refine ⟨message, _, delta, usage, events, ?_⟩
      intro event member
      rcases List.mem_append.1 member with block | member
      · exact own event block
      rcases List.mem_append.1 member with stop | tool
      · unfold textStop at stop
        split at stop
        · simp at stop
        · rw [List.mem_singleton.1 stop]
          rfl
      · obtain ⟨⟨k, call⟩, held, emitted⟩ := List.mem_flatMap.1 tool
        have tracks := tracks_toolRun k (streamOps (chunk :: chunks))
        rw [← follows.tools k, Std.TreeMap.mem_toList_iff_getElem?_eq_some.1 held,
          Option.getD_some] at tracks
        rw [finish_eq_close tracks] at emitted
        rw [(close_own emitted).2]
        rfl

end Stream

theorem inputJson_toolBlock (t : UInt32) (id name : String) (texts : List (List Char)) :
    inputJson (toolBlock t id name texts ++ [.contentBlockStop (t + 1)]) = texts.flatten := by
  simp only [inputJson, toolBlock, toolStart, List.cons_append, List.flatMap_cons,
    List.flatMap_append, List.nil_append, List.flatMap_nil, List.append_nil]
  induction texts with
  | nil => rfl
  | cons text texts ih => simp [ih]

/-- A tool in time is a bracketed block, of tool events only. -/
theorem toolEvents_wellFormed {t : UInt32} {ops : List Op} (early : (progress t ops).late = false) :
    (toolEvents t ops = [] ∨
        Bracketed (toolEvents t ops) ∧ inputJson (toolEvents t ops) = received t ops) ∧
      ∀ event ∈ toolEvents t ops, (∀ index text, event ≠ .contentBlockStart index (.text text)) ∧
        ∀ index text, event ≠ .contentBlockDelta index (.textDelta text) := by
  cases named : (progress t ops).named with
  | false => simp [toolEvents_unnamed named]
  | true =>
      obtain ⟨id, name, texts, whole, events⟩ := toolEvents_block named early
      rw [events, inputJson_toolBlock, whole]
      refine ⟨Or.inr ⟨⟨_, _, _, rfl, rfl, fun delta member => ?_, rfl⟩, rfl⟩, ?_⟩
      · obtain ⟨text, -, rfl⟩ := List.mem_map.1 member
        rfl
      · intro event member
        simp only [toolBlock, toolStart, List.cons_append, List.mem_cons, List.mem_append,
          List.mem_map, List.not_mem_nil, or_false] at member
        rcases member with rfl | ⟨text, -, rfl⟩ | rfl <;> simp

/-- Text is a bracketed block too, of text events only. -/
theorem textEvents_wellFormed (texts : List String) :
    (textBlock texts ++ textStop texts = [] ∨ Bracketed (textBlock texts ++ textStop texts)) ∧
      ∀ event ∈ textBlock texts ++ textStop texts, ∀ index id name input,
        event ≠ .contentBlockStart index (.toolUse id name input) := by
  by_cases none : texts = []
  · simp [textBlock, textStop, none]
  · simp only [textBlock, textStop, none, if_false]
    refine ⟨Or.inr ⟨_, _, _, rfl, rfl, fun delta member => ?_, rfl⟩, ?_⟩
    · obtain ⟨text, -, rfl⟩ := List.mem_map.1 member
      rfl
    · intro event member
      simp only [List.cons_append, List.mem_cons, List.mem_append, List.mem_map,
        List.not_mem_nil, or_false] at member
      rcases member with rfl | ⟨text, -, rfl⟩ | rfl <;> simp

theorem wellFormed_of_timely (model : String) (chunks : List ChatCompletionChunk)
    (timely : Timely chunks) : WellFormed chunks (StreamState.events model chunks) := by
  obtain ⟨early, below⟩ := timely
  have text := textEvents_events model chunks below
  have textShape := textEvents_wellFormed (contents (streamOps chunks))
  rw [← text] at textShape
  have tool : ∀ index, index ≠ 0 → ∃ t, index = t + 1 ∧
      blockEvents index (StreamState.events model chunks) = toolEvents t (streamOps chunks) := by
    intro index nonzero
    obtain ⟨t, rfl⟩ : ∃ t, index = t + 1 := ⟨index - 1, by simp⟩
    exact ⟨t, rfl, blockEvents_events model chunks t nonzero⟩
  have noTool : ∀ index id name input, .contentBlockStart index (.toolUse id name input) ∈
      StreamState.events model chunks → index ≠ 0 := by
    rintro index id name input member rfl
    exact textShape.2 _ (mem_blockEvents member rfl) 0 id name input rfl
  refine ⟨message_events model chunks, fun index => ?_, fun index text member => ?_,
    fun index text member => ?_, noTool, fun t id name input member => ?_⟩
  · by_cases zero : index = 0
    · rw [zero]
      exact textShape.1
    · obtain ⟨t, -, events⟩ := tool index zero
      rw [events]
      exact (toolEvents_wellFormed (early t)).1.imp_right And.left
  · by_contra nonzero
    obtain ⟨t, -, events⟩ := tool index nonzero
    have held := mem_blockEvents member rfl
    rw [events] at held
    exact ((toolEvents_wellFormed (early t)).2 _ held).1 index text rfl
  · by_contra nonzero
    obtain ⟨t, -, events⟩ := tool index nonzero
    have held := mem_blockEvents member rfl
    rw [events] at held
    exact ((toolEvents_wellFormed (early t)).2 _ held).2 index text rfl
  · have held := mem_blockEvents member rfl
    have events := blockEvents_events model chunks t (noTool _ _ _ _ member)
    rw [events] at held ⊢
    rcases (toolEvents_wellFormed (early t)).1 with none | ⟨-, whole⟩
    · rw [none] at held
      cases held
    · rw [whole, received_streamOps]

theorem timely_of_wellFormed (model : String) (chunks : List ChatCompletionChunk)
    (wellFormed : WellFormed chunks (StreamState.events model chunks)) : Timely chunks := by
  have below : (progress lastIndex (streamOps chunks)).named = false := by
    by_contra named
    obtain ⟨id, name, start⟩ :=
      (shape_toolRun lastIndex (streamOps chunks)).started (by simpa using named)
    have member := toolRun_subset model _ lastIndex start
    have emitted : StreamState.events model chunks =
        (run (StreamState.new model, []) (streamOps chunks)).2 ++
          (run (StreamState.new model, []) (streamOps chunks)).1.finish.2 := by
      rw [StreamState.events, ingestAll_eq_run]
      rfl
    refine wellFormed.toolStart _ id name (.object []) ?_ ((lastIndex_wraps lastIndex).2 rfl)
    rw [emitted]
    exact List.mem_append_left _ member
  refine ⟨fun t => ?_, below⟩
  by_contra late
  have late : (progress t (streamOps chunks)).late := by simpa using late
  have nonzero : t + 1 ≠ 0 := by
    rw [ne_eq, lastIndex_wraps]
    rintro rfl
    obtain ⟨named, closed⟩ := progress_order lastIndex (streamOps chunks)
    simp [named (closed late)] at below
  obtain ⟨before, text, after, split, stop⟩ := (shape_toolRun t (streamOps chunks)).late late
  have events := blockEvents_events model chunks t nonzero
  rw [toolEvents_eq, split, List.append_assoc, List.cons_append] at events
  rcases wellFormed.brackets (t + 1) with none | bracketed
  · rw [events] at none
    simp at none
  · rw [events] at bracketed
    exact not_bracketed_behind_stop stop bracketed

/-- **The emitted events are well formed exactly when the chunks are timely.** -/
theorem wellFormed_iff_timely (model : String) (chunks : List ChatCompletionChunk) :
    WellFormed chunks (StreamState.events model chunks) ↔ Timely chunks :=
  ⟨timely_of_wellFormed model chunks, wellFormed_of_timely model chunks⟩

/-! ## A late fragment -/

/-- A chunk of one choice with one tool delta for index `0`. -/
def toolChunk (name arguments finishReason : Option String) : ChatCompletionChunk :=
  { id := "chunk"
    model := none
    choices := [⟨⟨none, [⟨0, none, ⟨name, arguments⟩⟩]⟩, finishReason⟩]
    usage := none }

/-- A finish reason that comes with the first fragment, and a second fragment. -/
def lateChunks : List ChatCompletionChunk :=
  [toolChunk (some "bash") (some "a") (some "tool_calls"), toolChunk none (some "b") none]

theorem lateChunks_not_wellFormed :
    ¬ WellFormed lateChunks (StreamState.events "model" lateChunks) := by
  intro wellFormed
  have late := (timely_of_wellFormed "model" lateChunks wellFormed).early 0
  revert late
  decide

end OpenAi

end Openyak.Api
