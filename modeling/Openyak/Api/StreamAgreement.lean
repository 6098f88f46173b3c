/-
# Api.StreamAgreement -- a streamed reply against the same reply sent whole

`Encodes` is a stream of chunks that carries a response.  `foldl_toolRun` says what block
its events leave for one tool, `foldl_blockZero` what they leave at index 0.

A block is stopped at the first delta of its tool in a chunk with the finish reason
`tool_calls`, so a second delta there comes too late (`inTime`); and the tool index
`u32::MAX` puts its block before the others.
-/
import Openyak.Api.OpenAiResponse
import Mathlib.Data.List.Sort

namespace Openyak.Api.OpenAi

open Openyak.Theory (Json SerdeJson)

set_option autoImplicit false

/-! ## The block of one tool -/

/-- The deltas of a tool, in order. -/
def deltasOf (t : UInt32) (ops : List Op) : List DeltaToolCall :=
  ops.flatMap fun
    | .toolCall _ toolCall => if toolCall.index = t then [toolCall] else []
    | _ => []

theorem deltasOf_append (t : UInt32) (xs ys : List Op) :
    deltasOf t (xs ++ ys) = deltasOf t xs ++ deltasOf t ys := List.flatMap_append

def inTimeStep (t : UInt32) (seen : ToolProgress × List Char) (op : Op) :
    ToolProgress × List Char :=
  (seen.1.step t op, if seen.1.closed then seen.2 else seen.2 ++ received t [op])

/-- The argument text that arrives before the tool's block is stopped. -/
def inTime (t : UInt32) (ops : List Op) : List Char :=
  (ops.foldl (inTimeStep t) ({}, [])).2

@[simp] theorem inTime_snoc (t : UInt32) (ops : List Op) (op : Op) :
    inTime t (ops ++ [op]) =
      if (progress t ops).closed then inTime t ops else inTime t ops ++ received t [op] := by
  have same : ∀ ops : List Op, (ops.foldl (inTimeStep t) ({}, [])).1 = progress t ops := by
    intro ops
    induction ops using List.reverseRecOn with
    | nil => rfl
    | append_singleton ops op ih =>
        rw [List.foldl_append, progress_snoc, ← ih]
        rfl
  rw [inTime, List.foldl_append, List.foldl_cons, List.foldl_nil, inTimeStep, same]
  rfl

/-- The first delta of the tool, if there is one, gives it this id and this name. -/
def Introduced (t : UInt32) (id name : String) (ops : List Op) : Prop :=
  ∀ first, (deltasOf t ops).head? = some first →
    first.id = some id ∧ first.function.name = some name

/-- What the events of tool `t` leave of its block. -/
def toolReply (t : UInt32) (id name : String) (ops : List Op) : BlockReply :=
  ⟨.toolUse id name (.object []), inTime t ops, (progress t ops).closed⟩

section OneTool

variable {t : UInt32} {id name : String} {ops : List Op} {finishing : Bool}
  {toolCall : DeltaToolCall}

theorem Introduced.before {op : Op} (introduced : Introduced t id name (ops ++ [op])) :
    Introduced t id name ops := by
  intro first isFirst
  refine introduced first ?_
  rw [deltasOf_append, List.head?_append, isFirst]
  rfl

/-- The events of a delta add its text to an open block, and end it when finishing. -/
theorem foldl_argumentDelta (block : BlockReply) (text : List Char) :
    (argumentDelta t text).foldl BlockReply.step (some block) =
      some (if block.stopped then block
        else { block with received := block.received ++ text }) := by
  unfold argumentDelta
  split
  · rename_i empty
    rw [List.isEmpty_iff.1 empty, List.append_nil]
    cases block
    simp
  · simp [BlockReply.step, deltaText]

/-- Whether a tool has a name, and what its events leave of its block. -/
structure Leaves (t : UInt32) (id name : String) (ops : List Op) (events : List StreamEvent) :
    Prop where
  named : (progress t ops).named = !(deltasOf t ops).isEmpty
  block : ∀ before, events.foldl BlockReply.step before =
    if deltasOf t ops = [] then before else some (toolReply t id name ops)

theorem leaves_of_unchanged {op : Op} {events : List StreamEvent}
    (leaves : Leaves t id name ops events) (alien : deltasOf t [op] = [])
    (progressed : (progress t ops).step t op = progress t ops) (silent : received t [op] = []) :
    Leaves t id name (ops ++ [op]) events := by
  have same : deltasOf t (ops ++ [op]) = deltasOf t ops := by
    rw [deltasOf_append, alien, List.append_nil]
  have block : toolReply t id name (ops ++ [op]) = toolReply t id name ops := by
    simp [toolReply, progressed, silent]
  exact ⟨by rw [progress_snoc, progressed, same, leaves.named], by
    rw [same, block]; exact leaves.block⟩

theorem leaves_finishReason (leaves : Leaves t id name ops (toolRun t ops).2)
    (reason : Option String) :
    Leaves t id name (ops ++ [.finishReason reason])
      ((toolRun t ops).2 ++ toolEmitted t (toolRun t ops).1 (.finishReason reason)) := by
  have tracks := tracks_toolRun t ops
  by_cases calls : reason = some "tool_calls"
  · subst calls
    have same : deltasOf t (ops ++ [.finishReason (some "tool_calls")]) = deltasOf t ops := by
      simp [deltasOf]
    have silent : received t [.finishReason (some "tool_calls")] = [] := rfl
    refine ⟨by simp [ToolProgress.step, same, leaves.named], fun before => ?_⟩
    rw [List.foldl_append, leaves.block, same]
    simp only [toolEmitted, if_true, ToolCallState.close, tracks.started, tracks.stopped]
    by_cases none : deltasOf t ops = []
    · simp [none, leaves.named]
    · have isNamed : (progress t ops).named = true := by simp [leaves.named, none]
      cases closed : (progress t ops).closed <;>
        simp [none, isNamed, toolReply, silent, closed, ToolProgress.step, BlockReply.step]
  · have emitted : toolEmitted t (toolRun t ops).1 (.finishReason reason) = [] := by
      simp [toolEmitted, calls]
    rw [emitted, List.append_nil]
    exact leaves_of_unchanged leaves rfl (by simp [ToolProgress.step, calls]) rfl

theorem received_eq_deltas (t : UInt32) (ops : List Op) :
    received t ops = (deltasOf t ops).flatMap argumentText := by
  rw [received, deltasOf, List.flatMap_assoc]
  refine List.flatMap_congr fun op _ => ?_
  cases op with
  | toolCall finishing toolCall => by_cases own : toolCall.index = t <;> simp [own]
  | _ => rfl

/-- A tool that is not closed has all its text in time. -/
theorem inTime_of_open (opened : (progress t ops).closed = false) :
    inTime t ops = received t ops := by
  induction ops using List.reverseRecOn with
  | nil => rfl
  | append_singleton ops op ih =>
      have before : (progress t ops).closed = false := by
        rw [progress_snoc] at opened
        cases op with
        | head chunk => exact opened
        | content content => exact opened
        | finishReason reason =>
            simp only [ToolProgress.step] at opened
            split at opened
            · exact (Bool.or_eq_false_iff.1 opened).1
            · exact opened
        | toolCall finishing toolCall =>
            simp only [ToolProgress.step] at opened
            split at opened
            · exact (Bool.or_eq_false_iff.1 opened).1
            · exact opened
      rw [inTime_snoc, before, if_neg (by simp), ih before, received_snoc]

theorem leaves_toolCall (introduced : Introduced t id name (ops ++ [.toolCall finishing toolCall]))
    (leaves : Leaves t id name ops (toolRun t ops).2) (own : toolCall.index = t) :
    Leaves t id name (ops ++ [.toolCall finishing toolCall])
      ((toolRun t ops).2 ++ toolEmitted t (toolRun t ops).1 (.toolCall finishing toolCall)) := by
  have tracks := tracks_toolRun t ops
  generalize (toolRun t ops).1 = state at tracks
  have deltas : deltasOf t (ops ++ [.toolCall finishing toolCall]) =
      deltasOf t ops ++ [toolCall] := by
    simp [deltasOf, own]
  have text : received t [.toolCall finishing toolCall] = argumentText toolCall := by
    simp [received, own]
  have isNamed : (state.apply toolCall).name.isSome = true := by
    by_cases first : deltasOf t ops = []
    · have given := (introduced toolCall (by simp [deltas, first])).2
      simp [ToolCallState.apply, given]
    · simp [ToolCallState.apply, Option.isSome_or, tracks.name, leaves.named, first]
  obtain ⟨-, startId, startName, hasName, hasId, emitted⟩ :=
    ingest_named finishing toolCall own tracks isNamed
  have now : progress t (ops ++ [.toolCall finishing toolCall]) =
      { progress t ops with
        named := true
        closed := (progress t ops).closed || finishing
        late := (progress t ops).late ||
          ((progress t ops).closed && !(argumentText toolCall).isEmpty) } := by
    have named : ((progress t ops).named || toolCall.function.name.isSome) = true := by
      rw [← tracks.name, Bool.or_comm, ← Option.isSome_or]
      exact isNamed
    simp [ToolProgress.step, own, named]
  have grown : ¬ deltasOf t (ops ++ [.toolCall finishing toolCall]) = [] := by simp [deltas]
  refine ⟨by simp [now, deltas], fun before => ?_⟩
  rw [List.foldl_append, leaves.block, if_neg grown]
  simp only [toolEmitted, own, if_true, emitted, toolReply, inTime_snoc, now, text,
    List.foldl_append, tracks.stopped]
  by_cases first : deltasOf t ops = []
  · obtain ⟨given, givenName⟩ := introduced toolCall (by simp [deltas, first])
    have unnamed : (progress t ops).named = false := by simp [leaves.named, first]
    have opened : (progress t ops).closed = false := by
      by_contra closed
      simp [(progress_order t ops).1 (by simpa using closed)] at unnamed
    have nothing : received t ops = [] := by simp [received_eq_deltas, first]
    have isId : startId = id := hasId id (by simp [ToolCallState.apply, given])
    have isName : startName = name := by
      simpa [ToolCallState.apply, givenName] using hasName.symm
    have passed : state.passed toolCall = argumentText toolCall := by
      simp [ToolCallState.passed, tracks.started, unnamed, tracks.arguments, nothing]
    have start : [toolStart t startId startName].foldl BlockReply.step before =
        some ⟨.toolUse id name (.object []), [], false⟩ := by
      rw [isId, isName]
      rfl
    rw [if_pos first, tracks.started, unnamed, if_neg Bool.false_ne_true, start,
      foldl_argumentDelta, passed, opened, inTime_of_open opened, nothing]
    cases finishing <;> simp [BlockReply.step]
  · have named : (progress t ops).named = true := by simp [leaves.named, first]
    have passed : state.passed toolCall = argumentText toolCall := by
      simp [ToolCallState.passed, tracks.started, named]
    rw [if_neg first, tracks.started, named, if_pos rfl, List.foldl_nil, foldl_argumentDelta,
      passed]
    cases closed : (progress t ops).closed <;> cases finishing <;>
      simp [BlockReply.step]

/-- **The events of a tool leave its block**: with the id and name of its first delta, and
the argument text that came in time. -/
theorem leaves_toolRun (introduced : Introduced t id name ops) :
    Leaves t id name ops (toolRun t ops).2 := by
  induction ops using List.reverseRecOn with
  | nil => exact ⟨rfl, fun _ => rfl⟩
  | append_singleton ops op ih =>
      have leaves := ih introduced.before
      rw [toolRun_snoc, toolStep_emitted]
      cases op with
      | head chunk =>
          simp only [toolEmitted, List.append_nil]
          exact leaves_of_unchanged leaves rfl rfl rfl
      | content content =>
          simp only [toolEmitted, List.append_nil]
          exact leaves_of_unchanged leaves rfl rfl rfl
      | finishReason reason => exact leaves_finishReason leaves reason
      | toolCall finishing toolCall =>
          by_cases own : toolCall.index = t
          · exact leaves_toolCall introduced leaves own
          · rw [toolEmitted, if_neg own, List.append_nil]
            exact leaves_of_unchanged leaves (by simp [deltasOf, own])
              (by simp [ToolProgress.step, own]) (by simp [received, own])

/-- A tool without deltas has no events. -/
theorem toolRun_of_no_deltas (none : deltasOf t ops = []) : (toolRun t ops).2 = [] := by
  have introduced : Introduced t "" "" ops := by simp [Introduced, none]
  refine (shape_toolRun t ops).unnamed ?_
  rw [(leaves_toolRun introduced).named, none]
  rfl

/-- The stop that is owed when the stream ends. -/
theorem foldl_close (introduced : Introduced t id name ops) (sent : deltasOf t ops ≠ [])
    {block : BlockReply} (ended : (progress t ops).closed → block.stopped) :
    (toolRun t ops).1.close.2.foldl BlockReply.step (some block) =
      some { block with stopped := true } := by
  have tracks := tracks_toolRun t ops
  have named : (progress t ops).named = true := by
    simp [(leaves_toolRun introduced).named, sent]
  rw [ToolCallState.close, tracks.started, tracks.stopped, named]
  cases closed : (progress t ops).closed with
  | false => rfl
  | true =>
      have stopped := ended closed
      cases block
      simp_all

/-- **The block of a tool**, when its index leaves block 0 alone. -/
theorem accumulate_tool (model : String) (chunks : List ChatCompletionChunk) (t : UInt32)
    (nonzero : t + 1 ≠ 0) (introduced : Introduced t id name (streamOps chunks)) :
    (accumulate (StreamState.events model chunks))[t + 1]? =
      if deltasOf t (streamOps chunks) = [] then none
      else some { toolReply t id name (streamOps chunks) with stopped := true } := by
  rw [accumulate_get?, blockEvents_events model chunks t nonzero, toolEvents_eq,
    List.foldl_append, (leaves_toolRun introduced).block]
  by_cases none : deltasOf t (streamOps chunks) = []
  · have unnamed : (progress t (streamOps chunks)).named = false := by
      simp [(leaves_toolRun introduced).named, none]
    have idle : (toolRun t (streamOps chunks)).1.close.2 = [] := by
      simp [ToolCallState.close, (tracks_toolRun t (streamOps chunks)).started, unnamed]
    rw [if_pos none, if_pos none, idle]
    rfl
  · rw [if_neg none, if_neg none]
    exact foldl_close introduced none fun closed => closed

end OneTool

/-! ## The block at index 0 -/

def Op.isToolCall : Op → Bool
  | .toolCall .. => true
  | _ => false

/-- No text comes behind a tool's delta. -/
def TextFirst (ops : List Op) : Prop :=
  ops.Pairwise fun earlier later => earlier.isToolCall → contents [later] = []

theorem deltasOf_of_no_calls {t : UInt32} {ops : List Op}
    (none : ∀ op ∈ ops, op.isToolCall = false) : deltasOf t ops = [] := by
  refine List.flatMap_eq_nil_iff.2 fun op member => ?_
  have other := none op member
  cases op with
  | toolCall finishing toolCall => simp [Op.isToolCall] at other
  | _ => rfl

/-- Block 0 holds the text, and behind it the tool of the last index. -/
theorem blockZero_run (model : String) {ops : List Op} (first : TextFirst ops) :
    blockEvents 0 (run (StreamState.new model, []) ops).2 =
      textBlock (contents ops) ++ (toolRun lastIndex ops).2 := by
  induction ops using List.reverseRecOn with
  | nil => rfl
  | append_singleton ops op ih =>
      obtain ⟨before, -, behind⟩ := List.pairwise_append.1 first
      have follows := follows_run model ops
      specialize ih before
      rw [run_append, toolRun_snoc, toolStep_emitted]
      generalize run (StreamState.new model, []) ops = emitted at follows ih ⊢
      change blockEvents 0 (emitted.2 ++ (emitted.1.step op).2) = _
      rw [blockEvents_append, ih]
      by_cases wordless : ∀ content, op ≠ .content content
      · have step := blockEvents_step follows op wordless lastIndex
        rw [(lastIndex_wraps lastIndex).2 rfl] at step
        rw [step, contents_of_wordless wordless, List.append_assoc]
      · simp only [ne_eq, not_forall, not_not] at wordless
        obtain ⟨content, rfl⟩ := wordless
        have step := (blockEvents_content follows content).2
        have silent : toolEmitted lastIndex (toolRun lastIndex ops).1 (.content content) = [] := rfl
        rw [step, silent, List.append_nil]
        by_cases none : contents [.content content] = []
        · rw [contents_append, none, List.append_nil, List.self_eq_append_right] at step
          rw [step, List.append_nil, List.append_nil]
        · have noCalls : ∀ op ∈ ops, op.isToolCall = false := by
            intro op member
            by_contra isCall
            exact none (behind op member _ (by simp) (by simpa using isCall))
          rw [toolRun_of_no_deltas (deltasOf_of_no_calls noCalls), List.append_nil, List.append_nil]

/-- The text block, when there was text. -/
def textReply (texts : List String) : Option BlockReply :=
  if texts = [] then none else some ⟨.text "", texts.flatMap String.toList, false⟩

theorem foldl_textBlock (texts : List String) :
    (textBlock texts).foldl BlockReply.step none = textReply texts := by
  by_cases none : texts = []
  · simp [textBlock, textReply, none]
  · have deltas : ∀ (texts : List String) (block : BlockReply), block.stopped = false →
        (texts.map fun text => StreamEvent.contentBlockDelta 0 (.textDelta text)).foldl
          BlockReply.step (some block) =
            some { block with received := block.received ++ texts.flatMap String.toList } := by
      intro texts
      induction texts with
      | nil => intro block _; simp
      | cons text texts ih =>
          intro block opened
          rw [List.map_cons, List.foldl_cons, BlockReply.step, opened, if_neg Bool.false_ne_true, ih]
          · simp [deltaText]
          · rfl
    rw [textBlock, textReply, if_neg none, if_neg none, List.foldl_cons, BlockReply.step, deltas]
    · rfl
    · rfl

/-- **The block at index 0**: the text, unless a tool has the last index. -/
theorem accumulate_zero (model : String) (chunks : List ChatCompletionChunk) {id name : String}
    (first : TextFirst (streamOps chunks))
    (introduced : Introduced lastIndex id name (streamOps chunks)) :
    (accumulate (StreamState.events model chunks))[(0 : UInt32)]? =
      if deltasOf lastIndex (streamOps chunks) = [] then
        (textReply (contents (streamOps chunks))).map fun block => { block with stopped := true }
      else some { toolReply lastIndex id name (streamOps chunks) with stopped := true } := by
  cases chunks with
  | nil => rfl
  | cons chunk chunks =>
      obtain ⟨delta, usage, -, -, events⟩ := events_eq model chunk chunks
      generalize streamOps (chunk :: chunks) = ops at *
      have follows := follows_run model ops
      have closing := blockEvents_finish follows lastIndex
      rw [(lastIndex_wraps lastIndex).2 rfl] at closing
      have stop : blockEvents 0 (textStop (contents ops)) = textStop (contents ops) := by
        unfold textStop
        split <;> rfl
      have noEnd : blockEvents 0 [.messageDelta delta usage, .messageStop] = [] := rfl
      rw [accumulate_get?, events, blockEvents_append, blockEvents_append, blockEvents_append,
        blockZero_run model first, stop, closing, noEnd, List.append_nil]
      simp only [List.foldl_append, foldl_textBlock, (leaves_toolRun introduced).block]
      by_cases none : deltasOf lastIndex ops = []
      · have unnamed : (progress lastIndex ops).named = false := by
          simp [(leaves_toolRun introduced).named, none]
        have idle : (toolRun lastIndex ops).1.close.2 = [] := by
          simp [ToolCallState.close, (tracks_toolRun lastIndex ops).started, unnamed]
        rw [if_pos none, if_pos none, idle, List.foldl_nil]
        by_cases silent : contents ops = [] <;>
          simp [textReply, textStop, silent, BlockReply.step]
      · rw [if_neg none, if_neg none]
        by_cases silent : contents ops = []
        · rw [textStop, if_pos silent, List.foldl_nil]
          exact foldl_close introduced none fun closed => closed
        · rw [textStop, if_neg silent, List.foldl_cons, List.foldl_nil, BlockReply.step]
          exact foldl_close introduced none fun _ => rfl

/-! ## The message delta -/

def finishReasons (ops : List Op) : List String :=
  ops.flatMap fun
    | .finishReason reason => reason.toList
    | _ => []

def usages (ops : List Op) : List OpenAiUsage :=
  ops.flatMap fun
    | .head chunk => chunk.usage.toList
    | _ => []

def usageOf (usage : OpenAiUsage) : Usage := ⟨usage.promptTokens, 0, 0, usage.completionTokens⟩

theorem ending_step (state : StreamState) (op : Op) :
    (state.step op).1.stopReason =
        ((finishReasons [op]).getLast?.map normalizeFinishReason).or state.stopReason ∧
      (state.step op).1.usage = ((usages [op]).getLast?.map usageOf).or state.usage := by
  cases op with
  | head chunk =>
      simp only [StreamState.step, StreamState.ingestHead, finishReasons, usages,
        List.flatMap_cons, List.flatMap_nil, List.append_nil]
      cases chunk.usage <;> split <;> exact ⟨rfl, rfl⟩
  | content content =>
      simp only [StreamState.step, StreamState.ingestContent]
      split <;> exact ⟨rfl, rfl⟩
  | toolCall finishing toolCall => exact ⟨rfl, rfl⟩
  | finishReason reason =>
      simp only [StreamState.step, StreamState.ingestFinishReason]
      cases reason with
      | none => exact ⟨rfl, rfl⟩
      | some reason => dsimp only; split <;> exact ⟨rfl, rfl⟩

/-- The last finish reason and the last usage stand in the state. -/
theorem ending_run (model : String) (ops : List Op) :
    (run (StreamState.new model, []) ops).1.stopReason =
        (finishReasons ops).getLast?.map normalizeFinishReason ∧
      (run (StreamState.new model, []) ops).1.usage = (usages ops).getLast?.map usageOf := by
  induction ops using List.reverseRecOn with
  | nil => exact ⟨rfl, rfl⟩
  | append_singleton ops op ih =>
      obtain ⟨reason, usage⟩ := ending_step (run (StreamState.new model, []) ops).1 op
      rw [ih.1] at reason
      rw [ih.2] at usage
      have reasons : finishReasons (ops ++ [op]) = finishReasons ops ++ finishReasons [op] :=
        List.flatMap_append
      have counts : usages (ops ++ [op]) = usages ops ++ usages [op] := List.flatMap_append
      rw [run_append, reasons, counts, List.getLast?_append, List.getLast?_append, Option.map_or,
        Option.map_or]
      exact ⟨reason, usage⟩

/-- **The message delta of a stream with a chunk.** -/
theorem ending_events (model : String) {chunks : List ChatCompletionChunk} (sent : chunks ≠ []) :
    ((StreamState.events model chunks).filterMap StreamEvent.messageDelta?).getLast? =
      some (⟨some (((finishReasons (streamOps chunks)).getLast?.map
          normalizeFinishReason).getD "end_turn"), none⟩,
        ((usages (streamOps chunks)).getLast?.map usageOf).getD Usage.zero) := by
  cases chunks with
  | nil => exact absurd rfl sent
  | cons chunk chunks =>
      obtain ⟨delta, usage, isDelta, isUsage, events⟩ := events_eq model chunk chunks
      obtain ⟨reasons, counts⟩ := ending_run model (streamOps (chunk :: chunks))
      rw [reasons] at isDelta
      rw [counts] at isUsage
      rw [events, List.filterMap_append, ← isDelta, ← isUsage, List.getLast?_append]
      rfl

/-! ## A stream of a response -/

def choicesOf (chunks : List ChatCompletionChunk) : List ChunkChoice :=
  chunks.flatMap fun chunk => chunk.choices

def toolDeltas (t : UInt32) (chunks : List ChatCompletionChunk) : List DeltaToolCall :=
  (choicesOf chunks).flatMap fun choice => choice.delta.toolCalls.filter (·.index = t)

/-- The chunks carry the choice and the usage: the text, then the tool calls under
increasing indices, the first delta of an index with its id and its name and all of them
with its arguments, the finish reason in the last choice, the usage in some chunk.  Where
the text and the arguments are cut, and how the indices interleave, is free. -/
structure Encodes (indexed : List (UInt32 × ResponseToolCall)) (choice : ChatChoice)
    (usage : Option OpenAiUsage) (chunks : List ChatCompletionChunk) : Prop where
  increasing : indexed.Pairwise fun earlier later => earlier.1 < later.1
  calls : indexed.map Prod.snd = choice.message.toolCalls
  text : ((choicesOf chunks).flatMap fun choice => (choice.delta.content.getD "").toList) =
    (choice.message.content.getD "").toList
  textFirst : (choicesOf chunks).Pairwise fun earlier later =>
    earlier.delta.toolCalls ≠ [] → later.delta.content.getD "" = ""
  indices : ∀ choice ∈ choicesOf chunks, ∀ delta ∈ choice.delta.toolCalls,
    delta.index ∈ indexed.map Prod.fst
  first : ∀ entry ∈ indexed, ∃ first, (toolDeltas entry.1 chunks).head? = some first ∧
    first.id = some entry.2.id ∧ first.function.name = some entry.2.function.name
  arguments : ∀ entry ∈ indexed,
    argumentFragments entry.1 chunks = entry.2.function.arguments.toList
  finish : ∃ before last, choicesOf chunks = before ++ [last] ∧
    (∀ choice ∈ before, choice.finishReason = none) ∧ last.finishReason = choice.finishReason
  usage : (chunks.filterMap (·.usage)).getLast? = usage

/-! ## Chunks and their operations -/

/-- What is read off the operations of the choices alone. -/
theorem flatMap_streamOps {β : Type} (read : Op → List β)
    (headless : ∀ chunk, read (.head chunk) = []) (chunks : List ChatCompletionChunk) :
    (streamOps chunks).flatMap read =
      (choicesOf chunks).flatMap fun choice => (choiceOps choice).flatMap read := by
  rw [streamOps, choicesOf, List.flatMap_assoc, List.flatMap_assoc]
  refine List.flatMap_congr fun chunk _ => ?_
  rw [chunkOps, List.flatMap_cons, headless, List.nil_append, List.flatMap_assoc]

theorem deltasOf_streamOps (t : UInt32) (chunks : List ChatCompletionChunk) :
    deltasOf t (streamOps chunks) = toolDeltas t chunks := by
  rw [deltasOf, flatMap_streamOps _ fun _ => rfl]
  refine List.flatMap_congr fun choice _ => ?_
  simp only [choiceOps, List.cons_append, List.flatMap_cons, List.flatMap_append,
    List.flatMap_map, List.flatMap_nil, List.nil_append, List.append_nil]
  induction choice.delta.toolCalls with
  | nil => rfl
  | cons toolCall toolCalls ih =>
      rw [List.flatMap_cons, ih, List.filter_cons]
      by_cases own : toolCall.index = t <;> simp [own]

/-- An operation of a choice is its text, or one of its deltas, or has neither. -/
theorem mem_choiceOps {choice : ChunkChoice} {op : Op} (member : op ∈ choiceOps choice) :
    op = .content choice.delta.content ∨
      contents [op] = [] ∧ (op.isToolCall → choice.delta.toolCalls ≠ []) := by
  simp only [choiceOps, List.cons_append, List.mem_cons, List.mem_append, List.mem_map,
    List.not_mem_nil, or_false] at member
  rcases member with rfl | ⟨toolCall, held, rfl⟩ | rfl
  · exact Or.inl rfl
  · exact Or.inr ⟨rfl, fun _ => List.ne_nil_of_mem held⟩
  · exact Or.inr ⟨rfl, fun called => by cases called⟩

theorem contents_choiceOps (choice : ChunkChoice) :
    contents (choiceOps choice) = (choice.delta.content.filter (· ≠ "")).toList := by
  have quiet : contents ((choice.delta.toolCalls.map fun toolCall => Op.toolCall
      (choice.finishReason == some "tool_calls") toolCall) ++
        [.finishReason choice.finishReason]) = [] := by
    refine List.flatMap_eq_nil_iff.2 fun op member => ?_
    simp only [List.mem_append, List.mem_map, List.mem_singleton] at member
    rcases member with ⟨toolCall, -, rfl⟩ | rfl <;> rfl
  have whole := contents_append [.content choice.delta.content]
    ((choice.delta.toolCalls.map fun toolCall => Op.toolCall
      (choice.finishReason == some "tool_calls") toolCall) ++
        [.finishReason choice.finishReason])
  rw [quiet, List.append_nil, contents_content] at whole
  exact whole

theorem contents_streamOps (chunks : List ChatCompletionChunk) :
    (contents (streamOps chunks)).flatMap String.toList =
      (choicesOf chunks).flatMap fun choice => (choice.delta.content.getD "").toList := by
  rw [contents, flatMap_streamOps _ fun _ => rfl, List.flatMap_assoc]
  refine List.flatMap_congr fun choice _ => ?_
  change (contents (choiceOps choice)).flatMap String.toList = _
  rw [contents_choiceOps]
  cases choice.delta.content with
  | none => rfl
  | some text => by_cases empty : text = "" <;> simp [Option.filter, empty]

theorem finishReasons_streamOps (chunks : List ChatCompletionChunk) :
    finishReasons (streamOps chunks) =
      (choicesOf chunks).flatMap fun choice => choice.finishReason.toList := by
  rw [finishReasons, flatMap_streamOps _ fun _ => rfl]
  refine List.flatMap_congr fun choice _ => ?_
  simp [choiceOps, List.flatMap_map]

theorem usages_streamOps (chunks : List ChatCompletionChunk) :
    usages (streamOps chunks) = chunks.filterMap (·.usage) := by
  have quiet : ∀ choices : List ChunkChoice, usages (choices.flatMap choiceOps) = [] := by
    intro choices
    refine List.flatMap_eq_nil_iff.2 fun op member => ?_
    obtain ⟨choice, -, held⟩ := List.mem_flatMap.1 member
    simp only [choiceOps, List.cons_append, List.mem_cons, List.mem_append, List.mem_map,
      List.not_mem_nil, or_false] at held
    rcases held with rfl | ⟨toolCall, -, rfl⟩ | rfl <;> rfl
  induction chunks with
  | nil => rfl
  | cons chunk chunks ih =>
      have one : usages (streamOps (chunk :: chunks)) =
          (chunk.usage.toList ++ usages (chunk.choices.flatMap choiceOps)) ++
            usages (streamOps chunks) := List.flatMap_append
      rw [one, quiet, ih, List.append_nil]
      cases isUsage : chunk.usage <;> simp [isUsage]

theorem textFirst_streamOps {chunks : List ChatCompletionChunk}
    (first : (choicesOf chunks).Pairwise fun earlier later =>
      earlier.delta.toolCalls ≠ [] → later.delta.content.getD "" = "") :
    TextFirst (streamOps chunks) := by
  have across : ∀ earlier later : ChunkChoice,
      (earlier.delta.toolCalls ≠ [] → later.delta.content.getD "" = "") →
        ∀ x ∈ choiceOps earlier, ∀ y ∈ choiceOps later, x.isToolCall → contents [y] = [] := by
    intro earlier later apart x isEarlier y isLater isCall
    rcases mem_choiceOps isEarlier with rfl | ⟨-, calls⟩
    · exact nomatch isCall
    · rcases mem_choiceOps isLater with rfl | ⟨silent, -⟩
      · have empty := apart (calls isCall)
        rw [contents_content]
        cases text : later.delta.content <;> simp_all
      · exact silent
  obtain ⟨within, between⟩ := List.pairwise_flatMap.1 first
  refine List.pairwise_flatMap.2 ⟨fun chunk member => ?_, between.imp fun apart x isX y isY => ?_⟩
  · refine List.pairwise_cons.2 ⟨fun _ _ => nofun, List.pairwise_flatMap.2 ⟨fun choice _ => ?_, ?_⟩⟩
    · refine List.pairwise_cons.2 ⟨fun _ _ => nofun, List.pairwise_of_forall_mem_list ?_⟩
      intro x _ y isLater _
      rcases List.mem_append.1 isLater with isCall | isReason
      · obtain ⟨toolCall, -, rfl⟩ := List.mem_map.1 isCall
        rfl
      · rw [List.mem_singleton.1 isReason]
        rfl
    · exact (within chunk member).imp fun apart => across _ _ apart
  · rcases List.mem_cons.1 isX with rfl | isX
    · exact nofun
    · rcases List.mem_cons.1 isY with rfl | isY
      · exact fun _ => rfl
      · obtain ⟨earlier, isEarlier, isX⟩ := List.mem_flatMap.1 isX
        obtain ⟨later, isLater, isY⟩ := List.mem_flatMap.1 isY
        exact across earlier later (apart earlier isEarlier later isLater) x isX y isY

/-! ## The blocks of an encoded response -/

/-- The call of an index as its events leave it. -/
def finishedReply (chunks : List ChatCompletionChunk) (entry : UInt32 × ResponseToolCall) :
    BlockReply :=
  { toolReply entry.1 entry.2.id entry.2.function.name (streamOps chunks) with stopped := true }

theorem toNat_succ {t : UInt32} (below : t ≠ lastIndex) : (t + 1).toNat = t.toNat + 1 := by
  have small := t.toNat_lt
  have other : t.toNat ≠ lastIndex.toNat := fun same => below (UInt32.toNat_inj.1 same)
  have isLast : lastIndex.toNat = 2 ^ 32 - 1 := rfl
  have one : (1 : UInt32).toNat = 1 := rfl
  rw [UInt32.toNat_add, one, Nat.mod_eq_of_lt]
  omega

section Encoded

variable {indexed : List (UInt32 × ResponseToolCall)} {choice : ChatChoice}
  {usage : Option OpenAiUsage} {chunks : List ChatCompletionChunk}

theorem Encodes.introduced (encodes : Encodes indexed choice usage chunks)
    {entry : UInt32 × ResponseToolCall} (member : entry ∈ indexed) :
    Introduced entry.1 entry.2.id entry.2.function.name (streamOps chunks) ∧
      deltasOf entry.1 (streamOps chunks) ≠ [] := by
  obtain ⟨first, isFirst, given⟩ := encodes.first entry member
  rw [← deltasOf_streamOps] at isFirst
  refine ⟨fun other isOther => ?_, ?_⟩
  · rw [isFirst, Option.some.injEq] at isOther
    rw [← isOther]
    exact given
  · intro none
    simp [none] at isFirst

/-- A tool without an entry has no deltas. -/
theorem Encodes.entry_of_deltas (encodes : Encodes indexed choice usage chunks) {t : UInt32}
    (sent : deltasOf t (streamOps chunks) ≠ []) : ∃ entry ∈ indexed, entry.1 = t := by
  rw [deltasOf_streamOps, toolDeltas, ne_eq, List.flatMap_eq_nil_iff] at sent
  simp only [not_forall] at sent
  obtain ⟨choice, held, some⟩ := sent
  obtain ⟨delta, isDelta⟩ := List.exists_mem_of_ne_nil _ some
  obtain ⟨isDelta, own⟩ := List.mem_filter.1 isDelta
  obtain ⟨entry, member, same⟩ := List.mem_map.1 (encodes.indices choice held delta isDelta)
  exact ⟨entry, member, same.trans (by simpa using own)⟩

/-- The block of a tool's index. -/
theorem Encodes.accumulate_tool (encodes : Encodes indexed choice usage chunks) (model : String)
    {t : UInt32} (nonzero : t + 1 ≠ 0) (block : BlockReply) :
    (accumulate (StreamState.events model chunks))[t + 1]? = some block ↔
      ∃ entry ∈ indexed, entry.1 = t ∧ finishedReply chunks entry = block := by
  constructor
  · intro found
    by_cases none : deltasOf t (streamOps chunks) = []
    · have introduced : Introduced t "" "" (streamOps chunks) := by simp [Introduced, none]
      rw [OpenAi.accumulate_tool model chunks t nonzero introduced, if_pos none] at found
      exact nomatch found
    · obtain ⟨entry, member, rfl⟩ := encodes.entry_of_deltas none
      have introduced := (encodes.introduced member).1
      rw [OpenAi.accumulate_tool model chunks entry.1 nonzero introduced, if_neg none] at found
      exact ⟨entry, member, rfl, Option.some.inj found⟩
  · rintro ⟨entry, member, rfl, rfl⟩
    obtain ⟨introduced, sent⟩ := encodes.introduced member
    rw [OpenAi.accumulate_tool model chunks entry.1 nonzero introduced, if_neg sent]
    rfl

/-- The block at index 0, as a list. -/
def zeroBlock (model : String) (chunks : List ChatCompletionChunk) : List BlockReply :=
  (accumulate (StreamState.events model chunks))[(0 : UInt32)]?.toList

/-- **The accumulated blocks, in order**: block 0, and the calls below the last index. -/
theorem Encodes.accumulate_toList (encodes : Encodes indexed choice usage chunks)
    (model : String) :
    (accumulate (StreamState.events model chunks)).toList =
      (zeroBlock model chunks).map (fun block => (0, block)) ++
        (indexed.filter (·.1 ≠ lastIndex)).map fun entry =>
          (entry.1 + 1, finishedReply chunks entry) := by
  let below (a b : UInt32 × BlockReply) : Prop := a.1 < b.1
  have irrefl : Std.Irrefl below := ⟨fun a => UInt32.lt_irrefl a.1⟩
  have antisymm : Std.Antisymm below :=
    ⟨fun a b ab ba => absurd (UInt32.lt_trans ab ba) (UInt32.lt_irrefl a.1)⟩
  have sorted : (accumulate (StreamState.events model chunks)).toList.Pairwise below :=
    Std.TreeMap.ordered_keys_toList.imp fun order => Std.compare_eq_lt.1 order
  refine List.Pairwise.eq_of_mem_iff sorted ?_ ?_
  · refine List.pairwise_append.2 ⟨?_, ?_, ?_⟩
    · unfold zeroBlock
      cases (accumulate (StreamState.events model chunks))[(0 : UInt32)]? <;> simp
    · rw [List.pairwise_map, List.pairwise_filter]
      refine encodes.increasing.imp fun {earlier later} order early late => ?_
      simp only [decide_eq_true_eq] at early late
      change earlier.1 + 1 < later.1 + 1
      rw [UInt32.lt_iff_toNat_lt] at order ⊢
      rw [toNat_succ early, toNat_succ late]
      omega
    · intro zero isZero tool isTool
      obtain ⟨block, -, rfl⟩ := List.mem_map.1 isZero
      obtain ⟨entry, member, rfl⟩ := List.mem_map.1 isTool
      have early : entry.1 ≠ lastIndex := by simpa using (List.mem_filter.1 member).2
      change (0 : UInt32) < entry.1 + 1
      rw [UInt32.lt_iff_toNat_lt, toNat_succ early]
      exact Nat.succ_pos _
  · rintro ⟨index, block⟩
    rw [Std.TreeMap.mem_toList_iff_getElem?_eq_some, List.mem_append, List.mem_map, List.mem_map]
    by_cases zero : index = 0
    · subst zero
      have apart : ∀ entry ∈ indexed.filter (·.1 ≠ lastIndex),
          (entry.1 + 1, finishedReply chunks entry) ≠ (0, block) := by
        intro entry member same
        have early : entry.1 ≠ lastIndex := by simpa using (List.mem_filter.1 member).2
        exact early ((lastIndex_wraps entry.1).1 (Prod.mk.inj same).1)
      simp only [zeroBlock, Option.mem_toList, Prod.mk.injEq, true_and, exists_eq_right]
      refine ⟨Or.inl, fun found => found.resolve_right ?_⟩
      rintro ⟨entry, member, same⟩
      exact apart entry member (Prod.ext same.1 same.2)
    · obtain ⟨t, rfl⟩ : ∃ t, index = t + 1 := ⟨index - 1, by simp⟩
      have early : t ≠ lastIndex := fun same => zero ((lastIndex_wraps t).2 same)
      rw [encodes.accumulate_tool model zero block]
      constructor
      · rintro ⟨entry, member, rfl, rfl⟩
        exact Or.inr ⟨entry, List.mem_filter.2 ⟨member, by simpa using early⟩, rfl⟩
      · rintro (⟨other, -, same⟩ | ⟨entry, member, same⟩)
        · exact absurd (Prod.mk.inj same).1.symm zero
        · obtain ⟨index, isBlock⟩ := Prod.mk.inj same
          rw [UInt32.add_left_inj] at index
          exact ⟨entry, (List.mem_filter.1 member).1, index, isBlock⟩

/-- The block at index 0 is the call of the last index, or else the text. -/
theorem Encodes.zeroBlock_eq (encodes : Encodes indexed choice usage chunks) (model : String) :
    zeroBlock model chunks =
      if lastIndex ∈ indexed.map Prod.fst then
        (indexed.filter (·.1 = lastIndex)).map (finishedReply chunks)
      else ((textReply (contents (streamOps chunks))).map fun block =>
        { block with stopped := true }).toList := by
  have first := textFirst_streamOps encodes.textFirst
  split
  · rename_i used
    obtain ⟨entry, member, isLast⟩ := List.mem_map.1 used
    have only : indexed.filter (·.1 = lastIndex) = [entry] := by
      have held : entry ∈ indexed.filter (·.1 = lastIndex) :=
        List.mem_filter.2 ⟨member, by simpa using isLast⟩
      have last : ∀ other ∈ indexed.filter (·.1 = lastIndex), other.1 = lastIndex := by
        intro other isOther
        simpa using (List.mem_filter.1 isOther).2
      have increasing := encodes.increasing.filter fun entry => decide (entry.1 = lastIndex)
      generalize indexed.filter (·.1 = lastIndex) = lasts at held last increasing
      match lasts with
      | [other] => rw [List.mem_singleton.1 held]
      | other :: next :: rest =>
          have order := (List.pairwise_cons.1 increasing).1 next (by simp)
          rw [last other (by simp), last next (by simp)] at order
          exact absurd order (UInt32.lt_irrefl _)
    obtain ⟨introduced, sent⟩ := encodes.introduced member
    rw [isLast] at introduced sent
    rw [zeroBlock, accumulate_zero model chunks first introduced, if_neg sent, only,
      List.map_singleton, Option.toList_some, finishedReply, isLast]
  · rename_i unused
    have none : deltasOf lastIndex (streamOps chunks) = [] := by
      by_contra sent
      obtain ⟨entry, member, isLast⟩ := encodes.entry_of_deltas sent
      exact unused (List.mem_map.2 ⟨entry, member, isLast⟩)
    have introduced : Introduced lastIndex "" "" (streamOps chunks) := by simp [Introduced, none]
    rw [zeroBlock, accumulate_zero model chunks first introduced, if_pos none]

end Encoded

/-! ## The agreement -/

section Agreement

variable (serde : SerdeJson)

/-- The streamed reply has the parts of the reply sent whole. -/
def StreamAgrees (model : String) (response : ChatCompletionResponse)
    (chunks : List ChatCompletionChunk) : Prop :=
  ∃ reply, normalizeResponse serde model response = .ok reply ∧
    streamedParts serde (StreamState.events model chunks) = reply.parts

/-- A call by its id, its name and the value its arguments have. -/
def sentCall (entry : UInt32 × ResponseToolCall) : String × String × Option Json :=
  (entry.2.id, entry.2.function.name, (serde.fromStr entry.2.function.arguments).toOption)

/-- The same, with the argument text that comes before the block is stopped. -/
def callInTime (chunks : List ChatCompletionChunk) (entry : UInt32 × ResponseToolCall) :
    String × String × Option Json :=
  (entry.2.id, entry.2.function.name,
    (serde.fromStr (String.ofList (inTime entry.1 (streamOps chunks)))).toOption)

/-- The entries in the order of their block indices: the last index wraps to 0. -/
def blockOrder (indexed : List (UInt32 × ResponseToolCall)) : List (UInt32 × ResponseToolCall) :=
  indexed.filter (·.1 = lastIndex) ++ indexed.filter (·.1 ≠ lastIndex)

variable {serde} {model : String} {response : ChatCompletionResponse} {choice : ChatChoice}
  {reason : String} {indexed : List (UInt32 × ResponseToolCall)}
  {chunks : List ChatCompletionChunk} {usage : Option OpenAiUsage}

/-- The parts of the reply sent whole. -/
theorem normalizeResponse_parts (one : response.choices = [choice])
    (finished : choice.finishReason = some reason)
    (calls : indexed.map Prod.snd = choice.message.toolCalls)
    (parsed : ∀ call ∈ choice.message.toolCalls, ∃ fields,
      serde.fromStr call.function.arguments = .ok (.object fields)) :
    ∃ reply, normalizeResponse serde model response = .ok reply ∧ reply.parts =
      { text := (choice.message.content.getD "").toList
        calls := indexed.map (sentCall serde)
        stopReason := some (normalizeFinishReason reason)
        usage := some ((response.usage.map usageOf).getD Usage.zero) } := by
  refine ⟨_, by rw [normalizeResponse, one], ?_⟩
  have text : (((choice.message.content.filter (· ≠ "")).map
      OutputContentBlock.text).toList.flatMap OutputContentBlock.textPart) =
        (choice.message.content.getD "").toList := by
    cases choice.message.content with
    | none => rfl
    | some text =>
        by_cases empty : text = "" <;> simp [Option.filter, empty, OutputContentBlock.textPart]
  have noCall : (((choice.message.content.filter (· ≠ "")).map
      OutputContentBlock.text).toList.filterMap OutputContentBlock.callPart) = [] := by
    cases choice.message.content.filter (· ≠ "") <;> rfl
  have noText : ∀ toolCalls : List ResponseToolCall, ((toolCalls.map fun toolCall =>
      OutputContentBlock.toolUse toolCall.id toolCall.function.name
        (parseToolArguments serde toolCall.function.arguments)).flatMap
          OutputContentBlock.textPart) = [] := by
    intro toolCalls
    rw [List.flatMap_map]
    exact List.flatMap_eq_nil_iff.2 fun _ _ => rfl
  have sent : ((choice.message.toolCalls.map fun toolCall =>
      OutputContentBlock.toolUse toolCall.id toolCall.function.name
        (parseToolArguments serde toolCall.function.arguments)).filterMap
          OutputContentBlock.callPart) = indexed.map (sentCall serde) := by
    rw [← calls, List.map_map, List.filterMap_map, ← List.filterMap_eq_map]
    refine List.filterMap_congr fun entry member => ?_
    obtain ⟨fields, value⟩ := parsed entry.2 (by rw [← calls]; exact List.mem_map_of_mem member)
    simp [OutputContentBlock.callPart, parseToolArguments, value, sentCall, Except.toOption]
  simp only [MessageResponse.parts, List.flatMap_append, List.filterMap_append, text, noText,
    noCall, sent, finished, List.append_nil, List.nil_append, Option.map_some]
  cases response.usage <;> rfl

section FinishedReply

variable (entries : List (UInt32 × ResponseToolCall))

theorem filter_finishedReply :
    ((entries.map (finishedReply chunks)).filter (·.stopped)) =
      entries.map (finishedReply chunks) := by
  refine List.filter_eq_self.2 fun block member => ?_
  obtain ⟨entry, -, rfl⟩ := List.mem_map.1 member
  rfl

theorem flatMap_finishedReply :
    (entries.map (finishedReply chunks)).flatMap BlockReply.textPart = [] := by
  rw [List.flatMap_map]
  exact List.flatMap_eq_nil_iff.2 fun _ _ => rfl

theorem filterMap_finishedReply :
    (entries.map (finishedReply chunks)).filterMap (BlockReply.callPart serde) =
      entries.map (callInTime serde chunks) := by
  rw [List.filterMap_map, ← List.filterMap_eq_map]
  exact List.filterMap_congr fun _ _ => rfl

end FinishedReply

/-- The parts of the streamed reply. -/
theorem Encodes.streamed_parts (encodes : Encodes indexed choice usage chunks)
    (finished : choice.finishReason = some reason) :
    streamedParts serde (StreamState.events model chunks) =
      { text := if lastIndex ∈ indexed.map Prod.fst then []
          else (choice.message.content.getD "").toList
        calls := (blockOrder indexed).map (callInTime serde chunks)
        stopReason := some (normalizeFinishReason reason)
        usage := some ((usage.map usageOf).getD Usage.zero) } := by
  have sent : chunks ≠ [] := by
    rintro rfl
    obtain ⟨before, last, isLast, -⟩ := encodes.finish
    simp [choicesOf] at isLast
  have reasons : finishReasons (streamOps chunks) = [reason] := by
    obtain ⟨before, last, isLast, open_, closes⟩ := encodes.finish
    have silent : before.flatMap (fun choice => choice.finishReason.toList) = [] :=
      List.flatMap_eq_nil_iff.2 fun choice member => by rw [open_ choice member]; rfl
    rw [finishReasons_streamOps, isLast, List.flatMap_append, silent, List.flatMap_singleton,
      closes, finished]
    rfl
  have counts : (usages (streamOps chunks)).getLast? = usage := by
    rw [usages_streamOps, encodes.usage]
  have text : (contents (streamOps chunks)).flatMap String.toList =
      (choice.message.content.getD "").toList := by
    rw [contents_streamOps, encodes.text]
  have last := ending_events model sent
  have blocks : ((accumulate (StreamState.events model chunks)).toList.map Prod.snd).filter
      (·.stopped) = zeroBlock model chunks ++
        (indexed.filter (·.1 ≠ lastIndex)).map (finishedReply chunks) := by
    have names : (Prod.snd ∘ fun block : BlockReply => ((0 : UInt32), block)) = id := rfl
    have replies : (Prod.snd ∘ fun entry : UInt32 × ResponseToolCall =>
        (entry.1 + 1, finishedReply chunks entry)) = finishedReply chunks := rfl
    rw [encodes.accumulate_toList model, List.map_append, List.map_map, List.map_map, names,
      replies, List.map_id, List.filter_append, filter_finishedReply, encodes.zeroBlock_eq model]
    split
    · rw [filter_finishedReply]
    · cases textReply (contents (streamOps chunks)) <;> rfl
  simp only [streamedParts, blocks, last, reasons, counts, List.flatMap_append,
    List.filterMap_append, flatMap_finishedReply, filterMap_finishedReply, List.append_nil,
    encodes.zeroBlock_eq model, blockOrder, List.map_append]
  by_cases used : lastIndex ∈ indexed.map Prod.fst
  · simp only [if_pos used, flatMap_finishedReply, filterMap_finishedReply]
    rfl
  · have unused : indexed.filter (·.1 = lastIndex) = [] := by
      refine List.filter_eq_nil_iff.2 fun entry member isLast => used ?_
      exact List.mem_map.2 ⟨entry, member, by simpa using isLast⟩
    have textOnly : (((textReply (contents (streamOps chunks))).map fun block =>
        { block with stopped := true }).toList.flatMap BlockReply.textPart) =
          (choice.message.content.getD "").toList := by
      rw [← text, textReply]
      by_cases silent : contents (streamOps chunks) = [] <;>
        simp [silent, BlockReply.textPart]
    have noCall : (((textReply (contents (streamOps chunks))).map fun block =>
        { block with stopped := true }).toList.filterMap (BlockReply.callPart serde)) = [] := by
      rw [textReply]
      by_cases silent : contents (streamOps chunks) = [] <;>
        simp [silent, BlockReply.callPart]
    simp only [if_neg used, textOnly, noCall, unused, List.map_nil]
    rfl

/-- **A streamed reply agrees with the reply sent whole** exactly when every call's
arguments have their value from the text that came in time; unless the last index is used:
then there must be no text, and the calls in the order of their blocks must be those sent. -/
theorem chunks_agree_iff (one : response.choices = [choice])
    (finished : choice.finishReason = some reason)
    (parsed : ∀ call ∈ choice.message.toolCalls, ∃ fields,
      serde.fromStr call.function.arguments = .ok (.object fields))
    (encodes : Encodes indexed choice response.usage chunks) :
    StreamAgrees serde model response chunks ↔
      if lastIndex ∈ indexed.map Prod.fst then
        choice.message.content.getD "" = "" ∧
          (blockOrder indexed).map (callInTime serde chunks) = indexed.map (sentCall serde)
      else ∀ entry ∈ indexed, callInTime serde chunks entry = sentCall serde entry := by
  obtain ⟨reply, whole, parts⟩ :=
    @normalizeResponse_parts serde model response choice reason indexed one finished encodes.calls
      parsed
  have agrees : StreamAgrees serde model response chunks ↔
      streamedParts serde (StreamState.events model chunks) = reply.parts := by
    refine ⟨?_, fun same => ⟨reply, whole, same⟩⟩
    rintro ⟨other, isOther, same⟩
    rw [whole] at isOther
    rw [same, Except.ok.inj isOther]
  rw [agrees, parts, encodes.streamed_parts finished, ReplyParts.mk.injEq]
  by_cases used : lastIndex ∈ indexed.map Prod.fst
  · simp only [if_pos used, and_true]
    refine and_congr_left fun _ => ⟨fun empty => ?_, fun empty => ?_⟩
    · exact String.toList_inj.1 empty.symm
    · rw [empty]
      rfl
  · have unused : ∀ entry ∈ indexed, entry.1 ≠ lastIndex := fun entry member isLast =>
      used (List.mem_map.2 ⟨entry, member, isLast⟩)
    have order : blockOrder indexed = indexed := by
      have none : indexed.filter (·.1 = lastIndex) = [] :=
        List.filter_eq_nil_iff.2 fun entry member => by simpa using unused entry member
      have all : indexed.filter (·.1 ≠ lastIndex) = indexed :=
        List.filter_eq_self.2 fun entry member => by simpa using unused entry member
      rw [blockOrder, none, all, List.nil_append]
    simp only [if_neg used, order, List.map_inj_left, true_and, and_true]

end Agreement

/-! ## A call of `ListAgents`, in time and too late -/

/-- `serde_json`, of which only the text of the empty object is asked. -/
def emptyInputSerde : SerdeJson where
  fromStr text := if text = "\x7b\x7d" then .ok (.object []) else .error "EOF while parsing"
  toText _ := "\x7b\x7d"

def listAgentsCall : ResponseToolCall := ⟨"call_1", ⟨"ListAgents", "\x7b\x7d"⟩⟩

def listAgentsChoice : ChatChoice := ⟨⟨"assistant", none, [listAgentsCall]⟩, some "tool_calls"⟩

def listAgentsResponse : ChatCompletionResponse :=
  ⟨"chatcmpl-1", "gpt-4o", [listAgentsChoice], some ⟨7, 5⟩⟩

def openingDelta : DeltaToolCall := ⟨0, some "call_1", ⟨some "ListAgents", some "\x7b"⟩⟩

def closingDelta : DeltaToolCall := ⟨0, none, ⟨none, some "\x7d"⟩⟩

def listAgentsChunk (toolCalls : List DeltaToolCall) (finishReason : Option String) :
    ChatCompletionChunk :=
  ⟨"chatcmpl-1", none, [⟨⟨none, toolCalls⟩, finishReason⟩], some ⟨7, 5⟩⟩

/-- Both deltas come in the chunk with the finish reason. -/
def hastyChunks : List ChatCompletionChunk :=
  [listAgentsChunk [openingDelta, closingDelta] (some "tool_calls")]

theorem hastyChunks_disagree :
    Encodes [(0, listAgentsCall)] listAgentsChoice listAgentsResponse.usage hastyChunks ∧
      ¬ StreamAgrees emptyInputSerde "gpt-4o" listAgentsResponse hastyChunks := by
  have encodes : Encodes [(0, listAgentsCall)] listAgentsChoice listAgentsResponse.usage
      hastyChunks :=
    ⟨by decide, rfl, rfl, by simp [hastyChunks, choicesOf, listAgentsChunk], by decide,
      List.forall_mem_singleton.2 ⟨openingDelta, rfl, rfl, rfl⟩, List.forall_mem_singleton.2 rfl,
      ⟨[], _, rfl, nofun, rfl⟩, rfl⟩
  refine ⟨encodes, ?_⟩
  rintro ⟨reply, whole, same⟩
  rw [encodes.streamed_parts rfl, ← Except.ok.inj whole] at same
  have calls := congrArg ReplyParts.calls same
  revert calls
  decide

/-- The finish reason comes behind them. -/
def patientChunks : List ChatCompletionChunk :=
  [listAgentsChunk [openingDelta] none, listAgentsChunk [closingDelta] none,
    listAgentsChunk [] (some "tool_calls")]

theorem chunks_agree_iff_patient :
    StreamAgrees emptyInputSerde "gpt-4o" listAgentsResponse patientChunks := by
  have encodes : Encodes [(0, listAgentsCall)] listAgentsChoice listAgentsResponse.usage
      patientChunks :=
    ⟨by decide, rfl, rfl, by simp [patientChunks, choicesOf, listAgentsChunk], by decide,
      List.forall_mem_singleton.2 ⟨openingDelta, rfl, rfl, rfl⟩, List.forall_mem_singleton.2 rfl,
      ⟨[⟨⟨none, [openingDelta]⟩, none⟩, ⟨⟨none, [closingDelta]⟩, none⟩], _, rfl, by simp, rfl⟩, rfl⟩
  refine (chunks_agree_iff rfl rfl ?_ encodes).2 ?_
  · exact List.forall_mem_singleton.2 ⟨[], rfl⟩
  · decide

end Openyak.Api.OpenAi
