/-
# Api.OpenAiStream -- `StreamState`, from OpenAI chunks to Anthropic stream events

`ingestChunk` turns each chunk into stream events while it keeps, for every tool
index, what the tool call is called, the argument text received and how much of
it was passed on; `finish` closes what is open.  `u32` arithmetic wraps, as it
does in a release build.

The nested loops over choices and tool calls are one run over the chunk's
operations in order (`ingestChunk_eq_run`); the results about streams are by
induction on that list.
-/
import Openyak.Api.Types
import Openyak.Theory.Text
import Std.Data.TreeMap.Lemmas

namespace Openyak.Api.OpenAi

open Openyak.Theory

set_option autoImplicit false

/-! ## One tool call -/

/-- `arguments` and `emittedLen` are in characters here and in bytes in the
source; both count a prefix that was passed on whole. -/
structure ToolCallState where
  openaiIndex : UInt32 := 0
  id : Option String := none
  name : Option String := none
  arguments : List Char := []
  emittedLen : Nat := 0
  started : Bool := false
  stopped : Bool := false
  deriving DecidableEq, Repr

/-- The argument text of a delta, empty when it has none. -/
def argumentText (toolCall : DeltaToolCall) : List Char :=
  (toolCall.function.arguments.getD "").toList

namespace ToolCallState

def apply (state : ToolCallState) (toolCall : DeltaToolCall) : ToolCallState :=
  { state with
    openaiIndex := toolCall.index
    id := toolCall.id.or state.id
    name := toolCall.function.name.or state.name
    arguments := state.arguments ++ argumentText toolCall }

def blockIndex (state : ToolCallState) : UInt32 := state.openaiIndex + 1

def startEvent (state : ToolCallState) : Option StreamEvent :=
  state.name.map fun name =>
    .contentBlockStart state.blockIndex
      (.toolUse (state.id.getD ("tool_call_" ++ toString state.openaiIndex.toNat)) name
        (.object []))

def markStarted (state : ToolCallState) : ToolCallState := { state with started := true }

def markStopped (state : ToolCallState) : ToolCallState := { state with stopped := true }

/-- Everything received has been passed on. -/
def markEmitted (state : ToolCallState) : ToolCallState :=
  { state with emittedLen := state.arguments.length }

def deltaEvent (state : ToolCallState) : ToolCallState × Option StreamEvent :=
  if state.arguments.length ≤ state.emittedLen then (state, none)
  else
    (state.markEmitted,
      some (.contentBlockDelta state.blockIndex
        (.inputJsonDelta (String.ofList (state.arguments.drop state.emittedLen)))))

/-- Stop a block that is started and not yet stopped. -/
def close (state : ToolCallState) : ToolCallState × List StreamEvent :=
  if state.started && !state.stopped then
    (state.markStopped, [.contentBlockStop state.blockIndex])
  else (state, [])

/-- The body of the loop over a choice's tool-call deltas; without a start event
it continues with the next delta. -/
def ingest (finishing : Bool) (state : ToolCallState) (toolCall : DeltaToolCall) :
    ToolCallState × List StreamEvent :=
  let state := state.apply toolCall
  match (if state.started then some [] else state.startEvent.map fun event => [event]) with
  | none => (state, [])
  | some starts =>
      let delta := state.markStarted.deltaEvent
      if finishing && !delta.1.stopped then
        (delta.1.markStopped,
          starts ++ delta.2.toList ++ [.contentBlockStop state.blockIndex])
      else (delta.1, starts ++ delta.2.toList)

/-- The body of `finish`'s loop. -/
def finish (state : ToolCallState) : ToolCallState × List StreamEvent :=
  let opened : ToolCallState × List StreamEvent :=
    if state.started then (state, [])
    else
      match state.startEvent with
      | none => (state, [])
      | some event =>
          let delta := state.markStarted.deltaEvent
          (delta.1, event :: delta.2.toList)
  (opened.1.close.1, opened.2 ++ opened.1.close.2)

end ToolCallState

/-! ## The stream -/

structure StreamState where
  model : String
  messageStarted : Bool := false
  textStarted : Bool := false
  textFinished : Bool := false
  finished : Bool := false
  stopReason : Option String := none
  usage : Option Usage := none
  toolCalls : Std.TreeMap UInt32 ToolCallState := ∅

/-- A state and the events emitted on the way to it. -/
abbrev Emitted := StreamState × List StreamEvent

def Emitted.andThen (emitted : Emitted) (next : StreamState → Emitted) : Emitted :=
  ((next emitted.1).1, emitted.2 ++ (next emitted.1).2)

def normalizeModelName (model : Option String) (fallback : String) : String :=
  match model.map fun name => String.ofList (Text.trim name.toList) with
  | none => fallback
  | some name => if name = "" ∨ name = "model" then fallback else name

def normalizeFinishReason (value : String) : String :=
  if value = "stop" then "end_turn" else if value = "tool_calls" then "tool_use" else value

namespace StreamState

def new (model : String) : StreamState := { model := model }

/-- The start of `ingest_chunk`: the message start and the usage. -/
def ingestHead (state : StreamState) (chunk : ChatCompletionChunk) : Emitted :=
  let usage := (chunk.usage.map fun usage =>
    (⟨usage.promptTokens, 0, 0, usage.completionTokens⟩ : Usage)).or state.usage
  if state.messageStarted then ({ state with usage := usage }, [])
  else
    ({ state with messageStarted := true, usage := usage },
      [.messageStart
        { id := chunk.id
          kind := "message"
          role := "assistant"
          content := []
          model := normalizeModelName chunk.model state.model
          stopReason := none
          stopSequence := none
          usage := Usage.zero
          requestId := none }])

def ingestContent (state : StreamState) (content : Option String) : Emitted :=
  match content.filter (· ≠ "") with
  | none => (state, [])
  | some content =>
      ({ state with textStarted := true },
        (if state.textStarted then [] else [.contentBlockStart 0 (.text "")]) ++
          [.contentBlockDelta 0 (.textDelta content)])

def ingestToolCall (finishing : Bool) (state : StreamState) (toolCall : DeltaToolCall) :
    Emitted :=
  let ingested := (state.toolCalls[toolCall.index]?.getD {}).ingest finishing toolCall
  ({ state with toolCalls := state.toolCalls.insert toolCall.index ingested.1 }, ingested.2)

def ingestFinishReason (state : StreamState) (finishReason : Option String) : Emitted :=
  match finishReason with
  | none => (state, [])
  | some reason =>
      let state := { state with stopReason := some (normalizeFinishReason reason) }
      if reason = "tool_calls" then
        ({ state with toolCalls := state.toolCalls.map fun _ call => call.close.1 },
          state.toolCalls.toList.flatMap fun call => call.2.close.2)
      else (state, [])

def ingestChoice (state : StreamState) (choice : ChunkChoice) : Emitted :=
  (choice.delta.toolCalls.foldl
    (fun emitted toolCall =>
      Emitted.andThen emitted fun state =>
        state.ingestToolCall (choice.finishReason == some "tool_calls") toolCall)
    (state.ingestContent choice.delta.content)).andThen
      fun state => state.ingestFinishReason choice.finishReason

def ingestChunk (state : StreamState) (chunk : ChatCompletionChunk) : Emitted :=
  chunk.choices.foldl
    (fun emitted choice => Emitted.andThen emitted fun state => state.ingestChoice choice)
    (state.ingestHead chunk)

def finish (state : StreamState) : Emitted :=
  if state.finished then (state, [])
  else
    let textStop : List StreamEvent :=
      if state.textStarted && !state.textFinished then [.contentBlockStop 0] else []
    let messageEnd : List StreamEvent :=
      if state.messageStarted then
        [.messageDelta ⟨some (state.stopReason.getD "end_turn"), none⟩
          (state.usage.getD Usage.zero), .messageStop]
      else []
    ({ state with
        finished := true
        textFinished := state.textFinished || state.textStarted
        toolCalls := state.toolCalls.map fun _ call => call.finish.1 },
      textStop ++ (state.toolCalls.toList.flatMap fun call => call.2.finish.2) ++ messageEnd)

/-- All events of a stream: every chunk ingested, then `finish`. -/
def ingestAll (model : String) (chunks : List ChatCompletionChunk) : Emitted :=
  chunks.foldl (fun emitted chunk => Emitted.andThen emitted fun state => state.ingestChunk chunk)
    (new model, [])

def events (model : String) (chunks : List ChatCompletionChunk) : List StreamEvent :=
  ((ingestAll model chunks).andThen finish).2

end StreamState

/-! ## A chunk as a list of operations -/

inductive Op where
  | head (chunk : ChatCompletionChunk)
  | content (content : Option String)
  | toolCall (finishing : Bool) (toolCall : DeltaToolCall)
  | finishReason (finishReason : Option String)

def StreamState.step (state : StreamState) : Op → Emitted
  | .head chunk => state.ingestHead chunk
  | .content content => state.ingestContent content
  | .toolCall finishing toolCall => state.ingestToolCall finishing toolCall
  | .finishReason reason => state.ingestFinishReason reason

def run (emitted : Emitted) (ops : List Op) : Emitted :=
  ops.foldl (fun emitted op => emitted.andThen fun state => state.step op) emitted

def choiceOps (choice : ChunkChoice) : List Op :=
  .content choice.delta.content ::
    (choice.delta.toolCalls.map fun toolCall =>
      .toolCall (choice.finishReason == some "tool_calls") toolCall) ++
    [.finishReason choice.finishReason]

def chunkOps (chunk : ChatCompletionChunk) : List Op :=
  .head chunk :: chunk.choices.flatMap choiceOps

def streamOps (chunks : List ChatCompletionChunk) : List Op := chunks.flatMap chunkOps

theorem andThen_assoc (emitted : Emitted) (f g : StreamState → Emitted) :
    (emitted.andThen f).andThen g = emitted.andThen fun state => (f state).andThen g := by
  simp [Emitted.andThen]

/-- A loop entered after `emitted` is the loop of its first part, begun there. -/
theorem andThen_foldl {α : Type} (step : α → StreamState → Emitted) (first : StreamState → Emitted)
    (emitted : Emitted) (items : List α) :
    (emitted.andThen fun state =>
        items.foldl (fun emitted item => Emitted.andThen emitted (step item)) (first state)) =
      items.foldl (fun emitted item => Emitted.andThen emitted (step item))
        (emitted.andThen first) := by
  induction items generalizing first with
  | nil => rfl
  | cons item items ih =>
      simp only [List.foldl_cons]
      rw [ih fun state => (first state).andThen (step item), ← andThen_assoc]

theorem run_append (emitted : Emitted) (xs ys : List Op) :
    run emitted (xs ++ ys) = run (run emitted xs) ys := List.foldl_append

theorem ingestChoice_eq_run (emitted : Emitted) (choice : ChunkChoice) :
    (emitted.andThen fun state => state.ingestChoice choice) = run emitted (choiceOps choice) := by
  unfold StreamState.ingestChoice
  rw [← andThen_assoc]
  have loop := andThen_foldl
    (fun toolCall state =>
      state.ingestToolCall (choice.finishReason == some "tool_calls") toolCall)
    (fun state => state.ingestContent choice.delta.content) emitted choice.delta.toolCalls
  rw [loop]
  simp only [choiceOps, run, List.cons_append, List.foldl_cons, List.foldl_append,
    List.foldl_map, List.foldl_nil, StreamState.step]

theorem ingestChunk_eq_run (emitted : Emitted) (chunk : ChatCompletionChunk) :
    (emitted.andThen fun state => state.ingestChunk chunk) = run emitted (chunkOps chunk) := by
  unfold StreamState.ingestChunk
  rw [andThen_foldl fun choice state => state.ingestChoice choice]
  change _ = run (emitted.andThen fun state => state.ingestHead chunk)
    (chunk.choices.flatMap choiceOps)
  generalize emitted.andThen _ = started
  induction chunk.choices generalizing started with
  | nil => rfl
  | cons choice choices ih =>
      rw [List.foldl_cons, List.flatMap_cons, run_append, ih, ingestChoice_eq_run]

/-- **A stream is one run over the operations of its chunks.** -/
theorem ingestAll_eq_run (model : String) (chunks : List ChatCompletionChunk) :
    StreamState.ingestAll model chunks = run (StreamState.new model, []) (streamOps chunks) := by
  unfold StreamState.ingestAll streamOps
  generalize ((StreamState.new model, []) : Emitted) = started
  induction chunks generalizing started with
  | nil => rfl
  | cons chunk chunks ih =>
      rw [List.foldl_cons, List.flatMap_cons, run_append, ih, ingestChunk_eq_run]

end Openyak.Api.OpenAi
