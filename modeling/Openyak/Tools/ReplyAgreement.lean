/-
# Tools.ReplyAgreement -- the streamed reply against the whole one

A `ReplyStream` is a provider's stream taken apart: the message start, per block
its start and its deltas, the message delta.  It `Encodes` a response when every
block carries the response's block, cut anyhow, and the two usages together carry
the response's usage.

Both ways to the events go block by block (`stream_eq`, `responseToEvents_eq`).
They differ in two places: the input of a tool called with the empty object is
the empty text when no input delta says otherwise, and the usage is taken from
the message delta alone.  `agree_iff` gives the exact condition.
-/
import Openyak.Tools.ProviderReply
import Openyak.Theory.Coalesce
import Mathlib.Data.List.Forall2

namespace Openyak.Tools

open Openyak.Theory
open Openyak.Theory.Coalesce
open Openyak.Api
open Openyak.Runtime

set_option autoImplicit false

/-! ## Streams that encode a response -/

/-- One block of a stream: what its start says, and its deltas. -/
structure BlockStream where
  start : OutputContentBlock
  deltas : List ContentBlockDelta
  deriving DecidableEq, Repr

/-- The input text the deltas carry. -/
def BlockStream.inputText (block : BlockStream) : String :=
  block.deltas.foldl (fun text delta =>
    match delta with
    | .inputJsonDelta partialJson => text ++ partialJson
    | _ => text) ""

def BlockStream.events (index : UInt32) (block : BlockStream) : List StreamEvent :=
  .contentBlockStart index block.start ::
    block.deltas.map (.contentBlockDelta index) ++ [.contentBlockStop index]

structure ReplyStream where
  start : MessageResponse
  blocks : List BlockStream
  delta : MessageDelta
  usage : Usage
  deriving DecidableEq, Repr

def blocksEvents (index : Nat) : List BlockStream → List StreamEvent
  | [] => []
  | block :: blocks => block.events (UInt32.ofNat index) ++ blocksEvents (index + 1) blocks

def ReplyStream.events (streamed : ReplyStream) : List StreamEvent :=
  .messageStart streamed.start :: blocksEvents 0 streamed.blocks ++
    [.messageDelta streamed.delta streamed.usage, .messageStop]

variable (serde : ReplySerde)

/-- A text both parsers read as they read the input's own. -/
def Serializes (text : String) (input : Json) : Prop :=
  serde.fromStr text = serde.fromStr (serde.toText input) ∧
    (serde.payloadFromStr text).toOption = (serde.payloadFromStr (serde.toText input)).toOption

/-- A block cut into deltas: a text, the serialized input of a tool (for the empty
object possibly left out), or thinking. -/
def BlockStream.Encodes (streamed : BlockStream) : OutputContentBlock → Prop
  | .text text => streamed.start = .text "" ∧
      ∃ parts : List String, streamed.deltas = parts.map .textDelta ∧ String.join parts = text
  | .toolUse id name input => (∃ fields, input = .object fields) ∧
      streamed.start = .toolUse id name (.object []) ∧
      (∃ parts : List String, streamed.deltas = parts.map .inputJsonDelta) ∧
      (Serializes serde streamed.inputText input ∨
        (input = .object [] ∧ streamed.inputText = ""))
  | .thinking _ _ => (∃ thinking signature, streamed.start = .thinking thinking signature) ∧
      ∀ delta ∈ streamed.deltas, (∃ thinking, delta = .thinkingDelta thinking) ∨
        ∃ signature, delta = .signatureDelta signature
  | .redactedThinking data => streamed.start = .redactedThinking data ∧ streamed.deltas = []

structure ReplyStream.Encodes (streamed : ReplyStream) (response : MessageResponse) : Prop where
  started : streamed.start.content = []
  inputSide : streamed.start.usage = { response.usage with
    outputTokens := streamed.start.usage.outputTokens }
  blocks : List.Forall₂ (fun block streamed => BlockStream.Encodes serde streamed block)
    response.content streamed.blocks
  indices : streamed.blocks.length ≤ 2 ^ 32
  outputSide : streamed.usage.outputTokens = response.usage.outputTokens

/-! ## Block by block -/

/-- What a block of a response gives. -/
def wholeBlock : OutputContentBlock → Except RuntimeError (List AssistantEvent)
  | .text text => .ok (textEvents text)
  | .toolUse id name input =>
      (parsePendingOutputBlock serde ⟨id, name, serde.toText input⟩).map fun event => [event]
  | .thinking .. | .redactedThinking _ => .ok []

/-- What a block of a stream gives. -/
def streamedBlock (block : BlockStream) : Except RuntimeError (List AssistantEvent) :=
  match block.start with
  | .toolUse id name _ =>
      (parsePendingOutputBlock serde ⟨id, name, block.inputText⟩).map fun event => [event]
  | _ => .ok (block.deltas.flatMap fun
      | .textDelta text => textEvents text
      | _ => [])

/-- The events of all blocks, or the first error. -/
def collect : List (Except RuntimeError (List AssistantEvent)) →
    Except RuntimeError (List AssistantEvent)
  | [] => .ok []
  | .error error :: _ => .error error
  | .ok events :: rest => (collect rest).map fun more => events ++ more

/-- No tool is open. -/
def Reply.Idle (reply : Reply) : Prop := ∀ index : UInt32, reply.pendingTools[index]? = none

/-- A state after a stretch: `events` more, and idle again. -/
structure Reply.Grown (reply : Reply) (events : List AssistantEvent) (next : Reply) : Prop where
  events : next.events = reply.events ++ events
  idle : next.Idle
  sawStop : next.sawStop = reply.sawStop

theorem Reply.close_idle {reply : Reply} (idle : reply.Idle) (index : UInt32) :
    reply.close serde index = .ok reply := by
  rw [Reply.close, idle index]

/-- Closing the only open tool parses it and leaves none. -/
theorem Reply.close_only {reply : Reply} {index : UInt32} {tool : PendingTool}
    (only : ∀ k : UInt32, reply.pendingTools[k]? = if k = index then some tool else none) :
    (∀ error, parsePendingOutputBlock serde tool = .error error →
      reply.close serde index = .error error) ∧
    ∀ event, parsePendingOutputBlock serde tool = .ok event →
      ∃ next, reply.close serde index = .ok next ∧ reply.Grown [event] next := by
  have here : reply.pendingTools[index]? = some tool := by rw [only, if_pos rfl]
  constructor
  · intro error failed
    simp [Reply.close, here, failed, Except.map]
  · intro event parsed
    refine ⟨{ reply with
      events := reply.events ++ [event]
      pendingTools := reply.pendingTools.erase index }, ?_, rfl, fun k => ?_, rfl⟩
    · rw [Reply.close, here]
      simp only [parsed, Except.map]
    rw [Std.TreeMap.getElem?_erase, only k]
    by_cases same : k = index
    · simp [same]
    · simp [same]

/-- Pushing a block of a response and closing its index gives `wholeBlock`. -/
theorem close_push {reply : Reply} (idle : reply.Idle) (index : UInt32)
    (block : OutputContentBlock) :
    (∀ error, wholeBlock serde block = .error error →
      (pushOutputBlock serde false index reply block).close serde index = .error error) ∧
    ∀ events, wholeBlock serde block = .ok events →
      ∃ next, (pushOutputBlock serde false index reply block).close serde index = .ok next ∧
        reply.Grown events next := by
  cases block with
  | text text =>
      refine ⟨by simp [wholeBlock], fun events whole => ?_⟩
      simp only [wholeBlock, Except.ok.injEq] at whole
      have still : (pushOutputBlock serde false index reply (.text text)).Idle := idle
      exact ⟨_, Reply.close_idle serde still index, by rw [← whole]; rfl, still, rfl⟩
  | thinking thinking signature =>
      refine ⟨by simp [wholeBlock], fun events whole => ?_⟩
      simp only [wholeBlock, Except.ok.injEq] at whole
      exact ⟨_, Reply.close_idle serde idle index, by simp [← whole], idle, rfl⟩
  | redactedThinking data =>
      refine ⟨by simp [wholeBlock], fun events whole => ?_⟩
      simp only [wholeBlock, Except.ok.injEq] at whole
      exact ⟨_, Reply.close_idle serde idle index, by simp [← whole], idle, rfl⟩
  | toolUse id name input =>
      have only : ∀ k : UInt32,
          (pushOutputBlock serde false index reply (.toolUse id name input)).pendingTools[k]? =
            if k = index then some ⟨id, name, serde.toText input⟩ else none := by
        intro k
        simp only [pushOutputBlock, Bool.false_and, Bool.false_eq_true, if_false,
          Std.TreeMap.getElem?_insert, idle k]
        by_cases same : k = index
        · simp [same]
        · simp [same, Ne.symm same]
      obtain ⟨failed, parsed⟩ := Reply.close_only serde only
      refine ⟨fun error whole => failed error ?_, fun events whole => ?_⟩
      · simp only [wholeBlock] at whole
        cases parse : parsePendingOutputBlock serde ⟨id, name, serde.toText input⟩ <;>
          simp_all [Except.map]
      · simp only [wholeBlock] at whole
        cases parse : parsePendingOutputBlock serde ⟨id, name, serde.toText input⟩ with
        | error error => simp [parse, Except.map] at whole
        | ok event =>
            simp only [parse, Except.map, Except.ok.injEq] at whole
            obtain ⟨next, closed, grown⟩ := parsed event parse
            exact ⟨next, closed, whole ▸ ⟨grown.events, grown.idle, grown.sawStop⟩⟩

theorem responseBlocks_eq {reply : Reply} (idle : reply.Idle) (index : Nat)
    (blocks : List OutputContentBlock) (indices : index + blocks.length ≤ 2 ^ 32) :
    (∀ error, collect (blocks.map (wholeBlock serde)) = .error error →
      responseBlocks serde index reply blocks = .error error) ∧
    ∀ events, collect (blocks.map (wholeBlock serde)) = .ok events →
      ∃ next, responseBlocks serde index reply blocks = .ok next ∧ reply.Grown events next := by
  induction blocks generalizing reply index with
  | nil =>
      refine ⟨by simp [collect], fun events whole => ?_⟩
      simp only [List.map_nil, collect, Except.ok.injEq] at whole
      exact ⟨reply, rfl, by simp [← whole], idle, rfl⟩
  | cons block blocks ih =>
      rw [List.length_cons] at indices
      have fits : index < 2 ^ 32 := by omega
      obtain ⟨failed, parsed⟩ := close_push serde idle (UInt32.ofNat index) block
      simp only [List.map_cons, responseBlocks, fits, if_true]
      cases whole : wholeBlock serde block with
      | error error => simp [collect, failed error whole]
      | ok events =>
          obtain ⟨next, closed, grown⟩ := parsed events whole
          obtain ⟨failed, parsed⟩ := ih grown.idle (index + 1) (by omega)
          rw [closed]
          simp only [collect]
          cases rest : collect (blocks.map (wholeBlock serde)) with
          | error error => simpa [Except.map] using failed error rest
          | ok more =>
              obtain ⟨last, done, grownMore⟩ := parsed more rest
              simp only [Except.map, Except.ok.injEq, reduceCtorEq, false_implies, implies_true,
                true_and, forall_eq']
              refine ⟨last, done, ?_, grownMore.idle, grownMore.sawStop.trans grown.sawStop⟩
              rw [grownMore.events, grown.events, List.append_assoc]

/-- The token usage of a response. -/
def responseUsage (usage : Usage) : TokenUsage :=
  { inputTokens := usage.inputTokens
    outputTokens := usage.outputTokens
    cacheCreationInputTokens := usage.cacheCreationInputTokens
    cacheReadInputTokens := usage.cacheReadInputTokens }

/-- **A response is read block by block.** -/
theorem responseToEvents_eq (response : MessageResponse)
    (indices : response.content.length ≤ 2 ^ 32) :
    responseToEvents serde response =
      (collect (response.content.map (wholeBlock serde))).map fun events =>
        events ++ [.usage (responseUsage response.usage), .messageStop] := by
  have idle : ({} : Reply).Idle := fun index => by simp
  obtain ⟨failed, parsed⟩ :=
    responseBlocks_eq serde idle 0 response.content (by omega)
  unfold responseToEvents
  cases whole : collect (response.content.map (wholeBlock serde)) with
  | error error => rw [failed error whole]; rfl
  | ok events =>
      obtain ⟨next, done, grown⟩ := parsed events whole
      rw [done]
      simp [Except.map, grown.events, responseUsage]

/-! ## A stream, block by block -/

/-- Events received without an error of the provider. -/
def delivered (events : List StreamEvent) : List (Except String StreamEvent) :=
  events.map .ok

theorem ingestAll_append (reply : Reply) (events : List StreamEvent)
    (rest : List (Except String StreamEvent)) :
    ingestAll serde reply (delivered events ++ rest) =
      match ingestAll serde reply (delivered events) with
      | .error error => .error error
      | .ok next => ingestAll serde next rest := by
  induction events generalizing reply with
  | nil => rfl
  | cons event events ih =>
      simp only [delivered, List.map_cons, List.cons_append, ingestAll]
      cases ingest serde reply event with
      | error error => rfl
      | ok next => exact ih next

/-- Deltas never fail. -/
theorem ingestAll_deltas (reply : Reply) (index : UInt32) (deltas : List ContentBlockDelta) :
    ingestAll serde reply (delivered (deltas.map (.contentBlockDelta index))) =
      .ok (deltas.foldl (ingestDelta index) reply) := by
  induction deltas generalizing reply with
  | nil => rfl
  | cons delta deltas ih =>
      simp only [delivered, List.map_cons, ingestAll, ingest, List.foldl_cons]
      exact ih _

/-- Between a block's start and its stop stand its deltas. -/
theorem ingestAll_block (reply : Reply) (index : UInt32) (block : BlockStream) :
    ingestAll serde reply (delivered (block.events index)) =
      (block.deltas.foldl (ingestDelta index)
        (pushOutputBlock serde true index reply block.start)).close serde index := by
  have split : delivered (block.events index) = .ok (.contentBlockStart index block.start) ::
      (delivered (block.deltas.map (.contentBlockDelta index)) ++
        [.ok (.contentBlockStop index)]) := by
    simp [delivered, BlockStream.events]
  rw [split]
  simp only [ingestAll, ingest]
  rw [ingestAll_append, ingestAll_deltas]
  simp only [ingestAll, ingest]
  cases Reply.close serde index _ <;> rfl

/-- Text deltas are pushed, and touch no tool. -/
theorem foldl_textDelta (reply : Reply) (index : UInt32) (parts : List String) :
    (parts.map ContentBlockDelta.textDelta).foldl (ingestDelta index) reply =
      { reply with events := reply.events ++ parts.flatMap textEvents } := by
  induction parts generalizing reply with
  | nil => simp
  | cons part parts ih => simp [ih, ingestDelta]

theorem foldl_thinking (reply : Reply) (index : UInt32) (deltas : List ContentBlockDelta)
    (thinking : ∀ delta ∈ deltas, (∃ thinking, delta = .thinkingDelta thinking) ∨
      ∃ signature, delta = .signatureDelta signature) :
    deltas.foldl (ingestDelta index) reply = reply := by
  induction deltas with
  | nil => rfl
  | cons delta deltas ih =>
      have rest := ih fun later held => thinking later (List.mem_cons_of_mem _ held)
      rcases thinking delta List.mem_cons_self with ⟨_, rfl⟩ | ⟨_, rfl⟩ <;>
        simpa [ingestDelta] using rest

/-- Input deltas are appended to the input of the tool open at their index. -/
theorem foldl_inputJson {reply : Reply} {index : UInt32} {tool : PendingTool}
    (only : ∀ k : UInt32, reply.pendingTools[k]? = if k = index then some tool else none)
    (parts : List String) :
    let next := (parts.map ContentBlockDelta.inputJsonDelta).foldl (ingestDelta index) reply
    next.events = reply.events ∧ next.sawStop = reply.sawStop ∧
      ∀ k : UInt32, next.pendingTools[k]? =
        if k = index then some { tool with input := parts.foldl (· ++ ·) tool.input }
        else none := by
  induction parts generalizing reply tool with
  | nil => exact ⟨rfl, rfl, only⟩
  | cons part parts ih =>
      have here : reply.pendingTools[index]? = some tool := by rw [only, if_pos rfl]
      have next : ingestDelta index reply (.inputJsonDelta part) =
          { reply with
            pendingTools := reply.pendingTools.insert index
              { tool with input := tool.input ++ part } } := by
        simp [ingestDelta, here]
      have onlyNext : ∀ k : UInt32,
          (ingestDelta index reply (.inputJsonDelta part)).pendingTools[k]? =
            if k = index then some { tool with input := tool.input ++ part } else none := by
        intro k
        rw [next, Std.TreeMap.getElem?_insert, only k]
        by_cases same : k = index
        · simp [same]
        · simp [same, Ne.symm same]
      obtain ⟨events, sawStop, pending⟩ := ih onlyNext
      rw [List.map_cons, List.foldl_cons]
      exact ⟨events.trans (by rw [next]), sawStop.trans (by rw [next]), pending⟩

theorem BlockStream.inputText_map (block : BlockStream) (parts : List String)
    (cut : block.deltas = parts.map .inputJsonDelta) :
    block.inputText = parts.foldl (· ++ ·) "" := by
  rw [inputText, cut, List.foldl_map]

theorem isEmptyObject_nil : Json.isEmptyObject (.object []) = true := rfl

/-- The stretch of a block gives `streamedBlock`. -/
theorem ingest_block {reply : Reply} (idle : reply.Idle) (index : UInt32)
    {block : OutputContentBlock} {streamed : BlockStream}
    (encodes : streamed.Encodes serde block) :
    (∀ error, streamedBlock serde streamed = .error error →
      ingestAll serde reply (delivered (streamed.events index)) = .error error) ∧
    ∀ events, streamedBlock serde streamed = .ok events →
      ∃ next, ingestAll serde reply (delivered (streamed.events index)) = .ok next ∧
        reply.Grown events next := by
  rw [ingestAll_block]
  cases block with
  | text text =>
      obtain ⟨start, parts, cut, -⟩ := encodes
      have pushed : pushOutputBlock serde true index reply streamed.start = reply := by
        simp [start, pushOutputBlock, textEvents]
      rw [pushed, cut, foldl_textDelta]
      refine ⟨by simp [streamedBlock, start], fun events whole => ?_⟩
      simp only [streamedBlock, start, Except.ok.injEq, cut, List.flatMap_map] at whole
      have still : ({ reply with
          events := reply.events ++ parts.flatMap textEvents } : Reply).Idle := idle
      exact ⟨_, Reply.close_idle serde still index, by rw [← whole], still, rfl⟩
  | thinking thinking signature =>
      obtain ⟨⟨thinking', signature', start⟩, silent⟩ := encodes
      have pushed : pushOutputBlock serde true index reply streamed.start = reply := by
        simp [start, pushOutputBlock]
      rw [pushed, foldl_thinking reply index _ silent]
      refine ⟨by simp [streamedBlock, start], fun events whole => ?_⟩
      simp only [streamedBlock, start, Except.ok.injEq] at whole
      have nothing : events = [] := by
        rw [← whole, List.flatMap_eq_nil_iff]
        intro delta held
        rcases silent delta held with ⟨_, rfl⟩ | ⟨_, rfl⟩ <;> rfl
      exact ⟨_, Reply.close_idle serde idle index, by simp [nothing], idle, rfl⟩
  | redactedThinking data =>
      obtain ⟨start, silent⟩ := encodes
      have pushed : pushOutputBlock serde true index reply streamed.start = reply := by
        simp [start, pushOutputBlock]
      rw [pushed, silent, List.foldl_nil]
      refine ⟨by simp [streamedBlock, start], fun events whole => ?_⟩
      simp only [streamedBlock, start, silent, List.flatMap_nil, Except.ok.injEq] at whole
      exact ⟨_, Reply.close_idle serde idle index, by simp [← whole], idle, rfl⟩
  | toolUse id name input =>
      obtain ⟨-, start, ⟨parts, cut⟩, -⟩ := encodes
      have only : ∀ k : UInt32,
          (pushOutputBlock serde true index reply streamed.start).pendingTools[k]? =
            if k = index then some ⟨id, name, ""⟩ else none := by
        intro k
        simp only [start, pushOutputBlock, isEmptyObject_nil, Bool.and_true, if_true,
          Std.TreeMap.getElem?_insert, idle k]
        by_cases same : k = index
        · simp [same]
        · simp [same, Ne.symm same]
      obtain ⟨kept, sawStop, onlyNext⟩ := foldl_inputJson only parts
      have before : (pushOutputBlock serde true index reply streamed.start).events =
          reply.events ∧ (pushOutputBlock serde true index reply streamed.start).sawStop =
            reply.sawStop := by
        simp [start, pushOutputBlock]
      obtain ⟨failed, parsed⟩ := Reply.close_only serde onlyNext
      rw [← streamed.inputText_map parts cut] at failed parsed
      rw [← cut] at failed parsed kept sawStop
      have tool : streamedBlock serde streamed = (parsePendingOutputBlock serde
          ⟨id, name, streamed.inputText⟩).map fun event => [event] := by
        rw [streamedBlock, start]
      rw [tool]
      cases parse : parsePendingOutputBlock serde ⟨id, name, streamed.inputText⟩ with
      | error error =>
          refine ⟨fun error' same => ?_, by simp [Except.map]⟩
          have one : error = error' := by simpa [Except.map] using same
          rw [← one]
          exact failed error parse
      | ok event =>
          refine ⟨by simp [Except.map], fun events same => ?_⟩
          simp only [Except.map, Except.ok.injEq] at same
          obtain ⟨next, closed, grown⟩ := parsed event parse
          refine ⟨next, closed, ?_, grown.idle, ?_⟩
          · rw [grown.events, kept, before.1, same]
          · rw [grown.sawStop, sawStop, before.2]

theorem ingest_blocks {reply : Reply} (idle : reply.Idle) (index : Nat)
    {blocks : List OutputContentBlock} {streamed : List BlockStream}
    (encodes : List.Forall₂ (fun block streamed => BlockStream.Encodes serde streamed block)
      blocks streamed) :
    (∀ error, collect (streamed.map (streamedBlock serde)) = .error error →
      ingestAll serde reply (delivered (blocksEvents index streamed)) = .error error) ∧
    ∀ events, collect (streamed.map (streamedBlock serde)) = .ok events →
      ∃ next, ingestAll serde reply (delivered (blocksEvents index streamed)) = .ok next ∧
        reply.Grown events next := by
  induction encodes generalizing reply index with
  | nil =>
      refine ⟨by simp [collect], fun events whole => ?_⟩
      simp only [List.map_nil, collect, Except.ok.injEq] at whole
      exact ⟨reply, rfl, by simp [← whole], idle, rfl⟩
  | @cons block streamed blocks rest encodes _ ih =>
      obtain ⟨failed, parsed⟩ := ingest_block serde idle (UInt32.ofNat index) encodes
      have split : delivered (blocksEvents index (streamed :: rest)) =
          delivered (streamed.events (UInt32.ofNat index)) ++
            delivered (blocksEvents (index + 1) rest) := by
        simp [delivered, blocksEvents]
      rw [split, ingestAll_append, List.map_cons]
      cases first : streamedBlock serde streamed with
      | error error => simp [collect, failed error first]
      | ok events =>
          obtain ⟨next, done, grown⟩ := parsed events first
          obtain ⟨failed, parsed⟩ := ih grown.idle (index + 1)
          rw [done]
          simp only [collect]
          cases later : collect (rest.map (streamedBlock serde)) with
          | error error => simpa [Except.map] using failed error later
          | ok more =>
              obtain ⟨last, done, grownMore⟩ := parsed more later
              simp only [Except.map, Except.ok.injEq, reduceCtorEq, false_implies, implies_true,
                true_and, forall_eq']
              refine ⟨last, done, ?_, grownMore.idle, grownMore.sawStop.trans grown.sawStop⟩
              rw [grownMore.events, grown.events, List.append_assoc]

/-- The token usage `stream` reports. -/
def streamedUsage (usage : Usage) : TokenUsage :=
  { inputTokens := usage.inputTokens
    outputTokens := usage.outputTokens
    cacheCreationInputTokens := 0
    cacheReadInputTokens := 0 }

/-- **A stream that encodes a response is read block by block.** -/
theorem stream_eq {response : MessageResponse} {streamed : ReplyStream}
    (encodes : streamed.Encodes serde response) (sendMessage : Except String MessageResponse) :
    stream serde (delivered streamed.events) sendMessage =
      (collect (streamed.blocks.map (streamedBlock serde))).map fun events =>
        events ++ [.usage (streamedUsage streamed.usage), .messageStop] := by
  have idle : ({} : Reply).Idle := fun index => by simp
  obtain ⟨failed, parsed⟩ := ingest_blocks serde idle 0 encodes.blocks
  have split : delivered streamed.events = .ok (.messageStart streamed.start) ::
      (delivered (blocksEvents 0 streamed.blocks) ++
        delivered [.messageDelta streamed.delta streamed.usage, .messageStop]) := by
    simp [delivered, ReplyStream.events]
  have loop : ingestAll serde {} (delivered streamed.events) =
      match ingestAll serde {} (delivered (blocksEvents 0 streamed.blocks)) with
      | .error error => .error error
      | .ok next => ingestAll serde next
          (delivered [.messageDelta streamed.delta streamed.usage, .messageStop]) := by
    rw [split]
    simp only [ingestAll, ingest, encodes.started, List.foldl_nil]
    exact ingestAll_append serde _ _ _
  unfold stream
  rw [loop]
  cases whole : collect (streamed.blocks.map (streamedBlock serde)) with
  | error error => rw [failed error whole]; rfl
  | ok events =>
      obtain ⟨next, done, grown⟩ := parsed events whole
      rw [done]
      simp [ingestAll, ingest, delivered, Except.map, grown.events, streamedUsage]

/-! ## What a reader of the events sees -/

/-- An event with its input as the executor reads it. -/
inductive ReplyEvent where
  | text (text : String)
  | toolUse (id name : String) (input : Option Json)
  | requestUserInput (request : UserInputRequest)
  | usage (usage : TokenUsage)
  | messageStop
  deriving DecidableEq

def view : AssistantEvent → ReplyEvent
  | .textDelta text => .text text
  | .toolUse id name input => .toolUse id name (readInput serde input)
  | .requestUserInput request => .requestUserInput request
  | .usage usage => .usage usage
  | .messageStop => .messageStop

def joinText? : ReplyEvent → ReplyEvent → Option ReplyEvent
  | .text text, .text more => some (.text (text ++ more))
  | _, _ => none

theorem joinText_associative : Associative joinText? where
  assoc := by
    rintro (_ | _ | _ | _ | _) (_ | _ | _ | _ | _) (_ | _ | _ | _ | _) <;>
      simp [joinText?, String.append_assoc]
  right := by
    rintro (_ | _ | _ | _ | _) (_ | _ | _ | _ | _) (_ | _ | _ | _ | _) joined join none <;>
      simp_all [joinText?]
    all_goals subst join; simp_all

/-- The events with adjacent texts joined. -/
def seen (events : List AssistantEvent) : List ReplyEvent :=
  coalesce joinText? (events.map (view serde))

/-- Two results a caller cannot tell apart. -/
def Agree : Except RuntimeError (List AssistantEvent) →
    Except RuntimeError (List AssistantEvent) → Prop
  | .ok events, .ok events' => seen serde events = seen serde events'
  | .error _, .error _ => True
  | _, _ => False

def ReplyEvent.input? : ReplyEvent → Option (Option Json)
  | .toolUse _ _ input => some input
  | _ => none

def ReplyEvent.usage? : ReplyEvent → Option TokenUsage
  | .usage tokens => some tokens
  | _ => none

theorem seen_observed {γ : Type} (observe : ReplyEvent → Option γ)
    (textless : ∀ text, observe (.text text) = none) (events : List AssistantEvent) :
    (seen serde events).filterMap observe = (events.map (view serde)).filterMap observe := by
  refine filterMap_coalesce observe ?_ _
  rintro (_ | _ | _ | _ | _) (_ | _ | _ | _ | _) c join <;> simp [joinText?] at join
  subst join
  exact ⟨textless _, textless _, textless _⟩

theorem seen_append {xs xs' ys ys' : List AssistantEvent} (left : seen serde xs = seen serde xs')
    (right : seen serde ys = seen serde ys') : seen serde (xs ++ ys) = seen serde (xs' ++ ys') := by
  unfold seen
  rw [List.map_append, List.map_append]
  exact coalesce_append_congr joinText_associative left right

/-- A text cut into parts is seen as the text. -/
theorem seen_textParts (parts : List String) :
    seen serde (parts.flatMap textEvents) = seen serde (textEvents (String.join parts)) := by
  induction parts with
  | nil => simp [textEvents]
  | cons part parts ih =>
      rw [List.flatMap_cons, seen_append serde rfl ih, String.join_cons]
      by_cases empty : part = ""
      · simp [empty, textEvents]
      · by_cases last : String.join parts = ""
        · simp [last, textEvents]
        · simp [textEvents, empty, last, seen, coalesce, push, view, joinText?]

/-! ## When the two agree -/

/-- What `serde_json` does at the texts where the two ways part: the empty text is
no JSON, `{}` is the empty object, and neither has the payload's prompt. -/
structure ReplySerde.Documented : Prop where
  emptyText : (serde.fromStr "").toOption = none
  emptyObject : (serde.fromStr (serde.toText (.object []))).toOption = some (.object [])
  emptyPayload : (serde.payloadFromStr "").toOption = none
  noPrompt : (serde.payloadFromStr (serde.toText (.object []))).toOption = none

/-- A user-input request whose payload is refused. -/
def invalidRequest : OutputContentBlock → Bool
  | .toolUse id name input => name = requestUserInputToolName &&
      (parseRequestUserInputRequest serde id (serde.toText input)).toOption.isNone
  | _ => false

/-- A tool called with the empty object, of whose input nothing is streamed. -/
def BlockStream.silent (streamed : BlockStream) : OutputContentBlock → Bool
  | .toolUse _ name input =>
      name ≠ requestUserInputToolName && input.isEmptyObject && streamed.inputText = ""
  | _ => false

/-- The usage is all in the message delta, and no tool is silent. -/
structure Carried (streamed : ReplyStream) (response : MessageResponse) : Prop where
  inputTokens : streamed.usage.inputTokens = response.usage.inputTokens
  cacheCreation : response.usage.cacheCreationInputTokens = 0
  cacheRead : response.usage.cacheReadInputTokens = 0
  inputs : ∀ pair ∈ response.content.zip streamed.blocks, pair.2.silent pair.1 = false

/-- The tool inputs and the usages in a list of events. -/
def inputs (events : List AssistantEvent) : List (Option Json) :=
  (events.map (view serde)).filterMap ReplyEvent.input?

def usages (events : List AssistantEvent) : List TokenUsage :=
  (events.map (view serde)).filterMap ReplyEvent.usage?

/-- How the events of a streamed block stand to those of the whole one. -/
structure BlockAgrees (silent : Bool) (events whole : List AssistantEvent) : Prop where
  loud : silent = false → seen serde events = seen serde whole
  quiet : silent → inputs serde events ≠ inputs serde whole
  calls : (inputs serde events).length = (inputs serde whole).length
  usages : usages serde events = [] ∧ usages serde whole = []

theorem toOption_parseRequest (id : String) {text text' : String}
    (same : (serde.payloadFromStr text).toOption = (serde.payloadFromStr text').toOption) :
    (parseRequestUserInputRequest serde id text).toOption =
      (parseRequestUserInputRequest serde id text').toOption := by
  unfold parseRequestUserInputRequest
  cases one : serde.payloadFromStr text <;> cases two : serde.payloadFromStr text' <;>
    simp_all [Except.toOption]

/-- The two readings of a block: both refused, exactly when it is an invalid
request, or two lists of events that agree unless the block is silent. -/
theorem blockAgrees (documented : serde.Documented) {block : OutputContentBlock}
    {streamed : BlockStream} (encodes : streamed.Encodes serde block) :
    if invalidRequest serde block then
      (∃ error, wholeBlock serde block = .error error) ∧
        ∃ error, streamedBlock serde streamed = .error error
    else
      ∃ events whole, streamedBlock serde streamed = .ok events ∧
        wholeBlock serde block = .ok whole ∧
        BlockAgrees serde (streamed.silent block) events whole := by
  cases block with
  | text text =>
      obtain ⟨start, parts, cut, rfl⟩ := encodes
      rw [if_neg (by simp [invalidRequest])]
      have events : streamedBlock serde streamed = .ok (parts.flatMap textEvents) := by
        simp [streamedBlock, start, cut, List.flatMap_map]
      have noneObserved : ∀ {γ : Type} (observe : ReplyEvent → Option γ),
          (∀ text, observe (.text text) = none) → ∀ text,
            ((textEvents text).map (view serde)).filterMap observe = [] := by
        intro γ observe textless text
        unfold textEvents
        split <;> simp [view, textless]
      have same := seen_textParts serde parts
      have observed : ∀ {γ : Type} (observe : ReplyEvent → Option γ),
          (∀ text, observe (.text text) = none) →
            ((parts.flatMap textEvents).map (view serde)).filterMap observe = [] := by
        intro γ observe textless
        rw [← seen_observed serde observe textless, same, seen_observed serde observe textless]
        exact noneObserved observe textless _
      refine ⟨_, _, events, rfl, fun _ => same, by simp [BlockStream.silent], ?_, ?_, ?_⟩
      · rw [inputs, inputs, observed _ fun _ => rfl, noneObserved _ fun _ => rfl]
      · exact observed _ fun _ => rfl
      · exact noneObserved _ (fun _ => rfl) _
  | thinking thinking signature =>
      obtain ⟨⟨thinking', signature', start⟩, silent⟩ := encodes
      rw [if_neg (by simp [invalidRequest])]
      have nothing : streamedBlock serde streamed = .ok [] := by
        simp only [streamedBlock, start, Except.ok.injEq, List.flatMap_eq_nil_iff]
        intro delta held
        rcases silent delta held with ⟨_, rfl⟩ | ⟨_, rfl⟩ <;> rfl
      exact ⟨_, _, nothing, rfl, fun _ => rfl, by simp [BlockStream.silent], rfl, rfl, rfl⟩
  | redactedThinking data =>
      obtain ⟨start, silent⟩ := encodes
      rw [if_neg (by simp [invalidRequest])]
      have nothing : streamedBlock serde streamed = .ok [] := by
        simp [streamedBlock, start, silent]
      exact ⟨_, _, nothing, rfl, fun _ => rfl, by simp [BlockStream.silent], rfl, rfl, rfl⟩
  | toolUse id name input =>
      obtain ⟨-, start, -, text⟩ := encodes
      have events : streamedBlock serde streamed = (parsePendingOutputBlock serde
          ⟨id, name, streamed.inputText⟩).map fun event => [event] := by
        rw [streamedBlock, start]
      rw [events, wholeBlock]
      by_cases request : name = requestUserInputToolName
      · -- Both texts give the same payload, also when it is refused.
        have same : (parseRequestUserInputRequest serde id streamed.inputText).toOption =
            (parseRequestUserInputRequest serde id (serde.toText input)).toOption := by
          rcases text with ⟨-, payload⟩ | ⟨rfl, empty⟩
          · exact toOption_parseRequest serde id payload
          · rw [empty]
            exact toOption_parseRequest serde id
              (documented.emptyPayload.trans documented.noPrompt.symm)
        simp only [parsePendingOutputBlock, request, if_true, invalidRequest, decide_true,
          Bool.true_and]
        cases whole : parseRequestUserInputRequest serde id (serde.toText input) with
        | error error =>
            cases cut : parseRequestUserInputRequest serde id streamed.inputText with
            | error error' => simp [Except.toOption, Except.map]
            | ok _ => simp [whole, cut, Except.toOption] at same
        | ok asked =>
            cases cut : parseRequestUserInputRequest serde id streamed.inputText with
            | error error' => simp [whole, cut, Except.toOption] at same
            | ok asked' =>
                obtain rfl : asked' = asked := by
                  simpa [whole, cut, Except.toOption] using same
                refine ⟨_, _, rfl, rfl, fun _ => rfl, ?_, rfl, rfl, rfl⟩
                simp [BlockStream.silent]
      · rw [if_neg (by simp [invalidRequest, request])]
        simp only [parsePendingOutputBlock, request, if_false, Except.map]
        refine ⟨_, _, rfl, rfl, fun loud => ?_, fun quiet => ?_, rfl, rfl, rfl⟩
        · have read : readInput serde streamed.inputText =
              readInput serde (serde.toText input) := by
            rcases text with ⟨same, -⟩ | ⟨rfl, empty⟩
            · rw [readInput, same, readInput]
            · simp [BlockStream.silent, request, empty, Json.isEmptyObject] at loud
          simp [seen, view, read]
        · simp only [BlockStream.silent, Bool.and_eq_true, decide_eq_true_eq,
            Json.isEmptyObject_iff] at quiet
          obtain ⟨⟨-, rfl⟩, empty⟩ := quiet
          simp [inputs, view, ReplyEvent.input?, readInput, empty, documented.emptyText,
            documented.emptyObject]

/-- All blocks: both refused when one is an invalid request, and otherwise equal
in what is seen exactly when no block is silent. -/
theorem blocksAgree (documented : serde.Documented) {blocks : List OutputContentBlock}
    {streamed : List BlockStream}
    (encodes : List.Forall₂ (fun block streamed => BlockStream.Encodes serde streamed block)
      blocks streamed) :
    if blocks.any (invalidRequest serde) then
      (∃ error, collect (blocks.map (wholeBlock serde)) = .error error) ∧
        ∃ error, collect (streamed.map (streamedBlock serde)) = .error error
    else
      ∃ events whole, collect (streamed.map (streamedBlock serde)) = .ok events ∧
        collect (blocks.map (wholeBlock serde)) = .ok whole ∧
        (seen serde events = seen serde whole ∨ inputs serde events ≠ inputs serde whole) ∧
        (inputs serde events = inputs serde whole ↔
          ∀ pair ∈ blocks.zip streamed, pair.2.silent pair.1 = false) ∧
        usages serde events = [] ∧ usages serde whole = [] := by
  induction encodes with
  | nil => exact ⟨[], [], rfl, rfl, Or.inl rfl, by simp, rfl, rfl⟩
  | @cons block streamed blocks rest encodes _ ih =>
      have first := blockAgrees serde documented encodes
      simp only [List.any_cons, List.map_cons]
      cases invalid : invalidRequest serde block with
      | true =>
          rw [invalid, if_pos rfl] at first
          obtain ⟨⟨error, whole⟩, error', cut⟩ := first
          simp [whole, cut, collect]
      | false =>
          rw [invalid, if_neg (by simp)] at first
          obtain ⟨events, whole, cut, uncut, agrees⟩ := first
          rw [Bool.false_or, cut, uncut]
          simp only [collect]
          cases later : blocks.any (invalidRequest serde) with
          | true =>
              rw [later, if_pos rfl] at ih
              obtain ⟨⟨error, failed⟩, error', failed'⟩ := ih
              simp [failed, failed', Except.map]
          | false =>
              rw [later, if_neg (by simp)] at ih
              obtain ⟨more, wholeMore, cutMore, uncutMore, seenMore, iff, noUsage, noUsage'⟩ := ih
              rw [cutMore, uncutMore, if_neg (by simp)]
              have appended : ∀ xs ys, inputs serde (xs ++ ys) = inputs serde xs ++ inputs serde ys := by
                intro xs ys
                simp [inputs]
              have split : inputs serde (events ++ more) = inputs serde (whole ++ wholeMore) ↔
                  inputs serde events = inputs serde whole ∧
                    inputs serde more = inputs serde wholeMore := by
                rw [appended, appended]
                constructor
                · intro same
                  exact List.append_inj same agrees.calls
                · rintro ⟨one, two⟩
                  rw [one, two]
              have loud : inputs serde events = inputs serde whole ↔
                  streamed.silent block = false := by
                constructor
                · intro same
                  by_contra quiet
                  exact agrees.quiet (by simpa using quiet) same
                · intro quiet
                  have same := congrArg (List.filterMap ReplyEvent.input?) (agrees.loud quiet)
                  rwa [seen_observed serde _ fun _ => rfl, seen_observed serde _ fun _ => rfl] at same
              refine ⟨_, _, rfl, rfl, ?_, ?_, ?_, ?_⟩
              · by_cases same : inputs serde (events ++ more) = inputs serde (whole ++ wholeMore)
                · obtain ⟨one, two⟩ := split.1 same
                  refine Or.inl (seen_append serde (agrees.loud (loud.1 one)) ?_)
                  exact seenMore.resolve_right (not_not_intro two)
                · exact Or.inr same
              · rw [split, loud, iff]
                simp
              · simp only [usages, List.map_append, List.filterMap_append]
                exact List.append_eq_nil_iff.2 ⟨agrees.usages.1, noUsage⟩
              · simp only [usages, List.map_append, List.filterMap_append]
                exact List.append_eq_nil_iff.2 ⟨agrees.usages.2, noUsage'⟩

/-- **When the streamed reply agrees with the whole one**: when both are refused
over an invalid user-input request, and otherwise exactly when the message delta
has the whole usage and no tool is called silently with the empty object. -/
theorem stream_agrees_iff (documented : serde.Documented) {response : MessageResponse}
    {streamed : ReplyStream} (encodes : streamed.Encodes serde response)
    (sendMessage : Except String MessageResponse) :
    Agree serde (stream serde (delivered streamed.events) sendMessage)
        (responseToEvents serde response) ↔
      response.content.any (invalidRequest serde) ∨ Carried streamed response := by
  have lengths := encodes.blocks.length_eq
  rw [stream_eq serde encodes,
    responseToEvents_eq serde response (by rw [lengths]; exact encodes.indices)]
  have blocks := blocksAgree serde documented encodes.blocks
  cases invalid : response.content.any (invalidRequest serde) with
  | true =>
      rw [invalid, if_pos rfl] at blocks
      obtain ⟨⟨error, whole⟩, error', cut⟩ := blocks
      simp [whole, cut, Except.map, Agree]
  | false =>
      rw [invalid, if_neg (by simp)] at blocks
      obtain ⟨events, whole, cut, uncut, seenBlocks, loud, noUsage, noUsage'⟩ := blocks
      rw [cut, uncut]
      simp only [Except.map, Agree, Bool.false_eq_true, false_or]
      constructor
      · intro agree
        have calls := congrArg (List.filterMap ReplyEvent.input?) agree
        have tokens := congrArg (List.filterMap ReplyEvent.usage?) agree
        rw [seen_observed serde _ fun _ => rfl, seen_observed serde _ fun _ => rfl] at calls tokens
        simp only [List.map_append, List.filterMap_append] at calls tokens
        change usages serde events ++ _ = usages serde whole ++ _ at tokens
        rw [noUsage, noUsage'] at tokens
        simp only [List.map_cons, List.map_nil, view, List.filterMap_cons, List.filterMap_nil,
          ReplyEvent.usage?, List.nil_append, List.cons.injEq, and_true, streamedUsage,
          responseUsage, TokenUsage.mk.injEq] at tokens
        obtain ⟨inputTokens, -, creation, read⟩ := tokens
        refine ⟨inputTokens, creation.symm, read.symm, loud.1 ?_⟩
        exact List.append_cancel_right calls
      · rintro ⟨inputTokens, creation, read, silent⟩
        have same := seenBlocks.resolve_right (not_not_intro (loud.2 silent))
        have usage : streamedUsage streamed.usage = responseUsage response.usage := by
          simp [streamedUsage, responseUsage, inputTokens, creation, read, encodes.outputSide]
        rw [usage]
        exact seen_append serde same rfl

/-! ## A tool without arguments -/

/-- `serde_json` on the two texts that occur below, the empty one and `{}`. -/
def emptyObjectSerde : ReplySerde where
  fromStr text :=
    if text = "{}" then .ok (.object [])
    else .error "EOF while parsing a value at line 1 column 0"
  toText _ := "{}"
  payloadFromStr text :=
    if text = "{}" then .error "missing field prompt at line 1 column 2"
    else .error "EOF while parsing a value at line 1 column 0"

/-- A reply that calls a tool with the empty object. -/
def bareResponse : MessageResponse :=
  { id := "msg_1"
    kind := "message"
    role := "assistant"
    content := [.toolUse "toolu_1" "ListAgents" (.object [])]
    model := "model"
    stopReason := some "tool_use"
    stopSequence := none
    usage := ⟨7, 0, 0, 5⟩
    requestId := none }

/-- Its stream, with no input delta. -/
def bareStream : ReplyStream :=
  { start := { bareResponse with content := [] }
    blocks := [⟨.toolUse "toolu_1" "ListAgents" (.object []), []⟩]
    delta := ⟨some "tool_use", none⟩
    usage := ⟨7, 0, 0, 5⟩ }

theorem emptyObjectSerde_documented : emptyObjectSerde.Documented :=
  ⟨rfl, rfl, rfl, rfl⟩

theorem bareStream_encodes : bareStream.Encodes emptyObjectSerde bareResponse where
  started := rfl
  inputSide := rfl
  blocks := .cons ⟨⟨[], rfl⟩, rfl, ⟨[], rfl⟩, Or.inr ⟨rfl, rfl⟩⟩ .nil
  indices := by decide
  outputSide := rfl

theorem stream_agrees_iff_bare :
    emptyObjectSerde.Documented ∧ bareStream.Encodes emptyObjectSerde bareResponse ∧
      (Agree emptyObjectSerde
          (stream emptyObjectSerde (delivered bareStream.events) (.error "unreachable"))
          (responseToEvents emptyObjectSerde bareResponse) ↔
        bareResponse.content.any (invalidRequest emptyObjectSerde) ∨
          Carried bareStream bareResponse) :=
  ⟨emptyObjectSerde_documented, bareStream_encodes,
    stream_agrees_iff emptyObjectSerde emptyObjectSerde_documented bareStream_encodes _⟩

/-- The executor is handed the empty text by one way and `{}` by the other. -/
theorem bareStream_disagrees :
    bareStream.Encodes emptyObjectSerde bareResponse ∧
      ¬ Agree emptyObjectSerde
        (stream emptyObjectSerde (delivered bareStream.events) (.error "unreachable"))
        (responseToEvents emptyObjectSerde bareResponse) := by
  refine ⟨bareStream_encodes, fun agree => ?_⟩
  have streamed : stream emptyObjectSerde (delivered bareStream.events) (.error "unreachable") =
      .ok [.toolUse "toolu_1" "ListAgents" "", .usage ⟨7, 5, 0, 0⟩, .messageStop] := by decide
  have whole : responseToEvents emptyObjectSerde bareResponse =
      .ok [.toolUse "toolu_1" "ListAgents" "{}", .usage ⟨7, 5, 0, 0⟩, .messageStop] := by decide
  rw [streamed, whole] at agree
  change seen emptyObjectSerde _ = seen emptyObjectSerde _ at agree
  revert agree
  decide

end Openyak.Tools
