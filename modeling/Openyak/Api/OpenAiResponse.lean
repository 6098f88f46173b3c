/-
# Api.OpenAiResponse -- a whole response, and the reply a stream amounts to

`normalizeResponse` is the reply when it is not streamed.  `accumulate` puts the events
of a stream together by block index, as a consumer does: a start begins a block, a delta
adds to a block that is not stopped, a stop ends it.  `ReplyParts` is what the two are
compared by.

`serde_json` is a parameter, for the text of a tool call's arguments.
-/
import Openyak.Api.StreamBrackets

namespace Openyak.Api

open Openyak.Theory (Json SerdeJson)

set_option autoImplicit false

/-! ## A whole response -/

structure ResponseToolFunction where
  name : String
  arguments : String
  deriving DecidableEq, Repr

structure ResponseToolCall where
  id : String
  function : ResponseToolFunction
  deriving DecidableEq, Repr

structure ChatMessage where
  role : String
  content : Option String
  toolCalls : List ResponseToolCall
  deriving DecidableEq, Repr

structure ChatChoice where
  message : ChatMessage
  finishReason : Option String
  deriving DecidableEq, Repr

structure ChatCompletionResponse where
  id : String
  model : String
  choices : List ChatChoice
  usage : Option OpenAiUsage
  deriving DecidableEq, Repr

namespace OpenAi

/-- Text that is no JSON is kept under the key `raw`. -/
def parseToolArguments (serde : SerdeJson) (arguments : String) : Json :=
  match serde.fromStr arguments with
  | .ok value => value
  | .error _ => .ofFields [("raw", .string arguments)]

def normalizeResponse (serde : SerdeJson) (model : String) (response : ChatCompletionResponse) :
    Except ApiError MessageResponse :=
  match response.choices with
  | [] => .error (.invalidSseFrame "chat completion response missing choices")
  | choice :: _ => .ok
      { id := response.id
        kind := "message"
        role := choice.message.role
        content :=
          ((choice.message.content.filter (· ≠ "")).map OutputContentBlock.text).toList ++
            choice.message.toolCalls.map fun toolCall =>
              .toolUse toolCall.id toolCall.function.name
                (parseToolArguments serde toolCall.function.arguments)
        model := normalizeModelName (some response.model) model
        stopReason := choice.finishReason.map normalizeFinishReason
        stopSequence := none
        usage :=
          { inputTokens := (response.usage.map (·.promptTokens)).getD 0
            cacheCreationInputTokens := 0
            cacheReadInputTokens := 0
            outputTokens := (response.usage.map (·.completionTokens)).getD 0 }
        requestId := none }

end OpenAi

/-! ## Blocks put together from events -/

/-- What the events of one index amount to: the content the block was started with, the
text of its deltas, and whether it is stopped. -/
structure BlockReply where
  start : OutputContentBlock
  received : List Char := []
  stopped : Bool := false
  deriving DecidableEq, Repr

def deltaText : ContentBlockDelta → List Char
  | .textDelta text => text.toList
  | .inputJsonDelta partialJson => partialJson.toList
  | .thinkingDelta _ | .signatureDelta _ => []

def BlockReply.step : Option BlockReply → StreamEvent → Option BlockReply
  | _, .contentBlockStart _ start => some { start := start }
  | some block, .contentBlockDelta _ delta =>
      some (if block.stopped then block
        else { block with received := block.received ++ deltaText delta })
  | some block, .contentBlockStop _ => some { block with stopped := true }
  | block, _ => block

def accumulateStep (blocks : Std.TreeMap UInt32 BlockReply) (event : StreamEvent) :
    Std.TreeMap UInt32 BlockReply :=
  match event.blockIndex? with
  | none => blocks
  | some index => blocks.alter index fun block => BlockReply.step block event

def accumulate (events : List StreamEvent) : Std.TreeMap UInt32 BlockReply :=
  events.foldl accumulateStep ∅

/-- The block at an index is what the events of that index amount to. -/
theorem accumulate_get? (events : List StreamEvent) (index : UInt32) :
    (accumulate events)[index]? = (blockEvents index events).foldl BlockReply.step none := by
  have onward : ∀ (blocks : Std.TreeMap UInt32 BlockReply),
      (events.foldl accumulateStep blocks)[index]? =
        (blockEvents index events).foldl BlockReply.step blocks[index]? := by
    induction events with
    | nil => exact fun _ => rfl
    | cons event events ih =>
        intro blocks
        rw [List.foldl_cons, ih]
        by_cases own : event.blockIndex? = some index
        · have first : blockEvents index (event :: events) = event :: blockEvents index events := by
            simp [blockEvents, own]
          rw [first, List.foldl_cons]
          simp [accumulateStep, own]
        · have same : blockEvents index (event :: events) = blockEvents index events := by
            simp [blockEvents, own]
          have kept : (accumulateStep blocks event)[index]? = blocks[index]? := by
            unfold accumulateStep
            cases other : event.blockIndex? with
            | none => rfl
            | some k =>
                have apart : k ≠ index := by
                  rintro rfl
                  exact own other
                simp [Std.TreeMap.getElem?_alter, apart]
          rw [same, kept]
  rw [accumulate, onward]
  rfl

/-! ## What two replies are compared by -/

structure ReplyParts where
  text : List Char
  /-- Id, name and parsed input; none is an input that does not parse. -/
  calls : List (String × String × Option Json)
  stopReason : Option String
  usage : Option Usage
  deriving DecidableEq, Repr

def OutputContentBlock.textPart : OutputContentBlock → List Char
  | .text content => content.toList
  | _ => []

def OutputContentBlock.callPart : OutputContentBlock → Option (String × String × Option Json)
  | .toolUse id name input => some (id, name, some input)
  | _ => none

def MessageResponse.parts (response : MessageResponse) : ReplyParts where
  text := response.content.flatMap OutputContentBlock.textPart
  calls := response.content.filterMap OutputContentBlock.callPart
  stopReason := response.stopReason
  usage := some response.usage

def BlockReply.textPart (block : BlockReply) : List Char :=
  match block.start with
  | .text text => text.toList ++ block.received
  | _ => []

def BlockReply.callPart (serde : SerdeJson) (block : BlockReply) :
    Option (String × String × Option Json) :=
  match block.start with
  | .toolUse id name _ =>
      some (id, name, (serde.fromStr (String.ofList block.received)).toOption)
  | _ => none

def StreamEvent.messageDelta? : StreamEvent → Option (MessageDelta × Usage)
  | .messageDelta delta usage => some (delta, usage)
  | _ => none

/-- The stopped blocks in the order of their indices, and the last message delta. -/
def streamedParts (serde : SerdeJson) (events : List StreamEvent) : ReplyParts :=
  let blocks := ((accumulate events).toList.map Prod.snd).filter (·.stopped)
  let last := (events.filterMap StreamEvent.messageDelta?).getLast?
  { text := blocks.flatMap BlockReply.textPart
    calls := blocks.filterMap (BlockReply.callPart serde)
    stopReason := last.bind fun last => last.1.stopReason
    usage := last.map Prod.snd }

end Openyak.Api
