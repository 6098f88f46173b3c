/-
# Api.Types -- provider replies, whole and streamed

The reply types both providers are translated to: a `MessageResponse` with its
content blocks and usage, and the `StreamEvent`s that carry the same reply piece
by piece.  Token counts are `u32`, block indices are `u32`; tool inputs are JSON
values.
-/
import Openyak.Theory.Json

namespace Openyak.Api

open Openyak.Theory (Json)

set_option autoImplicit false

structure Usage where
  inputTokens : UInt32
  cacheCreationInputTokens : UInt32
  cacheReadInputTokens : UInt32
  outputTokens : UInt32
  deriving DecidableEq, Repr

/-- The usage literal with every field `0`. -/
def Usage.zero : Usage := ⟨0, 0, 0, 0⟩

inductive OutputContentBlock where
  | text (text : String)
  | toolUse (id name : String) (input : Json)
  | thinking (thinking : String) (signature : Option String)
  | redactedThinking (data : Json)
  deriving DecidableEq, Repr

structure MessageResponse where
  id : String
  kind : String
  role : String
  content : List OutputContentBlock
  model : String
  stopReason : Option String
  stopSequence : Option String
  usage : Usage
  requestId : Option String
  deriving DecidableEq, Repr

structure MessageDelta where
  stopReason : Option String
  stopSequence : Option String
  deriving DecidableEq, Repr

inductive ContentBlockDelta where
  | textDelta (text : String)
  | inputJsonDelta (partialJson : String)
  | thinkingDelta (thinking : String)
  | signatureDelta (signature : String)
  deriving DecidableEq, Repr

inductive StreamEvent where
  | messageStart (message : MessageResponse)
  | messageDelta (delta : MessageDelta) (usage : Usage)
  | contentBlockStart (index : UInt32) (contentBlock : OutputContentBlock)
  | contentBlockDelta (index : UInt32) (delta : ContentBlockDelta)
  | contentBlockStop (index : UInt32)
  | messageStop
  deriving DecidableEq, Repr

/-! ## Chunks of an OpenAI-compatible stream -/

structure OpenAiUsage where
  promptTokens : UInt32
  completionTokens : UInt32
  deriving DecidableEq, Repr

structure DeltaFunction where
  name : Option String
  arguments : Option String
  deriving DecidableEq, Repr

structure DeltaToolCall where
  index : UInt32
  id : Option String
  function : DeltaFunction
  deriving DecidableEq, Repr

structure ChunkDelta where
  content : Option String
  toolCalls : List DeltaToolCall
  deriving DecidableEq, Repr

structure ChunkChoice where
  delta : ChunkDelta
  finishReason : Option String
  deriving DecidableEq, Repr

structure ChatCompletionChunk where
  id : String
  model : Option String
  choices : List ChunkChoice
  usage : Option OpenAiUsage
  deriving DecidableEq, Repr

structure ErrorBody where
  errorType : Option String
  message : Option String
  deriving DecidableEq, Repr

structure ErrorEnvelope where
  error : Option ErrorBody
  detail : Option String
  message : Option String
  deriving DecidableEq, Repr

/-! ## Errors -/

/-- The errors of the provider layer that parsing a stream can give: a payload
that is not the JSON expected, and an error object sent by the provider. -/
inductive ApiError where
  | json (error : String)
  | api (status : Nat) (errorType message : Option String) (body : String) (retryable : Bool)
  | invalidSseFrame (message : String)
  deriving DecidableEq, Repr

end Openyak.Api
