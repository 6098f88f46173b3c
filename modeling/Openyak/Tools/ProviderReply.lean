/-
# Tools.ProviderReply -- assistant events from a model reply

Two ways from a provider's reply to `AssistantEvent`s: `responseToEvents` from a
whole response, and `stream` from its stream events, which keeps the tool calls
still open by block index.  Both hand a tool's input on as text; the executor
parses it (`readInput`).

`serde_json` is a parameter: parsing and printing JSON, and parsing the payload
of the user-input tool.
-/
import Openyak.Api.Types
import Openyak.Runtime.Session
import Openyak.Theory.Text
import Std.Data.TreeMap.Lemmas
import Mathlib.Algebra.Group.Nat.Defs

namespace Openyak.Tools

open Openyak.Theory
open Openyak.Api
open Openyak.Runtime

set_option autoImplicit false

def requestUserInputToolName : String := "openyak_request_user_input"

structure RequestUserInputToolPayload where
  requestId : Option String := none
  prompt : String
  options : List String := []
  allowFreeform : Bool := false
  deriving DecidableEq, Repr

/-- What the reply path uses of `serde_json`. -/
structure ReplySerde extends SerdeJson where
  payloadFromStr : String → Except String RequestUserInputToolPayload

variable (serde : ReplySerde)

def parseRequestUserInputRequest (id input : String) : Except RuntimeError UserInputRequest :=
  match serde.payloadFromStr input with
  | .error error => .error { message := "invalid request-user-input payload: " ++ error }
  | .ok payload =>
      if Text.trim payload.prompt.toList = [] then
        .error { message := "request-user-input payload must include a non-empty prompt" }
      else
        .ok
          { requestId := payload.requestId.getD id
            prompt := payload.prompt
            options := payload.options
            allowFreeform := payload.allowFreeform }

/-- A tool call under way: its id, its name and the input text so far. -/
structure PendingTool where
  id : String
  name : String
  input : String
  deriving DecidableEq, Repr

abbrev PendingTools := Std.TreeMap UInt32 PendingTool

def parsePendingOutputBlock (tool : PendingTool) : Except RuntimeError AssistantEvent :=
  if tool.name = requestUserInputToolName then
    (parseRequestUserInputRequest serde tool.id tool.input).map .requestUserInput
  else .ok (.toolUse tool.id tool.name tool.input)

/-- The events pushed so far, the tools still open, and whether a message stop
was received. -/
structure Reply where
  events : List AssistantEvent := []
  pendingTools : PendingTools := ∅
  sawStop : Bool := false

/-- A text is pushed unless it is empty. -/
def textEvents (text : String) : List AssistantEvent :=
  if text = "" then [] else [.textDelta text]

def pushOutputBlock (streamingToolInput : Bool) (blockIndex : UInt32) (reply : Reply) :
    OutputContentBlock → Reply
  | .text text => { reply with events := reply.events ++ textEvents text }
  | .toolUse id name input =>
      let initialInput :=
        if streamingToolInput && input.isEmptyObject then "" else serde.toText input
      { reply with
        pendingTools := reply.pendingTools.insert blockIndex ⟨id, name, initialInput⟩ }
  | .thinking .. | .redactedThinking _ => reply

/-- Close the block: a tool open at its index becomes an event. -/
def Reply.close (blockIndex : UInt32) (reply : Reply) : Except RuntimeError Reply :=
  match reply.pendingTools[blockIndex]? with
  | none => .ok reply
  | some tool => (parsePendingOutputBlock serde tool).map fun event =>
      { reply with
        events := reply.events ++ [event]
        pendingTools := reply.pendingTools.erase blockIndex }

/-! ## A whole response -/

/-- The loop of `response_to_events`, from block `index` on.  The panic on an
index above `u32::MAX` is an error here. -/
def responseBlocks (index : Nat) (reply : Reply) :
    List OutputContentBlock → Except RuntimeError Reply
  | [] => .ok reply
  | block :: blocks =>
      if index < 2 ^ 32 then
        match (pushOutputBlock serde false (UInt32.ofNat index) reply block).close serde
            (UInt32.ofNat index) with
        | .error error => .error error
        | .ok reply => responseBlocks (index + 1) reply blocks
      else .error { message := "response block index overflow" }

def responseToEvents (response : MessageResponse) : Except RuntimeError (List AssistantEvent) :=
  (responseBlocks serde 0 {} response.content).map fun reply =>
    reply.events ++
      [.usage
        { inputTokens := response.usage.inputTokens
          outputTokens := response.usage.outputTokens
          cacheCreationInputTokens := response.usage.cacheCreationInputTokens
          cacheReadInputTokens := response.usage.cacheReadInputTokens },
        .messageStop]

/-! ## A stream -/

def ingestDelta (index : UInt32) (reply : Reply) : ContentBlockDelta → Reply
  | .textDelta text => { reply with events := reply.events ++ textEvents text }
  | .inputJsonDelta partialJson =>
      match reply.pendingTools[index]? with
      | none => reply
      | some tool =>
          { reply with
            pendingTools := reply.pendingTools.insert index
              { tool with input := tool.input ++ partialJson } }
  | .thinkingDelta _ | .signatureDelta _ => reply

def ingest (reply : Reply) : StreamEvent → Except RuntimeError Reply
  | .messageStart message => .ok (message.content.foldl (pushOutputBlock serde true 0) reply)
  | .contentBlockStart index block => .ok (pushOutputBlock serde true index reply block)
  | .contentBlockDelta index delta => .ok (ingestDelta index reply delta)
  | .contentBlockStop index => reply.close serde index
  | .messageDelta _ usage => .ok
      { reply with
        events := reply.events ++
          [.usage
            { inputTokens := usage.inputTokens
              outputTokens := usage.outputTokens
              cacheCreationInputTokens := 0
              cacheReadInputTokens := 0 }] }
  | .messageStop => .ok { reply with events := reply.events ++ [.messageStop], sawStop := true }

/-- The loop over the stream; an error of the provider ends it. -/
def ingestAll (reply : Reply) : List (Except String StreamEvent) → Except RuntimeError Reply
  | [] => .ok reply
  | .error error :: _ => .error { message := error }
  | .ok event :: rest =>
      match ingest serde reply event with
      | .error error => .error error
      | .ok reply => ingestAll reply rest

def speaks : AssistantEvent → Bool
  | .textDelta text => text ≠ ""
  | .toolUse .. | .requestUserInput _ => true
  | .usage _ | .messageStop => false

/-- `ProviderRuntimeClient::stream`, on the events the provider sends and the
answer it would give when asked again without streaming. -/
def stream (received : List (Except String StreamEvent))
    (sendMessage : Except String MessageResponse) : Except RuntimeError (List AssistantEvent) :=
  match ingestAll serde {} received with
  | .error error => .error error
  | .ok reply =>
      let events :=
        if !reply.sawStop && reply.events.any speaks then reply.events ++ [.messageStop]
        else reply.events
      if AssistantEvent.messageStop ∈ events then .ok events
      else
        match sendMessage with
        | .error error => .error { message := error }
        | .ok response => responseToEvents serde response

/-- The tool executor's reading of an input text. -/
def readInput (input : String) : Option Json := (serde.fromStr input).toOption

end Openyak.Tools
