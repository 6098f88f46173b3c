/-
# Cli.ReplyStream -- the command line's reading of a streamed reply

`DefaultRuntimeClient::stream` reads the same provider events as the stream of
`Tools.ProviderReply`, but it keeps one tool call at a time and looks at no block
index: a tool's start replaces the call kept, every input delta is appended to
it, and every block stop finishes it.

What is written to the terminal on the way is left out.
-/
import Openyak.Tools.ProviderReply

namespace Openyak.Cli

open Openyak.Theory
open Openyak.Api
open Openyak.Runtime
open Openyak.Tools (ReplySerde PendingTool requestUserInputToolName textEvents)

set_option autoImplicit false

variable (serde : ReplySerde)

/-! ## The payload of the user-input tool -/

def jsonStrings (key : String) : List Json → Except RuntimeError (List String)
  | [] => .ok []
  | .string item :: items => (jsonStrings key items).map (item :: ·)
  | _ :: _ => .error
      { message := "request-user-input field '" ++ key ++ "' must contain only strings" }

def jsonStringArrayField (object : Json) (key : String) : Except RuntimeError (List String) :=
  match object.get? key with
  | none => .ok []
  | some (.array items) => jsonStrings key items
  | some _ => .error
      { message := "request-user-input field '" ++ key ++ "' must be an array" }

def parseRequestUserInputRequest (id input : String) : Except RuntimeError UserInputRequest :=
  match serde.fromStr input with
  | .error error => .error { message := "invalid request-user-input payload: " ++ error }
  | .ok (.object fields) =>
      let object := Json.object fields
      let requestId := ((object.get? "request_id").bind Json.asStr?).getD id
      match (object.get? "prompt").bind Json.asStr? with
      | none => .error { message := "request-user-input payload missing prompt" }
      | some prompt =>
          if Text.trim prompt.toList = [] then
            .error { message := "request-user-input payload must include a non-empty prompt" }
          else
            (jsonStringArrayField object "options").map fun options =>
              { requestId, prompt, options
                allowFreeform := object.get? "allow_freeform" == some (.bool true) }
  | .ok _ => .error { message := "request-user-input payload must be a JSON object" }

/-! ## The reply -/

/-- The events pushed so far, the tool call kept, and whether a message stop was
received. -/
structure Reply where
  events : List AssistantEvent := []
  pendingTool : Option PendingTool := none
  sawStop : Bool := false
  deriving DecidableEq

def pushOutputBlock (streamingToolInput : Bool) (reply : Reply) : OutputContentBlock → Reply
  | .text text => { reply with events := reply.events ++ textEvents text }
  | .toolUse id name input =>
      let initialInput :=
        if streamingToolInput && input.isEmptyObject then "" else serde.toText input
      { reply with pendingTool := some ⟨id, name, initialInput⟩ }
  | .thinking .. | .redactedThinking _ => reply

def finalizePendingOutputBlock (tool : PendingTool) (reply : Reply) : Except RuntimeError Reply :=
  if tool.name = requestUserInputToolName then
    (parseRequestUserInputRequest serde tool.id tool.input).map fun request =>
      { reply with events := reply.events ++ [.requestUserInput request] }
  else .ok { reply with events := reply.events ++ [.toolUse tool.id tool.name tool.input] }

/-- Take the call kept, if there is one, and finish it. -/
def Reply.finishTool (reply : Reply) : Except RuntimeError Reply :=
  match reply.pendingTool with
  | none => .ok reply
  | some tool => finalizePendingOutputBlock serde tool { reply with pendingTool := none }

/-! ## A whole response -/

def responseBlocks (reply : Reply) : List OutputContentBlock → Except RuntimeError Reply
  | [] => .ok reply
  | block :: blocks =>
      match (pushOutputBlock serde false reply block).finishTool serde with
      | .error error => .error error
      | .ok reply => responseBlocks reply blocks

def responseToEvents (response : MessageResponse) : Except RuntimeError (List AssistantEvent) :=
  (responseBlocks serde {} response.content).map fun reply =>
    reply.events ++
      [.usage
        { inputTokens := response.usage.inputTokens
          outputTokens := response.usage.outputTokens
          cacheCreationInputTokens := response.usage.cacheCreationInputTokens
          cacheReadInputTokens := response.usage.cacheReadInputTokens },
        .messageStop]

/-! ## A stream -/

def ingestDelta (reply : Reply) : ContentBlockDelta → Reply
  | .textDelta text => { reply with events := reply.events ++ textEvents text }
  | .inputJsonDelta partialJson =>
      { reply with
        pendingTool := reply.pendingTool.map fun tool =>
          { tool with input := tool.input ++ partialJson } }
  | .thinkingDelta _ | .signatureDelta _ => reply

def ingest (reply : Reply) : StreamEvent → Except RuntimeError Reply
  | .messageStart message => .ok (message.content.foldl (pushOutputBlock serde true) reply)
  | .contentBlockStart _ block => .ok (pushOutputBlock serde true reply block)
  | .contentBlockDelta _ delta => .ok (ingestDelta reply delta)
  | .contentBlockStop _ => reply.finishTool serde
  | .messageDelta _ usage => .ok
      { reply with
        events := reply.events ++
          [.usage
            { inputTokens := usage.inputTokens
              outputTokens := usage.outputTokens
              cacheCreationInputTokens := 0
              cacheReadInputTokens := 0 }] }
  | .messageStop => .ok { reply with events := reply.events ++ [.messageStop], sawStop := true }

def ingestAll (reply : Reply) : List (Except String StreamEvent) → Except RuntimeError Reply
  | [] => .ok reply
  | .error error :: _ => .error { message := error }
  | .ok event :: rest =>
      match ingest serde reply event with
      | .error error => .error error
      | .ok reply => ingestAll reply rest

/-- A request for user input does not count here. -/
def speaks : AssistantEvent → Bool
  | .textDelta text => text ≠ ""
  | .toolUse .. => true
  | .requestUserInput _ | .usage _ | .messageStop => false

/-- `DefaultRuntimeClient::stream`, on the events the provider sends and the
answer it would give when asked again without streaming. -/
def stream (received : List (Except String StreamEvent))
    (sendMessage : Except String MessageResponse) : Except RuntimeError (List AssistantEvent) :=
  match ingestAll serde {} received with
  | .error error => .error error
  | .ok reply =>
      let events :=
        if !reply.sawStop && reply.events.any speaks then reply.events ++ [.messageStop]
        else reply.events
      if AssistantEvent.messageStop ∈ events then .ok events
      else
        match sendMessage with
        | .error error => .error { message := error }
        | .ok response => responseToEvents serde response

end Openyak.Cli
