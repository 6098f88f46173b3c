/-
# Server.Events -- the protocol events of a thread, and what a finished run emits

An event holds what its payload is made from.  `emitProtocolReplay` goes through
the batches the provider returned and the messages the run added, side by side:
a batch is followed by the results and responses up to the next assistant message.
-/
import Openyak.Server.Thread
import Openyak.Runtime.Conversation

namespace Openyak.Server

open Openyak.Runtime

set_option autoImplicit false

inductive ProtocolEvent where
  | runStarted (message : String)
  | userInputSubmitted (response : UserInputResponse)
  | assistant (event : AssistantEvent)
  | toolResult (toolUseId toolName output : String) (isError : Bool)
  | runCompleted (iterations assistantMessageCount toolResultCount : Nat)
      (cumulativeUsage : TokenUsage)
  | runWaitingUserInput (request : UserInputRequest)
  | runFailed (code message : String)
  deriving DecidableEq, Repr

def ProtocolEvent.eventType : ProtocolEvent → String
  | .runStarted _ => "run.started"
  | .userInputSubmitted _ => "user_input.submitted"
  | .assistant (.textDelta _) => "assistant.text.delta"
  | .assistant (.toolUse ..) => "assistant.tool_use"
  | .assistant (.requestUserInput _) => "assistant.request_user_input"
  | .assistant (.usage _) => "assistant.usage"
  | .assistant .messageStop => "assistant.message_stop"
  | .toolResult .. => "assistant.tool_result"
  | .runCompleted .. => "run.completed"
  | .runWaitingUserInput _ => "run.waiting_user_input"
  | .runFailed .. => "run.failed"

/-- Without the protocol version, which is a constant. -/
structure ThreadEventEnvelope where
  threadId : ThreadId
  runId : Option RunId
  sequence : UInt64
  timestampMs : UInt64
  event : ProtocolEvent
  deriving DecidableEq, Repr

/-- The numbering half of `emit_protocol_event`: the record after it, and the envelope
to be sent. -/
def ThreadInner.number (inner : ThreadInner) (now : UInt64) (runId : RunId)
    (event : ProtocolEvent) : ThreadInner × ThreadEventEnvelope :=
  let next := inner.nextSequence
  (next, ⟨inner.id, some runId, next.lastSequence, now, event⟩)

/-! ## The replay of a finished run -/

def messageBlockEvent : ContentBlock → Option ProtocolEvent
  | .toolResult toolUseId toolName output isError =>
      some (.toolResult toolUseId toolName output isError)
  | .userInputResponse requestId content selectedOption =>
      some (.userInputSubmitted ⟨requestId, content, selectedOption⟩)
  | .text _ | .toolUse .. | .userInputRequest .. => none

def emitProtocolMessageBlocks (message : ConversationMessage) : List ProtocolEvent :=
  message.blocks.filterMap messageBlockEvent

/-- The cursor steps over the assistant message of a batch, if that is what is next. -/
def skipAssistant : List ConversationMessage → List ConversationMessage
  | message :: rest => if message.role = .assistant then rest else message :: rest
  | [] => []

def emitProtocolReplay : (recordedBatches : List (List AssistantEvent)) →
    (messages : List ConversationMessage) → List ProtocolEvent
  | [], messages => messages.flatMap emitProtocolMessageBlocks
  | batch :: batches, messages =>
      let answers := skipAssistant messages
      batch.map .assistant ++
        (answers.takeWhile fun message => message.role ≠ .assistant).flatMap
          emitProtocolMessageBlocks ++
        emitProtocolReplay batches (answers.dropWhile fun message => message.role ≠ .assistant)

/-- The last event of a run whose row was written. -/
def terminalEvent (finalSession : Session) : Except RuntimeError TurnSummary → ProtocolEvent
  | .ok summary => .runCompleted summary.iterations summary.assistantMessages.length
      summary.toolResults.length summary.usage
  | .error error =>
      match finalSession.pendingUserInputRequest with
      | some request => .runWaitingUserInput request
      | none => .runFailed "runtime_error" error.message

/-- What `complete_run` emits.  `stored` is the error of the write, if it failed. -/
def completeRunEvents (finalSession : Session) (optimisticLen : Nat)
    (recordedBatches : List (List AssistantEvent)) (result : Except RuntimeError TurnSummary)
    (stored : Except String Unit) : List ProtocolEvent :=
  match stored with
  | .error error => [.runFailed "storage_error" error]
  | .ok () =>
      emitProtocolReplay recordedBatches (finalSession.messages.drop optimisticLen) ++
        [terminalEvent finalSession result]

end Openyak.Server
