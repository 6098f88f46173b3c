/-
# Runtime.Session -- sessions and the events they are built from

A session is a list of messages, a message a list of blocks.  Tool uses and
user-input requests are the blocks that wait for an answer: a tool result with
the same id, a user-input response with the same request id.

`pendingUserInputRequest` is the first of the requests a scan of the session
keeps, `awaiting`.
-/
import Mathlib.Data.List.Basic

namespace Openyak.Runtime

set_option autoImplicit false

structure TokenUsage where
  inputTokens : UInt32 := 0
  outputTokens : UInt32 := 0
  cacheCreationInputTokens : UInt32 := 0
  cacheReadInputTokens : UInt32 := 0
  deriving DecidableEq, Repr

inductive MessageRole where
  | system
  | user
  | assistant
  | tool
  deriving DecidableEq, Repr

inductive ContentBlock where
  | text (text : String)
  | toolUse (id name input : String)
  | toolResult (toolUseId toolName output : String) (isError : Bool)
  | userInputRequest (requestId prompt : String) (options : List String) (allowFreeform : Bool)
  | userInputResponse (requestId content : String) (selectedOption : Option String)
  deriving DecidableEq, Repr

structure ConversationMessage where
  role : MessageRole
  blocks : List ContentBlock
  usage : Option TokenUsage
  deriving DecidableEq, Repr

inductive SessionAccountingStatus where
  | complete
  | partialLegacyCompaction
  deriving DecidableEq, Repr

structure SessionTelemetry where
  compactedUsage : TokenUsage
  compactedTurns : UInt32
  accountingStatus : SessionAccountingStatus
  deriving DecidableEq, Repr

structure Session where
  version : UInt32 := 1
  messages : List ConversationMessage := []
  telemetry : Option SessionTelemetry := none
  deriving DecidableEq, Repr

def Session.push (session : Session) (message : ConversationMessage) : Session :=
  { session with messages := session.messages ++ [message] }

/-- `UserInputRequest` and, in a session, `PendingUserInputRequest`. -/
structure UserInputRequest where
  requestId : String
  prompt : String
  options : List String
  allowFreeform : Bool
  deriving DecidableEq, Repr

structure UserInputResponse where
  requestId : String
  content : String
  selectedOption : Option String
  deriving DecidableEq, Repr

inductive AssistantEvent where
  | textDelta (text : String)
  | toolUse (id name input : String)
  | requestUserInput (request : UserInputRequest)
  | usage (usage : TokenUsage)
  | messageStop
  deriving DecidableEq, Repr

structure RuntimeError where
  message : String
  pendingUserInput : Option UserInputRequest := none
  deriving DecidableEq, Repr

namespace ConversationMessage

def userText (text : String) : ConversationMessage := ⟨.user, [.text text], none⟩

def assistantWithUsage (blocks : List ContentBlock) (usage : Option TokenUsage) :
    ConversationMessage := ⟨.assistant, blocks, usage⟩

def toolResult (toolUseId toolName output : String) (isError : Bool) : ConversationMessage :=
  ⟨.tool, [.toolResult toolUseId toolName output isError], none⟩

def userInputResponse (requestId content : String) (selectedOption : Option String) :
    ConversationMessage := ⟨.user, [.userInputResponse requestId content selectedOption], none⟩

end ConversationMessage

/-! ## What a session awaits -/

/-- One block of the scan: a request is put at the end, a response takes every
request with its id away. -/
def awaitBlock (pending : List UserInputRequest) : ContentBlock → List UserInputRequest
  | .userInputRequest requestId prompt options allowFreeform =>
      pending ++ [⟨requestId, prompt, options, allowFreeform⟩]
  | .userInputResponse requestId _ _ =>
      pending.filter fun request => request.requestId ≠ requestId
  | .text _ | .toolUse .. | .toolResult .. => pending

def awaiting (messages : List ConversationMessage) : List UserInputRequest :=
  messages.foldl (fun pending message => message.blocks.foldl awaitBlock pending) []

def Session.pendingUserInputRequest (session : Session) : Option UserInputRequest :=
  (awaiting session.messages).head?

end Openyak.Runtime
