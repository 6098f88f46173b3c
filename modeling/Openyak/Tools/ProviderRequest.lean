/-
# Tools.ProviderRequest -- a session as the messages of a provider request

`convertMessages` hands a session on: roles become `user` and `assistant`, requests for user
input become calls of the user-input tool and their responses become its results.  Every call
and every answer of a session is found again, in order, in the payload that is sent
(`links_survive`).
-/
import Openyak.Api.OpenAiRequest
import Openyak.Theory.Places
import Openyak.Tools.ProviderReply

namespace Openyak.Tools

open Openyak.Theory
open Openyak.Api
open Openyak.Runtime

set_option autoImplicit false

variable (serde : SerdeJson)

def inputRole : MessageRole → String
  | .system | .user | .tool => "user"
  | .assistant => "assistant"

def inputBlock : ContentBlock → InputContentBlock
  | .text text => .text text
  | .toolUse id name input =>
      .toolUse id name <|
        match serde.fromStr input with
        | .ok value => value
        | .error _ => Json.ofFields [("raw", .string input)]
  | .toolResult toolUseId _ output isError => .toolResult toolUseId [.text output] isError
  | .userInputRequest requestId prompt options allowFreeform =>
      .toolUse requestId requestUserInputToolName <|
        Json.ofFields [("request_id", .string requestId), ("prompt", .string prompt),
          ("options", .array (options.map .string)), ("allow_freeform", .bool allowFreeform)]
  | .userInputResponse requestId content selectedOption =>
      .toolResult requestId
        [.json (Json.ofFields [("request_id", .string requestId), ("content", .string content),
          ("selected_option", optionalText selectedOption)])] false

def convertMessage (message : ConversationMessage) : Option InputMessage :=
  let content := message.blocks.map (inputBlock serde)
  if content.isEmpty then none else some ⟨inputRole message.role, content⟩

def convertMessages (messages : List ConversationMessage) : List InputMessage :=
  messages.filterMap (convertMessage serde)

/-! ## The links of a session -/

def callId : ContentBlock → Option String
  | .toolUse id _ _ => some id
  | .userInputRequest requestId _ _ _ => some requestId
  | .text _ | .toolResult .. | .userInputResponse .. => none

def answerId : ContentBlock → Option String
  | .toolResult toolUseId _ _ _ => some toolUseId
  | .userInputResponse requestId _ _ => some requestId
  | .text _ | .toolUse .. | .userInputRequest .. => none

def messageCalls (message : ConversationMessage) : List String := message.blocks.filterMap callId

def messageAnswers (message : ConversationMessage) : List String :=
  message.blocks.filterMap answerId

def blockText : ContentBlock → Option String
  | .text text => some text
  | .toolUse .. | .toolResult .. | .userInputRequest .. | .userInputResponse .. => none

/-- The text that is not the assistant's. -/
def messageTexts (message : ConversationMessage) : List String :=
  if message.role = .assistant then [] else message.blocks.filterMap blockText

/-- The assistant calls and the others answer. -/
structure Placed (message : ConversationMessage) : Prop where
  calls : message.role = .assistant → ∀ block ∈ message.blocks, answerId block = none
  answers : message.role ≠ .assistant → ∀ block ∈ message.blocks, callId block = none

/-! ## One message -/

/-- What is sent for one message of the session. -/
def sentFor (message : ConversationMessage) : List Json :=
  (convertMessage serde message).toList.flatMap (translateMessage serde)

theorem flatMap_convertMessages (messages : List ConversationMessage) :
    (convertMessages serde messages).flatMap (translateMessage serde) =
      messages.flatMap (sentFor serde) :=
  filterMap_flatMap _ _ messages

@[simp] theorem usedId_inputBlock (block : ContentBlock) :
    usedId (inputBlock serde block) = callId block := by
  cases block <;> rfl

@[simp] theorem resultId_inputBlock (block : ContentBlock) :
    resultId (inputBlock serde block) = answerId block := by
  cases block <;> rfl

@[simp] theorem plainText_inputBlock (block : ContentBlock) :
    plainText (inputBlock serde block) = blockText block := by
  cases block <;> rfl

theorem inputRole_assistant (role : MessageRole) :
    inputRole role = "assistant" ↔ role = .assistant := by
  cases role <;> simp [inputRole]

theorem sentFor_eq {message : ConversationMessage} (solid : message.blocks ≠ []) :
    sentFor serde message =
      translateMessage serde ⟨inputRole message.role, message.blocks.map (inputBlock serde)⟩ := by
  simp [sentFor, convertMessage, solid]

theorem sentFor_reads {message : ConversationMessage} (placed : Placed message) :
    (sentFor serde message).flatMap callIds = messageCalls message ∧
      (sentFor serde message).flatMap answeredIds = messageAnswers message ∧
      (sentFor serde message).flatMap userTexts = messageTexts message := by
  by_cases solid : message.blocks = []
  · simp [sentFor, convertMessage, messageCalls, messageAnswers, messageTexts, solid]
  rw [sentFor_eq serde solid]
  obtain ⟨calls, answers, texts⟩ := translateMessage_reads serde
    ⟨inputRole message.role, message.blocks.map (inputBlock serde)⟩
  rw [calls, answers, texts]
  simp only [inputRole_assistant, List.filterMap_map, Function.comp_def, usedId_inputBlock,
    resultId_inputBlock, plainText_inputBlock]
  by_cases assistant : message.role = .assistant
  · have none : messageAnswers message = [] := List.filterMap_eq_nil_iff.mpr (placed.calls assistant)
    simp [assistant, messageCalls, messageTexts, none]
  · have none : messageCalls message = [] :=
      List.filterMap_eq_nil_iff.mpr (placed.answers assistant)
    simp [assistant, messageAnswers, messageTexts, none]

/-! ## The whole session -/

/-- What is sent of a session keeps its links: every call and every answer in order, each answer
behind the message of a call it was behind, and the text that is not the assistant's. -/
structure LinksSurvive (messages : List ConversationMessage) (sent : List Json) : Prop where
  calls : sent.flatMap callIds = messages.flatMap messageCalls
  answers : sent.flatMap answeredIds = messages.flatMap messageAnswers
  behind : ∀ (call answer i j : Nat) (id : String),
    (places messageCalls 0 messages)[call]? = some (i, id) →
    (places messageAnswers 0 messages)[answer]? = some (j, id) → i < j →
    ∃ i' j', (places callIds 0 sent)[call]? = some (i', id) ∧
      (places answeredIds 0 sent)[answer]? = some (j', id) ∧ i' < j'
  texts : sent.flatMap userTexts = messages.flatMap messageTexts

theorem systemMessages_reads (system : Option String) :
    ∀ message ∈ systemMessages system,
      callIds message = [] ∧ answeredIds message = [] ∧ userTexts message = [] := by
  intro message member
  unfold systemMessages at member
  split at member
  · rw [List.mem_singleton.mp member]
    simp [callIds, answeredIds, userTexts, hasRole, Json.get?_ofFields]
  · cases member

/-- **Tool links survive the translation.** -/
theorem links_survive (session : Runtime.Session) (request : MessageRequest)
    (placed : ∀ message ∈ session.messages, Placed message)
    (converted : request.messages = convertMessages serde session.messages) :
    LinksSurvive session.messages (sentMessages (buildChatCompletionRequest serde request)) := by
  rw [sentMessages_build, converted, flatMap_convertMessages]
  have system := systemMessages_reads request.system
  have quiet {β : Type} {read : Json → List β}
      (none : ∀ message ∈ systemMessages request.system, read message = []) (rest : List Json) :
      (systemMessages request.system ++ rest).flatMap read = rest.flatMap read ∧
      places read 0 (systemMessages request.system ++ rest) =
        places read (0 + (systemMessages request.system).length) rest := by
    rw [List.flatMap_append, places_append, places_of_unmarked none]
    exact ⟨by rw [List.flatMap_eq_nil_iff.mpr none]; rfl, rfl⟩
  have calls := quiet fun message member => (system message member).1
  have answers := quiet fun message member => (system message member).2.1
  have texts := quiet fun message member => (system message member).2.2
  refine ⟨?_, ?_, ?_, ?_⟩
  · rw [(calls _).1, List.flatMap_assoc]
    exact List.flatMap_congr fun message member => (sentFor_reads serde (placed message member)).1
  · rw [(answers _).1, List.flatMap_assoc]
    exact List.flatMap_congr fun message member => (sentFor_reads serde (placed message member)).2.1
  · intro call answer i j id called answered before
    rw [(calls _).2, (answers _).2]
    exact places_ordered (fun message member => (sentFor_reads serde (placed message member)).1)
      (fun message member => (sentFor_reads serde (placed message member)).2.1) _ called answered
      before
  · rw [(texts _).1, List.flatMap_assoc]
    exact List.flatMap_congr fun message member => (sentFor_reads serde (placed message member)).2.2

/-- `serde_json` on the one value of the session below. -/
def emptyInput : SerdeJson where
  fromStr text :=
    if text = "\x7b\x7d" then .ok (.object []) else .error "expected value at line 1 column 1"
  toText _ := "\x7b\x7d"

def listed : Runtime.Session where
  messages := [.userText "list the files",
    .assistantWithUsage [.text "", .toolUse "call-1" "bash" "\x7b\x7d"] none,
    .toolResult "call-1" "bash" "notes.txt" false]

theorem links_survive_listed :
    LinksSurvive listed.messages (sentMessages (buildChatCompletionRequest emptyInput
      { model := "gpt-4o", maxTokens := 1024, messages := convertMessages emptyInput listed.messages,
        system := none, tools := none, toolChoice := none, stream := true })) := by
  refine links_survive emptyInput listed _ ?_ rfl
  simp only [listed, ConversationMessage.userText, ConversationMessage.assistantWithUsage,
    ConversationMessage.toolResult, List.forall_mem_cons]
  refine ⟨⟨?_, ?_⟩, ⟨?_, ?_⟩, ⟨?_, ?_⟩, List.forall_mem_nil _⟩ <;> simp [callId, answerId]

end Openyak.Tools
