/-
# Api.OpenAiRequest -- a message request as an OpenAI-compatible payload

`buildChatCompletionRequest` translates each message on its own.  An assistant message
becomes one message, its texts run together and its tool uses in `tool_calls`; any other
message is taken apart, each text a user message and each tool result a tool message.  What a
role has no place for is dropped.

`serde_json` is a parameter: only its printing of a value is used.
-/
import Openyak.Theory.Json

namespace Openyak.Api

open Openyak.Theory

set_option autoImplicit false

inductive ToolResultContentBlock where
  | text (text : String)
  | json (value : Json)

inductive InputContentBlock where
  | text (text : String)
  | toolUse (id name : String) (input : Json)
  | toolResult (toolUseId : String) (content : List ToolResultContentBlock) (isError : Bool)

structure InputMessage where
  role : String
  content : List InputContentBlock

structure ToolDefinition where
  name : String
  description : Option String
  inputSchema : Json

inductive ToolChoice where
  | auto
  | any
  | tool (name : String)

structure MessageRequest where
  model : String
  maxTokens : UInt32
  messages : List InputMessage
  system : Option String
  tools : Option (List ToolDefinition)
  toolChoice : Option ToolChoice
  stream : Bool

/-- `json!` of an `Option<String>`. -/
def optionalText : Option String → Json
  | some text => .string text
  | none => .null

/-- `value[key] = …` on an object, the one kind of value it is used on here. -/
def setField (key : String) (value : Json) : Json → Json
  | .object fields => .object (Json.insertField key value fields)
  | other => other

theorem get?_setField_ne {key other : String} (differs : key ≠ other) (value payload : Json) :
    (setField key value payload).get? other = payload.get? other := by
  cases payload with
  | object fields => rw [setField, Json.get?_insertField, if_neg differs]
  | _ => rfl

variable (serde : SerdeJson)

def flattenToolResultContent (content : List ToolResultContentBlock) : String :=
  "\n".intercalate (content.map fun
    | .text text => text
    | .json value => serde.toText value)

/-- One entry of `tool_calls`. -/
def toolCall (id name : String) (input : Json) : Json :=
  Json.ofFields [("id", .string id), ("type", .string "function"),
    ("function", Json.ofFields [("name", .string name), ("arguments", .string (serde.toText input))])]

/-- The texts of an assistant message run together, and its tool calls. -/
def gatherBlock (gathered : String × List Json) : InputContentBlock → String × List Json
  | .text value => (gathered.1 ++ value, gathered.2)
  | .toolUse id name input => (gathered.1, gathered.2 ++ [toolCall serde id name input])
  | .toolResult .. => gathered

def assistantMessage (text : String) (toolCalls : List Json) : Json :=
  Json.ofFields [("role", .string "assistant"),
    ("content", optionalText (if text = "" then none else some text)),
    ("tool_calls", .array toolCalls)]

def translateBlock : InputContentBlock → Option Json
  | .text text => some (Json.ofFields [("role", .string "user"), ("content", .string text)])
  | .toolResult toolUseId content isError =>
      some (Json.ofFields [("role", .string "tool"), ("tool_call_id", .string toolUseId),
        ("content", .string (flattenToolResultContent serde content)), ("is_error", .bool isError)])
  | .toolUse .. => none

def translateMessage (message : InputMessage) : List Json :=
  if message.role = "assistant" then
    let (text, toolCalls) := message.content.foldl (gatherBlock serde) ("", [])
    if text = "" ∧ toolCalls = [] then [] else [assistantMessage text toolCalls]
  else message.content.filterMap (translateBlock serde)

def normalizeToolSchema (schema : Json) : Json :=
  if schema.get? "type" = some (.string "object") ∧ schema.get? "properties" = none then
    setField "properties" (.object []) schema
  else schema

def openaiToolDefinition (tool : ToolDefinition) : Json :=
  Json.ofFields [("type", .string "function"),
    ("function", Json.ofFields [("name", .string tool.name),
      ("description", optionalText tool.description),
      ("parameters", normalizeToolSchema tool.inputSchema)])]

def openaiToolChoice : ToolChoice → Json
  | .auto => .string "auto"
  | .any => .string "required"
  | .tool name => Json.ofFields [("type", .string "function"),
      ("function", Json.ofFields [("name", .string name)])]

def systemMessages (system : Option String) : List Json :=
  match system.filter (· ≠ "") with
  | some system => [Json.ofFields [("role", .string "system"), ("content", .string system)]]
  | none => []

def buildChatCompletionRequest (request : MessageRequest) : Json :=
  let messages := systemMessages request.system ++ request.messages.flatMap (translateMessage serde)
  let payload := Json.ofFields [("model", .string request.model),
    ("max_tokens", .number (.posInt request.maxTokens.toUInt64)), ("messages", .array messages),
    ("stream", .bool request.stream)]
  let payload := match request.tools with
    | some tools => setField "tools" (.array (tools.map openaiToolDefinition)) payload
    | none => payload
  match request.toolChoice with
  | some toolChoice => setField "tool_choice" (openaiToolChoice toolChoice) payload
  | none => payload

/-! ## Reading a payload -/

/-- The messages of a payload. -/
def sentMessages (payload : Json) : List Json :=
  match payload.get? "messages" with
  | some (.array messages) => messages
  | _ => []

def hasRole (role : String) (message : Json) : Bool := message.get? "role" = some (.string role)

def readId (call : Json) : Option String := (call.get? "id").bind Json.asStr?

/-- The ids of the tool calls that an assistant message holds. -/
def callIds (message : Json) : List String :=
  match message.get? "tool_calls" with
  | some (.array calls) =>
      if hasRole "assistant" message then calls.filterMap readId else []
  | _ => []

/-- The id of the call that a tool message answers. -/
def answeredIds (message : Json) : List String :=
  if hasRole "tool" message then ((message.get? "tool_call_id").bind Json.asStr?).toList else []

/-- The text of a user message. -/
def userTexts (message : Json) : List String :=
  if hasRole "user" message then ((message.get? "content").bind Json.asStr?).toList else []

theorem sentMessages_build (request : MessageRequest) :
    sentMessages (buildChatCompletionRequest serde request) =
      systemMessages request.system ++ request.messages.flatMap (translateMessage serde) := by
  have tools : "tools" ≠ "messages" := by decide
  have choice : "tool_choice" ≠ "messages" := by decide
  unfold sentMessages buildChatCompletionRequest
  cases request.tools <;> cases request.toolChoice <;>
    simp [get?_setField_ne tools, get?_setField_ne choice, Json.get?_ofFields]

/-! ## What a translated message holds -/

def usedId : InputContentBlock → Option String
  | .toolUse id _ _ => some id
  | .text _ | .toolResult .. => none

def resultId : InputContentBlock → Option String
  | .toolResult toolUseId _ _ => some toolUseId
  | .text _ | .toolUse .. => none

def plainText : InputContentBlock → Option String
  | .text text => some text
  | .toolUse .. | .toolResult .. => none

theorem readId_toolCall (id name : String) (input : Json) :
    readId (toolCall serde id name input) = some id := by
  simp [readId, toolCall, Json.get?_ofFields, Json.asStr?]

theorem gathered_ids (content : List InputContentBlock) (gathered : String × List Json) :
    (content.foldl (gatherBlock serde) gathered).2.filterMap readId =
      gathered.2.filterMap readId ++ content.filterMap usedId := by
  induction content generalizing gathered with
  | nil => simp
  | cons block content induction =>
      rw [List.foldl_cons, induction]
      cases block with
      | toolUse id name input => simp [gatherBlock, usedId, readId_toolCall]
      | text value => simp [gatherBlock, List.filterMap_cons, usedId]
      | toolResult toolUseId results isError => simp [gatherBlock, List.filterMap_cons, usedId]

theorem callIds_assistantMessage (text : String) (toolCalls : List Json) :
    callIds (assistantMessage text toolCalls) = toolCalls.filterMap readId := by
  simp [callIds, assistantMessage, hasRole, Json.get?_ofFields]

/-- The three readings of a message that is none of an assistant's. -/
theorem translateBlock_reads (block : InputContentBlock) :
    (translateBlock serde block).toList.flatMap callIds = [] ∧
      (translateBlock serde block).toList.flatMap answeredIds = (resultId block).toList ∧
      (translateBlock serde block).toList.flatMap userTexts = (plainText block).toList := by
  cases block <;>
    simp [translateBlock, resultId, plainText, callIds, answeredIds, userTexts, hasRole,
      Json.get?_ofFields, Json.asStr?]

theorem filterMap_flatMap {α β γ : Type} (f : α → Option β) (g : β → List γ) (items : List α) :
    (items.filterMap f).flatMap g = items.flatMap fun item => (f item).toList.flatMap g := by
  induction items with
  | nil => rfl
  | cons item items induction => cases found : f item <;> simp [found, induction]

theorem flatMap_toList {α β : Type} (f : α → Option β) (items : List α) :
    (items.flatMap fun item => (f item).toList) = items.filterMap f := by
  induction items with
  | nil => rfl
  | cons item items induction => cases found : f item <;> simp [found, induction]

/-- **A translated message keeps its ids and texts**, as far as its role has a place for them. -/
theorem translateMessage_reads (message : InputMessage) :
    (translateMessage serde message).flatMap callIds =
        (if message.role = "assistant" then message.content.filterMap usedId else []) ∧
      (translateMessage serde message).flatMap answeredIds =
        (if message.role = "assistant" then [] else message.content.filterMap resultId) ∧
      (translateMessage serde message).flatMap userTexts =
        (if message.role = "assistant" then [] else message.content.filterMap plainText) := by
  unfold translateMessage
  by_cases assistant : message.role = "assistant"
  · simp only [if_pos assistant]
    have ids := gathered_ids serde message.content ("", [])
    rw [List.filterMap_nil, List.nil_append] at ids
    rw [← ids]
    split
    · rename_i empty
      simp [empty.2]
    · refine ⟨?_, ?_, ?_⟩
      · rw [List.flatMap_singleton, callIds_assistantMessage]
      · simp [answeredIds, assistantMessage, hasRole, Json.get?_ofFields]
      · simp [userTexts, assistantMessage, hasRole, Json.get?_ofFields]
  · simp only [if_neg assistant, filterMap_flatMap]
    refine ⟨?_, ?_, ?_⟩
    · simp [translateBlock_reads]
    · simp only [translateBlock_reads, flatMap_toList]
    · simp only [translateBlock_reads, flatMap_toList]

end Openyak.Api
