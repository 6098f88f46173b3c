/-
# Runtime.SessionJson -- the two codecs of a session

`toJson` and `fromJson` are written by hand, for the session files; `serialize` and
`deserialize` are what `serde` derives from the types, for the server's rows and answers.
An absent value is left out by the first; of the second it is written as null, but for
the telemetry.
-/
import Openyak.Runtime.Session
import Openyak.Runtime.JsonRoundTrip

namespace Openyak.Runtime

open Openyak.Theory

set_option autoImplicit false

inductive SessionError where
  | json (error : JsonError)
  | format (message : String)
  deriving DecidableEq, Repr

abbrev JsonObject := JsonEntries Int64 none

/-- A `BTreeMap` with the fields inserted in the order given. -/
def objectOf (fields : List (String × JsonValue)) : JsonValue := .object (.ofMembers fields)

/-- `i64::from`. -/
def i64From (value : UInt32) : Int64 := Int64.ofInt value.toNat

/-! ## To JSON -/

def usageToJson (usage : TokenUsage) : JsonValue :=
  objectOf [("input_tokens", .number (i64From usage.inputTokens)),
    ("output_tokens", .number (i64From usage.outputTokens)),
    ("cache_creation_input_tokens", .number (i64From usage.cacheCreationInputTokens)),
    ("cache_read_input_tokens", .number (i64From usage.cacheReadInputTokens))]

def SessionAccountingStatus.asStr : SessionAccountingStatus → String
  | .complete => "complete"
  | .partialLegacyCompaction => "partial_legacy_compaction"

def telemetryToJson (telemetry : SessionTelemetry) : JsonValue :=
  objectOf [("compacted_usage", usageToJson telemetry.compactedUsage),
    ("compacted_turns", .number (i64From telemetry.compactedTurns)),
    ("accounting_status", .string telemetry.accountingStatus.asStr)]

def MessageRole.asStr : MessageRole → String
  | .system => "system"
  | .user => "user"
  | .assistant => "assistant"
  | .tool => "tool"

def ContentBlock.toJson : ContentBlock → JsonValue
  | .text content => objectOf [("type", .string "text"), ("text", .string content)]
  | .toolUse id name input =>
      objectOf [("type", .string "tool_use"), ("id", .string id), ("name", .string name),
        ("input", .string input)]
  | .toolResult toolUseId toolName output isError =>
      objectOf [("type", .string "tool_result"), ("tool_use_id", .string toolUseId),
        ("tool_name", .string toolName), ("output", .string output), ("is_error", .bool isError)]
  | .userInputRequest requestId prompt options allowFreeform =>
      objectOf [("type", .string "user_input_request"), ("request_id", .string requestId),
        ("prompt", .string prompt), ("options", .array (options.map .string)),
        ("allow_freeform", .bool allowFreeform)]
  | .userInputResponse requestId content selectedOption =>
      objectOf ([("type", .string "user_input_response"), ("request_id", .string requestId),
        ("content", .string content)] ++
          selectedOption.toList.map fun option => ("selected_option", .string option))

def ConversationMessage.toJson (message : ConversationMessage) : JsonValue :=
  objectOf ([("role", .string message.role.asStr),
    ("blocks", .array (message.blocks.map ContentBlock.toJson))] ++
      message.usage.toList.map fun usage => ("usage", usageToJson usage))

def Session.toJson (session : Session) : JsonValue :=
  objectOf ([("version", .number (i64From session.version)),
    ("messages", .array (session.messages.map ConversationMessage.toJson))] ++
      session.telemetry.toList.map fun telemetry => ("telemetry", telemetryToJson telemetry))

/-! ## From JSON -/

/-- `ok_or_else`. -/
def orFormat {α : Type} (message : String) : Option α → Except SessionError α
  | some value => .ok value
  | none => .error (.format message)

/-- `u32::try_from`. -/
def u32TryFrom (value : Int64) : Option UInt32 :=
  if 0 ≤ value.toInt ∧ value.toInt < 2 ^ 32 then some (UInt32.ofNat value.toInt.toNat) else none

def requiredString (object : JsonObject) (key : String) : Except SessionError String :=
  orFormat ("missing " ++ key) ((object.get? key).bind asStr)

def requiredU32 (object : JsonObject) (key : String) : Except SessionError UInt32 := do
  let value ← orFormat ("missing " ++ key) ((object.get? key).bind asI64)
  orFormat (key ++ " out of range") (u32TryFrom value)

def requiredBool (object : JsonObject) (key : String) : Except SessionError Bool :=
  orFormat ("missing " ++ key) ((object.get? key).bind asBool)

def optionalString (object : JsonObject) (key : String) : Except SessionError (Option String) :=
  match object.get? key with
  | some value => (orFormat ("invalid " ++ key) (asStr value)).map some
  | none => .ok none

def requiredStringArray (object : JsonObject) (key : String) :
    Except SessionError (List String) := do
  let values ← orFormat ("missing " ++ key) ((object.get? key).bind asArray)
  values.mapM fun value => orFormat ("invalid " ++ key ++ " item") (asStr value)

/-- `.map(decode).transpose()?`. -/
def decodeIfThere {α : Type} (decode : JsonValue → Except SessionError α) :
    Option JsonValue → Except SessionError (Option α)
  | some value => (decode value).map some
  | none => .ok none

def usageFromJson (value : JsonValue) : Except SessionError TokenUsage := do
  let object ← orFormat "usage must be an object" (asObject value)
  return {
    inputTokens := ← requiredU32 object "input_tokens"
    outputTokens := ← requiredU32 object "output_tokens"
    cacheCreationInputTokens := ← requiredU32 object "cache_creation_input_tokens"
    cacheReadInputTokens := ← requiredU32 object "cache_read_input_tokens" }

def accountingStatusFromStr : String → Except SessionError SessionAccountingStatus
  | "complete" => .ok .complete
  | "partial_legacy_compaction" => .ok .partialLegacyCompaction
  | other => .error (.format ("unsupported accounting_status: " ++ other))

def telemetryFromJson (value : JsonValue) : Except SessionError SessionTelemetry := do
  let object ← orFormat "telemetry must be an object" (asObject value)
  let accountingStatus ←
    accountingStatusFromStr (((object.get? "accounting_status").bind asStr).getD "complete")
  let compactedUsage ← decodeIfThere usageFromJson (object.get? "compacted_usage")
  let compactedTurns ←
    decodeIfThere (fun _ => requiredU32 object "compacted_turns") (object.get? "compacted_turns")
  return ⟨compactedUsage.getD {}, compactedTurns.getD 0, accountingStatus⟩

def ContentBlock.fromJson (value : JsonValue) : Except SessionError ContentBlock := do
  let object ← orFormat "block must be an object" (asObject value)
  match ← orFormat "missing block type" ((object.get? "type").bind asStr) with
  | "text" => return .text (← requiredString object "text")
  | "tool_use" =>
      return .toolUse (← requiredString object "id") (← requiredString object "name")
        (← requiredString object "input")
  | "tool_result" =>
      return .toolResult (← requiredString object "tool_use_id")
        (← requiredString object "tool_name") (← requiredString object "output")
        (← requiredBool object "is_error")
  | "user_input_request" =>
      return .userInputRequest (← requiredString object "request_id")
        (← requiredString object "prompt") (← requiredStringArray object "options")
        (← requiredBool object "allow_freeform")
  | "user_input_response" =>
      return .userInputResponse (← requiredString object "request_id")
        (← requiredString object "content") (← optionalString object "selected_option")
  | other => throw (.format ("unsupported block type: " ++ other))

def roleFromStr : String → Except SessionError MessageRole
  | "system" => .ok .system
  | "user" => .ok .user
  | "assistant" => .ok .assistant
  | "tool" => .ok .tool
  | other => .error (.format ("unsupported message role: " ++ other))

def ConversationMessage.fromJson (value : JsonValue) :
    Except SessionError ConversationMessage := do
  let object ← orFormat "message must be an object" (asObject value)
  let role ← roleFromStr (← orFormat "missing role" ((object.get? "role").bind asStr))
  let values ← orFormat "missing blocks" ((object.get? "blocks").bind asArray)
  let blocks ← values.mapM ContentBlock.fromJson
  let usage ← decodeIfThere usageFromJson (object.get? "usage")
  return ⟨role, blocks, usage⟩

def Session.fromJson (value : JsonValue) : Except SessionError Session := do
  let object ← orFormat "session must be an object" (asObject value)
  let version ← orFormat "missing version" ((object.get? "version").bind asI64)
  let version ← orFormat "version out of range" (u32TryFrom version)
  let values ← orFormat "missing messages" ((object.get? "messages").bind asArray)
  let messages ← values.mapM ConversationMessage.fromJson
  let telemetry ← decodeIfThere telemetryFromJson (object.get? "telemetry")
  return ⟨version, messages, telemetry⟩

/-- `Session::from_json(&JsonValue::parse(text)?)`, as `load_from_path` does. -/
def Session.fromText (text : List Char) : Except SessionError Session := do
  let value ← (parse text).mapError SessionError.json
  Session.fromJson value

/-- The text that `save_to_path` writes. -/
def Session.toText (session : Session) : List Char := render session.toJson

/-! ## What serde derives -/

/-- The block with its tag; an option is null when there is none. -/
def ContentBlock.serialize : ContentBlock → JsonValue
  | .userInputResponse requestId content selectedOption =>
      objectOf [("type", .string "user_input_response"), ("request_id", .string requestId),
        ("content", .string content), ("selected_option", (selectedOption.map .string).getD .null)]
  | block => block.toJson

def ConversationMessage.serialize (message : ConversationMessage) : JsonValue :=
  objectOf [("role", .string message.role.asStr),
    ("blocks", .array (message.blocks.map ContentBlock.serialize)),
    ("usage", (message.usage.map usageToJson).getD .null)]

/-- `skip_serializing_if` leaves the telemetry out when there is none. -/
def Session.serialize (session : Session) : JsonValue :=
  objectOf ([("version", .number (i64From session.version)),
    ("messages", .array (session.messages.map ConversationMessage.serialize))] ++
      session.telemetry.toList.map fun telemetry => ("telemetry", telemetryToJson telemetry))

/-- A field that has to be there. -/
def field {α : Type} (object : JsonObject) (key : String) (decode : JsonValue → Option α) :
    Option α := (object.get? key).bind decode

/-- A field of an `Option` type: absent and null are both none. -/
def optionField {α : Type} (object : JsonObject) (key : String) (decode : JsonValue → Option α) :
    Option (Option α) :=
  match object.get? key with
  | none | some .null => some none
  | some value => (decode value).map some

def decodeU32 (value : JsonValue) : Option UInt32 := (asI64 value).bind u32TryFrom

def decodeList {α : Type} (decode : JsonValue → Option α) (value : JsonValue) :
    Option (List α) := (asArray value).bind fun values => values.mapM decode

def decodeUsage (value : JsonValue) : Option TokenUsage := do
  let object ← asObject value
  return {
    inputTokens := ← field object "input_tokens" decodeU32
    outputTokens := ← field object "output_tokens" decodeU32
    cacheCreationInputTokens := ← field object "cache_creation_input_tokens" decodeU32
    cacheReadInputTokens := ← field object "cache_read_input_tokens" decodeU32 }

def decodeStatus (value : JsonValue) : Option SessionAccountingStatus := do
  match ← asStr value with
  | "complete" => some .complete
  | "partial_legacy_compaction" => some .partialLegacyCompaction
  | _ => none

/-- The status may be absent, by its own `default`. -/
def decodeTelemetry (value : JsonValue) : Option SessionTelemetry := do
  let object ← asObject value
  let compactedUsage ← field object "compacted_usage" decodeUsage
  let compactedTurns ← field object "compacted_turns" decodeU32
  let accountingStatus ←
    match object.get? "accounting_status" with
    | none => some .complete
    | some value => decodeStatus value
  return ⟨compactedUsage, compactedTurns, accountingStatus⟩

def ContentBlock.deserialize (value : JsonValue) : Option ContentBlock := do
  let object ← asObject value
  match ← field object "type" asStr with
  | "text" => return .text (← field object "text" asStr)
  | "tool_use" =>
      return .toolUse (← field object "id" asStr) (← field object "name" asStr)
        (← field object "input" asStr)
  | "tool_result" =>
      return .toolResult (← field object "tool_use_id" asStr) (← field object "tool_name" asStr)
        (← field object "output" asStr) (← field object "is_error" asBool)
  | "user_input_request" =>
      return .userInputRequest (← field object "request_id" asStr) (← field object "prompt" asStr)
        (← field object "options" (decodeList asStr)) (← field object "allow_freeform" asBool)
  | "user_input_response" =>
      return .userInputResponse (← field object "request_id" asStr)
        (← field object "content" asStr) (← optionField object "selected_option" asStr)
  | _ => none

def decodeRole (value : JsonValue) : Option MessageRole := do
  match ← asStr value with
  | "system" => some .system
  | "user" => some .user
  | "assistant" => some .assistant
  | "tool" => some .tool
  | _ => none

def ConversationMessage.deserialize (value : JsonValue) : Option ConversationMessage := do
  let object ← asObject value
  return ⟨← field object "role" decodeRole,
    ← field object "blocks" (decodeList ContentBlock.deserialize),
    ← optionField object "usage" decodeUsage⟩

def Session.deserialize (value : JsonValue) : Option Session := do
  let object ← asObject value
  return ⟨← field object "version" decodeU32,
    ← field object "messages" (decodeList ConversationMessage.deserialize),
    ← optionField object "telemetry" decodeTelemetry⟩

end Openyak.Runtime
