/-
# Sdk.PythonModels -- the values of the Python SDK, and how it reads them

The data classes of `_models.py` and the functions that make them of what `json.loads`
gave.  A reader checks the fields it models in the order of its arguments, names the first
one that does not fit, and passes over fields it does not know.

Python's `repr` of a string stands in the texts of some errors; it is a parameter.
-/
import Openyak.Theory.PythonValues

namespace Openyak.Sdk.Python

open Openyak.Theory
open Openyak.Theory.PyValue (getItem)

set_option autoImplicit false

/-! ## Data classes -/

structure TokenUsage where
  inputTokens : Int
  outputTokens : Int
  cacheCreationInputTokens : Int
  cacheReadInputTokens : Int
  deriving DecidableEq, Repr

inductive ContentBlock where
  | text (text : String)
  | toolUse (id name input : String)
  | toolResult (toolUseId toolName output : String) (isError : Bool)
  | userInputRequest (requestId prompt : String) (options : List String) (allowFreeform : Bool)
  | userInputResponse (requestId content : String) (selectedOption : Option String)
  deriving DecidableEq, Repr

structure ConversationMessage where
  role : String
  blocks : List ContentBlock
  usage : Option TokenUsage
  deriving DecidableEq, Repr

structure SessionTelemetry where
  compactedUsage : TokenUsage
  compactedTurns : Int
  accountingStatus : Option String
  deriving DecidableEq, Repr

structure SessionSnapshot where
  version : Int
  messages : List ConversationMessage
  telemetry : Option SessionTelemetry
  deriving DecidableEq, Repr

structure ThreadConfigSnapshot where
  cwd : String
  model : String
  permissionMode : String
  allowedTools : List String
  deriving DecidableEq, Repr

structure ThreadContractSnapshot where
  truthLayer : String
  operatorPlane : String
  persistence : String
  attachApi : String
  deriving DecidableEq, Repr

structure RecoveryGuidanceSnapshot where
  failureKind : String
  recoveryKind : String
  recommendedActions : List String
  deriving DecidableEq, Repr

structure LifecycleStateSnapshot where
  status : String
  failureKind : Option String
  recovery : Option RecoveryGuidanceSnapshot
  deriving DecidableEq, Repr

structure UserInputRequestPayload where
  requestId : String
  prompt : String
  options : List String
  allowFreeform : Bool
  deriving DecidableEq, Repr

structure ThreadStateSnapshot where
  status : String
  lifecycle : Option LifecycleStateSnapshot
  runId : Option String
  pendingUserInput : Option UserInputRequestPayload
  recoveryNote : Option String
  recovery : Option RecoveryGuidanceSnapshot
  deriving DecidableEq, Repr

structure ThreadSnapshot where
  protocolVersion : String
  contract : Option ThreadContractSnapshot
  threadId : String
  createdAt : Int
  updatedAt : Int
  state : ThreadStateSnapshot
  config : ThreadConfigSnapshot
  session : SessionSnapshot
  deriving DecidableEq, Repr

structure ThreadSummary where
  contract : Option ThreadContractSnapshot
  threadId : String
  createdAt : Int
  updatedAt : Int
  state : ThreadStateSnapshot
  messageCount : Int
  deriving DecidableEq, Repr

structure ListThreadsResponse where
  protocolVersion : String
  threads : List ThreadSummary
  deriving DecidableEq, Repr

structure TurnAcceptedResponse where
  protocolVersion : String
  contract : Option ThreadContractSnapshot
  threadId : String
  runId : String
  lifecycle : Option LifecycleStateSnapshot
  status : String
  deriving DecidableEq, Repr

structure UserInputAcceptedResponse where
  protocolVersion : String
  contract : Option ThreadContractSnapshot
  threadId : String
  runId : String
  requestId : String
  lifecycle : Option LifecycleStateSnapshot
  status : String
  deriving DecidableEq, Repr

structure RunStartedPayload where
  kind : String
  message : String
  status : String
  lifecycle : Option LifecycleStateSnapshot
  deriving DecidableEq, Repr

structure AssistantToolUsePayload where
  id : String
  name : String
  input : PyValue
  deriving Repr

structure AssistantToolResultPayload where
  toolUseId : String
  toolName : String
  output : String
  isError : Bool
  deriving DecidableEq, Repr

structure UserInputSubmittedPayload where
  requestId : String
  content : String
  selectedOption : Option String
  deriving DecidableEq, Repr

structure RunCompletedPayload where
  iterations : Int
  assistantMessageCount : Int
  toolResultCount : Int
  cumulativeUsage : TokenUsage
  status : String
  lifecycle : Option LifecycleStateSnapshot
  deriving DecidableEq, Repr

structure RunWaitingUserInputPayload where
  requestId : String
  prompt : String
  options : List String
  allowFreeform : Bool
  status : String
  lifecycle : Option LifecycleStateSnapshot
  deriving DecidableEq, Repr

structure RunFailedPayload where
  code : String
  message : String
  status : String
  lifecycle : Option LifecycleStateSnapshot
  deriving DecidableEq, Repr

/-- The payload of a `ThreadEvent`; `assistantMessageStop` has all the values there are. -/
inductive EventPayload where
  | threadSnapshot (snapshot : ThreadSnapshot)
  | runStarted (payload : RunStartedPayload)
  | assistantTextDelta (text : String)
  | assistantToolUse (payload : AssistantToolUsePayload)
  | assistantToolResult (payload : AssistantToolResultPayload)
  | assistantRequestUserInput (payload : UserInputRequestPayload)
  | assistantUsage (usage : TokenUsage)
  | assistantMessageStop (values : List (String × PyValue))
  | userInputSubmitted (payload : UserInputSubmittedPayload)
  | runCompleted (payload : RunCompletedPayload)
  | runWaitingUserInput (payload : RunWaitingUserInputPayload)
  | runFailed (payload : RunFailedPayload)
  | threadResyncRequired (skipped : Int) (snapshot : ThreadSnapshot)
  deriving Repr

structure ThreadEvent where
  protocolVersion : String
  threadId : String
  sequence : Int
  timestampMs : Int
  type : String
  payload : EventPayload
  runId : Option String
  deriving Repr

/-! ## Fields -/

/-- `OpenyakCompatibilityError` and `OpenyakProtocolError`. -/
inductive ModelError where
  | compatibility (message expected : String) (received : Option String)
  | protocol (message : String)
  deriving DecidableEq, Repr

abbrev Record := List (String × PyValue)

def asMapping (value : PyValue) (context : String) : Except ModelError Record :=
  match value with
  | .dict record => .ok record
  | _ => .error (.protocol (context ++ " must be a JSON object"))

def requireList (record : Record) (field context : String) : Except ModelError (List PyValue) :=
  match getItem record field with
  | .list values => .ok values
  | _ => .error (.protocol (context ++ " is missing list field " ++ field))

/-- The strings of a list of strings. -/
def asStrings : List PyValue → Option (List String)
  | [] => some []
  | .str value :: values => (asStrings values).map (value :: ·)
  | _ :: _ => none

def requireListOfStr (record : Record) (field context : String) :
    Except ModelError (List String) := do
  let values ← requireList record field context
  match asStrings values with
  | some strings => .ok strings
  | none => .error (.protocol (context ++ "." ++ field ++ " must be a list of strings"))

def requireStr (record : Record) (field context : String) : Except ModelError String :=
  match getItem record field with
  | .str value => .ok value
  | _ => .error (.protocol (context ++ " is missing string field " ++ field))

def optionalStr (record : Record) (field context : String) : Except ModelError (Option String) :=
  match getItem record field with
  | .none => .ok none
  | .str value => .ok (some value)
  | _ => .error (.protocol (context ++ "." ++ field ++ " must be a string when present"))

def requireBool (record : Record) (field context : String) : Except ModelError Bool :=
  match getItem record field with
  | .bool value => .ok value
  | _ => .error (.protocol (context ++ " is missing boolean field " ++ field))

def requireInt (record : Record) (field context : String) : Except ModelError Int :=
  match getItem record field with
  | .int value => .ok value
  | _ => .error (.protocol (context ++ " is missing integer field " ++ field))

/-- `parse(value, context) if value is not None else None`. -/
def ifPresent {α : Type} (parse : PyValue → String → Except ModelError α) (value : PyValue)
    (context : String) : Except ModelError (Option α) :=
  match value with
  | .none => .ok none
  | value => some <$> parse value context

/-- `[parse(item, f"{context}[{index}]") for index, item in enumerate(items)]`. -/
def parseItems {α : Type} (parse : PyValue → String → Except ModelError α) (context : String) :
    (index : Nat) → List PyValue → Except ModelError (List α)
  | _, [] => .ok []
  | index, item :: items => do
      let first ← parse item (context ++ "[" ++ toString index ++ "]")
      let rest ← parseItems parse context (index + 1) items
      return first :: rest

def protocolVersionFromMapping (record : Record) : Option String :=
  match getItem record "protocol_version" with
  | .str value => some value
  | _ => none

section Parsers

variable (repr : String → String)

def assertSupportedProtocolVersion (received : Option String) (context : String) :
    Except ModelError String :=
  if received = some "v1" then .ok "v1"
  else .error (.compatibility
    (context ++ " uses unsupported protocol_version " ++ (received.map repr).getD "None" ++
      "; expected v1") "v1" received)

def parseProtocolVersion (record : Record) (context : String) : Except ModelError String :=
  assertSupportedProtocolVersion repr (protocolVersionFromMapping record) context

def requireMessageRole (record : Record) (context : String) : Except ModelError String := do
  let value ← requireStr record "role" context
  if value ∈ ["system", "user", "assistant", "tool"] then return value
  else .error (.protocol (context ++ ".role has unsupported value " ++ repr value))

/-- `_require_accepted` and `_require_running`. -/
def requireStatus (expected : String) (record : Record) (context : String) :
    Except ModelError String := do
  let value ← requireStr record "status" context
  if value = expected then return value
  else .error (.protocol
    (context ++ ".status expected '" ++ expected ++ "', got " ++ repr value))

/-- `_require_completed`, `_require_awaiting_user_input` and `_require_failed`: a status that
is not there, or empty, is the expected one. -/
def requireStatusOrDefault (expected : String) (record : Record) (context : String) :
    Except ModelError String := do
  let found ← optionalStr record "status" context
  let value := match found with
    | some "" | none => expected
    | some value => value
  if value = expected then return value
  else .error (.protocol
    (context ++ ".status expected '" ++ expected ++ "', got " ++ repr value))

/-! ## Sessions -/

def parseTokenUsage (value : PyValue) (context : String) : Except ModelError TokenUsage := do
  let record ← asMapping value context
  let inputTokens ← requireInt record "input_tokens" context
  let outputTokens ← requireInt record "output_tokens" context
  let cacheCreationInputTokens ← requireInt record "cache_creation_input_tokens" context
  let cacheReadInputTokens ← requireInt record "cache_read_input_tokens" context
  return ⟨inputTokens, outputTokens, cacheCreationInputTokens, cacheReadInputTokens⟩

def parseContentBlock (value : PyValue) (context : String) : Except ModelError ContentBlock := do
  let record ← asMapping value context
  let blockType ← requireStr record "type" context
  if blockType = "text" then
    let text ← requireStr record "text" context
    return .text text
  if blockType = "tool_use" then
    let id ← requireStr record "id" context
    let name ← requireStr record "name" context
    let input ← requireStr record "input" context
    return .toolUse id name input
  if blockType = "tool_result" then
    let toolUseId ← requireStr record "tool_use_id" context
    let toolName ← requireStr record "tool_name" context
    let output ← requireStr record "output" context
    let isError ← requireBool record "is_error" context
    return .toolResult toolUseId toolName output isError
  if blockType = "user_input_request" then
    let requestId ← requireStr record "request_id" context
    let prompt ← requireStr record "prompt" context
    let options ← requireListOfStr record "options" context
    let allowFreeform ← requireBool record "allow_freeform" context
    return .userInputRequest requestId prompt options allowFreeform
  if blockType = "user_input_response" then
    let requestId ← requireStr record "request_id" context
    let content ← requireStr record "content" context
    let selectedOption ← optionalStr record "selected_option" context
    return .userInputResponse requestId content selectedOption
  .error (.protocol (context ++ " has unsupported content block type " ++ repr blockType))

def parseConversationMessage (value : PyValue) (context : String) :
    Except ModelError ConversationMessage := do
  let record ← asMapping value context
  let blocks ← requireList record "blocks" context
  let role ← requireMessageRole repr record context
  let blocks ← parseItems (parseContentBlock repr) (context ++ ".blocks") 0 blocks
  let usage ← ifPresent parseTokenUsage (getItem record "usage") (context ++ ".usage")
  return ⟨role, blocks, usage⟩

def parseSessionTelemetry (value : PyValue) (context : String) :
    Except ModelError SessionTelemetry := do
  let record ← asMapping value context
  let accountingStatus ← optionalStr record "accounting_status" context
  match accountingStatus with
  | some status =>
      if status ∉ ["complete", "partial_legacy_compaction"] then
        .error (.protocol (context ++ " has unsupported accounting_status " ++ repr status))
  | none => pure ()
  let compactedUsage ←
    parseTokenUsage (getItem record "compacted_usage") (context ++ ".compacted_usage")
  let compactedTurns ← requireInt record "compacted_turns" context
  return ⟨compactedUsage, compactedTurns, accountingStatus⟩

def parseSessionSnapshot (value : PyValue) (context : String) :
    Except ModelError SessionSnapshot := do
  let record ← asMapping value context
  let messages ← requireList record "messages" context
  let version ← requireInt record "version" context
  let messages ← parseItems (parseConversationMessage repr) (context ++ ".messages") 0 messages
  let telemetry ←
    ifPresent (parseSessionTelemetry repr) (getItem record "telemetry") (context ++ ".telemetry")
  return ⟨version, messages, telemetry⟩

/-! ## Snapshots -/

def parseRecoveryGuidanceSnapshot (value : PyValue) (context : String) :
    Except ModelError RecoveryGuidanceSnapshot := do
  let record ← asMapping value context
  let failureKind ← requireStr record "failure_kind" context
  let recoveryKind ← requireStr record "recovery_kind" context
  let recommendedActions ← requireListOfStr record "recommended_actions" context
  return ⟨failureKind, recoveryKind, recommendedActions⟩

def parseLifecycleStateSnapshot (value : PyValue) (context : String) :
    Except ModelError LifecycleStateSnapshot := do
  let record ← asMapping value context
  let status ← requireStr record "status" context
  let failureKind ← optionalStr record "failure_kind" context
  let recovery ←
    ifPresent parseRecoveryGuidanceSnapshot (getItem record "recovery") (context ++ ".recovery")
  return ⟨status, failureKind, recovery⟩

def parseOptionalLifecycle (value : PyValue) (context : String) :
    Except ModelError (Option LifecycleStateSnapshot) :=
  ifPresent parseLifecycleStateSnapshot value context

def parseThreadContractSnapshot (value : PyValue) (context : String) :
    Except ModelError ThreadContractSnapshot := do
  let record ← asMapping value context
  let truthLayer ← requireStr record "truth_layer" context
  let operatorPlane ← requireStr record "operator_plane" context
  let persistence ← requireStr record "persistence" context
  let attachApi ← requireStr record "attach_api" context
  return ⟨truthLayer, operatorPlane, persistence, attachApi⟩

def parseThreadConfigSnapshot (value : PyValue) (context : String) :
    Except ModelError ThreadConfigSnapshot := do
  let record ← asMapping value context
  let permissionMode ← requireStr record "permission_mode" context
  if permissionMode ∉ ["read-only", "workspace-write", "danger-full-access"] then
    .error (.protocol (context ++ " has unsupported permission_mode " ++ repr permissionMode))
  let cwd ← requireStr record "cwd" context
  let model ← requireStr record "model" context
  let allowedTools ← requireListOfStr record "allowed_tools" context
  return ⟨cwd, model, permissionMode, allowedTools⟩

def parseUserInputRequestPayload (value : PyValue) (context : String) :
    Except ModelError UserInputRequestPayload := do
  let record ← asMapping value context
  let requestId ← requireStr record "request_id" context
  let prompt ← requireStr record "prompt" context
  let options ← requireListOfStr record "options" context
  let allowFreeform ← requireBool record "allow_freeform" context
  return ⟨requestId, prompt, options, allowFreeform⟩

def parseThreadStateSnapshot (value : PyValue) (context : String) :
    Except ModelError ThreadStateSnapshot := do
  let record ← asMapping value context
  let status ← requireStr record "status" context
  if status ∉ ["idle", "running", "awaiting_user_input", "interrupted"] then
    .error (.protocol (context ++ " has unsupported status " ++ repr status))
  let lifecycle ← parseOptionalLifecycle (getItem record "lifecycle") (context ++ ".lifecycle")
  let runId ← optionalStr record "run_id" context
  let pendingUserInput ← ifPresent parseUserInputRequestPayload
    (getItem record "pending_user_input") (context ++ ".pending_user_input")
  let recoveryNote ← optionalStr record "recovery_note" context
  let recovery ←
    ifPresent parseRecoveryGuidanceSnapshot (getItem record "recovery") (context ++ ".recovery")
  return ⟨status, lifecycle, runId, pendingUserInput, recoveryNote, recovery⟩

def parseThreadSnapshot (value : PyValue) (context : String) :
    Except ModelError ThreadSnapshot := do
  let record ← asMapping value context
  let protocolVersion ← parseProtocolVersion repr record context
  let contract ← ifPresent parseThreadContractSnapshot (getItem record "contract")
    (context ++ ".contract")
  let threadId ← requireStr record "thread_id" context
  let createdAt ← requireInt record "created_at" context
  let updatedAt ← requireInt record "updated_at" context
  let state ← parseThreadStateSnapshot repr (getItem record "state") (context ++ ".state")
  let config ← parseThreadConfigSnapshot repr (getItem record "config") (context ++ ".config")
  let session ← parseSessionSnapshot repr (getItem record "session") (context ++ ".session")
  return ⟨protocolVersion, contract, threadId, createdAt, updatedAt, state, config, session⟩

/-! ## Bodies -/

def parseThreadSummary (value : PyValue) (context : String) :
    Except ModelError ThreadSummary := do
  let record ← asMapping value context
  let contract ← ifPresent parseThreadContractSnapshot (getItem record "contract")
    (context ++ ".contract")
  let threadId ← requireStr record "thread_id" context
  let createdAt ← requireInt record "created_at" context
  let updatedAt ← requireInt record "updated_at" context
  let state ← parseThreadStateSnapshot repr (getItem record "state") (context ++ ".state")
  let messageCount ← requireInt record "message_count" context
  return ⟨contract, threadId, createdAt, updatedAt, state, messageCount⟩

def parseListThreadsResponse (value : PyValue) (context : String) :
    Except ModelError ListThreadsResponse := do
  let record ← asMapping value context
  let threads ← requireList record "threads" context
  let protocolVersion ← parseProtocolVersion repr record context
  let threads ← parseItems (parseThreadSummary repr) (context ++ ".threads") 0 threads
  return ⟨protocolVersion, threads⟩

def parseTurnAcceptedResponse (value : PyValue) (context : String) :
    Except ModelError TurnAcceptedResponse := do
  let record ← asMapping value context
  let protocolVersion ← parseProtocolVersion repr record context
  let contract ← ifPresent parseThreadContractSnapshot (getItem record "contract")
    (context ++ ".contract")
  let threadId ← requireStr record "thread_id" context
  let runId ← requireStr record "run_id" context
  let lifecycle ← parseOptionalLifecycle (getItem record "lifecycle") (context ++ ".lifecycle")
  let status ← requireStatus repr "accepted" record context
  return ⟨protocolVersion, contract, threadId, runId, lifecycle, status⟩

def parseUserInputAcceptedResponse (value : PyValue) (context : String) :
    Except ModelError UserInputAcceptedResponse := do
  let record ← asMapping value context
  let protocolVersion ← parseProtocolVersion repr record context
  let contract ← ifPresent parseThreadContractSnapshot (getItem record "contract")
    (context ++ ".contract")
  let threadId ← requireStr record "thread_id" context
  let runId ← requireStr record "run_id" context
  let requestId ← requireStr record "request_id" context
  let lifecycle ← parseOptionalLifecycle (getItem record "lifecycle") (context ++ ".lifecycle")
  let status ← requireStatus repr "accepted" record context
  return ⟨protocolVersion, contract, threadId, runId, requestId, lifecycle, status⟩

/-! ## Events -/

def parseRunStarted (value : PyValue) (context : String) : Except ModelError RunStartedPayload := do
  let record ← asMapping value context
  let kind ← requireStr record "kind" context
  let message ← requireStr record "message" context
  let status ← requireStatus repr "running" record context
  let lifecycle ← parseOptionalLifecycle (getItem record "lifecycle") (context ++ ".lifecycle")
  return ⟨kind, message, status, lifecycle⟩

def parseAssistantToolUse (value : PyValue) (context : String) :
    Except ModelError AssistantToolUsePayload := do
  let record ← asMapping value context
  let id ← requireStr record "id" context
  let name ← requireStr record "name" context
  return ⟨id, name, getItem record "input"⟩

def parseAssistantToolResult (value : PyValue) (context : String) :
    Except ModelError AssistantToolResultPayload := do
  let record ← asMapping value context
  let toolUseId ← requireStr record "tool_use_id" context
  let toolName ← requireStr record "tool_name" context
  let output ← requireStr record "output" context
  let isError ← requireBool record "is_error" context
  return ⟨toolUseId, toolName, output, isError⟩

def parseUserInputSubmitted (value : PyValue) (context : String) :
    Except ModelError UserInputSubmittedPayload := do
  let record ← asMapping value context
  let requestId ← requireStr record "request_id" context
  let content ← requireStr record "content" context
  let selectedOption ← optionalStr record "selected_option" context
  return ⟨requestId, content, selectedOption⟩

def parseRunCompleted (value : PyValue) (context : String) :
    Except ModelError RunCompletedPayload := do
  let record ← asMapping value context
  let iterations ← requireInt record "iterations" context
  let assistantMessageCount ← requireInt record "assistant_message_count" context
  let toolResultCount ← requireInt record "tool_result_count" context
  let cumulativeUsage ←
    parseTokenUsage (getItem record "cumulative_usage") (context ++ ".cumulative_usage")
  let status ← requireStatusOrDefault repr "completed" record context
  let lifecycle ← parseOptionalLifecycle (getItem record "lifecycle") (context ++ ".lifecycle")
  return ⟨iterations, assistantMessageCount, toolResultCount, cumulativeUsage, status, lifecycle⟩

def parseRunWaitingUserInput (value : PyValue) (context : String) :
    Except ModelError RunWaitingUserInputPayload := do
  let record ← asMapping value context
  let requestId ← requireStr record "request_id" context
  let prompt ← requireStr record "prompt" context
  let options ← requireListOfStr record "options" context
  let allowFreeform ← requireBool record "allow_freeform" context
  let status ← requireStatusOrDefault repr "awaiting_user_input" record context
  let lifecycle ← parseOptionalLifecycle (getItem record "lifecycle") (context ++ ".lifecycle")
  return ⟨requestId, prompt, options, allowFreeform, status, lifecycle⟩

def parseRunFailed (value : PyValue) (context : String) : Except ModelError RunFailedPayload := do
  let record ← asMapping value context
  let code ← requireStr record "code" context
  let message ← requireStr record "message" context
  let status ← requireStatusOrDefault repr "failed" record context
  let lifecycle ← parseOptionalLifecycle (getItem record "lifecycle") (context ++ ".lifecycle")
  return ⟨code, message, status, lifecycle⟩

/-- The branches of `parse_thread_event`; `none` for a type it does not know. -/
def parseEventPayload (eventType : String) (value : PyValue) (context : String) :
    Option (Except ModelError EventPayload) :=
  match eventType with
  | "thread.snapshot" => some (.threadSnapshot <$> parseThreadSnapshot repr value context)
  | "run.started" => some (.runStarted <$> parseRunStarted repr value context)
  | "assistant.text.delta" => some do
      let record ← asMapping value context
      let text ← requireStr record "text" context
      return .assistantTextDelta text
  | "assistant.tool_use" => some (.assistantToolUse <$> parseAssistantToolUse value context)
  | "assistant.tool_result" =>
      some (.assistantToolResult <$> parseAssistantToolResult value context)
  | "assistant.request_user_input" =>
      some (.assistantRequestUserInput <$> parseUserInputRequestPayload value context)
  | "assistant.usage" => some (.assistantUsage <$> parseTokenUsage value context)
  | "assistant.message_stop" => some (.assistantMessageStop <$> asMapping value context)
  | "user_input.submitted" =>
      some (.userInputSubmitted <$> parseUserInputSubmitted value context)
  | "run.completed" => some (.runCompleted <$> parseRunCompleted repr value context)
  | "run.waiting_user_input" =>
      some (.runWaitingUserInput <$> parseRunWaitingUserInput repr value context)
  | "run.failed" => some (.runFailed <$> parseRunFailed repr value context)
  | "thread.resync_required" => some do
      let record ← asMapping value context
      let skipped ← requireInt record "skipped" context
      let snapshot ←
        parseThreadSnapshot repr (getItem record "snapshot") (context ++ ".snapshot")
      return .threadResyncRequired skipped snapshot
  | _ => none

def parseThreadEvent (value : PyValue) (context : String) : Except ModelError ThreadEvent := do
  let record ← asMapping value context
  let eventType ← requireStr record "type" context
  let protocolVersion ← parseProtocolVersion repr record context
  let threadId ← requireStr record "thread_id" context
  let runId ← optionalStr record "run_id" context
  let sequence ← requireInt record "sequence" context
  let timestampMs ← requireInt record "timestamp_ms" context
  match parseEventPayload repr eventType (getItem record "payload") (context ++ ".payload") with
  | some parsed =>
      let payload ← parsed
      return ⟨protocolVersion, threadId, sequence, timestampMs, eventType, payload, runId⟩
  | none =>
      .error (.compatibility
        ("unsupported event type " ++ repr eventType ++ " for the current Python alpha") "v1"
        (protocolVersionFromMapping record))

end Parsers

end Openyak.Sdk.Python
