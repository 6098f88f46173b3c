/-
# Server.Payloads -- what the server writes to its clients

The payloads and the bodies of the thread protocol, each with the fields it is declared
with, how it is made from a record, and how serde writes it.  A body and the envelope of an
event are written to a text as they are; the payload of an event is made a `Value` first.
-/
import Openyak.Server.Events
import Openyak.Runtime.Registries
import Openyak.Theory.PythonValues
import Openyak.Theory.Text

namespace Openyak.Server

open Openyak.Runtime
open Openyak.Theory

set_option autoImplicit false

def protocolVersion : String := "v1"

/-! ## Values -/

def strings (values : List String) : Json := .array (values.map .string)

def ofU32 (value : UInt32) : Json := .number (.posInt value.toUInt64)

def ofU64 (value : UInt64) : Json := .number (.posInt value)

/-- An `Option` that is not skipped. -/
def nullable (value : Option Json) : Json := value.getD .null

/-! ## Sessions -/

section Sessions

variable (serializer : Serializer)

def tokenUsageValue (usage : TokenUsage) : Json :=
  serializer.struct
    [("input_tokens", ofU32 usage.inputTokens), ("output_tokens", ofU32 usage.outputTokens),
      ("cache_creation_input_tokens", ofU32 usage.cacheCreationInputTokens),
      ("cache_read_input_tokens", ofU32 usage.cacheReadInputTokens)]

def roleText : MessageRole → String
  | .system => "system"
  | .user => "user"
  | .assistant => "assistant"
  | .tool => "tool"

/-- `#[serde(tag = "type")]`. -/
def contentBlockValue : ContentBlock → Json
  | .text text => serializer.struct [("type", .string "text"), ("text", .string text)]
  | .toolUse id name input =>
      serializer.struct
        [("type", .string "tool_use"), ("id", .string id), ("name", .string name),
          ("input", .string input)]
  | .toolResult toolUseId toolName output isError =>
      serializer.struct
        [("type", .string "tool_result"), ("tool_use_id", .string toolUseId),
          ("tool_name", .string toolName), ("output", .string output),
          ("is_error", .bool isError)]
  | .userInputRequest requestId prompt options allowFreeform =>
      serializer.struct
        [("type", .string "user_input_request"), ("request_id", .string requestId),
          ("prompt", .string prompt), ("options", strings options),
          ("allow_freeform", .bool allowFreeform)]
  | .userInputResponse requestId content selectedOption =>
      serializer.struct
        [("type", .string "user_input_response"), ("request_id", .string requestId),
          ("content", .string content),
          ("selected_option", nullable (selectedOption.map .string))]

def conversationMessageValue (message : ConversationMessage) : Json :=
  serializer.struct
    [("role", .string (roleText message.role)),
      ("blocks", .array (message.blocks.map (contentBlockValue serializer))),
      ("usage", nullable (message.usage.map (tokenUsageValue serializer)))]

def accountingStatusText : SessionAccountingStatus → String
  | .complete => "complete"
  | .partialLegacyCompaction => "partial_legacy_compaction"

def sessionTelemetryValue (telemetry : SessionTelemetry) : Json :=
  serializer.struct
    [("compacted_usage", tokenUsageValue serializer telemetry.compactedUsage),
      ("compacted_turns", ofU32 telemetry.compactedTurns),
      ("accounting_status", .string (accountingStatusText telemetry.accountingStatus))]

def sessionValue (session : Session) : Json :=
  serializer.struct
    ([("version", ofU32 session.version),
      ("messages", .array (session.messages.map (conversationMessageValue serializer)))] ++
      skipNone "telemetry" (session.telemetry.map (sessionTelemetryValue serializer)))

end Sessions

/-! ## Lifecycles and contracts -/

structure LifecycleContractSnapshot where
  truthLayer : String
  operatorPlane : String
  persistence : String
  deriving DecidableEq, Repr

def LifecycleContractSnapshot.daemonLocalThread : LifecycleContractSnapshot :=
  ⟨"daemon_local_v1", "local_loopback_operator_v1", "workspace_sqlite_v1"⟩

structure ThreadContractSnapshot where
  lifecycle : LifecycleContractSnapshot
  attachApi : String
  deriving DecidableEq, Repr

def ThreadContractSnapshot.current : ThreadContractSnapshot :=
  ⟨.daemonLocalThread, "/v1/threads"⟩

/-- The lifecycle is flattened. -/
def ThreadContractSnapshot.serialize (serializer : Serializer)
    (contract : ThreadContractSnapshot) : Json :=
  serializer.struct
    [("truth_layer", .string contract.lifecycle.truthLayer),
      ("operator_plane", .string contract.lifecycle.operatorPlane),
      ("persistence", .string contract.lifecycle.persistence),
      ("attach_api", .string contract.attachApi)]

def recoveryGuidanceValue (serializer : Serializer) (recovery : RecoveryGuidanceSnapshot) : Json :=
  serializer.struct
    [("failure_kind", .string recovery.failureKind),
      ("recovery_kind", .string recovery.recoveryKind),
      ("recommended_actions", strings recovery.recommendedActions)]

def lifecycleStateValue (serializer : Serializer) (lifecycle : LifecycleStateSnapshot) : Json :=
  serializer.struct
    ([("status", .string lifecycle.status)] ++
      skipNone "failure_kind" (lifecycle.failureKind.map .string) ++
      skipNone "recovery" (lifecycle.recovery.map (recoveryGuidanceValue serializer)))

/-- With a recovery the status is `interrupted`, whatever was asked for. -/
def daemonThread (status : String) : Option RecoveryGuidanceSnapshot → LifecycleStateSnapshot
  | some recovery => .withRecovery "interrupted" recovery
  | none => { status := status }

def recoveryGuidanceForNote (note : String) : RecoveryGuidanceSnapshot :=
  if Text.contains "restart or shutdown" note.toList then
    ⟨"daemon_restart_interrupted_run", "reattach_or_retry",
      ["reattach to the thread and inspect the latest snapshot",
        "retry the interrupted work from the operator plane when safe"]⟩
  else if Text.contains "pending user input" note.toList then
    ⟨"pending_user_input_state_mismatch", "refresh_and_resubmit_user_input",
      ["refresh the thread snapshot before resubmitting user input",
        "resume only after confirming the pending request matches the latest durable state"]⟩
  else
    ⟨"interrupted_requires_recovery", "manual_operator_recovery",
      ["inspect the recovery note and latest thread snapshot",
        "choose retry, resume, or abandon from the operator plane"]⟩

/-! ## Snapshots -/

structure UserInputRequestPayload where
  requestId : String
  prompt : String
  options : List String
  allowFreeform : Bool
  deriving DecidableEq, Repr

namespace UserInputRequestPayload

def fromRequest (request : UserInputRequest) : UserInputRequestPayload :=
  ⟨request.requestId, request.prompt, request.options, request.allowFreeform⟩

def serialize (serializer : Serializer) (payload : UserInputRequestPayload) : Json :=
  serializer.struct
    [("request_id", .string payload.requestId), ("prompt", .string payload.prompt),
      ("options", strings payload.options), ("allow_freeform", .bool payload.allowFreeform)]

end UserInputRequestPayload

structure ThreadConfigSnapshot where
  cwd : String
  model : String
  permissionMode : String
  allowedTools : List String
  deriving DecidableEq, Repr

def ThreadExecutionConfig.snapshot (config : ThreadExecutionConfig) : ThreadConfigSnapshot :=
  ⟨config.cwd, config.model, config.permissionMode.asStr, config.allowedTools⟩

def ThreadConfigSnapshot.serialize (serializer : Serializer) (config : ThreadConfigSnapshot) :
    Json :=
  serializer.struct
    [("cwd", .string config.cwd), ("model", .string config.model),
      ("permission_mode", .string config.permissionMode),
      ("allowed_tools", strings config.allowedTools)]

structure ThreadStateSnapshot where
  status : String
  lifecycle : LifecycleStateSnapshot
  runId : Option RunId := none
  pendingUserInput : Option UserInputRequestPayload := none
  recoveryNote : Option String := none
  recovery : Option RecoveryGuidanceSnapshot := none
  deriving DecidableEq, Repr

def ThreadStatus.snapshot : ThreadStatus → ThreadStateSnapshot
  | .idle => { status := "idle", lifecycle := daemonThread "idle" none }
  | .running runId =>
      { status := "running", lifecycle := daemonThread "running" none, runId := some runId }
  | .awaitingUserInput runId request =>
      { status := "awaiting_user_input"
        lifecycle := daemonThread "awaiting_user_input" none
        runId := some runId
        pendingUserInput := some (.fromRequest request) }
  | .interrupted runId recoveryNote =>
      { status := "interrupted"
        lifecycle := daemonThread "interrupted" (some (recoveryGuidanceForNote recoveryNote))
        runId := runId
        recoveryNote := some recoveryNote
        recovery := some (recoveryGuidanceForNote recoveryNote) }

def ThreadStateSnapshot.serialize (serializer : Serializer) (state : ThreadStateSnapshot) : Json :=
  serializer.struct
    ([("status", .string state.status),
      ("lifecycle", lifecycleStateValue serializer state.lifecycle)] ++
      skipNone "run_id" (state.runId.map .string) ++
      skipNone "pending_user_input" (state.pendingUserInput.map fun payload =>
        payload.serialize serializer) ++
      skipNone "recovery_note" (state.recoveryNote.map .string) ++
      skipNone "recovery" (state.recovery.map (recoveryGuidanceValue serializer)))

structure ThreadSnapshot where
  protocolVersion : String
  contract : ThreadContractSnapshot
  threadId : ThreadId
  createdAt : UInt64
  updatedAt : UInt64
  state : ThreadStateSnapshot
  config : ThreadConfigSnapshot
  session : Session
  deriving DecidableEq, Repr

def snapshotFromInner (inner : ThreadInner) : ThreadSnapshot :=
  { protocolVersion := protocolVersion
    contract := .current
    threadId := inner.id
    createdAt := inner.createdAt
    updatedAt := inner.updatedAt
    state := inner.status.snapshot
    config := inner.config.snapshot
    session := inner.session }

def ThreadSnapshot.serialize (serializer : Serializer) (snapshot : ThreadSnapshot) : Json :=
  serializer.struct
    [("protocol_version", .string snapshot.protocolVersion),
      ("contract", snapshot.contract.serialize serializer),
      ("thread_id", .string snapshot.threadId), ("created_at", ofU64 snapshot.createdAt),
      ("updated_at", ofU64 snapshot.updatedAt), ("state", snapshot.state.serialize serializer),
      ("config", snapshot.config.serialize serializer),
      ("session", sessionValue serializer snapshot.session)]

/-! ## Bodies -/

/-- A `usize` is a `u64`. -/
structure ThreadSummary where
  contract : ThreadContractSnapshot
  threadId : ThreadId
  createdAt : UInt64
  updatedAt : UInt64
  state : ThreadStateSnapshot
  messageCount : UInt64
  deriving DecidableEq, Repr

/-- The summary `list_threads` makes of a record. -/
def threadSummary (inner : ThreadInner) : ThreadSummary :=
  let snapshot := snapshotFromInner inner
  { contract := snapshot.contract
    threadId := snapshot.threadId
    createdAt := snapshot.createdAt
    updatedAt := snapshot.updatedAt
    state := snapshot.state
    messageCount := UInt64.ofNat snapshot.session.messages.length }

def ThreadSummary.serialize (serializer : Serializer) (summary : ThreadSummary) : Json :=
  serializer.struct
    [("contract", summary.contract.serialize serializer), ("thread_id", .string summary.threadId),
      ("created_at", ofU64 summary.createdAt), ("updated_at", ofU64 summary.updatedAt),
      ("state", summary.state.serialize serializer),
      ("message_count", ofU64 summary.messageCount)]

structure ListThreadsResponse where
  protocolVersion : String
  threads : List ThreadSummary
  deriving DecidableEq, Repr

/-- The records may come in any order; the summaries are sorted by their ids. -/
def listThreads (records : List ThreadInner) : ListThreadsResponse :=
  ⟨protocolVersion, (records.map threadSummary).mergeSort fun left right =>
    left.threadId ≤ right.threadId⟩

def ListThreadsResponse.serialize (serializer : Serializer) (response : ListThreadsResponse) :
    Json :=
  serializer.struct
    [("protocol_version", .string response.protocolVersion),
      ("threads", .array (response.threads.map fun summary => summary.serialize serializer))]

structure TurnAcceptedResponse where
  protocolVersion : String
  contract : ThreadContractSnapshot
  threadId : ThreadId
  runId : RunId
  lifecycle : LifecycleStateSnapshot
  status : String
  deriving DecidableEq, Repr

/-- The answer of `start_thread_turn`. -/
def turnAccepted (threadId : ThreadId) (runId : RunId) : TurnAcceptedResponse :=
  ⟨protocolVersion, .current, threadId, runId, daemonThread "accepted" none, "accepted"⟩

def TurnAcceptedResponse.serialize (serializer : Serializer) (response : TurnAcceptedResponse) :
    Json :=
  serializer.struct
    [("protocol_version", .string response.protocolVersion),
      ("contract", response.contract.serialize serializer),
      ("thread_id", .string response.threadId), ("run_id", .string response.runId),
      ("lifecycle", lifecycleStateValue serializer response.lifecycle),
      ("status", .string response.status)]

structure UserInputAcceptedResponse where
  protocolVersion : String
  contract : ThreadContractSnapshot
  threadId : ThreadId
  runId : RunId
  requestId : String
  lifecycle : LifecycleStateSnapshot
  status : String
  deriving DecidableEq, Repr

/-- The answer of `submit_thread_user_input`. -/
def userInputAccepted (threadId : ThreadId) (runId : RunId) (requestId : String) :
    UserInputAcceptedResponse :=
  ⟨protocolVersion, .current, threadId, runId, requestId, daemonThread "accepted" none,
    "accepted"⟩

def UserInputAcceptedResponse.serialize (serializer : Serializer)
    (response : UserInputAcceptedResponse) : Json :=
  serializer.struct
    [("protocol_version", .string response.protocolVersion),
      ("contract", response.contract.serialize serializer),
      ("thread_id", .string response.threadId), ("run_id", .string response.runId),
      ("request_id", .string response.requestId),
      ("lifecycle", lifecycleStateValue serializer response.lifecycle),
      ("status", .string response.status)]

/-! ## Payloads of events -/

structure RunStartedPayload where
  kind : String
  message : String
  status : String
  lifecycle : LifecycleStateSnapshot
  deriving DecidableEq, Repr

def RunStartedPayload.turn (message : String) : RunStartedPayload :=
  ⟨"turn", message, "running", { status := "running" }⟩

def RunStartedPayload.serialize (serializer : Serializer) (payload : RunStartedPayload) : Json :=
  serializer.struct
    [("kind", .string payload.kind), ("message", .string payload.message),
      ("status", .string payload.status),
      ("lifecycle", lifecycleStateValue serializer payload.lifecycle)]

structure RunCompletedPayload where
  iterations : UInt64
  assistantMessageCount : UInt64
  toolResultCount : UInt64
  cumulativeUsage : TokenUsage
  status : String
  lifecycle : LifecycleStateSnapshot
  deriving DecidableEq, Repr

/-- `from_summary`, of the counts of the summary. -/
def RunCompletedPayload.fromSummary (iterations assistantMessageCount toolResultCount : Nat)
    (usage : TokenUsage) : RunCompletedPayload :=
  ⟨UInt64.ofNat iterations, UInt64.ofNat assistantMessageCount, UInt64.ofNat toolResultCount,
    usage, "completed", { status := "completed" }⟩

def RunCompletedPayload.serialize (serializer : Serializer) (payload : RunCompletedPayload) :
    Json :=
  serializer.struct
    [("iterations", ofU64 payload.iterations),
      ("assistant_message_count", ofU64 payload.assistantMessageCount),
      ("tool_result_count", ofU64 payload.toolResultCount),
      ("cumulative_usage", tokenUsageValue serializer payload.cumulativeUsage),
      ("status", .string payload.status),
      ("lifecycle", lifecycleStateValue serializer payload.lifecycle)]

structure RunWaitingUserInputPayload where
  requestId : String
  prompt : String
  options : List String
  allowFreeform : Bool
  status : String
  lifecycle : LifecycleStateSnapshot
  deriving DecidableEq, Repr

def RunWaitingUserInputPayload.fromRequest (request : UserInputRequest) :
    RunWaitingUserInputPayload :=
  ⟨request.requestId, request.prompt, request.options, request.allowFreeform,
    "awaiting_user_input", { status := "awaiting_user_input" }⟩

def RunWaitingUserInputPayload.serialize (serializer : Serializer)
    (payload : RunWaitingUserInputPayload) : Json :=
  serializer.struct
    [("request_id", .string payload.requestId), ("prompt", .string payload.prompt),
      ("options", strings payload.options), ("allow_freeform", .bool payload.allowFreeform),
      ("status", .string payload.status),
      ("lifecycle", lifecycleStateValue serializer payload.lifecycle)]

structure RunFailedPayload where
  code : String
  message : String
  status : String
  lifecycle : LifecycleStateSnapshot
  deriving DecidableEq, Repr

def RunFailedPayload.fromError (code message : String) : RunFailedPayload :=
  let recovery : RecoveryGuidanceSnapshot :=
    match code with
    | "storage_error" =>
        ⟨"daemon_thread_storage_error", "read_latest_snapshot_and_retry",
          ["read the latest /v1/threads snapshot before retrying",
            "retry the same attach-first action only after the local store issue is resolved"]⟩
    | _ =>
        ⟨"daemon_thread_runtime_error", "inspect_error_and_retry",
          ["inspect the error message and latest /v1/threads snapshot",
            "retry the same attach-first action only after the underlying runtime issue is understood"]⟩
  ⟨code, message, "failed", .withRecovery "failed" recovery⟩

def RunFailedPayload.serialize (serializer : Serializer) (payload : RunFailedPayload) : Json :=
  serializer.struct
    [("code", .string payload.code), ("message", .string payload.message),
      ("status", .string payload.status),
      ("lifecycle", lifecycleStateValue serializer payload.lifecycle)]

/-- The input of a tool as the provider wrote it, or the text itself. -/
def parseToolInput (serde : SerdeJson) (input : String) : Json :=
  match serde.fromStr input with
  | .ok value => value
  | .error _ => Serializer.value.struct [("raw_input", .string input)]

/-- The `payload` of each event: `to_value` or `json!`. -/
def ProtocolEvent.payload (serde : SerdeJson) : ProtocolEvent → Json
  | .runStarted message => (RunStartedPayload.turn message).serialize .value
  | .userInputSubmitted response =>
      Serializer.value.struct
        [("request_id", .string response.requestId), ("content", .string response.content),
          ("selected_option", nullable (response.selectedOption.map .string))]
  | .assistant (.textDelta text) => Serializer.value.struct [("text", .string text)]
  | .assistant (.toolUse id name input) =>
      Serializer.value.struct
        [("id", .string id), ("name", .string name), ("input", parseToolInput serde input)]
  | .assistant (.requestUserInput request) =>
      Serializer.value.struct
        [("request_id", .string request.requestId), ("prompt", .string request.prompt),
          ("options", strings request.options), ("allow_freeform", .bool request.allowFreeform)]
  | .assistant (.usage usage) => tokenUsageValue .value usage
  | .assistant .messageStop => Serializer.value.struct []
  | .toolResult toolUseId toolName output isError =>
      Serializer.value.struct
        [("tool_use_id", .string toolUseId), ("tool_name", .string toolName),
          ("output", .string output), ("is_error", .bool isError)]
  | .runCompleted iterations assistantMessageCount toolResultCount usage =>
      (RunCompletedPayload.fromSummary iterations assistantMessageCount toolResultCount
        usage).serialize .value
  | .runWaitingUserInput request =>
      (RunWaitingUserInputPayload.fromRequest request).serialize .value
  | .runFailed code message => (RunFailedPayload.fromError code message).serialize .value

end Openyak.Server
