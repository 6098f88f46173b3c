/-
# Sdk.SameLanguage -- Python reads what the server writes

Each type of the server has a view, the value of the SDK with the same data.  A reader of
the SDK gives the view of what serde writes, whether it was written to a text or kept as a
`Value`: one lemma for each type, from the inside out.

The names of the permission modes are the only thing a reader refuses that a record could
hold: the protocol has a name for three modes of five.  A thread is created in one of the
three and comes back from its row in one (`Reachable.served`).
-/
import Openyak.Sdk.PythonModels
import Openyak.Sdk.ServerStream
import Openyak.Server.Payloads
import Openyak.Server.Recovery
import Openyak.Server.ServedThreads

namespace Openyak.Sdk.Python

open Openyak.Theory
open Openyak.Theory.PyValue (getItem loads loadsItems)
open Openyak.Theory.Json (lastField)

set_option autoImplicit false

/-! ## Views -/

def ofUsage (usage : Runtime.TokenUsage) : TokenUsage :=
  ⟨usage.inputTokens.toNat, usage.outputTokens.toNat, usage.cacheCreationInputTokens.toNat,
    usage.cacheReadInputTokens.toNat⟩

def ofBlock : Runtime.ContentBlock → ContentBlock
  | .text text => .text text
  | .toolUse id name input => .toolUse id name input
  | .toolResult toolUseId toolName output isError =>
      .toolResult toolUseId toolName output isError
  | .userInputRequest requestId prompt options allowFreeform =>
      .userInputRequest requestId prompt options allowFreeform
  | .userInputResponse requestId content selectedOption =>
      .userInputResponse requestId content selectedOption

def ofMessage (message : Runtime.ConversationMessage) : ConversationMessage :=
  ⟨Server.roleText message.role, message.blocks.map ofBlock, message.usage.map ofUsage⟩

def ofTelemetry (telemetry : Runtime.SessionTelemetry) : SessionTelemetry :=
  ⟨ofUsage telemetry.compactedUsage, telemetry.compactedTurns.toNat,
    some (Server.accountingStatusText telemetry.accountingStatus)⟩

def ofSession (session : Runtime.Session) : SessionSnapshot :=
  ⟨session.version.toNat, session.messages.map ofMessage, session.telemetry.map ofTelemetry⟩

def ofContract (contract : Server.ThreadContractSnapshot) : ThreadContractSnapshot :=
  ⟨contract.lifecycle.truthLayer, contract.lifecycle.operatorPlane,
    contract.lifecycle.persistence, contract.attachApi⟩

def ofRecovery (recovery : Runtime.RecoveryGuidanceSnapshot) : RecoveryGuidanceSnapshot :=
  ⟨recovery.failureKind, recovery.recoveryKind, recovery.recommendedActions⟩

def ofLifecycle (lifecycle : Runtime.LifecycleStateSnapshot) : LifecycleStateSnapshot :=
  ⟨lifecycle.status, lifecycle.failureKind, lifecycle.recovery.map ofRecovery⟩

def ofRequest (payload : Server.UserInputRequestPayload) : UserInputRequestPayload :=
  ⟨payload.requestId, payload.prompt, payload.options, payload.allowFreeform⟩

def ofConfig (config : Server.ThreadConfigSnapshot) : ThreadConfigSnapshot :=
  ⟨config.cwd, config.model, config.permissionMode, config.allowedTools⟩

def ofState (state : Server.ThreadStateSnapshot) : ThreadStateSnapshot :=
  ⟨state.status, some (ofLifecycle state.lifecycle), state.runId,
    state.pendingUserInput.map ofRequest, state.recoveryNote, state.recovery.map ofRecovery⟩

def ofSnapshot (snapshot : Server.ThreadSnapshot) : ThreadSnapshot :=
  ⟨snapshot.protocolVersion, some (ofContract snapshot.contract), snapshot.threadId,
    snapshot.createdAt.toNat, snapshot.updatedAt.toNat, ofState snapshot.state,
    ofConfig snapshot.config, ofSession snapshot.session⟩

def ofSummary (summary : Server.ThreadSummary) : ThreadSummary :=
  ⟨some (ofContract summary.contract), summary.threadId, summary.createdAt.toNat,
    summary.updatedAt.toNat, ofState summary.state, summary.messageCount.toNat⟩

def ofThreads (response : Server.ListThreadsResponse) : ListThreadsResponse :=
  ⟨response.protocolVersion, response.threads.map ofSummary⟩

def ofTurnAccepted (response : Server.TurnAcceptedResponse) : TurnAcceptedResponse :=
  ⟨response.protocolVersion, some (ofContract response.contract), response.threadId,
    response.runId, some (ofLifecycle response.lifecycle), response.status⟩

def ofUserInputAccepted (response : Server.UserInputAcceptedResponse) :
    UserInputAcceptedResponse :=
  ⟨response.protocolVersion, some (ofContract response.contract), response.threadId,
    response.runId, response.requestId, some (ofLifecycle response.lifecycle), response.status⟩

def ofRunStarted (payload : Server.RunStartedPayload) : RunStartedPayload :=
  ⟨payload.kind, payload.message, payload.status, some (ofLifecycle payload.lifecycle)⟩

def ofRunCompleted (payload : Server.RunCompletedPayload) : RunCompletedPayload :=
  ⟨payload.iterations.toNat, payload.assistantMessageCount.toNat, payload.toolResultCount.toNat,
    ofUsage payload.cumulativeUsage, payload.status, some (ofLifecycle payload.lifecycle)⟩

def ofRunWaiting (payload : Server.RunWaitingUserInputPayload) : RunWaitingUserInputPayload :=
  ⟨payload.requestId, payload.prompt, payload.options, payload.allowFreeform, payload.status,
    some (ofLifecycle payload.lifecycle)⟩

def ofRunFailed (payload : Server.RunFailedPayload) : RunFailedPayload :=
  ⟨payload.code, payload.message, payload.status, some (ofLifecycle payload.lifecycle)⟩

/-- The payload of a protocol event, as Python models it. -/
def ofProtocolEvent (serde : SerdeJson) : Server.ProtocolEvent → EventPayload
  | .runStarted message => .runStarted (ofRunStarted (.turn message))
  | .userInputSubmitted response =>
      .userInputSubmitted ⟨response.requestId, response.content, response.selectedOption⟩
  | .assistant (.textDelta text) => .assistantTextDelta text
  | .assistant (.toolUse id name input) =>
      .assistantToolUse ⟨id, name, loads (Server.parseToolInput serde input)⟩
  | .assistant (.requestUserInput request) =>
      .assistantRequestUserInput (ofRequest (.fromRequest request))
  | .assistant (.usage usage) => .assistantUsage (ofUsage usage)
  | .assistant .messageStop => .assistantMessageStop []
  | .toolResult toolUseId toolName output isError =>
      .assistantToolResult ⟨toolUseId, toolName, output, isError⟩
  | .runCompleted iterations assistantMessageCount toolResultCount usage =>
      .runCompleted (ofRunCompleted
        (.fromSummary iterations assistantMessageCount toolResultCount usage))
  | .runWaitingUserInput request => .runWaitingUserInput (ofRunWaiting (.fromRequest request))
  | .runFailed code message => .runFailed (ofRunFailed (.fromError code message))

/-! ## Fields -/

section Fields

variable (serializer : Serializer) (fields : List (String × Json)) (field context : String)

@[simp] theorem asMapping_dict (record : Record) : asMapping (.dict record) context = .ok record :=
  rfl

@[simp] theorem requireStr_recordOf :
    requireStr (recordOf serializer fields) field context =
      match lastField field fields with
      | some (.string value) => .ok value
      | _ => .error (.protocol (context ++ " is missing string field " ++ field)) := by
  rw [requireStr, getItem_recordOf]
  cases lastField field fields with
  | none => rfl
  | some value =>
      cases value with
      | number value => cases value <;> rfl
      | _ => rfl

@[simp] theorem optionalStr_recordOf :
    optionalStr (recordOf serializer fields) field context =
      match lastField field fields with
      | none | some .null => .ok none
      | some (.string value) => .ok (some value)
      | _ => .error (.protocol (context ++ "." ++ field ++ " must be a string when present")) := by
  rw [optionalStr, getItem_recordOf]
  cases lastField field fields with
  | none => rfl
  | some value =>
      cases value with
      | number value => cases value <;> rfl
      | _ => rfl

@[simp] theorem requireBool_recordOf :
    requireBool (recordOf serializer fields) field context =
      match lastField field fields with
      | some (.bool value) => .ok value
      | _ => .error (.protocol (context ++ " is missing boolean field " ++ field)) := by
  rw [requireBool, getItem_recordOf]
  cases lastField field fields with
  | none => rfl
  | some value =>
      cases value with
      | number value => cases value <;> rfl
      | _ => rfl

@[simp] theorem requireInt_recordOf :
    requireInt (recordOf serializer fields) field context =
      match lastField field fields with
      | some (.number (.posInt value)) => .ok value.toNat
      | some (.number (.negInt value)) => .ok value.toInt
      | _ => .error (.protocol (context ++ " is missing integer field " ++ field)) := by
  rw [requireInt, getItem_recordOf]
  cases lastField field fields with
  | none => rfl
  | some value =>
      cases value with
      | number value => cases value <;> rfl
      | _ => rfl

@[simp] theorem requireList_recordOf :
    requireList (recordOf serializer fields) field context =
      match lastField field fields with
      | some (.array items) => .ok (items.map loads)
      | _ => .error (.protocol (context ++ " is missing list field " ++ field)) := by
  rw [requireList, getItem_recordOf]
  cases lastField field fields with
  | none => rfl
  | some value =>
      cases value with
      | number value => cases value <;> rfl
      | array items => simp [loads, PyValue.loadsItems_eq]
      | _ => rfl

@[simp] theorem protocolVersionFromMapping_recordOf :
    protocolVersionFromMapping (recordOf serializer fields) =
      match lastField "protocol_version" fields with
      | some (.string value) => some value
      | _ => none := by
  rw [protocolVersionFromMapping, getItem_recordOf]
  cases lastField "protocol_version" fields with
  | none => rfl
  | some value =>
      cases value with
      | number value => cases value <;> rfl
      | _ => rfl

@[simp] theorem asStrings_strings (values : List String) :
    asStrings (values.map (loads ∘ Json.string)) = some values := by
  induction values with
  | nil => rfl
  | cons value values ih =>
      rw [List.map_cons, Function.comp_apply, loads, asStrings, ih, Option.map_some]

end Fields

/-! ## Options and lists -/

section Parts

variable {α β : Type} {parse : PyValue → String → Except ModelError α} {write : β → Json}
  {view : β → α}

@[simp] theorem ifPresent_none (context : String) : ifPresent parse .none context = .ok none := rfl

theorem ifPresent_some {value : PyValue} (there : value ≠ .none) (context : String) :
    ifPresent parse value context = some <$> parse value context := by
  cases value with
  | none => exact absurd rfl there
  | _ => rfl

/-- An option that is skipped or null, and read again. -/
theorem ifPresent_option
    (reads : ∀ value context, parse (loads (write value)) context = .ok (view value))
    (there : ∀ value, loads (write value) ≠ .none) (value : Option β) (context : String) :
    ifPresent parse (value.elim .none (loads ∘ write)) context = .ok (value.map view) := by
  cases value with
  | none => rfl
  | some value =>
      show ifPresent parse (loads (write value)) context = _
      rw [ifPresent_some (there value), reads]
      rfl

@[simp] theorem loads_nullable (value : Option β) :
    loads (Server.nullable (value.map write)) = value.elim .none (loads ∘ write) := by
  cases value with
  | none => rw [Option.map_none, Server.nullable, Option.getD_none, loads, Option.elim_none]
  | some value => rfl

theorem parseItems_map (values : List β)
    (reads : ∀ value ∈ values, ∀ context, parse (loads (write value)) context = .ok (view value))
    (context : String) (index : Nat) :
    parseItems parse context index (values.map (loads ∘ write)) = .ok (values.map view) := by
  induction values generalizing index with
  | nil => rfl
  | cons value values ih =>
      have rest := ih fun other member => reads other (List.mem_cons_of_mem value member)
      rw [List.map_cons, Function.comp_apply, parseItems, reads value List.mem_cons_self, rest]
      rfl

end Parts

/-! ## Sessions -/

section Readers

variable (repr : String → String) (serializer : Serializer)

theorem loads_struct_ne_none (fields : List (String × Json)) :
    loads (serializer.struct fields) ≠ .none := by
  rw [loads_struct]
  exact nofun

theorem parseTokenUsage_value (usage : Runtime.TokenUsage) (context : String) :
    parseTokenUsage (loads (Server.tokenUsageValue serializer usage)) context =
      .ok (ofUsage usage) := by
  simp [parseTokenUsage, Server.tokenUsageValue, Server.ofU32, ofUsage, bind, Except.bind, pure,
    Except.pure]

theorem parseContentBlock_value (block : Runtime.ContentBlock) (context : String) :
    parseContentBlock repr (loads (Server.contentBlockValue serializer block)) context =
      .ok (ofBlock block) := by
  cases block with
  | userInputRequest requestId prompt options allowFreeform =>
      simp [parseContentBlock, Server.contentBlockValue, requireListOfStr, Server.strings,
        ofBlock, bind, Except.bind, pure, Except.pure]
  | userInputResponse requestId content selectedOption =>
      cases selectedOption <;>
        simp [parseContentBlock, Server.contentBlockValue, Server.nullable, ofBlock, bind,
          Except.bind, pure, Except.pure]
  | _ =>
      simp [parseContentBlock, Server.contentBlockValue, ofBlock, bind, Except.bind, pure,
        Except.pure]

theorem parseConversationMessage_value (message : Runtime.ConversationMessage)
    (context : String) :
    parseConversationMessage repr (loads (Server.conversationMessageValue serializer message))
      context = .ok (ofMessage message) := by
  obtain ⟨role, blocks, usage⟩ := message
  have content := parseItems_map blocks
    (fun block _ => parseContentBlock_value repr serializer block)
    (context ++ ".blocks") 0
  have tokens := ifPresent_option (parseTokenUsage_value serializer)
    (fun _ => loads_struct_ne_none serializer _) usage (context ++ ".usage")
  cases role <;>
    simp [parseConversationMessage, Server.conversationMessageValue, requireMessageRole,
      Server.roleText, content, tokens, ofMessage, bind, Except.bind, pure, Except.pure]

theorem parseSessionTelemetry_value (telemetry : Runtime.SessionTelemetry) (context : String) :
    parseSessionTelemetry repr (loads (Server.sessionTelemetryValue serializer telemetry))
      context = .ok (ofTelemetry telemetry) := by
  obtain ⟨usage, turns, status⟩ := telemetry
  cases status <;>
    simp [parseSessionTelemetry, Server.sessionTelemetryValue, Server.accountingStatusText,
      Server.ofU32, parseTokenUsage_value, ofTelemetry, bind, Except.bind, pure, Except.pure]

theorem parseSessionSnapshot_value (session : Runtime.Session) (context : String) :
    parseSessionSnapshot repr (loads (Server.sessionValue serializer session)) context =
      .ok (ofSession session) := by
  obtain ⟨version, messages, telemetry⟩ := session
  have said := parseItems_map messages
    (fun message _ => parseConversationMessage_value repr serializer message)
    (context ++ ".messages") 0
  have measured := ifPresent_option (parseSessionTelemetry_value repr serializer)
    (fun _ => loads_struct_ne_none serializer _) telemetry (context ++ ".telemetry")
  simp [parseSessionSnapshot, Server.sessionValue, Server.ofU32, said, measured, ofSession, bind,
    Except.bind, pure, Except.pure]

/-! ## Snapshots -/

theorem parseRecoveryGuidance_value (recovery : Runtime.RecoveryGuidanceSnapshot)
    (context : String) :
    parseRecoveryGuidanceSnapshot (loads (Server.recoveryGuidanceValue serializer recovery))
      context = .ok (ofRecovery recovery) := by
  simp [parseRecoveryGuidanceSnapshot, Server.recoveryGuidanceValue, requireListOfStr,
    Server.strings, ofRecovery, bind, Except.bind, pure, Except.pure]

theorem parseLifecycleState_value (lifecycle : Runtime.LifecycleStateSnapshot)
    (context : String) :
    parseLifecycleStateSnapshot (loads (Server.lifecycleStateValue serializer lifecycle)) context =
      .ok (ofLifecycle lifecycle) := by
  obtain ⟨status, failureKind, recovery⟩ := lifecycle
  have guided := ifPresent_option (parseRecoveryGuidance_value serializer)
    (fun _ => loads_struct_ne_none serializer _) recovery (context ++ ".recovery")
  cases failureKind <;>
    simp [parseLifecycleStateSnapshot, Server.lifecycleStateValue, guided, ofLifecycle, bind,
      Except.bind, pure, Except.pure]

theorem parseOptionalLifecycle_value (lifecycle : Runtime.LifecycleStateSnapshot)
    (context : String) :
    parseOptionalLifecycle (loads (Server.lifecycleStateValue serializer lifecycle)) context =
      .ok (some (ofLifecycle lifecycle)) :=
  ifPresent_option (parseLifecycleState_value serializer)
    (fun _ => loads_struct_ne_none serializer _) (some lifecycle) context

theorem parseThreadContract_value (contract : Server.ThreadContractSnapshot)
    (context : String) :
    ifPresent parseThreadContractSnapshot (loads (contract.serialize serializer)) context =
      .ok (some (ofContract contract)) := by
  have reads : ∀ contract : Server.ThreadContractSnapshot, ∀ context,
      parseThreadContractSnapshot (loads (contract.serialize serializer)) context =
        .ok (ofContract contract) := by
    intro contract context
    simp [parseThreadContractSnapshot, Server.ThreadContractSnapshot.serialize, ofContract, bind,
      Except.bind, pure, Except.pure]
  exact ifPresent_option reads (fun _ => loads_struct_ne_none serializer _) (some contract) context

/-- The SDK has names for these modes. -/
theorem parseThreadConfig_value (config : Server.ThreadExecutionConfig)
    (served : Server.PermissionMode.Served config.permissionMode) (context : String) :
    parseThreadConfigSnapshot repr (loads (config.snapshot.serialize serializer)) context =
      .ok (ofConfig config.snapshot) := by
  obtain ⟨cwd, model, mode, tools⟩ := config
  obtain rfl | rfl | rfl := served <;>
    simp [parseThreadConfigSnapshot, Server.ThreadExecutionConfig.snapshot,
      Server.ThreadConfigSnapshot.serialize, Runtime.PermissionMode.asStr, requireListOfStr,
      Server.strings, ofConfig, bind, Except.bind, pure, Except.pure]

theorem parseUserInputRequest_value (payload : Server.UserInputRequestPayload)
    (context : String) :
    parseUserInputRequestPayload (loads (payload.serialize serializer)) context =
      .ok (ofRequest payload) := by
  simp [parseUserInputRequestPayload, Server.UserInputRequestPayload.serialize, requireListOfStr,
    Server.strings, ofRequest, bind, Except.bind, pure, Except.pure]

theorem parseThreadState_value (status : Server.ThreadStatus) (context : String) :
    parseThreadStateSnapshot repr (loads (status.snapshot.serialize serializer)) context =
      .ok (ofState status.snapshot) := by
  have lifecycle := parseOptionalLifecycle_value serializer status.snapshot.lifecycle
    (context ++ ".lifecycle")
  have pending := ifPresent_option (parseUserInputRequest_value serializer)
    (fun _ => loads_struct_ne_none serializer _) status.snapshot.pendingUserInput
    (context ++ ".pending_user_input")
  have recovery := ifPresent_option (parseRecoveryGuidance_value serializer)
    (fun _ => loads_struct_ne_none serializer _) status.snapshot.recovery (context ++ ".recovery")
  cases status with
  | interrupted runId recoveryNote =>
      cases runId <;>
        simp_all [parseThreadStateSnapshot, Server.ThreadStateSnapshot.serialize,
          Server.ThreadStatus.snapshot, ofState, bind, Except.bind, pure, Except.pure]
  | _ =>
      simp_all [parseThreadStateSnapshot, Server.ThreadStateSnapshot.serialize,
        Server.ThreadStatus.snapshot, ofState, bind, Except.bind, pure, Except.pure]

theorem parseThreadSnapshot_value {inner : Server.ThreadInner}
    (served : Server.PermissionMode.Served inner.config.permissionMode) (context : String) :
    parseThreadSnapshot repr (loads ((Server.snapshotFromInner inner).serialize serializer))
      context = .ok (ofSnapshot (Server.snapshotFromInner inner)) := by
  simp [parseThreadSnapshot, Server.ThreadSnapshot.serialize, Server.snapshotFromInner,
    parseProtocolVersion, assertSupportedProtocolVersion,
    Server.protocolVersion, Server.ofU64, parseThreadContract_value, parseThreadState_value,
    parseThreadConfig_value repr serializer inner.config served, parseSessionSnapshot_value,
    ofSnapshot, bind, Except.bind, pure, Except.pure]

/-! ## Bodies -/

theorem parseThreadSummary_value {inner : Server.ThreadInner} (context : String) :
    parseThreadSummary repr (loads ((Server.threadSummary inner).serialize serializer)) context =
      .ok (ofSummary (Server.threadSummary inner)) := by
  simp [parseThreadSummary, Server.ThreadSummary.serialize, Server.threadSummary,
    Server.snapshotFromInner, Server.ofU64, parseThreadContract_value, parseThreadState_value,
    ofSummary, bind, Except.bind, pure, Except.pure]

theorem parseListThreads_value (records : List Server.ThreadInner) (context : String) :
    parseListThreadsResponse repr (loads ((Server.listThreads records).serialize serializer))
      context = .ok (ofThreads (Server.listThreads records)) := by
  have summaries : ∀ summary ∈ (Server.listThreads records).threads, ∀ context,
      parseThreadSummary repr (loads (summary.serialize serializer)) context =
        .ok (ofSummary summary) := by
    intro summary member context
    obtain ⟨inner, -, rfl⟩ := List.mem_map.1 (List.mem_mergeSort.1 member)
    exact parseThreadSummary_value repr serializer context
  have version : (Server.listThreads records).protocolVersion = "v1" := rfl
  revert summaries version
  generalize Server.listThreads records = response
  obtain ⟨version, threads⟩ := response
  rintro summaries ⟨⟩
  have items := parseItems_map threads summaries (context ++ ".threads") 0
  simp [parseListThreadsResponse, Server.ListThreadsResponse.serialize, parseProtocolVersion,
    assertSupportedProtocolVersion, items, ofThreads, bind, Except.bind, pure, Except.pure]

theorem parseTurnAccepted_value (threadId runId : String) (context : String) :
    parseTurnAcceptedResponse repr
        (loads ((Server.turnAccepted threadId runId).serialize serializer)) context =
      .ok (ofTurnAccepted (Server.turnAccepted threadId runId)) := by
  simp [parseTurnAcceptedResponse, Server.TurnAcceptedResponse.serialize, Server.turnAccepted,
    parseProtocolVersion, assertSupportedProtocolVersion, Server.protocolVersion, requireStatus,
    parseThreadContract_value, parseOptionalLifecycle_value, ofTurnAccepted, bind, Except.bind,
    pure, Except.pure]

theorem parseUserInputAccepted_value (threadId runId requestId : String) (context : String) :
    parseUserInputAcceptedResponse repr
        (loads ((Server.userInputAccepted threadId runId requestId).serialize serializer))
        context = .ok (ofUserInputAccepted (Server.userInputAccepted threadId runId requestId)) := by
  simp [parseUserInputAcceptedResponse, Server.UserInputAcceptedResponse.serialize,
    Server.userInputAccepted, parseProtocolVersion, assertSupportedProtocolVersion,
    Server.protocolVersion, requireStatus, parseThreadContract_value,
    parseOptionalLifecycle_value, ofUserInputAccepted, bind, Except.bind, pure, Except.pure]

/-! ## Events -/

/-- **The payload of every protocol event is read.** -/
theorem parseEventPayload_value (serde : SerdeJson) (event : Server.ProtocolEvent)
    (context : String) :
    parseEventPayload repr event.eventType (loads (event.payload serde)) context =
      some (.ok (ofProtocolEvent serde event)) := by
  cases event with
  | runStarted message =>
      simp [parseEventPayload, Server.ProtocolEvent.eventType, Server.ProtocolEvent.payload,
        Server.RunStartedPayload.serialize, Server.RunStartedPayload.turn, parseRunStarted,
        requireStatus, parseOptionalLifecycle_value, ofProtocolEvent, ofRunStarted, bind,
        Except.bind, pure, Except.pure, Functor.map, Except.map]
  | userInputSubmitted response =>
      obtain ⟨requestId, content, selectedOption⟩ := response
      cases selectedOption <;>
        simp [parseEventPayload, Server.ProtocolEvent.eventType, Server.ProtocolEvent.payload,
          parseUserInputSubmitted, Server.nullable, ofProtocolEvent, bind, Except.bind, pure,
          Except.pure, Functor.map, Except.map]
  | toolResult toolUseId toolName output isError =>
      simp [parseEventPayload, Server.ProtocolEvent.eventType, Server.ProtocolEvent.payload,
        parseAssistantToolResult, ofProtocolEvent, bind, Except.bind, pure, Except.pure,
        Functor.map, Except.map]
  | runCompleted iterations assistantMessageCount toolResultCount usage =>
      simp [parseEventPayload, Server.ProtocolEvent.eventType, Server.ProtocolEvent.payload,
        Server.RunCompletedPayload.serialize, Server.RunCompletedPayload.fromSummary,
        Server.ofU64, parseRunCompleted, parseTokenUsage_value, requireStatusOrDefault,
        parseOptionalLifecycle_value, ofProtocolEvent, ofRunCompleted, bind, Except.bind, pure,
        Except.pure, Functor.map, Except.map]
  | runWaitingUserInput request =>
      simp [parseEventPayload, Server.ProtocolEvent.eventType, Server.ProtocolEvent.payload,
        Server.RunWaitingUserInputPayload.serialize,
        Server.RunWaitingUserInputPayload.fromRequest, requireListOfStr, Server.strings,
        parseRunWaitingUserInput, requireStatusOrDefault, parseOptionalLifecycle_value,
        ofProtocolEvent, ofRunWaiting, bind, Except.bind, pure, Except.pure, Functor.map,
        Except.map]
  | runFailed code message =>
      simp [parseEventPayload, Server.ProtocolEvent.eventType, Server.ProtocolEvent.payload,
        Server.RunFailedPayload.serialize, Server.RunFailedPayload.fromError, parseRunFailed,
        requireStatusOrDefault, parseOptionalLifecycle_value, ofProtocolEvent, ofRunFailed, bind,
        Except.bind, pure, Except.pure, Functor.map, Except.map]
  | assistant event =>
      cases event with
      | textDelta text =>
          simp [parseEventPayload, Server.ProtocolEvent.eventType, Server.ProtocolEvent.payload,
            ofProtocolEvent, bind, Except.bind, pure, Except.pure]
      | toolUse id name input =>
          simp [parseEventPayload, Server.ProtocolEvent.eventType, Server.ProtocolEvent.payload,
            parseAssistantToolUse, ofProtocolEvent, bind, Except.bind, pure, Except.pure,
            Functor.map, Except.map]
      | requestUserInput request =>
          have reads := parseUserInputRequest_value .value (.fromRequest request) context
          simp only [Server.UserInputRequestPayload.serialize,
            Server.UserInputRequestPayload.fromRequest] at reads
          simp only [parseEventPayload, Server.ProtocolEvent.eventType,
            Server.ProtocolEvent.payload, reads]
          rfl
      | usage usage =>
          simp [parseEventPayload, Server.ProtocolEvent.eventType, Server.ProtocolEvent.payload,
            parseTokenUsage_value, ofProtocolEvent, Functor.map, Except.map]
      | messageStop =>
          simp only [parseEventPayload, Server.ProtocolEvent.eventType,
            Server.ProtocolEvent.payload, loads_struct, asMapping_dict]
          rfl

/-- An event, with what its payload is read as. -/
def ofEnvelope (envelope : ThreadEventEnvelope) (payload : EventPayload) : ThreadEvent :=
  ⟨"v1", envelope.threadId, envelope.sequence.toNat, envelope.timestampMs.toNat,
    envelope.eventType, payload, envelope.runId⟩

theorem parseThreadEvent_envelope {envelope : ThreadEventEnvelope} {payload : EventPayload}
    {context : String}
    (reads : parseEventPayload repr envelope.eventType (loads envelope.payload)
      (context ++ ".payload") = some (.ok payload)) :
    parseThreadEvent repr (loads (Serializer.text.struct envelope.fields)) context =
      .ok (ofEnvelope envelope payload) := by
  obtain ⟨threadId, runId, sequence, timestampMs, eventType, known, value⟩ := envelope
  cases runId <;>
    simp_all [parseThreadEvent, ThreadEventEnvelope.fields, parseProtocolVersion,
      assertSupportedProtocolVersion, ofEnvelope, bind, Except.bind, pure, Except.pure]

end Readers

/-! ## What the server sends -/

theorem eventType_known (event : Server.ProtocolEvent) : event.eventType ∈ eventTypes := by
  cases event with
  | assistant event => cases event <;> simp [Server.ProtocolEvent.eventType, eventTypes]
  | _ => simp [Server.ProtocolEvent.eventType, eventTypes]

/-- The envelope of `emit_protocol_event`. -/
def protocolEnvelope (serde : SerdeJson) (envelope : Server.ThreadEventEnvelope) :
    ThreadEventEnvelope where
  threadId := envelope.threadId
  runId := envelope.runId
  sequence := envelope.sequence
  timestampMs := envelope.timestampMs
  eventType := envelope.event.eventType
  known := eventType_known envelope.event
  payload := envelope.event.payload serde

def snapshotEvent (inner : Server.ThreadInner) (now : UInt64) : ThreadEventEnvelope where
  threadId := inner.id
  runId := inner.status.runId
  sequence := inner.lastSequence
  timestampMs := now
  eventType := "thread.snapshot"
  known := by decide
  payload := (Server.snapshotFromInner inner).serialize .value

/-- The record is locked twice: the snapshot is of `inner`, the sequence of `later`. -/
def threadResyncRequiredEvent (inner later : Server.ThreadInner) (now skipped : UInt64) :
    ThreadEventEnvelope where
  threadId := (Server.snapshotFromInner inner).threadId
  runId := (Server.snapshotFromInner inner).state.runId
  sequence := later.lastSequence
  timestampMs := now
  eventType := "thread.resync_required"
  known := by decide
  payload := Serializer.value.struct
    [("skipped", Server.ofU64 skipped),
      ("snapshot", (Server.snapshotFromInner inner).serialize .value)]

/-- The bodies of the thread protocol, and the events of a stream. -/
inductive Message where
  | thread (inner : Server.ThreadInner)
  | threads (records : List Server.ThreadInner)
  | turnAccepted (threadId runId : String)
  | userInputAccepted (threadId runId requestId : String)
  | snapshotEvent (inner : Server.ThreadInner) (now : UInt64)
  | resyncRequired (inner later : Server.ThreadInner) (now skipped : UInt64)
  | protocolEvent (envelope : Server.ThreadEventEnvelope)

/-- What the SDK makes of a message. -/
inductive Received where
  | thread (snapshot : ThreadSnapshot)
  | threads (response : ListThreadsResponse)
  | turnAccepted (response : TurnAcceptedResponse)
  | userInputAccepted (response : UserInputAcceptedResponse)
  | event (event : ThreadEvent)

namespace Message

/-- The records a message is made from. -/
def records : Message → List Server.ThreadInner
  | .thread inner | .snapshotEvent inner _ => [inner]
  | .threads records => records
  | .resyncRequired inner later _ _ => [inner, later]
  | .turnAccepted .. | .userInputAccepted .. | .protocolEvent _ => []

/-- What serde writes. -/
def json (serde : SerdeJson) : Message → Json
  | .thread inner => (Server.snapshotFromInner inner).serialize .text
  | .threads records => (Server.listThreads records).serialize .text
  | .turnAccepted threadId runId => (Server.turnAccepted threadId runId).serialize .text
  | .userInputAccepted threadId runId requestId =>
      (Server.userInputAccepted threadId runId requestId).serialize .text
  | .snapshotEvent inner now => Serializer.text.struct (Python.snapshotEvent inner now).fields
  | .resyncRequired inner later now skipped =>
      Serializer.text.struct (threadResyncRequiredEvent inner later now skipped).fields
  | .protocolEvent envelope => Serializer.text.struct (protocolEnvelope serde envelope).fields

/-- The reader of the SDK for this message. -/
def read (repr : String → String) (message : Message) (value : PyValue) (context : String) :
    Except ModelError Received :=
  match message with
  | .thread _ => .thread <$> parseThreadSnapshot repr value context
  | .threads _ => .threads <$> parseListThreadsResponse repr value context
  | .turnAccepted .. => .turnAccepted <$> parseTurnAcceptedResponse repr value context
  | .userInputAccepted .. =>
      .userInputAccepted <$> parseUserInputAcceptedResponse repr value context
  | .snapshotEvent .. | .resyncRequired .. | .protocolEvent _ =>
      .event <$> parseThreadEvent repr value context

/-- The same data, as the SDK models it. -/
def view (serde : SerdeJson) : Message → Received
  | .thread inner => .thread (ofSnapshot (Server.snapshotFromInner inner))
  | .threads records => .threads (ofThreads (Server.listThreads records))
  | .turnAccepted threadId runId => .turnAccepted (ofTurnAccepted (Server.turnAccepted threadId runId))
  | .userInputAccepted threadId runId requestId =>
      .userInputAccepted (ofUserInputAccepted (Server.userInputAccepted threadId runId requestId))
  | .snapshotEvent inner now =>
      .event (ofEnvelope (Python.snapshotEvent inner now)
        (.threadSnapshot (ofSnapshot (Server.snapshotFromInner inner))))
  | .resyncRequired inner later now skipped =>
      .event (ofEnvelope (threadResyncRequiredEvent inner later now skipped)
        (.threadResyncRequired skipped.toNat (ofSnapshot (Server.snapshotFromInner inner))))
  | .protocolEvent envelope =>
      .event (ofEnvelope (protocolEnvelope serde envelope) (ofProtocolEvent serde envelope.event))

end Message

/-- **Python reads every message the server sends, with the same data.** -/
theorem python_reads_server (repr : String → String) (serde : SerdeJson)
    (columns : Server.Columns) (toolRegistry : Server.ToolRegistry)
    (resolveCwd : Option String → Except Server.ApiError String)
    (load : String → Except String Server.RuntimeConfig) (message : Message)
    (reachable : ∀ inner ∈ message.records,
      Server.Workspace.Reachable columns toolRegistry resolveCwd load inner)
    (context : String) :
    message.read repr (loads (message.json serde)) context = .ok (message.view serde) := by
  cases message with
  | thread inner =>
      have served := (reachable inner List.mem_cons_self).served
      rw [Message.read, Message.json, parseThreadSnapshot_value repr .text served]
      rfl
  | threads records =>
      rw [Message.read, Message.json, parseListThreads_value]
      rfl
  | turnAccepted threadId runId =>
      rw [Message.read, Message.json, parseTurnAccepted_value]
      rfl
  | userInputAccepted threadId runId requestId =>
      rw [Message.read, Message.json, parseUserInputAccepted_value]
      rfl
  | snapshotEvent inner now =>
      have served := (reachable inner List.mem_cons_self).served
      have payload : parseEventPayload repr (snapshotEvent inner now).eventType
          (loads (snapshotEvent inner now).payload) (context ++ ".payload") =
          some (.ok (.threadSnapshot (ofSnapshot (Server.snapshotFromInner inner)))) := by
        rw [snapshotEvent, parseEventPayload, parseThreadSnapshot_value repr .value served]
        rfl
      rw [Message.read, Message.json, parseThreadEvent_envelope repr payload]
      rfl
  | resyncRequired inner later now skipped =>
      have served := (reachable inner List.mem_cons_self).served
      have snapshot := parseThreadSnapshot_value repr .value served
        (context ++ ".payload" ++ ".snapshot")
      have payload : parseEventPayload repr "thread.resync_required"
          (loads (threadResyncRequiredEvent inner later now skipped).payload)
          (context ++ ".payload") =
          some (.ok (.threadResyncRequired skipped.toNat
            (ofSnapshot (Server.snapshotFromInner inner)))) := by
        simp [parseEventPayload, threadResyncRequiredEvent, Server.ofU64, snapshot, bind,
          Except.bind, pure, Except.pure]
      rw [Message.read, Message.json, parseThreadEvent_envelope repr payload]
      rfl
  | protocolEvent envelope =>
      have payload : parseEventPayload repr (protocolEnvelope serde envelope).eventType
          (loads (protocolEnvelope serde envelope).payload) (context ++ ".payload") =
          some (.ok (ofProtocolEvent serde envelope.event)) :=
        parseEventPayload_value repr serde envelope.event (context ++ ".payload")
      rw [Message.read, Message.json, parseThreadEvent_envelope repr payload]
      rfl

/-! ## A turn that was just accepted -/

/-- A server starts, and takes a turn. -/
def firstTurn : List Server.WorkspaceAction :=
  [.loadForCwd fun _ => true, .createThread 0 Server.smallConfig true,
    .allocateRunId "thread-1", .startTurn 0 1 "go" true]

theorem python_reads_busyThread :
    let serde : SerdeJson := ⟨fun _ => .error "EOF while parsing a value", fun _ => "null"⟩
    let message : Message := .thread Server.busyThread
    message.read id (loads (message.json serde)) "thread snapshot" =
      .ok (.thread (ofSnapshot (Server.snapshotFromInner Server.busyThread))) := by
  intro serde message
  have created : Server.resolveThreadConfig Server.bareRegistry (fun _ => .ok "/workspace")
      (fun _ => .ok ⟨none, some .workspaceWrite⟩) {} = .ok Server.smallConfig := rfl
  have run : ∃ last server,
      Run (Server.Workspace.step Server.smallColumns)
        (Server.Workspace.CreatesResolved Server.bareRegistry (fun _ => .ok "/workspace")
          fun _ => .ok ⟨none, some .workspaceWrite⟩)
        (Server.Workspace.start []) firstTurn last ∧
      last.memory = some server ∧ server.threads "thread-1" = some Server.busyThread :=
    ⟨_, _, .cons trivial rfl (.cons ⟨{}, created⟩ rfl (.cons trivial rfl
      (.cons trivial rfl .nil))), rfl, rfl⟩
  obtain ⟨last, server, run, held, there⟩ := run
  apply python_reads_server id serde Server.smallColumns Server.bareRegistry
    (fun _ => .ok "/workspace") (fun _ => .ok ⟨none, some .workspaceWrite⟩) message
  intro inner member
  obtain rfl := List.mem_singleton.1 member
  exact ⟨[], firstTurn, last, server, "thread-1", run, held, there⟩

end Openyak.Sdk.Python
