/-
# Server.Persistence -- the row of a thread, and what a restart makes of it

A record is stored as one row of the `threads` table.  Three of its columns hold
JSON, written and read by `serde_json` through derived code: `Columns` is what
the program calls of the two, at the types it calls them at.

A row keeps the status as a text.  `recoveredStatusFromPersisted` turns it back:
a run that was going on when the server ended comes back interrupted, and the row
is then written again.
-/
import Openyak.Server.Thread
import Openyak.Theory.Text
import Mathlib.Data.List.Sort
import Mathlib.Data.List.Dedup

namespace Openyak.Server

open Openyak.Runtime
open Openyak.Theory

set_option autoImplicit false

/-! ## Rows -/

structure PersistedThreadRecord where
  threadId : ThreadId
  createdAtMs : UInt64
  updatedAtMs : UInt64
  cwd : String
  model : String
  permissionMode : String
  allowedToolsJson : String
  status : String
  lastRunId : Option RunId
  lastSequence : UInt64
  sessionJson : String
  pendingRequestJson : Option String
  recoveryNote : Option String
  deriving DecidableEq, Repr

structure StateStoreError where
  message : String
  deriving DecidableEq, Repr

/-- `serde_json::to_string` and `serde_json::from_str` at one type. -/
structure Column (α : Type) where
  toText : α → String
  fromStr : String → Except String α

/-- A `UserInputRequestPayload` has the four fields of the request it is made from. -/
structure Columns where
  allowedTools : Column (List String)
  session : Column Session
  pendingRequest : Column UserInputRequest

/-! ## Writing -/

def ThreadStatus.pendingRequest : ThreadStatus → Option UserInputRequest
  | .awaitingUserInput _ request => some request
  | .idle | .running _ | .interrupted .. => none

def ThreadStatus.recoveryNote : ThreadStatus → Option String
  | .interrupted _ recoveryNote => some recoveryNote
  | .idle | .running _ | .awaitingUserInput .. => none

def persistedThreadFromInner (columns : Columns) (inner : ThreadInner) : PersistedThreadRecord :=
  { threadId := inner.id
    createdAtMs := inner.createdAt
    updatedAtMs := inner.updatedAt
    cwd := inner.config.cwd
    model := inner.config.model
    permissionMode := inner.config.permissionMode.asStr
    allowedToolsJson := columns.allowedTools.toText inner.config.allowedTools
    status := inner.status.text
    lastRunId := inner.status.runId
    lastSequence := inner.lastSequence
    sessionJson := columns.session.toText inner.session
    pendingRequestJson := inner.status.pendingRequest.map columns.pendingRequest.toText
    recoveryNote := inner.status.recoveryNote }

/-! ## Reading -/

def badRequest (message : String) : ApiError := ⟨400, "invalid_request", message⟩

def parseServerPermissionMode (value : String) : Except ApiError PermissionMode :=
  match String.ofList (Text.trim value.toList) with
  | "read-only" => .ok .readOnly
  | "workspace-write" => .ok .workspaceWrite
  | "danger-full-access" => .ok .dangerFullAccess
  | "prompt" => .error (badRequest
      "permission mode `prompt` is not supported on the server thread protocol surface")
  | "allow" => .error (badRequest
      "permission mode `allow` is not supported on the server thread protocol surface")
  | other => .error (badRequest ("unsupported permission mode `" ++ other ++ "`"))

/-- The `BTreeSet` of a list of names. -/
def nameSet (names : List String) : List String := names.dedup.insertionSort (· ≤ ·)

def decodeFailure (what : String) (persisted : PersistedThreadRecord) (error : String) :
    StateStoreError :=
  ⟨"failed to decode " ++ what ++ " for thread `" ++ persisted.threadId ++ "`: " ++ error⟩

def decodeAllowedTools (columns : Columns) (persisted : PersistedThreadRecord) :
    Except StateStoreError (List String) :=
  match columns.allowedTools.fromStr persisted.allowedToolsJson with
  | .ok values => .ok (nameSet values)
  | .error error => .error (decodeFailure "allowed tools" persisted error)

def decodeRecoveredSession (columns : Columns) (persisted : PersistedThreadRecord) :
    Except StateStoreError Session :=
  match columns.session.fromStr persisted.sessionJson with
  | .ok session => .ok session
  | .error error => .error (decodeFailure "session snapshot" persisted error)

def decodePendingRequestPayload (columns : Columns) (persisted : PersistedThreadRecord) :
    Except StateStoreError (Option UserInputRequest) :=
  match persisted.pendingRequestJson with
  | none => .ok none
  | some text =>
      match columns.pendingRequest.fromStr text with
      | .ok request => .ok (some request)
      | .error error => .error (decodeFailure "pending request" persisted error)

/-- The status of a recovered record, and whether its row has to be written again. -/
def recoveredStatusFromPersisted (persisted : PersistedThreadRecord)
    (pendingRequest sessionPending : Option UserInputRequest) :
    Except StateStoreError (ThreadStatus × Bool) :=
  match persisted.status with
  | "idle" =>
      match sessionPending with
      | none => .ok (.idle, false)
      | some _ => .ok (.interrupted persisted.lastRunId
          "recovered idle thread snapshot still contained pending user input", true)
  | "running" => .ok (.interrupted persisted.lastRunId
      "previous run ended during server restart or shutdown", true)
  | "awaiting_user_input" =>
      let mismatch := (ThreadStatus.interrupted persisted.lastRunId
        "recovered pending user input did not match the durable session snapshot", true)
      match persisted.lastRunId, pendingRequest, sessionPending with
      | some runId, some expected, some actual =>
          if expected = actual then .ok (.awaitingUserInput runId expected, false)
          else .ok mismatch
      | _, _, _ => .ok mismatch
  | "interrupted" => .ok (.interrupted persisted.lastRunId
      (persisted.recoveryNote.getD "thread requires recovery after prior interruption"), false)
  | other => .error ⟨"unsupported persisted thread status `" ++ other ++ "` for thread `" ++
      persisted.threadId ++ "`"⟩

def threadInnerFromPersisted (columns : Columns) (persisted : PersistedThreadRecord) :
    Except StateStoreError (ThreadInner × Bool) := do
  let allowedTools ← decodeAllowedTools columns persisted
  let session ← decodeRecoveredSession columns persisted
  let pendingRequest ← decodePendingRequestPayload columns persisted
  let (status, needsRewrite) ←
    recoveredStatusFromPersisted persisted pendingRequest session.pendingUserInputRequest
  match parseServerPermissionMode persisted.permissionMode with
  | .error error =>
      .error ⟨"failed to decode permission mode for recovered thread: " ++ error.message⟩
  | .ok permissionMode =>
      .ok ({ id := persisted.threadId
             createdAt := persisted.createdAtMs
             updatedAt := persisted.updatedAtMs
             session := session
             config := ⟨persisted.cwd, persisted.model, permissionMode, allowedTools⟩
             status := status
             lastSequence := persisted.lastSequence }, needsRewrite)

/-! ## What a restart keeps -/

section Recovery

variable {columns : Columns} {persisted : PersistedThreadRecord} {inner : ThreadInner}
  {needsRewrite : Bool}

/-- What a record read from a row has from it. -/
structure ReadFrom (columns : Columns) (persisted : PersistedThreadRecord) (inner : ThreadInner)
    (needsRewrite : Bool) (pending : Option UserInputRequest) : Prop where
  tools : decodeAllowedTools columns persisted = .ok inner.config.allowedTools
  session : decodeRecoveredSession columns persisted = .ok inner.session
  request : decodePendingRequestPayload columns persisted = .ok pending
  status : recoveredStatusFromPersisted persisted pending inner.session.pendingUserInputRequest =
    .ok (inner.status, needsRewrite)
  mode : parseServerPermissionMode persisted.permissionMode = .ok inner.config.permissionMode
  id : inner.id = persisted.threadId
  sequence : inner.lastSequence = persisted.lastSequence

/-- The parts of a successful recovery. -/
theorem threadInnerFromPersisted_ok
    (recovered : threadInnerFromPersisted columns persisted = .ok (inner, needsRewrite)) :
    ∃ pending, ReadFrom columns persisted inner needsRewrite pending := by
  unfold threadInnerFromPersisted at recovered
  cases tools : decodeAllowedTools columns persisted with
  | error _ => simp [tools, bind, Except.bind] at recovered
  | ok allowedTools =>
  cases sessions : decodeRecoveredSession columns persisted with
  | error _ => simp [tools, sessions, bind, Except.bind] at recovered
  | ok session =>
  cases requests : decodePendingRequestPayload columns persisted with
  | error _ => simp [tools, sessions, requests, bind, Except.bind] at recovered
  | ok pending =>
  cases statuses : recoveredStatusFromPersisted persisted pending
      session.pendingUserInputRequest with
  | error _ => simp [tools, sessions, requests, statuses, bind, Except.bind] at recovered
  | ok status =>
  cases modes : parseServerPermissionMode persisted.permissionMode with
  | error _ => simp [tools, sessions, requests, statuses, modes, bind, Except.bind] at recovered
  | ok permissionMode =>
      simp only [tools, sessions, requests, statuses, modes, bind, Except.bind,
        Except.ok.injEq, Prod.mk.injEq] at recovered
      obtain ⟨rfl, rfl⟩ := recovered
      exact ⟨pending, tools, sessions, requests, statuses, modes, rfl, rfl⟩

end Recovery

/-! ## The columns of a small thread -/

/-- A column known at a few values. -/
def Column.ofTable {α : Type} [DecidableEq α] (table : List (α × String)) : Column α where
  toText value := ((table.find? fun entry => entry.1 = value).map Prod.snd).getD ""
  fromStr text :=
    match table.find? fun entry => entry.2 = text with
    | some entry => .ok entry.1
    | none => .error "EOF while parsing a value at line 1 column 0"

def smallConfig : ThreadExecutionConfig := ⟨"/workspace", "opus", .workspaceWrite, []⟩

def goSession : Session := Session.push {} (ConversationMessage.userText "go")

/-- What `serde_json` makes of no tools, the empty session, and one message. -/
def smallColumns : Columns where
  allowedTools := .ofTable [([], "[]")]
  session := .ofTable [
    ({}, "\x7b\"version\":1,\"messages\":[]\x7d"),
    (goSession, "\x7b\"version\":1,\"messages\":[\x7b\"role\":\"user\",\"blocks\":" ++
      "[\x7b\"type\":\"text\",\"text\":\"go\"\x7d],\"usage\":null\x7d]\x7d")]
  pendingRequest := .ofTable []

/-- A new thread comes back as it was, and its row is not written again. -/
example : threadInnerFromPersisted smallColumns
    (persistedThreadFromInner smallColumns (.new "thread-1" 7 smallConfig)) =
      .ok (.new "thread-1" 7 smallConfig, false) := rfl

end Openyak.Server
