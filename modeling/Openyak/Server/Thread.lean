/-
# Server.Thread -- a thread record, one critical section at a time

`ThreadInner` is what a thread's mutex guards.  Each handler's critical section
is a function on it: admit a turn, admit a user input, append a message, install
a finished run, number an event.  The sections that write the row first and take
their change back when that fails are functions to the state to be written;
`commit` decides.
-/
import Openyak.Runtime.Session
import Openyak.Runtime.Permissions

namespace Openyak.Server

open Openyak.Runtime

set_option autoImplicit false

abbrev ThreadId := String
abbrev RunId := String

structure ThreadExecutionConfig where
  cwd : String
  model : String
  permissionMode : PermissionMode
  allowedTools : List String
  deriving DecidableEq, Repr

inductive ThreadStatus where
  | idle
  | running (runId : RunId)
  | awaitingUserInput (runId : RunId) (request : UserInputRequest)
  | interrupted (runId : Option RunId) (recoveryNote : String)
  deriving DecidableEq, Repr

namespace ThreadStatus

def runId : ThreadStatus → Option RunId
  | .idle => none
  | .running runId => some runId
  | .awaitingUserInput runId _ => some runId
  | .interrupted runId _ => runId

/-- The `status` text of a snapshot. -/
def text : ThreadStatus → String
  | .idle => "idle"
  | .running _ => "running"
  | .awaitingUserInput .. => "awaiting_user_input"
  | .interrupted .. => "interrupted"

/-- A turn may start. -/
def admitsTurn : ThreadStatus → Bool
  | .idle | .interrupted .. => true
  | .running _ | .awaitingUserInput .. => false

/-- A response to this request may be submitted. -/
def admitsInput (requestId : String) : ThreadStatus → Bool
  | .awaitingUserInput _ request => request.requestId = requestId
  | .idle | .running _ | .interrupted .. => false

end ThreadStatus

structure ThreadInner where
  id : ThreadId
  createdAt : UInt64
  updatedAt : UInt64
  session : Session
  config : ThreadExecutionConfig
  status : ThreadStatus
  lastSequence : UInt64
  deriving DecidableEq, Repr

/-- Without the `details` of a conflict, which repeat the status as JSON. -/
structure ApiError where
  status : Nat
  code : String
  message : String
  deriving DecidableEq, Repr

def conflict (message : String) : ApiError := ⟨409, "conflict", message⟩

def internalError (message : String) : ApiError := ⟨500, "internal_error", message⟩

/-- `saturating_add(1)` on a `u64`. -/
def saturatingSucc (value : UInt64) : UInt64 :=
  if value = 18446744073709551615 then value else value + 1

namespace ThreadInner

/-- The record `ThreadRecord::new` writes. -/
def new (id : ThreadId) (now : UInt64) (config : ThreadExecutionConfig) : ThreadInner :=
  { id := id
    createdAt := now
    updatedAt := now
    session := {}
    config := config
    status := .idle
    lastSequence := 0 }

/-- Push a message and set the status, as both admissions do. -/
def beginRun (inner : ThreadInner) (now : UInt64) (message : ConversationMessage) (runId : RunId) :
    ThreadInner :=
  { inner with
    session := inner.session.push message
    updatedAt := now
    status := .running runId }

/-- The critical section of `start_turn`, up to the write. -/
def startTurn (inner : ThreadInner) (now : UInt64) (runId : RunId) (message : String) :
    Except ApiError ThreadInner :=
  match inner.status with
  | .idle | .interrupted .. =>
      .ok (inner.beginRun now (ConversationMessage.userText message) runId)
  | .running _ | .awaitingUserInput .. =>
      .error (conflict "thread already has an active or blocked run")

/-- The message a submitted response becomes. -/
def responseMessage (response : UserInputResponse) : ConversationMessage :=
  .userInputResponse response.requestId response.content response.selectedOption

/-- The critical section of `submit_user_input`, up to the write; the run goes on
under its id. -/
def submitUserInput (inner : ThreadInner) (now : UInt64) (response : UserInputResponse) :
    Except ApiError (RunId × ThreadInner) :=
  match inner.status with
  | .awaitingUserInput runId request =>
      if request.requestId = response.requestId then
        .ok (runId, inner.beginRun now (responseMessage response) runId)
      else
        .error (conflict ("submitted request_id `" ++ response.requestId ++
          "` does not match pending request `" ++ request.requestId ++ "`"))
  | .idle | .running _ | .interrupted .. =>
      .error (conflict "thread has no pending request-user-input item")

/-- The critical section of `append_session_message`, up to the write. -/
def appendSessionMessage (inner : ThreadInner) (now : UInt64) (message : ConversationMessage) :
    Except ApiError ThreadInner :=
  match inner.status with
  | .idle | .interrupted .. =>
      .ok { inner with session := inner.session.push message, updatedAt := now }
  | .running _ | .awaitingUserInput .. =>
      .error (conflict
        "legacy /sessions message append is unavailable while a thread run is active")

/-- The critical section of `complete_run`: it stays also when the write fails. -/
def completeRun (inner : ThreadInner) (now : UInt64) (runId : RunId) (finalSession : Session) :
    ThreadInner :=
  { inner with
    session := finalSession
    updatedAt := now
    status :=
      match finalSession.pendingUserInputRequest with
      | some request => .awaitingUserInput runId request
      | none => .idle }

/-- The critical section of `emit_protocol_event`. -/
def nextSequence (inner : ThreadInner) : ThreadInner :=
  { inner with lastSequence := saturatingSucc inner.lastSequence }

/-- Both admissions and the append: the change stays if its row was written. -/
def commit (previous next : ThreadInner) (stored : Bool) : ThreadInner :=
  if stored then next else previous

end ThreadInner

/-! ## What each section does -/

section Sections

variable {inner next : ThreadInner} {now : UInt64} {runId : RunId}

theorem startTurn_ok {message : String} (admitted : inner.startTurn now runId message = .ok next) :
    (∀ running, inner.status ≠ .running running) ∧ inner.status.admitsTurn ∧
      next = inner.beginRun now (ConversationMessage.userText message) runId := by
  unfold ThreadInner.startTurn at admitted
  split at admitted <;> simp_all [ThreadStatus.admitsTurn]

theorem startTurn_error {message : String} {refusal : ApiError}
    (refused : inner.startTurn now runId message = .error refusal) :
    inner.status.admitsTurn = false := by
  unfold ThreadInner.startTurn at refused
  split at refused <;> simp_all [ThreadStatus.admitsTurn]

theorem submitUserInput_ok {response : UserInputResponse}
    (admitted : inner.submitUserInput now response = .ok (runId, next)) :
    (∃ request, inner.status = .awaitingUserInput runId request ∧
        request.requestId = response.requestId) ∧
      next = inner.beginRun now (ThreadInner.responseMessage response) runId := by
  unfold ThreadInner.submitUserInput at admitted
  split at admitted
  · rename_i held request status
    split at admitted
    · rename_i same
      cases admitted
      exact ⟨⟨request, status, same⟩, rfl⟩
    · cases admitted
  all_goals cases admitted

theorem submitUserInput_error {response : UserInputResponse} {refusal : ApiError}
    (refused : inner.submitUserInput now response = .error refusal) :
    inner.status.admitsInput response.requestId = false := by
  unfold ThreadInner.submitUserInput at refused
  split at refused
  · split at refused <;> simp_all [ThreadStatus.admitsInput]
  all_goals simp_all [ThreadStatus.admitsInput]

theorem appendSessionMessage_ok {message : ConversationMessage}
    (appended : inner.appendSessionMessage now message = .ok next) :
    (∀ running, inner.status ≠ .running running) ∧
      next = { inner with session := inner.session.push message, updatedAt := now } := by
  unfold ThreadInner.appendSessionMessage at appended
  split at appended <;> simp_all

theorem saturatingSucc_of_lt {value : UInt64} (below : value < 18446744073709551615) :
    value < saturatingSucc value := by
  have notMax : value ≠ 18446744073709551615 := by
    rintro rfl
    exact absurd below (by decide)
  rw [saturatingSucc, if_neg notMax]
  rw [UInt64.lt_iff_toNat_lt] at below ⊢
  rw [UInt64.toNat_add]
  have one : (1 : UInt64).toNat = 1 := rfl
  have top : (18446744073709551615 : UInt64).toNat = 18446744073709551615 := rfl
  rw [top] at below
  omega

theorem saturatingSucc_le_of_lt {value bound : UInt64} (below : value < bound) :
    saturatingSucc value ≤ bound := by
  unfold saturatingSucc
  split
  · exact UInt64.le_of_lt below
  · rw [UInt64.lt_iff_toNat_lt] at below
    rw [UInt64.le_iff_toNat_le, UInt64.toNat_add]
    have one : (1 : UInt64).toNat = 1 := rfl
    omega

end Sections

end Openyak.Server
