/-
# Server.StoredRecords -- a thread record and its row, when writes fail

`start_turn`, `submit_user_input` and `append_session_message` take their change back when the
row is not written, and a refused call has changed nothing (`Handled`).  `complete_run` keeps its
change: the session of the run and its status stay in memory, the row still says that the run
goes on, and `run.failed` is all that is sent.

So in every run the row has the session and the status of the record, unless the last write
that counts is that of a completed run, and it failed (`in_step_or_behind`).
-/
import Openyak.Server.Recovery
import Openyak.Server.Events

namespace Openyak.Server

open Openyak.Runtime
open Openyak.Theory (Run play)

set_option autoImplicit false

/-! ## The record, its row, and what it sends -/

/-- What a call sends behind its critical section. -/
inductive Send where
  | legacyMessage (message : ConversationMessage)
  | protocolEvent (runId : RunId) (event : ProtocolEvent)
  deriving DecidableEq

/-- `pending` holds what each call has still to send. -/
structure StoredRecord where
  inner : ThreadInner
  row : PersistedThreadRecord
  pending : List (List Send) := []
  legacyEvents : List (ThreadId × ConversationMessage) := []
  protocolEvents : List ThreadEventEnvelope := []
  deriving DecidableEq

/-- `stored` is the result of `upsert_thread`. -/
inductive RecordAction where
  | startTurn (now : UInt64) (runId : RunId) (message : String)
      (stored : Except StateStoreError Unit)
  | submitUserInput (now : UInt64) (response : UserInputResponse)
      (stored : Except StateStoreError Unit)
  | appendSessionMessage (now : UInt64) (message : ConversationMessage)
      (stored : Except StateStoreError Unit)
  | completeRun (now : UInt64) (runId : RunId) (finalSession : Session) (optimisticLen : Nat)
      (recordedBatches : List (List AssistantEvent)) (result : Except RuntimeError TurnSummary)
      (stored : Except StateStoreError Unit)
  | send (call : Nat) (now : UInt64)
  | restart (stored : Except StateStoreError Unit)

namespace StoredRecord

variable (columns : Columns)

/-- A record whose row was just written. -/
def start (inner : ThreadInner) : StoredRecord where
  inner := inner
  row := persistedThreadFromInner columns inner

/-- The change is written, or the record is put back and the error answered. -/
def commit {α : Type} (record : StoredRecord) (next : ThreadInner) (sends : List Send) (value : α) :
    Except StateStoreError Unit → Except ApiError α × StoredRecord
  | .error error =>
      (.error (internalError error.message),
        { record with inner := record.inner.commit next false })
  | .ok () =>
      (.ok value,
        { record with
          inner := record.inner.commit next true
          row := persistedThreadFromInner columns next
          pending := record.pending ++ [sends] })

def startTurn (record : StoredRecord) (now : UInt64) (runId : RunId) (message : String)
    (stored : Except StateStoreError Unit) : Except ApiError Nat × StoredRecord :=
  match record.inner.startTurn now runId message with
  | .error refusal => (.error refusal, record)
  | .ok next =>
      record.commit columns next
        [.legacyMessage (ConversationMessage.userText message),
          .protocolEvent runId (.runStarted message)]
        next.session.messages.length stored

def submitUserInput (record : StoredRecord) (now : UInt64) (response : UserInputResponse)
    (stored : Except StateStoreError Unit) : Except ApiError (RunId × Nat) × StoredRecord :=
  match record.inner.submitUserInput now response with
  | .error refusal => (.error refusal, record)
  | .ok (runId, next) =>
      record.commit columns next
        [.legacyMessage (ThreadInner.responseMessage response),
          .protocolEvent runId (.userInputSubmitted response)]
        (runId, next.session.messages.length) stored

def appendSessionMessage (record : StoredRecord) (now : UInt64) (message : ConversationMessage)
    (stored : Except StateStoreError Unit) : Except ApiError Unit × StoredRecord :=
  match record.inner.appendSessionMessage now message with
  | .error refusal => (.error refusal, record)
  | .ok next => record.commit columns next [.legacyMessage message] () stored

/-- The change stays when the row is not written. -/
def completeRun (record : StoredRecord) (now : UInt64) (runId : RunId) (finalSession : Session)
    (optimisticLen : Nat) (recordedBatches : List (List AssistantEvent))
    (result : Except RuntimeError TurnSummary) : Except StateStoreError Unit → StoredRecord
  | .error error =>
      { record with
        inner := record.inner.completeRun now runId finalSession
        pending := record.pending ++
          [(completeRunEvents finalSession optimisticLen recordedBatches result
            (.error error.message)).map (.protocolEvent runId)] }
  | .ok () =>
      { record with
        inner := record.inner.completeRun now runId finalSession
        row := persistedThreadFromInner columns
          (record.inner.completeRun now runId finalSession)
        pending := record.pending ++
          [(finalSession.messages.drop optimisticLen).map .legacyMessage ++
            (completeRunEvents finalSession optimisticLen recordedBatches result (.ok ())).map
              (.protocolEvent runId)] }

/-- The next send of a call; an event is numbered and sent. -/
def send (record : StoredRecord) (call : Nat) (now : UInt64) : Option StoredRecord :=
  match record.pending[call]? with
  | some (.legacyMessage message :: rest) =>
      some { record with
        pending := record.pending.set call rest
        legacyEvents := record.legacyEvents ++ [(record.inner.id, message)] }
  | some (.protocolEvent runId event :: rest) =>
      let (next, envelope) := record.inner.number now runId event
      some { record with
        inner := next
        pending := record.pending.set call rest
        protocolEvents := record.protocolEvents ++ [envelope] }
  | some [] | none => none

/-- The server ends, and comes up with what the row says; it does not where the row has to be
written again and is not. -/
def restart (record : StoredRecord) (stored : Except StateStoreError Unit) : Option StoredRecord :=
  match threadInnerFromPersisted columns record.row, stored with
  | .ok (inner, true), .ok () => some (start columns inner)
  | .ok (inner, false), _ => some { inner := inner, row := record.row }
  | .ok (_, true), .error _ | .error _, _ => none

def step (record : StoredRecord) : RecordAction → Option StoredRecord
  | .startTurn now runId message stored => some (record.startTurn columns now runId message stored).2
  | .submitUserInput now response stored =>
      some (record.submitUserInput columns now response stored).2
  | .appendSessionMessage now message stored =>
      some (record.appendSessionMessage columns now message stored).2
  | .completeRun now runId finalSession optimisticLen recordedBatches result stored =>
      some (record.completeRun columns now runId finalSession optimisticLen recordedBatches result
        stored)
  | .send call now => record.send call now
  | .restart stored => record.restart columns stored

/-! ## Agreement -/

/-- The row has the session and the status of the record. -/
structure InStep (record : StoredRecord) : Prop where
  session : record.row.sessionJson = columns.session.toText record.inner.session
  status : record.row.status = record.inner.status.text
  runId : record.row.lastRunId = record.inner.status.runId
  pendingRequest : record.row.pendingRequestJson =
    record.inner.status.pendingRequest.map columns.pendingRequest.toText
  recoveryNote : record.row.recoveryNote = record.inner.status.recoveryNote

/-- What a call leaves: nothing has changed if it fails, and the row is in step if it does not. -/
structure Handled {α : Type} (record : StoredRecord)
    (outcome : Except ApiError α × StoredRecord) : Prop where
  failed : ∀ error after, outcome = (.error error, after) → after = record
  returned : ∀ value after, outcome = (.ok value, after) → InStep columns after

/-- `serde_json` reads back what it wrote in the row. -/
def ReadsBack (record : StoredRecord) : RecordAction → Prop
  | .restart _ => ∃ written, record.row = persistedThreadFromInner columns written ∧
      RoundTrips columns written
  | _ => True

/-- The row has not been written since a completed run could not be. -/
def Behind (columns : Columns) (inner : ThreadInner) (actions : List RecordAction)
    (record : StoredRecord) : Prop :=
  ∃ earlier later before now runId finalSession optimisticLen recordedBatches result error,
    actions = earlier ++ .completeRun now runId finalSession optimisticLen recordedBatches result
      (.error error) :: later ∧
    Run (step columns) (ReadsBack columns) (start columns inner) earlier before ∧
    record.row = before.row

section Calls

variable {columns} {record next : StoredRecord}

theorem inStep_written (inner : ThreadInner) (pending : List (List Send))
    (legacyEvents : List (ThreadId × ConversationMessage))
    (protocolEvents : List ThreadEventEnvelope) :
    InStep columns ⟨inner, persistedThreadFromInner columns inner, pending, legacyEvents,
      protocolEvents⟩ :=
  ⟨rfl, rfl, rfl, rfl, rfl⟩

theorem handled_refused {α : Type} (refusal : ApiError) :
    Handled columns record ((.error refusal, record) : Except ApiError α × StoredRecord) where
  failed error after same := (Prod.mk.inj same).2.symm
  returned value after same := by cases same

theorem handled_commit {α : Type} (inner : ThreadInner) (sends : List Send) (value : α)
    (stored : Except StateStoreError Unit) :
    Handled columns record (record.commit columns inner sends value stored) := by
  cases stored with
  | error error =>
      constructor
      · intro _ after same
        exact (Prod.mk.inj same).2.symm
      · intro value after same
        cases same
  | ok =>
      constructor
      · intro error after same
        cases same
      · intro _ after same
        rw [← (Prod.mk.inj same).2]
        exact inStep_written inner _ _ _

theorem handled_startTurn (now : UInt64) (runId : RunId) (message : String)
    (stored : Except StateStoreError Unit) :
    Handled columns record (record.startTurn columns now runId message stored) := by
  unfold startTurn
  split
  · exact handled_refused _
  · exact handled_commit _ _ _ _

theorem handled_submitUserInput (now : UInt64) (response : UserInputResponse)
    (stored : Except StateStoreError Unit) :
    Handled columns record (record.submitUserInput columns now response stored) := by
  unfold submitUserInput
  split
  · exact handled_refused _
  · exact handled_commit _ _ _ _

theorem handled_appendSessionMessage (now : UInt64) (message : ConversationMessage)
    (stored : Except StateStoreError Unit) :
    Handled columns record (record.appendSessionMessage columns now message stored) := by
  unfold appendSessionMessage
  split
  · exact handled_refused _
  · exact handled_commit _ _ _ _

theorem Handled.inStep_or_same {α : Type} {outcome : Except ApiError α × StoredRecord}
    (handled : Handled columns record outcome) :
    InStep columns outcome.2 ∨ outcome.2 = record := by
  cases result : outcome.1 with
  | error error => exact Or.inr (handled.failed error outcome.2 (Prod.ext result rfl))
  | ok value => exact Or.inl (handled.returned value outcome.2 (Prod.ext result rfl))

theorem completeRun_ok (now : UInt64) (runId : RunId) (finalSession : Session)
    (optimisticLen : Nat) (recordedBatches : List (List AssistantEvent))
    (result : Except RuntimeError TurnSummary) :
    InStep columns (record.completeRun columns now runId finalSession optimisticLen
      recordedBatches result (.ok ())) :=
  inStep_written _ _ _ _

/-- The row of a run that goes on is not that of its end. -/
theorem completeRun_error_apart {running : RunId} (inStep : InStep columns record)
    (isRunning : record.inner.status = .running running) (now : UInt64) (runId : RunId)
    (finalSession : Session) (optimisticLen : Nat) (recordedBatches : List (List AssistantEvent))
    (result : Except RuntimeError TurnSummary) (error : StateStoreError) :
    ¬InStep columns (record.completeRun columns now runId finalSession optimisticLen
      recordedBatches result (.error error)) := by
  intro after
  have same : record.row.status = (record.inner.completeRun now runId finalSession).status.text :=
    after.status
  rw [inStep.status, isRunning, ThreadInner.completeRun] at same
  cases pending : finalSession.pendingUserInputRequest with
  | none => simp [pending, ThreadStatus.text] at same
  | some request => simp [pending, ThreadStatus.text] at same

/-! ### Restarts -/

/-- What a restart leaves as it was has the status that was written. -/
theorem recoveredStatus_kept {inner : ThreadInner} {sessionPending : Option UserInputRequest}
    {status : ThreadStatus}
    (recovered : recoveredStatusFromPersisted (persistedThreadFromInner columns inner)
      inner.status.pendingRequest sessionPending = .ok (status, false)) :
    status = inner.status := by
  simp only [persistedThreadFromInner, recoveredStatusFromPersisted] at recovered
  cases held : inner.status with
  | idle =>
      simp only [held, ThreadStatus.text] at recovered
      cases sessionPending with
      | none => simpa using recovered.symm
      | some request => simp at recovered
  | running runId => simp [held, ThreadStatus.text] at recovered
  | awaitingUserInput runId request =>
      simp only [held, ThreadStatus.text, ThreadStatus.runId, ThreadStatus.pendingRequest]
        at recovered
      cases sessionPending with
      | none => simp at recovered
      | some actual =>
          by_cases same : request = actual
          · simpa [same] using recovered.symm
          · simp [same] at recovered
  | interrupted runId note =>
      simpa [held, ThreadStatus.text, ThreadStatus.runId, ThreadStatus.recoveryNote]
        using recovered.symm

theorem restart_inStep {stored : Except StateStoreError Unit}
    (reads : ReadsBack columns record (.restart stored))
    (restarts : record.restart columns stored = some next) : InStep columns next := by
  unfold restart at restarts
  split at restarts
  · cases restarts
    exact inStep_written _ _ _ _
  · rename_i inner read
    cases restarts
    obtain ⟨written, isRow, trips⟩ := reads
    obtain ⟨pending, readFrom⟩ := threadInnerFromPersisted_ok read
    rw [isRow] at readFrom
    have requests := (decodePendingRequestPayload_written trips).symm.trans readFrom.request
    have sessions := readFrom.session
    simp only [decodeRecoveredSession, persistedThreadFromInner, trips.session] at sessions
    have session : written.session = inner.session := Except.ok.inj sessions
    have status : inner.status = written.status := by
      have recovered := readFrom.status
      rw [← Except.ok.inj requests] at recovered
      exact recoveredStatus_kept recovered
    constructor
    · show record.row.sessionJson = columns.session.toText inner.session
      rw [isRow, ← session]
      rfl
    all_goals
      show _ = _
      simp only [isRow, status]
      rfl
  · cases restarts
  · cases restarts

/-! ### Steps and runs -/

/-- A step leaves the row in step, or row, session and status as they were, or it is a completed
run that is not written. -/
theorem step_effect {action : RecordAction} (reads : ReadsBack columns record action)
    (steps : step columns record action = some next) :
    InStep columns next ∨
      (next.row = record.row ∧ next.inner.session = record.inner.session ∧
        next.inner.status = record.inner.status) ∨
      (next.row = record.row ∧ ∃ now runId finalSession optimisticLen recordedBatches result error,
        action = .completeRun now runId finalSession optimisticLen recordedBatches result
          (.error error)) := by
  have kept : next = record → next.row = record.row ∧ next.inner.session = record.inner.session ∧
      next.inner.status = record.inner.status := by
    rintro rfl
    exact ⟨rfl, rfl, rfl⟩
  cases action with
  | startTurn now runId message stored =>
      cases steps
      exact (handled_startTurn now runId message stored).inStep_or_same.imp_right
        fun same => Or.inl (kept same)
  | submitUserInput now response stored =>
      cases steps
      exact (handled_submitUserInput now response stored).inStep_or_same.imp_right
        fun same => Or.inl (kept same)
  | appendSessionMessage now message stored =>
      cases steps
      exact (handled_appendSessionMessage now message stored).inStep_or_same.imp_right
        fun same => Or.inl (kept same)
  | completeRun now runId finalSession optimisticLen recordedBatches result stored =>
      cases steps
      cases stored with
      | ok => exact Or.inl (completeRun_ok ..)
      | error error => exact Or.inr (Or.inr ⟨rfl, _, _, _, _, _, _, _, rfl⟩)
  | send call now =>
      refine Or.inr (Or.inl ?_)
      simp only [step, send] at steps
      split at steps
      · cases steps
        exact ⟨rfl, rfl, rfl⟩
      · cases steps
        exact ⟨rfl, rfl, rfl⟩
      · cases steps
      · cases steps
  | restart stored => exact Or.inl (restart_inStep reads steps)

theorem InStep.congr (inStep : InStep columns record) (row : next.row = record.row)
    (session : next.inner.session = record.inner.session)
    (status : next.inner.status = record.inner.status) : InStep columns next := by
  obtain ⟨sameSession, sameStatus, sameRun, sameRequest, sameNote⟩ := inStep
  constructor <;> rw [row]
  · rw [session, sameSession]
  · rw [status, sameStatus]
  · rw [status, sameRun]
  · rw [status, sameRequest]
  · rw [status, sameNote]

end Calls

/-- **Row and record are in step in every run**, but for a completed run whose write failed and
behind which nothing was written yet. -/
theorem in_step_or_behind {columns : Columns} {inner : ThreadInner} {actions : List RecordAction}
    {record : StoredRecord}
    (run : Run (step columns) (ReadsBack columns) (start columns inner) actions record) :
    InStep columns record ∨ Behind columns inner actions record := by
  induction run with
  | nil => exact Or.inl (inStep_written _ _ _ _)
  | @snoc actions action middle last earlier reads steps ih =>
      rcases step_effect reads steps with written | ⟨row, session, status⟩ |
        ⟨row, now, runId, finalSession, optimisticLen, recordedBatches, result, error, rfl⟩
      · exact Or.inl written
      · rcases ih with inStep | behind
        · exact Or.inl (inStep.congr row session status)
        · obtain ⟨front, later, before, now, runId, finalSession, optimisticLen, recordedBatches,
            result, error, rfl, started, same⟩ := behind
          refine Or.inr ⟨front, later ++ [action], before, now, runId, finalSession, optimisticLen,
            recordedBatches, result, error, ?_, started, row.trans same⟩
          simp
      · exact Or.inr ⟨actions, [], middle, now, runId, finalSession, optimisticLen,
          recordedBatches, result, error, rfl, earlier, row⟩

/-- **A call that fails changes nothing, and a row that is written is in step**; only a completed
run whose write fails leaves the record without its row, and sends `run.failed` alone. -/
theorem failed_calls_change_nothing (columns : Columns) (inner : ThreadInner)
    (actions : List RecordAction) (record : StoredRecord)
    (run : Run (step columns) (ReadsBack columns) (start columns inner) actions record) :
    (∀ now runId message stored,
        Handled columns record (record.startTurn columns now runId message stored)) ∧
      (∀ now response stored,
        Handled columns record (record.submitUserInput columns now response stored)) ∧
      (∀ now message stored,
        Handled columns record (record.appendSessionMessage columns now message stored)) ∧
      (∀ now runId finalSession optimisticLen recordedBatches result,
        InStep columns (record.completeRun columns now runId finalSession optimisticLen
          recordedBatches result (.ok ())) ∧
        ∀ error, record.completeRun columns now runId finalSession optimisticLen recordedBatches
            result (.error error) =
          { record with
            inner := record.inner.completeRun now runId finalSession
            pending := record.pending ++
              [[.protocolEvent runId (.runFailed "storage_error" error.message)]] }) ∧
      (InStep columns record ∨ Behind columns inner actions record) :=
  ⟨handled_startTurn, handled_submitUserInput, handled_appendSessionMessage,
    fun now runId finalSession optimisticLen recordedBatches result =>
      ⟨completeRun_ok now runId finalSession optimisticLen recordedBatches result,
        fun _ => rfl⟩,
    in_step_or_behind run⟩

/-! ## A table that is gone when the run ends -/

def newThread : ThreadInner := .new "thread-1" 0 smallConfig

def turnStarted : RecordAction := .startTurn 1 "run-1" "go" (.ok ())

/-- The run added nothing to the session of the turn. -/
def turnUnsaved : RecordAction :=
  .completeRun 2 "run-1" goSession 1 [] (.ok ⟨[], [], 1, {}⟩) (.error ⟨"no such table: threads"⟩)

def startedRecord : StoredRecord :=
  ((start smallColumns newThread).startTurn smallColumns 1 "run-1" "go" (.ok ())).2

theorem turnStarted_run : Run (step smallColumns) (ReadsBack smallColumns)
    (start smallColumns newThread) [turnStarted] startedRecord :=
  .snoc .nil trivial rfl

/-- The record is idle when `complete_run` returns, and its row says that the run goes on. -/
theorem turnUnsaved_apart : ∃ record,
    Run (step smallColumns) (ReadsBack smallColumns) (start smallColumns newThread)
      [turnStarted, turnUnsaved] record ∧
    record.inner.status = .idle ∧ record.row.status = "running" ∧ ¬InStep smallColumns record := by
  have inStep : InStep smallColumns startedRecord := inStep_written _ _ _ _
  exact ⟨_, .snoc turnStarted_run trivial rfl, rfl, rfl,
    completeRun_error_apart inStep rfl 2 "run-1" goSession 1 [] (.ok ⟨[], [], 1, {}⟩)
      ⟨"no such table: threads"⟩⟩

/-- The turn is interrupted by a restart, which is written; an append that is not written then
leaves the record as it was. -/
theorem failed_calls_change_nothing_restart : ∃ record,
    Run (step smallColumns) (ReadsBack smallColumns) (start smallColumns newThread)
      [turnStarted, .restart (.ok ())] record ∧
    Handled smallColumns record (record.appendSessionMessage smallColumns 3
      (ConversationMessage.userText "more") (.error ⟨"disk I/O error"⟩)) ∧
    (InStep smallColumns record ∨
      Behind smallColumns newThread [turnStarted, .restart (.ok ())] record) := by
  have reads : ReadsBack smallColumns startedRecord (.restart (.ok ())) :=
    ⟨busyThread, rfl, busyThread_roundTrips⟩
  have run := Run.snoc turnStarted_run reads
    (show step smallColumns startedRecord (.restart (.ok ())) =
      some (start smallColumns busyThread.recovered) from rfl)
  have handled := failed_calls_change_nothing smallColumns newThread _ _ run
  exact ⟨_, run, handled.2.2.1 3 _ _, handled.2.2.2.2⟩

end StoredRecord

end Openyak.Server
