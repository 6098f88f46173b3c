/-
# Server.Recovery -- what a restart makes of a thread is the thread

In every state a thread's record reaches, its status says what its session says: it
awaits a request exactly when that request is the session's pending one, and is idle
only if there is none (`StatusMatches`).  So the row of a record reads back as the
record, with a run that was going on turned into an interruption, and what was read
back reads back as itself.

The `serde_json` side of the three columns enters as `RoundTrips`, at the record.
-/
import Openyak.Server.Sequence
import Openyak.Server.ThreadConfig

namespace Openyak.Server

open Openyak.Runtime
open Openyak.Theory (Run play)

set_option autoImplicit false

/-! ## The invariant -/

structure StatusMatches (inner : ThreadInner) : Prop where
  awaiting : ∀ runId request, inner.status = .awaitingUserInput runId request →
    inner.session.pendingUserInputRequest = some request
  idle : inner.status = .idle → inner.session.pendingUserInputRequest = none

structure Durable (inner : ThreadInner) : Prop where
  config : ServedConfig inner.config
  status : StatusMatches inner

section Invariant

variable {inner : ThreadInner}

theorem awaiting_push_userText (session : Session) (text : String) :
    (session.push (ConversationMessage.userText text)).pendingUserInputRequest =
      session.pendingUserInputRequest := by
  simp [Session.pendingUserInputRequest, Session.push, awaiting, ConversationMessage.userText,
    awaitBlock]

/-- While a run goes on, or is interrupted, the status says nothing about the session. -/
theorem statusMatches_of_busy (busy : inner.status ≠ .idle)
    (working : ∀ runId request, inner.status ≠ .awaitingUserInput runId request) :
    StatusMatches inner where
  awaiting runId request held := absurd held (working runId request)
  idle held := absurd held busy

theorem durable_new (id : ThreadId) (now : UInt64) {config : ThreadExecutionConfig}
    (served : ServedConfig config) : Durable (.new id now config) where
  config := served
  status := { awaiting := nofun, idle := fun _ => rfl }

theorem durable_beginRun (durable : Durable inner) (now : UInt64) (message : ConversationMessage)
    (runId : RunId) : Durable (inner.beginRun now message runId) where
  config := durable.config
  status := statusMatches_of_busy nofun nofun

theorem durable_appendText (durable : Durable inner) (now : UInt64) (text : String) :
    Durable { inner with
      session := inner.session.push (ConversationMessage.userText text), updatedAt := now } where
  config := durable.config
  status :=
    { awaiting := fun runId request held => by
        rw [awaiting_push_userText]
        exact durable.status.awaiting runId request held
      idle := fun held => by
        rw [awaiting_push_userText]
        exact durable.status.idle held }

theorem durable_completeRun (durable : Durable inner) (now : UInt64) (runId : RunId)
    (finalSession : Session) : Durable (inner.completeRun now runId finalSession) := by
  refine ⟨durable.config, ?_⟩
  cases pending : finalSession.pendingUserInputRequest with
  | none =>
      constructor
      · intro runId' request held
        simp [ThreadInner.completeRun, pending] at held
      · intro _
        exact pending
  | some request =>
      constructor
      · intro runId' request' held
        simp only [ThreadInner.completeRun, pending, ThreadStatus.awaitingUserInput.injEq] at held
        obtain ⟨-, rfl⟩ := held
        exact pending
      · intro held
        simp [ThreadInner.completeRun, pending] at held

theorem durable_nextSequence (durable : Durable inner) : Durable inner.nextSequence :=
  ⟨durable.config, ⟨durable.status.awaiting, durable.status.idle⟩⟩

end Invariant

/-! ## Every row that reads back -/

section Reading

variable {columns : Columns} {persisted : PersistedThreadRecord} {inner : ThreadInner}
  {needsRewrite : Bool}

theorem decodeAllowedTools_increasing {names : List String}
    (decoded : decodeAllowedTools columns persisted = .ok names) : names.Pairwise (· < ·) := by
  unfold decodeAllowedTools at decoded
  split at decoded <;> cases decoded
  exact nameSet_increasing _

theorem recoveredStatus_matches {pending sessionPending : Option UserInputRequest}
    {status : ThreadStatus}
    (recovered : recoveredStatusFromPersisted persisted pending sessionPending =
      .ok (status, needsRewrite)) :
    (∀ runId request, status = .awaitingUserInput runId request →
        sessionPending = some request) ∧
      (status = .idle → sessionPending = none) := by
  unfold recoveredStatusFromPersisted at recovered
  split at recovered
  · split at recovered <;> cases recovered
    · exact ⟨nofun, fun _ => rfl⟩
    · exact ⟨nofun, nofun⟩
  · cases recovered
    exact ⟨nofun, nofun⟩
  · dsimp only at recovered
    split at recovered
    · split at recovered <;> cases recovered
      · rename_i same
        subst same
        refine ⟨fun runId request held => ?_, nofun⟩
        cases held
        rfl
      · exact ⟨nofun, nofun⟩
    · cases recovered
      exact ⟨nofun, nofun⟩
  · cases recovered
    exact ⟨nofun, nofun⟩
  · cases recovered

/-- Whatever the row, the record made of it is durable. -/
theorem threadInnerFromPersisted_durable
    (recovered : threadInnerFromPersisted columns persisted = .ok (inner, needsRewrite)) :
    Durable inner := by
  obtain ⟨pending, parts⟩ := threadInnerFromPersisted_ok recovered
  obtain ⟨awaits, idles⟩ := recoveredStatus_matches parts.status
  refine ⟨⟨?_, ?_⟩, awaits, idles⟩
  · exact parseServerPermissionMode_served parts.mode
  · exact decodeAllowedTools_increasing parts.tools

end Reading

/-! ## Every state of a thread -/

namespace Numbering

/-- The program appends texts of the user's, and nothing else. -/
def AppendsText (_ : Numbering) : NumberingAction → Prop
  | .appendSessionMessage _ message _ => ∃ text, message = ConversationMessage.userText text
  | _ => True

/-- The record in memory is durable. -/
def HeldDurable (state : Numbering) : Prop := ∀ inner, state.memory = some inner → Durable inner

section Steps

variable {columns : Columns} {state next : Numbering} {action : NumberingAction}

theorem heldDurable_commit {inner after : ThreadInner} (before : Durable inner)
    (changed : Durable after) (stored : Bool) :
    HeldDurable (state.commit columns inner after stored) := by
  intro held isHeld
  cases stored with
  | true =>
      cases isHeld
      exact changed
  | false =>
      cases isHeld
      exact before

/-- **One step** keeps the record durable. -/
theorem heldDurable_step (durable : HeldDurable state) (texts : AppendsText state action)
    (steps : step columns state action = some next) : HeldDurable next := by
  unfold step at steps
  split at steps
  · rename_i inner now runId message stored running
    have before := durable inner running
    cases admitted : inner.startTurn now runId message with
    | error refusal =>
        rw [admitted] at steps
        cases steps
        exact durable
    | ok after =>
        rw [admitted] at steps
        cases steps
        obtain ⟨-, -, rfl⟩ := startTurn_ok admitted
        exact heldDurable_commit before (durable_beginRun before now _ runId) stored
  · rename_i inner now response stored running
    have before := durable inner running
    cases admitted : inner.submitUserInput now response with
    | error refusal =>
        rw [admitted] at steps
        cases steps
        exact durable
    | ok reply =>
        obtain ⟨runId, after⟩ := reply
        rw [admitted] at steps
        cases steps
        obtain ⟨-, rfl⟩ := submitUserInput_ok admitted
        exact heldDurable_commit before (durable_beginRun before now _ runId) stored
  · rename_i inner now message stored running
    have before := durable inner running
    obtain ⟨text, rfl⟩ := texts
    cases appended : inner.appendSessionMessage now (ConversationMessage.userText text) with
    | error refusal =>
        rw [appended] at steps
        cases steps
        exact durable
    | ok after =>
        rw [appended] at steps
        cases steps
        obtain ⟨-, rfl⟩ := appendSessionMessage_ok appended
        exact heldDurable_commit before (durable_appendText before now text) stored
  · rename_i inner now runId finalSession stored running
    cases steps
    intro held isHeld
    cases isHeld
    exact durable_completeRun (durable inner running) now runId finalSession
  · rename_i inner running
    cases steps
    intro held isHeld
    cases isHeld
    exact durable_nextSequence (durable inner running)
  · cases steps
    exact nofun
  · rename_i stored opened stopped
    cases steps
    unfold load
    split
    · exact durable
    · rename_i inner needsRewrite recovered
      split
      · exact durable
      · intro held isHeld
        cases opened with
        | true =>
            cases isHeld
            exact threadInnerFromPersisted_durable recovered
        | false => cases isHeld
  · cases steps

end Steps

end Numbering

/-! ## The round trip -/

/-- What `serde_json` is asked for: the three values of this record that are written as
JSON are read back. -/
structure RoundTrips (columns : Columns) (inner : ThreadInner) : Prop where
  allowedTools : columns.allowedTools.fromStr
    (columns.allowedTools.toText inner.config.allowedTools) = .ok inner.config.allowedTools
  session : columns.session.fromStr (columns.session.toText inner.session) = .ok inner.session
  pendingRequest : ∀ request, inner.status.pendingRequest = some request →
    columns.pendingRequest.fromStr (columns.pendingRequest.toText request) = .ok request

/-- The status a restart leaves. -/
def ThreadStatus.recovered : ThreadStatus → ThreadStatus
  | .running runId =>
      .interrupted (some runId) "previous run ended during server restart or shutdown"
  | status => status

def ThreadStatus.isRunning : ThreadStatus → Bool
  | .running _ => true
  | .idle | .awaitingUserInput .. | .interrupted .. => false

def ThreadInner.recovered (inner : ThreadInner) : ThreadInner :=
  { inner with status := inner.status.recovered }

section RoundTrip

variable {columns : Columns} {inner : ThreadInner}

theorem recovered_recovered (inner : ThreadInner) : inner.recovered.recovered = inner.recovered := by
  obtain ⟨_, _, _, _, _, status, _⟩ := inner
  cases status <;> rfl

theorem recovered_not_running (status : ThreadStatus) : status.recovered.isRunning = false := by
  cases status <;> rfl

theorem durable_recovered (durable : Durable inner) : Durable inner.recovered := by
  refine ⟨durable.config, ?_⟩
  obtain ⟨_, _, _, _, _, status, _⟩ := inner
  cases status with
  | idle => exact durable.status
  | running runId => exact statusMatches_of_busy nofun nofun
  | awaitingUserInput runId request => exact durable.status
  | interrupted runId note => exact durable.status

theorem roundTrips_recovered (trips : RoundTrips columns inner) :
    RoundTrips columns inner.recovered := by
  refine ⟨trips.allowedTools, trips.session, fun request held => trips.pendingRequest request ?_⟩
  obtain ⟨_, _, _, _, _, status, _⟩ := inner
  cases status with
  | running runId => cases held
  | idle => exact held
  | awaitingUserInput runId request => exact held
  | interrupted runId note => exact held

theorem decodePendingRequestPayload_written (trips : RoundTrips columns inner) :
    decodePendingRequestPayload columns (persistedThreadFromInner columns inner) =
      .ok inner.status.pendingRequest := by
  unfold decodePendingRequestPayload persistedThreadFromInner
  cases pending : inner.status.pendingRequest with
  | none => rfl
  | some request =>
      simp only [Option.map_some]
      rw [trips.pendingRequest request pending]

/-- The status column and the three optional ones bring the status back. -/
theorem recoveredStatus_written (durable : Durable inner) :
    recoveredStatusFromPersisted (persistedThreadFromInner columns inner)
        inner.status.pendingRequest inner.session.pendingUserInputRequest =
      .ok (inner.status.recovered, inner.status.isRunning) := by
  obtain ⟨id, createdAt, updatedAt, session, config, status, lastSequence⟩ := inner
  cases status with
  | idle =>
      have idle := durable.status.idle rfl
      dsimp only at idle ⊢
      rw [idle]
      rfl
  | running runId => rfl
  | awaitingUserInput runId request =>
      have pending := durable.status.awaiting runId request rfl
      dsimp only at pending ⊢
      rw [pending]
      simp [recoveredStatusFromPersisted, persistedThreadFromInner, ThreadStatus.text,
        ThreadStatus.pendingRequest, ThreadStatus.runId, ThreadStatus.recovered,
        ThreadStatus.isRunning]
  | interrupted runId note => rfl

/-- **The row of a durable record reads back** as the record, its run interrupted. -/
theorem threadInnerFromPersisted_written (durable : Durable inner)
    (trips : RoundTrips columns inner) :
    threadInnerFromPersisted columns (persistedThreadFromInner columns inner) =
      .ok (inner.recovered, inner.status.isRunning) := by
  have tools : decodeAllowedTools columns (persistedThreadFromInner columns inner) =
      .ok inner.config.allowedTools := by
    simp only [decodeAllowedTools, persistedThreadFromInner, trips.allowedTools,
      nameSet_of_increasing durable.config.tools]
  have session : decodeRecoveredSession columns (persistedThreadFromInner columns inner) =
      .ok inner.session := by
    simp only [decodeRecoveredSession, persistedThreadFromInner, trips.session]
  have mode : parseServerPermissionMode
      (persistedThreadFromInner columns inner).permissionMode = .ok inner.config.permissionMode :=
    parseServerPermissionMode_asStr durable.config.mode
  unfold threadInnerFromPersisted
  rw [tools, session, decodePendingRequestPayload_written trips]
  simp only [bind, Except.bind]
  rw [recoveredStatus_written durable]
  simp only [mode]
  rfl

end RoundTrip

/-- **A thread survives a restart**: whatever happened to a thread that was created with a
resolved configuration, its status says what its session says, its row reads back as the
record with a run that was going on interrupted, and that record's row as itself, with
nothing to write again. -/
theorem thread_recovers (columns : Columns) (toolRegistry : ToolRegistry)
    (resolveCwd : Option String → Except ApiError String)
    (load : String → Except String RuntimeConfig) (payload : CreateThreadRequest)
    (config : ThreadExecutionConfig) (id : ThreadId) (now : UInt64)
    (actions : List NumberingAction) (last : Numbering) (inner : ThreadInner)
    (resolved : resolveThreadConfig toolRegistry resolveCwd load payload = .ok config)
    (run : Run (Numbering.step columns) Numbering.AppendsText
      (Numbering.start columns (.new id now config)) actions last)
    (held : last.memory = some inner) (trips : RoundTrips columns inner) :
    StatusMatches inner ∧
      threadInnerFromPersisted columns (persistedThreadFromInner columns inner) =
        .ok ({ inner with status := inner.status.recovered }, inner.status.isRunning) ∧
      threadInnerFromPersisted columns (persistedThreadFromInner columns inner.recovered) =
        .ok (inner.recovered, false) := by
  have started : Numbering.HeldDurable (Numbering.start columns (.new id now config)) := by
    intro first isFirst
    cases isFirst
    exact durable_new id now (resolveThreadConfig_served resolved)
  have durable : Durable inner :=
    run.invariant Numbering.HeldDurable
      (fun _ _ _ durable texts steps => Numbering.heldDurable_step durable texts steps)
      started inner held
  refine ⟨durable.status, threadInnerFromPersisted_written durable trips, ?_⟩
  have again := threadInnerFromPersisted_written (durable_recovered durable)
    (roundTrips_recovered trips)
  rw [recovered_recovered] at again
  rw [again]
  have settled : inner.recovered.status.isRunning = false := recovered_not_running inner.status
  rw [settled]

/-! ## A restart in the middle of a run -/

/-- No tools. -/
def bareRegistry : ToolRegistry where
  definitions := []
  permissionSpecs _ := []
  normalizeAllowedTools _ := .ok none

def busyThread : ThreadInner :=
  (ThreadInner.new "thread-1" 0 smallConfig).beginRun 1 (ConversationMessage.userText "go") "run-1"

theorem busyThread_roundTrips : RoundTrips smallColumns busyThread where
  allowedTools := rfl
  session := rfl
  pendingRequest := nofun

theorem thread_recovers_busyThread :
    threadInnerFromPersisted smallColumns (persistedThreadFromInner smallColumns busyThread) =
        .ok (busyThread.recovered, true) ∧
      busyThread.recovered.status = .interrupted (some "run-1")
        "previous run ended during server restart or shutdown" := by
  refine ⟨?_, rfl⟩
  exact (thread_recovers smallColumns bareRegistry (fun _ => .ok "/workspace")
    (fun _ => .ok ⟨none, some .workspaceWrite⟩) {} smallConfig "thread-1" 0
    [.startTurn 1 "run-1" "go" true] _ busyThread rfl (.cons trivial rfl .nil) rfl
    busyThread_roundTrips).2.1

end Openyak.Server
