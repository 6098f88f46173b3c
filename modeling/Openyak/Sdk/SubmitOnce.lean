/-
# Sdk.SubmitOnce -- what a retry policy may submit twice

`requestJson` of the TypeScript SDK sends a request again when the attempt ended in an
error that is not the SDK's own: the connection broke, or the body of the answer could not
be read.  The requests that change the server are sent again like the others:
`disableRetry` is there, but no call sets it.

A state is the server's workspace, the call's loop, and what became of each of its
requests.  A request may be handled at any time after it is sent, also after the loop gave
it up; others use the server in between, its runs end, and it may be stopped and
started.  With a second attempt every call that can be accepted can be accepted
twice (`submitted_once_iff`).
-/
import Openyak.Sdk.Errors
import Openyak.Server.Workspace
import Openyak.Server.ThreadConfig
import Openyak.Theory.RequestLog
import Mathlib.Data.Rat.Floor

namespace Openyak.Sdk

open Openyak.Runtime
open Openyak.Server
open Openyak.Theory

set_option autoImplicit false

/-! ## The retry policy -/

/-- A number of the language, with the finite ones exact. -/
inductive JsNumber where
  | nan
  | negInfinity
  | finite (value : Rat)
  | infinity
  deriving DecidableEq

namespace JsNumber

instance (value : Nat) : OfNat JsNumber value := ⟨.finite value⟩

/-- `Math.trunc`. -/
def trunc : JsNumber → JsNumber
  | .finite value => .finite (if value < 0 then ⌈value⌉ else ⌊value⌋)
  | other => other

/-- `<`, false of NaN. -/
def lt : JsNumber → JsNumber → Bool
  | .nan, _ | _, .nan => false
  | _, .negInfinity | .infinity, _ => false
  | .negInfinity, _ | _, .infinity => true
  | .finite a, .finite b => a < b

/-- `Math.max`. -/
def max (a b : JsNumber) : JsNumber :=
  if a = .nan ∨ b = .nan then .nan else if a.lt b then b else a

end JsNumber

structure RetryPolicy where
  attempts : JsNumber
  delayMs : JsNumber
  deriving DecidableEq

/-- The `retry` option of a client: a number, or a part of a policy. -/
inductive RetryOption where
  | number (retry : JsNumber)
  | policy (attempts delayMs : Option JsNumber)

def normalizeRetryPolicy : Option RetryOption → RetryPolicy
  | some (.number retry) => ⟨.max 1 retry.trunc, 150⟩
  | some (.policy attempts delayMs) =>
      ⟨.max 1 (attempts.getD 1).trunc, .max 0 (delayMs.getD 150).trunc⟩
  | none => ⟨.max 1 (JsNumber.trunc 1), .max 0 (JsNumber.trunc 150)⟩

def shouldRetry : SdkError → Bool
  | .api _ | .compatibility | .protocol _ | .resyncRequired | .reconnectRequired => false
  | .other _ => true

/-! ## The calls -/

/-- What a request asks of the server. -/
inductive Operation where
  | createThread (payload : CreateThreadRequest)
  | startTurn (thread : ThreadId) (message : String)
  | submitUserInput (thread : ThreadId) (response : UserInputResponse)

/-- `run` and `resumeUserInput` only read after what their streamed form submits. -/
inductive SdkCall where
  | createThread (options : CreateThreadRequest)
  | startTurn (thread : ThreadId) (message : String)
  | runStreamed (thread : ThreadId) (message : String)
  | submitUserInput (thread : ThreadId) (input : UserInputResponse)
  | resumeUserInputStreamed (thread : ThreadId) (input : UserInputResponse)

namespace SdkCall

def operation : SdkCall → Operation
  | .createThread options => .createThread options
  | .startTurn thread message | .runStreamed thread message => .startTurn thread message
  | .submitUserInput thread input | .resumeUserInputStreamed thread input =>
      .submitUserInput thread input

/-- The call opens the event stream first, and submits nothing without its snapshot. -/
def opensStream : SdkCall → Bool
  | .runStreamed .. | .resumeUserInputStreamed .. => true
  | .createThread _ | .startTurn .. | .submitUserInput .. => false

/-- The option `requestJson` looks at; no call sets it. -/
def disableRetry : SdkCall → Option Bool := fun _ => none

/-- The bound of the loop. -/
def attempts (call : SdkCall) (policy : RetryPolicy) : JsNumber :=
  if call.disableRetry = some true then 1 else policy.attempts

end SdkCall

/-! ## The server's side -/

/-- What the handling of a request finds: the clock, the table, and the configuration of
the workspace. -/
structure Handling where
  now : UInt64
  stored : Bool
  toolRegistry : ToolRegistry
  resolveCwd : Option String → Except ApiError String
  load : String → Except String RuntimeConfig

def Handling.config (handling : Handling) (payload : CreateThreadRequest) :
    Except ApiError ThreadExecutionConfig :=
  resolveThreadConfig handling.toolRegistry handling.resolveCwd handling.load payload

section System

variable (columns : Columns)

/-- A running server handles a request; it is accepted or not. -/
def Operation.handle (handling : Handling) (workspace : Workspace) :
    Operation → Option (Workspace × Bool)
  | .createThread payload =>
      match handling.config payload with
      | .error _ => workspace.memory.map fun server =>
          ({ workspace with
            memory := some { server with nextThreadId := server.nextThreadId + 1 } }, false)
      | .ok config =>
          (workspace.step columns (.createThread handling.now config handling.stored)).map
            (·, handling.stored)
  | .startTurn thread message => workspace.memory.bind fun server =>
      if Text.trim message.toList = [] then some (workspace, false)
      else
        match server.threads thread with
        | none => some (workspace, false)
        | some inner =>
            (play (Workspace.step columns) workspace
              [.allocateRunId thread,
                .startTurn server.handlers.length handling.now message handling.stored]).map
              (·, inner.status.admitsTurn && handling.stored)
  | .submitUserInput thread response => workspace.memory.bind fun server =>
      if Text.trim response.content.toList = [] then some (workspace, false)
      else
        match server.threads thread with
        | none => some (workspace, false)
        | some inner =>
            (workspace.step columns
              (.submitUserInput thread handling.now response handling.stored)).map
              (·, inner.status.admitsInput response.requestId && handling.stored)

/-! ## The loop -/

inductive Phase where
  | opening
  | ready
  | waiting
  | returned
  | failed (error : SdkError)
  deriving DecidableEq, Repr

/-- The workspace, the `attempt` of the loop, and what became of each request. -/
structure Submission where
  workspace : Workspace
  phase : Phase
  attempt : Nat := 0
  requests : RequestLog := []

inductive SubmissionStep where
  /-- The server works for others. -/
  | server (action : WorkspaceAction)
  | opened (snapshot : Except SdkError Unit)
  | send
  | handle (request : Nat) (handling : Handling)
  | lose (request : Nat)
  /-- The answer to the last request arrives; a refusal has this status. -/
  | answer (status : Nat)
  | fail (error : SdkError)

def Submission.handled (state : Submission) (request : Nat) (next : Workspace × Bool) :
    Option Submission :=
  (state.requests.settle request (if next.2 then .accepted else .refused)).map fun requests =>
    { state with workspace := next.1, requests := requests }

/-- The `catch` of the loop. -/
def Submission.caught (state : Submission) (attempts : JsNumber) (error : SdkError) : Submission :=
  { state with
    phase :=
      if shouldRetry error && (JsNumber.finite state.attempt).lt attempts then .ready
      else .failed error }

def step (call : SdkCall) (policy : RetryPolicy) (state : Submission) :
    SubmissionStep → Option Submission
  | .server action => (state.workspace.step columns action).map fun workspace =>
      { state with workspace := workspace }
  | .opened snapshot =>
      if state.phase = .opening then
        some { state with
          phase := match snapshot with
            | .ok () => .ready
            | .error error => .failed error }
      else none
  | .send =>
      if state.phase = .ready ∧ (JsNumber.finite state.attempt).lt (call.attempts policy) then
        some { state with
          phase := .waiting
          attempt := state.attempt + 1
          requests := state.requests.send }
      else none
  | .handle request handling =>
      (call.operation.handle columns handling state.workspace).bind (state.handled request)
  | .lose request => (state.requests.settle request .lost).map fun requests =>
      { state with requests := requests }
  | .answer status =>
      if state.phase = .waiting then
        match state.requests.getLast? with
        | some .accepted => some { state with phase := .returned }
        | some .refused => some { state with phase := .failed (.api status) }
        | _ => none
      else none
  | .fail error =>
      if state.phase = .waiting then some (state.caught (call.attempts policy) error) else none

def start (call : SdkCall) (workspace : Workspace) : Submission where
  workspace := workspace
  phase := if call.opensStream then .opening else .ready

/-! ## What a step does to the requests -/

/-- Some server accepts it: its payload resolves, its text is not blank. -/
def Operation.Acceptable : Operation → Prop
  | .createThread payload => ∃ handling : Handling, ∃ config, handling.config payload = .ok config
  | .startTurn _ message => Text.trim message.toList ≠ []
  | .submitUserInput _ response => Text.trim response.content.toList ≠ []

theorem handle_acceptable {operation : Operation} {handling : Handling}
    {workspace next : Workspace}
    (accepted : operation.handle columns handling workspace = some (next, true)) :
    operation.Acceptable := by
  cases operation with
  | createThread payload =>
      cases resolved : handling.config payload with
      | error error =>
          simp only [Operation.handle, resolved] at accepted
          cases memory : workspace.memory <;> simp [memory] at accepted
      | ok config => exact ⟨handling, config, resolved⟩
  | startTurn thread message =>
      intro blank
      unfold Operation.handle at accepted
      cases memory : workspace.memory <;> simp [memory, blank] at accepted
  | submitUserInput thread response =>
      intro blank
      unfold Operation.handle at accepted
      cases memory : workspace.memory <;> simp [memory, blank] at accepted

/-- The requests stay, one more is sent, or one in flight is settled. -/
inductive Effect (call : SdkCall) (policy : RetryPolicy) (state : Submission) :
    SubmissionStep → Submission → Prop
  | stays {label : SubmissionStep} {next : Submission} (requests : next.requests = state.requests)
      (attempt : next.attempt = state.attempt) : Effect call policy state label next
  | sends {next : Submission}
      (left : (JsNumber.finite state.attempt).lt (call.attempts policy) = true)
      (requests : next.requests = state.requests.send) (attempt : next.attempt = state.attempt + 1) :
      Effect call policy state .send next
  | settles {label : SubmissionStep} {next : Submission} (request : Nat) (delivery : Delivery)
      (settles : state.requests.settle request delivery = some next.requests)
      (accepted : delivery = .accepted → call.operation.Acceptable)
      (attempt : next.attempt = state.attempt) : Effect call policy state label next

theorem step_effect {call : SdkCall} {policy : RetryPolicy} {state next : Submission}
    {label : SubmissionStep} (steps : step columns call policy state label = some next) :
    Effect call policy state label next := by
  cases label with
  | server action =>
      obtain ⟨workspace, -, rfl⟩ := Option.map_eq_some_iff.1 steps
      exact .stays rfl rfl
  | opened snapshot =>
      simp only [step] at steps
      split at steps
      · cases steps
        exact .stays rfl rfl
      · cases steps
  | send =>
      simp only [step] at steps
      split at steps
      · rename_i ready
        cases steps
        exact .sends ready.2 rfl rfl
      · cases steps
  | handle request handling =>
      obtain ⟨⟨workspace, accepted⟩, handled, settled⟩ := Option.bind_eq_some_iff.1 steps
      obtain ⟨requests, settles, rfl⟩ := Option.map_eq_some_iff.1 settled
      refine .settles request _ settles ?_ rfl
      intro accepts
      cases accepted with
      | true => exact handle_acceptable columns handled
      | false => cases accepts
  | lose request =>
      obtain ⟨requests, settles, rfl⟩ := Option.map_eq_some_iff.1 steps
      exact .settles request .lost settles nofun rfl
  | answer status =>
      simp only [step] at steps
      split at steps
      · split at steps
        · cases steps
          exact .stays rfl rfl
        · cases steps
          exact .stays rfl rfl
        · cases steps
      · cases steps
  | fail error =>
      simp only [step] at steps
      split at steps
      · cases steps
        exact .stays rfl rfl
      · cases steps

/-! ## At most one is accepted -/

/-- At most one of the call's requests is accepted. -/
def AtMostOnce (state : Submission) : Prop := state.requests.acceptedCount ≤ 1

/-- The loop has a second attempt. -/
def MayRetry (call : SdkCall) (policy : RetryPolicy) : Prop :=
  (JsNumber.finite (1 : Nat)).lt (call.attempts policy) = true

/-- A request is sent only when no earlier one is accepted or in flight. -/
def NoneOpen (state : Submission) : SubmissionStep → Prop
  | .send => state.requests.openCount = 0
  | _ => True

variable {columns} {call : SdkCall} {policy : RetryPolicy} {workspace : Workspace}
  {labels : List SubmissionStep} {last : Submission}

/-- Without a second attempt there is one request. -/
theorem single_attempt (single : ¬ MayRetry call policy)
    (run : Run (step columns call policy) (fun _ _ => True) (start call workspace) labels last) :
    AtMostOnce last := by
  have bounded : last.requests.length = last.attempt ∧ last.attempt ≤ 1 :=
    run.invariant (fun state => state.requests.length = state.attempt ∧ state.attempt ≤ 1)
      (by
        rintro state label next ⟨count, bound⟩ - steps
        cases step_effect columns steps with
        | stays requests attempt =>
            rw [requests, attempt]
            exact ⟨count, bound⟩
        | sends left requests attempt =>
            rw [requests, attempt, RequestLog.length_send]
            have first : state.attempt = 0 := by
              by_contra later
              have one : state.attempt = 1 := by omega
              rw [one] at left
              exact single left
            omega
        | settles request delivery settles accepted attempt =>
            rw [attempt, RequestLog.length_settle settles]
            exact ⟨count, bound⟩)
      ⟨rfl, Nat.zero_le 1⟩
  apply RequestLog.accepted_le_one_of_length
  omega

/-- An operation no server accepts is not accepted. -/
theorem unacceptable_never (refused : ¬ call.operation.Acceptable)
    (run : Run (step columns call policy) (fun _ _ => True) (start call workspace) labels last) :
    AtMostOnce last := by
  have none : last.requests.acceptedCount = 0 :=
    run.invariant (fun state => state.requests.acceptedCount = 0)
      (by
        intro state label next none _ steps
        cases step_effect columns steps with
        | stays requests attempt => rwa [requests]
        | sends left requests attempt =>
            rw [requests]
            simpa [RequestLog.acceptedCount, RequestLog.send] using none
        | settles request delivery settles accepted attempt =>
            exact RequestLog.accepted_settle settles none fun accepts => refused (accepted accepts))
      rfl
  unfold AtMostOnce
  omega

/-- And none sent while another is open. -/
theorem none_open_once
    (run : Run (step columns call policy) NoneOpen (start call workspace) labels last) :
    AtMostOnce last := by
  have bounded : last.requests.openCount ≤ 1 :=
    run.invariant (fun state => state.requests.openCount ≤ 1)
      (by
        intro state label next bounded none steps
        cases step_effect columns steps with
        | stays requests attempt => rwa [requests]
        | sends left requests attempt =>
            have none : state.requests.openCount = 0 := none
            rw [requests, RequestLog.open_send]
            omega
        | settles request delivery settles accepted attempt =>
            exact Nat.le_trans (RequestLog.open_settle settles) bounded)
      (Nat.zero_le 1)
  exact RequestLog.accepted_le_one_of_open bounded

/-! ## A second attempt can be accepted again -/

theorem lt_of_mayRetry (retry : MayRetry call policy) :
    (JsNumber.finite (0 : Nat)).lt (call.attempts policy) = true := by
  unfold MayRetry at retry
  cases attempts : call.attempts policy with
  | nan => simp [attempts, JsNumber.lt] at retry
  | negInfinity => simp [attempts, JsNumber.lt] at retry
  | infinity => rfl
  | finite value =>
      have above : (1 : Rat) < value := by simpa [attempts, JsNumber.lt] using retry
      have positive : (0 : Rat) < value := lt_trans one_pos above
      simpa [JsNumber.lt] using positive

/-- The server's own steps leave the call alone. -/
theorem play_server {first last : Workspace} {actions : List WorkspaceAction}
    (played : play (Workspace.step columns) first actions = some last) (state : Submission)
    (here : state.workspace = first) :
    play (step columns call policy) state (actions.map .server) =
      some { state with workspace := last } := by
  induction actions generalizing first state with
  | nil =>
      cases played
      rw [← here]
      rfl
  | cons action actions ih =>
      obtain ⟨middle, steps, rest⟩ := Option.bind_eq_some_iff.1 played
      have server : step columns call policy state (.server action) =
          some { state with workspace := middle } := by
        rw [← here] at steps
        simp [step, steps]
      exact play_cons server (ih rest _ rfl)

/-- An operation that is accepted, and again after some steps of the server, is submitted
twice by a call that lost the first answer. -/
theorem submitted_twice (retry : MayRetry call policy) {first second third fourth : Workspace}
    {handling again : Handling} {between : List WorkspaceAction}
    (accepted : call.operation.handle columns handling first = some (second, true))
    (works : play (Workspace.step columns) second between = some third)
    (accepts : call.operation.handle columns again third = some (fourth, true)) :
    ∃ labels last, Run (step columns call policy) (fun _ _ => True) (start call first) labels last ∧
      ¬ AtMostOnce last := by
  have ready : ∃ labels, play (step columns call policy) (start call first) labels =
      some ⟨first, .ready, 0, []⟩ := by
    cases opens : call.opensStream with
    | false => exact ⟨[], by simp [play, start, opens]⟩
    | true => exact ⟨[.opened (.ok ())], by simp [play, start, opens, step]⟩
  obtain ⟨opening, opened⟩ := ready
  have left : (JsNumber.finite (0 : Nat)).lt (call.attempts policy) = true := lt_of_mayRetry retry
  have more : (JsNumber.finite (1 : Nat)).lt (call.attempts policy) = true := retry
  have send : step columns call policy ⟨first, .ready, 0, []⟩ .send =
      some ⟨first, .waiting, 1, [.inFlight]⟩ := if_pos ⟨rfl, left⟩
  have handled : step columns call policy ⟨first, .waiting, 1, [.inFlight]⟩ (.handle 0 handling) =
      some ⟨second, .waiting, 1, [.accepted]⟩ := by
    simp [step, accepted, Submission.handled, RequestLog.settle]
  have failed : step columns call policy ⟨second, .waiting, 1, [.accepted]⟩
      (.fail (.other "fetch failed")) = some ⟨second, .ready, 1, [.accepted]⟩ := by
    simpa [step, Submission.caught, shouldRetry] using more
  have worked : play (step columns call policy) ⟨second, .ready, 1, [.accepted]⟩
      (between.map .server) = some ⟨third, .ready, 1, [.accepted]⟩ := play_server works _ rfl
  have resend : step columns call policy ⟨third, .ready, 1, [.accepted]⟩ .send =
      some ⟨third, .waiting, 2, [.accepted, .inFlight]⟩ := if_pos ⟨rfl, more⟩
  have rehandled : step columns call policy ⟨third, .waiting, 2, [.accepted, .inFlight]⟩
      (.handle 1 again) = some ⟨fourth, .waiting, 2, [.accepted, .accepted]⟩ := by
    simp [step, accepts, Submission.handled, RequestLog.settle]
  refine ⟨opening ++ ([.send, .handle 0 handling, .fail (.other "fetch failed")] ++
    (between.map .server ++ [.send, .handle 1 again])), ⟨fourth, .waiting, 2, [.accepted, .accepted]⟩,
    ?_, ?_⟩
  · rw [run_iff_play, play_append, opened, Option.bind_some, play_append,
      play_cons send (play_cons handled (play_cons failed rfl)), Option.bind_some, play_append,
      worked, Option.bind_some]
    exact play_cons resend (play_cons rehandled rfl)
  · show ¬ RequestLog.acceptedCount [.accepted, .accepted] ≤ 1
    decide

/-! ## What an accepted request changes -/

variable (columns)

/-- A running server whose thread `thread` is `inner`, with no handler and these workers. -/
structure Holds (workspace : Workspace) (thread : ThreadId) (inner : ThreadInner)
    (workers : List (ThreadId × RunId)) : Prop where
  running : ∃ server, workspace.memory = some server ∧ server.threads thread = some inner ∧
    server.handlers = [] ∧ server.workers = workers
  own : inner.id = thread

/-- An accepted turn appends its message and starts a run. -/
theorem turn_accepted {thread : ThreadId} {message : String} {inner : ThreadInner}
    (holds : Holds workspace thread inner []) (admits : inner.status.admitsTurn = true)
    (text : Text.trim message.toList ≠ []) (handling : Handling) (stored : handling.stored = true) :
    ∃ next run, Operation.handle columns handling workspace (.startTurn thread message) =
        some (next, true) ∧
      Holds next thread (inner.beginRun handling.now (ConversationMessage.userText message) run)
        [(thread, run)] := by
  obtain ⟨⟨server, memory, found, handlers, workers⟩, own⟩ := holds
  obtain ⟨next, begins, begun⟩ : ∃ next,
      inner.startTurn handling.now (runId server.nextRunId) message = .ok next ∧
      next = inner.beginRun handling.now (ConversationMessage.userText message)
        (runId server.nextRunId) := by
    unfold ThreadInner.startTurn
    cases status : inner.status with
    | idle => exact ⟨_, rfl, rfl⟩
    | interrupted last note => exact ⟨_, rfl, rfl⟩
    | running last => simp [status, ThreadStatus.admitsTurn] at admits
    | awaitingUserInput last request => simp [status, ThreadStatus.admitsTurn] at admits
  have kept : next.id = thread := by rw [begun]; exact own
  refine ⟨{ memory := some
              { server with
                threads := Function.update server.threads next.id (some next)
                nextRunId := server.nextRunId + 1
                handlers := []
                workers := [(thread, runId server.nextRunId)] }
            rows := upsertThread (persistedThreadFromInner columns next) workspace.rows
            accepted := workspace.accepted ++ [runId server.nextRunId] },
    runId server.nextRunId, ?_, ⟨⟨_, rfl, ?_, rfl, rfl⟩, own⟩⟩
  · simp [Operation.handle, memory, text, found, play, Workspace.step, Workspace.serve, handlers,
      workers, begins, stored, admits, Workspace.put]
  · show Function.update server.threads next.id (some next) thread = _
    rw [kept, Function.update_self, begun]

/-- An accepted response is appended, and its run goes on. -/
theorem response_accepted {thread : ThreadId} {response : UserInputResponse} {inner : ThreadInner}
    {run : RunId} {request : UserInputRequest} (holds : Holds workspace thread inner [])
    (awaits : inner.status = .awaitingUserInput run request)
    (same : request.requestId = response.requestId)
    (text : Text.trim response.content.toList ≠ []) (handling : Handling)
    (stored : handling.stored = true) :
    ∃ next, Operation.handle columns handling workspace (.submitUserInput thread response) =
        some (next, true) ∧
      Holds next thread (inner.beginRun handling.now (ThreadInner.responseMessage response) run)
        [(thread, run)] := by
  obtain ⟨⟨server, memory, found, handlers, workers⟩, own⟩ := holds
  have begins : inner.submitUserInput handling.now response =
      .ok (run, inner.beginRun handling.now (ThreadInner.responseMessage response) run) := by
    simp [ThreadInner.submitUserInput, awaits, same]
  have kept : (inner.beginRun handling.now (ThreadInner.responseMessage response) run).id =
    thread := own
  refine ⟨{ workspace with
            memory := some
              { server with
                threads := Function.update server.threads thread
                  (some (inner.beginRun handling.now (ThreadInner.responseMessage response) run))
                workers := [(thread, run)] }
            rows := upsertThread (persistedThreadFromInner columns
              (inner.beginRun handling.now (ThreadInner.responseMessage response) run))
              workspace.rows },
    ?_, ⟨⟨_, rfl, Function.update_self .., handlers, rfl⟩, own⟩⟩
  simp [Operation.handle, memory, text, found, Workspace.step, Workspace.serve, workers, begins,
    stored, awaits, ThreadStatus.admitsInput, same, Workspace.put, kept]

/-- A run that ends leaves the thread to its final session. -/
theorem run_completed {thread : ThreadId} {inner : ThreadInner} {run : RunId}
    (holds : Holds workspace thread inner [(thread, run)]) (now : UInt64) (finalSession : Session) :
    ∃ next, play (Workspace.step columns) workspace [.completeRun 0 now finalSession true] =
        some next ∧
      Holds next thread (inner.completeRun now run finalSession) [] := by
  obtain ⟨⟨server, memory, found, handlers, workers⟩, own⟩ := holds
  have kept : (inner.completeRun now run finalSession).id = thread := own
  refine ⟨{ workspace with
            memory := some
              { server with
                threads := Function.update server.threads thread
                  (some (inner.completeRun now run finalSession))
                workers := [] }
            rows := upsertThread (persistedThreadFromInner columns
              (inner.completeRun now run finalSession)) workspace.rows },
    ?_, ⟨⟨_, rfl, Function.update_self .., handlers, rfl⟩, own⟩⟩
  simp [play, Workspace.step, Workspace.serve, Workspace.put, memory, workers, found, kept]

/-- A running server makes the thread. -/
theorem thread_created {server : Server} (memory : workspace.memory = some server)
    {payload : CreateThreadRequest} {handling : Handling} {config : ThreadExecutionConfig}
    (resolved : handling.config payload = .ok config) (stored : handling.stored = true) :
    ∃ next server', Operation.handle columns handling workspace (.createThread payload) =
        some (next, true) ∧
      next.memory = some server' ∧ server'.threads (threadId server.nextThreadId) =
        some (.new (threadId server.nextThreadId) handling.now config) := by
  refine ⟨{ workspace with
            memory := some
              { server with
                nextThreadId := server.nextThreadId + 1
                threads := Function.update server.threads (threadId server.nextThreadId)
                  (some (.new (threadId server.nextThreadId) handling.now config)) }
            rows := upsertThread (persistedThreadFromInner columns
              (.new (threadId server.nextThreadId) handling.now config)) workspace.rows },
    _, ?_, rfl, Function.update_self (f := server.threads) ..⟩
  simp [Operation.handle, resolved, Workspace.step, memory, Workspace.serve, stored, Workspace.put,
    ThreadInner.new]

/-! ## Every acceptable operation can be accepted twice -/

def serverOf (threads : ThreadId → Option ThreadInner) : Workspace where
  memory := some { threads := threads, nextThreadId := 1, nextRunId := 1 }
  rows := []

def threadConfig : ThreadExecutionConfig := ⟨"/workspace", "opus", .workspaceWrite, []⟩

def question (requestId : String) : UserInputRequest := ⟨requestId, "Go on?", [], true⟩

/-- A reply that asks the question. -/
def asking (requestId : String) : ConversationMessage :=
  .assistantWithUsage [.userInputRequest requestId "Go on?" [] true] none

/-- A server with one thread, which is idle or awaits the answer to a question. -/
def serverWith (inner : ThreadInner) : Workspace :=
  serverOf (Function.update (fun _ => none) inner.id (some inner))

theorem serverWith_holds (inner : ThreadInner) : Holds (serverWith inner) inner.id inner [] :=
  ⟨⟨_, rfl, Function.update_self (f := fun _ => none) .., rfl, rfl⟩, rfl⟩

/-- A table that writes, and a workspace without configuration. -/
def plainHandling : Handling where
  now := 0
  stored := true
  toolRegistry := ⟨[], fun _ => [], fun _ => .ok none⟩
  resolveCwd cwd := .ok (cwd.getD "/workspace")
  load _ := .ok {}

/-- The thread after its first run asks the question again. -/
def askedAgain (response : UserInputResponse) : Session where
  messages := [asking response.requestId, ThreadInner.responseMessage response,
    asking response.requestId]

theorem askedAgain_pending (response : UserInputResponse) :
    (askedAgain response).pendingUserInputRequest = some (question response.requestId) := by
  simp [askedAgain, asking, Session.pendingUserInputRequest, awaiting, awaitBlock,
    ThreadInner.responseMessage, question, ConversationMessage.assistantWithUsage,
    ConversationMessage.userInputResponse]

theorem accepted_twice {operation : Operation} (acceptable : operation.Acceptable) :
    ∃ first second third fourth handling again between,
      operation.handle columns handling first = some (second, true) ∧
      play (Workspace.step columns) second between = some third ∧
      operation.handle columns again third = some (fourth, true) := by
  cases operation with
  | createThread payload =>
      obtain ⟨handling, config, resolved⟩ := acceptable
      have resolved : ({ handling with stored := true } : Handling).config payload = .ok config :=
        resolved
      obtain ⟨second, server, accepted, memory, -⟩ := thread_created columns
        (show (serverOf fun _ => none).memory = some _ from rfl) resolved rfl
      obtain ⟨third, -, accepts, -, -⟩ := thread_created columns memory resolved rfl
      exact ⟨_, second, second, third, _, _, [], accepted, rfl, accepts⟩
  | startTurn thread message =>
      have holds := serverWith_holds (.new thread 0 threadConfig)
      obtain ⟨second, run, accepted, held⟩ := turn_accepted columns holds rfl
        acceptable plainHandling rfl
      obtain ⟨third, completed, idle⟩ := run_completed columns held 0
        { messages := [ConversationMessage.userText message] }
      obtain ⟨fourth, -, accepts, -⟩ := turn_accepted columns idle rfl acceptable
        plainHandling rfl
      exact ⟨_, second, third, fourth, _, _, _, accepted, completed, accepts⟩
  | submitUserInput thread response =>
      have holds := serverWith_holds
        { ThreadInner.new thread 0 threadConfig with
          session := { messages := [asking response.requestId] }
          status := .awaitingUserInput "run-1" (question response.requestId) }
      obtain ⟨second, accepted, held⟩ := response_accepted columns holds rfl rfl
        acceptable plainHandling rfl
      obtain ⟨third, completed, asks⟩ := run_completed columns held 0
        (askedAgain response)
      have awaits : ∀ inner : ThreadInner,
          (inner.completeRun 0 "run-1" (askedAgain response)).status =
            .awaitingUserInput "run-1" (question response.requestId) := by
        intro inner
        simp [ThreadInner.completeRun, askedAgain_pending]
      obtain ⟨fourth, accepts, -⟩ := response_accepted columns asks (awaits _) rfl
        acceptable plainHandling rfl
      exact ⟨_, second, third, fourth, _, _, _, accepted, completed, accepts⟩

/-- **A call is submitted at most once, whatever happens to its requests, exactly when it
has no second attempt** or no server accepts its operation.  With further attempts it
is submitted at most once in the runs that send nothing while a request is open. -/
theorem submitted_once_iff (columns : Columns) (call : SdkCall) (retry : Option RetryOption) :
    ((∀ workspace labels last,
        Run (step columns call (normalizeRetryPolicy retry)) (fun _ _ => True)
          (start call workspace) labels last → AtMostOnce last) ↔
      ¬ (MayRetry call (normalizeRetryPolicy retry) ∧ call.operation.Acceptable)) ∧
    ∀ workspace labels last,
      Run (step columns call (normalizeRetryPolicy retry)) NoneOpen (start call workspace) labels
        last → AtMostOnce last := by
  refine ⟨⟨?_, ?_⟩, fun workspace labels last run => none_open_once run⟩
  · rintro once ⟨retries, acceptable⟩
    obtain ⟨first, second, third, fourth, handling, again, between, accepted, works, accepts⟩ :=
      accepted_twice columns acceptable
    obtain ⟨labels, last, run, twice⟩ := submitted_twice retries accepted works accepts
    exact twice (once first labels last run)
  · intro safe workspace labels last run
    by_cases retries : MayRetry call (normalizeRetryPolicy retry)
    · exact unacceptable_never (fun acceptable => safe ⟨retries, acceptable⟩) run
    · exact single_attempt retries run

/-! ## A thread created twice -/

/-- The first answer is lost, and the second request makes another thread. -/
def lostAnswer : List SubmissionStep :=
  [.send, .handle 0 plainHandling, .fail (.other "fetch failed"), .send, .handle 1 plainHandling]

/-- With `retry: 2` a lost answer to `createThread` leaves two new threads. -/
theorem created_twice : ∃ last,
    play (step smallColumns (.createThread {}) (normalizeRetryPolicy (some (.number 2))))
      (start (.createThread {}) (serverOf fun _ => none)) lostAnswer = some last ∧
    ¬ AtMostOnce last ∧
    (last.workspace.memory.map fun server =>
      ((server.threads "thread-1").isSome, (server.threads "thread-2").isSome)) =
        some (true, true) := by
  have played : ((play (step smallColumns (.createThread {}) (normalizeRetryPolicy
      (some (.number 2)))) (start (.createThread {}) (serverOf fun _ => none)) lostAnswer).map
      fun last => (last.requests.acceptedCount, last.workspace.memory.map fun server =>
        ((server.threads "thread-1").isSome, (server.threads "thread-2").isSome))) =
      some (2, some (true, true)) := by decide +kernel
  obtain ⟨last, reached, counted⟩ := Option.map_eq_some_iff.1 played
  obtain ⟨twice, threads⟩ := Prod.mk.inj counted
  refine ⟨last, reached, ?_, threads⟩
  unfold AtMostOnce
  omega

end System

end Openyak.Sdk
