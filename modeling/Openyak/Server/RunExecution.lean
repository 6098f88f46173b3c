/-
# Server.RunExecution -- what a run does, and the event it ends with

A run is one call of a runtime made from the thread's session: a turn with no one to
ask, or the resumption of a pending turn with a prompter that has one response to give.

The status a finished run leaves is read off its session, its last event off its result.
The two disagree exactly when the result is a success and the session still awaits a
request: a response was given to the first of several open requests, and the model's
next reply asks for nothing (`LeavesRequest`).
-/
import Openyak.Server.Events
import Openyak.Runtime.NoDangling

namespace Openyak.Server

open Openyak.Runtime

set_option autoImplicit false

variable {World : Type}

/-! ## A run -/

inductive RunInvocation where
  | turn (message : String)
  | resume (response : UserInputResponse)
  deriving DecidableEq, Repr

structure RunExecution where
  finalSession : Session
  recordedBatches : List (List AssistantEvent)
  result : Except RuntimeError TurnSummary

def applyOptimisticInvocation (session : Session) : RunInvocation → Session
  | .turn message => session.push (ConversationMessage.userText message)
  | .resume response => session.push (ThreadInner.responseMessage response)

/-- What a run talks to: the world, the batches recorded so far, and the response its
prompter still holds. -/
structure Execution (World : Type) where
  world : World
  recordedBatches : List (List AssistantEvent) := []
  response : Option UserInputResponse := none

def Execution.withWorld (execution : Execution World) (world : World) : Execution World :=
  { execution with world := world }

/-- `RecordingApiClient` around the provider, and the tools beside it. -/
def recordingApiClient (provider : Environment World) : Environment (Execution World) where
  stream request execution :=
    let streamed := provider.stream request execution.world
    match streamed.2 with
    | .ok events =>
        ({ execution with
            world := streamed.1
            recordedBatches := execution.recordedBatches ++ [events] }, .ok events)
    | .error error => (execution.withWorld streamed.1, .error error)
  execute name input execution :=
    let executed := provider.execute name input execution.world
    (execution.withWorld executed.1, executed.2)
  runPreToolUse name input execution :=
    let ran := provider.runPreToolUse name input execution.world
    (execution.withWorld ran.1, ran.2)
  runPostToolUse name input output isError execution :=
    let ran := provider.runPostToolUse name input output isError execution.world
    (execution.withWorld ran.1, ran.2)

/-- `SubmittedUserInputPrompter`: the response is taken at the first question. -/
def submittedUserInputPrompter (request : UserInputRequest) (execution : Execution World) :
    Execution World × UserInputOutcome :=
  match execution.response with
  | none => (execution, .unavailable
      ("no submitted reply is available for request-user-input `" ++ request.requestId ++ "`"))
  | some response =>
      ({ execution with response := none },
        if response.requestId ≠ request.requestId then
          .unavailable ("submitted reply targets `" ++ response.requestId ++
            "` but the runtime is waiting for `" ++ request.requestId ++ "`")
        else .submitted response)

/-- The permission policy of a run, which has no one to ask. -/
abbrev Policy (World : Type) := (name input : String) → World → World × PermissionOutcome

def RunInvocation.call (policy : Policy World) (invocation : RunInvocation) :
    Call (Execution World) where
  turn :=
    match invocation with
    | .turn message => .runTurn message
    | .resume _ => .resumePendingTurn
  authorize name input execution :=
    let authorized := policy name input execution.world
    (execution.withWorld authorized.1, authorized.2)
  prompter :=
    match invocation with
    | .turn _ => none
    | .resume _ => some submittedUserInputPrompter

def RunInvocation.response? : RunInvocation → Option UserInputResponse
  | .turn _ => none
  | .resume response => some response

/-- The runtime of a run, before its call. -/
def startRun (session : Session) (invocation : RunInvocation) (world : World) :
    ConversationRuntime (Execution World) :=
  .new session [] { world := world, response := invocation.response? }

/-- `client` is what `build_runtime_client` returns. -/
def executeRun (client : Except String (Environment World)) (policy : Policy World)
    (session : Session) (invocation : RunInvocation) (world : World) : RunExecution :=
  match client with
  | .error error => ⟨applyOptimisticInvocation session invocation, [], .error { message := error }⟩
  | .ok provider =>
      let run := (invocation.call policy).run (recordingApiClient provider)
        (startRun session invocation world)
      ⟨run.1.session, run.1.world.recordedBatches, run.2⟩

/-! ## A run with no response to give -/

theorem awaiting_push (session : Session) (message : ConversationMessage) :
    awaiting (session.push message).messages =
      message.blocks.foldl awaitBlock (awaiting session.messages) := by
  simp [awaiting, Session.push]

theorem pending_none_iff (session : Session) :
    session.pendingUserInputRequest = none ↔ awaiting session.messages = [] := by
  unfold Session.pendingUserInputRequest
  rw [List.head?_eq_none_iff]

section Silent

variable {provider : Environment World} {policy : Policy World} {invocation : RunInvocation}

/-- A turn, or a resumption whose response is gone. -/
def Silent (invocation : RunInvocation) (runtime : ConversationRuntime (Execution World)) : Prop :=
  (invocation.call (fun _ _ world => (world, .allow)) : Call (Execution World)).prompter = none ∨
    runtime.world.response = none

theorem resolve_silent (policy : Policy World) {runtime : ConversationRuntime (Execution World)}
    (silent : Silent invocation runtime) (request : UserInputRequest) (rest : List ContentBlock) :
    ∃ after error, resolveUserInputRequest (invocation.call policy) request rest runtime =
      (after, .error error) := by
  unfold resolveUserInputRequest
  cases invocation with
  | turn message => exact ⟨_, _, rfl⟩
  | resume response =>
      have gone : runtime.world.response = none := silent.resolve_left nofun
      simp only [RunInvocation.call, submittedUserInputPrompter, gone]
      exact ⟨_, _, rfl⟩

theorem useTool_response (id name input : String) (execution : Execution World) :
    (useTool (recordingApiClient provider) (invocation.call policy) id name input
      execution).1.response = execution.response := by
  unfold useTool
  split
  · rename_i after reason authorized
    have moved : execution.withWorld _ = after := congrArg Prod.fst authorized
    subst moved
    rfl
  · rename_i after authorized
    have moved : execution.withWorld _ = after := congrArg Prod.fst authorized
    subst moved
    dsimp only
    split <;> rfl

theorem stream_response (request : ApiRequest) (execution : Execution World) :
    ((recordingApiClient provider).stream request execution).1.response = execution.response := by
  simp only [recordingApiClient]
  split <;> rfl

theorem stream_result (request : ApiRequest) (execution : Execution World) :
    ((recordingApiClient provider).stream request execution).2 =
      (provider.stream request execution.world).2 := by
  simp only [recordingApiClient]
  split <;> rename_i same <;> rw [same]

theorem handleBlocks_passive {env : Environment World} {call : Call World}
    {blocks : List ContentBlock} (passive : ∀ block ∈ blocks, block.isAction = false)
    (runtime : ConversationRuntime World) (toolResults : List ConversationMessage)
    (handledAction : Bool) :
    handleBlocks env call blocks runtime toolResults handledAction =
      (runtime, .ok (toolResults, handledAction)) := by
  induction blocks with
  | nil => rfl
  | cons block rest ih =>
      obtain ⟨first, others⟩ := List.forall_mem_cons.1 passive
      cases block with
      | toolUse _ _ _ => cases first
      | userInputRequest _ _ _ _ => cases first
      | text _ => exact ih others
      | toolResult _ _ _ _ => exact ih others
      | userInputResponse _ _ _ => exact ih others

/-- The loop over a message, when it is finished and there is no response to give: the
message asks for nothing, and nothing awaited has changed. -/
theorem handleBlocks_silent (blocks : List ContentBlock)
    (runtime after : ConversationRuntime (Execution World))
    (toolResults results : List ConversationMessage) (handledAction handled : Bool)
    (silent : Silent invocation runtime)
    (done : handleBlocks (recordingApiClient provider) (invocation.call policy) blocks runtime
      toolResults handledAction = (after, .ok (results, handled))) :
    Silent invocation after ∧ requestIds blocks = [] ∧
      awaiting after.session.messages = awaiting runtime.session.messages ∧
      handled = (handledAction || blocks.any ContentBlock.isAction) := by
  induction blocks generalizing runtime toolResults handledAction with
  | nil =>
      cases done
      exact ⟨silent, rfl, rfl, by simp⟩
  | cons block rest ih =>
      cases block with
      | text text => exact ih runtime toolResults handledAction silent done
      | toolResult id name output isError => exact ih runtime toolResults handledAction silent done
      | userInputResponse id content selected =>
          exact ih runtime toolResults handledAction silent done
      | toolUse id name input =>
          have still : Silent invocation ((runtime.withWorld
              (useTool (recordingApiClient provider) (invocation.call policy) id name input
                runtime.world).1).push
              (useTool (recordingApiClient provider) (invocation.call policy) id name input
                runtime.world).2) :=
            silent.imp_right fun gone => (useTool_response id name input runtime.world).trans gone
          obtain ⟨later, asks, awaits, acted⟩ := ih _ _ true still done
          refine ⟨later, asks, awaits.trans ?_, by simp [acted, ContentBlock.isAction]⟩
          obtain ⟨output, isError, result⟩ := useTool_answers (recordingApiClient provider)
            (invocation.call policy) id name input runtime.world
          show awaiting ((runtime.session.push _).messages) = _
          rw [awaiting_push, result]
          rfl
      | userInputRequest requestId prompt options allowFreeform =>
          obtain ⟨failed, error, unresolved⟩ := resolve_silent policy silent
            ⟨requestId, prompt, options, allowFreeform⟩ rest
          rw [handleBlocks, unresolved] at done
          cases done

/-- A request to the model that is answered, when there is no response to give. -/
theorem askModel_silent (runtime after : ConversationRuntime (Execution World))
    (toolResults results : List ConversationMessage) (message : ConversationMessage)
    (handled : Bool) (silent : Silent invocation runtime)
    (done : askModel (recordingApiClient provider) (invocation.call policy) runtime toolResults =
      (after, .ok (message, results, handled))) :
    Silent invocation after ∧
      awaiting after.session.messages = awaiting runtime.session.messages ∧
      ∃ events usage, (provider.stream ⟨runtime.systemPrompt, runtime.session.messages⟩
          runtime.world.world).2 = .ok events ∧
        buildAssistantMessage events = .ok (message, usage) ∧
        handled = message.blocks.any ContentBlock.isAction := by
  unfold askModel at done
  dsimp only at done
  rw [stream_result] at done
  split at done
  · cases done
  · rename_i events streamed
    split at done
    · cases done
    · rename_i built usage isBuilt
      generalize begun : ((((runtime.logRequest _).withWorld _).recordUsage usage).push built) =
        middle at done
      have stillSilent : Silent invocation middle := by
        rw [← begun]
        exact silent.imp_right fun gone => (stream_response _ _).trans gone
      have awaits : awaiting middle.session.messages =
          built.blocks.foldl awaitBlock (awaiting runtime.session.messages) := by
        rw [← begun]
        exact awaiting_push runtime.session built
      cases loop : handleBlocks (recordingApiClient provider) (invocation.call policy)
          built.blocks middle toolResults false with
      | mk last ended =>
      rw [loop] at done
      cases ended with
      | error error => cases done
      | ok reply =>
          obtain ⟨replies, acted⟩ := reply
          cases done
          obtain ⟨later, asks, same, action⟩ :=
            handleBlocks_silent _ _ _ _ _ _ _ stillSilent loop
          refine ⟨later, ?_, events, usage, streamed, isBuilt, by simpa using action⟩
          have answers := (buildAssistantMessage_unanswering isBuilt).2
          rw [same, awaits, foldl_awaitBlock, answers, awaited_of_no_requests asks]
          simp

/-- The head of the loop goes on only if nothing is awaited. -/
theorem resolvePending_silent (policy : Policy World)
    {runtime : ConversationRuntime (Execution World)} (silent : Silent invocation runtime) :
    resolvePending (invocation.call policy) runtime = (runtime, .ok ()) ∧
        awaiting runtime.session.messages = [] ∨
      ∃ failed error, resolvePending (invocation.call policy) runtime =
        (failed, .error error) := by
  unfold resolvePending
  cases pending : runtime.session.pendingUserInputRequest with
  | none => exact Or.inl ⟨rfl, (pending_none_iff _).1 pending⟩
  | some request =>
      obtain ⟨failed, error, unresolved⟩ := resolve_silent policy silent request []
      dsimp only
      rw [unresolved]
      exact Or.inr ⟨failed, error, rfl⟩

/-- **A run that has no response to give and succeeds leaves nothing awaited.** -/
theorem continueTurn_silent (remaining : Nat)
    (runtime after : ConversationRuntime (Execution World))
    (assistantMessages toolResults : List ConversationMessage) (iterations : Nat)
    (summary : TurnSummary) (silent : Silent invocation runtime)
    (done : continueTurn (recordingApiClient provider) (invocation.call policy) remaining runtime
      assistantMessages toolResults iterations = (after, .ok summary)) :
    awaiting after.session.messages = [] := by
  induction remaining generalizing runtime assistantMessages toolResults iterations with
  | zero =>
      rw [continueTurn] at done
      split at done <;> cases done
  | succ remaining ih =>
      rw [continueTurn] at done
      have head := resolvePending_silent policy silent
      rcases head with ⟨quiet, nothing⟩ | ⟨failed, error, unresolved⟩
      · rw [quiet] at done
        dsimp only at done
        cases asked : askModel (recordingApiClient provider) (invocation.call policy) runtime
            toolResults with
        | mk last answered =>
        rw [asked] at done
        cases answered with
        | error error => cases done
        | ok reply =>
            obtain ⟨message, results, handled⟩ := reply
            obtain ⟨later, same, -⟩ := askModel_silent _ _ _ _ _ _ silent asked
            dsimp only at done
            split at done
            · exact ih _ _ _ _ later done
            · cases done
              exact same.trans nothing
      · rw [unresolved] at done
        cases done

end Silent

/-! ## A success that leaves a request open -/

section Resume

variable (provider : Environment World) (policy : Policy World) (session : Session)
  (response : UserInputResponse) (world : World)

/-- The session once the response is in it. -/
abbrev answeredSession : Session := session.push (ThreadInner.responseMessage response)

/-- The model's next reply asks for nothing. -/
def RepliesPassively (message : ConversationMessage) : Prop :=
  ∃ events usage, (provider.stream ⟨[], (answeredSession session response).messages⟩ world).2 =
      .ok events ∧
    buildAssistantMessage events = .ok (message, usage) ∧
    message.blocks.any ContentBlock.isAction = false

/-- The response is to the first open request, another one stays open, and the model's
next reply asks for nothing. -/
structure LeavesAnother : Prop where
  first : ∃ request, session.pendingUserInputRequest = some request ∧
    request.requestId = response.requestId
  another : awaiting (answeredSession session response).messages ≠ []
  passive : ∃ message, RepliesPassively provider session response world message

/-- The runtime of a resumption whose response was taken by its first question. -/
def answeredRun (request : UserInputRequest) : ConversationRuntime (Execution World) :=
  (((startRun session (.resume response) world).withWorld { world := world }).logPrompt
    ⟨request, some (.submitted response), []⟩).push (ThreadInner.responseMessage response)

variable {provider policy session response world}

theorem resolvePending_resume (policy : Policy World) (response : UserInputResponse)
    (world : World) {request : UserInputRequest}
    (pending : session.pendingUserInputRequest = some request) :
    if request.requestId = response.requestId then
      resolvePending ((RunInvocation.resume response).call policy)
        (startRun session (.resume response) world) =
          (answeredRun session response world request, .ok ())
    else
      ∃ failed error, resolvePending ((RunInvocation.resume response).call policy)
        (startRun session (.resume response) world) = (failed, .error error) := by
  unfold resolvePending
  have held : (startRun session (.resume response) world).session.pendingUserInputRequest =
      some request := pending
  rw [held]
  split
  · rename_i same
    simp only [resolveUserInputRequest, RunInvocation.call, submittedUserInputPrompter, startRun,
      ConversationRuntime.new, RunInvocation.response?, same, ne_eq, not_true_eq_false, if_false]
    rfl
  · rename_i differ
    have other : response.requestId ≠ request.requestId := fun same => differ same.symm
    simp only [resolveUserInputRequest, RunInvocation.call, submittedUserInputPrompter, startRun,
      ConversationRuntime.new, RunInvocation.response?, other, ne_eq, not_false_eq_true, if_true]
    exact ⟨_, _, rfl⟩

/-- The model's reply to the answered session, when it asks for nothing. -/
theorem askModel_passive (policy : Policy World) {message : ConversationMessage}
    (replies : RepliesPassively provider session response world message)
    (request : UserInputRequest) :
    ∃ after, askModel (recordingApiClient provider) ((RunInvocation.resume response).call policy)
        (answeredRun session response world request) [] = (after, .ok (message, [], false)) ∧
      after.session = (answeredSession session response).push message := by
  obtain ⟨events, usage, streamed, built, passive⟩ := replies
  have none_ : ∀ block ∈ message.blocks, block.isAction = false := by
    simpa using passive
  unfold askModel
  dsimp only
  rw [stream_result]
  have asked : (provider.stream
      ⟨(answeredRun session response world request).systemPrompt,
        (answeredRun session response world request).session.messages⟩
      (answeredRun session response world request).world.world).2 = .ok events := streamed
  rw [asked]
  dsimp only
  rw [built]
  dsimp only
  rw [handleBlocks_passive none_]
  exact ⟨_, rfl, rfl⟩

/-- What a message that asks for nothing changes of what is awaited: nothing. -/
theorem awaiting_push_passive {message : ConversationMessage} {events : List AssistantEvent}
    {usage : Option TokenUsage} (built : buildAssistantMessage events = .ok (message, usage))
    (passive : message.blocks.any ContentBlock.isAction = false) (earlier : Session) :
    awaiting (earlier.push message).messages = awaiting earlier.messages := by
  have none_ : ∀ block ∈ message.blocks, block.isAction = false := by
    simpa using passive
  rw [awaiting_push, foldl_awaitBlock, (buildAssistantMessage_unanswering built).2,
    awaited_of_no_requests (noActions none_).2]
  simp

/-- **A resumption succeeds with a request left open exactly in that case.** -/
theorem resume_leaves_iff :
    ((∃ summary, (executeRun (.ok provider) policy session (.resume response) world).result =
          .ok summary) ∧
        awaiting (executeRun (.ok provider) policy session (.resume response)
          world).finalSession.messages ≠ []) ↔
      LeavesAnother provider session response world := by
  obtain ⟨more, limit⟩ : ∃ more, (startRun session (.resume response) world).maxIterations =
      more + 1 := ⟨2 ^ 64 - 2, rfl⟩
  have run : ((RunInvocation.resume response).call policy).run (recordingApiClient provider)
      (startRun session (.resume response) world) =
        if session.pendingUserInputRequest.isNone then
          (startRun session (.resume response) world,
            .error { message := "session has no pending request-user-input item" })
        else continueTurn (recordingApiClient provider) ((RunInvocation.resume response).call policy)
          (more + 1) (startRun session (.resume response) world) [] [] 0 := by
    rw [← limit]
    rfl
  simp only [executeRun]
  rw [run]
  cases pending : session.pendingUserInputRequest with
  | none =>
      constructor
      · rintro ⟨⟨summary, ended⟩, -⟩
        cases ended
      · rintro ⟨⟨request, held, -⟩, -, -⟩
        rw [pending] at held
        cases held
  | some request =>
  have resolved := resolvePending_resume policy response world pending
  by_cases same : request.requestId = response.requestId
  · rw [if_pos same] at resolved
    have silent : Silent (.resume response) (answeredRun session response world request) :=
      Or.inr rfl
    constructor
    · rintro ⟨⟨summary, ended⟩, open_⟩
      rw [Option.isNone_some, if_neg nofun, continueTurn, resolved] at ended open_
      dsimp only at ended open_
      cases asked : askModel (recordingApiClient provider)
          ((RunInvocation.resume response).call policy)
          (answeredRun session response world request) [] with
      | mk last answered =>
      rw [asked] at ended open_
      cases answered with
      | error error => cases ended
      | ok reply =>
          obtain ⟨message, results, handled⟩ := reply
          obtain ⟨later, awaits, events, usage, streamed, built, acts⟩ :=
            askModel_silent _ _ _ _ _ _ silent asked
          cases handled with
          | true =>
              dsimp only at ended open_
              rw [if_pos rfl] at ended open_
              exact absurd (continueTurn_silent _ _ _ _ _ _ _ later (Prod.ext rfl ended)) open_
          | false =>
              dsimp only at open_
              rw [if_neg nofun] at open_
              refine ⟨⟨request, pending, same⟩, ?_, message, events, usage, streamed, built, acts.symm⟩
              intro nothing
              exact open_ (awaits.trans nothing)
    · rintro ⟨-, another, message, replies⟩
      obtain ⟨after, asked, final⟩ := askModel_passive policy replies request
      obtain ⟨events, usage, -, built, passive⟩ := replies
      rw [Option.isNone_some, if_neg nofun, continueTurn, resolved]
      dsimp only
      rw [asked]
      refine ⟨⟨_, rfl⟩, ?_⟩
      show awaiting after.session.messages ≠ []
      rw [final, awaiting_push_passive built passive]
      exact another
  · rw [if_neg same] at resolved
    obtain ⟨failed, error, unresolved⟩ := resolved
    constructor
    · rintro ⟨⟨summary, ended⟩, -⟩
      rw [Option.isNone_some, if_neg nofun, continueTurn, unresolved] at ended
      cases ended
    · rintro ⟨⟨other, held, matches_⟩, -, -⟩
      rw [pending] at held
      cases held
      exact absurd matches_ same

end Resume

/-- The run succeeds with a request left open. -/
def LeavesRequest (client : Except String (Environment World)) (session : Session)
    (invocation : RunInvocation) (world : World) : Prop :=
  match invocation, client with
  | .resume response, .ok provider => LeavesAnother provider session response world
  | .resume _, .error _ | .turn _, _ => False

theorem turn_leaves_nothing {client : Except String (Environment World)} {policy : Policy World}
    {session : Session} {message : String} {world : World} {summary : TurnSummary}
    (ended : (executeRun client policy session (.turn message) world).result = .ok summary) :
    awaiting (executeRun client policy session (.turn message) world).finalSession.messages =
      [] := by
  cases client with
  | error error => cases ended
  | ok provider =>
      simp only [executeRun] at ended ⊢
      have silent : Silent (.turn message) ((startRun session (.turn message) world).push
          (ConversationMessage.userText message)) := Or.inl rfl
      exact continueTurn_silent _ _ _ _ _ _ _ silent (Prod.ext rfl ended)

/-- A success with something awaited, for every kind of run. -/
theorem executeRun_leaves_iff (client : Except String (Environment World))
    (policy : Policy World) (session : Session) (invocation : RunInvocation) (world : World) :
    ((∃ summary, (executeRun client policy session invocation world).result = .ok summary) ∧
        awaiting (executeRun client policy session invocation world).finalSession.messages ≠ []) ↔
      LeavesRequest client session invocation world := by
  cases invocation with
  | turn message =>
      constructor
      · rintro ⟨⟨summary, ended⟩, open_⟩
        exact open_ (turn_leaves_nothing ended)
      · exact False.elim
  | resume response =>
      cases client with
      | error error =>
          constructor
          · rintro ⟨⟨summary, ended⟩, -⟩
            cases ended
          · exact False.elim
      | ok provider => exact resume_leaves_iff

/-! ## The last event and the status -/

/-- `run.completed` or `run.failed`. -/
def ProtocolEvent.ends : ProtocolEvent → Bool
  | .runCompleted .. | .runFailed .. => true
  | .runStarted _ | .userInputSubmitted _ | .assistant _ | .toolResult .. |
    .runWaitingUserInput _ => false

/-- The last event says what the status says: it waits for the request the thread awaits,
and ends the run when the thread is idle. -/
def EventMatches (runId : RunId) (next : ThreadInner) (event : ProtocolEvent) : Prop :=
  (∀ request, event = .runWaitingUserInput request ↔
      next.status = .awaitingUserInput runId request) ∧
    (event.ends ↔ next.status = .idle)

theorem completeRunEvents_getLast? (finalSession : Session) (optimisticLen : Nat)
    (recordedBatches : List (List AssistantEvent)) (result : Except RuntimeError TurnSummary) :
    (completeRunEvents finalSession optimisticLen recordedBatches result (.ok ())).getLast? =
      some (terminalEvent finalSession result) :=
  List.getLast?_concat ..

theorem eventMatches_iff (inner : ThreadInner) (now : UInt64) (runId : RunId)
    (finalSession : Session) (result : Except RuntimeError TurnSummary) :
    EventMatches runId (inner.completeRun now runId finalSession)
        (terminalEvent finalSession result) ↔
      ¬((∃ summary, result = .ok summary) ∧ awaiting finalSession.messages ≠ []) := by
  have open_ : awaiting finalSession.messages ≠ [] ↔
      finalSession.pendingUserInputRequest ≠ none := not_congr (pending_none_iff _).symm
  rw [open_]
  unfold EventMatches terminalEvent ThreadInner.completeRun
  cases result with
  | ok summary =>
      cases pending : finalSession.pendingUserInputRequest with
      | none => simp [ProtocolEvent.ends]
      | some request => simp [ProtocolEvent.ends]
  | error error =>
      cases pending : finalSession.pendingUserInputRequest with
      | none => simp [ProtocolEvent.ends]
      | some request => simp [ProtocolEvent.ends]

/-- **The last event matches the thread's status**, when the row was written, in every
run but those that leave a request open when they succeed. -/
theorem terminal_matches_iff (client : Except String (Environment World))
    (policy : Policy World) (session : Session) (invocation : RunInvocation) (world : World)
    (inner : ThreadInner) (now : UInt64) (runId : RunId) (optimisticLen : Nat) :
    (∃ event, (completeRunEvents (executeRun client policy session invocation world).finalSession
          optimisticLen (executeRun client policy session invocation world).recordedBatches
          (executeRun client policy session invocation world).result (.ok ())).getLast? =
          some event ∧
        EventMatches runId (inner.completeRun now runId
          (executeRun client policy session invocation world).finalSession) event) ↔
      ¬LeavesRequest client session invocation world := by
  rw [← executeRun_leaves_iff client policy session invocation world,
    ← eventMatches_iff inner now runId, completeRunEvents_getLast?]
  constructor
  · rintro ⟨event, same, matching⟩
    cases same
    exact matching
  · exact fun matching => ⟨_, rfl, matching⟩

/-! ## Two requests in one message -/

/-- Everything is allowed. -/
def allowAll : Policy Nat := fun _ _ world => (world, .allow)

def branchRequest : UserInputRequest := ⟨"request-1", "Which branch?", [], true⟩

def nameRequest : UserInputRequest := ⟨"request-2", "Which name?", [], true⟩

/-- The turn: the model asks two things at once. -/
def askTwice : RunExecution :=
  executeRun (.ok (scripted [[.requestUserInput branchRequest, .requestUserInput nameRequest,
    .messageStop]])) allowAll {} (.turn "go") 0

/-- The resumption: the first is answered, and the model says it is done. -/
def answerFirst : RunExecution :=
  executeRun (.ok (scripted [[.textDelta "done", .messageStop]])) allowAll askTwice.finalSession
    (.resume ⟨"request-1", "keep current branch", none⟩) 0

def resumedThread : ThreadInner :=
  { id := "thread-1"
    createdAt := 0
    updatedAt := 1
    session := answeredSession askTwice.finalSession ⟨"request-1", "keep current branch", none⟩
    config := ⟨"/workspace", "opus", .workspaceWrite, []⟩
    status := .running "run-1"
    lastSequence := 8 }

/-- The thread awaits the second request, and the last event is `run.completed`. -/
theorem answerFirst_mismatch :
    (resumedThread.completeRun 2 "run-1" answerFirst.finalSession).status =
        .awaitingUserInput "run-1" nameRequest ∧
      (completeRunEvents answerFirst.finalSession 3 answerFirst.recordedBatches
        answerFirst.result (.ok ())).getLast? = some (.runCompleted 1 1 0 {}) ∧
      ¬EventMatches "run-1" (resumedThread.completeRun 2 "run-1" answerFirst.finalSession)
        (.runCompleted 1 1 0 {}) := by
  have status : (resumedThread.completeRun 2 "run-1" answerFirst.finalSession).status =
      .awaitingUserInput "run-1" nameRequest := rfl
  refine ⟨status, rfl, fun matching => ?_⟩
  have waits := (matching.1 nameRequest).2 status
  cases waits

end Openyak.Server
