/-
# Runtime.NoDangling -- every request to the model has its actions answered

A reply block is left dangling in two ways only: a user-input request that stays
unanswered ends the loop over its message and drops the blocks behind it, and a
response may carry another request's id.  `Prompt.Kept` says of one question that
neither happened.

`Settled` is the invariant: tools are answered, at most one request is awaited,
and every request handed to the client was answered.  Each part of the loop keeps
it as long as its questions are kept; `requests_answered` is the result for every
sequence of calls.
-/
import Openyak.Runtime.Conversation
import Openyak.Runtime.Answered
import Mathlib.Data.List.Infix

namespace Openyak.Runtime

set_option autoImplicit false

variable {World : Type}

/-- Nothing dangles from this question: the response carries the request's id, or,
without a response, no action block follows the request in its message. -/
def Prompt.Kept (prompt : Prompt) : Prop :=
  match prompt.outcome with
  | some (.submitted response) => response.requestId = prompt.request.requestId
  | some .cancelled | some (.unavailable _) | none =>
      ∀ block ∈ prompt.rest, block.isAction = false

instance (prompt : Prompt) : Decidable prompt.Kept := by
  unfold Prompt.Kept
  split <;> infer_instance

def ConversationRuntime.blocks (runtime : ConversationRuntime World) : List ContentBlock :=
  allBlocks runtime.session.messages

structure Settled (runtime : ConversationRuntime World) : Prop where
  tools : (toolUseIds runtime.blocks).Nodup → ToolsAnswered runtime.blocks
  oneAwaited : (awaited runtime.blocks).length ≤ 1
  requests : ∀ request ∈ runtime.requests,
    UniqueIds (allBlocks request.messages) → Answered (allBlocks request.messages)

/-- All questions so far were kept. -/
def AllKept (runtime : ConversationRuntime World) : Prop :=
  ∀ prompt ∈ runtime.prompts, prompt.Kept

/-- The later runtime's questions begin with the earlier one's. -/
def Asked (before after : ConversationRuntime World) : Prop :=
  before.prompts <+: after.prompts

theorem Asked.refl (runtime : ConversationRuntime World) : Asked runtime runtime :=
  List.prefix_rfl

theorem Asked.trans {first second third : ConversationRuntime World}
    (earlier : Asked first second) (later : Asked second third) : Asked first third :=
  List.IsPrefix.trans earlier later

theorem Asked.allKept {before after : ConversationRuntime World} (asked : Asked before after)
    (kept : AllKept after) : AllKept before :=
  fun prompt member => kept prompt (asked.subset member)

@[simp] theorem blocks_push (runtime : ConversationRuntime World)
    (message : ConversationMessage) :
    (runtime.push message).blocks = runtime.blocks ++ message.blocks := by
  simp [ConversationRuntime.blocks, ConversationRuntime.push, Session.push, allBlocks]

/-! ## The messages of the model -/

theorem flushTextBlock_unanswering {builder : MessageBuilder}
    (unanswering : Unanswering builder.blocks) :
    Unanswering (flushTextBlock builder).blocks := by
  unfold flushTextBlock
  split
  · exact unanswering
  · exact unanswering_append.2 ⟨unanswering, rfl, rfl⟩

theorem add_unanswering {builder : MessageBuilder} (unanswering : Unanswering builder.blocks)
    (event : AssistantEvent) : Unanswering (builder.add event).blocks := by
  cases event with
  | textDelta _ => exact unanswering
  | usage _ => exact unanswering
  | messageStop => exact unanswering
  | toolUse _ _ _ =>
      exact unanswering_append.2 ⟨flushTextBlock_unanswering unanswering, rfl, rfl⟩
  | requestUserInput _ =>
      exact unanswering_append.2 ⟨flushTextBlock_unanswering unanswering, rfl, rfl⟩

/-- A built message holds no result and no response. -/
theorem buildAssistantMessage_unanswering {events : List AssistantEvent}
    {message : ConversationMessage} {usage : Option TokenUsage}
    (built : buildAssistantMessage events = .ok (message, usage)) :
    Unanswering message.blocks := by
  have all : ∀ (builder : MessageBuilder), Unanswering builder.blocks →
      Unanswering (events.foldl MessageBuilder.add builder).blocks := by
    clear built
    induction events with
    | nil => exact fun _ unanswering => unanswering
    | cons event events ih => exact fun _ unanswering => ih _ (add_unanswering unanswering event)
  unfold buildAssistantMessage at built
  simp only at built
  split at built
  · cases built
  · split at built
    · cases built
    · cases built
      exact flushTextBlock_unanswering (all {} ⟨rfl, rfl⟩)

/-! ## One question -/

section Question

variable (call : Call World) (request : UserInputRequest) (rest : List ContentBlock)
  (runtime : ConversationRuntime World)

/-- A question is logged, leaves the session alone, and gives a response with the
request's id if it is kept. -/
theorem resolveUserInputRequest_spec :
    ∃ outcome, let resolved := resolveUserInputRequest call request rest runtime
      resolved.1.session = runtime.session ∧ resolved.1.requests = runtime.requests ∧
        resolved.1.prompts = runtime.prompts ++ [⟨request, outcome, rest⟩] ∧
        (Prompt.Kept ⟨request, outcome, rest⟩ →
          (∀ response, resolved.2 = .ok response →
            ∃ content selected, response =
              .userInputResponse request.requestId content selected) ∧
          ∀ error, resolved.2 = .error error → ∀ block ∈ rest, block.isAction = false) := by
  unfold resolveUserInputRequest
  cases call.prompter with
  | none =>
      refine ⟨none, rfl, rfl, rfl, fun kept => ⟨fun response answered => ?_, fun error _ => kept⟩⟩
      cases answered
  | some prompt =>
      dsimp only
      generalize prompt request runtime.world = prompted
      obtain ⟨world, outcome⟩ := prompted
      refine ⟨some outcome, rfl, rfl, rfl, fun kept => ?_⟩
      cases outcome with
      | submitted response =>
          refine ⟨fun message answered => ?_, fun error failed => by cases failed⟩
          cases answered
          have same : response.requestId = request.requestId := kept
          exact ⟨response.content, response.selectedOption, by rw [same]⟩
      | cancelled => exact ⟨nofun, fun error _ => kept⟩
      | unavailable reason =>
          exact ⟨nofun, fun error _ => kept⟩

end Question

/-! ## The loop over a message -/

/-- What the loop over `blocks` leaves: it asked more questions, handed nothing to
the client, and, if its questions were kept, answered a first part of the blocks
behind which at most one action block is left, a request. -/
structure Handled (blocks : List ContentBlock) (before after : ConversationRuntime World) :
    Prop where
  asked : Asked before after
  requests : after.requests = before.requests
  answered : AllKept after → ∃ done rest replies, blocks = done ++ rest ∧
    after.blocks = before.blocks ++ replies ∧ AnswersTo done replies ∧
    toolUseIds rest = [] ∧ (requestIds rest).length ≤ 1

theorem useTool_answers (env : Environment World) (call : Call World) (id name input : String)
    (world : World) :
    ∃ output isError, (useTool env call id name input world).2 =
      .toolResult id name output isError := by
  unfold useTool
  split
  · exact ⟨_, _, rfl⟩
  · dsimp only
    split
    · exact ⟨_, _, rfl⟩
    · exact ⟨_, _, rfl⟩

/-- An answered block in front of a handled rest. -/
theorem Handled.cons {block : ContentBlock} {rest : List ContentBlock}
    {before middle after : ConversationRuntime World} (handled : Handled rest middle after)
    (asked : Asked before middle) (requests : middle.requests = before.requests)
    (answered : AllKept middle →
      ∃ replies, middle.blocks = before.blocks ++ replies ∧ AnswersTo [block] replies) :
    Handled (block :: rest) before after := by
  refine ⟨asked.trans handled.asked, handled.requests.trans requests, fun kept => ?_⟩
  obtain ⟨replies, held, answers⟩ := answered (handled.asked.allKept kept)
  obtain ⟨done, left, more, split, heldMore, answersMore, tools, one⟩ := handled.answered kept
  refine ⟨block :: done, left, replies ++ more, by rw [split, List.cons_append], ?_,
    answersTo_append answers answersMore, tools, one⟩
  rw [heldMore, held, List.append_assoc]

theorem noActions {blocks : List ContentBlock}
    (passive : ∀ block ∈ blocks, block.isAction = false) :
    toolUseIds blocks = [] ∧ requestIds blocks = [] := by
  constructor
  · refine List.filterMap_eq_nil_iff.2 fun block member => ?_
    have := passive block member
    cases block <;> simp_all [ContentBlock.isAction, ContentBlock.toolUseId?]
  · refine List.filterMap_eq_nil_iff.2 fun block member => ?_
    have := passive block member
    cases block <;> simp_all [ContentBlock.isAction, ContentBlock.requestId?]

/-- The loop over a message, whatever it returns. -/
theorem handleBlocks_handled (env : Environment World) (call : Call World)
    (blocks : List ContentBlock) (runtime : ConversationRuntime World)
    (toolResults : List ConversationMessage) (handledAction : Bool) :
    Handled blocks runtime
      (handleBlocks env call blocks runtime toolResults handledAction).1 := by
  induction blocks generalizing runtime toolResults handledAction with
  | nil =>
      exact ⟨Asked.refl runtime, rfl, fun _ =>
        ⟨[], [], [], rfl, by simp [handleBlocks], ⟨rfl, rfl, rfl, rfl⟩, rfl, by simp [requestIds]⟩⟩
  | cons block rest ih =>
      cases block with
      | text text =>
          exact (ih runtime toolResults handledAction).cons (Asked.refl runtime) rfl
            fun _ => ⟨[], by simp, ⟨rfl, rfl, rfl, rfl⟩⟩
      | toolResult _ _ _ _ =>
          exact (ih runtime toolResults handledAction).cons (Asked.refl runtime) rfl
            fun _ => ⟨[], by simp, ⟨rfl, rfl, rfl, rfl⟩⟩
      | userInputResponse _ _ _ =>
          exact (ih runtime toolResults handledAction).cons (Asked.refl runtime) rfl
            fun _ => ⟨[], by simp, ⟨rfl, rfl, rfl, rfl⟩⟩
      | toolUse id name input =>
          obtain ⟨output, isError, result⟩ :=
            useTool_answers env call id name input runtime.world
          refine (ih _ _ true).cons (List.prefix_rfl) rfl fun _ =>
            ⟨_, blocks_push _ _, ?_⟩
          rw [result]
          exact ⟨rfl, rfl, rfl, rfl⟩
      | userInputRequest id prompt options freeform =>
          obtain ⟨outcome, session, requests, prompts, answers⟩ :=
            resolveUserInputRequest_spec call ⟨id, prompt, options, freeform⟩ rest runtime
          simp only [handleBlocks]
          generalize resolveUserInputRequest call ⟨id, prompt, options, freeform⟩ rest runtime
            = resolved at session requests prompts answers
          obtain ⟨next, result⟩ := resolved
          simp only at session requests prompts answers
          have asked : Asked runtime next := ⟨_, prompts.symm⟩
          have keptHere : AllKept next → Prompt.Kept
              ⟨⟨id, prompt, options, freeform⟩, outcome, rest⟩ :=
            fun kept => kept _ (by rw [prompts]; simp)
          cases result with
          | error error =>
              refine ⟨asked, requests, fun kept => ?_⟩
              have passive := (answers (keptHere kept)).2 error rfl
              obtain ⟨tools, none⟩ := noActions passive
              refine ⟨[], _, [], rfl, ?_, ⟨rfl, rfl, rfl, rfl⟩, tools, ?_⟩
              · simp [ConversationRuntime.blocks, session]
              · have one : requestIds (.userInputRequest id prompt options freeform :: rest) =
                    id :: requestIds rest := rfl
                rw [one, none]
                exact le_rfl
          | ok response =>
              refine (ih (next.push response) toolResults true).cons asked requests fun kept => ?_
              obtain ⟨content, selected, same⟩ := (answers (keptHere kept)).1 response rfl
              refine ⟨_, by rw [blocks_push, ConversationRuntime.blocks, session]; rfl, ?_⟩
              rw [same]
              exact ⟨rfl, rfl, rfl, rfl⟩

/-! ## The invariant -/

section Steps

variable {before after : ConversationRuntime World}

/-- A message without tool uses and results leaves the tools answered. -/
theorem tools_push {runtime : ConversationRuntime World} {message : ConversationMessage}
    (settled : Settled runtime) (tools : toolUseIds message.blocks = [])
    (results : resultIds message.blocks = [])
    (unique : (toolUseIds (runtime.push message).blocks).Nodup) :
    ToolsAnswered (runtime.push message).blocks := by
  rw [blocks_push] at unique ⊢
  rw [toolUseIds_append, tools, List.append_nil] at unique
  refine toolsAnswered_append (settled.tools unique) (fun id _ => ?_)
    (toolsAnswered_of_no_tools tools)
  rw [results]
  exact List.not_mem_nil

theorem settled_push_text {runtime : ConversationRuntime World} (settled : Settled runtime)
    (text : String) : Settled (runtime.push (ConversationMessage.userText text)) := by
  refine ⟨tools_push settled rfl rfl, ?_, settled.requests⟩
  have none : responseIds (ConversationMessage.userText text).blocks = [] := rfl
  have scan : awaited (ConversationMessage.userText text).blocks = [] := rfl
  rw [blocks_push, awaited_append, none, scan, List.append_nil]
  exact (List.length_filter_le _ _).trans settled.oneAwaited

/-- The head of the loop: it asks at most one question, and when it goes on
nothing is awaited. -/
theorem resolvePending_settled (call : Call World) (runtime : ConversationRuntime World) :
    Asked runtime (resolvePending call runtime).1 ∧
      (AllKept (resolvePending call runtime).1 → Settled runtime →
        Settled (resolvePending call runtime).1 ∧
          ((resolvePending call runtime).2 = .ok () →
            awaited (resolvePending call runtime).1.blocks = [])) := by
  have head : runtime.session.pendingUserInputRequest = (awaited runtime.blocks).head? := by
    rw [Session.pendingUserInputRequest, awaiting_eq]
    rfl
  unfold resolvePending
  rw [head]
  cases pending : awaited runtime.blocks with
  | nil => exact ⟨Asked.refl runtime, fun _ settled => ⟨settled, fun _ => pending⟩⟩
  | cons request more =>
      obtain ⟨outcome, session, requests, prompts, answers⟩ :=
        resolveUserInputRequest_spec call request [] runtime
      simp only [List.head?_cons]
      generalize resolveUserInputRequest call request [] runtime = resolved
        at session requests prompts answers
      obtain ⟨next, result⟩ := resolved
      simp only at session requests prompts answers
      have asked : Asked runtime next := ⟨_, prompts.symm⟩
      have same : next.blocks = runtime.blocks := by
        rw [ConversationRuntime.blocks, session]
        rfl
      cases result with
      | error error =>
          refine ⟨asked, fun kept settled => ⟨⟨?_, ?_, ?_⟩, nofun⟩⟩
          · rw [same]
            exact settled.tools
          · rw [same]
            exact settled.oneAwaited
          · rw [requests]
            exact settled.requests
      | ok response =>
          refine ⟨asked, fun kept settled => ?_⟩
          obtain ⟨content, selected, rfl⟩ :=
            (answers (kept _ (by simp [ConversationRuntime.push, prompts]))).1 response rfl
          have blocks : (next.push (.userInputResponse request.requestId content selected)).blocks =
              runtime.blocks ++ [.userInputResponse request.requestId content selected] := by
            rw [blocks_push, same]
            rfl
          have nothing : awaited (runtime.blocks ++
              [.userInputResponse request.requestId content selected]) = [] := by
            have one := settled.oneAwaited
            rw [pending] at one
            obtain rfl : more = [] := by simpa using one
            rw [awaited_append, pending]
            simp [responseIds, ContentBlock.responseId?, awaited, awaitBlock]
          refine ⟨⟨fun unique => ?_, ?_, ?_⟩, fun _ => ?_⟩
          · have kept : Settled next := ⟨by rw [same]; exact settled.tools,
              by rw [same]; exact settled.oneAwaited, by rw [requests]; exact settled.requests⟩
            exact tools_push kept rfl rfl unique
          · rw [blocks, nothing]
            simp
          · change ∀ request ∈ next.requests, _
            rw [requests]
            exact settled.requests
          · rw [blocks, nothing]

/-- **One request to the model**: with nothing awaited it is answered, and the
answers to the reply leave at most one request awaited. -/
theorem askModel_settled (env : Environment World) (call : Call World)
    (runtime : ConversationRuntime World) (toolResults : List ConversationMessage) :
    Asked runtime (askModel env call runtime toolResults).1 ∧
      (AllKept (askModel env call runtime toolResults).1 → Settled runtime →
        awaited runtime.blocks = [] → Settled (askModel env call runtime toolResults).1) := by
  have logged : ∀ world, Settled runtime → awaited runtime.blocks = [] →
      Settled ((runtime.logRequest ⟨runtime.systemPrompt, runtime.session.messages⟩).withWorld
        world) := by
    intro world settled nothing
    refine ⟨settled.tools, settled.oneAwaited, fun request member unique => ?_⟩
    rcases List.mem_append.1 member with earlier | now
    · exact settled.requests request earlier unique
    · rw [List.mem_singleton] at now
      subst now
      exact ⟨settled.tools unique.tools, (requestsAnswered_iff _).2 nothing⟩
  unfold askModel
  dsimp only
  generalize env.stream ⟨runtime.systemPrompt, runtime.session.messages⟩ runtime.world = streamed
  obtain ⟨world, result⟩ := streamed
  cases result with
  | error error => exact ⟨List.prefix_rfl, fun _ settled nothing => logged world settled nothing⟩
  | ok events =>
      dsimp only
      cases built : buildAssistantMessage events with
      | error error =>
          exact ⟨List.prefix_rfl, fun _ settled nothing => logged world settled nothing⟩
      | ok reply =>
          obtain ⟨message, usage⟩ := reply
          dsimp only
          have unanswering := buildAssistantMessage_unanswering built
          have handled := handleBlocks_handled env call message.blocks
            ((((runtime.logRequest ⟨runtime.systemPrompt, runtime.session.messages⟩).withWorld
              world).recordUsage usage).push message) toolResults false
          generalize (handleBlocks env call message.blocks _ toolResults false).1 = after
            at handled ⊢
          refine ⟨handled.asked, fun kept settled nothing => ?_⟩
          obtain ⟨done, rest, replies, split, blocks, answers, tools, one⟩ :=
            handled.answered kept
          have now : after.blocks = runtime.blocks ++ (done ++ rest ++ replies) := by
            have same : (((runtime.logRequest ⟨runtime.systemPrompt,
              runtime.session.messages⟩).withWorld world).recordUsage usage).blocks =
                runtime.blocks := rfl
            rw [blocks, blocks_push, split, same]
            simp only [List.append_assoc]
          rw [split] at unanswering
          refine ⟨fun unique => ?_, ?_, ?_⟩
          · rw [now] at unique ⊢
            have toolIds : toolUseIds (runtime.blocks ++ (done ++ rest ++ replies)) =
                toolUseIds (runtime.blocks ++ (done ++ rest)) := by
              simp [answers.tools]
            rw [toolIds] at unique
            refine toolsAnswered_append_answers (settled.tools ?_) unanswering answers.tools ?_
              unique
            · rw [toolUseIds_append] at unique
              exact (List.nodup_append.1 unique).1
            · rw [answers.results, toolUseIds_append, tools, List.append_nil]
          · rw [now]
            exact (awaited_append_answers nothing unanswering answers).trans one
          · rw [handled.requests]
            exact (logged world settled nothing).requests

end Steps

/-! ## Whole runs -/

/-- The loop keeps the invariant, by induction on the iterations left. -/
theorem continueTurn_settled (env : Environment World) (call : Call World) (remaining : Nat)
    (runtime : ConversationRuntime World)
    (assistantMessages toolResults : List ConversationMessage) (iterations : Nat) :
    let after := (continueTurn env call remaining runtime assistantMessages toolResults
      iterations).1
    Asked runtime after ∧ (AllKept after → Settled runtime → Settled after) := by
  induction remaining generalizing runtime assistantMessages toolResults iterations with
  | zero =>
      obtain ⟨asked, settles⟩ := resolvePending_settled call runtime
      unfold continueTurn
      generalize resolvePending call runtime = resolved at asked settles
      obtain ⟨next, _ | _⟩ := resolved
      · exact ⟨asked, fun kept settled => (settles kept settled).1⟩
      · exact ⟨asked, fun kept settled => (settles kept settled).1⟩
  | succ remaining ih =>
      obtain ⟨asked, settles⟩ := resolvePending_settled call runtime
      unfold continueTurn
      generalize resolvePending call runtime = resolved at asked settles
      obtain ⟨head, _ | _⟩ := resolved
      · exact ⟨asked, fun kept settled => (settles kept settled).1⟩
      obtain ⟨askedModel, settlesModel⟩ := askModel_settled env call head toolResults
      dsimp only at asked settles ⊢
      generalize askModel env call head toolResults = answered at askedModel settlesModel
      -- One iteration, from the head of the loop to the end of its body.
      have body : Asked runtime answered.1 ∧
          (AllKept answered.1 → Settled runtime → Settled answered.1) := by
        refine ⟨asked.trans askedModel, fun kept settled => ?_⟩
        obtain ⟨settledHead, nothing⟩ := settles (askedModel.allKept kept) settled
        exact settlesModel kept settledHead (nothing rfl)
      obtain ⟨next, _ | ⟨message, results, handledAction⟩⟩ := answered
      · exact body
      · cases handledAction with
        | false => exact body
        | true =>
            obtain ⟨askedLater, settlesLater⟩ :=
              ih next (assistantMessages ++ [message]) results (iterations + 1)
            refine ⟨body.1.trans askedLater, fun kept settled => ?_⟩
            exact settlesLater kept (body.2 (askedLater.allKept kept) settled)

theorem call_settled (env : Environment World) (call : Call World)
    (runtime : ConversationRuntime World) :
    Asked runtime (call.run env runtime).1 ∧
      (AllKept (call.run env runtime).1 → Settled runtime →
        Settled (call.run env runtime).1) := by
  unfold Call.run
  cases call.turn with
  | runTurn userInput =>
      obtain ⟨asked, settles⟩ := continueTurn_settled env call runtime.maxIterations
        (runtime.push (ConversationMessage.userText userInput)) [] [] 0
      exact ⟨asked, fun kept settled => settles kept (settled_push_text settled userInput)⟩
  | resumePendingTurn =>
      dsimp only
      split
      · exact ⟨Asked.refl runtime, fun _ settled => settled⟩
      · exact continueTurn_settled env call runtime.maxIterations runtime [] [] 0

theorem runCalls_settled (env : Environment World) (calls : List (Call World))
    (runtime : ConversationRuntime World) :
    Asked runtime (runCalls env calls runtime) ∧
      (AllKept (runCalls env calls runtime) → Settled runtime →
        Settled (runCalls env calls runtime)) := by
  induction calls generalizing runtime with
  | nil => exact ⟨Asked.refl runtime, fun _ settled => settled⟩
  | cons call calls ih =>
      obtain ⟨asked, settles⟩ := call_settled env call runtime
      obtain ⟨askedLater, settlesLater⟩ := ih (call.run env runtime).1
      refine ⟨asked.trans askedLater, fun kept settled => ?_⟩
      exact settlesLater kept (settles (askedLater.allKept kept) settled)

/-- A runtime as it is made: nothing sent and nothing asked. -/
def ConversationRuntime.start (session : Session) (systemPrompt : List String)
    (maxIterations : Nat) (usageTracker : UsageTracker) (world : World) :
    ConversationRuntime World :=
  { session := session
    systemPrompt := systemPrompt
    maxIterations := maxIterations
    usageTracker := usageTracker
    world := world }

/-- **No dangling action**: from an answered session, whatever the client, the
tools, the policy, the hooks and the prompters do and whatever turns are called,
every request handed to the client is answered, as long as every question put to
the user is kept. -/
theorem requests_answered (env : Environment World) (session : Session)
    (systemPrompt : List String) (maxIterations : Nat) (usageTracker : UsageTracker)
    (world : World) (calls : List (Call World))
    (answered : Answered (allBlocks session.messages))
    (kept : AllKept (runCalls env calls
      (ConversationRuntime.start session systemPrompt maxIterations usageTracker world))) :
    ∀ request ∈ (runCalls env calls (ConversationRuntime.start session systemPrompt
        maxIterations usageTracker world)).requests,
      UniqueIds (allBlocks request.messages) → Answered (allBlocks request.messages) := by
  have settled : Settled (ConversationRuntime.start session systemPrompt maxIterations
      usageTracker world) := by
    refine ⟨fun _ => answered.tools, ?_, nofun⟩
    change (awaited (allBlocks session.messages)).length ≤ 1
    rw [(requestsAnswered_iff _).1 answered.requests]
    exact Nat.zero_le 1
  exact ((runCalls_settled env calls _).2 kept settled).requests

/-! ## A tool use behind an unanswered request -/

/-- A client that plays its replies one after the other, and a tool that answers. -/
def scripted (replies : List (List AssistantEvent)) : Environment Nat where
  stream _ played := (played + 1,
    match replies[played]? with
    | some events => .ok events
    | none => .error { message := "unexpected extra API call" })
  execute _ _ played := (played, .ok "4")
  runPreToolUse _ _ played := (played, ⟨false, []⟩)
  runPostToolUse _ _ _ _ played := (played, ⟨false, []⟩)

/-- Everything is allowed; the user answers, or there is no one to ask. -/
def attended (turn : Turn) : Call Nat where
  turn := turn
  authorize _ _ played := (played, .allow)
  prompter := some fun request played =>
    (played, .submitted ⟨request.requestId, "keep current branch", none⟩)

def unattended (turn : Turn) : Call Nat where
  turn := turn
  authorize _ _ played := (played, .allow)
  prompter := none

/-- The first reply asks the user and uses a tool, the second ends the turn. -/
def askThenUse : List (List AssistantEvent) :=
  [[.requestUserInput ⟨"request-1", "Which branch?", [], true⟩,
      .toolUse "tool-1" "add" "2,2", .messageStop],
    [.textDelta "done", .messageStop]]

def attendedRequests : List ApiRequest :=
  (runCalls (scripted askThenUse) [attended (.runTurn "go")]
    (ConversationRuntime.start {} [] 8 {} 0)).requests

theorem requests_answered_attended :
    Answered (allBlocks (attendedRequests.getLast (by decide)).messages) := by
  have unique : ((toolUseIds (allBlocks (attendedRequests.getLast (by decide)).messages)).Nodup ∧
      (requestIds (allBlocks (attendedRequests.getLast (by decide)).messages)).Nodup) := by
    decide
  exact requests_answered (scripted askThenUse) {} [] 8 {} 0 [attended (.runTurn "go")]
    ⟨trivial, trivial⟩ (by unfold AllKept; decide) _ (List.getLast_mem (by decide))
    ⟨unique.1, unique.2⟩

/-- Asked when no one is there, and resumed later: the tool use stays without a
result in the next request to the model. -/
theorem unattended_dangles :
    ∃ request ∈ (runCalls (scripted askThenUse)
        [unattended (.runTurn "go"), attended .resumePendingTurn]
        (ConversationRuntime.start {} [] 8 {} 0)).requests,
      UniqueIds (allBlocks request.messages) ∧ ¬ Answered (allBlocks request.messages) := by
  have dangling : ∃ request ∈ (runCalls (scripted askThenUse)
      [unattended (.runTurn "go"), attended .resumePendingTurn]
      (ConversationRuntime.start {} [] 8 {} 0)).requests,
      ((toolUseIds (allBlocks request.messages)).Nodup ∧
        (requestIds (allBlocks request.messages)).Nodup) ∧
        ¬ ToolsAnswered (allBlocks request.messages) := by
    decide
  obtain ⟨request, sent, ⟨tools, requests⟩, open_⟩ := dangling
  exact ⟨request, sent, ⟨tools, requests⟩, fun answered => open_ answered.tools⟩

end Openyak.Runtime
