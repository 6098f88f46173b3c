/-
# Server.Replay -- the replay of a run, complete and in order

A run is made of rounds: a batch of the model, the message built from it, and what the runtime
put behind that message (`continueTurn_rounds`).  Only the last batch can be without a message.
So the replay's cursor, which steps over one assistant message for each batch, gives each batch
its own message (`emitProtocolReplay_rounds`), and every answer stands between the events of its
batch and those of the next (`replay_complete`).
-/
import Openyak.Server.RunExecution
import Openyak.Runtime.LoopInvariant
import Mathlib.Data.List.Forall2

namespace Openyak.Server

open Openyak.Runtime

set_option autoImplicit false

variable {World : Type}

/-! ## A complete replay -/

def ProtocolEvent.assistantEvent? : ProtocolEvent → Option AssistantEvent
  | .assistant event => some event
  | _ => none

/-- The events that the model sent. -/
def assistantEventsOf (events : List ProtocolEvent) : List AssistantEvent :=
  events.filterMap ProtocolEvent.assistantEvent?

/-- The events that it did not. -/
def answersOf (events : List ProtocolEvent) : List ProtocolEvent :=
  events.filter fun event => event.assistantEvent?.isNone

def isAssistant (message : ConversationMessage) : Bool := message.role = .assistant

/-- The event of each tool result and each response in the messages, in their order. -/
def blockEvents (messages : List ConversationMessage) : List ProtocolEvent :=
  (allBlocks messages).filterMap messageBlockEvent

/-- What a replay of these batches beside these messages should emit: each event of the model and
each answer once and in its order, an answer behind all the events of the batches whose messages
come before it and in front of the others. -/
structure ReplayComplete (batches : List (List AssistantEvent)) (messages : List ConversationMessage)
    (events : List ProtocolEvent) : Prop where
  own : List.Forall₂ (fun batch message => ∃ usage, buildAssistantMessage batch = .ok (message, usage))
    (batches.take (messages.countP isAssistant)) (messages.filter isAssistant)
  rejected : ∀ batch ∈ batches.drop (messages.countP isAssistant),
    ∃ error, buildAssistantMessage batch = .error error
  assistantEvents : assistantEventsOf events = batches.flatten
  answers : answersOf events = blockEvents messages
  placed : ∀ before message after, messages = before ++ message :: after →
    ∃ earlier later, events = earlier ++ blockEvents [message] ++ later ∧
      assistantEventsOf earlier = (batches.take (before.countP isAssistant)).flatten ∧
      answersOf earlier = blockEvents before

/-! ## Rounds -/

/-- A batch, the message built from it, and the messages put behind that one. -/
structure Round where
  batch : List AssistantEvent
  message : ConversationMessage
  answers : List ConversationMessage
  built : ∃ usage, buildAssistantMessage batch = .ok (message, usage)
  others : ∀ answer ∈ answers, isAssistant answer = false

namespace Round

def messages (round : Round) : List ConversationMessage := round.message :: round.answers

def events (round : Round) : List ProtocolEvent :=
  round.batch.map .assistant ++ blockEvents round.answers

theorem isAssistant_message (round : Round) : isAssistant round.message = true := by
  obtain ⟨usage, built⟩ := round.built
  obtain ⟨blocks, same⟩ := buildAssistantMessage_ok built
  rw [same]
  rfl

/-- The message of a batch answers nothing. -/
theorem blockEvents_message (round : Round) : blockEvents [round.message] = [] := by
  obtain ⟨usage, built⟩ := round.built
  obtain ⟨noResults, noResponses⟩ := buildAssistantMessage_unanswering built
  have none_ : ∀ block ∈ round.message.blocks, messageBlockEvent block = none := by
    intro block member
    cases block with
    | toolResult id name output isError =>
        have inside := List.filterMap_eq_nil_iff.1 noResults _ member
        cases inside
    | userInputResponse id content selected =>
        have inside := List.filterMap_eq_nil_iff.1 noResponses _ member
        cases inside
    | _ => rfl
  simpa [blockEvents, allBlocks] using none_

theorem countP_messages (rounds : List Round) :
    (rounds.flatMap Round.messages).countP isAssistant = rounds.length := by
  induction rounds with
  | nil => rfl
  | cons round rounds ih =>
      have none_ : round.answers.countP isAssistant = 0 :=
        List.countP_eq_zero.2 fun answer member => by simp [round.others answer member]
      simp [Round.messages, isAssistant_message, none_, ih]

theorem filter_messages (rounds : List Round) :
    (rounds.flatMap Round.messages).filter isAssistant = rounds.map Round.message := by
  induction rounds with
  | nil => rfl
  | cons round rounds ih =>
      have none_ : round.answers.filter isAssistant = [] :=
        List.filter_eq_nil_iff.2 fun answer member => by simp [round.others answer member]
      simp [Round.messages, isAssistant_message, none_, ih]

end Round

/-! ## The replay of rounds -/

@[simp] theorem blockEvents_append (earlier later : List ConversationMessage) :
    blockEvents (earlier ++ later) = blockEvents earlier ++ blockEvents later := by
  simp [blockEvents]

theorem flatMap_emitProtocolMessageBlocks (messages : List ConversationMessage) :
    messages.flatMap emitProtocolMessageBlocks = blockEvents messages := by
  simp only [blockEvents, allBlocks, List.filterMap_flatMap]
  rfl

@[simp] theorem blockEvents_round (round : Round) (messages : List ConversationMessage) :
    blockEvents (round.message :: messages) = blockEvents messages := by
  rw [← List.singleton_append, blockEvents_append, round.blockEvents_message, List.nil_append]

/-- The message of a round goes with its batch, and so does all that is put behind it. -/
theorem emitProtocolReplay_round (round : Round) (batches : List (List AssistantEvent))
    (rounds : List Round) :
    emitProtocolReplay (round.batch :: batches)
        (round.messages ++ rounds.flatMap Round.messages) =
      round.events ++ emitProtocolReplay batches (rounds.flatMap Round.messages) := by
  have own : round.message.role = .assistant := by
    simpa [isAssistant] using round.isAssistant_message
  have others : ∀ answer ∈ round.answers, decide (answer.role ≠ .assistant) = true :=
    fun answer member => by simpa [isAssistant] using round.others answer member
  -- The next round begins with an assistant message, where the cursor stops.
  have stop : (rounds.flatMap Round.messages).takeWhile (fun message => message.role ≠ .assistant) =
        [] ∧
      (rounds.flatMap Round.messages).dropWhile (fun message => message.role ≠ .assistant) =
        rounds.flatMap Round.messages := by
    cases rounds with
    | nil => exact ⟨rfl, rfl⟩
    | cons next rounds =>
        have role : next.message.role = .assistant := by
          simpa [isAssistant] using next.isAssistant_message
        simp [Round.messages, role]
  rw [emitProtocolReplay, Round.messages, List.cons_append, skipAssistant, if_pos own,
    List.takeWhile_append_of_pos others, List.dropWhile_append_of_pos others, stop.1, stop.2,
    List.append_nil, flatMap_emitProtocolMessageBlocks]
  rfl

/-- **The replay of a run's batches and messages is the events of its rounds**, and then those
of the batches that no message was built from. -/
theorem emitProtocolReplay_rounds (rounds : List Round) (last : List (List AssistantEvent)) :
    emitProtocolReplay (rounds.map Round.batch ++ last) (rounds.flatMap Round.messages) =
      rounds.flatMap Round.events ++ last.flatten.map .assistant := by
  induction rounds with
  | nil =>
      induction last with
      | nil => rfl
      | cons batch last ih =>
          simp only [List.map_nil, List.flatMap_nil, List.nil_append] at ih ⊢
          simp [emitProtocolReplay, skipAssistant, ih]
  | cons round rounds ih =>
      rw [List.map_cons, List.cons_append, List.flatMap_cons, emitProtocolReplay_round, ih]
      simp

@[simp] theorem assistantEventsOf_map (batch : List AssistantEvent) :
    assistantEventsOf (batch.map .assistant) = batch := by
  simp [assistantEventsOf, List.filterMap_map, Function.comp_def, ProtocolEvent.assistantEvent?]

@[simp] theorem answersOf_map (batch : List AssistantEvent) :
    answersOf (batch.map .assistant) = [] := by
  simp [answersOf, ProtocolEvent.assistantEvent?]

theorem messageBlockEvent_answers {block : ContentBlock} {event : ProtocolEvent}
    (emitted : messageBlockEvent block = some event) : event.assistantEvent? = none := by
  cases block <;> cases emitted <;> rfl

theorem assistantEvent_of_blockEvents {messages : List ConversationMessage} {event : ProtocolEvent}
    (member : event ∈ blockEvents messages) : event.assistantEvent? = none := by
  obtain ⟨block, -, emitted⟩ := List.mem_filterMap.1 member
  exact messageBlockEvent_answers emitted

@[simp] theorem assistantEventsOf_blockEvents (messages : List ConversationMessage) :
    assistantEventsOf (blockEvents messages) = [] :=
  List.filterMap_eq_nil_iff.2 fun _ member => assistantEvent_of_blockEvents member

@[simp] theorem answersOf_blockEvents (messages : List ConversationMessage) :
    answersOf (blockEvents messages) = blockEvents messages :=
  List.filter_eq_self.2 fun _ member => by simp [assistantEvent_of_blockEvents member]

@[simp] theorem assistantEventsOf_append (earlier later : List ProtocolEvent) :
    assistantEventsOf (earlier ++ later) = assistantEventsOf earlier ++ assistantEventsOf later :=
  List.filterMap_append

@[simp] theorem answersOf_append (earlier later : List ProtocolEvent) :
    answersOf (earlier ++ later) = answersOf earlier ++ answersOf later := by
  simp [answersOf]

theorem assistantEventsOf_rounds (rounds : List Round) :
    assistantEventsOf (rounds.flatMap Round.events) = (rounds.map Round.batch).flatten := by
  induction rounds with
  | nil => rfl
  | cons round rounds ih => simp [Round.events, ih]

theorem answersOf_rounds (rounds : List Round) :
    answersOf (rounds.flatMap Round.events) = blockEvents (rounds.flatMap Round.messages) := by
  induction rounds with
  | nil => rfl
  | cons round rounds ih =>
      simp [Round.events, Round.messages, ih]

/-- Where the answers of a message stand, by induction on the rounds before it. -/
theorem placed_in_rounds (rounds : List Round) (before after : List ConversationMessage)
    (message : ConversationMessage)
    (split : rounds.flatMap Round.messages = before ++ message :: after) :
    ∃ earlier later, rounds.flatMap Round.events = earlier ++ blockEvents [message] ++ later ∧
      assistantEventsOf earlier =
        ((rounds.map Round.batch).take (before.countP isAssistant)).flatten ∧
      answersOf earlier = blockEvents before := by
  induction rounds generalizing before with
  | nil => cases before <;> cases split
  | cons round rounds ih =>
      rw [List.flatMap_cons, Round.messages, List.cons_append] at split
      cases before with
      | nil =>
          obtain ⟨rfl, -⟩ := List.cons.inj split
          refine ⟨[], (round :: rounds).flatMap Round.events, ?_, rfl, rfl⟩
          simp [round.blockEvents_message]
      | cons first before =>
          obtain ⟨rfl, same⟩ := List.cons.inj split
          have assistant := round.isAssistant_message
          -- The message stands behind this round, when all the answers come before it.
          have beyond : ∀ between, before = round.answers ++ between →
              rounds.flatMap Round.messages = between ++ message :: after →
              ∃ earlier later, (round :: rounds).flatMap Round.events =
                  earlier ++ blockEvents [message] ++ later ∧
                assistantEventsOf earlier =
                  (((round :: rounds).map Round.batch).take
                    ((round.message :: before).countP isAssistant)).flatten ∧
                answersOf earlier = blockEvents (round.message :: before) := by
            rintro between rfl rest
            obtain ⟨earlier, later, events, models, answers⟩ := ih between rest
            have none_ : round.answers.countP isAssistant = 0 :=
              List.countP_eq_zero.2 fun answer member => by simp [round.others answer member]
            refine ⟨round.events ++ earlier, later, ?_, ?_, ?_⟩
            · simp [events]
            · simp [Round.events, models, assistant, none_]
            · simp [Round.events, answers]
          obtain ⟨between, left, right⟩ | ⟨between, left, right⟩ :=
            List.append_eq_append_iff.1 (show round.answers ++ rounds.flatMap Round.messages =
              before ++ message :: after from same)
          · exact beyond between left right
          · cases between with
            | nil => exact beyond [] (by simpa using left.symm) (by simpa using right.symm)
            | cons _ between =>
                obtain ⟨rfl, rfl⟩ := List.cons.inj right
                have none_ : before.countP isAssistant = 0 :=
                  List.countP_eq_zero.2 fun answer member => by
                    simp [round.others answer (left ▸ List.mem_append_left _ member)]
                refine ⟨round.batch.map .assistant ++ blockEvents before,
                  blockEvents between ++ rounds.flatMap Round.events, ?_, ?_, ?_⟩
                · have parts : blockEvents (message :: between) =
                      blockEvents [message] ++ blockEvents between :=
                    blockEvents_append [message] between
                  simp [Round.events, left, parts]
                · simp [assistant, none_]
                · simp

/-- **The replay of rounds is complete**, also behind a batch that could not be used. -/
theorem replay_of_rounds (rounds : List Round) (last : List (List AssistantEvent))
    (unusable : ∀ batch ∈ last, ∃ error, buildAssistantMessage batch = .error error) :
    ReplayComplete (rounds.map Round.batch ++ last) (rounds.flatMap Round.messages)
      (emitProtocolReplay (rounds.map Round.batch ++ last) (rounds.flatMap Round.messages)) := by
  have count := Round.countP_messages rounds
  have length : rounds.length = (rounds.map Round.batch).length := (List.length_map _).symm
  rw [emitProtocolReplay_rounds]
  constructor
  · rw [count, Round.filter_messages, length, List.take_left, List.forall₂_map_left_iff,
      List.forall₂_map_right_iff, List.forall₂_same]
    exact fun round _ => round.built
  · rw [count, length, List.drop_left]
    exact unusable
  · rw [assistantEventsOf_append, assistantEventsOf_rounds, assistantEventsOf_map, List.flatten_append]
  · rw [answersOf_append, answersOf_rounds, answersOf_map, List.append_nil]
  · intro before message after split
    obtain ⟨earlier, later, events, models, answers⟩ :=
      placed_in_rounds rounds before after message split
    refine ⟨earlier, later ++ last.flatten.map .assistant, ?_, ?_, answers⟩
    · simp [events]
    · have within : before.countP isAssistant ≤ (rounds.map Round.batch).length := by
        rw [← length, ← count, split, List.countP_append]
        omega
      rw [models, List.take_append_of_le_length within]

/-! ## A run is made of rounds -/

section Run

variable {provider : Environment World} {policy : Policy World} {invocation : RunInvocation}

/-- What a part of a run adds to the record and to the session. -/
structure Adds (before after : ConversationRuntime (Execution World))
    (batches : List (List AssistantEvent)) (messages : List ConversationMessage) : Prop where
  batches : after.world.recordedBatches = before.world.recordedBatches ++ batches
  messages : after.session.messages = before.session.messages ++ messages

namespace Adds

theorem refl (runtime : ConversationRuntime (Execution World)) : Adds runtime runtime [] [] :=
  ⟨by simp, by simp⟩

theorem trans {first second third : ConversationRuntime (Execution World)}
    {batches moreBatches : List (List AssistantEvent)} {messages more : List ConversationMessage}
    (earlier : Adds first second batches messages) (later : Adds second third moreBatches more) :
    Adds first third (batches ++ moreBatches) (messages ++ more) :=
  ⟨by rw [later.batches, earlier.batches, List.append_assoc],
    by rw [later.messages, earlier.messages, List.append_assoc]⟩

theorem push {before after : ConversationRuntime (Execution World)}
    {batches : List (List AssistantEvent)} {messages : List ConversationMessage}
    (adds : Adds before after batches messages) (message : ConversationMessage) :
    Adds before (after.push message) batches (messages ++ [message]) :=
  ⟨adds.batches, by simp [ConversationRuntime.push, Session.push, adds.messages]⟩

end Adds

/-- No message of these is the model's. -/
def Others (messages : List ConversationMessage) : Prop :=
  ∀ message ∈ messages, isAssistant message = false

theorem Others.append {earlier later : List ConversationMessage} (left : Others earlier)
    (right : Others later) : Others (earlier ++ later) :=
  fun message member => (List.mem_append.1 member).elim (left message) (right message)

theorem isAssistant_of_unbilled {message : ConversationMessage} (unbilled : Unbilled message) :
    isAssistant message = false := by
  rcases unbilled.role with role | role <;> simp [isAssistant, role]

theorem useTool_recordedBatches (id name input : String) (execution : Execution World) :
    (useTool (recordingApiClient provider) (invocation.call policy) id name input
      execution).1.recordedBatches = execution.recordedBatches := by
  unfold useTool
  split
  · rename_i after reason authorized
    have moved : execution.withWorld _ = after := congrArg Prod.fst authorized
    subst moved
    rfl
  · rename_i after authorized
    have moved : execution.withWorld _ = after := congrArg Prod.fst authorized
    subst moved
    dsimp only
    split <;> rfl

theorem prompter_recordedBatches (request : UserInputRequest) (execution : Execution World) :
    (submittedUserInputPrompter request execution).1.recordedBatches =
      execution.recordedBatches := by
  unfold submittedUserInputPrompter
  split <;> rfl

/-- A question adds nothing by itself; a response to it is not the model's message. -/
theorem resolveUserInputRequest_adds (request : UserInputRequest) (rest : List ContentBlock)
    (runtime : ConversationRuntime (Execution World)) :
    Adds runtime (resolveUserInputRequest (invocation.call policy) request rest runtime).1 [] [] ∧
      ∀ response, (resolveUserInputRequest (invocation.call policy) request rest runtime).2 =
        .ok response → isAssistant response = false := by
  unfold resolveUserInputRequest
  cases invocation with
  | turn message => exact ⟨⟨(List.append_nil _).symm, (List.append_nil _).symm⟩, nofun⟩
  | resume held =>
      refine ⟨⟨?_, ?_⟩, fun response resolved => ?_⟩
      · rw [List.append_nil]
        exact prompter_recordedBatches request runtime.world
      · exact (List.append_nil _).symm
      · simp only [RunInvocation.call] at resolved
        split at resolved
        · cases resolved
          rfl
        · cases resolved
        · cases resolved

/-- The loop over a message adds answers only, also when it ends early. -/
theorem handleBlocks_adds (blocks : List ContentBlock)
    (runtime : ConversationRuntime (Execution World)) (toolResults : List ConversationMessage)
    (handledAction : Bool) :
    ∃ answers, Others answers ∧
      Adds runtime (handleBlocks (recordingApiClient provider) (invocation.call policy) blocks
        runtime toolResults handledAction).1 [] answers := by
  induction blocks generalizing runtime toolResults handledAction with
  | nil => exact ⟨[], nofun, Adds.refl runtime⟩
  | cons block rest ih =>
      cases block with
      | text text => exact ih runtime toolResults handledAction
      | toolResult id name output isError => exact ih runtime toolResults handledAction
      | userInputResponse id content selected => exact ih runtime toolResults handledAction
      | toolUse id name input =>
          rw [handleBlocks]
          have unbilled := useTool_unbilled (recordingApiClient provider)
            (invocation.call policy) id name input runtime.world
          have kept := @useTool_recordedBatches World provider policy invocation id name input
            runtime.world
          generalize useTool (recordingApiClient provider) (invocation.call policy) id name input
            runtime.world = used at unbilled kept
          obtain ⟨answers, others, adds⟩ := ih ((runtime.withWorld used.1).push used.2)
            (toolResults ++ [used.2]) true
          have moved : Adds runtime (runtime.withWorld used.1) [] [] :=
            ⟨by rw [List.append_nil]; exact kept, by rw [List.append_nil]; rfl⟩
          have first := moved.push used.2
          refine ⟨used.2 :: answers, ?_, first.trans adds⟩
          exact List.forall_mem_cons.2 ⟨isAssistant_of_unbilled unbilled, others⟩
      | userInputRequest requestId prompt options allowFreeform =>
          obtain ⟨first, other⟩ := @resolveUserInputRequest_adds World policy invocation
            ⟨requestId, prompt, options, allowFreeform⟩ rest runtime
          rw [handleBlocks]
          split
          · rename_i after error resolved
            rw [resolved] at first
            exact ⟨[], nofun, first⟩
          · rename_i after response resolved
            rw [resolved] at first other
            obtain ⟨answers, others, adds⟩ := ih (after.push response) toolResults true
            refine ⟨response :: answers, ?_, (first.push response).trans adds⟩
            exact List.forall_mem_cons.2 ⟨other response rfl, others⟩

/-- A request to the model: it fails and nothing is added, its batch is recorded and cannot be
used, or a round is. -/
theorem askModel_adds (runtime : ConversationRuntime (Execution World))
    (toolResults : List ConversationMessage) :
    ((∃ error, (askModel (recordingApiClient provider) (invocation.call policy) runtime
          toolResults).2 = .error error) ∧
        ∃ last : List (List AssistantEvent),
          (∀ batch ∈ last, ∃ error, buildAssistantMessage batch = .error error) ∧
          Adds runtime (askModel (recordingApiClient provider) (invocation.call policy) runtime
            toolResults).1 last []) ∨
      ∃ round : Round,
        Adds runtime (askModel (recordingApiClient provider) (invocation.call policy) runtime
          toolResults).1 [round.batch] round.messages := by
  unfold askModel
  dsimp only [recordingApiClient]
  generalize provider.stream ⟨runtime.systemPrompt, runtime.session.messages⟩ runtime.world.world =
    streamed
  obtain ⟨world, streamed⟩ := streamed
  cases streamed with
  | error error =>
      exact Or.inl ⟨⟨error, rfl⟩, [], nofun, (List.append_nil _).symm, (List.append_nil _).symm⟩
  | ok events =>
      dsimp only
      cases built : buildAssistantMessage events with
      | error error =>
          refine Or.inl ⟨⟨error, rfl⟩, [events], ?_, rfl, (List.append_nil _).symm⟩
          exact fun batch member => ⟨error, List.mem_singleton.1 member ▸ built⟩
      | ok reply =>
          obtain ⟨message, usage⟩ := reply
          -- The runtime once the message is in its session, and the loop over its blocks.
          obtain ⟨answers, others, adds⟩ := @handleBlocks_adds World provider policy invocation
            message.blocks (((runtime.logRequest ⟨runtime.systemPrompt,
              runtime.session.messages⟩).withWorld { runtime.world with
                world := world
                recordedBatches := runtime.world.recordedBatches ++ [events] }).recordUsage
              usage |>.push message) toolResults false
          have first : Adds runtime (((runtime.logRequest ⟨runtime.systemPrompt,
              runtime.session.messages⟩).withWorld { runtime.world with
                world := world
                recordedBatches := runtime.world.recordedBatches ++ [events] }).recordUsage
              usage |>.push message) [events] [message] := ⟨rfl, rfl⟩
          exact Or.inr ⟨⟨events, message, answers, ⟨usage, built⟩, others⟩, first.trans adds⟩

/-- The head of the loop: a response is added to a session that waits for one, and the loop
goes on; or nothing is, and it ends. -/
theorem resolvePending_adds (runtime : ConversationRuntime (Execution World)) :
    ((∃ error, (resolvePending (invocation.call policy) runtime).2 = .error error) ∧
        Adds runtime (resolvePending (invocation.call policy) runtime).1 [] []) ∨
      (resolvePending (invocation.call policy) runtime).2 = .ok () ∧
        ∃ answers, Others answers ∧
          Adds runtime (resolvePending (invocation.call policy) runtime).1 [] answers ∧
          answers.length = if runtime.session.pendingUserInputRequest.isSome then 1 else 0 := by
  unfold resolvePending
  cases pending : runtime.session.pendingUserInputRequest with
  | none => exact Or.inr ⟨rfl, [], nofun, Adds.refl runtime, rfl⟩
  | some request =>
      obtain ⟨adds, other⟩ := @resolveUserInputRequest_adds World policy invocation request []
        runtime
      dsimp only
      generalize resolveUserInputRequest (invocation.call policy) request [] runtime = resolved
        at adds other
      obtain ⟨after, response | response⟩ := resolved
      · exact Or.inl ⟨⟨response, rfl⟩, adds⟩
      · refine Or.inr ⟨rfl, [response], ?_, adds.push response, rfl⟩
        exact fun message member => List.mem_singleton.1 member ▸ other response rfl

/-- What the loop has added once it ends: the answers of its head, rounds, and at most the
batches that could not be used. -/
structure Rounds (before after : ConversationRuntime (Execution World))
    (answers : List ConversationMessage) (rounds : List Round)
    (last : List (List AssistantEvent)) : Prop where
  unusable : ∀ batch ∈ last, ∃ error, buildAssistantMessage batch = .error error
  adds : Adds before after (rounds.map Round.batch ++ last)
    (answers ++ rounds.flatMap Round.messages)

/-- The answers given at the head of the next turn of the loop belong to the round before. -/
def Round.behind (round : Round) (answers : List ConversationMessage) (others : Others answers) :
    Round :=
  { round with
    answers := round.answers ++ answers
    others := Others.append round.others others }

theorem Rounds.cons {before middle after : ConversationRuntime (Execution World)} {round : Round}
    {answers : List ConversationMessage} {rounds : List Round} {last : List (List AssistantEvent)}
    (first : Adds before middle [round.batch] round.messages) (others : Others answers)
    (later : Rounds middle after answers rounds last) :
    Rounds before after [] (round.behind answers others :: rounds) last := by
  refine ⟨later.unusable, ?_⟩
  have both := first.trans later.adds
  simpa [Round.behind, Round.messages] using both

theorem Rounds.behind {before middle after : ConversationRuntime (Execution World)}
    {answers : List ConversationMessage} {rounds : List Round} {last : List (List AssistantEvent)}
    (first : Adds before middle [] answers) (later : Rounds middle after [] rounds last) :
    Rounds before after answers rounds last :=
  ⟨later.unusable, by simpa using first.trans later.adds⟩

/-- **A run is made of rounds**, by induction on the iterations left.  At its head the loop adds
the response it waits for, or ends with nothing added. -/
theorem continueTurn_rounds (remaining : Nat) (runtime : ConversationRuntime (Execution World))
    (assistantMessages toolResults : List ConversationMessage) (iterations : Nat) :
    ∃ answers rounds last, Others answers ∧
      Rounds runtime (continueTurn (recordingApiClient provider) (invocation.call policy) remaining
        runtime assistantMessages toolResults iterations).1 answers rounds last ∧
      ((resolvePending (invocation.call policy) runtime).2 = .ok () ∧
          answers.length = (if runtime.session.pendingUserInputRequest.isSome then 1 else 0) ∨
        answers = [] ∧ rounds = [] ∧ last = []) := by
  induction remaining generalizing runtime assistantMessages toolResults iterations with
  | zero =>
      have head := @resolvePending_adds World policy invocation runtime
      rw [continueTurn]
      generalize resolvePending (invocation.call policy) runtime = resolved at head
      obtain ⟨first, ended⟩ := resolved
      rcases head with ⟨⟨error, rfl⟩, adds⟩ | ⟨rfl, answers, others, adds, one⟩
      · exact ⟨[], [], [], List.forall_mem_nil _, ⟨List.forall_mem_nil _, adds⟩,
          Or.inr ⟨rfl, rfl, rfl⟩⟩
      · exact ⟨answers, [], [], others, ⟨List.forall_mem_nil _, by simpa using adds⟩,
          Or.inl ⟨rfl, one⟩⟩
  | succ remaining ih =>
      have head := @resolvePending_adds World policy invocation runtime
      rw [continueTurn]
      generalize resolvePending (invocation.call policy) runtime = resolved at head
      obtain ⟨first, ended⟩ := resolved
      rcases head with ⟨⟨error, rfl⟩, adds⟩ | ⟨rfl, answers, others, adds, one⟩
      · exact ⟨[], [], [], List.forall_mem_nil _, ⟨List.forall_mem_nil _, adds⟩,
          Or.inr ⟨rfl, rfl, rfl⟩⟩
      have body := @askModel_adds World provider policy invocation first toolResults
      dsimp only at adds ⊢
      generalize askModel (recordingApiClient provider) (invocation.call policy) first toolResults =
        asked at body
      obtain ⟨second, answered⟩ := asked
      rcases body with ⟨⟨error, rfl⟩, last, unusable, more⟩ | ⟨round, more⟩
      · have rounds : Rounds first second [] [] last := ⟨unusable, by simpa using more⟩
        exact ⟨answers, [], last, others, rounds.behind adds, Or.inl ⟨rfl, one⟩⟩
      -- The reply was usable: its round stands first.
      have alone : Rounds first second [] [round] [] := ⟨List.forall_mem_nil _, by simpa using more⟩
      rcases answered with error | ⟨message, results, handledAction⟩
      · exact ⟨answers, [round], [], others, alone.behind adds, Or.inl ⟨rfl, one⟩⟩
      cases handledAction with
      | false => exact ⟨answers, [round], [], others, alone.behind adds, Or.inl ⟨rfl, one⟩⟩
      | true =>
          obtain ⟨behind, rounds, last, othersLater, later, -⟩ :=
            ih second (assistantMessages ++ [message]) results (iterations + 1)
          exact ⟨answers, round.behind behind othersLater :: rounds, last, others,
            (Rounds.cons more othersLater later).behind adds, Or.inl ⟨rfl, one⟩⟩

/-! ## The replay of a run -/

/-- A run whose rounds stand behind what the session held when it was started. -/
theorem replay_of_run {before after : ConversationRuntime (Execution World)} {rounds : List Round}
    {answers : List ConversationMessage} {last : List (List AssistantEvent)} {length : Nat}
    (made : Rounds before after answers rounds last) (fresh : before.world.recordedBatches = [])
    (held : before.session.messages.length + answers.length = length) :
    ReplayComplete after.world.recordedBatches (after.session.messages.drop length)
      (emitProtocolReplay after.world.recordedBatches (after.session.messages.drop length)) := by
  have new : after.session.messages.drop length = rounds.flatMap Round.messages := by
    rw [made.adds.messages, ← List.append_assoc, ← held, ← List.length_append, List.drop_left]
  rw [new, made.adds.batches, fresh, List.nil_append]
  exact replay_of_rounds rounds last made.unusable

/-- A run that adds nothing has nothing to replay. -/
theorem replay_of_nothing {before after : ConversationRuntime (Execution World)} {length : Nat}
    (adds : Adds before after [] []) (fresh : before.world.recordedBatches = [])
    (held : before.session.messages.length ≤ length) :
    ReplayComplete after.world.recordedBatches (after.session.messages.drop length)
      (emitProtocolReplay after.world.recordedBatches (after.session.messages.drop length)) := by
  have none_ : after.session.messages.drop length = [] := by
    rw [adds.messages, List.append_nil]
    exact List.drop_of_length_le held
  rw [none_, adds.batches, fresh]
  exact replay_of_rounds [] [] nofun

theorem turn_adds_no_answer {runtime : ConversationRuntime (Execution World)} {message : String}
    (resolved : (resolvePending ((RunInvocation.turn message).call policy) runtime).2 = .ok ()) :
    runtime.session.pendingUserInputRequest = none := by
  cases pending : runtime.session.pendingUserInputRequest with
  | none => rfl
  | some request =>
      have silent : Silent (.turn message) runtime := Or.inl rfl
      obtain ⟨after, error, failed⟩ := resolve_silent policy silent request []
      rw [resolvePending, pending] at resolved
      dsimp only at resolved
      rw [failed] at resolved
      cases resolved

end Run

end Openyak.Server
