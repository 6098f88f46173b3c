/-
# Runtime.LoopInvariant -- what every turn keeps

The runtime changes in a few ways only: the world moves on, a log grows, a message
without usage is pushed, a reply's usage is recorded and the reply pushed.  What these
keep (`LoopInvariant`) every call keeps, also one that ends in an error.
-/
import Openyak.Runtime.Conversation

namespace Openyak.Runtime

set_option autoImplicit false

variable {World : Type}

/-- The messages of a turn that are not the model's. -/
structure Unbilled (message : ConversationMessage) : Prop where
  usage : message.usage = none
  role : message.role = .user ∨ message.role = .tool

structure LoopInvariant (holds : ConversationRuntime World → Prop) : Prop where
  world : ∀ runtime world, holds runtime → holds (runtime.withWorld world)
  prompt : ∀ runtime prompt, holds runtime → holds (runtime.logPrompt prompt)
  request : ∀ runtime request, holds runtime → holds (runtime.logRequest request)
  answer : ∀ runtime message, Unbilled message → holds runtime → holds (runtime.push message)
  reply : ∀ runtime blocks usage, holds runtime → holds ((runtime.recordUsage usage).push
    (ConversationMessage.assistantWithUsage blocks usage))

theorem unbilled_userText (text : String) : Unbilled (ConversationMessage.userText text) :=
  ⟨rfl, Or.inl rfl⟩

theorem unbilled_userInputResponse (requestId content : String) (selectedOption : Option String) :
    Unbilled (ConversationMessage.userInputResponse requestId content selectedOption) :=
  ⟨rfl, Or.inl rfl⟩

theorem unbilled_toolResult (toolUseId toolName output : String) (isError : Bool) :
    Unbilled (ConversationMessage.toolResult toolUseId toolName output isError) :=
  ⟨rfl, Or.inr rfl⟩

theorem useTool_unbilled (env : Environment World) (call : Call World) (id name input : String)
    (world : World) : Unbilled (useTool env call id name input world).2 := by
  unfold useTool
  split
  · exact unbilled_toolResult id name _ true
  · dsimp only
    split
    · exact unbilled_toolResult id name _ true
    · exact unbilled_toolResult id name _ _

/-- A reply that can be used is the assistant's, with the usage it reported. -/
theorem buildAssistantMessage_ok {events : List AssistantEvent} {message : ConversationMessage}
    {usage : Option TokenUsage} (built : buildAssistantMessage events = .ok (message, usage)) :
    ∃ blocks, message = ConversationMessage.assistantWithUsage blocks usage := by
  unfold buildAssistantMessage at built
  dsimp only at built
  split at built
  · cases built
  · split at built
    · cases built
    · cases built
      exact ⟨_, rfl⟩

namespace LoopInvariant

variable {holds : ConversationRuntime World → Prop} (invariant : LoopInvariant holds)
  (env : Environment World) (call : Call World)

include invariant

theorem resolveUserInputRequest (request : UserInputRequest) (rest : List ContentBlock)
    {runtime : ConversationRuntime World} (held : holds runtime) :
    holds (resolveUserInputRequest call request rest runtime).1 ∧
      ∀ message, (resolveUserInputRequest call request rest runtime).2 = .ok message →
        Unbilled message := by
  unfold Runtime.resolveUserInputRequest
  split
  · exact ⟨invariant.prompt _ _ held, nofun⟩
  · rename_i prompt asked
    refine ⟨invariant.prompt _ _ (invariant.world _ _ held), fun message resolved => ?_⟩
    dsimp only at resolved
    split at resolved
    · cases resolved
      exact unbilled_userInputResponse _ _ _
    · cases resolved
    · cases resolved

theorem handleBlocks (blocks : List ContentBlock) (runtime : ConversationRuntime World)
    (toolResults : List ConversationMessage) (handledAction : Bool) (held : holds runtime) :
    holds (handleBlocks env call blocks runtime toolResults handledAction).1 := by
  induction blocks generalizing runtime toolResults handledAction with
  | nil => exact held
  | cons block rest ih =>
      cases block with
      | text text => exact ih runtime toolResults handledAction held
      | toolResult id name output isError => exact ih runtime toolResults handledAction held
      | userInputResponse id content selected => exact ih runtime toolResults handledAction held
      | toolUse id name input =>
          refine ih _ _ _ (invariant.answer _ _ ?_ (invariant.world _ _ held))
          exact useTool_unbilled env call id name input runtime.world
      | userInputRequest requestId prompt options allowFreeform =>
          obtain ⟨kept, answers⟩ := invariant.resolveUserInputRequest call
            ⟨requestId, prompt, options, allowFreeform⟩ rest held
          rw [Runtime.handleBlocks]
          split
          · rename_i after error resolved
            rw [resolved] at kept
            exact kept
          · rename_i after response resolved
            rw [resolved] at kept answers
            exact ih _ _ _ (invariant.answer _ _ (answers response rfl) kept)

theorem resolvePending {runtime : ConversationRuntime World} (held : holds runtime) :
    holds (resolvePending call runtime).1 := by
  unfold Runtime.resolvePending
  split
  · exact held
  · rename_i request pending
    obtain ⟨kept, answers⟩ := invariant.resolveUserInputRequest call request [] held
    split
    · rename_i after error resolved
      rw [resolved] at kept
      exact kept
    · rename_i after response resolved
      rw [resolved] at kept answers
      exact invariant.answer _ _ (answers response rfl) kept

theorem askModel (toolResults : List ConversationMessage) {runtime : ConversationRuntime World}
    (held : holds runtime) : holds (askModel env call runtime toolResults).1 := by
  unfold Runtime.askModel
  dsimp only
  have asked := invariant.world _ (env.stream ⟨runtime.systemPrompt, runtime.session.messages⟩
    runtime.world).1 (invariant.request _ ⟨runtime.systemPrompt, runtime.session.messages⟩ held)
  split
  · exact asked
  · split
    · exact asked
    · rename_i message usage built
      obtain ⟨blocks, rfl⟩ := buildAssistantMessage_ok built
      exact invariant.handleBlocks _ _ _ _ _ _ (invariant.reply _ blocks usage asked)

theorem continueTurn (remaining : Nat) (runtime : ConversationRuntime World)
    (assistantMessages toolResults : List ConversationMessage) (iterations : Nat)
    (held : holds runtime) :
    holds (continueTurn env call remaining runtime assistantMessages toolResults iterations).1 := by
  induction remaining generalizing runtime assistantMessages toolResults iterations with
  | zero =>
      rw [Runtime.continueTurn]
      have resolved := invariant.resolvePending call held
      split <;> rename_i after _ kept <;> rw [kept] at resolved <;> exact resolved
  | succ remaining ih =>
      rw [Runtime.continueTurn]
      have resolved := invariant.resolvePending call held
      split
      · rename_i after error kept
        rw [kept] at resolved
        exact resolved
      · rename_i after kept
        rw [kept] at resolved
        have asked := invariant.askModel env call toolResults resolved
        dsimp only
        split
        · rename_i last error ended
          rw [ended] at asked
          exact asked
        · rename_i last message results handledAction ended
          rw [ended] at asked
          split
          · exact ih _ _ _ _ asked
          · exact asked

theorem run {runtime : ConversationRuntime World} (held : holds runtime) :
    holds (call.run env runtime).1 := by
  unfold Call.run
  split
  · exact invariant.continueTurn _ _ _ _ _ _ _ (invariant.answer _ _ (unbilled_userText _) held)
  · split
    · exact held
    · exact invariant.continueTurn _ _ _ _ _ _ _ held

/-- **Every sequence of calls keeps a loop invariant**, whatever the calls return. -/
theorem runCalls (calls : List (Call World)) (runtime : ConversationRuntime World)
    (held : holds runtime) : holds (runCalls env calls runtime) := by
  induction calls generalizing runtime with
  | nil => exact held
  | cons call calls ih => exact ih _ (invariant.run env call held)

end LoopInvariant

end Openyak.Runtime
