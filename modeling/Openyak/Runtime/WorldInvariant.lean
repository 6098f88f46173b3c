/-
# Runtime.WorldInvariant -- what a turn does to the world

A turn changes the world by asking the model, by using tools and by asking the user,
and in no other way.  What these keep (`WorldInvariant`) every call keeps, also one
that ends in an error.
-/
import Openyak.Runtime.Conversation

namespace Openyak.Runtime

set_option autoImplicit false

variable {World : Type}

structure WorldInvariant (env : Environment World) (call : Call World)
    (holds : World → Prop) : Prop where
  stream : ∀ request world, holds world → holds (env.stream request world).1
  tool : ∀ id name input world, holds world → holds (useTool env call id name input world).1
  prompt : ∀ prompt, call.prompter = some prompt →
    ∀ request world, holds world → holds (prompt request world).1

namespace WorldInvariant

variable {env : Environment World} {call : Call World} {holds : World → Prop}
  (invariant : WorldInvariant env call holds)

include invariant

theorem resolveUserInputRequest (request : UserInputRequest) (rest : List ContentBlock)
    {runtime : ConversationRuntime World} (held : holds runtime.world) :
    holds (resolveUserInputRequest call request rest runtime).1.world := by
  unfold Runtime.resolveUserInputRequest
  split
  · exact held
  · rename_i prompt asked
    exact invariant.prompt prompt asked request runtime.world held

theorem handleBlocks (blocks : List ContentBlock) (runtime : ConversationRuntime World)
    (toolResults : List ConversationMessage) (handledAction : Bool) (held : holds runtime.world) :
    holds (handleBlocks env call blocks runtime toolResults handledAction).1.world := by
  induction blocks generalizing runtime toolResults handledAction with
  | nil => exact held
  | cons block rest ih =>
      cases block with
      | text text => exact ih runtime toolResults handledAction held
      | toolResult id name output isError => exact ih runtime toolResults handledAction held
      | userInputResponse id content selected => exact ih runtime toolResults handledAction held
      | toolUse id name input => exact ih _ _ _ (invariant.tool id name input runtime.world held)
      | userInputRequest requestId prompt options allowFreeform =>
          have kept := invariant.resolveUserInputRequest
            ⟨requestId, prompt, options, allowFreeform⟩ rest held
          rw [Runtime.handleBlocks]
          split
          · rename_i after error resolved
            rw [resolved] at kept
            exact kept
          · rename_i after response resolved
            rw [resolved] at kept
            exact ih _ _ _ kept

theorem resolvePending {runtime : ConversationRuntime World} (held : holds runtime.world) :
    holds (resolvePending call runtime).1.world := by
  unfold Runtime.resolvePending
  split
  · exact held
  · rename_i request pending
    have kept := invariant.resolveUserInputRequest request [] held
    split
    · rename_i after error resolved
      rw [resolved] at kept
      exact kept
    · rename_i after response resolved
      rw [resolved] at kept
      exact kept

theorem askModel (toolResults : List ConversationMessage) {runtime : ConversationRuntime World}
    (held : holds runtime.world) : holds (askModel env call runtime toolResults).1.world := by
  unfold Runtime.askModel
  dsimp only
  have asked := invariant.stream ⟨runtime.systemPrompt, runtime.session.messages⟩ runtime.world held
  split
  · exact asked
  · split
    · exact asked
    · exact invariant.handleBlocks _ _ _ _ asked

theorem continueTurn (remaining : Nat) (runtime : ConversationRuntime World)
    (assistantMessages toolResults : List ConversationMessage) (iterations : Nat)
    (held : holds runtime.world) :
    holds (continueTurn env call remaining runtime assistantMessages toolResults
      iterations).1.world := by
  induction remaining generalizing runtime assistantMessages toolResults iterations with
  | zero =>
      rw [Runtime.continueTurn]
      have resolved := invariant.resolvePending held
      split <;> rename_i after _ kept <;> rw [kept] at resolved <;> exact resolved
  | succ remaining ih =>
      rw [Runtime.continueTurn]
      have resolved := invariant.resolvePending held
      split
      · rename_i after error kept
        rw [kept] at resolved
        exact resolved
      · rename_i after kept
        rw [kept] at resolved
        have asked := invariant.askModel toolResults resolved
        dsimp only
        split
        · rename_i last error ended
          rw [ended] at asked
          exact asked
        · rename_i last message results handledAction ended
          rw [ended] at asked
          split
          · exact ih _ _ _ _ asked
          · exact asked

/-- **Every call keeps what its model, its tools and its prompter keep.** -/
theorem run {runtime : ConversationRuntime World} (held : holds runtime.world) :
    holds (call.run env runtime).1.world := by
  unfold Call.run
  split
  · exact invariant.continueTurn _ _ _ _ _ held
  · split
    · exact held
    · exact invariant.continueTurn _ _ _ _ _ held

end WorldInvariant

end Openyak.Runtime
