/-
# Runtime.Conversation -- `run_turn`, `resume_pending_turn` and their loop

A turn asks the model, answers every action block of its reply, and asks again
until a reply has none.  A user-input request that gets no reply ends the turn
with an error; the next turn asks for it first.

What the runtime talks to (the client, the tools, the hooks, the prompters) is a
state `World` and functions on it.  Beside the runtime's own fields two logs are
kept that the code does not have: the requests handed to the client, and the
questions put to the user with what came back.
-/
import Openyak.Runtime.Session
import Openyak.Runtime.Hooks
import Openyak.Runtime.Usage
import Openyak.Theory.Text

namespace Openyak.Runtime

open Openyak.Theory

set_option autoImplicit false

/-! ## What the runtime talks to -/

structure ApiRequest where
  systemPrompt : List String
  messages : List ConversationMessage
  deriving DecidableEq, Repr

inductive UserInputOutcome where
  | submitted (response : UserInputResponse)
  | cancelled
  | unavailable (reason : String)
  deriving DecidableEq, Repr

inductive PermissionOutcome where
  | allow
  | deny (reason : String)
  deriving DecidableEq, Repr

/-- The client, the tools and the hooks of a runtime. -/
structure Environment (World : Type) where
  stream : ApiRequest → World → World × Except RuntimeError (List AssistantEvent)
  execute : (name input : String) → World → World × Except String String
  runPreToolUse : (name input : String) → World → World × HookRunResult
  runPostToolUse : (name input output : String) → (isError : Bool) → World → World × HookRunResult

inductive Turn where
  | runTurn (userInput : String)
  | resumePendingTurn
  deriving DecidableEq, Repr

/-- One call of the runtime: the turn, the permission policy with the prompter of
the call, and its user-input prompter, if any. -/
structure Call (World : Type) where
  turn : Turn
  authorize : (name input : String) → World → World × PermissionOutcome
  prompter : Option (UserInputRequest → World → World × UserInputOutcome)

/-! ## The runtime -/

/-- A question put to the user: what came back (nothing without a prompter), and
the blocks behind the request in its message. -/
structure Prompt where
  request : UserInputRequest
  outcome : Option UserInputOutcome
  rest : List ContentBlock
  deriving DecidableEq, Repr

structure ConversationRuntime (World : Type) where
  session : Session
  systemPrompt : List String
  maxIterations : Nat
  usageTracker : UsageTracker
  world : World
  requests : List ApiRequest := []
  prompts : List Prompt := []

structure TurnSummary where
  assistantMessages : List ConversationMessage
  toolResults : List ConversationMessage
  iterations : Nat
  usage : TokenUsage
  deriving DecidableEq, Repr

variable {World : Type}

namespace ConversationRuntime

/-- `ConversationRuntime::new`; an iteration count is a 64-bit one. -/
def new (session : Session) (systemPrompt : List String) (world : World) :
    ConversationRuntime World where
  session := session
  systemPrompt := systemPrompt
  maxIterations := 2 ^ 64 - 1
  usageTracker := .fromSession session
  world := world

/-- `with_max_iterations`. -/
def withMaxIterations (runtime : ConversationRuntime World) (maxIterations : Nat) :
    ConversationRuntime World := { runtime with maxIterations := maxIterations }

def push (runtime : ConversationRuntime World) (message : ConversationMessage) :
    ConversationRuntime World :=
  { runtime with session := runtime.session.push message }

def withWorld (runtime : ConversationRuntime World) (world : World) :
    ConversationRuntime World := { runtime with world := world }

def logPrompt (runtime : ConversationRuntime World) (prompt : Prompt) :
    ConversationRuntime World := { runtime with prompts := runtime.prompts ++ [prompt] }

def logRequest (runtime : ConversationRuntime World) (request : ApiRequest) :
    ConversationRuntime World := { runtime with requests := runtime.requests ++ [request] }

def recordUsage (runtime : ConversationRuntime World) (usage : Option TokenUsage) :
    ConversationRuntime World :=
  { runtime with usageTracker := usage.elim runtime.usageTracker runtime.usageTracker.record }

end ConversationRuntime

/-! ## The assistant message -/

/-- The locals of `build_assistant_message`. -/
structure MessageBuilder where
  text : String := ""
  blocks : List ContentBlock := []
  finished : Bool := false
  usage : Option TokenUsage := none
  deriving DecidableEq, Repr

def flushTextBlock (builder : MessageBuilder) : MessageBuilder :=
  if builder.text = "" then builder
  else { builder with text := "", blocks := builder.blocks ++ [.text builder.text] }

def MessageBuilder.add (builder : MessageBuilder) : AssistantEvent → MessageBuilder
  | .textDelta delta => { builder with text := builder.text ++ delta }
  | .toolUse id name input =>
      let builder := flushTextBlock builder
      { builder with blocks := builder.blocks ++ [.toolUse id name input] }
  | .requestUserInput request =>
      let builder := flushTextBlock builder
      { builder with
        blocks := builder.blocks ++ [.userInputRequest request.requestId request.prompt
          request.options request.allowFreeform] }
  | .usage usage => { builder with usage := some usage }
  | .messageStop => { builder with finished := true }

def buildAssistantMessage (events : List AssistantEvent) :
    Except RuntimeError (ConversationMessage × Option TokenUsage) :=
  let builder := flushTextBlock (events.foldl MessageBuilder.add {})
  if !builder.finished then
    .error { message := "assistant stream ended without a message stop event" }
  else if builder.blocks = [] then
    .error { message := "assistant stream produced no content" }
  else .ok (ConversationMessage.assistantWithUsage builder.blocks builder.usage, builder.usage)

/-! ## Answering a block -/

def formatHookMessage (result : HookRunResult) (fallback : String) : String :=
  if result.messages = [] then fallback else String.intercalate "\n" result.messages

def mergeHookFeedback (messages : List String) (output : String) (denied : Bool) : String :=
  if messages = [] then output
  else
    let sections := if Text.trim output.toList = [] then [] else [output]
    let label := if denied then "Hook feedback (denied)" else "Hook feedback"
    String.intercalate "\n\n"
      (sections ++ [label ++ ":\n" ++ String.intercalate "\n" messages])

/-- The tool result for a tool use: what the policy, the hooks and the tool say. -/
def useTool (env : Environment World) (call : Call World) (id name input : String)
    (world : World) : World × ConversationMessage :=
  match call.authorize name input world with
  | (world, .deny reason) => (world, .toolResult id name reason true)
  | (world, .allow) =>
      let pre := env.runPreToolUse name input world
      if pre.2.denied then
        (pre.1, .toolResult id name
          (formatHookMessage pre.2 ("PreToolUse hook denied tool `" ++ name ++ "`")) true)
      else
        let executed := env.execute name input pre.1
        let result : String × Bool :=
          match executed.2 with
          | .ok output => (output, false)
          | .error error => (error, true)
        let output := mergeHookFeedback pre.2.messages result.1 false
        let post := env.runPostToolUse name input output result.2 executed.1
        (post.1, .toolResult id name
          (mergeHookFeedback post.2.messages output post.2.denied) (result.2 || post.2.denied))

/-- Put a request to the user; `rest` is what follows it in its message. -/
def resolveUserInputRequest (call : Call World) (request : UserInputRequest)
    (rest : List ContentBlock) (runtime : ConversationRuntime World) :
    ConversationRuntime World × Except RuntimeError ConversationMessage :=
  match call.prompter with
  | none =>
      (runtime.logPrompt ⟨request, none, rest⟩, .error
        { message := "request-user-input '" ++ request.requestId ++
            "' is pending because no user-input responder is available"
          pendingUserInput := some request })
  | some prompt =>
      let prompted := prompt request runtime.world
      ((runtime.withWorld prompted.1).logPrompt ⟨request, some prompted.2, rest⟩,
        match prompted.2 with
        | .submitted response => .ok (.userInputResponse response.requestId response.content
            response.selectedOption)
        | .cancelled => .error
            { message := "request-user-input '" ++ request.requestId ++
                "' was cancelled before a reply was captured"
              pendingUserInput := some request }
        | .unavailable reason => .error
            { message := "request-user-input '" ++ request.requestId ++ "' is pending: " ++ reason
              pendingUserInput := some request })

/-- The loop over the blocks of an assistant message, with the tool results so far
and whether an action was handled. -/
def handleBlocks (env : Environment World) (call : Call World) :
    List ContentBlock → ConversationRuntime World → List ConversationMessage → Bool →
      ConversationRuntime World × Except RuntimeError (List ConversationMessage × Bool)
  | [], runtime, toolResults, handledAction => (runtime, .ok (toolResults, handledAction))
  | .toolUse id name input :: rest, runtime, toolResults, _ =>
      let used := useTool env call id name input runtime.world
      handleBlocks env call rest ((runtime.withWorld used.1).push used.2)
        (toolResults ++ [used.2]) true
  | .userInputRequest requestId prompt options allowFreeform :: rest, runtime, toolResults, _ =>
      match resolveUserInputRequest call ⟨requestId, prompt, options, allowFreeform⟩ rest
          runtime with
      | (runtime, .error error) => (runtime, .error error)
      | (runtime, .ok response) =>
          handleBlocks env call rest (runtime.push response) toolResults true
  | .text _ :: rest, runtime, toolResults, handledAction
  | .toolResult .. :: rest, runtime, toolResults, handledAction
  | .userInputResponse .. :: rest, runtime, toolResults, handledAction =>
      handleBlocks env call rest runtime toolResults handledAction

/-! ## The loop -/

/-- The head of the loop: a pending request is resolved first. -/
def resolvePending (call : Call World) (runtime : ConversationRuntime World) :
    ConversationRuntime World × Except RuntimeError Unit :=
  match runtime.session.pendingUserInputRequest with
  | none => (runtime, .ok ())
  | some request =>
      match resolveUserInputRequest call request [] runtime with
      | (runtime, .error error) => (runtime, .error error)
      | (runtime, .ok response) => (runtime.push response, .ok ())

/-- The rest of the body: ask the model and answer its reply. -/
def askModel (env : Environment World) (call : Call World)
    (runtime : ConversationRuntime World) (toolResults : List ConversationMessage) :
    ConversationRuntime World ×
      Except RuntimeError (ConversationMessage × List ConversationMessage × Bool) :=
  let request : ApiRequest := ⟨runtime.systemPrompt, runtime.session.messages⟩
  let streamed := env.stream request runtime.world
  let runtime := (runtime.logRequest request).withWorld streamed.1
  match streamed.2 with
  | .error error => (runtime, .error error)
  | .ok events =>
      match buildAssistantMessage events with
      | .error error => (runtime, .error error)
      | .ok (message, usage) =>
          let handled := handleBlocks env call message.blocks
            ((runtime.recordUsage usage).push message) toolResults false
          (handled.1, handled.2.map fun handled => (message, handled))

/-- `continue_turn` with `remaining` iterations left. -/
def continueTurn (env : Environment World) (call : Call World) :
    (remaining : Nat) → ConversationRuntime World →
      (assistantMessages toolResults : List ConversationMessage) → (iterations : Nat) →
        ConversationRuntime World × Except RuntimeError TurnSummary
  | remaining, runtime, assistantMessages, toolResults, iterations =>
    match resolvePending call runtime with
    | (runtime, .error error) => (runtime, .error error)
    | (runtime, .ok ()) =>
        match remaining with
        | 0 => (runtime, .error
            { message := "conversation loop exceeded the maximum number of iterations" })
        | remaining + 1 =>
            match askModel env call runtime toolResults with
            | (runtime, .error error) => (runtime, .error error)
            | (runtime, .ok (message, toolResults, handledAction)) =>
                if handledAction then
                  continueTurn env call remaining runtime (assistantMessages ++ [message])
                    toolResults (iterations + 1)
                else
                  (runtime, .ok
                    { assistantMessages := assistantMessages ++ [message]
                      toolResults := toolResults
                      iterations := iterations + 1
                      usage := runtime.usageTracker.cumulative })

/-- `run_turn` and `resume_pending_turn`. -/
def Call.run (env : Environment World) (call : Call World)
    (runtime : ConversationRuntime World) :
    ConversationRuntime World × Except RuntimeError TurnSummary :=
  match call.turn with
  | .runTurn userInput =>
      continueTurn env call runtime.maxIterations
        (runtime.push (ConversationMessage.userText userInput)) [] [] 0
  | .resumePendingTurn =>
      if runtime.session.pendingUserInputRequest.isNone then
        (runtime, .error { message := "session has no pending request-user-input item" })
      else continueTurn env call runtime.maxIterations runtime [] [] 0

/-- The runtime after a sequence of calls, whatever they returned. -/
def runCalls (env : Environment World) (calls : List (Call World))
    (runtime : ConversationRuntime World) : ConversationRuntime World :=
  calls.foldl (fun runtime call => (call.run env runtime).1) runtime

end Openyak.Runtime
