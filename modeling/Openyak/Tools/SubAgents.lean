/-
# Tools.SubAgents -- what the Agent tool starts

The Agent tool writes its files and starts a thread with a job: a prompt, and the
tools of the sub-agent's type, a list fixed in the code.  The sub-agent's executor
enables these tools and calls their bodies with no enforcer and no bash policy.

`Delegated` is a world with the jobs started so far; `AgentHost` is what the Agent
tool calls outside.
-/
import Openyak.Tools.ToolRegistry
import Openyak.Theory.Text

namespace Openyak.Tools

open Openyak.Theory
open Openyak.Runtime

set_option autoImplicit false

/-! ## Types of sub-agents -/

/-- `char::to_lowercase` on the ASCII letters and digits, with one `tool` cut off. -/
def canonicalToolToken (value : String) : List Char :=
  let canonical := Text.toAsciiLowercase (value.toList.filter Char.isAlphanum)
  if "tool".toList.isSuffixOf canonical then canonical.take (canonical.length - 4) else canonical

def normalizeSubagentType (subagentType : Option String) : String :=
  let trimmed := String.ofList (Text.trim (subagentType.getD "").toList)
  if trimmed = "" then "general-purpose"
  else
    match String.ofList (canonicalToolToken trimmed) with
    | "general" | "generalpurpose" | "generalpurposeagent" => "general-purpose"
    | "explore" | "explorer" | "exploreagent" => "Explore"
    | "plan" | "planagent" => "Plan"
    | "verification" | "verificationagent" | "verify" | "verifier" => "Verification"
    | "openyakguide" | "openyakguideagent" | "guide" => "openyak-guide"
    | "statusline" | "statuslinesetup" => "statusline-setup"
    | _ => trimmed

def allowedToolsForSubagent : (subagentType : String) → List String
  | "Explore" =>
      ["read_file", "glob_search", "grep_search", "WebFetch", "WebSearch", "ToolSearch", "Skill",
        "StructuredOutput"]
  | "Plan" =>
      ["read_file", "glob_search", "grep_search", "WebFetch", "WebSearch", "ToolSearch", "Skill",
        "TodoWrite", "StructuredOutput", "SendUserMessage"]
  | "Verification" =>
      ["bash", "read_file", "glob_search", "grep_search", "WebFetch", "WebSearch", "ToolSearch",
        "TodoWrite", "StructuredOutput", "SendUserMessage", "PowerShell"]
  | "openyak-guide" =>
      ["read_file", "glob_search", "grep_search", "WebFetch", "WebSearch", "ToolSearch", "Skill",
        "StructuredOutput", "SendUserMessage"]
  | "statusline-setup" =>
      ["bash", "read_file", "write_file", "edit_file", "glob_search", "grep_search", "ToolSearch"]
  | _ =>
      ["bash", "read_file", "write_file", "edit_file", "glob_search", "grep_search", "WebFetch",
        "WebSearch", "TodoWrite", "Skill", "ToolSearch", "NotebookEdit", "Sleep",
        "SendUserMessage", "Config", "StructuredOutput", "REPL", "PowerShell"]

/-! ## The Agent tool -/

structure AgentInput where
  description : String
  prompt : String
  subagentType : Option String := none
  name : Option String := none
  model : Option String := none
  deriving DecidableEq, Repr

/-- What a sub-agent's thread is started with. -/
structure AgentJob where
  subagentType : String
  prompt : String
  systemPrompt : List String
  model : String
  allowedTools : List String
  deriving DecidableEq, Repr

/-- The world and the jobs started. -/
structure Delegated (σ : Type) where
  outside : σ
  jobs : List AgentJob := []

/-- What the Agent tool calls: the parser of its input, the steps from the agent's
id to its manifest, with the system prompt on the way, the start of a thread, and
`persist_agent_terminal_state`. -/
structure AgentHost (σ : Type) where
  agentInput : Json → Except String AgentInput
  prepare : AgentInput → σ → σ × Except String (List String)
  spawn : AgentJob → σ → σ × Except String Unit
  persistTerminalState : AgentInput → (status error : String) → σ → σ × Except String Unit
  manifest : AgentInput → String

def defaultAgentModel : String := "claude-opus-4-6"

def resolveAgentModel (model : Option String) : String :=
  match model.map fun name => String.ofList (Text.trim name.toList) with
  | none | some "" => defaultAgentModel
  | some name => name

section Agents

variable {σ : Type} (agents : AgentHost σ)

def AgentInput.job (input : AgentInput) (systemPrompt : List String) : AgentJob :=
  let subagentType := normalizeSubagentType input.subagentType
  { subagentType := subagentType
    prompt := input.prompt
    systemPrompt := systemPrompt
    model := resolveAgentModel input.model
    allowedTools := allowedToolsForSubagent subagentType }

def executeAgent (input : AgentInput) (world : Delegated σ) : Delegated σ × Except String String :=
  if Text.trim input.description.toList = [] then (world, .error "description must not be empty")
  else if Text.trim input.prompt.toList = [] then (world, .error "prompt must not be empty")
  else
    let prepared := agents.prepare input world.outside
    match prepared.2 with
    | .error error => ({ world with outside := prepared.1 }, .error error)
    | .ok systemPrompt =>
        let job := input.job systemPrompt
        let spawned := agents.spawn job prepared.1
        match spawned.2 with
        | .error error =>
            let message := "failed to spawn sub-agent: " ++ error
            let persisted := agents.persistTerminalState input "failed" message spawned.1
            ({ world with outside := persisted.1 },
              match persisted.2 with
              | .error error => .error error
              | .ok () => .error message)
        | .ok () => (⟨spawned.1, world.jobs ++ [job]⟩, .ok (agents.manifest input))

/-- The bodies over a world with jobs: only the Agent tool's starts one. -/
def delegatingBody (body : Executed → σ → σ × Except String String) (executed : Executed)
    (world : Delegated σ) : Delegated σ × Except String String :=
  match executed with
  | .tool "Agent" input =>
      match agents.agentInput input with
      | .error error => (world, .error error)
      | .ok input => executeAgent agents input world
  | other =>
      let entered := body other world.outside
      ({ world with outside := entered.1 }, entered.2)

def delegatingHost (host : ToolHost σ) : ToolHost (Delegated σ) where
  bashInput := host.bashInput
  toText := host.toText
  currentDir world := host.currentDir world.outside
  body := delegatingBody agents host.body

end Agents

/-! ## The sub-agent -/

structure SubagentToolExecutor where
  allowedTools : List String
  deriving DecidableEq, Repr

def SubagentToolExecutor.execute {World : Type} (host : ToolHost World) (serde : SerdeJson)
    (executor : SubagentToolExecutor) (toolName input : String) (ledger : Ledger World) :
    Ledger World × Except ToolFailure String :=
  if toolName ∉ executor.allowedTools then
    (ledger, .error (.notEnabled ("tool `" ++ toolName ++ "` is not enabled for this sub-agent")))
  else
    match serde.fromStr input with
    | .error error => (ledger, .error (.invalidInput ("invalid tool input JSON: " ++ error)))
    | .ok value => host.executeTool toolName value ledger

def agentPermissionPolicy : ToolPermissionPolicy :=
  mvpToolSpecs.foldl (fun policy spec => policy.withToolRequirement spec.name spec.requiredPermission)
    (.new .dangerFullAccess)

/-! ## What a call can do -/

section Effects

variable {World : Type} (host : ToolHost World)

/-- What a registry lets into a body: the call itself, bash with its parsed input and
under the bash policy, if there is one. -/
inductive Entered (bashPolicy : Option ToolProfileBashPolicy) (name : String) (value : Json) :
    Executed → Prop
  | tool : name ≠ "bash" → Entered bashPolicy name value (.tool name value)
  | bash (input : BashCommandInput) : name = "bash" →
      (∀ policy, bashPolicy = some policy → policy.validateOverride input = .ok ()) →
      Entered bashPolicy name value (.bash input (bashPolicy.map ToolProfileBashPolicy.sandbox))

theorem Entered.name_eq {bashPolicy : Option ToolProfileBashPolicy} {name : String} {value : Json}
    {executed : Executed} (entered : Entered bashPolicy name value executed) :
    executed.name = name := by
  cases entered with
  | tool other => rfl
  | bash input bash => exact bash.symm

/-- What an enforced bash call passed. -/
theorem enforced_bash {enforcer : ToolEnforcer} {bashPolicy : Option ToolProfileBashPolicy}
    {input : BashCommandInput} {value : Json} {world : World}
    (passed : host.maybeEnforcePermissionCheck (some enforcer) bashPolicy "bash" (some input) value
      world = .ok ()) :
    ∀ policy, bashPolicy = some policy → policy.validateOverride input = .ok () := by
  rintro policy rfl
  unfold ToolHost.maybeEnforcePermissionCheck at passed
  simp only [show ¬ ("bash" = "write_file" ∨ "bash" = "edit_file") by decide, if_false,
    if_true] at passed
  split at passed
  · cases passed
  · exact passed

/-- A call through the enforcer leaves the ledger alone or enters one body. -/
theorem executeToolWithEnforcer_effect (enforcer : Option ToolEnforcer)
    (bashPolicy : Option ToolProfileBashPolicy) (guarded : bashPolicy = none ∨ enforcer.isSome)
    (browserEnabled : Bool) (name : String) (value : Json) (ledger : Ledger World) :
    (host.executeToolWithEnforcer enforcer bashPolicy browserEnabled name value ledger).1 = ledger ∨
    ∃ executed, Entered bashPolicy name value executed ∧
      (host.executeToolWithEnforcer enforcer bashPolicy browserEnabled name value ledger).1 =
        (host.enter executed ledger).1 := by
  unfold ToolHost.executeToolWithEnforcer
  by_cases bash : name = "bash"
  · subst bash
    simp only [if_true]
    cases parse : host.bashInput value with
    | error error => exact .inl rfl
    | ok input =>
        dsimp only
        cases passed : host.maybeEnforcePermissionCheck enforcer bashPolicy "bash" (some input) value
            ledger.world with
        | error reason => exact .inl rfl
        | ok passed =>
            refine .inr ⟨_, .bash input rfl ?_, rfl⟩
            obtain rfl | enforced := guarded
            · simp
            · obtain ⟨enforcer, rfl⟩ := Option.isSome_iff_exists.1 enforced
              exact enforced_bash host passed
  · simp only [bash, if_false]
    by_cases checked : name ∈ guardedTools
    · simp only [checked, if_true]
      cases host.maybeEnforcePermissionCheck enforcer bashPolicy name none value ledger.world with
      | error reason => exact .inl rfl
      | ok passed =>
          dsimp only
          split
          · exact .inl rfl
          · exact .inr ⟨_, .tool bash, rfl⟩
    · simp only [checked, if_false]
      split
      · exact .inr ⟨_, .tool bash, rfl⟩
      · exact .inl rfl

theorem registry_effect (registry : GlobalToolRegistry)
    (guarded : registry.bashPolicy = none ∨ registry.enforcer.isSome) (name : String) (value : Json)
    (ledger : Ledger World) :
    (registry.execute host name value ledger).1 = ledger ∨
    ∃ executed, Entered registry.bashPolicy name value executed ∧
      (registry.execute host name value ledger).1 = (host.enter executed ledger).1 := by
  unfold GlobalToolRegistry.execute
  split
  · exact .inl rfl
  · split
    · exact executeToolWithEnforcer_effect host _ _ guarded _ name value ledger
    · split
      · rename_i own plugin
        refine .inr ⟨_, .tool ?_, rfl⟩
        rintro rfl
        have builtin : isBuiltin "bash" = true := by decide +kernel
        simp [builtin] at own
      · exact .inl rfl

end Effects

section Jobs

variable {σ : Type} (agents : AgentHost σ)

/-- A description and a prompt that are not blank. -/
def AgentInput.filled (input : AgentInput) : Bool :=
  Text.trim input.description.toList ≠ [] && Text.trim input.prompt.toList ≠ []

@[simp] theorem AgentInput.job_allowedTools (input : AgentInput) (systemPrompt : List String) :
    (input.job systemPrompt).allowedTools =
      allowedToolsForSubagent (normalizeSubagentType input.subagentType) := rfl

theorem executeAgent_jobs (input : AgentInput) (world : Delegated σ) :
    (executeAgent agents input world).1.jobs = world.jobs ∨
      (input.filled = true ∧ ∃ systemPrompt,
        (executeAgent agents input world).1.jobs = world.jobs ++ [input.job systemPrompt]) := by
  unfold executeAgent
  split
  · exact .inl rfl
  · rename_i described
    split
    · exact .inl rfl
    · rename_i prompted
      dsimp only
      split
      · exact .inl rfl
      · split
        · exact .inl rfl
        · exact .inr ⟨by simp [AgentInput.filled, described, prompted], _, rfl⟩

/-- Only the Agent tool starts a job. -/
theorem delegatingBody_jobs (body : Executed → σ → σ × Except String String) (executed : Executed)
    (world : Delegated σ) :
    (delegatingBody agents body executed world).1.jobs = world.jobs ∨
    ∃ value input, executed = .tool "Agent" value ∧ agents.agentInput value = .ok input ∧
      input.filled = true ∧ ∃ systemPrompt,
      (delegatingBody agents body executed world).1.jobs = world.jobs ++ [input.job systemPrompt] := by
  unfold delegatingBody
  split
  · rename_i value
    cases parse : agents.agentInput value with
    | error error => exact .inl rfl
    | ok input =>
        obtain same | started := executeAgent_jobs agents input world
        · exact .inl same
        · exact .inr ⟨value, input, rfl, parse, started⟩
  · exact .inl rfl

/-- No sub-agent has the Agent tool. -/
theorem agent_not_delegated (subagentType : String) :
    "Agent" ∉ allowedToolsForSubagent subagentType := by
  unfold allowedToolsForSubagent
  split <;> decide

end Jobs

end Openyak.Tools
