/-
# Cli.Delegation -- what a session and its sub-agents may do

A session of the command line and a thread of the server run their tools under an
`Authority`: the allowed tools, if they are set, and the bash policy of the tool
profile, if one is active.  A session may be reconfigured between two calls, to
another mode, say, but it keeps its authority.  Its Agent tool starts sub-agents, and these are
given the tools of their type, whatever the authority is.

A step is one tool call, of the session or of any sub-agent started so far, or a
change outside; so a run is any interleaving of the conversations.  The bodies
entered stay within the authority when each sub-agent is started with a type that the
authority covers (`delegation_within`).
-/
import Openyak.Cli.PermissionGates
import Openyak.Tools.SubAgents
import Openyak.Runtime.WorldInvariant
import Openyak.Server.Thread
import Openyak.Theory.Run

namespace Openyak.Cli

open Openyak.Theory
open Openyak.Runtime
open Openyak.Tools
open Openyak.Server (ThreadExecutionConfig)

set_option autoImplicit false

/-! ## The server's executor -/

structure ServerToolExecutor where
  registry : GlobalToolRegistry
  allowedTools : List String

def ServerToolExecutor.execute {World : Type} (host : ToolHost World) (serde : SerdeJson)
    (executor : ServerToolExecutor) (toolName input : String) (ledger : Ledger World) :
    Ledger World × Except ToolFailure String :=
  if toolName ∉ executor.allowedTools then
    (ledger, .error (.notEnabled ("tool `" ++ toolName ++ "` is not enabled for this thread")))
  else
    match serde.fromStr input with
    | .error error => (ledger, .error (.invalidInput ("invalid tool input JSON: " ++ error)))
    | .ok value => executor.registry.execute host toolName value ledger

/-- The server's `permission_policy`. -/
def threadPolicy (config : ThreadExecutionConfig) : ToolPermissionPolicy :=
  permissionPolicy config.permissionMode .builtin (some config.allowedTools)

/-- What `execute_run` builds. -/
def threadExecutor (config : ThreadExecutionConfig) : ServerToolExecutor :=
  ⟨GlobalToolRegistry.builtin.withEnforcer ⟨threadPolicy config⟩, config.allowedTools⟩

/-! ## Authority -/

structure Authority where
  allowedTools : Option (List String)
  bashPolicy : Option ToolProfileBashPolicy
  deriving DecidableEq, Repr

/-- A tool body that the authority lets run. -/
def Authority.Within (authority : Authority) (executed : Executed) : Prop :=
  (∀ allowed, authority.allowedTools = some allowed → executed.name ∈ allowed) ∧
  ∀ policy, authority.bashPolicy = some policy → ∀ input sandbox, executed = .bash input sandbox →
    policy.validateOverride input = .ok () ∧ sandbox = some policy.sandbox

/-- Tools that stay within the authority whoever calls them: they are allowed, and no
bash is among them that would run without the bash policy. -/
def Authority.Covers (authority : Authority) (tools : List String) : Prop :=
  (∀ allowed, authority.allowedTools = some allowed → ∀ tool ∈ tools, tool ∈ allowed) ∧
  (authority.bashPolicy ≠ none → "bash" ∉ tools)

/-- A session of the command line or a thread of the server. -/
inductive Owner where
  | cli (config : CliConfig)
  | thread (config : ThreadExecutionConfig)

namespace Owner

def authority : Owner → Authority
  | .cli config => ⟨config.allowedTools, config.bashPolicy⟩
  | .thread config => ⟨some config.allowedTools, none⟩

def policy : Owner → ToolPermissionPolicy
  | .cli config => config.policy
  | .thread config => threadPolicy config

def registry : Owner → GlobalToolRegistry
  | .cli config => config.registry
  | .thread config => (threadExecutor config).registry

/-- A thread has no prompter for permissions. -/
def authorize {World : Type} (owner : Owner) (prompter : Option (PermissionPrompter World))
    (toolName input : String) (ledger : Ledger World) : Ledger World × PermissionOutcome :=
  match owner with
  | .cli config => config.authorize prompter toolName input ledger
  | .thread config => (threadPolicy config).authorize toolName input none ledger

def execute {World : Type} (owner : Owner) (host : ToolHost World) (serde : SerdeJson) :
    (toolName input : String) → Ledger World → Ledger World × Except ToolFailure String :=
  match owner with
  | .cli config => config.executor.execute host serde
  | .thread config => (threadExecutor config).execute host serde

end Owner

/-! ## The conversations -/

/-- The bodies entered so far, the sub-agents started, and the outside. -/
abbrev Household (σ : Type) := Ledger (Delegated σ)

variable {σ : Type}

/-- An action on the outside only. -/
def onOutside {α : Type} (action : σ → σ × α) (state : Household σ) : Household σ × α :=
  let done := action state.world.outside
  ({ state with world := { state.world with outside := done.1 } }, done.2)

/-- What a conversation calls beside its tools: its model and its hooks. -/
structure Surroundings (σ : Type) where
  stream : ApiRequest → σ → σ × Except RuntimeError (List AssistantEvent)
  runPreToolUse : (name input : String) → σ → σ × HookRunResult
  runPostToolUse : (name input output : String) → (isError : Bool) → σ → σ × HookRunResult

/-- A conversation with this executor. -/
def Surroundings.environment (surroundings : Surroundings σ)
    (execute : (toolName input : String) → Household σ → Household σ × Except ToolFailure String) :
    Environment (Household σ) where
  stream request := onOutside (surroundings.stream request)
  execute toolName input state :=
    let executed := execute toolName input state
    (executed.1, executed.2.mapError ToolFailure.message)
  runPreToolUse name input := onOutside (surroundings.runPreToolUse name input)
  runPostToolUse name input output isError :=
    onOutside (surroundings.runPostToolUse name input output isError)

/-- A sub-agent's conversation has no hooks. -/
def Surroundings.ofModel
    (stream : ApiRequest → σ → σ × Except RuntimeError (List AssistantEvent)) :
    Surroundings σ where
  stream := stream
  runPreToolUse _ _ world := (world, .allow [])
  runPostToolUse _ _ _ _ world := (world, .allow [])

/-- A permission prompter asks outside. -/
def askOutside (prompter : PermissionPrompter σ) : PermissionPrompter (Delegated σ) :=
  fun request world =>
    let decided := prompter request world.outside
    ({ world with outside := decided.1 }, decided.2)

/-- A user-input prompter, too. -/
def replyOutside (reply : UserInputRequest → σ → σ × UserInputOutcome) :
    UserInputRequest → Household σ → Household σ × UserInputOutcome :=
  fun request => onOutside (reply request)

section System

variable (host : ToolHost σ) (agents : AgentHost σ) (serde : SerdeJson)

/-- A call of the session's runtime. -/
def ownerCall (owner : Owner) (prompter : Option (PermissionPrompter σ)) (turn : Turn)
    (reply : Option (UserInputRequest → σ → σ × UserInputOutcome)) : Call (Household σ) :=
  ⟨turn, owner.authorize (prompter.map askOutside), reply.map replyOutside⟩

def ownerEnvironment (owner : Owner) (surroundings : Surroundings σ) :
    Environment (Household σ) :=
  surroundings.environment (owner.execute (delegatingHost agents host) serde)

/-- `run_agent_job`'s call: no prompter of either kind. -/
def agentCall (job : AgentJob) : Call (Household σ) :=
  ⟨.runTurn job.prompt, fun toolName input => agentPermissionPolicy.authorize toolName input none,
    none⟩

def agentEnvironment (job : AgentJob)
    (stream : ApiRequest → σ → σ × Except RuntimeError (List AssistantEvent)) :
    Environment (Household σ) :=
  (Surroundings.ofModel stream).environment
    (SubagentToolExecutor.execute (delegatingHost agents host) serde ⟨job.allowedTools⟩)

/-- One tool call, or a change outside. -/
inductive Event (σ : Type) where
  | session (owner : Owner) (prompter : Option (PermissionPrompter σ))
      (surroundings : Surroundings σ) (id name input : String)
  | subagent (job : AgentJob)
      (stream : ApiRequest → σ → σ × Except RuntimeError (List AssistantEvent))
      (id name input : String)
  | outside (world : σ)

/-- A session calls under its authority, a sub-agent once it is started. -/
def step (authority : Authority) (state : Household σ) : Event σ → Option (Household σ)
  | .session owner prompter surroundings id name input =>
      if owner.authority = authority then
        some (useTool (ownerEnvironment host agents serde owner surroundings)
          (ownerCall owner prompter .resumePendingTurn none) id name input state).1
      else none
  | .subagent job stream id name input =>
      if job ∈ state.world.jobs then
        some (useTool (agentEnvironment host agents serde job stream) (agentCall job) id name input
          state).1
      else none
  | .outside world => some { state with world := { state.world with outside := world } }

/-- A call of the session reaches the Agent tool with this input. -/
structure Launches (owner : Owner) (prompter : Option (PermissionPrompter σ))
    (name input : String) (state : Household σ) (request : AgentInput) : Prop where
  agent : name = "Agent"
  enabled : ∀ allowed, owner.authority.allowedTools = some allowed → "Agent" ∈ allowed
  authorized : (owner.authorize (prompter.map askOutside) name input state).2 = .allow
  parses : ∃ value, serde.fromStr input = .ok value ∧ agents.agentInput value = .ok request
  filled : request.filled = true

/-- Where the session starts a sub-agent, the authority covers the tools of its type. -/
def Delegates (authority : Authority) (state : Household σ) : Event σ → Prop
  | .session owner prompter _ _ name input => ∀ request,
      Launches agents serde owner prompter name input state request →
      authority.Covers (allowedToolsForSubagent (normalizeSubagentType request.subagentType))
  | _ => True

def start (outside : σ) : Household σ := ⟨⟨outside, []⟩, []⟩

/-! ## What a call leaves alone -/

/-- No body is entered and no sub-agent started in between. -/
structure Beside (before after : Household σ) : Prop where
  executed : after.executed = before.executed
  jobs : after.world.jobs = before.world.jobs

theorem Beside.refl (state : Household σ) : Beside state state := ⟨rfl, rfl⟩

theorem Beside.trans {first second third : Household σ} (earlier : Beside first second)
    (later : Beside second third) : Beside first third :=
  ⟨later.executed.trans earlier.executed, later.jobs.trans earlier.jobs⟩

theorem onOutside_beside {α : Type} (action : σ → σ × α) (state : Household σ) :
    Beside state (onOutside action state).1 := ⟨rfl, rfl⟩

theorem policy_beside (policy : ToolPermissionPolicy) (prompter : Option (PermissionPrompter σ))
    (name input : String) (state : Household σ) :
    Beside state (policy.authorize name input
      ((prompter.map askOutside).map liftPrompter) state).1 := by
  unfold ToolPermissionPolicy.authorize
  split
  · exact .refl state
  · split
    · cases prompter with
      | none => exact .refl state
      | some decide => exact ⟨rfl, rfl⟩
    · exact .refl state

theorem authorize_beside (owner : Owner) (prompter : Option (PermissionPrompter σ))
    (name input : String) (state : Household σ) :
    Beside state (owner.authorize (prompter.map askOutside) name input state).1 := by
  cases owner with
  | cli config => exact policy_beside config.policy prompter name input state
  | thread config => exact policy_beside (threadPolicy config) none name input state

/-- A tool use leaves all alone, or it is authorized and does what the executor does. -/
theorem useTool_effect (call : Call (Household σ)) (surroundings : Surroundings σ)
    (execute : (toolName input : String) → Household σ → Household σ × Except ToolFailure String)
    (asks : ∀ name input state, Beside state (call.authorize name input state).1)
    (id name input : String) (state : Household σ) :
    Beside state (useTool (surroundings.environment execute) call id name input state).1 ∨
    ((call.authorize name input state).2 = .allow ∧ ∃ middle, Beside state middle ∧
      Beside (execute name input middle).1
        (useTool (surroundings.environment execute) call id name input state).1) := by
  have asked := asks name input state
  unfold useTool
  cases decided : call.authorize name input state with
  | mk after decision =>
      rw [decided] at asked
      cases decision with
      | deny reason => exact .inl asked
      | allow =>
          dsimp only
          have pre : Beside state
              ((surroundings.environment execute).runPreToolUse name input after).1 :=
            asked.trans (onOutside_beside _ after)
          split
          · exact .inl pre
          · exact .inr ⟨rfl, _, pre, onOutside_beside _ _⟩

/-! ## What the executors do -/

/-- The session's executor leaves the state alone, or it enters the body of an allowed
tool. -/
theorem owner_execute_effect {World : Type} (host : ToolHost World) (owner : Owner)
    (name input : String) (ledger : Ledger World) :
    (owner.execute host serde name input ledger).1 = ledger ∨
    ∃ value executed,
      (∀ allowed, owner.authority.allowedTools = some allowed → name ∈ allowed) ∧
      serde.fromStr input = .ok value ∧ Entered owner.registry.bashPolicy name value executed ∧
      (owner.execute host serde name input ledger).1 = (host.enter executed ledger).1 := by
  have guarded : owner.registry.bashPolicy = none ∨ owner.registry.enforcer.isSome = true := by
    cases owner with
    | cli config => exact .inr (by simp [Owner.registry])
    | thread config => exact .inl rfl
  cases owner with
  | cli config =>
      show (config.executor.execute host serde name input ledger).1 = ledger ∨ ∃ value executed,
        _ ∧ _ ∧ _ ∧ (config.executor.execute host serde name input ledger).1 = _
      unfold CliToolExecutor.execute
      split
      · exact .inl rfl
      · rename_i enabled
        cases parse : serde.fromStr input with
        | error error => exact .inl rfl
        | ok value =>
            obtain same | ⟨executed, entered, does⟩ :=
              registry_effect host config.registry guarded name value ledger
            · exact .inl same
            · refine .inr ⟨value, executed, ?_, rfl, entered, does⟩
              rintro allowed (set : config.allowedTools = some allowed)
              have enabled : ¬ config.allowedTools.any (fun allowed => !allowed.contains name) =
                true := enabled
              simpa [set] using enabled
  | thread config =>
      show ((threadExecutor config).execute host serde name input ledger).1 = ledger ∨
        ∃ value executed, _ ∧ _ ∧ _ ∧
          ((threadExecutor config).execute host serde name input ledger).1 = _
      unfold ServerToolExecutor.execute
      split
      · exact .inl rfl
      · rename_i enabled
        cases parse : serde.fromStr input with
        | error error => exact .inl rfl
        | ok value =>
            obtain same | ⟨executed, entered, does⟩ :=
              registry_effect host (threadExecutor config).registry guarded name value ledger
            · exact .inl same
            · refine .inr ⟨value, executed, ?_, rfl, entered, does⟩
              rintro allowed ⟨⟩
              exact not_not.1 enabled

theorem subagent_execute_effect {World : Type} (host : ToolHost World)
    (executor : SubagentToolExecutor) (name input : String) (ledger : Ledger World) :
    (executor.execute host serde name input ledger).1 = ledger ∨
    ∃ value executed, name ∈ executor.allowedTools ∧ Entered none name value executed ∧
      (executor.execute host serde name input ledger).1 = (host.enter executed ledger).1 := by
  unfold SubagentToolExecutor.execute
  split
  · exact .inl rfl
  · rename_i enabled
    cases parse : serde.fromStr input with
    | error error => exact .inl rfl
    | ok value =>
        obtain same | ⟨executed, entered, does⟩ :=
          executeToolWithEnforcer_effect host none none (.inl rfl) false name value ledger
        · exact .inl same
        · exact .inr ⟨value, executed, not_not.1 enabled, entered, does⟩

/-! ## The authority of what is entered -/

/-- With a bash policy the session's registry has it. -/
theorem owner_bashPolicy {owner : Owner} {policy : ToolProfileBashPolicy}
    (active : owner.authority.bashPolicy = some policy) :
    owner.registry.bashPolicy = some policy := by
  cases owner with
  | cli config =>
      have active : config.bashPolicy = some policy := active
      show config.registry.bashPolicy = some policy
      unfold CliConfig.registry
      rw [active]
      rfl
  | thread config => cases active

/-- What the session's registry lets in is within the authority. -/
theorem owner_within {owner : Owner} {name : String} {value : Json} {executed : Executed}
    (enabled : ∀ allowed, owner.authority.allowedTools = some allowed → name ∈ allowed)
    (entered : Entered owner.registry.bashPolicy name value executed) :
    owner.authority.Within executed := by
  constructor
  · intro allowed set
    rw [entered.name_eq]
    exact enabled allowed set
  · intro policy active input sandbox bash
    have registered := owner_bashPolicy active
    cases entered with
    | tool other => cases bash
    | bash input named passed =>
        cases bash
        exact ⟨passed policy registered, by rw [registered]; rfl⟩

/-- And so is what a sub-agent with covered tools enters. -/
theorem subagent_within {authority : Authority} {tools : List String} {name : String}
    {value : Json} {executed : Executed} (covered : authority.Covers tools) (enabled : name ∈ tools)
    (entered : Entered none name value executed) : authority.Within executed := by
  constructor
  · intro allowed set
    rw [entered.name_eq]
    exact covered.1 allowed set name enabled
  · intro policy active input sandbox bash
    have named : name = "bash" := by rw [← entered.name_eq, bash]; rfl
    rw [named] at enabled
    exact absurd enabled (covered.2 (by simp [active]))

/-! ## What a step does -/

/-- The jobs after a body: those before it, and the one the Agent tool starts. -/
theorem enter_jobs {executed : Executed} {state : Household σ} {job : AgentJob} :
    (job ∈ state.world.jobs →
      job ∈ ((delegatingHost agents host).enter executed state).1.world.jobs) ∧
    (job ∈ ((delegatingHost agents host).enter executed state).1.world.jobs →
      job ∈ state.world.jobs ∨ ∃ value request systemPrompt, executed = .tool "Agent" value ∧
        agents.agentInput value = .ok request ∧ request.filled = true ∧
        job = request.job systemPrompt) := by
  rw [show ((delegatingHost agents host).enter executed state).1.world =
    (delegatingBody agents host.body executed state.world).1 from rfl]
  obtain same | ⟨value, request, agent, reads, filled, systemPrompt, started⟩ :=
    delegatingBody_jobs agents host.body executed state.world
  · rw [same]
    exact ⟨id, .inl⟩
  · rw [started]
    constructor
    · intro member
      exact List.mem_append_left _ member
    · intro member
      obtain earlier | new := List.mem_append.1 member
      · exact .inl earlier
      · exact .inr ⟨value, request, systemPrompt, agent, reads, filled, List.mem_singleton.1 new⟩

/-- The body an event may enter. -/
def Admits (authority : Authority) (state : Household σ) : Event σ → Executed → Prop
  | .session owner prompter _ _ name input, executed =>
      owner.authority = authority ∧
      (owner.authorize (prompter.map askOutside) name input state).2 = .allow ∧
      (∀ allowed, authority.allowedTools = some allowed → name ∈ allowed) ∧
      ∃ value, serde.fromStr input = .ok value ∧
        Entered owner.registry.bashPolicy name value executed
  | .subagent job _ _ name _, executed =>
      job ∈ state.world.jobs ∧ name ∈ job.allowedTools ∧
      ∃ value, Entered none name value executed
  | .outside _, _ => False

theorem step_effect {authority : Authority} {state next : Household σ} {event : Event σ}
    (steps : step host agents serde authority state event = some next) :
    Beside state next ∨ ∃ middle executed, Beside state middle ∧
      Admits serde authority state event executed ∧
      Beside ((delegatingHost agents host).enter executed middle).1 next := by
  cases event with
  | session owner prompter surroundings id name input =>
      rw [step] at steps
      split at steps
      · rename_i own
        injection steps with ends
        subst ends own
        obtain quiet | ⟨authorized, middle, before, after⟩ := useTool_effect
          (ownerCall owner prompter .resumePendingTurn none) surroundings
          (owner.execute (delegatingHost agents host) serde)
          (authorize_beside owner prompter) id name input state
        · exact .inl quiet
        · obtain same | ⟨value, executed, enabled, parses, entered, does⟩ :=
            owner_execute_effect serde (delegatingHost agents host) owner name input middle
          · rw [same] at after
            exact .inl (before.trans after)
          · rw [does] at after
            exact .inr ⟨middle, executed, before,
              ⟨rfl, authorized, enabled, value, parses, entered⟩, after⟩
      · cases steps
  | subagent job stream id name input =>
      rw [step] at steps
      split at steps
      · rename_i started
        injection steps with ends
        subst ends
        obtain quiet | ⟨-, middle, before, after⟩ := useTool_effect (agentCall job) (.ofModel stream)
          (SubagentToolExecutor.execute (delegatingHost agents host) serde ⟨job.allowedTools⟩)
          (fun name input state => policy_beside agentPermissionPolicy none name input state)
          id name input state
        · exact .inl quiet
        · obtain same | ⟨value, executed, enabled, entered, does⟩ := subagent_execute_effect serde
            (delegatingHost agents host) ⟨job.allowedTools⟩ name input middle
          · rw [same] at after
            exact .inl (before.trans after)
          · rw [does] at after
            exact .inr ⟨middle, executed, before, ⟨started, enabled, value, entered⟩, after⟩
      · cases steps
  | outside world =>
      injection steps with ends
      subst ends
      exact .inl ⟨rfl, rfl⟩

/-- A started sub-agent stays. -/
theorem step_jobs {authority : Authority} {state next : Household σ} {event : Event σ}
    (steps : step host agents serde authority state event = some next) {job : AgentJob}
    (started : job ∈ state.world.jobs) : job ∈ next.world.jobs := by
  obtain quiet | ⟨middle, executed, before, -, after⟩ := step_effect host agents serde steps
  · rw [quiet.jobs]
    exact started
  · rw [after.jobs]
    apply (enter_jobs host agents).1
    rw [before.jobs]
    exact started

/-! ## The invariant -/

/-- Every sub-agent has the tools of some type. -/
def Typed (state : Household σ) : Prop :=
  ∀ job ∈ state.world.jobs, ∃ subagentType, job.allowedTools = allowedToolsForSubagent subagentType

theorem step_typed {authority : Authority} {state next : Household σ} {event : Event σ}
    (typed : Typed state) (steps : step host agents serde authority state event = some next) :
    Typed next := by
  intro job member
  obtain quiet | ⟨middle, executed, before, -, after⟩ := step_effect host agents serde steps
  · rw [quiet.jobs] at member
    exact typed job member
  · rw [after.jobs] at member
    obtain earlier | ⟨-, request, systemPrompt, -, -, -, rfl⟩ := (enter_jobs host agents).2 member
    · rw [before.jobs] at earlier
      exact typed job earlier
    · exact ⟨_, request.job_allowedTools systemPrompt⟩

structure Authorized (authority : Authority) (state : Household σ) : Prop where
  within : ∀ executed ∈ state.executed, authority.Within executed
  covered : ∀ job ∈ state.world.jobs, authority.Covers job.allowedTools
  typed : Typed state

theorem start_authorized (authority : Authority) (outside : σ) :
    Authorized authority (start outside) := by
  constructor
  · intro executed member
    exact absurd member List.not_mem_nil
  · intro job member
    exact absurd member List.not_mem_nil
  · intro job member
    exact absurd member List.not_mem_nil

/-- A body that is admitted is within the authority. -/
theorem admitted_within {authority : Authority} {state : Household σ} {event : Event σ}
    {executed : Executed} (held : Authorized authority state)
    (admits : Admits serde authority state event executed) : authority.Within executed := by
  cases event with
  | session owner prompter surroundings id name input =>
      obtain ⟨rfl, -, enabled, value, -, entered⟩ := admits
      exact owner_within enabled entered
  | subagent job stream id name input =>
      obtain ⟨started, enabled, value, entered⟩ := admits
      exact subagent_within (held.covered job started) enabled entered
  | outside world => exact absurd admits not_false

/-- The Agent tool is entered by the session alone, and what it starts is covered. -/
theorem admitted_agent {authority : Authority} {state : Household σ} {event : Event σ}
    {value : Json} {request : AgentInput} (held : Authorized authority state)
    (delegates : Delegates agents serde authority state event)
    (admits : Admits serde authority state event (.tool "Agent" value))
    (reads : agents.agentInput value = .ok request) (filled : request.filled = true) :
    authority.Covers (allowedToolsForSubagent (normalizeSubagentType request.subagentType)) := by
  cases event with
  | session owner prompter surroundings id name input =>
      obtain ⟨rfl, authorized, enabled, parsed, parses, entered⟩ := admits
      have agent : "Agent" = name := entered.name_eq
      subst agent
      have same : value = parsed := by
        cases entered with
        | tool other => rfl
      subst same
      exact delegates request ⟨rfl, enabled, authorized, ⟨value, parses, reads⟩, filled⟩
  | subagent job stream id name input =>
      obtain ⟨started, enabled, parsed, entered⟩ := admits
      have agent : "Agent" = name := entered.name_eq
      subst agent
      obtain ⟨subagentType, tools⟩ := held.typed job started
      rw [tools] at enabled
      exact absurd enabled (agent_not_delegated subagentType)
  | outside world => exact absurd admits not_false

theorem step_authorized {authority : Authority} {state next : Household σ} {event : Event σ}
    (held : Authorized authority state) (delegates : Delegates agents serde authority state event)
    (steps : step host agents serde authority state event = some next) :
    Authorized authority next := by
  have typed := step_typed host agents serde held.typed steps
  obtain quiet | ⟨middle, executed, before, admits, after⟩ := step_effect host agents serde steps
  · refine ⟨?_, ?_, typed⟩
    · rw [quiet.executed]
      exact held.within
    · rw [quiet.jobs]
      exact held.covered
  · refine ⟨?_, ?_, typed⟩
    · intro other member
      rw [after.executed] at member
      have member : other ∈ middle.executed ++ [executed] := member
      rw [before.executed] at member
      obtain earlier | new := List.mem_append.1 member
      · exact held.within other earlier
      · obtain rfl := List.mem_singleton.1 new
        exact admitted_within serde held admits
    · intro job member
      rw [after.jobs] at member
      obtain earlier | ⟨value, request, systemPrompt, agent, reads, filled, rfl⟩ :=
        (enter_jobs host agents).2 member
      · rw [before.jobs] at earlier
        exact held.covered job earlier
      · rw [AgentInput.job_allowedTools]
        rw [agent] at admits
        exact admitted_agent agents serde held delegates admits reads filled

/-- **Whatever the models do, no body outside the authority is entered** while every
sub-agent is started with a type the authority covers. -/
theorem delegation_within {authority : Authority} {outside : σ} {events : List (Event σ)}
    {last : Household σ}
    (run : Run (step host agents serde authority) (Delegates agents serde authority)
      (start outside) events last) :
    ∀ executed ∈ last.executed, authority.Within executed := by
  have held : Authorized authority last := run.invariant (Authorized authority)
    (fun _ _ _ held delegates steps => step_authorized host agents serde held delegates steps)
    (start_authorized authority outside)
  exact held.within

/-! ## Two sessions -/

/-- A session that may delegate and read, under a tool profile with a sandbox. -/
def delegatingSession (allowedTools : List String) : Owner := .cli
  { permissionMode := .dangerFullAccess
    cliMode := by decide
    allowedTools := some ("Agent" :: allowedTools)
    toolRegistry := .builtin
    bashPolicy := some ⟨{ enabled := some true, networkIsolation := some true }, false⟩ }

def task (subagentType : String) : AgentInput where
  description := "look around"
  prompt := "list the files"
  subagentType := some subagentType

/-- Every input of the Agent tool is `request`, and its thread starts. -/
def startingHost (request : AgentInput) : AgentHost Unit where
  agentInput _ := .ok request
  prepare _ world := (world, .ok [])
  spawn _ world := (world, .ok ())
  persistTerminalState _ _ _ world := (world, .ok ())
  manifest _ := "\x7b\x7d"

/-- Every input of bash is `ls`, without network isolation. -/
def shellHost : ToolHost Unit :=
  { quietHost with bashInput := fun _ => .ok { command := "ls", isolateNetwork := some false } }

def silentModel : ApiRequest → Unit → Unit × Except RuntimeError (List AssistantEvent) :=
  fun _ world => (world, .ok [])

/-- The session delegates the task, and the sub-agent uses a tool. -/
def delegatedCall (allowedTools : List String) (request : AgentInput) (tool : String) :
    List (Event Unit) :=
  [.session (delegatingSession allowedTools) none (.ofModel silentModel) "call-1" "Agent"
      "\x7b\x7d",
    .subagent (request.job []) silentModel "call-2" tool "\x7b\x7d"]

/-- What the two calls enter, played without any condition. -/
def delegatedRun (allowedTools : List String) (request : AgentInput) (tool : String) :
    Option (Household Unit) :=
  play (step shellHost (startingHost request) emptyObjectJson
    (delegatingSession allowedTools).authority) (start ()) (delegatedCall allowedTools request tool)

/-- An Explore sub-agent of a session that allows its tools stays within the authority. -/
theorem delegation_within_explore : ∃ last,
    delegatedRun (allowedToolsForSubagent "Explore") (task "explore") "read_file" = some last ∧
    last.executed.map Executed.name = ["Agent", "read_file"] ∧
    ∀ executed ∈ last.executed,
      (delegatingSession (allowedToolsForSubagent "Explore")).authority.Within executed := by
  refine ⟨⟨⟨(), [(task "explore").job []]⟩,
    [.tool "Agent" (.object []), .tool "read_file" (.object [])]⟩, by rfl, by rfl, ?_⟩
  have covered : Delegates (startingHost (task "explore")) emptyObjectJson
      (delegatingSession (allowedToolsForSubagent "Explore")).authority (start ())
      (.session (delegatingSession (allowedToolsForSubagent "Explore")) none
        (.ofModel silentModel) "call-1" "Agent" "\x7b\x7d") := by
    rintro request ⟨-, -, -, ⟨value, -, reads⟩, -⟩
    have same : task "explore" = request := Except.ok.inj reads
    have type : normalizeSubagentType (some "explore") = "Explore" := by decide +kernel
    rw [← same, show (task "explore").subagentType = some "explore" from rfl, type]
    constructor
    · rintro allowed ⟨⟩ tool member
      exact List.mem_cons_of_mem "Agent" member
    · intro active
      decide
  have launched : step shellHost (startingHost (task "explore")) emptyObjectJson
      (delegatingSession (allowedToolsForSubagent "Explore")).authority (start ())
      (.session (delegatingSession (allowedToolsForSubagent "Explore")) none
        (.ofModel silentModel) "call-1" "Agent" "\x7b\x7d") =
      some ⟨⟨(), [(task "explore").job []]⟩, [.tool "Agent" (.object [])]⟩ := by rfl
  have read : step shellHost (startingHost (task "explore")) emptyObjectJson
      (delegatingSession (allowedToolsForSubagent "Explore")).authority
      ⟨⟨(), [(task "explore").job []]⟩, [.tool "Agent" (.object [])]⟩
      (.subagent ((task "explore").job []) silentModel "call-2" "read_file" "\x7b\x7d") =
      some ⟨⟨(), [(task "explore").job []]⟩,
        [.tool "Agent" (.object []), .tool "read_file" (.object [])]⟩ := by rfl
  have alone : Delegates (startingHost (task "explore")) emptyObjectJson
      (delegatingSession (allowedToolsForSubagent "Explore")).authority
      ⟨⟨(), [(task "explore").job []]⟩, [.tool "Agent" (.object [])]⟩
      (.subagent ((task "explore").job []) silentModel "call-2" "read_file" "\x7b\x7d") := trivial
  exact delegation_within shellHost (startingHost (task "explore")) emptyObjectJson
    (.cons covered launched (.cons alone read .nil))

/-- A general-purpose sub-agent of a session that may only delegate and read runs bash. -/
theorem delegated_bash : ∃ last,
    delegatedRun ["read_file"] (task "general-purpose") "bash" = some last ∧
    ∃ executed ∈ last.executed, executed.name = "bash" ∧
      ¬ (delegatingSession ["read_file"]).authority.Within executed := by
  refine ⟨⟨⟨(), [(task "general-purpose").job []]⟩,
    [.tool "Agent" (.object []), .bash { command := "ls", isolateNetwork := some false } none]⟩,
    by rfl, .bash { command := "ls", isolateNetwork := some false } none, by simp, rfl, ?_⟩
  intro within
  have allowed : "bash" ∈ ["Agent", "read_file"] := within.1 _ rfl
  exact absurd allowed (by decide)

/-! ## What an uncovered sub-agent can do -/

/-- A sub-agent's policy lets every tool through. -/
theorem agent_authorizes {World : Type} (name input : String) (world : World) :
    agentPermissionPolicy.authorize name input none world = (world, .allow) := by
  have mode : agentPermissionPolicy.activeMode = .dangerFullAccess := by decide +kernel
  have specs : ∀ requirement ∈ agentPermissionPolicy.toolRequirements,
      PermissionMode.dangerFullAccess.autoAllows requirement.2 = true := by decide +kernel
  have allowed : PermissionMode.dangerFullAccess.autoAllows
      (agentPermissionPolicy.requiredModeFor name) = true := by
    unfold ToolPermissionPolicy.requiredModeFor
    cases found : agentPermissionPolicy.toolRequirements.find?
        fun requirement => requirement.1 == name with
    | none => rfl
    | some requirement => exact specs requirement (List.mem_of_find?_eq_some found)
  unfold ToolPermissionPolicy.authorize
  rw [mode, if_pos allowed]

/-- Every tool of a type has a body that is entered without the browser. -/
theorem delegated_tool (subagentType : String) : ∀ tool ∈ allowedToolsForSubagent subagentType,
    tool = "bash" ∨ (tool ≠ "bash" ∧ isBrowserOptionalToolName tool = false ∧
      (tool ∈ guardedTools ∨ tool ∈ openTools)) := by
  unfold allowedToolsForSubagent
  split <;> decide +kernel

/-- With no enforcer a sub-agent's call enters the body. -/
theorem subagent_enters {World : Type} (host : ToolHost World) {subagentType tool input : String}
    {value : Json} (member : tool ∈ allowedToolsForSubagent subagentType)
    (parses : serde.fromStr input = .ok value)
    (bash : tool = "bash" → ∃ parsed, host.bashInput value = .ok parsed) (ledger : Ledger World) :
    ∃ executed, Entered none tool value executed ∧
      (SubagentToolExecutor.execute host serde ⟨allowedToolsForSubagent subagentType⟩ tool input
        ledger).1 = (host.enter executed ledger).1 := by
  unfold SubagentToolExecutor.execute
  rw [if_neg (not_not.2 member), parses]
  show ∃ executed, _ ∧ (host.executeTool tool value ledger).1 = _
  unfold ToolHost.executeTool ToolHost.executeToolWithEnforcer
  obtain rfl | ⟨other, browser, checked⟩ := delegated_tool subagentType tool member
  · obtain ⟨parsed, reads⟩ := bash rfl
    rw [if_pos rfl, reads]
    exact ⟨_, .bash parsed rfl nofun, rfl⟩
  · refine ⟨_, .tool other, ?_⟩
    rw [if_neg other]
    by_cases guarded : tool ∈ guardedTools
    · rw [if_pos guarded]
      simp [ToolHost.maybeEnforcePermissionCheck, browser]
    · have listed : tool ∈ openTools := checked.resolve_left guarded
      rw [if_neg guarded, if_pos listed]

theorem uncovered_not_within {authority : Authority} {tool : String} {value : Json}
    {executed : Executed} (uncovered : ¬ authority.Covers [tool])
    (entered : Entered none tool value executed) : ¬ authority.Within executed := by
  intro within
  apply uncovered
  constructor
  · intro allowed set other member
    rw [List.mem_singleton.1 member, ← entered.name_eq]
    exact within.1 allowed set
  · intro active bash
    obtain ⟨policy, active⟩ := Option.ne_none_iff_exists'.1 active
    have bash : "bash" = tool := List.mem_singleton.1 bash
    cases entered with
    | tool other => exact other bash.symm
    | bash input named passed =>
        obtain ⟨-, sandbox⟩ := within.2 policy active input none rfl
        cases sandbox

/-- The condition is needed: once a sub-agent has a tool that the authority does not cover,
its next call can leave the authority. -/
theorem uncovered_escapes {authority : Authority} {state : Household σ} {job : AgentJob}
    (typed : Typed state) (started : job ∈ state.world.jobs) {tool : String}
    (member : tool ∈ job.allowedTools) (uncovered : ¬ authority.Covers [tool])
    {input : String} {value : Json} (parses : serde.fromStr input = .ok value)
    (bash : tool = "bash" → ∃ parsed, host.bashInput value = .ok parsed)
    (stream : ApiRequest → σ → σ × Except RuntimeError (List AssistantEvent)) (id : String) :
    ∃ next, step host agents serde authority state (.subagent job stream id tool input) =
        some next ∧ ∃ executed ∈ next.executed, ¬ authority.Within executed := by
  obtain ⟨subagentType, tools⟩ := typed job started
  rw [tools] at member
  obtain ⟨executed, entered, does⟩ :=
    subagent_enters serde (delegatingHost agents host) member parses bash state
  rw [step, if_pos started]
  refine ⟨_, rfl, executed, ?_, uncovered_not_within uncovered entered⟩
  unfold useTool
  rw [show (agentCall job).authorize tool input state = (state, .allow) from
    agent_authorizes tool input state]
  show executed ∈ (SubagentToolExecutor.execute (delegatingHost agents host) serde
    ⟨job.allowedTools⟩ tool input state).1.executed
  rw [tools, does]
  exact List.mem_append_right state.executed (List.mem_singleton_self executed)

theorem uncovered_escapes_bash : ∃ next,
    step shellHost (startingHost (task "general-purpose")) emptyObjectJson
      (delegatingSession ["read_file"]).authority ⟨⟨(), [(task "general-purpose").job []]⟩, []⟩
      (.subagent ((task "general-purpose").job []) silentModel "call-2" "bash" "\x7b\x7d") =
        some next ∧
      ∃ executed ∈ next.executed, ¬ (delegatingSession ["read_file"]).authority.Within executed := by
  refine uncovered_escapes _ _ _ ?_ (List.mem_singleton_self _) ?_ ?_ rfl (fun _ => ⟨_, rfl⟩) _ _
  · intro job started
    obtain rfl := List.mem_singleton.1 started
    exact ⟨normalizeSubagentType (some "general-purpose"), rfl⟩
  · decide +kernel
  · intro covered
    exact absurd (covered.1 _ rfl "bash" (List.mem_singleton_self _)) (by decide)

/-! ## Whole turns are such steps -/

/-- What some interleaving reaches. -/
def Reached (authority : Authority) (outside : σ) (state : Household σ) : Prop :=
  ∃ events, Run (step host agents serde authority) (fun _ _ => True) (start outside) events state

theorem Reached.step {authority : Authority} {outside : σ} {state next : Household σ}
    {event : Event σ} (reached : Reached host agents serde authority outside state)
    (steps : step host agents serde authority state event = some next) :
    Reached host agents serde authority outside next := by
  obtain ⟨events, run⟩ := reached
  exact ⟨events ++ [event], run.snoc trivial steps⟩

theorem Reached.outside {authority : Authority} {outside : σ} {state : Household σ}
    (reached : Reached host agents serde authority outside state) (world : σ) :
    Reached host agents serde authority outside
      { state with world := { state.world with outside := world } } := by
  have steps : Cli.step host agents serde authority state (.outside world) = some _ := rfl
  exact reached.step host agents serde steps

/-- A whole call of the session's runtime is reached by steps. -/
theorem owner_run_reached (owner : Owner) (prompter : Option (PermissionPrompter σ)) (turn : Turn)
    (reply : Option (UserInputRequest → σ → σ × UserInputOutcome)) (surroundings : Surroundings σ)
    {outside : σ} {runtime : ConversationRuntime (Household σ)}
    (reached : Reached host agents serde owner.authority outside runtime.world) :
    Reached host agents serde owner.authority outside
      ((ownerCall owner prompter turn reply).run
        (ownerEnvironment host agents serde owner surroundings) runtime).1.world := by
  have kept : WorldInvariant (ownerEnvironment host agents serde owner surroundings)
      (ownerCall owner prompter turn reply)
      (Reached host agents serde owner.authority outside) := by
    constructor
    · intro request state held
      exact held.outside host agents serde _
    · intro id name input state held
      have steps : step host agents serde owner.authority state
        (.session owner prompter surroundings id name input) = some _ := if_pos rfl
      exact held.step host agents serde steps
    · intro prompt asked request state held
      obtain ⟨ask, -, rfl⟩ := Option.map_eq_some_iff.1 asked
      exact held.outside host agents serde _
  exact kept.run reached

theorem owner_run_reached_start : Reached shellHost (startingHost (task "explore")) emptyObjectJson
    (delegatingSession ["read_file"]).authority ()
    ((ownerCall (delegatingSession ["read_file"]) none (.runTurn "go") none).run
      (ownerEnvironment shellHost (startingHost (task "explore")) emptyObjectJson
        (delegatingSession ["read_file"]) (.ofModel silentModel)) (.new {} [] (start ()))).1.world :=
  owner_run_reached _ _ _ _ _ _ _ _ ⟨[], .nil⟩

/-- And so is a whole job. -/
theorem agent_run_reached {authority : Authority} (job : AgentJob)
    (stream : ApiRequest → σ → σ × Except RuntimeError (List AssistantEvent)) {outside : σ}
    {runtime : ConversationRuntime (Household σ)}
    (reached : Reached host agents serde authority outside runtime.world)
    (started : job ∈ runtime.world.world.jobs) :
    Reached host agents serde authority outside
      ((agentCall job).run (agentEnvironment host agents serde job stream) runtime).1.world := by
  have kept : WorldInvariant (agentEnvironment host agents serde job stream) (agentCall job)
      (fun state => Reached host agents serde authority outside state ∧
        job ∈ state.world.jobs) := by
    constructor
    · rintro request state ⟨held, started⟩
      exact ⟨held.outside host agents serde _, started⟩
    · rintro id name input state ⟨held, started⟩
      have steps : step host agents serde authority state (.subagent job stream id name input) =
        some _ := if_pos started
      exact ⟨held.step host agents serde steps, step_jobs host agents serde steps started⟩
    · exact nofun
  exact (kept.run ⟨reached, started⟩).1

theorem agent_run_reached_launched : ∃ job state, job ∈ state.world.jobs ∧
    Reached shellHost (startingHost (task "explore")) emptyObjectJson
      (delegatingSession []).authority ()
      ((agentCall job).run (agentEnvironment shellHost (startingHost (task "explore"))
        emptyObjectJson job silentModel) (.new {} [] state)).1.world :=
  ⟨(task "explore").job [], ⟨⟨(), [(task "explore").job []]⟩, [.tool "Agent" (.object [])]⟩,
    List.mem_singleton_self _, agent_run_reached _ _ _ _ _
      ⟨[.session (delegatingSession []) none (.ofModel silentModel) "call-1" "Agent" "\x7b\x7d"],
        .cons trivial (by rfl) .nil⟩ (List.mem_singleton_self _)⟩

end System

end Openyak.Cli
