/-
# Cli.PermissionGates -- the two checks of a tool call

A call of the model is judged twice by the same policy: by `authorize` in the
conversation loop, where the user can be asked, and by the enforcer in the tool
layer, where no one can.  So a call the user approved is refused by the second
check when its tool passes it and the mode alone is not enough.  `GatesApart` is
that case, and a write whose current directory cannot be read; there is no other
(`gates_agree_iff`).

`build_runtime`'s parts are `CliConfig`'s: the policy, the executor with its
registry, and the bash policy of the tool profile.
-/
import Openyak.Tools.ToolRegistry

namespace Openyak.Cli

open Openyak.Theory
open Openyak.Runtime
open Openyak.Tools

set_option autoImplicit false

/-! ## What `build_runtime` builds -/

structure CliToolExecutor where
  allowedTools : Option (List String)
  toolRegistry : GlobalToolRegistry

def notEnabledMessage (toolName : String) : String :=
  if isBrowserOptionalToolName toolName then
    "tool `" ++ toolName ++ "` is not enabled by the current --allowedTools setting; " ++
      "browser tools remain hidden until you explicitly pass --allowedTools " ++ toolName ++
      " with browserControl.enabled=true"
  else "tool `" ++ toolName ++ "` is not enabled by the current --allowedTools setting"

/-- Without the terminal output. -/
def CliToolExecutor.execute {World : Type} (host : ToolHost World) (serde : SerdeJson)
    (executor : CliToolExecutor) (toolName input : String) (ledger : Ledger World) :
    Ledger World × Except ToolFailure String :=
  if executor.allowedTools.any (fun allowed => !allowed.contains toolName) then
    (ledger, .error (.notEnabled (notEnabledMessage toolName)))
  else
    match serde.fromStr input with
    | .error error => (ledger, .error (.invalidInput ("invalid tool input JSON: " ++ error)))
    | .ok value => executor.toolRegistry.execute host toolName value ledger

/-- The modes the command line runs in. -/
def cliModes : List PermissionMode := [.readOnly, .workspaceWrite, .dangerFullAccess]

/-- The registry is the one `build_runtime_plugin_state` gives. -/
structure CliConfig where
  permissionMode : PermissionMode
  cliMode : permissionMode ∈ cliModes
  allowedTools : Option (List String)
  toolRegistry : GlobalToolRegistry
  bashPolicy : Option ToolProfileBashPolicy

namespace CliConfig

variable (config : CliConfig)

def policy : ToolPermissionPolicy :=
  permissionPolicy config.permissionMode config.toolRegistry config.allowedTools

def registry : GlobalToolRegistry :=
  let enforced := config.toolRegistry.withEnforcer ⟨config.policy⟩
  match config.bashPolicy with
  | some bashPolicy => enforced.withBashPolicy bashPolicy
  | none => enforced

def executor : CliToolExecutor := ⟨config.allowedTools, config.registry⟩

end CliConfig

/-- A prompter acts on the world; no body is entered by it. -/
def liftPrompter {World : Type} (prompter : PermissionPrompter World) :
    PermissionPrompter (Ledger World) := fun request ledger =>
  let decided := prompter request ledger.world
  ({ ledger with world := decided.1 }, decided.2)

section Gates

variable {World : Type} (host : ToolHost World) (serde : SerdeJson)

/-- The loop's side of a call: the policy, asking `prompter`. -/
def CliConfig.authorize (config : CliConfig) (prompter : Option (PermissionPrompter World))
    (toolName input : String) (ledger : Ledger World) : Ledger World × PermissionOutcome :=
  config.policy.authorize toolName input (prompter.map liftPrompter) ledger

/-- The executor as the loop calls it. -/
def CliConfig.environment (config : CliConfig) (outer : Environment (Ledger World)) :
    Environment (Ledger World) :=
  { outer with
    execute := fun toolName input ledger =>
      let executed := config.executor.execute host serde toolName input ledger
      (executed.1, executed.2.mapError ToolFailure.message) }

/-! ## What the enforcer says -/

/-- The executor gets to the tool's own branch with this input. -/
def Reaches (config : CliConfig) (toolName input : String) (value : Json) : Prop :=
  (config.allowedTools.any fun allowed => !allowed.contains toolName) = false ∧
  serde.fromStr input = .ok value ∧
  (isBrowserOptionalToolName toolName = true → config.toolRegistry.browserEnabled = true)

@[simp] theorem registry_enforcer (config : CliConfig) :
    config.registry.enforcer = some ⟨config.policy⟩ := by
  unfold CliConfig.registry
  cases config.bashPolicy <;> rfl

@[simp] theorem registry_browser (config : CliConfig) :
    config.registry.browserEnabled = config.toolRegistry.browserEnabled := by
  unfold CliConfig.registry
  cases config.bashPolicy <;> rfl

theorem enter_not_refused (executed : Executed) (ledger : Ledger World) (reason : String) :
    (host.enter executed ledger).2 ≠ .error (.refused reason) := by
  rw [ToolHost.enter]
  cases (host.body executed ledger.world).2 with
  | ok output => exact nofun
  | error error => exact nofun

theorem executeTool_refused_iff {enforcer : Option ToolEnforcer}
    {bashPolicy : Option ToolProfileBashPolicy} {browserEnabled : Bool} {name reason : String}
    {value : Json} {ledger : Ledger World} :
    (host.executeToolWithEnforcer enforcer bashPolicy browserEnabled name value ledger).2 =
        .error (.refused reason) ↔
      (name = "bash" ∧ ∃ parsed, host.bashInput value = .ok parsed ∧
        host.maybeEnforcePermissionCheck enforcer bashPolicy name (some parsed) value
          ledger.world = .error reason) ∨
      (name ≠ "bash" ∧ name ∈ guardedTools ∧
        host.maybeEnforcePermissionCheck enforcer bashPolicy name none value ledger.world =
          .error reason) := by
  unfold ToolHost.executeToolWithEnforcer
  by_cases bash : name = "bash"
  · simp only [bash, if_true, true_and, ne_eq, not_true_eq_false, false_and, or_false]
    cases parse : host.bashInput value with
    | error error => simp
    | ok parsed =>
        simp only [Except.ok.injEq, exists_eq_left']
        cases host.maybeEnforcePermissionCheck enforcer bashPolicy "bash" (some parsed) value
            ledger.world with
        | error refusal => simp
        | ok passed => simp [ToolHost.runBash, enter_not_refused]
  · simp only [bash, if_false, false_and, false_or, ne_eq, not_false_eq_true, true_and]
    by_cases guarded : name ∈ guardedTools
    · simp only [guarded, if_true, true_and]
      cases host.maybeEnforcePermissionCheck enforcer bashPolicy name none value
          ledger.world with
      | error refusal => simp
      | ok passed =>
          simp only [reduceCtorEq, iff_false]
          split
          · simp
          · exact enter_not_refused host _ ledger reason
    · simp only [guarded, if_false, false_and, iff_false]
      split
      · exact enter_not_refused host _ ledger reason
      · simp

theorem guarded_builtin : ∀ name ∈ guardedTools,
    isBuiltin name = true ∨ isBrowserOptionalToolName name = true := by decide +kernel

theorem bash_builtin : isBuiltin "bash" = true := by decide +kernel

theorem browser_optional (registry : GlobalToolRegistry) {name : String}
    (browser : isBrowserOptionalToolName name = true) (enabled : registry.browserEnabled = true) :
    registry.enabledOptionalBuiltinSpecs.any (fun spec => spec.name == name) = true := by
  rw [GlobalToolRegistry.enabledOptionalBuiltinSpecs, if_pos enabled]
  obtain rfl | rfl : name = browserObserveToolName ∨ name = browserInteractToolName := by
    simpa [isBrowserOptionalToolName] using browser
  · decide
  · decide

/-- The tool's own branch refuses the call. -/
def Refuses (config : CliConfig) (name : String) (value : Json) (world : World)
    (reason : String) : Prop :=
  (name = "bash" ∧ ∃ parsed, host.bashInput value = .ok parsed ∧
    host.maybeEnforcePermissionCheck (some ⟨config.policy⟩) config.registry.bashPolicy name
      (some parsed) value world = .error reason) ∨
  (name ≠ "bash" ∧ name ∈ guardedTools ∧
    host.maybeEnforcePermissionCheck (some ⟨config.policy⟩) config.registry.bashPolicy name
      none value world = .error reason)

theorem registry_refused_iff {config : CliConfig} {name reason : String} {value : Json}
    {ledger : Ledger World} :
    (config.registry.execute host name value ledger).2 = .error (.refused reason) ↔
      (isBrowserOptionalToolName name = true → config.toolRegistry.browserEnabled = true) ∧
        Refuses host config name value ledger.world reason := by
  unfold GlobalToolRegistry.execute
  rw [registry_browser, registry_enforcer]
  by_cases off : (isBrowserOptionalToolName name && !config.toolRegistry.browserEnabled) = true
  · have off' : isBrowserOptionalToolName name = true ∧
        config.toolRegistry.browserEnabled = false := by simpa using off
    simp [off'.1, off'.2]
  have on : isBrowserOptionalToolName name = true → config.toolRegistry.browserEnabled = true := by
    simpa using off
  rw [if_neg off]
  by_cases own : (isBuiltin name ||
      config.registry.enabledOptionalBuiltinSpecs.any (fun spec => spec.name == name)) = true
  · rw [if_pos own, executeTool_refused_iff]
    exact ⟨fun refuses => ⟨on, refuses⟩, And.right⟩
  · rw [if_neg own]
    have foreign : ¬ Refuses host config name value ledger.world reason := by
      rintro (⟨rfl, -⟩ | ⟨-, guarded, -⟩)
      · simp [bash_builtin] at own
      · obtain builtin | browser := guarded_builtin name guarded
        · simp [builtin] at own
        · have optional := browser_optional config.registry browser
            (by rw [registry_browser]; exact on browser)
          simp [optional] at own
    constructor
    · intro refused
      exfalso
      split at refused
      · exact enter_not_refused host _ ledger reason refused
      · simp at refused
    · rintro ⟨-, refuses⟩
      exact absurd refuses foreign

/-- A call is refused where the tool's own branch is reached and refuses it. -/
theorem execute_refused_iff {config : CliConfig} {name input reason : String}
    {ledger : Ledger World} :
    (config.executor.execute host serde name input ledger).2 = .error (.refused reason) ↔
      ∃ value, Reaches serde config name input value ∧
        Refuses host config name value ledger.world reason := by
  unfold CliToolExecutor.execute Reaches
  rw [show config.executor.allowedTools = config.allowedTools from rfl,
    show config.executor.toolRegistry = config.registry from rfl]
  cases named : config.allowedTools.any (fun allowed => !allowed.contains name) with
  | true => simp
  | false =>
      simp only [Bool.false_eq_true, if_false, true_and]
      cases parse : serde.fromStr input with
      | error error => simp
      | ok value =>
          rw [registry_refused_iff]
          constructor
          · rintro ⟨on, refuses⟩
            exact ⟨value, ⟨rfl, on⟩, refuses⟩
          · rintro ⟨other, ⟨same, on⟩, refuses⟩
            cases same
            exact ⟨on, refuses⟩

/-! ## The requirement of a built-in tool -/

theorem policy_requirements (specs : List (String × PermissionMode))
    (policy : ToolPermissionPolicy) :
    (specs.foldl (fun policy spec => policy.withToolRequirement spec.1 spec.2)
      policy).toolRequirements = specs.reverse ++ policy.toolRequirements := by
  induction specs generalizing policy with
  | nil => rfl
  | cons spec specs ih =>
      rw [List.foldl_cons, ih]
      simp [ToolPermissionPolicy.withToolRequirement]

theorem policy_mode (specs : List (String × PermissionMode)) (policy : ToolPermissionPolicy) :
    (specs.foldl (fun policy spec => policy.withToolRequirement spec.1 spec.2)
      policy).activeMode = policy.activeMode := by
  induction specs generalizing policy with
  | nil => rfl
  | cons spec specs ih =>
      rw [List.foldl_cons, ih]
      rfl

@[simp] theorem config_mode (config : CliConfig) :
    config.policy.activeMode = config.permissionMode := policy_mode _ _

/-- A policy requires of a tool what one of the registry's specs says. -/
theorem required_mem (config : CliConfig) (name : String) :
    (name, config.policy.requiredModeFor name) ∈
        config.toolRegistry.permissionSpecs config.allowedTools ∨
      (config.policy.requiredModeFor name = .dangerFullAccess ∧
        ∀ mode, (name, mode) ∉ config.toolRegistry.permissionSpecs config.allowedTools) := by
  unfold ToolPermissionPolicy.requiredModeFor CliConfig.policy permissionPolicy
  rw [policy_requirements, show (ToolPermissionPolicy.new config.permissionMode).toolRequirements =
    [] from rfl, List.append_nil]
  cases found : (config.toolRegistry.permissionSpecs config.allowedTools).reverse.find?
      fun requirement => requirement.1 == name with
  | none =>
      refine .inr ⟨rfl, fun mode member => ?_⟩
      exact List.find?_eq_none.1 found _ (List.mem_reverse.2 member) (beq_self_eq_true _)
  | some requirement =>
      have same := List.find?_some found
      have named : requirement.1 = name := eq_of_beq same
      have held := List.mem_reverse.1 (List.mem_of_find?_eq_some found)
      rw [← named]
      exact .inl held

def isFileWrite (name : String) : Bool := name = "write_file" || name = "edit_file"

theorem write_specs : ∀ spec ∈ mvpToolSpecs, isFileWrite spec.name = true →
    spec.requiredPermission = .workspaceWrite := by decide +kernel

theorem write_listed : ∀ name ∈ ["write_file", "edit_file"],
    ⟨name, .workspaceWrite⟩ ∈ mvpToolSpecs ∧ isBuiltin name = true := by decide +kernel

theorem write_cases {name : String} (write : isFileWrite name = true) :
    name ∈ ["write_file", "edit_file"] := by
  simpa [isFileWrite] using write

/-- Whatever the plugins, every spec of a tool that writes files asks for writing. -/
theorem write_spec {config : CliConfig} {name : String} {mode : PermissionMode}
    (write : isFileWrite name = true)
    (member : (name, mode) ∈ config.toolRegistry.permissionSpecs config.allowedTools) :
    mode = .workspaceWrite := by
  obtain (builtin | optional) | plugin := by
    simpa only [GlobalToolRegistry.permissionSpecs, List.mem_append] using member
  · obtain ⟨spec, held, same⟩ := List.mem_map.1 builtin
    obtain ⟨rfl, rfl⟩ := Prod.mk.inj same
    exact write_specs spec (List.mem_of_mem_filter held) write
  · obtain ⟨spec, held, same⟩ := List.mem_map.1 optional
    obtain ⟨rfl, -⟩ := Prod.mk.inj same
    have listed := List.mem_of_mem_filter held
    rw [GlobalToolRegistry.enabledOptionalBuiltinSpecs] at listed
    split at listed
    · have other : ∀ spec ∈ optionalBuiltinSpecs, isFileWrite spec.name = false := by decide
      rw [other spec listed] at write
      cases write
    · cases listed
  · obtain ⟨tool, held, same⟩ := List.mem_map.1 plugin
    obtain ⟨rfl, -⟩ := Prod.mk.inj same
    have foreign := config.toolRegistry.unreserved tool (List.mem_of_mem_filter held)
    rw [(write_listed tool.name (write_cases write)).2] at foreign
    cases foreign

/-- In read-only mode a tool that writes files is not let through. -/
theorem required_write (config : CliConfig) {name : String} (write : isFileWrite name = true) :
    config.policy.requiredModeFor name ≠ .readOnly := by
  intro readOnly
  obtain member | ⟨danger, -⟩ := required_mem config name
  · have mode := write_spec write member
    rw [readOnly] at mode
    cases mode
  · rw [readOnly] at danger
    cases danger

/-- Where such a tool is enabled it requires no more than writing. -/
theorem required_write_enabled (config : CliConfig) {name : String}
    (write : isFileWrite name = true)
    (enabled : config.allowedTools.any (fun allowed => !allowed.contains name) = false) :
    config.policy.requiredModeFor name = .workspaceWrite := by
  obtain member | ⟨-, missing⟩ := required_mem config name
  · exact write_spec write member
  · refine absurd ?_ (missing .workspaceWrite)
    have allows : config.allowedTools.all (·.contains name) = true := by
      cases tools : config.allowedTools with
      | none => rfl
      | some allowed => simpa [tools] using enabled
    simp only [GlobalToolRegistry.permissionSpecs, List.mem_append]
    refine .inl (.inl (List.mem_map.2 ⟨⟨name, .workspaceWrite⟩, ?_, rfl⟩))
    exact List.mem_filter.2 ⟨(write_listed name (write_cases write)).1, allows⟩

/-! ## The two gates -/

/-- A refusal that has nothing to do with approval: a bash command the validation
or the profile's bash policy refuses, or a write outside the workspace. -/
def Excepted (config : CliConfig) (name : String) (value : Json) (world : World) : Prop :=
  (name = "bash" ∧ ∃ parsed, host.bashInput value = .ok parsed ∧
    (validateBashCommand parsed.command.toList config.permissionMode ≠ .allow ∨
      ∃ bashPolicy error, config.registry.bashPolicy = some bashPolicy ∧
        bashPolicy.validateOverride parsed = .error error)) ∨
  (isFileWrite name = true ∧ ∃ place, host.currentDir world = .ok place ∧
    isWithinWorkspace place.cwd (((value.get? "path").bind Json.asStr?).getD "") place.cwd.text =
      false)

/-- A call the loop lets through, asked in the one world and executed in the other,
is not refused by the tool layer, but for the exceptions. -/
def GatesAgree (config : CliConfig) (prompter : Option (PermissionPrompter World))
    (name input : String) (asked executed : Ledger World) : Prop :=
  (config.authorize prompter name input asked).2 = .allow →
    ∀ reason, (config.executor.execute host serde name input executed).2 =
      .error (.refused reason) →
        ∃ value, serde.fromStr input = .ok value ∧ Excepted host config name value executed.world

/-- The mode alone is not enough for the call, and its tool is one that the
enforcer checks by the mode. -/
def Escalated (config : CliConfig) (name : String) : Prop :=
  config.permissionMode = .workspaceWrite ∧
    config.policy.requiredModeFor name = .dangerFullAccess ∧ name ∈ guardedTools ∧
    isFileWrite name = false

/-- The calls on which the gates differ: an approved escalation of such a tool, and
a write where the current directory cannot be read. -/
def GatesApart (config : CliConfig) (prompter : Option (PermissionPrompter World))
    (name input : String) (asked executed : Ledger World) : Prop :=
  (∃ value, Reaches serde config name input value) ∧
    ((Escalated config name ∧ ∃ decide, prompter = some decide ∧
        (decide ⟨name, input, .workspaceWrite, .dangerFullAccess⟩ asked.world).2 = .allow) ∨
      (isFileWrite name = true ∧ config.permissionMode ≠ .readOnly ∧
        ∃ error, host.currentDir executed.world = .error error))

/-! ## Where the enforcer refuses -/

theorem refuses_bash {config : CliConfig} {value : Json} {world : World} {reason : String}
    (refuses : Refuses host config "bash" value world reason) :
    Excepted host config "bash" value world := by
  obtain ⟨-, parsed, parse, refuses⟩ | ⟨other, -⟩ := refuses
  · refine .inl ⟨rfl, parsed, parse, ?_⟩
    unfold ToolHost.maybeEnforcePermissionCheck at refuses
    simp only [show ¬ ("bash" = "write_file" ∨ "bash" = "edit_file") by decide, if_false, if_true,
      ToolEnforcer.checkBash, config_mode, Option.map_some, Option.orElse_some,
      Option.getD_some] at refuses
    cases validated : validateBashCommand parsed.command.toList config.permissionMode with
    | deny denial => exact .inl nofun
    | allow =>
        simp only [validated, EnforcementResult.toExcept] at refuses
        cases profile : config.registry.bashPolicy with
        | none => simp [profile] at refuses
        | some bashPolicy =>
            simp only [profile] at refuses
            exact .inr ⟨bashPolicy, reason, rfl, refuses⟩
  · exact absurd rfl other

theorem write_guarded {name : String} (write : isFileWrite name = true) :
    name ≠ "bash" ∧ name ∈ guardedTools ∧ isBrowserOptionalToolName name = false := by
  have all : ∀ name ∈ ["write_file", "edit_file"], name ≠ "bash" ∧ name ∈ guardedTools ∧
      isBrowserOptionalToolName name = false := by decide
  exact all name (write_cases write)

theorem refuses_write_iff {config : CliConfig} {name : String} {value : Json} {world : World}
    (write : isFileWrite name = true) {reason : String} :
    Refuses host config name value world reason ↔
      host.currentDir world = .error reason ∨ ∃ place, host.currentDir world = .ok place ∧
        EnforcementResult.toExcept ((⟨config.policy⟩ : ToolEnforcer).checkFileWrite place.cwd
          (((value.get? "path").bind Json.asStr?).getD "") place.cwd.text) = .error reason := by
  obtain ⟨bash, guarded, -⟩ := write_guarded write
  have named : name = "write_file" ∨ name = "edit_file" := by simpa [isFileWrite] using write
  unfold Refuses ToolHost.maybeEnforcePermissionCheck
  simp only [bash, false_and, false_or, ne_eq, not_false_eq_true, guarded, true_and, named, if_true]
  cases host.currentDir world with
  | error error => simp
  | ok place => simp

theorem refuses_other_iff {config : CliConfig} {name : String} {value : Json} {world : World}
    (bash : name ≠ "bash") (write : isFileWrite name = false) {reason : String} :
    Refuses host config name value world reason ↔ name ∈ guardedTools ∧
      EnforcementResult.toExcept ((⟨config.policy⟩ : ToolEnforcer).check name (host.toText value)) =
        .error reason := by
  have named : ¬ (name = "write_file" ∨ name = "edit_file") := by
    simpa [isFileWrite] using write
  unfold Refuses ToolHost.maybeEnforcePermissionCheck
  simp only [bash, false_and, false_or, ne_eq, not_false_eq_true, true_and, named, if_false]

theorem mode_cases (config : CliConfig) : config.permissionMode = .readOnly ∨
    config.permissionMode = .workspaceWrite ∨ config.permissionMode = .dangerFullAccess := by
  simpa [cliModes] using config.cliMode

theorem checkFileWrite_cases {config : CliConfig} {fs : Posix.FileSystem}
    {cwd : Posix.WorkingDirectory fs} {path : String} (writes : config.permissionMode ≠ .readOnly) {reason : String}
    (denied : EnforcementResult.toExcept ((⟨config.policy⟩ : ToolEnforcer).checkFileWrite cwd path
      cwd.text) = .error reason) : isWithinWorkspace cwd path cwd.text = false := by
  unfold ToolEnforcer.checkFileWrite PermissionEnforcer.checkFileWrite at denied
  simp only [config_mode] at denied
  obtain readOnly | workspace | danger := mode_cases config
  · exact absurd readOnly writes
  · simp only [workspace] at denied
    split at denied
    · cases denied
    · rename_i outside
      exact Bool.eq_false_of_not_eq_true outside
  · simp only [danger] at denied
    cases denied

theorem not_prompt (config : CliConfig) : config.policy.activeMode ≠ .prompt := by
  rw [config_mode]
  intro prompt
  have mode := config.cliMode
  rw [prompt] at mode
  exact absurd mode (by decide)

/-- The enforcer refuses a tool it checks by the mode when the mode is not enough. -/
theorem check_denied_iff (config : CliConfig) (name text : String) :
    (∃ reason, EnforcementResult.toExcept ((⟨config.policy⟩ : ToolEnforcer).check name text) =
      .error reason) ↔
      config.permissionMode.autoAllows (config.policy.requiredModeFor name) = false := by
  have allowed := @check_allowed_iff name text ⟨config.policy⟩ (not_prompt config)
  simp only [config_mode] at allowed
  cases outcome : (⟨config.policy⟩ : ToolEnforcer).check name text with
  | allowed =>
      have auto := allowed.1 outcome
      simp [EnforcementResult.toExcept, auto]
  | denied tool active required reason =>
      have refused : ¬ config.permissionMode.autoAllows (config.policy.requiredModeFor name) =
          true := by
        intro auto
        rw [allowed.2 auto] at outcome
        cases outcome
      simp [EnforcementResult.toExcept, Bool.eq_false_of_not_eq_true refused]

/-! ## The first gate -/

section Authorize

variable {config : CliConfig} {prompter : Option (PermissionPrompter World)}
  {name input : String} {asked : Ledger World}

/-- The loop lets a call through by the mode, or because the user approved leaving
workspace-write mode for it. -/
theorem authorized_iff :
    (config.authorize prompter name input asked).2 = .allow ↔
      config.permissionMode.autoAllows (config.policy.requiredModeFor name) = true ∨
      (config.permissionMode = .workspaceWrite ∧
        config.policy.requiredModeFor name = .dangerFullAccess ∧
        ∃ decide, prompter = some decide ∧
          (decide ⟨name, input, .workspaceWrite, .dangerFullAccess⟩ asked.world).2 = .allow) := by
  rw [CliConfig.authorize, authorize_allow_iff, config_mode]
  have asks : config.policy.mayAsk name = true ↔ config.permissionMode = .workspaceWrite ∧
      config.policy.requiredModeFor name = .dangerFullAccess := by
    have prompt := not_prompt config
    rw [config_mode] at prompt
    simp [ToolPermissionPolicy.mayAsk, prompt]
  rw [asks, and_assoc]
  refine or_congr_right (and_congr_right fun workspace => and_congr_right fun danger => ?_)
  rw [workspace, danger]
  cases prompter with
  | none => simp
  | some decide => simp [liftPrompter]

/-- In read-only mode no tool that writes files gets through. -/
theorem authorized_write (write : isFileWrite name = true)
    (allowed : (config.authorize prompter name input asked).2 = .allow) :
    config.permissionMode ≠ .readOnly := by
  intro readOnly
  obtain auto | ⟨workspace, -⟩ := authorized_iff.1 allowed
  · rw [readOnly] at auto
    have reads : config.policy.requiredModeFor name = .readOnly := by
      simpa [PermissionMode.autoAllows] using auto
    exact required_write config write reads
  · rw [readOnly] at workspace
    cases workspace

end Authorize

/-! ## The two gates agree but for `GatesApart` -/

/-- The call of the loop, with its prompter for permissions. -/
def CliConfig.call (config : CliConfig) (prompter : Option (PermissionPrompter World))
    (turn : Turn)
    (userInput : Option (UserInputRequest → Ledger World → Ledger World × UserInputOutcome)) :
    Call (Ledger World) := ⟨turn, config.authorize prompter, userInput⟩

section Agree

variable {config : CliConfig} {prompter : Option (PermissionPrompter World)}
  {name input : String} {asked executed : Ledger World}

theorem not_agree_of_apart (apart : GatesApart host serde config prompter name input asked executed) :
    ¬ GatesAgree host serde config prompter name input asked executed := by
  intro agree
  obtain ⟨⟨value, reaches⟩, ⟨⟨workspace, danger, guarded, write⟩, decide, asks, approves⟩ |
    ⟨write, writes, error, unreadable⟩⟩ := apart
  · have bash : name ≠ "bash" := by
      rintro rfl
      exact absurd guarded (by decide)
    have allowed := authorized_iff.2 (.inr ⟨workspace, danger, decide, asks, approves⟩)
    obtain ⟨reason, denied⟩ := (check_denied_iff config name (host.toText value)).2
      (by rw [workspace, danger]; rfl)
    have refused : (config.executor.execute host serde name input executed).2 =
        .error (.refused reason) := (execute_refused_iff host serde).2
      ⟨value, reaches, (refuses_other_iff host bash write).2 ⟨guarded, denied⟩⟩
    obtain ⟨-, -, ⟨same, -⟩ | ⟨other, -⟩⟩ := agree allowed reason refused
    · exact bash same
    · rw [write] at other
      cases other
  · have required := required_write_enabled config write reaches.1
    have auto : config.permissionMode.autoAllows (config.policy.requiredModeFor name) = true := by
      rw [required]
      obtain readOnly | workspace | danger := mode_cases config
      · exact absurd readOnly writes
      · rw [workspace]
        rfl
      · rw [danger]
        rfl
    have refused : (config.executor.execute host serde name input executed).2 =
        .error (.refused error) := (execute_refused_iff host serde).2
      ⟨value, reaches, (refuses_write_iff host write).2 (.inl unreadable)⟩
    obtain ⟨-, -, ⟨same, -⟩ | ⟨-, place, readable, -⟩⟩ :=
      agree (authorized_iff.2 (.inl auto)) error refused
    · exact (write_guarded write).1 same
    · rw [unreadable] at readable
      cases readable

theorem agree_of_not_apart
    (together : ¬ GatesApart host serde config prompter name input asked executed) :
    GatesAgree host serde config prompter name input asked executed := by
  intro allowed reason refused
  obtain ⟨value, reaches, refuses⟩ := (execute_refused_iff host serde).1 refused
  refine ⟨value, reaches.2.1, ?_⟩
  by_cases bash : name = "bash"
  · subst bash
    exact refuses_bash host refuses
  cases write : isFileWrite name with
  | true =>
      have writes := authorized_write write allowed
      obtain unreadable | ⟨place, readable, denied⟩ := (refuses_write_iff host write).1 refuses
      · exact absurd ⟨⟨value, reaches⟩, .inr ⟨write, writes, reason, unreadable⟩⟩ together
      · exact .inr ⟨write, place, readable, checkFileWrite_cases writes denied⟩
  | false =>
      obtain ⟨guarded, denied⟩ := (refuses_other_iff host bash write).1 refuses
      have short := (check_denied_iff config name (host.toText value)).1 ⟨reason, denied⟩
      obtain auto | ⟨workspace, danger, asks⟩ := authorized_iff.1 allowed
      · rw [short] at auto
        cases auto
      · exact absurd ⟨⟨value, reaches⟩, .inl ⟨⟨workspace, danger, guarded, write⟩, asks⟩⟩ together

end Agree

/-- Asking enters no body. -/
theorem authorize_executed (config : CliConfig) (prompter : Option (PermissionPrompter World))
    (name input : String) (asked : Ledger World) :
    (config.authorize prompter name input asked).1.executed = asked.executed := by
  unfold CliConfig.authorize ToolPermissionPolicy.authorize
  split
  · rfl
  · split
    · cases prompter with
      | none => rfl
      | some decide => rfl
    · rfl

/-- A call the loop refuses enters no body. -/
theorem denied_enters_none (config : CliConfig) (outer : Environment (Ledger World))
    (prompter : Option (PermissionPrompter World)) (turn : Turn)
    (userInput : Option (UserInputRequest → Ledger World → Ledger World × UserInputOutcome))
    (id name input reason : String) (asked : Ledger World)
    (denied : (config.authorize prompter name input asked).2 = .deny reason) :
    (useTool (config.environment host serde outer) (config.call prompter turn userInput) id name
      input asked).1.executed = asked.executed := by
  have kept := authorize_executed config prompter name input asked
  unfold useTool
  rw [show (config.call prompter turn userInput).authorize name input asked =
    config.authorize prompter name input asked from rfl]
  cases outcome : config.authorize prompter name input asked with
  | mk after decision =>
      rw [outcome] at denied kept
      have denied : decision = .deny reason := denied
      subst denied
      exact kept

/-- The second gate refuses, beyond the exceptions, exactly the calls on which the
gates are apart; and a call the first gate refuses enters no body. -/
theorem gates_agree_iff (config : CliConfig) (prompter : Option (PermissionPrompter World))
    (name input : String) (asked : Ledger World) :
    (∀ executed, GatesAgree host serde config prompter name input asked executed ↔
      ¬ GatesApart host serde config prompter name input asked executed) ∧
    ∀ outer turn userInput id reason,
      (config.authorize prompter name input asked).2 = .deny reason →
      (useTool (config.environment host serde outer) (config.call prompter turn userInput) id name
        input asked).1.executed = asked.executed := by
  constructor
  · intro executed
    exact ⟨fun agree apart => not_agree_of_apart host serde apart agree,
      agree_of_not_apart host serde⟩
  · intro outer turn userInput id reason denied
    exact denied_enters_none host serde config outer prompter turn userInput id name input reason
      asked denied

end Gates

/-! ## An approved call that is refused -/

/-- A workspace-write session with the built-in tools. -/
def workspaceSession : CliConfig where
  permissionMode := .workspaceWrite
  cliMode := by decide
  allowedTools := none
  toolRegistry := .builtin
  bashPolicy := none

/-- A host without a world, whose bodies give an empty output. -/
def quietHost : ToolHost Unit where
  bashInput _ := .error "missing field `command`"
  toText _ := "\x7b\x7d"
  currentDir _ := .error "no current directory"
  body _ world := (world, .ok "")

def emptyObjectJson : SerdeJson where
  fromStr _ := .ok (.object [])
  toText _ := "\x7b\x7d"

def approving : PermissionPrompter Unit := fun _ world => (world, .allow)

/-- The user approves `TaskCreate`, and the tool layer asks for the approval again. -/
theorem approved_refused :
    (workspaceSession.authorize (some approving) "TaskCreate" "\x7b\x7d" ⟨(), []⟩).2 = .allow ∧
    (workspaceSession.executor.execute quietHost emptyObjectJson "TaskCreate" "\x7b\x7d" ⟨(), []⟩).2 =
      .error (.refused ("tool 'TaskCreate' requires approval to escalate from " ++
        "workspace-write to danger-full-access")) ∧
    ¬ GatesAgree quietHost emptyObjectJson workspaceSession (some approving) "TaskCreate" "\x7b\x7d"
      ⟨(), []⟩ ⟨(), []⟩ := by
  have allowed : (workspaceSession.authorize (some approving) "TaskCreate" "\x7b\x7d" ⟨(), []⟩).2 =
      .allow := by decide +kernel
  have refused : (workspaceSession.executor.execute quietHost emptyObjectJson "TaskCreate" "\x7b\x7d"
      ⟨(), []⟩).2 = .error (.refused ("tool 'TaskCreate' requires approval to escalate from " ++
        "workspace-write to danger-full-access")) := by decide +kernel
  refine ⟨allowed, refused, fun agree => ?_⟩
  obtain ⟨-, -, ⟨bash, -⟩ | ⟨write, -⟩⟩ := agree allowed _ refused
  · exact absurd bash (by decide)
  · exact absurd write (by decide)

end Openyak.Cli
