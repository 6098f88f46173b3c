/-
# Runtime.ToolPolicy -- the policy a tool call is judged by

A policy has a mode and, for each tool it knows, the mode the tool requires.
`authorize` lets a call through by itself or asks the prompter; `check` is the
same decision with no one to ask.  The bash part of a tool profile limits what a
single bash call may override.
-/
import Openyak.Runtime.Conversation
import Openyak.Runtime.PermissionEnforcer
import Openyak.Runtime.BashValidation

namespace Openyak.Runtime

set_option autoImplicit false

/-! ## The policy -/

/-- The whole policy: the mode, and the requirements with the latest first. -/
structure ToolPermissionPolicy extends PermissionPolicy where
  toolRequirements : List (String × PermissionMode) := []
  deriving DecidableEq, Repr

structure PermissionRequest where
  toolName : String
  input : String
  currentMode : PermissionMode
  requiredMode : PermissionMode
  deriving DecidableEq, Repr

inductive PermissionPromptDecision where
  | allow
  | deny (reason : String)
  deriving DecidableEq, Repr

/-- One who is asked, and what the question does to the world. -/
abbrev PermissionPrompter (World : Type) :=
  PermissionRequest → World → World × PermissionPromptDecision

namespace ToolPermissionPolicy

def new (activeMode : PermissionMode) : ToolPermissionPolicy := { activeMode := activeMode }

def withToolRequirement (policy : ToolPermissionPolicy) (toolName : String)
    (requiredMode : PermissionMode) : ToolPermissionPolicy :=
  { policy with toolRequirements := (toolName, requiredMode) :: policy.toolRequirements }

def requiredModeFor (policy : ToolPermissionPolicy) (toolName : String) : PermissionMode :=
  ((policy.toolRequirements.find? fun requirement => requirement.1 == toolName).map
    Prod.snd).getD .dangerFullAccess

/-- What `authorize` says when it may not ask. -/
def insufficient (policy : ToolPermissionPolicy) (toolName : String) : String :=
  "tool '" ++ toolName ++ "' requires " ++ (policy.requiredModeFor toolName).asStr ++
    " permission; current mode is " ++ policy.activeMode.asStr

/-- The mode may be left for this tool when someone approves. -/
def mayAsk (policy : ToolPermissionPolicy) (toolName : String) : Bool :=
  policy.activeMode = .prompt ||
    (policy.activeMode = .workspaceWrite && policy.requiredModeFor toolName = .dangerFullAccess)

def authorize {World : Type} (policy : ToolPermissionPolicy) (toolName input : String)
    (prompter : Option (PermissionPrompter World)) (world : World) : World × PermissionOutcome :=
  if policy.activeMode.autoAllows (policy.requiredModeFor toolName) then (world, .allow)
  else if policy.mayAsk toolName then
    match prompter with
    | some decide =>
        let decided := decide
          ⟨toolName, input, policy.activeMode, policy.requiredModeFor toolName⟩ world
        (decided.1, match decided.2 with
          | .allow => .allow
          | .deny reason => .deny reason)
    | none => (world, .deny ("tool '" ++ toolName ++ "' requires approval to escalate from " ++
        policy.activeMode.asStr ++ " to " ++ (policy.requiredModeFor toolName).asStr))
  else (world, .deny (policy.insufficient toolName))

end ToolPermissionPolicy

/-! ## The enforcer -/

structure ToolEnforcer where
  policy : ToolPermissionPolicy
  deriving DecidableEq, Repr

namespace ToolEnforcer

/-- `PermissionEnforcer::check`. -/
def check (enforcer : ToolEnforcer) (toolName input : String) : EnforcementResult :=
  if enforcer.policy.activeMode = .prompt then .allowed
  else
    match (enforcer.policy.authorize toolName input none ()).2 with
    | .allow => .allowed
    | .deny reason => .denied toolName enforcer.policy.activeMode.asStr
        (enforcer.policy.requiredModeFor toolName).asStr reason

/-- `PermissionEnforcer::check_file_write`. -/
def checkFileWrite {fs : Theory.Posix.FileSystem} (enforcer : ToolEnforcer)
    (cwd : Theory.Posix.WorkingDirectory fs) (path workspaceRoot : String) : EnforcementResult :=
  PermissionEnforcer.checkFileWrite cwd ⟨enforcer.policy.toPermissionPolicy⟩ path workspaceRoot

/-- `PermissionEnforcer::check_bash`. -/
def checkBash (enforcer : ToolEnforcer) (command : String) : EnforcementResult :=
  match validateBashCommand command.toList enforcer.policy.activeMode with
  | .allow => .allowed
  | .deny denial => .denied "bash" enforcer.policy.activeMode.asStr denial.requiredMode.asStr
      denial.reason

end ToolEnforcer

/-! ## The bash part of a tool profile -/

inductive FilesystemIsolationMode where
  | off
  | workspaceOnly
  | allowList
  deriving DecidableEq, Repr

def filesystemModeRank : FilesystemIsolationMode → Nat
  | .off => 0
  | .workspaceOnly => 1
  | .allowList => 2

structure SandboxConfig where
  enabled : Option Bool := none
  namespaceRestrictions : Option Bool := none
  networkIsolation : Option Bool := none
  filesystemMode : Option FilesystemIsolationMode := none
  allowedMounts : List String := []
  deriving DecidableEq, Repr

structure BashCommandInput where
  command : String
  timeout : Option UInt64 := none
  description : Option String := none
  runInBackground : Option Bool := none
  dangerouslyDisableSandbox : Option Bool := none
  namespaceRestrictions : Option Bool := none
  isolateNetwork : Option Bool := none
  filesystemMode : Option FilesystemIsolationMode := none
  allowedMounts : Option (List String) := none
  deriving DecidableEq, Repr

structure ToolProfileBashPolicy where
  sandbox : SandboxConfig
  allowDangerouslyDisableSandbox : Bool
  deriving DecidableEq, Repr

/-- Neither below the required isolation mode, when both are given. -/
def weakensFilesystem (required candidate : Option FilesystemIsolationMode) : Bool :=
  match required, candidate with
  | some required, some candidate => filesystemModeRank candidate < filesystemModeRank required
  | _, _ => false

def ToolProfileBashPolicy.validateOverride (policy : ToolProfileBashPolicy)
    (input : BashCommandInput) : Except String Unit :=
  if input.dangerouslyDisableSandbox = some true ∧ policy.allowDangerouslyDisableSandbox = false ∧
      policy.sandbox.enabled.getD true = true then
    .error "bash override cannot disable the active tool-profile sandbox policy"
  else if policy.sandbox.namespaceRestrictions = some true ∧
      input.namespaceRestrictions = some false then
    .error "bash override cannot weaken required namespace restrictions"
  else if policy.sandbox.networkIsolation = some true ∧ input.isolateNetwork = some false then
    .error "bash override cannot weaken required network isolation"
  else if weakensFilesystem policy.sandbox.filesystemMode input.filesystemMode then
    .error "bash override cannot weaken the active filesystem isolation mode"
  else if (input.allowedMounts.getD []).all (policy.sandbox.allowedMounts.contains ·) = false then
    .error "bash override cannot widen the active allowedMounts ceiling"
  else .ok ()

/-! ## What the two decisions have in common -/

section Decisions

variable {World : Type} {policy : ToolPermissionPolicy} {toolName input : String}
  {prompter : Option (PermissionPrompter World)} {world : World}

/-- A call is let through by the mode, or by someone who may be asked and approves. -/
theorem authorize_allow_iff :
    (policy.authorize toolName input prompter world).2 = .allow ↔
      policy.activeMode.autoAllows (policy.requiredModeFor toolName) = true ∨
      (policy.mayAsk toolName = true ∧ ∃ decide, prompter = some decide ∧
        (decide ⟨toolName, input, policy.activeMode, policy.requiredModeFor toolName⟩
          world).2 = .allow) := by
  unfold ToolPermissionPolicy.authorize
  by_cases auto : policy.activeMode.autoAllows (policy.requiredModeFor toolName) = true
  · simp [auto]
  · by_cases asks : policy.mayAsk toolName = true
    · cases prompter with
      | none => simp [auto, asks]
      | some decide =>
          simp only [auto, asks, if_false, if_true, Bool.false_eq_true, false_or, true_and,
            Option.some.injEq, exists_eq_left']
          cases (decide ⟨toolName, input, policy.activeMode, policy.requiredModeFor toolName⟩
            world).2 <;> simp
    · simp [auto, asks]

/-- With no one to ask, a call is let through by the mode alone. -/
theorem check_allowed_iff {enforcer : ToolEnforcer} (asks : enforcer.policy.activeMode ≠ .prompt) :
    enforcer.check toolName input = .allowed ↔
      enforcer.policy.activeMode.autoAllows (enforcer.policy.requiredModeFor toolName) = true := by
  rw [ToolEnforcer.check, if_neg asks]
  have decision := @authorize_allow_iff Unit enforcer.policy toolName input none ()
  cases outcome : (enforcer.policy.authorize toolName input none ()).2 with
  | allow =>
      rw [outcome] at decision
      simpa using decision
  | deny reason =>
      rw [outcome] at decision
      simpa using decision

end Decisions

end Openyak.Runtime
