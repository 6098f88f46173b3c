/-
# Tools.ToolRegistry -- from a tool call to the tool's body

A registry has the built-in tools and those of the plugins, with the mode each
requires, and from these the policy of a session is made.  `execute` takes a call
to its body: some built-in tools first pass the enforcer again
(`maybeEnforcePermissionCheck`), bash also the profile's bash policy.

The bodies themselves are a parameter, and so are parsing a bash input and the
current directory.  A failure is an error text in the code; here it keeps where it
came from.  Beside the world a log of the bodies executed is kept that the code
does not have.
-/
import Openyak.Runtime.ToolPolicy
import Openyak.Theory.Json

namespace Openyak.Tools

open Openyak.Theory
open Openyak.Theory.Posix
open Openyak.Runtime

set_option autoImplicit false

/-! ## The tools -/

structure ToolSpec where
  name : String
  requiredPermission : PermissionMode
  deriving DecidableEq, Repr

def mvpToolSpecs : List ToolSpec :=
  [⟨"bash", .dangerFullAccess⟩, ⟨"read_file", .readOnly⟩, ⟨"write_file", .workspaceWrite⟩,
    ⟨"edit_file", .workspaceWrite⟩, ⟨"glob_search", .readOnly⟩, ⟨"grep_search", .readOnly⟩,
    ⟨"WebFetch", .readOnly⟩, ⟨"WebSearch", .readOnly⟩, ⟨"TodoWrite", .workspaceWrite⟩,
    ⟨"Skill", .readOnly⟩, ⟨"Agent", .dangerFullAccess⟩, ⟨"ToolSearch", .readOnly⟩,
    ⟨"NotebookEdit", .workspaceWrite⟩, ⟨"Sleep", .readOnly⟩, ⟨"SendUserMessage", .readOnly⟩,
    ⟨"Config", .workspaceWrite⟩, ⟨"StructuredOutput", .readOnly⟩, ⟨"REPL", .dangerFullAccess⟩,
    ⟨"PowerShell", .dangerFullAccess⟩, ⟨"TaskCreate", .dangerFullAccess⟩, ⟨"TaskGet", .readOnly⟩,
    ⟨"TaskList", .readOnly⟩, ⟨"TaskStop", .dangerFullAccess⟩, ⟨"TaskUpdate", .dangerFullAccess⟩,
    ⟨"TaskOutput", .readOnly⟩, ⟨"TaskWait", .readOnly⟩, ⟨"TeamCreate", .dangerFullAccess⟩,
    ⟨"TeamGet", .readOnly⟩, ⟨"TeamList", .readOnly⟩, ⟨"TeamDelete", .dangerFullAccess⟩,
    ⟨"CronCreate", .dangerFullAccess⟩, ⟨"CronGet", .readOnly⟩, ⟨"CronDisable", .dangerFullAccess⟩,
    ⟨"CronEnable", .dangerFullAccess⟩, ⟨"CronDelete", .dangerFullAccess⟩, ⟨"CronList", .readOnly⟩,
    ⟨"SessionList", .readOnly⟩, ⟨"SessionGet", .readOnly⟩, ⟨"SessionCreate", .dangerFullAccess⟩,
    ⟨"SessionSend", .dangerFullAccess⟩, ⟨"SessionResume", .dangerFullAccess⟩,
    ⟨"SessionWait", .readOnly⟩, ⟨"LSP", .readOnly⟩, ⟨"ListMcpServers", .readOnly⟩,
    ⟨"ListMcpTools", .readOnly⟩, ⟨"ListMcpResources", .readOnly⟩, ⟨"ReadMcpResource", .readOnly⟩,
    ⟨"McpAuth", .dangerFullAccess⟩, ⟨"MCP", .dangerFullAccess⟩,
    ⟨"TestingPermission", .dangerFullAccess⟩]

def browserObserveToolName : String := "BrowserObserve"
def browserInteractToolName : String := "BrowserInteract"

def optionalBuiltinSpecs : List ToolSpec :=
  [⟨browserObserveToolName, .dangerFullAccess⟩, ⟨browserInteractToolName, .dangerFullAccess⟩]

def isBrowserOptionalToolName (name : String) : Bool :=
  name = browserObserveToolName || name = browserInteractToolName

def browserToolDisabledError (toolName : String) : String :=
  toolName ++ " is disabled; set browserControl.enabled=true before using --allowedTools " ++
    toolName

/-- The tools that pass the enforcer again before their body, besides bash. -/
def guardedTools : List String :=
  ["read_file", "write_file", "edit_file", "glob_search", "grep_search", browserObserveToolName,
    browserInteractToolName, "TaskCreate", "TaskStop", "TaskUpdate", "TeamCreate", "TeamDelete",
    "CronCreate", "CronDisable", "CronEnable", "CronDelete", "SessionCreate", "SessionSend",
    "SessionResume", "McpAuth", "MCP"]

/-- The tools that go straight to their body. -/
def openTools : List String :=
  ["WebFetch", "WebSearch", "TodoWrite", "Skill", "Agent", "ToolSearch", "NotebookEdit", "Sleep",
    "SendUserMessage", "Brief", "Config", "StructuredOutput", "REPL", "PowerShell", "TaskGet",
    "TaskList", "TaskOutput", "TaskWait", "TeamGet", "TeamList", "CronGet", "CronList",
    "SessionList", "SessionGet", "SessionWait", "LSP", "ListMcpServers", "ListMcpTools",
    "ListMcpResources", "ReadMcpResource", "TestingPermission"]

inductive PluginToolPermission where
  | readOnly
  | workspaceWrite
  | dangerFullAccess
  deriving DecidableEq, Repr

def permissionModeFromPlugin : PluginToolPermission → PermissionMode
  | .readOnly => .readOnly
  | .workspaceWrite => .workspaceWrite
  | .dangerFullAccess => .dangerFullAccess

structure PluginTool where
  name : String
  requiredPermission : PluginToolPermission
  deriving DecidableEq, Repr

/-! ## Registries -/

def isBuiltin (name : String) : Bool := mvpToolSpecs.any fun spec => spec.name == name

def isOptionalBuiltin (name : String) : Bool := optionalBuiltinSpecs.any fun spec => spec.name == name

/-- The names of plugin tools are their own. -/
structure GlobalToolRegistry where
  pluginTools : List PluginTool
  enforcer : Option ToolEnforcer := none
  bashPolicy : Option ToolProfileBashPolicy := none
  browserEnabled : Bool := false
  unreserved : ∀ tool ∈ pluginTools, isBuiltin tool.name = false
  unreservedOptional : browserEnabled = true →
    ∀ tool ∈ pluginTools, isOptionalBuiltin tool.name = false

namespace GlobalToolRegistry

def builtin : GlobalToolRegistry where
  pluginTools := []
  browserEnabled := false
  unreserved := nofun
  unreservedOptional := nofun

/-- The loop of `with_plugin_tools` over the names. -/
def checkPluginNames (seen : List String) : List PluginTool → Except String Unit
  | [] => .ok ()
  | tool :: tools =>
      if isBuiltin tool.name then
        .error ("plugin tool `" ++ tool.name ++ "` conflicts with a built-in tool name")
      else if tool.name ∈ seen then
        .error ("duplicate plugin tool name `" ++ tool.name ++ "`")
      else checkPluginNames (tool.name :: seen) tools

theorem checkPluginNames_ok {seen : List String} {tools : List PluginTool}
    (checked : checkPluginNames seen tools = .ok ()) :
    ∀ tool ∈ tools, isBuiltin tool.name = false := by
  induction tools generalizing seen with
  | nil => exact nofun
  | cons tool tools ih =>
      rw [checkPluginNames] at checked
      split at checked
      · cases checked
      · rename_i own
        split at checked
        · cases checked
        · intro other member
          obtain rfl | later := List.mem_cons.1 member
          · exact Bool.eq_false_of_not_eq_true own
          · exact ih checked other later

def withPluginTools (pluginTools : List PluginTool) : Except String GlobalToolRegistry :=
  match checked : checkPluginNames [] pluginTools with
  | .error error => .error error
  | .ok () => .ok
      { pluginTools := pluginTools
        unreserved := checkPluginNames_ok checked
        unreservedOptional := fun on => absurd on Bool.false_ne_true }

def withEnforcer (registry : GlobalToolRegistry) (enforcer : ToolEnforcer) : GlobalToolRegistry :=
  { registry with enforcer := some enforcer }

def withBashPolicy (registry : GlobalToolRegistry) (bashPolicy : ToolProfileBashPolicy) :
    GlobalToolRegistry := { registry with bashPolicy := some bashPolicy }

def withBrowserControl (registry : GlobalToolRegistry) (enabled : Bool) :
    Except String GlobalToolRegistry :=
  match conflict : registry.pluginTools.find? fun tool => isOptionalBuiltin tool.name with
  | some tool =>
      if turned : enabled = true then
        .error ("plugin tool `" ++ tool.name ++ "` conflicts with an optional built-in tool name")
      else .ok
        { registry with
          browserEnabled := enabled
          unreservedOptional := fun on => absurd on turned }
  | none => .ok
      { registry with
        browserEnabled := enabled
        unreservedOptional := fun _ tool member =>
          Bool.eq_false_of_not_eq_true (List.find?_eq_none.1 conflict tool member) }

def enabledOptionalBuiltinSpecs (registry : GlobalToolRegistry) : List ToolSpec :=
  if registry.browserEnabled then optionalBuiltinSpecs else []

/-- What the registry's tools require; the optional ones count only when named. -/
def permissionSpecs (registry : GlobalToolRegistry) (allowedTools : Option (List String)) :
    List (String × PermissionMode) :=
  let allows (name : String) := allowedTools.all (·.contains name)
  let names (name : String) := allowedTools.any (·.contains name)
  (mvpToolSpecs.filter fun spec => allows spec.name).map (fun spec =>
      (spec.name, spec.requiredPermission)) ++
    (registry.enabledOptionalBuiltinSpecs.filter fun spec => names spec.name).map (fun spec =>
      (spec.name, spec.requiredPermission)) ++
    (registry.pluginTools.filter fun tool => allows tool.name).map fun tool =>
      (tool.name, permissionModeFromPlugin tool.requiredPermission)

end GlobalToolRegistry

def permissionPolicy (mode : PermissionMode) (registry : GlobalToolRegistry)
    (allowedTools : Option (List String)) : ToolPermissionPolicy :=
  (registry.permissionSpecs allowedTools).foldl
    (fun policy spec => policy.withToolRequirement spec.1 spec.2) (.new mode)

/-! ## Execution -/

/-- A tool body that is entered, with what it is given; bash also with the sandbox
configuration, or with that of the working directory. -/
inductive Executed where
  | bash (input : BashCommandInput) (sandbox : Option SandboxConfig)
  | tool (name : String) (input : Json)
  deriving DecidableEq, Repr

def Executed.name : Executed → String
  | .bash .. => "bash"
  | .tool name _ => name

/-- A process's current directory. -/
structure Place where
  fs : FileSystem
  cwd : WorkingDirectory fs

/-- What the tool layer calls: the parser of a bash input, the printer of JSON, the
current directory, and the bodies. -/
structure ToolHost (World : Type) where
  bashInput : Json → Except String BashCommandInput
  toText : Json → String
  currentDir : World → Except String Place
  body : Executed → World → World × Except String String

/-- The world and the bodies entered so far. -/
structure Ledger (World : Type) where
  world : World
  executed : List Executed := []

/-- Why a tool call failed. -/
inductive ToolFailure where
  | notEnabled (message : String)
  | invalidInput (message : String)
  | disabled (message : String)
  | unsupported (message : String)
  | refused (reason : String)
  | failed (error : String)
  deriving DecidableEq, Repr

/-- The text the model gets. -/
def ToolFailure.message : ToolFailure → String
  | .notEnabled message | .invalidInput message | .disabled message | .unsupported message
  | .refused message | .failed message => message

section Execution

variable {World : Type} (host : ToolHost World)

def EnforcementResult.toExcept : EnforcementResult → Except String Unit
  | .allowed => .ok ()
  | .denied _ _ _ reason => .error reason

def ToolHost.maybeEnforcePermissionCheck (enforcer : Option ToolEnforcer)
    (bashPolicy : Option ToolProfileBashPolicy) (toolName : String)
    (bashInput : Option BashCommandInput) (input : Json) (world : World) : Except String Unit :=
  match enforcer with
  | none => .ok ()
  | some enforcer =>
      if toolName = "write_file" ∨ toolName = "edit_file" then
        let path := ((input.get? "path").bind Json.asStr?).getD ""
        match host.currentDir world with
        | .error error => .error error
        | .ok place =>
            EnforcementResult.toExcept (enforcer.checkFileWrite place.cwd path place.cwd.text)
      else if toolName = "bash" then
        let command := ((bashInput.map BashCommandInput.command).orElse fun _ =>
          (input.get? "command").bind Json.asStr?).getD ""
        match EnforcementResult.toExcept (enforcer.checkBash command) with
        | .error reason => .error reason
        | .ok () =>
            match bashPolicy, bashInput with
            | some policy, some parsed => policy.validateOverride parsed
            | _, _ => .ok ()
      else EnforcementResult.toExcept (enforcer.check toolName (host.toText input))

/-- Enter a body. -/
def ToolHost.enter (executed : Executed) (ledger : Ledger World) :
    Ledger World × Except ToolFailure String :=
  let entered := host.body executed ledger.world
  (⟨entered.1, ledger.executed ++ [executed]⟩, entered.2.mapError .failed)

/-- `run_bash`. -/
def ToolHost.runBash (input : BashCommandInput) (bashPolicy : Option ToolProfileBashPolicy)
    (ledger : Ledger World) : Ledger World × Except ToolFailure String :=
  host.enter (.bash input (bashPolicy.map ToolProfileBashPolicy.sandbox)) ledger

def ToolHost.executeToolWithEnforcer (enforcer : Option ToolEnforcer)
    (bashPolicy : Option ToolProfileBashPolicy) (browserEnabled : Bool) (name : String)
    (input : Json) (ledger : Ledger World) : Ledger World × Except ToolFailure String :=
  if name = "bash" then
    match host.bashInput input with
    | .error error => (ledger, .error (.failed error))
    | .ok bashInput =>
        match host.maybeEnforcePermissionCheck enforcer bashPolicy name (some bashInput) input
            ledger.world with
        | .error reason => (ledger, .error (.refused reason))
        | .ok () => host.runBash bashInput bashPolicy ledger
  else if name ∈ guardedTools then
    match host.maybeEnforcePermissionCheck enforcer bashPolicy name none input ledger.world with
    | .error reason => (ledger, .error (.refused reason))
    | .ok () =>
        if isBrowserOptionalToolName name && !browserEnabled then
          (ledger, .error (.disabled (browserToolDisabledError name)))
        else host.enter (.tool name input) ledger
  else if name ∈ openTools then host.enter (.tool name input) ledger
  else (ledger, .error (.unsupported ("unsupported tool: " ++ name)))

/-- `execute_tool`, without enforcer, bash policy or browser. -/
def ToolHost.executeTool (name : String) (input : Json) (ledger : Ledger World) :
    Ledger World × Except ToolFailure String :=
  host.executeToolWithEnforcer none none false name input ledger

def GlobalToolRegistry.execute (registry : GlobalToolRegistry) (name : String) (input : Json)
    (ledger : Ledger World) : Ledger World × Except ToolFailure String :=
  if isBrowserOptionalToolName name && !registry.browserEnabled then
    (ledger, .error (.disabled (browserToolDisabledError name)))
  else if isBuiltin name ||
      registry.enabledOptionalBuiltinSpecs.any (fun spec => spec.name == name) then
    host.executeToolWithEnforcer registry.enforcer registry.bashPolicy registry.browserEnabled name
      input ledger
  else if registry.pluginTools.any (fun tool => tool.name == name) then
    host.enter (.tool name input) ledger
  else (ledger, .error (.unsupported ("unsupported tool: " ++ name)))

end Execution

end Openyak.Tools
