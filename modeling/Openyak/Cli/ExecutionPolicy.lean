/-
# Cli.ExecutionPolicy -- the mode and the tools that work is started with

The command line resolves a policy from its flags, the environment and the profile it is
told to use; the server clamps a thread's request to the configured mode.  With a profile
the command line stays within it (`resolveRequestedExecutionPolicy_profile`), and the server
stays within the configured mode whatever the request (`resolveThreadConfig_clamped`).

The command line does not ask for the configured mode.  It keeps to it exactly where that is
full access, or where the profile's own mode is within it (`configured_mode_binds`).
-/
import Openyak.Server.LoadedConfig
import Openyak.Theory.Scanning
import Openyak.Tools.ToolRegistry

namespace Openyak.Tools.GlobalToolRegistry

open Openyak.Theory
open Openyak.Theory.Text
open Openyak.Runtime

set_option autoImplicit false

/-! ## Names of tools -/

def normalizeToolName (value : List Char) : List Char :=
  toAsciiLowercase ((trim value).map fun c => if c = '-' then '_' else c)

def canonicalNames (registry : GlobalToolRegistry) : List String :=
  mvpToolSpecs.map ToolSpec.name ++ registry.enabledOptionalBuiltinSpecs.map ToolSpec.name ++
    registry.pluginTools.map PluginTool.name

def toolAliases : List (String × String) :=
  [("read", "read_file"), ("write", "write_file"), ("edit", "edit_file"), ("glob", "glob_search"),
    ("grep", "grep_search")]

/-- The map of the names, of whose entries the last under a key counts. -/
def resolveToolName (registry : GlobalToolRegistry) (normalized : List Char) : Option String :=
  let names := registry.canonicalNames.map fun name => (normalizeToolName name.toList, name)
  let aliases := toolAliases.map fun entry => (entry.1.toList, entry.2)
  ((names ++ aliases).reverse.find? fun entry => entry.1 == normalized).map Prod.snd

def allowedToken (registry : GlobalToolRegistry) (token : List Char) : Except String String :=
  let normalized := normalizeToolName token
  if !registry.browserEnabled && normalized == normalizeToolName browserObserveToolName.toList then
    .error (browserToolDisabledError browserObserveToolName)
  else if !registry.browserEnabled &&
      normalized == normalizeToolName browserInteractToolName.toList then
    .error (browserToolDisabledError browserInteractToolName)
  else
    match registry.resolveToolName normalized with
    | some canonical => .ok canonical
    | none => .error ("unsupported tool in --allowedTools: " ++ String.ofList token ++
        " (expected one of: " ++ String.intercalate ", " registry.canonicalNames ++ ")")

def tokens (value : String) : List (List Char) :=
  (value.toList.splitOnP fun c => c = ',' || isWhitespace c).filter fun token => token ≠ []

def normalizeAllowedTools (registry : GlobalToolRegistry) (values : List String) :
    Except String (Option (List String)) :=
  if values = [] then .ok none
  else do
    let allowed ← (values.flatMap tokens).mapM registry.allowedToken
    return some (Server.nameSet allowed)

/-- The names `definitions(None)` lists. -/
def definitionNames (registry : GlobalToolRegistry) : List String :=
  mvpToolSpecs.map ToolSpec.name ++ registry.pluginTools.map PluginTool.name

/-- What the server asks of the built-in registry. -/
def serverTools : Server.ToolRegistry where
  definitions := builtin.definitionNames
  permissionSpecs := fun allowedTools => builtin.permissionSpecs (some allowedTools)
  normalizeAllowedTools := builtin.normalizeAllowedTools

/-- What is required of a tool, the registry says. -/
theorem mem_permissionSpecs_builtin {allowedTools : List String} {spec : String × PermissionMode}
    (member : spec ∈ builtin.permissionSpecs (some allowedTools)) :
    ⟨spec.1, spec.2⟩ ∈ mvpToolSpecs ∧ spec.1 ∈ allowedTools := by
  have optional : builtin.enabledOptionalBuiltinSpecs = [] := rfl
  have plugins : builtin.pluginTools = [] := rfl
  simp only [permissionSpecs, optional, plugins, List.filter_nil, List.map_nil, List.append_nil,
    List.mem_map, List.mem_filter] at member
  obtain ⟨tool, ⟨isTool, allowed⟩, rfl⟩ := member
  exact ⟨isTool, by simpa using allowed⟩

end Openyak.Tools.GlobalToolRegistry

namespace Openyak.Cli

open Openyak.Runtime
open Openyak.Server
open Openyak.Theory
open Openyak.Tools

set_option autoImplicit false

/-! ## The command line -/

structure RequestedExecutionPolicy where
  permissionMode : Option PermissionMode := none
  allowedTools : Option (List String) := none
  toolProfile : Option String := none
  deriving DecidableEq, Repr

structure ActiveToolProfile where
  id : String
  permissionMode : PermissionMode
  allowedTools : List String
  bashPolicy : Option ToolProfileBashPolicy
  deriving DecidableEq, Repr

structure EffectiveCliPolicy where
  permissionMode : PermissionMode
  allowedTools : Option (List String)
  activeToolProfile : Option ActiveToolProfile
  deriving DecidableEq, Repr

def normalizePermissionMode (mode : String) : Option String :=
  let label := String.ofList (Text.trim mode.toList)
  if label = "read-only" ∨ label = "workspace-write" ∨ label = "danger-full-access" then some label
  else none

/-- Only the labels of `normalizePermissionMode` come here; any other panics. -/
def permissionModeFromLabel (mode : String) : Option PermissionMode :=
  if mode = "read-only" then some .readOnly
  else if mode = "workspace-write" then some .workspaceWrite
  else if mode = "danger-full-access" then some .dangerFullAccess
  else none

/-- `environment` is the variable `OPENYAK_PERMISSION_MODE`. -/
def defaultPermissionMode (environment : Option String) : PermissionMode :=
  match environment.bind normalizePermissionMode with
  | some label => (permissionModeFromLabel label).getD .dangerFullAccess
  | none => .dangerFullAccess

/-- What the command line takes from its directory: the configuration, the tools of the
plugins that it enables, and the environment. -/
structure CommandLine where
  loaded : Except ConfigError LoadedConfig
  aggregatedTools : LoadedConfig → Except String (List PluginTool)
  environment : Option String

def toolRegistryForCwd (commandLine : CommandLine) : Except String GlobalToolRegistry := do
  let runtimeConfig ← commandLine.loaded.mapError configErrorMessage
  let pluginTools ← commandLine.aggregatedTools runtimeConfig
  let registry ← GlobalToolRegistry.withPluginTools pluginTools
  registry.withBrowserControl runtimeConfig.browserEnabled

def normalizeProfileAllowedTools (toolRegistry : GlobalToolRegistry) (values : List String) :
    Except String (List String) :=
  if values = [] then .ok []
  else do
    match ← toolRegistry.normalizeAllowedTools values with
    | some allowed => return allowed
    | none => .error "tool profile allowedTools unexpectedly resolved to none"

/-- The check of what a profile's tools require. -/
def checkProfileTools (profileId : String) (profileMode : PermissionMode) :
    List (String × PermissionMode) → Except String Unit
  | [] => .ok ()
  | (toolName, requiredPermission) :: specs =>
      if profileMode.encompasses requiredPermission then checkProfileTools profileId profileMode specs
      else .error ("tool profile `" ++ profileId ++ "` cannot enable `" ++ toolName ++
        "` because it requires " ++ requiredPermission.asStr ++ " while the profile ceiling is " ++
        profileMode.asStr)

/-- The tools of a profile, or those of them that are asked for. -/
def effectiveAllowedTools (profileId : String) (profileAllowedTools : List String) :
    Option (List String) → Except String (List String)
  | none => .ok profileAllowedTools
  | some explicitAllowedTools =>
      let outsideCeiling := explicitAllowedTools.filter fun tool => tool ∉ profileAllowedTools
      if outsideCeiling ≠ [] then
        .error ("tool profile `" ++ profileId ++ "` does not allow requested tools: " ++
          String.intercalate ", " outsideCeiling)
      else .ok (profileAllowedTools.filter fun tool => tool ∈ explicitAllowedTools)

def resolveProfile (toolRegistry : GlobalToolRegistry) (runtimeConfig : LoadedConfig)
    (profileId : String) (requested : RequestedExecutionPolicy) : Except String EffectiveCliPolicy :=
  match runtimeConfig.toolProfiles.lookup profileId with
  | none => .error ("unknown tool profile: " ++ profileId ++ " (expected one of: " ++
      String.intercalate ", " (runtimeConfig.toolProfiles.map Prod.fst) ++ ")")
  | some profile => do
      let profileMode := permissionModeFromResolved profile.permissionMode
      let explicitMode := requested.permissionMode.getD profileMode
      if !profileMode.encompasses explicitMode then
        .error ("tool profile `" ++ profileId ++ "` does not allow --permission-mode " ++
          explicitMode.asStr ++ " above its " ++ profileMode.asStr ++ " ceiling")
      else
        let profileAllowedTools ← normalizeProfileAllowedTools toolRegistry profile.allowedTools
        checkProfileTools profileId profileMode
          (toolRegistry.permissionSpecs (some profileAllowedTools))
        let allowedTools ←
          effectiveAllowedTools profileId profileAllowedTools requested.allowedTools
        return ⟨explicitMode, some allowedTools,
          some ⟨profileId, profileMode, profileAllowedTools, profile.bashPolicy⟩⟩

def resolveRequestedExecutionPolicy (commandLine : CommandLine)
    (requested : RequestedExecutionPolicy) : Except String EffectiveCliPolicy := do
  let toolRegistry ← toolRegistryForCwd commandLine
  let runtimeConfig ← commandLine.loaded.mapError configErrorMessage
  match requested.toolProfile with
  | none => return ⟨requested.permissionMode.getD (defaultPermissionMode commandLine.environment),
      requested.allowedTools, none⟩
  | some profileId => resolveProfile toolRegistry runtimeConfig profileId requested

/-! ## What comes out -/

variable {commandLine : CommandLine} {requested : RequestedExecutionPolicy}
  {policy : EffectiveCliPolicy} {config : LoadedConfig} {profileId : String}

theorem encompasses_refl {mode : PermissionMode} (served : PermissionMode.Served mode) :
    mode.encompasses mode = true := by
  obtain rfl | rfl | rfl := served <;> rfl

theorem effectiveAllowedTools_subset {profileAllowedTools allowedTools : List String}
    {explicit : Option (List String)}
    (resolved : effectiveAllowedTools profileId profileAllowedTools explicit = .ok allowedTools) :
    ∀ tool ∈ allowedTools, tool ∈ profileAllowedTools := by
  cases explicit with
  | none =>
      cases resolved
      exact fun _ member => member
  | some explicitAllowedTools =>
      rw [effectiveAllowedTools] at resolved
      split at resolved
      · cases resolved
      · cases resolved
        exact fun _ member => (List.mem_filter.1 member).1

theorem checkProfileTools_ok {mode : PermissionMode} {specs : List (String × PermissionMode)}
    (checked : checkProfileTools profileId mode specs = .ok ()) :
    ∀ spec ∈ specs, mode.encompasses spec.2 = true := by
  induction specs with
  | nil => exact nofun
  | cons spec specs ih =>
      rw [checkProfileTools] at checked
      split at checked
      · rename_i enough
        exact List.forall_mem_cons.2 ⟨enough, ih checked⟩
      · cases checked

/-- A policy with a profile: its mode and its tools are within the profile's. -/
structure WithinProfile (toolRegistry : GlobalToolRegistry) (profile : ToolProfileConfig)
    (policy : EffectiveCliPolicy) : Prop where
  mode : (permissionModeFromResolved profile.permissionMode).encompasses policy.permissionMode = true
  tools : ∃ profileAllowedTools allowedTools,
    normalizeProfileAllowedTools toolRegistry profile.allowedTools = .ok profileAllowedTools ∧
    policy.allowedTools = some allowedTools ∧
    (∀ tool ∈ allowedTools, tool ∈ profileAllowedTools) ∧
    ∀ spec ∈ toolRegistry.permissionSpecs (some profileAllowedTools),
      (permissionModeFromResolved profile.permissionMode).encompasses spec.2 = true

theorem resolveProfile_within {toolRegistry : GlobalToolRegistry}
    (resolved : resolveProfile toolRegistry config profileId requested = .ok policy) :
    ∃ profile, config.toolProfiles.lookup profileId = some profile ∧
      policy.permissionMode = requested.permissionMode.getD
        (permissionModeFromResolved profile.permissionMode) ∧
      WithinProfile toolRegistry profile policy := by
  unfold resolveProfile at resolved
  split at resolved
  · cases resolved
  · rename_i profile found
    dsimp only at resolved
    split at resolved
    · cases resolved
    · rename_i within
      obtain ⟨profileAllowedTools, normalized, resolved⟩ := bind_eq_ok.1 resolved
      obtain ⟨⟨⟩, checked, resolved⟩ := bind_eq_ok.1 resolved
      obtain ⟨allowedTools, allowed, resolved⟩ := bind_eq_ok.1 resolved
      cases resolved
      refine ⟨profile, found, rfl, ⟨?_, profileAllowedTools, allowedTools, normalized, rfl,
        effectiveAllowedTools_subset allowed, checkProfileTools_ok checked⟩⟩
      simpa using within

/-- **A run with a profile stays within it.** -/
theorem resolveRequestedExecutionPolicy_profile (loaded : commandLine.loaded = .ok config)
    (profiled : requested.toolProfile = some profileId)
    (resolved : resolveRequestedExecutionPolicy commandLine requested = .ok policy) :
    ∃ profile toolRegistry, config.toolProfiles.lookup profileId = some profile ∧
      toolRegistryForCwd commandLine = .ok toolRegistry ∧
      policy.permissionMode = requested.permissionMode.getD
        (permissionModeFromResolved profile.permissionMode) ∧
      WithinProfile toolRegistry profile policy := by
  obtain ⟨toolRegistry, registered, resolved⟩ := bind_eq_ok.1 resolved
  rw [loaded] at resolved
  obtain ⟨same, isSame, resolved⟩ := bind_eq_ok.1 resolved
  cases isSame
  rw [profiled] at resolved
  obtain ⟨profile, found, mode, within⟩ := resolveProfile_within resolved
  exact ⟨profile, toolRegistry, found, registered, mode, within⟩

theorem resolveRequestedExecutionPolicy_plain (plain : requested.toolProfile = none)
    (resolved : resolveRequestedExecutionPolicy commandLine requested = .ok policy) :
    policy.permissionMode =
      requested.permissionMode.getD (defaultPermissionMode commandLine.environment) := by
  obtain ⟨toolRegistry, registered, resolved⟩ := bind_eq_ok.1 resolved
  obtain ⟨runtimeConfig, loaded, resolved⟩ := bind_eq_ok.1 resolved
  rw [plain] at resolved
  cases resolved
  rfl

/-! ## The server -/

theorem clampPermissionModeToCeiling_within {requested' ceiling : PermissionMode}
    (served : PermissionMode.Served ceiling) :
    ceiling.encompasses (clampPermissionModeToCeiling requested' ceiling) = true := by
  unfold clampPermissionModeToCeiling
  split
  · assumption
  · exact encompasses_refl served

theorem mem_nameSet {names : List String} {name : String} :
    name ∈ nameSet names ↔ name ∈ names := by
  rw [nameSet, List.mem_insertionSort, List.mem_dedup]

/-- **A thread runs within the configured mode, with tools within its own.** -/
theorem resolveThreadConfig_clamped {resolveCwd : Option String → Except ApiError String}
    {load : String → Except String RuntimeConfig} {payload : CreateThreadRequest} {cwd : String}
    {runtimeConfig : RuntimeConfig} {mode : ResolvedPermissionMode}
    {thread : ThreadExecutionConfig} (here : resolveCwd payload.cwd = .ok cwd)
    (loads : load cwd = .ok runtimeConfig) (configured : runtimeConfig.permissionMode = some mode)
    (resolved : resolveThreadConfig GlobalToolRegistry.serverTools resolveCwd load payload =
      .ok thread) :
    (permissionModeFromResolved mode).encompasses thread.permissionMode = true ∧
      ∀ tool ∈ thread.allowedTools, ∃ spec ∈ mvpToolSpecs, spec.name = tool ∧
        thread.permissionMode.encompasses spec.requiredPermission = true := by
  have served := permissionModeFromResolved_served mode
  obtain ⟨_, isCwd, resolved⟩ := bind_eq_ok.1 resolved
  rw [here] at isCwd
  cases isCwd
  obtain ⟨_, isConfig, resolved⟩ := bind_eq_ok.1 resolved
  rw [loads] at isConfig
  cases isConfig
  dsimp only at resolved
  rw [configured] at resolved
  -- The tools are clamped to the mode that is left, whichever that is.
  have tools : ∀ {permissionMode : PermissionMode} {requestedTools : List String},
      ∀ tool ∈ clampAllowedToolsToPermissionMode GlobalToolRegistry.serverTools requestedTools
        permissionMode, ∃ spec ∈ mvpToolSpecs, spec.name = tool ∧
          permissionMode.encompasses spec.requiredPermission = true := by
    intro permissionMode requestedTools tool member
    obtain ⟨spec, isSpec, kept⟩ := List.mem_filterMap.1 (mem_nameSet.1 member)
    split at kept
    · rename_i enough
      cases kept
      exact ⟨_, (GlobalToolRegistry.mem_permissionSpecs_builtin isSpec).1, rfl, enough⟩
    · cases kept
  cases named : payload.permissionMode with
  | none =>
      rw [named] at resolved
      obtain ⟨permissionMode, moded, resolved⟩ := bind_eq_ok.1 resolved
      obtain ⟨requestedTools, asked, resolved⟩ := bind_eq_ok.1 resolved
      cases moded
      cases resolved
      exact ⟨encompasses_refl served, tools⟩
  | some value =>
      rw [named] at resolved
      obtain ⟨permissionMode, moded, resolved⟩ := bind_eq_ok.1 resolved
      obtain ⟨requestedTools, asked, resolved⟩ := bind_eq_ok.1 resolved
      cases resolved
      cases parsed : parseServerPermissionMode value with
      | error error =>
          rw [parsed] at moded
          cases moded
      | ok requested' =>
          rw [parsed] at moded
          cases moded
          exact ⟨clampPermissionModeToCeiling_within served, tools⟩

/-! ## Both -/

/-- What the command line would have to ask: whether full access is configured, or the profile
is within what is. -/
def CliWithin (config : LoadedConfig) (mode : ResolvedPermissionMode)
    (requested : RequestedExecutionPolicy) : Prop :=
  match requested.toolProfile with
  | none => mode = .dangerFullAccess
  | some profileId => ∀ profile, config.toolProfiles.lookup profileId = some profile →
      (permissionModeFromResolved mode).encompasses
        (permissionModeFromResolved profile.permissionMode) = true

/-- **When a configured mode binds.**  In a directory whose layers resolve to a mode, a thread
of the server always runs within it; a run of the command line that names no mode does exactly
where full access is configured or its profile is within the mode, and with a profile it stays
within that. -/
theorem configured_mode_binds {others : OtherSections} {layers : List ConfigObject}
    {layersOf : String → Except ConfigError (List ConfigObject)} {cwd : String}
    {mode : ResolvedPermissionMode} (readable : layersOf cwd = .ok layers)
    (loads : loadConfig others layers = .ok config) (configured : config.permissionMode = some mode) :
    (∀ aggregatedTools requested policy, requested.permissionMode = none →
      resolveRequestedExecutionPolicy
          ⟨layersOf cwd >>= loadConfig others, aggregatedTools, none⟩ requested = .ok policy →
      ((permissionModeFromResolved mode).encompasses policy.permissionMode = true ↔
        CliWithin config mode requested) ∧
      ∀ profileId, requested.toolProfile = some profileId → ∃ profile toolRegistry,
        config.toolProfiles.lookup profileId = some profile ∧
        toolRegistryForCwd ⟨layersOf cwd >>= loadConfig others, aggregatedTools, none⟩ =
          .ok toolRegistry ∧
        WithinProfile toolRegistry profile policy) ∧
    ∀ resolveCwd payload thread, resolveCwd payload.cwd = .ok cwd →
      resolveThreadConfig GlobalToolRegistry.serverTools resolveCwd
          (fun cwd => ((layersOf cwd >>= loadConfig others).mapError configErrorMessage).map
            LoadedConfig.toRuntimeConfig) payload = .ok thread →
      (permissionModeFromResolved mode).encompasses thread.permissionMode = true ∧
        ∀ tool ∈ thread.allowedTools, ∃ spec ∈ mvpToolSpecs, spec.name = tool ∧
          thread.permissionMode.encompasses spec.requiredPermission = true := by
  have loaded : (layersOf cwd >>= loadConfig others) = .ok config := by
    rw [readable, ok_bind, loads]
  constructor
  · intro aggregatedTools requested policy unnamed resolved
    cases profiled : requested.toolProfile with
    | none =>
        refine ⟨?_, nofun⟩
        have same := resolveRequestedExecutionPolicy_plain profiled resolved
        rw [unnamed] at same
        have full : policy.permissionMode = .dangerFullAccess := same
        unfold CliWithin
        rw [profiled, full]
        show _ ↔ mode = .dangerFullAccess
        cases mode <;> decide
    | some profileId =>
        obtain ⟨profile, toolRegistry, found, registered, same, within⟩ :=
          resolveRequestedExecutionPolicy_profile loaded profiled resolved
        rw [unnamed] at same
        have own : policy.permissionMode = permissionModeFromResolved profile.permissionMode := same
        constructor
        · unfold CliWithin
          rw [profiled, own]
          constructor
          · intro enough other isOther
            rw [found] at isOther
            cases isOther
            exact enough
          · exact fun all => all profile found
        · rintro _ ⟨rfl⟩
          exact ⟨profile, toolRegistry, found, registered, within⟩
  · intro resolveCwd payload thread here resolved
    have served : ((layersOf cwd >>= loadConfig others).mapError configErrorMessage).map
        LoadedConfig.toRuntimeConfig = .ok config.toRuntimeConfig := by
      rw [loaded]
      rfl
    exact resolveThreadConfig_clamped here served configured resolved

/-- A directory with one layer, which configures a mode. -/
def modeLayers (mode : String) (_cwd : String) : Except ConfigError (List ConfigObject) :=
  .ok [.cons "permissionMode" trivial (.string mode) .nil]

/-- Nothing in the other sections. -/
def plainSections : OtherSections := ⟨fun _ => .ok (), fun _ => .ok (), fun _ => .ok false⟩

/-- With full access configured a run without a profile keeps to it. -/
theorem configured_mode_binds_full :
    ∃ policy, resolveRequestedExecutionPolicy
        ⟨modeLayers "danger-full-access" "/w" >>= loadConfig plainSections, fun _ => .ok [], none⟩
        {} = .ok policy ∧
      (permissionModeFromResolved .dangerFullAccess).encompasses policy.permissionMode = true := by
  have binds := (configured_mode_binds (rfl : modeLayers "danger-full-access" "/w" = .ok _)
    (rfl : loadConfig plainSections _ = .ok _) rfl).1
  have resolved : resolveRequestedExecutionPolicy
      ⟨modeLayers "danger-full-access" "/w" >>= loadConfig plainSections, fun _ => .ok [], none⟩
      {} = .ok ⟨.dangerFullAccess, none, none⟩ := rfl
  exact ⟨_, resolved, (binds _ _ _ rfl resolved).1.2 rfl⟩

/-- With read-only configured it has full access all the same. -/
theorem configured_mode_ignored :
    ∃ config policy, (modeLayers "read-only" "/w" >>= loadConfig plainSections) = .ok config ∧
      config.permissionMode = some .readOnly ∧
      resolveRequestedExecutionPolicy
        ⟨modeLayers "read-only" "/w" >>= loadConfig plainSections, fun _ => .ok [], none⟩
        {} = .ok policy ∧
      (permissionModeFromResolved .readOnly).encompasses policy.permissionMode = false :=
  ⟨_, ⟨.dangerFullAccess, none, none⟩, rfl, rfl, rfl, rfl⟩

end Openyak.Cli
