/-
# Server.ThreadConfig -- the configuration a thread is created with

A request names a permission mode and tools; the workspace's own configuration sets
a ceiling.  The mode is clamped to the ceiling, the tools to the mode.  What comes out
is served (`ServedConfig`): one of the three modes the thread protocol has a text
for, and a set of names.
-/
import Openyak.Server.Persistence
import Mathlib.Data.String.Basic

namespace Openyak.Server

open Openyak.Runtime
open Openyak.Theory

set_option autoImplicit false

/-! ## Resolving a request -/

inductive ResolvedPermissionMode where
  | readOnly
  | workspaceWrite
  | dangerFullAccess
  deriving DecidableEq, Repr

structure CreateThreadRequest where
  cwd : Option String := none
  model : Option String := none
  permissionMode : Option String := none
  allowedTools : Option (List String) := none
  deriving DecidableEq, Repr

/-- What the workspace's configuration says about threads. -/
structure RuntimeConfig where
  model : Option String := none
  permissionMode : Option ResolvedPermissionMode := none
  deriving DecidableEq, Repr

/-- What `resolve_thread_config` asks of the tool registry; `definitions` are the names
of all of them. -/
structure ToolRegistry where
  definitions : List String
  permissionSpecs : (allowedTools : List String) → List (String × PermissionMode)
  normalizeAllowedTools : (values : List String) → Except String (Option (List String))

def permissionModeFromResolved : ResolvedPermissionMode → PermissionMode
  | .readOnly => .readOnly
  | .workspaceWrite => .workspaceWrite
  | .dangerFullAccess => .dangerFullAccess

def clampPermissionModeToCeiling (requested ceiling : PermissionMode) : PermissionMode :=
  if ceiling.encompasses requested then requested else ceiling

def resolveRequestedAllowedTools (toolRegistry : ToolRegistry) (payload : CreateThreadRequest) :
    Except ApiError (List String) :=
  match payload.allowedTools with
  | some [] => .ok []
  | some values =>
      match toolRegistry.normalizeAllowedTools values with
      | .error error => .error (badRequest error)
      | .ok none => .error (badRequest "explicit allowed_tools unexpectedly resolved to none")
      | .ok (some names) => .ok names
  | none => .ok (nameSet toolRegistry.definitions)

def clampAllowedToolsToPermissionMode (toolRegistry : ToolRegistry) (allowedTools : List String)
    (permissionMode : PermissionMode) : List String :=
  nameSet ((toolRegistry.permissionSpecs allowedTools).filterMap fun spec =>
    if permissionMode.encompasses spec.2 then some spec.1 else none)

/-- `resolveCwd` is `resolve_thread_cwd`, `load` the configuration of a directory. -/
def resolveThreadConfig (toolRegistry : ToolRegistry)
    (resolveCwd : Option String → Except ApiError String)
    (load : String → Except String RuntimeConfig) (payload : CreateThreadRequest) :
    Except ApiError ThreadExecutionConfig := do
  let cwd ← resolveCwd payload.cwd
  let runtimeConfig ← (load cwd).mapError internalError
  let model :=
    match payload.model.filter fun value => Text.trim value.toList ≠ [] with
    | some model => model
    | none => runtimeConfig.model.getD "opus"
  let permissionCeiling :=
    (runtimeConfig.permissionMode.map permissionModeFromResolved).getD .dangerFullAccess
  let permissionMode ←
    match payload.permissionMode with
    | none => .ok permissionCeiling
    | some value =>
        (parseServerPermissionMode value).map fun requested =>
          clampPermissionModeToCeiling requested permissionCeiling
  let requestedAllowedTools ← resolveRequestedAllowedTools toolRegistry payload
  return ⟨cwd, model, permissionMode,
    clampAllowedToolsToPermissionMode toolRegistry requestedAllowedTools permissionMode⟩

/-! ## What comes out -/

theorem nameSet_increasing (names : List String) : (nameSet names).Pairwise (· < ·) := by
  have sorted : (nameSet names).Pairwise (· ≤ ·) := List.pairwise_insertionSort (· ≤ ·) _
  have distinct : (nameSet names).Nodup :=
    (List.perm_insertionSort (· ≤ ·) _).nodup_iff.2 (List.nodup_dedup names)
  exact (sorted.and distinct).imp fun ⟨less, differ⟩ => lt_of_le_of_ne less differ

theorem nameSet_of_increasing {names : List String} (increasing : names.Pairwise (· < ·)) :
    nameSet names = names := by
  have distinct : names.Nodup := increasing.imp fun less => ne_of_lt less
  have sorted : names.Pairwise (· ≤ ·) := increasing.imp fun less => le_of_lt less
  rw [nameSet, distinct.dedup]
  exact sorted.insertionSort_eq

/-- Modes a row's text brings back. -/
def PermissionMode.Served (mode : PermissionMode) : Prop :=
  mode = .readOnly ∨ mode = .workspaceWrite ∨ mode = .dangerFullAccess

structure ServedConfig (config : ThreadExecutionConfig) : Prop where
  mode : PermissionMode.Served config.permissionMode
  tools : config.allowedTools.Pairwise (· < ·)

theorem parseServerPermissionMode_served {value : String} {mode : PermissionMode}
    (parsed : parseServerPermissionMode value = .ok mode) : PermissionMode.Served mode := by
  unfold parseServerPermissionMode at parsed
  split at parsed <;> cases parsed <;> simp [PermissionMode.Served]

theorem parseServerPermissionMode_asStr {mode : PermissionMode}
    (served : PermissionMode.Served mode) : parseServerPermissionMode mode.asStr = .ok mode := by
  rcases served with rfl | rfl | rfl <;> rfl

theorem permissionModeFromResolved_served (mode : ResolvedPermissionMode) :
    PermissionMode.Served (permissionModeFromResolved mode) := by
  cases mode <;> simp [PermissionMode.Served, permissionModeFromResolved]

theorem clampPermissionModeToCeiling_served {requested ceiling : PermissionMode}
    (asked : PermissionMode.Served requested) (set : PermissionMode.Served ceiling) :
    PermissionMode.Served (clampPermissionModeToCeiling requested ceiling) := by
  unfold clampPermissionModeToCeiling
  split
  · exact asked
  · exact set

/-- **A thread is created with a served configuration.** -/
theorem resolveThreadConfig_served {toolRegistry : ToolRegistry}
    {resolveCwd : Option String → Except ApiError String}
    {load : String → Except String RuntimeConfig} {payload : CreateThreadRequest}
    {config : ThreadExecutionConfig}
    (resolved : resolveThreadConfig toolRegistry resolveCwd load payload = .ok config) :
    ServedConfig config := by
  unfold resolveThreadConfig at resolved
  cases cwds : resolveCwd payload.cwd with
  | error _ => simp [cwds, bind, Except.bind] at resolved
  | ok cwd =>
  cases loads : load cwd with
  | error _ => simp [cwds, loads, bind, Except.bind, Except.mapError] at resolved
  | ok runtimeConfig =>
  have ceiling : PermissionMode.Served
      ((runtimeConfig.permissionMode.map permissionModeFromResolved).getD .dangerFullAccess) := by
    cases runtimeConfig.permissionMode with
    | none => exact Or.inr (Or.inr rfl)
    | some mode => exact permissionModeFromResolved_served mode
  cases asked : payload.permissionMode with
  | none =>
      cases tools : resolveRequestedAllowedTools toolRegistry payload with
      | error _ =>
          simp [cwds, loads, asked, tools, bind, Except.bind, Except.mapError] at resolved
      | ok names =>
          simp only [cwds, loads, asked, tools, bind, Except.bind, Except.mapError, pure,
            Except.pure, Except.ok.injEq] at resolved
          subst resolved
          exact ⟨ceiling, nameSet_increasing _⟩
  | some value =>
  cases parsed : parseServerPermissionMode value with
  | error _ =>
      simp [cwds, loads, asked, parsed, bind, Except.bind, Except.mapError, Except.map]
        at resolved
  | ok requested =>
      cases tools : resolveRequestedAllowedTools toolRegistry payload with
      | error _ =>
          simp [cwds, loads, asked, parsed, tools, bind, Except.bind, Except.mapError,
            Except.map] at resolved
      | ok names =>
          simp only [cwds, loads, asked, parsed, tools, bind, Except.bind, Except.mapError,
            Except.map, pure, Except.pure, Except.ok.injEq] at resolved
          subst resolved
          exact ⟨clampPermissionModeToCeiling_served
            (parseServerPermissionMode_served parsed) ceiling, nameSet_increasing _⟩

end Openyak.Server
