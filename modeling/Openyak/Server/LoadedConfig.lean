/-
# Server.LoadedConfig -- what the merged settings say about permissions

The settings of a directory are layers, of which a later one counts more: objects are
merged key by key, everything else is replaced.  From the merged object the permission mode
and the tool profiles are read, which the command line and the server both go by.

The other sections are a parameter, of which only the browser's flag is used; they can make
the whole load fail.
-/
import Openyak.Runtime.Settings
import Openyak.Runtime.ToolPolicy
import Openyak.Server.ThreadConfig

namespace Openyak.Server

open Openyak.Runtime
open Openyak.Theory

set_option autoImplicit false

abbrev ConfigObject := JsonEntries Int64 none

/-! ## Merging -/

mutual

/-- What stands under a key behind the merge, where `held` stood. -/
def mergeValue (held : Option JsonValue) : JsonValue → JsonValue
  | .object incoming =>
      match held with
      | some (.object existing) => .object (deepMergeObjects existing incoming)
      | _ => .object incoming
  | value => value

def deepMergeObjects (target : ConfigObject) : {low : Option String} → JsonEntries Int64 low →
    ConfigObject
  | _, .nil => target
  | _, .cons key _ value rest =>
      deepMergeObjects (target.insert key (mergeValue (target.get? key) value)) rest

end

def mergeLayers (layers : List ConfigObject) : ConfigObject :=
  layers.foldl (fun merged layer => deepMergeObjects merged layer) .nil

/-! ## Reading -/

def orParse {α : Type} (message : String) : Option α → Except ConfigError α
  | some value => .ok value
  | none => .error (.parse message)

def expectObject (value : JsonValue) (context : String) : Except ConfigError ConfigObject :=
  orParse (context ++ ": expected JSON object") (asObject value)

def configString (object : ConfigObject) (key context : String) :
    Except ConfigError (Option String) :=
  match object.get? key with
  | some value =>
      (orParse (context ++ ": field " ++ key ++ " must be a string") (asStr value)).map some
  | none => .ok none

def configBool (object : ConfigObject) (key context : String) : Except ConfigError (Option Bool) :=
  match object.get? key with
  | some value =>
      (orParse (context ++ ": field " ++ key ++ " must be a boolean") (asBool value)).map some
  | none => .ok none

def configStringArray (object : ConfigObject) (key context : String) :
    Except ConfigError (Option (List String)) :=
  match object.get? key with
  | some value => do
      let array ← orParse (context ++ ": field " ++ key ++ " must be an array") (asArray value)
      let items ← array.mapM fun item =>
        orParse (context ++ ": field " ++ key ++ " must contain only strings") (asStr item)
      return some items
  | none => .ok none

def parsePermissionModeLabel (mode context : String) : Except ConfigError ResolvedPermissionMode :=
  if mode = "default" ∨ mode = "plan" ∨ mode = "read-only" then .ok .readOnly
  else if mode = "acceptEdits" ∨ mode = "auto" ∨ mode = "workspace-write" then .ok .workspaceWrite
  else if mode = "dontAsk" ∨ mode = "danger-full-access" then .ok .dangerFullAccess
  else .error (.parse (context ++ ": unsupported permission mode " ++ mode))

def parseOptionalPermissionMode (root : ConfigObject) :
    Except ConfigError (Option ResolvedPermissionMode) :=
  match (root.get? "permissionMode").bind asStr with
  | some mode => (parsePermissionModeLabel mode "merged settings.permissionMode").map some
  | none =>
      match (((root.get? "permissions").bind asObject).bind (·.get? "defaultMode")).bind asStr with
      | some mode =>
          (parsePermissionModeLabel mode "merged settings.permissions.defaultMode").map some
      | none => .ok none

def parseFilesystemModeLabel (value : String) : Except ConfigError FilesystemIsolationMode :=
  if value = "off" then .ok .off
  else if value = "workspace-only" then .ok .workspaceOnly
  else if value = "allow-list" then .ok .allowList
  else .error (.parse
    ("merged settings.sandbox.filesystemMode: unsupported filesystem mode " ++ value))

def parseSandboxConfigValue (value : JsonValue) (context : String) :
    Except ConfigError SandboxConfig := do
  let sandbox ← expectObject value context
  let filesystemMode ←
    match ← configString sandbox "filesystemMode" context with
    | some label => (parseFilesystemModeLabel label).map some
    | none => .ok none
  return {
    enabled := ← configBool sandbox "enabled" context
    namespaceRestrictions := ← configBool sandbox "namespaceRestrictions" context
    networkIsolation := ← configBool sandbox "networkIsolation" context
    filesystemMode
    allowedMounts := (← configStringArray sandbox "allowedMounts" context).getD [] }

def parseOptionalToolProfileBashPolicy (profile : ConfigObject) (context : String) :
    Except ConfigError (Option ToolProfileBashPolicy) :=
  match profile.get? "bashPolicy" with
  | none => .ok none
  | some policyValue => do
      let policyContext := context ++ ".bashPolicy"
      let policy ← expectObject policyValue policyContext
      let sandboxValue ← orParse (policyContext ++ ": missing field sandbox") (policy.get? "sandbox")
      let sandbox ← parseSandboxConfigValue sandboxValue (policyContext ++ ".sandbox")
      let disable ← configBool policy "allowDangerouslyDisableSandbox" policyContext
      return some ⟨sandbox, disable.getD false⟩

structure ToolProfileConfig where
  description : Option String := none
  permissionMode : ResolvedPermissionMode
  allowedTools : List String
  bashPolicy : Option ToolProfileBashPolicy := none
  deriving DecidableEq, Repr

def parseToolProfile (profileId : String) (profileValue : JsonValue) :
    Except ConfigError ToolProfileConfig := do
  let context := "merged settings.toolProfiles." ++ profileId
  let profile ← expectObject profileValue context
  let label ← orParse (context ++ ": missing field permissionMode")
    (← configString profile "permissionMode" context)
  let permissionMode ← parsePermissionModeLabel label (context ++ ".permissionMode")
  let allowedTools ← orParse (context ++ ": missing field allowedTools")
    (← configStringArray profile "allowedTools" context)
  let bashPolicy ← parseOptionalToolProfileBashPolicy profile context
  return ⟨← configString profile "description" context, permissionMode, allowedTools, bashPolicy⟩

/-- The profiles in the order of their names. -/
def parseOptionalToolProfiles (root : ConfigObject) :
    Except ConfigError (List (String × ToolProfileConfig)) :=
  match root.get? "toolProfiles" with
  | none => .ok []
  | some profilesValue => do
      let profiles ← expectObject profilesValue "merged settings.toolProfiles"
      profiles.toList.mapM fun entry =>
        (parseToolProfile entry.1 entry.2).map fun profile => (entry.1, profile)

def parseOptionalModel (root : ConfigObject) : Option String := (root.get? "model").bind asStr

def parseOptionalSandboxConfig (root : ConfigObject) : Except ConfigError SandboxConfig :=
  match root.get? "sandbox" with
  | some value => parseSandboxConfigValue value "merged settings.sandbox"
  | none => .ok {}

/-! ## Loading -/

/-- The sections that only can fail: those of each layer, and those read before the
profiles; and whether the browser is enabled. -/
structure OtherSections where
  layer : ConfigObject → Except ConfigError Unit
  before : ConfigObject → Except ConfigError Unit
  browserControl : ConfigObject → Except ConfigError Bool

structure LoadedConfig extends RuntimeConfig where
  toolProfiles : List (String × ToolProfileConfig) := []
  browserEnabled : Bool := false
  sandbox : SandboxConfig := {}
  deriving DecidableEq, Repr

/-- `ConfigLoader::load`, from the layers that were there and could be read. -/
def loadConfig (others : OtherSections) (layers : List ConfigObject) :
    Except ConfigError LoadedConfig := do
  let _ ← layers.mapM others.layer
  let merged := mergeLayers layers
  others.before merged
  let toolProfiles ← parseOptionalToolProfiles merged
  let browserEnabled ← others.browserControl merged
  let permissionMode ← parseOptionalPermissionMode merged
  let sandbox ← parseOptionalSandboxConfig merged
  return { model := parseOptionalModel merged, permissionMode, toolProfiles, browserEnabled, sandbox }

def configErrorMessage : ConfigError → String
  | .io error => error
  | .parse message => message

end Openyak.Server
