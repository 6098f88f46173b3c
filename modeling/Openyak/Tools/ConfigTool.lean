/-
# Tools.ConfigTool -- the `Config` tool

A setting has a scope, which says in which of two files it stands, a kind and a path of
keys.  A value is brought to the kind, put under the path of the file's object, and the
file is written anew.
-/
import Openyak.Runtime.Settings

namespace Openyak.Tools

open Openyak.Theory
open Openyak.Theory.Posix (Path)
open Openyak.Runtime (SerdeMap SerdeValue SettingsSerde SettingsFiles FileRead Disk)

set_option autoImplicit false

/-! ## Settings -/

inductive ConfigScope where
  | global
  | settings
  deriving DecidableEq, Repr

inductive ConfigKind where
  | boolean
  | string
  deriving DecidableEq, Repr

structure ConfigSettingSpec where
  scope : ConfigScope
  kind : ConfigKind
  path : List String
  options : Option (List String) := none
  deriving DecidableEq, Repr

def supportedConfigSetting (setting : String) : Option ConfigSettingSpec :=
  match setting with
  | "theme" => some { scope := .global, kind := .string, path := ["theme"] }
  | "editorMode" =>
      some
        { scope := .global
          kind := .string
          path := ["editorMode"]
          options := some ["default", "vim", "emacs"] }
  | "verbose" => some { scope := .global, kind := .boolean, path := ["verbose"] }
  | "preferredNotifChannel" =>
      some { scope := .global, kind := .string, path := ["preferredNotifChannel"] }
  | "autoCompactEnabled" =>
      some { scope := .global, kind := .boolean, path := ["autoCompactEnabled"] }
  | "autoMemoryEnabled" =>
      some { scope := .settings, kind := .boolean, path := ["autoMemoryEnabled"] }
  | "autoDreamEnabled" =>
      some { scope := .settings, kind := .boolean, path := ["autoDreamEnabled"] }
  | "fileCheckpointingEnabled" =>
      some { scope := .global, kind := .boolean, path := ["fileCheckpointingEnabled"] }
  | "showTurnDuration" => some { scope := .global, kind := .boolean, path := ["showTurnDuration"] }
  | "terminalProgressBarEnabled" =>
      some { scope := .global, kind := .boolean, path := ["terminalProgressBarEnabled"] }
  | "todoFeatureEnabled" =>
      some { scope := .global, kind := .boolean, path := ["todoFeatureEnabled"] }
  | "model" => some { scope := .settings, kind := .string, path := ["model"] }
  | "alwaysThinkingEnabled" =>
      some { scope := .settings, kind := .boolean, path := ["alwaysThinkingEnabled"] }
  | "permissions.defaultMode" =>
      some
        { scope := .settings
          kind := .string
          path := ["permissions", "defaultMode"]
          options := some ["default", "plan", "acceptEdits", "dontAsk", "auto"] }
  | "language" => some { scope := .settings, kind := .string, path := ["language"] }
  | "teammateMode" =>
      some
        { scope := .global
          kind := .string
          path := ["teammateMode"]
          options := some ["tmux", "in-process", "auto"] }
  | _ => none

theorem supportedConfigSetting_path {setting : String} {spec : ConfigSettingSpec}
    (supported : supportedConfigSetting setting = some spec) : spec.path ≠ [] := by
  unfold supportedConfigSetting at supported
  split at supported <;> cases supported <;> exact List.cons_ne_nil _ _

/-! ## Values -/

/-- A number is an `f64`, by its bits. -/
inductive ConfigValue where
  | string (value : String)
  | bool (value : Bool)
  | number (bits : UInt64)
  deriving DecidableEq, Repr

/-- `f64::is_finite`. -/
def isFinite (bits : UInt64) : Bool := bits >>> 52 &&& 0x7FF ≠ 0x7FF

/-- `json!` of an `f64`. -/
def jsonOfFloat (bits : UInt64) : SerdeValue :=
  if isFinite bits then .number (.float bits) else .null

/-- The value as its kind holds it, before the options are looked at. -/
def valueOfKind (kind : ConfigKind) (value : ConfigValue) : Except String SerdeValue :=
  match kind, value with
  | .boolean, .bool value => .ok (.bool value)
  | .boolean, .string value =>
      let lowered := Text.toAsciiLowercase (Text.trim value.toList)
      if lowered = "true".toList then .ok (.bool true)
      else if lowered = "false".toList then .ok (.bool false)
      else .error "setting requires true or false"
  | .boolean, .number _ => .error "setting requires true or false"
  | .string, .string value => .ok (.string value)
  | .string, .bool value => .ok (.string (if value then "true" else "false"))
  | .string, .number bits => .ok (jsonOfFloat bits)

/-- `Value::as_str`. -/
def asStr? : SerdeValue → Option String
  | .string value => some value
  | _ => none

def checkOptions (options : List String) (normalized : SerdeValue) : Except String SerdeValue :=
  match asStr? normalized with
  | none => .error "setting requires a string value"
  | some asStr =>
      if asStr ∈ options then .ok normalized
      else
        .error ("Invalid value \"" ++ asStr ++ "\". Options: " ++ String.intercalate ", " options)

def normalizeConfigValue (spec : ConfigSettingSpec) (value : ConfigValue) :
    Except String SerdeValue :=
  match valueOfKind spec.kind value with
  | .error error => .error error
  | .ok normalized =>
      match spec.options with
      | none => .ok normalized
      | some options => checkOptions options normalized

/-! ## The tool -/

structure ConfigInput where
  setting : String
  value : Option ConfigValue
  deriving DecidableEq, Repr

structure ConfigOutput where
  success : Bool
  operation : Option String := none
  setting : Option String := none
  value : Option SerdeValue := none
  previousValue : Option SerdeValue := none
  newValue : Option SerdeValue := none
  error : Option String := none

def getNestedValue (value : SerdeMap) (path : List String) : Option SerdeValue := value.getPath path

def setNestedValue (root : SerdeMap) (path : List String) (newValue : SerdeValue) : SerdeMap :=
  root.setPath newValue path

section Tool

variable (serde : SettingsSerde) (disk : Disk)

/-- Where the tool runs: `current_dir` may fail. -/
structure ConfigPlace where
  cwd : Except String Path
  configHome : Path

def configFileForScope (place : ConfigPlace) (scope : ConfigScope) : Except String Path :=
  match place.cwd with
  | .error error => .error error
  | .ok cwd =>
      match scope with
      | .global => .ok (place.configHome.join (Path.ofText "settings.json"))
      | .settings =>
          .ok ((cwd.join (Path.ofText ".openyak")).join (Path.ofText "settings.local.json"))

def readJsonObject (file : FileRead) : Except String SerdeMap :=
  match file with
  | .text contents =>
      if Text.trim contents.toList = [] then .ok .nil
      else
        match serde.fromStr contents with
        | .error error => .error error
        | .ok parsed =>
            match parsed.asObject? with
            | some object => .ok object
            | none => .error "config file must contain a JSON object"
  | .notFound => .ok .nil
  | .failed error => .error error

def writeJsonObject (files : SettingsFiles) (path : Path) (value : SerdeMap) :
    SettingsFiles × Except String Unit :=
  match path.parent.bind disk.createDirAll with
  | some error => (files, .error error)
  | none =>
      match serde.toStringPretty value with
      | .error error => (files, .error error)
      | .ok text => files.write disk path text

def executeConfig (place : ConfigPlace) (files : SettingsFiles) (input : ConfigInput) :
    SettingsFiles × Except String ConfigOutput :=
  let setting := String.ofList (Text.trim input.setting.toList)
  if setting = "" then (files, .error "setting must not be empty")
  else
    match supportedConfigSetting setting with
    | none =>
        (files, .ok { success := false, error := some ("Unknown setting: \"" ++ setting ++ "\"") })
    | some spec =>
        match configFileForScope place spec.scope with
        | .error error => (files, .error error)
        | .ok path =>
            match readJsonObject serde (files path) with
            | .error error => (files, .error error)
            | .ok document =>
                match input.value with
                | none =>
                    (files, .ok
                      { success := true
                        operation := some "get"
                        setting := some setting
                        value := getNestedValue document spec.path })
                | some value =>
                    match normalizeConfigValue spec value with
                    | .error error => (files, .error error)
                    | .ok normalized =>
                        match writeJsonObject serde disk files path
                          (setNestedValue document spec.path normalized) with
                        | (files, .error error) => (files, .error error)
                        | (files, .ok ()) =>
                            (files, .ok
                              { success := true
                                operation := some "set"
                                setting := some setting
                                value := some normalized
                                previousValue := getNestedValue document spec.path
                                newValue := some normalized })

end Tool

end Openyak.Tools
