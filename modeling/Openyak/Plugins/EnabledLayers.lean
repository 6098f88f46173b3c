/-
# Plugins.EnabledLayers -- which plugins the layers of settings enable

The settings are read from five files, of which a later one counts more, and each can name
a plugin in two places: under `enabledPlugins` and, with more weight, under
`plugins.enabled`.  So what a plugin's state is, the last layer decides that says anything
of it (`loadEntries_get`).

The other sections of a load are a parameter; they can make it fail, and none of them reads
`enabledPlugins`.  A load that succeeds therefore does so again when only that key of a
layer has changed (`load_again`).
-/
import Openyak.Runtime.StoragePaths
import Openyak.Server.LoadedConfig
import Openyak.Theory.OrderedMap
import Openyak.Theory.Scanning
import Mathlib.Data.String.Basic

namespace Openyak.Plugins

open Openyak.Theory
open Openyak.Theory.Posix (Path)
open Openyak.Runtime
open Openyak.Server (ConfigObject deepMergeObjects mergeValue orParse expectObject)

set_option autoImplicit false

/-! ## Reading a layer -/

def boolEntry (context : String) (entry : String × JsonValue) : Except ConfigError (String × Bool) :=
  (orParse (context ++ ": field " ++ entry.1 ++ " must be a boolean") (asBool entry.2)).map
    fun enabled => (entry.1, enabled)

def parseBoolMap (value : JsonValue) (context : String) : Except ConfigError (List (String × Bool)) := do
  let map ← expectObject value context
  map.toList.mapM (boolEntry context)

def insertAll (target : OrderedMap String Bool) (entries : List (String × Bool)) :
    OrderedMap String Bool :=
  entries.foldl (fun target entry => target.insert entry.1 entry.2) target

def mergeBoolMap (target : OrderedMap String Bool) (value : JsonValue) (context : String) :
    Except ConfigError (OrderedMap String Bool) := do
  let entries ← parseBoolMap value context
  return insertAll target entries

/-- `merge_bool_map` of what stands under the key, if anything does. -/
def mergeUnder (target : OrderedMap String Bool) (object : ConfigObject) (key context : String) :
    Except ConfigError (OrderedMap String Bool) :=
  match object.get? key with
  | some value => mergeBoolMap target value context
  | none => .ok target

structure ConfigEntry where
  source : ConfigSource
  path : Path

def sourceName : ConfigSource → String
  | .user => "user"
  | .project => "project"
  | .local => "local"

/-- What else is read: the servers of a layer, what it says of plugins besides, and what
the merged object says. -/
structure Sections where
  mcpServers : ConfigEntry → JsonValue → Except ConfigError Unit
  plugins : ConfigEntry → ConfigObject → Except ConfigError Unit
  merged : ConfigObject → Except ConfigError Unit

section Load

variable (sections : Sections) (display : Path → String)

def mergePluginConfigFromEntry (entry : ConfigEntry) (enabled : OrderedMap String Bool)
    (object : ConfigObject) : Except ConfigError (OrderedMap String Bool) := do
  let context := sourceName entry.source ++ " config " ++ display entry.path
  let enabled ← mergeUnder enabled object "enabledPlugins" (context ++ ".enabledPlugins")
  match object.get? "plugins" with
  | none => return enabled
  | some pluginsValue =>
      let plugins ← expectObject pluginsValue (context ++ ".plugins")
      let enabled ← mergeUnder enabled plugins "enabled" (context ++ ".plugins.enabled")
      sections.plugins entry plugins
      return enabled

def mergeMcpServers (entry : ConfigEntry) (object : ConfigObject) : Except ConfigError Unit :=
  match object.get? "mcpServers" with
  | some servers => sections.mcpServers entry servers
  | none => .ok ()

/-- The loop over the layers: which plugins are enabled, and the merged object. -/
def loadEntries (files : SettingsFiles) : List ConfigEntry → OrderedMap String Bool → ConfigObject →
    Except ConfigError (OrderedMap String Bool × ConfigObject)
  | [], enabled, merged => .ok (enabled, merged)
  | entry :: rest, enabled, merged => do
      match ← readOptionalJsonObject display entry.path (files entry.path) with
      | none => loadEntries files rest enabled merged
      | some object =>
          mergeMcpServers sections entry object
          let enabled ← mergePluginConfigFromEntry sections display entry enabled object
          loadEntries files rest enabled (deepMergeObjects merged object)

def userLegacyPath (loader : ConfigLoader) : Path :=
  match loader.configHome.parent with
  | some parent => parent.join (Path.ofText ".openyak.json")
  | none => Path.ofText ".openyak.json"

def projectSettingsPath (loader : ConfigLoader) (name : String) : Path :=
  (loader.cwd.join (Path.ofText ".openyak")).join (Path.ofText name)

def discover (loader : ConfigLoader) : List ConfigEntry :=
  [⟨.user, userLegacyPath loader⟩,
    ⟨.user, loader.userSettingsPath⟩,
    ⟨.project, loader.cwd.join (Path.ofText ".openyak.json")⟩,
    ⟨.project, projectSettingsPath loader "settings.json"⟩,
    ⟨.local, projectSettingsPath loader "settings.local.json"⟩]

/-- `ConfigLoader::load`, and of what it gives the plugins that are enabled. -/
def load (loader : ConfigLoader) (files : SettingsFiles) :
    Except ConfigError (OrderedMap String Bool) := do
  let (enabled, merged) ← loadEntries sections display files (discover loader) .empty .nil
  sections.merged (merged.remove "enabledPlugins")
  return enabled

end Load

/-! ## What a layer says -/

def saysUnder (object : ConfigObject) (key id : String) : Option Bool :=
  ((object.objectAt key).get? id).bind asBool

/-- What a layer says of a plugin: first what stands under `plugins.enabled`. -/
def saysOf (object : ConfigObject) (id : String) : Option Bool :=
  (saysUnder (object.objectAt "plugins") "enabled" id).or (saysUnder object "enabledPlugins" id)

/-- What stands under the key, if anything does, is a map of flags. -/
def FlagsUnder (object : ConfigObject) (key : String) : Prop :=
  ∀ value, object.get? key = some value → ∃ map : ConfigObject, value = .object map ∧
    ∀ id held, map.get? id = some held → ∃ flag, held = .bool flag

/-- A map of flags is read, and what is said in it counts. -/
theorem parse_flags {low : Option String} (context : String) (map : JsonEntries Int64 low)
    (flags : ∀ id held, map.get? id = some held → ∃ flag, held = .bool flag) :
    ∃ entries, map.toList.mapM (boolEntry context) = .ok entries ∧
      ∀ target id, (insertAll target entries).get id = ((map.get? id).bind asBool).or (target.get id) := by
  match map with
  | .nil => exact ⟨[], rfl, fun target id => rfl⟩
  | .cons key above value rest =>
      obtain ⟨flag, rfl⟩ := flags key value (by rw [JsonEntries.get?_cons, if_pos rfl])
      have others : ∀ id held, rest.get? id = some held → ∃ flag, held = .bool flag := by
        intro id held found
        refine flags id held ?_
        rw [JsonEntries.get?_cons]
        split
        · rename_i same
          rw [← same, JsonEntries.get?_behind] at found
          cases found
        · exact found
      obtain ⟨entries, parsed, counts⟩ := parse_flags context rest others
      have first : boolEntry context (key, .bool flag) = .ok (key, flag) := rfl
      refine ⟨(key, flag) :: entries, ?_, fun target id => ?_⟩
      · rw [JsonEntries.toList, List.mapM_cons, first, ok_bind, parsed]
        rfl
      · have later := counts (target.insert key flag) id
        rw [insertAll, List.foldl_cons, ← insertAll, later, JsonEntries.get?_cons]
        by_cases same : key = id
        · subst same
          rw [if_pos rfl, JsonEntries.get?_behind, OrderedMap.get_insert]
          rfl
        · rw [if_neg same, OrderedMap.get_insert_other target flag (Ne.symm same)]

/-- Only a map of flags is read. -/
theorem flags_of_parse {low : Option String} {context : String} {map : JsonEntries Int64 low}
    {entries : List (String × Bool)} (parsed : map.toList.mapM (boolEntry context) = .ok entries)
    (id : String) (held : JsonValue) (found : map.get? id = some held) : ∃ flag, held = .bool flag := by
  match map with
  | .nil => cases found
  | .cons key above value rest =>
      rw [JsonEntries.toList, List.mapM_cons, bind_eq_ok] at parsed
      obtain ⟨first, isFirst, parsed⟩ := parsed
      obtain ⟨others, parsed, -⟩ := bind_eq_ok.1 parsed
      rw [JsonEntries.get?_cons] at found
      split at found
      · cases found
        cases held with
        | bool flag => exact ⟨flag, rfl⟩
        | _ => cases isFirst
      · exact flags_of_parse parsed id held found

theorem mergeUnder_ok {object : ConfigObject} {key : String} (flags : FlagsUnder object key)
    (target : OrderedMap String Bool) (context : String) :
    ∃ merged, mergeUnder target object key context = .ok merged ∧
      ∀ id, merged.get id = (saysUnder object key id).or (target.get id) := by
  cases here : object.get? key with
  | none =>
      refine ⟨target, by rw [mergeUnder, here], fun id => ?_⟩
      rw [saysUnder, JsonEntries.objectAt, here]
      rfl
  | some value =>
      obtain ⟨map, rfl, each⟩ := flags value here
      obtain ⟨entries, parsed, counts⟩ := parse_flags context map each
      refine ⟨insertAll target entries, ?_, fun id => ?_⟩
      · have isMap : parseBoolMap (.object map) context = .ok entries := parsed
        rw [mergeUnder, here]
        show mergeBoolMap target (.object map) context = _
        rw [mergeBoolMap, isMap]
        rfl
      · rw [counts, saysUnder, JsonEntries.objectAt, here]
        rfl

theorem flags_of_mergeUnder {object : ConfigObject} {key context : String}
    {target merged : OrderedMap String Bool}
    (merges : mergeUnder target object key context = .ok merged) : FlagsUnder object key := by
  intro value here
  rw [mergeUnder, here] at merges
  obtain ⟨entries, parsed, -⟩ := bind_eq_ok.1 merges
  obtain ⟨map, isMap, parsed⟩ := bind_eq_ok.1 parsed
  cases value with
  | object held =>
      cases isMap
      exact ⟨map, rfl, flags_of_parse parsed⟩
  | _ => cases isMap

/-! ## Loading twice -/

theorem get?_deepMerge (target : ConfigObject) (key : String) {low : Option String}
    (source : JsonEntries Int64 low) : (deepMergeObjects target source).get? key =
      match source.get? key with
      | some value => some (mergeValue (target.get? key) value)
      | none => target.get? key := by
  match source with
  | .nil => rfl
  | .cons found above value rest =>
      rw [deepMergeObjects, get?_deepMerge _ key rest, JsonEntries.get?_cons]
      by_cases same : found = key
      · subst same
        rw [JsonEntries.get?_behind, if_pos rfl]
        simp
      · simp [same]

/-- Merging keeps the keys apart. -/
theorem remove_deepMerge {target other source incoming : ConfigObject} {key : String}
    (targets : target.remove key = other.remove key)
    (sources : source.remove key = incoming.remove key) :
    (deepMergeObjects target source).remove key = (deepMergeObjects other incoming).remove key := by
  refine JsonEntries.ext_get? _ _ fun next => ?_
  rw [JsonEntries.get?_remove, JsonEntries.get?_remove]
  by_cases isKey : key = next
  · rw [if_pos isKey, if_pos isKey]
  · rw [if_neg isKey, if_neg isKey, get?_deepMerge, get?_deepMerge,
      JsonEntries.get?_of_remove targets (Ne.symm isKey),
      JsonEntries.get?_of_remove sources (Ne.symm isKey)]

section Again

variable {sections : Sections} {display : Path → String} {entry : ConfigEntry}

/-- What is read from a file says of a plugin. -/
def readSays (old : Option ConfigObject) (id : String) : Option Bool := old.bind fun object =>
  saysOf object id

/-- Of the layer only `enabledPlugins` has changed, to flags. -/
def Rewritten (old new : Option ConfigObject) : Prop :=
  new = old ∨ ∃ object, new = some object ∧ FlagsUnder object "enabledPlugins" ∧
    object.remove "enabledPlugins" = (old.getD .nil).remove "enabledPlugins"

theorem mergePlugins_get {enabled merged : OrderedMap String Bool} {object : ConfigObject}
    (merges : mergePluginConfigFromEntry sections display entry enabled object = .ok merged)
    (id : String) : merged.get id = (saysOf object id).or (enabled.get id) := by
  rw [mergePluginConfigFromEntry] at merges
  obtain ⟨first, mergesFirst, merges⟩ := bind_eq_ok.1 merges
  obtain ⟨_, again, says_⟩ := mergeUnder_ok (flags_of_mergeUnder mergesFirst) enabled _
  cases again.symm.trans mergesFirst
  cases here : object.get? "plugins" with
  | none =>
      rw [here] at merges
      cases merges
      rw [says_, saysOf, JsonEntries.objectAt, here]
      rfl
  | some value =>
      rw [here] at merges
      obtain ⟨plugins, isObject, merges⟩ := bind_eq_ok.1 merges
      obtain ⟨second, mergesSecond, merges⟩ := bind_eq_ok.1 merges
      obtain ⟨_, -, merges⟩ := bind_eq_ok.1 merges
      cases merges
      obtain ⟨_, again, saysMore⟩ := mergeUnder_ok (flags_of_mergeUnder mergesSecond) first _
      cases again.symm.trans mergesSecond
      have isPlugins : object.objectAt "plugins" = plugins := by
        cases value with
        | object held =>
            cases isObject
            rw [JsonEntries.objectAt, here]
            rfl
        | _ => cases isObject
      rw [saysMore, says_, saysOf, isPlugins, Option.or_assoc]

/-- The merge goes through again when only `enabledPlugins` has changed, to flags. -/
theorem mergePlugins_again {enabled merged : OrderedMap String Bool} {object other : ConfigObject}
    (merges : mergePluginConfigFromEntry sections display entry enabled object = .ok merged)
    (flags : FlagsUnder other "enabledPlugins")
    (same : other.remove "enabledPlugins" = object.remove "enabledPlugins")
    (held : OrderedMap String Bool) :
    ∃ again, mergePluginConfigFromEntry sections display entry held other = .ok again := by
  rw [mergePluginConfigFromEntry] at merges ⊢
  obtain ⟨_, -, merges⟩ := bind_eq_ok.1 merges
  obtain ⟨first, mergesFirst, -⟩ := mergeUnder_ok flags held
    (sourceName entry.source ++ " config " ++ display entry.path ++ ".enabledPlugins")
  rw [mergesFirst, ok_bind, JsonEntries.get?_of_remove same (by decide)]
  cases here : object.get? "plugins" with
  | none => exact ⟨first, rfl⟩
  | some value =>
      rw [here] at merges
      obtain ⟨plugins, isObject, merges⟩ := bind_eq_ok.1 merges
      obtain ⟨_, mergesSecond, merges⟩ := bind_eq_ok.1 merges
      obtain ⟨_, others, -⟩ := bind_eq_ok.1 merges
      obtain ⟨second, again, -⟩ := mergeUnder_ok (flags_of_mergeUnder mergesSecond) first
        (sourceName entry.source ++ " config " ++ display entry.path ++ ".plugins.enabled")
      refine ⟨second, ?_⟩
      show (expectObject value _ >>= fun plugins => _) = _
      rw [isObject, ok_bind, again, ok_bind, others]
      rfl

variable {files after : SettingsFiles} {entries : List ConfigEntry} {old : Option ConfigObject}

/-- A layer that is not there adds what an empty one would. -/
theorem loadEntries_cons
    (read : readOptionalJsonObject display entry.path (files entry.path) = .ok old)
    (enabled : OrderedMap String Bool) (merged : ConfigObject) :
    loadEntries sections display files (entry :: entries) enabled merged =
      (mergeMcpServers sections entry (old.getD .nil) >>= fun _ =>
        mergePluginConfigFromEntry sections display entry enabled (old.getD .nil) >>= fun enabled =>
          loadEntries sections display files entries enabled
            (deepMergeObjects merged (old.getD .nil))) := by
  rw [loadEntries, read, ok_bind]
  cases old with
  | none => rfl
  | some object => rfl

/-- The layer that an entry gives. -/
def layerOf (display : Path → String) (files : SettingsFiles) (entry : ConfigEntry) :
    Option ConfigObject :=
  (readOptionalJsonObject display entry.path (files entry.path)).toOption.join

/-- **The last layer that says anything of a plugin counts.** -/
theorem loadEntries_get {enabled : OrderedMap String Bool} {merged : ConfigObject}
    {result : OrderedMap String Bool × ConfigObject}
    (loaded : loadEntries sections display files entries enabled merged = .ok result) (id : String) :
    result.1.get id =
      entries.foldl (fun said entry => (readSays (layerOf display files entry) id).or said)
        (enabled.get id) := by
  induction entries generalizing enabled merged with
  | nil =>
      cases loaded
      rfl
  | cons entry entries ih =>
      cases read : readOptionalJsonObject display entry.path (files entry.path) with
      | error error =>
          rw [loadEntries, read] at loaded
          cases loaded
      | ok old =>
          rw [loadEntries_cons read] at loaded
          obtain ⟨_, -, loaded⟩ := bind_eq_ok.1 loaded
          obtain ⟨next, merges, loaded⟩ := bind_eq_ok.1 loaded
          have isLayer : layerOf display files entry = old := by
            rw [layerOf, read]
            rfl
          have says_ : saysOf (old.getD .nil) id = readSays old id := by
            cases old with
            | none => rfl
            | some object => rfl
          rw [ih loaded, mergePlugins_get merges, List.foldl_cons, isLayer, says_]

/-- **A load that succeeds does so again**, when of each layer only `enabledPlugins` has
changed. -/
theorem loadEntries_again
    (rewritten : ∀ entry ∈ entries, ∀ old,
      readOptionalJsonObject display entry.path (files entry.path) = .ok old →
        ∃ new, readOptionalJsonObject display entry.path (after entry.path) = .ok new ∧
          Rewritten old new)
    {enabled held : OrderedMap String Bool} {merged incoming : ConfigObject}
    {result : OrderedMap String Bool × ConfigObject}
    (same : merged.remove "enabledPlugins" = incoming.remove "enabledPlugins")
    (loaded : loadEntries sections display files entries enabled merged = .ok result) :
    ∃ again, loadEntries sections display after entries held incoming = .ok again ∧
      result.2.remove "enabledPlugins" = again.2.remove "enabledPlugins" := by
  induction entries generalizing enabled held merged incoming with
  | nil =>
      cases loaded
      exact ⟨(held, incoming), rfl, same⟩
  | cons entry entries ih =>
      cases read : readOptionalJsonObject display entry.path (files entry.path) with
      | error error =>
          rw [loadEntries, read] at loaded
          cases loaded
      | ok old =>
          obtain ⟨new, reread, changed⟩ := rewritten entry List.mem_cons_self old read
          rw [loadEntries_cons read] at loaded
          rw [loadEntries_cons reread]
          obtain ⟨_, servers, loaded⟩ := bind_eq_ok.1 loaded
          obtain ⟨next, merges, loaded⟩ := bind_eq_ok.1 loaded
          have apart : FlagsUnder (new.getD .nil) "enabledPlugins" ∧
              (new.getD .nil).remove "enabledPlugins" = (old.getD .nil).remove "enabledPlugins" := by
            rcases changed with rfl | ⟨object, rfl, flags, off⟩
            · obtain ⟨_, first, -⟩ := bind_eq_ok.1 merges
              exact ⟨flags_of_mergeUnder first, rfl⟩
            · exact ⟨flags, off⟩
          obtain ⟨again, remerges⟩ := mergePlugins_again merges apart.1 apart.2 held
          have servers' : mergeMcpServers sections entry (new.getD .nil) = .ok () := by
            rw [mergeMcpServers, JsonEntries.get?_of_remove apart.2 (by decide)]
            exact servers
          rw [servers', ok_bind, remerges, ok_bind]
          exact ih (fun entry member => rewritten entry (List.mem_cons_of_mem _ member))
            (remove_deepMerge same apart.2.symm) loaded

/-- Every layer of a load that succeeds was read, and its flags are flags. -/
theorem loadEntries_read {enabled : OrderedMap String Bool} {merged : ConfigObject}
    {result : OrderedMap String Bool × ConfigObject}
    (loaded : loadEntries sections display files entries enabled merged = .ok result)
    (member : entry ∈ entries) :
    ∃ old, readOptionalJsonObject display entry.path (files entry.path) = .ok old ∧
      FlagsUnder (old.getD .nil) "enabledPlugins" := by
  induction entries generalizing enabled merged with
  | nil => cases member
  | cons first entries ih =>
      cases read : readOptionalJsonObject display first.path (files first.path) with
      | error error =>
          rw [loadEntries, read] at loaded
          cases loaded
      | ok old =>
          rw [loadEntries_cons read] at loaded
          obtain ⟨_, -, loaded⟩ := bind_eq_ok.1 loaded
          obtain ⟨next, merges, loaded⟩ := bind_eq_ok.1 loaded
          rcases List.mem_cons.1 member with rfl | later
          · obtain ⟨_, flags, -⟩ := bind_eq_ok.1 merges
            exact ⟨old, read, flags_of_mergeUnder flags⟩
          · exact ih loaded later

theorem load_read {loader : ConfigLoader} {enabled : OrderedMap String Bool}
    (loaded : load sections display loader files = .ok enabled) (member : entry ∈ discover loader) :
    ∃ old, readOptionalJsonObject display entry.path (files entry.path) = .ok old ∧
      FlagsUnder (old.getD .nil) "enabledPlugins" := by
  obtain ⟨result, entries, -⟩ := bind_eq_ok.1 loaded
  exact loadEntries_read entries member

theorem load_again {loader : ConfigLoader}
    (rewritten : ∀ entry ∈ discover loader, ∀ old,
      readOptionalJsonObject display entry.path (files entry.path) = .ok old →
        ∃ new, readOptionalJsonObject display entry.path (after entry.path) = .ok new ∧
          Rewritten old new)
    {enabled : OrderedMap String Bool} (loaded : load sections display loader files = .ok enabled) :
    ∃ again, load sections display loader after = .ok again := by
  obtain ⟨result, entries, loaded⟩ := bind_eq_ok.1 loaded
  obtain ⟨_, passes, -⟩ := bind_eq_ok.1 loaded
  obtain ⟨again, reloaded, same⟩ := @loadEntries_again sections display files after (discover loader)
    rewritten .empty .empty .nil .nil result rfl entries
  refine ⟨again.1, ?_⟩
  rw [same] at passes
  rw [load, reloaded, ok_bind]
  show (sections.merged (again.2.remove "enabledPlugins") >>= fun _ => _) = _
  rw [passes]
  rfl

theorem load_get {loader : ConfigLoader} {enabled : OrderedMap String Bool}
    (loaded : load sections display loader files = .ok enabled) (id : String) :
    enabled.get id = (discover loader).foldl
      (fun said entry => (readSays (layerOf display files entry) id).or said) none := by
  obtain ⟨result, entries, loaded⟩ := bind_eq_ok.1 loaded
  obtain ⟨_, -, isEnabled⟩ := bind_eq_ok.1 loaded
  cases isEnabled
  exact loadEntries_get entries id

end Again

end Openyak.Plugins
