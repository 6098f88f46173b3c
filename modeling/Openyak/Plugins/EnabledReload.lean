/-
# Plugins.EnabledReload -- what a reload makes of plugins that were enabled or disabled

The manager writes a plugin's state under `enabledPlugins` of the user's settings.  A load
of all layers afterwards gives that state and the one in memory (`enabled_survives`), if
the settings do not name the plugin under `plugins.enabled` as well, which counts more
(`enabled_not_survives`), and hold no `-0`, which `serde_json` writes as a floating-point
number; and, for a plugin that was uninstalled, if the legacy settings do not name it.

`Tracks` is what every call keeps: the file is read, only `enabledPlugins` has changed in
it, and there and in memory stands what was written last.
-/
import Openyak.Plugins.CallSteps
import Openyak.Plugins.EnabledLayers
import Openyak.Runtime.PlainSettings

namespace Openyak.Plugins

open Openyak.Theory
open Openyak.Theory.Action
open Openyak.Theory.Posix (Path)
open Openyak.Runtime
open Openyak.Server (ConfigObject)

set_option autoImplicit false

/-! ## One update of the settings -/

section Update

variable {pluginId : String} {enabled : Option Bool}

theorem updateEnabled_map {ν μ : Type} (f : ν → μ) (root : JsonEntries ν none) :
    (updateEnabled pluginId enabled root).map f = updateEnabled pluginId enabled (root.map f) := by
  have entry : (setEnabled (root.objectAt "enabledPlugins") pluginId enabled).map f =
      setEnabled ((root.map f).objectAt "enabledPlugins") pluginId enabled := by
    rw [JsonEntries.objectAt_map]
    cases enabled with
    | none => exact JsonEntries.remove_map f _ pluginId
    | some value => exact JsonEntries.insert_map f _ pluginId (.bool value)
  rw [updateEnabled, JsonEntries.insert_map, updateEnabled, ensureObject, ensureObject, ← entry]
  rfl

theorem updateEnabled_all {ν : Type} (p : ν → Bool) {root : JsonEntries ν none}
    (all : root.all p = true) : (updateEnabled pluginId enabled root).all p = true := by
  have others : ∀ {entries : JsonEntries ν none} {key : String} {value : JsonTree ν},
      entries.all p = true → value.all p = true → (entries.insert key value).all p = true := by
    intro entries key value rest own
    rw [JsonEntries.all_insert, own, Bool.and_true, JsonEntries.all_offKey]
    exact fun other held _ found => (JsonEntries.all_iff p entries).1 rest other held found
  refine others all ?_
  have inner := JsonEntries.all_objectAt p all "enabledPlugins"
  cases enabled with
  | none => exact JsonEntries.all_remove p pluginId inner
  | some value => exact others inner rfl

theorem remove_update (object : ConfigObject) :
    (updateEnabled pluginId enabled object).remove "enabledPlugins" = object.remove "enabledPlugins" :=
  JsonEntries.remove_insert object _ _

theorem objectAt_update (object : ConfigObject) :
    (updateEnabled pluginId enabled object).objectAt "enabledPlugins" =
      setEnabled (object.objectAt "enabledPlugins") pluginId enabled := by
  rw [JsonEntries.objectAt, updateEnabled, JsonEntries.get?_insert, if_pos rfl]
  rfl

/-- The update is about one plugin, and says of it what it is for. -/
theorem saysUnder_update (object : ConfigObject) (id : String) :
    saysUnder (updateEnabled pluginId enabled object) "enabledPlugins" id =
      if pluginId = id then enabled else saysUnder object "enabledPlugins" id := by
  rw [saysUnder, saysUnder, objectAt_update]
  cases enabled with
  | none =>
      rw [setEnabled, JsonEntries.get?_remove]
      split <;> rfl
  | some value =>
      rw [setEnabled, JsonEntries.get?_insert]
      split <;> rfl

example : saysUnder (updateEnabled "a" (some true) .nil) "enabledPlugins" "a" = some true := by
  decide +kernel

theorem flags_update {object : ConfigObject} (flags : FlagsUnder object "enabledPlugins") :
    FlagsUnder (updateEnabled pluginId enabled object) "enabledPlugins" := by
  intro value found
  rw [updateEnabled, JsonEntries.get?_insert, if_pos rfl] at found
  cases found
  refine ⟨_, rfl, fun id held here => ?_⟩
  have before : ∀ held, (object.objectAt "enabledPlugins").get? id = some held →
      ∃ flag, held = .bool flag := by
    intro held there
    rw [JsonEntries.objectAt] at there
    cases stands : object.get? "enabledPlugins" with
    | none =>
        rw [stands] at there
        cases there
    | some value =>
        obtain ⟨map, rfl, each⟩ := flags value stands
        rw [stands] at there
        exact each id held there
  cases enabled with
  | none =>
      rw [setEnabled, ensureObject, JsonEntries.get?_remove] at here
      split at here
      · cases here
      · exact before held here
  | some flag =>
      rw [setEnabled, ensureObject, JsonEntries.get?_insert] at here
      split at here
      · exact ⟨flag, (Option.some.inj here).symm⟩
      · exact before held here

end Update

/-! ## The calls -/

/-- The plugin a call is about and the state it writes. -/
def PluginCall.writes : PluginCall → Option (String × Option Bool)
  | .enable pluginId => some (pluginId, some true)
  | .disable pluginId => some (pluginId, some false)
  | .uninstall pluginId => some (pluginId, none)
  | .install _ | .update _ => none

section Calls

variable {δ : Type} {host : PluginHost δ} {config : PluginManagerConfig} {disks : CallDisk δ}

theorem uninstallFiles_agrees (pluginId : String) {settings others : FileRead}
    {enabledPlugins : OrderedMap String Bool} :
    Agrees (WorldsAlike host settings others enabledPlugins)
      (uninstallFiles host config disks pluginId) := by
  refine .bind loadRegistry_agrees fun registry => .bind (.orFail _ _) fun record => ?_
  split
  · exact .fail _
  · refine .bind (ensureManaged_agrees _ _) fun _ => .bind (directoryExists_agrees _) fun there => ?_
    split
    · exact .bind (removeDirAll_agrees _) fun _ => storeRegistry_agrees _
    · exact storeRegistry_agrees _

theorem settingsOf_holds {path : Path} {file : FileRead} {root : SerdeMap}
    (read : settingsOf host path file = .ok root) : SerdeHolds host.serde root file := by
  cases file with
  | notFound =>
      cases read
      rfl
  | failed error => cases read
  | text contents =>
      rw [settingsOf] at read
      split at read
      · rename_i blank
        cases read
        exact .inl ⟨blank, rfl⟩
      · rename_i solid
        obtain ⟨parsed, accepted, isMap⟩ := bind_eq_ok.1 read
        cases reading : host.serde.fromStr contents with
        | error error =>
            rw [reading] at accepted
            cases accepted
        | ok value =>
            rw [reading] at accepted
            cases accepted
            split at isMap
            · rename_i object isObject
              cases isMap
              exact .inr ⟨solid, _, reading, isObject⟩
            · cases isMap

/-- What a call leaves: it has written the plugin's state to the settings and remembered it,
or neither. -/
def Wrote (host : PluginHost δ) (config : PluginManagerConfig) (pluginId : String)
    (enabled : Option Bool) (world : World δ) (outcome : Except PluginError Unit × World δ) : Prop :=
  (∃ root text, settingsOf host config.settingsPath world.settings = .ok root ∧
    host.serde.toStringPretty (updateEnabled pluginId enabled root) = .ok text ∧
    outcome.1 = .ok () ∧ outcome.2.settings = .text text ∧
    outcome.2.enabledPlugins = (world.remember pluginId enabled).enabledPlugins) ∨
  (∃ error, outcome.1 = .error error) ∧ outcome.2.settings = world.settings ∧
    outcome.2.enabledPlugins = world.enabledPlugins

theorem rememberEnabled_wrote {disk : PluginDisk δ} (whole : disk.writeSettings = none)
    (pluginId : String) (enabled : Option Bool) (world : World δ) :
    Wrote host config pluginId enabled world
      (rememberEnabled host config disk pluginId enabled world) := by
  rcases @writeEnabled_eq δ host config disk world pluginId enabled with
    ⟨root, text, read, rendered, -, goes⟩ | ⟨-, error, failed⟩
  · have done : writeEnabledState host config disk pluginId enabled world =
        (.ok (), { world with settings := .text text }) := by
      rw [goes, writeSettingsFile, whole]
    refine .inl ⟨root, text, read, rendered, ?_⟩
    rw [rememberEnabled, Action.bind_ok done]
    exact ⟨rfl, rfl, rfl⟩
  · refine .inr ?_
    rw [rememberEnabled, Action.bind_error failed]
    exact ⟨⟨error, rfl⟩, rfl, rfl⟩

/-- A first part that leaves the settings and the memory alone changes nothing of that. -/
theorem bind_wrote {first : PluginAction δ Unit} {disk : PluginDisk δ}
    (agrees : ∀ settings others enabledPlugins,
      Agrees (WorldsAlike host settings others enabledPlugins) first)
    (whole : disk.writeSettings = none) (pluginId : String) (enabled : Option Bool) (world : World δ) :
    Wrote host config pluginId enabled world
      ((first >>= fun _ => rememberEnabled host config disk pluginId enabled) world) := by
  obtain ⟨settings, memory⟩ := held_of_agrees agrees world
  cases done : first world with
  | mk outcome middle =>
      rw [done] at settings memory
      dsimp only at settings memory
      cases outcome with
      | ok value =>
          rw [Action.bind_ok done]
          have wrote := @rememberEnabled_wrote δ host config disk whole pluginId enabled middle
          simpa only [Wrote, World.remember, settings, memory] using wrote
      | error error =>
          rw [Action.bind_error done]
          exact .inr ⟨⟨error, rfl⟩, settings, memory⟩

theorem perform_wrote {call : PluginCall} {pluginId : String} {enabled : Option Bool}
    (about : call.writes = some (pluginId, enabled)) (whole : disks.acting.writeSettings = none)
    (world : World δ) :
    Wrote host config pluginId enabled world (perform host config disks call world) := by
  cases call with
  | install source => cases about
  | update id => cases about
  | enable id =>
      cases about
      exact bind_wrote (fun _ _ _ => ensureKnown_agrees _) whole _ _ world
  | disable id =>
      cases about
      exact bind_wrote (fun _ _ _ => ensureKnown_agrees _) whole _ _ world
  | uninstall id =>
      cases about
      exact bind_wrote (fun _ _ _ => uninstallFiles_agrees _) whole _ _ world

end Calls

/-! ## Runs -/

/-- What is used of `serde_json`: it reads and writes standard JSON, and no integer as `-0`. -/
structure Standard (serde : SettingsSerde) : Prop where
  reads : ∀ contents, serde.Reads contents
  writes : ∀ entries, serde.Writes entries
  unsigned : ∀ entries text, entries.all isInteger = true → serde.toStringPretty entries = .ok text →
    NoNegativeZeroOff (.text text) []

section Runs

variable {δ : Type} (host : PluginHost δ) (config : PluginManagerConfig)

/-- Calls of `enable`, `disable` and `uninstall`: what those that returned have written last
of each plugin, and the world behind them.  No write of the settings file fails. -/
inductive EnabledRun (start : World δ) : (String → Option (Option Bool)) → World δ → Prop
  | start : EnabledRun start (fun _ => none) start
  | call {written : String → Option (Option Bool)} {world : World δ} {disks : CallDisk δ}
      {call : PluginCall} {pluginId : String} {enabled : Option Bool}
      (earlier : EnabledRun start written world) (about : call.writes = some (pluginId, enabled))
      (whole : disks.acting.writeSettings = none) :
      EnabledRun start
        (match (perform host config disks call world).1 with
          | .ok _ => Function.update written pluginId (some enabled)
          | .error _ => written)
        (perform host config disks call world).2

/-- The settings file is read, only `enabledPlugins` has changed in it since `old`, and
there and in memory stands what was written. -/
structure Tracks (display : Path → String) (old : Option ConfigObject)
    (memory : OrderedMap String Bool) (written : String → Option (Option Bool)) (world : World δ)
    (now : Option ConfigObject) : Prop where
  read : readOptionalJsonObject display config.settingsPath world.settings = .ok now
  rewritten : Rewritten old now
  flags : FlagsUnder (now.getD .nil) "enabledPlugins"
  file : ∀ id, saysUnder (now.getD .nil) "enabledPlugins" id =
    (written id).getD (saysUnder (old.getD .nil) "enabledPlugins" id)
  remembered : ∀ id, world.enabledPlugins.get id = (written id).getD (memory.get id)
  unsigned : NoNegativeZeroOff world.settings []

variable {host config} {display : Path → String} {old now : Option ConfigObject}
  {memory : OrderedMap String Bool} {written : String → Option (Option Bool)} {start world : World δ}

theorem Rewritten.remove (rewritten : Rewritten old now) :
    (now.getD .nil).remove "enabledPlugins" = (old.getD .nil).remove "enabledPlugins" := by
  rcases rewritten with rfl | ⟨object, rfl, -, off⟩
  · rfl
  · exact off

theorem remember_get (pluginId : String) (enabled : Option Bool) (id : String) :
    (world.remember pluginId enabled).enabledPlugins.get id =
      if pluginId = id then enabled else world.enabledPlugins.get id := by
  by_cases same : pluginId = id
  · subst same
    rw [if_pos rfl]
    cases enabled with
    | none => exact OrderedMap.get_remove _ pluginId
    | some value => exact OrderedMap.get_insert _ pluginId value
  · rw [if_neg same]
    cases enabled with
    | none => exact OrderedMap.get_remove_other _ (Ne.symm same)
    | some value => exact OrderedMap.get_insert_other _ value (Ne.symm same)

/-- **A call keeps track.** -/
theorem Tracks.wrote (standard : Standard host.serde)
    (tracks : Tracks config display old memory written world now) {pluginId : String}
    {enabled : Option Bool} {outcome : Except PluginError Unit × World δ}
    (wrote : Wrote host config pluginId enabled world outcome) :
    ∃ next, Tracks config display old memory
      (match outcome.1 with
        | .ok _ => Function.update written pluginId (some enabled)
        | .error _ => written) outcome.2 next := by
  rcases wrote with ⟨root, text, readRoot, rendered, done, file, remembered⟩ |
    ⟨⟨error, failed⟩, file, remembered⟩
  · obtain ⟨same, fit, off⟩ := holds_reads (current_userSettings config.configHome) tracks.read
      (settingsOf_holds readRoot) fun contents _ => standard.reads contents
    have integers : root.all isInteger = true := (off []).2 tracks.unsigned
    have isText : text.toList = text.toList ++ blankChars [] := (List.append_nil _).symm
    have again : readOptionalJsonObject display config.settingsPath (.text text) =
        .ok (some (updateEnabled pluginId enabled (now.getD .nil))) := by
      rw [← same, ← updateEnabled_map]
      exact read_written (standard.writes _ text rendered) isText
        (updateEnabled_all inRange fit) (updateEnabled_all isInteger integers)
    refine ⟨some (updateEnabled pluginId enabled (now.getD .nil)), ?_⟩
    rw [done]
    show Tracks config display old memory (Function.update written pluginId (some enabled)) _ _
    exact
      { read := file ▸ again
        rewritten := .inr ⟨_, rfl, flags_update tracks.flags,
          (remove_update _).trans tracks.rewritten.remove⟩
        flags := flags_update tracks.flags
        file := by
          intro id
          show saysUnder (updateEnabled pluginId enabled (now.getD .nil)) "enabledPlugins" id = _
          rw [saysUnder_update]
          by_cases here : pluginId = id
          · rw [if_pos here, here, Function.update_self]
            rfl
          · rw [if_neg here, Function.update_of_ne (Ne.symm here), tracks.file]
        remembered := by
          intro id
          rw [remembered, remember_get]
          by_cases here : pluginId = id
          · rw [if_pos here, here, Function.update_self]
            rfl
          · rw [if_neg here, Function.update_of_ne (Ne.symm here), tracks.remembered]
        unsigned := file ▸ standard.unsigned _ text (updateEnabled_all isInteger integers) rendered }
  · refine ⟨now, ?_⟩
    rw [failed]
    exact { tracks with
      read := file ▸ tracks.read
      remembered := remembered ▸ tracks.remembered
      unsigned := file ▸ tracks.unsigned }

theorem EnabledRun.tracks (standard : Standard host.serde)
    (readable : readOptionalJsonObject display config.settingsPath start.settings = .ok old)
    (flags : FlagsUnder (old.getD .nil) "enabledPlugins")
    (unsigned : NoNegativeZeroOff start.settings [])
    (run : EnabledRun host config start written world) :
    ∃ now, Tracks config display old start.enabledPlugins written world now := by
  induction run with
  | start =>
      exact ⟨old, readable, .inl rfl, flags, fun _ => rfl, fun _ => rfl, unsigned⟩
  | call earlier about whole ih =>
      obtain ⟨now, tracks⟩ := ih
      exact tracks.wrote standard (perform_wrote about whole _)

/-! ## The reload -/

/-- The files of the layers, where the manager's settings stand among them. -/
def settingsFiles (config : PluginManagerConfig) (layers : SettingsFiles) (world : World δ) :
    SettingsFiles :=
  Function.update layers config.settingsPath world.settings

/-- What a plugin's state is, the user's `enabledPlugins` decides: no project or local layer
says anything of it, the settings do not under `plugins.enabled`, and where it is unset the
legacy settings do not either. -/
structure Decides (display : Path → String) (loader : ConfigLoader) (files : SettingsFiles)
    (id : String) (state : Option Bool) : Prop where
  elsewhere : ∀ entry ∈ discover loader, entry.source ≠ .user → entry.path ≠ loader.userSettingsPath →
    readSays (layerOf display files entry) id = none
  spelling : saysUnder (((layerOf display files ⟨.user, loader.userSettingsPath⟩).getD .nil).objectAt
    "plugins") "enabled" id = none
  legacy : state = none → readSays (layerOf display files ⟨.user, userLegacyPath loader⟩) id = none

theorem readSays_getD (layer : Option ConfigObject) (id : String) :
    readSays layer id = saysOf (layer.getD .nil) id := by
  cases layer <;> rfl

theorem Rewritten.says (rewritten : Rewritten old now) (id : String) :
    saysOf (now.getD .nil) id =
      (saysUnder ((old.getD .nil).objectAt "plugins") "enabled" id).or
        (saysUnder (now.getD .nil) "enabledPlugins" id) := by
  have plugins : (now.getD .nil).objectAt "plugins" = (old.getD .nil).objectAt "plugins" := by
    rw [JsonEntries.objectAt, JsonEntries.get?_of_remove rewritten.remove (by decide)]
    rfl
  rw [saysOf, plugins]

variable {layers : SettingsFiles} {entry : ConfigEntry}

theorem layerOf_settings (here : entry.path = config.settingsPath)
    (read : readOptionalJsonObject display config.settingsPath world.settings = .ok now) :
    layerOf display (settingsFiles config layers world) entry = now := by
  rw [layerOf, settingsFiles, here, Function.update_self, read]
  rfl

theorem layerOf_other (other : entry.path ≠ config.settingsPath) :
    layerOf display (settingsFiles config layers world) entry = layerOf display layers entry := by
  rw [layerOf, settingsFiles, Function.update_of_ne other, layerOf]

/-- A layer that says the same or nothing leaves what the others say. -/
theorem or_of_either {said rest state : Option Bool} (either : said = state ∨ said = none)
    (others : rest = state) : said.or rest = state := by
  subst others
  rcases either with rfl | rfl
  · exact Option.or_self
  · exact Option.none_or

/-- **Enabling and disabling survive a reload** where the user's `enabledPlugins` decides and
the settings hold no `-0`: the load succeeds again and gives the state written last, which
is that in memory, and what no call has written stays. -/
theorem enabled_survives (sections : Sections) (display : Path → String) (host : PluginHost δ)
    (config : PluginManagerConfig) (cwd : Path) (standard : Standard host.serde)
    {layers : SettingsFiles} {start after : World δ} {written : String → Option (Option Bool)}
    {loaded : OrderedMap String Bool}
    (loads : load sections display ⟨cwd, config.configHome⟩ (settingsFiles config layers start) =
      .ok loaded)
    (unsigned : NoNegativeZeroOff start.settings [])
    (run : EnabledRun host config start written after) :
    ∃ reloaded, load sections display ⟨cwd, config.configHome⟩ (settingsFiles config layers after) =
        .ok reloaded ∧
      (∀ id state, written id = some state →
        Decides display ⟨cwd, config.configHome⟩ (settingsFiles config layers start) id state →
        reloaded.get id = state ∧ after.enabledPlugins.get id = state) ∧
      ∀ id, written id = none →
        reloaded.get id = loaded.get id ∧ after.enabledPlugins.get id = start.enabledPlugins.get id := by
  let user : ConfigEntry := ⟨.user, config.settingsPath⟩
  have listed : user ∈ discover ⟨cwd, config.configHome⟩ := List.mem_cons_of_mem _ List.mem_cons_self
  obtain ⟨old, readable, flags⟩ := load_read loads listed
  rw [settingsFiles, Function.update_self] at readable
  obtain ⟨now, tracks⟩ := run.tracks standard readable flags unsigned
  have wasHere : ∀ {entry : ConfigEntry}, entry.path = config.settingsPath →
      layerOf display (settingsFiles config layers start) entry = old := fun here =>
    layerOf_settings here readable
  have isHere : ∀ {entry : ConfigEntry}, entry.path = config.settingsPath →
      layerOf display (settingsFiles config layers after) entry = now := fun here =>
    layerOf_settings here tracks.read
  have stays : ∀ {entry : ConfigEntry}, entry.path ≠ config.settingsPath →
      layerOf display (settingsFiles config layers after) entry =
        layerOf display (settingsFiles config layers start) entry := fun other =>
    (layerOf_other other).trans (layerOf_other other).symm
  have again : ∃ reloaded, load sections display ⟨cwd, config.configHome⟩
      (settingsFiles config layers after) = .ok reloaded := by
    refine load_again (fun entry _ held read => ?_) loads
    by_cases here : entry.path = config.settingsPath
    · rw [settingsFiles, here, Function.update_self] at read ⊢
      cases readable.symm.trans read
      exact ⟨now, tracks.read, tracks.rewritten⟩
    · rw [settingsFiles, Function.update_of_ne here] at read ⊢
      exact ⟨held, read, .inl rfl⟩
  obtain ⟨reloaded, reloads⟩ := again
  refine ⟨reloaded, reloads, fun id state isWritten decides => ⟨?_, ?_⟩, fun id none_ => ⟨?_, ?_⟩⟩
  · -- The settings say the state, and the other layers nothing that counts more.
    have says_ : readSays now id = state := by
      have spelling := decides.spelling
      rw [wasHere rfl] at spelling
      rw [readSays_getD, tracks.rewritten.says, spelling, tracks.file, isWritten]
      rfl
    have others : ∀ entry ∈ discover ⟨cwd, config.configHome⟩, entry.source ≠ .user →
        readSays (layerOf display (settingsFiles config layers after) entry) id = state ∨
          readSays (layerOf display (settingsFiles config layers after) entry) id = none := by
      intro entry member foreign
      by_cases here : entry.path = config.settingsPath
      · exact .inl (by rw [isHere here, says_])
      · exact .inr (by rw [stays here, decides.elsewhere entry member foreign here])
    have legacy : state = none → readSays (layerOf display (settingsFiles config layers after)
        ⟨.user, userLegacyPath ⟨cwd, config.configHome⟩⟩) id = none := by
      intro unset
      by_cases here : userLegacyPath ⟨cwd, config.configHome⟩ = config.settingsPath
      · rw [isHere here, says_, unset]
      · rw [stays here, decides.legacy unset]
    have settings : readSays (layerOf display (settingsFiles config layers after) user) id = state := by
      rw [isHere rfl, says_]
    simp only [discover, List.forall_mem_cons] at others
    obtain ⟨-, -, project, inProject, inLocal, -⟩ := others
    rw [load_get reloads]
    refine or_of_either (inLocal nofun) (or_of_either (inProject nofun)
      (or_of_either (project nofun) ?_))
    show (readSays (layerOf display (settingsFiles config layers after) user) id).or _ = state
    rw [settings]
    cases state with
    | some value => rfl
    | none => exact congrArg (·.or none) (legacy rfl)
  · rw [tracks.remembered, isWritten]
    rfl
  · have same : ∀ entry, readSays (layerOf display (settingsFiles config layers after) entry) id =
        readSays (layerOf display (settingsFiles config layers start) entry) id := by
      intro entry
      by_cases here : entry.path = config.settingsPath
      · rw [isHere here, wasHere here, readSays_getD, readSays_getD, tracks.rewritten.says, tracks.file,
          none_]
        rfl
      · rw [stays here]
    rw [load_get reloads, load_get loads]
    simp only [same]
  · rw [tracks.remembered, none_]
    rfl

theorem EnabledRun.one {disks : CallDisk δ} {call : PluginCall} {pluginId : String}
    {enabled : Option Bool} (returned : (perform host config disks call start).1 = .ok ())
    (about : call.writes = some (pluginId, enabled)) (whole : disks.acting.writeSettings = none) :
    EnabledRun host config start (Function.update (fun _ => none) pluginId (some enabled))
      (perform host config disks call start).2 := by
  have run := @EnabledRun.call δ host config start (fun _ => none) start disks call pluginId enabled
    .start about whole
  rw [returned] at run
  exact run

end Runs

/-! ## The plugin that is built in -/

/-- A machine without plugins of its own. -/
def bareHost : PluginHost PluginManifest where
  manifestPath _ := some ["plugin.json"]
  manifest directory := .ok directory
  copied directory := directory
  registryFromStr _ := .error "expected value"
  registryToStringPretty _ := .error "key must be a string"
  serde := plainSerde
  location source := [source]
  display location := "/".intercalate location
  displayPath _ := "settings.json"

def bareConfig : PluginManagerConfig where
  configHome := Path.ofText "/home/.openyak"
  installRoot := ["home", ".openyak", "plugins", "installed"]
  bundledRoot := ["bundled"]
  externalDirs := []

/-- No step fails. -/
def soundDisk : PluginDisk PluginManifest where
  now := 0
  fails _ := none
  removal _ := none
  copying _ := none
  writeRegistry := none
  writeSettings := none
  clone _ := .error (.commandFailed "git clone failed")

def soundDisks : CallDisk PluginManifest := ⟨soundDisk, soundDisk, soundDisk, soundDisk⟩

def bareWorld (settings : FileRead) : World PluginManifest := ⟨.empty, .notFound, settings, .empty⟩

def builtinId : String := "example-builtin@builtin"

def bareLoader : ConfigLoader := ⟨Path.ofText "/work", bareConfig.configHome⟩

def noLayers : SettingsFiles := fun _ => .notFound

def allPass : Sections := ⟨fun _ _ => .ok (), fun _ _ => .ok (), fun _ => .ok ()⟩

/-- What a load gives for the plugin. -/
def loadedState (world : World PluginManifest) : Except ConfigError (Option Bool) :=
  (load allPass (fun _ => "settings") bareLoader (settingsFiles bareConfig noLayers world)).map
    fun enabled => enabled.get builtinId

theorem plainSerde_standard : Standard plainSerde where
  reads := plainSerde_reads
  writes := plainSerde_writes
  unsigned := fun entries text _ => plainSerde_unsigned entries text

theorem loadedState_ok {world : World PluginManifest} {state : Option Bool}
    (isState : loadedState world = .ok state) : ∃ enabled,
      load allPass (fun _ => "settings") bareLoader (settingsFiles bareConfig noLayers world) =
        .ok enabled ∧ enabled.get builtinId = state := by
  rw [loadedState] at isState
  cases loads : load allPass (fun _ => "settings") bareLoader
      (settingsFiles bareConfig noLayers world) with
  | error error =>
      rw [loads] at isState
      cases isState
  | ok enabled =>
      rw [loads] at isState
      exact ⟨enabled, rfl, Except.ok.inj isState⟩

/-- Where there are no settings, the plugin that is built in is enabled. -/
theorem enabled_survives_builtin : ∃ after reloaded,
    perform bareHost bareConfig soundDisks (.enable builtinId) (bareWorld .notFound) = (.ok (), after) ∧
      load allPass (fun _ => "settings") bareLoader (settingsFiles bareConfig noLayers after) =
        .ok reloaded ∧
      reloaded.get builtinId = some true ∧ after.enabledPlugins.get builtinId = some true := by
  have returned : (perform bareHost bareConfig soundDisks (.enable builtinId)
      (bareWorld .notFound)).1 = .ok () := by decide +kernel
  have before : loadedState (bareWorld .notFound) = .ok none := by decide +kernel
  obtain ⟨loaded, loads, -⟩ := loadedState_ok before
  have nothing : settingsFiles bareConfig noLayers (bareWorld .notFound) = noLayers :=
    Function.update_eq_self _ noLayers
  have decides : Decides (fun _ => "settings") bareLoader
      (settingsFiles bareConfig noLayers (bareWorld .notFound)) builtinId (some true) := by
    rw [nothing]
    exact ⟨fun _ _ _ _ => rfl, rfl, nofun⟩
  obtain ⟨reloaded, reloads, survives, -⟩ := enabled_survives allPass (fun _ => "settings") bareHost
    bareConfig (Path.ofText "/work") plainSerde_standard loads nofun
    (EnabledRun.one returned rfl rfl)
  have both := survives builtinId (some true) (Function.update_self ..) decides
  exact ⟨_, reloaded, Prod.ext returned rfl, reloads, both⟩

/-- Settings that disable the plugin under `plugins.enabled`. -/
def spelledSettings : FileRead :=
  .text "\x7b\"plugins\": \x7b\"enabled\": \x7b\"example-builtin@builtin\": false\x7d\x7d\x7d"

/-- What the call leaves of these settings. -/
def rewrittenSettings : FileRead :=
  .text ("\x7b\n  \"enabledPlugins\": \x7b\n    \"example-builtin@builtin\": true\n  \x7d,\n" ++
    "  \"plugins\": \x7b\n    \"enabled\": \x7b\n" ++
    "      \"example-builtin@builtin\": false\n    \x7d\n  \x7d\n\x7d")

theorem loadedState_settings {world other : World PluginManifest}
    (same : world.settings = other.settings) : loadedState world = loadedState other := by
  rw [loadedState, loadedState, settingsFiles, settingsFiles, same]

/-- **A plugin that was enabled is disabled after a reload**: the call returns and is
remembered, no project or local layer is there, and the settings still say otherwise. -/
theorem enabled_not_survives : Standard bareHost.serde ∧ ∃ loaded written after reloaded,
    load allPass (fun _ => "settings") bareLoader
      (settingsFiles bareConfig noLayers (bareWorld spelledSettings)) = .ok loaded ∧
    EnabledRun bareHost bareConfig (bareWorld spelledSettings) written after ∧
    (∀ entry ∈ discover bareLoader, entry.source ≠ .user →
      layerOf (fun _ => "settings") (settingsFiles bareConfig noLayers (bareWorld spelledSettings))
        entry = none) ∧
    load allPass (fun _ => "settings") bareLoader (settingsFiles bareConfig noLayers after) =
      .ok reloaded ∧
    written builtinId = some (some true) ∧ after.enabledPlugins.get builtinId = some true ∧
    reloaded.get builtinId = some false := by
  have returned : (perform bareHost bareConfig soundDisks (.enable builtinId)
      (bareWorld spelledSettings)).1 = .ok () := by decide +kernel
  have before : loadedState (bareWorld spelledSettings) = .ok (some false) := by decide +kernel
  have rewritten : (perform bareHost bareConfig soundDisks (.enable builtinId)
      (bareWorld spelledSettings)).2.settings = rewrittenSettings := by decide +kernel
  have behind : loadedState (perform bareHost bareConfig soundDisks (.enable builtinId)
      (bareWorld spelledSettings)).2 = .ok (some false) := by
    rw [@loadedState_settings _ (bareWorld rewrittenSettings) rewritten]
    decide +kernel
  obtain ⟨loaded, loads, -⟩ := loadedState_ok before
  obtain ⟨reloaded, reloads, isFalse⟩ := loadedState_ok behind
  refine ⟨plainSerde_standard, loaded, _, _, reloaded, loads,
    EnabledRun.one returned rfl rfl, ?_, reloads,
    Function.update_self .., by decide +kernel, isFalse⟩
  have elsewhere : ∀ entry ∈ discover bareLoader, entry.source ≠ .user →
      entry.path ≠ bareConfig.settingsPath := by
    simp only [discover, List.forall_mem_cons]
    decide +kernel
  intro entry member foreign
  rw [layerOf_other (elsewhere entry member foreign)]
  rfl

end Openyak.Plugins
