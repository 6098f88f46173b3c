/-
# Plugins.FailedCalls -- what a call that fails leaves changed

`Unchanged` compares two worlds in what a user of the manager sees: the directories, the
registry, the enabled state in the settings and in memory, and so what is listed.

A call works on these one after the other and takes nothing back but a directory that it
moved aside.  So a step that fails leaves what the steps before it did.  `FailsSafely` says
when that is nothing: what the failing steps leave is what was there, and no step fails
behind one that changed something.  Then, and only then, a call that fails has changed
nothing (`failed_unchanged_iff`).
-/
import Openyak.Plugins.EnabledReload

namespace Openyak.Plugins

open Openyak.Theory
open Openyak.Theory.Action
open Openyak.Theory.Posix (Location)
open Openyak.Runtime (FileRead SerdeValue)

set_option autoImplicit false

variable {δ : Type} (host : PluginHost δ) (config : PluginManagerConfig)

/-- The value under `enabledPlugins` in the settings. -/
def enabledState (file : FileRead) : Except PluginError (Option SerdeValue) :=
  (settingsOf host config.settingsPath file).map fun root => root.get? "enabledPlugins"

structure Unchanged (before after : World δ) : Prop where
  directories : after.directories = before.directories
  registry : registryOf host after.registry = registryOf host before.registry
  enabledState : enabledState host config after.settings = enabledState host config before.settings
  memory : after.enabledPlugins = before.enabledPlugins
  listed : ∀ disks : CallDisk δ,
    (listPlugins host config disks after).1 = (listPlugins host config disks before).1

/-- **A call that returns an error has changed nothing**. -/
def FailsClean (disks : CallDisk δ) (call : PluginCall) (world : World δ) : Prop :=
  ∀ error after, perform host config disks call world = (.error error, after) →
    Unchanged host config world after

/-- A world with another directory at the path and other files. -/
def World.left (world : World δ) (path : Location) (held : Option δ) (registry settings : FileRead) :
    World δ :=
  { world.setDirectory path held with registry, settings }

/-! ## When a call fails safely -/

/-- The plugin is listed. -/
def Known (disks : CallDisk δ) (world : World δ) (pluginId : String) : Prop :=
  ∃ plugins, (listPlugins host config disks world).1 = .ok plugins ∧
    ∃ plugin ∈ plugins, plugin.metadata.id = pluginId

/-- `enable` and `disable`: the listing finds all up to date, and a failing write leaves the
enabled state. -/
structure EnableSafe (disks : CallDisk δ) (world : World δ) (pluginId : String) (value : Bool) :
    Prop where
  unknown : ¬Known host config disks world pluginId →
    Unchanged host config world (listPlugins host config disks world).2
  settings : Known host config disks world pluginId →
    ∀ left ∈ settingsLeft host config disks.acting pluginId (some value) world.settings,
      Unchanged host config world (listPlugins host config disks world).2 ∧
        enabledState host config left = enabledState host config world.settings

/-- `uninstall` comes to its first step. -/
structure UninstallGoes (disk : PluginDisk δ) (world : World δ) (pluginId : String)
    (registry : InstalledPluginRegistry) (record : InstalledPluginRecord) : Prop where
  read : registryRead host disk world.registry = .ok registry
  recorded : registry.plugins.get pluginId = some record
  kind : record.kind ≠ .bundled
  managed : Managed config disk record.installPath

/-- Nothing fails once the directory or the record is gone. -/
structure UninstallSafe (disk : PluginDisk δ) (world : World δ) (pluginId : String)
    (registry : InstalledPluginRegistry) (path : Location) : Prop where
  removal : ∀ left ∈ standingLeft disk path (world.directories.get path),
    left = world.directories.get path
  store : standingLeft disk path (world.directories.get path) = none →
    ∀ left ∈ registryLeft host disk ⟨registry.plugins.remove pluginId⟩ world.registry,
      world.directories.get path = none ∧ registryOf host left = registryOf host world.registry
  settings : standingLeft disk path (world.directories.get path) = none →
    registryLeft host disk ⟨registry.plugins.remove pluginId⟩ world.registry = none →
      settingsLeft host config disk pluginId none world.settings = none

/-- `update` comes to its commit. -/
structure UpdateGoes (disk : PluginDisk δ) (world : World δ) (pluginId : String)
    (registry : InstalledPluginRegistry) (record : InstalledPluginRecord) (prepared : Prepared δ) :
    Prop where
  read : registryRead host disk world.registry = .ok registry
  recorded : registry.plugins.get pluginId = some record
  managed : Managed config disk record.installPath
  prepares : (preparePluginSource host config disk record.source world).1 = .ok prepared

/-- A failing commit brings back what it moved aside, and a failing store finds that the
update has changed nothing. -/
structure UpdateSafe (disk : PluginDisk δ) (world : World δ) (prepared : δ) (path : Location)
    (updated : InstalledPluginRegistry) : Prop where
  commit : ∀ left ∈ commitLeft disk (world.directories.get path), left = world.directories.get path
  store : commitLeft disk (world.directories.get path) = none →
    ∀ left ∈ registryLeft host disk updated world.registry,
      world.directories.get path = some prepared ∧
        registryOf host left = registryOf host world.registry

/-- The source of an `install` is prepared. -/
structure InstallGoes (disk : PluginDisk δ) (world : World δ) (source : String)
    (installSource : PluginInstallSource) (prepared : Prepared δ) : Prop where
  parses : (parseInstallSource host source world).1 = .ok installSource
  prepares : (preparePluginSource host config disk installSource world).1 = .ok prepared

/-- The listing of `install` does not have the plugin. -/
def Unlisted (disks : CallDisk δ) (world : World δ) (pluginId : String) : Prop :=
  ∃ plugins, (listInstalledPlugins host config disks world).1 = .ok plugins ∧
    ∀ plugin ∈ plugins, plugin.metadata.id ≠ pluginId

section Install

variable (disk : PluginDisk δ) (listed : World δ) (prepared : δ) (path : Location)
  (record : InstalledPluginRecord)

/-- No step of `install` fails behind its listing. -/
def InstallDone : Prop :=
  commitLeft disk (listed.directories.get path) = none ∧
    ∃ registry, registryRead host disk listed.registry = .ok registry ∧
      registryLeft host disk ⟨registry.plugins.insert record.id record⟩ listed.registry = none ∧
      settingsLeft host config disk record.id (some true) listed.settings = none

/-- A failing commit brings back what it moved aside, and the steps behind it fail only
where what was done before them has changed nothing. -/
structure InstallSafe : Prop where
  commit : ∀ left ∈ commitLeft disk (listed.directories.get path), left = listed.directories.get path
  read : commitLeft disk (listed.directories.get path) = none →
    ∀ error, registryRead host disk listed.registry = .error error →
      listed.directories.get path = some prepared
  store : commitLeft disk (listed.directories.get path) = none →
    ∀ registry, registryRead host disk listed.registry = .ok registry →
      ∀ left ∈ registryLeft host disk ⟨registry.plugins.insert record.id record⟩ listed.registry,
        listed.directories.get path = some prepared ∧
          registryOf host left = registryOf host listed.registry
  settings : commitLeft disk (listed.directories.get path) = none →
    ∀ registry, registryRead host disk listed.registry = .ok registry →
      registryLeft host disk ⟨registry.plugins.insert record.id record⟩ listed.registry = none →
        ∀ left ∈ settingsLeft host config disk record.id (some true) listed.settings,
          listed.directories.get path = some prepared ∧
            registry.plugins.get record.id = some record ∧
              enabledState host config left = enabledState host config listed.settings

end Install

/-- The record that `install` writes. -/
def installRecord (disk : PluginDisk δ) (prepared : Prepared δ) (installSource : PluginInstallSource) :
    InstalledPluginRecord :=
  newRecord disk (pluginId prepared.manifest.name "external") prepared.manifest
    (config.installRoot ++ [sanitizePluginId (pluginId prepared.manifest.name "external")])
    installSource

/-- The call changes nothing where a step fails. -/
def FailsSafely (disks : CallDisk δ) (world : World δ) : PluginCall → Prop
  | .enable pluginId => EnableSafe host config disks world pluginId true
  | .disable pluginId => EnableSafe host config disks world pluginId false
  | .uninstall pluginId => ∀ registry record,
      UninstallGoes host config disks.acting world pluginId registry record →
        UninstallSafe host config disks.acting world pluginId registry record.installPath
  | .update pluginId => ∀ registry record prepared,
      UpdateGoes host config disks.acting world pluginId registry record prepared →
        UpdateSafe host disks.acting world prepared.directory record.installPath
          ⟨registry.plugins.insert pluginId (updatedRecord disks.acting record prepared.manifest)⟩
  | .install source => ∀ installSource prepared,
      InstallGoes host config disks.acting world source installSource prepared →
        let record := installRecord config disks.acting prepared installSource
        let listed := (listInstalledPlugins host config disks world).2
        (Unchanged host config world listed ∨
          Unlisted host config disks world record.id ∧
            InstallDone host config disks.acting listed record.installPath record) ∧
        (Unlisted host config disks world record.id →
          InstallSafe host config disks.acting listed prepared.directory record.installPath record)

/-- `installFiles` behind its listing. -/
def installRest (disk : PluginDisk δ) (prepared : Prepared δ) (record : InstalledPluginRecord) :
    PluginAction δ InstallOutcome := do
  commitPreparedInstall host disk prepared.directory record.installPath
  let registry ← loadRegistry host disk
  storeRegistry host disk ⟨registry.plugins.insert record.id record⟩
  return ⟨record.id, prepared.manifest.version, prepared.source, record.installPath⟩

/-! ## Worlds -/

variable {host config}

section Worlds

variable {before middle after world : World δ}

/-- The first four decide the fifth. -/
theorem unchanged_of (directories : after.directories = before.directories)
    (registry : registryOf host after.registry = registryOf host before.registry)
    (state : enabledState host config after.settings = enabledState host config before.settings)
    (memory : after.enabledPlugins = before.enabledPlugins) : Unchanged host config before after :=
  ⟨directories, registry, state, memory, fun _ =>
    (listPlugins_agrees after before ⟨directories, registry, rfl, rfl, memory, rfl⟩).1⟩

theorem Unchanged.refl (world : World δ) : Unchanged host config world world :=
  unchanged_of rfl rfl rfl rfl

theorem Unchanged.trans (first : Unchanged host config before middle)
    (second : Unchanged host config middle after) : Unchanged host config before after :=
  unchanged_of (second.directories.trans first.directories) (second.registry.trans first.registry)
    (second.enabledState.trans first.enabledState) (second.memory.trans first.memory)

theorem Unchanged.symm (same : Unchanged host config before after) : Unchanged host config after before :=
  unchanged_of same.directories.symm same.registry.symm same.enabledState.symm same.memory.symm

theorem unchanged_left_iff {path : Location} {held : Option δ} {registry settings : FileRead} :
    Unchanged host config world (world.left path held registry settings) ↔
      held = world.directories.get path ∧ registryOf host registry = registryOf host world.registry ∧
        enabledState host config settings = enabledState host config world.settings := by
  constructor
  · intro same
    exact ⟨setDirectory_eq_iff.1 same.directories, same.registry, same.enabledState⟩
  · rintro ⟨directory, files, state⟩
    exact unchanged_of (setDirectory_eq_iff.2 directory) files state rfl

end Worlds

section Calls

variable {disk : PluginDisk δ} {disks : CallDisk δ} {world after : World δ} {call : PluginCall}

theorem fails_of_ok {holds : World δ → Prop}
    (returned : (perform host config disks call world).1 = .ok ()) :
    ∀ error after, perform host config disks call world = (.error error, after) → holds after := by
  intro error after failed
  rw [failed] at returned
  cases returned

theorem fails_iff {holds : World δ → Prop} {error : PluginError}
    (failed : perform host config disks call world = (.error error, after)) :
    (∀ error after, perform host config disks call world = (.error error, after) → holds after) ↔
      holds after := by
  constructor
  · intro all
    exact all error after failed
  · intro held other reached again
    cases failed.symm.trans again
    exact held

theorem failsClean_of_ok (returned : (perform host config disks call world).1 = .ok ()) :
    FailsClean host config disks call world := fails_of_ok returned

theorem failsClean_iff {error : PluginError}
    (failed : perform host config disks call world = (.error error, after)) :
    FailsClean host config disks call world ↔ Unchanged host config world after := fails_iff failed

/-! ## `enable` and `disable` -/

theorem ensureKnown_ok {pluginId : String} (known : Known host config disks world pluginId) :
    ensureKnownPlugin host config disks pluginId world =
      (.ok (), (listPlugins host config disks world).2) := by
  obtain ⟨plugins, lists, plugin, member, same⟩ := known
  refine (Action.bind_ok (Prod.ext lists rfl)).trans ?_
  have found : (plugins.any fun plugin => plugin.metadata.id = pluginId) = true :=
    List.any_eq_true.2 ⟨plugin, member, by simpa using same⟩
  rw [found]
  rfl

theorem ensureKnown_error {pluginId : String} (unknown : ¬Known host config disks world pluginId) :
    ∃ error, ensureKnownPlugin host config disks pluginId world =
      (.error error, (listPlugins host config disks world).2) := by
  cases lists : (listPlugins host config disks world).1 with
  | error error => exact ⟨error, Action.bind_error (Prod.ext lists rfl)⟩
  | ok plugins =>
      have absent : (plugins.any fun plugin => plugin.metadata.id = pluginId) = false := by
        refine List.any_eq_false.2 fun plugin member same => unknown ?_
        exact ⟨plugins, lists, plugin, member, by simpa using same⟩
      have goes : ensureKnownPlugin host config disks pluginId world = _ :=
        Action.bind_ok (Prod.ext lists rfl)
      rw [goes, absent]
      exact ⟨_, rfl⟩

theorem enable_clean_iff {pluginId : String} {value : Bool}
    (calls : perform host config disks call = setEnabledState host config disks pluginId value) :
    FailsClean host config disks call world ↔ EnableSafe host config disks world pluginId value := by
  by_cases known : Known host config disks world pluginId
  · have goes : perform host config disks call world =
        rememberEnabled host config disks.acting pluginId (some value)
          (listPlugins host config disks world).2 := by
      rw [calls]
      exact Action.bind_ok (ensureKnown_ok known)
    have settings : (listPlugins host config disks world).2.settings = world.settings :=
      (held_of_agrees (fun _ _ _ => listPlugins_agrees) world).1
    cases left : settingsLeft host config disks.acting pluginId (some value) world.settings with
    | none =>
        refine ⟨fun _ => ⟨fun unknown => absurd known unknown, fun _ _ fails => ?_⟩, fun _ => ?_⟩
        · rw [left] at fails
          cases fails
        · refine failsClean_of_ok (goes ▸ rememberEnabled_done ?_)
          rw [settings, left]
    | some file =>
        obtain ⟨error, failed⟩ := rememberEnabled_left (settings.symm ▸ left)
        rw [failsClean_iff (goes.trans failed)]
        constructor
        · intro same
          have quiet : Unchanged host config world (listPlugins host config disks world).2 :=
            unchanged_of same.directories same.registry (by rw [settings]) same.memory
          refine ⟨fun unknown => absurd known unknown, fun _ other fails => ⟨quiet, ?_⟩⟩
          rw [left] at fails
          cases fails
          exact same.enabledState
        · intro safe
          obtain ⟨quiet, state⟩ := safe.settings known file left
          exact unchanged_of quiet.directories quiet.registry state quiet.memory
  · obtain ⟨error, failed⟩ := ensureKnown_error known
    have fails : perform host config disks call world =
        (.error error, (listPlugins host config disks world).2) := by
      rw [calls]
      exact Action.bind_error failed
    rw [failsClean_iff fails]
    exact ⟨fun quiet => ⟨fun _ => quiet, fun other => absurd other known⟩, fun safe => safe.unknown known⟩

/-! ## `uninstall` -/

theorem installedRecord_ok {registry : InstalledPluginRegistry} {pluginId : String}
    {record : InstalledPluginRecord} (recorded : registry.plugins.get pluginId = some record) :
    installedRecord registry pluginId world = (.ok record, world) := by
  rw [installedRecord, recorded]
  rfl

theorem registryOf_read {registry : InstalledPluginRegistry}
    (read : registryRead host disk world.registry = .ok registry) :
    registryOf host world.registry = .ok registry := by
  rw [registryRead] at read
  split at read
  · cases read
  · exact read

/-- The record that a call goes by, or what it fails with. -/
theorem readRecord (disk : PluginDisk δ) (world : World δ) (pluginId : String) :
    (∃ registry record, registryRead host disk world.registry = .ok registry ∧
      registry.plugins.get pluginId = some record) ∨
    ∀ {α : Type} (next : InstalledPluginRegistry → InstalledPluginRecord → PluginAction δ α),
      ∃ error, (loadRegistry host disk >>= fun registry =>
        installedRecord registry pluginId >>= next registry) world = (.error error, world) := by
  cases read : registryRead host disk world.registry with
  | error error =>
      have loads : loadRegistry host disk world = (.error error, world) := by rw [loadRegistry_eq, read]
      exact .inr fun next => ⟨error, Action.bind_error loads⟩
  | ok registry =>
      have loads : loadRegistry host disk world = (.ok registry, world) := by rw [loadRegistry_eq, read]
      cases recorded : registry.plugins.get pluginId with
      | some record => exact .inl ⟨registry, record, rfl, recorded⟩
      | none =>
          have absent : installedRecord registry pluginId world =
              (.error (.notFound ("plugin `" ++ pluginId ++ "` is not installed")), world) := by
            rw [installedRecord, recorded]
            rfl
          exact .inr fun next => ⟨_, (Action.bind_ok loads).trans (Action.bind_error absent)⟩

section Uninstall

variable {pluginId : String} {registry : InstalledPluginRegistry} {record : InstalledPluginRecord}

theorem uninstallFiles_goes
    (goes : UninstallGoes host config disks.acting world pluginId registry record) :
    uninstallFiles host config disks pluginId world =
      (removeStanding disks.acting record.installPath >>= fun _ =>
        storeRegistry host disks.acting ⟨registry.plugins.remove pluginId⟩) world := by
  have loads : loadRegistry host disks.acting world = (.ok registry, world) := by
    rw [loadRegistry_eq, goes.read]
  have begins : uninstallFiles host config disks pluginId world = _ :=
    (Action.bind_ok loads).trans (Action.bind_ok (installedRecord_ok goes.recorded))
  rw [begins, if_neg goes.kind]
  refine (Action.bind_ok (ensureManaged_ok goes.managed "uninstall")).trans ?_
  cases held : world.directories.get record.installPath with
  | none =>
      have stands : directoryExists record.installPath world = (.ok false, world) := by
        rw [directoryExists, held]
        rfl
      have skips : removeStanding disks.acting record.installPath world = (.ok (), world) :=
        Action.bind_ok stands
      rw [Action.bind_ok skips]
      exact Action.bind_ok stands
  | some directory =>
      have stands : directoryExists record.installPath world = (.ok true, world) := by
        rw [directoryExists, held]
        rfl
      have removes : removeStanding disks.acting record.installPath world =
          removeDirAll disks.acting record.installPath world := Action.bind_ok stands
      refine (Action.bind_ok stands).trans ?_
      cases removed : removeDirAll disks.acting record.installPath world with
      | mk result middle =>
          rw [removed] at removes
          cases result with
          | ok _ =>
              rw [Action.bind_ok removes]
              exact Action.bind_ok removed
          | error error =>
              rw [Action.bind_error removes]
              exact Action.bind_error removed

theorem uninstall_refused
    (refused : ¬∃ registry record, UninstallGoes host config disks.acting world pluginId registry record) :
    ∃ error, uninstall host config disks pluginId world = (.error error, world) := by
  suffices files : ∃ error, uninstallFiles host config disks pluginId world = (.error error, world) by
    obtain ⟨error, failed⟩ := files
    exact ⟨error, Action.bind_error failed⟩
  obtain ⟨registry, record, read, recorded⟩ | none := @readRecord δ host disks.acting world pluginId
  · have loads : loadRegistry host disks.acting world = (.ok registry, world) := by
      rw [loadRegistry_eq, read]
    have begins : uninstallFiles host config disks pluginId world = _ :=
      (Action.bind_ok loads).trans (Action.bind_ok (installedRecord_ok recorded))
    rw [begins]
    split
    · exact ⟨_, rfl⟩
    · rename_i kind
      obtain ⟨error, failed⟩ := @ensureManaged_error δ host config disks.acting world
        record.installPath (fun managed => refused ⟨registry, record, read, recorded, kind, managed⟩)
        "uninstall"
      exact ⟨error, Action.bind_error failed⟩
  · exact none _

theorem uninstall_clean_iff
    (rereads : ∀ registry text, host.registryToStringPretty registry = .ok text →
      registryOf host (.text text) = .ok registry) :
    FailsClean host config disks (.uninstall pluginId) world ↔
      FailsSafely host config disks world (.uninstall pluginId) := by
  by_cases goes : ∃ registry record, UninstallGoes host config disks.acting world pluginId registry record
  · obtain ⟨registry, record, goes⟩ := goes
    have only : FailsSafely host config disks world (.uninstall pluginId) ↔
        UninstallSafe host config disks.acting world pluginId registry record.installPath := by
      constructor
      · intro safe
        exact safe registry record goes
      · intro safe other found again
        cases goes.read.symm.trans again.read
        cases goes.recorded.symm.trans again.recorded
        exact safe
    rw [only]
    have files := uninstallFiles_goes goes
    cases standing : standingLeft disks.acting record.installPath
        (world.directories.get record.installPath) with
    | some left =>
        obtain ⟨error, failed⟩ := removeStanding_left standing
        have fails : perform host config disks (.uninstall pluginId) world =
            (.error error, world.left record.installPath left world.registry world.settings) :=
          Action.bind_error (files.trans (Action.bind_error failed))
        rw [failsClean_iff fails, unchanged_left_iff]
        constructor
        · rintro ⟨same, -⟩
          refine ⟨fun _ here => ?_, fun done => ?_, fun done => ?_⟩
          · cases standing.symm.trans here
            exact same
          · cases standing.symm.trans done
          · cases standing.symm.trans done
        · intro safe
          exact ⟨safe.removal left standing, rfl, rfl⟩
    | none =>
        rw [Action.bind_ok (removeStanding_done standing)] at files
        cases stores : registryLeft host disks.acting ⟨registry.plugins.remove pluginId⟩ world.registry with
        | some left =>
            obtain ⟨error, failed⟩ := @storeRegistry_left δ host disks.acting
              (world.setDirectory record.installPath none) _ left stores
            have fails : perform host config disks (.uninstall pluginId) world =
                (.error error, world.left record.installPath none left world.settings) :=
              Action.bind_error (files.trans failed)
            rw [failsClean_iff fails, unchanged_left_iff]
            constructor
            · rintro ⟨same, kept, -⟩
              refine ⟨fun _ here => ?_, fun _ _ here => ?_, fun _ done => ?_⟩
              · cases standing.symm.trans here
              · cases stores.symm.trans here
                exact ⟨same.symm, kept⟩
              · cases stores.symm.trans done
            · intro safe
              obtain ⟨same, kept⟩ := safe.store standing left stores
              exact ⟨same.symm, kept, rfl⟩
        | none =>
            obtain ⟨text, written, done⟩ := @storeRegistry_done δ host disks.acting
              (world.setDirectory record.installPath none) _ _ stores
            have goesOn : perform host config disks (.uninstall pluginId) world = _ :=
              Action.bind_ok (files.trans done)
            cases settings : settingsLeft host config disks.acting pluginId none world.settings with
            | none =>
                refine ⟨fun _ => ⟨fun _ here => ?_, fun _ _ here => ?_, fun _ _ => settings⟩, fun _ => ?_⟩
                · cases standing.symm.trans here
                · cases stores.symm.trans here
                · exact failsClean_of_ok (goesOn ▸ rememberEnabled_done settings)
            | some file =>
                obtain ⟨error, failed⟩ := @rememberEnabled_left δ host config disks.acting
                  { world.setDirectory record.installPath none with registry := .text text }
                  pluginId none file settings
                have fails : perform host config disks (.uninstall pluginId) world =
                    (.error error, world.left record.installPath none (.text text) file) :=
                  goesOn.trans failed
                rw [failsClean_iff fails, unchanged_left_iff]
                constructor
                · rintro ⟨-, kept, -⟩
                  exfalso
                  rw [rereads _ text written, registryOf_read goes.read] at kept
                  have without := congrArg (·.plugins.get pluginId) (Except.ok.inj kept)
                  simp only [OrderedMap.get_remove, goes.recorded] at without
                  cases without
                · intro safe
                  cases settings.symm.trans (safe.settings standing stores)
  · obtain ⟨error, failed⟩ := uninstall_refused goes
    have fails : perform host config disks (.uninstall pluginId) world = (.error error, world) := failed
    rw [failsClean_iff fails]
    exact ⟨fun _ registry record again => absurd ⟨registry, record, again⟩ goes, fun _ => .refl world⟩

end Uninstall

/-! ## Preparing -/

/-- A program that only reads leaves the world. -/
theorem of_reads {α : Type} {act : PluginAction δ α} (reads : ∀ kept, Keeps (· = kept) act)
    (world : World δ) : act world = ((act world).1, world) :=
  Prod.ext rfl (reads world world rfl)

theorem step_reads (step : DiskStep) (kept : World δ) : Keeps (· = kept) (disk.step step) := by
  unfold PluginDisk.step
  split
  · exact .pure ()
  · exact .fail _

theorem parse_reads (source : String) (kept : World δ) :
    Keeps (· = kept) (parseInstallSource host source) := by
  unfold parseInstallSource
  split
  · split
    · exact .fail _
    · exact .pure _
  · refine .bind ?_ fun path => .pure _
    refine Keeps.bind (fun _ held => held) fun there => ?_
    split
    · exact .pure _
    · exact .fail _

theorem prepare_reads (source : PluginInstallSource) (kept : World δ) :
    Keeps (· = kept) (preparePluginSource host config disk source) := by
  have stages : Keeps (· = kept) (materializeSource config disk source) := by
    refine .bind (step_reads _ kept) fun _ => ?_
    split
    · exact .bind .get fun _ => .pure _
    · exact Keeps.bind (fun _ held => held) fun _ => .pure _
  exact .bind stages fun staged => Keeps.bind (fun _ held => held) fun manifest =>
    .bind (step_reads _ kept) fun _ => .bind (.orFail _ _) fun _ => .pure _

/-! ## `update` -/

section Update

variable {pluginId : String} {registry : InstalledPluginRegistry} {record : InstalledPluginRecord}
  {prepared : Prepared δ}

theorem update_refused (refused : ¬∃ registry record prepared,
      UpdateGoes host config disks.acting world pluginId registry record prepared) :
    ∃ error, update host config disks pluginId world = (.error error, world) := by
  obtain ⟨registry, record, read, recorded⟩ | none := @readRecord δ host disks.acting world pluginId
  · have loads : loadRegistry host disks.acting world = (.ok registry, world) := by
      rw [loadRegistry_eq, read]
    have begins : update host config disks pluginId world = _ :=
      (Action.bind_ok loads).trans (Action.bind_ok (installedRecord_ok recorded))
    rw [begins]
    by_cases managed : Managed config disks.acting record.installPath
    · rw [Action.bind_ok (ensureManaged_ok managed "update")]
      have prepares := of_reads (fun kept =>
        @prepare_reads δ host config disks.acting record.source kept) world
      cases result : (preparePluginSource host config disks.acting record.source world).1 with
      | error error =>
          rw [result] at prepares
          exact ⟨error, Action.bind_error prepares⟩
      | ok prepared => exact absurd ⟨registry, record, prepared, read, recorded, managed, result⟩ refused
    · obtain ⟨error, failed⟩ := @ensureManaged_error δ host config disks.acting world
        record.installPath managed "update"
      exact ⟨error, Action.bind_error failed⟩
  · exact none _

theorem update_goes
    (goes : UpdateGoes host config disks.acting world pluginId registry record prepared) :
    update host config disks pluginId world =
      (commitPreparedInstall host disks.acting prepared.directory record.installPath >>= fun _ =>
        storeRegistry host disks.acting
          ⟨registry.plugins.insert pluginId (updatedRecord disks.acting record prepared.manifest)⟩ >>=
          fun _ => pure ⟨pluginId, record.version, prepared.manifest.version, prepared.source,
            record.installPath⟩) world := by
  have loads : loadRegistry host disks.acting world = (.ok registry, world) := by
    rw [loadRegistry_eq, goes.read]
  have prepares : preparePluginSource host config disks.acting record.source world =
      (.ok prepared, world) := by
    rw [of_reads (fun kept => prepare_reads record.source kept) world, goes.prepares]
  exact (Action.bind_ok loads).trans ((Action.bind_ok (installedRecord_ok goes.recorded)).trans
    ((Action.bind_ok (ensureManaged_ok goes.managed "update")).trans (Action.bind_ok prepares)))

theorem update_clean_iff :
    FailsClean host config disks (.update pluginId) world ↔
      FailsSafely host config disks world (.update pluginId) := by
  by_cases goes : ∃ registry record prepared,
      UpdateGoes host config disks.acting world pluginId registry record prepared
  · obtain ⟨registry, record, prepared, goes⟩ := goes
    have only : FailsSafely host config disks world (.update pluginId) ↔
        UpdateSafe host disks.acting world prepared.directory record.installPath
          ⟨registry.plugins.insert pluginId (updatedRecord disks.acting record prepared.manifest)⟩ := by
      constructor
      · intro safe
        exact safe registry record prepared goes
      · intro safe other found made again
        cases goes.read.symm.trans again.read
        cases goes.recorded.symm.trans again.recorded
        cases goes.prepares.symm.trans again.prepares
        exact safe
    rw [only]
    have whole := update_goes goes
    cases commits : commitLeft disks.acting (world.directories.get record.installPath) with
    | some left =>
        obtain ⟨error, failed⟩ := @commit_left δ host disks.acting world prepared.directory
          record.installPath left commits
        have fails : perform host config disks (.update pluginId) world =
            (.error error, world.left record.installPath left world.registry world.settings) :=
          Action.bind_error (whole.trans (Action.bind_error failed))
        rw [failsClean_iff fails, unchanged_left_iff]
        constructor
        · rintro ⟨same, -⟩
          refine ⟨fun _ here => ?_, fun done => ?_⟩
          · cases commits.symm.trans here
            exact same
          · cases commits.symm.trans done
        · intro safe
          exact ⟨safe.commit left commits, rfl, rfl⟩
    | none =>
        rw [Action.bind_ok (commit_done commits)] at whole
        cases stores : registryLeft host disks.acting ⟨registry.plugins.insert pluginId
            (updatedRecord disks.acting record prepared.manifest)⟩ world.registry with
        | some left =>
            obtain ⟨error, failed⟩ := @storeRegistry_left δ host disks.acting
              (world.setDirectory record.installPath (some prepared.directory)) _ left stores
            have fails : perform host config disks (.update pluginId) world =
                (.error error, world.left record.installPath (some prepared.directory) left
                  world.settings) :=
              Action.bind_error (whole.trans (Action.bind_error failed))
            rw [failsClean_iff fails, unchanged_left_iff]
            constructor
            · rintro ⟨same, kept, -⟩
              refine ⟨fun _ here => ?_, fun _ _ here => ?_⟩
              · cases commits.symm.trans here
              · cases stores.symm.trans here
                exact ⟨same.symm, kept⟩
            · intro safe
              obtain ⟨same, kept⟩ := safe.store commits left stores
              exact ⟨same.symm, kept, rfl⟩
        | none =>
            obtain ⟨text, -, done⟩ := @storeRegistry_done δ host disks.acting
              (world.setDirectory record.installPath (some prepared.directory)) _ _ stores
            rw [Action.bind_ok done] at whole
            refine ⟨fun _ => ⟨fun _ here => ?_, fun _ _ here => ?_⟩, fun _ => failsClean_of_ok ?_⟩
            · cases commits.symm.trans here
            · cases stores.symm.trans here
            · exact congrArg Prod.fst (Action.bind_ok whole)
  · obtain ⟨error, failed⟩ := update_refused goes
    have fails : perform host config disks (.update pluginId) world = (.error error, world) :=
      Action.bind_error failed
    rw [failsClean_iff fails]
    exact ⟨fun _ registry record prepared again =>
      absurd ⟨registry, record, prepared, again⟩ goes, fun _ => .refl world⟩

end Update

/-! ## `install` -/

section Install

variable {source : String} {installSource : PluginInstallSource} {prepared : Prepared δ}

theorem install_refused (refused : ¬∃ installSource prepared,
      InstallGoes host config disks.acting world source installSource prepared) :
    ∃ error, installFiles host config disks source world = (.error error, world) := by
  have parses := of_reads (fun kept => @parse_reads δ host source kept) world
  cases parsed : (parseInstallSource host source world).1 with
  | error error =>
      rw [parsed] at parses
      exact ⟨error, Action.bind_error parses⟩
  | ok installSource =>
      rw [parsed] at parses
      have prepares := of_reads (fun kept =>
        @prepare_reads δ host config disks.acting installSource kept) world
      cases result : (preparePluginSource host config disks.acting installSource world).1 with
      | error error =>
          rw [result] at prepares
          exact ⟨error, (Action.bind_ok parses).trans (Action.bind_error prepares)⟩
      | ok prepared => exact absurd ⟨installSource, prepared, parsed, result⟩ refused

theorem install_lists (goes : InstallGoes host config disks.acting world source installSource prepared) :
    installFiles host config disks source world =
      (listInstalledPlugins host config disks >>= fun plugins =>
        if plugins.any fun plugin => plugin.metadata.id =
            (installRecord config disks.acting prepared installSource).id then
          Action.fail (.commandFailed ("plugin `" ++
            (installRecord config disks.acting prepared installSource).id ++
            "` is already installed; use `/plugins update " ++
            (installRecord config disks.acting prepared installSource).id ++ "` to refresh it"))
        else installRest host disks.acting prepared
          (installRecord config disks.acting prepared installSource)) world := by
  have parses : parseInstallSource host source world = (.ok installSource, world) := by
    rw [of_reads (fun kept => parse_reads source kept) world, goes.parses]
  have prepares : preparePluginSource host config disks.acting installSource world =
      (.ok prepared, world) := by
    rw [of_reads (fun kept => prepare_reads installSource kept) world, goes.prepares]
  rw [installFiles, Action.bind_ok parses, Action.bind_ok prepares]
  rfl

theorem install_taken (goes : InstallGoes host config disks.acting world source installSource prepared)
    (taken : ¬Unlisted host config disks world (installRecord config disks.acting prepared installSource).id) :
    ∃ error, installFiles host config disks source world =
      (.error error, (listInstalledPlugins host config disks world).2) := by
  cases lists : (listInstalledPlugins host config disks world).1 with
  | error error => exact ⟨error, (install_lists goes).trans (Action.bind_error (Prod.ext lists rfl))⟩
  | ok plugins =>
      have found : (plugins.any fun plugin => plugin.metadata.id =
          (installRecord config disks.acting prepared installSource).id) = true := by
        by_contra absent
        refine taken ⟨plugins, lists, fun plugin member same => absent ?_⟩
        exact List.any_eq_true.2 ⟨plugin, member, by simpa using same⟩
      rw [install_lists goes, Action.bind_ok (Prod.ext lists rfl), found]
      exact ⟨_, rfl⟩

theorem install_goes (goes : InstallGoes host config disks.acting world source installSource prepared)
    (unlisted : Unlisted host config disks world
      (installRecord config disks.acting prepared installSource).id) :
    installFiles host config disks source world =
      installRest host disks.acting prepared (installRecord config disks.acting prepared installSource)
        (listInstalledPlugins host config disks world).2 := by
  obtain ⟨plugins, lists, absent⟩ := unlisted
  have none : (plugins.any fun plugin => plugin.metadata.id =
      (installRecord config disks.acting prepared installSource).id) = false := by
    refine List.any_eq_false.2 fun plugin member same => absent plugin member ?_
    simpa using same
  rw [install_lists goes, Action.bind_ok (Prod.ext lists rfl), none]
  rfl

theorem installDone_ok {listed : World δ} {record : InstalledPluginRecord}
    (files : installFiles host config disks source world =
      installRest host disks.acting prepared record listed)
    (done : InstallDone host config disks.acting listed record.installPath record) :
    (perform host config disks (.install source) world).1 = .ok () := by
  obtain ⟨commits, registry, read, stores, settings⟩ := done
  rw [installRest, Action.bind_ok (commit_done commits)] at files
  have loads : loadRegistry host disks.acting
      (listed.setDirectory record.installPath (some prepared.directory)) =
      (.ok registry, listed.setDirectory record.installPath (some prepared.directory)) :=
    loadRegistry_eq.trans (congrArg (fun result => (result, _)) read)
  obtain ⟨text, -, stored⟩ := @storeRegistry_done δ host disks.acting
    (listed.setDirectory record.installPath (some prepared.directory)) _ _ stores
  rw [Action.bind_ok loads, Action.bind_ok stored] at files
  have remembers := @rememberEnabled_done δ host config disks.acting
    { listed.setDirectory record.installPath (some prepared.directory) with
      registry := .text text } record.id (some true) settings
  have returns : install host config disks source world = _ :=
    (Action.bind_ok files).trans (Action.bind_ok (Prod.ext remembers rfl))
  exact congrArg Prod.fst (Action.bind_ok returns)

/-- **Behind its listing, an install that fails leaves the listed world just when it is safe**. -/
theorem install_rest_iff {listed : World δ} {record : InstalledPluginRecord}
    (rereads : ∀ registry text, host.registryToStringPretty registry = .ok text →
      registryOf host (.text text) = .ok registry)
    (files : installFiles host config disks source world =
      installRest host disks.acting prepared record listed) :
    (∀ error after, perform host config disks (.install source) world = (.error error, after) →
      Unchanged host config listed after) ↔
      InstallSafe host config disks.acting listed prepared.directory record.installPath record := by
  have whole := files
  cases commits : commitLeft disks.acting (listed.directories.get record.installPath) with
  | some left =>
      obtain ⟨error, failed⟩ := @commit_left δ host disks.acting listed prepared.directory
        record.installPath left commits
      have fails : perform host config disks (.install source) world =
          (.error error, listed.left record.installPath left listed.registry listed.settings) :=
        Action.bind_error (Action.bind_error (files.trans (Action.bind_error failed)))
      rw [fails_iff fails, unchanged_left_iff]
      constructor
      · rintro ⟨same, -⟩
        refine ⟨fun _ here => ?_, fun done => ?_, fun done => ?_, fun done => ?_⟩
        · cases commits.symm.trans here
          exact same
        all_goals cases commits.symm.trans done
      · intro safe
        exact ⟨safe.commit left commits, rfl, rfl⟩
  | none =>
      rw [installRest, Action.bind_ok (commit_done commits)] at files
      cases read : registryRead host disks.acting listed.registry with
      | error error =>
          have loads : loadRegistry host disks.acting
              (listed.setDirectory record.installPath (some prepared.directory)) =
              (.error error, listed.left record.installPath (some prepared.directory) listed.registry
                listed.settings) :=
            loadRegistry_eq.trans (congrArg (fun result => (result, _)) read)
          have fails : perform host config disks (.install source) world =
              (.error error, listed.left record.installPath (some prepared.directory) listed.registry
                listed.settings) :=
            Action.bind_error (Action.bind_error (files.trans (Action.bind_error loads)))
          rw [fails_iff fails, unchanged_left_iff]
          constructor
          · rintro ⟨same, -⟩
            refine ⟨fun _ here => ?_, fun _ _ _ => same.symm, fun _ _ here => ?_, fun _ _ here => ?_⟩
            · cases commits.symm.trans here
            all_goals cases read.symm.trans here
          · intro safe
            exact ⟨(safe.read commits error read).symm, rfl, rfl⟩
      | ok registry =>
          have loads : loadRegistry host disks.acting
              (listed.setDirectory record.installPath (some prepared.directory)) =
              (.ok registry, listed.setDirectory record.installPath (some prepared.directory)) :=
            loadRegistry_eq.trans (congrArg (fun result => (result, _)) read)
          rw [Action.bind_ok loads] at files
          cases stores : registryLeft host disks.acting ⟨registry.plugins.insert record.id record⟩
              listed.registry with
          | some left =>
              obtain ⟨error, failed⟩ := @storeRegistry_left δ host disks.acting
                (listed.setDirectory record.installPath (some prepared.directory)) _ left stores
              have fails : perform host config disks (.install source) world =
                  (.error error, listed.left record.installPath (some prepared.directory) left
                    listed.settings) :=
                Action.bind_error (Action.bind_error (files.trans (Action.bind_error failed)))
              rw [fails_iff fails, unchanged_left_iff]
              constructor
              · rintro ⟨same, kept, -⟩
                refine ⟨fun _ here => ?_, fun _ _ here => ?_, fun _ _ again _ here => ?_,
                  fun _ _ again done => ?_⟩
                · cases commits.symm.trans here
                · cases read.symm.trans here
                · cases read.symm.trans again
                  cases stores.symm.trans here
                  exact ⟨same.symm, kept⟩
                · cases read.symm.trans again
                  cases stores.symm.trans done
              · intro safe
                obtain ⟨same, kept⟩ := safe.store commits registry read left stores
                exact ⟨same.symm, kept, rfl⟩
          | none =>
              obtain ⟨text, written, done⟩ := @storeRegistry_done δ host disks.acting
                (listed.setDirectory record.installPath (some prepared.directory)) _ _ stores
              rw [Action.bind_ok done] at files
              cases settings : settingsLeft host config disks.acting record.id (some true)
                  listed.settings with
              | none =>
                  constructor
                  · intro _
                    refine ⟨fun _ here => ?_, fun _ _ here => ?_, fun _ _ again _ here => ?_,
                      fun _ _ again _ _ here => ?_⟩
                    · cases commits.symm.trans here
                    · cases read.symm.trans here
                    · cases read.symm.trans again
                      cases stores.symm.trans here
                    · cases settings.symm.trans here
                  · intro _
                    exact fails_of_ok (installDone_ok whole ⟨commits, registry, read, stores, settings⟩)
              | some file =>
                  obtain ⟨error, failed⟩ := @rememberEnabled_left δ host config disks.acting
                    { listed.setDirectory record.installPath (some prepared.directory) with
                      registry := .text text } record.id (some true) file settings
                  have fails : perform host config disks (.install source) world =
                      (.error error, listed.left record.installPath (some prepared.directory)
                        (.text text) file) :=
                    Action.bind_error ((Action.bind_ok files).trans (Action.bind_error failed))
                  rw [fails_iff fails, unchanged_left_iff, rereads _ text written,
                    registryOf_read read]
                  constructor
                  · rintro ⟨same, kept, state⟩
                    have inserted := congrArg (·.plugins) (Except.ok.inj kept)
                    refine ⟨fun _ here => ?_, fun _ _ here => ?_, fun _ _ again _ here => ?_,
                      fun _ _ again _ _ here => ?_⟩
                    · cases commits.symm.trans here
                    · cases read.symm.trans here
                    · cases read.symm.trans again
                      cases stores.symm.trans here
                    · cases read.symm.trans again
                      cases settings.symm.trans here
                      exact ⟨same.symm, OrderedMap.insert_eq_iff.1 inserted, state⟩
                  · intro safe
                    obtain ⟨same, recorded, state⟩ :=
                      safe.settings commits registry read stores file settings
                    refine ⟨same.symm, ?_, state⟩
                    rw [OrderedMap.insert_eq_iff.2 recorded]

theorem install_clean
    (rereads : ∀ registry text, host.registryToStringPretty registry = .ok text →
      registryOf host (.text text) = .ok registry) :
    (FailsSafely host config disks world (.install source) →
      FailsClean host config disks (.install source) world) ∧
    (Unchanged host config world (listInstalledPlugins host config disks world).2 →
      FailsClean host config disks (.install source) world →
        FailsSafely host config disks world (.install source)) := by
  by_cases goes : ∃ installSource prepared,
      InstallGoes host config disks.acting world source installSource prepared
  · obtain ⟨installSource, prepared, goes⟩ := goes
    by_cases unlisted : Unlisted host config disks world
        (installRecord config disks.acting prepared installSource).id
    · have files := install_goes goes unlisted
      have rest := install_rest_iff rereads files
      constructor
      · intro safe
        obtain ⟨quiet | ⟨-, done⟩, tail⟩ := safe installSource prepared goes
        · intro error after failed
          exact quiet.trans (rest.2 (tail unlisted) error after failed)
        · exact failsClean_of_ok (installDone_ok files done)
      · intro quiet clean other made again
        cases goes.parses.symm.trans again.parses
        cases goes.prepares.symm.trans again.prepares
        refine ⟨.inl quiet, fun _ => rest.1 fun error after failed => ?_⟩
        exact quiet.symm.trans (clean error after failed)
    · obtain ⟨error, failed⟩ := install_taken goes unlisted
      have fails : perform host config disks (.install source) world =
          (.error error, (listInstalledPlugins host config disks world).2) :=
        Action.bind_error (Action.bind_error failed)
      rw [failsClean_iff fails]
      constructor
      · intro safe
        obtain ⟨quiet | ⟨there, -⟩, -⟩ := safe installSource prepared goes
        · exact quiet
        · exact absurd there unlisted
      · intro quiet _ other made again
        cases goes.parses.symm.trans again.parses
        cases goes.prepares.symm.trans again.prepares
        exact ⟨.inl quiet, fun there => absurd there unlisted⟩
  · obtain ⟨error, failed⟩ := install_refused goes
    have fails : perform host config disks (.install source) world = (.error error, world) :=
      Action.bind_error (Action.bind_error failed)
    rw [failsClean_iff fails]
    exact ⟨fun _ => .refl world, fun _ _ installSource prepared again =>
      absurd ⟨installSource, prepared, again⟩ goes⟩

end Install

end Calls

def demoId : String := "demo@external"

def demoManifest : PluginManifest := ⟨"demo", "1.0.0", "demo plugin", true⟩

def demoPath : Location := bareConfig.installRoot ++ ["demo-external"]

def demoRegistry : InstalledPluginRegistry :=
  ⟨OrderedMap.empty.insert demoId
    { kind := .external
      id := demoId
      name := "demo"
      version := "1.0.0"
      description := "demo plugin"
      installPath := demoPath
      source := .localPath ["work", "demo"]
      installedAtUnixMs := 1
      updatedAtUnixMs := 1 }⟩

def demoRegistryText : String :=
  "\x7b\"plugins\":\x7b\"" ++ (demoId ++
    ("\":\x7b\"kind\":\"external\",\"id\":\"demo@external\",\"name\":\"demo\",\"version\":\"1.0.0\"," ++
      "\"description\":\"demo plugin\"," ++
      "\"install_path\":\"/home/.openyak/plugins/installed/demo-external\"," ++
      "\"source\":\x7b\"type\":\"local_path\",\"path\":\"/work/demo\"\x7d," ++
      "\"installed_at_unix_ms\":1,\"updated_at_unix_ms\":1\x7d\x7d\x7d"))

def emptyRegistryText : String := "\x7b\n  \"plugins\": \x7b\x7d\n\x7d"

/-- A host that reads the registry with the plugin, and reads and writes the empty one. -/
def demoHost : PluginHost PluginManifest :=
  { bareHost with
    registryFromStr := fun text =>
      if text = demoRegistryText then .ok demoRegistry
      else if text = emptyRegistryText then .ok {}
      else .error "expected value"
    registryToStringPretty := fun registry =>
      if registry = {} then .ok emptyRegistryText else .error "key must be a string" }

def demoWorld (settings : FileRead) : World PluginManifest where
  directories := OrderedMap.empty.insert demoPath demoManifest
  registry := .text demoRegistryText
  settings := settings
  enabledPlugins := OrderedMap.empty.insert demoId true

theorem demoRegistry_read : registryOf demoHost (.text demoRegistryText) = .ok demoRegistry := by
  have brace : '{' ∈ demoRegistryText.toList := by
    rw [demoRegistryText, String.toList_append]
    exact List.mem_append_left _ List.mem_cons_self
  rw [registryOf, if_neg (Openyak.Runtime.solid_of_brace brace)]
  simp only [demoHost, if_pos]
  rfl

theorem demoHost_rereads (registry : InstalledPluginRegistry) (text : String)
    (written : demoHost.registryToStringPretty registry = .ok text) :
    registryOf demoHost (.text text) = .ok registry := by
  simp only [demoHost] at written
  split at written
  · rename_i same
    cases written
    have other : emptyRegistryText ≠ demoRegistryText := by
      intro equal
      have outside : '@' ∉ emptyRegistryText.toList := by decide
      apply outside
      rw [equal, demoRegistryText, String.toList_append, String.toList_append]
      exact List.mem_append_right _ (List.mem_append_left _ (by decide))
    have solid : Text.trim emptyRegistryText.toList ≠ [] := by decide +kernel
    rw [same, registryOf, if_neg solid]
    simp only [demoHost, if_neg other, if_pos]
    rfl
  · cases written

theorem demo_uninstallGoes (disks : CallDisk PluginManifest) (settings : FileRead)
    (sound : disks.acting.fails = fun _ => none) : ∃ record,
    UninstallGoes demoHost bareConfig disks.acting (demoWorld settings) demoId demoRegistry record ∧
      record.installPath = demoPath := by
  refine ⟨_, ⟨?_, OrderedMap.get_insert _ _ _, nofun, ?_⟩, rfl⟩
  · rw [registryRead, sound]
    exact demoRegistry_read
  · rw [Managed, sound]
    exact ⟨rfl, rfl, by decide⟩

theorem demoWorld_holds (settings : FileRead) :
    (demoWorld settings).directories.get demoPath = some demoManifest := OrderedMap.get_insert _ _ _

/-- Removals fail and leave what is there. -/
def busyDisks : CallDisk PluginManifest :=
  { soundDisks with
    acting := { soundDisk with removal := fun _ => some ("Device or resource busy", some demoManifest) } }

theorem busy_standing (settings : FileRead) :
    standingLeft busyDisks.acting demoPath ((demoWorld settings).directories.get demoPath) =
      some (some demoManifest) := by
  rw [demoWorld_holds]
  rfl

end Openyak.Plugins
