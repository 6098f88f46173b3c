/-
# Plugins.Listing -- what a listing of the plugins depends on

A listing reads the directories, the registry and what is enabled in memory, and it
changes the first two.  So from worlds in which these are alike it gives the same and
leaves them alike, and it never touches the settings (`listPlugins_agrees`).
-/
import Openyak.Plugins.PluginManager

namespace Openyak.Plugins

open Openyak.Theory
open Openyak.Theory.Action
open Openyak.Theory.Posix (Location)
open Openyak.Runtime (FileRead)

set_option autoImplicit false

variable {δ : Type} {host : PluginHost δ} {config : PluginManagerConfig}

/-- Two worlds that differ in their settings, and maybe in the text of the registry. -/
structure WorldsAlike (host : PluginHost δ) (settings others : FileRead)
    (enabledPlugins : OrderedMap String Bool) (left right : World δ) : Prop where
  directories : left.directories = right.directories
  registry : registryOf host left.registry = registryOf host right.registry
  leftSettings : left.settings = settings
  rightSettings : right.settings = others
  memory : left.enabledPlugins = enabledPlugins ∧ right.enabledPlugins = enabledPlugins

section Steps

variable {settings others : FileRead} {enabledPlugins : OrderedMap String Bool}
  {disk : PluginDisk δ} {disks : CallDisk δ}

theorem step_agrees (step : DiskStep) :
    Agrees (WorldsAlike host settings others enabledPlugins) (disk.step step) := by
  unfold PluginDisk.step
  split
  · exact .pure ()
  · exact .fail _

theorem ofExcept_agrees {α : Type} (result : Except PluginError α) :
    Agrees (WorldsAlike host settings others enabledPlugins) (ofExcept result) := fun _ _ same => ⟨rfl, same⟩

theorem directoryExists_agrees (path : Location) :
    Agrees (WorldsAlike host settings others enabledPlugins) (directoryExists path) := by
  intro left right same
  refine ⟨?_, same⟩
  show Except.ok _ = Except.ok _
  rw [same.directories]

theorem setDirectory_alike {left right : World δ} (path : Location) (held : Option δ)
    (same : WorldsAlike host settings others enabledPlugins left right) :
    WorldsAlike host settings others enabledPlugins (left.setDirectory path held)
      (right.setDirectory path held) where
  directories := by
    show held.elim _ _ = held.elim _ _
    rw [same.directories]
  registry := same.registry
  leftSettings := same.leftSettings
  rightSettings := same.rightSettings
  memory := same.memory

theorem removeDirAll_agrees (path : Location) :
    Agrees (WorldsAlike host settings others enabledPlugins) (removeDirAll disk path) := by
  intro left right same
  unfold removeDirAll
  split
  · exact ⟨rfl, setDirectory_alike path none same⟩
  · exact ⟨rfl, setDirectory_alike path _ same⟩

theorem copyDirAll_agrees (source : Option δ) (path : Location) :
    Agrees (WorldsAlike host settings others enabledPlugins) (copyDirAll host disk source path) := by
  intro left right same
  unfold copyDirAll
  split
  · exact ⟨rfl, setDirectory_alike path _ same⟩
  · exact ⟨rfl, setDirectory_alike path _ same⟩

theorem loadPlugin_agrees (root : Location) :
    Agrees (WorldsAlike host settings others enabledPlugins) (loadPluginFromDirectory host disk root) := by
  intro left right same
  refine ⟨?_, same⟩
  show loadManifest host disk root _ = loadManifest host disk root _
  rw [same.directories]

theorem discoverPluginDirs_agrees (root : Location) :
    Agrees (WorldsAlike host settings others enabledPlugins) (discoverPluginDirs host disk root) := by
  refine .bind (step_agrees _) fun _ left right same => ⟨?_, same⟩
  show Except.ok _ = Except.ok _
  rw [same.directories]

theorem loadRegistry_agrees :
    Agrees (WorldsAlike host settings others enabledPlugins) (loadRegistry host disk) :=
  .bind (step_agrees _) fun _ _ _ same => ⟨same.registry, same⟩

theorem writeRegistryFile_agrees (text : String) :
    Agrees (WorldsAlike host settings others enabledPlugins) (writeRegistryFile disk text) := by
  intro left right same
  unfold writeRegistryFile
  split
  · exact ⟨rfl, same.directories, rfl, same.leftSettings, same.rightSettings, same.memory⟩
  · exact ⟨rfl, same.directories, rfl, same.leftSettings, same.rightSettings, same.memory⟩

theorem storeRegistry_agrees (registry : InstalledPluginRegistry) :
    Agrees (WorldsAlike host settings others enabledPlugins) (storeRegistry host disk registry) :=
  .bind (step_agrees _) fun _ => .bind (ofExcept_agrees _) fun text => writeRegistryFile_agrees text

theorem ensureManaged_agrees (path : Location) (action : String) :
    Agrees (WorldsAlike host settings others enabledPlugins)
      (ensureManagedInstallPath host config disk path action) :=
  .bind (step_agrees _) fun _ => .bind (step_agrees _) fun _ => .ite (.pure ()) (.fail _)

/-! ## Bundled plugins -/

theorem replaceDirectory_agrees (sourceRoot installPath : Location) :
    Agrees (WorldsAlike host settings others enabledPlugins)
      (replaceDirectory host disk sourceRoot installPath) := by
  have copies : Agrees (WorldsAlike host settings others enabledPlugins) (Action.get >>= fun world =>
      copyDirAll host disk (world.directories.get sourceRoot) installPath) := by
    refine .get_bind ?_ fun world => copyDirAll_agrees _ installPath
    intro left right same
    rw [same.directories]
  refine .bind (directoryExists_agrees installPath) fun there => ?_
  split
  · exact .bind (removeDirAll_agrees installPath) fun _ => copies
  · exact copies

theorem syncPlugin_agrees (synced : Synced) (sourceRoot : Location) :
    Agrees (WorldsAlike host settings others enabledPlugins)
      (syncPlugin host config disk synced sourceRoot) := by
  refine .bind (loadPlugin_agrees sourceRoot) fun manifest => .get_bind ?_ fun world => ?_
  · intro left right same
    simp only [same.directories]
  · exact .ite (.bind (replaceDirectory_agrees _ _) fun _ => .pure _) (.pure _)

theorem pruneBundled_agrees (registry : InstalledPluginRegistry) (id : String) :
    Agrees (WorldsAlike host settings others enabledPlugins)
      (pruneBundled host config disk registry id) := by
  unfold pruneBundled
  split
  · exact .pure _
  · exact .bind (.attempt (ensureManaged_agrees _ _)) fun managed =>
      .bind (directoryExists_agrees _) fun there =>
        .ite (.bind (removeDirAll_agrees _) fun _ => .pure _) (.pure _)

theorem syncBundledPlugins_agrees :
    Agrees (WorldsAlike host settings others enabledPlugins) (syncBundledPlugins host config disk) := by
  refine .bind (discoverPluginDirs_agrees _) fun sources => .bind loadRegistry_agrees fun registry =>
    .bind (.foldlM syncPlugin_agrees _) fun synced => .bind (.foldlM pruneBundled_agrees _) fun _ => ?_
  split
  · exact storeRegistry_agrees _
  · exact .pure ()

/-! ## Installed plugins -/

theorem loadDefinition_agrees (root : Location) (kind : PluginKind) (source marketplace : String) :
    Agrees (WorldsAlike host settings others enabledPlugins)
      (loadPluginDefinition host disk root kind source marketplace) :=
  .bind (loadPlugin_agrees root) fun _ => .pure _

theorem discoverDirectory_agrees (registry : InstalledPluginRegistry) (discovered : Discovered)
    (installPath : Location) : Agrees (WorldsAlike host settings others enabledPlugins)
      (discoverDirectory host disk registry discovered installPath) :=
  .bind (loadDefinition_agrees _ _ _ _) fun _ => .pure _

theorem discoverRecord_agrees (discovered : Discovered) (record : InstalledPluginRecord) :
    Agrees (WorldsAlike host settings others enabledPlugins)
      (discoverRecord host disk discovered record) := by
  unfold discoverRecord
  split
  · exact .pure _
  · refine .get_bind ?_ fun world => ?_
    · intro left right same
      simp only [same.directories]
    · split
      · exact .pure _
      · exact .bind (loadDefinition_agrees _ _ _ _) fun _ => .pure _

theorem discoverInstalled_agrees :
    Agrees (WorldsAlike host settings others enabledPlugins) (discoverInstalledPlugins host config disk) := by
  refine .bind loadRegistry_agrees fun registry => .bind (discoverPluginDirs_agrees _) fun paths =>
    .bind (.foldlM (discoverDirectory_agrees registry) _) fun inRoot =>
      .bind (.foldlM discoverRecord_agrees _) fun discovered => ?_
  split
  · exact .bind (storeRegistry_agrees _) fun _ => .pure _
  · exact .pure _

theorem discoverExternalDirectory_agrees (plugins : List PluginMetadata) (directory : Location) :
    Agrees (WorldsAlike host settings others enabledPlugins)
      (discoverExternalDirectory host disk plugins directory) :=
  .bind (discoverPluginDirs_agrees directory) fun _ =>
    .foldlM (fun _ _ => .bind (loadDefinition_agrees _ _ _ _) fun _ => .pure _) plugins

/-! ## Listings -/

theorem summaries_agrees (plugins : List PluginMetadata) :
    Agrees (WorldsAlike host settings others enabledPlugins)
      (do
        let world ← Action.get
        return summaries world.enabledPlugins plugins : PluginAction δ (List PluginSummary)) := by
  refine .get_bind ?_ fun world => .pure _
  intro left right same
  rw [same.memory.1, same.memory.2]

/-- **A listing depends on the directories, the registry and what is enabled in memory**,
and of these it leaves the last as it was, like the settings. -/
theorem listPlugins_agrees :
    Agrees (WorldsAlike host settings others enabledPlugins) (listPlugins host config disks) :=
  .bind (.bind syncBundledPlugins_agrees fun _ => .bind discoverInstalled_agrees fun _ =>
    .foldlM discoverExternalDirectory_agrees _) summaries_agrees

theorem ensureKnown_agrees (pluginId : String) :
    Agrees (WorldsAlike host settings others enabledPlugins) (ensureKnownPlugin host config disks pluginId) :=
  .bind listPlugins_agrees fun _ => .ite (.pure ()) (.fail _)

end Steps

/-- What a program that so depends leaves as it was. -/
theorem held_of_agrees {α : Type} {act : PluginAction δ α}
    (agrees : ∀ settings others enabledPlugins, Agrees (WorldsAlike host settings others enabledPlugins) act)
    (world : World δ) : (act world).2.settings = world.settings ∧
      (act world).2.enabledPlugins = world.enabledPlugins := by
  have same := (agrees world.settings world.settings world.enabledPlugins world world
    ⟨rfl, rfl, rfl, rfl, rfl, rfl⟩).2
  exact ⟨same.leftSettings, same.memory.1⟩

end Openyak.Plugins
