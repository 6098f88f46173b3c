/-
# Plugins.CallSteps -- what the steps of a call leave

One lemma for each step that changes something: the stores of the registry and of the
settings come to their write or change nothing (`storeRegistry_eq`, `writeEnabled_eq`).

`registryLeft`, `settingsLeft`, `standingLeft` and `commitLeft` say what a step leaves in
its place where it fails, and `none` where it is done.  The worlds after the steps are then
`storeRegistry_left` and `storeRegistry_done`, and so on for the others.
-/
import Openyak.Plugins.Listing

namespace Openyak.Plugins

open Openyak.Theory
open Openyak.Theory.Posix (Location)
open Openyak.Runtime (FileRead SerdeMap)

set_option autoImplicit false

variable {δ : Type} (host : PluginHost δ) (config : PluginManagerConfig)

/-! ## Files -/

/-- The text that a store of the registry writes, if it comes to that. -/
def registryText (disk : PluginDisk δ) (registry : InstalledPluginRegistry) : Option String :=
  match disk.fails .createRegistryParent with
  | none => (host.registryToStringPretty registry).toOption
  | some _ => none

/-- The text that an update of the settings writes, if it comes to that. -/
def settingsText (disk : PluginDisk δ) (pluginId : String) (enabled : Option Bool) (file : FileRead) :
    Option String :=
  match disk.fails .createSettingsParent, disk.fails .readSettings with
  | none, none =>
      (settingsOf host config.settingsPath file).toOption.bind fun root =>
        (host.serde.toStringPretty (updateEnabled pluginId enabled root)).toOption
  | _, _ => none

variable {host config} {disk : PluginDisk δ} {world : World δ}

theorem step_ok {step : DiskStep} (done : disk.fails step = none) :
    disk.step step world = (.ok (), world) := by
  rw [PluginDisk.step, done]
  rfl

theorem step_error {step : DiskStep} {error : String} (failed : disk.fails step = some error) :
    disk.step step world = (.error (.io error), world) := by
  rw [PluginDisk.step, failed]
  rfl

theorem storeRegistry_eq (registry : InstalledPluginRegistry) :
    (∃ text, registryText host disk registry = some text ∧
      storeRegistry host disk registry world = writeRegistryFile disk text world) ∨
    registryText host disk registry = none ∧
      ∃ error, storeRegistry host disk registry world = (.error error, world) := by
  rw [registryText]
  cases parent : disk.fails .createRegistryParent with
  | some error => exact .inr ⟨rfl, _, Action.bind_error (step_error parent)⟩
  | none =>
      have goes : storeRegistry host disk registry world = _ := Action.bind_ok (step_ok parent)
      rw [goes]
      cases written : host.registryToStringPretty registry with
      | error error => exact .inr ⟨rfl, .json error, rfl⟩
      | ok text => exact .inl ⟨text, rfl, rfl⟩

theorem writeEnabled_eq (pluginId : String) (enabled : Option Bool) :
    (∃ root text, settingsOf host config.settingsPath world.settings = .ok root ∧
      host.serde.toStringPretty (updateEnabled pluginId enabled root) = .ok text ∧
      settingsText host config disk pluginId enabled world.settings = some text ∧
      writeEnabledState host config disk pluginId enabled world = writeSettingsFile disk text world) ∨
    settingsText host config disk pluginId enabled world.settings = none ∧
      ∃ error, writeEnabledState host config disk pluginId enabled world = (.error error, world) := by
  rw [settingsText]
  cases parent : disk.fails .createSettingsParent with
  | some error => exact .inr ⟨rfl, _, Action.bind_error (step_error parent)⟩
  | none =>
      have first : writeEnabledState host config disk pluginId enabled world = _ :=
        Action.bind_ok (step_ok parent)
      rw [first]
      cases reads : disk.fails .readSettings with
      | some error => exact .inr ⟨rfl, _, Action.bind_error (step_error reads)⟩
      | none =>
          rw [Action.bind_ok (step_ok reads)]
          cases root : settingsOf host config.settingsPath world.settings with
          | error error =>
              have failed : readSettingsFile host config.settingsPath world = (.error error, world) :=
                congrArg (fun result => (result, world)) root
              exact .inr ⟨rfl, error, Action.bind_error failed⟩
          | ok held =>
              have loaded : readSettingsFile host config.settingsPath world = (.ok held, world) :=
                congrArg (fun result => (result, world)) root
              rw [Action.bind_ok loaded]
              cases written : host.serde.toStringPretty (updateEnabled pluginId enabled held) with
              | error error =>
                  refine .inr ⟨?_, .json error, ?_⟩
                  · simp [Except.toOption, written]
                  · exact Action.bind_error rfl
              | ok text =>
                  refine .inl ⟨held, text, rfl, written, ?_, ?_⟩
                  · simp [Except.toOption, written]
                  · exact Action.bind_ok rfl

/-! ## What is left -/

section Left

variable (host config) (disk)

/-- What `load_registry` reads from the file. -/
def registryRead (file : FileRead) : Except PluginError InstalledPluginRegistry :=
  match disk.fails .readRegistry with
  | some error => .error (.io error)
  | none => registryOf host file

/-- The registry file behind a store that fails. -/
def registryLeft (registry : InstalledPluginRegistry) (file : FileRead) : Option FileRead :=
  match registryText host disk registry with
  | none => some file
  | some _ => disk.writeRegistry.map Prod.snd

/-- The settings behind an update that fails. -/
def settingsLeft (pluginId : String) (enabled : Option Bool) (file : FileRead) : Option FileRead :=
  match settingsText host config disk pluginId enabled file with
  | none => some file
  | some _ => disk.writeSettings.map Prod.snd

/-- What stands at the path behind a removal that fails. -/
def standingLeft (path : Location) (held : Option δ) : Option (Option δ) :=
  held.bind fun _ => (disk.removal path).map Prod.snd

/-- What stands at the path behind a move that fails: what was moved aside, if it is moved
back. -/
def moveInLeft (held : Option δ) : Option (Option δ) :=
  (disk.fails .moveIn).map fun _ => if (disk.fails .moveBack).isSome then none else held

/-- What stands at the path behind a commit that fails. -/
def commitLeft (held : Option δ) : Option (Option δ) :=
  if (disk.fails .createInstallParent).isSome then some held
  else if held.isSome ∧ (disk.fails .moveAside).isSome then some held
  else moveInLeft disk held

/-- The path is one that the manager may change. -/
def Managed (path : Location) : Prop :=
  disk.fails (.resolve config.installRoot) = none ∧ disk.fails (.resolve path) = none ∧
    config.installRoot <+: path

end Left

theorem loadRegistry_eq :
    loadRegistry host disk world = (registryRead host disk world.registry, world) := by
  rw [registryRead]
  cases reads : disk.fails .readRegistry with
  | some error => exact Action.bind_error (step_error reads)
  | none => exact Action.bind_ok (step_ok reads)

theorem storeRegistry_left {registry : InstalledPluginRegistry} {left : FileRead}
    (fails : registryLeft host disk registry world.registry = some left) :
    ∃ error, storeRegistry host disk registry world = (.error error, { world with registry := left }) := by
  rw [registryLeft] at fails
  obtain ⟨text, written, stores⟩ | ⟨written, error, stores⟩ :=
    @storeRegistry_eq δ host disk world registry
  · rw [written] at fails
    obtain ⟨⟨error, _⟩, writes, rfl⟩ := Option.map_eq_some_iff.1 fails
    refine ⟨.io error, stores.trans ?_⟩
    rw [writeRegistryFile, writes]
  · rw [written] at fails
    cases fails
    exact ⟨error, stores⟩

theorem storeRegistry_done {registry : InstalledPluginRegistry} {file : FileRead}
    (done : registryLeft host disk registry file = none) :
    ∃ text, host.registryToStringPretty registry = .ok text ∧
      storeRegistry host disk registry world = (.ok (), { world with registry := .text text }) := by
  rw [registryLeft] at done
  obtain ⟨text, written, stores⟩ | ⟨written, error, stores⟩ :=
    @storeRegistry_eq δ host disk world registry
  · rw [written] at done
    refine ⟨text, ?_, stores.trans ?_⟩
    · rw [registryText] at written
      split at written
      · cases result : host.registryToStringPretty registry with
        | ok value =>
            rw [result] at written
            cases written
            rfl
        | error error =>
            rw [result] at written
            cases written
      · cases written
    · rw [writeRegistryFile, Option.map_eq_none_iff.1 done]
  · rw [written] at done
    cases done

theorem rememberEnabled_left {pluginId : String} {enabled : Option Bool} {left : FileRead}
    (fails : settingsLeft host config disk pluginId enabled world.settings = some left) :
    ∃ error, rememberEnabled host config disk pluginId enabled world =
      (.error error, { world with settings := left }) := by
  rw [settingsLeft] at fails
  obtain ⟨_, text, -, -, written, writes⟩ | ⟨written, error, writes⟩ :=
    @writeEnabled_eq δ host config disk world pluginId enabled
  · rw [written] at fails
    obtain ⟨⟨error, _⟩, failed, rfl⟩ := Option.map_eq_some_iff.1 fails
    refine ⟨.io error, Action.bind_error (writes.trans ?_)⟩
    rw [writeSettingsFile, failed]
  · rw [written] at fails
    cases fails
    exact ⟨error, Action.bind_error writes⟩

theorem rememberEnabled_done {pluginId : String} {enabled : Option Bool}
    (done : settingsLeft host config disk pluginId enabled world.settings = none) :
    (rememberEnabled host config disk pluginId enabled world).1 = .ok () := by
  rw [settingsLeft] at done
  obtain ⟨_, text, -, -, written, writes⟩ | ⟨written, error, writes⟩ :=
    @writeEnabled_eq δ host config disk world pluginId enabled
  · rw [written] at done
    rw [writeSettingsFile, Option.map_eq_none_iff.1 done] at writes
    exact congrArg Prod.fst (Action.bind_ok writes)
  · rw [written] at done
    cases done

/-! ## Directories -/

@[simp] theorem setDirectory_held (path : Location) :
    world.setDirectory path (world.directories.get path) = world := by
  have same : (world.directories.get path).elim (world.directories.remove path)
      (world.directories.insert path) = world.directories := by
    cases held : world.directories.get path with
    | none => exact OrderedMap.remove_eq_iff.2 held
    | some directory => exact OrderedMap.insert_eq_iff.2 held
  rw [World.setDirectory, same]

/-- What the path holds, nothing else is about. -/
theorem setDirectory_eq_iff {path : Location} {left : Option δ} :
    (world.setDirectory path left).directories = world.directories ↔
      left = world.directories.get path := by
  cases left with
  | none => exact OrderedMap.remove_eq_iff.trans eq_comm
  | some directory => exact OrderedMap.insert_eq_iff.trans eq_comm

theorem setDirectory_again (path : Location) (held left : Option δ) :
    (world.setDirectory path none).setDirectory path left = world.setDirectory path left := by
  cases left with
  | none => exact congrArg (fun directories => { world with directories }) (OrderedMap.remove_remove _ _)
  | some directory =>
      exact congrArg (fun directories => { world with directories }) (OrderedMap.insert_remove _ _ _)

/-- `if path.exists() { remove_dir_all(path)? }`. -/
def removeStanding (disk : PluginDisk δ) (path : Location) : PluginAction δ Unit := do
  if ← directoryExists path then removeDirAll disk path

theorem removeStanding_left {path : Location} {left : Option δ}
    (fails : standingLeft disk path (world.directories.get path) = some left) :
    ∃ error, removeStanding disk path world = (.error error, world.setDirectory path left) := by
  obtain ⟨directory, held, failed⟩ := Option.bind_eq_some_iff.1 fails
  obtain ⟨⟨error, _⟩, removal, rfl⟩ := Option.map_eq_some_iff.1 failed
  have stands : directoryExists path world = (.ok true, world) := by
    rw [directoryExists, held]
    rfl
  refine ⟨.io error, (Action.bind_ok stands).trans ?_⟩
  show removeDirAll disk path world = _
  rw [removeDirAll, removal]

theorem removeStanding_done {path : Location}
    (done : standingLeft disk path (world.directories.get path) = none) :
    removeStanding disk path world = (.ok (), world.setDirectory path none) := by
  cases held : world.directories.get path with
  | none =>
      have stands : directoryExists path world = (.ok false, world) := by
        rw [directoryExists, held]
        rfl
      refine (Action.bind_ok stands).trans ?_
      rw [← held, setDirectory_held]
      rfl
  | some directory =>
      have stands : directoryExists path world = (.ok true, world) := by
        rw [directoryExists, held]
        rfl
      rw [held] at done
      refine (Action.bind_ok stands).trans ?_
      show removeDirAll disk path world = _
      rw [removeDirAll, Option.map_eq_none_iff.1 done]

theorem ensureManaged_ok {path : Location} (managed : Managed config disk path) (action : String) :
    ensureManagedInstallPath host config disk path action world = (.ok (), world) := by
  obtain ⟨root, resolves, below⟩ := managed
  refine (Action.bind_ok (step_ok root)).trans ((Action.bind_ok (step_ok resolves)).trans ?_)
  rw [if_pos below]
  rfl

theorem ensureManaged_error {path : Location} (unmanaged : ¬Managed config disk path)
    (action : String) :
    ∃ error, ensureManagedInstallPath host config disk path action world = (.error error, world) := by
  cases root : disk.fails (.resolve config.installRoot) with
  | some error => exact ⟨_, Action.bind_error (step_error root)⟩
  | none =>
      cases resolves : disk.fails (.resolve path) with
      | some error => exact ⟨_, (Action.bind_ok (step_ok root)).trans (Action.bind_error (step_error resolves))⟩
      | none =>
          have goes : ensureManagedInstallPath host config disk path action world = _ :=
            (Action.bind_ok (step_ok root)).trans (Action.bind_ok (step_ok resolves))
          rw [goes, if_neg fun below => unmanaged ⟨root, resolves, below⟩]
          exact ⟨_, rfl⟩

section Commit

variable {prepared : δ} {path : Location}

/-- The world in which the directory is moved in. -/
theorem commit_moves (parent : disk.fails .createInstallParent = none)
    (aside : (world.directories.get path).isSome → disk.fails .moveAside = none) :
    commitPreparedInstall host disk prepared path world =
      moveIn host disk prepared path (world.directories.get path) (world.setDirectory path none) := by
  have goes : commitPreparedInstall host disk prepared path world = _ :=
    (Action.bind_ok (step_ok parent)).trans (Action.bind_ok (Action.get_apply world))
  rw [goes]
  cases held : world.directories.get path with
  | none =>
      have same : world.setDirectory path none = world := by rw [← held, setDirectory_held]
      rw [same]
  | some directory =>
      rw [held] at aside
      simp only [aside rfl]
      exact Action.bind_ok (Action.modify_apply _ world)

theorem moveIn_left {held left : Option δ} (fails : moveInLeft disk held = some left) :
    ∃ error, moveIn host disk prepared path held (world.setDirectory path none) =
      (.error error, world.setDirectory path left) := by
  obtain ⟨error, moves, rfl⟩ := Option.map_eq_some_iff.1 fails
  cases held with
  | none =>
      simp only [moveIn, moves, ite_self]
      exact ⟨_, rfl⟩
  | some directory =>
      cases back : disk.fails .moveBack with
      | some _ =>
          simp only [moveIn, moves, back]
          exact ⟨_, rfl⟩
      | none =>
          simp only [moveIn, moves, back]
          exact ⟨_, congrArg (Prod.mk _) (setDirectory_again path none (some directory))⟩

theorem commit_done (done : commitLeft disk (world.directories.get path) = none) :
    commitPreparedInstall host disk prepared path world =
      (.ok (), world.setDirectory path (some prepared)) := by
  rw [commitLeft] at done
  split at done
  · cases done
  · rename_i parent
    split at done
    · cases done
    · rename_i aside
      rw [commit_moves (by simpa using parent) fun stands => by simpa [stands] using aside]
      have moves : disk.fails .moveIn = none := Option.map_eq_none_iff.1 done
      simp only [moveIn, moves]
      exact congrArg (Prod.mk _) (setDirectory_again path none (some prepared))

/-- **A commit that fails leaves what stood there, or nothing**. -/
theorem commit_left {left : Option δ}
    (fails : commitLeft disk (world.directories.get path) = some left) :
    ∃ error, commitPreparedInstall host disk prepared path world =
      (.error error, world.setDirectory path left) := by
  rw [commitLeft] at fails
  split at fails
  · rename_i parent
    obtain ⟨error, failed⟩ := Option.isSome_iff_exists.1 parent
    cases fails
    rw [setDirectory_held]
    exact ⟨_, Action.bind_error (step_error failed)⟩
  · rename_i parent
    have made : disk.fails .createInstallParent = none := by simpa using parent
    split at fails
    · rename_i aside
      obtain ⟨stands, failed⟩ := aside
      obtain ⟨directory, held⟩ := Option.isSome_iff_exists.1 stands
      obtain ⟨error, failed⟩ := Option.isSome_iff_exists.1 failed
      cases fails
      have goes : commitPreparedInstall host disk prepared path world = _ :=
        (Action.bind_ok (step_ok made)).trans (Action.bind_ok (Action.get_apply world))
      rw [setDirectory_held, goes]
      simp only [held, failed]
      exact ⟨_, rfl⟩
    · rename_i aside
      rw [commit_moves made fun stands => by simpa [stands] using aside]
      exact moveIn_left fails

end Commit

end Openyak.Plugins
