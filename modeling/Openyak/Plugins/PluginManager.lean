/-
# Plugins.PluginManager -- the plugins on disk, and the calls that change them

Four things are kept: the directories of the plugins, the registry of those that are
installed (`installed.json`), the settings (`settings.json`) and, in memory, which plugins
are enabled.  A call that has no record to go by lists first what is there, which brings
the bundled plugins up to date and drops the records of plugins that are gone.

A directory is a value of type `δ`, of which `PluginHost` says what is read from it.  The
staging area `.tmp` is not kept: what stands there is a value that the call passes on.

`PluginDisk` says of each step whether it fails and, where a step is not all or nothing,
what it leaves.
-/
import Openyak.Runtime.Settings
import Openyak.Theory.Action
import Openyak.Theory.OrderedMap
import Mathlib.Data.List.Sort
import Mathlib.Data.String.Basic
import Mathlib.Order.Lex

namespace Openyak.Plugins

open Openyak.Theory
open Openyak.Theory.Posix (Location Path)
open Openyak.Runtime (FileRead SettingsSerde SerdeMap SerdeValue)

set_option autoImplicit false

inductive PluginKind where
  | builtin
  | bundled
  | external
  deriving DecidableEq, Repr

def PluginKind.marketplace : PluginKind → String
  | .builtin => "builtin"
  | .bundled => "bundled"
  | .external => "external"

inductive PluginError where
  | io (error : String)
  | json (error : String)
  | manifestValidation (errors : List String)
  | invalidManifest (message : String)
  | notFound (message : String)
  | commandFailed (message : String)
  deriving DecidableEq, Repr

/-- A manifest, without what a plugin does once it runs. -/
structure PluginManifest where
  name : String
  version : String
  description : String
  defaultEnabled : Bool
  deriving DecidableEq, Repr

inductive PluginInstallSource where
  | localPath (path : Location)
  | gitUrl (url : String)
  deriving DecidableEq, Repr

structure InstalledPluginRecord where
  kind : PluginKind
  id : String
  name : String
  version : String
  description : String
  installPath : Location
  source : PluginInstallSource
  installedAtUnixMs : Nat
  updatedAtUnixMs : Nat
  deriving DecidableEq, Repr

structure InstalledPluginRegistry where
  plugins : OrderedMap String InstalledPluginRecord := .empty
  deriving DecidableEq

structure PluginMetadata where
  id : String
  name : String
  version : String
  description : String
  kind : PluginKind
  source : String
  defaultEnabled : Bool
  root : Option Location
  deriving DecidableEq, Repr

structure PluginSummary where
  metadata : PluginMetadata
  enabled : Bool
  deriving DecidableEq, Repr

/-! ## The machine -/

/-- What is read from a directory: where its manifest stands, if it has one, and what
`load_manifest_from_path` makes of that; what a copy of it is; and the texts of files. -/
structure PluginHost (δ : Type) where
  manifestPath : δ → Option Location
  manifest : δ → Except PluginError PluginManifest
  copied : δ → δ
  registryFromStr : String → Except String InstalledPluginRegistry
  registryToStringPretty : InstalledPluginRegistry → Except String String
  serde : SettingsSerde
  location : String → Location
  display : Location → String
  displayPath : Path → String

structure PluginManagerConfig where
  configHome : Path
  installRoot : Location
  bundledRoot : Location
  externalDirs : List Location

def PluginManagerConfig.settingsPath (config : PluginManagerConfig) : Path :=
  config.configHome.join (Path.ofText "settings.json")

structure World (δ : Type) where
  directories : OrderedMap Location δ
  registry : FileRead
  settings : FileRead
  enabledPlugins : OrderedMap String Bool

/-- A step that is done or not. -/
inductive DiskStep where
  | readDir (root : Location)
  | readManifest (root : Location)
  | resolve (path : Location)
  | readRegistry
  | createRegistryParent
  | readSettings
  | createSettingsParent
  | createTemp
  | stage
  | createInstallParent
  | moveAside
  | moveIn
  | moveBack
  deriving DecidableEq, Repr

/-- How the steps of one part of a call come out, and what the clock says. -/
structure PluginDisk (δ : Type) where
  now : Nat
  fails : DiskStep → Option String
  removal : Location → Option (String × Option δ)
  copying : Location → Option (String × Option δ)
  writeRegistry : Option (String × FileRead)
  writeSettings : Option (String × FileRead)
  clone : String → Except PluginError δ

/-- The parts of a call: what it begins with, and its own steps. -/
structure CallDisk (δ : Type) where
  syncing : PluginDisk δ
  discovering : PluginDisk δ
  scanning : PluginDisk δ
  acting : PluginDisk δ

/-- A program of this module. -/
abbrev PluginAction (δ α : Type) : Type := Action (World δ) PluginError α

/-! ## Names -/

def pluginId (name marketplace : String) : String := name ++ "@" ++ marketplace

def sanitizePluginId (pluginId : String) : String :=
  String.ofList (pluginId.toList.map fun c => if c ∈ ['/', '\\', '@', ':'] then '-' else c)

def builtinPlugins : List PluginMetadata :=
  [{ id := pluginId "example-builtin" "builtin"
     name := "example-builtin"
     version := "0.1.0"
     description := "Example built-in plugin scaffold for the Rust plugin system"
     kind := .builtin
     source := "builtin"
     defaultEnabled := false
     root := none }]

def gitUrlContainsEmbeddedCredentials (source : List Char) : Bool :=
  match Text.splitOnce "://" source with
  | none => false
  | some (scheme, remainder) =>
      let authority := remainder.takeWhile (· ≠ '/')
      if '@' ∉ authority then false
      else
        let userinfo := ((authority.reverse.dropWhile (· ≠ '@')).drop 1).reverse
        if scheme = "http".toList ∨ scheme = "https".toList then userinfo ≠ [] else ':' ∈ userinfo

def isGitSource (source : String) : Bool :=
  (Text.stripPrefix "http://" source.toList).isSome ||
    (Text.stripPrefix "https://" source.toList).isSome ||
    (Text.stripPrefix "git@" source.toList).isSome ||
    (Path.ofText source).extension.any fun extension =>
      Text.toAsciiLowercase extension = "git".toList

section Host

variable {δ : Type} (host : PluginHost δ)

def describeInstallSource : PluginInstallSource → String
  | .localPath path => host.display path
  | .gitUrl url => url

/-! ## Steps -/

def PluginDisk.step (disk : PluginDisk δ) (step : DiskStep) : PluginAction δ Unit :=
  match disk.fails step with
  | none => pure ()
  | some error => Action.fail (.io error)

/-- `Path::exists`, of a directory. -/
def directoryExists (path : Location) : PluginAction δ Bool := fun world =>
  (.ok (world.directories.get path).isSome, world)

def World.setDirectory (world : World δ) (path : Location) (left : Option δ) : World δ :=
  { world with directories := left.elim (world.directories.remove path) (world.directories.insert path) }

/-- `fs::remove_dir_all`. -/
def removeDirAll (disk : PluginDisk δ) (path : Location) : PluginAction δ Unit := fun world =>
  match disk.removal path with
  | none => (.ok (), world.setDirectory path none)
  | some (error, left) => (.error (.io error), world.setDirectory path left)

def copyDirAll (disk : PluginDisk δ) (source : Option δ) (path : Location) :
    PluginAction δ Unit := fun world =>
  match disk.copying path with
  | none => (.ok (), world.setDirectory path (source.map host.copied))
  | some (error, left) => (.error (.io error), world.setDirectory path left)

def manifestNotFound (root : Location) : PluginError :=
  .notFound ("plugin manifest not found at " ++ host.display (root ++ ["plugin.json"]) ++ " or " ++
    host.display (root ++ [".openyak-plugin", "plugin.json"]))

def pluginManifestPath (root : Location) (directory : Option δ) : Except PluginError Location :=
  match directory.bind host.manifestPath with
  | some relative => .ok (root ++ relative)
  | none => .error (manifestNotFound host root)

/-- `load_plugin_from_directory`, of what stands at the root. -/
def loadManifest (disk : PluginDisk δ) (root : Location) (directory : Option δ) :
    Except PluginError PluginManifest := do
  let manifestPath ← pluginManifestPath host root directory
  match disk.fails (.readManifest root) with
  | some error =>
      .error (.notFound ("plugin manifest not found at " ++ host.display manifestPath ++ ": " ++ error))
  | none => (directory.map host.manifest).getD (.error (manifestNotFound host root))

def loadPluginFromDirectory (disk : PluginDisk δ) (root : Location) :
    PluginAction δ PluginManifest := fun world =>
  (loadManifest host disk root (world.directories.get root), world)

/-- The directories in the root that have a manifest, in order. -/
def discoverPluginDirs (disk : PluginDisk δ) (root : Location) : PluginAction δ (List Location) := do
  disk.step (.readDir root)
  fun world =>
    (.ok ((world.directories.entries.filter fun entry =>
      entry.1.dropLast = root ∧ entry.1 ≠ root ∧ (host.manifestPath entry.2).isSome).map Prod.fst),
      world)

/-! ## The registry and the settings -/

def registryOf : FileRead → Except PluginError InstalledPluginRegistry
  | .text contents =>
      if Text.trim contents.toList = [] then .ok {}
      else (host.registryFromStr contents).mapError .json
  | .notFound => .ok {}
  | .failed error => .error (.io error)

def loadRegistry (disk : PluginDisk δ) : PluginAction δ InstalledPluginRegistry := do
  disk.step .readRegistry
  fun world => (registryOf host world.registry, world)

def writeRegistryFile (disk : PluginDisk δ) (text : String) : PluginAction δ Unit := fun world =>
  match disk.writeRegistry with
  | none => (.ok (), { world with registry := .text text })
  | some (error, left) => (.error (.io error), { world with registry := left })

/-- The value, or the failure that it is. -/
def ofExcept {α : Type} (result : Except PluginError α) : PluginAction δ α := fun world =>
  (result, world)

def storeRegistry (disk : PluginDisk δ) (registry : InstalledPluginRegistry) :
    PluginAction δ Unit := do
  disk.step .createRegistryParent
  let text ← ofExcept ((host.registryToStringPretty registry).mapError .json)
  writeRegistryFile disk text

/-- `ensure_object`: the map under the key, where there is none an empty one. -/
def ensureObject {ν : Type} (root : JsonEntries ν none) (key : String) : JsonEntries ν none :=
  root.objectAt key

/-- The map with the entry in it, or without. -/
def setEnabled {ν : Type} (enabledPlugins : JsonEntries ν none) (pluginId : String) :
    Option Bool → JsonEntries ν none
  | some value => enabledPlugins.insert pluginId (.bool value)
  | none => enabledPlugins.remove pluginId

def updateEnabled {ν : Type} (pluginId : String) (enabled : Option Bool) (root : JsonEntries ν none) :
    JsonEntries ν none :=
  root.insert "enabledPlugins"
    (.object (setEnabled (ensureObject root "enabledPlugins") pluginId enabled))

def settingsOf (path : Path) : FileRead → Except PluginError SerdeMap
  | .text contents =>
      if Text.trim contents.toList = [] then .ok .nil
      else do
        let root ← (host.serde.fromStr contents).mapError .json
        match root.asObject? with
        | some object => .ok object
        | none => .error (.invalidManifest
            ("settings file " ++ host.displayPath path ++ " must contain a JSON object"))
  | .notFound => .ok .nil
  | .failed error => .error (.io error)

def readSettingsFile (path : Path) : PluginAction δ SerdeMap := fun world =>
  (settingsOf host path world.settings, world)

def writeSettingsFile (disk : PluginDisk δ) (text : String) : PluginAction δ Unit := fun world =>
  match disk.writeSettings with
  | none => (.ok (), { world with settings := .text text })
  | some (error, left) => (.error (.io error), { world with settings := left })

def updateSettingsJson (disk : PluginDisk δ) (path : Path) (update : SerdeMap → SerdeMap) :
    PluginAction δ Unit := do
  disk.step .createSettingsParent
  disk.step .readSettings
  let root ← readSettingsFile host path
  let text ← ofExcept ((host.serde.toStringPretty (update root)).mapError .json)
  writeSettingsFile disk text

section Manager

variable (config : PluginManagerConfig)

def writeEnabledState (disk : PluginDisk δ) (pluginId : String) (enabled : Option Bool) :
    PluginAction δ Unit :=
  updateSettingsJson host disk config.settingsPath (updateEnabled pluginId enabled)

def World.remember (world : World δ) (pluginId : String) (enabled : Option Bool) : World δ :=
  { world with
    enabledPlugins :=
      enabled.elim (world.enabledPlugins.remove pluginId) (world.enabledPlugins.insert pluginId) }

/-- What `install`, `enable`, `disable` and `uninstall` end with. -/
def rememberEnabled (disk : PluginDisk δ) (pluginId : String) (enabled : Option Bool) :
    PluginAction δ Unit := do
  writeEnabledState host config disk pluginId enabled
  Action.modify fun world => world.remember pluginId enabled

def ensureManagedInstallPath (disk : PluginDisk δ) (path : Location) (action : String) :
    PluginAction δ Unit := do
  disk.step (.resolve config.installRoot)
  disk.step (.resolve path)
  if config.installRoot <+: path then pure ()
  else Action.fail (.commandFailed ("refusing to " ++ action ++ " plugin path `" ++ host.display path ++
    "` outside managed install root `" ++ host.display config.installRoot ++ "`"))

/-! ## Listing -/

/-- How far the bundled plugins have been brought up to date. -/
structure Synced where
  registry : InstalledPluginRegistry
  changed : Bool
  active : List String

def recordOutdated (manifest : PluginManifest) (installPath : Location) (directories : OrderedMap Location δ)
    (valid : Bool) (record : InstalledPluginRecord) : Bool :=
  record.kind ≠ .bundled || record.version ≠ manifest.version || record.name ≠ manifest.name ||
    record.description ≠ manifest.description || record.installPath ≠ installPath ||
    (directories.get record.installPath).isNone || !valid

def replaceDirectory (disk : PluginDisk δ) (sourceRoot installPath : Location) :
    PluginAction δ Unit := do
  if ← directoryExists installPath then removeDirAll disk installPath
  let world ← Action.get
  copyDirAll host disk (world.directories.get sourceRoot) installPath

/-- One bundled plugin. -/
def syncPlugin (disk : PluginDisk δ) (synced : Synced) (sourceRoot : Location) :
    PluginAction δ Synced := do
  let manifest ← loadPluginFromDirectory host disk sourceRoot
  let id := pluginId manifest.name PluginKind.bundled.marketplace
  let installPath := config.installRoot ++ [sanitizePluginId id]
  let existing := synced.registry.plugins.get id
  let world ← Action.get
  let valid := (loadManifest host disk installPath (world.directories.get installPath)).isOk
  if existing.all (recordOutdated manifest installPath world.directories valid) then
    replaceDirectory host disk sourceRoot installPath
    let record : InstalledPluginRecord :=
      { kind := .bundled
        id
        name := manifest.name
        version := manifest.version
        description := manifest.description
        installPath
        source := .localPath sourceRoot
        installedAtUnixMs := (existing.map (·.installedAtUnixMs)).getD disk.now
        updatedAtUnixMs := disk.now }
    return ⟨⟨synced.registry.plugins.insert id record⟩, true, id :: synced.active⟩
  else return { synced with active := id :: synced.active }

def staleBundledIds (synced : Synced) : List String :=
  (synced.registry.plugins.entries.filter fun entry =>
    entry.2.kind = .bundled ∧ entry.1 ∉ synced.active).map Prod.fst

/-- One record of a plugin that is no longer bundled. -/
def pruneBundled (disk : PluginDisk δ) (registry : InstalledPluginRegistry) (id : String) :
    PluginAction δ InstalledPluginRegistry :=
  match registry.plugins.get id with
  | none => return registry
  | some record => do
      let managed ← (ensureManagedInstallPath host config disk record.installPath "delete").attempt
      if managed.isOk && (← directoryExists record.installPath) then
        removeDirAll disk record.installPath
      return ⟨registry.plugins.remove id⟩

def syncBundledPlugins (disk : PluginDisk δ) : PluginAction δ Unit := do
  let sources ← discoverPluginDirs host disk config.bundledRoot
  let registry ← loadRegistry host disk
  let synced ← sources.foldlM (syncPlugin host config disk) ⟨registry, false, []⟩
  let stale := staleBundledIds synced
  let registry ← stale.foldlM (pruneBundled host config disk) synced.registry
  if synced.changed || !stale.isEmpty then storeRegistry host disk registry

def pluginMetadata (root : Location) (kind : PluginKind) (source marketplace : String)
    (manifest : PluginManifest) : PluginMetadata :=
  { id := pluginId manifest.name marketplace
    name := manifest.name
    version := manifest.version
    description := manifest.description
    kind
    source
    defaultEnabled := manifest.defaultEnabled
    root := some root }

def loadPluginDefinition (disk : PluginDisk δ) (root : Location) (kind : PluginKind)
    (source marketplace : String) : PluginAction δ PluginMetadata := do
  let manifest ← loadPluginFromDirectory host disk root
  return pluginMetadata root kind source marketplace manifest

/-- The plugins found so far, where they stand, and the records of plugins that are gone. -/
structure Discovered where
  plugins : List PluginMetadata
  seenPaths : List Location
  stale : List String

/-- A plugin that is found, unless its id has been seen. -/
def Discovered.found (discovered : Discovered) (path : Location) (plugin : PluginMetadata) :
    Discovered :=
  if discovered.plugins.any fun seen => seen.id = plugin.id then discovered
  else { discovered with
    plugins := discovered.plugins ++ [plugin]
    seenPaths := path :: discovered.seenPaths }

def discoverDirectory (disk : PluginDisk δ) (registry : InstalledPluginRegistry)
    (discovered : Discovered) (installPath : Location) : PluginAction δ Discovered := do
  let matched := registry.plugins.values.find? fun record => record.installPath = installPath
  let kind := (matched.map (·.kind)).getD .external
  let source := (matched.map fun record => describeInstallSource host record.source).getD
    (host.display installPath)
  let plugin ← loadPluginDefinition host disk installPath kind source kind.marketplace
  return discovered.found installPath plugin

def discoverRecord (disk : PluginDisk δ) (discovered : Discovered) (record : InstalledPluginRecord) :
    PluginAction δ Discovered := do
  if record.installPath ∈ discovered.seenPaths then return discovered
  let world ← Action.get
  if ((world.directories.get record.installPath).bind host.manifestPath).isNone then
    return { discovered with stale := discovered.stale ++ [record.id] }
  let plugin ← loadPluginDefinition host disk record.installPath record.kind
    (describeInstallSource host record.source) record.kind.marketplace
  return discovered.found record.installPath plugin

def discoverInstalledPlugins (disk : PluginDisk δ) : PluginAction δ (List PluginMetadata) := do
  let registry ← loadRegistry host disk
  let paths ← discoverPluginDirs host disk config.installRoot
  let inRoot ← paths.foldlM (discoverDirectory host disk registry) ⟨[], [], []⟩
  let discovered ← registry.plugins.values.foldlM (discoverRecord host disk) inRoot
  if !discovered.stale.isEmpty then
    storeRegistry host disk ⟨discovered.stale.foldl OrderedMap.remove registry.plugins⟩
  return discovered.plugins

/-- A plugin of an external directory, unless its id is taken. -/
def discoverExternal (disk : PluginDisk δ) (plugins : List PluginMetadata) (root : Location) :
    PluginAction δ (List PluginMetadata) := do
  let plugin ← loadPluginDefinition host disk root .external (host.display root) "external"
  return if plugins.all fun existing => existing.id ≠ plugin.id then plugins ++ [plugin] else plugins

def discoverExternalDirectory (disk : PluginDisk δ) (plugins : List PluginMetadata)
    (directory : Location) : PluginAction δ (List PluginMetadata) := do
  let roots ← discoverPluginDirs host disk directory
  roots.foldlM (discoverExternal host disk) plugins

def discoverPlugins (disks : CallDisk δ) : PluginAction δ (List PluginMetadata) := do
  syncBundledPlugins host config disks.syncing
  let installed ← discoverInstalledPlugins host config disks.discovering
  config.externalDirs.foldlM (discoverExternalDirectory host disks.scanning)
    (builtinPlugins ++ installed)

def isEnabled (enabledPlugins : OrderedMap String Bool) (metadata : PluginMetadata) : Bool :=
  (enabledPlugins.get metadata.id).getD
    (match metadata.kind with
    | .external => false
    | .builtin | .bundled => metadata.defaultEnabled)

/-- `PluginRegistry::new` and its summaries, by id. -/
def summaries (enabledPlugins : OrderedMap String Bool) (plugins : List PluginMetadata) :
    List PluginSummary :=
  (plugins.map fun metadata => ⟨metadata, isEnabled enabledPlugins metadata⟩).insertionSort
    fun a b => a.metadata.id ≤ b.metadata.id

def listPlugins (disks : CallDisk δ) : PluginAction δ (List PluginSummary) := do
  let plugins ← discoverPlugins host config disks
  let world ← Action.get
  return summaries world.enabledPlugins plugins

def listInstalledPlugins (disks : CallDisk δ) : PluginAction δ (List PluginSummary) := do
  syncBundledPlugins host config disks.syncing
  let plugins ← discoverInstalledPlugins host config disks.discovering
  let world ← Action.get
  return summaries world.enabledPlugins plugins

def ensureKnownPlugin (disks : CallDisk δ) (pluginId : String) : PluginAction δ Unit := do
  let plugins ← listPlugins host config disks
  if plugins.any fun plugin => plugin.metadata.id = pluginId then pure ()
  else Action.fail (.notFound ("plugin `" ++ pluginId ++ "` is not installed or discoverable"))

/-! ## Preparing and committing -/

def resolveLocalSource (source : String) : PluginAction δ Location := do
  if ← directoryExists (host.location source) then return host.location source
  else Action.fail (.notFound ("plugin source `" ++ source ++ "` was not found"))

def parseInstallSource (source : String) : PluginAction δ PluginInstallSource := do
  if isGitSource source then
    if gitUrlContainsEmbeddedCredentials source.toList then
      Action.fail (.commandFailed ("plugin git source `" ++ source ++
        "` must not include embedded credentials"))
    else return .gitUrl source
  else
    let path ← resolveLocalSource host source
    return .localPath path

/-- Where the source stands, and what stands there. -/
def materializeSource (disk : PluginDisk δ) (source : PluginInstallSource) :
    PluginAction δ (Location × Option δ) := do
  disk.step .createTemp
  match source with
  | .localPath path =>
      let world ← Action.get
      return (path, world.directories.get path)
  | .gitUrl url =>
      let directory ← ofExcept (disk.clone url)
      return (config.installRoot ++ [".tmp", "plugin-" ++ toString disk.now], some directory)

/-- `PreparedPluginSource`, with what stands in the staging area. -/
structure Prepared (δ : Type) where
  manifest : PluginManifest
  directory : δ
  source : String

def preparePluginSource (disk : PluginDisk δ) (source : PluginInstallSource) :
    PluginAction δ (Prepared δ) := do
  let staged ← materializeSource config disk source
  let manifest ← ofExcept (loadManifest host disk staged.1 staged.2)
  disk.step .stage
  let directory ← Action.orFail staged.2 (manifestNotFound host staged.1)
  return ⟨manifest, host.copied directory, describeInstallSource host source⟩

/-- The second rename of `commit_prepared_install`, where `backup` was moved aside. -/
def moveIn (disk : PluginDisk δ) (prepared : δ) (installPath : Location) (backup : Option δ) :
    PluginAction δ Unit := fun world =>
  match disk.fails .moveIn with
  | none => (.ok (), world.setDirectory installPath (some prepared))
  | some error =>
      let failure := "failed to replace installed plugin at " ++ host.display installPath ++ ": " ++ error
      match backup with
      | none => (.error (.commandFailed failure), world)
      | some held =>
          match disk.fails .moveBack with
          | some restoreError => (.error (.commandFailed
              (failure ++ "; failed to restore previous install: " ++ restoreError)), world)
          | none => (.error (.commandFailed failure), world.setDirectory installPath (some held))

def commitPreparedInstall (disk : PluginDisk δ) (prepared : δ) (installPath : Location) :
    PluginAction δ Unit := do
  disk.step .createInstallParent
  let world ← Action.get
  match world.directories.get installPath with
  | none => moveIn host disk prepared installPath none
  | some held =>
      match disk.fails .moveAside with
      | some error => Action.fail (.commandFailed ("failed to stage existing install at " ++
          host.display installPath ++ " for replacement: " ++ error))
      | none =>
          Action.modify fun world => world.setDirectory installPath none
          moveIn host disk prepared installPath (some held)

/-! ## Calls -/

structure InstallOutcome where
  pluginId : String
  version : String
  source : String
  installPath : Location

structure UpdateOutcome where
  pluginId : String
  oldVersion : String
  newVersion : String
  source : String
  installPath : Location

def newRecord (disk : PluginDisk δ) (id : String) (manifest : PluginManifest) (installPath : Location)
    (source : PluginInstallSource) : InstalledPluginRecord :=
  { kind := .external
    id
    name := manifest.name
    version := manifest.version
    description := manifest.description
    installPath
    source
    installedAtUnixMs := disk.now
    updatedAtUnixMs := disk.now }

/-- `install` up to the settings. -/
def installFiles (disks : CallDisk δ) (source : String) : PluginAction δ InstallOutcome := do
  let installSource ← parseInstallSource host source
  let prepared ← preparePluginSource host config disks.acting installSource
  let id := pluginId prepared.manifest.name "external"
  let plugins ← listInstalledPlugins host config disks
  if plugins.any fun plugin => plugin.metadata.id = id then
    Action.fail (.commandFailed ("plugin `" ++ id ++ "` is already installed; use `/plugins update " ++
      id ++ "` to refresh it"))
  else
    let installPath := config.installRoot ++ [sanitizePluginId id]
    commitPreparedInstall host disks.acting prepared.directory installPath
    let registry ← loadRegistry host disks.acting
    storeRegistry host disks.acting ⟨registry.plugins.insert id
      (newRecord disks.acting id prepared.manifest installPath installSource)⟩
    return ⟨id, prepared.manifest.version, prepared.source, installPath⟩

def install (disks : CallDisk δ) (source : String) : PluginAction δ InstallOutcome := do
  let outcome ← installFiles host config disks source
  rememberEnabled host config disks.acting outcome.pluginId (some true)
  return outcome

/-- `enable` and `disable`. -/
def setEnabledState (disks : CallDisk δ) (pluginId : String) (value : Bool) : PluginAction δ Unit := do
  ensureKnownPlugin host config disks pluginId
  rememberEnabled host config disks.acting pluginId (some value)

def enable (disks : CallDisk δ) (pluginId : String) : PluginAction δ Unit :=
  setEnabledState host config disks pluginId true

def disable (disks : CallDisk δ) (pluginId : String) : PluginAction δ Unit :=
  setEnabledState host config disks pluginId false

/-- The record that a call goes by. -/
def installedRecord (registry : InstalledPluginRegistry) (pluginId : String) :
    PluginAction δ InstalledPluginRecord :=
  Action.orFail (registry.plugins.get pluginId)
    (.notFound ("plugin `" ++ pluginId ++ "` is not installed"))

/-- `uninstall` up to the settings. -/
def uninstallFiles (disks : CallDisk δ) (pluginId : String) : PluginAction δ Unit := do
  let registry ← loadRegistry host disks.acting
  let record ← installedRecord registry pluginId
  if record.kind = .bundled then
    Action.fail (.commandFailed ("plugin `" ++ pluginId ++
      "` is bundled and managed automatically; disable it instead"))
  else
    ensureManagedInstallPath host config disks.acting record.installPath "uninstall"
    if ← directoryExists record.installPath then removeDirAll disks.acting record.installPath
    storeRegistry host disks.acting ⟨registry.plugins.remove pluginId⟩

def uninstall (disks : CallDisk δ) (pluginId : String) : PluginAction δ Unit := do
  uninstallFiles host config disks pluginId
  rememberEnabled host config disks.acting pluginId none

def updatedRecord (disk : PluginDisk δ) (record : InstalledPluginRecord) (manifest : PluginManifest) :
    InstalledPluginRecord :=
  { record with
    version := manifest.version
    description := manifest.description
    updatedAtUnixMs := disk.now }

def update (disks : CallDisk δ) (pluginId : String) : PluginAction δ UpdateOutcome := do
  let registry ← loadRegistry host disks.acting
  let record ← installedRecord registry pluginId
  ensureManagedInstallPath host config disks.acting record.installPath "update"
  let prepared ← preparePluginSource host config disks.acting record.source
  commitPreparedInstall host disks.acting prepared.directory record.installPath
  storeRegistry host disks.acting
    ⟨registry.plugins.insert pluginId (updatedRecord disks.acting record prepared.manifest)⟩
  return ⟨pluginId, record.version, prepared.manifest.version, prepared.source, record.installPath⟩

inductive PluginCall where
  | install (source : String)
  | update (pluginId : String)
  | enable (pluginId : String)
  | disable (pluginId : String)
  | uninstall (pluginId : String)

def perform (disks : CallDisk δ) : PluginCall → PluginAction δ Unit
  | .install source => do let _ ← install host config disks source
  | .update pluginId => do let _ ← update host config disks pluginId
  | .enable pluginId => enable host config disks pluginId
  | .disable pluginId => disable host config disks pluginId
  | .uninstall pluginId => uninstall host config disks pluginId

end Manager

end Host

end Openyak.Plugins
