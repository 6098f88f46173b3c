/-
# Runtime.SkillRegistry -- managed skills and the registry of what is installed

A skill is copied from its package into a staging area, moved from there to its directory,
and then recorded in `installed.json`.  All three live in the managed root: the directories
under the skills' own ids, the staging area as `.tmp`, and the registry file.

The tree is that of the home of openyak.  A package is what a walk of its directory gives.
SHA-256 and the text of the registry file are parameters (`SkillHost`).

At most one step of a call fails (`Fault`).  What a step has done before it fails stays:
some of the directories, some of a file, or a part of what was to be removed.
-/
import Openyak.Theory.Action
import Openyak.Theory.Decimal
import Openyak.Theory.DirTree
import Openyak.Theory.OrderedMap
import Openyak.Theory.Text
import Openyak.Theory.Utf8Stream
import Mathlib.Data.List.Sort
import Mathlib.Data.String.Basic

namespace Openyak.Runtime

open Openyak.Theory
open Openyak.Theory.DirTree
open Openyak.Theory.Posix (Location)

set_option autoImplicit false

inductive SkillRegistryError where
  | io
  | parse (message : String)
  | invalid (message : String)
  deriving DecidableEq, Repr

/-! ## Names -/

def toAsciiLowercase (text : String) : String := String.ofList (Text.toAsciiLowercase text.toList)

def eqIgnoreAsciiCase (a b : String) : Bool := toAsciiLowercase a = toAsciiLowercase b

def trimmed (text : String) : String := String.ofList (Text.trim text.toList)

/-- One component of a path that is neither `.` nor `..`. -/
def IsSegment (name : String) : Prop :=
  name ≠ "" ∧ '/' ∉ name.toList ∧ name ≠ "." ∧ name ≠ ".."

def validateSkillId (value : String) : Except SkillRegistryError String :=
  let trimmed := trimmed value
  if trimmed = "" then .error (.invalid "skill package is missing an id")
  else if '/' ∈ trimmed.toList ∨ '\\' ∈ trimmed.toList then
    .error (.invalid ("skill package id must not contain path separators: " ++ trimmed))
  else if trimmed = "." ∨ trimmed = ".." then
    .error (.invalid ("skill package id must be a single path segment: " ++ trimmed))
  else .ok trimmed

/-! ## Packages -/

/-- The name of a directory, and what a walk of it gives. -/
structure PackageDir where
  name : Option String
  walk : List (Location × Node)
  walked : Walk [] walk
  root : node walk [] = some .directory

/-- `fs::read_to_string` on the bytes of a file. -/
def fromUtf8 (bytes : List UInt8) : Option (List Char) :=
  let text := (Utf8Stream.decodeChunk [] bytes).1
  if Utf8Stream.encode text = bytes then some text else none

def unquoteWith (quote : Char) (value : List Char) : Option (List Char) :=
  match value with
  | first :: rest =>
      if first = quote ∧ rest.getLast? = some quote then some rest.dropLast else none
  | [] => none

def unquoteFrontmatterValue (value : List Char) : List Char :=
  Text.trim (((unquoteWith '"' value).or (unquoteWith '\'' value)).getD value)

/-- The value behind `key` in the lines of the frontmatter, the last one that is not empty. -/
def frontmatterValue (key : String) : List (List Char) → Option (List Char)
  | [] => none
  | line :: lines =>
      let trimmed := Text.trim line
      if trimmed = "---".toList then none
      else
        match Text.stripPrefix key trimmed with
        | some value =>
            let value := unquoteFrontmatterValue (Text.trim value)
            (frontmatterValue key lines).or (if value = [] then none else some value)
        | none => frontmatterValue key lines

/-- The `name` of `parse_skill_frontmatter`. -/
def parseSkillName (contents : List Char) : Option (List Char) :=
  match Text.lines contents with
  | first :: lines => if Text.trim first = "---".toList then frontmatterValue "name:" lines else none
  | [] => none

/-- `read_skill_package_metadata`, without the description. -/
def readSkillPackageMetadata (package : PackageDir) : Except SkillRegistryError String :=
  match node package.walk ["SKILL.md"] with
  | some (.file bytes) =>
      match fromUtf8 bytes with
      | none => .error .io
      | some contents =>
          let named := (parseSkillName contents).filter fun value => Text.trim value ≠ []
          match (named.map String.ofList).or package.name with
          | some skillId => validateSkillId skillId
          | none => .error (.invalid "skill package is missing an id")
  | _ => .error .io

/-! ## Digests -/

/-- `\r\n` becomes `\n`. -/
def unixEnds : List UInt8 → List UInt8
  | 0x0D :: 0x0A :: rest => 0x0A :: unixEnds rest
  | byte :: rest => byte :: unixEnds rest
  | [] => []

/-- Only a text is changed. -/
def normalizeTextLineEndingsForDigest (bytes : List UInt8) : List UInt8 :=
  if (fromUtf8 bytes).isSome then unixEnds bytes else bytes

def fileOf : Location × Node → Option (Location × List UInt8)
  | (location, .file bytes) => some (location, bytes)
  | _ => none

/-- What the digest of a file is taken of: its path, a zero, and its content. -/
def digestInput (file : Location × List UInt8) : List UInt8 :=
  Utf8Stream.encode (Text.replace "\\" "/" ("/".intercalate file.1).toList) ++ 0 ::
    normalizeTextLineEndingsForDigest file.2

/-- `compute_directory_sha256`. -/
def computeDirectorySha256 (sha256 : List UInt8 → String) (walk : List (Location × Node)) :
    Except SkillRegistryError String :=
  if walk = [] then .error (.invalid "no such directory")
  else if walk.any (fun entry => entry.2 = .symlink) then
    .error (.invalid "skill package contains unsupported symlink")
  else
    .ok (sha256 (((walk.filterMap fileOf).insertionSort fun a b => a.1 ≤ b.1).flatMap digestInput))

/-! ## Versions -/

/-- The numbers between the dots, or the text if one of them is no number. -/
def parseVersion (value : String) : List UInt64 × String :=
  match (value.toList.splitOn '.').mapM Decimal.parseU64 with
  | some components => (components, "")
  | none => ([], value)

def compareVersions (left right : String) : Ordering :=
  ((compare (parseVersion left).1 (parseVersion right).1).then
    (compare (parseVersion left).2 (parseVersion right).2)).then (compare left right)

/-- `CARGO_PKG_VERSION`. -/
def packageVersion : String := "0.1.0"

def isSkillVersionCompatible (minimumOpenyakVersion : Option String) : Bool :=
  minimumOpenyakVersion.all fun minimum => compareVersions packageVersion minimum ≠ .lt

/-! ## Registries of available skills -/

structure RawSkillRegistryEntry where
  skillId : String
  version : String
  description : String
  placement : String
  packageLayout : String
  packagePath : String
  sha256 : String
  minimumOpenyakVersion : Option String := none

structure RawSkillRegistry where
  schemaVersion : UInt32
  registryId : String
  channel : String
  skills : List RawSkillRegistryEntry

structure SkillRegistryEntry where
  skillId : String
  version : String
  description : String
  placement : String
  packageLayout : String
  packageDir : PackageDir
  sha256 : String
  compatible : Bool

structure SkillRegistry where
  path : String
  registryId : String
  channel : String
  skills : List SkillRegistryEntry

def requireNonempty (value fieldName registryPath : String) :
    Except SkillRegistryError String :=
  if trimmed value = "" then
    .error (.invalid (registryPath ++ ": " ++ fieldName ++ " must not be empty"))
  else .ok (trimmed value)

/-- The error, unless the condition holds. -/
def ensure (condition : Bool) (error : SkillRegistryError) : Except SkillRegistryError Unit :=
  if condition then .ok () else .error error

def isHexDigit (c : Char) : Bool :=
  c.isDigit || ('a' ≤ c && c ≤ 'f') || ('A' ≤ c && c ≤ 'F')

def normalizeSha256 (value registryPath skillId version : String) :
    Except SkillRegistryError String :=
  let normalized := toAsciiLowercase (trimmed value)
  if normalized.toList.length ≠ 64 ∨ !normalized.toList.all isHexDigit then
    .error (.invalid (registryPath ++ ": invalid sha256 for " ++ skillId ++ "@" ++ version))
  else .ok normalized

section Load

-- `resolve_registry_package_dir` finds a directory below the registry's own.
variable (sha256 : List UInt8 → String)
variable (resolvePackageDir : String → Except SkillRegistryError PackageDir)

/-- One entry of the registry, after the ids and versions `seen`. -/
def loadEntry (path : String) (seen : List String) (raw : RawSkillRegistryEntry) :
    Except SkillRegistryError (SkillRegistryEntry × List String) := do
  let skillId ← requireNonempty raw.skillId "skill_id" path
  let version ← requireNonempty raw.version "version" path
  let description ← requireNonempty raw.description "description" path
  let placement ← requireNonempty raw.placement "placement" path
  let packageLayout ← requireNonempty raw.packageLayout "package_layout" path
  ensure (packageLayout = "skill_directory_v1") (.invalid (path ++
    ": unsupported package_layout " ++ packageLayout ++ " for " ++ skillId ++ "@" ++ version))
  let packagePath ← requireNonempty raw.packagePath "package_path" path
  let sha ← normalizeSha256 raw.sha256 path skillId version
  let duplicateKey := toAsciiLowercase skillId ++ "@" ++ version
  ensure (duplicateKey ∉ seen)
    (.invalid (path ++ ": duplicate registry entry for " ++ skillId ++ "@" ++ version))
  let packageDir ← resolvePackageDir packagePath
  let resolved ← (readSkillPackageMetadata packageDir).mapError fun _ =>
    .invalid (path ++ ": invalid skill package")
  ensure (eqIgnoreAsciiCase resolved skillId) (.invalid (path ++ ": registry skill_id " ++
    skillId ++ " does not match package id " ++ resolved))
  let actual ← computeDirectorySha256 sha256 packageDir.walk
  ensure (actual = sha)
    (.invalid (path ++ ": sha256 mismatch for " ++ skillId ++ "@" ++ version))
  let compatible := isSkillVersionCompatible raw.minimumOpenyakVersion
  return (⟨skillId, version, description, placement, packageLayout, packageDir, actual,
    compatible⟩, duplicateKey :: seen)

def loadEntries (path : String) : (seen : List String) → List RawSkillRegistryEntry →
    Except SkillRegistryError (List SkillRegistryEntry)
  | _, [] => .ok []
  | seen, raw :: rest => do
      let (entry, seen) ← loadEntry sha256 resolvePackageDir path seen raw
      let entries ← loadEntries path seen rest
      return entry :: entries

/-- By id, and the newest version first. -/
def listedBefore (a b : SkillRegistryEntry) : Bool :=
  ((compare (toAsciiLowercase a.skillId) (toAsciiLowercase b.skillId)).then
    (compareVersions b.version a.version)) ≠ .gt

/-- `load_skill_registry`, after the file has been parsed. -/
def loadSkillRegistry (path : String) (raw : RawSkillRegistry) :
    Except SkillRegistryError SkillRegistry := do
  ensure (raw.schemaVersion ≠ 0)
    (.invalid (path ++ ": schema_version must be a positive integer"))
  let registryId ← requireNonempty raw.registryId "registry_id" path
  let channel ← requireNonempty raw.channel "channel" path
  let skills ← loadEntries sha256 resolvePackageDir path [] raw.skills
  return ⟨path, registryId, channel, skills.insertionSort fun a b => listedBefore a b⟩

end Load

def selectRegistryEntry (registry : SkillRegistry) (skillId : String) (version : Option String) :
    Except SkillRegistryError SkillRegistryEntry :=
  let candidates := registry.skills.filter fun entry => eqIgnoreAsciiCase entry.skillId skillId
  if candidates.isEmpty then
    .error (.invalid ("skill " ++ skillId ++ " is not available in " ++ registry.path))
  else
    match version with
    | some version =>
        match candidates.find? fun entry => entry.version = version with
        | some entry => .ok entry
        | none => .error (.invalid ("skill " ++ skillId ++ " version " ++ version ++
            " is not available in " ++ registry.path))
    | none =>
        let compatible := candidates.filter SkillRegistryEntry.compatible
        match compatible.insertionSort
            (fun a b => compareVersions b.version a.version ≠ .gt) with
        | entry :: _ => .ok entry
        | [] => .error (.invalid ("skill " ++ skillId ++ " has no compatible versions in " ++
            registry.path))

def ensureStandardPlacement (entry : SkillRegistryEntry) (registryPath : String) :
    Except SkillRegistryError Unit :=
  if eqIgnoreAsciiCase entry.placement "standard" then .ok ()
  else .error (.invalid (registryPath ++ ": registry-managed installs only support " ++
    "standard placement in phase 1 (got " ++ entry.placement ++ " for " ++ entry.skillId ++ "@" ++
    entry.version ++ ")"))

/-! ## The registry of installed skills -/

structure InstalledSkillRecord where
  skillId : String
  version : String
  registryId : String
  channel : String
  placement : String
  installRoot : Location
  sourcePath : String
  sha256 : String
  installedAtUnixMs : Nat
  updatedAtUnixMs : Nat
  pinnedVersion : Option String
  deriving DecidableEq, Repr

structure InstalledSkillRegistry where
  skills : OrderedMap String InstalledSkillRecord := .empty
  deriving DecidableEq

def findRecordKey (registry : InstalledSkillRegistry) (skillId : String) : Option String :=
  registry.skills.keys.find? fun candidate => eqIgnoreAsciiCase candidate skillId

/-- SHA-256 in hexadecimal, and the text of `installed.json` written and read. -/
structure SkillHost where
  sha256 : List UInt8 → String
  toStringPretty : InstalledSkillRegistry → List Char
  fromStr : List Char → Except String InstalledSkillRegistry

/-- `default_managed_skills_root`, from the home. -/
def managedRoot : Location := ["skills", ".managed"]

def registryPath : Location := managedRoot ++ ["installed.json"]

def tempRoot : Location := managedRoot ++ [".tmp"]

def installPath (skillId : String) : Location := managedRoot ++ [skillId]

/-- A step that is done or not. -/
inductive SkillStep where
  | readRegistry
  | probeInstall
  | moveAside
  | moveIn
  | moveBack
  | probeBackup
  | probeInstalled
  deriving DecidableEq, Repr

/-- A step that fails, and what it leaves: how many directories it has made, the content of
a file, or the entries of a directory it has not removed. -/
inductive Fault where
  | stops (step : SkillStep)
  | createTemp (made : Nat)
  | copy (index : Nat) (left : Option (List UInt8))
  | createParent (made : Nat)
  | removeBackup (kept : Location → Bool)
  | removeInstalled (kept : Location → Bool)
  | createRoot (made : Nat)
  | writeRegistry (left : Option (List UInt8))

def hits (fault : Option Fault) (step : SkillStep) : Bool :=
  match fault with
  | some (.stops found) => found = step
  | _ => false

/-! ## Steps on the tree -/

/-- A program of this module. -/
abbrev SkillAction (α : Type) : Type := Action Tree SkillRegistryError α

/-- A step that changes the tree and tells whether it has done all of it. -/
def call (act : Tree → Bool × Tree) : SkillAction Unit := fun tree =>
  (if (act tree).1 then .ok () else .error .io, (act tree).2)

/-- A step that changes the tree or does nothing. -/
def callOrNothing (act : Tree → Option Tree) : SkillAction Unit := fun tree =>
  match act tree with
  | some after => (.ok (), after)
  | none => (.error .io, tree)

/-- A step that fails behind some of what it does. -/
def failing (act : Tree → Tree) : SkillAction Unit := fun tree => (.error .io, act tree)

def ofResult {α : Type} (result : Except SkillRegistryError α) : SkillAction α := fun tree =>
  (result, tree)

/-- `create_dir_all`, which fails behind the first directories when a fault says so. -/
def createDirs (location : Location) (made : Option Nat) : SkillAction Unit :=
  match made with
  | none => call fun tree => DirTree.createDirAll tree location
  | some made => failing fun tree => (makeDirs tree (location.inits.take made)).2

/-- `remove_dir_all`. -/
def removeDirs (location : Location) (kept : Option (Location → Bool)) : SkillAction Unit :=
  match kept with
  | none => Action.modify fun tree => remove tree location
  | some kept => failing fun tree => tree.filter fun entry =>
      !location.isPrefixOf entry.1 || kept entry.1

/-- `fs::rename`. -/
def renameDir (source target : Location) (fails : Bool) : SkillAction Unit :=
  if fails then Action.fail .io else callOrNothing fun tree => rename tree source target

/-- `exists`, which is false of what it cannot look at. -/
def exists_ (location : Location) (fails : Bool) : SkillAction Bool := fun tree =>
  (.ok (present tree location && !fails), tree)

section Host

variable (host : SkillHost)

def loadInstalledSkillRegistry (tree : Tree) : Except SkillRegistryError InstalledSkillRegistry :=
  match node tree registryPath with
  | none => .ok {}
  | some (.file bytes) =>
      match fromUtf8 bytes with
      | none => .error .io
      | some contents =>
          if Text.trim contents = [] then .ok {}
          else (host.fromStr contents).mapError .parse
  | some .directory | some .symlink => .error .io

def readInstalled (fault : Option Fault) : SkillAction InstalledSkillRegistry := fun tree =>
  (if hits fault .readRegistry then .error .io else loadInstalledSkillRegistry host tree, tree)

def Fault.root? : Fault → Option Nat
  | .createRoot made => some made
  | _ => none

def registryBytes (registry : InstalledSkillRegistry) : List UInt8 :=
  Utf8Stream.encode (host.toStringPretty registry ++ ['\n'])

def saveInstalledSkillRegistry (fault : Option Fault) (registry : InstalledSkillRegistry) :
    SkillAction Unit := do
  createDirs managedRoot (fault.bind Fault.root?)
  match fault with
  | some (.writeRegistry none) => Action.fail .io
  | some (.writeRegistry (some left)) =>
      failing fun tree => (write tree registryPath left).getD tree
  | _ => callOrNothing fun tree => write tree registryPath (registryBytes host registry)

/-! ## Staging and committing -/

def Fault.temp? : Fault → Option Nat
  | .createTemp made => some made
  | _ => none

/-- The entries before the one that fails, and what is left of it. -/
def copyDirRecursive (fault : Option Fault) (source : List (Location × Node))
    (destination : Location) : SkillAction Unit :=
  match fault with
  | some (.copy index left) =>
      match source[index]?, left with
      | none, _ => call fun tree => copyAll tree destination source
      | some _, none => failing fun tree => (copyAll tree destination (source.take index)).2
      | some entry, some left => failing fun tree =>
          let copied := copyAll tree destination (source.take index)
          if copied.1 then (copyEntry copied.2 destination (entry.1, .file left)).2 else copied.2
  | _ => call fun tree => copyAll tree destination source

def stagedPath (skillId : String) (now : Nat) : Location :=
  tempRoot ++ [skillId ++ "-" ++ toString now]

def stageSkillPackage (fault : Option Fault) (package : PackageDir) (skillId : String)
    (now : Nat) : SkillAction Location := do
  createDirs tempRoot (fault.bind Fault.temp?)
  copyDirRecursive fault package.walk (stagedPath skillId now)
  return stagedPath skillId now

def Fault.parent? : Fault → Option Nat
  | .createParent made => some made
  | _ => none

def Fault.backup? : Fault → Option (Location → Bool)
  | .removeBackup kept => some kept
  | _ => none

def backupPath (skillId : String) (now : Nat) : Location :=
  tempRoot ++ [skillId ++ "-backup-" ++ toString now]

def commitStagedSkill (fault : Option Fault) (staged : Location) (skillId : String) (now : Nat) :
    SkillAction Unit := do
  createDirs managedRoot (fault.bind Fault.parent?)
  if !(← exists_ (installPath skillId) (hits fault .probeInstall)) then
    renameDir staged (installPath skillId) (hits fault .moveIn)
  else
    renameDir (installPath skillId) (backupPath skillId now) (hits fault .moveAside)
    match ← (renameDir staged (installPath skillId) (hits fault .moveIn)).attempt with
    | .ok () =>
        if ← exists_ (backupPath skillId now) (hits fault .probeBackup) then
          removeDirs (backupPath skillId now) (fault.bind Fault.backup?)
    | .error error =>
        let _ ← (renameDir (backupPath skillId now) (installPath skillId)
          (hits fault .moveBack)).attempt
        Action.fail error

/-! ## Calls -/

/-- What the clock says when a package is staged, when a directory is moved aside, and when
a record is made. -/
structure Clock where
  staged : Nat
  backup : Nat
  record : Nat
  deriving DecidableEq, Repr

inductive SkillOutcome where
  | installed (record : InstalledSkillRecord)
  | updated (oldRecord newRecord : InstalledSkillRecord)
  | unchanged (record : InstalledSkillRecord)
  | pinned (record : InstalledSkillRecord)
  | uninstalled (record : InstalledSkillRecord)
  deriving DecidableEq, Repr

def notManaged (skillId : String) : SkillRegistryError :=
  .invalid ("skill " ++ skillId ++ " is not registry-managed")

def installManagedSkill (fault : Option Fault) (clock : Clock) (registry : SkillRegistry)
    (skillId : String) (version : Option String) : SkillAction SkillOutcome := do
  let entry ← ofResult (selectRegistryEntry registry skillId version)
  ofResult (ensureStandardPlacement entry registry.path)
  let installed ← readInstalled host fault
  match (findRecordKey installed entry.skillId).bind installed.skills.get with
  | some existing =>
      if existing.version = entry.version ∧ existing.sha256 = entry.sha256 then
        return .unchanged existing
      else
        Action.fail (.invalid ("skill " ++ existing.skillId ++ " is already installed at version " ++
          existing.version ++ "; use skills update " ++ existing.skillId ++ " instead"))
  | none =>
      let staged ← stageSkillPackage fault entry.packageDir entry.skillId clock.staged
      commitStagedSkill fault staged entry.skillId clock.backup
      let record : InstalledSkillRecord :=
        { skillId := entry.skillId
          version := entry.version
          registryId := registry.registryId
          channel := registry.channel
          placement := entry.placement
          installRoot := managedRoot
          sourcePath := registry.path
          sha256 := entry.sha256
          installedAtUnixMs := clock.record
          updatedAtUnixMs := clock.record
          pinnedVersion := version }
      saveInstalledSkillRegistry host fault
        ⟨installed.skills.insert (toAsciiLowercase record.skillId) record⟩
      return .installed record

def updateManagedSkill (fault : Option Fault) (clock : Clock) (registry : SkillRegistry)
    (skillId : String) (version : Option String) : SkillAction SkillOutcome := do
  let installed ← readInstalled host fault
  match findRecordKey installed skillId with
  | none => Action.fail (notManaged skillId)
  | some recordKey =>
      match installed.skills.get recordKey with
      | none => Action.fail (notManaged skillId)
      | some existing =>
          if version.isNone ∧ existing.pinnedVersion.isSome then return .pinned existing
          else
            let entry ← ofResult (selectRegistryEntry registry existing.skillId version)
            ofResult (ensureStandardPlacement entry registry.path)
            if existing.version = entry.version ∧ existing.sha256 = entry.sha256 then
              return .unchanged existing
            else
              let staged ← stageSkillPackage fault entry.packageDir existing.skillId clock.staged
              commitStagedSkill fault staged existing.skillId clock.backup
              let updated : InstalledSkillRecord :=
                { skillId := existing.skillId
                  version := entry.version
                  registryId := registry.registryId
                  channel := registry.channel
                  placement := entry.placement
                  installRoot := managedRoot
                  sourcePath := registry.path
                  sha256 := entry.sha256
                  installedAtUnixMs := existing.installedAtUnixMs
                  updatedAtUnixMs := clock.record
                  pinnedVersion := version.or existing.pinnedVersion }
              saveInstalledSkillRegistry host fault ⟨installed.skills.insert recordKey updated⟩
              return .updated existing updated

def Fault.installed? : Fault → Option (Location → Bool)
  | .removeInstalled kept => some kept
  | _ => none

def uninstallManagedSkill (fault : Option Fault) (skillId : String) :
    SkillAction SkillOutcome := do
  let installed ← readInstalled host fault
  match findRecordKey installed skillId with
  | none => Action.fail (notManaged skillId)
  | some recordKey =>
      match installed.skills.get recordKey with
      | none => Action.fail (notManaged skillId)
      | some record =>
          if ← exists_ (installPath record.skillId) (hits fault .probeInstalled) then
            removeDirs (installPath record.skillId) (fault.bind Fault.installed?)
          saveInstalledSkillRegistry host fault ⟨installed.skills.remove recordKey⟩
          return .uninstalled record

end Host

end Openyak.Runtime
