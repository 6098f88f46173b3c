/-
# Runtime.ManagedSkills -- runs of the managed skills, and one that goes wrong

Calls that are sound where they start keep the records and their directories in agreement,
and the next sound call that fails changes neither (`managed_skills_agree`).

What is not sound: a step that fails behind the commit of an update, or behind the first
removal of an uninstall; a registry file that is written in part; a skill called
`installed.json`; and a package that is staged where something was left at the same
millisecond.
-/
import Openyak.Runtime.SkillsAgree
import Mathlib.Data.List.TakeWhile
import Mathlib.Logic.Equiv.List

namespace Openyak.Runtime

open Openyak.Theory
open Openyak.Theory.DirTree
open Openyak.Theory.Posix (Location)

set_option autoImplicit false

variable {host : SkillHost}

/-- Nothing is where a package of this skill is staged now. -/
def SkillCall.Free (tree : Tree) (call : SkillCall host) (skillId : String) : Prop :=
  below tree (stagedPath skillId call.clock.staged) = []

def SkillCall.Sound (tree : Tree) (call : SkillCall host) : Prop :=
  match call.request with
  | .install available _ skillId version =>
      (∀ entry, selectRegistryEntry available skillId version = .ok entry →
        entry.skillId ≠ "installed.json" ∧ call.Free tree entry.skillId) ∧
      ∀ left, call.fault ≠ some (.writeRegistry (some left))
  | .update _ _ skillId _ =>
      (∀ registry key record, loadInstalledSkillRegistry host tree = .ok registry →
        findRecordKey registry skillId = some key → registry.skills.get key = some record →
        call.Free tree record.skillId) ∧
      ∀ fault ∈ call.fault, Fault.early fault = true
  | .uninstall _ => ∀ fault ∈ call.fault, Fault.harmless fault

/-- **One sound call.** -/
theorem perform_concludes (rereads : host.Rereads) {tree : Tree}
    {registry : InstalledSkillRegistry} (orderly : Orderly host tree registry)
    {call : SkillCall host} (sound : call.Sound tree) :
    Concludes host registry tree (perform call tree) := by
  obtain ⟨request, clock, fault⟩ := call
  cases request with
  | install available accepted skillId version =>
      obtain ⟨free, notPart⟩ := sound
      exact install_concludes rereads orderly accepted free notPart
  | update available accepted skillId version =>
      obtain ⟨free, early⟩ := sound
      exact update_concludes rereads orderly accepted
        (fun found there => free registry _ _ orderly.loads found there) early
  | uninstall skillId => exact uninstall_concludes rereads orderly sound

theorem skillStep_orderly (rereads : host.Rereads) {tree after : Tree} {call : SkillCall host}
    (orderly : ∃ registry, Orderly host tree registry) (sound : call.Sound tree)
    (steps : skillStep tree call = some after) : ∃ registry, Orderly host after registry := by
  obtain ⟨registry, orderly⟩ := orderly
  have concludes := perform_concludes rereads orderly sound
  cases steps
  cases done : perform call tree with
  | mk result after =>
      rw [done] at concludes
      cases result with
      | ok outcome => exact concludes
      | error error => exact ⟨registry, orderly.kept concludes⟩

/-- **Managed skills agree with their registry** in every run of sound calls, and a sound
call that fails leaves the records and their directories as they were. -/
theorem managed_skills_agree (rereads : host.Rereads) {start last : Tree}
    {registry : InstalledSkillRegistry} (orderly : Orderly host start registry)
    {calls : List (SkillCall host)} (run : Run skillStep SkillCall.Sound start calls last) :
    ∃ registry, Agrees host last registry ∧
      ∀ call : SkillCall host, call.Sound last → ∀ error after,
        perform call last = (.error error, after) → Kept host registry last after := by
  have kept : ∃ registry, Orderly host last registry :=
    run.invariant (fun tree => ∃ registry, Orderly host tree registry)
      (fun _ _ _ held sound steps => skillStep_orderly rereads held sound steps) ⟨registry, orderly⟩
  obtain ⟨registry, orderly⟩ := kept
  refine ⟨registry, orderly.agrees, fun call sound error after failed => ?_⟩
  have concludes := perform_concludes rereads orderly sound
  rw [failed] at concludes
  exact concludes

/-- A home without skills. -/
theorem orderly_fresh (host : SkillHost) : Orderly host [] {} where
  loads := rfl
  present := nofun
  keyed := nofun
  segment := nofun
  file := nofun
  temp := nofun
  root := nofun

/-! ## A skill of two versions -/

section Codes

instance instEncodableChar : Encodable Char :=
  .ofLeftInjection Char.toNat (fun code => some (Char.ofNat code)) fun c => by simp

instance instEncodableString : Encodable String :=
  .ofLeftInjection String.toList (fun chars => some (String.ofList chars)) fun text => by simp

instance : Encodable Location := inferInstanceAs (Encodable (List String))

instance : Encodable InstalledSkillRecord :=
  .ofLeftInjection
    (fun record => (record.skillId, record.version, record.registryId, record.channel,
      record.placement, record.installRoot, record.sourcePath, record.sha256,
      record.installedAtUnixMs, record.updatedAtUnixMs, record.pinnedVersion))
    (fun (skillId, version, registryId, channel, placement, installRoot, sourcePath, sha256,
      installed, updated, pinned) => some ⟨skillId, version, registryId, channel, placement,
        installRoot, sourcePath, sha256, installed, updated, pinned⟩)
    fun _ => rfl

instance : Encodable InstalledSkillRegistry :=
  haveI : DecidablePred (KeysGrow (κ := String) (α := InstalledSkillRecord)) := fun entries =>
    inferInstanceAs (Decidable (entries.Pairwise fun a b => a.1 < b.1))
  .ofLeftInjection (fun registry => registry.skills.entries)
    (fun entries => if grow : KeysGrow entries then some ⟨⟨entries, grow⟩⟩ else none)
    fun registry => by simp [registry.skills.sorted]

end Codes

/-- Some registries as they are written, and every other by its number. -/
def listedHost (sha256 : List UInt8 → String) (texts : List (InstalledSkillRegistry × List Char)) :
    SkillHost where
  sha256 := sha256
  toStringPretty registry :=
    match texts.find? fun listed => listed.1 = registry with
    | some listed => listed.2
    | none => List.replicate (Encodable.encode registry + 1) '#'
  fromStr text :=
    match texts.find? fun listed => listed.2 ++ ['\n'] = text with
    | some listed => .ok listed.1
    | none =>
        match text.head?, Encodable.decode (text.length - 2) with
        | some '#', some registry => .ok registry
        | _, _ => .error "expected value at line 1 column 1"

section Listed

variable {sha256 : List UInt8 → String} {texts : List (InstalledSkillRegistry × List Char)}

theorem trim_visible {text : List Char} {first : Char} (begins : text.head? = some first)
    (visible : Text.isWhitespace first = false) : Text.trim text ≠ [] := by
  obtain ⟨rest, rfl⟩ := List.head?_eq_some_iff.1 begins
  intro blank
  rw [Text.trim, Text.trimStart, List.dropWhile_cons_of_neg (by simp [visible]), Text.trimEnd,
    List.reverse_eq_nil_iff, List.dropWhile_eq_nil_iff] at blank
  have white := blank first (by simp)
  rw [visible] at white
  cases white

theorem listedHost_rereads (objects : ∀ listed ∈ texts, listed.2.head? = some '\x7b')
    (apart : (texts.map Prod.snd).Nodup) : (listedHost sha256 texts).Rereads where
  reads := by
    intro registry
    unfold listedHost
    dsimp only
    cases written : texts.find? fun listed => listed.1 = registry with
    | some listed =>
        have same : listed.1 = registry := by simpa using List.find?_some written
        have member := List.mem_of_find?_eq_some written
        cases read : texts.find? fun other => other.2 ++ ['\n'] = listed.2 ++ ['\n'] with
        | some other =>
            have texts' : other.2 = listed.2 := by simpa using List.find?_some read
            have found := List.inj_on_of_nodup_map apart (List.mem_of_find?_eq_some read) member texts'
            simp only [found, same]
        | none =>
            have other := List.find?_eq_none.1 read listed member
            simp at other
    | none =>
        have unlisted : texts.find? (fun listed => listed.2 ++ ['\n'] =
            List.replicate (Encodable.encode registry + 1) '#' ++ ['\n']) = none := by
          apply List.find?_eq_none.2
          intro listed member same
          have begins := objects listed member
          rw [List.append_cancel_right (of_decide_eq_true same)] at begins
          cases begins
        dsimp only
        rw [unlisted, List.length_append, List.length_replicate, List.head?_append,
          List.replicate_succ]
        simp
  solid := by
    intro registry
    unfold listedHost
    dsimp only
    cases written : texts.find? fun listed => listed.1 = registry with
    | some listed =>
        have begins := objects listed (List.mem_of_find?_eq_some written)
        exact trim_visible (by rw [List.head?_append, begins]; rfl) (by decide)
    | none => exact trim_visible rfl (show Text.isWhitespace '#' = false by decide)

end Listed

/-- A walk of a directory that holds `SKILL.md`. -/
def skillWalk (text : String) : List (Location × Node) :=
  [([], .directory), (["SKILL.md"], .file (Utf8Stream.encode text.toList))]

theorem skillWalk_walked (text : String) : Walk [] (skillWalk text) := by
  refine ⟨rfl, fun above before other => absurd (List.prefix_nil.1 before) other, rfl, ?_, trivial⟩
  intro above before other
  obtain rfl | ⟨rest, rfl, behind⟩ := List.prefix_cons_iff.1 before
  · rfl
  · rw [List.prefix_nil.1 behind] at other
    exact absurd rfl other

def deltaSkill (text : String) : PackageDir :=
  ⟨some "delta", skillWalk text, skillWalk_walked text, rfl⟩

def delta1 : PackageDir := deltaSkill "---\nname: delta\n---\n"

def delta2 : PackageDir := deltaSkill "---\nname: delta\n---\nReview the change.\n"

def delta1Sha : String := "e4b5a116c791ae5628364a3f38f04725b73e66fd59e99db9cf06a71b9902707a"

def delta2Sha : String := "46f49cabba572ef5fc2116053613708e5716434e4f2acf8f45eeec839873a295"

def deltaRecord : InstalledSkillRecord where
  skillId := "delta"
  version := "1.0.0"
  registryId := "team"
  channel := "stable"
  placement := "standard"
  installRoot := managedRoot
  sourcePath := "/srv/skills/registry.json"
  sha256 := delta1Sha
  installedAtUnixMs := 1754000000002
  updatedAtUnixMs := 1754000000002
  pinnedVersion := some "1.0.0"

def deltaInstalled : InstalledSkillRegistry :=
  ⟨OrderedMap.empty.insert "delta" deltaRecord⟩

/-- How the text of a registry begins. -/
def skillsText : List Char :=
  ['\x7b', '\n', ' ', ' ', '"', 's', 'k', 'i', 'l', 'l', 's', '"', ':', ' ', '\x7b']

def deltaText : List Char :=
  skillsText ++ '\n' ::
    ("    \"delta\": \x7b\n      \"skill_id\": \"delta\",\n" ++
    "      \"version\": \"1.0.0\",\n      \"registry_id\": \"team\",\n" ++
    "      \"channel\": \"stable\",\n      \"placement\": \"standard\",\n" ++
    "      \"install_root\": \"/root/.openyak/skills/.managed\",\n" ++
    "      \"source_path\": \"/srv/skills/registry.json\",\n" ++
    "      \"sha256\": \"" ++ delta1Sha ++ "\",\n" ++
    "      \"installed_at_unix_ms\": 1754000000002,\n" ++
    "      \"updated_at_unix_ms\": 1754000000002,\n      \"pinned_version\": \"1.0.0\"\n" ++
    "    \x7d\n  \x7d\n\x7d").toList

def emptyText : List Char := skillsText ++ ['\x7d', '\n', '\x7d']

/-- The registries of the runs below as they are written. -/
def deltaHost : SkillHost :=
  listedHost
    (fun bytes => if bytes.length < 40 then delta1Sha else delta2Sha)
    [(deltaInstalled, deltaText), ({}, emptyText)]

theorem deltaHost_rereads : deltaHost.Rereads :=
  listedHost_rereads (by decide +kernel) (by decide +kernel)

def deltaEntry (version sha : String) : RawSkillRegistryEntry where
  skillId := "delta"
  version := version
  description := "Release notes"
  placement := "standard"
  packageLayout := "skill_directory_v1"
  packagePath := version
  sha256 := sha

def deltaRaw : RawSkillRegistry where
  schemaVersion := 1
  registryId := "team"
  channel := "stable"
  skills := [deltaEntry "1.0.0" delta1Sha, deltaEntry "1.1.0" delta2Sha]

def deltaLoaded : Except SkillRegistryError SkillRegistry :=
  loadSkillRegistry deltaHost.sha256 (fun path => .ok (if path = "1.0.0" then delta1 else delta2))
    "/srv/skills/registry.json" deltaRaw

/-- A trimmed hexadecimal text in lower case is its own digest. -/
theorem normalizeSha256_steady {value : String}
    (steady : Text.toAsciiLowercase (Text.trim value.toList) = value.toList ∧
      value.toList.length = 64 ∧ value.toList.all isHexDigit = true)
    (registryPath skillId version : String) :
    normalizeSha256 value registryPath skillId version = .ok value := by
  obtain ⟨same, length, hex⟩ := steady
  have normalized : toAsciiLowercase (trimmed value) = value := by
    rw [toAsciiLowercase, trimmed, String.toList_ofList, same, String.ofList_toList]
  rw [normalizeSha256, normalized]
  simp [length, hex]

def deltaOffer (version sha text : String) : SkillRegistryEntry where
  skillId := "delta"
  version := version
  description := "Release notes"
  placement := "standard"
  packageLayout := "skill_directory_v1"
  packageDir := deltaSkill text
  sha256 := sha
  compatible := true

theorem loadEntry_delta {dirs : String → Except SkillRegistryError PackageDir}
    {version sha text path : String} {seen : List String}
    (named : trimmed version = version ∧ version ≠ "") (fresh : "delta" ++ "@" ++ version ∉ seen)
    (steady : normalizeSha256 sha path "delta" version = .ok sha)
    (dir : dirs version = .ok (deltaSkill text))
    (isDelta : readSkillPackageMetadata (deltaSkill text) = .ok "delta")
    (digest : computeDirectorySha256 deltaHost.sha256 (deltaSkill text).walk = .ok sha) :
    loadEntry deltaHost.sha256 dirs path seen (deltaEntry version sha) =
      .ok (deltaOffer version sha text, ("delta" ++ "@" ++ version) :: seen) := by
  have read (value fieldName : String) (plain : trimmed value = value ∧ value ≠ "") :
      requireNonempty value fieldName path = .ok value := by
    rw [requireNonempty, plain.1, if_neg plain.2]
  have lower : toAsciiLowercase "delta" = "delta" := by decide
  have passes (condition : Bool) (error : SkillRegistryError) (holds : condition = true) :
      ensure condition error = .ok () := if_pos holds
  simp only [loadEntry, deltaEntry, read "delta" _ (by decide), read version _ named,
    read "Release notes" _ (by decide), read "standard" _ (by decide),
    read "skill_directory_v1" _ (by decide), ok_bind, steady, dir, isDelta, digest, lower,
    passes _ _ (decide_eq_true fresh), Except.mapError]
  rw [passes _ _ (show eqIgnoreAsciiCase "delta" "delta" = true from decide_eq_true rfl)]
  rfl

def deltaRegistry : SkillRegistry where
  path := "/srv/skills/registry.json"
  registryId := "team"
  channel := "stable"
  skills := [deltaOffer "1.1.0" delta2Sha "---\nname: delta\n---\nReview the change.\n",
    deltaOffer "1.0.0" delta1Sha "---\nname: delta\n---\n"]

def deltaDirs (path : String) : Except SkillRegistryError PackageDir :=
  .ok (if path = "1.0.0" then delta1 else delta2)

theorem delta1_loads : loadEntry deltaHost.sha256 deltaDirs "/srv/skills/registry.json" []
    (deltaEntry "1.0.0" delta1Sha) =
      .ok (deltaOffer "1.0.0" delta1Sha "---\nname: delta\n---\n", ["delta" ++ "@" ++ "1.0.0"]) :=
  loadEntry_delta (by decide) (by simp) (normalizeSha256_steady (by decide +kernel) _ _ _)
    (by simp [deltaDirs, delta1]) (by decide +kernel) (by decide +kernel)

theorem delta2_loads : loadEntry deltaHost.sha256 deltaDirs "/srv/skills/registry.json"
    ["delta" ++ "@" ++ "1.0.0"] (deltaEntry "1.1.0" delta2Sha) =
      .ok (deltaOffer "1.1.0" delta2Sha "---\nname: delta\n---\nReview the change.\n",
        ["delta" ++ "@" ++ "1.1.0", "delta" ++ "@" ++ "1.0.0"]) :=
  loadEntry_delta (by decide) (by decide) (normalizeSha256_steady (by decide +kernel) _ _ _)
    (by simp [deltaDirs, delta2]) (by decide +kernel) (by decide +kernel)

theorem loadEntries_cons {sha256 : List UInt8 → String}
    {dirs : String → Except SkillRegistryError PackageDir} {path : String}
    {seen after : List String} {raw : RawSkillRegistryEntry} {rest : List RawSkillRegistryEntry}
    {entry : SkillRegistryEntry} {entries : List SkillRegistryEntry}
    (first : loadEntry sha256 dirs path seen raw = .ok (entry, after))
    (others : loadEntries sha256 dirs path after rest = .ok entries) :
    loadEntries sha256 dirs path seen (raw :: rest) = .ok (entry :: entries) := by
  rw [loadEntries, first, ok_bind]
  dsimp only
  rw [others]
  rfl

theorem delta_entries : loadEntries deltaHost.sha256 deltaDirs "/srv/skills/registry.json" []
    deltaRaw.skills = .ok [deltaOffer "1.0.0" delta1Sha "---\nname: delta\n---\n",
      deltaOffer "1.1.0" delta2Sha "---\nname: delta\n---\nReview the change.\n"] :=
  loadEntries_cons delta1_loads (loadEntries_cons delta2_loads rfl)

theorem deltaLoaded_eq : deltaLoaded = .ok deltaRegistry := by
  have plain (value fieldName path : String) (plain : trimmed value = value ∧ value ≠ "") :
      requireNonempty value fieldName path = .ok value := by
    rw [requireNonempty, plain.1, if_neg plain.2]
  have sorted : [deltaOffer "1.0.0" delta1Sha "---\nname: delta\n---\n",
      deltaOffer "1.1.0" delta2Sha "---\nname: delta\n---\nReview the change.\n"].insertionSort
        (fun a b => listedBefore a b) = deltaRegistry.skills := by
    have before : listedBefore (deltaOffer "1.0.0" delta1Sha "---\nname: delta\n---\n")
        (deltaOffer "1.1.0" delta2Sha "---\nname: delta\n---\nReview the change.\n") = false := by
      decide +kernel
    simp [List.insertionSort, before, deltaRegistry]
  have loaded : loadSkillRegistry deltaHost.sha256 deltaDirs "/srv/skills/registry.json" deltaRaw =
      .ok deltaRegistry := by
    rw [loadSkillRegistry, delta_entries]
    simp only [ok_bind, sorted, show requireNonempty deltaRaw.registryId "registry_id"
      "/srv/skills/registry.json" = .ok "team" from plain _ _ _ (by decide),
      show requireNonempty deltaRaw.channel "channel" "/srv/skills/registry.json" = .ok "stable" from
        plain _ _ _ (by decide)]
    rfl
  exact loaded

theorem deltaLoaded_ok : deltaLoaded.toOption.isSome = true := by
  rw [deltaLoaded_eq]
  rfl

def deltaAvailable : SkillRegistry := deltaLoaded.toOption.get deltaLoaded_ok

theorem ok_toOption {α : Type} (result : Except SkillRegistryError α)
    (isOk : result.toOption.isSome = true) : result = .ok (result.toOption.get isOk) := by
  cases result with
  | ok value => rfl
  | error error => cases isOk

theorem deltaAvailable_accepted : Accepted deltaHost deltaAvailable :=
  ⟨_, _, deltaRaw, ok_toOption deltaLoaded deltaLoaded_ok⟩

theorem deltaAvailable_eq : deltaAvailable = deltaRegistry := by
  have loaded : deltaLoaded.toOption = some deltaRegistry := congrArg Except.toOption deltaLoaded_eq
  exact Option.some.inj ((Option.some_get deltaLoaded_ok).trans loaded)

theorem deltaAvailable_skills : ∀ entry ∈ deltaAvailable.skills, entry.skillId = "delta" := by
  rw [deltaAvailable_eq]
  simp [deltaRegistry, deltaOffer]

def deltaInstall : SkillCall deltaHost where
  request := .install deltaAvailable deltaAvailable_accepted "delta" (some "1.0.0")
  clock := ⟨1754000000000, 1754000000001, 1754000000002⟩
  fault := none

def deltaUpdate : SkillCall deltaHost where
  request := .update deltaAvailable deltaAvailable_accepted "delta" (some "1.1.0")
  clock := ⟨1754000001000, 1754000001001, 1754000001002⟩
  fault := some (.copy 1 none)

def deltaUninstall (fault : Option Fault) : SkillCall deltaHost where
  request := .uninstall "delta"
  clock := ⟨1754000002000, 1754000002001, 1754000002002⟩
  fault := fault

/-- What stands in the home behind the installation. -/
def deltaTree : Tree :=
  [([], .directory), (["skills"], .directory), (managedRoot, .directory),
    (managedRoot ++ [".tmp"], .directory), (installPath "delta", .directory),
    (installPath "delta" ++ ["SKILL.md"], .file (Utf8Stream.encode "---\nname: delta\n---\n".toList)),
    (registryPath, .file (registryBytes deltaHost deltaInstalled))]

theorem deltaInstall_tree : (perform deltaInstall []).2 = deltaTree := by
  show (installManagedSkill deltaHost none deltaInstall.clock deltaAvailable "delta" (some "1.0.0")
    []).2 = deltaTree
  rw [deltaAvailable_eq]
  with_unfolding_all rfl

theorem deltaInstall_writes : node (perform deltaInstall []).2 registryPath =
    some (.file (registryBytes deltaHost deltaInstalled)) := by
  rw [deltaInstall_tree]
  with_unfolding_all rfl

theorem deltaInstall_sound : deltaInstall.Sound [] := by
  refine ⟨fun entry selected => ⟨?_, rfl⟩, nofun⟩
  rw [deltaAvailable_skills entry (selected_entry selected)]
  decide

theorem deltaUpdate_sound : deltaUpdate.Sound (perform deltaInstall []).2 := by
  refine ⟨fun registry key record loads found there => ?_, by simp [deltaUpdate, Fault.early]⟩
  rw [loads_written deltaHost_rereads deltaInstall_writes] at loads
  cases loads
  have known : (some key).bind deltaInstalled.skills.get = some record := there
  have isDelta : (findRecordKey deltaInstalled "delta").bind deltaInstalled.skills.get =
      some deltaRecord := by decide
  rw [found, known] at isDelta
  cases isDelta
  show below (perform deltaInstall []).2 (stagedPath "delta" 1754000001000) = []
  rw [deltaInstall_tree]
  with_unfolding_all rfl

theorem managed_skills_agree_delta : ∃ (calls : List (SkillCall deltaHost)) (last : Tree),
    Run skillStep SkillCall.Sound [] calls last ∧ calls.length = 3 ∧
      ∃ registry, Agrees deltaHost last registry ∧
        ∀ call : SkillCall deltaHost, call.Sound last → ∀ error after,
          perform call last = (.error error, after) → Kept deltaHost registry last after :=
  have installed : Run skillStep SkillCall.Sound [] [deltaInstall] (perform deltaInstall []).2 :=
    .snoc .nil deltaInstall_sound rfl
  have updated : Run skillStep SkillCall.Sound [] [deltaInstall, deltaUpdate]
      (perform deltaUpdate (perform deltaInstall []).2).2 := .snoc installed deltaUpdate_sound rfl
  have run : Run skillStep SkillCall.Sound [] [deltaInstall, deltaUpdate, deltaUninstall none]
      (perform (deltaUninstall none) (perform deltaUpdate (perform deltaInstall []).2).2).2 :=
    .snoc updated nofun rfl
  ⟨_, _, run, rfl, managed_skills_agree deltaHost_rereads (orderly_fresh deltaHost) run⟩

/-- The directory is removed, and then the registry is not written. -/
theorem deltaUninstall_leaves {tree : Tree}
    (loads : loadInstalledSkillRegistry deltaHost tree = .ok deltaInstalled)
    (there : present tree (installPath "delta") = true) :
    (perform (deltaUninstall (some (.writeRegistry none))) tree).2 =
      (DirTree.createDirAll (remove tree (installPath "delta")) managedRoot).2 := by
  have read : readInstalled deltaHost (some (.writeRegistry none)) tree =
      (.ok deltaInstalled, tree) := by
    rw [readInstalled, loads]
    rfl
  have found : findRecordKey deltaInstalled "delta" = some "delta" := by decide
  have record : deltaInstalled.skills.get "delta" = some deltaRecord := by decide
  have looked : exists_ (installPath deltaRecord.skillId)
      (hits (some (.writeRegistry none)) .probeInstalled) tree = (.ok true, tree) := by
    show (Except.ok (present tree (installPath "delta") && true), tree) = _
    rw [there]
    rfl
  show (uninstallManagedSkill deltaHost (some (.writeRegistry none)) "delta" tree).2 = _
  rw [uninstallManagedSkill, Action.bind_ok read, found]
  dsimp only
  rw [record]
  dsimp only
  rw [Action.bind_ok looked]
  have removed : removeDirs (installPath deltaRecord.skillId)
      ((some (Fault.writeRegistry none)).bind Fault.installed?) tree =
      (.ok (), remove tree (installPath "delta")) := rfl
  rw [if_pos rfl, Action.bind_ok removed]
  generalize remove tree (installPath "delta") = without
  show (Action.andThen (Action.andThen (call fun tree => DirTree.createDirAll tree managedRoot) _) _
    without).2 = _
  cases made : DirTree.createDirAll without managedRoot with
  | mk done after => cases done <;> simp [Action.andThen, call, made]

/-- The directory is removed, and the registry that cannot be written still has its record. -/
theorem managed_skills_break : ∃ calls last,
    Run skillStep (fun _ (_ : SkillCall deltaHost) => True) [] calls last ∧
      ¬∃ registry, Agrees deltaHost last registry := by
  refine ⟨[deltaInstall, deltaUninstall (some (.writeRegistry none))], _,
    .snoc (.snoc .nil trivial rfl) trivial rfl, ?_⟩
  rw [deltaUninstall_leaves (loads_written deltaHost_rereads deltaInstall_writes)
    (by rw [deltaInstall_tree]; with_unfolding_all rfl)]
  rintro ⟨registry, agrees⟩
  have file : node (DirTree.createDirAll (remove (perform deltaInstall []).2 (installPath "delta"))
      managedRoot).2 registryPath =
      some (.file (registryBytes deltaHost deltaInstalled)) := by
    rw [deltaInstall_tree]
    with_unfolding_all rfl
  have loads := agrees.loads
  rw [loads_written deltaHost_rereads file] at loads
  cases loads
  have recorded : deltaInstalled.skills.get "delta" = some deltaRecord := by decide
  have directory := (agrees.present recorded).directory
  have gone : node (DirTree.createDirAll (remove (perform deltaInstall []).2 (installPath "delta"))
      managedRoot).2 (installPath "delta") = none := by
    rw [deltaInstall_tree]
    with_unfolding_all rfl
  rw [show deltaRecord.skillId = "delta" from rfl, gone] at directory
  cases directory

end Openyak.Runtime
