/-
# Runtime.SkillsAgree -- do the managed skills agree with their registry?

They agree when the registry file reads as records whose directories are there, with the
digests of the records (`Agrees`).  A call that fails should leave the records and their
directories as they were (`Kept`).

That goes wrong behind the commit: when the backup of an update is not removed or the
registry not written, the new directory stands beside the old record.  It goes wrong where
an uninstall fails behind its first removal, and where a registry file is written in part.
A skill called `installed.json` takes the place of the registry file, and a package
that is staged where an earlier one was left is mixed with it.  Without these the two
agree in every run (`managed_skills_agree`).
-/
import Openyak.Runtime.InstalledFile
import Openyak.Runtime.SkillPackages
import Openyak.Theory.Run

namespace Openyak.Runtime

open Openyak.Theory
open Openyak.Theory.DirTree
open Openyak.Theory.Posix (Location)

set_option autoImplicit false

/-! ## Calls -/

inductive SkillRequest (host : SkillHost) where
  | install (registry : SkillRegistry) (accepted : Accepted host registry) (skillId : String)
      (version : Option String)
  | update (registry : SkillRegistry) (accepted : Accepted host registry) (skillId : String)
      (version : Option String)
  | uninstall (skillId : String)

/-- A request, what the clock says, and the step that fails, if one does. -/
structure SkillCall (host : SkillHost) where
  request : SkillRequest host
  clock : Clock
  fault : Option Fault

variable {host : SkillHost}

def perform (call : SkillCall host) : SkillAction SkillOutcome :=
  match call.request with
  | .install registry _ skillId version =>
      installManagedSkill host call.fault call.clock registry skillId version
  | .update registry _ skillId version =>
      updateManagedSkill host call.fault call.clock registry skillId version
  | .uninstall skillId => uninstallManagedSkill host call.fault skillId

def skillStep (tree : Tree) (call : SkillCall host) : Option Tree := some (perform call tree).2

/-! ## Agreement -/

/-- The directory of a record is there, with the record's digest. -/
structure RecordAgrees (host : SkillHost) (tree : Tree) (record : InstalledSkillRecord) : Prop where
  directory : node tree (installPath record.skillId) = some .directory
  digest : computeDirectorySha256 host.sha256 (below tree (installPath record.skillId)) =
    .ok record.sha256

/-- The registry file reads as these records, which agree with their directories, each with
one of its own. -/
structure Agrees (host : SkillHost) (tree : Tree) (registry : InstalledSkillRegistry) : Prop where
  loads : loadInstalledSkillRegistry host tree = .ok registry
  present : ∀ {key record}, registry.skills.get key = some record → RecordAgrees host tree record
  own : ∀ {key record other record'}, registry.skills.get key = some record →
    registry.skills.get other = some record' → record.skillId = record'.skillId → key = other

/-- The records are as they were, and so are their directories. -/
structure Kept (host : SkillHost) (registry : InstalledSkillRegistry) (tree after : Tree) :
    Prop where
  loads : loadInstalledSkillRegistry host after = loadInstalledSkillRegistry host tree
  directories : ∀ {key record}, registry.skills.get key = some record →
    below after (installPath record.skillId) = below tree (installPath record.skillId)
  root : ∀ {above : Location}, above <+: managedRoot → Stands above tree → Stands above after

/-- Records under their ids, none of which is one of the managed root's own names, and the
managed root is there for them. -/
structure Orderly (host : SkillHost) (tree : Tree) (registry : InstalledSkillRegistry) : Prop where
  loads : loadInstalledSkillRegistry host tree = .ok registry
  present : ∀ {key record}, registry.skills.get key = some record → RecordAgrees host tree record
  keyed : ∀ {key record}, registry.skills.get key = some record →
    key = toAsciiLowercase record.skillId
  segment : ∀ {key record}, registry.skills.get key = some record → IsSegment record.skillId
  file : ∀ {key record}, registry.skills.get key = some record → record.skillId ≠ "installed.json"
  temp : ∀ {key record}, registry.skills.get key = some record → record.skillId ≠ ".tmp"
  root : ∀ {key record}, registry.skills.get key = some record →
    ∀ above, above <+: managedRoot → Stands above tree

variable {tree after : Tree} {registry : InstalledSkillRegistry} {fault : Option Fault}
  {key skillId : String} {record : InstalledSkillRecord}

theorem Orderly.agrees (orderly : Orderly host tree registry) : Agrees host tree registry where
  loads := orderly.loads
  present := orderly.present
  own := by
    intro key record other record' here there same
    rw [orderly.keyed here, orderly.keyed there, same]

theorem Kept.refl (host : SkillHost) (registry : InstalledSkillRegistry) (tree : Tree) :
    Kept host registry tree tree := ⟨rfl, fun _ => rfl, fun _ stands => stands⟩

theorem Kept.trans {last : Tree} (first : Kept host registry tree after)
    (second : Kept host registry after last) : Kept host registry tree last where
  loads := second.loads.trans first.loads
  directories there := (second.directories there).trans (first.directories there)
  root prefixed stands := second.root prefixed (first.root prefixed stands)

theorem Orderly.kept (orderly : Orderly host tree registry)
    (kept : Kept host registry tree after) : Orderly host after registry where
  loads := kept.loads.trans orderly.loads
  present := by
    intro key record there
    obtain ⟨directory, digest⟩ := orderly.present there
    have same := kept.directories there
    exact ⟨by rwa [node_at, same, ← node_at], by rwa [same]⟩
  keyed := orderly.keyed
  segment := orderly.segment
  file := orderly.file
  temp := orderly.temp
  root there above prefixed := kept.root prefixed (orderly.root there above prefixed)

/-- No record is kept under a key that the search has not found. -/
theorem findRecordKey_none (orderly : Orderly host tree registry)
    (absent : (findRecordKey registry skillId).bind registry.skills.get = none)
    (there : registry.skills.get key = some record) : record.skillId ≠ skillId := by
  rintro rfl
  have listed : key ∈ registry.skills.keys := by
    apply Classical.byContradiction
    intro unlisted
    rw [OrderedMap.get_eq_none_iff.2 unlisted] at there
    cases there
  cases found : findRecordKey registry record.skillId with
  | none =>
      have other := List.find?_eq_none.1 found key listed
      simp [eqIgnoreAsciiCase, orderly.keyed there, toAsciiLowercase_idem] at other
  | some other =>
      have member := List.mem_of_find?_eq_some found
      rw [found, Option.bind_some] at absent
      exact OrderedMap.get_eq_none_iff.1 absent member

/-! ## Calls that fail keep what there is -/

section Kept

variable {package : PackageDir} {staged later now : Nat}

theorem recorded_apart_temp (orderly : Orderly host tree registry)
    (there : registry.skills.get key = some record) : Apart (installPath record.skillId) tempRoot :=
  install_apart_temp (orderly.temp there)

theorem stage_kept (orderly : Orderly host tree registry) :
    Kept host registry tree (stageSkillPackage fault package skillId now tree).2 where
  loads := loads_congr (stage_still (apart_names (by decide)) tree rfl)
  directories there := stage_still (recorded_apart_temp orderly there) tree rfl
  root _ stands := stage_stands tree stands

theorem commit_kept (orderly : Orderly host tree registry) (named : skillId ≠ "installed.json")
    (unrecorded : ∀ {key record}, registry.skills.get key = some record →
      record.skillId ≠ skillId) :
    Kept host registry tree
      (commitStagedSkill fault (stagedPath skillId now) skillId later tree).2 where
  loads := loads_congr (commit_still (not_under_managed _) (apart_names (by decide))
    (apart_names (Ne.symm named)) tree rfl)
  directories there := commit_still (not_under_managed _) (recorded_apart_temp orderly there)
    (apart_names (unrecorded there)) tree rfl
  root prefixed stands := commit_stands prefixed tree stands

theorem save_kept (orderly : Orderly host tree registry) {next : InstalledSkillRegistry}
    {error : SkillRegistryError} (notPart : ∀ left, fault ≠ some (.writeRegistry (some left)))
    (failed : saveInstalledSkillRegistry host fault next tree = (.error error, after)) :
    Kept host registry tree after where
  loads := loads_congr (save_error notPart failed)
  directories := by
    intro key record there
    have apart : Apart (installPath record.skillId) registryPath :=
      apart_names (orderly.file there)
    have kept : Still (installPath record.skillId) (below tree (installPath record.skillId))
        (saveInstalledSkillRegistry host fault next tree).2 :=
      save_still (not_under_managed _) apart.1 tree rfl
    rwa [failed] at kept
  root := by
    intro above prefixed stands
    have kept : Stands above (saveInstalledSkillRegistry host fault next tree).2 :=
      save_stands prefixed tree stands
    rwa [failed] at kept

end Kept

/-! ## What a call leaves -/

/-- A call that returns leaves an orderly tree, and one that fails the tree as it was. -/
def Concludes (host : SkillHost) (registry : InstalledSkillRegistry) (tree : Tree)
    (result : Except SkillRegistryError SkillOutcome × Tree) : Prop :=
  match result with
  | (.ok _, after) => ∃ next, Orderly host after next
  | (.error _, after) => Kept host registry tree after

theorem Concludes.bind {α : Type} {act : SkillAction α} {next : α → SkillAction SkillOutcome}
    {now : Tree}
    (failed : ∀ error after, act now = (.error error, after) → Kept host registry tree after)
    (rest : ∀ value after, act now = (.ok value, after) →
      Concludes host registry tree (next value after)) :
    Concludes host registry tree ((act >>= next) now) := by
  cases done : act now with
  | mk result after =>
      cases result with
      | ok value =>
          rw [Action.bind_ok done]
          exact rest value after done
      | error error =>
          rw [Action.bind_error done]
          exact failed error after done

/-- A step that changes nothing. -/
theorem Concludes.look {α : Type} {result : Except SkillRegistryError α}
    {next : α → SkillAction SkillOutcome}
    (rest : ∀ value, result = .ok value → Concludes host registry tree (next value tree)) :
    Concludes host registry tree ((ofResult result >>= next) tree) := by
  refine .bind (fun error after failed => ?_) fun value after done => ?_
  · cases failed
    exact .refl host registry tree
  · cases done
    exact rest value rfl

theorem readInstalled_ok (orderly : Orderly host tree registry)
    {next : InstalledSkillRegistry → SkillAction SkillOutcome}
    (rest : Concludes host registry tree (next registry tree)) :
    Concludes host registry tree ((readInstalled host fault >>= next) tree) := by
  refine .bind (fun error after failed => ?_) fun value after done => ?_
  · have same : after = tree := (congrArg Prod.snd failed).symm
    rw [same]
    exact .refl host registry tree
  · cases hit : hits fault .readRegistry with
    | true =>
        have result := congrArg Prod.fst done
        simp [readInstalled, hit] at result
    | false =>
        have result := congrArg Prod.fst done
        have same : after = tree := (congrArg Prod.snd done).symm
        simp only [readInstalled, hit, Bool.false_eq_true, if_false, orderly.loads] at result
        cases result
        rw [same]
        exact rest

/-- The tree with a record of a skill that stands at its directory with the record's
digest, beside records that were there. -/
theorem orderly_insert (rereads : host.Rereads) (orderly : Orderly host tree registry)
    {made : Tree} {done : Unit}
    (saved : saveInstalledSkillRegistry host fault ⟨registry.skills.insert key record⟩ made =
      (.ok done, after)) (segment : IsSegment record.skillId) (file : record.skillId ≠ "installed.json")
    (temp : record.skillId ≠ ".tmp") (agrees : RecordAgrees host made record)
    (keyed : key = toAsciiLowercase record.skillId)
    (others : ∀ {other record'}, other ≠ key → registry.skills.get other = some record' →
      below made (installPath record'.skillId) = below tree (installPath record'.skillId)) :
    Orderly host after ⟨registry.skills.insert key record⟩ := by
  obtain ⟨written, root⟩ := save_ok saved
  have still : ∀ {name : String}, name ≠ "installed.json" →
      below after (installPath name) = below made (installPath name) := by
    intro name other
    have apart : Apart (installPath name) registryPath := apart_names other
    have kept : Still (installPath name) (below made (installPath name))
        (saveInstalledSkillRegistry host fault ⟨registry.skills.insert key record⟩ made).2 :=
      save_still (not_under_managed _) apart.1 made rfl
    rwa [saved] at kept
  have inherit : ∀ {Q : String → InstalledSkillRecord → Prop}, Q key record →
      (∀ {other found}, other ≠ key → registry.skills.get other = some found → Q other found) →
      ∀ {other found}, (registry.skills.insert key record).get other = some found →
        Q other found := by
    intro Q new old other found there
    obtain ⟨rfl, rfl⟩ | ⟨different, there⟩ := OrderedMap.get_insert_cases there
    · exact new
    · exact old different there
  refine ⟨loads_written rereads written, ?_, ?_, ?_, ?_, ?_, fun _ => root⟩
  · refine inherit (Q := fun _ found => RecordAgrees host after found) ?_ ?_
    · have same := still file
      exact ⟨by rw [node_at, same, ← node_at]; exact agrees.directory, by rw [same]; exact agrees.digest⟩
    · intro other found different there
      obtain ⟨directory, digest⟩ := orderly.present there
      have same := (still (orderly.file there)).trans (others different there)
      exact ⟨by rwa [node_at, same, ← node_at], by rwa [same]⟩
  · exact inherit (Q := fun other found => other = toAsciiLowercase found.skillId) keyed
      fun _ there => orderly.keyed there
  · exact inherit (Q := fun _ found => IsSegment found.skillId) segment
      fun _ there => orderly.segment there
  · exact inherit (Q := fun _ found => found.skillId ≠ "installed.json") file
      fun _ there => orderly.file there
  · exact inherit (Q := fun _ found => found.skillId ≠ ".tmp") temp
      fun _ there => orderly.temp there

/-! ## The three calls -/

section Calls

variable {clock : Clock} {available : SkillRegistry} {version : Option String}

/-- The staged package is the record's directory, once it is committed. -/
theorem committed_agrees {entry : SkillRegistryEntry} {staged committed : Tree} {done : Unit}
    {later now : Nat} (accepted : EntryAccepted host.sha256 entry) (temp : skillId ≠ ".tmp")
    (same : below staged (stagedPath skillId now) = entry.packageDir.walk)
    (commits : commitStagedSkill fault (stagedPath skillId now) skillId later staged =
      (.ok done, committed))
    (id : record.skillId = skillId) (sha : record.sha256 = entry.sha256) :
    RecordAgrees host committed record := by
  have walk : below committed (installPath record.skillId) = entry.packageDir.walk := by
    rw [id, commit_ok temp commits, same]
  exact ⟨by rw [node_at, walk]; exact entry.packageDir.root,
    by rw [walk, sha]; exact accepted.digest⟩

theorem install_concludes (rereads : host.Rereads) (orderly : Orderly host tree registry)
    (accepted : Accepted host available)
    (free : ∀ entry, selectRegistryEntry available skillId version = .ok entry →
      entry.skillId ≠ "installed.json" ∧ below tree (stagedPath entry.skillId clock.staged) = [])
    (notPart : ∀ left, fault ≠ some (.writeRegistry (some left))) :
    Concludes host registry tree
      (installManagedSkill host fault clock available skillId version tree) := by
  refine .look fun entry selected => .look fun _ _ => readInstalled_ok orderly ?_
  obtain ⟨named, nothingStaged⟩ := free entry selected
  have fits := accepted_entry accepted entry (selected_entry selected)
  rcases absent : (findRecordKey registry entry.skillId).bind registry.skills.get with _ | existing
  swap
  · dsimp only
    split
    · exact ⟨registry, orderly⟩
    · exact .refl host registry tree
  dsimp only
  have unrecorded : ∀ {key record}, registry.skills.get key = some record →
      record.skillId ≠ entry.skillId := fun there => findRecordKey_none orderly absent there
  have stageKept : Kept host registry tree
      (stageSkillPackage fault entry.packageDir entry.skillId clock.staged tree).2 :=
    stage_kept orderly
  refine .bind (fun error after failed => ?_) fun staged stagedTree stages => ?_
  · rwa [failed] at stageKept
  rw [stages] at stageKept
  obtain ⟨rfl, same, -⟩ := stage_ok nothingStaged stages
  have orderlyStaged := orderly.kept stageKept
  have commitKept : Kept host registry stagedTree (commitStagedSkill fault
      (stagedPath entry.skillId clock.staged) entry.skillId clock.backup stagedTree).2 :=
    commit_kept orderlyStaged named unrecorded
  refine .bind (fun error after failed => ?_) fun done committed commits => ?_
  · rw [failed] at commitKept
    exact stageKept.trans commitKept
  rw [commits] at commitKept
  have temp : entry.skillId ≠ ".tmp" := by
    intro called
    rw [called] at commits
    obtain ⟨error, failed⟩ := commit_temp commits
    cases failed
  refine .bind (fun error after failed => ?_) fun done after saves => ?_
  · exact (stageKept.trans commitKept).trans
      (save_kept (orderlyStaged.kept commitKept) notPart failed)
  · exact ⟨_, orderly_insert rereads (orderlyStaged.kept commitKept) saves fits.segment named temp
      (committed_agrees fits temp same commits rfl rfl) rfl fun _ _ => rfl⟩

/-- What an update may fail at. -/
def Fault.early : Fault → Bool
  | .removeBackup _ | .createRoot _ | .writeRegistry _ => false
  | _ => true

theorem early_backup (early : ∀ found ∈ fault, Fault.early found = true) :
    fault.bind Fault.backup? = none := by
  cases fault with
  | none => rfl
  | some found => cases found <;> first | rfl | exact absurd (early _ rfl) Bool.false_ne_true

theorem early_root (early : ∀ found ∈ fault, Fault.early found = true) :
    fault.bind Fault.root? = none := by
  cases fault with
  | none => rfl
  | some found => cases found <;> first | rfl | exact absurd (early _ rfl) Bool.false_ne_true

theorem early_write (early : ∀ found ∈ fault, Fault.early found = true) (left : Option (List UInt8)) :
    fault ≠ some (.writeRegistry left) := by
  rintro rfl
  exact absurd (early _ rfl) Bool.false_ne_true

/-- A registry that reads is no directory. -/
theorem registry_file (loads : loadInstalledSkillRegistry host tree = .ok registry) :
    node tree registryPath ≠ some .directory := by
  intro directory
  rw [loadInstalledSkillRegistry, directory] at loads
  cases loads

/-- Two records of one skill stand under one key. -/
theorem Orderly.apart {other : String} {found : InstalledSkillRecord}
    (orderly : Orderly host tree registry) (there : registry.skills.get key = some record)
    (different : other ≠ key) (elsewhere : registry.skills.get other = some found) :
    found.skillId ≠ record.skillId := by
  intro same
  apply different
  rw [orderly.keyed elsewhere, orderly.keyed there, same]

theorem update_concludes (rereads : host.Rereads) (orderly : Orderly host tree registry)
    (accepted : Accepted host available)
    (free : ∀ {key record}, findRecordKey registry skillId = some key →
      registry.skills.get key = some record →
      below tree (stagedPath record.skillId clock.staged) = [])
    (early : ∀ found ∈ fault, Fault.early found = true) :
    Concludes host registry tree
      (updateManagedSkill host fault clock available skillId version tree) := by
  refine readInstalled_ok orderly ?_
  rcases found : findRecordKey registry skillId with _ | recordKey
  · exact .refl host registry tree
  dsimp only
  rcases there : registry.skills.get recordKey with _ | existing
  · exact .refl host registry tree
  dsimp only
  split
  · exact ⟨registry, orderly⟩
  refine .look fun entry selected => .look fun _ _ => ?_
  split
  · exact ⟨registry, orderly⟩
  have fits := accepted_entry accepted entry (selected_entry selected)
  have temp := orderly.temp there
  have file := orderly.file there
  have stageKept : Kept host registry tree
      (stageSkillPackage fault entry.packageDir existing.skillId clock.staged tree).2 :=
    stage_kept orderly
  refine .bind (fun error after failed => ?_) fun staged stagedTree stages => ?_
  · rwa [failed] at stageKept
  rw [stages] at stageKept
  obtain ⟨rfl, same, -⟩ := stage_ok (free found there) stages
  have orderlyStaged := orderly.kept stageKept
  -- committing changes the record's own directory, and no other
  have loads : loadInstalledSkillRegistry host (commitStagedSkill fault
      (stagedPath existing.skillId clock.staged) existing.skillId clock.backup stagedTree).2 =
      loadInstalledSkillRegistry host stagedTree :=
    loads_congr (commit_still (not_under_managed _) (apart_names (by decide))
      (apart_names (Ne.symm file)) stagedTree rfl)
  have others : ∀ {other found}, other ≠ recordKey → registry.skills.get other = some found →
      below (commitStagedSkill fault (stagedPath existing.skillId clock.staged) existing.skillId
        clock.backup stagedTree).2 (installPath found.skillId) =
      below stagedTree (installPath found.skillId) := fun different elsewhere =>
    commit_still (not_under_managed _) (recorded_apart_temp orderly elsewhere)
      (apart_names (orderly.apart there different elsewhere)) stagedTree rfl
  have root : ∀ above, above <+: managedRoot → Stands above (commitStagedSkill fault
      (stagedPath existing.skillId clock.staged) existing.skillId clock.backup stagedTree).2 :=
    fun above prefixed =>
      commit_stands prefixed stagedTree (orderlyStaged.root there above prefixed)
  refine .bind (fun error after failed => ?_) fun done committed commits => ?_
  · rw [failed] at loads others root
    refine stageKept.trans ⟨loads, ?_, fun prefixed _ => root _ prefixed⟩
    intro key record recorded
    by_cases own : key = recordKey
    · have stagedThere : node stagedTree (stagedPath existing.skillId clock.staged) ≠ none := by
        rw [node_at, same, entry.packageDir.root]
        nofun
      subst own
      rw [there] at recorded
      cases recorded
      exact commit_error temp (early_backup early) stagedThere failed
    · exact others own recorded
  rw [commits] at loads others root
  have file' := registry_file (loads.trans orderlyStaged.loads)
  refine .bind (fun error after failed => ?_) fun done after saves => ?_
  · obtain ⟨written, saved⟩ := save_done (early_root early) (early_write early) root file'
    rw [saved] at failed
    cases failed
  · have segment := orderly.segment there
    have keyed := orderly.keyed there
    exact ⟨_, orderly_insert rereads orderlyStaged saves segment file temp
      (committed_agrees fits temp same commits rfl rfl) keyed others⟩

/-- What an uninstall may fail at: nothing behind its first removal. -/
def Fault.harmless : Fault → Prop
  | .removeInstalled kept => ∀ location, kept location = true
  | .createRoot _ | .writeRegistry _ => False
  | _ => True

theorem orderly_remove (rereads : host.Rereads) (orderly : Orderly host tree registry)
    {made : Tree} {done : Unit}
    (saved : saveInstalledSkillRegistry host fault ⟨registry.skills.remove key⟩ made =
      (.ok done, after))
    (others : ∀ {other record'}, other ≠ key → registry.skills.get other = some record' →
      below made (installPath record'.skillId) = below tree (installPath record'.skillId)) :
    Orderly host after ⟨registry.skills.remove key⟩ := by
  obtain ⟨written, root⟩ := save_ok saved
  refine ⟨loads_written rereads written, ?_, ?_, ?_, ?_, ?_, fun _ => root⟩
  · intro other found there
    obtain ⟨different, there⟩ := OrderedMap.get_remove_cases there
    obtain ⟨directory, digest⟩ := orderly.present there
    have apart : Apart (installPath found.skillId) registryPath := apart_names (orderly.file there)
    have still : Still (installPath found.skillId) (below made (installPath found.skillId))
        (saveInstalledSkillRegistry host fault ⟨registry.skills.remove key⟩ made).2 :=
      save_still (not_under_managed _) apart.1 made rfl
    rw [saved] at still
    have same := still.trans (others different there)
    exact ⟨by rwa [node_at, same, ← node_at], by rwa [same]⟩
  · exact fun there => orderly.keyed (OrderedMap.get_remove_cases there).2
  · exact fun there => orderly.segment (OrderedMap.get_remove_cases there).2
  · exact fun there => orderly.file (OrderedMap.get_remove_cases there).2
  · exact fun there => orderly.temp (OrderedMap.get_remove_cases there).2

theorem removeDirs_harmless {location : Location} {error : SkillRegistryError}
    (harmless : ∀ found ∈ fault, Fault.harmless found)
    (failed : removeDirs location (fault.bind Fault.installed?) tree = (.error error, after)) :
    after = tree := by
  match fault, failed, harmless with
  | some (.removeInstalled kept), failed, harmless =>
      have all := harmless _ rfl
      have same : after = tree.filter fun entry =>
          !location.isPrefixOf entry.1 || kept entry.1 := (congrArg Prod.snd failed).symm
      rw [same]
      exact List.filter_eq_self.2 fun entry _ => by simp [all entry.1]
  | none, failed, _ | some (.stops _), failed, _ | some (.createTemp _), failed, _
  | some (.copy _ _), failed, _ | some (.createParent _), failed, _
  | some (.removeBackup _), failed, _ | some (.createRoot _), failed, _
  | some (.writeRegistry _), failed, _ => cases failed

theorem uninstall_concludes (rereads : host.Rereads) (orderly : Orderly host tree registry)
    (harmless : ∀ found ∈ fault, Fault.harmless found) :
    Concludes host registry tree (uninstallManagedSkill host fault skillId tree) := by
  refine readInstalled_ok orderly ?_
  rcases found : findRecordKey registry skillId with _ | recordKey
  · exact .refl host registry tree
  dsimp only
  rcases there : registry.skills.get recordKey with _ | record
  · exact .refl host registry tree
  dsimp only
  have noRoot : fault.bind Fault.root? = none := by
    cases fault with
    | none => rfl
    | some found => cases found <;> first | rfl | exact (harmless _ rfl).elim
  have noWrite : ∀ left, fault ≠ some (.writeRegistry left) := by
    rintro left rfl
    exact harmless _ rfl
  have saves : ∀ {made : Tree},
      loadInstalledSkillRegistry host made = loadInstalledSkillRegistry host tree →
      (∀ above, above <+: managedRoot → Stands above made) →
      (∀ {other found}, other ≠ recordKey → registry.skills.get other = some found →
        below made (installPath found.skillId) = below tree (installPath found.skillId)) →
      Concludes host registry tree ((saveInstalledSkillRegistry host fault
        ⟨registry.skills.remove recordKey⟩ >>= fun _ =>
          (pure (.uninstalled record) : SkillAction SkillOutcome)) made) := by
    intro made loads root others
    refine .bind (fun error after failed => ?_) fun done after saves => ?_
    · obtain ⟨written, saved⟩ := save_done noRoot noWrite root
        (registry_file (loads.trans orderly.loads))
      rw [saved] at failed
      cases failed
    · exact ⟨_, orderly_remove rereads orderly saves others⟩
  refine .bind (fun error after failed => ?_) fun present' after looked => ?_
  · cases failed
  cases looked
  split
  · have away : ∀ {p : Location}, Apart p (installPath record.skillId) →
        below (removeDirs (installPath record.skillId) (fault.bind Fault.installed?) tree).2 p =
          below tree p := fun apart => removeDirs_still apart tree rfl
    have root : ∀ above, above <+: managedRoot → Stands above
        (removeDirs (installPath record.skillId) (fault.bind Fault.installed?) tree).2 :=
      fun above prefixed => removeDirs_stands (not_under_install prefixed) tree
        (orderly.root there above prefixed)
    have loads : loadInstalledSkillRegistry host
        (removeDirs (installPath record.skillId) (fault.bind Fault.installed?) tree).2 =
        loadInstalledSkillRegistry host tree :=
      loads_congr (away (apart_names (Ne.symm (orderly.file there))))
    have others : ∀ {other found}, other ≠ recordKey → registry.skills.get other = some found →
        below (removeDirs (installPath record.skillId) (fault.bind Fault.installed?) tree).2
          (installPath found.skillId) = below tree (installPath found.skillId) :=
      fun different elsewhere => away (apart_names (orderly.apart there different elsewhere))
    refine .bind (fun error after failed => ?_) fun done after removed => ?_
    · rw [removeDirs_harmless harmless failed]
      exact .refl host registry tree
    · rw [removed] at loads root others
      exact saves loads root others
  · exact saves rfl (orderly.root there) fun _ _ => rfl

end Calls

end Openyak.Runtime
