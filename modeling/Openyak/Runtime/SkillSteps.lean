/-
# Runtime.SkillSteps -- what staging and committing a skill change

Staging changes nothing outside of `.tmp`, and committing nothing outside of `.tmp` and the
skill's own directory, whatever fails.  A package that is staged where nothing stood is the
same there (`stage_ok`), and a committed one at the skill's directory (`commit_ok`).  A commit
that fails leaves that directory as it was, unless the backup could not be removed
(`commit_error`).
-/
import Openyak.Runtime.SkillRegistry

namespace Openyak.Runtime

open Openyak.Theory
open Openyak.Theory.DirTree
open Openyak.Theory.Posix (Location)

set_option autoImplicit false

variable {p above location source target : Location} {before : Tree}

/-- What stands below the location is `before`. -/
def Still (p : Location) (before : Tree) (tree : Tree) : Prop := below tree p = before

/-- A directory stands at the location. -/
def Stands (above : Location) (tree : Tree) : Prop := node tree above = some .directory

/-! ## One step -/

theorem createDirs_still {made : Option Nat} (apart : ¬p <+: location) :
    Action.Keeps (Still p before) (createDirs location made) := by
  intro tree held
  cases made with
  | none => exact (createDirAll_below apart).trans held
  | some made =>
      refine Eq.trans (makeDirs_below fun q member prefixed => ?_) held
      exact apart (prefixed.trans ((List.mem_inits q location).1 (List.mem_of_mem_take member)))

theorem createDirs_stands {made : Option Nat} :
    Action.Keeps (Stands above) (createDirs location made) := by
  intro tree held
  cases made with
  | none => exact makeDirs_directory held
  | some made => exact makeDirs_directory held

theorem createDirs_ok {made : Option Nat} {tree after : Tree} {done : Unit}
    (made_ : createDirs location made tree = (.ok done, after)) (prefixed : above <+: location) :
    Stands above after := by
  cases made with
  | none =>
      have all : (DirTree.createDirAll tree location).1 = true := by
        by_contra failed
        have result := congrArg Prod.fst made_
        simp only [createDirs, call, if_neg failed] at result
        cases result
      have same : after = (DirTree.createDirAll tree location).2 := (congrArg Prod.snd made_).symm
      rw [same]
      exact createDirAll_made all prefixed
  | some made => cases made_

/-- Where the directories are, they stay, and no fault means success. -/
theorem createDirs_there {tree : Tree} (there : ∀ above, above <+: location → Stands above tree) :
    createDirs location none tree = (.ok (), tree) := by
  have all : DirTree.createDirAll tree location = (true, tree) :=
    makeDirs_there fun q member => there q ((List.mem_inits q location).1 member)
  simp [createDirs, call, all]

theorem exists_keeps {holds : Tree → Prop} {fails : Bool} :
    Action.Keeps holds (exists_ location fails) := fun _ held => held

theorem removeDirs_still {kept : Option (Location → Bool)} (apart : Apart p location) :
    Action.Keeps (Still p before) (removeDirs location kept) := by
  intro tree held
  cases kept with
  | none => exact (below_remove apart).trans held
  | some kept =>
      refine Eq.trans ?_ held
      show below (tree.filter _) p = below tree p
      rw [below, List.filterMap_filter, below]
      apply List.filterMap_congr
      intro entry _
      by_cases here : location <+: entry.1
      · have unseen : ¬p <+: entry.1 := fun there =>
          (List.prefix_or_prefix_of_prefix there here).elim apart.1 apart.2
        rw [seenFrom_none unseen]
        split <;> rfl
      · have other : location.isPrefixOf entry.1 = false :=
          Bool.eq_false_iff.2 fun under => here (List.isPrefixOf_iff_prefix.1 under)
        simp [other]

theorem removeDirs_stands {kept : Option (Location → Bool)} (other : ¬location <+: above) :
    Action.Keeps (Stands above) (removeDirs location kept) := by
  intro tree held
  cases kept with
  | none => exact (node_remove other).trans held
  | some kept =>
      refine Eq.trans (node_filter_other ?_) held
      rintro entry - rfl
      have outside : location.isPrefixOf entry.1 = false :=
        Bool.eq_false_iff.2 fun under => other (List.isPrefixOf_iff_prefix.1 under)
      simp [outside]

theorem renameDir_still {fails : Bool} (fromSource : Apart p source) (fromTarget : Apart p target) :
    Action.Keeps (Still p before) (renameDir source target fails) := by
  intro tree held
  cases fails with
  | true => exact held
  | false =>
      show Still p before (callOrNothing _ tree).2
      unfold callOrNothing
      split
      · rename_i renamed
        exact (rename_below renamed fromSource fromTarget).trans held
      · exact held

theorem renameDir_stands {fails : Bool} (fromSource : ¬source <+: above)
    (fromTarget : ¬target <+: above) :
    Action.Keeps (Stands above) (renameDir source target fails) := by
  intro tree held
  cases fails with
  | true => exact held
  | false =>
      show Stands above (callOrNothing _ tree).2
      unfold callOrNothing
      split
      · rename_i renamed
        exact (rename_node renamed fromSource fromTarget).trans held
      · exact held

theorem renameDir_ok {fails : Bool} {tree after : Tree} {done : Unit} (apart : Apart source target)
    (renamed : renameDir source target fails tree = (.ok done, after)) :
    after = move tree source target := by
  cases fails with
  | true => cases renamed
  | false =>
      rw [renameDir, if_neg Bool.false_ne_true] at renamed
      unfold callOrNothing at renamed
      split at renamed
      · rename_i found
        cases renamed
        exact rename_target found apart
      · cases renamed

theorem renameDir_error {fails : Bool} {tree after : Tree} {error : SkillRegistryError}
    (failed : renameDir source target fails tree = (.error error, after)) : after = tree := by
  cases fails with
  | true =>
      cases failed
      rfl
  | false =>
      rw [renameDir, if_neg Bool.false_ne_true] at failed
      unfold callOrNothing at failed
      split at failed
      · cases failed
      · cases failed
        rfl

/-- A directory moves to where nothing stands, if nothing fails. -/
theorem renameDir_free {tree : Tree} (apart : Apart source target) (there : node tree source ≠ none)
    (free : node tree target = none) (parent : Stands target.dropLast tree) :
    renameDir source target false tree = (.ok (), move tree source target) := by
  rw [renameDir, if_neg Bool.false_ne_true, callOrNothing, rename_free apart there free parent]

/-! ## Staging -/

variable {fault : Option Fault} {package : PackageDir} {skillId : String} {now : Nat}

theorem staged_under (skillId : String) (now : Nat) : tempRoot <+: stagedPath skillId now :=
  List.prefix_append _ _

theorem backup_under (skillId : String) (now : Nat) : tempRoot <+: backupPath skillId now :=
  List.prefix_append _ _

theorem copyDirRecursive_still {source : List (Location × Node)} (apart : Apart p target) :
    Action.Keeps (Still p before) (copyDirRecursive fault source target) := by
  intro tree held
  have whole : below (copyAll tree target source).2 p = before :=
    (copyAll_frame apart).trans held
  unfold copyDirRecursive
  split
  · rename_i index left
    have part : below (copyAll tree target (source.take index)).2 p = before :=
      (copyAll_frame apart).trans held
    generalize source[index]? = found
    match found, left with
    | none, _ => exact whole
    | some _, none => exact part
    | some entry, some left =>
        show below (if (copyAll tree target (source.take index)).1 then _ else _) p = before
        split
        · exact (copyEntry_below apart).trans part
        · exact part
  · exact whole

theorem stage_still (apart : Apart p tempRoot) :
    Action.Keeps (Still p before) (stageSkillPackage fault package skillId now) :=
  .bind (createDirs_still apart.1) fun _ =>
    .bind (copyDirRecursive_still (apart.append _)) fun _ => .pure _

theorem copyDirRecursive_stands {source : List (Location × Node)} :
    Action.Keeps (Stands above) (copyDirRecursive fault source target) := by
  intro tree held
  unfold copyDirRecursive
  split
  · rename_i index left
    generalize source[index]? = found
    match found, left with
    | none, _ => exact copyAll_directory held
    | some _, none => exact copyAll_directory held
    | some entry, some left =>
        show Stands above (if (copyAll tree target (source.take index)).1 then _ else _)
        split
        · exact copyEntry_directory (copyAll_directory held)
        · exact copyAll_directory held
  · exact copyAll_directory held

theorem stage_stands :
    Action.Keeps (Stands above) (stageSkillPackage fault package skillId now) :=
  .bind createDirs_stands fun _ => .bind copyDirRecursive_stands fun _ => .pure _

theorem call_ok {act : Tree → Bool × Tree} {tree after : Tree} {done : Unit}
    (called : call act tree = (.ok done, after)) : act tree = (true, after) := by
  cases whole : act tree with
  | mk all tree' =>
      cases all with
      | true =>
          have same := congrArg Prod.snd called
          simp only [call, whole] at same
          rw [same]
      | false =>
          have failed := congrArg Prod.fst called
          simp [call, whole] at failed

theorem copyDirRecursive_ok {source : List (Location × Node)} {tree after : Tree} {done : Unit}
    (copied : copyDirRecursive fault source target tree = (.ok done, after)) :
    copyAll tree target source = (true, after) := by
  unfold copyDirRecursive at copied
  split at copied
  · rename_i index left
    generalize source[index]? = found at copied
    match found, left with
    | none, _ => exact call_ok copied
    | some _, none => cases copied
    | some entry, some left => cases copied
  · exact call_ok copied

/-- **A package staged where nothing stood is the same there.** -/
theorem stage_ok {tree after : Tree} {staged : Location}
    (free : below tree (stagedPath skillId now) = [])
    (done : stageSkillPackage fault package skillId now tree = (.ok staged, after)) :
    staged = stagedPath skillId now ∧ below after staged = package.walk ∧
      ∀ above, above <+: tempRoot → Stands above after := by
  obtain ⟨_, made, temp, rest⟩ := Action.of_bind_ok done
  obtain ⟨_, copied, copies, rest⟩ := Action.of_bind_ok rest
  cases rest
  have away : ¬stagedPath skillId now <+: tempRoot := fun under => by
    have shorter := under.length_le
    simp only [stagedPath, List.length_append, List.length_singleton] at shorter
    omega
  have free : below made (stagedPath skillId now) = [] := by
    have still : Still (stagedPath skillId now) []
        (createDirs tempRoot (fault.bind Fault.temp?) tree).2 := createDirs_still away tree free
    rwa [temp] at still
  have all := copyDirRecursive_ok copies
  have proper : stagedPath skillId now ≠ [] := by simp [stagedPath]
  have walked : Walk (below made (stagedPath skillId now)) package.walk := free ▸ package.walked
  have same := copyAll_below proper walked (by rw [all])
  rw [all, free, List.nil_append] at same
  refine ⟨rfl, same, fun above prefixed => ?_⟩
  have stands : Stands above made := createDirs_ok temp prefixed
  have kept : Stands above (copyDirRecursive fault package.walk (stagedPath skillId now) made).2 :=
    copyDirRecursive_stands made stands
  rwa [copies] at kept

/-! ## Committing -/

/-- A name of its own in the managed root. -/
theorem install_apart_temp (other : skillId ≠ ".tmp") : Apart (installPath skillId) tempRoot :=
  apart_names other

theorem install_apart_staged (other : skillId ≠ ".tmp") (now : Nat) :
    Apart (installPath skillId) (stagedPath skillId now) := (install_apart_temp other).append _

theorem install_apart_backup (other : skillId ≠ ".tmp") (now : Nat) :
    Apart (installPath skillId) (backupPath skillId now) := (install_apart_temp other).append _

/-- A name that ends in the clock's digits, with more in front of the one of a backup. -/
theorem staged_apart_backup (skillId : String) (now later : Nat) :
    Apart (stagedPath skillId now) (backupPath skillId later) := by
  apply apart_names
  intro same
  have chars := congrArg String.toList same
  simp only [String.toList_append, List.append_assoc, List.append_cancel_left_eq] at chars
  have digit : ∀ c ∈ (toString now).toList, c.isDigit = true := by
    intro c member
    have named : (toString now).toList = Nat.toDigits 10 now := by simp [toString]
    rw [named] at member
    exact Nat.isDigit_of_mem_toDigits (by decide) (by decide) member
  have letter : 'b' ∈ (toString now).toList := by
    have split : "-".toList ++ (toString now).toList =
        "-".toList ++ ("backup-".toList ++ (toString later).toList) := chars
    rw [List.append_cancel_left split]
    exact List.mem_append_left _ (by decide)
  exact absurd (digit 'b' letter) (by decide)

theorem not_under_managed (name : String) : ¬managedRoot ++ [name] <+: managedRoot := fun under => by
  have shorter := under.length_le
  rw [List.length_append, List.length_singleton] at shorter
  omega

theorem not_under_temp {above : Location} (prefixed : above <+: managedRoot) (rest : Location) :
    ¬tempRoot ++ rest <+: above := fun under => by
  have whole := under.trans prefixed
  exact not_under_managed ".tmp" ((List.prefix_append tempRoot rest).trans whole)

theorem not_under_install {above : Location} (prefixed : above <+: managedRoot) :
    ¬installPath skillId <+: above := fun under => not_under_managed skillId (under.trans prefixed)

theorem commit_still {later : Nat} (root : ¬p <+: managedRoot) (temp : Apart p tempRoot)
    (own : Apart p (installPath skillId)) :
    Action.Keeps (Still p before)
      (commitStagedSkill fault (stagedPath skillId now) skillId later) := by
  have staged : Apart p (stagedPath skillId now) := temp.append _
  have backup : Apart p (backupPath skillId later) := temp.append _
  refine .bind (createDirs_still root) fun _ => .bind exists_keeps fun there => ?_
  split
  · exact renameDir_still staged own
  · refine .bind (renameDir_still own backup) fun _ =>
      .bind (.attempt (renameDir_still staged own)) fun moved => ?_
    match moved with
    | .ok () =>
        refine .bind exists_keeps fun present => ?_
        split
        · exact removeDirs_still backup
        · exact .pure _
    | .error error =>
        exact .bind (.attempt (renameDir_still backup own)) fun _ => .fail error

theorem commit_stands {later : Nat} (prefixed : above <+: managedRoot) :
    Action.Keeps (Stands above)
      (commitStagedSkill fault (stagedPath skillId now) skillId later) := by
  have staged : ¬stagedPath skillId now <+: above := not_under_temp prefixed _
  have backup : ¬backupPath skillId later <+: above := not_under_temp prefixed _
  have own : ¬installPath skillId <+: above := not_under_install prefixed
  refine .bind createDirs_stands fun _ => .bind exists_keeps fun there => ?_
  split
  · exact renameDir_stands staged own
  · refine .bind (renameDir_stands own backup) fun _ =>
      .bind (.attempt (renameDir_stands staged own)) fun moved => ?_
    match moved with
    | .ok () =>
        refine .bind exists_keeps fun present => ?_
        split
        · exact removeDirs_stands backup
        · exact .pure _
    | .error error =>
        exact .bind (.attempt (renameDir_stands backup own)) fun _ => .fail error

section Commit

variable {tree after : Tree} {later : Nat}

theorem exists_eq {fails : Bool} :
    exists_ location fails tree = (.ok (present tree location && !fails), tree) := rfl

/-- **A committed skill is the staged one.** -/
theorem commit_ok {done : Unit} (other : skillId ≠ ".tmp")
    (committed : commitStagedSkill fault (stagedPath skillId now) skillId later tree =
      (.ok done, after)) :
    below after (installPath skillId) = below tree (stagedPath skillId now) := by
  have staged := (install_apart_staged other now).symm
  have backup := install_apart_backup other later
  have away : ¬stagedPath skillId now <+: managedRoot := fun under =>
    not_under_managed ".tmp" ((staged_under skillId now).trans under)
  obtain ⟨_, made, parent, rest⟩ := Action.of_bind_ok committed
  have still : below made (stagedPath skillId now) = below tree (stagedPath skillId now) := by
    have kept : Still (stagedPath skillId now) (below tree (stagedPath skillId now))
        (createDirs managedRoot (fault.bind Fault.parent?) tree).2 := createDirs_still away tree rfl
    rwa [parent] at kept
  obtain ⟨there, _, looked, rest⟩ := Action.of_bind_ok rest
  cases looked
  split at rest
  · rw [renameDir_ok staged rest, below_move_target staged, still]
  · obtain ⟨_, aside, movedAside, rest⟩ := Action.of_bind_ok rest
    have asideStill : below aside (stagedPath skillId now) = below tree (stagedPath skillId now) := by
      rw [renameDir_ok backup movedAside, below_move staged (staged_apart_backup skillId now later),
        still]
    obtain ⟨result, moved, movedIn, rest⟩ := Action.of_bind_ok rest
    cases result with
    | error error =>
        obtain ⟨_, _, _, failed⟩ := Action.of_bind_ok rest
        cases failed
    | ok done =>
        have inside : renameDir (stagedPath skillId now) (installPath skillId) (hits fault .moveIn)
            aside = (.ok done, moved) := Action.of_attempt movedIn
        have there : below moved (installPath skillId) = below tree (stagedPath skillId now) := by
          rw [renameDir_ok staged inside, below_move_target staged, asideStill]
        obtain ⟨present, _, looked, rest⟩ := Action.of_bind_ok rest
        cases looked
        split at rest
        · have kept : Still (installPath skillId) (below tree (stagedPath skillId now))
              (removeDirs (backupPath skillId later) (fault.bind Fault.backup?) moved).2 :=
            removeDirs_still backup moved there
          rwa [rest] at kept
        · cases rest
          exact there

theorem removeDirs_none {done : Except SkillRegistryError Unit}
    (removed : removeDirs location none tree = (done, after)) : done = .ok () := by
  cases removed
  rfl

/-- **A commit that fails leaves the skill as it was**, if it does not fail at the backup. -/
theorem commit_error {error : SkillRegistryError} (other : skillId ≠ ".tmp")
    (noBackup : fault.bind Fault.backup? = none)
    (stagedThere : node tree (stagedPath skillId now) ≠ none)
    (failed : commitStagedSkill fault (stagedPath skillId now) skillId later tree =
      (.error error, after)) :
    below after (installPath skillId) = below tree (installPath skillId) := by
  have staged := (install_apart_staged other now).symm
  have backup := install_apart_backup other later
  have notRoot : ∀ name, ¬managedRoot ++ [name] <+: managedRoot := not_under_managed
  obtain parent | ⟨_, made, parent, rest⟩ := Action.of_bind_error failed
  · have kept : Still (installPath skillId) (below tree (installPath skillId))
        (createDirs managedRoot (fault.bind Fault.parent?) tree).2 :=
      createDirs_still (notRoot skillId) tree rfl
    rwa [parent] at kept
  have still : below made (installPath skillId) = below tree (installPath skillId) := by
    have kept : Still (installPath skillId) (below tree (installPath skillId))
        (createDirs managedRoot (fault.bind Fault.parent?) tree).2 :=
      createDirs_still (notRoot skillId) tree rfl
    rwa [parent] at kept
  have root : Stands managedRoot made := createDirs_ok parent (List.prefix_refl _)
  have stagedMade : node made (stagedPath skillId now) ≠ none := by
    have kept : Still (stagedPath skillId now) (below tree (stagedPath skillId now))
        (createDirs managedRoot (fault.bind Fault.parent?) tree).2 :=
      createDirs_still (fun under => notRoot ".tmp" ((staged_under skillId now).trans under))
        tree rfl
    rw [parent] at kept
    rwa [node_at, kept, ← node_at]
  obtain looked | ⟨there, _, looked, rest⟩ := Action.of_bind_error rest
  · cases looked
  cases looked
  split at rest
  · rw [renameDir_error rest, still]
  rename_i present_
  obtain movedAside | ⟨_, aside, movedAside, rest⟩ := Action.of_bind_error rest
  · rw [renameDir_error movedAside, still]
  -- the skill stands at the backup, and nothing stands in its place
  have moved := renameDir_ok backup movedAside
  have kept : below aside (backupPath skillId later) = below tree (installPath skillId) := by
    rw [moved, below_move_target backup, still]
  have free : node aside (installPath skillId) = none := by
    rw [moved, node_at, below_move_source backup]
    rfl
  have skill : node aside (backupPath skillId later) ≠ none := by
    have here : present made (installPath skillId) = true := by
      simp only [Bool.not_eq_true', Bool.not_eq_false, Bool.and_eq_true] at present_
      exact present_.1
    rw [node_at, kept, ← still, ← node_at]
    exact Option.isSome_iff_ne_none.1 here
  have rootAside : Stands managedRoot aside := by
    have notInstall : ¬installPath skillId <+: managedRoot := notRoot skillId
    have notBackup : ¬backupPath skillId later <+: managedRoot := fun under =>
      notRoot ".tmp" ((backup_under skillId later).trans under)
    rw [Stands, moved, node_move notInstall notBackup]
    exact root
  have parentInstall : (installPath skillId).dropLast = managedRoot := List.dropLast_concat
  obtain movedIn | ⟨result, after', movedIn, rest⟩ := Action.of_bind_error rest
  · cases movedIn
  cases result with
  | ok done =>
      obtain looked | ⟨there, _, looked, rest⟩ := Action.of_bind_error rest
      · cases looked
      cases looked
      split at rest
      · rw [noBackup] at rest
        cases removeDirs_none rest
      · cases rest
  | error error' =>
      have failedIn : renameDir (stagedPath skillId now) (installPath skillId)
          (hits fault .moveIn) aside = (.error error', after') := Action.of_attempt movedIn
      have same : after' = aside := renameDir_error failedIn
      -- moving in fails by the fault alone, so moving back does not
      have noMoveBack : hits fault .moveBack = false := by
        cases hit : hits fault .moveIn with
        | true =>
            unfold hits at hit ⊢
            split at hit
            · rename_i found
              rw [of_decide_eq_true hit]
              rfl
            · cases hit
        | false =>
            have stagedAside : node aside (stagedPath skillId now) ≠ none := by
              rwa [moved, node_at, below_move staged (staged_apart_backup skillId now later),
                ← node_at]
            rw [hit, renameDir_free staged stagedAside free (parentInstall ▸ rootAside)] at failedIn
            cases failedIn
      obtain movedBack | ⟨_, restored, movedBack, rest⟩ := Action.of_bind_error rest
      · cases movedBack
      have back := renameDir_free backup.symm skill free (parentInstall ▸ rootAside)
      rw [Action.attempt_apply, noMoveBack, same, back] at movedBack
      cases movedBack
      cases rest
      rw [below_move_target backup.symm, kept]

/-- No skill is called `.tmp`: the staging area is not moved into itself. -/
theorem commit_temp {result : Except SkillRegistryError Unit}
    (committed : commitStagedSkill fault (stagedPath ".tmp" now) ".tmp" later tree =
      (result, after)) : ∃ error, result = .error error := by
  cases result with
  | error error => exact ⟨error, rfl⟩
  | ok done =>
      have stuck : ∀ {source target : Location} {fails : Bool} {tree after : Tree} {done : Unit},
          (source <+: target ∨ target <+: source) → source ≠ target →
          renameDir source target fails tree ≠ (.ok done, after) := by
        intro source target fails tree after done inside different renamed
        cases fails with
        | true => cases renamed
        | false =>
            have nothing : rename tree source target = none := by
              rw [rename]
              split
              · rfl
              · rw [if_neg different, if_pos inside]
            rw [renameDir, if_neg Bool.false_ne_true, callOrNothing, nothing] at renamed
            cases renamed
      have longer : ∀ name, tempRoot ++ [name] ≠ tempRoot := by
        intro name same
        have lengths := congrArg List.length same
        simp at lengths
      obtain ⟨_, made, parent, rest⟩ := Action.of_bind_ok committed
      obtain ⟨there, _, looked, rest⟩ := Action.of_bind_ok rest
      cases looked
      split at rest
      · exact absurd rest (stuck (.inr (staged_under ".tmp" now)) (longer _))
      · obtain ⟨_, aside, movedAside, rest⟩ := Action.of_bind_ok rest
        exact absurd movedAside (stuck (.inl (backup_under ".tmp" later)) (longer _).symm)

end Commit

end Openyak.Runtime
