/-
# Runtime.SkillDirectories -- the skills in a root, and the file a request leads to

A skill is a directory with a `SKILL.md`: one in the root, or, in a directory of the root that
is none itself, one in that directory (`IsSkillOf`).  They are sorted by name, whatever its case,
then the shallower first, then by path.

A request is first taken as a path below the root.  Only where no `SKILL.md` is at that path
do the names of the skills count, and the first of a name is taken (`LeadsTo`).  Of several
roots the first that has anything for the request decides (`resolves_iff`).
-/
import Openyak.Runtime.SkillPackages
import Openyak.Theory.PathText
import Mathlib.Data.Prod.Lex

namespace Openyak.Runtime

open Openyak.Theory
open Openyak.Theory.Posix

set_option autoImplicit false

/-! ## Directories that can be read -/

/-- A tree, with the entries of its directories in some order, and a working directory. -/
structure ListedFiles extends FileSystem where
  here : Location
  names : Location → List Name
  listed : ∀ location name, name ∈ names location ↔ entry (location ++ [name]) ≠ none
  segments : ∀ location name, entry (location ++ [name]) ≠ none → IsSegment name

inductive SkillIoError where
  | notADirectory
  | unreadable
  deriving DecidableEq, Repr

namespace ListedFiles

variable (files : ListedFiles)

def locate (path : Path) : Option Location :=
  files.canonicalize (path.start files.here) path.components

def isDir (path : Path) : Bool := files.isDirectory (path.start files.here) path.components

def isFile (path : Path) : Bool :=
  match files.locate path with
  | none => false
  | some location =>
      match files.entry location with
      | some (.file _) => true
      | some .directory | some (.symlink _) | none => false

def readDir (path : Path) : Except SkillIoError (List Name) :=
  match files.locate path with
  | none => .error .notADirectory
  | some location =>
      if files.entry location = some .directory then .ok (files.names location)
      else .error .notADirectory

def readText (path : Path) : Except SkillIoError (List Char) :=
  match files.readToString (path.start files.here) path.components with
  | some text => .ok text
  | none => .error .unreadable

end ListedFiles

/-- The path of an entry of a directory. -/
def entryPath (directory : Path) (name : Name) : Path := directory.join ⟨false, [.name name]⟩

def skillFile (directory : Path) : Path := entryPath directory "SKILL.md"

/-! ## Discovery -/

structure SkillDirectory where
  name : String
  path : Path
  deriving DecidableEq, Repr

/-- `RootDir`, `ParentDir` and `Normal`, as `std::path::Component` orders them. -/
def componentRank : Component → ℕ ×ₗ String
  | .current => toLex (1, "")
  | .parent => toLex (2, "")
  | .name name => toLex (3, name)

/-- The components of a path. -/
def pathOrder (path : Path) : List (ℕ ×ₗ String) :=
  (if path.absolute then [toLex (0, "")] else []) ++
    (dropCurrent path.components).map componentRank

/-- By the number of components, then by the components. -/
def depthOrder (path : Path) : ℕ ×ₗ List (ℕ ×ₗ String) :=
  toLex ((pathOrder path).length, pathOrder path)

def SkillDirectory.key (skill : SkillDirectory) : String ×ₗ (ℕ ×ₗ List (ℕ ×ₗ String)) :=
  toLex (toAsciiLowercase skill.name, depthOrder skill.path)

section Discovery

variable (files : ListedFiles)

/-- The directory of a child, if it is a skill. -/
def nestedSkill (directory : Path) (child : Name) : Option SkillDirectory :=
  if files.isDir (entryPath directory child) && files.isFile (skillFile (entryPath directory child))
  then some ⟨child, skillFile (entryPath directory child)⟩
  else none

/-- What one entry of a root adds. -/
def entrySkills (root : Path) (name : Name) : Except SkillIoError (List SkillDirectory) :=
  let directory := entryPath root name
  if !files.isDir directory then .ok []
  else if files.isFile (skillFile directory) then .ok [⟨name, skillFile directory⟩]
  else do
    let children ← files.readDir directory
    return children.filterMap (nestedSkill files directory)

def discoverSkillDirectories (root : Path) : Except SkillIoError (List SkillDirectory) := do
  let names ← files.readDir root
  let skills ← names.mapM (entrySkills files root)
  return skills.flatten.insertionSort fun left right => left.key ≤ right.key

/-! ## Resolution -/

/-- The request without the blanks around it and the slashes and dollars in front. -/
def requested (skill : String) : String :=
  String.ofList (((Text.trim skill.toList).dropWhile (· = '/')).dropWhile (· = '$'))

def directSkill (root : Path) (request : String) : Path := skillFile (root.join (.ofText request))

def resolveInRoot (request : String) (root : Path) : Except SkillIoError (Option Path) :=
  if files.isFile (directSkill root request) then .ok (some (directSkill root request))
  else do
    let skills ← discoverSkillDirectories files root
    return (skills.find? fun candidate => eqIgnoreAsciiCase candidate.name request).map
      SkillDirectory.path

def resolveFrom (request : String) : List Path → Except SkillIoError (Option Path)
  | [] => .ok none
  | root :: roots => do
      match ← resolveInRoot files request root with
      | some path => return some path
      | none => resolveFrom request roots

def resolveSkillPathFromRoots (skill : String) (roots : List Path) :
    Except SkillIoError (Option Path) :=
  if requested skill = "" then .ok none else resolveFrom files (requested skill) roots

end Discovery

/-! ## What is in a directory -/

section Entries

variable {files : ListedFiles} {path directory root : Path} {name : Name}

/-- The path of an entry leads somewhere only if its directory is one, and holds it. -/
theorem locate_entryPath {location : Location}
    (found : files.locate (entryPath path name) = some location) :
    ∃ above, files.locate path = some above ∧ files.entry above = some .directory ∧
      files.entry (above ++ [name]) ≠ none := by
  have walks := FileSystem.canonicalize_eq_some.1 found
  have components : (entryPath path name).components = path.components ++ [.name name] := rfl
  have start : (entryPath path name).start files.here = path.start files.here := rfl
  rw [components, start, FileSystem.resolve_append] at walks
  cases above : files.resolve (path.start files.here) path.components with
  | absent directory rest => rw [above] at walks; cases walks
  | blocked => rw [above] at walks; cases walks
  | found next =>
      rw [above] at walks
      refine ⟨next, FileSystem.canonicalize_eq_some.2 above, ?_⟩
      obtain ⟨follow, same⟩ := files.walk_eq files.linkDepth
      have one : files.walkWith follow next [.name name] = .found location := by
        rw [← same]
        exact walks
      by_cases inDirectory : files.entry next = some .directory
      · refine ⟨inDirectory, fun none_ => ?_⟩
        have step : files.stepWith follow next (.name name) = .absent next [.name name] := by
          show files.enter follow next name = .absent next [.name name]
          rw [FileSystem.enter, none_]
        rw [FileSystem.walkWith_cons _ _ inDirectory, step] at one
        cases one
      · rw [FileSystem.walkWith, if_neg inDirectory] at one
        cases one

theorem isDir_iff : files.isDir path = true ↔
    ∃ location, files.locate path = some location ∧ files.entry location = some .directory := by
  unfold ListedFiles.isDir FileSystem.isDirectory ListedFiles.locate
  cases files.canonicalize (path.start files.here) path.components <;> simp

theorem isFile_located (file : files.isFile path = true) :
    ∃ location, files.locate path = some location := by
  unfold ListedFiles.isFile at file
  cases found : files.locate path with
  | none => rw [found] at file; cases file
  | some location => exact ⟨location, rfl⟩

theorem isDir_of_skillFile (file : files.isFile (skillFile directory) = true) :
    files.isDir directory = true := by
  obtain ⟨location, found⟩ := isFile_located file
  obtain ⟨above, located, inDirectory, -⟩ := locate_entryPath found
  exact isDir_iff.2 ⟨above, located, inDirectory⟩

theorem readDir_ok (dir : files.isDir path = true) :
    ∃ location, files.locate path = some location ∧
      files.readDir path = .ok (files.names location) := by
  obtain ⟨location, located, inDirectory⟩ := isDir_iff.1 dir
  refine ⟨location, located, ?_⟩
  rw [ListedFiles.readDir, located]
  exact if_pos inDirectory

/-- A directory that is there is among the entries of the one it lies in. -/
theorem entry_listed {location : Location} (dir : files.isDir (entryPath path name) = true)
    (located : files.locate path = some location) :
    name ∈ files.names location ∧ IsSegment name := by
  obtain ⟨inner, found, -⟩ := isDir_iff.1 dir
  obtain ⟨above, same, -, stands⟩ := locate_entryPath found
  obtain rfl := Option.some.inj (located.symm.trans same)
  exact ⟨(files.listed location name).2 stands, files.segments location name stands⟩

end Entries

/-! ## What is discovered -/

/-- The skills of a root: its own directories, and those of directories that are no skills. -/
inductive IsSkillOf (files : ListedFiles) (root : Path) : SkillDirectory → Prop
  | direct (name : Name) (file : files.isFile (skillFile (entryPath root name)) = true) :
      IsSkillOf files root ⟨name, skillFile (entryPath root name)⟩
  | nested (above name : Name) (noSkill : files.isFile (skillFile (entryPath root above)) = false)
      (file : files.isFile (skillFile (entryPath (entryPath root above) name)) = true) :
      IsSkillOf files root ⟨name, skillFile (entryPath (entryPath root above) name)⟩

/-- A loop whose calls all succeed, and what it has collected. -/
theorem mapM_collects {α β ε : Type} {call : α → Except ε (List β)} {adds : α → β → Prop}
    (items : List α)
    (each : ∀ item ∈ items, ∃ found, call item = .ok found ∧ ∀ b, b ∈ found ↔ adds item b) :
    ∃ all, items.mapM call = .ok all ∧ ∀ b, b ∈ all.flatten ↔ ∃ item ∈ items, adds item b := by
  induction items with
  | nil => exact ⟨[], rfl, by simp⟩
  | cons item items ih =>
      obtain ⟨here, others⟩ := List.forall_mem_cons.1 each
      obtain ⟨found, called, collects⟩ := here
      obtain ⟨all, collected, members⟩ := ih others
      refine ⟨found :: all, ?_, fun b => ?_⟩
      · rw [List.mapM_cons, called, ok_bind, collected]
        rfl
      · simp [collects, members]

section Discovery

variable {files : ListedFiles} {root : Path}

theorem entrySkills_ok (root : Path) (name : Name) :
    ∃ found, entrySkills files root name = .ok found ∧ ∀ skill, skill ∈ found ↔
      (skill = ⟨name, skillFile (entryPath root name)⟩ ∧
          files.isFile (skillFile (entryPath root name)) = true) ∨
        files.isFile (skillFile (entryPath root name)) = false ∧
          ∃ child, skill = ⟨child, skillFile (entryPath (entryPath root name) child)⟩ ∧
            files.isFile (skillFile (entryPath (entryPath root name) child)) = true := by
  unfold entrySkills
  dsimp only
  cases dir : files.isDir (entryPath root name) with
  | false =>
      refine ⟨[], rfl, fun skill => ?_⟩
      simp only [List.not_mem_nil, false_iff]
      rintro (⟨-, file⟩ | ⟨-, child, -, file⟩)
      · rw [isDir_of_skillFile file] at dir
        cases dir
      · have inner := isDir_of_skillFile file
        obtain ⟨location, found, -⟩ := isDir_iff.1 inner
        obtain ⟨above, located, inDirectory, -⟩ := locate_entryPath found
        rw [isDir_iff.2 ⟨above, located, inDirectory⟩] at dir
        cases dir
  | true =>
      rw [if_neg (by simp)]
      cases file : files.isFile (skillFile (entryPath root name)) with
      | true => exact ⟨_, if_pos rfl, fun skill => by simp⟩
      | false =>
          obtain ⟨location, located, reads⟩ := readDir_ok dir
          rw [if_neg nofun, reads, ok_bind]
          refine ⟨_, rfl, fun skill => ?_⟩
          simp only [List.mem_filterMap, nestedSkill, Option.ite_none_right_eq_some,
            Bool.and_eq_true, Option.some.injEq, Bool.false_eq_true, and_false, true_and, false_or]
          constructor
          · rintro ⟨child, -, ⟨-, isSkill⟩, same⟩
            exact ⟨child, same.symm, isSkill⟩
          · rintro ⟨child, same, isSkill⟩
            have inner := isDir_of_skillFile isSkill
            exact ⟨child, (entry_listed inner located).1, ⟨inner, isSkill⟩, same.symm⟩

/-- **Discovery** finds the skills of a root, in the order of their keys. -/
theorem discover_spec (dir : files.isDir root = true) :
    ∃ skills, discoverSkillDirectories files root = .ok skills ∧
      skills.Pairwise (fun left right => left.key ≤ right.key) ∧
      ∀ skill, skill ∈ skills ↔ IsSkillOf files root skill := by
  obtain ⟨location, located, reads⟩ := readDir_ok dir
  obtain ⟨all, collected, members⟩ := mapM_collects (files.names location)
    fun name _ => @entrySkills_ok files root name
  refine ⟨_, ?_, List.pairwise_insertionSort _ all.flatten, fun skill => ?_⟩
  · rw [discoverSkillDirectories, reads, ok_bind, collected]
    rfl
  · rw [List.mem_insertionSort, members]
    constructor
    · rintro ⟨name, -, ⟨rfl, file⟩ | ⟨noSkill, child, rfl, file⟩⟩
      · exact .direct name file
      · exact .nested name child noSkill file
    · rintro (⟨name, file⟩ | ⟨above, name, noSkill, file⟩)
      · exact ⟨name, (entry_listed (isDir_of_skillFile file) located).1, .inl ⟨rfl, file⟩⟩
      · have inner := isDir_of_skillFile file
        obtain ⟨place, found, -⟩ := isDir_iff.1 inner
        obtain ⟨middle, between, inDirectory, -⟩ := locate_entryPath found
        have outer : files.isDir (entryPath root above) = true :=
          isDir_iff.2 ⟨middle, between, inDirectory⟩
        exact ⟨above, (entry_listed outer located).1, .inr ⟨noSkill, name, rfl, file⟩⟩

/-- The name of a skill is one component of a path. -/
theorem IsSkillOf.segment {skill : SkillDirectory} (isSkill : IsSkillOf files root skill) :
    IsSegment skill.name := by
  have inside : ∀ {path name}, files.isFile (skillFile (entryPath path name)) = true →
      IsSegment name := by
    intro path name file
    have inner := isDir_of_skillFile file
    obtain ⟨place, found, -⟩ := isDir_iff.1 inner
    obtain ⟨above, located, -⟩ := locate_entryPath found
    exact (entry_listed inner located).2
  cases isSkill with
  | direct name file => exact inside file
  | nested above name noSkill file => exact inside file

end Discovery

/-! ## Where a request leads -/

section Roots

variable (files : ListedFiles) (root : Path) (request : String)

/-- The skill that comes first among those of the requested name, whatever its case. -/
structure FirstNamed (skill : SkillDirectory) : Prop where
  isSkill : IsSkillOf files root skill
  named : eqIgnoreAsciiCase skill.name request = true
  least : ∀ other, IsSkillOf files root other → eqIgnoreAsciiCase other.name request = true →
    depthOrder skill.path ≤ depthOrder other.path

/-- What a root has for a request: the file under its text, or else the first of that name. -/
inductive HasFor (path : Path) : Prop
  | direct (file : files.isFile (directSkill root request) = true)
      (same : path = directSkill root request)
  | named (skill : SkillDirectory) (noFile : files.isFile (directSkill root request) = false)
      (first : FirstNamed files root request skill) (same : path = skill.path)

/-- Nothing in the root answers the request. -/
def Lacks : Prop :=
  files.isFile (directSkill root request) = false ∧
    ∀ skill, IsSkillOf files root skill → eqIgnoreAsciiCase skill.name request = false

/-- The first root that does not lack an answer has this path for the request. -/
inductive LeadsTo (path : Path) : List Path → Prop
  | here {root : Path} {roots : List Path} (has : HasFor files root request path) :
      LeadsTo path (root :: roots)
  | later {root : Path} {roots : List Path} (lacks : Lacks files root request)
      (leads : LeadsTo path roots) : LeadsTo path (root :: roots)

end Roots

section Resolution

variable {files : ListedFiles} {root path other : Path} {request : String} {roots : List Path}

theorem componentRank_injective : Function.Injective componentRank := by
  intro left right same
  cases left <;> cases right <;> simp_all [componentRank]

/-- Paths of one rank are one path. -/
theorem normal_of_depthOrder (same : depthOrder path = depthOrder other) :
    path.normal = other.normal := by
  have orders : pathOrder path = pathOrder other := (Prod.mk.inj (toLex.injective same)).2
  have rootless : ∀ (components : List Component) rest,
      toLex (0, "") :: rest ≠ components.map componentRank := by
    intro components rest equal
    cases components with
    | nil => cases equal
    | cons component components =>
        have head := (List.cons.inj equal).1
        cases component <;> simp [componentRank] at head
  unfold pathOrder at orders
  unfold Path.normal
  cases first : path.absolute <;> cases second : other.absolute <;>
    simp only [first, second, if_true, if_false, List.nil_append, List.singleton_append,
      Bool.false_eq_true] at orders
  · rw [componentRank_injective.list_map orders]
  · exact absurd orders.symm (rootless _ _)
  · exact absurd orders (rootless _ _)
  · rw [componentRank_injective.list_map (List.cons.inj orders).2]

/-- What a root has for a request is one path. -/
theorem HasFor.unique (has : HasFor files root request path)
    (also_ : HasFor files root request other) : path.normal = other.normal := by
  cases has with
  | direct file same =>
      cases also_ with
      | direct _ equal => rw [same, equal]
      | named _ noFile => rw [file] at noFile; cases noFile
  | named skill noFile first same =>
      cases also_ with
      | direct file => rw [file] at noFile; cases noFile
      | named rival _ second equal =>
          rw [same, equal]
          exact normal_of_depthOrder (le_antisymm (first.least rival second.isSkill second.named)
            (second.least skill first.isSkill first.named))

theorem HasFor.not_lacks (has : HasFor files root request path) : ¬Lacks files root request := by
  rintro ⟨noFile, nobody⟩
  cases has with
  | direct file => rw [file] at noFile; cases noFile
  | named skill _ first =>
      have named := first.named
      rw [nobody skill first.isSkill] at named
      cases named

theorem LeadsTo.unique (leads : LeadsTo files request path roots)
    (also_ : LeadsTo files request other roots) : path.normal = other.normal := by
  induction leads with
  | here has =>
      cases also_ with
      | here has' => exact has.unique has'
      | later lacks => exact absurd lacks has.not_lacks
  | later lacks leads ih =>
      cases also_ with
      | here has => exact absurd lacks has.not_lacks
      | later _ leads' => exact ih leads'

theorem resolveInRoot_spec (dir : files.isDir root = true) :
    (∃ path, resolveInRoot files request root = .ok (some path) ∧ HasFor files root request path) ∨
      resolveInRoot files request root = .ok none ∧ Lacks files root request := by
  unfold resolveInRoot
  cases file : files.isFile (directSkill root request) with
  | true => exact .inl ⟨_, if_pos rfl, .direct file rfl⟩
  | false =>
      obtain ⟨skills, discovered, sorted, members⟩ := discover_spec dir
      rw [if_neg nofun, discovered, ok_bind]
      cases found : skills.find? fun candidate => eqIgnoreAsciiCase candidate.name request with
      | none =>
          refine .inr ⟨rfl, file, fun skill isSkill => ?_⟩
          simpa using List.find?_eq_none.1 found skill ((members skill).2 isSkill)
      | some skill =>
          refine .inl ⟨skill.path, rfl, .named skill file ⟨?_, ?_, ?_⟩ rfl⟩
          · exact (members skill).1 (List.mem_of_find?_eq_some found)
          · exact (List.find?_eq_some_iff_append.1 found).1
          · intro rival isSkill named
            obtain ⟨isNamed, before, after, rfl, unnamed⟩ := List.find?_eq_some_iff_append.1 found
            have member := (members rival).2 isSkill
            have within : rival ∈ skill :: after := by
              refine (List.mem_append.1 member).resolve_left fun early => ?_
              have not_ := unnamed rival early
              simp [named] at not_
            rcases List.mem_cons.1 within with rfl | later
            · exact le_rfl
            · have ordered : skill.key ≤ rival.key :=
                List.rel_of_pairwise_cons (List.pairwise_append.1 sorted).2.1 later
              have name_ : toAsciiLowercase skill.name = toAsciiLowercase rival.name :=
                (of_decide_eq_true isNamed).trans (of_decide_eq_true named).symm
              rcases Prod.Lex.toLex_le_toLex.1 ordered with below | ⟨-, depth⟩
              · exact absurd below (by simp [name_])
              · exact depth

/-- **Where a request leads** among roots that are directories. -/
theorem resolveFrom_spec (dirs : ∀ root ∈ roots, files.isDir root = true) :
    (∃ path, resolveFrom files request roots = .ok (some path) ∧
        LeadsTo files request path roots) ∨
      resolveFrom files request roots = .ok none ∧
        ∀ root ∈ roots, Lacks files root request := by
  induction roots with
  | nil => exact .inr ⟨rfl, nofun⟩
  | cons root roots ih =>
      obtain ⟨dir, others⟩ := List.forall_mem_cons.1 dirs
      rw [resolveFrom]
      rcases @resolveInRoot_spec files root request dir with ⟨path, resolved, has⟩ | ⟨resolved, lacks⟩
      · rw [resolved, ok_bind]
        exact .inl ⟨path, rfl, .here has⟩
      · rw [resolved, ok_bind]
        rcases ih others with ⟨path, further, leads⟩ | ⟨further, lack⟩
        · exact .inl ⟨path, further, .later lacks leads⟩
        · exact .inr ⟨further, List.forall_mem_cons.2 ⟨lacks, lack⟩⟩

theorem LeadsTo.not_lacking (leads : LeadsTo files request path roots) :
    ∃ root ∈ roots, ¬Lacks files root request := by
  induction leads with
  | here has => exact ⟨_, List.mem_cons_self, has.not_lacks⟩
  | later _ _ ih =>
      obtain ⟨root, member, has⟩ := ih
      exact ⟨root, List.mem_cons_of_mem _ member, has⟩

/-- **A skill gets this path exactly if** its request leads there. -/
theorem resolves_iff (dirs : ∀ root ∈ roots, files.isDir root = true) (skill : String)
    (path : Path) :
    (∃ found, resolveSkillPathFromRoots files skill roots = .ok (some found) ∧
        found.normal = path.normal) ↔
      requested skill ≠ "" ∧
        ∃ found, LeadsTo files (requested skill) found roots ∧ found.normal = path.normal := by
  unfold resolveSkillPathFromRoots
  by_cases empty : requested skill = ""
  · rw [if_pos empty]
    exact ⟨fun ⟨_, never, _⟩ => (by cases never), fun both => absurd empty both.1⟩
  · rw [if_neg empty]
    rcases @resolveFrom_spec files (requested skill) roots dirs with ⟨got, resolved, leads⟩ |
      ⟨resolved, lack⟩
    · rw [resolved]
      constructor
      · rintro ⟨found, same, equal⟩
        obtain rfl := Option.some.inj (Except.ok.inj same)
        exact ⟨empty, got, leads, equal⟩
      · rintro ⟨-, found, also_, equal⟩
        exact ⟨got, rfl, (leads.unique also_).trans equal⟩
    · rw [resolved]
      constructor
      · rintro ⟨found, same, -⟩
        cases same
      · rintro ⟨-, found, leads, -⟩
        obtain ⟨root, member, has⟩ := leads.not_lacking
        exact absurd (lack root member) has

end Resolution

end Openyak.Runtime
