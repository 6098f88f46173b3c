/-
# Runtime.FileOps -- writing and editing files

`write_file` and `edit_file` on a tree.  A call returns the tree after it, the
locations it made or wrote, and its result; what is not among those locations is as it
was (`writeFile_frame`, `editFile_frame`).

`editFile` changes only the file its path leads to (`editFile_changed`).  `writeFile`
resolves its path again where it does not lead anywhere, and keeps below a location only
when the path does (`writeFile_changed`).
-/
import Openyak.Runtime.PermissionEnforcer
import Openyak.Theory.Text

namespace Openyak.Runtime

open Openyak.Theory
open Openyak.Theory.Posix

set_option autoImplicit false

/-- An error of the operating system, an input that is refused, an error with its text,
or a panic. -/
inductive FileError where
  | os
  | input
  | message (text : String)
  | panicked
  deriving DecidableEq, Repr

structure FileCall (Output : Type) where
  fs : FileSystem
  changed : List Location
  result : Except FileError Output

namespace FileCall

variable {Output Output' : Type}

def map (f : Output → Output') (call : FileCall Output) : FileCall Output' :=
  ⟨call.fs, call.changed, call.result.map f⟩

theorem map_ok {f : Output → Output'} {call : FileCall Output} {output : Output'}
    (finished : (call.map f).result = .ok output) : ∃ before, call.result = .ok before := by
  have mapped : call.result.map f = .ok output := finished
  cases result : call.result with
  | error error => rw [result] at mapped; cases mapped
  | ok before => exact ⟨before, rfl⟩

end FileCall

structure StructuredPatchHunk where
  oldStart : Nat
  oldLines : Nat
  newStart : Nat
  newLines : Nat
  lines : List (List Char)
  deriving DecidableEq, Repr

/-- `kind` is `"create"` or `"update"`; `git_diff` is always `None`. -/
structure WriteFileOutput where
  kind : String
  filePath : Path
  content : String
  structuredPatch : List StructuredPatchHunk
  originalFile : Option (List Char)
  deriving DecidableEq, Repr

structure EditFileOutput where
  filePath : Path
  oldString : String
  newString : String
  originalFile : List Char
  structuredPatch : List StructuredPatchHunk
  userModified : Bool
  replaceAll : Bool
  deriving DecidableEq, Repr

def makePatch (original updated : List Char) : List StructuredPatchHunk :=
  [{ oldStart := 1
     oldLines := (Text.lines original).length
     newStart := 1
     newLines := (Text.lines updated).length
     lines := (Text.lines original).map ('-' :: ·) ++ (Text.lines updated).map ('+' :: ·) }]

section Operations

variable {fs : FileSystem} (cwd : WorkingDirectory fs)

/-- The path of an argument before it is resolved. -/
def candidatePath (path : String) : Path :=
  if (Path.ofText path).absolute then Path.ofText path else cwd.path.join (Path.ofText path)

def normalizePath (path : String) : Option Path := canonicalize cwd (candidatePath cwd path)

def normalizePathAllowMissing (path : String) : Path :=
  let candidate := candidatePath cwd path
  match canonicalize cwd candidate with
  | some canonical => canonical
  | none =>
      match candidate.parent with
      | none => candidate
      | some parent =>
          let canonicalParent := (canonicalize cwd parent).getD parent
          match candidate.fileName with
          | some name => canonicalParent.join ⟨false, [.name name]⟩
          | none => candidate

def readToString (path : Path) : Option (List Char) :=
  fs.readToString (path.start cwd.location) path.components

def createDirAll (path : Path) : FileSystem.Made :=
  fs.createDirAll (path.start cwd.location) path.components

/-- `if let Some(parent) = path.parent() { create_dir_all(parent)?; }`. -/
def createParents (path : Path) : FileSystem.Made :=
  match path.parent with
  | some parent => createDirAll cwd parent
  | none => ⟨fs, [], true⟩

def writeFile (path content : String) : FileCall WriteFileOutput :=
  let absolutePath := normalizePathAllowMissing cwd path
  let originalFile := readToString cwd absolutePath
  let parent := createParents cwd absolutePath
  if parent.ok then
    match parent.fs.write (absolutePath.start cwd.location) absolutePath.components
        content.toList with
    | none => ⟨parent.fs, parent.made, .error .os⟩
    | some (after, location) =>
        { fs := after
          changed := parent.made ++ [location]
          result := .ok
            { kind := if originalFile.isSome then "update" else "create"
              filePath := absolutePath
              content := content
              structuredPatch := makePatch (originalFile.getD []) content.toList
              originalFile := originalFile } }
  else ⟨parent.fs, parent.made, .error .os⟩

def editFile (path oldString newString : String) (replaceAll : Bool) : FileCall EditFileOutput :=
  match normalizePath cwd path with
  | none => ⟨fs, [], .error .os⟩
  | some absolutePath =>
      match readToString cwd absolutePath with
      | none => ⟨fs, [], .error .os⟩
      | some originalFile =>
          if oldString = newString then
            ⟨fs, [], .error (.message "old_string and new_string must differ")⟩
          else if !Text.contains oldString originalFile then
            ⟨fs, [], .error (.message "old_string not found in file")⟩
          else
            let updated :=
              if replaceAll then Text.replace oldString newString originalFile
              else Text.replaceFirst oldString newString originalFile
            match fs.write (absolutePath.start cwd.location) absolutePath.components updated with
            | none => ⟨fs, [], .error .os⟩
            | some (after, location) =>
                { fs := after
                  changed := [location]
                  result := .ok
                    { filePath := absolutePath
                      oldString := oldString
                      newString := newString
                      originalFile := originalFile
                      structuredPatch := makePatch originalFile updated
                      userModified := false
                      replaceAll := replaceAll } }

end Operations

/-! ## The path that is written -/

section Paths

variable {fs : FileSystem} (cwd : WorkingDirectory fs)

theorem candidatePath_absolute (path : String) : (candidatePath cwd path).absolute := by
  unfold candidatePath Path.join
  by_cases absolute : (Path.ofText path).absolute
  · rw [if_pos absolute]
    exact absolute
  · rw [if_neg absolute, if_neg absolute]
    exact cwd.absolute

theorem resolve_candidatePath (path : String) :
    cwd.resolve (candidatePath cwd path) = cwd.resolve (Path.ofText path) := by
  unfold candidatePath
  split
  · rfl
  · exact cwd.resolve_join cwd.absolute cwd.resolve_path _

theorem resolve_candidatePath_normal (path : String) :
    cwd.resolve (candidatePath cwd path).normal = cwd.resolve (Path.ofText path).normal := by
  unfold candidatePath
  split
  · rfl
  · rename_i relative
    have joined : (cwd.path.join (Path.ofText path)).normal =
        cwd.path.normal.join (Path.ofText path).normal := by
      unfold Path.join
      rw [if_neg relative, if_neg (show ¬(Path.ofText path).normal.absolute from relative)]
      exact congrArg (Posix.Path.mk _) (dropCurrent_append _ _)
    rw [joined]
    have leads := (cwd.resolve_normal cwd.path).1 _ cwd.resolve_path
    have absolute : cwd.path.normal.absolute := cwd.absolute
    exact cwd.resolve_join absolute leads _

theorem start_settled (path : Path) : fs.Settled (path.start cwd.location) := by
  unfold Path.start
  split
  · exact FileSystem.settled_of_directory fs.root
  · exact cwd.settled

theorem found_settled {path : Path} {location : Location}
    (leads : cwd.resolve path = .found location) : fs.Settled location := by
  have truthful := FileSystem.walk_truthful fs.linkDepth (start_settled cwd path) path.components
  rw [show fs.walk _ _ _ = .found location from leads] at truthful
  exact truthful

theorem canonicalize_some {path canonical : Path} (leads : canonicalize cwd path = some canonical) :
    ∃ location, cwd.resolve path = .found location ∧ canonical = Path.ofLocation location := by
  rw [canonicalize_eq] at leads
  cases resolved : cwd.resolve path with
  | found location =>
      rw [resolved] at leads
      exact ⟨location, rfl, (Option.some.inj leads).symm⟩
  | absent directory rest => rw [resolved] at leads; cases leads
  | blocked => rw [resolved] at leads; cases leads

/-- What is written on the path of a location is written there. -/
theorem write_ofLocation {location written : Location} {text : List Char} {after : FileSystem}
    (settled : fs.Settled location)
    (writes : fs.write ((Path.ofLocation location).start cwd.location)
      (Path.ofLocation location).components text = some (after, written)) :
    written = location := by
  have leads := cwd.resolve_ofLocation settled
  unfold WorkingDirectory.resolve at leads
  obtain found | ⟨directory, name, absent, -⟩ := FileSystem.write_location writes
  · rw [leads] at found
    cases found
    rfl
  · rw [leads] at absent
    cases absent

/-! ## What an edit does -/

/-- An edit writes the file it read, or stops before it touches the tree. -/
theorem editFile_cases (path oldString newString : String) (replaceAll : Bool) :
    (∃ error, editFile cwd path oldString newString replaceAll = ⟨fs, [], .error error⟩) ∨
      ∃ target updated after location output, normalizePath cwd path = some target ∧
        fs.write (target.start cwd.location) target.components updated = some (after, location) ∧
        editFile cwd path oldString newString replaceAll = ⟨after, [location], .ok output⟩ := by
  unfold editFile
  cases target : normalizePath cwd path with
  | none => exact Or.inl ⟨_, rfl⟩
  | some absolutePath =>
      dsimp only
      cases readToString cwd absolutePath with
      | none => exact Or.inl ⟨_, rfl⟩
      | some originalFile =>
          dsimp only
          by_cases same : oldString = newString
          · rw [if_pos same]
            exact Or.inl ⟨_, rfl⟩
          · rw [if_neg same]
            split
            · exact Or.inl ⟨_, rfl⟩
            · split
              · exact Or.inl ⟨_, rfl⟩
              · rename_i after location writes
                exact Or.inr ⟨absolutePath, _, after, location, _, rfl, writes, rfl⟩

/-- **An edit changes the file its path leads to.** -/
theorem editFile_changed {path oldString newString : String} {replaceAll : Bool}
    {location : Location}
    (changed : location ∈ (editFile cwd path oldString newString replaceAll).changed) :
    cwd.resolve (Path.ofText path) = .found location := by
  obtain ⟨error, call⟩ | ⟨target, updated, after, written, output, isTarget, writes, call⟩ :=
    editFile_cases cwd path oldString newString replaceAll
  · rw [call] at changed
    cases changed
  · rw [call] at changed
    obtain ⟨found, leads, rfl⟩ := canonicalize_some cwd isTarget
    have settled := found_settled cwd leads
    rw [resolve_candidatePath] at leads
    rw [List.mem_singleton.mp changed, write_ofLocation cwd settled writes]
    exact leads

/-- **What an edit did not list is as it was.** -/
theorem editFile_frame {path oldString newString : String} {replaceAll : Bool}
    {location : Location}
    (other : location ∉ (editFile cwd path oldString newString replaceAll).changed) :
    (editFile cwd path oldString newString replaceAll).fs.entry location = fs.entry location := by
  obtain ⟨error, call⟩ | ⟨target, updated, after, written, output, isTarget, writes, call⟩ :=
    editFile_cases cwd path oldString newString replaceAll
  · rw [call]
  · rw [call] at other ⊢
    exact FileSystem.write_frame writes fun same => other (List.mem_singleton.mpr same)

/-- A finished edit changed something. -/
theorem editFile_finished {path oldString newString : String} {replaceAll : Bool}
    {output : EditFileOutput}
    (finished : (editFile cwd path oldString newString replaceAll).result = .ok output) :
    ∃ location, location ∈ (editFile cwd path oldString newString replaceAll).changed := by
  obtain ⟨error, call⟩ | ⟨target, updated, after, written, output, isTarget, writes, call⟩ :=
    editFile_cases cwd path oldString newString replaceAll
  · rw [call] at finished
    cases finished
  · rw [call]
    exact ⟨written, List.mem_singleton.mpr rfl⟩

/-! ## What a write does -/

/-- A write at its target: the directories above are made first, and stay when the write
fails. -/
inductive Wrote (target : Path) (text : List Char) : FileCall WriteFileOutput → Prop where
  | failed
      (fails : (createParents cwd target).ok → (createParents cwd target).fs.write
        (target.start cwd.location) target.components text = none) :
      Wrote target text
        ⟨(createParents cwd target).fs, (createParents cwd target).made, .error .os⟩
  | finished {after : FileSystem} {location : Location} {output : WriteFileOutput}
      (ok : (createParents cwd target).ok)
      (writes : (createParents cwd target).fs.write (target.start cwd.location)
        target.components text = some (after, location)) :
      Wrote target text ⟨after, (createParents cwd target).made ++ [location], .ok output⟩

theorem writeFile_wrote (path content : String) :
    Wrote cwd (normalizePathAllowMissing cwd path) content.toList (writeFile cwd path content) := by
  unfold writeFile
  dsimp only
  by_cases ok : (createParents cwd (normalizePathAllowMissing cwd path)).ok
  · rw [if_pos ok]
    split
    · rename_i fails
      exact .failed fun _ => fails
    · rename_i after location writes
      exact .finished ok writes
  · rw [if_neg ok]
    exact .failed fun never => absurd never ok

theorem createParents_frame {target : Path} {location : Location}
    (other : location ∉ (createParents cwd target).made) :
    (createParents cwd target).fs.entry location = fs.entry location := by
  unfold createParents at other ⊢
  cases parent : target.parent with
  | none => rfl
  | some above =>
      rw [parent] at other
      exact FileSystem.createDirAll_frame other

/-- **What a write did not list is as it was.** -/
theorem writeFile_frame {path content : String} {location : Location}
    (other : location ∉ (writeFile cwd path content).changed) :
    (writeFile cwd path content).fs.entry location = fs.entry location := by
  have wrote := writeFile_wrote cwd path content
  generalize writeFile cwd path content = call at wrote other ⊢
  cases wrote with
  | failed fails => exact createParents_frame cwd other
  | finished ok writes =>
      simp only [List.mem_append, List.mem_singleton, not_or] at other
      exact (FileSystem.write_frame writes other.2).trans (createParents_frame cwd other.1)

/-- What stands above something is a directory, so nothing is made there. -/
theorem createParents_ofLocation {found : Location} (settled : fs.Settled found) :
    ∃ ok, createParents cwd (Path.ofLocation found) = ⟨fs, [], ok⟩ := by
  obtain rfl | ⟨above, last, rfl⟩ := List.eq_nil_or_concat found
  · exact ⟨true, rfl⟩
  · rw [List.concat_eq_append] at settled ⊢
    have ends : dropCurrent (Path.ofLocation (above ++ [last])).components =
        ofLocation above ++ [.name last] := by
      show dropCurrent (ofLocation (above ++ [last])) = ofLocation above ++ [.name last]
      rw [dropCurrent_ofLocation, ofLocation_append]
      rfl
    obtain ⟨entry, stands, -⟩ := settled
    have directory : fs.entry above = some .directory :=
      fs.parents above last (by rw [stands]; nofun)
    have resolved : fs.resolve [] (ofLocation above) = .found above :=
      FileSystem.walk_ofLocation _ [] above (FileSystem.settled_of_directory directory)
    have present : ∀ directory rest,
        fs.resolve [] (ofLocation above) ≠ .absent directory rest := by
      rw [resolved]
      nofun
    obtain ⟨ok, still, -⟩ := FileSystem.createDirAll_still present
    refine ⟨ok, ?_⟩
    unfold createParents
    rw [(Path.parent_append ends).1]
    exact still

/-- **A path that leads to a file is written there, and nothing is made.** -/
theorem writeFile_found {path content : String} {found : Location}
    (leads : cwd.resolve (Path.ofText path) = .found found) :
    (∀ location ∈ (writeFile cwd path content).changed, location = found) ∧
      ∀ output, (writeFile cwd path content).result = .ok output →
        found ∈ (writeFile cwd path content).changed := by
  have candidate := resolve_candidatePath cwd path
  rw [leads] at candidate
  have settled := found_settled cwd leads
  have target : normalizePathAllowMissing cwd path = Path.ofLocation found := by
    unfold normalizePathAllowMissing
    dsimp only
    rw [canonicalize_eq, candidate]
  obtain ⟨ok, still⟩ := createParents_ofLocation cwd settled
  have wrote := writeFile_wrote cwd path content
  rw [target] at wrote
  generalize writeFile cwd path content = call at wrote
  cases wrote with
  | failed fails =>
      rw [still]
      exact ⟨nofun, nofun⟩
  | finished ok writes =>
      rw [still] at writes ⊢
      obtain rfl := write_ofLocation cwd settled writes
      exact ⟨fun location => List.mem_singleton.mp, fun _ _ => List.mem_singleton.mpr rfl⟩

/-! ## A write to a path that leads nowhere

Its parent is resolved, or taken raw, and its name put behind it.  The directories of a
named path are made below the place where the first name is missing; a path without a
name is handed on as it is, and then nothing is written unless `..` stands behind a
missing name. -/

theorem canonicalize_none {path : Path}
    (nowhere : ∀ location, cwd.resolve path ≠ .found location) : canonicalize cwd path = none := by
  rw [canonicalize_eq]
  cases resolved : cwd.resolve path with
  | found location => exact absurd resolved (nowhere location)
  | absent directory rest => rfl
  | blocked => rfl

theorem normalizePathAllowMissing_named {path : String} {above : List Component} {name : Name}
    (nowhere : canonicalize cwd (candidatePath cwd path) = none)
    (ends : dropCurrent (candidatePath cwd path).components = above ++ [.name name]) :
    ∃ up, normalizePathAllowMissing cwd path = ⟨true, up ++ [.name name]⟩ ∧
      dropCurrent up = up ∧ fs.resolve [] up = fs.resolve [] above := by
  have absolute := candidatePath_absolute cwd path
  obtain ⟨parent, fileName⟩ := Path.parent_append ends
  rw [absolute] at parent
  have start : cwd.resolve ⟨true, above⟩ = fs.resolve [] above := cwd.resolve_absolute _ rfl
  unfold normalizePathAllowMissing
  dsimp only
  rw [nowhere, parent, fileName]
  dsimp only [Component.fileName]
  cases canonical : canonicalize cwd ⟨true, above⟩ with
  | some canonical_ =>
      obtain ⟨directory, leads, rfl⟩ := canonicalize_some cwd canonical
      have settled := found_settled cwd leads
      have same := FileSystem.walk_ofLocation fs.linkDepth [] directory settled
      exact ⟨ofLocation directory, rfl, dropCurrent_ofLocation directory,
        same.trans (start ▸ leads).symm⟩
  | none =>
      have normal : dropCurrent (above ++ [.name name]) = above ++ [.name name] := by
        rw [← ends, dropCurrent_idem]
      rw [dropCurrent_append] at normal
      exact ⟨above, rfl, (List.append_inj' normal rfl).1, rfl⟩

theorem normalizePathAllowMissing_unnamed {path : String}
    (nowhere : canonicalize cwd (candidatePath cwd path) = none)
    (unnamed : (candidatePath cwd path).fileName = none) :
    normalizePathAllowMissing cwd path = candidatePath cwd path := by
  unfold normalizePathAllowMissing
  dsimp only
  rw [nowhere, unnamed]
  cases (candidatePath cwd path).parent <;> rfl

/-- What is written on a path that leads nowhere stands where its components are absent. -/
theorem absent_of_write {path : Path} (absolute : path.absolute) {text : List Char}
    (nowhere : ∀ location, cwd.resolve path ≠ .found location) {after : FileSystem}
    {location : Location}
    (writes : fs.write (path.start cwd.location) path.components text = some (after, location)) :
    ∃ directory rest, fs.resolve [] (dropCurrent path.components) = .absent directory rest := by
  obtain found | ⟨directory, name, absent, -⟩ := FileSystem.write_location writes
  · exact absurd found (nowhere location)
  · obtain ⟨rest, same⟩ := (cwd.resolve_normal path).2 directory _ absent
    rw [cwd.resolve_absolute path.normal absolute] at same
    exact ⟨directory, rest, same⟩

/-- The write of a path whose last component is no name, with only names missing above. -/
theorem unnamed_still {target : Path} (absolute : target.absolute)
    (nowhere : ∀ location, cwd.resolve target ≠ .found location)
    (unnamed : target.fileName = none)
    (names : FileSystem.OnlyNames (fs.resolve [] (dropCurrent target.components))) :
    (createParents cwd target).made = [] ∧ ((createParents cwd target).ok → ∀ text,
      (createParents cwd target).fs.write (target.start cwd.location) target.components text =
        none) := by
  have unwritten : (∀ directory rest,
      fs.resolve [] (dropCurrent target.components) ≠ .absent directory rest) → ∀ text,
      fs.write (target.start cwd.location) target.components text = none := by
    intro present text
    cases writes : fs.write (target.start cwd.location) target.components text with
    | none => rfl
    | some written =>
        obtain ⟨directory, rest, absent⟩ := absent_of_write cwd absolute nowhere writes
        exact absurd absent (present directory rest)
  obtain empty | ⟨above, last, ends⟩ := List.eq_nil_or_concat (dropCurrent target.components)
  · -- the root leads to itself
    have top : target.parent = none := by
      unfold Path.parent
      rw [empty]
      rfl
    unfold createParents
    rw [top]
    refine ⟨rfl, fun _ => unwritten fun directory rest absent => ?_⟩
    rw [empty, FileSystem.resolve, FileSystem.walk_nil] at absent
    cases absent
  · rw [List.concat_eq_append] at ends
    obtain ⟨parent, fileName⟩ := Path.parent_append ends
    have noName : ∀ name, last ≠ .name name := by
      rintro name rfl
      rw [unnamed] at fileName
      cases fileName
    rw [ends, FileSystem.resolve_append] at names
    have present : ∀ directory rest, fs.resolve [] above ≠ .absent directory rest := by
      intro directory rest absent
      rw [absent] at names
      obtain ⟨name, isName⟩ := names last (List.mem_append_right _ (List.mem_singleton.mpr rfl))
      exact noName name isName
    obtain ⟨ok, still, leads⟩ := FileSystem.createDirAll_still present
    have made : createParents cwd target = ⟨fs, [], ok⟩ := by
      unfold createParents
      rw [parent, absolute]
      exact still
    rw [made]
    refine ⟨rfl, fun isOk => unwritten fun missing rest absent => ?_⟩
    obtain ⟨directory, found⟩ := leads isOk
    rw [ends, FileSystem.resolve_append, found] at absent
    obtain ⟨-, name, isName, -⟩ := FileSystem.absent_name absent
    exact noName name isName

/-- What a write at a named path lists is below every location the path ends below, and a
finished one lists a place where the path ends. -/
theorem named_places {up : List Component} {name : Name} (normal : dropCurrent up = up)
    {text : List Char} {call : FileCall WriteFileOutput}
    (wrote : Wrote cwd ⟨true, up ++ [.name name]⟩ text call)
    (names : FileSystem.OnlyNames (fs.resolve [] (up ++ [.name name]))) :
    (∀ root, FileSystem.EndsBelow root (fs.resolve [] (up ++ [.name name])) →
      ∀ location ∈ call.changed, root <+: location) ∧
    ∀ output, call.result = .ok output →
      ∃ place ∈ call.changed, fs.EndsAt (fs.resolve [] (up ++ [.name name])) place := by
  have parents : createParents cwd ⟨true, up ++ [.name name]⟩ = fs.createDirAll [] up := by
    have ends : dropCurrent (up ++ [Component.name name]) = up ++ [.name name] := by
      rw [dropCurrent_append, normal]
      rfl
    have isParent : Path.parent ⟨true, up ++ [.name name]⟩ = some ⟨true, up⟩ :=
      (Path.parent_append ends).1
    unfold createParents
    rw [isParent]
    rfl
  by_cases missing : ∃ directory rest, fs.resolve [] up = .absent directory rest
  · obtain ⟨directory, rest, resolved⟩ := missing
    have whole : fs.resolve [] (up ++ [.name name]) = .absent directory (rest ++ [.name name]) := by
      rw [FileSystem.resolve_append, resolved]
      rfl
    rw [whole] at names ⊢
    have made := FileSystem.createDirAll_absent resolved fun component isRest =>
      names component (List.mem_append_left _ isRest)
    cases wrote with
    | failed fails =>
        rw [parents]
        exact ⟨fun root below location isMade => below.1.trans (made.below location isMade), nofun⟩
    | finished ok writes =>
        rw [parents] at ok writes ⊢
        obtain ⟨bottom, leads, inDirectory, under, empty⟩ := made.made ok
        have fresh := (FileSystem.resolve_name inDirectory name).1 (empty name)
        have place := FileSystem.write_endsAt writes
        rw [Path.start, if_pos rfl, FileSystem.resolve_append, leads] at place
        rw [show FileSystem.Outcome.andThen _ _ _ = FileSystem.resolve _ bottom [.name name] from rfl,
          fresh] at place
        obtain ⟨-, rfl, -⟩ := place
        refine ⟨fun root below location isChanged => ?_, fun output _ => ?_⟩
        · obtain isMade | isLast := List.mem_append.mp isChanged
          · exact below.1.trans (made.below location isMade)
          · rw [List.mem_singleton.mp isLast]
            exact (below.1.trans under).trans (List.prefix_append _ _)
        · obtain ⟨first, isMade, free⟩ := made.first ok
          exact ⟨_, List.mem_append_left _ isMade, first, rfl, free⟩
  · simp only [not_exists] at missing
    obtain ⟨ok, still, -⟩ := FileSystem.createDirAll_still missing
    rw [still] at parents
    cases wrote with
    | failed fails =>
        rw [parents]
        exact ⟨nofun, nofun⟩
    | finished ok writes =>
        rw [parents] at writes ⊢
        refine ⟨fun root below location isChanged => ?_, fun output _ => ?_⟩
        · rw [List.mem_singleton.mp isChanged]
          exact FileSystem.write_below below writes
        · exact ⟨_, List.mem_singleton.mpr rfl, FileSystem.write_endsAt writes⟩

/-- **A write to a path that leads nowhere, with only names missing on its way**, keeps
below every location the path ends below; a finished one gets to where the path ends. -/
theorem writeFile_nowhere {path content : String}
    (nowhere : ∀ location, cwd.resolve (Path.ofText path) ≠ .found location)
    (names : FileSystem.OnlyNames (cwd.resolve (Path.ofText path).normal)) :
    (∀ root, FileSystem.EndsBelow root (cwd.resolve (Path.ofText path).normal) →
      ∀ location ∈ (writeFile cwd path content).changed, root <+: location) ∧
    ∀ output, (writeFile cwd path content).result = .ok output →
      ∃ place ∈ (writeFile cwd path content).changed,
        fs.EndsAt (cwd.resolve (Path.ofText path).normal) place := by
  have absolute := candidatePath_absolute cwd path
  rw [← resolve_candidatePath] at nowhere
  rw [← resolve_candidatePath_normal,
    cwd.resolve_absolute (candidatePath cwd path).normal absolute] at names ⊢
  have unresolved := canonicalize_none cwd nowhere
  have wrote := writeFile_wrote cwd path content
  cases named : (candidatePath cwd path).fileName with
  | none =>
      rw [normalizePathAllowMissing_unnamed cwd unresolved named] at wrote
      obtain ⟨nothing, fails⟩ := unnamed_still cwd absolute nowhere named names
      generalize writeFile cwd path content = call at wrote ⊢
      cases wrote with
      | failed _ =>
          rw [nothing]
          exact ⟨fun _ _ => nofun, nofun⟩
      | finished ok writes =>
          rw [fails ok] at writes
          cases writes
  | some name =>
      obtain ⟨above, ends⟩ := Path.fileName_some named
      obtain ⟨up, target, normal, same⟩ := normalizePathAllowMissing_named cwd unresolved ends
      have outcome : fs.resolve [] (candidatePath cwd path).normal.components =
          fs.resolve [] (up ++ [.name name]) := by
        show fs.resolve [] (dropCurrent (candidatePath cwd path).components) = _
        rw [ends, FileSystem.resolve_append, FileSystem.resolve_append, same]
      rw [target] at wrote
      rw [outcome] at names ⊢
      exact named_places cwd normal wrote names

end Paths

end Openyak.Runtime
