/-
# Tools.FileTools -- the tools that write files, and what the check keeps them from

`executeToolWithEnforcer` on `write_file`, `edit_file` and `NotebookEdit`: the first two
are checked before the input is decoded, under the path that `maybe_enforce_permission_check`
reads from it; `NotebookEdit` is not checked.  Inputs are decoded as `serde` derives it,
from an object or from an array of all fields.

A call is contained when everything it makes or writes is below the working directory.
`executeToolWithEnforcer_contained` says which calls are; `linked_escapes` is a write
through a link in the workspace.
-/
import Openyak.Tools.NotebookEdit

namespace Openyak.Tools

open Openyak.Theory
open Openyak.Theory.Posix
open Openyak.Runtime

set_option autoImplicit false

/-! ## Inputs -/

/-- A derived struct is read from an object, or from an array with every field in its place. -/
def isStruct (names : List String) : Json → Bool
  | .object _ => true
  | .array items => items.length = names.length
  | _ => false

def fieldOf (names : List String) (name : String) : Json → Option Json
  | .array items => items[names.idxOf name]?
  | value => value.get? name

/-- An `Option` field may be missing or `null`. -/
def optionalField {Value : Type} (read : Json → Option Value) : Option Json → Option (Option Value)
  | none | some .null => some none
  | some value => (read value).map some

def asBool? : Json → Option Bool
  | .bool value => some value
  | _ => none

/-- A unit variant is its name, or an object of its name and `null`. -/
def variantName? : Json → Option String
  | .string name => some name
  | .object [(name, .null)] => some name
  | _ => none

def NotebookCellType.ofName? : String → Option NotebookCellType
  | "code" => some .code
  | "markdown" => some .markdown
  | _ => none

def NotebookEditMode.ofName? : String → Option NotebookEditMode
  | "replace" => some .replace
  | "insert" => some .insert
  | "delete" => some .delete
  | _ => none

structure WriteFileInput where
  path : String
  content : String
  deriving DecidableEq, Repr

def WriteFileInput.fromValue (input : Json) : Option WriteFileInput :=
  let names := ["path", "content"]
  if isStruct names input then do
    let path ← (fieldOf names "path" input).bind Json.asStr?
    let content ← (fieldOf names "content" input).bind Json.asStr?
    pure { path, content }
  else none

structure EditFileInput where
  path : String
  oldString : String
  newString : String
  replaceAll : Option Bool
  deriving DecidableEq, Repr

def EditFileInput.fromValue (input : Json) : Option EditFileInput :=
  let names := ["path", "old_string", "new_string", "replace_all"]
  if isStruct names input then do
    let path ← (fieldOf names "path" input).bind Json.asStr?
    let oldString ← (fieldOf names "old_string" input).bind Json.asStr?
    let newString ← (fieldOf names "new_string" input).bind Json.asStr?
    let replaceAll ← optionalField asBool? (fieldOf names "replace_all" input)
    pure { path, oldString, newString, replaceAll }
  else none

def NotebookEditInput.fromValue (input : Json) : Option NotebookEditInput :=
  let names := ["notebook_path", "cell_id", "new_source", "cell_type", "edit_mode"]
  if isStruct names input then do
    let notebookPath ← (fieldOf names "notebook_path" input).bind Json.asStr?
    let cellId ← optionalField Json.asStr? (fieldOf names "cell_id" input)
    let newSource ← optionalField Json.asStr? (fieldOf names "new_source" input)
    let cellType ← optionalField (fun value => (variantName? value).bind NotebookCellType.ofName?)
      (fieldOf names "cell_type" input)
    let editMode ← optionalField (fun value => (variantName? value).bind NotebookEditMode.ofName?)
      (fieldOf names "edit_mode" input)
    pure { notebookPath, cellId, newSource, cellType, editMode }
  else none

/-! ## Execution -/

inductive FileTool where
  | writeFile
  | editFile
  | notebookEdit
  deriving DecidableEq, Repr

/-- What a tool returns, to be printed as JSON. -/
inductive FileToolOutput where
  | write (output : WriteFileOutput)
  | edit (output : EditFileOutput)
  | notebook (output : NotebookEditOutput)
  deriving DecidableEq, Repr

section Execute

variable (serde : NotebookSerde) {fs : FileSystem} (cwd : WorkingDirectory fs)

/-- A call that stops before it touches the tree. -/
def refused {Output : Type} (fs : FileSystem) (error : FileError) : FileCall Output :=
  ⟨fs, [], .error error⟩

/-- The path the check is about. -/
def checkedPath (input : Json) : String := ((input.get? "path").bind Json.asStr?).getD ""

/-- `maybe_enforce_permission_check` for `write_file` and `edit_file`. -/
def maybeEnforcePermissionCheck (enforcer : Option PermissionEnforcer) (input : Json) :
    Except FileError Unit :=
  match enforcer with
  | none => .ok ()
  | some enforcer =>
      match enforcer.checkFileWrite cwd (checkedPath input) cwd.text with
      | .allowed => .ok ()
      | .denied _ _ _ reason => .error (.message reason)

/-- `execute_tool_with_enforcer`, the three tools that write files. -/
def executeToolWithEnforcer (enforcer : Option PermissionEnforcer) (tool : FileTool)
    (input : Json) : FileCall FileToolOutput :=
  match tool with
  | .writeFile =>
      match maybeEnforcePermissionCheck cwd enforcer input with
      | .error error => refused fs error
      | .ok () =>
          match WriteFileInput.fromValue input with
          | none => refused fs .input
          | some input => FileCall.map .write (writeFile cwd input.path input.content)
  | .editFile =>
      match maybeEnforcePermissionCheck cwd enforcer input with
      | .error error => refused fs error
      | .ok () =>
          match EditFileInput.fromValue input with
          | none => refused fs .input
          | some input =>
              FileCall.map .edit
                (editFile cwd input.path input.oldString input.newString
                  (input.replaceAll.getD false))
  | .notebookEdit =>
      match NotebookEditInput.fromValue input with
      | none => refused fs .input
      | some input => FileCall.map .notebook (executeNotebookEdit serde cwd input)

/-! ## Containment -/

/-- Everything the call made or wrote, and everything that is not as it was, is below the
working directory. -/
def Contained {Output : Type} (call : FileCall Output) : Prop :=
  ∀ location, location ∈ call.changed ∨ call.fs.entry location ≠ fs.entry location →
    cwd.location <+: location

/-- The path in the decoded input. -/
def FileTool.usedPath : FileTool → Json → Option String
  | .writeFile, input => (WriteFileInput.fromValue input).map (·.path)
  | .editFile, input => (EditFileInput.fromValue input).map (·.path)
  | .notebookEdit, input => (NotebookEditInput.fromValue input).map (·.notebookPath)

/-- Where the path leads is below the working directory, if it leads anywhere. -/
def LeadsBelow (path : String) : Prop :=
  ∀ location, cwd.resolve (Path.ofText path) = .found location → cwd.location <+: location

/-- **The calls that are contained.**  An object is decoded with the path it was checked
under.  An edit follows that path as the check did; a write does where it leads somewhere,
and else its components must end below the working directory. -/
def StaysBelow (tool : FileTool) (input : Json) : Prop :=
  ∀ path, tool.usedPath input = some path →
    match tool with
    | .writeFile =>
        (input.isObject ∧ ∃ location, cwd.resolve (Path.ofText path) = .found location) ∨
          FileSystem.EndsBelow cwd.location (cwd.resolve (Path.ofText path).normal)
    | .editFile => input.isObject ∨ LeadsBelow cwd path
    | .notebookEdit => LeadsBelow cwd path

theorem writeFileInput_path {input : Json} {decoded : WriteFileInput}
    (decodes : WriteFileInput.fromValue input = some decoded) :
    ∃ names, (fieldOf names "path" input).bind Json.asStr? = some decoded.path := by
  unfold WriteFileInput.fromValue at decodes
  dsimp only at decodes
  split at decodes
  · simp only [Option.bind_eq_bind, Option.bind_eq_some_iff] at decodes
    obtain ⟨path, isPath, content, -, same⟩ := decodes
    cases same
    exact ⟨_, Option.bind_eq_some_iff.mpr isPath⟩
  · cases decodes

theorem editFileInput_path {input : Json} {decoded : EditFileInput}
    (decodes : EditFileInput.fromValue input = some decoded) :
    ∃ names, (fieldOf names "path" input).bind Json.asStr? = some decoded.path := by
  unfold EditFileInput.fromValue at decodes
  dsimp only at decodes
  split at decodes
  · simp only [Option.bind_eq_bind, Option.bind_eq_some_iff] at decodes
    obtain ⟨path, isPath, oldString, -, newString, -, replaceAll, -, same⟩ := decodes
    cases same
    exact ⟨_, Option.bind_eq_some_iff.mpr isPath⟩
  · cases decodes

/-- An object is checked under the path it is decoded with. -/
theorem checkedPath_eq {names : List String} {input : Json} {path : String}
    (isPath : (fieldOf names "path" input).bind Json.asStr? = some path)
    (isObject : input.isObject) : checkedPath input = path := by
  have field : fieldOf names "path" input = input.get? "path" := by
    cases input with
    | object fields => rfl
    | _ => cases isObject
  unfold checkedPath
  rw [← field, isPath]
  rfl

/-- In workspace-write mode a call goes on when its path was found within the root. -/
theorem maybeEnforce_workspaceWrite {input : Json}
    (passes : maybeEnforcePermissionCheck cwd (some ⟨⟨.workspaceWrite⟩⟩) input = .ok ()) :
    isWithinWorkspace cwd (checkedPath input) cwd.text := by
  unfold maybeEnforcePermissionCheck PermissionEnforcer.checkFileWrite at passes
  by_contra outside
  simp [outside] at passes

theorem contained_refused {Output : Type} (error : FileError) :
    Contained cwd (refused fs error : FileCall Output) := by
  rintro location (never | differs)
  · cases never
  · exact absurd rfl differs

/-- A call that lists what it changes, all of it below the working directory. -/
theorem contained_of_changed {Output : Type} {call : FileCall Output}
    (frame : ∀ location ∉ call.changed, call.fs.entry location = fs.entry location)
    (below : ∀ location ∈ call.changed, cwd.location <+: location) : Contained cwd call := by
  rintro location (changed | differs)
  · exact below location changed
  · by_cases changed : location ∈ call.changed
    · exact below location changed
    · exact absurd (frame location changed) differs

/-- On the way of a write's path only names are missing, and no `..` behind them. -/
def OnlyNamesMissing (tool : FileTool) (input : Json) : Prop :=
  ∀ path, tool.usedPath input = some path → tool = .writeFile →
    FileSystem.OnlyNames (cwd.resolve (Path.ofText path).normal)

theorem writeFile_contained {path content : String}
    (stays : (∃ location, cwd.resolve (Path.ofText path) = .found location ∧
        cwd.location <+: location) ∨
      FileSystem.EndsBelow cwd.location (cwd.resolve (Path.ofText path).normal)) :
    Contained cwd (writeFile cwd path content) := by
  refine contained_of_changed cwd (fun _ => writeFile_frame cwd) ?_
  by_cases leads : ∃ found, cwd.resolve (Path.ofText path) = .found found
  · obtain ⟨found, leads⟩ := leads
    have below : cwd.location <+: found := by
      obtain ⟨location, same, below⟩ | below := stays
      · rw [leads] at same
        cases same
        exact below
      · rw [(cwd.resolve_normal _).1 found leads] at below
        exact below
    intro location changed
    rw [(writeFile_found cwd leads).1 location changed]
    exact below
  · simp only [not_exists] at leads
    obtain ⟨location, same, -⟩ | below := stays
    · exact absurd same (leads location)
    · exact (writeFile_nowhere cwd leads below.onlyNames).1 _ below

/-- A finished write that is contained ends below the working directory. -/
theorem endsBelow_of_contained {path content : String} {output : WriteFileOutput}
    (names : FileSystem.OnlyNames (cwd.resolve (Path.ofText path).normal))
    (finished : (writeFile cwd path content).result = .ok output)
    (contained : Contained cwd (writeFile cwd path content)) :
    FileSystem.EndsBelow cwd.location (cwd.resolve (Path.ofText path).normal) := by
  by_cases leads : ∃ found, cwd.resolve (Path.ofText path) = .found found
  · obtain ⟨found, leads⟩ := leads
    rw [(cwd.resolve_normal _).1 found leads]
    exact contained found (Or.inl ((writeFile_found cwd leads).2 output finished))
  · simp only [not_exists] at leads
    obtain ⟨place, changed, ends⟩ := (writeFile_nowhere cwd leads names).2 output finished
    exact FileSystem.endsBelow_of_endsAt cwd.isDirectory names ends
      (contained place (Or.inl changed))

/-- A call that changed something where its path leads, and is contained. -/
theorem leadsBelow_of_contained {Output : Type} {call : FileCall Output} {path : String}
    (changes : ∀ location ∈ call.changed, cwd.resolve (Path.ofText path) = .found location)
    (something : ∃ location, location ∈ call.changed) (contained : Contained cwd call) :
    LeadsBelow cwd path := by
  intro location leads
  obtain ⟨changed, isChanged⟩ := something
  have same := changes changed isChanged
  rw [leads] at same
  cases same
  exact contained _ (Or.inl isChanged)

/-- **In workspace-write mode a call whose path stays below is contained, and a finished
call is contained only if its path does**, whatever the tree, the working directory and
the input, but for paths with `..` behind a missing name. -/
theorem executeToolWithEnforcer_contained (tool : FileTool) (input : Json) :
    let call := executeToolWithEnforcer serde cwd (some ⟨⟨.workspaceWrite⟩⟩) tool input
    (StaysBelow cwd tool input → Contained cwd call) ∧
      ∀ output, call.result = .ok output → OnlyNamesMissing cwd tool input →
        Contained cwd call → StaysBelow cwd tool input := by
  unfold executeToolWithEnforcer
  cases tool with
  | writeFile =>
      dsimp only
      split
      · exact ⟨fun _ => contained_refused cwd _, fun _ finished => (by cases finished)⟩
      · rename_i passes
        have within := maybeEnforce_workspaceWrite cwd passes
        split
        · exact ⟨fun _ => contained_refused cwd _, fun _ finished => (by cases finished)⟩
        · rename_i decoded decodes
          obtain ⟨names, isPath⟩ := writeFileInput_path decodes
          have used : FileTool.writeFile.usedPath input = some decoded.path := by
            show (WriteFileInput.fromValue input).map _ = _
            rw [decodes]
            rfl
          constructor
          · intro stays
            refine writeFile_contained cwd ((stays _ used).imp_left ?_)
            rintro ⟨isObject, location, leads⟩
            rw [checkedPath_eq isPath isObject] at within
            exact ⟨location, leads, (isWithinWorkspace_found cwd leads).mp within⟩
          · intro output finished onlyNames contained path isUsed
            rw [used] at isUsed
            cases isUsed
            obtain ⟨before, finished⟩ := FileCall.map_ok finished
            exact Or.inr (endsBelow_of_contained cwd (onlyNames _ used rfl) finished contained)
  | editFile =>
      dsimp only
      split
      · exact ⟨fun _ => contained_refused cwd _, fun _ finished => (by cases finished)⟩
      · rename_i passes
        have within := maybeEnforce_workspaceWrite cwd passes
        split
        · exact ⟨fun _ => contained_refused cwd _, fun _ finished => (by cases finished)⟩
        · rename_i decoded decodes
          obtain ⟨names, isPath⟩ := editFileInput_path decodes
          have used : FileTool.editFile.usedPath input = some decoded.path := by
            show (EditFileInput.fromValue input).map _ = _
            rw [decodes]
            rfl
          constructor
          · intro stays
            refine contained_of_changed cwd (fun _ => editFile_frame cwd) ?_
            intro location changed
            have leads := editFile_changed cwd changed
            obtain isObject | below := stays _ used
            · rw [checkedPath_eq isPath isObject] at within
              exact (isWithinWorkspace_found cwd leads).mp within
            · exact below location leads
          · intro output finished _ contained path isUsed
            rw [used] at isUsed
            cases isUsed
            obtain ⟨before, finished⟩ := FileCall.map_ok finished
            have something := editFile_finished cwd finished
            exact Or.inr (leadsBelow_of_contained cwd (fun _ => editFile_changed cwd) something
              contained)
  | notebookEdit =>
      dsimp only
      split
      · exact ⟨fun _ => contained_refused cwd _, fun _ finished => (by cases finished)⟩
      · rename_i decoded decodes
        have used : FileTool.notebookEdit.usedPath input = some decoded.notebookPath := by
          show (NotebookEditInput.fromValue input).map _ = _
          rw [decodes]
          rfl
        constructor
        · intro stays
          refine contained_of_changed cwd (fun _ => notebookEdit_frame serde cwd) ?_
          intro location changed
          exact stays _ used location (notebookEdit_changed serde cwd changed)
        · intro output finished _ contained path isUsed
          rw [used] at isUsed
          cases isUsed
          obtain ⟨before, finished⟩ := FileCall.map_ok finished
          have something := notebookEdit_finished serde cwd finished
          exact leadsBelow_of_contained cwd (fun _ => notebookEdit_changed serde cwd) something
            contained

end Execute

/-! ## A write through a link -/

theorem bare_root : (FileSystem.bare 40).entry [] = some .directory := rfl

/-- `/w` with a link in it to `/out`. -/
def linkedTree : FileSystem :=
  let workspace := (FileSystem.bare 40).create [] "w" .directory bare_root (by decide)
  let outside := workspace.create [] "out" .directory (by decide) (by decide)
  outside.create ["w"] "link" (.symlink (Path.ofText "/out")) (by decide) (by decide)

def linkedWorkspace : WorkingDirectory linkedTree where
  text := "/w"
  location := ["w"]
  absolute := by decide
  leads := by decide
  isDirectory := by decide

def noSerde : NotebookSerde where
  fromStr _ := .error "EOF while parsing a value"
  toText _ := ""
  toStringPretty _ := .ok ""

def writeInWorkspace (path : String) : FileCall FileToolOutput :=
  executeToolWithEnforcer noSerde linkedWorkspace (some ⟨⟨.workspaceWrite⟩⟩) .writeFile
    (Json.ofFields [("path", .string path), ("content", .string "x")])

example : (writeInWorkspace "a/b.txt").changed = [["w", "a"], ["w", "a", "b.txt"]] := by decide

/-- **A new file named through the link is written outside**: the check takes the path at
its word, the write resolves its parent. -/
theorem linked_escapes :
    (writeInWorkspace "link/new.txt").changed = [["out", "new.txt"]] ∧
      ¬Contained linkedWorkspace (writeInWorkspace "link/new.txt") := by
  have changed : (writeInWorkspace "link/new.txt").changed = [["out", "new.txt"]] := by decide
  refine ⟨changed, fun contained => ?_⟩
  have below : ["w"] <+: ["out", "new.txt"] := by
    refine contained ["out", "new.txt"] (Or.inl ?_)
    rw [changed]
    exact List.mem_singleton.mpr rfl
  exact absurd below (by decide)

end Openyak.Tools
