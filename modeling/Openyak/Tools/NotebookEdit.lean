/-
# Tools.NotebookEdit -- one cell of a notebook replaced, inserted or deleted

`executeNotebookEdit` reads a notebook, edits its cells (`editCells`) and writes it back
to the path it was given.  `serde_json` is a parameter.
-/
import Openyak.Runtime.FileOps
import Openyak.Theory.Json

namespace Openyak.Tools

open Openyak.Theory
open Openyak.Theory.Posix
open Openyak.Runtime

set_option autoImplicit false

inductive NotebookCellType where
  | code
  | markdown
  deriving DecidableEq, Repr

def NotebookCellType.asStr : NotebookCellType → String
  | .code => "code"
  | .markdown => "markdown"

inductive NotebookEditMode where
  | replace
  | insert
  | delete
  deriving DecidableEq, Repr

def formatNotebookEditMode : NotebookEditMode → String
  | .replace => "replace"
  | .insert => "insert"
  | .delete => "delete"

structure NotebookEditInput where
  notebookPath : String
  cellId : Option String
  newSource : Option String
  cellType : Option NotebookCellType
  editMode : Option NotebookEditMode
  deriving DecidableEq, Repr

/-- The field `error` is always `None`. -/
structure NotebookEditOutput where
  newSource : String
  cellId : Option String
  cellType : Option NotebookCellType
  language : String
  editMode : String
  notebookPath : String
  originalFile : List Char
  updatedFile : String
  deriving DecidableEq, Repr

/-- What notebooks use of `serde_json`. -/
structure NotebookSerde extends SerdeJson where
  toStringPretty : Json → Except String String

/-! ## Cells -/

def cellIdOf (cell : Json) : Option String := (cell.get? "id").bind Json.asStr?

def resolveCellIndex (cells : List Json) (cellId : Option String) (editMode : NotebookEditMode) :
    Except FileError Nat :=
  if cells.isEmpty && (editMode = .replace || editMode = .delete) then
    .error (.message "Notebook has no cells to edit")
  else
    match cellId with
    | some cellId =>
        match cells.findIdx? fun cell => cellIdOf cell = some cellId with
        | some index => .ok index
        | none => .error (.message ("Cell id not found: " ++ cellId))
    | none => .ok (cells.length - 1)

def cellKind (cell : Json) : Option NotebookCellType :=
  ((cell.get? "cell_type").bind Json.asStr?).map fun kind =>
    if kind = "markdown" then .markdown else .code

def requireNotebookSource (source : Option String) : NotebookEditMode → Except FileError String
  | .delete => .ok (source.getD "")
  | .insert | .replace =>
      match source with
      | some source => .ok source
      | none => .error (.message "new_source is required for insert and replace edits")

def sourceLines (source : String) : List Json :=
  if source = "" then [.string ""]
  else (Text.splitInclusive '\n' source.toList).map fun line => .string (String.ofList line)

def makeCellId (index : Nat) : String := "cell-" ++ toString (index + 1)

def buildNotebookCell (cellId : String) (cellType : NotebookCellType) (source : String) : Json :=
  let fields :=
    [("cell_type", Json.string cellType.asStr), ("id", .string cellId), ("metadata", .object []),
      ("source", .array (sourceLines source))]
  match cellType with
  | .code => Json.ofFields (fields ++ [("outputs", .array []), ("execution_count", .null)])
  | .markdown => Json.ofFields fields

/-- `cell[key] = value`: a `null` becomes an object, and anything else but an object
panics. -/
def setKey (key : String) (value : Json) : Json → Except FileError Json
  | .null => .ok (.object [(key, value)])
  | .object fields => .ok (.object (Json.insertField key value fields))
  | .bool _ | .number _ | .string _ | .array _ => .error .panicked

/-- `Map::remove`, where the value is an object. -/
def removeKey (key : String) : Json → Json
  | .object fields => .object (fields.filter fun field => field.1 ≠ key)
  | value => value

def isArray : Json → Bool
  | .array _ => true
  | _ => false

def replaceCell (cellType : NotebookCellType) (source : String) (cell : Json) :
    Except FileError Json := do
  let cell ← setKey "source" (.array (sourceLines source)) cell
  let cell ← setKey "cell_type" (.string cellType.asStr) cell
  match cellType with
  | .code =>
      let cell ← if ((cell.get? "outputs").map isArray).getD false then pure cell
        else setKey "outputs" (.array []) cell
      if (cell.get? "execution_count").isNone then setKey "execution_count" .null cell
      else pure cell
  | .markdown => pure (removeKey "execution_count" (removeKey "outputs" cell))

structure CellEdit where
  cells : List Json
  newSource : String
  cellId : Option String
  cellType : Option NotebookCellType

def editCells (input : NotebookEditInput) (cells : List Json) : Except FileError CellEdit := do
  let editMode := input.editMode.getD .replace
  let targetIndex ←
    match input.cellId with
    | some cellId => some <$> resolveCellIndex cells (some cellId) editMode
    | none =>
        match editMode with
        | .replace | .delete => some <$> resolveCellIndex cells none editMode
        | .insert => pure none
  match editMode with
  | .insert =>
      let cellType := input.cellType.getD .code
      let newSource ← requireNotebookSource input.newSource editMode
      let newCell := buildNotebookCell (makeCellId cells.length) cellType newSource
      let insertAt := (targetIndex.map (· + 1)).getD cells.length
      pure ⟨cells.insertIdx insertAt newCell, newSource, cellIdOf newCell, some cellType⟩
  | .delete =>
      let newSource ← requireNotebookSource input.newSource editMode
      match targetIndex.bind fun index => (cells[index]?).map fun cell => (index, cell) with
      | some (index, removed) => pure ⟨cells.eraseIdx index, newSource, cellIdOf removed, none⟩
      | none => throw .panicked
  | .replace =>
      let cell := targetIndex.bind fun index => cells[index]?
      let cellType := input.cellType.getD ((cell.bind cellKind).getD .code)
      let newSource ← requireNotebookSource input.newSource editMode
      match targetIndex, cell with
      | some index, some cell =>
          let replaced ← replaceCell cellType newSource cell
          pure ⟨cells.set index replaced, newSource, cellIdOf replaced, some cellType⟩
      | some _, none => throw (.message "Cell index out of range")
      | none, _ => throw .panicked

/-! ## The notebook -/

def notebookLanguage (notebook : Json) : String :=
  let language := ((notebook.get? "metadata").bind (Json.get? "kernelspec")).bind
    (Json.get? "language")
  (language.bind Json.asStr?).getD "python"

/-- The notebook with its cells edited. -/
def editNotebook (input : NotebookEditInput) : Json → Except FileError (Json × CellEdit)
  | .object fields =>
      match (Json.object fields).get? "cells" with
      | some (.array cells) => do
          let edit ← editCells input cells
          pure (.object (Json.insertField "cells" (.array edit.cells) fields), edit)
      | _ => .error (.message "Notebook cells array not found")
  | _ => .error (.message "Notebook cells array not found")

section Execute

variable (serde : NotebookSerde) {fs : FileSystem} (cwd : WorkingDirectory fs)

/-- The notebook's new text, and what was edited. -/
def updateNotebook (input : NotebookEditInput) (originalFile : List Char) :
    Except FileError (Json × CellEdit × String) := do
  let notebook ← (serde.fromStr (String.ofList originalFile)).mapError .message
  let (updated, edit) ← editNotebook input notebook
  let updatedFile ← (serde.toStringPretty updated).mapError .message
  pure (notebook, edit, updatedFile)

def executeNotebookEdit (input : NotebookEditInput) : FileCall NotebookEditOutput :=
  let path := Path.ofText input.notebookPath
  if path.extension ≠ some "ipynb".toList then
    ⟨fs, [], .error (.message "File must be a Jupyter notebook (.ipynb file).")⟩
  else
    match readToString cwd path with
    | none => ⟨fs, [], .error .os⟩
    | some originalFile =>
        match updateNotebook serde input originalFile with
        | .error error => ⟨fs, [], .error error⟩
        | .ok (notebook, edit, updatedFile) =>
            match fs.write (path.start cwd.location) path.components updatedFile.toList with
            | none => ⟨fs, [], .error .os⟩
            | some (after, location) =>
                { fs := after
                  changed := [location]
                  result := .ok
                    { newSource := edit.newSource
                      cellId := edit.cellId
                      cellType := edit.cellType
                      language := notebookLanguage notebook
                      editMode := formatNotebookEditMode (input.editMode.getD .replace)
                      notebookPath := input.notebookPath
                      originalFile := originalFile
                      updatedFile := updatedFile } }

/-- What could be read leads somewhere. -/
theorem read_found {path : Path} {text : List Char} (reads : readToString cwd path = some text) :
    ∃ location, cwd.resolve path = .found location := by
  unfold readToString FileSystem.readToString at reads
  cases leads : fs.canonicalize (path.start cwd.location) path.components with
  | none => rw [leads] at reads; cases reads
  | some location => exact ⟨location, FileSystem.canonicalize_eq_some.mp leads⟩

/-- A notebook edit writes the file it read, or stops before it touches the tree. -/
theorem executeNotebookEdit_cases (input : NotebookEditInput) :
    (∃ error, executeNotebookEdit serde cwd input = ⟨fs, [], .error error⟩) ∨
      ∃ location updated after output,
        cwd.resolve (Path.ofText input.notebookPath) = .found location ∧
        fs.write ((Path.ofText input.notebookPath).start cwd.location)
          (Path.ofText input.notebookPath).components updated = some (after, location) ∧
        executeNotebookEdit serde cwd input = ⟨after, [location], .ok output⟩ := by
  unfold executeNotebookEdit
  dsimp only
  split
  · exact Or.inl ⟨_, rfl⟩
  · cases reads : readToString cwd (Path.ofText input.notebookPath) with
    | none => exact Or.inl ⟨_, rfl⟩
    | some originalFile =>
        dsimp only
        obtain ⟨found, leads⟩ := read_found cwd reads
        cases updateNotebook serde input originalFile with
        | error error => exact Or.inl ⟨_, rfl⟩
        | ok update =>
            dsimp only
            split
            · exact Or.inl ⟨_, rfl⟩
            · rename_i after location writes
              refine Or.inr ⟨location, _, after, _, ?_, writes, rfl⟩
              obtain resolved | ⟨directory, name, absent, -⟩ := FileSystem.write_location writes
              · exact resolved
              · have never : cwd.resolve (Path.ofText input.notebookPath) = _ := absent
                rw [leads] at never
                cases never

/-- **A notebook edit changes the file its path leads to.** -/
theorem notebookEdit_changed {input : NotebookEditInput} {location : Location}
    (changed : location ∈ (executeNotebookEdit serde cwd input).changed) :
    cwd.resolve (Path.ofText input.notebookPath) = .found location := by
  obtain ⟨error, call⟩ | ⟨written, updated, after, output, leads, writes, call⟩ :=
    executeNotebookEdit_cases serde cwd input
  · rw [call] at changed
    cases changed
  · rw [call] at changed
    rw [List.mem_singleton.mp changed]
    exact leads

/-- **What a notebook edit did not list is as it was.** -/
theorem notebookEdit_frame {input : NotebookEditInput} {location : Location}
    (other : location ∉ (executeNotebookEdit serde cwd input).changed) :
    (executeNotebookEdit serde cwd input).fs.entry location = fs.entry location := by
  obtain ⟨error, call⟩ | ⟨written, updated, after, output, leads, writes, call⟩ :=
    executeNotebookEdit_cases serde cwd input
  · rw [call]
  · rw [call] at other ⊢
    exact FileSystem.write_frame writes fun same => other (List.mem_singleton.mpr same)

/-- A finished notebook edit changed something. -/
theorem notebookEdit_finished {input : NotebookEditInput} {output : NotebookEditOutput}
    (finished : (executeNotebookEdit serde cwd input).result = .ok output) :
    ∃ location, location ∈ (executeNotebookEdit serde cwd input).changed := by
  obtain ⟨error, call⟩ | ⟨written, updated, after, output, leads, writes, call⟩ :=
    executeNotebookEdit_cases serde cwd input
  · rw [call] at finished
    cases finished
  · rw [call]
    exact ⟨written, List.mem_singleton.mpr rfl⟩

end Execute

end Openyak.Tools
