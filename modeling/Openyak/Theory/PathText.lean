/-
# Theory.PathText -- path texts, and `std::path` on what they are made of

A text is cut at its slashes.  `std::path` looks at the components that remain when
`current` is left out: `parent`, `file_name`, `strip_prefix`, `starts_with` and
`extension` do; a call on the file system gets the whole path.

These are the functions of an absolute path.  (A relative text keeps a leading `.`
as a component of its own, which matters to `parent` only.)
-/
import Openyak.Theory.Files

namespace Openyak.Theory.Posix

set_option autoImplicit false

def Component.ofText : List Char → Component
  | [] | ['.'] => .current
  | ['.', '.'] => .parent
  | text => .name (String.ofList text)

def Component.fileName : Component → Option Name
  | .name text => some text
  | .current | .parent => none

namespace Path

def ofText (text : String) : Path where
  absolute := text.toList.head? = some '/'
  components := (text.toList.splitOn '/').map Component.ofText

/-- The path of a location, as `canonicalize` returns it. -/
def ofLocation (location : Location) : Path := ⟨true, Posix.ofLocation location⟩

/-- Where the walk of a path starts. -/
def start (path : Path) (here : Location) : Location := if path.absolute then [] else here

/-- The path of its components. -/
def normal (path : Path) : Path := ⟨path.absolute, dropCurrent path.components⟩

/-- `Path::join`. -/
def join (base path : Path) : Path :=
  if path.absolute then path else ⟨base.absolute, base.components ++ path.components⟩

/-- `Path::parent`. -/
def parent (path : Path) : Option Path :=
  match (dropCurrent path.components).reverse with
  | [] => none
  | _ :: above => some ⟨path.absolute, above.reverse⟩

/-- `Path::file_name`. -/
def fileName (path : Path) : Option Name :=
  match (dropCurrent path.components).reverse with
  | [] => none
  | last :: _ => last.fileName

/-- `Path::strip_prefix`. -/
def stripPrefix (path root : Path) : Option Path :=
  if path.absolute = root.absolute ∧
      (dropCurrent root.components).isPrefixOf (dropCurrent path.components) then
    some ⟨false, (dropCurrent path.components).drop (dropCurrent root.components).length⟩
  else none

/-- `Path::starts_with`. -/
def startsWith (path root : Path) : Bool :=
  path.absolute = root.absolute &&
    (dropCurrent root.components).isPrefixOf (dropCurrent path.components)

/-- `Path::extension`: after the last dot of the file name, unless that dot is its first
character. -/
def extension (path : Path) : Option (List Char) :=
  match path.fileName with
  | none => none
  | some name =>
      let reversed := name.toList.reverse
      match reversed.dropWhile (· ≠ '.') with
      | [] | [_] => none
      | _ :: _ => some (reversed.takeWhile (· ≠ '.')).reverse

example : (ofText "/a//b/../c.txt/").components =
    [.current, .name "a", .current, .name "b", .parent, .name "c.txt", .current] := by decide

end Path

/-! ## Components without `current` -/

theorem dropCurrent_append (before after : List Component) :
    dropCurrent (before ++ after) = dropCurrent before ++ dropCurrent after :=
  List.filter_append ..

@[simp] theorem dropCurrent_ofLocation (location : Location) :
    dropCurrent (ofLocation location) = ofLocation location := by
  unfold dropCurrent ofLocation
  rw [List.filter_eq_self]
  intro component isName
  obtain ⟨name, -, rfl⟩ := List.mem_map.mp isName
  rfl

theorem dropCurrent_idem (components : List Component) :
    dropCurrent (dropCurrent components) = dropCurrent components := by
  unfold dropCurrent
  rw [List.filter_filter]
  simp

theorem ofLocation_append (above below : Location) :
    ofLocation (above ++ below) = ofLocation above ++ ofLocation below :=
  List.map_append

theorem below_ofLocation {root location : Location} :
    ofLocation root <+: ofLocation location ↔ root <+: location := by
  unfold ofLocation
  exact List.prefix_map_iff_of_injective fun _ _ same => Component.name.inj same

namespace Path

theorem startsWith_ofLocation {root location : Location} :
    (ofLocation location).startsWith (ofLocation root) ↔ root <+: location := by
  unfold startsWith ofLocation
  simp [below_ofLocation]

/-- The last component of a path and the path above it. -/
theorem parent_append {path : Path} {above : List Component} {last : Component}
    (ends : dropCurrent path.components = above ++ [last]) :
    path.parent = some ⟨path.absolute, above⟩ ∧
      path.fileName = last.fileName := by
  unfold parent fileName
  rw [ends, List.reverse_append, List.reverse_singleton]
  constructor
  · show some (Path.mk path.absolute above.reverse.reverse) = some ⟨path.absolute, above⟩
    rw [List.reverse_reverse]
  · rfl

theorem fileName_some {path : Path} {name : Name} (named : path.fileName = some name) :
    ∃ above, dropCurrent path.components = above ++ [.name name] := by
  obtain empty | ⟨above, last, ends⟩ := List.eq_nil_or_concat (dropCurrent path.components)
  · unfold fileName at named
    rw [empty] at named
    cases named
  · rw [List.concat_eq_append] at ends
    rw [(parent_append ends).2] at named
    cases last with
    | name text =>
        cases named
        exact ⟨above, ends⟩
    | current => cases named
    | parent => cases named

end Path

/-! ## The working directory -/

/-- A working directory: an absolute path, perhaps through links, that leads to a
directory. -/
structure WorkingDirectory (fs : FileSystem) where
  text : String
  location : Location
  absolute : (Path.ofText text).absolute
  leads : fs.resolve [] (Path.ofText text).components = .found location
  isDirectory : fs.entry location = some .directory

namespace WorkingDirectory

variable {fs : FileSystem} (cwd : WorkingDirectory fs)

def path : Path := Path.ofText cwd.text

/-- Where a path leads from here. -/
def resolve (path : Path) : FileSystem.Outcome :=
  fs.resolve (path.start cwd.location) path.components

theorem settled : fs.Settled cwd.location := FileSystem.settled_of_directory cwd.isDirectory

/-- An absolute path leads where it does from anywhere. -/
theorem resolve_absolute (path : Path) (absolute : path.absolute) :
    cwd.resolve path = fs.resolve [] path.components := by
  unfold resolve Path.start
  rw [if_pos absolute]

theorem resolve_path : cwd.resolve cwd.path = .found cwd.location :=
  (cwd.resolve_absolute _ cwd.absolute).trans cwd.leads

theorem resolve_ofLocation {location : Location} (settled : fs.Settled location) :
    cwd.resolve (Path.ofLocation location) = .found location := by
  rw [cwd.resolve_absolute _ rfl]
  exact FileSystem.walk_ofLocation _ [] location settled

/-- **Joined to a path that leads to the working directory, a path leads where it does
from there.** -/
theorem resolve_join {base : Path} (absolute : base.absolute)
    (leads : cwd.resolve base = .found cwd.location) (path : Path) :
    cwd.resolve (base.join path) = cwd.resolve path := by
  unfold Path.join
  by_cases isAbsolute : path.absolute
  · rw [if_pos isAbsolute]
  · rw [if_neg isAbsolute]
    have joined : cwd.resolve ⟨base.absolute, base.components ++ path.components⟩ =
        fs.resolve [] (base.components ++ path.components) := cwd.resolve_absolute _ absolute
    rw [cwd.resolve_absolute _ absolute] at leads
    rw [joined, FileSystem.resolve_append, leads]
    unfold resolve Path.start
    rw [if_neg isAbsolute]
    rfl

/-- The components of a path lead where the path does, or are absent where it is. -/
theorem resolve_normal (path : Path) :
    (∀ location, cwd.resolve path = .found location →
      cwd.resolve path.normal = .found location) ∧
    (∀ directory rest, cwd.resolve path = .absent directory rest →
      ∃ rest', cwd.resolve path.normal = .absent directory rest') :=
  fs.walk_normalize fs.linkDepth (path.start cwd.location) path.components

end WorkingDirectory

end Openyak.Theory.Posix
