/-
# Theory.Files -- the calls that read, create and write

`canonicalize`, `mkdir`, `create_dir_all`, `read_to_string` and `write` on paths
walked from a directory.  The calls that change a tree return the locations they
made or wrote.

`createDirAll` on a path that ends at an absent name makes directories below the
directory where the name is absent, and nowhere else (`createDirAll_absent`); on
any other path it makes nothing (`createDirAll_present`).
-/
import Openyak.Theory.Posix

namespace Openyak.Theory.Posix

set_option autoImplicit false

namespace FileSystem

/-! ## Reading -/

/-- `std::fs::canonicalize`. -/
def canonicalize (fs : FileSystem) (here : Location) (path : List Component) : Option Location :=
  match fs.resolve here path with
  | .found location => some location
  | .absent .. | .blocked => none

/-- `Path::is_dir`. -/
def isDirectory (fs : FileSystem) (here : Location) (path : List Component) : Bool :=
  match fs.canonicalize here path with
  | some location => fs.entry location = some .directory
  | none => false

/-- `std::fs::read_to_string`. -/
def readToString (fs : FileSystem) (here : Location) (path : List Component) :
    Option (List Char) :=
  match fs.canonicalize here path with
  | some location =>
      match fs.entry location with
      | some (.file text) => text
      | some .directory | some (.symlink _) | none => none
  | none => none

/-! ## Directories -/

inductive MkdirError where
  | alreadyExists
  | notFound
  | other
  deriving DecidableEq, Repr

/-- `mkdir` of the path `above` followed by `last`. -/
def mkdir (fs : FileSystem) (here : Location) (above : List Component) (last : Component) :
    Except MkdirError (FileSystem × Location) :=
  match fs.resolve here above with
  | .absent .. => .error .notFound
  | .blocked => .error .other
  | .found directory =>
      if inDirectory : fs.entry directory = some .directory then
        match last with
        | .name name =>
            if free : fs.entry (directory ++ [name]) = none then
              .ok (fs.create directory name .directory inDirectory free, directory ++ [name])
            else .error .alreadyExists
        | .current | .parent => .error .alreadyExists
      else .error .other

/-- A tree after a call, the locations it made, and whether it succeeded. -/
structure Made where
  fs : FileSystem
  made : List Location
  ok : Bool

/-- `std::fs::create_dir_all`, on the components from the last to the first. -/
def createDirAllFrom (here : Location) : List Component → FileSystem → Made
  | [], fs => ⟨fs, [], true⟩
  | last :: above, fs =>
      match fs.mkdir here above.reverse last with
      | .ok (made, location) => ⟨made, [location], true⟩
      | .error .notFound =>
          let parent := createDirAllFrom here above fs
          if parent.ok then
            match parent.fs.mkdir here above.reverse last with
            | .ok (made, location) => ⟨made, parent.made ++ [location], true⟩
            | .error _ =>
                ⟨parent.fs, parent.made, parent.fs.isDirectory here (above.reverse ++ [last])⟩
          else parent
      | .error _ => ⟨fs, [], fs.isDirectory here (above.reverse ++ [last])⟩

def createDirAll (fs : FileSystem) (here : Location) (path : List Component) : Made :=
  createDirAllFrom here path.reverse fs

/-! ## Writing -/

/-- `std::fs::write`: the last name may be a link, also to a file that is not there yet. -/
def write (fs : FileSystem) (here : Location) (path : List Component) (text : List Char) :
    Option (FileSystem × Location) :=
  match fs.resolve here path with
  | .found location =>
      match stands : fs.entry location with
      | some (.file before) => some (fs.overwrite location text ⟨before, stands⟩, location)
      | some .directory | some (.symlink _) | none => none
  | .absent directory [.name name] =>
      if inDirectory : fs.entry directory = some .directory then
        if free : fs.entry (directory ++ [name]) = none then
          some (fs.create directory name (.file (some text)) inDirectory free, directory ++ [name])
        else none
      else none
  | .absent _ _ | .blocked => none

section Calls

variable {fs : FileSystem} {here : Location}

theorem canonicalize_eq_some {path : List Component} {location : Location} :
    fs.canonicalize here path = some location ↔ fs.resolve here path = .found location := by
  unfold canonicalize
  cases fs.resolve here path <;> simp

/-- A write goes to what the path resolves to, or to the last name where it is absent. -/
theorem write_location {path : List Component} {text : List Char} {after : FileSystem}
    {location : Location} (writes : fs.write here path text = some (after, location)) :
    fs.resolve here path = .found location ∨
      ∃ directory name, fs.resolve here path = .absent directory [.name name] ∧
        location = directory ++ [name] ∧ fs.entry (directory ++ [name]) = none := by
  unfold write at writes
  split at writes
  · rename_i found resolved
    split at writes
    · cases writes
      exact Or.inl resolved
    all_goals cases writes
  · rename_i directory name resolved
    split at writes
    · split at writes
      · rename_i free
        cases writes
        exact Or.inr ⟨directory, name, resolved, rfl, free⟩
      · cases writes
    · cases writes
  all_goals cases writes

/-! ## What is made -/

theorem resolve_append (path rest : List Component) :
    fs.resolve here (path ++ rest) =
      (fs.resolve here path).andThen rest fun next => fs.resolve next rest :=
  fs.walk_append fs.linkDepth here path rest

/-- A name in a directory. -/
theorem resolve_name {directory : Location} (inDirectory : fs.entry directory = some .directory)
    (name : Name) :
    (fs.entry (directory ++ [name]) = none →
        fs.resolve directory [.name name] = .absent directory [.name name]) ∧
      (fs.entry (directory ++ [name]) = some .directory →
        fs.resolve directory [.name name] = .found (directory ++ [name])) := by
  obtain ⟨follow, same⟩ := fs.walk_eq fs.linkDepth
  unfold resolve
  rw [same, FileSystem.walkWith_cons _ _ inDirectory]
  show (_ → (fs.enter follow directory name).andThen _ _ = _) ∧
    (_ → (fs.enter follow directory name).andThen _ _ = _)
  unfold enter
  constructor
  · intro none
    rw [none]
    rfl
  · intro stands
    rw [stands]
    rfl

theorem extends_refl (fs : FileSystem) : fs.Extends fs := fun _ _ stands => stands

theorem Extends.trans {middle larger : FileSystem} (first : fs.Extends middle)
    (then_ : middle.Extends larger) : fs.Extends larger :=
  fun location entry stands => then_ location entry (first location entry stands)

theorem extends_create {directory : Location} {name : Name} {entry : Entry}
    (inDirectory : fs.entry directory = some .directory)
    (free : fs.entry (directory ++ [name]) = none) :
    fs.Extends (fs.create directory name entry inDirectory free) := by
  intro location stood stands
  show Function.update fs.entry (directory ++ [name]) (some entry) location = some stood
  rw [Function.update_of_ne]
  · exact stands
  · rintro rfl
    rw [free] at stands
    cases stands

theorem create_entry {directory : Location} {name : Name} {entry : Entry}
    (inDirectory : fs.entry directory = some .directory)
    (free : fs.entry (directory ++ [name]) = none) :
    (fs.create directory name entry inDirectory free).entry (directory ++ [name]) = some entry :=
  Function.update_self ..

/-- What was just made is empty. -/
theorem create_empty {directory : Location} {name : Name} {entry : Entry}
    (inDirectory : fs.entry directory = some .directory)
    (free : fs.entry (directory ++ [name]) = none) (child : Name) :
    (fs.create directory name entry inDirectory free).entry (directory ++ [name] ++ [child]) =
      none := by
  show Function.update fs.entry (directory ++ [name]) (some entry) _ = none
  rw [Function.update_of_ne]
  · by_contra stands
    rw [fs.parents _ _ stands] at free
    cases free
  · intro equal
    have lengths := congrArg List.length equal
    simp at lengths

/-- **Nothing is made on a path that does not end at an absent name.** -/
theorem createDirAll_present {path : List Component} (nonempty : path ≠ [])
    (present : ∀ directory rest, fs.resolve here path ≠ .absent directory rest) :
    fs.createDirAll here path = ⟨fs, [], fs.isDirectory here path⟩ := by
  obtain ⟨above, last, rfl⟩ := List.eq_nil_or_concat path |>.resolve_left nonempty
  have error : ∃ error, error ≠ .notFound ∧ fs.mkdir here above last = .error error := by
    unfold mkdir
    rw [List.concat_eq_append, resolve_append] at present
    cases resolved : fs.resolve here above with
    | absent directory rest =>
        rw [resolved] at present
        exact absurd rfl (present directory (rest ++ [last]))
    | blocked => exact ⟨.other, nofun, rfl⟩
    | found directory =>
        rw [resolved] at present
        dsimp only
        split
        · rename_i inDirectory
          cases last with
          | current => exact ⟨.alreadyExists, nofun, rfl⟩
          | parent => exact ⟨.alreadyExists, nofun, rfl⟩
          | name name =>
              dsimp only
              split
              · rename_i free
                exact absurd ((resolve_name inDirectory name).1 free) (present _ _)
              · exact ⟨.alreadyExists, nofun, rfl⟩
        · exact ⟨.other, nofun, rfl⟩
  obtain ⟨error, isOther, made⟩ := error
  rw [List.concat_eq_append, createDirAll, List.reverse_concat, createDirAllFrom,
    List.reverse_reverse, made]
  cases error with
  | notFound => exact absurd rfl isOther
  | alreadyExists => rfl
  | other => rfl

/-- Where nothing is absent nothing is made, and only a path that leads somewhere is fine. -/
theorem createDirAll_still {path : List Component}
    (present : ∀ directory rest, fs.resolve here path ≠ .absent directory rest) :
    ∃ ok, fs.createDirAll here path = ⟨fs, [], ok⟩ ∧
      (ok = true → ∃ location, fs.resolve here path = .found location) := by
  by_cases empty : path = []
  · subst empty
    exact ⟨true, rfl, fun _ => ⟨here, fs.walk_nil fs.linkDepth here⟩⟩
  · refine ⟨_, createDirAll_present empty present, fun ok => ?_⟩
    unfold isDirectory at ok
    cases leads : fs.canonicalize here path with
    | none => rw [leads] at ok; cases ok
    | some location => exact ⟨location, canonicalize_eq_some.mp leads⟩

/-! ## Below a location -/

/-- A path ends below a location: it leads there, or only names are missing on the way
from there, or it leads nowhere at all. -/
def EndsBelow (root : Location) : Outcome → Prop
  | .found location => root <+: location
  | .absent directory rest =>
      root <+: directory ∧ ∀ component ∈ rest, ∃ name, component = .name name
  | .blocked => True

/-- On the way of a path only names are missing. -/
def OnlyNames : Outcome → Prop
  | .absent _ rest => ∀ component ∈ rest, ∃ name, component = .name name
  | .found _ | .blocked => True

/-- Where a path leads, or the place of the first name that is missing on the way. -/
def EndsAt (fs : FileSystem) : Outcome → Location → Prop
  | .found location, place => place = location
  | .absent directory _, place =>
      ∃ name, place = directory ++ [name] ∧ fs.entry (directory ++ [name]) = none
  | .blocked, _ => False

theorem EndsBelow.onlyNames {root : Location} {outcome : Outcome}
    (below : EndsBelow root outcome) : OnlyNames outcome := by
  cases outcome with
  | absent directory rest => exact below.2
  | found location => trivial
  | blocked => trivial

/-- A path that ends at a place below a directory ends below that directory. -/
theorem endsBelow_of_endsAt {root place : Location} {outcome : Outcome}
    (inDirectory : fs.entry root = some .directory) (names : OnlyNames outcome)
    (ends : fs.EndsAt outcome place) (below : root <+: place) : EndsBelow root outcome := by
  cases outcome with
  | found location => exact ends ▸ below
  | blocked => trivial
  | absent directory rest =>
      obtain ⟨name, rfl, free⟩ := ends
      refine ⟨?_, names⟩
      obtain same | inside := List.prefix_concat_iff.mp below
      · rw [same, free] at inDirectory
        cases inDirectory
      · exact inside

theorem write_endsAt {path : List Component} {text : List Char} {after : FileSystem}
    {location : Location} (writes : fs.write here path text = some (after, location)) :
    fs.EndsAt (fs.resolve here path) location := by
  obtain found | ⟨directory, name, absent, same, free⟩ := write_location writes
  · rw [found]
    rfl
  · rw [absent]
    exact ⟨name, same, free⟩

/-- What is written on a path that ends below a location is below it. -/
theorem write_below {root : Location} {path : List Component} {text : List Char}
    {after : FileSystem} {location : Location} (below : EndsBelow root (fs.resolve here path))
    (writes : fs.write here path text = some (after, location)) : root <+: location := by
  obtain found | ⟨directory, name, absent, rfl, -⟩ := write_location writes
  · rw [found] at below
    exact below
  · rw [absent] at below
    exact below.1.trans (List.prefix_append _ _)

/-! ## What stays -/

theorem create_frame {directory : Location} {name : Name} {entry : Entry}
    (inDirectory : fs.entry directory = some .directory)
    (free : fs.entry (directory ++ [name]) = none) {location : Location}
    (other : location ≠ directory ++ [name]) :
    (fs.create directory name entry inDirectory free).entry location = fs.entry location :=
  Function.update_of_ne other _ _

theorem mkdir_frame {above : List Component} {last : Component} {after : FileSystem}
    {made : Location} (makes : fs.mkdir here above last = .ok (after, made))
    {location : Location} (other : location ≠ made) : after.entry location = fs.entry location := by
  unfold mkdir at makes
  cases resolved : fs.resolve here above with
  | absent directory rest => rw [resolved] at makes; cases makes
  | blocked => rw [resolved] at makes; cases makes
  | found directory =>
      rw [resolved] at makes
      dsimp only at makes
      by_cases inDirectory : fs.entry directory = some .directory
      · rw [dif_pos inDirectory] at makes
        cases last with
        | current => cases makes
        | parent => cases makes
        | name name =>
            dsimp only at makes
            by_cases free : fs.entry (directory ++ [name]) = none
            · rw [dif_pos free] at makes
              cases makes
              exact create_frame inDirectory free other
            · rw [dif_neg free] at makes
              cases makes
      · rw [dif_neg inDirectory] at makes
        cases makes

/-- Where nothing was made, nothing changed. -/
theorem createDirAllFrom_frame (reversed : List Component) (fs : FileSystem) {location : Location}
    (other : location ∉ (createDirAllFrom here reversed fs).made) :
    (createDirAllFrom here reversed fs).fs.entry location = fs.entry location := by
  induction reversed with
  | nil => rfl
  | cons last above ih =>
      unfold createDirAllFrom at other ⊢
      cases first : fs.mkdir here above.reverse last with
      | ok result =>
          rw [first] at other
          exact mkdir_frame first (by simpa using other)
      | error error =>
          cases error with
          | alreadyExists => rfl
          | other => rfl
          | notFound =>
              rw [first] at other
              dsimp only at other ⊢
              generalize createDirAllFrom here above fs = parent at other ih
              by_cases ok : parent.ok
              · rw [if_pos ok] at other ⊢
                cases again : parent.fs.mkdir here above.reverse last with
                | ok result =>
                    rw [again] at other
                    simp only [List.mem_append, List.mem_singleton, not_or] at other
                    exact (mkdir_frame again other.2).trans (ih other.1)
                | error error =>
                    rw [again] at other
                    exact ih other
              · rw [if_neg ok] at other ⊢
                exact ih other

theorem createDirAll_frame {path : List Component} {location : Location}
    (other : location ∉ (fs.createDirAll here path).made) :
    (fs.createDirAll here path).fs.entry location = fs.entry location :=
  createDirAllFrom_frame path.reverse fs other

theorem write_frame {path : List Component} {text : List Char} {after : FileSystem}
    {written : Location} (writes : fs.write here path text = some (after, written))
    {location : Location} (other : location ≠ written) :
    after.entry location = fs.entry location := by
  unfold write at writes
  split at writes
  · split at writes
    · cases writes
      exact Function.update_of_ne other _ _
    all_goals cases writes
  · split at writes
    · split at writes
      · cases writes
        exact create_frame _ _ other
      · cases writes
    · cases writes
  all_goals cases writes

/-! ## `create_dir_all` where names are missing -/

/-- What `create_dir_all` did below the directory where a name was absent. -/
structure MadeBelow (fs : FileSystem) (here : Location) (path : List Component)
    (directory : Location) (result : Made) : Prop where
  below : ∀ location ∈ result.made, directory <+: location
  first : result.ok → ∃ name, directory ++ [name] ∈ result.made ∧
    fs.entry (directory ++ [name]) = none
  grows : fs.Extends result.fs
  made : result.ok → ∃ bottom, result.fs.resolve here path = .found bottom ∧
    result.fs.entry bottom = some .directory ∧ directory <+: bottom ∧
      ∀ name, result.fs.entry (bottom ++ [name]) = none

/-- A name made in a directory is found there, and it is empty. -/
theorem found_created {path : List Component} {directory : Location} {name : Name}
    (resolved : fs.resolve here path = .found directory)
    (inDirectory : fs.entry directory = some .directory)
    (free : fs.entry (directory ++ [name]) = none) :
    let made := fs.create directory name .directory inDirectory free
    made.resolve here (path ++ [.name name]) = .found (directory ++ [name]) ∧
      made.entry (directory ++ [name]) = some .directory ∧
        ∀ child, made.entry (directory ++ [name] ++ [child]) = none := by
  intro made
  have grows : fs.Extends made := extends_create inDirectory free
  have stands : made.entry (directory ++ [name]) = some .directory :=
    create_entry inDirectory free
  refine ⟨?_, stands, create_empty inDirectory free⟩
  have above : made.resolve here path = .found directory :=
    walk_extends grows fs.linkDepth resolved
  rw [resolve_append, above]
  exact (resolve_name (grows _ _ inDirectory) name).2 stands

/-- A last component that is absent in a directory found is a name, made there now or
a link that leads nowhere. -/
theorem absent_name {found directory : Location} {last : Component} {rest : List Component}
    (absent : fs.resolve found [last] = .absent directory rest) :
    fs.entry found = some .directory ∧ ∃ name, last = .name name ∧
      (fs.entry (found ++ [name]) = none → directory = found) := by
  obtain ⟨follow, same⟩ := fs.walk_eq fs.linkDepth
  unfold resolve at absent
  rw [same] at absent
  by_cases inDirectory : fs.entry found = some .directory
  · refine ⟨inDirectory, ?_⟩
    rw [walkWith_cons _ _ inDirectory] at absent
    cases last with
    | current => cases absent
    | parent => cases absent
    | name name =>
        refine ⟨name, rfl, fun free => ?_⟩
        have entered : fs.stepWith follow found (.name name) = .absent found [.name name] := by
          show fs.enter follow found name = .absent found [.name name]
          rw [enter, free]
        rw [entered] at absent
        cases absent
        rfl
  · unfold walkWith at absent
    rw [if_neg inDirectory] at absent
    cases absent

/-- By induction on the path from its end, as `create_dir_all` goes up and comes back. -/
theorem createDirAllFrom_absent (reversed : List Component) {directory : Location}
    {rest : List Component}
    (resolved : fs.resolve here reversed.reverse = .absent directory rest)
    (names : ∀ component ∈ rest, ∃ name, component = .name name) :
    MadeBelow fs here reversed.reverse directory (createDirAllFrom here reversed fs) := by
  induction reversed generalizing directory rest with
  | nil =>
      have found := fs.walk_nil fs.linkDepth here
      unfold resolve at resolved
      rw [List.reverse_nil, found] at resolved
      cases resolved
  | cons last above ih =>
      rw [List.reverse_cons] at resolved ⊢
      have whole := resolved
      rw [resolve_append] at resolved
      unfold createDirAllFrom mkdir
      cases parent : fs.resolve here above.reverse with
      | blocked => rw [parent] at resolved; cases resolved
      | found found =>
          rw [parent] at resolved
          obtain ⟨inDirectory, name, rfl, here_⟩ := absent_name resolved
          dsimp only
          rw [dif_pos inDirectory]
          by_cases free : fs.entry (found ++ [name]) = none
          · rw [dif_pos free]
            obtain rfl := here_ free
            refine ⟨?_, fun _ => ⟨name, List.mem_singleton.mpr rfl, free⟩,
              extends_create inDirectory free, fun _ => ?_⟩
            · intro location isMade
              rw [List.mem_singleton.mp isMade]
              exact List.prefix_append _ _
            · obtain ⟨walks, stands, empty⟩ := found_created parent inDirectory free
              exact ⟨_, walks, stands, List.prefix_append _ _, empty⟩
          · rw [dif_neg free]
            have fails : fs.isDirectory here (above.reverse ++ [.name name]) ≠ true := by
              unfold isDirectory canonicalize
              rw [whole]
              nofun
            exact ⟨nofun, fun ok => absurd ok fails, extends_refl fs, fun ok => absurd ok fails⟩
      | absent bottom before =>
          rw [parent] at resolved
          cases resolved
          obtain ⟨name, rfl⟩ := names last (by simp)
          have parents := ih parent fun component isBefore =>
            names component (List.mem_append_left _ isBefore)
          dsimp only
          generalize createDirAllFrom here above fs = made at parents
          by_cases ok : made.ok
          · obtain ⟨floor, walks, stands, below, empty⟩ := parents.made ok
            rw [if_pos ok, walks]
            dsimp only
            rw [dif_pos stands, dif_pos (empty name)]
            refine ⟨?_, fun _ => ?_, parents.grows.trans (extends_create stands (empty name)),
              fun _ => ?_⟩
            · intro location isMade
              obtain earlier | last := List.mem_append.mp isMade
              · exact parents.below location earlier
              · rw [List.mem_singleton.mp last]
                exact below.trans (List.prefix_append _ _)
            · obtain ⟨name, isMade, free⟩ := parents.first ok
              exact ⟨name, List.mem_append_left _ isMade, free⟩
            · obtain ⟨walks', stands', empty'⟩ := found_created walks stands (empty name)
              exact ⟨_, walks', stands', below.trans (List.prefix_append _ _), empty'⟩
          · rw [if_neg ok]
            exact ⟨parents.below, fun never => absurd never ok, parents.grows,
              fun never => absurd never ok⟩

/-- **On a path that ends in missing names, `create_dir_all` makes directories below
the directory where the first of them is missing, and nowhere else.** -/
theorem createDirAll_absent {path : List Component} {directory : Location}
    {rest : List Component} (resolved : fs.resolve here path = .absent directory rest)
    (names : ∀ component ∈ rest, ∃ name, component = .name name) :
    MadeBelow fs here path directory (fs.createDirAll here path) := by
  have reversed := createDirAllFrom_absent path.reverse (by rwa [List.reverse_reverse]) names
  rwa [List.reverse_reverse] at reversed

end Calls

end FileSystem

end Openyak.Theory.Posix
