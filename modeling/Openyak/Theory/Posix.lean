/-
# Theory.Posix -- a tree of directories, files and links, and how paths resolve

A location is a list of names from the root.  A file system says what stands at each
location; every location but the root stands in a directory.  A path is walked one
component at a time: a name is looked up in the directory reached so far, a link is
walked from where it stands, or from the root when its target is absolute.

A walk ends at a location (`found`), at the first name that is not there, with the
components left over (`absent`), or cannot go on (`blocked`: a file in the way, or
links leading into one another more than `linkDepth` deep).
-/
import Mathlib.Data.List.Infix
import Mathlib.Logic.Function.Basic

namespace Openyak.Theory.Posix

set_option autoImplicit false

/-! ## Paths -/

abbrev Name := String

/-- A place in the tree: names from the root. -/
abbrev Location := List Name

inductive Component where
  | current
  | parent
  | name (name : Name)
  deriving DecidableEq, Repr

/-- A path text taken apart at its slashes.  An empty component is `current`: before
another component it says nothing, and at the end it asks for a directory. -/
structure Path where
  absolute : Bool
  components : List Component
  deriving DecidableEq, Repr

/-- The components that lead to a location. -/
def ofLocation (location : Location) : List Component := location.map .name

/-- `Path::components` after the root: what is `current` is left out. -/
def dropCurrent (components : List Component) : List Component :=
  components.filter fun component => component ≠ .current

/-! ## File systems -/

/-- A file has the text it holds, if that is UTF-8. -/
inductive Entry where
  | directory
  | file (text : Option (List Char))
  | symlink (target : Path)
  deriving DecidableEq, Repr

structure FileSystem where
  entry : Location → Option Entry
  linkDepth : Nat
  root : entry [] = some .directory
  parents : ∀ location name, entry (location ++ [name]) ≠ none → entry location = some .directory

namespace FileSystem

/-- Nothing but the root. -/
def bare (linkDepth : Nat) : FileSystem where
  entry location := if location = [] then some .directory else none
  linkDepth := linkDepth
  root := rfl
  parents := fun _ _ exists_ => absurd (if_neg (by simp)) exists_

/-- Something new in a directory. -/
def create (fs : FileSystem) (directory : Location) (name : Name) (entry : Entry)
    (inDirectory : fs.entry directory = some .directory)
    (free : fs.entry (directory ++ [name]) = none) : FileSystem where
  entry := Function.update fs.entry (directory ++ [name]) (some entry)
  linkDepth := fs.linkDepth
  root := by
    rw [Function.update_of_ne (by simp)]
    exact fs.root
  parents := by
    intro other child exists_
    by_cases same : other = directory ++ [name]
    · subst same
      have apart : directory ++ [name] ++ [child] ≠ directory ++ [name] := by
        intro equal
        have lengths := congrArg List.length equal
        simp at lengths
      rw [Function.update_of_ne apart] at exists_
      rw [fs.parents _ _ exists_] at free
      cases free
    · rw [Function.update_of_ne same]
      by_cases here : other ++ [child] = directory ++ [name]
      · obtain ⟨rfl, -⟩ := List.append_inj' here rfl
        exact inDirectory
      · rw [Function.update_of_ne here] at exists_
        exact fs.parents _ _ exists_

/-- A file with another text. -/
def overwrite (fs : FileSystem) (location : Location) (text : List Char)
    (isFile : ∃ before, fs.entry location = some (.file before)) : FileSystem where
  entry := Function.update fs.entry location (some (.file (some text)))
  linkDepth := fs.linkDepth
  root := by
    obtain ⟨before, stands⟩ := isFile
    have apart : [] ≠ location := by
      intro top
      rw [← top, fs.root] at stands
      cases stands
    rw [Function.update_of_ne apart]
    exact fs.root
  parents := by
    intro other child exists_
    obtain ⟨before, stands⟩ := isFile
    have parent : fs.entry other = some .directory := by
      refine fs.parents other child ?_
      by_cases here : other ++ [child] = location
      · rw [here, stands]
        nofun
      · rwa [Function.update_of_ne here] at exists_
    have apart : other ≠ location := by
      intro same
      rw [← same, parent] at stands
      cases stands
    rw [Function.update_of_ne apart]
    exact parent

/-! ## Walking -/

inductive Outcome where
  | found (location : Location)
  | absent (directory : Location) (rest : List Component)
  | blocked
  deriving DecidableEq, Repr

/-- Go on with the components left after this outcome. -/
def Outcome.andThen (outcome : Outcome) (rest : List Component) (go : Location → Outcome) :
    Outcome :=
  match outcome with
  | .found location => go location
  | .absent directory before => .absent directory (before ++ rest)
  | .blocked => .blocked

/-- A name in a directory; `follow` walks the target of a link. -/
def enter (fs : FileSystem) (follow : Location → List Component → Outcome)
    (directory : Location) (name : Name) : Outcome :=
  match fs.entry (directory ++ [name]) with
  | none => .absent directory [.name name]
  | some (.symlink target) => follow (if target.absolute then [] else directory) target.components
  | some .directory | some (.file _) => .found (directory ++ [name])

/-- One component from a directory. -/
def stepWith (fs : FileSystem) (follow : Location → List Component → Outcome)
    (directory : Location) : Component → Outcome
  | .current => .found directory
  | .parent => .found directory.dropLast
  | .name name => fs.enter follow directory name

def walkWith (fs : FileSystem) (follow : Location → List Component → Outcome) :
    Location → List Component → Outcome
  | here, [] => .found here
  | here, component :: rest =>
      if fs.entry here = some .directory then
        (fs.stepWith follow here component).andThen rest fun next => fs.walkWith follow next rest
      else .blocked

/-- Walk with links at most so deep. -/
def walk (fs : FileSystem) : Nat → Location → List Component → Outcome
  | 0 => fs.walkWith fun _ _ => .blocked
  | depth + 1 => fs.walkWith (fs.walk depth)

def resolve (fs : FileSystem) (here : Location) (components : List Component) : Outcome :=
  fs.walk fs.linkDepth here components

section Walks

variable {fs : FileSystem} {follow : Location → List Component → Outcome} {here : Location}

@[simp] theorem walkWith_nil : fs.walkWith follow here [] = .found here := rfl

theorem walkWith_cons (component : Component) (rest : List Component)
    (inDirectory : fs.entry here = some .directory) :
    fs.walkWith follow here (component :: rest) =
      (fs.stepWith follow here component).andThen rest fun next =>
        fs.walkWith follow next rest := by
  rw [walkWith, if_pos inDirectory]

/-- **A walk goes on where its first part ended.** -/
theorem walkWith_append (here : Location) (before after : List Component) :
    fs.walkWith follow here (before ++ after) =
      (fs.walkWith follow here before).andThen after fun next =>
        fs.walkWith follow next after := by
  induction before generalizing here with
  | nil => rfl
  | cons component rest ih =>
      by_cases inDirectory : fs.entry here = some .directory
      · rw [List.cons_append, walkWith_cons _ _ inDirectory, walkWith_cons _ _ inDirectory]
        cases fs.stepWith follow here component with
        | found next => exact ih next
        | absent directory left => simp [Outcome.andThen]
        | blocked => rfl
      · rw [List.cons_append, walkWith, walkWith, if_neg inDirectory, if_neg inDirectory]
        rfl

end Walks

theorem walk_nil (fs : FileSystem) (depth : Nat) (here : Location) :
    fs.walk depth here [] = .found here := by
  cases depth <;> rfl

/-- Each walk is one with some way to follow links. -/
theorem walk_eq (fs : FileSystem) (depth : Nat) :
    ∃ follow, fs.walk depth = fs.walkWith follow := by
  cases depth with
  | zero => exact ⟨_, rfl⟩
  | succ depth => exact ⟨_, rfl⟩

theorem walk_append (fs : FileSystem) (depth : Nat) (here : Location)
    (before after : List Component) :
    fs.walk depth here (before ++ after) =
      (fs.walk depth here before).andThen after fun next => fs.walk depth next after := by
  obtain ⟨follow, same⟩ := fs.walk_eq depth
  rw [same]
  exact walkWith_append here before after

/-! ## Where a walk ends -/

/-- Something other than a link stands there. -/
def Settled (fs : FileSystem) (location : Location) : Prop :=
  ∃ entry, fs.entry location = some entry ∧ ∀ target, entry ≠ .symlink target

/-- A location found is no link; a name that is absent is so in a directory. -/
def Truthful (fs : FileSystem) : Outcome → Prop
  | .found location => fs.Settled location
  | .absent directory rest => fs.entry directory = some .directory ∧
      ∃ name after, rest = .name name :: after ∧ fs.entry (directory ++ [name]) = none
  | .blocked => True

section Ends

variable {fs : FileSystem}

theorem settled_of_directory {location : Location}
    (inDirectory : fs.entry location = some .directory) : fs.Settled location :=
  ⟨.directory, inDirectory, nofun⟩

/-- What stands above something is a directory. -/
theorem directory_above {above below : Location} (nonempty : below ≠ [])
    (exists_ : fs.entry (above ++ below) ≠ none) : fs.entry above = some .directory := by
  induction below using List.reverseRecOn with
  | nil => exact absurd rfl nonempty
  | append_singleton before last ih =>
      have parent := fs.parents (above ++ before) last (by rwa [List.append_assoc])
      by_cases empty : before = []
      · subst empty
        rwa [List.append_nil] at parent
      · exact ih empty (by rw [parent]; nofun)

theorem directory_dropLast {location : Location}
    (inDirectory : fs.entry location = some .directory) :
    fs.entry location.dropLast = some .directory := by
  by_cases top : location = []
  · subst top
    exact inDirectory
  · have split := List.dropLast_append_getLast top
    refine fs.parents location.dropLast (location.getLast top) ?_
    rw [split, inDirectory]
    nofun

theorem truthful_andThen {outcome : Outcome} {rest : List Component} {go : Location → Outcome}
    (first : fs.Truthful outcome) (then_ : ∀ next, fs.Settled next → fs.Truthful (go next)) :
    fs.Truthful (outcome.andThen rest go) := by
  cases outcome with
  | found next => exact then_ next first
  | absent directory before =>
      obtain ⟨inDirectory, name, after, rfl, none⟩ := first
      exact ⟨inDirectory, name, after ++ rest, rfl, none⟩
  | blocked => trivial

theorem stepWith_truthful {follow : Location → List Component → Outcome}
    (follows : ∀ start components, fs.Settled start → fs.Truthful (follow start components))
    {directory : Location} (inDirectory : fs.entry directory = some .directory)
    (component : Component) : fs.Truthful (fs.stepWith follow directory component) := by
  cases component with
  | current => exact settled_of_directory inDirectory
  | parent => exact settled_of_directory (directory_dropLast inDirectory)
  | name name =>
      unfold stepWith enter
      dsimp only
      split
      · rename_i none
        exact ⟨inDirectory, name, [], rfl, none⟩
      · refine follows _ _ (settled_of_directory ?_)
        split
        · exact fs.root
        · exact inDirectory
      · rename_i isDirectory
        exact settled_of_directory isDirectory
      · rename_i text isFile
        exact ⟨_, isFile, nofun⟩

theorem walkWith_truthful {follow : Location → List Component → Outcome}
    (follows : ∀ start components, fs.Settled start → fs.Truthful (follow start components))
    {here : Location} (settled : fs.Settled here) (components : List Component) :
    fs.Truthful (fs.walkWith follow here components) := by
  induction components generalizing here with
  | nil => exact settled
  | cons component rest ih =>
      unfold walkWith
      split
      · rename_i inDirectory
        exact truthful_andThen (stepWith_truthful follows inDirectory component)
          fun next settled => ih settled
      · trivial

/-- **A walk from something settled tells the truth.** -/
theorem walk_truthful (depth : Nat) {here : Location} (settled : fs.Settled here)
    (components : List Component) : fs.Truthful (fs.walk depth here components) := by
  induction depth generalizing here components with
  | zero =>
      have never : ∀ start components, fs.Settled start → fs.Truthful .blocked :=
        fun _ (_ : List Component) _ => trivial
      exact walkWith_truthful never settled components
  | succ depth ih => exact walkWith_truthful (fun _ _ start => ih start _) settled components

/-- The names of a settled location lead to it. -/
theorem walk_ofLocation (depth : Nat) (here names : Location) (settled : fs.Settled (here ++ names)) :
    fs.walk depth here (ofLocation names) = .found (here ++ names) := by
  obtain ⟨follow, same⟩ := fs.walk_eq depth
  rw [same]
  obtain ⟨entry, stands, noLink⟩ := settled
  induction names generalizing here with
  | nil => simp [ofLocation]
  | cons name rest ih =>
      have inDirectory : fs.entry here = some .directory :=
        directory_above (List.cons_ne_nil name rest) (by rw [stands]; nofun)
      have further : here ++ [name] ++ rest = here ++ name :: rest := by simp
      have steps : fs.stepWith follow here (.name name) = .found (here ++ [name]) := by
        by_cases last : rest = []
        · subst last
          show fs.enter follow here name = .found (here ++ [name])
          rw [enter, stands]
          cases entry with
          | directory => rfl
          | file text => rfl
          | symlink target => exact absurd rfl (noLink target)
        · have isDirectory : fs.entry (here ++ [name]) = some .directory :=
            directory_above last (by rw [further, stands]; nofun)
          show fs.enter follow here name = .found (here ++ [name])
          rw [enter, isDirectory]
      rw [← further] at stands
      show fs.walkWith follow here (.name name :: ofLocation rest) = .found (here ++ name :: rest)
      rw [walkWith_cons _ _ inDirectory, steps]
      show fs.walkWith follow (here ++ [name]) (ofLocation rest) = .found (here ++ name :: rest)
      rw [ih (here ++ [name]) stands, further]

end Ends

/-! ## Walks in a larger tree -/

/-- Everything that stands in one file system stands in the other. -/
def Extends (fs larger : FileSystem) : Prop :=
  ∀ location entry, fs.entry location = some entry → larger.entry location = some entry

section Growing

variable {fs larger : FileSystem}

theorem walkWith_extends {follow follow' : Location → List Component → Outcome}
    (grows : fs.Extends larger)
    (follows : ∀ start components location, follow start components = .found location →
      follow' start components = .found location)
    {here location : Location} {components : List Component}
    (walks : fs.walkWith follow here components = .found location) :
    larger.walkWith follow' here components = .found location := by
  induction components generalizing here with
  | nil => exact walks
  | cons component rest ih =>
      unfold walkWith at walks
      split at walks
      · rename_i inDirectory
        rw [walkWith_cons _ _ (grows here _ inDirectory)]
        cases steps : fs.stepWith follow here component with
        | absent directory before => rw [steps] at walks; cases walks
        | blocked => rw [steps] at walks; cases walks
        | found next =>
            rw [steps] at walks
            have same : larger.stepWith follow' here component = .found next := by
              cases component with
              | current => exact steps
              | parent => exact steps
              | name name =>
                  show larger.enter follow' here name = .found next
                  have entered : fs.enter follow here name = .found next := steps
                  unfold enter at entered ⊢
                  cases stands : fs.entry (here ++ [name]) with
                  | none => rw [stands] at entered; cases entered
                  | some entry =>
                      rw [grows _ _ stands]
                      rw [stands] at entered
                      cases entry with
                      | directory => exact entered
                      | file text => exact entered
                      | symlink target => exact follows _ _ _ entered
            rw [same]
            exact ih walks
      · cases walks

/-- What is found stays found when more stands in the tree. -/
theorem walk_extends (grows : fs.Extends larger) (depth : Nat) {here location : Location}
    {components : List Component} (walks : fs.walk depth here components = .found location) :
    larger.walk depth here components = .found location := by
  induction depth generalizing here location components with
  | zero => exact walkWith_extends grows (fun _ _ _ never => by cases never) walks
  | succ depth ih => exact walkWith_extends grows (fun _ _ _ => ih) walks

end Growing

/-! ## Paths without `current` -/

/-- Leaving `current` out changes neither what is found nor where something is absent. -/
theorem walk_normalize (fs : FileSystem) (depth : Nat) (here : Location)
    (components : List Component) :
    (∀ location, fs.walk depth here components = .found location →
      fs.walk depth here (dropCurrent components) = .found location) ∧
    (∀ directory rest, fs.walk depth here components = .absent directory rest →
      ∃ rest', fs.walk depth here (dropCurrent components) = .absent directory rest') := by
  obtain ⟨follow, same⟩ := fs.walk_eq depth
  rw [same]
  induction components generalizing here with
  | nil => exact ⟨fun location walks => walks, nofun⟩
  | cons component rest ih =>
      by_cases inDirectory : fs.entry here = some .directory
      · rw [walkWith_cons _ _ inDirectory]
        by_cases isCurrent : component = .current
        · subst isCurrent
          exact ih here
        · have kept : dropCurrent (component :: rest) = component :: dropCurrent rest := by
            simp [dropCurrent, isCurrent]
          rw [kept, walkWith_cons _ _ inDirectory]
          cases fs.stepWith follow here component with
          | found next => exact ih next
          | absent directory before =>
              refine ⟨nofun, fun other left walks => ?_⟩
              cases walks
              exact ⟨_, rfl⟩
          | blocked => exact ⟨nofun, nofun⟩
      · unfold walkWith
        rw [if_neg inDirectory]
        exact ⟨nofun, nofun⟩

end FileSystem

end Openyak.Theory.Posix
