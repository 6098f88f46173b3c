/-
# Theory.DirTree -- directory trees, and the calls that move whole directories

A tree is a list of what stands where.  `below` is what stands below a location, seen from
it: a directory that is moved elsewhere is the same from there (`below_move_target`), and
so is a copied one (`copyAll_below`).  A call changes nothing below a location that is
apart from the ones it names.

There are no links in such a tree, though a copied one may have had some.
-/
import Mathlib.Data.List.Infix
import Mathlib.Data.List.Basic
import Openyak.Theory.Posix

namespace Openyak.Theory.DirTree

open Openyak.Theory.Posix (Location Name)

set_option autoImplicit false

inductive Node where
  | directory
  | file (bytes : List UInt8)
  | symlink
  deriving DecidableEq, Repr

abbrev Tree := List (Location × Node)

def node (tree : Tree) (location : Location) : Option Node :=
  (tree.find? fun entry => entry.1 = location).map Prod.snd

/-- An entry as it is seen from a location above it. -/
def seenFrom (location : Location) (entry : Location × Node) : Option (Location × Node) :=
  if location.isPrefixOf entry.1 then some (entry.1.drop location.length, entry.2) else none

/-- What stands at a location and below it. -/
def below (tree : Tree) (location : Location) : Tree := tree.filterMap (seenFrom location)

/-- Neither is above the other. -/
def Apart (p q : Location) : Prop := ¬p <+: q ∧ ¬q <+: p

variable {tree after : Tree} {p q location : Location}

theorem Apart.symm (apart : Apart p q) : Apart q p := ⟨apart.2, apart.1⟩

theorem Apart.append (apart : Apart p q) (rest : Location) : Apart p (q ++ rest) := by
  constructor
  · intro above
    obtain down | up := List.prefix_or_prefix_of_prefix above (List.prefix_append q rest)
    · exact apart.1 down
    · exact apart.2 up
  · intro under
    exact apart.2 ((List.prefix_append q rest).trans under)

theorem apart_names {directory : Location} {name other : Name} (different : name ≠ other) :
    Apart (directory ++ [name]) (directory ++ [other]) := by
  constructor
  · intro above
    have same : directory ++ [name] = directory ++ [other] :=
      above.eq_of_length (by simp)
    exact different (by simpa using same)
  · intro above
    have same : directory ++ [other] = directory ++ [name] :=
      above.eq_of_length (by simp)
    exact different (by simpa using same.symm)

/-! ## Looking -/

theorem seenFrom_some {entry : Location × Node} (prefixed : location <+: entry.1) :
    seenFrom location entry = some (entry.1.drop location.length, entry.2) :=
  if_pos (List.isPrefixOf_iff_prefix.2 prefixed)

theorem seenFrom_none {entry : Location × Node} (apart : ¬location <+: entry.1) :
    seenFrom location entry = none :=
  if_neg fun prefixed => apart (List.isPrefixOf_iff_prefix.1 prefixed)

theorem below_append (tree more : Tree) (location : Location) :
    below (tree ++ more) location = below tree location ++ below more location :=
  List.filterMap_append

theorem node_cons (entry : Location × Node) (tree : Tree) (location : Location) :
    node (entry :: tree) location = if entry.1 = location then some entry.2
      else node tree location := by
  by_cases here : entry.1 = location
  · simp [node, here]
  · simp [node, here]

theorem node_below (tree : Tree) (location rest : Location) :
    node (below tree location) rest = node tree (location ++ rest) := by
  induction tree with
  | nil => rfl
  | cons entry tree ih =>
      rw [node_cons, below, List.filterMap_cons]
      by_cases prefixed : location <+: entry.1
      · obtain ⟨behind, whole⟩ := prefixed
        rw [seenFrom_some ⟨behind, whole⟩, node_cons, ← below, ih, ← whole]
        simp
      · rw [seenFrom_none prefixed, ← below, ih, if_neg]
        rintro same
        exact prefixed (same ▸ List.prefix_append location rest)

theorem node_at (tree : Tree) (location : Location) :
    node tree location = node (below tree location) [] := by
  rw [node_below, List.append_nil]

theorem node_of_absent (absent : ∀ entry ∈ tree, entry.1 ≠ location) :
    node tree location = none := by
  have nobody : tree.find? (fun entry => decide (entry.1 = location)) = none :=
    List.find?_eq_none.2 fun entry member => by simpa using absent entry member
  rw [node, nobody]
  rfl

theorem node_eq_none_iff : node tree location = none ↔ ∀ entry ∈ tree, entry.1 ≠ location := by
  constructor
  · intro absent entry member same
    have nobody := List.find?_eq_none.1 (Option.map_eq_none_iff.1 absent) entry member
    simp [same] at nobody
  · exact node_of_absent

theorem below_eq_nil_iff : below tree location = [] ↔ ∀ entry ∈ tree, ¬location <+: entry.1 := by
  rw [below, List.filterMap_eq_nil_iff]
  constructor
  · intro none entry member prefixed
    have nothing := none entry member
    rw [seenFrom_some prefixed] at nothing
    cases nothing
  · exact fun apart entry member => seenFrom_none (apart entry member)

theorem node_append (tree more : Tree) (location : Location) :
    node (tree ++ more) location = (node tree location).or (node more location) := by
  rw [node, List.find?_append, node, node]
  cases tree.find? fun entry => entry.1 = location <;> rfl

/-! ## Putting -/

/-- Something new, or in place of what stands there. -/
def put (tree : Tree) (location : Location) (new : Node) : Tree :=
  tree.filter (fun entry => entry.1 ≠ location) ++ [(location, new)]

theorem below_put {new : Node} (apart : ¬p <+: location) :
    below (put tree location new) p = below tree p := by
  have nothing : below [(location, new)] p = [] := by
    have unseen : seenFrom p (location, new) = none := seenFrom_none apart
    simp [below, unseen]
  rw [put, below_append, nothing, List.append_nil, below, List.filterMap_filter]
  apply List.filterMap_congr
  intro entry _
  by_cases here : entry.1 = location
  · have unseen : seenFrom p entry = none := seenFrom_none (here ▸ apart)
    simp [here, unseen]
  · simp [here]

theorem node_put (tree : Tree) (location : Location) (new : Node) :
    node (put tree location new) location = some new := by
  have absent : node (tree.filter fun entry => entry.1 ≠ location) location = none :=
    node_of_absent fun entry member => by simpa using (List.mem_filter.1 member).2
  rw [put, node_append, absent, node_cons, if_pos rfl]
  rfl

theorem node_filter_other {keep : Location × Node → Bool}
    (kept : ∀ entry ∈ tree, entry.1 = p → keep entry = true) :
    node (tree.filter keep) p = node tree p := by
  induction tree with
  | nil => rfl
  | cons entry tree ih =>
      have rest := ih fun other member => kept other (List.mem_cons_of_mem entry member)
      by_cases here : entry.1 = p
      · rw [List.filter_cons, if_pos (kept entry List.mem_cons_self here), node_cons, node_cons,
          if_pos here, if_pos here]
      · rw [List.filter_cons, node_cons, if_neg here]
        split
        · rw [node_cons, if_neg here, rest]
        · exact rest

theorem node_put_other {new : Node} (other : p ≠ location) :
    node (put tree location new) p = node tree p := by
  have kept : node (tree.filter fun entry => entry.1 ≠ location) p = node tree p :=
    node_filter_other fun entry _ same => by simpa [same] using other
  have absent : node [(location, new)] p = none := node_of_absent fun entry member => by
    rw [List.mem_singleton.1 member]
    exact Ne.symm other
  rw [put, node_append, kept, absent, Option.or_none]

theorem put_absent {new : Node} (absent : node tree location = none) :
    put tree location new = tree ++ [(location, new)] := by
  have all : tree.filter (fun entry => entry.1 ≠ location) = tree :=
    List.filter_eq_self.2 fun entry member => by simpa using node_eq_none_iff.1 absent entry member
  rw [put, all]

/-! ## Removing and moving -/

/-- Without what the fault kept, nothing is left. -/
def remove (tree : Tree) (location : Location) : Tree :=
  tree.filter fun entry => !location.isPrefixOf entry.1

/-- What stood below `source` stands below `target`, in place of what stood there. -/
def move (tree : Tree) (source target : Location) : Tree :=
  (remove tree target).map fun entry =>
    if source.isPrefixOf entry.1 then (target ++ entry.1.drop source.length, entry.2) else entry

theorem below_remove (apart : Apart p location) :
    below (remove tree location) p = below tree p := by
  rw [remove, below, List.filterMap_filter, below]
  apply List.filterMap_congr
  intro entry _
  by_cases here : location <+: entry.1
  · have unseen : ¬p <+: entry.1 := fun there =>
      (List.prefix_or_prefix_of_prefix there here).elim apart.1 apart.2
    rw [seenFrom_none unseen]
    split <;> rfl
  · simp [here]

theorem below_remove_self (tree : Tree) (location : Location) :
    below (remove tree location) location = [] := by
  apply below_eq_nil_iff.2
  intro entry member prefixed
  have kept := (List.mem_filter.1 member).2
  rw [List.isPrefixOf_iff_prefix.2 prefixed] at kept
  cases kept

theorem node_remove (other : ¬location <+: p) :
    node (remove tree location) p = node tree p := by
  apply node_filter_other
  rintro entry - rfl
  rw [Bool.not_eq_true', Bool.eq_false_iff]
  exact fun above => other (List.isPrefixOf_iff_prefix.1 above)

theorem below_move {source target : Location} (fromSource : Apart p source)
    (fromTarget : Apart p target) : below (move tree source target) p = below tree p := by
  rw [move, below, List.filterMap_map, ← below_remove fromTarget, below]
  apply List.filterMap_congr
  intro entry _
  show seenFrom p (if source.isPrefixOf entry.1 then _ else entry) = _
  split
  · rename_i moved
    have unseen : ¬p <+: entry.1 := fun there =>
      (List.prefix_or_prefix_of_prefix there (List.isPrefixOf_iff_prefix.1 moved)).elim
        fromSource.1 fromSource.2
    rw [seenFrom_none unseen, seenFrom_none (fromTarget.append _).1]
  · rfl

/-- **A moved directory is the same from where it stands.** -/
theorem below_move_target {source target : Location} (apart : Apart source target) :
    below (move tree source target) target = below tree source := by
  rw [move, below, List.filterMap_map, ← below_remove apart, below]
  apply List.filterMap_congr
  intro entry member
  have unseen : ¬target <+: entry.1 := below_eq_nil_iff.1 (below_remove_self tree target) entry member
  show seenFrom target (if source.isPrefixOf entry.1 then _ else entry) = _
  split
  · rename_i moved
    rw [seenFrom_some (List.prefix_append _ _), seenFrom_some (List.isPrefixOf_iff_prefix.1 moved)]
    simp
  · rename_i stays
    rw [seenFrom_none unseen,
      seenFrom_none fun there => stays (List.isPrefixOf_iff_prefix.2 there)]

theorem below_move_source {source target : Location} (apart : Apart source target) :
    below (move tree source target) source = [] := by
  apply below_eq_nil_iff.2
  intro entry member prefixed
  obtain ⟨earlier, -, rfl⟩ := List.mem_map.1 member
  split at prefixed
  · exact (apart.append _).1 prefixed
  · rename_i stays
    exact stays (List.isPrefixOf_iff_prefix.2 prefixed)

theorem node_move {source target : Location} (fromSource : ¬source <+: p)
    (fromTarget : ¬target <+: p) : node (move tree source target) p = node tree p := by
  refine Eq.trans ?_ (node_remove fromTarget)
  rw [move]
  generalize remove tree target = left
  induction left with
  | nil => rfl
  | cons entry left ih =>
      rw [List.map_cons, node_cons, node_cons, ih]
      split
      · rename_i moved
        have before : entry.1 ≠ p := by
          rintro rfl
          exact fromSource (List.isPrefixOf_iff_prefix.1 moved)
        have behind : target ++ entry.1.drop source.length ≠ p := by
          rintro rfl
          exact fromTarget (List.prefix_append _ _)
        rw [if_neg before, if_neg behind]
      · rfl

/-! ## Calls -/

/-- `Path::exists`. -/
def present (tree : Tree) (location : Location) : Bool := (node tree location).isSome

/-- Makes the directories that are missing among the locations, up to a file in the way. -/
def makeDirs : Tree → List Location → Bool × Tree
  | tree, [] => (true, tree)
  | tree, location :: rest =>
      match node tree location with
      | some .directory => makeDirs tree rest
      | none => makeDirs (put tree location .directory) rest
      | some (.file _) | some .symlink => (false, tree)

/-- `create_dir_all`. -/
def createDirAll (tree : Tree) (location : Location) : Bool × Tree :=
  makeDirs tree location.inits

/-- `fs::write`, into a directory. -/
def write (tree : Tree) (location : Location) (bytes : List UInt8) : Option Tree :=
  if node tree location = some .directory then none
  else if node tree location.dropLast = some .directory then some (put tree location (.file bytes))
  else none

/-- May `source` be renamed to a `target` that stands there?  A directory may take the place
of an empty one, and a file that of a file. -/
def replaces (source : Node) (target : Option Node) (empty : Bool) : Bool :=
  match target, source with
  | none, _ => true
  | some .directory, .directory => empty
  | some .directory, _ | some _, .directory => false
  | some _, _ => true

/-- `fs::rename`. -/
def rename (tree : Tree) (source target : Location) : Option Tree :=
  match node tree source with
  | none => none
  | some found =>
      if source = target then some tree
      else if source <+: target ∨ target <+: source then none
      else if node tree target.dropLast ≠ some .directory then none
      else if replaces found (node tree target) ((below tree target).length ≤ 1) then
        some (move tree source target)
      else none

/-- One entry of a walk, copied below `target`. -/
def copyEntry (tree : Tree) (target : Location) (entry : Location × Node) : Bool × Tree :=
  match entry.2 with
  | .symlink => (false, tree)
  | .directory => createDirAll tree (target ++ entry.1)
  | .file bytes =>
      let parents := createDirAll tree (target ++ entry.1).dropLast
      if parents.1 then
        match write parents.2 (target ++ entry.1) bytes with
        | some after => (true, after)
        | none => (false, parents.2)
      else parents

/-- The entries of a walk, one after the other. -/
def copyAll : Tree → (target : Location) → List (Location × Node) → Bool × Tree
  | tree, _, [] => (true, tree)
  | tree, target, entry :: entries =>
      let copied := copyEntry tree target entry
      if copied.1 then copyAll copied.2 target entries else copied

/-! ## What the calls change -/

theorem makeDirs_below {locations : List Location} (apart : ∀ q ∈ locations, ¬p <+: q) :
    below (makeDirs tree locations).2 p = below tree p := by
  induction locations generalizing tree with
  | nil => rfl
  | cons location rest ih =>
      have later : ∀ tree, below (makeDirs tree rest).2 p = below tree p := fun _ =>
        ih fun q member => apart q (List.mem_cons_of_mem location member)
      rw [makeDirs]
      split
      · exact later tree
      · rw [later, below_put (apart location List.mem_cons_self)]
      · rfl
      · rfl

theorem makeDirs_directory {locations : List Location} (there : node tree p = some .directory) :
    node (makeDirs tree locations).2 p = some .directory := by
  induction locations generalizing tree with
  | nil => exact there
  | cons location rest ih =>
      rw [makeDirs]
      split
      · exact ih there
      · apply ih
        by_cases here : p = location
        · rw [here, node_put]
        · rw [node_put_other here, there]
      · exact there
      · exact there

theorem makeDirs_made {locations : List Location} (made : (makeDirs tree locations).1 = true) :
    ∀ q ∈ locations, node (makeDirs tree locations).2 q = some .directory := by
  induction locations generalizing tree with
  | nil => exact nofun
  | cons location rest ih =>
      intro q member
      rw [makeDirs] at made ⊢
      split
      · rename_i there
        rw [there] at made
        obtain rfl | member := List.mem_cons.1 member
        · exact makeDirs_directory there
        · exact ih made q member
      · rename_i absent
        rw [absent] at made
        obtain rfl | member := List.mem_cons.1 member
        · exact makeDirs_directory (node_put tree q .directory)
        · exact ih made q member
      · rename_i file
        rw [file] at made
        cases made
      · rename_i link
        rw [link] at made
        cases made

/-- Where all of them are directories nothing is made. -/
theorem makeDirs_there {locations : List Location}
    (there : ∀ q ∈ locations, node tree q = some .directory) :
    makeDirs tree locations = (true, tree) := by
  induction locations with
  | nil => rfl
  | cons location rest ih =>
      rw [makeDirs, there location List.mem_cons_self]
      exact ih fun q member => there q (List.mem_cons_of_mem location member)

theorem createDirAll_below (apart : ¬p <+: location) :
    below (createDirAll tree location).2 p = below tree p :=
  makeDirs_below fun q member above =>
    apart (above.trans ((List.mem_inits q location).1 member))

theorem createDirAll_made (made : (createDirAll tree location).1 = true) (above : p <+: location) :
    node (createDirAll tree location).2 p = some .directory :=
  makeDirs_made made p ((List.mem_inits p location).2 above)

theorem write_below {bytes : List UInt8} (wrote : write tree location bytes = some after)
    (apart : ¬p <+: location) : below after p = below tree p := by
  rw [write] at wrote
  split at wrote
  · cases wrote
  · split at wrote
    · cases wrote
      exact below_put apart
    · cases wrote

theorem write_node {bytes : List UInt8} (wrote : write tree location bytes = some after)
    (other : p ≠ location) : node after p = node tree p := by
  rw [write] at wrote
  split at wrote
  · cases wrote
  · split at wrote
    · cases wrote
      exact node_put_other other
    · cases wrote

theorem write_there {bytes : List UInt8} (wrote : write tree location bytes = some after) :
    node after location = some (.file bytes) := by
  rw [write] at wrote
  split at wrote
  · cases wrote
  · split at wrote
    · cases wrote
      exact node_put tree location (.file bytes)
    · cases wrote

theorem rename_below {source target : Location} (renamed : rename tree source target = some after)
    (fromSource : Apart p source) (fromTarget : Apart p target) :
    below after p = below tree p := by
  rw [rename] at renamed
  split at renamed
  · cases renamed
  · split at renamed
    · cases renamed
      rfl
    · split at renamed
      · cases renamed
      · split at renamed
        · cases renamed
        · split at renamed
          · cases renamed
            exact below_move fromSource fromTarget
          · cases renamed

theorem rename_node {source target : Location} (renamed : rename tree source target = some after)
    (fromSource : ¬source <+: p) (fromTarget : ¬target <+: p) : node after p = node tree p := by
  rw [rename] at renamed
  split at renamed
  · cases renamed
  · split at renamed
    · cases renamed
      rfl
    · split at renamed
      · cases renamed
      · split at renamed
        · cases renamed
        · split at renamed
          · cases renamed
            exact node_move fromSource fromTarget
          · cases renamed

theorem rename_target {source target : Location} (renamed : rename tree source target = some after)
    (apart : Apart source target) : after = move tree source target := by
  have different : source ≠ target := by
    rintro rfl
    exact apart.1 (List.prefix_refl source)
  rw [rename] at renamed
  split at renamed
  · cases renamed
  · rw [if_neg different, if_neg (not_or.2 apart)] at renamed
    split at renamed
    · cases renamed
    · split at renamed
      · cases renamed
        rfl
      · cases renamed

/-- A directory moves to where nothing stands. -/
theorem rename_free {source target : Location} (apart : Apart source target)
    (there : node tree source ≠ none) (free : node tree target = none)
    (parent : node tree target.dropLast = some .directory) :
    rename tree source target = some (move tree source target) := by
  have different : source ≠ target := by
    rintro rfl
    exact apart.1 (List.prefix_refl source)
  obtain ⟨found, here⟩ := Option.ne_none_iff_exists'.1 there
  rw [rename, here]
  dsimp only
  rw [if_neg different, if_neg (not_or.2 apart), if_neg (not_not.2 parent), free]
  rfl

theorem copyEntry_below {target : Location} {entry : Location × Node} (apart : Apart p target) :
    below (copyEntry tree target entry).2 p = below tree p := by
  have away : ¬p <+: target ++ entry.1 := (apart.append entry.1).1
  have parent : ¬p <+: (target ++ entry.1).dropLast := fun above =>
    away (above.trans (List.dropLast_prefix _))
  rw [copyEntry]
  split
  · rfl
  · exact createDirAll_below away
  · dsimp only
    split
    · split
      · rename_i wrote
        rw [write_below wrote away, createDirAll_below parent]
      · exact createDirAll_below parent
    · exact createDirAll_below parent

/-- Copying leaves the directories that are there. -/
theorem copyEntry_directory {target : Location} {entry : Location × Node}
    (there : node tree p = some .directory) :
    node (copyEntry tree target entry).2 p = some .directory := by
  rw [copyEntry]
  split
  · exact there
  · exact makeDirs_directory there
  · have parents : node (createDirAll tree (target ++ entry.1).dropLast).2 p = some .directory :=
      makeDirs_directory there
    dsimp only
    split
    · split
      · rename_i wrote
        rw [write_node wrote]
        · exact parents
        · rintro rfl
          rw [write, if_pos parents] at wrote
          cases wrote
      · exact parents
    · exact parents

theorem copyAll_directory {target : Location} {entries : List (Location × Node)}
    (there : node tree p = some .directory) :
    node (copyAll tree target entries).2 p = some .directory := by
  induction entries generalizing tree with
  | nil => exact there
  | cons entry entries ih =>
      rw [copyAll]
      split
      · exact ih (copyEntry_directory there)
      · exact copyEntry_directory there

theorem copyAll_frame {target : Location} {entries : List (Location × Node)}
    (apart : Apart p target) : below (copyAll tree target entries).2 p = below tree p := by
  induction entries generalizing tree with
  | nil => rfl
  | cons entry entries ih =>
      rw [copyAll]
      split
      · rw [ih, copyEntry_below apart]
      · exact copyEntry_below apart

/-! ## A copied directory -/

/-- Each entry comes once, and behind the directories it stands in. -/
def Walk : (done : Tree) → List (Location × Node) → Prop
  | _, [] => True
  | done, entry :: entries =>
      node done entry.1 = none ∧
        (∀ above, above <+: entry.1 → above ≠ entry.1 → node done above = some .directory) ∧
        Walk (done ++ [entry]) entries

theorem below_put_target {new : Node} {target rest : Location}
    (absent : node tree (target ++ rest) = none) :
    below (put tree (target ++ rest) new) target = below tree target ++ [(rest, new)] := by
  have seen : seenFrom target (target ++ rest, new) = some (rest, new) := by
    rw [seenFrom_some (List.prefix_append target rest), List.drop_left]
  rw [put_absent absent, below_append]
  simp [below, seen]

theorem makeDirs_walked {target : Location} {locations : List Location}
    (known : ∀ q ∈ locations, target <+: q → node tree q = some .directory) :
    below (makeDirs tree locations).2 target = below tree target := by
  induction locations generalizing tree with
  | nil => rfl
  | cons location rest ih =>
      have later := fun q member => known q (List.mem_cons_of_mem location member)
      rw [makeDirs]
      split
      · exact ih later
      · rename_i absent
        have away : ¬target <+: location := fun above => by
          rw [known location List.mem_cons_self above] at absent
          cases absent
        rw [ih, below_put away]
        intro q member above
        have other : q ≠ location := by
          rintro rfl
          exact away above
        rw [node_put_other other]
        exact later q member above
      · rfl
      · rfl

theorem makeDirs_append (tree : Tree) (before behind : List Location) :
    makeDirs tree (before ++ behind) =
      if (makeDirs tree before).1 then makeDirs (makeDirs tree before).2 behind
      else makeDirs tree before := by
  induction before generalizing tree with
  | nil => rfl
  | cons location before ih =>
      rw [List.cons_append, makeDirs, makeDirs]
      split
      · exact ih tree
      · exact ih _
      · rfl
      · rfl

theorem inits_last (location : Location) : ∃ before, location.inits = before ++ [location] ∧
    ∀ q ∈ before, q <+: location ∧ q ≠ location := by
  obtain rfl | ⟨above, name, rfl⟩ := List.eq_nil_or_concat location
  · exact ⟨[], rfl, nofun⟩
  · rw [List.concat_eq_append]
    refine ⟨above.inits, by simp [List.inits_append], fun q member => ?_⟩
    have prefixed := (List.mem_inits q above).1 member
    refine ⟨prefixed.trans (List.prefix_append above [name]), ?_⟩
    rintro rfl
    have shorter := prefixed.length_le
    rw [List.length_append, List.length_singleton] at shorter
    omega

/-- The directories above an entry are there, so copying it adds the entry alone. -/
theorem copyEntry_target {target : Location} {entry : Location × Node} (proper : target ≠ [])
    (absent : node (below tree target) entry.1 = none)
    (above : ∀ above, above <+: entry.1 → above ≠ entry.1 →
      node (below tree target) above = some .directory)
    (copied : (copyEntry tree target entry).1 = true) :
    below (copyEntry tree target entry).2 target = below tree target ++ [entry] := by
  obtain ⟨rest, new⟩ := entry
  dsimp only at absent above
  have known : ∀ q, q <+: target ++ rest → q ≠ target ++ rest → target <+: q →
      node tree q = some .directory := by
    rintro q under other ⟨behind, rfl⟩
    have here := above behind (List.prefix_append_right_inj target |>.1 under)
      (fun same => other (by rw [same]))
    rwa [node_below] at here
  have added : ∀ {tree' : Tree}, below tree' target = below tree target →
      below (put tree' (target ++ rest) new) target = below tree target ++ [(rest, new)] := by
    intro tree' same
    rw [below_put_target (by rw [← node_below, same, absent]), same]
  cases new with
  | symlink => cases copied
  | directory =>
      obtain ⟨before, split, proper⟩ := inits_last (target ++ rest)
      have same : below (makeDirs tree before).2 target = below tree target :=
        makeDirs_walked fun q member => known q (proper q member).1 (proper q member).2
      have free : node (makeDirs tree before).2 (target ++ rest) = none := by
        rw [← node_below, same, absent]
      simp only [copyEntry, createDirAll, split, makeDirs_append] at copied ⊢
      split at copied
      · rename_i made
        rw [if_pos made, makeDirs, free]
        exact added same
      · rename_i failed
        exact absurd copied failed
  | file bytes =>
      have same : below (createDirAll tree (target ++ rest).dropLast).2 target =
          below tree target := by
        apply makeDirs_walked
        intro q member under
        have prefixed := (List.mem_inits q _).1 member
        apply known q (prefixed.trans (List.dropLast_prefix _)) _ under
        rintro rfl
        have shorter := prefixed.length_le
        have longer : 0 < target.length := List.length_pos_iff.2 proper
        simp only [List.length_dropLast, List.length_append] at shorter
        omega
      simp only [copyEntry] at copied ⊢
      split at copied
      · rename_i made
        rw [if_pos made]
        split at copied
        · rename_i wrote
          rw [write] at wrote
          split at wrote
          · cases wrote
          · split at wrote
            · cases wrote
              exact added same
            · cases wrote
        · cases copied
      · rename_i failed
        exact absurd copied failed

/-- **A directory copied to where nothing stands is the same there.** -/
theorem copyAll_below {target : Location} {entries : List (Location × Node)}
    (proper : target ≠ []) (walk : Walk (below tree target) entries)
    (copied : (copyAll tree target entries).1 = true) :
    below (copyAll tree target entries).2 target = below tree target ++ entries := by
  induction entries generalizing tree with
  | nil => exact (List.append_nil _).symm
  | cons entry entries ih =>
      obtain ⟨absent, above, rest⟩ := walk
      rw [copyAll] at copied ⊢
      split at copied
      · rename_i done
        have here := copyEntry_target proper absent above done
        rw [if_pos done, ih (here ▸ rest) copied, here, List.append_assoc]
        rfl
      · rename_i failed
        exact absurd copied failed

end Openyak.Theory.DirTree
