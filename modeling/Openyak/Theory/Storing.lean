/-
# Theory.Storing -- making the directories of a path, and a file at its end

`store` makes the directories that are missing on the way of a path and writes a file
there.  For a path whose beginning leads to a directory, and of which only names remain,
`staysInside_iff` says exactly when that changes nothing outside of a root the path is
written under: the path is no link that leads out of the root (`LeadsOut`), and no
directory above the root is made on the way (`RootThere`).
-/
import Openyak.Theory.Files

namespace Openyak.Theory.Posix

set_option autoImplicit false

namespace FileSystem

/-- Where a write on a path lands: at a file, or at a name missing in a directory. -/
def writePlace (fs : FileSystem) (here : Location) (path : List Component) : Option Location :=
  match fs.resolve here path with
  | .found location =>
      match fs.entry location with
      | some (.file _) => some location
      | _ => none
  | .absent directory [.name name] => some (directory ++ [name])
  | _ => none

/-- The tree after the directories above a path are made and a file is written there. -/
def store (fs : FileSystem) (here : Location) (path : List Component) (text : List Char) :
    FileSystem :=
  let parents := fs.createDirAll here path.dropLast
  if parents.ok then
    match parents.fs.write here path text with
    | some (after, _) => after
    | none => parents.fs
  else parents.fs

/-- Storing a file there changes nothing outside of the root. -/
def StaysInside (fs : FileSystem) (here root : Location) (path : List Component) : Prop :=
  ∀ text location, (fs.store here path text).entry location ≠ fs.entry location →
    root <+: location

/-- The path ends at a link, in a directory, and a write goes through it out of the root. -/
def LeadsOut (fs : FileSystem) (here root : Location) (path : List Component) : Prop :=
  ∃ above name directory target place, path = above ++ [.name name] ∧
    fs.resolve here above = .found directory ∧
    fs.entry (directory ++ [name]) = some (.symlink target) ∧
    fs.writePlace here path = some place ∧ ¬root <+: place

/-- No directory above the root is missing in the directory where it would stand. -/
def RootThere (fs : FileSystem) (root : Location) : Prop :=
  ∀ above name, above ++ [name] <+: root → above ++ [name] ≠ root →
    fs.entry above = some .directory → fs.entry (above ++ [name]) ≠ none

section Storing

variable {fs : FileSystem} {here root directory : Location} {path before : List Component}

theorem append_ofLocation (before : List Component) (names : Location) (last : Name) :
    before ++ ofLocation (names ++ [last]) = before ++ ofLocation names ++ [.name last] := by
  simp [ofLocation]

theorem dropLast_ofLocation (before : List Component) (names : Location) (last : Name) :
    (before ++ ofLocation (names ++ [last])).dropLast = before ++ ofLocation names := by
  rw [append_ofLocation, List.dropLast_concat]

/-! ## One write -/

theorem write_writePlace {text : List Char} {after : FileSystem} {place : Location}
    (writes : fs.write here path text = some (after, place)) :
    fs.writePlace here path = some place := by
  unfold write at writes
  unfold writePlace
  split at writes
  · rename_i location resolved
    rw [resolved]
    split at writes
    · rename_i text stands
      cases writes
      simp only [stands]
    all_goals cases writes
  · rename_i found name resolved
    rw [resolved]
    split at writes
    · split at writes
      · cases writes
        rfl
      · cases writes
    · cases writes
  all_goals cases writes

theorem write_found {location : Location} {held : Option (List Char)}
    (resolved : fs.resolve here path = .found location)
    (stands : fs.entry location = some (.file held)) (text : List Char) :
    fs.write here path text = some (fs.overwrite location text ⟨held, stands⟩, location) := by
  unfold write
  rw [resolved]
  dsimp only
  split
  · rfl
  all_goals
    rename_i other
    cases stands.symm.trans other

theorem write_absent {name : Name} (resolved : fs.resolve here path = .absent directory [.name name])
    (inDirectory : fs.entry directory = some .directory)
    (free : fs.entry (directory ++ [name]) = none) (text : List Char) :
    fs.write here path text =
      some (fs.create directory name (.file (some text)) inDirectory free, directory ++ [name]) := by
  unfold write
  rw [resolved]
  dsimp only
  rw [dif_pos inDirectory, dif_pos free]

/-- A write lands where it can, and leaves its text there. -/
theorem write_of_writePlace (settled : fs.Settled here) {place : Location}
    (lands : fs.writePlace here path = some place) (text : List Char) :
    ∃ after, fs.write here path text = some (after, place) ∧
      after.entry place = some (.file (some text)) := by
  have truthful : fs.Truthful (fs.resolve here path) := walk_truthful fs.linkDepth settled path
  unfold writePlace at lands
  split at lands
  · rename_i location resolved
    split at lands
    · rename_i held stands
      cases lands
      exact ⟨_, write_found resolved stands text, Function.update_self ..⟩
    · cases lands
  · rename_i found name resolved
    cases lands
    rw [resolved] at truthful
    obtain ⟨inDirectory, _, _, isName, free⟩ := truthful
    cases isName
    exact ⟨_, write_absent resolved inDirectory free text, create_entry inDirectory free⟩
  · cases lands

/-! ## The directories above -/

/-- Where the directories above are made, or nothing is missing there, only the place the
write lands changes. -/
theorem store_present {text : List Char} {location : Location}
    (present : ∀ found rest, fs.resolve here path.dropLast ≠ .absent found rest)
    (differs : (fs.store here path text).entry location ≠ fs.entry location) :
    fs.writePlace here path = some location := by
  obtain ⟨ok, made, -⟩ := createDirAll_still present
  unfold store at differs
  rw [made] at differs
  dsimp only at differs
  split at differs
  · split at differs
    · rename_i after place writes
      by_cases here_ : location = place
      · exact here_ ▸ write_writePlace writes
      · exact absurd (write_frame writes here_) differs
    · exact absurd rfl differs
  · exact absurd rfl differs

/-- A name behind a path that leads to a directory. -/
theorem resolve_snoc (walks : fs.resolve here before = .found directory) (names : Location) :
    fs.resolve here (before ++ ofLocation names) = fs.resolve directory (ofLocation names) := by
  rw [resolve_append, walks]
  rfl

/-- **The missing names of a path become directories, one in the other.** -/
theorem createDirAll_names (walks : fs.resolve here before = .found directory)
    (inDirectory : fs.entry directory = some .directory) {name : Name}
    (free : fs.entry (directory ++ [name]) = none) (rest : Location) :
    let result := fs.createDirAll here (before ++ ofLocation (name :: rest))
    result.ok = true ∧ (∀ location ∈ result.made, directory ++ [name] <+: location) ∧
      result.fs.resolve here (before ++ ofLocation (name :: rest)) =
        .found (directory ++ name :: rest) ∧
      result.fs.entry (directory ++ name :: rest) = some .directory ∧
      ∀ child, result.fs.entry (directory ++ name :: rest ++ [child]) = none := by
  induction rest using List.reverseRecOn with
  | nil =>
      obtain ⟨leads, stands, empty⟩ := found_created walks inDirectory free
      have makes : fs.mkdir here before (.name name) =
          .ok (fs.create directory name .directory inDirectory free, directory ++ [name]) := by
        unfold mkdir
        rw [walks]
        dsimp only
        rw [dif_pos inDirectory, dif_pos free]
      have result : fs.createDirAll here (before ++ ofLocation [name]) =
          ⟨fs.create directory name .directory inDirectory free, [directory ++ [name]], true⟩ := by
        show createDirAllFrom here (before ++ [Component.name name]).reverse fs = _
        rw [List.reverse_append, List.reverse_singleton, List.singleton_append, createDirAllFrom,
          List.reverse_reverse, makes]
      rw [result]
      exact ⟨rfl, fun location member => List.mem_singleton.1 member ▸ List.prefix_rfl, leads, stands,
        empty⟩
  | append_singleton rest last ih =>
      obtain ⟨ok, made, leads, stands, empty⟩ := ih
      have above : fs.resolve here (before ++ ofLocation (name :: rest)) =
          .absent directory (ofLocation (name :: rest)) := by
        have first : fs.resolve here (before ++ [.name name]) = .absent directory [.name name] := by
          rw [resolve_append, walks]
          exact (resolve_name inDirectory name).1 free
        have split : before ++ ofLocation (name :: rest) =
            before ++ [.name name] ++ ofLocation rest := by simp [ofLocation]
        rw [split, resolve_append, first]
        rfl
      generalize isParent : fs.createDirAll here (before ++ ofLocation (name :: rest)) = parent at *
      obtain ⟨walksLast, standsLast, emptyLast⟩ := found_created leads stands (empty last)
      have again : parent.fs.mkdir here (before ++ ofLocation (name :: rest)) (.name last) =
          .ok (parent.fs.create (directory ++ name :: rest) last .directory stands (empty last),
            directory ++ name :: rest ++ [last]) := by
        unfold mkdir
        rw [leads]
        dsimp only
        rw [dif_pos stands, dif_pos (empty last)]
      have missing : fs.mkdir here (before ++ ofLocation (name :: rest)) (.name last) =
          .error .notFound := by
        unfold mkdir
        rw [above]
      have longer : before ++ ofLocation (name :: (rest ++ [last])) =
          before ++ ofLocation (name :: rest) ++ [.name last] :=
        append_ofLocation before (name :: rest) last
      have result : fs.createDirAll here (before ++ ofLocation (name :: (rest ++ [last]))) =
          ⟨parent.fs.create (directory ++ name :: rest) last .directory stands (empty last),
            parent.made ++ [directory ++ name :: rest ++ [last]], true⟩ := by
        have same : createDirAllFrom here (before ++ ofLocation (name :: rest)).reverse fs = parent :=
          isParent
        rw [longer, createDirAll, List.reverse_append, List.reverse_singleton, List.singleton_append,
          createDirAllFrom, List.reverse_reverse, missing]
        dsimp only
        rw [same, if_pos ok, again]
      have flat : directory ++ name :: (rest ++ [last]) = directory ++ name :: rest ++ [last] := by
        simp
      rw [result, longer, flat]
      refine ⟨rfl, fun location member => ?_, walksLast, standsLast, emptyLast⟩
      rcases List.mem_append.1 member with earlier | isLast
      · exact made location earlier
      · rw [List.mem_singleton.1 isLast, List.append_assoc]
        exact (List.prefix_append_right_inj directory).2 ⟨rest ++ [last], rfl⟩

/-- **Behind a link that leads nowhere nothing is made.** -/
theorem createDirAll_link (walks : fs.resolve here before = .found directory)
    (inDirectory : fs.entry directory = some .directory) {name : Name}
    (taken : fs.entry (directory ++ [name]) ≠ none)
    (missing : ∀ location, fs.resolve directory [.name name] ≠ .found location) (rest : Location) :
    fs.createDirAll here (before ++ ofLocation (name :: rest)) = ⟨fs, [], false⟩ := by
  have nowhere : ∀ rest location,
      fs.resolve here (before ++ ofLocation (name :: rest)) ≠ .found location := by
    intro rest location leads
    have split : before ++ ofLocation (name :: rest) =
        before ++ ([.name name] ++ ofLocation rest) := by simp [ofLocation]
    rw [split, resolve_append, walks] at leads
    change fs.resolve directory ([.name name] ++ ofLocation rest) = .found location at leads
    rw [resolve_append] at leads
    cases entered : fs.resolve directory [.name name] with
    | found next => exact missing next entered
    | absent found left =>
        rw [entered] at leads
        cases leads
    | blocked =>
        rw [entered] at leads
        cases leads
  have notDirectory : ∀ rest,
      fs.isDirectory here (before ++ ofLocation (name :: rest)) = false := by
    intro rest
    unfold isDirectory canonicalize
    cases leads : fs.resolve here (before ++ ofLocation (name :: rest)) with
    | found location => exact absurd leads (nowhere rest location)
    | absent found left => rfl
    | blocked => rfl
  induction rest using List.reverseRecOn with
  | nil =>
      have refuses : fs.mkdir here before (.name name) = .error .alreadyExists := by
        unfold mkdir
        rw [walks]
        dsimp only
        rw [dif_pos inDirectory, dif_neg taken]
      have isNot : fs.isDirectory here (before ++ [.name name]) = false := notDirectory []
      show createDirAllFrom here (before ++ [Component.name name]).reverse fs = _
      rw [List.reverse_append, List.reverse_singleton, List.singleton_append, createDirAllFrom,
        List.reverse_reverse, refuses]
      dsimp only
      rw [isNot]
  | append_singleton rest last ih =>
      have longer : before ++ ofLocation (name :: (rest ++ [last])) =
          before ++ ofLocation (name :: rest) ++ [.name last] :=
        append_ofLocation before (name :: rest) last
      have isNot : fs.isDirectory here (before ++ ofLocation (name :: rest) ++ [.name last]) = false := by
        rw [← longer]
        exact notDirectory (rest ++ [last])
      have parent : createDirAllFrom here (before ++ ofLocation (name :: rest)).reverse fs =
          ⟨fs, [], false⟩ := ih
      rw [longer, createDirAll, List.reverse_append, List.reverse_singleton, List.singleton_append,
        createDirAllFrom, List.reverse_reverse]
      have refuses : ∃ error, fs.mkdir here (before ++ ofLocation (name :: rest)) (.name last) =
          .error error := by
        unfold mkdir
        cases leads : fs.resolve here (before ++ ofLocation (name :: rest)) with
        | found location => exact absurd leads (nowhere rest location)
        | absent found left => exact ⟨_, rfl⟩
        | blocked => exact ⟨_, rfl⟩
      obtain ⟨error, refuses⟩ := refuses
      rw [refuses]
      cases error with
      | notFound =>
          dsimp only
          rw [parent]
          rfl
      | alreadyExists =>
          dsimp only
          rw [isNot]
      | other =>
          dsimp only
          rw [isNot]

/-! ## Inside and outside -/

/-- **Through a link out of the root something is changed there.** -/
theorem not_staysInside_of_leadsOut (settled : fs.Settled here) (out : fs.LeadsOut here root path) :
    ¬fs.StaysInside here root path := by
  obtain ⟨above, name, found, target, place, rfl, walks, link, lands, outside⟩ := out
  intro stays
  have inDirectory : fs.entry found = some .directory := fs.parents found name (by rw [link]; nofun)
  have parents : fs.createDirAll here above = ⟨fs, [], true⟩ := by
    by_cases empty : above = []
    · subst empty
      rfl
    · have isDirectory_ : fs.isDirectory here above = true := by
        rw [isDirectory, canonicalize, walks]
        simp [inDirectory]
      have present : ∀ other rest, fs.resolve here above ≠ .absent other rest :=
        fun other rest absent => nomatch walks.symm.trans absent
      rw [createDirAll_present empty present, isDirectory_]
  -- a text other than the one that may stand there
  obtain ⟨text, other⟩ : ∃ text, fs.entry place ≠ some (.file (some text)) := by
    by_cases blank : fs.entry place = some (.file (some []))
    · exact ⟨[' '], by rw [blank]; simp⟩
    · exact ⟨[], blank⟩
  obtain ⟨after, writes, stands⟩ := write_of_writePlace settled lands text
  have stored : fs.store here (above ++ [.name name]) text = after := by
    unfold store
    rw [List.dropLast_concat, parents]
    simp only [if_true, writes]
  refine outside (stays text place ?_)
  rw [stored, stands]
  exact Ne.symm other

/-- What `store` changes where names are missing is below the first of them; and that is
made. -/
theorem store_names (walks : fs.resolve here before = .found directory)
    (inDirectory : fs.entry directory = some .directory) {name : Name}
    (free : fs.entry (directory ++ [name]) = none) (rest : Location) (last : Name)
    (text : List Char) :
    let after := fs.store here (before ++ ofLocation (name :: rest ++ [last])) text
    (∀ location, after.entry location ≠ fs.entry location → directory ++ [name] <+: location) ∧
      after.entry (directory ++ [name]) ≠ none := by
  obtain ⟨ok, made, leads, stands, empty⟩ := createDirAll_names walks inDirectory free rest
  have parent := dropLast_ofLocation before (name :: rest) last
  have frame : ∀ location,
      (fs.createDirAll here (before ++ ofLocation (name :: rest))).fs.entry location ≠
        fs.entry location → directory ++ [name] <+: location := by
    intro location differs
    by_contra outside
    exact differs (createDirAll_frame fun member => outside (made location member))
  have first : (fs.createDirAll here (before ++ ofLocation (name :: rest))).fs.entry
      (directory ++ [name]) ≠ none := by
    by_cases alone : rest = []
    · subst alone
      rw [stands]
      nofun
    · have split : directory ++ name :: rest = directory ++ [name] ++ rest := by simp
      rw [split] at stands
      rw [directory_above alone (by rw [stands]; nofun)]
      nofun
  intro after
  have isAfter : after = fs.store here (before ++ ofLocation (name :: rest ++ [last])) text := rfl
  unfold store at isAfter
  rw [parent] at isAfter
  generalize fs.createDirAll here (before ++ ofLocation (name :: rest)) = parents at *
  rw [if_pos ok] at isAfter
  cases writes : parents.fs.write here (before ++ ofLocation (name :: rest ++ [last])) text with
  | none =>
      rw [writes] at isAfter
      rw [isAfter]
      exact ⟨frame, first⟩
  | some result =>
      obtain ⟨written, place⟩ := result
      rw [writes] at isAfter
      have isPlace : place = directory ++ name :: rest ++ [last] := by
        have absent : parents.fs.resolve here (before ++ ofLocation (name :: rest ++ [last])) =
            .absent (directory ++ name :: rest) [.name last] := by
          rw [append_ofLocation, resolve_append, leads]
          exact (resolve_name stands last).1 (empty last)
        have lands := write_writePlace writes
        rw [writePlace, absent] at lands
        exact (Option.some.inj lands).symm
      have below : directory ++ [name] <+: place := by
        rw [isPlace]
        exact ⟨rest ++ [last], by simp⟩
      rw [isAfter]
      refine ⟨fun location differs => ?_, ?_⟩
      · by_cases here_ : location = place
        · exact here_ ▸ below
        · rw [write_frame writes here_] at differs
          exact frame location differs
      · by_cases here_ : directory ++ [name] = place
        · have lengths := congrArg List.length (here_.trans isPlace)
          simp at lengths
        · rw [write_frame writes here_]
          exact first

/-- The root is there when something settled stands below it. -/
theorem rootThere_of_settled (settled : fs.Settled root) : fs.RootThere root := by
  rintro above name ⟨rest, rfl⟩ - - free
  obtain ⟨entry, stands, -⟩ := settled
  by_cases empty : rest = []
  · rw [empty, List.append_nil, free] at stands
    cases stands
  · have isDirectory := directory_above empty (by rw [stands]; nofun)
    rw [free] at isDirectory
    cases isDirectory

theorem resolve_blocked (notDirectory : fs.entry directory ≠ some .directory) (component : Component)
    (rest : List Component) : fs.resolve directory (component :: rest) = .blocked := by
  obtain ⟨follow, same⟩ := fs.walk_eq fs.linkDepth
  unfold resolve
  rw [same, walkWith, if_neg notDirectory]

/-- A name behind a path that leads to a directory: a write lands there, or goes through a
link. -/
theorem writePlace_name (walks : fs.resolve here before = .found directory) {name : Name}
    {place : Location} (lands : fs.writePlace here (before ++ [.name name]) = some place) :
    place = directory ++ [name] ∨
      ∃ target, fs.entry (directory ++ [name]) = some (.symlink target) := by
  have leads : fs.resolve here (before ++ [.name name]) = fs.resolve directory [.name name] :=
    resolve_snoc walks [name]
  by_cases inDirectory : fs.entry directory = some .directory
  · rw [writePlace, leads] at lands
    cases stands : fs.entry (directory ++ [name]) with
    | none =>
        rw [(resolve_name inDirectory name).1 stands] at lands
        exact Or.inl (Option.some.inj lands).symm
    | some entry =>
        cases entry with
        | directory =>
            rw [(resolve_name inDirectory name).2 stands] at lands
            simp only [stands] at lands
            cases lands
        | file text =>
            have found : fs.resolve directory [.name name] = .found (directory ++ [name]) :=
              fs.walk_ofLocation fs.linkDepth directory [name] ⟨_, stands, nofun⟩
            rw [found] at lands
            simp only [stands] at lands
            exact Or.inl (Option.some.inj lands).symm
        | symlink target => exact Or.inr ⟨target, rfl⟩
  · rw [writePlace, leads, resolve_blocked inDirectory] at lands
    cases lands

/-- A root that is there, above a place where names are missing, ends at the first of them
at the latest. -/
theorem RootThere.above_first (there : fs.RootThere root) {names : Location}
    (inDirectory : fs.entry directory = some .directory) {name : Name}
    (free : fs.entry (directory ++ [name]) = none)
    (below : root <+: directory ++ name :: names) : root <+: directory ++ [name] := by
  have first : directory ++ [name] <+: directory ++ name :: names := ⟨names, by simp⟩
  rcases Nat.le_total root.length (directory ++ [name]).length with short | long
  · exact List.prefix_of_prefix_length_le below first short
  · have isAbove := List.prefix_of_prefix_length_le first below long
    by_contra apart
    refine there directory name isAbove (fun same => apart ?_) inDirectory free
    rw [same]

/-- A directory above the root that is missing is made on the way. -/
theorem outside_of_missing (walks : fs.resolve here before = .found directory)
    (standsThere : fs.Settled directory) {names : Location} (below : root <+: directory ++ names)
    (missing : ∀ name next rest, names = name :: next :: rest →
      ∀ location, fs.resolve directory [.name name] ≠ .found location)
    (stays : fs.StaysInside here root (before ++ ofLocation names)) {above : Location} {name : Name}
    (isAbove : above ++ [name] <+: root) (apart : above ++ [name] ≠ root)
    (inDirectory : fs.entry above = some .directory) (free : fs.entry (above ++ [name]) = none) :
    False := by
  -- the missing name stands among those the path is left with
  obtain ⟨between, rest, rfl, rfl⟩ : ∃ between rest, above = directory ++ between ∧
      names = between ++ name :: rest := by
    have isPlace := isAbove.trans below
    have isDirectory : directory <+: directory ++ names := List.prefix_append ..
    rcases Nat.lt_or_ge directory.length (above ++ [name]).length with short | long
    · have under : directory <+: above := by
        have within := List.prefix_of_prefix_length_le isDirectory isPlace (Nat.le_of_lt short)
        refine (List.prefix_concat_iff.1 within).resolve_left fun same => ?_
        rw [same] at short
        omega
      obtain ⟨between, rfl⟩ := under
      obtain ⟨rest, same⟩ := isPlace
      refine ⟨between, rest, rfl, List.append_cancel_left (Eq.trans same.symm ?_)⟩
      simp
    · have inside := List.prefix_of_prefix_length_le isPlace isDirectory long
      by_cases same : above ++ [name] = directory
      · obtain ⟨entry, stands, -⟩ := standsThere
        rw [← same, free] at stands
        cases stands
      · exact absurd free (rootThere_of_settled standsThere above name inside same inDirectory)
  cases between with
  | nil =>
      rw [List.append_nil] at isAbove apart inDirectory free
      have some_ : rest ≠ [] := by
        rintro rfl
        exact apart (isAbove.eq_of_length_le below.length_le)
      obtain ⟨middle, last, split⟩ := (List.eq_nil_or_concat rest).resolve_left some_
      rw [List.concat_eq_append] at split
      have isPath : [] ++ name :: rest = name :: middle ++ [last] := by rw [split]; rfl
      rw [isPath] at stays
      have made := (store_names walks inDirectory free middle last []).2
      have reaches := stays [] (directory ++ [name]) (by rw [free]; exact made)
      exact apart (isAbove.eq_of_length_le reaches.length_le)
  | cons first between =>
      have isDirectory : fs.entry (directory ++ [first]) = some .directory := by
        by_cases alone : between = []
        · subst alone
          exact inDirectory
        · have split : directory ++ first :: between = directory ++ [first] ++ between := by simp
          rw [split] at inDirectory
          exact directory_above alone (by rw [inDirectory]; nofun)
      have base := fs.parents directory first (by rw [isDirectory]; nofun)
      have found := (resolve_name base first).2 isDirectory
      cases between with
      | nil => exact missing first name rest rfl _ found
      | cons second between => exact missing first second _ rfl _ found

/-- **Storing a file below the root stays inside it exactly if** its path is no link that
leads out, and no directory above the root is made. -/
theorem staysInside_iff (settled : fs.Settled here)
    (walks : fs.resolve here before = .found directory) {names : Location}
    (below : root <+: directory ++ names)
    (missing : ∀ name next rest, names = name :: next :: rest →
      ∀ location, fs.resolve directory [.name name] ≠ .found location) :
    fs.StaysInside here root (before ++ ofLocation names) ↔
      ¬fs.LeadsOut here root (before ++ ofLocation names) ∧ fs.RootThere root := by
  have standsThere : fs.Settled directory := by
    have truthful := walk_truthful fs.linkDepth settled before
    rw [show fs.walk _ _ _ = .found directory from walks] at truthful
    exact truthful
  constructor
  · intro stays
    refine ⟨fun out => not_staysInside_of_leadsOut settled out stays, ?_⟩
    intro above name isAbove apart inDirectory free
    exact outside_of_missing walks standsThere below missing stays isAbove apart inDirectory free
  · rintro ⟨noLink, there⟩ text location differs
    rcases names with _ | ⟨name, _ | ⟨next, rest⟩⟩
    · have present : ∀ found rest, fs.resolve here (before ++ ofLocation []).dropLast ≠
          .absent found rest := by
        intro found rest absent
        rw [ofLocation, List.map_nil, List.append_nil] at absent
        by_cases empty : before = []
        · subst empty
          cases (fs.walk_nil fs.linkDepth here).symm.trans absent
        · rw [← List.dropLast_append_getLast empty, resolve_append, absent] at walks
          cases walks
      have lands := store_present present differs
      rw [ofLocation, List.map_nil, List.append_nil, writePlace, walks] at lands
      rw [List.append_nil] at below
      cases stands : fs.entry directory with
      | none =>
          simp only [stands] at lands
          cases lands
      | some entry =>
          cases entry with
          | file text =>
              simp only [stands] at lands
              exact Option.some.inj lands ▸ below
          | directory =>
              simp only [stands] at lands
              cases lands
          | symlink target =>
              simp only [stands] at lands
              cases lands
    · have dropped : (before ++ ofLocation [name]).dropLast = before := List.dropLast_concat
      have present : ∀ found rest, fs.resolve here (before ++ ofLocation [name]).dropLast ≠
          .absent found rest := by
        intro found rest absent
        rw [dropped, walks] at absent
        cases absent
      have lands := store_present present differs
      rcases writePlace_name walks lands with rfl | ⟨target, link⟩
      · exact below
      · by_contra outside
        exact noLink ⟨before, name, directory, target, location, rfl, walks, link, lands, outside⟩
    · obtain ⟨last, middle, split⟩ : ∃ last middle, next :: rest = middle ++ [last] := by
        obtain ⟨middle, last, same⟩ := (List.eq_nil_or_concat (next :: rest)).resolve_left
          (List.cons_ne_nil next rest)
        exact ⟨last, middle, same.trans (List.concat_eq_append ..)⟩
      have names_ : name :: next :: rest = name :: middle ++ [last] := by rw [split]; rfl
      rw [names_] at differs below
      have dropped := dropLast_ofLocation before (name :: middle) last
      by_cases inDirectory : fs.entry directory = some .directory
      · by_cases free : fs.entry (directory ++ [name]) = none
        · have changes := (store_names walks inDirectory free middle last text).1 location differs
          exact (there.above_first inDirectory free below).trans changes
        · have made := createDirAll_link walks inDirectory free (missing name next rest rfl) middle
          refine absurd ?_ differs
          unfold store
          rw [dropped, made]
          rfl
      · have blocks : ∀ others, fs.resolve here (before ++ ofLocation (name :: others)) = .blocked := by
          intro others
          rw [resolve_snoc walks]
          exact resolve_blocked inDirectory (.name name) (ofLocation others)
        have present : ∀ found rest,
            fs.resolve here (before ++ ofLocation (name :: middle ++ [last])).dropLast ≠
              .absent found rest := by
          intro found rest absent
          rw [dropped, blocks] at absent
          cases absent
        have lands := store_present present differs
        have blocked : fs.resolve here (before ++ ofLocation (name :: middle ++ [last])) = .blocked :=
          blocks (middle ++ [last])
        rw [writePlace, blocked] at lands
        cases lands

end Storing

end FileSystem

end Openyak.Theory.Posix
