/-
# Runtime.StoragePaths -- configured paths, and the root each must stay inside

Three resolvers take a configured text to a path.  Two climb from the path to the deepest
ancestor that exists, resolve it, and push the missing names on again; the third leaves the
`..` out first and returns the path as it was written.

All of them take a link that leads to no file for a missing name.
-/
import Openyak.Runtime.FileOps
import Openyak.Runtime.Settings
import Openyak.Theory.Storing

namespace Openyak.Runtime

open Openyak.Theory
open Openyak.Theory.Posix

set_option autoImplicit false

inductive ConfigSource where
  | user
  | project
  | local
  deriving DecidableEq, Repr

section Resolvers

-- `display` is `Path::display`, and `osError` what the system says of a path that leads
-- nowhere.
variable {fs : FileSystem} (cwd : WorkingDirectory fs) (display osError : Path → String)
  (context : String)

/-- `Path::canonicalize`; the empty path leads nowhere. -/
def canonicalizePath (path : Path) : Option Path :=
  if path = ⟨false, []⟩ then none else canonicalize cwd path

/-- `Path::exists`. -/
def pathExists (path : Path) : Bool := (canonicalizePath cwd path).isSome

/-- The loop of `canonicalize_allow_missing` from a cursor on, its components reversed. -/
def climb (absolute : Bool) : List Component → List Name → Option (Path × List Name)
  | [], missing =>
      if pathExists cwd ⟨absolute, []⟩ then some (⟨absolute, []⟩, missing) else none
  | last :: above, missing =>
      if pathExists cwd ⟨absolute, (last :: above).reverse⟩ then
        some (⟨absolute, (last :: above).reverse⟩, missing)
      else
        match last with
        | .name name => climb absolute above (name :: missing)
        | .current | .parent => none

/-- The deepest ancestor that exists, and the names that are missing behind it. -/
def existingAncestor (path : Path) : Option (Path × List Name) :=
  if pathExists cwd path then some (path, [])
  else
    match (dropCurrent path.components).reverse with
    | .name name :: above => climb cwd path.absolute above [name]
    | _ => none

def canonicalizeAllowMissing (path : Path) : Except ConfigError Path :=
  let absolute := if path.absolute then path else cwd.path.join path
  match existingAncestor cwd absolute with
  | none => .error (.parse (context ++ ": failed to resolve path " ++ display absolute))
  | some (cursor, missing) =>
      match canonicalizePath cwd cursor with
      | none => .error (.parse (context ++ ": " ++ osError cursor))
      | some resolved => .ok ⟨resolved.absolute, resolved.components ++ ofLocation missing⟩

/-- An absolute path as it is, another joined to a base. -/
def joinedTo (base path : Path) : Path := if path.absolute then path else base.join path

def resolvePluginStoragePath (value : String) (configHome : Path) : Except ConfigError Path :=
  match canonicalizeAllowMissing cwd display osError context configHome with
  | .error error => .error error
  | .ok configRoot =>
      let raw := joinedTo configHome (Path.ofText value)
      match canonicalizeAllowMissing cwd display osError context raw with
      | .error error => .error error
      | .ok resolved =>
          if resolved.startsWith configRoot then .ok resolved
          else
            .error (.parse
              (context ++ ": plugin storage paths must stay inside " ++ display configRoot))

def resolvePluginDiscoveryPath (value : String) (source : ConfigSource)
    (workspace configHome : Path) : Except ConfigError Path :=
  match canonicalizeAllowMissing cwd display osError context workspace with
  | .error error => .error error
  | .ok workspaceRoot =>
      let raw :=
        match source with
        | .user =>
            joinedTo (if value.toList.head? = some '.' then workspace else configHome)
              (Path.ofText value)
        | .project | .local => joinedTo workspace (Path.ofText value)
      match canonicalizeAllowMissing cwd display osError context raw with
      | .error error => .error error
      | .ok resolved =>
          if source ≠ .user ∧ !resolved.startsWith workspaceRoot then
            .error (.parse
              (context ++ ": repo-scoped plugin discovery paths must stay inside " ++
                display workspaceRoot))
          else .ok resolved

/-- One component of `normalize_virtual_path`. -/
def pushVirtual (names : Location) : Component → Location
  | .current => names
  | .parent => names.dropLast
  | .name name => names ++ [name]

def normalizeVirtualPath (path : Path) : Path :=
  ⟨path.absolute, ofLocation (path.components.foldl pushVirtual [])⟩

/-- `Path::starts_with` on normalized paths; every path starts with the empty one. -/
def virtualStartsWith (path root : Path) : Bool :=
  (path.absolute = root.absolute || root = ⟨false, []⟩) &&
    root.components.isPrefixOf path.components

/-- The loop of `deepest_existing_ancestor`, the components reversed. -/
def deepestFrom (absolute : Bool) : List Component → Option Path
  | [] => if pathExists cwd ⟨absolute, []⟩ then some ⟨absolute, []⟩ else none
  | last :: above =>
      if pathExists cwd ⟨absolute, (last :: above).reverse⟩ then
        some ⟨absolute, (last :: above).reverse⟩
      else deepestFrom absolute above

def deepestExistingAncestor (path : Path) : Option Path :=
  deepestFrom cwd path.absolute path.components.reverse

def resolveWorkspaceBoundPath (workspaceRoot : Path) (value : String) : Except ConfigError Path :=
  if Text.trim value.toList = [] then .error (.parse (context ++ ": path must not be empty"))
  else
    let normalizedWorkspace := normalizeVirtualPath workspaceRoot
    let normalizedPath := normalizeVirtualPath (joinedTo workspaceRoot (Path.ofText value))
    let outside : ConfigError :=
      .parse (context ++ ": resolved path must stay inside the workspace root " ++
        display workspaceRoot)
    if !virtualStartsWith normalizedPath normalizedWorkspace then .error outside
    else
      match canonicalizePath cwd workspaceRoot with
      | none =>
          .error (.parse (context ++ ": failed to canonicalize workspace root " ++
            display workspaceRoot ++ ": " ++ osError workspaceRoot))
      | some canonicalWorkspace =>
          match deepestExistingAncestor cwd normalizedPath with
          | none =>
              .error (.parse (context ++
                ": could not resolve an existing ancestor under workspace root " ++
                display workspaceRoot))
          | some existingAncestor =>
              match canonicalizePath cwd existingAncestor with
              | none =>
                  .error (.parse (context ++ ": failed to canonicalize existing ancestor " ++
                    display existingAncestor ++ ": " ++ osError existingAncestor))
              | some canonicalAncestor =>
                  if canonicalAncestor.startsWith canonicalWorkspace then .ok normalizedPath
                  else .error outside

end Resolvers

/-! ## Where the resolved paths lead -/

section Paths

variable {fs : FileSystem} (cwd : WorkingDirectory fs) {display osError : Path → String}
  {context : String}

theorem canonicalizePath_some {path canonical : Path}
    (leads : canonicalizePath cwd path = some canonical) :
    ∃ location, cwd.resolve path = .found location ∧ canonical = Path.ofLocation location := by
  rw [canonicalizePath] at leads
  split at leads
  · cases leads
  · rw [canonicalize_eq] at leads
    cases resolved : cwd.resolve path with
    | found location =>
        rw [resolved] at leads
        exact ⟨location, rfl, (Option.some.inj leads).symm⟩
    | absent directory rest =>
        rw [resolved] at leads
        cases leads
    | blocked =>
        rw [resolved] at leads
        cases leads

/-- What is not there is not found either. -/
theorem resolve_ne_found {path : Path} {last : Component} {above : List Component}
    (ends : path.components = above ++ [last]) (missing : pathExists cwd path = false)
    (location : Location) : cwd.resolve path ≠ .found location := by
  intro leads
  have some_ : path ≠ ⟨false, []⟩ := by
    rintro rfl
    exact absurd ends.symm (by simp)
  rw [pathExists, canonicalizePath, if_neg some_, canonicalize_eq, leads] at missing
  cases missing

/-- A path found, the names behind it, and of more than one the first leads nowhere. -/
structure Climbed (absolute : Bool) (cursor : Path) (missing : List Name) : Prop where
  isAbsolute : cursor.absolute = absolute
  exists_ : pathExists cwd cursor = true
  first : ∀ name next rest, missing = name :: next :: rest →
    pathExists cwd ⟨absolute, cursor.components ++ [.name name]⟩ = false

theorem climb_some {absolute : Bool} {reversed : List Component} {missing names : List Name}
    {cursor : Path} (climbs : climb cwd absolute reversed missing = some (cursor, names))
    (first : ∀ name next rest, missing = name :: next :: rest →
      pathExists cwd ⟨absolute, reversed.reverse ++ [.name name]⟩ = false) :
    Climbed cwd absolute cursor names := by
  induction reversed generalizing missing with
  | nil =>
      unfold climb at climbs
      split at climbs
      · rename_i there
        cases climbs
        exact ⟨rfl, there, first⟩
      · cases climbs
  | cons last above ih =>
      by_cases there : pathExists cwd ⟨absolute, (last :: above).reverse⟩ = true
      · cases last <;>
        · rw [climb, if_pos there] at climbs
          cases climbs
          exact ⟨rfl, there, first⟩
      · cases last with
        | current =>
            rw [climb, if_neg there] at climbs
            cases climbs
        | parent =>
            rw [climb, if_neg there] at climbs
            cases climbs
        | name name =>
            rw [climb, if_neg there] at climbs
            refine ih climbs fun other next rest same => ?_
            cases same
            rw [List.reverse_cons] at there
            exact Bool.eq_false_iff.2 there

theorem existingAncestor_some {path cursor : Path} {names : List Name}
    (found : existingAncestor cwd path = some (cursor, names)) :
    Climbed cwd path.absolute cursor names := by
  rw [existingAncestor] at found
  split at found
  · rename_i there
    cases found
    exact ⟨rfl, there, nofun⟩
  · split at found
    · exact climb_some cwd found nofun
    · cases found

/-- **A resolved path is that of a location found, and the names behind it.** -/
theorem canonicalizeAllowMissing_ok {path resolved : Path}
    (ok : canonicalizeAllowMissing cwd display osError context path = .ok resolved) :
    ∃ directory names, resolved = Path.ofLocation (directory ++ names) ∧ fs.Settled directory ∧
      ∀ name next rest, names = name :: next :: rest →
        ∀ location, fs.resolve directory [.name name] ≠ .found location := by
  rw [canonicalizeAllowMissing] at ok
  split at ok
  · cases ok
  · rename_i cursor names found
    split at ok
    · cases ok
    · rename_i canonical isCanonical
      cases ok
      obtain ⟨directory, leads, rfl⟩ := canonicalizePath_some cwd isCanonical
      have climbed := existingAncestor_some cwd found
      refine ⟨directory, names, ?_, found_settled cwd leads, ?_⟩
      · rw [Path.ofLocation, Path.ofLocation, ofLocation_append]
      · intro name next rest same location entered
        have absent := climbed.first name next rest same
        refine resolve_ne_found cwd rfl absent location ?_
        unfold WorkingDirectory.resolve at leads ⊢
        have start : Path.start ⟨cursor.absolute, cursor.components ++ [.name name]⟩ cwd.location =
            cursor.start cwd.location := rfl
        rw [← climbed.isAbsolute, start, FileSystem.resolve_append, leads]
        exact entered

/-- What is stored at a resolved path. -/
theorem resolved_staysInside_iff {path resolved : Path} {root : Location}
    (ok : canonicalizeAllowMissing cwd display osError context path = .ok resolved)
    (below : resolved.startsWith (Path.ofLocation root) = true) :
    fs.StaysInside (resolved.start cwd.location) root resolved.components ↔
      ¬fs.LeadsOut (resolved.start cwd.location) root resolved.components ∧ fs.RootThere root := by
  obtain ⟨directory, names, rfl, settled, missing⟩ := canonicalizeAllowMissing_ok cwd ok
  have walks : fs.resolve [] (ofLocation directory) = .found directory :=
    FileSystem.walk_ofLocation fs.linkDepth [] directory settled
  have isBelow := Path.startsWith_ofLocation.1 below
  have parts : (Path.ofLocation (directory ++ names)).components =
      ofLocation directory ++ ofLocation names := ofLocation_append directory names
  rw [parts]
  exact FileSystem.staysInside_iff (FileSystem.settled_of_directory fs.root) walks isBelow missing

theorem deepestFrom_some {absolute : Bool} {reversed : List Component} {candidate : Path}
    (found : deepestFrom cwd absolute reversed = some candidate) :
    candidate.absolute = absolute ∧ ∃ behind, reversed.reverse = candidate.components ++ behind ∧
      pathExists cwd candidate = true ∧ ∀ first rest, behind = first :: rest →
        pathExists cwd ⟨absolute, candidate.components ++ [first]⟩ = false := by
  induction reversed with
  | nil =>
      rw [deepestFrom] at found
      split at found
      · rename_i there
        cases found
        exact ⟨rfl, [], rfl, there, nofun⟩
      · cases found
  | cons last above ih =>
      rw [deepestFrom] at found
      split at found
      · rename_i there
        cases found
        exact ⟨rfl, [], (List.append_nil _).symm, there, nofun⟩
      · rename_i absent
        obtain ⟨isAbsolute, behind, split, there, first⟩ := ih found
        refine ⟨isAbsolute, behind ++ [last], ?_, there, fun next rest same => ?_⟩
        · rw [List.reverse_cons, split, List.append_assoc]
        · cases behind with
          | nil =>
              cases same
              rw [List.reverse_cons, split, List.append_nil] at absent
              exact Bool.eq_false_iff.2 absent
          | cons head behind =>
              cases same
              exact first next behind rfl

/-- What is stored at a path that is bound to a workspace. -/
theorem workspaceBound_staysInside_iff {workspaceRoot path : Path} {value : String}
    (ok : resolveWorkspaceBoundPath cwd display osError context workspaceRoot value = .ok path) :
    ∃ root, cwd.resolve workspaceRoot = .found root ∧
      (fs.StaysInside (path.start cwd.location) root path.components ↔
        ¬fs.LeadsOut (path.start cwd.location) root path.components) := by
  rw [resolveWorkspaceBoundPath] at ok
  split at ok
  · cases ok
  dsimp only at ok
  split at ok
  · cases ok
  split at ok
  · cases ok
  rename_i canonicalWorkspace isWorkspace
  split at ok
  · cases ok
  rename_i candidate deepest
  split at ok
  · cases ok
  rename_i canonicalAncestor isAncestor
  split at ok
  · rename_i below
    cases ok
    obtain ⟨root, leadsRoot, rfl⟩ := canonicalizePath_some cwd isWorkspace
    obtain ⟨directory, leads, rfl⟩ := canonicalizePath_some cwd isAncestor
    have isBelow := Path.startsWith_ofLocation.1 below
    obtain ⟨isAbsolute, behind, split, -, first⟩ := deepestFrom_some cwd deepest
    rw [List.reverse_reverse] at split
    obtain ⟨full, isFull⟩ : ∃ full, (normalizeVirtualPath
        (joinedTo workspaceRoot (Path.ofText value))).components = ofLocation full := ⟨_, rfl⟩
    generalize normalizeVirtualPath (joinedTo workspaceRoot (Path.ofText value)) = path at *
    obtain ⟨found, names, -, -, rfl⟩ := List.map_eq_append_iff.1 (isFull.symm.trans split)
    refine ⟨root, leadsRoot, ?_⟩
    have start : candidate.start cwd.location = path.start cwd.location := by
      rw [Path.start, Path.start, isAbsolute]
    have walks : fs.resolve (path.start cwd.location) candidate.components = .found directory := by
      rw [← start]
      exact leads
    have missing : ∀ name next rest, names = name :: next :: rest →
        ∀ location, fs.resolve directory [.name name] ≠ .found location := by
      rintro name next rest rfl location entered
      have absent := first (.name name) (ofLocation (next :: rest)) rfl
      refine resolve_ne_found cwd rfl absent location ?_
      show fs.resolve (path.start cwd.location) (candidate.components ++ [.name name]) = _
      rw [FileSystem.resolve_append, walks]
      exact entered
    have there := FileSystem.rootThere_of_settled (found_settled cwd leadsRoot)
    have below' : root <+: directory ++ names := isBelow.trans (List.prefix_append ..)
    have parts : path.components = candidate.components ++ ofLocation names := split
    rw [parts]
    exact (FileSystem.staysInside_iff (start_settled cwd path) walks below' missing).trans
      (and_iff_left there)
  · cases ok

/-- **What a configured path is worth**: a file stored at a path that a resolver returned
changes nothing outside of the root exactly if the path is no link that leads out, and for
the two resolvers that allow a root that is not there, if no directory above it is made. -/
theorem storagePaths_stay_iff {fs : FileSystem} (cwd : WorkingDirectory fs)
    (display osError : Path → String) (context : String) :
    (∀ value configHome path,
      resolvePluginStoragePath cwd display osError context value configHome = .ok path →
      ∃ root, canonicalizeAllowMissing cwd display osError context configHome =
          .ok (Path.ofLocation root) ∧
        (fs.StaysInside (path.start cwd.location) root path.components ↔
          ¬fs.LeadsOut (path.start cwd.location) root path.components ∧ fs.RootThere root)) ∧
    (∀ value source workspace configHome path, source ≠ .user →
      resolvePluginDiscoveryPath cwd display osError context value source workspace configHome =
        .ok path →
      ∃ root, canonicalizeAllowMissing cwd display osError context workspace =
          .ok (Path.ofLocation root) ∧
        (fs.StaysInside (path.start cwd.location) root path.components ↔
          ¬fs.LeadsOut (path.start cwd.location) root path.components ∧ fs.RootThere root)) ∧
    ∀ workspaceRoot value path,
      resolveWorkspaceBoundPath cwd display osError context workspaceRoot value = .ok path →
      ∃ root, cwd.resolve workspaceRoot = .found root ∧
        (fs.StaysInside (path.start cwd.location) root path.components ↔
          ¬fs.LeadsOut (path.start cwd.location) root path.components) := by
  refine ⟨?_, ?_, fun workspaceRoot value path ok => workspaceBound_staysInside_iff cwd ok⟩
  · intro value configHome path ok
    rw [resolvePluginStoragePath] at ok
    split at ok
    · cases ok
    rename_i configRoot isRoot
    obtain ⟨directory, names, rfl, -, -⟩ := canonicalizeAllowMissing_ok cwd isRoot
    refine ⟨directory ++ names, isRoot, ?_⟩
    dsimp only at ok
    split at ok
    · cases ok
    rename_i resolved isResolved
    split at ok
    · rename_i below
      cases ok
      exact resolved_staysInside_iff cwd isResolved below
    · cases ok
  · intro value source workspace configHome path bound ok
    unfold resolvePluginDiscoveryPath at ok
    split at ok
    · cases ok
    rename_i workspaceRoot isRoot
    obtain ⟨directory, names, rfl, -, -⟩ := canonicalizeAllowMissing_ok cwd isRoot
    refine ⟨directory ++ names, isRoot, ?_⟩
    dsimp only at ok
    split at ok
    · cases ok
    rename_i resolved isResolved
    split at ok
    · cases ok
    · rename_i refused
      cases ok
      have below : path.startsWith (Path.ofLocation (directory ++ names)) = true := by
        by_contra outside
        exact refused ⟨bound, by simpa using outside⟩
      exact resolved_staysInside_iff cwd isResolved below

end Paths

/-! ## A link that leads nowhere -/

/-- `/home` with a link in it to `/out/new`, which is not there. -/
def danglingTree : FileSystem :=
  let home := (FileSystem.bare 40).create [] "home" .directory rfl (by decide)
  let outside := home.create [] "out" .directory (by decide) (by decide)
  outside.create ["home"] "plugins" (.symlink (Path.ofText "/out/new")) (by decide) (by decide)

def danglingHome : WorkingDirectory danglingTree where
  text := "/home"
  location := ["home"]
  absolute := by decide
  leads := by decide
  isDirectory := by decide

/-- A path beside the link stays inside. -/
theorem storagePaths_stay_iff_cache :
    ∃ root, canonicalizeAllowMissing danglingHome (fun _ => "") (fun _ => "") "" danglingHome.path =
        .ok (Path.ofLocation root) ∧
      (danglingTree.StaysInside [] root (ofLocation ["home", "cache"]) ↔
        ¬danglingTree.LeadsOut [] root (ofLocation ["home", "cache"]) ∧
          danglingTree.RootThere root) :=
  (storagePaths_stay_iff danglingHome (fun _ => "") (fun _ => "") "").1 "cache" danglingHome.path
    (Path.ofLocation ["home", "cache"]) (by decide +kernel)

theorem plugins_leadsOut :
    danglingTree.LeadsOut [] ["home"] (ofLocation ["home", "plugins"]) :=
  ⟨ofLocation ["home"], "plugins", ["home"], Path.ofText "/out/new", ["out", "new"], by decide,
    by decide, by decide, by decide, by decide⟩

/-- All three resolvers return the link itself, and a file stored there is made in `/out`. -/
theorem danglingLink_leavesRoot :
    canonicalizeAllowMissing danglingHome (fun _ => "") (fun _ => "") "" danglingHome.path =
        .ok (Path.ofLocation ["home"]) ∧
      danglingHome.resolve danglingHome.path = .found ["home"] ∧
      resolvePluginStoragePath danglingHome (fun _ => "") (fun _ => "") "" "plugins"
          danglingHome.path = .ok (Path.ofLocation ["home", "plugins"]) ∧
      resolvePluginDiscoveryPath danglingHome (fun _ => "") (fun _ => "") "" "plugins" .project
          danglingHome.path danglingHome.path = .ok (Path.ofLocation ["home", "plugins"]) ∧
      resolveWorkspaceBoundPath danglingHome (fun _ => "") (fun _ => "") "" danglingHome.path
          "plugins" = .ok (Path.ofLocation ["home", "plugins"]) ∧
      ¬danglingTree.StaysInside [] ["home"] (ofLocation ["home", "plugins"]) := by
  refine ⟨by decide +kernel, by decide +kernel, by decide +kernel, by decide +kernel,
    by decide +kernel, ?_⟩
  have settled := FileSystem.settled_of_directory danglingTree.root
  exact FileSystem.not_staysInside_of_leadsOut settled plugins_leadsOut

end Openyak.Runtime
