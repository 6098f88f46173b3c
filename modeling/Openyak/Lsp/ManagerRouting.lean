/-
# Lsp.ManagerRouting -- which server a path goes to, and as what language

The manager keeps its configurations by name and the names by extension.  The extensions of
the index are normalized (a leading dot, ASCII lower case), those in a configuration stand as
they were written, and of two configurations with one name the later stays.  So a path may
go to a server that has no language for it (`routing_not_consistent`).

`Indexed` is what `new` keeps from one configuration to the next; `routing_consistent_iff`
tells the extensions that are safe.
-/
import Openyak.Theory.UniqueIndex
import Openyak.Lsp.Documents

namespace Openyak.Lsp

open Openyak.Theory Openyak.Theory.Posix
open Openyak.Theory.Text (toAsciiLowercase)

set_option autoImplicit false

/-- `LspServerConfig` with its name.  How the server is started is left out. -/
structure NamedServerConfig extends LspServerConfig where
  name : String

inductive ManagerError where
  | duplicateExtension (extension : List Char) (existingServer newServer : String)
  | unsupportedDocument (path : Path)
  | unknownServer (name : String)
  | connect (error : LspError)

/-- A client is told by the configuration that it was connected with. -/
structure LspManager where
  serverConfigs : AList fun _ : String => NamedServerConfig
  extensionMap : AList fun _ : List Char => String
  clients : AList fun _ : String => NamedServerConfig

namespace LspManager

def empty : LspManager := ⟨∅, ∅, ∅⟩

/-- One turn of the loop of `new`. -/
def addConfig (manager : LspManager) (config : NamedServerConfig) : Except ManagerError LspManager :=
  match indexAll (fun extension existing => ManagerError.duplicateExtension extension existing config.name)
      config.name manager.extensionMap (config.extensionToLanguage.keys.map normalizeExtension) with
  | .error error => .error error
  | .ok extensionMap => .ok { manager with
      extensionMap
      serverConfigs := manager.serverConfigs.insert config.name config }

def addConfigs (manager : LspManager) : List NamedServerConfig → Except ManagerError LspManager
  | [] => .ok manager
  | config :: configs =>
      match manager.addConfig config with
      | .error error => .error error
      | .ok next => next.addConfigs configs

def new (configs : List NamedServerConfig) : Except ManagerError LspManager := empty.addConfigs configs

def supportsPath (manager : LspManager) (path : Path) : Bool :=
  path.extension.any fun extension =>
    (manager.extensionMap.lookup (normalizeExtension extension)).isSome

/-- The server that the path is routed to. -/
def serverFor (manager : LspManager) (path : Path) : Except ManagerError String :=
  match path.extension with
  | none => .error (.unsupportedDocument path)
  | some extension =>
      match manager.extensionMap.lookup (normalizeExtension extension) with
      | none => .error (.unsupportedDocument path)
      | some server => .ok server

/-- `client_for_path`; `connects` says how a connection that it makes comes out. -/
def clientForPath (manager : LspManager) (connects : Option LspError) (path : Path) :
    Except ManagerError NamedServerConfig × LspManager :=
  match manager.serverFor path with
  | .error error => (.error error, manager)
  | .ok server =>
      match manager.clients.lookup server with
      | some client => (.ok client, manager)
      | none =>
          match manager.serverConfigs.lookup server with
          | none => (.error (.unknownServer server), manager)
          | some config =>
              match connects with
              | some error => (.error (.connect error), manager)
              | none => (.ok config, { manager with clients := manager.clients.insert server config })

/-- `shutdown`, which forgets the clients first. -/
def shutdown (manager : LspManager) : LspManager := { manager with clients := ∅ }

end LspManager

/-- What is done to a manager, from call to call. -/
inductive ManagerUse where
  | route (path : Path) (connects : Option LspError)
  | shutdown

def LspManager.use (manager : LspManager) : ManagerUse → Option LspManager
  | .route path connects => some (manager.clientForPath connects path).2
  | .shutdown => some manager.shutdown

/-- The manager is one that was made of the configurations and used. -/
def Reached (configs : List NamedServerConfig) (manager : LspManager) : Prop :=
  ∃ made uses, LspManager.new configs = .ok made ∧
    Run LspManager.use (fun _ _ => True) made uses manager

/-- The client that the path is given where no connection fails. -/
def Selects (manager : LspManager) (path : Path) (client : NamedServerConfig) : Prop :=
  (manager.clientForPath none path).1 = .ok client

/-- The configuration gives the extension this language, however it spells it. -/
def DeclaresAs (config : NamedServerConfig) (extension : List Char) (languageId : String) : Prop :=
  ∃ key, normalizeExtension key = extension ∧ config.extensionToLanguage.lookup key = some languageId

/-- **Support is a language**, and the one that was declared. -/
structure RoutesConsistently (configs : List NamedServerConfig) (manager : LspManager) (path : Path) :
    Prop where
  supported : manager.supportsPath path = true ↔
    ∃ client, Selects manager path client ∧ (client.languageIdFor path).isSome
  declared : ∀ client languageId, Selects manager path client →
    client.languageIdFor path = some languageId →
      ∃ extension, path.extension = some extension ∧
        ∃ config ∈ configs, DeclaresAs config (normalizeExtension extension) languageId

/-- Who declares the extension spells it as it is looked up, and no later configuration has
its name. -/
def PlainlyDeclared (configs : List NamedServerConfig) (extension : List Char) : Prop :=
  ∀ before config after, configs = before ++ config :: after →
    ∀ key ∈ config.extensionToLanguage.keys, normalizeExtension key = extension →
      key = extension ∧ ∀ later ∈ after, later.name ≠ config.name

/-! ## What `new` makes -/

/-- What is known once these configurations have been added. -/
structure Indexed (done : List NamedServerConfig) (manager : LspManager) : Prop where
  configs : ∀ name, manager.serverConfigs.lookup name =
    done.reverse.find? fun config => config.name = name
  routes : ∀ extension name, manager.extensionMap.lookup extension = some name ↔
    ∃ config ∈ done, config.name = name ∧
      extension ∈ config.extensionToLanguage.keys.map normalizeExtension
  once : (done.flatMap fun config => config.extensionToLanguage.keys.map normalizeExtension).Nodup

theorem indexed_empty : Indexed [] .empty := ⟨fun _ => rfl, fun _ _ => by simp [LspManager.empty], .nil⟩

variable {configs done : List NamedServerConfig} {manager next : LspManager}

theorem addConfig_indexed {config : NamedServerConfig} (indexed : Indexed done manager)
    (added : manager.addConfig config = .ok next) :
    Indexed (done ++ [config]) next ∧ next.clients = manager.clients := by
  unfold LspManager.addConfig at added
  split at added
  · cases added
  rename_i extensionMap indexes
  cases added
  obtain ⟨nodup, fresh, under⟩ := indexAll_ok indexes
  refine ⟨⟨fun name => ?_, fun extension name => ?_, ?_⟩, rfl⟩
  · show (manager.serverConfigs.insert config.name config).lookup name = _
    rw [List.reverse_append, List.reverse_singleton, List.singleton_append, List.find?_cons]
    by_cases here : config.name = name
    · subst here
      simp
    · rw [AList.lookup_insert_ne (Ne.symm here), indexed.configs]
      simp [here]
  · show extensionMap.lookup extension = some name ↔ _
    rw [under, indexed.routes]
    constructor
    · rintro (⟨declaring, member, named, declares⟩ | ⟨declares, rfl⟩)
      · exact ⟨declaring, List.mem_append_left _ member, named, declares⟩
      · exact ⟨config, List.mem_append_right _ List.mem_cons_self, rfl, declares⟩
    · rintro ⟨declaring, member, named, declares⟩
      obtain member | member := List.mem_append.1 member
      · exact .inl ⟨declaring, member, named, declares⟩
      · obtain rfl := List.mem_singleton.1 member
        exact .inr ⟨declares, named.symm⟩
  · rw [List.flatMap_append, List.flatMap_singleton]
    refine List.nodup_append.2 ⟨indexed.once, nodup, ?_⟩
    rintro extension earlier _ here rfl
    obtain ⟨declaring, member, declares⟩ := List.mem_flatMap.1 earlier
    have taken := (indexed.routes extension declaring.name).2 ⟨declaring, member, rfl, declares⟩
    rw [fresh extension here] at taken
    cases taken

theorem addConfigs_indexed (indexed : Indexed done manager)
    (added : manager.addConfigs configs = .ok next) :
    Indexed (done ++ configs) next ∧ next.clients = manager.clients := by
  induction configs generalizing done manager with
  | nil =>
      cases added
      rw [List.append_nil]
      exact ⟨indexed, rfl⟩
  | cons config configs ih =>
      unfold LspManager.addConfigs at added
      split at added
      · cases added
      rename_i middle step
      obtain ⟨after, kept⟩ := addConfig_indexed indexed step
      obtain ⟨whole, same⟩ := ih after added
      rw [List.append_assoc, List.singleton_append] at whole
      exact ⟨whole, same.trans kept⟩

/-! ## What stays -/

/-- A client is connected with the configuration of its name. -/
structure Serving (configs : List NamedServerConfig) (manager : LspManager) : Prop where
  indexed : Indexed configs manager
  clients : ∀ name client, manager.clients.lookup name = some client →
    manager.serverConfigs.lookup name = some client

theorem serving_new (made : LspManager.new configs = .ok manager) : Serving configs manager := by
  obtain ⟨indexed, none⟩ := addConfigs_indexed indexed_empty made
  refine ⟨indexed, fun name client found => ?_⟩
  rw [none] at found
  cases found

/-- The client of a path is the configuration under its server's name. -/
theorem clientForPath_serving (serving : Serving configs manager) (connects : Option LspError)
    (path : Path) : Serving configs (manager.clientForPath connects path).2 := by
  unfold LspManager.clientForPath
  split
  · exact serving
  rename_i server _
  split
  · exact serving
  split
  · exact serving
  rename_i config found
  split
  · exact serving
  refine ⟨⟨serving.indexed.configs, serving.indexed.routes, serving.indexed.once⟩, ?_⟩
  intro name client there
  change (manager.clients.insert server config).lookup name = some client at there
  by_cases here : name = server
  · subst here
    rw [AList.lookup_insert] at there
    cases there
    exact found
  · rw [AList.lookup_insert_ne here] at there
    exact serving.clients name client there

theorem serving_reached (reached : Reached configs manager) : Serving configs manager := by
  obtain ⟨made, uses, new, run⟩ := reached
  refine run.invariant (Serving configs) ?_ (serving_new new)
  intro middle label after serving _ steps
  cases label with
  | route path connects =>
      cases steps
      exact clientForPath_serving serving connects path
  | shutdown =>
      cases steps
      exact ⟨⟨serving.indexed.configs, serving.indexed.routes, serving.indexed.once⟩, nofun⟩

/-! ## One extension -/

theorem normalizeExtension_idem (extension : List Char) :
    normalizeExtension (normalizeExtension extension) = normalizeExtension extension := by
  have dotted : ∀ text : List Char, text.head? = some '.' → normalizeExtension text = toAsciiLowercase text :=
    fun text starts => if_pos starts
  cases extension with
  | nil => rfl
  | cons first rest =>
      by_cases starts : first = '.'
      · subst starts
        rw [dotted ('.' :: rest) rfl, dotted _ rfl, Text.toAsciiLowercase_idem]
      · have adds : normalizeExtension (first :: rest) = '.' :: toAsciiLowercase (first :: rest) :=
          if_neg (by simpa using starts)
        rw [adds, dotted _ rfl]
        exact congrArg (List.cons '.') (Text.toAsciiLowercase_idem _)

section Extension

variable {before after : List NamedServerConfig} {config other : NamedServerConfig}
  {extension key : List Char}

/-- An extension is declared by one configuration, in one spelling. -/
theorem declared_once (indexed : Indexed configs manager) (parts : configs = before ++ config :: after)
    (member : key ∈ config.extensionToLanguage.keys) (spells : normalizeExtension key = extension) :
    (∀ later ∈ after, extension ∉ later.extensionToLanguage.keys.map normalizeExtension) ∧
      (∀ earlier ∈ before, extension ∉ earlier.extensionToLanguage.keys.map normalizeExtension) ∧
      ∀ again ∈ config.extensionToLanguage.keys, normalizeExtension again = extension → again = key := by
  have once := indexed.once
  have here : extension ∈ config.extensionToLanguage.keys.map normalizeExtension :=
    List.mem_map.2 ⟨key, member, spells⟩
  rw [parts, List.flatMap_append, List.flatMap_cons] at once
  obtain ⟨-, behind, apart⟩ := List.nodup_append.1 once
  obtain ⟨own, -, apartAfter⟩ := List.nodup_append.1 behind
  refine ⟨fun later there declares => ?_, fun earlier there declares => ?_, fun again found same => ?_⟩
  · exact apartAfter extension here extension (List.mem_flatMap.2 ⟨later, there, declares⟩) rfl
  · exact apart extension (List.mem_flatMap.2 ⟨earlier, there, declares⟩) extension
      (List.mem_append_left _ here) rfl
  · exact List.inj_on_of_nodup_map own found member (same.trans spells.symm)

theorem lastNamed_eq (parts : configs = before ++ config :: after)
    (last : ∀ later ∈ after, later.name ≠ config.name) :
    configs.reverse.find? (fun other => other.name = config.name) = some config := by
  have none : after.reverse.find? (fun other => other.name = config.name) = none := by
    rw [List.find?_eq_none]
    intro later member
    simpa using last later (List.mem_reverse.1 member)
  rw [parts, List.reverse_append, List.reverse_cons, List.append_assoc, List.find?_append, none]
  simp

/-- Where a later configuration has the name, one of these is the last. -/
theorem lastNamed_later (parts : configs = before ++ config :: after) (later : other ∈ after)
    (named : other.name = config.name) : ∃ last ∈ after,
      configs.reverse.find? (fun other => other.name = config.name) = some last := by
  have found : ∃ last, after.reverse.find? (fun other => other.name = config.name) = some last := by
    rw [← Option.isSome_iff_exists, List.find?_isSome]
    exact ⟨other, List.mem_reverse.2 later, by simpa using named⟩
  obtain ⟨last, isLast⟩ := found
  refine ⟨last, List.mem_reverse.1 (List.mem_of_find?_eq_some isLast), ?_⟩
  rw [parts, List.reverse_append, List.reverse_cons, List.append_assoc, List.find?_append, isLast]
  rfl

end Extension

/-! ## Routing -/

section Routing

variable {path : Path} {extension : List Char}

theorem selects_iff (serving : Serving configs manager) (ends : path.extension = some extension)
    {client : NamedServerConfig} :
    Selects manager path client ↔ ∃ name,
      manager.extensionMap.lookup (normalizeExtension extension) = some name ∧
        configs.reverse.find? (fun other => other.name = name) = some client := by
  unfold Selects LspManager.clientForPath LspManager.serverFor
  simp only [ends]
  cases route : manager.extensionMap.lookup (normalizeExtension extension) with
  | none => simp
  | some name =>
      simp only [Option.some.injEq, exists_eq_left', ← serving.indexed.configs]
      cases cached : manager.clients.lookup name with
      | some held =>
          rw [serving.clients name held cached]
          simp
      | none =>
          cases configured : manager.serverConfigs.lookup name with
          | none => simp
          | some config => simp

theorem supportsPath_iff (ends : path.extension = some extension) :
    manager.supportsPath path = true ↔
      ∃ name, manager.extensionMap.lookup (normalizeExtension extension) = some name := by
  rw [LspManager.supportsPath, ends, Option.any_some, Option.isSome_iff_exists]

/-- A path without an extension is not supported, and has no client. -/
theorem unsupported (ends : path.extension = none) : RoutesConsistently configs manager path := by
  have none : ∀ client, ¬Selects manager path client := by
    intro client selects
    unfold Selects LspManager.clientForPath LspManager.serverFor at selects
    rw [ends] at selects
    cases selects
  refine ⟨?_, fun client _ selects => absurd selects (none client)⟩
  rw [LspManager.supportsPath, ends]
  exact ⟨nofun, fun ⟨client, selects, _⟩ => absurd selects (none client)⟩

theorem languageIdFor_eq (ends : path.extension = some extension) (client : NamedServerConfig) :
    client.languageIdFor path = client.extensionToLanguage.lookup (normalizeExtension extension) := by
  rw [LspServerConfig.languageIdFor, ends, Option.bind_some]

theorem keys_of_lookup {config : NamedServerConfig} {key : List Char}
    (has : (config.extensionToLanguage.lookup key).isSome) : key ∈ config.extensionToLanguage.keys :=
  AList.lookup_isSome.1 has

theorem lookup_of_keys {config : NamedServerConfig} {key : List Char}
    (member : key ∈ config.extensionToLanguage.keys) :
    ∃ languageId, config.extensionToLanguage.lookup key = some languageId :=
  Option.isSome_iff_exists.1 (AList.lookup_isSome.2 member)

theorem name_of_lastNamed {name : String} {client : NamedServerConfig}
    (last : configs.reverse.find? (fun other => other.name = name) = some client) :
    client ∈ configs ∧ client.name = name :=
  ⟨List.mem_reverse.1 (List.mem_of_find?_eq_some last), by simpa using List.find?_some last⟩

/-- Where the extension is plainly declared, the path goes to who declares it. -/
theorem consistent_of_plainly (serving : Serving configs manager) (ends : path.extension = some extension)
    (plainly : PlainlyDeclared configs (normalizeExtension extension)) :
    RoutesConsistently configs manager path := by
  constructor
  · rw [supportsPath_iff ends]
    constructor
    · rintro ⟨name, route⟩
      obtain ⟨config, member, rfl, declares⟩ := (serving.indexed.routes _ name).1 route
      obtain ⟨before, after, parts⟩ := List.append_of_mem member
      obtain ⟨key, spelled, spells⟩ := List.mem_map.1 declares
      obtain ⟨rfl, last⟩ := plainly before config after parts key spelled spells
      obtain ⟨languageId, found⟩ := lookup_of_keys spelled
      refine ⟨config, (selects_iff serving ends).2 ⟨config.name, route, lastNamed_eq parts last⟩, ?_⟩
      rw [languageIdFor_eq ends, found]
      rfl
    · rintro ⟨client, selects, -⟩
      obtain ⟨name, route, -⟩ := (selects_iff serving ends).1 selects
      exact ⟨name, route⟩
  · intro client languageId selects speaks
    obtain ⟨name, -, last⟩ := (selects_iff serving ends).1 selects
    rw [languageIdFor_eq ends] at speaks
    exact ⟨extension, ends, client, (name_of_lastNamed last).1, _, normalizeExtension_idem extension,
      speaks⟩

theorem plainly_of_consistent (serving : Serving configs manager) (ends : path.extension = some extension)
    (consistent : RoutesConsistently configs manager path) :
    PlainlyDeclared configs (normalizeExtension extension) := by
  intro before config after parts key spelled spells
  have member : config ∈ configs := by
    rw [parts]
    exact List.mem_append_right _ List.mem_cons_self
  have route : manager.extensionMap.lookup (normalizeExtension extension) = some config.name :=
    (serving.indexed.routes _ _).2 ⟨config, member, rfl, List.mem_map.2 ⟨key, spelled, spells⟩⟩
  obtain ⟨client, selects, speaks⟩ := consistent.supported.1 ((supportsPath_iff ends).2 ⟨_, route⟩)
  obtain ⟨name, routed, last⟩ := (selects_iff serving ends).1 selects
  obtain rfl : config.name = name := Option.some.inj (route.symm.trans routed)
  rw [languageIdFor_eq ends] at speaks
  have declares : normalizeExtension extension ∈ client.extensionToLanguage.keys.map normalizeExtension :=
    List.mem_map.2 ⟨_, keys_of_lookup speaks, normalizeExtension_idem extension⟩
  obtain ⟨notAfter, -, single⟩ := declared_once serving.indexed parts spelled spells
  have alone : ∀ later ∈ after, later.name ≠ config.name := by
    intro later there named
    obtain ⟨other, inside, isLast⟩ := lastNamed_later parts there named
    rw [last] at isLast
    cases isLast
    exact notAfter client inside declares
  rw [lastNamed_eq parts alone] at last
  cases last
  exact ⟨(single _ (keys_of_lookup speaks) (normalizeExtension_idem extension)).symm, alone⟩

end Routing

/-- **Routing is consistent at a path just when its extension is plainly declared**: whoever
declares it spells it with the dot and in lower case, and is the last of its name. -/
theorem routing_consistent_iff (configs : List NamedServerConfig) (manager : LspManager)
    (reached : Reached configs manager) (path : Path) :
    RoutesConsistently configs manager path ↔
      ∀ extension, path.extension = some extension →
        PlainlyDeclared configs (normalizeExtension extension) := by
  have serving := serving_reached reached
  cases ends : path.extension with
  | none => exact ⟨fun _ _ => nofun, fun _ => unsupported ends⟩
  | some extension =>
      constructor
      · rintro consistent _ ⟨⟩
        exact plainly_of_consistent serving ends consistent
      · intro plainly
        exact consistent_of_plainly serving ends (plainly extension rfl)

/-! ## One server -/

/-- A server for one extension, spelled so. -/
def rustServer (extension : String) : NamedServerConfig :=
  ⟨⟨AList.singleton extension.toList "rust"⟩, "rust-analyzer"⟩

def rustManager (extension : String) : LspManager :=
  ⟨AList.singleton "rust-analyzer" (rustServer extension), AList.singleton ".rs".toList "rust-analyzer", ∅⟩

theorem rust_reached (extension : String) (spells : normalizeExtension extension.toList = ".rs".toList) :
    Reached [rustServer extension] (rustManager extension) := by
  have keys : (rustServer extension).extensionToLanguage.keys.map normalizeExtension =
      [".rs".toList] := by
    show [normalizeExtension extension.toList] = _
    rw [spells]
  refine ⟨rustManager extension, [], ?_, .nil⟩
  rw [LspManager.new, LspManager.addConfigs, LspManager.addConfig, keys]
  rfl

theorem routing_consistent_rust : Reached [rustServer ".rs"] (rustManager ".rs") ∧
    RoutesConsistently [rustServer ".rs"] (rustManager ".rs") (Path.ofText "/work/main.rs") := by
  have reached := rust_reached ".rs" (by decide)
  refine ⟨reached, (routing_consistent_iff _ _ reached _).2 ?_⟩
  intro extension ends
  have rs : (Path.ofText "/work/main.rs").extension = some "rs".toList := by decide
  cases rs.symm.trans ends
  intro before config after parts key member spells
  obtain ⟨rfl, rfl, rfl⟩ : before = [] ∧ config = rustServer ".rs" ∧ after = [] := by
    cases before with
    | nil =>
        cases parts
        exact ⟨rfl, rfl, rfl⟩
    | cons _ _ => simp at parts
  obtain rfl : key = ".rs".toList := List.mem_singleton.1 member
  exact ⟨by decide, nofun⟩

/-- **A server without a language**: the extension is declared as `rs`, a path with it is
supported, and the server it goes to has no language for it. -/
theorem routing_not_consistent : Reached [rustServer "rs"] (rustManager "rs") ∧
    (rustManager "rs").supportsPath (Path.ofText "/work/main.rs") = true ∧
    Selects (rustManager "rs") (Path.ofText "/work/main.rs") (rustServer "rs") ∧
    (rustServer "rs").languageIdFor (Path.ofText "/work/main.rs") = none ∧
    ¬RoutesConsistently [rustServer "rs"] (rustManager "rs") (Path.ofText "/work/main.rs") := by
  have reached := rust_reached "rs" (by decide)
  have supported : (rustManager "rs").supportsPath (Path.ofText "/work/main.rs") = true := by decide
  have selects : Selects (rustManager "rs") (Path.ofText "/work/main.rs") (rustServer "rs") := rfl
  have silent : (rustServer "rs").languageIdFor (Path.ofText "/work/main.rs") = none := by decide
  refine ⟨reached, supported, selects, silent, fun consistent => ?_⟩
  obtain ⟨client, other, speaks⟩ := consistent.supported.1 supported
  cases selects.symm.trans other
  rw [silent] at speaks
  cases speaks

end Openyak.Lsp
