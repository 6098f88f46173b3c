/-
# Runtime.CredentialPlaces -- what one path's file and entries hold

A path holds a token set when the store has an entry that reads as it, or has none and the
file does (`HoldsAt`).  An operation on one path leaves the others alone, and leaves every
field of the files but `oauth` (`sameFields_*`).  What it does at its own path is a lemma
each: loading returns what is held (`loadFromPath_holds`), persisting makes it held
(`persist_keeps`), clearing makes it gone (`clearAtPath_gone`).
-/
import Openyak.Runtime.Credentials

namespace Openyak.Runtime.Credentials

open Openyak.Theory
open Openyak.Theory.Posix (Path)
open Openyak.Runtime (SerdeValue)

set_option autoImplicit false

/-! ## What was encoded is decoded -/

theorem mapM_readString (texts : List String) :
    (texts.map JsonTree.string).mapM (readString) = Except.ok texts := by
  induction texts with
  | nil => rfl
  | cons text texts ih =>
      rw [List.map_cons, List.mapM_cons, ih]
      rfl

theorem decode_encode (tokenSet : OAuthTokenSet) :
    decodeOAuthCredentials (encodeOAuthCredentials tokenSet) = .ok tokenSet := by
  obtain ⟨accessToken, refreshToken, expiresAt, scopes⟩ := tokenSet
  have scopesRead : readScopes (some (.array (scopes.map .string))) = .ok scopes :=
    mapM_readString scopes
  have refreshRead : readOptional readString
      (some ((refreshToken.map JsonTree.string).getD .null)) = .ok refreshToken := by
    cases refreshToken <;> rfl
  have expiresRead : readOptional readU64
      (some ((expiresAt.map fun at_ => .number (.posInt at_)).getD .null)) = .ok expiresAt := by
    cases expiresAt <;> rfl
  have keys : ("refreshToken" = "accessToken") = False ∧ ("expiresAt" = "accessToken") = False ∧
      ("scopes" = "accessToken") = False ∧ ("expiresAt" = "refreshToken") = False ∧
      ("scopes" = "refreshToken") = False ∧ ("scopes" = "expiresAt") = False := by decide
  simp only [encodeOAuthCredentials, decodeOAuthCredentials, JsonEntries.ofMembers,
    List.foldl_cons, List.foldl_nil, JsonEntries.get?_insert, keys, if_false, if_true]
  rw [readFields, refreshRead, expiresRead, scopesRead]
  rfl

/-! ## How the next access and the next write go -/

namespace World

def nextAccess (world : World) : StoreAccess := world.accesses.head?.getD .available

def nextFault (world : World) : DiskFault := world.faults.head?.getD .none

def afterAccess (world : World) : World := { world with accesses := world.accesses.tail }

def afterFault (world : World) : World := { world with faults := world.faults.tail }

@[simp] theorem files_afterAccess (world : World) : world.afterAccess.files = world.files := rfl
@[simp] theorem store_afterAccess (world : World) : world.afterAccess.store = world.store := rfl
@[simp] theorem nextFault_afterAccess (world : World) :
    world.afterAccess.nextFault = world.nextFault := rfl
@[simp] theorem files_afterFault (world : World) : world.afterFault.files = world.files := rfl
@[simp] theorem store_afterFault (world : World) : world.afterFault.store = world.store := rfl

end World

theorem access_eq (world : World) : access world = (.ok world.nextAccess, world.afterAccess) := by
  obtain ⟨files, store, accesses, faults⟩ := world
  cases accesses <;> rfl

theorem fault_eq (world : World) : fault world = (.ok world.nextFault, world.afterFault) := by
  obtain ⟨files, store, accesses, faults⟩ := world
  cases faults <;> rfl

theorem saveSecret_eq (path : Path) (secret : Secret) (world : World) :
    saveSecretToSystemStore path secret world =
      match world.nextAccess with
      | .available => (.ok true, world.afterAccess.setEntry .current path (some secret))
      | .unavailable => (.ok false, world.afterAccess)
      | .broken error => (.error error, world.afterAccess) := by
  rw [saveSecretToSystemStore, Action.bind_ok (access_eq world)]
  cases world.nextAccess <;> rfl

theorem loadSecretFrom_cons (path : Path) (service : Service) (services : List Service)
    (world : World) :
    loadSecretFrom path (service :: services) world =
      match world.nextAccess with
      | .available =>
          match world.store service path with
          | some secret => (.ok (some secret), world.afterAccess)
          | none => loadSecretFrom path services world.afterAccess
      | .unavailable => (.ok none, world.afterAccess)
      | .broken error => (.error error, world.afterAccess) := by
  rw [loadSecretFrom, Action.bind_ok (access_eq world)]
  cases world.nextAccess with
  | available =>
      show (match world.store service path with
        | some secret => pure (some secret)
        | none => loadSecretFrom path services : Work (Option Secret)) world.afterAccess = _
      dsimp only
      cases world.store service path <;> rfl
  | unavailable => rfl
  | broken error => rfl

theorem clearSecretFrom_cons (path : Path) (service : Service) (services : List Service)
    (world : World) :
    clearSecretFrom path (service :: services) world =
      match world.nextAccess with
      | .available =>
          clearSecretFrom path services (world.afterAccess.setEntry service path none)
      | .unavailable => (.ok ⟨⟩, world.afterAccess)
      | .broken error => (.error error, world.afterAccess) := by
  rw [clearSecretFrom, Action.bind_ok (access_eq world)]
  cases world.nextAccess <;> rfl

theorem writeRoot_eq (path : Path) (root : Root) (world : World) :
    writeCredentialsRoot path root world =
      match world.nextFault with
      | .none => (.ok ⟨⟩, world.afterFault.setFile path (.root root))
      | .early error => (.error error, world.afterFault)
      | .removed error => (.error error, world.afterFault.setFile path .absent)
      | .late error => (.error error, world.afterFault.setFile path (.root root)) := by
  rw [writeCredentialsRoot, Action.bind_ok (fault_eq world)]
  cases world.nextFault <;> rfl

theorem removeFile_eq (path : Path) (world : World) :
    removeFile path world =
      match world.nextFault with
      | .none => (.ok ⟨⟩, world.afterFault.setFile path .absent)
      | .early error | .removed error | .late error => (.error error, world.afterFault) := by
  rw [removeFile, Action.bind_ok (fault_eq world)]
  cases world.nextFault <;> rfl

theorem saveToFile_eq (path : Path) (tokenSet : OAuthTokenSet) (world : World) :
    saveOAuthCredentialsToFile path tokenSet world =
      match (world.files path).read with
      | .ok root =>
          writeCredentialsRoot path (root.insert "oauth" (encodeOAuthCredentials tokenSet)) world
      | .error error => (.error error, world) := by
  show ((readCredentialsRoot path) >>= _) world = _
  have reads : readCredentialsRoot path world = ofExcept (world.files path).read world := rfl
  cases isRead : (world.files path).read with
  | ok root =>
      rw [isRead] at reads
      rw [Action.bind_ok reads]
  | error error =>
      rw [isRead] at reads
      rw [Action.bind_error reads]

theorem removeFromFile_eq (path : Path) (world : World) :
    removeOAuthCredentialsFromFile path world =
      match world.files path with
      | .absent => (.ok ⟨⟩, world)
      | .unreadable error => (.error error, world)
      | .root root =>
          if (root.remove "oauth").entries.isEmpty then removeFile path world
          else writeCredentialsRoot path (root.remove "oauth") world := by
  rw [removeOAuthCredentialsFromFile,
    Action.bind_ok (show Action.get world = (.ok world, world) from rfl)]
  cases world.files path with
  | absent => rfl
  | unreadable error => rfl
  | root root =>
      show (if (root.remove "oauth").entries.isEmpty then removeFile path
        else writeCredentialsRoot path (root.remove "oauth")) world = _
      dsimp only
      split <;> rfl

/-! ## What is kept -/

/-- A condition that nothing done at `path` can break. -/
structure KeptAt (path : Path) (holds : World → Prop) : Prop where
  access : ∀ {world}, holds world → holds world.afterAccess
  fault : ∀ {world}, holds world → holds world.afterFault
  entry : ∀ {world} service secret, holds world → holds (world.setEntry service path secret)
  insert : ∀ {world root} value, holds world → (world.files path).read = .ok root →
    holds (world.setFile path (.root (root.insert "oauth" value)))
  remove : ∀ {world root}, holds world → world.files path = .root root →
    holds (world.setFile path (.root (root.remove "oauth")))
  empty : ∀ {world root}, holds world → world.files path = .root root →
    (root.remove "oauth").entries = [] → holds (world.setFile path .absent)
  lost : ∀ {world error}, holds world → world.nextFault = .removed error →
    holds (world.afterFault.setFile path .absent)

section Kept

variable {path : Path} {holds : World → Prop} (kept : KeptAt path holds)
include kept

theorem access_keeps : Action.Keeps holds access := by
  intro world held
  rw [access_eq]
  exact kept.access held

omit kept in
theorem ofExcept_keeps {α : Type} (result : Except String α) :
    Action.Keeps holds (ofExcept result) := by
  cases result with
  | ok value => exact Action.Keeps.pure value
  | error error => exact Action.Keeps.fail error

theorem loadSecretFrom_keeps (services : List Service) :
    Action.Keeps holds (loadSecretFrom path services) := by
  induction services with
  | nil => exact Action.Keeps.pure _
  | cons service services ih =>
      rw [loadSecretFrom]
      refine Action.Keeps.bind (access_keeps kept) fun went => ?_
      cases went with
      | available =>
          refine Action.Keeps.bind Action.Keeps.get fun world => ?_
          split
          · exact Action.Keeps.pure _
          · exact ih
      | unavailable => exact Action.Keeps.pure _
      | broken error => exact Action.Keeps.fail error

theorem clearSecretFrom_keeps (services : List Service) :
    Action.Keeps holds (clearSecretFrom path services) := by
  induction services with
  | nil => exact Action.Keeps.pure _
  | cons service services ih =>
      rw [clearSecretFrom]
      refine Action.Keeps.bind (access_keeps kept) fun went => ?_
      cases went with
      | available =>
          exact Action.Keeps.bind
            (Action.Keeps.modify fun world held => kept.entry service none held) fun _ => ih
      | unavailable => exact Action.Keeps.pure _
      | broken error => exact Action.Keeps.fail error

theorem saveSecret_keeps (secret : Secret) :
    Action.Keeps holds (saveSecretToSystemStore path secret) := by
  refine Action.Keeps.bind (access_keeps kept) fun went => ?_
  cases went with
  | available =>
      exact Action.Keeps.bind
        (Action.Keeps.modify fun world held => kept.entry .current (some secret) held)
        fun _ => Action.Keeps.pure _
  | unavailable => exact Action.Keeps.pure _
  | broken error => exact Action.Keeps.fail error

theorem saveToFile_keeps (tokenSet : OAuthTokenSet) :
    Action.Keeps holds (saveOAuthCredentialsToFile path tokenSet) := by
  intro world held
  rw [saveToFile_eq]
  cases reads : (world.files path).read with
  | error error => exact held
  | ok root =>
      dsimp only
      rw [writeRoot_eq]
      have written := kept.insert (encodeOAuthCredentials tokenSet) (kept.fault held) reads
      cases went : world.nextFault with
      | none => exact written
      | early error => exact kept.fault held
      | removed error => exact kept.lost held went
      | late error => exact written

theorem removeFromFile_keeps :
    Action.Keeps holds (removeOAuthCredentialsFromFile path) := by
  intro world held
  rw [removeFromFile_eq]
  cases there : world.files path with
  | absent => exact held
  | unreadable error => exact held
  | root root =>
      have faulted := kept.fault held
      dsimp only
      split
      · rename_i none_
        have removed := kept.empty faulted there (List.isEmpty_iff.1 none_)
        rw [removeFile_eq]
        cases world.nextFault with
        | none => exact removed
        | early error => exact faulted
        | removed error => exact faulted
        | late error => exact faulted
      · have written := kept.remove faulted there
        rw [writeRoot_eq]
        cases went : world.nextFault with
        | none => exact written
        | early error => exact faulted
        | removed error => exact kept.lost held went
        | late error => exact written

theorem persistAtPath_keeps (tokenSet : OAuthTokenSet) :
    Action.Keeps holds (persistOAuthCredentialsAtPath path tokenSet) := by
  refine Action.Keeps.bind (saveSecret_keeps kept _) fun saved => ?_
  split
  · exact removeFromFile_keeps kept
  · exact saveToFile_keeps kept tokenSet

theorem loadFromPath_keeps :
    Action.Keeps holds (loadOAuthCredentialsFromPath path) := by
  refine Action.Keeps.bind (loadSecretFrom_keeps kept _) fun secret => ?_
  split
  · exact ofExcept_keeps _
  · refine Action.Keeps.bind (Action.Keeps.bind
      (Action.Keeps.bind Action.Keeps.get fun _ => ofExcept_keeps _) fun _ => ofExcept_keeps _)
      fun tokenSet => ?_
    split
    · exact Action.Keeps.pure _
    · refine Action.Keeps.bind (saveSecret_keeps kept _) fun saved => ?_
      refine Action.Keeps.bind (Action.Keeps.when _ (removeFromFile_keeps kept)) fun _ => ?_
      exact Action.Keeps.pure _

theorem clearAtPath_keeps :
    Action.Keeps holds (clearOAuthCredentialsAtPath path) :=
  Action.Keeps.bind (removeFromFile_keeps kept) fun _ => clearSecretFrom_keeps kept _

omit kept in
theorem ignored_keeps {act : Work PUnit} (keeps : Action.Keeps holds act) :
    Action.Keeps holds (ignored act) :=
  Action.Keeps.bind keeps.attempt fun _ => Action.Keeps.pure _

end Kept

/-! ## Other paths -/

/-- What is kept of one path. -/
def AtPath (other : Path) (file : CredentialsFile) (entries : Service → Option Secret)
    (world : World) : Prop :=
  world.files other = file ∧ ∀ service, world.store service other = entries service

theorem setFile_self (world : World) (path : Path) (file : CredentialsFile) :
    (world.setFile path file).files path = file := Function.update_self ..

theorem setFile_other (world : World) {path other : Path} (different : other ≠ path)
    (file : CredentialsFile) : (world.setFile path file).files other = world.files other := by
  rw [World.setFile]
  exact Function.update_of_ne different ..

theorem setEntry_other (world : World) {path other : Path} (different : other ≠ path)
    (service asked : Service) (secret : Option Secret) :
    (world.setEntry service path secret).store asked other = world.store asked other := by
  show Function.update world.store service _ asked other = _
  by_cases same : asked = service
  · subst same
    rw [Function.update_self, Function.update_of_ne different]
  · rw [Function.update_of_ne same]

theorem setEntry_self (world : World) (path : Path) (service asked : Service)
    (secret : Option Secret) :
    (world.setEntry service path secret).store asked path =
      if asked = service then secret else world.store asked path := by
  show Function.update world.store service _ asked path = _
  by_cases same : asked = service
  · subst same
    rw [Function.update_self, Function.update_self, if_pos rfl]
  · rw [Function.update_of_ne same, if_neg same]

theorem keptAt_other {path other : Path} (different : other ≠ path) (file : CredentialsFile)
    (entries : Service → Option Secret) : KeptAt path (AtPath other file entries) := by
  have set {world : World} (at_ : AtPath other file entries world) (content : CredentialsFile) :
      AtPath other file entries (world.setFile path content) :=
    ⟨(setFile_other world different content).trans at_.1, at_.2⟩
  constructor
  case access => exact fun at_ => at_
  case fault => exact fun at_ => at_
  case entry =>
    exact fun service secret at_ => ⟨at_.1, fun asked =>
      (setEntry_other _ different service asked secret).trans (at_.2 asked)⟩
  case insert => exact fun _ at_ _ => set at_ _
  case remove => exact fun at_ _ => set at_ _
  case empty => exact fun at_ _ _ => set at_ _
  case lost => exact fun at_ _ => ⟨(setFile_other _ different _).trans at_.1, at_.2⟩

/-- The accesses to come are some of those there were. -/
theorem keptAt_accesses (path : Path) (allowed : StoreAccess → Prop) :
    KeptAt path fun world => ∀ access ∈ world.accesses, allowed access := by
  constructor
  case access => exact fun held access member => held access (List.mem_of_mem_tail member)
  case fault => exact fun held => held
  case entry => exact fun _ _ held => held
  case insert => exact fun _ held _ => held
  case remove => exact fun held _ => held
  case empty => exact fun held _ _ => held
  case lost => exact fun held _ => held

/-! ## Other fields -/

def CredentialsFile.field : CredentialsFile → String → Option SerdeValue
  | .root fields, key => fields.get key
  | _, _ => none

/-- The same but for `oauth`, and what cannot be read is not touched. -/
def SameFields (before after : CredentialsFile) : Prop :=
  (∀ key, key ≠ "oauth" → after.field key = before.field key) ∧
    ∀ error, after = .unreadable error ↔ before = .unreadable error

theorem SameFields.refl (file : CredentialsFile) : SameFields file file :=
  ⟨fun _ _ => rfl, fun _ => Iff.rfl⟩

theorem field_of_read {file : CredentialsFile} {root : Root} (reads : file.read = .ok root)
    (key : String) : file.field key = root.get key := by
  cases file with
  | absent => cases reads; rfl
  | unreadable error => cases reads
  | root fields => cases reads; rfl

theorem read_ne_unreadable {file : CredentialsFile} {root : Root} (reads : file.read = .ok root)
    (error : String) : file ≠ .unreadable error := by
  rintro rfl
  cases reads

/-- A root with the fields of the file, which could be read, keeps its fields. -/
theorem SameFields.write {before file written : CredentialsFile} {root : Root}
    (same : SameFields before file) (reads : file.read = .ok root)
    (readable : ∀ error, written ≠ .unreadable error)
    (fields : ∀ key, key ≠ "oauth" → written.field key = root.get key) :
    SameFields before written := by
  refine ⟨fun key other => ?_, fun error => ⟨fun unread => absurd unread (readable error),
    fun unread => absurd ((same.2 error).2 unread) (read_ne_unreadable reads error)⟩⟩
  rw [fields key other, ← field_of_read reads key, same.1 key other]

/-- No write fails, and the files are as they were but for `oauth`. -/
def Undamaged (before : Path → CredentialsFile) (world : World) : Prop :=
  world.faults = [] ∧ ∀ path, SameFields (before path) (world.files path)

theorem Undamaged.setFile {before : Path → CredentialsFile} {world : World}
    (undamaged : Undamaged before world) {path : Path} {written : CredentialsFile}
    (same : SameFields (before path) written) : Undamaged before (world.setFile path written) := by
  refine ⟨undamaged.1, fun asked => ?_⟩
  by_cases here : asked = path
  · rw [here, setFile_self]
    exact same
  · rw [setFile_other world here]
    exact undamaged.2 asked

theorem keptAt_undamaged (path : Path) (before : Path → CredentialsFile) :
    KeptAt path (Undamaged before) := by
  constructor
  case access => exact fun undamaged => undamaged
  case fault => exact fun undamaged => ⟨congrArg List.tail undamaged.1, undamaged.2⟩
  case entry => exact fun _ _ undamaged => undamaged
  case insert =>
    intro world root value undamaged reads
    refine undamaged.setFile ((undamaged.2 path).write reads nofun fun key other => ?_)
    exact OrderedMap.get_insert_other root value other
  case remove =>
    intro world root undamaged there
    have reads : (world.files path).read = .ok root := by rw [there]; rfl
    refine undamaged.setFile ((undamaged.2 path).write reads nofun fun key other => ?_)
    exact OrderedMap.get_remove_other root other
  case empty =>
    intro world root undamaged there none_
    have reads : (world.files path).read = .ok root := by rw [there]; rfl
    refine undamaged.setFile ((undamaged.2 path).write reads nofun fun key other => ?_)
    rw [← OrderedMap.get_remove_other root other, OrderedMap.get, none_]
    rfl
  case lost =>
    intro world error undamaged went
    rw [World.nextFault, undamaged.1] at went
    cases went

/-! ## What a path holds -/

/-- The first entry of the services. -/
def World.entryFrom (world : World) (path : Path) (services : List Service) : Option Secret :=
  services.findSome? fun service => world.store service path

def World.secretAt (world : World) (path : Path) : Option Secret :=
  world.entryFrom path [.current, .legacy]

def CredentialsFile.tokens (file : CredentialsFile) : Except String (Option OAuthTokenSet) :=
  file.read.bind parseOAuthCredentialsFromRoot

def Readable (file : CredentialsFile) : Prop := ∃ root, file.read = .ok root

/-- The token set that a load finds at the path. -/
def HoldsAt (world : World) (path : Path) (tokenSet : OAuthTokenSet) : Prop :=
  (∃ secret, world.secretAt path = some secret ∧
    loadOAuthCredentialsFromSecret secret = .ok tokenSet) ∨
  (world.secretAt path = none ∧ (world.files path).tokens = .ok (some tokenSet))

/-- There is nothing to be found at the path. -/
def BareAt (world : World) (path : Path) : Prop :=
  world.secretAt path = none ∧ ∀ tokenSet, (world.files path).tokens ≠ .ok (some tokenSet)

def EmptyAt (world : World) (path : Path) : Prop :=
  world.secretAt path = none ∧ (world.files path).tokens = .ok none

theorem EmptyAt.bare {world : World} {path : Path} (empty : EmptyAt world path) :
    BareAt world path := by
  refine ⟨empty.1, fun tokenSet same => ?_⟩
  rw [empty.2] at same
  cases same

theorem secretAt_congr {world after : World} {path : Path}
    (same : ∀ service, after.store service path = world.store service path) :
    after.secretAt path = world.secretAt path := by
  simp only [World.secretAt, World.entryFrom, same]

theorem secretAt_eq_none_iff {world : World} {path : Path} :
    world.secretAt path = none ↔ ∀ service, world.store service path = none := by
  simp only [World.secretAt, World.entryFrom, List.findSome?_eq_none_iff, List.mem_cons]
  constructor
  · intro absent service
    cases service <;> simp [absent]
  · intro absent service _
    exact absent service

/-- Same at a path. -/
structure Alike (path : Path) (world after : World) : Prop where
  files : after.files path = world.files path
  store : ∀ service, after.store service path = world.store service path

namespace Alike

variable {path : Path} {world after : World} {tokenSet : OAuthTokenSet}

theorem refl (path : Path) (world : World) : Alike path world world := ⟨rfl, fun _ => rfl⟩

theorem trans {last : World} (first : Alike path world after) (second : Alike path after last) :
    Alike path world last :=
  ⟨second.files.trans first.files, fun service => (second.store service).trans (first.store service)⟩

variable (alike : Alike path world after)
include alike

theorem holdsAt (holds : HoldsAt world path tokenSet) : HoldsAt after path tokenSet := by
  rw [HoldsAt, secretAt_congr alike.store, alike.files]
  exact holds

theorem bareAt (bare : BareAt world path) : BareAt after path := by
  rw [BareAt, secretAt_congr alike.store, alike.files]
  exact bare

theorem emptyAt (empty : EmptyAt world path) : EmptyAt after path := by
  rw [EmptyAt, secretAt_congr alike.store, alike.files]
  exact empty

end Alike

/-- What an operation elsewhere leaves alike. -/
theorem alike_of_keeps {α : Type} {act : Work α} {path other : Path} (different : other ≠ path)
    (keeps : ∀ {holds : World → Prop}, KeptAt path holds → Action.Keeps holds act)
    (world : World) : Alike other world (act world).2 := by
  have kept := keeps (keptAt_other different (world.files other)
    fun service => world.store service other) world ⟨rfl, fun _ => rfl⟩
  exact ⟨kept.1, kept.2⟩

end Openyak.Runtime.Credentials
