/-
# Runtime.Credentials -- where the saved OAuth credentials are kept

One token set lives in the credentials file (under `oauth`, beside fields of others) or in
the system's secret store (under two service names, of which the older is only read and
deleted).  The store may be unavailable at any access, which is not an error: the file is
used instead.  A home directory of an earlier name has a file and entries of its own, which a
load migrates.

A file is what `serde_json` reads of its text, and a secret what it reads of its bytes.
-/
import Openyak.Runtime.Settings
import Openyak.Theory.Action
import Openyak.Theory.OrderedMap
import Mathlib.Data.String.Basic

namespace Openyak.Runtime.Credentials

open Openyak.Theory
open Openyak.Theory.Posix (Path)
open Openyak.Runtime (SerdeValue)

set_option autoImplicit false

structure OAuthTokenSet where
  accessToken : String
  refreshToken : Option String
  expiresAt : Option UInt64
  scopes : List String
  deriving DecidableEq, Repr

/-! ## Stored credentials -/

/-- `to_value` and `to_vec` of the stored form. -/
def encodeOAuthCredentials (tokenSet : OAuthTokenSet) : SerdeValue :=
  .object (.ofMembers [
    ("accessToken", .string tokenSet.accessToken),
    ("refreshToken", (tokenSet.refreshToken.map JsonTree.string).getD .null),
    ("expiresAt", (tokenSet.expiresAt.map fun at_ => .number (.posInt at_)).getD .null),
    ("scopes", .array (tokenSet.scopes.map .string))])

def readString : SerdeValue → Except String String
  | .string text => .ok text
  | _ => .error "invalid type: expected a string"

def readU64 : SerdeValue → Except String UInt64
  | .number (.posInt value) => .ok value
  | _ => .error "invalid type: expected u64"

/-- An `Option` field with `#[serde(default)]`: absent and `null` are `None`. -/
def readOptional {α : Type} (read : SerdeValue → Except String α) :
    Option SerdeValue → Except String (Option α)
  | none | some .null => .ok none
  | some value => (read value).map some

def readScopes : Option SerdeValue → Except String (List String)
  | none => .ok []
  | some (.array values) => values.mapM readString
  | some _ => .error "invalid type: expected a sequence"

def readFields (accessToken refreshToken expiresAt scopes : Option SerdeValue) :
    Except String OAuthTokenSet := do
  let accessToken ← match accessToken with
    | some value => readString value
    | none => .error "missing field accessToken"
  let refreshToken ← readOptional readString refreshToken
  let expiresAt ← readOptional readU64 expiresAt
  let scopes ← readScopes scopes
  return { accessToken, refreshToken, expiresAt, scopes }

/-- `from_value` and `from_slice` of the stored form, which is an object or a sequence of
the fields. -/
def decodeOAuthCredentials : SerdeValue → Except String OAuthTokenSet
  | .object fields => readFields (fields.get? "accessToken") (fields.get? "refreshToken")
      (fields.get? "expiresAt") (fields.get? "scopes")
  | .array values =>
      if values.length ≤ 4 then readFields values[0]? values[1]? values[2]? values[3]?
      else .error "invalid length"
  | _ => .error "invalid type: expected struct StoredOAuthCredentials"

/-! ## The world -/

abbrev Root := OrderedMap String SerdeValue

inductive CredentialsFile where
  | absent
  | unreadable (error : String)
  | root (fields : Root)

/-- `OAUTH_KEYRING_SERVICE` and `LEGACY_OAUTH_KEYRING_SERVICE`. -/
inductive Service where
  | current
  | legacy
  deriving DecidableEq, Repr

/-- How one access of the secret store goes.  `unavailable` stands for the errors that
`keyring_error_is_fallbackable` accepts. -/
inductive StoreAccess where
  | available
  | unavailable
  | broken (error : String)
  deriving DecidableEq, Repr

/-- How one writing call on the disk goes wrong, if it does: before it changed anything,
after the old file was removed, or after the new one was in its place. -/
inductive DiskFault where
  | none
  | early (error : String)
  | removed (error : String)
  | late (error : String)
  deriving DecidableEq, Repr

abbrev Secret := Except String SerdeValue

/-- `accesses` and `faults` are how the next accesses go; beyond them all goes well. -/
structure World where
  files : Path → CredentialsFile
  store : Service → Path → Option Secret
  accesses : List StoreAccess
  faults : List DiskFault

namespace World

def setFile (world : World) (path : Path) (file : CredentialsFile) : World :=
  { world with files := Function.update world.files path file }

def setEntry (world : World) (service : Service) (path : Path) (secret : Option Secret) : World :=
  { world with
    store := Function.update world.store service
      (Function.update (world.store service) path secret) }

end World

abbrev Work := Action World String

def access : Work StoreAccess := fun world =>
  match world.accesses with
  | [] => (.ok .available, world)
  | first :: rest => (.ok first, { world with accesses := rest })

def fault : Work DiskFault := fun world =>
  match world.faults with
  | [] => (.ok .none, world)
  | first :: rest => (.ok first, { world with faults := rest })

/-! ## The secret store -/

/-- The rest of the loop over the services. -/
def loadSecretFrom (path : Path) : List Service → Work (Option Secret)
  | [] => pure none
  | service :: services => do
      match ← access with
      | .available =>
          let world ← Action.get
          match world.store service path with
          | some secret => pure (some secret)
          | none => loadSecretFrom path services
      | .unavailable => pure none
      | .broken error => Action.fail error

def loadSecretFromSystemStore (path : Path) : Work (Option Secret) :=
  loadSecretFrom path [.current, .legacy]

def saveSecretToSystemStore (path : Path) (secret : Secret) : Work Bool := do
  match ← access with
  | .available =>
      Action.modify fun world => world.setEntry .current path (some secret)
      pure true
  | .unavailable => pure false
  | .broken error => Action.fail error

def clearSecretFrom (path : Path) : List Service → Work PUnit
  | [] => pure ⟨⟩
  | service :: services => do
      match ← access with
      | .available =>
          Action.modify fun world => world.setEntry service path none
          clearSecretFrom path services
      | .unavailable => pure ⟨⟩
      | .broken error => Action.fail error

def clearSecretFromSystemStore (path : Path) : Work PUnit :=
  clearSecretFrom path [.current, .legacy]

/-! ## The file -/

def CredentialsFile.read : CredentialsFile → Except String Root
  | .absent => .ok .empty
  | .unreadable error => .error error
  | .root fields => .ok fields

def ofExcept {α : Type} : Except String α → Work α
  | .ok value => pure value
  | .error error => Action.fail error

def readCredentialsRoot (path : Path) : Work Root := do
  let world ← Action.get
  ofExcept (world.files path).read

def writeCredentialsRoot (path : Path) (root : Root) : Work PUnit := do
  match ← fault with
  | .none => Action.modify fun world => world.setFile path (.root root)
  | .early error => Action.fail error
  | .removed error => do
      Action.modify fun world => world.setFile path .absent
      Action.fail error
  | .late error => do
      Action.modify fun world => world.setFile path (.root root)
      Action.fail error

/-- `fs::remove_file`, which changes nothing when it fails. -/
def removeFile (path : Path) : Work PUnit := do
  match ← fault with
  | .none => Action.modify fun world => world.setFile path .absent
  | .early error | .removed error | .late error => Action.fail error

def parseOAuthCredentialsFromRoot (root : Root) : Except String (Option OAuthTokenSet) :=
  match root.get "oauth" with
  | none | some .null => .ok none
  | some oauth => (decodeOAuthCredentials oauth).map some

def loadOAuthCredentialsFromFile (path : Path) : Work (Option OAuthTokenSet) := do
  let root ← readCredentialsRoot path
  ofExcept (parseOAuthCredentialsFromRoot root)

def saveOAuthCredentialsToFile (path : Path) (tokenSet : OAuthTokenSet) : Work PUnit := do
  let root ← readCredentialsRoot path
  writeCredentialsRoot path (root.insert "oauth" (encodeOAuthCredentials tokenSet))

def removeOAuthCredentialsFromFile (path : Path) : Work PUnit := do
  let world ← Action.get
  match world.files path with
  | .absent => pure ⟨⟩
  | file => do
      let root ← ofExcept file.read
      if (root.remove "oauth").entries.isEmpty then removeFile path
      else writeCredentialsRoot path (root.remove "oauth")

/-! ## One path -/

def loadOAuthCredentialsFromSecret (secret : Secret) : Except String OAuthTokenSet :=
  secret.bind decodeOAuthCredentials

def loadOAuthCredentialsFromPath (path : Path) : Work (Option OAuthTokenSet) := do
  match ← loadSecretFromSystemStore path with
  | some secret => ofExcept ((loadOAuthCredentialsFromSecret secret).map some)
  | none =>
      match ← loadOAuthCredentialsFromFile path with
      | none => pure none
      | some tokenSet => do
          let saved ← saveSecretToSystemStore path (.ok (encodeOAuthCredentials tokenSet))
          Action.when saved (removeOAuthCredentialsFromFile path)
          pure (some tokenSet)

def persistOAuthCredentialsAtPath (path : Path) (tokenSet : OAuthTokenSet) : Work PUnit := do
  let saved ← saveSecretToSystemStore path (.ok (encodeOAuthCredentials tokenSet))
  if saved then removeOAuthCredentialsFromFile path
  else saveOAuthCredentialsToFile path tokenSet

def clearOAuthCredentialsAtPath (path : Path) : Work PUnit := do
  removeOAuthCredentialsFromFile path
  clearSecretFromSystemStore path

/-! ## The operations -/

/-- `let _ = ...`. -/
def ignored (act : Work PUnit) : Work PUnit := do
  let _ ← act.attempt
  pure ⟨⟩

/-- The two places the credentials of a user may be. -/
structure Places where
  current : Path
  legacy : Path
  deriving DecidableEq

/-- The clean-up of the earlier home directory, whose errors are not looked at. -/
def clearLegacy (places : Places) : Work PUnit :=
  Action.when (places.legacy ≠ places.current) (ignored (clearOAuthCredentialsAtPath places.legacy))

def loadOAuthCredentials (places : Places) : Work (Option OAuthTokenSet) := do
  match ← loadOAuthCredentialsFromPath places.current with
  | some tokenSet => pure (some tokenSet)
  | none =>
      if places.legacy = places.current then pure none
      else
        match ← loadOAuthCredentialsFromPath places.legacy with
        | none => pure none
        | some tokenSet => do
            persistOAuthCredentialsAtPath places.current tokenSet
            ignored (clearOAuthCredentialsAtPath places.legacy)
            pure (some tokenSet)

def saveOAuthCredentials (places : Places) (tokenSet : OAuthTokenSet) : Work PUnit := do
  persistOAuthCredentialsAtPath places.current tokenSet
  clearLegacy places

def clearOAuthCredentials (places : Places) : Work PUnit := do
  clearOAuthCredentialsAtPath places.current
  clearLegacy places

end Openyak.Runtime.Credentials
