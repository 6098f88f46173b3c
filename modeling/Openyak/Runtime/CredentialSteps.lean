/-
# Runtime.CredentialSteps -- what the operations do at their own path

The secret store goes before the file, so that what is saved into the file counts only where
the store has no entry: the conditions below are on the next access and on the entries.
-/
import Openyak.Runtime.CredentialPlaces

namespace Openyak.Runtime.Credentials

open Openyak.Theory
open Openyak.Theory.Posix (Path)
open Openyak.Runtime (SerdeValue)

set_option autoImplicit false

variable {path : Path} {world : World} {tokenSet : OAuthTokenSet}

/-! ## The store -/

theorem alike_afterAccess (path : Path) (world : World) : Alike path world world.afterAccess :=
  ⟨rfl, fun _ => rfl⟩

theorem loadSecretFrom_spec (path : Path) (services : List Service) (world : World) :
    Alike path world (loadSecretFrom path services world).2 ∧
      (∀ found, (loadSecretFrom path services world).1 = .ok found →
        found = none ∨ found = world.entryFrom path services) ∧
      ((∀ access ∈ world.accesses, access ≠ .unavailable) →
        ∀ found, (loadSecretFrom path services world).1 = .ok found →
          found = world.entryFrom path services) ∧
      (world.accesses = [] →
        (loadSecretFrom path services world).1 = .ok (world.entryFrom path services)) := by
  induction services generalizing world with
  | nil =>
      refine ⟨.refl path world, ?_, ?_, fun _ => rfl⟩
      · intro found same
        exact .inl (Except.ok.inj same).symm
      · intro _ found same
        exact (Except.ok.inj same).symm
  | cons service services ih =>
      obtain ⟨alike, onlyThis, exactly_, alone⟩ := ih world.afterAccess
      rw [loadSecretFrom_cons]
      cases went : world.nextAccess with
      | available =>
          cases there : world.store service path with
          | some secret =>
              have first : world.entryFrom path (service :: services) = some secret := by
                rw [World.entryFrom, List.findSome?_cons, there]
              rw [first]
              refine ⟨alike_afterAccess path world, ?_, ?_, fun _ => rfl⟩
              · intro found same
                exact .inr (Except.ok.inj same).symm
              · intro _ found same
                exact (Except.ok.inj same).symm
          | none =>
              have later : world.entryFrom path (service :: services) =
                  world.afterAccess.entryFrom path services := by
                rw [World.entryFrom, List.findSome?_cons, there]
                rfl
              rw [later]
              refine ⟨(alike_afterAccess path world).trans alike, onlyThis, fun reach => ?_,
                fun none_ => ?_⟩
              · exact exactly_ fun access member => reach access (List.mem_of_mem_tail member)
              · exact alone (congrArg List.tail none_)
      | unavailable =>
          refine ⟨alike_afterAccess path world, ?_, fun reach => ?_, fun none_ => ?_⟩
          · intro found same
            exact .inl (Except.ok.inj same).symm
          · have member : StoreAccess.unavailable ∈ world.accesses := by
              rw [World.nextAccess] at went
              cases listed : world.accesses with
              | nil => rw [listed] at went; cases went
              | cons first rest =>
                  rw [listed] at went
                  cases went
                  exact List.mem_cons_self
            exact absurd rfl (reach _ member)
          · rw [World.nextAccess, none_] at went
            cases went
      | broken error =>
          refine ⟨alike_afterAccess path world, fun _ same => (by cases same),
            fun _ _ same => (by cases same), fun none_ => ?_⟩
          rw [World.nextAccess, none_] at went
          cases went

/-- No access fails to reach the store, or there is nothing in it to be reached. -/
def Reaches (world : World) (path : Path) : Prop :=
  (∀ access ∈ world.accesses, access ≠ .unavailable) ∨ world.secretAt path = none

theorem loadSecret_reaches (reaches : Reaches world path) {found : Option Secret}
    (loaded : (loadSecretFromSystemStore path world).1 = .ok found) :
    found = world.secretAt path := by
  obtain ⟨-, onlyThis, exactly_, -⟩ := loadSecretFrom_spec path [.current, .legacy] world
  rcases reaches with reach | absent
  · exact exactly_ reach found loaded
  · rcases onlyThis found loaded with same | same
    · rw [same, absent]
    · exact same

/-! ## The file -/

theorem loadFromFile_eq (path : Path) (world : World) :
    loadOAuthCredentialsFromFile path world = ((world.files path).tokens, world) := by
  show ((readCredentialsRoot path) >>= _) world = _
  have reads : readCredentialsRoot path world = ofExcept (world.files path).read world := rfl
  rw [CredentialsFile.tokens]
  cases isRead : (world.files path).read with
  | error error =>
      rw [isRead] at reads
      rw [Action.bind_error reads]
      rfl
  | ok root =>
      rw [isRead] at reads
      rw [Action.bind_ok reads]
      show ofExcept (parseOAuthCredentialsFromRoot root) world = _
      show _ = (parseOAuthCredentialsFromRoot root, world)
      cases parseOAuthCredentialsFromRoot root <;> rfl

theorem tokens_absent : CredentialsFile.absent.tokens = .ok none := rfl

theorem tokens_remove (root : Root) : (CredentialsFile.root (root.remove "oauth")).tokens = .ok none := by
  show parseOAuthCredentialsFromRoot (root.remove "oauth") = _
  rw [parseOAuthCredentialsFromRoot, OrderedMap.get_remove]

theorem tokens_insert (root : Root) (tokenSet : OAuthTokenSet) :
    (CredentialsFile.root (root.insert "oauth" (encodeOAuthCredentials tokenSet))).tokens =
      .ok (some tokenSet) := by
  show parseOAuthCredentialsFromRoot (root.insert "oauth" _) = _
  rw [parseOAuthCredentialsFromRoot, OrderedMap.get_insert]
  show (decodeOAuthCredentials (encodeOAuthCredentials tokenSet)).map some = _
  rw [decode_encode]
  rfl

theorem removeFile_store (path : Path) (world : World) :
    (removeFile path world).2.store = world.store := by
  rw [removeFile_eq]
  cases world.nextFault <;> rfl

theorem writeRoot_store (path : Path) (root : Root) (world : World) :
    (writeCredentialsRoot path root world).2.store = world.store := by
  rw [writeRoot_eq]
  cases world.nextFault <;> rfl

theorem removeFromFile_store (path : Path) (world : World) :
    (removeOAuthCredentialsFromFile path world).2.store = world.store := by
  rw [removeFromFile_eq]
  cases world.files path with
  | absent => rfl
  | unreadable error => rfl
  | root root =>
      dsimp only
      split
      · exact removeFile_store path world
      · exact writeRoot_store path _ world

theorem removeFromFile_ok (readable : Readable (world.files path))
    (undamaged : world.nextFault = .none) :
    (removeOAuthCredentialsFromFile path world).1 = .ok ⟨⟩ ∧
      ((removeOAuthCredentialsFromFile path world).2.files path).tokens = .ok none := by
  rw [removeFromFile_eq]
  cases there : world.files path with
  | absent => exact ⟨rfl, congrArg CredentialsFile.tokens there⟩
  | unreadable error =>
      obtain ⟨root, reads⟩ := readable
      rw [there] at reads
      cases reads
  | root root =>
      dsimp only
      split
      · rw [removeFile_eq, undamaged]
        exact ⟨rfl, congrArg CredentialsFile.tokens (setFile_self ..)⟩
      · rw [writeRoot_eq, undamaged]
        refine ⟨rfl, (congrArg CredentialsFile.tokens (setFile_self ..)).trans ?_⟩
        exact tokens_remove root

theorem readable_of_tokens {file : CredentialsFile} {found : Option OAuthTokenSet}
    (reads : file.tokens = .ok found) : Readable file := by
  rw [CredentialsFile.tokens] at reads
  cases isRead : file.read with
  | ok root => exact ⟨root, isRead⟩
  | error error =>
      rw [isRead] at reads
      cases reads

/-! ## One path -/

/-- An entry under the current service goes before all else. -/
theorem holdsAt_of_entry
    (there : world.store .current path = some (.ok (encodeOAuthCredentials tokenSet))) :
    HoldsAt world path tokenSet := by
  refine .inl ⟨.ok (encodeOAuthCredentials tokenSet), ?_, decode_encode tokenSet⟩
  rw [World.secretAt, World.entryFrom, List.findSome?_cons, there]

theorem entry_setEntry (world : World) (path : Path) (secret : Secret) :
    (world.setEntry .current path (some secret)).store .current path = some secret := by
  rw [setEntry_self, if_pos rfl]

/-- An end of a load that returned this, if anything, and left it at the path. -/
def Returned (path : Path) (tokenSet : OAuthTokenSet)
    (after : Except String (Option OAuthTokenSet) × World) : Prop :=
  (∀ found, after.1 = .ok found → found = some tokenSet) ∧ HoldsAt after.2 path tokenSet

theorem Returned.failed {error : String} (holds : HoldsAt world path tokenSet) :
    Returned path tokenSet (.error error, world) := ⟨nofun, holds⟩

theorem Returned.found (holds : HoldsAt world path tokenSet) :
    Returned path tokenSet (.ok (some tokenSet), world) :=
  ⟨fun _ same => (Except.ok.inj same).symm, holds⟩

theorem removal_returned
    (entered : world.store .current path = some (.ok (encodeOAuthCredentials tokenSet))) :
    Returned path tokenSet
      ((do removeOAuthCredentialsFromFile path; pure (some tokenSet) : Work _) world) := by
  have still : HoldsAt (removeOAuthCredentialsFromFile path world).2 path tokenSet := by
    apply holdsAt_of_entry
    rw [removeFromFile_store, entered]
  apply Action.bind_cases
  · intro _ after removed
    rw [removed] at still
    exact .found still
  · intro error after failed
    rw [failed] at still
    exact .failed still

/-- The migration of a file's token set into the store. -/
theorem migration_returned (holds : HoldsAt world path tokenSet) :
    Returned path tokenSet
      ((do
        let saved ← saveSecretToSystemStore path (.ok (encodeOAuthCredentials tokenSet))
        Action.when saved (removeOAuthCredentialsFromFile path)
        pure (some tokenSet) : Work _) world) := by
  have saves := saveSecret_eq path (.ok (encodeOAuthCredentials tokenSet)) world
  have still := (alike_afterAccess path world).holdsAt holds
  cases went : world.nextAccess with
  | broken error =>
      rw [went] at saves
      rw [Action.bind_error saves]
      exact .failed still
  | unavailable =>
      rw [went] at saves
      rw [Action.bind_ok saves]
      exact .found still
  | available =>
      rw [went] at saves
      rw [Action.bind_ok saves]
      exact removal_returned (entry_setEntry ..)

/-- **A load at a path returns what the path holds**, and the path holds it still,
wherever the load moved it to. -/
theorem loadFromPath_holds (holds : HoldsAt world path tokenSet) (reaches : Reaches world path) :
    Returned path tokenSet (loadOAuthCredentialsFromPath path world) := by
  obtain ⟨alike, -, -, -⟩ := loadSecretFrom_spec path [.current, .legacy] world
  apply Action.bind_cases
  · intro secret middle looked
    have isThere : secret = world.secretAt path := by
      apply loadSecret_reaches reaches
      rw [looked]
    have alike : Alike path world middle := by
      have same : (loadSecretFromSystemStore path world).2 = middle := by rw [looked]
      exact same ▸ alike
    have still := alike.holdsAt holds
    obtain ⟨held, entry, decoded⟩ | ⟨absent, inFile⟩ := holds
    · rw [isThere, entry]
      show Returned path tokenSet
        (ofExcept ((loadOAuthCredentialsFromSecret held).map some) middle)
      rw [decoded]
      exact .found still
    · rw [isThere, absent]
      have loaded : loadOAuthCredentialsFromFile path middle = (.ok (some tokenSet), middle) := by
        rw [loadFromFile_eq, alike.files, inFile]
      dsimp only
      rw [Action.bind_ok loaded]
      exact migration_returned still
  · intro error middle failed
    have same : (loadSecretFromSystemStore path world).2 = middle := by rw [failed]
    exact .failed (same ▸ alike.holdsAt holds)

/-- An end of a load that returned nothing and left the path as it was. -/
def Missed (path : Path) (world : World) (after : Except String (Option OAuthTokenSet) × World) :
    Prop :=
  (∀ found, after.1 = .ok found → found = none) ∧ Alike path world after.2

theorem loadFromPath_bare (bare : BareAt world path) :
    Missed path world (loadOAuthCredentialsFromPath path world) := by
  obtain ⟨alike, -, -, -⟩ := loadSecretFrom_spec path [.current, .legacy] world
  apply Action.bind_cases
  · intro secret middle looked
    have isThere : secret = none := by
      rw [← bare.1]
      apply loadSecret_reaches (.inr bare.1)
      rw [looked]
    have alike : Alike path world middle := by
      have same : (loadSecretFromSystemStore path world).2 = middle := by rw [looked]
      exact same ▸ alike
    rw [isThere]
    have loaded := loadFromFile_eq path middle
    have bareStill := (alike.bareAt bare).2
    cases reads : (middle.files path).tokens with
    | error error =>
        rw [reads] at loaded
        dsimp only
        rw [Action.bind_error loaded]
        exact ⟨nofun, alike⟩
    | ok found =>
        cases found with
        | none =>
            rw [reads] at loaded
            dsimp only
            rw [Action.bind_ok loaded]
            exact ⟨fun found same => (Except.ok.inj same).symm, alike⟩
        | some tokenSet => exact absurd reads (bareStill tokenSet)
  · intro error middle failed
    have same : (loadSecretFromSystemStore path world).2 = middle := by rw [failed]
    exact ⟨nofun, same ▸ alike⟩

/-! ## Persisting -/

/-- When a save at the path succeeds as a whole or does nothing: what is saved into the
store is removed from the file without a fault, what is saved into the file is not behind
an entry, and no write leaves the file half replaced. -/
def SavesWhole (world : World) (path : Path) : Prop :=
  match world.nextAccess with
  | .available => Readable (world.files path) ∧ world.nextFault = .none
  | .unavailable => world.secretAt path = none ∧
      (world.nextFault = .none ∨ ∃ error, world.nextFault = .early error)
  | .broken _ => True

theorem saveToFile_whole (absent : world.secretAt path = none)
    (whole : world.nextFault = .none ∨ ∃ error, world.nextFault = .early error) :
    ((saveOAuthCredentialsToFile path tokenSet world).1 = .ok ⟨⟩ ∧
        HoldsAt (saveOAuthCredentialsToFile path tokenSet world).2 path tokenSet) ∨
      (∃ error, (saveOAuthCredentialsToFile path tokenSet world).1 = .error error) ∧
        Alike path world (saveOAuthCredentialsToFile path tokenSet world).2 := by
  rw [saveToFile_eq]
  cases reads : (world.files path).read with
  | error error => exact .inr ⟨⟨error, rfl⟩, .refl path world⟩
  | ok root =>
      dsimp only
      rw [writeRoot_eq]
      rcases whole with fine | ⟨error, early⟩
      · rw [fine]
        refine .inl ⟨rfl, .inr ⟨absent, ?_⟩⟩
        exact (congrArg CredentialsFile.tokens (setFile_self ..)).trans (tokens_insert root tokenSet)
      · rw [early]
        exact .inr ⟨⟨error, rfl⟩, rfl, fun _ => rfl⟩

/-- **A save succeeds and its token set is held, or it fails and the path is as it
was.** -/
theorem persist_whole (whole : SavesWhole world path) :
    ((persistOAuthCredentialsAtPath path tokenSet world).1 = .ok ⟨⟩ ∧
        HoldsAt (persistOAuthCredentialsAtPath path tokenSet world).2 path tokenSet) ∨
      (∃ error, (persistOAuthCredentialsAtPath path tokenSet world).1 = .error error) ∧
        Alike path world (persistOAuthCredentialsAtPath path tokenSet world).2 := by
  have saves := saveSecret_eq path (.ok (encodeOAuthCredentials tokenSet)) world
  have alike := alike_afterAccess path world
  rw [persistOAuthCredentialsAtPath]
  cases went : world.nextAccess with
  | broken error =>
      rw [went] at saves
      rw [Action.bind_error saves]
      exact .inr ⟨⟨error, rfl⟩, alike⟩
  | unavailable =>
      rw [SavesWhole, went] at whole
      rw [went] at saves
      rw [Action.bind_ok saves]
      have absent : world.afterAccess.secretAt path = none := whole.1
      have wholeFile := @saveToFile_whole path world.afterAccess tokenSet absent whole.2
      obtain done | ⟨failed, same⟩ := wholeFile
      · exact .inl done
      · exact .inr ⟨failed, alike.trans same⟩
  | available =>
      rw [SavesWhole, went] at whole
      rw [went] at saves
      rw [Action.bind_ok saves]
      obtain ⟨readable, fine⟩ := whole
      refine .inl ⟨?_, ?_⟩
      · exact (@removeFromFile_ok path (world.afterAccess.setEntry .current path
          (some (.ok (encodeOAuthCredentials tokenSet)))) readable fine).1
      · apply holdsAt_of_entry
        show (removeOAuthCredentialsFromFile path _).2.store .current path = _
        rw [removeFromFile_store]
        exact entry_setEntry ..

/-- Where nothing was, a save leaves its token set or nothing, and its token set if it
succeeds. -/
theorem persist_empty (empty : EmptyAt world path) :
    HoldsAt (persistOAuthCredentialsAtPath path tokenSet world).2 path tokenSet ∨
      EmptyAt (persistOAuthCredentialsAtPath path tokenSet world).2 path ∧
        (persistOAuthCredentialsAtPath path tokenSet world).1 ≠ .ok ⟨⟩ := by
  have saves := saveSecret_eq path (.ok (encodeOAuthCredentials tokenSet)) world
  have still := (alike_afterAccess path world).emptyAt empty
  rw [persistOAuthCredentialsAtPath]
  cases went : world.nextAccess with
  | broken error =>
      rw [went] at saves
      rw [Action.bind_error saves]
      exact .inr ⟨still, nofun⟩
  | available =>
      rw [went] at saves
      rw [Action.bind_ok saves]
      apply Or.inl
      apply holdsAt_of_entry
      show (removeOAuthCredentialsFromFile path _).2.store .current path = _
      rw [removeFromFile_store]
      exact entry_setEntry ..
  | unavailable =>
      rw [went] at saves
      rw [Action.bind_ok saves]
      show HoldsAt (saveOAuthCredentialsToFile path tokenSet world.afterAccess).2 path tokenSet ∨
        EmptyAt (saveOAuthCredentialsToFile path tokenSet world.afterAccess).2 path ∧
          (saveOAuthCredentialsToFile path tokenSet world.afterAccess).1 ≠ .ok ⟨⟩
      obtain ⟨root, reads⟩ := readable_of_tokens still.2
      have written (file : World) (same : Alike path world.afterAccess file) :
          HoldsAt (file.setFile path
            (.root (root.insert "oauth" (encodeOAuthCredentials tokenSet)))) path tokenSet := by
        refine .inr ⟨(secretAt_congr same.store).trans still.1, ?_⟩
        rw [setFile_self]
        exact tokens_insert root tokenSet
      rw [saveToFile_eq, reads]
      dsimp only
      rw [writeRoot_eq]
      cases world.afterAccess.nextFault with
      | none => exact .inl (written _ ⟨rfl, fun _ => rfl⟩)
      | late error => exact .inl (written _ ⟨rfl, fun _ => rfl⟩)
      | early error => exact .inr ⟨still, nofun⟩
      | removed error =>
          refine .inr ⟨⟨still.1, ?_⟩, nofun⟩
          exact congrArg CredentialsFile.tokens (setFile_self ..)

/-! ## Clearing -/

theorem clearSecretFrom_cleared (path : Path) (services : List Service) (world : World)
    (reaches : ∀ access ∈ world.accesses, access = .available) :
    (clearSecretFrom path services world).1 = .ok ⟨⟩ ∧
      (clearSecretFrom path services world).2.files = world.files ∧
      ∀ service, (clearSecretFrom path services world).2.store service path =
        if service ∈ services then none else world.store service path := by
  induction services generalizing world with
  | nil => exact ⟨rfl, rfl, fun service => by simp [clearSecretFrom]⟩
  | cons first services ih =>
      have available : world.nextAccess = .available := by
        rw [World.nextAccess]
        cases listed : world.accesses with
        | nil => rfl
        | cons access rest => exact reaches access (listed ▸ List.mem_cons_self)
      rw [clearSecretFrom_cons, available]
      obtain ⟨done, files, store⟩ := ih (world.afterAccess.setEntry first path none)
        fun access member => reaches access (List.mem_of_mem_tail member)
      refine ⟨done, files, fun service => ?_⟩
      dsimp only
      rw [store service, setEntry_self]
      by_cases same : service = first
      · simp [same]
      · simp [same]

theorem clearSecretFrom_absent (path : Path) (services : List Service) (world : World)
    (unbroken : ∀ access ∈ world.accesses, ∀ error, access ≠ .broken error)
    (absent : world.secretAt path = none) :
    (clearSecretFrom path services world).1 = .ok ⟨⟩ ∧
      Alike path world (clearSecretFrom path services world).2 := by
  induction services generalizing world with
  | nil => exact ⟨rfl, .refl path world⟩
  | cons first services ih =>
      rw [clearSecretFrom_cons]
      cases went : world.nextAccess with
      | unavailable => exact ⟨rfl, rfl, fun _ => rfl⟩
      | broken error =>
          rw [World.nextAccess] at went
          cases listed : world.accesses with
          | nil => rw [listed] at went; cases went
          | cons access rest =>
              rw [listed] at went
              exact absurd went (unbroken access (listed ▸ List.mem_cons_self) error)
      | available =>
          have alike : Alike path world (world.afterAccess.setEntry first path none) := by
            refine ⟨rfl, fun service => ?_⟩
            rw [setEntry_self]
            split
            · exact (secretAt_eq_none_iff.1 absent service).symm
            · rfl
          obtain ⟨done, same⟩ := ih (world.afterAccess.setEntry first path none)
            (fun access member => unbroken access (List.mem_of_mem_tail member))
            ((secretAt_congr alike.store).trans absent)
          exact ⟨done, alike.trans same⟩

/-- The store can be reached at every access, or has nothing under the path. -/
def Clears (world : World) (path : Path) : Prop :=
  (∀ access ∈ world.accesses, access = .available) ∨
    ((∀ access ∈ world.accesses, ∀ error, access ≠ .broken error) ∧ world.secretAt path = none)

/-- **A clear leaves nothing at its path, or fails and changes nothing**, and fails only
where the file cannot be read. -/
theorem clearAtPath_whole (clears : Clears world path) (undamaged : world.faults = []) :
    ((clearOAuthCredentialsAtPath path world).1 = .ok ⟨⟩ ∧
        EmptyAt (clearOAuthCredentialsAtPath path world).2 path) ∨
      ¬Readable (world.files path) ∧
        (clearOAuthCredentialsAtPath path world).1 ≠ .ok ⟨⟩ ∧
        Alike path world (clearOAuthCredentialsAtPath path world).2 := by
  by_cases readable : Readable (world.files path)
  · have fine : world.nextFault = .none := by
      rw [World.nextFault, undamaged]
      rfl
    obtain ⟨removed, cleared⟩ := removeFromFile_ok readable fine
    have store := removeFromFile_store path world
    have accesses (allowed : StoreAccess → Prop) :=
      removeFromFile_keeps (keptAt_accesses path allowed) world
    rw [clearOAuthCredentialsAtPath]
    cases after : removeOAuthCredentialsFromFile path world with
    | mk result middle =>
        rw [after] at removed cleared store accesses
        dsimp only at removed cleared store accesses
        rw [removed] at after
        rw [Action.bind_ok after]
        apply Or.inl
        rcases clears with reach | ⟨unbroken, absent⟩
        · obtain ⟨done, files, entries⟩ := clearSecretFrom_cleared path [.current, .legacy] middle
            (accesses _ reach)
          refine ⟨done, secretAt_eq_none_iff.2 fun service => ?_, ?_⟩
          · show (clearSecretFrom path [.current, .legacy] middle).2.store service path = none
            rw [entries service]
            cases service <;> simp
          · exact (congrArg CredentialsFile.tokens (congrFun files path)).trans cleared
        · have absentStill : middle.secretAt path = none := by
            rw [World.secretAt, World.entryFrom, store]
            exact absent
          obtain ⟨done, same⟩ := clearSecretFrom_absent path [.current, .legacy] middle
            (accesses _ unbroken) absentStill
          exact ⟨done, same.emptyAt ⟨absentStill, cleared⟩⟩
  · apply Or.inr
    have failed : ∃ error, removeOAuthCredentialsFromFile path world = (.error error, world) := by
      rw [removeFromFile_eq]
      cases there : world.files path with
      | absent => exact absurd ⟨.empty, by rw [there]; rfl⟩ readable
      | unreadable error => exact ⟨error, rfl⟩
      | root root => exact absurd ⟨root, by rw [there]; rfl⟩ readable
    obtain ⟨error, failed⟩ := failed
    refine ⟨readable, ?_⟩
    rw [clearOAuthCredentialsAtPath, Action.bind_error failed]
    exact ⟨fun same => (by cases same), .refl path world⟩

end Openyak.Runtime.Credentials
