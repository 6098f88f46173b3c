/-
# Runtime.SavedCredentials -- the token set a load would find

`savedCredentials` is what a load returns when nothing goes wrong.  It is a token set exactly
when the current path holds it, or is empty and the path of the earlier home directory holds
it (`saved_iff_held`), and a load leaves it so whatever goes wrong in it (`load_held`).
-/
import Openyak.Runtime.CredentialRuns

namespace Openyak.Runtime.Credentials

open Openyak.Theory
open Openyak.Theory.Posix (Path)

set_option autoImplicit false

variable {places : Places} {world : World} {path : Path} {tokenSet : OAuthTokenSet}

/-- Every access and every write to come goes well. -/
def World.clear (world : World) : World := { world with accesses := [], faults := [] }

def savedCredentials (places : Places) (world : World) : Except String (Option OAuthTokenSet) :=
  (loadOAuthCredentials places world.clear).1

def Held (places : Places) (world : World) (tokenSet : OAuthTokenSet) : Prop :=
  HoldsAt world places.current tokenSet ∨
    places.legacy ≠ places.current ∧ EmptyAt world places.current ∧
      HoldsAt world places.legacy tokenSet

/-- Nothing is unreachable, or the store has no entry of either path. -/
def LoadsSafely (places : Places) (world : World) : Prop :=
  (∀ access ∈ world.accesses, access ≠ .unavailable) ∨
    world.secretAt places.current = none ∧ world.secretAt places.legacy = none

theorem Held.alike {after : World} (held : Held places world tokenSet)
    (alike : AlikeBoth places world after) : Held places after tokenSet := by
  obtain holds | ⟨different, empty, holds⟩ := held
  · exact .inl (alike.1.holdsAt holds)
  · exact .inr ⟨different, alike.1.emptyAt empty, (alike.2 different).holdsAt holds⟩

/-- An end of a load that returned this, if anything, and left it where a load finds it. -/
def Loaded (places : Places) (tokenSet : OAuthTokenSet)
    (after : Except String (Option OAuthTokenSet) × World) : Prop :=
  (∀ found, after.1 = .ok found → found = some tokenSet) ∧ Held places after.2 tokenSet

/-- The migration from the earlier home directory. -/
theorem migration_held (different : places.legacy ≠ places.current)
    (empty : EmptyAt world places.current) (holds : HoldsAt world places.legacy tokenSet) :
    Loaded places tokenSet
      ((do
        persistOAuthCredentialsAtPath places.current tokenSet
        ignored (clearOAuthCredentialsAtPath places.legacy)
        pure (some tokenSet) : Work _) world) := by
  have persisted := @persist_empty places.current world tokenSet empty
  have legacy := (alike_of_keeps different (fun kept => persistAtPath_keeps kept tokenSet)
    world).holdsAt holds
  apply Action.bind_cases
  · intro _ middle done
    rw [done] at persisted
    obtain held | ⟨-, failed⟩ := persisted
    · have alike := alike_of_keeps (Ne.symm different)
        (fun kept => ignored_keeps (clearAtPath_keeps kept)) middle
      refine ⟨fun found ok => (Except.ok.inj ok).symm, .inl ?_⟩
      exact alike.holdsAt held
    · exact absurd rfl failed
  · intro error middle failed
    rw [failed] at persisted legacy
    refine ⟨nofun, ?_⟩
    obtain held | ⟨empty, -⟩ := persisted
    · exact .inl held
    · exact .inr ⟨different, empty, legacy⟩

/-- **A load returns what is saved and leaves it saved**, or fails and leaves it saved. -/
theorem load_held (held : Held places world tokenSet) (safely : LoadsSafely places world) :
    Loaded places tokenSet (loadOAuthCredentials places world) := by
  obtain holds | ⟨different, empty, holds⟩ := held
  · obtain ⟨returned, still⟩ := load_holds holds (safely.imp id And.left)
    exact ⟨returned, .inl still⟩
  · obtain ⟨missed, alike⟩ := loadFromPath_bare empty.bare
    have legacy := alike_of_keeps different (fun kept => loadFromPath_keeps kept) world
    have accesses := loadFromPath_keeps (keptAt_accesses places.current (· ≠ .unavailable)) world
    apply Action.bind_cases
    · intro found middle loaded
      rw [loaded] at missed alike legacy accesses
      cases missed found rfl
      have emptyStill := alike.emptyAt empty
      have holdsStill := legacy.holdsAt holds
      have reaches : Reaches middle places.legacy :=
        safely.imp accesses fun absent => (secretAt_congr legacy.store).trans absent.2
      dsimp only
      rw [if_neg different]
      obtain ⟨returned, still⟩ := loadFromPath_holds holdsStill reaches
      have current := (alike_of_keeps (Ne.symm different) (fun kept => loadFromPath_keeps kept)
        middle).emptyAt emptyStill
      apply Action.bind_cases
      · intro found after loaded
        rw [loaded] at returned still current
        cases returned found rfl
        exact migration_held different current still
      · intro error after failed
        rw [failed] at still current
        exact ⟨nofun, .inr ⟨different, current, still⟩⟩
    · intro error middle failed
      rw [failed] at alike legacy
      exact ⟨nofun, .inr ⟨different, alike.emptyAt empty, legacy.holdsAt holds⟩⟩

/-! ## Where all goes well -/

def World.foundAt (world : World) (path : Path) : Except String (Option OAuthTokenSet) :=
  match world.secretAt path with
  | some secret => (loadOAuthCredentialsFromSecret secret).map some
  | none => (world.files path).tokens

theorem holdsAt_iff : HoldsAt world path tokenSet ↔ world.foundAt path = .ok (some tokenSet) := by
  rw [HoldsAt, World.foundAt]
  cases world.secretAt path with
  | none => simp
  | some secret =>
      cases decoded : loadOAuthCredentialsFromSecret secret <;> simp [decoded, Except.map]

theorem emptyAt_iff : EmptyAt world path ↔ world.foundAt path = .ok none := by
  rw [EmptyAt, World.foundAt]
  cases world.secretAt path with
  | none => simp
  | some secret =>
      cases decoded : loadOAuthCredentialsFromSecret secret <;> simp [decoded, Except.map]

/-- Nothing is in the way of the next accesses and writes. -/
def Calm (world : World) : Prop := world.accesses = [] ∧ world.faults = []

theorem keptAt_calm (path : Path) : KeptAt path Calm := by
  constructor
  case access => exact fun calm => ⟨congrArg List.tail calm.1, calm.2⟩
  case fault => exact fun calm => ⟨calm.1, congrArg List.tail calm.2⟩
  case entry => exact fun _ _ calm => calm
  case insert => exact fun _ calm _ => calm
  case remove => exact fun calm _ => calm
  case empty => exact fun calm _ _ => calm
  case lost =>
    intro world error calm went
    rw [World.nextFault, calm.2] at went
    cases went

theorem persist_calm (calm : Calm world) (readable : Readable (world.files path)) :
    (persistOAuthCredentialsAtPath path tokenSet world).1 = .ok ⟨⟩ := by
  have saves := saveSecret_eq path (.ok (encodeOAuthCredentials tokenSet)) world
  have available : world.nextAccess = .available := by rw [World.nextAccess, calm.1]; rfl
  have fine : world.nextFault = .none := by rw [World.nextFault, calm.2]; rfl
  rw [available] at saves
  rw [persistOAuthCredentialsAtPath, Action.bind_ok saves]
  exact (@removeFromFile_ok path (world.afterAccess.setEntry .current path
    (some (.ok (encodeOAuthCredentials tokenSet)))) readable fine).1

theorem migration_calm (calm : Calm world) (readable : Readable (world.files path)) :
    ((do
      let saved ← saveSecretToSystemStore path (.ok (encodeOAuthCredentials tokenSet))
      Action.when saved (removeOAuthCredentialsFromFile path)
      pure (some tokenSet) : Work _) world).1 = .ok (some tokenSet) := by
  have saves := saveSecret_eq path (.ok (encodeOAuthCredentials tokenSet)) world
  have available : world.nextAccess = .available := by rw [World.nextAccess, calm.1]; rfl
  have fine : world.nextFault = .none := by rw [World.nextFault, calm.2]; rfl
  rw [available] at saves
  rw [Action.bind_ok saves, Action.when, if_pos rfl]
  have removed := (@removeFromFile_ok path (world.afterAccess.setEntry .current path
    (some (.ok (encodeOAuthCredentials tokenSet)))) readable fine).1
  cases done : removeOAuthCredentialsFromFile path (world.afterAccess.setEntry .current path
      (some (.ok (encodeOAuthCredentials tokenSet)))) with
  | mk result after =>
      rw [done] at removed
      cases removed
      rw [Action.bind_ok done]
      rfl

theorem loadFromPath_calm (calm : Calm world) :
    (loadOAuthCredentialsFromPath path world).1 = world.foundAt path := by
  obtain ⟨alike, -, -, alone⟩ := loadSecretFrom_spec path [.current, .legacy] world
  have calmStill := loadSecretFrom_keeps (keptAt_calm path) [.current, .legacy] world calm
  rw [loadOAuthCredentialsFromPath, World.foundAt]
  cases looked : loadSecretFromSystemStore path world with
  | mk result middle =>
      have same : loadSecretFrom path [.current, .legacy] world = (result, middle) := looked
      rw [same] at alike alone calmStill
      have isThere : result = .ok (world.secretAt path) := alone calm.1
      cases isThere
      rw [Action.bind_ok looked]
      cases world.secretAt path with
      | some secret =>
          dsimp only
          cases loadOAuthCredentialsFromSecret secret <;> rfl
      | none =>
          have loaded := loadFromFile_eq path middle
          rw [show (middle.files path).tokens = (world.files path).tokens from
            congrArg CredentialsFile.tokens alike.files] at loaded
          dsimp only
          cases reads : (world.files path).tokens with
          | error error =>
              rw [reads] at loaded
              rw [Action.bind_error loaded]
          | ok found =>
              rw [reads] at loaded
              rw [Action.bind_ok loaded]
              cases found with
              | none => rfl
              | some tokenSet =>
                  have readable : Readable (middle.files path) := by
                    rw [alike.files]
                    exact readable_of_tokens reads
                  exact migration_calm calmStill readable

/-- A load that returned a token set found it at one of the paths. -/
theorem held_of_load (calm : Calm world) {after : World}
    (loads : loadOAuthCredentials places world = (.ok (some tokenSet), after)) :
    Held places world tokenSet := by
  obtain ⟨found, middle, loaded, loads⟩ := Action.of_bind_ok loads
  have current := @loadFromPath_calm world places.current calm
  have calmStill := loadFromPath_keeps (keptAt_calm places.current) world calm
  rw [loaded] at current calmStill
  cases found with
  | some found =>
      cases loads
      exact .inl (holdsAt_iff.2 current.symm)
  | none =>
      have empty := emptyAt_iff.2 current.symm
      dsimp only at loads
      by_cases same : places.legacy = places.current
      · rw [if_pos same] at loads
        cases loads
      · rw [if_neg same] at loads
        have alike := alike_of_keeps same (fun kept => loadFromPath_keeps kept) world
        rw [loaded] at alike
        obtain ⟨found, last, loadedNext, loads⟩ := Action.of_bind_ok loads
        have legacy := @loadFromPath_calm middle places.legacy calmStill
        rw [loadedNext] at legacy
        cases found with
        | none => cases loads
        | some found =>
            obtain ⟨_, _, -, loads⟩ := Action.of_bind_ok loads
            obtain ⟨_, _, -, loads⟩ := Action.of_bind_ok loads
            cases loads
            have holds := holdsAt_iff.2 legacy.symm
            have back : Alike places.legacy middle world :=
              ⟨alike.files.symm, fun service => (alike.store service).symm⟩
            exact .inr ⟨same, empty, back.holdsAt holds⟩

theorem load_of_held (calm : Calm world) (held : Held places world tokenSet) :
    (loadOAuthCredentials places world).1 = .ok (some tokenSet) := by
  have current := @loadFromPath_calm world places.current calm
  have calmStill := loadFromPath_keeps (keptAt_calm places.current) world calm
  rw [loadOAuthCredentials]
  cases loaded : loadOAuthCredentialsFromPath places.current world with
  | mk result middle =>
      obtain holds | ⟨different, empty, holds⟩ := held
      · rw [loaded, holdsAt_iff.1 holds] at current
        cases current
        rw [Action.bind_ok loaded]
        rfl
      · have alike := alike_of_keeps different (fun kept => loadFromPath_keeps kept) world
        have missed := (loadFromPath_bare empty.bare).2
        rw [loaded] at alike missed calmStill
        rw [loaded, emptyAt_iff.1 empty] at current
        cases current
        rw [Action.bind_ok loaded]
        dsimp only
        rw [if_neg different]
        have legacy := @loadFromPath_calm middle places.legacy calmStill
        have calmLast := loadFromPath_keeps (keptAt_calm places.legacy) middle calmStill
        have emptyLast := (alike_of_keeps (Ne.symm different) (fun kept => loadFromPath_keeps kept)
          middle).emptyAt (missed.emptyAt empty)
        rw [holdsAt_iff.1 (alike.holdsAt holds)] at legacy
        cases loadedNext : loadOAuthCredentialsFromPath places.legacy middle with
        | mk result last =>
            rw [loadedNext] at legacy calmLast emptyLast
            cases legacy
            rw [Action.bind_ok loadedNext]
            have persists := @persist_calm last _ tokenSet calmLast (readable_of_tokens emptyLast.2)
            dsimp only
            cases persisted : persistOAuthCredentialsAtPath places.current tokenSet last with
            | mk result _ =>
                rw [persisted] at persists
                cases persists
                rw [Action.bind_ok persisted]
                rfl

/-- **What a load would find is what is held.** -/
theorem saved_iff_held :
    savedCredentials places world = .ok (some tokenSet) ↔ Held places world tokenSet := by
  have calm : Calm world.clear := ⟨rfl, rfl⟩
  have heldClear : Held places world.clear tokenSet ↔ Held places world tokenSet := Iff.rfl
  rw [savedCredentials, ← heldClear]
  constructor
  · intro saved
    exact held_of_load calm (Prod.ext saved rfl)
  · exact load_of_held calm

end Openyak.Runtime.Credentials
