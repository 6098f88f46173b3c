/-
# Runtime.CredentialRuns -- saved credentials over runs of the operations

Where the store can be reached whenever it holds an entry that counts, the credentials
follow the last operation that succeeded (`credentials_follow`): a load returns what was
saved, and nothing after a clear.  Poles outside: a save while the store is away goes into
the file, behind the entry of an earlier one (`stale_entry_wins`).
-/
import Openyak.Runtime.CredentialSteps
import Openyak.Theory.Run

namespace Openyak.Runtime.Credentials

open Openyak.Theory
open Openyak.Theory.Posix (Path)
open Openyak.Runtime (SerdeValue)

set_option autoImplicit false

variable {places : Places} {world : World} {tokenSet : OAuthTokenSet}

/-! ## The operations as a whole -/

section Kept

variable {holds : World → Prop} (kept : ∀ path, KeptAt path holds)
include kept

theorem clearLegacy_keeps : Action.Keeps holds (clearLegacy places) :=
  Action.Keeps.when _ (ignored_keeps (clearAtPath_keeps (kept places.legacy)))

theorem load_keeps : Action.Keeps holds (loadOAuthCredentials places) := by
  refine Action.Keeps.bind (loadFromPath_keeps (kept places.current)) fun found => ?_
  split
  · exact Action.Keeps.pure _
  · split
    · exact Action.Keeps.pure _
    · refine Action.Keeps.bind (loadFromPath_keeps (kept places.legacy)) fun migrated => ?_
      split
      · exact Action.Keeps.pure _
      · refine Action.Keeps.bind (persistAtPath_keeps (kept places.current) _) fun _ => ?_
        refine Action.Keeps.bind (ignored_keeps (clearAtPath_keeps (kept places.legacy))) fun _ => ?_
        exact Action.Keeps.pure _

theorem save_keeps (tokenSet : OAuthTokenSet) :
    Action.Keeps holds (saveOAuthCredentials places tokenSet) :=
  Action.Keeps.bind (persistAtPath_keeps (kept places.current) tokenSet)
    fun _ => clearLegacy_keeps kept

theorem clear_keeps : Action.Keeps holds (clearOAuthCredentials places) :=
  Action.Keeps.bind (clearAtPath_keeps (kept places.current)) fun _ => clearLegacy_keeps kept

end Kept

theorem clearLegacy_ok (places : Places) (world : World) :
    (clearLegacy places world).1 = .ok ⟨⟩ := by
  rw [clearLegacy, Action.when]
  split <;> rfl

/-- The clean-up leaves the current path alone. -/
theorem clearLegacy_alike (places : Places) (world : World) :
    Alike places.current world (clearLegacy places world).2 := by
  rw [clearLegacy, Action.when]
  split
  · rename_i different
    apply alike_of_keeps (Ne.symm (of_decide_eq_true different))
    exact fun kept => ignored_keeps (clearAtPath_keeps kept)
  · exact .refl _ _

theorem load_holds (holds : HoldsAt world places.current tokenSet)
    (reaches : Reaches world places.current) :
    Returned places.current tokenSet (loadOAuthCredentials places world) := by
  obtain ⟨returned, still⟩ := loadFromPath_holds holds reaches
  apply Action.bind_cases
  · intro found middle loaded
    rw [loaded] at returned still
    cases returned found rfl
    exact .found still
  · intro error middle failed
    rw [failed] at still
    exact .failed still

/-- The same at both paths. -/
def AlikeBoth (places : Places) (world after : World) : Prop :=
  Alike places.current world after ∧
    (places.legacy ≠ places.current → Alike places.legacy world after)

/-- Where both paths are bare, a load finds nothing. -/
theorem load_bare (bare : BareAt world places.current)
    (bareLegacy : places.legacy ≠ places.current → BareAt world places.legacy) :
    (∀ found, (loadOAuthCredentials places world).1 = .ok found → found = none) ∧
      AlikeBoth places world (loadOAuthCredentials places world).2 := by
  obtain ⟨missed, alike⟩ := loadFromPath_bare bare
  have alikeLegacy (different : places.legacy ≠ places.current) :
      Alike places.legacy world (loadOAuthCredentialsFromPath places.current world).2 :=
    alike_of_keeps different (fun kept => loadFromPath_keeps kept) world
  rw [loadOAuthCredentials]
  cases loaded : loadOAuthCredentialsFromPath places.current world with
  | mk result middle =>
      rw [loaded] at missed alike alikeLegacy
      cases result with
      | error error =>
          rw [Action.bind_error loaded]
          exact ⟨nofun, alike, alikeLegacy⟩
      | ok found =>
          cases missed found rfl
          rw [Action.bind_ok loaded]
          dsimp only
          by_cases same : places.legacy = places.current
          · rw [if_pos same]
            exact ⟨fun found ok => (Except.ok.inj ok).symm, alike, fun differs => absurd same differs⟩
          · rw [if_neg same]
            obtain ⟨missed, alikeNext⟩ :=
              loadFromPath_bare ((alikeLegacy same).bareAt (bareLegacy same))
            have currentNext : Alike places.current middle
                (loadOAuthCredentialsFromPath places.legacy middle).2 :=
              alike_of_keeps (Ne.symm same) (fun kept => loadFromPath_keeps kept) middle
            have after := (alikeLegacy same).trans alikeNext
            have current := alike.trans currentNext
            cases loaded : loadOAuthCredentialsFromPath places.legacy middle with
            | mk result last =>
                rw [loaded] at missed after current
                cases result with
                | error error =>
                    rw [Action.bind_error loaded]
                    exact ⟨nofun, current, fun _ => after⟩
                | ok found =>
                    cases missed found rfl
                    rw [Action.bind_ok loaded]
                    exact ⟨fun found ok => (Except.ok.inj ok).symm, current, fun _ => after⟩

/-- The whole save, where the save at the current path succeeds as a whole or not at all. -/
theorem save_whole (whole : SavesWhole world places.current) :
    ((saveOAuthCredentials places tokenSet world).1 = .ok ⟨⟩ ∧
        HoldsAt (saveOAuthCredentials places tokenSet world).2 places.current tokenSet) ∨
      (∃ error, (saveOAuthCredentials places tokenSet world).1 = .error error) ∧
        AlikeBoth places world (saveOAuthCredentials places tokenSet world).2 := by
  have persisted := @persist_whole places.current world tokenSet whole
  have legacy (different : places.legacy ≠ places.current) :=
    alike_of_keeps different (fun kept => persistAtPath_keeps kept tokenSet) world
  rw [saveOAuthCredentials]
  cases done : persistOAuthCredentialsAtPath places.current tokenSet world with
  | mk result middle =>
      rw [done] at persisted legacy
      obtain ⟨ok, holds⟩ | ⟨⟨error, failed⟩, alike⟩ := persisted
      · cases ok
        rw [Action.bind_ok done]
        exact .inl ⟨clearLegacy_ok places middle, (clearLegacy_alike places middle).holdsAt holds⟩
      · cases failed
        rw [Action.bind_error done]
        exact .inr ⟨⟨error, rfl⟩, alike, legacy⟩

theorem persist_unreadable {path : Path} (unreadable : ¬Readable (world.files path)) :
    (persistOAuthCredentialsAtPath path tokenSet world).1 ≠ .ok ⟨⟩ := by
  have saves := saveSecret_eq path (.ok (encodeOAuthCredentials tokenSet)) world
  rw [persistOAuthCredentialsAtPath]
  cases there : world.files path with
  | absent => exact absurd ⟨.empty, by rw [there]; rfl⟩ unreadable
  | root root => exact absurd ⟨root, by rw [there]; rfl⟩ unreadable
  | unreadable error =>
      cases went : world.nextAccess with
      | broken error =>
          rw [went] at saves
          rw [Action.bind_error saves]
          exact fun same => by cases same
      | available =>
          rw [went] at saves
          rw [Action.bind_ok saves]
          show (removeOAuthCredentialsFromFile path _).1 ≠ _
          have kept : (world.afterAccess.setEntry .current path
              (some (.ok (encodeOAuthCredentials tokenSet)))).files path = .unreadable error := there
          rw [removeFromFile_eq, kept]
          exact fun same => by cases same
      | unavailable =>
          rw [went] at saves
          rw [Action.bind_ok saves]
          show (saveOAuthCredentialsToFile path tokenSet world.afterAccess).1 ≠ _
          rw [saveToFile_eq, World.files_afterAccess, there]
          exact fun same => by cases same

/-! ## Runs -/

inductive Operation where
  | save (tokenSet : OAuthTokenSet)
  | load
  | clear

/-- An operation, and which of its accesses reach the store; those beyond the list do. -/
structure Call where
  operation : Operation
  reached : List Bool

def accessesOf (reached : List Bool) : List StoreAccess :=
  reached.map fun there => if there then .available else .unavailable

/-- `last` is what the last operation that succeeded left: a token set, or nothing. -/
structure State where
  world : World
  last : Option (Option OAuthTokenSet)

/-- The world in which an operation runs, without faults of the disk. -/
def State.calm (state : State) (reached : List Bool) : World :=
  { state.world with accesses := accessesOf reached, faults := [] }

def step (places : Places) (state : State) (call : Call) : Option State :=
  let world := state.calm call.reached
  match call.operation with
  | .save tokenSet =>
      match saveOAuthCredentials places tokenSet world with
      | (.ok _, after) => some ⟨after, some (some tokenSet)⟩
      | (.error _, after) => some ⟨after, state.last⟩
  | .load => some ⟨(loadOAuthCredentials places world).2, state.last⟩
  | .clear =>
      match clearOAuthCredentials places world with
      | (.ok _, after) => some ⟨after, some none⟩
      | (.error _, after) => some ⟨after, state.last⟩

/-- The store is reached where it holds an entry: at the first access of a save, and at
every access of a load and of a clear, for which the file of the earlier home directory
must be readable if there are entries to go with it. -/
def Undisturbed (places : Places) (state : State) (call : Call) : Prop :=
  match call.operation with
  | .save _ => Readable (state.world.files places.current) → call.reached.head? = some false →
      state.world.secretAt places.current = none
  | .load => (∀ there ∈ call.reached, there = true) ∨ state.world.secretAt places.current = none
  | .clear =>
      ((∀ there ∈ call.reached, there = true) ∨
        state.world.secretAt places.current = none ∧ state.world.secretAt places.legacy = none) ∧
      (places.legacy = places.current ∨ Readable (state.world.files places.legacy) ∨
        state.world.secretAt places.legacy = none)

theorem unbroken_accessesOf (reached : List Bool) :
    ∀ access ∈ accessesOf reached, ∀ error, access ≠ .broken error := by
  intro access member error
  obtain ⟨there, -, rfl⟩ := List.mem_map.1 member
  cases there <;> exact nofun

theorem available_accessesOf {reached : List Bool} (all : ∀ there ∈ reached, there = true) :
    ∀ access ∈ accessesOf reached, access = .available := by
  intro access member
  obtain ⟨there, isIn, rfl⟩ := List.mem_map.1 member
  rw [all there isIn]
  rfl

/-- The current path holds what the last success left. -/
def Follows (places : Places) (state : State) : Prop :=
  match state.last with
  | none => True
  | some (some tokenSet) =>
      Readable (state.world.files places.current) ∧ HoldsAt state.world places.current tokenSet
  | some none =>
      Readable (state.world.files places.current) ∧ BareAt state.world places.current ∧
        (places.legacy ≠ places.current → BareAt state.world places.legacy)

theorem readable_of_sameFields {before after : CredentialsFile} (same : SameFields before after)
    (readable : Readable before) : Readable after := by
  obtain ⟨root, reads⟩ := readable
  cases after with
  | absent => exact ⟨.empty, rfl⟩
  | root root => exact ⟨root, rfl⟩
  | unreadable error => exact absurd ((same.2 error).1 rfl) (read_ne_unreadable reads error)

theorem calm_undamaged (state : State) (reached : List Bool) :
    Undamaged state.world.files (state.calm reached) := ⟨rfl, fun _ => .refl _⟩

theorem nextAccess_accessesOf (state : State) (reached : List Bool) :
    (state.calm reached).nextAccess =
      if reached.head? = some false then .unavailable else .available := by
  cases reached with
  | nil => rfl
  | cons there reached => cases there <;> rfl

/-- **Only `oauth` changes**, and what could be read can be. -/
theorem step_sameFields {state next : State} {call : Call} (steps : step places state call = some next)
    (path : Path) : SameFields (state.world.files path) (next.world.files path) := by
  have initially := calm_undamaged state call.reached
  have kept := fun path => keptAt_undamaged path state.world.files
  have saved (tokenSet : OAuthTokenSet) := (save_keeps kept tokenSet _ initially : Undamaged _
    (saveOAuthCredentials places tokenSet (state.calm call.reached)).2)
  have loaded := (load_keeps kept _ initially : Undamaged _
    (loadOAuthCredentials places (state.calm call.reached)).2)
  have cleared := (clear_keeps kept _ initially : Undamaged _
    (clearOAuthCredentials places (state.calm call.reached)).2)
  rw [step] at steps
  split at steps
  · rename_i tokenSet _
    have saved := saved tokenSet
    split at steps <;>
    · rename_i done
      cases steps
      rw [done] at saved
      exact saved.2 path
  · cases steps
    exact loaded.2 path
  · split at steps <;>
    · rename_i done
      cases steps
      rw [done] at cleared
      exact cleared.2 path

theorem SameFields.trans {first second third : CredentialsFile} (before : SameFields first second)
    (after : SameFields second third) : SameFields first third :=
  ⟨fun key other => (after.1 key other).trans (before.1 key other),
    fun error => (after.2 error).trans (before.2 error)⟩

/-- A clear of both paths. -/
theorem clear_bare {state : State} {reached : List Bool}
    (undisturbed : Undisturbed places state ⟨.clear, reached⟩) :
    ((clearOAuthCredentials places (state.calm reached)).1 = .ok ⟨⟩ ∧
        Readable (state.world.files places.current) ∧
        BareAt (clearOAuthCredentials places (state.calm reached)).2 places.current ∧
        (places.legacy ≠ places.current →
          BareAt (clearOAuthCredentials places (state.calm reached)).2 places.legacy)) ∨
      ¬Readable (state.world.files places.current) ∧
        (clearOAuthCredentials places (state.calm reached)).1 ≠ .ok ⟨⟩ := by
  obtain ⟨reach, legacy⟩ := undisturbed
  have calm : (state.calm reached).faults = [] := rfl
  have unbroken := unbroken_accessesOf reached
  have clears : Clears (state.calm reached) places.current :=
    reach.imp available_accessesOf fun absent => ⟨unbroken, absent.1⟩
  have whole := clearAtPath_whole clears calm
  have accesses (allowed : StoreAccess → Prop) :=
    clearAtPath_keeps (keptAt_accesses places.current allowed) (state.calm reached)
  have faultless := clearAtPath_keeps (keptAt_undamaged places.current state.world.files)
    (state.calm reached) (calm_undamaged state reached)
  rw [clearOAuthCredentials]
  cases done : clearOAuthCredentialsAtPath places.current (state.calm reached) with
  | mk result middle =>
      have alike (different : places.legacy ≠ places.current) :
          Alike places.legacy (state.calm reached) middle := by
        have kept := alike_of_keeps different (fun kept => clearAtPath_keeps kept)
          (state.calm reached)
        rw [done] at kept
        exact kept
      rw [done] at whole accesses faultless
      obtain ⟨ok, empty⟩ | ⟨unreadable, failed, -⟩ := whole
      · dsimp only at ok empty
        have readable : Readable (state.world.files places.current) := by
          obtain ⟨root, reads⟩ := readable_of_tokens empty.2
          cases there : state.world.files places.current with
          | absent => exact ⟨.empty, rfl⟩
          | root root => exact ⟨root, rfl⟩
          | unreadable error =>
              exact absurd (((faultless.2 places.current).2 error).2 there)
                (read_ne_unreadable reads error)
        cases ok
        rw [Action.bind_ok done]
        refine .inl ⟨clearLegacy_ok places middle, readable,
          (clearLegacy_alike places middle).bareAt empty.bare, fun different => ?_⟩
        have clearsLegacy : Clears middle places.legacy := by
          refine reach.imp (fun all => accesses _ (available_accessesOf all)) fun absent => ?_
          exact ⟨accesses _ unbroken, (secretAt_congr (alike different).store).trans absent.2⟩
        have wholeLegacy := clearAtPath_whole clearsLegacy faultless.1
        have unfolded : (clearLegacy places middle).2 =
            (clearOAuthCredentialsAtPath places.legacy middle).2 := by
          rw [clearLegacy, Action.when, if_pos (decide_eq_true different)]
          rfl
        rw [unfolded]
        obtain ⟨-, emptyLegacy⟩ | ⟨unreadable, -, same⟩ := wholeLegacy
        · exact emptyLegacy.bare
        · refine same.bareAt ⟨?_, fun tokenSet reads => unreadable (readable_of_tokens reads)⟩
          rw [secretAt_congr (alike different).store]
          obtain equal | readable | absent := legacy
          · exact absurd equal different
          · rw [(alike different).files] at unreadable
            exact absurd readable unreadable
          · exact absent
      · refine .inr ⟨unreadable, ?_⟩
        cases result with
        | ok value => exact absurd rfl failed
        | error error =>
            rw [Action.bind_error done]
            exact nofun

theorem save_unreadable (unreadable : ¬Readable (world.files places.current)) :
    (saveOAuthCredentials places tokenSet world).1 ≠ .ok ⟨⟩ := by
  have failed := @persist_unreadable world tokenSet places.current unreadable
  rw [saveOAuthCredentials]
  cases done : persistOAuthCredentialsAtPath places.current tokenSet world with
  | mk result middle =>
      cases result with
      | ok value =>
          rw [done] at failed
          exact absurd rfl failed
      | error error =>
          rw [Action.bind_error done]
          exact nofun

theorem alike_of_calm {state : State} {reached : List Bool} {after : World}
    (alike : AlikeBoth places (state.calm reached) after) : AlikeBoth places state.world after :=
  ⟨⟨alike.1.files, alike.1.store⟩,
    fun different => ⟨(alike.2 different).files, (alike.2 different).store⟩⟩

theorem reaches_calm {state : State} {reached : List Bool}
    (undisturbed : Undisturbed places state ⟨.load, reached⟩) :
    Reaches (state.calm reached) places.current := by
  refine undisturbed.imp (fun all access member => ?_) fun absent => absent
  rw [available_accessesOf all access member]
  exact nofun

section Steps

variable {state next : State} {reached : List Bool} (follows : Follows places state)
include follows

/-- Before the first success nothing is asked for; behind it the file is readable. -/
theorem Follows.last_none (unreadable : ¬Readable (state.world.files places.current)) :
    state.last = none := by
  rw [Follows] at follows
  split at follows
  · assumption
  · exact absurd follows.1 unreadable
  · exact absurd follows.1 unreadable

theorem Follows.still {after : World} (alike : AlikeBoth places state.world after) :
    Follows places ⟨after, state.last⟩ := by
  rw [Follows] at follows ⊢
  dsimp only
  split at follows
  · trivial
  · exact ⟨alike.1.files ▸ follows.1, alike.1.holdsAt follows.2⟩
  · obtain ⟨readable, bare, legacy⟩ := follows
    exact ⟨alike.1.files ▸ readable, alike.1.bareAt bare,
      fun different => (alike.2 different).bareAt (legacy different)⟩

theorem follows_save (undisturbed : Undisturbed places state ⟨.save tokenSet, reached⟩)
    (steps : step places state ⟨.save tokenSet, reached⟩ = some next) : Follows places next := by
  have readableStill := readable_of_sameFields (step_sameFields steps places.current)
  rw [step] at steps
  dsimp only at steps
  by_cases readable : Readable (state.world.files places.current)
  · have whole : SavesWhole (state.calm reached) places.current := by
      rw [SavesWhole, nextAccess_accessesOf]
      by_cases away : reached.head? = some false
      · rw [if_pos away]
        exact ⟨undisturbed readable away, .inl rfl⟩
      · rw [if_neg away]
        exact ⟨readable, rfl⟩
    have saved := @save_whole places (state.calm reached) tokenSet whole
    cases done : saveOAuthCredentials places tokenSet (state.calm reached) with
    | mk result after =>
        rw [done] at saved steps
        obtain ⟨ok, holds⟩ | ⟨⟨error, failed⟩, alike⟩ := saved
        · cases ok
          cases steps
          exact ⟨readableStill readable, holds⟩
        · cases failed
          cases steps
          exact follows.still (alike_of_calm alike)
  · have failed := @save_unreadable places (state.calm reached) tokenSet readable
    cases done : saveOAuthCredentials places tokenSet (state.calm reached) with
    | mk result after =>
        rw [done] at failed steps
        cases result with
        | ok value => exact absurd rfl failed
        | error error =>
            cases steps
            rw [Follows, follows.last_none readable]
            trivial

theorem follows_clear (undisturbed : Undisturbed places state ⟨.clear, reached⟩)
    (steps : step places state ⟨.clear, reached⟩ = some next) : Follows places next := by
  have readableStill := readable_of_sameFields (step_sameFields steps places.current)
  have cleared := clear_bare undisturbed
  rw [step] at steps
  dsimp only at steps
  cases done : clearOAuthCredentials places (state.calm reached) with
  | mk result after =>
      rw [done] at cleared steps
      obtain ⟨ok, readable, bare, legacy⟩ | ⟨unreadable, failed⟩ := cleared
      · cases ok
        cases steps
        exact ⟨readableStill readable, bare, legacy⟩
      · cases result with
        | ok value => exact absurd rfl failed
        | error error =>
            cases steps
            rw [Follows, follows.last_none unreadable]
            trivial

/-- What a load returns, and what it leaves. -/
theorem follows_load (undisturbed : Undisturbed places state ⟨.load, reached⟩) :
    (∀ found last, (loadOAuthCredentials places (state.calm reached)).1 = .ok found →
      state.last = some last → found = last) ∧
    Follows places ⟨(loadOAuthCredentials places (state.calm reached)).2, state.last⟩ := by
  have loads : step places state ⟨.load, reached⟩ =
      some ⟨(loadOAuthCredentials places (state.calm reached)).2, state.last⟩ := rfl
  have readableStill := readable_of_sameFields (step_sameFields loads places.current)
  rw [Follows] at follows ⊢
  dsimp only
  split at follows
  · rename_i never
    rw [never]
    exact ⟨nofun, trivial⟩
  · rename_i tokenSet saved
    obtain ⟨readable, holds⟩ := follows
    rw [saved]
    obtain ⟨returned, still⟩ := load_holds (show HoldsAt (state.calm reached) _ _ from holds)
      (reaches_calm undisturbed)
    refine ⟨fun found last ok same => ?_, readableStill readable, still⟩
    cases same
    exact returned found ok
  · rename_i cleared
    obtain ⟨readable, bare, legacy⟩ := follows
    rw [cleared]
    obtain ⟨missed, alike⟩ := load_bare (show BareAt (state.calm reached) _ from bare) legacy
    refine ⟨fun found last ok same => ?_, readableStill readable, alike.1.bareAt bare,
      fun different => (alike.2 different).bareAt (legacy different)⟩
    cases same
    exact missed found ok

end Steps

theorem step_follows {state next : State} {call : Call} (follows : Follows places state)
    (undisturbed : Undisturbed places state call) (steps : step places state call = some next) :
    Follows places next := by
  obtain ⟨operation, reached⟩ := call
  cases operation with
  | save tokenSet => exact follows_save follows undisturbed steps
  | clear => exact follows_clear follows undisturbed steps
  | load =>
      cases steps
      exact (follows_load follows undisturbed).2

/-- **A load that returns, returns what the last success left**, and only `oauth` ever
changes in the files. -/
theorem credentials_follow (places : Places) (start : World) {calls : List Call} {state : State}
    (run : Run (step places) (Undisturbed places) ⟨start, none⟩ calls state) {reached : List Bool}
    (undisturbed : Undisturbed places state ⟨.load, reached⟩) :
    (∀ found last, (loadOAuthCredentials places (state.calm reached)).1 = .ok found →
      state.last = some last → found = last) ∧
    ∀ path, SameFields (start.files path) (state.world.files path) := by
  constructor
  · have follows : Follows places state :=
      run.invariant (Follows places) (fun _ _ _ held allowed steps => step_follows held allowed steps)
        trivial
    exact (follows_load follows undisturbed).1
  · intro path
    refine run.invariant (fun state => SameFields (start.files path) (state.world.files path))
      (fun _ _ _ held _ steps => ?_) (.refl _)
    exact held.trans (step_sameFields steps path)

/-! ## A stale entry -/

def homes : Places := ⟨⟨true, [.name "openyak"]⟩, ⟨true, [.name "claw"]⟩⟩

def nothing : World := ⟨fun _ => .absent, fun _ _ => none, [], []⟩

def tokens (accessToken : String) : OAuthTokenSet := ⟨accessToken, none, none, []⟩

def savedOne : State :=
  ⟨(saveOAuthCredentials homes (tokens "one") nothing).2, some (some (tokens "one"))⟩

theorem saved_is_loaded :
    (∃ found, (loadOAuthCredentials homes (savedOne.calm [])).1 = .ok found ∧
      found = some (tokens "one")) ∧
    SameFields (nothing.files homes.current) (savedOne.world.files homes.current) := by
  have saves : step homes ⟨nothing, none⟩ ⟨.save (tokens "one"), []⟩ = some savedOne := by
    with_unfolding_all rfl
  have run : Run (step homes) (Undisturbed homes) ⟨nothing, none⟩ [⟨.save (tokens "one"), []⟩]
      savedOne := .snoc .nil (fun _ => nofun) saves
  have undisturbed : Undisturbed homes savedOne ⟨.load, []⟩ :=
    .inl fun _ isIn => absurd isIn List.not_mem_nil
  obtain ⟨follows, fields⟩ := credentials_follow homes nothing run undisturbed
  have loads : (loadOAuthCredentials homes (savedOne.calm [])).1 = .ok (some (tokens "one")) := by
    with_unfolding_all rfl
  exact ⟨⟨_, loads, follows _ _ loads rfl⟩, fields _⟩

/-- The second save does not reach the store, and the load behind it does. -/
def behindEntry : List Call := [⟨.save (tokens "one"), []⟩, ⟨.save (tokens "two"), [false]⟩]

/-- **The entry of the first save goes before the file of the second.** -/
theorem stale_entry_wins :
    ¬∀ (places : Places) (start : World) (calls : List Call) (state : State),
      Run (step places) (fun _ _ => True) ⟨start, none⟩ calls state → ∀ reached,
        (∀ found last, (loadOAuthCredentials places (state.calm reached)).1 = .ok found →
          state.last = some last → found = last) ∧
        ∀ path, SameFields (start.files path) (state.world.files path) := by
  intro follows
  have ends : ((play (step homes) ⟨nothing, none⟩ behindEntry).map fun state =>
      (state.last, (loadOAuthCredentials homes (state.calm [])).1)) =
        some (some (some (tokens "two")), .ok (some (tokens "one"))) := by
    with_unfolding_all rfl
  obtain ⟨state, played, same⟩ := Option.map_eq_some_iff.1 ends
  obtain ⟨last, loads⟩ := Prod.mk.inj same
  have run := (run_iff_play (step homes) ⟨nothing, none⟩ state behindEntry).2 played
  have equal := (follows homes nothing behindEntry state run []).1 _ _ loads last
  exact absurd equal (by decide)

end Openyak.Runtime.Credentials
