/-
# Api.TokenRefresh -- what a refresh keeps of the saved token set

An expired token set is exchanged for a new one and saved.  The new one takes what the
response states, and of the refresh token what was there where it states none.  The scopes
it takes from the response in any case: a response without scopes leaves none
(`omitted_scopes_lost`).  Where every response states its scopes, or none were granted, the
saved set is what was granted over any run of loads and refreshes
(`refresh_keeps_tokens`).
-/
import Openyak.Runtime.SavedCredentials

namespace Openyak.Api

open Openyak.Runtime (SerdeValue)
open Openyak.Runtime.Credentials
open Openyak.Theory

set_option autoImplicit false

/-! ## Requests and responses -/

/-- The fields of `OAuthConfig` that a refresh uses. -/
structure OAuthConfig where
  clientId : String
  tokenUrl : String
  scopes : List String

structure OAuthRefreshRequest where
  grantType : String
  refreshToken : String
  clientId : String
  scopes : List String
  deriving DecidableEq, Repr

def OAuthRefreshRequest.fromConfig (config : OAuthConfig) (refreshToken : String)
    (scopes : Option (List String)) : OAuthRefreshRequest where
  grantType := "refresh_token"
  refreshToken := refreshToken
  clientId := config.clientId
  scopes := scopes.getD config.scopes

def OAuthRefreshRequest.formParams (request : OAuthRefreshRequest) : List (String × String) :=
  [("client_id", request.clientId), ("grant_type", request.grantType),
    ("refresh_token", request.refreshToken), ("scope", " ".intercalate request.scopes)]

/-- `response.json`, of an object or of a sequence, in which only the scopes may be
missing. -/
def decodeTokenResponse : SerdeValue → Except String OAuthTokenSet
  | .object fields => readFields (fields.get? "access_token") (fields.get? "refresh_token")
      (fields.get? "expires_at") (fields.get? "scopes")
  | .array values =>
      if values.length = 3 ∨ values.length = 4 then
        readFields values[0]? values[1]? values[2]? values[3]?
      else .error "invalid length"
  | _ => .error "invalid type: expected struct OAuthTokenSet"

/-- The response says what is granted. -/
def statesScopes : SerdeValue → Bool
  | .object fields => (fields.get? "scopes").isSome
  | .array values => values.length = 4
  | _ => false

inductive RefreshError where
  | expiredOAuthToken
  | http (error : String)
  | json (error : String)
  | io (error : String)
  deriving DecidableEq, Repr

/-! ## A refresh -/

/-- The credentials, and the requests that went out. -/
structure Exchange where
  world : World
  sent : List OAuthRefreshRequest

abbrev Refreshing := Action Exchange RefreshError

def oauthTokenIsExpired (tokenSet : OAuthTokenSet) (now : UInt64) : Bool :=
  tokenSet.expiresAt.any fun expiresAt => expiresAt ≤ now

/-- `answer` is the body of a successful response, or why there is none. -/
def refreshOAuthToken (answer : Except String SerdeValue) (request : OAuthRefreshRequest) :
    Refreshing OAuthTokenSet := do
  Action.modify fun exchange => { exchange with sent := exchange.sent ++ [request] }
  match answer with
  | .error error => Action.fail (.http error)
  | .ok body =>
      match decodeTokenResponse body with
      | .error error => Action.fail (.json error)
      | .ok tokenSet => pure tokenSet

def onDisk (work : Work PUnit) : Refreshing PUnit := fun exchange =>
  match work exchange.world with
  | (.ok value, world) => (.ok value, { exchange with world })
  | (.error error, world) => (.error (.io error), { exchange with world })

/-- The token set that is saved behind a refresh. -/
def resolvedTokens (tokenSet refreshed : OAuthTokenSet) : OAuthTokenSet where
  accessToken := refreshed.accessToken
  refreshToken := refreshed.refreshToken.or tokenSet.refreshToken
  expiresAt := refreshed.expiresAt
  scopes := refreshed.scopes

def resolveSavedOAuthTokenSet (places : Places) (config : OAuthConfig) (now : UInt64)
    (answer : Except String SerdeValue) (tokenSet : OAuthTokenSet) : Refreshing OAuthTokenSet :=
  if oauthTokenIsExpired tokenSet now then
    match tokenSet.refreshToken with
    | none => Action.fail .expiredOAuthToken
    | some refreshToken => do
        let refreshed ← refreshOAuthToken answer
          (OAuthRefreshRequest.fromConfig config refreshToken (some tokenSet.scopes))
        onDisk (saveOAuthCredentials places (resolvedTokens tokenSet refreshed))
        pure (resolvedTokens tokenSet refreshed)
  else pure tokenSet

/-! ## Runs -/

inductive Label where
  | load (accesses : List StoreAccess) (faults : List DiskFault)
  | resolve (config : OAuthConfig) (now : UInt64) (answer : Except String SerdeValue)
      (accesses : List StoreAccess) (faults : List DiskFault)

/-- `granted` is what was granted so far, over the successful refreshes: the newest access
token, the most recent refresh token and the scopes last stated.  `owed` is what the
requests had to carry. -/
structure Session where
  world : World
  loaded : Option OAuthTokenSet
  returned : Option OAuthTokenSet
  sent : List OAuthRefreshRequest
  granted : OAuthTokenSet
  owed : List (Option String × List String)

/-- What is granted behind a response: scopes that are not stated are unchanged. -/
def grantedBehind (granted : OAuthTokenSet) (body : SerdeValue) (refreshed : OAuthTokenSet) :
    OAuthTokenSet where
  accessToken := refreshed.accessToken
  refreshToken := refreshed.refreshToken.or granted.refreshToken
  expiresAt := refreshed.expiresAt
  scopes := if statesScopes body then refreshed.scopes else granted.scopes

def under (world : World) (accesses : List StoreAccess) (faults : List DiskFault) : World :=
  { world with accesses, faults }

def Session.ofLoad (session : Session) :
    Except String (Option OAuthTokenSet) × World → Session
  | (.ok found, world) => { session with world, loaded := found }
  | (.error _, world) => { session with world, loaded := none }

/-- The session behind a resolution; it was granted something if a request went out and the
whole succeeded. -/
def Session.ofResolve (session : Session) (answer : Except String SerdeValue) :
    Except RefreshError OAuthTokenSet × Exchange → Session
  | (result, exchange) =>
      { world := exchange.world
        loaded := none
        returned := result.toOption
        sent := session.sent ++ exchange.sent
        granted :=
          match result, exchange.sent, answer with
          | .ok _, _ :: _, .ok body =>
              match decodeTokenResponse body with
              | .ok refreshed => grantedBehind session.granted body refreshed
              | .error _ => session.granted
          | _, _, _ => session.granted
        owed := session.owed ++ exchange.sent.map fun _ =>
          (session.granted.refreshToken, session.granted.scopes) }

def step (places : Places) (session : Session) : Label → Option Session
  | .load accesses faults =>
      some (session.ofLoad (loadOAuthCredentials places (under session.world accesses faults)))
  | .resolve config now answer accesses faults =>
      session.loaded.map fun tokenSet =>
        session.ofResolve answer (resolveSavedOAuthTokenSet places config now answer tokenSet
          ⟨under session.world accesses faults, []⟩)

/-- The store is reached where it has entries, what a save does it does as a whole, and a
response states its scopes unless none were granted. -/
def Sound (places : Places) (session : Session) : Label → Prop
  | .load accesses faults => LoadsSafely places (under session.world accesses faults)
  | .resolve _ _ answer accesses faults =>
      SavesWhole (under session.world accesses faults) places.current ∧
        ∀ body, answer = .ok body → statesScopes body = true ∨ session.granted.scopes = []

/-! ## What a refresh does -/

theorem readFields_no_scopes {accessToken refreshToken expiresAt : Option SerdeValue}
    {tokenSet : OAuthTokenSet}
    (reads : readFields accessToken refreshToken expiresAt none = .ok tokenSet) :
    tokenSet.scopes = [] := by
  unfold readFields at reads
  cases accessToken with
  | none => cases reads
  | some value =>
      obtain ⟨_, -, reads⟩ := bind_eq_ok.1 reads
      obtain ⟨_, -, reads⟩ := bind_eq_ok.1 reads
      obtain ⟨_, -, reads⟩ := bind_eq_ok.1 reads
      cases reads
      rfl

theorem scopes_of_omitted {body : SerdeValue} {refreshed : OAuthTokenSet}
    (decoded : decodeTokenResponse body = .ok refreshed) (omitted : ¬statesScopes body = true) :
    refreshed.scopes = [] := by
  cases body with
  | object fields =>
      have absent : fields.get? "scopes" = none := by simpa [statesScopes] using omitted
      rw [decodeTokenResponse, absent] at decoded
      exact readFields_no_scopes decoded
  | array values =>
      have short : values.length ≠ 4 := by simpa [statesScopes] using omitted
      rw [decodeTokenResponse] at decoded
      split at decoded
      · have absent : values[3]? = none := by
          apply List.getElem?_eq_none
          omega
        rw [absent] at decoded
        exact readFields_no_scopes decoded
      · cases decoded
  | null => cases decoded
  | bool value => cases decoded
  | number value => cases decoded
  | string value => cases decoded

/-- **The saved set is what was granted**, where the response states its scopes or none were
granted. -/
theorem resolvedTokens_eq_granted {granted refreshed : OAuthTokenSet} {body : SerdeValue}
    (decoded : decodeTokenResponse body = .ok refreshed)
    (stated : statesScopes body = true ∨ granted.scopes = []) :
    resolvedTokens granted refreshed = grantedBehind granted body refreshed := by
  have scopes : refreshed.scopes = if statesScopes body then refreshed.scopes else granted.scopes := by
    by_cases states : statesScopes body = true
    · rw [if_pos states]
    · rw [if_neg states, scopes_of_omitted decoded states, stated.resolve_left states]
  rw [resolvedTokens, grantedBehind, ← scopes]

theorem alike_under (path : Posix.Path) (world : World) (accesses : List StoreAccess)
    (faults : List DiskFault) : Alike path world (under world accesses faults) :=
  ⟨rfl, fun _ => rfl⟩

theorem refreshOAuthToken_answered (body : SerdeValue) (request : OAuthRefreshRequest)
    (world : World) :
    refreshOAuthToken (.ok body) request ⟨world, []⟩ =
      (match decodeTokenResponse body with
        | .error error => .error (.json error)
        | .ok tokenSet => .ok tokenSet, ⟨world, [request]⟩) := by
  rw [refreshOAuthToken, Action.bind_ok (Action.modify_apply _ _)]
  dsimp only
  cases decodeTokenResponse body <;> rfl

theorem onDisk_ok {work : Work PUnit} {world after : World}
    (done : work world = (.ok ⟨⟩, after)) (sent : List OAuthRefreshRequest) :
    onDisk work ⟨world, sent⟩ = (.ok ⟨⟩, ⟨after, sent⟩) := by
  simp only [onDisk, done]

theorem onDisk_error {work : Work PUnit} {world after : World} {error : String}
    (failed : work world = (.error error, after)) (sent : List OAuthRefreshRequest) :
    onDisk work ⟨world, sent⟩ = (.error (.io error), ⟨after, sent⟩) := by
  simp only [onDisk, failed]

section Resolve

variable {places : Places} {session : Session} {config : OAuthConfig} {now : UInt64}
  {answer : Except String SerdeValue} {accesses : List StoreAccess} {faults : List DiskFault}

/-- A session whose credentials are what was granted. -/
structure Kept (places : Places) (session : Session) : Prop where
  held : Held places session.world session.granted
  loaded : ∀ tokenSet, session.loaded = some tokenSet → tokenSet = session.granted
  returned : ∀ tokenSet, session.returned = some tokenSet → tokenSet = session.granted
  carried : (session.sent.map fun request => (some request.refreshToken, request.scopes)) =
    session.owed

theorem load_kept (kept : Kept places session)
    (safely : LoadsSafely places (under session.world accesses faults)) :
    Kept places
      (session.ofLoad (loadOAuthCredentials places (under session.world accesses faults))) := by
  have held : Held places (under session.world accesses faults) session.granted := kept.held
  obtain ⟨returned, still⟩ := load_held held safely
  cases done : loadOAuthCredentials places (under session.world accesses faults) with
  | mk result after =>
      rw [done] at returned still
      cases result with
      | error error => exact ⟨still, nofun, kept.returned, kept.carried⟩
      | ok found =>
          refine ⟨still, fun tokenSet same => ?_, kept.returned, kept.carried⟩
          have loaded := returned found rfl
          rw [loaded] at same
          exact (Option.some.inj same).symm

/-- A resolution that sent nothing. -/
theorem silent_kept (kept : Kept places session) {result : Except RefreshError OAuthTokenSet}
    (returned : ∀ tokenSet, result = .ok tokenSet → tokenSet = session.granted) :
    Kept places
      (session.ofResolve answer (result, ⟨under session.world accesses faults, []⟩)) := by
  have granted : (session.ofResolve answer
      (result, ⟨under session.world accesses faults, []⟩)).granted = session.granted := by
    cases result <;> rfl
  constructor
  · rw [granted]
    exact kept.held
  · exact nofun
  · intro tokenSet same
    rw [granted]
    cases result with
    | error error => cases same
    | ok value => exact returned tokenSet (congrArg Except.ok (Option.some.inj same))
  · simpa [Session.ofResolve] using kept.carried

/-- A resolution that sent its request and failed. -/
theorem failed_kept (kept : Kept places session) {request : OAuthRefreshRequest} {after : World}
    {error : RefreshError} (alike : AlikeBoth places session.world after)
    (carries : (some request.refreshToken, request.scopes) =
      (session.granted.refreshToken, session.granted.scopes)) :
    Kept places (session.ofResolve answer (.error error, ⟨after, [request]⟩)) := by
  refine ⟨kept.held.alike alike, nofun, nofun, ?_⟩
  simp [Session.ofResolve, kept.carried, carries]

/-- A resolution that was answered: the save succeeds as a whole or not at all. -/
theorem saved_kept (kept : Kept places session) {request : OAuthRefreshRequest}
    {body : SerdeValue} {refreshed : OAuthTokenSet}
    (decoded : decodeTokenResponse body = .ok refreshed)
    (stated : statesScopes body = true ∨ session.granted.scopes = [])
    (whole : SavesWhole (under session.world accesses faults) places.current)
    (carries : (some request.refreshToken, request.scopes) =
      (session.granted.refreshToken, session.granted.scopes)) :
    Kept places (session.ofResolve (.ok body)
      ((do
        onDisk (saveOAuthCredentials places (resolvedTokens session.granted refreshed))
        pure (resolvedTokens session.granted refreshed) : Refreshing OAuthTokenSet)
          ⟨under session.world accesses faults, [request]⟩)) := by
  have same := resolvedTokens_eq_granted decoded stated
  have saved := @save_whole places _ (resolvedTokens session.granted refreshed) whole
  cases done : saveOAuthCredentials places (resolvedTokens session.granted refreshed)
      (under session.world accesses faults) with
  | mk result after =>
      rw [done] at saved
      obtain ⟨ok, holds⟩ | ⟨⟨error, failed⟩, alike⟩ := saved
      · cases ok
        rw [Action.bind_ok (onDisk_ok done [request])]
        have granted : (session.ofResolve (.ok body)
            (.ok (resolvedTokens session.granted refreshed), ⟨after, [request]⟩)).granted =
              resolvedTokens session.granted refreshed := by
          rw [same]
          show (match decodeTokenResponse body with
            | .ok refreshed => grantedBehind session.granted body refreshed
            | .error _ => session.granted) = _
          rw [decoded]
        show Kept places (session.ofResolve (.ok body)
          (.ok (resolvedTokens session.granted refreshed), ⟨after, [request]⟩))
        refine ⟨?_, nofun, fun tokenSet returned => ?_, ?_⟩
        · rw [granted]
          exact .inl holds
        · exact (Option.some.inj returned).symm.trans granted.symm
        · show ((session.sent ++ [request]).map _) = session.owed ++ _
          simp [kept.carried, carries]
      · cases failed
        rw [Action.bind_error (onDisk_error done [request])]
        exact failed_kept kept ⟨(alike_under ..).trans alike.1,
          fun different => (alike_under ..).trans (alike.2 different)⟩ carries

theorem resolve_kept (kept : Kept places session) {tokenSet : OAuthTokenSet}
    (loaded : session.loaded = some tokenSet)
    (sound : Sound places session (.resolve config now answer accesses faults)) :
    Kept places (session.ofResolve answer
      (resolveSavedOAuthTokenSet places config now answer tokenSet
        ⟨under session.world accesses faults, []⟩)) := by
  obtain ⟨whole, stated⟩ := sound
  cases kept.loaded tokenSet loaded
  rw [resolveSavedOAuthTokenSet]
  by_cases expired : oauthTokenIsExpired session.granted now = true
  · rw [if_pos expired]
    cases refresh : session.granted.refreshToken with
    | none => exact silent_kept kept nofun
    | some refreshToken =>
        have carries : (some refreshToken, session.granted.scopes) =
            (session.granted.refreshToken, session.granted.scopes) := by rw [refresh]
        have unchanged : AlikeBoth places session.world (under session.world accesses faults) :=
          ⟨alike_under .., fun _ => alike_under ..⟩
        cases answer with
        | error error => exact failed_kept kept unchanged carries
        | ok body =>
            have answered := refreshOAuthToken_answered body
              (OAuthRefreshRequest.fromConfig config refreshToken (some session.granted.scopes))
              (under session.world accesses faults)
            cases decoded : decodeTokenResponse body with
            | error error =>
                rw [decoded] at answered
                dsimp only
                rw [Action.bind_error answered]
                exact failed_kept kept unchanged carries
            | ok refreshed =>
                rw [decoded] at answered
                dsimp only
                rw [Action.bind_ok answered]
                exact saved_kept kept decoded (stated body rfl) whole carries
  · rw [if_neg expired]
    exact silent_kept kept fun tokenSet same => (Except.ok.inj same).symm

end Resolve

theorem step_kept {places : Places} {session next : Session} {label : Label}
    (kept : Kept places session) (sound : Sound places session label)
    (steps : step places session label = some next) : Kept places next := by
  cases label with
  | load accesses faults =>
      cases steps
      exact load_kept kept sound
  | resolve config now answer accesses faults =>
      obtain ⟨tokenSet, loaded, rfl⟩ := Option.map_eq_some_iff.1 steps
      exact resolve_kept kept loaded sound

/-! ## Runs -/

/-- A process that starts with this token set saved. -/
def begins (world : World) (tokenSet : OAuthTokenSet) : Session where
  world := world
  loaded := none
  returned := none
  sent := []
  granted := tokenSet
  owed := []

/-- What is saved is what was granted, it is what the last refresh returned, and each request
carried the refresh token and the scopes of its time. -/
structure Remembers (places : Places) (session : Session) : Prop where
  saved : savedCredentials places session.world = .ok (some session.granted)
  returned : ∀ tokenSet, session.returned = some tokenSet → tokenSet = session.granted
  carried : (session.sent.map fun request => (some request.refreshToken, request.scopes)) =
    session.owed

/-- A step that returned nothing was granted nothing. -/
theorem granted_of_failed {places : Places} {session next : Session} {label : Label}
    (steps : step places session label = some next) (failed : next.returned = none) :
    next.granted = session.granted := by
  cases label with
  | load accesses faults =>
      cases steps
      cases done : loadOAuthCredentials places (under session.world accesses faults) with
      | mk result after => cases result <;> rfl
  | resolve config now answer accesses faults =>
      obtain ⟨tokenSet, -, rfl⟩ := Option.map_eq_some_iff.1 steps
      cases done : resolveSavedOAuthTokenSet places config now answer tokenSet
          ⟨under session.world accesses faults, []⟩ with
      | mk result exchange =>
          rw [done] at failed
          cases result with
          | error error => rfl
          | ok value => cases failed

/-- **The saved token set is what was granted**: the newest access token, the most recent
refresh token and the scopes last stated, over every run of loads and refreshes, and a step
that returns nothing leaves it. -/
theorem refresh_keeps_tokens (places : Places) (start : World) (tokenSet : OAuthTokenSet)
    (saved : savedCredentials places start = .ok (some tokenSet)) {labels : List Label}
    {session : Session}
    (run : Run (step places) (Sound places) (begins start tokenSet) labels session) :
    Remembers places session ∧
      ∀ label next, Sound places session label → step places session label = some next →
        next.returned = none →
          savedCredentials places next.world = savedCredentials places session.world := by
  have initially : Kept places (begins start tokenSet) :=
    ⟨saved_iff_held.1 saved, nofun, nofun, rfl⟩
  have kept : Kept places session :=
    run.invariant (Kept places) (fun _ _ _ held allowed steps => step_kept held allowed steps)
      initially
  have isSaved := saved_iff_held.2 kept.held
  refine ⟨⟨isSaved, kept.returned, kept.carried⟩, fun label next sound steps failed => ?_⟩
  rw [isSaved, saved_iff_held.2 (step_kept kept sound steps).held, granted_of_failed steps failed]

def oldTokens : OAuthTokenSet := ⟨"old", some "refresh", some 0, ["read"]⟩

def oldSaved : World := (saveOAuthCredentials homes oldTokens nothing).2

def client : OAuthConfig := ⟨"openyak", "http://localhost/token", []⟩

/-- The old tokens, loaded. -/
def oldLoaded : Session := { begins oldSaved oldTokens with loaded := some oldTokens }

/-- The session behind a refresh of the old tokens. -/
def refreshedBy (body : SerdeValue) : Session :=
  oldLoaded.ofResolve (.ok body)
    (resolveSavedOAuthTokenSet homes client 1 (.ok body) oldTokens ⟨under oldSaved [] [], []⟩)

theorem oldSaved_saved : savedCredentials homes oldSaved = .ok (some oldTokens) := by
  with_unfolding_all rfl

theorem old_loads : step homes (begins oldSaved oldTokens) (.load [] []) = some oldLoaded := by
  with_unfolding_all rfl

/-- A response that states its scopes. -/
def statedBody : SerdeValue :=
  .object (.ofMembers [("access_token", .string "new"), ("scopes", .array [.string "write"])])

theorem stated_scopes_kept :
    (refreshedBy statedBody).granted = ⟨"new", some "refresh", none, ["write"]⟩ ∧
      Remembers homes (refreshedBy statedBody) := by
  have readable : Readable (oldSaved.files homes.current) := ⟨.empty, by with_unfolding_all rfl⟩
  have loads : Sound homes (begins oldSaved oldTokens) (.load [] []) :=
    .inl fun access isIn => absurd isIn List.not_mem_nil
  have refreshes : Sound homes oldLoaded (.resolve client 1 (.ok statedBody) [] []) := by
    refine ⟨⟨readable, rfl⟩, fun body same => ?_⟩
    cases same
    exact .inl (by with_unfolding_all rfl)
  have run : Run (step homes) (Sound homes) (begins oldSaved oldTokens) _ (refreshedBy statedBody) :=
    .snoc (.snoc .nil loads old_loads) refreshes rfl
  exact ⟨by with_unfolding_all rfl,
    (refresh_keeps_tokens homes oldSaved oldTokens oldSaved_saved run).1⟩

/-- A response without scopes, which leaves the granted ones as they are. -/
def omittingBody : SerdeValue := .object (.ofMembers [("access_token", .string "new")])

/-- **Scopes that a response omits are lost.** -/
theorem omitted_scopes_lost :
    ¬∀ (places : Places) (start : World) (tokenSet : OAuthTokenSet),
      savedCredentials places start = .ok (some tokenSet) → ∀ labels session,
        Run (step places) (fun _ _ => True) (begins start tokenSet) labels session →
          Remembers places session := by
  intro remembers
  have refreshes : step homes oldLoaded (.resolve client 1 (.ok omittingBody) [] []) =
      some (refreshedBy omittingBody) := rfl
  have run : Run (step homes) (fun _ _ => True) (begins oldSaved oldTokens) _
      (refreshedBy omittingBody) := .snoc (.snoc .nil trivial old_loads) trivial refreshes
  have saved := (remembers homes oldSaved oldTokens oldSaved_saved _ _ run).saved
  have lost : savedCredentials homes (refreshedBy omittingBody).world =
      .ok (some ⟨"new", some "refresh", none, []⟩) := by
    with_unfolding_all rfl
  have granted : (refreshedBy omittingBody).granted = ⟨"new", some "refresh", none, ["read"]⟩ := by
    with_unfolding_all rfl
  rw [lost, granted] at saved
  simp at saved

end Openyak.Api
