/-
# Api.Retry -- requests that are sent again

Both provider clients send a request until it succeeds, fails with an error that is not
worth another try, or has been tried once more than `max_retries`; between two tries they
pause, twice as long as before.

They do so for every policy but two kinds (`send_with_retry_spec`).  At `u32::MAX` retries
the bound `max_retries + 1` overflows.  And the factor of the pause is a `u32` that is
shifted, so the pause behind the 33rd try is an error of its own, `BackoffOverflow`, where
a pause of `max_backoff` would do (`backoff_overflows`).
-/
import Mathlib.Data.List.Basic
import Mathlib.Data.List.Range
import Mathlib.Tactic.Common
import Mathlib.Algebra.Group.Nat.Defs

namespace Openyak.Api.Retry

set_option autoImplicit false

/-! ## Durations -/

/-- A `Duration`, whose seconds are a `u64`. -/
structure Duration where
  nanos : Nat
  fits : nanos < 2 ^ 64 * 1000000000
  deriving DecidableEq

namespace Duration

def checkedMul (duration : Duration) (factor : UInt32) : Option Duration :=
  if fits : duration.nanos * factor.toNat < 2 ^ 64 * 1000000000 then some ⟨_, fits⟩ else none

/-- `Ord::min`. -/
def min (a b : Duration) : Duration := if a.nanos ≤ b.nanos then a else b

theorem min_nanos (a b : Duration) : (a.min b).nanos = Min.min a.nanos b.nanos := by
  unfold min
  split <;> omega

end Duration

/-! ## Errors -/

inductive ApiError where
  | missingCredentials (provider : String) (envVars : List String)
  | expiredOAuthToken
  | auth (message : String)
  | invalidApiKeyEnv (error : String)
  | http (isConnect isTimeout isRequest : Bool) (error : String)
  | io (error : String)
  | json (error : String)
  | api (status : Nat) (errorType message : Option String) (body : String) (retryable : Bool)
  | retriesExhausted (attempts : UInt32) (lastError : ApiError)
  | invalidSseFrame (message : String)
  | backoffOverflow (attempt : UInt32) (baseDelay : Duration)

def ApiError.isRetryable : ApiError → Bool
  | .http isConnect isTimeout isRequest _ => isConnect || isTimeout || isRequest
  | .api _ _ _ _ retryable => retryable
  | .retriesExhausted _ lastError => lastError.isRetryable
  | .missingCredentials _ _ | .expiredOAuthToken | .auth _ | .invalidApiKeyEnv _ | .io _ | .json _
  | .invalidSseFrame _ | .backoffOverflow _ _ => false

/-! ## The loop -/

structure RetryPolicy where
  maxRetries : UInt32
  initialBackoff : Duration
  maxBackoff : Duration

/-- Addition of one, which overflows behind the last number. -/
def checkedSucc (n : UInt32) : Option UInt32 := if n.toNat + 1 < 2 ^ 32 then some (n + 1) else none

/-- `1_u32.checked_shl`. -/
def checkedShl (bits : UInt32) : Option UInt32 := if bits.toNat < 32 then some (1 <<< bits) else none

def backoffForAttempt (policy : RetryPolicy) (attempt : UInt32) : Except ApiError Duration :=
  -- `saturating_sub`
  match checkedShl (if attempt = 0 then 0 else attempt - 1) with
  | none => .error (.backoffOverflow attempt policy.initialBackoff)
  | some multiplier =>
      .ok (match policy.initialBackoff.checkedMul multiplier with
        | some delay => delay.min policy.maxBackoff
        | none => policy.maxBackoff)

/-- What `send_raw_request` gives, and `expect_success` of its response. -/
abbrev Outcome (ρ : Type) : Type := Except ApiError (Except ApiError ρ)

def Outcome.result {ρ : Type} : Outcome ρ → Except ApiError ρ
  | .ok result => result
  | .error error => .error error

/-- How many requests were sent, with which pauses between them, and what was returned:
nothing, where an addition overflows. -/
structure Sent (ρ : Type) where
  requests : Nat
  pauses : List Duration
  result : Option (Except ApiError ρ)

/-- How the match on an outcome ends. -/
inductive Judged (ρ : Type) where
  | overflows
  | returns (result : Except ApiError ρ)
  | captures (error : ApiError)

section Loop

variable {ρ : Type} (policy : RetryPolicy)

/-- The guard `error.is_retryable() && attempts <= self.max_retries + 1`. -/
def judgeError (attempts : UInt32) (error : ApiError) : Judged ρ :=
  if error.isRetryable then
    match checkedSucc policy.maxRetries with
    | none => .overflows
    | some limit => if attempts ≤ limit then .captures error else .returns (.error error)
  else .returns (.error error)

def judge (attempts : UInt32) : Outcome ρ → Judged ρ
  | .ok (.ok response) => .returns (.ok response)
  | .ok (.error error) => judgeError policy attempts error
  | .error error => judgeError policy attempts error

theorem checkedSucc_grows {n next : UInt32} (succ : checkedSucc n = some next) :
    next.toNat = n.toNat + 1 := by
  unfold checkedSucc at succ
  split at succ
  · cases succ
    rw [UInt32.toNat_add]
    show (n.toNat + 1) % 2 ^ 32 = _
    omega
  · cases succ

namespace OpenAiCompatClient

/-- The rounds of the loop behind `sent` requests. -/
def rounds (outcomes : Nat → Outcome ρ) (sent : UInt32) (pauses : List Duration) : Sent ρ :=
  match succ : checkedSucc sent with
  | none => ⟨sent.toNat, pauses, none⟩
  | some attempts =>
      match judge policy attempts (outcomes sent.toNat) with
      | .overflows => ⟨attempts.toNat, pauses, none⟩
      | .returns result => ⟨attempts.toNat, pauses, some result⟩
      | .captures error =>
          if policy.maxRetries < attempts then
            ⟨attempts.toNat, pauses, some (.error (.retriesExhausted attempts error))⟩
          else
            match backoffForAttempt policy attempts with
            | .error error => ⟨attempts.toNat, pauses, some (.error error)⟩
            | .ok pause => rounds outcomes attempts (pauses ++ [pause])
  termination_by 2 ^ 32 - sent.toNat
  decreasing_by
    have grows := checkedSucc_grows succ
    have below := attempts.toNat_lt
    omega

def sendWithRetry (outcomes : Nat → Outcome ρ) : Sent ρ := rounds policy outcomes 0 []

end OpenAiCompatClient

namespace OpenyakApiClient

/-- The rounds of the loop behind `sent` requests, with the last error that was captured. -/
def rounds (outcomes : Nat → Outcome ρ) (sent : UInt32) (lastError : Option ApiError)
    (pauses : List Duration) : Sent ρ :=
  match succ : checkedSucc sent with
  | none => ⟨sent.toNat, pauses, none⟩
  | some attempts =>
      match judge policy attempts (outcomes sent.toNat) with
      | .overflows => ⟨attempts.toNat, pauses, none⟩
      | .returns result => ⟨attempts.toNat, pauses, some result⟩
      | .captures error =>
          let lastError := some error
          if policy.maxRetries < attempts then
            -- `last_error.expect`
            ⟨attempts.toNat, pauses,
              lastError.map fun error => .error (.retriesExhausted attempts error)⟩
          else
            match backoffForAttempt policy attempts with
            | .error error => ⟨attempts.toNat, pauses, some (.error error)⟩
            | .ok pause => rounds outcomes attempts lastError (pauses ++ [pause])
  termination_by 2 ^ 32 - sent.toNat
  decreasing_by
    have grows := checkedSucc_grows succ
    have below := attempts.toNat_lt
    omega

def sendWithRetry (outcomes : Nat → Outcome ρ) : Sent ρ := rounds policy outcomes 0 none []

end OpenyakApiClient

/-- The clients of both providers. -/
inductive ProviderClient where
  | openyak
  | openAiCompat
  deriving DecidableEq, Repr

def ProviderClient.sendWithRetry (outcomes : Nat → Outcome ρ) : ProviderClient → Sent ρ
  | .openyak => OpenyakApiClient.sendWithRetry policy outcomes
  | .openAiCompat => OpenAiCompatClient.sendWithRetry policy outcomes

end Loop

/-! ## One round -/

section Rounds

variable {ρ : Type} {policy : RetryPolicy} {outcomes : Nat → Outcome ρ} {sent attempts : UInt32}
  {pauses : List Duration} {lastError : Option ApiError}

namespace OpenAiCompatClient

theorem rounds_some (succ : checkedSucc sent = some attempts) :
    rounds policy outcomes sent pauses =
      match judge policy attempts (outcomes sent.toNat) with
      | .overflows => ⟨attempts.toNat, pauses, none⟩
      | .returns result => ⟨attempts.toNat, pauses, some result⟩
      | .captures error =>
          if policy.maxRetries < attempts then
            ⟨attempts.toNat, pauses, some (.error (.retriesExhausted attempts error))⟩
          else
            match backoffForAttempt policy attempts with
            | .error error => ⟨attempts.toNat, pauses, some (.error error)⟩
            | .ok pause => rounds policy outcomes attempts (pauses ++ [pause]) := by
  rw [rounds.eq_def]
  split
  · rename_i no
    rw [succ] at no
    cases no
  · rename_i more
    rw [succ] at more
    cases more
    rfl

end OpenAiCompatClient

namespace OpenyakApiClient

theorem rounds_none (succ : checkedSucc sent = none) :
    rounds policy outcomes sent lastError pauses = ⟨sent.toNat, pauses, none⟩ := by
  rw [rounds.eq_def]
  split
  · rfl
  · rename_i more
    rw [succ] at more
    cases more

theorem rounds_some (succ : checkedSucc sent = some attempts) :
    rounds policy outcomes sent lastError pauses =
      match judge policy attempts (outcomes sent.toNat) with
      | .overflows => ⟨attempts.toNat, pauses, none⟩
      | .returns result => ⟨attempts.toNat, pauses, some result⟩
      | .captures error =>
          if policy.maxRetries < attempts then
            ⟨attempts.toNat, pauses, some (.error (.retriesExhausted attempts error))⟩
          else
            match backoffForAttempt policy attempts with
            | .error error => ⟨attempts.toNat, pauses, some (.error error)⟩
            | .ok pause => rounds policy outcomes attempts (some error) (pauses ++ [pause]) := by
  rw [rounds.eq_def]
  split
  · rename_i no
    rw [succ] at no
    cases no
  · rename_i more
    rw [succ] at more
    cases more
    rfl

/-- The error behind the loop is the last one that was captured, so the loops are the same. -/
theorem rounds_same : rounds policy outcomes sent lastError pauses =
    OpenAiCompatClient.rounds policy outcomes sent pauses := by
  fun_induction OpenAiCompatClient.rounds policy outcomes sent pauses generalizing lastError with
  | case1 sent pauses succ => exact rounds_none succ
  | case2 sent pauses attempts succ judged => rw [rounds_some succ, judged]
  | case3 sent pauses attempts succ result judged => rw [rounds_some succ, judged]
  | case4 sent pauses attempts succ error judged last =>
      rw [rounds_some succ, judged]
      exact if_pos last
  | case5 sent pauses attempts succ error judged more error' backoff =>
      rw [rounds_some succ, judged]
      dsimp only
      rw [if_neg more, backoff]
  | case6 sent pauses attempts succ error judged more pause backoff ih =>
      rw [rounds_some succ, judged]
      dsimp only
      rw [if_neg more, backoff]
      exact ih

end OpenyakApiClient

/-- **Both clients send alike.** -/
theorem sendWithRetry_same (client : ProviderClient) : client.sendWithRetry policy outcomes =
    OpenAiCompatClient.sendWithRetry policy outcomes := by
  cases client with
  | openyak => exact OpenyakApiClient.rounds_same
  | openAiCompat => rfl

/-- The error of an outcome, if it is worth another try. -/
def Outcome.retryError (outcome : Outcome ρ) : Option ApiError :=
  match outcome.result with
  | .ok _ => none
  | .error error => if error.isRetryable then some error else none

theorem judge_final {outcome : Outcome ρ} (final : outcome.retryError = none) :
    judge policy attempts outcome = .returns outcome.result := by
  have judged : ∀ error : ApiError, (if error.isRetryable then some error else none) = none →
      judgeError (ρ := ρ) policy attempts error = .returns (.error error) := by
    intro error isFinal
    cases retryable : error.isRetryable with
    | true =>
        rw [retryable] at isFinal
        cases isFinal
    | false => rw [judgeError, retryable]; rfl
  match outcome with
  | .ok (.ok response) => rfl
  | .ok (.error error) => exact judged error final
  | .error error => exact judged error final

theorem judge_retry {outcome : Outcome ρ} {error : ApiError} (bounded : policy.maxRetries.toNat + 1 < 2 ^ 32)
    (within : attempts.toNat ≤ policy.maxRetries.toNat + 1) (retry : outcome.retryError = some error) :
    judge policy attempts outcome = .captures error := by
  obtain ⟨limit, succ⟩ : ∃ limit, checkedSucc policy.maxRetries = some limit :=
    ⟨_, if_pos bounded⟩
  have below : attempts ≤ limit := by
    rw [UInt32.le_iff_toNat_le, checkedSucc_grows succ]
    exact within
  have judged : ∀ found : ApiError, (if found.isRetryable then some found else none) = some error →
      judgeError (ρ := ρ) policy attempts found = .captures error := by
    intro found isRetry
    cases retryable : found.isRetryable with
    | false =>
        rw [retryable] at isRetry
        cases isRetry
    | true =>
        rw [retryable] at isRetry
        cases isRetry
        rw [judgeError, retryable, if_pos rfl, succ]
        exact if_pos below
  match outcome with
  | .ok (.ok response) => cases retry
  | .ok (.error found) => exact judged found retry
  | .error found => exact judged found retry

/-! ## Pauses -/

/-- The pause behind try `k + 1`: the initial one doubled `k` times, up to the longest. -/
def pauseNanos (policy : RetryPolicy) (k : Nat) : Nat :=
  Min.min (policy.initialBackoff.nanos * 2 ^ k) policy.maxBackoff.nanos

theorem checkedShl_some {bits : UInt32} (small : bits.toNat < 32) :
    ∃ factor, checkedShl bits = some factor ∧ factor.toNat = 2 ^ bits.toNat := by
  refine ⟨_, if_pos small, ?_⟩
  have power : 2 ^ bits.toNat < 2 ^ 32 := Nat.pow_lt_pow_right (by omega) small
  rw [UInt32.toNat_shiftLeft, Nat.mod_eq_of_lt small, UInt32.toNat_one, Nat.one_shiftLeft]
  exact Nat.mod_eq_of_lt power

theorem previous_toNat {k : Nat} (isNext : attempts.toNat = k + 1) :
    (if attempts = 0 then 0 else attempts - 1).toNat = k := by
  have positive : attempts ≠ 0 := by
    rintro rfl
    rw [UInt32.toNat_zero] at isNext
    omega
  rw [if_neg positive, UInt32.toNat_sub_of_le, isNext, UInt32.toNat_one]
  · omega
  · rw [UInt32.le_iff_toNat_le, UInt32.toNat_one]
    omega

theorem backoff_ok {k : Nat} (isNext : attempts.toNat = k + 1) (small : k < 32) :
    ∃ pause, backoffForAttempt policy attempts = .ok pause ∧ pause.nanos = pauseNanos policy k := by
  have previous := previous_toNat isNext
  obtain ⟨factor, shifted, isPower⟩ := checkedShl_some (by rw [previous]; exact small)
  rw [previous] at isPower
  rw [backoffForAttempt, shifted]
  dsimp only
  unfold Duration.checkedMul pauseNanos
  have longest := policy.maxBackoff.fits
  split
  · rename_i delay product
    split at product
    · cases product
      refine ⟨_, rfl, ?_⟩
      rw [Duration.min_nanos, ← isPower]
    · cases product
  · rename_i product
    split at product
    · cases product
    · rename_i large
      refine ⟨_, rfl, ?_⟩
      rw [isPower] at large
      omega

theorem backoff_error {k : Nat} (isNext : attempts.toNat = k + 1) (large : 32 ≤ k) :
    backoffForAttempt policy attempts = .error (.backoffOverflow attempts policy.initialBackoff) := by
  have previous := previous_toNat isNext
  have none_ : checkedShl (if attempts = 0 then 0 else attempts - 1) = none :=
    if_neg (by rw [previous]; omega)
  rw [backoffForAttempt, none_]

/-! ## How the loop ends -/

/-- The first `k` outcomes are worth another try. -/
def Retried (outcomes : Nat → Outcome ρ) (k : Nat) : Prop :=
  ∀ j < k, (outcomes j).retryError.isSome = true

/-- The pauses behind the first `k` tries. -/
def pausesBefore (policy : RetryPolicy) (k : Nat) : List Nat := (List.range k).map (pauseNanos policy)

/-- The try behind `k` others is the last: its outcome is returned, or it is the last that
the policy allows, or the pause behind it overflows. -/
structure EndsAt (policy : RetryPolicy) (outcomes : Nat → Outcome ρ) (sent : Sent ρ) (k : Nat) :
    Prop where
  allowed : k ≤ policy.maxRetries.toNat
  paused : k ≤ 32
  retried : Retried outcomes k
  requests : sent.requests = k + 1
  pauses : sent.pauses.map Duration.nanos = pausesBefore policy k
  result :
    ((outcomes k).retryError = none ∧ sent.result = some (outcomes k).result) ∨
    (k = policy.maxRetries.toNat ∧ ∃ attempts last, attempts.toNat = k + 1 ∧
      (outcomes k).retryError = some last ∧
      sent.result = some (.error (.retriesExhausted attempts last))) ∨
    (k = 32 ∧ k < policy.maxRetries.toNat ∧ (outcomes k).retryError.isSome = true ∧
      sent.result = some (.error (.backoffOverflow 33 policy.initialBackoff)))

/-- **A round**: it is the last, or behind the next pause the loop stands at the next try. -/
theorem rounds_step {k : Nat} (bounded : policy.maxRetries.toNat + 1 < 2 ^ 32)
    (count : sent.toNat = k) (allowed : k ≤ policy.maxRetries.toNat) (paused : k ≤ 32)
    (retried : Retried outcomes k) (spent : pauses.map Duration.nanos = pausesBefore policy k) :
    EndsAt policy outcomes (OpenAiCompatClient.rounds policy outcomes sent pauses) k ∨
      (k < policy.maxRetries.toNat ∧ k < 32 ∧ Retried outcomes (k + 1) ∧
        ∃ attempts later, attempts.toNat = k + 1 ∧
          later.map Duration.nanos = pausesBefore policy (k + 1) ∧
          OpenAiCompatClient.rounds policy outcomes sent pauses =
            OpenAiCompatClient.rounds policy outcomes attempts later) := by
  obtain ⟨attempts, succ⟩ : ∃ attempts, checkedSucc sent = some attempts :=
    ⟨_, if_pos (by omega)⟩
  have isNext : attempts.toNat = k + 1 := by rw [checkedSucc_grows succ, count]
  rw [OpenAiCompatClient.rounds_some succ, count]
  cases found : (outcomes k).retryError with
  | none =>
      left
      rw [judge_final found]
      exact ⟨allowed, paused, retried, isNext, spent, .inl ⟨found, rfl⟩⟩
  | some error =>
      rw [judge_retry bounded (by omega) found]
      dsimp only
      by_cases last : policy.maxRetries < attempts
      · left
        rw [if_pos last]
        rw [UInt32.lt_iff_toNat_lt] at last
        exact ⟨allowed, paused, retried, isNext, spent,
          .inr (.inl ⟨by omega, attempts, error, isNext, found, rfl⟩)⟩
      rw [if_neg last]
      rw [UInt32.lt_iff_toNat_lt] at last
      obtain small | large := Nat.lt_or_ge k 32
      · right
        obtain ⟨pause, backoff, nanos⟩ : ∃ pause, backoffForAttempt policy attempts = .ok pause ∧
            pause.nanos = pauseNanos policy k := backoff_ok isNext small
        have retriedNext : Retried outcomes (k + 1) := by
          intro j before
          obtain before | rfl := Nat.lt_succ_iff_lt_or_eq.1 before
          · exact retried j before
          · rw [found]
            rfl
        refine ⟨by omega, small, retriedNext, attempts, pauses ++ [pause], isNext, ?_, by rw [backoff]⟩
        rw [List.map_append, spent, pausesBefore, pausesBefore, List.range_succ, List.map_append]
        simp [nanos]
      · left
        obtain rfl : k = 32 := by omega
        have isLast : attempts = 33 := UInt32.toNat_inj.1 isNext
        rw [backoff_error isNext large]
        exact ⟨allowed, paused, retried, isNext, spent,
          .inr (.inr ⟨rfl, by omega, by rw [found]; rfl, by rw [isLast]⟩)⟩

/-- From every try that is reached the loop ends. -/
theorem rounds_ends {k : Nat} (bounded : policy.maxRetries.toNat + 1 < 2 ^ 32)
    (count : sent.toNat = k) (allowed : k ≤ policy.maxRetries.toNat) (paused : k ≤ 32)
    (retried : Retried outcomes k) (spent : pauses.map Duration.nanos = pausesBefore policy k) :
    ∃ last, EndsAt policy outcomes (OpenAiCompatClient.rounds policy outcomes sent pauses) last := by
  -- on the tries that are left before the 33rd
  induction left : 32 - k generalizing k sent pauses with
  | zero =>
      obtain ends | ⟨_, small, _⟩ := rounds_step bounded count allowed paused retried spent
      · exact ⟨k, ends⟩
      · omega
  | succ left ih =>
      obtain ends | ⟨more, small, retriedNext, attempts, later, isNext, spentNext, same⟩ :=
        rounds_step bounded count allowed paused retried spent
      · exact ⟨k, ends⟩
      · rw [same]
        exact ih isNext (by omega) (by omega) retriedNext spentNext (by omega)

theorem sendWithRetry_ends (bounded : policy.maxRetries.toNat + 1 < 2 ^ 32)
    (client : ProviderClient) :
    ∃ last, EndsAt policy outcomes (client.sendWithRetry policy outcomes) last := by
  rw [sendWithRetry_same]
  exact rounds_ends bounded UInt32.toNat_zero (Nat.zero_le _) (Nat.zero_le _) nofun rfl

end Rounds

/-! ## What the loop promises -/

section Promise

variable {ρ : Type} {policy : RetryPolicy} {outcomes : Nat → Outcome ρ}

/-- What a client does under a policy. -/
structure Promised (policy : RetryPolicy) (outcomes : Nat → Outcome ρ) (sent : Sent ρ) : Prop where
  completes : sent.result.isSome = true
  bounded : sent.requests ≤ policy.maxRetries.toNat + 1
  pauses : sent.pauses.map Duration.nanos = pausesBefore policy (sent.requests - 1)
  /-- The first outcome that is not worth another try is returned at once. -/
  returns : ∀ k, k ≤ policy.maxRetries.toNat → k ≤ 32 → Retried outcomes k →
    (outcomes k).retryError = none →
    sent.requests = k + 1 ∧ sent.result = some (outcomes k).result
  exhausts : policy.maxRetries.toNat ≤ 32 → ∀ last, Retried outcomes policy.maxRetries.toNat →
    (outcomes policy.maxRetries.toNat).retryError = some last →
    sent.requests = policy.maxRetries.toNat + 1 ∧
      sent.result = some (.error (.retriesExhausted (policy.maxRetries + 1) last))
  overflows : 32 < policy.maxRetries.toNat → Retried outcomes 33 →
    sent.requests = 33 ∧ sent.result = some (.error (.backoffOverflow 33 policy.initialBackoff))

/-- A try that is worth another is not the one whose outcome is returned. -/
theorem Retried.not_none {n k : Nat} (retried : Retried outcomes n) (before : k < n) :
    (outcomes k).retryError ≠ none := by
  intro final
  have isSome := retried k before
  rw [final] at isSome
  cases isSome

theorem EndsAt.promised {sent : Sent ρ} {last : Nat} (bounded : policy.maxRetries.toNat + 1 < 2 ^ 32)
    (ends : EndsAt policy outcomes sent last) : Promised policy outcomes sent := by
  obtain ⟨allowed, paused, retried, requests, pauses, result⟩ := ends
  refine ⟨?_, by omega, by rw [requests]; exact pauses, ?_, ?_, ?_⟩
  · obtain ⟨-, isResult⟩ | ⟨-, attempts, error, -, -, isResult⟩ | ⟨-, -, -, isResult⟩ := result <;>
      rw [isResult] <;> rfl
  · intro k allowedK pausedK retriedK final
    have same : last = k := by
      obtain before | same | behind := Nat.lt_trichotomy last k
      · -- the loop has not ended at an outcome that is worth another try
        obtain ⟨found, -⟩ | ⟨isMax, -⟩ | ⟨isLast, -⟩ := result
        · exact absurd found (retriedK.not_none before)
        · omega
        · omega
      · exact same
      · exact absurd final (retried.not_none behind)
    subst same
    refine ⟨requests, ?_⟩
    obtain ⟨-, isResult⟩ | ⟨-, _, error, -, found, -⟩ | ⟨-, -, found, -⟩ := result
    · exact isResult
    · rw [final] at found
      cases found
    · rw [final] at found
      cases found
  · intro small error retriedAll found
    have same : last = policy.maxRetries.toNat := by
      obtain ⟨final, -⟩ | ⟨isMax, -⟩ | ⟨isLast, more, -⟩ := result
      · obtain before | same := Nat.lt_or_eq_of_le allowed
        · exact absurd final (retriedAll.not_none before)
        · exact same
      · exact isMax
      · omega
    refine ⟨by rw [requests, same], ?_⟩
    rw [same] at result
    obtain ⟨final, -⟩ | ⟨-, attempts, other, isNext, found', isResult⟩ | ⟨isLast, more, -⟩ := result
    · rw [final] at found
      cases found
    · rw [found] at found'
      cases found'
      have isSucc : attempts = policy.maxRetries + 1 := by
        apply UInt32.toNat_inj.1
        rw [isNext, UInt32.toNat_add]
        exact (Nat.mod_eq_of_lt bounded).symm
      rw [isResult, isSucc]
    · omega
  · intro large retriedAll
    have same : last = 32 := by
      obtain ⟨final, -⟩ | ⟨isMax, -⟩ | ⟨isLast, -⟩ := result
      · exact absurd final (retriedAll.not_none (by omega))
      · omega
      · exact isLast
    subst same
    refine ⟨requests, ?_⟩
    obtain ⟨final, -⟩ | ⟨isMax, -⟩ | ⟨-, -, -, isResult⟩ := result
    · exact absurd final (retriedAll.not_none (by omega))
    · omega
    · exact isResult

/-- **The retry loop of both clients**, for every policy that leaves `max_retries + 1` a `u32`. -/
theorem send_with_retry_spec (bounded : policy.maxRetries.toNat + 1 < 2 ^ 32)
    (client : ProviderClient) :
    Promised policy outcomes (client.sendWithRetry policy outcomes) := by
  obtain ⟨last, ends⟩ := sendWithRetry_ends bounded client
  exact ends.promised bounded

end Promise

/-- A server that is not available. -/
def unavailable : Outcome Unit := .ok (.error (.api 503 none none "" true))

/-- 33 retries, from a fifth of a second up to two seconds. -/
def patient : RetryPolicy := ⟨33, ⟨200000000, by decide⟩, ⟨2000000000, by decide⟩⟩

theorem send_with_retry_patient :
    Promised patient (fun _ => unavailable)
      (ProviderClient.openyak.sendWithRetry patient fun _ => unavailable) :=
  send_with_retry_spec (by decide) .openyak

/-- After 33 of the 34 tries the loop ends, with another error than that of the last try. -/
theorem backoff_overflows :
    (∀ j ≤ patient.maxRetries.toNat, unavailable.retryError.isSome = true) ∧
    ∀ client : ProviderClient, ∃ sent, client.sendWithRetry patient (fun _ => unavailable) = sent ∧
      sent.requests = 33 ∧
      ∀ attempts last, sent.result ≠ some (.error (.retriesExhausted attempts last)) := by
  refine ⟨fun _ _ => rfl, fun client => ⟨_, rfl, ?_⟩⟩
  have small : patient.maxRetries.toNat + 1 < 2 ^ 32 := by decide
  obtain ⟨last, ends⟩ : ∃ last, EndsAt patient (fun _ => unavailable)
      (client.sendWithRetry patient fun _ => unavailable) last := sendWithRetry_ends small client
  have promised := ends.promised small
  obtain ⟨requests, result⟩ := promised.overflows (by decide) fun _ _ => rfl
  refine ⟨requests, fun attempts last exhausted => ?_⟩
  rw [result] at exhausted
  cases exhausted

end Openyak.Api.Retry
