/-
# Lsp.Answers -- whose answer a request gets

A conforming server answers a request once and with its number, and may at any time send
notifications and requests of its own.  What a caller is sent `Belongs` to it if it is the
answer to its own request, and no answer is lost while its caller still waits.

The reader looks every message with a number up in the table of waiting callers, requests
of the server too.  So answers belong in every run in which the numbers stay apart
(`answers_belong`): no request of the server's own bears the number of a caller that waits,
and no caller takes a number that is still in use.  A server that asks under number 1 while
request 1 waits is answered for (`clash_loses`).
-/
import Openyak.Lsp.Client

namespace Openyak.Lsp

open Openyak.Theory Openyak.Theory.ByteStream

set_option autoImplicit false

/-- The caller has an entry in the table, or had one and its answer has come. -/
def Stage.isOpen : Stage → Bool
  | .registered | .failing _ | .waiting => true
  | .numbered | .returned _ => false

namespace LspClient

variable {serde : Serde} {client next : LspClient} {caller other : Nat} {call : Call}
  {stage : Stage}

/-- The request has returned, and if the server heard it, its answer has come. -/
def Done (client : LspClient) (caller : Nat) (call : Call) : Prop :=
  (∃ result, call.stage = .returned result) ∧
    (caller ∈ client.heard → caller ∈ client.answered.map Prod.fst)

/-! ## The server -/

structure IsResponse (message : Json) (id : Int64) : Prop where
  number : idOf message = some id
  noMethod : message.get? "method" = none
  oneOf : (message.get? "result").isSome ↔ (message.get? "error").isNone

/-- A notification or a request; diagnostics are such that the client can read them. -/
structure IsOwn (serde : Serde) (message : Json) : Prop where
  method : ∃ method, (message.get? "method").bind Json.asStr? = some method
  readable : idOf message = none →
    (message.get? "method").bind Json.asStr? = some "textDocument/publishDiagnostics" →
      ∃ notification,
        serde.publishDiagnostics ((message.get? "params").getD .null) = .ok notification

/-- What a conforming server may write where the client reads it. -/
def Conforming (serde : Serde) (client : LspClient) : Event → Prop
  | .read answers =>
      match (readMessage serde client.incoming).1 with
      | .message message =>
          match answers with
          | some caller => ∃ call, client.calls caller = some call ∧ caller ∈ client.heard ∧
              caller ∉ client.answered.map Prod.fst ∧ IsResponse message call.id
          | none => IsOwn serde message
      | .ended => True
      | .failed _ | .panicked => False
  | _ => True

/-- Numbers of the server's requests and of the client's are not mixed up. -/
def NumbersApart (serde : Serde) (client : LspClient) : Event → Prop
  | .call _ _ _ => ∀ caller call, client.calls caller = some call →
      call.id = client.nextRequestId → client.Done caller call
  | .read none => ∀ message id, (readMessage serde client.incoming).1 = .message message →
      idOf message = some id → client.requests.pending.lookup id = none
  | _ => True

/-! ## The property -/

/-- What callers were sent and returned is what the server answered them, and a caller that
waits has its answer, or is in the table under its number to get it. -/
structure Belongs (serde : Serde) (client : LspClient) : Prop where
  delivered : ∀ caller value, client.requests.inbox caller = some value →
    ∃ message, (caller, message) ∈ client.answered ∧ value = responseOf serde message
  returned : ∀ caller call value, client.calls caller = some call →
    call.stage = .returned (.ok value) → ∃ message, (caller, message) ∈ client.answered ∧
      resultOf serde call.method (some (responseOf serde message)) = .ok value
  received : ∀ caller call message, client.calls caller = some call → call.stage.isOpen →
    (caller, message) ∈ client.answered →
      client.requests.inbox caller = some (responseOf serde message)
  waits : ∀ caller call, client.calls caller = some call → call.stage.isOpen →
    caller ∉ client.answered.map Prod.fst →
      client.requests.pending.lookup call.id = some caller

/-! ## The invariant -/

/-- The number a caller with an entry took. -/
def took (client : LspClient) (caller : Nat) : Option Int64 :=
  (client.calls caller).bind fun call => if call.stage.isOpen then some call.id else none

structure Sound (serde : Serde) (client : LspClient) : Prop extends Belongs serde client where
  keyed : client.requests.Keyed client.took
  unanswered : ∀ id caller, client.requests.pending.lookup id = some caller →
    caller ∉ client.answered.map Prod.fst
  heardOnes : ∀ caller ∈ client.heard, ∃ call, client.calls caller = some call ∧
    call.stage ≠ .numbered
  answersHeard : ∀ caller ∈ client.answered.map Prod.fst, caller ∈ client.heard
  distinct : ∀ caller other call call', client.calls caller = some call →
    client.calls other = some call' → call.id = call'.id →
      caller = other ∨ client.Done caller call ∨ client.Done other call'

theorem took_eq (held : client.calls caller = some call) (isOpen : call.stage.isOpen) :
    client.took caller = some call.id := by
  rw [took, held, Option.bind_some, if_pos isOpen]

theorem of_took {id : Int64} (taken : client.took caller = some id) :
    ∃ call, client.calls caller = some call ∧ call.stage.isOpen ∧ call.id = id := by
  obtain ⟨call, held, same⟩ := Option.bind_eq_some_iff.1 taken
  by_cases isOpen : call.stage.isOpen
  · rw [if_pos isOpen] at same
    exact ⟨call, held, isOpen, Option.some.inj same⟩
  · rw [if_neg isOpen] at same
    cases same

theorem not_done_of_open (isOpen : call.stage.isOpen) : ¬client.Done caller call := by
  rintro ⟨⟨result, isReturned⟩, -⟩
  rw [isReturned] at isOpen
  cases isOpen

/-- Two callers with an entry have different numbers. -/
theorem Sound.apart (sound : Sound serde client) {call' : Call}
    (held : client.calls caller = some call) (held' : client.calls other = some call')
    (isOpen : call.stage.isOpen) (unfinished : ¬client.Done other call')
    (same : call.id = call'.id) : caller = other := by
  rcases sound.distinct caller other call call' held held' same with isSame | done | done
  · exact isSame
  · exact absurd done (not_done_of_open isOpen)
  · exact absurd done unfinished

theorem sound_connected (incoming : Incoming) : Sound serde (connected incoming) where
  delivered := fun caller value isSent => by cases isSent
  returned := fun caller call value held => by cases held
  received := fun caller call message held => by cases held
  waits := fun caller call held => by cases held
  keyed := fun id caller held => by cases held
  unanswered := fun id caller held => by cases held
  heardOnes := fun caller member => absurd member List.not_mem_nil
  answersHeard := fun caller member => absurd member List.not_mem_nil
  distinct := fun caller other call call' held => by cases held

/-! ## What an event does -/

theorem step_call {method : String} {params : Json}
    (steps : step serde client (.call caller method params) = some next) :
    client.calls caller = none ∧ next = client.beginCall caller method params := by
  simp only [step] at steps
  split at steps
  · rename_i free
    exact ⟨free, (Option.some.inj steps).symm⟩
  · cases steps

theorem step_register (steps : step serde client (.register caller) = some next) :
    ∃ call, client.calls caller = some call ∧ call.stage = .numbered ∧
      next = client.registerCall caller call := by
  simp only [step] at steps
  split at steps
  · rename_i held
    exact ⟨_, held, rfl, (Option.some.inj steps).symm⟩
  · cases steps

theorem step_write (steps : step serde client (.write caller) = some next) :
    ∃ call, client.calls caller = some call ∧ call.stage = .registered ∧
      next = client.writeCall serde caller call := by
  simp only [step] at steps
  split at steps
  · rename_i held
    split at steps
    · cases steps
    · exact ⟨_, held, rfl, (Option.some.inj steps).symm⟩
  · cases steps

theorem step_sent {failure : Option LspError}
    (steps : step serde client (.sent caller failure) = some next) :
    ∃ call stage, client.calls caller = some call ∧ call.stage = .registered ∧ stage.isOpen ∧
      next = client.setStage caller call stage := by
  cases failure with
  | none =>
      simp only [step] at steps
      split at steps
      · rename_i held
        split at steps
        · exact ⟨_, .waiting, held, rfl, rfl, (Option.some.inj steps).symm⟩
        · cases steps
      · cases steps
  | some error =>
      simp only [step] at steps
      split at steps
      · rename_i held
        exact ⟨_, .failing error, held, rfl, rfl, (Option.some.inj steps).symm⟩
      · cases steps

theorem step_withdraw (steps : step serde client (.withdraw caller) = some next) :
    ∃ call error, client.calls caller = some call ∧ call.stage = .failing error ∧
      next = client.withdrawCall caller call error := by
  simp only [step] at steps
  split at steps
  · rename_i held
    exact ⟨_, _, held, rfl, (Option.some.inj steps).symm⟩
  · cases steps

theorem step_receive (steps : step serde client (.receive caller) = some next) :
    ∃ call received, client.calls caller = some call ∧ call.stage = .waiting ∧
      client.requests.poll caller = some received ∧
      next = client.setStage caller call (.returned (resultOf serde call.method received)) := by
  simp only [step] at steps
  split at steps
  · rename_i held
    obtain ⟨received, polled, same⟩ := Option.map_eq_some_iff.1 steps
    exact ⟨_, received, held, rfl, polled, same.symm⟩
  · cases steps

theorem step_read {answers : Option Nat} (steps : step serde client (.read answers) = some next) :
    client.reading = true ∧ next = client.readNext serde answers := by
  simp only [step] at steps
  split at steps
  · rename_i reading
    exact ⟨reading, (Option.some.inj steps).symm⟩
  · cases steps

/-! ## Steps of a caller -/

/-- What the invariant asks of one caller. -/
structure Fits (serde : Serde) (client : LspClient) (caller : Nat) (call : Call)
    (pending : AList fun _ : Int64 => Nat) : Prop where
  mine : ∀ id, pending.lookup id = some caller → call.stage.isOpen ∧ call.id = id ∧
    client.requests.inbox caller = none ∧ caller ∉ client.answered.map Prod.fst
  returned : ∀ value, call.stage = .returned (.ok value) →
    ∃ message, (caller, message) ∈ client.answered ∧
      resultOf serde call.method (some (responseOf serde message)) = .ok value
  received : ∀ message, call.stage.isOpen → (caller, message) ∈ client.answered →
    client.requests.inbox caller = some (responseOf serde message)
  waits : call.stage.isOpen → caller ∉ client.answered.map Prod.fst →
    pending.lookup call.id = some caller
  heard : caller ∈ client.heard → call.stage ≠ .numbered
  apart : ∀ other call', other ≠ caller → client.calls other = some call' →
    call.id = call'.id → client.Done caller call ∨ client.Done other call'

/-- The state with one call, the table and the next number replaced. -/
def replaceCall (client : LspClient) (caller : Nat) (call : Call)
    (pending : AList fun _ : Int64 => Nat) (number : Int64) : LspClient :=
  { client with
    nextRequestId := number
    calls := Function.update client.calls caller (some call)
    requests := { client.requests with pending := pending } }

variable {pending : AList fun _ : Int64 => Nat}

theorem calls_replaceCall {number : Int64} {call' : Call}
    (held : (client.replaceCall caller call pending number).calls other = some call') :
    other = caller ∧ call' = call ∨ other ≠ caller ∧ client.calls other = some call' := by
  by_cases same : other = caller
  · rw [same] at held
    have updated : some call = some call' := by
      rw [← held]
      exact (Function.update_self caller (some call) client.calls).symm
    exact .inl ⟨same, (Option.some.inj updated).symm⟩
  · exact .inr ⟨same, (Function.update_of_ne same _ _).symm.trans held⟩

variable (call) in
/-- **A step of one caller keeps the invariant if it fits that caller** and leaves the
entries of the others in the table. -/
theorem Sound.replaceCall {number : Int64} (sound : Sound serde client)
    (fits : Fits serde client caller call pending)
    (others : ∀ id other, other ≠ caller →
      (pending.lookup id = some other ↔ client.requests.pending.lookup id = some other)) :
    Sound serde (client.replaceCall caller call pending number) where
  delivered := sound.delivered
  returned := by
    intro other call' value held isReturned
    rcases calls_replaceCall held with ⟨rfl, rfl⟩ | ⟨-, earlier⟩
    · exact fits.returned value isReturned
    · exact sound.returned other call' value earlier isReturned
  received := by
    intro other call' message held isOpen answered
    rcases calls_replaceCall held with ⟨rfl, rfl⟩ | ⟨-, earlier⟩
    · exact fits.received message isOpen answered
    · exact sound.received other call' message earlier isOpen answered
  waits := by
    intro other call' held isOpen unanswered
    rcases calls_replaceCall held with ⟨rfl, rfl⟩ | ⟨apart, earlier⟩
    · exact fits.waits isOpen unanswered
    · exact (others _ other apart).2 (sound.waits other call' earlier isOpen unanswered)
  keyed := by
    intro id other held
    by_cases same : other = caller
    · rw [same] at held ⊢
      obtain ⟨isOpen, isId, nothing, -⟩ := fits.mine id held
      have now : (client.replaceCall caller call pending number).calls caller = some call :=
        Function.update_self _ _ _
      exact ⟨(took_eq now isOpen).trans (congrArg some isId), nothing⟩
    · obtain ⟨taken, nothing⟩ := sound.keyed id other ((others id other same).1 held)
      obtain ⟨call', earlier, isOpen, isId⟩ := of_took taken
      have now : (client.replaceCall caller call pending number).calls other = some call' :=
        (Function.update_of_ne same _ _).trans earlier
      exact ⟨(took_eq now isOpen).trans (congrArg some isId), nothing⟩
  unanswered := by
    intro id other held
    by_cases same : other = caller
    · rw [same] at held ⊢
      exact (fits.mine id held).2.2.2
    · exact sound.unanswered id other ((others id other same).1 held)
  heardOnes := by
    intro other member
    by_cases same : other = caller
    · rw [same] at member ⊢
      exact ⟨call, Function.update_self _ _ _, fits.heard member⟩
    · obtain ⟨call', earlier, past⟩ := sound.heardOnes other member
      exact ⟨call', (Function.update_of_ne same _ _).trans earlier, past⟩
  answersHeard := sound.answersHeard
  distinct := by
    intro first second call₁ call₂ held₁ held₂ sameId
    rcases calls_replaceCall held₁ with ⟨rfl, rfl⟩ | ⟨apart₁, earlier₁⟩ <;>
      rcases calls_replaceCall held₂ with ⟨rfl, rfl⟩ | ⟨apart₂, earlier₂⟩
    · exact .inl rfl
    · exact .inr (fits.apart second call₂ apart₂ earlier₂ sameId)
    · exact .inr (fits.apart first call₁ apart₁ earlier₁ sameId.symm).symm
    · exact sound.distinct first second call₁ call₂ earlier₁ earlier₂ sameId

/-- What the invariant says of a caller that is there. -/
theorem Sound.fits (sound : Sound serde client) (held : client.calls caller = some call)
    (isOpen : call.stage.isOpen) (stage : Stage) (staysOpen : stage.isOpen) :
    Fits serde client caller { call with stage := stage } client.requests.pending where
  mine := by
    intro id entry
    obtain ⟨taken, nothing⟩ := sound.keyed id caller entry
    rw [took_eq held isOpen] at taken
    exact ⟨staysOpen, Option.some.inj taken, nothing, sound.unanswered id caller entry⟩
  returned := by
    intro value isReturned
    change stage = _ at isReturned
    rw [isReturned] at staysOpen
    cases staysOpen
  received := fun message _ answered => sound.received caller call message held isOpen answered
  waits := fun _ unanswered => sound.waits caller call held isOpen unanswered
  heard := by
    intro _ isNumbered
    change stage = _ at isNumbered
    rw [isNumbered] at staysOpen
    cases staysOpen
  apart := by
    intro other call' apart held' sameId
    by_cases done : client.Done other call'
    · exact .inr done
    · exact absurd (sound.apart held held' isOpen done sameId).symm apart

theorem Sound.beginCall {method : String} {params : Json} (sound : Sound serde client)
    (free : client.calls caller = none)
    (apart : ∀ other call, client.calls other = some call →
      call.id = client.nextRequestId → client.Done other call) :
    Sound serde (client.beginCall caller method params) := by
  refine Sound.replaceCall ⟨method, params, client.nextRequestId, .numbered⟩ sound
    ⟨?_, ?_, ?_, ?_, ?_, ?_⟩ fun _ _ _ => Iff.rfl
  · intro id entry
    obtain ⟨call, held, -⟩ := of_took (sound.keyed id caller entry).1
    rw [free] at held
    cases held
  · intro value isReturned
    cases isReturned
  · intro message isOpen
    cases isOpen
  · intro isOpen
    cases isOpen
  · intro member
    obtain ⟨call, held, -⟩ := sound.heardOnes caller member
    rw [free] at held
    cases held
  · intro other call' _ held sameId
    exact .inr (apart other call' held sameId.symm)

theorem Sound.registerCall (sound : Sound serde client) (held : client.calls caller = some call)
    (isNumbered : call.stage = .numbered) : Sound serde (client.registerCall caller call) := by
  have unheard : caller ∉ client.heard := by
    intro member
    obtain ⟨call', held', past⟩ := sound.heardOnes caller member
    rw [held] at held'
    exact past (Option.some.inj held' ▸ isNumbered)
  have unanswered : caller ∉ client.answered.map Prod.fst :=
    fun member => unheard (sound.answersHeard caller member)
  have nothing : client.requests.inbox caller = none := by
    cases isSent : client.requests.inbox caller with
    | none => rfl
    | some value =>
        obtain ⟨message, member, -⟩ := sound.delivered caller value isSent
        exact absurd (List.mem_map_of_mem member) unanswered
  have unfinished : ¬client.Done caller call := by
    rintro ⟨⟨result, isReturned⟩, -⟩
    rw [isNumbered] at isReturned
    cases isReturned
  have absent : ∀ id, client.requests.pending.lookup id ≠ some caller := by
    intro id entry
    obtain ⟨call', held', isOpen, -⟩ := of_took (sound.keyed id caller entry).1
    rw [held] at held'
    rw [← Option.some.inj held', isNumbered] at isOpen
    cases isOpen
  have free : client.requests.pending.lookup call.id = none := by
    cases entry : client.requests.pending.lookup call.id with
    | none => rfl
    | some other =>
        obtain ⟨call', held', isOpen, sameId⟩ := of_took (sound.keyed call.id other entry).1
        have same := sound.apart held' held isOpen unfinished sameId
        rw [same] at entry
        exact absurd entry (absent call.id)
  have lookup := client.requests.lookup_register call.id
  refine Sound.replaceCall { call with stage := .registered } sound
    ⟨?_, ?_, ?_, ?_, ?_, ?_⟩ ?_
  · intro id entry
    have entry' := (lookup id caller).symm.trans entry
    by_cases same : id = call.id
    · exact ⟨rfl, same.symm, nothing, unanswered⟩
    · rw [if_neg same] at entry'
      exact absurd entry' (absent id)
  · intro value isReturned
    cases isReturned
  · intro message _ answered
    exact absurd (List.mem_map_of_mem answered) unanswered
  · intro _ _
    exact (lookup call.id caller).trans (if_pos rfl)
  · intro member
    exact absurd member unheard
  · intro other call' apart held' sameId
    rcases sound.distinct caller other call call' held held' sameId with same | done | done
    · exact absurd same.symm apart
    · exact absurd done unfinished
    · exact .inr done
  · intro id other apart
    refine (Eq.congr_left (lookup id caller)).trans ?_
    by_cases same : id = call.id
    · rw [if_pos same, same, free]
      exact ⟨fun isOther => absurd (Option.some.inj isOther).symm apart, fun isOther => by
        cases isOther⟩
    · rw [if_neg same]

theorem Sound.sent (sound : Sound serde client) (held : client.calls caller = some call)
    (isRegistered : call.stage = .registered) (staysOpen : stage.isOpen) :
    Sound serde (client.setStage caller call stage) := by
  have isOpen : call.stage.isOpen := by
    rw [isRegistered]
    rfl
  exact Sound.replaceCall _ sound (sound.fits held isOpen stage staysOpen) fun _ _ _ => Iff.rfl

/-- A caller that has no entry any more may return. -/
theorem Sound.fitsReturned (sound : Sound serde client) (held : client.calls caller = some call)
    (isOpen : call.stage.isOpen) {result : Except LspError Json}
    (absent : ∀ id, pending.lookup id ≠ some caller)
    (own : ∀ value, result = .ok value → ∃ message, (caller, message) ∈ client.answered ∧
      resultOf serde call.method (some (responseOf serde message)) = .ok value) :
    Fits serde client caller { call with stage := .returned result } pending where
  mine := fun id entry => absurd entry (absent id)
  returned := by
    intro value isReturned
    exact own value (Stage.returned.inj isReturned)
  received := fun message isOpen => by cases isOpen
  waits := fun isOpen => by cases isOpen
  heard := fun _ isNumbered => by cases isNumbered
  apart := by
    intro other call' isOther held' sameId
    by_cases done : client.Done other call'
    · exact .inr done
    · exact absurd (sound.apart held held' isOpen done sameId).symm isOther

theorem Sound.withdrawCall {error : LspError} (sound : Sound serde client)
    (held : client.calls caller = some call) (isFailing : call.stage = .failing error) :
    Sound serde (client.withdrawCall caller call error) := by
  have isOpen : call.stage.isOpen := by
    rw [isFailing]
    rfl
  have lookup := client.requests.lookup_withdraw call.id
  refine Sound.replaceCall { call with stage := .returned (.error error) } sound
    (sound.fitsReturned held isOpen ?_ fun value isOk => by cases isOk) ?_
  · intro id entry
    have entry' := (lookup id).symm.trans entry
    by_cases same : id = call.id
    · rw [if_pos same] at entry'
      cases entry'
    · rw [if_neg same] at entry'
      have taken := (sound.keyed id caller entry').1
      rw [took_eq held isOpen] at taken
      exact same (Option.some.inj taken).symm
  · intro id other apart
    refine (Eq.congr_left (lookup id)).trans ?_
    by_cases same : id = call.id
    · rw [if_pos same, same]
      refine ⟨fun isOther => (by cases isOther), fun entry => ?_⟩
      obtain ⟨call', held', isOpen', sameId⟩ := of_took (sound.keyed call.id other entry).1
      exact absurd (sound.apart held' held isOpen' (not_done_of_open isOpen) sameId) apart
    · rw [if_neg same]

theorem Sound.receive {received : Option (Except LspError Json)} (sound : Sound serde client)
    (held : client.calls caller = some call) (isWaiting : call.stage = .waiting)
    (polled : client.requests.poll caller = some received) :
    Sound serde
      (client.setStage caller call (.returned (resultOf serde call.method received))) := by
  have isOpen : call.stage.isOpen := by
    rw [isWaiting]
    rfl
  refine Sound.replaceCall _ sound (sound.fitsReturned held isOpen ?_ ?_) fun _ _ _ => Iff.rfl
  · intro id entry
    have nothing := (sound.keyed id caller entry).2
    have member : caller ∈ client.requests.callers := Rendezvous.mem_callers.2 ⟨id, entry⟩
    rw [Rendezvous.poll, nothing] at polled
    simp only [if_pos member] at polled
    cases polled
  · intro value isOk
    rw [Rendezvous.poll] at polled
    cases isSent : client.requests.inbox caller with
    | none =>
        rw [isSent] at polled
        dsimp only at polled
        split at polled
        · cases polled
        · cases polled
          cases isOk
    | some response =>
        rw [isSent] at polled
        cases polled
        obtain ⟨message, member, isAnswer⟩ := sound.delivered caller response isSent
        exact ⟨message, member, isAnswer ▸ isOk⟩

/-! ## Steps of the server and the reader -/

theorem Done.mono (done : client.Done caller call) (heard : next.heard = client.heard)
    (grows : client.answered.map Prod.fst ⊆ next.answered.map Prod.fst) :
    next.Done caller call :=
  ⟨done.1, fun member => grows (done.2 (heard ▸ member))⟩

theorem Sound.writeCall (sound : Sound serde client) (held : client.calls caller = some call)
    (isRegistered : call.stage = .registered) :
    Sound serde (client.writeCall serde caller call) where
  toBelongs := ⟨sound.delivered, sound.returned, sound.received, sound.waits⟩
  keyed := sound.keyed
  unanswered := sound.unanswered
  heardOnes := by
    intro other member
    rcases List.mem_append.1 member with earlier | isLast
    · exact sound.heardOnes other earlier
    · rw [List.mem_singleton.1 isLast]
      refine ⟨call, held, fun isNumbered => ?_⟩
      rw [isRegistered] at isNumbered
      cases isNumbered
  answersHeard := fun other member => List.mem_append_left _ (sound.answersHeard other member)
  distinct := by
    have isOpen : call.stage.isOpen := by
      rw [isRegistered]
      rfl
    have stays : ∀ other call', client.calls other = some call' → client.Done other call' →
        (client.writeCall serde caller call).Done other call' := by
      intro other call' held' done
      refine ⟨done.1, fun member => ?_⟩
      rcases List.mem_append.1 member with earlier | isLast
      · exact done.2 earlier
      · rw [List.mem_singleton.1 isLast, held] at held'
        exact absurd (Option.some.inj held' ▸ done) (not_done_of_open isOpen)
    intro first second call₁ call₂ held₁ held₂ sameId
    rcases sound.distinct first second call₁ call₂ held₁ held₂ sameId with same | done | done
    · exact .inl same
    · exact .inr (.inl (stays first call₁ held₁ done))
    · exact .inr (.inr (stays second call₂ held₂ done))

/-- The invariant says nothing about the rest of the state. -/
theorem Sound.of_same (sound : Sound serde client) (calls : next.calls = client.calls)
    (requests : next.requests = client.requests) (heard : next.heard = client.heard)
    (answered : next.answered = client.answered) : Sound serde next := by
  obtain ⟨number, requests', diagnostics, calls', reading, incoming, written, heard', answered'⟩ :=
    next
  cases calls
  cases requests
  cases heard
  cases answered
  exact ⟨⟨sound.delivered, sound.returned, sound.received, sound.waits⟩, sound.keyed,
    sound.unanswered, sound.heardOnes, sound.answersHeard, sound.distinct⟩

/-- **The answer to a request reaches its caller.** -/
theorem Sound.answer {message : Json} {rest : List UInt8} (sound : Sound serde client)
    (held : client.calls caller = some call) (heard : caller ∈ client.heard)
    (first : caller ∉ client.answered.map Prod.fst) :
    Sound serde
      { (client.leaveUnread rest).record (some caller) message with
        requests := client.requests.deliver call.id (responseOf serde message) } := by
  have unfinished : ¬client.Done caller call := fun done => first (done.2 heard)
  have lookup := client.requests.lookup_deliver call.id
  have sent : ∀ other message', (other, message') ∈ client.answered ++ [(caller, message)] →
      (other, message') ∈ client.answered ∨ other = caller ∧ message' = message := by
    intro other message' member
    rcases List.mem_append.1 member with earlier | isLast
    · exact .inl earlier
    · exact .inr (Prod.mk.inj (List.mem_singleton.1 isLast))
  -- whoever holds the number of an unanswered request is its caller
  have holder : ∀ other call', client.calls other = some call' → call'.stage.isOpen →
      call'.id = call.id → other = caller := by
    intro other call' held' isOpen sameId
    exact sound.apart held' held isOpen unfinished sameId
  have others : ∀ other, other ≠ caller →
      (client.requests.deliver call.id (responseOf serde message)).inbox other =
        client.requests.inbox other := by
    intro other apart
    refine Rendezvous.deliver_keyed sound.keyed fun taken => ?_
    obtain ⟨call', held', isOpen, sameId⟩ := of_took taken
    exact apart (holder other call' held' isOpen sameId)
  have mine : call.stage.isOpen →
      (client.requests.deliver call.id (responseOf serde message)).inbox caller =
        some (responseOf serde message) := fun isOpen =>
    Rendezvous.inbox_deliver (sound.waits caller call held isOpen first)
  have inbox : ∀ value,
      (client.requests.deliver call.id (responseOf serde message)).inbox caller = some value →
        client.requests.inbox caller = some value ∨ value = responseOf serde message := by
    intro value isSent
    cases entry : client.requests.pending.lookup call.id with
    | none =>
        rw [Rendezvous.deliver_nobody entry] at isSent
        exact .inl isSent
    | some other =>
        obtain ⟨call', held', isOpen, sameId⟩ := of_took (sound.keyed call.id other entry).1
        rw [holder other call' held' isOpen sameId] at entry
        rw [Rendezvous.inbox_deliver entry] at isSent
        exact .inr (Option.some.inj isSent).symm
  have answeredNow : ∀ other, other ∈ (client.answered ++ [(caller, message)]).map Prod.fst ↔
      other ∈ client.answered.map Prod.fst ∨ other = caller := by
    intro other
    rw [List.map_append, List.mem_append, List.map_singleton, List.mem_singleton]
  refine ⟨⟨?_, ?_, ?_, ?_⟩, sound.keyed.deliver, ?_, sound.heardOnes, ?_, ?_⟩
  · intro other value isSent
    by_cases same : other = caller
    · rw [same] at isSent ⊢
      rcases inbox value isSent with earlier | isNew
      · obtain ⟨message', member, isAnswer⟩ := sound.delivered caller value earlier
        exact ⟨message', List.mem_append_left _ member, isAnswer⟩
      · exact ⟨message, List.mem_append_right _ (List.mem_singleton_self _), isNew⟩
    · obtain ⟨message', member, isAnswer⟩ :=
        sound.delivered other value ((others other same).symm.trans isSent)
      exact ⟨message', List.mem_append_left _ member, isAnswer⟩
  · intro other call' value held' isReturned
    obtain ⟨message', member, isResult⟩ := sound.returned other call' value held' isReturned
    exact ⟨message', List.mem_append_left _ member, isResult⟩
  · intro other call' message' held' isOpen member
    rcases sent other message' member with earlier | ⟨rfl, rfl⟩
    · by_cases same : other = caller
      · rw [same] at earlier
        exact absurd (List.mem_map_of_mem earlier) first
      · exact (others other same).trans (sound.received other call' message' held' isOpen earlier)
    · have same : some call = some call' := held.symm.trans held'
      exact mine (Option.some.inj same ▸ isOpen)
  · intro other call' held' isOpen absent
    obtain ⟨earlier, apart⟩ := not_or.1 (mt (answeredNow other).2 absent)
    refine (lookup call'.id _).trans ?_
    rw [if_neg fun sameId => apart (holder other call' held' isOpen sameId)]
    exact sound.waits other call' held' isOpen earlier
  · intro id other entry
    have entry' := (lookup id _).symm.trans entry
    by_cases same : id = call.id
    · rw [if_pos same] at entry'
      cases entry'
    · rw [if_neg same] at entry'
      refine mt (answeredNow other).1 (not_or.2 ⟨sound.unanswered id other entry', fun isCaller => ?_⟩)
      obtain ⟨call', held', -, sameId⟩ := of_took (sound.keyed id other entry').1
      rw [isCaller, held] at held'
      exact same (sameId.symm.trans (congrArg Call.id (Option.some.inj held').symm))
  · intro other member
    rcases (answeredNow other).1 member with earlier | isCaller
    · exact sound.answersHeard other earlier
    · rw [isCaller]
      exact heard
  · have grows : client.answered.map Prod.fst ⊆
        (client.answered ++ [(caller, message)]).map Prod.fst := by
      rw [List.map_append]
      exact List.subset_append_left _ _
    intro first second call₁ call₂ held₁ held₂ sameId
    exact (sound.distinct first second call₁ call₂ held₁ held₂ sameId).imp_right
      (Or.imp (fun done => done.mono rfl grows) fun done => done.mono rfl grows)

theorem Sound.readNext {answers : Option Nat} (sound : Sound serde client)
    (conforms : Conforming serde client (.read answers))
    (apart : NumbersApart serde client (.read answers)) :
    Sound serde (client.readNext serde answers) := by
  rw [LspClient.readNext]
  simp only [Conforming] at conforms
  rcases reads : readMessage serde client.incoming with ⟨message | _ | error | _, rest⟩
  · rw [reads] at conforms
    cases answers with
    | some caller =>
        obtain ⟨call, held, heard, first, isResponse⟩ := conforms
        simp only [handle, isResponse.number]
        exact sound.answer held heard first
    | none =>
        have same : client.answered ++ (Option.map (fun caller => (caller, message)) none).toList =
            client.answered := List.append_nil _
        dsimp only
        rw [handle]
        cases number : idOf message with
        | some id =>
            have nobody := apart message id (congrArg Prod.fst reads) number
            exact sound.of_same rfl (Rendezvous.deliver_nobody nobody) rfl same
        | none =>
            dsimp only
            by_cases publishes : (message.get? "method").bind Json.asStr? =
                some "textDocument/publishDiagnostics"
            · obtain ⟨notification, readable⟩ := conforms.readable number publishes
              rw [if_pos publishes, readable]
              exact sound.of_same rfl rfl rfl same
            · rw [if_neg publishes]
              exact sound.of_same rfl rfl rfl same
  · exact sound.of_same rfl rfl rfl rfl
  · rw [reads] at conforms
    exact conforms.elim
  · exact sound.of_same rfl rfl rfl rfl

/-- One event keeps the invariant. -/
theorem Sound.step {event : Event} (sound : Sound serde client)
    (conforms : Conforming serde client event) (apart : NumbersApart serde client event)
    (steps : LspClient.step serde client event = some next) : Sound serde next := by
  cases event with
  | call caller method params =>
      obtain ⟨free, rfl⟩ := step_call steps
      exact sound.beginCall free apart
  | register caller =>
      obtain ⟨call, held, isNumbered, rfl⟩ := step_register steps
      exact sound.registerCall held isNumbered
  | write caller =>
      obtain ⟨call, held, isRegistered, rfl⟩ := step_write steps
      exact sound.writeCall held isRegistered
  | sent caller failure =>
      obtain ⟨call, stage, held, isRegistered, isOpen, rfl⟩ := step_sent steps
      exact sound.sent held isRegistered isOpen
  | withdraw caller =>
      obtain ⟨call, error, held, isFailing, rfl⟩ := step_withdraw steps
      exact sound.withdrawCall held isFailing
  | receive caller =>
      obtain ⟨call, received, held, isWaiting, polled, rfl⟩ := step_receive steps
      exact sound.receive held isWaiting polled
  | read answers =>
      obtain ⟨-, rfl⟩ := step_read steps
      exact sound.readNext conforms apart

/-- **Answers belong to their requests as long as the numbers stay apart.** -/
theorem answers_belong {incoming : Incoming} {events : List Event} {last : LspClient}
    (run : Run (LspClient.step serde)
      (fun client event => Conforming serde client event ∧ NumbersApart serde client event)
      (connected incoming) events last) : Belongs serde last :=
  (run.invariant (Sound serde)
    (fun _ _ _ sound allowed steps => sound.step allowed.1 allowed.2 steps)
    (sound_connected incoming)).toBelongs

/-! ## A server that asks -/

/-- The messages of a server that asks under a number of its own, and answers request 1. -/
def askPayload (id : Int64) : Json := requestPayload id "workspace/configuration" (.ofFields [])

def answerPayload : Json :=
  .ofFields [("jsonrpc", .string "2.0"), ("id", Json.ofI64 1), ("result", .array [])]

/-- The request, and the messages of the server, with their texts. -/
def askingTexts : List (Json × String) :=
  [(requestPayload 1 "shutdown" (.ofFields []),
      "\x7b\"id\":1,\"jsonrpc\":\"2.0\",\"method\":\"shutdown\",\"params\":\x7b\x7d\x7d"),
    (askPayload 1, "\x7b\"id\":1,\"jsonrpc\":\"2.0\"," ++
      "\"method\":\"workspace/configuration\",\"params\":\x7b\x7d\x7d"),
    (askPayload 7, "\x7b\"id\":7,\"jsonrpc\":\"2.0\"," ++
      "\"method\":\"workspace/configuration\",\"params\":\x7b\x7d\x7d"),
    (answerPayload, "\x7b\"id\":1,\"jsonrpc\":\"2.0\",\"result\":[]\x7d")]

/-- `serde_json` on these texts. -/
def askingSerde : Serde where
  fromSlice bytes :=
    match askingTexts.find? fun entry => ascii entry.2.toList = bytes with
    | some entry => .ok entry.1
    | none => .error "expected value at line 1 column 1"
  publishDiagnostics _ := .error "missing field `uri`"
  response _ value := .ok value
  toVec value :=
    match askingTexts.find? fun entry => entry.1 = value with
    | some entry => ascii entry.2.toList
    | none => []
  valueText _ := ""
  errorText _ := ""

theorem asking_reads (payload : Json) (listed : payload ∈ askingTexts.map Prod.fst)
    (rest : List UInt8) :
    readMessage askingSerde ⟨frame askingSerde payload ++ rest, none⟩ = (.message payload, rest) := by
  have all : ∀ payload ∈ askingTexts.map Prod.fst,
      (askingSerde.toVec payload).length < 2 ^ 63 ∧
        (askingSerde.fromSlice (askingSerde.toVec payload)).toOption = some payload := by
    decide +kernel
  obtain ⟨fits, parsed⟩ := all payload listed
  refine readMessage_frame rest none fits ?_
  cases result : askingSerde.fromSlice (askingSerde.toVec payload) with
  | error message =>
      rw [result] at parsed
      cases parsed
  | ok value =>
      rw [result] at parsed
      exact congrArg Except.ok (Option.some.inj parsed)

theorem step_message {message : Json} {rest : List UInt8} {id : Int64} {answers : Option Nat}
    (reading : client.reading = true)
    (reads : readMessage serde client.incoming = (.message message, rest))
    (number : idOf message = some id) :
    step serde client (.read answers) = some
      { (client.leaveUnread rest).record answers message with
        requests := client.requests.deliver id (responseOf serde message) } := by
  rw [step, if_pos reading, readNext, reads]
  dsimp only
  rw [handle, number]
  rfl

theorem conforming_own {message : Json} {rest : List UInt8}
    (reads : readMessage serde client.incoming = (.message message, rest))
    (isOwn : IsOwn serde message) : Conforming serde client (.read none) := by
  simp only [Conforming, reads]
  exact isOwn

theorem conforming_answer {message : Json} {rest : List UInt8}
    (reads : readMessage serde client.incoming = (.message message, rest))
    (held : client.calls caller = some call) (heard : caller ∈ client.heard)
    (first : caller ∉ client.answered.map Prod.fst) (isResponse : IsResponse message call.id) :
    Conforming serde client (.read (some caller)) := by
  simp only [Conforming, reads]
  exact ⟨call, held, heard, first, isResponse⟩

/-- One request, as far as the wait for its answer. -/
def requestEvents : List Event :=
  [.call 0 "shutdown" (.ofFields []), .register 0, .write 0, .sent 0 none]

/-- The client that waits for the answer to request 1. -/
def requested (incoming : Incoming) : LspClient :=
  let call : Call := ⟨"shutdown", .ofFields [], 1, .registered⟩
  (((connected incoming).beginCall 0 call.method call.params).registerCall 0 call
    |>.writeCall askingSerde 0 call).setStage 0 call .waiting

theorem isOwn_ask (id : Int64) (isNumber : (idOf (askPayload id)).isSome)
    (method : (askPayload id).get? "method" = some (.string "workspace/configuration")) :
    IsOwn askingSerde (askPayload id) := by
  refine ⟨⟨"workspace/configuration", by rw [method]; rfl⟩, fun nothing => ?_⟩
  rw [nothing] at isNumber
  cases isNumber

theorem isResponse_answer : IsResponse answerPayload 1 :=
  ⟨by decide +kernel, by decide +kernel, by decide +kernel⟩

/-- The four events, whatever the server writes. -/
theorem run_requested {ok : LspClient → Event → Prop} {incoming : Incoming} {events : List Event}
    {last : LspClient}
    (begins : ok (connected incoming) (.call 0 "shutdown" (.ofFields [])))
    (others : ∀ client, ok client (.register 0) ∧ ok client (.write 0) ∧ ok client (.sent 0 none))
    (run : Run (step askingSerde) ok (requested incoming) events last) :
    Run (step askingSerde) ok (connected incoming) (requestEvents ++ events) last :=
  .cons begins rfl (.cons (others _).1 rfl (.cons (others _).2.1 rfl (.cons (others _).2.2 rfl run)))

/-- The server asks under a number that is free, and answers. -/
theorem answers_belong_asking :
    ∃ last, Run (step askingSerde)
        (fun client event => Conforming askingSerde client event ∧
          NumbersApart askingSerde client event)
        (connected ⟨frame askingSerde (askPayload 7) ++ (frame askingSerde answerPayload ++ []),
          none⟩) (requestEvents ++ [.read none, .read (some 0)]) last ∧
      Belongs askingSerde last := by
  have asks := asking_reads (askPayload 7) (by decide +kernel)
    (frame askingSerde answerPayload ++ [])
  have answered := asking_reads answerPayload (by decide +kernel) []
  have seven : idOf (askPayload 7) = some 7 := by decide +kernel
  have isOwn := isOwn_ask 7 (by decide +kernel) (by decide +kernel)
  generalize frame askingSerde answerPayload ++ [] = rest at asks answered
  generalize frame askingSerde (askPayload 7) ++ rest = bytes at asks
  obtain ⟨last, run⟩ : ∃ last, Run (step askingSerde)
      (fun client event => Conforming askingSerde client event ∧
        NumbersApart askingSerde client event) (connected ⟨bytes, none⟩)
      (requestEvents ++ [.read none, .read (some 0)]) last := by
    refine ⟨_, run_requested ⟨trivial, fun _ _ held => (by cases held)⟩
      (fun _ => ⟨⟨trivial, trivial⟩, ⟨trivial, trivial⟩, trivial, trivial⟩)
      (.cons ⟨conforming_own asks isOwn, ?_⟩ (step_message rfl asks seven)
        (.cons ⟨conforming_answer answered rfl List.mem_cons_self List.not_mem_nil
          isResponse_answer, trivial⟩ (step_message rfl answered isResponse_answer.number) .nil))⟩
    intro message id reads number
    have same : askPayload 7 = message :=
      ReadOutcome.message.inj ((congrArg Prod.fst asks).symm.trans reads)
    rw [← same, seven] at number
    cases number
    rfl
  exact ⟨last, run, answers_belong run⟩

/-- **A server that asks under number 1 while request 1 waits** is taken for the answer, and
its answer is lost. -/
theorem clash_loses :
    ∃ last, Run (step askingSerde) (Conforming askingSerde)
        (connected ⟨frame askingSerde (askPayload 1) ++ (frame askingSerde answerPayload ++ []),
          none⟩) (requestEvents ++ [.read none, .read (some 0)]) last ∧
      ¬Belongs askingSerde last := by
  have asks := asking_reads (askPayload 1) (by decide +kernel)
    (frame askingSerde answerPayload ++ [])
  have answered := asking_reads answerPayload (by decide +kernel) []
  have one : idOf (askPayload 1) = some 1 := by decide +kernel
  have isOwn := isOwn_ask 1 (by decide +kernel) (by decide +kernel)
  generalize frame askingSerde answerPayload ++ [] = rest at asks answered
  generalize frame askingSerde (askPayload 1) ++ rest = bytes at asks
  refine ⟨_, run_requested trivial (fun _ => ⟨trivial, trivial, trivial⟩)
    (.cons (conforming_own asks isOwn) (step_message rfl asks one)
      (.cons (conforming_answer answered rfl List.mem_cons_self List.not_mem_nil
        isResponse_answer) (step_message rfl answered isResponse_answer.number) .nil)),
    fun belongs => ?_⟩
  have sent : some (responseOf askingSerde (askPayload 1)) =
      some (responseOf askingSerde answerPayload) :=
    belongs.received 0 _ answerPayload rfl rfl (List.mem_singleton_self _)
  have apart : (responseOf askingSerde (askPayload 1)).toOption ≠
      (responseOf askingSerde answerPayload).toOption := by decide +kernel
  exact apart (congrArg Except.toOption (Option.some.inj sent))

end LspClient

end Openyak.Lsp
