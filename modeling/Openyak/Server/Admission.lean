/-
# Server.Admission -- no accepted message is lost, as long as bases are fresh

A turn is served in three critical sections: the request reads the session its
worker will start from, `start_turn` (or `submit_user_input`) admits it, and the
worker's `complete_run` installs what became of the session read first.  Other
requests and legacy appends come in between.

`Turns` is a thread record with the requests and workers in flight.  An accepted
message is lost when the session changed between the first section and the
second: the worker then installs a session without the change.  `FreshBase` says
it did not, and `keepsMessages_iff` that this is exactly when every state reached
keeps every accepted message.
-/
import Openyak.Server.Thread
import Openyak.Theory.Run
import Mathlib.Logic.Function.Basic

namespace Openyak.Server

open Openyak.Runtime
open Openyak.Theory (Run play)

set_option autoImplicit false

/-! ## The system -/

/-- A run handed to a worker: the session read by its request, the message it was
admitted with, and what the admission left in the record. -/
structure Worker where
  runId : RunId
  base : Session
  message : ConversationMessage
  optimisticLen : Nat
  left : List ConversationMessage

/-- What a worker installs: its base, its message, and whatever the run added. -/
def Worker.finalSession (worker : Worker) (extension : List ConversationMessage) : Session :=
  { worker.base with messages := worker.base.messages ++ [worker.message] ++ extension }

/-- A thread record, the bases read by requests in flight, the workers, and every
accepted message with the position it was given. -/
structure Turns where
  inner : ThreadInner
  bases : Nat → Option Session := fun _ => none
  workers : List Worker := []
  accepted : List (Nat × ConversationMessage) := []

/-- `stored` says whether the row could be written. -/
inductive TurnAction where
  | readBase (request : Nat)
  | startTurn (request : Nat) (now : UInt64) (runId : RunId) (message : String) (stored : Bool)
  | submitUserInput (request : Nat) (now : UInt64) (response : UserInputResponse) (stored : Bool)
  | appendSessionMessage (now : UInt64) (message : ConversationMessage) (stored : Bool)
  | completeRun (worker : Nat) (now : UInt64) (extension : List ConversationMessage)

namespace Turns

def accept (state : Turns) (message : ConversationMessage) : List (Nat × ConversationMessage) :=
  state.accepted ++ [(state.inner.session.messages.length, message)]

/-- The second section of a request that read `base`: the record is changed and a
worker is started, unless the admission was refused or its row not written. -/
def admitted (state : Turns) (request : Nat) (base : Session) (runId : RunId)
    (message : ConversationMessage) (next : ThreadInner) : Turns :=
  { inner := next
    bases := Function.update state.bases request none
    workers := state.workers ++
      [{ runId := runId
         base := base
         message := message
         optimisticLen := next.session.messages.length
         left := next.session.messages }]
    accepted := state.accept message }

def refused (state : Turns) (request : Nat) : Turns :=
  { state with bases := Function.update state.bases request none }

def step (state : Turns) : TurnAction → Option Turns
  | .readBase request =>
      some { state with bases := Function.update state.bases request (some state.inner.session) }
  | .startTurn request now runId message stored =>
      (state.bases request).map fun base =>
        match state.inner.startTurn now runId message with
        | .error _ => state.refused request
        | .ok next =>
            if stored then
              state.admitted request base runId (ConversationMessage.userText message) next
            else state.refused request
  | .submitUserInput request now response stored =>
      (state.bases request).map fun base =>
        match state.inner.submitUserInput now response with
        | .error _ => state.refused request
        | .ok (runId, next) =>
            if stored then
              state.admitted request base runId (ThreadInner.responseMessage response) next
            else state.refused request
  | .appendSessionMessage now message stored =>
      some (match state.inner.appendSessionMessage now message with
        | .error _ => state
        | .ok next =>
            if stored then { state with inner := next, accepted := state.accept message }
            else state)
  | .completeRun worker now extension =>
      (state.workers[worker]?).map fun found =>
        { state with
          inner := state.inner.completeRun now found.runId (found.finalSession extension)
          workers := state.workers.eraseIdx worker }

/-! ## The property and its condition -/

/-- Every accepted message stands where it was appended, and whatever a worker
will install begins with what its admission left. -/
structure KeepsMessages (state : Turns) : Prop where
  accepted : ∀ position message, (position, message) ∈ state.accepted →
    state.inner.session.messages[position]? = some message
  optimistic : ∀ worker ∈ state.workers, worker.left.length = worker.optimisticLen ∧
    ∀ extension, worker.left <+: (worker.finalSession extension).messages

/-- The request a step admits: the status lets it in and its row is written. -/
def Admits (state : Turns) : TurnAction → Option Nat
  | .startTurn request _ _ _ stored =>
      if state.inner.status.admitsTurn && stored then some request else none
  | .submitUserInput request _ response stored =>
      if state.inner.status.admitsInput response.requestId && stored then some request else none
  | _ => none

/-- A request that is admitted has read the messages the record holds. -/
def FreshBase (state : Turns) (action : TurnAction) : Prop :=
  ∀ request base, state.Admits action = some request → state.bases request = some base →
    base.messages = state.inner.session.messages

/-! ## What a step can do -/

section Steps

variable {state next : Turns} {action : TurnAction}

/-- The four things a step can do: admit a request, leave the record alone, append
a message, install a finished run. -/
inductive Effect (state : Turns) (action : TurnAction) : Turns → Prop
  | admits (request : Nat) (base : Session) (runId : RunId) (message : ConversationMessage)
      (now : UInt64) (admits : state.Admits action = some request)
      (read : state.bases request = some base)
      (free : ∀ running, state.inner.status ≠ .running running) :
      Effect state action
        (state.admitted request base runId message (state.inner.beginRun now message runId))
  | reads (bases : Nat → Option Session) (none : state.Admits action = none)
      (read : ∀ request base, bases request = some base →
        state.bases request = some base ∨ base = state.inner.session) :
      Effect state action { state with bases := bases }
  | appends (message : ConversationMessage) (now : UInt64) (none : state.Admits action = none)
      (free : ∀ running, state.inner.status ≠ .running running) :
      Effect state action
        { state with
          inner := { state.inner with
            session := state.inner.session.push message
            updatedAt := now }
          accepted := state.accept message }
  | completes (index : Nat) (worker : Worker) (now : UInt64)
      (extension : List ConversationMessage) (none : state.Admits action = none)
      (found : state.workers[index]? = some worker) :
      Effect state action
        { state with
          inner := state.inner.completeRun now worker.runId (worker.finalSession extension)
          workers := state.workers.eraseIdx index }

theorem update_none_read (state : Turns) (answered request : Nat) (base : Session)
    (read : Function.update state.bases answered none request = some base) :
    state.bases request = some base ∨ base = state.inner.session := by
  by_cases same : request = answered
  · simp [same] at read
  · rw [Function.update_of_ne same] at read
    exact Or.inl read

theorem step_effect (steps : state.step action = some next) : Effect state action next := by
  cases action with
  | readBase request =>
      simp only [step, Option.some.injEq] at steps
      subst steps
      refine .reads _ rfl fun asked base read => ?_
      by_cases same : asked = request
      · rw [same, Function.update_self, Option.some.injEq] at read
        exact Or.inr read.symm
      · rw [Function.update_of_ne same] at read
        exact Or.inl read
  | startTurn request now runId message stored =>
      simp only [step, Option.map_eq_some_iff] at steps
      obtain ⟨base, read, steps⟩ := steps
      cases admitted : state.inner.startTurn now runId message with
      | error refusal =>
          rw [admitted] at steps
          subst steps
          exact .reads _ (by simp [Admits, startTurn_error admitted])
            (update_none_read state request)
      | ok inner =>
          rw [admitted] at steps
          obtain ⟨free, admits, rfl⟩ := startTurn_ok admitted
          cases stored with
          | false =>
              subst steps
              exact .reads _ (by simp [Admits]) (update_none_read state request)
          | true =>
              subst steps
              exact .admits request base runId _ now
                (by simp [Admits, admits]) read free
  | submitUserInput request now response stored =>
      simp only [step, Option.map_eq_some_iff] at steps
      obtain ⟨base, read, steps⟩ := steps
      cases admitted : state.inner.submitUserInput now response with
      | error refusal =>
          rw [admitted] at steps
          subst steps
          exact .reads _ (by simp [Admits, submitUserInput_error admitted])
            (update_none_read state request)
      | ok reply =>
          obtain ⟨runId, inner⟩ := reply
          rw [admitted] at steps
          obtain ⟨⟨pending, status, same⟩, rfl⟩ := submitUserInput_ok admitted
          cases stored with
          | false =>
              subst steps
              exact .reads _ (by simp [Admits]) (update_none_read state request)
          | true =>
              subst steps
              exact .admits request base runId _ now
                (by simp [Admits, ThreadStatus.admitsInput, status, same]) read
                (by simp [status])
  | appendSessionMessage now message stored =>
      simp only [step, Option.some.injEq] at steps
      have nothing : Effect state (.appendSessionMessage now message stored) state :=
        .reads state.bases rfl fun _ _ read => Or.inl read
      cases appended : state.inner.appendSessionMessage now message with
      | error refusal =>
          rw [appended] at steps
          exact steps ▸ nothing
      | ok inner =>
          rw [appended] at steps
          obtain ⟨free, rfl⟩ := appendSessionMessage_ok appended
          cases stored with
          | false => exact steps ▸ nothing
          | true =>
              subst steps
              exact .appends message now rfl free
  | completeRun index now extension =>
      simp only [step, Option.map_eq_some_iff] at steps
      obtain ⟨worker, found, rfl⟩ := steps
      exact .completes index worker now extension rfl found

end Steps

/-! ## The invariant -/

/-- Messages are kept, bases in flight are beginnings of the session, and at most
one worker runs: then the record is running and holds what the worker's admission
left. -/
structure Orderly (state : Turns) : Prop where
  keeps : KeepsMessages state
  bases : ∀ request base, state.bases request = some base →
    base.messages <+: state.inner.session.messages
  oneWorker : state.workers = [] ∨ ∃ worker, state.workers = [worker] ∧
    (∃ runId, state.inner.status = .running runId) ∧
    worker.left = worker.base.messages ++ [worker.message] ∧
    state.inner.session.messages = worker.left

/-- What is kept in a session is kept in a longer one. -/
theorem accepted_grow {accepted : List (Nat × ConversationMessage)}
    {before after : List ConversationMessage} (grows : before <+: after)
    (kept : ∀ position message, (position, message) ∈ accepted →
      before[position]? = some message) :
    ∀ position message, (position, message) ∈ accepted → after[position]? = some message := by
  intro position message member
  obtain ⟨more, rfl⟩ := grows
  have held := kept position message member
  rw [List.getElem?_append_left (List.getElem?_eq_some_iff.1 held).1]
  exact held

theorem accepted_push {accepted : List (Nat × ConversationMessage)}
    {before : List ConversationMessage} {message : ConversationMessage}
    (kept : ∀ position message, (position, message) ∈ accepted →
      before[position]? = some message) :
    ∀ position message', (position, message') ∈ accepted ++ [(before.length, message)] →
      (before ++ [message])[position]? = some message' := by
  intro position message' member
  rcases List.mem_append.1 member with earlier | now
  · exact accepted_grow (List.prefix_append _ _) kept position message' earlier
  · obtain ⟨rfl, rfl⟩ : position = before.length ∧ message' = message := by simpa using now
    simp

theorem workers_free {state : Turns} (orderly : Orderly state)
    (free : ∀ running, state.inner.status ≠ .running running) : state.workers = [] := by
  rcases orderly.oneWorker with none | ⟨worker, -, ⟨runId, running⟩, -⟩
  · exact none
  · exact absurd running (free runId)

/-- **One step under the condition** keeps the invariant. -/
theorem orderly_step {state next : Turns} {action : TurnAction} (orderly : Orderly state)
    (fresh : FreshBase state action) (steps : state.step action = some next) : Orderly next := by
  cases step_effect steps with
  | admits request base runId message now admits read free =>
      have same := fresh request base admits read
      have idle := workers_free orderly free
      have grows : state.inner.session.messages <+:
          state.inner.session.messages ++ [message] := List.prefix_append _ _
      refine ⟨⟨accepted_push orderly.keeps.accepted, fun worker member => ?_⟩,
        fun other read' held => ?_, Or.inr ⟨_, by rw [admitted, idle, List.nil_append],
          ⟨runId, rfl⟩, ?_, rfl⟩⟩
      · rw [admitted, idle, List.nil_append, List.mem_singleton] at member
        subst member
        refine ⟨rfl, fun extension => ⟨extension, ?_⟩⟩
        simp [Worker.finalSession, ThreadInner.beginRun, Session.push, same]
      · have earlier : state.bases other = some read' ∨ read' = state.inner.session :=
          update_none_read state request other read' held
        rcases earlier with earlier | rfl
        · exact (orderly.bases other read' earlier).trans grows
        · exact grows
      · simp [ThreadInner.beginRun, Session.push, same]
  | reads bases none read =>
      refine ⟨⟨orderly.keeps.accepted, orderly.keeps.optimistic⟩, fun request base held => ?_,
        orderly.oneWorker⟩
      rcases read request base held with earlier | rfl
      · exact orderly.bases request base earlier
      · exact List.prefix_rfl
  | appends message now none free =>
      have idle := workers_free orderly free
      refine ⟨⟨accepted_push orderly.keeps.accepted, orderly.keeps.optimistic⟩,
        fun request base held => ?_, Or.inl idle⟩
      exact (orderly.bases request base held).trans (List.prefix_append _ _)
  | completes index worker now extension none found =>
      rcases orderly.oneWorker with idle | ⟨only, one, -, left, record⟩
      · simp [idle] at found
      · obtain ⟨rfl, rfl⟩ : index = 0 ∧ worker = only := by
          rw [one] at found
          cases index with
          | zero => exact ⟨rfl, by simpa using found.symm⟩
          | succ index => simp at found
        have grows : state.inner.session.messages <+:
            (worker.finalSession extension).messages :=
          ⟨extension, by rw [record, left]; rfl⟩
        refine ⟨⟨accepted_grow grows orderly.keeps.accepted, ?_⟩,
          fun request base held => (orderly.bases request base held).trans grows, Or.inl ?_⟩
        · simp [one]
        · simp [one]

/-- An admission from a stale base breaks the property at once: its worker may end
with less than what the admission left. -/
theorem fresh_of_keeps {state next : Turns} {action : TurnAction} (orderly : Orderly state)
    (steps : state.step action = some next) (keeps : KeepsMessages next) :
    FreshBase state action := by
  intro request base admits read
  cases step_effect steps with
  | admits request' base' runId message now admits' read' free =>
      obtain rfl : request' = request := by simpa [admits] using admits'.symm
      obtain rfl : base' = base := by simpa [read] using read'.symm
      have member := List.mem_append_right state.workers (List.mem_singleton_self
        (⟨runId, base', message, (state.inner.session.messages ++ [message]).length,
          state.inner.session.messages ++ [message]⟩ : Worker))
      have begins := (keeps.optimistic _ member).2 []
      have shorter := orderly.bases request' base' read
      have length := begins.length_le
      simp only [Worker.finalSession, List.append_nil, List.length_append,
        List.length_singleton] at length
      exact shorter.eq_of_length (Nat.le_antisymm shorter.length_le (by omega))
  | reads bases none _ => simp [admits] at none
  | appends message now none _ => simp [admits] at none
  | completes index worker now extension none _ => simp [admits] at none

/-- A thread record with no request and no worker in flight. -/
def start (inner : ThreadInner) : Turns := { inner := inner }

/-- **No accepted message is lost, exactly when bases are fresh**: in a run from any
record, every state reached keeps every accepted message at its position, and every
worker ends with what its admission left, if and only if every admitted request had
read the messages the record held when it was admitted. -/
theorem keepsMessages_iff (inner : ThreadInner) (actions : List TurnAction) (last : Turns) :
    Run step (fun state action => ∀ next, state.step action = some next → KeepsMessages next)
        (start inner) actions last ↔
      Run step FreshBase (start inner) actions last := by
  refine Run.iff_of_invariant Orderly KeepsMessages ?_ ?_ ?_
  · exact ⟨⟨by simp [start], by simp [start]⟩, by simp [start], Or.inl rfl⟩
  · intro state action next orderly fresh steps
    have after := orderly_step orderly fresh steps
    exact ⟨after, after.keeps⟩
  · intro state action next orderly steps keeps
    exact fresh_of_keeps orderly steps keeps

/-! ## A message appended between the two sections -/

/-- A thread with an empty session. -/
def emptyThread : ThreadInner :=
  { id := "thread-1"
    createdAt := 0
    updatedAt := 0
    session := {}
    config := ⟨"/workspace", "opus", .workspaceWrite, []⟩
    status := .idle
    lastSequence := 0 }

/-- A turn reads its base, a legacy message is appended, the turn is admitted and its
worker completes. -/
def appendBetween : List TurnAction :=
  [.readBase 0, .appendSessionMessage 1 (ConversationMessage.userText "note") true,
    .startTurn 0 2 "run-1" "go" true, .completeRun 0 3 []]

theorem appendBetween_loses :
    ∃ last, play step (start emptyThread) appendBetween = some last ∧
      (0, ConversationMessage.userText "note") ∈ last.accepted ∧
      ConversationMessage.userText "note" ∉ last.inner.session.messages := by
  refine ⟨_, rfl, ?_, ?_⟩
  · decide
  · decide

end Turns

end Openyak.Server
