/-
# Server.Broadcast -- subscribers lose no event, as long as events are sent in order

`emit_protocol_event` numbers an event under the record's lock and sends it after
the lock is released.  A worker releases the status of its run before it emits the
run's events, so a request admitted then emits beside it, and of two numbered events
the later may be sent first.  A subscriber takes only numbers above the last it saw.

`EventStream` is one thread with everything that emits, the channel, and its
subscribers.  Under `InOrder`, whoever sends holds the lowest number not sent yet,
and every subscriber yields exactly the events above its snapshot.
-/
import Openyak.Server.Events
import Openyak.Theory.Run
import Mathlib.Data.List.Perm.Basic

namespace Openyak.Server

open Openyak.Runtime
open Openyak.Theory (Run play)

set_option autoImplicit false

/-! ## The system -/

/-- A handler or a worker that emits: the events it has not numbered yet, the envelope
it has numbered and not sent, and, for a handler, the length its worker starts from. -/
structure Emitter where
  runId : RunId
  events : List ProtocolEvent
  numbered : Option ThreadEventEnvelope := none
  spawns : Option Nat := none

/-- A receiver made when the channel had carried `position` events, the number of its
snapshot once that is taken, the number last seen, and what it made of the events
`taken` from the channel. -/
structure Subscriber where
  position : Nat
  snapshot : Option UInt64 := none
  watermark : UInt64 := 0
  taken : Nat := 0
  yielded : List ThreadEventEnvelope := []
  deriving DecidableEq, Repr

/-- `assigned` is the history: every envelope in the order of numbering. -/
structure EventStream where
  inner : ThreadInner
  emitters : List Emitter := []
  sent : List ThreadEventEnvelope := []
  subscribers : List Subscriber := []
  assigned : List ThreadEventEnvelope := []

inductive StreamAction where
  | startTurn (now : UInt64) (runId : RunId) (message : String) (stored : Bool)
  | submitUserInput (now : UInt64) (response : UserInputResponse) (stored : Bool)
  | appendSessionMessage (now : UInt64) (message : ConversationMessage) (stored : Bool)
  | completeRun (emitter : Nat) (now : UInt64) (finalSession : Session)
      (recordedBatches : List (List AssistantEvent)) (result : Except RuntimeError TurnSummary)
      (stored : Except String Unit)
  | assign (emitter : Nat) (now : UInt64)
  | send (emitter : Nat)
  | subscribe
  | snapshot (subscriber : Nat)
  | receive (subscriber : Nat)

/-- One item of the channel in `recv_thread_stream_event`. -/
def Subscriber.receive (subscriber : Subscriber) (envelope : ThreadEventEnvelope) : Subscriber :=
  if envelope.sequence ≤ subscriber.watermark then
    { subscriber with taken := subscriber.taken + 1 }
  else
    { subscriber with
      taken := subscriber.taken + 1
      watermark := envelope.sequence
      yielded := subscriber.yielded ++ [envelope] }

namespace EventStream

def start (inner : ThreadInner) : EventStream := { inner := inner }

/-- An admitted request emits one event, then starts its worker. -/
def admitted (state : EventStream) (runId : RunId) (next : ThreadInner) (event : ProtocolEvent)
    (stored : Bool) : EventStream :=
  if stored then
    { state with
      inner := next
      emitters := state.emitters ++
        [{ runId := runId
           events := [event]
           spawns := some next.session.messages.length }] }
  else state

def step (state : EventStream) : StreamAction → Option EventStream
  | .startTurn now runId message stored =>
      match state.inner.startTurn now runId message with
      | .error _ => some state
      | .ok next => some (state.admitted runId next (.runStarted message) stored)
  | .submitUserInput now response stored =>
      match state.inner.submitUserInput now response with
      | .error _ => some state
      | .ok (runId, next) => some (state.admitted runId next (.userInputSubmitted response) stored)
  | .appendSessionMessage now message stored =>
      match state.inner.appendSessionMessage now message with
      | .error _ => some state
      | .ok next => some { state with inner := state.inner.commit next stored }
  | .completeRun emitter now finalSession recordedBatches result stored =>
      match state.emitters[emitter]? with
      | some ⟨runId, [], none, some optimisticLen⟩ =>
          some { state with
            inner := state.inner.completeRun now runId finalSession
            emitters := state.emitters.set emitter
              { runId := runId
                events := completeRunEvents finalSession optimisticLen recordedBatches result
                  stored } }
      | _ => none
  | .assign emitter now =>
      match state.emitters[emitter]? with
      | some ⟨runId, event :: events, none, spawns⟩ =>
          let (next, envelope) := state.inner.number now runId event
          some { state with
            inner := next
            emitters := state.emitters.set emitter ⟨runId, events, some envelope, spawns⟩
            assigned := state.assigned ++ [envelope] }
      | _ => none
  | .send emitter =>
      match state.emitters[emitter]? with
      | some ⟨runId, events, some envelope, spawns⟩ =>
          some { state with
            emitters := state.emitters.set emitter ⟨runId, events, none, spawns⟩
            sent := state.sent ++ [envelope] }
      | _ => none
  | .subscribe =>
      some { state with subscribers := state.subscribers ++ [{ position := state.sent.length }] }
  | .snapshot subscriber =>
      match state.subscribers[subscriber]? with
      | some ⟨position, none, _, taken, yielded⟩ =>
          some { state with
            subscribers := state.subscribers.set subscriber
              ⟨position, some state.inner.lastSequence, state.inner.lastSequence, taken,
                yielded⟩ }
      | _ => none
  | .receive subscriber =>
      match state.subscribers[subscriber]? with
      | some reader =>
          match reader.snapshot, state.sent[reader.position + reader.taken]? with
          | some _, some envelope =>
              some { state with
                subscribers := state.subscribers.set subscriber (reader.receive envelope) }
          | _, _ => none
      | none => none

/-- The envelopes numbered and not sent. -/
def inFlight (emitters : List Emitter) : List ThreadEventEnvelope :=
  emitters.flatMap fun emitter => emitter.numbered.toList

/-- Whoever sends holds the lowest number in flight, and numbers are assigned below
the greatest `u64`. -/
def InOrder (state : EventStream) : StreamAction → Prop
  | .send emitter => ∀ found envelope, state.emitters[emitter]? = some found →
      found.numbered = some envelope →
      ∀ other ∈ inFlight state.emitters, envelope.sequence ≤ other.sequence
  | .assign .. => state.inner.lastSequence < 18446744073709551615
  | _ => True

/-! ## What a step can do -/

section Steps

variable {state next : EventStream} {action : StreamAction}

/-- The envelopes in flight after one emitter changed. -/
theorem inFlight_set {emitters : List Emitter} {index : Nat} {before : Emitter}
    (held : emitters[index]? = some before) (after : Emitter) :
    (inFlight (emitters.set index after) ++ before.numbered.toList).Perm
      (inFlight emitters ++ after.numbered.toList) := by
  obtain ⟨inside, isBefore⟩ := List.getElem?_eq_some_iff.1 held
  have changed : (inFlight (emitters.set index after)).Perm
      (after.numbered.toList ++ inFlight (emitters.eraseIdx index)) :=
    (List.set_perm_cons_eraseIdx inside after).flatMap_right _
  have unchanged : (inFlight emitters).Perm
      (before.numbered.toList ++ inFlight (emitters.eraseIdx index)) := by
    rw [← isBefore]
    exact (List.getElem_cons_eraseIdx_perm inside).symm.flatMap_right _
  refine (changed.append_right _).trans (List.Perm.trans ?_ (unchanged.append_right _).symm)
  rw [List.append_assoc, List.append_assoc]
  exact List.perm_append_comm.trans
    ((List.perm_append_comm.append_right _).trans (by rw [List.append_assoc]))

/-- The six things a step can do to the events, the channel and its readers. -/
inductive Emission (state : EventStream) (action : StreamAction) : EventStream → Prop
  | quiet (inner : ThreadInner) (emitters : List Emitter)
      (same : inner.lastSequence = state.inner.lastSequence)
      (unchanged : (inFlight emitters).Perm (inFlight state.emitters)) :
      Emission state action { state with inner := inner, emitters := emitters }
  | assigns (emitter : Nat) (now : UInt64) (runId : RunId) (event : ProtocolEvent)
      (emitters : List Emitter) (assigns : action = .assign emitter now)
      (grows : (inFlight emitters).Perm
        ((state.inner.number now runId event).2 :: inFlight state.emitters)) :
      Emission state action
        { state with
          inner := (state.inner.number now runId event).1
          emitters := emitters
          assigned := state.assigned ++ [(state.inner.number now runId event).2] }
  | sends (emitter : Nat) (found : Emitter) (envelope : ThreadEventEnvelope)
      (emitters : List Emitter) (sends : action = .send emitter)
      (held : state.emitters[emitter]? = some found) (numbered : found.numbered = some envelope)
      (shrinks : (envelope :: inFlight emitters).Perm (inFlight state.emitters)) :
      Emission state action
        { state with emitters := emitters, sent := state.sent ++ [envelope] }
  | subscribes : Emission state action
      { state with subscribers := state.subscribers ++ [{ position := state.sent.length }] }
  | snapshots (index : Nat) (reader : Subscriber)
      (held : state.subscribers[index]? = some reader) (before : reader.snapshot = none) :
      Emission state action
        { state with
          subscribers := state.subscribers.set index
            { reader with
              snapshot := some state.inner.lastSequence
              watermark := state.inner.lastSequence } }
  | receives (index : Nat) (reader : Subscriber) (snapshot : UInt64)
      (envelope : ThreadEventEnvelope) (held : state.subscribers[index]? = some reader)
      (after : reader.snapshot = some snapshot)
      (item : state.sent[reader.position + reader.taken]? = some envelope) :
      Emission state action
        { state with subscribers := state.subscribers.set index (reader.receive envelope) }

theorem emission_same : Emission state action state :=
  .quiet state.inner state.emitters rfl (List.Perm.refl _)

theorem emission_admitted {runId : RunId} {inner : ThreadInner} {event : ProtocolEvent}
    {stored : Bool} (same : inner.lastSequence = state.inner.lastSequence) :
    Emission state action (state.admitted runId inner event stored) := by
  cases stored with
  | false => exact emission_same
  | true => exact .quiet inner _ same (by simp [inFlight])

theorem step_emission (steps : state.step action = some next) : Emission state action next := by
  cases action with
  | startTurn now runId message stored =>
      simp only [step] at steps
      split at steps <;> cases steps
      · exact emission_same
      · rename_i admitted
        obtain ⟨-, -, rfl⟩ := startTurn_ok admitted
        refine emission_admitted ?_
        rfl
  | submitUserInput now response stored =>
      simp only [step] at steps
      split at steps <;> cases steps
      · exact emission_same
      · rename_i admitted
        obtain ⟨-, rfl⟩ := submitUserInput_ok admitted
        refine emission_admitted ?_
        rfl
  | appendSessionMessage now message stored =>
      simp only [step] at steps
      split at steps <;> cases steps
      · exact emission_same
      · rename_i appended
        obtain ⟨-, rfl⟩ := appendSessionMessage_ok appended
        refine .quiet _ _ ?_ (List.Perm.refl _)
        cases stored <;> rfl
  | completeRun emitter now finalSession recordedBatches result stored =>
      simp only [step] at steps
      split at steps <;> cases steps
      rename_i runId optimisticLen held
      refine .quiet _ _ rfl ?_
      have changed := inFlight_set held ⟨runId, completeRunEvents finalSession optimisticLen
        recordedBatches result stored, none, none⟩
      simpa using changed
  | assign emitter now =>
      simp only [step] at steps
      split at steps <;> cases steps
      rename_i runId event events spawns held
      refine .assigns emitter now runId event _ rfl ?_
      have changed := inFlight_set held
        ⟨runId, events, some (state.inner.number now runId event).2, spawns⟩
      simpa using changed.trans List.perm_append_comm
  | send emitter =>
      simp only [step] at steps
      split at steps <;> cases steps
      rename_i runId events envelope spawns held
      refine .sends emitter _ envelope _ rfl held rfl ?_
      have changed := inFlight_set held ⟨runId, events, none, spawns⟩
      simpa using List.perm_append_comm.trans changed
  | subscribe =>
      cases steps
      exact .subscribes
  | snapshot subscriber =>
      simp only [step] at steps
      split at steps <;> cases steps
      rename_i held
      exact .snapshots subscriber _ held rfl
  | receive subscriber =>
      simp only [step] at steps
      split at steps
      · split at steps <;> cases steps
        rename_i held _ _ snapshot envelope after item
        exact .receives subscriber _ snapshot envelope held after item
      · cases steps

end Steps

/-! ## Subscribers -/

/-- What a subscriber has made of a channel: the events above its snapshot among those
sent before it came and those it took. -/
structure Reads (sent : List ThreadEventEnvelope) (reader : Subscriber) : Prop where
  inside : reader.position + reader.taken ≤ sent.length
  before : reader.snapshot = none → reader.taken = 0 ∧ reader.yielded = []
  after : ∀ snapshot, reader.snapshot = some snapshot →
    reader.yielded = (sent.take (reader.position + reader.taken)).filter
        (fun envelope => snapshot < envelope.sequence) ∧
      snapshot ≤ reader.watermark ∧
      (reader.watermark = snapshot ∨
        ∃ envelope ∈ sent.take (reader.position + reader.taken),
          envelope.sequence = reader.watermark)

section Readers

variable {sent : List ThreadEventEnvelope} {reader : Subscriber}

theorem reads_grow (reads : Reads sent reader) (more : List ThreadEventEnvelope) :
    Reads (sent ++ more) reader := by
  have same : (sent ++ more).take (reader.position + reader.taken) =
      sent.take (reader.position + reader.taken) := List.take_append_of_le_length reads.inside
  refine ⟨?_, reads.before, ?_⟩
  · rw [List.length_append]
    exact Nat.le_add_right_of_le reads.inside
  · rw [same]
    exact reads.after

theorem reads_subscribe (sent : List ThreadEventEnvelope) :
    Reads sent { position := sent.length } :=
  ⟨Nat.le_refl _, fun _ => ⟨rfl, rfl⟩, nofun⟩

/-- A snapshot is not below anything sent by then. -/
theorem reads_snapshot (reads : Reads sent reader) (before : reader.snapshot = none)
    {last : UInt64} (counted : ∀ envelope ∈ sent, envelope.sequence ≤ last) :
    Reads sent { reader with snapshot := some last, watermark := last } := by
  obtain ⟨none, empty⟩ := reads.before before
  refine ⟨reads.inside, nofun, ?_⟩
  rintro snapshot ⟨⟩
  refine ⟨?_, UInt64.le_refl _, Or.inl rfl⟩
  rw [empty, eq_comm, List.filter_eq_nil_iff]
  intro envelope member above
  have below := counted envelope (List.mem_of_mem_take member)
  exact UInt64.not_lt.2 below (of_decide_eq_true above)

/-- **One item of an increasing channel**: it is yielded exactly if it is above the
snapshot. -/
theorem reads_receive (reads : Reads sent reader)
    (increasing : sent.Pairwise fun a b => a.sequence < b.sequence) {snapshot : UInt64}
    {envelope : ThreadEventEnvelope} (after : reader.snapshot = some snapshot)
    (item : sent[reader.position + reader.taken]? = some envelope) :
    Reads sent (reader.receive envelope) := by
  obtain ⟨yielded, floor, mark⟩ := reads.after snapshot after
  obtain ⟨inside, isItem⟩ := List.getElem?_eq_some_iff.1 item
  have taken : sent.take (reader.position + reader.taken + 1) =
      sent.take (reader.position + reader.taken) ++ [envelope] := by
    rw [List.take_succ_eq_append_getElem inside, isItem]
  have earlier : ∀ other ∈ sent.take (reader.position + reader.taken),
      other.sequence < envelope.sequence := by
    intro other member
    have pairs := (increasing.sublist (List.take_sublist _ _) : (sent.take
      (reader.position + reader.taken + 1)).Pairwise fun a b => a.sequence < b.sequence)
    rw [taken, List.pairwise_append] at pairs
    exact pairs.2.2 other member envelope (List.mem_singleton_self _)
  unfold Subscriber.receive
  split
  · rename_i low
    have dropped : ¬ snapshot < envelope.sequence := by
      intro above
      rcases mark with same | ⟨other, member, same⟩
      · rw [same] at low
        exact UInt64.not_lt.2 low above
      · rw [← same] at low
        exact UInt64.not_lt.2 low (earlier other member)
    refine ⟨inside, fun none => ?_, fun held isHeld => ?_⟩
    · rw [after] at none
      cases none
    · obtain rfl : snapshot = held := by simpa [after] using isHeld
      refine ⟨?_, floor, ?_⟩
      · rw [← Nat.add_assoc, taken, List.filter_append, ← yielded]
        simp [dropped]
      · rw [← Nat.add_assoc, taken]
        exact mark.imp_right fun ⟨other, member, same⟩ =>
          ⟨other, List.mem_append_left _ member, same⟩
  · rename_i high
    have above : reader.watermark < envelope.sequence := UInt64.not_le.1 high
    refine ⟨inside, fun none => ?_, fun held isHeld => ?_⟩
    · rw [after] at none
      cases none
    · obtain rfl : snapshot = held := by simpa [after] using isHeld
      have yields := UInt64.lt_of_le_of_lt floor above
      refine ⟨?_, UInt64.le_of_lt yields, Or.inr ⟨envelope, ?_, rfl⟩⟩
      · rw [← Nat.add_assoc, taken, List.filter_append, ← yielded]
        simp [yields]
      · rw [← Nat.add_assoc, taken]
        exact List.mem_append_right _ (List.mem_singleton_self _)

end Readers

/-! ## Nothing is lost -/

/-- The envelopes were numbered upwards, up to the record's count. -/
structure Upwards (state : EventStream) : Prop where
  increasing : state.assigned.Pairwise fun a b => a.sequence < b.sequence
  counted : ∀ envelope ∈ state.assigned, envelope.sequence ≤ state.inner.lastSequence

theorem upwards_start (inner : ThreadInner) : Upwards (start inner) where
  increasing := List.Pairwise.nil
  counted := List.forall_mem_nil _

/-- Numbers are assigned upwards below the greatest `u64`. -/
theorem upwards_step {state next : EventStream} {action : StreamAction} (upwards : Upwards state)
    (below : ∀ emitter now, action = .assign emitter now →
      state.inner.lastSequence < 18446744073709551615)
    (steps : state.step action = some next) : Upwards next := by
  cases step_emission steps with
  | quiet inner emitters same unchanged =>
      refine ⟨upwards.increasing, fun envelope member => ?_⟩
      rw [same]
      exact upwards.counted envelope member
  | assigns emitter now runId event emitters isAssign grows =>
      have above : ∀ envelope ∈ state.assigned,
          envelope.sequence < (state.inner.number now runId event).2.sequence :=
        fun envelope member => UInt64.lt_of_le_of_lt (upwards.counted envelope member)
          (saturatingSucc_of_lt (below emitter now isAssign))
      refine ⟨?_, fun envelope member => ?_⟩
      · rw [List.pairwise_append]
        refine ⟨upwards.increasing, List.pairwise_singleton _ _,
          fun envelope member other isNew => ?_⟩
        rw [List.mem_singleton.1 isNew]
        exact above envelope member
      · rcases List.mem_append.1 member with earlier | isNew
        · exact UInt64.le_of_lt (above envelope earlier)
        · rw [List.mem_singleton.1 isNew]
          exact UInt64.le_refl _
  | sends _ _ _ _ _ _ _ _ => exact ⟨upwards.increasing, upwards.counted⟩
  | subscribes => exact ⟨upwards.increasing, upwards.counted⟩
  | snapshots _ _ _ _ => exact ⟨upwards.increasing, upwards.counted⟩
  | receives _ _ _ _ _ _ _ => exact ⟨upwards.increasing, upwards.counted⟩

/-- Those in flight are what the channel has not carried yet, and every subscriber has
read what it should. -/
structure Ordered (state : EventStream) : Prop extends Upwards state where
  channel : ∃ rest, state.assigned = state.sent ++ rest ∧ rest.Perm (inFlight state.emitters)
  readers : ∀ reader ∈ state.subscribers, Reads state.sent reader

theorem Ordered.sent_increasing {state : EventStream} (ordered : Ordered state) :
    state.sent.Pairwise fun a b => a.sequence < b.sequence := by
  obtain ⟨rest, assigned, -⟩ := ordered.channel
  have increasing := ordered.increasing
  rw [assigned, List.pairwise_append] at increasing
  exact increasing.1

theorem Ordered.sent_counted {state : EventStream} (ordered : Ordered state) :
    ∀ envelope ∈ state.sent, envelope.sequence ≤ state.inner.lastSequence := by
  obtain ⟨rest, assigned, -⟩ := ordered.channel
  intro envelope member
  exact ordered.counted envelope (by rw [assigned]; exact List.mem_append_left _ member)

theorem ordered_start (inner : ThreadInner) : Ordered (start inner) where
  toUpwards := upwards_start inner
  channel := ⟨[], rfl, List.Perm.refl _⟩
  readers := nofun

/-- **One step under the condition** keeps the invariant. -/
theorem ordered_step {state next : EventStream} {action : StreamAction} (ordered : Ordered state)
    (inOrder : InOrder state action) (steps : state.step action = some next) : Ordered next := by
  obtain ⟨rest, assigned, flight⟩ := ordered.channel
  have upwards : Upwards next := by
    refine upwards_step ordered.toUpwards (fun emitter now isAssign => ?_) steps
    subst isAssign
    exact inOrder
  cases step_emission steps with
  | quiet inner emitters same unchanged =>
      exact ⟨upwards, ⟨rest, assigned, flight.trans unchanged.symm⟩, ordered.readers⟩
  | assigns emitter now runId event emitters isAssign grows =>
      refine ⟨upwards, ⟨rest ++ [(state.inner.number now runId event).2], ?_, ?_⟩,
        ordered.readers⟩
      · exact (congrArg (· ++ [(state.inner.number now runId event).2]) assigned).trans
          (List.append_assoc _ _ _)
      · exact (List.perm_append_singleton _ _).trans ((flight.cons _).trans grows.symm)
  | sends emitter found envelope emitters isSend held numbered shrinks =>
      subst isSend
      have lowest := inOrder found envelope held numbered
      have waiting := flight.trans shrinks.symm
      -- The lowest number in flight is the first that the channel lacks.
      obtain ⟨first, others, isFirst⟩ : ∃ first others, rest = first :: others :=
        List.exists_cons_of_ne_nil (by rintro rfl; simpa using waiting.length_eq)
      subst isFirst
      have increasing := ordered.increasing
      rw [assigned, List.pairwise_append, List.pairwise_cons] at increasing
      have same : first = envelope := by
        rcases List.mem_cons.1 (waiting.mem_iff.2 List.mem_cons_self) with same | later
        · exact same.symm
        · have less := increasing.2.1.1 envelope later
          have atMost := lowest first (flight.mem_iff.1 List.mem_cons_self)
          exact absurd less (UInt64.not_lt.2 atMost)
      subst same
      refine ⟨upwards, ⟨others, ?_, waiting.cons_inv⟩,
        fun reader member => reads_grow (ordered.readers reader member) _⟩
      rw [assigned, List.append_assoc]
      rfl
  | subscribes =>
      refine ⟨upwards, ordered.channel, fun reader member => ?_⟩
      rcases List.mem_append.1 member with earlier | isNew
      · exact ordered.readers reader earlier
      · rw [List.mem_singleton.1 isNew]
        exact reads_subscribe _
  | snapshots index reader held before =>
      refine ⟨upwards, ordered.channel, fun other member => ?_⟩
      rcases List.mem_or_eq_of_mem_set member with earlier | rfl
      · exact ordered.readers other earlier
      · exact reads_snapshot (ordered.readers reader (List.mem_of_getElem? held)) before
          ordered.sent_counted
  | receives index reader snapshot envelope held after item =>
      refine ⟨upwards, ordered.channel, fun other member => ?_⟩
      rcases List.mem_or_eq_of_mem_set member with earlier | rfl
      · exact ordered.readers other earlier
      · exact reads_receive (ordered.readers reader (List.mem_of_getElem? held))
          ordered.sent_increasing after item

/-- **No subscriber loses an event, as long as events are sent in order**: in every run
under the condition a subscriber has yielded, of the events numbered so far up to
where it has read, exactly those above its snapshot, each once and in increasing
order; and of all events, when none is in flight and it has read the whole channel. -/
theorem subscribers_lose_nothing (inner : ThreadInner) (actions : List StreamAction)
    (last : EventStream) (run : Run step InOrder (start inner) actions last)
    (reader : Subscriber) (member : reader ∈ last.subscribers) (snapshot : UInt64)
    (after : reader.snapshot = some snapshot) :
    reader.yielded = (last.assigned.take (reader.position + reader.taken)).filter
        (fun envelope => snapshot < envelope.sequence) ∧
      (reader.yielded.Pairwise fun a b => a.sequence < b.sequence) ∧
      (inFlight last.emitters = [] → reader.position + reader.taken = last.sent.length →
        reader.yielded = last.assigned.filter fun envelope => snapshot < envelope.sequence) := by
  have ordered : Ordered last :=
    run.invariant Ordered (fun _ _ _ => ordered_step) (ordered_start inner)
  obtain ⟨rest, assigned, flight⟩ := ordered.channel
  have reads := ordered.readers reader member
  have yielded := (reads.after snapshot after).1
  refine ⟨?_, ?_, fun settled whole => ?_⟩
  · rw [yielded, assigned, List.take_append_of_le_length reads.inside]
  · rw [yielded]
    exact (ordered.sent_increasing.sublist (List.take_sublist _ _)).filter _
  · rw [settled] at flight
    rw [yielded, whole, List.take_length, assigned, flight.eq_nil, List.append_nil]

/-! ## A later number sent first -/

theorem step_send {state : EventStream} {emitter : Nat} {found : Emitter}
    {envelope : ThreadEventEnvelope} (held : state.emitters[emitter]? = some found)
    (numbered : found.numbered = some envelope) :
    state.step (.send emitter) = some { state with
      emitters := state.emitters.set emitter { found with numbered := none }
      sent := state.sent ++ [envelope] } := by
  cases found
  simp only at numbered
  subst numbered
  simp [step, held]

theorem step_receive {state : EventStream} {index : Nat} {reader : Subscriber} {snapshot : UInt64}
    {envelope : ThreadEventEnvelope} (held : state.subscribers[index]? = some reader)
    (after : reader.snapshot = some snapshot)
    (item : state.sent[reader.position + reader.taken]? = some envelope) :
    state.step (.receive index) = some { state with
      subscribers := state.subscribers.set index (reader.receive envelope) } := by
  simp [step, held, after, item]

/-- **Sent out of order, lost**: when a later number is sent before an earlier one, a
subscriber that had read the channel so far yields the later and drops the earlier. -/
theorem outOfOrder_loses {state : EventStream} {i j index : Nat} {a b : Emitter}
    {late early : ThreadEventEnvelope} {reader : Subscriber} {snapshot : UInt64}
    (lateHeld : state.emitters[i]? = some a) (isLate : a.numbered = some late)
    (earlyHeld : state.emitters[j]? = some b) (isEarly : b.numbered = some early)
    (less : early.sequence < late.sequence)
    (held : state.subscribers[index]? = some reader) (after : reader.snapshot = some snapshot)
    (read : reader.position + reader.taken = state.sent.length)
    (fresh : reader.watermark < late.sequence) :
    ∃ last, play step state [.send i, .send j, .receive index, .receive index] = some last ∧
      ∃ lost, last.subscribers[index]? = some lost ∧ lost.yielded = reader.yielded ++ [late] := by
  have apart : i ≠ j := by
    rintro rfl
    rw [lateHeld, Option.some.injEq] at earlyHeld
    rw [earlyHeld, isEarly, Option.some.injEq] at isLate
    rw [isLate] at less
    exact UInt64.lt_irrefl _ less
  have taken : reader.receive late =
      { reader with
        taken := reader.taken + 1
        watermark := late.sequence
        yielded := reader.yielded ++ [late] } := by
    rw [Subscriber.receive, if_neg (UInt64.not_le.2 fresh)]
  obtain ⟨inside, -⟩ := List.getElem?_eq_some_iff.1 held
  have second : (state.subscribers.set index (reader.receive late))[index]? =
      some (reader.receive late) := by simp [inside]
  have behind : (state.sent ++ [late] ++ [early])[(reader.receive late).position +
      (reader.receive late).taken]? = some early := by
    rw [taken]
    simp [← Nat.add_assoc, read]
  have played : play step state [.send i, .send j, .receive index, .receive index] =
      some { state with
        emitters := (state.emitters.set i { a with numbered := none }).set j
          { b with numbered := none }
        sent := state.sent ++ [late] ++ [early]
        subscribers := (state.subscribers.set index (reader.receive late)).set index
          ((reader.receive late).receive early) } := by
    have seen : (reader.receive late).snapshot = some snapshot :=
      (congrArg Subscriber.snapshot taken).trans after
    refine Theory.play_cons (step_send lateHeld isLate) (Theory.play_cons (step_send ?_ isEarly)
      (Theory.play_cons (step_receive held after ?_)
        (Theory.play_cons (step_receive second seen behind) rfl)))
    · exact (List.getElem?_set_ne apart).trans earlyHeld
    · simp [read]
  refine ⟨_, played, (reader.receive late).receive early, by simp [inside], ?_⟩
  rw [taken, Subscriber.receive, if_pos (UInt64.le_of_lt less)]

/-! ## Two histories of one subscriber -/

def thread : ThreadInner := .new "thread-1" 0 ⟨"/workspace", "opus", .workspaceWrite, []⟩

def failedRun : StreamAction :=
  .completeRun 0 1 { messages := [ConversationMessage.userText "go"] } [] (.error ⟨"broken", none⟩)
    (.ok ())

/-- A first run fails; its worker numbers `run.failed` 2, and before it sends that a
second turn is admitted, numbers `run.started` 3, and sends it. -/
def overtaken : List StreamAction :=
  [.startTurn 0 "run-1" "go" true, .assign 0 0, .send 0, .subscribe, .snapshot 0, failedRun,
    .assign 0 1, .startTurn 2 "run-2" "go" true, .assign 1 2, .send 1, .send 0, .receive 0,
    .receive 0]

theorem overtaken_loses :
    ∃ last reader, play step (start thread) overtaken = some last ∧
      last.subscribers = [reader] ∧ reader.snapshot = some 1 ∧
      last.assigned.map ThreadEventEnvelope.sequence = [1, 2, 3] ∧
      reader.position + reader.taken = last.sent.length ∧
      reader.yielded.map ThreadEventEnvelope.sequence = [3] :=
  ⟨_, _, rfl, rfl, rfl, rfl, rfl, rfl⟩

theorem overtaken_outOfOrder : ∃ (state : EventStream) (reader : Subscriber)
    (late : ThreadEventEnvelope), play step (start thread) (overtaken.take 9) = some state ∧
      ∃ last, play step state [.send 1, .send 0, .receive 0, .receive 0] = some last ∧
        ∃ lost, last.subscribers[0]? = some lost ∧ lost.yielded = reader.yielded ++ [late] :=
  ⟨_, _, _, rfl, outOfOrder_loses rfl rfl rfl rfl (by decide) rfl rfl rfl (by decide)⟩

/-- The same with the worker's event sent first. -/
def inTurn : List StreamAction :=
  [.startTurn 0 "run-1" "go" true, .assign 0 0, .send 0, .subscribe, .snapshot 0, failedRun,
    .assign 0 1, .startTurn 2 "run-2" "go" true, .assign 1 2, .send 0, .send 1, .receive 0,
    .receive 0]

theorem subscribers_lose_nothing_inTurn :
    ∃ last reader, play step (start thread) inTurn = some last ∧ last.subscribers = [reader] ∧
      reader.yielded.map ThreadEventEnvelope.sequence = [2, 3] ∧
      reader.yielded = last.assigned.filter fun envelope => 1 < envelope.sequence := by
  refine ⟨_, _, rfl, rfl, rfl, ?_⟩
  refine (subscribers_lose_nothing thread inTurn _
    (.cons trivial rfl (.cons ?_ rfl (.cons ?_ rfl (.cons trivial rfl (.cons trivial rfl
      (.cons trivial rfl (.cons ?_ rfl (.cons trivial rfl (.cons ?_ rfl (.cons ?_ rfl
        (.cons ?_ rfl (.cons trivial rfl (.cons trivial rfl .nil)))))))))))))
    _ (List.mem_singleton_self _) 1 rfl).2.2 rfl rfl
  · exact (by decide : (0 : UInt64) < 18446744073709551615)
  · rintro found envelope ⟨⟩ ⟨⟩
    decide
  · exact (by decide : (1 : UInt64) < 18446744073709551615)
  · exact (by decide : (2 : UInt64) < 18446744073709551615)
  · rintro found envelope ⟨⟩ ⟨⟩
    decide
  · rintro found envelope ⟨⟩ ⟨⟩
    decide

end EventStream

end Openyak.Server
