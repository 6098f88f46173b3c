/-
# Lsp.ReaderEnd -- who still waits when the reader task has ended

The reader drains the table of waiting callers when its loop ends with an error.  It does
not when the stream ends between two messages or inside a header, which is no error to
`read_message`, nor when the announced length panics; and nothing looks whether there is a
reader when a request registers.

So nobody waits on a dead server in exactly those runs in which the reader ends silently
only while nobody waits, and no request registers after its end (`settled_iff`).
-/
import Openyak.Lsp.Answers

namespace Openyak.Lsp

open Openyak.Theory Openyak.Theory.ByteStream

set_option autoImplicit false

/-- The reader's loop ends here, and without an error. -/
def EndsSilently (incoming : Incoming) : Prop :=
  (incoming.failure = none ∧ ∀ line ∈ splitLines incoming.bytes, HeaderLine line) ∨
    TooLong incoming

namespace LspClient

variable {serde : Serde} {client next : LspClient} {event : Event}

/-- Once the reader has ended the table is empty, and whoever waits is sent on its way. -/
def Settled (serde : Serde) (client : LspClient) : Prop :=
  client.reading = false → client.requests.pending = ∅ ∧
    ∀ caller call, client.calls caller = some call → call.stage = .waiting →
      ∃ next, step serde client (.receive caller) = some next

def InTime (client : LspClient) : Event → Prop
  | .register _ => client.reading = true
  | .read _ => EndsSilently client.incoming → client.requests.pending = ∅
  | _ => True

/-- With an empty table every caller that waits can return. -/
theorem settled_of_empty (nobody : client.reading = false → client.requests.pending = ∅) :
    Settled serde client := by
  intro ended
  refine ⟨nobody ended, fun caller call held isWaiting => ?_⟩
  obtain ⟨received, polled⟩ := Rendezvous.poll_of_empty (nobody ended) caller
  obtain ⟨method, params, id, stage⟩ := call
  cases isWaiting
  exact ⟨_, by rw [step, held]; dsimp only; rw [polled]; rfl⟩

theorem endsSilently_iff (serde : Serde) (incoming : Incoming) :
    EndsSilently incoming ↔ (readMessage serde incoming).1 = .ended ∨
      (readMessage serde incoming).1 = .panicked := by
  rw [readMessage_ended, readMessage_panicked]
  rfl

theorem reading_handle {message : Json} (handled : handle serde client message = .ok next) :
    next.reading = client.reading := by
  rw [handle] at handled
  split at handled
  · cases handled
    rfl
  · split at handled
    · split at handled
      · cases handled
        rfl
      · cases handled
    · cases handled
      rfl

/-- The reader ends with an empty table, unless it ends silently. -/
theorem readNext_settled {answers : Option Nat} (reading : client.reading = true)
    (inTime : EndsSilently client.incoming → client.requests.pending = ∅)
    (ended : (client.readNext serde answers).reading = false) :
    (client.readNext serde answers).requests.pending = ∅ := by
  rw [endsSilently_iff serde] at inTime
  rw [readNext] at ended ⊢
  rcases reads : readMessage serde client.incoming with ⟨message | _ | error | _, rest⟩
  · rw [reads] at ended
    dsimp only at ended ⊢
    cases handled : handle serde ((client.leaveUnread rest).record answers message) message with
    | ok next =>
        rw [handled] at ended
        dsimp only at ended
        rw [reading_handle handled] at ended
        cases reading.symm.trans ended
    | error error => rfl
  · exact inTime (.inl (congrArg Prod.fst reads))
  · rfl
  · exact inTime (.inr (congrArg Prod.fst reads))

theorem readNext_silently {answers : Option Nat} (silent : EndsSilently client.incoming) :
    (client.readNext serde answers).reading = false ∧
      (client.readNext serde answers).requests = client.requests := by
  rw [endsSilently_iff serde] at silent
  rw [readNext]
  rcases reads : readMessage serde client.incoming with ⟨message | _ | error | _, rest⟩
  · rw [reads] at silent
    rcases silent with same | same <;> cases same
  · exact ⟨rfl, rfl⟩
  · rw [reads] at silent
    rcases silent with same | same <;> cases same
  · exact ⟨rfl, rfl⟩

/-- One event in time keeps the table empty behind the reader's end. -/
theorem Settled.step (settled : Settled serde client) (inTime : InTime client event)
    (steps : LspClient.step serde client event = some next) : Settled serde next := by
  apply settled_of_empty
  intro ended
  cases event with
  | call caller method params =>
      obtain ⟨-, rfl⟩ := step_call steps
      exact (settled ended).1
  | register caller =>
      obtain ⟨call, -, -, rfl⟩ := step_register steps
      have reading : client.reading = true := inTime
      cases reading.symm.trans ended
  | write caller =>
      obtain ⟨call, -, -, rfl⟩ := step_write steps
      exact (settled ended).1
  | sent caller failure =>
      obtain ⟨call, stage, -, -, -, rfl⟩ := step_sent steps
      exact (settled ended).1
  | withdraw caller =>
      obtain ⟨call, error, -, -, rfl⟩ := step_withdraw steps
      exact Rendezvous.pending_withdraw_empty (settled ended).1
  | receive caller =>
      obtain ⟨call, received, -, -, -, rfl⟩ := step_receive steps
      exact (settled ended).1
  | read answers =>
      obtain ⟨reading, rfl⟩ := step_read steps
      exact readNext_settled reading inTime ended

/-- An event that is not in time leaves somebody waiting. -/
theorem Settled.needed (steps : LspClient.step serde client event = some next)
    (settled : Settled serde next) : InTime client event := by
  cases event with
  | register caller =>
      obtain ⟨call, -, -, rfl⟩ := step_register steps
      show client.reading = true
      by_contra ended
      have nobody := (settled (Bool.eq_false_iff.2 ended)).1
      have entry := client.requests.lookup_register call.id call.id caller
      rw [if_pos rfl] at entry
      rw [show (client.requests.register call.id caller).pending = ∅ from nobody] at entry
      cases entry
  | read answers =>
      obtain ⟨-, rfl⟩ := step_read steps
      intro silent
      obtain ⟨ended, requests⟩ := readNext_silently silent
      rw [← requests]
      exact (settled ended).1
  | call | write | sent | withdraw | receive => exact trivial

/-- **Nobody is left waiting on a dead server exactly in the runs in time.** -/
theorem settled_iff (serde : Serde) (incoming : Incoming) (events : List Event)
    (last : LspClient) :
    (Run (LspClient.step serde) InTime (connected incoming) events last → Settled serde last) ∧
      (Run (LspClient.step serde) (fun client event => ∀ next,
          LspClient.step serde client event = some next → Settled serde next)
          (connected incoming) events last ↔
        Run (LspClient.step serde) InTime (connected incoming) events last) := by
  have initially : Settled serde (connected incoming) := fun ended => by cases ended
  constructor
  · intro run
    exact run.invariant (Settled serde) (fun _ _ _ => Settled.step) initially
  · refine Run.iff_of_invariant (Settled serde) (Settled serde) initially ?_ ?_
    · intro middle event next settled inTime steps
      exact ⟨settled.step inTime steps, settled.step inTime steps⟩
    · intro middle event next _ steps settled
      exact Settled.needed steps settled

/-- **The server exits while request 1 waits.** -/
theorem exit_leaves_waiting :
    ∃ last, Run (LspClient.step askingSerde) (fun _ _ => True) (connected ⟨[], none⟩)
        (requestEvents ++ [.read none]) last ∧ ¬Settled askingSerde last := by
  refine ⟨_, run_requested trivial (fun _ => ⟨trivial, trivial, trivial⟩)
    (.cons trivial rfl .nil), fun settled => ?_⟩
  have nobody := congrArg AList.keys (settled rfl).1
  cases nobody

end LspClient

end Openyak.Lsp
