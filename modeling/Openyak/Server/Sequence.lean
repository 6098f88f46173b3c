/-
# Server.Sequence -- event numbers grow, as long as no stop loses the counter

The record counts its events in memory; the row holds the count as it was when the
row was last written.  `emit_protocol_event` does not write the row, so a server
that stops after an event and before the next write restarts with a smaller count
and numbers its next event as it numbered an earlier one.

`Numbering` is one thread over stops and restarts, with the numbers of its events.
Under `CounterSaved` the numbers grow in every run, and a stop that is not
`CounterSaved` makes the next two steps break the order.
-/
import Openyak.Server.Persistence
import Openyak.Theory.Run

namespace Openyak.Server

open Openyak.Runtime
open Openyak.Theory (Run play)

set_option autoImplicit false

/-! ## The system -/

/-- The record while the server runs, the row, and the numbers of the events
emitted so far. -/
structure Numbering where
  memory : Option ThreadInner
  row : PersistedThreadRecord
  emitted : List UInt64 := []

/-- `stored` says whether the row could be written.  `loadForCwd` is a restart:
`opened` says whether the other rows of the table let the server come up. -/
inductive NumberingAction where
  | startTurn (now : UInt64) (runId : RunId) (message : String) (stored : Bool)
  | submitUserInput (now : UInt64) (response : UserInputResponse) (stored : Bool)
  | appendSessionMessage (now : UInt64) (message : ConversationMessage) (stored : Bool)
  | completeRun (now : UInt64) (runId : RunId) (finalSession : Session) (stored : Bool)
  | emitProtocolEvent
  | stop
  | loadForCwd (stored opened : Bool)

namespace Numbering

variable (columns : Columns)

/-- The row after a write that succeeds or fails. -/
def written (state : Numbering) (inner : ThreadInner) (stored : Bool) : PersistedThreadRecord :=
  if stored then persistedThreadFromInner columns inner else state.row

/-- A section that keeps its change if the row was written. -/
def commit (state : Numbering) (inner next : ThreadInner) (stored : Bool) : Numbering :=
  { state with
    memory := some (inner.commit next stored)
    row := state.written columns next stored }

/-- One row's part of `load_for_cwd`.  A server that does not come up may have
written the row again before it gave up. -/
def load (state : Numbering) (stored opened : Bool) : Numbering :=
  match threadInnerFromPersisted columns state.row with
  | .error _ => state
  | .ok (inner, needsRewrite) =>
      if needsRewrite && !stored then state
      else
        { state with
          memory := if opened then some inner else none
          row := state.written columns inner needsRewrite }

def step (state : Numbering) (action : NumberingAction) : Option Numbering :=
  match state.memory, action with
  | some inner, .startTurn now runId message stored =>
      match inner.startTurn now runId message with
      | .error _ => some state
      | .ok next => some (state.commit columns inner next stored)
  | some inner, .submitUserInput now response stored =>
      match inner.submitUserInput now response with
      | .error _ => some state
      | .ok (_, next) => some (state.commit columns inner next stored)
  | some inner, .appendSessionMessage now message stored =>
      match inner.appendSessionMessage now message with
      | .error _ => some state
      | .ok next => some (state.commit columns inner next stored)
  | some inner, .completeRun now runId finalSession stored =>
      let next := inner.completeRun now runId finalSession
      some { state with memory := some next, row := state.written columns next stored }
  | some inner, .emitProtocolEvent =>
      let next := inner.nextSequence
      some { state with memory := some next, emitted := state.emitted ++ [next.lastSequence] }
  | some _, .stop => some { state with memory := none }
  | none, .loadForCwd stored opened => some (state.load columns stored opened)
  | _, _ => none

/-- A thread whose row was just written, and no event of which is counted yet. -/
def start (inner : ThreadInner) : Numbering :=
  { memory := some inner, row := persistedThreadFromInner columns inner }

/-- At a stop the row has the record's count, and the count is below the greatest
`u64` when an event is numbered. -/
def CounterSaved (state : Numbering) : NumberingAction → Prop
  | .stop => ∀ inner, state.memory = some inner → state.row.lastSequence = inner.lastSequence
  | .emitProtocolEvent => ∀ inner, state.memory = some inner →
      inner.lastSequence < 18446744073709551615
  | _ => True

/-! ## What a step can do -/

section Steps

variable {columns : Columns} {state next : Numbering} {action : NumberingAction}

/-- The four things a step can do to the two counts and the events. -/
inductive Counting (state : Numbering) (action : NumberingAction) : Numbering → Prop
  | keeps (inner after : ThreadInner) (row : PersistedThreadRecord)
      (running : state.memory = some inner) (same : after.lastSequence = inner.lastSequence)
      (saved : row.lastSequence = state.row.lastSequence ∨
        row.lastSequence = inner.lastSequence) :
      Counting state action { state with memory := some after, row := row }
  | emits (inner : ThreadInner) (running : state.memory = some inner)
      (emits : action = .emitProtocolEvent) :
      Counting state action
        { state with
          memory := some inner.nextSequence
          emitted := state.emitted ++ [inner.nextSequence.lastSequence] }
  | stops (stops : action = .stop) : Counting state action { state with memory := none }
  | loads (memory : Option ThreadInner) (row : PersistedThreadRecord)
      (stopped : state.memory = none)
      (read : ∀ inner, memory = some inner → inner.lastSequence = state.row.lastSequence)
      (same : row.lastSequence = state.row.lastSequence) :
      Counting state action { state with memory := memory, row := row }

theorem counting_commit {inner after : ThreadInner} (running : state.memory = some inner)
    (same : after.lastSequence = inner.lastSequence) (stored : Bool) :
    Counting state action (state.commit columns inner after stored) := by
  cases stored with
  | true => exact .keeps inner after _ running same (Or.inr same)
  | false => exact .keeps inner inner _ running rfl (Or.inl rfl)

theorem counting_same {inner : ThreadInner} (running : state.memory = some inner) :
    Counting state action state := by
  have keeps : Counting state action { state with memory := some inner, row := state.row } :=
    .keeps inner inner state.row running rfl (Or.inl rfl)
  rwa [← running] at keeps

theorem counting_idle (stopped : state.memory = none) : Counting state action state :=
  .loads state.memory state.row stopped (by simp [stopped]) rfl

theorem step_counting (steps : step columns state action = some next) :
    Counting state action next := by
  unfold step at steps
  split at steps
  · rename_i inner now runId message stored running
    cases admitted : inner.startTurn now runId message with
    | error refusal =>
        rw [admitted] at steps
        cases steps
        exact counting_same running
    | ok after =>
        rw [admitted] at steps
        cases steps
        obtain ⟨-, -, rfl⟩ := startTurn_ok admitted
        refine counting_commit running ?_ stored
        rfl
  · rename_i inner now response stored running
    cases admitted : inner.submitUserInput now response with
    | error refusal =>
        rw [admitted] at steps
        cases steps
        exact counting_same running
    | ok reply =>
        obtain ⟨runId, after⟩ := reply
        rw [admitted] at steps
        cases steps
        obtain ⟨-, rfl⟩ := submitUserInput_ok admitted
        refine counting_commit running ?_ stored
        rfl
  · rename_i inner now message stored running
    cases appended : inner.appendSessionMessage now message with
    | error refusal =>
        rw [appended] at steps
        cases steps
        exact counting_same running
    | ok after =>
        rw [appended] at steps
        cases steps
        obtain ⟨-, rfl⟩ := appendSessionMessage_ok appended
        refine counting_commit running ?_ stored
        rfl
  · rename_i inner now runId finalSession stored running
    cases steps
    refine .keeps inner _ _ running rfl ?_
    cases stored with
    | true => exact Or.inr rfl
    | false => exact Or.inl rfl
  · rename_i inner running
    cases steps
    exact .emits inner running rfl
  · cases steps
    exact .stops rfl
  · rename_i stored opened stopped
    cases steps
    unfold load
    split
    · exact counting_idle stopped
    · rename_i inner needsRewrite recovered
      obtain ⟨_, parts⟩ := threadInnerFromPersisted_ok recovered
      have counted := parts.sequence
      split
      · exact counting_idle stopped
      · refine .loads _ _ stopped (fun read held => ?_) ?_
        · cases opened with
          | true => cases held; exact counted
          | false => cases held
        · cases needsRewrite with
          | true => exact counted
          | false => rfl
  · cases steps

end Steps

/-! ## The numbers grow -/

/-- The events' numbers grow, none is above the count in force, and the row is behind
the record only when the record's count is an event's number. -/
structure Counted (state : Numbering) : Prop where
  increasing : state.emitted.Pairwise (· < ·)
  running : ∀ inner, state.memory = some inner →
    (∀ sequence ∈ state.emitted, sequence ≤ inner.lastSequence) ∧
      (state.row.lastSequence = inner.lastSequence ∨
        state.row.lastSequence < inner.lastSequence ∧ inner.lastSequence ∈ state.emitted)
  stopped : state.memory = none →
    ∀ sequence ∈ state.emitted, sequence ≤ state.row.lastSequence

theorem counted_start (inner : ThreadInner) : Counted (start columns inner) where
  increasing := List.Pairwise.nil
  running := by
    intro held running
    cases running
    exact ⟨nofun, Or.inl rfl⟩
  stopped := nofun

/-- **One step under the condition** keeps the invariant. -/
theorem counted_step {columns : Columns} {state next : Numbering} {action : NumberingAction}
    (counted : Counted state) (saved : CounterSaved state action)
    (steps : step columns state action = some next) : Counted next := by
  cases step_counting steps with
  | keeps inner after row running same written =>
      obtain ⟨below, behind⟩ := counted.running inner running
      refine ⟨counted.increasing, fun held isHeld => ?_, by simp⟩
      cases isHeld
      refine ⟨fun sequence member => same ▸ below sequence member, ?_⟩
      rcases written with unchanged | now
      · simpa only [unchanged, same] using behind
      · exact Or.inl (now.trans same.symm)
  | emits inner running isEmit =>
      subst isEmit
      obtain ⟨below, behind⟩ := counted.running inner running
      have grows : inner.lastSequence < inner.nextSequence.lastSequence :=
        saturatingSucc_of_lt (saved inner running)
      refine ⟨?_, fun held isHeld => ?_, by simp⟩
      · rw [List.pairwise_append]
        refine ⟨counted.increasing, List.pairwise_singleton _ _, fun sequence member last isLast => ?_⟩
        rw [List.mem_singleton.1 isLast]
        exact UInt64.lt_of_le_of_lt (below sequence member) grows
      · cases isHeld
        refine ⟨fun sequence member => ?_, Or.inr ⟨?_, by simp⟩⟩
        · rcases List.mem_append.1 member with earlier | now
          · exact UInt64.le_of_lt (UInt64.lt_of_le_of_lt (below sequence earlier) grows)
          · rw [List.mem_singleton.1 now]
            exact UInt64.le_refl _
        · rcases behind with same | ⟨less, -⟩
          · rw [same]
            exact grows
          · exact UInt64.lt_trans less grows
  | stops isStop =>
      subst isStop
      refine ⟨counted.increasing, by simp, fun _ sequence member => ?_⟩
      cases memory : state.memory with
      | none => exact counted.stopped memory sequence member
      | some inner =>
          rw [saved inner memory]
          exact (counted.running inner memory).1 sequence member
  | loads memory row stopped read same =>
      have below := counted.stopped stopped
      refine ⟨counted.increasing, fun inner running => ⟨fun sequence member => ?_, Or.inl ?_⟩,
        fun _ sequence member => ?_⟩
      · rw [read inner running]
        exact below sequence member
      · rw [read inner running]
        exact same
      · rw [same]
        exact below sequence member

/-! ## A stop that loses the count -/

/-- Stop, come up again, and emit. -/
def restartAndEmit : List NumberingAction :=
  [.stop, .loadForCwd true true, .emitProtocolEvent]

/-- **A lost count is used again**: from a state with the record ahead of its row, a
stop, a restart and one event break the order. -/
theorem restartAndEmit_reuses {columns : Columns} {state : Numbering} {inner : ThreadInner}
    (counted : Counted state) (running : state.memory = some inner)
    (unsaved : state.row.lastSequence ≠ inner.lastSequence) {loaded : ThreadInner × Bool}
    (readable : threadInnerFromPersisted columns state.row = .ok loaded) :
    ∃ last, play (step columns) state restartAndEmit = some last ∧
      ¬ last.emitted.Pairwise (· < ·) := by
  obtain ⟨recovered, needsRewrite⟩ := loaded
  obtain ⟨_, parts⟩ := threadInnerFromPersisted_ok readable
  have count := parts.sequence
  refine ⟨_, by simp [play, restartAndEmit, step, running, load, readable]; rfl, ?_⟩
  intro increasing
  obtain ⟨less, member⟩ := ((counted.running inner running).2).resolve_left unsaved
  have above := (List.pairwise_append.1 increasing).2.2 _ member _ (List.mem_singleton_self _)
  have reached : saturatingSucc recovered.lastSequence ≤ inner.lastSequence :=
    saturatingSucc_le_of_lt (by rw [count]; exact less)
  exact absurd (UInt64.lt_of_lt_of_le above reached) (UInt64.lt_irrefl _)

/-- **Numbers grow exactly as long as the count is saved**: in every run under the
condition the numbers of the events grow strictly, so no two are the same; and in any
state such a run reaches, a stop with the count unsaved lets a restart and one event
break the order. -/
theorem sequences_grow (columns : Columns) (inner : ThreadInner) (actions : List NumberingAction)
    (last : Numbering)
    (run : Run (step columns) CounterSaved (start columns inner) actions last) :
    last.emitted.Pairwise (· < ·) ∧
      ∀ held loaded, last.memory = some held →
        threadInnerFromPersisted columns last.row = .ok loaded →
        last.row.lastSequence ≠ held.lastSequence →
        ∃ after, play (step columns) last restartAndEmit = some after ∧
          ¬ after.emitted.Pairwise (· < ·) := by
  have counted : Counted last :=
    run.invariant Counted (fun _ _ _ => counted_step) (counted_start columns inner)
  exact ⟨counted.increasing, fun _ _ running readable unsaved =>
    restartAndEmit_reuses counted running unsaved readable⟩

/-! ## Two histories of one thread -/

/-- A turn, its event, the stop before the run is over, a second turn and its event. -/
def stopAfterEvent : List NumberingAction :=
  [.startTurn 1 "run-1" "go" true, .emitProtocolEvent, .stop, .loadForCwd true true,
    .startTurn 2 "run-2" "go" true, .emitProtocolEvent]

theorem stopAfterEvent_reuses :
    ∃ last, play (step smallColumns)
        (start smallColumns (.new "thread-1" 0 smallConfig)) stopAfterEvent = some last ∧
      last.emitted = [1, 1] := by
  exact ⟨_, rfl, rfl⟩

/-- A message is appended between the event and the stop: its row saves the count. -/
def stopAfterSave : List NumberingAction :=
  [.emitProtocolEvent,
    .appendSessionMessage 1 (ConversationMessage.userText "go") true, .stop,
    .loadForCwd true true, .emitProtocolEvent]

theorem sequences_grow_stopAfterSave :
    ∃ last, play (step smallColumns)
        (start smallColumns (.new "thread-1" 0 smallConfig)) stopAfterSave = some last ∧
      last.emitted = [1, 2] ∧ last.emitted.Pairwise (· < ·) := by
  refine ⟨_, rfl, rfl, ?_⟩
  refine (sequences_grow smallColumns (.new "thread-1" 0 smallConfig) stopAfterSave _
    (.cons ?_ rfl (.cons trivial rfl (.cons ?_ rfl (.cons trivial rfl (.cons ?_ rfl .nil)))))).1
  · rintro held ⟨⟩
    decide
  · rintro held ⟨⟩
    rfl
  · rintro held ⟨⟩
    decide

end Numbering

end Openyak.Server
