/-
# Server.RunOrder -- runs do not interleave, as long as none starts over another's events

`complete_run` makes the thread idle under the lock and emits the run's events, the
terminal one last, when the lock is released.  A turn admitted in between numbers its
`run.started` among them.

Under `StartsAlone`, whoever numbers a `run.started` is the only one with events left to
number.  Then the log is one run after the other (`Sequential`): what stands behind a
`run.started` is of that run, and before the next one stands its terminal event.
-/
import Openyak.Server.Broadcast
import Openyak.Server.RunExecution

namespace Openyak.Server

open Openyak.Runtime
open Openyak.Theory (Run play)

set_option autoImplicit false

/-! ## One run after the other -/

def ProtocolEvent.starts : ProtocolEvent → Bool
  | .runStarted _ => true
  | _ => false

def ThreadEventEnvelope.starts (envelope : ThreadEventEnvelope) : Bool := envelope.event.starts

def ThreadEventEnvelope.ends (envelope : ThreadEventEnvelope) : Bool := envelope.event.ends

/-- A log of runs one after the other, with the run of its last event and whether that
run's terminal event is in it.  It may begin within a run that a restart found. -/
inductive Sequential : List ThreadEventEnvelope → Option RunId → Bool → Prop
  | fresh : Sequential [] none true
  | resumed (runId : RunId) : Sequential [] (some runId) false
  | starts {log : List ThreadEventEnvelope} {current : Option RunId} {runId : RunId}
      {envelope : ThreadEventEnvelope} (before : Sequential log current true)
      (starts : envelope.starts = true) (own : envelope.runId = some runId) :
      Sequential (log ++ [envelope]) (some runId) false
  | event {log : List ThreadEventEnvelope} {runId : RunId} {ended : Bool}
      {envelope : ThreadEventEnvelope} (before : Sequential log (some runId) ended)
      (goesOn : envelope.starts = false) (own : envelope.runId = some runId) :
      Sequential (log ++ [envelope]) (some runId) (ended || envelope.ends)

/-- Between a run's start and its terminal event there is no event of another run. -/
def RunsApart (log : List ThreadEventEnvelope) : Prop :=
  ∀ before started between terminal after runId,
    log = before ++ started :: between ++ terminal :: after →
    started.starts = true → started.runId = some runId →
    terminal.ends = true → terminal.runId = some runId →
    (∀ envelope ∈ between, envelope.starts = true → envelope.runId ≠ some runId) →
    ∀ envelope ∈ between, envelope.runId = some runId

/-- A run that does not start the log starts behind the terminal event of the run before
it, the one whose events go up to there. -/
def StartsBehindTerminal (log : List ThreadEventEnvelope) : Prop :=
  ∀ before started after, log = before ++ started :: after → started.starts = true →
    before ≠ [] →
    ∃ earlier terminal later runId, before = earlier ++ terminal :: later ∧
      terminal.ends = true ∧ terminal.runId = some runId ∧
      ∀ envelope ∈ later, envelope.runId = some runId ∧ envelope.starts = false

namespace Sequential

variable {log : List ThreadEventEnvelope} {current : Option RunId} {ended : Bool}

/-- A log begins with a log. -/
theorem upTo {before after : List ThreadEventEnvelope}
    (sequential : Sequential (before ++ after) current ended) :
    ∃ current ended, Sequential before current ended := by
  induction after using List.reverseRecOn generalizing current ended with
  | nil => exact ⟨current, ended, by simpa using sequential⟩
  | append_singleton after last ih =>
      rw [← List.append_assoc] at sequential
      generalize whole : before ++ after ++ [last] = log at sequential
      cases sequential with
      | fresh => simp at whole
      | resumed runId => simp at whole
      | starts earlier _ _ =>
          obtain ⟨same, -⟩ := List.append_inj' whole rfl
          exact ih (same ▸ earlier)
      | event earlier _ _ =>
          obtain ⟨same, -⟩ := List.append_inj' whole rfl
          exact ih (same ▸ earlier)

/-- **What stands behind a start is of that run**, up to the next start. -/
theorem owned {before between : List ThreadEventEnvelope} {started : ThreadEventEnvelope}
    (sequential : Sequential (before ++ started :: between) current ended)
    (starts : started.starts = true) (goesOn : ∀ envelope ∈ between, envelope.starts = false) :
    started.runId = current ∧ ∀ envelope ∈ between, envelope.runId = current := by
  induction between using List.reverseRecOn generalizing current ended with
  | nil =>
      generalize whole : before ++ [started] = log at sequential
      cases sequential with
      | fresh => simp at whole
      | resumed runId => simp at whole
      | starts earlier _ own =>
          obtain ⟨-, rfl⟩ := List.append_inj' whole rfl |>.imp_right List.singleton_inj.1
          exact ⟨own, List.forall_mem_nil _⟩
      | event earlier still own =>
          obtain ⟨-, rfl⟩ := List.append_inj' whole rfl |>.imp_right List.singleton_inj.1
          rw [starts] at still
          cases still
  | append_singleton between last ih =>
      have quiet : last.starts = false := goesOn last (by simp)
      have earlierQuiet : ∀ envelope ∈ between, envelope.starts = false :=
        fun envelope member => goesOn envelope (List.mem_append_left _ member)
      have parts : before ++ started :: (between ++ [last]) =
          (before ++ started :: between) ++ [last] := by simp
      rw [parts] at sequential
      generalize whole : (before ++ started :: between) ++ [last] = log at sequential
      cases sequential with
      | fresh => simp at whole
      | resumed runId => simp at whole
      | starts earlier begins own =>
          obtain ⟨-, rfl⟩ := List.append_inj' whole rfl |>.imp_right List.singleton_inj.1
          rw [quiet] at begins
          cases begins
      | event earlier still own =>
          obtain ⟨same, rfl⟩ := List.append_inj' whole rfl |>.imp_right List.singleton_inj.1
          obtain ⟨first, others⟩ := ih (same ▸ earlier) earlierQuiet
          refine ⟨first, fun envelope member => ?_⟩
          rcases List.mem_append.1 member with inside | isLast
          · exact others envelope inside
          · rw [List.mem_singleton.1 isLast]
            exact own

/-- A run that has ended has events. -/
theorem filled {runId : RunId} (sequential : Sequential log (some runId) ended)
    (isEnded : ended = true) : log ≠ [] := by
  generalize isSome : some runId = current at sequential
  cases sequential with
  | fresh => cases isSome
  | resumed runId => cases isEnded
  | starts _ _ _ => simp
  | event _ _ _ => simp

/-- The terminal event of a log whose last run has ended. -/
theorem terminal (sequential : Sequential log current ended) (isEnded : ended = true)
    (nonempty : log ≠ []) :
    ∃ earlier terminal later, log = earlier ++ terminal :: later ∧ terminal.ends = true ∧
      terminal.runId = current ∧
      ∀ envelope ∈ later, envelope.runId = current ∧ envelope.starts = false := by
  induction sequential with
  | fresh => exact absurd rfl nonempty
  | resumed runId => cases isEnded
  | starts _ _ _ => cases isEnded
  | @event log runId ended envelope before goesOn own ih =>
      cases ends : envelope.ends with
      | true => exact ⟨log, envelope, [], rfl, ends, own, nofun⟩
      | false =>
          rw [ends, Bool.or_false] at isEnded
          obtain ⟨earlier, found, later, parts, foundEnds, foundOwn, quiet⟩ :=
            ih isEnded (before.filled isEnded)
          refine ⟨earlier, found, later ++ [envelope], by rw [parts]; simp, foundEnds, foundOwn, ?_⟩
          intro other member
          rcases List.mem_append.1 member with inside | isLast
          · exact quiet other inside
          · rw [List.mem_singleton.1 isLast]
            exact ⟨own, goesOn⟩

end Sequential

/-- The last start in a list of events, if any. -/
theorem exists_last_start (log : List ThreadEventEnvelope) :
    (∀ envelope ∈ log, envelope.starts = false) ∨
      ∃ before started after, log = before ++ started :: after ∧ started.starts = true ∧
        ∀ envelope ∈ after, envelope.starts = false := by
  induction log with
  | nil => exact Or.inl nofun
  | cons first rest ih =>
      rcases ih with quiet | ⟨before, started, after, parts, starts, quiet⟩
      · cases starts : first.starts with
        | true => exact Or.inr ⟨[], first, rest, rfl, starts, quiet⟩
        | false => exact Or.inl (List.forall_mem_cons.2 ⟨starts, quiet⟩)
      · exact Or.inr ⟨first :: before, started, after, by rw [parts]; rfl, starts, quiet⟩

theorem starts_of_ends {envelope : ThreadEventEnvelope} (ends : envelope.ends = true) :
    envelope.starts = false := by
  unfold ThreadEventEnvelope.ends at ends
  unfold ThreadEventEnvelope.starts
  cases isEvent : envelope.event with
  | runStarted message =>
      rw [isEvent] at ends
      cases ends
  | _ => rfl

theorem runsApart_of_sequential {log : List ThreadEventEnvelope} {current : Option RunId}
    {ended : Bool} (sequential : Sequential log current ended) : RunsApart log := by
  intro before started between terminal after runId parts starts own ends terminalOwn distinct
  have noStart : terminal.starts = false := starts_of_ends ends
  have split : log = before ++ started :: (between ++ [terminal]) ++ after := by
    rw [parts]
    simp
  rw [split] at sequential
  obtain ⟨current, ended, sequential⟩ := sequential.upTo
  rcases exists_last_start between with quiet | ⟨front, other, rest, cut, otherStarts, quiet⟩
  · have goesOn : ∀ envelope ∈ between ++ [terminal], envelope.starts = false := by
      intro envelope member
      rcases List.mem_append.1 member with inside | isLast
      · exact quiet envelope inside
      · rw [List.mem_singleton.1 isLast]
        exact noStart
    obtain ⟨first, others⟩ := sequential.owned starts goesOn
    rw [own] at first
    intro envelope member
    rw [first]
    exact others envelope (List.mem_append_left _ member)
  · -- A later start owns the terminal event, so it is a start of the same run.
    have goesOn : ∀ envelope ∈ rest ++ [terminal], envelope.starts = false := by
      intro envelope member
      rcases List.mem_append.1 member with inside | isLast
      · exact quiet envelope inside
      · rw [List.mem_singleton.1 isLast]
        exact noStart
    have again : before ++ started :: (between ++ [terminal]) =
        (before ++ started :: front) ++ other :: (rest ++ [terminal]) := by
      rw [cut]
      simp
    rw [again] at sequential
    obtain ⟨first, others⟩ := sequential.owned otherStarts goesOn
    have last := others terminal (by simp)
    rw [terminalOwn, ← first] at last
    exact absurd last.symm (distinct other (by rw [cut]; simp) otherStarts)

theorem startsBehindTerminal_of_sequential {log : List ThreadEventEnvelope}
    {current : Option RunId} {ended : Bool} (sequential : Sequential log current ended) :
    StartsBehindTerminal log := by
  intro before started after parts starts nonempty
  have split : log = (before ++ [started]) ++ after := by
    rw [parts]
    simp
  rw [split] at sequential
  obtain ⟨current, ended, sequential⟩ := sequential.upTo
  generalize whole : before ++ [started] = log at sequential
  cases sequential with
  | fresh => simp at whole
  | resumed runId => simp at whole
  | @starts log current runId envelope earlier begins own =>
      obtain ⟨same, -⟩ := List.append_inj' whole rfl
      subst same
      obtain ⟨front, terminal, later, cut, ends, terminalOwn, quiet⟩ :=
        earlier.terminal rfl nonempty
      cases current with
      | none =>
          cases earlier with
          | fresh => exact absurd rfl nonempty
      | some runId => exact ⟨front, terminal, later, runId, cut, ends, terminalOwn, quiet⟩
  | event earlier goesOn own =>
      obtain ⟨-, rfl⟩ := List.append_inj' whole rfl |>.imp_right List.singleton_inj.1
      rw [starts] at goesOn
      cases goesOn

/-! ## The events of a finished run -/

theorem noStart_emitProtocolMessageBlocks (message : ConversationMessage) :
    ∀ event ∈ emitProtocolMessageBlocks message, event.starts = false := by
  intro event member
  obtain ⟨block, -, made⟩ := List.mem_filterMap.1 member
  cases block <;> cases made <;> rfl

theorem noStart_emitProtocolReplay (recordedBatches : List (List AssistantEvent))
    (messages : List ConversationMessage) :
    ∀ event ∈ emitProtocolReplay recordedBatches messages, event.starts = false := by
  induction recordedBatches generalizing messages with
  | nil =>
      intro event member
      obtain ⟨message, -, inside⟩ := List.mem_flatMap.1 member
      exact noStart_emitProtocolMessageBlocks message event inside
  | cons batch batches ih =>
      intro event member
      simp only [emitProtocolReplay, List.mem_append] at member
      rcases member with (assistant | answer) | later
      · obtain ⟨_, -, rfl⟩ := List.mem_map.1 assistant
        rfl
      · obtain ⟨message, -, inside⟩ := List.mem_flatMap.1 answer
        exact noStart_emitProtocolMessageBlocks message event inside
      · exact ih _ event later

theorem noStart_completeRunEvents (finalSession : Session) (optimisticLen : Nat)
    (recordedBatches : List (List AssistantEvent)) (result : Except RuntimeError TurnSummary)
    (stored : Except String Unit) :
    ∀ event ∈ completeRunEvents finalSession optimisticLen recordedBatches result stored,
      event.starts = false := by
  intro event member
  unfold completeRunEvents at member
  split at member
  · rw [List.mem_singleton.1 member]
    rfl
  · rcases List.mem_append.1 member with replayed | last
    · exact noStart_emitProtocolReplay _ _ event replayed
    · rw [List.mem_singleton.1 last]
      unfold terminalEvent
      split
      · rfl
      · split <;> rfl

/-- A run that leaves its thread idle ends with a terminal event. -/
theorem ends_completeRunEvents {finalSession : Session} {optimisticLen : Nat}
    {recordedBatches : List (List AssistantEvent)} {result : Except RuntimeError TurnSummary}
    {stored : Except String Unit} (idle : finalSession.pendingUserInputRequest = none) :
    ∃ event ∈ completeRunEvents finalSession optimisticLen recordedBatches result stored,
      event.ends = true := by
  unfold completeRunEvents
  split
  · exact ⟨_, List.mem_singleton_self _, rfl⟩
  · refine ⟨terminalEvent finalSession result, by simp, ?_⟩
    unfold terminalEvent
    rw [idle]
    split <;> rfl

/-! ## One thread's emitters -/

namespace EventStream

/-- Numbers are assigned below the greatest `u64`, and whoever numbers a `run.started` is
the only one with events left to number. -/
def StartsAlone (state : EventStream) : StreamAction → Prop
  | .assign emitter _ =>
      state.inner.lastSequence < 18446744073709551615 ∧
        ∀ found message rest, state.emitters[emitter]? = some found →
          found.events = .runStarted message :: rest →
          ∀ index other, index ≠ emitter → state.emitters[index]? = some other →
            other.events = []
  | _ => True

def NoStart (events : List ProtocolEvent) : Prop := ∀ event ∈ events, event.starts = false

/-- The emitters whose worker has not finished. -/
def working (emitters : List Emitter) : List Emitter :=
  emitters.filter fun emitter => emitter.spawns.isSome

/-- The terminal event of the run is in the log, or about to be. -/
def EndsSoon (emitters : List Emitter) (ended : Bool) : Prop :=
  ended = true ∨ ∃ emitter ∈ emitters, ∃ event ∈ emitter.events, event.ends = true

/-- What the emitter of the run that is going on has to number: its start, or events of
the run the log is in. -/
def AtWork (emitters : List Emitter) (current : Option RunId) (ended : Bool)
    (worker : Emitter) : Prop :=
  (∃ message, worker.events = [.runStarted message] ∧ EndsSoon emitters ended) ∨
    (some worker.runId = current ∧ NoStart worker.events)

/-- The status of the thread, its workers, and the run its log is in. -/
def StatusFits (emitters : List Emitter) (current : Option RunId) (ended : Bool) :
    ThreadStatus → Prop
  | .running runId => ∃ worker, working emitters = [worker] ∧ worker.runId = runId ∧
      AtWork emitters current ended worker
  | .awaitingUserInput runId _ => working emitters = [] ∧ some runId = current
  | .idle | .interrupted .. => working emitters = [] ∧ EndsSoon emitters ended

structure InOneRun (state : EventStream) (current : Option RunId) (ended : Bool) : Prop where
  log : Sequential state.assigned current ended
  finished : ∀ emitter ∈ state.emitters, emitter.spawns = none → emitter.events = [] ∨
    (some emitter.runId = current ∧ NoStart emitter.events)
  status : StatusFits state.emitters current ended state.inner.status

section Emitters

variable {emitters : List Emitter} {current : Option RunId} {ended : Bool}

theorem exists_split {index : Nat} {before : Emitter} (held : emitters[index]? = some before) :
    ∃ front back, emitters = front ++ before :: back ∧ front.length = index ∧
      ∀ after, emitters.set index after = front ++ after :: back := by
  obtain ⟨inside, isBefore⟩ := List.getElem?_eq_some_iff.1 held
  refine ⟨emitters.take index, emitters.drop (index + 1), ?_, ?_, fun after => ?_⟩
  · rw [← isBefore, List.getElem_cons_drop, List.take_append_drop]
  · rw [List.length_take]
    omega
  · rw [List.set_eq_take_append_cons_drop, if_pos inside]

theorem working_split (front back : List Emitter) (emitter : Emitter) :
    working (front ++ emitter :: back) =
      working front ++ (working [emitter] ++ working back) := by
  rw [working, List.filter_append, ← List.singleton_append, List.filter_append]
  rfl

/-- An emitter that is no worker is changed into another one. -/
theorem working_finished {front back : List Emitter} {before after : Emitter}
    (none_ : before.spawns = none) (still : after.spawns = none) :
    working (front ++ after :: back) = working (front ++ before :: back) := by
  rw [working_split, working_split]
  simp [working, none_, still]

/-- The only worker. -/
theorem working_only {front back : List Emitter} {before worker : Emitter}
    (busy : before.spawns.isSome) (only : working (front ++ before :: back) = [worker]) :
    before = worker ∧ working front = [] ∧ working back = [] := by
  have self : working [before] = [before] := by simp [working, busy]
  rw [working_split, self] at only
  cases front_ : working front with
  | nil =>
      rw [front_] at only
      obtain ⟨same, rest⟩ := List.cons.inj only
      exact ⟨same, rfl, rest⟩
  | cons first others =>
      rw [front_] at only
      simp at only

/-- A worker is at work only while the thread is running. -/
theorem running_of_working {front back : List Emitter} {before : Emitter} {status : ThreadStatus}
    (busy : before.spawns.isSome)
    (fits : StatusFits (front ++ before :: back) current ended status) :
    status = .running before.runId ∧ working front = [] ∧ working back = [] ∧
      AtWork (front ++ before :: back) current ended before := by
  have some_ : working (front ++ before :: back) ≠ [] := by
    intro none_
    have member : before ∈ working (front ++ before :: back) :=
      List.mem_filter.2 ⟨by simp, busy⟩
    rw [none_] at member
    cases member
  cases status with
  | running runId =>
      obtain ⟨worker, only, own, atWork⟩ := fits
      obtain ⟨rfl, frontNone, backNone⟩ := working_only busy only
      exact ⟨by rw [own], frontNone, backNone, atWork⟩
  | idle => exact absurd fits.1 some_
  | awaitingUserInput runId request => exact absurd fits.1 some_
  | interrupted runId note => exact absurd fits.1 some_

theorem endsSoon_append (soon : EndsSoon emitters ended) (emitter : Emitter) :
    EndsSoon (emitters ++ [emitter]) ended := by
  refine soon.imp_right ?_
  rintro ⟨holder, member, event, isEvent, ends⟩
  exact ⟨holder, List.mem_append_left _ member, event, isEvent, ends⟩

/-- The first event of an emitter is numbered. -/
theorem endsSoon_assign {front back : List Emitter} {before after : Emitter}
    {event : ProtocolEvent} (parts : before.events = event :: after.events)
    (soon : EndsSoon (front ++ before :: back) ended) :
    EndsSoon (front ++ after :: back) (ended || event.ends) := by
  rcases soon with isEnded | ⟨holder, member, found, isFound, ends⟩
  · exact Or.inl (by rw [isEnded, Bool.true_or])
  · simp only [List.mem_append, List.mem_cons] at member
    rcases member with inFront | rfl | inBack
    · exact Or.inr ⟨holder, by simp [inFront], found, isFound, ends⟩
    · rw [parts] at isFound
      rcases List.mem_cons.1 isFound with rfl | later
      · exact Or.inl (by rw [ends, Bool.or_true])
      · exact Or.inr ⟨after, by simp, found, later, ends⟩
    · exact Or.inr ⟨holder, by simp [inBack], found, isFound, ends⟩

/-- An emitter changes and keeps its events. -/
theorem endsSoon_same {front back : List Emitter} {before after : Emitter}
    (same : after.events = before.events) (soon : EndsSoon (front ++ before :: back) ended) :
    EndsSoon (front ++ after :: back) ended := by
  refine soon.imp_right ?_
  rintro ⟨holder, member, found, isFound, ends⟩
  simp only [List.mem_append, List.mem_cons] at member
  rcases member with inFront | rfl | inBack
  · exact ⟨holder, by simp [inFront], found, isFound, ends⟩
  · exact ⟨after, by simp, found, same ▸ isFound, ends⟩
  · exact ⟨holder, by simp [inBack], found, isFound, ends⟩

/-- The workers stay, and what was to end still is. -/
theorem statusFits_mono {before after : List Emitter} {current : Option RunId}
    {ended flag : Bool} {status : ThreadStatus} (same : working after = working before)
    (soon : EndsSoon before ended → EndsSoon after flag)
    (fits : StatusFits before current ended status) : StatusFits after current flag status := by
  cases status with
  | running busy =>
      obtain ⟨worker, only, isRun, atWork⟩ := fits
      refine ⟨worker, same.trans only, isRun, atWork.imp_left ?_⟩
      rintro ⟨message, starts, earlier⟩
      exact ⟨message, starts, soon earlier⟩
  | idle => exact ⟨same.trans fits.1, soon fits.2⟩
  | awaitingUserInput busy request => exact ⟨same.trans fits.1, fits.2⟩
  | interrupted busy note => exact ⟨same.trans fits.1, soon fits.2⟩

end Emitters

/-! ## One step -/

section Steps

variable {state next : EventStream} {current : Option RunId} {ended : Bool}

/-- A request is admitted while no worker is at work, and its emitter begins. -/
theorem inOneRun_admitted (inRun : InOneRun state current ended) (inner : ThreadInner)
    (runId : RunId) (event : ProtocolEvent) (length : Nat)
    (isRunning : inner.status = .running runId) (idle : working state.emitters = [])
    (atWork : (∃ message, event = .runStarted message) ∧ EndsSoon state.emitters ended ∨
      some runId = current ∧ event.starts = false) :
    InOneRun
      { state with
        inner := inner
        emitters := state.emitters ++
          [{ runId := runId, events := [event], spawns := some length }] } current ended := by
  refine ⟨inRun.log, fun emitter member finished => ?_, ?_⟩
  · rcases List.mem_append.1 member with earlier | isNew
    · exact inRun.finished emitter earlier finished
    · rw [List.mem_singleton.1 isNew] at finished
      cases finished
  · show StatusFits _ current ended inner.status
    rw [isRunning]
    refine ⟨⟨runId, [event], none, some length⟩, ?_, rfl, ?_⟩
    · rw [working, List.filter_append]
      show working state.emitters ++ _ = _
      rw [idle]
      rfl
    · rcases atWork with ⟨⟨message, rfl⟩, soon⟩ | ⟨own, goesOn⟩
      · exact Or.inl ⟨message, rfl, endsSoon_append soon _⟩
      · refine Or.inr ⟨own, fun found isFound => ?_⟩
        rw [List.mem_singleton.1 isFound]
        exact goesOn

/-- A worker finishes: its events are of the run, and the last one ends the run unless
the thread awaits input. -/
theorem inOneRun_completed (inRun : InOneRun state current ended) {front back : List Emitter}
    {runId : RunId} {length : Nat}
    (parts : state.emitters = front ++ ⟨runId, [], none, some length⟩ :: back) (now : UInt64)
    (finalSession : Session) (recordedBatches : List (List AssistantEvent))
    (result : Except RuntimeError TurnSummary) (stored : Except String Unit) :
    InOneRun
      { state with
        inner := state.inner.completeRun now runId finalSession
        emitters := front ++
          { runId := runId
            events := completeRunEvents finalSession length recordedBatches result stored } ::
            back } current ended := by
  have fits := inRun.status
  rw [parts] at fits
  obtain ⟨-, frontIdle, backIdle, atWork⟩ := running_of_working rfl fits
  have own : some runId = current := by
    rcases atWork with ⟨message, starts, -⟩ | ⟨own, -⟩
    · cases starts
    · exact own
  have idle : working (front ++ ⟨runId, completeRunEvents finalSession length recordedBatches
      result stored, none, none⟩ :: back) = [] := by
    rw [working_split, frontIdle, backIdle]
    rfl
  refine ⟨inRun.log, fun emitter member finished => ?_, ?_⟩
  · simp only [List.mem_append, List.mem_cons] at member
    rcases member with inFront | rfl | inBack
    · exact inRun.finished emitter (by rw [parts]; simp [inFront]) finished
    · exact Or.inr ⟨own, noStart_completeRunEvents _ _ _ _ _⟩
    · exact inRun.finished emitter (by rw [parts]; simp [inBack]) finished
  · show StatusFits _ current ended (state.inner.completeRun now runId finalSession).status
    unfold ThreadInner.completeRun
    cases pending : finalSession.pendingUserInputRequest with
    | some request => exact ⟨idle, own⟩
    | none =>
        refine ⟨idle, Or.inr ⟨_, List.mem_append_right _ List.mem_cons_self, ?_⟩⟩
        exact ends_completeRunEvents pending

/-- A numbered envelope is sent. -/
theorem inOneRun_sent (inRun : InOneRun state current ended) {front back : List Emitter}
    {runId : RunId} {events : List ProtocolEvent} {envelope : ThreadEventEnvelope}
    {spawns : Option Nat}
    (parts : state.emitters = front ++ ⟨runId, events, some envelope, spawns⟩ :: back) :
    InOneRun
      { state with
        emitters := front ++ ⟨runId, events, none, spawns⟩ :: back
        sent := state.sent ++ [envelope] } current ended := by
  have fits := inRun.status
  rw [parts] at fits
  have soon (before : EndsSoon (front ++ ⟨runId, events, some envelope, spawns⟩ :: back) ended) :
      EndsSoon (front ++ ⟨runId, events, none, spawns⟩ :: back) ended :=
    endsSoon_same (by rfl) before
  refine ⟨inRun.log, fun emitter member finished => ?_, ?_⟩
  · simp only [List.mem_append, List.mem_cons] at member
    rcases member with inFront | rfl | inBack
    · exact inRun.finished emitter (by rw [parts]; simp [inFront]) finished
    · exact inRun.finished ⟨runId, events, some envelope, spawns⟩ (by rw [parts]; simp) finished
    · exact inRun.finished emitter (by rw [parts]; simp [inBack]) finished
  · show StatusFits _ current ended state.inner.status
    cases spawns with
    | some length =>
        obtain ⟨status, frontIdle, backIdle, atWork⟩ := running_of_working rfl fits
        rw [status]
        refine ⟨⟨runId, events, none, some length⟩, ?_, rfl, atWork.imp_left ?_⟩
        · rw [working_split, frontIdle, backIdle]
          rfl
        · rintro ⟨message, starts, before⟩
          exact ⟨message, starts, soon before⟩
    | none =>
        have same : working (front ++ ⟨runId, events, none, none⟩ :: back) =
            working (front ++ ⟨runId, events, some envelope, none⟩ :: back) :=
          working_finished rfl rfl
        exact statusFits_mono same soon fits

/-- An event is numbered. -/
theorem inOneRun_assigned (inRun : InOneRun state current ended) {front back : List Emitter}
    {runId : RunId} {event : ProtocolEvent} {events : List ProtocolEvent} {spawns : Option Nat}
    (parts : state.emitters = front ++ ⟨runId, event :: events, none, spawns⟩ :: back)
    (alone : ∀ message, event = .runStarted message →
      ∀ other, other ∈ front ∨ other ∈ back → other.events = []) (now : UInt64) :
    ∃ current ended, InOneRun
      { state with
        inner := (state.inner.number now runId event).1
        emitters := front ++ ⟨runId, events, some (state.inner.number now runId event).2, spawns⟩ ::
          back
        assigned := state.assigned ++ [(state.inner.number now runId event).2] } current ended := by
  have fits := inRun.status
  rw [parts] at fits
  generalize isAfter : (⟨runId, events, some (state.inner.number now runId event).2, spawns⟩ :
    Emitter) = after
  have afterEvents : after.events = events := by rw [← isAfter]
  have afterSpawns : after.spawns = spawns := by rw [← isAfter]
  have afterRun : after.runId = runId := by rw [← isAfter]
  -- Whose events stand next, but for a start.
  have others : ∀ emitter ∈ front ++ after :: back, emitter.spawns = none → emitter ≠ after →
      emitter.events = [] ∨ (some emitter.runId = current ∧ NoStart emitter.events) := by
    intro emitter member finished differs
    simp only [List.mem_append, List.mem_cons] at member
    rcases member with inFront | isSelf | inBack
    · exact inRun.finished emitter (by rw [parts]; simp [inFront]) finished
    · exact absurd isSelf differs
    · exact inRun.finished emitter (by rw [parts]; simp [inBack]) finished
  have goesOn (own : some runId = current) (quiet : NoStart (event :: events)) :
      Sequential (state.assigned ++ [(state.inner.number now runId event).2]) current
        (ended || event.ends) := by
    have log := inRun.log
    rw [← own] at log ⊢
    exact .event log (quiet event List.mem_cons_self) rfl
  have later (quiet : NoStart (event :: events)) : NoStart events :=
    fun found isFound => quiet found (List.mem_cons_of_mem _ isFound)
  cases spawns with
  | none =>
      have here := inRun.finished ⟨runId, event :: events, none, none⟩ (by rw [parts]; simp) rfl
      obtain ⟨own, quiet⟩ := here.resolve_left nofun
      refine ⟨current, ended || event.ends, goesOn own quiet, ?_, ?_⟩
      · intro emitter member finished
        by_cases isSelf : emitter = after
        · subst isSelf
          rw [afterRun, afterEvents]
          exact Or.inr ⟨own, later quiet⟩
        · exact others emitter member finished isSelf
      · have same : working (front ++ after :: back) =
            working (front ++ ⟨runId, event :: events, none, none⟩ :: back) :=
          working_finished rfl afterSpawns
        have soon (before : EndsSoon (front ++ ⟨runId, event :: events, none, none⟩ :: back)
            ended) : EndsSoon (front ++ after :: back) (ended || event.ends) :=
          endsSoon_assign (by rw [afterEvents]) before
        exact statusFits_mono same soon fits
  | some length =>
      obtain ⟨status, frontIdle, backIdle, atWork⟩ := running_of_working rfl fits
      have only : working (front ++ after :: back) = [after] := by
        have self : working [after] = [after] := by simp [working, afterSpawns]
        rw [working_split, frontIdle, backIdle, self]
        rfl
      have fitsNext (run : Option RunId) (own : some runId = run) (flag : Bool)
          (quiet : NoStart events) :
          StatusFits (front ++ after :: back) run flag
            (state.inner.number now runId event).1.status := by
        show StatusFits _ run flag state.inner.status
        rw [status]
        refine ⟨after, only, afterRun, Or.inr ⟨by rw [afterRun]; exact own, ?_⟩⟩
        rw [afterEvents]
        exact quiet
      rcases atWork with ⟨message, starts, soon⟩ | ⟨own, quiet⟩
      · obtain ⟨rfl, rfl⟩ := List.cons.inj starts
        have silent := alone message rfl
        have isEnded : ended = true := by
          refine soon.resolve_right ?_
          rintro ⟨holder, member, found, isFound, ends⟩
          simp only [List.mem_append, List.mem_cons] at member
          rcases member with inFront | rfl | inBack
          · rw [silent holder (Or.inl inFront)] at isFound
            cases isFound
          · rw [List.mem_singleton.1 isFound] at ends
            cases ends
          · rw [silent holder (Or.inr inBack)] at isFound
            cases isFound
        have log := inRun.log
        rw [isEnded] at log
        refine ⟨some runId, false, .starts log rfl rfl, ?_, fitsNext _ rfl false nofun⟩
        intro emitter member finished
        simp only [List.mem_append, List.mem_cons] at member
        rcases member with inFront | rfl | inBack
        · exact Or.inl (silent emitter (Or.inl inFront))
        · rw [afterSpawns] at finished
          cases finished
        · exact Or.inl (silent emitter (Or.inr inBack))
      · refine ⟨current, ended || event.ends, goesOn own quiet, ?_,
          fitsNext current own _ (later quiet)⟩
        intro emitter member finished
        refine others emitter member finished ?_
        rintro rfl
        rw [afterSpawns] at finished
        cases finished

/-- **One step under the condition** keeps the log in one run. -/
theorem inOneRun_step {action : StreamAction} (inRun : InOneRun state current ended)
    (alone : StartsAlone state action) (steps : state.step action = some next) :
    ∃ current ended, InOneRun next current ended := by
  have fits := inRun.status
  cases action with
  | startTurn now runId message stored =>
      simp only [step] at steps
      split at steps <;> cases steps
      · exact ⟨current, ended, inRun⟩
      · rename_i inner admitted
        obtain ⟨-, admits, rfl⟩ := startTurn_ok admitted
        cases stored with
        | false => exact ⟨current, ended, inRun⟩
        | true =>
            have quiet : working state.emitters = [] ∧ EndsSoon state.emitters ended := by
              cases status : state.inner.status with
              | idle =>
                  rw [status] at fits
                  exact fits
              | interrupted _ _ =>
                  rw [status] at fits
                  exact fits
              | running _ =>
                  rw [status] at admits
                  cases admits
              | awaitingUserInput _ _ =>
                  rw [status] at admits
                  cases admits
            exact ⟨current, ended, inOneRun_admitted inRun _ runId _ _ rfl quiet.1
              (Or.inl ⟨⟨message, rfl⟩, quiet.2⟩)⟩
  | submitUserInput now response stored =>
      simp only [step] at steps
      split at steps <;> cases steps
      · exact ⟨current, ended, inRun⟩
      · rename_i runId inner admitted
        obtain ⟨⟨request, status, -⟩, rfl⟩ := submitUserInput_ok admitted
        rw [status] at fits
        cases stored with
        | false => exact ⟨current, ended, inRun⟩
        | true =>
            exact ⟨current, ended, inOneRun_admitted inRun _ runId _ _ rfl fits.1
              (Or.inr ⟨fits.2, rfl⟩)⟩
  | appendSessionMessage now message stored =>
      simp only [step] at steps
      split at steps <;> cases steps
      · exact ⟨current, ended, inRun⟩
      · rename_i inner appended
        obtain ⟨-, rfl⟩ := appendSessionMessage_ok appended
        refine ⟨current, ended, inRun.log, inRun.finished, ?_⟩
        cases stored with
        | false => exact fits
        | true => exact fits
  | completeRun emitter now finalSession recordedBatches result stored =>
      simp only [step] at steps
      split at steps <;> cases steps
      rename_i runId length held
      obtain ⟨front, back, parts, -, changed⟩ := exists_split held
      rw [changed]
      exact ⟨current, ended, inOneRun_completed inRun parts now finalSession recordedBatches
        result stored⟩
  | assign emitter now =>
      simp only [step] at steps
      split at steps <;> cases steps
      rename_i runId event events spawns held
      obtain ⟨front, back, parts, place, changed⟩ := exists_split held
      rw [changed]
      refine inOneRun_assigned inRun parts (fun message starts other member => ?_) now
      have only := alone.2 _ message events held (by rw [starts])
      rw [parts] at only
      rcases member with inFront | inBack
      · obtain ⟨index, inside, isOther⟩ := List.getElem_of_mem inFront
        refine only index other (by omega) ?_
        rw [List.getElem?_append_left inside, List.getElem?_eq_getElem inside, isOther]
      · obtain ⟨index, inside, isOther⟩ := List.getElem_of_mem inBack
        refine only (front.length + (index + 1)) other (by omega) ?_
        rw [List.getElem?_append_right (by omega), Nat.add_sub_cancel_left,
          List.getElem?_cons_succ, List.getElem?_eq_getElem inside, isOther]
  | send emitter =>
      simp only [step] at steps
      split at steps <;> cases steps
      rename_i runId events envelope spawns held
      obtain ⟨front, back, parts, -, changed⟩ := exists_split held
      rw [changed]
      exact ⟨current, ended, inOneRun_sent inRun parts⟩
  | subscribe =>
      cases steps
      exact ⟨current, ended, inRun.log, inRun.finished, fits⟩
  | snapshot subscriber =>
      simp only [step] at steps
      split at steps <;> cases steps
      exact ⟨current, ended, inRun.log, inRun.finished, fits⟩
  | receive subscriber =>
      simp only [step] at steps
      split at steps
      · split at steps <;> cases steps
        exact ⟨current, ended, inRun.log, inRun.finished, fits⟩
      · cases steps

end Steps

/-! ## Runs do not interleave -/

/-- A thread as a server finds or makes it: no run is going on. -/
theorem inOneRun_start {inner : ThreadInner} (settled : ∀ runId, inner.status ≠ .running runId) :
    ∃ current ended, InOneRun (start inner) current ended := by
  cases status : inner.status with
  | running runId => exact absurd status (settled runId)
  | awaitingUserInput runId request =>
      refine ⟨some runId, false, .resumed runId, List.forall_mem_nil _, ?_⟩
      show StatusFits [] _ _ inner.status
      rw [status]
      exact ⟨rfl, rfl⟩
  | idle =>
      refine ⟨none, true, .fresh, List.forall_mem_nil _, ?_⟩
      show StatusFits [] _ _ inner.status
      rw [status]
      exact ⟨rfl, Or.inl rfl⟩
  | interrupted runId note =>
      refine ⟨none, true, .fresh, List.forall_mem_nil _, ?_⟩
      show StatusFits [] _ _ inner.status
      rw [status]
      exact ⟨rfl, Or.inl rfl⟩

/-- **Runs do not interleave, as long as none starts over another's events**: in every
run under the condition the events' numbers grow along the log, no event of another run
stands between a run's start and its terminal event, and every later start stands behind
the terminal event of the run before. -/
theorem runs_apart (inner : ThreadInner) (settled : ∀ runId, inner.status ≠ .running runId)
    (actions : List StreamAction) (last : EventStream)
    (run : Run step StartsAlone (start inner) actions last) :
    (last.assigned.Pairwise fun a b => a.sequence < b.sequence) ∧ RunsApart last.assigned ∧
      StartsBehindTerminal last.assigned := by
  have upwards : Upwards last := by
    refine run.invariant Upwards (fun _ _ _ upwards alone steps => ?_) (upwards_start inner)
    refine upwards_step upwards (fun emitter now isAssign => ?_) steps
    subst isAssign
    exact alone.1
  obtain ⟨current, ended, inRun⟩ : ∃ current ended, InOneRun last current ended := by
    refine run.invariant (fun state => ∃ current ended, InOneRun state current ended)
      (fun _ _ _ held alone steps => ?_) (inOneRun_start settled)
    obtain ⟨current, ended, inRun⟩ := held
    exact inOneRun_step inRun alone steps
  exact ⟨upwards.increasing, runsApart_of_sequential inRun.log,
    startsBehindTerminal_of_sequential inRun.log⟩

/-! ## A start over a terminal event -/

/-- A first run fails; before its worker numbers `run.failed`, a second turn is admitted
and numbers its `run.started`. -/
def startedOver : List StreamAction :=
  [.startTurn 0 "run-1" "go" true, .assign 0 0, .send 0, failedRun,
    .startTurn 2 "run-2" "go on" true, .assign 1 2, .assign 0 3]

theorem startedOver_interleaves :
    ∃ last, play step (start thread) startedOver = some last ∧
      last.assigned.map (fun envelope => (envelope.sequence, envelope.runId,
          envelope.event.eventType)) =
        [(1, some "run-1", "run.started"), (2, some "run-2", "run.started"),
          (3, some "run-1", "run.failed")] ∧
      ¬RunsApart last.assigned ∧ ¬StartsBehindTerminal last.assigned := by
  refine ⟨_, rfl, rfl, fun apart => ?_, fun behind => ?_⟩
  · have own := apart [] _ [_] _ [] "run-1" rfl rfl rfl rfl rfl
      (fun envelope member starts own => by
        rw [List.mem_singleton.1 member] at own
        exact absurd own (by decide)) _ (List.mem_singleton_self _)
    exact absurd own (by decide)
  · obtain ⟨earlier, terminal, later, runId, parts, ends, -⟩ :=
      behind [_] _ [_] rfl rfl (by simp)
    have member : terminal ∈ earlier ++ terminal :: later := by simp
    rw [← parts] at member
    rw [List.mem_singleton.1 member] at ends
    cases ends

/-- The same with the worker first. -/
def startedBehind : List StreamAction :=
  [.startTurn 0 "run-1" "go" true, .assign 0 0, .send 0, failedRun, .assign 0 1,
    .startTurn 2 "run-2" "go on" true, .assign 1 2]

theorem runs_apart_startedBehind :
    ∃ last, play step (start thread) startedBehind = some last ∧
      last.assigned.map (fun envelope => envelope.event.eventType) =
        ["run.started", "run.failed", "run.started"] ∧
      RunsApart last.assigned ∧ StartsBehindTerminal last.assigned := by
  refine ⟨_, rfl, rfl, ?_⟩
  refine (runs_apart thread nofun startedBehind _
    (.cons trivial rfl (.cons ?_ rfl (.cons trivial rfl (.cons trivial rfl (.cons ?_ rfl
      (.cons trivial rfl (.cons ?_ rfl .nil)))))))).2
  · refine ⟨by decide, ?_⟩
    rintro found message rest ⟨⟩ ⟨⟩ index other differs held
    match index with
    | 0 => exact absurd rfl differs
    | _ + 1 => cases held
  · refine ⟨by decide, ?_⟩
    rintro found message rest ⟨⟩ ⟨⟩
  · refine ⟨by decide, ?_⟩
    rintro found message rest ⟨⟩ ⟨⟩ index other differs held
    match index with
    | 0 =>
        cases held
        rfl
    | 1 => exact absurd rfl differs
    | _ + 2 => cases held

end EventStream

end Openyak.Server
