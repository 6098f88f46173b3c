/-
# Lsp.DocumentLifecycle -- what the server was told about a document makes sense

The client's operations on a document keep what the server was told `Synchronized` if they
are `Orderly`: nobody opens a document that is open, or opens or closes one while another
operation on it is under way; changes are written in the order they were numbered; and the
numbers do not run out.  Nothing in the client sees to it: two callers that both find a
document closed open it twice (`both_open`).

The invariant (`InStep`) says of each document what the map and the server's copy are while
an operation is between its look at the map and its end.
-/
import Openyak.Lsp.Documents
import Mathlib.Data.Int.Order.Basic

namespace Openyak.Lsp

open Openyak.Theory Openyak.Theory.ByteStream Openyak.Theory.Posix
open SyncEvent (Synchronized followAll follow followAll_concat)

set_option autoImplicit false

/-- Opening and closing a document, which no other operation on it may meet. -/
def Duty.isExclusive : Duty → Bool
  | .opening _ _ | .opened | .closing | .closed => true
  | .numbering _ | .changing _ _ | .saving => false

namespace Documents

variable {config : LspServerConfig} {urls : FileUrls} {documents next : Documents}

/-- An operation is between its look at the map and its end. -/
def Active (documents : Documents) (task : Nat) (key : Path) (duty : Duty) : Prop :=
  ∃ uri, documents.tasks task = some (.active key uri duty)

/-- The condition on an event, in the state before it. -/
def Orderly (config : LspServerConfig) (urls : FileUrls) (documents : Documents) :
    DocumentEvent → Prop
  | .check task contents => ∀ operation key uri duty,
      documents.tasks task = some (.checking operation) →
      afterCheck config urls (documents.isOpen operation.path.normal) contents operation =
        .active key uri duty →
      (∀ other duty', documents.Active other key duty' →
        duty.isExclusive = false ∧ duty'.isExclusive = false) ∧
      ∀ path text, operation = .openDocument path text → documents.isOpen key = false
  | .number task => ∀ key text, documents.Active task key (.numbering text) →
      documents.openDocuments.lookup key ≠ some Int32.maxValue
  | .write task _ => ∀ key version text, documents.Active task key (.changing version text) →
      ∀ other version' text', other ≠ task →
        documents.Active other key (.changing version' text') → version.toInt < version'.toInt
  | _ => True

/-! ## The invariant -/

/-- The map has the document and the server a copy that is not newer. -/
def BothOpen (entry : Option Int32) (copy : Option (Int × String)) : Prop :=
  ∃ version held, entry = some version ∧ copy = some held ∧ held.1 ≤ version.toInt

/-- What the map and the server's copy are while an operation has something to do. -/
def Accords (entry : Option Int32) (copy : Option (Int × String)) : Duty → Prop
  | .opening _ _ => entry = none ∧ copy = none
  | .opened => entry = none ∧ ∃ text, copy = some (1, text)
  | .numbering _ | .saving | .closing => BothOpen entry copy
  | .changing version _ => BothOpen entry copy ∧ ∃ last held, entry = some last ∧
      copy = some held ∧ held.1 < version.toInt ∧ version.toInt ≤ last.toInt
  | .closed => (∃ version, entry = some version) ∧ copy = none

structure InStep (documents : Documents) (key : Path) (uri : String)
    (copy : Option (Int × String)) : Prop where
  sense : followAll (told uri documents.written) = some copy
  alone : ∀ task other duty duty', documents.Active task key duty → duty.isExclusive →
    documents.Active other key duty' → task = other
  duties : ∀ task duty, documents.Active task key duty →
    Accords (documents.openDocuments.lookup key) copy duty
  quiet : (∀ task duty, documents.Active task key duty → duty.isExclusive = false) →
    documents.openDocuments.lookup key = none ∧ copy = none ∨
      BothOpen (documents.openDocuments.lookup key) copy
  numbers : ∀ task other version version' text text',
    documents.Active task key (.changing version text) →
    documents.Active other key (.changing version' text') → task ≠ other →
      version.toInt ≠ version'.toInt

/-- The URI a task writes is its document's. -/
def Named (urls : FileUrls) (documents : Documents) : Prop :=
  ∀ task key uri duty, documents.tasks task = some (.active key uri duty) →
    urls.urlOf key = some uri

/-! ## Tasks -/

theorem active_setTask {task other : Nat} {state : Task} {key : Path} {duty : Duty} :
    (documents.setTask task state).Active other key duty ↔
      other = task ∧ (∃ uri, state = .active key uri duty) ∨
        other ≠ task ∧ documents.Active other key duty := by
  by_cases same : other = task
  · have held : (documents.setTask task state).tasks other = some state := by
      rw [same]
      exact Function.update_self _ _ _
    unfold Active
    rw [held]
    simp [same]
  · have held : (documents.setTask task state).tasks other = documents.tasks other :=
      Function.update_of_ne same _ _
    unfold Active
    rw [held]
    simp [same]

theorem named_setTask {task : Nat} {state : Task} (named : Named urls documents)
    (isNamed : ∀ key uri duty, state = .active key uri duty → urls.urlOf key = some uri) :
    Named urls (documents.setTask task state) := by
  intro other key uri duty held
  by_cases same : other = task
  · rw [setTask, same] at held
    dsimp only at held
    rw [Function.update_self] at held
    exact isNamed key uri duty (Option.some.inj held)
  · rw [setTask] at held
    dsimp only at held
    rw [Function.update_of_ne same] at held
    exact named other key uri duty held

theorem beginDuty_active {path key : Path} {uri : String} {duty duty' : Duty}
    (begins : beginDuty urls path duty = .active key uri duty') :
    key = path.normal ∧ urls.urlOf key = some uri ∧ duty' = duty := by
  unfold beginDuty at begins
  split at begins
  · cases begins
  · rename_i found
    cases begins
    exact ⟨rfl, found, rfl⟩

theorem beginOpen_active {path key : Path} {uri text : String} {duty : Duty}
    (begins : beginOpen config urls path text = .active key uri duty) :
    key = path.normal ∧ urls.urlOf key = some uri ∧ ∃ languageId,
      duty = .opening languageId text := by
  unfold beginOpen at begins
  split at begins
  · cases begins
  · rename_i found
    split at begins
    · cases begins
    · cases begins
      exact ⟨rfl, found, _, rfl⟩

/-- What an operation may go on to, by whether it found its document open. -/
theorem afterCheck_active {isOpen : Bool} {contents : Except IoError String}
    {operation : Operation} {key : Path} {uri : String} {duty : Duty}
    (begins : afterCheck config urls isOpen contents operation = .active key uri duty) :
    key = operation.path.normal ∧ urls.urlOf key = some uri ∧
      ((∃ languageId text, duty = .opening languageId text) ∧
          (isOpen = false ∨ ∃ path text, operation = .openDocument path text) ∨
        isOpen = true ∧ ((∃ text, duty = .numbering text) ∨ duty = .saving ∨ duty = .closing)) := by
  cases operation with
  | openDocument path text =>
      obtain ⟨isKey, isUri, languageId, isOpening⟩ := beginOpen_active begins
      exact ⟨isKey, isUri, .inl ⟨⟨languageId, text, isOpening⟩, .inr ⟨path, text, rfl⟩⟩⟩
  | ensureDocumentOpen path =>
      cases isOpen with
      | true => cases begins
      | false =>
          cases contents with
          | error error => cases begins
          | ok text =>
              obtain ⟨isKey, isUri, languageId, isOpening⟩ := beginOpen_active begins
              exact ⟨isKey, isUri, .inl ⟨⟨languageId, text, isOpening⟩, .inl rfl⟩⟩
  | changeDocument path text =>
      cases isOpen with
      | true =>
          obtain ⟨isKey, isUri, isDuty⟩ := beginDuty_active begins
          exact ⟨isKey, isUri, .inr ⟨rfl, .inl ⟨text, isDuty⟩⟩⟩
      | false =>
          obtain ⟨isKey, isUri, languageId, isOpening⟩ := beginOpen_active begins
          exact ⟨isKey, isUri, .inl ⟨⟨languageId, text, isOpening⟩, .inl rfl⟩⟩
  | saveDocument path =>
      cases isOpen with
      | true =>
          obtain ⟨isKey, isUri, isDuty⟩ := beginDuty_active begins
          exact ⟨isKey, isUri, .inr ⟨rfl, .inr (.inl isDuty)⟩⟩
      | false => cases begins
  | closeDocument path =>
      cases isOpen with
      | true =>
          obtain ⟨isKey, isUri, isDuty⟩ := beginDuty_active begins
          exact ⟨isKey, isUri, .inr ⟨rfl, .inr (.inr isDuty)⟩⟩
      | false => cases begins

/-! ## What an event does to a document -/

variable {key : Path} {uri : String} {copy : Option (Int × String)} {task : Nat}

/-- An event that has nothing to do with a document. -/
theorem InStep.frame (inStep : InStep documents key uri copy)
    (sameTold : told uri next.written = told uri documents.written)
    (sameEntry : next.openDocuments.lookup key = documents.openDocuments.lookup key)
    (sameTasks : ∀ task duty, next.Active task key duty ↔ documents.Active task key duty) :
    InStep next key uri copy where
  sense := sameTold ▸ inStep.sense
  alone := by
    intro task other duty duty' active exclusive active'
    exact inStep.alone task other duty duty' ((sameTasks ..).1 active) exclusive
      ((sameTasks ..).1 active')
  duties := by
    intro task duty active
    rw [sameEntry]
    exact inStep.duties task duty ((sameTasks ..).1 active)
  quiet := by
    intro none_
    rw [sameEntry]
    exact inStep.quiet fun task duty active => none_ task duty ((sameTasks ..).2 active)
  numbers := by
    intro task other version version' text text' active active' apart
    exact inStep.numbers task other version version' text text' ((sameTasks ..).1 active)
      ((sameTasks ..).1 active') apart

/-- One task has gone on to another duty, or ended. -/
structure GoesOn (documents next : Documents) (task : Nat) (key : Path) (left : Option Duty) :
    Prop where
  active : ∀ other duty, next.Active other key duty ↔
    other = task ∧ left = some duty ∨ other ≠ task ∧ documents.Active other key duty

/-- **An event of a document**: what its task, the other tasks, the map and the copy must be
like for the document to stay in step. -/
theorem InStep.goesOn {left : Option Duty} {copy' : Option (Int × String)}
    (inStep : InStep documents key uri copy) (goesOn : GoesOn documents next task key left)
    (sense : followAll (told uri next.written) = some copy')
    (own : ∀ duty, left = some duty → Accords (next.openDocuments.lookup key) copy' duty)
    (others : ∀ other duty, other ≠ task → documents.Active other key duty →
      Accords (next.openDocuments.lookup key) copy' duty ∧
        ∀ duty', left = some duty' → duty.isExclusive = false ∧ duty'.isExclusive = false)
    (quiet : (∀ duty, left = some duty → duty.isExclusive = false) →
      (∀ other duty, other ≠ task → documents.Active other key duty → duty.isExclusive = false) →
        next.openDocuments.lookup key = none ∧ copy' = none ∨
          BothOpen (next.openDocuments.lookup key) copy')
    (numbers : ∀ version text, left = some (.changing version text) →
      ∀ other version' text', other ≠ task →
        documents.Active other key (.changing version' text') →
          version.toInt ≠ version'.toInt) :
    InStep next key uri copy' where
  sense := sense
  alone := by
    intro first second duty duty' active exclusive active'
    rcases (goesOn.active ..).1 active with ⟨rfl, isLeft⟩ | ⟨apart, earlier⟩ <;>
      rcases (goesOn.active ..).1 active' with ⟨rfl, isLeft'⟩ | ⟨apart', earlier'⟩
    · rfl
    · have shared := ((others second duty' apart' earlier').2 duty isLeft).2
      rw [shared] at exclusive
      cases exclusive
    · have shared := ((others first duty apart earlier).2 duty' isLeft').1
      rw [shared] at exclusive
      cases exclusive
    · exact inStep.alone first second duty duty' earlier exclusive earlier'
  duties := by
    intro other duty active
    rcases (goesOn.active ..).1 active with ⟨-, isLeft⟩ | ⟨apart, earlier⟩
    · exact own duty isLeft
    · exact (others other duty apart earlier).1
  quiet := by
    intro none_
    refine quiet (fun duty isLeft => ?_) fun other duty apart earlier => ?_
    · exact none_ task duty ((goesOn.active ..).2 (.inl ⟨rfl, isLeft⟩))
    · exact none_ other duty ((goesOn.active ..).2 (.inr ⟨apart, earlier⟩))
  numbers := by
    intro first second version version' text text' active active' apart
    rcases (goesOn.active ..).1 active with ⟨rfl, isLeft⟩ | ⟨apart₁, earlier⟩ <;>
      rcases (goesOn.active ..).1 active' with ⟨rfl, isLeft'⟩ | ⟨apart₂, earlier'⟩
    · exact absurd rfl apart
    · exact numbers version text isLeft second version' text' apart₂ earlier'
    · exact (numbers version' text' isLeft' first version text apart₁ earlier).symm
    · exact inStep.numbers first second version version' text text' earlier earlier' apart

/-- While a task does something exclusive there is no other. -/
theorem InStep.only {duty : Duty} (inStep : InStep documents key uri copy)
    (active : documents.Active task key duty) (exclusive : duty.isExclusive) {other : Nat}
    {duty' : Duty} (apart : other ≠ task) : ¬documents.Active other key duty' :=
  fun active' => apart (inStep.alone task other duty duty' active exclusive active').symm

/-- While a task does something that is not, nobody does. -/
theorem InStep.shared {duty : Duty} (inStep : InStep documents key uri copy)
    (active : documents.Active task key duty) {other : Nat} {duty' : Duty} (apart : other ≠ task)
    (active' : documents.Active other key duty') : duty'.isExclusive = false := by
  by_contra exclusive
  rw [Bool.not_eq_false] at exclusive
  exact apart (inStep.alone other task duty' duty active' exclusive active)

theorem Accords.balanced {entry : Option Int32} {duty : Duty} {notification : Notification}
    {left : Option Duty} (accords : Accords entry copy duty)
    (writes : duty.notification uri = some (notification, left)) :
    entry = none ∧ copy = none ∨ BothOpen entry copy := by
  cases duty with
  | opening languageId text => exact .inl accords
  | changing version text => exact .inr accords.1
  | saving | closing => exact .inr accords
  | numbering text | opened | closed => cases writes

/-- A newer entry in the map accords with what is shared. -/
theorem Accords.newer {last version : Int32} {duty : Duty}
    (accords : Accords (some last) copy duty) (shared : duty.isExclusive = false)
    (newer : last.toInt ≤ version.toInt) : Accords (some version) copy duty := by
  have both : BothOpen (some last) copy → BothOpen (some version) copy := by
    rintro ⟨earlier, held, isLast, isCopy, notNewer⟩
    cases isLast
    exact ⟨version, held, rfl, isCopy, by omega⟩
  cases duty with
  | numbering text | saving => exact both accords
  | changing number text =>
      obtain ⟨isBoth, earlier, held, isLast, isCopy, older, notNewer⟩ := accords
      cases isLast
      exact ⟨both isBoth, version, held, rfl, isCopy, older, by omega⟩
  | opening languageId text | opened | closing | closed => cases shared

theorem goesOn_setTask (state : Task) {left : Option Duty}
    (isState : ∀ duty, (∃ uri, state = .active key uri duty) ↔ left = some duty)
    (tasks : next.tasks = (documents.setTask task state).tasks) :
    GoesOn documents next task key left where
  active := by
    intro other duty
    have same : next.Active other key duty ↔ (documents.setTask task state).Active other key duty := by
      unfold Active
      rw [tasks]
    rw [same, active_setTask, isState]

theorem told_concat (written : List Notification) (notification : Notification) :
    told uri (written ++ [notification]) =
      if notification.uri = uri then told uri written ++ [notification.event] else told uri written := by
  rw [told, List.filter_append, List.map_append]
  by_cases same : notification.uri = uri
  · rw [if_pos same, List.filter_singleton, decide_eq_true same]
    rfl
  · rw [if_neg same, List.filter_singleton, decide_eq_false same]
    exact List.append_nil _

/-! ## The events of a document -/

/-- An operation has looked at the map, and goes on. -/
theorem InStep.checked {duty : Duty} (inStep : InStep documents key uri copy)
    (isDuty : (∃ languageId text, duty = .opening languageId text) ∧
        documents.isOpen key = false ∨
      documents.isOpen key = true ∧ ((∃ text, duty = .numbering text) ∨ duty = .saving ∨
        duty = .closing))
    (apart : ∀ other duty', documents.Active other key duty' →
      duty.isExclusive = false ∧ duty'.isExclusive = false) :
    InStep (documents.setTask task (.active key uri duty)) key uri copy := by
  have balanced := inStep.quiet fun other duty' active => (apart other duty' active).2
  have goesOn : GoesOn documents (documents.setTask task (.active key uri duty)) task key
      (some duty) := by
    refine goesOn_setTask (.active key uri duty) (fun duty' => ?_) rfl
    exact ⟨fun ⟨_, same⟩ => congrArg some (Task.active.inj same).2.2,
      fun same => ⟨uri, congrArg _ (Option.some.inj same)⟩⟩
  have accords : Accords (documents.openDocuments.lookup key) copy duty := by
    rcases isDuty with ⟨⟨languageId, text, rfl⟩, notOpen⟩ | ⟨isOpen, shared⟩
    · rcases balanced with bothClosed | ⟨version, held, isThere, -⟩
      · exact bothClosed
      · rw [Documents.isOpen, isThere] at notOpen
        cases notOpen
    · have both : BothOpen (documents.openDocuments.lookup key) copy := by
        rcases balanced with ⟨absent, -⟩ | both
        · rw [Documents.isOpen, absent] at isOpen
          cases isOpen
        · exact both
      rcases shared with ⟨text, rfl⟩ | rfl | rfl <;> exact both
  refine inStep.goesOn goesOn inStep.sense ?_ ?_ ?_ ?_
  · intro duty' isLeft
    cases isLeft
    exact accords
  · intro other duty' _ active
    refine ⟨inStep.duties other duty' active, fun left isLeft => ?_⟩
    cases isLeft
    exact (apart other duty' active).symm
  · exact fun _ _ => balanced
  · intro version text isLeft
    rcases isDuty with ⟨⟨_, _, rfl⟩, -⟩ | ⟨-, ⟨_, rfl⟩ | rfl | rfl⟩ <;> cases isLeft

theorem toInt_succ {version : Int32} (room : version ≠ Int32.maxValue) :
    (version + 1).toInt = version.toInt + 1 := by
  have notLast : version.toInt ≠ 2 ^ 31 - 1 := fun same => room (Int32.toInt_inj.1 same)
  have low := version.le_toInt
  have high := version.toInt_lt
  have one : (1 : Int32).toInt = 1 := by decide
  rw [Int32.toInt_add, one]
  apply Int.bmod_eq_of_le
  · omega
  · omega

/-- A change has taken its number. -/
theorem InStep.numbered {text : String} {uri' : String} (inStep : InStep documents key uri copy)
    (active : documents.Active task key (.numbering text))
    (room : documents.openDocuments.lookup key ≠ some Int32.maxValue) :
    InStep { documents.setTask task (.active key uri' (.changing (documents.nextVersion key) text))
      with openDocuments := documents.openDocuments.insert key (documents.nextVersion key) }
      key uri copy := by
  obtain ⟨last, held, isLast, isCopy, notNewer⟩ := inStep.duties task _ active
  have next_ : documents.nextVersion key = last + 1 := by rw [nextVersion, isLast]
  have larger : (documents.nextVersion key).toInt = last.toInt + 1 := by
    rw [next_]
    exact toInt_succ fun same => room (same ▸ isLast)
  have entry : AList.lookup key (documents.openDocuments.insert key (documents.nextVersion key)) =
      some (documents.nextVersion key) := AList.lookup_insert _
  generalize documents.nextVersion key = version at entry larger ⊢
  refine inStep.goesOn (?_ : GoesOn _ _ task key (some (.changing version text))) inStep.sense
    ?_ ?_ ?_ ?_
  · refine goesOn_setTask (.active key uri' (.changing version text)) (fun duty => ?_) rfl
    exact ⟨fun ⟨_, same⟩ => congrArg some (Task.active.inj same).2.2,
      fun same => ⟨uri', congrArg _ (Option.some.inj same)⟩⟩
  · intro duty isLeft
    cases isLeft
    show Accords (AList.lookup key (documents.openDocuments.insert key version)) copy _
    rw [entry]
    exact ⟨⟨version, held, rfl, isCopy, by omega⟩, version, held, rfl, isCopy, by omega, by omega⟩
  · intro other duty apart active'
    have shared := inStep.shared active apart active'
    have accords := inStep.duties other duty active'
    rw [isLast] at accords
    refine ⟨?_, fun left isLeft => ?_⟩
    · show Accords (AList.lookup key (documents.openDocuments.insert key version)) copy _
      rw [entry]
      exact accords.newer shared (by omega)
    · cases isLeft
      exact ⟨shared, rfl⟩
  · intro _ _
    refine .inr ⟨version, held, entry, isCopy, by omega⟩
  · intro version' text' isLeft other number text'' apart active'
    cases isLeft
    obtain ⟨-, last', held', isLast', -, -, notNewer'⟩ := inStep.duties other _ active'
    rw [isLast] at isLast'
    cases isLast'
    omega

/-- A write has failed. -/
theorem InStep.failed {duty : Duty} {notification : Notification} {left : Option Duty}
    {error : LspError} {uri' : String} (inStep : InStep documents key uri copy)
    (active : documents.Active task key duty)
    (writes : duty.notification uri' = some (notification, left)) :
    InStep (documents.setTask task (.finished (.error error))) key uri copy := by
  refine inStep.goesOn (?_ : GoesOn _ _ task key none) inStep.sense ?_ ?_ ?_ ?_
  · refine goesOn_setTask (.finished (.error error)) (fun duty => ?_) rfl
    exact ⟨fun ⟨_, same⟩ => (by cases same), fun same => by cases same⟩
  · intro duty' isLeft
    cases isLeft
  · intro other duty' _ active'
    exact ⟨inStep.duties other duty' active', fun left isLeft => by cases isLeft⟩
  · intro _ _
    exact (inStep.duties task duty active).balanced writes
  · intro version text isLeft
    cases isLeft

/-- A notification has been written. -/
theorem InStep.wrote {duty : Duty} {notification : Notification} {left : Option Duty}
    (inStep : InStep documents key uri copy) (active : documents.Active task key duty)
    (writes : duty.notification uri = some (notification, left))
    (inOrder : ∀ version text, duty = .changing version text →
      ∀ other version' text', other ≠ task →
        documents.Active other key (.changing version' text') →
          version.toInt < version'.toInt) :
    ∃ copy', InStep { documents.setTask task (continueWith key uri left) with
      written := documents.written ++ [notification] } key uri copy' := by
  have goesOn : ∀ documents', documents'.tasks =
      (documents.setTask task (continueWith key uri left)).tasks →
        GoesOn documents documents' task key left := by
    intro documents' tasks
    refine goesOn_setTask (continueWith key uri left) (fun duty => ?_) tasks
    cases left with
    | none => exact ⟨fun ⟨_, same⟩ => (by cases same), fun same => by cases same⟩
    | some duty' =>
        exact ⟨fun ⟨_, same⟩ => congrArg some (Task.active.inj same).2.2,
          fun same => ⟨uri, congrArg _ (Option.some.inj same)⟩⟩
  have accords := inStep.duties task duty active
  have tells : notification.uri = uri →
      told uri (documents.written ++ [notification]) =
        told uri documents.written ++ [notification.event] := by
    intro same
    rw [told_concat, if_pos same]
  have follows : ∀ copy', notification.uri = uri → follow copy notification.event = some copy' →
      followAll (told uri (documents.written ++ [notification])) = some copy' := by
    intro copy' same followed
    rw [tells same, followAll_concat inStep.sense, followed]
  cases duty with
  | opening languageId text =>
      cases writes
      obtain ⟨absent, isCopy⟩ := accords
      have follows' := follows (some (1, text)) rfl (by rw [isCopy]; rfl)
      refine ⟨_, inStep.goesOn (goesOn _ rfl) follows' ?_ ?_ ?_ ?_⟩
      · intro duty isLeft
        cases isLeft
        exact ⟨absent, text, rfl⟩
      · exact fun other duty apart active' => absurd active' (inStep.only active rfl apart)
      · intro none_
        cases none_ .opened rfl
      · intro version text' isLeft
        cases isLeft
  | changing version text =>
      cases writes
      obtain ⟨-, last, held, isLast, isCopy, older, notNewer⟩ := accords
      have follows' := follows (some (version.toInt, text)) rfl (by
        rw [isCopy]
        show (if held.1 < version.toInt then _ else _) = _
        rw [if_pos older])
      refine ⟨_, inStep.goesOn (goesOn _ rfl) follows' ?_ ?_ ?_ ?_⟩
      · intro duty isLeft
        cases isLeft
      · intro other duty apart active'
        refine ⟨?_, fun left isLeft => by cases isLeft⟩
        have shared := inStep.shared active apart active'
        have accords' := inStep.duties other duty active'
        show Accords (documents.openDocuments.lookup key) _ duty
        have both : BothOpen (documents.openDocuments.lookup key) (some (version.toInt, text)) :=
          ⟨last, _, isLast, rfl, notNewer⟩
        cases duty with
        | numbering text' | saving => exact both
        | changing version' text' =>
            obtain ⟨-, last', held', isLast', -, -, notNewer'⟩ := accords'
            exact ⟨both, last', _, isLast', rfl,
              inOrder version text rfl other version' text' apart active', notNewer'⟩
        | opening languageId text' | opened | closing | closed => cases shared
      · intro _ _
        exact .inr ⟨last, _, isLast, rfl, notNewer⟩
      · intro version' text' isLeft
        cases isLeft
  | saving =>
      cases writes
      obtain ⟨last, held, isLast, isCopy, notNewer⟩ := accords
      have follows' := follows copy rfl (by rw [isCopy]; rfl)
      refine ⟨_, inStep.goesOn (goesOn _ rfl) follows' ?_ ?_ ?_ ?_⟩
      · intro duty isLeft
        cases isLeft
      · exact fun other duty _ active' =>
          ⟨inStep.duties other duty active', fun left isLeft => by cases isLeft⟩
      · intro _ _
        exact .inr ⟨last, held, isLast, isCopy, notNewer⟩
      · intro version text isLeft
        cases isLeft
  | closing =>
      cases writes
      obtain ⟨last, held, isLast, isCopy, -⟩ := accords
      have follows' := follows none rfl (by rw [isCopy]; rfl)
      refine ⟨_, inStep.goesOn (goesOn _ rfl) follows' ?_ ?_ ?_ ?_⟩
      · intro duty isLeft
        cases isLeft
        exact ⟨⟨last, isLast⟩, rfl⟩
      · exact fun other duty apart active' => absurd active' (inStep.only active rfl apart)
      · intro none_
        cases none_ .closed rfl
      · intro version text isLeft
        cases isLeft
  | numbering text | opened | closed => cases writes

/-- The map has been brought up to date behind an opening or a close. -/
theorem InStep.recorded {duty : Duty} {openDocuments : AList fun _ : Path => Int32}
    (inStep : InStep documents key uri copy) (active : documents.Active task key duty)
    (isDuty : duty = .opened ∧ openDocuments = documents.openDocuments.insert key 1 ∨
      duty = .closed ∧ openDocuments = documents.openDocuments.erase key) :
    InStep { documents.setTask task (.finished (.ok ())) with openDocuments := openDocuments }
      key uri copy := by
  have accords := inStep.duties task duty active
  have exclusive : duty.isExclusive = true := by
    rcases isDuty with ⟨rfl, -⟩ | ⟨rfl, -⟩ <;> rfl
  refine inStep.goesOn (?_ : GoesOn _ _ task key none) inStep.sense ?_ ?_ ?_ ?_
  · refine goesOn_setTask (.finished (.ok ())) (fun duty => ?_) rfl
    exact ⟨fun ⟨_, same⟩ => (by cases same), fun same => by cases same⟩
  · intro duty' isLeft
    cases isLeft
  · exact fun other duty' apart active' => absurd active' (inStep.only active exclusive apart)
  · intro _ _
    rcases isDuty with ⟨rfl, rfl⟩ | ⟨rfl, rfl⟩
    · obtain ⟨-, text, isCopy⟩ := accords
      have one : (1 : Int) ≤ (1 : Int32).toInt := by decide
      exact .inr ⟨1, _, AList.lookup_insert _, isCopy, one⟩
    · exact .inl ⟨AList.lookup_erase _ _, accords.2⟩
  · intro version text isLeft
    cases isLeft

/-! ## Runs -/

/-- Every document is in step. -/
def AllInStep (urls : FileUrls) (documents : Documents) : Prop :=
  Named urls documents ∧
    ∀ key uri, urls.urlOf key = some uri → ∃ copy, InStep documents key uri copy

theorem allInStep_start : AllInStep urls {} := by
  refine ⟨fun task key uri duty held => (by cases held), fun key uri _ => ⟨none, ?_⟩⟩
  refine ⟨rfl, ?_, ?_, fun _ => .inl ⟨rfl, rfl⟩, ?_⟩
  · rintro task other duty duty' ⟨uri, held⟩
    cases held
  · rintro task duty ⟨uri, held⟩
    cases held
  · rintro task other version version' text text' ⟨uri, held⟩
    cases held

/-- A task that is not about a document, and goes on to nothing about it. -/
theorem sameTasks {state before : Task} (held : documents.tasks task = some before)
    (notBefore : ∀ uri duty, before ≠ .active key uri duty)
    (notAfter : ∀ uri duty, state ≠ .active key uri duty) (other : Nat) (duty : Duty) :
    (documents.setTask task state).Active other key duty ↔ documents.Active other key duty := by
  rw [active_setTask]
  constructor
  · rintro (⟨-, uri, isState⟩ | ⟨-, active⟩)
    · exact absurd isState (notAfter uri duty)
    · exact active
  · intro active
    refine .inr ⟨?_, active⟩
    rintro rfl
    obtain ⟨uri, held'⟩ := active
    rw [held] at held'
    exact notBefore uri duty (Option.some.inj held')

theorem AllInStep.step {event : DocumentEvent} (all : AllInStep urls documents)
    (orderly : Orderly config urls documents event)
    (steps : Documents.step config urls documents event = some next) : AllInStep urls next := by
  obtain ⟨named, inStep⟩ := all
  cases event with
  | start task operation =>
      simp only [Documents.step] at steps
      split at steps
      · rename_i free
        cases steps
        refine ⟨named_setTask named fun key uri duty same => (by cases same), fun key uri isUri => ?_⟩
        obtain ⟨copy, inStep⟩ := inStep key uri isUri
        refine ⟨copy, inStep.frame rfl rfl fun other duty => ?_⟩
        rw [active_setTask]
        constructor
        · rintro (⟨-, uri', same⟩ | ⟨-, active⟩)
          · cases same
          · exact active
        · intro active
          refine .inr ⟨?_, active⟩
          rintro rfl
          obtain ⟨uri', held⟩ := active
          rw [free] at held
          cases held
      · cases steps
  | check task contents =>
      simp only [Documents.step] at steps
      split at steps
      · rename_i operation held
        cases steps
        generalize after : afterCheck config urls (documents.isOpen operation.path.normal) contents
          operation = state
        refine ⟨named_setTask named fun key uri duty isState => ?_, fun key uri isUri => ?_⟩
        · rw [isState] at after
          exact (afterCheck_active after).2.1
        · obtain ⟨copy, inStep⟩ := inStep key uri isUri
          by_cases goes : ∃ uri' duty, state = .active key uri' duty
          · obtain ⟨uri', duty, rfl⟩ := goes
            obtain ⟨isKey, isUri', isDuty⟩ := afterCheck_active after
            rw [isUri] at isUri'
            cases isUri'
            obtain ⟨apart, fresh⟩ := orderly operation key uri duty held after
            refine ⟨copy, inStep.checked ?_ apart⟩
            rcases isDuty with ⟨opens, notOpen | ⟨path, text, isOpening⟩⟩ | shared
            · exact .inl ⟨opens, isKey ▸ notOpen⟩
            · exact .inl ⟨opens, fresh path text isOpening⟩
            · exact .inr (isKey ▸ shared)
          · refine ⟨copy, inStep.frame rfl rfl (sameTasks held (fun uri duty same => ?_) ?_)⟩
            · cases same
            · exact fun uri' duty same => goes ⟨uri', duty, same⟩
      · cases steps
  | number task =>
      simp only [Documents.step] at steps
      split at steps
      · rename_i key' uri' text held
        cases steps
        have isUri' := named task key' uri' _ held
        refine ⟨named_setTask named fun key uri duty isState => ?_, fun key uri isUri => ?_⟩
        · cases isState
          exact isUri'
        · obtain ⟨copy, inStep⟩ := inStep key uri isUri
          by_cases same : key' = key
          · cases same
            exact ⟨copy, inStep.numbered ⟨uri', held⟩ (orderly key' text ⟨uri', held⟩)⟩
          · refine ⟨copy, inStep.frame rfl (AList.lookup_insert_ne (Ne.symm same))
              (sameTasks held (fun uri duty isKey => ?_) fun uri duty isKey => ?_)⟩
            · exact same (Task.active.inj isKey).1
            · exact same (Task.active.inj isKey).1
      · cases steps
  | write task failure =>
      simp only [Documents.step] at steps
      split at steps
      · rename_i key' uri' duty held
        have isUri' := named task key' uri' _ held
        split at steps
        · rename_i notification left writes
          have isUri'' : notification.uri = uri' := by
            cases duty <;> cases writes <;> rfl
          cases failure with
          | some error =>
              cases steps
              refine ⟨named_setTask named fun key uri duty same => (by cases same),
                fun key uri isUri => ?_⟩
              obtain ⟨copy, inStep⟩ := inStep key uri isUri
              by_cases same : key' = key
              · cases same
                exact ⟨copy, inStep.failed ⟨uri', held⟩ writes⟩
              · refine ⟨copy, inStep.frame rfl rfl
                  (sameTasks held (fun uri duty isKey => ?_) fun uri duty isKey => ?_)⟩
                · exact same (Task.active.inj isKey).1
                · cases isKey
          | none =>
              cases steps
              have isNamed : ∀ key uri duty, continueWith key' uri' left = .active key uri duty →
                  urls.urlOf key = some uri := by
                intro key uri duty isState
                cases left with
                | none => cases isState
                | some duty' =>
                    cases isState
                    exact isUri'
              refine ⟨named_setTask named isNamed, fun key uri isUri => ?_⟩
              obtain ⟨copy, inStep⟩ := inStep key uri isUri
              by_cases same : key' = key
              · cases same
                rw [isUri] at isUri'
                cases isUri'
                refine inStep.wrote ⟨uri', held⟩ writes fun version text isDuty => ?_
                exact orderly key' version text ⟨uri', isDuty ▸ held⟩
              · refine ⟨copy, inStep.frame ?_ rfl
                  (sameTasks held (fun uri duty isKey => ?_) fun uri duty isKey => ?_)⟩
                · refine (told_concat ..).trans (if_neg fun isSame => same ?_)
                  rw [isUri''] at isSame
                  exact urls.injective (isSame ▸ isUri') isUri
                · exact same (Task.active.inj isKey).1
                · cases left with
                  | none => cases isKey
                  | some duty' => exact same (Task.active.inj isKey).1
        · cases steps
      · cases steps
  | record task =>
      simp only [Documents.step] at steps
      have ended : ∀ key' uri' duty openDocuments,
          documents.tasks task = some (.active key' uri' duty) →
          (duty = .opened ∧ openDocuments = documents.openDocuments.insert key' 1 ∨
            duty = .closed ∧ openDocuments = documents.openDocuments.erase key') →
          next = { documents.setTask task (.finished (.ok ())) with
            openDocuments := openDocuments } → AllInStep urls next := by
        rintro key' uri' duty openDocuments held isDuty rfl
        refine ⟨named_setTask named fun key uri duty same => (by cases same),
          fun key uri isUri => ?_⟩
        obtain ⟨copy, inStep⟩ := inStep key uri isUri
        by_cases same : key' = key
        · cases same
          exact ⟨copy, inStep.recorded ⟨uri', held⟩ isDuty⟩
        · refine ⟨copy, inStep.frame rfl ?_
            (sameTasks held (fun uri duty isKey => ?_) fun uri duty isKey => ?_)⟩
          · rcases isDuty with ⟨-, rfl⟩ | ⟨-, rfl⟩
            · exact AList.lookup_insert_ne (Ne.symm same)
            · exact AList.lookup_erase_ne (Ne.symm same)
          · exact same (Task.active.inj isKey).1
          · cases isKey
      split at steps
      · rename_i key' uri' held
        exact ended key' uri' _ _ held (.inl ⟨rfl, rfl⟩) (Option.some.inj steps).symm
      · rename_i key' uri' held
        exact ended key' uri' _ _ held (.inr ⟨rfl, rfl⟩) (Option.some.inj steps).symm
      · cases steps

/-- **Orderly operations keep what the server was told about each document in step.** -/
theorem told_synchronized {events : List DocumentEvent} {last : Documents}
    (run : Run (Documents.step config urls) (Orderly config urls) {} events last) (path : Path)
    (uri : String) (isUri : fileUrl urls path = some uri) :
    Synchronized (told uri last.written) := by
  obtain ⟨copy, inStep⟩ := (run.invariant (AllInStep urls)
    (fun _ _ _ all orderly steps => all.step orderly steps) allInStep_start).2 path.normal uri isUri
  exact SyncEvent.synchronized inStep.sense

/-! ## Two callers -/

def rustConfig : LspServerConfig := ⟨AList.singleton ".rs".toList "rust"⟩

/-- URIs of paths without characters to escape. -/
def noteUrls : FileUrls where
  urlOf path := if path = Path.normal (Path.ofText "/w/a.rs") then some "file:///w/a.rs" else none
  injective := by
    intro path other uri isUri isUri'
    split at isUri
    · rename_i isPath
      split at isUri'
      · rename_i isOther
        rw [isPath, isOther]
      · cases isUri'
    · cases isUri

def note : Path := Path.ofText "/w/a.rs"

/-- One caller opens the document. -/
def oneCaller : List DocumentEvent :=
  [.start 0 (.openDocument note "a"), .check 0 (.ok ""), .write 0 none, .record 0]

theorem told_synchronized_note :
    ∃ last, Run (Documents.step rustConfig noteUrls) (Orderly rustConfig noteUrls) {} oneCaller
        last ∧ Synchronized (told "file:///w/a.rs" last.written) := by
  have isUri : fileUrl noteUrls note = some "file:///w/a.rs" := by decide +kernel
  have begins : beginOpen rustConfig noteUrls note "a" =
      .active note.normal "file:///w/a.rs" (.opening "rust" "a") := by
    have isRust : rustConfig.languageIdFor note = some "rust" := by decide +kernel
    rw [beginOpen, isUri]
    dsimp only
    rw [isRust]
  let looked : Documents := setTask {} 0 (.checking (.openDocument note "a"))
  have nobody : ∀ other duty, ¬looked.Active other note.normal duty := by
    intro other duty active
    rcases active_setTask.1 active with ⟨-, uri, same⟩ | ⟨-, uri, held⟩
    · cases same
    · cases held
  have checked : step rustConfig noteUrls looked (.check 0 (.ok "")) =
      some (looked.setTask 0 (.active note.normal "file:///w/a.rs" (.opening "rust" "a"))) :=
    congrArg (fun state => some (looked.setTask 0 state)) begins
  obtain ⟨last, run⟩ : ∃ last, Run (Documents.step rustConfig noteUrls)
      (Orderly rustConfig noteUrls) {} oneCaller last := by
    refine ⟨_, .cons trivial rfl (.cons ?_ checked (.cons ?_ rfl (.cons trivial rfl .nil)))⟩
    · intro operation key uri duty held after
      have isOpening : operation = .openDocument note "a" :=
        (Task.checking.inj (Option.some.inj held)).symm
      rw [isOpening] at after
      obtain ⟨rfl, -⟩ := Task.active.inj (begins.symm.trans after)
      exact ⟨fun other duty' active => absurd active (nobody other duty'), fun _ _ _ => rfl⟩
    · rintro key version text ⟨uri, held⟩
      cases held
  exact ⟨last, run, told_synchronized run note _ isUri⟩

/-- Two callers look, and both find it closed. -/
def twoCallers : List DocumentEvent :=
  [.start 0 (.ensureDocumentOpen note), .start 1 (.ensureDocumentOpen note),
    .check 0 (.ok "a"), .check 1 (.ok "a"), .write 0 none, .write 1 none]

/-- **Two callers that both find the document closed open it twice.** -/
theorem both_open :
    ∃ last, Run (Documents.step rustConfig noteUrls) (fun _ _ => True) {} twoCallers last ∧
      ¬Synchronized (told "file:///w/a.rs" last.written) := by
  have twice : (play (Documents.step rustConfig noteUrls) {} twoCallers).map
      (fun last => (followAll (told "file:///w/a.rs" last.written)).isNone) = some true := by
    decide +kernel
  obtain ⟨last, played, isNone⟩ := Option.map_eq_some_iff.1 twice
  refine ⟨last, (run_iff_play ..).2 played, fun kept => ?_⟩
  obtain ⟨copy, sense, -⟩ := kept.sense
  rw [sense] at isNone
  cases isNone

end Documents

end Openyak.Lsp
