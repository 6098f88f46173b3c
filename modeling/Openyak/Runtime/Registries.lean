/-
# Runtime.Registries -- tasks and teams, each behind a lock of its own

`TaskRegistry` and `TeamRegistry` are maps from ids, and a counter that makes the ids
new.  Every operation is one critical section: a function from the registry to the
registry after it and the answer.  The clock is a parameter.

A task names the team it belongs to, and a team lists its tasks.  Nothing in this module
keeps the two together: `assignTeam` and `unassignTeam` write the task only, `create`,
`delete` and `remove` the team only.
-/
import Mathlib.Logic.Function.Basic
import Mathlib.Data.List.Basic
import Mathlib.Data.Nat.Digits.Defs

namespace Openyak.Runtime

set_option autoImplicit false

/-! ## Lifecycles -/

structure RecoveryGuidanceSnapshot where
  failureKind : String
  recoveryKind : String
  recommendedActions : List String
  deriving DecidableEq, Repr

structure LifecycleStateSnapshot where
  status : String
  failureKind : Option String := none
  recovery : Option RecoveryGuidanceSnapshot := none
  deriving DecidableEq, Repr

namespace LifecycleStateSnapshot

def withRecovery (status : String) (recovery : RecoveryGuidanceSnapshot) :
    LifecycleStateSnapshot := ⟨status, some recovery.failureKind, some recovery⟩

def processLocalTask (status : String) : LifecycleStateSnapshot := { status := status }

def processLocalTaskError (status : String) : LifecycleStateSnapshot :=
  withRecovery status
    { failureKind := "process_local_task_conflict"
      recoveryKind := "resolve_task_state_and_retry"
      recommendedActions :=
        ["inspect the task state and last_error in the current runtime",
          "resolve the conflicting operator action before retrying"] }

def processLocalTeam (status : String) : LifecycleStateSnapshot := { status := status }

def processLocalTeamError (status : String) : LifecycleStateSnapshot :=
  withRecovery status
    { failureKind := "process_local_team_conflict"
      recoveryKind := "resolve_team_state_and_retry"
      recommendedActions :=
        ["inspect the current team state in the active runtime",
          "resolve the conflicting team action before retrying"] }

end LifecycleStateSnapshot

/-! ## Ids -/

/-- `{:08x}`. -/
def hexPadded (value : Nat) : List Char :=
  let digits := Nat.toDigits 16 value
  List.replicate (8 - digits.length) '0' ++ digits

/-- `format!("{kind}_{:08x}_{}", ts, counter)`. -/
def registryId (kind : String) (ts counter : Nat) : String :=
  String.ofList (kind.toList ++ '_' :: (hexPadded ts ++ '_' :: Nat.toDigits 10 counter))

/-- `counter += 1` on a `u64`, without overflow checks. -/
def nextCounter (counter : Nat) : Nat := (counter + 1) % 2 ^ 64

/-- The counter stands behind the last underscore. -/
theorem registryId_counter {kind kind' : String} {ts ts' counter counter' : Nat}
    (same : registryId kind ts counter = registryId kind' ts' counter') : counter = counter' := by
  have last : ∀ (kind : String) (ts counter : Nat),
      ((kind.toList ++ '_' :: (hexPadded ts ++ '_' :: Nat.toDigits 10 counter)).reverse.takeWhile
        (· ≠ '_')).reverse = Nat.toDigits 10 counter := by
    intro kind ts counter
    have flat : ∀ c ∈ (Nat.toDigits 10 counter).reverse, c ≠ '_' := by
      rintro c inside rfl
      exact absurd (Nat.isDigit_of_mem_toDigits (by decide) (by decide) (List.mem_reverse.1 inside))
        (by decide)
    simp only [List.reverse_append, List.reverse_cons, List.append_assoc, List.singleton_append]
    rw [List.takeWhile_append_of_pos (by simpa using flat), List.cons_append,
      List.takeWhile_cons_of_neg (by simp), List.append_nil, List.reverse_reverse]
  have digits : Nat.toDigits 10 counter = Nat.toDigits 10 counter' := by
    rw [← last kind ts counter, ← last kind' ts' counter', String.ofList_injective same]
  have value := congrArg (fun digits => Nat.ofDigitChars 10 digits 0) digits
  simpa only [Nat.ofDigitChars_ten_toDigits] using value

/-! ## Tasks -/

inductive TaskStatus where
  | created
  | running
  | completed
  | failed
  | stopped
  deriving DecidableEq, Repr

def TaskStatus.text : TaskStatus → String
  | .created => "created"
  | .running => "running"
  | .completed => "completed"
  | .failed => "failed"
  | .stopped => "stopped"

structure TaskMessage where
  role : String
  content : String
  timestamp : Nat
  deriving DecidableEq, Repr

structure Task where
  taskId : String
  prompt : String
  description : Option String
  status : TaskStatus
  lifecycle : LifecycleStateSnapshot
  createdAt : Nat
  updatedAt : Nat
  lastError : Option String
  messages : List TaskMessage
  output : String
  teamId : Option String
  deriving DecidableEq, Repr

structure TaskRegistry where
  tasks : String → Option Task := fun _ => none
  counter : Nat := 0

namespace TaskRegistry

variable (registry : TaskRegistry)

def insert (task : Task) : TaskRegistry :=
  { registry with tasks := Function.update registry.tasks task.taskId (some task) }

/-- `get_mut`, with what is written to the task and the answer. -/
def modify {α : Type} (taskId : String) (change : Task → Task × Except String α) :
    TaskRegistry × Except String α :=
  match registry.tasks taskId with
  | none => (registry, .error ("task not found: " ++ taskId))
  | some task =>
      ({ registry with tasks := Function.update registry.tasks taskId (some (change task).1) },
        (change task).2)

def create (now : Nat) (prompt : String) (description : Option String) : TaskRegistry × Task :=
  let counter := nextCounter registry.counter
  let task : Task :=
    { taskId := registryId "task" now counter
      prompt := prompt
      description := description
      status := .created
      lifecycle := .processLocalTask "created"
      createdAt := now
      updatedAt := now
      lastError := none
      messages := []
      output := ""
      teamId := none }
  ({ registry with counter := counter }.insert task, task)

def get (taskId : String) : Option Task := registry.tasks taskId

def stop (now : Nat) (taskId : String) : TaskRegistry × Except String Task :=
  registry.modify taskId fun task =>
    match task.status with
    | .completed | .failed | .stopped =>
        let error := "task " ++ taskId ++ " is already in terminal state: " ++ task.status.text
        ({ task with
            lastError := some error
            lifecycle := .processLocalTaskError task.status.text }, .error error)
    | .created | .running =>
        let stopped : Task :=
          { task with
            status := .stopped
            lifecycle := .processLocalTask "stopped"
            updatedAt := now
            lastError := none }
        (stopped, .ok stopped)

def update (now : Nat) (taskId message : String) : TaskRegistry × Except String Task :=
  registry.modify taskId fun task =>
    let updated : Task :=
      { task with
        messages := task.messages ++ [⟨"user", message, now⟩]
        lifecycle := .processLocalTask task.status.text
        updatedAt := now
        lastError := none }
    (updated, .ok updated)

def assignTeam (now : Nat) (taskId teamId : String) : TaskRegistry × Except String Unit :=
  registry.modify taskId fun task =>
    match task.teamId with
    | some existingTeamId =>
        if existingTeamId = teamId then
          ({ task with
              lastError := none
              lifecycle := .processLocalTask task.status.text }, .ok ())
        else
          let error := "task " ++ taskId ++ " is already assigned to team " ++ existingTeamId
          ({ task with
              lastError := some error
              lifecycle := .processLocalTaskError task.status.text }, .error error)
    | none =>
        ({ task with
            teamId := some teamId
            lifecycle := .processLocalTask task.status.text
            updatedAt := now
            lastError := none }, .ok ())

def unassignTeam (now : Nat) (taskId teamId : String) : TaskRegistry × Except String Unit :=
  registry.modify taskId fun task =>
    match task.teamId with
    | some existingTeamId =>
        if existingTeamId = teamId then
          ({ task with
              teamId := none
              lifecycle := .processLocalTask task.status.text
              updatedAt := now
              lastError := none }, .ok ())
        else
          let error := "task " ++ taskId ++ " is assigned to team " ++ existingTeamId ++ ", not " ++
            teamId
          ({ task with
              lastError := some error
              lifecycle := .processLocalTaskError task.status.text }, .error error)
    | none =>
        ({ task with
            lastError := none
            lifecycle := .processLocalTask task.status.text }, .ok ())

/-- The team a registered task names. -/
def teamOf (taskId : String) : Option String := (registry.tasks taskId).bind (·.teamId)

section TeamOf

variable {registry}

theorem teamOf_modify {α : Type} (taskId : String) (change : Task → Task × Except String α) :
    (registry.modify taskId change).1.teamOf = Function.update registry.teamOf taskId
      ((registry.tasks taskId).bind fun task => (change task).1.teamId) := by
  funext other
  cases found : registry.tasks taskId with
  | none =>
      have same : registry.teamOf taskId = none := by rw [teamOf, found, Option.bind_none]
      simp only [modify, found, Option.bind_none]
      rw [← same, Function.update_eq_self]
  | some task =>
      simp only [modify, found, Option.bind_some]
      by_cases here : other = taskId
      · subst here
        simp [teamOf]
      · simp [teamOf, here]

theorem get_modify {α : Type} {taskId other : String} {change : Task → Task × Except String α}
    {task : Task} (found : (registry.modify taskId change).1.get other = some task) :
    ∃ task, registry.get other = some task := by
  rw [modify] at found
  cases before : registry.tasks taskId with
  | none =>
      rw [before] at found
      exact ⟨task, found⟩
  | some held =>
      by_cases here : other = taskId
      · exact ⟨held, here ▸ before⟩
      · simp only [before, get, Function.update_of_ne here] at found
        exact ⟨task, found⟩

theorem counter_modify {α : Type} (taskId : String) (change : Task → Task × Except String α) :
    (registry.modify taskId change).1.counter = registry.counter := by
  rw [modify]
  cases registry.tasks taskId <;> rfl

theorem get_create {now : Nat} {prompt other : String} {description : Option String} {task : Task}
    (found : (registry.create now prompt description).1.get other = some task) :
    other = registryId "task" now (nextCounter registry.counter) ∨ registry.get other = some task := by
  by_cases here : other = registryId "task" now (nextCounter registry.counter)
  · exact Or.inl here
  · simp only [create, insert, get, Function.update_of_ne here] at found
    exact Or.inr found

theorem teamOf_keep {α : Type} {change : Task → Task × Except String α}
    (keeps : ∀ task, (change task).1.teamId = task.teamId) (taskId : String) :
    (registry.modify taskId change).1.teamOf = registry.teamOf := by
  simp only [teamOf_modify, keeps]
  exact Function.update_eq_self taskId registry.teamOf

theorem teamOf_stop (now : Nat) (taskId : String) :
    (registry.stop now taskId).1.teamOf = registry.teamOf := by
  refine teamOf_keep (fun task => ?_) taskId
  cases task.status <;> rfl

theorem teamOf_update (now : Nat) (taskId message : String) :
    (registry.update now taskId message).1.teamOf = registry.teamOf :=
  teamOf_keep (fun _ => rfl) taskId

/-- A task that is created is in no team. -/
theorem teamOf_create (now : Nat) (prompt : String) (description : Option String) :
    (registry.create now prompt description).1.teamOf =
      Function.update registry.teamOf (registryId "task" now (nextCounter registry.counter)) none := by
  funext other
  by_cases here : other = registryId "task" now (nextCounter registry.counter)
  · subst here
    simp [create, insert, teamOf]
  · simp [create, insert, teamOf, here]

/-- A task is assigned, or the answer is an error and it names the team it named. -/
theorem assignTeam_cases (now : Nat) (taskId teamId : String) :
    ((registry.assignTeam now taskId teamId).2 = .ok () ∧
        (registry.assignTeam now taskId teamId).1.teamOf =
          Function.update registry.teamOf taskId (some teamId) ∧
        (registry.teamOf taskId = none ∨ registry.teamOf taskId = some teamId)) ∨
      ∃ error, (registry.assignTeam now taskId teamId).2 = .error error ∧
        (registry.assignTeam now taskId teamId).1.teamOf = registry.teamOf := by
  rw [assignTeam, teamOf_modify]
  cases found : registry.tasks taskId with
  | none =>
      refine Or.inr ⟨_, by simp only [modify, found]; rfl, ?_⟩
      have same : registry.teamOf taskId = none := by rw [teamOf, found, Option.bind_none]
      rw [Option.bind_none, ← same, Function.update_eq_self]
  | some task =>
      have same : registry.teamOf taskId = task.teamId := by rw [teamOf, found, Option.bind_some]
      simp only [modify, found, Option.bind_some]
      cases named : task.teamId with
      | none => exact Or.inl ⟨rfl, rfl, Or.inl (same.trans named)⟩
      | some existing =>
          rw [named] at same
          by_cases own : existing = teamId
          · subst own
            exact Or.inl ⟨by simp, by simp, Or.inr same⟩
          · refine Or.inr ⟨_, by simp only [own, if_false]; rfl, ?_⟩
            simp only [own, if_false]
            rw [← same, Function.update_eq_self]

/-- A task is taken out of that team only. -/
theorem teamOf_unassignTeam (now : Nat) (taskId teamId : String) :
    (registry.unassignTeam now taskId teamId).1.teamOf =
      if registry.teamOf taskId = some teamId then Function.update registry.teamOf taskId none
      else registry.teamOf := by
  rw [unassignTeam, teamOf_modify]
  cases found : registry.tasks taskId with
  | none =>
      have same : registry.teamOf taskId = none := by rw [teamOf, found, Option.bind_none]
      rw [Option.bind_none, if_neg (by simp [same]), ← same, Function.update_eq_self]
  | some task =>
      have same : registry.teamOf taskId = task.teamId := by rw [teamOf, found, Option.bind_some]
      simp only [Option.bind_some]
      cases named : task.teamId with
      | none =>
          have none_ : registry.teamOf taskId = none := same.trans named
          rw [if_neg (by simp [none_])]
          exact Function.update_eq_self_iff.2 none_.symm
      | some existing =>
          rw [named] at same
          by_cases own : existing = teamId
          · subst own
            simp only [if_true, same]
          · have other : some existing ≠ some teamId := fun both => own (Option.some.inj both)
            rw [same, if_neg other]
            simp only [own, if_false]
            rw [← same, Function.update_eq_self]

end TeamOf

end TaskRegistry

/-! ## Teams -/

inductive TeamStatus where
  | created
  | running
  | completed
  | deleted
  deriving DecidableEq, Repr

structure Team where
  teamId : String
  name : String
  taskIds : List String
  status : TeamStatus
  lifecycle : LifecycleStateSnapshot
  createdAt : Nat
  updatedAt : Nat
  lastError : Option String
  deriving DecidableEq, Repr

structure TeamRegistry where
  teams : String → Option Team := fun _ => none
  counter : Nat := 0

namespace TeamRegistry

variable (registry : TeamRegistry)

def create (now : Nat) (name : String) (taskIds : List String) : TeamRegistry × Team :=
  let counter := nextCounter registry.counter
  let team : Team :=
    { teamId := registryId "team" now counter
      name := name
      taskIds := taskIds
      status := .created
      lifecycle := .processLocalTeam "created"
      createdAt := now
      updatedAt := now
      lastError := none }
  (⟨Function.update registry.teams team.teamId (some team), counter⟩, team)

def get (teamId : String) : Option Team := registry.teams teamId

def delete (now : Nat) (teamId : String) : TeamRegistry × Except String Team :=
  match registry.teams teamId with
  | none => (registry, .error ("team not found: " ++ teamId))
  | some team =>
      if team.status = .deleted then
        let error := "team already deleted: " ++ teamId
        let refused : Team :=
          { team with lastError := some error, lifecycle := .processLocalTeamError "deleted" }
        ({ registry with teams := Function.update registry.teams teamId (some refused) },
          .error error)
      else
        let deleted : Team :=
          { team with
            status := .deleted
            lifecycle := .processLocalTeam "deleted"
            updatedAt := now
            lastError := none }
        ({ registry with teams := Function.update registry.teams teamId (some deleted) },
          .ok deleted)

def remove (teamId : String) : TeamRegistry × Option Team :=
  ({ registry with teams := Function.update registry.teams teamId none }, registry.teams teamId)

theorem status_delete {registry : TeamRegistry} {now : Nat} {teamId : String} {team : Team}
    (found : (registry.delete now teamId).1.get teamId = some team) : team.status = .deleted := by
  rw [delete] at found
  cases before : registry.teams teamId with
  | none =>
      rw [before] at found
      exact nomatch before.symm.trans found
  | some held =>
      by_cases deleted : held.status = .deleted
      · simp only [before, deleted, if_true, get, Function.update_self] at found
        cases found
        rfl
      · simp only [before, deleted, if_false, get, Function.update_self] at found
        cases found
        rfl

end TeamRegistry

end Openyak.Runtime
