/-
# Tools.TeamMembership -- a task names its team and the team lists it, until it is deleted

A `TeamCreate` has a team of its own from its second phase on, and only it writes the
team's id into tasks: `held` are the tasks that carry it.  That is an invariant of every
interleaving (`Invariant.step`), and once all calls have returned it is the agreement of
the two registries.

`TeamDelete` writes the team only, so its tasks go on naming it: the agreement needs
that no team with tasks is deleted (`Allowed`).
-/
import Openyak.Tools.TeamTools

namespace Openyak.Tools

open Openyak.Theory (Json Run play)
open Openyak.Runtime

set_option autoImplicit false

namespace TeamCreate

/-- The tasks that name the call's team. -/
def held : TeamCreate → List String
  | .checking .. => []
  | .assigning _ assignedTaskIds _ => assignedTaskIds
  | .rollingBack _ remaining _ => remaining
  | .returned (some team) (.ok _) => team.taskIds
  | .returned .. => []

/-- The call's team is in the registry. -/
def Stands : TeamCreate → Prop
  | .returned _ (.error _) => False
  | _ => True

/-- The ids are apart, and those assigned are a part of them. -/
def Planned : TeamCreate → Prop
  | .checking _ taskIds _ => taskIds.Nodup
  | .assigning team assignedTaskIds remaining =>
      team.taskIds = assignedTaskIds ++ remaining ∧ team.taskIds.Nodup
  | .rollingBack _ remaining _ => remaining.Nodup
  | .returned .. => True

end TeamCreate

namespace TeamTools

/-! ## The agreement -/

/-- A task names a team exactly when the team is there, is not deleted, and lists it; and
no two such teams list the same task. -/
structure Consistent (tools : TeamTools) : Prop where
  agree : ∀ taskId teamId, tools.tasks.teamOf taskId = some teamId ↔
    ∃ team, tools.teams.get teamId = some team ∧ team.status ≠ .deleted ∧ taskId ∈ team.taskIds
  apart : ∀ taskId teamId teamId' team team',
    tools.teams.get teamId = some team → team.status ≠ .deleted → taskId ∈ team.taskIds →
    tools.teams.get teamId' = some team' → team'.status ≠ .deleted → taskId ∈ team'.taskIds →
    teamId = teamId'

/-- What a call that returned an error made is gone. -/
def ErrorsLeaveNothing (tools : TeamTools) : Prop :=
  ∀ call team error, tools.calls call = some (.returned (some team) (.error error)) →
    tools.teams.get team.teamId = none ∧ ∀ taskId, tools.tasks.teamOf taskId ≠ some team.teamId

/-- A step changes the team of a task only from none to the team of the call that takes
it, or back. -/
def ChangesOwn (tools : TeamTools) (action : ToolAction) (next : TeamTools) : Prop :=
  ∀ taskId, next.tasks.teamOf taskId ≠ tools.tasks.teamOf taskId →
    ∃ now call state team, action = .advance now call ∧ next.calls call = some state ∧
      state.team? = some team ∧
      ((tools.tasks.teamOf taskId = none ∧ next.tasks.teamOf taskId = some team.teamId) ∨
        (tools.tasks.teamOf taskId = some team.teamId ∧ next.tasks.teamOf taskId = none))

/-- No team that lists a task is deleted, and the counters stay below the greatest
`u64`. -/
def Allowed (tools : TeamTools) : ToolAction → Prop
  | .teamDelete _ teamId => ∀ team, tools.teams.get teamId = some team →
      team.status ≠ .deleted → team.taskIds = []
  | .taskCreate .. => tools.tasks.counter + 1 < 2 ^ 64
  | .advance _ call => ∀ name taskIds, tools.calls call = some (.checking name taskIds []) →
      tools.teams.counter + 1 < 2 ^ 64
  | _ => True

/-! ## The invariant -/

/-- A call has made a team. -/
def Made (tools : TeamTools) (call : Nat) (state : TeamCreate) (team : Team) : Prop :=
  tools.calls call = some state ∧ state.team? = some team

/-- Kept under its id, its tasks as they were, deleted only without any. -/
def Keeps (teams : TeamRegistry) (team : Team) : Prop :=
  ∃ stored, teams.get team.teamId = some stored ∧ stored.taskIds = team.taskIds ∧
    (stored.status = .deleted → stored.taskIds = [])

structure Invariant (tools : TeamTools) : Prop where
  owns : ∀ {call state team}, tools.Made call state team →
    ∀ taskId, tools.tasks.teamOf taskId = some team.teamId ↔ taskId ∈ state.held
  stored : ∀ {call state team}, tools.Made call state team → state.Stands → Keeps tools.teams team
  removed : ∀ {call state team}, tools.Made call state team → ¬state.Stands →
    tools.teams.get team.teamId = none
  planned : ∀ {call state}, tools.calls call = some state → state.Planned
  named : ∀ {taskId teamId}, tools.tasks.teamOf taskId = some teamId →
    ∃ call state team, tools.Made call state team ∧ team.teamId = teamId
  registered : ∀ {teamId stored}, tools.teams.get teamId = some stored →
    ∃ call state team, tools.Made call state team ∧ team.teamId = teamId
  apart : ∀ {call call' state state' team team'}, tools.Made call state team →
    tools.Made call' state' team' → team.teamId = team'.teamId → call = call'
  teamIds : ∀ {call state team}, tools.Made call state team →
    ∃ now counter, counter ≤ tools.teams.counter ∧ team.teamId = registryId "team" now counter
  taskIds : ∀ {taskId task}, tools.tasks.get taskId = some task →
    ∃ now counter, counter ≤ tools.tasks.counter ∧ taskId = registryId "task" now counter

theorem Invariant.initial : Invariant {} where
  owns made := nomatch made.1
  stored made := nomatch made.1
  removed made := nomatch made.1
  planned found := nomatch found
  named found := nomatch found
  registered found := nomatch found
  apart made := nomatch made.1
  teamIds made := nomatch made.1
  taskIds found := nomatch found

section Invariant

variable {tools next : TeamTools}

/-- The agreement, once every call has returned. -/
theorem Invariant.consistent (inv : Invariant tools) (quiescent : tools.Quiescent) :
    Consistent tools := by
  have agree : ∀ taskId teamId, tools.tasks.teamOf taskId = some teamId ↔
      ∃ team, tools.teams.get teamId = some team ∧ team.status ≠ .deleted ∧
        taskId ∈ team.taskIds := by
    intro taskId teamId
    constructor
    · intro named
      obtain ⟨call, state, team, made, rfl⟩ := inv.named named
      have isHeld := (inv.owns made taskId).1 named
      have returned := quiescent call state made.1
      cases state with
      | checking name taskIds remaining => exact nomatch returned
      | assigning team assignedTaskIds remaining => exact nomatch returned
      | rollingBack team remaining error => exact nomatch returned
      | returned team' result =>
          obtain rfl : team' = some team := made.2
          cases result with
          | error error => exact nomatch isHeld
          | ok answer =>
              obtain ⟨stored, found, same, alive⟩ := inv.stored made trivial
              have listed : taskId ∈ stored.taskIds := same ▸ isHeld
              exact ⟨stored, found, fun deleted => List.ne_nil_of_mem listed (alive deleted), listed⟩
    · rintro ⟨stored, found, -, listed⟩
      obtain ⟨call, state, team, made, rfl⟩ := inv.registered found
      have returned := quiescent call state made.1
      cases state with
      | checking name taskIds remaining => exact nomatch returned
      | assigning team assignedTaskIds remaining => exact nomatch returned
      | rollingBack team remaining error => exact nomatch returned
      | returned team' result =>
          obtain rfl : team' = some team := made.2
          cases result with
          | error error =>
              have gone := inv.removed made id
              rw [found] at gone
              exact nomatch gone
          | ok answer =>
              obtain ⟨stored', found', same, -⟩ := inv.stored made trivial
              obtain rfl : stored = stored' := Option.some.inj (found.symm.trans found')
              have isHeld : taskId ∈ team.taskIds := same ▸ listed
              exact (inv.owns made taskId).2 isHeld
  refine ⟨agree, fun taskId teamId teamId' team team' found alive listed found' alive' listed' => ?_⟩
  have first := (agree taskId teamId).2 ⟨team, found, alive, listed⟩
  have second := (agree taskId teamId').2 ⟨team', found', alive', listed'⟩
  exact Option.some.inj (first.symm.trans second)

theorem Invariant.errorsLeaveNothing (inv : Invariant tools) : ErrorsLeaveNothing tools := by
  intro call team error returned
  have made : tools.Made call (.returned (some team) (.error error)) team := ⟨returned, rfl⟩
  exact ⟨inv.removed made id, fun taskId named => nomatch (inv.owns made taskId).1 named⟩

/-! ## Steps that make no team -/

/-- The registries change, but no task names another team and no team lists others. -/
theorem Invariant.of_registries (inv : Invariant tools) (calls : next.calls = tools.calls)
    (teamOf : next.tasks.teamOf = tools.tasks.teamOf)
    (keeps : ∀ team, Keeps tools.teams team → Keeps next.teams team)
    (gone : ∀ teamId, next.teams.get teamId = none ↔ tools.teams.get teamId = none)
    (counter : next.teams.counter = tools.teams.counter)
    (taskIds : ∀ {taskId task}, next.tasks.get taskId = some task →
      ∃ now counter, counter ≤ next.tasks.counter ∧ taskId = registryId "task" now counter) :
    Invariant next := by
  have made : ∀ {call state team}, next.Made call state team → tools.Made call state team := by
    rintro call state team ⟨found, isTeam⟩
    exact ⟨calls ▸ found, isTeam⟩
  have madeBack : ∀ {call state team}, tools.Made call state team → next.Made call state team := by
    rintro call state team ⟨found, isTeam⟩
    exact ⟨calls ▸ found, isTeam⟩
  constructor
  · intro call state team isMade taskId
    rw [teamOf]
    exact inv.owns (made isMade) taskId
  · intro call state team isMade stands
    exact keeps team (inv.stored (made isMade) stands)
  · intro call state team isMade fallen
    exact (gone _).2 (inv.removed (made isMade) fallen)
  · intro call state found
    rw [calls] at found
    exact inv.planned found
  · intro taskId teamId named
    rw [teamOf] at named
    obtain ⟨call, state, team, isMade, same⟩ := inv.named named
    exact ⟨call, state, team, madeBack isMade, same⟩
  · intro teamId stored found
    cases before : tools.teams.get teamId with
    | none =>
        rw [(gone teamId).2 before] at found
        exact nomatch found
    | some team =>
        obtain ⟨call, state, team, isMade, same⟩ := inv.registered before
        exact ⟨call, state, team, madeBack isMade, same⟩
  · intro call call' state state' team team' first second same
    exact inv.apart (made first) (made second) same
  · intro call state team isMade
    rw [counter]
    exact inv.teamIds (made isMade)
  · exact taskIds

/-- Tasks alone, and none of them in another team. -/
theorem Invariant.of_tasks (inv : Invariant tools) {tasks : TaskRegistry}
    (teamOf : tasks.teamOf = tools.tasks.teamOf)
    (taskIds : ∀ {taskId task}, tasks.get taskId = some task →
      ∃ now counter, counter ≤ tasks.counter ∧ taskId = registryId "task" now counter) :
    Invariant { tools with tasks := tasks } :=
  inv.of_registries rfl teamOf (fun _ kept => kept) (fun _ => Iff.rfl) rfl taskIds

/-- A call without a team goes on to a place where it has none. -/
theorem Invariant.setTeamless (inv : Invariant tools) {call : Nat} {state : TeamCreate}
    (before : ∀ state, tools.calls call = some state → state.team? = none)
    (none_ : state.team? = none) (planned : state.Planned) :
    Invariant (tools.setCall call state) := by
  have made : ∀ {other found team}, (tools.setCall call state).Made other found team →
      tools.Made other found team := by
    rintro other found team ⟨isFound, isTeam⟩
    by_cases here : other = call
    · subst here
      simp only [setCall, Function.update_self] at isFound
      cases isFound
      rw [none_] at isTeam
      exact nomatch isTeam
    · simp only [setCall, Function.update_of_ne here] at isFound
      exact ⟨isFound, isTeam⟩
  have madeBack : ∀ {other found team}, tools.Made other found team →
      (tools.setCall call state).Made other found team := by
    rintro other found team ⟨isFound, isTeam⟩
    have apart : other ≠ call := by
      rintro rfl
      rw [before found isFound] at isTeam
      exact nomatch isTeam
    exact ⟨by simp only [setCall, Function.update_of_ne apart, isFound], isTeam⟩
  constructor
  · intro other found team isMade
    exact inv.owns (made isMade)
  · intro other found team isMade
    exact inv.stored (made isMade)
  · intro other found team isMade
    exact inv.removed (made isMade)
  · intro other found isFound
    by_cases here : other = call
    · subst here
      simp only [setCall, Function.update_self] at isFound
      cases isFound
      exact planned
    · simp only [setCall, Function.update_of_ne here] at isFound
      exact inv.planned isFound
  · intro taskId teamId named
    obtain ⟨other, found, team, isMade, same⟩ := inv.named named
    exact ⟨other, found, team, madeBack isMade, same⟩
  · intro teamId stored isStored
    obtain ⟨other, found, team, isMade, same⟩ := inv.registered isStored
    exact ⟨other, found, team, madeBack isMade, same⟩
  · intro other other' found found' team team' first second
    exact inv.apart (made first) (made second)
  · intro other found team isMade
    exact inv.teamIds (made isMade)
  · intro taskId task isTask
    exact inv.taskIds isTask

/-! ## Steps of a call that has a team -/

/-- What a call may do once it has a team: to what names that team and what is kept under
its id, and to nothing else. -/
structure Moves (tools : TeamTools) (call : Nat) (team : Team) (state : TeamCreate)
    (next : TeamTools) : Prop where
  calls : next.calls = Function.update tools.calls call (some state)
  team? : state.team? = some team
  planned : state.Planned
  owns : ∀ taskId, next.tasks.teamOf taskId = some team.teamId ↔ taskId ∈ state.held
  frame : ∀ taskId teamId, teamId ≠ team.teamId →
    (next.tasks.teamOf taskId = some teamId ↔ tools.tasks.teamOf taskId = some teamId)
  stored : state.Stands → Keeps next.teams team
  removed : ¬state.Stands → next.teams.get team.teamId = none
  teamsFrame : ∀ teamId, teamId ≠ team.teamId → next.teams.get teamId = tools.teams.get teamId
  teamCounter : tools.teams.counter ≤ next.teams.counter
  teamId : ∃ now counter, counter ≤ next.teams.counter ∧ team.teamId = registryId "team" now counter
  taskIds : ∀ {taskId task}, next.tasks.get taskId = some task →
    ∃ now counter, counter ≤ next.tasks.counter ∧ taskId = registryId "task" now counter

/-- The call's team is not that of another call: it has it already, or the id is new. -/
theorem Invariant.moves (inv : Invariant tools) {call : Nat} {team : Team} {state : TeamCreate}
    (moves : Moves tools call team state next)
    (own : ∀ {other found team'}, tools.Made other found team' →
      other ≠ call → team'.teamId ≠ team.teamId)
    (sole : ∀ {found team'}, tools.Made call found team' → team'.teamId = team.teamId) :
    Invariant next := by
  have here : next.Made call state team :=
    ⟨by rw [moves.calls, Function.update_self], moves.team?⟩
  have made : ∀ {other found team'}, next.Made other found team' →
      (other = call ∧ found = state ∧ team' = team) ∨
        (other ≠ call ∧ tools.Made other found team') := by
    rintro other found team' ⟨isFound, isTeam⟩
    by_cases same : other = call
    · rw [moves.calls, same, Function.update_self] at isFound
      cases isFound
      rw [moves.team?] at isTeam
      exact Or.inl ⟨same, rfl, (Option.some.inj isTeam).symm⟩
    · rw [moves.calls, Function.update_of_ne same] at isFound
      exact Or.inr ⟨same, isFound, isTeam⟩
  have madeBack : ∀ {other found team'}, tools.Made other found team' →
      ∃ found team'', next.Made other found team'' ∧ team''.teamId = team'.teamId := by
    intro other found team' isMade
    by_cases same : other = call
    · subst same
      exact ⟨state, team, here, (sole isMade).symm⟩
    · exact ⟨found, team', ⟨by rw [moves.calls, Function.update_of_ne same, isMade.1], isMade.2⟩, rfl⟩
  constructor
  · intro other found team' isMade taskId
    rcases made isMade with ⟨rfl, rfl, rfl⟩ | ⟨apart, before⟩
    · exact moves.owns taskId
    · rw [moves.frame taskId _ (own before apart)]
      exact inv.owns before taskId
  · intro other found team' isMade stands
    rcases made isMade with ⟨rfl, rfl, rfl⟩ | ⟨apart, before⟩
    · exact moves.stored stands
    · obtain ⟨stored, isStored, rest⟩ := inv.stored before stands
      exact ⟨stored, by rw [moves.teamsFrame _ (own before apart), isStored], rest⟩
  · intro other found team' isMade fallen
    rcases made isMade with ⟨rfl, rfl, rfl⟩ | ⟨apart, before⟩
    · exact moves.removed fallen
    · rw [moves.teamsFrame _ (own before apart)]
      exact inv.removed before fallen
  · intro other found isFound
    by_cases same : other = call
    · rw [moves.calls, same, Function.update_self] at isFound
      cases isFound
      exact moves.planned
    · rw [moves.calls, Function.update_of_ne same] at isFound
      exact inv.planned isFound
  · intro taskId teamId named
    by_cases same : teamId = team.teamId
    · exact ⟨call, state, team, here, same.symm⟩
    · obtain ⟨other, found, team', isMade, rfl⟩ := inv.named ((moves.frame taskId _ same).1 named)
      obtain ⟨found, team'', isMade, same⟩ := madeBack isMade
      exact ⟨other, found, team'', isMade, same⟩
  · intro teamId stored isStored
    by_cases same : teamId = team.teamId
    · exact ⟨call, state, team, here, same.symm⟩
    · rw [moves.teamsFrame _ same] at isStored
      obtain ⟨other, found, team', isMade, rfl⟩ := inv.registered isStored
      obtain ⟨found, team'', isMade, same⟩ := madeBack isMade
      exact ⟨other, found, team'', isMade, same⟩
  · intro other other' found found' team' team'' first second same
    rcases made first with ⟨rfl, rfl, rfl⟩ | ⟨apart, before⟩
    · rcases made second with ⟨rfl, rfl, rfl⟩ | ⟨apart', before'⟩
      · rfl
      · exact absurd same.symm (own before' apart')
    · rcases made second with ⟨rfl, rfl, rfl⟩ | ⟨apart', before'⟩
      · exact absurd same (own before apart)
      · exact inv.apart before before' same
  · intro other found team' isMade
    rcases made isMade with ⟨rfl, rfl, rfl⟩ | ⟨apart, before⟩
    · exact moves.teamId
    · obtain ⟨now, counter, bound, isId⟩ := inv.teamIds before
      exact ⟨now, counter, bound.trans moves.teamCounter, isId⟩
  · intro taskId task isTask
    exact moves.taskIds isTask

/-! ## Every step -/

theorem nodup_extractTeamTaskIds {index : Nat} {seen taskIds : List String} {tasks : List Json}
    (extracted : extractTeamTaskIdsFrom index seen tasks = .ok taskIds) (apart : seen.Nodup) :
    taskIds.Nodup := by
  induction tasks generalizing index seen with
  | nil =>
      cases extracted
      exact apart
  | cons task tasks ih =>
      rw [extractTeamTaskIdsFrom] at extracted
      split at extracted
      · exact nomatch extracted
      · rename_i taskId _
        split at extracted
        · exact nomatch extracted
        · split at extracted
          · exact nomatch extracted
          · rename_i fresh
            refine ih extracted (List.nodup_append.2 ⟨apart, by simp, ?_⟩)
            intro other member new isNew same
            rw [List.mem_singleton.1 isNew] at same
            exact fresh (same ▸ member)

theorem planned_start (name : String) (tasks : List Json) : (TeamCreate.start name tasks).Planned := by
  rw [TeamCreate.start]
  cases extracted : extractTeamTaskIds tasks with
  | error error => trivial
  | ok taskIds => exact nodup_extractTeamTaskIds extracted List.nodup_nil

theorem team?_start (name : String) (tasks : List Json) :
    (TeamCreate.start name tasks).team? = none := by
  rw [TeamCreate.start]
  cases extractTeamTaskIds tasks <;> rfl

/-- The ids of the tasks are old ones, after a task has been written too. -/
theorem Invariant.taskIds_modify (inv : Invariant tools) {α : Type} {taskId : String}
    {change : Task → Task × Except String α} {other : String} {task : Task}
    (found : (tools.tasks.modify taskId change).1.get other = some task) :
    ∃ now counter, counter ≤ (tools.tasks.modify taskId change).1.counter ∧
      other = registryId "task" now counter := by
  obtain ⟨before, isBefore⟩ := TaskRegistry.get_modify found
  rw [TaskRegistry.counter_modify]
  exact inv.taskIds isBefore

theorem Invariant.taskCreate (inv : Invariant tools) {now : Nat} {prompt : String}
    {description : Option String} (fits : tools.tasks.counter + 1 < 2 ^ 64) :
    (tools.tasks.create now prompt description).1.teamOf = tools.tasks.teamOf ∧
      Invariant { tools with tasks := (tools.tasks.create now prompt description).1 } := by
  have isNext : nextCounter tools.tasks.counter = tools.tasks.counter + 1 := Nat.mod_eq_of_lt fits
  have fresh : tools.tasks.teamOf (registryId "task" now (nextCounter tools.tasks.counter)) = none := by
    rw [TaskRegistry.teamOf]
    cases found : tools.tasks.tasks (registryId "task" now (nextCounter tools.tasks.counter)) with
    | none => rfl
    | some task =>
        obtain ⟨then_, counter, bound, same⟩ := inv.taskIds found
        have isCounter := registryId_counter same
        omega
  have teamOf : (tools.tasks.create now prompt description).1.teamOf = tools.tasks.teamOf := by
    rw [TaskRegistry.teamOf_create, ← fresh, Function.update_eq_self]
  refine ⟨teamOf, inv.of_tasks teamOf ?_⟩
  intro taskId task found
  have counter : (tools.tasks.create now prompt description).1.counter =
      nextCounter tools.tasks.counter := rfl
  rcases TaskRegistry.get_create found with rfl | before
  · exact ⟨now, _, counter ▸ Nat.le_refl _, rfl⟩
  · obtain ⟨then_, old, bound, isId⟩ := inv.taskIds before
    exact ⟨then_, old, by omega, isId⟩

/-- Deleting writes the status alone, and of a team without tasks. -/
theorem Invariant.teamDelete (inv : Invariant tools) {now : Nat} {teamId : String}
    (empty : ∀ team, tools.teams.get teamId = some team → team.status ≠ .deleted →
      team.taskIds = []) :
    Invariant { tools with teams := (tools.teams.delete now teamId).1 } := by
  cases found : tools.teams.teams teamId with
  | none =>
      have same : (tools.teams.delete now teamId).1 = tools.teams := by
        rw [TeamRegistry.delete, found]
      rw [same]
      exact inv
  | some team =>
      obtain ⟨written, teams, taskIds, deletes⟩ : ∃ written : Team,
          (tools.teams.delete now teamId).1 =
            { tools.teams with teams := Function.update tools.teams.teams teamId (some written) } ∧
          written.taskIds = team.taskIds ∧ (written.status = .deleted → team.taskIds = [] ∨
            team.status = .deleted) := by
        by_cases deleted : team.status = .deleted
        · refine ⟨{ team with
            lastError := some ("team already deleted: " ++ teamId)
            lifecycle := .processLocalTeamError "deleted" }, ?_, rfl, fun _ => Or.inr deleted⟩
          simp only [TeamRegistry.delete, found, deleted, if_true]
        · refine ⟨{ team with
            status := .deleted
            lifecycle := .processLocalTeam "deleted"
            updatedAt := now
            lastError := none }, ?_, rfl, fun _ => Or.inl (empty team found deleted)⟩
          simp only [TeamRegistry.delete, found, deleted, if_false]
      rw [teams]
      refine inv.of_registries rfl rfl ?_ ?_ rfl fun isTask => inv.taskIds isTask
      · rintro kept ⟨stored, isStored, same, alive⟩
        by_cases here : kept.teamId = teamId
        · refine ⟨written, by simp [TeamRegistry.get, here], ?_, fun deleted => ?_⟩
          · rw [here] at isStored
            obtain rfl : team = stored := Option.some.inj (found.symm.trans isStored)
            rw [taskIds, same]
          · rw [here] at isStored
            obtain rfl : team = stored := Option.some.inj (found.symm.trans isStored)
            rw [taskIds]
            exact (deletes deleted).elim id alive
        · exact ⟨stored, by simpa [TeamRegistry.get, here] using isStored, same, alive⟩
      · intro other
        by_cases here : other = teamId
        · simp [TeamRegistry.get, here, found]
        · simp [TeamRegistry.get, here]

theorem changesOwn_of_same {action : ToolAction}
    (same : next.tasks.teamOf = tools.tasks.teamOf) : ChangesOwn tools action next := by
  intro taskId changed
  rw [same] at changed
  exact absurd rfl changed

/-- A call that has a team moves with it. -/
theorem Invariant.moves_made (inv : Invariant tools) {call : Nat} {team : Team}
    {before state : TeamCreate} (made : tools.Made call before team)
    (moves : Moves tools call team state next) : Invariant next := by
  refine inv.moves moves ?_ ?_
  · intro other found team' isMade apart same
    exact apart (inv.apart isMade made same)
  · intro found team' isMade
    have isBefore : found = before := Option.some.inj (isMade.1.symm.trans made.1)
    have isTeam := isMade.2
    rw [isBefore, made.2] at isTeam
    exact congrArg Team.teamId (Option.some.inj isTeam).symm

/-- The call checks a task, and has no team before and after. -/
theorem Invariant.check (inv : Invariant tools) {now call : Nat} {name taskId : String}
    {taskIds remaining : List String}
    (found : tools.calls call = some (.checking name taskIds (taskId :: remaining)))
    (steps : tools.advance now call (.checking name taskIds (taskId :: remaining)) = some next) :
    Invariant next ∧ next.tasks = tools.tasks := by
  have before : ∀ state, tools.calls call = some state → state.team? = none := by
    intro state isState
    cases found.symm.trans isState
    rfl
  have planned := inv.planned found
  cases steps
  refine ⟨inv.setTeamless before ?_ ?_, rfl⟩
  all_goals
    cases tools.tasks.get taskId with
    | none => first | rfl | trivial
    | some task =>
        cases named : task.teamId with
        | none => simp only [named]; first | rfl | exact planned
        | some existing => simp only [named]; first | rfl | trivial

/-- The call makes its team, under a new id. -/
theorem Invariant.make (inv : Invariant tools) {now call : Nat} {name : String}
    {taskIds : List String} (found : tools.calls call = some (.checking name taskIds []))
    (fits : tools.teams.counter + 1 < 2 ^ 64)
    (steps : tools.advance now call (.checking name taskIds []) = some next) :
    Invariant next ∧ next.tasks = tools.tasks := by
  have isNext : nextCounter tools.teams.counter = tools.teams.counter + 1 := Nat.mod_eq_of_lt fits
  have fresh : ∀ {other found team}, tools.Made other found team →
      team.teamId ≠ registryId "team" now (nextCounter tools.teams.counter) := by
    intro other found team isMade same
    obtain ⟨then_, counter, bound, isId⟩ := inv.teamIds isMade
    have isCounter := registryId_counter (isId.symm.trans same)
    omega
  cases steps
  have moves : Moves tools call (tools.teams.create now name taskIds).2
      (.assigning (tools.teams.create now name taskIds).2 [] taskIds)
      ({ tools with teams := (tools.teams.create now name taskIds).1 }.setCall call
        (.assigning (tools.teams.create now name taskIds).2 [] taskIds)) := by
    refine ⟨rfl, rfl, ⟨rfl, inv.planned found⟩, ?_, fun _ _ _ => Iff.rfl, fun _ => ?_,
      fun fallen => absurd trivial fallen, ?_, ?_, ⟨now, _, Nat.le_refl _, rfl⟩,
      fun isTask => inv.taskIds isTask⟩
    · intro taskId
      constructor
      · intro named
        obtain ⟨other, state, team, isMade, same⟩ := inv.named named
        exact absurd same (fresh isMade)
      · exact fun none => nomatch none
    · refine ⟨(tools.teams.create now name taskIds).2, Function.update_self .., rfl, ?_⟩
      exact fun deleted => nomatch deleted
    · intro teamId other
      exact Function.update_of_ne other ..
    · show tools.teams.counter ≤ nextCounter tools.teams.counter
      omega
  refine ⟨inv.moves moves (fun isMade _ => fresh isMade) fun isMade => ?_, rfl⟩
  cases found.symm.trans isMade.1
  exact nomatch isMade.2

theorem advance_assigned {now call : Nat} {team : Team} {taskId : String}
    {assigned remaining : List String}
    (isOk : (tools.tasks.assignTeam now taskId team.teamId).2 = .ok ()) :
    tools.advance now call (.assigning team assigned (taskId :: remaining)) =
      some ({ tools with tasks := (tools.tasks.assignTeam now taskId team.teamId).1 }.setCall call
        (.assigning team (assigned ++ [taskId]) remaining)) := by
  simp only [advance, isOk]

theorem advance_refused {now call : Nat} {team : Team} {taskId error : String}
    {assigned remaining : List String}
    (isError : (tools.tasks.assignTeam now taskId team.teamId).2 = .error error) :
    tools.advance now call (.assigning team assigned (taskId :: remaining)) =
      some ({ tools with tasks := (tools.tasks.assignTeam now taskId team.teamId).1 }.setCall call
        (.rollingBack team assigned error)) := by
  simp only [advance, isError]

/-- The call assigns a task, or begins to roll back. -/
theorem Invariant.assign (inv : Invariant tools) {now call : Nat} {team : Team} {taskId : String}
    {assigned remaining : List String}
    (found : tools.calls call = some (.assigning team assigned (taskId :: remaining)))
    (steps : tools.advance now call (.assigning team assigned (taskId :: remaining)) = some next) :
    Invariant next ∧ ChangesOwn tools (.advance now call) next := by
  have made : tools.Made call (.assigning team assigned (taskId :: remaining)) team := ⟨found, rfl⟩
  obtain ⟨parts, nodup⟩ := inv.planned found
  have outcome := @TaskRegistry.assignTeam_cases tools.tasks now taskId team.teamId
  rcases outcome with ⟨isOk, teamOf, before⟩ | ⟨error, isError, teamOf⟩
  · rw [advance_assigned isOk] at steps
    cases steps
    constructor
    · refine inv.moves_made made ⟨rfl, rfl, ⟨by simpa using parts, nodup⟩, ?_, ?_,
        fun _ => inv.stored made trivial, fun fallen => absurd trivial fallen, fun _ _ => rfl,
        Nat.le_refl _, inv.teamIds made, fun isTask => inv.taskIds_modify isTask⟩
      · intro other
        show (tools.tasks.assignTeam now taskId team.teamId).1.teamOf other = _ ↔ _
        rw [teamOf]
        by_cases here : other = taskId
        · simp [here, TeamCreate.held]
        · rw [Function.update_of_ne here, inv.owns made other]
          simp [here, TeamCreate.held]
      · intro other teamId apart
        show (tools.tasks.assignTeam now taskId team.teamId).1.teamOf other = _ ↔ _
        rw [teamOf]
        by_cases here : other = taskId
        · rw [here, Function.update_self]
          rcases before with none_ | own <;> simp_all [Ne.symm apart]
        · rw [Function.update_of_ne here]
    · intro other changed
      change (tools.tasks.assignTeam now taskId team.teamId).1.teamOf other ≠ _ at changed
      rw [teamOf] at changed
      by_cases here : other = taskId
      · subst here
        rw [Function.update_self] at changed
        refine ⟨now, call, _, team, rfl, Function.update_self .., rfl, Or.inl ⟨?_, ?_⟩⟩
        · exact before.resolve_right fun own => changed own.symm
        · show (tools.tasks.assignTeam now other team.teamId).1.teamOf other = _
          rw [teamOf, Function.update_self]
      · exact absurd (Function.update_of_ne here ..) changed
  · rw [advance_refused isError] at steps
    cases steps
    refine ⟨?_, changesOwn_of_same teamOf⟩
    have assignedNodup : assigned.Nodup := (List.nodup_append.1 (parts ▸ nodup)).1
    refine inv.moves_made made ⟨rfl, rfl, assignedNodup, ?_, ?_, fun _ => inv.stored made trivial,
      fun fallen => absurd trivial fallen, fun _ _ => rfl, Nat.le_refl _, inv.teamIds made,
      fun isTask => inv.taskIds_modify isTask⟩
    · intro other
      show (tools.tasks.assignTeam now taskId team.teamId).1.teamOf other = _ ↔ _
      rw [teamOf]
      exact inv.owns made other
    · intro other teamId apart
      show (tools.tasks.assignTeam now taskId team.teamId).1.teamOf other = _ ↔ _
      rw [teamOf]

/-- All tasks are assigned: the call returns its team. -/
theorem Invariant.finish (inv : Invariant tools) {now call : Nat} {team : Team}
    {assigned : List String} (found : tools.calls call = some (.assigning team assigned []))
    (steps : tools.advance now call (.assigning team assigned []) = some next) :
    Invariant next ∧ next.tasks = tools.tasks := by
  have made : tools.Made call (.assigning team assigned []) team := ⟨found, rfl⟩
  obtain ⟨parts, nodup⟩ := inv.planned found
  cases steps
  refine ⟨inv.moves_made made ⟨rfl, rfl, trivial, ?_, fun _ _ _ => Iff.rfl,
    fun _ => inv.stored made trivial, fun fallen => absurd trivial fallen, fun _ _ => rfl,
    Nat.le_refl _, inv.teamIds made, fun isTask => inv.taskIds isTask⟩, rfl⟩
  intro taskId
  have isHeld : taskId ∈ team.taskIds ↔ taskId ∈ assigned := by rw [parts, List.append_nil]
  exact (inv.owns made taskId).trans isHeld.symm

/-- The call takes a task out of its team again. -/
theorem Invariant.rollBack (inv : Invariant tools) {now call : Nat} {team : Team}
    {taskId error : String} {remaining : List String}
    (found : tools.calls call = some (.rollingBack team (taskId :: remaining) error))
    (steps : tools.advance now call (.rollingBack team (taskId :: remaining) error) = some next) :
    Invariant next ∧ ChangesOwn tools (.advance now call) next := by
  have made : tools.Made call (.rollingBack team (taskId :: remaining) error) team := ⟨found, rfl⟩
  have nodup : (taskId :: remaining).Nodup := inv.planned found
  have named : tools.tasks.teamOf taskId = some team.teamId :=
    (inv.owns made taskId).2 List.mem_cons_self
  have teamOf : (tools.tasks.unassignTeam now taskId team.teamId).1.teamOf =
      Function.update tools.tasks.teamOf taskId none := by
    rw [TaskRegistry.teamOf_unassignTeam, if_pos named]
  cases steps
  constructor
  · refine inv.moves_made made ⟨rfl, rfl, (List.nodup_cons.1 nodup).2, ?_, ?_,
      fun _ => inv.stored made trivial, fun fallen => absurd trivial fallen, fun _ _ => rfl,
      Nat.le_refl _, inv.teamIds made, fun isTask => inv.taskIds_modify isTask⟩
    · intro other
      show (tools.tasks.unassignTeam now taskId team.teamId).1.teamOf other = _ ↔ _
      rw [teamOf]
      by_cases here : other = taskId
      · rw [here, Function.update_self]
        exact ⟨nofun, fun member => absurd member (List.nodup_cons.1 nodup).1⟩
      · rw [Function.update_of_ne here, inv.owns made other]
        simp [here, TeamCreate.held]
    · intro other teamId apart
      show (tools.tasks.unassignTeam now taskId team.teamId).1.teamOf other = _ ↔ _
      rw [teamOf]
      by_cases here : other = taskId
      · rw [here, Function.update_self, named]
        simp [Ne.symm apart]
      · rw [Function.update_of_ne here]
  · intro other changed
    change (tools.tasks.unassignTeam now taskId team.teamId).1.teamOf other ≠ _ at changed
    rw [teamOf] at changed
    by_cases here : other = taskId
    · subst here
      refine ⟨now, call, _, team, rfl, Function.update_self .., rfl, Or.inr ⟨named, ?_⟩⟩
      show (tools.tasks.unassignTeam now other team.teamId).1.teamOf other = _
      rw [teamOf, Function.update_self]
    · exact absurd (Function.update_of_ne here ..) changed

/-- Nothing is assigned any more: the team goes, and the call returns its error. -/
theorem Invariant.remove (inv : Invariant tools) {now call : Nat} {team : Team} {error : String}
    (found : tools.calls call = some (.rollingBack team [] error))
    (steps : tools.advance now call (.rollingBack team [] error) = some next) :
    Invariant next ∧ next.tasks = tools.tasks := by
  have made : tools.Made call (.rollingBack team [] error) team := ⟨found, rfl⟩
  have none_ : ∀ taskId, tools.tasks.teamOf taskId = some team.teamId ↔ taskId ∈ ([] : List String) :=
    inv.owns made
  cases steps
  refine ⟨inv.moves_made made ⟨rfl, rfl, trivial, none_, fun _ _ _ => Iff.rfl,
    fun stands => absurd stands id, fun _ => Function.update_self .., fun teamId apart => ?_,
    Nat.le_refl _, inv.teamIds made, fun isTask => inv.taskIds isTask⟩, rfl⟩
  exact Function.update_of_ne apart ..

/-- A step of a call that is under way. -/
theorem Invariant.advance (inv : Invariant tools) {now call : Nat} {state : TeamCreate}
    (found : tools.calls call = some state)
    (fits : ∀ name taskIds, state = .checking name taskIds [] → tools.teams.counter + 1 < 2 ^ 64)
    (steps : tools.advance now call state = some next) :
    Invariant next ∧ ChangesOwn tools (.advance now call) next := by
  have unchanged : Invariant next ∧ next.tasks = tools.tasks →
      Invariant next ∧ ChangesOwn tools (.advance now call) next := by
    rintro ⟨kept, same⟩
    exact ⟨kept, changesOwn_of_same (congrArg TaskRegistry.teamOf same)⟩
  cases state with
  | checking name taskIds remaining =>
      cases remaining with
      | nil => exact unchanged (inv.make found (fits name taskIds rfl) steps)
      | cons taskId remaining => exact unchanged (inv.check found steps)
  | assigning team assigned remaining =>
      cases remaining with
      | nil => exact unchanged (inv.finish found steps)
      | cons taskId remaining => exact inv.assign found steps
  | rollingBack team remaining error =>
      cases remaining with
      | nil => exact unchanged (inv.remove found steps)
      | cons taskId remaining => exact inv.rollBack found steps
  | returned team result => exact nomatch steps

/-- **Every allowed step of every tool keeps the registries together**, and changes only
the team of tasks of the call that takes it. -/
theorem Invariant.step (inv : Invariant tools) {action : ToolAction}
    (allowed : Allowed tools action) (steps : tools.step action = some next) :
    Invariant next ∧ ChangesOwn tools action next := by
  cases action with
  | taskCreate now prompt description =>
      cases steps
      obtain ⟨teamOf, kept⟩ := inv.taskCreate allowed
      exact ⟨kept, changesOwn_of_same teamOf⟩
  | taskStop now taskId =>
      cases steps
      have teamOf := @TaskRegistry.teamOf_stop tools.tasks now taskId
      exact ⟨inv.of_tasks teamOf fun isTask => inv.taskIds_modify isTask, changesOwn_of_same teamOf⟩
  | taskUpdate now taskId message =>
      cases steps
      have teamOf := @TaskRegistry.teamOf_update tools.tasks now taskId message
      exact ⟨inv.of_tasks teamOf fun isTask => inv.taskIds_modify isTask, changesOwn_of_same teamOf⟩
  | teamDelete now teamId =>
      cases steps
      exact ⟨inv.teamDelete allowed, changesOwn_of_same rfl⟩
  | teamCreate call name tasks =>
      cases found : tools.calls call with
      | some state =>
          rw [TeamTools.step, found] at steps
          exact nomatch steps
      | none =>
          rw [TeamTools.step, found] at steps
          cases steps
          refine ⟨inv.setTeamless (fun state isState => ?_) (team?_start name tasks)
            (planned_start name tasks), changesOwn_of_same rfl⟩
          rw [found] at isState
          exact nomatch isState
  | advance now call =>
      obtain ⟨state, found, advances⟩ := Option.bind_eq_some_iff.1 steps
      refine inv.advance found (fun name taskIds same => ?_) advances
      exact allowed name taskIds (same ▸ found)

end Invariant

/-- **In every run without the deletion of a team that lists a task, the two registries
agree whenever no call is under way**; a call that returned an error has left nothing;
and a step changes only the team of tasks of the call that takes it. -/
theorem membership_consistent {actions : List ToolAction} {last : TeamTools}
    (run : Run step Allowed {} actions last) :
    (last.Quiescent → Consistent last) ∧ ErrorsLeaveNothing last ∧
      ∀ action next, Allowed last action → last.step action = some next →
        ChangesOwn last action next := by
  have inv : Invariant last := run.invariant Invariant
    (fun _ _ _ held allowed steps => (held.step allowed steps).1) Invariant.initial
  exact ⟨inv.consistent, inv.errorsLeaveNothing, fun action next allowed steps =>
    (inv.step allowed steps).2⟩

/-- A task, and a team made of it. -/
def teamOfOne : List ToolAction :=
  [.taskCreate 0 "hello" none,
    .teamCreate 0 "one" [.object [("task_id", .string (registryId "task" 0 1))]],
    .advance 0 0, .advance 0 0, .advance 0 0, .advance 0 0]

theorem run_teamOfOne : ∃ last, Run step Allowed {} teamOfOne last ∧ last.Quiescent ∧
    last.tasks.teamOf (registryId "task" 0 1) = some (registryId "team" 0 1) := by
  have below : ∀ {tools : TeamTools} {now call : Nat}, tools.teams.counter = 0 →
      Allowed tools (.advance now call) := by
    intro tools now call counter name taskIds _
    omega
  have first : Allowed {} (.taskCreate 0 "hello" none) := show 0 + 1 < 2 ^ 64 by omega
  -- checks the task, makes the team, assigns the task, returns
  refine ⟨_, .cons first rfl <| .cons trivial rfl <| .cons (below rfl) rfl <|
    .cons (below rfl) rfl <| .cons nofun rfl <| .cons nofun rfl .nil, ?_, by decide +kernel⟩
  intro call state found
  cases call with
  | zero => cases found; rfl
  | succ call => exact nomatch found

theorem membership_consistent_teamOfOne : ∃ last, Run step Allowed {} teamOfOne last ∧
    Consistent last ∧
    last.tasks.teamOf (registryId "task" 0 1) = some (registryId "team" 0 1) := by
  obtain ⟨last, run, quiescent, named⟩ := run_teamOfOne
  exact ⟨last, run, (membership_consistent run).1 quiescent, named⟩

/-- **A deleted team keeps its tasks**: deleting writes the team alone. -/
theorem deletedTeam_keepsTask : ¬∀ actions last, Run step (fun _ _ => True) {} actions last →
    last.Quiescent → Consistent last := by
  intro claim
  obtain ⟨tools, run, quiescent, named⟩ := run_teamOfOne
  have deletes : tools.step (.teamDelete 0 (registryId "team" 0 1)) =
      some { tools with teams := (tools.teams.delete 0 (registryId "team" 0 1)).1 } := rfl
  have longer := Run.snoc (run.mono fun _ _ _ => trivial) trivial deletes
  have consistent := claim _ _ longer quiescent
  obtain ⟨team, found, alive, -⟩ := (consistent.agree _ _).1 named
  exact alive (TeamRegistry.status_delete found)

end TeamTools

end Openyak.Tools
