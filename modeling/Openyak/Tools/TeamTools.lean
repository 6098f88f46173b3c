/-
# Tools.TeamTools -- the task and team tools, their registry calls interleaved

`TaskCreate`, `TaskStop`, `TaskUpdate` and `TeamDelete` make one call of a registry.
`TeamCreate` makes one for every task it checks, one to create the team, one for every
task it assigns, and if one of these fails as many to take the tasks out again, and one
to remove the team.  A `TeamCreate` under way is where it stands between two of them;
`step` lets any tool make its next one.
-/
import Openyak.Runtime.Registries
import Openyak.Theory.Json
import Openyak.Theory.Text
import Openyak.Theory.Run

namespace Openyak.Tools

open Openyak.Theory (Json)
open Openyak.Runtime

set_option autoImplicit false

/-- `extract_team_task_ids`: the loop, with the ids seen so far. -/
def extractTeamTaskIdsFrom : (index : Nat) → (taskIds : List String) → List Json →
    Except String (List String)
  | _, taskIds, [] => .ok taskIds
  | index, taskIds, task :: tasks =>
      match ((task.get? "task_id").bind Json.asStr?).map fun taskId =>
          String.ofList (Theory.Text.trim taskId.toList) with
      | none => .error ("invalid team task entry at index " ++ toString index ++ ": missing task_id")
      | some taskId =>
          if taskId = "" then
            .error ("invalid team task entry at index " ++ toString index ++ ": missing task_id")
          else if taskId ∈ taskIds then
            .error ("duplicate task_id in team create: " ++ taskId)
          else extractTeamTaskIdsFrom (index + 1) (taskIds ++ [taskId]) tasks

def extractTeamTaskIds (tasks : List Json) : Except String (List String) :=
  extractTeamTaskIdsFrom 0 [] tasks

/-- Where a `run_team_create` stands.  `team` is its local variable, once it has one. -/
inductive TeamCreate where
  | checking (name : String) (taskIds remaining : List String)
  | assigning (team : Team) (assignedTaskIds remaining : List String)
  | rollingBack (team : Team) (remaining : List String) (error : String)
  | returned (team : Option Team) (result : Except String Team)

namespace TeamCreate

def start (name : String) (tasks : List Json) : TeamCreate :=
  match extractTeamTaskIds tasks with
  | .ok taskIds => .checking name taskIds taskIds
  | .error error => .returned none (.error error)

/-- The team it has made. -/
def team? : TeamCreate → Option Team
  | .checking .. => none
  | .assigning team .. => some team
  | .rollingBack team .. => some team
  | .returned team _ => team

def hasReturned : TeamCreate → Bool
  | .returned .. => true
  | _ => false

end TeamCreate

/-- The two registries, and the `TeamCreate` calls there have been. -/
structure TeamTools where
  tasks : TaskRegistry := {}
  teams : TeamRegistry := {}
  calls : Nat → Option TeamCreate := fun _ => none

inductive ToolAction where
  | taskCreate (now : Nat) (prompt : String) (description : Option String)
  | taskStop (now : Nat) (taskId : String)
  | taskUpdate (now : Nat) (taskId message : String)
  | teamDelete (now : Nat) (teamId : String)
  | teamCreate (call : Nat) (name : String) (tasks : List Json)
  | advance (now : Nat) (call : Nat)

namespace TeamTools

variable (tools : TeamTools)

def setCall (call : Nat) (state : TeamCreate) : TeamTools :=
  { tools with calls := Function.update tools.calls call (some state) }

/-- `run_team_create` from one registry call to the next. -/
def advance (now call : Nat) : TeamCreate → Option TeamTools
  | .checking name taskIds (taskId :: remaining) =>
      some <| tools.setCall call <|
        match tools.tasks.get taskId with
        | none => .returned none (.error ("task not found: " ++ taskId))
        | some task =>
            match task.teamId with
            | some existingTeamId =>
                .returned none
                  (.error ("task " ++ taskId ++ " is already assigned to team " ++ existingTeamId))
            | none => .checking name taskIds remaining
  | .checking name taskIds [] =>
      let (teams, team) := tools.teams.create now name taskIds
      some ({ tools with teams := teams }.setCall call (.assigning team [] team.taskIds))
  | .assigning team assignedTaskIds (taskId :: remaining) =>
      let (tasks, result) := tools.tasks.assignTeam now taskId team.teamId
      some <| { tools with tasks := tasks }.setCall call <|
        match result with
        | .error error => .rollingBack team assignedTaskIds error
        | .ok () => .assigning team (assignedTaskIds ++ [taskId]) remaining
  | .assigning team _ [] => some (tools.setCall call (.returned (some team) (.ok team)))
  | .rollingBack team (taskId :: remaining) error =>
      some <| { tools with tasks := (tools.tasks.unassignTeam now taskId team.teamId).1 }.setCall
        call (.rollingBack team remaining error)
  | .rollingBack team [] error =>
      some <| { tools with teams := (tools.teams.remove team.teamId).1 }.setCall
        call (.returned (some team) (.error error))
  | .returned .. => none

/-- One registry call of one of the tools. -/
def step : ToolAction → Option TeamTools
  | .taskCreate now prompt description =>
      some { tools with tasks := (tools.tasks.create now prompt description).1 }
  | .taskStop now taskId => some { tools with tasks := (tools.tasks.stop now taskId).1 }
  | .taskUpdate now taskId message =>
      some { tools with tasks := (tools.tasks.update now taskId message).1 }
  | .teamDelete now teamId => some { tools with teams := (tools.teams.delete now teamId).1 }
  | .teamCreate call name tasks =>
      match tools.calls call with
      | some _ => none
      | none => some (tools.setCall call (TeamCreate.start name tasks))
  | .advance now call => (tools.calls call).bind (tools.advance now call)

/-- Every call has returned. -/
def Quiescent : Prop := ∀ call state, tools.calls call = some state → state.hasReturned

end TeamTools

end Openyak.Tools
