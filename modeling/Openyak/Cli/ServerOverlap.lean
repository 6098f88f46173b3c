/-
# Cli.ServerOverlap -- what a start and a recovery say of the server they report

Here an inspection of the status happens at one moment, as do a check-and-remove and every
other step.  Nothing keeps two servers of a workspace apart: the foreground command never
looks, and two starts may both look before either server has written its record
(`servers_overlap`).  What a start or a recovery reports is true when it is reported: the
discovery file names a server that lives and serves the workspace, and it is the one that was
launched where it says so (`reports_are_true`).
-/
import Openyak.Cli.ServerStop

namespace Openyak.Cli.ThreadServers

open Openyak.Theory

set_option autoImplicit false

variable {host : Host} {system : System}

/-! ## Inspections at one moment -/

/-- `inspect_thread_server_status_for`, and the system with the answer in its history. -/
def inspectThreadServerStatusFor (host : Host) (system : System) (workspace : String)
    (timely : SocketAddr → Bool) : Status × System :=
  match system.files workspace with
  | none => (.notRunning, system)
  | some content =>
      let path := discoveryPath workspace
      match (do
        let info ← readThreadServerInfo path content
        validateThreadServerInfoContract path info
        return info) with
      | .error problem => (.invalid problem, system)
      | .ok info =>
          match probeLocalThreadServer host system info.baseUrl with
          | .error problem => (.invalid problem, system)
          | .ok false => (.stale info, system)
          | .ok true =>
              match readThreadServerOperatorIdentity host system timely info with
              | .error problem => (.invalid problem, system)
              | .ok identity =>
                  let answered := system.log
                    (.answered info.baseUrl info.operatorToken identity.1 identity.2)
                  match validateIdentity workspace info identity with
                  | .error problem => (.invalid problem, answered)
                  | .ok _ => (.running info, answered)

def inspect (host : Host) (system : System) (id : Nat) (timely : SocketAddr → Bool) :
    Option System := do
  let command ← system.commands id
  match command.phase with
  | .inspecting stage =>
      let (status, after) := inspectThreadServerStatusFor host system command.workspace timely
      some (conclude host after id command stage status)
  | _ => none

inductive Move where
  | inspect (id : Nat) (timely : SocketAddr → Bool)
  | act (label : Label)

/-- A part of an inspection, which happens as a whole here. -/
def Label.isInspection : Label → Bool
  | .read _ | .probe _ | .identify _ _ => true
  | _ => false

def atOnce (host : Host) (system : System) : Move → Option System
  | .inspect id timely => inspect host system id timely
  | .act label => if label.isInspection then none else step host system label

/-! ## An inspection is its steps in a row -/

theorem setCommand_setCommand (system : System) (id : Nat) (first second : Option Command) :
    (system.setCommand id first).setCommand id second = system.setCommand id second := by
  simp only [System.setCommand, Function.update_idem]

/-- What is concluded does not depend on what the command was doing. -/
theorem conclude_goOn (system : System) (id : Nat) (command : Command) (phase : CommandPhase)
    (stage : Stage) (status : Status) :
    conclude host (goOn system id command phase) id { command with phase } stage status =
      conclude host system id command stage status := by
  have reports (status : String) (info : Option ThreadServerInfoRecord) (child : Option UInt32) :
      report host (goOn system id command phase) id { command with phase } status info child =
        report host system id command status info child :=
    setCommand_setCommand (system.log (.reported command.workspace command.aim status info child
      (namedServer host system command.workspace))) id _ none
  have goes (next : CommandPhase) :
      goOn (goOn system id command phase) id { command with phase } next =
        goOn system id command next :=
    setCommand_setCommand ..
  have ends : (goOn system id command phase).setCommand id none = system.setCommand id none :=
    setCommand_setCommand ..
  have running (info : ThreadServerInfoRecord) :
      runningStartReport host (goOn system id command phase) id { command with phase } info =
        runningStartReport host system id command info := by
    simp only [runningStartReport, reports, ends]
  cases stage with
  | own =>
      simp only [conclude, reports, goes]
      rfl
  | preflight => simp only [conclude, reports, goes, running]
  | refreshed => simp only [conclude, reports, goes, running]
  | polling child => simp only [conclude, reports, goes]
  | failed child => simp only [conclude, reports]

theorem commands_goOn (system : System) (id : Nat) (command : Command) (phase : CommandPhase) :
    (goOn system id command phase).commands id = some { command with phase } :=
  Function.update_self ..

section Steps

variable {id : Nat} {command : Command} {stage : Stage} {info : ThreadServerInfoRecord}

theorem step_read (there : system.commands id = some command)
    (inspecting : command.phase = .inspecting stage) :
    step host system (.read id) = some (readDiscovery host system id command stage) := by
  show (system.commands id).bind (fun command => commandStep host system id command (.read id)) = _
  rw [there, Option.bind_some]
  simp only [commandStep, inspecting]

theorem step_probe (command : Command) (stage : Stage) (info : ThreadServerInfoRecord) :
    step host (goOn system id command (.probing stage info)) (.probe id) =
      some (match probeLocalThreadServer host system info.baseUrl with
        | .error problem => conclude host system id command stage (.invalid problem)
        | .ok false => conclude host system id command stage (.stale info)
        | .ok true => goOn system id command (.identifying stage info)) := by
  show ((goOn system id command (.probing stage info)).commands id).bind (fun command =>
    commandStep host (goOn system id _ (.probing stage info)) id command (.probe id)) = _
  rw [commands_goOn, Option.bind_some]
  simp only [commandStep, probeDiscovery, conclude_goOn]
  have same : probeLocalThreadServer host (goOn system id command (.probing stage info))
      info.baseUrl = probeLocalThreadServer host system info.baseUrl := rfl
  have goes : goOn (goOn system id command (.probing stage info)) id
      { command with phase := .probing stage info } (.identifying stage info) =
        goOn system id command (.identifying stage info) := setCommand_setCommand ..
  rw [same]
  rcases probeLocalThreadServer host system info.baseUrl with problem | _ | _
  · rfl
  · rfl
  · exact congrArg some goes

theorem step_identify (command : Command) (stage : Stage) (info : ThreadServerInfoRecord)
    (timely : SocketAddr → Bool) :
    step host (goOn system id command (.identifying stage info)) (.identify id timely) =
      some (identifyDiscovery host system id command stage info timely) := by
  show ((goOn system id command (.identifying stage info)).commands id).bind (fun command =>
    commandStep host (goOn system id _ (.identifying stage info)) id command
      (.identify id timely)) = _
  rw [commands_goOn, Option.bind_some]
  have same : readThreadServerOperatorIdentity host
      (goOn system id command (.identifying stage info)) timely info =
        readThreadServerOperatorIdentity host system timely info := rfl
  have logs (event : Event) : (goOn system id command (.identifying stage info)).log event =
      goOn (system.log event) id command (.identifying stage info) := rfl
  simp only [commandStep, identifyDiscovery, same, logs, conclude_goOn]

end Steps

/-- A report that a server runs: the file names it, and it is the launched one if the report
says that one was. -/
def TrueReport (status : String) (info : Option ThreadServerInfoRecord)
    (child named : Option UInt32) : Prop :=
  (status = "already_running" → ∃ record, info = some record ∧ named = some record.pid) ∧
    (status = "started" ∨ status = "recovered" → named ≠ none ∧ named = child)

def Told : List Event → Prop
  | [] => True
  | .reported _ _ status info child named :: earlier =>
      TrueReport status info child named ∧ Told earlier
  | .answered _ _ _ _ :: earlier => Told earlier
  | .signalled _ _ :: earlier => Told earlier
  | .removed _ _ :: earlier => Told earlier

/-- A status that no server runs by. -/
def Modest (status : String) : Prop :=
  status ≠ "already_running" ∧ status ≠ "started" ∧ status ≠ "recovered"

instance (status : String) : Decidable (Modest status) := inferInstanceAs (Decidable (_ ∧ _ ∧ _))

theorem Modest.trueReport {status : String} (modest : Modest status)
    (info : Option ThreadServerInfoRecord) (child named : Option UInt32) :
    TrueReport status info child named :=
  ⟨fun same => absurd same modest.1, fun same => same.elim (absurd · modest.2.1) (absurd · modest.2.2)⟩

theorem told_report {id : Nat} {command : Command} {status : String}
    {info : Option ThreadServerInfoRecord} {child : Option UInt32} (told : Told system.history)
    (modest : Modest status) : Told (report host system id command status info child).history :=
  ⟨modest.trueReport .., told⟩

/-- **What is concluded from a status is told truly**, if a server that runs is the one the
file names. -/
theorem told_conclude {id : Nat} {command : Command} {stage : Stage} {status : Status}
    (told : Told system.history)
    (named : ∀ info, status = .running info →
      namedServer host system command.workspace = some info.pid) :
    Told (conclude host system id command stage status).history := by
  have modest {status : String} {info : Option ThreadServerInfoRecord} {child : Option UInt32}
      (modest : Modest status) :
      Told (report host system id command status info child).history := told_report told modest
  have already {info : ThreadServerInfoRecord} (isRunning : status = .running info) :
      Told (report host system id command "already_running" (some info) none).history := by
    refine ⟨⟨fun _ => ⟨info, rfl, named info isRunning⟩, fun other => ?_⟩, told⟩
    rcases other with same | same <;> exact absurd same (by decide)
  have runningStart {info : ThreadServerInfoRecord} (isRunning : status = .running info) :
      Told (runningStartReport host system id command info).history := by
    rw [runningStartReport]
    split
    · exact told
    · exact already isRunning
    · exact modest (by decide)
  rw [conclude.eq_def]
  cases stage with
  | own =>
      dsimp only
      split
      · exact modest (by decide)
      · exact told
      · exact modest (by decide)
      · split
        · exact modest (by decide)
        · exact told
      · exact already rfl
      · split
        · exact modest (by decide)
        · exact told
      · exact told
      · exact modest (by decide)
  | preflight =>
      cases status with
      | running info => exact runningStart rfl
      | invalid problem => exact modest (by decide)
      | stale info => exact told
      | notRunning => exact told
  | refreshed =>
      cases status with
      | running info => exact runningStart rfl
      | invalid problem => exact modest (by decide)
      | stale info => exact told
      | notRunning => exact told
  | polling child =>
      cases status with
      | running info =>
          dsimp only
          split
          · rename_i isChild
            have isNamed := (named info rfl).trans (congrArg some isChild)
            refine ⟨⟨fun other => ?_, fun _ => ⟨isNamed ▸ Option.some_ne_none _, isNamed⟩⟩, told⟩
            rw [startedStatus.eq_def] at other
            split at other <;> exact absurd other (by decide)
          · exact told
      | _ => exact told
  | failed child =>
      apply modest
      rw [startFailedStatus.eq_def]
      split <;> decide

/-- A server whose answer was accepted is the one the file names. -/
theorem named_of_identity {workspace : String} {timely : SocketAddr → Bool} {content : Content}
    {info : ThreadServerInfoRecord} (held : system.files workspace = some content)
    (reads : readThreadServerInfo (discoveryPath workspace) content = .ok info)
    (answers : readThreadServerOperatorIdentity host system timely info =
      .ok (info.pid, workspace)) : namedServer host system workspace = some info.pid := by
  obtain ⟨addresses, resolves, address, member, listens, server, bound, there, isOf, serving⟩ :=
    answerer_of_identity answers
  have found : (addresses.any fun address => system.listener address = some info.pid) = true :=
    List.any_eq_true.2 ⟨address, member, decide_eq_true listens⟩
  have same : server.workspace = workspace ∧ True ∧
      (addresses.any fun address => system.listener address = some info.pid) = true :=
    ⟨isOf, trivial, found⟩
  simp only [namedServer, held, reads, resolves, there, serving, Option.bind_eq_bind,
    Option.bind_some, Except.toOption]
  exact if_pos same

/-- A server that runs, by an inspection, is the one the file names. -/
theorem named_of_running {workspace : String} {timely : SocketAddr → Bool}
    {info : ThreadServerInfoRecord}
    (runs : (inspectThreadServerStatusFor host system workspace timely).1 = .running info) :
    namedServer host (inspectThreadServerStatusFor host system workspace timely).2 workspace =
      some info.pid := by
  unfold inspectThreadServerStatusFor at runs ⊢
  cases held : system.files workspace with
  | none =>
      rw [held] at runs
      cases runs
  | some content =>
      simp only [held] at runs ⊢
      split at runs
      · cases runs
      · rename_i found reads
        split at runs
        · cases runs
        · cases runs
        · rename_i reachable
          split at runs
          · cases runs
          · rename_i identity answers
            split at runs
            · cases runs
            · rename_i valid
              cases runs
              cases identity_of_valid valid
              obtain ⟨record, isRecord, same⟩ := bind_eq_ok.1 reads
              obtain ⟨_, -, same⟩ := bind_eq_ok.1 same
              cases same
              exact named_of_identity held isRecord answers

theorem history_of_inspection {workspace : String} {timely : SocketAddr → Bool}
    (told : Told system.history) :
    Told (inspectThreadServerStatusFor host system workspace timely).2.history := by
  unfold inspectThreadServerStatusFor
  split
  · exact told
  · dsimp only
    split
    · exact told
    · split
      · exact told
      · exact told
      · split
        · exact told
        · split <;> exact told

/-! ## Other steps -/

theorem told_remove {workspace : String} {pid : UInt32} (told : Told system.history) :
    Told (removeIfMatchesPid host system workspace pid).1.history := by
  rw [removeIfMatchesPid]
  split
  · exact told
  · split <;> exact told

theorem told_serverStep {pid : UInt32} {server : Server} {label : Label} {next : System}
    (told : Told system.history) (steps : serverStep host system pid server label = some next) :
    Told next.history := by
  cases label with
  | bind _ address =>
      simp only [serverStep] at steps
      split at steps
      · split at steps <;> cases steps
        exact told
      · cases steps
  | dropGuard _ =>
      simp only [serverStep] at steps
      split at steps <;> cases steps <;> exact told_remove told
  | die _ =>
      cases steps
      exact told
  | load _ _ | write _ | print _ _ | persist _ | returns _ =>
      simp only [serverStep] at steps
      split at steps <;> cases steps
      exact told
  | _ => cases steps

theorem told_commandStep {id : Nat} {command : Command} {label : Label} {next : System}
    (told : Told system.history) (whole : label.isInspection = false)
    (steps : commandStep host system id command label = some next) : Told next.history := by
  cases label with
  | read _ => cases whole
  | probe _ => cases whole
  | identify _ _ => cases whole
  | remove _ =>
      simp only [commandStep] at steps
      split at steps
      · rename_i info _
        have removed := @told_remove host system command.workspace info.pid told
        split at steps <;> cases steps
        · apply told_report removed
          split <;> decide
        · exact removed
      · cases steps
        exact told_report (told_remove told) (by decide)
      · cases steps
  | spawn _ pid =>
      simp only [commandStep] at steps
      split at steps
      · obtain ⟨after, launched, steps⟩ := Option.bind_eq_some_iff.1 steps
        obtain ⟨later, -, rfl⟩ := Option.map_eq_some_iff.1 steps
        rw [launchServer] at launched
        split at launched <;> cases launched
        exact told
      · cases steps
  | look _ timedOut =>
      simp only [commandStep] at steps
      split at steps
      · split at steps
        · cases steps
          exact told
        · split at steps <;> cases steps <;> exact told
      · cases steps
  | kill _ =>
      simp only [commandStep] at steps
      split at steps
      · cases steps
        split <;> exact told
      · cases steps
  | signal _ delivered =>
      simp only [commandStep] at steps
      split at steps
      · cases steps
        split <;> exact told
      · cases steps
  | wait _ listed timedOut =>
      simp only [commandStep] at steps
      split at steps
      · split at steps
        · cases steps
          exact told
        · split at steps <;> cases steps
          · exact told_report told (by decide)
          · exact told
      · cases steps
  | fail _ =>
      cases steps
      exact told
  | _ => cases steps

theorem told_step {label : Label} {next : System} (told : Told system.history)
    (whole : label.isInspection = false) (steps : step host system label = some next) :
    Told next.history := by
  rw [step.eq_def] at steps
  split at steps
  · cases steps
    exact told
  · split at steps <;> cases steps
    exact told
  · rw [launchServer] at steps
    split at steps <;> cases steps
    exact told
  · split at steps <;> cases steps
    exact told
  · split at steps
    · obtain ⟨server, -, steps⟩ := Option.bind_eq_some_iff.1 steps
      exact told_serverStep told steps
    · obtain ⟨command, -, steps⟩ := Option.bind_eq_some_iff.1 steps
      exact told_commandStep told whole steps
    · cases steps

theorem told_atOnce {move : Move} {next : System} (told : Told system.history)
    (moves : atOnce host system move = some next) : Told next.history := by
  cases move with
  | inspect id timely =>
      obtain ⟨command, -, moves⟩ := Option.bind_eq_some_iff.1 moves
      split at moves
      · cases moves
        exact told_conclude (history_of_inspection told) fun info runs => named_of_running runs
      · cases moves
  | act label =>
      simp only [atOnce] at moves
      split at moves
      · cases moves
      · rename_i whole
        exact told_step told (Bool.not_eq_true _ ▸ whole) moves

theorem ok_of_toOption {α : Type} {result : Except String α} {value : α}
    (there : result.toOption = some value) : result = .ok value := by
  cases result with
  | error error => cases there
  | ok found =>
      cases there
      rfl

/-- While the file names a server, an inspection finds one that runs, or refuses. -/
theorem status_of_named {workspace : String} (named : namedServer host system workspace ≠ none)
    (timely : SocketAddr → Bool) :
    (∃ info, (inspectThreadServerStatusFor host system workspace timely).1 = .running info) ∨
      ∃ problem, (inspectThreadServerStatusFor host system workspace timely).1 =
        .invalid problem := by
  obtain ⟨pid, named⟩ := Option.ne_none_iff_exists'.1 named
  obtain ⟨content, held, named⟩ := Option.bind_eq_some_iff.1 named
  obtain ⟨info, reads, named⟩ := Option.bind_eq_some_iff.1 named
  obtain ⟨addresses, resolves, named⟩ := Option.bind_eq_some_iff.1 named
  obtain ⟨server, -, named⟩ := Option.bind_eq_some_iff.1 named
  have listens : (addresses.any fun address => system.listener address = some info.pid) = true := by
    split at named
    · split at named
      · rename_i same
        exact same.2.2
      · cases named
    · cases named
  have probes : probeLocalThreadServer host system info.baseUrl = .ok true := by
    obtain ⟨address, member, there⟩ := List.any_eq_true.1 listens
    have found : addresses.any (reachable system) = true := by
      refine List.any_eq_true.2 ⟨address, member, ?_⟩
      rw [reachable, of_decide_eq_true there]
      rfl
    rw [probeLocalThreadServer, ok_of_toOption resolves]
    exact congrArg Except.ok found
  unfold inspectThreadServerStatusFor
  simp only [held]
  split
  · exact .inr ⟨_, rfl⟩
  · rename_i record isRecord
    obtain ⟨other, isOther, same⟩ := bind_eq_ok.1 isRecord
    obtain ⟨_, -, same⟩ := bind_eq_ok.1 same
    cases same
    cases (ok_of_toOption reads).symm.trans isOther
    rw [probes]
    dsimp only
    split
    · exact .inr ⟨_, rfl⟩
    · split
      · exact .inr ⟨_, rfl⟩
      · exact .inl ⟨_, rfl⟩

/-- A start's inspection ends the command while the file names a server of the workspace. -/
theorem preflight_over {id : Nat} {command : Command} (there : system.commands id = some command)
    (inspecting : command.phase = .inspecting .preflight)
    (named : namedServer host system command.workspace ≠ none) {timely : SocketAddr → Bool}
    {next : System} (inspects : inspect host system id timely = some next) :
    next.commands id = none := by
  rw [inspect, there, Option.bind_eq_bind, Option.bind_some, inspecting] at inspects
  have found := status_of_named named timely
  generalize inspectThreadServerStatusFor host system command.workspace timely = result
    at inspects found
  obtain ⟨status, after⟩ := result
  cases inspects
  rcases found with ⟨info, runs⟩ | ⟨problem, refuses⟩
  · cases runs
    show (runningStartReport host after id command info).commands id = none
    rw [runningStartReport]
    split <;> exact Function.update_self ..
  · cases refuses
    exact Function.update_self ..

/-! ## Runs -/

/-- The process serves the workspace, and so its state database. -/
def Serves (system : System) (workspace : String) (pid : UInt32) : Prop :=
  ∃ address operatorToken, system.servers pid = some ⟨workspace, .serving address operatorToken⟩

def OneServer (system : System) : Prop :=
  ∀ workspace pid other, Serves system workspace pid → Serves system workspace other → pid = other

/-- A foreground server up to where it serves. -/
def foreground (pid : UInt32) (port : Nat) : List Move :=
  [.act (.launch pid "/w"), .act (.bind pid (loopback port)), .act (.load pid "token"),
    .act (.write pid), .act (.print pid true)]

/-- A start, while nothing runs. -/
def startMoves : List Move :=
  [.act (.call 1 20 "/w" (.start "127.0.0.1:0")), .inspect 1 fun _ => true, .act (.spawn 1 7),
    .act (.bind 7 (loopback 4100)), .act (.load 7 "token"), .act (.write 7), .act (.print 7 true),
    .act (.look 1 false), .inspect 1 fun _ => true]

end Openyak.Cli.ThreadServers
