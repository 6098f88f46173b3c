/-
# Cli.ServerStop -- what stop signals, and what the commands remove

A stop signals the process id of a record whose address was asked, with the recorded token,
and answered with this process id and this workspace.  A record is removed when its process
id is the one the command goes by, whatever else it says by then.  So a server that starts
under the process id of a stale record can lose the record it just wrote
(`new_record_removed`); where no stale record has the process id of a server that lives, no
record of a live server is ever removed (`stop_hits_its_target`).
-/
import Openyak.Cli.ThreadServers
import Openyak.Theory.Run
import Openyak.Theory.Scanning

namespace Openyak.Cli.ThreadServers

open Openyak.Theory
open Openyak.Runtime (SerdeValue)

set_option autoImplicit false

variable {host : Host} {system : System}

/-! ## What is safe -/

/-- What has been signalled answered before, as the process and from the workspace of its
record, and what has been removed named no live server. -/
def Safe : List Event → Prop
  | [] => True
  | .signalled workspace info :: earlier =>
      .answered info.baseUrl info.operatorToken info.pid workspace ∈ earlier ∧ Safe earlier
  | .removed _ live :: earlier => live = false ∧ Safe earlier
  | .answered _ _ _ _ :: earlier => Safe earlier
  | .reported _ _ _ _ _ _ :: earlier => Safe earlier

/-- A process that is gone, or will not listen again. -/
def Gone (system : System) (pid : UInt32) : Prop :=
  ∀ server, system.servers pid = some server → server.phase = .closed

/-- A process that listens, if anywhere, at an address its record stands for. -/
def Confined (host : Host) (system : System) (info : ThreadServerInfoRecord) : Prop :=
  ∃ addresses, resolveLoopbackThreadServerAddresses host info.baseUrl = .ok addresses ∧
    ∀ server, system.servers info.pid = some server →
      server.phase = .closed ∨ ∃ address ∈ addresses, server.phase.address? = some address

/-- What a command has found out about the record it acts on. -/
def Knows (host : Host) (system : System) (command : Command) : CommandPhase → Prop
  | .clearing info => system.servers info.pid = none
  | .signalling info =>
      .answered info.baseUrl info.operatorToken info.pid command.workspace ∈ system.history ∧
        command.seen info.pid = true ∧ Confined host system info
  | .waiting info => command.seen info.pid = true ∧ Confined host system info
  | .removing info => command.seen info.pid = true ∧ Gone system info.pid
  | _ => True

structure Sound (host : Host) (system : System) : Prop where
  ports : ∀ address pid, system.listener address = some pid ↔
    ∃ server, system.servers pid = some server ∧ server.phase.address? = some address
  printed : ∀ pid server, system.servers pid = some server →
    ∀ address token, server.phase ≠ .unprinted address token
  seen : ∀ id command pid, system.commands id = some command → system.servers pid ≠ none →
    command.seen pid = true
  knows : ∀ id command, system.commands id = some command →
    Knows host system command command.phase
  safe : Safe system.history

/-! ## Records -/

theorem readPid_of_read {path : String} {content : Content} {info : ThreadServerInfoRecord}
    (reads : readThreadServerInfo path content = .ok info) :
    ∃ value, content = .ok value ∧ readPid path value = .ok info.pid := by
  obtain ⟨value, isValue, reads⟩ := bind_eq_ok.1 reads
  obtain ⟨pid, isPid, reads⟩ := bind_eq_ok.1 reads
  obtain ⟨_, -, reads⟩ := bind_eq_ok.1 reads
  obtain ⟨_, -, reads⟩ := bind_eq_ok.1 reads
  obtain ⟨_, -, reads⟩ := bind_eq_ok.1 reads
  obtain ⟨_, -, reads⟩ := bind_eq_ok.1 reads
  obtain ⟨_, -, reads⟩ := bind_eq_ok.1 reads
  obtain ⟨_, -, reads⟩ := bind_eq_ok.1 reads
  cases reads
  exact ⟨value, isValue, isPid⟩

theorem matchesPid_of_read {path : String} {content : Content} {info : ThreadServerInfoRecord}
    {pid : UInt32} (reads : readThreadServerInfo path content = .ok info)
    (isPid : threadServerInfoMatchesPid content pid = true) : info.pid = pid := by
  obtain ⟨value, rfl, readsPid⟩ := readPid_of_read reads
  have listed : (field value "pid").bind asU64 = some pid.toNat := of_decide_eq_true isPid
  rw [readPid, listed] at readsPid
  dsimp only at readsPid
  split at readsPid
  · exact (Except.ok.inj readsPid).symm.trans UInt32.ofNat_toNat
  · cases readsPid

/-- A record of a process that listens nowhere names no live server. -/
theorem namesLive_eq_false {content : Content} {pid : UInt32}
    (isPid : threadServerInfoMatchesPid content pid = true)
    (silent : ∀ address, system.listener address ≠ some pid) :
    namesLive host system content = false := by
  rw [namesLive]
  cases reads : readThreadServerInfo "" content with
  | error problem => rfl
  | ok info =>
      have same := matchesPid_of_read reads isPid
      dsimp only
      cases resolveLoopbackThreadServerAddresses host info.baseUrl with
      | error problem => rfl
      | ok addresses =>
          rw [List.any_eq_false]
          intro address _
          rw [same]
          simpa using silent address

theorem Sound.silent_of_gone (sound : Sound host system) {pid : UInt32} (gone : Gone system pid)
    (address : SocketAddr) : system.listener address ≠ some pid := by
  intro listens
  obtain ⟨server, there, at_⟩ := (sound.ports address pid).1 listens
  rw [gone server there] at at_
  cases at_

theorem gone_of_absent {pid : UInt32} (absent : system.servers pid = none) : Gone system pid := by
  intro server there
  rw [absent] at there
  cases there

/-! ## Small changes -/

theorem Knows.log {command : Command} {phase : CommandPhase} (knows : Knows host system command phase)
    (event : Event) : Knows host (system.log event) command phase := by
  cases phase with
  | signalling info => exact ⟨List.mem_cons_of_mem _ knows.1, knows.2⟩
  | _ => exact knows

theorem Sound.log (sound : Sound host system) (event : Event) (safe : Safe (event :: system.history)) :
    Sound host (system.log event) :=
  ⟨sound.ports, sound.printed, sound.seen, fun id command there => (sound.knows id command there).log event, safe⟩

theorem Sound.setFile (sound : Sound host system) (workspace : String) (content : Option Content) :
    Sound host (system.setFile workspace content) :=
  ⟨sound.ports, sound.printed, sound.seen, sound.knows, sound.safe⟩

theorem Sound.setDatabase (sound : Sound host system) (database : String → Option Nat) :
    Sound host { system with database } :=
  ⟨sound.ports, sound.printed, sound.seen, sound.knows, sound.safe⟩

theorem Sound.setCommand (sound : Sound host system) (id : Nat) {command : Option Command}
    (seen : ∀ next, command = some next → ∀ pid, system.servers pid ≠ none → next.seen pid = true)
    (knows : ∀ next, command = some next → Knows host system next next.phase) :
    Sound host (system.setCommand id command) := by
  have lookup (asked : Nat) (found : Command)
      (there : (system.setCommand id command).commands asked = some found) :
      command = some found ∨ system.commands asked = some found := by
    change Function.update system.commands id command asked = some found at there
    by_cases same : asked = id
    · subst same
      rw [Function.update_self] at there
      exact .inl there
    · rw [Function.update_of_ne same] at there
      exact .inr there
  refine ⟨sound.ports, sound.printed, fun asked found pid there => ?_, fun asked found there => ?_,
    sound.safe⟩
  · exact (lookup asked found there).elim (fun new => seen found new pid)
      fun old => sound.seen asked found pid old
  · exact (lookup asked found there).elim (knows found) (sound.knows asked found)

/-- The command is over. -/
theorem Sound.endCommand (sound : Sound host system) (id : Nat) :
    Sound host (system.setCommand id none) := by
  apply sound.setCommand
  · intro _ none_
    cases none_
  · intro _ none_
    cases none_

/-- The command goes on, and knows what its phase asks for. -/
theorem Sound.goOn (sound : Sound host system) {id : Nat} {command : Command}
    {phase : CommandPhase} (seen : ∀ pid, system.servers pid ≠ none → command.seen pid = true)
    (knows : Knows host system command phase) :
    Sound host (Openyak.Cli.ThreadServers.goOn system id command phase) := by
  apply sound.setCommand
  · rintro _ ⟨rfl⟩
    exact seen
  · rintro _ ⟨rfl⟩
    cases phase <;> exact knows

theorem Sound.report (sound : Sound host system) (id : Nat) (command : Command) (status : String)
    (info : Option ThreadServerInfoRecord) (child : Option UInt32) :
    Sound host (Openyak.Cli.ThreadServers.report host system id command status info child) :=
  (sound.log (.reported ..) sound.safe).endCommand id

theorem Sound.remove (sound : Sound host system) (workspace : String) {pid : UInt32}
    (silent : ∀ address, system.listener address ≠ some pid) :
    Sound host (removeIfMatchesPid host system workspace pid).1 := by
  rw [removeIfMatchesPid]
  split
  · exact sound
  · split
    · rename_i isPid
      exact (sound.log (.removed ..) ⟨namesLive_eq_false isPid silent, sound.safe⟩).setFile workspace none
    · exact sound

/-! ## Servers -/

theorem servers_setServer (system : System) (pid asked : UInt32) (server : Option Server) :
    (system.setServer pid server).servers asked =
      if asked = pid then server else system.servers asked := by
  show Function.update system.servers pid server asked = _
  by_cases same : asked = pid
  · subst same
    rw [Function.update_self, if_pos rfl]
  · rw [Function.update_of_ne same, if_neg same]

theorem ports_setServer
    (ports : ∀ address pid, system.listener address = some pid ↔
      ∃ server, system.servers pid = some server ∧ server.phase.address? = some address)
    {pid : UInt32} {new : Option Server}
    (free : ∀ server address, new = some server → server.phase.address? = some address →
      system.listener address = none ∨ system.listener address = some pid)
    (address : SocketAddr) (asked : UInt32) :
    (system.setServer pid new).listener address = some asked ↔
      ∃ server, (system.setServer pid new).servers asked = some server ∧
        server.phase.address? = some address := by
  have isNew : (new.bind fun server => server.phase.address?) = some address ↔
      ∃ server, new = some server ∧ server.phase.address? = some address :=
    Option.bind_eq_some_iff
  rw [servers_setServer]
  show (if (new.bind fun server => server.phase.address?) = some address then some pid
    else if system.listener address = some pid then none else system.listener address) =
      some asked ↔ _
  by_cases same : asked = pid
  · subst same
    rw [if_pos rfl, ← isNew]
    by_cases at_ : (new.bind fun server => server.phase.address?) = some address
    · rw [if_pos at_]
      exact iff_of_true rfl at_
    · rw [if_neg at_]
      refine iff_of_false ?_ at_
      split
      · exact nofun
      · assumption
  · rw [if_neg same, ← ports]
    by_cases at_ : (new.bind fun server => server.phase.address?) = some address
    · rw [if_pos at_]
      obtain ⟨server, isServer, listens⟩ := isNew.1 at_
      refine iff_of_false (fun equal => same (Option.some.inj equal).symm) fun other => ?_
      rcases free server address isServer listens with none_ | own
      · rw [none_] at other
        cases other
      · rw [own] at other
        exact same (Option.some.inj other).symm
    · rw [if_neg at_]
      split
      · rename_i own
        rw [own]
        exact iff_of_false nofun fun equal => same (Option.some.inj equal).symm
      · exact Iff.rfl

/-- How the phase of a server may change, for those who know where it listens. -/
def Moves (old new : ServerPhase) : Prop :=
  new = .closed ∨ old = .launched ∨ (new.address? = old.address? ∧ old ≠ .closed)

/-- What is known of a server that moves, or of another. -/
theorem Knows.setServer {command : Command} {phase : CommandPhase} {pid : UInt32}
    {new : Option Server} (knows : Knows host system command phase)
    (alive : new ≠ none → system.servers pid ≠ none)
    (moves : ∀ old server, system.servers pid = some old → new = some server →
      Moves old.phase server.phase) :
    Knows host (system.setServer pid new) command phase := by
  have confined (info : ThreadServerInfoRecord) (known : Confined host system info) :
      Confined host (system.setServer pid new) info := by
    obtain ⟨addresses, resolves, within⟩ := known
    refine ⟨addresses, resolves, fun server there => ?_⟩
    rw [servers_setServer] at there
    split at there
    · rename_i same
      obtain ⟨old, isOld⟩ := Option.ne_none_iff_exists'.1 (alive (there ▸ nofun))
      rcases moves old server isOld there with closed | launched | ⟨equal, notClosed⟩
      · exact .inl closed
      · rcases within old (same ▸ isOld) with closed | ⟨address, -, listens⟩
        · rw [launched] at closed
          cases closed
        · rw [launched] at listens
          cases listens
      · rcases within old (same ▸ isOld) with closed | ⟨address, member, listens⟩
        · exact absurd closed notClosed
        · exact .inr ⟨address, member, equal.trans listens⟩
    · exact within server there
  have gone (info : ThreadServerInfoRecord) (known : Gone system info.pid) :
      Gone (system.setServer pid new) info.pid := by
    intro server there
    rw [servers_setServer] at there
    split at there
    · rename_i same
      obtain ⟨old, isOld⟩ := Option.ne_none_iff_exists'.1 (alive (there ▸ nofun))
      have closedOld := known old (same ▸ isOld)
      rcases moves old server isOld there with closed | launched | ⟨-, notClosed⟩
      · exact closed
      · rw [launched] at closedOld
        cases closedOld
      · exact absurd closedOld notClosed
    · exact known server there
  cases phase with
  | clearing info =>
      show (system.setServer pid new).servers info.pid = none
      rw [servers_setServer]
      split
      · rename_i same
        by_contra there
        exact alive there (same ▸ knows)
      · exact knows
  | signalling info => exact ⟨knows.1, knows.2.1, confined info knows.2.2⟩
  | waiting info => exact ⟨knows.1, confined info knows.2⟩
  | removing info => exact ⟨knows.1, gone info knows.2⟩
  | _ => trivial

theorem Sound.setServer (sound : Sound host system) {pid : UInt32} {new : Option Server}
    (alive : new ≠ none → system.servers pid ≠ none)
    (free : ∀ server address, new = some server → server.phase.address? = some address →
      system.listener address = none ∨ system.listener address = some pid)
    (moves : ∀ old server, system.servers pid = some old → new = some server →
      Moves old.phase server.phase)
    (printed : ∀ server, new = some server →
      ∀ address token, server.phase ≠ .unprinted address token) :
    Sound host (system.setServer pid new) := by
  refine ⟨ports_setServer sound.ports free, fun asked server there => ?_,
    fun id command asked there isAlive => ?_, fun id command there =>
    (sound.knows id command there).setServer alive moves, sound.safe⟩
  · rw [servers_setServer] at there
    split at there
    · exact printed server there
    · exact sound.printed asked server there
  · rw [servers_setServer] at isAlive
    split at isAlive
    · rename_i same
      exact sound.seen id command asked there (same ▸ alive isAlive)
    · exact sound.seen id command asked there isAlive

/-- A server that goes on where it listens. -/
theorem Sound.advance (sound : Sound host system) {pid : UInt32} {old : Server}
    (there : system.servers pid = some old) {phase : ServerPhase}
    (same : phase.address? = old.phase.address?) (open_ : old.phase ≠ .closed)
    (printed : ∀ address token, phase ≠ .unprinted address token) :
    Sound host (system.setServer pid (some { old with phase })) := by
  apply sound.setServer
  · exact fun _ => there ▸ nofun
  · rintro _ address ⟨rfl⟩ listens
    exact .inr ((sound.ports address pid).2 ⟨old, there, same.symm.trans listens⟩)
  · rintro earlier _ isOld ⟨rfl⟩
    cases there.symm.trans isOld
    exact .inr (.inr ⟨same, open_⟩)
  · rintro _ ⟨rfl⟩
    exact printed

theorem Sound.exit (sound : Sound host system) (pid : UInt32) :
    Sound host (system.setServer pid none) := by
  have nobody (server : Server) : none ≠ some server := (Option.some_ne_none server).symm
  refine sound.setServer (fun isSome => absurd rfl isSome) ?_ ?_ ?_
  · exact fun server _ none_ => absurd none_ (nobody server)
  · exact fun _ server _ none_ => absurd none_ (nobody server)
  · exact fun server none_ => absurd none_ (nobody server)

/-! ## Launches -/

/-- A process id that was in use at no time since a running command began. -/
def Unseen (system : System) (pid : UInt32) : Prop :=
  ∀ id command, system.commands id = some command → command.seen pid = false

/-- No running command is about to remove a record of this process id. -/
def Unheld (system : System) (pid : UInt32) : Prop :=
  ∀ id command info, system.commands id = some command → command.phase = .clearing info →
    info.pid ≠ pid

theorem commands_see {id : Nat} {command : Command} {pid : UInt32}
    (there : (system.see pid).commands id = some command) :
    ∃ old, system.commands id = some old ∧
      command = { old with seen := Function.update old.seen pid true } := by
  obtain ⟨old, isOld, same⟩ := Option.map_eq_some_iff.1 there
  exact ⟨old, isOld, same.symm⟩

theorem Sound.launch (sound : Sound host system) {pid : UInt32} {workspace : String}
    {next : System} (launched : launchServer system pid workspace = some next)
    (unseen : Unseen system pid) (unheld : Unheld system pid) : Sound host next := by
  rw [launchServer] at launched
  split at launched
  · rename_i absent
    cases launched
    have others (asked : UInt32) (different : asked ≠ pid) :
        ((system.see pid).setServer pid (some ⟨workspace, .launched⟩)).servers asked =
          system.servers asked := by
      rw [servers_setServer, if_neg different]
      rfl
    refine ⟨ports_setServer sound.ports ?_, fun asked server there => ?_, ?_, ?_, sound.safe⟩
    · rintro _ address ⟨rfl⟩ listens
      cases listens
    · rw [servers_setServer] at there
      split at there
      · cases there
        exact nofun
      · exact sound.printed asked server there
    · intro id command asked there alive
      obtain ⟨old, isOld, rfl⟩ := commands_see there
      show Function.update old.seen pid true asked = true
      by_cases same : asked = pid
      · subst same
        rw [Function.update_self]
      · rw [others asked same] at alive
        rw [Function.update_of_ne same]
        exact sound.seen id old asked isOld alive
    · intro id command there
      obtain ⟨old, isOld, rfl⟩ := commands_see there
      have known := sound.knows id old isOld
      have fresh := unseen id old isOld
      have different (info : ThreadServerInfoRecord) (seen : old.seen info.pid = true) :
          info.pid ≠ pid := by
        rintro rfl
        rw [fresh] at seen
        cases seen
      have seenStill (info : ThreadServerInfoRecord) (seen : old.seen info.pid = true) :
          Function.update old.seen pid true info.pid = true := by
        rw [Function.update_of_ne (different info seen)]
        exact seen
      have confined (info : ThreadServerInfoRecord) (seen : old.seen info.pid = true)
          (known : Confined host system info) : Confined host
            ((system.see pid).setServer pid (some ⟨workspace, .launched⟩)) info := by
        obtain ⟨addresses, resolves, within⟩ := known
        refine ⟨addresses, resolves, ?_⟩
        rw [others _ (different info seen)]
        exact within
      show Knows host _ _ old.phase
      cases held : old.phase with
      | clearing info =>
          rw [held] at known
          exact (others _ (unheld id old info isOld held)).trans known
      | signalling info =>
          rw [held] at known
          exact ⟨known.1, seenStill info known.2.1, confined info known.2.1 known.2.2⟩
      | waiting info =>
          rw [held] at known
          exact ⟨seenStill info known.1, confined info known.1 known.2⟩
      | removing info =>
          rw [held] at known
          refine ⟨seenStill info known.1, ?_⟩
          rw [Gone, others _ (different info known.1)]
          exact known.2
      | _ => trivial
  · cases launched

/-! ## Inspections -/

/-- An inspection whose finding of a stale record leads to its removal. -/
def Clears (aim : Aim) (stage : Stage) : Prop := stage = .preflight ∨ (stage = .own ∧ aim = .stop)

/-- What is known of a status that a command acts on. -/
def Grounded (host : Host) (system : System) (command : Command) (stage : Stage) : Status → Prop
  | .stale info => Clears command.aim stage → system.servers info.pid = none
  | .running info =>
      .answered info.baseUrl info.operatorToken info.pid command.workspace ∈ system.history ∧
        command.seen info.pid = true ∧ Confined host system info
  | _ => True

theorem Sound.conclude (sound : Sound host system) {id : Nat} {command : Command}
    (seen : ∀ pid, system.servers pid ≠ none → command.seen pid = true) {stage : Stage}
    {status : Status} (grounded : Grounded host system command stage status) :
    Sound host (conclude host system id command stage status) := by
  have reports (status : String) (info : Option ThreadServerInfoRecord) (child : Option UInt32) :=
    sound.report id command status info child
  have goes {phase : CommandPhase} (knows : Knows host system command phase) :
      Sound host (ThreadServers.goOn system id command phase) := sound.goOn seen knows
  have runningStart (info : ThreadServerInfoRecord) :
      Sound host (runningStartReport host system id command info) := by
    rw [runningStartReport]
    split
    · exact sound.endCommand id
    · exact reports ..
    · exact reports ..
  rw [ThreadServers.conclude.eq_def]
  cases stage with
  | own =>
      dsimp only
      split
      · exact reports ..
      · rename_i isStop
        exact goes (grounded (.inr ⟨rfl, isStop⟩))
      · exact reports ..
      · split
        · exact reports ..
        · exact goes grounded
      · exact reports ..
      · split
        · exact reports ..
        · exact goes trivial
      · exact goes trivial
      · exact reports ..
  | preflight =>
      cases status with
      | running info => exact runningStart info
      | invalid problem => exact reports ..
      | stale info => exact goes (grounded (.inl rfl))
      | notRunning => exact goes trivial
  | refreshed =>
      cases status with
      | running info => exact runningStart info
      | invalid problem => exact reports ..
      | stale info => exact goes trivial
      | notRunning => exact goes trivial
  | polling child =>
      cases status with
      | running info =>
          dsimp only
          split
          · exact reports ..
          · exact goes trivial
      | _ => exact goes trivial
  | failed child => exact reports ..

/-- Who answers listens at one of the addresses, and is a server of the workspace it
reports. -/
theorem answerer_of_identity {info : ThreadServerInfoRecord} {timely : SocketAddr → Bool}
    {identity : UInt32 × String}
    (answers : readThreadServerOperatorIdentity host system timely info = .ok identity) :
    ∃ addresses, resolveLoopbackThreadServerAddresses host info.baseUrl = .ok addresses ∧
      ∃ address ∈ addresses, system.listener address = some identity.1 ∧
        ∃ server bound, system.servers identity.1 = some server ∧ server.workspace = identity.2 ∧
          server.phase = .serving bound info.operatorToken := by
  obtain ⟨addresses, resolves, answers⟩ := bind_eq_ok.1 answers
  split at answers
  · rename_i found first
    cases answers
    obtain ⟨address, member, answers⟩ := List.exists_of_findSome?_eq_some first
    obtain ⟨pid, listens, answers⟩ := Option.bind_eq_some_iff.1 answers
    obtain ⟨server, there, answers⟩ := Option.bind_eq_some_iff.1 answers
    split at answers
    · rename_i bound token serving
      split at answers
      · rename_i accepted
        cases answers
        refine ⟨addresses, resolves, address, member, listens, server, bound, there, rfl, ?_⟩
        rw [serving, accepted.1]
      · cases answers
    · cases answers
  · cases answers

/-- An identity that was accepted is the recorded process, of the workspace. -/
theorem identity_of_valid {workspace : String} {info : ThreadServerInfoRecord}
    {identity : UInt32 × String} {done : Unit}
    (valid : validateIdentity workspace info identity = .ok done) :
    identity = (info.pid, workspace) := by
  rw [validateIdentity] at valid
  split at valid
  · cases valid
  · rename_i samePid
    split at valid
    · cases valid
    · rename_i sameWorkspace
      exact Prod.ext (not_not.1 samePid) (not_not.1 sameWorkspace)

section Inspections

variable {id : Nat} {command : Command} {stage : Stage} {info : ThreadServerInfoRecord}
  (sound : Sound host system)
  (seen : ∀ pid, system.servers pid ≠ none → command.seen pid = true)
include sound seen

theorem Sound.readDiscovery : Sound host (readDiscovery host system id command stage) := by
  rw [ThreadServers.readDiscovery]
  split
  · exact sound.conclude seen trivial
  · dsimp only
    split
    · exact sound.conclude seen trivial
    · exact sound.goOn seen trivial

theorem Sound.probeDiscovery
    (stale : probeLocalThreadServer host system info.baseUrl = .ok false →
      Clears command.aim stage → system.servers info.pid = none) :
    Sound host (probeDiscovery host system id command stage info) := by
  rw [ThreadServers.probeDiscovery]
  split
  · exact sound.conclude seen trivial
  · rename_i unreachable
    exact sound.conclude seen (stale unreachable)
  · exact sound.goOn seen trivial

theorem Sound.identifyDiscovery (timely : SocketAddr → Bool) :
    Sound host (identifyDiscovery host system id command stage info timely) := by
  rw [ThreadServers.identifyDiscovery]
  split
  · exact sound.conclude seen trivial
  · rename_i identity answers
    have answered := sound.log (.answered info.baseUrl info.operatorToken identity.1 identity.2)
      sound.safe
    dsimp only
    split
    · exact answered.conclude seen trivial
    · rename_i valid
      cases identity_of_valid valid
      obtain ⟨addresses, resolves, address, member, listens, server, bound, there, -, serving⟩ :=
        answerer_of_identity answers
      obtain ⟨other, isOther, at_⟩ := (sound.ports address info.pid).1 listens
      cases there.symm.trans isOther
      refine answered.conclude seen ⟨List.mem_cons_self, seen _ (there ▸ nofun), addresses,
        resolves, fun other isOther => .inr ⟨address, member, ?_⟩⟩
      cases there.symm.trans isOther
      exact at_

end Inspections

/-! ## Steps -/

/-- Process ids are not reused while a command runs. -/
def Assumed (system : System) : Label → Prop
  | .launch pid _ | .spawn _ pid => Unseen system pid
  | _ => True

/-- A record that a stop or a start finds stale is of no server process that lives, and no
server is launched under its process id before it is removed; and a server prints its first
line. -/
def Undisturbed (host : Host) (system : System) : Label → Prop
  | .launch pid _ | .spawn _ pid => Unheld system pid
  | .probe id => ∀ command stage info, system.commands id = some command →
      command.phase = .probing stage info →
      probeLocalThreadServer host system info.baseUrl = .ok false →
      Clears command.aim stage → system.servers info.pid = none
  | .print _ printed => printed = true
  | _ => True

theorem Sound.serverStep (sound : Sound host system) {pid : UInt32} {server : Server}
    (there : system.servers pid = some server) {label : Label} {next : System}
    (undisturbed : Undisturbed host system label)
    (steps : serverStep host system pid server label = some next) : Sound host next := by
  cases label with
  | bind _ address =>
      simp only [ThreadServers.serverStep] at steps
      split at steps
      · rename_i launched
        split at steps
        · rename_i free
          cases steps
          apply sound.setServer
          · exact fun _ => there ▸ nofun
          · rintro _ at_ ⟨rfl⟩ ⟨rfl⟩
            exact .inl free.1
          · rintro old _ isOld ⟨rfl⟩
            cases there.symm.trans isOld
            exact .inr (.inl launched)
          · rintro _ ⟨rfl⟩
            exact nofun
        · cases steps
      · cases steps
  | load _ token =>
      simp only [ThreadServers.serverStep] at steps
      split at steps
      · rename_i address bound
        cases steps
        have opened := sound.setDatabase (Function.update system.database server.workspace
          (some ((system.database server.workspace).getD 0)))
        exact @Sound.advance _ _ opened pid server there (.loaded address token)
          (congrArg ServerPhase.address? bound).symm (bound ▸ nofun) nofun
      · cases steps
  | write _ =>
      simp only [ThreadServers.serverStep] at steps
      split at steps
      · rename_i address token loaded
        cases steps
        exact (sound.setFile _ _).advance there (congrArg ServerPhase.address? loaded).symm
          (loaded ▸ nofun) nofun
      · cases steps
  | print _ printed =>
      cases undisturbed
      simp only [ThreadServers.serverStep] at steps
      split at steps
      · rename_i address token written
        cases steps
        exact sound.advance there (congrArg ServerPhase.address? written).symm (written ▸ nofun) nofun
      · cases steps
  | persist _ =>
      simp only [ThreadServers.serverStep] at steps
      split at steps
      · cases steps
        exact sound.setDatabase _
      · cases steps
  | returns _ =>
      simp only [ThreadServers.serverStep] at steps
      split at steps
      · cases steps
        apply sound.setServer
        · exact fun _ => there ▸ nofun
        · rintro _ at_ ⟨rfl⟩ ⟨⟩
        · rintro old _ isOld ⟨rfl⟩
          exact .inl rfl
        · rintro _ ⟨rfl⟩
          exact nofun
      · cases steps
  | dropGuard _ =>
      simp only [ThreadServers.serverStep] at steps
      split at steps
      · rename_i closed
        cases steps
        have gone : Gone system pid := by
          intro other isOther
          cases there.symm.trans isOther
          exact closed
        exact (sound.remove server.workspace (sound.silent_of_gone gone)).exit pid
      · rename_i address token unprinted
        exact absurd unprinted (sound.printed pid server there address token)
      · cases steps
  | die _ =>
      cases steps
      exact sound.exit pid
  | _ => cases steps

theorem removeIfMatchesPid_servers (host : Host) (system : System) (workspace : String)
    (pid : UInt32) :
    (removeIfMatchesPid host system workspace pid).1.servers = system.servers := by
  rw [removeIfMatchesPid]
  split
  · rfl
  · split <;> rfl

/-- A confined process behind whose record nothing is reachable has closed its listener. -/
theorem Sound.gone_of_silent (sound : Sound host system) {info : ThreadServerInfoRecord}
    (confined : Confined host system info)
    (silent : probeLocalThreadServer host system info.baseUrl ≠ .ok true) :
    Gone system info.pid := by
  obtain ⟨addresses, resolves, within⟩ := confined
  intro server there
  rcases within server there with closed | ⟨address, member, listens⟩
  · exact closed
  · have listener := (sound.ports address info.pid).2 ⟨server, there, listens⟩
    have found : addresses.any (reachable system) = true := by
      apply List.any_eq_true.2 ⟨address, member, _⟩
      rw [reachable, listener]
      rfl
    rw [probeLocalThreadServer, resolves] at silent
    exact absurd (congrArg Except.ok found) silent

theorem Sound.commandStep (sound : Sound host system) {id : Nat} {command : Command}
    (there : system.commands id = some command) {label : Label} {next : System}
    (isOf : label.command? = some id) (assumed : Assumed system label)
    (undisturbed : Undisturbed host system label)
    (steps : commandStep host system id command label = some next) : Sound host next := by
  have seen := fun pid => sound.seen id command pid there
  have known := sound.knows id command there
  have goes {phase : CommandPhase} (knows : Knows host system command phase) :
      Sound host (ThreadServers.goOn system id command phase) := sound.goOn seen knows
  have reports (status : String) (info : Option ThreadServerInfoRecord) (child : Option UInt32) :=
    sound.report id command status info child
  cases label with
  | read _ =>
      simp only [ThreadServers.commandStep] at steps
      split at steps
      · cases steps
        exact sound.readDiscovery seen
      · cases steps
  | probe _ =>
      cases isOf
      simp only [ThreadServers.commandStep] at steps
      split at steps
      · rename_i stage info probing
        cases steps
        exact sound.probeDiscovery seen (undisturbed command stage info there probing)
      · cases steps
  | identify _ timely =>
      simp only [ThreadServers.commandStep] at steps
      split at steps
      · cases steps
        exact sound.identifyDiscovery seen timely
      · cases steps
  | remove _ =>
      simp only [ThreadServers.commandStep] at steps
      split at steps
      · rename_i info clearing
        rw [clearing] at known
        have removed := sound.remove command.workspace
          (sound.silent_of_gone (gone_of_absent known))
        have servers := removeIfMatchesPid_servers host system command.workspace info.pid
        split at steps
        · cases steps
          exact removed.report ..
        · cases steps
          refine removed.goOn (fun pid => ?_) (by split <;> trivial)
          rw [servers]
          exact seen pid
      · rename_i info removing
        rw [removing] at known
        cases steps
        exact (sound.remove command.workspace (sound.silent_of_gone known.2)).report ..
      · cases steps
  | spawn _ pid =>
      simp only [ThreadServers.commandStep] at steps
      split at steps
      · obtain ⟨after, launched, steps⟩ := Option.bind_eq_some_iff.1 steps
        obtain ⟨later, isThere, rfl⟩ := Option.map_eq_some_iff.1 steps
        have soundAfter := sound.launch launched assumed undisturbed
        exact soundAfter.goOn (fun pid => soundAfter.seen id later pid isThere) trivial
      · cases steps
  | look _ timedOut =>
      simp only [ThreadServers.commandStep] at steps
      split at steps
      · split at steps
        · cases steps
          exact goes trivial
        · split at steps <;> cases steps <;> exact goes trivial
      · cases steps
  | kill _ =>
      simp only [ThreadServers.commandStep] at steps
      split at steps
      · rename_i child exited _
        cases steps
        split
        · exact goes trivial
        · have soundAfter := sound.exit child
          exact soundAfter.goOn (fun pid => soundAfter.seen id command pid there) trivial
      · cases steps
  | signal _ delivered =>
      simp only [ThreadServers.commandStep] at steps
      split at steps
      · rename_i info signalling
        rw [signalling] at known
        cases steps
        have signalled := sound.log (.signalled command.workspace info) ⟨known.1, sound.safe⟩
        split
        · exact signalled.goOn seen known.2
        · exact signalled.endCommand id
      · cases steps
  | wait _ listed timedOut =>
      simp only [ThreadServers.commandStep] at steps
      split at steps
      · rename_i info waiting
        rw [waiting] at known
        split at steps
        · rename_i finished
          cases steps
          refine goes ⟨known.1, ?_⟩
          rcases finished with gone | silent
          · have absent := Option.isNone_iff_eq_none.1 (Bool.and_eq_true_iff.1 gone).1
            exact gone_of_absent absent
          · exact sound.gone_of_silent known.2 silent
        · split at steps <;> cases steps
          · exact reports ..
          · exact sound
      · cases steps
  | fail _ =>
      cases steps
      exact sound.endCommand id
  | _ => cases steps

/-- **Every step is sound.** -/
theorem Sound.step (sound : Sound host system) {label : Label} {next : System}
    (assumed : Assumed system label) (undisturbed : Undisturbed host system label)
    (steps : step host system label = some next) : Sound host next := by
  rw [ThreadServers.step.eq_def] at steps
  split at steps
  · cases steps
    exact sound.setFile _ _
  · split at steps
    · cases steps
      exact ⟨sound.ports, sound.printed, sound.seen, sound.knows, sound.safe⟩
    · cases steps
  · exact sound.launch steps assumed undisturbed
  · split at steps
    · cases steps
      apply sound.setCommand
      · rintro _ ⟨rfl⟩ pid alive
        exact Option.isSome_iff_ne_none.2 alive
      · rintro _ ⟨rfl⟩
        trivial
    · cases steps
  · split at steps
    · obtain ⟨server, there, steps⟩ := Option.bind_eq_some_iff.1 steps
      exact sound.serverStep there undisturbed steps
    · rename_i isOf
      obtain ⟨command, there, steps⟩ := Option.bind_eq_some_iff.1 steps
      exact sound.commandStep there isOf assumed undisturbed steps
    · cases steps

/-- A host on which no thread server and no command runs yet. -/
structure Idle (system : System) : Prop where
  servers : ∀ pid, system.servers pid = none
  listener : ∀ address, system.listener address = none
  commands : ∀ id, system.commands id = none
  history : system.history = []

theorem Idle.sound (idle : Idle system) : Sound host system := by
  constructor
  case ports =>
    intro address pid
    rw [idle.listener, idle.servers]
    exact ⟨nofun, fun ⟨server, there, _⟩ => nomatch there⟩
  case printed =>
    intro pid server there
    rw [idle.servers] at there
    cases there
  case seen =>
    intro id command pid there
    rw [idle.commands] at there
    cases there
  case knows =>
    intro id command there
    rw [idle.commands] at there
    cases there
  case safe =>
    rw [idle.history]
    trivial

/-- **What a stop signals answered as its record says, and no command removes the record of
a server that lives and is reachable**, whatever the discovery files hold. -/
theorem stop_hits_its_target (host : Host) (start : System) (idle : Idle start)
    {labels : List Label} {last : System}
    (run : Run (step host) (fun system label => Assumed system label ∧ Undisturbed host system label)
      start labels last) : Safe last.history := by
  have sound : Sound host last := by
    refine run.invariant (Sound host) (fun _ _ _ held allowed steps => ?_) idle.sound
    exact held.step allowed.1 allowed.2 steps
  exact sound.safe

/-! ## A record that changes behind the inspection -/

def loopback (port : Nat) : SocketAddr := ⟨.v4 127 0 0 1, port⟩

def localHost : Host where
  toSocketAddrs := fun text =>
    if text = "127.0.0.1:9" then .ok [loopback 9] else .ok [loopback 4100]
  display := fun address => if address.port = 9 then "127.0.0.1:9" else "127.0.0.1:4100"

def idleHost : System where
  files := fun _ => none
  database := fun _ => none
  servers := fun _ => none
  listener := fun _ => none
  others := fun _ => false
  commands := fun _ => none
  history := []

theorem idleHost_idle : Idle idleHost := ⟨fun _ => rfl, fun _ => rfl, fun _ => rfl, rfl⟩

/-- What a server left that is gone: its process id was 7. -/
def leftRecord : Content := threadServerInfo localHost (loopback 9) 7 "old"

/-- A stop up to its probe. -/
def stopReads : List Label := [.edit "/w" (some leftRecord), .call 1 20 "/w" .stop, .read 1]

theorem left_record_cleared :
    ∃ labels last, play (step localHost) idleHost labels = some last ∧
      (∃ report, last.history = [report, .removed "/w" false]) ∧ Safe last.history := by
  have ends : ((play (step localHost) idleHost stopReads).bind fun reading =>
      ((step localHost reading (.probe 1)).bind fun probed => step localHost probed (.remove 1)).map
        fun last => (reading.servers, last.history)) =
      some (fun _ => none, [.reported "/w" .stop "stale_registration_cleared"
        (some ⟨"http://127.0.0.1:9", 7, threadTruthLayer, threadOperatorPlane,
          threadPersistenceLayer, threadAttachApi, "old"⟩) none none, .removed "/w" false]) := by
    with_unfolding_all rfl
  obtain ⟨reading, reads, ends⟩ := Option.bind_eq_some_iff.1 ends
  obtain ⟨last, ends, same⟩ := Option.map_eq_some_iff.1 ends
  obtain ⟨probed, probes, removes⟩ := Option.bind_eq_some_iff.1 ends
  obtain ⟨servers, history⟩ := Prod.mk.inj same
  have run : Run (step localHost)
      (fun system label => Assumed system label ∧ Undisturbed localHost system label)
      idleHost stopReads reading := by
    apply Run.of_labels _ ((run_iff_play _ _ _ _).2 reads)
    simp [stopReads, Assumed, Undisturbed]
  have probing : Undisturbed localHost reading (.probe 1) := by
    intro _ _ info _ _ _ _
    rw [servers]
  have removing : Undisturbed localHost probed (.remove 1) := trivial
  have run := Run.snoc (Run.snoc run ⟨show Assumed reading (.probe 1) from trivial, probing⟩ probes)
    ⟨show Assumed probed (.remove 1) from trivial, removing⟩ removes
  exact ⟨_, last, (run_iff_play _ _ _ _).1 (run.mono fun _ _ _ => trivial), ⟨_, history⟩,
    stop_hits_its_target localHost idleHost idleHost_idle run⟩

/-- A server starts under process id 7, and writes its record between the probe of the stop
and its removal. -/
def writtenBetween : List Label :=
  [.bind 7 (loopback 4100), .load 7 "new", .call 1 20 "/w" .stop, .read 1, .probe 1, .write 7,
    .print 7 true, .remove 1]

/-- **The stop removes the record of a server that lives and is reachable.** -/
theorem new_record_removed :
    ¬∀ (host : Host) (start : System), Idle start → ∀ labels last,
      Run (step host) Assumed start labels last → Safe last.history := by
  intro safe
  have ends : ((step localHost idleHost (.edit "/w" (some leftRecord))).bind fun edited =>
      (step localHost edited (.launch 7 "/w")).bind fun launched =>
        (play (step localHost) launched writtenBetween).map fun last => last.history) =
      some [.reported "/w" .stop "stale_registration_cleared"
        (some ⟨"http://127.0.0.1:9", 7, threadTruthLayer, threadOperatorPlane,
          threadPersistenceLayer, threadAttachApi, "old"⟩) none none, .removed "/w" true] := by
    with_unfolding_all rfl
  obtain ⟨edited, edits, ends⟩ := Option.bind_eq_some_iff.1 ends
  obtain ⟨launched, launches, ends⟩ := Option.bind_eq_some_iff.1 ends
  obtain ⟨last, played, history⟩ := Option.map_eq_some_iff.1 ends
  have unseen : Unseen edited 7 := by
    cases edits
    intro id command there
    cases there
  have rest : Run (step localHost) Assumed launched writtenBetween last := by
    apply Run.of_labels _ ((run_iff_play _ _ _ _).2 played)
    simp [writtenBetween, Assumed]
  have run := Run.cons trivial edits (Run.cons unseen launches rest)
  have isSafe := safe localHost idleHost idleHost_idle _ last run
  rw [history] at isSafe
  exact Bool.noConfusion isSafe.1

end Openyak.Cli.ThreadServers
