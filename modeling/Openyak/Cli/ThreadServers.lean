/-
# Cli.ThreadServers -- the commands on the local thread server, and the servers

A workspace has a discovery file, in which a server writes where it listens, its process id
and its operator token.  The commands `server start --detach`, `server recover` and
`server stop` read it, probe the address and ask whoever listens there who it is, and go by
the answer; the server itself, and the foreground command `server`, write it without
looking.

Everything that happens is a step of one system: of a server, of a command, or of a hand
that edits the file.  `history` is what came to pass, the newest first; nothing reads it.
-/
import Openyak.Runtime.Settings

namespace Openyak.Cli.ThreadServers

open Openyak.Runtime (SerdeValue)
open Openyak.Theory (JsonTree JsonEntries)

set_option autoImplicit false

/-! ## Addresses -/

inductive IpAddr where
  | v4 (a b c d : Nat)
  | v6 (segments : List Nat)
  deriving DecidableEq, Repr

def IpAddr.isLoopback : IpAddr → Bool
  | .v4 a _ _ _ => a = 127
  | .v6 segments => segments = [0, 0, 0, 0, 0, 0, 0, 1]

structure SocketAddr where
  ip : IpAddr
  port : Nat
  deriving DecidableEq, Repr

/-- What the commands use of the system's addresses. -/
structure Host where
  toSocketAddrs : String → Except String (List SocketAddr)
  display : SocketAddr → String

def stripScheme (baseUrl : String) : Option String :=
  (List.isPrefixOf? "http://".toList baseUrl.toList).map String.ofList

def resolveLoopbackThreadServerAddresses (host : Host) (baseUrl : String) :
    Except String (List SocketAddr) := do
  let authority ← match stripScheme baseUrl with
    | some authority => .ok authority
    | none => .error ("thread server URL `" ++ baseUrl ++ "` must start with http://")
  let addresses ← host.toSocketAddrs authority
  if addresses.isEmpty then
    .error ("thread server URL `" ++ baseUrl ++ "` did not resolve to any socket address")
  else if addresses.any fun address => !address.ip.isLoopback then
    .error ("thread server URL `" ++ baseUrl ++
      "` is not loopback-only; early operator status only supports local discovery")
  else .ok addresses

/-- Some address asked for is one the running server's URL stands for. -/
def bindMatchesRunningServer (host : Host) (requestedBind baseUrl : String) :
    Except String Bool := do
  let requested ← host.toSocketAddrs requestedBind
  let running ← resolveLoopbackThreadServerAddresses host baseUrl
  return requested.any running.contains

def defaultDetachedServerBind : String := "127.0.0.1:0"

def requestedBindMatches (host : Host) (requestedBind baseUrl : String) : Except String Bool :=
  if requestedBind = defaultDetachedServerBind then .ok true
  else bindMatchesRunningServer host requestedBind baseUrl

/-! ## The discovery file -/

/-- What `serde_json` reads of a file, or why it does not. -/
abbrev Content := Except String SerdeValue

def field (value : SerdeValue) (key : String) : Option SerdeValue :=
  match value with
  | .object entries => entries.get? key
  | _ => none

def asU64 : SerdeValue → Option Nat
  | .number (.posInt value) => some value.toNat
  | _ => none

def asText : SerdeValue → Option String
  | .string text => some text
  | _ => none

structure ThreadServerInfoRecord where
  baseUrl : String
  pid : UInt32
  truthLayer : String
  operatorPlane : String
  persistence : String
  attachApi : String
  operatorToken : String
  deriving DecidableEq, Repr

def requireString (path : String) (value : SerdeValue) (key : String) : Except String String :=
  match (field value key).bind asText with
  | some text => .ok text
  | none => .error ("`" ++ path ++ "` is missing string field `" ++ key ++ "`")

def readPid (path : String) (value : SerdeValue) : Except String UInt32 :=
  match (field value "pid").bind asU64 with
  | none => .error ("`" ++ path ++ "` is missing integer field `pid`")
  | some pid =>
      if pid < 2 ^ 32 then .ok (UInt32.ofNat pid)
      else .error ("`" ++ path ++ "` has out-of-range `pid` value " ++ toString pid)

def readThreadServerInfo (path : String) (content : Content) :
    Except String ThreadServerInfoRecord := do
  let value ← content
  let pid ← readPid path value
  let baseUrl ← requireString path value "baseUrl"
  let truthLayer ← requireString path value "truthLayer"
  let operatorPlane ← requireString path value "operatorPlane"
  let persistence ← requireString path value "persistence"
  let attachApi ← requireString path value "attachApi"
  let operatorToken ← requireString path value "operatorToken"
  return { baseUrl, pid, truthLayer, operatorPlane, persistence, attachApi, operatorToken }

def threadTruthLayer : String := "daemon_local_v1"
def threadOperatorPlane : String := "local_loopback_operator_v1"
def threadPersistenceLayer : String := "workspace_sqlite_v1"
def threadAttachApi : String := "/v1/threads"

/-- The first pair that differs is the error. -/
def compareFields (differs : String → String → String → String) :
    List (String × String × String) → Except String Unit
  | [] => .ok ()
  | (name, actual, expected) :: rest =>
      if actual ≠ expected then .error (differs name actual expected)
      else compareFields differs rest

def validateThreadServerInfoContract (path : String) (info : ThreadServerInfoRecord) :
    Except String Unit :=
  compareFields (fun name actual expected => "`" ++ path ++ "` field `" ++ name ++
      "` expected `" ++ expected ++ "` but found `" ++ actual ++ "`")
    [("truthLayer", info.truthLayer, threadTruthLayer),
      ("operatorPlane", info.operatorPlane, threadOperatorPlane),
      ("persistence", info.persistence, threadPersistenceLayer),
      ("attachApi", info.attachApi, threadAttachApi)]

def threadServerInfoMatchesPid (content : Content) (pid : UInt32) : Bool :=
  match content with
  | .ok value => (field value "pid").bind asU64 = some pid.toNat
  | .error _ => false

/-- What a server writes. -/
def threadServerInfo (host : Host) (address : SocketAddr) (pid : UInt32) (operatorToken : String) :
    Content :=
  .ok (.object (.ofMembers [
    ("baseUrl", .string ("http://" ++ host.display address)),
    ("pid", .number (.posInt pid.toUInt64)),
    ("truthLayer", .string threadTruthLayer),
    ("operatorPlane", .string threadOperatorPlane),
    ("persistence", .string threadPersistenceLayer),
    ("attachApi", .string threadAttachApi),
    ("operatorToken", .string operatorToken)]))

/-! ## Servers and commands -/

/-- How far `run_server` is.  The listener is open from `bound` to `unprinted`: a server
whose first line could not be printed drops its guard before its listener, and one that
served drops its listener first. -/
inductive ServerPhase where
  | launched
  | bound (address : SocketAddr)
  | loaded (address : SocketAddr) (operatorToken : String)
  | written (address : SocketAddr) (operatorToken : String)
  | serving (address : SocketAddr) (operatorToken : String)
  | unprinted (address : SocketAddr) (operatorToken : String)
  | closed
  deriving DecidableEq, Repr

def ServerPhase.address? : ServerPhase → Option SocketAddr
  | .bound address | .loaded address _ | .written address _ | .serving address _
  | .unprinted address _ => some address
  | .launched | .closed => none

structure Server where
  workspace : String
  phase : ServerPhase
  deriving DecidableEq, Repr

inductive Aim where
  | start (bind : String)
  | recover
  | stop
  deriving DecidableEq, Repr

/-- What an inspection of the status is for. -/
inductive Stage where
  | own
  | preflight
  | refreshed
  | polling (child : UInt32)
  | failed (child : UInt32)
  deriving DecidableEq, Repr

inductive CommandPhase where
  | inspecting (stage : Stage)
  | probing (stage : Stage) (info : ThreadServerInfoRecord)
  | identifying (stage : Stage) (info : ThreadServerInfoRecord)
  | clearing (info : ThreadServerInfoRecord)
  | launching (cleared : Bool)
  | polling (child : UInt32)
  | killing (child : UInt32) (exited : Bool)
  | signalling (info : ThreadServerInfoRecord)
  | waiting (info : ThreadServerInfoRecord)
  | removing (info : ThreadServerInfoRecord)
  deriving DecidableEq, Repr

/-- `seen` are the process ids in use at some time since the command began. -/
structure Command where
  workspace : String
  pid : UInt32
  aim : Aim
  phase : CommandPhase
  seen : UInt32 → Bool

inductive Status where
  | notRunning
  | stale (info : ThreadServerInfoRecord)
  | invalid (problem : String)
  | running (info : ThreadServerInfoRecord)
  deriving DecidableEq, Repr

inductive Event where
  | answered (baseUrl operatorToken : String) (answerer : UInt32) (workspace : String)
  | signalled (workspace : String) (info : ThreadServerInfoRecord)
  | removed (workspace : String) (live : Bool)
  | reported (workspace : String) (aim : Aim) (status : String)
      (info : Option ThreadServerInfoRecord) (child : Option UInt32) (named : Option UInt32)

structure System where
  files : String → Option Content
  database : String → Option Nat
  servers : UInt32 → Option Server
  listener : SocketAddr → Option UInt32
  others : SocketAddr → Bool
  commands : Nat → Option Command
  history : List Event

namespace System

def setFile (system : System) (workspace : String) (content : Option Content) : System :=
  { system with files := Function.update system.files workspace content }

def setCommand (system : System) (id : Nat) (command : Option Command) : System :=
  { system with commands := Function.update system.commands id command }

/-- A server's next state, and the listener it has in it. -/
def setServer (system : System) (pid : UInt32) (server : Option Server) : System :=
  { system with
    servers := Function.update system.servers pid server
    listener := fun address =>
      if (server.bind fun server => server.phase.address?) = some address then some pid
      else if system.listener address = some pid then none
      else system.listener address }

def log (system : System) (event : Event) : System :=
  { system with history := event :: system.history }

/-- A process id is given to a new process. -/
def see (system : System) (pid : UInt32) : System :=
  { system with
    commands := fun id => (system.commands id).map fun command =>
      { command with seen := Function.update command.seen pid true } }

end System

/-! ## What a command finds out -/

def reachable (system : System) (address : SocketAddr) : Bool :=
  (system.listener address).isSome || system.others address

def probeLocalThreadServer (host : Host) (system : System) (baseUrl : String) :
    Except String Bool := do
  let addresses ← resolveLoopbackThreadServerAddresses host baseUrl
  return addresses.any (reachable system)

/-- Who listens at the address, serves, takes the token and answers in time. -/
def answererAt (system : System) (operatorToken : String) (timely : SocketAddr → Bool)
    (address : SocketAddr) : Option (UInt32 × String) := do
  let pid ← system.listener address
  let server ← system.servers pid
  match server.phase with
  | .serving _ token =>
      if token = operatorToken ∧ timely address = true then some (pid, server.workspace) else none
  | _ => none

/-- The process id and the workspace of the first listener that answers. -/
def readThreadServerOperatorIdentity (host : Host) (system : System)
    (timely : SocketAddr → Bool) (info : ThreadServerInfoRecord) :
    Except String (UInt32 × String) := do
  let addresses ← resolveLoopbackThreadServerAddresses host info.baseUrl
  match addresses.findSome? (answererAt system info.operatorToken timely) with
  | some identity => .ok identity
  | none => .error ("failed to contact operator identity endpoint on `" ++ info.baseUrl ++ "`")

/-- The answer is of the process and the workspace that are recorded.  The labels a server
reports are the constants. -/
def validateIdentity (workspace : String) (info : ThreadServerInfoRecord)
    (identity : UInt32 × String) : Except String Unit :=
  if identity.1 ≠ info.pid then
    .error ("reachable listener `" ++ info.baseUrl ++ "` reported pid " ++
      toString identity.1 ++ " but discovery recorded pid " ++ toString info.pid)
  else if identity.2 ≠ workspace then
    .error ("reachable listener `" ++ info.baseUrl ++ "` reported workspace `" ++ identity.2 ++
      "` but discovery belongs to `" ++ workspace ++ "`")
  else
    compareFields (fun name actual expected => "reachable listener `" ++ info.baseUrl ++
        "` reported " ++ name ++ " `" ++ actual ++ "` but discovery recorded `" ++ expected ++ "`")
      [("truth_layer", threadTruthLayer, info.truthLayer),
        ("operator_plane", threadOperatorPlane, info.operatorPlane),
        ("persistence", threadPersistenceLayer, info.persistence),
        ("attach_api", threadAttachApi, info.attachApi)]

/-- A file that names a server that lives and can be reached where it says. -/
def namesLive (host : Host) (system : System) (content : Content) : Bool :=
  match readThreadServerInfo "" content with
  | .error _ => false
  | .ok info =>
      match resolveLoopbackThreadServerAddresses host info.baseUrl with
      | .error _ => false
      | .ok addresses => addresses.any fun address => system.listener address = some info.pid

def discoveryPath (workspace : String) : String := workspace ++ "/.openyak/thread-server.json"

/-- The server process that the discovery file names, if it serves the workspace and listens
where the file says. -/
def namedServer (host : Host) (system : System) (workspace : String) : Option UInt32 := do
  let content ← system.files workspace
  let info ← (readThreadServerInfo (discoveryPath workspace) content).toOption
  let addresses ← (resolveLoopbackThreadServerAddresses host info.baseUrl).toOption
  let server ← system.servers info.pid
  match server.phase with
  | .serving _ operatorToken =>
      if server.workspace = workspace ∧ operatorToken = info.operatorToken ∧
          (addresses.any fun address => system.listener address = some info.pid) = true then
        some info.pid
      else none
  | _ => none

/-! ## What a command does about it -/

/-- The command is over, with this status. -/
def report (host : Host) (system : System) (id : Nat) (command : Command) (status : String)
    (info : Option ThreadServerInfoRecord) (child : Option UInt32) : System :=
  (system.log (.reported command.workspace command.aim status info child
    (namedServer host system command.workspace))).setCommand id none

def goOn (system : System) (id : Nat) (command : Command) (phase : CommandPhase) : System :=
  system.setCommand id (some { command with phase })

/-- The bind that a start asks for. -/
def Aim.bind : Aim → String
  | .start bind => bind
  | .recover | .stop => defaultDetachedServerBind

/-- A start found a running server. -/
def runningStartReport (host : Host) (system : System) (id : Nat) (command : Command)
    (info : ThreadServerInfoRecord) : System :=
  match requestedBindMatches host command.aim.bind info.baseUrl with
  | .error _ => system.setCommand id none
  | .ok true => report host system id command "already_running" (some info) none
  | .ok false => report host system id command "bind_conflict" (some info) none

def startedStatus : Aim → String
  | .recover => "recovered"
  | _ => "started"

def startFailedStatus : Aim → String
  | .recover => "recover_failed"
  | _ => "start_failed"

/-- What follows from an inspection. -/
def conclude (host : Host) (system : System) (id : Nat) (command : Command) :
    Stage → Status → System
  | .own, status =>
      match command.aim, status with
      | .stop, .notRunning => report host system id command "already_stopped" none none
      | .stop, .stale info => goOn system id command (.clearing info)
      | .stop, .invalid _ => report host system id command "invalid_registration" none none
      | .stop, .running info =>
          if info.pid = command.pid then report host system id command "stop_failed" (some info) none
          else goOn system id command (.signalling info)
      | _, .running info => report host system id command "already_running" (some info) none
      | _, .notRunning =>
          if system.database command.workspace = none ∨ system.database command.workspace = some 0
          then report host system id command "nothing_to_recover" none none
          else goOn system id command (.inspecting .preflight)
      | _, .stale _ => goOn system id command (.inspecting .preflight)
      | _, .invalid _ => report host system id command "invalid_registration" none none
  | .preflight, status =>
      match status with
      | .running info => runningStartReport host system id command info
      | .invalid _ => report host system id command "invalid_registration" none none
      | .stale info => goOn system id command (.clearing info)
      | .notRunning => goOn system id command (.launching false)
  | .refreshed, status =>
      match status with
      | .running info => runningStartReport host system id command info
      | .invalid _ => report host system id command "invalid_registration" none none
      | .stale _ | .notRunning => goOn system id command (.launching false)
  | .polling child, status =>
      match status with
      | .running info =>
          if info.pid = child then
            report host system id command (startedStatus command.aim) (some info) (some child)
          else goOn system id command (.killing child false)
      | _ => goOn system id command (.polling child)
  | .failed child, _ =>
      report host system id command (startFailedStatus command.aim) none (some child)

/-- A check-and-remove, as one step. -/
def removeIfMatchesPid (host : Host) (system : System) (workspace : String) (pid : UInt32) :
    System × Bool :=
  match system.files workspace with
  | none => (system, false)
  | some content =>
      if threadServerInfoMatchesPid content pid then
        ((system.log (.removed workspace (namesLive host system content))).setFile workspace none,
          true)
      else (system, false)

/-! ## The steps of an inspection -/

/-- The discovery file is read, and its labels are checked. -/
def readDiscovery (host : Host) (system : System) (id : Nat) (command : Command) (stage : Stage) :
    System :=
  match system.files command.workspace with
  | none => conclude host system id command stage .notRunning
  | some content =>
      let path := discoveryPath command.workspace
      match (do
        let info ← readThreadServerInfo path content
        validateThreadServerInfoContract path info
        return info) with
      | .error problem => conclude host system id command stage (.invalid problem)
      | .ok info => goOn system id command (.probing stage info)

def probeDiscovery (host : Host) (system : System) (id : Nat) (command : Command) (stage : Stage)
    (info : ThreadServerInfoRecord) : System :=
  match probeLocalThreadServer host system info.baseUrl with
  | .error problem => conclude host system id command stage (.invalid problem)
  | .ok false => conclude host system id command stage (.stale info)
  | .ok true => goOn system id command (.identifying stage info)

/-- Whoever answers is asked who it is. -/
def identifyDiscovery (host : Host) (system : System) (id : Nat) (command : Command)
    (stage : Stage) (info : ThreadServerInfoRecord) (timely : SocketAddr → Bool) : System :=
  match readThreadServerOperatorIdentity host system timely info with
  | .error problem => conclude host system id command stage (.invalid problem)
  | .ok identity =>
      let answered := system.log
        (.answered info.baseUrl info.operatorToken identity.1 identity.2)
      match validateIdentity command.workspace info identity with
      | .error problem => conclude host answered id command stage (.invalid problem)
      | .ok _ => conclude host answered id command stage (.running info)

/-! ## The steps of the system -/

inductive Label where
  /-- A hand writes or removes the discovery file. -/
  | edit (workspace : String) (content : Option Content)
  /-- A listener that is no thread server comes or goes. -/
  | foreign (address : SocketAddr) (isOpen : Bool)
  /-- The foreground command `server`. -/
  | launch (pid : UInt32) (workspace : String)
  | bind (pid : UInt32) (address : SocketAddr)
  | load (pid : UInt32) (operatorToken : String)
  | write (pid : UInt32)
  | print (pid : UInt32) (printed : Bool)
  | persist (pid : UInt32)
  | returns (pid : UInt32)
  | dropGuard (pid : UInt32)
  /-- The process is gone: it failed, crashed, or died of a signal. -/
  | die (pid : UInt32)
  | call (id : Nat) (pid : UInt32) (workspace : String) (aim : Aim)
  | read (id : Nat)
  | probe (id : Nat)
  | identify (id : Nat) (timely : SocketAddr → Bool)
  | remove (id : Nat)
  | spawn (id : Nat) (pid : UInt32)
  /-- A look at the launched child; `timedOut` if the time is up. -/
  | look (id : Nat) (timedOut : Bool)
  | kill (id : Nat)
  | signal (id : Nat) (delivered : Bool)
  /-- A look at the signalled process; a dead one may still be listed. -/
  | wait (id : Nat) (listed timedOut : Bool)
  /-- The command fails or is interrupted. -/
  | fail (id : Nat)

/-- A server that was launched. -/
def launchServer (system : System) (pid : UInt32) (workspace : String) : Option System :=
  if system.servers pid = none then
    some ((system.see pid).setServer pid (some ⟨workspace, .launched⟩))
  else none

def firstStage : Aim → Stage
  | .start _ => .preflight
  | .recover | .stop => .own

/-- A step of a server. -/
def serverStep (host : Host) (system : System) (pid : UInt32) (server : Server) :
    Label → Option System
  | .bind _ address =>
      match server.phase with
      | .launched =>
          if system.listener address = none ∧ system.others address = false ∧
              address.ip.isLoopback = true then
            some (system.setServer pid (some { server with phase := .bound address }))
          else none
      | _ => none
  | .load _ operatorToken =>
      match server.phase with
      | .bound address =>
          let threads := (system.database server.workspace).getD 0
          some (({ system with
            database := Function.update system.database server.workspace (some threads) }).setServer
              pid (some { server with phase := .loaded address operatorToken }))
      | _ => none
  | .write _ =>
      match server.phase with
      | .loaded address token =>
          some ((system.setFile server.workspace
            (some (threadServerInfo host address pid token))).setServer pid
              (some { server with phase := .written address token }))
      | _ => none
  | .print _ printed =>
      match server.phase with
      | .written address token =>
          some (system.setServer pid (some { server with
            phase := if printed then .serving address token else .unprinted address token }))
      | _ => none
  | .persist _ =>
      match server.phase with
      | .serving _ _ =>
          some { system with
            database := Function.update system.database server.workspace
              ((system.database server.workspace).map (· + 1)) }
      | _ => none
  | .returns _ =>
      match server.phase with
      | .serving _ _ => some (system.setServer pid (some { server with phase := .closed }))
      | _ => none
  | .dropGuard _ =>
      match server.phase with
      | .closed | .unprinted _ _ =>
          some ((removeIfMatchesPid host system server.workspace pid).1.setServer pid none)
      | _ => none
  | .die _ => some (system.setServer pid none)
  | _ => none

/-- A step of a command. -/
def commandStep (host : Host) (system : System) (id : Nat) (command : Command) :
    Label → Option System
  | .read _ =>
      match command.phase with
      | .inspecting stage => some (readDiscovery host system id command stage)
      | _ => none
  | .probe _ =>
      match command.phase with
      | .probing stage info => some (probeDiscovery host system id command stage info)
      | _ => none
  | .identify _ timely =>
      match command.phase with
      | .identifying stage info => some (identifyDiscovery host system id command stage info timely)
      | _ => none
  | .remove _ =>
      match command.phase with
      | .clearing info =>
          let removal := removeIfMatchesPid host system command.workspace info.pid
          match command.aim with
          | .stop =>
              some (report host removal.1 id command
                (if removal.2 then "stale_registration_cleared" else "already_stopped")
                (some info) none)
          | _ =>
              some (goOn removal.1 id command
                (if removal.2 then .launching true else .inspecting .refreshed))
      | .removing info =>
          let removal := removeIfMatchesPid host system command.workspace info.pid
          some (report host removal.1 id command "stopped" (some info) none)
      | _ => none
  | .spawn _ pid =>
      match command.phase with
      | .launching _ =>
          (launchServer system pid command.workspace).bind fun after =>
            (after.commands id).map fun command => goOn after id command (.polling pid)
      | _ => none
  | .look _ timedOut =>
      match command.phase with
      | .polling child =>
          if (system.servers child).isNone then
            some (goOn system id command (.killing child true))
          else if timedOut then some (goOn system id command (.killing child false))
          else some (goOn system id command (.inspecting (.polling child)))
      | _ => none
  | .kill _ =>
      match command.phase with
      | .killing child exited =>
          some (goOn (if exited then system else system.setServer child none) id command
            (.inspecting (.failed child)))
      | _ => none
  | .signal _ delivered =>
      match command.phase with
      | .signalling info =>
          let signalled := system.log (.signalled command.workspace info)
          some (if delivered then goOn signalled id command (.waiting info)
            else signalled.setCommand id none)
      | _ => none
  | .wait _ listed timedOut =>
      match command.phase with
      | .waiting info =>
          let gone := (system.servers info.pid).isNone && !listed
          if gone ∨ probeLocalThreadServer host system info.baseUrl ≠ .ok true then
            some (goOn system id command (.removing info))
          else if timedOut then some (report host system id command "stop_failed" (some info) none)
          else some system
      | _ => none
  | .fail _ => some (system.setCommand id none)
  | _ => none

/-- The server or the command that a label is of. -/
def Label.server? : Label → Option UInt32
  | .bind pid _ | .load pid _ | .write pid | .print pid _ | .persist pid | .returns pid
  | .dropGuard pid | .die pid => some pid
  | _ => none

def Label.command? : Label → Option Nat
  | .read id | .probe id | .identify id _ | .remove id | .spawn id _ | .look id _ | .kill id
  | .signal id _ | .wait id _ _ | .fail id => some id
  | _ => none

def step (host : Host) (system : System) (label : Label) : Option System :=
  match label with
  | .edit workspace content => some (system.setFile workspace content)
  | .foreign address isOpen =>
      if system.listener address = none then
        some { system with others := Function.update system.others address isOpen }
      else none
  | .launch pid workspace => launchServer system pid workspace
  | .call id pid workspace aim =>
      if system.commands id = none then
        some (system.setCommand id (some ⟨workspace, pid, aim, .inspecting (firstStage aim),
          fun pid => (system.servers pid).isSome⟩))
      else none
  | label =>
      match label.server?, label.command? with
      | some pid, _ => (system.servers pid).bind fun server => serverStep host system pid server label
      | none, some id =>
          (system.commands id).bind fun command => commandStep host system id command label
      | none, none => none

end Openyak.Cli.ThreadServers
