/-
# Runtime.McpKeeps -- what every operation of the manager keeps

The operations are made of a few steps: a new id, a turn of the environment, a request, an
acceptance, a process started, marked as ready or stopped, and the routes of a server
cleared and set.  A condition that each of these steps keeps (`Kept`, and for the routes
`KeptRoutes`) is kept by every operation, whether it succeeds or fails on the way.

`spoken` are the requests the steps are about, and `right` is what a request promises of
the response it returns.
-/
import Mathlib.Data.List.Induction
import Openyak.Runtime.McpStdio

namespace Openyak.Runtime.Mcp

open Openyak.Theory

set_option autoImplicit false

/-- The answer to a request carries its id, at whichever type it is read. -/
structure McpSerde.Answers (serde : McpSerde) (request : JsonRpcRequest McpParams)
    (payload : List UInt8) : Prop where
  initializeResponse : ∀ response, serde.initializeResponse payload = .ok response →
    response.id = request.id
  listToolsResponse : ∀ response, serde.listToolsResponse payload = .ok response →
    response.id = request.id
  toolCallResponse : ∀ response, serde.toolCallResponse payload = .ok response →
    response.id = request.id

/-- One of the three readers, as far as ids go. -/
def McpSerde.Reads (serde : McpSerde) {α : Type}
    (decode : List UInt8 → Except String (JsonRpcResponse α)) : Prop :=
  ∀ message payload response, serde.Answers message payload → decode payload = .ok response →
    response.id = message.id

structure Kept (serde : McpSerde) (environment : Nat → Turn) (spoken : McpParams → Prop)
    (holds : World → Prop) (right : Accepted → Prop) : Prop where
  initializes : spoken (.initializeParams defaultInitializeParams)
  requestId : ∀ {world} id, holds world → holds (world.setRequestId id)
  turn : ∀ {world : World}, holds world → holds { world with clock := world.clock + 1 }
  accept : ∀ {world : World} {accepted}, holds world → right accepted →
    holds { world with accepted := world.accepted ++ [accepted] }
  request : ∀ {α : Type} {decode : List UInt8 → Except String (JsonRpcResponse α)}
    {world name server process id method params} (_ : spoken params), serde.Reads decode →
    holds world → world.manager.servers name = some server → server.process = some process →
    let result := request environment decode name server process
      (JsonRpcRequest.new id method (some params)) world
    holds result.2 ∧ ∀ answer, result.1 = .ok answer → right answer.accepted
  spawn : ∀ {world name server}, holds world → world.manager.servers name = some server →
    server.process = none → holds (world.setServer name { process := some {} })
  ready : ∀ {world name server}, holds world → world.manager.servers name = some server →
    holds (world.setServer name { server with initialized := true })

structure KeptRoutes (serde : McpSerde) (environment : Nat → Turn) (spoken : McpParams → Prop)
    (allowed : String → Prop) (holds : World → Prop) (right : Accepted → Prop) : Prop
    extends Kept serde environment spoken holds right where
  lists : ∀ cursor, spoken (.listToolsParams ⟨cursor⟩)
  names : ∀ {world}, holds world → ∀ name ∈ world.manager.names, allowed name
  clear : ∀ {world} name, holds world → holds (world.clearRoutes name)
  insert : ∀ {world name} (tools : List McpTool), allowed name → holds world →
    holds (world.insertRoutes (tools.map (ManagedMcpTool.of name)))
  stop : ∀ {world name server process}, holds world → world.manager.servers name = some server →
    server.process = some process →
    holds (world.setServer name { server with process := some { process with running := false } })
  drop : ∀ {world} name, holds world → holds (world.setServer name {})

section Operations

variable {serde : McpSerde} {environment : Nat → Turn} {spoken : McpParams → Prop}
  {holds : World → Prop} {right : Accepted → Prop}
  (kept : Kept serde environment spoken holds right)

theorem serverMut_keeps (name : String) : Action.Keeps holds (serverMut name) :=
  Action.Keeps.bind Action.Keeps.get fun _ => Action.Keeps.orFail _ _

/-- A server that was looked up stands there. -/
theorem serverMut_found (name : String) :
    Action.Ensures holds (serverMut name) fun result world => holds world ∧
      ∀ server, result = .ok server → world.manager.servers name = some server := by
  intro world held
  refine ⟨serverMut_keeps name world held, fun server same => ?_⟩
  obtain ⟨still, found⟩ := serverMut_ok (Prod.ext same rfl)
  exact (congrArg (fun after => after.manager.servers name = some server) still).mpr found

include kept

theorem takeRequestId_keeps : Action.Keeps holds takeRequestId := by
  refine Action.Keeps.bind Action.Keeps.get fun world => ?_
  exact Action.Keeps.bind (Action.Keeps.modify fun world held => kept.requestId _ held)
    fun _ => Action.Keeps.pure _

theorem accept_keeps {accepted : Accepted} (isRight : right accepted) :
    Action.Keeps holds (accept accepted) :=
  Action.Keeps.modify fun _ held => kept.accept held isRight

theorem requestFrom_keeps {α : Type} {decode : List UInt8 → Except String (JsonRpcResponse α)}
    (reads : serde.Reads decode) (serverName method details : String) {params : McpParams}
    (isSpoken : spoken params) :
    Action.Ensures holds (requestFrom environment decode serverName method details params)
      fun result world => holds world ∧ ∀ answer, result = .ok answer → right answer.accepted := by
  refine Action.Ensures.bind (takeRequestId_keeps kept) (fun id => ?_) fun error world held =>
    ⟨held, fun answer same => by cases same⟩
  refine Action.Ensures.bind (serverMut_found serverName) (fun server => ?_)
    fun error world held => ⟨held.1, fun answer same => by cases same⟩
  rintro world ⟨held, standing⟩
  cases isThere : server.process with
  | none =>
      refine ⟨held, fun answer same => ?_⟩
      cases same
  | some process => exact kept.request isSpoken reads held (standing server rfl) isThere

/-- A request and what is done with its answer. -/
theorem requestFrom_then {α β : Type} {decode : List UInt8 → Except String (JsonRpcResponse α)}
    (reads : serde.Reads decode) (serverName method details : String) {params : McpParams}
    (isSpoken : spoken params) {next : Answer α → ManagerAction β}
    (rest : ∀ answer, right answer.accepted → Action.Keeps holds (next answer)) :
    Action.Keeps holds
      (requestFrom environment decode serverName method details params >>= next) := by
  refine Action.Ensures.bind (requestFrom_keeps kept reads serverName method details isSpoken)
    (fun answer => ?_) fun error world held => held.1
  rintro world ⟨held, isRight⟩
  exact rest answer (isRight answer rfl) world held

theorem resultOf_keeps {α : Type} (serverName method : String) {answer : Answer α}
    (isRight : right answer.accepted) : Action.Keeps holds (resultOf serverName method answer) := by
  unfold resultOf
  split
  · exact Action.Keeps.bind (accept_keeps kept isRight) fun _ => Action.Keeps.fail _
  · exact Action.Keeps.fail _
  · exact Action.Keeps.bind (accept_keeps kept isRight) fun _ => Action.Keeps.pure _

/-- A server is started only where it has no process. -/
theorem spawnServer_keeps {name : String} {server : ManagedMcpServer}
    (absent : server.process = none) :
    Action.Ensures (fun world => holds world ∧ world.manager.servers name = some server)
      (spawnServer environment name) fun _ => holds := by
  have turned : Action.Ensures
      (fun world => holds world ∧ world.manager.servers name = some server)
      (nextTurn environment)
      fun _ world => holds world ∧ world.manager.servers name = some server :=
    fun world held => ⟨kept.turn held.1, held.2⟩
  refine Action.Ensures.bind turned (fun turn => ?_) fun error world held => held.1
  split
  · exact fun world held => held.1
  · exact fun world held => kept.spawn held.1 held.2 absent

theorem initializeServer_keeps (name : String) :
    Action.Keeps holds (initializeServer serde environment name) := by
  refine requestFrom_then kept (fun _ _ response answers => answers.initializeResponse response)
    _ _ _ kept.initializes fun answer isRight => ?_
  refine Action.Keeps.bind (resultOf_keeps kept _ _ isRight) fun _ => ?_
  refine Action.Ensures.bind (serverMut_found name) (fun server => ?_) fun error world held => held.1
  exact fun world held => kept.ready held.1 (held.2 server rfl)

theorem ensureServerReady_keeps (name : String) :
    Action.Keeps holds (ensureServerReady serde environment name) := by
  refine Action.Ensures.bind (serverMut_found name) (fun server => ?_) fun error world held => held.1
  have started : Action.Ensures (fun world => holds world ∧
      ∀ other, (Except.ok server : Except Stop ManagedMcpServer) = .ok other →
        world.manager.servers name = some other)
      (Action.when server.process.isNone (spawnServer environment name)) fun _ => holds := by
    rintro world ⟨held, standing⟩
    unfold Action.when
    split
    · rename_i absent
      exact spawnServer_keeps kept (Option.isNone_iff_eq_none.1 absent) world
        ⟨held, standing server rfl⟩
    · exact held
  refine Action.Ensures.bind started (fun _ => ?_) fun error world held => held
  refine Action.Keeps.bind (serverMut_keeps name) fun server => ?_
  exact Action.Keeps.when _ (initializeServer_keeps kept name)

theorem callTool_keeps (calls : ∀ name arguments, spoken (.toolCallParams ⟨name, arguments, none⟩))
    (name : String) (arguments : Option Json) :
    Action.Keeps holds (callTool serde environment name arguments) := by
  refine Action.Keeps.bind Action.Keeps.get fun world => ?_
  refine Action.Keeps.bind (Action.Keeps.orFail _ _) fun route => ?_
  refine Action.Keeps.bind (ensureServerReady_keeps kept _) fun _ => ?_
  refine requestFrom_then kept (fun _ _ response answers => answers.toolCallResponse response)
    _ _ _ (calls _ _) fun answer isRight => ?_
  exact Action.Keeps.bind (accept_keeps kept isRight) fun _ => Action.Keeps.pure _

theorem listPages_keepsFor {name : String} (lists : ∀ cursor, spoken (.listToolsParams ⟨cursor⟩))
    (insert : ∀ {world} (tools : List McpTool), holds world →
      holds (world.insertRoutes (tools.map (ManagedMcpTool.of name))))
    (pages : Nat) (cursor : Option String) (discovered : List ManagedMcpTool) :
    Action.Keeps holds (listPages serde environment name pages cursor discovered) := by
  induction pages generalizing cursor discovered with
  | zero => exact Action.Keeps.fail _
  | succ pages ih =>
      refine requestFrom_then kept (fun _ _ response answers => answers.listToolsResponse response)
        _ _ _ (lists cursor) fun answer isRight => ?_
      refine Action.Keeps.bind (resultOf_keeps kept _ _ isRight) fun result => ?_
      refine Action.Keeps.bind (Action.Keeps.modify fun world held => insert result.tools held)
        fun _ => ?_
      split
      · exact ih _ _
      · exact Action.Keeps.pure _

/-- What clearing and setting the routes of the servers keeps too, a discovery keeps. -/
theorem discoverFrom_keepsFor (lists : ∀ cursor, spoken (.listToolsParams ⟨cursor⟩)) (pages : Nat)
    {names : List String} (clear : ∀ {world}, ∀ name ∈ names, holds world → holds (world.clearRoutes name))
    (insert : ∀ {world}, ∀ name ∈ names, ∀ tools : List McpTool, holds world →
      holds (world.insertRoutes (tools.map (ManagedMcpTool.of name))))
    (discovered : List ManagedMcpTool) :
    Action.Keeps holds (discoverFrom serde environment pages names discovered) := by
  induction names generalizing discovered with
  | nil => exact Action.Keeps.pure _
  | cons name names ih =>
      have first : name ∈ name :: names := List.mem_cons_self
      refine Action.Keeps.bind (ensureServerReady_keeps kept name) fun _ => ?_
      refine Action.Keeps.bind (Action.Keeps.modify fun world held => clear name first held)
        fun _ => ?_
      refine Action.Keeps.bind (listPages_keepsFor kept lists
        (fun tools held => insert name first tools held) pages none discovered) fun found => ?_
      exact ih (fun other later => clear other (List.mem_cons_of_mem _ later))
        (fun other later => insert other (List.mem_cons_of_mem _ later)) found

end Operations

section Routes

variable {serde : McpSerde} {environment : Nat → Turn} {spoken : McpParams → Prop}
  {allowed : String → Prop} {holds : World → Prop} {right : Accepted → Prop}
  (kept : KeptRoutes serde environment spoken allowed holds right)

include kept

theorem discoverFrom_keeps (pages : Nat) {names : List String}
    (areAllowed : ∀ name ∈ names, allowed name) (discovered : List ManagedMcpTool) :
    Action.Keeps holds (discoverFrom serde environment pages names discovered) := by
  refine discoverFrom_keepsFor kept.toKept kept.lists pages ?_ ?_ discovered
  · exact fun name _ held => kept.clear name held
  · exact fun name member tools held => kept.insert tools (areAllowed name member) held

theorem discoverTools_keeps (pages : Nat) :
    Action.Keeps holds (discoverTools serde environment pages) :=
  fun world held => discoverFrom_keeps kept pages (kept.names held) [] world held

theorem stopChild_keeps {name : String} {server : ManagedMcpServer} {process : McpStdioProcess}
    (isThere : server.process = some process) (turn : Turn) :
    Action.Ensures (fun world => holds world ∧ world.manager.servers name = some server)
      (stopChild name server process turn) fun _ => holds := by
  unfold stopChild
  split
  · exact fun world held => held.1
  · exact fun world held => held.1
  · exact fun world held => kept.stop held.1 held.2 isThere
  · exact fun world held => kept.stop held.1 held.2 isThere

theorem shutdownServer_keeps (name : String) (server : ManagedMcpServer) :
    Action.Ensures (fun world => holds world ∧ world.manager.servers name = some server)
      (shutdownServer environment name server) fun _ => holds := by
  unfold shutdownServer
  split
  · exact fun world held => held.1
  rename_i process isThere
  have turned : Action.Ensures
      (fun world => holds world ∧ world.manager.servers name = some server)
      (nextTurn environment)
      fun _ world => holds world ∧ world.manager.servers name = some server :=
    fun world held => ⟨kept.turn held.1, held.2⟩
  refine Action.Ensures.bind turned (fun turn => ?_) fun error world held => held.1
  refine Action.Ensures.bind (stopChild_keeps kept isThere turn) (fun _ => ?_)
    fun error world held => held
  split
  · exact Action.Keeps.fail _
  · exact Action.Keeps.pure _

theorem shutdownFrom_keeps (names : List String) :
    Action.Keeps holds (shutdownFrom environment names) := by
  induction names with
  | nil => exact Action.Keeps.pure _
  | cons name names ih =>
      refine Action.Ensures.bind (serverMut_found name) (fun server => ?_)
        fun error world held => held.1
      have stopped : Action.Ensures (fun world => holds world ∧
          ∀ other, (Except.ok server : Except Stop ManagedMcpServer) = .ok other →
            world.manager.servers name = some other)
          (shutdownServer environment name server) fun _ => holds :=
        fun world held => shutdownServer_keeps kept name server world ⟨held.1, held.2 server rfl⟩
      refine Action.Ensures.bind stopped (fun _ => ?_) fun error world held => held
      exact Action.Keeps.bind (Action.Keeps.modify fun world held => kept.drop name held)
        fun _ => ih

theorem shutdown_keeps : Action.Keeps holds (shutdown environment) :=
  fun world held => shutdownFrom_keeps kept world.manager.names world held

end Routes

/-! ## Runs -/

/-- An operation of the manager; a discovery is run for so many pages. -/
inductive Operation where
  | discoverTools (pages : Nat)
  | ensureServerReady (serverName : String)
  | callTool (qualifiedToolName : String) (arguments : Option Json)
  | shutdown

/-- The world after an operation, whether it failed or not. -/
def Operation.after (serde : McpSerde) (environment : Nat → Turn) (world : World) :
    Operation → World
  | .discoverTools pages => (Mcp.discoverTools serde environment pages world).2
  | .ensureServerReady serverName => (Mcp.ensureServerReady serde environment serverName world).2
  | .callTool name arguments => (Mcp.callTool serde environment name arguments world).2
  | .shutdown => (Mcp.shutdown environment world).2

def afterOperations (serde : McpSerde) (environment : Nat → Turn) (servers : ServerConfigs)
    (operations : List Operation) : World :=
  operations.foldl (Operation.after serde environment) { manager := .fromServers servers }

/-- **What the steps keep holds after every run of operations.** -/
theorem afterOperations_holds {serde : McpSerde} {environment : Nat → Turn}
    {spoken : McpParams → Prop} {allowed : String → Prop} {holds : World → Prop}
    {right : Accepted → Prop} (kept : KeptRoutes serde environment spoken allowed holds right)
    (calls : ∀ name arguments, spoken (.toolCallParams ⟨name, arguments, none⟩)) (servers : ServerConfigs)
    (initially : holds { manager := .fromServers servers }) (operations : List Operation) :
    holds (afterOperations serde environment servers operations) := by
  unfold afterOperations
  induction operations using List.reverseRecOn with
  | nil => exact initially
  | append_singleton operations operation ih =>
      rw [List.foldl_append]
      cases operation with
      | discoverTools pages => exact discoverTools_keeps kept pages _ ih
      | ensureServerReady name => exact ensureServerReady_keeps kept.toKept name _ ih
      | callTool name arguments => exact callTool_keeps kept.toKept calls name arguments _ ih
      | shutdown => exact shutdown_keeps kept _ ih

end Openyak.Runtime.Mcp
