/-
# Runtime.McpStdio -- the manager of MCP servers that speak over stdio

A server is a child process.  A request is written to it as one frame, and the next frame
it has written is read as the answer; the id that the answer carries is not looked at.

The operations of the manager are actions on a `World`: the manager, and beside it what only
an observer sees, the requests sent and the responses accepted.  What the processes and the
system do is a parameter, one `Turn` for each time the manager meets them.  `serde_json` is
the three readers of `McpSerde`.
-/
import Mathlib.Logic.Function.Basic
import Openyak.Theory.Action
import Openyak.Theory.ByteStream
import Openyak.Theory.Decimal
import Openyak.Theory.Json
import Openyak.Runtime.Mcp

namespace Openyak.Runtime.Mcp

open Openyak.Theory Openyak.Theory.ByteStream
open Openyak.Theory.Text (stripPrefix trim)

set_option autoImplicit false

/-! ## JSON-RPC -/

inductive JsonRpcId where
  | number (value : UInt64)
  | string (value : String)
  | null
  deriving DecidableEq, Repr

structure JsonRpcRequest (α : Type) where
  jsonrpc : String
  id : JsonRpcId
  method : String
  params : Option α

def JsonRpcRequest.new {α : Type} (id : JsonRpcId) (method : String) (params : Option α) :
    JsonRpcRequest α := ⟨"2.0", id, method, params⟩

structure JsonRpcError where
  code : Int64
  message : String
  data : Option Json := none

structure JsonRpcResponse (α : Type) where
  jsonrpc : String
  id : JsonRpcId
  result : Option α := none
  error : Option JsonRpcError := none

structure McpInitializeClientInfo where
  name : String
  version : String

structure McpInitializeParams where
  protocolVersion : String
  capabilities : Json
  clientInfo : McpInitializeClientInfo

structure McpInitializeServerInfo where
  name : String
  version : String

structure McpInitializeResult where
  protocolVersion : String
  capabilities : Json
  serverInfo : McpInitializeServerInfo

structure McpListToolsParams where
  cursor : Option String

structure McpTool where
  name : String
  description : Option String := none
  inputSchema : Option Json := none
  annotations : Option Json := none
  metadata : Option Json := none

structure McpListToolsResult where
  tools : List McpTool
  nextCursor : Option String := none

structure McpToolCallParams where
  name : String
  arguments : Option Json
  metadata : Option Json

structure McpToolCallContent where
  kind : String
  data : List (String × Json)

structure McpToolCallResult where
  content : List McpToolCallContent := []
  structuredContent : Option Json := none
  isError : Option Bool := none
  metadata : Option Json := none

/-- The parameters of the three methods the manager calls. -/
inductive McpParams where
  | initializeParams (params : McpInitializeParams)
  | listToolsParams (params : McpListToolsParams)
  | toolCallParams (params : McpToolCallParams)

/-- `serde_json::from_slice` at the three types of response. -/
structure McpSerde where
  initializeResponse : List UInt8 → Except String (JsonRpcResponse McpInitializeResult)
  listToolsResponse : List UInt8 → Except String (JsonRpcResponse McpListToolsResult)
  toolCallResponse : List UInt8 → Except String (JsonRpcResponse McpToolCallResult)

/-! ## Frames -/

/-- Why `str::parse::<usize>` fails. -/
def parseIntError (text : List Char) : String :=
  if text = [] then "cannot parse integer from empty string"
  else if 2 ^ 64 ≤ Nat.ofDigitChars 10 ((Decimal.digits text).takeWhile Char.isDigit) 0 then
    "number too large to fit in target type"
  else "invalid digit found in string"

/-- The loop over the headers; every line takes at least one byte. -/
def readHeaders : Nat → Option Nat → List UInt8 → Except IoError (Option Nat) × List UInt8
  | 0, contentLength, bytes => (.ok contentLength, bytes)
  | lines + 1, contentLength, bytes =>
      let line := (takeLine bytes).1
      let rest := (takeLine bytes).2
      if line = [] then
        (.error ⟨.unexpectedEof, "MCP stdio stream closed while reading headers"⟩, rest)
      else
        match fromUtf8 line with
        | none => (.error ⟨.invalidData, "stream did not contain valid UTF-8"⟩, rest)
        | some text =>
            if text = ['\r', '\n'] then (.ok contentLength, rest)
            else
              match stripPrefix "Content-Length:" text with
              | none => readHeaders lines contentLength rest
              | some value =>
                  match Decimal.parseU64 (trim value) with
                  | some parsed => readHeaders lines (some parsed.toNat) rest
                  | none => (.error ⟨.invalidData, parseIntError (trim value)⟩, rest)

/-- What is read of a stream, and what is left in it. -/
def readFrame (bytes : List UInt8) : Except IoError (List UInt8) × List UInt8 :=
  match readHeaders (bytes.length + 1) none bytes with
  | (.error error, rest) => (.error error, rest)
  | (.ok none, rest) => (.error ⟨.invalidData, "missing Content-Length header"⟩, rest)
  | (.ok (some contentLength), rest) =>
      match takeExact contentLength rest with
      | some (payload, left) => (.ok payload, left)
      | none => (.error ⟨.unexpectedEof, "early eof"⟩, [])

def encodeFrame (payload : List UInt8) : List UInt8 :=
  ascii ("Content-Length: ".toList ++ (Nat.toDigits 10 payload.length ++ ['\r', '\n', '\r', '\n'])) ++
    payload

/-- A text of a length a `usize` holds. -/
structure Payload where
  bytes : List UInt8
  fits : bytes.length < 2 ^ 64

/-! ## Processes -/

/-- A request as it was sent, the how-manieth and to which server. -/
structure Sent where
  serial : Nat
  server : String
  request : JsonRpcRequest McpParams

/-- A frame of a server: the answer to a request, or a message of its own. -/
structure Frame where
  answers : Option Sent
  payload : Payload

/-- What the system and a server do when the manager meets them.  A server that gives no
answer to a request it received has ended. -/
structure Turn where
  spawnError : Option IoError := none
  writeError : Option IoError := none
  own : List Payload := []
  answer : JsonRpcRequest McpParams → Option Payload := fun _ => none
  exited : Except IoError Bool := .ok true
  killError : Option IoError := none
  waitError : Option IoError := none

/-- The child and the pipe from it.  `stdout` is what the manager has still to read;
`received`, `frames` and `taken` are the requests that arrived, the frames written, and how
many of them were read. -/
structure McpStdioProcess where
  running : Bool := true
  closed : Bool := false
  stdout : List UInt8 := []
  received : List Sent := []
  frames : List Frame := []
  taken : Nat := 0

namespace McpStdioProcess

/-- The frames a request brings about. -/
def reply (process : McpStdioProcess) (turn : Turn) (sent : Sent) : List Frame :=
  if process.closed then []
  else turn.own.map (Frame.mk none) ++
    ((turn.answer sent.request).map (Frame.mk (some sent))).toList

/-- The process after a request arrived. -/
def hear (process : McpStdioProcess) (turn : Turn) (sent : Sent) : McpStdioProcess :=
  { process with
    closed := process.closed || (turn.answer sent.request).isNone
    stdout := process.stdout ++
      (process.reply turn sent).flatMap fun frame => encodeFrame frame.payload.bytes
    received := process.received ++ [sent]
    frames := process.frames ++ process.reply turn sent }

end McpStdioProcess

/-! ## The manager -/

inductive McpTransport where
  | stdio
  | sse
  | http
  | ws
  | sdk
  | managedProxy
  deriving DecidableEq, Repr

/-- `{:?}`. -/
def McpTransport.debug : McpTransport → String
  | .stdio => "Stdio"
  | .sse => "Sse"
  | .http => "Http"
  | .ws => "Ws"
  | .sdk => "Sdk"
  | .managedProxy => "ManagedProxy"

structure ManagedMcpTool where
  serverName : String
  qualifiedName : String
  rawName : String
  tool : McpTool

structure UnsupportedMcpServer where
  serverName : String
  transport : McpTransport
  reason : String

inductive McpServerManagerError where
  | io (error : IoError)
  | jsonRpc (serverName method : String) (error : JsonRpcError)
  | invalidResponse (serverName method details : String)
  | unknownTool (qualifiedName : String)
  | unknownServer (serverName : String)

structure ToolRoute where
  serverName : String
  rawName : String
  deriving DecidableEq, Repr

structure ManagedMcpServer where
  process : Option McpStdioProcess := none
  initialized : Bool := false

/-- `names` are the keys of `servers` in order. -/
structure McpServerManager where
  names : List String
  distinct : names.Nodup
  servers : String → Option ManagedMcpServer
  unsupportedServers : List UnsupportedMcpServer
  toolIndex : String → Option ToolRoute
  nextRequestId : UInt64

/-- The configured servers by their names. -/
structure ServerConfigs where
  entries : List (String × McpTransport)
  distinct : (entries.map Prod.fst).Nodup

def McpServerManager.fromServers (servers : ServerConfigs) : McpServerManager where
  names := (servers.entries.filter fun server => server.2 = .stdio).map Prod.fst
  distinct := servers.distinct.sublist (List.filter_sublist.map Prod.fst)
  servers := fun name => if (name, .stdio) ∈ servers.entries then some {} else none
  unsupportedServers := (servers.entries.filter fun server => server.2 ≠ .stdio).map fun server =>
    ⟨server.1, server.2,
      "transport " ++ server.2.debug ++ " is not supported by McpServerManager"⟩
  toolIndex := fun _ => none
  nextRequestId := 1

/-- A response an operation accepted: the request it was for, the id it carried, and the
frames its process had written through the one it was read from. -/
structure Accepted where
  sent : Sent
  id : JsonRpcId
  read : List Frame

structure World where
  manager : McpServerManager
  clock : Nat := 0
  sent : List Sent := []
  accepted : List Accepted := []

/-- An operation that did not return `Ok`: it failed, or it is asking for one page of tools
more than it had turns for. -/
inductive Stop where
  | failed (error : McpServerManagerError)
  | listing

abbrev ManagerAction := Action World Stop

/-- A response and what an observer knows of it. -/
structure Answer (α : Type) where
  response : JsonRpcResponse α
  accepted : Accepted

def World.setRequestId (world : World) (id : UInt64) : World :=
  { world with manager := { world.manager with nextRequestId := id } }

def World.setServer (world : World) (name : String) (server : ManagedMcpServer) : World :=
  { world with
    manager := { world.manager with
      servers := Function.update world.manager.servers name (some server) } }

/-- A server's routes are taken out. -/
def World.clearRoutes (world : World) (serverName : String) : World :=
  { world with
    manager := { world.manager with
      toolIndex := fun name =>
        (world.manager.toolIndex name).filter fun route => route.serverName ≠ serverName } }

def ManagedMcpTool.of (serverName : String) (tool : McpTool) : ManagedMcpTool :=
  ⟨serverName, mcpToolName serverName tool.name, tool.name, tool⟩

def ManagedMcpTool.route (tool : ManagedMcpTool) : ToolRoute := ⟨tool.serverName, tool.rawName⟩

/-- The loop over the tools of a page. -/
def World.insertRoutes (world : World) (tools : List ManagedMcpTool) : World :=
  { world with
    manager := { world.manager with
      toolIndex := tools.foldl
        (fun index tool => Function.update index tool.qualifiedName (some tool.route))
        world.manager.toolIndex } }

def defaultInitializeParams : McpInitializeParams where
  protocolVersion := "2025-03-26"
  capabilities := .object []
  clientInfo := ⟨"runtime", "0.1.0"⟩

section Operations

variable (serde : McpSerde) (environment : Nat → Turn)

def nextTurn : ManagerAction Turn := fun world =>
  (.ok (environment world.clock), { world with clock := world.clock + 1 })

def serverMut (serverName : String) : ManagerAction ManagedMcpServer := do
  let world ← Action.get
  Action.orFail (world.manager.servers serverName) (.failed (.unknownServer serverName))

def takeRequestId : ManagerAction JsonRpcId := do
  let world ← Action.get
  let id := world.manager.nextRequestId
  -- `saturating_add`
  let next := if id.toNat + 1 < 2 ^ 64 then id + 1 else id
  Action.modify fun world => world.setRequestId next
  pure (.number id)

def clearRoutesForServer (serverName : String) : ManagerAction Unit :=
  Action.modify fun world => world.clearRoutes serverName

/-- `McpStdioProcess::request` on the process of a server. -/
def request {α : Type} (decode : List UInt8 → Except String (JsonRpcResponse α))
    (serverName : String) (server : ManagedMcpServer) (process : McpStdioProcess)
    (message : JsonRpcRequest McpParams) : ManagerAction (Answer α) := fun world =>
  let turn := environment world.clock
  let sent : Sent := ⟨world.sent.length, serverName, message⟩
  let tried := { world with clock := world.clock + 1, sent := world.sent ++ [sent] }
  match turn.writeError with
  | some error => (.error (.failed (.io error)), tried)
  | none =>
      let heard := process.hear turn sent
      match readFrame heard.stdout with
      | (.error error, rest) =>
          (.error (.failed (.io error)),
            tried.setServer serverName { server with process := some { heard with stdout := rest } })
      | (.ok payload, rest) =>
          let read := { heard with stdout := rest, taken := heard.taken + 1 }
          let after := tried.setServer serverName { server with process := some read }
          match decode payload with
          | .error details => (.error (.failed (.io ⟨.invalidData, details⟩)), after)
          | .ok response => (.ok ⟨response, sent, response.id, read.frames.take read.taken⟩, after)

/-- A request with a new id on the process that a server should have. -/
def requestFrom {α : Type} (decode : List UInt8 → Except String (JsonRpcResponse α))
    (serverName method details : String) (params : McpParams) : ManagerAction (Answer α) := do
  let requestId ← takeRequestId
  let server ← serverMut serverName
  let process ← Action.orFail server.process
    (.failed (.invalidResponse serverName method details))
  request environment decode serverName server process
    (JsonRpcRequest.new requestId method (some params))

def accept (accepted : Accepted) : ManagerAction Unit :=
  Action.modify fun world => { world with accepted := world.accepted ++ [accepted] }

/-- The result of a response: its error is returned, and a response that has neither is
refused. -/
def resultOf {α : Type} (serverName method : String) (answer : Answer α) : ManagerAction α :=
  match answer.response.error, answer.response.result with
  | some error, _ => do
      accept answer.accepted
      Action.fail (.failed (.jsonRpc serverName method error))
  | none, none =>
      Action.fail (.failed (.invalidResponse serverName method "missing result payload"))
  | none, some result => do
      accept answer.accepted
      pure result

def spawnServer (serverName : String) : ManagerAction Unit := do
  let turn ← nextTurn environment
  match turn.spawnError with
  | some error => Action.fail (.failed (.io error))
  | none => Action.modify fun world => world.setServer serverName { process := some {} }

def initializeServer (serverName : String) : ManagerAction Unit := do
  let answer ← requestFrom environment serde.initializeResponse serverName "initialize"
    "server process missing before initialize" (.initializeParams defaultInitializeParams)
  let _ ← resultOf serverName "initialize" answer
  let server ← serverMut serverName
  Action.modify fun world => world.setServer serverName { server with initialized := true }

def ensureServerReady (serverName : String) : ManagerAction Unit := do
  let server ← serverMut serverName
  Action.when server.process.isNone (spawnServer environment serverName)
  let server ← serverMut serverName
  Action.when (!server.initialized) (initializeServer serde environment serverName)

/-- The loop over the pages of a server. -/
def listPages (serverName : String) :
    Nat → Option String → List ManagedMcpTool → ManagerAction (List ManagedMcpTool)
  | 0, _, _ => Action.fail .listing
  | pages + 1, cursor, discovered => do
      let answer ← requestFrom environment serde.listToolsResponse serverName "tools/list"
        "server process missing after initialization" (.listToolsParams ⟨cursor⟩)
      let result ← resultOf serverName "tools/list" answer
      let tools := result.tools.map (ManagedMcpTool.of serverName)
      Action.modify fun world => world.insertRoutes tools
      match result.nextCursor with
      | some next => listPages serverName pages (some next) (discovered ++ tools)
      | none => pure (discovered ++ tools)

/-- The loop over the servers. -/
def discoverFrom (pages : Nat) :
    List String → List ManagedMcpTool → ManagerAction (List ManagedMcpTool)
  | [], discovered => pure discovered
  | serverName :: rest, discovered => do
      ensureServerReady serde environment serverName
      clearRoutesForServer serverName
      let found ← listPages serde environment serverName pages none discovered
      discoverFrom pages rest found

def discoverTools (pages : Nat) : ManagerAction (List ManagedMcpTool) := do
  let world ← Action.get
  discoverFrom serde environment pages world.manager.names []

def callTool (qualifiedToolName : String) (arguments : Option Json) :
    ManagerAction (JsonRpcResponse McpToolCallResult) := do
  let world ← Action.get
  let route ← Action.orFail (world.manager.toolIndex qualifiedToolName)
    (.failed (.unknownTool qualifiedToolName))
  ensureServerReady serde environment route.serverName
  let answer ← requestFrom environment serde.toolCallResponse route.serverName "tools/call"
    "server process missing after initialization" (.toolCallParams ⟨route.rawName, arguments, none⟩)
  accept answer.accepted
  pure answer.response

/-- A child that has not exited is killed. -/
def stopChild (serverName : String) (server : ManagedMcpServer) (process : McpStdioProcess)
    (turn : Turn) : ManagerAction Unit :=
  let stopped := Action.modify fun world : World =>
    world.setServer serverName { server with process := some { process with running := false } }
  match turn.exited, turn.killError with
  | .error error, _ => Action.fail (.failed (.io error))
  | .ok false, some error => Action.fail (.failed (.io error))
  | .ok false, none => stopped
  | .ok true, _ => stopped

/-- `McpStdioProcess::shutdown`, if the server has a process. -/
def shutdownServer (serverName : String) (server : ManagedMcpServer) : ManagerAction Unit :=
  match server.process with
  | none => pure ()
  | some process => do
      let turn ← nextTurn environment
      stopChild serverName server process turn
      match turn.waitError with
      | some error => Action.fail (.failed (.io error))
      | none => pure ()

def shutdownFrom : List String → ManagerAction Unit
  | [] => pure ()
  | serverName :: rest => do
      let server ← serverMut serverName
      shutdownServer environment serverName server
      Action.modify fun world => world.setServer serverName {}
      shutdownFrom rest

def shutdown : ManagerAction Unit := do
  let world ← Action.get
  shutdownFrom environment world.manager.names

end Operations

/-! ## What the small actions do -/

theorem serverMut_apply (serverName : String) (world : World) :
    serverMut serverName world =
      match world.manager.servers serverName with
      | some server => (.ok server, world)
      | none => (.error (.failed (.unknownServer serverName)), world) := by
  show Action.orFail (world.manager.servers serverName) _ world = _
  cases world.manager.servers serverName <;> rfl

theorem serverMut_ok {serverName : String} {world after : World} {server : ManagedMcpServer}
    (done : serverMut serverName world = (.ok server, after)) :
    after = world ∧ world.manager.servers serverName = some server := by
  rw [serverMut_apply] at done
  split at done
  · rename_i standing found
    cases done
    exact ⟨rfl, found⟩
  · cases done

end Openyak.Runtime.Mcp
