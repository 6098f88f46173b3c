/-
# Runtime.McpToolBridge -- tools of MCP servers, called by server and name

`McpToolRegistry` knows the servers and the tools they listed.  A call is checked against
it, then made through the manager under the tool's qualified name: a thread discovers the
tools of every server again, calls that name, and shuts the servers down.

The thread, its runtime and the locks are taken to work; `toValue` is `serde_json`.
-/
import Openyak.Runtime.McpStdio

namespace Openyak.Runtime.Mcp

open Openyak.Theory

set_option autoImplicit false

/-- `Display`. -/
def McpServerManagerError.display : McpServerManagerError → String
  | .io error => error.message
  | .jsonRpc serverName method error =>
      "MCP server `" ++ serverName ++ "` returned JSON-RPC error for " ++ method ++ ": " ++
        error.message ++ " (" ++ toString error.code.toInt ++ ")"
  | .invalidResponse serverName method details =>
      "MCP server `" ++ serverName ++ "` returned invalid response for " ++ method ++ ": " ++ details
  | .unknownTool qualifiedName => "unknown MCP tool `" ++ qualifiedName ++ "`"
  | .unknownServer serverName => "unknown MCP server `" ++ serverName ++ "`"

inductive McpConnectionStatus where
  | disconnected
  | connecting
  | connected
  | authRequired
  | error
  deriving DecidableEq, Repr

def McpConnectionStatus.display : McpConnectionStatus → String
  | .disconnected => "disconnected"
  | .connecting => "connecting"
  | .connected => "connected"
  | .authRequired => "auth_required"
  | .error => "error"

structure McpToolInfo where
  name : String
  description : Option String := none
  inputSchema : Option Json := none

structure McpServerState where
  serverName : String
  status : McpConnectionStatus
  tools : List McpToolInfo

/-- The servers that are registered, and whether the manager was set. -/
structure McpToolRegistry where
  inner : String → Option McpServerState
  configured : Bool

/-- A call that did not return `Ok`, as `Stop` with the error as a text. -/
inductive CallStop where
  | failed (message : String)
  | listing

def Stop.toCallStop : Stop → CallStop
  | .failed error => .failed error.display
  | .listing => .listing

abbrev CallAction := Action World CallStop

section Calls

variable (serde : McpSerde) (environment : Nat → Turn)
  (toValue : McpToolCallResult → Except String Json)

/-- What both results make of the call and the shutdown after it. -/
def settle {α : Type} (response : Except CallStop α) (shutdown : Except CallStop PUnit) :
    CallAction α :=
  match response, shutdown with
  | .ok response, .ok _ => pure response
  | .error error, _ => Action.fail error
  | .ok _, .error error => Action.fail error

def valueOf (response : JsonRpcResponse McpToolCallResult) : CallAction Json :=
  match response.error, response.result with
  | some error, _ =>
      Action.fail (.failed ("MCP server returned JSON-RPC error for tools/call: " ++ error.message ++
        " (" ++ toString error.code.toInt ++ ")"))
  | none, none => Action.fail (.failed "MCP server returned no result for tools/call")
  | none, some result =>
      match toValue result with
      | .error error => Action.fail (.failed ("failed to serialize MCP tool result: " ++ error))
      | .ok value => pure value

def spawnToolCall (pages : Nat) (qualifiedToolName : String) (arguments : Option Json) :
    CallAction Json := do
  let _ ← (discoverTools serde environment pages).mapError Stop.toCallStop
  let response ← ((callTool serde environment qualifiedToolName arguments).mapError
    Stop.toCallStop).attempt
  let stopped ← ((shutdown environment).mapError Stop.toCallStop).attempt
  let response ← settle response stopped
  valueOf toValue response

/-- `McpToolRegistry::call_tool`. -/
def McpToolRegistry.callTool (registry : McpToolRegistry) (pages : Nat)
    (serverName toolName : String) (arguments : Json) : CallAction Json :=
  match registry.inner serverName with
  | none => Action.fail (.failed ("server '" ++ serverName ++ "' not found"))
  | some state =>
      if state.status ≠ .connected then
        Action.fail (.failed ("server '" ++ serverName ++ "' is not connected (status: " ++
          state.status.display ++ ")"))
      else if state.tools.any (fun tool => tool.name = toolName) = false then
        Action.fail (.failed ("tool '" ++ toolName ++ "' not found on server '" ++ serverName ++ "'"))
      else if registry.configured = false then
        Action.fail (.failed "MCP server manager is not configured")
      else
        spawnToolCall serde environment toValue pages (mcpToolName serverName toolName)
          (if arguments = .null then none else some arguments)

end Calls

/-- A registered and connected server, a tool it listed, and a manager. -/
structure McpToolRegistry.Lists (registry : McpToolRegistry) (serverName toolName : String) :
    Prop where
  listed : ∃ state, registry.inner serverName = some state ∧ state.status = .connected ∧
    ∃ tool ∈ state.tools, tool.name = toolName
  configured : registry.configured = true

theorem McpToolRegistry.Lists.callTool {registry : McpToolRegistry} {serverName toolName : String}
    (lists : registry.Lists serverName toolName) (serde : McpSerde) (environment : Nat → Turn)
    (toValue : McpToolCallResult → Except String Json) (pages : Nat) (arguments : Json) :
    registry.callTool serde environment toValue pages serverName toolName arguments =
      spawnToolCall serde environment toValue pages (mcpToolName serverName toolName)
        (if arguments = .null then none else some arguments) := by
  obtain ⟨state, found, connected, tool, member, named⟩ := lists.listed
  have known : ¬state.tools.any (fun tool => tool.name = toolName) = false := by
    rw [Bool.not_eq_false, List.any_eq_true]
    exact ⟨tool, member, decide_eq_true named⟩
  have configured : ¬registry.configured = false := by
    rw [lists.configured]
    decide
  rw [McpToolRegistry.callTool, found]
  dsimp only
  rw [if_neg (not_not.2 connected), if_neg known, if_neg configured]

end Openyak.Runtime.Mcp
