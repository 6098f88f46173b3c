/-
# Runtime.McpServerConfigs -- configured MCP servers and their signatures

A server's signature is the text it is matched by: the command and its arguments, or the
URL, out of a proxy's.  `from_scoped_config` computes it for every server a client is set
up for, so that both return wherever the URL is unwrapped (`mcpServerSignature_isSome_iff`,
`fromScopedConfig_isSome_iff`).

A URL is unwrapped safely when nothing of this panics and, if it is a proxy's, the vendor's
comes out of it.  It is exactly where no `%` of the value cuts a character and no fragment
stands directly behind the parameter (`unwrapsSafely_iff`).
-/
import Openyak.Theory.OrderedMap
import Openyak.Runtime.Mcp
import Openyak.Runtime.McpProxyUrl
import Mathlib.Data.String.Basic

namespace Openyak.Runtime.McpConfigs

open Openyak.Theory
open Openyak.Theory.Text

set_option autoImplicit false

inductive ConfigSource
  | user
  | project
  | «local»
  deriving DecidableEq, Repr

structure McpOAuthConfig where
  clientId : Option String
  callbackPort : Option UInt16
  authServerMetadataUrl : Option String
  xaa : Option Bool
  deriving DecidableEq, Repr

structure McpStdioServerConfig where
  command : String
  args : List String
  env : OrderedMap String String
  deriving DecidableEq

structure McpRemoteServerConfig where
  url : String
  headers : OrderedMap String String
  headersHelper : Option String
  oauth : Option McpOAuthConfig
  deriving DecidableEq

structure McpWebSocketServerConfig where
  url : String
  headers : OrderedMap String String
  headersHelper : Option String
  deriving DecidableEq

structure McpSdkServerConfig where
  name : String
  deriving DecidableEq

structure McpManagedProxyServerConfig where
  url : String
  id : String
  deriving DecidableEq

inductive McpServerConfig
  | stdio (config : McpStdioServerConfig)
  | sse (config : McpRemoteServerConfig)
  | http (config : McpRemoteServerConfig)
  | ws (config : McpWebSocketServerConfig)
  | sdk (config : McpSdkServerConfig)
  | managedProxy (config : McpManagedProxyServerConfig)
  deriving DecidableEq

structure ScopedMcpServerConfig where
  scope : ConfigSource
  config : McpServerConfig

/-- The URL a server is reached at, for those that have one. -/
def McpServerConfig.url : McpServerConfig → Option String
  | stdio _ => none
  | sse config => some config.url
  | http config => some config.url
  | ws config => some config.url
  | sdk _ => none
  | managedProxy config => some config.url

/-! ## Signatures -/

def escapePart (part : List Char) : List Char :=
  replace "|" "\\|" (replace "\\" "\\\\" part)

def renderCommandSignature (command : List String) : List Char :=
  '[' :: List.intercalate ['|'] (command.map fun part => escapePart part.toList) ++ [']']

def urlSignature (url : String) : Option (List Char) :=
  (unwrapCcrProxyUrl url.toList).map ("url:".toList ++ ·)

def mcpServerSignature : McpServerConfig → Option (Option (List Char))
  | .stdio config =>
      some (some ("stdio:".toList ++ renderCommandSignature (config.command :: config.args)))
  | .sse config => (urlSignature config.url).map some
  | .http config => (urlSignature config.url).map some
  | .ws config => (urlSignature config.url).map some
  | .managedProxy config => (urlSignature config.url).map some
  | .sdk _ => some none

/-! ## Clients -/

inductive McpClientAuth
  | none
  | oauth (config : McpOAuthConfig)

def McpClientAuth.fromOauth : Option McpOAuthConfig → McpClientAuth
  | .none => none
  | some config => oauth config

structure McpStdioTransport where
  command : String
  args : List String
  env : OrderedMap String String

structure McpRemoteTransport where
  url : String
  headers : OrderedMap String String
  headersHelper : Option String
  auth : McpClientAuth

structure McpSdkTransport where
  name : String

structure McpManagedProxyTransport where
  url : String
  id : String

inductive McpClientTransport
  | stdio (transport : McpStdioTransport)
  | sse (transport : McpRemoteTransport)
  | http (transport : McpRemoteTransport)
  | webSocket (transport : McpRemoteTransport)
  | sdk (transport : McpSdkTransport)
  | managedProxy (transport : McpManagedProxyTransport)

def McpClientTransport.fromConfig : McpServerConfig → McpClientTransport
  | .stdio config => .stdio ⟨config.command, config.args, config.env⟩
  | .sse config => .sse ⟨config.url, config.headers, config.headersHelper, .fromOauth config.oauth⟩
  | .http config =>
      .http ⟨config.url, config.headers, config.headersHelper, .fromOauth config.oauth⟩
  | .ws config => .webSocket ⟨config.url, config.headers, config.headersHelper, .none⟩
  | .sdk config => .sdk ⟨config.name⟩
  | .managedProxy config => .managedProxy ⟨config.url, config.id⟩

structure McpClientBootstrap where
  serverName : String
  normalizedName : String
  toolPrefix : String
  signature : Option (List Char)
  transport : McpClientTransport

def McpClientBootstrap.fromScopedConfig (serverName : String) (config : ScopedMcpServerConfig) :
    Option McpClientBootstrap := do
  let signature ← mcpServerSignature config.config
  return {
    serverName
    normalizedName := normalizeNameForMcp serverName
    toolPrefix := mcpToolPrefix serverName
    signature
    transport := .fromConfig config.config }

/-! ## What returns -/

theorem urlSignature_isSome (url : String) :
    (urlSignature url).isSome = (unwrapCcrProxyUrl url.toList).isSome := by
  rw [urlSignature, Option.isSome_map]

theorem mcpServerSignature_isSome_iff {config : McpServerConfig} :
    (mcpServerSignature config).isSome ↔
      ∀ url, config.url = some url → (unwrapCcrProxyUrl url.toList).isSome := by
  cases config <;>
    simp [mcpServerSignature, McpServerConfig.url, urlSignature_isSome, Option.isSome_map]

theorem fromScopedConfig_isSome_iff {name : String} {config : ScopedMcpServerConfig} :
    (McpClientBootstrap.fromScopedConfig name config).isSome ↔
      (mcpServerSignature config.config).isSome := by
  rw [McpClientBootstrap.fromScopedConfig]
  cases mcpServerSignature config.config with
  | none => rfl
  | some signature => exact ⟨fun _ => rfl, fun _ => rfl⟩

/-! ## URLs that are unwrapped safely -/

/-- Nothing panics at the URL, and a vendor's URL comes out of a proxy's. -/
structure UnwrapsSafely (url : String) : Prop where
  returns : (unwrapCcrProxyUrl url.toList).isSome
  signs : ∀ config : McpServerConfig, config.url = some url → (mcpServerSignature config).isSome
  boots : ∀ name (config : ScopedMcpServerConfig), config.config.url = some url →
    (McpClientBootstrap.fromScopedConfig name config).isSome
  unwraps : ∀ vendor (proxy : ProxyUrl vendor), proxy.Marked → proxy.text = url.toList →
    unwrapCcrProxyUrl url.toList = some vendor

/-- **URLs are unwrapped safely exactly** where no `%` of the value that is decoded cuts a
character and the parameter is not the last of the query with a fragment behind it. -/
theorem unwrapsSafely_iff (url : String) : UnwrapsSafely url ↔
    (∀ value, wrappedValue url.toList = some value → ¬CutsCharacter value) ∧
      ∀ vendor (proxy : ProxyUrl vendor), proxy.Marked → proxy.text = url.toList → proxy.Closed := by
  constructor
  · intro safe
    refine ⟨unwrapCcrProxyUrl_isSome_iff.1 safe.returns, ?_⟩
    intro vendor proxy marked isUrl
    have unwrapped := safe.unwraps vendor proxy marked isUrl
    rw [← isUrl] at unwrapped
    exact (proxy.unwrap_iff marked).1 unwrapped
  · rintro ⟨whole, closed⟩
    have returns := unwrapCcrProxyUrl_isSome_iff.2 whole
    have signs : ∀ config : McpServerConfig, config.url = some url →
        (mcpServerSignature config).isSome := by
      intro config isUrl
      apply mcpServerSignature_isSome_iff.2
      intro other isOther
      rw [isUrl] at isOther
      cases isOther
      exact returns
    refine ⟨returns, signs, ?_, ?_⟩
    · intro name config isUrl
      exact fromScopedConfig_isSome_iff.2 (signs config.config isUrl)
    · intro vendor proxy marked isUrl
      rw [← isUrl]
      exact (proxy.unwrap_iff marked).2 (closed vendor proxy marked isUrl)

/-- A proxy's URL with a sign for per cent before a character of three bytes. -/
def perCentUrl : String := "https://api.anthropic.com/v2/ccr-sessions/1?mcp_url=100%円"

theorem not_unwrapsSafely : ¬∀ url, UnwrapsSafely url := by
  intro safe
  have value : wrappedValue perCentUrl.toList = some "100%円".toList := by decide +kernel
  have cuts : CutsCharacter "100%円".toList := ⟨"100".toList, "円".toList, by decide, by decide, by decide⟩
  exact unwrapCcrProxyUrl_isSome_iff.1 (safe perCentUrl).returns _ value cuts

end Openyak.Runtime.McpConfigs
