/-
# Runtime.McpFingerprints -- the text of an MCP configuration that is hashed

`scoped_mcp_config_hash` writes a configuration as a text of fields with `|` between them
and hashes it.  The command line's parts are escaped, so that servers with one signature
have one command line (`renderCommandSignature_inj`, `signature_stdio_inj`); the other
fields are not, and an optional value that is absent is written like an empty one.

Configurations are told apart where no field that is followed by another has `|` in it, no
variable's or header's name or value has a separator of theirs, and nothing is empty that
could be absent (`renderedConfig_inj`).
-/
import Openyak.Theory.JoinedText
import Openyak.Theory.Utf8Stream
import Openyak.Runtime.McpServerConfigs

namespace Openyak.Runtime.McpConfigs

open Openyak.Theory
open Openyak.Theory.Text
open Openyak.Theory.JoinedText

set_option autoImplicit false

def renderEnvSignature (map : OrderedMap String String) : List Char :=
  List.intercalate [';'] (map.entries.map fun entry => entry.1.toList ++ '=' :: entry.2.toList)

def renderPort (port : Option UInt16) : List Char :=
  port.elim [] fun port => Nat.toDigits 10 port.toNat

def renderFlag (flag : Option Bool) : List Char :=
  flag.elim [] fun flag => if flag then "true".toList else "false".toList

/-- `as_deref().unwrap_or("")`. -/
def orEmpty (text : Option String) : List Char := (text.getD "").toList

def renderOauthSignature : Option McpOAuthConfig → List Char
  | none => []
  | some oauth =>
      orEmpty oauth.clientId ++ '|' ::
        (renderPort oauth.callbackPort ++ '|' ::
          (orEmpty oauth.authServerMetadataUrl ++ '|' :: renderFlag oauth.xaa))

/-- The word a text begins with, before the first `|`. -/
def McpServerConfig.kind : McpServerConfig → String
  | stdio _ => "stdio"
  | sse _ => "sse"
  | http _ => "http"
  | ws _ => "ws"
  | sdk _ => "sdk"
  | managedProxy _ => "claudeai-proxy"

def renderRemote (remote : McpRemoteServerConfig) : List Char :=
  remote.url.toList ++ '|' ::
    (renderEnvSignature remote.headers ++ '|' ::
      (orEmpty remote.headersHelper ++ '|' :: renderOauthSignature remote.oauth))

/-- What follows the word. -/
def renderFields : McpServerConfig → List Char
  | .stdio stdio =>
      stdio.command.toList ++ '|' ::
        (renderCommandSignature stdio.args ++ '|' :: renderEnvSignature stdio.env)
  | .sse remote => renderRemote remote
  | .http remote => renderRemote remote
  | .ws ws =>
      ws.url.toList ++ '|' :: (renderEnvSignature ws.headers ++ '|' :: orEmpty ws.headersHelper)
  | .sdk sdk => sdk.name.toList
  | .managedProxy proxy => proxy.url.toList ++ '|' :: proxy.id.toList

/-- The text that is hashed. -/
def renderedConfig (config : McpServerConfig) : List Char :=
  config.kind.toList ++ '|' :: renderFields config

def stableHexHash (value : List Char) : List Char :=
  let hash := (Utf8Stream.encode value).foldl
    (fun (hash : UInt64) byte => (hash ^^^ byte.toUInt64) * 0x00000100000001b3) 0xcbf29ce484222325
  let digits := Nat.toDigits 16 hash.toNat
  List.replicate (16 - digits.length) '0' ++ digits

def scopedMcpConfigHash (config : ScopedMcpServerConfig) : List Char :=
  stableHexHash (renderedConfig config.config)

/-! ## Command lines -/

theorem escapePart_eq (part : List Char) : escapePart part = escape '\\' '|' part := by
  rw [escapePart, @replace_char "\\" '\\' (by decide), @replace_char "|" '|' (by decide),
    List.flatMap_assoc, escape]
  refine congrArg (part.flatMap ·) (funext fun c => ?_)
  by_cases isMark : c = '\\'
  · subst isMark
    rfl
  · by_cases isBar : c = '|'
    · subst isBar
      rfl
    · simp [isMark, isBar]

theorem toList_escaped_inj {parts others : List String}
    (same : (parts.map String.toList) = others.map String.toList) : parts = others :=
  List.map_injective_iff.2 (fun _ _ => String.toList_inj.1) same

/-- **Command lines of one signature are one**, but for no part and one empty part. -/
theorem renderCommandSignature_inj {parts others : List String} (some_ : parts ≠ [])
    (some' : others ≠ [])
    (same : renderCommandSignature parts = renderCommandSignature others) : parts = others := by
  have bodies : List.intercalate ['|'] (parts.map fun part => escapePart part.toList) =
      List.intercalate ['|'] (others.map fun part => escapePart part.toList) :=
    List.append_cancel_right (List.cons.inj same).2
  have escaped : ∀ texts : List String, (texts.map fun part => escapePart part.toList) =
      (texts.map String.toList).map (escape '\\' '|') := by
    intro texts
    rw [List.map_map]
    exact List.map_congr_left fun part _ => escapePart_eq part.toList
  rw [escaped, escaped] at bodies
  exact toList_escaped_inj (intercalate_escape_inj (by decide) (by simpa using some_)
    (by simpa using some') bodies)

theorem renderCommandSignature_nil {others : List String}
    (same : renderCommandSignature [] = renderCommandSignature others) :
    others = [] ∨ others = [""] := by
  cases others with
  | nil => exact .inl rfl
  | cons first rest =>
      have one : renderCommandSignature [""] = renderCommandSignature (first :: rest) := same
      exact .inr (renderCommandSignature_inj (List.cons_ne_nil _ _) (List.cons_ne_nil _ _) one).symm

theorem renderArgs_inj {args others : List String} (notEmpty : args ≠ [""]) (notEmpty' : others ≠ [""])
    (same : renderCommandSignature args = renderCommandSignature others) : args = others := by
  cases args with
  | nil =>
      rcases renderCommandSignature_nil same with rfl | isEmpty
      · rfl
      · exact absurd isEmpty notEmpty'
  | cons first rest =>
      cases others with
      | nil =>
          rcases renderCommandSignature_nil same.symm with isNil | isEmpty
          · exact isNil
          · exact absurd isEmpty notEmpty
      | cons first' rest' =>
          exact renderCommandSignature_inj (List.cons_ne_nil _ _) (List.cons_ne_nil _ _) same

theorem signature_stdio_inj {config other : McpStdioServerConfig}
    (same : mcpServerSignature (.stdio config) = mcpServerSignature (.stdio other)) :
    config.command = other.command ∧ config.args = other.args := by
  have texts := List.append_cancel_left (Option.some.inj (Option.some.inj same))
  exact List.cons.inj (renderCommandSignature_inj (List.cons_ne_nil _ _) (List.cons_ne_nil _ _) texts)

/-! ## Fields that are told apart -/

/-- No name or value has a separator in it. -/
def EnvPlain (map : OrderedMap String String) : Prop :=
  ∀ entry ∈ map.entries, ('=' ∉ entry.1.toList ∧ ';' ∉ entry.1.toList ∧ ';' ∉ entry.2.toList) ∧
    '|' ∉ entry.1.toList ∧ '|' ∉ entry.2.toList

instance (map : OrderedMap String String) : Decidable (EnvPlain map) :=
  inferInstanceAs (Decidable (∀ entry ∈ map.entries,
    ('=' ∉ entry.1.toList ∧ ';' ∉ entry.1.toList ∧ ';' ∉ entry.2.toList) ∧
      '|' ∉ entry.1.toList ∧ '|' ∉ entry.2.toList))

theorem renderEnvSignature_bar {map : OrderedMap String String} (plain : EnvPlain map) :
    '|' ∉ renderEnvSignature map := by
  intro member
  rcases mem_intercalate member with isSeparator | ⟨part, isPart, inPart⟩
  · exact absurd isSeparator (by decide)
  · obtain ⟨entry, isEntry, rfl⟩ := List.mem_map.1 isPart
    obtain ⟨-, key, value⟩ := plain entry isEntry
    simp [key, value] at inPart

theorem map_inj_on {α β : Type} {f : α → β} {xs ys : List α}
    (inj : ∀ x ∈ xs, ∀ y ∈ ys, f x = f y → x = y) (same : xs.map f = ys.map f) : xs = ys := by
  induction xs generalizing ys with
  | nil => exact (List.map_eq_nil_iff.1 same.symm).symm
  | cons x xs ih =>
      cases ys with
      | nil => cases same
      | cons y ys =>
          obtain ⟨first, rest⟩ := List.cons.inj same
          rw [inj x List.mem_cons_self y List.mem_cons_self first]
          exact congrArg (y :: ·) (ih (fun x isIn y isIn' =>
            inj x (List.mem_cons_of_mem _ isIn) y (List.mem_cons_of_mem _ isIn')) rest)

/-- **Maps whose entries have no separators are told apart.** -/
theorem renderEnvSignature_inj {map other : OrderedMap String String} (plain : EnvPlain map)
    (plain' : EnvPlain other) (same : renderEnvSignature map = renderEnvSignature other) :
    map = other := by
  have whole : ∀ map : OrderedMap String String, EnvPlain map →
      ∀ part ∈ map.entries.map (fun entry => entry.1.toList ++ '=' :: entry.2.toList),
        ';' ∉ part ∧ '=' ∈ part := by
    intro map plain part isPart
    obtain ⟨entry, isEntry, rfl⟩ := List.mem_map.1 isPart
    obtain ⟨⟨-, key, value⟩, -⟩ := plain entry isEntry
    simp [key, value]
  -- the text of some entries is not that of none
  have some_ : ∀ map : OrderedMap String String, EnvPlain map → renderEnvSignature map = [] →
      map.entries = [] := by
    intro map plain empty
    cases entries : map.entries with
    | nil => rfl
    | cons first rest =>
        obtain ⟨-, equals⟩ := whole map plain _
          (List.mem_map.2 ⟨first, entries ▸ List.mem_cons_self, rfl⟩)
        exfalso
        rw [renderEnvSignature, entries, List.map_cons] at empty
        cases rest with
        | nil => simp at empty
        | cons second rest => simp at empty
  apply OrderedMap.ext
  by_cases none_ : map.entries = []
  · have empty : renderEnvSignature map = [] := by
      rw [renderEnvSignature, none_]
      rfl
    rw [none_, some_ other plain' (same.symm.trans empty)]
  · by_cases none' : other.entries = []
    · have empty : renderEnvSignature other = [] := by
        rw [renderEnvSignature, none']
        rfl
      rw [none', some_ map plain (same.trans empty)]
    · have parts := intercalate_inj (fun part isPart => (whole map plain part isPart).1)
        (fun part isPart => (whole other plain' part isPart).1) (by simpa using none_)
        (by simpa using none') same
      apply map_inj_on _ parts
      intro entry isEntry entry' isEntry' line
      obtain ⟨key, value⟩ := cut_inj (plain entry isEntry).1.1 (plain' entry' isEntry').1.1 line
      exact Prod.ext (String.toList_inj.1 key) (String.toList_inj.1 value)

/-- Optional values are told apart where none that is there is written as nothing. -/
theorem elim_inj {α : Type} {render : α → List Char} {value other : Option α}
    (injective : Function.Injective render) (some_ : ∀ x ∈ value, render x ≠ [])
    (some' : ∀ x ∈ other, render x ≠ [])
    (same : value.elim [] render = other.elim [] render) : value = other := by
  cases value with
  | none =>
      cases other with
      | none => rfl
      | some y => exact absurd same.symm (some' y rfl)
  | some x =>
      cases other with
      | none => exact absurd same (some_ x rfl)
      | some y => exact congrArg some (injective same)

theorem orEmpty_inj {text other : Option String} (notEmpty : text ≠ some "")
    (notEmpty' : other ≠ some "") (same : orEmpty text = orEmpty other) : text = other := by
  have elims : ∀ text : Option String, orEmpty text = text.elim [] String.toList := by
    intro text
    cases text <;> rfl
  have written : ∀ text : Option String, text ≠ some "" → ∀ x ∈ text, x.toList ≠ [] := by
    rintro text notEmpty x isThere empty
    have isEmpty : x = "" := String.toList_inj.1 empty
    exact notEmpty (isEmpty ▸ isThere)
  rw [elims, elims] at same
  exact elim_inj (fun _ _ => String.toList_inj.1) (written text notEmpty) (written other notEmpty') same

theorem renderPort_bar (port : Option UInt16) : '|' ∉ renderPort port := by
  intro member
  cases port with
  | none => cases member
  | some port =>
      exact absurd (Nat.isDigit_of_mem_toDigits (by decide) (by decide) member) (by decide)

theorem renderPort_inj {port other : Option UInt16} (same : renderPort port = renderPort other) :
    port = other := by
  refine elim_inj ?_ (fun _ _ => Nat.toDigits_ne_nil) (fun _ _ => Nat.toDigits_ne_nil) same
  intro x y digits
  have value := congrArg (fun digits => Nat.ofDigitChars 10 digits 0) digits
  simp only [Nat.ofDigitChars_ten_toDigits] at value
  exact UInt16.toNat_inj.1 value

theorem renderFlag_bar (flag : Option Bool) : '|' ∉ renderFlag flag := by
  rcases flag with _ | _ | _ <;> decide

theorem renderFlag_inj {flag other : Option Bool} (same : renderFlag flag = renderFlag other) :
    flag = other := by
  have some_ : ∀ flag : Bool, (if flag then "true".toList else "false".toList) ≠ [] := by decide
  refine elim_inj ?_ (fun flag _ => some_ flag) (fun flag _ => some_ flag) same
  intro flag other texts
  cases flag <;> cases other <;> first | rfl | exact absurd texts (by decide)

/-! ## Configurations that are told apart -/

/-- The client is one that cannot be read as absent or as part of what follows. -/
structure McpOAuthConfig.Plain (oauth : McpOAuthConfig) : Prop where
  client : oauth.clientId ≠ some ""
  clientBar : '|' ∉ orEmpty oauth.clientId
  metadata : oauth.authServerMetadataUrl ≠ some ""

structure McpRemoteServerConfig.Plain (remote : McpRemoteServerConfig) : Prop where
  url : '|' ∉ remote.url.toList
  headers : EnvPlain remote.headers
  helper : remote.headersHelper ≠ some ""
  helperBar : '|' ∉ orEmpty remote.headersHelper
  oauth : ∀ oauth ∈ remote.oauth, oauth.Plain

structure McpWebSocketServerConfig.Plain (ws : McpWebSocketServerConfig) : Prop where
  url : '|' ∉ ws.url.toList
  headers : EnvPlain ws.headers
  helper : ws.headersHelper ≠ some ""

structure McpStdioServerConfig.Plain (stdio : McpStdioServerConfig) : Prop where
  command : '|' ∉ stdio.command.toList
  args : stdio.args ≠ [""]
  env : EnvPlain stdio.env

/-- No field that another follows has a separator in it, and no value that may be absent is
empty. -/
def McpServerConfig.Plain : McpServerConfig → Prop
  | stdio config => config.Plain
  | sse config => config.Plain
  | http config => config.Plain
  | ws config => config.Plain
  | sdk _ => True
  | managedProxy config => '|' ∉ config.url.toList

theorem renderOauthSignature_inj {oauth other : Option McpOAuthConfig}
    (plain : ∀ x ∈ oauth, x.Plain) (plain' : ∀ x ∈ other, x.Plain)
    (same : renderOauthSignature oauth = renderOauthSignature other) : oauth = other := by
  cases oauth with
  | none =>
      cases other with
      | none => rfl
      | some other => exact absurd same (by simp [renderOauthSignature])
  | some oauth =>
      cases other with
      | none => exact absurd same (by simp [renderOauthSignature])
      | some other =>
          have first := plain oauth rfl
          have second := plain' other rfl
          obtain ⟨client, rest⟩ := cut_inj first.clientBar second.clientBar same
          obtain ⟨port, rest⟩ := cut_inj (renderPort_bar _) (renderPort_bar _) rest
          obtain ⟨metadata, flag⟩ := cut_last_inj (renderFlag_bar _) (renderFlag_bar _) rest
          have sameClient := orEmpty_inj first.client second.client client
          have samePort := renderPort_inj port
          have sameMetadata := orEmpty_inj first.metadata second.metadata metadata
          have sameFlag := renderFlag_inj flag
          cases oauth
          cases other
          simp_all

theorem renderRemote_inj {remote other : McpRemoteServerConfig} (plain : remote.Plain)
    (plain' : other.Plain) (same : renderRemote remote = renderRemote other) : remote = other := by
  obtain ⟨url, rest⟩ := cut_inj plain.url plain'.url same
  obtain ⟨headers, rest⟩ := cut_inj (renderEnvSignature_bar plain.headers)
    (renderEnvSignature_bar plain'.headers) rest
  obtain ⟨helper, oauth⟩ := cut_inj plain.helperBar plain'.helperBar rest
  have sameUrl := String.toList_inj.1 url
  have sameHeaders := renderEnvSignature_inj plain.headers plain'.headers headers
  have sameHelper := orEmpty_inj plain.helper plain'.helper helper
  have sameOauth := renderOauthSignature_inj plain.oauth plain'.oauth oauth
  cases remote
  cases other
  simp_all

theorem renderFields_inj {config other : McpServerConfig} (kinds : config.kind = other.kind)
    (plain : config.Plain) (plain' : other.Plain)
    (same : renderFields config = renderFields other) : config = other := by
  cases config with
  | stdio stdio =>
      cases other with
      | stdio other =>
          obtain ⟨command, rest⟩ := cut_inj plain.command plain'.command same
          obtain ⟨args, env⟩ := cut_last_inj (renderEnvSignature_bar plain.env)
            (renderEnvSignature_bar plain'.env) rest
          have sameCommand := String.toList_inj.1 command
          have sameArgs := renderArgs_inj plain.args plain'.args args
          have sameEnv := renderEnvSignature_inj plain.env plain'.env env
          cases stdio
          cases other
          simp_all
      | _ => simp [McpServerConfig.kind] at kinds
  | sse remote =>
      cases other with
      | sse other => exact congrArg McpServerConfig.sse (renderRemote_inj plain plain' same)
      | _ => simp [McpServerConfig.kind] at kinds
  | http remote =>
      cases other with
      | http other => exact congrArg McpServerConfig.http (renderRemote_inj plain plain' same)
      | _ => simp [McpServerConfig.kind] at kinds
  | ws ws =>
      cases other with
      | ws other =>
          obtain ⟨url, rest⟩ := cut_inj plain.url plain'.url same
          obtain ⟨headers, helper⟩ := cut_inj (renderEnvSignature_bar plain.headers)
            (renderEnvSignature_bar plain'.headers) rest
          have sameUrl := String.toList_inj.1 url
          have sameHeaders := renderEnvSignature_inj plain.headers plain'.headers headers
          have sameHelper := orEmpty_inj plain.helper plain'.helper helper
          cases ws
          cases other
          simp_all
      | _ => simp [McpServerConfig.kind] at kinds
  | sdk sdk =>
      cases other with
      | sdk other =>
          have sameName : sdk.name = other.name := String.toList_inj.1 same
          cases sdk
          cases other
          simp_all
      | _ => simp [McpServerConfig.kind] at kinds
  | managedProxy proxy =>
      cases other with
      | managedProxy other =>
          obtain ⟨url, id⟩ := cut_inj plain plain' same
          have sameUrl := String.toList_inj.1 url
          have sameId := String.toList_inj.1 id
          cases proxy
          cases other
          simp_all
      | _ => simp [McpServerConfig.kind] at kinds

theorem kind_bar (config : McpServerConfig) : '|' ∉ config.kind.toList := by
  have all : ∀ kind ∈ ["stdio", "sse", "http", "ws", "sdk", "claudeai-proxy"], '|' ∉ kind.toList := by
    decide
  apply all
  cases config <;> simp [McpServerConfig.kind]

theorem renderedConfig_inj {config other : McpServerConfig} (plain : config.Plain)
    (plain' : other.Plain) (same : renderedConfig config = renderedConfig other) :
    config = other := by
  obtain ⟨kinds, fields⟩ := cut_inj (kind_bar config) (kind_bar other) same
  exact renderFields_inj (String.toList_inj.1 kinds) plain plain' fields

/-- **Fingerprints tell plain configurations apart**, and stdio signatures any two command
lines. -/
theorem fingerprints_tell_apart (config other : ScopedMcpServerConfig)
    (stdio otherStdio : McpStdioServerConfig) :
    (config.config.Plain → other.config.Plain →
      renderedConfig config.config = renderedConfig other.config → config.config = other.config) ∧
    (mcpServerSignature (.stdio stdio) = mcpServerSignature (.stdio otherStdio) →
      stdio.command = otherStdio.command ∧ stdio.args = otherStdio.args) :=
  ⟨renderedConfig_inj, signature_stdio_inj⟩

/-- A server with arguments that have separators in them. -/
def plainServer : McpServerConfig :=
  .stdio ⟨"uvx", ["a|b", "c\\"], OrderedMap.empty.insert "TOKEN" "x=y"⟩

theorem fingerprints_tell_apart_plain :
    (ScopedMcpServerConfig.mk .user plainServer).config =
      (ScopedMcpServerConfig.mk .project plainServer).config ∧
    (McpStdioServerConfig.mk "uvx" ["a|b"] .empty).args = ["a|b"] := by
  have plain : plainServer.Plain := ⟨by decide, by decide, by decide +kernel⟩
  have apart := fingerprints_tell_apart ⟨.user, plainServer⟩ ⟨.project, plainServer⟩
    ⟨"uvx", ["a|b"], .empty⟩ ⟨"uvx", ["a|b"], OrderedMap.empty.insert "TOKEN" "secret"⟩
  exact ⟨apart.1 plain plain rfl, (apart.2 rfl).2⟩

/-- A server with one header, whose value is made to look like two. -/
def oneHeader : McpServerConfig :=
  .http ⟨"https://vendor.example/mcp", OrderedMap.empty.insert "X-A" "1;X-B=2", none, none⟩

def twoHeaders : McpServerConfig :=
  .http ⟨"https://vendor.example/mcp", (OrderedMap.empty.insert "X-A" "1").insert "X-B" "2", none,
    none⟩

theorem not_fingerprints_tell_apart : ¬∀ config other : ScopedMcpServerConfig,
    renderedConfig config.config = renderedConfig other.config → config.config = other.config := by
  intro apart
  have same : renderedConfig oneHeader = renderedConfig twoHeaders := by decide +kernel
  have different : oneHeader ≠ twoHeaders := by decide +kernel
  exact different (apart ⟨.user, oneHeader⟩ ⟨.user, twoHeaders⟩ same)

end Openyak.Runtime.McpConfigs
