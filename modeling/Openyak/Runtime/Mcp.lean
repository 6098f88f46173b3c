/-
# Runtime.Mcp -- the names of MCP tools

A tool goes to the model under one name made of its server's and its own, in an alphabet
of letters, digits, `_` and `-`.  Any other character becomes `_`, so that many names have
the same one.
-/
import Openyak.Theory.Text

namespace Openyak.Runtime

open Openyak.Theory.Text

set_option autoImplicit false

def claudeaiServerPrefix : String := "claude.ai "

def normalChar (c : Char) : Char :=
  if 'a' ≤ c ∧ c ≤ 'z' ∨ 'A' ≤ c ∧ c ≤ 'Z' ∨ '0' ≤ c ∧ c ≤ '9' ∨ c = '_' ∨ c = '-' then c else '_'

/-- The loop of `collapse_underscores`, from whether the last character was one on. -/
def collapseFrom : Bool → List Char → List Char
  | _, [] => []
  | lastWasUnderscore, c :: rest =>
      if c = '_' then
        if lastWasUnderscore then collapseFrom true rest else c :: collapseFrom true rest
      else c :: collapseFrom false rest

def collapseUnderscores (value : List Char) : List Char := collapseFrom false value

def normalizeNameForMcp (name : String) : String :=
  let normalized := name.toList.map normalChar
  if claudeaiServerPrefix.toList.isPrefixOf name.toList then
    String.ofList (trimMatches ['_'] (collapseUnderscores normalized))
  else String.ofList normalized

def mcpToolPrefix (serverName : String) : String :=
  "mcp__" ++ normalizeNameForMcp serverName ++ "__"

def mcpToolName (serverName toolName : String) : String :=
  mcpToolPrefix serverName ++ normalizeNameForMcp toolName

example : mcpToolName "claude.ai Example   Server!!" "weather tool" =
    "mcp__claude_ai_Example_Server__weather_tool" := by decide +kernel

end Openyak.Runtime
