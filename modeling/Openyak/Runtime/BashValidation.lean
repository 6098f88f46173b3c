/-
# Runtime.BashValidation -- which shell commands a permission mode lets through

The validator cuts a command at `||`, `&&`, `;` and `|`, cuts the segments at white
space, takes quotes and brackets off the ends of the tokens, and looks at the first
token of each segment.
-/
import Openyak.Theory.Text
import Openyak.Runtime.Permissions

namespace Openyak.Runtime

open Openyak.Theory

set_option autoImplicit false

structure BashCommandDenial where
  requiredMode : PermissionMode
  reason : String
  deriving DecidableEq, Repr

inductive BashCommandValidation where
  | allow
  | deny (denial : BashCommandDenial)
  deriving DecidableEq, Repr

/-! ## The lists -/

def readOnlyCommands : List String :=
  ["awk", "basename", "b3sum", "cal", "cat", "cut", "date", "df", "diff", "dirname", "du",
    "echo", "env", "false", "file", "find", "free", "grep", "head", "hexdump", "jq", "less",
    "ls", "md5sum", "more", "od", "paste", "printenv", "printf", "pwd", "readlink", "realpath",
    "rg", "sed", "sha256sum", "sort", "stat", "strings", "tail", "test", "tree", "tr", "true",
    "type", "uname", "uniq", "uptime", "wc", "where", "which", "whoami", "xxd", "yq"]

def readOnlyGitSubcommands : List String :=
  ["blame", "cat-file", "describe", "diff", "log", "ls-files", "ls-tree", "reflog", "rev-parse",
    "shortlog", "show", "status"]

def writeCommands : List String :=
  ["cp", "dd", "install", "ln", "mkdir", "mkfifo", "mknod", "mv", "rm", "rmdir", "shred", "tee",
    "touch", "truncate"]

def stateChangingCommands : List String :=
  ["apt", "apt-get", "brew", "bun", "cargo", "chgrp", "chmod", "choco", "chown", "crontab",
    "dnf", "docker", "gem", "go", "groupadd", "groupdel", "halt", "kill", "killall",
    "launchctl", "mount", "netsh", "npm", "pacman", "pip", "pip3", "pkill", "pnpm", "poweroff",
    "reboot", "reg", "rustup", "sc", "service", "shutdown", "scoop", "systemctl", "takeown",
    "umount", "useradd", "userdel", "usermod", "winget", "yarn", "yum"]

def workspaceWriteMachineCommands : List String :=
  ["apt", "apt-get", "brew", "chgrp", "choco", "chown", "crontab", "diskutil", "dnf", "fdisk",
    "format", "groupadd", "groupdel", "halt", "icacls", "launchctl", "mkfs", "mount", "netsh",
    "pacman", "parted", "poweroff", "reboot", "reg", "sc", "service", "shutdown", "scoop",
    "systemctl", "takeown", "umount", "useradd", "userdel", "usermod", "winget", "wipefs",
    "yum"]

/-! ## Segments and tokens -/

abbrev Token := List Char

/-- The pieces between the matches of the separator pattern; `seen` is the piece being
read, reversed.  `||` and `&&` are tried before `|`. -/
def splitSegments : List Char → (seen : List Char) → List (List Char)
  | [], seen => [seen.reverse]
  | '|' :: '|' :: rest, seen => seen.reverse :: splitSegments rest []
  | '&' :: '&' :: rest, seen => seen.reverse :: splitSegments rest []
  | ';' :: rest, seen => seen.reverse :: splitSegments rest []
  | '|' :: rest, seen => seen.reverse :: splitSegments rest []
  | c :: rest, seen => splitSegments rest (c :: seen)

def commandSegments (command : List Char) : List (List Char) :=
  ((splitSegments command []).map Text.trim).filter fun segment => segment ≠ []

def normalizeToken (token : Token) : Token :=
  Text.toAsciiLowercase (Text.trimMatches ['"', '\'', '(', ')', '\x7b', '\x7d'] token)

def normalizedTokens (segment : List Char) : List Token :=
  ((Text.splitWhitespace segment).map normalizeToken).filter fun token => token ≠ []

/-- What follows the last slash or backslash. -/
def commandName (token : Token) : Token :=
  (token.reverse.takeWhile fun c => c ≠ '/' ∧ c ≠ '\\').reverse

def effectiveTokens : List Token → List Token
  | [] => []
  | first :: rest =>
      if commandName first = "sudo".toList then
        rest.dropWhile fun token => "-".toList.isPrefixOf token
      else first :: rest

/-- Options of git that take the next token as their value. -/
def gitValueOptions : List Token :=
  ["-c".toList, "-C".toList, "--git-dir".toList, "--work-tree".toList]

def gitSubcommandFrom : List Token → Option Token
  | [] => none
  | [token] =>
      if token = "--".toList then none
      else if token ∈ gitValueOptions then none
      else if "-".toList.isPrefixOf token then none
      else some token
  | token :: next :: rest =>
      if token = "--".toList then some next
      else if token ∈ gitValueOptions then gitSubcommandFrom rest
      else if "-".toList.isPrefixOf token then gitSubcommandFrom (next :: rest)
      else some token

def gitSubcommand (tokens : List Token) : Option Token := gitSubcommandFrom (tokens.drop 1)

def hasInPlaceFlag (tokens : List Token) : Bool :=
  (tokens.drop 1).any fun token =>
    token = "-i".toList || "-i".toList.isPrefixOf token || token = "--in-place".toList ||
      "--in-place=".toList.isPrefixOf token

/-! ## Read-only mode -/

/-- The scan for an unquoted `>`; a backslash does not count. -/
def writeRedirection : (inSingle inDouble : Bool) → List Char → Bool
  | _, _, [] => false
  | inSingle, inDouble, c :: rest =>
      if c = '\'' ∧ !inDouble then writeRedirection (!inSingle) inDouble rest
      else if c = '"' ∧ !inSingle then writeRedirection inSingle (!inDouble) rest
      else if c = '>' ∧ !inSingle ∧ !inDouble then true
      else writeRedirection inSingle inDouble rest

def hasWriteRedirection (command : List Char) : Bool := writeRedirection false false command

/-- What is wrong with the tokens of one segment in read-only mode. -/
def readOnlyDenial (tokens : List Token) : Option BashCommandDenial :=
  match tokens with
  | [] => none
  | first :: _ =>
      if commandName first = "sudo".toList then
        some ⟨.workspaceWrite, "read-only mode blocks privileged shell command 'sudo'"⟩
      else
        match effectiveTokens tokens with
        | [] => none
        | effective :: others =>
            let firstCommand := commandName effective
            let name := String.ofList firstCommand
            if name = "sed" ∧ hasInPlaceFlag (effective :: others) then
              some ⟨.workspaceWrite, "read-only mode blocks in-place editing via 'sed -i'"⟩
            else if name = "git" then
              match gitSubcommand (effective :: others) with
              | some subcommand =>
                  if String.ofList subcommand ∈ readOnlyGitSubcommands then none
                  else some ⟨.workspaceWrite, "read-only mode blocks git subcommand '" ++
                    String.ofList subcommand ++ "' because it mutates repository state"⟩
              | none => none
            else if name ∈ readOnlyCommands then none
            else if name ∈ writeCommands then
              some ⟨.workspaceWrite, "read-only mode blocks shell write command '" ++ name ++ "'"⟩
            else if name ∈ stateChangingCommands then
              some ⟨.workspaceWrite,
                "read-only mode blocks state-changing shell command '" ++ name ++ "'"⟩
            else
              some ⟨.workspaceWrite,
                "read-only mode only allows known read-only shell commands; '" ++ name ++
                  "' is not classified as read-only"⟩

/-- The loop over the segments: the first denial. -/
def firstDenial (denial : List Token → Option BashCommandDenial) (command : List Char) :
    BashCommandValidation :=
  match (commandSegments command).findSome? fun segment => denial (normalizedTokens segment) with
  | some denial => .deny denial
  | none => .allow

def validateReadOnly (command : List Char) : BashCommandValidation :=
  if hasWriteRedirection command then
    .deny ⟨.workspaceWrite, "read-only mode blocks shell write redirection"⟩
  else firstDenial readOnlyDenial command

/-! ## Workspace-write mode -/

def recursiveRmReason (tokens : List Token) : Option String :=
  match tokens with
  | [] => none
  | first :: rest =>
      if commandName first ≠ "rm".toList then none
      else
        let flagged (flag : Char) : Bool :=
          rest.any fun token => "-".toList.isPrefixOf token && token.contains flag
        if !flagged 'r' || !flagged 'f' then none
        else
          let targets := rest.filter fun token => !"-".toList.isPrefixOf token
          let aims (names : List String) : Bool :=
            targets.any fun target => String.ofList target ∈ names
          if aims ["/", "/*"] then some "root recursive deletion"
          else if aims ["~", "~/", "~/*"] then some "home-directory recursive deletion"
          else if aims [".", "./", "*", "./*"] then some "current-directory recursive deletion"
          else none

def destructiveReason (command : List Char) : Option String :=
  match (commandSegments command).findSome? fun segment =>
      recursiveRmReason (effectiveTokens (normalizedTokens segment)) with
  | some reason => some reason
  | none =>
      let lowered := Text.toAsciiLowercase command
      if Text.contains ":()\x7b :|:& \x7d;:" lowered then some "fork bomb"
      else if Text.contains "chmod -r 777" lowered || Text.contains "chmod -r 000" lowered then
        some "destructive recursive permission reset"
      else none

def rawDeviceWriteDetected (command : List Char) : Bool :=
  let lowered := Text.toAsciiLowercase command
  Text.contains "of=/dev/" lowered || Text.contains ">/dev/" lowered ||
    Text.contains "> /dev/" lowered || Text.contains "\\\\.\\physicaldrive" lowered

/-- What is wrong with the tokens of one segment in workspace-write mode. -/
def workspaceWriteDenial (tokens : List Token) : Option BashCommandDenial :=
  match tokens with
  | [] => none
  | first :: _ =>
      if commandName first = "sudo".toList then
        some ⟨.dangerFullAccess, "workspace-write mode blocks privileged shell command 'sudo'; " ++
          "use danger-full-access"⟩
      else
        match effectiveTokens tokens with
        | [] => none
        | effective :: _ =>
            let name := String.ofList (commandName effective)
            if name ∈ workspaceWriteMachineCommands then
              some ⟨.dangerFullAccess, "workspace-write mode blocks system administration command '" ++
                name ++ "'; use danger-full-access"⟩
            else none

def validateWorkspaceWrite (command : List Char) : BashCommandValidation :=
  match destructiveReason command with
  | some reason => .deny ⟨.dangerFullAccess,
      "workspace-write mode blocks destructive shell pattern (" ++ reason ++
        "); use danger-full-access"⟩
  | none =>
      if rawDeviceWriteDetected command then
        .deny ⟨.dangerFullAccess,
          "workspace-write mode blocks raw device writes; use danger-full-access"⟩
      else firstDenial workspaceWriteDenial command

def validateBashCommand (command : List Char) (mode : PermissionMode) : BashCommandValidation :=
  if Text.trim command = [] then .deny ⟨mode, "shell command is empty or whitespace-only"⟩
  else
    match mode with
    | .readOnly => validateReadOnly command
    | .workspaceWrite => validateWorkspaceWrite command
    | .prompt => .deny ⟨.dangerFullAccess, "bash requires confirmation in prompt mode"⟩
    | .dangerFullAccess | .allow => .allow

end Openyak.Runtime
