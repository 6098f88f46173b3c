/-
# Runtime.BashSoundness -- what the validator looks at, and what the shell runs

The shell and the validator cut a command differently: `&` and newlines end a
command for the shell only, quotes hold a word together for the shell only.  So
the validator may look at a token that the shell does not run, and miss one that
it runs.

`Reads` says that the validator looks at a command under the name the shell runs
it by.  A mode's list is kept (`Keeps`) when every command outside the list is read.
-/
import Openyak.Runtime.BashValidation
import Openyak.Theory.Shell
import Mathlib.Tactic.ByContra

namespace Openyak.Runtime

open Openyak.Theory
open Openyak.Theory.Shell (CommandLine SimpleCommand)

set_option autoImplicit false

/-! ## What a mode promises -/

/-- The name a command is run by: the last component of its first word. -/
def runName (command : SimpleCommand) : Option (List Char) :=
  command.runs.head?.map Shell.lastComponent

/-- What a command may be in read-only mode: a listed one, or git without a subcommand
or with a listed one. -/
def ReadOnlyAccepts (command : SimpleCommand) : Prop :=
  ∀ name, runName command = some name →
    String.ofList name ∈ readOnlyCommands ∨
      (name = "git".toList ∧ ∀ subcommand, gitSubcommand command.runs = some subcommand →
        String.ofList subcommand ∈ readOnlyGitSubcommands)

def WorkspaceWriteAccepts (command : SimpleCommand) : Prop :=
  ∀ name, runName command = some name →
    String.ofList name ∉ workspaceWriteMachineCommands ∧ name ≠ "sudo".toList

/-- What the two modes accept; the other modes promise nothing about names. -/
def Accepts : PermissionMode → SimpleCommand → Prop
  | .readOnly, command => ReadOnlyAccepts command
  | .workspaceWrite, command => WorkspaceWriteAccepts command
  | .dangerFullAccess, _ | .prompt, _ | .allow, _ => True

/-- A line that is allowed runs accepted commands only. -/
def Keeps (mode : PermissionMode) (line : CommandLine) : Prop :=
  validateBashCommand line.text mode = .allow → ∀ command ∈ line.commands, Accepts mode command

/-! ## What the validator looks at -/

/-- The tokens of the segments. -/
def tokenLists (command : List Char) : List (List Token) :=
  (commandSegments command).map normalizedTokens

/-- Some segment begins with the command's name, and has its subcommand if it is git. -/
def Reads (line : CommandLine) (command : SimpleCommand) : Prop :=
  ∃ first rest, first :: rest ∈ tokenLists line.text ∧
    runName command = some (commandName first) ∧
    (commandName first = "git".toList →
      gitSubcommand (first :: rest) = gitSubcommand command.runs)

/-- Every command that the mode does not accept is read. -/
def ReadsUnaccepted (mode : PermissionMode) (line : CommandLine) : Prop :=
  ∀ command ∈ line.commands, ¬ Accepts mode command → Reads line command

/-! ## Denials -/

section Denials

variable {first : Token} {rest : List Token}

theorem effectiveTokens_of_name (plain : commandName first ≠ "sudo".toList) :
    effectiveTokens (first :: rest) = first :: rest := by
  rw [effectiveTokens, if_neg plain]

/-- **Read-only mode denies a segment** whose first token is no listed command and not
git with a listed subcommand. -/
theorem readOnlyDenial_isSome
    (unlisted : String.ofList (commandName first) ∉ readOnlyCommands)
    (git : commandName first = "git".toList → ∃ subcommand,
      gitSubcommand (first :: rest) = some subcommand ∧
        String.ofList subcommand ∉ readOnlyGitSubcommands) :
    (readOnlyDenial (first :: rest)).isSome := by
  unfold readOnlyDenial
  dsimp only
  by_cases isSudo : commandName first = "sudo".toList
  · rw [if_pos isSudo]
    rfl
  rw [if_neg isSudo, effectiveTokens_of_name isSudo]
  dsimp only
  split
  · rfl
  · split
    · rename_i isGit
      have name : commandName first = "git".toList := by
        rw [← isGit, String.toList_ofList]
      obtain ⟨subcommand, named, outside⟩ := git name
      rw [named]
      dsimp only
      rw [if_neg outside]
      rfl
    · split
      · rfl
      · split <;> rfl

theorem workspaceWriteDenial_isSome
    (listed : String.ofList (commandName first) ∈ workspaceWriteMachineCommands ∨
      commandName first = "sudo".toList) :
    (workspaceWriteDenial (first :: rest)).isSome := by
  unfold workspaceWriteDenial
  dsimp only
  by_cases isSudo : commandName first = "sudo".toList
  · rw [if_pos isSudo]
    rfl
  · rw [if_neg isSudo, effectiveTokens_of_name isSudo]
    dsimp only
    rw [if_pos (listed.resolve_right isSudo)]
    rfl

end Denials

/-- A segment that is denied denies the command. -/
theorem firstDenial_ne_allow {denial : List Token → Option BashCommandDenial}
    {command : List Char} {tokens : List Token} (member : tokens ∈ tokenLists command)
    (denied : (denial tokens).isSome) : firstDenial denial command ≠ .allow := by
  obtain ⟨segment, inside, rfl⟩ := List.mem_map.1 member
  unfold firstDenial
  split
  · nofun
  · rename_i none
    rw [List.findSome?_eq_none_iff] at none
    rw [none segment inside] at denied
    cases denied

theorem validateReadOnly_ne_allow {command : List Char} {tokens : List Token}
    (member : tokens ∈ tokenLists command) (denied : (readOnlyDenial tokens).isSome) :
    validateReadOnly command ≠ .allow := by
  unfold validateReadOnly
  split
  · nofun
  · exact firstDenial_ne_allow member denied

theorem validateWorkspaceWrite_ne_allow {command : List Char} {tokens : List Token}
    (member : tokens ∈ tokenLists command) (denied : (workspaceWriteDenial tokens).isSome) :
    validateWorkspaceWrite command ≠ .allow := by
  unfold validateWorkspaceWrite
  split
  · nofun
  · split
    · nofun
    · exact firstDenial_ne_allow member denied

/-! ## Soundness -/

/-- A command that is read and not accepted denies the line. -/
theorem not_allowed_of_reads {mode : PermissionMode} {line : CommandLine}
    {command : SimpleCommand} (refused : ¬ Accepts mode command) (reads : Reads line command) :
    validateBashCommand line.text mode ≠ .allow := by
  obtain ⟨first, rest, member, named, git⟩ := reads
  unfold validateBashCommand
  split
  · nofun
  · cases mode with
    | readOnly =>
        refine validateReadOnly_ne_allow member (readOnlyDenial_isSome ?_ ?_)
        · intro listed
          refine refused fun name isName => Or.inl ?_
          rw [named, Option.some.injEq] at isName
          exact isName ▸ listed
        · intro isGit
          by_contra noSubcommand
          refine refused fun name isName => Or.inr ?_
          rw [named, Option.some.injEq] at isName
          refine ⟨isName ▸ isGit, fun subcommand runs => ?_⟩
          by_contra outside
          exact noSubcommand ⟨subcommand, (git isGit).trans runs, outside⟩
    | workspaceWrite =>
        refine validateWorkspaceWrite_ne_allow member (workspaceWriteDenial_isSome ?_)
        by_contra unlisted
        refine refused fun name isName => ?_
        rw [named, Option.some.injEq] at isName
        rw [not_or] at unlisted
        exact ⟨isName ▸ unlisted.1, isName ▸ unlisted.2⟩
    | dangerFullAccess => exact absurd trivial refused
    | prompt => exact absurd trivial refused
    | allow => exact absurd trivial refused

/-- `ls & rm x`, and with any other first word in place of `rm`. -/
def lsThen (name : Shell.Word) (unreserved : String.ofList name.text ∉ Shell.reservedWords) :
    CommandLine where
  before := ⟨[], rfl⟩
  first := ⟨.ofLiterals ['l', 's'] (by decide) (by decide), [], nofun, by decide⟩
  rest :=
    [{ before := .space
       separator := .background
       after := ⟨[' '], by decide⟩
       command :=
        { first := name
          rest := [(.space, .ofLiterals ['x'] (by decide) (by decide))]
          apart := by
            intro next member
            rw [List.mem_singleton.1 member]
            exact List.cons_ne_nil _ _
          unreserved := unreserved } }]
  ending := ⟨⟨[], rfl⟩, none, ⟨[], rfl⟩, by decide⟩

def lsThenRm : CommandLine := lsThen (.ofLiterals ['r', 'm'] (by decide) (by decide)) (by decide)

def lsThenMount : CommandLine :=
  lsThen (.ofLiterals ['m', 'o', 'u', 'n', 't'] (by decide) (by decide)) (by decide)

example : lsThenRm.text = "ls & rm x".toList := by decide

end Openyak.Runtime
