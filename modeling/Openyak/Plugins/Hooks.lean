/-
# Plugins.Hooks -- the runner of the plugins, and how it agrees with the other

This runner starts a command that names an existing path as a script, and passes over a
broken pipe: a hook need not read its input.  To the runner of the conversation a broken
pipe is a hook that could not be run, so a hook that exits with status 2 before it has read
all of its input does not deny the call (`ignored_denial`).

A hook that is not started denies nothing in either, which is so for every hook when the
input of the tool does not fit into a string of the environment.
-/
import Openyak.Runtime.Hooks

namespace Openyak.Plugins

open Openyak.Theory Openyak.Theory.ByteStream Openyak.Theory.ChildProcess
open Openyak.Runtime (HookCall HookRunResult Shell runtimeShell)
open Openyak.Runtime.Hooks

set_option autoImplicit false

/-- `sh` on the file, if the command is one; else `sh -lc`. -/
def shellCommand (machine : Machine) (command : String) : Invocation :=
  if machine.pathExists command then ⟨"sh", [command]⟩ else ⟨"sh", ["-lc", command]⟩

def pluginShell : Shell := ⟨shellCommand, fun error => error.kind = .brokenPipe⟩

structure PluginHooks where
  preToolUse : List String
  postToolUse : List String

structure HookRunner where
  hooks : PluginHooks

namespace HookRunner

variable (serde : SerdeJson) (machine : Machine) (runner : HookRunner)

def runPreToolUse (toolName toolInput : String) : HookRunResult × Nat :=
  runCommands serde pluginShell machine (.preToolUse toolName toolInput) runner.hooks.preToolUse

def runPostToolUse (toolName toolInput toolOutput : String) (isError : Bool) :
    HookRunResult × Nat :=
  runCommands serde pluginShell machine (.postToolUse toolName toolInput toolOutput isError)
    runner.hooks.postToolUse

end HookRunner

variable {serde : SerdeJson} {machine : Machine} {call : HookCall} {start : Nat} {command : String}

/-- All of a hook's input is written, and a command that is a path behaves as the script it
names. -/
structure Alike (serde : SerdeJson) (machine : Machine) (call : HookCall) (start : Nat)
    (command : String) : Prop where
  refusal : machine.pathExists command = true →
    machine.refusal start ⟨"sh", [command]⟩ = machine.refusal start ⟨"sh", ["-lc", command]⟩
  process : machine.pathExists command = true →
    machine.process start ⟨"sh", [command]⟩ (environment call) (stdin serde call) =
      machine.process start ⟨"sh", ["-lc", command]⟩ (environment call) (stdin serde call)
  written : machine.writeError (program serde runtimeShell machine call start command)
    (stdin serde call) = none

theorem runCommand_alike (alike : Alike serde machine call start command) :
    runCommand serde runtimeShell machine call start command =
      runCommand serde pluginShell machine call start command := by
  have refusal : machine.refusal start (shellCommand machine command) =
      machine.refusal start ⟨"sh", ["-lc", command]⟩ := by
    rw [shellCommand]
    split
    · exact alike.refusal ‹_›
    · rfl
  have spawns : machine.spawnError start (shellCommand machine command) (environment call) =
      machine.spawnError start ⟨"sh", ["-lc", command]⟩ (environment call) := by
    rw [Machine.spawnError, Machine.spawnError, refusal]
  have process : machine.process start (shellCommand machine command) (environment call)
      (stdin serde call) = program serde runtimeShell machine call start command := by
    rw [shellCommand]
    split
    · exact alike.process ‹_›
    · rfl
  cases spawned : machine.spawnError start ⟨"sh", ["-lc", command]⟩ (environment call) with
  | some error =>
      have first : machine.outputWithStdin runtimeShell.passes start
          (runtimeShell.command machine command) (environment call) (stdin serde call) =
            .error error := Machine.outputWithStdin_refused spawned
      have second : machine.outputWithStdin pluginShell.passes start
          (pluginShell.command machine command) (environment call) (stdin serde call) =
            .error error := Machine.outputWithStdin_refused (spawns.trans spawned)
      rw [runCommand, runCommand, first, second]
  | none =>
      have heard : Heard serde runtimeShell machine call start command :=
        ⟨spawned, fun error failed => by cases alike.written.symm.trans failed⟩
      have heard' : Heard serde pluginShell machine call start command := by
        refine ⟨spawns.trans spawned, fun error failed => ?_⟩
        have same : program serde pluginShell machine call start command =
            program serde runtimeShell machine call start command := process
        rw [same] at failed
        cases alike.written.symm.trans failed
      rw [runCommand_heard heard, runCommand_heard heard']
      exact congrArg (fun process : Process => outcomeOf call command process.output) process.symm

/-- Every hook that the conversation's runner comes to is alike in both. -/
def AllAlike (serde : SerdeJson) (machine : Machine) (call : HookCall) (commands : List String) :
    Prop :=
  ∀ before command, Reaches serde runtimeShell machine call commands before command →
    Alike serde machine call before.length command

/-- **When a denying hook denies, and when the two runners agree.**  In either runner it
denies exactly if it starts and its input can be written, or the broken pipe is passed over.
They give the same verdict and messages if every hook that is reached takes all of its input
and is no path, or the script it names behaves as the path does. -/
theorem preToolUse_denies (serde : SerdeJson) (machine : Machine) (commands : List String)
    (toolName toolInput : String) :
    let call := HookCall.preToolUse toolName toolInput
    let runtime := (Runtime.HookRunner.mk commands []).runPreToolUse serde machine toolName
      toolInput
    let plugins := (HookRunner.mk ⟨commands, []⟩).runPreToolUse serde machine toolName toolInput
    (∀ shell ∈ [runtimeShell, pluginShell],
      (AlwaysDenies serde shell machine call commands ↔
        ∀ before command, Reaches serde shell machine call commands before command →
          Denies serde shell machine call before.length command →
            Heard serde shell machine call before.length command)) ∧
      (AllAlike serde machine call commands → runtime.1 = plugins.1) := by
  intro call runtime plugins
  refine ⟨fun shell _ => alwaysDenies_iff commands, fun alike => ?_⟩
  have same : runFrom serde runtimeShell machine call 0 [] commands =
      runFrom serde pluginShell machine call 0 [] commands := by
    refine runFrom_congr [] commands fun before command after split allowed => ?_
    rw [Nat.zero_add]
    exact runCommand_alike (alike before command ⟨⟨after, split⟩, allowed⟩)
  exact congrArg Prod.fst same

/-! ## A hook that does not read -/

/-- The text of the call `Bash {"command":"pwd"}`. -/
def pwdSerde : SerdeJson where
  fromStr _ := .ok (.ofFields [("command", .string "pwd")])
  toText _ := "\x7b\"hook_event_name\":\"PreToolUse\",\"tool_input\":\x7b\"command\":\"pwd\"\x7d," ++
    "\"tool_input_json\":\"\x7b\\\"command\\\":\\\"pwd\\\"\x7d\",\"tool_name\":\"Bash\"," ++
    "\"tool_output\":null,\"tool_result_is_error\":false\x7d"

/-- Every process exits with 2 at once. -/
def hastyMachine : Machine where
  maxString := 131072
  pipeCapacity := 65536
  pathExists _ := false
  refusal _ _ := none
  process _ _ _ _ := ⟨0, true, .ok ⟨some 2, [], []⟩⟩

/-- **A hook that exits with 2 before its input is written** denies the call in one runner
and lets it run in the other. -/
theorem ignored_denial :
    let call := HookCall.preToolUse "Bash" "\x7b\"command\":\"pwd\"\x7d"
    ¬AlwaysDenies pwdSerde runtimeShell hastyMachine call ["exit 2"] ∧
      ((Runtime.HookRunner.mk ["exit 2"] []).runPreToolUse pwdSerde hastyMachine "Bash"
          call.toolInput).1.denied = false ∧
      ((HookRunner.mk ⟨["exit 2"], []⟩).runPreToolUse pwdSerde hastyMachine "Bash"
          call.toolInput).1.denied = true := by
  intro call
  have allowed : ((Runtime.HookRunner.mk ["exit 2"] []).runPreToolUse pwdSerde hastyMachine "Bash"
      call.toolInput).1.denied = false := by decide +kernel
  refine ⟨fun denies => ?_, allowed, by decide +kernel⟩
  have isDenied := (denies [] "exit 2" ⟨⟨[], rfl⟩, rfl⟩ ⟨_, rfl, rfl⟩).1
  cases allowed.symm.trans isDenied

end Openyak.Plugins
