/-
# Runtime.Hooks -- commands that are asked before and after a tool call

A hook gets the call in its environment and, as JSON, on its standard input, and answers by
its exit status: 0 lets the tool run, 2 denies it, anything else is a warning and lets it
run.  So is a hook that could not be run: it does not start, or its input could not be
written.

There are two runners, this one and that of the plugins.  What they share is defined once
over the two things in which they differ (`Shell`): how a command becomes a process, and
which write errors are passed over.
-/
import Openyak.Theory.ChildProcess
import Openyak.Theory.Json

namespace Openyak.Runtime

open Openyak.Theory Openyak.Theory.ByteStream Openyak.Theory.ChildProcess
open Openyak.Theory.Text (fromUtf8Lossy trim)

set_option autoImplicit false

inductive HookEvent where
  | preToolUse
  | postToolUse

def HookEvent.asStr : HookEvent → String
  | .preToolUse => "PreToolUse"
  | .postToolUse => "PostToolUse"

structure HookRunResult where
  denied : Bool
  messages : List String
  deriving DecidableEq, Repr

def HookRunResult.allow (messages : List String) : HookRunResult := ⟨false, messages⟩

inductive HookCommandOutcome where
  | allow (message : Option String)
  | deny (message : Option String)
  | warn (message : String)

/-- The call a hook is asked about. -/
structure HookCall where
  event : HookEvent
  toolName : String
  toolInput : String
  toolOutput : Option String
  isError : Bool

/-- How a runner starts a command, and the write errors it passes over. -/
structure Shell where
  command : Machine → String → Invocation
  passes : IoError → Bool

namespace Hooks

variable (serde : SerdeJson)

def parseToolInput (toolInput : String) : Json :=
  match serde.fromStr toolInput with
  | .ok value => value
  | .error _ => .ofFields [("raw", .string toolInput)]

def payload (call : HookCall) : String :=
  serde.toText (.ofFields [("hook_event_name", .string call.event.asStr),
    ("tool_name", .string call.toolName), ("tool_input", parseToolInput serde call.toolInput),
    ("tool_input_json", .string call.toolInput),
    ("tool_output", (call.toolOutput.map Json.string).getD .null),
    ("tool_result_is_error", .bool call.isError)])

/-- What is written to a hook. -/
def stdin (call : HookCall) : List UInt8 := (payload serde call).toUTF8.toList

def environment (call : HookCall) : Variables :=
  [("HOOK_EVENT", call.event.asStr), ("HOOK_TOOL_NAME", call.toolName),
    ("HOOK_TOOL_INPUT", call.toolInput), ("HOOK_TOOL_IS_ERROR", if call.isError then "1" else "0")] ++
    (call.toolOutput.map fun toolOutput => ("HOOK_TOOL_OUTPUT", toolOutput)).toList

def formatHookWarning (command : String) (code : Int) (stdout : Option String) (stderr : String) :
    String :=
  let message := "Hook `" ++ command ++ "` exited with status " ++ toString code ++
    "; allowing tool execution to continue"
  match stdout.filter fun stdout => !stdout.isEmpty with
  | some stdout => message ++ ": " ++ stdout
  | none => if stderr.isEmpty then message else message ++ ": " ++ stderr

def trimmed (bytes : List UInt8) : String := String.ofList (trim (fromUtf8Lossy bytes))

/-- What is made of a hook's end. -/
def outcomeOf (call : HookCall) (command : String) :
    Except IoError Output → HookCommandOutcome
  | .error error =>
      .warn (call.event.asStr ++ " hook `" ++ command ++ "` failed to start for `" ++
        call.toolName ++ "`: " ++ error.message)
  | .ok output =>
      let stdout := trimmed output.stdout
      let message := if stdout.isEmpty then none else some stdout
      match output.status with
      | some 0 => .allow message
      | some 2 => .deny message
      | some code => .warn (formatHookWarning command code message (trimmed output.stderr))
      | none =>
          .warn (call.event.asStr ++ " hook `" ++ command ++
            "` terminated by signal while handling `" ++ call.toolName ++ "`")

variable (shell : Shell) (machine : Machine) (call : HookCall)

/-- `run_command`, as the how-manieth process. -/
def runCommand (start : Nat) (command : String) : HookCommandOutcome :=
  outcomeOf call command (machine.outputWithStdin shell.passes start (shell.command machine command)
    (environment call) (stdin serde call))

/-- The loop of `run_commands`: the result, and how many of the commands were tried. -/
def runFrom : Nat → List String → List String → HookRunResult × Nat
  | start, messages, [] => (.allow messages, start)
  | start, messages, command :: rest =>
      match runCommand serde shell machine call start command with
      | .allow message => runFrom (start + 1) (messages ++ message.toList) rest
      | .deny message =>
          (⟨true, messages ++ [message.getD
            (call.event.asStr ++ " hook denied tool `" ++ call.toolName ++ "`")]⟩, start + 1)
      | .warn message => runFrom (start + 1) (messages ++ [message]) rest

def runCommands (commands : List String) : HookRunResult × Nat :=
  runFrom serde shell machine call 0 [] commands

end Hooks

/-- The call before a tool runs. -/
def HookCall.preToolUse (toolName toolInput : String) : HookCall :=
  ⟨.preToolUse, toolName, toolInput, none, false⟩

def HookCall.postToolUse (toolName toolInput toolOutput : String) (isError : Bool) : HookCall :=
  ⟨.postToolUse, toolName, toolInput, some toolOutput, isError⟩

/-! ## The runner of the conversation -/

/-- `sh -lc`, and every write error is an error. -/
def shellCommand (_ : Machine) (command : String) : Invocation := ⟨"sh", ["-lc", command]⟩

def runtimeShell : Shell := ⟨shellCommand, fun _ => false⟩

structure HookRunner where
  preToolUse : List String
  postToolUse : List String

namespace HookRunner

variable (serde : SerdeJson) (machine : Machine) (runner : HookRunner)

def runPreToolUse (toolName toolInput : String) : HookRunResult × Nat :=
  Hooks.runCommands serde runtimeShell machine (.preToolUse toolName toolInput) runner.preToolUse

def runPostToolUse (toolName toolInput toolOutput : String) (isError : Bool) :
    HookRunResult × Nat :=
  Hooks.runCommands serde runtimeShell machine (.postToolUse toolName toolInput toolOutput isError)
    runner.postToolUse

end HookRunner

/-! ## Runs -/

namespace Hooks

variable {serde : SerdeJson} {shell : Shell} {machine : Machine} {call : HookCall} {start : Nat}
  {command : String}

/-- What the program of a command does once it runs. -/
def program (serde : SerdeJson) (shell : Shell) (machine : Machine) (call : HookCall)
    (start : Nat) (command : String) : Process :=
  machine.process start (shell.command machine command) (environment call) (stdin serde call)

/-- The program, once run, exits with status 2. -/
def Denies (serde : SerdeJson) (shell : Shell) (machine : Machine) (call : HookCall)
    (start : Nat) (command : String) : Prop :=
  ∃ output, (program serde shell machine call start command).output = .ok output ∧
    output.status = some 2

/-- The command starts, and no write error that counts gets in the way. -/
def Heard (serde : SerdeJson) (shell : Shell) (machine : Machine) (call : HookCall)
    (start : Nat) (command : String) : Prop :=
  machine.spawnError start (shell.command machine command) (environment call) = none ∧
    ∀ error, machine.writeError (program serde shell machine call start command)
      (stdin serde call) = some error → shell.passes error = true

theorem runCommand_heard (heard : Heard serde shell machine call start command) :
    runCommand serde shell machine call start command =
      outcomeOf call command (program serde shell machine call start command).output := by
  rw [runCommand, Machine.outputWithStdin_started heard.1]
  cases failed : machine.writeError (machine.process start (shell.command machine command)
      (environment call) (stdin serde call)) (stdin serde call) with
  | none => rfl
  | some error =>
      dsimp only
      rw [if_pos (heard.2 error failed)]
      rfl

theorem runCommand_unheard (unheard : ¬Heard serde shell machine call start command) :
    ∃ message, runCommand serde shell machine call start command = .warn message := by
  rw [runCommand]
  cases spawns : machine.spawnError start (shell.command machine command) (environment call) with
  | some error => exact ⟨_, by rw [Machine.outputWithStdin_refused spawns]; rfl⟩
  | none =>
      rw [Machine.outputWithStdin_started spawns]
      cases failed : machine.writeError (machine.process start (shell.command machine command)
          (environment call) (stdin serde call)) (stdin serde call) with
      | none => exact absurd ⟨spawns, fun error same => by cases failed.symm.trans same⟩ unheard
      | some error =>
          by_cases passes : shell.passes error = true
          · refine absurd ⟨spawns, fun other same => ?_⟩ unheard
            cases failed.symm.trans same
            exact passes
          · dsimp only
            rw [if_neg passes]
            exact ⟨_, rfl⟩

/-- A run of some commands and then others. -/
theorem runFrom_append (messages before after : List String) :
    runFrom serde shell machine call start messages (before ++ after) =
      if (runFrom serde shell machine call start messages before).1.denied then
        runFrom serde shell machine call start messages before
      else
        runFrom serde shell machine call (start + before.length)
          (runFrom serde shell machine call start messages before).1.messages after := by
  induction before generalizing start messages with
  | nil => rfl
  | cons command before ih =>
      have counted : start + (command :: before).length = start + 1 + before.length := by
        rw [List.length_cons]
        omega
      rw [counted, List.cons_append, runFrom, runFrom]
      cases runCommand serde shell machine call start command with
      | allow message => exact ih _
      | deny message => rfl
      | warn message => exact ih _

theorem start_le_tried (messages commands : List String) :
    start ≤ (runFrom serde shell machine call start messages commands).2 := by
  induction commands generalizing start messages with
  | nil => exact Nat.le_refl _
  | cons command rest ih =>
      rw [runFrom]
      cases runCommand serde shell machine call start command with
      | allow message => exact Nat.le_trans (Nat.le_succ _) (ih _)
      | deny message => exact Nat.le_succ _
      | warn message => exact Nat.le_trans (Nat.le_succ _) (ih _)

/-! ## Denial -/

variable (serde shell machine call)

/-- The run comes to the command that stands behind `before`. -/
def Reaches (commands before : List String) (command : String) : Prop :=
  (∃ after, commands = before ++ command :: after) ∧
    (runFrom serde shell machine call 0 [] before).1.denied = false

/-- A hook that is reached and whose program exits with 2 denies the call, and no later hook
is tried. -/
def AlwaysDenies (commands : List String) : Prop :=
  ∀ before command, Reaches serde shell machine call commands before command →
    Denies serde shell machine call before.length command →
      (runCommands serde shell machine call commands).1.denied = true ∧
        (runCommands serde shell machine call commands).2 = before.length + 1

variable {serde shell machine call}

/-- **A denying hook denies exactly if it is heard.** -/
theorem alwaysDenies_iff (commands : List String) :
    AlwaysDenies serde shell machine call commands ↔
      ∀ before command, Reaches serde shell machine call commands before command →
        Denies serde shell machine call before.length command →
          Heard serde shell machine call before.length command := by
  have runs : ∀ before command after, commands = before ++ command :: after →
      (runFrom serde shell machine call 0 [] before).1.denied = false →
        runCommands serde shell machine call commands =
          runFrom serde shell machine call before.length
            (runFrom serde shell machine call 0 [] before).1.messages (command :: after) := by
    intro before command after split allowed
    rw [runCommands, split, runFrom_append, if_neg (by simp [allowed]), Nat.zero_add]
  constructor
  · intro denies before command reaches exits
    obtain ⟨isDenied, tried⟩ := denies before command reaches exits
    obtain ⟨⟨after, split⟩, allowed⟩ := reaches
    refine Classical.byContradiction fun unheard => ?_
    obtain ⟨message, warns⟩ := runCommand_unheard unheard
    rw [runs before command after split allowed, runFrom, warns] at isDenied tried
    -- the run goes on behind the warning, or ends without a denial
    cases after with
    | nil => cases isDenied
    | cons next rest =>
        have goesOn : before.length + 1 < (runFrom serde shell machine call (before.length + 1)
            ((runFrom serde shell machine call 0 [] before).1.messages ++ [message])
            (next :: rest)).2 := by
          rw [runFrom]
          cases runCommand serde shell machine call (before.length + 1) next with
          | allow message => exact start_le_tried _ _
          | deny message => exact Nat.lt_succ_self _
          | warn message => exact start_le_tried _ _
        exact absurd tried (by dsimp only; omega)
  · intro heard before command reaches exits
    have isHeard := heard before command reaches exits
    obtain ⟨⟨after, split⟩, allowed⟩ := reaches
    obtain ⟨output, isOutput, two⟩ := exits
    have denied : ∃ message, runCommand serde shell machine call before.length command =
        .deny message := by
      rw [runCommand_heard isHeard, isOutput]
      simp only [outcomeOf, two]
      exact ⟨_, rfl⟩
    obtain ⟨message, isDenial⟩ := denied
    rw [runs before command after split allowed, runFrom, isDenial]
    exact ⟨rfl, rfl⟩

/-- Runs whose commands have the same outcomes are the same. -/
theorem runFrom_congr {other : Shell} (messages commands : List String)
    (same : ∀ before command after, commands = before ++ command :: after →
      (runFrom serde shell machine call start messages before).1.denied = false →
        runCommand serde shell machine call (start + before.length) command =
          runCommand serde other machine call (start + before.length) command) :
    runFrom serde shell machine call start messages commands =
      runFrom serde other machine call start messages commands := by
  induction commands generalizing start messages with
  | nil => rfl
  | cons command rest ih =>
      have first := same [] command rest rfl rfl
      have later : ∀ messages', (∀ before, (runFrom serde shell machine call start messages
            (command :: before)).1.denied =
              (runFrom serde shell machine call (start + 1) messages' before).1.denied) →
          runFrom serde shell machine call (start + 1) messages' rest =
            runFrom serde other machine call (start + 1) messages' rest := by
        intro messages' goesOn
        refine ih messages' fun before next after split allowed => ?_
        have position : start + (command :: before).length = start + 1 + before.length := by
          rw [List.length_cons]
          omega
        rw [← position]
        exact same (command :: before) next after (by rw [split]; rfl)
          ((goesOn before).trans allowed)
      rw [List.length_nil, Nat.add_zero] at first
      rw [runFrom, runFrom, ← first]
      cases outcome : runCommand serde shell machine call start command with
      | allow message => exact later _ fun before => by rw [runFrom, outcome]
      | deny message => rfl
      | warn message => exact later _ fun before => by rw [runFrom, outcome]

end Hooks

end Openyak.Runtime
