/-
# Theory.ChildProcess -- a process that is started, written to, and waited for

What a program does with its input is up to the program: it may read all of it, a part, or
none, before it exits.  A write to it fails with a broken pipe if it has exited with bytes
left to write; a pipe holds some bytes that nobody reads.

A process does not start if a string of its environment holds a NUL or is longer than the
system allows, or for any other reason the system has.
-/
import Openyak.Theory.ByteStream

namespace Openyak.Theory.ChildProcess

open Openyak.Theory.ByteStream

set_option autoImplicit false

structure Invocation where
  program : String
  args : List String
  deriving DecidableEq

/-- No status is a process ended by a signal. -/
structure Output where
  status : Option Int
  stdout : List UInt8
  stderr : List UInt8

/-- What a process does once it runs: how many bytes of its input it takes before it exits,
whether it exits before all of them are written where the pipe could hold the rest, and how
the wait for its output ends. -/
structure Process where
  reads : Nat
  exitsFirst : Bool
  output : Except IoError Output

/-- The variables of an environment, with their values. -/
abbrev Variables := List (String × String)

/-- The system, and what the how-manieth process started on it does with its environment and
its input. -/
structure Machine where
  maxString : Nat
  pipeCapacity : Nat
  pathExists : String → Bool
  refusal : Nat → Invocation → Option IoError
  process : Nat → Invocation → Variables → List UInt8 → Process

/-- The bytes of `NAME=value` and the NUL behind it. -/
def stringSize (variable_ : String × String) : Nat :=
  variable_.1.utf8ByteSize + variable_.2.utf8ByteSize + 2

def holdsNul (variable_ : String × String) : Bool := variable_.2.toList.contains (Char.ofNat 0)

namespace Machine

variable (machine : Machine)

/-- `Command::spawn`: why the process does not start. -/
def spawnError (start : Nat) (invocation : Invocation) (environment : Variables) :
    Option IoError :=
  if environment.any holdsNul then some ⟨.other, "nul byte found in provided data"⟩
  else if environment.any fun variable_ => machine.maxString < stringSize variable_ then
    some ⟨.other, "Argument list too long (os error 7)"⟩
  else machine.refusal start invocation

/-- `write_all` to the process's input. -/
def writeError (process : Process) (input : List UInt8) : Option IoError :=
  if input.length ≤ process.reads then none
  else if process.exitsFirst || process.reads + machine.pipeCapacity < input.length then
    some ⟨.brokenPipe, "Broken pipe (os error 32)"⟩
  else none

/-- Start, write, wait.  A write error that `passes` is left alone. -/
def outputWithStdin (passes : IoError → Bool) (start : Nat) (invocation : Invocation)
    (environment : Variables) (input : List UInt8) : Except IoError Output :=
  match machine.spawnError start invocation environment with
  | some error => .error error
  | none =>
      let process := machine.process start invocation environment input
      match machine.writeError process input with
      | some error => if passes error then process.output else .error error
      | none => process.output

variable {machine}

theorem outputWithStdin_refused {passes : IoError → Bool} {start : Nat} {invocation : Invocation}
    {environment : Variables} {input : List UInt8} {error : IoError}
    (refused : machine.spawnError start invocation environment = some error) :
    machine.outputWithStdin passes start invocation environment input = .error error := by
  rw [outputWithStdin, refused]

/-- Once started, a process is waited for if all was written or the error passes. -/
theorem outputWithStdin_started {passes : IoError → Bool} {start : Nat} {invocation : Invocation}
    {environment : Variables} {input : List UInt8}
    (started : machine.spawnError start invocation environment = none) :
    machine.outputWithStdin passes start invocation environment input =
      match machine.writeError (machine.process start invocation environment input) input with
      | some error =>
          if passes error then (machine.process start invocation environment input).output
          else .error error
      | none => (machine.process start invocation environment input).output := by
  rw [outputWithStdin, started]

end Machine

end Openyak.Theory.ChildProcess
