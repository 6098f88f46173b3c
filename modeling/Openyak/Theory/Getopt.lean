/-
# Theory.Getopt -- which options a program finds among its arguments

The options may stand anywhere before `--`.  Short ones are bundled behind one dash until one
takes the rest of its token; a long one may be cut short as long as no other begins alike, and
takes a value behind `=`.  A required value that its token does not hold is the next argument,
whatever that looks like.
-/
import Mathlib.Data.List.Basic

namespace Openyak.Theory.Getopt

set_option autoImplicit false

/-- Whether an option has a value. -/
inductive Takes where
  | nothing
  | required
  | optional
  deriving DecidableEq, Repr

structure Table (Name : Type) where
  short : Char → Option (Name × Takes)
  long : List (String × Name × Takes)

variable {Name : Type} [DecidableEq Name]

namespace Table

/-- The options of a bundle, `none` for a letter that is none, and whether the last one takes the
next argument. -/
def bundle (table : Table Name) : List Char → List (Option Name) × Bool
  | [] => ([], false)
  | c :: rest =>
      match table.short c with
      | none => (none :: (table.bundle rest).1, (table.bundle rest).2)
      | some (name, .nothing) => (some name :: (table.bundle rest).1, (table.bundle rest).2)
      | some (name, .required) => ([some name], rest.isEmpty)
      | some (name, .optional) => ([some name], false)

/-- The option of a name or of the beginning of one. -/
def longNamed (table : Table Name) (text : List Char) : Option (Name × Takes) :=
  match table.long.find? fun option => option.1.toList = text with
  | some option => some option.2
  | none =>
      match table.long.filter fun option => text.isPrefixOf option.1.toList with
      | [] => none
      | first :: others => if others.all fun option => option.2 = first.2 then some first.2 else none

/-- What stands behind two dashes. -/
def longOption (table : Table Name) (text : List Char) : Option Name × Bool :=
  let name := text.takeWhile fun c => c ≠ '='
  match table.longNamed name with
  | none => (none, false)
  | some (option, takes) =>
      if '=' ∈ text then (if takes = .nothing then none else some option, false)
      else (some option, takes = .required)

/-- The options of a token, if it is read as one: neither an operand nor `--`. -/
def token (table : Table Name) : List Char → Option (List (Option Name) × Bool)
  | '-' :: '-' :: text => some ([(table.longOption text).1], (table.longOption text).2)
  | '-' :: c :: rest => some (table.bundle (c :: rest))
  | _ => none

/-- The option tokens with what they hold; `taken` when the next argument is a value. -/
def options (table : Table Name) : (taken : Bool) → List (List Char) → List (List Char × List (Option Name))
  | _, [] => []
  | true, _ :: rest => table.options false rest
  | false, argument :: rest =>
      if argument = "--".toList then []
      else
        match table.token argument with
        | none => table.options false rest
        | some (found, takes) => (argument, found) :: table.options takes rest

/-- The option is found among the arguments. -/
def Finds (table : Table Name) (name : Name) (arguments : List (List Char)) : Prop :=
  ∃ option ∈ table.options false arguments, some name ∈ option.2

end Table

end Openyak.Theory.Getopt
