/-
# Theory.Shell -- simple commands: their text, and what a shell runs

A command line is a list of simple commands joined by separators, a simple command
a list of words, a word a list of pieces: characters that stand for themselves,
escaped characters, and quoted text.  Each has its `text`, and a word its `value`,
which is what quote removal leaves.

A line holds what its parts need to be read back as they are: a character that the
shell would split, expand or take for a quote is not literal, a quoted text does not
hold its own quote, and a command does not begin with a reserved word.
-/

namespace Openyak.Theory.Shell

set_option autoImplicit false

/-! ## Words -/

def isBlank (c : Char) : Bool := c = ' ' || c = '\t'

/-- Stands for itself unquoted.  A pattern character is taken for itself, which is what
a pattern without a match leaves. -/
def isLiteral (c : Char) : Bool :=
  c ∉ [' ', '\t', '\n', '|', '&', ';', '(', ')', '<', '>', '\'', '"', '\\', '$', '\x60', '#',
    '~', '[', ']', '\x7b', '\x7d', '\x00']

/-- A backslash between double quotes is one before these. -/
def escapesInDouble (c : Char) : Bool := c ∈ ['"', '\\', '$', '\x60']

inductive DoublePiece where
  | char (c : Char) (literal : c ∉ ['"', '\\', '$', '\x60', '\x00'])
  | escaped (c : Char) (kept : c ∉ ['\n', '\x00'])

inductive Piece where
  | literal (c : Char) (literal : isLiteral c)
  | escaped (c : Char) (kept : c ∉ ['\n', '\x00'])
  | single (chars : List Char) (closed : '\'' ∉ chars ∧ '\x00' ∉ chars)
  | double (pieces : List DoublePiece)

def DoublePiece.text : DoublePiece → List Char
  | .char c _ => [c]
  | .escaped c _ => ['\\', c]

def DoublePiece.value : DoublePiece → List Char
  | .char c _ => [c]
  | .escaped c _ => if escapesInDouble c then [c] else ['\\', c]

def Piece.text : Piece → List Char
  | .literal c _ => [c]
  | .escaped c _ => ['\\', c]
  | .single chars _ => '\'' :: chars ++ ['\'']
  | .double pieces => '"' :: pieces.flatMap DoublePiece.text ++ ['"']

def Piece.value : Piece → List Char
  | .literal c _ => [c]
  | .escaped c _ => [c]
  | .single chars _ => chars
  | .double pieces => pieces.flatMap DoublePiece.value

/-- The character of a literal piece. -/
def Piece.literal? : Piece → Option Char
  | .literal c _ => some c
  | .escaped .. | .single .. | .double _ => none

structure Word where
  pieces : List Piece
  nonempty : pieces ≠ []

namespace Word

def text (word : Word) : List Char := word.pieces.flatMap Piece.text

/-- The word after quote removal. -/
def value (word : Word) : List Char := word.pieces.flatMap Piece.value

/-- `name=` or `name+=`, unquoted, after the first character of a name. -/
def assigns : List Piece → Bool
  | [] => false
  | piece :: rest =>
      match piece.literal? with
      | none => false
      | some c =>
          if c = '=' then true
          else if c = '+' then (rest.head?.bind Piece.literal?) = some '='
          else (c.isAlphanum || c = '_') && assigns rest

/-- An assignment before a command, such as `LANG=C`. -/
def isAssignment (word : Word) : Bool :=
  match word.pieces.head?.bind Piece.literal? with
  | some c => (c.isAlpha || c = '_') && assigns word.pieces
  | none => false

end Word

/-! ## Commands and lines -/

def reservedWords : List String :=
  ["!", "case", "coproc", "do", "done", "elif", "else", "esac", "fi", "for", "function", "if",
    "in", "select", "then", "time", "until", "while"]

/-- Spaces and tabs. -/
structure Blanks where
  chars : List Char
  blank : chars.all isBlank

/-- What may follow a separator: newlines too. -/
structure Gap where
  chars : List Char
  blank : chars.all fun c => isBlank c || c = '\n'

structure SimpleCommand where
  first : Word
  rest : List (Blanks × Word)
  apart : ∀ next ∈ rest, next.1.chars ≠ []
  unreserved : String.ofList first.text ∉ reservedWords

namespace SimpleCommand

def text (command : SimpleCommand) : List Char :=
  command.first.text ++ command.rest.flatMap fun next => next.1.chars ++ next.2.text

def words (command : SimpleCommand) : List Word := command.first :: command.rest.map Prod.snd

/-- The values of the words that are run: assignments come before the command. -/
def runs (command : SimpleCommand) : List (List Char) :=
  (command.words.dropWhile Word.isAssignment).map Word.value

end SimpleCommand

inductive Separator where
  | semicolon
  | background
  | andThen
  | orElse
  | pipe
  | newline
  deriving DecidableEq, Repr

def Separator.text : Separator → List Char
  | .semicolon => [';']
  | .background => ['&']
  | .andThen => ['&', '&']
  | .orElse => ['|', '|']
  | .pipe => ['|']
  | .newline => ['\n']

/-- A separator with the command it comes before. -/
structure Joined where
  before : Blanks
  separator : Separator
  after : Gap
  command : SimpleCommand

/-- The end of a line, with its last `;`, `&` or newline if there is one. -/
structure Ending where
  before : Blanks
  separator : Option Separator
  after : Gap
  ends : separator ≠ some .andThen ∧ separator ≠ some .orElse ∧ separator ≠ some .pipe

structure CommandLine where
  before : Gap
  first : SimpleCommand
  rest : List Joined
  ending : Ending

def Joined.text (joined : Joined) : List Char :=
  joined.before.chars ++ joined.separator.text ++ joined.after.chars ++ joined.command.text

def Ending.text (ending : Ending) : List Char :=
  ending.before.chars ++ (ending.separator.elim [] Separator.text) ++ ending.after.chars

namespace CommandLine

def text (line : CommandLine) : List Char :=
  line.before.chars ++ line.first.text ++ line.rest.flatMap Joined.text ++ line.ending.text

def commands (line : CommandLine) : List SimpleCommand :=
  line.first :: line.rest.map Joined.command

end CommandLine

/-- The last component of a path. -/
def lastComponent (path : List Char) : List Char :=
  (path.reverse.takeWhile fun c => c ≠ '/').reverse

/-! ## Lines of literal words -/

/-- A word of literal characters. -/
def Word.ofLiterals (chars : List Char) (nonempty : chars ≠ []) (literal : chars.all isLiteral) :
    Word where
  pieces := chars.attach.map fun c => .literal c.1 (List.all_eq_true.1 literal c.1 c.2)
  nonempty := by simpa using nonempty

/-- One space. -/
def Blanks.space : Blanks := ⟨[' '], by decide⟩

end Openyak.Theory.Shell
