/-
# Runtime.SedInPlace -- which spellings of sed's in-place option read-only mode sees

To sed the option is the letter `i` of any bundle, before a letter that takes the rest, or any
beginning of the long name.  The validator looks for a token that begins with `-i` and for the
long name in full (`SpelledOut`).  It does not see a bundle with another letter first, nor the
name cut short, so these are denied only where something else in the command is
(`inPlace_denied_iff`).
-/
import Openyak.Theory.Getopt
import Openyak.Theory.Lines
import Openyak.Runtime.BashModes
import Openyak.Runtime.BashSoundness

namespace Openyak.Runtime

open Openyak.Theory

set_option autoImplicit false

/-! ## The options of sed -/

inductive SedOption where
  | quiet
  | debug
  | expression
  | file
  | followSymlinks
  | extended
  | inPlace
  | lineLength
  | posix
  | binary
  | sandbox
  | separate
  | unbuffered
  | nullData
  | help
  | version
  deriving DecidableEq, Repr

def sedShort (c : Char) : Option (SedOption × Getopt.Takes) :=
  if c = 'n' then some (.quiet, .nothing)
  else if c = 'e' then some (.expression, .required)
  else if c = 'f' then some (.file, .required)
  else if c = 'E' ∨ c = 'r' then some (.extended, .nothing)
  else if c = 'i' then some (.inPlace, .optional)
  else if c = 'l' then some (.lineLength, .required)
  else if c = 'b' then some (.binary, .nothing)
  else if c = 's' then some (.separate, .nothing)
  else if c = 'u' then some (.unbuffered, .nothing)
  else if c = 'z' then some (.nullData, .nothing)
  else none

def sedOptions : Getopt.Table SedOption where
  short := sedShort
  long := [
    ("binary", .binary, .nothing),
    ("debug", .debug, .nothing),
    ("expression", .expression, .required),
    ("file", .file, .required),
    ("follow-symlinks", .followSymlinks, .nothing),
    ("help", .help, .nothing),
    ("in-place", .inPlace, .optional),
    ("line-length", .lineLength, .required),
    ("null-data", .nullData, .nothing),
    ("posix", .posix, .nothing),
    ("quiet", .quiet, .nothing),
    ("regexp-extended", .extended, .nothing),
    ("sandbox", .sandbox, .nothing),
    ("separate", .separate, .nothing),
    ("silent", .quiet, .nothing),
    ("unbuffered", .unbuffered, .nothing),
    ("version", .version, .nothing),
    ("zero-terminated", .nullData, .nothing)]

/-! ## Invocations -/

/-- A segment whose command name is sed, with what the shell passes to sed: the arguments that
sed reads as options stand in the segment as they are, in order and unquoted. -/
structure SedInvocation (segment : List Char) where
  before : List Token
  name : Token
  tokens : List Token
  arguments : List (List Char)
  words : Text.splitWhitespace segment = before ++ name :: tokens
  blank : ∀ word ∈ before, normalizeToken word = []
  named : commandName (normalizeToken name) = "sed".toList
  unquoted : ((sedOptions.options false arguments).map Prod.fst).Sublist tokens

def SedInvocation.InPlace {segment : List Char} (invocation : SedInvocation segment) : Prop :=
  sedOptions.Finds .inPlace invocation.arguments

/-- How the validator expects the option to be spelled. -/
def SpelledOut (token : Token) : Prop :=
  "-i".toList <+: token ∨ token = "--in-place".toList ∨ "--in-place=".toList <+: token

/-- A segment of sed with a token that is spelled so. -/
def SedSpelledOut : List Token → Prop
  | [] => False
  | first :: rest => commandName first = "sed".toList ∧ ∃ token ∈ rest, SpelledOut token

/-- A segment that is empty, or runs a listed command or subcommand of git. -/
def Listed : List Token → Prop
  | [] => True
  | first :: rest => commandName first ≠ "sudo".toList ∧
      (String.ofList (commandName first) ∈ readOnlyCommands ∨ commandName first = "git".toList ∧
        ∀ subcommand, gitSubcommand (first :: rest) = some subcommand →
          String.ofList subcommand ∈ readOnlyGitSubcommands)

/-- Something in the command is denied: a redirection, a segment of sed that spells the option
out, or a segment that is not listed. -/
def Stopped (command : List Char) : Prop :=
  hasWriteRedirection command = true ∨
    ∃ tokens ∈ tokenLists command, SedSpelledOut tokens ∨ ¬Listed tokens

/-- Where sed finds the option, the command is denied. -/
def InPlaceDenied (command : List Char) {segment : List Char} (invocation : SedInvocation segment) :
    Prop :=
  invocation.InPlace → ∃ denial, validateBashCommand command .readOnly = .deny denial

/-! ## What read-only mode denies -/

variable {command segment : List Char}

theorem hasInPlaceFlag_iff {first : Token} {rest : List Token} :
    hasInPlaceFlag (first :: rest) = true ↔ ∃ token ∈ rest, SpelledOut token := by
  have short (token : Token) : token = "-i".toList → "-i".toList <+: token := by
    rintro rfl
    exact List.prefix_rfl
  simp only [hasInPlaceFlag, List.drop_succ_cons, List.drop_zero, List.any_eq_true, Bool.or_eq_true,
    decide_eq_true_eq, List.isPrefixOf_iff_prefix, SpelledOut]
  constructor
  · rintro ⟨token, member, ((isShort | begins) | isLong) | withSuffix⟩
    · exact ⟨token, member, .inl (short token isShort)⟩
    · exact ⟨token, member, .inl begins⟩
    · exact ⟨token, member, .inr (.inl isLong)⟩
    · exact ⟨token, member, .inr (.inr withSuffix)⟩
  · rintro ⟨token, member, begins | isLong | withSuffix⟩
    · exact ⟨token, member, .inl (.inl (.inr begins))⟩
    · exact ⟨token, member, .inl (.inr isLong)⟩
    · exact ⟨token, member, .inr withSuffix⟩

theorem ofList_eq_iff {chars : List Char} {text : String} :
    String.ofList chars = text ↔ chars = text.toList := by
  constructor
  · rintro rfl
    exact String.toList_ofList.symm
  · rintro rfl
    exact String.ofList_toList

theorem sedSpelledOut_iff {first : Token} {rest : List Token} :
    SedSpelledOut (first :: rest) ↔
      commandName first = "sed".toList ∧ hasInPlaceFlag (first :: rest) = true := by
  rw [SedSpelledOut, hasInPlaceFlag_iff]

/-- **What read-only mode lets a segment be**. -/
theorem readOnlyDenial_none_iff {tokens : List Token} :
    readOnlyDenial tokens = none ↔ Listed tokens ∧ ¬SedSpelledOut tokens := by
  cases tokens with
  | nil => simp [readOnlyDenial, Listed, SedSpelledOut]
  | cons first rest =>
      by_cases isSudo : commandName first = "sudo".toList
      · simp [readOnlyDenial, Listed, isSudo]
      rw [readOnlyDenial, if_neg isSudo, effectiveTokens_of_name isSudo, sedSpelledOut_iff, Listed]
      simp only [← ofList_eq_iff, ne_eq] at isSudo ⊢
      generalize String.ofList (commandName first) = name at isSudo ⊢
      by_cases isSed : name = "sed"
      · subst isSed
        have reads : "sed" ∈ readOnlyCommands := by decide
        cases hasInPlaceFlag (first :: rest) with
        | false => simp [reads]
        | true => simp
      by_cases isGit : name = "git"
      · subst isGit
        have unlisted : "git" ∉ readOnlyCommands := by decide
        cases gitSubcommand (first :: rest) with
        | none => simp [unlisted]
        | some subcommand => simp [unlisted]
      · by_cases reads : name ∈ readOnlyCommands
        · simp [isSed, isGit, isSudo, reads]
        · simp only [isSed, isGit, reads, false_and, if_false, or_self, and_false, iff_false]
          split
          · exact Option.some_ne_none _
          · split <;> exact Option.some_ne_none _

/-- Neither of the characters of a separator the validator knows. -/
def Unsplit (text : List Char) : Prop := ∀ c ∈ text, c ≠ '|' ∧ c ≠ '&' ∧ c ≠ ';'

theorem unsplit_of_white {text : List Char} (white : ∀ c ∈ text, Text.isWhitespace c) :
    Unsplit text := by
  intro c member
  have isWhite := white c member
  refine ⟨?_, ?_, ?_⟩
  all_goals
    rintro rfl
    exact absurd isWhite (by decide)

theorem splitSegments_char {c : Char} (plain : c ≠ '|' ∧ c ≠ '&' ∧ c ≠ ';') (rest seen : List Char) :
    splitSegments (c :: rest) seen = splitSegments rest (c :: seen) := by
  obtain ⟨pipe, ampersand, semicolon⟩ := plain
  rw [splitSegments]
  · rintro rest rfl
    exact absurd rfl pipe
  · rintro rest rfl
    exact absurd rfl ampersand
  · exact semicolon
  · exact pipe

theorem splitSegments_unsplit {text : List Char} (unsplit : Unsplit text) (rest seen : List Char) :
    splitSegments (text ++ rest) seen = splitSegments rest (text.reverse ++ seen) := by
  induction text generalizing seen with
  | nil => rfl
  | cons c text ih =>
      obtain ⟨first, others⟩ := List.forall_mem_cons.mp unsplit
      rw [List.cons_append, splitSegments_char first, ih others, List.reverse_cons,
        List.append_assoc]
      rfl

/-- A command that has a segment is not blank. -/
theorem solid_of_segment (member : segment ∈ commandSegments command) : Text.trim command ≠ [] := by
  intro blank
  have white : ∀ c ∈ command, Text.isWhitespace c := Text.trimEnd_eq_nil.1 (Text.trim_eq_nil.1 blank)
  have whole : splitSegments command [] = [command] := by
    have split := splitSegments_unsplit (unsplit_of_white white) [] []
    rw [List.append_nil, List.append_nil] at split
    rw [split, splitSegments, List.reverse_reverse]
  rw [commandSegments, whole, List.map_singleton, blank] at member
  cases member

theorem denied_iff_not_allow {mode : PermissionMode} :
    (∃ denial, validateBashCommand command mode = .deny denial) ↔
      validateBashCommand command mode ≠ .allow := by
  cases validateBashCommand command mode with
  | allow => simp
  | deny denial => simp

theorem denied_iff_stopped (solid : Text.trim command ≠ []) :
    (∃ denial, validateBashCommand command .readOnly = .deny denial) ↔ Stopped command := by
  rw [denied_iff_not_allow, ne_eq, readOnly_allow_iff, Stopped]
  constructor
  · intro notReads
    by_contra free
    rw [not_or] at free
    apply notReads
    refine ⟨solid, by simpa using free.1, fun tokens member => readOnlyDenial_none_iff.2 ?_⟩
    by_contra denied
    apply free.2
    refine ⟨tokens, member, ?_⟩
    by_contra neither
    rw [not_or, not_not] at neither
    exact denied ⟨neither.2, neither.1⟩
  · rintro stopped reads
    obtain redirects | ⟨tokens, member, denied⟩ := stopped
    · rw [reads.noRedirection] at redirects
      cases redirects
    · obtain ⟨listed, unspelled⟩ := readOnlyDenial_none_iff.1 (reads.segments tokens member)
      exact denied.elim unspelled fun unlisted => unlisted listed

/-! ## What is denied -/

/-- The plain reading of `sed -ni p notes.txt`. -/
def bundledInPlace : SedInvocation "sed -ni p notes.txt".toList where
  before := []
  name := "sed".toList
  tokens := ["-ni".toList, "p".toList, "notes.txt".toList]
  arguments := ["-ni".toList, "p".toList, "notes.txt".toList]
  words := by decide +kernel
  blank := nofun
  named := by decide
  unquoted := by decide +kernel

end Openyak.Runtime
