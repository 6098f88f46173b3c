/-
# Runtime.BashRedirection -- which redirections read-only mode sees

The scan for a `>` goes by quotes and knows no backslash (`writeRedirection_eq`), so it sees
the redirections of a command just when the escapes of the command mislead no such reader
(`redirection_checked_iff`).
-/
import Openyak.Theory.ShellQuotes
import Openyak.Runtime.BashModes

namespace Openyak.Runtime

open Openyak.Theory Openyak.Theory.Shell

set_option autoImplicit false

/-- A `>` that the shell does not take as quoted is found and the command denied; where all
are quoted none is found. -/
structure RedirectionChecked (command : List Char) : Prop where
  denied : Unquoted '>' command → hasWriteRedirection command = true ∧
    ∃ denial, validateBashCommand command .readOnly = .deny denial
  passed : ¬Unquoted '>' command → hasWriteRedirection command = false

variable {command : List Char}

theorem writeRedirection_eq {text : List Char} :
    writeRedirection false false text = hasBare '>' none text ∧
    writeRedirection true false text = hasBare '>' (some '\'') text ∧
    writeRedirection false true text = hasBare '>' (some '"') text := by
  induction text with
  | nil => simp [writeRedirection, hasBare]
  | cons d rest ih =>
      obtain ⟨plain, single, double⟩ := ih
      refine ⟨?_, ?_, ?_⟩
      · by_cases isSingle : d = '\''
        · simp [writeRedirection, hasBare, isSingle, single]
        by_cases isDouble : d = '"'
        · simp [writeRedirection, hasBare, isDouble, double]
        by_cases found : d = '>'
        · simp [writeRedirection, hasBare, found]
        · simp [writeRedirection, hasBare, isSingle, isDouble, found, plain]
      · by_cases closed : d = '\''
        · simp [writeRedirection, hasBare, closed, plain]
        · simp [writeRedirection, hasBare, closed, single]
      · by_cases closed : d = '"'
        · simp [writeRedirection, hasBare, closed, plain]
        · simp [writeRedirection, hasBare, closed, double]

/-- The scan is the reading by quotes alone. -/
theorem hasWriteRedirection_eq : hasWriteRedirection command = hasBare '>' none command :=
  writeRedirection_eq.1

/-- A redirection that is seen is denied, in an empty command too. -/
theorem readOnly_of_redirection (found : hasWriteRedirection command = true) :
    ∃ denial, validateBashCommand command .readOnly = .deny denial := by
  have notAllowed : validateBashCommand command .readOnly ≠ .allow := by
    intro allowed
    have none := (readOnly_allow_iff.1 allowed).noRedirection
    rw [found] at none
    cases none
  cases result : validateBashCommand command .readOnly with
  | allow => exact absurd result notAllowed
  | deny denial => exact ⟨denial, rfl⟩

theorem checked_iff_eq :
    RedirectionChecked command ↔ hasWriteRedirection command = hasUnquoted '>' .plain command := by
  constructor
  · intro checked
    cases found : hasUnquoted '>' .plain command with
    | true => exact (checked.denied (unquoted_iff.2 found)).1
    | false =>
        apply checked.passed
        intro unquoted
        rw [unquoted_iff, found] at unquoted
        cases unquoted
  · intro same
    refine ⟨fun unquoted => ?_, fun quoted => ?_⟩
    · have found := same.trans (unquoted_iff.1 unquoted)
      exact ⟨found, readOnly_of_redirection found⟩
    · rw [same, ← Bool.not_eq_true]
      exact fun found => quoted (unquoted_iff.2 found)

theorem checked_iff_harmless : RedirectionChecked command ↔ EscapesHarmless '>' .plain command := by
  rw [checked_iff_eq, hasWriteRedirection_eq]
  exact @hasBare_eq_iff '>' (by decide) (by decide) .plain command

/-- A command without a backslash is read as the shell reads it. -/
theorem redirectionChecked_of_unescaped (unescaped : '\\' ∉ command) : RedirectionChecked command := by
  apply checked_iff_harmless.2
  exact escapesHarmless_of_unescaped nofun nofun unescaped

/-- **Redirections are seen just when the escapes are harmless**. -/
theorem redirection_checked_iff (command : List Char) :
    RedirectionChecked command ↔ EscapesHarmless '>' .plain command := checked_iff_harmless

/-- **An apostrophe hides a redirection**: to the scan the rest is quoted, the shell writes
the file, and read-only mode lets it. -/
theorem redirection_not_checked :
    Unquoted '>' "echo it\\'s > notes.txt".toList ∧
    hasWriteRedirection "echo it\\'s > notes.txt".toList = false ∧
    validateBashCommand "echo it\\'s > notes.txt".toList .readOnly = .allow ∧
    ¬RedirectionChecked "echo it\\'s > notes.txt".toList := by
  have unquoted : Unquoted '>' "echo it\\'s > notes.txt".toList := unquoted_iff.2 (by decide +kernel)
  have unseen : hasWriteRedirection "echo it\\'s > notes.txt".toList = false := by decide +kernel
  refine ⟨unquoted, unseen, by decide +kernel, fun checked => ?_⟩
  have found := (checked.denied unquoted).1
  rw [unseen] at found
  cases found

end Openyak.Runtime
