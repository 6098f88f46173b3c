/-
# Theory.ShellQuotes -- which characters of a command the shell takes as quoted

Single quotes quote all that is between them, double quotes too, and a backslash the next
character.  Within single quotes a backslash is none; within double quotes it matters before
a quote and before another backslash only, so there too it is taken with the next character.
A reader that knows quotes and no backslash (`hasBare`) goes wrong at the first backslash that
hides a quote, or the character that is sought; `hasBare_eq_iff` is exact about it.
-/
import Mathlib.Data.List.Basic

namespace Openyak.Theory.Shell

set_option autoImplicit false

/-- Where the shell is in a command. -/
inductive QuoteState where
  | plain
  | escaped
  | single
  | double
  | doubleEscaped
  deriving DecidableEq, Repr

def QuoteState.next : QuoteState → Char → QuoteState
  | .plain, c =>
      if c = '\\' then .escaped else if c = '\'' then .single else if c = '"' then .double else .plain
  | .escaped, _ => .plain
  | .single, c => if c = '\'' then .plain else .single
  | .double, c => if c = '\\' then .doubleEscaped else if c = '"' then .plain else .double
  | .doubleEscaped, _ => .double

def quoteState (state : QuoteState) (text : List Char) : QuoteState := text.foldl QuoteState.next state

/-- Some place of the text has the character, and it is not quoted there. -/
def Unquoted (c : Char) (text : List Char) : Prop :=
  ∃ before after, text = before ++ c :: after ∧ quoteState .plain before = .plain

/-- The same, found by reading on from a state. -/
def hasUnquoted (c : Char) : QuoteState → List Char → Bool
  | _, [] => false
  | state, d :: rest => (state = .plain ∧ d = c) || hasUnquoted c (state.next d) rest

theorem hasUnquoted_iff {c : Char} {state : QuoteState} {text : List Char} :
    hasUnquoted c state text = true ↔
      ∃ before after, text = before ++ c :: after ∧ quoteState state before = .plain := by
  induction text generalizing state with
  | nil => simp [hasUnquoted]
  | cons d rest ih =>
      rw [hasUnquoted, Bool.or_eq_true, ih, decide_eq_true_eq]
      constructor
      · rintro (⟨rfl, rfl⟩ | ⟨before, after, rfl, plain⟩)
        · exact ⟨[], rest, rfl, rfl⟩
        · exact ⟨d :: before, after, rfl, plain⟩
      · rintro ⟨before, after, parts, plain⟩
        cases before with
        | nil =>
            obtain ⟨rfl, rfl⟩ := List.cons.inj parts
            exact .inl ⟨plain, rfl⟩
        | cons first before =>
            obtain ⟨rfl, others⟩ := List.cons.inj parts
            exact .inr ⟨before, after, others, plain⟩

theorem unquoted_iff {c : Char} {text : List Char} :
    Unquoted c text ↔ hasUnquoted c .plain text = true := hasUnquoted_iff.symm

/-! ## A reader that knows no backslash -/

/-- The search of a reader that goes by quotes only; `quote` is the open one. -/
def hasBare (c : Char) : (quote : Option Char) → List Char → Bool
  | _, [] => false
  | none, d :: rest => d = c || hasBare c (if d = '\'' ∨ d = '"' then some d else none) rest
  | some quote, d :: rest => hasBare c (if d = quote then none else some quote) rest

/-- The quote that is open in a state. -/
def QuoteState.openQuote : QuoteState → Option Char
  | .plain | .escaped => none
  | .single => some '\''
  | .double | .doubleEscaped => some '"'

/-- No backslash misleads the reader before the character is found: each one hides neither a
quote nor the character, or what follows the first that does has the character unquoted just
when the reader, by then in the wrong state, finds one. -/
def EscapesHarmless (c : Char) : QuoteState → List Char → Prop
  | _, [] => True
  | .escaped, d :: rest =>
      if d = '\'' ∨ d = '"' then hasBare c (some d) rest = hasUnquoted c .plain rest
      else if d = c then hasUnquoted c .plain rest = true
      else EscapesHarmless c .plain rest
  | .doubleEscaped, d :: rest =>
      if d = '"' then hasBare c none rest = hasUnquoted c .double rest
      else EscapesHarmless c .double rest
  | .plain, d :: rest => d = c ∨ EscapesHarmless c (QuoteState.plain.next d) rest
  | .single, d :: rest => EscapesHarmless c (QuoteState.single.next d) rest
  | .double, d :: rest => EscapesHarmless c (QuoteState.double.next d) rest

variable {c : Char}

theorem openQuote_plain_next {d : Char} :
    (QuoteState.plain.next d).openQuote = if d = '\'' ∨ d = '"' then some d else none := by
  simp only [QuoteState.next]
  split <;> rename_i slash
  · simp [slash, QuoteState.openQuote]
  split <;> rename_i single
  · simp [single, QuoteState.openQuote]
  split <;> rename_i double
  · simp [double, QuoteState.openQuote]
  · simp [single, double, QuoteState.openQuote]

theorem openQuote_single_next {d : Char} :
    (QuoteState.single.next d).openQuote = if d = '\'' then none else some '\'' := by
  simp only [QuoteState.next]
  split <;> rfl

theorem openQuote_double_next {d : Char} :
    (QuoteState.double.next d).openQuote = if d = '"' then none else some '"' := by
  simp only [QuoteState.next]
  split <;> rename_i slash
  · simp [slash, QuoteState.openQuote]
  · split <;> rfl

/-- **The two readings find the same just when the escapes are harmless**. -/
theorem hasBare_eq_iff (single : c ≠ '\'') (double : c ≠ '"') {state : QuoteState}
    {text : List Char} :
    hasBare c state.openQuote text = hasUnquoted c state text ↔ EscapesHarmless c state text := by
  induction text generalizing state with
  | nil => simp [hasBare, hasUnquoted, EscapesHarmless]
  | cons d rest ih =>
      cases state with
      | plain =>
          by_cases found : d = c
          · simp [QuoteState.openQuote, hasBare, hasUnquoted, EscapesHarmless, found]
          · have step := @ih (QuoteState.plain.next d)
            rw [openQuote_plain_next] at step
            simpa [QuoteState.openQuote, hasBare, hasUnquoted, EscapesHarmless, found] using step
      | escaped =>
          by_cases quote : d = '\'' ∨ d = '"'
          · have other : d ≠ c := by
              rintro rfl
              exact quote.elim single double
            simp [QuoteState.openQuote, hasBare, hasUnquoted, EscapesHarmless, QuoteState.next, quote,
              other]
          by_cases found : d = c
          · subst found
            rw [EscapesHarmless, if_neg quote, if_pos rfl]
            simp [QuoteState.openQuote, hasBare, hasUnquoted, QuoteState.next]
          · have step := @ih .plain
            simpa [QuoteState.openQuote, hasBare, hasUnquoted, EscapesHarmless, QuoteState.next, quote,
              found] using step
      | single =>
          have step := @ih (QuoteState.single.next d)
          rw [openQuote_single_next] at step
          simpa [QuoteState.openQuote, hasBare, hasUnquoted, EscapesHarmless] using step
      | double =>
          have step := @ih (QuoteState.double.next d)
          rw [openQuote_double_next] at step
          simpa [QuoteState.openQuote, hasBare, hasUnquoted, EscapesHarmless] using step
      | doubleEscaped =>
          by_cases quote : d = '"'
          · simp [QuoteState.openQuote, hasBare, hasUnquoted, EscapesHarmless, QuoteState.next, quote]
          · have step := @ih .double
            simpa [QuoteState.openQuote, hasBare, hasUnquoted, EscapesHarmless, QuoteState.next, quote]
              using step

/-- Without a backslash the readings agree. -/
theorem escapesHarmless_of_unescaped {state : QuoteState} {text : List Char}
    (plain : state ≠ .escaped) (inDouble : state ≠ .doubleEscaped) (unescaped : '\\' ∉ text) :
    EscapesHarmless c state text := by
  induction text generalizing state with
  | nil => simp [EscapesHarmless]
  | cons d rest ih =>
      rw [List.mem_cons, not_or] at unescaped
      have slash : d ≠ '\\' := fun same => unescaped.1 same.symm
      have others {next : QuoteState} (entered : state.next d = next)
          (plain' : next ≠ .escaped) (inDouble' : next ≠ .doubleEscaped) :
          EscapesHarmless c (state.next d) rest := by
        rw [entered]
        exact ih plain' inDouble' unescaped.2
      cases state with
      | escaped => exact absurd rfl plain
      | doubleEscaped => exact absurd rfl inDouble
      | plain =>
          apply Or.inr
          by_cases single : d = '\''
          · exact @others .single (by simp [QuoteState.next, single]) nofun nofun
          by_cases double : d = '"'
          · exact @others .double (by simp [QuoteState.next, double]) nofun nofun
          · exact @others .plain (by simp [QuoteState.next, slash, single, double]) nofun nofun
      | single =>
          by_cases closed : d = '\''
          · exact @others .plain (by simp [QuoteState.next, closed]) nofun nofun
          · exact @others .single (by simp [QuoteState.next, closed]) nofun nofun
      | double =>
          by_cases closed : d = '"'
          · exact @others .plain (by simp [QuoteState.next, closed]) nofun nofun
          · exact @others .double (by simp [QuoteState.next, slash, closed]) nofun nofun

end Openyak.Theory.Shell
