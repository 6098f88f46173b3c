/-
# Cli.Drafts -- what the model drafts for a commit and a pull request

The model is asked for a text with headings: `COMMIT: ..`, `TITLE: ..`, and a body behind a
line `BODY:`.  A draft is trimmed before it is read, of white space and of the backticks a
fence leaves, and a draft with a commit message is trimmed twice.

A draft is headings, the mark of the body, and the rest (`sheet`).  Trimming keeps the
headings (`sanitize_sheet`, `sanitize_fenced`), and which body is read depends on two things
alone: on whether the mark is in a heading, and on what trimming leaves of the rest
(`bodyOf_iff`).  A body that ends in a backtick loses it where nothing is behind it, and two
carriage returns before a newline are read twice (`parse_drafts`).
-/
import Openyak.Theory.ByteText
import Openyak.Theory.LineEnds

namespace Openyak.Cli

open Openyak.Theory
open Openyak.Theory.ByteText
open Openyak.Theory.Text

set_option autoImplicit false

/-! ## The parsers -/

def sanitizeGeneratedMessage (value : List Char) : List Char :=
  crlf (trim (trimMatches ['`'] (trim value)))

/-- `str::find` with a text. -/
def findText (needle : String) (text : List Char) : Option Nat :=
  (splitOnce needle text).map fun parts => byteLen parts.1

/-- The first line that starts with a heading, behind it. -/
def findHeading (heading : String) (text : List Char) : Option (List Char) :=
  (lines text).findSome? fun line => (stripPrefix heading line).map trim

/-- Nothing where a slice would panic, and nothing inside where no draft is found. -/
def parseTitledBody (value : List Char) : Option (Option (List Char × List Char)) :=
  let normalized := sanitizeGeneratedMessage value
  match findHeading "TITLE:" normalized with
  | none => some none
  | some title =>
      match findText "BODY:" normalized with
      | none => some none
      | some bodyStart => do
          let body ← startingAt normalized (bodyStart + byteLen "BODY:".toList)
          return some (title, trim body)

def parseCommitPushPrDraft (value : List Char) :
    Option (Option (Option (List Char) × List Char × List Char)) :=
  let normalized := sanitizeGeneratedMessage value
  match findHeading "COMMIT:" normalized with
  | none => some none
  | some commit => do
      let commit := if commit = [] ∨ commit = "NONE".toList then none else some commit
      let titled ← parseTitledBody normalized
      return titled.map fun (title, body) => (commit, title, body)

/-! ## The formats asked for -/

def titledDraft (title body : List Char) : List Char :=
  "TITLE: ".toList ++ title ++ "\nBODY:\n".toList ++ body

def commitDraft (commit title body : List Char) : List Char :=
  "COMMIT: ".toList ++ commit ++ '\n' :: titledDraft title body

/-- A reply inside a fence, with the language it is tagged with. -/
def fenced (ticks : Nat) (language text : List Char) : List Char :=
  List.replicate ticks '`' ++ language ++ '\n' :: text ++ '\n' :: List.replicate ticks '`'

/-- One line, trimmed, with something in it. -/
structure IsLine (line : List Char) : Prop where
  single : '\n' ∉ line
  trimmed : trim line = line
  some_ : line ≠ []

/-- A tag of a fence, which may be missing. -/
def IsTag (language : List Char) : Prop := ∀ c ∈ language, Firm ['`', ':'] c

/-! ## Trimmed texts -/

variable {text line rest body language commit title : List Char} {c : Char}
  {headings : List (List Char)}

theorem trimmed_ends (trimmed : trim text = text) (some_ : text ≠ []) :
    (∃ first, text.head? = some first ∧ ¬isWhitespace first) ∧
      ∃ last, text.getLast? = some last ∧ ¬isWhitespace last := by
  have startsLe : (trimStart text).length ≤ text.length :=
    (List.dropWhile_sublist (p := isWhitespace) (l := text)).length_le
  have endsLe := (trimEnd_isPrefix (trimStart text)).length_le
  have whole : (trimEnd (trimStart text)).length = text.length := congrArg List.length trimmed
  have start : trimStart text = text :=
    (List.dropWhile_suffix isWhitespace).eq_of_length (by show (trimStart text).length = _; omega)
  have stop : trimEnd text = text := by
    rw [trim, start] at trimmed
    exact trimmed
  constructor
  · obtain ⟨first, more, rfl⟩ := List.exists_cons_of_ne_nil some_
    refine ⟨first, rfl, fun white => ?_⟩
    have dropped := congrArg List.length start
    have le := (List.dropWhile_sublist (p := isWhitespace) (l := more)).length_le
    rw [trimStart, List.dropWhile_cons_of_pos white, List.length_cons] at dropped
    omega
  · obtain rfl | ⟨front, last, rfl⟩ := List.eq_nil_or_concat' text
    · exact absurd rfl some_
    · refine ⟨last, List.getLast?_concat .., fun white => ?_⟩
      have dropped := congrArg List.length stop
      have le := (trimEnd_isPrefix front).length_le
      rw [trimEnd_append_white white, List.length_append, List.length_singleton] at dropped
      omega

theorem crlf_concat (other : c ≠ '\n') (text : List Char) : crlf (text ++ [c]) = crlf text ++ [c] := by
  induction text using by_crlf with
  | nothing => exact crlf_cons fun pair => absurd pair.length_le (by simp)
  | pair rest ih =>
      rw [List.cons_append, List.cons_append, crlf_pair, crlf_pair, ih, List.cons_append]
  | single d rest single ih =>
      have alone : ¬['\r', '\n'] <+: d :: (rest ++ [c]) := by
        intro pair
        obtain ⟨rfl, next⟩ := List.cons_prefix_cons.1 pair
        cases rest with
        | nil => exact other (List.cons_prefix_cons.1 next).1.symm
        | cons e rest =>
            obtain ⟨rfl, -⟩ := List.cons_prefix_cons.1 next
            exact single ⟨rest, rfl⟩
      rw [List.cons_append, crlf_cons alone, ih, crlf_cons single, List.cons_append]

/-- Reading newlines keeps both ends of a trimmed text. -/
theorem crlf_ends (trimmed : trim text = text) (some_ : text ≠ []) :
    ∃ first last, (crlf text).head? = some first ∧ ¬isWhitespace first ∧
      (crlf text).getLast? = some last ∧ ¬isWhitespace last ∧ text.getLast? = some last := by
  obtain ⟨⟨first, starts, solid⟩, last, ends, firm⟩ := trimmed_ends trimmed some_
  obtain ⟨more, rfl⟩ := List.head?_eq_some_iff.1 starts
  obtain ⟨front, parts⟩ := List.getLast?_eq_some_iff.1 ends
  refine ⟨first, last, ?_, solid, ?_, firm, ends⟩
  · rw [crlf_cons]
    · rfl
    · intro pair
      obtain ⟨rfl, -⟩ := List.cons_prefix_cons.1 pair
      exact solid (by decide)
  · have other : last ≠ '\n' := by
      rintro rfl
      exact firm (by decide)
    rw [parts, crlf_concat other, List.getLast?_concat]

theorem trim_crlf (trimmed : trim text = text) (before : List Char)
    (white : ∀ c ∈ before, isWhitespace c) : trim (before ++ crlf text) = crlf text := by
  by_cases some_ : text = []
  · rw [some_, crlf_nil, List.append_nil]
    exact trim_white white
  · obtain ⟨first, last, starts, solid, ends, firm, -⟩ := crlf_ends trimmed some_
    have all : ∀ c ∈ before ++ [], isWhitespace c := by simpa using white
    have padded := trim_padded all starts ends ⟨solid, firm⟩
    rwa [List.append_nil] at padded

/-- A newline in front of a body stays only if the body is there. -/
theorem trimEnd_newline (trimmed : trim body = body) :
    trimEnd ('\n' :: body) = if body = [] then [] else '\n' :: body := by
  split
  · rename_i nothing
    rw [nothing]
    rfl
  · rename_i some_
    obtain ⟨-, last, ends, solid⟩ := trimmed_ends trimmed some_
    obtain ⟨front, rfl⟩ := List.getLast?_eq_some_iff.1 ends
    exact trimEnd_append_solid solid ('\n' :: front)

theorem crlf_trimEnd_newline (trimmed : trim body = body) :
    crlf (trimEnd ('\n' :: body)) = trimEnd ('\n' :: crlf body) := by
  have again : trim (crlf body) = crlf body := trim_crlf trimmed [] (by simp)
  rw [trimEnd_newline trimmed, trimEnd_newline again]
  by_cases some_ : body = []
  · rw [some_]
    rfl
  · obtain ⟨first, -, starts, -⟩ := crlf_ends trimmed some_
    have some' : crlf body ≠ [] := by
      intro nothing
      rw [nothing] at starts
      cases starts
    rw [if_neg some_, if_neg some']
    have nothing : '\n' ∉ ([] : List Char) := List.not_mem_nil
    exact crlf_line nothing (by simp) body

/-! ## What is left of a body -/

/-- What the first trimming of a draft leaves behind its mark. -/
def tail (rest : List Char) : List Char := crlf (trimTail ['`'] rest)

theorem count_tail (firm : Firm ['`', '\r'] c) (rest : List Char) :
    (tail rest).count c = rest.count c := by
  have ⟨solid, other⟩ := firm
  simp only [List.mem_cons, List.not_mem_nil, or_false, not_or] at other
  rw [tail, count_crlf other.2, count_trimTail ⟨solid, by simpa using other.1⟩]

theorem tick_firm : Firm [] '`' := by decide

theorem count_tail_le (rest : List Char) : (tail rest).count '`' ≤ rest.count '`' := by
  rw [tail, count_crlf (by decide), trimTail, count_trimEnd tick_firm.1]
  exact ((trimEndMatches_sublist _ _).count_le _).trans (count_trimEnd tick_firm.1).le

/-- A backtick at the end is lost. -/
theorem count_tail_lt (ends : body.getLast? = some '`') :
    (tail ('\n' :: body)).count '`' < body.count '`' := by
  obtain ⟨front, rfl⟩ := List.getLast?_eq_some_iff.1 ends
  have kept : trimEnd ('\n' :: (front ++ ['`'])) = '\n' :: front ++ ['`'] :=
    trimEnd_append_solid tick_firm.1 ('\n' :: front)
  have tick : '`' ∈ ['`'] := List.mem_singleton_self _
  have taken := count_trimEndMatches_lt tick (List.getLast?_concat (a := '`') (l := '\n' :: front))
  rw [tail, count_crlf (by decide), trimTail, count_trimEnd tick_firm.1, kept]
  simpa using taken

theorem trimTail_newline (trimmed : trim body = body) (ends : body.getLast? ≠ some '`') :
    trimTail ['`'] ('\n' :: body) = trimEnd ('\n' :: body) := by
  rw [trimTail, trimEndMatches_of_last, trimEnd_trimEnd]
  intro last found
  rw [trimEnd_newline trimmed] at found
  split at found
  · cases found
  · rename_i some_
    rw [List.getLast?_cons, Option.some_inj] at found
    obtain ⟨front, final, rfl⟩ := (List.eq_nil_or_concat' body).resolve_left some_
    rw [List.getLast?_concat] at ends found
    rintro member
    rw [List.mem_singleton] at member
    exact ends (congrArg some (found.trans member))

theorem trim_tail (trimmed : trim body = body) (ends : body.getLast? ≠ some '`') :
    trim (tail ('\n' :: body)) = crlf body := by
  have again : trim (crlf body) = crlf body := trim_crlf trimmed [] (by simp)
  rw [tail, trimTail_newline trimmed ends, crlf_trimEnd_newline trimmed, trimEnd_newline again]
  split
  · rename_i nothing
    rw [nothing]
    rfl
  · exact trim_crlf trimmed ['\n'] (by simp; decide)

/-- **A body is read whole unless it ends in a backtick.** -/
theorem trim_tail_iff (trimmed : trim body = body) :
    trim (tail ('\n' :: body)) = crlf body ↔ body.getLast? ≠ some '`' := by
  refine ⟨fun same ends => ?_, trim_tail trimmed⟩
  have lost := count_tail_lt ends
  have counted := congrArg (List.count '`') same
  rw [count_trim tick_firm.1, count_crlf (by decide)] at counted
  omega

/-- A body whose newlines were read, trimmed a second time. -/
theorem trim_again_iff (trimmed : trim body = body) :
    trim (tail (crlf (trimEnd ('\n' :: body)))) = crlf body ↔
      body.getLast? ≠ some '`' ∧ ¬['\r', '\r', '\n'] <:+: body := by
  have again : trim (crlf body) = crlf body := trim_crlf trimmed [] (by simp)
  have ends : (crlf body).getLast? = some '`' ↔ body.getLast? = some '`' := by
    by_cases some_ : body = []
    · rw [some_]
      rfl
    · obtain ⟨-, last, -, -, here, -, there⟩ := crlf_ends trimmed some_
      rw [here, there]
  have once : tail (crlf (trimEnd ('\n' :: body))) = tail ('\n' :: crlf body) := by
    rw [crlf_trimEnd_newline trimmed, tail, trimTail, trimEnd_trimEnd]
    rfl
  rw [once, ← crlf_fixed_iff]
  constructor
  · intro same
    have whole : (crlf body).getLast? ≠ some '`' := by
      intro tick
      have lost := count_tail_lt tick
      have counted := congrArg (List.count '`') same
      rw [count_trim tick_firm.1] at counted
      omega
    rw [trim_tail again whole] at same
    exact ⟨mt ends.2 whole, same⟩
  · rintro ⟨whole, fixed⟩
    rw [trim_tail again (mt ends.1 whole), fixed]

/-- A body that is trimmed twice at its end. -/
theorem trim_twice_iff (trimmed : trim body = body) :
    trim (tail (tail ('\n' :: body))) = crlf body ↔
      body.getLast? ≠ some '`' ∧ ¬['\r', '\r', '\n'] <:+: body := by
  by_cases ends : body.getLast? = some '`'
  · refine ⟨fun same => ?_, fun whole => absurd ends whole.1⟩
    have lost := count_tail_lt ends
    have le := count_tail_le (tail ('\n' :: body))
    have counted := congrArg (List.count '`') same
    rw [count_trim tick_firm.1, count_crlf (by decide)] at counted
    omega
  · rw [← trim_again_iff trimmed, tail, tail, trimTail_newline trimmed ends, ← tail]

/-! ## Sheets -/

/-- Headings, the mark of the body, and the rest. -/
def sheet (headings : List (List Char)) (rest : List Char) : List Char :=
  headings.flatMap (· ++ ['\n']) ++ ("BODY:".toList ++ rest)

/-- A line that trimming a text keeps. -/
structure IsHeading (line : List Char) : Prop where
  single : '\n' ∉ line
  ends : line.getLast? ≠ some '\r'
  starts : ∃ c more, line = c :: more ∧ Firm ['`'] c

@[simp] theorem sheet_nil (rest : List Char) : sheet [] rest = "BODY:".toList ++ rest := rfl

@[simp] theorem sheet_cons (line : List Char) (headings : List (List Char)) (rest : List Char) :
    sheet (line :: headings) rest = line ++ '\n' :: sheet headings rest := by
  simp [sheet]

theorem trimTail_sheet (headings : List (List Char)) (rest : List Char) :
    trimTail ['`'] (sheet headings rest) = sheet headings (trimTail ['`'] rest) := by
  have colon : Firm ['`'] ':' := by decide
  have kept := trimTail_append_cons colon (headings.flatMap (· ++ ['\n']) ++ "BODY".toList) rest
  rw [List.append_assoc, List.append_assoc] at kept
  exact kept

theorem trimEnd_sheet (headings : List (List Char)) (rest : List Char) :
    trimEnd (sheet headings rest) = sheet headings (trimEnd rest) := by
  have colon : ¬isWhitespace ':' := by decide
  have kept := trimEnd_append_cons colon (headings.flatMap (· ++ ['\n']) ++ "BODY".toList) rest
  rw [List.append_assoc, List.append_assoc] at kept
  exact kept

theorem crlf_sheet (all : ∀ line ∈ headings, IsHeading line) (rest : List Char) :
    crlf (sheet headings rest) = sheet headings (crlf rest) := by
  induction headings with
  | nil =>
      have plain : '\n' ∉ "BODY".toList := by decide
      have colon : ':' ≠ '\n' := by decide
      have kept := crlf_word plain colon rest
      rw [crlf_cons fun pair => absurd (List.cons_prefix_cons.1 pair).1 (by decide)] at kept
      exact kept
  | cons line headings ih =>
      obtain ⟨heading, others⟩ := List.forall_mem_cons.1 all
      rw [sheet_cons, crlf_line heading.single heading.ends, ih others, sheet_cons]

theorem sheet_starts (all : ∀ line ∈ headings, IsHeading line) (rest : List Char) :
    ∃ c more, sheet headings rest = c :: more ∧ Firm ['`'] c := by
  cases headings with
  | nil => exact ⟨'B', _, rfl, by decide⟩
  | cons line headings =>
      obtain ⟨c, more, rfl, firm⟩ := (all line List.mem_cons_self).starts
      exact ⟨c, more ++ '\n' :: sheet headings rest, sheet_cons .., firm⟩

/-- A text that starts with a firm character is trimmed at its end. -/
theorem sanitize_of_firm (firm : Firm ['`'] c) (rest : List Char) :
    sanitizeGeneratedMessage (c :: rest) = crlf (trimTail ['`'] (c :: rest)) := by
  have first : trimEnd (c :: rest) = c :: trimEnd rest := trimEnd_append_cons firm.1 [] rest
  have matched : trimEndMatches ['`'] (c :: trimEnd rest) =
      c :: trimEndMatches ['`'] (trimEnd rest) := trimEndMatches_append_cons firm.2 [] _
  rw [sanitizeGeneratedMessage, trim_of_solid firm.1, first, trimMatches_of_firm firm.2, matched,
    trim_of_solid firm.1, trimTail, first, matched]

theorem sanitize_sheet (all : ∀ line ∈ headings, IsHeading line) (rest : List Char) :
    sanitizeGeneratedMessage (sheet headings rest) = sheet headings (tail rest) := by
  obtain ⟨c, more, parts, firm⟩ := sheet_starts all rest
  have trimmed := sanitize_of_firm firm more
  rw [← parts, trimTail_sheet, crlf_sheet all] at trimmed
  exact trimmed

/-- The headings of a draft that is tagged with a language. -/
def tagged (language : List Char) (headings : List (List Char)) : List (List Char) :=
  if language = [] then headings else language :: headings

theorem IsTag.not_mem (isTag : IsTag language) (not : ¬Firm ['`', ':'] c) : c ∉ language :=
  fun member => not (isTag c member)

theorem IsTag.isHeading (isTag : IsTag language) (some_ : language ≠ []) : IsHeading language := by
  refine ⟨isTag.not_mem (by decide), fun ends => ?_, ?_⟩
  · exact isTag.not_mem (by decide) (List.mem_of_getLast? ends)
  · obtain ⟨c, more, rfl⟩ := List.exists_cons_of_ne_nil some_
    obtain ⟨solid, other⟩ := isTag c List.mem_cons_self
    exact ⟨c, more, rfl, solid, fun tick => other (List.mem_cons.2 (.inl (List.mem_singleton.1 tick)))⟩

theorem tagged_headings (isTag : IsTag language) (all : ∀ line ∈ headings, IsHeading line) :
    ∀ line ∈ tagged language headings, IsHeading line := by
  unfold tagged
  split
  · exact all
  · rename_i some_
    exact List.forall_mem_cons.2 ⟨isTag.isHeading some_, all⟩

/-- A fence is ticks around lines. -/
theorem trimMatches_fenced (ticks : Nat) (isTag : IsTag language) (text : List Char) :
    trimMatches ['`'] (fenced ticks language text) = language ++ '\n' :: text ++ ['\n'] := by
  have tick : ∀ c ∈ List.replicate ticks '`', ['`'].contains c = true := by
    intro c member
    rw [(List.mem_replicate.1 member).2]
    rfl
  have front : (fenced ticks language text).dropWhile ['`'].contains =
      language ++ '\n' :: text ++ '\n' :: List.replicate ticks '`' := by
    unfold fenced
    rw [List.append_assoc, List.append_assoc, List.dropWhile_append_of_pos tick,
      ← List.append_assoc]
    cases language with
    | nil => exact List.dropWhile_cons_of_neg (by decide)
    | cons c language =>
        refine List.dropWhile_cons_of_neg fun isTick => ?_
        have same : c = '`' := by simpa using isTick
        exact isTag.not_mem (by rw [same]; decide) List.mem_cons_self
  have back : trimEndMatches ['`'] (List.replicate ticks '`') = [] := by
    rw [trimEndMatches, List.reverse_replicate, List.reverse_eq_nil_iff, List.dropWhile_eq_nil_iff]
    exact tick
  have newline : '\n' ∉ ['`'] := by decide
  show trimEndMatches ['`'] ((fenced ticks language text).dropWhile ['`'].contains) = _
  rw [front, trimEndMatches_append_cons newline, back]

theorem trim_fenced {ticks : Nat} (some_ : 0 < ticks) (language text : List Char) :
    trim (fenced ticks language text) = fenced ticks language text := by
  obtain ⟨more, rfl⟩ : ∃ more, ticks = more + 1 := ⟨ticks - 1, by omega⟩
  have nothing : ∀ c ∈ ([] : List Char) ++ [], isWhitespace c := by simp
  have tick : ¬isWhitespace '`' := by decide
  have last : (fenced (more + 1) language text).getLast? = some '`' := by
    unfold fenced
    rw [List.getLast?_append, List.replicate_succ', ← List.cons_append, List.getLast?_concat]
    rfl
  have first : (fenced (more + 1) language text).head? = some '`' := rfl
  have padded := trim_padded nothing first last ⟨tick, tick⟩
  rwa [List.append_nil, List.nil_append] at padded

/-- Inside a fence a draft is trimmed of white space alone. -/
theorem sanitize_fenced {ticks : Nat} (some_ : 0 < ticks) (isTag : IsTag language)
    (all : ∀ line ∈ headings, IsHeading line) (rest : List Char) :
    sanitizeGeneratedMessage (fenced ticks language (sheet headings rest)) =
      sheet (tagged language headings) (crlf (trimEnd rest)) := by
  have newline : isWhitespace '\n' := by decide
  have within : trim (language ++ '\n' :: sheet headings rest ++ ['\n']) =
      sheet (tagged language headings) (trimEnd rest) := by
    unfold tagged
    split
    · rename_i nothing
      obtain ⟨c, more, parts, firm⟩ := sheet_starts all rest
      rw [nothing, List.nil_append, trim, trimStart, List.cons_append,
        List.dropWhile_cons_of_pos newline, parts, List.cons_append,
        List.dropWhile_cons_of_neg firm.1, ← List.cons_append, ← parts,
        trimEnd_append_white newline, trimEnd_sheet]
    · rename_i some_
      have all' := List.forall_mem_cons.2 ⟨isTag.isHeading some_, all⟩
      obtain ⟨c, more, parts, firm⟩ := sheet_starts all' rest
      rw [← sheet_cons, parts, List.cons_append, trim_of_solid firm.1, ← List.cons_append, ← parts,
        trimEnd_append_white newline, trimEnd_sheet]
  rw [sanitizeGeneratedMessage, trim_fenced some_, trimMatches_fenced ticks isTag, within,
    crlf_sheet (tagged_headings isTag all)]

/-! ## Headings -/

/-- The value behind a heading. -/
def heading (name : String) (value : List Char) : List Char := name.toList ++ ' ' :: value

theorem IsLine.isHeading (isLine : IsLine line) {name : String} (plain : '\n' ∉ name.toList)
    (starts : ∃ c more, name.toList = c :: more ∧ Firm ['`'] c) : IsHeading (heading name line) := by
  refine ⟨?_, ?_, ?_⟩
  · simp [heading, plain, isLine.single]
  · obtain ⟨-, last, ends, solid⟩ := trimmed_ends isLine.trimmed isLine.some_
    obtain ⟨front, rfl⟩ := List.getLast?_eq_some_iff.1 ends
    unfold heading
    rw [← List.cons_append, ← List.append_assoc, List.getLast?_concat]
    intro return_
    cases return_
    exact solid (by decide)
  · obtain ⟨c, more, parts, firm⟩ := starts
    exact ⟨c, more ++ ' ' :: line, by rw [heading, parts]; rfl, firm⟩

theorem lines_sheet (isHeading : IsHeading line) (headings : List (List Char)) (rest : List Char) :
    lines (sheet (line :: headings) rest) = line :: lines (sheet headings rest) := by
  rw [sheet_cons, lines_more isHeading.single]
  congr 1
  unfold endLine
  split
  · rename_i seen reversed
    have last : line.getLast? = some '\r' := by
      rw [← List.head?_reverse, reversed]
      rfl
    exact absurd last isHeading.ends
  · exact List.reverse_reverse line

theorem findHeading_first {name : String} (isLine : IsLine line)
    (isHeading : IsHeading (heading name line)) (headings : List (List Char)) (rest : List Char) :
    findHeading name (sheet (heading name line :: headings) rest) = some line := by
  have found : stripPrefix name (heading name line) = some (' ' :: line) := stripPrefix_append ..
  have space : isWhitespace ' ' := by decide
  have value : trim (' ' :: line) = line := by
    rw [trim, trimStart, List.dropWhile_cons_of_pos space]
    exact isLine.trimmed
  rw [findHeading, lines_sheet isHeading, List.findSome?_cons, found, Option.map_some, value]

theorem findHeading_skip {name : String} (isHeading : IsHeading line)
    (other : stripPrefix name line = none) (headings : List (List Char)) (rest : List Char) :
    findHeading name (sheet (line :: headings) rest) = findHeading name (sheet headings rest) := by
  rw [findHeading, lines_sheet isHeading, List.findSome?_cons, other]
  rfl

/-- A tag of a fence is no heading. -/
theorem findHeading_tagged {name : String} (colon : ':' ∈ name.toList) (isTag : IsTag language)
    (headings : List (List Char)) (rest : List Char) :
    findHeading name (sheet (tagged language headings) rest) =
      findHeading name (sheet headings rest) := by
  unfold tagged
  split
  · rfl
  · rename_i some_
    refine findHeading_skip (isTag.isHeading some_) ?_ headings rest
    rw [stripPrefix, if_neg]
    intro first
    exact isTag.not_mem (by decide) ((List.isPrefixOf_iff_prefix.1 first).subset colon)

/-! ## The body -/

/-- The text behind the first mark of a body. -/
def bodyOf (text : List Char) : Option (List Char) :=
  (splitOnce "BODY:" text).map fun parts => trim parts.2

/-- **The parsers never slice at no boundary.** -/
theorem parseTitledBody_eq (value : List Char) : parseTitledBody value =
    some ((findHeading "TITLE:" (sanitizeGeneratedMessage value)).bind fun title =>
      (bodyOf (sanitizeGeneratedMessage value)).map fun body => (title, body)) := by
  unfold parseTitledBody findText bodyOf
  dsimp only
  cases findHeading "TITLE:" (sanitizeGeneratedMessage value) with
  | none => rfl
  | some title =>
      cases found : splitOnce "BODY:" (sanitizeGeneratedMessage value) with
      | none => rfl
      | some parts =>
          obtain ⟨before, after⟩ := parts
          have cut := startingAt_append (before ++ "BODY:".toList) after
          rw [byteLen_append, ← splitOnce_some found] at cut
          simp only [Option.map_some, cut, Option.bind_eq_bind, Option.bind_some]
          rfl

theorem parseCommitPushPrDraft_eq (value : List Char) : parseCommitPushPrDraft value =
    some ((findHeading "COMMIT:" (sanitizeGeneratedMessage value)).bind fun commit =>
      (findHeading "TITLE:" (sanitizeGeneratedMessage (sanitizeGeneratedMessage value))).bind
        fun title => (bodyOf (sanitizeGeneratedMessage (sanitizeGeneratedMessage value))).map
          fun body => (if commit = [] ∨ commit = "NONE".toList then none else some commit,
            title, body)) := by
  unfold parseCommitPushPrDraft
  dsimp only
  cases findHeading "COMMIT:" (sanitizeGeneratedMessage value) with
  | none => rfl
  | some commit =>
      simp only [parseTitledBody_eq, Option.bind_eq_bind, Option.bind_some, Option.map_bind,
        Option.map_map, Function.comp_def]
      rfl

theorem sheet_quiet (absent : ∀ line ∈ headings, ¬"BODY:".toList <:+: line) (rest : List Char) :
    NoStart "BODY:".toList (headings.flatMap (· ++ ['\n'])) rest := by
  induction headings with
  | nil => exact fun start some_ held => absurd (List.suffix_nil.1 held) some_
  | cons line headings ih =>
      obtain ⟨here, later⟩ := List.forall_mem_cons.1 absent
      exact (noStart_newline (by decide) here _).append (ih later)

/-- **Whether the right body is found depends on the headings and on the rest.** -/
theorem bodyOf_iff (counted : (text.count 'B') = rest.count 'B') :
    bodyOf (sheet headings rest) = some text ↔
      (∀ line ∈ headings, ¬"BODY:".toList <:+: line) ∧ trim rest = text := by
  have mark : "BODY:".toList ≠ [] := by decide
  by_cases absent : ∀ line ∈ headings, ¬"BODY:".toList <:+: line
  · rw [bodyOf, sheet, splitOnce_skip (sheet_quiet absent _), splitOnce_at mark,
      Option.map_some, Option.map_some, Option.some_inj]
    exact ⟨fun same => ⟨absent, same⟩, fun both => both.2⟩
  · refine iff_of_false (fun found => ?_) fun both => absent both.1
    obtain ⟨line, member, before, after, rfl⟩ : ∃ line ∈ headings, "BODY:".toList <:+: line := by
      simpa using absent
    obtain ⟨above, below, rfl⟩ := List.append_of_mem member
    -- What is behind the first mark has the other one, too.
    obtain ⟨first, behind, earlier, -⟩ := splitOnce_before mark
      (above.flatMap (· ++ ['\n']) ++ before) (after ++ '\n' :: below.flatMap (· ++ ['\n']))
    have early := splitOnce_extend mark earlier ("BODY:".toList ++ rest)
    have whole : sheet (above ++ (before ++ "BODY:".toList ++ after) :: below) rest =
        above.flatMap (· ++ ['\n']) ++ before ++ ("BODY:".toList ++
          (after ++ '\n' :: below.flatMap (· ++ ['\n']))) ++ ("BODY:".toList ++ rest) := by
      simp only [sheet, List.flatMap_append, List.flatMap_cons, List.append_assoc,
        List.nil_append, List.cons_append]
    rw [bodyOf, whole, early, Option.map_some, Option.some_inj] at found
    have more := congrArg (List.count 'B') found
    have one : ("BODY:".toList).count 'B' = 1 := by decide
    rw [count_trim (by decide), List.count_append, List.count_append, one] at more
    omega

/-! ## Drafts -/

theorem titledDraft_sheet (title body : List Char) :
    titledDraft title body = sheet [heading "TITLE:" title] ('\n' :: body) := by
  have named : "TITLE: ".toList = "TITLE:".toList ++ [' '] := rfl
  have marked : "\nBODY:\n".toList = '\n' :: "BODY:".toList ++ ['\n'] := rfl
  have parts : titledDraft title body =
      "TITLE:".toList ++ ' ' :: title ++ '\n' :: ("BODY:".toList ++ '\n' :: body) := by
    unfold titledDraft
    rw [named, marked]
    generalize "TITLE:".toList = name
    generalize "BODY:".toList = mark
    simp only [List.append_assoc, List.cons_append, List.nil_append]
  rw [sheet_cons, sheet_nil]
  exact parts

theorem commitDraft_sheet (commit title body : List Char) : commitDraft commit title body =
    sheet [heading "COMMIT:" commit, heading "TITLE:" title] ('\n' :: body) := by
  have named : "COMMIT: ".toList = "COMMIT:".toList ++ [' '] := rfl
  have parts : commitDraft commit title body =
      "COMMIT:".toList ++ ' ' :: commit ++ '\n' :: titledDraft title body := by
    unfold commitDraft
    rw [named]
    generalize "COMMIT:".toList = name
    simp only [List.append_assoc, List.cons_append, List.nil_append]
  rw [sheet_cons, ← titledDraft_sheet]
  exact parts

/-- No mark of a body starts in the name of a heading. -/
theorem mark_heading_iff (name : String) (other : 'B' ∉ name.toList) (value : List Char) :
    "BODY:".toList <:+: heading name value ↔ "BODY:".toList <:+: value := by
  have quiet : ∀ {front : List Char}, 'B' ∉ front →
      ("BODY:".toList <:+: front ++ value ↔ "BODY:".toList <:+: value) := by
    intro front other
    induction front with
    | nil => rfl
    | cons c front ih =>
        obtain ⟨here, later⟩ := not_or.1 (List.mem_cons.not.1 other)
        have noStart : ¬"BODY:".toList <+: c :: (front ++ value) :=
          fun first => here (List.cons_prefix_cons.1 first).1
        rw [List.cons_append, List.infix_cons_iff, ih later]
        exact or_iff_right noStart
  have apart : 'B' ∉ name.toList ++ [' '] := by simpa using other
  have same := quiet apart
  rwa [List.append_assoc] at same

theorem mark_tagged_iff (isTag : IsTag language) :
    (∀ line ∈ tagged language headings, ¬"BODY:".toList <:+: line) ↔
      ∀ line ∈ headings, ¬"BODY:".toList <:+: line := by
  unfold tagged
  split
  · rfl
  · have none_ : ¬"BODY:".toList <:+: language :=
      fun found => isTag.not_mem (by decide) (found.subset (by decide : ':' ∈ "BODY:".toList))
    rw [List.forall_mem_cons]
    exact and_iff_right none_

theorem titled_headings (isTitle : IsLine title) :
    ∀ line ∈ [heading "TITLE:" title], IsHeading line := by
  rw [List.forall_mem_singleton]
  exact isTitle.isHeading (by decide) ⟨'T', _, rfl, by decide⟩

theorem commit_headings (isCommit : IsLine commit) (isTitle : IsLine title) :
    ∀ line ∈ [heading "COMMIT:" commit, heading "TITLE:" title], IsHeading line :=
  List.forall_mem_cons.2
    ⟨isCommit.isHeading (by decide) ⟨'C', _, rfl, by decide⟩, titled_headings isTitle⟩

/-- A titled draft behind a tag, whatever trimming left of its body. -/
theorem parse_titled_iff (isTitle : IsLine title) (isTag : IsTag language)
    (sanitized : sanitizeGeneratedMessage text =
      sheet (tagged language [heading "TITLE:" title]) rest)
    (counted : (crlf body).count 'B' = rest.count 'B') :
    parseTitledBody text = some (some (title, crlf body)) ↔
      ¬"BODY:".toList <:+: title ∧ trim rest = crlf body := by
  have headings := titled_headings isTitle
  have found : findHeading "TITLE:" (sheet (tagged language [heading "TITLE:" title]) rest) =
      some title := by
    rw [findHeading_tagged (by decide) isTag,
      findHeading_first isTitle (headings _ List.mem_cons_self)]
  have absent := (mark_heading_iff "TITLE:" (by decide) title).not
  rw [parseTitledBody_eq, sanitized, found, Option.bind_some, Option.some_inj,
    Option.map_eq_some_iff]
  simp only [Prod.mk.injEq, true_and, exists_eq_right]
  rw [bodyOf_iff counted, mark_tagged_iff isTag, List.forall_mem_singleton, absent]

/-- A draft with a commit message, whose second trimming left this of its body. -/
theorem parse_commit_iff {rest' : List Char} (isCommit : IsLine commit) (isTitle : IsLine title)
    (notNone : commit ≠ "NONE".toList) (isTag : IsTag language)
    (sanitized : sanitizeGeneratedMessage text =
      sheet (tagged language [heading "COMMIT:" commit, heading "TITLE:" title]) rest)
    (isRest : tail rest = rest') (counted : (crlf body).count 'B' = rest'.count 'B') :
    parseCommitPushPrDraft text = some (some (some commit, title, crlf body)) ↔
      ¬"BODY:".toList <:+: commit ∧ ¬"BODY:".toList <:+: title ∧ trim rest' = crlf body := by
  have headings := commit_headings isCommit isTitle
  obtain ⟨first, second⟩ := List.forall_mem_cons.1 headings
  have foundCommit : findHeading "COMMIT:" (sheet (tagged language
      [heading "COMMIT:" commit, heading "TITLE:" title]) rest) = some commit := by
    rw [findHeading_tagged (by decide) isTag, findHeading_first isCommit first]
  have skipped : stripPrefix "TITLE:" (heading "COMMIT:" commit) = none := rfl
  have foundTitle : findHeading "TITLE:" (sheet (tagged language
      [heading "COMMIT:" commit, heading "TITLE:" title]) rest') = some title := by
    rw [findHeading_tagged (by decide) isTag, findHeading_skip first skipped,
      findHeading_first isTitle (second _ List.mem_cons_self)]
  have again := sanitize_sheet (tagged_headings isTag headings) rest
  have absentCommit := (mark_heading_iff "COMMIT:" (by decide) commit).not
  have absentTitle := (mark_heading_iff "TITLE:" (by decide) title).not
  have plain : ¬(commit = [] ∨ commit = "NONE".toList) := not_or.2 ⟨isCommit.some_, notNone⟩
  rw [parseCommitPushPrDraft_eq, sanitized, again, isRest, foundCommit, foundTitle,
    Option.bind_some, Option.bind_some, if_neg plain, Option.some_inj, Option.map_eq_some_iff]
  simp only [Prod.mk.injEq, true_and, exists_eq_right]
  rw [bodyOf_iff counted, mark_tagged_iff isTag, List.forall_mem_cons, List.forall_mem_singleton,
    absentCommit, absentTitle, and_assoc]

/-- **When a draft is read as it was written.**  The parsers always return; a titled draft is
read unless its title has the mark of the body in it or its body ends in a backtick, which a
fence protects; a draft with a commit message is trimmed again, inside the fence. -/
theorem parse_drafts {ticks : Nat} (isCommit : IsLine commit) (notNone : commit ≠ "NONE".toList)
    (isTitle : IsLine title) (isBody : trim body = body) (isTag : IsTag language)
    (some_ : 0 < ticks) :
    (∀ text, (parseTitledBody text).isSome = true ∧ (parseCommitPushPrDraft text).isSome = true) ∧
    (parseTitledBody (titledDraft title body) = some (some (title, crlf body)) ↔
      ¬"BODY:".toList <:+: title ∧ body.getLast? ≠ some '`') ∧
    (parseTitledBody (fenced ticks language (titledDraft title body)) =
        some (some (title, crlf body)) ↔
      ¬"BODY:".toList <:+: title) ∧
    (parseCommitPushPrDraft (commitDraft commit title body) =
        some (some (some commit, title, crlf body)) ↔
      ¬"BODY:".toList <:+: commit ∧ ¬"BODY:".toList <:+: title ∧ body.getLast? ≠ some '`' ∧
        ¬['\r', '\r', '\n'] <:+: body) ∧
    (parseCommitPushPrDraft (fenced ticks language (commitDraft commit title body)) =
        some (some (some commit, title, crlf body)) ↔
      ¬"BODY:".toList <:+: commit ∧ ¬"BODY:".toList <:+: title ∧ body.getLast? ≠ some '`' ∧
        ¬['\r', '\r', '\n'] <:+: body) := by
  have titled := titled_headings isTitle
  have both := commit_headings isCommit isTitle
  have noTag : IsTag [] := by
    intro c member
    cases member
  have firm : Firm ['`', '\r'] 'B' := by decide
  have solid : ¬isWhitespace 'B' := by decide
  have counted : (crlf body).count 'B' = ('\n' :: body).count 'B' := by
    rw [count_crlf (by decide), List.count_cons_of_ne (by decide)]
  have fencedCount : (crlf (trimEnd ('\n' :: body))).count 'B' = (crlf body).count 'B' := by
    rw [counted, count_crlf (by decide), count_trimEnd solid]
  have kept : trim (crlf (trimEnd ('\n' :: body))) = crlf body := by
    have again : trim (crlf body) = crlf body := trim_crlf isBody [] (by simp)
    rw [crlf_trimEnd_newline isBody, trimEnd_newline again]
    split
    · rename_i nothing
      rw [nothing]
      rfl
    · exact trim_crlf isBody ['\n'] (by simp; decide)
  refine ⟨fun text => ⟨?_, ?_⟩, ?_, ?_, ?_, ?_⟩
  · rw [parseTitledBody_eq]
    rfl
  · rw [parseCommitPushPrDraft_eq]
    rfl
  · have sanitized := sanitize_sheet titled ('\n' :: body)
    have count := (count_tail firm ('\n' :: body)).trans counted.symm
    rw [titledDraft_sheet, parse_titled_iff isTitle noTag sanitized count.symm, trim_tail_iff isBody]
  · rw [titledDraft_sheet, parse_titled_iff isTitle isTag (sanitize_fenced some_ isTag titled _)
      fencedCount.symm]
    exact and_iff_left kept
  · have sanitized := sanitize_sheet both ('\n' :: body)
    have count : (tail (tail ('\n' :: body))).count 'B' = (crlf body).count 'B' := by
      rw [count_tail firm, count_tail firm, counted]
    rw [commitDraft_sheet, parse_commit_iff isCommit isTitle notNone noTag sanitized rfl count.symm,
      trim_twice_iff isBody]
  · rw [commitDraft_sheet, parse_commit_iff isCommit isTitle notNone isTag
      (sanitize_fenced some_ isTag both _) rfl, trim_again_iff isBody]
    rw [count_tail firm, fencedCount]

/-- A fenced draft of which every part is read. -/
theorem parse_drafts_fenced :
    parseCommitPushPrDraft (fenced 3 ['m', 'd'] (commitDraft ['c'] ['t'] ['b'])) =
      some (some (some ['c'], ['t'], ['b'])) :=
  have isCommit : IsLine ['c'] := ⟨by decide, by decide, by decide⟩
  have isTitle : IsLine ['t'] := ⟨by decide, by decide, by decide⟩
  have isTag : IsTag ['m', 'd'] := by
    intro c member
    obtain rfl | member := List.mem_cons.1 member
    · decide
    · obtain rfl := List.mem_singleton.1 member
      decide
  have drafts := parse_drafts isCommit (by decide) isTitle (by decide : trim ['b'] = ['b']) isTag
    (by decide : 0 < 3)
  drafts.2.2.2.2.2 ⟨by decide, by decide, by decide, by decide⟩

/-- A body that ends in code loses its last backtick. -/
theorem drafts_lose_code :
    parseTitledBody (titledDraft ['t'] ['`', 'x', '`']) = some (some (['t'], ['`', 'x'])) ∧
      ['`', 'x'] ≠ crlf ['`', 'x', '`'] := by
  decide

end Openyak.Cli
