/-
# Theory.Terminated -- texts as lines that newlines end

A newline ends a line, and behind the last newline there is a line only if there is text
(`splitTerminator`).  A text is cut into lines part by part where each part but the last is
ended (`splitTerminator_append`).  So it is where a line keeps its newline
(`splitInclusive_append`).
-/
import Openyak.Theory.Text
import Mathlib.Data.List.Infix

namespace Openyak.Theory.Terminated

open Openyak.Theory.Text

set_option autoImplicit false

/-- The lines of a text behind a part of a line, which is held reversed. -/
def linesFrom (seen : List Char) : List Char → List (List Char)
  | [] => if seen = [] then [] else [seen.reverse]
  | c :: rest => if c = '\n' then seen.reverse :: linesFrom [] rest else linesFrom (c :: seen) rest

/-- `str::split_terminator('\n')`. -/
def splitTerminator (text : List Char) : List (List Char) := linesFrom [] text

/-- Nothing, or a text that a newline ends. -/
def Ended (text : List Char) : Prop := text = [] ∨ ∃ lines, text = lines ++ ['\n']

variable {text line before after : List Char}

@[simp] theorem splitTerminator_nil : splitTerminator [] = [] := rfl

theorem linesFrom_line (seen rest : List Char) (isLine : '\n' ∉ line) :
    linesFrom seen (line ++ '\n' :: rest) = (seen.reverse ++ line) :: linesFrom [] rest := by
  induction line generalizing seen with
  | nil => simp [linesFrom]
  | cons c line ih =>
      obtain ⟨other, isLine⟩ := not_or.1 (List.mem_cons.not.1 isLine)
      rw [List.cons_append, linesFrom, if_neg (Ne.symm other), ih _ isLine]
      simp

theorem linesFrom_last (seen : List Char) (isLine : '\n' ∉ line) :
    linesFrom seen line = if seen.reverse ++ line = [] then [] else [seen.reverse ++ line] := by
  induction line generalizing seen with
  | nil => simp [linesFrom]
  | cons c line ih =>
      obtain ⟨other, isLine⟩ := not_or.1 (List.mem_cons.not.1 isLine)
      rw [linesFrom, if_neg (Ne.symm other), ih _ isLine]
      simp

/-- A line that is ended. -/
theorem splitTerminator_ended (isLine : '\n' ∉ line) (rest : List Char) :
    splitTerminator (line ++ '\n' :: rest) = line :: splitTerminator rest :=
  linesFrom_line [] rest isLine

/-- A line that is not. -/
theorem splitTerminator_last (isLine : '\n' ∉ line) :
    splitTerminator line = if line = [] then [] else [line] := linesFrom_last [] isLine

/-- A text is a line, or a line that is ended and a text. -/
theorem by_terminated {motive : List Char → Prop} (last : ∀ line, '\n' ∉ line → motive line)
    (ended : ∀ line rest, '\n' ∉ line → motive rest → motive (line ++ '\n' :: rest))
    (text : List Char) : motive text := by
  induction hlen : text.length using Nat.strongRecOn generalizing text with
  | ind n ih =>
      by_cases newline : '\n' ∈ text
      · obtain ⟨line, rest, rfl, isLine⟩ := List.eq_append_cons_of_mem newline
        refine ended line rest isLine (ih rest.length ?_ rest rfl)
        rw [List.length_append, List.length_cons] at hlen
        omega
      · exact last text newline

theorem splitTerminator_append (ended : Ended before) (after : List Char) :
    splitTerminator (before ++ after) = splitTerminator before ++ splitTerminator after := by
  induction before using by_terminated with
  | last line isLine =>
      obtain rfl | ⟨lines, rfl⟩ := ended
      · rfl
      · exact absurd (by simp) isLine
  | ended line rest isLine ih =>
      have endedRest : Ended rest := by
        obtain nothing | ⟨lines, same⟩ := ended
        · exact absurd nothing (by simp)
        · obtain rfl | ⟨front, c, rfl⟩ := List.eq_nil_or_concat' rest
          · exact .inl rfl
          · have last := congrArg List.getLast? same
            rw [← List.cons_append, ← List.append_assoc, List.getLast?_concat,
              List.getLast?_concat] at last
            cases last
            exact .inr ⟨front, rfl⟩
      rw [List.append_assoc, List.cons_append, splitTerminator_ended isLine,
        splitTerminator_ended isLine, ih endedRest, List.cons_append]

/-- A newline at the end of a text that is not ended makes no line. -/
theorem splitTerminator_newline (some_ : text ≠ []) (open_ : text.getLast? ≠ some '\n') :
    splitTerminator (text ++ ['\n']) = splitTerminator text := by
  induction text using by_terminated with
  | last line isLine =>
      rw [splitTerminator_ended isLine, splitTerminator_last isLine, if_neg some_]
      rfl
  | ended line rest isLine ih =>
      have someRest : rest ≠ [] := by
        rintro rfl
        exact open_ (by simp)
      have openRest : rest.getLast? ≠ some '\n' := by
        intro closed
        apply open_
        rw [List.getLast?_append, List.getLast?_cons, closed]
        rfl
      rw [List.append_assoc, List.cons_append, splitTerminator_ended isLine,
        splitTerminator_ended isLine, ih someRest openRest]

/-- The lines that are not empty. -/
def solid (lines : List (List Char)) : List (List Char) := lines.filter fun line => line ≠ []

@[simp] theorem solid_append (lines others : List (List Char)) :
    solid (lines ++ others) = solid lines ++ solid others := List.filter_append ..

theorem mem_solid {lines : List (List Char)} : line ∈ solid lines ↔ line ∈ lines ∧ line ≠ [] := by
  simp [solid]

/-- Without a newline at its end a text loses no line but an empty one. -/
theorem solid_newline (text : List Char) :
    solid (splitTerminator (text ++ ['\n'])) = solid (splitTerminator text) := by
  by_cases nothing : text = []
  · rw [nothing]
    rfl
  · by_cases open_ : text.getLast? = some '\n'
    · obtain ⟨lines, rfl⟩ := List.getLast?_eq_some_iff.1 open_
      rw [splitTerminator_append (.inr ⟨lines, rfl⟩), solid_append]
      exact List.append_nil _
    · rw [splitTerminator_newline nothing open_]

/-! ## Lines with their newlines -/

/-- A line with its newline. -/
def IsWhole (line : List Char) : Prop := ∃ text, '\n' ∉ text ∧ line = text ++ ['\n']

theorem splitInclusiveAux_whole (seen rest : List Char) (isLine : '\n' ∉ line) :
    splitInclusiveAux '\n' (line ++ '\n' :: rest) seen =
      (seen.reverse ++ line ++ ['\n']) :: splitInclusiveAux '\n' rest [] := by
  induction line generalizing seen with
  | nil => simp [splitInclusiveAux]
  | cons c line ih =>
      obtain ⟨other, isLine⟩ := not_or.1 (List.mem_cons.not.1 isLine)
      rw [List.cons_append, splitInclusiveAux, if_neg (Ne.symm other), ih _ isLine]
      simp

theorem splitInclusiveAux_last (seen : List Char) (isLine : '\n' ∉ line) :
    splitInclusiveAux '\n' line seen =
      if seen.reverse ++ line = [] then [] else [seen.reverse ++ line] := by
  induction line generalizing seen with
  | nil => cases seen <;> simp [splitInclusiveAux]
  | cons c line ih =>
      obtain ⟨other, isLine⟩ := not_or.1 (List.mem_cons.not.1 isLine)
      rw [splitInclusiveAux, if_neg (Ne.symm other), ih _ isLine]
      simp

theorem splitInclusive_whole (isWhole : IsWhole line) (rest : List Char) :
    splitInclusive '\n' (line ++ rest) = line :: splitInclusive '\n' rest := by
  obtain ⟨text, isLine, rfl⟩ := isWhole
  rw [List.append_assoc]
  exact splitInclusiveAux_whole [] rest isLine

theorem splitInclusive_last (isLine : '\n' ∉ line) :
    splitInclusive '\n' line = if line = [] then [] else [line] := splitInclusiveAux_last [] isLine

@[simp] theorem splitInclusive_nil : splitInclusive '\n' [] = [] := rfl

theorem flatten_splitInclusive (text : List Char) : (splitInclusive '\n' text).flatten = text := by
  induction text using by_terminated with
  | last line isLine =>
      rw [splitInclusive_last isLine]
      split
      · rename_i nothing
        exact nothing.symm
      · exact List.flatten_singleton
  | ended line rest isLine ih =>
      have whole := splitInclusive_whole ⟨line, isLine, rfl⟩ rest
      rw [List.append_assoc, List.singleton_append] at whole
      rw [whole, List.flatten_cons, ih, List.append_assoc, List.singleton_append]

theorem splitInclusive_wholes {lines : List (List Char)} (all : ∀ line ∈ lines, IsWhole line)
    (rest : List Char) :
    splitInclusive '\n' (lines.flatten ++ rest) = lines ++ splitInclusive '\n' rest := by
  induction lines with
  | nil => rfl
  | cons line lines ih =>
      obtain ⟨isWhole, others⟩ := List.forall_mem_cons.1 all
      rw [List.flatten_cons, List.append_assoc, splitInclusive_whole isWhole, ih others,
        List.cons_append]

/-- Every line but the last has its newline. -/
theorem splitInclusive_parts {lines rest : List (List Char)}
    (parts : splitInclusive '\n' text = lines ++ line :: rest) :
    (∀ line ∈ lines, IsWhole line) ∧ (IsWhole line ∨ '\n' ∉ line ∧ rest = []) := by
  induction text using by_terminated generalizing lines with
  | last text isLine =>
      rw [splitInclusive_last isLine] at parts
      split at parts
      · exact absurd parts (by simp)
      · cases lines with
        | nil =>
            obtain ⟨rfl, same⟩ := List.cons.inj parts
            exact ⟨nofun, .inr ⟨isLine, same.symm⟩⟩
        | cons first lines => exact absurd (congrArg List.length parts) (by simp)
  | ended first text isLine ih =>
      have isWhole : IsWhole (first ++ ['\n']) := ⟨first, isLine, rfl⟩
      have whole := splitInclusive_whole isWhole text
      rw [List.append_assoc, List.singleton_append, parts] at whole
      cases lines with
      | nil =>
          obtain ⟨rfl, -⟩ := List.cons.inj whole
          exact ⟨nofun, .inl isWhole⟩
      | cons other lines =>
          obtain ⟨rfl, same⟩ := List.cons.inj whole
          obtain ⟨others, last⟩ := ih same.symm
          exact ⟨List.forall_mem_cons.2 ⟨isWhole, others⟩, last⟩

/-- What is ended is whole lines. -/
theorem Ended.wholes (ended : Ended text) : ∀ line ∈ splitInclusive '\n' text, IsWhole line := by
  intro line member
  obtain ⟨lines, rest, parts⟩ := List.append_of_mem member
  refine (splitInclusive_parts parts).2.resolve_right fun last => ?_
  obtain ⟨isLine, rfl⟩ := last
  have flat := flatten_splitInclusive text
  rw [parts, List.flatten_append, List.flatten_singleton] at flat
  obtain rfl | ⟨front, rfl⟩ := ended
  · cases member
  · obtain rfl | ⟨start, c, rfl⟩ := List.eq_nil_or_concat' line
    · -- No line is empty: its text would be that of the lines before it.
      rw [List.append_nil] at flat
      have again := splitInclusive_wholes (splitInclusive_parts parts).1 []
      rw [List.append_nil, flat, parts, splitInclusive_nil, List.append_nil] at again
      exact absurd (congrArg List.length again) (by simp)
    · have last := congrArg List.getLast? flat
      rw [← List.append_assoc, List.getLast?_concat, List.getLast?_concat] at last
      cases last
      exact isLine (by simp)

theorem splitInclusive_append (ended : Ended before) (after : List Char) :
    splitInclusive '\n' (before ++ after) =
      splitInclusive '\n' before ++ splitInclusive '\n' after := by
  have split := splitInclusive_wholes ended.wholes after
  rwa [flatten_splitInclusive] at split

/-- The rest of the line a text starts in. -/
def restOfLine (text : List Char) : List Char := (splitInclusive '\n' text).headD []

/-- A part of a line goes on with the rest of it. -/
theorem splitInclusive_part (isLine : '\n' ∉ line) (some_ : line ++ after ≠ []) :
    splitInclusive '\n' (line ++ after) =
      (line ++ restOfLine after) :: (splitInclusive '\n' after).tail := by
  unfold restOfLine
  induction after using by_terminated with
  | last rest isRest =>
      have both : '\n' ∉ line ++ rest := by simp [isLine, isRest]
      rw [splitInclusive_last both, if_neg some_, splitInclusive_last isRest]
      split
      · rename_i nothing
        rw [nothing]
        rfl
      · rfl
  | ended rest more isRest =>
      have both : IsWhole (line ++ rest ++ ['\n']) := ⟨line ++ rest, by simp [isLine, isRest], rfl⟩
      have whole : IsWhole (rest ++ ['\n']) := ⟨rest, isRest, rfl⟩
      have split := splitInclusive_whole both more
      have split' := splitInclusive_whole whole more
      simp only [List.append_assoc, List.singleton_append] at split split' ⊢
      rw [split, split']
      rfl

theorem IsWhole.ended (isWhole : IsWhole line) (before : List Char) : Ended (before ++ line) := by
  obtain ⟨text, -, rfl⟩ := isWhole
  exact .inr ⟨before ++ text, (List.append_assoc ..).symm⟩

theorem restOfLine_whole (isWhole : IsWhole line) (after : List Char) :
    restOfLine (line ++ after) = line := by
  rw [restOfLine, splitInclusive_whole isWhole]
  rfl

theorem restOfLine_part (isLine : '\n' ∉ line) (after : List Char) :
    restOfLine (line ++ after) = line ++ restOfLine after := by
  by_cases nothing : line ++ after = []
  · obtain ⟨rfl, rfl⟩ := List.append_eq_nil_iff.1 nothing
    rfl
  · rw [restOfLine, splitInclusive_part isLine nothing]
    rfl

end Openyak.Theory.Terminated
