/-
# Cli.EditorBoundaries -- where the motions of the line editor lead

A motion that starts at a boundary of the text succeeds and leads to one.  Around the cursor
a text is four parts: what is before the line, the line up to the cursor, the rest of the
line, and what is behind it (`IsCurrentLine`).  Where a line starts and ends, and which
range a deletion of it takes, is read off these.
-/
import Openyak.Cli.LineEditor

namespace Openyak.Cli

open Openyak.Theory
open Openyak.Theory.ByteText

set_option autoImplicit false

variable {text before after front head tail back : List Char} {cursor anchor : Nat} {c : Char}
  {session : EditSession}

/-! ## Characters -/

@[simp] theorem utf8Size_newline : Char.utf8Size '\n' = 1 := by decide

@[simp] theorem utf8Size_colon : Char.utf8Size ':' = 1 := by decide

theorem previousBoundary_zero : previousBoundary text 0 = some 0 := rfl

theorem previousBoundary_append (front : List Char) (c : Char) (after : List Char) :
    previousBoundary (front ++ [c] ++ after) (byteLen (front ++ [c])) = some (byteLen front) := by
  have positive := c.utf8Size_pos
  have nonzero : byteLen (front ++ [c]) ≠ 0 := by
    rw [byteLen_append, byteLen_cons]
    omega
  rw [previousBoundary, if_neg nonzero, upTo_append, Option.bind_eq_bind, Option.bind_some,
    List.dropLast_concat]
  rfl

theorem previousBoundary_ok (boundary : IsBoundary text cursor) :
    ∃ previous, previousBoundary text cursor = some previous ∧ IsBoundary text previous ∧
      previous ≤ cursor := by
  obtain ⟨before, after, rfl, rfl⟩ := boundary
  obtain rfl | ⟨front, c, rfl⟩ := List.eq_nil_or_concat' before
  · exact ⟨0, rfl, .zero _, Nat.le_refl 0⟩
  · refine ⟨byteLen front, previousBoundary_append front c after, ?_, by simp⟩
    rw [List.append_assoc]
    exact .intro front _

theorem nextBoundary_append (before : List Char) (c : Char) (after : List Char) :
    nextBoundary (before ++ c :: after) (byteLen before) =
      some (byteLen before + c.utf8Size) := by
  have positive := c.utf8Size_pos
  have inside : ¬byteLen (before ++ c :: after) ≤ byteLen before := by
    rw [byteLen_append, byteLen_cons]
    omega
  rw [nextBoundary, if_neg inside, startingAt_append]
  rfl

theorem nextBoundary_len (text : List Char) :
    nextBoundary text (byteLen text) = some (byteLen text) := if_pos (Nat.le_refl _)

theorem nextBoundary_ok (boundary : IsBoundary text cursor) :
    ∃ next, nextBoundary text cursor = some next ∧ IsBoundary text next ∧ cursor ≤ next := by
  obtain ⟨before, after, rfl, rfl⟩ := boundary
  cases after with
  | nil =>
      rw [List.append_nil]
      exact ⟨_, nextBoundary_len before, .len before, Nat.le_refl _⟩
  | cons c after =>
      refine ⟨_, nextBoundary_append before c after, ?_, by omega⟩
      have shorter : IsBoundary (c :: after) c.utf8Size := ⟨[c], after, rfl, by simp⟩
      exact shorter.shift

theorem removePreviousChar_append (front : List Char) (c : Char) (after : List Char) :
    removePreviousChar (front ++ [c] ++ after) (byteLen (front ++ [c])) =
      some (front ++ after, byteLen front) := by
  have positive := c.utf8Size_pos
  have nonzero : byteLen (front ++ [c]) ≠ 0 := by
    rw [byteLen_append, byteLen_cons]
    omega
  have drained := drain_append front [c] after
  rw [← byteLen_append] at drained
  rw [removePreviousChar, if_neg nonzero, previousBoundary_append, Option.bind_eq_bind,
    Option.bind_some, drained]
  rfl

theorem removePreviousChar_ok (boundary : IsBoundary text cursor) :
    ∃ text' cursor', removePreviousChar text cursor = some (text', cursor') ∧
      IsBoundary text' cursor' := by
  obtain ⟨before, after, rfl, rfl⟩ := boundary
  obtain rfl | ⟨front, c, rfl⟩ := List.eq_nil_or_concat' before
  · exact ⟨_, _, rfl, .zero _⟩
  · exact ⟨_, _, removePreviousChar_append front c after, .intro front after⟩

/-! ## The current line -/

/-- Before the line, the line up to the cursor, its rest, and what is behind it. -/
structure IsCurrentLine (text : List Char) (cursor : Nat) (front head tail back : List Char) :
    Prop where
  parts : text = front ++ head ++ (tail ++ back)
  cursor : cursor = byteLen (front ++ head)
  headLine : '\n' ∉ head
  tailLine : '\n' ∉ tail
  starts : front = [] ∨ ∃ lines, front = lines ++ ['\n']
  ends : back = [] ∨ ∃ lines, back = '\n' :: lines

/-- The last line of a text. -/
theorem last_line (text : List Char) : ∃ front head, text = front ++ head ∧ '\n' ∉ head ∧
    (front = [] ∨ ∃ lines, front = lines ++ ['\n']) := by
  induction text using List.reverseRecOn with
  | nil => exact ⟨[], [], rfl, nofun, .inl rfl⟩
  | append_singleton text c ih =>
      by_cases newline : c = '\n'
      · subst newline
        exact ⟨text ++ ['\n'], [], (List.append_nil _).symm, nofun, .inr ⟨text, rfl⟩⟩
      · obtain ⟨front, head, rfl, line, starts⟩ := ih
        refine ⟨front, head ++ [c], (List.append_assoc ..), ?_, starts⟩
        simp [line, Ne.symm newline]

/-- The first line of a text. -/
theorem first_line (text : List Char) : ∃ tail back, text = tail ++ back ∧ '\n' ∉ tail ∧
    (back = [] ∨ ∃ lines, back = '\n' :: lines) := by
  induction text with
  | nil => exact ⟨[], [], rfl, nofun, .inl rfl⟩
  | cons c text ih =>
      by_cases newline : c = '\n'
      · subst newline
        exact ⟨[], '\n' :: text, rfl, nofun, .inr ⟨text, rfl⟩⟩
      · obtain ⟨tail, back, rfl, line, ends⟩ := ih
        refine ⟨c :: tail, back, rfl, ?_, ends⟩
        simp [line, Ne.symm newline]

theorem current_line (boundary : IsBoundary text cursor) :
    ∃ front head tail back, IsCurrentLine text cursor front head tail back := by
  obtain ⟨before, after, rfl, rfl⟩ := boundary
  obtain ⟨front, head, rfl, headLine, starts⟩ := last_line before
  obtain ⟨tail, back, rfl, tailLine, ends⟩ := first_line after
  exact ⟨front, head, tail, back, rfl, rfl, headLine, tailLine, starts, ends⟩

namespace IsCurrentLine

theorem boundary (line : IsCurrentLine text cursor front head tail back) :
    IsBoundary text cursor := ⟨_, _, line.parts, line.cursor.symm⟩

theorem lineStart (line : IsCurrentLine text cursor front head tail back) :
    lineStart text cursor = some (byteLen front) := by
  rw [line.parts, line.cursor, Cli.lineStart, upTo_append, Option.bind_eq_bind, Option.bind_some]
  obtain rfl | ⟨lines, rfl⟩ := line.starts
  · rw [List.nil_append, rfind_none.2 line.headLine]
    rfl
  · rw [List.append_assoc, List.singleton_append, rfind_append line.headLine]
    simp

theorem lineEnd (line : IsCurrentLine text cursor front head tail back) :
    lineEnd text cursor = some (byteLen (front ++ head) + byteLen tail) := by
  rw [line.parts, line.cursor, Cli.lineEnd, startingAt_append, Option.bind_eq_bind,
    Option.bind_some]
  obtain rfl | ⟨lines, rfl⟩ := line.ends
  · rw [List.append_nil, find_none.2 line.tailLine, byteLen_append (front ++ head)]
    rfl
  · rw [find_append line.tailLine]
    rfl

theorem start_boundary (line : IsCurrentLine text cursor front head tail back) :
    IsBoundary text (byteLen front) := by
  rw [line.parts, List.append_assoc]
  exact .intro front _

theorem end_boundary (line : IsCurrentLine text cursor front head tail back) :
    IsBoundary text (byteLen (front ++ head) + byteLen tail) := by
  rw [line.parts, ← byteLen_append, ← List.append_assoc]
  exact .intro (front ++ head ++ tail) back

/-- The line with its newline, and what is behind it. -/
theorem whole (line : IsCurrentLine text cursor front head tail back) :
    text = front ++ (head ++ tail ++ back.take 1) ++ back.drop 1 := by
  rw [line.parts]
  simp only [List.append_assoc, List.take_append_drop]

theorem lineEnd_lt (line : IsCurrentLine text cursor front head tail back) :
    byteLen (front ++ head) + byteLen tail < byteLen text ↔ back ≠ [] := by
  rw [line.parts, byteLen_append (front ++ head), byteLen_append tail, ne_eq, ← byteLen_eq_zero]
  omega

theorem lineEnd_newline (line : IsCurrentLine text cursor front head tail back) :
    (if byteLen (front ++ head) + byteLen tail < byteLen text
      then byteLen (front ++ head) + byteLen tail + 1 else byteLen (front ++ head) + byteLen tail) =
    byteLen front + byteLen (head ++ tail ++ back.take 1) := by
  obtain rfl | ⟨lines, rfl⟩ := line.ends
  · rw [if_neg (by rw [line.lineEnd_lt]; simp)]
    simp only [List.take_nil, byteLen_append, byteLen_nil]
    omega
  · rw [if_pos (line.lineEnd_lt.2 nofun)]
    simp only [List.take_succ_cons, List.take_zero, byteLen_append, byteLen_cons, byteLen_nil,
      utf8Size_newline]
    omega

/-- What stays before a line that is deleted: of the last line, its newline does not. -/
def keptBefore (front rest : List Char) : List Char := if rest = [] then front.dropLast else front

theorem keptBefore_prefix (front rest : List Char) : keptBefore front rest <+: front := by
  unfold keptBefore
  split
  · exact List.dropLast_prefix front
  · exact List.prefix_rfl

theorem deleteRange (line : IsCurrentLine text cursor front head tail back) :
    currentLineDeleteRange text cursor = some (byteLen front,
      byteLen front + byteLen (head ++ tail ++ back.take 1),
      byteLen (keptBefore front (back.drop 1))) := by
  have total := congrArg byteLen line.whole
  rw [byteLen_append, byteLen_append front] at total
  have last : byteLen front + byteLen (head ++ tail ++ back.take 1) = byteLen text ↔
      back.drop 1 = [] := by
    rw [← byteLen_eq_zero]
    omega
  rw [currentLineDeleteRange, line.lineStart, line.lineEnd]
  simp only [Option.bind_eq_bind, Option.bind_some, line.lineEnd_newline, last, keptBefore]
  obtain rfl | ⟨lines, rfl⟩ := line.starts
  · simp
  · by_cases rest : back.drop 1 = []
    · rw [if_pos ⟨rest, by simp⟩, if_pos rest]
      simp
    · rw [if_neg fun range => rest range.1, if_neg rest]
      rfl

theorem yanked (line : IsCurrentLine text cursor front head tail back) :
    slice text (byteLen front) (byteLen front + byteLen (head ++ tail ++ back.take 1)) =
      some (head ++ tail ++ back.take 1) := by
  have cut := slice_append front (head ++ tail ++ back.take 1) (back.drop 1)
  rwa [← line.whole] at cut

theorem drained (line : IsCurrentLine text cursor front head tail back) :
    drain text (byteLen (keptBefore front (back.drop 1)))
      (byteLen front + byteLen (head ++ tail ++ back.take 1)) =
        some (keptBefore front (back.drop 1) ++ back.drop 1) := by
  obtain ⟨removed, front_⟩ := keptBefore_prefix front (back.drop 1)
  have cut := drain_append (keptBefore front (back.drop 1)) (removed ++ (head ++ tail ++ back.take 1))
    (back.drop 1)
  rwa [← List.append_assoc (keptBefore front _), front_, ← line.whole, byteLen_append removed,
    ← Nat.add_assoc, ← byteLen_append, front_] at cut

/-- Where a line is pasted: behind this one. -/
theorem insertAt (line : IsCurrentLine text cursor front head tail back) :
    (if byteLen (front ++ head) + byteLen tail < byteLen text
      then byteLen (front ++ head) + byteLen tail + 1 else byteLen text) =
    byteLen (front ++ (head ++ tail ++ back.take 1)) := by
  rw [byteLen_append front (head ++ tail ++ back.take 1), ← line.lineEnd_newline]
  split
  · rfl
  · rename_i last
    have le := line.end_boundary.le
    omega

theorem deleteCurrentLine (line : IsCurrentLine session.text session.cursor front head tail back)
    (editor : LineEditor) : editor.deleteCurrentLine session = some
      ({ editor with yankBuffer := ⟨head ++ tail ++ back.take 1, true⟩ },
        { session with
          text := keptBefore front (back.drop 1) ++ back.drop 1
          cursor := byteLen (keptBefore front (back.drop 1)) }) := by
  simp only [LineEditor.deleteCurrentLine, line.deleteRange, Option.bind_eq_bind, Option.bind_some,
    line.yanked, line.drained]
  rw [Nat.min_eq_left (by rw [byteLen_append]; omega)]
  rfl

theorem yankCurrentLine (line : IsCurrentLine session.text session.cursor front head tail back)
    (editor : LineEditor) : editor.yankCurrentLine session = some
      ({ editor with yankBuffer := ⟨head ++ tail ++ back.take 1, true⟩ }, session) := by
  simp only [LineEditor.yankCurrentLine, line.deleteRange, Option.bind_eq_bind, Option.bind_some,
    line.yanked]
  rfl

/-- What is pasted of a line stands behind this one, and the cursor in it. -/
theorem pasteAfter (line : IsCurrentLine session.text session.cursor front head tail back)
    {editor : LineEditor} (linewise : editor.yankBuffer.linewise = true)
    (filled : editor.yankBuffer.text ≠ []) (isBefore : front ++ (head ++ tail ++ back.take 1) = before) :
    ∃ text cursor, editor.pasteAfter session = some { session with text, cursor } ∧
      text = before ++ LineEditor.linewiseInsertion session.text editor.yankBuffer.text
        (byteLen before) ++ back.drop 1 ∧
      IsBoundary text cursor := by
  have whole := line.whole
  simp only [LineEditor.pasteAfter, if_neg filled, linewise, if_true, line.lineEnd,
    Option.bind_eq_bind, Option.bind_some, line.insertAt]
  rw [isBefore] at whole ⊢
  generalize LineEditor.linewiseInsertion session.text editor.yankBuffer.text _ = insertion
  rw [whole, insertStr_append]
  refine ⟨_, _, rfl, rfl, ?_⟩
  split
  · rename_i newline
    obtain ⟨rest, rfl⟩ := List.head?_eq_some_iff.1 newline
    refine ⟨before ++ ['\n'], rest ++ back.drop 1, by simp, ?_⟩
    rw [byteLen_append, byteLen_cons, byteLen_nil, utf8Size_newline]
  · rw [List.append_assoc]
    exact .intro before _

end IsCurrentLine

/-! ## Other lines -/

theorem newlineEnds_append (offset : Nat) (before after : List Char) :
    newlineEnds offset (before ++ after) =
      newlineEnds offset before ++ newlineEnds (offset + byteLen before) after := by
  induction before generalizing offset with
  | nil => rfl
  | cons c before ih =>
      rw [List.cons_append, newlineEnds, newlineEnds, ih, byteLen_cons, Nat.add_assoc]
      split <;> rfl

theorem length_newlineEnds (offset : Nat) (text : List Char) :
    (newlineEnds offset text).length = text.count '\n' := by
  induction text generalizing offset with
  | nil => rfl
  | cons c text ih =>
      rw [newlineEnds]
      split
      · rename_i newline
        rw [List.length_cons, ih, newline, List.count_cons_self]
      · rename_i other
        rw [ih, List.count_cons_of_ne other]

/-- An end of a newline is behind it. -/
theorem mem_newlineEnds {offset start : Nat} (member : start ∈ newlineEnds offset text) :
    ∃ before after, text = before ++ '\n' :: after ∧ start = offset + byteLen before + 1 := by
  induction text generalizing offset with
  | nil => cases member
  | cons c text ih =>
      rw [newlineEnds] at member
      have later : start ∈ newlineEnds (offset + c.utf8Size) text →
          ∃ before after, c :: text = before ++ '\n' :: after ∧
            start = offset + byteLen before + 1 := by
        intro member
        obtain ⟨before, after, rfl, rfl⟩ := ih member
        exact ⟨c :: before, after, rfl, by rw [byteLen_cons]; omega⟩
      split at member
      · rename_i newline
        obtain rfl | member := List.mem_cons.1 member
        · exact ⟨[], text, by rw [newline]; rfl, rfl⟩
        · exact later member
      · exact later member

theorem newlineEnds_grow (offset : Nat) (text : List Char) :
    (newlineEnds offset text).Pairwise (· < ·) := by
  induction text generalizing offset with
  | nil => exact .nil
  | cons c text ih =>
      rw [newlineEnds]
      split
      · rename_i newline
        refine List.pairwise_cons.2 ⟨fun start member => ?_, ih _⟩
        obtain ⟨before, after, -, rfl⟩ := mem_newlineEnds member
        rw [newline, utf8Size_newline]
        omega
      · exact ih _

theorem lineStarts_grow (text : List Char) : (lineStarts text).Pairwise (· < ·) := by
  refine List.pairwise_cons.2 ⟨fun start member => ?_, newlineEnds_grow 0 text⟩
  obtain ⟨before, after, -, rfl⟩ := mem_newlineEnds member
  omega

theorem lineStarts_boundary {start : Nat} (member : start ∈ lineStarts text) :
    IsBoundary text start := by
  obtain rfl | member := List.mem_cons.1 member
  · exact .zero text
  · obtain ⟨before, after, rfl, rfl⟩ := mem_newlineEnds member
    exact ⟨before ++ ['\n'], after, by simp, by simp⟩

/-- In front of a line that is not the first there is a newline. -/
theorem lineStarts_newline {row start : Nat} (found : (lineStarts text)[row + 1]? = some start) :
    IsBoundary text (start - 1) := by
  have member : start ∈ newlineEnds 0 text := List.mem_of_getElem? found
  obtain ⟨before, after, rfl, rfl⟩ := mem_newlineEnds member
  exact ⟨before, _, rfl, by omega⟩

theorem byteIndexForCharColumn_boundary (text : List Char) (column : Nat) :
    IsBoundary text (byteIndexForCharColumn text column) := by
  induction text generalizing column with
  | nil => exact .zero []
  | cons c text ih =>
      cases column with
      | zero => exact .zero _
      | succ column =>
          obtain ⟨before, after, same, length⟩ := ih column
          exact ⟨c :: before, after, by rw [same]; rfl, by rw [byteLen_cons, length]; rfl⟩

/-- The line of a cursor starts before it. -/
theorem lineStarts_current (before after : List Char) :
    ∃ start, (lineStarts (before ++ after))[before.count '\n']? = some start ∧
      start ≤ byteLen before ∧ IsBoundary before start := by
  have length : (lineStarts before).length = before.count '\n' + 1 := by
    rw [lineStarts, List.length_cons, length_newlineEnds]
  have inside : before.count '\n' < (lineStarts before).length := by omega
  have member := List.getElem_mem inside
  have boundary := lineStarts_boundary member
  refine ⟨_, ?_, boundary.le, boundary⟩
  rw [lineStarts, newlineEnds_append, ← List.cons_append]
  exact List.getElem?_append_left inside ▸ List.getElem?_eq_getElem inside

theorem slice_ok {start stop : Nat} (starts : IsBoundary text start) (stops : IsBoundary text stop)
    (le : start ≤ stop) : ∃ part, slice text start stop = some part ∧
      ∀ offset, IsBoundary part offset → IsBoundary text (offset + start) := by
  obtain ⟨front, part, back, rfl, rfl, rfl⟩ := starts.between stops le
  refine ⟨part, slice_append front part back, fun offset inside => ?_⟩
  rw [List.append_assoc, Nat.add_comm]
  exact (inside.of_first (List.prefix_append part back)).shift

theorem moveVertical_ok (boundary : IsBoundary text cursor) (delta : Int) :
    ∃ moved, moveVertical text cursor delta = some moved ∧ IsBoundary text moved := by
  obtain ⟨before, after, rfl, rfl⟩ := boundary
  have here := IsBoundary.intro before after
  obtain ⟨start, current, le, startBoundary⟩ := lineStarts_current before after
  obtain ⟨line, sliced, -⟩ := slice_ok (startBoundary.of_first (List.prefix_append before after))
    here le
  unfold moveVertical
  simp only [upTo_append, Option.bind_eq_bind, Option.bind_some, current, sliced]
  split
  · exact ⟨_, rfl, here⟩
  · generalize bounded : (max 0 (min ((before.count '\n' : Int) + delta)
      ((lineStarts (before ++ after)).length - 1 : Nat))).toNat = row
    have positive : 0 < (lineStarts (before ++ after)).length := Nat.succ_pos _
    have inside : row < (lineStarts (before ++ after)).length := by omega
    have found : (lineStarts (before ++ after))[row]? = some (lineStarts (before ++ after))[row] :=
      List.getElem?_eq_getElem inside
    have startsAt := lineStarts_boundary (List.getElem_mem inside)
    rw [found, Option.bind_some]
    have moves : ∀ stop, IsBoundary (before ++ after) stop →
        (lineStarts (before ++ after))[row] ≤ stop → ∃ moved,
        (slice (before ++ after) (lineStarts (before ++ after))[row] stop).bind (fun part =>
          some (byteIndexForCharColumn part line.length + (lineStarts (before ++ after))[row])) =
            some moved ∧ IsBoundary (before ++ after) moved := by
      intro stop stops le
      obtain ⟨part, sliced, inside⟩ := slice_ok startsAt stops le
      rw [sliced]
      exact ⟨_, rfl, inside _ (byteIndexForCharColumn_boundary part line.length)⟩
    split
    · rename_i more
      have next : (lineStarts (before ++ after))[row + 1]? =
          some (lineStarts (before ++ after))[row + 1] := List.getElem?_eq_getElem more
      have grows := List.pairwise_iff_getElem.1 (lineStarts_grow (before ++ after)) row (row + 1)
        inside more (Nat.lt_succ_self row)
      rw [next]
      exact moves _ (lineStarts_newline next) (Nat.le_sub_one_of_lt grows)
    · exact moves _ (.len _) startsAt.le

/-! ## Selections and completions -/

theorem selectionBounds_ok (anchored : IsBoundary text anchor) (boundary : IsBoundary text cursor) :
    ∃ bounds, selectionBounds text anchor cursor = some bounds := by
  unfold selectionBounds
  split
  · exact ⟨_, rfl⟩
  · split
    · obtain ⟨next, found, -⟩ := nextBoundary_ok boundary
      rw [found]
      exact ⟨_, rfl⟩
    · obtain ⟨next, found, -⟩ := nextBoundary_ok anchored
      rw [found]
      exact ⟨_, rfl⟩

theorem slashCommandPrefix_ok (text : List Char) (cursor : Nat) :
    ∃ found, slashCommandPrefix text cursor = some found ∧
      ∀ start ∈ found, start = text ∧ cursor = byteLen text := by
  unfold slashCommandPrefix
  split
  · exact ⟨none, rfl, nofun⟩
  · rename_i last
    have isLast : cursor = byteLen text := Classical.byContradiction last
    subst isLast
    have whole : upTo text (byteLen text) = some text := by
      have cut := upTo_append text []
      rwa [List.append_nil] at cut
    rw [whole, Option.bind_eq_bind, Option.bind_some]
    split
    · exact ⟨none, rfl, nofun⟩
    · refine ⟨some text, rfl, fun start isStart => ?_⟩
      cases isStart
      exact ⟨rfl, rfl⟩

end Openyak.Cli
