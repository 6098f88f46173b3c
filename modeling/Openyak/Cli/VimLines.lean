/-
# Cli.VimLines -- commands on whole lines

The text is read as lines that newlines end, so the last may lack its newline.  Around the
cursor they are the lines above, the current line, and the lines below (`LinesAt`); where a
cursor stands behind the last newline there is no current line.

A deletion leaves the lines above and below, of which only one that is empty and last is
lost with its newline; what is pasted becomes lines behind the current one, and no other
line changes (`vim_line_commands`).
-/
import Openyak.Cli.EditorBoundaries
import Openyak.Theory.Run
import Openyak.Theory.Terminated

namespace Openyak.Cli

open Openyak.Theory
open Openyak.Theory.ByteText
open Openyak.Theory.Terminated

set_option autoImplicit false

/-- The lines above a cursor, the line it is in, and the lines below. -/
def LinesAt (text : List Char) (cursor : Nat) (above current below : List (List Char)) : Prop :=
  ∃ front head tail back, IsCurrentLine text cursor front head tail back ∧
    splitTerminator front = above ∧
    splitTerminator (head ++ tail ++ back.take 1) = current ∧
    splitTerminator (back.drop 1) = below

variable {text before yanked front head tail back : List Char} {cursor : Nat}
  {editor : LineEditor} {session : EditSession} {above current below : List (List Char)}

/-! ## Around the cursor -/

namespace IsCurrentLine

theorem line_ended (line : IsCurrentLine text cursor front head tail back) (rest : back.drop 1 ≠ []) :
    Ended (head ++ tail ++ back.take 1) := by
  obtain rfl | ⟨lines, rfl⟩ := line.ends
  · exact absurd rfl rest
  · exact .inr ⟨head ++ tail, rfl⟩

theorem splitTerminator_text (line : IsCurrentLine text cursor front head tail back) :
    splitTerminator text = splitTerminator front ++
      splitTerminator (head ++ tail ++ back.take 1) ++ splitTerminator (back.drop 1) := by
  have whole := line.whole
  by_cases rest : back.drop 1 = []
  · rw [rest, List.append_nil] at whole
    rw [whole, rest, splitTerminator_append line.starts, splitTerminator_nil, List.append_nil]
  · rw [whole, List.append_assoc, splitTerminator_append line.starts,
      splitTerminator_append (line.line_ended rest)]
    simp only [List.append_assoc]

/-- The current line is one line, or none. -/
theorem splitTerminator_line (line : IsCurrentLine text cursor front head tail back) :
    splitTerminator (head ++ tail ++ back.take 1) =
      if head ++ tail ++ back.take 1 = [] then [] else [head ++ tail] := by
  have isLine : '\n' ∉ head ++ tail := by
    simp [line.headLine, line.tailLine]
  obtain rfl | ⟨lines, rfl⟩ := line.ends
  · rw [List.take_nil, List.append_nil]
    exact splitTerminator_last isLine
  · rw [List.take_succ_cons, List.take_zero, splitTerminator_ended isLine, if_neg (by simp)]
    rfl

theorem linesAt (line : IsCurrentLine text cursor front head tail back) :
    LinesAt text cursor (splitTerminator front) (splitTerminator (head ++ tail ++ back.take 1))
      (splitTerminator (back.drop 1)) := ⟨_, _, _, _, line, rfl, rfl, rfl⟩

/-- What stays of a text has the lines above and below. -/
theorem solid_kept (line : IsCurrentLine text cursor front head tail back) :
    solid (splitTerminator (keptBefore front (back.drop 1) ++ back.drop 1)) =
      solid (splitTerminator front ++ splitTerminator (back.drop 1)) := by
  unfold keptBefore
  split
  · rename_i last
    rw [last, List.append_nil, splitTerminator_nil, List.append_nil]
    obtain rfl | ⟨lines, rfl⟩ := line.starts
    · rfl
    · rw [List.dropLast_concat, solid_newline]
  · rw [splitTerminator_append line.starts]

/-- What is pasted becomes lines behind the current one. -/
theorem splitTerminator_pasted (line : IsCurrentLine text cursor front head tail back)
    (filled : yanked ≠ []) (isBefore : front ++ (head ++ tail ++ back.take 1) = before) :
    splitTerminator (before ++ LineEditor.linewiseInsertion text yanked (byteLen before) ++
      back.drop 1) =
      splitTerminator before ++ splitTerminator yanked ++ splitTerminator (back.drop 1) := by
  have whole := line.whole
  rw [isBefore] at whole
  unfold LineEditor.linewiseInsertion
  by_cases rest : back.drop 1 = []
  · rw [rest, List.append_nil] at whole
    subst whole
    simp only [rest, List.append_nil, true_and, Nat.lt_irrefl, false_and, if_false,
      splitTerminator_nil]
    by_cases open_ : text ≠ [] ∧ text.getLast? ≠ some '\n'
    · rw [if_pos open_, ← splitTerminator_newline open_.1 open_.2,
        ← splitTerminator_append (.inr ⟨text, rfl⟩), List.append_assoc]
      rfl
    · rw [if_neg open_, splitTerminator_append]
      by_cases nothing : text = []
      · exact .inl nothing
      · have closed : text.getLast? = some '\n' :=
          Classical.byContradiction fun other => open_ ⟨nothing, other⟩
        exact .inr (List.getLast?_eq_some_iff.1 closed)
  · have inside : byteLen before < byteLen text := by
      have positive := Nat.pos_of_ne_zero (byteLen_eq_zero.not.2 rest)
      rw [whole, byteLen_append]
      omega
    have ended : Ended before := by
      obtain nothing | ⟨lines, closed⟩ := line.line_ended rest
      · rw [← isBefore, nothing, List.append_nil]
        exact line.starts
      · rw [← isBefore, closed, ← List.append_assoc]
        exact .inr ⟨_, rfl⟩
    simp only [Nat.ne_of_lt inside, false_and, if_false, inside, true_and]
    rw [List.append_assoc, splitTerminator_append ended, List.append_assoc]
    split
    · rename_i open_
      rw [splitTerminator_append (.inr ⟨yanked, rfl⟩), splitTerminator_newline filled open_]
    · rename_i closed
      rw [splitTerminator_append (.inr (List.getLast?_eq_some_iff.1 (not_not.1 closed)))]

end IsCurrentLine

/-! ## Commands -/

/-- What is pasted next is whole lines, if anything. -/
def Linewise (editor : LineEditor) : Prop :=
  editor.yankBuffer.linewise = true ∨ editor.yankBuffer.text = []

/-- A paste behind the current line. -/
theorem paste_lines (line : IsCurrentLine session.text session.cursor front head tail back)
    (linewise : Linewise editor) :
    ∃ text cursor, editor.pasteAfter session = some { session with text, cursor } ∧
      IsBoundary text cursor ∧
      splitTerminator text = splitTerminator front ++
        splitTerminator (head ++ tail ++ back.take 1) ++ splitTerminator editor.yankBuffer.text ++
        splitTerminator (back.drop 1) := by
  by_cases filled : editor.yankBuffer.text = []
  · refine ⟨session.text, session.cursor, ?_, line.boundary, ?_⟩
    · rw [LineEditor.pasteAfter, if_pos filled]
    · rw [line.splitTerminator_text, filled, splitTerminator_nil, List.append_nil]
  · obtain ⟨text, cursor, pasted, parts, boundary⟩ :=
      line.pasteAfter (linewise.resolve_right filled) filled rfl
    refine ⟨text, cursor, pasted, boundary, ?_⟩
    rw [parts, line.splitTerminator_pasted filled rfl, splitTerminator_append line.starts]

/-- Every line that is not empty was one of these. -/
def LinesFrom (lines : List (List Char)) (editor : LineEditor) (session : EditSession) : Prop :=
  ∀ line ∈ solid (splitTerminator session.text ++ splitTerminator editor.yankBuffer.text),
    line ∈ lines

/-- What a command on lines keeps. -/
structure LinesKept (lines : List (List Char)) (state : LineEditor × EditSession) : Prop where
  boundary : IsBoundary state.2.text state.2.cursor
  linewise : Linewise state.1
  from_ : LinesFrom lines state.1 state.2

/-- The keys of the deletions, yanks, pastes and vertical motions. -/
def lineKeys : List Char := ['d', 'y', 'p', 'j', 'k']

def normalKey (state : LineEditor × EditSession) (key : Char) : Option (LineEditor × EditSession) :=
  state.1.handleNormalChar state.2 key

/-- A command succeeds and keeps them. -/
def KeepsLines (lines : List (List Char)) (edited : Edited) : Prop :=
  ∃ next, edited = some next ∧ LinesKept lines next

theorem KeepsLines.ite {lines : List (List Char)} {condition : Prop} [Decidable condition]
    {edited other : Edited} (yes : condition → KeepsLines lines edited)
    (no : ¬condition → KeepsLines lines other) :
    KeepsLines lines (if condition then edited else other) := by
  split
  · exact yes ‹_›
  · exact no ‹_›

namespace LinesKept

variable {lines : List (List Char)} {state : LineEditor × EditSession}

theorem deleteCurrentLine (kept : LinesKept lines (editor, session)) :
    KeepsLines lines (editor.deleteCurrentLine session) := by
  obtain ⟨front, head, tail, back, line⟩ := current_line kept.boundary
  refine ⟨_, line.deleteCurrentLine editor, ⟨.intro _ _, .inl rfl, fun row member => ?_⟩⟩
  apply kept.from_ row
  simp only [line.splitTerminator_text, solid_append, List.mem_append] at member ⊢
  rw [line.solid_kept, solid_append, List.mem_append] at member
  tauto

theorem yankCurrentLine (kept : LinesKept lines (editor, session)) :
    KeepsLines lines (editor.yankCurrentLine session) := by
  obtain ⟨front, head, tail, back, line⟩ := current_line kept.boundary
  refine ⟨_, line.yankCurrentLine editor, ⟨kept.boundary, .inl rfl, fun row member => ?_⟩⟩
  apply kept.from_ row
  simp only [line.splitTerminator_text, solid_append, List.mem_append] at member ⊢
  tauto

theorem pasteAfter (kept : LinesKept lines (editor, session)) :
    KeepsLines lines ((editor.pasteAfter session).map (editor, ·)) := by
  obtain ⟨front, head, tail, back, line⟩ := current_line kept.boundary
  obtain ⟨text, cursor, pasted, boundary, parts⟩ := paste_lines line kept.linewise
  refine ⟨_, congrArg (Option.map (editor, ·)) pasted, ⟨boundary, kept.linewise, fun row member => ?_⟩⟩
  apply kept.from_ row
  simp only [line.splitTerminator_text, parts, solid_append, List.mem_append] at member ⊢
  tauto

theorem moveRows (kept : LinesKept lines (editor, session)) (delta : Int) :
    KeepsLines lines ((session.moveRows delta).map (editor, ·)) := by
  unfold EditSession.moveRows
  split
  · exact ⟨_, rfl, kept⟩
  · obtain ⟨moved, found, boundary⟩ := moveVertical_ok kept.boundary delta
    rw [found]
    exact ⟨_, rfl, ⟨boundary, kept.linewise, kept.from_⟩⟩

/-- **A key keeps the lines.** -/
theorem normalKey (kept : LinesKept lines state) {key : Char} (listed : key ∈ lineKeys) :
    KeepsLines lines (normalKey state key) := by
  obtain ⟨editor, session⟩ := state
  have free : ∀ pendingOperator, LinesKept lines (editor, { session with pendingOperator }) :=
    fun _ => ⟨kept.boundary, kept.linewise, kept.from_⟩
  have other : ∀ {edited : Edited} {c : Char}, c ∉ lineKeys → key = c → KeepsLines lines edited :=
    fun unlisted same => absurd (same ▸ listed) unlisted
  unfold Cli.normalKey LineEditor.handleNormalChar
  refine .ite (fun _ => (free none).deleteCurrentLine) fun _ => ?_
  refine .ite (fun _ => (free none).yankCurrentLine) fun _ => ?_
  refine .ite (other (by decide)) fun _ => .ite (fun _ => (free none).moveRows 1) fun _ => ?_
  refine .ite (fun _ => (free none).moveRows (-1)) fun _ => .ite (other (by decide)) fun _ => ?_
  refine .ite (fun _ => ⟨_, rfl, free (some key)⟩) fun _ => .ite (fun _ => (free none).pasteAfter) ?_
  intro _
  refine .ite (other (by decide)) fun _ => .ite (other (by decide)) fun _ => ?_
  exact .ite (other (by decide)) fun _ => ⟨_, rfl, free none⟩

/-- **So does every sequence of keys.** -/
theorem play (kept : LinesKept lines state) {keys : List Char} (listed : ∀ key ∈ keys, key ∈ lineKeys) :
    ∃ last, Theory.play Cli.normalKey state keys = some last ∧ LinesKept lines last := by
  induction keys generalizing state with
  | nil => exact ⟨state, rfl, kept⟩
  | cons key keys ih =>
      obtain ⟨next, pressed, keptNext⟩ := kept.normalKey (listed key List.mem_cons_self)
      obtain ⟨last, played, keptLast⟩ := ih keptNext fun key member =>
        listed key (List.mem_cons_of_mem _ member)
      exact ⟨last, play_cons pressed played, keptLast⟩

end LinesKept

end Openyak.Cli
