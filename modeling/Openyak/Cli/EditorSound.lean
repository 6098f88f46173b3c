/-
# Cli.EditorSound -- are the editor's offsets boundaries?

The cursors, the other end of a selection and the place in the history stay valid under
every key but one (`key_ok`): a character that is deleted in the visual mode moves the text
behind it, and the other end of the selection, if it is there, stays where it was.  That
offset is a boundary of the shorter text exactly when, moved by the deleted character, it
was one of the longer (`deletes_anchor_iff`).

In every run without such a deletion the state is sound, and neither a key nor a rendering
slices a text at no boundary (`line_editor_sound`).
-/
import Openyak.Cli.EditorBoundaries
import Openyak.Theory.Run

namespace Openyak.Cli

open Openyak.Theory
open Openyak.Theory.ByteText

set_option autoImplicit false

/-! ## Sound states -/

structure Sound (editor : LineEditor) (session : EditSession) : Prop where
  cursor : IsBoundary session.text session.cursor
  commandCursor : IsBoundary session.commandBuffer session.commandCursor
  command : session.mode = .command →
    session.commandBuffer.head? = some ':' ∧ 1 ≤ session.commandCursor
  anchor : ∀ anchor, session.visualAnchor = some anchor → IsBoundary session.text anchor
  history : ∀ index, session.historyIndex = some index → index < editor.history.length

/-- A selection is one of the visual mode, and what is completed in that mode keeps what
was there when the selection was made. -/
structure Selected (editor : LineEditor) (session : EditSession) : Prop where
  visual : session.visualAnchor.isSome = true → session.mode = .visual
  completion : ∀ state, editor.completionState = some state →
    (∀ candidate ∈ state.candidates, state.start <+: candidate) ∧
    ∀ anchor, session.visualAnchor = some anchor → IsBoundary state.start anchor

structure Inv (editor : LineEditor) (session : EditSession) : Prop where
  sound : Sound editor session
  selected : Selected editor session

variable {editor : LineEditor} {session : EditSession}

/-- An operation succeeds and keeps the invariant. -/
def KeepsInv (editor : LineEditor) (edited : Option EditSession) : Prop :=
  ∃ session, edited = some session ∧ Inv editor session

/-- So does one that changes the editor too. -/
def KeepsBoth (edited : Edited) : Prop :=
  ∃ editor session, edited = some (editor, session) ∧ Inv editor session

theorem KeepsBoth.ite {condition : Prop} [Decidable condition] {edited other : Edited}
    (yes : KeepsBoth edited) (no : KeepsBoth other) :
    KeepsBoth (if condition then edited else other) := by
  split
  · exact yes
  · exact no

namespace Inv

theorem forget (inv : Inv editor session) : Inv { editor with completionState := none } session :=
  ⟨⟨inv.sound.cursor, inv.sound.commandCursor, inv.sound.command, inv.sound.anchor,
    inv.sound.history⟩, ⟨inv.selected.visual, nofun⟩⟩

theorem yanked (inv : Inv editor session) (yankBuffer : YankBuffer) :
    Inv { editor with yankBuffer := yankBuffer } session :=
  ⟨⟨inv.sound.cursor, inv.sound.commandCursor, inv.sound.command, inv.sound.anchor,
    inv.sound.history⟩, ⟨inv.selected.visual, inv.selected.completion⟩⟩

theorem keeps (inv : Inv editor session) : KeepsInv editor (some session) := ⟨session, rfl, inv⟩

/-- The cursor moves. -/
theorem moved (inv : Inv editor session) {cursor : Nat} (boundary : IsBoundary session.text cursor) :
    Inv editor { session with cursor } :=
  ⟨⟨boundary, inv.sound.commandCursor, inv.sound.command, inv.sound.anchor, inv.sound.history⟩,
    ⟨inv.selected.visual, inv.selected.completion⟩⟩

theorem operator (inv : Inv editor session) (pendingOperator : Option Char) :
    Inv editor { session with pendingOperator } :=
  ⟨⟨inv.sound.cursor, inv.sound.commandCursor, inv.sound.command, inv.sound.anchor,
    inv.sound.history⟩, ⟨inv.selected.visual, inv.selected.completion⟩⟩

theorem no_anchor (inv : Inv editor session) (mode : session.mode ≠ .visual) :
    session.visualAnchor = none := by
  cases isAnchor : session.visualAnchor with
  | none => rfl
  | some anchor => exact absurd (inv.selected.visual (by rw [isAnchor]; rfl)) mode

/-- The text is edited where no selection is. -/
theorem edited (inv : Inv editor session) (mode : session.mode ≠ .visual) {text : List Char}
    {cursor : Nat} (boundary : IsBoundary text cursor) :
    Inv editor { session with text, cursor } := by
  have none_ := inv.no_anchor mode
  refine ⟨⟨boundary, inv.sound.commandCursor, inv.sound.command, ?_, inv.sound.history⟩,
    ⟨inv.selected.visual, inv.selected.completion⟩⟩
  intro anchor isAnchor
  rw [show session.visualAnchor = some anchor from isAnchor] at none_
  cases none_

/-- The buffer of the command mode is edited behind its colon. -/
theorem commanded (inv : Inv editor session) {commandBuffer : List Char} {commandCursor : Nat}
    (boundary : IsBoundary commandBuffer commandCursor)
    (command : session.mode = .command → commandBuffer.head? = some ':' ∧ 1 ≤ commandCursor) :
    Inv editor { session with commandBuffer, commandCursor } :=
  ⟨⟨inv.sound.cursor, boundary, command, inv.sound.anchor, inv.sound.history⟩,
    ⟨inv.selected.visual, inv.selected.completion⟩⟩

/-- Another mode, without a selection. -/
theorem entered (inv : Inv editor session) {mode : EditorMode} (other : mode ≠ .command)
    (pendingOperator : Option Char) :
    Inv editor { session with mode, pendingOperator, visualAnchor := none } := by
  refine ⟨⟨inv.sound.cursor, inv.sound.commandCursor, fun isCommand => absurd isCommand other,
    nofun, inv.sound.history⟩, ⟨nofun, fun state isState => ?_⟩⟩
  exact ⟨(inv.selected.completion state isState).1, nofun⟩

theorem enterInsertMode (inv : Inv editor session) : Inv editor session.enterInsertMode :=
  have notCommand : EditorMode.insert ≠ .command := nofun
  inv.entered notCommand none

theorem enterNormalMode (inv : Inv editor session) : Inv editor session.enterNormalMode :=
  have notCommand : EditorMode.normal ≠ .command := nofun
  inv.entered notCommand none

theorem enterVisualMode (inv : Inv editor session) (fresh : editor.completionState = none) :
    Inv editor session.enterVisualMode := by
  refine ⟨⟨inv.sound.cursor, inv.sound.commandCursor, nofun, ?_, inv.sound.history⟩,
    ⟨fun _ => rfl, fun state isState => ?_⟩⟩
  · intro anchor isAnchor
    cases isAnchor
    exact inv.sound.cursor
  · rw [fresh] at isState
    cases isState

theorem enterCommandMode (inv : Inv editor session) : Inv editor session.enterCommandMode := by
  refine ⟨⟨inv.sound.cursor, .len [':'], fun _ => ⟨rfl, ?_⟩, nofun, inv.sound.history⟩,
    ⟨nofun, fun state isState => ⟨(inv.selected.completion state isState).1, nofun⟩⟩⟩
  show 1 ≤ byteLen [':']
  simp

theorem exitCommandMode (inv : Inv editor session) : Inv editor session.exitCommandMode := by
  refine ⟨⟨inv.sound.cursor, .zero [], nofun, nofun, inv.sound.history⟩,
    ⟨nofun, fun state isState => ⟨(inv.selected.completion state isState).1, nofun⟩⟩⟩

theorem setTextFromHistory (inv : Inv editor session) (notCommand : session.mode ≠ .command)
    (entry : List Char) : Inv editor (session.setTextFromHistory entry) := by
  refine ⟨⟨.len entry, inv.sound.commandCursor, ?_, nofun, inv.sound.history⟩,
    ⟨nofun, fun state isState => ⟨(inv.selected.completion state isState).1, nofun⟩⟩⟩
  intro isCommand
  simp only [EditSession.setTextFromHistory] at isCommand
  split at isCommand
  · cases isCommand
  · exact absurd isCommand notCommand

theorem indexed (inv : Inv editor session) {historyIndex : Option Nat}
    (historyBackup : Option (List Char))
    (valid : ∀ index, historyIndex = some index → index < editor.history.length) :
    Inv editor { session with historyIndex, historyBackup } :=
  ⟨⟨inv.sound.cursor, inv.sound.commandCursor, inv.sound.command, inv.sound.anchor, valid⟩,
    ⟨inv.selected.visual, inv.selected.completion⟩⟩

/-! ## Editing and moving -/

/-- The buffer of the command mode is a colon and more, and its cursor is behind the colon. -/
theorem command_parts (inv : Inv editor session) (isCommand : session.mode = .command) :
    ∃ before after, session.commandBuffer = ':' :: before ++ after ∧
      session.commandCursor = byteLen (':' :: before) := by
  obtain ⟨colon, behind⟩ := inv.sound.command isCommand
  obtain ⟨front, after, parts, length⟩ := inv.sound.commandCursor
  cases front with
  | nil =>
      rw [← length, byteLen_nil] at behind
      omega
  | cons c before =>
      rw [parts] at colon
      cases colon
      exact ⟨before, after, parts, length.symm⟩

theorem insertActiveText (inv : Inv editor session) (mode : session.mode ≠ .visual)
    (text : List Char) : KeepsInv editor (session.insertActiveText text) := by
  unfold EditSession.insertActiveText
  split
  · rename_i isCommand
    obtain ⟨before, after, parts, length⟩ := inv.command_parts isCommand
    refine ⟨_, by rw [parts, length, insertStr_append]; rfl, inv.commanded ?_ fun _ => ⟨rfl, ?_⟩⟩
    · rw [← byteLen_append]
      exact .intro (':' :: before ++ text) after
    · rw [byteLen_cons, utf8Size_colon]
      omega
  · obtain ⟨before, after, parts, length⟩ := inv.sound.cursor
    refine ⟨_, by rw [parts, ← length, insertStr_append]; rfl, inv.edited mode ?_⟩
    rw [← byteLen_append]
    exact .intro (before ++ text) after

theorem moveLeft (inv : Inv editor session) : KeepsInv editor session.moveLeft := by
  unfold EditSession.moveLeft
  split
  · rename_i isCommand
    obtain ⟨colon, behind⟩ := inv.sound.command isCommand
    obtain ⟨before, after, parts, length⟩ := inv.command_parts isCommand
    obtain ⟨previous, found, boundary, -⟩ := previousBoundary_ok inv.sound.commandCursor
    have moved : previousCommandBoundary session.commandBuffer session.commandCursor =
        some (max previous 1) := by
      rw [previousCommandBoundary, found]
      rfl
    rw [moved]
    refine ⟨_, rfl, inv.commanded ?_ fun _ => ⟨colon, by omega⟩⟩
    obtain less | less := Nat.lt_or_ge previous 1
    · rw [Nat.max_eq_right (by omega), parts]
      exact ⟨[':'], before ++ after, rfl, by simp⟩
    · rw [Nat.max_eq_left less]
      exact boundary
  · obtain ⟨previous, found, boundary, -⟩ := previousBoundary_ok inv.sound.cursor
    rw [found]
    exact ⟨_, rfl, inv.moved boundary⟩

theorem moveRight (inv : Inv editor session) : KeepsInv editor session.moveRight := by
  unfold EditSession.moveRight
  split
  · rename_i isCommand
    obtain ⟨colon, behind⟩ := inv.sound.command isCommand
    obtain ⟨next, found, boundary, le⟩ := nextBoundary_ok inv.sound.commandCursor
    rw [found]
    exact ⟨_, rfl, inv.commanded boundary fun _ => ⟨colon, by omega⟩⟩
  · obtain ⟨next, found, boundary, -⟩ := nextBoundary_ok inv.sound.cursor
    rw [found]
    exact ⟨_, rfl, inv.moved boundary⟩

theorem moveLineStart (inv : Inv editor session) : KeepsInv editor session.moveLineStart := by
  unfold EditSession.moveLineStart
  split
  · rename_i isCommand
    obtain ⟨colon, -⟩ := inv.sound.command isCommand
    obtain ⟨before, after, parts, -⟩ := inv.command_parts isCommand
    refine ⟨_, rfl, inv.commanded ?_ fun _ => ⟨colon, Nat.le_refl 1⟩⟩
    rw [parts]
    exact ⟨[':'], before ++ after, rfl, by simp⟩
  · obtain ⟨front, head, tail, back, line⟩ := current_line inv.sound.cursor
    rw [line.lineStart]
    exact ⟨_, rfl, inv.moved line.start_boundary⟩

theorem moveLineEnd (inv : Inv editor session) : KeepsInv editor session.moveLineEnd := by
  unfold EditSession.moveLineEnd
  split
  · rename_i isCommand
    obtain ⟨colon, behind⟩ := inv.sound.command isCommand
    have le := inv.sound.commandCursor.le
    exact ⟨_, rfl, inv.commanded (.len _) fun _ => ⟨colon, by omega⟩⟩
  · obtain ⟨front, head, tail, back, line⟩ := current_line inv.sound.cursor
    rw [line.lineEnd]
    exact ⟨_, rfl, inv.moved line.end_boundary⟩

theorem moveRows (inv : Inv editor session) (delta : Int) :
    KeepsInv editor (session.moveRows delta) := by
  unfold EditSession.moveRows
  split
  · exact inv.keeps
  · obtain ⟨moved, found, boundary⟩ := moveVertical_ok inv.sound.cursor delta
    rw [found]
    exact ⟨_, rfl, inv.moved boundary⟩

theorem handleEscape (inv : Inv editor session) : KeepsInv editor session.handleEscape := by
  unfold EditSession.handleEscape
  split
  · exact inv.keeps
  · exact inv.keeps
  · split
    · obtain ⟨previous, found, boundary, -⟩ := previousBoundary_ok inv.sound.cursor
      rw [found]
      exact ⟨_, rfl, (inv.moved boundary).enterNormalMode⟩
    · exact ⟨_, rfl, (inv.moved inv.sound.cursor).enterNormalMode⟩
  · exact ⟨_, rfl, inv.enterNormalMode⟩
  · exact ⟨_, rfl, inv.exitCommandMode⟩

theorem handleBackspace (inv : Inv editor session) : KeepsInv editor session.handleBackspace := by
  have removes : session.mode ≠ .visual → KeepsInv editor
      ((removePreviousChar session.text session.cursor).bind fun removed =>
        some { session with text := removed.1, cursor := removed.2 }) := by
    intro mode
    obtain ⟨text, cursor, removed, boundary⟩ := removePreviousChar_ok inv.sound.cursor
    rw [removed]
    exact ⟨_, rfl, inv.edited mode boundary⟩
  unfold EditSession.handleBackspace
  split
  · exact inv.moveLeft
  · exact inv.moveLeft
  · rename_i isCommand
    split
    · exact ⟨_, rfl, inv.exitCommandMode⟩
    · rename_i more
      obtain ⟨before, after, parts, length⟩ := inv.command_parts isCommand
      obtain rfl | ⟨front, c, rfl⟩ := List.eq_nil_or_concat' before
      · rw [length] at more
        exact absurd (by simp) more
      · have removed : removePreviousChar session.commandBuffer session.commandCursor =
            some (':' :: front ++ after, byteLen (':' :: front)) := by
          rw [parts, length]
          exact removePreviousChar_append (':' :: front) c after
        rw [removed]
        refine ⟨_, rfl, inv.commanded (.intro _ _) fun _ => ⟨rfl, ?_⟩⟩
        rw [byteLen_cons, utf8Size_colon]
        omega
  · rename_i mode
    exact removes (by rw [mode]; decide)
  · rename_i mode
    exact removes (by rw [mode]; decide)

/-! ## Lines -/

theorem deleteCurrentLine (inv : Inv editor session) (mode : session.mode ≠ .visual) :
    KeepsBoth (editor.deleteCurrentLine session) := by
  obtain ⟨front, head, tail, back, line⟩ := current_line inv.sound.cursor
  exact ⟨_, _, line.deleteCurrentLine editor, (inv.edited mode (.intro _ _)).yanked _⟩

theorem yankCurrentLine (inv : Inv editor session) : KeepsBoth (editor.yankCurrentLine session) := by
  obtain ⟨front, head, tail, back, line⟩ := current_line inv.sound.cursor
  exact ⟨_, _, line.yankCurrentLine editor, inv.yanked _⟩

theorem pasteAfter (inv : Inv editor session) (mode : session.mode ≠ .visual) :
    KeepsInv editor (editor.pasteAfter session) := by
  by_cases filled : editor.yankBuffer.text = []
  · rw [LineEditor.pasteAfter, if_pos filled]
    exact inv.keeps
  by_cases linewise : editor.yankBuffer.linewise = true
  · obtain ⟨front, head, tail, back, line⟩ := current_line inv.sound.cursor
    obtain ⟨text, cursor, pasted, -, boundary⟩ := line.pasteAfter linewise filled rfl
    exact ⟨_, pasted, inv.edited mode boundary⟩
  · obtain ⟨next, found, boundary, -⟩ := nextBoundary_ok inv.sound.cursor
    obtain ⟨before, after, parts, length⟩ := boundary
    rw [LineEditor.pasteAfter, if_neg filled, if_neg linewise, found, Option.bind_eq_bind,
      Option.bind_some, ← length, parts, insertStr_append]
    refine ⟨_, rfl, inv.edited mode ?_⟩
    rw [← byteLen_append]
    exact .intro (before ++ editor.yankBuffer.text) after

/-! ## Completions and history -/

/-- A candidate that goes on with the text: the selection stays where it was. -/
theorem complete (inv : Inv editor session) {candidate : List Char} (last : session.cursor = byteLen session.text)
    {start : List Char} {candidates : List (List Char)} (isCandidate : start <+: candidate)
    (extend : ∀ candidate ∈ candidates, start <+: candidate)
    (selected : ∀ anchor, session.visualAnchor = some anchor → IsBoundary start anchor)
    (nextIndex : Nat) :
    ∃ session', LineEditor.complete session candidate = some session' ∧
      Inv { editor with completionState := some ⟨start, candidates, nextIndex⟩ } session' := by
  have rest : startingAt session.text session.cursor = some [] := by
    have cut := startingAt_append session.text []
    rwa [List.append_nil, ← last] at cut
  rw [LineEditor.complete, rest, Option.bind_eq_bind, Option.bind_some]
  refine ⟨_, rfl, ⟨?_, inv.sound.commandCursor, inv.sound.command, ?_, inv.sound.history⟩,
    ⟨inv.selected.visual, ?_⟩⟩
  · exact .intro candidate []
  · intro anchor isAnchor
    exact ((selected anchor isAnchor).of_first isCandidate).of_first (List.prefix_append candidate [])
  · intro found isState
    cases isState
    exact ⟨extend, selected⟩

theorem completeSlashCommand (inv : Inv editor session) :
    KeepsBoth (editor.completeSlashCommand session) := by
  unfold LineEditor.completeSlashCommand
  split
  · exact ⟨_, _, rfl, inv.forget⟩
  rename_i notCommand
  split
  · rename_i state isState
    unfold LineEditor.continued at isState
    obtain ⟨isState, listed⟩ := Option.filter_eq_some_iff.1 isState
    obtain ⟨isState, last⟩ := Option.filter_eq_some_iff.1 isState
    have last : session.cursor = byteLen session.text := of_decide_eq_true last
    obtain ⟨extend, selected⟩ := inv.selected.completion state isState
    obtain ⟨candidate, member, -⟩ := List.any_eq_true.1 listed
    have inside : state.nextIndex % state.candidates.length < state.candidates.length :=
      Nat.mod_lt _ (List.length_pos_of_mem member)
    obtain ⟨session', completed, inv'⟩ := inv.complete last
      (extend _ (List.getElem_mem inside)) extend selected (state.nextIndex + 1)
    simp only [List.getElem?_eq_getElem inside, Option.bind_eq_bind, Option.bind_some, completed]
    exact ⟨_, _, rfl, inv'⟩
  · obtain ⟨found, isPrefix, whole⟩ := slashCommandPrefix_ok session.text session.cursor
    rw [isPrefix, Option.bind_eq_bind, Option.bind_some]
    cases found with
    | none => exact ⟨_, _, rfl, inv.forget⟩
    | some start =>
        obtain ⟨rfl, last⟩ := whole start rfl
        dsimp only
        generalize listed : (editor.completions.filter fun candidate =>
          session.text.isPrefixOf candidate && candidate ≠ session.text) = candidates
        have extend : ∀ candidate ∈ candidates, session.text <+: candidate := by
          intro candidate member
          rw [← listed] at member
          have begins := (List.mem_filter.1 member).2
          simp only [Bool.and_eq_true, List.isPrefixOf_iff_prefix] at begins
          exact begins.1
        split
        · exact ⟨_, _, rfl, inv.forget⟩
        rename_i nonempty
        have positive := List.length_pos_iff.2 nonempty
        split
        · rename_i state isState
          obtain ⟨isState, same⟩ := Option.filter_eq_some_iff.1 isState
          simp only [Bool.and_eq_true, decide_eq_true_eq] at same
          obtain ⟨isStart, isCandidates⟩ := same
          have inside : state.nextIndex % state.candidates.length < state.candidates.length := by
            rw [isCandidates]
            exact Nat.mod_lt _ positive
          obtain ⟨all, selected⟩ := inv.selected.completion state isState
          obtain ⟨session', completed, inv'⟩ := inv.complete last
            (all _ (List.getElem_mem inside)) all selected (state.nextIndex + 1)
          simp only [List.getElem?_eq_getElem inside, Option.bind_eq_bind, Option.bind_some, completed]
          exact ⟨_, _, rfl, inv'⟩
        · obtain ⟨session', completed, inv'⟩ := inv.complete last
            (extend _ (List.getElem_mem positive)) extend inv.sound.anchor 1
          simp only [List.getElem?_eq_getElem positive, Option.bind_eq_bind, Option.bind_some,
            completed]
          exact ⟨_, _, rfl, inv'⟩

theorem historyUp (inv : Inv editor session) : KeepsInv editor (editor.historyUp session) := by
  unfold LineEditor.historyUp
  split
  · exact inv.keeps
  · rename_i some_
    obtain ⟨notCommand, nonempty⟩ := not_or.1 some_
    have positive := List.length_pos_iff.2 nonempty
    cases place : session.historyIndex with
    | some index =>
        have valid := inv.sound.history index place
        have inside : index - 1 < editor.history.length := by omega
        dsimp only
        rw [List.getElem?_eq_getElem inside]
        have indexed : Inv editor { session with historyIndex := some (index - 1) } :=
          inv.indexed session.historyBackup fun _ same => Option.some.inj same ▸ inside
        exact ⟨_, rfl, indexed.setTextFromHistory notCommand _⟩
    | none =>
        have inside : editor.history.length - 1 < editor.history.length := by omega
        dsimp only
        rw [List.getElem?_eq_getElem inside]
        have indexed : Inv editor { session with
            historyIndex := some (editor.history.length - 1), historyBackup := some session.text } :=
          inv.indexed _ fun _ same => Option.some.inj same ▸ inside
        exact ⟨_, rfl, indexed.setTextFromHistory notCommand _⟩

theorem historyDown (inv : Inv editor session) : KeepsInv editor (editor.historyDown session) := by
  unfold LineEditor.historyDown
  split
  · exact inv.keeps
  rename_i notCommand
  split
  · exact inv.keeps
  rename_i index place
  split
  · rename_i inside
    rw [List.getElem?_eq_getElem inside]
    have indexed : Inv editor { session with historyIndex := some (index + 1) } :=
      inv.indexed session.historyBackup fun _ same => Option.some.inj same ▸ inside
    exact ⟨_, rfl, indexed.setTextFromHistory notCommand _⟩
  · have indexed : Inv editor { session with historyIndex := none, historyBackup := none } :=
      inv.indexed none nofun
    have restored := indexed.setTextFromHistory notCommand (session.historyBackup.getD [])
    refine ⟨_, rfl, ?_⟩
    split
    · exact restored.enterInsertMode
    · have notCommand : EditorMode.plain ≠ .command := nofun
      exact restored.entered notCommand none

end Inv

/-! ## A deletion under a selection -/

/-- A key that deletes the character under the cursor. -/
def KeyEvent.Deletes (key : KeyEvent) : Prop :=
  key.code = .delete ∨ (key.control = true ∧ (key.code = .char 'd' ∨ key.code = .char 'D'))

/-- What the selection asks of a deletion under the cursor: its other end, where it is
behind the cursor, is on a boundary also that many bytes further. -/
def CarefulDelete (session : EditSession) : Prop :=
  ∀ anchor, session.visualAnchor = some anchor → session.cursor < anchor →
    ∀ stop, nextBoundary session.text session.cursor = some stop →
      IsBoundary session.text (anchor + (stop - session.cursor))

/-- In the visual mode. -/
def CarefulKey (session : EditSession) (key : KeyEvent) : Prop :=
  session.mode = .visual → key.Deletes → CarefulDelete session

/-- Behind the cursor a boundary of what is left was one of the text. -/
theorem boundary_deleted {before after : List Char} {c : Char} {offset : Nat}
    (behind : byteLen before ≤ offset) :
    IsBoundary (before ++ after) offset ↔ IsBoundary (before ++ c :: after) (offset + c.utf8Size) := by
  have moved : byteLen (before ++ [c]) ≤ offset + c.utf8Size := by
    rw [byteLen_append, byteLen_cons, byteLen_nil]
    omega
  have split : before ++ c :: after = before ++ [c] ++ after := by simp
  rw [IsBoundary.append_iff behind, split, IsBoundary.append_iff moved, byteLen_append,
    byteLen_cons, byteLen_nil]
  have same : offset + c.utf8Size - (byteLen before + (c.utf8Size + 0)) = offset - byteLen before := by
    omega
  rw [same]

/-- The character under the cursor. -/
theorem under_cursor {text : List Char} {cursor : Nat} (boundary : IsBoundary text cursor)
    (inside : cursor < byteLen text) :
    ∃ before c after, text = before ++ c :: after ∧ cursor = byteLen before := by
  obtain ⟨before, after, rfl, rfl⟩ := boundary
  cases after with
  | nil =>
      rw [List.append_nil] at inside
      omega
  | cons c after => exact ⟨before, c, after, rfl, rfl⟩

theorem drain_char (before : List Char) (c : Char) (after : List Char) :
    drain (before ++ c :: after) (byteLen before) (byteLen before + c.utf8Size) =
      some (before ++ after) := by
  have drained := drain_append before [c] after
  rwa [byteLen_cons, byteLen_nil, Nat.add_zero, List.append_assoc, List.singleton_append] at drained

/-- **The exact condition** on a deletion outside of the command mode. -/
theorem delete_sound_iff (inv : Inv editor session) (notCommand : session.mode ≠ .command) :
    ∃ session', session.deleteCharUnderCursor = some session' ∧
      session'.mode = session.mode ∧ session'.visualAnchor = session.visualAnchor ∧
      (Sound editor session' ↔ CarefulDelete session) := by
  unfold EditSession.deleteCharUnderCursor
  rw [if_neg notCommand]
  split
  · rename_i inside
    obtain ⟨before, c, after, parts, length⟩ := under_cursor inv.sound.cursor inside
    have next : nextBoundary session.text session.cursor = some (byteLen before + c.utf8Size) := by
      rw [parts, length, nextBoundary_append]
    have drained : drain session.text session.cursor (byteLen before + c.utf8Size) =
        some (before ++ after) := by rw [parts, length, drain_char]
    rw [next, Option.bind_eq_bind, Option.bind_some, drained]
    refine ⟨_, rfl, rfl, rfl, ?_⟩
    have width : byteLen before + c.utf8Size - session.cursor = c.utf8Size := by omega
    constructor
    · intro sound anchor isAnchor behind stop isStop
      rw [next] at isStop
      cases isStop
      have valid : IsBoundary (before ++ after) anchor := sound.anchor anchor isAnchor
      rw [width, parts]
      exact (boundary_deleted (by omega)).1 valid
    · intro careful
      refine ⟨?_, inv.sound.commandCursor, inv.sound.command, ?_, inv.sound.history⟩
      · show IsBoundary (before ++ after) session.cursor
        rw [length]
        exact .intro before after
      · intro anchor isAnchor
        show IsBoundary (before ++ after) anchor
        have valid := inv.sound.anchor anchor isAnchor
        obtain front | behind := Nat.lt_or_ge session.cursor anchor
        · have moved := careful anchor isAnchor front _ next
          rw [width, parts] at moved
          exact (boundary_deleted (by omega)).2 moved
        · rw [parts] at valid
          exact (valid.of_le (by omega)).of_first (List.prefix_append before after)
  · rename_i outside
    refine ⟨session, rfl, rfl, rfl, fun _ => ?_, fun _ => inv.sound⟩
    intro anchor isAnchor front
    have le := (inv.sound.anchor anchor isAnchor).le
    omega

namespace Inv

theorem deleteCharUnderCursor (inv : Inv editor session) (fresh : editor.completionState = none)
    (careful : session.mode = .visual → CarefulDelete session) :
    KeepsInv editor session.deleteCharUnderCursor := by
  by_cases isCommand : session.mode = .command
  · unfold EditSession.deleteCharUnderCursor
    rw [if_pos isCommand]
    split
    · rename_i inside
      obtain ⟨colon, behind⟩ := inv.sound.command isCommand
      obtain ⟨before, c, after, parts, length⟩ := under_cursor inv.sound.commandCursor inside
      rw [parts, length, nextBoundary_append, Option.bind_eq_bind, Option.bind_some, drain_char]
      have kept : Inv editor { session with
          commandBuffer := before ++ after, commandCursor := byteLen before } := by
        refine inv.commanded (.intro before after) fun _ => ⟨?_, by omega⟩
        cases before with
        | nil =>
            rw [length, byteLen_nil] at behind
            omega
        | cons first before =>
            rw [parts] at colon
            exact colon
      exact ⟨_, rfl, kept⟩
    · exact inv.keeps
  · obtain ⟨session', deleted, mode, anchor, sound⟩ := delete_sound_iff inv isCommand
    refine ⟨session', deleted, sound.2 ?_, ?_, ?_⟩
    · by_cases isVisual : session.mode = .visual
      · exact careful isVisual
      · intro anchor isAnchor
        rw [inv.no_anchor isVisual] at isAnchor
        cases isAnchor
    · rw [mode, anchor]
      exact inv.selected.visual
    · intro state isState
      rw [fresh] at isState
      cases isState

/-! ## Keys -/

theorem handleNormalChar (inv : Inv editor session) (fresh : editor.completionState = none)
    (mode : session.mode = .normal) (ch : Char) :
    KeepsBoth (editor.handleNormalChar session ch) := by
  have both : ∀ {edited : Option EditSession}, KeepsInv editor edited →
      KeepsBoth (edited.map (editor, ·)) := by
    rintro _ ⟨session', rfl, kept⟩
    exact ⟨editor, session', rfl, kept⟩
  have free := inv.operator none
  have notVisual : session.mode ≠ .visual := by
    rw [mode]
    nofun
  unfold LineEditor.handleNormalChar
  refine .ite (free.deleteCurrentLine notVisual) (.ite free.yankCurrentLine ?_)
  refine .ite (both free.moveLeft) (.ite (both (free.moveRows 1)) (.ite (both (free.moveRows (-1))) ?_))
  refine .ite (both free.moveRight) (.ite ⟨_, _, rfl, free.operator (some ch)⟩ ?_)
  refine .ite (both (free.pasteAfter notVisual)) (.ite ⟨_, _, rfl, free.enterInsertMode⟩ ?_)
  refine .ite ⟨_, _, rfl, free.enterVisualMode fresh⟩ (.ite ⟨_, _, rfl, free.enterCommandMode⟩ ?_)
  exact ⟨_, _, rfl, free⟩

theorem handleVisualChar (inv : Inv editor session) (ch : Char) :
    KeepsInv editor (LineEditor.handleVisualChar session ch) := by
  unfold LineEditor.handleVisualChar
  split
  · exact inv.moveLeft
  split
  · exact inv.moveRows 1
  split
  · exact inv.moveRows (-1)
  split
  · exact inv.moveRight
  split
  · exact ⟨_, rfl, inv.enterNormalMode⟩
  · exact inv.keeps

theorem newline (inv : Inv editor session) : KeepsInv editor (LineEditor.newline session) := by
  unfold LineEditor.newline
  split
  · rename_i mode
    exact inv.insertActiveText mode.2 ['\n']
  · exact inv.keeps

end Inv

/-- A key succeeds and leaves the invariant. -/
def KeyOk (result : Option (KeyAction × LineEditor × EditSession)) : Prop :=
  ∃ action editor session, result = some (action, editor, session) ∧ Inv editor session

theorem KeepsBoth.goOn {edited : Edited} (keeps : KeepsBoth edited) : KeyOk (LineEditor.goOn edited) := by
  obtain ⟨editor, session, rfl, inv⟩ := keeps
  exact ⟨.continue, editor, session, rfl, inv⟩

theorem KeepsInv.both {edited : Option EditSession} (keeps : KeepsInv editor edited) :
    KeepsBoth (edited.map (editor, ·)) := by
  obtain ⟨session, rfl, inv⟩ := keeps
  exact ⟨editor, session, rfl, inv⟩

theorem KeepsInv.goOn {edited : Option EditSession} (keeps : KeepsInv editor edited) :
    KeyOk (LineEditor.goOn (edited.map (editor, ·))) := keeps.both.goOn

theorem Inv.handleChar (inv : Inv editor session) (fresh : editor.completionState = none)
    (ch : Char) : KeepsBoth (editor.handleChar session ch) := by
  unfold LineEditor.handleChar
  split
  · rename_i mode
    exact (inv.insertActiveText (by rw [mode]; nofun) [ch]).both
  · rename_i mode
    exact (inv.insertActiveText (by rw [mode]; nofun) [ch]).both
  · rename_i mode
    exact (inv.insertActiveText (by rw [mode]; nofun) [ch]).both
  · rename_i mode
    exact inv.handleNormalChar fresh mode ch
  · exact (inv.handleVisualChar ch).both

/-- **A careful key** succeeds and keeps the invariant. -/
theorem key_ok (inv : Inv editor session) {key : KeyEvent} (careful : CarefulKey session key) :
    KeyOk (editor.handleKeyEvent session key) := by
  unfold LineEditor.handleKeyEvent
  dsimp only
  generalize isEditor : (if key.code ≠ .tab then { editor with completionState := none } else editor) =
    editor'
  have inv' : Inv editor' session := by
    rw [← isEditor]
    split
    · exact inv.forget
    · exact inv
  have fresh : key.code ≠ .tab → editor'.completionState = none := by
    intro notTab
    rw [← isEditor, if_pos notTab]
  have deletes : key.Deletes → KeepsInv editor' session.deleteCharUnderCursor := by
    intro isDeletion
    have notTab : key.code ≠ .tab := by
      intro isTab
      obtain code | ⟨-, code | code⟩ := isDeletion <;> rw [isTab] at code <;> cases code
    exact inv'.deleteCharUnderCursor (fresh notTab) fun isVisual => careful isVisual isDeletion
  split
  · exact ⟨_, _, _, rfl, inv'⟩
  split
  · exact inv'.newline.goOn
  split
  · rename_i isDeletion
    split
    · exact ⟨_, _, _, rfl, inv'⟩
    · exact (deletes (.inr isDeletion)).goOn
  split
  · split
    · exact inv'.newline.goOn
    · exact ⟨_, _, _, rfl, inv'⟩
  · exact inv'.handleEscape.goOn
  · exact inv'.handleBackspace.goOn
  · rename_i code
    exact (deletes (.inl code)).goOn
  · exact inv'.moveLeft.goOn
  · exact inv'.moveRight.goOn
  · exact inv'.historyUp.goOn
  · exact inv'.historyDown.goOn
  · exact inv'.moveLineStart.goOn
  · exact inv'.moveLineEnd.goOn
  · exact inv'.completeSlashCommand.goOn
  · rename_i c code
    exact (inv'.handleChar (fresh (by rw [code]; nofun)) c).goOn
  · exact inv'.keeps.goOn

/-! ## Rendering -/

theorem Sound.visibleBuffer (sound : Sound editor session) :
    ∃ buffer, session.visibleBuffer = some buffer := by
  unfold EditSession.visibleBuffer
  split
  · exact ⟨_, rfl⟩
  · split
    · exact ⟨_, rfl⟩
    · rename_i anchor isAnchor
      obtain ⟨bounds, found⟩ := selectionBounds_ok (sound.anchor anchor isAnchor) sound.cursor
      rw [found]
      cases bounds <;> exact ⟨_, rfl⟩

theorem Sound.cursorLayout (sound : Sound editor session) (prompt : List Char) :
    ∃ layout, session.cursorLayout prompt = some layout := by
  have cut : ∃ before, upTo session.activeText
      (if session.mode = .command then session.commandCursor else session.cursor) = some before := by
    have boundary : IsBoundary session.activeText
        (if session.mode = .command then session.commandCursor else session.cursor) := by
      unfold EditSession.activeText
      split
      · exact sound.commandCursor
      · exact sound.cursor
    obtain ⟨before, after, parts, length⟩ := boundary
    rw [parts, ← length]
    exact ⟨before, upTo_append before after⟩
  obtain ⟨before, cut⟩ := cut
  unfold EditSession.cursorLayout
  simp only [cut]
  exact ⟨_, rfl⟩

theorem Sound.render (sound : Sound editor session) (prompt : List Char) :
    ∃ rendered, session.render prompt = some rendered := by
  obtain ⟨buffer, visible⟩ := sound.visibleBuffer
  obtain ⟨layout, found⟩ := sound.cursorLayout prompt
  rw [EditSession.render, visible, Option.bind_eq_bind, Option.bind_some, found]
  exact ⟨_, rfl⟩

/-! ## Runs -/

/-- A key, and what is pushed to the history if the line is returned at it. -/
structure EditorInput where
  key : KeyEvent
  pushed : List (List Char) := []

def LineEditor.pushHistory (editor : LineEditor) (entry : List Char) : LineEditor :=
  if Text.trim entry = [] then editor else { editor with history := editor.history ++ [entry] }

/-- `read_line` behind a key: the session goes on, or the next one begins. -/
def afterKey (pushed : List (List Char)) :
    KeyAction × LineEditor × EditSession → LineEditor × EditSession
  | (.continue, editor, session) => (editor, session)
  | (.toggleVim, editor, _) =>
      ({ editor with vimEnabled := !editor.vimEnabled }, .new !editor.vimEnabled)
  | (.submit _, editor, _) | (.cancel, editor, _) | (.exit, editor, _) =>
      (pushed.foldl LineEditor.pushHistory editor, .new editor.vimEnabled)

def editorStep (state : LineEditor × EditSession) (input : EditorInput) :
    Option (LineEditor × EditSession) :=
  (state.1.handleKeyEvent state.2 input.key).map (afterKey input.pushed)

def CarefulInput (state : LineEditor × EditSession) (input : EditorInput) : Prop :=
  CarefulKey state.2 input.key

theorem inv_new (completions : ∀ state, editor.completionState = some state →
    ∀ candidate ∈ state.candidates, state.start <+: candidate) (vimEnabled : Bool) :
    Inv editor (.new vimEnabled) := by
  refine ⟨⟨.zero [], .zero [], ?_, nofun, nofun⟩, ⟨nofun, fun state isState => ?_⟩⟩
  · cases vimEnabled <;> nofun
  · exact ⟨completions state isState, nofun⟩

theorem pushHistory_completions (pushed : List (List Char)) (editor : LineEditor) :
    (pushed.foldl LineEditor.pushHistory editor).completionState = editor.completionState := by
  induction pushed generalizing editor with
  | nil => rfl
  | cons entry pushed ih =>
      rw [List.foldl_cons, ih, LineEditor.pushHistory]
      split <;> rfl

theorem Inv.afterKey (inv : Inv editor session) (action : KeyAction) (pushed : List (List Char)) :
    Inv (afterKey pushed (action, editor, session)).1 (afterKey pushed (action, editor, session)).2 := by
  have fresh : Inv (pushed.foldl LineEditor.pushHistory editor) (.new editor.vimEnabled) := by
    refine inv_new ?_ _
    intro state isState
    rw [pushHistory_completions] at isState
    exact (inv.selected.completion state isState).1
  cases action with
  | «continue» => exact inv
  | toggleVim =>
      have completions : ∀ state, { editor with vimEnabled := !editor.vimEnabled }.completionState =
          some state → ∀ candidate ∈ state.candidates, state.start <+: candidate :=
        fun state isState => (inv.selected.completion state isState).1
      exact inv_new completions (!editor.vimEnabled)
  | submit line => exact fresh
  | cancel => exact fresh
  | exit => exact fresh

/-- **A careful input** leads on, and keeps the invariant. -/
theorem editorStep_ok (inv : Inv editor session) {input : EditorInput}
    (careful : CarefulInput (editor, session) input) :
    ∃ next, editorStep (editor, session) input = some next ∧ Inv next.1 next.2 := by
  obtain ⟨action, editor', session', handled, inv'⟩ := key_ok inv careful
  exact ⟨_, by rw [editorStep, handled]; rfl, inv'.afterKey action input.pushed⟩

/-- **The state of the line editor stays sound** in every run of careful inputs: no careful
key and no rendering panics. -/
theorem line_editor_sound {editor last : LineEditor} {final : EditSession}
    (fresh : editor.completionState = none) {inputs : List EditorInput}
    (run : Run editorStep CarefulInput (editor, .new editor.vimEnabled) inputs (last, final)) :
    Sound last final ∧
      (∀ prompt, ∃ rendered, final.render prompt = some rendered) ∧
      ∀ input, CarefulInput (last, final) input → ∃ next, editorStep (last, final) input = some next := by
  have start : Inv editor (.new editor.vimEnabled) := by
    refine inv_new ?_ _
    intro state isState
    rw [fresh] at isState
    cases isState
  have inv : Inv last final := by
    refine run.invariant (fun state => Inv state.1 state.2) ?_ start
    intro middle input next held careful steps
    obtain ⟨found, leads, kept⟩ := editorStep_ok held careful
    rw [leads] at steps
    cases steps
    exact kept
  refine ⟨inv.sound, inv.sound.render, fun input careful => ?_⟩
  obtain ⟨next, leads, -⟩ := editorStep_ok inv careful
  exact ⟨next, leads⟩

/-! ## A selection that a deletion cuts -/

def typed (c : Char) : EditorInput := ⟨⟨.char c, false, false⟩, []⟩

def pressed (code : KeyCode) : EditorInput := ⟨⟨code, false, false⟩, []⟩

def vimEditor : LineEditor where
  prompt := ['>', ' ']
  completions := []
  vimEnabled := true

/-- `aéé` is selected from its end, and then its first letter is deleted. -/
def cuttingInputs : List EditorInput :=
  [typed 'a', typed 'é', typed 'é', pressed .esc, typed 'v', typed 'h', typed 'h']

theorem cuttingInputs_careful : ∀ input ∈ cuttingInputs, ∀ state, CarefulInput state input := by
  intro input member state isVisual isDeletion
  have letters : ∀ input ∈ cuttingInputs, ¬input.key.Deletes := by
    unfold KeyEvent.Deletes
    decide
  exact absurd isDeletion (letters input member)

theorem line_editor_sound_selection : ∃ last final, play editorStep (vimEditor, .new true) cuttingInputs =
    some (last, final) ∧ Sound last final ∧
      (∀ prompt, ∃ rendered, final.render prompt = some rendered) ∧
      ∀ input, CarefulInput (last, final) input →
        ∃ next, editorStep (last, final) input = some next := by
  have played : (play editorStep (vimEditor, .new true) cuttingInputs).isSome = true := by
    decide +kernel
  obtain ⟨⟨last, final⟩, played⟩ := Option.isSome_iff_exists.1 played
  have run := (run_iff_play editorStep _ _ _).2 played
  exact ⟨last, final, played, line_editor_sound rfl (run.of_labels cuttingInputs_careful)⟩

/-- Behind it the selection's other end is inside a letter, and the next rendering panics. -/
theorem line_editor_panics : ∃ last final,
    Run editorStep (fun _ _ => True) (vimEditor, .new true) (cuttingInputs ++ [pressed .delete])
      (last, final) ∧ ¬Sound last final ∧ final.render vimEditor.prompt = none := by
  have played : play editorStep (vimEditor, .new true) (cuttingInputs ++ [pressed .delete]) =
      some (vimEditor, { EditSession.new true with
        text := ['é', 'é'], mode := .visual, visualAnchor := some 3 }) := by decide +kernel
  refine ⟨_, _, (run_iff_play editorStep _ _ _).2 played, fun sound => ?_, by decide +kernel⟩
  have inside := sound.anchor 3 rfl
  revert inside
  decide +kernel

end Openyak.Cli
