/-
# Cli.LineEditor -- the line editor of the REPL

One text is edited in five modes, and offsets into it are kept across them: the cursor, the
other end of a selection, and a second cursor in the buffer of the command mode.  Offsets
count bytes.

What is left out is how the terminal is drawn.  An operation gives nothing where the program
would panic: where it slices a text at no boundary, or looks behind the end of a list.
-/
import Openyak.Theory.ByteText
import Openyak.Theory.Text

namespace Openyak.Cli

open Openyak.Theory
open Openyak.Theory.ByteText

set_option autoImplicit false

inductive EditorMode where
  | plain
  | insert
  | normal
  | visual
  | command
  deriving DecidableEq, Repr

structure YankBuffer where
  text : List Char := []
  linewise : Bool := false
  deriving DecidableEq, Repr

/-- `EditSession`, without what was drawn last. -/
structure EditSession where
  text : List Char := []
  cursor : Nat := 0
  mode : EditorMode
  pendingOperator : Option Char := none
  visualAnchor : Option Nat := none
  commandBuffer : List Char := []
  commandCursor : Nat := 0
  historyIndex : Option Nat := none
  historyBackup : Option (List Char) := none
  deriving DecidableEq, Repr

structure CompletionState where
  start : List Char
  candidates : List (List Char)
  nextIndex : Nat
  deriving DecidableEq, Repr

structure LineEditor where
  prompt : List Char
  completions : List (List Char)
  history : List (List Char) := []
  yankBuffer : YankBuffer := {}
  vimEnabled : Bool := false
  completionState : Option CompletionState := none
  deriving DecidableEq, Repr

/-! ## Keys -/

inductive KeyCode where
  | enter
  | esc
  | backspace
  | delete
  | left
  | right
  | up
  | down
  | home
  | «end»
  | tab
  | char (c : Char)
  | other
  deriving DecidableEq, Repr

structure KeyEvent where
  code : KeyCode
  control : Bool := false
  shift : Bool := false
  deriving DecidableEq, Repr

inductive KeyAction where
  | «continue»
  | submit (line : List Char)
  | cancel
  | exit
  | toggleVim
  deriving DecidableEq, Repr

/-! ## Boundaries -/

def previousBoundary (text : List Char) (cursor : Nat) : Option Nat :=
  if cursor = 0 then some 0
  else do
    let before ← upTo text cursor
    return byteLen before.dropLast

def previousCommandBoundary (text : List Char) (cursor : Nat) : Option Nat := do
  return max (← previousBoundary text cursor) 1

def nextBoundary (text : List Char) (cursor : Nat) : Option Nat :=
  if byteLen text ≤ cursor then some (byteLen text)
  else do
    match ← startingAt text cursor with
    | c :: _ => return cursor + c.utf8Size
    | [] => return byteLen text

def removePreviousChar (text : List Char) (cursor : Nat) : Option (List Char × Nat) :=
  if cursor = 0 then some (text, cursor)
  else do
    let start ← previousBoundary text cursor
    return (← drain text start cursor, start)

def lineStart (text : List Char) (cursor : Nat) : Option Nat := do
  match rfind '\n' (← upTo text cursor) with
  | some index => return index + 1
  | none => return 0

def lineEnd (text : List Char) (cursor : Nat) : Option Nat := do
  match find '\n' (← startingAt text cursor) with
  | some index => return cursor + index
  | none => return byteLen text

/-- The offsets behind the newlines of a text that starts at `offset`. -/
def newlineEnds (offset : Nat) : List Char → List Nat
  | [] => []
  | c :: rest =>
      if c = '\n' then (offset + 1) :: newlineEnds (offset + c.utf8Size) rest
      else newlineEnds (offset + c.utf8Size) rest

def lineStarts (text : List Char) : List Nat := 0 :: newlineEnds 0 text

def byteIndexForCharColumn : List Char → (column : Nat) → Nat
  | [], _ => 0
  | _ :: _, 0 => 0
  | c :: rest, column + 1 => c.utf8Size + byteIndexForCharColumn rest column

def moveVertical (text : List Char) (cursor : Nat) (delta : Int) : Option Nat := do
  let starts := lineStarts text
  let currentRow := (← upTo text cursor).count '\n'
  let currentStart ← starts[currentRow]?
  let currentCol := (← slice text currentStart cursor).length
  let maxRow : Int := (starts.length - 1 : Nat)
  let targetRow := (max 0 (min (currentRow + delta) maxRow)).toNat
  if targetRow = currentRow then return cursor
  let targetStart ← starts[targetRow]?
  let targetEnd ← if targetRow + 1 < starts.length then starts[targetRow + 1]?.map (· - 1)
    else some (byteLen text)
  return byteIndexForCharColumn (← slice text targetStart targetEnd) currentCol + targetStart

/-- The start of the line, its end with its newline, and where a deletion of it starts. -/
def currentLineDeleteRange (text : List Char) (cursor : Nat) : Option (Nat × Nat × Nat) := do
  let lineStartIdx ← lineStart text cursor
  let lineEndCore ← lineEnd text cursor
  let lineEndIdx := if lineEndCore < byteLen text then lineEndCore + 1 else lineEndCore
  let deleteStartIdx :=
    if lineEndIdx = byteLen text ∧ 0 < lineStartIdx then lineStartIdx - 1 else lineStartIdx
  return (lineStartIdx, lineEndIdx, deleteStartIdx)

def selectionBounds (text : List Char) (anchor cursor : Nat) : Option (Option (Nat × Nat)) :=
  if text = [] then some none
  else if anchor ≤ cursor then do
    let stop ← nextBoundary text cursor
    return some (min anchor (byteLen text), min stop (byteLen text))
  else do
    let stop ← nextBoundary text anchor
    return some (min cursor (byteLen text), min stop (byteLen text))

/-- The characters from `index` on, with the marks where the selection starts and ends. -/
def renderSelectedFrom (start stop : Nat) (index : Nat) (inSelection : Bool) :
    List Char → List Char
  | [] => if inSelection then "\x1b[0m".toList else []
  | c :: rest =>
      let opens := !inSelection && index == start
      let inSelection := inSelection || opens
      let closes := inSelection && index == stop
      (if opens then "\x1b[7m".toList else []) ++ (if closes then "\x1b[0m".toList else []) ++
        c :: renderSelectedFrom start stop (index + c.utf8Size) (inSelection && !closes) rest

def renderSelectedText (text : List Char) (start stop : Nat) : List Char :=
  renderSelectedFrom start stop 0 false text

def slashCommandPrefix (line : List Char) (pos : Nat) : Option (Option (List Char)) :=
  if pos ≠ byteLen line then some none
  else do
    let start ← upTo line pos
    if start.any Text.isWhitespace ∨ start.head? ≠ some '/' then return none
    return some start

/-! ## The session -/

namespace EditSession

def new (vimEnabled : Bool) : EditSession where
  mode := if vimEnabled then .insert else .plain

variable (session : EditSession)

def activeText : List Char :=
  if session.mode = .command then session.commandBuffer else session.text

def currentLen : Nat := byteLen session.activeText

def hasInput : Bool := !session.activeText.isEmpty

def setTextFromHistory (entry : List Char) : EditSession :=
  { session with
    text := entry
    cursor := byteLen entry
    pendingOperator := none
    visualAnchor := none
    mode := if session.mode ≠ .plain ∧ session.mode ≠ .insert then .normal else session.mode }

def enterInsertMode : EditSession :=
  { session with mode := .insert, pendingOperator := none, visualAnchor := none }

def enterNormalMode : EditSession :=
  { session with mode := .normal, pendingOperator := none, visualAnchor := none }

def enterVisualMode : EditSession :=
  { session with mode := .visual, pendingOperator := none, visualAnchor := some session.cursor }

def enterCommandMode : EditSession :=
  { session with
    mode := .command
    pendingOperator := none
    visualAnchor := none
    commandBuffer := [':']
    commandCursor := byteLen [':'] }

def exitCommandMode : EditSession :=
  { session with commandBuffer := [], commandCursor := 0 }.enterNormalMode

def visibleBuffer : Option (List Char) :=
  if session.mode ≠ .visual then some session.activeText
  else
    match session.visualAnchor with
    | none => some session.activeText
    | some anchor => do
        match ← selectionBounds session.text anchor session.cursor with
        | none => return session.activeText
        | some (start, stop) => return renderSelectedText session.text start stop

/-- The row and the column of the cursor, and the number of lines. -/
def cursorLayout (prompt : List Char) : Option (Nat × Nat × Nat) := do
  let activeText := session.activeText
  let cursor := if session.mode = .command then session.commandCursor else session.cursor
  let before ← upTo activeText cursor
  let column :=
    if '\n' ∈ before then (before.reverse.takeWhile (· ≠ '\n')).length
    else prompt.length + before.length
  return (before.count '\n', column, activeText.count '\n' + 1)

/-- What `render` writes, and where the cursor is put. -/
def render (basePrompt : List Char) : Option (List Char × Nat × Nat × Nat) := do
  let buffer ← session.visibleBuffer
  return (basePrompt ++ buffer, ← session.cursorLayout basePrompt)

/-! ## Editing and moving -/

def insertActiveText (text : List Char) : Option EditSession :=
  if session.mode = .command then do
    let commandBuffer ← insertStr session.commandBuffer session.commandCursor text
    return { session with commandBuffer, commandCursor := session.commandCursor + byteLen text }
  else do
    let edited ← insertStr session.text session.cursor text
    return { session with text := edited, cursor := session.cursor + byteLen text }

def moveLeft : Option EditSession :=
  if session.mode = .command then do
    return { session with
      commandCursor := ← previousCommandBoundary session.commandBuffer session.commandCursor }
  else do return { session with cursor := ← previousBoundary session.text session.cursor }

def moveRight : Option EditSession :=
  if session.mode = .command then do
    return { session with
      commandCursor := ← nextBoundary session.commandBuffer session.commandCursor }
  else do return { session with cursor := ← nextBoundary session.text session.cursor }

def moveLineStart : Option EditSession :=
  if session.mode = .command then some { session with commandCursor := 1 }
  else do return { session with cursor := ← lineStart session.text session.cursor }

def moveLineEnd : Option EditSession :=
  if session.mode = .command then
    some { session with commandCursor := byteLen session.commandBuffer }
  else do return { session with cursor := ← lineEnd session.text session.cursor }

def moveRows (delta : Int) : Option EditSession :=
  if session.mode = .command then some session
  else do return { session with cursor := ← moveVertical session.text session.cursor delta }

def moveUp : Option EditSession := session.moveRows (-1)

def moveDown : Option EditSession := session.moveRows 1

def deleteCharUnderCursor : Option EditSession :=
  if session.mode = .command then
    if session.commandCursor < byteLen session.commandBuffer then do
      let stop ← nextBoundary session.commandBuffer session.commandCursor
      return { session with
        commandBuffer := ← drain session.commandBuffer session.commandCursor stop }
    else some session
  else if session.cursor < byteLen session.text then do
    let stop ← nextBoundary session.text session.cursor
    return { session with text := ← drain session.text session.cursor stop }
  else some session

def handleEscape : Option EditSession :=
  match session.mode with
  | .plain | .normal => some session
  | .insert => do
      let cursor ← if 0 < session.cursor then previousBoundary session.text session.cursor
        else some session.cursor
      return { session with cursor }.enterNormalMode
  | .visual => some session.enterNormalMode
  | .command => some session.exitCommandMode

def handleBackspace : Option EditSession :=
  match session.mode with
  | .normal | .visual => session.moveLeft
  | .command =>
      if session.commandCursor ≤ 1 then some session.exitCommandMode
      else do
        let (commandBuffer, commandCursor) ←
          removePreviousChar session.commandBuffer session.commandCursor
        return { session with commandBuffer, commandCursor }
  | .plain | .insert => do
      let (text, cursor) ← removePreviousChar session.text session.cursor
      return { session with text, cursor }

end EditSession

/-! ## The editor -/

/-- What an operation of the editor leaves of it and of its session. -/
abbrev Edited : Type := Option (LineEditor × EditSession)

namespace LineEditor

variable (editor : LineEditor) (session : EditSession)

def deleteCurrentLine : Edited := do
  let (lineStartIdx, lineEndIdx, deleteStartIdx) ←
    currentLineDeleteRange session.text session.cursor
  let yanked ← slice session.text lineStartIdx lineEndIdx
  let text ← drain session.text deleteStartIdx lineEndIdx
  return ({ editor with yankBuffer := ⟨yanked, true⟩ },
    { session with text, cursor := min deleteStartIdx (byteLen text) })

def yankCurrentLine : Edited := do
  let (lineStartIdx, lineEndIdx, _) ← currentLineDeleteRange session.text session.cursor
  let yanked ← slice session.text lineStartIdx lineEndIdx
  return ({ editor with yankBuffer := ⟨yanked, true⟩ }, session)

/-- What is pasted of a line at `insertAt`, with the newlines it lacks there. -/
def linewiseInsertion (text yanked : List Char) (insertAt : Nat) : List Char :=
  let insertion :=
    if insertAt = byteLen text ∧ text ≠ [] ∧ text.getLast? ≠ some '\n' then '\n' :: yanked
    else yanked
  if insertAt < byteLen text ∧ insertion.getLast? ≠ some '\n' then insertion ++ ['\n']
  else insertion

def pasteAfter : Option EditSession :=
  if editor.yankBuffer.text = [] then some session
  else if editor.yankBuffer.linewise then do
    let lineEndIdx ← lineEnd session.text session.cursor
    let insertAt := if lineEndIdx < byteLen session.text then lineEndIdx + 1
      else byteLen session.text
    let insertion := linewiseInsertion session.text editor.yankBuffer.text insertAt
    let text ← insertStr session.text insertAt insertion
    return { session with
      text, cursor := if insertion.head? = some '\n' then insertAt + 1 else insertAt }
  else do
    let insertAt ← nextBoundary session.text session.cursor
    let text ← insertStr session.text insertAt editor.yankBuffer.text
    return { session with text, cursor := insertAt + byteLen editor.yankBuffer.text }

/-- A candidate in the place of what is before the cursor. -/
def complete (candidate : List Char) : Option EditSession := do
  let rest ← startingAt session.text session.cursor
  return { session with text := candidate ++ rest, cursor := byteLen candidate }

/-- The completion that goes on with the candidates of the one before. -/
def continued : Option CompletionState :=
  (editor.completionState.filter fun _ => session.cursor = byteLen session.text).filter
    fun state => state.candidates.any fun candidate => candidate = session.text

def completeSlashCommand : Edited :=
  if session.mode = .command then some ({ editor with completionState := none }, session)
  else
    match editor.continued session with
    | some state => do
        let candidate ← state.candidates[state.nextIndex % state.candidates.length]?
        let state := { state with nextIndex := state.nextIndex + 1 }
        return ({ editor with completionState := some state }, ← complete session candidate)
    | none => do
        match ← slashCommandPrefix session.text session.cursor with
        | none => return ({ editor with completionState := none }, session)
        | some start =>
            let candidates := editor.completions.filter fun candidate =>
              start.isPrefixOf candidate && candidate ≠ start
            if candidates = [] then return ({ editor with completionState := none }, session)
            match editor.completionState.filter fun state =>
                state.start = start && state.candidates = candidates with
            | some state =>
                let candidate ← state.candidates[state.nextIndex % state.candidates.length]?
                let state := { state with nextIndex := state.nextIndex + 1 }
                return ({ editor with completionState := some state }, ← complete session candidate)
            | none =>
                let candidate ← candidates[0]?
                return ({ editor with completionState := some ⟨start, candidates, 1⟩ },
                  ← complete session candidate)

def historyUp : Option EditSession :=
  if session.mode = .command ∨ editor.history = [] then some session
  else do
    let nextIndex := match session.historyIndex with
      | some index => index - 1
      | none => editor.history.length - 1
    let session := match session.historyIndex with
      | some _ => session
      | none => { session with historyBackup := some session.text }
    let entry ← editor.history[nextIndex]?
    return { session with historyIndex := some nextIndex }.setTextFromHistory entry

def historyDown : Option EditSession :=
  if session.mode = .command then some session
  else
    match session.historyIndex with
    | none => some session
    | some index =>
        if index + 1 < editor.history.length then do
          let entry ← editor.history[index + 1]?
          return { session with historyIndex := some (index + 1) }.setTextFromHistory entry
        else
          let restored := { session with historyIndex := none, historyBackup := none }
            |>.setTextFromHistory (session.historyBackup.getD [])
          some (if editor.vimEnabled then restored.enterInsertMode
            else { restored with mode := .plain })

def handleNormalChar (ch : Char) : Edited :=
  let operator := session.pendingOperator
  let session := { session with pendingOperator := none }
  if operator = some 'd' ∧ ch = 'd' then deleteCurrentLine editor session
  else if operator = some 'y' ∧ ch = 'y' then yankCurrentLine editor session
  else if ch = 'h' then session.moveLeft.map (editor, ·)
  else if ch = 'j' then session.moveDown.map (editor, ·)
  else if ch = 'k' then session.moveUp.map (editor, ·)
  else if ch = 'l' then session.moveRight.map (editor, ·)
  else if ch = 'd' ∨ ch = 'y' then some (editor, { session with pendingOperator := some ch })
  else if ch = 'p' then (pasteAfter editor session).map (editor, ·)
  else if ch = 'i' then some (editor, session.enterInsertMode)
  else if ch = 'v' then some (editor, session.enterVisualMode)
  else if ch = ':' then some (editor, session.enterCommandMode)
  else some (editor, session)

def handleVisualChar (ch : Char) : Option EditSession :=
  if ch = 'h' then session.moveLeft
  else if ch = 'j' then session.moveDown
  else if ch = 'k' then session.moveUp
  else if ch = 'l' then session.moveRight
  else if ch = 'v' then some session.enterNormalMode
  else some session

def handleChar (ch : Char) : Edited :=
  match session.mode with
  | .plain | .insert | .command => (session.insertActiveText [ch]).map (editor, ·)
  | .normal => handleNormalChar editor session ch
  | .visual => (handleVisualChar session ch).map (editor, ·)

def submitOrToggle : KeyAction :=
  if Text.trim session.activeText = "/vim".toList then .toggleVim else .submit session.activeText

/-- The session goes on. -/
def goOn (edited : Edited) : Option (KeyAction × LineEditor × EditSession) :=
  edited.map (.continue, ·)

def newline : Option EditSession :=
  if session.mode ≠ .normal ∧ session.mode ≠ .visual then session.insertActiveText ['\n']
  else some session

def handleKeyEvent (key : KeyEvent) : Option (KeyAction × LineEditor × EditSession) :=
  let editor := if key.code ≠ .tab then { editor with completionState := none } else editor
  let on := fun (edited : Option EditSession) => goOn (edited.map (editor, ·))
  if key.control ∧ (key.code = .char 'c' ∨ key.code = .char 'C') then
    some (if session.hasInput then .cancel else .exit, editor, session)
  else if key.control ∧ (key.code = .char 'j' ∨ key.code = .char 'J') then on (newline session)
  else if key.control ∧ (key.code = .char 'd' ∨ key.code = .char 'D') then
    if session.currentLen = 0 then some (.exit, editor, session)
    else on session.deleteCharUnderCursor
  else
    match key.code with
    | .enter =>
        if key.shift then on (newline session) else some (submitOrToggle session, editor, session)
    | .esc => on session.handleEscape
    | .backspace => on session.handleBackspace
    | .delete => on session.deleteCharUnderCursor
    | .left => on session.moveLeft
    | .right => on session.moveRight
    | .up => on (historyUp editor session)
    | .down => on (historyDown editor session)
    | .home => on session.moveLineStart
    | .end => on session.moveLineEnd
    | .tab => goOn (completeSlashCommand editor session)
    | .char c => goOn (handleChar editor session c)
    | .other => on (some session)

end LineEditor

end Openyak.Cli
