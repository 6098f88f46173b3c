/-
# Runtime.StreamParser -- the incremental parser of event streams

The parser keeps the text behind the last newline and the fields of the event under way.
The lines that end in a text do not depend on how it was cut (`lineFramer`), so neither do the
events and what is kept, and events that are written out are read back (`parse_cut`).
-/
import Openyak.Theory.Decimal
import Openyak.Theory.Framing
import Openyak.Theory.Lines
import Openyak.Theory.Scanning

namespace Openyak.Runtime.Sse

open Openyak.Theory
open Openyak.Theory.Framing

set_option autoImplicit false

structure SseEvent where
  event : Option (List Char)
  data : List Char
  id : Option (List Char)
  retry : Option UInt64
  deriving DecidableEq

/-- What the parser keeps of the event under way. -/
structure Pending where
  eventName : Option (List Char) := none
  dataLines : List (List Char) := []
  id : Option (List Char) := none
  retry : Option UInt64 := none
  deriving DecidableEq

structure IncrementalSseParser where
  buffer : List Char := []
  pending : Pending := {}
  deriving DecidableEq

def takeEvent (pending : Pending) : Pending × List SseEvent :=
  if pending = {} then (pending, [])
  else ({}, [⟨pending.eventName, Text.joinLines pending.dataLines, pending.id, pending.retry⟩])

/-- A line's field and value, one space in front of the value left out. -/
def fieldOf (line : List Char) : List Char × List Char :=
  match Text.splitOnce ":" line with
  | none => (line, [])
  | some (field, value) => (field, (Text.stripPrefix " " value).getD value)

def setField (pending : Pending) (field value : List Char) : Pending :=
  if field = "event".toList then { pending with eventName := some value }
  else if field = "data".toList then { pending with dataLines := pending.dataLines ++ [value] }
  else if field = "id".toList then { pending with id := some value }
  else if field = "retry".toList then { pending with retry := Decimal.parseU64 value }
  else pending

def processLine (pending : Pending) (line : List Char) : Pending × List SseEvent :=
  if line = [] then takeEvent pending
  else if line.head? = some ':' then (pending, [])
  else (setField pending (fieldOf line).1 (fieldOf line).2, [])

/-- `String::pop`, where the text ends with the character. -/
def popIf (c : Char) (text : List Char) : List Char :=
  if text.getLast? = some c then text.dropLast else text

def stripLine (line : List Char) : List Char := popIf '\r' (popIf '\n' line)

def processLines (pending : Pending) : List (List Char) → Pending × List SseEvent
  | [] => (pending, [])
  | line :: lines =>
      let first := processLine pending line
      let rest := processLines first.1 lines
      (rest.1, first.2 ++ rest.2)

/-- `find('\n')` and `drain(..=index)`. -/
def lineFramer : Framer Char where
  next buffer := (Text.splitOnce "\n" buffer).map fun parts => (parts.1 ++ ['\n'], parts.2)
  append_eq := by
    intro buffer frame rest found
    obtain ⟨⟨line, behind⟩, split, same⟩ := Option.map_eq_some_iff.mp found
    cases same
    exact (Text.splitOnce_some split).symm
  nonempty := by
    intro buffer frame rest found
    obtain ⟨parts, -, same⟩ := Option.map_eq_some_iff.mp found
    cases same
    simp

theorem lineFramer_stable : lineFramer.Stable := by
  intro buffer frame rest more found
  obtain ⟨parts, split, same⟩ := Option.map_eq_some_iff.mp found
  cases same
  exact Option.map_eq_some_iff.mpr ⟨_, Text.splitOnce_extend (by decide) split more, rfl⟩

example : lineFramer.next "a\nb".toList = some ("a\n".toList, "b".toList) := by
  decide +kernel

def pushChunk (parser : IncrementalSseParser) (chunk : List Char) :
    IncrementalSseParser × List SseEvent :=
  let drained := lineFramer.frames (parser.buffer ++ chunk)
  let processed := processLines parser.pending (drained.1.map stripLine)
  (⟨drained.2, processed.1⟩, processed.2)

def finish (parser : IncrementalSseParser) : IncrementalSseParser × List SseEvent :=
  let last :=
    if parser.buffer = [] then (parser.pending, [])
    else processLine parser.pending (Text.trimEndMatches ['\r'] parser.buffer)
  let taken := takeEvent last.1
  (⟨[], taken.1⟩, last.2 ++ taken.2)

/-- The chunks pushed in order. -/
def pushChunks (parser : IncrementalSseParser) : List (List Char) →
    IncrementalSseParser × List SseEvent
  | [] => (parser, [])
  | chunk :: chunks =>
      let first := pushChunk parser chunk
      let rest := pushChunks first.1 chunks
      (rest.1, first.2 ++ rest.2)

/-- The chunks pushed in order, and the end. -/
def parse (parser : IncrementalSseParser) (chunks : List (List Char)) :
    IncrementalSseParser × List SseEvent :=
  let pushed := pushChunks parser chunks
  let finished := finish pushed.1
  (finished.1, pushed.2 ++ finished.2)

/-! ## Any cut -/

theorem processLines_append (pending : Pending) (lines others : List (List Char)) :
    processLines pending (lines ++ others) =
      ((processLines (processLines pending lines).1 others).1,
        (processLines pending lines).2 ++ (processLines (processLines pending lines).1 others).2) := by
  induction lines generalizing pending with
  | nil => rfl
  | cons line lines induction =>
      simp only [List.cons_append, processLines, induction, List.append_assoc]

/-- **Chunks are pushed as their text is.** -/
theorem pushChunks_eq (parser : IncrementalSseParser) (chunks : List (List Char))
    (unended : lineFramer.next parser.buffer = none) :
    pushChunks parser chunks = pushChunk parser chunks.flatten := by
  induction chunks generalizing parser with
  | nil =>
      rw [pushChunks, pushChunk, List.flatten_nil, List.append_nil,
        lineFramer.frames_of_none unended]
      rfl
  | cons chunk chunks induction =>
      have left : lineFramer.next (pushChunk parser chunk).1.buffer = none :=
        lineFramer.next_frames_rest (parser.buffer ++ chunk)
      rw [pushChunks, induction _ left]
      simp only [pushChunk, List.flatten_cons, ← List.append_assoc,
        lineFramer.frames_append lineFramer_stable (parser.buffer ++ chunk), List.map_append,
        processLines_append]

/-! ## Events written out -/

def Unbroken (text : List Char) : Prop := ∀ c ∈ text, c ≠ '\n' ∧ c ≠ '\r'

/-- No field of the event has a line break. -/
structure OneLine (event : SseEvent) : Prop where
  name : ∀ name ∈ event.event, Unbroken name
  data : Unbroken event.data
  id : ∀ id ∈ event.id, Unbroken id

def fieldLine (field : String) (value : List Char) : List Char := field.toList ++ ':' :: ' ' :: value

/-- The lines of an event, the empty one that ends it included. -/
def eventLines (event : SseEvent) : List (List Char) :=
  (event.event.map (fieldLine "event")).toList ++ [fieldLine "data" event.data] ++
    (event.id.map (fieldLine "id")).toList ++
    (event.retry.map fun retry => fieldLine "retry" (Decimal.format retry).toList).toList ++ [[]]

/-- Events written out with one kind of line end. -/
def render (lineEnd : List Char) (events : List SseEvent) : List Char :=
  (events.flatMap eventLines).flatMap (· ++ lineEnd)

theorem unbroken_fieldLine {field : String} (plain : Unbroken field.toList) {value : List Char}
    (unbroken : Unbroken value) : Unbroken (fieldLine field value) := by
  intro c member
  rcases List.mem_append.mp member with inField | later
  · exact plain c inField
  · simp only [List.mem_cons] at later
    rcases later with rfl | rfl | inValue
    · decide
    · decide
    · exact unbroken c inValue

theorem unbroken_format (value : UInt64) : Unbroken (Decimal.format value).toList := by
  intro c member
  rw [Decimal.toList_format] at member
  have digit := Nat.isDigit_of_mem_toDigits (by decide) (by decide) member
  constructor <;> rintro rfl <;> exact absurd digit (by decide)

theorem unbroken_eventLines {event : SseEvent} (oneLine : OneLine event) :
    ∀ line ∈ eventLines event, Unbroken line := by
  have plain : Unbroken "event".toList ∧ Unbroken "data".toList ∧ Unbroken "id".toList ∧
      Unbroken "retry".toList := by
    simp [Unbroken]
  simp only [eventLines, List.mem_append, Option.mem_toList,
    Option.map_eq_some_iff, List.mem_singleton]
  rintro line ((((⟨name, isName, rfl⟩ | rfl) | ⟨id, isId, rfl⟩) | ⟨retry, -, rfl⟩) | rfl)
  · exact unbroken_fieldLine plain.1 (oneLine.name name isName)
  · exact unbroken_fieldLine plain.2.1 oneLine.data
  · exact unbroken_fieldLine plain.2.2.1 (oneLine.id id isId)
  · exact unbroken_fieldLine plain.2.2.2 (unbroken_format retry)
  · exact fun c member => absurd member List.not_mem_nil

/-! ## Lines read back -/

section Lines

variable {lineEnd : List Char} (ends : lineEnd = ['\n'] ∨ lineEnd = ['\r', '\n'])

theorem next_line {line : List Char} (unbroken : '\n' ∉ line) (rest : List Char) :
    lineFramer.next (line ++ '\n' :: rest) = some (line ++ ['\n'], rest) :=
  Option.map_eq_some_iff.mpr ⟨_, Text.splitOnce_first rfl unbroken rest, rfl⟩

include ends

theorem stripLine_lineEnd {line : List Char} (unbroken : Unbroken line) :
    stripLine (line ++ lineEnd) = line := by
  have last : line.getLast? ≠ some '\r' := fun isLast =>
    (unbroken _ (List.mem_of_getLast? isLast)).2 rfl
  rcases ends with rfl | rfl
  · simp [stripLine, popIf, last]
  · have split : line ++ ['\r', '\n'] = (line ++ ['\r']) ++ ['\n'] := by simp
    rw [split]
    simp [stripLine, popIf]

theorem frames_lines {lines : List (List Char)} (unbroken : ∀ line ∈ lines, Unbroken line) :
    lineFramer.frames (lines.flatMap (· ++ lineEnd)) = (lines.map (· ++ lineEnd), []) := by
  induction lines with
  | nil => exact lineFramer.frames_of_none rfl
  | cons line lines induction =>
      rw [List.forall_mem_cons] at unbroken
      have first : lineFramer.next ((line ++ lineEnd) ++ lines.flatMap (· ++ lineEnd)) =
          some (line ++ lineEnd, lines.flatMap (· ++ lineEnd)) := by
        have noNewline : '\n' ∉ line := fun member => (unbroken.1 _ member).1 rfl
        rcases ends with rfl | rfl
        · simpa using next_line noNewline (lines.flatMap (· ++ ['\n']))
        · have noNewline : '\n' ∉ line ++ ['\r'] := by simpa using noNewline
          simpa using next_line noNewline (lines.flatMap (· ++ ['\r', '\n']))
      rw [List.flatMap_cons, lineFramer.frames_of_some first, induction unbroken.2]
      rfl

end Lines

theorem processLine_field {field : String} (plain : ':' ∉ field.toList) (some_ : field.toList ≠ [])
    (pending : Pending) (value : List Char) :
    processLine pending (fieldLine field value) = (setField pending field.toList value, []) := by
  have solid : fieldLine field value ≠ [] := by simp [fieldLine]
  have noComment : (fieldLine field value).head? ≠ some ':' := by
    obtain ⟨c, more, isField⟩ := List.exists_cons_of_ne_nil some_
    rw [isField, List.mem_cons, not_or] at plain
    simpa [fieldLine, isField] using Ne.symm plain.1
  have parts : fieldOf (fieldLine field value) = (field.toList, value) := by
    rw [fieldOf, fieldLine, Text.splitOnce_first rfl plain]
    rfl
  rw [processLine, if_neg solid, if_neg noComment, parts]

theorem processLines_event (event : SseEvent) :
    processLines {} (eventLines event) = ({}, [event]) := by
  have name := processLine_field (show ':' ∉ "event".toList by decide) (by decide)
  have data := processLine_field (show ':' ∉ "data".toList by decide) (by decide)
  have id := processLine_field (show ':' ∉ "id".toList by decide) (by decide)
  have retry := processLine_field (show ':' ∉ "retry".toList by decide) (by decide)
  have blank (pending : Pending) : processLine pending [] = takeEvent pending := rfl
  obtain ⟨isName, isData, isId, isRetry⟩ := event
  cases isName <;> cases isId <;> cases isRetry <;>
    simp [eventLines, processLines, name, data, id, retry, blank, setField, takeEvent,
      Decimal.parseU64_format, Text.joinLines_singleton]

theorem processLines_events (events : List SseEvent) :
    processLines {} (events.flatMap eventLines) = ({}, events) := by
  induction events with
  | nil => rfl
  | cons event events induction =>
      rw [List.flatMap_cons, processLines_append, processLines_event, induction]
      rfl

/-- **The parser does not see the cut**: chunks of one text give the same events and leave the
same state, and any chunks of a text that was written out give the events written. -/
theorem parse_cut :
    (∀ chunks others : List (List Char), chunks.flatten = others.flatten →
      pushChunks {} chunks = pushChunks {} others ∧ parse {} chunks = parse {} others) ∧
    ∀ (lineEnd : List Char) (events : List SseEvent) (chunks : List (List Char)),
      lineEnd = ['\n'] ∨ lineEnd = ['\r', '\n'] → (∀ event ∈ events, OneLine event) →
      chunks.flatten = render lineEnd events → pushChunks {} chunks = ({}, events) := by
  constructor
  · intro chunks others same
    have pushed : pushChunks {} chunks = pushChunks {} others := by
      rw [pushChunks_eq {} chunks rfl, pushChunks_eq {} others rfl, same]
    exact ⟨pushed, by rw [parse, parse, pushed]⟩
  · intro lineEnd events chunks ends oneLine written
    have unbroken : ∀ line ∈ events.flatMap eventLines, Unbroken line := by
      intro line member
      obtain ⟨event, isEvent, isLine⟩ := List.mem_flatMap.mp member
      exact unbroken_eventLines (oneLine event isEvent) line isLine
    have stripped : ((events.flatMap eventLines).map (· ++ lineEnd)).map stripLine =
        events.flatMap eventLines := by
      rw [List.map_map]
      refine (List.map_congr_left fun line member => ?_).trans (List.map_id _)
      exact stripLine_lineEnd ends (unbroken line member)
    rw [pushChunks_eq {} chunks rfl, written, pushChunk, List.nil_append, render,
      frames_lines ends unbroken]
    simp only [stripped, processLines_events]

end Openyak.Runtime.Sse
