/-
# Sdk.ServerStream -- the event stream the server writes

Blocks of lines (`Block`): an event with its name and its data, among comments, or
comments alone.  A line ends in LF or CRLF.  The data is a compact JSON text, so there is
no line end in it, and an empty line stands between any two data lines
(`isolated_stream`).
-/
import Openyak.Sdk.FrameLines
import Openyak.Theory.CompactJson

namespace Openyak.Sdk

open Openyak.Theory
open Openyak.Theory.Framing
open Openyak.Theory.Utf8Stream

set_option autoImplicit false

/-! ## The stream -/

inductive LineEnd where
  | lf
  | crlf
  deriving DecidableEq, Repr

def LineEnd.chars : LineEnd → List Char
  | .lf => ['\n']
  | .crlf => ['\r', '\n']

/-- A line without a line end in it, and its end. -/
structure EndedLine where
  text : List Char
  flat : ∀ c ∈ text, c ≠ '\r' ∧ c ≠ '\n'
  ending : LineEnd

def textOf (lines : List EndedLine) : List Char :=
  lines.flatMap fun line => line.text ++ line.ending.chars

/-- The event types of the server. -/
def eventTypes : List String :=
  ["thread.snapshot", "thread.resync_required", "run.started", "user_input.submitted",
    "assistant.text.delta", "assistant.tool_use", "assistant.request_user_input",
    "assistant.usage", "assistant.message_stop", "assistant.tool_result", "run.completed",
    "run.waiting_user_input", "run.failed"]

structure ThreadEventEnvelope where
  threadId : String
  runId : Option String
  sequence : UInt64
  timestampMs : UInt64
  eventType : String
  known : eventType ∈ eventTypes
  payload : Json

/-- The fields as they are declared, without a `run_id` that is `None`. -/
def ThreadEventEnvelope.fields (envelope : ThreadEventEnvelope) : List (String × Json) :=
  [("protocol_version", .string "v1"), ("thread_id", .string envelope.threadId)] ++
    envelope.runId.toList.map (fun runId => ("run_id", .string runId)) ++
    [("sequence", .number (.posInt envelope.sequence)),
      ("timestamp_ms", .number (.posInt envelope.timestampMs)),
      ("type", .string envelope.eventType), ("payload", envelope.payload)]

/-- `:` and a text. -/
structure Comment where
  text : List Char
  flat : ∀ c ∈ text, c ≠ '\r' ∧ c ≠ '\n'
  ending : LineEnd

/-- An event line, a data line and an empty line, with comments among them. -/
structure EventFrame where
  envelope : ThreadEventEnvelope
  before : List Comment
  eventEnd : LineEnd
  between : List Comment
  dataEnd : LineEnd
  behind : List Comment
  blankEnd : LineEnd

inductive Block where
  | event (frame : EventFrame)
  | quiet (comments : List Comment) (blankEnd : LineEnd)

def Block.envelope? : Block → Option ThreadEventEnvelope
  | .event frame => some frame.envelope
  | .quiet .. => none

def Block.comments : Block → List Comment
  | .event frame => frame.before ++ frame.between ++ frame.behind
  | .quiet comments _ => comments

/-- The events of a stream. -/
def eventsOf (blocks : List Block) : List ThreadEventEnvelope :=
  blocks.filterMap Block.envelope?

def Comment.line (comment : Comment) : EndedLine where
  text := ':' :: comment.text
  flat := by
    intro c member
    obtain rfl | member := List.mem_cons.1 member
    · decide
    · exact comment.flat c member
  ending := comment.ending

theorem eventTypes_plain : ∀ eventType ∈ eventTypes, ∀ c ∈ eventType.toList,
    isLineBreak c = false ∧ c ≠ '\r' ∧ c ≠ '\n' := by
  have all : eventTypes.all (fun eventType => eventType.toList.all fun c =>
      isLineBreak c = false ∧ c ≠ '\r' ∧ c ≠ '\n') := by decide +kernel
  intro eventType known c member
  exact of_decide_eq_true (List.all_eq_true.1 (List.all_eq_true.1 all eventType known) c member)

theorem flat_label {label text : List Char} (start : ∀ c ∈ label, c ≠ '\r' ∧ c ≠ '\n')
    (flat : ∀ c ∈ text, c ≠ '\r' ∧ c ≠ '\n') : ∀ c ∈ label ++ text, c ≠ '\r' ∧ c ≠ '\n' := by
  intro c member
  obtain here | there := List.mem_append.1 member
  · exact start c here
  · exact flat c there

def eventLine (envelope : ThreadEventEnvelope) (ending : LineEnd) : EndedLine where
  text := "event: ".toList ++ envelope.eventType.toList
  flat := flat_label (by simp) fun c member =>
    (eventTypes_plain envelope.eventType envelope.known c member).2
  ending := ending

def blankLine (ending : LineEnd) : EndedLine := ⟨[], nofun, ending⟩

section Stream

variable (numbers : NumberWriter)

theorem compact_flat (value : Json) : ∀ c ∈ value.compact numbers, c ≠ '\r' ∧ c ≠ '\n' := by
  intro c member
  have printable := (value.compact_tidy numbers).printable c member
  constructor
  · rintro rfl
    exact absurd printable (by decide)
  · rintro rfl
    exact absurd printable (by decide)

/-- The JSON text of an event. -/
def ThreadEventEnvelope.data (envelope : ThreadEventEnvelope) : List Char :=
  (Json.object envelope.fields).compact numbers

def dataLine (envelope : ThreadEventEnvelope) (ending : LineEnd) : EndedLine where
  text := "data: ".toList ++ envelope.data numbers
  flat := flat_label (by simp) (compact_flat numbers _)
  ending := ending

/-- `to_sse_event`, and what stands around it. -/
def Block.lines : Block → List EndedLine
  | .event frame =>
      frame.before.map Comment.line ++ eventLine frame.envelope frame.eventEnd ::
        (frame.between.map Comment.line ++ dataLine numbers frame.envelope frame.dataEnd ::
          (frame.behind.map Comment.line ++ [blankLine frame.blankEnd]))
  | .quiet comments blankEnd => comments.map Comment.line ++ [blankLine blankEnd]

def streamLines (blocks : List Block) : List EndedLine := blocks.flatMap (Block.lines numbers)

def streamText (blocks : List Block) : List Char := textOf (streamLines numbers blocks)

end Stream

/-! ## Its data lines -/

section DataLines

variable {isSpace : Char → Bool} {numbers : NumberWriter}

def texts (lines : List EndedLine) : List (List Char) := lines.map EndedLine.text

/-- A line that is neither empty nor a data line. -/
def Inert (line : List Char) : Prop := line ≠ [] ∧ startsWith line "data:" = false

theorem Comment.inert (comment : Comment) : Inert comment.line.text :=
  ⟨List.cons_ne_nil _ _, rfl⟩

theorem eventLine_inert (envelope : ThreadEventEnvelope) (ending : LineEnd) :
    Inert (eventLine envelope ending).text := ⟨List.cons_ne_nil _ _, rfl⟩

theorem comments_inert (comments : List Comment) :
    ∀ line ∈ texts (comments.map Comment.line), Inert line := by
  intro line member
  obtain ⟨_, written, rfl⟩ := List.mem_map.1 member
  obtain ⟨comment, -, rfl⟩ := List.mem_map.1 written
  exact comment.inert

theorem isolated_inert {opened : Bool} {lines rest : List (List Char)}
    (inert : ∀ line ∈ lines, Inert line) :
    Isolated opened (lines ++ rest) ↔ Isolated opened rest := by
  induction lines with
  | nil => rfl
  | cons line lines ih =>
      obtain ⟨solid, other⟩ := inert line List.mem_cons_self
      rw [List.cons_append, Isolated, if_neg solid, other, if_neg Bool.false_ne_true]
      exact ih fun line member => inert line (List.mem_cons_of_mem _ member)

theorem dataOf_inert {lines : List (List Char)} (inert : ∀ line ∈ lines, Inert line) :
    lines.filterMap (dataOf isSpace) = [] := by
  apply List.filterMap_eq_nil_iff.2
  intro line member
  simp [dataOf, (inert line member).2]

/-- The text of an event begins with its brace. -/
theorem data_brace (numbers : NumberWriter) (envelope : ThreadEventEnvelope) :
    ∃ behind, envelope.data numbers = '\x7b' :: behind := ⟨_, rfl⟩

/-- The blank behind `data:` goes, and the brace stays. -/
theorem dataOf_data {text : List Char} (blank : isSpace ' ' = true)
    (brace : isSpace '\x7b' = false) :
    dataOf isSpace ("data: ".toList ++ '\x7b' :: text) = some ('\x7b' :: text) := by
  have start : startsWith ("data: ".toList ++ '\x7b' :: text) "data:" = true := rfl
  have drop : ("data: ".toList ++ '\x7b' :: text).drop 5 = ' ' :: '\x7b' :: text := rfl
  rw [dataOf, start, if_pos rfl, drop, dropSpaces, List.dropWhile_cons, if_pos blank,
    List.dropWhile_cons, if_neg (by simp [brace])]

theorem isolated_block (block : Block) (rest : List (List Char)) :
    Isolated false (texts (block.lines numbers) ++ rest) ↔ Isolated false rest := by
  have blank : ∀ {opened : Bool} (ending : LineEnd),
      Isolated opened ((blankLine ending).text :: rest) ↔ Isolated false rest := by
    intro opened ending
    show Isolated opened ([] :: rest) ↔ _
    rw [Isolated, if_pos rfl]
  cases block with
  | quiet comments blankEnd =>
      simp only [Block.lines, texts, List.map_append, List.append_assoc, List.map_cons,
        List.map_nil, List.singleton_append]
      exact (isolated_inert (comments_inert comments)).trans (blank blankEnd)
  | event frame =>
      have data : ∀ more, Isolated false ((dataLine numbers frame.envelope frame.dataEnd).text ::
          more) ↔ Isolated true more := by
        intro more
        have solid : (dataLine numbers frame.envelope frame.dataEnd).text ≠ [] :=
          List.cons_ne_nil _ _
        have start :
            startsWith (dataLine numbers frame.envelope frame.dataEnd).text "data:" = true := rfl
        rw [Isolated, if_neg solid, start]
        simp
      have name : ∀ more, Isolated false ((eventLine frame.envelope frame.eventEnd).text ::
          more) ↔ Isolated false more := by
        intro more
        have inert := eventLine_inert frame.envelope frame.eventEnd
        rw [Isolated, if_neg inert.1, inert.2, if_neg Bool.false_ne_true]
      simp only [Block.lines, texts, List.map_append, List.append_assoc, List.map_cons,
        List.map_nil, List.cons_append, List.nil_append]
      rw [← texts, isolated_inert (comments_inert frame.before), name, ← texts,
        isolated_inert (comments_inert frame.between), data, ← texts,
        isolated_inert (comments_inert frame.behind), blank]

/-- **Between any two data lines stands an empty line.** -/
theorem isolated_stream (numbers : NumberWriter) (blocks : List Block) :
    Isolated false (texts (streamLines numbers blocks)) := by
  induction blocks with
  | nil => rfl
  | cons block blocks ih =>
      rw [streamLines, List.flatMap_cons, texts, List.map_append]
      exact (isolated_block block _).2 ih

theorem data_block (blank : isSpace ' ' = true) (brace : isSpace '\x7b' = false)
    (block : Block) : (texts (block.lines numbers)).filterMap (dataOf isSpace) =
      block.envelope?.toList.map (ThreadEventEnvelope.data numbers) := by
  have empty : ∀ ending : LineEnd, dataOf isSpace (blankLine ending).text = none := fun _ => rfl
  cases block with
  | quiet comments blankEnd =>
      simp only [Block.lines, texts, List.map_append, List.map_cons, List.map_nil]
      rw [← texts, List.filterMap_append, dataOf_inert (comments_inert comments)]
      simp [empty, Block.envelope?]
  | event frame =>
      have name : dataOf isSpace (eventLine frame.envelope frame.eventEnd).text = none := by
        simp [dataOf, (eventLine_inert frame.envelope frame.eventEnd).2]
      have data : dataOf isSpace (dataLine numbers frame.envelope frame.dataEnd).text =
          some (frame.envelope.data numbers) := by
        obtain ⟨behind, json⟩ := data_brace numbers frame.envelope
        show dataOf isSpace ("data: ".toList ++ frame.envelope.data numbers) = _
        rw [json]
        exact dataOf_data blank brace
      simp only [Block.lines, texts, List.map_append, List.map_cons, List.map_nil]
      rw [← texts, ← texts, ← texts, List.filterMap_append,
        dataOf_inert (comments_inert frame.before), List.filterMap_cons, name,
        List.filterMap_append, dataOf_inert (comments_inert frame.between), List.filterMap_cons,
        data, List.filterMap_append, dataOf_inert (comments_inert frame.behind)]
      simp [empty, Block.envelope?]

/-- **The data lines are the events.** -/
theorem data_stream (numbers : NumberWriter) (blank : isSpace ' ' = true)
    (brace : isSpace '\x7b' = false) (blocks : List Block) : (texts (streamLines numbers blocks)).filterMap (dataOf isSpace) =
      (eventsOf blocks).map (ThreadEventEnvelope.data numbers) := by
  induction blocks with
  | nil => rfl
  | cons block blocks ih =>
      have rest := ih
      rw [streamLines, texts] at rest
      rw [streamLines, List.flatMap_cons, texts, List.map_append, List.filterMap_append, rest,
        ← texts, data_block blank brace]
      cases found : block.envelope? with
      | none => simp [eventsOf, found]
      | some envelope => simp [eventsOf, found]

end DataLines

end Openyak.Sdk
