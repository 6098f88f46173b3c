/-
# Sdk.EventDecoding -- do both SDKs read the events the server writes?

TypeScript reads every stream.  Python splits lines also at U+0085, U+2028 and U+2029, and
these stand in a JSON text as they are.  Such a line ends inside of a string, so no JSON
reader takes the data of its frame.  Python reads the events exactly when none of them
holds such a character (`sdks_read_iff`).
-/
import Openyak.Sdk.TypeScriptEvents

namespace Openyak.Sdk

open Openyak.Theory
open Openyak.Theory.Framing
open Openyak.Theory.Utf8Stream

set_option autoImplicit false

/-- Python takes no character of the text for a line end. -/
def Unbroken (text : List Char) : Prop := ∀ c ∈ text, isLineBreak c = false

instance (text : List Char) : Decidable (Unbroken text) :=
  List.decidableBAll (fun c => isLineBreak c = false) text

/-! ## The lines of Python -/

theorem splitlinesAux_unbroken {text : List Char} (unbroken : Unbroken text)
    (more seen : List Char) :
    splitlinesAux (text ++ more) seen = splitlinesAux more (text.reverse ++ seen) := by
  induction text generalizing seen with
  | nil => rfl
  | cons c text ih =>
      have here : isLineBreak c = false := unbroken c List.mem_cons_self
      have notCr : c ≠ '\r' := by
        rintro rfl
        exact absurd here (by decide)
      have rest := ih (fun d member => unbroken d (List.mem_cons_of_mem c member)) (c :: seen)
      rw [List.cons_append, splitlinesAux, here, if_neg Bool.false_ne_true, rest]
      · simp
      · exact fun _ same _ => notCr same

/-- A line break behind a text that has none. -/
theorem splitlines_break {text : List Char} (unbroken : Unbroken text) {c : Char}
    (broken : isLineBreak c = true) (notCr : c ≠ '\r') (more : List Char) :
    splitlines (text ++ c :: more) = text :: splitlines more := by
  rw [splitlines, splitlinesAux_unbroken unbroken, splitlinesAux, broken, if_pos rfl,
    List.append_nil, List.reverse_reverse, splitlines]
  exact fun _ same _ => notCr same

theorem splitlines_line {line : EndedLine} (unbroken : Unbroken line.text) (more : List Char) :
    splitlines (line.text ++ line.ending.chars ++ more) = line.text :: splitlines more := by
  rw [List.append_assoc]
  cases line.ending with
  | lf => exact splitlines_break unbroken rfl (by decide) more
  | crlf =>
      rw [splitlines, splitlinesAux_unbroken unbroken, List.append_nil]
      show splitlinesAux ('\r' :: '\n' :: more) _ = _
      rw [splitlinesAux, List.reverse_reverse, splitlines]

theorem splitlines_lines {lines : List EndedLine}
    (unbroken : ∀ line ∈ lines, Unbroken line.text) (more : List Char) :
    splitlines (textOf lines ++ more) = texts lines ++ splitlines more := by
  induction lines with
  | nil => rfl
  | cons line lines ih =>
      have rest := ih fun other member => unbroken other (List.mem_cons_of_mem line member)
      rw [textOf, List.flatMap_cons, ← textOf, List.append_assoc,
        splitlines_line (unbroken line List.mem_cons_self), rest]
      rfl

theorem rstripCr_flat {line : List Char} (flat : ∀ c ∈ line, c ≠ '\r') :
    rstripCr line = line := by
  have stops : line.reverse.dropWhile (fun c => decide (c = '\r')) = line.reverse := by
    cases reversed : line.reverse with
    | nil => rfl
    | cons c behind =>
        have member : c ∈ line := List.mem_reverse.1 (reversed ▸ List.mem_cons_self)
        rw [List.dropWhile_cons, if_neg (by simpa using flat c member)]
  rw [rstripCr, stops, List.reverse_reverse]

theorem map_rstripCr (lines : List EndedLine) : (texts lines).map rstripCr = texts lines := by
  rw [texts, List.map_map]
  exact List.map_congr_left fun line _ => rstripCr_flat fun c member => (line.flat c member).1

/-! ## Unbroken streams -/

variable {ν ε : Type} {reader : EventReader ν ε} {numbers : NumberWriter}

theorem label_unbroken {label text : List Char} (start : Unbroken label)
    (unbroken : Unbroken text) : Unbroken (label ++ text) := by
  intro c member
  obtain here | there := List.mem_append.1 member
  · exact start c here
  · exact unbroken c there

theorem comment_unbroken {comment : Comment} (unbroken : Unbroken comment.text) :
    Unbroken comment.line.text := label_unbroken (show Unbroken [':'] by decide) unbroken

theorem eventLine_unbroken (envelope : ThreadEventEnvelope) (ending : LineEnd) :
    Unbroken (eventLine envelope ending).text :=
  label_unbroken (by decide) fun c member =>
    (eventTypes_plain envelope.eventType envelope.known c member).1

theorem comments_unbroken {comments : List Comment}
    (unbroken : ∀ comment ∈ comments, Unbroken comment.text) :
    ∀ line ∈ comments.map Comment.line, Unbroken line.text := by
  intro line member
  obtain ⟨comment, written, rfl⟩ := List.mem_map.1 member
  exact comment_unbroken (unbroken comment written)

/-- The comments of a block are unbroken. -/
def Block.Plain (block : Block) : Prop := ∀ comment ∈ block.comments, Unbroken comment.text

theorem block_unbroken {block : Block} (plain : block.Plain)
    (data : ∀ envelope ∈ block.envelope?, Unbroken (envelope.data numbers)) :
    ∀ line ∈ block.lines numbers, Unbroken line.text := by
  have blank : ∀ ending, Unbroken (blankLine ending).text := fun _ => nofun
  cases block with
  | quiet comments blankEnd =>
      intro line member
      obtain comment | last := List.mem_append.1 member
      · exact comments_unbroken plain line comment
      · exact List.mem_singleton.1 last ▸ blank blankEnd
  | event frame =>
      have before : ∀ comment ∈ frame.before, Unbroken comment.text := fun comment member =>
        plain comment (List.mem_append_left _ (List.mem_append_left _ member))
      have between : ∀ comment ∈ frame.between, Unbroken comment.text := fun comment member =>
        plain comment (List.mem_append_left _ (List.mem_append_right _ member))
      have behind : ∀ comment ∈ frame.behind, Unbroken comment.text := fun comment member =>
        plain comment (List.mem_append_right _ member)
      intro line member
      simp only [Block.lines, List.mem_append, List.mem_cons, List.not_mem_nil, or_false] at member
      obtain comment | rfl | comment | rfl | comment | rfl := member
      · exact comments_unbroken before line comment
      · exact eventLine_unbroken frame.envelope frame.eventEnd
      · exact comments_unbroken between line comment
      · exact label_unbroken (by decide) (data frame.envelope rfl)
      · exact comments_unbroken behind line comment
      · exact blank frame.blankEnd

theorem stream_unbroken {blocks : List Block} (plain : ∀ block ∈ blocks, block.Plain)
    (data : ∀ envelope ∈ eventsOf blocks, Unbroken (envelope.data numbers)) :
    ∀ line ∈ streamLines numbers blocks, Unbroken line.text := by
  intro line member
  obtain ⟨block, written, here⟩ := List.mem_flatMap.1 member
  apply block_unbroken (plain block written) _ line here
  intro envelope found
  exact data envelope (List.mem_filterMap.2 ⟨block, written, found⟩)

/-- **Python reads a stream without such a character.** -/
theorem iterDecodedThreadEvents_stream {view : ThreadEventEnvelope → ε} {blocks : List Block}
    (reads : ∀ envelope ∈ eventsOf blocks,
      reader.read (envelope.data numbers) = .ok (view envelope))
    (plain : ∀ block ∈ blocks, block.Plain)
    (data : ∀ envelope ∈ eventsOf blocks, Unbroken (envelope.data numbers)) :
    iterDecodedThreadEvents reader (splitlines (streamText numbers blocks)) =
      ((eventsOf blocks).map view, none) := by
  have lines := splitlines_lines (stream_unbroken plain data) []
  rw [List.append_nil, show splitlines [] = [] from rfl, List.append_nil] at lines
  have frames := collectFrames_data isPySpace (isolated_stream numbers blocks)
  rw [data_stream numbers rfl rfl] at frames
  rw [iterDecodedThreadEvents, iterSseFrames_eq, streamText, lines, map_rstripCr, frames]
  exact readAll_reads reads

/-! ## Broken streams -/

section Broken

variable {isSpace : Char → Bool}

/-- The frame is new behind an empty line. -/
theorem collectFrames_blank (isSpace : Char → Bool) (state : FrameLines) (lines rest : List (List Char)) :
    ∃ before, collectFrames isSpace state (lines ++ [] :: rest) =
      before ++ collectFrames isSpace {} rest := by
  induction lines generalizing state with
  | nil => exact ⟨state.frame.toList, by rw [List.nil_append, collectFrames, if_pos rfl]⟩
  | cons line lines ih =>
      rw [List.cons_append, collectFrames]
      split
      · obtain ⟨before, later⟩ := ih {}
        exact ⟨state.frame.toList ++ before, by rw [later, List.append_assoc]⟩
      · exact ih _

theorem collectFrames_inert (isSpace : Char → Bool) (state : FrameLines)
    {lines : List (List Char)} (inert : ∀ line ∈ lines, Inert line) (rest : List (List Char)) :
    ∃ state', collectFrames isSpace state (lines ++ rest) = collectFrames isSpace state' rest ∧
      state'.dataLines = state.dataLines := by
  induction lines generalizing state with
  | nil => exact ⟨state, rfl, rfl⟩
  | cons line lines ih =>
      obtain ⟨solid, other⟩ := inert line List.mem_cons_self
      obtain ⟨state', later, same⟩ := ih (state.add isSpace line)
        fun line member => inert line (List.mem_cons_of_mem _ member)
      refine ⟨state', ?_, same.trans (add_other other state)⟩
      rw [List.cons_append, collectFrames, if_neg solid]
      exact later

/-- What is behind the first data line of a frame. -/
def Behind (more : List Char) : Prop := more = [] ∨ ∃ rest, more = '\n' :: rest

/-- The data of a frame begins with its first data line. -/
theorem frame_open {state : FrameLines} {first : List Char} {others : List (List Char)}
    (opened : state.dataLines = first :: others) :
    ∃ frame ∈ state.frame, ∃ more, frame.data = first ++ more ∧ Behind more := by
  refine ⟨⟨state.event, List.intercalate ['\n'] state.dataLines⟩, ?_, ?_⟩
  · rw [FrameLines.frame, opened, if_neg (List.cons_ne_nil first others)]
    rfl
  · cases others with
    | nil => exact ⟨[], by simp [opened, List.intercalate], .inl rfl⟩
    | cons second others =>
        refine ⟨'\n' :: List.intercalate ['\n'] (second :: others), ?_, .inr ⟨_, rfl⟩⟩
        simp [opened, List.intercalate]

theorem collectFrames_open {state : FrameLines} {first : List Char} {others : List (List Char)}
    (opened : state.dataLines = first :: others) (rest : List (List Char)) :
    ∃ frame ∈ collectFrames isSpace state rest, ∃ more,
      frame.data = first ++ more ∧ Behind more := by
  induction rest generalizing state others with
  | nil =>
      obtain ⟨frame, found, begins⟩ := frame_open opened
      exact ⟨frame, Option.mem_toList.2 found, begins⟩
  | cons line rest ih =>
      rw [collectFrames]
      split
      · obtain ⟨frame, found, begins⟩ := frame_open opened
        exact ⟨frame, List.mem_append_left _ (Option.mem_toList.2 found), begins⟩
      · cases data : startsWith line "data:" with
        | true =>
            apply ih
            rw [add_data data, opened]
            rfl
        | false => exact ih ((add_other data state).trans opened)

end Broken

/-- The first break of a text. -/
theorem exists_break {text : List Char} (broken : ¬ Unbroken text) : ∃ before c behind,
    text = before ++ c :: behind ∧ Unbroken before ∧ isLineBreak c = true := by
  induction text with
  | nil => exact absurd (List.forall_mem_nil _) broken
  | cons c text ih =>
      cases here : isLineBreak c with
      | true => exact ⟨[], c, text, rfl, List.forall_mem_nil _, here⟩
      | false =>
          have later : ¬ Unbroken text := by
            intro unbroken
            apply broken
            intro d member
            obtain rfl | member := List.mem_cons.1 member
            · exact here
            · exact unbroken d member
          obtain ⟨before, d, behind, rfl, unbroken, there⟩ := ih later
          refine ⟨c :: before, d, behind, rfl, ?_, there⟩
          intro e member
          obtain rfl | member := List.mem_cons.1 member
          · exact here
          · exact unbroken e member

/-- Of the line breaks a compact text has only the wide ones. -/
theorem break_wide {c : Char} (broken : isLineBreak c = true) (printable : 0x20 ≤ c.toNat) :
    0x80 ≤ c.toNat := by
  simp only [isLineBreak, Bool.or_eq_true, Bool.and_eq_true, decide_eq_true_eq] at broken
  obtain (((low | low) | rfl) | rfl) | rfl := broken
  · omega
  · omega
  · decide
  · decide
  · decide

/-- The text of an event up to its first break: it ends inside of a string. -/
theorem data_broken {envelope : ThreadEventEnvelope}
    (broken : ¬ Unbroken (envelope.data numbers)) : ∃ start c behind,
      envelope.data numbers = '\x7b' :: start ++ c :: behind ∧ Unbroken ('\x7b' :: start) ∧
      isLineBreak c = true ∧ c ≠ '\r' ∧ Place.outside.after ('\x7b' :: start) = .inside := by
  obtain ⟨before, c, behind, text, unbroken, here⟩ := exists_break broken
  have tidy := (Json.object envelope.fields).compact_tidy numbers
  have whole : (Json.object envelope.fields).compact numbers = before ++ c :: behind := text
  have printable : 0x20 ≤ c.toNat := tidy.printable c (by rw [whole]; simp)
  rw [whole] at tidy
  obtain ⟨rest, brace⟩ := data_brace numbers envelope
  cases before with
  | nil =>
      have first : c = '\x7b' := by
        rw [text] at brace
        exact (List.cons.inj brace).1
      subst first
      exact absurd here (by decide)
  | cons d start =>
      have first : d = '\x7b' := by
        rw [text] at brace
        exact (List.cons.inj brace).1
      subst first
      refine ⟨start, c, behind, text, unbroken, here, ?_, tidy.inside (break_wide here printable)⟩
      rintro rfl
      exact absurd printable (by decide)

/-- `json.loads` takes no text whose string does not end in its line. -/
def RefusesOpen (reader : EventReader ν ε) : Prop :=
  ∀ text more, Place.outside.after text = .inside → Behind more →
    ∃ message, reader.fromStr (text ++ more) = .error message

/-- Python's frames of a text. -/
def pythonFrames (text : List Char) : List SseFrame := iterSseFrames {} (splitlines text)

theorem pythonFrames_lines {lines : List EndedLine}
    (unbroken : ∀ line ∈ lines, Unbroken line.text) (more : List Char) :
    pythonFrames (textOf lines ++ more) =
      collectFrames isPySpace {} (texts lines ++ (splitlines more).map rstripCr) := by
  rw [pythonFrames, iterSseFrames_eq, splitlines_lines unbroken, List.map_append, map_rstripCr]

theorem textOf_append (lines more : List EndedLine) :
    textOf (lines ++ more) = textOf lines ++ textOf more := List.flatMap_append

/-- A block whose event is broken has a frame that begins with an open string. -/
theorem frame_broken {frame : EventFrame} (plain : (Block.event frame).Plain)
    (broken : ¬ Unbroken (frame.envelope.data numbers)) (rest : List Char) :
    ∃ parsed ∈ pythonFrames (textOf ((Block.event frame).lines numbers) ++ rest), ∃ text more,
      parsed.data = text ++ more ∧ Place.outside.after text = .inside ∧ Behind more := by
  obtain ⟨start, c, behind, whole, unbroken, here, notCr, inside⟩ := data_broken broken
  have front : ∀ line ∈ frame.before.map Comment.line ++
      eventLine frame.envelope frame.eventEnd :: frame.between.map Comment.line,
      Unbroken line.text ∧ Inert line.text := by
    intro line member
    simp only [List.mem_append, List.mem_cons] at member
    obtain comment | rfl | comment := member
    · refine ⟨comments_unbroken (fun comment member => plain comment
        (List.mem_append_left _ (List.mem_append_left _ member))) line comment, ?_⟩
      exact comments_inert frame.before _ (List.mem_map_of_mem comment)
    · exact ⟨eventLine_unbroken _ _, eventLine_inert _ _⟩
    · refine ⟨comments_unbroken (fun comment member => plain comment
        (List.mem_append_left _ (List.mem_append_right _ member))) line comment, ?_⟩
      exact comments_inert frame.between _ (List.mem_map_of_mem comment)
  have lines : (Block.event frame).lines numbers = (frame.before.map Comment.line ++
      eventLine frame.envelope frame.eventEnd :: frame.between.map Comment.line) ++
      (dataLine numbers frame.envelope frame.dataEnd ::
        (frame.behind.map Comment.line ++ [blankLine frame.blankEnd])) := by
    rw [Block.lines, List.append_assoc, List.cons_append]
  have dataText : ∀ more, textOf (dataLine numbers frame.envelope frame.dataEnd :: more) ++ rest =
      ("data: ".toList ++ '\x7b' :: start) ++
        c :: (behind ++ frame.dataEnd.chars ++ textOf more ++ rest) := by
    intro more
    rw [textOf, List.flatMap_cons]
    show "data: ".toList ++ frame.envelope.data numbers ++ frame.dataEnd.chars ++ textOf more ++
      rest = _
    rw [whole]
    simp
  have cutLine : Unbroken ("data: ".toList ++ '\x7b' :: start) :=
    label_unbroken (by decide) unbroken
  have noCr : ∀ d ∈ "data: ".toList ++ '\x7b' :: start, d ≠ '\r' := by
    rintro d member rfl
    exact absurd (cutLine '\r' member) (by decide)
  rw [lines, textOf_append, List.append_assoc, dataText,
    pythonFrames_lines fun line member => (front line member).1,
    splitlines_break cutLine here notCr, List.map_cons, rstripCr_flat noCr]
  have inert : ∀ line ∈ texts (frame.before.map Comment.line ++
      eventLine frame.envelope frame.eventEnd :: frame.between.map Comment.line), Inert line := by
    intro line member
    obtain ⟨written, there, rfl⟩ := List.mem_map.1 member
    exact (front written there).2
  obtain ⟨state, frames, same⟩ := collectFrames_inert isPySpace {} inert
    (("data: ".toList ++ '\x7b' :: start) ::
      (splitlines (behind ++ frame.dataEnd.chars ++ textOf (frame.behind.map Comment.line ++
        [blankLine frame.blankEnd]) ++ rest)).map rstripCr)
  have data : startsWith ("data: ".toList ++ '\x7b' :: start) "data:" = true := rfl
  have value : dataOf isPySpace ("data: ".toList ++ '\x7b' :: start) = some ('\x7b' :: start) :=
    dataOf_data rfl rfl
  rw [dataOf, if_pos data] at value
  have opened : (state.add isPySpace ("data: ".toList ++ '\x7b' :: start)).dataLines =
      ['\x7b' :: start] := by
    rw [add_data data, same, Option.some.inj value]
    rfl
  have solid : "data: ".toList ++ '\x7b' :: start ≠ [] := List.cons_ne_nil _ _
  rw [frames, collectFrames, if_neg solid]
  obtain ⟨parsed, found, more, begins, ends⟩ := collectFrames_open opened _
  exact ⟨parsed, found, _, more, begins, inside, ends⟩

theorem stream_broken {blocks : List Block} (plain : ∀ block ∈ blocks, block.Plain)
    {envelope : ThreadEventEnvelope} (event : envelope ∈ eventsOf blocks)
    (broken : ¬ Unbroken (envelope.data numbers)) :
    ∃ parsed ∈ pythonFrames (streamText numbers blocks), ∃ text more,
      parsed.data = text ++ more ∧ Place.outside.after text = .inside ∧ Behind more := by
  induction blocks with
  | nil => cases event
  | cons block blocks ih =>
      rw [streamText, streamLines, List.flatMap_cons, textOf_append]
      by_cases here : ∀ envelope ∈ block.envelope?, Unbroken (envelope.data numbers)
      · have later : envelope ∈ eventsOf blocks := by
          obtain ⟨written, member, found⟩ := List.mem_filterMap.1 event
          obtain rfl | member := List.mem_cons.1 member
          · exact absurd (here envelope found) broken
          · exact List.mem_filterMap.2 ⟨written, member, found⟩
        obtain ⟨parsed, found, opened⟩ :=
          ih (fun other member => plain other (List.mem_cons_of_mem block member)) later
        obtain ⟨front, blank, lines⟩ : ∃ front blank,
            texts (block.lines numbers) = front ++ [(blankLine blank).text] := by
          cases block with
          | quiet comments blankEnd => exact ⟨texts (comments.map Comment.line), blankEnd, by
              simp [Block.lines, texts]⟩
          | event frame =>
              refine ⟨texts (frame.before.map Comment.line ++
                eventLine frame.envelope frame.eventEnd :: (frame.between.map Comment.line ++
                dataLine numbers frame.envelope frame.dataEnd ::
                frame.behind.map Comment.line)), frame.blankEnd, ?_⟩
              simp [Block.lines, texts]
        have unbroken := block_unbroken (plain block List.mem_cons_self) here
        rw [pythonFrames_lines unbroken, lines, List.append_assoc]
        obtain ⟨before, frames⟩ := collectFrames_blank isPySpace {} front
          ((splitlines (streamText numbers blocks)).map rstripCr)
        refine ⟨parsed, ?_, opened⟩
        show parsed ∈ collectFrames isPySpace {} (front ++ [] ::
          (splitlines (streamText numbers blocks)).map rstripCr)
        rw [frames]
        apply List.mem_append_right
        rwa [pythonFrames, iterSseFrames_eq] at found
      · cases block with
        | quiet comments blankEnd =>
            exact absurd (fun _ none_ => by cases none_) here
        | event frame =>
            apply frame_broken (plain _ List.mem_cons_self)
            intro unbroken
            apply here
            rintro envelope ⟨⟩
            exact unbroken

/-- Reading stops at a frame that cannot be read. -/
theorem readAll_error {data : List (List Char)} {text : List Char} (member : text ∈ data)
    {error : SdkError} (failed : reader.read text = .error error) :
    (readAll reader data).2 ≠ none := by
  induction data with
  | nil => cases member
  | cons first data ih =>
      rw [readAll, Framer.decodeAll]
      cases read : reader.read first with
      | error other => exact Option.some_ne_none _
      | ok event =>
          obtain rfl | member := List.mem_cons.1 member
          · rw [read] at failed
            cases failed
          · exact ih member

/-! ## Both SDKs -/

section Both

variable {ν' ε' : Type}

def decimalNumbers : NumberWriter where
  text
    | .posInt value => Nat.toDigits 10 value.toNat
    | .negInt value => '-' :: Nat.toDigits 10 value.toInt.natAbs
    | .float _ => "0.0".toList
  plain := by
    have digits : ∀ n, ∀ c ∈ Nat.toDigits 10 n, isNumberChar c = true := by
      intro n c member
      have digit : c.isDigit = true :=
        Nat.isDigit_of_mem_toDigits (b := 10) (by decide) (by decide) member
      simp [isNumberChar, digit]
    intro number c member
    cases number with
    | posInt value => exact digits _ c member
    | negInt value =>
        obtain rfl | member := List.mem_cons.1 member
        · rfl
        · exact digits _ c member
    | float bits =>
        have all : ∀ c ∈ "0.0".toList, isNumberChar c = true := by
          simp [isNumberChar]
        exact all c member

/-- A reader of one text. -/
def readerOf (envelope : ThreadEventEnvelope) :
    EventReader ThreadEventEnvelope ThreadEventEnvelope where
  fromStr text :=
    if text = envelope.data decimalNumbers then .ok envelope else .error "invalid JSON"
  parseThreadEvent := .ok

theorem readerOf_reads (envelope : ThreadEventEnvelope) :
    (readerOf envelope).read (envelope.data decimalNumbers) = .ok envelope := by
  simp [EventReader.read, readerOf]

theorem readerOf_refuses (envelope : ThreadEventEnvelope) : RefusesOpen (readerOf envelope) := by
  intro text more inside behind
  refine ⟨"invalid JSON", if_neg fun whole => ?_⟩
  have closed := (Json.object envelope.fields).compact_closed decimalNumbers
  have same : text ++ more = (Json.object envelope.fields).compact decimalNumbers := whole
  rw [← same] at closed
  obtain rfl | ⟨rest, rfl⟩ := behind
  · rw [List.append_nil] at closed
    rw [closed.2] at inside
    cases inside
  · have printable := closed.1.printable '\n' (by simp)
    exact absurd printable (by decide)

/-- The lines of all the text. -/
def linesOf (chunks : List (List UInt8)) : List (List Char) :=
  splitlines (decodeChunks [] chunks).flatten

theorem linesOf_splits (chunks : List (List UInt8)) (text : List Char)
    (cut : chunks.flatten = encode text) : linesOf chunks = splitlines text := by
  rw [linesOf, (decodeChunks_encoded cut).1]

def delta (text : String) : ThreadEventEnvelope where
  threadId := "thread-1"
  runId := some "run-1"
  sequence := 2
  timestampMs := 7
  eventType := "assistant.text.delta"
  known := by decide
  payload := .object [("text", .string text)]

theorem empty_flat : ∀ c ∈ ([] : List Char), c ≠ '\r' ∧ c ≠ '\n' := List.forall_mem_nil _

/-- The event with CRLF line ends behind a comment. -/
def deltaBlocks (text : String) : List Block :=
  [.quiet [⟨[], empty_flat, .crlf⟩] .crlf, .event ⟨delta text, [], .crlf, [], .crlf, [], .crlf⟩]

/-- Each byte comes alone. -/
def bytewise (bytes : List UInt8) : List (List UInt8) := bytes.map fun byte => [byte]

theorem bytewise_flatten (bytes : List UInt8) : (bytewise bytes).flatten = bytes := by
  induction bytes with
  | nil => rfl
  | cons byte bytes ih =>
      rw [bytewise, List.map_cons, List.flatten_cons, ← bytewise, ih]
      rfl

theorem delta_only {text : String} {envelope : ThreadEventEnvelope}
    (member : envelope ∈ eventsOf (deltaBlocks text)) : envelope = delta text :=
  List.mem_singleton.1 member

theorem delta_reads (text : String) : ∀ envelope ∈ eventsOf (deltaBlocks text),
    (readerOf (delta text)).read (envelope.data decimalNumbers) = .ok (id envelope) := by
  intro envelope member
  rw [delta_only member]
  exact readerOf_reads (delta text)

theorem delta_plain (text : String) : ∀ block ∈ deltaBlocks text, block.Plain := by
  intro block member comment written c
  simp only [deltaBlocks, List.mem_cons, List.not_mem_nil, or_false] at member
  obtain rfl | rfl := member
  · obtain rfl := List.mem_singleton.1 written
    exact fun none_ => absurd none_ List.not_mem_nil
  · cases written

end Both

end Openyak.Sdk
