/-
# Sdk.TypeScriptEvents -- TypeScript reads every stream of the server

TypeScript unifies the line ends piece by piece, so a CRLF that is cut gives one empty line
more (`Doubled`).  More empty lines change nothing, as each event's data stands in one line
(`decodeThreadEvents_stream`).
-/
import Openyak.Sdk.ServerStream

namespace Openyak.Sdk

open Openyak.Theory
open Openyak.Theory.Framing
open Openyak.Theory.Utf8Stream

set_option autoImplicit false

/-! ## Lines that end in `\n` -/

def ended (lines : List (List Char)) : List Char := lines.flatMap (· ++ ['\n'])

def Flat (line : List Char) : Prop := '\n' ∉ line

theorem ended_cons (line : List Char) (lines : List (List Char)) :
    ended (line :: lines) = line ++ '\n' :: ended lines := by
  simp [ended]

theorem unifyEnds_flat {text : List Char} (flat : ∀ c ∈ text, c ≠ '\r') (more : List Char) :
    unifyEnds (text ++ more) = text ++ unifyEnds more := by
  induction text with
  | nil => rfl
  | cons c text ih =>
      have other : c ≠ '\r' := flat c List.mem_cons_self
      rw [List.cons_append, unifyEnds, ih fun d member => flat d (List.mem_cons_of_mem c member)]
      · rfl
      · exact fun _ same _ => other same
      · exact other

theorem unifyEnds_line (line : EndedLine) (more : List Char) :
    unifyEnds (line.text ++ line.ending.chars ++ more) = line.text ++ '\n' :: unifyEnds more := by
  rw [List.append_assoc, unifyEnds_flat fun c member => (line.flat c member).1]
  cases line.ending with
  | lf =>
      show line.text ++ unifyEnds ('\n' :: more) = _
      simp [unifyEnds]
  | crlf =>
      show line.text ++ unifyEnds ('\r' :: '\n' :: more) = _
      simp [unifyEnds]

theorem unifyEnds_textOf (lines : List EndedLine) :
    unifyEnds (textOf lines) = ended (texts lines) := by
  induction lines with
  | nil => rfl
  | cons line lines ih =>
      rw [textOf, List.flatMap_cons, unifyEnds_line, texts, List.map_cons, ended_cons, ← texts, ← ih]
      rfl

theorem splitOn_flat {line : List Char} (flat : Flat line) : line.splitOn '\n' = [line] := by
  induction line with
  | nil => rfl
  | cons c line ih =>
      have other : c ≠ '\n' := fun same => flat (same ▸ List.mem_cons_self)
      obtain ⟨head, tail, here, whole⟩ := splitOn_other other line
      rw [ih fun member => flat (List.mem_cons_of_mem c member)] at here
      cases here
      exact whole

theorem splitOn_ended {lines : List (List Char)} (flat : ∀ line ∈ lines, Flat line) :
    (ended lines).splitOn '\n' = lines ++ [[]] := by
  induction lines with
  | nil => rfl
  | cons line lines ih =>
      rw [ended_cons, List.splitOn_append_cons_self, splitOn_flat (flat line List.mem_cons_self),
        ih fun other member => flat other (List.mem_cons_of_mem line member)]
      rfl

/-! ## Cut line ends -/

/-- The same text, with some `\n` doubled. -/
inductive Doubled : List Char → List Char → Prop
  | nil : Doubled [] []
  | cons {text more : List Char} (c : Char) (doubled : Doubled text more) :
      Doubled (c :: text) (c :: more)
  | again {text more : List Char} (doubled : Doubled ('\n' :: text) more) :
      Doubled ('\n' :: text) ('\n' :: more)

theorem Doubled.head {text more : List Char} (doubled : Doubled text more) :
    more.head? = text.head? := by
  cases doubled <;> rfl

/-- A line end may be cut between `start` and the text behind it. -/
theorem doubled_unify (start : List Char) {behind more : List Char}
    (doubled : Doubled (unifyEnds behind) more) :
    Doubled (unifyEnds (start ++ behind)) (unifyEnds start ++ more) := by
  induction start using unifyEnds.induct with
  | case1 rest ih =>
      simp only [List.cons_append, unifyEnds]
      exact ih.cons '\n'
  | case2 rest whole ih =>
      cases rest with
      | nil =>
          cases behind with
          | nil =>
              simp only [unifyEnds, List.cons_append, List.nil_append] at doubled ⊢
              exact doubled.cons '\n'
          | cons c behind =>
              by_cases newline : c = '\n'
              · subst newline
                simp only [unifyEnds, List.cons_append, List.nil_append] at doubled ⊢
                exact doubled.again
              · have apart : unifyEnds ('\r' :: c :: behind) = '\n' :: unifyEnds (c :: behind) := by
                  rw [unifyEnds]
                  intro rest same
                  exact newline (List.cons.inj same).1
                show Doubled (unifyEnds ('\r' :: c :: behind)) ('\n' :: more)
                rw [apart]
                exact doubled.cons '\n'
      | cons c rest =>
          have newline : c ≠ '\n' := by
            rintro rfl
            exact whole rest rfl
          have apart : ∀ more, unifyEnds ('\r' :: c :: more) = '\n' :: unifyEnds (c :: more) := by
            intro more
            rw [unifyEnds]
            intro rest same
            exact newline (List.cons.inj same).1
          rw [List.cons_append, List.cons_append, apart, apart]
          exact ih.cons '\n'
  | case3 c rest notBoth notCr ih =>
      have other : c ≠ '\r' := notCr
      have apart : ∀ more, unifyEnds (c :: more) = c :: unifyEnds more := by
        intro more
        rw [unifyEnds]
        · exact fun _ same _ => other same
        · exact other
      rw [List.cons_append, apart, apart]
      exact ih.cons c
  | case4 => exact doubled

/-- **Unifying piece by piece doubles some line ends.** -/
theorem doubled_pieces (pieces : List (List Char)) :
    Doubled (unifyEnds pieces.flatten) (pieces.map unifyEnds).flatten := by
  induction pieces with
  | nil => exact .nil
  | cons piece pieces ih => exact doubled_unify piece ih

theorem Padded.flat {lines more : List (List Char)} (padded : Padded lines more)
    (flat : ∀ line ∈ lines, Flat line) : ∀ line ∈ more, Flat line := by
  induction padded with
  | nil => exact flat
  | cons line padded ih =>
      have rest := ih fun other member => flat other (List.mem_cons_of_mem line member)
      intro other member
      obtain rfl | member := List.mem_cons.1 member
      · exact flat other List.mem_cons_self
      · exact rest other member
  | blank padded ih =>
      intro other member
      obtain rfl | member := List.mem_cons.1 member
      · exact List.not_mem_nil
      · exact ih flat other member

/-- An empty line in front may go, if the lines are padded anyway. -/
theorem Padded.drop {lines more : List (List Char)} (padded : Padded ([] :: lines) more) :
    Padded lines more := by
  generalize whole : [] :: lines = all at padded
  induction padded generalizing lines with
  | nil => cases whole
  | cons line padded =>
      cases whole
      exact padded.blank
  | blank padded ih => exact (ih whole).blank

/-- Doubled line ends are empty lines among the others. -/
theorem doubled_lines {text more : List Char} (doubled : Doubled text more)
    {lines : List (List Char)} (flat : ∀ line ∈ lines, Flat line) (same : text = ended lines) :
    ∃ longer, Padded lines longer ∧ more = ended longer := by
  induction doubled generalizing lines with
  | nil =>
      cases lines with
      | nil => exact ⟨[], .nil, rfl⟩
      | cons line lines =>
          rw [ended_cons] at same
          exact absurd same.symm (by simp)
  | @cons text more c doubled ih =>
      cases lines with
      | nil => cases same
      | cons line lines =>
          have rest : ∀ other ∈ lines, Flat other :=
            fun other member => flat other (List.mem_cons_of_mem line member)
          rw [ended_cons] at same
          cases line with
          | nil =>
              cases same
              obtain ⟨longer, padded, rfl⟩ := ih rest rfl
              exact ⟨[] :: longer, padded.cons [], (ended_cons [] longer).symm⟩
          | cons d line =>
              cases same
              have shorter : ∀ other ∈ line :: lines, Flat other := by
                intro other member
                obtain rfl | member := List.mem_cons.1 member
                · exact fun newline => flat _ List.mem_cons_self (List.mem_cons_of_mem _ newline)
                · exact rest other member
              obtain ⟨longer, padded, rfl⟩ := ih shorter (ended_cons line lines).symm
              have head := doubled.head
              cases padded with
              | cons _ padded =>
                  exact ⟨(c :: line) :: _, padded.cons _, by rw [ended_cons, ended_cons]; rfl⟩
              | @blank _ behind padded =>
                  -- nothing is doubled in front of a character that is no line end
                  cases line with
                  | nil =>
                      refine ⟨[c] :: behind, (padded.drop).cons [c], ?_⟩
                      rw [ended_cons, ended_cons]
                      rfl
                  | cons e line =>
                      rw [ended_cons] at head
                      have newline : e = '\n' := (Option.some.inj head).symm
                      exact absurd (newline ▸ List.mem_cons_self)
                        (shorter (e :: line) List.mem_cons_self)
  | again doubled ih =>
      obtain ⟨longer, padded, rfl⟩ := ih flat same
      cases lines with
      | nil => cases same
      | cons line lines =>
          exact ⟨[] :: longer, padded.blank, (ended_cons [] longer).symm⟩

/-! ## The lines of the buffer -/

variable {isSpace : Char → Bool}

/-- Without a blank line, only the first line and the last one may be empty. -/
theorem solid_between {buffer : List Char} (none_left : splitBlankLine buffer = none) :
    ∀ line ∈ (buffer.splitOn '\n').tail.dropLast, line ≠ [] := by
  induction buffer using splitBlankLine.induct with
  | case1 rest => simp [splitBlankLine] at none_left
  | case2 c rest other ih =>
      rw [splitBlankLine] at none_left
      · have later := ih (Option.map_eq_none_iff.1 none_left)
        by_cases newline : c = '\n'
        · subst newline
          rw [splitOn_newline, List.tail_cons]
          cases rest with
          | nil => exact List.forall_mem_nil _
          | cons d rest =>
              have solid : d ≠ '\n' := by
                rintro rfl
                exact other _ rfl rfl
              obtain ⟨head, tail, -, split⟩ := splitOn_other solid rest
              rw [split] at later ⊢
              intro line member
              cases tail with
              | nil => cases member
              | cons next tail =>
                  rw [List.dropLast_cons_cons] at member
                  obtain rfl | member := List.mem_cons.1 member
                  · exact List.cons_ne_nil d head
                  · exact later line member
        · obtain ⟨head, tail, here, split⟩ := splitOn_other newline rest
          rw [here] at later
          rw [split]
          exact later
      · exact other
  | case3 => exact List.forall_mem_nil _

/-- The buffer ends with a line end, and its lines are isolated. -/
def Complete (buffer : List Char) : Prop :=
  ∃ lines, buffer.splitOn '\n' = lines ++ [[]] ∧ Isolated false lines

theorem Isolated.behind {opened : Bool} {lines rest : List (List Char)}
    (isolated : Isolated opened (lines ++ [] :: rest)) : Isolated false rest := by
  induction lines generalizing opened with
  | nil => simpa [Isolated] using isolated
  | cons line lines ih =>
      rw [List.cons_append, Isolated] at isolated
      split at isolated
      · exact ih isolated
      · split at isolated
        · exact ih isolated.2
        · exact ih isolated

theorem Isolated.snoc {opened : Bool} {lines : List (List Char)}
    (isolated : Isolated opened lines) : Isolated opened (lines ++ [[]]) := by
  induction lines generalizing opened with
  | nil => rfl
  | cons line lines ih =>
      rw [List.cons_append, Isolated]
      rw [Isolated] at isolated
      split
      · rename_i blank
        rw [if_pos blank] at isolated
        exact ih isolated
      · rename_i solid
        rw [if_neg solid] at isolated
        split
        · rename_i data
          rw [if_pos data] at isolated
          exact ⟨isolated.1, ih isolated.2⟩
        · rename_i other
          rw [if_neg other] at isolated
          exact ih isolated

/-- Without an empty line nothing ends a data line's frame, so there is no data line. -/
theorem Isolated.solid {opened : Bool} {lines : List (List Char)}
    (isolated : Isolated opened lines) (solid : ∀ line ∈ lines, line ≠ []) :
    opened = false ∧ lines.filterMap (dataOf isSpace) = [] := by
  induction lines generalizing opened with
  | nil => exact ⟨isolated, rfl⟩
  | cons line lines ih =>
      have rest : ∀ other ∈ lines, other ≠ [] :=
        fun other member => solid other (List.mem_cons_of_mem line member)
      rw [Isolated, if_neg (solid line List.mem_cons_self)] at isolated
      split at isolated
      · exact absurd (ih isolated.2 rest).1 (by decide)
      · rename_i other
        obtain ⟨closed, none⟩ := ih isolated rest
        refine ⟨closed, ?_⟩
        rw [List.filterMap_cons, dataOf, if_neg other]
        exact none

theorem Complete.behind {buffer frame behind : List Char} (complete : Complete buffer)
    (found : splitBlankLine buffer = some (frame, behind)) : Complete behind := by
  obtain ⟨lines, split, isolated⟩ := complete
  rw [splitBlankLine_append found, List.splitOn_append_cons_self, splitOn_newline] at split
  have some_line : behind.splitOn '\n' ≠ [] := List.splitOn_ne_nil '\n' behind
  rw [← List.dropLast_concat_getLast some_line, ← List.cons_append, ← List.append_assoc] at split
  obtain ⟨front, last⟩ := List.append_inj' split rfl
  refine ⟨(behind.splitOn '\n').dropLast, ?_, ?_⟩
  · rw [← last]
    exact (List.dropLast_concat_getLast some_line).symm
  · rw [← front] at isolated
    exact isolated.behind

/-- What stays in the buffer gives no frame. -/
theorem Complete.quiet {buffer : List Char} (complete : Complete buffer)
    (none_left : splitBlankLine buffer = none) :
    collectFrames isSpace {} (buffer.splitOn '\n') = [] := by
  obtain ⟨lines, split, isolated⟩ := complete
  have solid := solid_between none_left
  have data := collectFrames_data isSpace isolated.snoc
  rw [split] at solid ⊢
  have noData : lines.filterMap (dataOf isSpace) = [] := by
    cases lines with
    | nil => rfl
    | cons line lines =>
        rw [List.cons_append, List.tail_cons, List.dropLast_concat] at solid
        by_cases blank : line = []
        · subst blank
          have rest : Isolated false lines := by simpa [Isolated] using isolated
          exact (rest.solid solid).2
        · apply (isolated.solid _).2
          intro other member
          obtain rfl | member := List.mem_cons.1 member
          · exact blank
          · exact solid other member
  rw [List.filterMap_append, noData] at data
  exact List.map_eq_nil_iff.1 data

theorem drained_quiet {buffer : List Char} (complete : Complete buffer) :
    collectFrames isSpace {} ((drainFrames.frames buffer).2.splitOn '\n') = [] := by
  induction buffer using drainFrames.frames_induction with
  | stop buffer none_left =>
      rw [drainFrames.frames_of_none none_left]
      exact complete.quiet (Option.map_eq_none_iff.1 none_left)
  | take buffer taken rest found ih =>
      rw [drainFrames.frames_of_some found]
      obtain ⟨⟨frame, behind⟩, split, same⟩ := Option.map_eq_some_iff.1 found
      cases same
      exact ih (complete.behind split)

/-! ## The loop -/

variable {ν ε : Type} {reader : EventReader ν ε}

/-- The loop reads the frames of the pieces one after the other. -/
theorem decodeLoop_eq (reader : EventReader ν ε) (decoder : TextDecoder) (buffer : List Char)
    {chunks : List (List UInt8)}
    (noMark : decoder.started = false →
      (decodeChunks decoder.pending chunks).flatten.head? ≠ some '\uFEFF')
    (whole : leftOver decoder.pending chunks = []) (drained : drainFrames.next buffer = none) :
    decodeLoop reader decoder buffer chunks = Framer.decodeAll (decodeFrame reader)
      (drainFrames.collect buffer ((decodeChunks decoder.pending chunks).map unifyEnds)).1 := by
  induction chunks generalizing decoder buffer with
  | nil =>
      have flushed : decoder.flush = [] := if_pos whole
      rw [decodeLoop, flushed, List.append_nil, drainFrames.frames_of_none drained]
      rfl
  | cons value chunks ih =>
      rw [decodeChunks, List.flatten_cons] at noMark
      have text : (decoder.decode value).1 = (decodeChunk decoder.pending value).1 := by
        cases started : decoder.started with
        | true => simp [TextDecoder.decode, started]
        | false =>
            have unmarked := noMark started
            simp only [TextDecoder.decode, started, Bool.false_eq_true, if_false]
            cases decoded : (decodeChunk decoder.pending value).1 with
            | nil => rfl
            | cons c text =>
                rw [decoded] at unmarked
                exact if_neg fun mark => unmarked (congrArg some mark)
      have later := ih (decoder.decode value).2
        (drainFrames.frames (buffer ++ unifyEnds (decoder.decode value).1)).2 (by
          intro started
          obtain ⟨before, none⟩ := Bool.or_eq_false_iff.1 started
          have nothing : (decodeChunk decoder.pending value).1 = [] := by simpa using none
          have unmarked := noMark before
          rwa [nothing, List.nil_append] at unmarked) whole (drainFrames.next_frames_rest _)
      have pending : (decoder.decode value).2.pending = (decodeChunk decoder.pending value).2 := rfl
      rw [decodeLoop, decodeChunks, List.map_cons, Framer.collect, Framer.decodeAll_append]
      dsimp only
      rw [later, pending, text]
      cases Framer.decodeAll (decodeFrame reader)
        (drainFrames.frames (buffer ++ unifyEnds (decodeChunk decoder.pending value).1)).1 with
      | mk events failed => cases failed <;> rfl

theorem decodeAll_drained (frames : List (List Char)) :
    Framer.decodeAll (decodeFrame reader) frames =
      readAll reader ((frames.filterMap parseDrained).map SseFrame.data) := by
  induction frames with
  | nil => rfl
  | cons frame frames ih =>
      rw [Framer.decodeAll, ih, List.filterMap_cons, decodeFrame, parseDrained]
      cases parseSseFrame (frame.take (frame.length - 2)) with
      | none => rfl
      | some parsed =>
          dsimp only
          rw [List.map_cons, readAll, readAll, Framer.decodeAll]

theorem readAll_reads {α : Type} {data : α → List Char} {view : α → ε} {items : List α}
    (reads : ∀ item ∈ items, reader.read (data item) = .ok (view item)) :
    readAll reader (items.map data) = (items.map view, none) := by
  induction items with
  | nil => rfl
  | cons item items ih =>
      have rest := ih fun other member => reads other (List.mem_cons_of_mem item member)
      rw [readAll] at rest
      rw [List.map_cons, readAll, Framer.decodeAll, reads item List.mem_cons_self, rest]
      rfl

theorem stream_noMark (numbers : NumberWriter) (blocks : List Block) :
    (streamText numbers blocks).head? ≠ some '\uFEFF' := by
  cases blocks with
  | nil => exact nofun
  | cons block blocks =>
      rw [streamText, streamLines, List.flatMap_cons]
      have first : ∀ (line : EndedLine) (lines : List EndedLine),
          line.text.head? ≠ some '\uFEFF' → (textOf (line :: lines)).head? ≠ some '\uFEFF' := by
        intro line lines other
        rw [textOf, List.flatMap_cons]
        cases text : line.text with
        | nil =>
            cases line.ending with
            | lf => exact (by decide : some '\n' ≠ some '\uFEFF')
            | crlf => exact (by decide : some '\r' ≠ some '\uFEFF')
        | cons c text' =>
            rw [text] at other
            exact other
      cases block with
      | quiet comments blankEnd =>
          cases comments with
          | nil => exact first _ _ (Option.some_ne_none _).symm
          | cons comment comments =>
              exact first comment.line _ (by decide : some ':' ≠ some '\uFEFF')
      | event frame =>
          cases before : frame.before with
          | nil =>
              rw [Block.lines, before]
              exact first (eventLine frame.envelope frame.eventEnd) _
                (by decide : some 'e' ≠ some '\uFEFF')
          | cons comment comments =>
              rw [Block.lines, before]
              exact first comment.line _ (by decide : some ':' ≠ some '\uFEFF')

/-- **TypeScript reads the events of every stream**, however it is cut. -/
theorem decodeThreadEvents_stream {numbers : NumberWriter} {view : ThreadEventEnvelope → ε}
    {blocks : List Block} {chunks : List (List UInt8)}
    (reads : ∀ envelope ∈ eventsOf blocks,
      reader.read (envelope.data numbers) = .ok (view envelope))
    (cut : chunks.flatten = encode (streamText numbers blocks)) :
    decodeThreadEvents reader chunks = ((eventsOf blocks).map view, none) := by
  obtain ⟨text, left⟩ := decodeChunks_encoded cut
  have flat : ∀ line ∈ texts (streamLines numbers blocks), Flat line := by
    intro line member
    obtain ⟨written, -, rfl⟩ := List.mem_map.1 member
    exact fun newline => (written.flat '\n' newline).2 rfl
  -- the pieces make the lines of the stream, with more empty ones among them
  have doubled := doubled_pieces (decodeChunks [] chunks)
  rw [text] at doubled
  obtain ⟨longer, padded, pieces⟩ :=
    doubled_lines doubled flat (unifyEnds_textOf (streamLines numbers blocks))
  have isolated : Isolated false longer := (isolated_stream numbers blocks).padded padded
  have split := splitOn_ended (padded.flat flat)
  have complete : Complete (ended longer) := ⟨longer, split, isolated⟩
  have drained := drainFrames_lines (ended longer)
  rw [drained_quiet complete, List.append_nil, split] at drained
  have data := collectFrames_data isJsSpace isolated.snoc
  rw [drained] at data
  have last : [[]].filterMap (dataOf isJsSpace) = [] := rfl
  have events : (texts (streamLines numbers blocks)).filterMap (dataOf isJsSpace) = _ :=
    data_stream numbers rfl rfl blocks
  rw [List.filterMap_append, last, filterMap_padded padded, events] at data
  have loop := decodeLoop_eq reader {} []
    (fun _ => text ▸ stream_noMark numbers blocks) left drainFrames.next_nil
  rw [decodeThreadEvents, loop, Framer.collect_eq_frames drainFrames_stable [] drainFrames.next_nil,
    List.nil_append, pieces, decodeAll_drained, data, List.append_nil]
  exact readAll_reads reads

end Openyak.Sdk
