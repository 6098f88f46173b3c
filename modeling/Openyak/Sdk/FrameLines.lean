/-
# Sdk.FrameLines -- frames as runs of lines

What both SDKs make of lines is `collectFrames`: an empty line ends a frame.  The frames
that TypeScript cuts off its buffer are those of the buffer's lines
(`drainFrames_lines`).

`Isolated` lines have an empty line between any two data lines, and behind the last.
Then each data line is a frame's data, and more empty lines change nothing.
-/
import Openyak.Sdk.EventStream

namespace Openyak.Sdk

open Openyak.Theory
open Openyak.Theory.Framing

set_option autoImplicit false

variable {isSpace : Char → Bool}

/-- The frames of lines, with the frame that is open at their start. -/
def collectFrames (isSpace : Char → Bool) : FrameLines → List (List Char) → List SseFrame
  | lines, [] => lines.frame.toList
  | lines, line :: rest =>
      if line = [] then lines.frame.toList ++ collectFrames isSpace {} rest
      else collectFrames isSpace (lines.add isSpace line) rest

theorem iterSseFrames_eq (lines : FrameLines) (rest : List (List Char)) :
    iterSseFrames lines rest = collectFrames isPySpace lines (rest.map rstripCr) := by
  induction rest generalizing lines with
  | nil => rfl
  | cons line rest ih =>
      rw [iterSseFrames, List.map_cons, collectFrames]
      split
      · rw [ih]
      · rw [ih]

/-! ## Data lines -/

/-- The data of a data line. -/
def dataOf (isSpace : Char → Bool) (line : List Char) : Option (List Char) :=
  if startsWith line "data:" then some (dropSpaces isSpace (line.drop 5)) else none

theorem add_data {line : List Char} (data : startsWith line "data:" = true) (lines : FrameLines) :
    (lines.add isSpace line).dataLines = lines.dataLines ++ [dropSpaces isSpace (line.drop 5)] := by
  obtain ⟨rest, rfl⟩ := List.isPrefixOf_iff_prefix.1 data
  have noComment : startsWith ("data:".toList ++ rest) ":" = false := rfl
  have noEvent : startsWith ("data:".toList ++ rest) "event:" = false := rfl
  rw [FrameLines.add, noComment, noEvent, data]
  rfl

theorem add_other {line : List Char} (other : startsWith line "data:" = false)
    (lines : FrameLines) : (lines.add isSpace line).dataLines = lines.dataLines := by
  rw [FrameLines.add, other]
  split
  · rfl
  · split
    · rfl
    · rfl

/-- `opened` tells whether a data line waits for the end of its frame. -/
def Isolated : (opened : Bool) → List (List Char) → Prop
  | opened, [] => opened = false
  | opened, line :: rest =>
      if line = [] then Isolated false rest
      else if startsWith line "data:" then opened = false ∧ Isolated true rest
      else Isolated opened rest

/-- The data of a frame with at most one data line. -/
theorem frame_data {lines : FrameLines} (single : lines.dataLines.length ≤ 1) :
    lines.frame.toList.map SseFrame.data = lines.dataLines := by
  unfold FrameLines.frame
  match data : lines.dataLines with
  | [] => rfl
  | [only] => simp [List.intercalate]
  | first :: second :: more => simp [data] at single

/-- **The frames of isolated lines are their data lines.** -/
theorem collectFrames_isolated {opened : Bool} {rest : List (List Char)} {lines : FrameLines}
    (isolated : Isolated opened rest) (waiting : lines.dataLines.length = opened.toNat) :
    (collectFrames isSpace lines rest).map SseFrame.data =
      lines.dataLines ++ rest.filterMap (dataOf isSpace) := by
  induction rest generalizing opened lines with
  | nil =>
      have closed : opened = false := isolated
      rw [closed] at waiting
      simp only [collectFrames, List.filterMap_nil, List.append_nil]
      exact frame_data (by rw [waiting]; exact Nat.zero_le 1)
  | cons line rest ih =>
      rw [collectFrames]
      by_cases blank : line = []
      · subst blank
        have isolated : Isolated false rest := by simpa [Isolated] using isolated
        have single : lines.dataLines.length ≤ 1 := by
          rw [waiting]
          cases opened <;> decide
        rw [if_pos rfl, List.map_append, frame_data single, ih isolated rfl]
        rfl
      · rw [if_neg blank]
        cases data : startsWith line "data:" with
        | true =>
            have here : opened = false ∧ Isolated true rest := by
              simpa [Isolated, blank, data] using isolated
            have count : (lines.add isSpace line).dataLines.length = true.toNat := by
              rw [add_data data, List.length_append, waiting, here.1]
              rfl
            rw [ih here.2 count, add_data data, List.append_assoc]
            simp [dataOf, data]
        | false =>
            have isolated : Isolated opened rest := by
              simpa [Isolated, blank, data] using isolated
            have count : (lines.add isSpace line).dataLines.length = opened.toNat := by
              rw [add_other data, waiting]
            rw [ih isolated count, add_other data]
            simp [dataOf, data]

theorem collectFrames_data (isSpace : Char → Bool) {rest : List (List Char)}
    (isolated : Isolated false rest) :
    (collectFrames isSpace {} rest).map SseFrame.data = rest.filterMap (dataOf isSpace) := by
  have waiting : ({} : FrameLines).dataLines.length = false.toNat := rfl
  rw [collectFrames_isolated isolated waiting]
  rfl

/-! ## More empty lines -/

/-- The same lines, with more empty ones among them. -/
inductive Padded : List (List Char) → List (List Char) → Prop
  | nil : Padded [] []
  | cons {lines more : List (List Char)} (line : List Char) (padded : Padded lines more) :
      Padded (line :: lines) (line :: more)
  | blank {lines more : List (List Char)} (padded : Padded lines more) :
      Padded lines ([] :: more)

theorem Isolated.close {opened : Bool} {lines : List (List Char)}
    (isolated : Isolated opened lines) : Isolated false lines := by
  induction lines generalizing opened with
  | nil => rfl
  | cons line lines ih =>
      rw [Isolated] at isolated ⊢
      split
      · rename_i blank
        rwa [if_pos blank] at isolated
      · rename_i solid
        rw [if_neg solid] at isolated
        split
        · rename_i data
          rw [if_pos data] at isolated
          exact ⟨rfl, isolated.2⟩
        · rename_i other
          rw [if_neg other] at isolated
          exact ih isolated

theorem Isolated.padded {opened : Bool} {lines more : List (List Char)}
    (isolated : Isolated opened lines) (padded : Padded lines more) : Isolated opened more := by
  induction padded generalizing opened with
  | nil => exact isolated
  | cons line padded ih =>
      rw [Isolated] at isolated ⊢
      split
      · rename_i blank
        rw [if_pos blank] at isolated
        exact ih isolated
      · rename_i solid
        rw [if_neg solid] at isolated
        split
        · rename_i data
          rw [if_pos data] at isolated
          exact ⟨isolated.1, ih isolated.2⟩
        · rename_i other
          rw [if_neg other] at isolated
          exact ih isolated
  | blank padded ih =>
      rw [Isolated, if_pos rfl]
      exact ih isolated.close

theorem filterMap_padded {lines more : List (List Char)} (padded : Padded lines more) :
    more.filterMap (dataOf isSpace) = lines.filterMap (dataOf isSpace) := by
  induction padded with
  | nil => rfl
  | cons line padded ih => rw [List.filterMap_cons, List.filterMap_cons, ih]
  | blank padded ih => exact ih

/-! ## The frames of a buffer -/

theorem splitOn_newline (text : List Char) :
    ('\n' :: text).splitOn '\n' = [] :: text.splitOn '\n' := by
  rw [List.splitOn_cons_eq_if_modifyHead]
  rfl

/-- Another character goes to the first line. -/
theorem splitOn_other {c : Char} (other : c ≠ '\n') (text : List Char) : ∃ head tail,
    text.splitOn '\n' = head :: tail ∧ (c :: text).splitOn '\n' = (c :: head) :: tail := by
  obtain ⟨head, tail, split⟩ := List.exists_cons_of_ne_nil (List.splitOn_ne_nil '\n' text)
  refine ⟨head, tail, split, ?_⟩
  rw [List.splitOn_cons_eq_if_modifyHead, split, if_neg (by simpa using other)]
  rfl

/-- The lines of a frame are not empty, but for the first. -/
theorem frame_lines {buffer frame behind : List Char}
    (found : splitBlankLine buffer = some (frame, behind)) :
    ∀ line ∈ (frame.splitOn '\n').tail, line ≠ [] := by
  induction buffer using splitBlankLine.induct generalizing frame behind with
  | case1 rest =>
      cases found
      exact List.forall_mem_nil _
  | case2 c rest other ih =>
      rw [splitBlankLine] at found
      · obtain ⟨⟨frame, behind⟩, found, same⟩ := Option.map_eq_some_iff.1 found
        cases same
        have later := ih found
        have whole := splitBlankLine_append found
        by_cases newline : c = '\n'
        · subst newline
          rw [splitOn_newline, List.tail_cons]
          cases frame with
          | nil => exact absurd whole (fun same => other _ rfl same)
          | cons d frame =>
              have solid : d ≠ '\n' := by
                rintro rfl
                exact other _ rfl whole
              obtain ⟨head, tail, -, split⟩ := splitOn_other solid frame
              rw [split] at later ⊢
              intro line member
              obtain rfl | member := List.mem_cons.1 member
              · exact List.cons_ne_nil d head
              · exact later line member
        · obtain ⟨head, tail, here, split⟩ := splitOn_other newline frame
          rw [here] at later
          rw [split]
          exact later
      · exact other
  | case3 => cases found

/-- Lines that are not empty, and the empty one behind them. -/
theorem collectFrames_solid {lines : FrameLines} {solid rest : List (List Char)}
    (all : ∀ line ∈ solid, line ≠ []) :
    collectFrames isSpace lines (solid ++ [] :: rest) =
      (solid.foldl (fun (lines : FrameLines) line => if line = [] then lines
        else lines.add isSpace line) lines).frame.toList ++ collectFrames isSpace {} rest := by
  induction solid generalizing lines with
  | nil =>
      rw [List.nil_append, collectFrames, if_pos rfl]
      rfl
  | cons line solid ih =>
      have here : line ≠ [] := all line List.mem_cons_self
      rw [List.cons_append, collectFrames, if_neg here,
        ih fun other member => all other (List.mem_cons_of_mem line member), List.foldl_cons,
        if_neg here]

/-- A frame off the buffer is the first frame of the buffer's lines. -/
theorem collectFrames_frame {buffer frame behind : List Char}
    (found : splitBlankLine buffer = some (frame, behind)) :
    collectFrames isJsSpace {} (buffer.splitOn '\n') =
      (parseSseFrame frame).toList ++ collectFrames isJsSpace {} (behind.splitOn '\n') := by
  have solid := frame_lines found
  rw [splitBlankLine_append found, List.splitOn_append_cons_self, splitOn_newline, parseSseFrame]
  obtain ⟨head, tail, split⟩ := List.exists_cons_of_ne_nil (List.splitOn_ne_nil '\n' frame)
  rw [split, List.tail_cons] at solid
  rw [split]
  by_cases blank : head = []
  · -- an empty first line ends no frame, as none is open
    rw [blank, List.cons_append, collectFrames, if_pos rfl, collectFrames_solid solid]
    rfl
  · exact collectFrames_solid fun line member => by
      obtain rfl | member := List.mem_cons.1 member
      · exact blank
      · exact solid line member

/-- What a drained frame parses to. -/
def parseDrained (frame : List Char) : Option SseFrame :=
  parseSseFrame (frame.take (frame.length - 2))

/-- **The drained frames are the frames of the lines**, without the one that is open. -/
theorem drainFrames_lines (buffer : List Char) :
    collectFrames isJsSpace {} (buffer.splitOn '\n') =
      (drainFrames.frames buffer).1.filterMap parseDrained ++
        collectFrames isJsSpace {} ((drainFrames.frames buffer).2.splitOn '\n') := by
  induction buffer using drainFrames.frames_induction with
  | stop buffer none_left =>
      rw [drainFrames.frames_of_none none_left]
      rfl
  | take buffer taken rest found ih =>
      rw [drainFrames.frames_of_some found]
      obtain ⟨⟨frame, behind⟩, split, same⟩ := Option.map_eq_some_iff.1 found
      cases same
      have parsed : parseDrained (frame ++ ['\n', '\n']) = parseSseFrame frame := by
        simp [parseDrained]
      rw [collectFrames_frame split, ih, List.filterMap_cons, parsed]
      cases parseSseFrame frame with
      | none => rfl
      | some parsed => rfl

theorem drainFrames_stable : drainFrames.Stable := by
  intro buffer frame rest more found
  obtain ⟨⟨text, behind⟩, split, same⟩ := Option.map_eq_some_iff.1 found
  cases same
  have longer : splitBlankLine (buffer ++ more) = some (text, rest ++ more) := by
    clear found
    induction buffer using splitBlankLine.induct generalizing text rest with
    | case1 behind =>
        cases split
        rfl
    | case2 c behind other ih =>
        rw [splitBlankLine] at split
        · obtain ⟨⟨text, later⟩, split, same⟩ := Option.map_eq_some_iff.1 split
          cases same
          rw [List.cons_append, splitBlankLine, ih _ split]
          · rfl
          · intro rest' newline same
            cases behind with
            | nil => cases split
            | cons d behind => exact other behind newline (by cases same; rfl)
        · exact other
    | case3 => cases split
  show (splitBlankLine (buffer ++ more)).map _ = _
  rw [longer]
  rfl

end Openyak.Sdk
