/-
# Runtime.SummaryText -- a summary as its rows

What a compaction reads of a summary it reads line by line, with the white space at
the ends trimmed: `highlightRows` and `timelineRows` are the two loops as functions of
the rows.  Formatting a summary squeezes blank lines and takes its tags away, and where
no other tag stands in it that changes neither of them (`highlightRows_squeeze`,
`timelineRows_squeeze`).
-/
import Openyak.Runtime.Compact
import Openyak.Theory.Lines

namespace Openyak.Runtime

open Openyak.Theory
open Openyak.Theory.Text (rows trimEnd joinLines)

set_option autoImplicit false

/-! ## The two loops -/

def timelineHeading : List Char := "- Key timeline:".toList

/-- The rows that are not blank. -/
def solidRows (rows : List (List Char)) : List (List Char) := rows.filter (· ≠ [])

def highlightRows (rows : List (List Char)) : List (List Char) :=
  (rows.takeWhile (· ≠ timelineHeading)).filter fun row => !isSummaryTitle row

def timelineRows (rows : List (List Char)) : List (List Char) :=
  ((rows.dropWhile (· ≠ timelineHeading)).takeWhile (· ≠ [])).filter (· ≠ timelineHeading)

theorem isTimelineHeading_iff (row : List Char) :
    isTimelineHeading row = true ↔ row = timelineHeading := decide_eq_true_iff

theorem isSummaryTitle_heading : isSummaryTitle timelineHeading = false := by decide

theorem highlightLines_true (lines : List (List Char)) : highlightLines true lines = [] := by
  induction lines with
  | nil => rfl
  | cons line lines ih => simp [highlightLines, ih]

theorem highlightLines_eq (lines : List (List Char)) :
    highlightLines false lines = highlightRows (lines.map trimEnd) := by
  induction lines with
  | nil => rfl
  | cons line lines ih =>
      rw [highlightLines, List.map_cons, highlightRows]
      by_cases heading : trimEnd line = timelineHeading
      · have isHeading := (isTimelineHeading_iff (trimEnd line)).2 heading
        rw [if_pos isHeading, heading, isSummaryTitle_heading, if_neg Bool.false_ne_true,
          highlightLines_true]
        simp
      · have noHeading : ¬isTimelineHeading (trimEnd line) := by
          rwa [isTimelineHeading_iff]
        rw [if_neg noHeading, if_neg Bool.false_ne_true, ih, List.takeWhile_cons_of_pos (by simpa)]
        by_cases title : isSummaryTitle (trimEnd line) = true
        · rw [if_pos title, List.filter_cons_of_neg (by simp [title])]
          rfl
        · rw [if_neg title, List.filter_cons_of_pos (by simpa using title)]
          rfl

theorem timelineLines_true (lines : List (List Char)) :
    timelineLines true lines =
      ((lines.map trimEnd).takeWhile (· ≠ [])).filter (· ≠ timelineHeading) := by
  induction lines with
  | nil => rfl
  | cons line lines ih =>
      rw [timelineLines, List.map_cons]
      by_cases heading : trimEnd line = timelineHeading
      · rw [if_pos ((isTimelineHeading_iff _).2 heading), ih, heading]
        rw [List.takeWhile_cons_of_pos (by decide), List.filter_cons_of_neg (by simp)]
      · have noHeading : ¬isTimelineHeading (trimEnd line) := by
          rwa [isTimelineHeading_iff]
        rw [if_neg noHeading, Bool.not_true, if_neg Bool.false_ne_true]
        by_cases blank : trimEnd line = []
        · rw [if_pos blank, blank]
          simp
        · rw [if_neg blank, ih, List.takeWhile_cons_of_pos (by simpa),
            List.filter_cons_of_pos (by simpa)]

theorem timelineLines_eq (lines : List (List Char)) :
    timelineLines false lines = timelineRows (lines.map trimEnd) := by
  induction lines with
  | nil => rfl
  | cons line lines ih =>
      rw [timelineLines, List.map_cons, timelineRows]
      by_cases heading : trimEnd line = timelineHeading
      · rw [if_pos ((isTimelineHeading_iff _).2 heading), timelineLines_true, heading,
          List.dropWhile_cons_of_neg (by simp), List.takeWhile_cons_of_pos (by decide),
          List.filter_cons_of_neg (by simp)]
      · have noHeading : ¬isTimelineHeading (trimEnd line) := by
          rwa [isTimelineHeading_iff]
        rw [if_neg noHeading, Bool.not_false, if_pos rfl, ih,
          List.dropWhile_cons_of_pos (by simpa)]
        rfl

/-! ## Blank rows -/

theorem solidRows_cons {row : List Char} (solid : row ≠ []) (rows : List (List Char)) :
    solidRows (row :: rows) = row :: solidRows rows := List.filter_cons_of_pos (by simpa)

theorem solidRows_cons_blank (rows : List (List Char)) : solidRows ([] :: rows) = solidRows rows :=
  List.filter_cons_of_neg (by simp)

theorem solidRows_append (xs ys : List (List Char)) :
    solidRows (xs ++ ys) = solidRows xs ++ solidRows ys := List.filter_append ..

theorem solidRows_blank (n : Nat) : solidRows (List.replicate n []) = [] := by
  simp [solidRows]

theorem solidRows_append_blank (rows : List (List Char)) (n : Nat) :
    solidRows (rows ++ List.replicate n []) = solidRows rows := by
  rw [solidRows_append, solidRows_blank, List.append_nil]

/-- Blank rows stop neither search for the heading. -/
theorem takeWhile_solidRows (rows : List (List Char)) :
    (solidRows rows).takeWhile (· ≠ timelineHeading) =
      solidRows (rows.takeWhile (· ≠ timelineHeading)) := by
  induction rows with
  | nil => rfl
  | cons row rows ih =>
      by_cases blank : row = []
      · rw [blank, solidRows_cons_blank, List.takeWhile_cons_of_pos (by decide),
          solidRows_cons_blank, ih]
      · rw [solidRows_cons blank]
        by_cases heading : row = timelineHeading
        · rw [List.takeWhile_cons_of_neg (by simpa), List.takeWhile_cons_of_neg (by simpa)]
          rfl
        · rw [List.takeWhile_cons_of_pos (by simpa), List.takeWhile_cons_of_pos (by simpa),
            solidRows_cons blank, ih]

theorem dropWhile_solidRows (rows : List (List Char)) :
    (solidRows rows).dropWhile (· ≠ timelineHeading) =
      solidRows (rows.dropWhile (· ≠ timelineHeading)) := by
  induction rows with
  | nil => rfl
  | cons row rows ih =>
      by_cases blank : row = []
      · rw [blank, solidRows_cons_blank, List.dropWhile_cons_of_pos (by decide), ih]
      · rw [solidRows_cons blank]
        by_cases heading : row = timelineHeading
        · rw [List.dropWhile_cons_of_neg (by simpa), List.dropWhile_cons_of_neg (by simpa),
            solidRows_cons blank]
        · rw [List.dropWhile_cons_of_pos (by simpa), List.dropWhile_cons_of_pos (by simpa), ih]

theorem highlightRows_solidRows (rows : List (List Char)) :
    highlightRows (solidRows rows) = highlightRows rows := by
  rw [highlightRows, takeWhile_solidRows, solidRows, List.filter_filter, highlightRows]
  refine List.filter_congr fun row _ => ?_
  by_cases blank : row = []
  · subst blank
    rfl
  · simp [blank]

theorem takeWhile_append_blank (rows : List (List Char)) (n : Nat) :
    (rows ++ List.replicate n []).takeWhile (· ≠ []) = rows.takeWhile (· ≠ []) := by
  induction rows with
  | nil => cases n <;> simp [List.replicate_succ]
  | cons row rows ih =>
      rw [List.cons_append, List.takeWhile_cons, List.takeWhile_cons, ih]

theorem timelineRows_append_blank (rows : List (List Char)) (n : Nat) :
    timelineRows (rows ++ List.replicate n []) = timelineRows rows := by
  induction rows with
  | nil =>
      have nothing : (List.replicate n ([] : List Char)).dropWhile (· ≠ timelineHeading) = [] := by
        rw [List.dropWhile_eq_nil_iff]
        intro row member
        rw [List.eq_of_mem_replicate member]
        decide
      rw [List.nil_append, timelineRows, nothing]
      rfl
  | cons row rows ih =>
      rw [timelineRows] at ih ⊢
      rw [timelineRows] at ih ⊢
      by_cases heading : row = timelineHeading
      · rw [List.cons_append, List.dropWhile_cons_of_neg (by simpa),
          List.dropWhile_cons_of_neg (by simpa), ← List.cons_append, takeWhile_append_blank]
      · rw [List.cons_append, List.dropWhile_cons_of_pos (by simpa),
          List.dropWhile_cons_of_pos (by simpa), ih]

/-! ## Squeezing -/

/-- What is left of a text without tags: blank lines squeezed, the ends trimmed. -/
def squeeze (text : List Char) : List Char := Text.trim (collapseBlankLines text)

theorem collapseLines_subset (lastBlank : Bool) (lines : List (List Char)) :
    collapseLines lastBlank lines ⊆ lines := by
  induction lines generalizing lastBlank with
  | nil => exact List.Subset.refl _
  | cons line lines ih =>
      rw [collapseLines]
      split
      · exact List.Subset.trans (ih _) (List.subset_cons_self line lines)
      · exact List.cons_subset_cons line (ih _)

theorem solidRows_collapse (lastBlank : Bool) (lines : List (List Char)) :
    solidRows ((collapseLines lastBlank lines).map trimEnd) = solidRows (lines.map trimEnd) := by
  induction lines generalizing lastBlank with
  | nil => rfl
  | cons line lines ih =>
      rw [collapseLines, List.map_cons]
      by_cases blank : Text.trim line = []
      · have blankRow : trimEnd line = [] := Text.trim_eq_nil.1 blank
        rw [blankRow, solidRows_cons_blank]
        split
        · exact ih _
        · rw [List.map_cons, blankRow, solidRows_cons_blank, ih]
      · have solid : trimEnd line ≠ [] := fun none => blank (Text.trim_eq_nil.2 none)
        rw [if_neg (by simp [blank]), List.map_cons, solidRows_cons solid, solidRows_cons solid, ih]

theorem takeWhile_collapse (lines : List (List Char)) :
    ((collapseLines false lines).map trimEnd).takeWhile (· ≠ []) =
      (lines.map trimEnd).takeWhile (· ≠ []) := by
  induction lines with
  | nil => rfl
  | cons line lines ih =>
      rw [collapseLines]
      by_cases blank : Text.trim line = []
      · have blankRow : trimEnd line = [] := Text.trim_eq_nil.1 blank
        simp [blank, blankRow]
      · have solid : trimEnd line ≠ [] := fun none => blank (Text.trim_eq_nil.2 none)
        simp only [blank, decide_false, Bool.false_and, Bool.false_eq_true, if_false, List.map_cons]
        rw [List.takeWhile_cons_of_pos (by simpa), List.takeWhile_cons_of_pos (by simpa), ih]

theorem timelineRows_collapse (lastBlank : Bool) (lines : List (List Char)) :
    timelineRows ((collapseLines lastBlank lines).map trimEnd) =
      timelineRows (lines.map trimEnd) := by
  induction lines generalizing lastBlank with
  | nil => rfl
  | cons line lines ih =>
      rw [collapseLines]
      by_cases heading : trimEnd line = timelineHeading
      · have solid : Text.trim line ≠ [] := by
          rw [ne_eq, Text.trim_eq_nil, heading]
          decide
        simp only [solid, decide_false, Bool.false_and, Bool.false_eq_true, if_false, List.map_cons,
          heading, timelineRows]
        rw [List.dropWhile_cons_of_neg (by simp), List.dropWhile_cons_of_neg (by simp),
          List.takeWhile_cons_of_pos (by decide), List.takeWhile_cons_of_pos (by decide),
          takeWhile_collapse]
      · have skip : ∀ rows, timelineRows (trimEnd line :: rows) = timelineRows rows := by
          intro rows
          rw [timelineRows, List.dropWhile_cons_of_pos (by simpa)]
          rfl
        split
        · rw [ih, List.map_cons, skip]
        · rw [List.map_cons, List.map_cons, skip, skip, ih]

/-- The rows of the squeezed text, up to blank ones at its end. -/
theorem rows_collapse (text : List Char) :
    rows (collapseBlankLines text) =
      (collapseLines false (Text.lines text)).map trimEnd ++ List.replicate 1 [] := by
  have flat : ∀ line ∈ collapseLines false (Text.lines text), '\n' ∉ line := fun line member =>
    (Text.mem_lines (collapseLines_subset _ _ member)).1
  rw [collapseBlankLines]
  generalize collapseLines false (Text.lines text) = lines at flat
  induction lines with
  | nil => rfl
  | cons line lines ih =>
      obtain ⟨first, others⟩ := List.forall_mem_cons.1 flat
      rw [List.flatMap_cons, List.append_assoc, List.singleton_append, Text.rows_more first,
        ih others, List.map_cons, List.cons_append]

/-- The text is empty or starts with no white space. -/
def Starts (text : List Char) : Prop := ∀ c ∈ text.head?, ¬Text.isWhitespace c

theorem Starts.of_isPrefix {text longer : List Char} (starts : Starts longer)
    (held : text <+: longer) : Starts text := by
  intro c isFirst
  obtain ⟨rest, rfl⟩ : ∃ rest, text = c :: rest := List.head?_eq_some_iff.1 isFirst
  obtain ⟨more, rfl⟩ := held
  exact starts c rfl

theorem starts_trim (text : List Char) : Starts (Text.trim text) := by
  have start : Starts (Text.trimStart text) := by
    intro c isFirst
    have stops := List.head?_dropWhile_not Text.isWhitespace text
    have head : (text.dropWhile Text.isWhitespace).head? = some c := isFirst
    rw [head] at stops
    simpa using stops
  exact start.of_isPrefix (Text.trimEnd_isPrefix _)

theorem trim_of_starts {text : List Char} (starts : Starts text) :
    Text.trim text = trimEnd text := by
  cases text with
  | nil => rfl
  | cons c text => exact Text.trim_of_solid (starts c rfl) text

theorem lines_starts {c : Char} (solid : ¬Text.isWhitespace c) (text : List Char) :
    ∃ more others, Text.lines (c :: text) = (c :: more) :: others := by
  by_cases split : '\n' ∈ c :: text
  · obtain ⟨word, rest, isText, whole⟩ := List.eq_append_cons_of_mem split
    rw [isText, Text.lines_more whole]
    cases word with
    | nil =>
        obtain ⟨rfl, -⟩ := List.cons.inj isText
        exact absurd rfl solid
    | cons first word =>
        obtain ⟨rfl, -⟩ := List.cons.inj isText
        rcases List.prefix_cons_iff.1 (Text.endLine_isPrefix (c :: word)) with none | ⟨more, ends, -⟩
        · have trimmed := Text.trimEnd_endLine (c :: word)
          rw [none] at trimmed
          exact absurd (Text.trimEnd_eq_nil.1 trimmed.symm c List.mem_cons_self) solid
        · exact ⟨more, _, by rw [ends]⟩
  · exact ⟨text, [], by rw [Text.lines_word split]; rfl⟩

theorem collapse_starts {c : Char} (solid : ¬Text.isWhitespace c) (text : List Char) :
    ∃ rest, collapseBlankLines (c :: text) = c :: rest := by
  obtain ⟨more, others, first⟩ := lines_starts solid text
  have kept : ¬Text.trim (c :: more) = [] := by
    rw [Text.trim_eq_nil, Text.trimEnd_eq_nil]
    exact fun white => solid (white c List.mem_cons_self)
  rw [collapseBlankLines, first, collapseLines, if_neg (by simp)]
  exact ⟨_, rfl⟩

section Squeeze

variable {text : List Char}

/-- Squeezing takes away blank rows only. -/
theorem rows_squeeze (starts : Starts text) :
    ∃ n, rows (collapseBlankLines text) = rows (squeeze text) ++ List.replicate n [] := by
  cases text with
  | nil => exact ⟨0, rfl⟩
  | cons c text =>
      have solid := starts c rfl
      obtain ⟨rest, isText⟩ := collapse_starts solid text
      rw [squeeze, isText, Text.trim_of_solid solid]
      exact Text.rows_trimEnd (c :: rest)

theorem solidRows_squeeze (starts : Starts text) :
    solidRows (rows (squeeze text)) = solidRows (rows text) := by
  obtain ⟨n, squeezed⟩ := rows_squeeze starts
  obtain ⟨m, whole⟩ := Text.rows_lines text
  rw [← solidRows_append_blank _ n, ← squeezed, rows_collapse, solidRows_append_blank,
    solidRows_collapse, whole, solidRows_append_blank]

theorem highlightRows_squeeze (starts : Starts text) :
    highlightRows (rows (squeeze text)) = highlightRows (rows text) := by
  rw [← highlightRows_solidRows, solidRows_squeeze starts, highlightRows_solidRows]

theorem timelineRows_squeeze (starts : Starts text) :
    timelineRows (rows (squeeze text)) = timelineRows (rows text) := by
  obtain ⟨n, squeezed⟩ := rows_squeeze starts
  obtain ⟨m, whole⟩ := Text.rows_lines text
  rw [← timelineRows_append_blank _ n, ← squeezed, rows_collapse, timelineRows_append_blank,
    timelineRows_collapse, whole, timelineRows_append_blank]

theorem highlightLines_rows (text : List Char) :
    highlightLines false (Text.lines text) = highlightRows (rows text) := by
  obtain ⟨n, whole⟩ := Text.rows_lines text
  rw [highlightLines_eq, whole, ← highlightRows_solidRows (_ ++ _), solidRows_append_blank,
    highlightRows_solidRows]

theorem timelineLines_rows (text : List Char) :
    timelineLines false (Text.lines text) = timelineRows (rows text) := by
  obtain ⟨n, whole⟩ := Text.rows_lines text
  rw [timelineLines_eq, whole, timelineRows_append_blank]

theorem infix_squeeze {needle : List Char} (flat : '\n' ∉ needle) (some_ : needle ≠ [])
    (found : needle <:+: squeeze text) : needle <:+: text := by
  have trimmed : squeeze text <:+: collapseBlankLines text :=
    (Text.trimEnd_isPrefix _).isInfix.trans (List.dropWhile_suffix _).isInfix
  have inLine : ∀ lines : List (List Char), needle <:+: lines.flatMap (fun line => line ++ ['\n']) →
      ∃ line ∈ lines, needle <:+: line := by
    intro lines
    induction lines with
    | nil => exact fun found => absurd (List.infix_nil.1 found) some_
    | cons line lines ih =>
        intro found
        rw [List.flatMap_cons, List.append_assoc, List.singleton_append] at found
        rcases Text.infix_newline flat found with here | later
        · exact ⟨line, List.mem_cons_self, here⟩
        · obtain ⟨line, member, held⟩ := ih later
          exact ⟨line, List.mem_cons_of_mem _ member, held⟩
  obtain ⟨line, member, held⟩ := inLine _ (found.trans trimmed)
  exact held.trans (Text.mem_lines (collapseLines_subset _ _ member)).2

end Squeeze

/-! ## Formatting -/

/-- Both tags stand in the text, in any order. -/
def Tagged (tag : String) (text : List Char) : Prop :=
  (openTag tag).toList <:+: text ∧ (closeTag tag).toList <:+: text

theorem openTag_some (tag : String) : (openTag tag).toList ≠ [] := by
  rw [openTag, String.toList_append, String.toList_append]
  exact List.append_ne_nil_of_left_ne_nil (List.append_ne_nil_of_left_ne_nil (by decide) _) _

theorem closeTag_some (tag : String) : (closeTag tag).toList ≠ [] := by
  rw [closeTag, String.toList_append, String.toList_append]
  exact List.append_ne_nil_of_left_ne_nil (List.append_ne_nil_of_left_ne_nil (by decide) _) _

theorem stripTagBlock_untagged {tag : String} {text : List Char} (untagged : ¬Tagged tag text) :
    stripTagBlock text tag = text := by
  rw [stripTagBlock]
  by_cases opens : (openTag tag).toList <:+: text
  · have closes : ¬ (closeTag tag).toList <:+: text := fun closes => untagged ⟨opens, closes⟩
    rw [Text.splitOnce_none closes]
    cases Text.splitOnce (openTag tag) text <;> rfl
  · rw [Text.splitOnce_none opens]

/-- What is stripped of a text is stripped of a longer one, if it is there to be. -/
theorem stripTagBlock_isPrefix (tag : String) {text longer : List Char} (held : text <+: longer) :
    stripTagBlock text tag = text ∨ stripTagBlock text tag <+: stripTagBlock longer tag := by
  obtain ⟨rest, rfl⟩ := held
  cases opens : Text.splitOnce (openTag tag) text with
  | none => exact Or.inl (by rw [stripTagBlock, opens])
  | some before =>
      cases closes : Text.splitOnce (closeTag tag) text with
      | none => exact Or.inl (by rw [stripTagBlock, opens, closes])
      | some behind =>
          refine Or.inr ?_
          rw [stripTagBlock, stripTagBlock, opens, closes,
            Text.splitOnce_extend (openTag_some tag) opens,
            Text.splitOnce_extend (closeTag_some tag) closes]
          exact ⟨rest, List.append_assoc _ _ _⟩

theorem extractTagBlock_open {tag : String} {text : List Char}
    (absent : ¬ (closeTag tag).toList <:+: text) : extractTagBlock text tag = none := by
  rw [extractTagBlock]
  cases opens : Text.splitOnce (openTag tag) text with
  | none => rfl
  | some parts =>
      have behind : ¬ (closeTag tag).toList <:+: parts.2 := by
        intro found
        refine absent (found.trans ?_)
        rw [Text.splitOnce_some opens]
        exact (List.suffix_append _ _).isInfix
      simp only [Option.bind_eq_bind, Option.bind_some, Text.splitOnce_none behind]
      rfl

/-- A summary without its tags, not squeezed yet. -/
def untag (summary : List Char) : List Char :=
  let withoutAnalysis := stripTagBlock summary "analysis"
  match extractTagBlock withoutAnalysis "summary" with
  | some content =>
      Text.replace (openTag "summary" ++ String.ofList content ++ closeTag "summary")
        ("Summary:\n" ++ String.ofList (Text.trim content)) withoutAnalysis
  | none => withoutAnalysis

theorem format_eq (summary : List Char) : formatCompactSummary summary = squeeze (untag summary) :=
  rfl

theorem untag_plain {text : List Char} (untagged : ¬Tagged "analysis" text)
    (absent : ¬ (closeTag "summary").toList <:+: text) : untag text = text := by
  simp only [untag, stripTagBlock_untagged untagged, extractTagBlock_open absent]

/-- A text without the tags is only squeezed. -/
theorem format_plain {text : List Char} (untagged : ¬Tagged "analysis" text)
    (absent : ¬ (closeTag "summary").toList <:+: text) :
    formatCompactSummary text = squeeze text := by
  rw [format_eq, untag_plain untagged absent]

/-! ### A text in its tags -/

/-- What stands between the tags. -/
theorem extractTagBlock_between {inside : List Char}
    (quiet : Text.NoStart (closeTag "summary").toList inside (closeTag "summary").toList) :
    extractTagBlock ((openTag "summary").toList ++ (inside ++ (closeTag "summary").toList))
      "summary" = some inside := by
  have closed := Text.splitOnce_at (closeTag_some "summary") []
  rw [List.append_nil] at closed
  have skipped := Text.splitOnce_skip quiet
  rw [closed, Option.map_some, List.append_nil] at skipped
  rw [extractTagBlock, Text.splitOnce_at (openTag_some "summary")]
  simp only [Option.bind_eq_bind, Option.bind_some, skipped]
  rfl

/-- **A text in its tags is squeezed behind its title.** -/
theorem format_between {inside : List Char}
    (quiet : Text.NoStart (closeTag "summary").toList inside (closeTag "summary").toList)
    (untagged : ¬Tagged "analysis"
      ((openTag "summary").toList ++ (inside ++ (closeTag "summary").toList))) :
    formatCompactSummary
        ((openTag "summary").toList ++ (inside ++ (closeTag "summary").toList)) =
      squeeze ("Summary:\n".toList ++ Text.trim inside) := by
  rw [formatCompactSummary, stripTagBlock_untagged untagged]
  simp only [extractTagBlock_between quiet]
  have whole : (openTag "summary" ++ String.ofList inside ++ closeTag "summary").toList =
      (openTag "summary").toList ++ (inside ++ (closeTag "summary").toList) := by
    rw [String.toList_append, String.toList_append, String.toList_ofList, List.append_assoc]
  have some_ : (openTag "summary" ++ String.ofList inside ++ closeTag "summary").toList ≠ [] := by
    rw [whole]
    exact List.append_ne_nil_of_left_ne_nil (openTag_some "summary") _
  have replaced := Text.replace_self some_ ("Summary:\n" ++ String.ofList (Text.trim inside))
  have content : (String.ofList (Text.trim inside)).toList = Text.trim inside :=
    String.toList_ofList
  rw [whole, String.toList_append, content] at replaced
  rw [replaced, squeeze]

/-- A summary with its tags. -/
def enclose (inside : List Char) : List Char :=
  (openTag "summary").toList ++ '\n' :: (inside ++ '\n' :: (closeTag "summary").toList)

theorem infix_enclose {needle inside : List Char} (flat : '\n' ∉ needle)
    (opens : ¬ needle <:+: (openTag "summary").toList)
    (closes : ¬ needle <:+: (closeTag "summary").toList) (found : needle <:+: enclose inside) :
    needle <:+: inside :=
  ((Text.infix_newline flat ((Text.infix_newline flat found).resolve_left opens)).resolve_right
    closes)

theorem untagged_enclose {inside : List Char} (untagged : ¬Tagged "analysis" inside) :
    ¬Tagged "analysis" (enclose inside) := by
  rintro ⟨opens, closes⟩
  exact untagged ⟨infix_enclose (by decide) (by decide) (by decide) opens,
    infix_enclose (by decide) (by decide) (by decide) closes⟩

theorem format_enclose {inside : List Char} (untagged : ¬Tagged "analysis" inside)
    (absent : ¬ (closeTag "summary").toList <:+: inside) :
    formatCompactSummary (enclose inside) =
      squeeze ("Summary:\n".toList ++ Text.trim ('\n' :: inside ++ ['\n'])) := by
  have flat : '\n' ∉ (closeTag "summary").toList := by decide
  have behind : ¬ (closeTag "summary").toList <:+: '\n' :: inside := by
    intro found
    rcases @Text.infix_newline _ [] _ flat found with none | here
    · exact absurd none (by decide)
    · exact absent here
  have quiet := Text.noStart_newline flat behind (closeTag "summary").toList
  have spread : enclose inside = (openTag "summary").toList ++
      ('\n' :: inside ++ ['\n'] ++ (closeTag "summary").toList) := by
    rw [enclose, List.append_assoc, List.cons_append, List.singleton_append]
  have whole := untagged_enclose untagged
  rw [spread] at whole ⊢
  exact format_between quiet whole

end Openyak.Runtime
