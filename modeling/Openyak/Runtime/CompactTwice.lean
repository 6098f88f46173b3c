/-
# Runtime.CompactTwice -- a session that has been compacted, compacted again

A continuation's summary is read back as text.  Where no excerpt in it looks like one of
its tags, notes or headings, the highlights above the timeline stay whatever the messages
are (`keepsHighlights`).  The timeline of the messages now removed is read back as far
as its first blank line: it lists every one of them exactly when their entries are
`Unbroken` (`merged_lists_iff`).  The first compaction has no such condition
(`newSummary_lists`), for its timeline is not read back.
-/
import Openyak.Runtime.SummaryReread

namespace Openyak.Runtime

open Openyak.Theory
open Openyak.Theory.Text (rows trimEnd joinLines)

set_option autoImplicit false

/-! ## What is kept and listed -/

/-- The lines below the timeline heading that are not blank. -/
def keyTimeline (text : List Char) : List (List Char) :=
  solidRows (((rows text).dropWhile (· ≠ timelineHeading)).drop 1)

/-- The lines of a message's entry. -/
def entryRows (message : ConversationMessage) : List (List Char) :=
  rows (indent (timelineEntry message))

/-- The timeline has the entry of each message, one behind the other; `deeper` is what its
lines are indented by. -/
def Lists (deeper : List Char → List Char) (text : List Char)
    (messages : List ConversationMessage) : Prop :=
  keyTimeline text = (messages.flatMap fun message => solidRows (entryRows message)).map deeper

/-- Every line above the timeline heading of a summary stands in the next one. -/
def KeepsHighlights (previous next : List Char) : Prop :=
  ∀ row ∈ (rows previous).takeWhile (· ≠ timelineHeading), row <:+: next

/-- The session begins with the continuation of a summary. -/
def Continues (session : Session) (summary : List Char) : Prop :=
  ∃ message rest suppress recent, session.messages = message :: rest ∧ message.role = .system ∧
    firstTextBlock message = some (getCompactContinuationMessage summary suppress recent)

/-! ## What the texts may not look like -/

/-- The text stands in a line that a summary of the messages quotes them in. -/
def Quoted (text : List Char) (messages : List ConversationMessage) : Prop :=
  ∃ line ∈ summaryHead messages ++ messages.map timelineEntry, text <:+: line

instance (text : List Char) (messages : List ConversationMessage) :
    Decidable (Quoted text messages) :=
  inferInstanceAs (Decidable (∃ line ∈ _, text <:+: line))

/-- No line quoted, or above the timeline of the previous summary, makes a block or a
heading that is not there. -/
structure Quiet (formatted : List Char) (removed : List ConversationMessage) : Prop where
  closing : ¬Quoted (closeTag "summary").toList removed
  heading : timelineHeading ∉ (summaryHead removed).flatMap rows
  analysis :
    ((openTag "analysis").toList <:+: aboveTimeline formatted ∨
      Quoted (openTag "analysis").toList removed) →
    ¬((closeTag "analysis").toList <:+: aboveTimeline formatted ∨
      Quoted (closeTag "analysis").toList removed)

/-- No line of an entry reads as the heading, and a blank one has no other behind it. -/
structure Unbroken (messages : List ConversationMessage) : Prop where
  heading : timelineHeading ∉ messages.flatMap entryRows
  blank : ∀ row ∈ (messages.flatMap entryRows).dropWhile (· ≠ []), row = []

instance (messages : List ConversationMessage) : Decidable (Unbroken messages) :=
  decidable_of_iff ((∀ row ∈ messages.flatMap entryRows, row ≠ timelineHeading) ∧
      ∀ row ∈ (messages.flatMap entryRows).dropWhile (· ≠ []), row = [])
    ⟨fun both => ⟨fun listed => both.1 _ listed rfl, both.2⟩,
      fun unbroken => ⟨fun _ listed same => unbroken.heading (same ▸ listed), unbroken.blank⟩⟩

/-! ## Rows -/

theorem keyTimeline_eq (text : List Char) :
    keyTimeline text = ((solidRows (rows text)).dropWhile (· ≠ timelineHeading)).drop 1 := by
  rw [dropWhile_solidRows, keyTimeline]
  cases found : (rows text).dropWhile (· ≠ timelineHeading) with
  | nil => rfl
  | cons row below =>
      have isHeading : row = timelineHeading := by
        have stops := List.head?_dropWhile_not (· ≠ timelineHeading) (rows text)
        rw [found] at stops
        simpa using stops
      rw [isHeading, solidRows_cons (by decide), List.drop_one, List.drop_one, List.tail_cons,
        List.tail_cons]

example : keyTimeline "- Key timeline:\n\n  - user: hi".toList = ["  - user: hi".toList] := by
  decide +kernel

theorem highlightRows_append_blank (rows : List (List Char)) (n : Nat) :
    highlightRows (rows ++ List.replicate n []) = highlightRows rows := by
  rw [← highlightRows_solidRows, solidRows_append_blank, highlightRows_solidRows]

/-- What is above the heading stands in the text above the heading. -/
theorem infix_aboveTimeline {row text : List Char}
    (member : row ∈ (rows text).takeWhile (· ≠ timelineHeading)) : row <:+: aboveTimeline text := by
  rw [rows, List.takeWhile_map] at member
  obtain ⟨line, isLine, rfl⟩ := List.mem_map.1 member
  exact (Text.trimEnd_isPrefix line).isInfix.trans (Text.infix_of_mem_joinLines isLine)

/-- A row that is not blank, indented, is a row. -/
theorem rows_indent {row text : List Char} (member : row ∈ rows text) (solid : row ≠ []) :
    rows (indent row) = [indent row] := by
  obtain ⟨trimmed, whole, -⟩ := Text.mem_rows member
  have flat : '\n' ∉ indent row := by simpa [indent] using whole
  obtain ⟨init, last, rfl⟩ := (List.eq_nil_or_concat row).resolve_left solid
  rw [List.concat_eq_append] at trimmed flat ⊢
  have ends : ¬Text.isWhitespace last := by
    intro white
    rw [Text.trimEnd_append_white white] at trimmed
    have length := congrArg List.length trimmed
    have bound := (Text.trimEnd_isPrefix init).length_le
    rw [List.length_append, List.length_singleton] at length
    omega
  rw [Text.rows_word flat, indent, ← List.cons_append, ← List.cons_append,
    Text.trimEnd_append_solid ends]

theorem infix_indent {word line : List Char} (found : '<' :: word <:+: indent line) :
    '<' :: word <:+: line := by
  have skip : ∀ line, '<' :: word <:+: ' ' :: line → '<' :: word <:+: line := by
    intro line found
    rcases List.infix_cons_iff.1 found with here | later
    · exact absurd (List.cons_prefix_cons.1 here).1 (by decide)
    · exact later
  exact skip _ (skip _ found)

/-! ## A summary formatted -/

theorem joinLines_enclose {lines : List (List Char)} (some_ : lines ≠ []) :
    joinLines (["<summary>".toList] ++ lines ++ ["</summary>".toList]) =
      enclose (joinLines lines) := by
  have opens : "<summary>".toList = (openTag "summary").toList := by decide
  have closes : "</summary>".toList = (closeTag "summary").toList := by decide
  rw [List.append_assoc, List.singleton_append, Text.joinLines_cons _ (by simp),
    Text.joinLines_append some_ (by simp), Text.joinLines_singleton, enclose, opens, closes]

section Enclose

variable {inside : List Char}

/-- No tag stands in the text that formatting takes away. -/
structure Plain (inside : List Char) : Prop where
  analysis : ¬Tagged "analysis" inside
  closing : ¬ (closeTag "summary").toList <:+: inside

/-- What is squeezed of a summary in its tags. -/
def titled (inside : List Char) : List Char := "Summary:".toList ++ '\n' :: trimEnd inside

theorem format_titled (plain : Plain inside) (starts : Starts inside) :
    formatCompactSummary (enclose inside) = squeeze (titled inside) := by
  have longer : Starts (inside ++ ['\n']) ∨ inside = [] := by
    cases inside with
    | nil => exact Or.inr rfl
    | cons c inside => exact Or.inl starts
  have trimmed : Text.trim ('\n' :: inside ++ ['\n']) = trimEnd inside := by
    have skip : Text.trim ('\n' :: (inside ++ ['\n'])) = Text.trim (inside ++ ['\n']) := by
      rw [Text.trim, Text.trimStart, List.dropWhile_cons_of_pos (by decide)]
      rfl
    rw [List.cons_append, skip]
    rcases longer with starts | rfl
    · rw [trim_of_starts starts, Text.trimEnd_append_white (by decide)]
    · rfl
  rw [format_enclose plain.analysis plain.closing, trimmed]
  rfl

theorem starts_squeeze (text : List Char) : Starts (squeeze text) := starts_trim _

theorem starts_titled (inside : List Char) : Starts (titled inside) := by
  intro c isFirst
  have head : 'S' = c := Option.some.inj isFirst
  rw [← head]
  decide

/-- The rows of the titled text, up to blank ones at its end. -/
theorem rows_titled (inside : List Char) :
    ∃ n, "Summary:".toList :: rows inside = rows (titled inside) ++ List.replicate n [] := by
  obtain ⟨n, same⟩ := Text.rows_trimEnd inside
  have trimmed : trimEnd "Summary:".toList = "Summary:".toList := by decide
  have title := @Text.rows_word "Summary:".toList (by decide)
  have whole := Text.rows_append "Summary:".toList (trimEnd inside)
  rw [title, trimmed, List.singleton_append] at whole
  have isTitled : rows (titled inside) = "Summary:".toList :: rows (trimEnd inside) := whole
  exact ⟨n, by rw [same, isTitled, List.cons_append]⟩

theorem solidRows_titled (inside : List Char) :
    solidRows (rows (titled inside)) = "Summary:".toList :: solidRows (rows inside) := by
  obtain ⟨n, same⟩ := rows_titled inside
  rw [← solidRows_append_blank _ n, ← same, solidRows_cons (by decide)]

theorem highlightRows_titled (inside : List Char) :
    highlightRows (rows (titled inside)) = highlightRows (rows inside) := by
  obtain ⟨n, same⟩ := rows_titled inside
  rw [← highlightRows_append_blank _ n, ← same, highlightRows, highlightRows,
    List.takeWhile_cons_of_pos (by decide), List.filter_cons_of_neg (by decide)]

theorem timelineRows_titled (inside : List Char) :
    timelineRows (rows (titled inside)) = timelineRows (rows inside) := by
  obtain ⟨n, same⟩ := rows_titled inside
  rw [← timelineRows_append_blank _ n, ← same, timelineRows, timelineRows,
    List.dropWhile_cons_of_pos (by decide)]

/-- A formatted summary has no tag that was not in its text. -/
theorem Plain.squeezed (plain : Plain inside) : Plain (squeeze (titled inside)) := by
  have back : ∀ word, '\n' ∉ '<' :: word → '<' :: word <:+: squeeze (titled inside) →
      '<' :: word <:+: inside := by
    intro word flat found
    have inTitled := infix_squeeze flat (List.cons_ne_nil _ _) found
    rcases Text.infix_newline flat inTitled with inTitle | below
    · exact absurd (inTitle.subset List.mem_cons_self) (by decide)
    · exact below.trans (Text.trimEnd_isPrefix inside).isInfix
  have opens : (openTag "analysis").toList = '<' :: "analysis>".toList := by decide
  have closes : (closeTag "analysis").toList = '<' :: "/analysis>".toList := by decide
  have closing : (closeTag "summary").toList = '<' :: "/summary>".toList := by decide
  constructor
  · rintro ⟨opened, closed⟩
    refine plain.analysis ⟨?_, ?_⟩
    · rw [opens] at opened ⊢
      exact back _ (by decide) opened
    · rw [closes] at closed ⊢
      exact back _ (by decide) closed
  · intro found
    refine plain.closing ?_
    rw [closing] at found ⊢
    exact back _ (by decide) found

theorem highlights_reread (plain : Plain inside) (starts : Starts inside) :
    extractSummaryHighlights (formatCompactSummary (enclose inside)) =
      highlightRows (rows inside) := by
  have again := plain.squeezed
  rw [extractSummaryHighlights, format_titled plain starts, format_plain again.analysis again.closing,
    highlightLines_rows, highlightRows_squeeze (starts_squeeze _),
    highlightRows_squeeze (starts_titled inside), highlightRows_titled]

theorem timeline_reread (plain : Plain inside) (starts : Starts inside) :
    extractSummaryTimeline (formatCompactSummary (enclose inside)) = timelineRows (rows inside) := by
  have again := plain.squeezed
  rw [extractSummaryTimeline, format_titled plain starts, format_plain again.analysis again.closing,
    timelineLines_rows, timelineRows_squeeze (starts_squeeze _),
    timelineRows_squeeze (starts_titled inside), timelineRows_titled]

theorem solidRows_format (plain : Plain inside) (starts : Starts inside) :
    solidRows (rows (formatCompactSummary (enclose inside))) =
      "Summary:".toList :: solidRows (rows inside) := by
  rw [format_titled plain starts, solidRows_squeeze (starts_titled inside), solidRows_titled]

end Enclose

/-! ## The summary of the removed messages -/

section Removed

variable {removed : List ConversationMessage}

/-- Its lines, without the tags. -/
def summaryLines (removed : List ConversationMessage) : List (List Char) :=
  summaryHead removed ++ [timelineHeading] ++ removed.map fun message => indent (timelineEntry message)

theorem summarizeMessages_eq (removed : List ConversationMessage) :
    summarizeMessages removed = enclose (joinLines (summaryLines removed)) := by
  rw [← joinLines_enclose (by simp [summaryLines]), summarizeMessages, summaryLines]
  simp only [List.append_assoc]
  rfl

theorem starts_summaryLines (removed : List ConversationMessage) :
    Starts (joinLines (summaryLines removed)) := by
  have first : ∃ rest, summaryLines removed = "Conversation summary:".toList :: rest := ⟨_, rfl⟩
  obtain ⟨rest, isLines⟩ := first
  have some_ : rest ≠ [] := by
    rintro rfl
    have both := congrArg List.length isLines
    simp [summaryLines, summaryHead] at both
  rw [isLines, Text.joinLines_cons _ some_]
  intro c isFirst
  have head : 'C' = c := Option.some.inj isFirst
  rw [← head]
  decide

theorem quoted_of_infix {word : List Char} (flat : '\n' ∉ '<' :: word)
    (found : '<' :: word <:+: joinLines (summaryLines removed)) : Quoted ('<' :: word) removed := by
  obtain ⟨line, member, held⟩ := Text.infix_joinLines flat (List.cons_ne_nil _ _) found
  rw [summaryLines, List.append_assoc, List.mem_append, List.singleton_append, List.mem_cons,
    List.mem_map] at member
  rcases member with inHead | rfl | ⟨message, isMessage, rfl⟩
  · exact ⟨line, List.mem_append_left _ inHead, held⟩
  · exact absurd (held.subset List.mem_cons_self) (by decide)
  · exact ⟨_, List.mem_append_right _ (List.mem_map_of_mem isMessage), infix_indent held⟩

theorem rows_summaryLines (removed : List ConversationMessage) :
    rows (joinLines (summaryLines removed)) =
      (summaryHead removed).flatMap rows ++ timelineHeading :: removed.flatMap entryRows := by
  have trimmed : trimEnd timelineHeading = timelineHeading := by decide
  have heading := @Text.rows_word timelineHeading (by decide)
  rw [trimmed] at heading
  rw [Text.rows_joinLines (by simp [summaryLines]), summaryLines, List.flatMap_append,
    List.flatMap_append, List.flatMap_singleton, heading, List.flatMap_map, List.append_assoc]
  rfl

variable {formatted : List Char}

theorem Quiet.plain (quiet : Quiet formatted removed) : Plain (joinLines (summaryLines removed)) := by
  have opens : (openTag "analysis").toList = '<' :: "analysis>".toList := by decide
  have closes : (closeTag "analysis").toList = '<' :: "/analysis>".toList := by decide
  have closing : (closeTag "summary").toList = '<' :: "/summary>".toList := by decide
  constructor
  · rintro ⟨opened, closed⟩
    rw [opens] at opened
    rw [closes] at closed
    refine quiet.analysis (Or.inr ?_) (Or.inr ?_)
    · exact opens ▸ quoted_of_infix (by decide) opened
    · exact closes ▸ quoted_of_infix (by decide) closed
  · intro found
    rw [closing] at found
    exact quiet.closing (closing ▸ quoted_of_infix (by decide) found)

/-- The timeline is read as far as its first blank line. -/
theorem timelineRows_summaryLines (quiet : Quiet formatted removed) :
    timelineRows (rows (joinLines (summaryLines removed))) =
      ((removed.flatMap entryRows).takeWhile (· ≠ [])).filter (· ≠ timelineHeading) := by
  have above : ∀ row ∈ (summaryHead removed).flatMap rows, row ≠ timelineHeading :=
    fun row member same => quiet.heading (same ▸ member)
  rw [rows_summaryLines, timelineRows, List.dropWhile_append_of_pos (by simpa using above),
    List.dropWhile_cons_of_neg (by simp), List.takeWhile_cons_of_pos (by decide),
    List.filter_cons_of_neg (by simp)]

/-- As far as that it is all of it exactly when the entries are unbroken. -/
theorem filter_takeWhile_iff (messages : List ConversationMessage) :
    ((messages.flatMap entryRows).takeWhile (· ≠ [])).filter (· ≠ timelineHeading) =
        solidRows (messages.flatMap entryRows) ↔ Unbroken messages := by
  have split : solidRows (messages.flatMap entryRows) =
      (messages.flatMap entryRows).takeWhile (· ≠ []) ++
        solidRows ((messages.flatMap entryRows).dropWhile (· ≠ [])) := by
    have solid : solidRows ((messages.flatMap entryRows).takeWhile (· ≠ [])) =
        (messages.flatMap entryRows).takeWhile (· ≠ []) := by
      refine List.filter_eq_self.2 fun row member => ?_
      exact @List.mem_takeWhile_imp _ (fun row => decide (row ≠ [])) _ _ member
    have parts : (messages.flatMap entryRows).takeWhile (· ≠ []) ++
        (messages.flatMap entryRows).dropWhile (· ≠ []) = messages.flatMap entryRows :=
      List.takeWhile_append_dropWhile
    rw [← solid, ← solidRows_append, parts]
  constructor
  · intro same
    have length := congrArg List.length same
    rw [split, List.length_append] at length
    have shorter := List.length_filter_le (· ≠ timelineHeading)
      ((messages.flatMap entryRows).takeWhile (· ≠ []))
    have none : solidRows ((messages.flatMap entryRows).dropWhile (· ≠ [])) = [] :=
      List.eq_nil_of_length_eq_zero (by omega)
    constructor
    · intro isThere
      have kept : timelineHeading ∈ solidRows (messages.flatMap entryRows) :=
        List.mem_filter.2 ⟨isThere, by decide⟩
      rw [← same] at kept
      simpa using (List.mem_filter.1 kept).2
    · intro row member
      by_contra solid
      have kept : row ∈ solidRows ((messages.flatMap entryRows).dropWhile (· ≠ [])) :=
        List.mem_filter.2 ⟨member, by simpa using solid⟩
      rw [none] at kept
      exact nomatch kept
  · intro unbroken
    have none : solidRows ((messages.flatMap entryRows).dropWhile (· ≠ [])) = [] :=
      List.filter_eq_nil_iff.2 fun row member => by simp [unbroken.blank row member]
    have all : ((messages.flatMap entryRows).takeWhile (· ≠ [])).filter (· ≠ timelineHeading) =
        (messages.flatMap entryRows).takeWhile (· ≠ []) := by
      refine List.filter_eq_self.2 fun row member => ?_
      have isThere := (List.takeWhile_subset _) member
      have other : row ≠ timelineHeading := fun same => unbroken.heading (same ▸ isThere)
      simpa using other
    rw [split, none, all, List.append_nil]

end Removed

/-! ## The merged summary -/

theorem mem_highlightRows {row : List Char} {rows : List (List Char)}
    (member : row ∈ highlightRows rows) :
    row ≠ [] ∧ row ∈ rows.takeWhile (· ≠ timelineHeading) := by
  obtain ⟨above, noTitle⟩ := List.mem_filter.1 member
  refine ⟨?_, above⟩
  rintro rfl
  exact absurd noTitle (by decide)

theorem mem_timelineRows {row : List Char} {rows : List (List Char)}
    (member : row ∈ timelineRows rows) : row ≠ [] ∧ row ∈ rows := by
  obtain ⟨below, -⟩ := List.mem_filter.1 member
  have solid := @List.mem_takeWhile_imp _ (fun row => decide (row ≠ [])) _ _ below
  exact ⟨by simpa using solid,
    (List.dropWhile_sublist _).subset ((List.takeWhile_subset _) below)⟩

theorem mem_section {heading : String} {items : List (List Char)} {line : List Char}
    (member : line ∈ section_ heading items) :
    line = heading.toList ∨ ∃ item ∈ items, line = indent item := by
  rw [section_] at member
  split at member
  · exact nomatch member
  · rcases List.mem_cons.1 member with rfl | inItems
    · exact Or.inl rfl
    · obtain ⟨item, isItem, rfl⟩ := List.mem_map.1 inItems
      exact Or.inr ⟨item, isItem, rfl⟩

theorem indent_mem_section {heading : String} {items : List (List Char)} {item : List Char}
    (member : item ∈ items) : indent item ∈ section_ heading items := by
  rw [section_, if_neg (List.ne_nil_of_mem member)]
  exact List.mem_cons_of_mem _ (List.mem_map_of_mem member)

section Merged

variable {previous newly timeline : List (List Char)}

/-- The lines of a merged summary, without the tags. -/
def mergedLines (previous newly timeline : List (List Char)) : List (List Char) :=
  ["Conversation summary:".toList] ++ section_ "- Previously compacted context:" previous ++
    section_ "- Newly compacted context:" newly ++ section_ "- Key timeline:" timeline

theorem merge_eq (existing newSummary : List Char) :
    mergeCompactSummaries (some existing) newSummary =
      enclose (joinLines (mergedLines (extractSummaryHighlights existing)
        (extractSummaryHighlights (formatCompactSummary newSummary))
        (extractSummaryTimeline (formatCompactSummary newSummary)))) := by
  rw [← joinLines_enclose (by simp [mergedLines]), mergeCompactSummaries, mergedLines]
  simp only [List.append_assoc]
  rfl

/-- What a line of it is. -/
theorem mem_mergedLines {line : List Char} (member : line ∈ mergedLines previous newly timeline) :
    line ∈ ["Conversation summary:".toList, "- Previously compacted context:".toList,
        "- Newly compacted context:".toList, timelineHeading] ∨
      ∃ item ∈ previous ++ newly ++ timeline, line = indent item := by
  rw [mergedLines, List.mem_append, List.mem_append, List.mem_append, List.mem_singleton] at member
  rcases member with ((rfl | inPrevious) | inNewly) | inTimeline
  · exact Or.inl (by decide)
  · rcases mem_section inPrevious with rfl | ⟨item, isItem, rfl⟩
    · exact Or.inl (by decide)
    · exact Or.inr ⟨item, by simp [isItem], rfl⟩
  · rcases mem_section inNewly with rfl | ⟨item, isItem, rfl⟩
    · exact Or.inl (by decide)
    · exact Or.inr ⟨item, by simp [isItem], rfl⟩
  · rcases mem_section inTimeline with rfl | ⟨item, isItem, rfl⟩
    · exact Or.inl (by decide)
    · exact Or.inr ⟨item, by simp [isItem], rfl⟩

theorem starts_mergedLines (previous newly timeline : List (List Char)) :
    Starts (joinLines (mergedLines previous newly timeline)) := by
  obtain ⟨rest, isLines⟩ : ∃ rest, mergedLines previous newly timeline =
      "Conversation summary:".toList :: rest := ⟨_, rfl⟩
  rw [isLines]
  intro c isFirst
  have head : 'C' = c := by
    cases rest with
    | nil => exact Option.some.inj isFirst
    | cons line rest =>
        rw [Text.joinLines_cons _ (List.cons_ne_nil _ _)] at isFirst
        exact Option.some.inj isFirst
  rw [← head]
  decide

theorem quoted_mergedLines {word : List Char} (flat : '\n' ∉ '<' :: word)
    (found : '<' :: word <:+: joinLines (mergedLines previous newly timeline)) :
    ∃ item ∈ previous ++ newly ++ timeline, '<' :: word <:+: item := by
  obtain ⟨line, member, held⟩ := Text.infix_joinLines flat (List.cons_ne_nil _ _) found
  rcases mem_mergedLines member with fixed | ⟨item, isItem, rfl⟩
  · have inLine : '<' ∈ line := held.subset List.mem_cons_self
    have none : ∀ line ∈ ["Conversation summary:".toList, "- Previously compacted context:".toList,
        "- Newly compacted context:".toList, timelineHeading], '<' ∉ line := by decide
    exact absurd inLine (none line fixed)
  · exact ⟨item, isItem, infix_indent held⟩

/-- Every item is a row, and not a blank one. -/
def Solid (items : List (List Char)) : Prop := ∀ item ∈ items, item ≠ [] ∧ ∃ text, item ∈ rows text

theorem rows_mergedLines (solid : Solid (previous ++ newly ++ timeline)) :
    solidRows (rows (joinLines (mergedLines previous newly timeline))) =
      mergedLines previous newly timeline := by
  have one : ∀ line ∈ mergedLines previous newly timeline, rows line = [line] ∧ line ≠ [] := by
    intro line member
    rcases mem_mergedLines member with fixed | ⟨item, isItem, rfl⟩
    · have plain : ∀ line ∈ ["Conversation summary:".toList,
          "- Previously compacted context:".toList, "- Newly compacted context:".toList,
          timelineHeading], '\n' ∉ line ∧ trimEnd line = line ∧ line ≠ [] := by decide
      obtain ⟨flat, trimmed, some_⟩ := plain line fixed
      exact ⟨by rw [Text.rows_word flat, trimmed], some_⟩
    · obtain ⟨some_, text, isRow⟩ := solid item isItem
      exact ⟨rows_indent isRow some_, List.cons_ne_nil _ _⟩
  have whole : rows (joinLines (mergedLines previous newly timeline)) =
      mergedLines previous newly timeline := by
    rw [Text.rows_joinLines (by simp [mergedLines])]
    generalize mergedLines previous newly timeline = lines at one
    induction lines with
    | nil => rfl
    | cons line lines ih =>
        obtain ⟨first, others⟩ := List.forall_mem_cons.1 one
        rw [List.flatMap_cons, first.1, ih others, List.singleton_append]
  rw [whole]
  refine List.filter_eq_self.2 fun line member => ?_
  simpa using (one line member).2

/-- The timeline of the merged summary are the items it was given. -/
theorem keyTimeline_mergedLines (solid : Solid (previous ++ newly ++ timeline))
    (plain : Plain (joinLines (mergedLines previous newly timeline))) :
    keyTimeline (formatCompactSummary (enclose (joinLines (mergedLines previous newly timeline)))) =
      timeline.map indent := by
  have above : ∀ line ∈ "Summary:".toList :: (["Conversation summary:".toList] ++
      section_ "- Previously compacted context:" previous ++
      section_ "- Newly compacted context:" newly), line ≠ timelineHeading := by
    intro line member
    have heading : timelineHeading = '-' :: " Key timeline:".toList := by decide
    have indented : ∀ item, indent item ≠ timelineHeading := by
      intro item same
      rw [heading] at same
      exact absurd (List.cons.inj same).1 (by decide)
    rcases List.mem_cons.1 member with rfl | inTitle
    · decide
    · rw [List.mem_append, List.mem_append, List.mem_singleton] at inTitle
      rcases inTitle with (rfl | inPrevious) | inNewly
      · decide
      · rcases mem_section inPrevious with rfl | ⟨item, -, rfl⟩
        · decide
        · exact indented item
      · rcases mem_section inNewly with rfl | ⟨item, -, rfl⟩
        · decide
        · exact indented item
  rw [keyTimeline_eq, solidRows_format plain (starts_mergedLines _ _ _), rows_mergedLines solid,
    mergedLines, ← List.cons_append, List.dropWhile_append_of_pos (by simpa using above), section_]
  split
  · rename_i none
    rw [none]
    rfl
  · have heading : "- Key timeline:".toList = timelineHeading := rfl
    rw [heading, List.dropWhile_cons_of_neg (by simp), List.drop_one, List.tail_cons]

end Merged

/-! ## Compacting again -/

section Again

variable {session : Session} {summary : List Char} {config : CompactionConfig}

theorem continuation_eq (summary : List Char) (suppress recent : Bool) :
    getCompactContinuationMessage summary suppress recent =
      compactContinuationPreamble.toList ++ (formatCompactSummary summary ++ notes recent suppress) := by
  rw [getCompactContinuationMessage, notes, recentNote, resumeNote, List.append_assoc,
    List.append_assoc]

theorem extract_eq {message : ConversationMessage} (isSystem : message.role = .system) :
    extractExistingCompactedSummary message = (firstTextBlock message).bind fun text =>
      (Text.stripPrefix compactContinuationPreamble text).map readBack := by
  rw [extractExistingCompactedSummary, if_neg (by simp [isSystem])]
  refine congrArg _ (funext fun text => ?_)
  cases Text.stripPrefix compactContinuationPreamble text with
  | none => rfl
  | some summary =>
      rw [Option.map_some, readBack, recentNote, resumeNote]
      rfl

/-- What a continuation is read back as. -/
theorem existingSummary_continues (continues : Continues session summary) :
    ∃ recent resume, existingSummary session =
      some (readBack (formatCompactSummary summary ++ notes recent resume)) := by
  obtain ⟨message, rest, suppress, recent, isSession, isSystem, found⟩ := continues
  rw [continuation_eq] at found
  refine ⟨recent, suppress, ?_⟩
  rw [existingSummary, isSession, List.head?_cons, Option.bind_some, extract_eq isSystem, found,
    Option.bind_some, Text.stripPrefix_append, Option.map_some]

theorem continuation_solid (summary : List Char) (recent : Bool) :
    Text.trim (getCompactContinuationMessage summary true recent) ≠ [] := by
  obtain ⟨rest, isText⟩ : ∃ rest, compactContinuationPreamble.toList = 'T' :: rest := by
    unfold compactContinuationPreamble
    rw [String.toList_append, String.toList_ofList]
    exact ⟨_, rfl⟩
  have isThere : 'T' ∈ getCompactContinuationMessage summary true recent := by
    unfold getCompactContinuationMessage
    rw [isText]
    exact List.mem_append_left _ (List.mem_append_left _
      (List.mem_append_left _ List.mem_cons_self))
  rw [ne_eq, Text.trim_eq_nil, Text.trimEnd_eq_nil]
  exact fun white => absurd (white 'T' isThere) (by decide)

theorem firstTextBlock_text {message : ConversationMessage} {text : List Char}
    (only : message.blocks = [.text (String.ofList text)]) (solid : Text.trim text ≠ []) :
    firstTextBlock message = some text := by
  rw [firstTextBlock, only]
  simp only [List.findSome?_cons, String.toList_ofList, if_pos solid]

theorem firstTextBlock_continuationMessage (summary : List Char) (recent : Bool) :
    firstTextBlock (continuationMessage summary recent) =
      some (getCompactContinuationMessage summary true recent) :=
  firstTextBlock_text rfl (continuation_solid summary recent)

/-- A compacted session continues from its summary, whatever is appended to it. -/
theorem continues_compactSession (compacts : shouldCompact session config)
    (appended : List ConversationMessage) :
    Continues { (compactSession session config).compactedSession with
        messages := (compactSession session config).compactedSession.messages ++ appended }
      (compactSession session config).summary := by
  have ⟨recent, isFirst⟩ : ∃ recent, (compactSession session config).compactedSession.messages =
      continuationMessage (compactSession session config).summary recent ::
        preservedMessages session config := by
    unfold compactSession
    rw [if_neg (by simp [compacts])]
    exact ⟨_, rfl⟩
  refine ⟨_, preservedMessages session config ++ appended, true, recent, ?_, rfl,
    firstTextBlock_continuationMessage _ recent⟩
  rw [← List.cons_append, ← isFirst]

/-- The formatted summary of a session that is compacted. -/
theorem formattedSummary_eq (compacts : (compactSession session config).summaryMode ≠ .unchanged) :
    (compactSession session config).formattedSummary = formatCompactSummary
      (mergeCompactSummaries (existingSummary session)
        (summarizeMessages (removedMessages session config))) := by
  unfold compactSession at compacts ⊢
  split at compacts
  · exact absurd rfl compacts
  · rename_i due
    rw [if_neg due]

theorem summaryMode_merged (compacts : shouldCompact session config = true)
    (existing : (existingSummary session).isSome) :
    (compactSession session config).summaryMode = .mergedExisting := by
  unfold compactSession
  rw [if_neg (by simp [compacts])]
  exact if_pos existing

theorem existingSummary_first (first : (compactSession session config).summaryMode = .newSummary) :
    existingSummary session = none := by
  unfold compactSession at first
  split at first
  · exact nomatch first
  · cases existing : existingSummary session with
    | none => rfl
    | some summary =>
        rw [existing] at first
        exact nomatch first

theorem Quiet.merged_plain {formatted : List Char} {removed : List ConversationMessage}
    (readable : Readable formatted) (quiet : Quiet formatted removed) :
    Plain (joinLines (mergedLines (highlightRows (rows formatted))
      (highlightRows (rows (joinLines (summaryLines removed))))
      (timelineRows (rows (joinLines (summaryLines removed)))))) := by
  have source : ∀ word, '\n' ∉ '<' :: word →
      '<' :: word <:+: joinLines (mergedLines (highlightRows (rows formatted))
        (highlightRows (rows (joinLines (summaryLines removed))))
        (timelineRows (rows (joinLines (summaryLines removed))))) →
      '<' :: word <:+: aboveTimeline formatted ∨ Quoted ('<' :: word) removed := by
    intro word flat found
    have isQuoted : ∀ row ∈ rows (joinLines (summaryLines removed)), '<' :: word <:+: row →
        Quoted ('<' :: word) removed := fun row member held =>
      quoted_of_infix flat (held.trans (Text.mem_rows member).2.2)
    obtain ⟨item, member, held⟩ := quoted_mergedLines flat found
    rw [List.mem_append, List.mem_append] at member
    rcases member with (previous | newly) | timeline
    · exact Or.inl (held.trans (infix_aboveTimeline (mem_highlightRows previous).2))
    · exact Or.inr (isQuoted item ((List.takeWhile_subset _) (mem_highlightRows newly).2) held)
    · exact Or.inr (isQuoted item (mem_timelineRows timeline).2 held)
  have opens : (openTag "analysis").toList = '<' :: "analysis>".toList := by decide
  have closes : (closeTag "analysis").toList = '<' :: "/analysis>".toList := by decide
  have closing : (closeTag "summary").toList = '<' :: "/summary>".toList := by decide
  have ⟨quietClosing, _, analysis⟩ := quiet
  have above := readable.closing
  rw [opens, closes] at analysis
  rw [closing] at above quietClosing
  constructor
  · rintro ⟨opened, closed⟩
    rw [opens] at opened
    rw [closes] at closed
    exact analysis (source _ (by decide) opened) (source _ (by decide) closed)
  · intro found
    rw [closing] at found
    exact (source _ (by decide) found).elim above quietClosing

/-- The highlights and the timeline that a merged summary is made of. -/
theorem merged_eq (continues : Continues session summary)
    (merged : (compactSession session config).summaryMode = .mergedExisting)
    (readable : Readable (formatCompactSummary summary))
    (quiet : Quiet (formatCompactSummary summary) (removedMessages session config)) :
    (compactSession session config).formattedSummary = formatCompactSummary (enclose (joinLines
      (mergedLines (highlightRows (rows (formatCompactSummary summary)))
        (highlightRows (rows (joinLines (summaryLines (removedMessages session config)))))
        (timelineRows (rows (joinLines (summaryLines (removedMessages session config)))))))) := by
  obtain ⟨recent, resume, isExisting⟩ := existingSummary_continues continues
  have trimmed : trimEnd (formatCompactSummary summary) = formatCompactSummary summary :=
    Text.trimEnd_trimEnd _
  have highlights : extractSummaryHighlights
      (readBack (formatCompactSummary summary ++ notes recent resume)) =
        highlightRows (rows (formatCompactSummary summary)) := by
    rw [extractSummaryHighlights, highlightLines_rows,
      highlightRows_readBack trimmed (starts_trim _) readable]
  have compacts : (compactSession session config).summaryMode ≠ .unchanged := by
    rw [merged]
    exact nofun
  rw [formattedSummary_eq compacts, isExisting, merge_eq, highlights, summarizeMessages_eq,
    highlights_reread quiet.plain (starts_summaryLines _),
    timeline_reread quiet.plain (starts_summaryLines _)]

theorem solid_merged (formatted : List Char) (removed : List ConversationMessage) :
    Solid (highlightRows (rows formatted) ++
      highlightRows (rows (joinLines (summaryLines removed))) ++
      timelineRows (rows (joinLines (summaryLines removed)))) := by
  have highlight : ∀ text row, row ∈ highlightRows (rows text) →
      row ≠ [] ∧ ∃ text, row ∈ rows text := fun text row member =>
    ⟨(mem_highlightRows member).1, text, (List.takeWhile_subset _) (mem_highlightRows member).2⟩
  refine List.forall_mem_append.2 ⟨List.forall_mem_append.2 ⟨highlight _, highlight _⟩, ?_⟩
  exact fun row member => ⟨(mem_timelineRows member).1, _, (mem_timelineRows member).2⟩

/-- Nothing above the timeline is lost, whatever is removed now. -/
theorem keepsHighlights (continues : Continues session summary)
    (merged : (compactSession session config).summaryMode = .mergedExisting)
    (readable : Readable (formatCompactSummary summary))
    (quiet : Quiet (formatCompactSummary summary) (removedMessages session config)) :
    KeepsHighlights (formatCompactSummary summary)
      (compactSession session config).formattedSummary := by
  have isRow : ∀ line ∈ "Summary:".toList :: mergedLines
        (highlightRows (rows (formatCompactSummary summary)))
        (highlightRows (rows (joinLines (summaryLines (removedMessages session config)))))
        (timelineRows (rows (joinLines (summaryLines (removedMessages session config))))),
      line <:+: (compactSession session config).formattedSummary := by
    intro line member
    rw [← rows_mergedLines (solid_merged _ _), ← solidRows_format (quiet.merged_plain readable)
      (starts_mergedLines _ _ _), ← merged_eq continues merged readable quiet] at member
    exact (Text.mem_rows (List.mem_filter.1 member).1).2.2
  intro row member
  by_cases title : isSummaryTitle row = true
  · rw [isSummaryTitle, Bool.or_eq_true, Bool.or_eq_true, decide_eq_true_eq, decide_eq_true_eq,
      decide_eq_true_eq] at title
    rcases title with (rfl | rfl) | rfl
    · exact List.nil_infix
    · exact isRow _ List.mem_cons_self
    · exact isRow _ (List.mem_cons_of_mem _ List.mem_cons_self)
  · have isHighlight : row ∈ highlightRows (rows (formatCompactSummary summary)) :=
      List.mem_filter.2 ⟨member, by simpa using title⟩
    have inMerged := isRow (indent row) (List.mem_cons_of_mem _ (List.mem_append_left _
      (List.mem_append_left _ (List.mem_append_right _ (indent_mem_section isHighlight)))))
    exact (List.suffix_append [' ', ' '] row).isInfix.trans inMerged

/-- The messages now removed are listed where their entries are unbroken. -/
theorem lists_iff (continues : Continues session summary)
    (merged : (compactSession session config).summaryMode = .mergedExisting)
    (readable : Readable (formatCompactSummary summary))
    (quiet : Quiet (formatCompactSummary summary) (removedMessages session config)) :
    Lists indent (compactSession session config).formattedSummary (removedMessages session config) ↔
      Unbroken (removedMessages session config) := by
  have injective : Function.Injective indent := fun first second same =>
    (List.cons.inj (List.cons.inj same).2).2
  have listed : (removedMessages session config).flatMap (fun message => solidRows (entryRows message)) =
      solidRows ((removedMessages session config).flatMap entryRows) := by
    rw [solidRows, List.filter_flatMap]
    rfl
  rw [Lists, merged_eq continues merged readable quiet,
    keyTimeline_mergedLines (solid_merged _ _) (quiet.merged_plain readable),
    (List.map_injective_iff.2 injective).eq_iff, timelineRows_summaryLines quiet, listed,
    filter_takeWhile_iff]

/-- The first summary lists every message, for its timeline is not read back. -/
theorem newSummary_lists (first : (compactSession session config).summaryMode = .newSummary)
    (quiet : Quiet [] (removedMessages session config)) :
    Lists id (compactSession session config).formattedSummary (removedMessages session config) := by
  have above : ∀ row ∈ solidRows ((summaryHead (removedMessages session config)).flatMap rows),
      row ≠ timelineHeading := fun row member same =>
    quiet.heading (same ▸ (List.mem_filter.1 member).1)
  have compacts : (compactSession session config).summaryMode ≠ .unchanged := by
    rw [first]
    exact nofun
  have alone : ∀ newSummary, mergeCompactSummaries none newSummary = newSummary := fun _ => rfl
  rw [Lists, formattedSummary_eq compacts, existingSummary_first first, alone, keyTimeline_eq,
    summarizeMessages_eq,
    solidRows_format quiet.plain (starts_summaryLines _), rows_summaryLines, solidRows_append,
    solidRows_cons (by decide), List.dropWhile_cons_of_pos (by decide),
    List.dropWhile_append_of_pos (by simpa using above), List.dropWhile_cons_of_neg (by simp),
    List.drop_one, List.tail_cons, List.map_id, solidRows, List.filter_flatMap]
  rfl

end Again

/-- Nothing of the context is lost when the session is compacted again. -/
def ContextKept (session : Session) (config : CompactionConfig) (previous : List Char) : Prop :=
  KeepsHighlights previous (compactSession session config).formattedSummary ∧
    Lists indent (compactSession session config).formattedSummary (removedMessages session config)

/-- **Nothing is lost of a compacted session exactly when what is removed is unbroken**,
where no text looks like a tag, a note or a heading of the summaries. -/
theorem contextKept_iff {session : Session} {summary : List Char} {config : CompactionConfig}
    (continues : Continues session summary)
    (merged : (compactSession session config).summaryMode = .mergedExisting)
    (readable : Readable (formatCompactSummary summary))
    (quiet : Quiet (formatCompactSummary summary) (removedMessages session config)) :
    ContextKept session config (formatCompactSummary summary) ↔
      Unbroken (removedMessages session config) := by
  rw [ContextKept, lists_iff continues merged readable quiet]
  exact and_iff_right (keepsHighlights continues merged readable quiet)

/-! ## A trailing line feed -/

def keptWork : List Char := "<summary>Kept work</summary>".toList

/-- A session that continues from a summary, and two more messages. -/
def twoMore (text : String) : Session where
  messages := [continuationMessage keptWork true, .userText text, .userText "again"]

theorem twoMore_continues (text : String) : Continues (twoMore text) keptWork :=
  ⟨continuationMessage keptWork true, _, true, true, rfl, rfl,
    firstTextBlock_continuationMessage keptWork true⟩

theorem twoMore_existing (text : String) : (existingSummary (twoMore text)).isSome := by
  obtain ⟨recent, resume, existing⟩ := existingSummary_continues (twoMore_continues text)
  rw [existing]
  rfl

theorem twoMore_removed (text : String) :
    removedMessages (twoMore text) ⟨0, 0⟩ = [.userText text, .userText "again"] := by
  rw [removedMessages, compactedSummaryPrefixLen, if_pos (twoMore_existing text)]
  rfl

theorem twoMore_merged (text : String) :
    (compactSession (twoMore text) ⟨0, 0⟩).summaryMode = .mergedExisting := by
  have compacts : shouldCompact (twoMore text) ⟨0, 0⟩ = true := by
    rw [shouldCompact, compactedSummaryPrefixLen, if_pos (twoMore_existing text)]
    simp [twoMore]
  exact summaryMode_merged compacts (twoMore_existing text)

theorem keptWork_formatted : formatCompactSummary keptWork = "Summary:\nKept work".toList := by
  have closes : (closeTag "summary").toList = '<' :: "/summary>".toList := by decide
  have quiet : Text.NoStart (closeTag "summary").toList "Kept work".toList
      (closeTag "summary").toList := by
    rw [closes]
    exact Text.noStart_of_head (by simp) _
  have whole : keptWork =
      (openTag "summary").toList ++ ("Kept work".toList ++ (closeTag "summary").toList) := by
    decide
  have untagged : ¬Tagged "analysis" keptWork := by
    rintro ⟨opens, -⟩
    exact absurd opens (by decide)
  rw [whole] at untagged ⊢
  rw [format_between quiet untagged]
  decide +kernel

theorem keptWork_above :
    aboveTimeline (formatCompactSummary keptWork) = "Summary:\nKept work".toList := by
  rw [keptWork_formatted]
  decide +kernel

theorem keptWork_readable : Readable (formatCompactSummary keptWork) := by
  have noNote : 'R' ∉ "Summary:\nKept work".toList ∧ 'C' ∉ "Summary:\nKept work".toList := by
    decide
  have noTag : '<' ∉ "Summary:\nKept work".toList := by decide
  have openAnalysis : '<' ∈ (openTag "analysis").toList := by decide
  have openSummary : '<' ∈ (openTag "summary").toList := by decide
  have closeSummary : '<' ∈ (closeTag "summary").toList := by decide
  have inRecent : 'R' ∈ recentNote.toList := by
    rw [recentNote_toList]
    exact List.mem_cons_of_mem _ (List.mem_cons_of_mem _ (by decide))
  have inResume : 'C' ∈ resumeNote.toList := by
    obtain ⟨word, starts⟩ := resumeInstruction_starts
    rw [resumeNote_toList, starts]
    exact List.mem_cons_of_mem _ List.mem_cons_self
  rw [← keptWork_above] at noNote noTag
  constructor
  · exact fun found => noNote.1 (found.subset inRecent)
  · exact fun found => noNote.2 (found.subset inResume)
  · exact fun found => absurd (found.subset openAnalysis) noTag
  · exact fun found => absurd (found.subset openSummary) noTag
  · exact fun found => noTag (found.subset closeSummary)

theorem keptWork_quiet {removed : List ConversationMessage}
    (plain : ∀ line ∈ summaryHead removed ++ removed.map timelineEntry, '<' ∉ line)
    (heading : timelineHeading ∉ (summaryHead removed).flatMap rows) :
    Quiet (formatCompactSummary keptWork) removed := by
  have noQuote : ∀ text, '<' ∈ text → ¬Quoted text removed := by
    rintro text inText ⟨line, member, found⟩
    exact plain line member (found.subset inText)
  have noTag : '<' ∉ aboveTimeline (formatCompactSummary keptWork) := by
    rw [keptWork_above]
    decide
  have opens : '<' ∈ (openTag "analysis").toList := by decide
  have closes : '<' ∈ (closeTag "summary").toList := by decide
  refine ⟨noQuote _ closes, heading, fun opened => ?_⟩
  rcases opened with above | quoted
  · exact absurd (above.subset opens) noTag
  · exact absurd quoted (noQuote _ opens)

/-- The line feed at the end of the first message leaves a blank line: the entry behind it
is not read. -/
theorem trailingFeed_lost :
    Continues (twoMore "hello\n") keptWork ∧
      (compactSession (twoMore "hello\n") ⟨0, 0⟩).summaryMode = .mergedExisting ∧
      ¬ContextKept (twoMore "hello\n") ⟨0, 0⟩ (formatCompactSummary keptWork) := by
  refine ⟨twoMore_continues _, twoMore_merged _, fun kept => ?_⟩
  have quiet : Quiet (formatCompactSummary keptWork) (removedMessages (twoMore "hello\n") ⟨0, 0⟩) := by
    rw [twoMore_removed]
    exact keptWork_quiet (by decide +kernel) (by decide +kernel)
  have unbroken := (lists_iff (twoMore_continues _) (twoMore_merged _) keptWork_readable quiet).1 kept.2
  rw [twoMore_removed] at unbroken
  exact absurd unbroken (by decide +kernel)

theorem contextKept_iff_hello :
    ContextKept (twoMore "hello") ⟨0, 0⟩ (formatCompactSummary keptWork) := by
  have quiet : Quiet (formatCompactSummary keptWork) (removedMessages (twoMore "hello") ⟨0, 0⟩) := by
    rw [twoMore_removed]
    exact keptWork_quiet (by decide +kernel) (by decide +kernel)
  refine (contextKept_iff (twoMore_continues "hello") (twoMore_merged "hello") keptWork_readable
    quiet).2 ?_
  rw [twoMore_removed]
  decide +kernel

end Openyak.Runtime
