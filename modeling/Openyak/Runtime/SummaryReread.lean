/-
# Runtime.SummaryReread -- the summary of a continuation read back

A continuation holds its summary formatted, then the notes, and is cut where a note is
found first; what is left is formatted once more.  Of a summary `Readable` above its
timeline heading nothing above it is lost by that (`highlightRows_readBack`), whatever
stands below: both operations leave what ends with the heading in front
(`readBack_lead`, `format_lead`).
-/
import Openyak.Runtime.SummaryText

namespace Openyak.Runtime

open Openyak.Theory
open Openyak.Theory.Text (rows trimEnd joinLines NoStart)

set_option autoImplicit false

/-! ## The notes -/

def recentNote : String := "\n\n" ++ compactRecentMessagesNote

def resumeNote : String := "\n" ++ compactDirectResumeInstruction

def notes (recent resume : Bool) : List Char :=
  (if recent then recentNote.toList else []) ++ if resume then resumeNote.toList else []

/-- What is read of a formatted summary with the notes behind it. -/
def readBack (text : List Char) : List Char :=
  Text.trim (beforeNote resumeNote (beforeNote recentNote text))

theorem recentNote_toList :
    recentNote.toList = '\n' :: '\n' :: compactRecentMessagesNote.toList := by
  rw [recentNote, String.toList_append, String.toList_ofList]
  rfl

theorem resumeNote_toList :
    resumeNote.toList = '\n' :: compactDirectResumeInstruction.toList := by
  rw [resumeNote, String.toList_append, String.toList_ofList]
  rfl

theorem recentNote_some : recentNote.toList ≠ [] := by
  rw [recentNote_toList]
  exact List.cons_ne_nil _ _

theorem resumeNote_some : resumeNote.toList ≠ [] := by
  rw [resumeNote_toList]
  exact List.cons_ne_nil _ _

theorem resumeInstruction_starts :
    ∃ word, compactDirectResumeInstruction.toList = 'C' :: word := by
  unfold compactDirectResumeInstruction
  rw [String.toList_append, String.toList_append, String.toList_ofList]
  exact ⟨_, rfl⟩

theorem resumeInstruction_flat : '\n' ∉ compactDirectResumeInstruction.toList := by
  unfold compactDirectResumeInstruction
  simp only [String.toList_append, List.mem_append, not_or]
  refine ⟨⟨?_, ?_⟩, ?_⟩
  all_goals
    rw [String.toList_ofList]
    decide

theorem recentNote_apart : ¬ recentNote.toList <:+: resumeNote.toList := by
  rw [recentNote_toList, resumeNote_toList, List.infix_cons_iff, List.prefix_cons_inj]
  rintro (here | later)
  · exact resumeInstruction_flat (here.subset List.mem_cons_self)
  · exact resumeInstruction_flat (later.subset List.mem_cons_self)

/-- Line feeds, then a text without one that begins with no character of the heading:
what a summary is searched for. -/
def Needle (needle : List Char) : Prop :=
  ∃ n c word, needle = List.replicate n '\n' ++ c :: word ∧ '\n' ∉ c :: word ∧ c ∉ timelineHeading

theorem recentNote_needle : Needle recentNote.toList := by
  rw [recentNote_toList]
  have flat : '\n' ∉ compactRecentMessagesNote.toList := by decide
  exact ⟨2, 'R', _, rfl, flat, by decide⟩

theorem resumeNote_needle : Needle resumeNote.toList := by
  obtain ⟨word, starts⟩ := resumeInstruction_starts
  have flat := resumeInstruction_flat
  rw [starts] at flat
  rw [resumeNote_toList, starts]
  exact ⟨1, 'C', word, rfl, flat, by decide⟩

theorem Needle.feeds {n : Nat} {c : Char} {word start rest : List Char} (flat : '\n' ∉ c :: word)
    (split : List.replicate n '\n' ++ c :: word = start ++ '\n' :: rest) :
    (∀ d ∈ start, d = '\n') ∧ ∃ m, rest = List.replicate m '\n' ++ c :: word := by
  induction n generalizing start with
  | zero =>
      have inside : '\n' ∈ c :: word := by
        rw [List.replicate_zero, List.nil_append] at split
        rw [split]
        simp
      exact absurd inside flat
  | succ n ih =>
      cases start with
      | nil => exact ⟨nofun, n, (List.cons.inj split).2.symm⟩
      | cons first start =>
          obtain ⟨isFeed, split⟩ := List.cons.inj split
          obtain ⟨feeds, behind⟩ := ih split
          exact ⟨List.forall_mem_cons.2 ⟨isFeed.symm, feeds⟩, behind⟩

theorem beforeNote_isPrefix (note : String) (text : List Char) : beforeNote note text <+: text := by
  rw [beforeNote]
  cases found : Text.splitOnce note text with
  | none => exact List.prefix_rfl
  | some parts =>
      rw [Text.splitOnce_some found, List.append_assoc]
      exact List.prefix_append _ _

theorem beforeNote_at {note : String} (some_ : note.toList ≠ []) (text rest : List Char) :
    beforeNote note (text ++ (note.toList ++ rest)) <+: text := by
  obtain ⟨before, after, found, early⟩ := Text.splitOnce_before some_ text rest
  rw [beforeNote, found]
  exact early

theorem beforeNote_none {note : String} {text : List Char} (absent : ¬ note.toList <:+: text) :
    beforeNote note text = text := by
  rw [beforeNote, Text.splitOnce_none absent]

theorem beforeNote_skip {note : String} {text rest : List Char}
    (quiet : NoStart note.toList text rest) :
    beforeNote note (text ++ rest) = text ++ beforeNote note rest := by
  rw [beforeNote, beforeNote, Text.splitOnce_skip quiet]
  cases Text.splitOnce note rest <;> rfl

/-- The first note behind a text is where no earlier one starts. -/
theorem beforeNote_first {note : String} (some_ : note.toList ≠ []) {text rest : List Char}
    (quiet : NoStart note.toList text (note.toList ++ rest)) :
    beforeNote note (text ++ (note.toList ++ rest)) = text := by
  have here : beforeNote note (note.toList ++ rest) = [] := by
    rw [beforeNote, Text.splitOnce_at some_]
  rw [beforeNote_skip quiet, here, List.append_nil]

section ReadBack

variable {formatted : List Char}

/-- Nothing but the summary is read. -/
theorem readBack_isPrefix (starts : Starts formatted) (recent resume : Bool) :
    readBack (formatted ++ notes recent resume) <+: formatted := by
  have early : beforeNote resumeNote (beforeNote recentNote (formatted ++ notes recent resume)) <+:
      formatted := by
    cases recent with
    | true =>
        refine (beforeNote_isPrefix _ _).trans ?_
        exact beforeNote_at recentNote_some formatted _
    | false =>
        cases resume with
        | false =>
            rw [notes, if_neg Bool.false_ne_true, if_neg Bool.false_ne_true, List.append_nil,
              List.append_nil]
            exact (beforeNote_isPrefix _ _).trans (beforeNote_isPrefix _ _)
        | true =>
            have atNote := beforeNote_at resumeNote_some formatted []
            rw [List.append_nil] at atNote
            rw [notes, if_neg Bool.false_ne_true, if_pos rfl, List.nil_append]
            cases found : Text.splitOnce recentNote (formatted ++ resumeNote.toList) with
            | none =>
                have kept : beforeNote recentNote (formatted ++ resumeNote.toList) =
                    formatted ++ resumeNote.toList := by rw [beforeNote, found]
                rw [kept]
                exact atNote
            | some parts =>
                have cut : beforeNote recentNote (formatted ++ resumeNote.toList) = parts.1 := by
                  rw [beforeNote, found]
                have split := Text.splitOnce_some found
                rw [cut]
                refine (beforeNote_isPrefix _ _).trans ?_
                have held : parts.1 <+: formatted ++ resumeNote.toList := by
                  rw [split, List.append_assoc]
                  exact List.prefix_append _ _
                rcases List.prefix_or_prefix_of_prefix held (List.prefix_append formatted _) with
                  short | ⟨beyond, long⟩
                · exact short
                · rw [← long, List.append_assoc, List.append_assoc] at split
                  have inNote := List.append_cancel_left split
                  exact absurd ⟨beyond, parts.2, by rw [List.append_assoc, inNote]⟩ recentNote_apart
  rw [readBack, trim_of_starts (starts.of_isPrefix early)]
  exact (Text.trimEnd_isPrefix _).trans early

/-- Where a needle would go on behind a trimmed text, that ends with a line feed. -/
theorem noStart_trimmed {needle text rest : List Char} (isNeedle : Needle needle)
    (trimmed : trimEnd text = text) (absent : ¬ needle <:+: text)
    (feeds : rest = [] ∨ ∃ more, rest = '\n' :: more) : NoStart needle text rest := by
  intro start nonempty held found
  rcases feeds with rfl | ⟨more, rfl⟩
  · rw [List.append_nil] at found
    exact absent (found.isInfix.trans held.isInfix)
  · rcases Text.prefix_append_cons found with here | ⟨behind, beyond⟩
    · exact absent (here.isInfix.trans held.isInfix)
    · obtain ⟨n, c, word, rfl, flat, -⟩ := isNeedle
      rw [List.append_assoc, List.singleton_append] at beyond
      obtain ⟨feeds, -⟩ := Needle.feeds flat beyond.symm
      obtain ⟨init, last, rfl⟩ := (List.eq_nil_or_concat start).resolve_left nonempty
      obtain ⟨before, rfl⟩ := held
      rw [List.concat_eq_append, ← List.append_assoc, feeds last (by simp),
        Text.trimEnd_append_white rfl] at trimmed
      have shorter := congrArg List.length trimmed
      have bound := (Text.trimEnd_isPrefix (before ++ init)).length_le
      rw [List.length_append, List.length_singleton] at shorter
      omega

/-- A summary that holds no note is read whole. -/
theorem readBack_whole (trimmed : trimEnd formatted = formatted) (starts : Starts formatted)
    (noRecent : ¬ recentNote.toList <:+: formatted) (noResume : ¬ resumeNote.toList <:+: formatted)
    (recent resume : Bool) : readBack (formatted ++ notes recent resume) = formatted := by
  have recentAt : ∀ rest, beforeNote recentNote (formatted ++ (recentNote.toList ++ rest)) =
      formatted := by
    intro rest
    refine beforeNote_first recentNote_some ?_
    refine noStart_trimmed recentNote_needle trimmed noRecent (Or.inr ?_)
    rw [recentNote_toList]
    exact ⟨_, rfl⟩
  have resumeAt : beforeNote resumeNote (beforeNote recentNote (formatted ++ resumeNote.toList)) =
      formatted := by
    have feeds : resumeNote.toList = [] ∨ ∃ more, resumeNote.toList = '\n' :: more :=
      Or.inr ⟨_, resumeNote_toList⟩
    have quiet := noStart_trimmed resumeNote_needle trimmed noResume feeds
    have first := @beforeNote_first resumeNote resumeNote_some formatted []
    rw [List.append_nil] at first
    rw [beforeNote_skip (noStart_trimmed recentNote_needle trimmed noRecent feeds),
      beforeNote_none recentNote_apart, first quiet]
  have cut : beforeNote resumeNote (beforeNote recentNote (formatted ++ notes recent resume)) =
      formatted := by
    cases recent with
    | true =>
        rw [notes, if_pos rfl, recentAt]
        exact beforeNote_none noResume
    | false =>
        rw [notes, if_neg Bool.false_ne_true, List.nil_append]
        cases resume with
        | true => rw [if_pos rfl, resumeAt]
        | false =>
            rw [if_neg Bool.false_ne_true, List.append_nil, beforeNote_none noRecent,
              beforeNote_none noResume]
  rw [readBack, cut, trim_of_starts starts, trimmed]

end ReadBack

/-! ## Above the heading -/

def linesAbove (text : List Char) : List (List Char) :=
  (text.splitOn '\n').takeWhile fun line => trimEnd line ≠ timelineHeading

/-- The text above the timeline heading. -/
def aboveTimeline (text : List Char) : List Char := joinLines (linesAbove text)

/-- Lines, each with the line feed behind it, and the heading. -/
def lead (lines : List (List Char)) : List Char :=
  lines.flatMap (fun line => line ++ ['\n']) ++ timelineHeading

theorem lead_cons (line : List Char) (lines : List (List Char)) :
    lead (line :: lines) = line ++ '\n' :: lead lines := by
  simp [lead]

theorem lead_eq {lines : List (List Char)} (some_ : lines ≠ []) :
    lead lines = joinLines lines ++ '\n' :: timelineHeading := by
  induction lines with
  | nil => exact absurd rfl some_
  | cons line lines ih =>
      rw [lead_cons]
      by_cases last : lines = []
      · rw [last, Text.joinLines_singleton]
        rfl
      · rw [Text.joinLines_cons line last, ih last, List.append_assoc, List.cons_append]

/-- `lead` in front, and nothing but white space behind it in its last line. -/
structure Headed (lines : List (List Char)) (text white below : List Char) : Prop where
  whole : text = lead lines ++ (white ++ below)
  blank : ∀ c ∈ white, Text.isWhitespace c ∧ c ≠ '\n'
  feeds : below = [] ∨ ∃ rest, below = '\n' :: rest
  flat : ∀ line ∈ lines, '\n' ∉ line
  other : ∀ line ∈ lines, trimEnd line ≠ timelineHeading

theorem linesAbove_more {word rest : List Char} (whole : '\n' ∉ word)
    (other : trimEnd word ≠ timelineHeading) :
    linesAbove (word ++ '\n' :: rest) = word :: linesAbove rest := by
  rw [linesAbove, List.splitOn_append_cons_self, List.splitOn_eq_singleton whole,
    List.singleton_append, List.takeWhile_cons_of_pos (by simpa)]
  rfl

theorem linesAbove_heading {word rest : List Char} (whole : '\n' ∉ word)
    (heading : trimEnd word = timelineHeading) : linesAbove (word ++ '\n' :: rest) = [] := by
  rw [linesAbove, List.splitOn_append_cons_self, List.splitOn_eq_singleton whole,
    List.singleton_append, List.takeWhile_cons_of_neg (by simpa)]

/-- A text with the heading begins with the lines above it. -/
theorem headed_of_mem {text : List Char} (there : timelineHeading ∈ rows text) :
    ∃ white below, Headed (linesAbove text) text white below := by
  have atHeading : ∀ word rest, '\n' ∉ word → trimEnd word = timelineHeading →
      (rest = [] ∨ ∃ more, rest = '\n' :: more) → ∃ white, Headed [] (word ++ rest) white rest := by
    intro word rest whole heading feeds
    obtain ⟨white, split, blank⟩ := Text.trimEnd_split word
    rw [heading] at split
    have apart : '\n' ∉ white := fun isThere => whole (by
      rw [split]
      exact List.mem_append_right _ isThere)
    exact ⟨white, by rw [split, List.append_assoc]; rfl,
      fun c member => ⟨blank c member, fun feed => apart (feed ▸ member)⟩, feeds, nofun, nofun⟩
  induction text using Text.by_lines with
  | word word whole =>
      rw [Text.rows_word whole, List.mem_singleton] at there
      obtain ⟨white, headed⟩ := atHeading word [] whole there.symm (Or.inl rfl)
      have none : linesAbove word = [] := by
        rw [linesAbove, List.splitOn_eq_singleton whole, List.takeWhile_cons_of_neg (by simp [there])]
      rw [List.append_nil] at headed
      exact ⟨white, [], none ▸ headed⟩
  | more word rest whole ih =>
      by_cases heading : trimEnd word = timelineHeading
      · obtain ⟨white, headed⟩ := atHeading word ('\n' :: rest) whole heading (Or.inr ⟨rest, rfl⟩)
        exact ⟨white, _, linesAbove_heading whole heading ▸ headed⟩
      · rw [Text.rows_more whole, List.mem_cons] at there
        obtain ⟨white, below, headed⟩ := ih (there.resolve_left fun same => heading same.symm)
        rw [linesAbove_more whole heading]
        refine ⟨white, below, ?_, headed.blank, headed.feeds,
          List.forall_mem_cons.2 ⟨whole, headed.flat⟩,
          List.forall_mem_cons.2 ⟨heading, headed.other⟩⟩
        rw [lead_cons, List.append_assoc, List.cons_append, ← headed.whole]

/-- A text without the heading is above it. -/
theorem aboveTimeline_whole {text : List Char} (absent : timelineHeading ∉ rows text) :
    aboveTimeline text = text := by
  have all : linesAbove text = text.splitOn '\n' := by
    rw [linesAbove, List.takeWhile_eq_self_iff]
    intro line member
    have isRow : trimEnd line ∈ rows text := List.mem_map_of_mem member
    have other : trimEnd line ≠ timelineHeading := fun same => absent (same ▸ isRow)
    simpa using other
  rw [aboveTimeline, all, joinLines, List.intercalate_splitOn]

section Headed

variable {lines : List (List Char)} {text white below : List Char}

theorem Headed.rows_eq (headed : Headed lines text white below) :
    ∃ more, rows text = lines.map trimEnd ++ timelineHeading :: more := by
  obtain ⟨rfl, blank, feeds, flat, -⟩ := headed
  induction lines with
  | nil =>
      have whole : '\n' ∉ timelineHeading ++ white := by
        rw [List.mem_append, not_or]
        exact ⟨by decide, fun isThere => (blank _ isThere).2 rfl⟩
      have heading : trimEnd (timelineHeading ++ white) = timelineHeading := by
        rw [Text.trimEnd_append_whites fun c member => (blank c member).1]
        decide
      have front : lead [] ++ (white ++ below) = timelineHeading ++ white ++ below := by
        rw [List.append_assoc]
        rfl
      rw [front]
      rcases feeds with rfl | ⟨rest, rfl⟩
      · exact ⟨[], by rw [List.append_nil, Text.rows_word whole, heading]; rfl⟩
      · exact ⟨rows rest, by rw [Text.rows_more whole, heading]; rfl⟩
  | cons line lines ih =>
      obtain ⟨first, others⟩ := List.forall_mem_cons.1 flat
      obtain ⟨more, same⟩ := ih others
      refine ⟨more, ?_⟩
      rw [lead_cons, List.append_assoc, List.cons_append, Text.rows_more first, same]
      rfl

/-- What is above the heading is all there is of the highlights. -/
theorem Headed.highlightRows_eq (headed : Headed lines text white below) :
    highlightRows (rows text) = (lines.map trimEnd).filter fun row => !isSummaryTitle row := by
  obtain ⟨more, same⟩ := headed.rows_eq
  have above : (lines.map trimEnd).takeWhile (· ≠ timelineHeading) = lines.map trimEnd := by
    rw [List.takeWhile_eq_self_iff]
    intro row member
    obtain ⟨line, isLine, rfl⟩ := List.mem_map.1 member
    simpa using headed.other line isLine
  rw [highlightRows, same, List.takeWhile_append_of_pos (by simpa using headed.other),
    List.takeWhile_cons_of_neg (by simp), List.append_nil]

theorem Headed.of_isPrefix (headed : Headed lines text white below) {rest : List Char}
    (held : rest <+: white ++ below) :
    ∃ white below, Headed lines (lead lines ++ rest) white below := by
  rcases List.prefix_or_prefix_of_prefix held (List.prefix_append white below) with
    short | ⟨more, rfl⟩
  · refine ⟨rest, [], by rw [List.append_nil], fun c member => headed.blank c (short.subset member),
      Or.inl rfl, headed.flat, headed.other⟩
  · rw [List.prefix_append_right_inj] at held
    refine ⟨white, more, rfl, headed.blank, ?_, headed.flat, headed.other⟩
    cases more with
    | nil => exact Or.inl rfl
    | cons c more =>
        rcases headed.feeds with rfl | ⟨after, rfl⟩
        · exact absurd (List.prefix_nil.1 held) (List.cons_ne_nil _ _)
        · exact Or.inr ⟨more, by rw [(List.cons_prefix_cons.1 held).1]⟩

/-- A needle that is not above the heading starts behind it. -/
theorem noStart_lead {needle : List Char} (isNeedle : Needle needle)
    (absent : ¬ needle <:+: joinLines lines) (rest : List Char) :
    NoStart needle (lead lines) rest := by
  obtain ⟨n, c, word, rfl, flat, foreign⟩ := isNeedle
  have inHeading : NoStart (List.replicate n '\n' ++ c :: word) timelineHeading rest := by
    cases n with
    | zero => exact Text.noStart_of_head foreign rest
    | succ n => exact Text.noStart_of_head (by decide) rest
  by_cases none : lines = []
  · rw [none]
    exact inHeading
  · have split : lead lines = (joinLines lines ++ ['\n']) ++ timelineHeading := by
      rw [lead_eq none, List.append_assoc, List.singleton_append]
    rw [split]
    refine NoStart.append ?_ inHeading
    intro start nonempty held found
    obtain ⟨init, rfl, inLines⟩ := (List.suffix_concat_iff.1 held).resolve_left nonempty
    rw [List.append_assoc, List.singleton_append] at found
    rcases Text.prefix_append_cons found with here | ⟨behind, beyond⟩
    · exact absent (here.isInfix.trans inLines.isInfix)
    · rw [List.append_assoc, List.singleton_append] at beyond
      obtain ⟨-, m, rfl⟩ := Needle.feeds flat beyond.symm
      rw [← beyond, List.prefix_append_right_inj, List.prefix_cons_inj] at found
      -- What follows the line feed is the dash of the heading.
      cases m with
      | zero =>
          have dash := (List.cons_prefix_cons.1 found).1
          exact foreign (dash ▸ by decide)
      | succ m => exact absurd (List.cons_prefix_cons.1 found).1 (by decide)

/-- A tag that is not above the heading starts behind the white space after it. -/
theorem noStart_front {word blank : List Char} (flat : '\n' ∉ '<' :: word)
    (isBlank : ∀ c ∈ blank, Text.isWhitespace c) (absent : ¬ '<' :: word <:+: joinLines lines)
    (rest : List Char) : NoStart ('<' :: word) (lead lines ++ blank) rest := by
  have inLines := noStart_lead ⟨0, '<', word, rfl, flat, by decide⟩ absent (blank ++ rest)
  have foreign : '<' ∉ blank := fun there => absurd (isBlank _ there) (by decide)
  exact inLines.append (Text.noStart_of_head foreign rest)

end Headed

/-! ## Tags below the heading -/

theorem stripTagBlock_skip {tag : String} {front rest : List Char}
    (quiet : ∀ rest, NoStart (openTag tag).toList front rest) :
    ∃ below, stripTagBlock (front ++ rest) tag = front ++ below := by
  rw [stripTagBlock, Text.splitOnce_skip (quiet rest)]
  cases Text.splitOnce (openTag tag) rest with
  | none => exact ⟨rest, rfl⟩
  | some before =>
      cases Text.splitOnce (closeTag tag) (front ++ rest) with
      | none => exact ⟨rest, rfl⟩
      | some behind => exact ⟨before.1 ++ behind.2, List.append_assoc _ _ _⟩

/-- Where the block begins behind the front, it is replaced there. -/
theorem untag_skip {summary front rest : List Char}
    (stripped : stripTagBlock summary "analysis" = front ++ rest)
    (quiet : ∀ rest, NoStart (openTag "summary").toList front rest) :
    ∃ below, untag summary = front ++ below := by
  rw [untag, stripped]
  cases found : extractTagBlock (front ++ rest) "summary" with
  | none => exact ⟨rest, rfl⟩
  | some content =>
      have opens : (openTag "summary").toList <+:
          (openTag "summary" ++ String.ofList content ++ closeTag "summary").toList := by
        rw [String.toList_append, String.toList_append, List.append_assoc]
        exact List.prefix_append _ _
      have some_ : (openTag "summary" ++ String.ofList content ++ closeTag "summary").toList ≠ [] :=
        fun none => openTag_some "summary" (List.prefix_nil.1 (none ▸ opens))
      exact ⟨_, Text.replace_skip ((quiet rest).extend opens) some_ _⟩

theorem untag_open {summary : List Char}
    (absent : ¬ (closeTag "summary").toList <:+: stripTagBlock summary "analysis") :
    untag summary = stripTagBlock summary "analysis" := by
  simp only [untag, extractTagBlock_open absent]

/-- No block of a text begins above its heading. -/
structure Untouched (lines : List (List Char)) (text : List Char) : Prop where
  analysis : (openTag "analysis").toList <:+: joinLines lines →
    ¬ (closeTag "analysis").toList <:+: text
  summary : (openTag "summary").toList <:+: joinLines lines →
    ¬ (closeTag "summary").toList <:+: stripTagBlock text "analysis"
  closing : ¬ (closeTag "summary").toList <:+: joinLines lines

theorem untag_headed {lines : List (List Char)} {text white below : List Char}
    (headed : Headed lines text white below) (untouched : Untouched lines text) :
    ∃ below, Headed lines (untag text) white below := by
  have analysis : (openTag "analysis").toList = '<' :: "analysis>".toList := by decide
  have summary : (openTag "summary").toList = '<' :: "summary>".toList := by decide
  have closing : (closeTag "summary").toList = '<' :: "/summary>".toList := by decide
  rcases headed.feeds with rfl | ⟨rest, rfl⟩
  · -- Nothing is below the heading: no tag is there at all.
    refine ⟨[], ?_⟩
    have none : ∀ word, '\n' ∉ '<' :: word → ¬ '<' :: word <:+: joinLines lines →
        ¬ '<' :: word <:+: text := by
      intro word flat absent
      rw [headed.whole, List.append_nil]
      exact Text.not_infix_of_noStart (List.cons_ne_nil _ _)
        (noStart_front flat (fun c member => (headed.blank c member).1) absent [])
    have untagged : ¬Tagged "analysis" text := by
      rintro ⟨opens, closes⟩
      refine none _ (by decide) ?_ (analysis ▸ opens)
      exact fun above => untouched.analysis (analysis ▸ above) closes
    have absent : ¬ (closeTag "summary").toList <:+: text :=
      closing ▸ none _ (by decide) (closing ▸ untouched.closing)
    rwa [untag_plain untagged absent]
  · have front : text = (lead lines ++ (white ++ ['\n'])) ++ rest := by
      rw [headed.whole]
      simp
    have isBlank : ∀ c ∈ white ++ ['\n'], Text.isWhitespace c :=
      List.forall_mem_append.2 ⟨fun c member => (headed.blank c member).1,
        List.forall_mem_singleton.2 (by decide)⟩
    obtain ⟨stripped, isStripped⟩ : ∃ stripped, stripTagBlock text "analysis" =
        (lead lines ++ (white ++ ['\n'])) ++ stripped := by
      by_cases above : (openTag "analysis").toList <:+: joinLines lines
      · refine ⟨rest, ?_⟩
        rw [stripTagBlock_untagged fun tagged => untouched.analysis above tagged.2, front]
      · rw [front]
        refine stripTagBlock_skip fun rest => ?_
        rw [analysis] at above ⊢
        exact noStart_front (by decide) isBlank above rest
    obtain ⟨below, isUntagged⟩ : ∃ below, untag text =
        (lead lines ++ (white ++ ['\n'])) ++ below := by
      by_cases above : (openTag "summary").toList <:+: joinLines lines
      · exact ⟨stripped, by rw [untag_open (untouched.summary above), isStripped]⟩
      · refine untag_skip isStripped fun rest => ?_
        rw [summary] at above ⊢
        exact noStart_front (by decide) isBlank above rest
    refine ⟨'\n' :: below, ?_, headed.blank, Or.inr ⟨below, rfl⟩, headed.flat, headed.other⟩
    rw [isUntagged]
    simp

/-! ## Reading back -/

section Lead

variable {lines : List (List Char)}

theorem lead_some (lines : List (List Char)) : lead lines ≠ [] :=
  List.append_ne_nil_of_right_ne_nil _ (by decide)

theorem trimEnd_lead (lines : List (List Char)) (rest : List Char) :
    trimEnd (lead lines ++ rest) = lead lines ++ trimEnd rest := by
  have heading : timelineHeading = "- Key timeline".toList ++ [':'] := by decide
  rw [lead, heading, ← List.append_assoc, List.append_assoc, List.singleton_append,
    Text.trimEnd_append_cons (by decide), List.append_assoc, List.append_assoc,
    List.singleton_append, List.append_assoc]

theorem starts_lead {rest more : List Char} (starts : Starts (lead lines ++ rest)) :
    Starts (lead lines ++ more) := by
  obtain ⟨c, front, isLead⟩ := List.exists_cons_of_ne_nil (lead_some lines)
  rw [isLead] at starts ⊢
  exact starts

theorem readBack_headed {formatted white below : List Char}
    (headed : Headed lines formatted white below) (starts : Starts formatted)
    (noRecent : ¬ recentNote.toList <:+: joinLines lines)
    (noResume : ¬ resumeNote.toList <:+: joinLines lines) (recent resume : Bool) :
    ∃ white below, Headed lines (readBack (formatted ++ notes recent resume)) white below := by
  have held := readBack_isPrefix starts recent resume
  have split : formatted ++ notes recent resume =
      lead lines ++ (white ++ below ++ notes recent resume) := by
    rw [headed.whole, List.append_assoc]
  have read : readBack (formatted ++ notes recent resume) = lead lines ++
      trimEnd (beforeNote resumeNote (beforeNote recentNote (white ++ below ++ notes recent resume))) := by
    rw [readBack, split, beforeNote_skip (noStart_lead recentNote_needle noRecent _),
      beforeNote_skip (noStart_lead resumeNote_needle noResume _)]
    rw [headed.whole] at starts
    rw [trim_of_starts (starts_lead starts), trimEnd_lead]
  rw [read, headed.whole, List.prefix_append_right_inj] at held
  rw [read]
  exact headed.of_isPrefix held

end Lead

/-- Nothing above the heading is a note, or a tag of a block that is there. -/
structure Readable (formatted : List Char) : Prop where
  recent : ¬ recentNote.toList <:+: aboveTimeline formatted
  resume : ¬ resumeNote.toList <:+: aboveTimeline formatted
  analysis : (openTag "analysis").toList <:+: aboveTimeline formatted →
    ¬ (closeTag "analysis").toList <:+: formatted
  summary : (openTag "summary").toList <:+: aboveTimeline formatted →
    ¬ (closeTag "summary").toList <:+: formatted ∧
      ¬ (closeTag "summary").toList <:+: stripTagBlock formatted "analysis"
  closing : ¬ (closeTag "summary").toList <:+: aboveTimeline formatted

/-- **A readable summary loses no highlight when it is read back.** -/
theorem highlightRows_readBack {formatted : List Char} (trimmed : trimEnd formatted = formatted)
    (starts : Starts formatted) (readable : Readable formatted) (recent resume : Bool) :
    highlightRows (rows (formatCompactSummary (readBack (formatted ++ notes recent resume)))) =
      highlightRows (rows formatted) := by
  have held := readBack_isPrefix starts recent resume
  have readStarts : Starts (readBack (formatted ++ notes recent resume)) := starts.of_isPrefix held
  by_cases there : timelineHeading ∈ rows formatted
  · obtain ⟨white, below, headed⟩ := headed_of_mem there
    obtain ⟨white', below', read⟩ :=
      readBack_headed headed starts readable.recent readable.resume recent resume
    have untouched : Untouched (linesAbove formatted) (readBack (formatted ++ notes recent resume)) := by
      refine ⟨fun above closes => ?_, fun above closes => ?_, readable.closing⟩
      · exact readable.analysis above (closes.trans held.isInfix)
      · obtain ⟨inText, inStripped⟩ := readable.summary above
        rcases stripTagBlock_isPrefix "analysis" held with same | shorter
        · rw [same] at closes
          exact inText (closes.trans held.isInfix)
        · exact inStripped (closes.trans shorter.isInfix)
    obtain ⟨below'', untagged⟩ := untag_headed read untouched
    have untaggedStarts : Starts (untag (readBack (formatted ++ notes recent resume))) := by
      rw [read.whole] at readStarts
      rw [untagged.whole]
      exact starts_lead readStarts
    rw [format_eq, highlightRows_squeeze untaggedStarts, untagged.highlightRows_eq,
      headed.highlightRows_eq]
  · have whole := aboveTimeline_whole there
    obtain ⟨noRecent, noResume, analysis, -, closing⟩ := readable
    rw [whole] at noRecent noResume analysis closing
    rw [readBack_whole trimmed starts noRecent noResume,
      format_plain (fun tagged => analysis tagged.1 tagged.2) closing, highlightRows_squeeze starts]

end Openyak.Runtime
