/-
# Theory.Lines -- texts by their lines

A text is a word without a line feed, or such a word, a line feed and a text
(`by_lines`).  `rows` are its lines with the white space at their ends trimmed: of
texts that are cut into lines, trimmed and joined again they are what stays the same.

A needle without a line feed is found in a text only inside one of its lines
(`infix_joinLines`); where no match of it starts, `splitOnce` goes on
(`splitOnce_skip`).
-/
import Openyak.Theory.Text
import Mathlib.Data.List.Infix
import Mathlib.Data.List.TakeWhile

namespace Openyak.Theory.Text

set_option autoImplicit false

/-! ## White space at the end -/

theorem trimEnd_append_white {c : Char} (white : isWhitespace c) (text : List Char) :
    trimEnd (text ++ [c]) = trimEnd text := by
  simp [trimEnd, white]

theorem trimEnd_append_whites {white : List Char} (all : ∀ c ∈ white, isWhitespace c)
    (text : List Char) : trimEnd (text ++ white) = trimEnd text := by
  induction white using List.reverseRecOn with
  | nil => rw [List.append_nil]
  | append_singleton white c ih =>
      obtain ⟨before, last⟩ := List.forall_mem_append.1 all
      rw [← List.append_assoc, trimEnd_append_white (last c List.mem_cons_self), ih before]

theorem trimEnd_append_solid {c : Char} (solid : ¬isWhitespace c) (text : List Char) :
    trimEnd (text ++ [c]) = text ++ [c] := by
  simp [trimEnd, solid]

/-- The white space at the end begins behind the last character that is none. -/
theorem trimEnd_append_cons {c : Char} (solid : ¬isWhitespace c) (text rest : List Char) :
    trimEnd (text ++ c :: rest) = text ++ c :: trimEnd rest := by
  induction rest using List.reverseRecOn with
  | nil => exact trimEnd_append_solid solid text
  | append_singleton rest last ih =>
      have longer : text ++ c :: (rest ++ [last]) = (text ++ c :: rest) ++ [last] := by simp
      by_cases white : isWhitespace last
      · rw [longer, trimEnd_append_white white, ih, trimEnd_append_white white]
      · rw [longer, trimEnd_append_solid white, trimEnd_append_solid white, ← longer]

theorem trimEnd_isPrefix (text : List Char) : trimEnd text <+: text := by
  induction text using List.reverseRecOn with
  | nil => exact List.prefix_rfl
  | append_singleton text c ih =>
      by_cases white : isWhitespace c
      · rw [trimEnd_append_white white]
        exact ih.trans (List.prefix_append text [c])
      · rw [trimEnd_append_solid white]

theorem trimEnd_trimEnd (text : List Char) : trimEnd (trimEnd text) = trimEnd text := by
  induction text using List.reverseRecOn with
  | nil => rfl
  | append_singleton text c ih =>
      by_cases white : isWhitespace c
      · rw [trimEnd_append_white white, ih]
      · rw [trimEnd_append_solid white, trimEnd_append_solid white]

theorem trimEnd_split (text : List Char) :
    ∃ white, text = trimEnd text ++ white ∧ ∀ c ∈ white, isWhitespace c := by
  induction text using List.reverseRecOn with
  | nil => exact ⟨[], rfl, by simp⟩
  | append_singleton text last ih =>
      by_cases isWhite : isWhitespace last
      · obtain ⟨white, split, all⟩ := ih
        refine ⟨white ++ [last], ?_, List.forall_mem_append.2 ⟨all, by simpa using isWhite⟩⟩
        rw [trimEnd_append_white isWhite, ← List.append_assoc, ← split]
      · exact ⟨[], by rw [trimEnd_append_solid isWhite, List.append_nil], by simp⟩

theorem trimEnd_eq_nil {text : List Char} : trimEnd text = [] ↔ ∀ c ∈ text, isWhitespace c := by
  simp [trimEnd, List.dropWhile_eq_nil_iff]

theorem trim_eq_nil {text : List Char} : trim text = [] ↔ trimEnd text = [] := by
  rw [trimEnd_eq_nil]
  constructor
  · intro none c member
    by_contra solid
    have start : trimStart text ≠ [] := by
      rw [trimStart, ne_eq, List.dropWhile_eq_nil_iff]
      exact fun white => solid (white c member)
    obtain ⟨first, rest, split⟩ := List.exists_cons_of_ne_nil start
    have head : ¬isWhitespace first := by
      have stops := List.head?_dropWhile_not isWhitespace text
      rw [trimStart] at split
      rw [split] at stops
      simpa using stops
    rw [trim, split, trimEnd_eq_nil] at none
    exact head (none first List.mem_cons_self)
  · exact trim_white

/-- A text that starts with no white space is trimmed at its end alone. -/
theorem trim_of_solid {c : Char} (solid : ¬isWhitespace c) (text : List Char) :
    trim (c :: text) = trimEnd (c :: text) := by
  rw [trim, trimStart, List.dropWhile_cons_of_neg solid]

/-! ## Lines -/

theorem by_lines {motive : List Char → Prop} (word : ∀ word, '\n' ∉ word → motive word)
    (more : ∀ word rest, '\n' ∉ word → motive rest → motive (word ++ '\n' :: rest))
    (text : List Char) : motive text := by
  by_cases split : '\n' ∈ text
  · obtain ⟨first, rest, rfl, whole⟩ := List.eq_append_cons_of_mem split
    exact more first rest whole (by_lines word more rest)
  · exact word text split
termination_by text.length
decreasing_by
  subst_vars
  simp only [List.length_append, List.length_cons]
  omega

theorem linesAux_word {word : List Char} (whole : '\n' ∉ word) (rest seen : List Char) :
    linesAux (word ++ rest) seen = linesAux rest (word.reverse ++ seen) := by
  induction word generalizing seen with
  | nil => rfl
  | cons c word ih =>
      rw [List.mem_cons, not_or] at whole
      have step : linesAux (c :: (word ++ rest)) seen = linesAux (word ++ rest) (c :: seen) := by
        rw [linesAux]
        exact fun same => whole.1 same.symm
      rw [List.cons_append, step, ih whole.2]
      simp

theorem lines_word {word : List Char} (whole : '\n' ∉ word) :
    lines word = if word = [] then [] else [word] := by
  have read := linesAux_word whole [] []
  rw [List.append_nil, List.append_nil] at read
  rw [lines, read]
  cases word using List.reverseRecOn with
  | nil => rfl
  | append_singleton word c => simp [linesAux]

theorem lines_more {word : List Char} (whole : '\n' ∉ word) (rest : List Char) :
    lines (word ++ '\n' :: rest) = endLine word.reverse :: lines rest := by
  rw [lines, linesAux_word whole, List.append_nil]
  rfl

/-- A line is its word, but for one `\r`. -/
theorem endLine_isPrefix (word : List Char) : endLine word.reverse <+: word := by
  unfold endLine
  split
  · rename_i seen ends
    have isWord : word = seen.reverse ++ ['\r'] := by
      rw [← List.reverse_reverse word, ends, List.reverse_cons]
    rw [isWord]
    exact List.prefix_append _ _
  · rw [List.reverse_reverse]

theorem trimEnd_endLine (word : List Char) : trimEnd (endLine word.reverse) = trimEnd word := by
  unfold endLine
  split
  · rename_i seen ends
    have isWord : word = seen.reverse ++ ['\r'] := by
      rw [← List.reverse_reverse word, ends, List.reverse_cons]
    rw [isWord, trimEnd_append_white rfl]
  · rw [List.reverse_reverse]

/-- A line has no line feed, and stands in its text. -/
theorem mem_lines {line text : List Char} (member : line ∈ lines text) :
    '\n' ∉ line ∧ line <:+: text := by
  induction text using by_lines with
  | word word whole =>
      rw [lines_word whole] at member
      split at member
      · exact nomatch member
      · rw [List.mem_singleton.1 member]
        exact ⟨whole, List.infix_rfl⟩
  | more word rest whole ih =>
      rw [lines_more whole, List.mem_cons] at member
      rcases member with rfl | later
      · have start := endLine_isPrefix word
        exact ⟨fun isThere => whole (start.subset isThere),
          start.isInfix.trans (List.prefix_append _ _).isInfix⟩
      · obtain ⟨whole, held⟩ := ih later
        exact ⟨whole, held.trans ⟨word ++ ['\n'], [], by simp⟩⟩

/-! ## Rows -/

/-- The lines with the white space at their ends trimmed. -/
def rows (text : List Char) : List (List Char) := (text.splitOn '\n').map trimEnd

theorem rows_word {word : List Char} (whole : '\n' ∉ word) : rows word = [trimEnd word] := by
  rw [rows, List.splitOn_eq_singleton whole, List.map_singleton]

theorem rows_append (text rest : List Char) :
    rows (text ++ '\n' :: rest) = rows text ++ rows rest := by
  rw [rows, List.splitOn_append_cons_self, List.map_append]
  rfl

theorem rows_more {word : List Char} (whole : '\n' ∉ word) (rest : List Char) :
    rows (word ++ '\n' :: rest) = trimEnd word :: rows rest := by
  rw [rows_append, rows_word whole]
  rfl

theorem joinLines_cons (line : List Char) {lines : List (List Char)} (more : lines ≠ []) :
    joinLines (line :: lines) = line ++ '\n' :: joinLines lines := by
  obtain ⟨next, rest, rfl⟩ := List.exists_cons_of_ne_nil more
  simp [joinLines, List.intercalate]

theorem joinLines_singleton (line : List Char) : joinLines [line] = line := by
  simp [joinLines, List.intercalate]

theorem joinLines_append {xs ys : List (List Char)} (some_ : xs ≠ []) (more : ys ≠ []) :
    joinLines (xs ++ ys) = joinLines xs ++ '\n' :: joinLines ys := by
  induction xs with
  | nil => exact absurd rfl some_
  | cons line xs ih =>
      by_cases last : xs = []
      · rw [last, List.singleton_append, joinLines_cons line more, joinLines_singleton]
      · rw [List.cons_append, joinLines_cons line (by simp [last]), ih last,
          joinLines_cons line last, List.append_assoc, List.cons_append]

theorem rows_joinLines {lines : List (List Char)} (some_ : lines ≠ []) :
    rows (joinLines lines) = lines.flatMap rows := by
  induction lines with
  | nil => exact absurd rfl some_
  | cons line lines ih =>
      by_cases last : lines = []
      · rw [last, joinLines_singleton, List.flatMap_singleton]
      · rw [joinLines_cons line last, rows_append, ih last, List.flatMap_cons]

/-- `lines` forgets at most the blank row at the end. -/
theorem rows_lines (text : List Char) :
    ∃ n, rows text = (lines text).map trimEnd ++ List.replicate n [] := by
  induction text using by_lines with
  | word word whole =>
      rw [rows_word whole, lines_word whole]
      by_cases empty : word = []
      · exact ⟨1, by rw [if_pos empty, empty]; rfl⟩
      · exact ⟨0, by rw [if_neg empty]; rfl⟩
  | more word rest whole ih =>
      obtain ⟨n, same⟩ := ih
      refine ⟨n, ?_⟩
      rw [rows_more whole, lines_more whole, same, List.map_cons, trimEnd_endLine, List.cons_append]

theorem rows_append_white {c : Char} (white : isWhitespace c) (apart : c ≠ '\n')
    (text : List Char) : rows (text ++ [c]) = rows text := by
  induction text using by_lines with
  | word word whole =>
      have longer : '\n' ∉ word ++ [c] := by simp [whole, apart.symm]
      rw [rows_word longer, rows_word whole, trimEnd_append_white white]
  | more word rest whole ih =>
      rw [List.append_assoc, List.cons_append, rows_more whole, rows_more whole, ih]

/-- `trimEnd` takes blank rows from the end. -/
theorem rows_trimEnd (text : List Char) :
    ∃ n, rows text = rows (trimEnd text) ++ List.replicate n [] := by
  induction text using List.reverseRecOn with
  | nil => exact ⟨0, rfl⟩
  | append_singleton text c ih =>
      by_cases white : isWhitespace c
      · obtain ⟨n, same⟩ := ih
        rw [trimEnd_append_white white]
        by_cases feed : c = '\n'
        · refine ⟨n + 1, ?_⟩
          have last : rows [] = List.replicate 1 [] := rfl
          rw [feed, rows_append, same, last, List.append_assoc, List.replicate_append_replicate]
        · exact ⟨n, by rw [rows_append_white white feed, same]⟩
      · exact ⟨0, by rw [trimEnd_append_solid white, List.replicate_zero, List.append_nil]⟩

/-- A row is trimmed, has no line feed, and stands in its text. -/
theorem mem_rows {row text : List Char} (member : row ∈ rows text) :
    trimEnd row = row ∧ '\n' ∉ row ∧ row <:+: text := by
  induction text using by_lines with
  | word word whole =>
      rw [rows_word whole, List.mem_singleton] at member
      rw [member]
      exact ⟨trimEnd_trimEnd word, fun isThere => whole ((trimEnd_isPrefix word).subset isThere),
        (trimEnd_isPrefix word).isInfix⟩
  | more word rest whole ih =>
      rw [rows_more whole, List.mem_cons] at member
      rcases member with rfl | later
      · exact ⟨trimEnd_trimEnd word, fun isThere => whole ((trimEnd_isPrefix word).subset isThere),
          (trimEnd_isPrefix word).isInfix.trans (List.prefix_append _ _).isInfix⟩
      · obtain ⟨trimmed, whole, held⟩ := ih later
        exact ⟨trimmed, whole, held.trans ⟨word ++ ['\n'], [], by simp⟩⟩

/-! ## Needles -/

/-- A prefix of a text with an item in it ends before the item or holds it. -/
theorem prefix_append_cons {needle text rest : List Char} {c : Char}
    (found : needle <+: text ++ c :: rest) : needle <+: text ∨ text ++ [c] <+: needle := by
  have held : text ++ [c] <+: text ++ c :: rest := ⟨rest, by simp⟩
  rcases List.prefix_or_prefix_of_prefix found held with short | long
  · rcases List.prefix_concat_iff.1 short with rfl | short
    · exact Or.inr List.prefix_rfl
    · exact Or.inl short
  · exact Or.inr long

/-- A needle without a line feed lies on one side of it. -/
theorem infix_newline {needle text rest : List Char} (flat : '\n' ∉ needle)
    (found : needle <:+: text ++ '\n' :: rest) : needle <:+: text ∨ needle <:+: rest := by
  have start : ∀ text, needle <+: text ++ '\n' :: rest → needle <:+: text := by
    intro text found
    rcases prefix_append_cons found with here | beyond
    · exact here.isInfix
    · exact absurd (beyond.subset (by simp)) flat
  induction text with
  | nil =>
      rcases List.infix_cons_iff.1 found with here | later
      · exact Or.inl (start [] here)
      · exact Or.inr later
  | cons c text ih =>
      rcases List.infix_cons_iff.1 found with here | later
      · exact Or.inl (start (c :: text) here)
      · exact (ih later).imp_left List.infix_cons

theorem infix_joinLines {needle : List Char} (flat : '\n' ∉ needle) (some_ : needle ≠ [])
    {lines : List (List Char)} (found : needle <:+: joinLines lines) :
    ∃ line ∈ lines, needle <:+: line := by
  induction lines with
  | nil => exact absurd (List.infix_nil.1 found) some_
  | cons line lines ih =>
      by_cases last : lines = []
      · rw [last, joinLines_singleton] at found
        exact ⟨line, List.mem_cons_self, found⟩
      · rw [joinLines_cons line last] at found
        rcases infix_newline flat found with here | later
        · exact ⟨line, List.mem_cons_self, here⟩
        · obtain ⟨line, member, held⟩ := ih later
          exact ⟨line, List.mem_cons_of_mem _ member, held⟩

theorem infix_of_mem_joinLines {line : List Char} {lines : List (List Char)}
    (member : line ∈ lines) : line <:+: joinLines lines := by
  induction lines with
  | nil => exact nomatch member
  | cons first lines ih =>
      by_cases last : lines = []
      · rw [last, List.mem_singleton] at member
        rw [last, joinLines_singleton, member]
      · rw [joinLines_cons first last]
        rcases List.mem_cons.1 member with rfl | later
        · exact (List.prefix_append _ _).isInfix
        · exact (ih later).trans ⟨first ++ ['\n'], [], by simp⟩

/-! ## `split_once` and `replace` -/

/-- No match of the needle starts in the text, when this rest follows. -/
def NoStart (needle text rest : List Char) : Prop :=
  ∀ start, start ≠ [] → start <:+ text → ¬ needle <+: start ++ rest

/-- A suffix of two texts lies in the second or begins in the first. -/
theorem suffix_append_cases {start text more : List Char} (held : start <:+ text ++ more) :
    start <:+ more ∨ ∃ front, front ≠ [] ∧ front <:+ text ∧ start = front ++ more := by
  rcases List.suffix_or_suffix_of_suffix held (List.suffix_append text more) with inMore | longer
  · exact Or.inl inMore
  · obtain ⟨front, rfl⟩ := longer
    obtain ⟨before, split⟩ := held
    rw [← List.append_assoc] at split
    have inText : front <:+ text := ⟨before, List.append_cancel_right split⟩
    by_cases empty : front = []
    · exact Or.inl (by rw [empty]; exact List.suffix_rfl)
    · exact Or.inr ⟨front, empty, inText, rfl⟩

theorem NoStart.append {needle text more rest : List Char}
    (first : NoStart needle text (more ++ rest)) (then_ : NoStart needle more rest) :
    NoStart needle (text ++ more) rest := by
  intro start nonempty held found
  rcases suffix_append_cases held with inMore | ⟨front, some_, inText, rfl⟩
  · exact then_ start nonempty inMore found
  · rw [List.append_assoc] at found
    exact first front some_ inText found

theorem noStart_of_head {c : Char} {needle text : List Char} (other : c ∉ text)
    (rest : List Char) : NoStart (c :: needle) text rest := by
  intro start nonempty held found
  obtain ⟨first, start, rfl⟩ := List.exists_cons_of_ne_nil nonempty
  rw [List.cons_append, List.cons_prefix_cons] at found
  exact other (held.subset (found.1 ▸ List.mem_cons_self))

theorem not_infix_of_noStart {needle text : List Char} (some_ : needle ≠ [])
    (quiet : NoStart needle text []) : ¬ needle <:+: text := by
  intro found
  obtain ⟨start, isStart, held⟩ := List.infix_iff_prefix_suffix.1 found
  have nonempty : start ≠ [] := by
    rintro rfl
    exact some_ (List.prefix_nil.1 isStart)
  exact quiet start nonempty held (by rwa [List.append_nil])

theorem splitOnce_skip {needle : String} {text rest : List Char}
    (quiet : NoStart needle.toList text rest) :
    splitOnce needle (text ++ rest) =
      (splitOnce needle rest).map fun parts => (text ++ parts.1, parts.2) := by
  induction text with
  | nil => simp
  | cons c text ih =>
      have first := quiet (c :: text) (by simp) List.suffix_rfl
      have later : NoStart needle.toList text rest := fun start nonempty held =>
        quiet start nonempty (held.trans (List.suffix_cons c text))
      rw [← List.isPrefixOf_iff_prefix, List.cons_append] at first
      rw [List.cons_append, splitOnce, if_neg first, ih later, Option.map_map]
      rfl

theorem splitOnce_at {needle : String} (some_ : needle.toList ≠ []) (rest : List Char) :
    splitOnce needle (needle.toList ++ rest) = some ([], rest) := by
  obtain ⟨c, more, isNeedle⟩ := List.exists_cons_of_ne_nil some_
  have found : needle.toList.isPrefixOf (c :: (more ++ rest)) := by
    rw [List.isPrefixOf_iff_prefix, isNeedle]
    exact ⟨rest, rfl⟩
  rw [isNeedle, List.cons_append, splitOnce, if_pos found, isNeedle]
  simp

/-- A separator that is one character is met first where it stands first. -/
theorem splitOnce_first {needle : String} {c : Char} (isChar : needle.toList = [c])
    {before : List Char} (absent : c ∉ before) (rest : List Char) :
    splitOnce needle (before ++ c :: rest) = some (before, rest) := by
  have at_ : splitOnce needle (c :: rest) = some ([], rest) := by
    have found := splitOnce_at (by rw [isChar]; exact List.cons_ne_nil _ _) rest
    rwa [isChar] at found
  have quiet : NoStart needle.toList before (c :: rest) := by
    rw [isChar]
    exact noStart_of_head absent _
  rw [splitOnce_skip quiet, at_, Option.map_some, List.append_nil]

theorem splitOnce_some {needle : String} {text before after : List Char}
    (found : splitOnce needle text = some (before, after)) :
    text = before ++ needle.toList ++ after := by
  induction text generalizing before with
  | nil =>
      rw [splitOnce] at found
      split at found
      · rename_i empty
        obtain ⟨rfl, rfl⟩ := Prod.mk.inj (Option.some.inj found)
        rw [empty]
        rfl
      · exact nomatch found
  | cons c text ih =>
      rw [splitOnce] at found
      split at found
      · rename_i isHere
        obtain ⟨rfl, rfl⟩ := Prod.mk.inj (Option.some.inj found)
        obtain ⟨rest, split⟩ := List.isPrefixOf_iff_prefix.1 isHere
        rw [← split, List.drop_left, List.nil_append]
      · obtain ⟨⟨before', after'⟩, later, same⟩ := Option.map_eq_some_iff.1 found
        obtain ⟨rfl, rfl⟩ := Prod.mk.inj same
        rw [ih later]
        rfl

/-- The first match is no later than one that is there. -/
theorem splitOnce_before {needle : String} (some_ : needle.toList ≠ []) (text rest : List Char) :
    ∃ before after, splitOnce needle (text ++ (needle.toList ++ rest)) = some (before, after) ∧
      before <+: text := by
  induction text with
  | nil => exact ⟨[], rest, splitOnce_at some_ rest, List.prefix_rfl⟩
  | cons c text ih =>
      rw [List.cons_append, splitOnce]
      split
      · exact ⟨[], _, rfl, List.nil_prefix⟩
      · obtain ⟨before, after, found, early⟩ := ih
        exact ⟨c :: before, after, by rw [found]; rfl, (List.prefix_cons_inj c).2 early⟩

theorem splitOnce_extend {needle : String} {text before after : List Char}
    (some_ : needle.toList ≠ []) (found : splitOnce needle text = some (before, after))
    (rest : List Char) : splitOnce needle (text ++ rest) = some (before, after ++ rest) := by
  induction text generalizing before with
  | nil =>
      rw [splitOnce, if_neg some_] at found
      exact nomatch found
  | cons c text ih =>
      rw [splitOnce] at found
      split at found
      · rename_i isHere
        obtain ⟨rfl, rfl⟩ := Prod.mk.inj (Option.some.inj found)
        obtain ⟨behind, split⟩ := List.isPrefixOf_iff_prefix.1 isHere
        rw [← split, List.drop_left, List.append_assoc]
        exact splitOnce_at some_ (behind ++ rest)
      · rename_i notHere
        obtain ⟨⟨before', after'⟩, later, same⟩ := Option.map_eq_some_iff.1 found
        obtain ⟨rfl, rfl⟩ := Prod.mk.inj same
        -- The match found is as long as this one would be.
        have none : ¬needle.toList.isPrefixOf (c :: (text ++ rest)) := by
          intro isHere
          have fits : needle.toList.length ≤ (c :: text).length := by
            have length := congrArg List.length (splitOnce_some later)
            simp only [List.length_append] at length
            rw [List.length_cons]
            omega
          rw [List.isPrefixOf_iff_prefix] at isHere notHere
          exact notHere (List.prefix_of_prefix_length_le isHere ⟨rest, rfl⟩ fits)
        rw [List.cons_append, splitOnce, if_neg none, ih later]
        rfl

theorem splitOnce_none {needle : String} {text : List Char}
    (absent : ¬ needle.toList <:+: text) : splitOnce needle text = none := by
  cases found : splitOnce needle text with
  | none => rfl
  | some parts =>
      refine absurd ?_ absent
      rw [splitOnce_some found]
      exact List.infix_append _ _ _

theorem splitOnce_absent {needle : String} {c : Char} (isChar : needle.toList = [c])
    {text : List Char} (absent : c ∉ text) : splitOnce needle text = none := by
  apply splitOnce_none
  rw [isChar]
  exact fun found => absent (found.subset (List.mem_singleton_self c))

theorem NoStart.extend {needle longer text rest : List Char} (quiet : NoStart needle text rest)
    (held : needle <+: longer) : NoStart longer text rest :=
  fun start nonempty suffix found => quiet start nonempty suffix (held.trans found)

/-- A line feed in front of the rest keeps a match without one from reaching it. -/
theorem noStart_newline {needle text : List Char} (flat : '\n' ∉ needle)
    (absent : ¬ needle <:+: text) (rest : List Char) : NoStart needle (text ++ ['\n']) rest := by
  intro start nonempty held found
  obtain ⟨init, rfl, before⟩ := (List.suffix_concat_iff.1 held).resolve_left nonempty
  rw [List.append_assoc, List.singleton_append] at found
  rcases prefix_append_cons found with here | beyond
  · exact absent (here.isInfix.trans before.isInfix)
  · exact flat (beyond.subset (by simp))

theorem replace_skip {needle : String} {text rest : List Char}
    (quiet : NoStart needle.toList text rest) (some_ : needle.toList ≠ []) (with_ : String) :
    replace needle with_ (text ++ rest) = text ++ replace needle with_ rest := by
  induction text with
  | nil => rfl
  | cons c text ih =>
      have first := quiet (c :: text) (by simp) List.suffix_rfl
      have later : NoStart needle.toList text rest := fun start nonempty held =>
        quiet start nonempty (held.trans (List.suffix_cons c text))
      rw [← List.isPrefixOf_iff_prefix, List.cons_append] at first
      rw [replace] at ih ⊢
      rw [List.cons_append, replaceAux, if_neg some_, if_neg first, ih later]
      rfl

theorem replace_self {needle : String} (some_ : needle.toList ≠ []) (with_ : String) :
    replace needle with_ needle.toList = with_.toList := by
  obtain ⟨c, more, isNeedle⟩ := List.exists_cons_of_ne_nil some_
  have skipped : ∀ (rest : List Char) (n : Nat), rest.length = n →
      replaceAux needle.toList with_.toList n rest = [] := by
    intro rest
    induction rest with
    | nil => intro n _; cases n <;> simp [replaceAux, some_]
    | cons c rest ih =>
        rintro n rfl
        rw [List.length_cons, replaceAux]
        exact ih _ rfl
  have found : needle.toList.isPrefixOf (c :: more) := by
    rw [isNeedle, List.isPrefixOf_iff_prefix]
  have length : needle.toList.length - 1 = more.length := by
    rw [isNeedle, List.length_cons, Nat.add_sub_cancel]
  have step : replaceAux needle.toList with_.toList 0 (c :: more) = with_.toList := by
    rw [replaceAux, if_neg some_, if_pos found, length, skipped more _ rfl, List.append_nil]
  rw [← isNeedle] at step
  exact step

end Openyak.Theory.Text
