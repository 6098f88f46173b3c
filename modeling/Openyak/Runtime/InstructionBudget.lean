/-
# Runtime.InstructionBudget -- how much of the instruction files goes into a prompt

A file's content is cut to what is left of the budget and then to the limit of one file, and
a cut is marked.  The mark of the first cut counts for the second: where what is left is
less than the limit of a file, but not by a whole mark, the second cuts through the mark of
the first (`renderedBody_eq`, `budget_not_kept`).

`Renders` is what the sections are to be, `WithinBudget` says of the files when they are
(`budget_kept_iff`).
-/
import Openyak.Runtime.SummaryText
import Openyak.Theory.PathText

namespace Openyak.Runtime

open Openyak.Theory
open Openyak.Theory.Posix (Path)

set_option autoImplicit false

def maxInstructionFileChars : Nat := 4000

def maxTotalInstructionChars : Nat := 12000

structure ContextFile where
  path : Path
  content : List Char

def truncationMarker : List Char := "\n\n[truncated]".toList

def omissionNote : List Char :=
  "_Additional instruction content omitted after reaching the prompt budget._".toList

def truncateInstructionContent (content : List Char) (remainingChars : Nat) : List Char :=
  let hardLimit := min maxInstructionFileChars remainingChars
  let trimmed := Text.trim content
  if trimmed.length ≤ hardLimit then trimmed else trimmed.take hardLimit ++ truncationMarker

def renderInstructionContent (content : List Char) : List Char :=
  truncateInstructionContent content maxInstructionFileChars

/-- The body of one file, with so much of the budget left. -/
def renderedBody (content : List Char) (remainingChars : Nat) : List Char :=
  renderInstructionContent (truncateInstructionContent content remainingChars)

/-- What a body takes of the budget. -/
def leftOver (content : List Char) (remainingChars : Nat) : Nat :=
  remainingChars - min (renderedBody content remainingChars).length remainingChars

section Headings

variable (display : Path → String)

def displayContextPath (path : Path) : String := path.fileName.getD (display path)

def describeInstructionFile (file : ContextFile) (files : List ContextFile) : String :=
  let scope := (files.filterMap fun candidate => candidate.path.parent).find? fun parent =>
    file.path.startsWith parent
  displayContextPath display file.path ++ " (scope: " ++
    (scope.map display).getD "workspace" ++ ")"

def instructionHeading (files : List ContextFile) (file : ContextFile) : List Char :=
  ("## " ++ describeInstructionFile display file files).toList

/-- The loop of `render_instruction_files`. -/
def instructionSections (files : List ContextFile) : Nat → List ContextFile → List (List Char)
  | _, [] => []
  | remainingChars, file :: rest =>
      if remainingChars = 0 then [omissionNote]
      else instructionHeading display files file :: renderedBody file.content remainingChars ::
        instructionSections files (leftOver file.content remainingChars) rest

def renderInstructionFiles (files : List ContextFile) : List Char :=
  List.intercalate "\n\n".toList
    ("# openyak instructions".toList :: instructionSections display files maxTotalInstructionChars files)

end Headings

/-! ## What is to be rendered -/

/-- A body, and how much of the content it has: all of it, or the beginning and one mark. -/
inductive BodyOf (trimmed : List Char) : (body kept : List Char) → Prop
  | whole : BodyOf trimmed trimmed trimmed
  | cut {kept : List Char} (begins : kept <+: trimmed) (proper : kept ≠ trimmed)
      (short : kept.length ≤ maxInstructionFileChars) : BodyOf trimmed (kept ++ truncationMarker) kept

/-- The sections are those of the first files in order, each with its body, and a note where
files are left. -/
inductive Renders (heading : ContextFile → List Char) :
    List ContextFile → (sections kept : List (List Char)) → Prop
  | done : Renders heading [] [] []
  | omitted {file : ContextFile} {rest : List ContextFile} :
      Renders heading (file :: rest) [omissionNote] []
  | file {file : ContextFile} {rest : List ContextFile} {body part : List Char}
      {sections kept : List (List Char)} (isBody : BodyOf (Text.trim file.content) body part)
      (others : Renders heading rest sections kept) :
      Renders heading (file :: rest) (heading file :: body :: sections) (part :: kept)

/-- **The budget is kept**: the sections are rendered so, and the parts fit into it. -/
def BudgetKept (display : Path → String) (files : List ContextFile) : Prop :=
  ∃ kept, Renders (instructionHeading display files) files
      (instructionSections display files maxTotalInstructionChars files) kept ∧
    (kept.map List.length).sum ≤ maxTotalInstructionChars

/-! ## When it is -/

/-- The second cut goes through the mark of the first. -/
def CutsMarker (content : List Char) (remainingChars : Nat) : Prop :=
  maxInstructionFileChars < remainingChars + truncationMarker.length ∧
    remainingChars < maxInstructionFileChars ∧ remainingChars < (Text.trim content).length

/-- The content goes on like a mark, to the limit of a file and beyond it. -/
def GoesOnAsMarker (content : List Char) (remainingChars : Nat) : Prop :=
  maxInstructionFileChars < (Text.trim content).length ∧
    (Text.trim content).take maxInstructionFileChars = (Text.trim content).take remainingChars ++
      truncationMarker.take (maxInstructionFileChars - remainingChars)

/-- What a body has of its content, where a mark at its end is one. -/
def keptChars (body : List Char) : Nat :=
  if truncationMarker.isSuffixOf body then body.length - truncationMarker.length else body.length

/-- No cut goes through a mark, unless it cannot be told from the content and there is room
for it. -/
def WithinBudget : (kept remainingChars : Nat) → List ContextFile → Prop
  | _, _, [] => True
  | kept, remainingChars, file :: rest =>
      remainingChars = 0 ∨
        (CutsMarker file.content remainingChars →
          GoesOnAsMarker file.content remainingChars ∧
            kept + maxInstructionFileChars ≤ maxTotalInstructionChars) ∧
        WithinBudget (kept + keptChars (renderedBody file.content remainingChars))
          (leftOver file.content remainingChars) rest

/-! ## One body -/

theorem truncationMarker_length : truncationMarker.length = 13 := by decide

variable {content : List Char} {remaining : Nat}

/-- A text that is trimmed at its start, with a mark. -/
theorem trim_marked {text : List Char} (starts : Starts text) (some : text ≠ []) :
    Text.trim (text ++ truncationMarker) = text ++ truncationMarker := by
  obtain ⟨first, rest, rfl⟩ := List.exists_cons_of_ne_nil some
  have solid : ¬Text.isWhitespace first := starts first rfl
  have marker : truncationMarker = "\n\n[truncated".toList ++ [']'] := by decide
  rw [List.cons_append, Text.trim_of_solid solid, ← List.cons_append, marker, ← List.append_assoc]
  exact Text.trimEnd_append_solid (by decide) _

theorem trim_trim (content : List Char) : Text.trim (Text.trim content) = Text.trim content := by
  rw [trim_of_starts (starts_trim content)]
  exact Text.trimEnd_trimEnd _

theorem renderedBody_whole (fits : (Text.trim content).length ≤ min maxInstructionFileChars remaining) :
    renderedBody content remaining = Text.trim content := by
  rw [renderedBody, truncateInstructionContent, if_pos fits, renderInstructionContent,
    truncateInstructionContent, trim_trim, if_pos (by omega)]

/-- What the second cut makes of a content that was cut. -/
theorem renderedBody_cut (positive : 0 < remaining)
    (long : ¬(Text.trim content).length ≤ min maxInstructionFileChars remaining) :
    renderedBody content remaining =
      let cut := (Text.trim content).take (min maxInstructionFileChars remaining) ++ truncationMarker
      if cut.length ≤ maxInstructionFileChars then cut
      else cut.take maxInstructionFileChars ++ truncationMarker := by
  have starts : Starts ((Text.trim content).take (min maxInstructionFileChars remaining)) :=
    (starts_trim content).of_isPrefix (List.take_prefix _ _)
  have some : (Text.trim content).take (min maxInstructionFileChars remaining) ≠ [] := by
    intro empty
    have none := congrArg List.length empty
    rw [List.length_take, List.length_nil] at none
    unfold maxInstructionFileChars at none long
    omega
  rw [renderedBody, truncateInstructionContent, if_neg long, renderInstructionContent,
    truncateInstructionContent, trim_marked starts some, Nat.min_self]

/-- **What a body is**: the content, or a cut of it and a mark; and where the second cut goes
through the mark of the first, that too. -/
theorem renderedBody_eq (positive : 0 < remaining) :
    ((Text.trim content).length ≤ min maxInstructionFileChars remaining ∧
      renderedBody content remaining = Text.trim content) ∨
    (min maxInstructionFileChars remaining < (Text.trim content).length ∧
      ¬CutsMarker content remaining ∧ renderedBody content remaining =
        (Text.trim content).take (min maxInstructionFileChars remaining) ++ truncationMarker) ∨
    (CutsMarker content remaining ∧ renderedBody content remaining =
      (Text.trim content).take remaining ++
        truncationMarker.take (maxInstructionFileChars - remaining) ++ truncationMarker) := by
  by_cases fits : (Text.trim content).length ≤ min maxInstructionFileChars remaining
  · exact .inl ⟨fits, renderedBody_whole fits⟩
  have length : ((Text.trim content).take (min maxInstructionFileChars remaining)).length =
      min maxInstructionFileChars remaining := by
    rw [List.length_take]
    omega
  have marker := truncationMarker_length
  right
  rw [renderedBody_cut positive fits]
  dsimp only
  rw [List.length_append, length]
  by_cases cuts : CutsMarker content remaining
  · right
    obtain ⟨past, under, long⟩ := cuts
    have limit : min maxInstructionFileChars remaining = remaining := by omega
    rw [limit] at length ⊢
    refine ⟨⟨past, under, long⟩, ?_⟩
    rw [if_neg (by omega), List.take_append, length, List.take_of_length_le (by omega)]
  · left
    refine ⟨by omega, cuts, ?_⟩
    split
    · rfl
    · rename_i past
      have whole : min maxInstructionFileChars remaining = maxInstructionFileChars := by
        unfold CutsMarker at cuts
        omega
      rw [whole] at length ⊢
      rw [List.take_append, length, Nat.sub_self, List.take_zero, List.append_nil,
        List.take_of_length_le (by omega)]

/-! ## What a body has of its content -/

theorem keptChars_marked (text : List Char) : keptChars (text ++ truncationMarker) = text.length := by
  have ends : truncationMarker.isSuffixOf (text ++ truncationMarker) = true :=
    List.isSuffixOf_iff_suffix.2 (List.suffix_append text truncationMarker)
  rw [keptChars, if_pos ends, List.length_append, Nat.add_sub_cancel]

theorem keptChars_le {trimmed body part : List Char} (isBody : BodyOf trimmed body part) :
    keptChars body ≤ part.length := by
  cases isBody with
  | whole =>
      unfold keptChars
      split
      · omega
      · exact le_rfl
  | cut => exact (keptChars_marked part).le

/-- A body that is the content can be read with a mark at its end. -/
theorem bodyOf_whole {trimmed : List Char} (short : trimmed.length ≤ maxInstructionFileChars) :
    ∃ part, BodyOf trimmed trimmed part ∧ part.length = keptChars trimmed := by
  by_cases ends : truncationMarker.isSuffixOf trimmed = true
  · obtain ⟨text, rfl⟩ := List.isSuffixOf_iff_suffix.1 ends
    refine ⟨text, .cut (List.prefix_append _ _) ?_ ?_, (keptChars_marked text).symm⟩
    · intro same
      have lengths := congrArg List.length same
      rw [List.length_append, truncationMarker_length] at lengths
      omega
    · rw [List.length_append] at short
      omega
  · exact ⟨trimmed, .whole, by rw [keptChars, if_neg ends]⟩

theorem bodyOf_cut {trimmed : List Char} {limit : Nat} (short : limit ≤ maxInstructionFileChars)
    (long : limit < trimmed.length) : BodyOf trimmed (trimmed.take limit ++ truncationMarker)
      (trimmed.take limit) := by
  have length : (trimmed.take limit).length = limit := by
    rw [List.length_take]
    omega
  refine .cut (List.take_prefix limit trimmed) (fun same => ?_) (by omega)
  rw [same] at length
  omega

/-- **A body whose mark was cut through** is one only where the content goes on like a mark. -/
theorem bodyOf_cutsMarker_iff (cuts : CutsMarker content remaining) :
    (∃ part, BodyOf (Text.trim content) ((Text.trim content).take remaining ++
        truncationMarker.take (maxInstructionFileChars - remaining) ++ truncationMarker) part) ↔
      GoesOnAsMarker content remaining := by
  obtain ⟨past, under, long⟩ := cuts
  have marker := truncationMarker_length
  have length : ((Text.trim content).take remaining ++
      truncationMarker.take (maxInstructionFileChars - remaining)).length = maxInstructionFileChars := by
    rw [List.length_append, List.length_take, List.length_take]
    omega
  constructor
  · rintro ⟨part, isBody⟩
    generalize isText : Text.trim content = trimmed at isBody length
    generalize isBodyText : trimmed.take remaining ++
      truncationMarker.take (maxInstructionFileChars - remaining) = first at isBody length
    unfold GoesOnAsMarker
    rw [isText, isBodyText]
    generalize whole : first ++ truncationMarker = body at isBody
    cases isBody with
    | whole =>
        rw [← whole, List.length_append, List.take_append, length, Nat.sub_self, List.take_zero,
          List.append_nil, List.take_of_length_le length.le]
        exact ⟨by omega, rfl⟩
    | cut begins proper short =>
        obtain rfl := List.append_cancel_right whole
        refine ⟨?_, ?_⟩
        · obtain ⟨more, rfl⟩ := begins
          rw [List.length_append, length]
          have some : more ≠ [] := by
            rintro rfl
            exact proper (List.append_nil _).symm
          have positive := List.length_pos_iff.2 some
          omega
        · rw [← length]
          exact (List.prefix_iff_eq_take.1 begins).symm
  · rintro ⟨longer, goesOn⟩
    rw [← goesOn]
    exact ⟨_, bodyOf_cut le_rfl longer⟩

/-! ## The budget -/

section Budget

variable {display : Path → String} {files : List ContextFile}

/-- One turn of the loop, where no mark is cut through. -/
theorem body_kept {kept : Nat} (positive : 0 < remaining) (whole : ¬CutsMarker content remaining)
    (room : kept + remaining ≤ maxTotalInstructionChars) :
    (∃ part, BodyOf (Text.trim content) (renderedBody content remaining) part ∧
      part.length = keptChars (renderedBody content remaining)) ∧
    kept + keptChars (renderedBody content remaining) + leftOver content remaining ≤
      maxTotalInstructionChars := by
  obtain ⟨fits, isBody⟩ | ⟨long, -, isBody⟩ | ⟨cuts, -⟩ := @renderedBody_eq content remaining positive
  · obtain ⟨part, reads, length⟩ := bodyOf_whole (le_trans fits (min_le_left _ _))
    have bound := keptChars_le reads
    unfold leftOver
    rw [isBody]
    refine ⟨⟨part, reads, length⟩, ?_⟩
    have less : keptChars (Text.trim content) ≤ (Text.trim content).length := by
      unfold keptChars
      split
      · omega
      · exact le_rfl
    omega
  · unfold leftOver
    rw [isBody, keptChars_marked, List.length_append]
    have length : ((Text.trim content).take (min maxInstructionFileChars remaining)).length =
        min maxInstructionFileChars remaining := by
      rw [List.length_take]
      omega
    exact ⟨⟨_, bodyOf_cut (min_le_left _ _) long, rfl⟩, by omega⟩
  · exact absurd cuts whole

/-- The body of a content that goes on like a mark, which takes all that is left. -/
theorem body_goesOn (positive : 0 < remaining) (cuts : CutsMarker content remaining)
    (goesOn : GoesOnAsMarker content remaining) :
    (∃ part, BodyOf (Text.trim content) (renderedBody content remaining) part ∧
      part.length = keptChars (renderedBody content remaining)) ∧
    keptChars (renderedBody content remaining) = maxInstructionFileChars ∧
      leftOver content remaining = 0 := by
  obtain ⟨past, under, long⟩ := id cuts
  obtain ⟨longer, same⟩ := goesOn
  have isBody : renderedBody content remaining =
      (Text.trim content).take maxInstructionFileChars ++ truncationMarker := by
    obtain ⟨fits, -⟩ | ⟨-, whole, -⟩ | ⟨-, isBody⟩ := @renderedBody_eq content remaining positive
    · omega
    · exact absurd cuts whole
    · rw [isBody, same]
  have length : ((Text.trim content).take maxInstructionFileChars).length = maxInstructionFileChars := by
    rw [List.length_take]
    omega
  unfold leftOver
  rw [isBody, keptChars_marked, List.length_append, length]
  exact ⟨⟨_, bodyOf_cut le_rfl longer, length⟩, rfl, by omega⟩

theorem Renders.file_parts {heading : ContextFile → List Char} {file : ContextFile}
    {rest : List ContextFile} {title body : List Char} {sections parts : List (List Char)}
    (renders : Renders heading (file :: rest) (title :: body :: sections) parts) :
    ∃ part others, parts = part :: others ∧ BodyOf (Text.trim file.content) body part ∧
      Renders heading rest sections others := by
  cases renders with
  | file isBody others => exact ⟨_, _, rfl, isBody, others⟩

theorem budget_iff {kept : Nat} {rest : List ContextFile}
    (room : kept + remaining ≤ maxTotalInstructionChars) :
    (∃ parts, Renders (instructionHeading display files) rest
        (instructionSections display files remaining rest) parts ∧
      kept + (parts.map List.length).sum ≤ maxTotalInstructionChars) ↔
      WithinBudget kept remaining rest := by
  induction rest generalizing kept remaining with
  | nil => exact ⟨fun _ => trivial, fun _ => ⟨[], .done, by simpa using by omega⟩⟩
  | cons file rest ih =>
      rw [instructionSections, WithinBudget]
      by_cases spent : remaining = 0
      · rw [if_pos spent]
        exact ⟨fun _ => .inl spent, fun _ => ⟨[], .omitted, by simpa using by omega⟩⟩
      rw [if_neg spent, or_iff_right spent]
      have positive : 0 < remaining := Nat.pos_of_ne_zero spent
      by_cases cuts : CutsMarker file.content remaining
      · by_cases goesOn : GoesOnAsMarker file.content remaining
        · obtain ⟨⟨part, reads, length⟩, own, none⟩ := body_goesOn positive cuts goesOn
          constructor
          · rintro ⟨parts, renders, total⟩
            obtain ⟨part, parts, rfl, isBody, others⟩ := renders.file_parts
            have least := keptChars_le isBody
            rw [List.map_cons, List.sum_cons] at total
            have fits : kept + maxInstructionFileChars ≤ maxTotalInstructionChars := by omega
            exact ⟨fun _ => ⟨goesOn, fits⟩, (ih (by omega)).1 ⟨parts, others, by omega⟩⟩
          · rintro ⟨safe, later⟩
            obtain ⟨-, fits⟩ := safe cuts
            obtain ⟨parts, others, total⟩ := (ih (by omega)).2 later
            refine ⟨part :: parts, .file reads others, ?_⟩
            rw [List.map_cons, List.sum_cons]
            omega
        · constructor
          · rintro ⟨parts, renders, total⟩
            obtain ⟨part, parts, rfl, isBody, -⟩ := renders.file_parts
            exfalso
            obtain ⟨fits, -⟩ | ⟨-, whole, -⟩ | ⟨-, same⟩ :=
              @renderedBody_eq file.content remaining positive
            · obtain ⟨past, under, long⟩ := cuts
              omega
            · exact whole cuts
            · rw [same] at isBody
              exact goesOn ((bodyOf_cutsMarker_iff cuts).1 ⟨_, isBody⟩)
          · rintro ⟨safe, -⟩
            exact absurd (safe cuts).1 goesOn
      · obtain ⟨⟨part, reads, length⟩, left⟩ := body_kept positive cuts room
        constructor
        · rintro ⟨parts, renders, total⟩
          obtain ⟨part, parts, rfl, isBody, others⟩ := renders.file_parts
          have least := keptChars_le isBody
          rw [List.map_cons, List.sum_cons] at total
          exact ⟨fun here => absurd here cuts, (ih left).1 ⟨parts, others, by omega⟩⟩
        · rintro ⟨-, later⟩
          obtain ⟨parts, others, total⟩ := (ih left).2 later
          refine ⟨part :: parts, .file reads others, ?_⟩
          rw [List.map_cons, List.sum_cons]
          omega

end Budget

/-- **The budget is kept just when no cut goes through a mark**, unless the content goes on
like the mark and there is room for a whole file. -/
theorem budget_kept_iff (display : Path → String) (files : List ContextFile) :
    BudgetKept display files ↔ WithinBudget 0 maxTotalInstructionChars files := by
  rw [← budget_iff (by omega)]
  simp only [Nat.zero_add]
  rfl

/-! ## Four files -/

def plainFile (chars : Nat) : ContextFile := ⟨Path.ofText "/work/AGENTS.md", List.replicate chars 'a'⟩

theorem trim_plain (chars : Nat) : Text.trim (List.replicate chars 'a') = List.replicate chars 'a' := by
  cases chars with
  | zero => rfl
  | succ chars =>
      rw [List.replicate_succ, Text.trim_of_solid (by decide), ← List.replicate_succ, List.replicate_succ']
      exact Text.trimEnd_append_solid (by decide) _

/-- A file that fits takes its length. -/
theorem leftOver_plain {chars : Nat} (short : chars ≤ maxInstructionFileChars) (room : chars ≤ remaining) :
    leftOver (plainFile chars).content remaining = remaining - chars := by
  have whole : renderedBody (plainFile chars).content remaining = List.replicate chars 'a' := by
    rw [renderedBody_whole]
    · exact trim_plain chars
    · rw [plainFile, trim_plain, List.length_replicate]
      omega
  rw [leftOver, whole, List.length_replicate]
  omega

theorem plain_cutsMarker : CutsMarker (plainFile 4000).content 3995 := by
  rw [CutsMarker, plainFile, trim_plain, List.length_replicate, truncationMarker_length]
  decide

/-- **A mark that is cut through**: where 3995 characters are left, a file of 4000 is rendered
with five characters of one mark before another. -/
theorem budget_not_kept :
    renderedBody (plainFile 4000).content 3995 =
      List.replicate 3995 'a' ++ "\n\n[tr".toList ++ truncationMarker ∧
    ¬BudgetKept (fun _ => "/work") [plainFile 4000, plainFile 4000, plainFile 5, plainFile 4000] := by
  constructor
  · obtain ⟨fits, -⟩ | ⟨-, whole, -⟩ | ⟨-, isBody⟩ :=
      @renderedBody_eq (plainFile 4000).content 3995 (by decide)
    · rw [plainFile, trim_plain, List.length_replicate] at fits
      exact absurd fits (by decide)
    · exact absurd plain_cutsMarker whole
    · rw [isBody, plainFile, trim_plain, List.take_replicate]
      rfl
  · rintro ⟨parts, renders, total⟩
    have within : WithinBudget 0 maxTotalInstructionChars
        [plainFile 4000, plainFile 4000, plainFile 5, plainFile 4000] := by
      apply (budget_iff (by omega)).1
      exact ⟨parts, renders, by omega⟩
    unfold maxTotalInstructionChars at within
    simp only [WithinBudget] at within
    rw [leftOver_plain (by decide) (by decide), leftOver_plain (by decide) (by decide),
      leftOver_plain (by decide) (by decide)] at within
    obtain within | ⟨-, within | ⟨-, within | ⟨-, within | ⟨safe, -⟩⟩⟩⟩ := within
    · exact absurd within (by decide)
    · exact absurd within (by decide)
    · exact absurd within (by decide)
    · exact absurd within (by decide)
    · obtain ⟨longer, -⟩ := (safe plain_cutsMarker).1
      rw [plainFile, trim_plain, List.length_replicate] at longer
      exact absurd longer (by decide)

end Openyak.Runtime
