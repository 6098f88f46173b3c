/-
# Runtime.JsonGrammar -- the parser's texts and the standard's

`parse` reads exactly the texts of the syntax it knows (`parse_ok_iff`): RFC 8259 with
integers of an `i64`, and with three liberties (a trailing comma, leading zeros, raw
control characters), but without surrogates among the escapes.  A text has one syntax,
so the parser and the standard part on a text exactly when it takes a liberty or has a
surrogate, and not both: with both, each of them refuses it.
-/
import Openyak.Runtime.JsonParser

namespace Openyak.Runtime

open Openyak.Theory

set_option autoImplicit false

theorem skipWhitespace_eq_nil {chars : List Char} :
    skipWhitespace chars = [] ↔ ∃ blanks, chars = blankChars blanks := by
  constructor
  · intro nothing
    obtain ⟨blanks, parts⟩ := skipWhitespace_reads chars
    exact ⟨blanks, by rw [parts, nothing, List.append_nil]⟩
  · rintro ⟨blanks, rfl⟩
    have skipped : skipWhitespace (blankChars blanks ++ []) = [] := skipWhitespace_blanks trivial
    rwa [List.append_nil] at skipped

/-- A document of the syntax the program knows. -/
def JsonDocument.isKnown (document : JsonDocument) : Bool :=
  document.passes unpaired && document.passes (bounded fitsI64)

/-- What the parser reads to the end, whatever depth it is given beyond the length. -/
theorem parseValue_whole {source : List Char} {depth : Nat} (deep : source.length ≤ depth)
    {value : JsonValue} :
    (∃ rest, parseValue depth source = .ok (value, rest) ∧ skipWhitespace rest = []) ↔
      ∃ document : JsonDocument, document.chars = source ∧
        JsonDocument.isKnown document = true ∧ document.value Int64.ofInt = value := by
  constructor
  · rintro ⟨rest, reads, nothing⟩
    obtain ⟨before, text, parts, isValue, known⟩ := parseValue_reads depth reads
    obtain ⟨after, rfl⟩ := skipWhitespace_eq_nil.1 nothing
    exact ⟨⟨before, text, after⟩, parts.symm, known, isValue⟩
  · rintro ⟨⟨before, text, after⟩, rfl, known, rfl⟩
    have stops : StopsAt Char.isDigit (blankChars after) := by
      rw [← List.append_nil (blankChars after)]
      exact stopsAt_blankChars after trivial
    have shorter : text.chars.length ≤ depth := by
      simp only [JsonDocument.chars, List.length_append] at deep
      omega
    exact ⟨blankChars after, parseValue_chars text known depth shorter stops before,
      skipWhitespace_eq_nil.2 ⟨after, rfl⟩⟩

/-- **The parser accepts exactly the syntax it knows**, and returns what it denotes. -/
theorem parse_ok_iff {source : List Char} {value : JsonValue} : parse source = .ok value ↔
    ∃ document : JsonDocument, document.chars = source ∧
      JsonDocument.isKnown document = true ∧ document.value Int64.ofInt = value := by
  rw [← parseValue_whole (Nat.le_refl source.length)]
  constructor
  · intro isOk
    obtain ⟨⟨read, rest⟩, reads, last⟩ := bind_eq_ok.1 isOk
    simp only at last
    split at last
    · rename_i nothing
      cases last
      exact ⟨rest, reads, nothing⟩
    · cases last
  · rintro ⟨rest, reads, nothing⟩
    simp only [parse, reads, ok_bind, if_pos nothing]
    rfl

/-! ## The standard -/

/-- The document is written as `source`, by the standard's grammar, and its numbers are
integers of an `i64`. -/
def IsStandard (document : JsonDocument) (source : List Char) : Prop :=
  document.chars = source ∧ document.passes strict = true ∧
    document.passes (bounded fitsI64) = true

/-- The parser accepts `source` exactly when the standard does, and returns what the
standard says. -/
def MeetsStandard (source : List Char) : Prop :=
  (∀ document, IsStandard document source → parse source = .ok (document.value Int64.ofInt)) ∧
    ∀ value, parse source = .ok value → ∃ document, IsStandard document source

/-- **The parser meets the standard on a text exactly when** the text, if it is one with
integers of an `i64` at all, takes no liberty and has no surrogate escape, or does both. -/
theorem parse_meetsStandard_iff (source : List Char) : MeetsStandard source ↔
    ∀ document : JsonDocument, document.chars = source →
      document.passes (bounded fitsI64) = true →
      document.passes strict = document.passes unpaired := by
  constructor
  · rintro ⟨accepts, only⟩ document rfl fits
    cases isStrict : document.passes strict with
    | true =>
        -- A standard text is read, so its one syntax is known.
        have reads := accepts document ⟨rfl, isStrict, fits⟩
        obtain ⟨other, same, known, -⟩ := parse_ok_iff.1 reads
        rw [JsonDocument.unique same, JsonDocument.isKnown, Bool.and_eq_true] at known
        exact known.1.symm
    | false =>
        cases single : document.passes unpaired with
        | false => rfl
        | true =>
            have known : JsonDocument.isKnown document = true := by
              simp [JsonDocument.isKnown, single, fits]
            obtain ⟨other, same, otherStrict, -⟩ := only _ (parse_ok_iff.2 ⟨document, rfl, known, rfl⟩)
            rw [JsonDocument.unique same, isStrict] at otherStrict
            cases otherStrict
  · intro agree
    constructor
    · rintro document ⟨written, isStrict, fits⟩
      have single := agree document written fits
      rw [isStrict] at single
      exact parse_ok_iff.2 ⟨document, written, by simp [JsonDocument.isKnown, ← single, fits], rfl⟩
    · intro value reads
      obtain ⟨document, written, known, -⟩ := parse_ok_iff.1 reads
      rw [JsonDocument.isKnown, Bool.and_eq_true] at known
      exact ⟨document, written, (agree document written known.2).trans known.1, known.2⟩

/-! ## Where they part -/

/-- A text that is read and has a syntax that takes a liberty. -/
theorem not_meetsStandard_of_liberty {document : JsonDocument}
    (known : JsonDocument.isKnown document = true) (liberty : document.passes strict = false) :
    ¬MeetsStandard document.chars := by
  intro meets
  obtain ⟨other, same, isStrict, -⟩ := meets.2 _ (parse_ok_iff.2 ⟨document, rfl, known, rfl⟩)
  rw [JsonDocument.unique same, liberty] at isStrict
  cases isStrict

/-- A comma behind the last element. -/
def trailingComma : JsonDocument :=
  ⟨[], .array (.more [] (.number ⟨false, ['1'], by decide, by simp⟩) [] (.close [])), []⟩

def leadingZero : JsonDocument := ⟨[], .number ⟨false, ['0', '1'], by decide, by simp⟩, []⟩

def rawControl : JsonDocument := ⟨[], .string [.plain '\n' (by decide)], []⟩

/-- One character in two escapes. -/
def surrogatePair : List Char := "\"\\ud83d\\ude00\"".toList

theorem standard_not_met :
    trailingComma.chars = "[1,]".toList ∧ ¬MeetsStandard "[1,]".toList ∧
      leadingZero.chars = "01".toList ∧ ¬MeetsStandard "01".toList ∧
      rawControl.chars = "\"\n\"".toList ∧ ¬MeetsStandard "\"\n\"".toList ∧
      ¬MeetsStandard surrogatePair := by
  refine ⟨rfl, ?_, rfl, ?_, rfl, ?_, ?_⟩
  · have known : JsonDocument.isKnown trailingComma = true := by decide
    exact not_meetsStandard_of_liberty known (by decide)
  · have known : JsonDocument.isKnown leadingZero = true := by decide
    exact not_meetsStandard_of_liberty known (by decide)
  · have known : JsonDocument.isKnown rawControl = true := by decide
    exact not_meetsStandard_of_liberty known (by decide)
  · intro meets
    have reads := meets.1 ⟨[], .string [
      .unicode ⟨'d', rfl⟩ ⟨'8', rfl⟩ ⟨'3', rfl⟩ ⟨'d', rfl⟩,
      .unicode ⟨'d', rfl⟩ ⟨'e', rfl⟩ ⟨'0', rfl⟩ ⟨'0', rfl⟩], []⟩ ⟨rfl, rfl, rfl⟩
    cases reads

end Openyak.Runtime
