/-
# Runtime.JsonParser -- what the parser reads

Each function of the parser is followed by two facts: it reads the text of every syntax
of its kind and leaves what is behind it (`_chars`), and what it reads is the text of one
(`_reads`).  Both are about the syntax the program knows: without surrogates among the
escapes, and with numerals that fit an `i64`.
-/
import Openyak.Runtime.Json
import Openyak.Theory.JsonUnique
import Mathlib.Tactic.NormNum

namespace Openyak.Runtime

open Openyak.Theory

set_option autoImplicit false

/-- The integers of an `i64`. -/
def fitsI64 (value : Int) : Bool := -2 ^ 63 ≤ value && value < 2 ^ 63

/-! ## Blanks and marks -/

theorem skipWhitespace_blanks {blanks : List Blank} {rest : List Char}
    (stops : StopsAt isJsonBlank rest) : skipWhitespace (blankChars blanks ++ rest) = rest :=
  dropWhile_run (isBlank_blankChars blanks) stops

theorem skipWhitespace_reads (chars : List Char) :
    ∃ blanks, chars = blankChars blanks ++ skipWhitespace chars := by
  have passes : ∀ c ∈ chars.takeWhile isJsonBlank, isJsonBlank c = true :=
    fun c member => List.mem_takeWhile_imp member
  obtain ⟨blanks, same⟩ := exists_blanks _ passes
  exact ⟨blanks, by rw [same]; exact (List.takeWhile_append_dropWhile).symm⟩

theorem expect_reads {expected : Char} {chars rest : List Char}
    (reads : expect expected chars = .ok rest) : chars = expected :: rest := by
  cases chars with
  | nil => cases reads
  | cons actual chars =>
      simp only [expect] at reads
      split at reads
      · rename_i same
        cases reads
        rw [same]
      · cases reads

theorem expect_chars (expected : Char) (rest : List Char) :
    expect expected (expected :: rest) = .ok rest := by simp [expect]

theorem tryConsume_reads {expected : Char} {chars rest : List Char}
    (reads : tryConsume expected chars = some rest) : chars = expected :: rest := by
  cases chars with
  | nil => cases reads
  | cons actual chars =>
      simp only [tryConsume] at reads
      split at reads
      · rename_i same
        cases reads
        rw [same]
      · cases reads

theorem tryConsume_chars (expected : Char) (rest : List Char) :
    tryConsume expected (expected :: rest) = some rest := by simp [tryConsume]

theorem tryConsume_other {expected actual : Char} (differs : actual ≠ expected)
    (rest : List Char) : tryConsume expected (actual :: rest) = none := by
  simp [tryConsume, differs]

/-! ## Literals -/

theorem parseLiteralChars_reads {expected : String} {literal chars rest : List Char}
    (reads : parseLiteralChars expected literal chars = .ok rest) : chars = literal ++ rest := by
  induction literal generalizing chars with
  | nil =>
      cases reads
      rfl
  | cons c literal ih =>
      cases chars with
      | nil => cases reads
      | cons actual chars =>
          simp only [parseLiteralChars] at reads
          split at reads
          · rename_i same
            rw [same, ih reads]
            rfl
          · cases reads

theorem parseLiteral_reads {expected : String} {value read : JsonValue} {chars rest : List Char}
    (reads : parseLiteral expected value chars = .ok (read, rest)) :
    read = value ∧ chars = expected.toList ++ rest := by
  obtain ⟨behind, literal, last⟩ := bind_eq_ok.1 reads
  cases last
  exact ⟨rfl, parseLiteralChars_reads literal⟩

/-! ## Strings -/

theorem shift_or {value digit : Nat} (small : digit < 16) : value <<< 4 ||| digit =
    value * 16 + digit := by
  rw [← Nat.shiftLeft_add_eq_or_of_lt (by simpa using small), Nat.shiftLeft_eq]

theorem parseHexDigits_cons (count value : Nat) (digit : HexDigit) (rest : List Char) :
    parseHexDigits (count + 1) value (digit.char :: rest) =
      parseHexDigits count (value * 16 + digit.value) rest := by
  rw [parseHexDigits, digit.hexValue_eq]
  simp only [shift_or digit.value_lt]

theorem parseHexDigits_reads {count value read : Nat} {chars rest : List Char}
    (reads : parseHexDigits (count + 1) value chars = .ok (read, rest)) :
    ∃ (digit : HexDigit) (behind : List Char), chars = digit.char :: behind ∧
      parseHexDigits count (value * 16 + digit.value) behind = .ok (read, rest) := by
  cases chars with
  | nil => cases reads
  | cons c chars =>
      cases isDigit : hexValue c with
      | none =>
          rw [parseHexDigits, isDigit] at reads
          cases reads
      | some digit =>
          refine ⟨⟨c, by rw [isDigit]; rfl⟩, chars, rfl, ?_⟩
          exact (parseHexDigits_cons count value ⟨c, _⟩ chars).symm.trans reads

theorem parseHexDigits_four (a b c d : HexDigit) (rest : List Char) :
    parseHexDigits 4 0 (a.char :: b.char :: c.char :: d.char :: rest) = .ok (hexUnit a b c d, rest) := by
  rw [parseHexDigits_cons, parseHexDigits_cons, parseHexDigits_cons, parseHexDigits_cons,
    Nat.zero_mul, Nat.zero_add]
  rfl

theorem parseUnicodeEscape_chars {a b c d : HexDigit}
    (single : (StringItem.unicode a b c d).isSurrogate = false) (rest : List Char) :
    parseUnicodeEscape (a.char :: b.char :: c.char :: d.char :: rest) =
      .ok ((StringItem.unicode a b c d).char, rest) := by
  have valid := isValidChar_hexUnit.2 single
  simp only [parseUnicodeEscape, parseHexDigits_four, ok_bind, StringItem.char, if_pos valid]
  rfl

theorem parseUnicodeEscape_reads {chars rest : List Char} {c : Char}
    (reads : parseUnicodeEscape chars = .ok (c, rest)) :
    ∃ item : StringItem, '\\' :: 'u' :: chars = item.chars ++ rest ∧ item.char = c ∧
      item.isSurrogate = false := by
  obtain ⟨⟨value, behind⟩, digits, last⟩ := bind_eq_ok.1 reads
  obtain ⟨first, _, rfl, three⟩ := parseHexDigits_reads digits
  obtain ⟨second, _, rfl, two⟩ := parseHexDigits_reads three
  obtain ⟨third, _, rfl, one⟩ := parseHexDigits_reads two
  obtain ⟨fourth, _, rfl, none⟩ := parseHexDigits_reads one
  rw [Nat.zero_mul, Nat.zero_add] at none
  cases none
  simp only at last
  split at last
  · rename_i valid
    cases last
    refine ⟨.unicode first second third fourth, rfl, ?_, isValidChar_hexUnit.1 valid⟩
    exact if_pos valid
  · cases last

theorem parseEscape_named (escape : NamedEscape) (rest : List Char) :
    parseEscape (escape.letter :: rest) = .ok (escape.char, rest) := by
  cases escape <;> rfl

theorem parseEscape_reads {chars rest : List Char} {c : Char}
    (reads : parseEscape chars = .ok (c, rest)) :
    ∃ item : StringItem, '\\' :: chars = item.chars ++ rest ∧ item.char = c ∧
      item.isSurrogate = false := by
  have named (escape : NamedEscape) (letter : chars = escape.letter :: rest)
      (isChar : c = escape.char) : ∃ item : StringItem, '\\' :: chars = item.chars ++ rest ∧
        item.char = c ∧ item.isSurrogate = false :=
    ⟨.named escape, by rw [letter]; rfl, isChar.symm, rfl⟩
  unfold parseEscape at reads
  split at reads
  · cases reads
  · cases reads
    exact named .quote rfl rfl
  · cases reads
    exact named .backslash rfl rfl
  · cases reads
    exact named .slash rfl rfl
  · cases reads
    exact named .backspace rfl rfl
  · cases reads
    exact named .formFeed rfl rfl
  · cases reads
    exact named .newline rfl rfl
  · cases reads
    exact named .carriageReturn rfl rfl
  · cases reads
    exact named .tab rfl rfl
  · exact parseUnicodeEscape_reads reads
  · cases reads

/-- One item in front. -/
theorem parseStringChars_cons {item : StringItem} (single : item.isSurrogate = false)
    {fuel : Nat} {chars rest value : List Char}
    (later : parseStringChars fuel chars = .ok (value, rest)) :
    parseStringChars (fuel + 1) (item.chars ++ chars) = .ok (item.char :: value, rest) := by
  cases item with
  | plain c isPlain =>
      show parseStringChars (fuel + 1) (c :: chars) = _
      rw [parseStringChars, if_neg isPlain.1, if_neg isPlain.2, later]
      rfl
  | named escape =>
      show parseStringChars (fuel + 1) ('\\' :: escape.letter :: chars) = _
      rw [parseStringChars, if_neg (by decide), if_pos rfl, parseEscape_named]
      simp only [ok_bind, later]
      rfl
  | unicode a b c d =>
      show parseStringChars (fuel + 1) ('\\' :: 'u' :: a.char :: b.char :: c.char :: d.char :: chars) = _
      rw [parseStringChars, if_neg (by decide), if_pos rfl, parseEscape,
        parseUnicodeEscape_chars single]
      simp only [ok_bind, later]
      rfl

theorem parseStringChars_chars {items : List StringItem}
    (all : items.all unpaired.item = true) {fuel : Nat} (enough : items.length < fuel)
    (rest : List Char) :
    parseStringChars fuel (items.flatMap StringItem.chars ++ '"' :: rest) =
      .ok (items.map StringItem.char, rest) := by
  induction items generalizing fuel with
  | nil =>
      obtain ⟨fuel, rfl⟩ : ∃ less, fuel = less + 1 := ⟨fuel - 1, by omega⟩
      rw [List.flatMap_nil, List.nil_append, parseStringChars, if_pos rfl]
      rfl
  | cons item items ih =>
      rw [List.all_cons, Bool.and_eq_true] at all
      rw [List.length_cons] at enough
      obtain ⟨fuel, rfl⟩ : ∃ less, fuel = less + 1 := ⟨fuel - 1, by omega⟩
      have single : item.isSurrogate = false := by simpa [unpaired] using all.1
      rw [List.flatMap_cons, List.append_assoc]
      exact parseStringChars_cons single (ih all.2 (by omega))

theorem parseStringChars_reads {fuel : Nat} {chars rest value : List Char}
    (reads : parseStringChars fuel chars = .ok (value, rest)) :
    ∃ items : List StringItem, chars = items.flatMap StringItem.chars ++ '"' :: rest ∧
      items.map StringItem.char = value ∧ items.all unpaired.item = true := by
  induction fuel generalizing chars value with
  | zero => cases reads
  | succ fuel ih =>
      cases chars with
      | nil => cases reads
      | cons c chars =>
          rw [parseStringChars] at reads
          split at reads
          · rename_i isQuote
            cases reads
            exact ⟨[], by rw [isQuote]; rfl, rfl, rfl⟩
          · split at reads
            · rename_i isEscape
              obtain ⟨⟨escaped, behind⟩, escape, more⟩ := bind_eq_ok.1 reads
              obtain ⟨⟨others, final⟩, later, last⟩ := bind_eq_ok.1 more
              cases last
              obtain ⟨item, itemChars, isChar, single⟩ := parseEscape_reads escape
              obtain ⟨items, itemsChars, isValue, all⟩ := ih later
              refine ⟨item :: items, ?_, ?_, ?_⟩
              · rw [isEscape, itemChars, itemsChars, List.flatMap_cons, List.append_assoc]
              · rw [List.map_cons, isChar, isValue]
              · rw [List.all_cons, all]
                simp [unpaired, single]
            · rename_i noQuote noEscape
              obtain ⟨⟨others, final⟩, later, last⟩ := bind_eq_ok.1 reads
              cases last
              obtain ⟨items, itemsChars, isValue, all⟩ := ih later
              refine ⟨.plain c ⟨noQuote, noEscape⟩ :: items, ?_, ?_, ?_⟩
              · rw [itemsChars]
                rfl
              · rw [List.map_cons, isValue]
                rfl
              · rw [List.all_cons, all]
                rfl

theorem length_le_flatMap (items : List StringItem) :
    items.length ≤ (items.flatMap StringItem.chars).length := by
  induction items with
  | nil => exact Nat.le_refl _
  | cons item items ih =>
      have positive : 0 < item.chars.length := by cases item <;> simp [StringItem.chars]
      rw [List.flatMap_cons, List.length_append, List.length_cons]
      omega

theorem parseString_chars {items : List StringItem} (all : items.all unpaired.item = true)
    (rest : List Char) : parseString (stringChars items ++ rest) = .ok (stringValue items, rest) := by
  have inside : '"' :: (items.flatMap StringItem.chars ++ ['"']) ++ rest =
      '"' :: (items.flatMap StringItem.chars ++ '"' :: rest) := by simp
  have enough : items.length < (items.flatMap StringItem.chars ++ '"' :: rest).length := by
    have atMost := length_le_flatMap items
    rw [List.length_append, List.length_cons]
    omega
  rw [parseString, stringChars, inside, expect_chars]
  simp only [ok_bind, parseStringChars_chars all enough]
  rw [stringValue, StringItem.decode_unpaired all]
  rfl

theorem parseString_reads {chars rest : List Char} {value : String}
    (reads : parseString chars = .ok (value, rest)) :
    ∃ items : List StringItem, chars = stringChars items ++ rest ∧ stringValue items = value ∧
      items.all unpaired.item = true := by
  obtain ⟨inside, quote, more⟩ := bind_eq_ok.1 reads
  obtain ⟨⟨decoded, behind⟩, read, last⟩ := bind_eq_ok.1 more
  cases last
  obtain ⟨items, isInside, isValue, all⟩ := parseStringChars_reads read
  refine ⟨items, ?_, ?_, all⟩
  · rw [expect_reads quote, isInside, stringChars]
    simp
  · rw [stringValue, StringItem.decode_unpaired all, isValue]

/-! ## Numbers -/

theorem parseI64_numeral (numeral : Numeral) : parseI64 numeral.negative numeral.digits =
    if fitsI64 numeral.toInt then some (Int64.ofInt numeral.toInt) else none := by
  have isIff : fitsI64 numeral.toInt = true ↔
      -2 ^ 63 ≤ numeral.toInt ∧ numeral.toInt < 2 ^ 63 := by simp [fitsI64]
  by_cases fits : -2 ^ 63 ≤ numeral.toInt ∧ numeral.toInt < 2 ^ 63
  · rw [if_pos (isIff.2 fits)]
    exact if_pos fits
  · rw [if_neg (mt isIff.1 fits)]
    exact if_neg fits

theorem takeSign_chars (numeral : Numeral) (rest : List Char) :
    takeSign (numeral.chars ++ rest) = (numeral.negative, numeral.digits ++ rest) := by
  obtain ⟨negative, digits, nonempty, decimal⟩ := numeral
  cases negative with
  | true => rfl
  | false =>
      cases digits with
      | nil => exact absurd rfl nonempty
      | cons digit digits =>
          have noSign : digit ≠ '-' := by
            rintro rfl
            exact absurd (decimal '-' List.mem_cons_self) (by decide)
          simp [takeSign, Numeral.chars, tryConsume, noSign]

theorem takeSign_reads (chars : List Char) :
    chars = if (takeSign chars).1 then '-' :: (takeSign chars).2 else (takeSign chars).2 := by
  unfold takeSign
  cases sign : tryConsume '-' chars with
  | some behind => exact tryConsume_reads sign
  | none => rfl

theorem parseNumber_chars {numeral : Numeral} (fits : fitsI64 numeral.toInt = true)
    {rest : List Char} (stops : StopsAt Char.isDigit rest) :
    parseNumber (numeral.chars ++ rest) = .ok (Int64.ofInt numeral.toInt, rest) := by
  have read := parseI64_numeral numeral
  rw [if_pos fits] at read
  rw [parseNumber, takeSign_chars]
  simp only [takeWhile_run numeral.decimal stops, dropWhile_run numeral.decimal stops,
    if_neg numeral.nonempty, read]

theorem parseNumber_reads {chars rest : List Char} {value : Int64}
    (reads : parseNumber chars = .ok (value, rest)) :
    ∃ numeral : Numeral, chars = numeral.chars ++ rest ∧ Int64.ofInt numeral.toInt = value ∧
      fitsI64 numeral.toInt = true := by
  have parts := takeSign_reads chars
  rw [parseNumber] at reads
  generalize takeSign chars = signed at parts reads
  obtain ⟨negative, behind⟩ := signed
  simp only at parts reads
  split at reads
  · cases reads
  · rename_i nonempty
    have decimal : ∀ c ∈ behind.takeWhile Char.isDigit, c.isDigit = true :=
      fun c member => List.mem_takeWhile_imp member
    have read := parseI64_numeral ⟨negative, behind.takeWhile Char.isDigit, nonempty, decimal⟩
    simp only at read
    rw [read] at reads
    split at reads
    · rename_i found isFound
      cases reads
      split at isFound
      · rename_i fits
        refine ⟨⟨negative, behind.takeWhile Char.isDigit, nonempty, decimal⟩, ?_,
          Option.some.inj isFound, fits⟩
        have whole : behind.takeWhile Char.isDigit ++ behind.dropWhile Char.isDigit = behind :=
          List.takeWhile_append_dropWhile
        rw [parts, Numeral.chars]
        cases negative with
        | true => exact congrArg ('-' :: ·) whole.symm
        | false => exact whole.symm
      · cases isFound
    · cases reads

/-! ## Arrays and objects -/

def JsonText.isKnown (text : JsonText) : Bool :=
  text.passes unpaired && text.passes (bounded fitsI64)

def ElementsText.isKnown (elements : ElementsText) : Bool :=
  elements.passes unpaired && elements.passes (bounded fitsI64)

def MembersText.isKnown (members : MembersText) : Bool :=
  members.passes unpaired && members.passes (bounded fitsI64)

/-- Every value that is read is the text of a syntax the program knows. -/
def ReadsValues (parseValue : List Char → Except JsonError (JsonValue × List Char)) : Prop :=
  ∀ {chars rest : List Char} {value : JsonValue}, parseValue chars = .ok (value, rest) →
    ∃ (before : List Blank) (text : JsonText), chars = blankChars before ++ (text.chars ++ rest) ∧
      text.value Int64.ofInt = value ∧ JsonText.isKnown text = true

theorem blankChars_append (blanks others : List Blank) (rest : List Char) :
    blankChars (blanks ++ others) ++ rest = blankChars blanks ++ (blankChars others ++ rest) := by
  rw [blankChars, List.map_append, List.append_assoc]
  rfl

/-- A mark behind blanks. -/
theorem tryConsume_skip_reads {mark : Char} {chars rest : List Char}
    (reads : tryConsume mark (skipWhitespace chars) = some rest) :
    ∃ blanks, chars = blankChars blanks ++ mark :: rest := by
  obtain ⟨blanks, parts⟩ := skipWhitespace_reads chars
  rw [tryConsume_reads reads] at parts
  exact ⟨blanks, parts⟩

theorem expect_skip_reads {mark : Char} {chars rest : List Char}
    (reads : expect mark (skipWhitespace chars) = .ok rest) :
    ∃ blanks, chars = blankChars blanks ++ mark :: rest := by
  obtain ⟨blanks, parts⟩ := skipWhitespace_reads chars
  rw [expect_reads reads] at parts
  exact ⟨blanks, parts⟩

section Loops

variable {parseValue : List Char → Except JsonError (JsonValue × List Char)}

theorem parseElements_reads (readsValues : ReadsValues parseValue) {fuel : Nat}
    {chars rest : List Char} {values : List JsonValue}
    (reads : parseElements parseValue fuel chars = .ok (values, rest)) :
    ∃ elements : ElementsText, chars = elements.chars ++ rest ∧
      elements.values Int64.ofInt = values ∧ ElementsText.isKnown elements = true := by
  induction fuel generalizing chars values with
  | zero => cases reads
  | succ fuel ih =>
      rw [parseElements] at reads
      split at reads
      · rename_i behind isClose
        cases reads
        obtain ⟨blanks, parts⟩ := tryConsume_skip_reads isClose
        exact ⟨.close blanks, by rw [parts, ElementsText.chars, List.append_assoc]; rfl, rfl, rfl⟩
      · obtain ⟨⟨value, behind⟩, isValue, more⟩ := bind_eq_ok.1 reads
        obtain ⟨blanks, skipped⟩ := skipWhitespace_reads chars
        obtain ⟨before, text, parts, rfl, known⟩ := readsValues isValue
        rw [parts, ← blankChars_append] at skipped
        rw [skipped]
        simp only at more
        split at more
        · rename_i final isClose
          cases more
          obtain ⟨after, rfl⟩ := tryConsume_skip_reads isClose
          refine ⟨.last (blanks ++ before) text after, ?_, rfl, known⟩
          simp only [ElementsText.chars, List.append_assoc, List.cons_append, List.nil_append]
        · obtain ⟨separated, isComma, others⟩ := bind_eq_ok.1 more
          obtain ⟨⟨later, final⟩, isLater, last⟩ := bind_eq_ok.1 others
          cases last
          obtain ⟨after, rfl⟩ := expect_skip_reads isComma
          obtain ⟨elements, rfl, rfl, othersKnown⟩ := ih isLater
          refine ⟨.more (blanks ++ before) text after elements, ?_, rfl, ?_⟩
          · simp only [ElementsText.chars, List.append_assoc, List.cons_append]
          · simp only [JsonText.isKnown, ElementsText.isKnown, Bool.and_eq_true] at known othersKnown
            simp only [ElementsText.isKnown, ElementsText.passes, known, othersKnown]
            rfl

theorem parseMembers_reads (readsValues : ReadsValues parseValue) {fuel : Nat}
    {chars rest : List Char} {read : List (String × JsonValue)}
    (reads : parseMembers parseValue fuel chars = .ok (read, rest)) :
    ∃ members : MembersText, chars = members.chars ++ rest ∧
      members.members Int64.ofInt = read ∧ MembersText.isKnown members = true := by
  induction fuel generalizing chars read with
  | zero => cases reads
  | succ fuel ih =>
      rw [parseMembers] at reads
      split at reads
      · rename_i behind isClose
        cases reads
        obtain ⟨blanks, parts⟩ := tryConsume_skip_reads isClose
        exact ⟨.close blanks, by rw [parts, MembersText.chars, List.append_assoc]; rfl, rfl, rfl⟩
      · obtain ⟨⟨key, behindKey⟩, isKey, afterKey⟩ := bind_eq_ok.1 reads
        obtain ⟨behindColon, isColon, afterMark⟩ := bind_eq_ok.1 afterKey
        obtain ⟨⟨value, behind⟩, isValue, more⟩ := bind_eq_ok.1 afterMark
        obtain ⟨blanks, skipped⟩ := skipWhitespace_reads chars
        obtain ⟨items, keyParts, rfl, keyKnown⟩ := parseString_reads isKey
        obtain ⟨beforeColon, rfl⟩ := expect_skip_reads isColon
        obtain ⟨afterColon, text, rfl, rfl, known⟩ := readsValues isValue
        rw [keyParts] at skipped
        rw [skipped]
        have keyFits : items.all (bounded fitsI64).item = true := by simp [bounded]
        simp only [JsonText.isKnown, Bool.and_eq_true] at known
        simp only at more
        split at more
        · rename_i final isClose
          cases more
          obtain ⟨after, rfl⟩ := tryConsume_skip_reads isClose
          refine ⟨.last blanks items beforeColon afterColon text after, ?_, rfl, ?_⟩
          · simp only [MembersText.chars, List.append_assoc, List.cons_append, List.nil_append]
          · simp only [MembersText.isKnown, MembersText.passes, known, keyKnown, keyFits]
            rfl
        · obtain ⟨separated, isComma, others⟩ := bind_eq_ok.1 more
          obtain ⟨⟨later, final⟩, isLater, last⟩ := bind_eq_ok.1 others
          cases last
          obtain ⟨after, rfl⟩ := expect_skip_reads isComma
          obtain ⟨members, rfl, rfl, othersKnown⟩ := ih isLater
          refine ⟨.more blanks items beforeColon afterColon text after members, ?_, rfl, ?_⟩
          · simp only [MembersText.chars, List.append_assoc, List.cons_append]
          · simp only [MembersText.isKnown, Bool.and_eq_true] at othersKnown
            simp only [MembersText.isKnown, MembersText.passes, known, keyKnown, keyFits,
              othersKnown]
            rfl

/-- What `parse_value` reads once the whitespace is skipped. -/
theorem parseSkipped_reads (readsValues : ReadsValues parseValue) {chars rest : List Char}
    {value : JsonValue} (reads : parseSkipped parseValue chars = .ok (value, rest)) :
    ∃ text : JsonText, chars = text.chars ++ rest ∧ text.value Int64.ofInt = value ∧
      JsonText.isKnown text = true := by
  cases chars with
  | nil => cases reads
  | cons c tail =>
      simp only [parseSkipped, List.head?_cons] at reads
      split at reads
      · obtain ⟨rfl, parts⟩ := parseLiteral_reads reads
        exact ⟨.null, parts, rfl, rfl⟩
      split at reads
      · obtain ⟨rfl, parts⟩ := parseLiteral_reads reads
        exact ⟨.bool true, parts, rfl, rfl⟩
      split at reads
      · obtain ⟨rfl, parts⟩ := parseLiteral_reads reads
        exact ⟨.bool false, parts, rfl, rfl⟩
      split at reads
      · obtain ⟨⟨string, behind⟩, isString, last⟩ := bind_eq_ok.1 reads
        cases last
        obtain ⟨items, parts, rfl, known⟩ := parseString_reads isString
        have keyFits : items.all (bounded fitsI64).item = true := by simp [bounded]
        exact ⟨.string items, parts, rfl, by
          simp only [JsonText.isKnown, JsonText.passes, known, keyFits]; rfl⟩
      split at reads
      · obtain ⟨inside, isOpen, more⟩ := bind_eq_ok.1 reads
        obtain ⟨⟨values, behind⟩, isValues, last⟩ := bind_eq_ok.1 more
        cases last
        obtain ⟨elements, rfl, rfl, known⟩ := parseElements_reads readsValues isValues
        exact ⟨.array elements, expect_reads isOpen, rfl, known⟩
      split at reads
      · obtain ⟨inside, isOpen, more⟩ := bind_eq_ok.1 reads
        obtain ⟨⟨read, behind⟩, isRead, last⟩ := bind_eq_ok.1 more
        cases last
        obtain ⟨members, rfl, rfl, known⟩ := parseMembers_reads readsValues isRead
        exact ⟨.object members, expect_reads isOpen, rfl, known⟩
      split at reads
      · obtain ⟨⟨number, behind⟩, isNumber, last⟩ := bind_eq_ok.1 reads
        cases last
        obtain ⟨numeral, parts, rfl, fits⟩ := parseNumber_reads isNumber
        exact ⟨.number numeral, parts, rfl, fits⟩
      · cases reads

end Loops

/-- **What the parser reads is a text it knows.** -/
theorem parseValue_reads (depth : Nat) : ReadsValues (parseValue depth) := by
  induction depth with
  | zero =>
      intro chars rest value reads
      cases reads
  | succ depth ih =>
      intro chars rest value reads
      obtain ⟨blanks, parts⟩ := skipWhitespace_reads chars
      obtain ⟨text, isText, isValue, known⟩ := parseSkipped_reads ih reads
      exact ⟨blanks, text, by rw [← isText]; exact parts, isValue, known⟩

/-! ## Every known text is read -/

theorem parseValue_blanks {depth : Nat} (before : List Blank) {inside : List Char}
    (stops : StopsAt isJsonBlank inside) : parseValue (depth + 1) (blankChars before ++ inside) =
      parseSkipped (parseValue depth) inside := by
  rw [parseValue, skipWhitespace_blanks stops]

theorem parseSkipped_number {numeral : Numeral} (fits : fitsI64 numeral.toInt = true)
    (depth : Nat) {rest : List Char} (stops : StopsAt Char.isDigit rest) :
    parseSkipped (parseValue depth) (numeral.chars ++ rest) =
      .ok (.number (Int64.ofInt numeral.toInt), rest) := by
  obtain ⟨first, tail, parts, begins⟩ : ∃ first tail, numeral.chars = first :: tail ∧
      (first = '-' ∨ first.isDigit = true) := by
    obtain ⟨negative, digits, nonempty, decimal⟩ := numeral
    cases negative with
    | true => exact ⟨'-', digits, rfl, Or.inl rfl⟩
    | false =>
        cases digits with
        | nil => exact absurd rfl nonempty
        | cons digit digits => exact ⟨digit, digits, rfl, Or.inr (decimal digit List.mem_cons_self)⟩
  have other : ∀ c : Char, c ≠ '-' → c.isDigit = false → first ≠ c := by
    rintro c noSign noDigit rfl
    rcases begins with isSign | isDigit
    · exact noSign isSign
    · rw [noDigit] at isDigit
      cases isDigit
  have read := parseNumber_chars fits stops
  rw [parts, List.cons_append] at read ⊢
  simp only [parseSkipped, List.head?_cons, if_neg (other 'n' (by decide) (by decide)),
    if_neg (other 't' (by decide) (by decide)), if_neg (other 'f' (by decide) (by decide)),
    if_neg (other '"' (by decide) (by decide)), if_neg (other '[' (by decide) (by decide)),
    if_neg (other '{' (by decide) (by decide)), if_pos begins, read]
  rfl

theorem tryConsume_value (text : JsonText) {close : Char} (isClose : close = ']' ∨ close = '}')
    {rest : List Char} : tryConsume close (text.chars ++ rest) = none := by
  obtain ⟨first, tail, parts, -, noBracket, noBrace⟩ := text.exists_first
  rw [parts, List.cons_append]
  rcases isClose with rfl | rfl
  · exact tryConsume_other noBracket _
  · exact tryConsume_other noBrace _

theorem tryConsume_string (items : List StringItem) (rest : List Char) :
    tryConsume '}' (stringChars items ++ rest) = none := rfl

mutual

/-- **Every text the program knows is read**, with any depth that is not less than its
length. -/
theorem parseValue_chars (text : JsonText) (known : JsonText.isKnown text = true) (depth : Nat)
    (deep : text.chars.length ≤ depth) {rest : List Char} (stops : StopsAt Char.isDigit rest)
    (before : List Blank) : parseValue depth (blankChars before ++ (text.chars ++ rest)) =
      .ok (text.value Int64.ofInt, rest) := by
  obtain ⟨depth, rfl⟩ : ∃ less, depth = less + 1 := by
    obtain ⟨first, tail, parts, -⟩ := text.exists_first
    rw [parts, List.length_cons] at deep
    exact ⟨depth - 1, by omega⟩
  rw [parseValue_blanks before (text.stopsAt_chars rest)]
  match text with
  | .null => rfl
  | .bool true => rfl
  | .bool false => rfl
  | .number numeral => exact parseSkipped_number known depth stops
  | .string items =>
      simp only [JsonText.isKnown, JsonText.passes, Bool.and_eq_true] at known
      have read := parseString_chars known.1 rest
      show (parseString (stringChars items ++ rest) >>= _) = _
      rw [read]
      rfl
  | .array elements =>
      show (parseElements (parseValue depth) (elements.chars ++ rest).length
        (elements.chars ++ rest) >>= _) = _
      rw [JsonText.chars, List.length_cons] at deep
      rw [parseElements_chars elements known _ _ (by omega) (by rw [List.length_append]; omega)]
      rfl
  | .object members =>
      show (parseMembers (parseValue depth) (members.chars ++ rest).length
        (members.chars ++ rest) >>= _) = _
      rw [JsonText.chars, List.length_cons] at deep
      rw [parseMembers_chars members known _ _ (by omega) (by rw [List.length_append]; omega)]
      rfl

theorem parseElements_chars (elements : ElementsText)
    (known : ElementsText.isKnown elements = true) (depth fuel : Nat)
    (deep : elements.chars.length ≤ depth) (enough : elements.chars.length ≤ fuel)
    (rest : List Char) : parseElements (parseValue depth) fuel (elements.chars ++ rest) =
      .ok (elements.values Int64.ofInt, rest) := by
  have positive := elements.chars_length_pos
  obtain ⟨fuel, rfl⟩ : ∃ less, fuel = less + 1 := ⟨fuel - 1, by omega⟩
  match elements with
  | .close before =>
      simp only [ElementsText.chars, List.append_assoc, List.cons_append, List.nil_append]
      rw [parseElements, skipWhitespace_blanks (by rfl), tryConsume_chars]
      rfl
  | .last before value after =>
      simp only [ElementsText.chars, List.append_assoc, List.cons_append, List.nil_append,
        List.length_append] at deep ⊢
      have stops : StopsAt Char.isDigit (blankChars after ++ ']' :: rest) :=
        stopsAt_blankChars after (by rfl)
      have read := parseValue_chars value known depth (by omega) stops []
      rw [parseElements, skipWhitespace_blanks (value.stopsAt_chars _), tryConsume_value _ (Or.inl rfl)]
      show (parseValue depth (blankChars [] ++ (value.chars ++ (blankChars after ++ ']' :: rest)))
        >>= _) = _
      rw [read]
      simp only [ok_bind]
      rw [skipWhitespace_blanks (by rfl), tryConsume_chars]
      rfl
  | .more before value after elements =>
      simp only [ElementsText.isKnown, ElementsText.passes, Bool.and_eq_true] at known
      obtain ⟨⟨⟨single, -⟩, laterSingle⟩, ⟨⟨fits, -⟩, laterFits⟩⟩ := known
      simp only [ElementsText.chars, List.append_assoc, List.cons_append, List.length_append,
        List.length_cons] at deep enough ⊢
      have stops : StopsAt Char.isDigit (blankChars after ++ ',' :: (elements.chars ++ rest)) :=
        stopsAt_blankChars after (by rfl)
      have read := parseValue_chars value (by simp [JsonText.isKnown, single, fits])
        depth (by omega) stops []
      have later := parseElements_chars elements
        (by simp [ElementsText.isKnown, laterSingle, laterFits]) depth fuel
        (by omega) (by omega) rest
      rw [parseElements, skipWhitespace_blanks (value.stopsAt_chars _), tryConsume_value _ (Or.inl rfl)]
      show (parseValue depth (blankChars [] ++ (value.chars ++ (blankChars after ++
        ',' :: (elements.chars ++ rest)))) >>= _) = _
      rw [read]
      simp only [ok_bind]
      rw [skipWhitespace_blanks (by rfl), tryConsume_other (by decide), expect_chars]
      simp only [ok_bind, later]
      rfl

theorem parseMembers_chars (members : MembersText) (known : MembersText.isKnown members = true)
    (depth fuel : Nat) (deep : members.chars.length ≤ depth)
    (enough : members.chars.length ≤ fuel) (rest : List Char) :
    parseMembers (parseValue depth) fuel (members.chars ++ rest) =
      .ok (members.members Int64.ofInt, rest) := by
  have positive := members.chars_length_pos
  obtain ⟨fuel, rfl⟩ : ∃ less, fuel = less + 1 := ⟨fuel - 1, by omega⟩
  match members with
  | .close before =>
      simp only [MembersText.chars, List.append_assoc, List.cons_append, List.nil_append]
      rw [parseMembers, skipWhitespace_blanks (by rfl), tryConsume_chars]
      rfl
  | .last before key beforeColon afterColon value after =>
      simp only [MembersText.isKnown, MembersText.passes, Bool.and_eq_true] at known
      obtain ⟨⟨keySingle, single⟩, ⟨-, fits⟩⟩ := known
      simp only [MembersText.chars, List.append_assoc, List.cons_append, List.nil_append,
        List.length_append, List.length_cons] at deep ⊢
      have stops : StopsAt Char.isDigit (blankChars after ++ '}' :: rest) :=
        stopsAt_blankChars after (by rfl)
      have read := parseValue_chars value (by simp [JsonText.isKnown, single, fits])
        depth (by omega) stops afterColon
      rw [parseMembers, skipWhitespace_blanks (by rfl), tryConsume_string,
        parseString_chars keySingle]
      simp only [ok_bind]
      rw [skipWhitespace_blanks (by rfl), expect_chars]
      simp only [ok_bind, read]
      rw [skipWhitespace_blanks (by rfl), tryConsume_chars]
      rfl
  | .more before key beforeColon afterColon value after members =>
      simp only [MembersText.isKnown, MembersText.passes, Bool.and_eq_true] at known
      obtain ⟨⟨⟨⟨keySingle, single⟩, -⟩, laterSingle⟩, ⟨⟨⟨-, fits⟩, -⟩, laterFits⟩⟩ := known
      simp only [MembersText.chars, List.append_assoc, List.cons_append, List.length_append,
        List.length_cons] at deep enough ⊢
      have stops : StopsAt Char.isDigit (blankChars after ++ ',' :: (members.chars ++ rest)) :=
        stopsAt_blankChars after (by rfl)
      have read := parseValue_chars value (by simp [JsonText.isKnown, single, fits])
        depth (by omega) stops afterColon
      have later := parseMembers_chars members
        (by simp [MembersText.isKnown, laterSingle, laterFits]) depth fuel
        (by omega) (by omega) rest
      rw [parseMembers, skipWhitespace_blanks (by rfl), tryConsume_string,
        parseString_chars keySingle]
      simp only [ok_bind]
      rw [skipWhitespace_blanks (by rfl), expect_chars]
      simp only [ok_bind, read]
      rw [skipWhitespace_blanks (by rfl), tryConsume_other (by decide), expect_chars]
      simp only [ok_bind, later]
      rfl

end

end Openyak.Runtime
