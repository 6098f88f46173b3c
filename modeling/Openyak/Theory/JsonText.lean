/-
# Theory.JsonText -- how JSON values are written

The grammar of RFC 8259 as its concrete syntax: a `JsonText` is a value with every blank,
escape and digit it is written with, `chars` is the text, `value` what it denotes.
Numerals are integers.

The syntax is wider than the RFC's in three places: a comma may trail, a numeral may have
leading zeros, a string may hold raw control characters.  `strict` tells the texts that
make use of none; the RFC's texts are the strict ones.  An escape `\u` denotes a UTF-16
unit, and two of them in a row can be one character; what a surrogate alone denotes the
RFC leaves open (here U+FFFD).  `unpaired` tells the texts without any surrogate.
-/
import Openyak.Theory.JsonTree
import Openyak.Theory.Scanning
import Mathlib.Data.List.Basic

namespace Openyak.Theory

set_option autoImplicit false

/-! ## Blanks, strings, numerals -/

inductive Blank where
  | space
  | newline
  | carriageReturn
  | tab
  deriving DecidableEq

def Blank.char : Blank → Char
  | .space => ' '
  | .newline => '\n'
  | .carriageReturn => '\r'
  | .tab => '\t'

def isJsonBlank (c : Char) : Bool := c = ' ' || c = '\n' || c = '\r' || c = '\t'

def blankChars (blanks : List Blank) : List Char := blanks.map Blank.char

inductive NamedEscape where
  | quote
  | backslash
  | slash
  | backspace
  | formFeed
  | newline
  | carriageReturn
  | tab
  deriving DecidableEq

def NamedEscape.letter : NamedEscape → Char
  | .quote => '"'
  | .backslash => '\\'
  | .slash => '/'
  | .backspace => 'b'
  | .formFeed => 'f'
  | .newline => 'n'
  | .carriageReturn => 'r'
  | .tab => 't'

def NamedEscape.char : NamedEscape → Char
  | .quote => '"'
  | .backslash => '\\'
  | .slash => '/'
  | .backspace => '\x08'
  | .formFeed => '\x0C'
  | .newline => '\n'
  | .carriageReturn => '\r'
  | .tab => '\t'

/-- `char::to_digit(16)`. -/
def hexValue (c : Char) : Option Nat :=
  let n := c.toNat
  if 48 ≤ n ∧ n ≤ 57 then some (n - 48)
  else if 97 ≤ n ∧ n ≤ 102 then some (n - 87)
  else if 65 ≤ n ∧ n ≤ 70 then some (n - 55)
  else none

@[ext] structure HexDigit where
  char : Char
  isHex : (hexValue char).isSome

def HexDigit.value (digit : HexDigit) : Nat := (hexValue digit.char).get digit.isHex

def hexUnit (first second third fourth : HexDigit) : Nat :=
  ((first.value * 16 + second.value) * 16 + third.value) * 16 + fourth.value

inductive StringItem where
  | plain (char : Char) (isPlain : char ≠ '"' ∧ char ≠ '\\')
  | named (escape : NamedEscape)
  | unicode (first second third fourth : HexDigit)

namespace StringItem

def chars : StringItem → List Char
  | plain char _ => [char]
  | named escape => ['\\', escape.letter]
  | unicode first second third fourth => ['\\', 'u', first.char, second.char, third.char, fourth.char]

/-- The character of an item on its own. -/
def char : StringItem → Char
  | plain char _ => char
  | named escape => escape.char
  | unicode first second third fourth =>
      let unit := hexUnit first second third fourth
      if unit.isValidChar then Char.ofNat unit else '\uFFFD'

def isSurrogate : StringItem → Bool
  | unicode first second third fourth =>
      let unit := hexUnit first second third fourth
      0xD800 ≤ unit && unit ≤ 0xDFFF
  | _ => false

def isRawControl : StringItem → Bool
  | plain char _ => char.toNat < 0x20
  | _ => false

/-- The character that a high and a low surrogate make. -/
def pair : StringItem → StringItem → Option Char
  | unicode a b c d, unicode e f g h =>
      let high := hexUnit a b c d
      let low := hexUnit e f g h
      if 0xD800 ≤ high ∧ high ≤ 0xDBFF ∧ 0xDC00 ≤ low ∧ low ≤ 0xDFFF then
        some (Char.ofNat (0x10000 + (high - 0xD800) * 0x400 + (low - 0xDC00)))
      else none
  | _, _ => none

def decode : List StringItem → List Char
  | [] => []
  | [item] => [item.char]
  | item :: next :: rest =>
      match pair item next with
      | some c => c :: decode rest
      | none => item.char :: decode (next :: rest)

end StringItem

def stringChars (items : List StringItem) : List Char :=
  '"' :: (items.flatMap StringItem.chars ++ ['"'])

def stringValue (items : List StringItem) : String := String.ofList (StringItem.decode items)

structure Numeral where
  negative : Bool
  digits : List Char
  nonempty : digits ≠ []
  decimal : ∀ c ∈ digits, c.isDigit = true

namespace Numeral

def chars (numeral : Numeral) : List Char :=
  if numeral.negative then '-' :: numeral.digits else numeral.digits

def toInt (numeral : Numeral) : Int :=
  let magnitude : Int := (Nat.ofDigitChars 10 numeral.digits 0 : Nat)
  if numeral.negative then -magnitude else magnitude

def hasLeadingZero (numeral : Numeral) : Bool :=
  numeral.digits.head? = some '0' && 1 < numeral.digits.length

end Numeral

/-! ## Values -/

mutual

inductive JsonText where
  | null
  | bool (value : Bool)
  | number (numeral : Numeral)
  | string (items : List StringItem)
  | array (elements : ElementsText)
  | object (members : MembersText)

/-- What is behind a `[` or a comma: nothing but the closing bracket, the last element, or
an element and a comma. -/
inductive ElementsText where
  | close (before : List Blank)
  | last (before : List Blank) (value : JsonText) (after : List Blank)
  | more (before : List Blank) (value : JsonText) (after : List Blank) (rest : ElementsText)

inductive MembersText where
  | close (before : List Blank)
  | last (before : List Blank) (key : List StringItem) (beforeColon afterColon : List Blank)
      (value : JsonText) (after : List Blank)
  | more (before : List Blank) (key : List StringItem) (beforeColon afterColon : List Blank)
      (value : JsonText) (after : List Blank) (rest : MembersText)

end

mutual

def JsonText.chars : JsonText → List Char
  | .null => ['n', 'u', 'l', 'l']
  | .bool true => ['t', 'r', 'u', 'e']
  | .bool false => ['f', 'a', 'l', 's', 'e']
  | .number numeral => numeral.chars
  | .string items => stringChars items
  | .array elements => '[' :: elements.chars
  | .object members => '{' :: members.chars

def ElementsText.chars : ElementsText → List Char
  | .close before => blankChars before ++ [']']
  | .last before value after => blankChars before ++ (value.chars ++ (blankChars after ++ [']']))
  | .more before value after rest =>
      blankChars before ++ (value.chars ++ (blankChars after ++ ',' :: rest.chars))

def MembersText.chars : MembersText → List Char
  | .close before => blankChars before ++ ['}']
  | .last before key beforeColon afterColon value after =>
      blankChars before ++ (stringChars key ++ (blankChars beforeColon ++
        ':' :: (blankChars afterColon ++ (value.chars ++ (blankChars after ++ ['}'])))))
  | .more before key beforeColon afterColon value after rest =>
      blankChars before ++ (stringChars key ++ (blankChars beforeColon ++
        ':' :: (blankChars afterColon ++ (value.chars ++ (blankChars after ++
          ',' :: rest.chars)))))

end

section Denotation

variable {ν : Type} (ofInt : Int → ν)

mutual

def JsonText.value : JsonText → JsonTree ν
  | .null => .null
  | .bool value => .bool value
  | .number numeral => .number (ofInt numeral.toInt)
  | .string items => .string (stringValue items)
  | .array elements => .array elements.values
  | .object members => .object (JsonEntries.ofMembers members.members)

def ElementsText.values : ElementsText → List (JsonTree ν)
  | .close _ => []
  | .last _ value _ => [value.value]
  | .more _ value _ rest => value.value :: rest.values

def MembersText.members : MembersText → List (String × JsonTree ν)
  | .close _ => []
  | .last _ key _ _ value _ => [(stringValue key, value.value)]
  | .more _ key _ _ value _ rest => (stringValue key, value.value) :: rest.members

end

end Denotation

/-! ## Checks -/

/-- What a text may use. -/
structure TextCheck where
  numeral : Numeral → Bool := fun _ => true
  item : StringItem → Bool := fun _ => true
  trailingComma : Bool := true

def ElementsText.isClose : ElementsText → Bool
  | .close _ => true
  | _ => false

def MembersText.isClose : MembersText → Bool
  | .close _ => true
  | _ => false

section Checks

variable (check : TextCheck)

mutual

def JsonText.passes : JsonText → Bool
  | .null => true
  | .bool _ => true
  | .number numeral => check.numeral numeral
  | .string items => items.all check.item
  | .array elements => elements.passes
  | .object members => members.passes

def ElementsText.passes : ElementsText → Bool
  | .close _ => true
  | .last _ value _ => value.passes
  | .more _ value _ rest =>
      value.passes && (check.trailingComma || !rest.isClose) && rest.passes

def MembersText.passes : MembersText → Bool
  | .close _ => true
  | .last _ key _ _ value _ => key.all check.item && value.passes
  | .more _ key _ _ value _ rest =>
      key.all check.item && value.passes && (check.trailingComma || !rest.isClose) && rest.passes

end

end Checks

def strict : TextCheck where
  numeral numeral := !numeral.hasLeadingZero
  item item := !item.isRawControl
  trailingComma := false

def unpaired : TextCheck where
  item item := !item.isSurrogate

def bounded (fits : Int → Bool) : TextCheck where
  numeral numeral := fits numeral.toInt

/-- A whole text. -/
structure JsonDocument where
  before : List Blank
  root : JsonText
  after : List Blank

def JsonDocument.chars (document : JsonDocument) : List Char :=
  blankChars document.before ++ (document.root.chars ++ blankChars document.after)

def JsonDocument.passes (check : TextCheck) (document : JsonDocument) : Bool :=
  document.root.passes check

def JsonDocument.value {ν : Type} (ofInt : Int → ν) (document : JsonDocument) : JsonTree ν :=
  document.root.value ofInt

/-! ## Small facts -/

theorem isBlank_blankChars (blanks : List Blank) :
    ∀ c ∈ blankChars blanks, isJsonBlank c = true := by
  intro c member
  obtain ⟨blank, -, rfl⟩ := List.mem_map.1 member
  cases blank <;> rfl

theorem exists_blanks (chars : List Char) (blank : ∀ c ∈ chars, isJsonBlank c = true) :
    ∃ blanks, blankChars blanks = chars := by
  induction chars with
  | nil => exact ⟨[], rfl⟩
  | cons c rest ih =>
      obtain ⟨blanks, others⟩ := ih fun c member => blank c (List.mem_cons_of_mem _ member)
      obtain ⟨first, isFirst⟩ : ∃ first : Blank, first.char = c := by
        have isBlank_c := blank c List.mem_cons_self
        simp only [isJsonBlank, Bool.or_eq_true, decide_eq_true_eq] at isBlank_c
        rcases isBlank_c with ((rfl | rfl) | rfl) | rfl
        · exact ⟨.space, rfl⟩
        · exact ⟨.newline, rfl⟩
        · exact ⟨.carriageReturn, rfl⟩
        · exact ⟨.tab, rfl⟩
      exact ⟨first :: blanks, by rw [← others, ← isFirst]; rfl⟩

theorem blankChars_injective {blanks others : List Blank}
    (same : blankChars blanks = blankChars others) : blanks = others := by
  have injective : Function.Injective Blank.char := by
    intro blank other same
    cases blank <;> cases other <;> first | rfl | cases same
  exact List.map_injective_iff.2 injective same

theorem hexValue_lt {c : Char} {value : Nat} (isValue : hexValue c = some value) :
    value < 16 := by
  simp only [hexValue] at isValue
  split at isValue
  · cases isValue
    omega
  · split at isValue
    · cases isValue
      omega
    · split at isValue
      · cases isValue
        omega
      · cases isValue

theorem HexDigit.hexValue_eq (digit : HexDigit) : hexValue digit.char = some digit.value :=
  (Option.some_get digit.isHex).symm

theorem HexDigit.value_lt (digit : HexDigit) : digit.value < 16 := hexValue_lt digit.hexValue_eq

theorem hexUnit_lt (first second third fourth : HexDigit) :
    hexUnit first second third fourth < 0x10000 := by
  have bound₁ := first.value_lt
  have bound₂ := second.value_lt
  have bound₃ := third.value_lt
  have bound₄ := fourth.value_lt
  unfold hexUnit
  omega

/-- A unit that is no surrogate is a character. -/
theorem isValidChar_hexUnit {first second third fourth : HexDigit} :
    (hexUnit first second third fourth).isValidChar ↔
      (StringItem.unicode first second third fourth).isSurrogate = false := by
  have bound := hexUnit_lt first second third fourth
  simp only [StringItem.isSurrogate, Nat.isValidChar, Bool.and_eq_false_iff, decide_eq_false_iff_not]
  omega

theorem StringItem.pair_eq_none {item : StringItem} (single : item.isSurrogate = false)
    (next : StringItem) : pair item next = none := by
  cases item with
  | unicode a b c d =>
      cases next with
      | unicode e f g h =>
          simp only [isSurrogate, Bool.and_eq_false_iff, decide_eq_false_iff_not] at single
          rw [pair, if_neg (by omega)]
      | _ => rfl
  | _ => rfl

/-- Without surrogates every item is a character of its own. -/
theorem StringItem.decode_unpaired {items : List StringItem}
    (all : items.all unpaired.item = true) : decode items = items.map char := by
  induction items with
  | nil => rfl
  | cons item rest ih =>
      rw [List.all_cons, Bool.and_eq_true] at all
      have single : item.isSurrogate = false := by simpa [unpaired] using all.1
      cases rest with
      | nil => rfl
      | cons next rest =>
          rw [decode, pair_eq_none single next, ih all.2]
          rfl

/-- A value begins with neither a blank nor a closing bracket. -/
theorem JsonText.exists_first (text : JsonText) : ∃ first behind, text.chars = first :: behind ∧
    isJsonBlank first = false ∧ first ≠ ']' ∧ first ≠ '}' := by
  cases text with
  | null => exact ⟨'n', _, rfl, by decide⟩
  | bool value =>
      cases value
      · exact ⟨'f', _, rfl, by decide⟩
      · exact ⟨'t', _, rfl, by decide⟩
  | number numeral =>
      obtain ⟨negative, digits, nonempty, decimal⟩ := numeral
      cases negative with
      | true => exact ⟨'-', _, rfl, by decide⟩
      | false =>
          cases digits with
          | nil => exact absurd rfl nonempty
          | cons digit digits =>
              have isDigit : digit.isDigit = true := decimal digit List.mem_cons_self
              refine ⟨digit, digits, rfl, ?_, ?_, ?_⟩
              · simp only [isJsonBlank, Bool.or_eq_false_iff, decide_eq_false_iff_not]
                refine ⟨⟨⟨?_, ?_⟩, ?_⟩, ?_⟩ <;> rintro rfl <;> exact absurd isDigit (by decide)
              · rintro rfl
                exact absurd isDigit (by decide)
              · rintro rfl
                exact absurd isDigit (by decide)
  | string items => exact ⟨'"', _, rfl, by decide⟩
  | array elements => exact ⟨'[', _, rfl, by decide⟩
  | object members => exact ⟨'{', _, rfl, by decide⟩

theorem ElementsText.chars_length_pos (elements : ElementsText) : 0 < elements.chars.length := by
  cases elements with
  | close before => simp [ElementsText.chars]
  | _ =>
      simp only [ElementsText.chars, List.length_append, List.length_cons]
      omega

theorem MembersText.chars_length_pos (members : MembersText) : 0 < members.chars.length := by
  cases members with
  | close before => simp [MembersText.chars]
  | _ =>
      simp only [MembersText.chars, List.length_append, List.length_cons]
      omega

end Openyak.Theory
