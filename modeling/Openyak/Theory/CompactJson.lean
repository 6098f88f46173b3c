/-
# Theory.CompactJson -- the compact text of a JSON value

The text without blanks in which only quotes, backslashes and control characters below
U+0020 are escaped.  So no control character stands in it, and what is not ASCII stands
inside a string (`compact_tidy`).

How a number is written is a parameter, as far as its characters go.
-/
import Openyak.Theory.Json
import Openyak.Theory.JsonWritten

namespace Openyak.Theory

set_option autoImplicit false

/-! ## Where a text is -/

/-- The place behind a character. -/
def Place.advance : Place → Char → Place
  | .outside, c => if c = '"' then .inside else .outside
  | .inside, c => if c = '"' then .outside else if c = '\\' then .escaped else .inside
  | .escaped, _ => .inside

/-- The place behind a text. -/
def Place.after (place : Place) (text : List Char) : Place := text.foldl Place.advance place

@[simp] theorem Place.after_nil (place : Place) : place.after [] = place := rfl

@[simp] theorem Place.after_cons (place : Place) (c : Char) (text : List Char) :
    place.after (c :: text) = (place.advance c).after text := rfl

@[simp] theorem Place.after_append (place : Place) (text more : List Char) :
    place.after (text ++ more) = (place.after text).after more := List.foldl_append ..

/-- No control character, and nothing but ASCII outside of strings. -/
def Tidy : Place → List Char → Prop
  | _, [] => True
  | place, c :: text =>
      0x20 ≤ c.toNat ∧ (0x80 ≤ c.toNat → place = .inside) ∧ Tidy (place.advance c) text

theorem tidy_append {place : Place} {text more : List Char} :
    Tidy place (text ++ more) ↔ Tidy place text ∧ Tidy (place.after text) more := by
  induction text generalizing place with
  | nil => simp [Tidy]
  | cons c text ih => simp [Tidy, ih, and_assoc]

theorem Tidy.inside {place : Place} {before behind : List Char} {c : Char}
    (tidy : Tidy place (before ++ c :: behind)) (wide : 0x80 ≤ c.toNat) :
    place.after before = .inside := (tidy_append.1 tidy).2.2.1 wide

theorem Tidy.printable {place : Place} {text : List Char} (tidy : Tidy place text) :
    ∀ c ∈ text, 0x20 ≤ c.toNat := by
  intro c member
  obtain ⟨before, behind, rfl⟩ := List.append_of_mem member
  exact (tidy_append.1 tidy).2.1

/-! ## The text -/

def isNumberChar (c : Char) : Bool :=
  c.isDigit || c = '-' || c = '+' || c = '.' || c = 'e' || c = 'E'

structure NumberWriter where
  text : Number → List Char
  plain : ∀ number, ∀ c ∈ text number, isNumberChar c = true

def lowerHex (digit : Nat) : Char := "0123456789abcdef".toList.getD digit '0'

def escapeControl (c : Char) : List Char :=
  if c = '\x08' then ['\\', 'b']
  else if c = '\t' then ['\\', 't']
  else if c = '\n' then ['\\', 'n']
  else if c = '\x0c' then ['\\', 'f']
  else if c = '\r' then ['\\', 'r']
  else ['\\', 'u', '0', '0', lowerHex (c.toNat / 16), lowerHex (c.toNat % 16)]

def escapeChar (c : Char) : List Char :=
  if c = '"' then ['\\', '"']
  else if c = '\\' then ['\\', '\\']
  else if c.toNat < 0x20 then escapeControl c
  else [c]

def quoted (value : String) : List Char := '"' :: (value.toList.flatMap escapeChar ++ ['"'])

section Compact

variable (numbers : NumberWriter)

mutual

/-- `serde_json::to_string`. -/
def Json.compact : Json → List Char
  | .null => "null".toList
  | .bool true => "true".toList
  | .bool false => "false".toList
  | .number number => numbers.text number
  | .string value => quoted value
  | .array items => '[' :: (compactItems items ++ [']'])
  | .object fields => '\x7b' :: (compactFields fields ++ ['\x7d'])

def compactItems : List Json → List Char
  | [] => []
  | item :: items => item.compact ++ compactMoreItems items

def compactMoreItems : List Json → List Char
  | [] => []
  | item :: items => ',' :: (item.compact ++ compactMoreItems items)

def compactFields : List (String × Json) → List Char
  | [] => []
  | (key, value) :: fields => quoted key ++ ':' :: (value.compact ++ compactMoreFields fields)

def compactMoreFields : List (String × Json) → List Char
  | [] => []
  | (key, value) :: fields =>
      ',' :: (quoted key ++ ':' :: (value.compact ++ compactMoreFields fields))

end

/-! ## It is tidy -/

/-- A tidy text that begins and ends outside of strings. -/
def Closed (text : List Char) : Prop :=
  Tidy .outside text ∧ Place.outside.after text = .outside

theorem Closed.append {text more : List Char} (left : Closed text) (right : Closed more) :
    Closed (text ++ more) := by
  constructor
  · rw [tidy_append, left.2]
    exact ⟨left.1, right.1⟩
  · rw [Place.after_append, left.2]
    exact right.2

/-- An ASCII character that is no quote, and the text behind it. -/
theorem Closed.cons {c : Char} {text : List Char} (printable : 0x20 ≤ c.toNat)
    (ascii : c.toNat < 0x80) (other : c ≠ '"') (behind : Closed text) : Closed (c :: text) := by
  have outside : Place.outside.advance c = .outside := if_neg other
  constructor
  · refine ⟨printable, fun wide => ?_, ?_⟩
    · omega
    · rw [outside]
      exact behind.1
  · rw [Place.after_cons, outside]
    exact behind.2

theorem closed_nil : Closed [] := ⟨trivial, rfl⟩

theorem closed_plain {text : List Char}
    (plain : ∀ c ∈ text, 0x20 ≤ c.toNat ∧ c.toNat < 0x80 ∧ c ≠ '"') : Closed text := by
  induction text with
  | nil => exact closed_nil
  | cons c text ih =>
      obtain ⟨printable, ascii, other⟩ := plain c List.mem_cons_self
      exact .cons printable ascii other
        (ih fun other member => plain other (List.mem_cons_of_mem c member))

theorem closed_number {text : List Char} (number : ∀ c ∈ text, isNumberChar c = true) :
    Closed text := by
  apply closed_plain
  intro c member
  have here := number c member
  unfold isNumberChar at here
  by_cases digit : c.isDigit = true
  · have range : 48 ≤ c.val ∧ c.val ≤ 57 := by simpa [Char.isDigit] using digit
    have low : 48 ≤ c.toNat := UInt32.le_iff_toNat_le.1 range.1
    have high : c.toNat ≤ 57 := UInt32.le_iff_toNat_le.1 range.2
    refine ⟨by omega, by omega, ?_⟩
    rintro rfl
    exact absurd low (by decide)
  · simp only [digit, Bool.false_or, Bool.or_eq_true, decide_eq_true_eq] at here
    obtain (((rfl | rfl) | rfl) | rfl) | rfl := here <;> decide

theorem lowerHex_plain {digit : Nat} (small : digit < 16) :
    0x20 ≤ (lowerHex digit).toNat ∧ (lowerHex digit).toNat < 0x80 ∧ lowerHex digit ≠ '"' ∧
      lowerHex digit ≠ '\\' := by
  have each : ∀ digit < 16, 0x20 ≤ (lowerHex digit).toNat ∧ (lowerHex digit).toNat < 0x80 ∧
      lowerHex digit ≠ '"' ∧ lowerHex digit ≠ '\\' := by decide
  exact each digit small

/-- An escaped character stays inside of the string. -/
theorem escapeChar_inside (c : Char) :
    Tidy .inside (escapeChar c) ∧ Place.inside.after (escapeChar c) = .inside := by
  unfold escapeChar
  split
  · exact ⟨by simp [Tidy], rfl⟩
  · rename_i notQuote
    split
    · exact ⟨by simp [Tidy], rfl⟩
    · rename_i notEscape
      split
      · rename_i control
        unfold escapeControl
        split
        · exact ⟨by simp [Tidy, Place.advance], rfl⟩
        split
        · exact ⟨by simp [Tidy, Place.advance], rfl⟩
        split
        · exact ⟨by simp [Tidy, Place.advance], rfl⟩
        split
        · exact ⟨by simp [Tidy, Place.advance], rfl⟩
        split
        · exact ⟨by simp [Tidy, Place.advance], rfl⟩
        · have high := lowerHex_plain (show c.toNat / 16 < 16 by omega)
          have low := lowerHex_plain (show c.toNat % 16 < 16 by omega)
          simp [Tidy, Place.advance, high, low]
      · rename_i printable
        constructor
        · exact ⟨Nat.le_of_not_lt printable, fun _ => rfl, trivial⟩
        · simp [Place.advance, notQuote, notEscape]

theorem closed_quoted (value : String) : Closed (quoted value) := by
  have inside : ∀ text : List Char, Tidy .inside (text.flatMap escapeChar) ∧
      Place.inside.after (text.flatMap escapeChar) = .inside := by
    intro text
    induction text with
    | nil => exact ⟨trivial, rfl⟩
    | cons c text ih =>
        obtain ⟨tidy, after⟩ := escapeChar_inside c
        rw [List.flatMap_cons]
        constructor
        · rw [tidy_append, after]
          exact ⟨tidy, ih.1⟩
        · rw [Place.after_append, after]
          exact ih.2
  obtain ⟨tidy, after⟩ := inside value.toList
  have opens : Place.outside.advance '"' = .inside := rfl
  constructor
  · refine ⟨by decide, by decide, ?_⟩
    rw [opens, tidy_append, after]
    exact ⟨tidy, by decide, by decide, trivial⟩
  · rw [quoted, Place.after_cons, opens, Place.after_append, after]
    rfl

mutual

theorem Json.compact_closed : (value : Json) → Closed (value.compact numbers)
  | .null => closed_plain (show ∀ c ∈ "null".toList, _ by simp)
  | .bool true => closed_plain (show ∀ c ∈ "true".toList, _ by simp)
  | .bool false => closed_plain (show ∀ c ∈ "false".toList, _ by simp)
  | .number number => closed_number (numbers.plain number)
  | .string value => closed_quoted value
  | .array items =>
      .cons (by decide) (by decide) (by decide)
        ((compactItems_closed items).append (.cons (by decide) (by decide) (by decide) closed_nil))
  | .object fields =>
      .cons (by decide) (by decide) (by decide)
        ((compactFields_closed fields).append
          (.cons (by decide) (by decide) (by decide) closed_nil))

theorem compactItems_closed : (items : List Json) → Closed (compactItems numbers items)
  | [] => closed_nil
  | item :: items => item.compact_closed.append (compactMoreItems_closed items)

theorem compactMoreItems_closed : (items : List Json) → Closed (compactMoreItems numbers items)
  | [] => closed_nil
  | item :: items =>
      .cons (by decide) (by decide) (by decide)
        (item.compact_closed.append (compactMoreItems_closed items))

theorem compactFields_closed : (fields : List (String × Json)) →
    Closed (compactFields numbers fields)
  | [] => closed_nil
  | (key, value) :: fields =>
      (closed_quoted key).append (.cons (by decide) (by decide) (by decide)
        (value.compact_closed.append (compactMoreFields_closed fields)))

theorem compactMoreFields_closed : (fields : List (String × Json)) →
    Closed (compactMoreFields numbers fields)
  | [] => closed_nil
  | (key, value) :: fields =>
      .cons (by decide) (by decide) (by decide)
        ((closed_quoted key).append (.cons (by decide) (by decide) (by decide)
          (value.compact_closed.append (compactMoreFields_closed fields))))

end

/-- **A compact text is tidy.** -/
theorem Json.compact_tidy (value : Json) : Tidy .outside (value.compact numbers) :=
  (value.compact_closed numbers).1

end Compact

end Openyak.Theory
