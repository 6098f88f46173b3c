/-
# Theory.PercentText -- percent-encoded texts and what reads them

A text encodes bytes (`PercentEncoded`) when it has an unreserved byte as its character
and any other as `%` and two hexadecimal digits.  A reader that takes the unreserved
characters as they are and decodes such escapes (`PercentReader`) comes to the end of an
encoded text with just its bytes (`PercentReader.read_encoded`), whatever else it accepts
and whatever stands behind.
-/
import Openyak.Theory.JsonText
import Openyak.Theory.Utf8Text

namespace Openyak.Theory

open Text

set_option autoImplicit false

universe u

/-! ## Encoded texts -/

/-- The characters a URI has for themselves: letters, digits, `-`, `_`, `.` and `~`. -/
def isUnreserved (c : Char) : Bool :=
  c.isAlphanum || c = '-' || c = '_' || c = '.' || c = '~'

/-- The upper-case digit of a value below 16. -/
def hexDigit (value : Nat) : Char :=
  Char.ofNat (if value < 10 then '0'.toNat + value else 'A'.toNat + (value - 10))

/-- `text` has each unreserved byte as it is and every other escaped. -/
inductive PercentEncoded : List UInt8 → List Char → Prop
  | nil : PercentEncoded [] []
  | plain {c : Char} {bytes : List UInt8} {text : List Char} (unreserved : isUnreserved c)
      (rest : PercentEncoded bytes text) :
      PercentEncoded (UInt8.ofNat c.toNat :: bytes) (c :: text)
  | escape {byte : UInt8} {high low : Char} {bytes : List UInt8} {text : List Char}
      (reserved : ¬isUnreserved (Char.ofNat byte.toNat))
      (isHigh : hexValue high = some (byte.toNat / 16))
      (isLow : hexValue low = some (byte.toNat % 16)) (rest : PercentEncoded bytes text) :
      PercentEncoded (byte :: bytes) ('%' :: high :: low :: text)

/-- A byte's character has its code. -/
theorem toNat_charOfByte (byte : UInt8) : (Char.ofNat byte.toNat).toNat = byte.toNat := by
  have below := byte.toNat_lt
  have valid : byte.toNat.isValidChar := .inl (by omega)
  rw [Char.ofNat, dif_pos valid]
  rfl

theorem hexValue_hexDigit {value : Nat} (below : value < 16) :
    hexValue (hexDigit value) = some value := by
  have all : ∀ digit : Fin 16, hexValue (hexDigit digit) = some digit.val := by decide
  exact all ⟨value, below⟩

theorem isUnreserved_lt {c : Char} (unreserved : isUnreserved c) : c.toNat < 128 := by
  delta isUnreserved Char.isAlphanum Char.isAlpha Char.isUpper Char.isLower Char.isDigit at unreserved
  simp only [Bool.or_eq_true, Bool.and_eq_true, decide_eq_true_eq, ge_iff_le, UInt32.le_iff_toNat_le]
    at unreserved
  have value : c.toNat = c.val.toNat := rfl
  rcases unreserved with (((held | rfl) | rfl) | rfl) | rfl
  · change ((_ ≤ _ ∧ c.val.toNat ≤ 90) ∨ (_ ≤ _ ∧ c.val.toNat ≤ 122)) ∨
      (_ ≤ _ ∧ c.val.toNat ≤ 57) at held
    omega
  all_goals decide

theorem isUnreserved_of_hexValue {c : Char} {value : Nat} (digit : hexValue c = some value) :
    isUnreserved c := by
  have alphanumeric : c.isAlphanum = true := by
    delta Char.isAlphanum Char.isAlpha Char.isUpper Char.isLower Char.isDigit
    simp only [Bool.or_eq_true, Bool.and_eq_true, decide_eq_true_eq, ge_iff_le, UInt32.le_iff_toNat_le]
    have code : c.toNat = c.val.toNat := rfl
    simp only [hexValue] at digit
    split at digit
    · rename_i held
      exact .inr held
    · split at digit
      · rename_i held
        exact .inl (.inr ⟨held.1, by show _ ≤ 122; omega⟩)
      · split at digit
        · rename_i held
          exact .inl (.inl ⟨held.1, by show _ ≤ 90; omega⟩)
        · cases digit
  rw [isUnreserved, alphanumeric]
  rfl

namespace PercentEncoded

variable {bytes : List UInt8} {text : List Char}

/-- An encoded text has unreserved characters and `%` only. -/
theorem mem (encoded : PercentEncoded bytes text) {c : Char} (member : c ∈ text) :
    isUnreserved c ∨ c = '%' := by
  induction encoded with
  | nil => cases member
  | plain unreserved rest ih =>
      rcases List.mem_cons.1 member with rfl | further
      · exact .inl unreserved
      · exact ih further
  | escape reserved isHigh isLow rest ih =>
      simp only [List.mem_cons] at member
      rcases member with rfl | rfl | rfl | further
      · exact .inr rfl
      · exact .inl (isUnreserved_of_hexValue isHigh)
      · exact .inl (isUnreserved_of_hexValue isLow)
      · exact ih further

/-- A delimiter does not stand in an encoded text. -/
theorem not_mem {c : Char} (reserved : ¬isUnreserved c) (notEscape : c ≠ '%')
    (encoded : PercentEncoded bytes text) : c ∉ text := by
  intro member
  rcases encoded.mem member with unreserved | isEscape
  · exact reserved unreserved
  · exact notEscape isEscape

end PercentEncoded

/-! ## Readers -/

/-- A reader of a text, at any place of it, with the bytes decoded so far: what it answers,
`seen` behind it and `rest` before it. -/
structure PercentReader (ρ : Type u) where
  read : (seen rest : List Char) → (decoded : List UInt8) → ρ
  plain : ∀ {seen rest : List Char} {decoded : List UInt8} {c : Char}, isUnreserved c →
    read seen (c :: rest) decoded = read (seen ++ [c]) rest (decoded ++ [UInt8.ofNat c.toNat])
  escape : ∀ {seen rest : List Char} {decoded : List UInt8} {high low : Char} {h l : Nat},
    hexValue high = some h → hexValue low = some l →
    read seen ('%' :: high :: low :: rest) decoded =
      read (seen ++ ['%', high, low]) rest (decoded ++ [UInt8.ofNat (16 * h + l)])

/-- **A reader takes the bytes of an encoded text from it.** -/
theorem PercentReader.read_encoded {ρ : Type u} (reader : PercentReader ρ) {bytes : List UInt8}
    {text : List Char} (encoded : PercentEncoded bytes text) (seen rest : List Char)
    (decoded : List UInt8) :
    reader.read seen (text ++ rest) decoded = reader.read (seen ++ text) rest (decoded ++ bytes) := by
  induction encoded generalizing seen decoded with
  | nil => rw [List.append_nil, List.append_nil, List.nil_append]
  | plain unreserved _ ih =>
      rw [List.cons_append, reader.plain unreserved, ih, List.append_assoc, List.append_assoc]
      rfl
  | @escape byte high low bytes text reserved isHigh isLow _ ih =>
      have whole : UInt8.ofNat (16 * (byte.toNat / 16) + byte.toNat % 16) = byte := by
        rw [Nat.div_add_mod]
        exact UInt8.ofNat_toNat
      show reader.read seen ('%' :: high :: low :: (text ++ rest)) decoded = _
      rw [reader.escape isHigh isLow, whole, ih, List.append_assoc, List.append_assoc]
      rfl

end Openyak.Theory
