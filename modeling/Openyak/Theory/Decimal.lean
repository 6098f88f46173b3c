/-
# Theory.Decimal -- decimal numerals of a `u64`, read and printed

`str::parse::<u64>` reads an optional `+` and at least one ASCII digit, and fails
when the number does not fit; `format!` prints without sign or leading zeros.
What is printed is read back.
-/
import Mathlib.Algebra.Group.Nat.Defs

namespace Openyak.Theory.Decimal

set_option autoImplicit false

/-- The digits of a numeral after its sign. -/
def digits : List Char → List Char
  | '+' :: rest => rest
  | text => text

/-- `str::parse::<u64>`. -/
def parseU64 (text : List Char) : Option UInt64 :=
  let numeral := digits text
  if numeral ≠ [] ∧ numeral.all Char.isDigit then
    let value := Nat.ofDigitChars 10 numeral 0
    if value < 2 ^ 64 then some (UInt64.ofNat value) else none
  else none

/-- A `u64` as `format!` prints it. -/
def format (value : UInt64) : String := toString value.toNat

theorem toList_format (value : UInt64) : (format value).toList = Nat.toDigits 10 value.toNat :=
  Nat.toList_repr

theorem digits_toDigits (value : Nat) : digits (Nat.toDigits 10 value) = Nat.toDigits 10 value := by
  unfold digits
  split
  · rename_i rest numeral
    have plus : '+' ∈ Nat.toDigits 10 value := by rw [numeral]; exact List.mem_cons_self
    exact absurd (Nat.isDigit_of_mem_toDigits (by decide) (by decide) plus) (by decide)
  · rfl

theorem parseU64_toDigits {value : Nat} (fits : value < 2 ^ 64) :
    parseU64 (Nat.toDigits 10 value) = some (UInt64.ofNat value) := by
  have nonempty : Nat.toDigits 10 value ≠ [] := Nat.toDigits_ne_nil
  have ascii : (Nat.toDigits 10 value).all Char.isDigit := by
    rw [List.all_eq_true]
    exact fun c member => Nat.isDigit_of_mem_toDigits (by decide) (by decide) member
  rw [parseU64, digits_toDigits]
  simp only [ne_eq, nonempty, not_false_eq_true, ascii, and_self, if_true,
    Nat.ofDigitChars_ten_toDigits, fits]

/-- **What is printed is read back.** -/
theorem parseU64_format (value : UInt64) : parseU64 (format value).toList = some value := by
  rw [toList_format, parseU64_toDigits value.toNat_lt, UInt64.ofNat_toNat]

/-- An integer as `format!` prints it. -/
theorem toList_toString (value : Int) : (toString value).toList =
    if value < 0 then '-' :: Nat.toDigits 10 value.natAbs else Nat.toDigits 10 value.natAbs := by
  cases value with
  | ofNat n =>
      show (Nat.repr n).toList = _
      simp [Nat.toList_repr]
  | negSucc n =>
      show ("-" ++ Nat.repr (n + 1)).toList = _
      simp [Nat.toList_repr, Int.negSucc_lt_zero]

theorem digitChar_ne_zero : ∀ n < 10, 0 < n → Nat.digitChar n ≠ '0' := by decide

/-- A number above zero is printed without leading zeros. -/
theorem head_toDigits {value : Nat} (positive : 0 < value) :
    (Nat.toDigits 10 value).head? ≠ some '0' := by
  induction value using Nat.strongRecOn with
  | ind value ih =>
      by_cases small : value < 10
      · rw [Nat.toDigits_of_lt_base small]
        intro isZero
        exact digitChar_ne_zero value small positive (Option.some.inj isZero)
      · have shorter : 0 < value / 10 := Nat.div_pos (by omega) (by decide)
        have nonempty : Nat.toDigits 10 (value / 10) ≠ [] := Nat.toDigits_ne_nil
        have front := ih (value / 10) (by omega) shorter
        rw [Nat.toDigits_of_base_le (by decide) (by omega)]
        cases digits : Nat.toDigits 10 (value / 10) with
        | nil => exact absurd digits nonempty
        | cons digit rest =>
            rw [digits] at front
            exact front

end Openyak.Theory.Decimal
