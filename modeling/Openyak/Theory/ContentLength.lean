/-
# Theory.ContentLength -- messages behind a header that counts their bytes

`Content-Length: <n>`, an empty line, and `n` bytes.  Both ends of a line are CR LF.

* `framed_eq`: a framed message is its length line, the empty line and the bytes.
* `lengthLine_ascii`: the length line is ASCII without a line feed in it, so that it is
  read back as a line (`ByteStream.takeLine_ascii`).
-/
import Openyak.Theory.ByteStream
import Openyak.Theory.Decimal

namespace Openyak.Theory.ByteStream

open Openyak.Theory.Text

set_option autoImplicit false

theorem isDigit_toDigits {value : Nat} {c : Char} (member : c ∈ Nat.toDigits 10 value) :
    c.isDigit = true := Nat.isDigit_of_mem_toDigits (by decide) (by decide) member

/-- A numeral between blanks. -/
theorem trim_numeral {before after : List Char} (value : Nat)
    (white : ∀ c ∈ before ++ after, isWhitespace c = true) :
    trim (before ++ (Nat.toDigits 10 value ++ after)) = Nat.toDigits 10 value := by
  have some_ : Nat.toDigits 10 value ≠ [] := Nat.toDigits_ne_nil
  rw [← List.append_assoc]
  exact trim_padded white (List.head?_eq_some_head some_) (List.getLast?_eq_some_getLast some_)
    ⟨not_isWhitespace_of_isDigit (isDigit_toDigits (List.head_mem some_)),
      not_isWhitespace_of_isDigit (isDigit_toDigits (List.getLast_mem some_))⟩

/-- The characters of `Content-Length:`. -/
def lengthName : List Char :=
  ['C', 'o', 'n', 't', 'e', 'n', 't', '-', 'L', 'e', 'n', 'g', 't', 'h', ':']

theorem toList_lengthName : "Content-Length:".toList = lengthName := by decide +kernel

/-- The length line as far as its line feed. -/
def lengthLine (length : Nat) : List Char :=
  lengthName ++ (' ' :: (Nat.toDigits 10 length ++ ['\r']))

theorem lengthLine_ascii (length : Nat) :
    (∀ c ∈ lengthLine length, c.toNat < 128) ∧ '\n' ∉ lengthLine length := by
  have fixed : ∀ c ∈ lengthName ++ [' ', '\r'], c.toNat < 128 ∧ c ≠ '\n' := by
    simp [lengthName]
  have digit : ∀ c ∈ Nat.toDigits 10 length, c.toNat < 128 ∧ c ≠ '\n' := by
    intro c member
    have isDigit := isDigit_toDigits member
    rw [Char.isDigit_iff_toNat] at isDigit
    have high : '9'.toNat = 57 := rfl
    refine ⟨by omega, ?_⟩
    rintro rfl
    exact absurd isDigit (by decide)
  have all : ∀ c ∈ lengthLine length, c.toNat < 128 ∧ c ≠ '\n' := by
    intro c member
    simp only [lengthLine, List.mem_append, List.mem_cons, List.not_mem_nil, or_false] at member
    rcases member with isName | isSpace | isDigit | isReturn
    · exact fixed c (List.mem_append_left _ isName)
    · exact fixed c (by simp [isSpace])
    · exact digit c isDigit
    · exact fixed c (by simp [isReturn])
  exact ⟨fun c member => (all c member).1, fun member => (all '\n' member).2 rfl⟩

def framed (message : List UInt8) : List UInt8 :=
  ascii ("Content-Length: ".toList ++ (Nat.toDigits 10 message.length ++ ['\r', '\n', '\r', '\n'])) ++
    message

theorem framed_eq (message rest : List UInt8) :
    framed message ++ rest =
      ascii (lengthLine message.length ++ ['\n']) ++
        (ascii (['\r'] ++ ['\n']) ++ (message ++ rest)) := by
  have header : "Content-Length: ".toList = lengthName ++ [' '] := by decide +kernel
  rw [framed, header]
  simp [lengthLine, ascii]

end Openyak.Theory.ByteStream
