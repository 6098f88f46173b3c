/-
# Theory.Utf8Text -- texts and the bytes of their encodings

The bytes of a text are read as it, whatever follows (`fromUtf8Lossy_encode_append`).  An
offset in bytes is a place in them (`encode_getElem`), and the bytes of a character that is
not ASCII are none of an ASCII one (`utf8EncodeChar_high`).
-/
import Openyak.Theory.ByteStream
import Openyak.Theory.ByteText
import Openyak.Theory.Utf8Stream

namespace Openyak.Theory

open Text

set_option autoImplicit false

/-- **The bytes of a text are read as the text**, before any other bytes. -/
theorem fromUtf8Lossy_encode_append (text : List Char) (more : List UInt8) :
    fromUtf8Lossy (Utf8Stream.encode text ++ more) = text ++ fromUtf8Lossy more := by
  induction text with
  | nil => rfl
  | cons c text ih =>
      obtain ⟨first, behind, encoded, -, decoded⟩ :=
        Utf8Stream.decode_encoded c (Utf8Stream.encode text ++ more)
      have skips : ∀ (bytes rest : List UInt8),
          fromUtf8LossyAux bytes.length (bytes ++ rest) = fromUtf8LossyAux 0 rest := by
        intro bytes rest
        induction bytes with
        | nil => rfl
        | cons byte bytes ih => exact ih
      show fromUtf8Lossy ((String.utf8EncodeChar c ++ Utf8Stream.encode text) ++ more) = _
      rw [List.append_assoc, encoded, List.cons_append, fromUtf8Lossy, fromUtf8LossyAux, decoded,
        skips behind]
      exact congrArg (c :: ·) ih

theorem fromUtf8Lossy_encode (text : List Char) : fromUtf8Lossy (Utf8Stream.encode text) = text := by
  have whole := fromUtf8Lossy_encode_append text []
  rw [List.append_nil] at whole
  rw [whole]
  exact List.append_nil text

/-- `str::len`. -/
theorem length_encode (text : List Char) :
    (Utf8Stream.encode text).length = ByteText.byteLen text := by
  induction text with
  | nil => rfl
  | cons c text ih =>
      show (String.utf8EncodeChar c ++ Utf8Stream.encode text).length = _
      rw [List.length_append, ih, ByteText.byteLen_cons, String.length_utf8EncodeChar]

@[simp] theorem encode_append (text more : List Char) :
    Utf8Stream.encode (text ++ more) = Utf8Stream.encode text ++ Utf8Stream.encode more :=
  List.flatMap_append

/-- The bytes from a place in a text on. -/
theorem encode_getElem (seen rest : List Char) (offset : Nat) :
    (Utf8Stream.encode (seen ++ rest))[ByteText.byteLen seen + offset]? =
      (Utf8Stream.encode rest)[offset]? := by
  rw [encode_append, List.getElem?_append_right (by rw [length_encode]; omega), length_encode,
    Nat.add_sub_cancel_left]

theorem encode_cons_ascii {c : Char} (low : c.toNat < 128) (rest : List Char) :
    Utf8Stream.encode (c :: rest) = UInt8.ofNat c.toNat :: Utf8Stream.encode rest := by
  show String.utf8EncodeChar c ++ Utf8Stream.encode rest = _
  rw [ByteStream.utf8EncodeChar_ascii low]
  rfl

theorem byteLen_snoc_ascii {c : Char} (low : c.toNat < 128) (seen : List Char) :
    ByteText.byteLen (seen ++ [c]) = ByteText.byteLen seen + 1 := by
  rw [← length_encode, encode_append, encode_cons_ascii low, List.length_append, length_encode]
  rfl

theorem encode_inj {text other : List Char}
    (same : Utf8Stream.encode text = Utf8Stream.encode other) : text = other := by
  rw [← fromUtf8Lossy_encode text, same, fromUtf8Lossy_encode]

/-- What stands behind a text in one is a text. -/
theorem encode_behind {front text : List Char} {bytes : List UInt8}
    (whole : Utf8Stream.encode front ++ bytes = Utf8Stream.encode text) :
    ∃ behind, bytes = Utf8Stream.encode behind ∧ text = front ++ behind := by
  have read := fromUtf8Lossy_encode_append front bytes
  rw [whole, fromUtf8Lossy_encode] at read
  refine ⟨fromUtf8Lossy bytes, ?_, read⟩
  rw [read, encode_append] at whole
  exact List.append_cancel_left whole

/-- The bytes of a character that is not ASCII are not. -/
theorem utf8EncodeChar_high {c : Char} (high : 128 ≤ c.toNat) :
    ∀ byte ∈ String.utf8EncodeChar c, 128 ≤ byte.toNat := by
  have bound : c.toNat < 0x110000 := by
    have valid := c.valid
    simp only [UInt32.isValidChar, Nat.isValidChar] at valid
    show c.val.toNat < _
    omega
  unfold String.utf8EncodeChar
  rw [show c.val.toNat = c.toNat from rfl]
  dsimp only
  rw [if_neg (by omega)]
  intro byte member
  split at member
  · simp only [List.mem_cons, List.not_mem_nil, or_false] at member
    rcases member with rfl | rfl <;> simp only [UInt8.toNat_ofNat'] <;> omega
  · split at member
    · simp only [List.mem_cons, List.not_mem_nil, or_false] at member
      rcases member with rfl | rfl | rfl <;> simp only [UInt8.toNat_ofNat'] <;> omega
    · simp only [List.mem_cons, List.not_mem_nil, or_false] at member
      rcases member with rfl | rfl | rfl | rfl <;> simp only [UInt8.toNat_ofNat'] <;> omega

/-- A byte below 128 is that of a character. -/
theorem mem_encode_ascii {code : Nat} (low : code < 128) {text : List Char}
    (member : UInt8.ofNat code ∈ Utf8Stream.encode text) : Char.ofNat code ∈ text := by
  obtain ⟨c, isThere, isByte⟩ := List.mem_flatMap.1 member
  have value : (UInt8.ofNat code).toNat = code := by
    rw [UInt8.toNat_ofNat']
    omega
  by_cases ascii : c.toNat < 128
  · rw [ByteStream.utf8EncodeChar_ascii ascii, List.mem_singleton] at isByte
    have same := congrArg UInt8.toNat isByte
    rw [value, UInt8.toNat_ofNat', Nat.mod_eq_of_lt (by omega)] at same
    rw [same, Char.ofNat_toNat]
    exact isThere
  · have high := utf8EncodeChar_high (by omega) _ isByte
    omega

/-- And what stands before a last character that is ASCII. -/
theorem encode_before {code : Nat} (low : code < 128) {text : List Char} {bytes : List UInt8}
    (whole : bytes ++ [UInt8.ofNat code] = Utf8Stream.encode text) :
    ∃ before, bytes = Utf8Stream.encode before ∧ text = before ++ [Char.ofNat code] := by
  have some_ : text ≠ [] := by
    rintro rfl
    simp [Utf8Stream.encode] at whole
  obtain ⟨before, last, rfl⟩ : ∃ before last, text = before ++ [last] :=
    ⟨_, _, (List.dropLast_append_getLast some_).symm⟩
  rw [encode_append] at whole
  obtain ⟨first, behind, encoded, -⟩ := Utf8Stream.decode_encoded last []
  have isLast : UInt8.ofNat code ∈ Utf8Stream.encode [last] := by
    have ends := congrArg List.getLast? whole
    have one : Utf8Stream.encode [last] = first :: behind := by
      simp [Utf8Stream.encode, encoded]
    rw [List.getLast?_append_of_ne_nil _ (by simp), one,
      List.getLast?_append_of_ne_nil _ (by simp)] at ends
    rw [one]
    exact List.mem_of_getLast? ends.symm
  have isCode : Char.ofNat code = last := List.mem_singleton.1 (mem_encode_ascii low isLast)
  have all : ∀ code : Fin 128, (Char.ofNat code).toNat = code := by decide
  have bound : (Char.ofNat code).toNat = code := all ⟨code, low⟩
  subst isCode
  refine ⟨before, ?_, rfl⟩
  rw [encode_cons_ascii (by omega), bound] at whole
  exact List.append_cancel_right whole

/-! ## Errors -/

/-- The text of the error about bytes that are not UTF-8, if they are not: the first
sequence that is ill-formed, `skip` bytes belonging to one already read. -/
def utf8ErrorFrom (index : Nat) : (skip : Nat) → List UInt8 → Option String
  | _, [] => none
  | skip + 1, _ :: rest => utf8ErrorFrom (index + 1) skip rest
  | 0, first :: rest =>
      let taken := (decodeFirst first rest).2
      if String.utf8EncodeChar (decodeFirst first rest).1 = first :: rest.take taken then
        utf8ErrorFrom (index + 1) taken rest
      else if Utf8Stream.isStart (first :: rest) then
        some s!"incomplete utf-8 byte sequence from index {index}"
      else some s!"invalid utf-8 sequence of {taken + 1} bytes from index {index}"

/-- `String::from_utf8`, its error as a text. -/
def stringFromUtf8 (bytes : List UInt8) : Except String (List Char) :=
  match utf8ErrorFrom 0 0 bytes with
  | some error => .error error
  | none => .ok (fromUtf8Lossy bytes)

example : (stringFromUtf8 [0x68, 0xE2, 0x82]).toOption = none := by decide

theorem utf8ErrorFrom_encode (text : List Char) (index : Nat) :
    utf8ErrorFrom index 0 (Utf8Stream.encode text) = none := by
  induction text generalizing index with
  | nil => rfl
  | cons c text ih =>
      obtain ⟨first, behind, encoded, -, decoded⟩ :=
        Utf8Stream.decode_encoded c (Utf8Stream.encode text)
      have skips : ∀ (bytes rest : List UInt8) (index : Nat),
          utf8ErrorFrom index bytes.length (bytes ++ rest) =
            utf8ErrorFrom (index + bytes.length) 0 rest := by
        intro bytes rest index
        induction bytes generalizing index with
        | nil => rfl
        | cons byte bytes ih =>
            show utf8ErrorFrom (index + 1) bytes.length (bytes ++ rest) = _
            rw [ih, List.length_cons, Nat.add_assoc, Nat.add_comm 1]
      show utf8ErrorFrom index 0 (String.utf8EncodeChar c ++ Utf8Stream.encode text) = none
      rw [encoded, List.cons_append, utf8ErrorFrom, decoded]
      dsimp only
      rw [List.take_left, if_pos encoded, skips, ih]

theorem stringFromUtf8_encode (text : List Char) :
    stringFromUtf8 (Utf8Stream.encode text) = .ok text := by
  rw [stringFromUtf8, utf8ErrorFrom_encode, fromUtf8Lossy_encode]

end Openyak.Theory
