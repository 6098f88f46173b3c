/-
# Theory.Utf8Stream -- decoding UTF-8 that arrives in chunks

A decoder that is given the bytes piece by piece keeps the start of a sequence until the
rest of it comes.  It is a framer whose frames are the sequences: it takes one when the
buffer holds more than a start.  What it has read of an encoded text is its characters,
whatever the cut (`decodeChunks_encoded`).
-/
import Openyak.Theory.Framing
import Openyak.Theory.Text

namespace Openyak.Theory.Utf8Stream

open Openyak.Theory.Text
open Openyak.Theory.Framing

set_option autoImplicit false

/-- A start of a sequence that lacks bytes. -/
def isStart : List UInt8 → Bool
  | [] => true
  | first :: rest =>
      if 0xC2 ≤ first ∧ first ≤ 0xDF then rest = []
      else if 0xE0 ≤ first ∧ first ≤ 0xEF then
        match rest with
        | [] => true
        | [b] => threeByteSecond first b
        | _ => false
      else if 0xF0 ≤ first ∧ first ≤ 0xF4 then
        match rest with
        | [] => true
        | [b] => fourByteSecond first b
        | [b, c] => fourByteSecond first b && isContinuation c
        | _ => false
      else false

/-- The sequence at the start of a buffer. -/
def nextSequence : List UInt8 → Option (List UInt8 × List UInt8)
  | [] => none
  | first :: rest =>
      if isStart (first :: rest) then none
      else
        let length := (decodeFirst first rest).2
        some (first :: rest.take length, rest.drop length)

def sequences : Framer UInt8 where
  next := nextSequence
  append_eq := by
    intro buffer frame rest found
    cases buffer with
    | nil => cases found
    | cons first behind =>
        simp only [nextSequence] at found
        split at found
        · cases found
        · cases found
          simp
  nonempty := by
    intro buffer frame rest found
    cases buffer with
    | nil => cases found
    | cons first behind =>
        simp only [nextSequence] at found
        split at found
        · cases found
        · cases found
          simp

/-- What a buffer that is no start decodes to does not depend on what comes behind it. -/
theorem decodeFirst_append {first : UInt8} {rest : List UInt8} (more : List UInt8)
    (whole : isStart (first :: rest) = false) :
    isStart (first :: (rest ++ more)) = false ∧
      decodeFirst first (rest ++ more) = decodeFirst first rest ∧
      (decodeFirst first rest).2 ≤ rest.length := by
  unfold isStart at whole ⊢
  unfold decodeFirst
  by_cases two : 0xC2 ≤ first ∧ first ≤ 0xDF
  · have high : ¬ first < 0x80 := by
      intro low
      exact absurd (UInt8.lt_of_lt_of_le low (by decide : (0x80 : UInt8) ≤ 0xC2))
        (UInt8.not_lt.2 two.1)
    simp only [two, high, and_self, if_true, if_false] at whole ⊢
    cases rest with
    | nil => cases whole
    | cons b rest => simp only [List.cons_append]; split <;> simp
  by_cases three : 0xE0 ≤ first ∧ first ≤ 0xEF
  · have high : ¬ first < 0x80 := by
      intro low
      exact absurd (UInt8.lt_of_lt_of_le low (by decide : (0x80 : UInt8) ≤ 0xE0))
        (UInt8.not_lt.2 three.1)
    simp only [two, three, high, and_self, if_true, if_false] at whole ⊢
    rcases rest with _ | ⟨b, _ | ⟨c, rest⟩⟩
    · cases whole
    · cases more <;> simp_all
    · simp only [List.cons_append]
      split
      · split <;> simp
      · simp
  by_cases four : 0xF0 ≤ first ∧ first ≤ 0xF4
  · have high : ¬ first < 0x80 := by
      intro low
      exact absurd (UInt8.lt_of_lt_of_le low (by decide : (0x80 : UInt8) ≤ 0xF0))
        (UInt8.not_lt.2 four.1)
    simp only [two, three, four, high, and_self, if_true, if_false] at whole ⊢
    rcases rest with _ | ⟨b, _ | ⟨c, _ | ⟨d, rest⟩⟩⟩
    · cases whole
    · rcases more with _ | ⟨c, _ | ⟨d, more⟩⟩ <;> simp_all
    · cases more <;> simp_all <;> split <;> simp
    · simp only [List.cons_append]
      split
      · split
        · split <;> simp
        · simp
      · simp
  · simp only [two, three, four, if_false]
    split <;> simp

/-! ## Encoded characters -/

section Encoded

variable {first b c d : UInt8} {char : Char} (rest : List UInt8)

theorem isContinuation_iff : isContinuation b = true ↔ 0x80 ≤ b.toNat ∧ b.toNat ≤ 0xBF := by
  simp [isContinuation, UInt8.le_iff_toNat_le]

theorem threeByteSecond_iff : threeByteSecond first b = true ↔
    0x80 ≤ b.toNat ∧ b.toNat ≤ 0xBF ∧ (first.toNat = 0xE0 → 0xA0 ≤ b.toNat) ∧
      (first.toNat = 0xED → b.toNat ≤ 0x9F) := by
  unfold threeByteSecond
  simp only [← UInt8.toNat_inj, UInt8.reduceToNat]
  split
  · simp [UInt8.le_iff_toNat_le]
    omega
  · split
    · simp [UInt8.le_iff_toNat_le]
      omega
    · rw [isContinuation_iff]
      omega

theorem fourByteSecond_iff : fourByteSecond first b = true ↔
    0x80 ≤ b.toNat ∧ b.toNat ≤ 0xBF ∧ (first.toNat = 0xF0 → 0x90 ≤ b.toNat) ∧
      (first.toNat = 0xF4 → b.toNat ≤ 0x8F) := by
  unfold fourByteSecond
  simp only [← UInt8.toNat_inj, UInt8.reduceToNat]
  split
  · simp [UInt8.le_iff_toNat_le]
    omega
  · split
    · simp [UInt8.le_iff_toNat_le]
      omega
    · rw [isContinuation_iff]
      omega

theorem decode_two (firstIs : first.toNat = char.toNat / 64 + 0xC0) (bIs : b.toNat = char.toNat % 64 + 0x80)
    (low : 0x80 ≤ char.toNat) (high : char.toNat ≤ 0x7FF) :
    isStart (first :: b :: rest) = false ∧ decodeFirst first (b :: rest) = (char, 1) := by
  have notAscii : ¬ first < 0x80 := by
    simp only [UInt8.lt_iff_toNat_lt, UInt8.reduceToNat]
    omega
  have two : 0xC2 ≤ first ∧ first ≤ 0xDF := by
    simp only [UInt8.le_iff_toNat_le, UInt8.reduceToNat]
    omega
  have second : isContinuation b = true := isContinuation_iff.2 (by omega)
  have value : first.toNat % 32 * 64 + b.toNat % 64 = char.toNat := by omega
  unfold isStart decodeFirst
  dsimp only
  rw [if_pos two, if_neg notAscii, if_pos two]
  simp [second, value, Char.ofNat_toNat]

theorem decode_three (firstIs : first.toNat = char.toNat / 4096 + 0xE0)
    (bIs : b.toNat = char.toNat / 64 % 64 + 0x80) (cIs : c.toNat = char.toNat % 64 + 0x80) (low : 0x800 ≤ char.toNat)
    (high : char.toNat ≤ 0xFFFF) (scalar : char.toNat < 0xD800 ∨ 0xDFFF < char.toNat) :
    isStart (first :: b :: c :: rest) = false ∧
      decodeFirst first (b :: c :: rest) = (char, 2) := by
  have notAscii : ¬ first < 0x80 := by
    simp only [UInt8.lt_iff_toNat_lt, UInt8.reduceToNat]
    omega
  have notTwo : ¬ (0xC2 ≤ first ∧ first ≤ 0xDF) := by
    simp only [UInt8.le_iff_toNat_le, UInt8.reduceToNat]
    omega
  have three : 0xE0 ≤ first ∧ first ≤ 0xEF := by
    simp only [UInt8.le_iff_toNat_le, UInt8.reduceToNat]
    omega
  have second : threeByteSecond first b = true := threeByteSecond_iff.2 (by omega)
  have third : isContinuation c = true := isContinuation_iff.2 (by omega)
  have value : first.toNat % 16 * 4096 + b.toNat % 64 * 64 + c.toNat % 64 = char.toNat := by omega
  unfold isStart decodeFirst
  dsimp only
  rw [if_neg notTwo, if_pos three, if_neg notAscii, if_neg notTwo, if_pos three]
  simp [second, third, value, Char.ofNat_toNat]

theorem decode_four (firstIs : first.toNat = char.toNat / 262144 + 0xF0)
    (bIs : b.toNat = char.toNat / 4096 % 64 + 0x80) (cIs : c.toNat = char.toNat / 64 % 64 + 0x80)
    (dIs : d.toNat = char.toNat % 64 + 0x80) (low : 0x10000 ≤ char.toNat) (high : char.toNat < 0x110000) :
    isStart (first :: b :: c :: d :: rest) = false ∧
      decodeFirst first (b :: c :: d :: rest) = (char, 3) := by
  have notAscii : ¬ first < 0x80 := by
    simp only [UInt8.lt_iff_toNat_lt, UInt8.reduceToNat]
    omega
  have notTwo : ¬ (0xC2 ≤ first ∧ first ≤ 0xDF) := by
    simp only [UInt8.le_iff_toNat_le, UInt8.reduceToNat]
    omega
  have notThree : ¬ (0xE0 ≤ first ∧ first ≤ 0xEF) := by
    simp only [UInt8.le_iff_toNat_le, UInt8.reduceToNat]
    omega
  have four : 0xF0 ≤ first ∧ first ≤ 0xF4 := by
    simp only [UInt8.le_iff_toNat_le, UInt8.reduceToNat]
    omega
  have second : fourByteSecond first b = true := fourByteSecond_iff.2 (by omega)
  have third : isContinuation c = true := isContinuation_iff.2 (by omega)
  have fourth : isContinuation d = true := isContinuation_iff.2 (by omega)
  have value : first.toNat % 8 * 262144 + b.toNat % 64 * 4096 + c.toNat % 64 * 64 +
      d.toNat % 64 = char.toNat := by omega
  unfold isStart decodeFirst
  dsimp only
  rw [if_neg notTwo, if_neg notThree, if_pos four, if_neg notAscii, if_neg notTwo,
    if_neg notThree, if_pos four]
  simp [second, third, fourth, value, Char.ofNat_toNat]

end Encoded

/-- A buffer that begins with an encoded character gives that character first. -/
theorem decode_encoded (char : Char) (rest : List UInt8) : ∃ first behind,
    String.utf8EncodeChar char = first :: behind ∧ isStart (first :: (behind ++ rest)) = false ∧
      decodeFirst first (behind ++ rest) = (char, behind.length) := by
  have bound : char.toNat < 0x110000 := by
    have valid := char.valid
    simp only [UInt32.isValidChar, Nat.isValidChar] at valid
    show char.val.toNat < _
    omega
  have scalar : char.toNat < 0xD800 ∨ 0xDFFF < char.toNat := by
    have valid := char.valid
    simp only [UInt32.isValidChar, Nat.isValidChar] at valid
    show char.val.toNat < _ ∨ _ < char.val.toNat
    omega
  have same : Char.ofNat char.toNat = char := Char.ofNat_toNat char
  unfold String.utf8EncodeChar
  rw [show char.val.toNat = char.toNat from rfl]
  dsimp only
  split
  · rename_i ascii
    refine ⟨_, [], rfl, ?_⟩
    have low : UInt8.ofNat char.toNat < 0x80 := by
      simp only [UInt8.lt_iff_toNat_lt, UInt8.reduceToNat, UInt8.toNat_ofNat']
      omega
    have notTwo : ¬ (0xC2 ≤ UInt8.ofNat char.toNat ∧ UInt8.ofNat char.toNat ≤ 0xDF) := by
      simp only [UInt8.lt_iff_toNat_lt, UInt8.le_iff_toNat_le, UInt8.reduceToNat] at low ⊢
      omega
    have notThree : ¬ (0xE0 ≤ UInt8.ofNat char.toNat ∧ UInt8.ofNat char.toNat ≤ 0xEF) := by
      simp only [UInt8.lt_iff_toNat_lt, UInt8.le_iff_toNat_le, UInt8.reduceToNat] at low ⊢
      omega
    have notFour : ¬ (0xF0 ≤ UInt8.ofNat char.toNat ∧ UInt8.ofNat char.toNat ≤ 0xF4) := by
      simp only [UInt8.lt_iff_toNat_lt, UInt8.le_iff_toNat_le, UInt8.reduceToNat] at low ⊢
      omega
    have value : (UInt8.ofNat char.toNat).toNat = char.toNat := by
      simp only [UInt8.toNat_ofNat']
      omega
    unfold isStart decodeFirst
    dsimp only
    rw [if_neg notTwo, if_neg notThree, if_neg notFour, if_pos low, value, same]
    simp
  · split
    · refine ⟨_, [_], rfl, ?_⟩
      apply decode_two rest
      · simp only [UInt8.toNat_ofNat']
        omega
      · simp only [UInt8.toNat_ofNat']
        omega
      · omega
      · omega
    · split
      · refine ⟨_, [_, _], rfl, ?_⟩
        apply decode_three rest
        · simp only [UInt8.toNat_ofNat']
          omega
        · simp only [UInt8.toNat_ofNat']
          omega
        · simp only [UInt8.toNat_ofNat']
          omega
        · omega
        · omega
        · exact scalar
      · refine ⟨_, [_, _, _], rfl, ?_⟩
        apply decode_four rest
        · simp only [UInt8.toNat_ofNat']
          omega
        · simp only [UInt8.toNat_ofNat']
          omega
        · simp only [UInt8.toNat_ofNat']
          omega
        · simp only [UInt8.toNat_ofNat']
          omega
        · omega
        · exact bound

/-! ## Decoding a stream -/

theorem sequences_stable : sequences.Stable := by
  intro buffer frame rest more found
  cases buffer with
  | nil => cases found
  | cons first behind =>
      have found : nextSequence (first :: behind) = some (frame, rest) := found
      show nextSequence (first :: (behind ++ more)) = some (frame, rest ++ more)
      simp only [nextSequence] at found ⊢
      split at found
      · cases found
      · rename_i whole
        obtain ⟨stays, same, within⟩ :=
          decodeFirst_append more (Bool.eq_false_iff.2 whole)
        cases found
        rw [stays, same, if_neg Bool.false_ne_true, List.take_append_of_le_length within,
          List.drop_append_of_le_length within]

/-- The character of a sequence. -/
def character : List UInt8 → Char
  | [] => replacement
  | first :: rest => (decodeFirst first rest).1

/-- The text of a chunk, and the start that waits for more; `pending` waited before. -/
def decodeChunk (pending chunk : List UInt8) : List Char × List UInt8 :=
  let taken := sequences.frames (pending ++ chunk)
  (taken.1.map character, taken.2)

/-- The texts of the chunks. -/
def decodeChunks : (pending : List UInt8) → List (List UInt8) → List (List Char)
  | _, [] => []
  | pending, chunk :: chunks =>
      (decodeChunk pending chunk).1 :: decodeChunks (decodeChunk pending chunk).2 chunks

/-- What waits at the end. -/
def leftOver : (pending : List UInt8) → List (List UInt8) → List UInt8
  | pending, [] => pending
  | pending, chunk :: chunks => leftOver (decodeChunk pending chunk).2 chunks

def encode (text : List Char) : List UInt8 := text.flatMap String.utf8EncodeChar

theorem frames_encoded (text : List Char) :
    sequences.frames (encode text) = (text.map String.utf8EncodeChar, []) := by
  induction text with
  | nil => exact sequences.frames_of_none rfl
  | cons char text ih =>
      obtain ⟨first, behind, encoded, whole, decoded⟩ := decode_encoded char (encode text)
      have next : sequences.next (encode (char :: text)) =
          some (String.utf8EncodeChar char, encode text) := by
        show nextSequence (String.utf8EncodeChar char ++ encode text) = _
        rw [encoded, List.cons_append]
        simp [nextSequence, whole, decoded]
      rw [sequences.frames_of_some next, ih]
      rfl

theorem character_encoded (char : Char) : character (String.utf8EncodeChar char) = char := by
  obtain ⟨first, behind, encoded, -, decoded⟩ := decode_encoded char []
  rw [List.append_nil] at decoded
  rw [encoded]
  show (decodeFirst first behind).1 = char
  rw [decoded]

/-- **An encoded text comes out whole**, however it was cut, and nothing waits. -/
theorem decodeChunks_encoded {chunks : List (List UInt8)} {text : List Char}
    (cut : chunks.flatten = encode text) :
    (decodeChunks [] chunks).flatten = text ∧ leftOver [] chunks = [] := by
  have collected : ∀ pending, (decodeChunks pending chunks).flatten =
      (sequences.collect pending chunks).1.map character ∧
      leftOver pending chunks = (sequences.collect pending chunks).2 := by
    clear cut
    induction chunks with
    | nil => exact fun pending => ⟨rfl, rfl⟩
    | cons chunk chunks ih =>
        intro pending
        obtain ⟨texts, left⟩ := ih (decodeChunk pending chunk).2
        constructor
        · rw [decodeChunks, List.flatten_cons, texts, Framer.collect, List.map_append]
          rfl
        · rw [leftOver, left]
          rfl
  have frames : sequences.collect [] chunks = (text.map String.utf8EncodeChar, []) := by
    rw [Framer.collect_eq_frames sequences_stable [] rfl, List.nil_append, cut, frames_encoded]
  obtain ⟨texts, left⟩ := collected []
  rw [texts, left, frames, List.map_map]
  refine ⟨?_, rfl⟩
  rw [show character ∘ String.utf8EncodeChar = id from funext character_encoded, List.map_id]

end Openyak.Theory.Utf8Stream
