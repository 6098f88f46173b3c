/-
# Theory.ByteStream -- reading lines and counted bytes from a stream of bytes

What a buffered reader has still to read is a list of bytes.  `takeLine` is
`BufRead::read_line` before the bytes are decoded: the bytes through the next line feed,
or what there is.  `takeExact` is `read_exact`: so many bytes, or the end of the stream.

A read that fails gives an `IoError`, a kind and a message.

* `takeLine_line`: a line without a line feed in it is read back from the front.
* `fromUtf8_ascii`: ASCII bytes decode to the text they are.
-/
import Openyak.Theory.Text

namespace Openyak.Theory.ByteStream

open Openyak.Theory.Text

set_option autoImplicit false

inductive ErrorKind where
  | unexpectedEof
  | invalidData
  | brokenPipe
  | notFound
  | other
  deriving DecidableEq, Repr

/-- `io::Error`. -/
structure IoError where
  kind : ErrorKind
  message : String
  deriving DecidableEq, Repr

def newline : UInt8 := 10

/-- The bytes through the next line feed, and the rest. -/
def takeLine : List UInt8 → List UInt8 × List UInt8
  | [] => ([], [])
  | byte :: rest =>
      if byte = newline then ([newline], rest)
      else (byte :: (takeLine rest).1, (takeLine rest).2)

/-- `read_exact`: nothing is returned if the stream ends before. -/
def takeExact (count : Nat) (bytes : List UInt8) : Option (List UInt8 × List UInt8) :=
  if count ≤ bytes.length then some (bytes.take count, bytes.drop count) else none

/-- All lines, each with its line feed; the last may lack it. -/
def splitLines : List UInt8 → List (List UInt8)
  | [] => []
  | byte :: rest =>
      if byte = newline then [newline] :: splitLines rest
      else
        match splitLines rest with
        | [] => [[byte]]
        | line :: lines => (byte :: line) :: lines

/-- `str::from_utf8`: the bytes a text encodes to are those it accepts. -/
def fromUtf8 (bytes : List UInt8) : Option (List Char) :=
  if (fromUtf8Lossy bytes).flatMap String.utf8EncodeChar = bytes then some (fromUtf8Lossy bytes)
  else none

/-- What a peer writes until it ends, and the failure that ends it, if it is one. -/
structure Incoming where
  bytes : List UInt8
  failure : Option IoError := none

/-- `read_line`: no text at the end of the stream. -/
def readLine (incoming : Incoming) : Except IoError (List Char) × List UInt8 :=
  let line := (takeLine incoming.bytes).1
  let rest := (takeLine incoming.bytes).2
  match incoming.failure with
  | some error =>
      if newline ∈ line then (readUtf8 line, rest) else (.error error, rest)
  | none => (readUtf8 line, rest)
where
  readUtf8 (line : List UInt8) : Except IoError (List Char) :=
    match fromUtf8 line with
    | some text => .ok text
    | none => .error ⟨.invalidData, "stream did not contain valid UTF-8"⟩

/-- The bytes of a text that is ASCII. -/
def ascii (text : List Char) : List UInt8 := text.map fun c => UInt8.ofNat c.toNat

@[simp] theorem ascii_append (text more : List Char) :
    ascii (text ++ more) = ascii text ++ ascii more := List.map_append

/-! ## Lines -/

theorem takeLine_append (bytes : List UInt8) : (takeLine bytes).1 ++ (takeLine bytes).2 = bytes := by
  induction bytes with
  | nil => rfl
  | cons byte rest ih =>
      rw [takeLine]
      split
      · rename_i isNewline
        rw [isNewline]
        rfl
      · exact congrArg (byte :: ·) ih

theorem takeLine_line {line : List UInt8} (whole : newline ∉ line) (rest : List UInt8) :
    takeLine (line ++ newline :: rest) = (line ++ [newline], rest) := by
  induction line with
  | nil => simp [takeLine]
  | cons byte line ih =>
      rw [List.mem_cons, not_or] at whole
      rw [List.cons_append, takeLine, if_neg (Ne.symm whole.1), ih whole.2]
      rfl

/-- A line takes something from a stream that has something. -/
theorem takeLine_shorter {byte : UInt8} {rest : List UInt8} :
    (takeLine (byte :: rest)).2.length < (byte :: rest).length := by
  have whole := congrArg List.length (takeLine_append (byte :: rest))
  have some_ : 0 < (takeLine (byte :: rest)).1.length := by
    rw [takeLine]
    split <;> simp
  rw [List.length_append] at whole
  omega

theorem splitLines_eq {bytes : List UInt8} (some_ : bytes ≠ []) :
    splitLines bytes = (takeLine bytes).1 :: splitLines (takeLine bytes).2 := by
  induction bytes with
  | nil => exact absurd rfl some_
  | cons byte rest ih =>
      by_cases isNewline : byte = newline
      · rw [splitLines, if_pos isNewline, takeLine, if_pos isNewline]
      · rw [splitLines, if_neg isNewline, takeLine, if_neg isNewline]
        cases rest with
        | nil => rfl
        | cons next rest => rw [ih (List.cons_ne_nil _ _)]

theorem takeLine_some {byte : UInt8} {rest : List UInt8} : (takeLine (byte :: rest)).1 ≠ [] := by
  rw [takeLine]
  split <;> exact List.cons_ne_nil _ _

theorem takeExact_append (bytes rest : List UInt8) :
    takeExact bytes.length (bytes ++ rest) = some (bytes, rest) := by
  rw [takeExact, if_pos (by simp), List.take_left, List.drop_left]

/-! ## ASCII -/

theorem decodeFirst_ascii {c : Char} (low : c.toNat < 128) (rest : List UInt8) :
    decodeFirst (UInt8.ofNat c.toNat) rest = (c, 0) := by
  have small : UInt8.ofNat c.toNat < 0x80 := by
    rw [UInt8.lt_iff_toNat_lt, UInt8.toNat_ofNat']
    show c.toNat % 256 < 128
    omega
  have value : (UInt8.ofNat c.toNat).toNat = c.toNat := by
    rw [UInt8.toNat_ofNat']
    omega
  unfold decodeFirst
  rw [if_pos small, value, Char.ofNat_toNat]

theorem fromUtf8Lossy_ascii {text : List Char} (low : ∀ c ∈ text, c.toNat < 128) :
    fromUtf8Lossy (ascii text) = text := by
  induction text with
  | nil => rfl
  | cons c text ih =>
      rw [List.forall_mem_cons] at low
      show (let decoded := decodeFirst (UInt8.ofNat c.toNat) (ascii text)
        decoded.1 :: fromUtf8LossyAux decoded.2 (ascii text)) = _
      rw [decodeFirst_ascii low.1]
      exact congrArg (c :: ·) (ih low.2)

theorem utf8EncodeChar_ascii {c : Char} (low : c.toNat < 128) :
    String.utf8EncodeChar c = [UInt8.ofNat c.toNat] := by
  have one : c.utf8Size = 1 := by
    rw [Char.utf8Size_eq_one_iff]
    rw [UInt32.le_iff_toNat_le]
    show c.toNat ≤ 127
    omega
  exact String.utf8EncodeChar_eq_singleton one

/-- **ASCII bytes are the text they are.** -/
theorem fromUtf8_ascii {text : List Char} (low : ∀ c ∈ text, c.toNat < 128) :
    fromUtf8 (ascii text) = some text := by
  have encodes : text.flatMap String.utf8EncodeChar = ascii text := by
    induction text with
    | nil => rfl
    | cons c text ih =>
        rw [List.forall_mem_cons] at low
        rw [List.flatMap_cons, utf8EncodeChar_ascii low.1, ih low.2]
        rfl
  rw [fromUtf8, fromUtf8Lossy_ascii low, if_pos encodes]

/-- **A line of ASCII is read back as its text.** -/
theorem takeLine_ascii {line : List Char} (low : ∀ c ∈ line, c.toNat < 128)
    (whole : '\n' ∉ line) (rest : List UInt8) :
    takeLine (ascii (line ++ ['\n']) ++ rest) = (ascii (line ++ ['\n']), rest) ∧
      fromUtf8 (ascii (line ++ ['\n'])) = some (line ++ ['\n']) := by
  have apart : newline ∉ ascii line := by
    intro member
    obtain ⟨c, isThere, same⟩ := List.mem_map.1 member
    have small := low c isThere
    have value := congrArg UInt8.toNat same
    rw [UInt8.toNat_ofNat'] at value
    change c.toNat % 2 ^ 8 = '\n'.toNat at value
    rw [Nat.mod_eq_of_lt (by omega)] at value
    exact whole (Char.toNat_inj.1 value ▸ isThere)
  constructor
  · rw [ascii_append, List.append_assoc]
    exact takeLine_line apart rest
  · apply fromUtf8_ascii
    intro c member
    rcases List.mem_append.1 member with isThere | isEnd
    · exact low c isThere
    · rw [List.mem_singleton.1 isEnd]
      decide

theorem readLine_whole {bytes line rest : List UInt8} {text : List Char}
    {failure : Option IoError} (taken : takeLine bytes = (line, rest))
    (decoded : fromUtf8 line = some text) (whole : newline ∈ line) :
    readLine ⟨bytes, failure⟩ = (.ok text, rest) := by
  have reads : readLine.readUtf8 line = .ok text := by rw [readLine.readUtf8, decoded]
  rw [readLine, taken]
  dsimp only
  cases failure with
  | none => rw [reads]
  | some error => exact (if_pos whole).trans (by rw [reads])

end Openyak.Theory.ByteStream
