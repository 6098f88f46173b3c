/-
# Lsp.Transport -- messages of the language server protocol on a stream of bytes

`readMessage` is what the reader task takes from the server's output: header lines up to an
empty one, then as many bytes as they announced.  `frame` is what `send_message` writes.

* `readMessage_frame`: a message is read back from the front of the stream.
* `readMessage_ended`: a stream ends without an error exactly if nothing but header lines is
  left in it.

`serde_json` at the types of the client, and the types of `lsp_types`, are parameters.
-/
import Openyak.Theory.ContentLength
import Openyak.Theory.Json
import Openyak.Theory.PathText

namespace Openyak.Lsp

open Openyak.Theory Openyak.Theory.ByteStream
open Openyak.Theory.Text (splitOnce toAsciiLowercase trim trimEndMatches trimEndMatches_append)

set_option autoImplicit false

inductive LspError where
  | io (error : IoError)
  | json (message : String)
  | invalidHeader (header : List Char)
  | missingContentLength
  | invalidContentLength (value : List Char)
  | unsupportedDocument (path : Posix.Path)
  | pathToUrl (path : Posix.Path)
  | protocol (message : String)

structure PublishDiagnosticsParams where
  uri : String
  diagnostics : List Json

/-- What the client uses of `serde_json`: `from_slice`, `from_value` at the notification and
at the type that the caller of a method asks for, `to_vec`, and the texts of values and
errors. -/
structure Serde where
  fromSlice : List UInt8 → Except String Json
  publishDiagnostics : Json → Except String PublishDiagnosticsParams
  response : String → Json → Except String Json
  toVec : Json → List UInt8
  valueText : Json → String
  errorText : LspError → String

/-! ## Reading -/

def contentLengthName : List Char := "content-length".toList

/-- One header: the length it announces, if it is that header. -/
def parseHeader (line : List Char) : Except LspError (Option Nat) :=
  let trimmed := trimEndMatches ['\r', '\n'] line
  match splitOnce ":" trimmed with
  | none => .error (.invalidHeader trimmed)
  | some (name, value) =>
      if toAsciiLowercase name = contentLengthName then
        match Decimal.parseU64 (trim value) with
        | some length => .ok (some length.toNat)
        | none => .error (.invalidContentLength (trim value))
      else .ok none

/-- How the loop over the headers ends. -/
inductive Headers where
  | ended
  | complete (contentLength : Option Nat)

/-- The loop over the headers; every line takes at least one byte. -/
def readHeaders (failure : Option IoError) :
    Nat → Option Nat → List UInt8 → Except LspError Headers × List UInt8
  | 0, _, bytes => (.ok .ended, bytes)
  | lines + 1, contentLength, bytes =>
      match readLine ⟨bytes, failure⟩ with
      | (.error error, rest) => (.error (.io error), rest)
      | (.ok line, rest) =>
          if line = [] then (.ok .ended, rest)
          else if line = ['\r', '\n'] then (.ok (.complete contentLength), rest)
          else
            match parseHeader line with
            | .error error => (.error error, rest)
            | .ok named => readHeaders failure lines (named <|> contentLength) rest

/-- What `read_message` comes to.  A buffer of more than `isize::MAX` bytes cannot be made. -/
inductive ReadOutcome where
  | message (value : Json)
  | ended
  | failed (error : LspError)
  | panicked

def readMessage (serde : Serde) (incoming : Incoming) : ReadOutcome × List UInt8 :=
  match readHeaders incoming.failure (incoming.bytes.length + 1) none incoming.bytes with
  | (.error error, rest) => (.failed error, rest)
  | (.ok .ended, rest) => (.ended, rest)
  | (.ok (.complete none), rest) => (.failed .missingContentLength, rest)
  | (.ok (.complete (some contentLength)), rest) =>
      if 2 ^ 63 ≤ contentLength then (.panicked, rest)
      else
        match takeExact contentLength rest with
        | none => (.failed (.io (incoming.failure.getD ⟨.unexpectedEof, "early eof"⟩)), [])
        | some (body, left) =>
            match serde.fromSlice body with
            | .ok value => (.message value, left)
            | .error message => (.failed (.json message), left)

/-- A line that the loop reads and goes on behind. -/
def HeaderLine (line : List UInt8) : Prop :=
  ∃ text named, fromUtf8 line = some text ∧ text ≠ ['\r', '\n'] ∧ parseHeader text = .ok named

theorem fromUtf8_nil_iff {bytes : List UInt8} (decoded : fromUtf8 bytes = some []) : bytes = [] := by
  unfold fromUtf8 at decoded
  split at decoded
  · rename_i encodes
    rw [Option.some.inj decoded] at encodes
    exact encodes.symm
  · cases decoded

/-- A stream that fails does not end before it does. -/
theorem readHeaders_failure (error : IoError) (lines : Nat) (contentLength : Option Nat)
    (bytes : List UInt8) (enough : bytes.length < lines) :
    (readHeaders (some error) lines contentLength bytes).1 ≠ .ok .ended := by
  induction lines generalizing contentLength bytes with
  | zero => omega
  | succ lines ih =>
      cases bytes with
      | nil => exact fun same => by cases same
      | cons byte rest =>
          have shorter := @takeLine_shorter byte rest
          rw [readHeaders, readLine]
          dsimp only
          by_cases whole : newline ∈ (takeLine (byte :: rest)).1
          · rw [if_pos whole, readLine.readUtf8]
            cases decoded : fromUtf8 (takeLine (byte :: rest)).1 with
            | none => exact fun same => by cases same
            | some text =>
                dsimp only
                have some_ : text ≠ [] := by
                  rintro rfl
                  exact takeLine_some (fromUtf8_nil_iff decoded)
                rw [if_neg some_]
                split
                · exact fun same => by cases same
                · cases parseHeader text with
                  | error error => exact fun same => by cases same
                  | ok named => exact ih _ _ (by omega)
          · rw [if_neg whole]
            exact fun same => by cases same

theorem readHeaders_ended (lines : Nat) (contentLength : Option Nat) (bytes : List UInt8)
    (enough : bytes.length < lines) :
    (readHeaders none lines contentLength bytes).1 = .ok .ended ↔
      ∀ line ∈ splitLines bytes, HeaderLine line := by
  induction lines generalizing contentLength bytes with
  | zero => omega
  | succ lines ih =>
      cases bytes with
      | nil => exact ⟨fun _ line member => absurd member List.not_mem_nil, fun _ => rfl⟩
      | cons byte rest =>
          have shorter := @takeLine_shorter byte rest
          have splits := splitLines_eq (List.cons_ne_nil byte rest)
          rw [splits, List.forall_mem_cons, readHeaders, readLine]
          dsimp only
          rw [readLine.readUtf8]
          cases decoded : fromUtf8 (takeLine (byte :: rest)).1 with
          | none =>
              refine ⟨fun same => (by cases same), fun all => ?_⟩
              obtain ⟨text, -, found, -⟩ := all.1
              rw [decoded] at found
              cases found
          | some text =>
              dsimp only
              have some_ : text ≠ [] := by
                rintro rfl
                exact takeLine_some (fromUtf8_nil_iff decoded)
              rw [if_neg some_]
              by_cases blank : text = ['\r', '\n']
              · rw [if_pos blank]
                refine ⟨fun same => (by cases same), fun all => ?_⟩
                obtain ⟨_, -, found, notBlank, -⟩ := all.1
                rw [decoded] at found
                exact absurd (Option.some.inj found ▸ blank) notBlank
              · rw [if_neg blank]
                cases parsed : parseHeader text with
                | error error =>
                    refine ⟨fun same => (by cases same), fun all => ?_⟩
                    obtain ⟨_, _, found, -, isOk⟩ := all.1
                    rw [decoded] at found
                    rw [← Option.some.inj found, parsed] at isOk
                    cases isOk
                | ok named =>
                    dsimp only
                    rw [ih _ _ (by omega)]
                    exact ⟨fun all => ⟨⟨text, named, decoded, blank, parsed⟩, all⟩, fun all => all.2⟩

/-- **A stream ends without an error exactly if only header lines are left in it.** -/
theorem readMessage_ended (serde : Serde) (incoming : Incoming) :
    (readMessage serde incoming).1 = .ended ↔
      incoming.failure = none ∧ ∀ line ∈ splitLines incoming.bytes, HeaderLine line := by
  have ends : (readMessage serde incoming).1 = .ended ↔
      (readHeaders incoming.failure (incoming.bytes.length + 1) none incoming.bytes).1 =
        .ok .ended := by
    rw [readMessage]
    rcases readHeaders incoming.failure (incoming.bytes.length + 1) none incoming.bytes with
      ⟨error | _ | _ | length, rest⟩
    · exact ⟨fun same => (by cases same), fun same => by cases same⟩
    · exact ⟨fun _ => rfl, fun _ => rfl⟩
    · exact ⟨fun same => (by cases same), fun same => by cases same⟩
    · refine ⟨fun same => ?_, fun same => by cases same⟩
      dsimp only at same
      split at same
      · cases same
      · split at same
        · cases same
        · split at same <;> cases same
  rw [ends]
  cases failed : incoming.failure with
  | some error =>
      refine ⟨fun same => absurd same ?_, fun both => by cases both.1⟩
      exact readHeaders_failure error _ none incoming.bytes (Nat.lt_succ_self _)
  | none =>
      rw [readHeaders_ended _ none incoming.bytes (Nat.lt_succ_self _)]
      exact ⟨fun all => ⟨rfl, all⟩, fun both => both.2⟩

/-- The headers announce more bytes than a buffer can hold. -/
def TooLong (incoming : Incoming) : Prop :=
  ∃ length rest, readHeaders incoming.failure (incoming.bytes.length + 1) none incoming.bytes =
    (.ok (.complete (some length)), rest) ∧ 2 ^ 63 ≤ length

theorem readMessage_panicked (serde : Serde) (incoming : Incoming) :
    (readMessage serde incoming).1 = .panicked ↔ TooLong incoming := by
  rw [readMessage, TooLong]
  rcases readHeaders incoming.failure (incoming.bytes.length + 1) none incoming.bytes with
    ⟨error | _ | _ | length, rest⟩
  · exact ⟨fun same => (by cases same), fun long => by obtain ⟨_, _, same, _⟩ := long; cases same⟩
  · exact ⟨fun same => (by cases same), fun long => by obtain ⟨_, _, same, _⟩ := long; cases same⟩
  · exact ⟨fun same => (by cases same), fun long => by obtain ⟨_, _, same, _⟩ := long; cases same⟩
  · dsimp only
    constructor
    · intro same
      split at same
      · rename_i long
        exact ⟨length, rest, rfl, long⟩
      · split at same
        · cases same
        · split at same <;> cases same
    · rintro ⟨_, _, same, long⟩
      cases same
      rw [if_pos long]

/-! ## Writing -/

/-- `send_message`: the header and the body. -/
def frame (serde : Serde) (payload : Json) : List UInt8 := framed (serde.toVec payload)

def requestPayload (id : Int64) (method : String) (params : Json) : Json :=
  .ofFields [("jsonrpc", .string "2.0"), ("id", Json.ofI64 id), ("method", .string method),
    ("params", params)]

def notificationPayload (method : String) (params : Json) : Json :=
  .ofFields [("jsonrpc", .string "2.0"), ("method", .string method), ("params", params)]

theorem parseHeader_lengthLine {length : Nat} (fits : length < 2 ^ 64) :
    parseHeader (lengthLine length ++ ['\n']) = .ok (some length) := by
  have some_ : Nat.toDigits 10 length ≠ [] := Nat.toDigits_ne_nil
  have isDigit := isDigit_toDigits (List.getLast_mem some_)
  have noEnd : (Nat.toDigits 10 length).getLast some_ ∉ ['\r', '\n'] := by
    intro member
    simp only [List.mem_cons, List.not_mem_nil, or_false] at member
    rcases member with isReturn | isNewline
    · rw [isReturn] at isDigit
      exact absurd isDigit (by decide)
    · rw [isNewline] at isDigit
      exact absurd isDigit (by decide)
  have trimmed : trimEndMatches ['\r', '\n'] (lengthLine length ++ ['\n']) =
      lengthName ++ ' ' :: Nat.toDigits 10 length := by
    have whole : lengthLine length ++ ['\n'] =
        (lengthName ++ ' ' :: Nat.toDigits 10 length) ++ ['\r', '\n'] := by simp [lengthLine]
    rw [whole]
    refine trimEndMatches_append (fun c member => member) ?_ noEnd
    rw [List.getLast?_append_of_ne_nil _ (List.cons_ne_nil _ _), List.getLast?_cons_of_ne_nil some_]
    exact List.getLast?_eq_some_getLast some_
  have split : splitOnce ":" (lengthName ++ ' ' :: Nat.toDigits 10 length) =
      some (lengthName.dropLast, ' ' :: Nat.toDigits 10 length) := by
    have colon : ":".toList = [':'] := by decide +kernel
    simp [splitOnce, lengthName, colon]
  have named : toAsciiLowercase lengthName.dropLast = contentLengthName := by decide +kernel
  have value : trim (' ' :: Nat.toDigits 10 length) = Nat.toDigits 10 length := by
    have padded := @trim_numeral [' '] [] length (List.forall_mem_singleton.2 (by decide))
    rwa [List.append_nil] at padded
  rw [parseHeader, trimmed, split]
  dsimp only
  rw [if_pos named, value, Decimal.parseU64_toDigits fits]
  dsimp only
  rw [UInt64.toNat_ofNat', Nat.mod_eq_of_lt fits]

variable {serde : Serde} {payload value : Json}

/-- **A message is read back from the front of the stream.** -/
theorem readMessage_frame (rest : List UInt8) (failure : Option IoError)
    (fits : (serde.toVec payload).length < 2 ^ 63)
    (parsed : serde.fromSlice (serde.toVec payload) = .ok value) :
    readMessage serde ⟨frame serde payload ++ rest, failure⟩ = (.message value, rest) := by
  generalize body : serde.toVec payload = bytes at fits parsed
  obtain ⟨low, whole⟩ := lengthLine_ascii bytes.length
  obtain ⟨taken, decoded⟩ := takeLine_ascii low whole (ascii (['\r'] ++ ['\n']) ++ (bytes ++ rest))
  have lowEnd : ∀ c ∈ ['\r'], c.toNat < 128 := List.forall_mem_singleton.2 (by decide)
  obtain ⟨takenEnd, decodedEnd⟩ := takeLine_ascii lowEnd (by decide) (bytes ++ rest)
  have wholeLine : ∀ line : List Char, newline ∈ ascii (line ++ ['\n']) := by
    intro line
    rw [ascii_append]
    exact List.mem_append_right _ (List.mem_singleton.2 rfl)
  have first : readLine ⟨ascii (lengthLine bytes.length ++ ['\n']) ++
      (ascii (['\r'] ++ ['\n']) ++ (bytes ++ rest)), failure⟩ =
        (.ok (lengthLine bytes.length ++ ['\n']), ascii (['\r'] ++ ['\n']) ++ (bytes ++ rest)) :=
    readLine_whole taken decoded (wholeLine _)
  have second : readLine ⟨ascii (['\r'] ++ ['\n']) ++ (bytes ++ rest), failure⟩ =
      (.ok ['\r', '\n'], bytes ++ rest) := readLine_whole takenEnd decodedEnd (wholeLine _)
  have notEnd : lengthLine bytes.length ++ ['\n'] ≠ ['\r', '\n'] := by
    rw [lengthLine]
    exact fun same => absurd (List.cons.inj same).1 (by decide)
  have some_ : lengthLine bytes.length ++ ['\n'] ≠ [] :=
    List.append_ne_nil_of_right_ne_nil _ (List.cons_ne_nil _ _)
  have two : ∃ lines, (frame serde payload ++ rest).length + 1 = lines + 2 := by
    refine ⟨(frame serde payload ++ rest).length - 1, ?_⟩
    have positive : 0 < (frame serde payload ++ rest).length := by
      rw [frame, framed_eq, ascii_append, List.length_append, List.length_append]
      have one : (ascii ['\n']).length = 1 := rfl
      omega
    omega
  obtain ⟨lines, two⟩ := two
  have headers : readHeaders failure (lines + 2) none (frame serde payload ++ rest) =
      (.ok (.complete (some bytes.length)), bytes ++ rest) := by
    rw [frame, framed_eq, body, readHeaders, first]
    dsimp only
    rw [if_neg some_, if_neg notEnd, parseHeader_lengthLine (by omega)]
    dsimp only
    rw [readHeaders, second]
    rfl
  rw [readMessage, two, headers]
  dsimp only
  rw [if_neg (by omega), takeExact_append]
  dsimp only
  rw [parsed]

end Openyak.Lsp
