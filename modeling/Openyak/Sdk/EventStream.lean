/-
# Sdk.EventStream -- how the SDKs read the event stream

`decodeThreadEvents` of the TypeScript SDK decodes the bytes as they come, unifies the
line ends of each piece, and cuts frames at empty lines.  The Python SDK goes line by line
(`iterSseFrames`) over what `iter_lines` gives.  Both collect the data lines of a frame
and read its data as an event (`EventReader`).

JSON's reader is a parameter, and so is the SDK's view of a value as an event.
-/
import Openyak.Sdk.Errors
import Openyak.Theory.Framing
import Openyak.Theory.Text
import Openyak.Theory.Utf8Stream

namespace Openyak.Sdk

open Openyak.Theory
open Openyak.Theory.Framing
open Openyak.Theory.Utf8Stream

set_option autoImplicit false

/-! ## Frames -/

/-- `trimStart` and `trim` take a byte order mark, too, and no U+0085. -/
def isJsSpace (c : Char) : Bool := (Text.isWhitespace c && c ≠ '\u0085') || c = '\uFEFF'

/-- `str.isspace`. -/
def isPySpace (c : Char) : Bool := Text.isWhitespace c || (0x1C ≤ c.toNat && c.toNat ≤ 0x1F)

def dropSpaces (isSpace : Char → Bool) (text : List Char) : List Char := text.dropWhile isSpace

def stripSpaces (isSpace : Char → Bool) (text : List Char) : List Char :=
  ((text.dropWhile isSpace).reverse.dropWhile isSpace).reverse

structure SseFrame where
  event : Option (List Char)
  data : List Char
  deriving DecidableEq, Repr

/-- The `event` and the `data` of a frame so far. -/
structure FrameLines where
  event : Option (List Char) := none
  dataLines : List (List Char) := []
  deriving DecidableEq, Repr

def startsWith (line : List Char) (start : String) : Bool := start.toList.isPrefixOf line

/-- One line that is not empty. -/
def FrameLines.add (isSpace : Char → Bool) (lines : FrameLines) (line : List Char) : FrameLines :=
  if startsWith line ":" then lines
  else if startsWith line "event:" then
    { lines with event := some (stripSpaces isSpace (line.drop 6)) }
  else if startsWith line "data:" then
    { lines with dataLines := lines.dataLines ++ [dropSpaces isSpace (line.drop 5)] }
  else lines

/-- Nothing without data. -/
def FrameLines.frame (lines : FrameLines) : Option SseFrame :=
  if lines.dataLines = [] then none
  else some ⟨lines.event, List.intercalate ['\n'] lines.dataLines⟩

/-! ## Events -/

/-- `JSON.parse` or `json.loads`, and the SDK's view of a value as an event. -/
structure EventReader (ν ε : Type) where
  fromStr : List Char → Except String ν
  parseThreadEvent : ν → Except SdkError ε

variable {ν ε : Type} (reader : EventReader ν ε)

/-- `_parse_thread_event_json`, and `parseThreadEvent(parseJson(..))`. -/
def EventReader.read (data : List Char) : Except SdkError ε :=
  match reader.fromStr data with
  | .error _ => .error (.protocol "failed to parse thread event JSON")
  | .ok value => reader.parseThreadEvent value

/-! ## TypeScript -/

/-- `.replace(/\r\n/g, "\n").replace(/\r/g, "\n")`. -/
def unifyEnds : List Char → List Char
  | '\r' :: '\n' :: rest => '\n' :: unifyEnds rest
  | '\r' :: rest => '\n' :: unifyEnds rest
  | c :: rest => c :: unifyEnds rest
  | [] => []

/-- At `indexOf("\n\n")`. -/
def splitBlankLine : List Char → Option (List Char × List Char)
  | '\n' :: '\n' :: rest => some ([], rest)
  | c :: rest => (splitBlankLine rest).map fun (frame, behind) => (c :: frame, behind)
  | [] => none

theorem splitBlankLine_append {buffer frame behind : List Char}
    (found : splitBlankLine buffer = some (frame, behind)) :
    buffer = frame ++ '\n' :: '\n' :: behind := by
  induction buffer using splitBlankLine.induct generalizing frame behind with
  | case1 rest => cases found; rfl
  | case2 c rest other ih =>
      rw [splitBlankLine] at found
      · obtain ⟨⟨frame', behind'⟩, found, same⟩ := Option.map_eq_some_iff.1 found
        cases same
        rw [ih found]
        rfl
      · exact other
  | case3 => cases found

/-- `drainFrames`, with the line ends still at each frame. -/
def drainFrames : Framer Char where
  next buffer := (splitBlankLine buffer).map fun (frame, behind) => (frame ++ ['\n', '\n'], behind)
  append_eq := by
    intro buffer frame rest found
    obtain ⟨⟨text, behind⟩, split, same⟩ := Option.map_eq_some_iff.1 found
    cases same
    rw [splitBlankLine_append split]
    simp
  nonempty := by
    intro buffer frame rest found
    obtain ⟨⟨text, behind⟩, split, same⟩ := Option.map_eq_some_iff.1 found
    cases same
    simp

def parseSseFrame (frame : List Char) : Option SseFrame :=
  ((frame.splitOn '\n').foldl (fun (lines : FrameLines) line =>
    if line = [] then lines else lines.add isJsSpace line) {}).frame

/-- A frame off the buffer, read as an event. -/
def decodeFrame (frame : List Char) : Except SdkError (Option ε) :=
  match parseSseFrame (frame.take (frame.length - 2)) with
  | none => .ok none
  | some parsed => (reader.read parsed.data).map some

/-- The bytes that wait, and whether a character has come out. -/
structure TextDecoder where
  pending : List UInt8 := []
  started : Bool := false

def dropByteOrderMark : List Char → List Char
  | c :: text => if c = '\uFEFF' then text else c :: text
  | [] => []

/-- `decoder.decode(value, { stream: true })`. -/
def TextDecoder.decode (decoder : TextDecoder) (value : List UInt8) : List Char × TextDecoder :=
  let decoded := decodeChunk decoder.pending value
  (if decoder.started then decoded.1 else dropByteOrderMark decoded.1,
    ⟨decoded.2, decoder.started || decoded.1 ≠ []⟩)

/-- `decoder.decode()`: what waits is no character. -/
def TextDecoder.flush (decoder : TextDecoder) : List Char :=
  if decoder.pending = [] then [] else [Text.replacement]

/-- The loop of `decodeThreadEvents`: the events it yields, and the error that ends it. -/
def decodeLoop (decoder : TextDecoder) (buffer : List Char) :
    List (List UInt8) → List ε × Option SdkError
  | [] => Framer.decodeAll (decodeFrame reader) (drainFrames.frames (buffer ++ decoder.flush)).1
  | value :: values =>
      let decoded := decoder.decode value
      let drained := drainFrames.frames (buffer ++ unifyEnds decoded.1)
      match Framer.decodeAll (decodeFrame reader) drained.1 with
      | (events, some error) => (events, some error)
      | (events, none) =>
          let more := decodeLoop decoded.2 drained.2 values
          (events ++ more.1, more.2)

def decodeThreadEvents (chunks : List (List UInt8)) : List ε × Option SdkError :=
  decodeLoop reader {} [] chunks

/-! ## Python -/

/-- What `str.splitlines` takes for a line end. -/
def isLineBreak (c : Char) : Bool :=
  (0x0A ≤ c.toNat && c.toNat ≤ 0x0D) || (0x1C ≤ c.toNat && c.toNat ≤ 0x1E) || c = '\u0085' ||
    c = '\u2028' || c = '\u2029'

/-- `seen` is the line so far, reversed. -/
def splitlinesAux : (text seen : List Char) → List (List Char)
  | [], [] => []
  | [], seen => [seen.reverse]
  | '\r' :: '\n' :: rest, seen => seen.reverse :: splitlinesAux rest []
  | c :: rest, seen =>
      if isLineBreak c then seen.reverse :: splitlinesAux rest [] else splitlinesAux rest (c :: seen)

/-- `str.splitlines`. -/
def splitlines (text : List Char) : List (List Char) := splitlinesAux text []

/-- `rstrip("\r")`. -/
def rstripCr (line : List Char) : List Char := (line.reverse.dropWhile (· = '\r')).reverse

/-- `iter_sse_frames` and `aiter_sse_frames`. -/
def iterSseFrames : FrameLines → List (List Char) → List SseFrame
  | lines, [] => lines.frame.toList
  | lines, rawLine :: rest =>
      let line := rstripCr rawLine
      if line = [] then lines.frame.toList ++ iterSseFrames {} rest
      else iterSseFrames (lines.add isPySpace line) rest

/-- The events read from the data of frames, up to the first error. -/
def readAll (data : List (List Char)) : List ε × Option SdkError :=
  Framer.decodeAll (fun data => (reader.read data).map some) data

/-- `_iter_decoded_thread_events` over the lines of the response. -/
def iterDecodedThreadEvents (lines : List (List Char)) : List ε × Option SdkError :=
  readAll reader ((iterSseFrames {} lines).map SseFrame.data)

end Openyak.Sdk
