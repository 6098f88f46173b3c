/-
# Api.Sse -- the providers' server-sent-event parsers

`SseParser` (Anthropic) and `OpenAiSseParser` buffer bytes, take a frame off the
buffer whenever one is complete, and parse it to at most one event.  The two
share their code but for the frame's parser, so `push` and `finish` are written
once over it.
-/
import Openyak.Api.Types
import Openyak.Theory.Text

namespace Openyak.Api.Sse

open Openyak.Theory

set_option autoImplicit false

def lf : UInt8 := 10
def cr : UInt8 := 13

/-- `windows(pattern.len()).position(|window| window == pattern)`. -/
def position (pattern : List UInt8) : List UInt8 → Option Nat
  | [] => none
  | b :: rest =>
      if pattern.isPrefixOf (b :: rest) then some 0
      else (position pattern rest).map (· + 1)

/-- Where the separator stands and how long it is.  An LF LF anywhere in the
buffer is preferred to every CR LF CR LF. -/
def nextSeparator (buffer : List UInt8) : Option (Nat × Nat) :=
  match position [lf, lf] buffer with
  | some at_ => some (at_, 2)
  | none => (position [cr, lf, cr, lf] buffer).map fun at_ => (at_, 4)

/-- `next_frame` / `next_sse_frame`: drain through the separator; the text is
what stands before it. -/
def nextFrame (buffer : List UInt8) : Option (List Char × List UInt8) :=
  (nextSeparator buffer).map fun (at_, separatorLen) =>
    let frame := buffer.take (at_ + separatorLen)
    let frameLen := frame.length - separatorLen
    (Text.fromUtf8Lossy (frame.take frameLen), buffer.drop (at_ + separatorLen))

section Parser

variable {α : Type} (parse : List Char → Except ApiError (Option α))

/-- The loop of `push`: the events found so far are dropped when a frame does
not parse. -/
def pushLoop : Nat → List UInt8 → List α → List UInt8 × Except ApiError (List α)
  | 0, buffer, events => (buffer, .ok events)
  | fuel + 1, buffer, events =>
      match nextFrame buffer with
      | none => (buffer, .ok events)
      | some (frame, rest) =>
          match parse frame with
          | .error e => (rest, .error e)
          | .ok none => pushLoop fuel rest events
          | .ok (some event) => pushLoop fuel rest (events ++ [event])

/-- Every frame drains at least its separator, so the loop ends within the
buffer's length. -/
def pushWith (buffer chunk : List UInt8) : List UInt8 × Except ApiError (List α) :=
  pushLoop parse (buffer ++ chunk).length (buffer ++ chunk) []

def finishWith (buffer : List UInt8) : Except ApiError (List α) :=
  if buffer.isEmpty then .ok []
  else
    match parse (Text.fromUtf8Lossy buffer) with
    | .error e => .error e
    | .ok (some event) => .ok [event]
    | .ok none => .ok []

/-- What the caller of a parser sees of a stream: the events returned by `push`
for each chunk and by `finish`, up to the first error. -/
def deliverWith : List UInt8 → List (List UInt8) → List α × Option ApiError
  | buffer, [] =>
      match finishWith parse buffer with
      | .ok events => (events, none)
      | .error e => ([], some e)
  | buffer, chunk :: chunks =>
      match pushWith parse buffer chunk with
      | (_, .error e) => ([], some e)
      | (rest, .ok events) =>
          let more := deliverWith rest chunks
          (events ++ more.1, more.2)

end Parser

/-! ## The Anthropic parser -/

/-- The `event:` name and the `data:` lines of a frame. -/
def frameFields : List (List Char) → Option (List Char) × List (List Char)
  | [] => (none, [])
  | line :: lines =>
      let fields := frameFields lines
      if [':'].isPrefixOf line then fields
      else
        match Text.stripPrefix "event:" line with
        | some name => (fields.1.orElse fun _ => some (Text.trim name), fields.2)
        | none =>
            match Text.stripPrefix "data:" line with
            | some data => (fields.1, Text.trimStart data :: fields.2)
            | none => fields

/-- `parse_frame`, over `serde_json::from_str::<StreamEvent>`. -/
def parseFrame (fromStr : List Char → Except String StreamEvent) (frame : List Char) :
    Except ApiError (Option StreamEvent) :=
  let trimmed := Text.trim frame
  if trimmed.isEmpty then .ok none
  else
    let fields := frameFields (Text.lines trimmed)
    if fields.1 = some "ping".toList then .ok none
    else if fields.2.isEmpty then .ok none
    else
      let payload := Text.joinLines fields.2
      if payload = "[DONE]".toList then .ok none
      else
        match fromStr payload with
        | .ok event => .ok (some event)
        | .error e => .error (.json e)

/-- The parser's state is its buffer. -/
abbrev SseParser := List UInt8

def SseParser.new : SseParser := []

def SseParser.push (fromStr : List Char → Except String StreamEvent) (parser : SseParser)
    (chunk : List UInt8) : SseParser × Except ApiError (List StreamEvent) :=
  pushWith (parseFrame fromStr) parser chunk

def SseParser.finish (fromStr : List Char → Except String StreamEvent) (parser : SseParser) :
    Except ApiError (List StreamEvent) :=
  finishWith (parseFrame fromStr) parser

def SseParser.deliver (fromStr : List Char → Except String StreamEvent)
    (chunks : List (List UInt8)) : List StreamEvent × Option ApiError :=
  deliverWith (parseFrame fromStr) SseParser.new chunks

/-! ## The OpenAI-compatible parser -/

/-- The payload lines of `parse_sse_frame`: after the first `data:` line, a line
without the prefix continues the payload. -/
def dataLines : List (List Char) → List (List Char) → List (List Char)
  | found, [] => found
  | found, line :: lines =>
      if [':'].isPrefixOf line then dataLines found lines
      else
        match Text.stripPrefix "data:" line with
        | some data => dataLines (found ++ [Text.trimStart data]) lines
        | none =>
            if found.isEmpty then dataLines found lines
            else dataLines (found ++ [line]) lines

/-- `parse_sse_error`, over `from_str::<ErrorEnvelope>`. -/
def parseSseError (fromStr : List Char → Except String ErrorEnvelope) (payload : List Char) :
    Option ApiError :=
  match fromStr payload with
  | .error _ => none
  | .ok envelope =>
      if envelope.error.isNone && envelope.detail.isNone && envelope.message.isNone then none
      else
        some (.api 400 (envelope.error.bind (·.errorType))
          (((envelope.error.bind (·.message)).or envelope.message).or envelope.detail)
          (String.ofList payload) false)

/-- The two payload decoders of `parse_sse_frame`. -/
structure ChunkDecoders where
  errorEnvelope : List Char → Except String ErrorEnvelope
  chunk : List Char → Except String ChatCompletionChunk

/-- `parse_sse_frame`. -/
def parseSseFrame (decoders : ChunkDecoders) (frame : List Char) :
    Except ApiError (Option ChatCompletionChunk) :=
  let trimmed := Text.trim frame
  if trimmed.isEmpty then .ok none
  else
    let found := dataLines [] (Text.lines trimmed)
    if found.isEmpty then .ok none
    else
      let payload := Text.trim (Text.joinLines found)
      if payload.isEmpty then .ok none
      else if payload = "[DONE]".toList then .ok none
      else
        match parseSseError decoders.errorEnvelope payload with
        | some error => .error error
        | none =>
            match decoders.chunk payload with
            | .ok chunk => .ok (some chunk)
            | .error e => .error (.json e)

abbrev OpenAiSseParser := List UInt8

def OpenAiSseParser.new : OpenAiSseParser := []

def OpenAiSseParser.push (decoders : ChunkDecoders) (parser : OpenAiSseParser)
    (chunk : List UInt8) : OpenAiSseParser × Except ApiError (List ChatCompletionChunk) :=
  pushWith (parseSseFrame decoders) parser chunk

def OpenAiSseParser.finish (decoders : ChunkDecoders) (parser : OpenAiSseParser) :
    Except ApiError (List ChatCompletionChunk) :=
  finishWith (parseSseFrame decoders) parser

def OpenAiSseParser.deliver (decoders : ChunkDecoders) (chunks : List (List UInt8)) :
    List ChatCompletionChunk × Option ApiError :=
  deliverWith (parseSseFrame decoders) OpenAiSseParser.new chunks

end Openyak.Api.Sse
