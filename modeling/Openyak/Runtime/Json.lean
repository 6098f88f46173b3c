/-
# Runtime.Json -- the program's own JSON: values, rendering, parsing

A parser function takes the characters that are left and gives its value with those
left behind it.  The parser's loops read at least one character a round and the parser
one a level, so the number of characters left bounds both: `depth` and `fuel` are no
part of the program, and where they end there is nothing left to read.
-/
import Openyak.Theory.JsonText
import Mathlib.Algebra.Group.Int.Defs

namespace Openyak.Runtime

open Openyak.Theory

set_option autoImplicit false

abbrev JsonValue := JsonTree Int64

structure JsonError where
  message : String
  deriving DecidableEq, Repr

def asObject : JsonValue → Option (JsonEntries Int64 none)
  | .object entries => some entries
  | _ => none

def asArray : JsonValue → Option (List JsonValue)
  | .array values => some values
  | _ => none

def asStr : JsonValue → Option String
  | .string value => some value
  | _ => none

def asBool : JsonValue → Option Bool
  | .bool value => some value
  | _ => none

def asI64 : JsonValue → Option Int64
  | .number value => some value
  | _ => none

/-! ## Rendering -/

/-- `char::is_control`: the general category Cc. -/
def isControl (c : Char) : Bool := c.toNat ≤ 0x1F || (0x7F ≤ c.toNat && c.toNat ≤ 0x9F)

def hexDigits : List Char := "0123456789abcdef".toList

def pushUnicodeEscape (control : Char) : List Char :=
  '\\' :: 'u' :: [12, 8, 4, 0].map fun shift =>
    hexDigits.getD (control.toNat >>> shift % 16) '0'

def renderChar (c : Char) : List Char :=
  if c = '"' then ['\\', '"']
  else if c = '\\' then ['\\', '\\']
  else if c = '\n' then ['\\', 'n']
  else if c = '\r' then ['\\', 'r']
  else if c = '\t' then ['\\', 't']
  else if c = '\x08' then ['\\', 'b']
  else if c = '\x0C' then ['\\', 'f']
  else if isControl c then pushUnicodeEscape c
  else [c]

def renderString (value : String) : List Char :=
  '"' :: (value.toList.flatMap renderChar ++ ['"'])

mutual

def render : JsonValue → List Char
  | .null => "null".toList
  | .bool true => "true".toList
  | .bool false => "false".toList
  | .number value => (toString value.toInt).toList
  | .string value => renderString value
  | .array values => '[' :: (List.intercalate [','] (renderValues values) ++ [']'])
  | .object entries => '{' :: (List.intercalate [','] (renderEntries entries) ++ ['}'])

def renderValues : List JsonValue → List (List Char)
  | [] => []
  | value :: rest => render value :: renderValues rest

def renderEntries : {low : Option String} → JsonEntries Int64 low → List (List Char)
  | _, .nil => []
  | _, .cons key _ value rest => (renderString key ++ ':' :: render value) :: renderEntries rest

end

/-! ## Parsing -/

def skipWhitespace (chars : List Char) : List Char := chars.dropWhile isJsonBlank

def expect (expected : Char) : List Char → Except JsonError (List Char)
  | actual :: rest =>
      if actual = expected then .ok rest
      else .error ⟨"expected '" ++ expected.toString ++ "', found '" ++ actual.toString ++ "'"⟩
  | [] => .error ⟨"expected '" ++ expected.toString ++ "', found end of input"⟩

/-- What is left when the character was there. -/
def tryConsume (expected : Char) : List Char → Option (List Char)
  | actual :: rest => if actual = expected then some rest else none
  | [] => none

def parseLiteralChars (expected : String) : List Char → List Char → Except JsonError (List Char)
  | [], rest => .ok rest
  | expectedChar :: others, actual :: rest =>
      if actual = expectedChar then parseLiteralChars expected others rest
      else .error ⟨"invalid literal: expected " ++ expected⟩
  | _ :: _, [] => .error ⟨"invalid literal: expected " ++ expected⟩

def parseLiteral (expected : String) (value : JsonValue) (chars : List Char) :
    Except JsonError (JsonValue × List Char) := do
  let rest ← parseLiteralChars expected expected.toList chars
  return (value, rest)

/-- The four digits: `count` of them are left to read. -/
def parseHexDigits : (count value : Nat) → List Char → Except JsonError (Nat × List Char)
  | 0, value, rest => .ok (value, rest)
  | _ + 1, _, [] => .error ⟨"unexpected end of input in unicode escape"⟩
  | count + 1, value, c :: rest =>
      match hexValue c with
      | some digit => parseHexDigits count (value <<< 4 ||| digit) rest
      | none => .error ⟨"invalid unicode escape"⟩

def parseUnicodeEscape (chars : List Char) : Except JsonError (Char × List Char) := do
  let (value, rest) ← parseHexDigits 4 0 chars
  if value.isValidChar then return (Char.ofNat value, rest)
  else throw ⟨"invalid unicode scalar value"⟩

def parseEscape : List Char → Except JsonError (Char × List Char)
  | [] => .error ⟨"unexpected end of input in escape sequence"⟩
  | '"' :: rest => .ok ('"', rest)
  | '\\' :: rest => .ok ('\\', rest)
  | '/' :: rest => .ok ('/', rest)
  | 'b' :: rest => .ok ('\x08', rest)
  | 'f' :: rest => .ok ('\x0C', rest)
  | 'n' :: rest => .ok ('\n', rest)
  | 'r' :: rest => .ok ('\r', rest)
  | 't' :: rest => .ok ('\t', rest)
  | 'u' :: rest => parseUnicodeEscape rest
  | other :: _ => .error ⟨"invalid escape sequence: " ++ other.toString⟩

/-- The loop of `parse_string`: the characters up to the closing quote. -/
def parseStringChars : (fuel : Nat) → List Char → Except JsonError (List Char × List Char)
  | 0, _ => .error ⟨"unterminated string"⟩
  | _ + 1, [] => .error ⟨"unterminated string"⟩
  | fuel + 1, c :: rest =>
      if c = '"' then .ok ([], rest)
      else if c = '\\' then do
        let (escaped, rest) ← parseEscape rest
        let (value, rest) ← parseStringChars fuel rest
        return (escaped :: value, rest)
      else do
        let (value, rest) ← parseStringChars fuel rest
        return (c :: value, rest)

def parseString (chars : List Char) : Except JsonError (String × List Char) := do
  let rest ← expect '"' chars
  let (value, rest) ← parseStringChars rest.length rest
  return (String.ofList value, rest)

/-- `str::parse::<i64>` on an optional `-` and digits. -/
def parseI64 (negative : Bool) (digits : List Char) : Option Int64 :=
  let magnitude : Int := (Nat.ofDigitChars 10 digits 0 : Nat)
  let value := if negative then -magnitude else magnitude
  if -2 ^ 63 ≤ value ∧ value < 2 ^ 63 then some (Int64.ofInt value) else none

/-- Whether there is a `-`, and what is behind it. -/
def takeSign (chars : List Char) : Bool × List Char :=
  match tryConsume '-' chars with
  | some rest => (true, rest)
  | none => (false, chars)

def parseNumber (chars : List Char) : Except JsonError (Int64 × List Char) :=
  let (negative, chars) := takeSign chars
  let digits := chars.takeWhile Char.isDigit
  if digits = [] then .error ⟨"invalid number"⟩
  else
    match parseI64 negative digits with
    | some value => .ok (value, chars.dropWhile Char.isDigit)
    | none => .error ⟨"number out of range"⟩

section Loops

variable (parseValue : List Char → Except JsonError (JsonValue × List Char))

/-- The loop of `parse_array`. -/
def parseElements : (fuel : Nat) → List Char → Except JsonError (List JsonValue × List Char)
  | 0, _ => .error ⟨"unexpected end of input"⟩
  | fuel + 1, chars =>
      match tryConsume ']' (skipWhitespace chars) with
      | some rest => .ok ([], rest)
      | none => do
          let (value, rest) ← parseValue (skipWhitespace chars)
          match tryConsume ']' (skipWhitespace rest) with
          | some rest => return ([value], rest)
          | none =>
              let rest ← expect ',' (skipWhitespace rest)
              let (values, rest) ← parseElements fuel rest
              return (value :: values, rest)

def parseArray (chars : List Char) : Except JsonError (JsonValue × List Char) := do
  let rest ← expect '[' chars
  let (values, rest) ← parseElements parseValue rest.length rest
  return (.array values, rest)

/-- The loop of `parse_object`. -/
def parseMembers : (fuel : Nat) → List Char →
    Except JsonError (List (String × JsonValue) × List Char)
  | 0, _ => .error ⟨"expected '\"', found end of input"⟩
  | fuel + 1, chars =>
      match tryConsume '}' (skipWhitespace chars) with
      | some rest => .ok ([], rest)
      | none => do
          let (key, rest) ← parseString (skipWhitespace chars)
          let rest ← expect ':' (skipWhitespace rest)
          let (value, rest) ← parseValue rest
          match tryConsume '}' (skipWhitespace rest) with
          | some rest => return ([(key, value)], rest)
          | none =>
              let rest ← expect ',' (skipWhitespace rest)
              let (members, rest) ← parseMembers fuel rest
              return ((key, value) :: members, rest)

def parseObject (chars : List Char) : Except JsonError (JsonValue × List Char) := do
  let rest ← expect '{' chars
  let (members, rest) ← parseMembers parseValue rest.length rest
  return (.object (.ofMembers members), rest)

/-- `parse_value` where the whitespace is skipped. -/
def parseSkipped (chars : List Char) : Except JsonError (JsonValue × List Char) :=
  match chars.head? with
  | none => .error ⟨"unexpected end of input"⟩
  | some c =>
      if c = 'n' then parseLiteral "null" .null chars
      else if c = 't' then parseLiteral "true" (.bool true) chars
      else if c = 'f' then parseLiteral "false" (.bool false) chars
      else if c = '"' then do
        let (value, rest) ← parseString chars
        return (.string value, rest)
      else if c = '[' then parseArray parseValue chars
      else if c = '{' then parseObject parseValue chars
      else if c = '-' ∨ c.isDigit then do
        let (value, rest) ← parseNumber chars
        return (.number value, rest)
      else .error ⟨"unexpected character: " ++ c.toString⟩

end Loops

def parseValue : (depth : Nat) → List Char → Except JsonError (JsonValue × List Char)
  | 0, _ => .error ⟨"unexpected end of input"⟩
  | depth + 1, chars => parseSkipped (parseValue depth) (skipWhitespace chars)

/-- `JsonValue::parse`. -/
def parse (source : List Char) : Except JsonError JsonValue := do
  let (value, rest) ← parseValue source.length source
  if skipWhitespace rest = [] then return value
  else throw ⟨"unexpected trailing content"⟩

end Openyak.Runtime
