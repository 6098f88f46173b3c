/-
# Runtime.McpProxyUrl -- the URL of a vendor's MCP server behind a proxy's

A proxy's URL holds the vendor's in its `mcp_url` parameter; `unwrap_ccr_proxy_url` takes
it out and decodes it.  The decoder slices its text two bytes behind each `%`, and a slice
that ends inside a character is a panic, `none` here.

What the loop does at each place of a text is said once (`decodeAt_other`,
`decodeAt_plus`, `decodeAt_short`, `decodeAt_escape`).  From it: a text is decoded unless two
bytes behind a `%` of it is the inside of a character (`percentDecode_isSome_iff`), and an
encoded URL is decoded to the URL (`decodeAt_encoded`).

A fragment that stands directly behind the parameter is decoded with it, so that a URL is
unwrapped safely exactly where neither is the case (`unwrapsSafely_iff`).
-/
import Openyak.Theory.Lines
import Openyak.Theory.PercentText

namespace Openyak.Runtime.McpConfigs

open Openyak.Theory
open Openyak.Theory.Text
open Openyak.Theory.Utf8Stream (encode)
open Openyak.Theory.ByteText

set_option autoImplicit false

def ccrProxyPathMarkers : List String := ["/v2/session_ingress/shttp/mcp/", "/v2/ccr-sessions/"]

/-- The digits of `u8::from_str_radix` behind the sign. -/
def readHex : (value : Nat) → List Char → Option UInt8
  | value, [] => some (UInt8.ofNat value)
  | value, c :: rest => do
      let digit ← hexValue c
      if 16 * value + digit < 256 then readHex (16 * value + digit) rest else none

/-- `u8::from_str_radix(_, 16)`: a `+` may stand before the digits. -/
def fromStrRadix16 : List Char → Option UInt8
  | [] => none
  | ['+'] => none
  | '+' :: digits => readHex 0 digits
  | digits => readHex 0 digits

/-- The loop of `percent_decode` from `index` on. -/
def decodeLoop (value : List Char) (index : Nat) (decoded : List UInt8) : Option (List UInt8) :=
  if index < (encode value).length then do
    let byte ← (encode value)[index]?
    if byte = 0x25 ∧ index + 2 < (encode value).length then
      match fromStrRadix16 (← ByteText.slice value (index + 1) (index + 3)) with
      | some byte => decodeLoop value (index + 3) (decoded ++ [byte])
      | none => decodeLoop value (index + 1) (decoded ++ [byte])
    else if byte = 0x2B then decodeLoop value (index + 1) (decoded ++ [0x20])
    else decodeLoop value (index + 1) (decoded ++ [byte])
  else some decoded
termination_by (encode value).length - index

def percentDecode (value : List Char) : Option (List Char) :=
  (decodeLoop value 0 []).map fromUtf8Lossy

/-- The value the loop over the pairs comes to. -/
def findMcpUrl : List (List Char) → Option (List Char)
  | [] => none
  | pair :: rest =>
      match splitOnce "=" pair with
      | some (key, value) => if key = "mcp_url".toList then some value else findMcpUrl rest
      | none => findMcpUrl rest

def unwrapCcrProxyUrl (url : List Char) : Option (List Char) :=
  if ccrProxyPathMarkers.any fun marker => contains marker url then
    match find '?' url with
    | none => some url
    | some queryStart => do
        let query ← startingAt url (queryStart + 1)
        match findMcpUrl (query.splitOn '&') with
        | some value => percentDecode value
        | none => some url
  else some url

/-! ## The loop, place by place -/

section DecodeAt

variable {seen rest : List Char} {decoded before : List UInt8}

/-- The loop with `seen` behind it and `rest` before it. -/
def decodeAt (seen rest : List Char) (decoded : List UInt8) : Option (List UInt8) :=
  decodeLoop (seen ++ rest) (byteLen seen) decoded

theorem decodeAt_nil : decodeAt seen [] decoded = some decoded := by
  rw [decodeAt, decodeLoop, List.append_nil, length_encode, if_neg (by omega)]

/-- Bytes that are neither `%` nor `+` are taken as they are. -/
theorem decodeLoop_bytes {value : List Char} {part after : List UInt8} (decoded before : List UInt8)
    (whole : encode value = before ++ part ++ after)
    (plain : ∀ byte ∈ part, byte ≠ 0x25 ∧ byte ≠ 0x2B) :
    decodeLoop value before.length decoded =
      decodeLoop value (before.length + part.length) (decoded ++ part) := by
  induction part generalizing decoded before with
  | nil => rw [List.append_nil, List.length_nil, Nat.add_zero]
  | cons byte part ih =>
      obtain ⟨⟨notEscape, notPlus⟩, others⟩ := List.forall_mem_cons.1 plain
      have cut : encode value = (before ++ [byte]) ++ part ++ after := by
        rw [whole]
        simp
      have next := ih (decoded ++ [byte]) (before ++ [byte]) cut others
      have within : before.length < (encode value).length := by
        rw [whole]
        simp only [List.length_append, List.length_cons]
        omega
      have here : (encode value)[before.length]? = some byte := by
        rw [whole, List.append_assoc, List.getElem?_append_right (by omega), Nat.sub_self]
        rfl
      rw [decodeLoop, if_pos within, here, Option.bind_eq_bind, Option.bind_some,
        if_neg fun held => notEscape held.1, if_neg notPlus]
      rw [List.length_append, List.length_singleton, List.append_assoc] at next
      rw [next, List.length_cons, Nat.add_assoc, Nat.add_comm 1]
      rfl

theorem utf8EncodeChar_plain {c : Char} (notEscape : c ≠ '%') (notPlus : c ≠ '+') :
    ∀ byte ∈ String.utf8EncodeChar c, byte ≠ 0x25 ∧ byte ≠ 0x2B := by
  intro byte member
  by_cases low : c.toNat < 128
  · rw [ByteStream.utf8EncodeChar_ascii low, List.mem_singleton] at member
    subst member
    have value : (UInt8.ofNat c.toNat).toNat = c.toNat := by
      rw [UInt8.toNat_ofNat']
      omega
    constructor
    · intro same
      rw [same] at value
      exact notEscape (Char.toNat_inj.1 value.symm)
    · intro same
      rw [same] at value
      exact notPlus (Char.toNat_inj.1 value.symm)
  · have high := utf8EncodeChar_high (by omega) byte member
    constructor
    · rintro rfl
      exact absurd high (by decide)
    · rintro rfl
      exact absurd high (by decide)

theorem decodeAt_other {c : Char} (notEscape : c ≠ '%') (notPlus : c ≠ '+') :
    decodeAt seen (c :: rest) decoded =
      decodeAt (seen ++ [c]) rest (decoded ++ String.utf8EncodeChar c) := by
  have whole : encode (seen ++ c :: rest) =
      encode seen ++ String.utf8EncodeChar c ++ encode rest := by
    rw [encode_append, List.append_assoc]
    rfl
  have through := decodeLoop_bytes decoded _ whole (utf8EncodeChar_plain notEscape notPlus)
  rw [length_encode, String.length_utf8EncodeChar] at through
  rw [decodeAt, through, decodeAt, byteLen_append, List.append_assoc]
  rfl

/-- The byte of an ASCII character at the place the loop is. -/
theorem byte_here {c : Char} (low : c.toNat < 128) :
    byteLen seen < (encode (seen ++ c :: rest)).length ∧
      (encode (seen ++ c :: rest))[byteLen seen]? = some (UInt8.ofNat c.toNat) := by
  have here := encode_getElem seen (c :: rest) 0
  rw [encode_cons_ascii low, Nat.add_zero, List.getElem?_cons_zero] at here
  exact ⟨(List.getElem?_eq_some_iff.1 here).1, here⟩

theorem decodeAt_plus : decodeAt seen ('+' :: rest) decoded =
    decodeAt (seen ++ ['+']) rest (decoded ++ [0x20]) := by
  obtain ⟨within, here⟩ := @byte_here seen rest '+' (by decide)
  rw [decodeAt, decodeLoop, if_pos within, here, Option.bind_eq_bind, Option.bind_some,
    if_neg fun held => absurd held.1 (by decide), if_pos (by decide), decodeAt, byteLen_append,
    List.append_assoc]
  rfl

/-- Two bytes must stand behind a `%` for it to be one of an escape. -/
theorem decodeAt_short (few : byteLen rest < 2) : decodeAt seen ('%' :: rest) decoded =
    decodeAt (seen ++ ['%']) rest (decoded ++ [0x25]) := by
  obtain ⟨within, here⟩ := @byte_here seen rest '%' (by decide)
  have short : ¬byteLen seen + 2 < (encode (seen ++ '%' :: rest)).length := by
    rw [length_encode, byteLen_append, byteLen_cons]
    show ¬_ < _ + (1 + _)
    omega
  rw [decodeAt, decodeLoop, if_pos within, here, Option.bind_eq_bind, Option.bind_some,
    if_neg fun held => short held.2, if_neg (by decide), decodeAt, byteLen_append,
    List.append_assoc]
  rfl

/-- **A `%` before two bytes**: what they are is sliced and read. -/
theorem decodeAt_escape (enough : 2 ≤ byteLen rest) : decodeAt seen ('%' :: rest) decoded =
    (upTo rest 2).bind fun hex =>
      match fromStrRadix16 hex with
      | some byte => decodeAt (seen ++ '%' :: hex) (rest.drop hex.length) (decoded ++ [byte])
      | none => decodeAt (seen ++ ['%']) rest (decoded ++ [0x25]) := by
  obtain ⟨within, here⟩ := @byte_here seen rest '%' (by decide)
  have ahead : byteLen seen + 2 < (encode (seen ++ '%' :: rest)).length := by
    rw [length_encode, byteLen_append, byteLen_cons]
    show _ < _ + (1 + _)
    omega
  have sliced : ByteText.slice (seen ++ '%' :: rest) (byteLen seen + 1) (byteLen seen + 3) =
      upTo rest 2 := by
    have behind := slice_behind (seen ++ ['%']) rest 2
    rwa [byteLen_append, List.append_assoc] at behind
  rw [decodeAt, decodeLoop, if_pos within, here, Option.bind_eq_bind, Option.bind_some,
    if_pos ⟨rfl, ahead⟩, sliced]
  cases cut : upTo rest 2 with
  | none => rfl
  | some hex =>
      obtain ⟨⟨front, back⟩, parts, rfl⟩ := Option.map_eq_some_iff.1 cut
      obtain ⟨rfl, two⟩ := splitAt_some parts
      have literal : decodeAt (seen ++ ['%']) (front ++ back) (decoded ++ [0x25]) =
          decodeLoop (seen ++ '%' :: (front ++ back)) (byteLen seen + 1) (decoded ++ [0x25]) := by
        rw [decodeAt, byteLen_append, List.append_assoc]
        rfl
      have escaped : ∀ byte, decodeAt (seen ++ '%' :: front) back (decoded ++ [byte]) =
          decodeLoop (seen ++ '%' :: (front ++ back)) (byteLen seen + 3) (decoded ++ [byte]) := by
        intro byte
        rw [decodeAt, byteLen_append, byteLen_cons, two, List.append_assoc]
        rfl
      simp only [Option.bind_some, Option.bind_eq_bind, List.drop_left, literal, escaped]
      rfl

end DecodeAt

/-! ## Where the decoder panics -/

section Cuts

variable {rest : List Char}

/-- Two bytes behind a `%` of the value is the inside of a character. -/
def CutsCharacter (value : List Char) : Prop :=
  ∃ front rest, value = front ++ '%' :: rest ∧ 2 ≤ byteLen rest ∧ ¬IsBoundary rest 2

theorem not_cuts_nil : ¬CutsCharacter [] := by
  rintro ⟨front, rest, whole, -⟩
  simp at whole

theorem cuts_cons {c : Char} : CutsCharacter (c :: rest) ↔
    (c = '%' ∧ 2 ≤ byteLen rest ∧ ¬IsBoundary rest 2) ∨ CutsCharacter rest := by
  constructor
  · rintro ⟨front, behind, whole, cut⟩
    cases front with
    | nil =>
        obtain ⟨rfl, rfl⟩ := List.cons.inj whole
        exact .inl ⟨rfl, cut⟩
    | cons first front =>
        obtain ⟨-, rfl⟩ := List.cons.inj whole
        exact .inr ⟨front, behind, rfl, cut⟩
  · rintro (⟨rfl, cut⟩ | ⟨front, behind, rfl, cut⟩)
    · exact ⟨[], rest, rfl, cut⟩
    · exact ⟨c :: front, behind, rfl, cut⟩

theorem cuts_cons_other {c : Char} (notEscape : c ≠ '%') :
    CutsCharacter (c :: rest) ↔ CutsCharacter rest := by
  rw [cuts_cons]
  simp [notEscape]

theorem cuts_append {front : List Char} (plain : '%' ∉ front) :
    CutsCharacter (front ++ rest) ↔ CutsCharacter rest := by
  induction front with
  | nil => rfl
  | cons c front ih =>
      rw [List.mem_cons, not_or] at plain
      rw [List.cons_append, cuts_cons_other (Ne.symm plain.1), ih plain.2]

theorem readHex_digits {value : Nat} {digits : List Char} {byte : UInt8}
    (read : readHex value digits = some byte) : ∀ c ∈ digits, (hexValue c).isSome := by
  induction digits generalizing value with
  | nil => simp
  | cons c digits ih =>
      cases isDigit : hexValue c with
      | none => simp [readHex, isDigit] at read
      | some digit =>
          simp only [readHex, isDigit, Option.bind_eq_bind, Option.bind_some] at read
          split at read
          · intro other member
            rcases List.mem_cons.1 member with rfl | further
            · rw [isDigit]
              rfl
            · exact ih read other further
          · cases read

/-- What is read as a number has no `%` in it. -/
theorem fromStrRadix16_plain {hex : List Char} {byte : UInt8}
    (read : fromStrRadix16 hex = some byte) : '%' ∉ hex := by
  have notDigit : ¬(hexValue '%').isSome := by decide
  unfold fromStrRadix16 at read
  split at read
  · cases read
  · cases read
  · rename_i digits _
    intro member
    rcases List.mem_cons.1 member with isPlus | further
    · exact absurd isPlus (by decide)
    · exact notDigit (readHex_digits read _ further)
  · exact fun member => notDigit (readHex_digits read _ member)

/-- **What is decoded from a place on does not depend on what is behind it**, and it is
there unless a `%` cuts a character. -/
theorem decodeAt_bytes (rest : List Char) : ∃ bytes : Option (List UInt8),
    (bytes.isSome ↔ ¬CutsCharacter rest) ∧
      ∀ seen decoded, decodeAt seen rest decoded = bytes.map (decoded ++ ·) := by
  induction length : rest.length using Nat.strong_induction_on generalizing rest with
  | h length further =>
      subst length
      -- a place that only adds bytes leaves the rest to the induction
      have onward : ∀ (front behind : List Char) (added : List UInt8),
          behind.length < rest.length → (CutsCharacter rest ↔ CutsCharacter behind) →
          (∀ seen decoded, decodeAt seen rest decoded =
            decodeAt (seen ++ front) behind (decoded ++ added)) →
          ∃ bytes : Option (List UInt8), (bytes.isSome ↔ ¬CutsCharacter rest) ∧
            ∀ seen decoded, decodeAt seen rest decoded = bytes.map (decoded ++ ·) := by
        intro front behind added shorter same step
        obtain ⟨bytes, isSome, reads⟩ := further _ shorter behind rfl
        refine ⟨bytes.map (added ++ ·), ?_, ?_⟩
        · rw [Option.isSome_map, isSome, same]
        · intro seen decoded
          rw [step, reads, Option.map_map]
          exact congrArg (bytes.map ·) (funext fun more => List.append_assoc ..)
      cases rest with
      | nil =>
          refine ⟨some [], by simp [not_cuts_nil], ?_⟩
          intro seen decoded
          rw [decodeAt_nil, Option.map_some, List.append_nil]
      | cons c rest =>
          by_cases isEscape : c = '%'
          · subst isEscape
            by_cases enough : 2 ≤ byteLen rest
            · by_cases boundary : IsBoundary rest 2
              · have noCut : CutsCharacter ('%' :: rest) ↔ CutsCharacter rest := by
                  rw [cuts_cons]
                  simp [boundary]
                obtain ⟨hex, behind, rfl, two⟩ := boundary
                have cut : upTo (hex ++ behind) 2 = some hex := by rw [← two, upTo_append]
                cases read : fromStrRadix16 hex with
                | none =>
                    apply onward ['%'] (hex ++ behind) [0x25] (by simp) noCut
                    intro seen decoded
                    rw [decodeAt_escape enough, cut, Option.bind_some, read]
                | some byte =>
                    apply onward ('%' :: hex) behind [byte]
                      (by rw [List.length_cons, List.length_append]; omega)
                    · rw [noCut, cuts_append (fromStrRadix16_plain read)]
                    · intro seen decoded
                      rw [decodeAt_escape enough, cut, Option.bind_some, read]
                      dsimp only
                      rw [List.drop_left]
              · refine ⟨none, ?_, ?_⟩
                · have cuts : CutsCharacter ('%' :: rest) :=
                    cuts_cons.2 (.inl ⟨rfl, enough, boundary⟩)
                  simp [cuts]
                · intro seen decoded
                  rw [decodeAt_escape enough, upTo_none boundary]
                  rfl
            · apply onward ['%'] rest [0x25] (by simp)
              · rw [cuts_cons]
                simp [enough]
              · intro seen decoded
                exact decodeAt_short (by omega)
          · by_cases isPlus : c = '+'
            · subst isPlus
              exact onward ['+'] rest [0x20] (by simp) (cuts_cons_other isEscape)
                fun seen decoded => decodeAt_plus
            · exact onward [c] rest (String.utf8EncodeChar c) (by simp) (cuts_cons_other isEscape)
                fun seen decoded => decodeAt_other isEscape isPlus

/-- **A text is decoded unless a `%` of it cuts a character.** -/
theorem percentDecode_isSome_iff {value : List Char} :
    (percentDecode value).isSome ↔ ¬CutsCharacter value := by
  obtain ⟨bytes, isSome, reads⟩ := decodeAt_bytes value
  have whole : decodeLoop value 0 [] = bytes.map ([] ++ ·) := reads [] []
  rw [percentDecode, Option.isSome_map, whole, Option.isSome_map, isSome]

end Cuts

/-! ## Encoded URLs -/

theorem byte_of_unreserved {c : Char} (unreserved : isUnreserved c) :
    c ≠ '%' ∧ c ≠ '+' ∧ String.utf8EncodeChar c = [UInt8.ofNat c.toNat] := by
  refine ⟨?_, ?_, ByteStream.utf8EncodeChar_ascii (isUnreserved_lt unreserved)⟩
  · rintro rfl
    exact absurd unreserved (by decide)
  · rintro rfl
    exact absurd unreserved (by decide)

theorem fromStrRadix16_digits {high low : Char} {h l : Nat} (isHigh : hexValue high = some h)
    (isLow : hexValue low = some l) : fromStrRadix16 [high, low] = some (UInt8.ofNat (16 * h + l)) := by
  have notPlus : high ≠ '+' := by
    rintro rfl
    cases isHigh
  have highLt := hexValue_lt isHigh
  have lowLt := hexValue_lt isLow
  have first : 16 * 0 + h < 256 := by omega
  have second : 16 * (16 * 0 + h) + l < 256 := by omega
  have digits : fromStrRadix16 [high, low] = readHex 0 [high, low] := by
    unfold fromStrRadix16
    split
    · rename_i same
      cases same
    · rename_i same
      cases same
    · rename_i same
      exact absurd (List.cons.inj same).1 notPlus
    · rfl
  rw [digits, readHex, isHigh, Option.bind_eq_bind, Option.bind_some, if_pos first, readHex, isLow,
    Option.bind_eq_bind, Option.bind_some, if_pos second, readHex, Nat.mul_zero, Nat.zero_add]

/-- The loop of `percent_decode` reads escapes and unreserved characters. -/
def percentReader : PercentReader (Option (List UInt8)) where
  read := decodeAt
  plain := by
    intro seen rest decoded c unreserved
    obtain ⟨notEscape, notPlus, byte⟩ := byte_of_unreserved unreserved
    rw [decodeAt_other notEscape notPlus, byte]
  escape := by
    intro seen rest decoded high low h l isHigh isLow
    have highByte := (byte_of_unreserved (isUnreserved_of_hexValue isHigh)).2.2
    have lowByte := (byte_of_unreserved (isUnreserved_of_hexValue isLow)).2.2
    have two : byteLen [high, low] = 2 := by
      rw [← length_encode]
      show (String.utf8EncodeChar high ++ (String.utf8EncodeChar low ++ [])).length = 2
      rw [highByte, lowByte]
      rfl
    have cut : upTo ([high, low] ++ rest) 2 = some [high, low] := by rw [← two, upTo_append]
    have enough : 2 ≤ byteLen ([high, low] ++ rest) := by
      rw [byteLen_append]
      omega
    show decodeAt seen ('%' :: ([high, low] ++ rest)) decoded = _
    rw [decodeAt_escape enough, cut, Option.bind_some, fromStrRadix16_digits isHigh isLow]
    rfl

section Encoded

variable {vendor escaped : List Char}

theorem decodeLoop_encoded (encoded : PercentEncoded (encode vendor) escaped) (rest : List Char) :
    decodeLoop (escaped ++ rest) 0 [] = decodeAt escaped rest (encode vendor) := by
  have whole := percentReader.read_encoded encoded [] rest []
  exact whole

/-- **An encoded URL is decoded to the URL.** -/
theorem percentDecode_encoded (encoded : PercentEncoded (encode vendor) escaped) :
    percentDecode escaped = some vendor := by
  have whole := decodeLoop_encoded encoded []
  rw [List.append_nil, decodeAt_nil] at whole
  rw [percentDecode, whole, Option.map_some, fromUtf8Lossy_encode]

/-- A fragment behind it goes with it. -/
theorem percentDecode_fragment (encoded : PercentEncoded (encode vendor) escaped)
    (fragment : List Char) : percentDecode (escaped ++ '#' :: fragment) ≠ some vendor := by
  obtain ⟨bytes, -, reads⟩ := decodeAt_bytes fragment
  rw [percentDecode, decodeLoop_encoded encoded, decodeAt_other (by decide) (by decide), reads]
  cases bytes with
  | none => simp
  | some bytes =>
      have sign : String.utf8EncodeChar '#' = encode ['#'] := rfl
      intro same
      have longer := congrArg List.length (Option.some.inj same)
      rw [sign, ← encode_append, fromUtf8Lossy_encode_append] at longer
      simp only [List.length_append, List.length_singleton] at longer
      omega

end Encoded

/-! ## URLs of proxies -/

/-- The value to decode, where the URL is a proxy's that has one. -/
def wrappedValue (url : List Char) : Option (List Char) :=
  if ccrProxyPathMarkers.any fun marker => contains marker url then
    (splitOnce "?" url).bind fun parts => findMcpUrl (parts.2.splitOn '&')
  else none

theorem unwrapCcrProxyUrl_eq (url : List Char) : unwrapCcrProxyUrl url =
    match wrappedValue url with
    | some value => percentDecode value
    | none => some url := by
  rw [unwrapCcrProxyUrl, wrappedValue]
  by_cases marked : ccrProxyPathMarkers.any fun marker => contains marker url
  · rw [if_pos marked, if_pos marked]
    by_cases asked : '?' ∈ url
    · obtain ⟨before, query, rfl, absent⟩ := List.eq_append_cons_of_mem asked
      have behind : startingAt (before ++ '?' :: query) (byteLen before + 1) = some query := by
        have cut := startingAt_append (before ++ ['?']) query
        rwa [byteLen_append, List.append_assoc] at cut
      rw [find_append absent, splitOnce_first (by decide) absent]
      dsimp only [Option.bind_some]
      rw [behind, Option.bind_eq_bind, Option.bind_some]
    · rw [find_none.2 asked, splitOnce_absent (by decide) asked]
      rfl
  · rw [if_neg marked, if_neg marked]

/-- The name of a pair of a query. -/
def pairKey (pair : List Char) : List Char := (splitOnce "=" pair).elim pair Prod.fst

def mcpUrlPair (escaped : List Char) : List Char := "mcp_url=".toList ++ escaped

/-- A proxy's URL whose query has, among pairs with other keys, the URL of a vendor. -/
structure ProxyUrl (vendor : List Char) where
  path : List Char
  before : List (List Char)
  escaped : List Char
  after : List (List Char)
  fragment : Option (List Char)
  isPath : '?' ∉ path ∧ '#' ∉ path
  encoded : PercentEncoded (encode vendor) escaped
  others : ∀ pair ∈ before ++ after, '&' ∉ pair ∧ '#' ∉ pair ∧ pairKey pair ≠ "mcp_url".toList

namespace ProxyUrl

variable {vendor : List Char}

def query (proxy : ProxyUrl vendor) : List Char :=
  List.intercalate ['&'] (proxy.before ++ mcpUrlPair proxy.escaped :: proxy.after)

def fragmentText (proxy : ProxyUrl vendor) : List Char := proxy.fragment.elim [] ('#' :: ·)

def text (proxy : ProxyUrl vendor) : List Char :=
  proxy.path ++ '?' :: (proxy.query ++ proxy.fragmentText)

/-- It contains one of the markers of a proxy's path. -/
def Marked (proxy : ProxyUrl vendor) : Prop :=
  ccrProxyPathMarkers.any fun marker => contains marker proxy.text

/-- Nothing of the URL follows directly behind the parameter but another pair. -/
def Closed (proxy : ProxyUrl vendor) : Prop := proxy.after = [] → proxy.fragment = none

end ProxyUrl

theorem findMcpUrl_other {pair : List Char} (other : pairKey pair ≠ "mcp_url".toList)
    (rest : List (List Char)) : findMcpUrl (pair :: rest) = findMcpUrl rest := by
  rw [findMcpUrl]
  unfold pairKey at other
  cases cut : splitOnce "=" pair with
  | none => rfl
  | some parts =>
      rw [cut] at other
      exact if_neg other

theorem findMcpUrl_here (value : List Char) (rest : List (List Char)) :
    findMcpUrl (mcpUrlPair value :: rest) = some value := by
  have cut : splitOnce "=" (mcpUrlPair value) = some ("mcp_url".toList, value) :=
    @splitOnce_first "=" '=' (by decide) "mcp_url".toList (by decide) value
  rw [findMcpUrl, cut]
  exact if_pos rfl

/-- The first part of a text takes what stands before it without a separator. -/
theorem splitOn_behind {c : Char} {text tail first : List Char} {rest : List (List Char)}
    (absent : c ∉ text) (split : tail.splitOn c = first :: rest) :
    (text ++ tail).splitOn c = (text ++ first) :: rest := by
  induction text with
  | nil => exact split
  | cons other text ih =>
      rw [List.mem_cons, not_or] at absent
      rw [List.cons_append, List.splitOn_cons_eq_if_modifyHead, if_neg (by simp [Ne.symm absent.1]),
        ih absent.2]
      rfl

namespace ProxyUrl

variable {vendor : List Char}

theorem plain_pair (proxy : ProxyUrl vendor) : '&' ∉ mcpUrlPair proxy.escaped := by
  intro member
  rcases List.mem_append.1 member with inName | inValue
  · exact absurd inName (by decide)
  · exact proxy.encoded.not_mem (by decide) (by decide) inValue

/-- **The pair that is found is the vendor's**, and what stands directly behind it. -/
theorem findMcpUrl_query (proxy : ProxyUrl vendor) :
    (proxy.Closed → findMcpUrl ((proxy.query ++ proxy.fragmentText).splitOn '&') =
      some proxy.escaped) ∧
    (¬proxy.Closed → ∃ fragment,
      findMcpUrl ((proxy.query ++ proxy.fragmentText).splitOn '&') =
        some (proxy.escaped ++ '#' :: fragment)) := by
  have skip : ∀ before : List (List Char), (∀ pair ∈ before, pair ∈ proxy.before) →
      findMcpUrl ((List.intercalate ['&'] (before ++ mcpUrlPair proxy.escaped :: proxy.after) ++
        proxy.fragmentText).splitOn '&') =
      findMcpUrl ((List.intercalate ['&'] (mcpUrlPair proxy.escaped :: proxy.after) ++
        proxy.fragmentText).splitOn '&') := by
    intro before inside
    induction before with
    | nil => rfl
    | cons pair before ih =>
        obtain ⟨first, others⟩ := List.forall_mem_cons.1 inside
        obtain ⟨whole, -, other⟩ := proxy.others pair (List.mem_append_left _ first)
        rw [List.cons_append, List.intercalate_cons_of_ne_nil (by simp), List.append_assoc,
          List.append_assoc, List.singleton_append,
          List.splitOn_append_cons_self_of_not_mem whole, findMcpUrl_other other, ih others]
  rw [query, skip proxy.before fun pair member => member]
  have whole := proxy.plain_pair
  cases behind : proxy.after with
  | nil =>
      rw [List.intercalate_singleton]
      cases noted : proxy.fragment with
      | none =>
          have closed : proxy.Closed := fun _ => noted
          rw [fragmentText, noted, Option.elim_none, List.append_nil,
            List.splitOn_eq_singleton whole, findMcpUrl_here]
          exact ⟨fun _ => rfl, fun isOpen => absurd closed isOpen⟩
      | some fragment =>
          have isOpen : ¬proxy.Closed := by
            intro closed
            rw [closed behind] at noted
            cases noted
          obtain ⟨first, rest, split⟩ := List.exists_cons_of_ne_nil (List.splitOn_ne_nil '&' fragment)
          have cut : ('#' :: fragment).splitOn '&' = ('#' :: first) :: rest :=
            @splitOn_behind '&' ['#'] fragment first rest (by decide) split
          have joined : mcpUrlPair proxy.escaped ++ '#' :: first =
              mcpUrlPair (proxy.escaped ++ '#' :: first) := List.append_assoc ..
          rw [fragmentText, noted, Option.elim_some, splitOn_behind whole cut, joined,
            findMcpUrl_here]
          exact ⟨fun closed => absurd closed isOpen, fun _ => ⟨first, rfl⟩⟩
  | cons second more =>
      have closed : proxy.Closed := by
        intro nothing
        rw [behind] at nothing
        cases nothing
      rw [List.intercalate_cons_of_ne_nil (by simp), List.append_assoc, List.append_assoc,
        List.singleton_append, List.splitOn_append_cons_self_of_not_mem whole, findMcpUrl_here]
      exact ⟨fun _ => rfl, fun isOpen => absurd closed isOpen⟩

theorem wrappedValue_text (proxy : ProxyUrl vendor) (marked : proxy.Marked) :
    wrappedValue proxy.text =
      findMcpUrl ((proxy.query ++ proxy.fragmentText).splitOn '&') := by
  have isMarked : (ccrProxyPathMarkers.any fun marker => contains marker proxy.text) = true := marked
  rw [wrappedValue, if_pos isMarked, text, splitOnce_first (by decide) proxy.isPath.1]
  rfl

/-- **A proxy's URL is unwrapped to the vendor's exactly if it is closed.** -/
theorem unwrap_iff (proxy : ProxyUrl vendor) (marked : proxy.Marked) :
    unwrapCcrProxyUrl proxy.text = some vendor ↔ proxy.Closed := by
  rw [unwrapCcrProxyUrl_eq, proxy.wrappedValue_text marked]
  constructor
  · intro unwrapped
    by_contra isOpen
    obtain ⟨fragment, found⟩ := proxy.findMcpUrl_query.2 isOpen
    rw [found] at unwrapped
    exact percentDecode_fragment proxy.encoded fragment unwrapped
  · intro closed
    rw [proxy.findMcpUrl_query.1 closed]
    exact percentDecode_encoded proxy.encoded

end ProxyUrl

theorem unwrapCcrProxyUrl_isSome_iff {url : List Char} : (unwrapCcrProxyUrl url).isSome ↔
    ∀ value, wrappedValue url = some value → ¬CutsCharacter value := by
  rw [unwrapCcrProxyUrl_eq]
  cases wrappedValue url with
  | none => simp
  | some value => simp [percentDecode_isSome_iff]

end Openyak.Runtime.McpConfigs
