/-
# Runtime.OAuthQuery -- the queries of an OAuth login, written and read

`build_url` writes the parameters of an authorization request percent-encoded behind its
endpoint; `parse_oauth_callback_input` and its siblings read the query that comes back.
The reader is a loop over the bytes of a key or a value that looks two bytes ahead of a
`%`; an index out of its bounds would be a panic, `none` here.  No input has one
(`percentDecode_total`, `parseOauthCallbackQuery_total`), and what is written is read
(`percentDecode_percentEncode`, `collectParams_written`).
-/
import Openyak.Theory.JoinedText
import Openyak.Theory.Lines
import Openyak.Theory.OrderedMap
import Openyak.Theory.PercentText
import Mathlib.Data.String.Basic

namespace Openyak.Runtime.OAuth

open Openyak.Theory
open Openyak.Theory.Text
open Openyak.Theory.Utf8Stream (encode)
open Openyak.Theory.ByteText (byteLen)

set_option autoImplicit false

inductive PkceChallengeMethod
  | s256
  deriving DecidableEq, Repr

def PkceChallengeMethod.asStr : PkceChallengeMethod → String
  | s256 => "S256"

structure OAuthAuthorizationRequest where
  authorizeUrl : String
  clientId : String
  redirectUri : String
  scopes : List String
  state : String
  codeChallenge : String
  codeChallengeMethod : PkceChallengeMethod
  extraParams : OrderedMap String String

structure OAuthCallbackParams where
  code : Option String
  state : Option String
  error : Option String
  errorDescription : Option String
  deriving DecidableEq, Repr

/-! ## Writing -/

/-- `{byte:02X}`. -/
def upperHex (byte : UInt8) : List Char :=
  [hexDigit (byte.toNat / 16), hexDigit (byte.toNat % 16)]

def percentEncode (value : List Char) : List Char :=
  (encode value).flatMap fun byte =>
    if (0x41 ≤ byte ∧ byte ≤ 0x5A) ∨ (0x61 ≤ byte ∧ byte ≤ 0x7A) ∨ (0x30 ≤ byte ∧ byte ≤ 0x39) ∨
        byte = 0x2D ∨ byte = 0x5F ∨ byte = 0x2E ∨ byte = 0x7E then
      [Char.ofNat byte.toNat]
    else '%' :: upperHex byte

def renderPair (pair : String × String) : List Char :=
  percentEncode pair.1.toList ++ '=' :: percentEncode pair.2.toList

def renderQuery (params : List (String × String)) : List Char :=
  List.intercalate ['&'] (params.map renderPair)

namespace OAuthAuthorizationRequest

def builtInParams (request : OAuthAuthorizationRequest) : List (String × String) :=
  [("response_type", "code"),
   ("client_id", request.clientId),
   ("redirect_uri", request.redirectUri),
   ("scope", " ".intercalate request.scopes),
   ("state", request.state),
   ("code_challenge", request.codeChallenge),
   ("code_challenge_method", request.codeChallengeMethod.asStr)]

def params (request : OAuthAuthorizationRequest) : List (String × String) :=
  request.builtInParams ++ request.extraParams.entries

def buildUrl (request : OAuthAuthorizationRequest) : List Char :=
  request.authorizeUrl.toList ++
    (if '?' ∈ request.authorizeUrl.toList then '&' else '?') :: renderQuery request.params

end OAuthAuthorizationRequest

/-! ## Reading -/

def decodeHex (byte : UInt8) : Except String UInt8 :=
  if 0x30 ≤ byte ∧ byte ≤ 0x39 then .ok (byte - 0x30)
  else if 0x61 ≤ byte ∧ byte ≤ 0x66 then .ok (byte - 0x61 + 10)
  else if 0x41 ≤ byte ∧ byte ≤ 0x46 then .ok (byte - 0x41 + 10)
  else .error s!"invalid percent-encoding byte: {byte.toNat}"

/-- The loop of `percent_decode` from `index` on. -/
def decodeLoop (bytes : List UInt8) (index : Nat) (decoded : List UInt8) :
    Option (Except String (List UInt8)) :=
  if index < bytes.length then do
    let byte ← bytes[index]?
    if byte = 0x25 ∧ index + 2 < bytes.length then
      match decodeHex (← bytes[index + 1]?) with
      | .error error => some (.error error)
      | .ok hi =>
          match decodeHex (← bytes[index + 2]?) with
          | .error error => some (.error error)
          | .ok lo => decodeLoop bytes (index + 3) (decoded ++ [hi <<< 4 ||| lo])
    else if byte = 0x2B then decodeLoop bytes (index + 1) (decoded ++ [0x20])
    else decodeLoop bytes (index + 1) (decoded ++ [byte])
  else some (.ok decoded)
termination_by bytes.length - index

def percentDecode (value : List Char) : Option (Except String (List Char)) :=
  (decodeLoop (encode value) 0 []).map fun decoded => decoded.bind stringFromUtf8

def splitPair (pair : List Char) : List Char × List Char :=
  (splitOnce "=" pair).getD (pair, [])

/-- The loop of `parse_oauth_callback_query` over the pairs. -/
def collectParams : List (List Char) → OrderedMap String String →
    Option (Except String (OrderedMap String String))
  | [], params => some (.ok params)
  | pair :: rest, params => do
      match ← percentDecode (splitPair pair).1 with
      | .error error => some (.error error)
      | .ok key =>
          match ← percentDecode (splitPair pair).2 with
          | .error error => some (.error error)
          | .ok value => collectParams rest (params.insert (String.ofList key) (String.ofList value))

def queryPairs (query : List Char) : List (List Char) :=
  (query.splitOn '&').filter fun pair => !pair.isEmpty

def OAuthCallbackParams.ofMap (params : OrderedMap String String) : OAuthCallbackParams where
  code := params.get "code"
  state := params.get "state"
  error := params.get "error"
  errorDescription := params.get "error_description"

def parseOauthCallbackQuery (query : List Char) : Option (Except String OAuthCallbackParams) :=
  (collectParams (queryPairs query) .empty).map fun params => params.map OAuthCallbackParams.ofMap

def parseOauthCallbackInput (input : List Char) : Option (Except String OAuthCallbackParams) :=
  if trim input = [] then some (.error "missing OAuth callback input")
  else
    match splitOnce "?" (trim input) with
    | some (_, query) => parseOauthCallbackQuery query
    | none =>
        if '=' ∈ trim input then parseOauthCallbackQuery (trim input)
        else some (.error "OAuth callback input must include a query string")

def parseOauthCallbackRequestTarget (target : List Char) :
    Option (Except String OAuthCallbackParams) :=
  let parts := (splitOnce "?" target).getD (target, [])
  if parts.1 ≠ "/callback".toList then
    some (.error s!"unexpected callback path: {String.ofList parts.1}")
  else parseOauthCallbackQuery parts.2

/-! ## No input panics -/

theorem getElem_isSome {bytes : List UInt8} {index : Nat} (within : index < bytes.length) :
    ∃ byte, bytes[index]? = some byte :=
  ⟨bytes[index], List.getElem?_eq_getElem within⟩

theorem decodeLoop_total (bytes : List UInt8) (index : Nat) (decoded : List UInt8) :
    (decodeLoop bytes index decoded).isSome := by
  induction left : bytes.length - index using Nat.strong_induction_on generalizing index decoded with
  | h left further =>
      subst left
      rw [decodeLoop]
      by_cases within : index < bytes.length
      · obtain ⟨byte, isByte⟩ := getElem_isSome within
        rw [if_pos within, isByte, Option.bind_eq_bind, Option.bind_some]
        by_cases escaped : byte = 0x25 ∧ index + 2 < bytes.length
        · obtain ⟨first, isFirst⟩ := getElem_isSome (show index + 1 < bytes.length by omega)
          obtain ⟨second, isSecond⟩ := getElem_isSome escaped.2
          rw [if_pos escaped, isFirst, isSecond]
          dsimp only [Option.bind_eq_bind, Option.bind_some]
          cases decodeHex first with
          | error _ => rfl
          | ok hi =>
              cases decodeHex second with
              | error _ => rfl
              | ok lo => exact further _ (by omega) _ _ rfl
        · rw [if_neg escaped]
          split
          · exact further _ (by omega) _ _ rfl
          · exact further _ (by omega) _ _ rfl
      · rw [if_neg within]
        rfl

theorem percentDecode_total (value : List Char) : (percentDecode value).isSome := by
  rw [percentDecode, Option.isSome_map]
  exact decodeLoop_total _ _ _

theorem collectParams_total (pairs : List (List Char)) (params : OrderedMap String String) :
    (collectParams pairs params).isSome := by
  induction pairs generalizing params with
  | nil => rfl
  | cons pair rest ih =>
      obtain ⟨key, isKey⟩ := Option.isSome_iff_exists.1 (percentDecode_total (splitPair pair).1)
      obtain ⟨value, isValue⟩ := Option.isSome_iff_exists.1 (percentDecode_total (splitPair pair).2)
      rw [collectParams, isKey, isValue]
      cases key with
      | error _ => rfl
      | ok key =>
          cases value with
          | error _ => rfl
          | ok value => exact ih _

theorem parseOauthCallbackQuery_total (query : List Char) :
    (parseOauthCallbackQuery query).isSome := by
  rw [parseOauthCallbackQuery, Option.isSome_map]
  exact collectParams_total _ _

theorem parseOauthCallbackInput_total (input : List Char) :
    (parseOauthCallbackInput input).isSome := by
  rw [parseOauthCallbackInput]
  split
  · rfl
  · split
    · exact parseOauthCallbackQuery_total _
    · split
      · exact parseOauthCallbackQuery_total _
      · rfl

theorem parseOauthCallbackRequestTarget_total (target : List Char) :
    (parseOauthCallbackRequestTarget target).isSome := by
  rw [parseOauthCallbackRequestTarget]
  split
  · rfl
  · exact parseOauthCallbackQuery_total _

/-! ## What is written is read -/

/-- The byte of an unreserved character is none the loop looks at. -/
theorem unreserved_byte {c : Char} (unreserved : isUnreserved c) :
    UInt8.ofNat c.toNat ≠ 0x25 ∧ UInt8.ofNat c.toNat ≠ 0x2B := by
  have all : ∀ code : Fin 128, isUnreserved (Char.ofNat code) →
      UInt8.ofNat code ≠ 0x25 ∧ UInt8.ofNat code ≠ 0x2B := by decide
  have held := all ⟨c.toNat, isUnreserved_lt unreserved⟩
  rw [Char.ofNat_toNat] at held
  exact held unreserved

theorem decodeHex_digit {c : Char} {value : Nat} (digit : hexValue c = some value) :
    decodeHex (UInt8.ofNat c.toNat) = .ok (UInt8.ofNat value) := by
  have all : ∀ code : Fin 128, ∀ value : Fin 16, hexValue (Char.ofNat code) = some value.val →
      (decodeHex (UInt8.ofNat code)).toOption = some (UInt8.ofNat value) := by decide
  have low := isUnreserved_lt (isUnreserved_of_hexValue digit)
  have held := all ⟨c.toNat, low⟩ ⟨value, hexValue_lt digit⟩
  rw [Char.ofNat_toNat] at held
  revert held
  cases decodeHex (UInt8.ofNat c.toNat) with
  | error _ => exact fun held => nomatch held digit
  | ok byte => exact fun held => congrArg Except.ok (Option.some.inj (held digit))

theorem joinHex {h l : Nat} (high : h < 16) (low : l < 16) :
    UInt8.ofNat h <<< 4 ||| UInt8.ofNat l = UInt8.ofNat (16 * h + l) := by
  have all : ∀ h l : Fin 16,
      UInt8.ofNat h <<< 4 ||| UInt8.ofNat l = UInt8.ofNat (16 * h + l) := by decide
  exact all ⟨h, high⟩ ⟨l, low⟩

/-- The loop of `percent_decode` reads escapes and unreserved characters. -/
def percentReader : PercentReader (Option (Except String (List UInt8))) where
  read seen rest decoded := decodeLoop (encode (seen ++ rest)) (byteLen seen) decoded
  plain := by
    intro seen rest decoded c unreserved
    have low := isUnreserved_lt unreserved
    obtain ⟨notEscape, notPlus⟩ := unreserved_byte unreserved
    have here := encode_getElem seen (c :: rest) 0
    rw [encode_cons_ascii low, Nat.add_zero, List.getElem?_cons_zero] at here
    have within := (List.getElem?_eq_some_iff.1 here).1
    rw [decodeLoop, if_pos within, here, Option.bind_eq_bind, Option.bind_some,
      if_neg (fun held => notEscape held.1), if_neg notPlus, byteLen_snoc_ascii low,
      List.append_assoc]
    rfl
  escape := by
    intro seen rest decoded high low h l isHigh isLow
    have highLow := isUnreserved_lt (isUnreserved_of_hexValue isHigh)
    have lowLow := isUnreserved_lt (isUnreserved_of_hexValue isLow)
    have bytes : encode ('%' :: high :: low :: rest) =
        0x25 :: UInt8.ofNat high.toNat :: UInt8.ofNat low.toNat :: encode rest := by
      rw [encode_cons_ascii (by decide), encode_cons_ascii highLow, encode_cons_ascii lowLow]
      rfl
    have here := encode_getElem seen ('%' :: high :: low :: rest)
    simp only [bytes] at here
    have first := here 0
    have second := here 1
    have third := here 2
    rw [Nat.add_zero, List.getElem?_cons_zero] at first
    rw [List.getElem?_cons_succ, List.getElem?_cons_zero] at second
    rw [List.getElem?_cons_succ, List.getElem?_cons_succ, List.getElem?_cons_zero] at third
    have within := (List.getElem?_eq_some_iff.1 first).1
    have ahead := (List.getElem?_eq_some_iff.1 third).1
    have behind : byteLen (seen ++ ['%', high, low]) = byteLen seen + 3 := by
      rw [show seen ++ ['%', high, low] = seen ++ ['%'] ++ [high] ++ [low] by simp,
        byteLen_snoc_ascii lowLow, byteLen_snoc_ascii highLow, byteLen_snoc_ascii (by decide)]
    rw [decodeLoop, if_pos within, first, Option.bind_eq_bind, Option.bind_some,
      if_pos ⟨rfl, ahead⟩, second, Option.bind_some, decodeHex_digit isHigh]
    dsimp only
    rw [third, Option.bind_some, decodeHex_digit isLow]
    dsimp only
    rw [joinHex (hexValue_lt isHigh) (hexValue_lt isLow), behind, List.append_assoc]
    rfl

/-- **The bytes of an encoded text are decoded from it.** -/
theorem percentDecode_encoded {text value : List Char} (encoded : PercentEncoded (encode text) value) :
    percentDecode value = some (.ok text) := by
  have whole := percentReader.read_encoded encoded [] [] []
  rw [List.append_nil, List.nil_append] at whole
  have decoded : decodeLoop (encode value) 0 [] = some (.ok (encode text)) := by
    refine whole.trans ?_
    show decodeLoop (encode (value ++ [])) (byteLen value) (encode text) = _
    rw [decodeLoop, List.append_nil, length_encode, if_neg (by omega)]
  rw [percentDecode, decoded]
  exact congrArg some (stringFromUtf8_encode text)

theorem percentEncode_encoded (value : List Char) :
    PercentEncoded (encode value) (percentEncode value) := by
  unfold percentEncode
  induction encode value with
  | nil => exact .nil
  | cons byte bytes ih =>
      have all : ∀ code : Fin 256, ((0x41 ≤ UInt8.ofNat code ∧ UInt8.ofNat code ≤ 0x5A) ∨
          (0x61 ≤ UInt8.ofNat code ∧ UInt8.ofNat code ≤ 0x7A) ∨
          (0x30 ≤ UInt8.ofNat code ∧ UInt8.ofNat code ≤ 0x39) ∨ UInt8.ofNat code = 0x2D ∨
          UInt8.ofNat code = 0x5F ∨ UInt8.ofNat code = 0x2E ∨ UInt8.ofNat code = 0x7E) ↔
          isUnreserved (Char.ofNat code) := by decide +kernel
      have same := all ⟨byte.toNat, byte.toNat_lt⟩
      rw [UInt8.ofNat_toNat] at same
      rw [List.flatMap_cons]
      by_cases unreserved : isUnreserved (Char.ofNat byte.toNat)
      · rw [if_pos (same.2 unreserved)]
        have plain := PercentEncoded.plain unreserved ih
        rwa [toNat_charOfByte, UInt8.ofNat_toNat] at plain
      · rw [if_neg (fun held => unreserved (same.1 held))]
        have below := byte.toNat_lt
        exact .escape unreserved (hexValue_hexDigit (by omega)) (hexValue_hexDigit (by omega)) ih

theorem percentDecode_percentEncode (value : List Char) :
    percentDecode (percentEncode value) = some (.ok value) :=
  percentDecode_encoded (percentEncode_encoded value)

section Pairs

variable {params : List (String × String)} {start : OrderedMap String String} {key value : String}

theorem not_mem_percentEncode {c : Char} (reserved : ¬isUnreserved c) (notEscape : c ≠ '%')
    (value : List Char) : c ∉ percentEncode value :=
  (percentEncode_encoded value).not_mem reserved notEscape

theorem splitPair_renderPair (pair : String × String) :
    splitPair (renderPair pair) = (percentEncode pair.1.toList, percentEncode pair.2.toList) := by
  have absent := not_mem_percentEncode (c := '=') (by decide) (by decide) pair.1.toList
  rw [splitPair, renderPair, splitOnce_first (by decide) absent]
  rfl

theorem not_mem_renderPair {c : Char} (reserved : ¬isUnreserved c) (notEscape : c ≠ '%')
    (notEquals : c ≠ '=') (pair : String × String) : c ∉ renderPair pair := by
  intro member
  rcases List.mem_append.1 member with inKey | behind
  · exact not_mem_percentEncode reserved notEscape _ inKey
  · rcases List.mem_cons.1 behind with isEquals | inValue
    · exact notEquals isEquals
    · exact not_mem_percentEncode reserved notEscape _ inValue

/-- **The pairs of a query that was written are those it was written from.** -/
theorem queryPairs_renderQuery (params : List (String × String)) :
    queryPairs (renderQuery params) = params.map renderPair := by
  have whole : ∀ pair ∈ params.map renderPair, (!pair.isEmpty) = true := by
    intro pair member
    obtain ⟨entry, -, rfl⟩ := List.mem_map.1 member
    simp [renderPair]
  cases params with
  | nil => rfl
  | cons first rest =>
      have apart : ∀ pair ∈ (first :: rest).map renderPair, '&' ∉ pair := by
        intro pair member
        obtain ⟨entry, -, rfl⟩ := List.mem_map.1 member
        exact not_mem_renderPair (by decide) (by decide) (by decide) entry
      rw [queryPairs, renderQuery, @List.splitOn_intercalate _ _ _ _ '&' apart (by simp)]
      exact List.filter_eq_self.2 whole

theorem collectParams_renderPair (params : List (String × String))
    (start : OrderedMap String String) :
    collectParams (params.map renderPair) start =
      some (.ok (params.foldl (fun map entry => map.insert entry.1 entry.2) start)) := by
  induction params generalizing start with
  | nil => rfl
  | cons first rest ih =>
      rw [List.map_cons, collectParams, splitPair_renderPair, percentDecode_percentEncode,
        percentDecode_percentEncode, Option.bind_eq_bind, Option.bind_some]
      dsimp only
      rw [Option.bind_some]
      dsimp only
      rw [String.ofList_toList, String.ofList_toList]
      exact ih _

theorem lookup_first {first : String × String} (isFirst : key = first.1) :
    (first :: params).lookup key = some first.2 := by
  rw [List.lookup_cons, beq_iff_eq.2 isFirst]

theorem lookup_later {first : String × String} (notFirst : key ≠ first.1) :
    (first :: params).lookup key = params.lookup key := by
  rw [List.lookup_cons, beq_false_of_ne notFirst]

theorem lookup_fresh (fresh : key ∉ params.map Prod.fst) : params.lookup key = none := by
  rw [List.lookup_eq_none_iff]
  intro entry member
  refine bne_iff_ne.2 fun same => ?_
  exact fresh (List.mem_map.2 ⟨entry, member, same.symm⟩)

theorem mem_iff_lookup (apart : (params.map Prod.fst).Nodup) :
    (key, value) ∈ params ↔ params.lookup key = some value := by
  induction params with
  | nil => simp
  | cons first rest ih =>
      obtain ⟨fresh, others⟩ := List.nodup_cons.1 apart
      rw [List.mem_cons]
      by_cases isFirst : key = first.1
      · have notLater : (key, value) ∉ rest :=
          fun member => fresh (List.mem_map.2 ⟨_, member, isFirst⟩)
        rw [lookup_first isFirst, Option.some.injEq]
        constructor
        · rintro (rfl | later)
          · rfl
          · exact absurd later notLater
        · rintro rfl
          exact .inl (Prod.ext isFirst rfl)
      · have notFirst : (key, value) ≠ first := fun same => isFirst (congrArg Prod.fst same)
        rw [lookup_later isFirst, ← ih others]
        simp [notFirst]

/-- Of keys that are distinct, each has the value it stands with. -/
theorem get_foldl_insert (apart : (params.map Prod.fst).Nodup) :
    (params.foldl (fun map entry => map.insert entry.1 entry.2) start).get key =
      (params.lookup key).or (start.get key) := by
  induction params generalizing start with
  | nil => rfl
  | cons first rest ih =>
      obtain ⟨fresh, others⟩ := List.nodup_cons.1 apart
      rw [List.foldl_cons, ih others]
      by_cases isFirst : key = first.1
      · rw [lookup_first isFirst, isFirst, lookup_fresh fresh, OrderedMap.get_insert]
        rfl
      · rw [lookup_later isFirst, OrderedMap.get_insert_other _ _ isFirst]

/-- The map of pairs: of a key that stands twice, the last value. -/
def ofPairs (params : List (String × String)) : OrderedMap String String :=
  params.foldl (fun map entry => map.insert entry.1 entry.2) .empty

theorem get_ofPairs (apart : (params.map Prod.fst).Nodup) :
    (ofPairs params).get key = params.lookup key := by
  rw [ofPairs, get_foldl_insert apart, OrderedMap.get_empty, Option.or_none]

theorem parseOauthCallbackQuery_renderQuery (params : List (String × String)) :
    parseOauthCallbackQuery (renderQuery params) =
      some (.ok (.ofMap (ofPairs params))) := by
  rw [parseOauthCallbackQuery, queryPairs_renderQuery, collectParams_renderPair]
  rfl

end Pairs

/-! ## The URL of an authorization request -/

section Url

variable {request : OAuthAuthorizationRequest}

/-- The names `build_url` writes itself. -/
def builtInNames : List String :=
  ["response_type", "client_id", "redirect_uri", "scope", "state", "code_challenge",
    "code_challenge_method"]

theorem params_nodup (fresh : ∀ key ∈ request.extraParams.keys, key ∉ builtInNames) :
    (request.params.map Prod.fst).Nodup := by
  have names : request.builtInParams.map Prod.fst = builtInNames := rfl
  have extra : request.extraParams.keys.Nodup := by
    refine List.pairwise_map.2 ?_
    exact request.extraParams.sorted.imp fun less => ne_of_lt less
  rw [OAuthAuthorizationRequest.params, List.map_append, names]
  refine List.nodup_append.2 ⟨by decide, extra, ?_⟩
  rintro key builtIn other isExtra rfl
  exact fresh key isExtra builtIn

theorem trimStart_append_solid {c : Char} (solid : ¬isWhitespace c) (text rest : List Char) :
    trimStart (text ++ c :: rest) = trimStart text ++ c :: rest := by
  unfold trimStart
  induction text with
  | nil => exact List.dropWhile_cons_of_neg solid
  | cons first text ih =>
      by_cases white : isWhitespace first
      · rw [List.cons_append, List.dropWhile_cons_of_pos white, List.dropWhile_cons_of_pos white, ih]
      · rw [List.cons_append, List.dropWhile_cons_of_neg white, List.dropWhile_cons_of_neg white]
        rfl

/-- No white space stands in a query that was written. -/
theorem renderQuery_solid (params : List (String × String)) :
    ∀ c ∈ renderQuery params, ¬isWhitespace c := by
  have signs : ∀ c, isUnreserved c ∨ c = '%' ∨ c = '=' ∨ c = '&' → ¬isWhitespace c := by
    intro c held
    have all : ∀ code : Fin 128, isUnreserved (Char.ofNat code) →
        ¬isWhitespace (Char.ofNat code) := by decide
    rcases held with unreserved | rfl | rfl | rfl
    · have solid := all ⟨c.toNat, isUnreserved_lt unreserved⟩
      rw [Char.ofNat_toNat] at solid
      exact solid unreserved
    all_goals decide
  have parts : ∀ pair : String × String, ∀ c ∈ renderPair pair, ¬isWhitespace c := by
    intro pair c member
    apply signs
    rcases List.mem_append.1 member with inKey | behind
    · have held := (percentEncode_encoded _).mem inKey
      exact held.imp_right Or.inl
    · rcases List.mem_cons.1 behind with isEquals | inValue
      · exact .inr (.inr (.inl isEquals))
      · have held := (percentEncode_encoded _).mem inValue
        exact held.imp_right Or.inl
  intro c member
  rcases JoinedText.mem_intercalate member with isSign | ⟨pair, isPair, inPair⟩
  · exact signs c (.inr (.inr (.inr isSign)))
  · obtain ⟨entry, -, rfl⟩ := List.mem_map.1 isPair
    exact parts entry c inPair

theorem trimEnd_of_solid {text : List Char} (solid : ∀ c ∈ text, ¬isWhitespace c) :
    trimEnd text = text := by
  obtain ⟨white, split, all⟩ := trimEnd_split text
  cases white with
  | nil => rw [List.append_nil] at split; exact split.symm
  | cons c white =>
      have inText : c ∈ text := by
        rw [split]
        exact List.mem_append_right _ List.mem_cons_self
      exact absurd (all c List.mem_cons_self) (solid c inText)

/-- **The query behind an endpoint that has none is the one written.** -/
theorem splitOnce_buildUrl (noQuery : '?' ∉ request.authorizeUrl.toList) :
    splitOnce "?" (trim request.buildUrl) =
      some (trimStart request.authorizeUrl.toList, renderQuery request.params) := by
  have solid : ¬isWhitespace '?' := by decide
  have absent : '?' ∉ trimStart request.authorizeUrl.toList :=
    fun member => noQuery ((List.dropWhile_suffix _).subset member)
  rw [trim, OAuthAuthorizationRequest.buildUrl, if_neg noQuery, trimStart_append_solid solid,
    trimEnd_append_cons solid, trimEnd_of_solid (renderQuery_solid request.params)]
  exact splitOnce_first (by decide) absent _

theorem parseOauthCallbackInput_of_query {input before query : List Char}
    (split : splitOnce "?" (trim input) = some (before, query)) :
    parseOauthCallbackInput input = parseOauthCallbackQuery query := by
  have some_ : trim input ≠ [] := by
    intro empty
    rw [empty] at split
    exact nomatch split
  rw [parseOauthCallbackInput, if_neg some_, split]

end Url

/-- **OAuth queries round-trip**: the answer to a query written from pairs has the values of
the four names it looks for; a reader of the URL of an authorization request collects the
request's parameters, each with its value, and no others; and no input panics. -/
theorem oauth_query_round_trips :
    (∀ pairs : List (String × String), (pairs.map Prod.fst).Nodup →
      parseOauthCallbackQuery (renderQuery pairs) =
        some (.ok {
          code := pairs.lookup "code"
          state := pairs.lookup "state"
          error := pairs.lookup "error"
          errorDescription := pairs.lookup "error_description" })) ∧
    (∀ request : OAuthAuthorizationRequest, '?' ∉ request.authorizeUrl.toList →
      '#' ∉ request.authorizeUrl.toList →
      (∀ key ∈ request.extraParams.keys, key ∉ builtInNames) →
      ∃ endpoint query params,
        splitOnce "?" (trim request.buildUrl) = some (endpoint, query) ∧
        collectParams (queryPairs query) .empty = some (.ok params) ∧
        (∀ key value, params.get key = some value ↔ (key, value) ∈ request.params) ∧
        parseOauthCallbackInput request.buildUrl = some (.ok (.ofMap params))) ∧
    ∀ text, (parseOauthCallbackQuery text).isSome ∧ (parseOauthCallbackInput text).isSome ∧
      (parseOauthCallbackRequestTarget text).isSome := by
  refine ⟨?_, ?_, fun text => ⟨parseOauthCallbackQuery_total text,
    parseOauthCallbackInput_total text, parseOauthCallbackRequestTarget_total text⟩⟩
  · intro pairs apart
    rw [parseOauthCallbackQuery_renderQuery, OAuthCallbackParams.ofMap, get_ofPairs apart,
      get_ofPairs apart, get_ofPairs apart, get_ofPairs apart]
  · intro request noQuery _ fresh
    have apart := params_nodup fresh
    have split := splitOnce_buildUrl noQuery
    refine ⟨_, _, ofPairs request.params, split, ?_, ?_, ?_⟩
    · rw [queryPairs_renderQuery]
      exact collectParams_renderPair _ _
    · intro key value
      rw [get_ofPairs apart]
      exact (mem_iff_lookup apart).symm
    · rw [parseOauthCallbackInput_of_query split]
      exact parseOauthCallbackQuery_renderQuery _

/-- The request of a login, with a code among its extra parameters. -/
def loginRequest : OAuthAuthorizationRequest where
  authorizeUrl := "https://example.test/authorize"
  clientId := "id"
  redirectUri := "http://localhost/callback?x=1&y=2"
  scopes := ["org:read", "user write"]
  state := "50% é"
  codeChallenge := "a+b"
  codeChallengeMethod := .s256
  extraParams := OrderedMap.empty.insert "code" "=="

theorem oauth_query_round_trips_login :
    parseOauthCallbackQuery (renderQuery [("code", "a b+"), ("state", "é=&%")]) =
      some (.ok ⟨some "a b+", some "é=&%", none, none⟩) ∧
    ∃ params, (∀ key value, params.get key = some value ↔ (key, value) ∈ loginRequest.params) ∧
      parseOauthCallbackInput loginRequest.buildUrl = some (.ok (.ofMap params)) := by
  refine ⟨oauth_query_round_trips.1 [("code", "a b+"), ("state", "é=&%")] (by decide), ?_⟩
  obtain ⟨_, _, params, _, _, held, parsed⟩ :=
    oauth_query_round_trips.2.1 loginRequest (by decide) (by decide) (by decide)
  exact ⟨params, held, parsed⟩

end Openyak.Runtime.OAuth
