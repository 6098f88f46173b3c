/-
# Runtime.JsonRoundTrip -- what is rendered is parsed back

`syntaxOf` is the syntax `render` writes a value in: without blanks, with the named
escapes and `\u00xx` for the other control characters, strict and without surrogates.
So the parser, which reads every text of that kind, reads back the value.
-/
import Openyak.Runtime.JsonGrammar
import Openyak.Theory.Decimal

namespace Openyak.Runtime

open Openyak.Theory

set_option autoImplicit false

/-! ## Strings -/

theorem hexValue_hexDigits : ∀ n < 16, hexValue (hexDigits.getD n '0') = some n := by decide

/-- The digit of the four lowest bits. -/
def nibble (n : Nat) : HexDigit where
  char := hexDigits.getD (n % 16) '0'
  isHex := by rw [hexValue_hexDigits _ (Nat.mod_lt n (by decide))]; rfl

theorem nibble_value (n : Nat) : (nibble n).value = n % 16 := by
  have read := (nibble n).hexValue_eq
  rw [show (nibble n).char = hexDigits.getD (n % 16) '0' from rfl,
    hexValue_hexDigits _ (Nat.mod_lt n (by decide))] at read
  exact (Option.some.inj read).symm

/-- The item that a character is written as. -/
def itemOf (c : Char) : StringItem :=
  if isQuote : c = '"' then .named .quote
  else if isBackslash : c = '\\' then .named .backslash
  else if c = '\n' then .named .newline
  else if c = '\r' then .named .carriageReturn
  else if c = '\t' then .named .tab
  else if c = '\x08' then .named .backspace
  else if c = '\x0C' then .named .formFeed
  else if isControl c then
    .unicode (nibble (c.toNat >>> 12)) (nibble (c.toNat >>> 8)) (nibble (c.toNat >>> 4))
      (nibble (c.toNat >>> 0))
  else .plain c ⟨isQuote, isBackslash⟩

theorem itemOf_chars (c : Char) : (itemOf c).chars = renderChar c := by
  unfold itemOf renderChar
  repeat' split
  all_goals rfl

/-- A character below 2^16 from its four digits. -/
theorem hexUnit_nibbles {n : Nat} (small : n < 0x10000) :
    hexUnit (nibble (n >>> 12)) (nibble (n >>> 8)) (nibble (n >>> 4)) (nibble (n >>> 0)) = n := by
  simp only [hexUnit, nibble_value, Nat.shiftRight_eq_div_pow]
  omega

theorem isControl_small {c : Char} (control : isControl c = true) : c.toNat ≤ 0x9F := by
  simp only [isControl, Bool.or_eq_true, Bool.and_eq_true, decide_eq_true_eq] at control
  omega

theorem itemOf_spec (c : Char) : (itemOf c).char = c ∧ unpaired.item (itemOf c) = true ∧
    strict.item (itemOf c) = true := by
  unfold itemOf
  split
  · rename_i isQuote
    exact ⟨isQuote.symm, rfl, rfl⟩
  split
  · rename_i isBackslash
    exact ⟨isBackslash.symm, rfl, rfl⟩
  split
  · rename_i isNewline
    exact ⟨isNewline.symm, rfl, rfl⟩
  split
  · rename_i isReturn
    exact ⟨isReturn.symm, rfl, rfl⟩
  split
  · rename_i isTab
    exact ⟨isTab.symm, rfl, rfl⟩
  split
  · rename_i isBackspace
    exact ⟨isBackspace.symm, rfl, rfl⟩
  split
  · rename_i isFormFeed
    exact ⟨isFormFeed.symm, rfl, rfl⟩
  split
  · rename_i control
    have small := isControl_small control
    have unit := @hexUnit_nibbles c.toNat (by omega)
    refine ⟨?_, ?_, rfl⟩
    · have valid : c.toNat.isValidChar := Or.inl (by omega)
      simp only [StringItem.char, unit, if_pos valid, Char.ofNat_toNat]
    · simp only [unpaired, StringItem.isSurrogate, unit, Bool.not_eq_true', Bool.and_eq_false_iff,
        decide_eq_false_iff_not]
      omega
  · rename_i noControl
    refine ⟨rfl, rfl, ?_⟩
    simp only [isControl, Bool.or_eq_true, Bool.and_eq_true, decide_eq_true_eq] at noControl
    simp only [strict, StringItem.isRawControl, Bool.not_eq_true', decide_eq_false_iff_not]
    omega

def itemsOf (value : String) : List StringItem := value.toList.map itemOf

theorem itemsOf_all {check : TextCheck} (each : ∀ c, check.item (itemOf c) = true)
    (value : String) : (itemsOf value).all check.item = true := by
  rw [List.all_eq_true]
  intro item member
  obtain ⟨c, -, rfl⟩ := List.mem_map.1 member
  exact each c

theorem stringChars_itemsOf (value : String) : stringChars (itemsOf value) = renderString value := by
  have same : (itemsOf value).flatMap StringItem.chars = value.toList.flatMap renderChar := by
    rw [itemsOf, List.flatMap_map]
    exact congrArg (List.flatMap · value.toList) (funext itemOf_chars)
  rw [stringChars, renderString, same]

theorem stringValue_itemsOf (value : String) : stringValue (itemsOf value) = value := by
  have each : ∀ c, (itemOf c).char = c := fun c => (itemOf_spec c).1
  rw [stringValue, StringItem.decode_unpaired (itemsOf_all (fun c => (itemOf_spec c).2.1) value),
    itemsOf, List.map_map]
  simp [Function.comp_def, each]

/-! ## Numbers -/

def numeralOf (value : Int64) : Numeral where
  negative := value.toInt < 0
  digits := Nat.toDigits 10 value.toInt.natAbs
  nonempty := Nat.toDigits_ne_nil
  decimal c member := Nat.isDigit_of_mem_toDigits (by decide) (by decide) member

theorem numeralOf_chars (value : Int64) :
    (numeralOf value).chars = (toString value.toInt).toList := by
  rw [Decimal.toList_toString]
  by_cases negative : value.toInt < 0
  · simp [Numeral.chars, numeralOf, negative]
  · simp [Numeral.chars, numeralOf, negative]

theorem numeralOf_toInt (value : Int64) : (numeralOf value).toInt = value.toInt := by
  simp only [Numeral.toInt, numeralOf, Nat.ofDigitChars_ten_toDigits, decide_eq_true_eq]
  split <;> omega

theorem numeralOf_fits (value : Int64) : fitsI64 (numeralOf value).toInt = true := by
  have below := value.toInt_lt
  have above := value.le_toInt
  rw [numeralOf_toInt]
  simp only [fitsI64, Bool.and_eq_true, decide_eq_true_eq]
  exact ⟨above, below⟩

/-- No number is written with a leading zero. -/
theorem numeralOf_strict (value : Int64) : strict.numeral (numeralOf value) = true := by
  by_cases zero : value.toInt.natAbs = 0
  · simp [strict, Numeral.hasLeadingZero, numeralOf, zero]
  · have noZero := Decimal.head_toDigits (Nat.pos_of_ne_zero zero)
    simp [strict, Numeral.hasLeadingZero, numeralOf, noZero]

/-! ## Values -/

mutual

/-- The syntax that `render` writes. -/
def syntaxOf : JsonValue → JsonText
  | .null => .null
  | .bool value => .bool value
  | .number value => .number (numeralOf value)
  | .string value => .string (itemsOf value)
  | .array values => .array (elementsOf values)
  | .object entries => .object (membersOf entries)

def elementsOf : List JsonValue → ElementsText
  | [] => .close []
  | [value] => .last [] (syntaxOf value) []
  | value :: next :: rest => .more [] (syntaxOf value) [] (elementsOf (next :: rest))

def membersOf : {low : Option String} → JsonEntries Int64 low → MembersText
  | _, .nil => .close []
  | _, .cons key _ value .nil => .last [] (itemsOf key) [] [] (syntaxOf value) []
  | _, .cons key _ value (.cons next above held rest) =>
      .more [] (itemsOf key) [] [] (syntaxOf value) [] (membersOf (.cons next above held rest))

end

mutual

theorem syntaxOf_chars (value : JsonValue) : (syntaxOf value).chars = render value := by
  match value with
  | .null => rfl
  | .bool true => rfl
  | .bool false => rfl
  | .number value => exact numeralOf_chars value
  | .string value => exact stringChars_itemsOf value
  | .array values => exact congrArg ('[' :: ·) (elementsOf_chars values)
  | .object entries => exact congrArg ('{' :: ·) (membersOf_chars entries)

theorem elementsOf_chars (values : List JsonValue) : (elementsOf values).chars =
    List.intercalate [','] (renderValues values) ++ [']'] := by
  match values with
  | [] => rfl
  | [value] =>
      show (syntaxOf value).chars ++ [']'] = _
      rw [syntaxOf_chars value, renderValues, renderValues, List.intercalate_singleton]
  | value :: next :: rest =>
      show (syntaxOf value).chars ++ ',' :: (elementsOf (next :: rest)).chars = _
      simp only [syntaxOf_chars value, elementsOf_chars (next :: rest), renderValues,
        List.intercalate_cons_cons, List.append_assoc]
      rfl

theorem membersOf_chars {low : Option String} (entries : JsonEntries Int64 low) :
    (membersOf entries).chars = List.intercalate [','] (renderEntries entries) ++ ['}'] := by
  match entries with
  | .nil => rfl
  | .cons key _ value .nil =>
      show stringChars (itemsOf key) ++ ':' :: ((syntaxOf value).chars ++ ['}']) = _
      rw [syntaxOf_chars value, stringChars_itemsOf, renderEntries, renderEntries,
        List.intercalate_singleton]
      simp
  | .cons key _ value (.cons next above held rest) =>
      show stringChars (itemsOf key) ++ ':' :: ((syntaxOf value).chars ++
        ',' :: (membersOf (.cons next above held rest)).chars) = _
      simp only [syntaxOf_chars value, stringChars_itemsOf,
        membersOf_chars (.cons next above held rest), renderEntries, List.intercalate_cons_cons,
        List.append_assoc]
      rfl

end

mutual

theorem syntaxOf_value (value : JsonValue) : (syntaxOf value).value Int64.ofInt = value := by
  match value with
  | .null => rfl
  | .bool value => rfl
  | .number value =>
      show JsonTree.number (Int64.ofInt (numeralOf value).toInt) = _
      rw [numeralOf_toInt, Int64.ofInt_toInt]
  | .string value => exact congrArg JsonTree.string (stringValue_itemsOf value)
  | .array values => exact congrArg JsonTree.array (elementsOf_values values)
  | .object entries =>
      show JsonTree.object (.ofMembers ((membersOf entries).members Int64.ofInt)) = _
      rw [membersOf_members, JsonEntries.ofMembers_toList]

theorem elementsOf_values (values : List JsonValue) :
    (elementsOf values).values Int64.ofInt = values := by
  match values with
  | [] => rfl
  | [value] => exact congrArg (fun value => [value]) (syntaxOf_value value)
  | value :: next :: rest =>
      exact congrArg₂ List.cons (syntaxOf_value value) (elementsOf_values (next :: rest))

theorem membersOf_members {low : Option String} (entries : JsonEntries Int64 low) :
    (membersOf entries).members Int64.ofInt = entries.toList := by
  match entries with
  | .nil => rfl
  | .cons key _ value .nil =>
      show [(stringValue (itemsOf key), (syntaxOf value).value Int64.ofInt)] = _
      rw [stringValue_itemsOf, syntaxOf_value value]
      rfl
  | .cons key _ value (.cons next above held rest) =>
      show (stringValue (itemsOf key), (syntaxOf value).value Int64.ofInt) ::
        (membersOf (.cons next above held rest)).members Int64.ofInt = _
      rw [stringValue_itemsOf, syntaxOf_value value, membersOf_members (.cons next above held rest)]
      rfl

end

/-- A check that each character and each number passes as it is rendered. -/
structure PassesRendered (check : TextCheck) : Prop where
  items : ∀ c, check.item (itemOf c) = true
  numerals : ∀ value, check.numeral (numeralOf value) = true

section Passes

variable {check : TextCheck}

mutual

/-- So does every value. -/
theorem syntaxOf_passes (each : PassesRendered check) (value : JsonValue) :
    (syntaxOf value).passes check = true := by
  match value with
  | .null => rfl
  | .bool value => rfl
  | .number value => exact each.numerals value
  | .string value => exact itemsOf_all each.items value
  | .array values => exact elementsOf_passes each values
  | .object entries => exact membersOf_passes each entries

theorem elementsOf_passes (each : PassesRendered check) (values : List JsonValue) :
    (elementsOf values).passes check = true := by
  match values with
  | [] => rfl
  | [value] => exact syntaxOf_passes each value
  | value :: next :: rest =>
      have goesOn : (elementsOf (next :: rest)).isClose = false := by
        cases rest <;> rfl
      simp [elementsOf, ElementsText.passes, syntaxOf_passes each value,
        elementsOf_passes each (next :: rest), goesOn]

theorem membersOf_passes (each : PassesRendered check) {low : Option String}
    (entries : JsonEntries Int64 low) : (membersOf entries).passes check = true := by
  match entries with
  | .nil => rfl
  | .cons key _ value .nil =>
      simp [membersOf, MembersText.passes, syntaxOf_passes each value, itemsOf_all each.items key]
  | .cons key _ value (.cons next above held rest) =>
      have goesOn : (membersOf (.cons next above held rest)).isClose = false := by
        cases rest <;> rfl
      simp [membersOf, MembersText.passes, syntaxOf_passes each value, itemsOf_all each.items key,
        membersOf_passes each (.cons next above held rest), goesOn]

end

end Passes

/-- The document that `render` writes. -/
def documentOf (value : JsonValue) : JsonDocument := ⟨[], syntaxOf value, []⟩

theorem documentOf_chars (value : JsonValue) : (documentOf value).chars = render value := by
  show (syntaxOf value).chars ++ [] = _
  rw [List.append_nil, syntaxOf_chars]

/-- **What is rendered is standard.** -/
theorem documentOf_strict (value : JsonValue) : (documentOf value).passes strict = true :=
  syntaxOf_passes ⟨fun c => (itemOf_spec c).2.2, numeralOf_strict⟩ value

theorem documentOf_unpaired (value : JsonValue) : (documentOf value).passes unpaired = true :=
  syntaxOf_passes ⟨fun c => (itemOf_spec c).2.1, fun _ => rfl⟩ value

theorem documentOf_bounded (value : JsonValue) :
    (documentOf value).passes (bounded fitsI64) = true :=
  syntaxOf_passes ⟨fun _ => rfl, numeralOf_fits⟩ value

theorem parse_of_render (value : JsonValue) : parse (render value) = .ok value := by
  refine parse_ok_iff.2 ⟨documentOf value, documentOf_chars value, ?_, syntaxOf_value value⟩
  rw [JsonDocument.isKnown, documentOf_unpaired, documentOf_bounded]
  rfl

/-- **What is rendered is parsed back**, for every value and for every value that a text
was parsed to. -/
theorem parse_render : (∀ value : JsonValue, parse (render value) = .ok value) ∧
    ∀ source value, parse source = .ok value → parse (render value) = .ok value :=
  ⟨parse_of_render, fun _ value _ => parse_of_render value⟩

end Openyak.Runtime
