/-
# Runtime.PlainSettings -- settings without numbers, written and read

A `serde_json` for maps in which no number stands.  It lays them out as `to_string_pretty`
does, and reads what the runtime's parser reads.  So it writes standard JSON
(`plainSerde_writes`) and reads it (`plainSerde_reads`), and it writes no numeral at all
(`plainSerde_unsigned`).
-/
import Openyak.Runtime.JsonRoundTrip
import Openyak.Runtime.Settings

namespace Openyak.Runtime

open Openyak.Theory

set_option autoImplicit false

/-- No number passes. -/
def noNumber {ν : Type} (_ : ν) : Bool := false

/-! ## Writing -/

def lineBlanks (indent : Nat) : List Blank := .newline :: List.replicate (2 * indent) .space

def closeLine (indent : Nat) (close : Char) : List Char := blankChars (lineBlanks indent) ++ [close]

mutual

/-- A value on a line that is indented so far.  Numbers are left out. -/
def prettyValue (indent : Nat) : SerdeValue → List Char
  | .null => ['n', 'u', 'l', 'l']
  | .bool true => ['t', 'r', 'u', 'e']
  | .bool false => ['f', 'a', 'l', 's', 'e']
  | .number _ => []
  | .string value => renderString value
  | .array [] => ['[', ']']
  | .array values => '[' :: prettyElements indent values
  | .object .nil => ['\x7b', '\x7d']
  | .object entries => '\x7b' :: prettyEntries indent entries

/-- The elements, one on each line, and what closes them. -/
def prettyElements (indent : Nat) : List SerdeValue → List Char
  | [] => closeLine indent ']'
  | [value] =>
      blankChars (lineBlanks (indent + 1)) ++ (prettyValue (indent + 1) value ++ closeLine indent ']')
  | value :: next :: rest =>
      blankChars (lineBlanks (indent + 1)) ++
        (prettyValue (indent + 1) value ++ ',' :: prettyElements indent (next :: rest))

def prettyEntries (indent : Nat) : {low : Option String} → JsonEntries Number low → List Char
  | _, .nil => closeLine indent '\x7d'
  | _, .cons key _ value .nil =>
      blankChars (lineBlanks (indent + 1)) ++ (renderString key ++ ':' :: ' ' ::
        (prettyValue (indent + 1) value ++ closeLine indent '\x7d'))
  | _, .cons key _ value (.cons next above held rest) =>
      blankChars (lineBlanks (indent + 1)) ++ (renderString key ++ ':' :: ' ' ::
        (prettyValue (indent + 1) value ++ ',' :: prettyEntries indent (.cons next above held rest)))

end

theorem itemsOf_serde (value : String) : (itemsOf value).all serdeItem = true := by
  refine List.all_eq_true.2 fun item member => ?_
  obtain ⟨c, -, rfl⟩ := List.mem_map.1 member
  rw [serdeItem, (itemOf_spec c).2.1, (itemOf_spec c).2.2, Bool.and_self]

mutual

theorem prettyValue_written (indent : Nat) (value : SerdeValue) (plain : value.all noNumber = true) :
    value.WrittenAs serdeNumberText serdeItem (prettyValue indent value) := by
  match value with
  | .null => exact rfl
  | .bool true => exact rfl
  | .bool false => exact rfl
  | .number number => cases plain
  | .string text =>
      exact ⟨itemsOf text, itemsOf_serde text, stringValue_itemsOf text,
        (stringChars_itemsOf text).symm⟩
  | .array [] => exact ⟨[']'], ⟨[], rfl⟩, rfl⟩
  | .array (first :: rest) =>
      exact ⟨_, prettyElements_written indent (first :: rest) (List.cons_ne_nil _ _) plain, rfl⟩
  | .object .nil => exact ⟨['\x7d'], ⟨[], rfl⟩, rfl⟩
  | .object (.cons key above held rest) =>
      exact ⟨_, prettyEntries_written indent (.cons key above held rest) nofun plain, rfl⟩
termination_by sizeOf value

theorem prettyElements_written (indent : Nat) (values : List SerdeValue) (some_ : values ≠ [])
    (plain : JsonTree.allValues noNumber values = true) :
    JsonTree.ElementsWrittenAs serdeNumberText serdeItem values (prettyElements indent values) := by
  match values with
  | [] => exact absurd rfl some_
  | [value] =>
      have written := prettyValue_written (indent + 1) value (Bool.and_eq_true_iff.1 plain).1
      exact ⟨lineBlanks (indent + 1), lineBlanks indent, _, [']'], written, rfl, rfl⟩
  | value :: next :: rest =>
      obtain ⟨own, others⟩ := Bool.and_eq_true_iff.1 plain
      have written := prettyValue_written (indent + 1) value own
      exact ⟨lineBlanks (indent + 1), [], _, _, written,
        ⟨_, prettyElements_written indent (next :: rest) (List.cons_ne_nil _ _) others, rfl⟩, rfl⟩
termination_by sizeOf values

theorem prettyEntries_written {low : Option String} (indent : Nat) (entries : JsonEntries Number low)
    (some_ : entries ≠ .nil) (plain : entries.all noNumber = true) :
    entries.WrittenAs serdeNumberText serdeItem (prettyEntries indent entries) := by
  match entries with
  | .nil => exact absurd rfl some_
  | .cons key above value .nil =>
      have written := prettyValue_written (indent + 1) value (Bool.and_eq_true_iff.1 plain).1
      refine ⟨lineBlanks (indent + 1), itemsOf key, [], [.space], lineBlanks indent, _, ['\x7d'], written,
        itemsOf_serde key, stringValue_itemsOf key, rfl, ?_⟩
      rw [stringChars_itemsOf, prettyEntries]
      rfl
  | .cons key above value (.cons next nextAbove held rest) =>
      obtain ⟨own, others⟩ := Bool.and_eq_true_iff.1 plain
      have written := prettyValue_written (indent + 1) value own
      refine ⟨lineBlanks (indent + 1), itemsOf key, [], [.space], [], _, _, written, itemsOf_serde key,
        stringValue_itemsOf key,
        ⟨_, prettyEntries_written indent (.cons next nextAbove held rest) nofun others, rfl⟩, ?_⟩
      rw [stringChars_itemsOf, prettyEntries]
      rfl
termination_by sizeOf entries

end

/-! ## The parser and the printer -/

def plainToStringPretty (entries : SerdeMap) : Except String String :=
  if entries.all noNumber then .ok (String.ofList (prettyValue 0 (.object entries)))
  else .error "number"

def plainFromStr (contents : String) : Except String SerdeValue :=
  match parse contents.toList with
  | .error error => .error error.message
  | .ok value => if value.all noNumber then .ok (value.map asNumber) else .error "number"

def plainSerde : SettingsSerde := ⟨plainFromStr, plainToStringPretty⟩

theorem plainToString_ok {entries : SerdeMap} {text : String}
    (rendered : plainSerde.toStringPretty entries = .ok text) :
    entries.all noNumber = true ∧ text = String.ofList (prettyValue 0 (.object entries)) := by
  simp only [plainSerde, plainToStringPretty] at rendered
  split at rendered
  · rename_i plain
    exact ⟨plain, (Except.ok.inj rendered).symm⟩
  · cases rendered

theorem plainSerde_writes (entries : SerdeMap) : plainSerde.Writes entries := by
  intro text rendered
  obtain ⟨plain, rfl⟩ := plainToString_ok rendered
  rw [String.toList_ofList]
  exact prettyValue_written 0 (.object entries) plain

theorem plainSerde_reads (contents : String) : plainSerde.Reads contents := by
  intro document isChars _ value accepted
  simp only [plainSerde, plainFromStr] at accepted
  cases parsed : parse contents.toList with
  | error error =>
      rw [parsed] at accepted
      cases accepted
  | ok held =>
      rw [parsed] at accepted
      obtain ⟨other, isOther, -, rfl⟩ := parse_ok_iff.1 parsed
      cases JsonDocument.unique (isOther.trans isChars.symm)
      dsimp only at accepted
      split at accepted
      · rename_i plain
        cases accepted
        rw [JsonDocument.value, JsonText.value_eq, JsonTree.all_map] at plain
        rw [JsonDocument.value, JsonText.value_eq, JsonTree.map_map]
        exact JsonTree.map_eq_of_all (fun _ same => by cases same) plain
      · cases accepted

/-- Where it writes anything, there is no numeral. -/
theorem plainSerde_unsigned (entries : SerdeMap) (text : String)
    (rendered : plainSerde.toStringPretty entries = .ok text) : NoNegativeZeroOff (.text text) [] := by
  rintro _ document tree ⟨⟩ isChars isObject
  obtain ⟨plain, isText⟩ := plainToString_ok rendered
  have written := plainSerde_writes entries text rendered
  have parsed := parse_written [] written (JsonEntries.all_mono (fun _ same => by cases same) plain)
    (JsonEntries.all_mono (fun _ same => by cases same) plain)
  obtain ⟨other, isOther, -, isValue⟩ := parse_ok_iff.1 parsed
  cases JsonDocument.unique (isOther.trans ((List.append_nil _).trans isChars.symm))
  rw [JsonDocument.value, JsonText.value_eq, isObject] at isValue
  have same : tree.map (fun numeral => Int64.ofInt numeral.toInt) = entries.map readNumber :=
    JsonTree.object.inj isValue
  have none_ : (tree.map fun numeral => Int64.ofInt numeral.toInt).all noNumber = true := by
    rw [same, JsonEntries.all_map]
    exact plain
  rw [JsonEntries.all_map] at none_
  exact JsonEntries.all_mono (fun _ same => by cases same) none_

end Openyak.Runtime
