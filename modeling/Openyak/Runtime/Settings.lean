/-
# Runtime.Settings -- settings files: how the runtime reads them, and `write_user_model`

The runtime reads settings with its own parser, whose numbers are the integers of an `i64`,
and writes them with `serde_json`, which also knows floating-point numbers.  `Writes` and
`Reads` say of `serde_json` that it writes and reads standard JSON.

`Survives` is what a writer owes the reader: the file is read again, the value stands
under its path, and off the path nothing changed.
-/
import Openyak.Runtime.JsonGrammar
import Openyak.Theory.Json
import Openyak.Theory.JsonWritten
import Openyak.Theory.Lines
import Openyak.Theory.JsonUnique
import Openyak.Theory.PathText

namespace Openyak.Runtime

open Openyak.Theory
open Openyak.Theory.Posix (Path Component)

set_option autoImplicit false

/-! ## Files -/

/-- What `fs::read_to_string` answers. -/
inductive FileRead where
  | text (contents : String)
  | notFound
  | failed (error : String)
  deriving DecidableEq, Repr

abbrev SettingsFiles := Path → FileRead

/-- How the calls that write go wrong, if they do, and what a file holds when its write
did. -/
structure Disk where
  createDirAll : Path → Option String
  write : Path → String → Option (String × FileRead)

namespace SettingsFiles

variable (files : SettingsFiles) (disk : Disk)

/-- `fs::write`. -/
def write (path : Path) (text : String) : SettingsFiles × Except String Unit :=
  match disk.write path text with
  | none => (Function.update files path (.text text), .ok ())
  | some (error, left) => (Function.update files path left, .error error)

theorem write_ok {path : Path} {text : String} {after : SettingsFiles}
    (written : files.write disk path text = (after, .ok ())) : after path = .text text := by
  rw [write] at written
  split at written
  · cases written
    exact Function.update_self ..
  · cases written

end SettingsFiles

/-! ## serde_json -/

abbrev SerdeValue := JsonTree Number
abbrev SerdeMap := JsonEntries Number none

/-- What the settings use of `serde_json`. -/
structure SettingsSerde where
  fromStr : String → Except String SerdeValue
  toStringPretty : SerdeMap → Except String String

/-- The number that `serde_json` holds for a numeral of an `i64`: `-0` is a floating-point
number. -/
def serdeNumber (numeral : Numeral) : Number :=
  if numeral.negative then
    if numeral.toInt = 0 then .float 0x8000000000000000 else .negInt (Int64.ofInt numeral.toInt)
  else .posInt (UInt64.ofInt numeral.toInt)

def isNegativeZero (numeral : Numeral) : Bool := numeral.negative && numeral.toInt = 0

def isInteger : Number → Bool
  | .float _ => false
  | _ => true

/-- An integer of an `i64`, or no integer. -/
def inRange : Number → Bool
  | .posInt value => value.toNat < 2 ^ 63
  | _ => true

/-- What the runtime reads where `serde_json` wrote an integer.  (A floating-point number
it does not read; of `-0` it read 0.) -/
def readNumber : Number → Int64
  | .posInt value => value.toInt64
  | .negInt value => value
  | .float _ => 0

/-- The integer as `serde_json` holds it. -/
def asNumber (value : Int64) : Number :=
  if value.toInt < 0 then .negInt value else .posInt value.toUInt64

theorem readNumber_serdeNumber (numeral : Numeral) :
    readNumber (serdeNumber numeral) = Int64.ofInt numeral.toInt := by
  rw [serdeNumber]
  split
  · split
    · rename_i zero
      rw [zero]
      rfl
    · rfl
  · show (UInt64.ofInt numeral.toInt).toInt64 = _
    rw [← Int64.toBitVec_inj]
    apply BitVec.eq_of_toNat_eq
    simp [UInt64.ofInt]
    omega

theorem isInteger_serdeNumber (numeral : Numeral) :
    isInteger (serdeNumber numeral) = !isNegativeZero numeral := by
  rw [serdeNumber, isNegativeZero]
  cases numeral.negative with
  | false => rfl
  | true =>
      by_cases zero : numeral.toInt = 0
      · simp [zero, isInteger]
      · simp [zero, isInteger]

theorem fits_serdeNumber {numeral : Numeral} (fits : fitsI64 numeral.toInt = true) :
    inRange (serdeNumber numeral) = true := by
  simp only [fitsI64, Bool.and_eq_true, decide_eq_true_eq] at fits
  rw [serdeNumber]
  cases negative : numeral.negative with
  | true =>
      by_cases zero : numeral.toInt = 0
      · simp [zero, inRange]
      · simp [zero, inRange]
  | false =>
      have notBelow : 0 ≤ numeral.toInt := by
        simp only [Numeral.toInt, negative, Bool.false_eq_true, if_false]
        omega
      simp [inRange, UInt64.ofInt]
      omega

/-- How it writes a number.  The floating-point numbers it holds are finite. -/
def serdeNumberText : Number → List Char → Prop
  | .posInt value, chars => ∃ numeral : Numeral, numeral.chars = chars ∧
      numeral.toInt = value.toNat
  | .negInt value, chars => ∃ numeral : Numeral, numeral.chars = chars ∧
      numeral.toInt = value.toInt
  | .float _, chars => IsFraction chars

/-- It writes no control characters as they are, and no surrogates. -/
def serdeItem (item : StringItem) : Bool := strict.item item && unpaired.item item

namespace SettingsSerde

variable (serde : SettingsSerde)

/-- **It reads standard JSON**: a text that it accepts, and whose numbers are integers of an
`i64`, as what the text denotes. -/
def Reads (contents : String) : Prop :=
  ∀ document : JsonDocument, document.chars = contents.toList →
    document.passes (bounded fitsI64) = true → ∀ value, serde.fromStr contents = .ok value →
      value = document.root.tree.map serdeNumber

/-- **It writes standard JSON.** -/
def Writes (entries : SerdeMap) : Prop :=
  ∀ text, serde.toStringPretty entries = .ok text →
    (JsonTree.object entries).WrittenAs serdeNumberText serdeItem text.toList

end SettingsSerde

/-! ## Reading -/

inductive ConfigError where
  | io (error : String)
  | parse (message : String)
  deriving DecidableEq, Repr

section Readers

-- `Path::display`: only the texts of errors depend on it.
variable (display : Path → String)

def notAnObject (path : Path) : ConfigError :=
  .parse (display path ++ ": top-level settings value must be a JSON object")

def readOptionalJsonObject (path : Path) (file : FileRead) :
    Except ConfigError (Option (JsonEntries Int64 none)) :=
  let isLegacyConfig := path.fileName = some ".openyak.json"
  match file with
  | .notFound => .ok none
  | .failed error => .error (.io error)
  | .text contents =>
      if Text.trim contents.toList = [] then .ok (some .nil)
      else
        match parse contents.toList with
        | .error error =>
            if isLegacyConfig then .ok none
            else .error (.parse (display path ++ ": " ++ error.message))
        | .ok parsed =>
            match asObject parsed with
            | some object => .ok (some object)
            | none => if isLegacyConfig then .ok none else .error (notAnObject display path)

def readOptionalSerdeJsonObject (serde : SettingsSerde) (path : Path) (file : FileRead) :
    Except ConfigError (Option SerdeMap) :=
  match file with
  | .notFound => .ok none
  | .failed error => .error (.io error)
  | .text contents =>
      if Text.trim contents.toList = [] then .ok (some .nil)
      else
        match serde.fromStr contents with
        | .error error => .error (.parse (display path ++ ": " ++ error))
        | .ok parsed =>
            match parsed.asObject? with
            | some object => .ok (some object)
            | none => .error (notAnObject display path)

end Readers

/-! ## Writing the model -/

structure ConfigLoader where
  cwd : Path
  configHome : Path

def ConfigLoader.userSettingsPath (loader : ConfigLoader) : Path :=
  loader.configHome.join (Path.ofText "settings.json")

theorem fileName_join (base : Path) (name : String) :
    (base.join ⟨false, [.name name]⟩).fileName = some name := by
  simp [Path.join, Path.fileName, Posix.dropCurrent, Component.fileName]

theorem current_userSettings (home : Path) :
    (home.join (Path.ofText "settings.json")).fileName ≠ some ".openyak.json" := by
  have isName : Path.ofText "settings.json" = ⟨false, [.name "settings.json"]⟩ := by decide
  rw [isName, fileName_join]
  decide

def ConfigLoader.writeUserModel (loader : ConfigLoader) (display : Path → String)
    (serde : SettingsSerde) (disk : Disk) (files : SettingsFiles) (model : String) :
    SettingsFiles × Except ConfigError Path :=
  let path := loader.userSettingsPath
  match readOptionalSerdeJsonObject display serde path (files path) with
  | .error error => (files, .error error)
  | .ok root =>
      match disk.createDirAll loader.configHome with
      | some error => (files, .error (.io error))
      | none =>
          match serde.toStringPretty ((root.getD .nil).insert "model" (.string model)) with
          | .error error => (files, .error (.parse (display path ++ ": " ++ error)))
          | .ok rendered =>
              match files.write disk path (rendered ++ "\n") with
              | (files, .error error) => (files, .error (.io error))
              | (files, .ok ()) => (files, .ok path)

/-! ## What a writer owes the reader -/

section Survives

variable (display : Path → String)

/-- **The file is read again**, with `reported` under the keys, and every path of keys that
neither leads there nor through there finds what it found. -/
def Survives (path : Path) (before after : FileRead) (keys : List String)
    (reported : SerdeValue) : Prop :=
  ∃ old new, readOptionalJsonObject display path before = .ok old ∧
    readOptionalJsonObject display path after = .ok (some new) ∧
    (∃ value, new.getPath keys = some value ∧ value.map asNumber = reported) ∧
    ∀ other, ¬other <+: keys → ¬keys <+: other →
      new.getPath other = (old.getD .nil).getPath other

/-- The numerals of a file that are not under the keys: none is `-0`. -/
def NoNegativeZeroOff (file : FileRead) (keys : List String) : Prop :=
  ∀ contents document entries, file = .text contents →
    JsonDocument.chars document = contents.toList → document.root.tree = .object entries →
    entries.allOff (fun numeral => !isNegativeZero numeral) keys = true

/-- The map that `serde_json` reads from a file, where it is blank an empty one. -/
def SerdeHolds (serde : SettingsSerde) (entries : SerdeMap) : FileRead → Prop
  | .notFound => entries = .nil
  | .failed _ => False
  | .text contents =>
      (Text.trim contents.toList = [] ∧ entries = .nil) ∨
        Text.trim contents.toList ≠ [] ∧ ∃ parsed, serde.fromStr contents = .ok parsed ∧
          parsed.asObject? = some entries

variable {display}

theorem solid_of_brace {chars : List Char} (inside : '{' ∈ chars) : Text.trim chars ≠ [] := by
  intro blank
  have white := Text.trimEnd_eq_nil.1 (Text.trim_eq_nil.1 blank) '{' inside
  exact absurd white (by decide)

theorem brace_mem {document : JsonDocument} {entries : JsonEntries Numeral none}
    (isObject : document.root.tree = .object entries) : '{' ∈ document.chars := by
  obtain ⟨before, root, after⟩ := document
  cases root with
  | object members => simp [JsonDocument.chars, JsonText.chars]
  | _ => cases isObject

/-- What `serde_json` and the runtime read from one file. -/
theorem holds_reads {serde : SettingsSerde} {path : Path} {file : FileRead} {entries : SerdeMap}
    {old : Option (JsonEntries Int64 none)} (current : path.fileName ≠ some ".openyak.json")
    (readable : readOptionalJsonObject display path file = .ok old)
    (holds : SerdeHolds serde entries file)
    (reads : ∀ contents, file = .text contents → serde.Reads contents) :
    entries.map readNumber = old.getD .nil ∧ entries.all inRange = true ∧
      ∀ keys, entries.allOff isInteger keys = true ↔ NoNegativeZeroOff file keys := by
  cases file with
  | failed error => exact holds.elim
  | notFound =>
      obtain rfl : entries = .nil := holds
      cases readable
      refine ⟨rfl, rfl, fun keys => ⟨fun _ contents document tree isText => (nomatch isText),
        fun _ => JsonEntries.allOff_nil isInteger keys⟩⟩
  | text contents =>
      rcases holds with ⟨blank, rfl⟩ | ⟨solid, parsed, accepted, isMap⟩
      · simp only [readOptionalJsonObject, blank, if_true] at readable
        cases readable
        refine ⟨rfl, rfl, fun keys => ⟨?_, fun _ => JsonEntries.allOff_nil isInteger keys⟩⟩
        rintro _ contents document tree ⟨⟩ isChars isObject
        exact absurd (isChars ▸ blank) (solid_of_brace (brace_mem isObject))
      · simp only [readOptionalJsonObject, solid, if_false, current] at readable
        cases reading : parse contents.toList with
        | error error =>
            rw [reading] at readable
            cases readable
        | ok value =>
            obtain ⟨document, isChars, known, rfl⟩ := parse_ok_iff.1 reading
            rw [JsonDocument.isKnown, Bool.and_eq_true] at known
            have isParsed := reads contents rfl document isChars known.2 parsed accepted
            rw [isParsed, JsonEntries.asObject?_map, Option.map_eq_some_iff] at isMap
            obtain ⟨tree, isObject, rfl⟩ := isMap
            have isTree : document.root.tree = .object tree := by
              cases root : document.root.tree with
              | object held =>
                  rw [root] at isObject
                  cases isObject
                  rfl
              | _ =>
                  rw [root] at isObject
                  cases isObject
            have isValue : document.value Int64.ofInt =
                .object (tree.map fun numeral => Int64.ofInt numeral.toInt) := by
              rw [JsonDocument.value, JsonText.value_eq, isTree]
              rfl
            rw [reading, isValue] at readable
            cases readable
            refine ⟨?_, ?_, fun keys => ?_⟩
            · rw [JsonEntries.map_map]
              exact congrArg (tree.map ·) (funext readNumber_serdeNumber)
            · have bounded_ := document.root.all_tree known.2
              rw [isTree] at bounded_
              rw [JsonEntries.all_map]
              exact JsonEntries.all_mono (fun numeral => fits_serdeNumber) bounded_
            · rw [JsonEntries.allOff_map]
              simp only [isInteger_serdeNumber]
              constructor
              · rintro all _ other others ⟨⟩ sameChars isOther
                cases JsonDocument.unique (sameChars.trans isChars.symm)
                rw [isTree] at isOther
                cases isOther
                exact all
              · exact fun none_ => none_ contents document tree rfl isChars isTree

theorem splitsNumbers : SplitsNumbers serdeNumberText isInteger where
  integers := by
    intro number chars written integer
    cases number with
    | posInt value => exact ⟨written.choose, written.choose_spec.1⟩
    | negInt value => exact ⟨written.choose, written.choose_spec.1⟩
    | float bits => cases integer
  fractions := by
    intro number chars written fraction
    cases number with
    | posInt value => cases fraction
    | negInt value => cases fraction
    | float bits => exact written

theorem writesIntegers {check : TextCheck} (items : ∀ item, serdeItem item = true → check.item item)
    (numerals : ∀ numeral : Numeral, fitsI64 numeral.toInt = true → check.numeral numeral = true) :
    WritesIntegers serdeNumberText serdeItem (fun number => isInteger number && inRange number)
      readNumber Int64.ofInt check where
  items := items
  numbers := by
    intro number chars written integer
    rw [Bool.and_eq_true] at integer
    cases number with
    | posInt value =>
        obtain ⟨numeral, isChars, isValue⟩ := written
        have small : value.toNat < 2 ^ 63 := of_decide_eq_true integer.2
        refine ⟨numeral, isChars, numerals numeral ?_, ?_⟩
        · simp only [fitsI64, isValue, Bool.and_eq_true, decide_eq_true_eq]
          omega
        · rw [isValue, readNumber, ← Int64.toBitVec_inj]
          apply BitVec.eq_of_toNat_eq
          simp
    | negInt value =>
        obtain ⟨numeral, isChars, isValue⟩ := written
        have below := value.toInt_lt
        have above := value.le_toInt
        refine ⟨numeral, isChars, numerals numeral ?_, ?_⟩
        · simp only [fitsI64, isValue, Bool.and_eq_true, decide_eq_true_eq]
          exact ⟨above, below⟩
        · rw [isValue, Int64.ofInt_toInt]
          rfl
    | float bits => cases integer.1

/-- What is written without floating-point numbers, the runtime reads. -/
theorem parse_written {entries : SerdeMap} {chars : List Char} (after : List Blank)
    (written : (JsonTree.object entries).WrittenAs serdeNumberText serdeItem chars)
    (fit : entries.all inRange = true) (integers : entries.all isInteger = true) :
    parse (chars ++ blankChars after) = .ok (.object (entries.map readNumber)) := by
  have all : (JsonTree.object entries).all (fun number => isInteger number && inRange number) = true := by
    show entries.all _ = true
    rw [JsonEntries.all_and, integers, fit, Bool.and_self]
  have unpairs : ∀ item, serdeItem item = true → unpaired.item item = true := by
    intro item allowed
    rw [serdeItem, Bool.and_eq_true] at allowed
    exact allowed.2
  obtain ⟨text, rfl, single, isValue⟩ := JsonTree.WrittenAs.exists_text
    (@writesIntegers unpaired unpairs fun _ _ => rfl) _ written all
  obtain ⟨other, same, fits, -⟩ := JsonTree.WrittenAs.exists_text
    (@writesIntegers (bounded fitsI64) (fun _ _ => rfl) fun _ fits => fits) _ written all
  have isOther : (⟨[], other, []⟩ : JsonDocument) = ⟨[], text, []⟩ :=
    JsonDocument.unique (congrArg (· ++ []) same)
  cases isOther
  refine parse_ok_iff.2 ⟨⟨[], text, after⟩, rfl, ?_, isValue⟩
  rw [JsonDocument.isKnown, Bool.and_eq_true]
  exact ⟨single, fits⟩

/-- The file that is read where a map without floating-point numbers was written. -/
theorem read_written {path : Path} {contents : String} {entries : SerdeMap} {chars : List Char}
    {after : List Blank}
    (written : (JsonTree.object entries).WrittenAs serdeNumberText serdeItem chars)
    (isContents : contents.toList = chars ++ blankChars after)
    (fit : entries.all inRange = true) (integers : entries.all isInteger = true) :
    readOptionalJsonObject display path (.text contents) = .ok (some (entries.map readNumber)) := by
  have solid : Text.trim contents.toList ≠ [] := by
    obtain ⟨inner, -, rfl⟩ := written
    exact solid_of_brace (by simp [isContents])
  have parsed := parse_written after written fit integers
  rw [← isContents] at parsed
  simp only [readOptionalJsonObject, solid, if_false, parsed]
  rfl

/-- **A written file survives exactly if the map that was written has no floating-point
number.** -/
theorem survives_iff {path : Path} {before : FileRead} {contents : String} {entries : SerdeMap}
    {old : Option (JsonEntries Int64 none)} {keys : List String} {value : SerdeValue}
    {chars : List Char} {after : List Blank}
    (current : path.fileName ≠ some ".openyak.json") (some_ : keys ≠ [])
    (readable : readOptionalJsonObject display path before = .ok old)
    (same : entries.map readNumber = old.getD .nil)
    (fit : (entries.setPath value keys).all inRange = true)
    (integral : value.all isInteger = true → (value.map readNumber).map asNumber = value)
    (written : (JsonTree.object (entries.setPath value keys)).WrittenAs serdeNumberText serdeItem
      chars) (isContents : contents.toList = chars ++ blankChars after) :
    Survives display path before (.text contents) keys value ↔
      (entries.setPath value keys).all isInteger = true := by
  have solid : Text.trim contents.toList ≠ [] := by
    obtain ⟨inner, -, rfl⟩ := written
    exact solid_of_brace (by simp [isContents])
  constructor
  · rintro ⟨_, new, -, reading, -, -⟩
    simp only [readOptionalJsonObject, solid, if_false, current] at reading
    cases parsed : parse contents.toList with
    | error error =>
        rw [parsed] at reading
        cases reading
    | ok value =>
        obtain ⟨document, isChars, -, -⟩ := parse_ok_iff.1 parsed
        exact JsonTree.WrittenAs.all_of_document splitsNumbers written (isChars.trans isContents)
  · intro integers
    refine ⟨old, (entries.setPath value keys).map readNumber, readable,
      read_written written isContents fit integers, ?_, ?_⟩
    · refine ⟨value.map readNumber, ?_, integral ?_⟩
      · rw [JsonEntries.getPath_map, JsonEntries.getPath_setPath value entries some_]
        rfl
      · rw [JsonEntries.all_setPath isInteger value entries some_, Bool.and_eq_true] at integers
        exact integers.2
    · intro other notAbove notBelow
      rw [JsonEntries.getPath_map, JsonEntries.getPath_setPath_other value entries notAbove notBelow,
        ← JsonEntries.getPath_map, same]

end Survives

end Openyak.Runtime
