/-
# Tools.SettingsSurvive -- when a written settings file is read again

A floating-point number in the file and the runtime reads none of it any more.  Two of the
writers' inputs put one there: a finite number as the value of a setting that takes any
string, and a `-0` that the file held already.
-/
import Openyak.Runtime.JsonRoundTrip
import Openyak.Tools.ConfigTool

namespace Openyak.Tools

open Openyak.Theory
open Openyak.Theory.Posix (Path Component)
open Openyak.Runtime

set_option autoImplicit false

/-! ## The value -/

theorem checkOptions_ok {options : List String} {value normalized : SerdeValue}
    (checked : checkOptions options value = .ok normalized) :
    normalized = value ∧ ∃ text, value = .string text := by
  rw [checkOptions] at checked
  cases value with
  | string text =>
      simp only [asStr?] at checked
      split at checked
      · cases checked
        exact ⟨rfl, text, rfl⟩
      · cases checked
  | _ => cases checked

/-- A value without a finite number is what it was as a value of the runtime's. -/
def Kept (value : SerdeValue) (input : ConfigValue) : Prop :=
  value.all inRange = true ∧
    (value.all isInteger = true → (value.map readNumber).map asNumber = value) ∧
    (value.all isInteger = true ↔ ∀ bits, input = .number bits → isFinite bits = false)

theorem valueOfKind_kept {kind : ConfigKind} {input : ConfigValue} {value : SerdeValue}
    (held : valueOfKind kind input = .ok value) : Kept value input := by
  have plain : ∀ {value : SerdeValue}, (∀ bits, input ≠ .number bits) → value.all inRange = true →
      value.all isInteger = true → (value.map readNumber).map asNumber = value →
      Kept value input := by
    intro value noNumber range integer same
    exact ⟨range, fun _ => same, fun _ bits isNumber => absurd isNumber (noNumber bits),
      fun _ => integer⟩
  cases kind with
  | boolean =>
      cases input with
      | string text =>
          simp only [valueOfKind] at held
          split at held
          · cases held
            exact plain nofun rfl rfl rfl
          · split at held
            · cases held
              exact plain nofun rfl rfl rfl
            · cases held
      | bool flag =>
          cases held
          exact plain nofun rfl rfl rfl
      | number bits => cases held
  | string =>
      cases input with
      | string text =>
          cases held
          exact plain nofun rfl rfl rfl
      | bool flag =>
          cases held
          exact plain nofun rfl rfl rfl
      | number bits =>
          cases held
          rw [jsonOfFloat]
          cases finite : isFinite bits with
          | true =>
              refine ⟨rfl, nofun, nofun, fun none_ => ?_⟩
              exact nomatch finite.symm.trans (none_ bits rfl)
          | false =>
              refine ⟨rfl, fun _ => rfl, fun _ other isNumber => ?_, fun _ => rfl⟩
              cases isNumber
              exact finite

theorem normalizeConfigValue_kept {spec : ConfigSettingSpec} {input : ConfigValue}
    {value : SerdeValue} (normalized : normalizeConfigValue spec input = .ok value) :
    Kept value input := by
  rw [normalizeConfigValue] at normalized
  cases held : valueOfKind spec.kind input with
  | error error =>
      rw [held] at normalized
      cases normalized
  | ok before =>
      have kept := valueOfKind_kept held
      simp only [held] at normalized
      cases options : spec.options with
      | none =>
          rw [options] at normalized
          cases normalized
          exact kept
      | some options =>
          rw [options] at normalized
          obtain ⟨rfl, -⟩ := checkOptions_ok normalized
          exact kept

/-! ## The files -/

theorem configFileForScope_current {place : ConfigPlace} {scope : ConfigScope} {path : Path}
    (found : configFileForScope place scope = .ok path) :
    path.fileName ≠ some ".openyak.json" := by
  rw [configFileForScope] at found
  cases here : place.cwd with
  | error error =>
      rw [here] at found
      cases found
  | ok cwd =>
      rw [here] at found
      cases scope with
      | global =>
          cases found
          exact current_userSettings place.configHome
      | settings =>
          cases found
          have isName : Path.ofText "settings.local.json" =
              ⟨false, [.name "settings.local.json"]⟩ := by decide
          rw [isName, fileName_join]
          decide

theorem readJsonObject_holds {serde : SettingsSerde} {file : FileRead} {entries : SerdeMap}
    (read : readJsonObject serde file = .ok entries) : SerdeHolds serde entries file := by
  cases file with
  | notFound =>
      cases read
      rfl
  | failed error => cases read
  | text contents =>
      simp only [readJsonObject] at read
      split at read
      · rename_i blank
        cases read
        exact Or.inl ⟨blank, rfl⟩
      · rename_i solid
        split at read
        · cases read
        · rename_i parsed accepted
          split at read
          · rename_i object isMap
            cases read
            exact Or.inr ⟨solid, parsed, accepted, isMap⟩
          · cases read

theorem readOptionalSerde_holds {display : Path → String} {serde : SettingsSerde} {path : Path}
    {file : FileRead} {root : Option SerdeMap}
    (read : readOptionalSerdeJsonObject display serde path file = .ok root) :
    SerdeHolds serde (root.getD .nil) file := by
  cases file with
  | notFound =>
      cases read
      rfl
  | failed error => cases read
  | text contents =>
      simp only [readOptionalSerdeJsonObject] at read
      split at read
      · rename_i blank
        cases read
        exact Or.inl ⟨blank, rfl⟩
      · rename_i solid
        split at read
        · cases read
        · rename_i parsed accepted
          split at read
          · rename_i object isMap
            cases read
            exact Or.inr ⟨solid, parsed, accepted, isMap⟩
          · cases read

theorem writeJsonObject_ok {serde : SettingsSerde} {disk : Disk} {files after : SettingsFiles}
    {path : Path} {value : SerdeMap}
    (written : writeJsonObject serde disk files path value = (after, .ok ())) :
    ∃ text, serde.toStringPretty value = .ok text ∧ after path = .text text := by
  rw [writeJsonObject] at written
  split at written
  · cases written
  · split at written
    · cases written
    · rename_i text isText
      exact ⟨text, isText, files.write_ok disk written⟩

/-- What a successful set did. -/
structure HasSet (serde : SettingsSerde) (place : ConfigPlace) (files : SettingsFiles)
    (setting : String) (input : ConfigValue) (after : SettingsFiles) (output : ConfigOutput)
    (spec : ConfigSettingSpec) (path : Path) (document : SerdeMap) (normalized : SerdeValue)
    (text : String) : Prop where
  supported : supportedConfigSetting (String.ofList (Text.trim setting.toList)) = some spec
  file : configFileForScope place spec.scope = .ok path
  read : readJsonObject serde (files path) = .ok document
  value : normalizeConfigValue spec input = .ok normalized
  rendered : serde.toStringPretty (setNestedValue document spec.path normalized) = .ok text
  written : after path = .text text
  reported : output.value = some normalized

theorem executeConfig_set {serde : SettingsSerde} {disk : Disk} {place : ConfigPlace}
    {files after : SettingsFiles} {setting : String} {input : ConfigValue} {output : ConfigOutput}
    (ran : executeConfig serde disk place files ⟨setting, some input⟩ = (after, .ok output))
    (success : output.success = true) : ∃ spec path document normalized text,
      HasSet serde place files setting input after output spec path document normalized text := by
  simp only [executeConfig] at ran
  split at ran
  · cases ran
  split at ran
  · cases ran
    cases success
  rename_i spec supported
  split at ran
  · cases ran
  rename_i path file
  split at ran
  · cases ran
  rename_i document read
  split at ran
  · cases ran
  rename_i normalized isNormalized
  split at ran
  · cases ran
  rename_i final written
  obtain ⟨text, rendered, stands⟩ := writeJsonObject_ok written
  cases ran
  exact ⟨spec, path, document, normalized, text, supported, file, read, isNormalized, rendered,
    stands, rfl⟩

theorem writeUserModel_ok {display : Path → String} {serde : SettingsSerde} {disk : Disk}
    {loader : ConfigLoader} {files after : SettingsFiles} {model : String} {path : Path}
    (ran : loader.writeUserModel display serde disk files model = (after, .ok path)) :
    path = loader.userSettingsPath ∧ ∃ root rendered,
      readOptionalSerdeJsonObject display serde path (files path) = .ok root ∧
      serde.toStringPretty ((root.getD .nil).setPath (.string model) ["model"]) = .ok rendered ∧
      after path = .text (rendered ++ "\n") := by
  simp only [ConfigLoader.writeUserModel] at ran
  split at ran
  · cases ran
  rename_i root read
  split at ran
  · cases ran
  split at ran
  · cases ran
  rename_i rendered isRendered
  split at ran
  · cases ran
  rename_i final written
  have stands := files.write_ok disk written
  cases ran
  exact ⟨rfl, root, rendered, read, isRendered, stands⟩

/-! ## Both writers -/

/-- The value of the setting is written without a floating-point number. -/
def NoFiniteNumber (value : ConfigValue) : Prop :=
  ∀ bits, value = .number bits → isFinite bits = false

/-- **A file that the runtime read it reads again after a writer has been at it**, with what
the writer reported and everything else unchanged, exactly if the value is no finite number
and no other number in the file is `-0`. -/
theorem settings_survive_iff (display : Path → String) (serde : SettingsSerde) (disk : Disk)
    (reads : ∀ contents, serde.Reads contents) (writes : ∀ entries, serde.Writes entries) :
    (∀ place files setting value after output,
      executeConfig serde disk place files ⟨setting, some value⟩ = (after, .ok output) →
      output.success = true → ∃ spec path reported,
        supportedConfigSetting (String.ofList (Text.trim setting.toList)) = some spec ∧
        configFileForScope place spec.scope = .ok path ∧ output.value = some reported ∧
        ∀ old, readOptionalJsonObject display path (files path) = .ok old →
          (Survives display path (files path) (after path) spec.path reported ↔
            NoFiniteNumber value ∧ NoNegativeZeroOff (files path) spec.path)) ∧
      ∀ loader files model after path,
        ConfigLoader.writeUserModel loader display serde disk files model = (after, .ok path) →
        ∀ old, readOptionalJsonObject display path (files path) = .ok old →
          (Survives display path (files path) (after path) ["model"] (.string model) ↔
            NoNegativeZeroOff (files path) ["model"]) := by
  constructor
  · intro place files setting value after output ran success
    obtain ⟨spec, path, document, normalized, text, set⟩ := executeConfig_set ran success
    refine ⟨spec, path, normalized, set.supported, set.file, set.reported, fun old readable => ?_⟩
    have current := configFileForScope_current set.file
    have some_ := supportedConfigSetting_path set.supported
    obtain ⟨same, fit, off⟩ := holds_reads current readable (readJsonObject_holds set.read)
      fun contents _ => reads contents
    obtain ⟨range, integral, noNumber⟩ := normalizeConfigValue_kept set.value
    have fits : (document.setPath normalized spec.path).all inRange = true := by
      rw [JsonEntries.all_setPath inRange normalized document some_, range, Bool.and_true]
      exact JsonEntries.allOff_of_all inRange document spec.path fit
    have written := writes _ text set.rendered
    have isText : text.toList = text.toList ++ blankChars [] := (List.append_nil _).symm
    rw [set.written, survives_iff current some_ readable same fits integral written isText,
      JsonEntries.all_setPath isInteger normalized document some_,
      Bool.and_eq_true, off, noNumber, And.comm]
    rfl
  · intro loader files model after path ran old readable
    obtain ⟨rfl, root, rendered, read, isRendered, stands⟩ := writeUserModel_ok ran
    have current : loader.userSettingsPath.fileName ≠ some ".openyak.json" :=
      current_userSettings loader.configHome
    have some_ : ["model"] ≠ [] := List.cons_ne_nil _ _
    obtain ⟨same, fit, off⟩ := holds_reads current readable (readOptionalSerde_holds read)
      fun contents _ => reads contents
    have fits : ((root.getD .nil).setPath (.string model) ["model"]).all inRange = true := by
      rw [JsonEntries.all_setPath inRange _ _ some_]
      exact Bool.and_eq_true_iff.2 ⟨JsonEntries.allOff_of_all inRange _ ["model"] fit, rfl⟩
    have written := writes _ rendered isRendered
    have isText : (rendered ++ "\n").toList = rendered.toList ++ blankChars [.newline] := by
      rw [String.toList_append]
      rfl
    rw [stands, survives_iff current some_ readable same fits (fun _ => rfl) written isText,
      JsonEntries.all_setPath isInteger _ _ some_, Bool.and_eq_true, off]
    exact and_iff_left rfl

/-! ## Two settings -/

/-- A `serde_json` that writes two maps as the real one does, and reads nothing. -/
def serdeOfTwo : SettingsSerde where
  fromStr := fun _ => .error "EOF while parsing a value at line 1 column 0"
  toStringPretty entries :=
    match entries.toList with
    | [("verbose", .bool true)] => .ok "\x7b\n  \"verbose\": true\n\x7d"
    | [("model", .number (.float 0x4014000000000000))] => .ok "\x7b\n  \"model\": 5.0\n\x7d"
    | _ => .error "unknown"

theorem serdeOfTwo_reads (contents : String) : serdeOfTwo.Reads contents := by
  intro document isChars fits value accepted
  cases accepted

/-- An object of one entry, as `to_string_pretty` lays it out. -/
def prettySingle (key : String) (inner : List Char) : List Char :=
  '{' :: '\n' :: ' ' :: ' ' :: (renderString key ++ ':' :: ' ' :: (inner ++ ['\n', '}']))

theorem writtenAs_single {entries : SerdeMap} {key : String} {value : SerdeValue}
    {inner : List Char} (single : entries.toList = [(key, value)])
    (written : value.WrittenAs serdeNumberText serdeItem inner) :
    (JsonTree.object entries).WrittenAs serdeNumberText serdeItem (prettySingle key inner) := by
  have allowed : ∀ c, serdeItem (itemOf c) = true := by
    intro c
    rw [serdeItem, (itemOf_spec c).2.1, (itemOf_spec c).2.2, Bool.and_self]
  have isSingle : entries = .cons key trivial value .nil := JsonEntries.toList_injective _ _ single
  subst isSingle
  refine ⟨_, ⟨[.newline, .space, .space], itemsOf key, [], [.space], [.newline], inner, ['}'],
    written, ?_, stringValue_itemsOf key, rfl, rfl⟩, ?_⟩
  · refine List.all_eq_true.2 fun item member => ?_
    obtain ⟨c, -, rfl⟩ := List.mem_map.1 member
    exact allowed c
  · rw [stringChars_itemsOf]
    rfl

theorem serdeOfTwo_writes (entries : SerdeMap) : serdeOfTwo.Writes entries := by
  intro text rendered
  simp only [serdeOfTwo] at rendered
  split at rendered
  · rename_i single
    cases rendered
    have written := @writtenAs_single entries "verbose" (.bool true) "true".toList single rfl
    have isText : prettySingle "verbose" "true".toList = "\x7b\n  \"verbose\": true\n\x7d".toList := by
      decide +kernel
    rw [isText] at written
    exact written
  · rename_i single
    cases rendered
    have fraction : serdeNumberText (.float 0x4014000000000000) "5.0".toList :=
      ⟨[], '5', '.', ['0'], by decide, by simp, by decide, by decide⟩
    have written := writtenAs_single single fraction
    have isText : prettySingle "model" "5.0".toList = "\x7b\n  \"model\": 5.0\n\x7d".toList := by
      decide +kernel
    rw [isText] at written
    exact written
  · cases rendered

/-- A home and a working directory without any settings. -/
def emptyPlace : ConfigPlace := ⟨.ok (Path.ofText "/work"), Path.ofText "/home/.openyak"⟩

def noFiles : SettingsFiles := fun _ => .notFound

/-- Every write succeeds. -/
def soundDisk : Disk := ⟨fun _ => none, fun _ _ => none⟩

def userSettings : Path := Path.ofText "/home/.openyak/settings.json"

/-- `verbose` set to true where there was no file. -/
theorem settings_survive_iff_verbose : ∃ after output,
    executeConfig serdeOfTwo soundDisk emptyPlace noFiles ⟨"verbose", some (.bool true)⟩ =
      (after, .ok output) ∧
    Survives (fun _ => "settings.json") userSettings .notFound (after userSettings) ["verbose"]
      (.bool true) := by
  refine ⟨_, _, rfl, ?_⟩
  have both := settings_survive_iff (fun _ => "settings.json") serdeOfTwo soundDisk serdeOfTwo_reads
    serdeOfTwo_writes
  obtain ⟨spec, path, reported, supported, file, isReported, survives⟩ :=
    both.1 emptyPlace noFiles "verbose" (.bool true) _ _ rfl rfl
  have isSpec : spec = { scope := .global, kind := .boolean, path := ["verbose"] } :=
    (Option.some.inj supported).symm
  subst isSpec
  obtain rfl : userSettings = path := Except.ok.inj file
  cases isReported
  exact (survives none rfl).2 ⟨nofun, nofun⟩

/-- **A number is written that the runtime does not read**: `model` set to 5 where there was
no file. -/
theorem number_not_survives : (∀ contents, serdeOfTwo.Reads contents) ∧
    (∀ entries, serdeOfTwo.Writes entries) ∧ ∃ after output,
      executeConfig serdeOfTwo soundDisk emptyPlace noFiles
        ⟨"model", some (.number 0x4014000000000000)⟩ = (after, .ok output) ∧
      output.success = true ∧ ∀ reported, output.value = some reported →
        ¬Survives (fun _ => "settings.local.json")
          (Path.ofText "/work/.openyak/settings.local.json") .notFound
          (after (Path.ofText "/work/.openyak/settings.local.json")) ["model"] reported := by
  refine ⟨serdeOfTwo_reads, serdeOfTwo_writes, _, _, rfl, rfl, ?_⟩
  rintro reported - ⟨old, new, -, reading, -⟩
  have unread : (parse "\x7b\n  \"model\": 5.0\n\x7d".toList).isOk = false := by decide +kernel
  have solid : Text.trim "\x7b\n  \"model\": 5.0\n\x7d".toList ≠ [] := by decide +kernel
  have read : readOptionalJsonObject (fun _ => "settings.local.json")
      (Path.ofText "/work/.openyak/settings.local.json") (.text "\x7b\n  \"model\": 5.0\n\x7d") =
        .ok (some new) := reading
  simp only [readOptionalJsonObject, solid, if_false] at read
  cases parsed : parse "\x7b\n  \"model\": 5.0\n\x7d".toList with
  | ok value =>
      rw [parsed] at unread
      cases unread
  | error error =>
      have current : (Path.ofText "/work/.openyak/settings.local.json").fileName ≠
          some ".openyak.json" := by decide +kernel
      rw [parsed] at read
      simp only [current, if_false] at read
      cases read

end Openyak.Tools
