/-
# Theory.PythonValues -- the fields of an object, as they are written and as Python finds them

A derived `Serialize` hands the fields of a structure to its serializer in the order they are
declared.  `serde_json` writes them so to a text, and a `Value` keeps them in the order of
their keys (`Serializer.struct`).  `json.loads` makes a `dict` of an object: an entry whose
key is there already takes the place of the other one.

What Python finds under a key is the last of the fields with that name, however they were
written (`getItem_recordOf`).
-/
import Openyak.Theory.Json
import Mathlib.Data.String.Basic

namespace Openyak.Theory

set_option autoImplicit false

/-! ## Values of Python -/

/-- What `json.loads` makes of a standard JSON text. -/
inductive PyValue where
  | none
  | bool (value : Bool)
  | int (value : Int)
  | float (bits : UInt64)
  | str (value : String)
  | list (items : List PyValue)
  | dict (items : List (String × PyValue))
  deriving Repr, Inhabited

namespace PyValue

/-- `record[key] = value`. -/
def setItem (key : String) (value : PyValue) : List (String × PyValue) → List (String × PyValue)
  | [] => [(key, value)]
  | (other, held) :: rest =>
      if other = key then (other, value) :: rest else (other, held) :: setItem key value rest

/-- `record.get(key)`. -/
def getItem : (record : List (String × PyValue)) → (key : String) → PyValue
  | [], _ => .none
  | (other, held) :: rest, key => if other = key then held else getItem rest key

mutual

def loads : Json → PyValue
  | .null => .none
  | .bool value => .bool value
  | .number (.posInt value) => .int value.toNat
  | .number (.negInt value) => .int value.toInt
  | .number (.float bits) => .float bits
  | .string value => .str value
  | .array items => .list (loadsItems items)
  | .object fields => .dict (loadsFields [] fields)

def loadsItems : List Json → List PyValue
  | [] => []
  | item :: items => loads item :: loadsItems items

def loadsFields (record : List (String × PyValue)) : List (String × Json) →
    List (String × PyValue)
  | [] => record
  | (key, value) :: fields => loadsFields (setItem key (loads value) record) fields

end

theorem loadsItems_eq (items : List Json) : loadsItems items = items.map loads := by
  induction items with
  | nil => rfl
  | cons item items ih => rw [loadsItems, ih, List.map_cons]

end PyValue

/-! ## The last field of a name -/

namespace Json

/-- The value of the last field with this name. -/
def lastField (key : String) : List (String × Json) → Option Json
  | [] => none
  | (other, value) :: fields =>
      (lastField key fields).or (if other = key then some value else none)

@[simp] theorem lastField_nil (key : String) : lastField key [] = none := rfl

@[simp] theorem lastField_cons (key other : String) (value : Json)
    (fields : List (String × Json)) : lastField key ((other, value) :: fields) =
      (lastField key fields).or (if other = key then some value else none) := rfl

@[simp] theorem lastField_append (key : String) (fields more : List (String × Json)) :
    lastField key (fields ++ more) = (lastField key more).or (lastField key fields) := by
  induction fields with
  | nil => simp
  | cons field fields ih =>
      obtain ⟨other, value⟩ := field
      rw [List.cons_append, lastField_cons, ih, lastField_cons, Option.or_assoc]

theorem lastField_above {key : String} {fields : List (String × Json)}
    (above : ∀ field ∈ fields, key < field.1) : lastField key fields = none := by
  induction fields with
  | nil => rfl
  | cons field fields ih =>
      have other : field.1 ≠ key := (above field List.mem_cons_self).ne'
      have rest := ih fun later member => above later (List.mem_cons_of_mem field member)
      rw [lastField_cons, rest, if_neg other, Option.none_or]

/-- The fields of a `BTreeMap`. -/
def Sorted (fields : List (String × Json)) : Prop := fields.Pairwise fun a b => a.1 < b.1

theorem mem_insertField {key : String} {value : Json} {fields : List (String × Json)}
    {field : String × Json} (member : field ∈ insertField key value fields) :
    field = (key, value) ∨ field ∈ fields := by
  induction fields with
  | nil => exact .inl (List.mem_singleton.1 member)
  | cons first fields ih =>
      obtain ⟨other, held⟩ := first
      rw [insertField] at member
      split at member
      · obtain here | there := List.mem_cons.1 member
        · exact .inl here
        · exact .inr (List.mem_cons_of_mem _ there)
      · split at member
        · exact List.mem_cons.1 member
        · obtain rfl | there := List.mem_cons.1 member
          · exact .inr List.mem_cons_self
          · obtain new | old := ih there
            · exact .inl new
            · exact .inr (List.mem_cons_of_mem _ old)

theorem sorted_insertField {fields : List (String × Json)} (sorted : Sorted fields)
    (key : String) (value : Json) : Sorted (insertField key value fields) := by
  induction fields with
  | nil => exact List.pairwise_singleton _ _
  | cons first fields ih =>
      obtain ⟨other, held⟩ := first
      obtain ⟨above, rest⟩ := List.pairwise_cons.1 sorted
      rw [insertField]
      split
      · rename_i same
        subst same
        exact List.pairwise_cons.2 ⟨above, rest⟩
      · rename_i differs
        split
        · rename_i below
          apply List.pairwise_cons.2 ⟨?_, sorted⟩
          intro field member
          obtain rfl | later := List.mem_cons.1 member
          · exact below
          · exact below.trans (above field later)
        · rename_i notBelow
          apply List.pairwise_cons.2 ⟨?_, ih rest⟩
          intro field member
          obtain rfl | later := mem_insertField member
          · exact lt_of_le_of_ne (not_lt.1 notBelow) (Ne.symm differs)
          · exact above field later

theorem lastField_insertField {fields : List (String × Json)} (sorted : Sorted fields)
    (key : String) (value : Json) (name : String) :
    lastField name (insertField key value fields) =
      (if key = name then some value else none).or (lastField name fields) := by
  induction fields with
  | nil => simp [insertField]
  | cons first fields ih =>
      obtain ⟨other, held⟩ := first
      obtain ⟨above, rest⟩ := List.pairwise_cons.1 sorted
      rw [insertField]
      split
      · rename_i same
        subst same
        by_cases here : key = name
        · subst here
          simp [lastField_above above]
        · simp [here]
      · rename_i differs
        split
        · rename_i below
          by_cases here : key = name
          · subst here
            have all : ∀ field ∈ (other, held) :: fields, key < field.1 := by
              intro field member
              obtain rfl | later := List.mem_cons.1 member
              · exact below
              · exact below.trans (above field later)
            rw [lastField_cons, lastField_above all, Option.none_or, if_pos rfl,
              Option.some_or]
          · rw [lastField_cons, if_neg here, Option.or_none, Option.none_or]
        · rw [lastField_cons, ih rest, lastField_cons]
          by_cases here : key = name
          · subst here
            simp
          · simp [here]

/-- The fields of a `BTreeMap` into which these are put. -/
def sortFields (fields : List (String × Json)) : List (String × Json) :=
  fields.foldl (fun map field => insertField field.1 field.2 map) []

theorem lastField_sortFields (name : String) (fields : List (String × Json)) :
    lastField name (sortFields fields) = lastField name fields := by
  have grown : ∀ map, Sorted map →
      lastField name (fields.foldl (fun map field => insertField field.1 field.2 map) map) =
        (lastField name fields).or (lastField name map) := by
    induction fields with
    | nil => exact fun map _ => rfl
    | cons field fields ih =>
        intro map sorted
        obtain ⟨key, value⟩ := field
        rw [List.foldl_cons, ih _ (sorted_insertField sorted key value),
          lastField_insertField sorted, lastField_cons, Option.or_assoc]
  rw [sortFields, grown [] List.Pairwise.nil, lastField_nil, Option.or_none]

end Json

/-! ## Serializers -/

/-- To a text, and to a `Value`. -/
inductive Serializer where
  | text
  | value
  deriving DecidableEq, Repr

/-- A structure, by its fields in the order they are declared. -/
def Serializer.struct : Serializer → List (String × Json) → Json
  | .text, fields => .object fields
  | .value, fields => .ofFields fields

/-- A field with `skip_serializing_if = "Option::is_none"`. -/
def skipNone (key : String) (value : Option Json) : List (String × Json) :=
  value.toList.map fun value => (key, value)

@[simp] theorem lastField_skipNone (key other : String) (value : Option Json) :
    Json.lastField key (skipNone other value) = if other = key then value else none := by
  cases value with
  | none => simp [skipNone]
  | some value => simp [skipNone]

/-- The `dict` of a structure. -/
def recordOf (serializer : Serializer) (fields : List (String × Json)) : List (String × PyValue) :=
  match serializer with
  | .text => PyValue.loadsFields [] fields
  | .value => PyValue.loadsFields [] (Json.sortFields fields)

open PyValue

@[simp] theorem loads_struct (serializer : Serializer) (fields : List (String × Json)) :
    loads (serializer.struct fields) = .dict (recordOf serializer fields) := by
  cases serializer with
  | text => rw [Serializer.struct, loads, recordOf]
  | value => rw [Serializer.struct, Json.ofFields, loads, recordOf, Json.sortFields]

theorem getItem_setItem (key other : String) (value : PyValue)
    (record : List (String × PyValue)) :
    getItem (setItem key value record) other =
      if key = other then value else getItem record other := by
  induction record with
  | nil => simp [setItem, getItem]
  | cons item record ih =>
      obtain ⟨name, held⟩ := item
      rw [setItem]
      split
      · rename_i same
        subst same
        by_cases here : name = other
        · simp [getItem, here]
        · simp [getItem, here]
      · rename_i differs
        by_cases here : name = other
        · subst here
          simp [getItem, Ne.symm differs]
        · simp [getItem, here, ih]

theorem getItem_loadsFields (record : List (String × PyValue)) (fields : List (String × Json))
    (key : String) : getItem (loadsFields record fields) key =
      (Json.lastField key fields).elim (getItem record key) loads := by
  induction fields generalizing record with
  | nil => rfl
  | cons field fields ih =>
      obtain ⟨other, value⟩ := field
      rw [loadsFields, ih, Json.lastField_cons, getItem_setItem]
      cases Json.lastField key fields with
      | some last => rfl
      | none => by_cases here : other = key <;> simp [here]

/-- **Python finds the last field of a name, in a text and in a `Value`.** -/
@[simp] theorem getItem_recordOf (serializer : Serializer) (fields : List (String × Json))
    (key : String) : getItem (recordOf serializer fields) key =
      (Json.lastField key fields).elim .none loads := by
  cases serializer with
  | text => rw [recordOf, getItem_loadsFields, getItem]
  | value => rw [recordOf, getItem_loadsFields, Json.lastField_sortFields, getItem]

end Openyak.Theory
