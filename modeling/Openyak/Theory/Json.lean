/-
# Theory.Json -- JSON values as `serde_json` holds them, and the codec as a parameter

`serde_json::Value` with its three kinds of number and with objects held as
`BTreeMap`s, here key-sorted association lists (`Json.ofFields` inserts in key
order and a later entry for a key replaces the earlier one).

The text side of `serde_json` is third-party code.  `SerdeJson` is the pair of
functions this program calls, `from_str` and `to_string`; what a result relies
on is stated as a hypothesis about the two at the values it is about.
-/
import Mathlib.Algebra.Group.Nat.Defs

namespace Openyak.Theory

set_option autoImplicit false

/-- `serde_json::Number`: an unsigned, a negative, or a floating-point number by
its bits. -/
inductive Number where
  | posInt (value : UInt64)
  | negInt (value : Int64)
  | float (bits : UInt64)
  deriving DecidableEq, Repr

inductive Json where
  | null
  | bool (value : Bool)
  | number (value : Number)
  | string (value : String)
  | array (items : List Json)
  | object (fields : List (String × Json))
  deriving Repr, Inhabited

namespace Json

mutual

def decEq : (a b : Json) → Decidable (a = b)
  | .null, .null => isTrue rfl
  | .bool a, .bool b => decidable_of_iff (a = b) (by simp)
  | .number a, .number b => decidable_of_iff (a = b) (by simp)
  | .string a, .string b => decidable_of_iff (a = b) (by simp)
  | .array xs, .array ys =>
      match decEqItems xs ys with
      | isTrue h => isTrue (by rw [h])
      | isFalse h => isFalse (by simpa using h)
  | .object fs, .object gs =>
      match decEqFields fs gs with
      | isTrue h => isTrue (by rw [h])
      | isFalse h => isFalse (by simpa using h)
  | .null, .bool _ | .null, .number _ | .null, .string _ | .null, .array _ | .null, .object _
  | .bool _, .null | .bool _, .number _ | .bool _, .string _ | .bool _, .array _
  | .bool _, .object _
  | .number _, .null | .number _, .bool _ | .number _, .string _ | .number _, .array _
  | .number _, .object _
  | .string _, .null | .string _, .bool _ | .string _, .number _ | .string _, .array _
  | .string _, .object _
  | .array _, .null | .array _, .bool _ | .array _, .number _ | .array _, .string _
  | .array _, .object _
  | .object _, .null | .object _, .bool _ | .object _, .number _ | .object _, .string _
  | .object _, .array _ => isFalse (by simp)

def decEqItems : (xs ys : List Json) → Decidable (xs = ys)
  | [], [] => isTrue rfl
  | [], _ :: _ => isFalse (by simp)
  | _ :: _, [] => isFalse (by simp)
  | x :: xs, y :: ys =>
      match decEq x y, decEqItems xs ys with
      | isTrue h, isTrue t => isTrue (by rw [h, t])
      | isFalse h, _ => isFalse (by simp [h])
      | _, isFalse t => isFalse (by simp [t])

def decEqFields : (fs gs : List (String × Json)) → Decidable (fs = gs)
  | [], [] => isTrue rfl
  | [], _ :: _ => isFalse (by simp)
  | _ :: _, [] => isFalse (by simp)
  | (k, x) :: fs, (l, y) :: gs =>
      if name : k = l then
        match decEq x y, decEqFields fs gs with
        | isTrue h, isTrue t => isTrue (by rw [name, h, t])
        | isFalse h, _ => isFalse (by simp [h])
        | _, isFalse t => isFalse (by simp [t])
      else isFalse (by simp [name])

end

instance : DecidableEq Json := decEq

/-- `BTreeMap::insert` on the sorted field list. -/
def insertField (key : String) (value : Json) : List (String × Json) → List (String × Json)
  | [] => [(key, value)]
  | (k, v) :: rest =>
      if key = k then (key, value) :: rest
      else if key < k then (key, value) :: (k, v) :: rest
      else (k, v) :: insertField key value rest

/-- The `json!` object literal: its entries inserted in the order written. -/
def ofFields (fields : List (String × Json)) : Json :=
  .object (fields.foldl (fun map field => insertField field.1 field.2 map) [])

/-- `Value::get` with a key. -/
def get? (key : String) : Json → Option Json
  | .object fields => (fields.find? fun field => field.1 == key).map Prod.snd
  | _ => none

theorem find?_insertField (key other : String) (value : Json) (fields : List (String × Json)) :
    (insertField key value fields).find? (fun field => field.1 == other) =
      if key = other then some (key, value) else fields.find? fun field => field.1 == other := by
  induction fields with
  | nil => by_cases same : key = other <;> simp [insertField, same]
  | cons field rest induction =>
      obtain ⟨k, v⟩ := field
      unfold insertField
      split
      · rename_i replaced
        subst replaced
        by_cases same : key = other <;> simp [same]
      · rename_i differs
        split
        · by_cases same : key = other <;> simp [same]
        · by_cases same : key = other
          · subst same
            have earlier : ¬k = key := fun h => differs h.symm
            simp [earlier, induction]
          · simp only [List.find?_cons, induction, if_neg same]

/-- A key just inserted holds its value; what the other keys hold stays. -/
theorem get?_insertField (key other : String) (value : Json) (fields : List (String × Json)) :
    (object (insertField key value fields)).get? other =
      if key = other then some value else (object fields).get? other := by
  unfold get?
  dsimp only
  rw [find?_insertField]
  split <;> rfl

theorem get?_foldl_insertField (key : String) (fields map : List (String × Json)) :
    (object (fields.foldl (fun map field => insertField field.1 field.2 map) map)).get? key =
      ((fields.reverse.find? fun field => field.1 == key).map Prod.snd).or
        ((object map).get? key) := by
  induction fields generalizing map with
  | nil => simp
  | cons field fields induction =>
      rw [List.foldl_cons, induction, get?_insertField, List.reverse_cons, List.find?_append]
      by_cases same : field.1 = key <;>
        cases fields.reverse.find? (fun field => field.1 == key) <;> simp [same]

/-- An object literal holds, under a key, the last value written for it. -/
theorem get?_ofFields (key : String) (fields : List (String × Json)) :
    (ofFields fields).get? key = (fields.reverse.find? fun field => field.1 == key).map Prod.snd := by
  rw [ofFields, get?_foldl_insertField]
  simp [get?]

/-- `Value::as_str`. -/
def asStr? : Json → Option String
  | .string value => some value
  | _ => none

/-- `Value::as_i64`. -/
def asI64? : Json → Option Int64
  | .number (.posInt value) =>
      if value.toNat < 2 ^ 63 then some (Int64.ofNat value.toNat) else none
  | .number (.negInt value) => some value
  | _ => none

/-- `Value::from` an `i64`. -/
def ofI64 (value : Int64) : Json :=
  if 0 ≤ value.toInt then .number (.posInt (UInt64.ofNat value.toInt.toNat))
  else .number (.negInt value)

/-- `Value::is_object`. -/
def isObject : Json → Bool
  | .object _ => true
  | _ => false

/-- `value.is_object() && value.as_object().is_some_and(Map::is_empty)`. -/
def isEmptyObject : Json → Bool
  | .object [] => true
  | _ => false

theorem isEmptyObject_iff (value : Json) : value.isEmptyObject ↔ value = .object [] := by
  cases value with
  | object fields => cases fields <;> simp [isEmptyObject]
  | _ => simp [isEmptyObject]

end Json

/-- The two `serde_json` functions the program calls on values: `from_str` and
`Value::to_string`. -/
structure SerdeJson where
  fromStr : String → Except String Json
  toText : Json → String

end Openyak.Theory
