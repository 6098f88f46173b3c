/-
# Theory.OrderedMap -- maps whose entries stand in the order of their keys

A `BTreeMap`: no key stands twice (`mem_iff_get`), an entry that is inserted takes the
place of the one under its key (`get_insert`), and one that is removed is gone
(`get_remove`).
-/
import Mathlib.Order.Basic
import Mathlib.Order.Defs.LinearOrder
import Mathlib.Data.List.Basic
import Mathlib.Data.List.Sort

namespace Openyak.Theory

set_option autoImplicit false

universe u v

variable {κ : Type u} {α : Type v} [LinearOrder κ]

/-- Keys that grow from entry to entry. -/
def KeysGrow (entries : List (κ × α)) : Prop := entries.Pairwise fun a b => a.1 < b.1

structure OrderedMap (κ : Type u) (α : Type v) [LinearOrder κ] where
  entries : List (κ × α)
  sorted : KeysGrow entries
  deriving Repr

namespace OrderedMap

@[ext] theorem ext {map other : OrderedMap κ α} (same : map.entries = other.entries) :
    map = other := by
  cases map
  cases other
  cases same
  rfl

instance [DecidableEq α] : DecidableEq (OrderedMap κ α) := fun map other =>
  decidable_of_iff (map.entries = other.entries) ⟨ext, congrArg entries⟩

def empty : OrderedMap κ α := ⟨[], .nil⟩

def keys (map : OrderedMap κ α) : List κ := map.entries.map Prod.fst

def values (map : OrderedMap κ α) : List α := map.entries.map Prod.snd

def get (map : OrderedMap κ α) (key : κ) : Option α :=
  (map.entries.find? fun entry => entry.1 = key).map Prod.snd

/-- Insertion among entries whose keys grow. -/
def insertInto (key : κ) (value : α) : List (κ × α) → List (κ × α)
  | [] => [(key, value)]
  | entry :: rest =>
      if key < entry.1 then (key, value) :: entry :: rest
      else if entry.1 = key then (key, value) :: rest
      else entry :: insertInto key value rest

variable {map : OrderedMap κ α} {key other : κ} {value : α} {entries : List (κ × α)}

theorem mem_insertInto (grow : KeysGrow entries) {entry : κ × α} :
    entry ∈ insertInto key value entries ↔
      entry = (key, value) ∨ (entry ∈ entries ∧ entry.1 ≠ key) := by
  induction entries with
  | nil => simp [insertInto]
  | cons first rest ih =>
      obtain ⟨above, growRest⟩ := List.pairwise_cons.1 grow
      rw [insertInto]
      split
      · rename_i before
        have apart : ∀ entry ∈ first :: rest, entry.1 ≠ key := by
          intro entry member
          obtain rfl | member := List.mem_cons.1 member
          · exact before.ne'
          · exact (before.trans (above entry member)).ne'
        rw [List.mem_cons]
        exact or_congr_right ⟨fun member => ⟨member, apart entry member⟩, And.left⟩
      · split
        · rename_i here
          have apart : ∀ entry ∈ rest, entry.1 ≠ key := fun entry member =>
            here ▸ (above entry member).ne'
          rw [List.mem_cons]
          apply or_congr_right
          constructor
          · exact fun member => ⟨List.mem_cons_of_mem first member, apart entry member⟩
          · rintro ⟨member, different⟩
            obtain rfl | member := List.mem_cons.1 member
            · exact absurd here different
            · exact member
        · rename_i different
          rw [List.mem_cons, ih growRest, List.mem_cons]
          constructor
          · rintro (rfl | rfl | ⟨member, other⟩)
            · exact .inr ⟨.inl rfl, different⟩
            · exact .inl rfl
            · exact .inr ⟨.inr member, other⟩
          · rintro (rfl | ⟨rfl | member, other⟩)
            · exact .inr (.inl rfl)
            · exact .inl rfl
            · exact .inr (.inr ⟨member, other⟩)

theorem insertInto_grow (key : κ) (value : α) (grow : KeysGrow entries) :
    KeysGrow (insertInto key value entries) := by
  induction entries with
  | nil => exact List.pairwise_singleton _ _
  | cons first rest ih =>
      obtain ⟨above, growRest⟩ := List.pairwise_cons.1 grow
      rw [insertInto]
      split
      · rename_i before
        refine List.pairwise_cons.2 ⟨fun entry member => ?_, grow⟩
        obtain rfl | member := List.mem_cons.1 member
        · exact before
        · exact before.trans (above entry member)
      · rename_i notBefore
        split
        · rename_i here
          exact List.pairwise_cons.2 ⟨fun entry member => here ▸ above entry member, growRest⟩
        · rename_i different
          refine List.pairwise_cons.2 ⟨fun entry member => ?_, ih growRest⟩
          obtain rfl | ⟨member, -⟩ := (mem_insertInto growRest).1 member
          · exact lt_of_le_of_ne (not_lt.1 notBefore) different
          · exact above entry member

def insert (map : OrderedMap κ α) (key : κ) (value : α) : OrderedMap κ α :=
  ⟨insertInto key value map.entries, insertInto_grow key value map.sorted⟩

def remove (map : OrderedMap κ α) (key : κ) : OrderedMap κ α :=
  ⟨map.entries.filter fun entry => entry.1 ≠ key, map.sorted.sublist List.filter_sublist⟩

/-! ## What stands under a key -/

theorem mem_iff_get : (key, value) ∈ map.entries ↔ map.get key = some value := by
  obtain ⟨entries, grow⟩ := map
  show (key, value) ∈ entries ↔
    (entries.find? fun entry => entry.1 = key).map Prod.snd = some value
  induction entries with
  | nil => simp
  | cons first rest ih =>
      obtain ⟨above, growRest⟩ := List.pairwise_cons.1 grow
      by_cases here : first.1 = key
      · have notBehind : (key, value) ∉ rest := fun member =>
          (above _ member).ne here
        rw [List.mem_cons, List.find?_cons_of_pos (by simpa using here)]
        constructor
        · rintro (rfl | member)
          · rfl
          · exact absurd member notBehind
        · intro same
          have found : first.2 = value := Option.some.inj same
          exact .inl (by rw [← here, ← found])
      · have notFirst : (key, value) ≠ first := by
          rintro rfl
          exact here rfl
        rw [List.mem_cons, List.find?_cons_of_neg (by simpa using here), ← ih growRest]
        exact or_iff_right notFirst

theorem get_eq_none_iff : map.get key = none ↔ key ∉ map.keys := by
  constructor
  · intro absent member
    obtain ⟨⟨_, value⟩, there, rfl⟩ := List.mem_map.1 member
    rw [mem_iff_get.1 there] at absent
    cases absent
  · intro absent
    cases found : map.get key with
    | none => rfl
    | some value =>
        exact absurd (List.mem_map_of_mem (mem_iff_get.2 found)) absent

theorem get_ext {map other : OrderedMap κ α} {key : κ}
    (same : ∀ value, (key, value) ∈ map.entries ↔ (key, value) ∈ other.entries) :
    map.get key = other.get key := by
  cases found : other.get key with
  | some value => exact mem_iff_get.1 ((same value).2 (mem_iff_get.2 found))
  | none =>
      cases here : map.get key with
      | none => rfl
      | some value =>
          rw [mem_iff_get.1 ((same value).1 (mem_iff_get.2 here))] at found
          cases found

@[simp] theorem get_empty : (empty : OrderedMap κ α).get key = none := rfl

theorem get_insert (map : OrderedMap κ α) (key : κ) (value : α) :
    (map.insert key value).get key = some value :=
  mem_iff_get.1 ((mem_insertInto map.sorted).2 (.inl rfl))

theorem get_insert_other (map : OrderedMap κ α) (value : α) (different : other ≠ key) :
    (map.insert key value).get other = map.get other := by
  apply get_ext
  intro found
  rw [insert, mem_insertInto map.sorted]
  simp [different]

theorem get_remove (map : OrderedMap κ α) (key : κ) : (map.remove key).get key = none := by
  apply get_eq_none_iff.2
  intro member
  obtain ⟨entry, there, same⟩ := List.mem_map.1 member
  have different := (List.mem_filter.1 there).2
  simp [same] at different

theorem get_remove_other (map : OrderedMap κ α) (different : other ≠ key) :
    (map.remove key).get other = map.get other := by
  apply get_ext
  intro found
  simp [remove, different]

theorem get_insert_cases {found : α} (there : (map.insert key value).get other = some found) :
    (other = key ∧ found = value) ∨ (other ≠ key ∧ map.get other = some found) := by
  by_cases same : other = key
  · subst same
    rw [get_insert] at there
    exact .inl ⟨rfl, (Option.some.inj there).symm⟩
  · exact .inr ⟨same, by rwa [get_insert_other map value same] at there⟩

theorem get_remove_cases {found : α} (there : (map.remove key).get other = some found) :
    other ≠ key ∧ map.get other = some found := by
  have different : other ≠ key := by
    rintro rfl
    rw [get_remove] at there
    cases there
  exact ⟨different, by rwa [get_remove_other map different] at there⟩

/-! ## Maps with the same entries -/

theorem ext_get {other : OrderedMap κ α} (same : ∀ key, map.get key = other.get key) :
    map = other := by
  apply ext
  refine map.sorted.eq_of_mem_iff other.sorted fun entry => ?_
  rw [show entry = (entry.1, entry.2) from rfl, mem_iff_get, mem_iff_get, same]

/-- **A map in which a key stands as it should is the one to write**. -/
theorem insert_eq_iff : map.insert key value = map ↔ map.get key = some value := by
  constructor
  · intro same
    rw [← same, get_insert]
  · intro held
    apply ext_get
    intro found
    by_cases here : found = key
    · rw [here, get_insert, held]
    · rw [get_insert_other map value here]

theorem remove_eq_iff : map.remove key = map ↔ map.get key = none := by
  constructor
  · intro same
    rw [← same, get_remove]
  · intro absent
    apply ext_get
    intro found
    by_cases here : found = key
    · rw [here, get_remove, absent]
    · rw [get_remove_other map here]

theorem insert_remove (map : OrderedMap κ α) (key : κ) (value : α) :
    (map.remove key).insert key value = map.insert key value := by
  apply ext_get
  intro found
  by_cases here : found = key
  · rw [here, get_insert, get_insert]
  · rw [get_insert_other _ value here, get_insert_other _ value here, get_remove_other map here]

theorem remove_remove (map : OrderedMap κ α) (key : κ) :
    (map.remove key).remove key = map.remove key :=
  remove_eq_iff.2 (get_remove map key)

end OrderedMap

end Openyak.Theory
