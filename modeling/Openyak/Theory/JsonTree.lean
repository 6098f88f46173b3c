/-
# Theory.JsonTree -- JSON values whose objects are ordered maps

An object is a `BTreeMap`: its entries stand in the order of their keys, and no key
stands twice.  `JsonEntries low` holds that in its type, with `low` the key that went
before.  `ν` is what a program takes numbers for.

`ofMembers` is the map a text's members make, where the last of a key counts.
-/
namespace Openyak.Theory

set_option autoImplicit false

/-- `key` comes behind `low`, the key before it, if there is one. -/
def Above : Option String → String → Prop
  | none, _ => True
  | some low, key => low < key

theorem Above.of_lt {low key : String} (less : low < key) : Above (some low) key := less

theorem Above.of_not_lt {low key : String} (less : ¬key < low) (differs : key ≠ low) :
    Above (some low) key := by
  have behind : low < key := Decidable.byContradiction fun notBehind =>
    differs (String.le_antisymm (String.not_lt.1 notBehind) (String.not_lt.1 less))
  exact behind

theorem Above.trans {low : Option String} {key next : String} (above : Above low key)
    (less : key < next) : Above low next := by
  cases low with
  | none => exact trivial
  | some low => exact String.lt_trans above less

mutual

inductive JsonTree (ν : Type) : Type
  | null
  | bool (value : Bool)
  | number (value : ν)
  | string (value : String)
  | array (values : List (JsonTree ν))
  | object (entries : JsonEntries ν none)

inductive JsonEntries (ν : Type) : Option String → Type
  | nil {low : Option String} : JsonEntries ν low
  | cons {low : Option String} (key : String) (above : Above low key) (value : JsonTree ν)
      (rest : JsonEntries ν (some key)) : JsonEntries ν low

end

namespace JsonEntries

variable {ν : Type}

def toList {ν : Type} : {low : Option String} → JsonEntries ν low → List (String × JsonTree ν)
  | _, .nil => []
  | _, .cons key _ value rest => (key, value) :: rest.toList

/-- `BTreeMap::get`. -/
def get? {low : Option String} (key : String) (entries : JsonEntries ν low) : Option (JsonTree ν) :=
  (entries.toList.find? fun entry => entry.1 = key).map Prod.snd

/-- `BTreeMap::insert` where only keys behind `low` go. -/
def insertAbove {ν : Type} (key : String) (value : JsonTree ν) :
    {low : Option String} → JsonEntries ν low → Above low key → JsonEntries ν low
  | _, .nil, above => .cons key above value .nil
  | _, .cons found isAbove held rest, above =>
      if same : key = found then .cons found isAbove value rest
      else if less : key < found then .cons key above value (.cons found (.of_lt less) held rest)
      else .cons found isAbove held
        (rest.insertAbove key value (.of_not_lt less same))

/-- `BTreeMap::insert`. -/
def insert (entries : JsonEntries ν none) (key : String) (value : JsonTree ν) :
    JsonEntries ν none := entries.insertAbove key value trivial

/-- Entries behind a key that comes behind `low`. -/
def weaken {low : Option String} {key : String} (above : Above low key) :
    JsonEntries ν (some key) → JsonEntries ν low
  | .nil => .nil
  | .cons next behind value rest => .cons next (above.trans behind) value rest

/-- `BTreeMap::remove`. -/
def remove {ν : Type} : {low : Option String} → JsonEntries ν low → String → JsonEntries ν low
  | _, .nil, _ => .nil
  | _, .cons found above value rest, key =>
      if found = key then rest.weaken above else .cons found above value (rest.remove key)

def ofMembers (members : List (String × JsonTree ν)) : JsonEntries ν none :=
  members.foldl (fun entries member => entries.insert member.1 member.2) .nil

/-! ## The entries as a list -/

theorem toList_injective {low : Option String} (left right : JsonEntries ν low) (same : left.toList = right.toList) :
    left = right := by
  match left, right with
  | .nil, .nil => rfl
  | .nil, .cons _ _ _ _ => cases same
  | .cons _ _ _ _, .nil => cases same
  | .cons key _ value rest, .cons other _ held others =>
      simp only [toList, List.cons.injEq, Prod.mk.injEq] at same
      obtain ⟨⟨rfl, rfl⟩, restSame⟩ := same
      rw [toList_injective rest others restSame]

/-- Every key comes behind `low`. -/
theorem above_of_mem {low : Option String} {entry : String × JsonTree ν}
    (entries : JsonEntries ν low) (member : entry ∈ entries.toList) : Above low entry.1 := by
  match entries with
  | .cons key above value rest =>
      rcases List.mem_cons.1 member with rfl | later
      · exact above
      · have behind : key < entry.1 := above_of_mem rest later
        exact above.trans behind

theorem get?_cons {low : Option String} (key other : String) (above : Above low key)
    (value : JsonTree ν) (rest : JsonEntries ν (some key)) :
    (cons key above value rest).get? other = if key = other then some value else rest.get? other := by
  by_cases same : key = other
  · simp [get?, toList, same]
  · simp [get?, toList, same]

theorem get?_insertAbove {low : Option String} (key other : String) (value : JsonTree ν)
    (entries : JsonEntries ν low) (above : Above low key) :
    (entries.insertAbove key value above).get? other =
      if key = other then some value else entries.get? other := by
  match entries with
  | .nil => exact get?_cons key other above value .nil
  | .cons found isAbove held rest =>
      rw [insertAbove, get?_cons found]
      by_cases same : key = found
      · subst same
        rw [dif_pos rfl, get?_cons]
        split <;> rfl
      · rw [dif_neg same]
        by_cases less : key < found
        · rw [dif_pos less, get?_cons, get?_cons]
        · rw [dif_neg less, get?_cons, get?_insertAbove key other value rest]
          by_cases isFound : found = other
          · rw [if_pos isFound, if_pos isFound, if_neg (isFound ▸ same)]
          · rw [if_neg isFound, if_neg isFound]

@[simp] theorem get?_nil {low : Option String} (key : String) : (nil : JsonEntries ν low).get? key = none := rfl

@[simp] theorem get?_insert (entries : JsonEntries ν none) (key other : String)
    (value : JsonTree ν) :
    (entries.insert key value).get? other = if key = other then some value else entries.get? other :=
  get?_insertAbove key other value entries trivial

theorem get?_weaken {low : Option String} {key : String} (above : Above low key) (other : String)
    (entries : JsonEntries ν (some key)) : (entries.weaken above).get? other = entries.get? other := by
  cases entries with
  | nil => rfl
  | cons next behind value rest => rw [weaken, get?_cons, get?_cons]

/-- No key stands in what comes behind it. -/
theorem get?_behind {key : String} (entries : JsonEntries ν (some key)) : entries.get? key = none := by
  cases found : entries.get? key with
  | none => rfl
  | some value =>
      rw [get?, Option.map_eq_some_iff] at found
      obtain ⟨entry, isFirst, -⟩ := found
      have same : entry.1 = key := by simpa using List.find?_some isFirst
      have behind : key < entry.1 := above_of_mem entries (List.mem_of_find?_eq_some isFirst)
      exact absurd (same ▸ behind) (String.lt_irrefl _)

@[simp] theorem get?_remove {low : Option String} (entries : JsonEntries ν low) (key other : String) :
    (entries.remove key).get? other = if key = other then none else entries.get? other := by
  match entries with
  | .nil => simp [remove]
  | .cons found above value rest =>
      rw [remove]
      by_cases same : found = key
      · subst same
        rw [if_pos rfl, get?_weaken, get?_cons]
        by_cases isOther : found = other
        · subst isOther
          rw [if_pos rfl, get?_behind]
        · rw [if_neg isOther, if_neg isOther]
      · rw [if_neg same, get?_cons, get?_cons, get?_remove rest key other]
        by_cases isOther : key = other
        · subst isOther
          rw [if_neg same, if_pos rfl, if_pos rfl]
        · rw [if_neg isOther, if_neg isOther]

/-- **A map is what stands under its keys.** -/
theorem ext_get? {low : Option String} (left right : JsonEntries ν low)
    (same : ∀ key, left.get? key = right.get? key) : left = right := by
  match left, right with
  | .nil, .nil => rfl
  | .nil, .cons key _ value rest =>
      have here := same key
      rw [get?_cons, if_pos rfl] at here
      cases here
  | .cons key _ value rest, .nil =>
      have here := same key
      rw [get?_cons, if_pos rfl] at here
      cases here
  | .cons key above value rest, .cons other isAbove held others =>
      -- The first key of either is not behind the first of the other.
      have first : ∀ {key other : String} {above : Above low key} {isAbove : Above low other}
          {value held : JsonTree ν} {rest : JsonEntries ν (some key)}
          {others : JsonEntries ν (some other)},
          (cons key above value rest).get? key = (cons other isAbove held others).get? key →
          other ≤ key := by
        intro key other above isAbove value held rest others here
        rw [get?_cons, get?_cons, if_pos rfl] at here
        by_cases isOther : other = key
        · exact isOther ▸ String.le_refl other
        · rw [if_neg isOther, get?, eq_comm, Option.map_eq_some_iff] at here
          obtain ⟨entry, isFound, -⟩ := here
          have named : entry.1 = key := by simpa using List.find?_some isFound
          have behind : other < entry.1 := above_of_mem others (List.mem_of_find?_eq_some isFound)
          exact String.not_lt.1 (String.lt_asymm (named ▸ behind))
      obtain rfl : key = other := String.le_antisymm (first (same other).symm) (first (same key))
      have here := same key
      rw [get?_cons, get?_cons, if_pos rfl, if_pos rfl, Option.some.injEq] at here
      subst here
      congr
      refine ext_get? rest others fun next => ?_
      by_cases isKey : key = next
      · rw [← isKey, get?_behind, get?_behind]
      · simpa [get?_cons, isKey] using same next

theorem remove_insert (entries : JsonEntries ν none) (key : String) (value : JsonTree ν) :
    (entries.insert key value).remove key = entries.remove key := by
  refine ext_get? _ _ fun other => ?_
  rw [get?_remove, get?_remove, get?_insert]
  split <;> rfl

theorem get?_of_remove {left right : JsonEntries ν none} {key : String}
    (same : left.remove key = right.remove key) {other : String} (differs : other ≠ key) :
    left.get? other = right.get? other := by
  have here := congrArg (·.get? other) same
  simpa [Ne.symm differs] using here

/-- A key behind all others goes to the end. -/
theorem toList_insertAbove_last {low : Option String} (key : String) (value : JsonTree ν)
    (entries : JsonEntries ν low) (above : Above low key) (last : ∀ entry ∈ entries.toList, entry.1 < key) :
    (entries.insertAbove key value above).toList = entries.toList ++ [(key, value)] := by
  match entries with
  | .nil => rfl
  | .cons found isAbove held rest =>
      have behind : found < key := last (found, held) List.mem_cons_self
      have later : ∀ entry ∈ rest.toList, entry.1 < key :=
        fun entry member => last entry (List.mem_cons_of_mem _ member)
      rw [insertAbove, dif_neg (fun same => String.lt_irrefl _ (same ▸ behind)),
        dif_neg (String.lt_asymm behind), toList, toList_insertAbove_last key value rest _ later]
      rfl

/-- Members in the order of their keys, behind those there are. -/
theorem toList_foldl_insert {low : Option String} (rest : JsonEntries ν low)
    (entries : JsonEntries ν none)
    (apart : ∀ entry ∈ entries.toList, ∀ later ∈ rest.toList, entry.1 < later.1) :
    (rest.toList.foldl (fun entries member => entries.insert member.1 member.2) entries).toList =
      entries.toList ++ rest.toList := by
  match rest with
  | .nil => simp [toList]
  | .cons key above value rest =>
      have last : ∀ entry ∈ entries.toList, entry.1 < key :=
        fun entry member => apart entry member (key, value) List.mem_cons_self
      have grown : (entries.insert key value).toList = entries.toList ++ [(key, value)] :=
        toList_insertAbove_last key value entries trivial last
      have still : ∀ entry ∈ (entries.insert key value).toList, ∀ later ∈ rest.toList,
          entry.1 < later.1 := by
        intro entry member later isLater
        rw [grown] at member
        rcases List.mem_append.1 member with earlier | isNew
        · exact apart entry earlier later (List.mem_cons_of_mem _ isLater)
        · rw [List.mem_singleton.1 isNew]
          exact above_of_mem rest isLater
      rw [toList, List.foldl_cons, toList_foldl_insert rest _ still, grown, List.append_assoc]
      rfl

/-- **A map is what its entries make.** -/
theorem ofMembers_toList (entries : JsonEntries ν none) : ofMembers entries.toList = entries :=
  toList_injective _ _ (toList_foldl_insert entries .nil nofun)

end JsonEntries

end Openyak.Theory
