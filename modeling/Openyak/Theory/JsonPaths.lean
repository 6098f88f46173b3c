/-
# Theory.JsonPaths -- values under paths of keys, and the numbers of a value

A path of keys leads through objects.  What is set under a path is found there, and every
path that neither leads to it nor through it finds what it found before.

`map` changes the numbers and nothing else, so it goes past every operation on objects.
`allOff` asks a predicate of the numbers that setting a path leaves.
-/
import Openyak.Theory.JsonTree
import Mathlib.Data.List.Basic

namespace Openyak.Theory

set_option autoImplicit false

variable {ν μ : Type}

/-! ## Entries by key -/

namespace JsonEntries

/-- A key stands once, so its entry is what `get?` finds. -/
theorem mem_toList {low : Option String} (entries : JsonEntries ν low) (key : String)
    (value : JsonTree ν) : (key, value) ∈ entries.toList ↔ entries.get? key = some value := by
  match entries with
  | .nil => simp [toList, get?]
  | .cons found above held rest =>
      rw [toList, List.mem_cons, get?_cons, mem_toList rest key value]
      by_cases same : found = key
      · subst same
        have once : rest.get? found ≠ some value := by
          intro again
          have behind := above_of_mem rest ((mem_toList rest found value).2 again)
          exact String.lt_irrefl _ behind
        simp [once, eq_comm]
      · simp [same, Ne.symm same]

end JsonEntries

/-! ## Numbers -/

mutual

/-- The value with other numbers. -/
def JsonTree.map (f : ν → μ) : JsonTree ν → JsonTree μ
  | .null => .null
  | .bool value => .bool value
  | .number value => .number (f value)
  | .string value => .string value
  | .array values => .array (JsonTree.mapValues f values)
  | .object entries => .object (entries.map f)

def JsonTree.mapValues (f : ν → μ) : List (JsonTree ν) → List (JsonTree μ)
  | [] => []
  | value :: rest => value.map f :: JsonTree.mapValues f rest

def JsonEntries.map (f : ν → μ) : {low : Option String} → JsonEntries ν low → JsonEntries μ low
  | _, .nil => .nil
  | _, .cons key above value rest => .cons key above (value.map f) (rest.map f)

end

mutual

/-- Every number meets `p`. -/
def JsonTree.all (p : ν → Bool) : JsonTree ν → Bool
  | .null | .bool _ | .string _ => true
  | .number value => p value
  | .array values => JsonTree.allValues p values
  | .object entries => entries.all p

def JsonTree.allValues (p : ν → Bool) : List (JsonTree ν) → Bool
  | [] => true
  | value :: rest => value.all p && JsonTree.allValues p rest

def JsonEntries.all (p : ν → Bool) : {low : Option String} → JsonEntries ν low → Bool
  | _, .nil => true
  | _, .cons _ _ value rest => value.all p && rest.all p

end

namespace JsonEntries

section Map

variable (f : ν → μ)

theorem get?_map {low : Option String} (key : String) (entries : JsonEntries ν low) :
    (entries.map f).get? key = (entries.get? key).map (JsonTree.map f) := by
  match entries with
  | .nil => rfl
  | .cons found above value rest =>
      rw [map, get?_cons, get?_cons, get?_map key rest]
      split <;> rfl

theorem insertAbove_map {low : Option String} (key : String) (value : JsonTree ν)
    (entries : JsonEntries ν low) (above : Above low key) :
    (entries.insertAbove key value above).map f =
      (entries.map f).insertAbove key (value.map f) above := by
  match entries with
  | .nil => rfl
  | .cons found isAbove held rest =>
      rw [map, insertAbove, insertAbove]
      by_cases same : key = found
      · rw [dif_pos same, dif_pos same, map]
      · by_cases less : key < found
        · rw [dif_neg same, dif_neg same, dif_pos less, dif_pos less, map, map]
        · rw [dif_neg same, dif_neg same, dif_neg less, dif_neg less, map,
            insertAbove_map key value rest]

theorem insert_map (entries : JsonEntries ν none) (key : String) (value : JsonTree ν) :
    (entries.insert key value).map f = (entries.map f).insert key (value.map f) :=
  insertAbove_map f key value entries trivial

theorem remove_map {low : Option String} (entries : JsonEntries ν low) (key : String) :
    (entries.remove key).map f = (entries.map f).remove key := by
  match entries with
  | .nil => rfl
  | .cons found above value rest =>
      rw [map, remove, remove]
      by_cases same : found = key
      · rw [if_pos same, if_pos same]
        cases rest <;> rfl
      · rw [if_neg same, if_neg same, map, remove_map rest key]

/-- The map of mapped members. -/
theorem ofMembers_map (members : List (String × JsonTree ν)) :
    (ofMembers members).map f =
      ofMembers (members.map fun member => (member.1, member.2.map f)) := by
  have along : ∀ entries : JsonEntries ν none,
      (members.foldl (fun entries member => entries.insert member.1 member.2) entries).map f =
        (members.map fun member => (member.1, member.2.map f)).foldl
          (fun entries member => entries.insert member.1 member.2) (entries.map f) := by
    induction members with
    | nil =>
        intro entries
        rfl
    | cons member members ih =>
        intro entries
        rw [List.foldl_cons, ih, insert_map, List.map_cons, List.foldl_cons]
  exact along .nil

end Map

theorem all_iff (p : ν → Bool) {low : Option String} (entries : JsonEntries ν low) :
    entries.all p = true ↔ ∀ key value, entries.get? key = some value → value.all p = true := by
  have inEntries : entries.all p = true ↔ ∀ entry ∈ entries.toList, entry.2.all p = true := by
    match entries with
    | .nil => simp [all, toList]
    | .cons key above value rest =>
        have later := all_iff p rest
        simp only [← mem_toList] at later
        simp [all, toList, later]
  rw [inEntries]
  constructor
  · intro each key value found
    exact each (key, value) ((mem_toList entries key value).2 found)
  · intro each entry member
    exact each entry.1 entry.2 ((mem_toList entries entry.1 entry.2).1 member)

end JsonEntries

section MapMap

variable {κ : Type}

mutual

theorem JsonTree.map_map (f : ν → μ) (g : μ → κ) (value : JsonTree ν) :
    (value.map f).map g = value.map fun number => g (f number) := by
  match value with
  | .null | .bool _ | .string _ | .number _ => rfl
  | .array values => exact congrArg JsonTree.array (JsonTree.mapValues_map f g values)
  | .object entries => exact congrArg JsonTree.object (JsonEntries.map_map f g entries)

theorem JsonTree.mapValues_map (f : ν → μ) (g : μ → κ) (values : List (JsonTree ν)) :
    JsonTree.mapValues g (JsonTree.mapValues f values) =
      JsonTree.mapValues (fun number => g (f number)) values := by
  match values with
  | [] => rfl
  | value :: rest =>
      exact congrArg₂ List.cons (JsonTree.map_map f g value) (JsonTree.mapValues_map f g rest)

theorem JsonEntries.map_map (f : ν → μ) (g : μ → κ) {low : Option String}
    (entries : JsonEntries ν low) :
    (entries.map f).map g = entries.map fun number => g (f number) := by
  match entries with
  | .nil => rfl
  | .cons key above value rest =>
      rw [JsonEntries.map, JsonEntries.map, JsonEntries.map, JsonTree.map_map f g value,
        JsonEntries.map_map f g rest]

end

section MapEq

variable {f g : ν → μ} {p : ν → Bool}

mutual

/-- Maps that agree on the numbers that are there. -/
theorem JsonTree.map_eq_of_all (agree : ∀ number, p number = true → f number = g number)
    {value : JsonTree ν} (all : value.all p = true) : value.map f = value.map g := by
  match value with
  | .null | .bool _ | .string _ => rfl
  | .number number => exact congrArg JsonTree.number (agree number all)
  | .array values => exact congrArg JsonTree.array (JsonTree.mapValues_eq_of_all agree all)
  | .object entries => exact congrArg JsonTree.object (JsonEntries.map_eq_of_all agree all)

theorem JsonTree.mapValues_eq_of_all (agree : ∀ number, p number = true → f number = g number)
    {values : List (JsonTree ν)} (all : JsonTree.allValues p values = true) :
    JsonTree.mapValues f values = JsonTree.mapValues g values := by
  match values with
  | [] => rfl
  | value :: rest =>
      obtain ⟨own, others⟩ := Bool.and_eq_true_iff.1 all
      exact congrArg₂ List.cons (JsonTree.map_eq_of_all agree own)
        (JsonTree.mapValues_eq_of_all agree others)

theorem JsonEntries.map_eq_of_all (agree : ∀ number, p number = true → f number = g number)
    {low : Option String} {entries : JsonEntries ν low} (all : entries.all p = true) :
    entries.map f = entries.map g := by
  match entries with
  | .nil => rfl
  | .cons key above value rest =>
      obtain ⟨own, others⟩ := Bool.and_eq_true_iff.1 all
      rw [JsonEntries.map, JsonEntries.map, JsonTree.map_eq_of_all agree own,
        JsonEntries.map_eq_of_all agree others]

end

end MapEq

end MapMap

section All

mutual

theorem JsonTree.all_map (f : ν → μ) (p : μ → Bool) (value : JsonTree ν) :
    (value.map f).all p = value.all fun number => p (f number) := by
  match value with
  | .null | .bool _ | .string _ | .number _ => rfl
  | .array values => exact JsonTree.allValues_map f p values
  | .object entries => exact JsonEntries.all_map f p entries

theorem JsonTree.allValues_map (f : ν → μ) (p : μ → Bool) (values : List (JsonTree ν)) :
    JsonTree.allValues p (JsonTree.mapValues f values) =
      JsonTree.allValues (fun number => p (f number)) values := by
  match values with
  | [] => rfl
  | value :: rest =>
      rw [JsonTree.mapValues, JsonTree.allValues, JsonTree.allValues, JsonTree.all_map f p value,
        JsonTree.allValues_map f p rest]

theorem JsonEntries.all_map (f : ν → μ) (p : μ → Bool) {low : Option String}
    (entries : JsonEntries ν low) :
    (entries.map f).all p = entries.all fun number => p (f number) := by
  match entries with
  | .nil => rfl
  | .cons key above value rest =>
      rw [JsonEntries.map, JsonEntries.all, JsonEntries.all, JsonTree.all_map f p value, JsonEntries.all_map f p rest]

end

mutual

theorem JsonTree.all_and (p q : ν → Bool) (value : JsonTree ν) :
    (value.all fun number => p number && q number) = (value.all p && value.all q) := by
  match value with
  | .null | .bool _ | .string _ | .number _ => rfl
  | .array values => exact JsonTree.allValues_and p q values
  | .object entries => exact JsonEntries.all_and p q entries

theorem JsonTree.allValues_and (p q : ν → Bool) (values : List (JsonTree ν)) :
    JsonTree.allValues (fun number => p number && q number) values =
      (JsonTree.allValues p values && JsonTree.allValues q values) := by
  match values with
  | [] => rfl
  | value :: rest =>
      rw [JsonTree.allValues, JsonTree.allValues, JsonTree.allValues, JsonTree.all_and p q value,
        JsonTree.allValues_and p q rest]
      ac_rfl

theorem JsonEntries.all_and (p q : ν → Bool) {low : Option String} (entries : JsonEntries ν low) :
    (entries.all fun number => p number && q number) = (entries.all p && entries.all q) := by
  match entries with
  | .nil => rfl
  | .cons key above value rest =>
      rw [JsonEntries.all, JsonEntries.all, JsonEntries.all, JsonTree.all_and p q value, JsonEntries.all_and p q rest]
      ac_rfl

end

theorem JsonEntries.all_mono {p q : ν → Bool} (implies : ∀ number, p number = true → q number = true)
    {low : Option String} {entries : JsonEntries ν low} (all : entries.all p = true) :
    entries.all q = true := by
  have both : (fun number => p number && q number) = p := by
    funext number
    cases meets : p number with
    | false => rfl
    | true => rw [implies number meets, Bool.and_self]
  rw [← both, JsonEntries.all_and, Bool.and_eq_true] at all
  exact all.2

end All

/-! ## Paths -/

/-- `Value::as_object`. -/
def JsonTree.asObject? : JsonTree ν → Option (JsonEntries ν none)
  | .object entries => some entries
  | _ => none

/-- The value behind keys, one object after the other. -/
def JsonTree.follow (value : JsonTree ν) : List String → Option (JsonTree ν)
  | [] => some value
  | key :: keys => (value.asObject?.bind (·.get? key)).bind fun next => next.follow keys

namespace JsonEntries

def getPath (entries : JsonEntries ν none) : List String → Option (JsonTree ν)
  | [] => none
  | key :: keys => (entries.get? key).bind (·.follow keys)

/-- The object under a key, and an empty one where there is none. -/
def objectAt (entries : JsonEntries ν none) (key : String) : JsonEntries ν none :=
  ((entries.get? key).bind JsonTree.asObject?).getD .nil

/-- Objects on the way are made, and take the place of other values. -/
def setPath (value : JsonTree ν) : List String → JsonEntries ν none → JsonEntries ν none
  | [], entries => entries
  | [key], entries => entries.insert key value
  | key :: next :: keys, entries =>
      entries.insert key (.object (setPath value (next :: keys) (entries.objectAt key)))

/-- Every number that is not under the path meets `p`. -/
def allOff (p : ν → Bool) : List String → JsonEntries ν none → Bool
  | [], entries => entries.all p
  | [key], entries => entries.toList.all fun entry => entry.1 = key || entry.2.all p
  | key :: next :: keys, entries =>
      (entries.toList.all fun entry => entry.1 = key || entry.2.all p) &&
        allOff p (next :: keys) (entries.objectAt key)

section Paths

variable (value : JsonTree ν)

/-- Below a key that is no object there is nothing. -/
theorem getPath_below (entries : JsonEntries ν none) (key next : String) (keys : List String) :
    entries.getPath (key :: next :: keys) = (entries.objectAt key).getPath (next :: keys) := by
  rw [getPath, objectAt]
  cases entries.get? key with
  | none => rfl
  | some held => cases held <;> rfl

/-- **What is set is found.** -/
theorem getPath_setPath (entries : JsonEntries ν none) {path : List String} (some_ : path ≠ []) :
    (entries.setPath value path).getPath path = some value := by
  induction path generalizing entries with
  | nil => exact absurd rfl some_
  | cons key keys ih =>
      cases keys with
      | nil => simp [setPath, getPath, JsonTree.follow]
      | cons next keys =>
          rw [getPath_below, setPath, objectAt, get?_insert, if_pos rfl]
          exact ih (entries.objectAt key) (List.cons_ne_nil next keys)

/-- **Every other path finds what it found.** -/
theorem getPath_setPath_other (entries : JsonEntries ν none) {path other : List String}
    (notAbove : ¬other <+: path) (notBelow : ¬path <+: other) :
    (entries.setPath value path).getPath other = entries.getPath other := by
  induction path generalizing entries other with
  | nil => exact absurd List.nil_prefix notBelow
  | cons key keys ih =>
      cases other with
      | nil => exact absurd List.nil_prefix notAbove
      | cons first others =>
          by_cases same : key = first
          · subst same
            rw [List.cons_prefix_cons] at notAbove notBelow
            have notAbove' : ¬others <+: keys := fun above => notAbove ⟨rfl, above⟩
            have notBelow' : ¬keys <+: others := fun below => notBelow ⟨rfl, below⟩
            cases keys with
            | nil => exact absurd List.nil_prefix notBelow'
            | cons next keys =>
                cases others with
                | nil => exact absurd List.nil_prefix notAbove'
                | cons second others =>
                    rw [getPath_below, getPath_below, setPath, objectAt, get?_insert, if_pos rfl]
                    exact ih (entries.objectAt key) notAbove' notBelow'
          · have elsewhere : (entries.setPath value (key :: keys)).get? first =
                entries.get? first := by
              cases keys with
              | nil => rw [setPath, get?_insert, if_neg same]
              | cons next keys => rw [setPath, get?_insert, if_neg same]
            rw [getPath, getPath, elsewhere]

end Paths

section Map

variable (f : ν → μ)

theorem asObject?_map (value : JsonTree ν) :
    (value.map f).asObject? = value.asObject?.map (JsonEntries.map f) := by
  cases value <;> rfl

theorem follow_map (value : JsonTree ν) (keys : List String) :
    (value.map f).follow keys = (value.follow keys).map (JsonTree.map f) := by
  induction keys generalizing value with
  | nil => rfl
  | cons key keys ih =>
      rw [JsonTree.follow, JsonTree.follow, asObject?_map]
      cases value.asObject? with
      | none => rfl
      | some entries =>
          show (((entries.map f).get? key).bind fun next => next.follow keys) = _
          rw [get?_map]
          cases found : entries.get? key with
          | none => simp [found]
          | some held => simpa [found] using ih held

theorem getPath_map (entries : JsonEntries ν none) (path : List String) :
    (entries.map f).getPath path = (entries.getPath path).map (JsonTree.map f) := by
  cases path with
  | nil => rfl
  | cons key keys => exact follow_map f (.object entries) (key :: keys)

end Map

section All

variable (p : ν → Bool)

theorem all_offKey (entries : JsonEntries ν none) (key : String) :
    (entries.toList.all fun entry => entry.1 = key || entry.2.all p) = true ↔
      ∀ other value, other ≠ key → entries.get? other = some value → value.all p = true := by
  simp only [List.all_eq_true, Bool.or_eq_true, decide_eq_true_eq]
  constructor
  · intro each other value differs found
    exact (each (other, value) ((mem_toList entries other value).2 found)).resolve_left differs
  · rintro each ⟨other, value⟩ member
    by_cases same : other = key
    · exact Or.inl same
    · exact Or.inr (each other value same ((mem_toList entries other value).1 member))

theorem all_insert (entries : JsonEntries ν none) (key : String) (value : JsonTree ν) :
    (entries.insert key value).all p =
      ((entries.toList.all fun entry => entry.1 = key || entry.2.all p) && value.all p) := by
  rw [Bool.eq_iff_iff, Bool.and_eq_true, all_offKey, all_iff]
  simp only [get?_insert]
  constructor
  · intro each
    refine ⟨fun other held differs found => each other held ?_, each key value (if_pos rfl)⟩
    rw [if_neg (Ne.symm differs), found]
  · rintro ⟨others, own⟩ other held found
    by_cases same : key = other
    · rw [if_pos same] at found
      exact Option.some.inj found ▸ own
    · rw [if_neg same] at found
      exact others other held (Ne.symm same) found

theorem all_remove {entries : JsonEntries ν none} (key : String) (all_ : entries.all p = true) :
    (entries.remove key).all p = true := by
  rw [all_iff] at all_ ⊢
  intro other value found
  rw [get?_remove] at found
  split at found
  · cases found
  · exact all_ other value found

theorem all_ofMembers {members : List (String × JsonTree ν)}
    (each : ∀ member ∈ members, member.2.all p = true) : (ofMembers members).all p = true := by
  have along : ∀ entries : JsonEntries ν none, entries.all p = true →
      (members.foldl (fun entries member => entries.insert member.1 member.2) entries).all p =
        true := by
    induction members with
    | nil => exact fun entries all => all
    | cons member members ih =>
        intro entries all
        refine ih (fun other later => each other (List.mem_cons_of_mem _ later)) _ ?_
        rw [all_insert, Bool.and_eq_true, all_offKey]
        refine ⟨fun other held _ found => ?_, each member List.mem_cons_self⟩
        exact (all_iff p entries).1 all other held found
  exact along .nil rfl

/-- **The numbers after a path is set** are those of its value and those off the path. -/
theorem all_setPath (value : JsonTree ν) (entries : JsonEntries ν none) {path : List String}
    (some_ : path ≠ []) :
    (entries.setPath value path).all p = (entries.allOff p path && value.all p) := by
  induction path generalizing entries with
  | nil => exact absurd rfl some_
  | cons key keys ih =>
      cases keys with
      | nil => rw [setPath, allOff, all_insert]
      | cons next keys =>
          rw [setPath, allOff, all_insert, JsonTree.all,
            ih (entries.objectAt key) (List.cons_ne_nil next keys), Bool.and_assoc]

theorem toList_map (f : ν → μ) {low : Option String} (entries : JsonEntries ν low) :
    (entries.map f).toList = entries.toList.map fun entry => (entry.1, entry.2.map f) := by
  match entries with
  | .nil => rfl
  | .cons key above value rest => rw [map, toList, toList, toList_map f rest, List.map_cons]

theorem objectAt_map (f : ν → μ) (entries : JsonEntries ν none) (key : String) :
    (entries.map f).objectAt key = (entries.objectAt key).map f := by
  rw [objectAt, objectAt, get?_map]
  cases entries.get? key with
  | none => rfl
  | some held => cases held <;> rfl

theorem all_objectAt (p : ν → Bool) {entries : JsonEntries ν none} (all : entries.all p = true)
    (key : String) : (entries.objectAt key).all p = true := by
  rw [objectAt]
  cases found : entries.get? key with
  | none => rfl
  | some held =>
      cases held with
      | object inner => exact (all_iff p entries).1 all key (.object inner) found
      | _ => rfl

theorem allOff_of_all (p : ν → Bool) (entries : JsonEntries ν none) (path : List String)
    (all : entries.all p = true) : entries.allOff p path = true := by
  have others : ∀ key, (entries.toList.all fun entry => entry.1 = key || entry.2.all p) = true := by
    intro key
    rw [all_offKey]
    exact fun other value _ found => (all_iff p entries).1 all other value found
  induction path generalizing entries with
  | nil => exact all
  | cons key keys ih =>
      cases keys with
      | nil => exact others key
      | cons next keys =>
          have within := all_objectAt p all key
          rw [allOff, others key, Bool.true_and]
          refine ih (entries.objectAt key) within fun other => ?_
          rw [all_offKey]
          exact fun another value _ found => (all_iff p _).1 within another value found

theorem allOff_nil (p : ν → Bool) (path : List String) : allOff p path .nil = true := by
  induction path with
  | nil => rfl
  | cons key keys ih =>
      cases keys with
      | nil => rfl
      | cons next keys => exact ih

theorem allOff_map (f : ν → μ) (p : μ → Bool) (entries : JsonEntries ν none) (path : List String) :
    (entries.map f).allOff p path = entries.allOff (fun number => p (f number)) path := by
  have first : ∀ key, ((entries.map f).toList.all fun entry => entry.1 = key || entry.2.all p) =
      entries.toList.all fun entry => entry.1 = key || entry.2.all fun number => p (f number) := by
    intro key
    rw [toList_map, List.all_map]
    simp only [Function.comp_def, JsonTree.all_map]
  induction path generalizing entries with
  | nil => exact JsonEntries.all_map f p entries
  | cons key keys ih =>
      cases keys with
      | nil => exact first key
      | cons next keys =>
          rw [allOff, allOff, first key, objectAt_map]
          refine congrArg _ (ih (entries.objectAt key) fun other => ?_)
          rw [toList_map, List.all_map]
          simp only [Function.comp_def, JsonTree.all_map]

end All

end JsonEntries

end Openyak.Theory
