/-
# Theory.Demultiplex -- values sent in pieces under keys, and a reader with one slot

Values come interleaved: a value is opened under a key, fed, and closed, and
between that anything may be emitted.  `byKey` puts the pieces together by key.
`oneSlot` holds one value and looks at no key: an opening replaces the value,
food goes to it whatever its key, any close gives it out.

`Orderly` is a condition on the keys alone under which the two give out the same,
`oneSlot_eq_byKey`.  The one-slot reader may be early, when another key's close
makes it give out a value whose own close is still to come; `Watch.ahead` holds
the keys of those values.
-/
import Mathlib.Logic.Function.Basic
import Mathlib.Data.List.Forall2
import Mathlib.Data.List.Nodup

namespace Openyak.Theory.Demultiplex

set_option autoImplicit false
set_option linter.unusedSectionVars false

inductive Piece (κ α δ ο : Type) where
  | opened (key : κ) (value : α)
  | fed (key : κ) (food : δ)
  | closed (key : κ)
  | emitted (out : ο)
  deriving DecidableEq, Repr

/-- What comes out: a value put together, or what was emitted. -/
inductive Out (α ο : Type) where
  | value (given : α)
  | emitted (out : ο)
  deriving DecidableEq, Repr

section Readers

variable {κ α δ ο : Type} [DecidableEq κ] (feed : α → δ → α)

/-! ## The two readers -/

def byKeyStep (held : κ → Option α) : Piece κ α δ ο → (κ → Option α) × List (Out α ο)
  | .opened key value => (Function.update held key (some value), [])
  | .fed key food => (Function.update held key ((held key).map (feed · food)), [])
  | .closed key => (Function.update held key none, (held key).toList.map .value)
  | .emitted out => (held, [.emitted out])

def byKey (held : κ → Option α) : List (Piece κ α δ ο) → List (Out α ο)
  | [] => []
  | piece :: pieces =>
      (byKeyStep feed held piece).2 ++ byKey (byKeyStep feed held piece).1 pieces

def oneSlotStep (slot : Option α) : Piece κ α δ ο → Option α × List (Out α ο)
  | .opened _ value => (some value, [])
  | .fed _ food => (slot.map (feed · food), [])
  | .closed _ => (none, slot.toList.map .value)
  | .emitted out => (slot, [.emitted out])

def oneSlot (slot : Option α) : List (Piece κ α δ ο) → List (Out α ο)
  | [] => []
  | piece :: pieces =>
      (oneSlotStep feed slot piece).2 ++ oneSlot (oneSlotStep feed slot piece).1 pieces

@[simp] theorem byKey_nil (held : κ → Option α) :
    byKey feed held ([] : List (Piece κ α δ ο)) = [] := rfl

@[simp] theorem oneSlot_nil (slot : Option α) :
    oneSlot feed slot ([] : List (Piece κ α δ ο)) = [] := rfl

theorem byKey_cons (held : κ → Option α) (piece : Piece κ α δ ο) (pieces : List (Piece κ α δ ο)) :
    byKey feed held (piece :: pieces) =
      (byKeyStep feed held piece).2 ++ byKey feed (byKeyStep feed held piece).1 pieces := rfl

theorem oneSlot_cons (slot : Option α) (piece : Piece κ α δ ο) (pieces : List (Piece κ α δ ο)) :
    oneSlot feed slot (piece :: pieces) =
      (oneSlotStep feed slot piece).2 ++ oneSlot feed (oneSlotStep feed slot piece).1 pieces := rfl

/-! ## Order -/

/-- What the order of the pieces says of both readers: the keys open; the key of
the value in the slot, and whether all it was fed was its own; the keys whose
values the one-slot reader gave out before their close. -/
structure Watch (κ : Type) where
  opened : List κ := []
  slot : Option (κ × Bool) := none
  ahead : List κ := []
  deriving DecidableEq, Repr

variable (idle : δ → Bool)

/-- The next piece, `none` when it comes out differently. -/
def Watch.step (watch : Watch κ) : Piece κ α δ ο → Option (Watch κ)
  | .opened key _ =>
      if key ∈ watch.ahead then none
      else some { watch with opened := key :: watch.opened, slot := some (key, true) }
  | .fed key food =>
      if idle food then some watch
      else if key ∈ watch.ahead then none
      else some { watch with
        slot := watch.slot.map fun slot => (slot.1, slot.2 && decide (slot.1 = key)) }
  | .closed key =>
      if (watch.slot.any fun slot => !slot.2) then none
      else
        let ahead := watch.ahead ++ (watch.slot.map Prod.fst).toList
        if key ∈ watch.opened then
          if ahead.head? = some key then
            some ⟨watch.opened.filter (· ≠ key), none, ahead.tail⟩
          else none
        else some ⟨watch.opened, none, ahead⟩
  | .emitted _ => if watch.ahead = [] then some watch else none

def Watch.run (watch : Watch κ) : List (Piece κ α δ ο) → Option (Watch κ)
  | [] => some watch
  | piece :: pieces => (watch.step idle piece).bind (·.run pieces)

/-- Every piece comes out alike, and nothing given out early is left unclosed. -/
def Orderly (pieces : List (Piece κ α δ ο)) : Prop :=
  (({} : Watch κ).run idle pieces).any (·.ahead = []) = true

instance (pieces : List (Piece κ α δ ο)) : Decidable (Orderly idle pieces) :=
  inferInstanceAs (Decidable (_ = true))

/-! ## The readers side by side -/

/-- The values given out early, waiting in the reader by key. -/
def Waiting (held : κ → Option α) (keys : List κ) (values : List α) : Prop :=
  List.Forall₂ (fun key value => held key = some value) keys values

/-- The watch is right about the two readers; `early` are the values the one-slot
reader has given out and the reader by key has not. -/
structure Beside (watch : Watch κ) (held : κ → Option α) (slot : Option α)
    (early : List α) : Prop where
  opened : ∀ key, key ∈ watch.opened ↔ held key ≠ none
  empty : watch.slot = none → slot = none
  full : ∀ key own, watch.slot = some (key, own) → ∃ value, slot = some value ∧
    key ∈ watch.opened ∧ key ∉ watch.ahead ∧ (own = true → held key = some value)
  waiting : Waiting held watch.ahead early
  once : watch.ahead.Nodup

theorem Waiting.update {held : κ → Option α} {keys : List κ} {values : List α}
    (waiting : Waiting held keys values) {key : κ} (other : key ∉ keys) (value : Option α) :
    Waiting (Function.update held key value) keys values := by
  induction waiting with
  | nil => exact .nil
  | @cons k v keys values here rest ih =>
      rw [List.mem_cons, not_or] at other
      refine .cons ?_ (ih other.2)
      rw [Function.update_of_ne (Ne.symm other.1)]
      exact here

theorem Beside.open {watch : Watch κ} {held : κ → Option α} {slot : Option α} {early : List α}
    (beside : Beside watch held slot early) {key : κ} (other : key ∉ watch.ahead) (value : α) :
    Beside { watch with opened := key :: watch.opened, slot := some (key, true) }
      (Function.update held key (some value)) (some value) early where
  opened k := by
    by_cases same : k = key
    · simp [same]
    · simp [same, beside.opened k]
  empty := nofun
  full k own here := by
    obtain ⟨rfl, rfl⟩ := Prod.mk.inj (Option.some.inj here)
    exact ⟨value, rfl, List.mem_cons_self, other, fun _ => Function.update_self ..⟩
  waiting := beside.waiting.update other _
  once := beside.once

/-- Food that is not idle goes under its own key, and into the slot. -/
theorem Beside.fed {watch : Watch κ} {held : κ → Option α} {slot : Option α} {early : List α}
    (beside : Beside watch held slot early) {key : κ} (other : key ∉ watch.ahead) (food : δ) :
    Beside { watch with slot := watch.slot.map fun slot => (slot.1, slot.2 && decide (slot.1 = key)) }
      (Function.update held key ((held key).map (feed · food))) (slot.map (feed · food)) early where
  opened k := by
    by_cases same : k = key
    · simp [same, beside.opened key]
    · simp [same, beside.opened k]
  empty none := by
    rw [beside.empty (Option.map_eq_none_iff.1 none)]
    rfl
  full k own here := by
    obtain ⟨⟨l, owned⟩, kept, same⟩ := Option.map_eq_some_iff.1 here
    obtain ⟨rfl, rfl⟩ := Prod.mk.inj same
    obtain ⟨value, inSlot, isOpen, behind, mine⟩ := beside.full l owned kept
    refine ⟨feed value food, by rw [inSlot]; rfl, isOpen, behind, fun both => ?_⟩
    rw [Bool.and_eq_true, decide_eq_true_eq] at both
    obtain ⟨owned, rfl⟩ := both
    rw [Function.update_self, mine owned]
    rfl
  waiting := beside.waiting.update other _
  once := beside.once

/-- Giving out the slot's value puts it last among the early ones. -/
theorem Beside.giveOut {watch : Watch κ} {held : κ → Option α} {slot : Option α} {early : List α}
    (beside : Beside watch held slot early)
    (own : (watch.slot.any fun slot => !slot.2) = false) :
    ∃ given : List α, early.map Out.value ++ slot.toList.map Out.value =
        given.map (Out.value (ο := ο)) ∧
      Waiting held (watch.ahead ++ (watch.slot.map Prod.fst).toList) given ∧
      (watch.ahead ++ (watch.slot.map Prod.fst).toList).Nodup := by
  cases kept : watch.slot with
  | none =>
      rw [beside.empty kept]
      exact ⟨early, by simp, by simpa using beside.waiting, by simpa using beside.once⟩
  | some entry =>
      obtain ⟨key, owned⟩ := entry
      obtain ⟨value, rfl, isOpen, behind, mine⟩ := beside.full key owned kept
      have owned : owned = true := by simpa [kept] using own
      refine ⟨early ++ [value], by simp, ?_, ?_⟩
      · exact List.rel_append beside.waiting (.cons (mine owned) .nil)
      · refine List.nodup_append.2 ⟨beside.once, List.nodup_singleton _, ?_⟩
        intro k member l last
        rw [List.mem_singleton.1 last]
        rintro rfl
        exact behind member

/-- A close: the slot is given out, and with an open key the value given out first
is the key's. -/
theorem Beside.close {watch next : Watch κ} {held : κ → Option α} {slot : Option α}
    {early : List α} (beside : Beside watch held slot early) {key : κ}
    (stepped : watch.step idle (.closed key : Piece κ α δ ο) = some next) :
    ∃ later : List α, Beside next (Function.update held key none) none later ∧
      early.map Out.value ++ slot.toList.map Out.value =
        (held key).toList.map Out.value ++ later.map (Out.value (ο := ο)) := by
  rw [Watch.step, ite_eq_iff] at stepped
  obtain ⟨-, stepped⟩ | ⟨own, stepped⟩ := stepped
  · cases stepped
  obtain ⟨given, out, waiting, once⟩ := beside.giveOut (ο := ο) (by simpa using own)
  by_cases isOpen : key ∈ watch.opened
  · simp only [isOpen, if_true] at stepped
    generalize watch.ahead ++ (watch.slot.map Prod.fst).toList = ahead at *
    cases waiting with
    | nil => simp at stepped
    | @cons first value rest values here waiting =>
        simp only [List.head?_cons, Option.some.injEq, List.tail_cons] at stepped
        rw [ite_eq_iff] at stepped
        obtain ⟨rfl, stepped⟩ | ⟨-, stepped⟩ := stepped
        · cases stepped
          rw [List.nodup_cons] at once
          refine ⟨values, ⟨fun k => ?_, fun _ => rfl, nofun,
            Waiting.update waiting once.1 none, once.2⟩, ?_⟩
          · by_cases same : k = first
            · simp [same]
            · simp [same, beside.opened k]
          · rw [out, here]
            rfl
        · cases stepped
  · simp only [isOpen, if_false, Option.some.injEq] at stepped
    have shut : held key = none := by
      by_contra held
      exact isOpen ((beside.opened key).2 held)
    have still : Function.update held key none = held := by
      rw [← shut, Function.update_eq_self]
    subst stepped
    rw [still, shut]
    exact ⟨given, ⟨beside.opened, fun _ => rfl, nofun, waiting, once⟩, out⟩

/-- One piece: the readers stay beside each other, and what comes out is alike up
to the values given out early. -/
theorem Beside.step (neutral : ∀ value food, idle food = true → feed value food = value)
    {watch next : Watch κ} {held : κ → Option α} {slot : Option α} {early : List α}
    (beside : Beside watch held slot early) (piece : Piece κ α δ ο)
    (stepped : watch.step idle piece = some next) :
    ∃ later : List α,
      Beside next (byKeyStep feed held piece).1 (oneSlotStep feed slot piece).1 later ∧
      early.map Out.value ++ (oneSlotStep feed slot piece).2 =
        (byKeyStep feed held piece).2 ++ later.map Out.value := by
  cases piece with
  | opened key value =>
      rw [Watch.step, ite_eq_iff] at stepped
      obtain ⟨-, stepped⟩ | ⟨other, stepped⟩ := stepped
      · cases stepped
      · cases stepped
        exact ⟨early, beside.open other value, by simp [oneSlotStep, byKeyStep]⟩
  | fed key food =>
      by_cases quiet : idle food = true
      · rw [Watch.step, if_pos quiet] at stepped
        cases stepped
        have same : ∀ stored : Option α, stored.map (feed · food) = stored := by
          intro stored
          cases stored with
          | none => rfl
          | some value => rw [Option.map_some, neutral value food quiet]
        refine ⟨early, ?_, by simp [oneSlotStep, byKeyStep]⟩
        simp only [byKeyStep, oneSlotStep, same, Function.update_eq_self]
        exact beside
      · rw [Watch.step, if_neg quiet, ite_eq_iff] at stepped
        obtain ⟨-, stepped⟩ | ⟨other, stepped⟩ := stepped
        · cases stepped
        · cases stepped
          exact ⟨early, beside.fed feed other food, by simp [oneSlotStep, byKeyStep]⟩
  | closed key => exact beside.close idle stepped
  | emitted out =>
      rw [Watch.step, ite_eq_iff] at stepped
      obtain ⟨level, stepped⟩ | ⟨-, stepped⟩ := stepped
      · cases stepped
        have none := beside.waiting
        rw [level] at none
        cases none
        exact ⟨[], beside, rfl⟩
      · cases stepped

theorem Beside.run (neutral : ∀ value food, idle food = true → feed value food = value)
    {watch last : Watch κ} {held : κ → Option α} {slot : Option α} {early : List α}
    (beside : Beside watch held slot early) (pieces : List (Piece κ α δ ο))
    (ran : watch.run idle pieces = some last) :
    ∃ left : List α, left.length = last.ahead.length ∧
      early.map Out.value ++ oneSlot feed slot pieces =
        byKey feed held pieces ++ left.map Out.value := by
  induction pieces generalizing watch held slot early with
  | nil =>
      cases ran
      exact ⟨early, beside.waiting.length_eq.symm, by simp [oneSlot, byKey]⟩
  | cons piece pieces ih =>
      obtain ⟨next, stepped, ran⟩ := Option.bind_eq_some_iff.1 ran
      obtain ⟨later, beside, out⟩ := beside.step feed idle neutral piece stepped
      obtain ⟨left, length, out'⟩ := ih beside ran
      refine ⟨left, length, ?_⟩
      rw [oneSlot, byKey, ← List.append_assoc, out, List.append_assoc, out', List.append_assoc]

theorem beside_start :
    Beside ({} : Watch κ) (fun _ => none) (none : Option α) [] where
  opened := by simp
  empty _ := rfl
  full := nofun
  waiting := .nil
  once := .nil

/-- Under `Orderly` the one-slot reader gives out what the reader by key does. -/
theorem oneSlot_eq_byKey (neutral : ∀ value food, idle food = true → feed value food = value)
    {pieces : List (Piece κ α δ ο)} (orderly : Orderly idle pieces) :
    oneSlot feed none pieces = byKey feed (fun _ => none) pieces := by
  cases ran : ({} : Watch κ).run idle pieces with
  | none => simp [Orderly, ran] at orderly
  | some last =>
      have level : last.ahead = [] := by simpa [Orderly, ran] using orderly
      obtain ⟨left, length, out⟩ := beside_start.run feed idle neutral pieces ran
      rw [level, List.length_nil, List.length_eq_zero_iff] at length
      simpa [length] using out

/-! ## A value is made of its own pieces -/

def Piece.key? : Piece κ α δ ο → Option κ
  | .opened key _ | .fed key _ | .closed key => some key
  | .emitted _ => none

/-- The pieces under a key. -/
def under (key : κ) (pieces : List (Piece κ α δ ο)) : List (Piece κ α δ ο) :=
  pieces.filter fun piece => piece.key? == some key

/-- Under the key: an opening, food, a close, of which any may be missing. -/
def Tidy (key : κ) (pieces : List (Piece κ α δ ο)) : Prop :=
  ∃ (opening closing : List (Piece κ α δ ο)) (foods : List δ),
    under key pieces = opening ++ foods.map (.fed key) ++ closing ∧
    (opening = [] ∨ ∃ value, opening = [.opened key value]) ∧
    (closing = [] ∨ closing = [.closed key])

/-- The value opened under the key with all the food under it. -/
def wholeValue (key : κ) (pieces : List (Piece κ α δ ο)) : Option α :=
  match under key pieces with
  | .opened _ value :: rest => some ((rest.filterMap fun
      | .fed _ food => some food
      | _ => none).foldl feed value)
  | _ => none

/-- The values closed, in the order of their closes. -/
def completed (pieces : List (Piece κ α δ ο)) : List α :=
  pieces.filterMap fun
    | .closed key => wholeValue feed key pieces
    | _ => none

def Out.value? : Out α ο → Option α
  | .value given => some given
  | .emitted _ => none

/-- What the reader by key holds under a key, from the pieces under it. -/
def ownStep (held : Option α) : Piece κ α δ ο → Option α
  | .opened _ value => some value
  | .fed _ food => held.map (feed · food)
  | .closed _ => none
  | .emitted _ => held

def heldAfter (pieces : List (Piece κ α δ ο)) (key : κ) : Option α :=
  (under key pieces).foldl (ownStep feed) none

theorem byKeyStep_held (held : κ → Option α) (piece : Piece κ α δ ο) (key : κ) :
    (byKeyStep feed held piece).1 key =
      if piece.key? = some key then ownStep feed (held key) piece else held key := by
  cases piece with
  | emitted out => simp [byKeyStep, Piece.key?]
  | opened k value =>
      by_cases same : k = key
      · simp [byKeyStep, Piece.key?, ownStep, same]
      · simp [byKeyStep, Piece.key?, same, Function.update_of_ne (Ne.symm same)]
  | fed k food =>
      by_cases same : k = key
      · simp [byKeyStep, Piece.key?, ownStep, same]
      · simp [byKeyStep, Piece.key?, same, Function.update_of_ne (Ne.symm same)]
  | closed k =>
      by_cases same : k = key
      · simp [byKeyStep, Piece.key?, ownStep, same]
      · simp [byKeyStep, Piece.key?, same, Function.update_of_ne (Ne.symm same)]

theorem heldAfter_append (pieces : List (Piece κ α δ ο)) (piece : Piece κ α δ ο) :
    heldAfter feed (pieces ++ [piece]) = (byKeyStep feed (heldAfter feed pieces) piece).1 := by
  funext key
  rw [byKeyStep_held]
  by_cases own : piece.key? = some key
  · simp [heldAfter, under, own]
  · simp [heldAfter, under, own]

theorem under_closed (key : κ) (before after : List (Piece κ α δ ο)) :
    under key (before ++ .closed key :: after) =
      under key before ++ .closed key :: under key after := by
  simp [under, Piece.key?]

theorem foldl_fed (key : κ) (foods : List δ) (held : Option α) :
    (foods.map (.fed (ο := ο) key)).foldl (ownStep feed) held =
      held.map fun value => foods.foldl feed value := by
  induction foods generalizing held with
  | nil => cases held <;> rfl
  | cons food foods ih =>
      rw [List.map_cons, List.foldl_cons, ih]
      cases held <;> rfl

/-- At its close a tidy key holds its whole value. -/
theorem heldAfter_close {key : κ} {before after : List (Piece κ α δ ο)}
    (tidy : Tidy key (before ++ .closed key :: after)) :
    heldAfter feed before key = wholeValue feed key (before ++ .closed key :: after) := by
  obtain ⟨opening, closing, foods, own, opens, closes⟩ := tidy
  have unclosed : Piece.closed key ∉ opening ++ foods.map (.fed key) := by
    obtain rfl | ⟨value, rfl⟩ := opens <;> simp
  have parts : under key before = opening ++ foods.map (.fed key) ∧ closing = [.closed key] := by
    have whole := own
    rw [under_closed] at whole
    obtain rfl | rfl := closes
    · rw [List.append_nil] at whole
      exact absurd (whole ▸ by simp) unclosed
    · refine ⟨?_, rfl⟩
      obtain ⟨more, same, rest⟩ | ⟨more, same, rest⟩ := List.append_eq_append_iff.1 whole
      · cases more with
        | nil => simpa using same.symm
        | cons piece more =>
            rw [List.cons_append, List.cons.injEq] at rest
            obtain ⟨rfl, -⟩ := rest
            exact absurd (same ▸ by simp) unclosed
      · cases more with
        | nil => simpa using same
        | cons piece more => simp at rest
  rw [heldAfter, parts.1, wholeValue, own, parts.2]
  obtain rfl | ⟨value, rfl⟩ := opens
  · rw [List.nil_append, foldl_fed]
    cases foods <;> rfl
  · rw [List.foldl_append, foldl_fed]
    simp [ownStep, List.filterMap_map]

theorem byKey_rest (pieces : List (Piece κ α δ ο)) (tidy : ∀ key, Tidy key pieces)
    (before rest : List (Piece κ α δ ο)) (whole : pieces = before ++ rest) :
    (byKey feed (heldAfter feed before) rest).filterMap Out.value? =
      rest.filterMap fun
        | .closed key => wholeValue feed key pieces
        | _ => none := by
  induction rest generalizing before with
  | nil => rfl
  | cons piece rest ih =>
      rw [byKey, List.filterMap_append, ← heldAfter_append, ih (before ++ [piece]) (by simp [whole])]
      cases piece with
      | closed key =>
          have own : heldAfter feed before key = wholeValue feed key pieces := by
            subst whole
            exact heldAfter_close feed (tidy key)
          simp only [byKeyStep, own]
          cases closed : wholeValue feed key pieces with
          | none => simp [closed]
          | some value => simp [closed, Out.value?]
      | opened key value => rfl
      | fed key food => rfl
      | emitted out => simp [byKeyStep, Out.value?]

/-- The reader by key gives out each closed value, once and whole. -/
theorem byKey_values {pieces : List (Piece κ α δ ο)} (tidy : ∀ key, Tidy key pieces) :
    (byKey feed (fun _ => none) pieces).filterMap Out.value? = completed feed pieces :=
  byKey_rest feed pieces tidy [] pieces rfl

/-- What is emitted comes out. -/
theorem emitted_mem_byKey (held : κ → Option α) (pieces : List (Piece κ α δ ο)) (out : ο) :
    Out.emitted out ∈ byKey feed held pieces ↔ Piece.emitted out ∈ pieces := by
  induction pieces generalizing held with
  | nil => simp
  | cons piece pieces ih =>
      rw [byKey_cons, List.mem_append, List.mem_cons, ih]
      cases piece with
      | opened key value => simp [byKeyStep]
      | fed key food => simp [byKeyStep]
      | closed key => simp [byKeyStep]
      | emitted other => simp [byKeyStep]

end Readers

end Openyak.Theory.Demultiplex
