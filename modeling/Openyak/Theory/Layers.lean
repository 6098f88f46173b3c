/-
# Theory.Layers -- what layers say of one place, the later ones counting more

A layer says nothing of a place, hides what stood there, or sets a value, which may be put
together with the value it finds.  Where only blocks are put together, and make a block, the
last layer that says anything decides all but the inside of a block (`layOver_last`).
-/
import Mathlib.Data.List.Induction

namespace Openyak.Theory

set_option autoImplicit false

inductive Said (α : Type) where
  | silent
  | hides
  | sets (value : α)

variable {α : Type}

namespace Said

/-- What stands at the place behind the layer, where `held` stood. -/
def layOver (merge : Option α → α → α) (held : Option α) : Said α → Option α
  | .silent => held
  | .hides => none
  | .sets value => some (merge held value)

/-- What the last layer that says anything says. -/
def last : List (Said α) → Said α
  | [] => .silent
  | said :: rest =>
      match last rest with
      | .silent => said
      | .hides => .hides
      | .sets value => .sets value

@[simp] theorem last_nil : last ([] : List (Said α)) = .silent := rfl

theorem last_cons_of_ne {said : Said α} {rest : List (Said α)} (speaks : last rest ≠ .silent) :
    last (said :: rest) = last rest := by
  rw [last]
  cases later : last rest with
  | silent => exact absurd later speaks
  | hides => rfl
  | sets value => rfl

theorem last_cons_of_silent {said : Said α} {rest : List (Said α)} (silent : last rest = .silent) :
    last (said :: rest) = said := by
  rw [last, silent]

theorem last_silent_iff {said : List (Said α)} : last said = .silent ↔ ∀ word ∈ said, word = .silent := by
  induction said with
  | nil => simp
  | cons first rest ih =>
      rw [List.forall_mem_cons]
      by_cases silent : last rest = .silent
      · rw [last_cons_of_silent silent]
        exact ⟨fun isSilent => ⟨isSilent, ih.1 silent⟩, fun both => both.1⟩
      · rw [last_cons_of_ne silent]
        exact ⟨fun isSilent => absurd isSilent silent, fun both => absurd (ih.2 both.2) silent⟩

theorem last_append_of_ne {before after : List (Said α)} (speaks : last after ≠ .silent) :
    last (before ++ after) = last after := by
  induction before with
  | nil => rfl
  | cons first rest ih =>
      rw [List.cons_append, last_cons_of_ne (by rw [ih]; exact speaks), ih]

theorem last_append_of_silent {before after : List (Said α)} (silent : last after = .silent) :
    last (before ++ after) = last before := by
  induction before with
  | nil => exact silent
  | cons first rest ih => rw [List.cons_append, last, ih, last]

/-- The last word is some layer's. -/
theorem last_mem {said : List (Said α)} (speaks : last said ≠ .silent) : last said ∈ said := by
  induction said with
  | nil => exact absurd rfl speaks
  | cons first rest ih =>
      by_cases silent : last rest = .silent
      · rw [last_cons_of_silent silent]
        exact List.mem_cons_self
      · rw [last_cons_of_ne silent]
        exact List.mem_cons_of_mem _ (ih silent)

theorem last_concat {said : List (Said α)} {word : Said α} :
    last (said ++ [word]) = if word matches .silent then last said else word := by
  cases word with
  | silent => exact last_append_of_silent rfl
  | hides => exact last_append_of_ne nofun
  | sets value => exact last_append_of_ne nofun

/-- What stands where the last word is this one: a value, or a block for a block. -/
def Stands (isBlock : α → Prop) (held : Option α) : Said α → Prop
  | .silent | .hides => held = none
  | .sets value => (¬isBlock value → held = some value) ∧
      (isBlock value → ∃ block, held = some block ∧ isBlock block)

variable {merge : Option α → α → α} {isBlock : α → Prop}

/-- **The last word decides**, however many layers went before. -/
theorem layOver_last (plain : ∀ held value, ¬isBlock value → merge held value = value)
    (blocks : ∀ held value, isBlock value → isBlock (merge held value)) (said : List (Said α)) :
    Stands isBlock (said.foldl (layOver merge) none) (last said) := by
  induction said using List.reverseRecOn with
  | nil => rfl
  | append_singleton said word ih =>
      rw [List.foldl_append, List.foldl_cons, List.foldl_nil, last_concat]
      cases word with
      | silent => exact ih
      | hides => rfl
      | sets value =>
          constructor
          · intro isPlain
            exact congrArg some (plain _ value isPlain)
          · intro block
            exact ⟨_, rfl, blocks _ value block⟩

end Said

end Openyak.Theory
