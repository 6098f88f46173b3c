/-
# Theory.Scanning -- what a scanner takes from the front of a list

A scanner that takes what passes `p` takes exactly a run of such items when the rest
`StopsAt` it.  Then run and rest are determined by the list they make (`spans_unique`).
-/
import Mathlib.Data.List.TakeWhile

namespace Openyak.Theory

set_option autoImplicit false

variable {α β ε : Type} {p : α → Bool}

theorem ok_bind (a : α) (f : α → Except ε β) : (Except.ok a >>= f) = f a := rfl

theorem bind_eq_ok {x : Except ε α} {f : α → Except ε β} {b : β} :
    x >>= f = .ok b ↔ ∃ a, x = .ok a ∧ f a = .ok b := by
  cases x with
  | error e => exact ⟨nofun, fun ⟨_, isOk, _⟩ => nomatch isOk⟩
  | ok a => exact ⟨fun last => ⟨a, rfl, last⟩, fun ⟨_, isOk, last⟩ => Except.ok.inj isOk ▸ last⟩

/-- The first item, if there is one, does not pass. -/
def StopsAt (p : α → Bool) : List α → Prop
  | [] => True
  | item :: _ => p item = false

theorem takeWhile_run {run rest : List α} (passes : ∀ item ∈ run, p item = true)
    (stops : StopsAt p rest) : (run ++ rest).takeWhile p = run := by
  rw [List.takeWhile_append_of_pos passes]
  cases rest with
  | nil => simp
  | cons item rest =>
      have fails : p item = false := stops
      simp [fails]

theorem dropWhile_run {run rest : List α} (passes : ∀ item ∈ run, p item = true)
    (stops : StopsAt p rest) : (run ++ rest).dropWhile p = rest := by
  rw [List.dropWhile_append_of_pos passes]
  cases rest with
  | nil => rfl
  | cons item rest =>
      have fails : p item = false := stops
      simp [fails]

/-- **Run and rest are determined** by the list they make. -/
theorem spans_unique {run other rest behind : List α} (same : run ++ rest = other ++ behind)
    (passes : ∀ item ∈ run, p item = true) (otherPasses : ∀ item ∈ other, p item = true)
    (stops : StopsAt p rest) (otherStops : StopsAt p behind) : run = other ∧ rest = behind := by
  have taken := takeWhile_run passes stops
  have dropped := dropWhile_run passes stops
  rw [same] at taken dropped
  rw [takeWhile_run otherPasses otherStops] at taken
  rw [dropWhile_run otherPasses otherStops] at dropped
  exact ⟨taken.symm, dropped.symm⟩

end Openyak.Theory
