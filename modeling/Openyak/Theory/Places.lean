/-
# Theory.Places -- marks on the items of a list, each with the place of its item

`places marks start items` lists the marks of each item in order, each with the index of its
item, counted from `start`.  When every item gives way to several that bear its marks between
them, no mark is lost, the marks keep their order, and of two marks on different items the
earlier one stays on the earlier item (`places_ordered`).
-/
import Mathlib.Data.List.Basic

namespace Openyak.Theory

set_option autoImplicit false

universe u v w

variable {α : Type u} {β : Type v} {γ : Type w}

def places (marks : α → List β) : Nat → List α → List (Nat × β)
  | _, [] => []
  | start, item :: items => (marks item).map (Prod.mk start) ++ places marks (start + 1) items

theorem places_map_snd (marks : α → List β) (start : Nat) (items : List α) :
    (places marks start items).map Prod.snd = items.flatMap marks := by
  induction items generalizing start with
  | nil => rfl
  | cons item items induction =>
      simp only [places, List.map_append, List.map_map, List.flatMap_cons, induction]
      simp [Function.comp_def]

theorem places_append (marks : α → List β) (start : Nat) (front back : List α) :
    places marks start (front ++ back) =
      places marks start front ++ places marks (start + front.length) back := by
  induction front generalizing start with
  | nil => simp [places]
  | cons item front induction =>
      have shift : start + 1 + front.length = start + (front.length + 1) := by omega
      simp only [List.cons_append, places, induction, List.append_assoc, List.length_cons, shift]

theorem places_within {marks : α → List β} {start : Nat} {items : List α} {place : Nat × β}
    (member : place ∈ places marks start items) :
    start ≤ place.1 ∧ place.1 < start + items.length := by
  induction items generalizing start with
  | nil => cases member
  | cons item items induction =>
      rcases List.mem_append.mp member with here | later
      · obtain ⟨mark, -, rfl⟩ := List.mem_map.mp here
        simp
      · have bounds := induction later
        rw [List.length_cons]
        omega

theorem places_of_unmarked {marks : α → List β} {items : List α}
    (unmarked : ∀ item ∈ items, marks item = []) (start : Nat) :
    places marks start items = [] := by
  induction items generalizing start with
  | nil => rfl
  | cons item items induction =>
      rw [places, unmarked item List.mem_cons_self,
        induction fun other member => unmarked other (List.mem_cons_of_mem _ member)]
      rfl

/-- How many items the first `n` give way to. -/
def width (emit : α → List γ) (items : List α) (n : Nat) : Nat :=
  ((items.take n).flatMap emit).length

theorem width_cons (emit : α → List γ) (item : α) (items : List α) (n : Nat) :
    width emit (item :: items) (n + 1) = (emit item).length + width emit items n := by
  simp [width]

theorem width_mono (emit : α → List γ) (items : List α) {m n : Nat} (le : m ≤ n) :
    width emit items m ≤ width emit items n := by
  induction items generalizing m n with
  | nil => simp [width]
  | cons item items induction =>
      cases m with
      | zero => simp [width]
      | succ m =>
          obtain ⟨n, rfl⟩ : ∃ p, n = p + 1 := ⟨n - 1, by omega⟩
          have rest := induction (m := m) (n := n) (by omega)
          rw [width_cons, width_cons]
          omega

section Replaced

variable {emit : α → List γ} {marks : α → List β} {emitted : γ → List β} {items : List α}

/-- The mark with number `k` stays the mark with number `k`, on one of the items that its own
gave way to. -/
theorem places_replaced (same : ∀ item ∈ items, (emit item).flatMap emitted = marks item)
    (origin : Nat) {start k i : Nat} {mark : β} (place : (places marks start items)[k]? = some (i, mark)) :
    ∃ j, (places emitted origin (items.flatMap emit))[k]? = some (j, mark) ∧
      origin + width emit items (i - start) ≤ j ∧
      j < origin + width emit items (i - start + 1) := by
  induction items generalizing start origin k with
  | nil => cases place
  | cons item items induction =>
      have here := same item List.mem_cons_self
      have marked : (places emitted origin (emit item)).map Prod.snd = marks item :=
        (places_map_snd emitted origin (emit item)).trans here
      have count : (places emitted origin (emit item)).length = (marks item).length := by
        rw [← marked, List.length_map]
      rw [List.flatMap_cons, places_append, List.getElem?_append, count]
      rw [places, List.getElem?_append, List.length_map] at place
      split at place
      · rename_i head
        rw [if_pos head]
        rw [List.getElem?_map, ← marked, List.getElem?_map] at place
        simp only [Option.map_eq_some_iff, Prod.mk.injEq] at place
        obtain ⟨_, ⟨⟨j, found⟩, at_k, rfl⟩, rfl, rfl⟩ := place
        have bounds := places_within (List.mem_of_getElem? at_k)
        refine ⟨j, at_k, ?_⟩
        have whole := width_cons emit item items 0
        simp only [Nat.sub_self, Nat.zero_add, width, List.take_zero, List.flatMap_nil,
          List.length_nil, Nat.add_zero] at whole bounds ⊢
        omega
      · rename_i tail
        rw [if_neg tail]
        obtain ⟨j, at_k, least, most⟩ :=
          induction (fun other member => same other (List.mem_cons_of_mem _ member))
            (origin + (emit item).length) place
        have later := (places_within (List.mem_of_getElem? place)).1
        have step : i - start = i - (start + 1) + 1 := by dsimp only at later; omega
        refine ⟨j, at_k, ?_, ?_⟩ <;> rw [step, width_cons] <;> omega

end Replaced

/-- **Marks stay in order across a replacement**: of two marks, each with its own number among
the marks of its kind, the one on the earlier item is on the earlier item afterwards too. -/
theorem places_ordered {emit : α → List γ} {items : List α} {first second : α → List β}
    {firstEmitted secondEmitted : γ → List β}
    (firsts : ∀ item ∈ items, (emit item).flatMap firstEmitted = first item)
    (seconds : ∀ item ∈ items, (emit item).flatMap secondEmitted = second item)
    (origin : Nat) {k l i j : Nat} {mark answer : β}
    (called : (places first 0 items)[k]? = some (i, mark))
    (answered : (places second 0 items)[l]? = some (j, answer)) (before : i < j) :
    ∃ i' j', (places firstEmitted origin (items.flatMap emit))[k]? = some (i', mark) ∧
      (places secondEmitted origin (items.flatMap emit))[l]? = some (j', answer) ∧ i' < j' := by
  obtain ⟨i', at_k, -, most⟩ := places_replaced firsts origin called
  obtain ⟨j', at_l, least, -⟩ := places_replaced seconds origin answered
  have apart := width_mono emit items (show i - 0 + 1 ≤ j - 0 by omega)
  exact ⟨i', j', at_k, at_l, by omega⟩

end Openyak.Theory
