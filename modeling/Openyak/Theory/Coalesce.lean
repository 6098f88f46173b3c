/-
# Theory.Coalesce -- joining neighbours in a list

`coalesce` joins adjacent elements wherever `join?` can, from the right.  When
`join?` is `Associative` the result does not depend on how the list was cut:
`coalesce_append_congr` replaces a stretch by any other with the same result.
An observation that no joinable element has survives (`filterMap_coalesce`).
-/
import Mathlib.Data.List.Basic

namespace Openyak.Theory.Coalesce

set_option autoImplicit false

universe u v

variable {ε : Type u} {γ : Type v} (join? : ε → ε → Option ε)

/-- Put an element in front, joined with the first one if that can be. -/
def push (x : ε) : List ε → List ε
  | [] => [x]
  | y :: ys =>
      match join? x y with
      | some joined => joined :: ys
      | none => x :: y :: ys

def coalesce (xs : List ε) : List ε := xs.foldr (push join?) []

/-- Three neighbours join the same way from either side, and what a joined
element cannot be joined with, its right part cannot either. -/
structure Associative : Prop where
  assoc : ∀ a b c, (join? a b).bind (join? · c) = (join? b c).bind (join? a ·)
  right : ∀ a b c ab, join? a b = some ab → join? ab c = none → join? b c = none

variable {join?}

@[simp] theorem coalesce_nil : coalesce join? [] = [] := rfl

theorem coalesce_cons (x : ε) (xs : List ε) :
    coalesce join? (x :: xs) = push join? x (coalesce join? xs) := rfl

theorem coalesce_append (xs ys : List ε) :
    coalesce join? (xs ++ ys) = xs.foldr (push join?) (coalesce join? ys) :=
  List.foldr_append

/-- Joining two elements first makes no difference to what they are pushed on. -/
theorem push_push_joined (associative : Associative join?) {x y joined : ε} (zs : List ε)
    (join : join? x y = some joined) :
    push join? x (push join? y zs) = push join? joined zs := by
  cases zs with
  | nil => simp [push, join]
  | cons z zs =>
      have both := associative.assoc x y z
      rw [join, Option.bind_some] at both
      cases right : join? y z with
      | none =>
          rw [right, Option.bind_none] at both
          simp [push, right, join, both]
      | some yz =>
          rw [right, Option.bind_some] at both
          cases all : join? joined z with
          | none => simp [associative.right x y z joined join all] at right
          | some whole => simp [push, right, ← both, all]

/-- Pushing on a list joined later is pushing on it as it is. -/
theorem foldr_push (associative : Associative join?) (x : ε) (xs zs : List ε) :
    push join? x (xs.foldr (push join?) zs) = (push join? x xs).foldr (push join?) zs := by
  cases xs with
  | nil => rfl
  | cons y ys =>
      simp only [push]
      cases join : join? x y with
      | none => rfl
      | some joined => exact push_push_joined associative _ join

theorem foldr_coalesce (associative : Associative join?) (xs zs : List ε) :
    xs.foldr (push join?) zs = (coalesce join? xs).foldr (push join?) zs := by
  induction xs with
  | nil => rfl
  | cons x xs ih =>
      rw [List.foldr_cons, ih, coalesce_cons, foldr_push associative]

/-- **What a list coalesces to depends on its stretches only through theirs.** -/
theorem coalesce_append_congr (associative : Associative join?) {xs xs' ys ys' : List ε}
    (left : coalesce join? xs = coalesce join? xs')
    (right : coalesce join? ys = coalesce join? ys') :
    coalesce join? (xs ++ ys) = coalesce join? (xs' ++ ys') := by
  rw [coalesce_append, coalesce_append, right, foldr_coalesce associative xs, left,
    ← foldr_coalesce associative]

/-- An observation that joinable elements do not have is kept. -/
theorem filterMap_coalesce (observe : ε → Option γ)
    (blind : ∀ a b c, join? a b = some c →
      observe a = none ∧ observe b = none ∧ observe c = none) (xs : List ε) :
    (coalesce join? xs).filterMap observe = xs.filterMap observe := by
  induction xs with
  | nil => rfl
  | cons x xs ih =>
      rw [coalesce_cons, List.filterMap_cons, ← ih]
      cases coalesce join? xs with
      | nil => simp [push, List.filterMap_cons]
      | cons y ys =>
          simp only [push]
          cases join : join? x y with
          | none => simp [List.filterMap_cons]
          | some joined =>
              obtain ⟨noX, noY, noJoined⟩ := blind x y joined join
              simp [noX, noY, noJoined]

end Openyak.Theory.Coalesce
