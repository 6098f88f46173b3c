/-
# Theory.Walks -- what a walk of a directory gives, and walks that are built

In a walk each entry stands once, behind the directories it lies in.  So an entry is what
stands at its location (`Walk.mem_iff`), and above it are directories (`Walk.above`).

A walk is built by adding the directories above a location (`dirsTo_spec`) and then what
is to stand there (`Walk.snoc_iff`).
-/
import Openyak.Theory.DirTree
import Mathlib.Data.List.Induction
import Mathlib.Data.List.Infix

namespace Openyak.Theory.DirTree

open Openyak.Theory.Posix (Location Name)

set_option autoImplicit false

variable {done walk tree : Tree} {p q location : Location}

namespace Walk

theorem snoc_iff {entries : List (Location × Node)} {entry : Location × Node} :
    Walk done (entries ++ [entry]) ↔ Walk done entries ∧ node (done ++ entries) entry.1 = none ∧
      ∀ above, above <+: entry.1 → above ≠ entry.1 →
        node (done ++ entries) above = some .directory := by
  induction entries generalizing done with
  | nil => simp [Walk]
  | cons first entries ih =>
      have joined : done ++ [first] ++ entries = done ++ first :: entries := by simp
      rw [List.cons_append, Walk, Walk, ih, joined, and_assoc, and_assoc]

theorem node_snoc (entry : Location × Node) (absent : node walk entry.1 = none) (p : Location) :
    node (walk ++ [entry]) p = if p = entry.1 then some entry.2 else node walk p := by
  rw [node_append]
  by_cases here : p = entry.1
  · rw [if_pos here, here, absent, node_cons, if_pos rfl]
    rfl
  · rw [if_neg here, node_cons, if_neg (Ne.symm here)]
    exact Option.or_none

theorem distinct (walked : Walk [] walk) : walk.Pairwise fun a b => a.1 ≠ b.1 := by
  induction walk using List.reverseRecOn with
  | nil => exact .nil
  | append_singleton walk last ih =>
      obtain ⟨before, absent, -⟩ := snoc_iff.1 walked
      rw [List.pairwise_append]
      refine ⟨ih before, List.pairwise_singleton _ _, fun entry isEntry other isLast => ?_⟩
      rw [List.mem_singleton.1 isLast]
      exact node_eq_none_iff.1 absent entry isEntry

/-- **An entry is what stands at its location.** -/
theorem mem_iff (walked : Walk [] walk) {entry : Location × Node} :
    entry ∈ walk ↔ node walk entry.1 = some entry.2 := by
  induction walk using List.reverseRecOn generalizing entry with
  | nil => simp [node]
  | append_singleton walk last ih =>
      obtain ⟨before, absent, -⟩ := snoc_iff.1 walked
      rw [List.nil_append] at absent
      rw [node_snoc last absent, List.mem_append, List.mem_singleton]
      by_cases here : entry.1 = last.1
      · rw [if_pos here, Option.some.injEq]
        constructor
        · rintro (isBefore | rfl)
          · have there := (ih before).1 isBefore
            rw [here, absent] at there
            cases there
          · rfl
        · intro same
          exact .inr (Prod.ext here same.symm)
      · rw [if_neg here, ← ih before]
        constructor
        · rintro (isBefore | rfl)
          · exact isBefore
          · exact absurd rfl here
        · exact .inl

/-- **What lies above something is a directory.** -/
theorem above (walked : Walk [] walk) (there : (node walk q).isSome) (isAbove : p <+: q)
    (other : p ≠ q) : node walk p = some .directory := by
  induction walk using List.reverseRecOn generalizing p q with
  | nil => cases there
  | append_singleton walk last ih =>
      obtain ⟨before, absent, dirs⟩ := snoc_iff.1 walked
      rw [List.nil_append] at absent dirs
      rw [node_snoc last absent] at there ⊢
      have directory : node walk p = some .directory := by
        by_cases here : q = last.1
        · subst here
          exact dirs p isAbove other
        · rw [if_neg here] at there
          exact ih before there isAbove other
      rw [if_neg]
      · exact directory
      · rintro rfl
        rw [absent] at directory
        cases directory

end Walk

/-! ## Building a walk -/

def addDir (tree : Tree) (location : Location) : Tree :=
  if (node tree location).isSome then tree else tree ++ [(location, .directory)]

/-- A tree with the directories down to a location. -/
def dirsTo (tree : Tree) (location : Location) : Tree := location.inits.foldl addDir tree

theorem addDir_spec (walked : Walk [] tree)
    (known : ∀ above, above <+: location → above ≠ location → node tree above = some .directory) :
    Walk [] (addDir tree location) ∧ ∀ p, node (addDir tree location) p =
      (node tree p).or (if p = location then some .directory else none) := by
  unfold addDir
  split
  · rename_i there
    refine ⟨walked, fun p => ?_⟩
    by_cases here : p = location
    · obtain ⟨found, isFound⟩ := Option.isSome_iff_exists.1 there
      rw [here, isFound]
      rfl
    · rw [if_neg here, Option.or_none]
  · rename_i absent
    rw [Option.not_isSome_iff_eq_none] at absent
    refine ⟨Walk.snoc_iff.2 ⟨walked, absent, known⟩, fun p => ?_⟩
    rw [Walk.node_snoc _ absent]
    by_cases here : p = location
    · rw [if_pos here, if_pos here, here, absent]
      rfl
    · rw [if_neg here, if_neg here, Option.or_none]

/-- **The directories down to a location are a walk**, if nothing else stands on the way. -/
theorem dirsTo_spec (walked : Walk [] tree) (location : Location)
    (free : ∀ above, above <+: location → ∀ found, node tree above = some found →
      found = .directory) :
    Walk [] (dirsTo tree location) ∧ ∀ p, node (dirsTo tree location) p =
      (node tree p).or (if p <+: location then some .directory else none) := by
  induction location using List.reverseRecOn with
  | nil =>
      have spec := @addDir_spec tree [] walked
        fun above isAbove other => absurd (List.prefix_nil.1 isAbove) other
      simp only [List.prefix_nil]
      exact spec
  | append_singleton parent name ih =>
      have inWhole : ∀ above, above <+: parent → above <+: parent ++ [name] :=
        fun above isAbove => isAbove.trans (List.prefix_append _ _)
      obtain ⟨walked', nodes⟩ := ih fun above isAbove => free above (inWhole above isAbove)
      have grown : dirsTo tree (parent ++ [name]) = addDir (dirsTo tree parent) (parent ++ [name]) := by
        rw [dirsTo, List.inits_append, List.foldl_append]
        rfl
      have known : ∀ above, above <+: parent ++ [name] → above ≠ parent ++ [name] →
          node (dirsTo tree parent) above = some .directory := by
        intro above isAbove other
        have inParent : above <+: parent :=
          (List.prefix_concat_iff.1 isAbove).resolve_left other
        rw [nodes, if_pos inParent]
        cases isFound : node tree above with
        | none => rfl
        | some found =>
            rw [free above isAbove found isFound]
            rfl
      obtain ⟨walked'', nodes'⟩ := addDir_spec walked' known
      rw [grown]
      refine ⟨walked'', fun p => ?_⟩
      rw [nodes', nodes, Option.or_assoc]
      congr 1
      by_cases inParent : p <+: parent
      · rw [if_pos inParent, if_pos (inWhole p inParent)]
        rfl
      · rw [if_neg inParent, Option.none_or]
        simp only [List.prefix_concat_iff, inParent, or_false]

end Openyak.Theory.DirTree
