/-
# Theory.DocumentSync -- one document, kept in step with a copy somewhere else

Notifications open the copy with a text, change its whole text, tell that it was saved, and
close it.  `follow` is what the other side holds after one; a notification that makes no
sense there (opening an open document, a change that is not newer, anything about a closed
one) has no result.

* `Synchronized`: a sequence that makes sense as a whole.
* `copy_newest`: what the other side then holds is the text with the highest version since
  the opening.
-/
import Mathlib.Data.List.Induction
import Mathlib.Order.Defs.LinearOrder
import Mathlib.Order.Lattice

namespace Openyak.Theory

set_option autoImplicit false
set_option linter.unusedSectionVars false

universe u v

inductive SyncEvent (ν : Type u) (τ : Type v) where
  | opened (version : ν) (text : τ)
  | changed (version : ν) (text : τ)
  | saved
  | closed
  deriving DecidableEq

namespace SyncEvent

variable {ν : Type u} {τ : Type v} [LT ν] [DecidableLT ν]

/-- What the other side holds after a notification. -/
def follow : Option (ν × τ) → SyncEvent ν τ → Option (Option (ν × τ))
  | none, .opened version text => some (some (version, text))
  | some (earlier, _), .changed version text =>
      if earlier < version then some (some (version, text)) else none
  | some copy, .saved => some (some copy)
  | some _, .closed => some none
  | _, _ => none

def followAll (events : List (SyncEvent ν τ)) : Option (Option (ν × τ)) :=
  events.foldlM follow none

/-- The versions and texts since the last opening. -/
def texts (events : List (SyncEvent ν τ)) : List (ν × τ) :=
  events.foldl (fun seen event =>
    match event with
    | .opened version text => [(version, text)]
    | .changed version text => seen ++ [(version, text)]
    | .saved => seen
    | .closed => []) []

/-- Every notification makes sense, the versions since an opening increase, and the other
side holds the last of these texts. -/
structure Synchronized (events : List (SyncEvent ν τ)) : Prop where
  sense : ∃ copy, followAll events = some copy ∧ copy = (texts events).getLast?
  increasing : (texts events).Pairwise fun earlier later => earlier.1 < later.1

theorem followAll_concat {events : List (SyncEvent ν τ)} {copy : Option (ν × τ)}
    (before : followAll events = some copy) (event : SyncEvent ν τ) :
    followAll (events ++ [event]) = follow copy event := by
  rw [followAll, List.foldlM_append, ← followAll, before]
  show (follow copy event).bind some = _
  cases follow copy event <;> rfl

theorem texts_concat (events : List (SyncEvent ν τ)) (event : SyncEvent ν τ) :
    texts (events ++ [event]) =
      match event with
      | .opened version text => [(version, text)]
      | .changed version text => texts events ++ [(version, text)]
      | .saved => texts events
      | .closed => [] := by
  rw [texts, List.foldl_append]
  rfl

end SyncEvent

namespace SyncEvent

variable {ν : Type u} {τ : Type v} [LinearOrder ν]

/-- In an increasing list every entry is at most the last. -/
theorem le_getLast {entries : List (ν × τ)} {last entry : ν × τ}
    (increasing : entries.Pairwise fun earlier later => earlier.1 < later.1)
    (isLast : entries.getLast? = some last) (member : entry ∈ entries) : entry.1 ≤ last.1 := by
  obtain ⟨front, rfl⟩ := List.getLast?_eq_some_iff.1 isLast
  rw [List.pairwise_append] at increasing
  rcases List.mem_append.1 member with inFront | isEnd
  · exact le_of_lt (increasing.2.2 entry inFront last (List.mem_singleton_self last))
  · rw [List.mem_singleton.1 isEnd]

/-- **A sequence that makes sense step by step is synchronized.** -/
theorem synchronized {events : List (SyncEvent ν τ)} {copy : Option (ν × τ)}
    (sense : followAll events = some copy) : Synchronized events := by
  suffices both : copy = (texts events).getLast? ∧
      (texts events).Pairwise fun earlier later => earlier.1 < later.1 from
    ⟨⟨copy, sense, both.1⟩, both.2⟩
  induction events using List.reverseRecOn generalizing copy with
  | nil =>
      cases sense
      exact ⟨rfl, List.Pairwise.nil⟩
  | append_singleton events event ih =>
      cases before : followAll events with
      | none =>
          rw [followAll, List.foldlM_append, ← followAll, before] at sense
          cases sense
      | some earlier =>
          rw [followAll_concat before] at sense
          obtain ⟨isLast, increasing⟩ := ih before
          rw [texts_concat]
          cases event with
          | opened version text =>
              cases earlier with
              | none =>
                  cases sense
                  exact ⟨rfl, List.pairwise_singleton _ _⟩
              | some held => cases sense
          | changed version text =>
              cases earlier with
              | none => cases sense
              | some held =>
                  rw [follow] at sense
                  split at sense
                  · rename_i newer
                    cases sense
                    refine ⟨(List.getLast?_concat ..).symm, List.pairwise_append.2
                      ⟨increasing, List.pairwise_singleton _ _, fun entry member other isNew => ?_⟩⟩
                    rw [List.mem_singleton.1 isNew]
                    exact lt_of_le_of_lt (le_getLast increasing isLast.symm member) newer
                  · cases sense
          | saved =>
              cases earlier with
              | none => cases sense
              | some held =>
                  cases sense
                  exact ⟨isLast, increasing⟩
          | closed =>
              cases earlier with
              | none => cases sense
              | some held =>
                  cases sense
                  exact ⟨rfl, List.Pairwise.nil⟩

/-- **The other side holds the text with the highest version.** -/
theorem copy_newest {events : List (SyncEvent ν τ)} (kept : Synchronized events)
    {copy : ν × τ} (held : followAll events = some (some copy)) :
    ∀ entry ∈ texts events, entry.1 ≤ copy.1 := by
  intro entry member
  obtain ⟨other, sense, isLast⟩ := kept.sense
  rw [held] at sense
  cases sense
  exact le_getLast kept.increasing isLast.symm member

end SyncEvent

end Openyak.Theory
