/-
# Theory.UniqueIndex -- an index that takes every key once

Entries are put into a map one after the other, and the first key that is there already
stops it.  What was indexed to the end had every key once, and under a key stands exactly
what was entered for it (`indexAll_ok`).
-/
import Mathlib.Data.List.AList

namespace Openyak.Theory

set_option autoImplicit false

universe u v w

variable {κ : Type u} {ν : Type v} {ε : Type w} [DecidableEq κ]

/-- A new entry, or what is wrong with a key that is taken. -/
def insertNew (taken : κ → ν → ε) (map : AList fun _ : κ => ν) (key : κ) (value : ν) :
    Except ε (AList fun _ : κ => ν) :=
  match map.lookup key with
  | some held => .error (taken key held)
  | none => .ok (map.insert key value)

def indexAll (taken : κ → ν → ε) (value : ν) :
    AList (fun _ : κ => ν) → List κ → Except ε (AList fun _ : κ => ν)
  | map, [] => .ok map
  | map, key :: keys =>
      match insertNew taken map key value with
      | .error error => .error error
      | .ok next => indexAll taken value next keys

variable {taken : κ → ν → ε} {map result : AList fun _ : κ => ν} {value : ν} {keys : List κ}

theorem insertNew_ok {key : κ} (done : insertNew taken map key value = .ok result) :
    map.lookup key = none ∧ result = map.insert key value := by
  unfold insertNew at done
  split at done
  · cases done
  · rename_i absent
    cases done
    exact ⟨absent, rfl⟩

/-- **What was indexed to the end had every key once, and no key that was there**. -/
theorem indexAll_ok (done : indexAll taken value map keys = .ok result) :
    keys.Nodup ∧ (∀ key ∈ keys, map.lookup key = none) ∧
      ∀ key held, result.lookup key = some held ↔
        map.lookup key = some held ∨ (key ∈ keys ∧ held = value) := by
  induction keys generalizing map with
  | nil =>
      cases done
      exact ⟨.nil, nofun, fun key held => by simp⟩
  | cons first keys ih =>
      unfold indexAll at done
      cases step : insertNew taken map first value with
      | error error =>
          rw [step] at done
          cases done
      | ok next =>
          rw [step] at done
          obtain ⟨absent, rfl⟩ := insertNew_ok step
          obtain ⟨nodup, fresh, under⟩ := ih done
          have notBehind : first ∉ keys := by
            intro member
            have free := fresh first member
            rw [AList.lookup_insert] at free
            cases free
          refine ⟨List.nodup_cons.2 ⟨notBehind, nodup⟩, ?_, ?_⟩
          · intro key member
            obtain rfl | member := List.mem_cons.1 member
            · exact absent
            · have free := fresh key member
              rwa [AList.lookup_insert_ne fun same : key = first => notBehind (same ▸ member)] at free
          · intro key held
            rw [under]
            by_cases here : key = first
            · subst here
              rw [AList.lookup_insert, absent]
              simp [notBehind, eq_comm]
            · rw [AList.lookup_insert_ne here]
              simp [here]

end Openyak.Theory
