/-
# Theory.Rendezvous -- callers that wait for an answer under an identifier

A caller puts itself into a table under an identifier and waits at an inbox of its own.
Who has an answer looks the identifier up, takes the entry out and fills that inbox.  An
entry put over another one drops it: the earlier caller is closed, nobody will answer it.

* `deliver_keyed`: where every caller waits under its own identifier, an answer under an
  identifier reaches the caller that took it, and no other.
* `drain_settles`: draining leaves nobody waiting.
-/
import Mathlib.Data.List.AList
import Mathlib.Logic.Function.Basic

namespace Openyak.Theory

set_option autoImplicit false
set_option linter.unusedSectionVars false

universe u v w

structure Rendezvous (ι : Type u) (κ : Type v) (α : Type w) where
  pending : AList fun _ : ι => κ
  inbox : κ → Option α

namespace Rendezvous

variable {ι : Type u} {κ : Type v} {α : Type w} [DecidableEq ι] [DecidableEq κ]

def empty : Rendezvous ι κ α := ⟨∅, fun _ => none⟩

def register (table : Rendezvous ι κ α) (id : ι) (caller : κ) : Rendezvous ι κ α :=
  { table with pending := table.pending.insert id caller }

def withdraw (table : Rendezvous ι κ α) (id : ι) : Rendezvous ι κ α :=
  { table with pending := table.pending.erase id }

def deliver (table : Rendezvous ι κ α) (id : ι) (answer : α) : Rendezvous ι κ α :=
  match table.pending.lookup id with
  | none => table
  | some caller =>
      { pending := table.pending.erase id
        inbox := Function.update table.inbox caller (some answer) }

/-- Everybody in the table. -/
def callers (table : Rendezvous ι κ α) : List κ := table.pending.entries.map Sigma.snd

def drain (table : Rendezvous ι κ α) (answer : α) : Rendezvous ι κ α where
  pending := ∅
  inbox := fun caller => if caller ∈ table.callers then some answer else table.inbox caller

/-- What a caller that waits sees: its answer, or that there will be none. -/
def poll (table : Rendezvous ι κ α) (caller : κ) : Option (Option α) :=
  match table.inbox caller with
  | some answer => some (some answer)
  | none => if caller ∈ table.callers then none else some none

variable {table : Rendezvous ι κ α} {id other : ι} {caller : κ} {answer : α}

theorem mem_callers : caller ∈ table.callers ↔ ∃ id, table.pending.lookup id = some caller := by
  constructor
  · intro member
    obtain ⟨⟨id, _⟩, isThere, rfl⟩ := List.mem_map.1 member
    exact ⟨id, AList.mem_lookup_iff.2 isThere⟩
  · rintro ⟨id, held⟩
    exact List.mem_map.2 ⟨⟨id, caller⟩, AList.mem_lookup_iff.1 held, rfl⟩

theorem lookup_register (table : Rendezvous ι κ α) (id other : ι) (caller : κ) :
    (table.register id caller).pending.lookup other =
      if other = id then some caller else table.pending.lookup other := by
  by_cases same : other = id
  · rw [if_pos same, same]
    exact AList.lookup_insert _
  · rw [if_neg same]
    exact AList.lookup_insert_ne same

theorem lookup_withdraw (table : Rendezvous ι κ α) (id other : ι) :
    (table.withdraw id).pending.lookup other =
      if other = id then none else table.pending.lookup other := by
  by_cases same : other = id
  · rw [if_pos same, same]
    exact AList.lookup_erase _ _
  · rw [if_neg same]
    exact AList.lookup_erase_ne same

theorem deliver_nobody (nobody : table.pending.lookup id = none) :
    table.deliver id answer = table := by
  rw [deliver, nobody]

theorem deliver_caller (held : table.pending.lookup id = some caller) :
    table.deliver id answer =
      ⟨table.pending.erase id, Function.update table.inbox caller (some answer)⟩ := by
  rw [deliver, held]

/-- An answer takes away the entry it was for, and only that one. -/
theorem lookup_deliver (table : Rendezvous ι κ α) (id other : ι) (answer : α) :
    (table.deliver id answer).pending.lookup other =
      if other = id then none else table.pending.lookup other := by
  cases held : table.pending.lookup id with
  | none =>
      rw [deliver_nobody held]
      by_cases same : other = id
      · rw [if_pos same, same, held]
      · rw [if_neg same]
  | some caller =>
      rw [deliver_caller held]
      exact lookup_withdraw table id other

theorem pending_withdraw_empty (nobody : table.pending = ∅) :
    (table.withdraw id).pending = ∅ := by
  apply AList.ext
  rw [withdraw, nobody]
  rfl

/-! ## Callers that wait under their own identifiers -/

/-- Whoever is in the table waits there under the identifier it took, with an empty inbox. -/
def Keyed (table : Rendezvous ι κ α) (took : κ → Option ι) : Prop :=
  ∀ id caller, table.pending.lookup id = some caller →
    took caller = some id ∧ table.inbox caller = none

variable {took : κ → Option ι}

/-- **An answer reaches the caller that took its identifier, and no other.** -/
theorem deliver_keyed (keyed : table.Keyed took) (taken : took caller ≠ some id) :
    (table.deliver id answer).inbox caller = table.inbox caller := by
  cases held : table.pending.lookup id with
  | none => rw [deliver_nobody held]
  | some holder =>
      have apart : caller ≠ holder := by
        intro same
        apply taken
        rw [same]
        exact (keyed id holder held).1
      rw [deliver_caller held]
      exact Function.update_of_ne apart _ _

theorem inbox_deliver (held : table.pending.lookup id = some caller) :
    (table.deliver id answer).inbox caller = some answer := by
  rw [deliver_caller held]
  exact Function.update_self _ _ _

theorem Keyed.deliver (keyed : table.Keyed took) : (table.deliver id answer).Keyed took := by
  intro other caller held
  rw [lookup_deliver] at held
  by_cases same : other = id
  · rw [if_pos same] at held
    cases held
  · rw [if_neg same] at held
    obtain ⟨taken, nothing⟩ := keyed other caller held
    refine ⟨taken, ?_⟩
    rw [deliver_keyed keyed, nothing]
    rw [taken]
    exact fun isId => same (Option.some.inj isId)

/-! ## Nobody waits -/

/-- **Draining answers everybody.** -/
theorem drain_settles (table : Rendezvous ι κ α) (answer : α) : (table.drain answer).pending = ∅ :=
  rfl

theorem poll_of_empty (nobody : table.pending = ∅) (caller : κ) :
    ∃ answer, table.poll caller = some answer := by
  have absent : caller ∉ table.callers := by
    rw [mem_callers, nobody]
    rintro ⟨id, held⟩
    cases held
  rw [poll]
  cases table.inbox caller with
  | some answer => exact ⟨some answer, rfl⟩
  | none => exact ⟨none, if_neg absent⟩

end Rendezvous

end Openyak.Theory
