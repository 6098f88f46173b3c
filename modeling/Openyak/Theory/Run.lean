/-
# Theory.Run -- runs of a labelled step function

A system is a partial function `step` from a state and a label to the next state.
`Run step ok start labels last` is a run all of whose steps meet `ok`, a condition
on the state before the step and the label.  An invariant is proved from its
steps (`Run.invariant`); a run under a stronger condition is one under a weaker
(`Run.mono`).
-/
import Mathlib.Data.List.Induction

namespace Openyak.Theory

set_option autoImplicit false

universe u v

variable {σ : Type u} {α : Type v}

inductive Run (step : σ → α → Option σ) (ok : σ → α → Prop) (start : σ) : List α → σ → Prop
  | nil : Run step ok start [] start
  | snoc {labels : List α} {label : α} {middle last : σ}
      (earlier : Run step ok start labels middle) (allowed : ok middle label)
      (steps : step middle label = some last) :
      Run step ok start (labels ++ [label]) last

namespace Run

variable {step : σ → α → Option σ} {ok : σ → α → Prop} {start last : σ} {labels : List α}

/-- **What holds at the start and is kept by every allowed step holds at the end.** -/
theorem invariant (holds : σ → Prop)
    (keeps : ∀ middle label next, holds middle → ok middle label →
      step middle label = some next → holds next)
    (run : Run step ok start labels last) (initially : holds start) : holds last := by
  induction run with
  | nil => exact initially
  | snoc _ allowed steps ih => exact keeps _ _ _ ih allowed steps

theorem mono {weaker : σ → α → Prop} (implies : ∀ state label, ok state label → weaker state label)
    (run : Run step ok start labels last) : Run step weaker start labels last := by
  induction run with
  | nil => exact .nil
  | snoc _ allowed steps ih => exact .snoc ih (implies _ _ allowed) steps

/-- A run all of whose labels are allowed everywhere. -/
theorem of_labels {any : σ → α → Prop} (always : ∀ label ∈ labels, ∀ state, ok state label)
    (run : Run step any start labels last) : Run step ok start labels last := by
  induction run with
  | nil => exact .nil
  | snoc _ _ steps ih =>
      obtain ⟨earlier, here⟩ := List.forall_mem_append.1 always
      exact .snoc (ih earlier) (here _ List.mem_cons_self _) steps

/-- A run from its first step. -/
theorem cons {label : α} {next : σ} (allowed : ok start label)
    (steps : step start label = some next) (run : Run step ok next labels last) :
    Run step ok start (label :: labels) last := by
  induction run with
  | nil => exact .snoc .nil allowed steps
  | snoc _ later more ih => exact .snoc ih later more

/-- **An exact condition**: when an invariant makes the condition enough for a
property of the next state, and the property needs it, the runs that keep the
property in every state they reach are the runs under the condition. -/
theorem iff_of_invariant (holds property : σ → Prop) (initially : holds start)
    (enough : ∀ middle label next, holds middle → ok middle label →
      step middle label = some next → holds next ∧ property next)
    (needed : ∀ middle label next, holds middle → step middle label = some next →
      property next → ok middle label) :
    Run step (fun state label => ∀ next, step state label = some next → property next)
        start labels last ↔
      Run step ok start labels last := by
  constructor
  · intro run
    suffices both : Run step ok start labels last ∧ holds last from both.1
    induction run with
    | nil => exact ⟨.nil, initially⟩
    | snoc _ kept steps ih =>
        obtain ⟨earlier, held⟩ := ih
        have allowed := needed _ _ _ held steps (kept _ steps)
        exact ⟨.snoc earlier allowed steps, (enough _ _ _ held allowed steps).1⟩
  · intro run
    suffices both : Run step (fun state label => ∀ next, step state label = some next →
        property next) start labels last ∧ holds last from both.1
    induction run with
    | nil => exact ⟨.nil, initially⟩
    | snoc _ allowed steps ih =>
        obtain ⟨earlier, held⟩ := ih
        obtain ⟨heldNext, kept⟩ := enough _ _ _ held allowed steps
        refine ⟨.snoc earlier (fun next same => ?_) steps, heldNext⟩
        rw [steps] at same
        cases same
        exact kept

end Run

/-- The state after a list of labels, if every step is enabled. -/
def play (step : σ → α → Option σ) (start : σ) : List α → Option σ
  | [] => some start
  | label :: labels => (step start label).bind fun next => play step next labels

theorem play_cons {step : σ → α → Option σ} {start next last : σ} {label : α} {labels : List α}
    (steps : step start label = some next) (rest : play step next labels = some last) :
    play step start (label :: labels) = some last := by
  rw [play, steps, Option.bind_some, rest]

theorem play_append (step : σ → α → Option σ) (start : σ) (xs ys : List α) :
    play step start (xs ++ ys) = (play step start xs).bind fun next => play step next ys := by
  induction xs generalizing start with
  | nil => rfl
  | cons x xs ih =>
      simp only [List.cons_append, play]
      cases step start x with
      | none => rfl
      | some next => exact ih next

/-- What is played is a run without condition, and the other way round. -/
theorem run_iff_play (step : σ → α → Option σ) (start last : σ) (labels : List α) :
    Run step (fun _ _ => True) start labels last ↔ play step start labels = some last := by
  constructor
  · intro run
    induction run with
    | nil => rfl
    | snoc _ _ steps ih => rw [play_append, ih]; simpa [play] using steps
  · intro played
    induction labels using List.reverseRecOn generalizing last with
    | nil => cases played; exact .nil
    | append_singleton labels label ih =>
        rw [play_append, Option.bind_eq_some_iff] at played
        obtain ⟨middle, earlier, steps⟩ := played
        refine .snoc (ih middle earlier) trivial ?_
        simpa [play] using steps

end Openyak.Theory
