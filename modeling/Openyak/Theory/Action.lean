/-
# Theory.Action -- programs that change a state and may fail

An action takes a state to a result and the state after it.  A failure ends the program
but not the state: what was done before it stays done.

`Ensures before act after` is partial in nothing: from every state that meets `before`, the
result and the state after `act` meet `after`, failures included.  An invariant is the
case of one condition on both sides (`Keeps`), and the rules below take a program apart
along its shape.
-/
import Mathlib.Init

namespace Openyak.Theory

set_option autoImplicit false

universe u

/-- A program over states `σ` that returns an `α` or fails with an `ε`. -/
def Action (σ ε : Type u) (α : Type u) : Type u := σ → Except ε α × σ

namespace Action

variable {σ ε α β : Type u}

/-- The `?` of the source: go on with the value, or stop with the error. -/
def andThen (act : Action σ ε α) (next : α → Action σ ε β) : Action σ ε β := fun state =>
  match act state with
  | (.ok value, after) => next value after
  | (.error error, after) => (.error error, after)

instance : Monad (Action σ ε) where
  pure value := fun state => (.ok value, state)
  bind := andThen

def fail (error : ε) : Action σ ε α := fun state => (.error error, state)

def get : Action σ ε σ := fun state => (.ok state, state)

def modify (change : σ → σ) : Action σ ε PUnit := fun state => (.ok ⟨⟩, change state)

/-- The result as a value, which stops nothing. -/
def attempt (act : Action σ ε α) : Action σ ε (Except ε α) := fun state =>
  (.ok (act state).1, (act state).2)

/-- `map_err`. -/
def mapError {φ : Type u} (change : ε → φ) (act : Action σ ε α) : Action σ φ α := fun state =>
  match act state with
  | (.ok value, after) => (.ok value, after)
  | (.error error, after) => (.error (change error), after)

/-- The value that is there, or a failure. -/
def orFail (value : Option α) (error : ε) : Action σ ε α :=
  match value with
  | some value => pure value
  | none => fail error

/-- `if condition { act }`. -/
def when (condition : Bool) (act : Action σ ε PUnit) : Action σ ε PUnit :=
  if condition then act else pure ⟨⟩

@[simp] theorem pure_apply (value : α) (state : σ) :
    (pure value : Action σ ε α) state = (.ok value, state) := rfl

@[simp] theorem fail_apply (error : ε) (state : σ) :
    (fail error : Action σ ε α) state = (.error error, state) := rfl

@[simp] theorem get_apply (state : σ) : (get : Action σ ε σ) state = (.ok state, state) := rfl

@[simp] theorem modify_apply (change : σ → σ) (state : σ) :
    (modify change : Action σ ε PUnit) state = (.ok ⟨⟩, change state) := rfl

@[simp] theorem attempt_apply (act : Action σ ε α) (state : σ) :
    attempt act state = (.ok (act state).1, (act state).2) := rfl

theorem bind_ok {act : Action σ ε α} {next : α → Action σ ε β} {state after : σ} {value : α}
    (done : act state = (.ok value, after)) : (act >>= next) state = next value after := by
  show andThen act next state = _
  rw [andThen, done]

theorem bind_error {act : Action σ ε α} {next : α → Action σ ε β} {state after : σ} {error : ε}
    (failed : act state = (.error error, after)) :
    (act >>= next) state = (.error error, after) := by
  show andThen act next state = _
  rw [andThen, failed]

theorem of_attempt {act : Action σ ε α} {state after : σ} {result : Except ε α}
    (done : attempt act state = (.ok result, after)) : act state = (result, after) := by
  cases done
  rfl

/-- **What a program returned, its first step returned a value for.** -/
theorem of_bind_ok {act : Action σ ε α} {next : α → Action σ ε β} {state after : σ} {result : β}
    (done : (act >>= next) state = (.ok result, after)) :
    ∃ value middle, act state = (.ok value, middle) ∧ next value middle = (.ok result, after) := by
  cases first : act state with
  | mk outcome middle =>
      cases outcome with
      | ok value => exact ⟨value, middle, rfl, (bind_ok first).symm.trans done⟩
      | error error => exact nomatch (bind_error first).symm.trans done

/-- A program that failed did so in its first step or behind it. -/
theorem of_bind_error {act : Action σ ε α} {next : α → Action σ ε β} {state after : σ} {error : ε}
    (failed : (act >>= next) state = (.error error, after)) :
    act state = (.error error, after) ∨
      ∃ value middle, act state = (.ok value, middle) ∧
        next value middle = (.error error, after) := by
  cases first : act state with
  | mk outcome middle =>
      cases outcome with
      | ok value => exact .inr ⟨value, middle, rfl, (bind_ok first).symm.trans failed⟩
      | error other =>
          have same := (show (act >>= next) state = _ from bind_error first).symm.trans failed
          exact .inl (by cases same; rfl)

/-- What holds of every end of the rest holds of the whole, if it holds of a failure. -/
theorem bind_cases {act : Action σ ε α} {next : α → Action σ ε β} {state : σ}
    {holds : Except ε β × σ → Prop}
    (rest : ∀ value middle, act state = (.ok value, middle) → holds (next value middle))
    (failure : ∀ error middle, act state = (.error error, middle) → holds (.error error, middle)) :
    holds ((act >>= next) state) := by
  cases first : act state with
  | mk outcome middle =>
      cases outcome with
      | ok value => exact (bind_ok first).symm ▸ rest value middle first
      | error error => exact (bind_error first).symm ▸ failure error middle first

/-! ## Conditions before and after -/

def Ensures (before : σ → Prop) (act : Action σ ε α) (after : Except ε α → σ → Prop) : Prop :=
  ∀ state, before state → after (act state).1 (act state).2

/-- What holds before holds after, whatever the result. -/
def Keeps (holds : σ → Prop) (act : Action σ ε α) : Prop := Ensures holds act fun _ => holds

variable {holds before : σ → Prop} {act : Action σ ε α} {next : α → Action σ ε β}

theorem Ensures.bind {middle : Except ε α → σ → Prop} {after : Except ε β → σ → Prop}
    (first : Ensures before act middle)
    (rest : ∀ value, Ensures (middle (.ok value)) (next value) after)
    (failure : ∀ error state, middle (.error error) state → after (.error error) state) :
    Ensures before (act >>= next) after := by
  intro state met
  have reached := first state met
  cases done : act state with
  | mk outcome middle_ =>
      rw [done] at reached
      cases outcome with
      | ok value =>
          rw [bind_ok done]
          exact rest value middle_ reached
      | error error =>
          rw [bind_error done]
          exact failure error middle_ reached

theorem Keeps.bind (first : Keeps holds act) (rest : ∀ value, Keeps holds (next value)) :
    Keeps holds (act >>= next) :=
  Ensures.bind first rest fun _ _ held => held

theorem Keeps.pure (value : α) : Keeps holds (Pure.pure value : Action σ ε α) :=
  fun _ held => held

theorem Keeps.fail (error : ε) : Keeps holds (Action.fail error : Action σ ε α) :=
  fun _ held => held

theorem Keeps.get : Keeps holds (Action.get : Action σ ε σ) := fun _ held => held

theorem Keeps.modify {change : σ → σ} (keeps : ∀ state, holds state → holds (change state)) :
    Keeps holds (Action.modify change : Action σ ε PUnit) := fun state held => keeps state held

theorem mapError_snd {φ : Type u} (change : ε → φ) (act : Action σ ε α) (state : σ) :
    (act.mapError change state).2 = (act state).2 := by
  unfold mapError
  split <;> (rename_i done; rw [done])

theorem Keeps.attempt (keeps : Keeps holds act) : Keeps holds act.attempt :=
  fun state held => keeps state held

theorem Keeps.orFail (value : Option α) (error : ε) :
    Keeps holds (Action.orFail value error : Action σ ε α) := by
  cases value with
  | some value => exact Keeps.pure value
  | none => exact Keeps.fail error

theorem Keeps.when {act : Action σ ε PUnit} (condition : Bool) (keeps : Keeps holds act) :
    Keeps holds (Action.when condition act) := by
  unfold Action.when
  split
  · exact keeps
  · exact Keeps.pure _

/-! ## Two runs -/

/-- From two states that are alike, the same result and two states that are alike. -/
def Agrees (alike : σ → σ → Prop) (act : Action σ ε α) : Prop :=
  ∀ left right, alike left right →
    (act left).1 = (act right).1 ∧ alike (act left).2 (act right).2

variable {alike : σ → σ → Prop}

theorem Agrees.pure (value : α) : Agrees alike (Pure.pure value : Action σ ε α) :=
  fun _ _ same => ⟨rfl, same⟩

theorem Agrees.fail (error : ε) : Agrees alike (Action.fail error : Action σ ε α) :=
  fun _ _ same => ⟨rfl, same⟩

theorem Agrees.bind (first : Agrees alike act) (rest : ∀ value, Agrees alike (next value)) :
    Agrees alike (act >>= next) := by
  intro left right same
  obtain ⟨result, after⟩ := first left right same
  cases done : act left with
  | mk outcome middle =>
      cases other : act right with
      | mk outcome_ middle_ =>
          rw [done, other] at result after
          obtain rfl : outcome = outcome_ := result
          cases outcome with
          | ok value =>
              rw [bind_ok done, bind_ok other]
              exact rest value middle middle_ after
          | error error =>
              rw [bind_error done, bind_error other]
              exact ⟨rfl, after⟩

/-- What follows sees of the state only what is alike. -/
theorem Agrees.get_bind {next : σ → Action σ ε β}
    (sees : ∀ left right, alike left right → next left = next right)
    (rest : ∀ state, Agrees alike (next state)) : Agrees alike (Action.get >>= next) := by
  intro left right same
  show (next left left).1 = (next right right).1 ∧ alike (next left left).2 (next right right).2
  rw [sees left right same]
  exact rest right left right same

theorem Agrees.orFail (value : Option α) (error : ε) :
    Agrees alike (Action.orFail value error : Action σ ε α) := by
  cases value with
  | some value => exact Agrees.pure value
  | none => exact Agrees.fail error

theorem Agrees.attempt (agrees : Agrees alike act) : Agrees alike act.attempt := by
  intro left right same
  obtain ⟨result, after⟩ := agrees left right same
  exact ⟨congrArg Except.ok result, after⟩

theorem Agrees.ite {condition : Prop} [Decidable condition] {other : Action σ ε α}
    (first : Agrees alike act) (second : Agrees alike other) :
    Agrees alike (if condition then act else other) := by
  split
  · exact first
  · exact second

theorem Agrees.foldlM {γ : Type u} {step : β → γ → Action σ ε β} {items : List γ}
    (each : ∀ value item, Agrees alike (step value item)) (value : β) :
    Agrees alike (items.foldlM step value) := by
  induction items generalizing value with
  | nil => exact Agrees.pure value
  | cons item items ih => exact Agrees.bind (each value item) ih

end Action

end Openyak.Theory
