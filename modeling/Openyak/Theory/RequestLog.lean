/-
# Theory.RequestLog -- requests whose sender cannot see what became of them

A request is in flight until it is lost, refused or accepted, and stays so from then
on.  A sender that sends again can be accepted twice.  It is accepted at most once if
it sends one request only, or none while another is open: in flight or accepted
already.
-/
import Mathlib.Data.List.Basic

namespace Openyak.Theory

set_option autoImplicit false

inductive Delivery where
  | inFlight
  | lost
  | refused
  | accepted
  deriving DecidableEq, Repr

/-- It is accepted, or may still be. -/
def Delivery.isOpen : Delivery → Bool
  | .inFlight | .accepted => true
  | .lost | .refused => false

/-- The requests in the order they were sent. -/
abbrev RequestLog := List Delivery

namespace RequestLog

def acceptedCount (log : RequestLog) : Nat := log.count .accepted

def openCount (log : RequestLog) : Nat := log.countP Delivery.isOpen

def send (log : RequestLog) : RequestLog := log ++ [.inFlight]

/-- What is in flight is settled; what is settled stays. -/
def settle (log : RequestLog) (request : Nat) (delivery : Delivery) : Option RequestLog :=
  if log[request]? = some .inFlight then some (log.set request delivery) else none

variable {log settled : RequestLog} {request : Nat} {delivery : Delivery}

theorem accepted_le_open (log : RequestLog) : log.acceptedCount ≤ log.openCount := by
  apply List.countP_mono_left
  intro delivery _ accepted
  rw [eq_of_beq accepted]
  rfl

theorem open_le_length (log : RequestLog) : log.openCount ≤ log.length := List.countP_le_length

@[simp] theorem open_send (log : RequestLog) : log.send.openCount = log.openCount + 1 := by
  simp [send, openCount, List.countP_append, Delivery.isOpen]

@[simp] theorem length_send (log : RequestLog) : log.send.length = log.length + 1 := by
  simp [send]

theorem length_settle (settles : log.settle request delivery = some settled) :
    settled.length = log.length := by
  unfold settle at settles
  split at settles
  · cases settles
    exact List.length_set
  · cases settles

/-- Settling opens nothing. -/
theorem open_settle (settles : log.settle request delivery = some settled) :
    settled.openCount ≤ log.openCount := by
  unfold settle at settles
  split at settles
  · rename_i inFlight
    obtain ⟨below, here⟩ := List.getElem?_eq_some_iff.1 inFlight
    cases settles
    have count : openCount (log.set request delivery) = log.openCount -
        (if Delivery.isOpen log[request] then 1 else 0) + (if delivery.isOpen then 1 else 0) :=
      List.countP_set below
    have isOpen : Delivery.isOpen log[request] = true := by rw [here]; rfl
    have positive : 0 < log.openCount :=
      List.countP_pos_iff.2 ⟨log[request], List.getElem_mem below, isOpen⟩
    rw [isOpen, if_pos rfl] at count
    split at count <;> omega
  · cases settles

/-- What is settled otherwise is not accepted. -/
theorem accepted_settle (settles : log.settle request delivery = some settled)
    (none : log.acceptedCount = 0) (other : delivery ≠ .accepted) : settled.acceptedCount = 0 := by
  unfold settle at settles
  split at settles
  · cases settles
    unfold acceptedCount at none ⊢
    rw [List.count_eq_zero] at none ⊢
    intro member
    obtain earlier | here := List.mem_or_eq_of_mem_set member
    · exact none earlier
    · exact other here.symm
  · cases settles

/-- **One request** is accepted at most once. -/
theorem accepted_le_one_of_length (single : log.length ≤ 1) : log.acceptedCount ≤ 1 := by
  have open' := accepted_le_open log
  have length := open_le_length log
  omega

/-- **Requests of which at most one is open** are accepted at most once. -/
theorem accepted_le_one_of_open (single : log.openCount ≤ 1) : log.acceptedCount ≤ 1 := by
  have open' := accepted_le_open log
  omega

end RequestLog

end Openyak.Theory
