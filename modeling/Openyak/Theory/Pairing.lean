/-
# Theory.Pairing -- answers paired with requests by their position

A peer answers the requests it hears in order, once each, until it ends; between two answers
it may write messages of its own.  A client that sends a request and takes the next message
as the answer pairs the two by counting.

The counting is right exactly as long as every message taken so far was an answer
(`paired_iff`).  After one message of its own every later answer belongs to an earlier
request, for as long as the peer lives.
-/
import Mathlib.Data.List.ReduceOption
import Mathlib.Data.List.Nodup

namespace Openyak.Theory

set_option autoImplicit false

universe u

/-- What a peer heard and wrote, an answer by its request, and how much of it was taken. -/
structure Channel (α : Type u) where
  received : List α
  written : List (Option α)
  taken : Nat
  closed : Bool

namespace Channel

variable {α : Type u}

/-- The messages one request brings about. -/
def reply (channel : Channel α) (request : α) (own : Nat) (answered : Bool) : List (Option α) :=
  if channel.closed then []
  else List.replicate own none ++ if answered then [some request] else []

def hear (channel : Channel α) (request : α) (own : Nat) (answered : Bool) : Channel α :=
  { channel with
    received := channel.received ++ [request]
    written := channel.written ++ channel.reply request own answered
    closed := channel.closed || !answered }

def take (channel : Channel α) : Channel α := { channel with taken := channel.taken + 1 }

/-- The peer answers in order, and every request so far took one message, until the peer
ended and there was none left. -/
structure InOrder (channel : Channel α) : Prop where
  distinct : channel.received.Nodup
  answers : channel.written.reduceOption <+: channel.received
  complete : channel.closed = false → channel.written.reduceOption = channel.received
  bounded : channel.taken ≤ channel.written.length
  counted : channel.taken = channel.received.length ∨
    channel.closed = true ∧ channel.taken = channel.written.length

theorem InOrder.empty : InOrder (⟨[], [], 0, false⟩ : Channel α) :=
  ⟨List.nodup_nil, List.prefix_rfl, fun _ => rfl, Nat.le_refl 0, .inl rfl⟩

theorem reduceOption_reply (channel : Channel α) (request : α) (own : Nat) (answered : Bool) :
    (channel.reply request own answered).reduceOption =
      if channel.closed = false ∧ answered then [request] else [] := by
  cases closed : channel.closed with
  | true => simp [reply, closed]
  | false =>
      cases answered with
      | true => simp [reply, closed, List.reduceOption_append]
      | false => simp [reply, closed]

variable {channel : Channel α} {request : α} {own : Nat} {answered : Bool}

theorem reduceOption_hear (request : α) (own : Nat) (answered : Bool)
    (inOrder : channel.InOrder) :
    (channel.hear request own answered).written.reduceOption <+: channel.received ++ [request] ∧
      ((channel.hear request own answered).closed = false →
        (channel.hear request own answered).written.reduceOption =
          channel.received ++ [request]) := by
  have written : (channel.hear request own answered).written.reduceOption =
      channel.written.reduceOption ++
        if channel.closed = false ∧ answered then [request] else [] := by
    rw [hear, List.reduceOption_append, reduceOption_reply]
  rw [written]
  by_cases answers : channel.closed = false ∧ answered = true
  · rw [if_pos answers, inOrder.complete answers.1]
    exact ⟨List.prefix_rfl, fun _ => rfl⟩
  · rw [if_neg answers, List.append_nil]
    refine ⟨inOrder.answers.trans (List.prefix_append ..), fun isOpen => ?_⟩
    have opened : (channel.closed || !answered) = false := isOpen
    rw [Bool.or_eq_false_iff, Bool.not_eq_false'] at opened
    exact absurd opened answers

/-- A request that finds nothing to take leaves the channel in order: the peer has ended. -/
theorem InOrder.hear_nothing (inOrder : channel.InOrder) (fresh : request ∉ channel.received)
    (nothing : (channel.hear request own answered).written.length ≤ channel.taken) :
    (channel.hear request own answered).InOrder := by
  obtain ⟨answers, complete⟩ := reduceOption_hear request own answered inOrder
  have grows : channel.written.length ≤ (channel.hear request own answered).written.length := by
    rw [hear, List.length_append]
    omega
  have bounded := inOrder.bounded
  refine ⟨?_, answers, complete, ?_, .inr ⟨?_, ?_⟩⟩
  · exact List.nodup_append_comm.1 (List.nodup_cons.2 ⟨fresh, inOrder.distinct⟩)
  · show channel.taken ≤ _
    omega
  · by_contra isOpen
    have all := complete (Bool.eq_false_iff.2 isOpen)
    have fits := List.reduceOption_length_le (channel.hear request own answered).written
    rw [all, List.length_append, List.length_singleton] at fits
    rcases inOrder.counted with counted | ⟨closed, -⟩
    · omega
    · apply isOpen
      show (channel.closed || _) = true
      rw [closed, Bool.true_or]
  · show channel.taken = _
    omega

/-- A request that finds a message takes the one that its number counts. -/
theorem InOrder.hear_take (inOrder : channel.InOrder) (fresh : request ∉ channel.received)
    (something : channel.taken < (channel.hear request own answered).written.length) :
    (channel.hear request own answered).take.InOrder ∧
      channel.taken = channel.received.length := by
  obtain ⟨answers, complete⟩ := reduceOption_hear request own answered inOrder
  have counted : channel.taken = channel.received.length := by
    rcases inOrder.counted with counted | ⟨closed, counted⟩
    · exact counted
    · rw [hear, reply, closed] at something
      simp only [if_true, List.append_nil] at something
      omega
  refine ⟨⟨?_, answers, complete, something, .inl ?_⟩, counted⟩
  · exact List.nodup_append_comm.1 (List.nodup_cons.2 ⟨fresh, inOrder.distinct⟩)
  · show channel.taken + 1 = (channel.received ++ [request]).length
    rw [List.length_append, List.length_singleton, counted]

/-- A request that was heard once ends one beginning of what was heard. -/
theorem eq_of_concat_prefix {front earlier : List α} (distinct : (earlier ++ [request]).Nodup)
    (starts : front ++ [request] <+: earlier ++ [request]) : front = earlier := by
  obtain ⟨behind, whole⟩ := starts
  rcases List.eq_nil_or_concat behind with rfl | ⟨rest, last, rfl⟩
  · rw [List.append_nil] at whole
    exact (List.append_inj' whole rfl).1
  · rw [List.concat_eq_append, ← List.append_assoc] at whole
    have again := (List.append_inj' whole rfl).1
    rw [← again, List.nodup_append] at distinct
    exact absurd rfl (distinct.2.2 request (by simp) request (by simp))

/-- **The message taken is the answer exactly if all taken so far were answers.** -/
theorem InOrder.paired_iff (inOrder : channel.InOrder) (earlier : List α) (request : α)
    (last : channel.received = earlier ++ [request]) (counted : channel.taken = earlier.length + 1) :
    (channel.written.take channel.taken).getLast? = some (some request) ↔
      none ∉ channel.written.take channel.taken := by
  have bounded := inOrder.bounded
  have long : (channel.written.take channel.taken).length = earlier.length + 1 := by
    rw [List.length_take]
    omega
  have answers : (channel.written.take channel.taken).reduceOption <+: earlier ++ [request] := by
    rw [← last]
    refine List.IsPrefix.trans ?_ inOrder.answers
    exact (List.take_prefix channel.taken channel.written).filterMap _
  have distinct : (earlier ++ [request]).Nodup := last ▸ inOrder.distinct
  generalize channel.written.take channel.taken = read at long answers
  constructor
  · intro isLast
    obtain ⟨front, rfl⟩ := List.getLast?_eq_some_iff.1 isLast
    rw [List.reduceOption_append, List.reduceOption_singleton, Option.toList_some] at answers
    have front_ : front.reduceOption = earlier := eq_of_concat_prefix distinct answers
    rw [List.length_append, List.length_singleton] at long
    have full : front.reduceOption.length = front.length := by
      rw [front_]
      omega
    have someFront := (List.reduceOption_length_eq_iff).1 full
    intro missing
    rcases List.mem_append.1 missing with inFront | isEnd
    · exact nomatch someFront none inFront
    · cases List.mem_singleton.1 isEnd
  · intro noOwn
    have full : read.reduceOption.length = read.length := by
      rw [List.reduceOption_length_eq_iff]
      intro message member
      cases message with
      | none => exact absurd member noOwn
      | some _ => rfl
    have same : read.reduceOption = earlier ++ [request] := by
      refine answers.eq_of_length ?_
      rw [full, long, List.length_append, List.length_singleton]
    rcases List.eq_nil_or_concat read with rfl | ⟨front, message, rfl⟩
    · simp at long
    · rw [List.concat_eq_append] at same noOwn ⊢
      cases message with
      | none => exact absurd (List.mem_append_right front (List.mem_singleton_self none)) noOwn
      | some other =>
          rw [List.reduceOption_append, List.reduceOption_singleton, Option.toList_some] at same
          have isLast := (List.append_inj' same rfl).2
          rw [List.getLast?_concat, List.singleton_inj.1 isLast]

end Channel

end Openyak.Theory
