/-
# Api.SseFraming -- when frames end at blank lines, whatever the chunks

A frame of an event stream ends at its first blank line: a line end, LF or CRLF,
right after another.  `blankLineFramer` cuts there; it is stable, so its frames
do not depend on chunks.  `separatorFramer` is the cut the code makes
(`nextSeparator`): it looks for LF LF first, wherever it stands.

The two agree on a buffer exactly when it is `Regular`: every frame ends in LF LF
or in CR LF CR LF, and no CR LF CR LF frame is followed by an LF LF
(`separator_frames_iff`).  With the other defect, that a chunk's events are lost
when one of its frames is malformed, this gives the exact condition for a stream
to be delivered frame by frame under every cut.
-/
import Openyak.Api.Sse
import Openyak.Theory.Framing
import Mathlib.Data.List.Infix

namespace Openyak.Api.Sse

open Openyak.Theory
open Openyak.Theory.Framing

set_option autoImplicit false

/-! ## Positions of a pattern -/

theorem position_eq_none_iff (pattern buffer : List UInt8) (nonempty : pattern ≠ []) :
    position pattern buffer = none ↔ ¬ pattern <:+: buffer := by
  induction buffer with
  | nil => simpa [position] using nonempty
  | cons b rest ih =>
      simp only [position, List.infix_cons_iff, ← List.isPrefixOf_iff_prefix, not_or, ← ih]
      split <;> simp_all

theorem position_spec {pattern buffer : List UInt8} {at_ : Nat}
    (found : position pattern buffer = some at_) :
    pattern <:+ buffer.take (at_ + pattern.length) ∧ at_ + pattern.length ≤ buffer.length := by
  induction buffer generalizing at_ with
  | nil => simp [position] at found
  | cons b rest ih =>
      simp only [position] at found
      split at found
      · rename_i here
        obtain ⟨after, joined⟩ := List.isPrefixOf_iff_prefix.1 here
        obtain rfl : 0 = at_ := by simpa using found
        rw [← joined]
        simp
      · simp only [Option.map_eq_some_iff] at found
        obtain ⟨before, later, rfl⟩ := found
        obtain ⟨ends, fits⟩ := ih later
        rw [show before + 1 + pattern.length = before + pattern.length + 1 by omega,
          List.take_succ_cons, List.length_cons]
        exact ⟨ends.trans (List.suffix_cons _ _), by omega⟩

/-! ## The cut at blank lines -/

/-- The buffer through its first blank line, and what follows. -/
def splitBlankLine : List UInt8 → Option (List UInt8 × List UInt8)
  | [] => none
  | b :: rest =>
      if [lf, lf].isPrefixOf (b :: rest) then some ([lf, lf], rest.drop 1)
      else if [lf, cr, lf].isPrefixOf (b :: rest) then some ([lf, cr, lf], rest.drop 2)
      else (splitBlankLine rest).map fun split => (b :: split.1, split.2)

/-- The three ways a buffer is split, from its first byte. -/
theorem splitBlankLine_cons {b : UInt8} {rest frame after : List UInt8}
    (found : splitBlankLine (b :: rest) = some (frame, after)) :
    (frame = [lf, lf] ∧ b :: rest = [lf, lf] ++ after) ∨
    (frame = [lf, cr, lf] ∧ b :: rest = [lf, cr, lf] ++ after) ∨
    (¬ [lf, lf] <+: b :: rest ∧ ¬ [lf, cr, lf] <+: b :: rest ∧
      ∃ more, frame = b :: more ∧ splitBlankLine rest = some (more, after)) := by
  simp only [splitBlankLine] at found
  split at found
  · rename_i here
    obtain ⟨later, joined⟩ := List.isPrefixOf_iff_prefix.1 here
    simp only [List.cons_append, List.nil_append, List.cons.injEq] at joined
    obtain ⟨rfl, rfl⟩ := joined
    simp only [List.drop_succ_cons, List.drop_zero, Option.some.injEq, Prod.mk.injEq] at found
    obtain ⟨rfl, rfl⟩ := found
    exact Or.inl ⟨rfl, rfl⟩
  · rename_i noLf
    split at found
    · rename_i here
      obtain ⟨later, joined⟩ := List.isPrefixOf_iff_prefix.1 here
      simp only [List.cons_append, List.nil_append, List.cons.injEq] at joined
      obtain ⟨rfl, rfl⟩ := joined
      simp only [List.drop_succ_cons, List.drop_zero, Option.some.injEq, Prod.mk.injEq] at found
      obtain ⟨rfl, rfl⟩ := found
      exact Or.inr (Or.inl ⟨rfl, rfl⟩)
    · rename_i noCr
      simp only [Option.map_eq_some_iff, Prod.mk.injEq] at found
      obtain ⟨split, later, rfl, rfl⟩ := found
      rw [List.isPrefixOf_iff_prefix] at noLf noCr
      exact Or.inr (Or.inr ⟨noLf, noCr, split.1, rfl, later⟩)

theorem splitBlankLine_append_eq {buffer frame rest : List UInt8}
    (found : splitBlankLine buffer = some (frame, rest)) : frame ++ rest = buffer := by
  induction buffer generalizing frame with
  | nil => simp [splitBlankLine] at found
  | cons b more ih =>
      rcases splitBlankLine_cons found with ⟨rfl, joined⟩ | ⟨rfl, joined⟩ | ⟨-, -, f, rfl, later⟩
      · exact joined.symm
      · exact joined.symm
      · rw [List.cons_append, ih later]

theorem two_le_length_of_splitBlankLine {buffer frame rest : List UInt8}
    (found : splitBlankLine buffer = some (frame, rest)) : 2 ≤ frame.length := by
  induction buffer generalizing frame with
  | nil => simp [splitBlankLine] at found
  | cons b more ih =>
      rcases splitBlankLine_cons found with ⟨rfl, -⟩ | ⟨rfl, -⟩ | ⟨-, -, f, rfl, later⟩
      · simp
      · simp
      · have := ih later
        simp only [List.length_cons]
        omega

/-- Frames end at their first blank line. -/
def blankLineFramer : Framer UInt8 where
  next := splitBlankLine
  append_eq := splitBlankLine_append_eq
  nonempty := by
    intro buffer frame rest found empty
    have := two_le_length_of_splitBlankLine found
    simp [empty] at this

theorem blankLineFramer_stable : blankLineFramer.Stable := by
  intro buffer frame rest more found
  change splitBlankLine buffer = some (frame, rest) at found
  change splitBlankLine (buffer ++ more) = some (frame, rest ++ more)
  induction buffer generalizing frame with
  | nil => simp [splitBlankLine] at found
  | cons b tail ih =>
      rcases splitBlankLine_cons found with
        ⟨rfl, joined⟩ | ⟨rfl, joined⟩ | ⟨noLf, noCr, f, rfl, later⟩
      · rw [joined]
        simp [splitBlankLine]
      · rw [joined]
        simp [splitBlankLine, lf, cr]
      · -- the bytes that decide are all in `b :: tail`, which holds a whole blank line
        have long : 2 ≤ tail.length := by
          have := two_le_length_of_splitBlankLine later
          have joined := congrArg List.length (splitBlankLine_append_eq later)
          rw [List.length_append] at joined
          omega
        have decided : ∀ pattern : List UInt8, pattern.length ≤ 3 → ¬ pattern <+: b :: tail →
            ¬ pattern <+: b :: (tail ++ more) := by
          intro pattern short absent here
          refine absent (List.prefix_of_prefix_length_le here (List.prefix_append _ more) ?_)
          rw [List.length_cons]
          omega
        simp only [List.cons_append, splitBlankLine, List.isPrefixOf_iff_prefix,
          decided _ (by decide) noLf, decided _ (by decide) noCr, if_false, ih later,
          Option.map_some]

/-! ## The cut the code makes -/

/-- `next_frame` before the text is decoded: what is drained, separator included. -/
def drainFrame (buffer : List UInt8) : Option (List UInt8 × List UInt8) :=
  (nextSeparator buffer).map fun (at_, separatorLen) =>
    (buffer.take (at_ + separatorLen), buffer.drop (at_ + separatorLen))

/-- What `nextSeparator` finds ends the drained bytes. -/
theorem nextSeparator_spec {buffer : List UInt8} {at_ separatorLen : Nat}
    (found : nextSeparator buffer = some (at_, separatorLen)) :
    (separatorLen = 2 ∧ position [lf, lf] buffer = some at_ ∧
        [lf, lf] <:+ buffer.take (at_ + separatorLen)) ∨
      (separatorLen = 4 ∧ position [lf, lf] buffer = none ∧
        [cr, lf, cr, lf] <:+ buffer.take (at_ + separatorLen)) := by
  unfold nextSeparator at found
  split at found
  · rename_i here first
    simp only [Option.some.injEq, Prod.mk.injEq] at found
    obtain ⟨rfl, rfl⟩ := found
    exact Or.inl ⟨rfl, first, (position_spec first).1⟩
  · rename_i noLf
    simp only [Option.map_eq_some_iff, Prod.mk.injEq] at found
    obtain ⟨here, first, rfl, rfl⟩ := found
    exact Or.inr ⟨rfl, noLf, (position_spec first).1⟩

theorem drainFrame_ends {buffer frame rest : List UInt8}
    (found : drainFrame buffer = some (frame, rest)) :
    [lf, lf] <:+ frame ∨ ([cr, lf, cr, lf] <:+ frame ∧ ¬ [lf, lf] <:+: buffer) := by
  simp only [drainFrame, Option.map_eq_some_iff, Prod.mk.injEq] at found
  obtain ⟨⟨at_, separatorLen⟩, separated, rfl, rfl⟩ := found
  rcases nextSeparator_spec separated with ⟨-, -, ends⟩ | ⟨-, noLf, ends⟩
  · exact Or.inl ends
  · exact Or.inr ⟨ends, (position_eq_none_iff _ _ (by simp)).1 noLf⟩

/-- The frames the code takes off its buffer. -/
def separatorFramer : Framer UInt8 where
  next := drainFrame
  append_eq := by
    intro buffer frame rest found
    simp only [drainFrame, Option.map_eq_some_iff, Prod.mk.injEq] at found
    obtain ⟨_, -, rfl, rfl⟩ := found
    exact List.take_append_drop _ _
  nonempty := by
    intro buffer frame rest found empty
    rcases drainFrame_ends found with ends | ⟨ends, -⟩ <;>
      simp [empty] at ends

/-! ## Where the two cuts agree -/

theorem position_of_splitBlankLine_none {buffer : List UInt8}
    (none_left : splitBlankLine buffer = none) :
    position [lf, lf] buffer = none ∧ position [cr, lf, cr, lf] buffer = none := by
  induction buffer with
  | nil => exact ⟨rfl, rfl⟩
  | cons b rest ih =>
      simp only [splitBlankLine] at none_left
      split at none_left
      · cases none_left
      · rename_i noLf
        split at none_left
        · cases none_left
        · simp only [Option.map_eq_none_iff] at none_left
          obtain ⟨noLf', noCr'⟩ := ih none_left
          refine ⟨by simp [position, noLf, noLf'], ?_⟩
          have noCr : ¬ [cr, lf, cr, lf].isPrefixOf (b :: rest) := by
            rw [List.isPrefixOf_iff_prefix, List.cons_prefix_cons]
            rintro ⟨-, after, rfl⟩
            simp [splitBlankLine, lf, cr] at none_left
          simp [position, noCr, noCr']

theorem position_of_lf_frame {buffer frame rest : List UInt8}
    (found : splitBlankLine buffer = some (frame, rest)) (ends : [lf, lf] <:+ frame) :
    position [lf, lf] buffer = some (frame.length - 2) := by
  induction buffer generalizing frame with
  | nil => simp [splitBlankLine] at found
  | cons b tail ih =>
      rcases splitBlankLine_cons found with
        ⟨rfl, joined⟩ | ⟨rfl, joined⟩ | ⟨noLf, -, f, rfl, later⟩
      · rw [joined]
        simp [position]
      · exact absurd ends (by decide)
      · have long := two_le_length_of_splitBlankLine later
        have ends' : [lf, lf] <:+ f := by
          rcases List.suffix_cons_iff.1 ends with same | inside
          · have := congrArg List.length same
            simp only [List.length_cons, List.length_nil] at this
            omega
          · exact inside
        rw [position, if_neg (by rwa [List.isPrefixOf_iff_prefix]), ih later ends']
        simp only [Option.map_some, List.length_cons, Option.some.injEq]
        omega

theorem position_of_crlf_frame {buffer frame rest : List UInt8}
    (found : splitBlankLine buffer = some (frame, rest)) (ends : [cr, lf, cr, lf] <:+ frame)
    (noLf : ¬ [lf, lf] <:+: lf :: rest) :
    ¬ [lf, lf] <:+: buffer ∧ position [cr, lf, cr, lf] buffer = some (frame.length - 4) := by
  induction buffer generalizing frame with
  | nil => simp [splitBlankLine] at found
  | cons b tail ih =>
      rcases splitBlankLine_cons found with
        ⟨rfl, joined⟩ | ⟨rfl, joined⟩ | ⟨noLf', -, f, rfl, later⟩
      · exact absurd ends (by decide)
      · exact absurd ends (by decide)
      · rcases List.suffix_cons_iff.1 ends with same | inside
        · -- the separator starts at `b`
          simp only [List.cons.injEq] at same
          obtain ⟨rfl, rfl⟩ := same
          have joined := splitBlankLine_append_eq later
          subst joined
          refine ⟨?_, by simp [position]⟩
          have noPrefix : ∀ more, ¬ [lf, lf] <+: cr :: more ∧ ¬ [lf, lf] <+: lf :: cr :: more := by
            intro more
            simp [List.cons_prefix_cons, lf, cr]
          intro has
          rcases List.infix_cons_iff.1 has with first | has
          · exact (noPrefix _).1 first
          rcases List.infix_cons_iff.1 has with first | has
          · exact (noPrefix _).2 first
          rcases List.infix_cons_iff.1 has with first | has
          · exact (noPrefix _).1 first
          exact noLf has
        · obtain ⟨clear, here⟩ := ih later inside
          have noCr : ¬ [cr, lf, cr, lf].isPrefixOf (b :: tail) := by
            rw [List.isPrefixOf_iff_prefix, List.cons_prefix_cons]
            rintro ⟨-, after, rfl⟩
            simp only [List.cons_append, splitBlankLine] at later
            have : f = [lf, cr, lf] := by
              simp [lf, cr] at later
              exact later.1.symm
            subst this
            exact absurd inside (by decide)
          refine ⟨fun has => ?_, ?_⟩
          · rcases List.infix_cons_iff.1 has with first | inTail
            · exact noLf' first
            · exact clear inTail
          · have long := inside.length_le
            rw [position, if_neg noCr, here]
            simp only [Option.map_some, List.length_cons, List.length_nil, Option.some.injEq]
              at long ⊢
            omega

/-- Every frame ends in LF LF or in CR LF CR LF, and after one of the latter no
LF LF follows, its own last LF counted. -/
def RegularEnds : List (List UInt8) → List UInt8 → Prop
  | [], _ => True
  | frame :: frames, tail =>
      ([lf, lf] <:+ frame ∨
        ([cr, lf, cr, lf] <:+ frame ∧ ¬ [lf, lf] <:+: lf :: (frames.flatten ++ tail))) ∧
      RegularEnds frames tail

def Regular (bytes : List UInt8) : Prop :=
  RegularEnds (blankLineFramer.frames bytes).1 (blankLineFramer.frames bytes).2

theorem drainFrame_of_splitBlankLine_none {buffer : List UInt8}
    (none_left : splitBlankLine buffer = none) : drainFrame buffer = none := by
  obtain ⟨noLf, noCr⟩ := position_of_splitBlankLine_none none_left
  simp [drainFrame, nextSeparator, noLf, noCr]

theorem drainFrame_of_splitBlankLine {buffer frame rest : List UInt8}
    (found : splitBlankLine buffer = some (frame, rest))
    (ends : [lf, lf] <:+ frame ∨ ([cr, lf, cr, lf] <:+ frame ∧ ¬ [lf, lf] <:+: lf :: rest)) :
    drainFrame buffer = some (frame, rest) := by
  have joined := splitBlankLine_append_eq found
  rcases ends with ends | ⟨ends, noLf⟩
  · have here := position_of_lf_frame found ends
    have long := ends.length_le
    simp only [List.length_cons, List.length_nil] at long
    have separated : nextSeparator buffer = some (frame.length - 2, 2) := by
      simp [nextSeparator, here]
    have size : frame.length - 2 + 2 = frame.length := by omega
    rw [drainFrame, separated, ← joined]
    simp [size]
  · obtain ⟨clear, here⟩ := position_of_crlf_frame found ends noLf
    have long := ends.length_le
    simp only [List.length_cons, List.length_nil] at long
    have separated : nextSeparator buffer = some (frame.length - 4, 4) := by
      simp [nextSeparator, (position_eq_none_iff _ _ (by simp)).2 clear, here]
    have size : frame.length - 4 + 4 = frame.length := by omega
    rw [drainFrame, separated, ← joined]
    simp [size]

/-- **The code cuts a buffer at its blank lines exactly when it is regular.** -/
theorem separator_frames_iff (bytes : List UInt8) :
    separatorFramer.frames bytes = blankLineFramer.frames bytes ↔ Regular bytes := by
  unfold Regular
  induction bytes using blankLineFramer.frames_induction with
  | stop buffer none_left =>
      have drained : separatorFramer.next buffer = none :=
        drainFrame_of_splitBlankLine_none none_left
      simp [Framer.frames_of_none _ none_left, Framer.frames_of_none _ drained, RegularEnds]
  | take buffer frame rest found ih =>
      rw [Framer.frames_of_some _ found]
      simp only [RegularEnds, Framer.frames_flatten]
      constructor
      · intro same
        cases drained : separatorFramer.next buffer with
        | none => rw [Framer.frames_of_none _ drained] at same; simp at same
        | some taken =>
            obtain ⟨frame', rest'⟩ := taken
            rw [Framer.frames_of_some _ drained] at same
            simp only [Prod.mk.injEq, List.cons.injEq] at same
            obtain ⟨⟨rfl, heads⟩, tails⟩ := same
            obtain rfl : rest' = rest := List.append_cancel_left
              ((separatorFramer.append_eq drained).trans (blankLineFramer.append_eq found).symm)
            refine ⟨?_, ih.1 (Prod.ext heads tails)⟩
            rcases drainFrame_ends drained with ends | ⟨ends, noLf⟩
            · exact Or.inl ends
            · refine Or.inr ⟨ends, fun has => noLf (has.trans ?_)⟩
              obtain ⟨start, rfl⟩ := ends
              rw [← separatorFramer.append_eq drained]
              exact ⟨start ++ [cr, lf, cr], [], by simp⟩
      · rintro ⟨ends, later⟩
        have drained : separatorFramer.next buffer = some (frame, rest) :=
          drainFrame_of_splitBlankLine found ends
        rw [Framer.frames_of_some _ drained, ih.2 later]

theorem regularEnds_left {xs ys : List (List UInt8)} {start tail : List UInt8}
    (regular : RegularEnds (xs ++ ys) tail) (within : start <+: ys.flatten ++ tail) :
    RegularEnds xs start := by
  induction xs with
  | nil => trivial
  | cons x xs ih =>
      obtain ⟨ends, later⟩ := regular
      refine ⟨ends.imp_right fun ⟨crlf, clear⟩ => ⟨crlf, fun has => clear (has.trans ?_)⟩, ih later⟩
      obtain ⟨more, joined⟩ := within
      refine List.IsPrefix.isInfix ⟨more, ?_⟩
      simp [List.flatten_append, ← joined]

theorem regularEnds_right {xs ys : List (List UInt8)} {tail : List UInt8}
    (regular : RegularEnds (xs ++ ys) tail) : RegularEnds ys tail := by
  induction xs with
  | nil => exact regular
  | cons x xs ih => exact ih regular.2

/-- What has arrived of a regular stream is regular. -/
theorem Regular.start {x y : List UInt8} (regular : Regular (x ++ y)) : Regular x := by
  unfold Regular at regular
  rw [Framer.frames_append blankLineFramer_stable] at regular
  refine regularEnds_left regular ?_
  rw [Framer.frames_flatten]
  exact List.prefix_append _ _

/-- What is left of a regular stream, once the frames that have arrived are
taken, is regular. -/
theorem Regular.left {x y : List UInt8} (regular : Regular (x ++ y)) :
    Regular ((blankLineFramer.frames x).2 ++ y) := by
  unfold Regular at regular
  rw [Framer.frames_append blankLineFramer_stable] at regular
  exact regularEnds_right regular

/-! ## What the parsers deliver -/

/-- How many bytes of a drained frame are its separator. -/
def separatorLength (frame : List UInt8) : Nat :=
  if [lf, lf].isSuffixOf frame then 2
  else if [cr, lf, cr, lf].isSuffixOf frame then 4
  else 3

/-- The text of a frame: what stands before its separator. -/
def frameText (frame : List UInt8) : List Char :=
  Text.fromUtf8Lossy (frame.take (frame.length - separatorLength frame))

theorem nextFrame_eq (buffer : List UInt8) :
    nextFrame buffer = (drainFrame buffer).map fun split => (frameText split.1, split.2) := by
  unfold nextFrame drainFrame
  cases separated : nextSeparator buffer with
  | none => rfl
  | some found =>
      obtain ⟨at_, separatorLen⟩ := found
      simp only [Option.map_some, frameText, Option.some.injEq, Prod.mk.injEq, and_true]
      have size : separatorLen = separatorLength (buffer.take (at_ + separatorLen)) := by
        unfold separatorLength
        rcases nextSeparator_spec separated with ⟨rfl, -, ends⟩ | ⟨rfl, -, ends⟩
        · rw [if_pos (List.isSuffixOf_iff_suffix.2 ends)]
        · have notLf : ¬ [lf, lf].isSuffixOf (buffer.take (at_ + 4)) := by
            rw [List.isSuffixOf_iff_suffix]
            intro ends'
            have := List.suffix_of_suffix_length_le ends' ends (by decide)
            exact absurd this (by decide)
          rw [if_neg notLf, if_pos (List.isSuffixOf_iff_suffix.2 ends)]
      rw [← size]

section Deliver

variable {α : Type} (parse : List Char → Except ApiError (Option α))

def decodeFrame (frame : List UInt8) : Except ApiError (Option α) := parse (frameText frame)

/-- The loop of `push` answers with all events of the buffer's frames and keeps
the rest, or else fails with the first error. -/
theorem pushLoop_eq (fuel : Nat) (buffer : List UInt8) (events : List α)
    (enough : buffer.length ≤ fuel) :
    let decoded := Framer.decodeAll (decodeFrame parse) (separatorFramer.frames buffer).1
    (decoded.2 = none → pushLoop parse fuel buffer events
        = ((separatorFramer.frames buffer).2, .ok (events ++ decoded.1))) ∧
      ∀ e, decoded.2 = some e → (pushLoop parse fuel buffer events).2 = .error e := by
  induction buffer using separatorFramer.frames_induction generalizing fuel events with
  | stop buffer none_left =>
      have noFrame : nextFrame buffer = none := by
        rw [nextFrame_eq, show drainFrame buffer = none from none_left, Option.map_none]
      rw [Framer.frames_of_none _ none_left]
      cases fuel <;> simp [Framer.decodeAll, pushLoop, noFrame]
  | take buffer frame rest found ih =>
      have shorter := separatorFramer.rest_length found
      have next : nextFrame buffer = some (frameText frame, rest) := by
        rw [nextFrame_eq, show drainFrame buffer = some (frame, rest) from found, Option.map_some]
      rw [Framer.frames_of_some _ found]
      cases fuel with
      | zero => omega
      | succ fuel =>
          cases parsed : parse (frameText frame) with
          | error e => simp [Framer.decodeAll, pushLoop, next, decodeFrame, parsed]
          | ok event =>
              cases event with
              | none =>
                  have := ih fuel events (by omega)
                  simpa only [Framer.decodeAll, pushLoop, next, decodeFrame, parsed,
                    Option.toList_none, List.nil_append] using this
              | some event =>
                  have := ih fuel (events ++ [event]) (by omega)
                  simpa only [Framer.decodeAll, pushLoop, next, decodeFrame, parsed,
                    Option.toList_some, List.append_assoc] using this

/-- A stream is delivered as the framer's answers to its chunks. -/
theorem deliverWith_eq (buffer : List UInt8) (chunks : List (List UInt8)) :
    deliverWith parse buffer chunks =
      separatorFramer.deliver (decodeFrame parse) (finishWith parse) buffer chunks := by
  induction chunks generalizing buffer with
  | nil =>
      simp only [deliverWith, Framer.deliver]
      cases finishWith parse buffer <;> rfl
  | cons chunk chunks ih =>
      obtain ⟨good, bad⟩ := pushLoop_eq parse _ (buffer ++ chunk) [] le_rfl
      simp only [deliverWith, pushWith, Framer.deliver, Framer.answer]
      rcases decoded : Framer.decodeAll (decodeFrame parse)
        (separatorFramer.frames (buffer ++ chunk)).1 with ⟨more, _ | e⟩
      · rw [good (by rw [decoded]), decoded]
        simp only [List.nil_append, ih]
      · have failed := bad e (by rw [decoded])
        generalize pushLoop parse (buffer ++ chunk).length (buffer ++ chunk) [] = pushed at failed ⊢
        obtain ⟨rest, answer⟩ := pushed
        simp only at failed
        simp only [failed]

/-- **Delivery frame by frame**, for one stream of bytes: every cut into chunks
delivers the same events and the same error, the frames taken are the stretches
up to each first blank line, and the events of the frames before a malformed one
are delivered. -/
structure DeliveredByFrames (bytes : List UInt8) : Prop where
  independent : ∀ cut cut' : List (List UInt8), cut.flatten = bytes → cut'.flatten = bytes →
    deliverWith parse [] cut = deliverWith parse [] cut'
  blankLines : ∀ cut : List (List UInt8), cut.flatten = bytes →
    separatorFramer.collect [] cut = blankLineFramer.frames bytes
  beforeMalformed : ∀ cut : List (List UInt8), cut.flatten = bytes →
    (Framer.decodeAll (decodeFrame parse) (blankLineFramer.frames bytes).1).1 <+:
      (deliverWith parse [] cut).1

/-- On a regular stream with no event before its first malformed frame, every
cut delivers what decoding the frames one by one gives. -/
theorem deliverWith_of_regular {bytes : List UInt8} (regular : Regular bytes)
    (errorFirst : Framer.ErrorFirst (decodeFrame parse) (blankLineFramer.frames bytes).1)
    (cut : List (List UInt8)) (whole : cut.flatten = bytes) :
    deliverWith parse [] cut =
      Framer.decodeStream (decodeFrame parse) (finishWith parse)
        (blankLineFramer.frames bytes) := by
  rw [deliverWith_eq, Framer.deliver_congr (G := blankLineFramer) (P := Regular) _ _
    (fun regular => (separator_frames_iff _).2 regular) Regular.start Regular.left [] cut
    (by simpa [whole] using regular)]
  have errorFirst : Framer.ErrorFirst (decodeFrame parse)
      (blankLineFramer.frames ([] ++ cut.flatten)).1 := by
    simpa [whole] using errorFirst
  have whole_stream := Framer.deliver_eq_decodeStream (finishWith parse)
    blankLineFramer_stable [] rfl cut errorFirst
  simpa [whole] using whole_stream

theorem deliveredByFrames_iff (bytes : List UInt8) :
    DeliveredByFrames parse bytes ↔
      Regular bytes ∧
        Framer.ErrorFirst (decodeFrame parse) (blankLineFramer.frames bytes).1 := by
  constructor
  · intro delivered
    have regular : Regular bytes := by
      rw [← separator_frames_iff]
      simpa [Framer.collect] using delivered.blankLines [bytes] (by simp)
    refine ⟨regular, fun failed => ?_⟩
    have first := delivered.beforeMalformed [bytes] (by simp)
    rw [deliverWith_eq] at first
    simp only [Framer.deliver, List.nil_append, (separator_frames_iff bytes).2 regular,
      Framer.answer] at first
    generalize Framer.decodeAll (decodeFrame parse) (blankLineFramer.frames bytes).1 = decoded
      at failed first ⊢
    obtain ⟨events, _ | e⟩ := decoded
    · cases failed
    · exact List.prefix_nil.1 first
  · rintro ⟨regular, errorFirst⟩
    have delivers := deliverWith_of_regular parse regular errorFirst
    refine ⟨fun cut cut' whole whole' => ?_, fun cut whole => ?_, fun cut whole => ?_⟩
    · rw [delivers cut whole, delivers cut' whole']
    · rw [Framer.collect_congr (G := blankLineFramer) (P := Regular)
        (fun regular => (separator_frames_iff _).2 regular) Regular.start Regular.left [] cut
        (by simpa [whole] using regular),
        Framer.collect_eq_frames blankLineFramer_stable [] rfl, List.nil_append, whole]
    · rw [delivers cut whole, Framer.decodeStream]
      rcases Framer.decodeAll (decodeFrame parse) (blankLineFramer.frames bytes).1
        with ⟨events, _ | e⟩
      · simp only
        cases finishWith parse (blankLineFramer.frames bytes).2 <;> simp
      · simp

end Deliver

/-! ## The two providers -/

/-- **The exact condition, for both parsers**: a stream is delivered frame by
frame under every cut exactly when its frames end regularly and no event stands
before the first malformed frame. -/
theorem parsers_deliveredByFrames_iff (fromStr : List Char → Except String StreamEvent)
    (decoders : ChunkDecoders) (bytes : List UInt8) :
    (DeliveredByFrames (parseFrame fromStr) bytes ↔
      Regular bytes ∧
        Framer.ErrorFirst (decodeFrame (parseFrame fromStr)) (blankLineFramer.frames bytes).1) ∧
    (DeliveredByFrames (parseSseFrame decoders) bytes ↔
      Regular bytes ∧
        Framer.ErrorFirst (decodeFrame (parseSseFrame decoders))
          (blankLineFramer.frames bytes).1) :=
  ⟨deliveredByFrames_iff (parseFrame fromStr) bytes,
    deliveredByFrames_iff (parseSseFrame decoders) bytes⟩

/-- `data: [DONE]`, as its bytes. -/
def doneLine : List UInt8 := [100, 97, 116, 97, 58, 32, 91, 68, 79, 78, 69, 93]

/-- A frame with one payload line and a frame with another, the first ended by
CRLFs and the second by LFs. -/
def mixedFrames : List UInt8 × List UInt8 := (doneLine ++ [cr, lf, cr, lf], doneLine ++ [lf, lf])

/-- Each frame alone holds the payload `[DONE]` and gives no event; pushed
together they are taken for one frame with a two-line payload, which is an event
or an error, whatever the decoder says. -/
theorem mixedFrames_differ (fromStr : List Char → Except String StreamEvent) :
    SseParser.deliver fromStr [mixedFrames.1 ++ mixedFrames.2] ≠
      SseParser.deliver fromStr [mixedFrames.1, mixedFrames.2] := by
  have apart : SseParser.deliver fromStr [mixedFrames.1, mixedFrames.2] = ([], none) := rfl
  have oneFrame : separatorFramer.frames (mixedFrames.1 ++ mixedFrames.2) =
      ([mixedFrames.1 ++ mixedFrames.2], []) := by decide
  have fields : frameFields
      (Text.lines (Text.trim (frameText (mixedFrames.1 ++ mixedFrames.2)))) =
        (none, ["[DONE]".toList, "[DONE]".toList]) := by decide
  have trimmed : (Text.trim (frameText (mixedFrames.1 ++ mixedFrames.2))).isEmpty = false := by
    decide
  have notDone : Text.joinLines ["[DONE]".toList, "[DONE]".toList] ≠ "[DONE]".toList := by decide
  rw [apart, SseParser.deliver, deliverWith_eq]
  simp only [SseParser.new, Framer.deliver, Framer.answer, List.nil_append, oneFrame,
    Framer.decodeAll, decodeFrame, parseFrame, trimmed, fields, Bool.false_eq_true, if_false,
    reduceCtorEq, List.isEmpty_cons, notDone]
  cases fromStr (Text.joinLines ["[DONE]".toList, "[DONE]".toList]) <;> simp

/-- The answer of `serde_json` to the two-line payload. -/
def refusing (_ : List Char) : Except String StreamEvent := .error "expected value"

theorem mixedFrames_not_independent :
    SseParser.deliver refusing [mixedFrames.1 ++ mixedFrames.2] ≠
      SseParser.deliver refusing [mixedFrames.1, mixedFrames.2] :=
  mixedFrames_differ refusing

end Openyak.Api.Sse
