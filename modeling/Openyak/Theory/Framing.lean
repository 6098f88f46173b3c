/-
# Theory.Framing -- cutting a stream into frames while it arrives in chunks

A `Framer` looks at the items buffered so far and, once a frame is complete,
takes it off the front; `frames` takes frames until none is complete.  A framer
is `Stable` when a frame found in a buffer is the frame found in every longer
buffer.  Then taking frames from `x`, keeping the rest and going on when `y`
arrives is taking frames from `x ++ y` (`frames_append`), so the frames of a
stream do not depend on how it was cut (`collect_eq_frames`).

A decoder turns a frame into at most one event, or fails.  A parser that answers
a chunk with the events of all its frames or else with the first error
(`answer`) loses the events that stand before an error in that chunk.  `deliver`
is what its caller sees of a stream, chunk by chunk; `decodeStream` decodes the
frames one after the other.  They agree whatever the cut when no event stands
before the first error (`deliver_eq_decodeStream`).

A framer that is not stable is compared with one that is: `collect_congr` and
`deliver_congr` carry an agreement on buffers over to streams.
-/
import Mathlib.Data.List.Basic

namespace Openyak.Theory.Framing

set_option autoImplicit false

universe u v w

/-- A frame taken off the front is not empty and leaves the rest as it is. -/
structure Framer (β : Type u) where
  next : List β → Option (List β × List β)
  append_eq : ∀ {buffer frame rest}, next buffer = some (frame, rest) → frame ++ rest = buffer
  nonempty : ∀ {buffer frame rest}, next buffer = some (frame, rest) → frame ≠ []

namespace Framer

variable {β : Type u} (F : Framer β)

/-! ## Frames of one buffer -/

/-- Take frames until none is complete. -/
def framesAux : Nat → List β → List (List β) × List β
  | 0, buffer => ([], buffer)
  | fuel + 1, buffer =>
      match F.next buffer with
      | none => ([], buffer)
      | some (frame, rest) =>
          (frame :: (framesAux fuel rest).1, (framesAux fuel rest).2)

/-- Every frame is nonempty, so the buffer's length is fuel enough. -/
def frames (buffer : List β) : List (List β) × List β := F.framesAux buffer.length buffer

theorem rest_length {buffer frame rest : List β} (found : F.next buffer = some (frame, rest)) :
    rest.length < buffer.length := by
  have pos := List.length_pos_iff.2 (F.nonempty found)
  rw [← F.append_eq found, List.length_append]
  omega

theorem next_nil : F.next [] = none := by
  cases found : F.next [] with
  | none => rfl
  | some taken => exact absurd (F.rest_length found) (by simp)

theorem framesAux_fuel (fuel more : Nat) (buffer : List β) (enough : buffer.length ≤ fuel)
    (enough' : buffer.length ≤ more) : F.framesAux fuel buffer = F.framesAux more buffer := by
  induction fuel generalizing more buffer with
  | zero =>
      obtain rfl : buffer = [] := List.length_eq_zero_iff.mp (Nat.le_zero.mp enough)
      cases more <;> simp [framesAux, F.next_nil]
  | succ fuel ih =>
      cases more with
      | zero =>
          obtain rfl : buffer = [] := List.length_eq_zero_iff.mp (Nat.le_zero.mp enough')
          simp [framesAux, F.next_nil]
      | succ more =>
          simp only [framesAux]
          cases found : F.next buffer with
          | none => rfl
          | some taken =>
              have shorter := F.rest_length found
              simp only [ih more taken.2 (by omega) (by omega)]

theorem frames_of_none {buffer : List β} (none_left : F.next buffer = none) :
    F.frames buffer = ([], buffer) := by
  unfold frames
  cases buffer.length <;> simp [framesAux, none_left]

theorem frames_of_some {buffer frame rest : List β} (found : F.next buffer = some (frame, rest)) :
    F.frames buffer = (frame :: (F.frames rest).1, (F.frames rest).2) := by
  have shorter := F.rest_length found
  unfold frames
  cases size : buffer.length with
  | zero => omega
  | succ n => simp only [framesAux, found, F.framesAux_fuel n rest.length rest (by omega) (Nat.le_refl _)]

/-- Induction along the frames of a buffer. -/
theorem frames_induction {motive : List β → Prop}
    (stop : ∀ buffer, F.next buffer = none → motive buffer)
    (take : ∀ buffer frame rest, F.next buffer = some (frame, rest) → motive rest → motive buffer)
    (buffer : List β) : motive buffer := by
  induction size : buffer.length using Nat.strongRecOn generalizing buffer with
  | ind n ih =>
      cases found : F.next buffer with
      | none => exact stop buffer found
      | some taken =>
          exact take buffer taken.1 taken.2 found (ih _ (size ▸ F.rest_length found) _ rfl)

theorem frames_flatten (buffer : List β) :
    (F.frames buffer).1.flatten ++ (F.frames buffer).2 = buffer := by
  induction buffer using F.frames_induction with
  | stop buffer none_left => simp [F.frames_of_none none_left]
  | take buffer frame rest found ih =>
      rw [F.frames_of_some found]
      simpa [ih] using F.append_eq found

theorem next_frames_rest (buffer : List β) : F.next (F.frames buffer).2 = none := by
  induction buffer using F.frames_induction with
  | stop buffer none_left => simpa [F.frames_of_none none_left] using none_left
  | take buffer frame rest found ih => simpa [F.frames_of_some found] using ih

/-! ## Frames of a stream that arrives in chunks -/

/-- A frame found in a buffer is found in every longer one. -/
def Stable : Prop :=
  ∀ {buffer frame rest} (more : List β),
    F.next buffer = some (frame, rest) → F.next (buffer ++ more) = some (frame, rest ++ more)

variable {F} in
theorem frames_append (stable : F.Stable) (x y : List β) :
    F.frames (x ++ y) =
      ((F.frames x).1 ++ (F.frames ((F.frames x).2 ++ y)).1,
        (F.frames ((F.frames x).2 ++ y)).2) := by
  induction x using F.frames_induction with
  | stop x none_left => simp [F.frames_of_none none_left]
  | take x frame rest found ih =>
      rw [F.frames_of_some found, F.frames_of_some (stable y found), ih]
      simp

/-- The frames taken while the chunks are buffered one after the other. -/
def collect : List β → List (List β) → List (List β) × List β
  | buffer, [] => ([], buffer)
  | buffer, chunk :: chunks =>
      let taken := F.frames (buffer ++ chunk)
      let more := collect taken.2 chunks
      (taken.1 ++ more.1, more.2)

variable {F} in
/-- **The frames of a stable framer do not depend on the cut.** -/
theorem collect_eq_frames (stable : F.Stable) (buffer : List β) (none_left : F.next buffer = none)
    (chunks : List (List β)) : F.collect buffer chunks = F.frames (buffer ++ chunks.flatten) := by
  induction chunks generalizing buffer with
  | nil => simp [collect, F.frames_of_none none_left]
  | cons chunk chunks ih =>
      rw [collect, ih _ (F.next_frames_rest _), List.flatten_cons, ← List.append_assoc,
        frames_append stable (buffer ++ chunk)]

/-! ## Decoding -/

section Decode

variable {α : Type v} {ε : Type w} (decode : List β → Except ε (Option α))
  (finish : List β → Except ε (List α))

/-- The events of the frames before the first one that fails, and its error. -/
def decodeAll : List (List β) → List α × Option ε
  | [] => ([], none)
  | frame :: frames =>
      match decode frame with
      | .error e => ([], some e)
      | .ok event => (event.toList ++ (decodeAll frames).1, (decodeAll frames).2)

/-- All events of the frames, or else only the first error. -/
def answer (frames : List (List β)) : Except ε (List α) :=
  match decodeAll decode frames with
  | (events, none) => .ok events
  | (_, some e) => .error e

/-- Decode the frames one by one and then what is left in the buffer. -/
def decodeStream (taken : List (List β) × List β) : List α × Option ε :=
  match decodeAll decode taken.1 with
  | (events, some e) => (events, some e)
  | (events, none) =>
      match finish taken.2 with
      | .ok more => (events ++ more, none)
      | .error e => (events, some e)

/-- What the caller sees: the answers to the chunks and then to the end of the
stream, up to the first error. -/
def deliver : List β → List (List β) → List α × Option ε
  | buffer, [] =>
      match finish buffer with
      | .ok events => (events, none)
      | .error e => ([], some e)
  | buffer, chunk :: chunks =>
      let taken := F.frames (buffer ++ chunk)
      match answer decode taken.1 with
      | .error e => ([], some e)
      | .ok events =>
          let more := deliver taken.2 chunks
          (events ++ more.1, more.2)

/-- No event stands before the first error. -/
def ErrorFirst (frames : List (List β)) : Prop :=
  (decodeAll decode frames).2.isSome → (decodeAll decode frames).1 = []

theorem decodeAll_append (xs ys : List (List β)) :
    decodeAll decode (xs ++ ys) =
      match decodeAll decode xs with
      | (events, some e) => (events, some e)
      | (events, none) => (events ++ (decodeAll decode ys).1, (decodeAll decode ys).2) := by
  induction xs with
  | nil => simp [decodeAll]
  | cons x xs ih =>
      simp only [List.cons_append, decodeAll]
      cases decode x with
      | error e => rfl
      | ok event =>
          simp only [ih]
          rcases decodeAll decode xs with ⟨events, _ | e⟩ <;> simp

variable {F decode} in
/-- **Without an event before an error, the cut does not matter**: every cut
delivers what decoding the frames one by one gives. -/
theorem deliver_eq_decodeStream (stable : F.Stable) (buffer : List β)
    (none_left : F.next buffer = none) (chunks : List (List β))
    (errorFirst : ErrorFirst decode (F.frames (buffer ++ chunks.flatten)).1) :
    F.deliver decode finish buffer chunks =
      decodeStream decode finish (F.frames (buffer ++ chunks.flatten)) := by
  induction chunks generalizing buffer with
  | nil =>
      simp only [deliver, List.flatten_nil, List.append_nil, F.frames_of_none none_left,
        decodeStream, decodeAll, List.nil_append]
  | cons chunk chunks ih =>
      rw [List.flatten_cons, ← List.append_assoc, frames_append stable (buffer ++ chunk)]
        at errorFirst ⊢
      have rest := ih _ (F.next_frames_rest (buffer ++ chunk))
      simp only [deliver, answer, decodeStream, ErrorFirst, decodeAll_append] at errorFirst rest ⊢
      generalize decodeAll decode (F.frames (buffer ++ chunk)).1 = head at errorFirst ⊢
      obtain ⟨events, _ | e⟩ := head
      · -- the chunk decodes: its events come first and the rest follows
        simp only at errorFirst ⊢
        rw [rest fun failed => (List.append_eq_nil_iff.1 (errorFirst failed)).2]
        rcases decodeAll decode (F.frames ((F.frames (buffer ++ chunk)).2 ++ chunks.flatten)).1
          with ⟨later, _ | e⟩
        · simp only
          cases finish (F.frames ((F.frames (buffer ++ chunk)).2 ++ chunks.flatten)).2 <;> simp
        · rfl
      · simpa using (errorFirst rfl).symm

end Decode

/-! ## Comparing two framers -/

variable {F} {G : Framer β} {P : List β → Prop}

theorem collect_congr (agree : ∀ {buffer}, P buffer → F.frames buffer = G.frames buffer)
    (start : ∀ {x y}, P (x ++ y) → P x) (left : ∀ {x y}, P (x ++ y) → P ((G.frames x).2 ++ y))
    (buffer : List β) (chunks : List (List β)) (holds : P (buffer ++ chunks.flatten)) :
    F.collect buffer chunks = G.collect buffer chunks := by
  induction chunks generalizing buffer with
  | nil => rfl
  | cons chunk chunks ih =>
      rw [List.flatten_cons, ← List.append_assoc] at holds
      simp only [collect, agree (start holds), ih _ (left holds)]

theorem deliver_congr {α : Type v} {ε : Type w} (decode : List β → Except ε (Option α))
    (finish : List β → Except ε (List α))
    (agree : ∀ {buffer}, P buffer → F.frames buffer = G.frames buffer)
    (start : ∀ {x y}, P (x ++ y) → P x) (left : ∀ {x y}, P (x ++ y) → P ((G.frames x).2 ++ y))
    (buffer : List β) (chunks : List (List β)) (holds : P (buffer ++ chunks.flatten)) :
    F.deliver decode finish buffer chunks = G.deliver decode finish buffer chunks := by
  induction chunks generalizing buffer with
  | nil => rfl
  | cons chunk chunks ih =>
      rw [List.flatten_cons, ← List.append_assoc] at holds
      simp only [deliver, agree (start holds), ih _ (left holds)]

end Framer

end Openyak.Theory.Framing
