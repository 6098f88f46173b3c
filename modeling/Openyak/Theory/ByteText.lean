/-
# Theory.ByteText -- texts that are cut at byte offsets

A text is a list of characters, and an offset into it counts the bytes of their UTF-8
encodings.  It is a boundary where a first part of the text takes that many bytes
(`IsBoundary`); a text is cut there in one way (`splitAt_append`), and nowhere else.

The operations are those of a `str` and a `String`: they give nothing where they would
panic.
-/
import Mathlib.Data.List.Infix

namespace Openyak.Theory.ByteText

set_option autoImplicit false

/-- `str::len`. -/
def byteLen : List Char → Nat
  | [] => 0
  | c :: rest => c.utf8Size + byteLen rest

@[simp] theorem byteLen_nil : byteLen [] = 0 := rfl

@[simp] theorem byteLen_cons (c : Char) (rest : List Char) :
    byteLen (c :: rest) = c.utf8Size + byteLen rest := rfl

variable {text before after part : List Char} {offset : Nat} {c : Char}

@[simp] theorem byteLen_append (before after : List Char) :
    byteLen (before ++ after) = byteLen before + byteLen after := by
  induction before with
  | nil => simp
  | cons c before ih =>
      rw [List.cons_append, byteLen_cons, byteLen_cons, ih]
      omega

theorem byteLen_eq_zero : byteLen text = 0 ↔ text = [] := by
  cases text with
  | nil => simp
  | cons c rest =>
      have positive := c.utf8Size_pos
      simp only [byteLen_cons, reduceCtorEq, iff_false]
      omega

/-- `str::split_at`. -/
def splitAt : List Char → Nat → Option (List Char × List Char)
  | [], offset => if offset = 0 then some ([], []) else none
  | c :: rest, offset =>
      if offset = 0 then some ([], c :: rest)
      else if c.utf8Size ≤ offset then
        (splitAt rest (offset - c.utf8Size)).map fun parts => (c :: parts.1, parts.2)
      else none

/-- A first part of the text takes this many bytes. -/
def IsBoundary (text : List Char) (offset : Nat) : Prop :=
  ∃ before after, text = before ++ after ∧ byteLen before = offset

@[simp] theorem splitAt_append (before after : List Char) :
    splitAt (before ++ after) (byteLen before) = some (before, after) := by
  induction before with
  | nil => cases after <;> rfl
  | cons c before ih =>
      have positive := c.utf8Size_pos
      rw [List.cons_append, splitAt, byteLen_cons, if_neg (by omega), if_pos (by omega),
        Nat.add_sub_cancel_left, ih]
      rfl

theorem splitAt_some (cut : splitAt text offset = some (before, after)) :
    text = before ++ after ∧ byteLen before = offset := by
  induction text generalizing offset before with
  | nil =>
      unfold splitAt at cut
      split at cut
      · rename_i zero
        cases cut
        exact ⟨rfl, zero.symm⟩
      · cases cut
  | cons c rest ih =>
      rw [splitAt] at cut
      split at cut
      · rename_i zero
        cases cut
        exact ⟨rfl, zero.symm⟩
      · split at cut
        · rename_i fits
          obtain ⟨⟨first, second⟩, inner, parts⟩ := Option.map_eq_some_iff.1 cut
          cases parts
          obtain ⟨rfl, length⟩ := ih inner
          refine ⟨rfl, ?_⟩
          rw [byteLen_cons, length]
          omega
        · cases cut

theorem isBoundary_iff : IsBoundary text offset ↔ (splitAt text offset).isSome = true := by
  constructor
  · rintro ⟨before, after, rfl, rfl⟩
    rw [splitAt_append]
    rfl
  · intro cut
    obtain ⟨⟨before, after⟩, parts⟩ := Option.isSome_iff_exists.1 cut
    obtain ⟨isText, length⟩ := splitAt_some parts
    exact ⟨before, after, isText, length⟩

instance (text : List Char) (offset : Nat) : Decidable (IsBoundary text offset) :=
  decidable_of_iff _ isBoundary_iff.symm

theorem splitAt_none (notBoundary : ¬IsBoundary text offset) : splitAt text offset = none := by
  rw [isBoundary_iff] at notBoundary
  simpa using notBoundary

/-- A text is cut at an offset in one way. -/
theorem parts_unique {before' after' : List Char} (same : before ++ after = before' ++ after')
    (length : byteLen before = byteLen before') : before = before' ∧ after = after' := by
  have cut := splitAt_append before' after'
  rw [← same, ← length, splitAt_append] at cut
  exact Prod.mk.inj (Option.some.inj cut)

namespace IsBoundary

theorem intro (before after : List Char) : IsBoundary (before ++ after) (byteLen before) :=
  ⟨before, after, rfl, rfl⟩

theorem zero (text : List Char) : IsBoundary text 0 := ⟨[], text, rfl, rfl⟩

theorem len (text : List Char) : IsBoundary text (byteLen text) :=
  ⟨text, [], (List.append_nil text).symm, rfl⟩

theorem le (boundary : IsBoundary text offset) : offset ≤ byteLen text := by
  obtain ⟨before, after, rfl, rfl⟩ := boundary
  rw [byteLen_append]
  omega

/-- What is a boundary of a first part is one of the text. -/
theorem of_first (boundary : IsBoundary before offset) (first : before <+: text) :
    IsBoundary text offset := by
  obtain ⟨front, back, rfl, rfl⟩ := boundary
  obtain ⟨rest, rfl⟩ := first
  exact ⟨front, back ++ rest, List.append_assoc .., rfl⟩

/-- A boundary of what stands behind a first part, counted from the start. -/
theorem shift (boundary : IsBoundary after offset) :
    IsBoundary (before ++ after) (byteLen before + offset) := by
  obtain ⟨front, back, rfl, rfl⟩ := boundary
  exact ⟨before ++ front, back, (List.append_assoc ..).symm, byteLen_append ..⟩

/-- Two boundaries cut a text in three. -/
theorem between {other : Nat} (boundary : IsBoundary text offset) (behind : IsBoundary text other)
    (le : offset ≤ other) : ∃ front middle back, text = front ++ middle ++ back ∧
      byteLen front = offset ∧ byteLen front + byteLen middle = other := by
  obtain ⟨front, rest, rfl, rfl⟩ := boundary
  obtain ⟨upTo, back, same, rfl⟩ := behind
  have first : front <+: upTo := by
    obtain short | long := List.prefix_or_prefix_of_prefix (List.prefix_append front rest)
      (same ▸ List.prefix_append upTo back)
    · exact short
    · obtain ⟨more, rfl⟩ := long
      rw [byteLen_append] at le
      have nothing : more = [] := byteLen_eq_zero.1 (by omega)
      rw [nothing, List.append_nil]
  obtain ⟨middle, rfl⟩ := first
  exact ⟨front, middle, back, same, rfl, (byteLen_append ..).symm⟩

/-- Behind a first part the boundaries are those of the rest. -/
theorem append_iff (behind : byteLen before ≤ offset) :
    IsBoundary (before ++ after) offset ↔ IsBoundary after (offset - byteLen before) := by
  constructor
  · intro boundary
    obtain ⟨front, middle, back, same, isBefore, rfl⟩ := (intro before after).between boundary behind
    rw [List.append_assoc] at same
    obtain ⟨rfl, rfl⟩ := parts_unique same isBefore.symm
    rw [Nat.add_sub_cancel_left]
    exact intro middle back
  · intro boundary
    have shifted : IsBoundary (before ++ after) (byteLen before + (offset - byteLen before)) :=
      boundary.shift
    rwa [Nat.add_sub_cancel' behind] at shifted

/-- Up to the end of a first part they are those of it. -/
theorem of_le (boundary : IsBoundary (before ++ after) offset) (le : offset ≤ byteLen before) :
    IsBoundary before offset := by
  obtain ⟨front, middle, back, same, rfl, isBefore⟩ := boundary.between (intro before after) le
  rw [← byteLen_append] at isBefore
  obtain ⟨rfl, rfl⟩ := parts_unique same isBefore.symm
  exact intro front middle

end IsBoundary

/-! ## Slices -/

/-- `&text[..offset]`. -/
def upTo (text : List Char) (offset : Nat) : Option (List Char) := (splitAt text offset).map Prod.fst

/-- `&text[offset..]`. -/
def startingAt (text : List Char) (offset : Nat) : Option (List Char) :=
  (splitAt text offset).map Prod.snd

/-- `&text[start..end]`. -/
def slice (text : List Char) (start stop : Nat) : Option (List Char) := do
  let front ← upTo text stop
  startingAt front start

/-- `String::insert_str`. -/
def insertStr (text : List Char) (offset : Nat) (inserted : List Char) : Option (List Char) :=
  (splitAt text offset).map fun parts => parts.1 ++ inserted ++ parts.2

/-- `String::drain`, which leaves what is not between the offsets. -/
def drain (text : List Char) (start stop : Nat) : Option (List Char) := do
  let (front, back) ← splitAt text stop
  let (kept, _) ← splitAt front start
  return kept ++ back

@[simp] theorem upTo_append (before after : List Char) :
    upTo (before ++ after) (byteLen before) = some before := by simp [upTo]

@[simp] theorem startingAt_append (before after : List Char) :
    startingAt (before ++ after) (byteLen before) = some after := by simp [startingAt]

theorem slice_append (before part after : List Char) :
    slice (before ++ part ++ after) (byteLen before) (byteLen before + byteLen part) =
      some part := by
  rw [← byteLen_append, slice, upTo_append]
  exact startingAt_append before part

theorem upTo_none (notBoundary : ¬IsBoundary text offset) : upTo text offset = none := by
  rw [upTo, splitAt_none notBoundary, Option.map_none]

/-- A slice from a boundary on is a first part of what stands there. -/
theorem slice_behind (before after : List Char) (count : Nat) :
    slice (before ++ after) (byteLen before) (byteLen before + count) = upTo after count := by
  by_cases boundary : IsBoundary after count
  · obtain ⟨front, back, rfl, rfl⟩ := boundary
    rw [← List.append_assoc, slice_append, upTo_append]
  · have notBoundary : ¬IsBoundary (before ++ after) (byteLen before + count) := by
      rw [IsBoundary.append_iff (by omega), Nat.add_sub_cancel_left]
      exact boundary
    rw [slice, upTo_none notBoundary, upTo_none boundary]
    rfl

@[simp] theorem insertStr_append (before after inserted : List Char) :
    insertStr (before ++ after) (byteLen before) inserted = some (before ++ inserted ++ after) := by
  simp [insertStr]

theorem drain_append (before part after : List Char) :
    drain (before ++ part ++ after) (byteLen before) (byteLen before + byteLen part) =
      some (before ++ after) := by
  rw [← byteLen_append]
  simp only [drain, splitAt_append, Option.bind_eq_bind, Option.bind_some]
  rfl

/-! ## Characters that are found -/

/-- `str::find` of a character. -/
def find (c : Char) : List Char → Option Nat
  | [] => none
  | first :: rest => if first = c then some 0 else (find c rest).map (first.utf8Size + ·)

/-- `str::rfind` of a character. -/
def rfind (c : Char) : List Char → Option Nat
  | [] => none
  | first :: rest =>
      match rfind c rest with
      | some offset => some (first.utf8Size + offset)
      | none => if first = c then some 0 else none

theorem find_none : find c text = none ↔ c ∉ text := by
  induction text with
  | nil => simp [find]
  | cons first rest ih =>
      rw [find]
      split
      · rename_i same
        simp [same]
      · rename_i other
        simp [ih, Ne.symm other]

theorem rfind_none : rfind c text = none ↔ c ∉ text := by
  induction text with
  | nil => simp [rfind]
  | cons first rest ih =>
      rw [rfind]
      split
      · rename_i found
        have member : c ∈ rest := by
          apply Classical.byContradiction
          intro absent
          rw [ih.2 absent] at found
          cases found
        simp [member]
      · rename_i missing
        have absent := ih.1 missing
        split
        · rename_i same
          simp [same]
        · rename_i other
          simp [absent, Ne.symm other]

/-- The first of the characters that are `c`. -/
theorem find_append (absent : c ∉ before) : find c (before ++ c :: after) = some (byteLen before) := by
  induction before with
  | nil => simp [find]
  | cons first before ih =>
      obtain ⟨other, later⟩ := not_or.1 (List.mem_cons.not.1 absent)
      rw [List.cons_append, find, if_neg (Ne.symm other), ih later]
      rfl

/-- The last of them. -/
theorem rfind_append (absent : c ∉ after) : rfind c (before ++ c :: after) = some (byteLen before) := by
  induction before with
  | nil =>
      rw [List.nil_append, rfind, rfind_none.2 absent]
      exact if_pos rfl
  | cons first before ih =>
      rw [List.cons_append, rfind, ih]
      rfl

end Openyak.Theory.ByteText
