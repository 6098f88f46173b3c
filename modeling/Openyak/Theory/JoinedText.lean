/-
# Theory.JoinedText -- texts joined by a separator, and what tells them apart

A text that is made of parts by writing a separator between them gives the parts back
where no part has the separator in it (`intercalate_inj`), or where the separator and the
escape character are escaped in each (`intercalate_escape_inj`).  In both cases no parts
and one empty part are the same text.
-/
import Openyak.Theory.Text
import Mathlib.Data.List.Basic

namespace Openyak.Theory.JoinedText

open Text

set_option autoImplicit false

universe u

variable {α : Type u} {separator mark : α}

/-! ## Parts without the separator -/

/-- What stands before the first separator, and what behind it. -/
theorem cut_inj {before before' after after' : List α} (absent : separator ∉ before)
    (absent' : separator ∉ before')
    (same : before ++ separator :: after = before' ++ separator :: after') :
    before = before' ∧ after = after' := by
  induction before generalizing before' with
  | nil =>
      cases before' with
      | nil => exact ⟨rfl, (List.cons.inj same).2⟩
      | cons c rest =>
          have first := (List.cons.inj same).1
          exact absurd (first ▸ List.mem_cons_self) absent'
  | cons c rest ih =>
      cases before' with
      | nil =>
          have first := (List.cons.inj same).1
          exact absurd (first.symm ▸ List.mem_cons_self) absent
      | cons c' rest' =>
          rw [List.mem_cons, not_or] at absent absent'
          obtain ⟨rfl, further⟩ := List.cons.inj same
          obtain ⟨rfl, behind⟩ := ih absent.2 absent'.2 further
          exact ⟨rfl, behind⟩

/-- What stands behind the last separator, and what before it. -/
theorem cut_last_inj {before before' after after' : List α} (absent : separator ∉ after)
    (absent' : separator ∉ after')
    (same : before ++ separator :: after = before' ++ separator :: after') :
    before = before' ∧ after = after' := by
  have flipped : after.reverse ++ separator :: before.reverse =
      after'.reverse ++ separator :: before'.reverse := by
    have reversed := congrArg List.reverse same
    simpa using reversed
  obtain ⟨behind, front⟩ := cut_inj (by simpa using absent) (by simpa using absent') flipped
  exact ⟨List.reverse_injective front, List.reverse_injective behind⟩

theorem mem_intercalate {c : α} {parts : List (List α)}
    (member : c ∈ List.intercalate [separator] parts) : c = separator ∨ ∃ part ∈ parts, c ∈ part := by
  induction parts with
  | nil => cases member
  | cons part parts ih =>
      by_cases last : parts = []
      · subst last
        rw [List.intercalate_singleton] at member
        exact .inr ⟨part, List.mem_cons_self, member⟩
      · rw [List.intercalate_cons_of_ne_nil last] at member
        simp only [List.mem_append, List.mem_singleton] at member
        rcases member with (inPart | isSeparator) | later
        · exact .inr ⟨part, List.mem_cons_self, inPart⟩
        · exact .inl isSeparator
        · rcases ih later with isSeparator | ⟨other, isOther, inOther⟩
          · exact .inl isSeparator
          · exact .inr ⟨other, List.mem_cons_of_mem _ isOther, inOther⟩

variable [DecidableEq α]

theorem intercalate_inj {parts others : List (List α)} (absent : ∀ part ∈ parts, separator ∉ part)
    (absent' : ∀ part ∈ others, separator ∉ part) (some_ : parts ≠ []) (some' : others ≠ [])
    (same : List.intercalate [separator] parts = List.intercalate [separator] others) :
    parts = others := by
  have split := @List.splitOn_intercalate _ _ _ _ separator absent some_
  have split' := @List.splitOn_intercalate _ _ _ _ separator absent' some'
  rw [← split, ← split', same]

/-! ## Escaped parts -/

/-- The separator and the mark itself have the mark before them. -/
def escape (mark separator : α) (text : List α) : List α :=
  text.flatMap fun c => if c = mark ∨ c = separator then [mark, c] else [c]

/-- The parts of a joined text, `current` being the part that is read, reversed. -/
def fields (mark separator : α) : List α → List α → List (List α)
  | [], current => [current.reverse]
  | c :: rest, current =>
      if c = mark then
        match rest with
        | [] => [(c :: current).reverse]
        | escaped :: rest => fields mark separator rest (escaped :: current)
      else if c = separator then current.reverse :: fields mark separator rest []
      else fields mark separator rest (c :: current)

/-- An escaped part is read to its end. -/
theorem fields_escape (text rest current : List α) :
    fields mark separator (escape mark separator text ++ rest) current =
      fields mark separator rest (text.reverse ++ current) := by
  induction text generalizing current with
  | nil => rfl
  | cons c text ih =>
      rw [escape, List.flatMap_cons, List.append_assoc, List.reverse_cons, List.append_assoc]
      by_cases special : c = mark ∨ c = separator
      · rw [if_pos special]
        show fields mark separator (mark :: c :: _) current = _
        rw [fields, if_pos rfl]
        exact ih (c :: current)
      · rw [if_neg special]
        rw [not_or] at special
        show fields mark separator (c :: _) current = _
        rw [fields.eq_def]
        dsimp only
        rw [if_neg special.1, if_neg special.2]
        exact ih (c :: current)

theorem fields_intercalate (apart : separator ≠ mark) {parts : List (List α)} (some_ : parts ≠ []) :
    fields mark separator
      (List.intercalate [separator] (parts.map (escape mark separator))) [] = parts := by
  induction parts with
  | nil => exact absurd rfl some_
  | cons part parts ih =>
      cases parts with
      | nil =>
          have whole : fields mark separator (escape mark separator part ++ []) [] =
              fields mark separator [] (part.reverse ++ []) := fields_escape part [] []
          rw [List.append_nil, List.append_nil] at whole
          rw [List.map_singleton, List.intercalate_singleton, whole, fields, List.reverse_reverse]
      | cons second parts =>
          rw [List.map_cons, List.intercalate_cons_of_ne_nil (by simp), List.append_assoc,
            fields_escape, List.append_nil, List.singleton_append, fields.eq_def]
          dsimp only
          rw [if_neg apart, if_pos rfl, List.reverse_reverse, ih (List.cons_ne_nil _ _)]

/-- **Escaped parts that are joined are told apart.** -/
theorem intercalate_escape_inj (apart : separator ≠ mark) {parts others : List (List α)}
    (some_ : parts ≠ []) (some' : others ≠ [])
    (same : List.intercalate [separator] (parts.map (escape mark separator)) =
      List.intercalate [separator] (others.map (escape mark separator))) : parts = others := by
  rw [← fields_intercalate apart some_, same, fields_intercalate apart some']

/-! ## Characters replaced -/

/-- `str::replace` of one character. -/
theorem replace_char {needle : String} {c : Char} (isChar : needle.toList = [c]) (with_ : String)
    (text : List Char) : replace needle with_ text =
      text.flatMap fun other => if other = c then with_.toList else [other] := by
  rw [replace, isChar]
  induction text with
  | nil => rfl
  | cons other text ih =>
      rw [replaceAux, if_neg (List.cons_ne_nil _ _), List.flatMap_cons]
      by_cases here : other = c
      · subst here
        rw [if_pos (by simp), if_pos rfl]
        exact congrArg (with_.toList ++ ·) ih
      · rw [if_neg (by simp [Ne.symm here]), if_neg here, ih]
        rfl

end Openyak.Theory.JoinedText
