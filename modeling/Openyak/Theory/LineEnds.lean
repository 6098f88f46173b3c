/-
# Theory.LineEnds -- carriage returns, and what trimming takes from the ends

`crlf` reads each `\r\n` as a newline, once: what it leaves has one again exactly where a
text had `\r\r\n` (`crlf_fixed_iff`).  Trimming takes white space and a set of characters
from the ends only, so behind a character that stays the rest of a text is trimmed alone.
-/
import Openyak.Theory.Lines

namespace Openyak.Theory.Text

set_option autoImplicit false

/-- `.replace("\r\n", "\n")`. -/
def crlf (text : List Char) : List Char := replace "\r\n" "\n" text

@[simp] theorem crlf_nil : crlf [] = [] := rfl

@[simp] theorem crlf_pair (rest : List Char) : crlf ('\r' :: '\n' :: rest) = '\n' :: crlf rest := rfl

theorem crlf_cons {c : Char} {rest : List Char} (single : ¬['\r', '\n'] <+: c :: rest) :
    crlf (c :: rest) = c :: crlf rest := by
  have here : ¬("\r\n".toList.isPrefixOf (c :: rest) = true) := by
    rw [List.isPrefixOf_iff_prefix]
    exact single
  unfold crlf replace
  rw [replaceAux, if_neg (by decide), if_neg here]

/-- A text is taken apart from its start, a pair at once. -/
theorem by_crlf {motive : List Char → Prop} (nothing : motive [])
    (pair : ∀ rest, motive rest → motive ('\r' :: '\n' :: rest))
    (single : ∀ c rest, ¬['\r', '\n'] <+: c :: rest → motive rest → motive (c :: rest))
    (text : List Char) : motive text := by
  induction hlen : text.length using Nat.strongRecOn generalizing text with
  | ind n ih =>
      cases text with
      | nil => exact nothing
      | cons c rest =>
          have shorter : rest.length < n := by
            rw [← hlen, List.length_cons]
            omega
          by_cases isPair : ['\r', '\n'] <+: c :: rest
          · obtain ⟨more, same⟩ := isPair
            cases same
            refine pair more (ih more.length ?_ more rfl)
            have behind : (['\n'] ++ more).length < n := shorter
            rw [List.length_append] at behind
            omega
          · exact single c rest isPair (ih rest.length shorter rest rfl)

variable {text rest line : List Char} {c : Char}

/-- A line that does not end in a carriage return is read as it is. -/
theorem crlf_line (isLine : '\n' ∉ line) (ends : line.getLast? ≠ some '\r') (rest : List Char) :
    crlf (line ++ '\n' :: rest) = line ++ '\n' :: crlf rest := by
  induction line with
  | nil => exact crlf_cons (by rw [List.cons_prefix_cons]; simp)
  | cons c line ih =>
      obtain ⟨other, isLine⟩ := not_or.1 (List.mem_cons.not.1 isLine)
      have single : ¬['\r', '\n'] <+: c :: (line ++ '\n' :: rest) := by
        intro pair
        obtain ⟨rfl, next⟩ := List.cons_prefix_cons.1 pair
        cases line with
        | nil => exact ends rfl
        | cons d line =>
            obtain ⟨rfl, -⟩ := List.cons_prefix_cons.1 next
            exact isLine (by simp)
      rw [List.cons_append, crlf_cons single, ih isLine, List.cons_append]
      cases line with
      | nil => exact nofun
      | cons d line => rwa [List.getLast?_cons_cons] at ends

/-- So is a text in front of a character that is no newline. -/
theorem crlf_word (isLine : '\n' ∉ line) (other : c ≠ '\n') (rest : List Char) :
    crlf (line ++ c :: rest) = line ++ crlf (c :: rest) := by
  induction line with
  | nil => rfl
  | cons d line ih =>
      obtain ⟨other', isLine⟩ := not_or.1 (List.mem_cons.not.1 isLine)
      have single : ¬['\r', '\n'] <+: d :: (line ++ c :: rest) := by
        intro pair
        obtain ⟨rfl, next⟩ := List.cons_prefix_cons.1 pair
        cases line with
        | nil =>
            obtain ⟨rfl, -⟩ := List.cons_prefix_cons.1 next
            exact other rfl
        | cons e line =>
            obtain ⟨rfl, -⟩ := List.cons_prefix_cons.1 next
            exact isLine (by simp)
      rw [List.cons_append, crlf_cons single, ih isLine, List.cons_append]

theorem crlf_sublist (text : List Char) : (crlf text).Sublist text := by
  induction text using by_crlf with
  | nothing => exact .slnil
  | pair rest ih => exact .cons _ (ih.cons_cons '\n')
  | single c rest single ih =>
      rw [crlf_cons single]
      exact ih.cons_cons c

theorem count_crlf (other : c ≠ '\r') : (crlf text).count c = text.count c := by
  induction text using by_crlf with
  | nothing => rfl
  | pair rest ih =>
      rw [crlf_pair, List.count_cons, List.count_cons_of_ne (Ne.symm other), List.count_cons, ih]
  | single d rest single ih => rw [crlf_cons single, List.count_cons, List.count_cons, ih]

theorem crlf_eq_self (none_ : ¬['\r', '\n'] <:+: text) : crlf text = text := by
  induction text using by_crlf with
  | nothing => rfl
  | pair rest ih => exact absurd ⟨[], rest, rfl⟩ none_
  | single c rest single ih =>
      rw [crlf_cons single, ih fun later => none_ (List.infix_cons later)]

theorem length_crlf_lt (pair : ['\r', '\n'] <:+: text) : (crlf text).length < text.length := by
  induction text using by_crlf with
  | nothing => exact absurd (List.infix_nil.1 pair) nofun
  | pair rest ih =>
      have shorter := (crlf_sublist rest).length_le
      rw [crlf_pair]
      simp only [List.length_cons]
      omega
  | single c rest single ih =>
      rw [crlf_cons single, List.length_cons, List.length_cons]
      have later := ih ((List.infix_cons_iff.1 pair).resolve_left single)
      omega

theorem crlf_head_newline (text : List Char) :
    ['\n'] <+: crlf text ↔ ['\n'] <+: text ∨ ['\r', '\n'] <+: text := by
  induction text using by_crlf with
  | nothing => simp
  | pair rest ih => simp
  | single c rest single ih => simp [crlf_cons single, single]

/-- Only where two carriage returns stood is there one before a newline. -/
theorem pair_crlf_iff (text : List Char) :
    ['\r', '\n'] <:+: crlf text ↔ ['\r', '\r', '\n'] <:+: text := by
  induction text using by_crlf with
  | nothing => simp
  | pair rest ih =>
      rw [crlf_pair, List.infix_cons_iff, List.infix_cons_iff, List.infix_cons_iff, ih]
      simp
  | single c rest single ih =>
      rw [crlf_cons single, List.infix_cons_iff, List.infix_cons_iff, ih, List.cons_prefix_cons,
        List.cons_prefix_cons, crlf_head_newline]
      constructor
      · rintro (⟨rfl, newline | pair⟩ | later)
        · exact absurd (List.cons_prefix_cons.2 ⟨rfl, newline⟩) single
        · exact .inl ⟨rfl, pair⟩
        · exact .inr later
      · rintro (⟨rfl, pair⟩ | later)
        · exact .inl ⟨rfl, .inr pair⟩
        · exact .inr later

/-- **What is read is read again as it is, unless two carriage returns stood together.** -/
theorem crlf_fixed_iff (text : List Char) :
    crlf (crlf text) = crlf text ↔ ¬['\r', '\r', '\n'] <:+: text := by
  rw [← pair_crlf_iff]
  constructor
  · intro fixed pair
    have shorter := length_crlf_lt pair
    rw [fixed] at shorter
    omega
  · exact crlf_eq_self

/-! ## Ends -/

/-- Neither white space nor one of a set of characters. -/
def Firm (set : List Char) (c : Char) : Prop := ¬isWhitespace c ∧ c ∉ set

instance (set : List Char) (c : Char) : Decidable (Firm set c) := inferInstanceAs (Decidable (_ ∧ _))

/-- What trimming the end of a text by white space, a set of characters, and white space leaves. -/
def trimTail (set text : List Char) : List Char := trimEnd (trimEndMatches set (trimEnd text))

variable {set : List Char}

theorem trimEndMatches_append_cons (stays : c ∉ set) (text rest : List Char) :
    trimEndMatches set (text ++ c :: rest) = text ++ c :: trimEndMatches set rest := by
  unfold trimEndMatches
  rw [List.reverse_append, List.reverse_cons, List.append_assoc, List.dropWhile_append]
  by_cases all : (rest.reverse.dropWhile set.contains).isEmpty = true
  · rw [if_pos all, List.isEmpty_iff.1 all]
    simp [stays]
  · rw [if_neg all]
    simp

/-- **Behind a firm character a text is trimmed at its end alone.** -/
theorem trimTail_append_cons (firm : Firm set c) (text rest : List Char) :
    trimTail set (text ++ c :: rest) = text ++ c :: trimTail set rest := by
  rw [trimTail, trimEnd_append_cons firm.1, trimEndMatches_append_cons firm.2,
    trimEnd_append_cons firm.1]
  rfl

theorem trimMatches_of_firm (stays : c ∉ set) (rest : List Char) :
    trimMatches set (c :: rest) = trimEndMatches set (c :: rest) := by
  have kept : ¬set.contains c = true := by simpa using stays
  unfold trimMatches trimEndMatches
  rw [List.dropWhile_cons_of_neg kept]

theorem trimEndMatches_of_last (ends : ∀ last, text.getLast? = some last → last ∉ set) :
    trimEndMatches set text = text := by
  obtain rfl | ⟨front, last, rfl⟩ := List.eq_nil_or_concat' text
  · rfl
  · have stays := ends last (List.getLast?_concat ..)
    rw [trimEndMatches_append_cons stays]
    rfl

theorem trimEndMatches_sublist (set text : List Char) : (trimEndMatches set text).Sublist text := by
  have dropped := (List.dropWhile_sublist (p := set.contains) (l := text.reverse)).reverse
  rwa [List.reverse_reverse] at dropped

/-- One of the set that is last is taken. -/
theorem count_trimEndMatches_lt (member : c ∈ set) (ends : text.getLast? = some c) :
    (trimEndMatches set text).count c < text.count c := by
  obtain ⟨front, rfl⟩ := List.getLast?_eq_some_iff.1 ends
  have found : set.contains c = true := by simpa using member
  have taken : trimEndMatches set (front ++ [c]) = trimEndMatches set front := by
    unfold trimEndMatches
    rw [List.reverse_append, List.reverse_singleton, List.singleton_append,
      List.dropWhile_cons_of_pos found]
  have le := (trimEndMatches_sublist set front).count_le c
  rw [taken, List.count_append, List.count_singleton_self]
  omega

theorem count_trimEndMatches (outside : c ∉ set) :
    (trimEndMatches set text).count c = text.count c := by
  have none_ : (text.reverse.takeWhile set.contains).count c = 0 := by
    rw [List.count_eq_zero]
    intro member
    have found := List.mem_takeWhile_imp member
    exact outside (by simpa using found)
  have split := congrArg (List.count c) (List.takeWhile_append_dropWhile (p := set.contains)
    (l := text.reverse))
  rw [List.count_append, none_, List.count_reverse, Nat.zero_add] at split
  rw [trimEndMatches, List.count_reverse, split]

theorem count_trimEnd (solid : ¬isWhitespace c) : (trimEnd text).count c = text.count c := by
  obtain ⟨white, split, all⟩ := trimEnd_split text
  have none_ : white.count c = 0 := List.count_eq_zero.2 fun member => solid (all c member)
  have counted := congrArg (List.count c) split
  rw [List.count_append, none_, Nat.add_zero] at counted
  exact counted.symm

theorem count_trim (solid : ¬isWhitespace c) : (trim text).count c = text.count c := by
  have none_ : (text.takeWhile isWhitespace).count c = 0 :=
    List.count_eq_zero.2 fun member => solid (List.mem_takeWhile_imp member)
  have split := congrArg (List.count c) (List.takeWhile_append_dropWhile (p := isWhitespace)
    (l := text))
  rw [List.count_append, none_, Nat.zero_add] at split
  rw [trim, count_trimEnd solid, trimStart, split]

theorem count_trimTail (firm : Firm set c) : (trimTail set text).count c = text.count c := by
  rw [trimTail, count_trimEnd firm.1, count_trimEndMatches firm.2, count_trimEnd firm.1]

end Openyak.Theory.Text
