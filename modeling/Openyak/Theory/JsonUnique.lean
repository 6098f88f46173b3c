/-
# Theory.JsonUnique -- a text has one concrete syntax

Two syntaxes whose texts begin the same input are the same, and leave the same behind,
where a numeral cannot go on.  The first character tells what kind of value it is
(`kind`); the parts of an array or an object are then split off one after the other.
-/
import Openyak.Theory.JsonText

namespace Openyak.Theory

set_option autoImplicit false

/-! ## Blanks, strings, numerals -/

theorem blanks_unique {blanks others : List Blank} {rest behind : List Char}
    (same : blankChars blanks ++ rest = blankChars others ++ behind)
    (stops : StopsAt isJsonBlank rest) (otherStops : StopsAt isJsonBlank behind) :
    blanks = others ∧ rest = behind := by
  obtain ⟨runs, rests⟩ := spans_unique same (isBlank_blankChars blanks)
    (isBlank_blankChars others) stops otherStops
  exact ⟨blankChars_injective runs, rests⟩

theorem StringItem.unique (item other : StringItem) {rest behind : List Char}
    (same : item.chars ++ rest = other.chars ++ behind) : item = other ∧ rest = behind := by
  cases item with
  | plain c isPlain =>
      cases other with
      | plain d otherPlain =>
          obtain ⟨rfl, rests⟩ := List.cons.inj same
          exact ⟨rfl, rests⟩
      | named escape => exact absurd (List.cons.inj same).1 isPlain.2
      | unicode e f g h => exact absurd (List.cons.inj same).1 isPlain.2
  | named escape =>
      cases other with
      | plain d otherPlain => exact absurd (List.cons.inj same).1.symm otherPlain.2
      | named otherEscape =>
          obtain ⟨letters, rests⟩ := List.cons.inj (List.cons.inj same).2
          refine ⟨?_, rests⟩
          cases escape <;> cases otherEscape <;>
            first | rfl | exact absurd letters (by decide)
      | unicode e f g h =>
          have letters := (List.cons.inj (List.cons.inj same).2).1
          cases escape <;> exact absurd letters (by decide)
  | unicode a b c d =>
      cases other with
      | plain d otherPlain => exact absurd (List.cons.inj same).1.symm otherPlain.2
      | named escape =>
          have letters := (List.cons.inj (List.cons.inj same).2).1
          cases escape <;> exact absurd letters (by decide)
      | unicode e f g h =>
          simp only [chars, List.cons_append, List.nil_append, List.cons.injEq, true_and] at same
          obtain ⟨first, second, third, fourth, rests⟩ := same
          rw [HexDigit.ext first, HexDigit.ext second, HexDigit.ext third, HexDigit.ext fourth]
          exact ⟨rfl, rests⟩

/-- No item begins with the closing quote. -/
theorem StringItem.chars_ne_quote (item : StringItem) {rest behind : List Char} :
    item.chars ++ rest ≠ '"' :: behind := by
  intro same
  cases item with
  | plain c isPlain => exact isPlain.1 (List.cons.inj same).1
  | named escape => exact absurd (List.cons.inj same).1 (by decide)
  | unicode a b c d => exact absurd (List.cons.inj same).1 (by decide)

theorem items_unique (items others : List StringItem) {rest behind : List Char}
    (same : items.flatMap StringItem.chars ++ '"' :: rest =
      others.flatMap StringItem.chars ++ '"' :: behind) : items = others ∧ rest = behind := by
  induction items generalizing others with
  | nil =>
      cases others with
      | nil => exact ⟨rfl, (List.cons.inj same).2⟩
      | cons other others =>
          rw [List.flatMap_cons, List.append_assoc] at same
          exact absurd same.symm other.chars_ne_quote
  | cons item items ih =>
      rw [List.flatMap_cons, List.append_assoc] at same
      cases others with
      | nil => exact absurd same item.chars_ne_quote
      | cons other others =>
          rw [List.flatMap_cons, List.append_assoc] at same
          obtain ⟨rfl, later⟩ := item.unique other same
          obtain ⟨rfl, rests⟩ := ih others later
          exact ⟨rfl, rests⟩

theorem string_unique (items others : List StringItem) {rest behind : List Char}
    (same : stringChars items ++ rest = stringChars others ++ behind) :
    items = others ∧ rest = behind := by
  simp only [stringChars, List.cons_append, List.append_assoc, List.nil_append,
    List.cons.injEq, true_and] at same
  exact items_unique items others same

theorem Numeral.unique (numeral other : Numeral) {rest behind : List Char}
    (stops : StopsAt Char.isDigit rest) (otherStops : StopsAt Char.isDigit behind)
    (same : numeral.chars ++ rest = other.chars ++ behind) : numeral = other ∧ rest = behind := by
  obtain ⟨negative, digits, nonempty, decimal⟩ := numeral
  obtain ⟨otherNegative, otherDigits, otherNonempty, otherDecimal⟩ := other
  -- A sign is no digit.
  have apart : ∀ {digits more less : List Char}, digits ≠ [] →
      (∀ c ∈ digits, c.isDigit = true) → digits ++ more ≠ '-' :: less := by
    intro digits more less nonempty decimal same
    cases digits with
    | nil => exact nonempty rfl
    | cons digit digits =>
        have isDigit := decimal digit List.mem_cons_self
        rw [(List.cons.inj same).1] at isDigit
        exact absurd isDigit (by decide)
  cases negative with
  | true =>
      cases otherNegative with
      | true =>
          obtain ⟨rfl, rests⟩ :=
            spans_unique (List.cons.inj same).2 decimal otherDecimal stops otherStops
          exact ⟨rfl, rests⟩
      | false => exact absurd same.symm (apart otherNonempty otherDecimal)
  | false =>
      cases otherNegative with
      | true => exact absurd same (apart nonempty decimal)
      | false =>
          obtain ⟨rfl, rests⟩ := spans_unique same decimal otherDecimal stops otherStops
          exact ⟨rfl, rests⟩

/-! ## Values -/

/-- The first character with all that begin a numeral taken together, and both words for
truth. -/
def kindOf (c : Char) : Char :=
  if c = '-' ∨ c.isDigit then '0' else if c = 't' then 'f' else c

def JsonText.kind : JsonText → Char
  | .null => 'n'
  | .bool _ => 'f'
  | .number _ => '0'
  | .string _ => '"'
  | .array _ => '['
  | .object _ => '{'

theorem JsonText.kindOf_first (text : JsonText) : ∃ first behind, text.chars = first :: behind ∧
    kindOf first = text.kind := by
  cases text with
  | null => exact ⟨'n', _, rfl, rfl⟩
  | bool value =>
      cases value
      · exact ⟨'f', _, rfl, rfl⟩
      · exact ⟨'t', _, rfl, rfl⟩
  | number numeral =>
      obtain ⟨negative, digits, nonempty, decimal⟩ := numeral
      cases negative with
      | true => exact ⟨'-', _, rfl, rfl⟩
      | false =>
          cases digits with
          | nil => exact absurd rfl nonempty
          | cons digit digits =>
              have isDigit : digit.isDigit = true := decimal digit List.mem_cons_self
              exact ⟨digit, digits, rfl, if_pos (Or.inr isDigit)⟩
  | string items => exact ⟨'"', _, rfl, rfl⟩
  | array elements => exact ⟨'[', _, rfl, rfl⟩
  | object members => exact ⟨'{', _, rfl, rfl⟩

theorem JsonText.kind_unique {text other : JsonText} {rest behind : List Char}
    (same : text.chars ++ rest = other.chars ++ behind) : text.kind = other.kind := by
  obtain ⟨first, _, chars, kind⟩ := text.kindOf_first
  obtain ⟨otherFirst, _, otherChars, otherKind⟩ := other.kindOf_first
  rw [chars, otherChars] at same
  rw [← kind, ← otherKind, (List.cons.inj same).1]

/-- A value's syntax is told by any input that it begins. -/
def JsonText.Determined (text : JsonText) : Prop :=
  ∀ {other : JsonText} {rest behind : List Char}, StopsAt Char.isDigit rest →
    StopsAt Char.isDigit behind → text.chars ++ rest = other.chars ++ behind →
    text = other ∧ rest = behind

theorem JsonText.stopsAt_chars (text : JsonText) (rest : List Char) :
    StopsAt isJsonBlank (text.chars ++ rest) := by
  obtain ⟨first, behind, chars, notBlank, -⟩ := text.exists_first
  rw [chars]
  exact notBlank

/-- No value begins with a bracket that closes. -/
theorem JsonText.chars_ne_close (text : JsonText) {close : Char} {rest behind : List Char}
    (isClose : close = ']' ∨ close = '}') : text.chars ++ rest ≠ close :: behind := by
  intro same
  obtain ⟨first, tail, chars, -, noBracket, noBrace⟩ := text.exists_first
  rw [chars] at same
  have isFirst : first = close := (List.cons.inj same).1
  rcases isClose with rfl | rfl
  · exact noBracket isFirst
  · exact noBrace isFirst

/-- Blanks and what is behind them cannot go on a numeral. -/
theorem stopsAt_blankChars (blanks : List Blank) {rest : List Char}
    (stops : StopsAt Char.isDigit rest) : StopsAt Char.isDigit (blankChars blanks ++ rest) := by
  cases blanks with
  | nil => exact stops
  | cons blank blanks => cases blank <;> rfl

/-- A value with what separates it from the next. -/
theorem separated_unique {text other : JsonText} (determined : text.Determined)
    {after otherAfter : List Blank} {mark otherMark : Char} {rest behind : List Char}
    (isMark : isJsonBlank mark = false ∧ mark.isDigit = false)
    (isOtherMark : isJsonBlank otherMark = false ∧ otherMark.isDigit = false)
    (same : text.chars ++ (blankChars after ++ mark :: rest) =
      other.chars ++ (blankChars otherAfter ++ otherMark :: behind)) :
    text = other ∧ after = otherAfter ∧ mark = otherMark ∧ rest = behind := by
  have stops : StopsAt Char.isDigit (mark :: rest) := isMark.2
  have otherStops : StopsAt Char.isDigit (otherMark :: behind) := isOtherMark.2
  obtain ⟨texts, later⟩ := determined (stopsAt_blankChars after stops)
    (stopsAt_blankChars otherAfter otherStops) same
  obtain ⟨blanks, marks⟩ := blanks_unique later isMark.1 isOtherMark.1
  exact ⟨texts, blanks, List.cons.inj marks⟩

/-- A member up to its value. -/
theorem key_unique {key otherKey : List StringItem}
    {beforeColon afterColon otherBeforeColon otherAfterColon : List Blank}
    {rest behind : List Char} (stops : StopsAt isJsonBlank rest) (otherStops : StopsAt isJsonBlank behind)
    (same : stringChars key ++ (blankChars beforeColon ++
        ':' :: (blankChars afterColon ++ rest)) =
      stringChars otherKey ++ (blankChars otherBeforeColon ++
        ':' :: (blankChars otherAfterColon ++ behind))) :
    key = otherKey ∧ beforeColon = otherBeforeColon ∧ afterColon = otherAfterColon ∧
      rest = behind := by
  obtain ⟨keys, later⟩ := string_unique _ _ same
  obtain ⟨blanks, colons⟩ := blanks_unique later (by rfl) (by rfl)
  obtain ⟨afters, rests⟩ := blanks_unique (List.cons.inj colons).2 stops otherStops
  exact ⟨keys, blanks, afters, rests⟩

mutual

theorem JsonText.determined (text : JsonText) : text.Determined := by
  intro other rest behind stops otherStops same
  have kinds := JsonText.kind_unique same
  match text, other with
  | .null, .null => exact ⟨rfl, List.append_cancel_left same⟩
  | .bool true, .bool true => exact ⟨rfl, List.append_cancel_left same⟩
  | .bool false, .bool false => exact ⟨rfl, List.append_cancel_left same⟩
  | .bool true, .bool false => exact absurd (List.cons.inj same).1 (by decide)
  | .bool false, .bool true => exact absurd (List.cons.inj same).1 (by decide)
  | .number numeral, .number otherNumeral =>
      obtain ⟨rfl, rests⟩ := numeral.unique otherNumeral stops otherStops same
      exact ⟨rfl, rests⟩
  | .string items, .string others =>
      obtain ⟨rfl, rests⟩ := string_unique items others same
      exact ⟨rfl, rests⟩
  | .array elements, .array others =>
      obtain ⟨rfl, rests⟩ := elements.unique others (List.cons.inj same).2
      exact ⟨rfl, rests⟩
  | .object members, .object others =>
      obtain ⟨rfl, rests⟩ := members.unique others (List.cons.inj same).2
      exact ⟨rfl, rests⟩

theorem ElementsText.unique (elements others : ElementsText) {rest behind : List Char}
    (same : elements.chars ++ rest = others.chars ++ behind) :
    elements = others ∧ rest = behind := by
  match elements, others with
  | .close before, .close otherBefore =>
      simp only [ElementsText.chars, List.append_assoc, List.cons_append, List.nil_append] at same
      obtain ⟨rfl, closes⟩ := blanks_unique same (by rfl) (by rfl)
      exact ⟨rfl, (List.cons.inj closes).2⟩
  | .close before, .last otherBefore value otherAfter =>
      simp only [ElementsText.chars, List.append_assoc, List.cons_append, List.nil_append] at same
      obtain ⟨-, later⟩ := blanks_unique same (by rfl) (value.stopsAt_chars _)
      exact absurd later.symm (value.chars_ne_close (Or.inl rfl))
  | .close before, .more otherBefore value otherAfter others =>
      simp only [ElementsText.chars, List.append_assoc, List.cons_append, List.nil_append] at same
      obtain ⟨-, later⟩ := blanks_unique same (by rfl) (value.stopsAt_chars _)
      exact absurd later.symm (value.chars_ne_close (Or.inl rfl))
  | .last before value after, .close otherBefore =>
      simp only [ElementsText.chars, List.append_assoc, List.cons_append, List.nil_append] at same
      obtain ⟨-, later⟩ := blanks_unique same (value.stopsAt_chars _) (by rfl)
      exact absurd later (value.chars_ne_close (Or.inl rfl))
  | .more before value after elements, .close otherBefore =>
      simp only [ElementsText.chars, List.append_assoc, List.cons_append, List.nil_append] at same
      obtain ⟨-, later⟩ := blanks_unique same (value.stopsAt_chars _) (by rfl)
      exact absurd later (value.chars_ne_close (Or.inl rfl))
  | .last before value after, .last otherBefore otherValue otherAfter =>
      simp only [ElementsText.chars, List.append_assoc, List.cons_append, List.nil_append] at same
      obtain ⟨rfl, later⟩ :=
        blanks_unique same (value.stopsAt_chars _) (otherValue.stopsAt_chars _)
      obtain ⟨rfl, rfl, -, rests⟩ :=
        separated_unique value.determined (by decide) (by decide) later
      exact ⟨rfl, rests⟩
  | .more before value after elements, .last otherBefore otherValue otherAfter =>
      simp only [ElementsText.chars, List.append_assoc, List.cons_append, List.nil_append] at same
      obtain ⟨-, later⟩ := blanks_unique same (value.stopsAt_chars _) (otherValue.stopsAt_chars _)
      obtain ⟨-, -, marks, -⟩ := separated_unique value.determined (by decide) (by decide) later
      exact absurd marks (by decide)
  | .last before value after, .more otherBefore otherValue otherAfter others =>
      simp only [ElementsText.chars, List.append_assoc, List.cons_append, List.nil_append] at same
      obtain ⟨-, later⟩ := blanks_unique same (value.stopsAt_chars _) (otherValue.stopsAt_chars _)
      obtain ⟨-, -, marks, -⟩ := separated_unique value.determined (by decide) (by decide) later
      exact absurd marks (by decide)
  | .more before value after elements, .more otherBefore otherValue otherAfter others =>
      simp only [ElementsText.chars, List.append_assoc, List.cons_append] at same
      obtain ⟨rfl, later⟩ :=
        blanks_unique same (value.stopsAt_chars _) (otherValue.stopsAt_chars _)
      obtain ⟨rfl, rfl, -, rests⟩ :=
        separated_unique value.determined (by decide) (by decide) later
      obtain ⟨rfl, final⟩ := elements.unique others rests
      exact ⟨rfl, final⟩

theorem MembersText.unique (members others : MembersText) {rest behind : List Char}
    (same : members.chars ++ rest = others.chars ++ behind) :
    members = others ∧ rest = behind := by
  match members, others with
  | .close before, .close otherBefore =>
      simp only [MembersText.chars, List.append_assoc, List.cons_append, List.nil_append] at same
      obtain ⟨rfl, closes⟩ := blanks_unique same (by rfl) (by rfl)
      exact ⟨rfl, (List.cons.inj closes).2⟩
  | .close before, .last otherBefore key beforeColon afterColon value after =>
      simp only [MembersText.chars, List.append_assoc, List.cons_append, List.nil_append] at same
      obtain ⟨-, later⟩ := blanks_unique same (by rfl) (by rfl)
      exact absurd (List.cons.inj later).1 (by decide)
  | .close before, .more otherBefore key beforeColon afterColon value after others =>
      simp only [MembersText.chars, List.append_assoc, List.cons_append, List.nil_append] at same
      obtain ⟨-, later⟩ := blanks_unique same (by rfl) (by rfl)
      exact absurd (List.cons.inj later).1 (by decide)
  | .last before key beforeColon afterColon value after, .close otherBefore =>
      simp only [MembersText.chars, List.append_assoc, List.cons_append, List.nil_append] at same
      obtain ⟨-, later⟩ := blanks_unique same (by rfl) (by rfl)
      exact absurd (List.cons.inj later).1 (by decide)
  | .more before key beforeColon afterColon value after members, .close otherBefore =>
      simp only [MembersText.chars, List.append_assoc, List.cons_append, List.nil_append] at same
      obtain ⟨-, later⟩ := blanks_unique same (by rfl) (by rfl)
      exact absurd (List.cons.inj later).1 (by decide)
  | .last before key beforeColon afterColon value after,
    .last otherBefore otherKey otherBeforeColon otherAfterColon otherValue otherAfter =>
      simp only [MembersText.chars, List.append_assoc, List.cons_append, List.nil_append] at same
      obtain ⟨rfl, keys⟩ := blanks_unique same (by rfl) (by rfl)
      obtain ⟨rfl, rfl, rfl, later⟩ :=
        key_unique (value.stopsAt_chars _) (otherValue.stopsAt_chars _) keys
      obtain ⟨rfl, rfl, -, rests⟩ :=
        separated_unique value.determined (by decide) (by decide) later
      exact ⟨rfl, rests⟩
  | .more before key beforeColon afterColon value after members,
    .last otherBefore otherKey otherBeforeColon otherAfterColon otherValue otherAfter =>
      simp only [MembersText.chars, List.append_assoc, List.cons_append, List.nil_append] at same
      obtain ⟨-, keys⟩ := blanks_unique same (by rfl) (by rfl)
      obtain ⟨-, -, -, later⟩ :=
        key_unique (value.stopsAt_chars _) (otherValue.stopsAt_chars _) keys
      obtain ⟨-, -, marks, -⟩ := separated_unique value.determined (by decide) (by decide) later
      exact absurd marks (by decide)
  | .last before key beforeColon afterColon value after,
    .more otherBefore otherKey otherBeforeColon otherAfterColon otherValue otherAfter others =>
      simp only [MembersText.chars, List.append_assoc, List.cons_append, List.nil_append] at same
      obtain ⟨-, keys⟩ := blanks_unique same (by rfl) (by rfl)
      obtain ⟨-, -, -, later⟩ :=
        key_unique (value.stopsAt_chars _) (otherValue.stopsAt_chars _) keys
      obtain ⟨-, -, marks, -⟩ := separated_unique value.determined (by decide) (by decide) later
      exact absurd marks (by decide)
  | .more before key beforeColon afterColon value after members,
    .more otherBefore otherKey otherBeforeColon otherAfterColon otherValue otherAfter others =>
      simp only [MembersText.chars, List.append_assoc, List.cons_append] at same
      obtain ⟨rfl, keys⟩ := blanks_unique same (by rfl) (by rfl)
      obtain ⟨rfl, rfl, rfl, later⟩ :=
        key_unique (value.stopsAt_chars _) (otherValue.stopsAt_chars _) keys
      obtain ⟨rfl, rfl, -, rests⟩ :=
        separated_unique value.determined (by decide) (by decide) later
      obtain ⟨rfl, final⟩ := members.unique others rests
      exact ⟨rfl, final⟩

end

/-- **One text, one syntax.** -/
theorem JsonDocument.unique {document other : JsonDocument}
    (same : document.chars = other.chars) : document = other := by
  obtain ⟨before, root, after⟩ := document
  obtain ⟨otherBefore, otherRoot, otherAfter⟩ := other
  simp only [JsonDocument.chars] at same
  obtain ⟨rfl, roots⟩ := blanks_unique same (root.stopsAt_chars _) (otherRoot.stopsAt_chars _)
  have stops : ∀ blanks, StopsAt Char.isDigit (blankChars blanks) := by
    intro blanks
    rw [← List.append_nil (blankChars blanks)]
    exact stopsAt_blankChars blanks trivial
  obtain ⟨rfl, afters⟩ := root.determined (stops after) (stops otherAfter) roots
  rw [blankChars_injective afters]

end Openyak.Theory
