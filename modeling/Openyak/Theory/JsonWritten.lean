/-
# Theory.JsonWritten -- texts of values whose numbers are written in any way

`WrittenAs` says which texts a writer may choose for a value: any blanks, any escapes that
`item` allows, and for a number what `numberText` says.

If its numbers are written as integers the text is one of the grammar of `JsonText`
(`WrittenAs.exists_text`).  If one of them has a fraction or an exponent it is not
(`WrittenAs.not_integers`): outside of strings the grammar never puts a point or an
exponent behind a digit, and `wholeNumbers` scans for that.
-/
import Openyak.Theory.JsonText
import Openyak.Theory.JsonPaths

namespace Openyak.Theory

set_option autoImplicit false

/-! ## The value with its numerals -/

mutual

def JsonText.tree : JsonText → JsonTree Numeral
  | .null => .null
  | .bool value => .bool value
  | .number numeral => .number numeral
  | .string items => .string (stringValue items)
  | .array elements => .array elements.trees
  | .object members => .object (JsonEntries.ofMembers members.trees)

def ElementsText.trees : ElementsText → List (JsonTree Numeral)
  | .close _ => []
  | .last _ value _ => [value.tree]
  | .more _ value _ rest => value.tree :: rest.trees

def MembersText.trees : MembersText → List (String × JsonTree Numeral)
  | .close _ => []
  | .last _ key _ _ value _ => [(stringValue key, value.tree)]
  | .more _ key _ _ value _ rest => (stringValue key, value.tree) :: rest.trees

end

section Value

variable {ν : Type} (ofInt : Int → ν)

mutual

theorem JsonText.value_eq (text : JsonText) :
    text.value ofInt = text.tree.map fun numeral => ofInt numeral.toInt := by
  match text with
  | .null => rfl
  | .bool value => rfl
  | .number numeral => rfl
  | .string items => rfl
  | .array elements => exact congrArg JsonTree.array elements.values_eq
  | .object members =>
      show JsonTree.object (.ofMembers (members.members ofInt)) =
        JsonTree.object ((JsonEntries.ofMembers members.trees).map _)
      rw [members.members_eq, JsonEntries.ofMembers_map]

theorem ElementsText.values_eq (elements : ElementsText) :
    elements.values ofInt = JsonTree.mapValues (fun numeral => ofInt numeral.toInt)
      elements.trees := by
  match elements with
  | .close before => rfl
  | .last before value after => exact congrArg (fun value => [value]) value.value_eq
  | .more before value after rest => exact congrArg₂ List.cons value.value_eq rest.values_eq

theorem MembersText.members_eq (members : MembersText) :
    members.members ofInt = members.trees.map fun member =>
      (member.1, member.2.map fun numeral => ofInt numeral.toInt) := by
  match members with
  | .close before => rfl
  | .last before key beforeColon afterColon value after =>
      exact congrArg (fun value => [(stringValue key, value)]) value.value_eq
  | .more before key beforeColon afterColon value after rest =>
      exact congrArg₂ List.cons (congrArg (Prod.mk (stringValue key)) value.value_eq)
        rest.members_eq

end

end Value

section Checked

variable {check : TextCheck}

mutual

theorem JsonText.all_tree (text : JsonText) (passes : text.passes check = true) :
    text.tree.all check.numeral = true := by
  match text with
  | .null | .bool _ | .string _ => rfl
  | .number numeral => exact passes
  | .array elements => exact elements.all_trees passes
  | .object members => exact JsonEntries.all_ofMembers check.numeral (members.all_trees passes)

theorem ElementsText.all_trees (elements : ElementsText) (passes : elements.passes check = true) :
    JsonTree.allValues check.numeral elements.trees = true := by
  match elements with
  | .close before => rfl
  | .last before value after => simpa [ElementsText.trees, JsonTree.allValues] using value.all_tree passes
  | .more before value after rest =>
      simp only [ElementsText.passes, Bool.and_eq_true] at passes
      simp [ElementsText.trees, JsonTree.allValues, value.all_tree passes.1.1, rest.all_trees passes.2]

theorem MembersText.all_trees (members : MembersText) (passes : members.passes check = true) :
    ∀ member ∈ members.trees, member.2.all check.numeral = true := by
  match members with
  | .close before => exact nofun
  | .last before key beforeColon afterColon value after =>
      simp only [MembersText.passes, Bool.and_eq_true] at passes
      exact List.forall_mem_singleton.2 (value.all_tree passes.2)
  | .more before key beforeColon afterColon value after rest =>
      simp only [MembersText.passes, Bool.and_eq_true] at passes
      exact List.forall_mem_cons.2 ⟨value.all_tree passes.1.1.2, rest.all_trees passes.2⟩

end

end Checked

/-! ## Written values -/

section Written

variable {ν : Type} (numberText : ν → List Char → Prop) (item : StringItem → Bool)

mutual

/-- The value may be written so. -/
def JsonTree.WrittenAs : JsonTree ν → List Char → Prop
  | .null, chars => chars = JsonText.null.chars
  | .bool value, chars => chars = (JsonText.bool value).chars
  | .number value, chars => numberText value chars
  | .string value, chars => ∃ items, items.all item = true ∧ stringValue items = value ∧
      chars = stringChars items
  | .array values, chars => ∃ inner, JsonTree.ElementsWrittenAs values inner ∧ chars = '[' :: inner
  | .object entries, chars => ∃ inner, entries.WrittenAs inner ∧ chars = '{' :: inner

/-- So may the elements, with what closes them. -/
def JsonTree.ElementsWrittenAs : List (JsonTree ν) → List Char → Prop
  | [], chars => ∃ before, chars = blankChars before ++ [']']
  | value :: rest, chars => ∃ before after inner behind, value.WrittenAs inner ∧
      (match rest with
        | [] => behind = [']']
        | _ :: _ => ∃ more, JsonTree.ElementsWrittenAs rest more ∧ behind = ',' :: more) ∧
      chars = blankChars before ++ (inner ++ (blankChars after ++ behind))

def JsonEntries.WrittenAs : {low : Option String} → JsonEntries ν low → List Char → Prop
  | _, .nil, chars => ∃ before, chars = blankChars before ++ ['}']
  | _, .cons key _ value rest, chars =>
      ∃ before keyItems beforeColon afterColon after inner behind, value.WrittenAs inner ∧
        (keyItems : List StringItem).all item = true ∧ stringValue keyItems = key ∧
        (match rest with
          | .nil => behind = ['}']
          | .cons .. => ∃ more, rest.WrittenAs more ∧ behind = ',' :: more) ∧
        chars = blankChars before ++ (stringChars keyItems ++ (blankChars beforeColon ++
          ':' :: (blankChars afterColon ++ (inner ++ (blankChars after ++ behind)))))

end

end Written

/-! ## Integers -/

section Integers

variable {ν μ : Type} {numberText : ν → List Char → Prop} {item : StringItem → Bool}
  {p : ν → Bool} {f : ν → μ} {ofInt : Int → μ} {check : TextCheck}

/-- What the writer chooses, `check` lets pass; the numbers with `p` it writes as integers. -/
structure WritesIntegers (numberText : ν → List Char → Prop) (item : StringItem → Bool)
    (p : ν → Bool) (f : ν → μ) (ofInt : Int → μ) (check : TextCheck) : Prop where
  items : ∀ chosen, item chosen = true → check.item chosen = true
  numbers : ∀ {number chars}, numberText number chars → p number = true →
    ∃ numeral : Numeral, numeral.chars = chars ∧ check.numeral numeral = true ∧
      ofInt numeral.toInt = f number

mutual

/-- **A value whose numbers are written as integers** is written in the grammar. -/
theorem JsonTree.WrittenAs.exists_text (writes : WritesIntegers numberText item p f ofInt check)
    (value : JsonTree ν) {chars : List Char} (written : value.WrittenAs numberText item chars)
    (all : value.all p = true) : ∃ text : JsonText, text.chars = chars ∧
      text.passes check = true ∧ text.value ofInt = value.map f := by
  match value with
  | .null => exact ⟨.null, written.symm, rfl, rfl⟩
  | .bool value => exact ⟨.bool value, written.symm, rfl, rfl⟩
  | .number number =>
      obtain ⟨numeral, isChars, passes, value⟩ := writes.numbers written all
      exact ⟨.number numeral, isChars, passes, congrArg JsonTree.number value⟩
  | .string value =>
      obtain ⟨items, allowed, rfl, rfl⟩ := written
      refine ⟨.string items, rfl, List.all_eq_true.2 fun chosen member => ?_, rfl⟩
      exact writes.items chosen (List.all_eq_true.1 allowed chosen member)
  | .array values =>
      obtain ⟨inner, elements, rfl⟩ := written
      obtain ⟨text, isChars, passes, isValues⟩ :=
        JsonTree.ElementsWrittenAs.exists_text writes values elements all
      exact ⟨.array text, congrArg ('[' :: ·) isChars, passes, congrArg JsonTree.array isValues⟩
  | .object entries =>
      obtain ⟨inner, members, rfl⟩ := written
      obtain ⟨text, isChars, passes, isMembers⟩ :=
        JsonEntries.WrittenAs.exists_text writes entries members all
      refine ⟨.object text, congrArg ('{' :: ·) isChars, passes, ?_⟩
      show JsonTree.object (.ofMembers (text.members ofInt)) = .object (entries.map f)
      rw [isMembers, JsonEntries.ofMembers_toList]

theorem JsonTree.ElementsWrittenAs.exists_text
    (writes : WritesIntegers numberText item p f ofInt check) (values : List (JsonTree ν))
    {chars : List Char} (written : JsonTree.ElementsWrittenAs numberText item values chars)
    (all : JsonTree.allValues p values = true) : ∃ text : ElementsText, text.chars = chars ∧
      text.passes check = true ∧ text.values ofInt = JsonTree.mapValues f values := by
  match values with
  | [] =>
      obtain ⟨before, rfl⟩ := written
      exact ⟨.close before, rfl, rfl, rfl⟩
  | value :: rest =>
      rw [JsonTree.allValues, Bool.and_eq_true] at all
      obtain ⟨before, after, inner, behind, isWritten, closes, rfl⟩ := written
      obtain ⟨text, rfl, passes, isValue⟩ :=
        JsonTree.WrittenAs.exists_text writes value isWritten all.1
      match rest with
      | [] =>
          cases closes
          exact ⟨.last before text after, rfl, passes, congrArg (fun value => [value]) isValue⟩
      | next :: others =>
          obtain ⟨more, later, rfl⟩ := closes
          obtain ⟨texts, rfl, morePass, isValues⟩ :=
            JsonTree.ElementsWrittenAs.exists_text writes (next :: others) later all.2
          have goesOn : texts.isClose = false := by
            cases texts with
            | close before => cases isValues
            | _ => rfl
          refine ⟨.more before text after texts, rfl, ?_, congrArg₂ List.cons isValue isValues⟩
          simp [ElementsText.passes, passes, morePass, goesOn]

theorem JsonEntries.WrittenAs.exists_text
    (writes : WritesIntegers numberText item p f ofInt check) {low : Option String}
    (entries : JsonEntries ν low) {chars : List Char}
    (written : entries.WrittenAs numberText item chars) (all : entries.all p = true) :
    ∃ text : MembersText, text.chars = chars ∧ text.passes check = true ∧
      text.members ofInt = (entries.map f).toList := by
  match entries with
  | .nil =>
      obtain ⟨before, rfl⟩ := written
      exact ⟨.close before, rfl, rfl, rfl⟩
  | .cons key above value rest =>
      rw [JsonEntries.all, Bool.and_eq_true] at all
      obtain ⟨before, keyItems, beforeColon, afterColon, after, inner, behind, isWritten, allowed,
        isKey, closes, rfl⟩ := written
      obtain ⟨text, rfl, passes, isValue⟩ :=
        JsonTree.WrittenAs.exists_text writes value isWritten all.1
      have keyPasses : keyItems.all check.item = true := by
        refine List.all_eq_true.2 fun chosen member => ?_
        exact writes.items chosen (List.all_eq_true.1 allowed chosen member)
      match rest with
      | .nil =>
          cases closes
          refine ⟨.last before keyItems beforeColon afterColon text after, rfl, ?_, ?_⟩
          · simp [MembersText.passes, passes, keyPasses]
          · rw [MembersText.members, isKey, isValue]
            rfl
      | .cons next nextAbove held others =>
          obtain ⟨more, later, rfl⟩ := closes
          obtain ⟨texts, rfl, morePass, isMembers⟩ :=
            JsonEntries.WrittenAs.exists_text writes (.cons next nextAbove held others) later all.2
          have goesOn : texts.isClose = false := by
            cases texts with
            | close before => cases isMembers
            | _ => rfl
          refine ⟨.more before keyItems beforeColon afterColon text after texts, rfl, ?_, ?_⟩
          · simp [MembersText.passes, passes, keyPasses, morePass, goesOn]
          · rw [MembersText.members, isKey, isValue, isMembers]
            rfl

end

end Integers

/-! ## Fractions and exponents -/

inductive Place where
  | outside
  | inside
  | escaped
  deriving DecidableEq

def startsFraction (c : Char) : Bool := c = '.' || c = 'e' || c = 'E'

/-- Outside of strings no digit has a fraction or an exponent behind it; `digit` tells
whether the character before was one. -/
def wholeNumbers : Place → (digit : Bool) → List Char → Bool
  | _, _, [] => true
  | .outside, digit, c :: rest =>
      !(digit && startsFraction c) &&
        wholeNumbers (if c = '"' then .inside else .outside) c.isDigit rest
  | .inside, _, c :: rest =>
      wholeNumbers (if c = '"' then .outside else if c = '\\' then .escaped else .inside) false rest
  | .escaped, _, _ :: rest => wholeNumbers .inside false rest

/-- Neither part of a number nor of a string. -/
def isNeutral (c : Char) : Bool := !c.isDigit && c ≠ '"' && !startsFraction c

section Scan

variable {digit : Bool} {rest : List Char}

theorem wholeNumbers_neutral {c : Char} (neutral : isNeutral c = true) :
    wholeNumbers .outside digit (c :: rest) = wholeNumbers .outside false rest := by
  simp only [isNeutral, Bool.and_eq_true, Bool.not_eq_true', decide_eq_true_eq] at neutral
  obtain ⟨⟨noDigit, noQuote⟩, noFraction⟩ := neutral
  simp [wholeNumbers, noDigit, noQuote, noFraction]

theorem wholeNumbers_blanks (blanks : List Blank) :
    ∃ last, wholeNumbers .outside digit (blankChars blanks ++ rest) =
      wholeNumbers .outside last rest := by
  induction blanks generalizing digit with
  | nil => exact ⟨digit, rfl⟩
  | cons blank blanks ih =>
      have neutral : isNeutral blank.char = true := by cases blank <;> decide
      obtain ⟨last, same⟩ := @ih false
      refine ⟨last, ?_⟩
      show wholeNumbers .outside digit (blank.char :: (blankChars blanks ++ rest)) = _
      rw [wholeNumbers_neutral neutral, same]

theorem wholeNumbers_item (chosen : StringItem) :
    wholeNumbers .inside digit (chosen.chars ++ rest) = wholeNumbers .inside false rest := by
  cases chosen with
  | plain c isPlain => simp [StringItem.chars, wholeNumbers, isPlain]
  | named escape => simp [StringItem.chars, wholeNumbers]
  | unicode first second third fourth =>
      have plain : ∀ hex : HexDigit, hex.char ≠ '"' ∧ hex.char ≠ '\\' := by
        intro hex
        constructor
        all_goals
          intro same
          have isHex := hex.isHex
          rw [same] at isHex
          exact absurd isHex (by decide)
      simp [StringItem.chars, wholeNumbers, plain]

theorem wholeNumbers_string (items : List StringItem) :
    wholeNumbers .outside digit (stringChars items ++ rest) = wholeNumbers .outside false rest := by
  have within : ∀ digit, wholeNumbers .inside digit (items.flatMap StringItem.chars ++ '"' :: rest) =
      wholeNumbers .outside false rest := by
    induction items with
    | nil =>
        intro digit
        simp [wholeNumbers]
    | cons chosen items ih =>
        intro digit
        rw [List.flatMap_cons, List.append_assoc, wholeNumbers_item, ih]
  have opens := within ('"'.isDigit)
  simpa [stringChars, wholeNumbers, startsFraction] using opens

theorem wholeNumbers_digits {digits : List Char} (decimal : ∀ c ∈ digits, c.isDigit = true)
    (some_ : digits ≠ []) :
    wholeNumbers .outside digit (digits ++ rest) = wholeNumbers .outside true rest := by
  have solid : ∀ c : Char, c.isDigit = true → startsFraction c = false ∧ c ≠ '"' := by
    intro c isDigit
    simp only [startsFraction, Bool.or_eq_false_iff, decide_eq_false_iff_not]
    refine ⟨⟨⟨?_, ?_⟩, ?_⟩, ?_⟩ <;> rintro rfl <;> exact absurd isDigit (by decide)
  induction digits generalizing digit with
  | nil => exact absurd rfl some_
  | cons c digits ih =>
      have isDigit := decimal c List.mem_cons_self
      obtain ⟨noFraction, noQuote⟩ := solid c isDigit
      rw [List.cons_append, wholeNumbers, noFraction, if_neg noQuote, isDigit, Bool.and_false,
        Bool.not_false, Bool.true_and]
      cases digits with
      | nil => rfl
      | cons next digits =>
          exact ih (fun c member => decimal c (List.mem_cons_of_mem _ member))
            (List.cons_ne_nil next digits)

theorem wholeNumbers_numeral (numeral : Numeral) :
    wholeNumbers .outside digit (numeral.chars ++ rest) = wholeNumbers .outside true rest := by
  rw [Numeral.chars]
  split
  · rw [List.cons_append, wholeNumbers_neutral (by decide)]
    exact wholeNumbers_digits numeral.decimal numeral.nonempty
  · exact wholeNumbers_digits numeral.decimal numeral.nonempty

end Scan

/-- A scan of `chars` finds nothing exactly if `good`, and what it goes on with does not
depend on what stood before. -/
def Scans (good : Bool) (chars : List Char) : Prop :=
  ∃ last, ∀ digit rest, wholeNumbers .outside digit (chars ++ rest) =
    (good && wholeNumbers .outside last rest)

/-- And no number ends with `chars`. -/
def Closes (good : Bool) (chars : List Char) : Prop :=
  ∀ digit rest, wholeNumbers .outside digit (chars ++ rest) =
    (good && wholeNumbers .outside false rest)

section Scans

variable {good better : Bool} {chars more : List Char}

theorem Closes.scans (closes : Closes good chars) : Scans good chars := ⟨false, closes⟩

theorem closes_mark {mark : Char} (neutral : isNeutral mark = true) : Closes true [mark] := by
  intro digit rest
  exact wholeNumbers_neutral neutral

theorem closes_string (items : List StringItem) : Closes true (stringChars items) := by
  intro digit rest
  exact wholeNumbers_string items

theorem Closes.cons (closes : Closes good chars) {mark : Char} (neutral : isNeutral mark = true) :
    Closes good (mark :: chars) := by
  intro digit rest
  rw [List.cons_append, wholeNumbers_neutral neutral, closes]

theorem Closes.blanks (closes : Closes good chars) (blanks : List Blank) :
    Closes good (blankChars blanks ++ chars) := by
  intro digit rest
  obtain ⟨last, same⟩ := @wholeNumbers_blanks digit (chars ++ rest) blanks
  rw [List.append_assoc, same, closes]

theorem Scans.append (scans : Scans good chars) (closes : Closes better more) :
    Closes (good && better) (chars ++ more) := by
  intro digit rest
  obtain ⟨last, same⟩ := scans
  rw [List.append_assoc, same, closes, Bool.and_assoc]

end Scans

theorem scans_null : Scans true JsonText.null.chars := by
  refine ⟨false, fun digit rest => ?_⟩
  simp only [JsonText.chars, List.cons_append, List.nil_append]
  repeat rw [wholeNumbers_neutral (by decide)]
  rfl

theorem scans_bool (value : Bool) : Scans true (JsonText.bool value).chars := by
  have last : ∀ rest, wholeNumbers .outside false ('e' :: rest) = wholeNumbers .outside false rest :=
    fun rest => rfl
  refine ⟨false, fun digit rest => ?_⟩
  cases value
  · simp only [JsonText.chars, List.cons_append, List.nil_append]
    repeat rw [wholeNumbers_neutral (by decide)]
    rw [last, Bool.true_and]
  · simp only [JsonText.chars, List.cons_append, List.nil_append]
    repeat rw [wholeNumbers_neutral (by decide)]
    rw [last, Bool.true_and]

/-! ## No integers -/

mutual

theorem JsonText.scans (text : JsonText) : Scans true text.chars := by
  match text with
  | .null => exact scans_null
  | .bool value => exact scans_bool value
  | .number numeral => exact ⟨true, fun digit rest => wholeNumbers_numeral numeral⟩
  | .string items => exact (closes_string items).scans
  | .array elements => exact (elements.closes.cons (by decide)).scans
  | .object members => exact (members.closes.cons (by decide)).scans

theorem ElementsText.closes (elements : ElementsText) : Closes true elements.chars := by
  match elements with
  | .close before => exact (closes_mark (by decide)).blanks before
  | .last before value after =>
      have ends := (closes_mark (by decide : isNeutral ']' = true)).blanks after
      exact (value.scans.append ends).blanks before
  | .more before value after rest =>
      have ends := (rest.closes.cons (by decide : isNeutral ',' = true)).blanks after
      exact (value.scans.append ends).blanks before

theorem MembersText.closes (members : MembersText) : Closes true members.chars := by
  match members with
  | .close before => exact (closes_mark (by decide)).blanks before
  | .last before key beforeColon afterColon value after =>
      have ends := (closes_mark (by decide : isNeutral '}' = true)).blanks after
      have colon := ((value.scans.append ends).blanks afterColon).cons (by decide : isNeutral ':' = true)
      exact ((closes_string key).scans.append (colon.blanks beforeColon)).blanks before
  | .more before key beforeColon afterColon value after rest =>
      have ends := (rest.closes.cons (by decide : isNeutral ',' = true)).blanks after
      have colon := ((value.scans.append ends).blanks afterColon).cons (by decide : isNeutral ':' = true)
      exact ((closes_string key).scans.append (colon.blanks beforeColon)).blanks before

end

/-- A number that is written with a fraction or an exponent. -/
def IsFraction (chars : List Char) : Prop :=
  ∃ front digit mark behind, chars = front ++ digit :: mark :: behind ∧ '"' ∉ front ∧
    digit.isDigit = true ∧ startsFraction mark = true

theorem IsFraction.scans {chars : List Char} (fraction : IsFraction chars) :
    Scans false chars := by
  obtain ⟨front, digit, mark, behind, rfl, noQuote, isDigit, isMark⟩ := fraction
  refine ⟨false, fun before rest => ?_⟩
  have unquoted : digit ≠ '"' := by
    rintro rfl
    exact absurd isDigit (by decide)
  rw [Bool.false_and]
  induction front generalizing before with
  | nil => simp [wholeNumbers, unquoted, isDigit, isMark]
  | cons c front ih =>
      have isPlain : c ≠ '"' := fun same => noQuote (same ▸ List.mem_cons_self)
      have later := ih (fun member => noQuote (List.mem_cons_of_mem _ member)) c.isDigit
      rw [List.cons_append, List.cons_append, wholeNumbers, if_neg isPlain, later, Bool.and_false]

section NoIntegers

variable {ν : Type} {numberText : ν → List Char → Prop} {item : StringItem → Bool} {p : ν → Bool}

/-- The numbers with `p` are written as integers, the others are not. -/
structure SplitsNumbers (numberText : ν → List Char → Prop) (p : ν → Bool) : Prop where
  integers : ∀ {number chars}, numberText number chars → p number = true →
    ∃ numeral : Numeral, numeral.chars = chars
  fractions : ∀ {number chars}, numberText number chars → p number = false → IsFraction chars

mutual

theorem JsonTree.WrittenAs.scans (splits : SplitsNumbers numberText p) (value : JsonTree ν)
    {chars : List Char} (written : value.WrittenAs numberText item chars) :
    Scans (value.all p) chars := by
  match value with
  | .null =>
      cases written
      exact scans_null
  | .bool value =>
      cases written
      exact scans_bool value
  | .number number =>
      show Scans (p number) chars
      cases integer : p number with
      | true =>
          obtain ⟨numeral, rfl⟩ := splits.integers written integer
          exact ⟨true, fun digit rest => wholeNumbers_numeral numeral⟩
      | false => exact (splits.fractions written integer).scans
  | .string value =>
      obtain ⟨items, -, -, rfl⟩ := written
      exact (closes_string items).scans
  | .array values =>
      obtain ⟨inner, elements, rfl⟩ := written
      exact ((JsonTree.ElementsWrittenAs.closes splits values elements).cons (by decide)).scans
  | .object entries =>
      obtain ⟨inner, members, rfl⟩ := written
      exact ((JsonEntries.WrittenAs.closes splits entries members).cons (by decide)).scans

theorem JsonTree.ElementsWrittenAs.closes (splits : SplitsNumbers numberText p)
    (values : List (JsonTree ν)) {chars : List Char}
    (written : JsonTree.ElementsWrittenAs numberText item values chars) :
    Closes (JsonTree.allValues p values) chars := by
  match values with
  | [] =>
      obtain ⟨before, rfl⟩ := written
      exact (closes_mark (by decide)).blanks before
  | value :: rest =>
      obtain ⟨before, after, inner, behind, isWritten, closing, rfl⟩ := written
      have scans := JsonTree.WrittenAs.scans splits value isWritten
      have ends : Closes (JsonTree.allValues p rest) behind := by
        match rest with
        | [] =>
            cases closing
            exact closes_mark (by decide)
        | next :: others =>
            obtain ⟨more, later, rfl⟩ := closing
            exact (JsonTree.ElementsWrittenAs.closes splits (next :: others) later).cons (by decide)
      exact (scans.append (ends.blanks after)).blanks before

theorem JsonEntries.WrittenAs.closes (splits : SplitsNumbers numberText p) {low : Option String}
    (entries : JsonEntries ν low) {chars : List Char}
    (written : entries.WrittenAs numberText item chars) : Closes (entries.all p) chars := by
  match entries with
  | .nil =>
      obtain ⟨before, rfl⟩ := written
      exact (closes_mark (by decide)).blanks before
  | .cons key above value rest =>
      obtain ⟨before, keyItems, beforeColon, afterColon, after, inner, behind, isWritten, -, -,
        closing, rfl⟩ := written
      have scans := JsonTree.WrittenAs.scans splits value isWritten
      have ends : Closes (rest.all p) behind := by
        match rest with
        | .nil =>
            cases closing
            exact closes_mark (by decide)
        | .cons next nextAbove held others =>
            obtain ⟨more, later, rfl⟩ := closing
            have closes := JsonEntries.WrittenAs.closes splits (.cons next nextAbove held others) later
            exact closes.cons (by decide)
      have colon := ((scans.append (ends.blanks after)).blanks afterColon).cons
        (by decide : isNeutral ':' = true)
      exact ((closes_string keyItems).scans.append (colon.blanks beforeColon)).blanks before

end

/-- **A document of the grammar is of no value with a fraction.** -/
theorem JsonTree.WrittenAs.all_of_document (splits : SplitsNumbers numberText p)
    {value : JsonTree ν} {chars : List Char} (written : value.WrittenAs numberText item chars)
    {document : JsonDocument} {after : List Blank}
    (same : document.chars = chars ++ blankChars after) : value.all p = true := by
  have still : ∀ digit (blanks : List Blank),
      wholeNumbers .outside digit (blankChars blanks) = true := by
    intro digit blanks
    obtain ⟨last, gone⟩ := @wholeNumbers_blanks digit [] blanks
    rw [List.append_nil] at gone
    exact gone
  have inDocument : wholeNumbers .outside false document.chars = true := by
    obtain ⟨last, gone⟩ := @wholeNumbers_blanks false
      (document.root.chars ++ blankChars document.after) document.before
    obtain ⟨behind, scanned⟩ := document.root.scans
    rw [JsonDocument.chars, gone, scanned, still, Bool.and_true]
  obtain ⟨behind, scanned⟩ := JsonTree.WrittenAs.scans splits value written
  rw [same, scanned, still, Bool.and_true] at inDocument
  exact inDocument

end NoIntegers

end Openyak.Theory
