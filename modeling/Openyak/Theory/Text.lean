/-
# Theory.Text -- the `str` operations the program uses, on lists of characters

Rust's `str` is a sequence of Unicode scalar values, which is what a list of
`Char` is; the operations below are the documented ones of the standard library
(`trim`, `lines`, `split_whitespace`, `strip_prefix`, `join`, and
`String::from_utf8_lossy` on bytes).  Texts that a program only stores stay
`String`; texts that it takes apart are `List Char`.
-/

namespace Openyak.Theory.Text

set_option autoImplicit false

/-- `char::is_whitespace`: the Unicode property `White_Space`. -/
def isWhitespace (c : Char) : Bool :=
  let n := c.toNat
  (9 ≤ n && n ≤ 13) || n == 0x20 || n == 0x85 || n == 0xA0 || n == 0x1680 ||
    (0x2000 ≤ n && n ≤ 0x200A) || n == 0x2028 || n == 0x2029 || n == 0x202F ||
    n == 0x205F || n == 0x3000

def trimStart (text : List Char) : List Char := text.dropWhile isWhitespace

def trimEnd (text : List Char) : List Char := (text.reverse.dropWhile isWhitespace).reverse

def trim (text : List Char) : List Char := trimEnd (trimStart text)

/-- `str::strip_prefix`. -/
def stripPrefix (start : String) (text : List Char) : Option (List Char) :=
  if start.toList.isPrefixOf text then some (text.drop start.toList.length) else none

theorem stripPrefix_append (start : String) (rest : List Char) :
    stripPrefix start (start.toList ++ rest) = some rest := by
  simp [stripPrefix]

/-- `[..].join("\n")`. -/
def joinLines (lines : List (List Char)) : List Char := List.intercalate ['\n'] lines

/-- The line held in `seen` (reversed), its own `\r` before the `\n` dropped. -/
def endLine : List Char → List Char
  | '\r' :: seen => seen.reverse
  | seen => seen.reverse

def linesAux : List Char → List Char → List (List Char)
  | [], [] => []
  | [], seen => [seen.reverse]
  | '\n' :: rest, seen => endLine seen :: linesAux rest []
  | c :: rest, seen => linesAux rest (c :: seen)

/-- `str::lines`: split after each `\n`, which goes with one `\r` before it; a
last line without `\n` is kept as it is, and no empty line follows a final `\n`. -/
def lines (text : List Char) : List (List Char) := linesAux text []

def splitWhitespaceAux : List Char → List Char → List (List Char)
  | [], [] => []
  | [], seen => [seen.reverse]
  | c :: rest, seen =>
      if isWhitespace c then
        if seen = [] then splitWhitespaceAux rest [] else seen.reverse :: splitWhitespaceAux rest []
      else splitWhitespaceAux rest (c :: seen)

/-- `str::split_whitespace`. -/
def splitWhitespace (text : List Char) : List (List Char) := splitWhitespaceAux text []

theorem dropWhile_white (gap rest : List Char) (white : ∀ c ∈ gap, isWhitespace c) :
    (gap ++ rest).dropWhile isWhitespace = rest.dropWhile isWhitespace := by
  induction gap with
  | nil => rfl
  | cons c gap ih =>
      obtain ⟨first, others⟩ := List.forall_mem_cons.mp white
      rw [List.cons_append, List.dropWhile_cons_of_pos first]
      exact ih others

/-- **`trim` takes away the white space around a text** that begins and ends without. -/
theorem trim_padded {before text after : List Char} {first last : Char}
    (white : ∀ c ∈ before ++ after, isWhitespace c) (begins : text.head? = some first)
    (ends : text.getLast? = some last) (solid : ¬isWhitespace first ∧ ¬isWhitespace last) :
    trim (before ++ text ++ after) = text := by
  have white_before : ∀ c ∈ before, isWhitespace c :=
    fun c isBefore => white c (List.mem_append_left _ isBefore)
  have white_after : ∀ c ∈ after.reverse, isWhitespace c :=
    fun c isAfter => white c (List.mem_append_right _ (List.mem_reverse.mp isAfter))
  unfold trim trimStart trimEnd
  rw [List.append_assoc, dropWhile_white before _ white_before]
  have start : (text ++ after).dropWhile isWhitespace = text ++ after := by
    cases text with
    | nil => cases begins
    | cons c rest =>
        cases begins
        exact List.dropWhile_cons_of_neg solid.1
  rw [start, List.reverse_append, dropWhile_white _ _ white_after]
  have stop : text.reverse.dropWhile isWhitespace = text.reverse := by
    rw [← List.head?_reverse] at ends
    cases reversed : text.reverse with
    | nil => rfl
    | cons c rest =>
        rw [reversed] at ends
        cases ends
        exact List.dropWhile_cons_of_neg solid.2
  rw [stop, List.reverse_reverse]

theorem not_isWhitespace_of_isDigit {c : Char} (isDigit : c.isDigit = true) :
    ¬isWhitespace c := by
  rw [Char.isDigit_iff_toNat] at isDigit
  have low : '0'.toNat = 48 := rfl
  have high : '9'.toNat = 57 := rfl
  simp only [isWhitespace, Bool.or_eq_true, Bool.and_eq_true, decide_eq_true_eq, beq_iff_eq]
  omega

theorem trim_white {text : List Char} (white : ∀ c ∈ text, isWhitespace c) : trim text = [] := by
  have nothing := dropWhile_white text [] white
  rw [List.append_nil, List.dropWhile_nil] at nothing
  unfold trim trimStart
  rw [nothing]
  rfl

/-- `str::trim_matches` with a set of characters. -/
def trimMatches (set : List Char) (text : List Char) : List Char :=
  ((text.dropWhile set.contains).reverse.dropWhile set.contains).reverse

/-- `str::trim_end_matches` with a set of characters. -/
def trimEndMatches (set : List Char) (text : List Char) : List Char :=
  (text.reverse.dropWhile set.contains).reverse

theorem trimEndMatches_append {set text after : List Char} {last : Char}
    (inSet : ∀ c ∈ after, c ∈ set) (ends : text.getLast? = some last) (stays : last ∉ set) :
    trimEndMatches set (text ++ after) = text := by
  obtain ⟨front, rfl⟩ := List.getLast?_eq_some_iff.1 ends
  have white : ∀ c ∈ after.reverse, set.contains c = true := by
    intro c member
    simpa using inSet c (List.mem_reverse.1 member)
  have kept : ([last] ++ front.reverse).dropWhile set.contains = [last] ++ front.reverse :=
    List.dropWhile_cons_of_neg (by simpa using stays)
  unfold trimEndMatches
  rw [List.reverse_append, List.dropWhile_append_of_pos white, List.reverse_append,
    List.reverse_singleton, kept, List.reverse_append, List.reverse_reverse, List.reverse_singleton]

theorem toLower_idem (c : Char) : c.toLower.toLower = c.toLower := by
  delta Char.toLower
  split
  · rename_i upper
    split
    · rename_i again
      simp only [UInt32.le_iff_toNat_le, UInt32.toNat_add, seval] at upper again
      omega
    · rfl
  · rfl

/-- `str::to_ascii_lowercase`. -/
def toAsciiLowercase (text : List Char) : List Char := text.map Char.toLower

theorem toAsciiLowercase_idem (text : List Char) :
    toAsciiLowercase (toAsciiLowercase text) = toAsciiLowercase text := by
  simp [toAsciiLowercase, toLower_idem, Function.comp_def]

/-- `str::contains`. -/
def contains (needle : String) : List Char → Bool
  | [] => needle.toList.isEmpty
  | c :: rest => needle.toList.isPrefixOf (c :: rest) || contains needle rest

/-- `str::split_once`: what is before and what is behind the first match. -/
def splitOnce (needle : String) : List Char → Option (List Char × List Char)
  | [] => if needle.toList = [] then some ([], []) else none
  | c :: rest =>
      if needle.toList.isPrefixOf (c :: rest) then
        some ([], (c :: rest).drop needle.toList.length)
      else (splitOnce needle rest).map fun parts => (c :: parts.1, parts.2)

/-- `skip` characters belong to a match already replaced. -/
def replaceAux (needle with_ : List Char) : Nat → List Char → List Char
  | _, [] => if needle = [] then with_ else []
  | skip + 1, _ :: rest => replaceAux needle with_ skip rest
  | 0, c :: rest =>
      if needle = [] then with_ ++ c :: replaceAux needle with_ 0 rest
      else if needle.isPrefixOf (c :: rest) then
        with_ ++ replaceAux needle with_ (needle.length - 1) rest
      else c :: replaceAux needle with_ 0 rest

/-- `str::replace`: every match, from the left; an empty needle matches before every
character and at the end. -/
def replace (needle with_ : String) (text : List Char) : List Char :=
  replaceAux needle.toList with_.toList 0 text

/-- `str::replacen` with a count of 1. -/
def replaceFirst (needle with_ : String) : List Char → List Char
  | [] => if needle.toList = [] then with_.toList else []
  | c :: rest =>
      if needle.toList.isPrefixOf (c :: rest) then
        with_.toList ++ (c :: rest).drop needle.toList.length
      else c :: replaceFirst needle with_ rest

def splitInclusiveAux (separator : Char) : List Char → List Char → List (List Char)
  | [], [] => []
  | [], seen => [seen.reverse]
  | c :: rest, seen =>
      if c = separator then (c :: seen).reverse :: splitInclusiveAux separator rest []
      else splitInclusiveAux separator rest (c :: seen)

/-- `str::split_inclusive`. -/
def splitInclusive (separator : Char) (text : List Char) : List (List Char) :=
  splitInclusiveAux separator text []

/-! ## Lossy UTF-8 -/

/-- U+FFFD. -/
def replacement : Char := Char.ofNat 0xFFFD

def isContinuation (b : UInt8) : Bool := 0x80 ≤ b && b ≤ 0xBF

/-- The second bytes a three-byte sequence may have after `first`. -/
def threeByteSecond (first second : UInt8) : Bool :=
  if first = 0xE0 then 0xA0 ≤ second && second ≤ 0xBF
  else if first = 0xED then 0x80 ≤ second && second ≤ 0x9F
  else isContinuation second

/-- The second bytes a four-byte sequence may have after `first`. -/
def fourByteSecond (first second : UInt8) : Bool :=
  if first = 0xF0 then 0x90 ≤ second && second ≤ 0xBF
  else if first = 0xF4 then 0x80 ≤ second && second ≤ 0x8F
  else isContinuation second

/-- The character at the start of `first :: rest` and the bytes it takes from
`rest`.  An ill-formed sequence is one replacement character for its longest
well-formed start. -/
def decodeFirst (first : UInt8) (rest : List UInt8) : Char × Nat :=
  let low (b : UInt8) : Nat := b.toNat % 64
  if first < 0x80 then (Char.ofNat first.toNat, 0)
  else if 0xC2 ≤ first ∧ first ≤ 0xDF then
    match rest with
    | b :: _ =>
        if isContinuation b then (Char.ofNat ((first.toNat % 32) * 64 + low b), 1)
        else (replacement, 0)
    | [] => (replacement, 0)
  else if 0xE0 ≤ first ∧ first ≤ 0xEF then
    match rest with
    | b :: more =>
        if threeByteSecond first b then
          match more with
          | c :: _ =>
              if isContinuation c then
                (Char.ofNat ((first.toNat % 16) * 4096 + low b * 64 + low c), 2)
              else (replacement, 1)
          | [] => (replacement, 1)
        else (replacement, 0)
    | [] => (replacement, 0)
  else if 0xF0 ≤ first ∧ first ≤ 0xF4 then
    match rest with
    | b :: more =>
        if fourByteSecond first b then
          match more with
          | c :: last =>
              if isContinuation c then
                match last with
                | d :: _ =>
                    if isContinuation d then
                      (Char.ofNat ((first.toNat % 8) * 262144 + low b * 4096 + low c * 64 + low d),
                        3)
                    else (replacement, 2)
                | [] => (replacement, 2)
              else (replacement, 1)
          | [] => (replacement, 1)
        else (replacement, 0)
    | [] => (replacement, 0)
  else (replacement, 0)

/-- `skip` bytes belong to a character already decoded. -/
def fromUtf8LossyAux : Nat → List UInt8 → List Char
  | _, [] => []
  | skip + 1, _ :: rest => fromUtf8LossyAux skip rest
  | 0, first :: rest =>
      let decoded := decodeFirst first rest
      decoded.1 :: fromUtf8LossyAux decoded.2 rest

/-- `String::from_utf8_lossy`. -/
def fromUtf8Lossy (bytes : List UInt8) : List Char := fromUtf8LossyAux 0 bytes

example : fromUtf8Lossy [0x68, 0xC3, 0xA9, 0xE2, 0x82, 0x0A] = ['h', 'é', replacement, '\n'] := by
  decide

end Openyak.Theory.Text
