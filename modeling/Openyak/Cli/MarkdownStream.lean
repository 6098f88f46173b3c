/-
# Cli.MarkdownStream -- which parts of a reply are rendered at once

The text of a reply comes in parts, and what is pending is handed to the renderer up to the
last place where it seems safe: behind a blank line, or behind a line that ends a fence.  The
scanner has one flag, which every line turns that starts with three backticks or tildes
behind white space.

Whatever the parts, nothing is lost and no slice is off a boundary.  That a block of code is
kept whole needs more: the flag knows only whether an even number of such lines was seen.
Where no fence of CommonMark is open behind an even number of them, and no part ends inside
one that is the second of two, no piece but the last ends inside a fence
(`markdown_stream_blocks`).
-/
import Openyak.Theory.ByteText
import Openyak.Theory.Lines
import Openyak.Theory.Terminated

namespace Openyak.Cli

open Openyak.Theory
open Openyak.Theory.ByteText
open Openyak.Theory.Text
open Openyak.Theory.Terminated

set_option autoImplicit false

/-! ## The stream -/

/-- A line that turns the flag. -/
def fenceLike (line : List Char) : Bool :=
  let trimmed := trimStart line
  "```".toList.isPrefixOf trimmed || "~~~".toList.isPrefixOf trimmed

def blank (line : List Char) : Bool := (trimStart line).isEmpty

/-- The loop over the lines, which start at `offset`. -/
def scanLines (inFence : Bool) (lastBoundary : Option Nat) (offset : Nat) :
    List (List Char) → Option Nat
  | [] => lastBoundary
  | line :: lines =>
      let stop := offset + byteLen line
      if fenceLike line then
        scanLines (!inFence) (if inFence then some stop else lastBoundary) stop lines
      else if inFence then scanLines inFence lastBoundary stop lines
      else if blank line then scanLines inFence (some stop) stop lines
      else scanLines inFence lastBoundary stop lines

def findStreamSafeBoundary (markdown : List Char) : Option Nat :=
  scanLines false none 0 (splitInclusive '\n' markdown)

/-- What stays pending, and what is rendered; nothing where a slice would panic. -/
def push (pending delta : List Char) : Option (List Char × Option (List Char)) :=
  let pending := pending ++ delta
  match findStreamSafeBoundary pending with
  | none => some (pending, none)
  | some split => do
      let ready ← upTo pending split
      return (← drain pending 0 split, some ready)

def flush (pending : List Char) : Option (List Char) :=
  if trim pending = [] then none else some pending

/-- The pieces that are rendered of a text that comes in parts. -/
def renderedFrom (pending : List Char) : List (List Char) → Option (List (List Char))
  | [] => some (flush pending).toList
  | delta :: deltas => do
      let (pending, ready) ← push pending delta
      return ready.toList ++ (← renderedFrom pending deltas)

def rendered (deltas : List (List Char)) : Option (List (List Char)) := renderedFrom [] deltas

/-! ## Fences of CommonMark -/

inductive Marker where
  | backtick
  | tilde
  deriving DecidableEq, Repr

def Marker.char : Marker → Char
  | .backtick => '`'
  | .tilde => '~'

structure Fence where
  marker : Marker
  length : Nat
  deriving DecidableEq, Repr

/-- A line behind its indentation, unless that makes it code. -/
def unindented (line : List Char) : Option (List Char) :=
  if (line.takeWhile (· == ' ')).length ≤ 3 then some (line.dropWhile (· == ' ')) else none

/-- How often a text starts with a marker, and what is behind. -/
def markers (marker : Marker) (text : List Char) : Nat × List Char :=
  ((text.takeWhile (· == marker.char)).length, text.dropWhile (· == marker.char))

/-- The fence a line opens.  Behind backticks there are no more of them in its line. -/
def openingFence (line : List Char) : Option Fence := do
  let text ← unindented line
  let (backticks, info) := markers .backtick text
  let (tildes, _) := markers .tilde text
  if 3 ≤ backticks ∧ '`' ∉ info then return ⟨.backtick, backticks⟩
  else if 3 ≤ tildes then return ⟨.tilde, tildes⟩
  else none

/-- A line with as many markers as the fence, or more, and white space. -/
def Fence.closes (fence : Fence) (line : List Char) : Bool :=
  match unindented line with
  | none => false
  | some text =>
      let (count, rest) := markers fence.marker text
      fence.length ≤ count && rest.all isWhitespace

def fenceStep (state : Option Fence) (line : List Char) : Option Fence :=
  match state with
  | none => openingFence line
  | some fence => if fence.closes line then none else some fence

/-- The fence that is open behind some lines. -/
def fenceState (lines : List (List Char)) : Option Fence := lines.foldl fenceStep none

/-- The whole lines of a text. -/
def wholeLines (text : List Char) : List Char := (text.reverse.dropWhile (· ≠ '\n')).reverse

/-- What is behind them. -/
def lastLine (text : List Char) : List Char := (text.reverse.takeWhile (· ≠ '\n')).reverse

/-- Whether a text that is cut in two is cut behind the indentation of a fence and before the
end of the run that closes it. -/
def insideFence (before after : List Char) : Bool :=
  match fenceState (splitInclusive '\n' (wholeLines before)) with
  | none =>
      (openingFence (lastLine before ++ restOfLine after)).isSome && !blank (lastLine before)
  | some fence => !(fence.closes (lastLine before) && blank (restOfLine after))

/-- No piece but the last ends inside a fence. -/
def KeepsBlocks (text : List Char) (pieces : List (List Char)) : Prop :=
  ∀ earlier later rest, pieces = earlier ++ later → earlier ≠ [] → later ≠ [] →
    text = earlier.flatten ++ rest → insideFence earlier.flatten rest = false

/-- Whether the flag is set behind some lines. -/
def oddFences (lines : List (List Char)) : Bool :=
  lines.foldl (fun odd line => odd ^^ fenceLike line) false

/-- Behind an even number of lines that turn the flag no fence is open. -/
def FlagKnows (text : List Char) : Prop :=
  ∀ lines rest, splitInclusive '\n' text = lines ++ rest → oddFences lines = false →
    fenceState lines = none

/-- A text is not cut inside the second of two lines that turn the flag, behind what makes it
one, unless only white space is left of it. -/
def CutApart (before after : List Char) : Prop :=
  oddFences (splitInclusive '\n' (wholeLines before)) = true → fenceLike (lastLine before) = true →
    blank (restOfLine after) = true

/-! ## Lines -/

variable {text line part rest before after pending delta future : List Char}
  {lines others : List (List Char)}

theorem blank_iff : blank line = true ↔ ∀ c ∈ line, isWhitespace c := by
  rw [blank, List.isEmpty_iff, trimStart, List.dropWhile_eq_nil_iff]

theorem blank_append : blank (line ++ rest) = true ↔ blank line = true ∧ blank rest = true := by
  rw [blank_iff, blank_iff, blank_iff, List.forall_mem_append]

theorem fenceLike_of_blank (isBlank : blank line = true) : fenceLike line = false := by
  rw [fenceLike, List.isEmpty_iff.1 isBlank]
  rfl

/-- White space in front of a line does not matter. -/
theorem fenceLike_blank (isBlank : blank part = true) (rest : List Char) :
    fenceLike (part ++ rest) = fenceLike rest := by
  have same : trimStart (part ++ rest) = trimStart rest :=
    dropWhile_white part rest (blank_iff.1 isBlank)
  rw [fenceLike, same]
  rfl

/-- What turns the flag does so whatever follows. -/
theorem fenceLike_append (turns : fenceLike line = true) (rest : List Char) :
    fenceLike (line ++ rest) = true := by
  have some_ : trimStart line ≠ [] := by
    intro nothing
    rw [fenceLike_of_blank (List.isEmpty_iff.2 nothing)] at turns
    cases turns
  have same : trimStart (line ++ rest) = trimStart line ++ rest := by
    unfold trimStart at some_ ⊢
    rw [List.dropWhile_append, if_neg (by simpa using some_)]
  simp only [fenceLike, same, Bool.or_eq_true, List.isPrefixOf_iff_prefix] at turns ⊢
  exact turns.imp (·.trans (List.prefix_append _ _)) (·.trans (List.prefix_append _ _))

@[simp] theorem oddFences_nil : oddFences [] = false := rfl

theorem oddFences_append (lines others : List (List Char)) :
    oddFences (lines ++ others) = (oddFences lines ^^ oddFences others) := by
  have from_ : ∀ (others : List (List Char)) (odd : Bool),
      others.foldl (fun odd line => odd ^^ fenceLike line) odd = (odd ^^ oddFences others) := by
    intro others
    induction others with
    | nil => exact fun odd => (Bool.xor_false odd).symm
    | cons line others ih =>
        intro odd
        rw [oddFences, List.foldl_cons, List.foldl_cons, ih, ih, Bool.false_xor, Bool.xor_assoc]
  rw [oddFences, List.foldl_append, from_]
  rfl

@[simp] theorem oddFences_singleton (line : List Char) : oddFences [line] = fenceLike line :=
  Bool.false_xor _

/-! ## The scanner -/

/-- **A boundary is behind a line where the flag is not set**, which turned it or is blank. -/
theorem scanLines_some {inFence : Bool} {lastBoundary : Option Nat} {offset stop : Nat}
    (found : scanLines inFence lastBoundary offset lines = some stop) :
    lastBoundary = some stop ∨ ∃ earlier line later, lines = earlier ++ line :: later ∧
      stop = offset + byteLen (earlier.flatten ++ line) ∧
      (inFence ^^ oddFences (earlier ++ [line])) = false ∧
      (fenceLike line = true ∨ blank line = true) := by
  induction lines generalizing inFence lastBoundary offset with
  | nil => exact .inl found
  | cons line lines ih =>
      -- What is found behind this line is found behind it.
      have later : ∀ {turned : Bool} {kept : Option Nat}, turned = (inFence ^^ fenceLike line) →
          scanLines turned kept (offset + byteLen line) lines = some stop →
          kept = some stop ∨ ∃ earlier next later, line :: lines = earlier ++ next :: later ∧
            stop = offset + byteLen (earlier.flatten ++ next) ∧
            (inFence ^^ oddFences (earlier ++ [next])) = false ∧
            (fenceLike next = true ∨ blank next = true) := by
        rintro turned kept rfl found
        obtain kept | ⟨earlier, next, later, rfl, isStop, flag, safe⟩ := ih found
        · exact .inl kept
        · refine .inr ⟨line :: earlier, next, later, rfl, ?_, ?_, safe⟩
          · rw [isStop, List.flatten_cons, List.append_assoc, byteLen_append line]
            omega
          · rw [List.cons_append, ← List.singleton_append, oddFences_append, oddFences_singleton,
              ← Bool.xor_assoc]
            exact flag
      have here : (inFence ^^ fenceLike line) = false →
          (fenceLike line = true ∨ blank line = true) → some (offset + byteLen line) = some stop →
          ∃ earlier next later, line :: lines = earlier ++ next :: later ∧
            stop = offset + byteLen (earlier.flatten ++ next) ∧
            (inFence ^^ oddFences (earlier ++ [next])) = false ∧
            (fenceLike next = true ∨ blank next = true) := by
        intro flag safe isStop
        exact ⟨[], line, lines, rfl, (Option.some_inj.1 isStop).symm, by simpa using flag, safe⟩
      rw [scanLines] at found
      split at found
      · rename_i turns
        obtain kept | found := later (by rw [turns]; simp) found
        · split at kept
          · rename_i isIn
            exact .inr (here (by rw [isIn, turns]; rfl) (.inl turns) kept)
          · exact .inl kept
        · exact .inr found
      · rename_i stays
        have stays : fenceLike line = false := Bool.eq_false_iff.2 stays
        have same : inFence = (inFence ^^ fenceLike line) := by rw [stays, Bool.xor_false]
        split at found
        · exact later same found
        · rename_i isOut
          split at found
          · rename_i isBlank
            obtain kept | found := later same found
            · exact .inr (here (by rw [← same]; exact Bool.eq_false_iff.2 isOut) (.inr isBlank) kept)
            · exact .inr found
          · exact later same found

/-- What a push does. -/
inductive Pushed (pending : List Char) : List Char × Option (List Char) → Prop
  | waits : Pushed pending (pending, none)
  | ready {earlier : List (List Char)} {line : List Char} {later : List (List Char)}
      (parts : splitInclusive '\n' pending = earlier ++ line :: later)
      (flag : oddFences (earlier ++ [line]) = false)
      (safe : fenceLike line = true ∨ blank line = true) :
      Pushed pending (later.flatten, some (earlier.flatten ++ line))

/-- **No push slices off a boundary.** -/
theorem push_pushed (pending delta : List Char) :
    ∃ next, push pending delta = some next ∧ Pushed (pending ++ delta) next := by
  unfold push
  dsimp only
  cases found : findStreamSafeBoundary (pending ++ delta) with
  | none => exact ⟨_, rfl, .waits⟩
  | some split =>
      obtain kept | ⟨earlier, line, later, parts, rfl, flag, safe⟩ := scanLines_some found
      · cases kept
      have whole : pending ++ delta = [] ++ (earlier.flatten ++ line) ++ later.flatten := by
        have flat := flatten_splitInclusive (pending ++ delta)
        rw [parts, List.flatten_append, List.flatten_cons] at flat
        rw [← flat, List.nil_append, List.append_assoc]
      have cut := upTo_append (earlier.flatten ++ line) later.flatten
      have drained := drain_append [] (earlier.flatten ++ line) later.flatten
      rw [← List.nil_append (earlier.flatten ++ line), ← whole, List.nil_append] at cut
      rw [← whole, byteLen_nil, Nat.zero_add, List.nil_append] at drained
      rw [Bool.false_xor] at flag
      dsimp only
      rw [Nat.zero_add, cut, Option.bind_eq_bind, Option.bind_some, drained]
      exact ⟨_, rfl, .ready parts flag safe⟩

theorem Pushed.parts {next : List Char × Option (List Char)} (pushed : Pushed pending next) :
    pending = next.2.toList.flatten ++ next.1 := by
  cases pushed with
  | waits => rfl
  | ready parts _ _ =>
      have flat := flatten_splitInclusive pending
      rw [parts, List.flatten_append, List.flatten_cons] at flat
      rw [← flat, Option.toList_some, List.flatten_singleton, List.append_assoc]

/-! ## Cuts -/

/-- A cut of a text behind an even number of lines that turn the flag, or in the white space
at the end of the second of two. -/
def SafeCut (before after : List Char) : Prop :=
  ∃ whole part, before = whole ++ part ∧ Ended whole ∧ '\n' ∉ part ∧
    (oddFences (splitInclusive '\n' whole) = false ∧ blank part = true ∨
      oddFences (splitInclusive '\n' whole) = true ∧ fenceLike part = true ∧
        blank (restOfLine after) = true)

theorem safeCut_start (text : List Char) : SafeCut [] text :=
  ⟨[], [], rfl, .inl rfl, nofun, .inl ⟨rfl, rfl⟩⟩

/-- A cut behind whole lines. -/
theorem safeCut_ended (ended : Ended before)
    (flag : oddFences (splitInclusive '\n' before) = false) : SafeCut before after :=
  ⟨before, [], (List.append_nil _).symm, ended, nofun, .inl ⟨flag, rfl⟩⟩

/-- The line behind a cut turns the flag of the text as it does that of what is pending. -/
theorem safeCut_line (cut : SafeCut before (line ++ after)) (isWhole : IsWhole line) :
    Ended (before ++ line) ∧ oddFences (splitInclusive '\n' (before ++ line)) = fenceLike line := by
  refine ⟨isWhole.ended before, ?_⟩
  obtain ⟨whole, part, rfl, ended, isLine, cut⟩ := cut
  have both : IsWhole (part ++ line) := by
    obtain ⟨text, isText, rfl⟩ := isWhole
    exact ⟨part ++ text, by simp [isLine, isText], (List.append_assoc ..).symm⟩
  have split := splitInclusive_whole both []
  rw [List.append_nil, splitInclusive_nil] at split
  rw [List.append_assoc, splitInclusive_append ended, split, oddFences_append, oddFences_singleton]
  obtain ⟨flag, isBlank⟩ | ⟨flag, turns, isBlank⟩ := cut
  · rw [flag, fenceLike_blank isBlank, Bool.false_xor]
  · rw [restOfLine_whole isWhole] at isBlank
    rw [flag, fenceLike_append turns, fenceLike_of_blank isBlank]
    rfl

theorem safeCut_lines (cut : SafeCut before (lines.flatten ++ after))
    (all : ∀ line ∈ lines, IsWhole line) (some_ : lines ≠ []) :
    Ended (before ++ lines.flatten) ∧
      oddFences (splitInclusive '\n' (before ++ lines.flatten)) = oddFences lines := by
  obtain ⟨first, others, rfl⟩ := List.exists_cons_of_ne_nil some_
  obtain ⟨isWhole, all⟩ := List.forall_mem_cons.1 all
  rw [List.flatten_cons, List.append_assoc] at cut
  obtain ⟨ended, flag⟩ := safeCut_line cut isWhole
  have split := splitInclusive_wholes all []
  rw [List.append_nil, splitInclusive_nil, List.append_nil] at split
  rw [List.flatten_cons, ← List.append_assoc, splitInclusive_append ended, oddFences_append, flag,
    split]
  refine ⟨?_, by rw [← List.singleton_append, oddFences_append, oddFences_singleton]⟩
  obtain rfl | ⟨front, last, rfl⟩ := List.eq_nil_or_concat' others
  · rwa [List.flatten_nil, List.append_nil]
  · rw [List.flatten_append, List.flatten_singleton, ← List.append_assoc]
    exact (all last (by simp)).ended _

theorem lastLine_append (isLine : '\n' ∉ part) (ended : Ended before) :
    wholeLines (before ++ part) = before ∧ lastLine (before ++ part) = part := by
  have inLine : ∀ c ∈ part.reverse, decide (c ≠ '\n') = true := by
    intro c member
    rw [decide_eq_true_eq]
    rintro rfl
    exact isLine (List.mem_reverse.1 member)
  unfold wholeLines lastLine
  rw [List.reverse_append, List.dropWhile_append_of_pos inLine, List.takeWhile_append_of_pos inLine]
  obtain rfl | ⟨front, rfl⟩ := ended
  · simp
  · rw [List.reverse_append, List.reverse_singleton, List.singleton_append,
      List.dropWhile_cons_of_neg (by simp), List.takeWhile_cons_of_neg (by simp)]
    simp

/-- **What is rendered ends at a safe cut.** -/
theorem SafeCut.pushed (cut : SafeCut before (pending ++ future))
    (apart : CutApart (before ++ pending) future)
    (parts : splitInclusive '\n' pending = lines ++ line :: others)
    (flag : oddFences (lines ++ [line]) = false)
    (safe : fenceLike line = true ∨ blank line = true) :
    SafeCut (before ++ (lines.flatten ++ line)) (others.flatten ++ future) := by
  have flat := flatten_splitInclusive pending
  rw [parts, List.flatten_append, List.flatten_cons] at flat
  obtain ⟨all, isWhole | ⟨isLine, rfl⟩⟩ := splitInclusive_parts parts
  · have cut' : SafeCut before ((lines ++ [line]).flatten ++ (others.flatten ++ future)) := by
      rw [List.flatten_append, List.flatten_singleton, ← List.append_assoc, List.append_assoc _ line,
        flat]
      exact cut
    have allWhole : ∀ other ∈ lines ++ [line], IsWhole other :=
      List.forall_mem_append.2 ⟨all, List.forall_mem_singleton.2 isWhole⟩
    obtain ⟨ended, same⟩ := safeCut_lines cut' allWhole (by simp)
    rw [List.flatten_append, List.flatten_singleton] at ended same
    exact safeCut_ended ended (same.trans flag)
  · rw [List.flatten_nil, List.append_nil] at flat
    rw [List.flatten_nil, List.nil_append]
    rw [oddFences_append, oddFences_singleton] at flag
    by_cases nothing : lines = []
    · subst nothing
      rw [List.flatten_nil, List.nil_append] at flat ⊢
      rw [oddFences_nil, Bool.false_xor] at flag
      have isBlank : blank line = true := safe.resolve_left (by rw [flag]; nofun)
      obtain ⟨whole, part, rfl, ended, isPart, cut⟩ := cut
      refine ⟨whole, part ++ line, List.append_assoc .., ended, by simp [isPart, isLine], ?_⟩
      obtain ⟨even, isBlankPart⟩ | ⟨odd, turns, isBlankRest⟩ := cut
      · exact .inl ⟨even, blank_append.2 ⟨isBlankPart, isBlank⟩⟩
      · rw [← flat, restOfLine_part isLine, blank_append] at isBlankRest
        exact .inr ⟨odd, fenceLike_append turns line, isBlankRest.2⟩
    · have cut' : SafeCut before (lines.flatten ++ (line ++ future)) := by
        rw [← List.append_assoc, flat]
        exact cut
      obtain ⟨ended, same⟩ := safeCut_lines cut' all nothing
      refine ⟨before ++ lines.flatten, line, (List.append_assoc ..).symm, ended, isLine, ?_⟩
      rw [← flat, ← List.append_assoc] at apart
      obtain ⟨isBefore, isLast⟩ := lastLine_append isLine ended
      unfold CutApart at apart
      rw [isBefore, isLast, same] at apart
      rw [same]
      obtain turns | isBlank := safe
      · rw [turns, Bool.xor_true, Bool.not_eq_false'] at flag
        exact .inr ⟨flag, turns, apart flag turns⟩
      · rw [fenceLike_of_blank isBlank, Bool.xor_false] at flag
        exact .inl ⟨flag, isBlank⟩

/-! ## Safe cuts and fences -/

/-- Appending what a test rejects at once leaves the first part of a text as it was. -/
theorem takeWhile_append_stop {p : Char → Bool} (text more : List Char)
    (stop : (∃ c ∈ text, p c = false) ∨ ∀ c, more.head? = some c → p c = false) :
    (text ++ more).takeWhile p = text.takeWhile p ∧
      (text ++ more).dropWhile p = text.dropWhile p ++ more := by
  induction text with
  | nil =>
      obtain ⟨c, member, -⟩ | stop := stop
      · cases member
      · cases more with
        | nil => exact ⟨rfl, rfl⟩
        | cons c more =>
            have rejected := stop c rfl
            simp [rejected]
  | cons c text ih =>
      by_cases accepted : p c = true
      · have later : (∃ c ∈ text, p c = false) ∨ ∀ c, more.head? = some c → p c = false := by
          refine stop.imp_left fun rejected => ?_
          obtain ⟨d, member, rejected⟩ := rejected
          obtain rfl | member := List.mem_cons.1 member
          · rw [accepted] at rejected
            cases rejected
          · exact ⟨d, member, rejected⟩
        obtain ⟨taken, dropped⟩ := ih later
        simp [accepted, taken, dropped]
      · simp [accepted]

theorem marker_solid (marker : Marker) {c : Char} (white : isWhitespace c = true) :
    (c == marker.char) = false := by
  rw [beq_eq_false_iff_ne]
  rintro rfl
  cases marker <;> exact absurd white (by decide)

/-- White space behind a line with something in it does not change which fence it closes. -/
theorem closes_append_blank (fence : Fence) (some_ : blank line = false)
    (isBlank : blank rest = true) : fence.closes (line ++ rest) = fence.closes line := by
  have solid : ∃ c ∈ line, (c == ' ') = false := by
    by_contra all
    have spaces : ∀ c ∈ line, isWhitespace c = true := by
      intro c member
      by_contra notWhite
      refine all ⟨c, member, ?_⟩
      rw [beq_eq_false_iff_ne]
      rintro rfl
      exact notWhite rfl
    rw [blank_iff.2 spaces] at some_
    cases some_
  obtain ⟨indent, behind⟩ := takeWhile_append_stop line rest (.inl solid)
  have stops : ∀ c, rest.head? = some c → (c == fence.marker.char) = false := fun c first =>
    marker_solid fence.marker (blank_iff.1 isBlank c (List.mem_of_head? first))
  unfold Fence.closes unindented
  rw [indent, behind]
  by_cases near : (line.takeWhile (· == ' ')).length ≤ 3
  · obtain ⟨taken, dropped⟩ := takeWhile_append_stop (line.dropWhile (· == ' ')) rest (.inr stops)
    have white : rest.all isWhitespace = true := List.all_eq_true.2 (blank_iff.1 isBlank)
    rw [if_pos near, if_pos near]
    simp only [markers, taken, dropped, List.all_append, white, Bool.and_true]
    rfl
  · rw [if_neg near, if_neg near]

/-- **At a safe cut of a text whose flag knows there is no open fence.** -/
theorem SafeCut.outside (cut : SafeCut before after) (knows : FlagKnows (before ++ after)) :
    insideFence before after = false := by
  obtain ⟨whole, part, rfl, ended, isLine, cut⟩ := cut
  obtain ⟨isWhole, isPart⟩ := lastLine_append isLine ended
  have split := splitInclusive_append ended (part ++ after)
  rw [← List.append_assoc] at split
  unfold insideFence
  rw [isWhole, isPart]
  obtain ⟨even, isBlank⟩ | ⟨odd, turns, isBlank⟩ := cut
  · rw [knows _ _ split even, isBlank]
    exact Bool.and_false _
  · have some_ : part ++ after ≠ [] := by
      intro nothing
      rw [(List.append_eq_nil_iff.1 nothing).1] at turns
      cases turns
    have notBlank : blank part = false := by
      rw [← Bool.not_eq_true]
      intro isBlankPart
      rw [fenceLike_of_blank isBlankPart] at turns
      cases turns
    rw [splitInclusive_part isLine some_, ← List.singleton_append, ← List.append_assoc] at split
    -- Behind the line of the cut the flag is not set, so its fence is not open.
    have closed := knows _ _ split (by
      rw [oddFences_append, oddFences_singleton, odd, fenceLike_append turns]
      rfl)
    rw [fenceState, List.foldl_append, List.foldl_cons, List.foldl_nil, ← fenceState] at closed
    cases state : fenceState (splitInclusive '\n' whole) with
    | none =>
        rw [state] at closed
        have unopened : openingFence (part ++ restOfLine after) = none := closed
        rw [unopened]
        rfl
    | some fence =>
        rw [state, fenceStep] at closed
        split at closed
        · rename_i closes
          rw [closes_append_blank fence notBlank isBlank] at closes
          simp [closes, isBlank]
        · cases closed

/-! ## Whole streams -/

theorem flush_parts (pending : List Char) :
    ∃ white, blank white = true ∧ (flush pending).toList.flatten ++ white = pending := by
  unfold flush
  split
  · rename_i nothing
    refine ⟨pending, blank_iff.2 ?_, rfl⟩
    exact trimEnd_eq_nil.1 (trim_eq_nil.1 nothing)
  · exact ⟨[], rfl, by simp⟩

/-- **Every text is rendered, but for white space at its end.** -/
theorem renderedFrom_parts (pending : List Char) (deltas : List (List Char)) :
    ∃ pieces, renderedFrom pending deltas = some pieces ∧
      ∃ white, blank white = true ∧ pieces.flatten ++ white = pending ++ deltas.flatten := by
  induction deltas generalizing pending with
  | nil =>
      obtain ⟨white, isBlank, parts⟩ := flush_parts pending
      exact ⟨_, rfl, white, isBlank, by rw [parts, List.flatten_nil, List.append_nil]⟩
  | cons delta deltas ih =>
      obtain ⟨⟨next, ready⟩, pushes, pushed⟩ := push_pushed pending delta
      obtain ⟨pieces, renders, white, isBlank, parts⟩ := ih next
      refine ⟨ready.toList ++ pieces, ?_, white, isBlank, ?_⟩
      · rw [renderedFrom, pushes, Option.bind_eq_bind, Option.bind_some]
        dsimp only
        rw [renders]
        rfl
      · rw [List.flatten_append, List.append_assoc, parts, ← List.append_assoc, List.flatten_cons,
          ← List.append_assoc, pushed.parts]

/-- **Every piece but the last ends at a safe cut.** -/
theorem renderedFrom_cuts {pieces : List (List Char)} {deltas : List (List Char)}
    (cut : SafeCut before (pending ++ deltas.flatten))
    (apart : ∀ earlier later, deltas = earlier ++ later →
      CutApart (before ++ pending ++ earlier.flatten) later.flatten)
    (renders : renderedFrom pending deltas = some pieces) {earlier later : List (List Char)}
    (split : pieces = earlier ++ later) (more : later ≠ [])
    (parts : pending ++ deltas.flatten = earlier.flatten ++ rest) :
    SafeCut (before ++ earlier.flatten) rest := by
  induction deltas generalizing before pending pieces earlier with
  | nil =>
      have short : pieces.length ≤ 1 := by
        cases renders
        exact Option.length_toList_le
      have none_ : earlier = [] := by
        have positive := List.length_pos_iff.2 more
        rw [split, List.length_append] at short
        exact List.length_eq_zero_iff.1 (by omega)
      subst none_
      rw [List.flatten_nil, List.nil_append] at parts
      rw [List.flatten_nil, List.append_nil, ← parts]
      exact cut
  | cons delta deltas ih =>
      obtain ⟨⟨next, ready⟩, pushes, pushed⟩ := push_pushed pending delta
      rw [List.flatten_cons, ← List.append_assoc] at parts cut
      rw [renderedFrom, pushes, Option.bind_eq_bind, Option.bind_some] at renders
      obtain ⟨pieces', renders', same⟩ := Option.bind_eq_some_iff.1 renders
      cases same
      have later_ : ∀ earlier later, deltas = earlier ++ later →
          CutApart (before ++ (pending ++ delta) ++ earlier.flatten) later.flatten := by
        intro earlier later same
        have here := apart (delta :: earlier) later (by rw [same]; rfl)
        rwa [List.flatten_cons, ← List.append_assoc, List.append_assoc before] at here
      cases pushed with
      | waits => exact ih cut later_ renders' split parts
      | ready linesOf flag safe =>
          rename_i lines line others
          have whole := (Pushed.ready linesOf flag safe).parts
          rw [Option.toList_some, List.flatten_singleton] at whole
          cases earlier with
          | nil =>
              rw [List.flatten_nil, List.nil_append] at parts
              rw [List.flatten_nil, List.append_nil, ← parts]
              exact cut
          | cons piece earlier =>
              obtain ⟨rfl, split'⟩ := List.cons.inj split
              have here := later_ [] deltas rfl
              rw [List.flatten_nil, List.append_nil] at here
              have cut' := cut.pushed here linesOf flag safe
              have later' : ∀ earlier later, deltas = earlier ++ later →
                  CutApart (before ++ (lines.flatten ++ line) ++ others.flatten ++ earlier.flatten)
                    later.flatten := by
                intro earlier later same
                have here := later_ earlier later same
                rwa [whole, ← List.append_assoc before] at here
              rw [whole, List.append_assoc (lines.flatten ++ line), List.flatten_cons,
                List.append_assoc (lines.flatten ++ line)] at parts
              rw [List.flatten_cons, ← List.append_assoc]
              exact ih cut' later' renders' split' (List.append_cancel_left parts)

/-- **A stream of markdown.**  Whatever its parts, every piece is rendered and nothing is lost
but white space at the end; where the flag knows which fences are open, and no part ends
inside the second of two lines that turn it, blocks are kept whole. -/
theorem markdown_stream_blocks (deltas : List (List Char)) :
    ∃ pieces, rendered deltas = some pieces ∧
      (∃ white, blank white = true ∧ pieces.flatten ++ white = deltas.flatten) ∧
      (FlagKnows deltas.flatten →
        (∀ earlier later, deltas = earlier ++ later → CutApart earlier.flatten later.flatten) →
        KeepsBlocks deltas.flatten pieces) := by
  obtain ⟨pieces, renders, parts⟩ := renderedFrom_parts [] deltas
  refine ⟨pieces, renders, parts, fun knows apart earlier later rest split _ more text => ?_⟩
  have cut := renderedFrom_cuts (safeCut_start _) apart renders split more text
  rw [text] at knows
  exact cut.outside knows

/-- A block of tildes with a fence of backticks inside is rendered before it ends. -/
theorem markdown_stream_cut :
    ∃ pieces, rendered ["~~~\n```\n".toList, "x\n~~~\n".toList] = some pieces ∧
      ¬KeepsBlocks ["~~~\n```\n".toList, "x\n~~~\n".toList].flatten pieces := by
  refine ⟨["~~~\n```\n".toList, "x\n~~~\n".toList], by decide, fun keeps => ?_⟩
  have outside := keeps ["~~~\n```\n".toList] ["x\n~~~\n".toList] "x\n~~~\n".toList rfl nofun nofun
    (by decide)
  exact absurd outside (by decide)

/-- A block of code that is kept whole, though its end comes in two parts. -/
theorem markdown_stream_whole :
    ∃ pieces, rendered [['~', '~', '~', '\n', 'x', '\n', '~'], ['~', '~', '\n', 'y']] = some pieces ∧
      KeepsBlocks ([['~', '~', '~', '\n', 'x', '\n', '~'], ['~', '~', '\n', 'y']] :
        List (List Char)).flatten pieces := by
  obtain ⟨pieces, renders, -, keeps⟩ :=
    markdown_stream_blocks [['~', '~', '~', '\n', 'x', '\n', '~'], ['~', '~', '\n', 'y']]
  refine ⟨pieces, renders, keeps ?_ ?_⟩
  · intro lines rest split even
    have member : lines ∈ (splitInclusive '\n' "~~~\nx\n~~~\ny".toList).inits :=
      (List.mem_inits ..).2 ⟨rest, split.symm⟩
    have all : ∀ lines ∈ (splitInclusive '\n' "~~~\nx\n~~~\ny".toList).inits,
        oddFences lines = false → fenceState lines = none := by decide
    exact all lines member even
  · intro earlier later split
    match earlier, split with
    | [], _ => exact fun odd => absurd odd (by decide)
    | [_], split =>
        cases split
        exact fun _ turns => absurd turns (by decide)
    | [_, _], split =>
        cases split
        exact fun odd => absurd odd (by decide)
    | _ :: _ :: _ :: _, split => exact absurd (congrArg List.length split) (by simp)

end Openyak.Cli
