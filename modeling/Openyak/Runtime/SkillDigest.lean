/-
# Runtime.SkillDigest -- the bytes a package's digest is taken of

Of each file, in the order of their paths, `compute_directory_sha256` feeds the path, a zero
byte and the content to SHA-256, a text's content with unix line ends.  Nothing says where a
content ends: what follows it, up to the next zero byte, may as well be more of it.

So a package with two files has the bytes of one with a single file (`merged`), and a
single file may hold the bytes of a second.  A package's bytes tell it apart exactly if it
has at most one file and that one hides no other (`toldApart_iff`).
-/
import Openyak.Runtime.InstalledFile
import Openyak.Theory.JoinedText
import Openyak.Theory.Utf8Text
import Openyak.Theory.Walks

namespace Openyak.Runtime.SkillDigest

open Openyak.Theory
open Openyak.Theory.DirTree
open Openyak.Theory.Posix (Location Name)
open Openyak.Theory.Utf8Stream (encode)

set_option autoImplicit false

/-! ## Line ends -/

theorem isText_iff {bytes : List UInt8} :
    (fromUtf8 bytes).isSome ↔ ∃ text, bytes = encode text := by
  simp only [Option.isSome_iff_exists, fromUtf8_iff]

/-- `\n` becomes `\r\n`. -/
def dosEnds (bytes : List UInt8) : List UInt8 :=
  bytes.flatMap fun byte => if byte = 0x0A then [0x0D, 0x0A] else [byte]

/-- A byte below 128 that starts a text. -/
theorem head_encode_ascii {code : Nat} (low : code < 128) {text : List Char}
    (starts : (encode text).head? = some (UInt8.ofNat code)) :
    ∃ rest, text = Char.ofNat code :: rest := by
  cases text with
  | nil => cases starts
  | cons c rest =>
      obtain ⟨first, behind, encoded, -⟩ := Utf8Stream.decode_encoded c []
      have isFirst : first = UInt8.ofNat code := by
        have start : (String.utf8EncodeChar c ++ encode rest).head? = some (UInt8.ofNat code) := starts
        rw [encoded] at start
        exact Option.some.inj start
      have inText : UInt8.ofNat code ∈ encode [c] := by
        simp [encode, encoded, isFirst]
      exact ⟨rest, by rw [List.mem_singleton.1 (mem_encode_ascii low inText)]⟩

theorem unixEnds_cons {byte : UInt8} {rest : List UInt8}
    (other : byte ≠ 0x0D ∨ rest.head? ≠ some 0x0A) :
    unixEnds (byte :: rest) = byte :: unixEnds rest := by
  rw [unixEnds]
  rintro tail rfl rfl
  rcases other with notReturn | notFeed
  · exact notReturn rfl
  · exact notFeed rfl

theorem unixEnds_append {bytes : List UInt8} (other : ∀ byte ∈ bytes, byte ≠ 0x0D)
    (rest : List UInt8) : unixEnds (bytes ++ rest) = bytes ++ unixEnds rest := by
  induction bytes with
  | nil => rfl
  | cons byte bytes ih =>
      obtain ⟨first, later⟩ := List.forall_mem_cons.1 other
      rw [List.cons_append, unixEnds_cons (.inl first), ih later, List.cons_append]

/-- A text with unix line ends is a text. -/
theorem unixEnds_encode (text : List Char) : ∃ written, unixEnds (encode text) = encode written := by
  induction text with
  | nil => exact ⟨[], rfl⟩
  | cons c rest ih =>
      obtain ⟨written, isWritten⟩ := ih
      by_cases isReturn : c = '\r'
      · subst isReturn
        rw [encode_cons_ascii (by decide)]
        by_cases feeds : (encode rest).head? = some 0x0A
        · obtain ⟨behind, rfl⟩ := @head_encode_ascii 10 (by decide) _ feeds
          refine ⟨written, ?_⟩
          rw [← isWritten, encode_cons_ascii (by decide)]
          exact (unixEnds_cons (.inl (by decide))).symm
        · refine ⟨'\r' :: written, ?_⟩
          rw [unixEnds_cons (.inr feeds), isWritten, encode_cons_ascii (by decide)]
      · refine ⟨c :: written, ?_⟩
        show unixEnds (String.utf8EncodeChar c ++ encode rest) =
          String.utf8EncodeChar c ++ encode written
        rw [← isWritten]
        apply unixEnds_append
        rintro byte member rfl
        have inText : UInt8.ofNat 13 ∈ encode [c] := by
          simpa [encode] using member
        exact isReturn (List.mem_singleton.1 (mem_encode_ascii (by decide) inText)).symm

/-- **Any bytes are those of a file with dos line ends.** -/
theorem unixEnds_dosEnds (bytes : List UInt8) : unixEnds (dosEnds bytes) = bytes := by
  have head : ∀ bytes, (dosEnds bytes).head? ≠ some 0x0A := by
    intro bytes
    cases bytes with
    | nil => nofun
    | cons byte rest =>
        rw [dosEnds, List.flatMap_cons]
        split
        · exact fun same => absurd (Option.some.inj same) (by decide)
        · rename_i other
          exact fun same => other (Option.some.inj same)
  induction bytes with
  | nil => rfl
  | cons byte rest ih =>
      show unixEnds ((if byte = 0x0A then [0x0D, 0x0A] else [byte]) ++ dosEnds rest) = _
      split
      · rename_i isFeed
        rw [isFeed]
        exact congrArg (0x0A :: ·) ih
      · rw [List.singleton_append, unixEnds_cons (.inr (head rest)), ih]

/-- A character as it is written before it is encoded or after. -/
theorem dosEnds_encode (text : List Char) :
    dosEnds (encode text) =
      encode (text.flatMap fun c => if c = '\n' then ['\r', '\n'] else [c]) := by
  induction text with
  | nil => rfl
  | cons c text ih =>
      have one : dosEnds (String.utf8EncodeChar c) =
          encode (if c = '\n' then ['\r', '\n'] else [c]) := by
        by_cases isFeed : c = '\n'
        · subst isFeed
          decide
        · rw [if_neg isFeed]
          have noFeed : ∀ byte ∈ String.utf8EncodeChar c, byte ≠ 0x0A := by
            rintro byte member rfl
            have inText : UInt8.ofNat 10 ∈ encode [c] := by
              simpa [encode] using member
            have same := mem_encode_ascii (by decide) inText
            exact isFeed (List.mem_singleton.1 same).symm
          have kept : ∀ bytes : List UInt8, (∀ byte ∈ bytes, byte ≠ 0x0A) → dosEnds bytes = bytes := by
            intro bytes others
            induction bytes with
            | nil => rfl
            | cons byte rest ih =>
                obtain ⟨first, later⟩ := List.forall_mem_cons.1 others
                show (if byte = 0x0A then [0x0D, 0x0A] else [byte]) ++ dosEnds rest = _
                rw [if_neg first, ih later]
                rfl
          rw [kept _ noFeed]
          simp [encode]
      show dosEnds (String.utf8EncodeChar c ++ encode text) = _
      rw [List.flatMap_cons, encode_append, ← ih, ← one, dosEnds, List.flatMap_append]
      rfl

/-- **Any bytes are what some file is digested as.** -/
theorem normalize_surjective (bytes : List UInt8) :
    ∃ contents, normalizeTextLineEndingsForDigest contents = bytes := by
  by_cases isText : (fromUtf8 bytes).isSome
  · obtain ⟨text, rfl⟩ := isText_iff.1 isText
    refine ⟨dosEnds (encode text), ?_⟩
    have stays : (fromUtf8 (dosEnds (encode text))).isSome := isText_iff.2 ⟨_, dosEnds_encode text⟩
    rw [normalizeTextLineEndingsForDigest, if_pos stays, unixEnds_dosEnds]
  · exact ⟨bytes, if_neg isText⟩

/-- The same, or two texts that differ in their line ends. -/
def SameContents (a b : List UInt8) : Prop :=
  a = b ∨ (fromUtf8 a).isSome ∧ (fromUtf8 b).isSome ∧ unixEnds a = unixEnds b

/-- **Contents are digested as the same bytes if they differ in line ends only.** -/
theorem sameContents_iff {a b : List UInt8} : SameContents a b ↔
    normalizeTextLineEndingsForDigest a = normalizeTextLineEndingsForDigest b := by
  have text_of : ∀ {x y : List UInt8}, (fromUtf8 x).isSome → unixEnds x = y → (fromUtf8 y).isSome := by
    intro x y isText same
    obtain ⟨text, rfl⟩ := isText_iff.1 isText
    obtain ⟨written, isWritten⟩ := unixEnds_encode text
    exact isText_iff.2 ⟨written, by rw [← same, isWritten]⟩
  unfold SameContents normalizeTextLineEndingsForDigest
  constructor
  · rintro (rfl | ⟨isText, isText', same⟩)
    · rfl
    · rw [if_pos isText, if_pos isText', same]
  · intro same
    by_cases isText : (fromUtf8 a).isSome
    · by_cases isText' : (fromUtf8 b).isSome
      · rw [if_pos isText, if_pos isText'] at same
        exact .inr ⟨isText, isText', same⟩
      · rw [if_pos isText, if_neg isText'] at same
        exact absurd (text_of isText same) isText'
    · by_cases isText' : (fromUtf8 b).isSome
      · rw [if_neg isText, if_pos isText'] at same
        exact absurd (text_of isText' same.symm) isText
      · rw [if_neg isText, if_neg isText'] at same
        exact .inl same

/-! ## Packages -/

/-- A name in a package: no separator, and no zero, which no system has in one. -/
def IsName (name : String) : Prop :=
  IsSegment name ∧ '\\' ∉ name.toList ∧ Char.ofNat 0 ∉ name.toList

/-- A directory without links. -/
structure Package where
  walk : List (Location × Node)
  walked : Walk [] walk
  root : node walk [] = some .directory
  noLinks : ∀ entry ∈ walk, entry.2 ≠ .symlink
  names : ∀ entry ∈ walk, ∀ name ∈ entry.1, IsName name

/-- The content of a file. -/
def contentsAt (package : Package) (location : Location) : Option (List UInt8) :=
  match node package.walk location with
  | some (.file contents) => some contents
  | _ => none

/-- The files, in the order of their paths. -/
def filesOf (package : Package) : List (Location × List UInt8) :=
  (package.walk.filterMap fileOf).insertionSort fun a b => a.1 ≤ b.1

def streamOf (package : Package) : List UInt8 := (filesOf package).flatMap digestInput

/-- The same files, with the same contents up to line ends. -/
def Equivalent (a b : Package) : Prop :=
  ∀ location, Option.Rel SameContents (contentsAt a location) (contentsAt b location)

/-- The bytes of every package are these exactly if it has the same files. -/
def ToldApart (package : Package) : Prop :=
  ∀ other, streamOf package = streamOf other ↔ Equivalent package other

/-! ## The files in their order -/

/-- The files in the order of their paths, each with the bytes that it is digested as. -/
def digested (package : Package) : List (Location × List UInt8) :=
  (filesOf package).map fun file => (file.1, normalizeTextLineEndingsForDigest file.2)

def pathBytes (location : Location) : List UInt8 :=
  encode (Text.replace "\\" "/" ("/".intercalate location).toList)

def bytesOf (files : List (Location × List UInt8)) : List UInt8 :=
  files.flatMap fun file => pathBytes file.1 ++ 0 :: file.2

variable {package other : Package} {location hidden : Location} {contents : List UInt8}
  {name : String}

theorem streamOf_eq (package : Package) : streamOf package = bytesOf (digested package) := by
  rw [bytesOf, digested, List.flatMap_map]
  rfl

theorem contentsAt_iff : contentsAt package location = some contents ↔
    (location, .file contents) ∈ package.walk := by
  rw [Walk.mem_iff package.walked, contentsAt]
  constructor
  · intro held
    split at held
    · rename_i bytes isFile
      rw [isFile, Option.some.inj held]
    · cases held
  · intro held
    rw [held]

theorem mem_filesOf : (location, contents) ∈ filesOf package ↔
    contentsAt package location = some contents := by
  rw [filesOf, List.mem_insertionSort, List.mem_filterMap, contentsAt_iff]
  constructor
  · rintro ⟨⟨where_, found⟩, isEntry, isFile⟩
    cases found with
    | file bytes =>
        obtain ⟨rfl, rfl⟩ := Prod.mk.inj (Option.some.inj isFile)
        exact isEntry
    | directory => cases isFile
    | symlink => cases isFile
  · exact fun held => ⟨(location, .file contents), held, rfl⟩

theorem mem_digested : (location, contents) ∈ digested package ↔
    (contentsAt package location).map normalizeTextLineEndingsForDigest = some contents := by
  rw [digested, List.mem_map, Option.map_eq_some_iff]
  constructor
  · rintro ⟨⟨where_, raw⟩, isFile, same⟩
    obtain ⟨rfl, rfl⟩ := Prod.mk.inj same
    exact ⟨raw, mem_filesOf.1 isFile, rfl⟩
  · rintro ⟨raw, held, rfl⟩
    exact ⟨(location, raw), mem_filesOf.2 held, rfl⟩

/-- No path stands twice. -/
theorem digested_ordered (package : Package) : (digested package).Pairwise fun a b => a.1 < b.1 := by
  rw [digested, List.pairwise_map]
  have sorted : (filesOf package).Pairwise fun a b => a.1 ≤ b.1 :=
    List.pairwise_insertionSort _ _
  have apart : (package.walk.filterMap fileOf).Pairwise fun a b => a.1 ≠ b.1 := by
    have sameLocation : ∀ {entry file}, fileOf entry = some file → file.1 = entry.1 := by
      rintro ⟨where_, found⟩ file isFile
      cases found with
      | file bytes => rw [← Option.some.inj isFile]
      | directory => cases isFile
      | symlink => cases isFile
    refine (Walk.distinct package.walked).filterMap fileOf ?_
    intro entry entry' different file isFile file' isFile'
    rw [sameLocation isFile, sameLocation isFile']
    exact different
  have apart' : (filesOf package).Pairwise fun a b => a.1 ≠ b.1 :=
    ((List.perm_insertionSort _ _).pairwise_iff fun different => different.symm).2 apart
  exact (sorted.and apart').imp fun both => lt_of_le_of_ne both.1 both.2

theorem digested_eq {files : List (Location × List UInt8)}
    (ordered : files.Pairwise fun a b => a.1 < b.1)
    (held : ∀ location contents, (location, contents) ∈ files ↔
      (contentsAt package location).map normalizeTextLineEndingsForDigest = some contents) :
    digested package = files := by
  have irreflexive : Std.Irrefl fun a b : Location × List UInt8 => a.1 < b.1 :=
    ⟨fun a => lt_irrefl a.1⟩
  apply List.Pairwise.eq_of_mem_iff (digested_ordered package) ordered
  rintro ⟨location, contents⟩
  rw [mem_digested, held]

/-- **Packages with the same files are digested as the same, and no others are.** -/
theorem equivalent_iff : Equivalent package other ↔ digested package = digested other := by
  have pointwise : ∀ a b : Option (List UInt8), Option.Rel SameContents a b ↔
      a.map normalizeTextLineEndingsForDigest = b.map normalizeTextLineEndingsForDigest := by
    intro a b
    cases a <;> cases b <;> simp [sameContents_iff, Option.rel_some_some, Option.rel_none_none]
  unfold Equivalent
  simp only [pointwise]
  constructor
  · intro same
    apply digested_eq (digested_ordered other)
    intro location contents
    rw [mem_digested, same]
  · intro same location
    ext contents
    show _ = some contents ↔ _ = some contents
    rw [← mem_digested, same, mem_digested]

/-! ## Paths -/

/-- The characters of a path are those of its names, and separators. -/
theorem mem_path {c : Char} (member : c ∈ ("/".intercalate location).toList) :
    c = '/' ∨ ∃ name ∈ location, c ∈ name.toList := by
  rw [String.toList_intercalate] at member
  rcases JoinedText.mem_intercalate member with isSeparator | ⟨part, isPart, inPart⟩
  · exact .inl isSeparator
  · obtain ⟨name, isName, rfl⟩ := List.mem_map.1 isPart
    exact .inr ⟨name, isName, inPart⟩

theorem pathBytes_eq (names : ∀ name ∈ location, IsName name) :
    pathBytes location = encode (List.intercalate ['/'] (location.map String.toList)) := by
  have noBackslash : ∀ c ∈ ("/".intercalate location).toList, c ≠ '\\' := by
    rintro c member rfl
    rcases mem_path member with isSeparator | ⟨name, isName, inName⟩
    · exact absurd isSeparator (by decide)
    · exact (names name isName).2.1 inName
  have kept : ∀ text : List Char, (∀ c ∈ text, c ≠ '\\') →
      (text.flatMap fun c => if c = '\\' then "/".toList else [c]) = text := by
    intro text others
    rw [List.flatMap_congr fun c member => if_neg (others c member), List.flatMap_singleton']
  rw [pathBytes, @JoinedText.replace_char "\\" '\\' (by decide), kept _ noBackslash,
    String.toList_intercalate]
  rfl

theorem zero_notMem_pathBytes (names : ∀ name ∈ location, IsName name) :
    (0 : UInt8) ∉ pathBytes location := by
  rw [pathBytes_eq names]
  intro member
  have inPath := @mem_encode_ascii 0 (by decide) _ member
  rcases JoinedText.mem_intercalate inPath with isSeparator | ⟨part, isPart, inPart⟩
  · exact absurd isSeparator (by decide)
  · obtain ⟨name, isName, rfl⟩ := List.mem_map.1 isPart
    exact (names name isName).2.2 inPart

/-- **A path is known by its bytes.** -/
theorem pathBytes_inj {path path' : Location} (names : ∀ name ∈ path, IsName name)
    (names' : ∀ name ∈ path', IsName name) (some_ : path ≠ []) (some' : path' ≠ [])
    (same : pathBytes path = pathBytes path') : path = path' := by
  rw [pathBytes_eq names, pathBytes_eq names'] at same
  have texts : List.intercalate ['/'] (path.map String.toList) =
      List.intercalate ['/'] (path'.map String.toList) := by
    rw [← fromUtf8Lossy_encode (List.intercalate _ _), same, fromUtf8Lossy_encode]
  have noSeparator : ∀ {location : Location}, (∀ name ∈ location, IsName name) →
      ∀ part ∈ location.map String.toList, '/' ∉ part := by
    intro location names part isPart
    obtain ⟨name, isName, rfl⟩ := List.mem_map.1 isPart
    exact (names name isName).1.2.1
  have parts := JoinedText.intercalate_inj (noSeparator names) (noSeparator names')
    (by simpa using some_) (by simpa using some') texts
  exact List.map_injective_iff.2 (fun _ _ => String.toList_inj.1) parts

/-! ## Files that are added -/

theorem path_spec (isFile : (location, contents) ∈ digested package) :
    location ≠ [] ∧ ∀ name ∈ location, IsName name := by
  obtain ⟨raw, held, -⟩ := Option.map_eq_some_iff.1 (mem_digested.1 isFile)
  have isEntry := contentsAt_iff.1 held
  refine ⟨?_, package.names _ isEntry⟩
  rintro rfl
  have isRoot := (Walk.mem_iff package.walked).1 isEntry
  rw [package.root] at isRoot
  cases isRoot

/-- A file can be added where nothing stands and no file is above. -/
theorem exists_grown (package : Package) (names : ∀ name ∈ location, IsName name)
    (absent : node package.walk location = none)
    (free : ∀ above, above <+: location → ∀ found, node package.walk above = some found →
      found = .directory) (contents : List UInt8) :
    ∃ grown : Package, ∀ p, node grown.walk p = if p = location then some (.file contents)
      else (node package.walk p).or (if p <+: location.dropLast then some .directory else none) := by
  have inWhole : location.dropLast <+: location := List.dropLast_prefix location
  have notRoot : location ≠ [] := by
    rintro rfl
    rw [package.root] at absent
    cases absent
  obtain ⟨walked, nodes⟩ := dirsTo_spec package.walked location.dropLast
    fun above isAbove => free above (isAbove.trans inWhole)
  have absent' : node (dirsTo package.walk location.dropLast) location = none := by
    rw [nodes, absent, if_neg, Option.none_or]
    intro isAbove
    have longer := isAbove.length_le
    have some_ := List.length_pos_iff.2 notRoot
    rw [List.length_dropLast] at longer
    omega
  have grownNode := Walk.node_snoc (location, .file contents) absent'
  have isNew : ∀ entry ∈ dirsTo package.walk location.dropLast,
      entry ∈ package.walk ∨ entry.2 = .directory ∧ entry.1 <+: location.dropLast := by
    intro entry isEntry
    have held := (Walk.mem_iff walked).1 isEntry
    rw [nodes] at held
    rcases Option.or_eq_some_iff.1 held with before | ⟨-, isDirectory⟩
    · exact .inl ((Walk.mem_iff package.walked).2 before)
    · split at isDirectory
      · rename_i isAbove
        exact .inr ⟨(Option.some.inj isDirectory).symm, isAbove⟩
      · cases isDirectory
  let grown : Package := {
    walk := dirsTo package.walk location.dropLast ++ [(location, .file contents)]
    walked := by
      refine Walk.snoc_iff.2 ⟨walked, absent', fun above isAbove other => ?_⟩
      have higher : above <+: location.dropLast := by
        rw [← List.dropLast_append_getLast notRoot] at isAbove other
        exact (List.prefix_concat_iff.1 isAbove).resolve_left other
      rw [List.nil_append, nodes, if_pos higher]
      cases isFound : node package.walk above with
      | none => rfl
      | some found =>
          rw [free above isAbove found isFound]
          rfl
    root := by
      rw [grownNode, if_neg (Ne.symm notRoot), nodes, package.root]
      rfl
    noLinks := by
      intro entry isEntry
      rcases List.mem_append.1 isEntry with before | isLast
      · rcases isNew entry before with old | ⟨isDirectory, -⟩
        · exact package.noLinks entry old
        · rw [isDirectory]
          nofun
      · rw [List.mem_singleton.1 isLast]
        nofun
    names := by
      intro entry isEntry
      rcases List.mem_append.1 isEntry with before | isLast
      · rcases isNew entry before with old | ⟨-, isAbove⟩
        · exact package.names entry old
        · exact fun name isName => names name ((isAbove.trans inWhole).subset isName)
      · rw [List.mem_singleton.1 isLast]
        exact names }
  refine ⟨grown, fun p => ?_⟩
  show node (dirsTo package.walk location.dropLast ++ [(location, .file contents)]) p = _
  rw [grownNode, nodes]

theorem contentsAt_grown {grown : Package} {above : Location}
    (nodes : ∀ p, node grown.walk p = if p = location then some (.file contents)
      else (node package.walk p).or (if p <+: above then some .directory else none))
    (p : Location) :
    contentsAt grown p = if p = location then some contents else contentsAt package p := by
  unfold contentsAt
  rw [nodes]
  by_cases here : p = location
  · rw [if_pos here, if_pos here]
  · rw [if_neg here, if_neg here]
    cases node package.walk p with
    | some found => rfl
    | none =>
        rw [Option.none_or]
        by_cases isAbove : p <+: above
        · rw [if_pos isAbove]
        · rw [if_neg isAbove]

/-! ## Packages with few files -/

/-- The path of another file, a zero and its content, in a content. -/
def HidesFile (location : Location) (contents : List UInt8) : Prop :=
  ∃ front hidden behind, contents = front ++ (pathBytes hidden ++ 0 :: behind) ∧
    (∀ name ∈ hidden, IsName name) ∧ location < hidden ∧ ¬location <+: hidden

/-- At most one file, and none that hides another. -/
def Plain (package : Package) : Prop :=
  (digested package).length ≤ 1 ∧ ∀ file ∈ digested package, ¬HidesFile file.1 file.2

theorem bytesOf_cons (file : Location × List UInt8) (files : List (Location × List UInt8)) :
    bytesOf (file :: files) = pathBytes file.1 ++ 0 :: (file.2 ++ bytesOf files) := by
  rw [bytesOf, List.flatMap_cons, List.append_assoc, List.cons_append]
  rfl

theorem hidden_of_second {first second : Location × List UInt8}
    {rest : List (Location × List UInt8)} (files : digested package = first :: second :: rest) :
    HidesFile first.1 (first.2 ++ bytesOf (second :: rest)) := by
  have ordered := digested_ordered package
  rw [files] at ordered
  have isSecond : second ∈ digested package := by simp [files]
  refine ⟨first.2, second.1, second.2 ++ bytesOf rest, by rw [bytesOf_cons],
    (path_spec isSecond).2, (List.pairwise_cons.1 ordered).1 second (by simp), ?_⟩
  intro isAbove
  have isFirst : first ∈ digested package := by simp [files]
  obtain ⟨raw, held, -⟩ := Option.map_eq_some_iff.1 (mem_digested.1 isFirst)
  obtain ⟨raw', held', -⟩ := Option.map_eq_some_iff.1 (mem_digested.1 isSecond)
  have isFile := (Walk.mem_iff package.walked).1 (contentsAt_iff.1 held)
  have isFile' := (Walk.mem_iff package.walked).1 (contentsAt_iff.1 held')
  have different : first.1 ≠ second.1 :=
    ne_of_lt ((List.pairwise_cons.1 ordered).1 second (by simp))
  have isDirectory := Walk.above package.walked (by rw [isFile']; rfl) isAbove different
  rw [isFile] at isDirectory
  cases isDirectory

/-- **A plain package's bytes are those of no other.** -/
theorem digested_of_plain (plain : Plain package) (same : streamOf package = streamOf other) :
    digested package = digested other := by
  rw [streamOf_eq, streamOf_eq] at same
  obtain ⟨few, hidesNone⟩ := plain
  match files : digested package, files' : digested other with
  | [], [] => rfl
  | [], second :: rest =>
      rw [files, files', bytesOf_cons] at same
      have nothing := congrArg List.length same
      simp [bytesOf] at nothing
  | first :: rest, [] =>
      rw [files, files', bytesOf_cons] at same
      have nothing := congrArg List.length same
      simp [bytesOf] at nothing
  | first :: second :: rest, _ =>
      rw [files] at few
      simp at few
  | [first], first' :: rest =>
      have isFirst : first ∈ digested package := by simp [files]
      have isFirst' : first' ∈ digested other := by simp [files']
      obtain ⟨some_, names⟩ := path_spec isFirst
      obtain ⟨some', names'⟩ := path_spec isFirst'
      rw [files, files', bytesOf_cons, bytesOf_cons] at same
      obtain ⟨samePath, sameRest⟩ := JoinedText.cut_inj (zero_notMem_pathBytes names)
        (zero_notMem_pathBytes names') same
      have path : first.1 = first'.1 := pathBytes_inj names names' some_ some' samePath
      have whole : first.2 = first'.2 ++ bytesOf rest := by
        rw [← sameRest]
        exact (List.append_nil _).symm
      cases rest with
      | nil =>
          have contents : first.2 = first'.2 := by rw [whole]; exact List.append_nil _
          rw [Prod.ext path contents]
      | cons second rest =>
          have hides := hidden_of_second files'
          rw [← whole, ← path] at hides
          exact absurd hides (hidesNone first isFirst)

def emptyPackage : Package where
  walk := [([], .directory)]
  walked := by simp +contextual [Walk, node]
  root := rfl
  noLinks := by simp
  names := by simp

theorem node_emptyPackage (p : Location) :
    node emptyPackage.walk p = if p = [] then some .directory else none := by
  by_cases isRoot : p = []
  · rw [isRoot]
    rfl
  · rw [if_neg isRoot, emptyPackage, node_cons, if_neg (Ne.symm isRoot)]
    rfl

theorem contentsAt_emptyPackage (p : Location) : contentsAt emptyPackage p = none := by
  rw [contentsAt, node_emptyPackage]
  by_cases isRoot : p = []
  · rw [if_pos isRoot]
  · rw [if_neg isRoot]

/-- **Any content makes a package with one file.** -/
theorem exists_single (some_ : location ≠ []) (names : ∀ name ∈ location, IsName name)
    (raw : List UInt8) : ∃ single : Package,
      digested single = [(location, normalizeTextLineEndingsForDigest raw)] ∧
        (∀ p, contentsAt single p = if p = location then some raw else none) ∧
        ∀ p, p ≠ location → ∀ found, node single.walk p = some found →
          found = .directory ∧ p <+: location := by
  have absent : node emptyPackage.walk location = none := by rw [node_emptyPackage, if_neg some_]
  have onlyDirectories : ∀ p found, node emptyPackage.walk p = some found →
      found = .directory ∧ p = [] := by
    intro p found isFound
    rw [node_emptyPackage] at isFound
    split at isFound
    · rename_i isRoot
      exact ⟨(Option.some.inj isFound).symm, isRoot⟩
    · cases isFound
  obtain ⟨single, nodes⟩ := exists_grown emptyPackage names absent
    (fun above _ found isFound => (onlyDirectories above found isFound).1) raw
  have held : ∀ p, contentsAt single p = if p = location then some raw else none := by
    intro p
    rw [contentsAt_grown nodes, contentsAt_emptyPackage]
  refine ⟨single, ?_, held, ?_⟩
  · apply digested_eq (List.pairwise_singleton _ _)
    intro p contents
    rw [List.mem_singleton, held, Prod.mk.injEq]
    by_cases here : p = location
    · simp [here, eq_comm]
    · simp [here]
  · intro p other found isFound
    rw [nodes, if_neg other] at isFound
    rcases Option.or_eq_some_iff.1 isFound with before | ⟨-, isAbove⟩
    · obtain ⟨isDirectory, isRoot⟩ := onlyDirectories p found before
      exact ⟨isDirectory, isRoot ▸ List.nil_prefix⟩
    · split at isAbove
      · rename_i inParent
        exact ⟨(Option.some.inj isAbove).symm, inParent.trans (List.dropLast_prefix _)⟩
      · cases isAbove

/-- **And any two make one with two**, in the order of their paths. -/
theorem exists_pair (some_ : location ≠ []) (names : ∀ name ∈ location, IsName name)
    (names' : ∀ name ∈ hidden, IsName name) (before : location < hidden)
    (apart : ¬location <+: hidden) (raw raw' : List UInt8) : ∃ pair : Package,
      digested pair = [(location, normalizeTextLineEndingsForDigest raw),
        (hidden, normalizeTextLineEndingsForDigest raw')] := by
  obtain ⟨single, -, held, onlyDirectories⟩ := exists_single some_ names raw
  have absent : node single.walk hidden = none := by
    cases isFound : node single.walk hidden with
    | none => rfl
    | some found =>
        obtain ⟨-, isAbove⟩ := onlyDirectories hidden (ne_of_gt before) found isFound
        exact absurd before (List.not_lt.2 isAbove.le)
  have free : ∀ above, above <+: hidden → ∀ found, node single.walk above = some found →
      found = .directory := by
    intro above isAbove found isFound
    have other : above ≠ location := by
      rintro rfl
      exact apart isAbove
    exact (onlyDirectories above other found isFound).1
  obtain ⟨pair, nodes⟩ := exists_grown single names' absent free raw'
  refine ⟨pair, digested_eq (by simpa using before) ?_⟩
  intro p contents
  rw [contentsAt_grown nodes, held, List.mem_cons, List.mem_singleton, Prod.mk.injEq,
    Prod.mk.injEq]
  by_cases isHidden : p = hidden
  · subst isHidden
    simp [ne_of_gt before, eq_comm]
  · by_cases here : p = location
    · simp [here, ne_of_lt before, eq_comm]
    · simp [here, isHidden]

/-- **The bytes of a package tell it apart exactly if it is plain.** -/
theorem toldApart_iff (package : Package) : ToldApart package ↔ Plain package := by
  constructor
  · intro told
    have isOnly : ∀ other, bytesOf (digested package) = bytesOf (digested other) →
        digested package = digested other := by
      intro other same
      rw [← streamOf_eq, ← streamOf_eq] at same
      exact equivalent_iff.1 ((told other).1 same)
    have few : (digested package).length ≤ 1 := by
      by_contra many
      match files : digested package with
      | [] => simp [files] at many
      | [first] => simp [files] at many
      | first :: second :: rest =>
          have isFirst : (first.1, first.2) ∈ digested package := by simp [files]
          obtain ⟨some_, names⟩ := path_spec isFirst
          obtain ⟨raw, merged⟩ := normalize_surjective (first.2 ++ bytesOf (second :: rest))
          obtain ⟨single, isSingle, -⟩ := exists_single some_ names raw
          have same := isOnly single (by
            rw [files, isSingle, merged, bytesOf_cons, bytesOf_cons]
            simp [bytesOf])
          rw [same, isSingle] at many
          simp at many
    refine ⟨few, ?_⟩
    rintro ⟨location, contents⟩ isFile ⟨front, hidden, behind, isWhole, names', before, apart⟩
    have files : digested package = [(location, contents)] := by
      obtain ⟨only, isOne⟩ := List.length_eq_one_iff.1
        (Nat.le_antisymm few (List.length_pos_of_mem isFile))
      rw [isOne] at isFile ⊢
      rw [List.mem_singleton.1 isFile]
    obtain ⟨some_, names⟩ := path_spec isFile
    obtain ⟨raw, isFront⟩ := normalize_surjective front
    obtain ⟨raw', isBehind⟩ := normalize_surjective behind
    obtain ⟨pair, isPair⟩ := exists_pair some_ names names' before apart raw raw'
    have same := isOnly pair (by
      rw [files, isPair, isFront, isBehind, bytesOf_cons, bytesOf_cons, bytesOf_cons, isWhole]
      simp [bytesOf])
    rw [files, isPair] at same
    simp at same
  · rintro plain other
    rw [equivalent_iff]
    constructor
    · exact digested_of_plain plain
    · intro same
      rw [streamOf_eq, streamOf_eq, same]

instance : Decidable (IsSegment name) := inferInstanceAs (Decidable (_ ∧ _ ∧ _ ∧ _))

instance : Decidable (IsName name) := inferInstanceAs (Decidable (_ ∧ _ ∧ _))

/-- A skill of two files, `x` and `y`. -/
def twoFiles : Package where
  walk := [([], .directory), (["SKILL.md"], .file [0x78]), (["b.md"], .file [0x79])]
  walked := by simp +contextual [Walk, node, List.prefix_cons_iff, or_imp]
  root := rfl
  noLinks := by decide
  names := by decide

/-- One file, with a zero byte in it. -/
def oneFile : Package where
  walk := [([], .directory), (["SKILL.md"], .file (0x78 :: encode "b.md\x00y".toList))]
  walked := by simp +contextual [Walk, node, List.prefix_cons_iff, or_imp]
  root := rfl
  noLinks := by decide
  names := by decide

/-- **Two packages have one digest.** -/
theorem not_toldApart : ¬ToldApart twoFiles := by
  intro told
  have same : streamOf twoFiles = streamOf oneFile := by decide +kernel
  have differ : ¬Option.Rel SameContents (contentsAt twoFiles ["b.md"])
      (contentsAt oneFile ["b.md"]) := by
    rintro ⟨⟩
  exact differ ((told oneFile).1 same ["b.md"])

end Openyak.Runtime.SkillDigest
