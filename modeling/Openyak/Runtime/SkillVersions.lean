/-
# Runtime.SkillVersions -- the order of versions, and the version that is selected

`compare_versions` compares the numbers between the dots.  A version with anything else
between them, a pre-release tag or a number that does not fit, has no numbers: it stands
before all that have, and among its like by its text (`compareVersions_text`).  The order
is total, and between releases it is that of semantic versions (`compareVersions_release`);
between the others it is not.

What is selected is the greatest in this order, wherever it stands in the registry
(`select_newest`).
-/
import Openyak.Runtime.SkillPackages
import Openyak.Theory.JoinedText
import Mathlib.Data.List.Perm.Basic

namespace Openyak.Runtime.SkillVersions

open Openyak.Theory

set_option autoImplicit false

/-! ## Semantic versions -/

/-- A part of a pre-release tag. -/
inductive Identifier where
  | numeric (value : Nat)
  | alphanumeric (text : String)
  deriving DecidableEq, Repr

structure SemanticVersion where
  major : Nat
  minor : Nat
  patch : Nat
  preRelease : List Identifier := []
  deriving DecidableEq, Repr

/-- Numbers by their value and before texts, texts by their characters. -/
def Identifier.precedence : Identifier → Identifier → Ordering
  | .numeric a, .numeric b => compare a b
  | .numeric _, .alphanumeric _ => .lt
  | .alphanumeric _, .numeric _ => .gt
  | .alphanumeric a, .alphanumeric b => compare a b

/-- No tag is behind any tag. -/
def tagPrecedence : List Identifier → List Identifier → Ordering
  | [], [] => .eq
  | [], _ :: _ => .gt
  | _ :: _, [] => .lt
  | a, b => List.compareLex Identifier.precedence a b

def SemanticVersion.precedence (a b : SemanticVersion) : Ordering :=
  (((compare a.major b.major).then (compare a.minor b.minor)).then (compare a.patch b.patch)).then
    (tagPrecedence a.preRelease b.preRelease)

def Identifier.text : Identifier → String
  | .numeric value => toString value
  | .alphanumeric text => text

def SemanticVersion.numbers (version : SemanticVersion) : List Nat :=
  [version.major, version.minor, version.patch]

def SemanticVersion.tag (version : SemanticVersion) : List Char :=
  if version.preRelease = [] then []
  else '-' :: (".".intercalate (version.preRelease.map Identifier.text)).toList

/-- `major.minor.patch`, and the tag behind a `-`. -/
def SemanticVersion.text (version : SemanticVersion) : String :=
  String.ofList (List.intercalate ['.'] (version.numbers.map (Nat.toDigits 10)) ++ version.tag)

/-- No tag, and numbers of 64 bits. -/
def IsRelease (version : SemanticVersion) : Prop :=
  version.preRelease = [] ∧ ∀ number ∈ version.numbers, number < 2 ^ 64

/-! ## Order -/

/-- Every part between the dots is a number of 64 bits. -/
def IsNumeric (value : String) : Prop :=
  ((value.toList.splitOn '.').mapM Decimal.parseU64).isSome

instance {value : String} : Decidable (IsNumeric value) := inferInstanceAs (Decidable (_ = true))

theorem parseVersion_numeric {value : String} {components : List UInt64}
    (parsed : (value.toList.splitOn '.').mapM Decimal.parseU64 = some components) :
    parseVersion value = (components, "") := by
  rw [parseVersion, parsed]

theorem parseVersion_text {value : String} (isText : ¬IsNumeric value) :
    parseVersion value = ([], value) := by
  rw [parseVersion, Option.not_isSome_iff_eq_none.1 isText]

/-- No version has no parts. -/
theorem components_ne_nil {value : String} {components : List UInt64}
    (parsed : (value.toList.splitOn '.').mapM Decimal.parseU64 = some components) :
    components ≠ [] := by
  rintro rfl
  match parts : value.toList.splitOn '.' with
  | [] => exact List.splitOn_ne_nil _ _ parts
  | part :: rest =>
      rw [parts, List.mapM_cons] at parsed
      cases first : Decimal.parseU64 part with
      | none => simp [first] at parsed
      | some component => cases later : rest.mapM Decimal.parseU64 <;> simp [first, later] at parsed

instance : Std.TransCmp compareVersions :=
  inferInstanceAs (Std.TransCmp (compareLex (compareLex
    (compareOn fun version => (parseVersion version).1)
    (compareOn fun version => (parseVersion version).2)) compare))

instance : Std.LawfulEqCmp compareVersions where
  eq_of_compare same := by
    obtain ⟨-, texts⟩ := Ordering.then_eq_eq.1 same
    exact Std.LawfulEqCmp.eq_of_compare texts

/-- **What is no sequence of numbers stands before what is**, and among its like by its text. -/
theorem compareVersions_text {value other : String} (isText : ¬IsNumeric value) :
    compareVersions value other = if IsNumeric other then .lt else compare value other := by
  rw [compareVersions, parseVersion_text isText]
  split
  · rename_i isNumeric
    obtain ⟨components, parsed⟩ := Option.isSome_iff_exists.1 isNumeric
    rw [parseVersion_numeric parsed]
    match components, components_ne_nil parsed with
    | component :: rest, _ => rfl
  · rename_i isText'
    rw [parseVersion_text isText']
    show (compare value other).then (compare value other) = _
    cases compare value other <;> rfl

/-! ## Releases -/

theorem compare_ofNat {a b : Nat} (fits : a < 2 ^ 64) (fits' : b < 2 ^ 64) :
    compare (UInt64.ofNat a) (UInt64.ofNat b) = compare a b := by
  have values : (UInt64.ofNat a).toNat = a := by
    rw [UInt64.toNat_ofNat', Nat.mod_eq_of_lt fits]
  have values' : (UInt64.ofNat b).toNat = b := by
    rw [UInt64.toNat_ofNat', Nat.mod_eq_of_lt fits']
  show compareOfLessAndEq _ _ = compareOfLessAndEq a b
  unfold compareOfLessAndEq
  simp only [UInt64.lt_iff_toNat_lt, ← UInt64.toNat_inj, values, values']

theorem digits_notMem (number : Nat) {c : Char} (noDigit : ¬c.isDigit) :
    c ∉ Nat.toDigits 10 number :=
  fun member => noDigit (Nat.isDigit_of_mem_toDigits (by decide) (by decide) member)

theorem parse_release {version : SemanticVersion} (isRelease : IsRelease version) :
    parseVersion version.text = (version.numbers.map UInt64.ofNat, "") := by
  obtain ⟨noTag, fits⟩ := isRelease
  have parts : version.text.toList.splitOn '.' = version.numbers.map (Nat.toDigits 10) := by
    rw [SemanticVersion.text, SemanticVersion.tag, if_pos noTag, List.append_nil,
      String.toList_ofList]
    refine List.splitOn_intercalate _ ?_ (by simp [SemanticVersion.numbers])
    intro part isPart
    obtain ⟨number, -, rfl⟩ := List.mem_map.1 isPart
    exact digits_notMem number (by decide)
  apply parseVersion_numeric
  rw [parts]
  have read : ∀ numbers : List Nat, (∀ number ∈ numbers, number < 2 ^ 64) →
      (numbers.map (Nat.toDigits 10)).mapM Decimal.parseU64 = some (numbers.map UInt64.ofNat) := by
    intro numbers small
    induction numbers with
    | nil => rfl
    | cons number numbers ih =>
        obtain ⟨first, later⟩ := List.forall_mem_cons.1 small
        rw [List.map_cons, List.mapM_cons, Decimal.parseU64_toDigits first, ih later]
        rfl
  exact read _ fits

/-- **Between releases it is the order of semantic versions.** -/
theorem compareVersions_release {a b : SemanticVersion} (isRelease : IsRelease a)
    (isRelease' : IsRelease b) : compareVersions a.text b.text = a.precedence b := by
  have small := isRelease.2
  have small' := isRelease'.2
  simp only [SemanticVersion.numbers, List.forall_mem_cons] at small small'
  rw [compareVersions, parse_release isRelease, parse_release isRelease']
  simp only [SemanticVersion.numbers, List.map_cons, List.map_nil, List.compare_cons_cons,
    List.compare_nil_nil, SemanticVersion.precedence, isRelease.1, isRelease'.1, tagPrecedence,
    compare_ofNat small.1 small'.1, compare_ofNat small.2.1 small'.2.1,
    compare_ofNat small.2.2.1 small'.2.2.1]
  by_cases same : a.text = b.text
  · have numbers : a.numbers.map UInt64.ofNat = b.numbers.map UInt64.ofNat := by
      have parsed := parse_release isRelease
      rw [same, parse_release isRelease'] at parsed
      exact (Prod.mk.inj parsed).1.symm
    simp only [SemanticVersion.numbers, List.map_cons, List.map_nil, List.cons.injEq] at numbers
    rw [← compare_ofNat small.1 small'.1, ← compare_ofNat small.2.1 small'.2.1,
      ← compare_ofNat small.2.2.1 small'.2.2.1, numbers.1, numbers.2.1, numbers.2.2.1, same]
    simp
  · have differ : ¬(a.major = b.major ∧ a.minor = b.minor ∧ a.patch = b.patch) := by
      rintro ⟨major, minor, patch⟩
      apply same
      simp only [SemanticVersion.text, SemanticVersion.tag, SemanticVersion.numbers, isRelease.1,
        isRelease'.1, major, minor, patch]
    rw [← Nat.compare_eq_eq, ← Nat.compare_eq_eq, ← Nat.compare_eq_eq] at differ
    cases major : compare a.major b.major with
    | lt => rfl
    | gt => rfl
    | eq =>
        cases minor : compare a.minor b.minor with
        | lt => rfl
        | gt => rfl
        | eq =>
            cases patch : compare a.patch b.patch with
            | lt => rfl
            | gt => rfl
            | eq => exact absurd ⟨major, minor, patch⟩ differ

/-- What has a tag is no sequence of numbers. -/
theorem tagged_isText {version : SemanticVersion} (tagged : version.preRelease ≠ []) :
    ¬IsNumeric version.text := by
  intro isNumeric
  have hyphen : '-' ∈ version.text.toList := by
    rw [SemanticVersion.text, SemanticVersion.tag, if_neg tagged, String.toList_ofList]
    simp
  have joined : List.intercalate ['.'] (version.text.toList.splitOn '.') = version.text.toList :=
    List.intercalate_splitOn '.'
  rw [← joined] at hyphen
  have allRead : ∀ parts : List (List Char), (parts.mapM Decimal.parseU64).isSome →
      ∀ part ∈ parts, (Decimal.parseU64 part).isSome := by
    intro parts isSome
    induction parts with
    | nil => nofun
    | cons part parts ih =>
        rw [List.mapM_cons] at isSome
        cases first : Decimal.parseU64 part with
        | none => simp [first] at isSome
        | some component =>
            cases later : parts.mapM Decimal.parseU64 with
            | none => simp [first, later] at isSome
            | some components =>
                rw [later] at ih
                exact List.forall_mem_cons.2 ⟨by rw [first]; rfl, ih rfl⟩
  rcases JoinedText.mem_intercalate hyphen with isDot | ⟨part, isPart, inPart⟩
  · exact absurd isDot (by decide)
  · have isRead := allRead _ isNumeric part isPart
    unfold Decimal.parseU64 at isRead
    dsimp only at isRead
    split at isRead
    · rename_i numeral
      have inDigits : '-' ∈ Decimal.digits part := by
        unfold Decimal.digits
        split
        · exact (List.mem_cons.1 inPart).resolve_left (by decide)
        · exact inPart
      exact absurd (List.all_eq_true.1 numeral.2 _ inDigits) (by decide)
    · cases isRead

/-! ## Loading -/

section Load

variable {sha256 : List UInt8 → String}
  {resolvePackageDir : String → Except SkillRegistryError PackageDir} {path : String}

/-- What no two entries share. -/
def keyOf (raw : RawSkillRegistryEntry) : String :=
  toAsciiLowercase (trimmed raw.skillId) ++ "@" ++ trimmed raw.version

theorem requireNonempty_ok {value fieldName registryPath read : String}
    (passed : requireNonempty value fieldName registryPath = .ok read) : read = trimmed value := by
  unfold requireNonempty at passed
  split at passed
  · cases passed
  · exact (Except.ok.inj passed).symm

/-- The entry that is loaded where no other one is. -/
def LoadsAs (sha256 : List UInt8 → String)
    (resolvePackageDir : String → Except SkillRegistryError PackageDir) (path : String)
    (raw : RawSkillRegistryEntry) (entry : SkillRegistryEntry) : Prop :=
  loadEntry sha256 resolvePackageDir path [] raw = .ok (entry, [keyOf raw])

theorem loadEntry_iff {seen after : List String} {raw : RawSkillRegistryEntry}
    {entry : SkillRegistryEntry} :
    loadEntry sha256 resolvePackageDir path seen raw = .ok (entry, after) ↔
      LoadsAs sha256 resolvePackageDir path raw entry ∧ keyOf raw ∉ seen ∧
        after = keyOf raw :: seen := by
  have transfer : ∀ {seen after other}, loadEntry sha256 resolvePackageDir path seen raw =
      .ok (entry, after) → keyOf raw ∉ other →
      loadEntry sha256 resolvePackageDir path other raw = .ok (entry, keyOf raw :: other) ∧
        keyOf raw ∉ seen ∧ after = keyOf raw :: seen := by
    intro seen after other loaded fresh
    obtain ⟨skillId, hasId, loaded⟩ := bind_eq_ok.1 loaded
    obtain ⟨version, hasVersion, loaded⟩ := bind_eq_ok.1 loaded
    obtain ⟨description, hasDescription, loaded⟩ := bind_eq_ok.1 loaded
    obtain ⟨placement, hasPlacement, loaded⟩ := bind_eq_ok.1 loaded
    obtain ⟨packageLayout, hasLayout, loaded⟩ := bind_eq_ok.1 loaded
    obtain ⟨_, isLayout, loaded⟩ := bind_eq_ok.1 loaded
    obtain ⟨packagePath, hasPath, loaded⟩ := bind_eq_ok.1 loaded
    obtain ⟨sha, hasSha, loaded⟩ := bind_eq_ok.1 loaded
    obtain ⟨_, isNew, loaded⟩ := bind_eq_ok.1 loaded
    obtain ⟨packageDir, isResolved, loaded⟩ := bind_eq_ok.1 loaded
    obtain ⟨resolved, isRead, loaded⟩ := bind_eq_ok.1 loaded
    obtain ⟨_, isSkill, loaded⟩ := bind_eq_ok.1 loaded
    obtain ⟨actual, hasDigest, loaded⟩ := bind_eq_ok.1 loaded
    obtain ⟨_, sameDigest, loaded⟩ := bind_eq_ok.1 loaded
    obtain rfl := requireNonempty_ok hasId
    obtain rfl := requireNonempty_ok hasVersion
    have unseen : keyOf raw ∉ seen := of_decide_eq_true (ensure_ok isNew)
    obtain ⟨rfl, rfl⟩ := Prod.mk.inj (Except.ok.inj loaded)
    refine ⟨?_, unseen, rfl⟩
    have isNew' : ∀ error, ensure (decide (toAsciiLowercase (trimmed raw.skillId) ++ "@" ++
        trimmed raw.version ∉ other)) error = .ok () := by
      intro error
      exact if_pos (decide_eq_true fresh)
    simp only [loadEntry, hasId, hasVersion, hasDescription, hasPlacement, hasLayout, isLayout,
      hasPath, hasSha, isResolved, isRead, isSkill, hasDigest, sameDigest, ok_bind, isNew']
    rfl
  constructor
  · intro loaded
    exact transfer loaded (List.not_mem_nil)
  · rintro ⟨loaded, fresh, rfl⟩
    exact (transfer loaded fresh).1

/-- What an entry has from the file. -/
theorem loadsAs_fields {raw : RawSkillRegistryEntry} {entry : SkillRegistryEntry}
    (loads : LoadsAs sha256 resolvePackageDir path raw entry) :
    entry.skillId = trimmed raw.skillId ∧ entry.version = trimmed raw.version ∧
      entry.compatible = isSkillVersionCompatible raw.minimumOpenyakVersion := by
  obtain ⟨skillId, hasId, loaded⟩ := bind_eq_ok.1 loads
  obtain ⟨version, hasVersion, loaded⟩ := bind_eq_ok.1 loaded
  obtain ⟨_, _, loaded⟩ := bind_eq_ok.1 loaded
  obtain ⟨_, _, loaded⟩ := bind_eq_ok.1 loaded
  obtain ⟨_, _, loaded⟩ := bind_eq_ok.1 loaded
  obtain ⟨_, _, loaded⟩ := bind_eq_ok.1 loaded
  obtain ⟨_, _, loaded⟩ := bind_eq_ok.1 loaded
  obtain ⟨_, _, loaded⟩ := bind_eq_ok.1 loaded
  obtain ⟨_, _, loaded⟩ := bind_eq_ok.1 loaded
  obtain ⟨_, _, loaded⟩ := bind_eq_ok.1 loaded
  obtain ⟨_, _, loaded⟩ := bind_eq_ok.1 loaded
  obtain ⟨_, _, loaded⟩ := bind_eq_ok.1 loaded
  obtain ⟨_, _, loaded⟩ := bind_eq_ok.1 loaded
  obtain ⟨_, _, loaded⟩ := bind_eq_ok.1 loaded
  obtain ⟨rfl, -⟩ := Prod.mk.inj (Except.ok.inj loaded)
  exact ⟨requireNonempty_ok hasId, requireNonempty_ok hasVersion, rfl⟩

/-- **Entries are loaded one by one**, if no two share a key. -/
theorem loadEntries_iff {seen : List String} {raws : List RawSkillRegistryEntry}
    {entries : List SkillRegistryEntry} :
    loadEntries sha256 resolvePackageDir path seen raws = .ok entries ↔
      List.Forall₂ (LoadsAs sha256 resolvePackageDir path) raws entries ∧
        (raws.map keyOf).Nodup ∧ ∀ raw ∈ raws, keyOf raw ∉ seen := by
  induction raws generalizing seen entries with
  | nil =>
      constructor
      · intro loaded
        cases loaded
        exact ⟨.nil, .nil, nofun⟩
      · rintro ⟨pairs, -⟩
        cases pairs
        rfl
  | cons raw raws ih =>
      rw [loadEntries, bind_eq_ok]
      constructor
      · rintro ⟨⟨entry, after⟩, first, loaded⟩
        obtain ⟨loads, fresh, rfl⟩ := loadEntry_iff.1 first
        obtain ⟨rest, later, loaded⟩ := bind_eq_ok.1 loaded
        cases loaded
        obtain ⟨pairs, distinct, unseen⟩ := ih.1 later
        refine ⟨.cons loads pairs, List.nodup_cons.2 ⟨?_, distinct⟩, ?_⟩
        · intro again
          obtain ⟨other, isLater, same⟩ := List.mem_map.1 again
          apply unseen other isLater
          rw [same]
          exact List.mem_cons_self
        · refine List.forall_mem_cons.2 ⟨fresh, fun other isLater isSeen => ?_⟩
          exact unseen other isLater (List.mem_cons_of_mem _ isSeen)
      · rintro ⟨pairs, distinct, unseen⟩
        cases pairs with
        | cons loads pairs =>
            obtain ⟨once, distinct⟩ := List.nodup_cons.1 distinct
            obtain ⟨fresh, unseen⟩ := List.forall_mem_cons.1 unseen
            refine ⟨_, loadEntry_iff.2 ⟨loads, fresh, rfl⟩, bind_eq_ok.2 ⟨_, ih.2 ⟨pairs, distinct, ?_⟩, rfl⟩⟩
            intro other isLater isSeen
            rcases List.mem_cons.1 isSeen with same | before
            · apply once
              rw [← same]
              exact List.mem_map_of_mem isLater
            · exact unseen other isLater before

/-- What is loaded of a registry: its entries in some order. -/
theorem loadSkillRegistry_ok {raw : RawSkillRegistry} {registry : SkillRegistry}
    (loaded : loadSkillRegistry sha256 resolvePackageDir path raw = .ok registry) :
    ∃ entries, List.Forall₂ (LoadsAs sha256 resolvePackageDir path) raw.skills entries ∧
      (raw.skills.map keyOf).Nodup ∧ registry.path = path ∧ registry.skills.Perm entries := by
  obtain ⟨-, -, loaded⟩ := bind_eq_ok.1 loaded
  obtain ⟨registryId, -, loaded⟩ := bind_eq_ok.1 loaded
  obtain ⟨channel, -, loaded⟩ := bind_eq_ok.1 loaded
  obtain ⟨skills, all, loaded⟩ := bind_eq_ok.1 loaded
  cases loaded
  obtain ⟨pairs, distinct, -⟩ := loadEntries_iff.1 all
  exact ⟨skills, pairs, distinct, rfl, List.perm_insertionSort _ _⟩

/-- **The order in the file does not matter for loading it.** -/
theorem load_reordered {raw : RawSkillRegistry} {registry : SkillRegistry}
    (loaded : loadSkillRegistry sha256 resolvePackageDir path raw = .ok registry)
    {skills : List RawSkillRegistryEntry} (reordered : skills.Perm raw.skills) :
    ∃ other, loadSkillRegistry sha256 resolvePackageDir path { raw with skills } = .ok other ∧
      other.path = registry.path ∧ other.skills.Perm registry.skills := by
  obtain ⟨_, isVersion, loaded⟩ := bind_eq_ok.1 loaded
  obtain ⟨registryId, hasId, loaded⟩ := bind_eq_ok.1 loaded
  obtain ⟨channel, hasChannel, loaded⟩ := bind_eq_ok.1 loaded
  obtain ⟨entries, all, loaded⟩ := bind_eq_ok.1 loaded
  cases loaded
  obtain ⟨pairs, distinct, -⟩ := loadEntries_iff.1 all
  obtain ⟨entries', pairs', same⟩ := List.perm_comp_forall₂ reordered pairs
  have distinct' : (skills.map keyOf).Nodup := (reordered.map keyOf).nodup_iff.2 distinct
  have all' : loadEntries sha256 resolvePackageDir path [] skills = .ok entries' :=
    loadEntries_iff.2 ⟨pairs', distinct', fun _ _ => List.not_mem_nil⟩
  refine ⟨⟨path, registryId, channel, entries'.insertionSort fun a b => listedBefore a b⟩, ?_, rfl, ?_⟩
  · simp only [loadSkillRegistry, isVersion, hasId, hasChannel, all', ok_bind]
    rfl
  · exact (List.perm_insertionSort _ _).trans (same.trans (List.perm_insertionSort _ _).symm)

end Load

/-! ## Selecting -/

/-- The order in which the entries of a skill are sorted. -/
abbrev NewerFirst (a b : SkillRegistryEntry) : Prop := compareVersions b.version a.version ≠ .gt

instance : Std.Total NewerFirst where
  total a b := by
    by_contra neither
    rw [not_or, not_not, not_not] at neither
    have flipped := Std.OrientedCmp.gt_iff_lt.1 neither.1
    rw [neither.2] at flipped
    cases flipped

instance : IsTrans SkillRegistryEntry NewerFirst where
  trans a b c first second := by
    rw [NewerFirst, ne_eq, Ordering.ne_gt_iff_isLE] at first second ⊢
    exact Std.TransCmp.isLE_trans second first

/-- What can be selected for an id. -/
def compatibleEntries (registry : SkillRegistry) (skillId : String) : List SkillRegistryEntry :=
  (registry.skills.filter fun entry => eqIgnoreAsciiCase entry.skillId skillId).filter
    SkillRegistryEntry.compatible

/-- No two of the entries have one version. -/
def Distinct (entries : List SkillRegistryEntry) : Prop :=
  ∀ a ∈ entries, ∀ b ∈ entries, a.version = b.version → a = b

theorem sorted_eq {entries others : List SkillRegistryEntry} (distinct : Distinct entries)
    (same : entries.Perm others) :
    entries.insertionSort NewerFirst = others.insertionSort NewerFirst := by
  have both : (entries.insertionSort NewerFirst).Perm (others.insertionSort NewerFirst) :=
    (List.perm_insertionSort _ _).trans (same.trans (List.perm_insertionSort _ _).symm)
  refine List.Perm.eq_of_pairwise ?_ (List.pairwise_insertionSort _ _)
    (List.pairwise_insertionSort _ _) both
  intro a b isEntry isOther newer older
  rw [List.mem_insertionSort] at isEntry isOther
  refine distinct a isEntry b (same.mem_iff.2 isOther) ?_
  rw [NewerFirst] at newer older
  cases compared : compareVersions a.version b.version with
  | eq => exact Std.LawfulEqCmp.eq_of_compare compared
  | gt => exact absurd compared older
  | lt => exact absurd (Std.OrientedCmp.gt_iff_lt.2 compared) newer

/-- **What is selected does not depend on the order of the entries.** -/
theorem select_reordered {registry other : SkillRegistry} {skillId : String}
    (distinct : Distinct (compatibleEntries registry skillId)) (samePath : other.path = registry.path)
    (reordered : other.skills.Perm registry.skills) :
    selectRegistryEntry other skillId none = selectRegistryEntry registry skillId none := by
  have candidates : (other.skills.filter fun entry => eqIgnoreAsciiCase entry.skillId skillId).Perm
      (registry.skills.filter fun entry => eqIgnoreAsciiCase entry.skillId skillId) :=
    reordered.filter _
  have sorted := sorted_eq distinct (candidates.filter SkillRegistryEntry.compatible).symm
  unfold selectRegistryEntry
  dsimp only
  rw [samePath, candidates.isEmpty_eq]
  unfold compatibleEntries at sorted
  rw [← sorted]

/-- **What is selected is newer than all others that could be.** -/
theorem select_greatest {registry : SkillRegistry} {skillId : String}
    (distinct : Distinct (compatibleEntries registry skillId)) :
    match selectRegistryEntry registry skillId none with
    | .ok entry => entry ∈ compatibleEntries registry skillId ∧
        ∀ other ∈ compatibleEntries registry skillId,
          other = entry ∨ compareVersions other.version entry.version = .lt
    | .error _ => compatibleEntries registry skillId = [] := by
  unfold selectRegistryEntry
  dsimp only
  by_cases nobody : (registry.skills.filter fun entry =>
      eqIgnoreAsciiCase entry.skillId skillId).isEmpty
  · rw [if_pos nobody]
    rw [List.isEmpty_iff] at nobody
    rw [compatibleEntries, nobody]
    rfl
  · rw [if_neg nobody]
    have sorted : ((compatibleEntries registry skillId).insertionSort NewerFirst).Pairwise NewerFirst :=
      List.pairwise_insertionSort _ _
    have members : ∀ entry, entry ∈ (compatibleEntries registry skillId).insertionSort NewerFirst ↔
        entry ∈ compatibleEntries registry skillId := fun entry => List.mem_insertionSort _
    generalize whole : ((registry.skills.filter fun entry =>
      eqIgnoreAsciiCase entry.skillId skillId).filter SkillRegistryEntry.compatible).insertionSort
        (fun a b => compareVersions b.version a.version ≠ .gt) = entries
    have whole : (compatibleEntries registry skillId).insertionSort NewerFirst = entries := whole
    rw [whole] at sorted members
    cases entries with
    | nil =>
        apply List.eq_nil_iff_forall_not_mem.2
        intro entry isEntry
        cases (members entry).2 isEntry
    | cons entry rest =>
        have isEntry := (members entry).1 List.mem_cons_self
        refine ⟨isEntry, fun other isOther => ?_⟩
        rcases List.mem_cons.1 ((members other).2 isOther) with same | later
        · exact .inl same
        · have newer := (List.pairwise_cons.1 sorted).1 other later
          rw [NewerFirst] at newer
          cases compared : compareVersions other.version entry.version with
          | lt => exact .inr rfl
          | gt => exact absurd compared newer
          | eq => exact .inl (distinct other isOther entry isEntry
              (Std.LawfulEqCmp.eq_of_compare compared))

/-! ## The registry file -/

/-- An entry of the file that is for the skill and for this program. -/
def Offers (raw : RawSkillRegistry) (skillId : String) (offered : RawSkillRegistryEntry) : Prop :=
  offered ∈ raw.skills ∧ eqIgnoreAsciiCase (trimmed offered.skillId) skillId ∧
    isSkillVersionCompatible offered.minimumOpenyakVersion

/-- All others that are offered are older, and of lower precedence if they are releases. -/
structure Newest (raw : RawSkillRegistry) (skillId : String) (newest : RawSkillRegistryEntry) :
    Prop where
  offered : Offers raw skillId newest
  greatest : ∀ other, Offers raw skillId other →
    other = newest ∨ compareVersions (trimmed other.version) (trimmed newest.version) = .lt
  highest : ∀ other a b, Offers raw skillId other → IsRelease a → IsRelease b →
    trimmed other.version = a.text → trimmed newest.version = b.text →
      other = newest ∨ a.precedence b = .lt

/-- The newest that is offered, or an error if nothing is. -/
def SelectsNewest (raw : RawSkillRegistry) (skillId : String) :
    Except SkillRegistryError SkillRegistryEntry → Prop
  | .ok entry => ∃ newest, Newest raw skillId newest ∧ entry.skillId = trimmed newest.skillId ∧
      entry.version = trimmed newest.version
  | .error _ => ∀ offered, ¬Offers raw skillId offered

theorem forall₂_left {α β : Type} {relation : α → β → Prop} {as : List α} {bs : List β}
    (pairs : List.Forall₂ relation as bs) {a : α} (isThere : a ∈ as) : ∃ b ∈ bs, relation a b := by
  induction pairs with
  | nil => cases isThere
  | cons related pairs ih =>
      rcases List.mem_cons.1 isThere with rfl | later
      · exact ⟨_, List.mem_cons_self, related⟩
      · obtain ⟨b, isLater, found⟩ := ih later
        exact ⟨b, List.mem_cons_of_mem _ isLater, found⟩

section Select

variable {sha256 : List UInt8 → String}
  {resolvePackageDir : String → Except SkillRegistryError PackageDir} {path : String}
  {raw : RawSkillRegistry} {registry : SkillRegistry} {skillId : String}

/-- What can be selected is what is offered. -/
theorem compatible_iff (loaded : loadSkillRegistry sha256 resolvePackageDir path raw = .ok registry)
    {entry : SkillRegistryEntry} : entry ∈ compatibleEntries registry skillId ↔
      ∃ offered, Offers raw skillId offered ∧
        LoadsAs sha256 resolvePackageDir path offered entry := by
  obtain ⟨entries, pairs, -, -, same⟩ := loadSkillRegistry_ok loaded
  rw [compatibleEntries, List.mem_filter, List.mem_filter, same.mem_iff]
  constructor
  · rintro ⟨⟨isEntry, isSkill⟩, isCompatible⟩
    obtain ⟨offered, isOffered, loads⟩ := forall₂_left pairs.flip isEntry
    obtain ⟨hasId, -, hasMinimum⟩ := loadsAs_fields loads
    exact ⟨offered, ⟨isOffered, hasId ▸ isSkill, hasMinimum ▸ isCompatible⟩, loads⟩
  · rintro ⟨offered, ⟨isOffered, isSkill, isCompatible⟩, loads⟩
    obtain ⟨hasId, -, hasMinimum⟩ := loadsAs_fields loads
    obtain ⟨entry', isEntry, loads'⟩ := forall₂_left pairs isOffered
    have isSame : entry' = entry := (Prod.mk.inj (Except.ok.inj (loads'.symm.trans loads))).1
    exact ⟨⟨isSame ▸ isEntry, hasId.symm ▸ isSkill⟩, hasMinimum.symm ▸ isCompatible⟩

/-- Two that are offered with one version are one. -/
theorem offered_once (loaded : loadSkillRegistry sha256 resolvePackageDir path raw = .ok registry)
    {a b : RawSkillRegistryEntry} (isOffered : Offers raw skillId a) (isOffered' : Offers raw skillId b)
    (same : trimmed a.version = trimmed b.version) : a = b := by
  obtain ⟨entries, -, distinct, -⟩ := loadSkillRegistry_ok loaded
  apply List.inj_on_of_nodup_map distinct isOffered.1 isOffered'.1
  have ids : toAsciiLowercase (trimmed a.skillId) = toAsciiLowercase (trimmed b.skillId) :=
    (of_decide_eq_true isOffered.2.1).trans (of_decide_eq_true isOffered'.2.1).symm
  rw [keyOf, keyOf, ids, same]

theorem compatible_distinct
    (loaded : loadSkillRegistry sha256 resolvePackageDir path raw = .ok registry) :
    Distinct (compatibleEntries registry skillId) := by
  intro a isEntry b isOther same
  obtain ⟨offered, isOffered, loads⟩ := (compatible_iff loaded).1 isEntry
  obtain ⟨offered', isOffered', loads'⟩ := (compatible_iff loaded).1 isOther
  rw [(loadsAs_fields loads).2.1, (loadsAs_fields loads').2.1] at same
  obtain rfl := offered_once loaded isOffered isOffered' same
  exact (Prod.mk.inj (Except.ok.inj (loads.symm.trans loads'))).1

/-- **The newest that a registry file offers is selected.** -/
theorem select_newest (loaded : loadSkillRegistry sha256 resolvePackageDir path raw = .ok registry) :
    SelectsNewest raw skillId (selectRegistryEntry registry skillId none) := by
  have spec := @select_greatest registry skillId (compatible_distinct loaded)
  cases selected : selectRegistryEntry registry skillId none with
  | error error =>
      rw [selected] at spec
      intro offered isOffered
      obtain ⟨entries, pairs, -⟩ := loadSkillRegistry_ok loaded
      obtain ⟨entry, -, loads⟩ := forall₂_left pairs isOffered.1
      have isEntry := (compatible_iff loaded).2 ⟨offered, isOffered, loads⟩
      rw [spec] at isEntry
      cases isEntry
  | ok entry =>
      rw [selected] at spec
      obtain ⟨isEntry, isGreatest⟩ := spec
      obtain ⟨newest, isNewest, loads⟩ := (compatible_iff loaded).1 isEntry
      obtain ⟨hasId, hasVersion, -⟩ := loadsAs_fields loads
      have older : ∀ other, Offers raw skillId other →
          other = newest ∨ compareVersions (trimmed other.version) (trimmed newest.version) = .lt := by
        intro other isOther
        obtain ⟨entries, pairs, -⟩ := loadSkillRegistry_ok loaded
        obtain ⟨entry', -, loads'⟩ := forall₂_left pairs isOther.1
        have hasVersion' := (loadsAs_fields loads').2.1
        rcases isGreatest entry' ((compatible_iff loaded).2 ⟨other, isOther, loads'⟩) with rfl | less
        · exact .inl (offered_once loaded isOther isNewest (hasVersion'.symm.trans hasVersion))
        · rw [hasVersion', hasVersion] at less
          exact .inr less
      refine ⟨newest, ⟨isNewest, older, ?_⟩, hasId, hasVersion⟩
      intro other a b isOther isRelease isRelease' isText isText'
      rcases older other isOther with same | less
      · exact .inl same
      · rw [isText, isText', compareVersions_release isRelease isRelease'] at less
        exact .inr less

end Select

/-- A version with a tag stands before all without one. -/
theorem not_compareVersions_precedence :
    ¬∀ a b : SemanticVersion, compareVersions a.text b.text = a.precedence b := by
  intro agrees
  have newer := agrees { major := 2, minor := 0, patch := 0, preRelease := [.alphanumeric "alpha"] }
    { major := 1, minor := 0, patch := 0 }
  revert newer
  decide +kernel

/-- **Versions are in a total order**, between releases in that of semantic versions, and the
greatest that is offered is selected, in whatever order they are. -/
theorem versions_ordered_and_selected :
    (Std.TransCmp compareVersions ∧ Std.LawfulEqCmp compareVersions) ∧
    (∀ a b : SemanticVersion, IsRelease a → IsRelease b →
      compareVersions a.text b.text = a.precedence b) ∧
    (∀ version : SemanticVersion, version.preRelease ≠ [] → ¬IsNumeric version.text) ∧
    (∀ value other, ¬IsNumeric value →
      compareVersions value other = if IsNumeric other then .lt else compare value other) ∧
    ∀ sha256 resolvePackageDir path raw registry skillId,
      loadSkillRegistry sha256 resolvePackageDir path raw = .ok registry →
        SelectsNewest raw skillId (selectRegistryEntry registry skillId none) ∧
        ∀ skills, skills.Perm raw.skills → ∃ other,
          loadSkillRegistry sha256 resolvePackageDir path { raw with skills } = .ok other ∧
            selectRegistryEntry other skillId none = selectRegistryEntry registry skillId none := by
  refine ⟨⟨inferInstance, inferInstance⟩, fun a b => compareVersions_release,
    fun version => tagged_isText, fun value other => compareVersions_text, ?_⟩
  intro sha256 resolvePackageDir path raw registry skillId loaded
  refine ⟨select_newest loaded, fun skills reordered => ?_⟩
  obtain ⟨other, loaded', samePath, same⟩ := load_reordered loaded reordered
  exact ⟨other, loaded', select_reordered (compatible_distinct loaded) samePath same⟩

end Openyak.Runtime.SkillVersions
