/-
# Runtime.SkillPackages -- what an accepted registry of skills offers

An entry of a registry that `load_skill_registry` accepts has the digest of its package,
and its id is one component of a path: the package's own id is one, and the two differ in
the case of letters alone (`accepted_entry`).
-/
import Openyak.Runtime.SkillRegistry
import Openyak.Theory.Scanning

namespace Openyak.Runtime

open Openyak.Theory

set_option autoImplicit false

/-! ## Names -/

theorem toAsciiLowercase_idem (text : String) :
    toAsciiLowercase (toAsciiLowercase text) = toAsciiLowercase text := by
  simp [toAsciiLowercase, Text.toAsciiLowercase_idem]

theorem validateSkillId_ok {value id : String} (valid : validateSkillId value = .ok id) :
    IsSegment id := by
  unfold validateSkillId at valid
  dsimp only at valid
  split at valid
  · cases valid
  · rename_i nonempty
    split at valid
    · cases valid
    · rename_i noSeparator
      split at valid
      · cases valid
      · rename_i proper
        cases valid
        exact ⟨nonempty, fun slash => noSeparator (.inl slash), fun dot => proper (.inl dot),
          fun dots => proper (.inr dots)⟩

theorem readSkillPackageMetadata_ok {package : PackageDir} {id : String}
    (read : readSkillPackageMetadata package = .ok id) : IsSegment id := by
  unfold readSkillPackageMetadata at read
  split at read
  · split at read
    · cases read
    · dsimp only at read
      split at read
      · exact validateSkillId_ok read
      · cases read
  · cases read

/-- What is no small letter is the lower case of itself alone. -/
theorem eq_of_toLower {c d : Char} (same : c.toLower = d) (noLetter : d.toNat < 97) : c = d := by
  delta Char.toLower at same
  split at same
  · rename_i upper
    have small := congrArg Char.toNat same
    have low := UInt32.le_iff_toNat_le.1 upper.1
    have high := UInt32.le_iff_toNat_le.1 upper.2
    simp only [Char.toNat, UInt32.toNat_add, seval] at small low high noLetter
    omega
  · exact same

theorem segment_congr {id other : String} (segment : IsSegment id)
    (same : eqIgnoreAsciiCase id other = true) : IsSegment other := by
  obtain ⟨nonempty, noSlash, notDot, notDots⟩ := segment
  have chars : id.toList.map Char.toLower = other.toList.map Char.toLower :=
    String.ofList_injective (of_decide_eq_true same)
  have dots : ∀ text : List Char, (∀ c ∈ text, c.toNat < 97 ∧ c.toLower = c) →
      other.toList = text → id.toList = text := by
    intro text plain written
    rw [written] at chars
    clear written same noSlash notDot notDots nonempty
    generalize id.toList = letters at chars ⊢
    induction text generalizing letters with
    | nil => exact List.map_eq_nil_iff.1 chars
    | cons d text ih =>
        obtain ⟨small, fixed⟩ := plain d List.mem_cons_self
        cases letters with
        | nil => cases chars
        | cons c letters =>
            obtain ⟨head, tail⟩ := List.cons.inj chars
            rw [eq_of_toLower (head.trans fixed) small,
              ih (fun e member => plain e (List.mem_cons_of_mem d member)) letters tail]
  refine ⟨?_, ?_, ?_, ?_⟩
  · rintro rfl
    exact nonempty (String.toList_injective (dots [] nofun rfl))
  · intro slash
    have lower : '/' ∈ id.toList.map Char.toLower := by
      rw [chars]
      exact List.mem_map.2 ⟨'/', slash, rfl⟩
    obtain ⟨c, member, here⟩ := List.mem_map.1 lower
    exact noSlash (eq_of_toLower here (by decide) ▸ member)
  · rintro rfl
    exact notDot (String.toList_injective (dots ['.'] (by simp) rfl))
  · rintro rfl
    exact notDots (String.toList_injective (dots ['.', '.'] (by simp) rfl))

/-! ## Registries -/

section Load

variable {sha256 : List UInt8 → String}
  {resolvePackageDir : String → Except SkillRegistryError PackageDir}

/-- What an accepted entry is. -/
structure EntryAccepted (sha256 : List UInt8 → String) (entry : SkillRegistryEntry) : Prop where
  digest : computeDirectorySha256 sha256 entry.packageDir.walk = .ok entry.sha256
  segment : IsSegment entry.skillId

theorem ensure_ok {condition : Bool} {error : SkillRegistryError} {done : Unit}
    (passed : ensure condition error = .ok done) : condition = true := by
  cases condition with
  | true => rfl
  | false => cases passed

theorem loadEntry_ok {path : String} {seen : List String} {raw : RawSkillRegistryEntry}
    {result : SkillRegistryEntry × List String}
    (loaded : loadEntry sha256 resolvePackageDir path seen raw = .ok result) :
    EntryAccepted sha256 result.1 := by
  obtain ⟨skillId, -, loaded⟩ := bind_eq_ok.1 loaded
  obtain ⟨version, -, loaded⟩ := bind_eq_ok.1 loaded
  obtain ⟨description, -, loaded⟩ := bind_eq_ok.1 loaded
  obtain ⟨placement, -, loaded⟩ := bind_eq_ok.1 loaded
  obtain ⟨packageLayout, -, loaded⟩ := bind_eq_ok.1 loaded
  obtain ⟨-, -, loaded⟩ := bind_eq_ok.1 loaded
  obtain ⟨packagePath, -, loaded⟩ := bind_eq_ok.1 loaded
  obtain ⟨sha, -, loaded⟩ := bind_eq_ok.1 loaded
  obtain ⟨-, -, loaded⟩ := bind_eq_ok.1 loaded
  obtain ⟨packageDir, -, loaded⟩ := bind_eq_ok.1 loaded
  obtain ⟨resolved, read, loaded⟩ := bind_eq_ok.1 loaded
  obtain ⟨_, same, loaded⟩ := bind_eq_ok.1 loaded
  obtain ⟨actual, digest, loaded⟩ := bind_eq_ok.1 loaded
  obtain ⟨-, -, loaded⟩ := bind_eq_ok.1 loaded
  cases loaded
  refine ⟨digest, ?_⟩
  cases metadata : readSkillPackageMetadata packageDir with
  | error error =>
      rw [metadata] at read
      cases read
  | ok id =>
      rw [metadata] at read
      cases read
      exact segment_congr (readSkillPackageMetadata_ok metadata) (ensure_ok same)

theorem loadEntries_ok {path : String} {seen : List String} {raws : List RawSkillRegistryEntry}
    {entries : List SkillRegistryEntry}
    (loaded : loadEntries sha256 resolvePackageDir path seen raws = .ok entries) :
    ∀ entry ∈ entries, EntryAccepted sha256 entry := by
  induction raws generalizing seen entries with
  | nil =>
      cases loaded
      exact nofun
  | cons raw raws ih =>
      obtain ⟨first, here, loaded⟩ := bind_eq_ok.1 loaded
      obtain ⟨rest, later, loaded⟩ := bind_eq_ok.1 loaded
      cases loaded
      intro entry member
      obtain rfl | member := List.mem_cons.1 member
      · exact loadEntry_ok here
      · exact ih later entry member

end Load

/-- A registry that `load_skill_registry` accepts. -/
def Accepted (host : SkillHost) (registry : SkillRegistry) : Prop :=
  ∃ resolvePackageDir path raw,
    loadSkillRegistry host.sha256 resolvePackageDir path raw = .ok registry

theorem accepted_entry {host : SkillHost} {available : SkillRegistry} (accepted : Accepted host available) :
    ∀ entry ∈ available.skills, EntryAccepted host.sha256 entry := by
  obtain ⟨resolvePackageDir, path, raw, loaded⟩ := accepted
  obtain ⟨-, -, loaded⟩ := bind_eq_ok.1 loaded
  obtain ⟨registryId, -, loaded⟩ := bind_eq_ok.1 loaded
  obtain ⟨channel, -, loaded⟩ := bind_eq_ok.1 loaded
  obtain ⟨skills, entries, loaded⟩ := bind_eq_ok.1 loaded
  cases loaded
  intro entry member
  exact loadEntries_ok entries entry ((List.mem_insertionSort _).1 member)

theorem selected_entry {available : SkillRegistry} {skillId : String} {version : Option String}
    {entry : SkillRegistryEntry}
    (selected : selectRegistryEntry available skillId version = .ok entry) :
    entry ∈ available.skills := by
  unfold selectRegistryEntry at selected
  dsimp only at selected
  split at selected
  · cases selected
  · split at selected
    · split at selected
      · rename_i found
        cases selected
        exact List.mem_of_mem_filter (List.mem_of_find?_eq_some found)
      · cases selected
    · split at selected
      · rename_i sorted
        cases selected
        have member : entry ∈ _ := (List.mem_insertionSort _).1 (sorted ▸ List.mem_cons_self)
        exact List.mem_of_mem_filter (List.mem_of_mem_filter member)
      · cases selected

end Openyak.Runtime
