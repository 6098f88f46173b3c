/-
# Runtime.BashModes -- what one mode lets through, against the next

Read-only mode goes by the commands of the segments, workspace-write mode also by what it
finds anywhere in the text, inside quotes too.  Of the commands that read-only mode lets
through none is listed by workspace-write mode (`workspaceWriteDenial_of_readOnly`), so only
a text that alarms it can be denied there (`modes_monotone_iff`).
-/
import Openyak.Runtime.BashSoundness

namespace Openyak.Runtime

open Openyak.Theory

set_option autoImplicit false

/-- What a mode lets through, the modes above it let through. -/
structure ModesMonotone (command : List Char) : Prop where
  readOnly : validateBashCommand command .readOnly = .allow →
    validateBashCommand command .workspaceWrite = .allow
  workspaceWrite : validateBashCommand command .workspaceWrite = .allow →
    validateBashCommand command .dangerFullAccess = .allow ∧ validateBashCommand command .allow = .allow

/-- Texts that workspace-write mode looks for in the whole command. -/
def alarmingTexts : List String :=
  [":()\x7b :|:& \x7d;:", "chmod -r 777", "chmod -r 000", "of=/dev/", ">/dev/", "> /dev/",
    "\\\\.\\physicaldrive"]

def AlarmingText (command : List Char) : Prop :=
  ∃ text ∈ alarmingTexts, Text.contains text (Text.toAsciiLowercase command) = true

/-- Nothing in the command is denied by its redirections or its segments. -/
structure ReadsOnly (command : List Char) : Prop where
  solid : Text.trim command ≠ []
  noRedirection : hasWriteRedirection command = false
  segments : ∀ tokens ∈ tokenLists command, readOnlyDenial tokens = none

/-! ## What a mode allows -/

variable {command : List Char}

theorem firstDenial_allow_iff {denial : List Token → Option BashCommandDenial} :
    firstDenial denial command = .allow ↔ ∀ tokens ∈ tokenLists command, denial tokens = none := by
  rw [tokenLists, List.forall_mem_map, firstDenial]
  split
  · rename_i found
    obtain ⟨segment, member, denied⟩ := List.exists_of_findSome?_eq_some found
    constructor
    · nofun
    · intro all
      rw [all segment member] at denied
      cases denied
  · rename_i none
    exact ⟨fun _ => List.findSome?_eq_none_iff.1 none, fun _ => rfl⟩

theorem readOnly_allow_iff :
    validateBashCommand command .readOnly = .allow ↔ ReadsOnly command := by
  unfold validateBashCommand validateReadOnly
  constructor
  · intro allowed
    split at allowed
    · cases allowed
    rename_i solid
    dsimp only at allowed
    split at allowed
    · cases allowed
    rename_i noRedirection
    exact ⟨solid, by simpa using noRedirection, firstDenial_allow_iff.1 allowed⟩
  · intro reads
    rw [if_neg reads.solid]
    dsimp only
    rw [reads.noRedirection, if_neg Bool.false_ne_true]
    exact firstDenial_allow_iff.2 reads.segments

theorem alarmingText_or : AlarmingText command ↔
    let found (text : String) : Bool := Text.contains text (Text.toAsciiLowercase command)
    found ":()\x7b :|:& \x7d;:" ∨ (found "chmod -r 777" ∨ found "chmod -r 000") ∨ found "of=/dev/" ∨
      found ">/dev/" ∨ found "> /dev/" ∨ found "\\\\.\\physicaldrive" := by
  simp only [AlarmingText, alarmingTexts, List.mem_cons, List.not_mem_nil, or_false, exists_eq_or_imp,
    exists_eq_left, or_assoc]

/-- The text part of `destructive_reason`. -/
theorem destructiveReason_none_iff (noRm : ∀ tokens ∈ tokenLists command,
      recursiveRmReason (effectiveTokens tokens) = none) :
    destructiveReason command = none ↔
      let found (text : String) : Bool := Text.contains text (Text.toAsciiLowercase command)
      ¬(found ":()\x7b :|:& \x7d;:" ∨ found "chmod -r 777" ∨ found "chmod -r 000") := by
  have first : (commandSegments command).findSome? (fun segment =>
      recursiveRmReason (effectiveTokens (normalizedTokens segment))) = none := by
    rw [List.findSome?_eq_none_iff]
    exact List.forall_mem_map.1 noRm
  unfold destructiveReason
  rw [first]
  dsimp only
  split
  · rename_i bomb
    simp [bomb]
  · rename_i bomb
    split
    · rename_i reset
      rw [Bool.or_eq_true] at reset
      simp [reset]
    · rename_i reset
      rw [Bool.or_eq_true] at reset
      simp only [true_iff, not_or] at reset ⊢
      exact ⟨bomb, reset⟩

/-- **A text alarms just when a search in it finds something**. -/
theorem alarmingText_iff (noRm : ∀ tokens ∈ tokenLists command,
      recursiveRmReason (effectiveTokens tokens) = none) :
    AlarmingText command ↔
      ¬(destructiveReason command = none ∧ rawDeviceWriteDetected command = false) := by
  rw [alarmingText_or, destructiveReason_none_iff noRm, rawDeviceWriteDetected]
  simp only [not_and_or, not_not, ← Bool.not_eq_true, Bool.or_eq_true, or_assoc]

theorem workspaceWrite_allow_iff : validateBashCommand command .workspaceWrite = .allow ↔
    Text.trim command ≠ [] ∧ destructiveReason command = none ∧ rawDeviceWriteDetected command = false ∧
      ∀ tokens ∈ tokenLists command, workspaceWriteDenial tokens = none := by
  unfold validateBashCommand validateWorkspaceWrite
  constructor
  · intro allowed
    split at allowed
    · cases allowed
    rename_i solid
    dsimp only at allowed
    split at allowed
    · cases allowed
    rename_i gentle
    split at allowed
    · cases allowed
    rename_i noDevice
    exact ⟨solid, gentle, by simpa using noDevice, firstDenial_allow_iff.1 allowed⟩
  · rintro ⟨solid, gentle, noDevice, segments⟩
    rw [if_neg solid]
    dsimp only
    rw [gentle]
    dsimp only
    rw [noDevice, if_neg Bool.false_ne_true]
    exact firstDenial_allow_iff.2 segments

/-! ## One segment -/

/-- A command that only reads is no administration command, and no `rm`. -/
theorem reading_unlisted : ∀ name ∈ "git" :: readOnlyCommands,
    name ∉ workspaceWriteMachineCommands ∧ name ≠ "rm" := by decide

/-- A segment that read-only mode lets through is empty or runs a command that only reads. -/
theorem readOnlyDenial_none {first : Token} {rest : List Token}
    (allowed : readOnlyDenial (first :: rest) = none) :
    commandName first ≠ "sudo".toList ∧ String.ofList (commandName first) ∈ "git" :: readOnlyCommands := by
  have plain : commandName first ≠ "sudo".toList := by
    intro isSudo
    rw [readOnlyDenial, if_pos isSudo] at allowed
    cases allowed
  refine ⟨plain, ?_⟩
  by_contra unlisted
  rw [List.mem_cons, not_or] at unlisted
  have denied := @readOnlyDenial_isSome first rest unlisted.2 fun isGit =>
    absurd (congrArg String.ofList isGit) unlisted.1
  rw [allowed] at denied
  cases denied

theorem workspaceWriteDenial_of_readOnly {tokens : List Token} (allowed : readOnlyDenial tokens = none) :
    workspaceWriteDenial tokens = none := by
  cases tokens with
  | nil => rfl
  | cons first rest =>
      obtain ⟨plain, reads⟩ := readOnlyDenial_none allowed
      rw [workspaceWriteDenial, if_neg plain, effectiveTokens_of_name plain]
      exact if_neg (reading_unlisted _ reads).1

theorem recursiveRmReason_of_readOnly {tokens : List Token} (allowed : readOnlyDenial tokens = none) :
    recursiveRmReason (effectiveTokens tokens) = none := by
  cases tokens with
  | nil => rfl
  | cons first rest =>
      obtain ⟨plain, reads⟩ := readOnlyDenial_none allowed
      have other : commandName first ≠ "rm".toList := by
        intro isRm
        apply (reading_unlisted _ reads).2
        rw [isRm, String.ofList_toList]
      rw [effectiveTokens_of_name plain, recursiveRmReason, if_pos other]

/-! ## The modes -/

/-- What only reads is let through by workspace-write mode unless its text alarms it. -/
theorem workspaceWrite_of_readsOnly (reads : ReadsOnly command) :
    validateBashCommand command .workspaceWrite = .allow ↔ ¬AlarmingText command := by
  rw [alarmingText_iff fun tokens member => recursiveRmReason_of_readOnly (reads.segments tokens member),
    not_not, workspaceWrite_allow_iff]
  constructor
  · rintro ⟨-, gentle, noDevice, -⟩
    exact ⟨gentle, noDevice⟩
  · rintro ⟨gentle, noDevice⟩
    exact ⟨reads.solid, gentle, noDevice, fun tokens member =>
      workspaceWriteDenial_of_readOnly (reads.segments tokens member)⟩

theorem above_workspaceWrite (allowed : validateBashCommand command .workspaceWrite = .allow) :
    validateBashCommand command .dangerFullAccess = .allow ∧
      validateBashCommand command .allow = .allow := by
  obtain ⟨solid, -⟩ := workspaceWrite_allow_iff.1 allowed
  exact ⟨if_neg solid, if_neg solid⟩

/-- **The modes are monotone at every command but one that only reads and has an alarming text**. -/
theorem modes_monotone_iff (command : List Char) :
    ModesMonotone command ↔ ¬(ReadsOnly command ∧ AlarmingText command) := by
  constructor
  · rintro monotone ⟨reads, alarming⟩
    have allowed := monotone.readOnly (readOnly_allow_iff.2 reads)
    exact (workspaceWrite_of_readsOnly reads).1 allowed alarming
  · intro quiet
    refine ⟨fun allowed => ?_, above_workspaceWrite⟩
    have reads := readOnly_allow_iff.1 allowed
    exact (workspaceWrite_of_readsOnly reads).2 fun alarming => quiet ⟨reads, alarming⟩

/-- **A search that only reading allows**: the words are an argument, read-only mode lets the
command through and workspace-write mode takes it for a write to a device. -/
theorem modes_not_monotone :
    validateBashCommand "grep 'of=/dev/' notes.txt".toList .readOnly = .allow ∧
    validateBashCommand "grep 'of=/dev/' notes.txt".toList .workspaceWrite =
      .deny ⟨.dangerFullAccess,
        "workspace-write mode blocks raw device writes; use danger-full-access"⟩ ∧
    ¬ModesMonotone "grep 'of=/dev/' notes.txt".toList := by
  have reads : validateBashCommand "grep 'of=/dev/' notes.txt".toList .readOnly = .allow := by
    decide +kernel
  have denied : validateBashCommand "grep 'of=/dev/' notes.txt".toList .workspaceWrite =
      .deny ⟨.dangerFullAccess,
        "workspace-write mode blocks raw device writes; use danger-full-access"⟩ := by decide +kernel
  refine ⟨reads, denied, fun monotone => ?_⟩
  have allowed := monotone.readOnly reads
  rw [denied] at allowed
  cases allowed

end Openyak.Runtime
