/-
# Runtime.InstalledFile -- `installed.json` written and read

What is written of a registry reads as it (`loads_written`).  A save writes the whole file
or fails with the old one as it was, unless a part of it was written (`save_ok`,
`save_error`), and touches nothing else (`save_still`).  Where the managed root is there and
no step fails, it writes (`save_done`).
-/
import Openyak.Runtime.SkillSteps

namespace Openyak.Runtime

open Openyak.Theory
open Openyak.Theory.DirTree
open Openyak.Theory.Posix (Location)

set_option autoImplicit false

variable {host : SkillHost} {tree after : Tree} {registry : InstalledSkillRegistry}
  {fault : Option Fault}

/-- The registry reads the same where its file is the same. -/
theorem loads_congr (same : below after registryPath = below tree registryPath) :
    loadInstalledSkillRegistry host after = loadInstalledSkillRegistry host tree := by
  have file : node after registryPath = node tree registryPath := by
    rw [node_at, same, ← node_at]
  rw [loadInstalledSkillRegistry, loadInstalledSkillRegistry, file]

/-- What is written of a registry reads as it. -/
structure SkillHost.Rereads (host : SkillHost) : Prop where
  reads : ∀ registry, host.fromStr (host.toStringPretty registry ++ ['\n']) = .ok registry
  solid : ∀ registry, Text.trim (host.toStringPretty registry ++ ['\n']) ≠ []

theorem fromUtf8_encode (text : List Char) : fromUtf8 (Utf8Stream.encode text) = some text := by
  have decoded := (Utf8Stream.decodeChunks_encoded
    (show [Utf8Stream.encode text].flatten = Utf8Stream.encode text by simp)).1
  have whole : (Utf8Stream.decodeChunk [] (Utf8Stream.encode text)).1 = text := by
    simpa [Utf8Stream.decodeChunks] using decoded
  rw [fromUtf8, whole]
  exact if_pos rfl

theorem fromUtf8_iff {bytes : List UInt8} {text : List Char} :
    fromUtf8 bytes = some text ↔ bytes = Utf8Stream.encode text := by
  constructor
  · intro decoded
    unfold fromUtf8 at decoded
    dsimp only at decoded
    split at decoded
    · rename_i same
      rw [← Option.some.inj decoded, same]
    · cases decoded
  · rintro rfl
    exact fromUtf8_encode text

theorem loads_written (rereads : host.Rereads)
    (file : node tree registryPath = some (.file (registryBytes host registry))) :
    loadInstalledSkillRegistry host tree = .ok registry := by
  rw [loadInstalledSkillRegistry, file]
  dsimp only
  rw [registryBytes, fromUtf8_encode]
  dsimp only
  rw [if_neg (rereads.solid registry), rereads.reads]
  rfl

section Save

variable {p above : Location} {before : Tree}

theorem callWrite_keeps {bytes : List UInt8} {holds : Tree → Prop} (held : holds tree)
    (wrote : ∀ after, write tree registryPath bytes = some after → holds after) :
    holds (callOrNothing (fun tree => write tree registryPath bytes) tree).2 ∧
      holds ((write tree registryPath bytes).getD tree) := by
  cases done : write tree registryPath bytes with
  | none =>
      simp only [callOrNothing, done, Option.getD_none]
      exact ⟨held, held⟩
  | some after =>
      simp only [callOrNothing, done, Option.getD_some]
      exact ⟨wrote after done, wrote after done⟩

/-- What a write of the registry keeps, its save keeps. -/
theorem save_keeps {holds : Tree → Prop}
    (root : ∀ made, Action.Keeps holds (createDirs managedRoot made))
    (file : ∀ tree bytes after, holds tree → write tree registryPath bytes = some after →
      holds after) : Action.Keeps holds (saveInstalledSkillRegistry host fault registry) := by
  refine .bind (root _) fun _ tree held => ?_
  match fault with
  | some (.writeRegistry none) => exact held
  | some (.writeRegistry (some left)) =>
      exact (callWrite_keeps held fun after wrote => file tree left after held wrote).2
  | none | some (.stops _) | some (.createTemp _) | some (.copy _ _) | some (.createParent _)
  | some (.removeBackup _) | some (.removeInstalled _) | some (.createRoot _) =>
      exact (callWrite_keeps held fun after wrote => file tree _ after held wrote).1

theorem save_still (notRoot : ¬p <+: managedRoot) (notFile : ¬p <+: registryPath) :
    Action.Keeps (Still p before) (saveInstalledSkillRegistry host fault registry) :=
  save_keeps (fun _ => createDirs_still notRoot) fun _ _ _ held wrote =>
    (write_below wrote notFile).trans held

theorem save_stands (prefixed : above <+: managedRoot) :
    Action.Keeps (Stands above) (saveInstalledSkillRegistry host fault registry) := by
  have other : above ≠ registryPath := by
    rintro rfl
    exact not_under_managed "installed.json" prefixed
  exact save_keeps (fun _ => createDirs_stands) fun _ _ _ held wrote =>
    (write_node wrote other).trans held

theorem callOrNothing_ok {act : Tree → Option Tree} {done : Unit}
    (called : callOrNothing act tree = (.ok done, after)) : act tree = some after := by
  unfold callOrNothing at called
  split at called
  · rename_i found
    cases called
    exact found
  · cases called

theorem callOrNothing_error {act : Tree → Option Tree} {error : SkillRegistryError}
    (called : callOrNothing act tree = (.error error, after)) : after = tree := by
  unfold callOrNothing at called
  split at called
  · cases called
  · cases called
    rfl

theorem save_ok {done : Unit}
    (saved : saveInstalledSkillRegistry host fault registry tree = (.ok done, after)) :
    node after registryPath = some (.file (registryBytes host registry)) ∧
      ∀ above, above <+: managedRoot → Stands above after := by
  obtain ⟨_, made, root, rest⟩ := Action.of_bind_ok saved
  have wrote : write made registryPath (registryBytes host registry) = some after := by
    match fault, rest with
    | some (.writeRegistry none), rest => cases rest
    | some (.writeRegistry (some left)), rest => cases rest
    | none, rest | some (.stops _), rest | some (.createTemp _), rest | some (.copy _ _), rest
    | some (.createParent _), rest | some (.removeBackup _), rest
    | some (.removeInstalled _), rest | some (.createRoot _), rest => exact callOrNothing_ok rest
  refine ⟨write_there wrote, fun above prefixed => ?_⟩
  have other : above ≠ registryPath := by
    rintro rfl
    exact not_under_managed "installed.json" prefixed
  exact (write_node wrote other).trans (createDirs_ok root prefixed)

/-- A save that fails leaves the file as it was, unless a part of it was written. -/
theorem save_error {error : SkillRegistryError}
    (notPart : ∀ left, fault ≠ some (.writeRegistry (some left)))
    (failed : saveInstalledSkillRegistry host fault registry tree = (.error error, after)) :
    below after registryPath = below tree registryPath := by
  have notRoot : ¬registryPath <+: managedRoot := not_under_managed _
  have rootKeeps : Still registryPath (below tree registryPath)
      (createDirs managedRoot (fault.bind Fault.root?) tree).2 := createDirs_still notRoot tree rfl
  obtain root | ⟨_, made, root, rest⟩ := Action.of_bind_error failed
  · rwa [root] at rootKeeps
  · rw [root] at rootKeeps
    have same : after = made := by
      match fault, rest, notPart with
      | some (.writeRegistry none), rest, _ =>
          cases rest
          rfl
      | some (.writeRegistry (some left)), _, notPart => exact absurd rfl (notPart left)
      | none, rest, _ | some (.stops _), rest, _ | some (.createTemp _), rest, _
      | some (.copy _ _), rest, _ | some (.createParent _), rest, _
      | some (.removeBackup _), rest, _ | some (.removeInstalled _), rest, _
      | some (.createRoot _), rest, _ => exact callOrNothing_error rest
    rw [same]
    exact rootKeeps

/-- A save without a fault succeeds where the managed root is there. -/
theorem save_done (noRoot : fault.bind Fault.root? = none)
    (noWrite : ∀ left, fault ≠ some (.writeRegistry left))
    (stands : ∀ above, above <+: managedRoot → Stands above tree)
    (file : node tree registryPath ≠ some .directory) :
    ∃ after, saveInstalledSkillRegistry host fault registry tree = (.ok (), after) := by
  have root := createDirs_there stands
  have parent : registryPath.dropLast = managedRoot := List.dropLast_concat
  have wrote : ∀ bytes, callOrNothing (fun tree => write tree registryPath bytes) tree =
      (.ok (), put tree registryPath (.file bytes)) := by
    intro bytes
    have there : node tree managedRoot = some .directory := stands managedRoot (List.prefix_refl _)
    rw [callOrNothing, write, if_neg file, parent, if_pos there]
  refine ⟨put tree registryPath (.file (registryBytes host registry)), ?_⟩
  unfold saveInstalledSkillRegistry
  rw [noRoot, Action.bind_ok root]
  cases fault with
  | none => exact wrote _
  | some fault =>
      cases fault with
      | writeRegistry left => exact absurd rfl (noWrite left)
      | _ => exact wrote _

end Save

end Openyak.Runtime
