/-
# Runtime.PermissionEnforcer -- may this path be written?

`checkFileWrite` judges a path text against a workspace root: in workspace-write mode
the path is resolved (`resolveWriteTargetPath`) and compared with the root by its
components.  The target is resolved by `canonicalize`; where that fails, a path that is
lexically below the root and has no `..` after it is taken at its word, and any other
one has its parent resolved.
-/
import Openyak.Runtime.Permissions
import Openyak.Theory.PathText

namespace Openyak.Runtime

open Openyak.Theory.Posix

set_option autoImplicit false

/-! ## Calls on whole paths -/

section Calls

variable {fs : FileSystem} (cwd : WorkingDirectory fs)

/-- `Path::canonicalize`. -/
def canonicalize (path : Path) : Option Path :=
  (fs.canonicalize (path.start cwd.location) path.components).map Path.ofLocation

end Calls

/-! ## The enforcer -/

inductive EnforcementResult where
  | allowed
  | denied (tool activeMode requiredMode reason : String)
  deriving DecidableEq, Repr

/-- The part of the policy that file writes are judged by. -/
structure PermissionPolicy where
  activeMode : PermissionMode
  deriving DecidableEq, Repr

structure PermissionEnforcer where
  policy : PermissionPolicy
  deriving DecidableEq, Repr

section Paths

variable {fs : FileSystem} (cwd : WorkingDirectory fs)

/-- What of the candidate is below the root, unless it goes up. -/
def relativePathWithinRoot (candidate root : Path) : Option Path :=
  match candidate.stripPrefix root with
  | none => none
  | some relative =>
      if relative.components.any (· = .parent) || relative.absolute then none else some relative

def rewriteWorkspaceAliasPath (candidate rawWorkspaceRoot resolvedWorkspaceRoot : Path) :
    Option Path :=
  ((relativePathWithinRoot candidate rawWorkspaceRoot).orElse fun _ =>
      relativePathWithinRoot candidate resolvedWorkspaceRoot).map resolvedWorkspaceRoot.join

def resolveWriteTargetPath (path : String) (rawWorkspaceRoot resolvedWorkspaceRoot : Path) :
    Path :=
  let candidate :=
    if (Path.ofText path).absolute then Path.ofText path
    else resolvedWorkspaceRoot.join (Path.ofText path)
  match canonicalize cwd candidate with
  | some canonical => canonical
  | none =>
      match rewriteWorkspaceAliasPath candidate rawWorkspaceRoot resolvedWorkspaceRoot with
      | some rewritten => rewritten
      | none =>
          match candidate.parent with
          | none => candidate
          | some parent =>
              let canonicalParent := (canonicalize cwd parent).orElse fun _ =>
                rewriteWorkspaceAliasPath parent rawWorkspaceRoot resolvedWorkspaceRoot
              match candidate.fileName with
              | some name => (canonicalParent.getD parent).join ⟨false, [.name name]⟩
              | none => candidate

def isWithinWorkspace (path workspaceRoot : String) : Bool :=
  let rawWorkspaceRoot := Path.ofText workspaceRoot
  let resolvedRoot := (canonicalize cwd rawWorkspaceRoot).getD rawWorkspaceRoot
  let candidate := resolveWriteTargetPath cwd path rawWorkspaceRoot resolvedRoot
  candidate.startsWith resolvedRoot

/-- `check_file_write`.  (A path equal to the root also starts with it.) -/
def PermissionEnforcer.checkFileWrite (enforcer : PermissionEnforcer)
    (path workspaceRoot : String) : EnforcementResult :=
  let mode := enforcer.policy.activeMode
  match mode with
  | .readOnly =>
      .denied "write_file" mode.asStr PermissionMode.workspaceWrite.asStr
        ("file writes are not allowed in '" ++ mode.asStr ++ "' mode")
  | .workspaceWrite =>
      if isWithinWorkspace cwd path workspaceRoot then .allowed
      else
        .denied "write_file" mode.asStr PermissionMode.dangerFullAccess.asStr
          ("path '" ++ path ++ "' is outside workspace root '" ++ workspaceRoot ++ "'")
  | .allow | .dangerFullAccess => .allowed
  | .prompt =>
      .denied "write_file" mode.asStr PermissionMode.workspaceWrite.asStr
        "file write requires confirmation in prompt mode"

end Paths

/-! ## What the check is worth -/

section Worth

variable {fs : FileSystem} (cwd : WorkingDirectory fs)

theorem canonicalize_eq (path : Path) :
    canonicalize cwd path =
      match cwd.resolve path with
      | .found location => some (Path.ofLocation location)
      | .absent .. | .blocked => none := by
  unfold canonicalize WorkingDirectory.resolve FileSystem.canonicalize FileSystem.resolve
  cases fs.walk fs.linkDepth (path.start cwd.location) path.components <;> rfl

theorem canonicalize_root : canonicalize cwd cwd.path = some (Path.ofLocation cwd.location) := by
  rw [canonicalize_eq, cwd.resolve_path]

/-- **The check of a path that leads somewhere says whether that is below the root.** -/
theorem isWithinWorkspace_found {path : String} {location : Location}
    (leads : cwd.resolve (Path.ofText path) = .found location) :
    isWithinWorkspace cwd path cwd.text ↔ cwd.location <+: location := by
  have root : canonicalize cwd (Path.ofText cwd.text) = some (Path.ofLocation cwd.location) :=
    canonicalize_root cwd
  have rootLeads : cwd.resolve (Path.ofLocation cwd.location) = .found cwd.location :=
    cwd.resolve_ofLocation cwd.settled
  unfold isWithinWorkspace resolveWriteTargetPath
  dsimp only
  rw [root, Option.getD_some]
  have candidate : canonicalize cwd
      (if (Path.ofText path).absolute then Path.ofText path
        else (Path.ofLocation cwd.location).join (Path.ofText path)) =
      some (Path.ofLocation location) := by
    rw [canonicalize_eq]
    by_cases absolute : (Path.ofText path).absolute
    · rw [if_pos absolute, leads]
    · rw [if_neg absolute, cwd.resolve_join rfl rootLeads, leads]
  rw [candidate]
  exact Path.startsWith_ofLocation

end Worth

end Openyak.Runtime
