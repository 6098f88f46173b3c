/-
# Runtime.Permissions -- permission modes
-/

namespace Openyak.Runtime

set_option autoImplicit false

inductive PermissionMode where
  | readOnly
  | workspaceWrite
  | dangerFullAccess
  | prompt
  | allow
  deriving DecidableEq, Repr

def PermissionMode.asStr : PermissionMode → String
  | .readOnly => "read-only"
  | .workspaceWrite => "workspace-write"
  | .dangerFullAccess => "danger-full-access"
  | .prompt => "prompt"
  | .allow => "allow"

def PermissionMode.autoAllows : (mode requiredMode : PermissionMode) → Bool
  | .allow, _ => true
  | .prompt, requiredMode | .readOnly, requiredMode => requiredMode = .readOnly
  | .dangerFullAccess, .readOnly | .dangerFullAccess, .workspaceWrite
  | .dangerFullAccess, .dangerFullAccess => true
  | .workspaceWrite, .readOnly | .workspaceWrite, .workspaceWrite => true
  | .dangerFullAccess, _ | .workspaceWrite, _ => false

def PermissionMode.encompasses (mode requiredMode : PermissionMode) : Bool :=
  mode.autoAllows requiredMode

end Openyak.Runtime
