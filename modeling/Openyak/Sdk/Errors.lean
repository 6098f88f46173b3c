/-
# Sdk.Errors -- the errors of the SDKs
-/

namespace Openyak.Sdk

set_option autoImplicit false

/-- The SDK's own classes, and `other`: of the network, of a body that is cut off, of the
caller's abort. -/
inductive SdkError where
  | api (status : Nat)
  | compatibility
  | protocol (message : String)
  | resyncRequired
  | reconnectRequired
  | other (message : String)
  deriving DecidableEq, Repr

end Openyak.Sdk
