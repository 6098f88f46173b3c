/-
# Runtime.SandboxCeiling -- a tool profile's sandbox against what a call overrides

The resolver fills a sandbox's unset fields with defaults and lets the overrides of a call
win.  The validator looks at the fields as they are set: of an unset one it knows the default
for `enabled` only.  So a call may switch off what the default switches on
(`ceiling_not_kept`), and nothing else (`ceiling_kept_iff`).
-/
import Openyak.Runtime.ToolPolicy

namespace Openyak.Runtime

set_option autoImplicit false

structure SandboxRequest where
  enabled : Bool
  namespaceRestrictions : Bool
  networkIsolation : Bool
  filesystemMode : FilesystemIsolationMode
  allowedMounts : List String
  deriving DecidableEq, Repr

/-- The mode that is the default. -/
def FilesystemIsolationMode.default : FilesystemIsolationMode := .workspaceOnly

def SandboxConfig.resolveRequest (config : SandboxConfig) (enabledOverride namespaceOverride
    networkOverride : Option Bool) (filesystemModeOverride : Option FilesystemIsolationMode)
    (allowedMountsOverride : Option (List String)) : SandboxRequest where
  enabled := enabledOverride.getD (config.enabled.getD true)
  namespaceRestrictions := namespaceOverride.getD (config.namespaceRestrictions.getD true)
  networkIsolation := networkOverride.getD (config.networkIsolation.getD false)
  filesystemMode := (filesystemModeOverride.or config.filesystemMode).getD .default
  allowedMounts := allowedMountsOverride.getD config.allowedMounts

/-- What `sandbox_status_for_input` resolves. -/
def requestForInput (input : BashCommandInput) (config : SandboxConfig) : SandboxRequest :=
  config.resolveRequest (input.dangerouslyDisableSandbox.map fun disabled => !disabled)
    input.namespaceRestrictions input.isolateNetwork input.filesystemMode input.allowedMounts

/-- With no overrides. -/
def SandboxConfig.request (config : SandboxConfig) : SandboxRequest :=
  config.resolveRequest none none none none none

/-- What is on in the ceiling is on, the filesystem is no less isolated and there is no mount
that the ceiling does not have. -/
structure SandboxRequest.AtLeastAsStrict (request ceiling : SandboxRequest) : Prop where
  enabled : ceiling.enabled = true → request.enabled = true
  namespaceRestrictions : ceiling.namespaceRestrictions = true → request.namespaceRestrictions = true
  networkIsolation : ceiling.networkIsolation = true → request.networkIsolation = true
  filesystemMode : filesystemModeRank ceiling.filesystemMode ≤ filesystemModeRank request.filesystemMode
  allowedMounts : request.allowedMounts ⊆ ceiling.allowedMounts

/-- A call that switches off restrictions that the policy leaves unset. -/
def UnsetNamespaceOff (policy : ToolProfileBashPolicy) (input : BashCommandInput) : Prop :=
  policy.sandbox.namespaceRestrictions = none ∧ input.namespaceRestrictions = some false

/-- A call that switches off an isolation that the policy leaves unset. -/
def UnsetFilesystemOff (policy : ToolProfileBashPolicy) (input : BashCommandInput) : Prop :=
  policy.sandbox.filesystemMode = none ∧ input.filesystemMode = some .off

/-! ## What a valid override is -/

/-- The five tests, each passed. -/
structure ToolProfileBashPolicy.Accepts (policy : ToolProfileBashPolicy) (input : BashCommandInput) :
    Prop where
  enabled : ¬(input.dangerouslyDisableSandbox = some true ∧
    policy.allowDangerouslyDisableSandbox = false ∧ policy.sandbox.enabled.getD true = true)
  namespaceRestrictions : ¬(policy.sandbox.namespaceRestrictions = some true ∧
    input.namespaceRestrictions = some false)
  networkIsolation : ¬(policy.sandbox.networkIsolation = some true ∧ input.isolateNetwork = some false)
  filesystemMode : weakensFilesystem policy.sandbox.filesystemMode input.filesystemMode = false
  allowedMounts : input.allowedMounts.getD [] ⊆ policy.sandbox.allowedMounts

variable {policy : ToolProfileBashPolicy} {input : BashCommandInput}

theorem validateOverride_ok_iff : policy.validateOverride input = .ok () ↔ policy.Accepts input := by
  have mounts : (input.allowedMounts.getD []).all (policy.sandbox.allowedMounts.contains ·) = true ↔
      input.allowedMounts.getD [] ⊆ policy.sandbox.allowedMounts := by
    rw [List.all_eq_true]
    apply forall₂_congr
    intro mount _
    exact List.contains_iff_mem
  unfold ToolProfileBashPolicy.validateOverride
  constructor
  · intro valid
    split at valid
    · cases valid
    rename_i enabled
    split at valid
    · cases valid
    rename_i restrictions
    split at valid
    · cases valid
    rename_i network
    split at valid
    · cases valid
    rename_i filesystem
    split at valid
    · cases valid
    rename_i all
    exact ⟨enabled, restrictions, network, by simpa using filesystem, mounts.1 (by simpa using all)⟩
  · intro accepts
    rw [if_neg accepts.enabled, if_neg accepts.namespaceRestrictions, if_neg accepts.networkIsolation,
      if_neg (by simp [accepts.filesystemMode]), if_neg (by simp only [mounts.2 accepts.allowedMounts]; decide)]

/-! ## The fields -/

section Fields

variable (accepts : policy.Accepts input)
include accepts

theorem enabled_kept (never : policy.allowDangerouslyDisableSandbox = false)
    (required : policy.sandbox.request.enabled = true) :
    (requestForInput input policy.sandbox).enabled = true := by
  have on : policy.sandbox.enabled.getD true = true := required
  show (input.dangerouslyDisableSandbox.map fun disabled => !disabled).getD
    (policy.sandbox.enabled.getD true) = true
  cases disabled : input.dangerouslyDisableSandbox with
  | none => exact on
  | some disable =>
      cases disable with
      | false => rfl
      | true => exact absurd ⟨disabled, never, on⟩ accepts.enabled

theorem namespaceRestrictions_kept_iff :
    (policy.sandbox.request.namespaceRestrictions = true →
      (requestForInput input policy.sandbox).namespaceRestrictions = true) ↔
      ¬UnsetNamespaceOff policy input := by
  have tested := accepts.namespaceRestrictions
  show (policy.sandbox.namespaceRestrictions.getD true = true →
    input.namespaceRestrictions.getD (policy.sandbox.namespaceRestrictions.getD true) = true) ↔ _
  unfold UnsetNamespaceOff
  cases override : input.namespaceRestrictions with
  | none => simp
  | some value =>
      cases value with
      | true => simp
      | false =>
          cases required : policy.sandbox.namespaceRestrictions with
          | none => simp
          | some set =>
              rw [override, required] at tested
              simpa using tested

theorem networkIsolation_kept (required : policy.sandbox.request.networkIsolation = true) :
    (requestForInput input policy.sandbox).networkIsolation = true := by
  have on : policy.sandbox.networkIsolation.getD false = true := required
  have set : policy.sandbox.networkIsolation = some true := by
    cases isSet : policy.sandbox.networkIsolation with
    | none =>
        rw [isSet] at on
        cases on
    | some value =>
        rw [isSet] at on
        exact congrArg some on
  show input.isolateNetwork.getD (policy.sandbox.networkIsolation.getD false) = true
  cases override : input.isolateNetwork with
  | none => exact on
  | some value =>
      cases value with
      | true => rfl
      | false => exact absurd ⟨set, override⟩ accepts.networkIsolation

theorem filesystemMode_kept_iff :
    filesystemModeRank policy.sandbox.request.filesystemMode ≤
        filesystemModeRank (requestForInput input policy.sandbox).filesystemMode ↔
      ¬UnsetFilesystemOff policy input := by
  have tested := accepts.filesystemMode
  show filesystemModeRank ((none.or policy.sandbox.filesystemMode).getD .default) ≤
    filesystemModeRank ((input.filesystemMode.or policy.sandbox.filesystemMode).getD .default) ↔ _
  unfold UnsetFilesystemOff
  cases override : input.filesystemMode with
  | none => simp
  | some candidate =>
      cases required : policy.sandbox.filesystemMode with
      | none => cases candidate <;> simp [filesystemModeRank, FilesystemIsolationMode.default]
      | some mode =>
          rw [override, required, weakensFilesystem, decide_eq_false_iff_not, not_lt] at tested
          simpa using tested

theorem allowedMounts_kept :
    (requestForInput input policy.sandbox).allowedMounts ⊆ policy.sandbox.request.allowedMounts := by
  have inside := accepts.allowedMounts
  show input.allowedMounts.getD policy.sandbox.allowedMounts ⊆ policy.sandbox.allowedMounts
  cases override : input.allowedMounts with
  | none => exact List.Subset.refl _
  | some mounts =>
      rw [override] at inside
      exact inside

end Fields

/-! ## The ceiling -/

/-- **A valid override keeps the ceiling, unless it switches off what the policy leaves unset**:
the namespace restrictions or the isolation of the filesystem. -/
theorem ceiling_kept_iff (policy : ToolProfileBashPolicy) (input : BashCommandInput)
    (never : policy.allowDangerouslyDisableSandbox = false)
    (valid : policy.validateOverride input = .ok ()) :
    (requestForInput input policy.sandbox).AtLeastAsStrict policy.sandbox.request ↔
      ¬UnsetNamespaceOff policy input ∧ ¬UnsetFilesystemOff policy input := by
  have accepts := validateOverride_ok_iff.1 valid
  rw [← namespaceRestrictions_kept_iff accepts, ← filesystemMode_kept_iff accepts]
  constructor
  · intro strict
    exact ⟨strict.namespaceRestrictions, strict.filesystemMode⟩
  · rintro ⟨restrictions, filesystem⟩
    exact ⟨enabled_kept accepts never, restrictions, networkIsolation_kept accepts, filesystem,
      allowedMounts_kept accepts⟩

/-- A policy with every field set, and a call that narrows its mounts. -/
theorem ceiling_kept_iff_narrowing :
    (requestForInput { command := "printf hi", allowedMounts := some ["logs"] }
        ⟨some true, some true, some false, some .workspaceOnly, ["logs", "tmp/cache"]⟩).AtLeastAsStrict
      (SandboxConfig.request
        ⟨some true, some true, some false, some .workspaceOnly, ["logs", "tmp/cache"]⟩) :=
  (ceiling_kept_iff ⟨⟨some true, some true, some false, some .workspaceOnly, ["logs", "tmp/cache"]⟩, false⟩
    { command := "printf hi", allowedMounts := some ["logs"] } rfl (by decide)).2
    ⟨nofun, nofun⟩

/-- **An unset field is no ceiling**: the default isolates the filesystem and the namespaces,
and a call that the policy accepts switches both off. -/
theorem ceiling_not_kept :
    ToolProfileBashPolicy.validateOverride ⟨{}, false⟩
      { command := "printf hi", namespaceRestrictions := some false, filesystemMode := some .off } =
        .ok () ∧
    (SandboxConfig.request {}).namespaceRestrictions = true ∧
    (SandboxConfig.request {}).filesystemMode = .workspaceOnly ∧
    ¬(requestForInput
        { command := "printf hi", namespaceRestrictions := some false, filesystemMode := some .off }
        {}).AtLeastAsStrict (SandboxConfig.request {}) := by
  refine ⟨by decide, rfl, rfl, fun strict => ?_⟩
  cases strict.namespaceRestrictions rfl

end Openyak.Runtime
