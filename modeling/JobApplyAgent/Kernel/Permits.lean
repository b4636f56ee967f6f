import JobApplyAgent.Store.Rows
import JobApplyAgent.Library.Fallible

/-!
# Final-submit permits

Issuing, validating and consuming the one-use authority of an attempt, and the
reconstruction of the domain plan and permit from their rows.
-/

namespace JobApplyAgent.Kernel

open Domain Store Library

/-- A stable, fail-closed permit rejection. -/
inductive PermitError where
  | required
  | expired
  | replayed
  | jobUrlChanged
  | applicationRevisionChanged
  | adapterVersionChanged
  | selectorDrift
  | formChanged
  | attachmentChanged
  | attachmentUnverified
  | submissionAuthorityChanged
  | automationPolicyChanged
  | canaryAuthorizationChanged
  | bindingMismatch
  | governorDenied
  deriving DecidableEq

def permitReasonMap : PermitError → FailureReason
  | .required => .permitMissing
  | .expired => .permitExpired
  | .replayed => .permitReplayed
  | .jobUrlChanged => .permitBindingMismatch
  | .applicationRevisionChanged => .permitBindingMismatch
  | .adapterVersionChanged => .permitBindingMismatch
  | .selectorDrift => .selectorDrift
  | .formChanged => .formChanged
  | .attachmentChanged => .attachmentUnverified
  | .attachmentUnverified => .attachmentUnverified
  | .submissionAuthorityChanged => .permitBindingMismatch
  | .automationPolicyChanged => .permitBindingMismatch
  -- the source's map has no entry for a changed canary authorization
  | .canaryAuthorizationChanged => .formChanged
  | .bindingMismatch => .permitBindingMismatch
  | .governorDenied => .governorDenied

/-- `str(value or "")` of an optional column. -/
def columnText (value : Option String) : String := value.getD ""

/-- A permit outlives neither its plan nor the authority it is issued under. -/
def permitExpiry (plan : FormPlan) (ttlSeconds : ℤ) (now : Timestamp)
    (notAfter : Option Timestamp) : Timestamp :=
  let lifetime := min plan.expiresAt (now + max 1 ttlSeconds * second)
  match notAfter with
  | none => lifetime
  | some deadline => min lifetime deadline

def issueFinalSubmitPermit (attempt : Submission) (plan : FormPlan)
    (jobUrlHash nonceHash : String) (ttlSeconds : ℤ) (now : Timestamp)
    (notAfter : Option Timestamp) : Except PermitError PermitRow :=
  if ¬plan.attachmentVerified ∨ columnText plan.attachedCvHash = "" then
    .error .attachmentUnverified
  else if permitExpiry plan ttlSeconds now notAfter ≤ now then .error .expired
  else
    .ok
      { nonceHash
        jobUrlHash
        applicationRevision := attempt.applicationRevision
        adapterName := attempt.adapterName.getD attempt.submitterName
        adapterVersion := columnText attempt.adapterVersion
        selectorVersion := columnText attempt.selectorVersion
        formPlanFingerprint := columnText attempt.formPlanFingerprint
        cvHash := columnText attempt.attachedCvHash
        issuedAt := now
        expiresAt := permitExpiry plan ttlSeconds now notAfter
        consumedAt := none
        authorityKind := attempt.authorityKind
        automationPolicyDecisionDigest := attempt.automationPolicyDecisionDigest
        qualificationCanaryAuthorizationDigest :=
          attempt.qualificationCanaryAuthorizationDigest }

/-- Everything a permit is bound to, in the order it is compared. -/
def permitBindings (permit : PermitRow) (attempt : Submission) (plan : FormPlan)
    (jobUrlHash : String) : List (Bool × PermitError) :=
  [(decide (permit.jobUrlHash = jobUrlHash), .jobUrlChanged),
    (decide (permit.applicationRevision = attempt.applicationRevision),
      .applicationRevisionChanged),
    (decide (permit.applicationRevision = plan.applicationRevision),
      .applicationRevisionChanged),
    (decide (permit.adapterName = columnText attempt.adapterName),
      .adapterVersionChanged),
    (decide (permit.adapterName = plan.adapterName), .adapterVersionChanged),
    (decide (permit.adapterVersion = columnText attempt.adapterVersion),
      .adapterVersionChanged),
    (decide (permit.adapterVersion = plan.adapterVersion), .adapterVersionChanged),
    (decide (permit.selectorVersion = columnText attempt.selectorVersion),
      .selectorDrift),
    (decide (permit.selectorVersion = plan.selectorVersion), .selectorDrift),
    (decide (permit.formPlanFingerprint = columnText attempt.formPlanFingerprint),
      .formChanged),
    (decide (permit.formPlanFingerprint = plan.fingerprint), .formChanged),
    (decide (permit.cvHash = columnText attempt.attachedCvHash), .attachmentChanged),
    (decide (permit.cvHash = columnText plan.attachedCvHash), .attachmentChanged),
    (decide (permit.authorityKind = attempt.authorityKind),
      .submissionAuthorityChanged),
    (decide (columnText permit.automationPolicyDecisionDigest =
      columnText attempt.automationPolicyDecisionDigest), .automationPolicyChanged),
    (decide (columnText permit.qualificationCanaryAuthorizationDigest =
      columnText attempt.qualificationCanaryAuthorizationDigest),
      .canaryAuthorizationChanged)]

/-- Reject expiry, replay, or any binding drift before external work. -/
def validateFinalSubmitPermit (permit : PermitRow) (attempt : Submission)
    (plan : FormPlan) (jobUrlHash : String) (now : Timestamp) :
    Except PermitError Unit :=
  if permit.consumedAt.isSome then .error .replayed
  else if permit.expiresAt ≤ now then .error .expired
  else
    match requireBindings (permitBindings permit attempt plan jobUrlHash) with
    | .error error => .error error
    | .ok () =>
      if ¬attempt.attachmentVerified ∨ ¬plan.attachmentVerified then
        .error .attachmentUnverified
      else .ok ()

/-- Mark the permit spent in the transaction that enters `committing`. -/
def consumeFinalSubmitPermit (permit : PermitRow) (now : Timestamp) :
    Except KernelError PermitRow :=
  if permit.consumedAt.isSome then .error .permitReplayed
  else .ok { permit with consumedAt := some now }

def loadDomainPlan (plan : FormPlan) : Option FormPlanV1 :=
  if plan.contractValid then
    match plan.attachedCvId, plan.attachedCvHash, plan.profileVersion,
        plan.sessionVerifiedAt with
    | some attachedCvId, some attachedCvHash, some profileVersion,
        some sessionVerifiedAt =>
        some
          { planId := plan.planId
            applicationId := plan.applicationId
            applicationRevision := plan.applicationRevision
            adapterName := plan.adapterName
            adapterVersion := plan.adapterVersion
            selectorVersion := plan.selectorVersion
            formFingerprint := plan.fingerprint
            selectedCvId := plan.selectedCvId
            selectedCvHash := plan.selectedCvHash
            attachedCvId
            attachedCvHash
            attachmentVerified := plan.attachmentVerified
            profileVersion
            sessionVerifiedAt
            createdAt := plan.createdAt
            expiresAt := plan.expiresAt
            blockers := plan.blockers
            usesLocalLlm := plan.usesLocalLlm
            answerPolicyVersion := plan.answerPolicyVersion
            llmPromptVersion := plan.llmPromptVersion
            llmModelProvider := plan.llmModelProvider
            llmModelName := plan.llmModelName
            llmModelDigest := plan.llmModelDigest }
    | _, _, _, _ => none
  else none

def loadDomainPermit (attemptId : ℕ) (permit : PermitRow) : FinalSubmitPermit where
  attemptId
  jobUrlHash := permit.jobUrlHash
  applicationRevision := permit.applicationRevision
  adapterName := permit.adapterName
  adapterVersion := permit.adapterVersion
  selectorVersion := permit.selectorVersion
  formFingerprint := permit.formPlanFingerprint
  cvHash := permit.cvHash
  expiresAt := permit.expiresAt
  nonce := permit.nonceHash

theorem loadDomainPlan_eq_some (hload : loadDomainPlan plan = some domainPlan) :
    plan.attachedCvHash = some domainPlan.attachedCvHash ∧
      domainPlan.adapterName = plan.adapterName ∧
      domainPlan.adapterVersion = plan.adapterVersion ∧
      domainPlan.selectorVersion = plan.selectorVersion ∧
      domainPlan.formFingerprint = plan.fingerprint ∧
      domainPlan.selectedCvHash = plan.selectedCvHash ∧
      domainPlan.expiresAt = plan.expiresAt ∧ domainPlan.blockers = plan.blockers := by
  unfold loadDomainPlan at hload
  split at hload
  · split at hload
    · next hhash _ _ =>
      cases hload
      exact ⟨hhash, rfl, rfl, rfl, rfl, rfl, rfl, rfl⟩
    · cases hload
  · cases hload

theorem permitExpiry_le (plan : FormPlan) (ttlSeconds : ℤ) (now : Timestamp)
    (notAfter : Option Timestamp) :
    permitExpiry plan ttlSeconds now notAfter ≤ plan.expiresAt := by
  cases notAfter with
  | none => exact min_le_left _ _
  | some deadline => exact (min_le_left _ _).trans (min_le_left _ _)

/-- A new permit is unspent and outlives neither its plan nor the authority it
was issued under. -/
theorem issueFinalSubmitPermit_eq_ok
    (hissue : issueFinalSubmitPermit attempt plan jobUrlHash nonceHash ttlSeconds
      now notAfter = .ok permit) :
    permit.consumedAt = none ∧ permit.expiresAt ≤ plan.expiresAt ∧
      ∀ deadline, notAfter = some deadline → permit.expiresAt ≤ deadline := by
  unfold issueFinalSubmitPermit at hissue
  split at hissue
  · cases hissue
  split at hissue
  · cases hissue
  rw [Except.ok.injEq] at hissue
  subst hissue
  refine ⟨rfl, permitExpiry_le plan ttlSeconds now notAfter, ?_⟩
  rintro deadline rfl
  exact min_le_right _ _

/-- A validated permit is unspent, alive, and agrees with its attempt and its
plan on every binding. -/
theorem validateFinalSubmitPermit_eq_ok
    (hvalid : validateFinalSubmitPermit permit attempt plan jobUrlHash now = .ok ()) :
    permit.consumedAt = none ∧ now < permit.expiresAt ∧
      ∀ binding ∈ permitBindings permit attempt plan jobUrlHash,
        binding.1 = true := by
  unfold validateFinalSubmitPermit at hvalid
  split at hvalid
  · cases hvalid
  next hconsumed =>
  split at hvalid
  · cases hvalid
  next halive =>
  split at hvalid
  · cases hvalid
  next hbindings =>
  exact ⟨by simpa using hconsumed, not_le.mp halive,
    requireBindings_eq_ok.mp hbindings⟩

end JobApplyAgent.Kernel
