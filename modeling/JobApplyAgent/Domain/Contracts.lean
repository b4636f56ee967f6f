import JobApplyAgent.Domain.Lifecycle

/-!
# Domain contracts

The immutable values that cross the ambiguity boundary: the reviewed form
plan, the one-use permit, the prepared final action, the employer evidence and
the discriminated preflight and commit outcomes.  Instants are integers of
microseconds; identifiers, versions and SHA-256 digests are opaque texts.
-/

namespace JobApplyAgent.Domain

abbrev Timestamp := ℤ

/-- One second of wall-clock time. -/
def second : Timestamp := 1000000

def minute : Timestamp := 60 * second

def hour : Timestamp := 60 * minute

def day : Timestamp := 24 * hour

/-- The reviewed form snapshot, reduced to what authority is bound to. -/
structure FormPlanV1 where
  planId : String
  applicationId : ℕ
  applicationRevision : ℕ
  adapterName : String
  adapterVersion : String
  selectorVersion : String
  formFingerprint : String
  selectedCvId : String
  selectedCvHash : String
  attachedCvId : String
  attachedCvHash : String
  attachmentVerified : Bool
  profileVersion : ℕ
  sessionVerifiedAt : Timestamp
  createdAt : Timestamp
  expiresAt : Timestamp
  blockers : List ReasonCode
  usesLocalLlm : Bool
  answerPolicyVersion : String
  llmPromptVersion : Option String
  llmModelProvider : Option String
  llmModelName : Option String
  llmModelDigest : Option String
  deriving DecidableEq

namespace FormPlanV1

def isExpired (plan : FormPlanV1) (now : Timestamp) : Bool :=
  decide (plan.expiresAt ≤ now)

/-- Require reviewed answers, the exact CV attachment, and a live session. -/
def readyForPermit (plan : FormPlanV1) : Bool :=
  plan.blockers.isEmpty
    && plan.attachmentVerified
    && decide (plan.attachedCvId = plan.selectedCvId)
    && decide (plan.attachedCvHash = plan.selectedCvHash)
    && decide (plan.createdAt ≤ plan.sessionVerifiedAt)
    && decide (plan.sessionVerifiedAt ≤ plan.expiresAt)

/-- Require that all review evidence already exists at admission time. -/
def readyForPermitAt (plan : FormPlanV1) (now : Timestamp) : Bool :=
  plan.readyForPermit
    && decide (plan.createdAt ≤ now)
    && decide (now < plan.expiresAt)
    && decide (plan.sessionVerifiedAt ≤ now)

end FormPlanV1

/-- One-use capability bound to the exact reviewed external action. -/
structure FinalSubmitPermit where
  attemptId : ℕ
  jobUrlHash : String
  applicationRevision : ℕ
  adapterName : String
  adapterVersion : String
  selectorVersion : String
  formFingerprint : String
  cvHash : String
  expiresAt : Timestamp
  nonce : String
  deriving DecidableEq

/-- Check every permit field derivable from a reviewed form plan. -/
def FinalSubmitPermit.binds (permit : FinalSubmitPermit) (plan : FormPlanV1) :
    Bool :=
  plan.readyForPermit
    && decide (permit.applicationRevision = plan.applicationRevision)
    && decide (permit.adapterName = plan.adapterName)
    && decide (permit.adapterVersion = plan.adapterVersion)
    && decide (permit.selectorVersion = plan.selectorVersion)
    && decide (permit.formFingerprint = plan.formFingerprint)
    && decide (permit.cvHash = plan.selectedCvHash)
    && decide (permit.expiresAt ≤ plan.expiresAt)

/-- Ephemeral handle produced by the reversible browser preflight. -/
structure PreparedFinalActionV1 where
  attemptId : ℕ
  adapterName : String
  adapterVersion : String
  selectorVersion : String
  formFingerprint : String
  attachedCvHash : String
  preparedAt : Timestamp
  expiresAt : Timestamp
  actionNonce : String
  lifetime : preparedAt < expiresAt ∧ expiresAt - preparedAt ≤ 5 * minute

def PreparedFinalActionV1.binds (action : PreparedFinalActionV1)
    (plan : FormPlanV1) (permit : FinalSubmitPermit) (now : Timestamp) : Bool :=
  decide (now < action.expiresAt)
    && decide (action.attemptId = permit.attemptId)
    && decide (action.adapterName = plan.adapterName
        ∧ plan.adapterName = permit.adapterName)
    && decide (action.adapterVersion = plan.adapterVersion
        ∧ plan.adapterVersion = permit.adapterVersion)
    && decide (action.selectorVersion = plan.selectorVersion
        ∧ plan.selectorVersion = permit.selectorVersion)
    && decide (action.formFingerprint = plan.formFingerprint
        ∧ plan.formFingerprint = permit.formFingerprint)
    && decide (action.attachedCvHash = plan.attachedCvHash
        ∧ plan.attachedCvHash = permit.cvHash)
    && decide (action.preparedAt ≤ now)
    && decide (action.expiresAt ≤ permit.expiresAt)
    && permit.binds plan

/-- What a handle that binds has in common with its plan and its permit. -/
theorem PreparedFinalActionV1.bound_of_binds {action : PreparedFinalActionV1}
    (hbinds : action.binds plan permit now = true) :
    (plan.readyForPermit = true ∧
      permit.applicationRevision = plan.applicationRevision ∧
      permit.adapterName = plan.adapterName ∧ permit.adapterVersion = plan.adapterVersion ∧
      permit.selectorVersion = plan.selectorVersion ∧
      permit.formFingerprint = plan.formFingerprint ∧ permit.cvHash = plan.selectedCvHash ∧
      permit.expiresAt ≤ plan.expiresAt) ∧
    now < action.expiresAt ∧ action.adapterName = plan.adapterName ∧
      action.adapterVersion = plan.adapterVersion ∧
      action.selectorVersion = plan.selectorVersion ∧
      action.formFingerprint = plan.formFingerprint ∧
      action.attachedCvHash = plan.attachedCvHash ∧ action.expiresAt ≤ permit.expiresAt := by
  simp only [PreparedFinalActionV1.binds, FinalSubmitPermit.binds, Bool.and_eq_true,
    decide_eq_true_eq] at hbinds
  obtain ⟨⟨⟨⟨⟨⟨⟨⟨⟨halive, _⟩, hname, _⟩, hversion, _⟩, hselector, _⟩, hform, _⟩, hcv, _⟩, _⟩,
    hexpiry⟩, hpermit⟩ := hbinds
  exact ⟨by simpa [and_assoc] using hpermit, halive, hname, hversion, hselector, hform, hcv,
    hexpiry⟩

/-- Employer-side evidence types that can be independently verified. -/
inductive EvidenceType where
  | employerApplicationId
  | apiReceipt
  | candidatePortalRecord
  | visiblePostClickConfirmation
  deriving DecidableEq

/-- Redacted employer-side evidence bound to an attempt, form, and CV. -/
structure SubmissionEvidence where
  attemptId : ℕ
  evidenceType : EvidenceType
  employerApplicationId : Option String
  apiReceiptId : Option String
  candidatePortalReference : Option String
  formFingerprint : String
  attachedCvHash : String
  observedAt : Timestamp
  digest : String

def needsReviewReasons : List ReasonCode :=
  [.runtimeNotReady, .buildMismatch, .adapterNotQualified, .sessionExpired,
    .mfaRequired, .challengeDetected, .formChanged, .requiredFieldUnknown,
    .attachmentUnverified, .jobClosed, .selectorDrift, .unsupportedControl]

def unknownReasons : List ReasonCode :=
  [.finalActionUnconfirmed, .staleIndeterminate, .sessionExpired,
    .challengeDetected, .networkError, .internalError, .evidenceInvalid]

def failedBeforeCommitReasons : List ReasonCode :=
  [.runtimeNotReady, .buildMismatch, .adapterNotQualified, .sessionExpired,
    .formChanged, .requiredFieldUnknown, .attachmentUnverified, .jobClosed,
    .selectorDrift, .permitMissing, .permitExpired, .permitReplayed,
    .permitBindingMismatch, .commandExpired, .commandReplayed, .governorDenied,
    .operatorCancelled, .unsupportedControl, .networkError, .internalError]

def draftOnlyReasons : List ReasonCode := [.dryRunDiscarded, .draftOnly]

/-- A reason that an attempt may fail with before its boundary. -/
abbrev FailureReason := {code // code ∈ failedBeforeCommitReasons}

namespace FailureReason

def runtimeNotReady : FailureReason := ⟨.runtimeNotReady, by decide⟩

def buildMismatch : FailureReason := ⟨.buildMismatch, by decide⟩

def adapterNotQualified : FailureReason := ⟨.adapterNotQualified, by decide⟩

def formChanged : FailureReason := ⟨.formChanged, by decide⟩

def attachmentUnverified : FailureReason := ⟨.attachmentUnverified, by decide⟩

def selectorDrift : FailureReason := ⟨.selectorDrift, by decide⟩

def permitMissing : FailureReason := ⟨.permitMissing, by decide⟩

def permitExpired : FailureReason := ⟨.permitExpired, by decide⟩

def permitReplayed : FailureReason := ⟨.permitReplayed, by decide⟩

def permitBindingMismatch : FailureReason := ⟨.permitBindingMismatch, by decide⟩

def governorDenied : FailureReason := ⟨.governorDenied, by decide⟩

def internalError : FailureReason := ⟨.internalError, by decide⟩

end FailureReason

/-- A reason that leaves it unknown whether an attempt submitted anything. -/
abbrev UnknownReason := {code // code ∈ unknownReasons}

namespace UnknownReason

def finalActionUnconfirmed : UnknownReason := ⟨.finalActionUnconfirmed, by decide⟩

def staleIndeterminate : UnknownReason := ⟨.staleIndeterminate, by decide⟩

def internalError : UnknownReason := ⟨.internalError, by decide⟩

def evidenceInvalid : UnknownReason := ⟨.evidenceInvalid, by decide⟩

end UnknownReason

/-- A terminal result; each kind admits its own reasons only. -/
inductive CommitOutcome where
  | confirmedSubmitted (evidence : SubmissionEvidence)
  | alreadyApplied
  | needsReview (reason : {code // code ∈ needsReviewReasons})
  | unknown (reason : UnknownReason)
  | failedBeforeCommit (reason : FailureReason)
  | draftOnly (reason : {code // code ∈ draftOnlyReasons})

def CommitOutcome.kind : CommitOutcome → AttemptOutcome
  | .confirmedSubmitted _ => .confirmedSubmitted
  | .alreadyApplied => .alreadyApplied
  | .needsReview _ => .needsReview
  | .unknown _ => .unknown
  | .failedBeforeCommit _ => .failedBeforeCommit
  | .draftOnly _ => .draftOnly

/-- What a preflight may return: confirmed and unknown results are rejected
before the irreversible boundary. -/
inductive PreflightOutcome where
  | prepared (action : PreparedFinalActionV1)
  | alreadyApplied
  | needsReview (reason : {code // code ∈ needsReviewReasons})
  | failedBeforeCommit (reason : FailureReason)
  | draftOnly (reason : {code // code ∈ draftOnlyReasons})

def PreflightOutcome.terminal? : PreflightOutcome → Option CommitOutcome
  | .prepared _ => none
  | .alreadyApplied => some .alreadyApplied
  | .needsReview reason => some (.needsReview reason)
  | .failedBeforeCommit reason => some (.failedBeforeCommit reason)
  | .draftOnly reason => some (.draftOnly reason)

/-- A preflight can only end an attempt with an outcome that every stage from
inspecting to ready accepts. -/
theorem PreflightOutcome.kind_mem_allowedTerminalOutcomes {preflight : PreflightOutcome}
    (hterminal : preflight.terminal? = some outcome)
    (hstage : stage = .inspecting ∨ stage = .preparing ∨ stage = .ready) :
    outcome.kind ∈ allowedTerminalOutcomes stage := by
  cases preflight <;> simp only [terminal?, Option.some.injEq, reduceCtorEq]
    at hterminal <;> subst hterminal <;>
    rcases hstage with rfl | rfl | rfl <;>
    simp [CommitOutcome.kind, allowedTerminalOutcomes]

end JobApplyAgent.Domain
