import JobApplyAgent.Domain.Contracts
import JobApplyAgent.Library.Rows

/-!
# The local database

The persisted rows of one application, its reviewed form plans and its
submission attempts.  A job has one application and an attempt has at most one
permit and one command, so these rows are nested in their owner.  A command is
named by the id of its attempt.  A policy row carries the payload its signature
covers.  The database has one list for each table; an attempt is flushed under the constraints
of its table.
-/

namespace JobApplyAgent.Store

open Domain Library

/-- A stored reason: a bounded domain code or one of the texts that only the
persistence layer writes. -/
inductive AttemptReason where
  | code (reason : ReasonCode)
  | employerVerified
  | operatorConfirmedSubmitted
  | reconciledNotSubmitted
  | safePrecommitRedelivery
  | commandStateInvalid
  | other (text : String)
  deriving DecidableEq

inductive AuthorityKind where
  | explicitOperator
  | controlPlane
  | qualifiedAutopilot
  | qualificationCanary
  | legacy
  deriving DecidableEq

inductive ApprovalSource where
  | retryPrepare
  | manualPrepare
  | batchPrepare
  | qualifiedAutopilotPolicy
  | other (text : String)
  deriving DecidableEq

inductive CommandState where
  | pending
  | claimed
  | completed
  | cancelled
  deriving DecidableEq

inductive VerificationKind where
  | evidence (kind : EvidenceType)
  | operatorConfirmed

structure Job where
  status : JobStatus
  applyUrl : String
  sourceUrl : String
  terminalSkipAt : Option Timestamp

structure Application where
  job : Option Job
  status : JobStatus
  revision : ℕ
  preparedRevision : Option ℕ
  approvedAt : Option Timestamp
  approvalSource : Option ApprovalSource
  rejectedAt : Option Timestamp
  rejectionReason : Option String
  needsReviewReason : Option AttemptReason
  outcome : Option AttemptOutcome
  selectedCvId : Option String
  selectedCvHash : Option String
  profileVersion : Option ℕ
  jobFitDecisionId : Option ℕ
  materialEligible : Option Bool
  materialModelProvider : Option String
  materialModelName : Option String
  materialModelDigest : Option String
  materialPromptVersion : Option String

/-- A persisted form plan.  `contractValid` is the verdict of the domain
contract on the JSON columns, which never change once the row is written. -/
structure FormPlan where
  planId : String
  applicationId : ℕ
  applicationRevision : ℕ
  adapterName : String
  adapterVersion : String
  selectorVersion : String
  fingerprint : String
  selectedCvId : String
  selectedCvHash : String
  attachedCvId : Option String
  attachedCvHash : Option String
  attachmentVerified : Bool
  profileVersion : Option ℕ
  sessionVerifiedAt : Option Timestamp
  createdAt : Timestamp
  expiresAt : Timestamp
  contractValid : Bool
  blockers : List ReasonCode
  usesLocalLlm : Bool
  answerPolicyVersion : String
  llmPromptVersion : Option String
  llmModelProvider : Option String
  llmModelName : Option String
  llmModelDigest : Option String
  invalidatedAt : Option Timestamp
  invalidationReason : Option AttemptReason
  deriving DecidableEq

structure PermitRow where
  nonceHash : String
  jobUrlHash : String
  applicationRevision : ℕ
  adapterName : String
  adapterVersion : String
  selectorVersion : String
  formPlanFingerprint : String
  cvHash : String
  issuedAt : Timestamp
  expiresAt : Timestamp
  consumedAt : Option Timestamp
  authorityKind : AuthorityKind
  automationPolicyDecisionDigest : Option String
  qualificationCanaryAuthorizationDigest : Option String

structure SubmissionCommand where
  idempotencyKey : String
  state : CommandState
  availableAt : Timestamp
  claimedAt : Option Timestamp
  claimedBy : Option String
  claimToken : Option ℕ
  completedAt : Option Timestamp
  lastErrorCode : Option AttemptReason

structure EvidenceRow where
  evidenceType : EvidenceType
  evidenceDigest : String
  employerApplicationRef : Option String
  receiptRef : Option String
  portalRecordRef : Option String
  formFingerprint : String
  cvHash : String
  observedAt : Timestamp

/-- The operator's evidence for a reconciliation. -/
structure ReconciliationNote where
  source : String
  reference : String
  note : String

structure Submission where
  applicationId : ℕ
  attemptNumber : ℕ
  idempotencyKey : String
  submitterName : String
  status : SubmissionStatus
  stage : AttemptStage
  outcome : Option AttemptOutcome
  reasonCode : Option AttemptReason
  applicationRevision : ℕ
  adapterName : Option String
  adapterVersion : Option String
  selectorVersion : Option String
  formPlanId : Option ℕ
  formPlanFingerprint : Option String
  selectedCvId : Option String
  requestedCvId : Option String
  requestedCvHash : Option String
  attachedCvId : Option String
  attachedCvHash : Option String
  attachmentVerified : Bool
  profileVersion : Option ℕ
  runnerRelease : Option String
  authorityKind : AuthorityKind
  automationPolicyDecisionId : Option ℕ
  automationPolicyDecisionDigest : Option String
  qualificationCanaryAuthorizationId : Option ℕ
  qualificationCanaryAuthorizationDigest : Option String
  startedAt : Option Timestamp
  finishedAt : Option Timestamp
  submittedAt : Option Timestamp
  finalActionAt : Option Timestamp
  reconciledAt : Option Timestamp
  reconciliationNote : Option ReconciliationNote
  reconciliationSource : Option String
  reconciliationEvidenceRef : Option String
  verificationKind : Option VerificationKind
  evidenceDigest : Option String
  confirmationId : Option String
  errorMessage : Option String
  permit : Option PermitRow
  command : Option SubmissionCommand
  evidence : List EvidenceRow

/-- The permit of this attempt is spent. -/
def Submission.permitConsumed (attempt : Submission) : Bool :=
  attempt.permit.any fun permit => permit.consumedAt.isSome

/-! ## Table constraints -/

/-- `ck_submission_commands_state_metadata`. -/
def SubmissionCommand.checks (command : SubmissionCommand) : Bool :=
  match command.state with
  | .pending => command.claimedAt.isNone && command.claimedBy.isNone
      && command.claimToken.isNone && command.completedAt.isNone
  | .claimed => command.claimedAt.isSome && command.claimedBy.isSome
      && command.claimToken.isSome && command.completedAt.isNone
  | .completed | .cancelled => command.completedAt.isSome
      && command.claimedAt.isNone && command.claimedBy.isNone
      && command.claimToken.isNone

/-- `ck_submissions_automation_authority`. -/
def Submission.authorityChecks (attempt : Submission) : Bool :=
  let decided := attempt.automationPolicyDecisionId.isSome
    && attempt.automationPolicyDecisionDigest.isSome
  let undecided := attempt.automationPolicyDecisionId.isNone
    && attempt.automationPolicyDecisionDigest.isNone
  let canary := attempt.qualificationCanaryAuthorizationId.isSome
    && attempt.qualificationCanaryAuthorizationDigest.isSome
  let noCanary := attempt.qualificationCanaryAuthorizationId.isNone
    && attempt.qualificationCanaryAuthorizationDigest.isNone
  match attempt.authorityKind with
  | .qualifiedAutopilot => decided && noCanary
  | .qualificationCanary => undecided && canary
  | _ => undecided && noCanary

/-- `ck_submissions_confirmed_evidence`, without the digest formats. -/
def Submission.confirmedChecks (attempt : Submission) : Bool :=
  decide (attempt.status = .success)
    && (match attempt.submittedAt, attempt.finalActionAt with
      | some submitted, some acted => decide (acted ≤ submitted)
      | _, _ => false)
    && attempt.formPlanId.isSome
    && attempt.adapterName.isSome && attempt.adapterVersion.isSome
    && attempt.selectorVersion.isSome && attempt.profileVersion.isSome
    && attempt.runnerRelease.isSome
    && attempt.requestedCvId.isSome
    && decide (attempt.requestedCvId = attempt.attachedCvId)
    && attempt.requestedCvHash.isSome && attempt.attachmentVerified
    && decide (attempt.requestedCvHash = attempt.attachedCvHash)
    && attempt.formPlanFingerprint.isSome
    && (match attempt.verificationKind with
      | some (.evidence _) => true
      | _ => false)
    && attempt.evidenceDigest.isSome

/-- The row-local check constraints of `submissions` and of the nested
command. -/
def Submission.checks (attempt : Submission) : Bool :=
  decide (attempt.stage = .finished ↔ attempt.outcome.isSome = true)
    && (decide (attempt.status ≠ .success)
      || decide (attempt.stage = .finished
        ∧ (attempt.outcome = some .confirmedSubmitted
          ∨ attempt.outcome = some .legacyUnverified)))
    && (attempt.submittedAt.isNone
      || decide (attempt.stage = .finished
        ∧ attempt.outcome = some .confirmedSubmitted
        ∧ attempt.status = .success))
    && (decide (attempt.outcome ≠ some .confirmedSubmitted)
      || attempt.confirmedChecks)
    && attempt.authorityChecks
    && attempt.command.all SubmissionCommand.checks

theorem checks_outcome {attempt : Submission} (hchecks : attempt.checks = true) :
    attempt.outcome.isSome = true ↔ attempt.stage = .finished := by
  simp only [Submission.checks, Bool.and_eq_true, decide_eq_true_eq] at hchecks
  exact hchecks.1.1.1.1.1.symm

/-! ## Automation -/

inductive Geography where
  | israel
  | worldwideRemote
  | emeaRemote
  deriving DecidableEq

/-- One exact adapter version and semantic form class. -/
structure QualifiedFormContractV1 where
  adapterName : String
  adapterVersion : String
  selectorVersion : String
  formContractDigest : String

/-- The complete, locally signed autopilot authority. -/
structure AutoSubmitPolicyV1 where
  policyId : String
  revision : ℕ
  roleFamilies : List String
  geographies : List Geography
  minimumFitScore : Rat
  dailyLimit : ℕ
  hourlyLimit : ℕ
  companyLimit : ℕ
  permittedAdapters : List String
  qualifiedFormContracts : List QualifiedFormContractV1
  profileVersion : ℕ
  routingConfigDigest : String
  cvManifestDigest : String
  fitQualificationDigest : String
  confirmedAnswerRevision : String
  activatedAt : Timestamp
  expiresAt : Timestamp
  payloadDigest : String

structure PolicyRevision where
  policy : AutoSubmitPolicyV1
  signingKeyId : String
  activeSlot : Bool
  revokedAt : Option Timestamp
  revocationReason : Option String

/-- A stop or a drift that denies an automatic submission. -/
inductive AutomationDenial where
  | killSwitchActive
  | outsideActiveHours
  | applicationNotEligible
  | materialNotEligible
  | fitDecisionNotEligible
  | fitScoreBelowPolicy
  | roleFamilyNotPermitted
  | geographyNotPermitted
  | jobChanged
  | profileVersionChanged
  | fitQualificationChanged
  | confirmedAnswersChanged
  | attachmentUnverified
  | formChanged
  | formPlanBlocked
  | adapterNotQualified
  | formContractNotQualified
  | dailyLimitReached
  | hourlyLimitReached
  | companyLimitReached
  deriving DecidableEq

/-- The admission result for one exact application state. -/
structure PolicyDecision where
  policyRevisionId : ℕ
  applicationId : ℕ
  applicationRevision : ℕ
  fitDecisionId : ℕ
  formPlanId : ℕ
  decisionDigest : String
  policyDigest : String
  jobDigest : String
  companyDigest : String
  fitDecisionDigest : String
  formPlanPublicId : String
  formFingerprint : String
  formContractDigest : String
  selectedCvHash : String
  profileVersion : ℕ
  confirmedAnswerRevision : String
  adapterName : String
  adapterVersion : String
  selectorVersion : String
  fitScore : Rat
  allowed : Bool
  reasonCodes : List AutomationDenial
  authorityExpiresAt : Option Timestamp
  evaluatedAt : Timestamp
  deriving DecidableEq

inductive PolicyAuthoritySource where
  | localOperator
  | vercelSignedKill
  deriving DecidableEq

/-- Append-only local or signed-remote kill-switch transition. -/
structure KillSwitchEvent where
  revision : ℕ
  active : Bool
  source : PolicyAuthoritySource
  reasonCode : String
  commandDigest : Option String
  createdAt : Timestamp
  deriving DecidableEq

/-- One-use operator authorization of a qualification canary. -/
structure CanaryAuthorization where
  authorizationDigest : String
  applicationId : ℕ
  formPlanId : ℕ
  expiresAt : Timestamp
  consumedAt : Option Timestamp

/-! ## Inspections -/

inductive InspectionState where
  | queued
  | running
  | finished
  deriving DecidableEq

/-- Durable, reversible inspection lease for one exact policy revision. -/
structure InspectionRun where
  applicationId : ℕ
  applicationRevision : ℕ
  policyRevisionId : ℕ
  state : InspectionState
  reasonCode : Option String
  claimedAt : Option Timestamp
  leaseExpiresAt : Option Timestamp
  claimToken : Option ℕ
  finishedAt : Option Timestamp
  createdAt : Timestamp

/-- `ck_autopilot_inspection_runs_state`. -/
def InspectionRun.checks (run : InspectionRun) : Bool :=
  match run.state with
  | .queued => run.claimedAt.isNone && run.leaseExpiresAt.isNone
      && run.claimToken.isNone && run.finishedAt.isNone && run.reasonCode.isNone
  | .running =>
    (match run.claimedAt, run.leaseExpiresAt with
      | some claimed, some expires => decide (claimed < expires)
      | _, _ => false)
      && run.claimToken.isSome && run.finishedAt.isNone && run.reasonCode.isNone
  | .finished => run.claimedAt.isSome && run.leaseExpiresAt.isNone
      && run.claimToken.isNone && run.finishedAt.isSome && run.reasonCode.isSome

/-! ## The control plane -/

/-- A collision-free digest, represented by its preimage. -/
structure Sha256 (α : Type*) where
  preimage : α
  deriving DecidableEq

structure ApplicationRef where
  applicationId : ℕ
  remoteRef : String

inductive ProjectionState where
  | pending
  | claimed
  | projected
  deriving DecidableEq

inductive RevocationState where
  | none
  | pending
  | claimed
  | delivered
  | expired
  deriving DecidableEq

/-- Private binding behind a short-lived opaque remote review grant. -/
structure ReviewGrant where
  grantRef : String
  applicationId : ℕ
  remoteApplicationRef : String
  formPlanId : ℕ
  applicationRevision : ℕ
  jobUrlHash : String
  formPlanFingerprint : String
  cvHash : String
  adapterName : String
  adapterVersion : String
  selectorVersion : String
  runnerRelease : String
  issuedAt : Timestamp
  expiresAt : Timestamp
  revokedAt : Option Timestamp
  consumedAt : Option Timestamp
  consumedCommandRef : Option String
  projectionState : ProjectionState
  projectionAvailableAt : Timestamp
  projectionClaimedAt : Option Timestamp
  projectionClaimToken : Option ℕ
  projectedAt : Option Timestamp
  revocationState : RevocationState
  revocationAvailableAt : Option Timestamp
  revocationClaimedAt : Option Timestamp
  revocationClaimToken : Option ℕ
  revocationSentAt : Option Timestamp
  deriving DecidableEq

/-- One durable receipt for one authenticated remote command. -/
structure CommandReceipt where
  remoteCommandRef : String
  remoteAttemptRef : String
  reviewGrantId : ℕ
  deliveryNonceHash : Sha256 String
  envelopeDigest : String
  clientIdempotencyKey : String
  acceptedAt : Timestamp

/-- The name-based event reference of one position in a command's log. -/
structure EventRef where
  commandId : String
  sequence : ℕ
  deriving DecidableEq

inductive EventType where
  | commandAccepted
  | attemptStage
  | attemptOutcome
  | evidenceRecorded

inductive RemoteEvidenceType where
  | employerApplicationId
  | schemaValidReceipt
  | candidatePortalRecord
  | atsVisibleConfirmation
  deriving DecidableEq

/-- The allowlisted wire shape of one event. -/
structure EventWire where
  eventId : EventRef
  commandId : String
  sequence : ℕ
  stage : AttemptStage
  occurredAt : Timestamp
  outcome : Option AttemptOutcome
  reasonCode : Option ReasonCode
  evidenceType : Option RemoteEvidenceType
  evidenceDigest : Option String
  deriving DecidableEq

inductive OutboxState where
  | pending
  | claimed
  | sent
  deriving DecidableEq

inductive DeliveryError where
  | claimExpired
  | deliveryFailed

/-- Durable redacted event waiting for signed outbound delivery. -/
structure OutboxRow where
  eventRef : EventRef
  remoteCommandRef : String
  sequence : ℕ
  cycle : ℕ
  eventType : EventType
  payload : EventWire
  payloadDigest : Sha256 EventWire
  state : OutboxState
  availableAt : Timestamp
  claimedAt : Option Timestamp
  claimedBy : Option String
  claimToken : Option ℕ
  sentAt : Option Timestamp
  deliveryCount : ℕ
  lastErrorCode : Option DeliveryError

/-! ## The local database -/

/-- One database value. -/
structure Db where
  applications : List Application
  formPlans : List FormPlan
  submissions : List Submission
  applicationRefs : List ApplicationRef
  reviewGrants : List ReviewGrant
  receipts : List CommandReceipt
  outbox : List OutboxRow
  policies : List PolicyRevision
  decisions : List PolicyDecision
  killEvents : List KillSwitchEvent
  canaryAuthorizations : List CanaryAuthorization

/-- A stable event-boundary rejection. -/
inductive EventError where
  | sequenceInvalid
  | terminalStateInvalid
  | evidenceIncomplete
  | evidenceRequired
  | evidenceNotAllowed
  | reasonInvalid
  | payloadCorrupt
  | idConflict
  | initialStageInvalid

/-- Why a requested application mutation is refused. -/
inductive MutationBlocked where
  | applicationNotFound
  | applicationRevisionChanged
  | submissionOutcomeUnknown
  | submissionOutcomeImmutable
  | applicationTerminal
  | finalActionIndeterminate
  | submissionStateInvalid
  | submissionAlreadyActive
  | applicationNotReviewable
  | attemptNotRetryable
  | reviewIncomplete
  | attemptNotReconciliable

/-- Why a lifecycle transaction is rolled back. -/
inductive KernelError where
  | blocked (reason : MutationBlocked)
  | state (error : InvalidSubmissionState)
  | evidenceBindingMismatch
  | event (error : EventError)
  | integrity
  | permitReplayed
  | rowMissing

def Db.setApplication (db : Db) (id : ℕ) (application : Application) : Db :=
  { db with applications := db.applications.set id application }

def Db.setFormPlan (db : Db) (id : ℕ) (plan : FormPlan) : Db :=
  { db with formPlans := db.formPlans.set id plan }

def Db.setSubmission (db : Db) (id : ℕ) (attempt : Submission) : Db :=
  { db with submissions := db.submissions.set id attempt }

/-- `uq_submissions_one_unfinished_per_application`, for one row to be stored
under `id`. -/
def Db.unfinishedFree (db : Db) (id : ℕ) (attempt : Submission) : Bool :=
  decide (attempt.stage = .finished)
    || db.submissions.zipIdx.all fun entry =>
      decide (entry.2 = id)
        || decide (entry.1.applicationId ≠ attempt.applicationId)
        || decide (entry.1.stage = .finished)

def Db.flushSubmission (db : Db) (id : ℕ) (attempt : Submission) :
    Except KernelError Db :=
  if attempt.checks && db.unfinishedFree id attempt then
    .ok (db.setSubmission id attempt)
  else .error .integrity

/-- The unique keys of `submissions` and `submission_commands`. -/
def Db.keysFree (db : Db) (attempt : Submission) : Bool :=
  db.submissions.all fun row =>
    decide (row.idempotencyKey ≠ attempt.idempotencyKey)
      && decide (row.applicationId ≠ attempt.applicationId
        ∨ row.attemptNumber ≠ attempt.attemptNumber)
      && decide (attempt.qualificationCanaryAuthorizationId = none
        ∨ row.qualificationCanaryAuthorizationId
          ≠ attempt.qualificationCanaryAuthorizationId)
      && (match row.command, attempt.command with
        | some stored, some added =>
          decide (stored.idempotencyKey ≠ added.idempotencyKey)
        | _, _ => true)

/-- Insert one attempt with its permit and command. -/
def Db.insertSubmission (db : Db) (attempt : Submission) :
    Except KernelError Db :=
  if attempt.checks && db.unfinishedFree db.submissions.length attempt
      && db.keysFree attempt then
    .ok { db with submissions := db.submissions ++ [attempt] }
  else .error .integrity

variable {db : Db}

variable {id : ℕ}

/-- An unfinished row may be stored next to finished rows of its application
only. -/
theorem Db.unfinishedFree_iff :
    db.unfinishedFree id attempt = true ↔
      (attempt.stage ≠ .finished → ∀ other row, db.submissions[other]? = some row →
        other ≠ id → row.applicationId = attempt.applicationId →
        row.stage = .finished) := by
  simp only [Db.unfinishedFree, Bool.or_eq_true, decide_eq_true_eq,
    List.all_eq_true]
  constructor
  · rintro (hstage | hall) hunfinished other row hrow hne happ
    · exact absurd hstage hunfinished
    · have hmem : (row, other) ∈ db.submissions.zipIdx := by
        rw [List.mk_mem_zipIdx_iff_getElem?]
        exact hrow
      rcases hall _ hmem with (heq | hother) | hfinished
      · exact absurd heq hne
      · exact absurd happ hother
      · exact hfinished
  · intro hall
    by_cases hstage : attempt.stage = .finished
    · exact .inl hstage
    refine .inr ?_
    rintro ⟨row, other⟩ hmem
    rw [List.mk_mem_zipIdx_iff_getElem?] at hmem
    by_cases heq : other = id
    · exact .inl (.inl heq)
    · by_cases happ : row.applicationId = attempt.applicationId
      · exact .inr (hall hstage other row hmem heq happ)
      · exact .inl (.inr happ)

theorem Db.flushSubmission_eq_ok (hflush : db.flushSubmission id attempt = .ok after) :
    after = db.setSubmission id attempt ∧ attempt.checks = true ∧
      db.unfinishedFree id attempt = true := by
  unfold Db.flushSubmission at hflush
  split at hflush
  · next hguard =>
    simp only [Bool.and_eq_true] at hguard
    exact ⟨(Except.ok.inj hflush).symm, hguard⟩
  · cases hflush

theorem Db.insertSubmission_eq_ok (hinsert : db.insertSubmission attempt = .ok after) :
    after = { db with submissions := db.submissions ++ [attempt] } ∧
      attempt.checks = true ∧
      db.unfinishedFree db.submissions.length attempt = true ∧
      db.keysFree attempt = true := by
  unfold Db.insertSubmission at hinsert
  split at hinsert
  · next hguard =>
    simp only [Bool.and_eq_true] at hguard
    exact ⟨(Except.ok.inj hinsert).symm, hguard.1.1, hguard.1.2, hguard.2⟩
  · cases hinsert

section Frame

variable (db : Db) (id : ℕ)

@[simp] theorem Db.setSubmission_applications (attempt : Submission) :
    (db.setSubmission id attempt).applications = db.applications := rfl

@[simp] theorem Db.setApplication_applications (application : Application) :
    (db.setApplication id application).applications =
      db.applications.set id application := rfl

end Frame

end JobApplyAgent.Store
