import JobApplyAgent.Kernel.Legacy

/-!
# Admission of submission commands

One or more reviewed applications are admitted in one database transaction:
every item looks for a replay, locks its application, looks again, and adds an
attempt with its permit and command.  Verdicts on profiles, models, adapters,
sessions and canaries come from outside the tables of this model and are passed
in as readings.
-/

namespace JobApplyAgent.Kernel

open Domain Store Library

/-- A bounded rejection safe to expose to an authenticated operator. -/
inductive SubmissionAdmissionError where
  | emptySubmissionBatch
  | submissionBatchTooLarge
  | duplicateApplicationInBatch
  | duplicateIdempotencyKeyInBatch
  | operatorAuthRequired
  | runtimeNotReady
  | runtime (reason : String)
  | protocolMismatch
  | buildMismatch
  | idempotencyKeyConflict
  | applicationNotFound
  | applicationRevisionChanged
  | applicationNotEligible
  | applicationReviewRequired
  | retryPreparationRequired
  | submissionAlreadyActive
  | formPlanNotFound
  | formPlanBlocked
  | formPlanExpired
  | formChanged
  | profileVersionChanged
  | profileVersionNotFound
  | profileSnapshotInvalid
  | sessionExpired
  | attachmentUnverified
  | attachmentChanged
  | answerPolicyChanged
  | materialNotEligible
  | materialModelNotQualified
  | cvSelectionChanged
  | llmModelChanged
  | commandExpired
  | adapterNotQualified
  | adapterVersionChanged
  | submissionAuthorityInvalid
  | canaryAuthorizationRequired
  | canaryAuthorizationReplayed
  | canaryAuthorizationRejected
  | automationDecisionRequired
  | automationDecisionBindingMismatch
  | automationAuthorityExpired
  | automation (error : AutomationError)
  | jobUrlInvalid
  | permit (error : PermitError)
  | integrity
  deriving DecidableEq

/-- Exact dashboard release that authorized the operator's final click. -/
structure ClientReleaseIdentity where
  buildSha : String
  uiAssetDigest : String
  sourceDigest : String
  protocolVersion : String
  bootId : String

structure SubmissionCommandRequest where
  applicationId : ℕ
  clientIdempotencyKey : String
  applicationRevision : ℕ
  formPlanId : String
  clientRelease : ClientReleaseIdentity
  authorityExpiresAt : Option Timestamp
  authorityKind : AuthorityKind
  automationPolicyDecisionId : Option ℕ
  qualificationCanaryAuthorizationId : Option ℕ

structure CreatedSubmissionCommand where
  applicationId : ℕ
  attemptId : ℕ
  replayed : Bool

/-- The running release.  `expectedId` is the digest of its components. -/
structure RuntimeRelease where
  identity : ClientReleaseIdentity
  releaseId : String
  expectedId : String

structure LlmStatus where
  ready : Bool
  identityQualified : Bool
  digest : String

/-- The capability report of the runtime: whether submission is allowed and
automation ready, each with its bounded reasons. -/
structure Capabilities where
  release : Option RuntimeRelease
  submission : Option (Bool × List String)
  automation : Option (Bool × List String)
  llm : Option LlmStatus

structure LiveDescriptor where
  adapter : AdapterDescriptor
  allowsFinalExecution : Bool
  qualifiesForm : Bool

/-- What the admission of one item reads outside the modelled tables. -/
structure AdmissionReadings where
  materialIdentityQualified : Bool
  profileSnapshot : Except SubmissionAdmissionError Unit
  automation : AutomationReadings
  canaryValid : Bool
  descriptor : Option LiveDescriptor
  sessionLive : Bool
  jobUrlHash : Option String
  nonceHash : String

/-! ## Gates of a request -/

def runtimeRelease (release : RuntimeRelease) : String :=
  if release.releaseId ≠ release.expectedId then "unknown" else release.releaseId

/-- Only a canary may run while the sole reason is the missing adapter. -/
def canaryBootstrap (authorityKind : AuthorityKind) (reasons : List String) : Bool :=
  decide (authorityKind = .qualificationCanary) && !reasons.isEmpty
    && reasons.all fun reason => reason = "ADAPTER_NOT_QUALIFIED"

def requireReport (report : Option (Bool × List String))
    (authorityKind : AuthorityKind) (fallback : String) :
    Except SubmissionAdmissionError Unit :=
  match report with
  | some (true, _) => .ok ()
  | some (false, reasons) =>
    if canaryBootstrap authorityKind reasons then .ok ()
    else .error (.runtime (reasons.head?.getD fallback))
  | none => .error (.runtime fallback)

def requireRuntime (capabilities : Capabilities) (authorityKind : AuthorityKind) :
    Except SubmissionAdmissionError String := do
  requireReport capabilities.submission authorityKind "RUNTIME_NOT_READY"
  requireReport capabilities.automation authorityKind
    "AUTOMATION_SUBMISSION_NOT_READY"
  match capabilities.release with
  | none => .error .runtimeNotReady
  | some release =>
    if releaseUnavailable (runtimeRelease release) then .error .runtimeNotReady
    else .ok (runtimeRelease release)

def requireMatchingClientRelease (capabilities : Capabilities)
    (client : ClientReleaseIdentity) : Except SubmissionAdmissionError Unit :=
  match capabilities.release with
  | none => .error .runtimeNotReady
  | some release =>
    let matching := fun supplied expected =>
      decide (supplied ≠ "") && decide (supplied = expected)
    requireBindings
      [(matching client.protocolVersion release.identity.protocolVersion,
          .protocolMismatch),
        (matching client.buildSha release.identity.buildSha, .buildMismatch),
        (matching client.uiAssetDigest release.identity.uiAssetDigest, .buildMismatch),
        (matching client.sourceDigest release.identity.sourceDigest, .buildMismatch),
        (matching client.bootId release.identity.bootId, .buildMismatch)]

/-! ## Replay -/

/-- The attempt behind a client idempotency key. -/
def commandWithKey (db : Db) (key : String) : Option (Submission × ℕ) :=
  db.submissions.zipIdx.find? fun entry =>
    entry.1.command.any fun command => command.idempotencyKey = key

/-- The request is bound to what the attempt was admitted for. -/
def replayBinds (db : Db) (attempt : Submission)
    (request : SubmissionCommandRequest) : Bool :=
  decide (attempt.applicationId = request.applicationId)
    && decide (attempt.applicationRevision = request.applicationRevision)
    && decide ((attemptPlan db attempt).map FormPlan.planId = some request.formPlanId)
    && decide (attempt.authorityKind = request.authorityKind)
    && decide (attempt.automationPolicyDecisionId = request.automationPolicyDecisionId)
    && decide (attempt.qualificationCanaryAuthorizationId =
      request.qualificationCanaryAuthorizationId)

def findReplay (db : Db) (request : SubmissionCommandRequest) :
    Except SubmissionAdmissionError (Option ℕ) :=
  match commandWithKey db request.clientIdempotencyKey with
  | none => .ok none
  | some (attempt, id) =>
    if replayBinds db attempt request then .ok (some id)
    else .error .idempotencyKeyConflict

/-! ## Plan, model, authority and adapter -/

def answerPolicyVersion : String := "answer-policy-v1"

def formResolutionPromptVersion : String := "form-resolution-v1"

def qualifiedLocalLlmProvider : String := "ollama"

def qualifiedLocalLlmModel : String := "qwen2.5:7b"

/-- What the persisted plan must carry before it is reconstructed. -/
def planColumnChecks (applicationId : ℕ) (plan : FormPlan) :
    List (Bool × SubmissionAdmissionError) :=
  [(decide (plan.applicationId = applicationId), .formPlanNotFound),
    (plan.invalidatedAt.isNone, .formChanged),
    (plan.profileVersion.any fun version => decide (1 ≤ version), .profileVersionChanged),
    (plan.sessionVerifiedAt.isSome, .sessionExpired),
    (decide (columnText plan.attachedCvId ≠ "") && decide (columnText plan.attachedCvHash ≠ "")
      && plan.attachmentVerified, .attachmentUnverified)]

def planAdmissionChecks (application : Application) (plan : FormPlan)
    (domainPlan : FormPlanV1) (request : SubmissionCommandRequest)
    (materialIdentityQualified : Bool) (now : Timestamp) :
    List (Bool × SubmissionAdmissionError) :=
  let cvHash := columnText application.selectedCvHash
  let attachmentBinds := decide (domainPlan.attachedCvId = domainPlan.selectedCvId)
    && decide (domainPlan.attachedCvHash = domainPlan.selectedCvHash)
  [(decide (domainPlan.answerPolicyVersion = answerPolicyVersion), .answerPolicyChanged),
    (decide (application.materialEligible = some true), .materialNotEligible),
    (materialIdentityQualified, .materialModelNotQualified),
    (decide (cvHash ≠ "") && decide (cvHash = domainPlan.selectedCvHash),
      .attachmentChanged),
    (request.authorityExpiresAt.all fun deadline => decide (now < deadline),
      .commandExpired),
    (!domainPlan.isExpired now, .formPlanExpired),
    (decide (domainPlan.createdAt ≤ now), .formPlanBlocked),
    (decide (domainPlan.sessionVerifiedAt ≤ now), .sessionExpired),
    (decide (domainPlan.planId = request.formPlanId), .formPlanNotFound),
    (decide (plan.applicationRevision = request.applicationRevision),
      .applicationRevisionChanged),
    (decide (plan.applicationRevision = application.revision),
      .applicationRevisionChanged),
    (decide (application.selectedCvId = some plan.selectedCvId), .cvSelectionChanged),
    (decide (application.profileVersion = plan.profileVersion), .profileVersionChanged),
    (domainPlan.blockers.isEmpty, .formPlanBlocked),
    (decide (domainPlan.createdAt ≤ domainPlan.sessionVerifiedAt)
      && decide (domainPlan.sessionVerifiedAt ≤ domainPlan.expiresAt), .sessionExpired),
    (domainPlan.readyForPermitAt now || (domainPlan.attachmentVerified && attachmentBinds),
      .attachmentUnverified),
    (domainPlan.readyForPermitAt now, .formPlanBlocked)]

def validatePlan (applicationId : ℕ) (application : Application) (plan : FormPlan)
    (request : SubmissionCommandRequest) (materialIdentityQualified : Bool)
    (now : Timestamp) : Except SubmissionAdmissionError FormPlanV1 := do
  requireBindings (planColumnChecks applicationId plan)
  match loadDomainPlan plan with
  | none => .error .formPlanBlocked
  | some domainPlan =>
    requireBindings (planAdmissionChecks application plan domainPlan request
      materialIdentityQualified now)
    return domainPlan

/-- Bind every LLM-derived review artifact to the currently ready local model. -/
def requireModelBinding (application : Application) (domainPlan : FormPlanV1)
    (capabilities : Capabilities) : Except SubmissionAdmissionError Unit :=
  match capabilities.llm with
  | none => .error .runtimeNotReady
  | some llm =>
    requireBindings
      [(llm.ready && llm.identityQualified, .runtimeNotReady),
        (decide (application.materialModelProvider = some qualifiedLocalLlmProvider)
          && decide (application.materialModelName = some qualifiedLocalLlmModel)
          && decide (application.materialModelDigest = some llm.digest),
          .llmModelChanged),
        (!domainPlan.usesLocalLlm
          || (decide (domainPlan.llmPromptVersion = some formResolutionPromptVersion)
            && decide (domainPlan.llmModelProvider = some qualifiedLocalLlmProvider)
            && decide (domainPlan.llmModelName = some qualifiedLocalLlmModel)
            && decide (domainPlan.llmModelDigest = some llm.digest)),
          .llmModelChanged)]

def validateAdapter (descriptor : Option LiveDescriptor) (plan : FormPlan) :
    Except SubmissionAdmissionError AdapterDescriptor :=
  match descriptor with
  | none => .error .adapterNotQualified
  | some found => do
      requireBindings
        [(decide (found.adapter.platform = plan.adapterName)
            && decide (found.adapter.adapterVersion = plan.adapterVersion)
            && decide (found.adapter.selectorVersion = plan.selectorVersion),
            .adapterVersionChanged),
          (found.allowsFinalExecution, .adapterNotQualified),
          (found.qualifiesForm, .formChanged)]
      return found.adapter

/-- The authority an attempt is admitted under, and until when it lasts. -/
structure AdmittedAuthority where
  decision : Option (ℕ × PolicyDecision)
  canary : Option (ℕ × CanaryAuthorization)
  expiresAt : Option Timestamp

def earliest (expiry : Timestamp) (requested : Option Timestamp) : Timestamp :=
  requested.elim expiry (min expiry)

def canaryAuthority (db : Db) (request : SubmissionCommandRequest)
    (canaryValid : Bool) : Except SubmissionAdmissionError AdmittedAuthority :=
  match request.automationPolicyDecisionId,
      request.qualificationCanaryAuthorizationId with
  | none, some id =>
    match db.canaryAuthorizations[id]? with
    | none => .error .canaryAuthorizationRequired
    | some authorization =>
      if authorization.consumedAt.isSome then .error .canaryAuthorizationReplayed
      else if ¬canaryValid then .error .canaryAuthorizationRejected
      else
        .ok
          { decision := none
            canary := some (id, authorization)
            expiresAt := some
              (earliest authorization.expiresAt request.authorityExpiresAt) }
  | _, _ => .error .submissionAuthorityInvalid

def decisionAuthority (zone : Zone) (db : Db) (request : SubmissionCommandRequest)
    (application : Application) (planId : ℕ) (plan : FormPlan)
    (readings : AutomationReadings) (now : Timestamp) :
    Except SubmissionAdmissionError AdmittedAuthority :=
  match request.automationPolicyDecisionId with
  | none => .error .automationDecisionRequired
  | some id =>
    match validateCurrentAutomationDecision zone db (some id) now readings with
    | .error error => .error (.automation error)
    | .ok decision =>
      if ¬(decision.applicationId = request.applicationId
          ∧ decision.applicationRevision = application.revision
          ∧ decision.formPlanId = planId
          ∧ decision.formPlanPublicId = plan.planId) then
        .error .automationDecisionBindingMismatch
      else
        match decision.authorityExpiresAt with
        | none => .error .automationAuthorityExpired
        | some expiry =>
          .ok
            { decision := some (id, decision)
              canary := none
              expiresAt := some (earliest expiry request.authorityExpiresAt) }

/-- Resolve system authority without allowing callers to forge policy state. -/
def validateAutomationAuthority (zone : Zone) (db : Db)
    (request : SubmissionCommandRequest) (application : Application) (planId : ℕ)
    (plan : FormPlan) (readings : AdmissionReadings) (now : Timestamp) :
    Except SubmissionAdmissionError AdmittedAuthority :=
  match request.authorityKind with
  | .legacy => .error .submissionAuthorityInvalid
  | .qualificationCanary => canaryAuthority db request readings.canaryValid
  | .qualifiedAutopilot =>
    if request.qualificationCanaryAuthorizationId.isSome then
      .error .submissionAuthorityInvalid
    else
      decisionAuthority zone db request application planId plan readings.automation now
  | .explicitOperator | .controlPlane =>
    if request.qualificationCanaryAuthorizationId.isSome
        ∨ request.automationPolicyDecisionId.isSome then
      .error .submissionAuthorityInvalid
    else
      .ok
        { decision := none
          canary := none
          expiresAt := request.authorityExpiresAt }

/-! ## One item -/

/-- The attempts of an application that keep it from being admitted again. -/
def admissionBlocked (db : Db) (applicationId : ℕ) (application : Application) :
    List (Bool × SubmissionAdmissionError) :=
  let attempts := db.submissions.filter fun attempt =>
    attempt.applicationId = applicationId
  let latest := (latestAttempt db applicationId).map Prod.fst
  let retryable := latest.any fun attempt =>
    decide (attempt.outcome = some .failedBeforeCommit
      ∨ attempt.outcome = some .draftOnly)
  let finished := latest.any fun attempt => attempt.stage = .finished
  [(attempts.all fun attempt => attempt.outcome.all fun outcome => !outcome.immutable,
      .applicationNotEligible),
    (!finished || !retryable || decide (application.approvalSource = some .retryPrepare),
      .retryPreparationRequired),
    (!finished || retryable, .applicationNotEligible),
    (attempts.all fun attempt => attempt.stage = .finished, .submissionAlreadyActive)]

def planWithPublicId (db : Db) (planId : String) : Option (FormPlan × ℕ) :=
  db.formPlans.zipIdx.find? fun entry => entry.1.planId = planId

/-- The attempt of one admitted item, before its permit and its command. -/
def admittedRow (request : SubmissionCommandRequest) (attemptNumber planId : ℕ)
    (plan : FormPlan) (adapter : AdapterDescriptor) (release : String)
    (authority : AdmittedAuthority) : Submission where
  applicationId := request.applicationId
  attemptNumber
  idempotencyKey := request.clientIdempotencyKey
  submitterName := adapter.platform
  status := .pending
  stage := .queued
  outcome := none
  reasonCode := none
  applicationRevision := request.applicationRevision
  adapterName := some adapter.platform
  adapterVersion := some adapter.adapterVersion
  selectorVersion := some adapter.selectorVersion
  formPlanId := some planId
  formPlanFingerprint := some plan.fingerprint
  selectedCvId := some plan.selectedCvId
  requestedCvId := some plan.selectedCvId
  requestedCvHash := some plan.selectedCvHash
  attachedCvId := plan.attachedCvId
  attachedCvHash := plan.attachedCvHash
  attachmentVerified := plan.attachmentVerified
  profileVersion := plan.profileVersion
  runnerRelease := some release
  authorityKind := request.authorityKind
  automationPolicyDecisionId := authority.decision.map Prod.fst
  automationPolicyDecisionDigest :=
    authority.decision.map fun entry => entry.2.decisionDigest
  qualificationCanaryAuthorizationId := authority.canary.map Prod.fst
  qualificationCanaryAuthorizationDigest :=
    authority.canary.map fun entry => entry.2.authorizationDigest
  startedAt := none
  finishedAt := none
  submittedAt := none
  finalActionAt := none
  reconciledAt := none
  reconciliationNote := none
  reconciliationSource := none
  reconciliationEvidenceRef := none
  verificationKind := none
  evidenceDigest := none
  confirmationId := none
  errorMessage := none
  permit := none
  command := none
  evidence := []

def pendingCommand (request : SubmissionCommandRequest) (now : Timestamp) :
    SubmissionCommand where
  idempotencyKey := request.clientIdempotencyKey
  state := .pending
  availableAt := now
  claimedAt := none
  claimedBy := none
  claimToken := none
  completedAt := none
  lastErrorCode := none

/-- The admission of one item: the attempt that exists, or the one to add with
the canary authorization it spends. -/
inductive AdmittedItem where
  | replayed (id : ℕ)
  | created (row : Submission) (canary : Option ℕ)

/-- The part of an item's admission behind its application lock. -/
def createLocked (zone : Zone) (db : Db) (capabilities : Capabilities)
    (ttlSeconds : ℤ) (request : SubmissionCommandRequest)
    (readings : AdmissionReadings) (now : Timestamp) :
    Except SubmissionAdmissionError AdmittedItem :=
  match db.applications[request.applicationId]? with
  | none => .error .applicationNotFound
  | some application => do
      match ← findReplay db request with
      | some id => return .replayed id
      | none =>
        requireBindings
          [(decide (request.applicationRevision = application.revision),
              .applicationRevisionChanged),
            (decide (application.status = .draft), .applicationNotEligible),
            (preparationIsCurrent application, .applicationReviewRequired)]
        requireBindings (admissionBlocked db request.applicationId application)
        match planWithPublicId db request.formPlanId with
        | none => .error .formPlanNotFound
        | some (plan, planId) =>
          let domainPlan ← validatePlan request.applicationId application plan
            request readings.materialIdentityQualified now
          readings.profileSnapshot
          let release ← requireRuntime capabilities request.authorityKind
          requireModelBinding application domainPlan capabilities
          let authority ← validateAutomationAuthority zone db request application
            planId plan readings now
          let adapter ← validateAdapter readings.descriptor plan
          if ¬readings.sessionLive then .error .sessionExpired
          else
            let row := admittedRow request
              (nextAttemptNumber db request.applicationId) planId plan adapter
              release authority
            match db.insertSubmission row, readings.jobUrlHash with
            | .error _, _ => .error .integrity
            | .ok _, none => .error .jobUrlInvalid
            | .ok _, some jobUrlHash =>
              match issueFinalSubmitPermit row plan jobUrlHash readings.nonceHash
                  ttlSeconds now authority.expiresAt with
              | .error error => .error (.permit error)
              | .ok permit =>
                return .created
                  { row with
                    permit := some permit
                    command := some (pendingCommand request now) }
                  (authority.canary.map Prod.fst)

end JobApplyAgent.Kernel
