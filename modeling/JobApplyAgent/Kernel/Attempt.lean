import JobApplyAgent.Kernel.Outbox

/-!
# Attempt transitions

The two writers that every worker step goes through: entering a stage, and
finishing with a terminal outcome together with the application and the
command.
-/

namespace JobApplyAgent.Kernel

open Domain Store Library

def liftState {α : Type} (result : Except InvalidSubmissionState α) :
    Except KernelError α :=
  result.mapError .state

def fetch {ρ : Type} (rows : List ρ) (key : ℕ) : Except KernelError ρ :=
  match rows[key]? with
  | none => .error .rowMissing
  | some row => .ok row

def setStage (attempt : Submission) (target : AttemptStage) :
    Except KernelError Submission := do
  liftState (requireTransition attempt.stage target none)
  let status ← liftState (projectLegacyStatus target none)
  return { attempt with stage := target, outcome := none, status }

def setApplicationStatus (application : Application) (status : JobStatus) :
    Application :=
  { application with
    status
    job := application.job.map fun job => { job with status } }

def confirmedEvidenceIsPostAction (attempt : Submission)
    (evidence : SubmissionEvidence) (observedBy : Timestamp) : Bool :=
  match attempt.finalActionAt with
  | none => false
  | some finalActionAt =>
    decide (finalActionAt ≤ evidence.observedAt)
      && decide (evidence.observedAt ≤ observedBy + 5 * second)

def confirmedEvidenceIsValid (id : ℕ) (attempt : Submission)
    (evidence : SubmissionEvidence) (observedBy : Timestamp) : Bool :=
  decide (evidence.attemptId = id)
    && decide (attempt.formPlanFingerprint = some evidence.formFingerprint)
    && decide (attempt.attachedCvHash = some evidence.attachedCvHash)
    && confirmedEvidenceIsPostAction attempt evidence observedBy

def evidenceRow (evidence : SubmissionEvidence) : EvidenceRow where
  evidenceType := evidence.evidenceType
  evidenceDigest := evidence.digest
  employerApplicationRef := evidence.employerApplicationId
  receiptRef := evidence.apiReceiptId
  portalRecordRef := evidence.candidatePortalReference
  formFingerprint := evidence.formFingerprint
  cvHash := evidence.attachedCvHash
  observedAt := evidence.observedAt

/-- Ended without a submission: the reason is kept on both rows. -/
def closeUnsubmitted (attempt : Submission) (application : Application)
    (reason : ReasonCode) (status : JobStatus) : Submission × Application :=
  ({ attempt with reasonCode := some (.code reason), submittedAt := none },
    setApplicationStatus
      { application with needsReviewReason := some (.code reason) } status)

/-- What a terminal outcome writes besides stage, outcome and status. -/
def recordOutcome (id : ℕ) (attempt : Submission) (application : Application)
    (outcome : CommitOutcome) (now : Timestamp) :
    Except KernelError (Submission × Application) :=
  match outcome with
  | .confirmedSubmitted evidence =>
    if confirmedEvidenceIsValid id attempt evidence now then
      .ok
        ({ attempt with
            evidence := attempt.evidence ++ [evidenceRow evidence]
            reasonCode := some .employerVerified
            verificationKind := some (.evidence evidence.evidenceType)
            evidenceDigest := some evidence.digest
            confirmationId := evidence.employerApplicationId
              <|> evidence.apiReceiptId
              <|> evidence.candidatePortalReference
              <|> some evidence.digest
            submittedAt := some now },
          setApplicationStatus application .submitted)
    else .error .evidenceBindingMismatch
  | .alreadyApplied =>
    .ok
      ({ attempt with
          reasonCode := some (.code .alreadyApplied), submittedAt := none },
        setApplicationStatus
          { application with outcome := some .alreadyApplied } .submitted)
  | .needsReview reason =>
    .ok (closeUnsubmitted attempt application reason.val .needsReview)
  | .unknown reason =>
    .ok (closeUnsubmitted attempt application reason.val .needsReview)
  | .failedBeforeCommit reason =>
    .ok (closeUnsubmitted attempt application reason.val .failed)
  | .draftOnly reason =>
    .ok
      ({ attempt with
          reasonCode := some (.code reason.val), submittedAt := none },
        setApplicationStatus application .draft)

/-- A drifted form takes its live plan out of use. -/
def invalidateDriftedPlan (db : Db) (attempt : Submission)
    (outcome : CommitOutcome) (now : Timestamp) : Db :=
  match outcome, attempt.formPlanId with
  | .failedBeforeCommit reason, some planId =>
    match db.formPlans[planId]? with
    | some plan =>
      if (reason.val = .formChanged ∨ reason.val = .selectorDrift)
          ∧ plan.invalidatedAt = none then
        db.setFormPlan planId
          { plan with
            invalidatedAt := some now
            invalidationReason := some (.code reason.val) }
      else db
    | none => db
  | _, _ => db

def completeCommand (command : SubmissionCommand) (now : Timestamp)
    (lastErrorCode : Option AttemptReason) : SubmissionCommand :=
  { command with
    state := .completed
    completedAt := some now
    claimedAt := none
    claimedBy := none
    claimToken := none
    lastErrorCode }

def finishAttempt (db : Db) (id : ℕ) (attempt : Submission)
    (command : SubmissionCommand) (outcome : CommitOutcome) (now : Timestamp) :
    Except KernelError Db := do
  let terminal := outcome.kind
  liftState (requireTransition attempt.stage .finished (some terminal))
  let status ← liftState (projectLegacyStatus .finished (some terminal))
  let application ← fetch db.applications attempt.applicationId
  let finished :=
    { attempt with
      stage := .finished
      outcome := some terminal
      status
      finishedAt := some now
      errorMessage := none }
  let (recorded, closed) ← recordOutcome id finished
    { application with
      preparedRevision := none, approvedAt := none, approvalSource := none }
    outcome now
  let completed := completeCommand command now recorded.reasonCode
  let final := { recorded with command := some completed }
  let stored := (invalidateDriftedPlan db attempt outcome now).setApplication
    attempt.applicationId closed
  let mirrored ← enqueueControlPlaneAttemptTransition stored final completed now true
  mirrored.flushSubmission id final

/-! ## What finishing changes -/

/-- The columns of an attempt that no transition rewrites. -/
structure AttemptBindings where
  applicationId : ℕ
  attemptNumber : ℕ
  idempotencyKey : String
  applicationRevision : ℕ
  formPlanId : Option ℕ
  formPlanFingerprint : Option String
  authorityKind : AuthorityKind
  automationPolicyDecisionId : Option ℕ
  automationPolicyDecisionDigest : Option String
  qualificationCanaryAuthorizationId : Option ℕ
  commandKey : Option String

def attemptBindings (attempt : Submission) : AttemptBindings where
  applicationId := attempt.applicationId
  attemptNumber := attempt.attemptNumber
  idempotencyKey := attempt.idempotencyKey
  applicationRevision := attempt.applicationRevision
  formPlanId := attempt.formPlanId
  formPlanFingerprint := attempt.formPlanFingerprint
  authorityKind := attempt.authorityKind
  automationPolicyDecisionId := attempt.automationPolicyDecisionId
  automationPolicyDecisionDigest := attempt.automationPolicyDecisionDigest
  qualificationCanaryAuthorizationId := attempt.qualificationCanaryAuthorizationId
  commandKey := attempt.command.map SubmissionCommand.idempotencyKey

/-- An application row after a writer other than the operator's retry: it is
never approved, and a preparation made by retry is at most carried over. -/
structure ApplicationCarried (before after : Application) : Prop where
  approved : after.status = .approved → before.status = .approved
  retryPrepared : after.approvalSource = some .retryPrepare →
    before.approvalSource = some .retryPrepare ∧
      after.preparedRevision = before.preparedRevision ∧
      after.approvedAt = before.approvedAt

theorem ApplicationCarried.refl (application : Application) :
    ApplicationCarried application application :=
  ⟨id, fun hsource => ⟨hsource, rfl, rfl⟩⟩

/-- The content revision of an application never goes back. -/
def ApplicationRevised (before after : Application) : Prop :=
  before.revision ≤ after.revision

theorem ApplicationRevised.refl (application : Application) :
    ApplicationRevised application application :=
  le_refl application.revision

/-- The tables that only control-plane and automation writers change. -/
structure SameAuthority (before after : Db) : Prop where
  applicationRefs : after.applicationRefs = before.applicationRefs
  reviewGrants : after.reviewGrants = before.reviewGrants
  receipts : after.receipts = before.receipts
  policies : after.policies = before.policies
  decisions : after.decisions = before.decisions
  killEvents : after.killEvents = before.killEvents
  canaryAuthorizations : after.canaryAuthorizations = before.canaryAuthorizations

/-- A form plan keeps everything but its invalidation. -/
def PlanCarried (before after : FormPlan) : Prop :=
  after = { before with
    invalidatedAt := after.invalidatedAt
    invalidationReason := after.invalidationReason }

theorem PlanCarried.refl (plan : FormPlan) : PlanCarried plan plan := rfl

/-- Every stored plan is kept, and no content revision goes back. -/
structure ContentKept (before after : Db) : Prop where
  plans : Carried PlanCarried before.formPlans after.formPlans
  revisions : Carried ApplicationRevised before.applications after.applications

variable {id : ℕ}

variable {before : Db} {recorded : Submission}
  {closed : Application}

theorem contentKept_of_same (hplans : after.formPlans = before.formPlans)
    (happlications : after.applications = before.applications) : ContentKept before after where
  plans := hplans ▸ .refl PlanCarried.refl _
  revisions := happlications ▸ .refl ApplicationRevised.refl _

/-- A lifecycle transaction that rewrote one attempt and nothing else but its
application, its plan's invalidation and the outbox. -/
structure AttemptTransaction (before : Db) (id : ℕ) (new : Submission)
    (after : Db) : Prop where
  submissions : after.submissions = before.submissions.set id new
  checks : new.checks = true
  free : before.unfinishedFree id new = true
  applications : Carried ApplicationCarried before.applications after.applications
  revisions : Carried ApplicationRevised before.applications after.applications
  others : ∀ other, other ≠ new.applicationId →
    after.applications[other]? = before.applications[other]?
  plans : Carried PlanCarried before.formPlans after.formPlans
  authority : SameAuthority before after

theorem AttemptTransaction.kept (htransaction : AttemptTransaction before id new after) :
    ContentKept before after :=
  ⟨htransaction.plans, htransaction.revisions⟩

/-- The row that finishing leaves behind. -/
structure Finished (old : Submission) (owner : SubmissionCommand)
    (ending : CommitOutcome) (now : Timestamp) (new : Submission) : Prop where
  allowed : ending.kind ∈ allowedTerminalOutcomes old.stage
  stage : new.stage = .finished
  outcome : new.outcome = some ending.kind
  status : new.status = legacyTerminalProjection ending.kind
  permit : new.permit = old.permit
  finalActionAt : new.finalActionAt = old.finalActionAt
  command : new.command = some (completeCommand owner now new.reasonCode)
  bindings : attemptBindings new =
    { attemptBindings old with commandKey := some owner.idempotencyKey }

theorem setStage_eq_ok (hset : setStage attempt target = .ok staged) :
    canTransition attempt.stage target none = true ∧ target ≠ .finished ∧
      staged = { attempt with
        stage := target
        outcome := none
        status := if target = .committing ∨ target = .verifying then .running
          else .pending } := by
  simp only [setStage, bind_eq_ok, pure_eq_ok] at hset
  obtain ⟨_, htransition, status, hstatus, rfl⟩ := hset
  have hallowed : canTransition attempt.stage target none = true := by
    unfold requireTransition at htransition
    split at htransition
    · assumption
    · cases htransition
  refine ⟨hallowed, ?_, ?_⟩
  · rintro rfl
    simp [canTransition] at hallowed
  · have hunfinished : target ≠ .finished := by
      rintro rfl
      simp [canTransition] at hallowed
    cases target <;> simp_all [projectLegacyStatus, liftState, Except.mapError]

theorem setStage_isOk (hnext : target ∈ allowedNextStages attempt.stage)
    (htarget : target ≠ .finished) :
    ∃ staged, setStage attempt target = .ok staged := by
  have hallowed := (canTransition_unfinished_iff htarget).mpr hnext
  obtain ⟨status, hstatus⟩ :=
    (projectLegacyStatus_isOk_iff target none).mpr (by simp [htarget])
  exact ⟨_, by
    simp only [setStage, requireTransition, hallowed, if_true, liftState,
      hstatus, Except.mapError, bind, Except.bind]
    rfl⟩

theorem fetch_eq_ok {ρ : Type} {rows : List ρ} {key : ℕ} {row : ρ} :
    fetch rows key = .ok row ↔ rows[key]? = some row := by
  unfold fetch
  cases rows[key]? <;> simp

theorem liftState_eq_ok {α : Type} {result : Except InvalidSubmissionState α}
    {value : α} : liftState result = .ok value ↔ result = .ok value := by
  cases result <;> simp [liftState, Except.mapError]

section

variable (hrecord : recordOutcome id attempt application outcome now = .ok (recorded, closed))
include hrecord

/-- Recording an outcome keeps the identity, the authority and the lifecycle
columns of the attempt, and never approves the application. -/
theorem recordOutcome_eq_ok :
    (recorded.stage = attempt.stage ∧ recorded.outcome = attempt.outcome ∧
      recorded.status = attempt.status ∧ recorded.permit = attempt.permit ∧
      recorded.finalActionAt = attempt.finalActionAt ∧
      attemptBindings recorded = attemptBindings attempt) ∧
      closed.status ≠ .approved ∧
      closed.approvalSource = application.approvalSource := by
  cases outcome with
  | confirmedSubmitted evidence =>
    simp only [recordOutcome] at hrecord
    split at hrecord
    · cases hrecord
      exact ⟨⟨rfl, rfl, rfl, rfl, rfl, rfl⟩, by simp [setApplicationStatus], rfl⟩
    · cases hrecord
  | _ =>
    cases hrecord
    exact ⟨⟨rfl, rfl, rfl, rfl, rfl, rfl⟩,
      by simp [setApplicationStatus], rfl⟩

theorem recordOutcome_revision :
    closed.revision = application.revision := by
  cases outcome with
  | confirmedSubmitted evidence =>
    simp only [recordOutcome] at hrecord
    split at hrecord
    · cases hrecord
      rfl
    · cases hrecord
  | _ =>
    cases hrecord
    rfl

end

theorem invalidateDriftedPlan_carried (db : Db) (attempt : Submission)
    (outcome : CommitOutcome) (now : Timestamp) :
    ∃ plans, invalidateDriftedPlan db attempt outcome now =
        { db with formPlans := plans } ∧
      Carried PlanCarried db.formPlans plans := by
  have hsame : Carried PlanCarried db.formPlans db.formPlans :=
    .refl PlanCarried.refl _
  unfold invalidateDriftedPlan
  split
  · split
    · next plan hplan =>
      split
      · exact ⟨_, rfl, .set PlanCarried.refl hplan rfl⟩
      · exact ⟨_, rfl, hsame⟩
    · exact ⟨_, rfl, hsame⟩
  · exact ⟨_, rfl, hsame⟩

theorem Mirrored.congr (hmirrored : Mirrored db' attempt idempotencyKey outbox)
    (hreceipts : db'.receipts = db.receipts) (houtbox : db'.outbox = db.outbox) :
    Mirrored db attempt idempotencyKey outbox := by
  have hreceipt : receiptFor db' idempotencyKey = receiptFor db idempotencyKey := by
    simp [receiptFor, hreceipts]
  have hevents : ∀ ref, eventsFor db' ref = eventsFor db ref := by
    simp [eventsFor, houtbox]
  cases hmirrored with
  | localCommand hnone => exact houtbox ▸ .localCommand (hreceipt ▸ hnone)
  | told receipt last hsome hlast htells =>
    exact houtbox ▸ .told receipt last (hreceipt ▸ hsome) (hevents _ ▸ hlast) htells
  | appended receipt row hsome href hnumber hrow hpending htells =>
    rw [houtbox]
    exact .appended receipt row (hreceipt ▸ hsome) href (hevents _ ▸ hnumber)
      hrow hpending htells

theorem OutboxConsistent.congr (hdb : OutboxConsistent db) (houtbox : db'.outbox = db.outbox) :
    OutboxConsistent db' where
  rows := houtbox ▸ hdb.rows
  sequenced := by
    intro commandRef
    have := hdb.sequenced commandRef
    simpa [eventsFor, houtbox] using this

/-- Everything a finishing transaction does. -/
theorem finishAttempt_eq_ok (hdb : OutboxConsistent db)
    (hfinish : finishAttempt db id attempt command outcome now = .ok after) :
    ∃ new, Finished attempt command outcome now new ∧
      AttemptTransaction db id new after ∧
      Mirrored db new command.idempotencyKey after.outbox ∧
      ∃ closed, after.applications = db.applications.set attempt.applicationId closed ∧
        closed.status ≠ .approved := by
  simp only [finishAttempt, bind_eq_ok, liftState_eq_ok, fetch_eq_ok] at hfinish
  obtain ⟨_, htransition, status, hstatus, application, happlication,
    ⟨recorded, closed⟩, hrecord, mirrored, hmirrored, hflush⟩ := hfinish
  simp only at hmirrored hflush
  have hallowed := canTransition_finished_iff.mp
    (requireTransition_eq_ok_iff.mp htransition)
  rw [projectLegacyStatus_finished, Except.ok.injEq] at hstatus
  obtain ⟨⟨hstage, houtcome, hrecorded, hpermit, hacted, hbindings⟩, hstatus', hsource⟩ :=
    recordOutcome_eq_ok hrecord
  obtain ⟨plans, hplans, hcarried⟩ :=
    invalidateDriftedPlan_carried db attempt outcome now
  rw [hplans] at hmirrored
  have hstored : OutboxConsistent
      (({ db with formPlans := plans } : Db).setApplication
        attempt.applicationId closed) := hdb.congr rfl
  obtain ⟨outbox, rfl, houtbox⟩ :=
    enqueueControlPlaneAttemptTransition_mirrored hstored hmirrored
  obtain ⟨rfl, hchecks, hfree⟩ := Db.flushSubmission_eq_ok hflush
  refine ⟨{ recorded with
      command := some (completeCommand command now recorded.reasonCode) },
    ⟨hallowed, hstage, houtcome, ?_, hpermit, hacted, rfl, ?_⟩,
    ⟨rfl, hchecks, hfree, ?_, ?_, ?_, hcarried, ⟨rfl, rfl, rfl, rfl, rfl, rfl, rfl⟩⟩,
    houtbox.congr rfl rfl, closed, rfl, hstatus'⟩
  · exact hrecorded.trans hstatus.symm
  · simp only [attemptBindings, AttemptBindings.mk.injEq] at hbindings ⊢
    simp [completeCommand, hbindings]
  · refine .set ApplicationCarried.refl happlication ⟨fun h => absurd h hstatus', ?_⟩
    intro hretry
    rw [hsource] at hretry
    cases hretry
  · have hrevised : ApplicationRevised application closed :=
      (recordOutcome_revision hrecord).ge
    exact .set ApplicationRevised.refl happlication hrevised
  · intro other hother
    have howner : recorded.applicationId = attempt.applicationId :=
      congrArg AttemptBindings.applicationId hbindings
    rw [Db.setSubmission_applications]
    exact List.getElem?_set_ne (howner ▸ Ne.symm hother)

/-! ## Application revisions -/

/-- A positive revision, also for rows that predate the column. -/
def applicationRevision (application : Application) : ℕ :=
  max 1 application.revision

/-- Bind operator preparation to the exact current revision. -/
def markApplicationPrepared (application : Application) : Application :=
  { application with
    revision := applicationRevision application
    preparedRevision := some (applicationRevision application) }

/-- Review still matches the application content. -/
def preparationIsCurrent (application : Application) : Bool :=
  application.approvedAt.isSome
    && decide (application.preparedRevision = some (applicationRevision application))

def invalidateFormPlans (plans : List FormPlan) (applicationId : ℕ)
    (reason : AttemptReason) (now : Timestamp) : List FormPlan :=
  plans.map fun plan =>
    if plan.applicationId = applicationId ∧ plan.invalidatedAt = none then
      { plan with invalidatedAt := some now, invalidationReason := some reason }
    else plan

/-- The application row of a new content revision. -/
def bumpedApplication (application : Application) : Application :=
  { application with
    revision := applicationRevision application + 1
    preparedRevision := none
    approvedAt := none
    approvalSource := none
    jobFitDecisionId := none }

/-- Advance content identity and revoke every prior review and plan. -/
def bumpApplicationRevision (db : Db) (applicationId : ℕ)
    (application : Application) (reason : AttemptReason) (now : Timestamp) :
    Db × Application :=
  ({ db with
      formPlans := invalidateFormPlans db.formPlans applicationId reason now },
    bumpedApplication application)

theorem invalidateFormPlans_carried (plans : List FormPlan) (applicationId : ℕ)
    (reason : AttemptReason) (now : Timestamp) :
    Carried PlanCarried plans
      (invalidateFormPlans plans applicationId reason now) where
  length := by simp [invalidateFormPlans]
  kept := by
    intro id plan hplan
    refine ⟨_, by simp only [invalidateFormPlans, List.getElem?_map, hplan,
      Option.map_some]; rfl, ?_⟩
    split
    · rfl
    · rfl

end JobApplyAgent.Kernel
