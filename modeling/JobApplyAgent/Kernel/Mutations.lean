import JobApplyAgent.Kernel.Attempt

/-!
# Application mutations

App-first locking, the operator's skip, the retry preparation and the operator
reconciliation of an indeterminate attempt.  The application row is locked for
the whole transaction, so each of them is one atomic step.
-/

namespace JobApplyAgent.Kernel

open Domain Store Library

inductive ApplicationMutationIntent where
  | content
  | prepare
  | terminal
  deriving DecidableEq

/-- The attempt of an application with the greatest number among those that
satisfy a predicate. -/
def latestAttemptWhere (db : Db) (applicationId : ℕ)
    (pred : Submission → Bool) : Option (Submission × ℕ) :=
  latestBy (fun entry => entry.1.attemptNumber)
    (db.submissions.zipIdx.filter fun entry =>
      decide (entry.1.applicationId = applicationId) && pred entry.1)

def latestAttempt (db : Db) (applicationId : ℕ) : Option (Submission × ℕ) :=
  latestAttemptWhere db applicationId fun _ => true

/-- The attempt carries an outcome or a legacy status that blocks mutation. -/
def immutableHistory (attempt : Submission) : Bool :=
  attempt.outcome.any AttemptOutcome.immutable
    || decide (attempt.status = .success ∨ attempt.status = .unknown)

structure LockedApplicationMutation where
  application : Application
  latestAttempt : Option (Submission × ℕ)

def statusIs (application : Application) (status : JobStatus) : Bool :=
  decide (application.status = status)
    || application.job.any fun job => job.status = status

/-- The external action of an unfinished attempt may have happened. -/
def actionIndeterminate (attempt : Submission) : Bool :=
  attempt.stage.postcommit || attempt.finalActionAt.isSome
    || attempt.permitConsumed

/-- The checks on the latest attempt of a locked application. -/
def requireMutableAttempt (intent : ApplicationMutationIntent)
    (latest : Option (Submission × ℕ)) : Except MutationBlocked Unit :=
  match latest with
  | none => .ok ()
  | some (attempt, _) =>
    if attempt.stage = .finished then .ok ()
    else if actionIndeterminate attempt then .error .finalActionIndeterminate
    else if ¬attempt.stage.precommit then .error .submissionStateInvalid
    else if attempt.command.any fun command =>
        decide (command.state = .completed ∨ command.state = .cancelled) then
      .error .submissionStateInvalid
    else if intent ≠ .terminal then .error .submissionAlreadyActive
    else .ok ()

def lockApplicationForMutation (db : Db) (applicationId : ℕ)
    (intent : ApplicationMutationIntent) (expectedRevision : Option ℕ) :
    Except MutationBlocked LockedApplicationMutation :=
  match db.applications[applicationId]? with
  | none => .error .applicationNotFound
  | some application =>
    if expectedRevision.any fun revision => application.revision ≠ revision then
      .error .applicationRevisionChanged
    else
      match latestAttemptWhere db applicationId immutableHistory with
      | some (attempt, _) =>
        if attempt.outcome = some .unknown ∨ attempt.status = .unknown then
          .error .submissionOutcomeUnknown
        else .error .submissionOutcomeImmutable
      | none =>
        let latest := latestAttempt db applicationId
        if statusIs application .submitted then .error .applicationTerminal
        else if intent ≠ .terminal ∧ statusIs application .skipped then
          .error .applicationTerminal
        else
          match requireMutableAttempt intent latest with
          | .error reason => .error reason
          | .ok () => .ok { application, latestAttempt := latest }

def liftBlocked {α : Type} (result : Except MutationBlocked α) :
    Except KernelError α :=
  result.mapError .blocked

/-! ## Skip -/

def cancelCommand (command : SubmissionCommand) (reason : AttemptReason)
    (now : Timestamp) : SubmissionCommand :=
  { command with
    state := .cancelled
    completedAt := some now
    claimedAt := none
    claimedBy := none
    claimToken := none
    lastErrorCode := some reason }

/-- A cancelled pre-commit attempt with its command. -/
def cancelRow (attempt : Submission) (reason : AttemptReason) (now : Timestamp) :
    Submission :=
  { attempt with
    stage := .finished
    outcome := some .failedBeforeCommit
    status := .failed
    reasonCode := some reason
    finishedAt := some now
    submittedAt := none
    command := attempt.command.map fun command => cancelCommand command reason now }

def markJobTerminallySkipped (job : Job) (now : Timestamp) : Job :=
  { job with status := .skipped, terminalSkipAt := some now }

/-- Cancel the safe pre-commit work of a locked application.  No event is
enqueued for the attempt. -/
def cancelLatestAttempt (db : Db) (latest : Option (Submission × ℕ))
    (reason : AttemptReason) (now : Timestamp) : Except KernelError (Db × Bool) :=
  match latest with
  | none => .ok (db, false)
  | some (attempt, id) =>
    if attempt.stage = .finished then .ok (db, false)
    else if ¬attempt.stage.precommit ∨ attempt.finalActionAt.isSome
        ∨ attempt.permitConsumed then .error (.blocked .finalActionIndeterminate)
    else do
      let after ← db.flushSubmission id (cancelRow attempt reason now)
      return (after, true)

def skippedApplication (application : Application) (rejectionReason : String)
    (now : Timestamp) : Application :=
  { bumpedApplication application with
    status := .skipped
    rejectedAt := some now
    rejectionReason := some rejectionReason
    job := application.job.map fun job => markJobTerminallySkipped job now }

/-- The skip time of a job that was skipped before the column existed. -/
def backfillSkipTime (application : Application) (now : Timestamp) : Application :=
  { application with
    job := application.job.map fun job =>
      if job.terminalSkipAt.isNone then markJobTerminallySkipped job now else job }

def alreadySkipped (application : Application) : Bool :=
  decide (application.status = .skipped)
    && application.job.all fun job => job.status = .skipped

/-- Skip an application and atomically cancel only safe pre-commit work. -/
def transitionLockedApplicationToSkipped (db : Db) (applicationId : ℕ)
    (locked : LockedApplicationMutation) (reason : AttemptReason)
    (rejectionReason : String) (now : Timestamp) : Except KernelError Db := do
  let (cancelled, changed) ← cancelLatestAttempt db locked.latestAttempt reason now
  if alreadySkipped locked.application ∧ ¬changed then
    return cancelled.setApplication applicationId
      (backfillSkipTime locked.application now)
  else
    let (bumped, _) := bumpApplicationRevision cancelled applicationId
      locked.application reason now
    return bumped.setApplication applicationId
      (skippedApplication locked.application rejectionReason now)

/-- The transaction of every caller that skips. -/
def skipApplication (db : Db) (applicationId : ℕ) (reason : AttemptReason)
    (rejectionReason : String) (now : Timestamp) : Except KernelError Db := do
  let locked ← liftBlocked
    (lockApplicationForMutation db applicationId .terminal none)
  transitionLockedApplicationToSkipped db applicationId locked reason
    rejectionReason now

/-! ## Retry preparation -/

/-- Prepare the exact locked revision without reviving terminal state.  No
application means that the preparation was current already. -/
def markLockedApplicationPrepared (locked : LockedApplicationMutation)
    (source : ApprovalSource) (now : Timestamp) (allowed : List JobStatus) :
    Except MutationBlocked (Option Application) :=
  let application := locked.application
  if application.status ∉ allowed then .error .applicationNotReviewable
  else if preparationIsCurrent application then .ok none
  else
    .ok (some (markApplicationPrepared
      { setApplicationStatus application .draft with
        approvedAt := some now
        approvalSource := some source }))

/-- Prepare a definitively retryable application; sending remains explicit.
`reviewReady` is the verdict on its materials, its CV and its form plan. -/
def retryApplication (db : Db) (applicationId : ℕ) (reviewReady : Bool)
    (now : Timestamp) : Except KernelError Db := do
  let locked ← liftBlocked
    (lockApplicationForMutation db applicationId .prepare none)
  let retryable := locked.latestAttempt.any fun entry =>
    decide (entry.1.outcome = some .failedBeforeCommit
      ∨ entry.1.outcome = some .draftOnly)
  if ¬retryable then .error (.blocked .attemptNotRetryable)
  else if ¬reviewReady then .error (.blocked .reviewIncomplete)
  else
    match ← liftBlocked (markLockedApplicationPrepared locked .retryPrepare now
        [.draft, .failed, .needsReview]) with
    | none => return db
    | some prepared => return db.setApplication applicationId prepared

/-! ## Operator reconciliation -/

inductive ReconcileOutcome where
  | confirmedSubmitted
  | confirmedNotSubmitted

structure ReconcileRequest where
  outcome : ReconcileOutcome
  source : String
  reference : String
  note : String

def reconciliable (attempt : Submission) : Bool :=
  decide (attempt.outcome = some .unknown
      ∨ attempt.outcome = some .legacyUnverified)
    || decide (attempt.outcome = none ∧ attempt.status = .unknown)

def reconciledRow (attempt : Submission) (request : ReconcileRequest)
    (now : Timestamp) : Submission :=
  { attempt with
    reconciledAt := some now
    reconciliationNote := some
      { source := request.source
        reference := request.reference
        note := request.note }
    reconciliationSource := some request.source
    reconciliationEvidenceRef := some request.reference
    finishedAt := some now
    stage := .finished
    submittedAt := none
    verificationKind := some .operatorConfirmed
    status := match request.outcome with
      | .confirmedSubmitted => .unknown
      | .confirmedNotSubmitted => .failed
    outcome := match request.outcome with
      | .confirmedSubmitted => some .operatorConfirmed
      | .confirmedNotSubmitted => some .failedBeforeCommit
    reasonCode := match request.outcome with
      | .confirmedSubmitted => some .operatorConfirmedSubmitted
      | .confirmedNotSubmitted => some .reconciledNotSubmitted }

def hasOutcome (db : Db) (applicationId : ℕ) (outcomes : List AttemptOutcome) :
    Bool :=
  db.submissions.any fun attempt =>
    decide (attempt.applicationId = applicationId)
      && attempt.outcome.any fun outcome => outcome ∈ outcomes

def reconciledApplication (db : Db) (applicationId : ℕ)
    (application : Application) : Application :=
  let cleared :=
    { application with
      preparedRevision := none, approvedAt := none, approvalSource := none }
  if hasOutcome db applicationId [.unknown, .legacyUnverified] then
    setApplicationStatus
      { cleared with needsReviewReason := some (.code .staleIndeterminate) }
      .needsReview
  else if hasOutcome db applicationId
      [.confirmedSubmitted, .alreadyApplied, .operatorConfirmed] then
    setApplicationStatus { cleared with needsReviewReason := none } .submitted
  else setApplicationStatus { cleared with needsReviewReason := none } .draft

/-- Reconcile one exact indeterminate attempt under the application lock. -/
def reconcileAttempt (db : Db) (id : ℕ) (request : ReconcileRequest)
    (now : Timestamp) : Except KernelError Db := do
  let attempt ← fetch db.submissions id
  let application ← fetch db.applications attempt.applicationId
  if ¬reconciliable attempt then .error (.blocked .attemptNotReconciliable)
  else
    let reconciled := reconciledRow attempt request now
    let flushed ← db.flushSubmission id reconciled
    let stored := flushed.setApplication attempt.applicationId
      (reconciledApplication flushed attempt.applicationId application)
    match reconciled.command with
    | none => return stored
    | some command =>
      enqueueControlPlaneAttemptTransition stored reconciled command now false

end JobApplyAgent.Kernel
