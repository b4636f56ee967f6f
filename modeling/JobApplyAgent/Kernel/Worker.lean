import JobApplyAgent.Kernel.Automation

/-!
# Submission worker

The database transactions of one worker: claiming a command, the fenced
preflight, the commit boundary, the transaction around the irreversible call,
and the reconciliation of stale claims.  Each function is one transaction on
the committed database; an error leaves the database unchanged.
-/

namespace JobApplyAgent.Kernel

open Domain Store Library

variable (zone : Zone)

/-- The identity of the running worker build. -/
structure WorkerRuntime where
  release : String
  sourceCurrent : Bool

def releaseUnavailable (release : String) : Bool :=
  decide (release = "unknown" ∨ release = "unavailable")

def releaseMatches (attempt : Submission) (runtime : WorkerRuntime) : Bool :=
  let expected := columnText attempt.runnerRelease
  !(decide (expected = "") || releaseUnavailable expected
    || releaseUnavailable runtime.release
    || decide (expected ≠ runtime.release) || !runtime.sourceCurrent)

/-! ## Claiming -/

def commandDue (now : Timestamp) (attempt : Submission) : Bool :=
  attempt.command.any fun command =>
    decide (command.state = .pending) && decide (command.availableAt ≤ now)

def commandAvailableAt (db : Db) (id : ℕ) : Timestamp :=
  ((db.submissions[id]?.bind Submission.command).map
    SubmissionCommand.availableAt).getD 0

/-- Due commands in the order of their availability, then of their id. -/
def claimCandidates (db : Db) (only : Option ℕ) (now : Timestamp) : List ℕ :=
  let due := (db.submissions.zipIdx.filter fun entry =>
    commandDue now entry.1 && only.all fun id => id = entry.2).map Prod.snd
  (due.insertionSort fun first second =>
    commandAvailableAt db first ≤ commandAvailableAt db second).take 50

def cancelInvalidCommand (attempt : Submission) (command : SubmissionCommand)
    (now : Timestamp) : Submission :=
  { attempt with
    command := some
      { command with
        state := .cancelled
        lastErrorCode := some .commandStateInvalid
        completedAt := some now } }

def failedWith (reason : FailureReason) : CommitOutcome :=
  .failedBeforeCommit reason

def claimCommand (db : Db) (id : ℕ) (now : Timestamp) (runner : String)
    (token : ℕ) (runtime : WorkerRuntime) :
    Except KernelError (Db × Option ℕ) := do
  let attempt ← fetch db.submissions id
  match attempt.command with
  | none => return (db, none)
  | some command =>
    if attempt.stage ≠ .queued then
      let after ← db.flushSubmission id (cancelInvalidCommand attempt command now)
      return (after, none)
    else if ¬releaseMatches attempt runtime then
      let after ← finishAttempt db id attempt command (failedWith .buildMismatch) now
      return (after, none)
    else
      let staged ← setStage { attempt with startedAt := some now } .inspecting
      let claimed : SubmissionCommand :=
        { command with
          state := .claimed
          claimedAt := some now
          claimedBy := some runner
          claimToken := some token }
      let mirrored ← enqueueControlPlaneAttemptTransition db staged claimed now true
      let after ← mirrored.flushSubmission id { staged with command := some claimed }
      return (after, some id)

/-- Claim the first due command whose application row is not locked. -/
def claimSubmissionCommand (db : Db) (locked : ℕ → Bool) (only : Option ℕ)
    (now : Timestamp) (runner : String) (token : ℕ) (runtime : WorkerRuntime) :
    Except KernelError (Db × Option ℕ) :=
  let free := fun id => db.submissions[id]?.any fun attempt =>
    !locked attempt.applicationId
  match (claimCandidates db only now).find? free with
  | none => .ok (db, none)
  | some id => claimCommand db id now runner token runtime

/-! ## Fenced preflight -/

/-- Lock application then command and prove this claim still owns the work. -/
def lockClaimedContext (db : Db) (id token : ℕ) :
    Option (Application × Submission × SubmissionCommand) :=
  match db.submissions[id]? with
  | none => none
  | some attempt =>
    match db.applications[attempt.applicationId]?, attempt.command with
    | some application, some command =>
      if command.state = .claimed ∧ command.claimToken = some token then
        some (application, attempt, command)
      else none
    | _, _ => none

/-- Terminalize only while this fenced claim still owns pre-commit work.  No
database means that the claim was superseded. -/
def finishClaimedBeforeCommit (db : Db) (id token : ℕ)
    (reason : FailureReason) (now : Timestamp) :
    Except KernelError (Option Db) :=
  match lockClaimedContext db id token with
  | none => .ok none
  | some (_, attempt, command) =>
    if attempt.stage = .inspecting ∨ attempt.stage = .preparing
        ∨ attempt.stage = .ready then do
      let after ← finishAttempt db id attempt command (failedWith reason) now
      return some after
    else .ok none

def reviewedDraft (application : Application) (attempt : Submission) : Bool :=
  decide (application.status = .draft)
    && application.job.any (fun job => job.status = .draft)
    && preparationIsCurrent application
    && decide (application.revision = attempt.applicationRevision)

def enterClaimedPreflight (db : Db) (id token : ℕ) (now : Timestamp) :
    Except KernelError (Option Db) :=
  match lockClaimedContext db id token with
  | none => .ok none
  | some (application, attempt, command) =>
    if reviewedDraft application attempt ∧ attempt.stage = .inspecting then do
      let staged ← setStage attempt .preparing
      let mirrored ← enqueueControlPlaneAttemptTransition db staged command now true
      let after ← mirrored.flushSubmission id staged
      return some after
    else .ok none

/-- End an attempt whose preflight prepared nothing. -/
def finishUnprepared (db : Db) (id token : ℕ) (outcome : CommitOutcome)
    (now : Timestamp) : Except KernelError (Option Db) :=
  match lockClaimedContext db id token with
  | none => .ok none
  | some (_, attempt, command) => do
      let after ← finishAttempt db id attempt command outcome now
      return some after

inductive ReadyResult where
  | superseded
  | invalid
  | ready (after : Db)

def attemptPlan (db : Db) (attempt : Submission) : Option FormPlan :=
  attempt.formPlanId.bind fun planId => db.formPlans[planId]?

/-- The handle binds the plan and the permit of its attempt. -/
def actionBinds (id : ℕ) (action : PreparedFinalActionV1) (plan : FormPlan)
    (permit : PermitRow) (now : Timestamp) : Bool :=
  (loadDomainPlan plan).any fun domainPlan =>
    action.binds domainPlan (loadDomainPermit id permit) now

def renewLease (command : SubmissionCommand) (now : Timestamp) :
    SubmissionCommand :=
  { command with claimedAt := some now }

/-- Bind a reversible preflight handle before exposing `ready`. -/
def markClaimedAttemptReady (db : Db) (id token : ℕ)
    (action : PreparedFinalActionV1) (now : Timestamp) :
    Except KernelError ReadyResult :=
  match lockClaimedContext db id token with
  | none => .ok .superseded
  | some (application, attempt, command) =>
    if attempt.stage ≠ .preparing then .ok .superseded
    else
      match attemptPlan db attempt, attempt.permit with
      | some plan, some permit =>
        if reviewedDraft application attempt
            ∧ actionBinds id action plan permit now then do
          let staged ← setStage attempt .ready
          let mirrored ←
            enqueueControlPlaneAttemptTransition db staged command now true
          let after ← mirrored.flushSubmission id
            { staged with command := some (renewLease command now) }
          return .ready after
        else .ok .invalid
      | _, _ => .ok .invalid

/-! ## Commit boundary -/

/-- What one of the two validations of the boundary reads outside the modelled
tables. -/
structure BoundaryReadings where
  sourceCurrent : Bool
  automation : AutomationReadings
  canaryAuthorized : Bool
  snapshotCurrent : Bool

/-- The authority an attempt was admitted under still stands. -/
def validateAttemptAutomationAuthority (db : Db) (attempt : Submission)
    (now : Timestamp) (readings : BoundaryReadings) : Except PermitError Unit :=
  match attempt.authorityKind with
  | .qualificationCanary =>
    if attempt.qualificationCanaryAuthorizationId.isSome
        ∧ attempt.qualificationCanaryAuthorizationDigest.isSome
        ∧ readings.canaryAuthorized then .ok ()
    else .error .bindingMismatch
  | .qualifiedAutopilot =>
    let decision := attempt.automationPolicyDecisionId.bind fun id =>
      db.decisions[id]?
    if attempt.automationPolicyDecisionDigest.isNone
        ∨ decision.map PolicyDecision.decisionDigest
          ≠ attempt.automationPolicyDecisionDigest then
      .error .bindingMismatch
    else
      match validateCurrentAutomationDecision zone db
          attempt.automationPolicyDecisionId now readings.automation with
      | .ok _ => .ok ()
      | .error .killSwitchActive => .error .governorDenied
      | .error .outsideActiveHours => .error .governorDenied
      | .error _ => .error .bindingMismatch
  | _ => .ok ()

/-- Bind a qualified action to the immutable artifacts of its preflight. -/
def requireAttemptArtifactSnapshot (attempt : Submission)
    (readings : BoundaryReadings) : Except PermitError Unit :=
  if attempt.authorityKind = .qualifiedAutopilot ∧ ¬readings.snapshotCurrent then
    .error .automationPolicyChanged
  else .ok ()

/-- One full validation of authority, permit and handle. -/
def validateBoundary (db : Db) (id : ℕ) (attempt : Submission)
    (plan : FormPlan) (permit : PermitRow) (action : PreparedFinalActionV1)
    (jobUrlHash : String) (now : Timestamp) (readings : BoundaryReadings) :
    Except PermitError Unit :=
  if (loadDomainPlan plan).isNone then .error .formChanged
  else do
    validateAttemptAutomationAuthority zone db attempt now readings
    requireAttemptArtifactSnapshot attempt readings
    validateFinalSubmitPermit permit attempt plan jobUrlHash now
    if actionBinds id action plan permit now then .ok ()
    else .error .formChanged

inductive BoundaryResult where
  | superseded
  | rejected (after : Db)
  | entered (after : Db)

/-- Persist `committing`, the action instant, the spent permit and the renewed
lease in one transaction. -/
def crossBoundary (db : Db) (id : ℕ) (attempt : Submission)
    (command : SubmissionCommand) (permit : PermitRow) (now : Timestamp) :
    Except KernelError BoundaryResult := do
  let staged ← setStage attempt .committing
  let mirrored ← enqueueControlPlaneAttemptTransition db staged command now true
  let consumed ← consumeFinalSubmitPermit permit now
  let after ← mirrored.flushSubmission id
    { staged with
      finalActionAt := some now
      permit := some consumed
      command := some (renewLease command now) }
  return .entered after

def rejectAtBoundary (db : Db) (id : ℕ) (attempt : Submission)
    (command : SubmissionCommand)
    (reason : FailureReason) (now : Timestamp) :
    Except KernelError BoundaryResult := do
  let after ← finishAttempt db id attempt command (failedWith reason) now
  return .rejected after

structure BoundaryRequest where
  action : PreparedFinalActionV1
  jobUrlHash : String
  validationAt : Timestamp
  commitAt : Timestamp
  first : BoundaryReadings
  second : BoundaryReadings
  governorAllowed : Bool

/-- Fence stale workers and atomically consume authority before one action. -/
def enterCommitBoundary (db : Db) (id token : ℕ) (request : BoundaryRequest) :
    Except KernelError BoundaryResult :=
  match lockClaimedContext db id token with
  | none => .ok .superseded
  | some (application, attempt, command) =>
    if ¬request.first.sourceCurrent then
      rejectAtBoundary db id attempt command .buildMismatch request.validationAt
    else
      match attemptPlan db attempt, attempt.permit with
      | some plan, some permit =>
        if ¬(reviewedDraft application attempt ∧ attempt.stage = .ready
            ∧ plan.invalidatedAt = none) then .ok .superseded
        else
          match validateBoundary zone db id attempt plan permit request.action
              request.jobUrlHash request.validationAt request.first with
          | .error error =>
            rejectAtBoundary db id attempt command (permitReasonMap error)
              request.validationAt
          | .ok () =>
            if ¬request.governorAllowed then
              rejectAtBoundary db id attempt command
                .governorDenied request.validationAt
            else if ¬request.second.sourceCurrent then
              rejectAtBoundary db id attempt command .buildMismatch
                request.commitAt
            else
              -- the shared governor may have delayed the transaction, so
              -- the clock and both contracts are read once more
              match validateBoundary zone db id attempt plan permit
                  request.action request.jobUrlHash request.commitAt
                  request.second with
              | .error error =>
                rejectAtBoundary db id attempt command
                  (permitReasonMap error) request.commitAt
              | .ok () =>
                crossBoundary db id attempt command permit request.commitAt
      | _, _ => .ok .superseded

/-! ## The irreversible call -/

/-- The row locks are held again and the boundary is still this claim's. -/
def commitContext (db : Db) (id token : ℕ) :
    Option (Submission × SubmissionCommand) :=
  match lockClaimedContext db id token with
  | none => none
  | some (_, attempt, command) =>
    if attempt.stage = .committing ∧ attempt.finalActionAt.isSome
        ∧ attempt.permitConsumed then some (attempt, command)
    else none

/-- What the adapter's call ended with. -/
inductive CommitReport where
  | raised
  | returned (outcome : CommitOutcome)

def unknownWith (reason : UnknownReason) : CommitOutcome :=
  .unknown reason

/-- The outcome that a report can support: only confirmed employer evidence of
this very action counts, everything else is unknown. -/
def commitOutcome (id : ℕ) (attempt : Submission) (report : CommitReport)
    (now : Timestamp) : CommitOutcome :=
  match report with
  | .raised => unknownWith .internalError
  | .returned (.confirmedSubmitted evidence) =>
    if confirmedEvidenceIsValid id attempt evidence now then
      .confirmedSubmitted evidence
    else unknownWith .evidenceInvalid
  | .returned (.unknown reason) => .unknown reason
  | .returned _ => unknownWith .finalActionUnconfirmed

/-- Verify and finish after the call returned. -/
def settleCommit (db : Db) (id : ℕ) (attempt : Submission)
    (command : SubmissionCommand) (outcome : CommitOutcome) (now : Timestamp) :
    Except KernelError Db :=
  match outcome with
  | .confirmedSubmitted _ => do
      let staged ← setStage attempt .verifying
      let mirrored ← enqueueControlPlaneAttemptTransition db staged command now true
      finishAttempt mirrored id staged command outcome now
  | outcome => finishAttempt db id attempt command outcome now

/-! ## Stale claims -/

def claimStale (cutoff : Timestamp) (attempt : Submission) : Bool :=
  attempt.command.any fun command =>
    decide (command.state = .claimed)
      && command.claimedAt.any fun claimedAt => decide (claimedAt < cutoff)

def commandClaimedAt (db : Db) (id : ℕ) : Timestamp :=
  ((db.submissions[id]?.bind Submission.command).bind
    SubmissionCommand.claimedAt).getD 0

/-- Stale claims in the order in which they were made. -/
def staleCandidates (db : Db) (cutoff : Timestamp) : List ℕ :=
  let stale := (db.submissions.zipIdx.filter fun entry =>
    claimStale cutoff entry.1).map Prod.snd
  stale.insertionSort fun first second =>
    commandClaimedAt db first ≤ commandClaimedAt db second

def crossedBoundary (attempt : Submission) : Bool :=
  attempt.stage.postcommit || attempt.permitConsumed

def requeueRow (attempt : Submission) (command : SubmissionCommand) :
    Submission :=
  { attempt with
    stage := .queued
    outcome := none
    status := .pending
    startedAt := none
    command := some
      { command with
        state := .pending
        claimedAt := none
        claimedBy := none
        claimToken := none
        lastErrorCode := some .safePrecommitRedelivery } }

def requeueAttempt (db : Db) (id : ℕ) (attempt : Submission)
    (command : SubmissionCommand) (now : Timestamp) : Except KernelError Db := do
  let requeued := requeueRow attempt command
  let mirrored ← enqueueControlPlaneAttemptTransition db requeued command now true
  mirrored.flushSubmission id requeued

/-- Requeue one stale claim before the boundary, quarantine it after. -/
def reconcileStaleClaim (locked : ℕ → Bool) (cutoff now : Timestamp) (db : Db)
    (id : ℕ) : Except KernelError Db :=
  match db.submissions[id]? with
  | none => .ok db
  | some attempt =>
    if locked attempt.applicationId then .ok db
    else
      match attempt.command with
      | none => .ok db
      | some command =>
        if ¬claimStale cutoff attempt then .ok db
        else if crossedBoundary attempt then
          finishAttempt db id attempt command
            (unknownWith .staleIndeterminate) now
        else requeueAttempt db id attempt command now

/-- Requeue safe pre-commit work; quarantine every indeterminate action. -/
def reconcileStaleSubmissionCommands (db : Db) (locked : ℕ → Bool)
    (now : Timestamp) (staleSeconds : ℤ) : Except KernelError Db :=
  let cutoff := now - max 1 staleSeconds * second
  (staleCandidates db cutoff).foldlM (reconcileStaleClaim locked cutoff now) db

end JobApplyAgent.Kernel
