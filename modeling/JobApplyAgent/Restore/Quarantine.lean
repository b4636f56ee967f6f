import JobApplyAgent.Kernel.EmployerTruth

/-!
# Restore quarantine

The procedure that takes all authority out of a restored database before any
worker is started.  It sweeps one table after the other, notes the applications
that it touches, and moves those to review.  Applications with an
employer-verified attempt are never noted.
-/

namespace JobApplyAgent.Restore

open Domain Store Library Kernel

/-! ## The restored tables -/

/-- A policy revision with every column of its revocation. -/
structure RestoredPolicy extends PolicyRevision where
  revokedBy : Option String

/-- A review grant with every column of its revocation delivery. -/
structure RestoredGrant extends ReviewGrant where
  revocationClaimedBy : Option String
  lastRevocationErrorCode : Option String
  deriving DecidableEq

/-- The audit event of an application that was moved to review. -/
structure RestoreEvent where
  applicationId : ℕ
  reason : ReasonCode

structure RestoredDb where
  policies : List RestoredPolicy
  inspections : List InspectionRun
  formPlans : List FormPlan
  grants : List RestoredGrant
  submissions : List Submission
  applications : List Application
  events : List RestoreEvent

def restoreReason : String := "RESTORE_QUARANTINE"

/-! ## One row of each table -/

def policyActive (policy : RestoredPolicy) : Bool :=
  policy.activeSlot && policy.revokedAt.isNone

def revokePolicy (now : Timestamp) (policy : RestoredPolicy) : RestoredPolicy :=
  { policy with
    activeSlot := false
    revokedAt := some now
    revokedBy := some "restore_quarantine"
    revocationReason := some restoreReason }

def inspectionOpen (run : InspectionRun) : Bool :=
  decide (run.state ≠ .finished)

def finishInspection (now : Timestamp) (run : InspectionRun) : InspectionRun :=
  { run with
    state := .finished
    claimedAt := run.claimedAt <|> some now
    leaseExpiresAt := none
    claimToken := none
    finishedAt := some now
    reasonCode := some restoreReason }

def planLive (plan : FormPlan) : Bool :=
  plan.invalidatedAt.isNone

def invalidatePlan (now : Timestamp) (plan : FormPlan) : FormPlan :=
  { plan with
    invalidatedAt := some now
    invalidationReason := some (.other restoreReason) }

/-- The attempt has a permit that is neither consumed nor expired. -/
def permitLive (now : Timestamp) (attempt : Submission) : Bool :=
  attempt.permit.any fun permit =>
    permit.consumedAt.isNone && decide (now < permit.expiresAt)

def expirePermit (now : Timestamp) (attempt : Submission) : Submission :=
  { attempt with
    permit := attempt.permit.map fun permit => { permit with expiresAt := now } }

/-- The delivery state that a revocation is armed with. -/
def desiredState (now : Timestamp) (grant : RestoredGrant) : RevocationState :=
  if grant.expiresAt ≤ now then .expired else .pending

/-- A revocation is available from its own time on, or from now on. -/
def desiredAvailableAt (now : Timestamp) (grant : RestoredGrant) : Timestamp :=
  grant.revocationAvailableAt.getD now

/-- The delivery of the revocation is not armed as it should be. -/
def revocationChanged (now : Timestamp) (grant : RestoredGrant) : Bool :=
  decide (grant.revocationState ≠ desiredState now grant)
    || decide (grant.revocationAvailableAt ≠ some (desiredAvailableAt now grant))
    || grant.revocationClaimedAt.isSome
    || grant.revocationClaimedBy.isSome
    || grant.revocationClaimToken.isSome
    || grant.revocationSentAt.isSome

def armRevocation (now : Timestamp) (grant : RestoredGrant) : RestoredGrant :=
  { grant with
    revocationState := desiredState now grant
    revocationAvailableAt := some (desiredAvailableAt now grant)
    revocationClaimedAt := none
    revocationClaimedBy := none
    revocationClaimToken := none
    revocationSentAt := none
    lastRevocationErrorCode := some restoreReason }

/-- Make an unconsumed local tombstone deliverable after a restore; the flag
tells whether that changed the grant. -/
def rearmReviewGrantRevocation (now : Timestamp) (grant : RestoredGrant) :
    RestoredGrant × Bool :=
  if grant.consumedAt.isSome ∨ grant.revocationState = .delivered then (grant, false)
  else if revocationChanged now grant then (armRevocation now grant, true)
  else (grant, false)

/-- The grant with its revocation time, before its delivery is armed again. -/
def revokeGrant (now : Timestamp) (grant : RestoredGrant) : RestoredGrant :=
  { grant with revokedAt := grant.revokedAt <|> some now }

/-- The grant is not consumed, and is revoked or armed again. -/
def grantTouched (now : Timestamp) (grant : RestoredGrant) : Bool :=
  grant.consumedAt.isNone
    && (grant.revokedAt.isNone
      || (rearmReviewGrantRevocation now (revokeGrant now grant)).2)

def quarantineGrant (now : Timestamp) (grant : RestoredGrant) : RestoredGrant :=
  (rearmReviewGrantRevocation now (revokeGrant now grant)).1

def commandActive (attempt : Submission) : Bool :=
  attempt.command.any fun command =>
    decide (command.state = .pending ∨ command.state = .claimed)

def cancelAttemptCommand (now : Timestamp) (attempt : Submission) : Submission :=
  { attempt with
    command := attempt.command.map fun command =>
      cancelCommand command (.other restoreReason) now }

/-- Protect employer proof even if a restored legacy stage is inconsistent. -/
def hasEmployerVerifiedEvidence (id : ℕ) (attempt : Submission) : Bool :=
  employerVerified id attempt
    || (decide (attempt.outcome = some .confirmedSubmitted)
      && employerVerified id { attempt with stage := .finished })

/-- The attempt is neither proven by the employer nor finished. -/
def attemptOpen (id : ℕ) (attempt : Submission) : Bool :=
  !hasEmployerVerifiedEvidence id attempt && decide (attempt.stage ≠ .finished)

/-- The external action of the attempt may have happened, or its stage is unknown. -/
def attemptIndeterminate (attempt : Submission) : Bool :=
  actionIndeterminate attempt || !attempt.stage.precommit

def finishRestored (now : Timestamp) (attempt : Submission) : Submission :=
  { attempt with
    status := if attemptIndeterminate attempt then .unknown else .failed
    outcome := some (if attemptIndeterminate attempt then .unknown else .failedBeforeCommit)
    reasonCode := some (.code
      (if attemptIndeterminate attempt then .staleIndeterminate else .runtimeNotReady))
    stage := .finished
    finishedAt := attempt.finishedAt <|> some now
    submittedAt := none }

def quarantineAttempt (now : Timestamp) (id : ℕ) (attempt : Submission) : Submission :=
  if attemptOpen id attempt then finishRestored now attempt else attempt

def quarantineApplication (reason : ReasonCode) (application : Application) : Application :=
  { application with
    status := .needsReview
    needsReviewReason := some (.code reason)
    preparedRevision := none
    approvedAt := none
    approvalSource := none
    job := application.job.map fun job => { job with status := .needsReview } }

def applicationMoves (reason : ReasonCode) (application : Application) : Bool :=
  decide (application.status ≠ .needsReview)
    || decide (application.needsReviewReason ≠ some (.code reason))
    || application.preparedRevision.isSome
    || application.approvedAt.isSome
    || application.approvalSource.isSome
    || application.job.any fun job => decide (job.status ≠ .needsReview)

/-! ## The procedure -/

def verifiedApplication (db : RestoredDb) (applicationId : ℕ) : Bool :=
  db.submissions.zipIdx.any fun entry =>
    decide (entry.1.applicationId = applicationId)
      && hasEmployerVerifiedEvidence entry.2 entry.1

/-- Note the application of an open attempt: an indeterminate one overrides what
was noted, a definite pre-commit one does not. -/
def noteAttempt (exempt : ℕ → Bool) (affected : Notes ℕ ReasonCode)
    (entry : Submission × ℕ) : Notes ℕ ReasonCode :=
  let (attempt, id) := entry
  if ¬attemptOpen id attempt ∨ exempt attempt.applicationId then affected
  else if attemptIndeterminate attempt then
    affected.put attempt.applicationId .staleIndeterminate
  else affected.setDefault attempt.applicationId .runtimeNotReady

/-- The applications that the sweeps touch, with the reason to review them. -/
def affectedApplications (db : RestoredDb) (now : Timestamp) : Notes ℕ ReasonCode :=
  let exempt := verifiedApplication db
  let affected : Notes ℕ ReasonCode := Notes.empty
  let affected := Notes.noteOwners inspectionOpen InspectionRun.applicationId exempt
    .runtimeNotReady db.inspections affected
  let affected := Notes.noteOwners planLive FormPlan.applicationId exempt
    .runtimeNotReady db.formPlans affected
  let affected := Notes.noteOwners (permitLive now) Submission.applicationId exempt
    .runtimeNotReady db.submissions affected
  let affected := Notes.noteOwners (grantTouched now) (fun grant => grant.applicationId)
    exempt .runtimeNotReady db.grants affected
  let affected := Notes.noteOwners commandActive Submission.applicationId exempt
    .runtimeNotReady db.submissions affected
  db.submissions.zipIdx.foldl (noteAttempt exempt) affected

/-- Bounded counts suitable for operator output without private content. -/
structure RestoreQuarantineSummary where
  automationPoliciesRevoked : ℕ
  autopilotInspectionsQuarantined : ℕ
  formPlansInvalidated : ℕ
  finalPermitsExpired : ℕ
  reviewGrantsRevoked : ℕ
  reviewGrantRevocationsRearmed : ℕ
  commandsCancelled : ℕ
  precommitAttemptsCancelled : ℕ
  postcommitAttemptsMarkedUnknown : ℕ
  applicationsMovedToReview : ℕ

def reviewAffected (affected : Notes ℕ ReasonCode) (id : ℕ) (application : Application) :
    Application :=
  match affected id with
  | none => application
  | some reason => quarantineApplication reason application

/-- The affected applications that are not in review already, in the order of the table. -/
def movedApplications (db : RestoredDb) (affected : Notes ℕ ReasonCode) : List RestoreEvent :=
  db.applications.zipIdx.filterMap fun entry =>
    (affected entry.2).bind fun reason =>
      if applicationMoves reason entry.1 then some { applicationId := entry.2, reason }
      else none

/-- Invalidate all restored authority without deleting historical evidence. -/
def quarantineRestoredRuntime (db : RestoredDb) (now : Timestamp) :
    RestoredDb × RestoreQuarantineSummary :=
  let affected := affectedApplications db now
  let withoutPermits := sweep (permitLive now) (expirePermit now) db.submissions
  let withoutCommands := sweep commandActive (cancelAttemptCommand now) withoutPermits
  let moved := movedApplications db affected
  ({ policies := sweep policyActive (revokePolicy now) db.policies
     inspections := sweep inspectionOpen (finishInspection now) db.inspections
     formPlans := sweep planLive (invalidatePlan now) db.formPlans
     grants := sweep (grantTouched now) (quarantineGrant now) db.grants
     -- What an attempt is judged by is not touched by the sweeps before.
     submissions := withoutCommands.mapIdx (quarantineAttempt now)
     applications := db.applications.mapIdx (reviewAffected affected)
     events := db.events ++ moved },
    { automationPoliciesRevoked := db.policies.countP policyActive
      autopilotInspectionsQuarantined := db.inspections.countP inspectionOpen
      formPlansInvalidated := db.formPlans.countP planLive
      finalPermitsExpired := db.submissions.countP (permitLive now)
      reviewGrantsRevoked := db.grants.countP fun grant =>
        grant.consumedAt.isNone && grant.revokedAt.isNone
      reviewGrantRevocationsRearmed := db.grants.countP fun grant =>
        grant.consumedAt.isNone
          && (rearmReviewGrantRevocation now (revokeGrant now grant)).2
      commandsCancelled := db.submissions.countP commandActive
      precommitAttemptsCancelled := db.submissions.zipIdx.countP fun entry =>
        attemptOpen entry.2 entry.1 && !attemptIndeterminate entry.1
      postcommitAttemptsMarkedUnknown := db.submissions.zipIdx.countP fun entry =>
        attemptOpen entry.2 entry.1 && attemptIndeterminate entry.1
      applicationsMovedToReview := moved.length })

end JobApplyAgent.Restore
