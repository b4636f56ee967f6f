import JobApplyAgent.Kernel.Legacy

/-!
# Execution of a claimed command

One worker running `execute_claimed_submission_command`: the unlocked prechecks,
and between them and the final call the transactions of the worker module, in
the order of the phases below.
-/

namespace JobApplyAgent.Kernel

open Domain Store Library

/-- Where an execution stands between two of its transactions. -/
inductive WorkerPhase where
  | failing (reason : FailureReason)
  | loaded
  | preflighting
  | returned (outcome : PreflightOutcome)
  | readied (action : PreparedFinalActionV1)
  | entered (action : PreparedFinalActionV1)
  | done

/-- One execution: the command it was given and the claim token it read. -/
structure Worker where
  attempt : ℕ
  token : ℕ
  jobUrlHash : String
  phase : WorkerPhase

/-- The execution has passed the preflight fence of its claim. -/
def WorkerPhase.pastPreflight : WorkerPhase → Bool
  | .preflighting | .returned _ | .readied _ | .entered _ => true
  | _ => false

/-- What the prechecks read outside the modelled tables. -/
structure ExecutionReadings where
  finalSubmitEnabled : Bool
  jobUrlHash : Option String
  executorResolved : Bool
  selectedCvAvailable : Bool

/-- The prechecks of an execution: the reason it fails with, or the hash of the
job URL it goes on with. -/
def executePrechecks (db : Db) (id : ℕ) (application : Application)
    (attempt : Submission) (readings : ExecutionReadings) (now : Timestamp) :
    Except FailureReason String :=
  if ¬readings.finalSubmitEnabled then .error .runtimeNotReady
  else
    match attemptPlan db attempt, attempt.permit, application.job with
    | some plan, some permit, some _ =>
      if ¬reviewedDraft application attempt then .error .formChanged
      else
        match readings.jobUrlHash with
        | none => .error .formChanged
        | some jobUrlHash =>
          match validateFinalSubmitPermit permit attempt plan jobUrlHash now with
          | .error error => .error (permitReasonMap error)
          | .ok () =>
            if ¬(loadDomainPlan plan).any (loadDomainPermit id permit).binds then
              .error .formChanged
            else if ¬readings.executorResolved then
              .error .adapterNotQualified
            else if ¬readings.selectedCvAvailable then
              .error .attachmentUnverified
            else .ok jobUrlHash
    | _, _, _ => .error .permitMissing

/-- Start an execution of a claimed command under the token it carries now. -/
def loadWorker (db : Db) (id : ℕ) (readings : ExecutionReadings)
    (now : Timestamp) : Option Worker :=
  match db.submissions[id]? with
  | none => none
  | some attempt =>
    match attempt.command, db.applications[attempt.applicationId]? with
    | some command, some application =>
      if command.state ≠ .claimed then none
      else
        command.claimToken.map fun token =>
          match executePrechecks db id application attempt readings now with
          | .error reason =>
            { attempt := id, token, jobUrlHash := "", phase := .failing reason }
          | .ok jobUrlHash =>
            { attempt := id, token, jobUrlHash, phase := .loaded }
    | _, _ => none

/-- What happens next to an execution. -/
inductive WorkerEvent where
  | finishClaimed (now : Timestamp)
  | enterPreflight (now : Timestamp)
  | lifecycleFailed
  | preflight (outcome : PreflightOutcome)
  | finishUnprepared (now : Timestamp)
  | markReady (now : Timestamp)
  | enterBoundary (request : BoundaryRequest)
  | commit (startedAt : Timestamp) (report : CommitReport) (finishedAt : Timestamp)
      (survives : Bool)
  | crash

/-- The outcome of one event: the database, the next phase, and whether the
irreversible call was made. -/
structure WorkerResult where
  db : Db
  phase : WorkerPhase
  called : Bool

def supersededBy (db : Db) : WorkerResult where
  db
  phase := .done
  called := false

/-- A guarded transaction that either was superseded or moves the worker on. -/
def fenced (db : Db) (phase : WorkerPhase) (result : Except KernelError (Option Db)) :
    Except KernelError WorkerResult :=
  match result with
  | .error error => .error error
  | .ok none => .ok (supersededBy db)
  | .ok (some after) => .ok { db := after, phase, called := false }

/-- The final action still binds the locked plan and permit. -/
def preparedBinds (db : Db) (worker : Worker) (attempt : Submission)
    (action : PreparedFinalActionV1) (startedAt : Timestamp) : Bool :=
  match attemptPlan db attempt, attempt.permit with
  | some plan, some permit => actionBinds worker.attempt action plan permit startedAt
  | _, _ => false

/-- The transaction around the irreversible call.  A crash or an error after the
call leaves the committed boundary as it is. -/
def commitAction (db : Db) (worker : Worker) (action : PreparedFinalActionV1)
    (startedAt : Timestamp) (report : CommitReport) (finishedAt : Timestamp)
    (survives : Bool) : Except KernelError WorkerResult :=
  match commitContext db worker.attempt worker.token with
  | none => .ok (supersededBy db)
  | some (attempt, command) =>
    if ¬preparedBinds db worker attempt action startedAt then
      fenced db .done
        ((finishAttempt db worker.attempt attempt command
          (unknownWith .finalActionUnconfirmed) startedAt).map some)
    else if ¬survives then .ok { db, phase := .done, called := true }
    else
      match settleCommit db worker.attempt attempt command
          (commitOutcome worker.attempt attempt report finishedAt) finishedAt with
      | .error _ => .ok { db, phase := .done, called := true }
      | .ok after => .ok { db := after, phase := .done, called := true }

/-- One event of one execution; an event that does not fit the phase is not
possible. -/
def workerStep (zone : Zone) (db : Db) (worker : Worker) (event : WorkerEvent) :
    Option (Except KernelError WorkerResult) :=
  let id := worker.attempt
  let token := worker.token
  match worker.phase, event with
  | .done, _ => none
  | _, .crash => some (.ok (supersededBy db))
  | .failing reason, .finishClaimed now =>
    some (fenced db .done (finishClaimedBeforeCommit db id token reason now))
  | .loaded, .enterPreflight now =>
    some (fenced db .preflighting (enterClaimedPreflight db id token now))
  | .preflighting, .lifecycleFailed =>
    some (.ok { db, phase := .failing .internalError, called := false })
  | .preflighting, .preflight outcome =>
    some (.ok { db, phase := .returned outcome, called := false })
  | .returned outcome, .finishUnprepared now =>
    outcome.terminal?.map fun terminal =>
      fenced db .done (finishUnprepared db id token terminal now)
  | .returned (.prepared action), .markReady now =>
    some
      (match markClaimedAttemptReady db id token action now with
        | .error error => .error error
        | .ok .superseded => .ok (supersededBy db)
        | .ok .invalid =>
          .ok { db, phase := .failing .formChanged, called := false }
        | .ok (.ready after) =>
          .ok { db := after, phase := .readied action, called := false })
  | .readied action, .enterBoundary request =>
    some
      (match enterCommitBoundary zone db id token
          { request with action, jobUrlHash := worker.jobUrlHash } with
        | .error error => .error error
        | .ok .superseded => .ok (supersededBy db)
        | .ok (.rejected after) => .ok { db := after, phase := .done, called := false }
        | .ok (.entered after) =>
          .ok { db := after, phase := .entered action, called := false })
  | .entered action, .commit startedAt report finishedAt survives =>
    some (commitAction db worker action startedAt report finishedAt survives)
  | _, _ => none

end JobApplyAgent.Kernel
