import JobApplyAgent.Migration.ProfileVersions
import JobApplyAgent.Domain.Contracts
import Mathlib.Data.List.Dedup

/-!
# The data steps of the upgrade

Every old attempt is closed with an outcome, the lifecycle columns are archived, and
each application and its job take one state from the history of its attempts.
-/

namespace JobApplyAgent.Migration

open Domain Library

structure JobRow where
  id : ℕ
  status : JobStatus

structure LegacyApplication where
  id : ℕ
  jobId : ℕ
  status : JobStatus
  approvedAt : Option Timestamp
  approvalSource : Option String
  needsReviewReason : Option String
  updatedAt : Timestamp
  profileVersion : Option ℤ

structure LegacySubmission where
  id : ℕ
  applicationId : ℕ
  attemptNumber : ℤ
  submitterName : String
  status : SubmissionStatus
  reasonCode : Option String
  selectedCvId : Option String
  profileVersion : Option ℤ
  submittedAt : Option Timestamp
  createdAt : Timestamp
  finishedAt : Option Timestamp

/-- The version 3 tables. -/
structure LegacyContent where
  jobs : List JobRow
  applications : List LegacyApplication
  submissions : List LegacySubmission
  profiles : List ProfileVersion

/-- The version 3 tables under the keys of their schema, with texts and numbers that fit the columns
they move to. -/
structure LegacyDatabase extends LegacyContent where
  jobs_id : (jobs.map JobRow.id).Nodup
  applications_id : (applications.map LegacyApplication.id).Nodup
  applications_job_id : (applications.map LegacyApplication.jobId).Nodup
  applications_job : ∀ application ∈ applications, ∃ job ∈ jobs, job.id = application.jobId
  submissions_id : (submissions.map LegacySubmission.id).Nodup
  submissions_attempt : (submissions.map fun submission =>
    (submission.applicationId, submission.attemptNumber)).Nodup
  submissions_application : ∀ submission ∈ submissions,
    ∃ application ∈ applications, application.id = submission.applicationId
  profiles_id : (profiles.map ProfileVersion.id).Nodup

structure Application extends LegacyApplication where
  revision : ℕ
  preparedRevision : Option ℕ

structure Submission extends LegacySubmission where
  stage : AttemptStage
  outcome : Option AttemptOutcome
  applicationRevision : ℕ
  adapterName : Option String
  requestedCvId : Option String
  attachmentVerified : Bool
  legacyReportedAt : Option Timestamp
  reconciliationSource : Option String
  reconciliationEvidenceRef : Option String

/-- A row of `_submission_domain_legacy_state`. -/
structure LegacyState where
  applicationId : ℕ
  applicationStatus : JobStatus
  approvedAt : Option Timestamp
  approvalSource : Option String
  needsReviewReason : Option String
  updatedAt : Timestamp
  jobId : ℕ
  jobStatus : JobStatus

/-- The version 4 tables, with the two archives of the upgrade. -/
structure Content where
  jobs : List JobRow
  applications : List Application
  submissions : List Submission
  profiles : List ProfileVersion
  legacyStates : List LegacyState
  profileVersionStates : List ProfileVersionState

namespace Submission

/-- `ck_submissions_stage_outcome_consistent`. -/
def stageOutcomeConsistent (submission : Submission) : Prop :=
  submission.stage = .finished ↔ submission.outcome.isSome

/-- `ck_submissions_success_outcome`. -/
def successOutcome (submission : Submission) : Prop :=
  submission.status = .success → submission.stage = .finished ∧
    (submission.outcome = some .confirmedSubmitted ∨ submission.outcome = some .legacyUnverified)

/-- `ck_submissions_submitted_at_verified`. -/
def submittedAtVerified (submission : Submission) : Prop :=
  submission.submittedAt.isSome → submission.stage = .finished ∧
    submission.outcome = some .confirmedSubmitted ∧ submission.status = .success

end Submission

/-- What the schema of version 4 demands of its tables: the row checks, the unique
constraints, and at most one unfinished attempt for an application. -/
structure Content.Admitted (content : Content) : Prop where
  stage_outcome : ∀ submission ∈ content.submissions, submission.stageOutcomeConsistent
  success_outcome : ∀ submission ∈ content.submissions, submission.successOutcome
  submitted_at : ∀ submission ∈ content.submissions, submission.submittedAtVerified
  attempts : (content.submissions.map fun submission =>
    (submission.applicationId, submission.attemptNumber)).Nodup
  one_unfinished : ((content.submissions.filter fun submission =>
    submission.stage ≠ .finished).map fun submission => submission.applicationId).Nodup
  profile_versions : (content.profiles.map ProfileVersion.version).Nodup

/-- A version 4 database. -/
structure Database extends Content where
  admitted : toContent.Admitted

/-! ## Diagnoses -/

def knownPrecommitFailures : List String :=
  ["ADAPTER_NOT_QUALIFIED", "ADAPTER_ROUTE_MISMATCH", "BROWSER_UNAVAILABLE", "BUILD_MISMATCH",
    "CHALLENGE_DETECTED", "GOVERNOR_DEFERRED", "MFA_REQUIRED", "PORTAL_ADAPTER_REQUIRED",
    "PORTAL_SESSION_REQUIRED", "PORTAL_URL_INVALID", "QUEUE_ENQUEUE_FAILED",
    "REQUIRED_FIELD_UNKNOWN", "RUNTIME_NOT_READY", "SELECTED_CV_UNAVAILABLE", "SELECTOR_DRIFT",
    "SESSION_EXPIRED", "SUBMIT_PERMIT_REQUIRED"]

/-! ## Rows -/

def backfillApplication (row : LegacyApplication) : Application :=
  { row with
    revision := 1
    preparedRevision := if row.approvedAt.isSome then some 1 else none }

/-- `application_revisions.get(application_id, 1)`. -/
def applicationRevision (applications : List Application) (applicationId : ℕ) : ℕ :=
  ((applications.find? fun row => row.id = applicationId).map Application.revision).getD 1

def LegacySubmission.reasonIs (row : LegacySubmission) (reason : String) : Bool :=
  row.reasonCode == some reason

/-- The outcome and the status that an old attempt is imported with. -/
def legacyOutcome (row : LegacySubmission) : AttemptOutcome × SubmissionStatus :=
  if row.reasonIs "OPERATOR_CONFIRMED_SUBMITTED" then
    -- an operator closes the workflow, but gives no employer evidence
    (.operatorConfirmed, .unknown)
  else if row.reasonIs "RECONCILED_NOT_SUBMITTED" then
    (.failedBeforeCommit, .failed)
  else if row.status = .success then (.legacyUnverified, row.status)
  else if row.status = .draftOnly then (.draftOnly, row.status)
  else if row.status = .failed ∧ row.reasonCode.any (· ∈ knownPrecommitFailures) then
    (.failedBeforeCommit, row.status)
  else
    -- stale, unknown and ambiguous attempts must never be retried
    (.unknown, .unknown)

def LegacySubmission.reconciled (row : LegacySubmission) : Bool :=
  row.reasonIs "OPERATOR_CONFIRMED_SUBMITTED" || row.reasonIs "RECONCILED_NOT_SUBMITTED"

def backfillSubmission (applications : List Application) (row : LegacySubmission) : Submission :=
  { row with
    status := (legacyOutcome row).2
    stage := .finished
    outcome := some (legacyOutcome row).1
    applicationRevision := applicationRevision applications row.applicationId
    adapterName := some row.submitterName
    requestedCvId := row.selectedCvId
    attachmentVerified := false
    legacyReportedAt := row.submittedAt
    submittedAt := none
    finishedAt := some ((row.finishedAt.or row.submittedAt).getD row.createdAt)
    reconciliationSource := if row.reconciled then some "legacy_import" else none
    reconciliationEvidenceRef :=
      if row.reconciled then some ("legacy-submission:" ++ toString row.id) else none }

/-- The join of the applications with their jobs, on the primary key of the jobs. -/
def snapshotApplicationSubmissionState (applications : List Application) (jobs : List JobRow) :
    List LegacyState :=
  applications.filterMap fun row =>
    (jobs.find? fun job => job.id = row.jobId).map fun job =>
      { applicationId := row.id
        applicationStatus := row.status
        approvedAt := row.approvedAt
        approvalSource := row.approvalSource
        needsReviewReason := row.needsReviewReason
        updatedAt := row.updatedAt
        jobId := row.jobId
        jobStatus := job.status }

/-! ## Histories -/

/-- `ORDER BY application_id, attempt_number DESC, id DESC`. -/
def Submission.Precedes (first second : Submission) : Prop :=
  first.applicationId < second.applicationId ∨
    first.applicationId = second.applicationId ∧
      (second.attemptNumber < first.attemptNumber ∨
        second.attemptNumber = first.attemptNumber ∧ second.id ≤ first.id)

instance : DecidableRel Submission.Precedes :=
  fun _ _ => inferInstanceAs (Decidable (_ ∨ _))

instance : Std.Total Submission.Precedes where
  total first second := by
    unfold Submission.Precedes
    omega

instance : IsTrans Submission Submission.Precedes where
  trans first second third hfirst hsecond := by
    unfold Submission.Precedes at *
    omega

def attemptsByApplication (submissions : List Submission) : List (ℕ × List Submission) :=
  let rows := submissions.insertionSort Submission.Precedes
  (rows.map fun row => row.applicationId).dedup.map fun applicationId =>
    (applicationId, rows.filter fun row => row.applicationId = applicationId)

/-- The attempt that decides the state: an unknown one, else an unverified success,
else the latest. -/
def representative (history : List Submission) : Option Submission :=
  ((history.find? fun item => item.outcome = some .unknown).or
    (history.find? fun item => item.outcome = some .legacyUnverified)).or history.head?

def namesAny (versions : List ℤ) (version : Option ℤ) : Bool :=
  version.any (· ∈ versions)

def profileIdentityAmbiguous (ambiguous : List ℤ) (application : Application)
    (history : List Submission) : Bool :=
  namesAny ambiguous application.profileVersion ||
    history.any fun item => namesAny ambiguous item.profileVersion

/-- The status of the application and of its job, and the reason for a review.  An
outcome that no branch names leaves them as they are. -/
def projectedState (ambiguous : List ℤ) (application : Application)
    (history : List Submission) : Option (JobStatus × Option String) :=
  if profileIdentityAmbiguous ambiguous application history then
    some (.needsReview, some "PROFILE_VERSION_AMBIGUOUS")
  else
    (representative history).bind fun row =>
      match row.outcome with
      | some .unknown => some (.needsReview, some "STALE_INDETERMINATE")
      | some .legacyUnverified => some (.needsReview, some "LEGACY_UNVERIFIED")
      | some .operatorConfirmed => some (.submitted, none)
      | some .failedBeforeCommit =>
        -- an empty reason counts as none
        let reason := row.reasonCode.filter fun text => text ≠ ""
        some (.failed, some (reason.getD "FAILED_BEFORE_COMMIT"))
      | some .draftOnly => some (.draft, none)
      | _ => none

def Application.clearApproval (application : Application) : Application :=
  { application with approvedAt := none, approvalSource := none, preparedRevision := none }

def Application.project (application : Application)
    (state : Option (JobStatus × Option String)) : Application :=
  match state with
  | none => application.clearApproval
  | some (status, reason) =>
    { application.clearApproval with status, needsReviewReason := reason }

def JobRow.withStatus (job : JobRow) (status : JobStatus) : JobRow :=
  { job with status }

/-- The loop over the histories, on the applications. -/
def projectApplications (ambiguous : List ℤ) (histories : List (ℕ × List Submission))
    (applications : List Application) : List Application :=
  updateEach (fun row => row.id) Prod.fst
    (fun entry row => row.project (projectedState ambiguous row entry.2)) histories applications

/-- The loop over the histories, as updates of jobs.  An application that is not there
is skipped. -/
def jobWrites (ambiguous : List ℤ) (histories : List (ℕ × List Submission))
    (applications : List Application) : List (ℕ × JobStatus) :=
  histories.filterMap fun entry =>
    (applications.find? fun row => row.id = entry.1).bind fun row =>
      (projectedState ambiguous row entry.2).map fun state => (row.jobId, state.1)

def writeJobs (writes : List (ℕ × JobStatus)) (jobs : List JobRow) : List JobRow :=
  updateEach JobRow.id Prod.fst (fun write job => job.withStatus write.2) writes jobs

/-- The applications without attempts that name an ambiguous profile version. -/
def untouchedApplications (ambiguous : List ℤ) (histories : List (ℕ × List Submission))
    (applications : List Application) : List Application :=
  applications.filter fun row =>
    namesAny ambiguous row.profileVersion && decide (row.id ∉ histories.map Prod.fst)

def quarantine (row : Application) : Application :=
  row.project (some (.needsReview, some "PROFILE_VERSION_AMBIGUOUS"))

def quarantineApplications (untouched applications : List Application) : List Application :=
  updateEach (fun row => row.id) (fun row : Application => row.id) (fun _ row => quarantine row)
    untouched applications

/-- The data steps of `upgrade`. -/
def upgrade (legacy : LegacyContent) : Content :=
  let ambiguous := ambiguousProfileVersions legacy.profiles
  let applications := legacy.applications.map backfillApplication
  let submissions := legacy.submissions.map (backfillSubmission applications)
  let histories := attemptsByApplication submissions
  let projected := projectApplications ambiguous histories applications
  let untouched := untouchedApplications ambiguous histories projected
  { jobs := writeJobs (untouched.map fun row => (row.jobId, .needsReview))
      (writeJobs (jobWrites ambiguous histories applications) legacy.jobs)
    applications := quarantineApplications untouched projected
    submissions
    profiles := normalizeProfileVersions legacy.profiles
    legacyStates := snapshotApplicationSubmissionState applications legacy.jobs
    profileVersionStates := profileVersionStates legacy.profiles }

end JobApplyAgent.Migration
