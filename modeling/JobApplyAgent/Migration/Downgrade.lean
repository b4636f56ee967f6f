import JobApplyAgent.Migration.Truthful

/-!
# The data steps of the downgrade

The archived lifecycle columns and version numbers are written back, and each attempt
takes an old status from its outcome.  An immediate downgrade undoes the upgrade, but
for reconciled attempts that had kept their status; a later one turns every attempt in
flight into a pending one, also an attempt past its final action.
-/

namespace JobApplyAgent.Migration

open Domain Library

/-- The old status and reported time of an attempt. -/
def legacyStatus (row : Submission) : SubmissionStatus × Option Timestamp :=
  let reportedAt := row.legacyReportedAt.or row.submittedAt
  match row.outcome with
  | some .legacyUnverified => (.success, row.legacyReportedAt)
  | some .confirmedSubmitted => (.success, reportedAt)
  | some .draftOnly => (.draftOnly, reportedAt)
  | some .failedBeforeCommit => (.failed, reportedAt)
  | some .alreadyApplied | some .needsReview | some .operatorConfirmed | some .unknown =>
    (.unknown, if row.legacyReportedAt.isNone then none else reportedAt)
  | none => if row.stage ≠ .finished then (.pending, none) else (row.status, reportedAt)

/-- A restored attempt; the columns of version 4 are dropped. -/
def restoreLegacySubmission (row : Submission) : LegacySubmission :=
  { row.toLegacySubmission with
    status := (legacyStatus row).1
    submittedAt := (legacyStatus row).2 }

def LegacyState.restore (state : LegacyState) (row : Application) : Application :=
  { row with
    status := state.applicationStatus
    approvedAt := state.approvedAt
    approvalSource := state.approvalSource
    needsReviewReason := state.needsReviewReason
    updatedAt := state.updatedAt }

def restoreApplications (states : List LegacyState) (applications : List Application) :
    List Application :=
  updateEach (fun row => row.id) LegacyState.applicationId LegacyState.restore states applications

def restoreJobs (states : List LegacyState) (jobs : List JobRow) : List JobRow :=
  updateEach JobRow.id LegacyState.jobId (fun state job => job.withStatus state.jobStatus)
    states jobs

/-- The data steps of `downgrade`. -/
def downgrade (content : Content) : LegacyContent where
  jobs := restoreJobs content.legacyStates content.jobs
  applications := (restoreApplications content.legacyStates content.applications).map
    Application.toLegacyApplication
  submissions := content.submissions.map restoreLegacySubmission
  profiles := restoreLegacyProfileVersions content.profileVersionStates content.profiles

/-! ## The archive -/

section

variable (legacy : LegacyDatabase)

def LegacyDatabase.states : List LegacyState :=
  snapshotApplicationSubmissionState legacy.backfilled legacy.jobs

/-- The archive row of an application and its job. -/
def legacyState (application : LegacyApplication) (job : JobRow) : LegacyState where
  applicationId := application.id
  applicationStatus := application.status
  approvedAt := application.approvedAt
  approvalSource := application.approvalSource
  needsReviewReason := application.needsReviewReason
  updatedAt := application.updatedAt
  jobId := application.jobId
  jobStatus := job.status

theorem find_job (hjob : job ∈ legacy.jobs) :
    legacy.jobs.find? (fun other => other.id = job.id) = some job := by
  cases hfind : legacy.jobs.find? fun other => other.id = job.id with
  | none =>
    rw [List.find?_eq_none] at hfind
    exact absurd (decide_eq_true rfl) (hfind job hjob)
  | some found =>
    have hid : found.id = job.id := by simpa using List.find?_some hfind
    rw [List.inj_on_of_nodup_map legacy.jobs_id (List.mem_of_find?_eq_some hfind) hjob hid]

theorem mem_states (happlication : application ∈ legacy.applications) (hjob : job ∈ legacy.jobs)
    (hid : job.id = application.jobId) : legacyState application job ∈ legacy.states := by
  rw [LegacyDatabase.states, snapshotApplicationSubmissionState, List.mem_filterMap]
  refine ⟨backfillApplication application, List.mem_map_of_mem happlication, ?_⟩
  have hfind := find_job legacy hjob
  rw [hid] at hfind
  have hrow : (backfillApplication application).jobId = application.jobId := rfl
  rw [hrow, hfind]
  rfl

theorem map_states {β : Type*} (column : LegacyState → β) (original : LegacyApplication → β)
    (hcolumn : ∀ application job, column (legacyState application job) = original application) :
    legacy.states.map column = legacy.applications.map original := by
  rw [LegacyDatabase.states, snapshotApplicationSubmissionState, LegacyContent.backfilled,
    List.filterMap_map, List.map_filterMap, ← List.filterMap_eq_map]
  apply List.filterMap_congr
  intro application happlication
  obtain ⟨job, hjob, hid⟩ := legacy.applications_job application happlication
  have hfind := find_job legacy hjob
  rw [hid] at hfind
  have hrow : (backfillApplication application).jobId = application.jobId := rfl
  rw [Function.comp_apply, hrow, hfind, Option.map_some, Option.map_some]
  exact congrArg some (hcolumn application job)

theorem states_application_nodup :
    (legacy.states.map LegacyState.applicationId).Nodup := by
  rw [map_states legacy _ LegacyApplication.id fun _ _ => rfl]
  exact legacy.applications_id

theorem states_job_nodup : (legacy.states.map LegacyState.jobId).Nodup := by
  rw [map_states legacy _ LegacyApplication.jobId fun _ _ => rfl]
  exact legacy.applications_job_id

end

/-! ## Applications and jobs -/

/-- The columns that no data step of either direction writes. -/
def Application.identity (row : Application) : ℕ × ℕ × Option ℤ :=
  (row.id, row.jobId, row.profileVersion)

theorem Application.identity_project (row : Application)
    (state : Option (JobStatus × Option String)) :
    (row.project state).identity = row.identity := by
  cases state <;> rfl

theorem identity_upgradedRow (legacy : LegacyContent) (row : Application) :
    (legacy.upgradedRow row).identity = row.identity := by
  have hprojected : (legacy.projectedRow row).identity = row.identity := by
    apply column_rewritten Application.identity
    intro entry row
    exact row.identity_project _
  refine Eq.trans ?_ hprojected
  apply column_rewritten Application.identity
  intro other row
  exact row.identity_project _

theorem restore_toLegacyApplication {row : Application}
    (hidentity : row.identity = (backfillApplication application).identity) :
    ((legacyState application job).restore row).toLegacyApplication = application := by
  have hid : row.id = application.id := congrArg Prod.fst hidentity
  have hjob : row.jobId = application.jobId := congrArg (fun columns => columns.2.1) hidentity
  have hprofile : row.profileVersion = application.profileVersion :=
    congrArg (fun columns => columns.2.2) hidentity
  simp only [LegacyState.restore, legacyState, hid, hjob, hprofile]

theorem downgrade_applications (legacy : LegacyDatabase) :
    (downgrade (upgrade legacy.toLegacyContent)).applications = legacy.applications := by
  have hdowngrade : (downgrade (upgrade legacy.toLegacyContent)).applications =
      (restoreApplications legacy.states
        (upgrade legacy.toLegacyContent).applications).map Application.toLegacyApplication := rfl
  rw [hdowngrade, legacy.applications_upgrade, restoreApplications, updateEach_eq_map,
    LegacyContent.backfilled, List.map_map, List.map_map, List.map_map]
  conv_rhs => rw [← List.map_id legacy.applications]
  apply List.map_congr_left
  intro application happlication
  obtain ⟨job, hjob, hid⟩ := legacy.applications_job application happlication
  have hstate := mem_states legacy happlication hjob hid
  have hidentity := identity_upgradedRow legacy.toLegacyContent (backfillApplication application)
  have hrestored : rewritten (fun row : Application => row.id) LegacyState.applicationId
      LegacyState.restore legacy.states
      (legacy.upgradedRow (backfillApplication application)) =
        (legacyState application job).restore
          (legacy.upgradedRow (backfillApplication application)) := by
    refine rewritten_of_mem ?_ (states_application_nodup legacy) hstate ?_
    · intro state row
      rfl
    · exact congrArg Prod.fst hidentity
  simp only [Function.comp_apply, id, hrestored]
  exact restore_toLegacyApplication hidentity

variable {legacy : LegacyContent} {row : LegacySubmission}

theorem place_jobWrites
    (hwrite : write ∈ jobWrites legacy.ambiguous legacy.histories legacy.backfilled) :
    ∃ application ∈ legacy.applications, application.jobId = write.1 := by
  obtain ⟨entry, _, hentry⟩ := List.mem_filterMap.mp hwrite
  obtain ⟨row, hrow, hstate⟩ := Option.bind_eq_some_iff.mp hentry
  obtain ⟨state, _, rfl⟩ := Option.map_eq_some_iff.mp hstate
  obtain ⟨application, happlication, rfl⟩ := List.mem_map.mp (List.mem_of_find?_eq_some hrow)
  exact ⟨application, happlication, rfl⟩

theorem place_untouched {row : Application}
    (hrow : row ∈ untouchedApplications legacy.ambiguous legacy.histories legacy.projected) :
    ∃ application ∈ legacy.applications, application.jobId = row.jobId := by
  have hprojected := (List.mem_filter.mp hrow).1
  rw [legacy.projected_eq_map] at hprojected
  obtain ⟨old, hold, rfl⟩ := List.mem_map.mp hprojected
  obtain ⟨application, happlication, rfl⟩ := List.mem_map.mp hold
  refine ⟨application, happlication, Eq.symm ?_⟩
  apply column_rewritten fun row : Application => row.jobId
  intro entry row
  cases projectedState legacy.ambiguous row entry.2 <;> rfl

def LegacyContent.upgradedJob (legacy : LegacyContent) (job : JobRow) : JobRow :=
  rewritten JobRow.id Prod.fst (fun (write : ℕ × JobStatus) job => job.withStatus write.2)
    ((untouchedApplications legacy.ambiguous legacy.histories legacy.projected).map
      fun row => (row.jobId, .needsReview))
    (rewritten JobRow.id Prod.fst (fun (write : ℕ × JobStatus) job => job.withStatus write.2)
      (jobWrites legacy.ambiguous legacy.histories legacy.backfilled) job)

theorem jobs_upgrade (legacy : LegacyContent) :
    (upgrade legacy).jobs = legacy.jobs.map legacy.upgradedJob := by
  have hupgrade : (upgrade legacy).jobs = writeJobs
      ((untouchedApplications legacy.ambiguous legacy.histories legacy.projected).map
        fun row => (row.jobId, .needsReview))
      (writeJobs (jobWrites legacy.ambiguous legacy.histories legacy.backfilled)
        legacy.jobs) := rfl
  rw [hupgrade, writeJobs, writeJobs, updateEach_eq_map, updateEach_eq_map, List.map_map]
  rfl

theorem id_upgradedJob (legacy : LegacyContent) (job : JobRow) :
    (legacy.upgradedJob job).id = job.id := by
  refine Eq.trans (column_rewritten JobRow.id ?_ _ _) (column_rewritten JobRow.id ?_ _ _)
  · intro write job
    rfl
  · intro write job
    rfl

theorem upgradedJob_of_none
    (hnone : ¬∃ application ∈ legacy.applications, application.jobId = job.id) :
    legacy.upgradedJob job = job := by
  have hfirst : rewritten JobRow.id Prod.fst
      (fun (write : ℕ × JobStatus) job => job.withStatus write.2)
      (jobWrites legacy.ambiguous legacy.histories legacy.backfilled) job = job := by
    apply rewritten_of_forall_ne
    intro write hwrite hid
    obtain ⟨application, happlication, hplace⟩ := place_jobWrites hwrite
    exact hnone ⟨application, happlication, hplace.trans hid.symm⟩
  rw [LegacyContent.upgradedJob, hfirst]
  apply rewritten_of_forall_ne
  intro write hwrite hid
  obtain ⟨row, hrow, rfl⟩ := List.mem_map.mp hwrite
  obtain ⟨application, happlication, hplace⟩ := place_untouched hrow
  exact hnone ⟨application, happlication, hplace.trans hid.symm⟩

theorem downgrade_jobs (legacy : LegacyDatabase) :
    (downgrade (upgrade legacy.toLegacyContent)).jobs = legacy.jobs := by
  have hdowngrade : (downgrade (upgrade legacy.toLegacyContent)).jobs =
      restoreJobs legacy.states (upgrade legacy.toLegacyContent).jobs := rfl
  rw [hdowngrade, jobs_upgrade, restoreJobs, updateEach_eq_map, List.map_map]
  conv_rhs => rw [← List.map_id legacy.jobs]
  apply List.map_congr_left
  intro job hjob
  rw [Function.comp_apply, id]
  by_cases happlied : ∃ application ∈ legacy.applications, application.jobId = job.id
  · obtain ⟨application, happlication, hplace⟩ := happlied
    have hstate := mem_states legacy happlication hjob hplace.symm
    refine (rewritten_of_mem ?_ (states_job_nodup legacy) hstate ?_).trans ?_
    · intro state row
      rfl
    · exact (id_upgradedJob _ job).trans hplace.symm
    · exact congrArg (fun id => (⟨id, job.status⟩ : JobRow)) (id_upgradedJob _ job)
  · rw [upgradedJob_of_none happlied]
    apply rewritten_of_forall_ne
    intro state hstate hid
    have hplace : state.jobId ∈ legacy.states.map LegacyState.jobId :=
      List.mem_map_of_mem hstate
    rw [map_states legacy _ LegacyApplication.jobId fun _ _ => rfl] at hplace
    obtain ⟨application, happlication, hsame⟩ := List.mem_map.mp hplace
    exact happlied ⟨application, happlication, hsame.trans hid.symm⟩

/-! ## The round trip -/

namespace LegacySubmission

/-- The status of this attempt survives both directions. -/
def restorable (row : LegacySubmission) : Prop :=
  row.status = .success ∨ row.status = .draftOnly ∨
    row.status = .failed ∧ row.reasonCode.any (· ∈ knownPrecommitFailures) = true

end LegacySubmission

structure RestoredSubmission (old new : LegacySubmission) : Prop where
  id : new.id = old.id
  submitted_at : new.submittedAt = old.submittedAt
  kept : old.restorable → new.status = old.status
  closed : ¬old.restorable → new.status = .unknown ∨ new.status = .failed

/-- A downgrade at once after the upgrade undoes it. -/
structure RoundTrip (legacy after : LegacyContent) : Prop where
  applications : after.applications = legacy.applications
  jobs : after.jobs = legacy.jobs
  profiles : after.profiles = legacy.profiles
  submissions : List.Forall₂ RestoredSubmission legacy.submissions after.submissions

/-- A reconciled success or draft is imported under the reconciliation's outcome. -/
def LegacySubmission.overruled (row : LegacySubmission) : Prop :=
  (row.status = .success ∨ row.status = .draftOnly) ∧ row.reconciled = true

theorem legacyStatus_backfill_time (applications : List Application) (row : LegacySubmission) :
    (legacyStatus (backfillSubmission applications row)).2 = row.submittedAt := by
  unfold legacyStatus
  rcases legacyOutcome_cases row with hcase | hcase | hcase | hcase | hcase <;>
    cases htime : row.submittedAt <;> simp [backfillSubmission, hcase, htime]

/-- What the status of an attempt becomes on the way there and back. -/
theorem legacyStatus_backfill (applications : List Application) (row : LegacySubmission) :
    (legacyStatus (backfillSubmission applications row)).1 =
      if row.reasonIs "OPERATOR_CONFIRMED_SUBMITTED" then .unknown
      else if row.reasonIs "RECONCILED_NOT_SUBMITTED" then .failed
      else if row.status = .success then .success
      else if row.status = .draftOnly then .draftOnly
      else if row.status = .failed ∧ row.reasonCode.any (· ∈ knownPrecommitFailures) then .failed
      else .unknown := by
  unfold legacyStatus backfillSubmission legacyOutcome
  split_ifs <;> rfl

/-- A reconciliation is no known failure before commit. -/
theorem not_known_of_reconciled (hreconciled : row.reconciled = true) :
    row.reasonCode.any (· ∈ knownPrecommitFailures) = false := by
  unfold LegacySubmission.reconciled LegacySubmission.reasonIs at hreconciled
  rw [Bool.or_eq_true, beq_iff_eq, beq_iff_eq] at hreconciled
  rcases hreconciled with hreason | hreason
  · rw [hreason]
    decide
  · rw [hreason]
    decide

theorem status_of_reconciled (applications : List Application)
    (hreconciled : row.reconciled = true) :
    (legacyStatus (backfillSubmission applications row)).1 = .unknown ∨
      (legacyStatus (backfillSubmission applications row)).1 = .failed := by
  unfold LegacySubmission.reconciled at hreconciled
  rw [legacyStatus_backfill]
  cases hconfirmed : row.reasonIs "OPERATOR_CONFIRMED_SUBMITTED" with
  | true => exact .inl rfl
  | false =>
    have hrefused : row.reasonIs "RECONCILED_NOT_SUBMITTED" = true := by
      simpa [hconfirmed] using hreconciled
    rw [hrefused]
    exact .inr rfl

theorem status_of_unreconciled (applications : List Application)
    (hunreconciled : row.reconciled = false) :
    (legacyStatus (backfillSubmission applications row)).1 =
      if row.status = .success then .success
      else if row.status = .draftOnly then .draftOnly
      else if row.status = .failed ∧ row.reasonCode.any (· ∈ knownPrecommitFailures) then .failed
      else .unknown := by
  unfold LegacySubmission.reconciled at hunreconciled
  obtain ⟨hconfirmed, hrefused⟩ := Bool.or_eq_false_iff.mp hunreconciled
  rw [legacyStatus_backfill, hconfirmed, hrefused]
  rfl

theorem restoredSubmission_iff (applications : List Application) (row : LegacySubmission) :
    RestoredSubmission row (restoreLegacySubmission (backfillSubmission applications row)) ↔
      ¬row.overruled := by
  cases hreconciled : row.reconciled with
  | true =>
    have hstatus := status_of_reconciled applications hreconciled
    have hknown := not_known_of_reconciled hreconciled
    constructor
    · rintro hrestored ⟨hkept, _⟩
      have hsame := hrestored.kept (hkept.imp_right .inl)
      rw [restoreLegacySubmission] at hsame
      simp only at hsame
      rw [hsame] at hstatus
      rcases hkept with hcase | hcase <;> simp [hcase] at hstatus
    · intro hkept
      refine ⟨rfl, legacyStatus_backfill_time applications row, ?_, fun _ => hstatus⟩
      rintro (hcase | hcase | ⟨_, hcase⟩)
      · exact absurd ⟨.inl hcase, hreconciled⟩ hkept
      · exact absurd ⟨.inr hcase, hreconciled⟩ hkept
      · rw [hknown] at hcase
        cases hcase
  | false =>
    apply iff_of_true
    · have hstatus := status_of_unreconciled applications hreconciled
      refine ⟨rfl, legacyStatus_backfill_time applications row, ?_, ?_⟩
      · rintro (hcase | hcase | hcase)
        · exact hstatus.trans (by simp [hcase])
        · exact hstatus.trans (by simp [hcase])
        · exact hstatus.trans (by rw [if_neg (by simp [hcase.1]), if_neg (by simp [hcase.1]),
            if_pos hcase, hcase.1])
      · intro hrest
        unfold LegacySubmission.restorable at hrest
        rw [not_or, not_or] at hrest
        rw [if_neg hrest.1, if_neg hrest.2.1, if_neg hrest.2.2] at hstatus
        exact .inl hstatus
    · rintro ⟨_, hoverruled⟩
      rw [hreconciled] at hoverruled
      cases hoverruled

theorem roundTrip_iff (legacy : LegacyDatabase) :
    RoundTrip legacy.toLegacyContent (downgrade (upgrade legacy.toLegacyContent)) ↔
      ∀ row ∈ legacy.submissions, ¬row.overruled := by
  have hsubmissions : (downgrade (upgrade legacy.toLegacyContent)).submissions =
      legacy.submissions.map fun row =>
        restoreLegacySubmission (backfillSubmission legacy.backfilled row) := by
    apply List.map_map
  have hrows : List.Forall₂ RestoredSubmission legacy.submissions
      (downgrade (upgrade legacy.toLegacyContent)).submissions ↔
        ∀ row ∈ legacy.submissions, ¬row.overruled := by
    rw [hsubmissions, List.forall₂_map_right_iff, List.forall₂_same]
    apply forall₂_congr
    intro row _
    exact restoredSubmission_iff legacy.backfilled row
  constructor
  · intro htrip
    exact hrows.mp htrip.submissions
  · intro hkept
    exact ⟨downgrade_applications legacy, downgrade_jobs legacy,
      restore_normalizeProfileVersions legacy.profiles_id, hrows.mpr hkept⟩

/-! ## Attempts past their final action -/

/-- The final action of this attempt may have been sent. -/
def Submission.maybeSent (row : Submission) : Prop :=
  row.stage = .committing ∨ row.stage = .verifying ∨
    ∃ outcome, row.outcome = some outcome ∧
      (outcome = .unknown ∨ outcome = .operatorConfirmed ∨ outcome = .alreadyApplied ∨
        outcome = .needsReview ∨ outcome = .legacyUnverified ∨ outcome = .confirmedSubmitted)

/-- The old schema shows this attempt as over, and not as one to be made again. -/
def LegacySubmission.disarmed (row : LegacySubmission) : Prop :=
  row.status = .success ∨ row.status = .unknown

/-- No attempt that may have been sent comes back as one to be made again. -/
def NeverRearms (content : Content) (after : LegacyContent) : Prop :=
  List.Forall₂ (fun row restored => row.maybeSent → restored.disarmed)
    content.submissions after.submissions

/-- This attempt has crossed the ambiguity boundary and has no outcome yet. -/
def Submission.inFlight (row : Submission) : Prop :=
  row.stage = .committing ∨ row.stage = .verifying

theorem disarmed_iff {row : Submission} (hconsistent : row.stageOutcomeConsistent) :
    (row.maybeSent → (restoreLegacySubmission row).disarmed) ↔ ¬row.inFlight := by
  unfold Submission.stageOutcomeConsistent at hconsistent
  constructor
  · intro hdisarmed hflight
    have hunfinished : row.stage ≠ .finished := by
      rcases hflight with hstage | hstage <;> simp [hstage]
    have hopen : row.outcome = none := by
      simpa [hunfinished] using hconsistent
    have hpending : (restoreLegacySubmission row).status = .pending := by
      simp [restoreLegacySubmission, legacyStatus, hopen, hunfinished]
    have hstatus := hdisarmed (hflight.imp_right .inl)
    simp [LegacySubmission.disarmed, hpending] at hstatus
  · rintro hlanded (hstage | hstage | ⟨outcome, houtcome, hcase⟩)
    · exact absurd (.inl hstage) hlanded
    · exact absurd (.inr hstage) hlanded
    · unfold LegacySubmission.disarmed restoreLegacySubmission legacyStatus
      rcases hcase with rfl | rfl | rfl | rfl | rfl | rfl <;> simp [houtcome]

theorem neverRearms_iff (database : Database) :
    NeverRearms database.toContent (downgrade database.toContent) ↔
      ∀ row ∈ database.submissions, ¬row.inFlight := by
  have hrestored : (downgrade database.toContent).submissions =
      database.submissions.map restoreLegacySubmission := rfl
  rw [NeverRearms, hrestored, List.forall₂_map_right_iff, List.forall₂_same]
  apply forall₂_congr
  intro row hrow
  exact disarmed_iff (database.admitted.stage_outcome row hrow)

/-- The upgraded tables, with a third attempt that has crossed its final action. -/
def committingAttempt : Submission where
  id := 3
  applicationId := 1
  attemptNumber := 3
  submitterName := "greenhouse"
  status := .running
  reasonCode := none
  selectedCvId := none
  profileVersion := none
  submittedAt := none
  createdAt := 30
  finishedAt := none
  stage := .committing
  outcome := none
  applicationRevision := 2
  adapterName := some "greenhouse"
  requestedCvId := none
  attachmentVerified := true
  legacyReportedAt := none
  reconciliationSource := none
  reconciliationEvidenceRef := none

def committingDatabase : Database where
  toContent :=
    let upgraded := upgrade confirmedThenFailed.toLegacyContent
    { upgraded with submissions := upgraded.submissions ++ [committingAttempt] }
  admitted := {
    stage_outcome := by simp only [Submission.stageOutcomeConsistent]; decide
    success_outcome := by simp only [Submission.successOutcome]; decide
    submitted_at := by simp only [Submission.submittedAtVerified]; decide
    attempts := by decide
    one_unfinished := by decide
    profile_versions := by decide }

end JobApplyAgent.Migration
