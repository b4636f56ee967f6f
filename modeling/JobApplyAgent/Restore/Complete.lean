import JobApplyAgent.Restore.Safety
import JobApplyAgent.Kernel.ReviewedContent

/-!
# Completeness of the restore quarantine

The quarantine is complete and never makes a possible submission retryable.  It
over-reaches in two ways.  A terminal application that still carries authority
is moved to review, and a revocation whose delivery expires between two runs is
rewritten by the second one.
-/

namespace JobApplyAgent.Restore

open Domain Store Library Kernel

/-- No authority is left in the database at `now`. -/
structure WithoutAuthority (db : RestoredDb) (now : Timestamp) : Prop where
  policies : ∀ policy ∈ db.policies, policy.activeSlot = false
  inspections : ∀ run ∈ db.inspections, run.state = .finished
  attempts : ∀ attempt ∈ db.submissions, attempt.stage = .finished
  commands : ∀ attempt ∈ db.submissions, ∀ command, attempt.command = some command →
    command.state ≠ .pending ∧ command.state ≠ .claimed
  permits : ∀ attempt ∈ db.submissions, ∀ permit, attempt.permit = some permit →
    permit.consumedAt.isSome = true ∨ permit.expiresAt ≤ now
  grants : ∀ grant ∈ db.grants, grant.consumedAt.isSome = true ∨ grant.revokedAt.isSome = true
  plans : ∀ plan ∈ db.formPlans, plan.invalidatedAt.isSome = true

/-- The application is terminally skipped, operator confirmed or employer verified. -/
inductive Terminal (db : RestoredDb) (id : ℕ) (application : Application) : Prop
  | skipped (job : Job) (hjob : application.job = some job)
      (hskipped : job.terminalSkipAt.isSome = true)
  | operatorConfirmed (attempt : Submission) (hattempt : attempt ∈ db.submissions)
      (howner : attempt.applicationId = id)
      (houtcome : attempt.outcome = some .operatorConfirmed)
  | employerVerified (key : ℕ) (attempt : Submission)
      (hattempt : db.submissions[key]? = some attempt) (howner : attempt.applicationId = id)
      (hverified : employerVerified key attempt = true)

/-- What the quarantine at `now` is to achieve. -/
structure Quarantined (db : RestoredDb) (now : Timestamp) : Prop where
  complete : WithoutAuthority (quarantineRestoredRuntime db now).1 now
  attempts : ∀ (id : ℕ) (old : Submission), db.submissions[id]? = some old →
    ∃ new, (quarantineRestoredRuntime db now).1.submissions[id]? = some new ∧
      AttemptKept id old new
  terminal : ∀ (id : ℕ) (application : Application), db.applications[id]? = some application →
    Terminal db id application →
      ∃ kept, (quarantineRestoredRuntime db now).1.applications[id]? = some kept ∧
        statuses kept = statuses application
  again : ∀ later, now ≤ later →
    (quarantineRestoredRuntime (quarantineRestoredRuntime db now).1 later).1 =
      (quarantineRestoredRuntime db now).1

/-- No revocation is still to be delivered that expires after `now`. -/
def RevocationsSettled (db : RestoredDb) (now : Timestamp) : Prop :=
  ∀ grant ∈ db.grants, Undelivered grant → grant.expiresAt ≤ now

/-- A terminal application without employer proof that still carries authority is in
review already, as its job is. -/
def TerminalSettled (db : RestoredDb) (now : Timestamp) : Prop :=
  ∀ (id : ℕ) (application : Application), db.applications[id]? = some application →
    Terminal db id application → verifiedApplication db id = false → LeftOver db now id →
      application.status = .needsReview ∧
        ∀ job, application.job = some job → job.status = .needsReview

/-! ## Completeness -/

theorem activeSlot_of_inactive (hchecks : policyChecks policy = true)
    (hinactive : policyActive policy = false) : policy.activeSlot = false := by
  cases hslot : policy.activeSlot with
  | false => rfl
  | true =>
    cases hrevoked : policy.revokedAt <;>
      simp [policyActive, policyChecks, hslot, hrevoked] at hinactive hchecks

theorem activeSlot_restored (hschema : SchemaOk db) :
    ∀ policy ∈ (quarantineRestoredRuntime db now).1.policies, policy.activeSlot = false :=
  sweep_forall (fun _ _ _ => rfl)
    (fun policy hpolicy => activeSlot_of_inactive (hschema.policies policy hpolicy))

theorem grantDone_restored :
    ∀ grant ∈ (quarantineRestoredRuntime db now).1.grants,
      grant.consumedAt.isSome = true ∨ grant.revokedAt.isSome = true := by
  intro row hrow
  rw [restored_grants] at hrow
  obtain ⟨grant, _, rfl⟩ := List.mem_map.mp hrow
  by_cases hopen : Undelivered grant
  · exact .inr (hopen.restored now).2.1
  have hrevoked : ¬Undelivered (revokeGrant now grant) := hopen
  unfold restoredGrant
  split
  · right
    unfold quarantineGrant
    rw [rearm_of_not_undelivered hrevoked]
    unfold revokeGrant
    cases grant.revokedAt <;> rfl
  · next hrest =>
    rw [grantTouched_of_done hopen] at hrest
    cases hconsumed : grant.consumedAt <;> cases hstored : grant.revokedAt <;>
      simp [hconsumed, hstored] at hrest ⊢

theorem quarantine_withoutAuthority (hschema : SchemaOk db) :
    WithoutAuthority (quarantineRestoredRuntime db now).1 now := by
  refine ⟨activeSlot_restored hschema, ?_, ?_, ?_, ?_, grantDone_restored, ?_⟩
  · intro run hrun
    have hclosed := inspectionOpen_restored run hrun
    simpa [inspectionOpen] using hclosed
  · intro row hrow
    obtain ⟨key, attempt, hattempt, rfl⟩ := mem_restored_submissions hrow
    exact restoredAttempt_stage (hschema.submissions attempt (List.mem_of_getElem? hattempt))
  · intro row hrow command hcommand
    obtain ⟨key, attempt, _, rfl⟩ := mem_restored_submissions hrow
    have hinactive : commandActive (restoredAttempt now key attempt) = false :=
      commandActive_restoredAttempt
    simpa [commandActive, hcommand] using hinactive
  · intro row hrow permit hpermit
    obtain ⟨key, attempt, _, rfl⟩ := mem_restored_submissions hrow
    have hdead : permitLive now (restoredAttempt now key attempt) = false :=
      permitLive_restoredAttempt le_rfl
    simp only [permitLive, hpermit, Option.any_some, Bool.and_eq_false_iff,
      decide_eq_false_iff_not, not_lt] at hdead
    apply hdead.imp_left
    intro hconsumed
    simpa using hconsumed
  · intro plan hplan
    have hdead := planLive_restored plan hplan
    simpa [planLive] using hdead

theorem quarantine_keeps_attempts (hschema : SchemaOk db) {id : ℕ}
    (hold : db.submissions[id]? = some old) :
    ∃ new, (quarantineRestoredRuntime db now).1.submissions[id]? = some new ∧
      AttemptKept id old new := by
  rw [quarantine_submission, hold]
  exact ⟨_, rfl, restoredAttempt_kept (hschema.submissions old (List.mem_of_getElem? hold))⟩

/-- The quarantine is repeatable at every later time exactly when no delivery is left
to expire. -/
theorem quarantine_again_always_iff :
    (∀ later, now ≤ later →
      (quarantineRestoredRuntime (quarantineRestoredRuntime db now).1 later).1 =
        (quarantineRestoredRuntime db now).1) ↔ RevocationsSettled db now := by
  constructor
  · intro hagain grant hgrant hopen
    by_contra hexpires
    rw [not_le] at hexpires
    exact (quarantine_again_iff hexpires.le).mp (hagain _ hexpires.le) grant hgrant hopen
      ⟨hexpires, le_rfl⟩
  · intro hsettled later hlater
    apply (quarantine_again_iff hlater).mpr
    rintro grant hgrant hopen ⟨hexpires, _⟩
    exact absurd (hsettled grant hgrant hopen) (not_le.mpr hexpires)

/-- The quarantine is complete, safe and repeatable exactly when no revocation is left to
expire and no terminal application is left with authority. -/
theorem quarantined_iff (hschema : SchemaOk db) :
    Quarantined db now ↔ RevocationsSettled db now ∧ TerminalSettled db now := by
  constructor
  · intro hdone
    refine ⟨quarantine_again_always_iff.mp hdone.again, ?_⟩
    intro id application happlication hterminal
    exact (quarantine_keeps_statuses happlication).mp
      (hdone.terminal id application happlication hterminal)
  · rintro ⟨hrevocations, hterminal⟩
    refine ⟨quarantine_withoutAuthority hschema, ?_, ?_,
      quarantine_again_always_iff.mpr hrevocations⟩
    · intro id old hold
      exact quarantine_keeps_attempts hschema hold
    · intro id application happlication hended
      exact (quarantine_keeps_statuses happlication).mpr
        (hterminal id application happlication hended)

/-! ## Sample databases -/

def sampleRun : InspectionRun where
  applicationId := 0
  applicationRevision := 1
  policyRevisionId := 0
  state := .running
  reasonCode := none
  claimedAt := some 1
  leaseExpiresAt := some 9
  claimToken := some 0
  finishedAt := none
  createdAt := 0

/-- A grant that is neither consumed nor revoked and expires at 4. -/
def sampleGrant : RestoredGrant where
  grantRef := "grant"
  applicationId := 0
  remoteApplicationRef := "application"
  formPlanId := 0
  applicationRevision := 1
  jobUrlHash := "url"
  formPlanFingerprint := "form"
  cvHash := "cv-hash"
  adapterName := "ats"
  adapterVersion := "1"
  selectorVersion := "1"
  runnerRelease := "release"
  issuedAt := 0
  expiresAt := 4
  revokedAt := none
  consumedAt := none
  consumedCommandRef := none
  projectionState := .projected
  projectionAvailableAt := 0
  projectionClaimedAt := none
  projectionClaimToken := none
  projectedAt := some 1
  revocationState := .none
  revocationAvailableAt := none
  revocationClaimedAt := none
  revocationClaimToken := none
  revocationSentAt := none
  revocationClaimedBy := none
  lastRevocationErrorCode := none

/-- A database restored while an attempt was ready and an inspection was running. -/
def sampleRestored : RestoredDb where
  policies := []
  inspections := [sampleRun]
  formPlans := [samplePlan]
  grants := [sampleGrant]
  submissions := sampleReady.db.submissions
  applications := [sampleApplication]
  events := []

theorem sampleRestored_unfinished :
    ∀ (key other : ℕ) (first second : Submission),
      sampleReady.db.submissions[key]? = some first →
      sampleReady.db.submissions[other]? = some second → key = other := by
  have hlength : sampleReady.db.submissions.length = 1 := rfl
  intro key other first second hfirst hsecond
  obtain ⟨hkey, _⟩ := List.getElem?_eq_some_iff.mp hfirst
  obtain ⟨hother, _⟩ := List.getElem?_eq_some_iff.mp hsecond
  omega

theorem quarantined_sample : Quarantined sampleRestored 5 := by
  have hschema : SchemaOk sampleRestored :=
    ⟨by decide, by decide, by decide, by decide,
      fun key other first second hfirst hsecond _ _ _ =>
        sampleRestored_unfinished key other first second hfirst hsecond⟩
  apply (quarantined_iff hschema).mpr
  constructor
  · intro grant hgrant _
    obtain rfl := List.mem_singleton.mp hgrant
    decide
  · intro id application happlication hterminal
    have houtcome : ∀ attempt ∈ sampleRestored.submissions, attempt.outcome = none := by decide
    have hfound := List.mem_singleton.mp (List.mem_of_getElem? happlication)
    cases hterminal with
    | skipped job hjob hskipped =>
      subst hfound
      cases hjob
      cases hskipped
    | operatorConfirmed attempt hattempt _ hconfirmed =>
      rw [houtcome attempt hattempt] at hconfirmed
      cases hconfirmed
    | employerVerified key attempt hattempt _ hverified =>
      have hconfirmed := employerVerified_outcome hverified
      rw [houtcome attempt (List.mem_of_getElem? hattempt)] at hconfirmed
      cases hconfirmed

/-- A terminally skipped application with a valid plan and a grant that expires at 10. -/
def sampleSkipped : RestoredDb where
  policies := []
  inspections := []
  formPlans := [samplePlan]
  grants := [{ sampleGrant with expiresAt := 10 }]
  submissions := []
  applications := [
    { sampleApplication with
      status := .skipped
      job := some { sampleJob with status := .skipped, terminalSkipAt := some 0 } }]
  events := []

/-- The quarantine at 5 reopens the skipped application, and the one at 10 rewrites the
grant of the first. -/
theorem quarantine_reopens_skipped :
    SchemaOk sampleSkipped ∧ ¬Quarantined sampleSkipped 5 ∧
      (quarantineRestoredRuntime sampleSkipped 5).1.applications.map statuses =
        [(.needsReview, some .needsReview)] ∧
      (quarantineRestoredRuntime (quarantineRestoredRuntime sampleSkipped 5).1 10).1 ≠
        (quarantineRestoredRuntime sampleSkipped 5).1 := by
  have hmoved : (quarantineRestoredRuntime sampleSkipped 5).1.applications.map statuses =
      [(.needsReview, some .needsReview)] := by decide
  have hrewritten :
      (quarantineRestoredRuntime (quarantineRestoredRuntime sampleSkipped 5).1 10).1.grants ≠
        (quarantineRestoredRuntime sampleSkipped 5).1.grants := by decide
  refine ⟨⟨by decide, by decide, by decide, by decide, ?_⟩, ?_, hmoved,
    fun hsame => hrewritten (congrArg RestoredDb.grants hsame)⟩
  · intro key other first second hfirst
    cases hfirst
  · intro hdone
    exact hrewritten (congrArg RestoredDb.grants (hdone.again 10 (by decide)))

end JobApplyAgent.Restore
