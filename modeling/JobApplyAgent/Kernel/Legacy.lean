import JobApplyAgent.Kernel.OperatorSteps

/-!
# Legacy attempt writers

The v3 claim and its two quarantine functions.  They know neither permits nor
commands and decide from the coarse status alone, on the tables of the current
lifecycle.
-/

namespace JobApplyAgent.Kernel

open Domain Store Library

def reconcileManually : AttemptReason :=
  .other "Submission outcome is unknown; reconcile manually."

/-- An attempt quarantined by its status alone.  The command and the permit
stay as they are. -/
def unknownRow (attempt : Submission) (reason : AttemptReason) (now : Timestamp) :
    Submission :=
  { attempt with
    status := .unknown
    stage := .finished
    outcome := some .unknown
    reasonCode := some reason
    finishedAt := some now }

def quarantinedApplication (application : Application) : Application :=
  setApplicationStatus
    { application with needsReviewReason := some reconcileManually } .needsReview

/-- Quarantine one attempt together with its application. -/
def markAttemptUnknown (db : Db) (id : ℕ) (reason : AttemptReason)
    (now : Timestamp) : Except KernelError Db := do
  let attempt ← fetch db.submissions id
  let application ← fetch db.applications attempt.applicationId
  let flushed ← db.flushSubmission id (unknownRow attempt reason now)
  return flushed.setApplication attempt.applicationId
    (quarantinedApplication application)

/-- A command-less attempt whose status still says that it runs. -/
def legacyStale (cutoff : Timestamp) (attempt : Submission) : Bool :=
  decide (attempt.status = .pending ∨ attempt.status = .running)
    && attempt.startedAt.any (fun startedAt => decide (startedAt < cutoff))
    && attempt.command.isNone

def staleLegacyAttempts (db : Db) (cutoff : Timestamp) : List ℕ :=
  (db.submissions.zipIdx.filter fun entry => legacyStale cutoff entry.1).map Prod.snd

def staleCutoff (now : Timestamp) (staleMinutes : ℤ) : Timestamp :=
  now - staleMinutes * minute

def markStaleAttemptsUnknown (db : Db) (now : Timestamp) (staleMinutes : ℤ) :
    Except KernelError Db :=
  (staleLegacyAttempts db (staleCutoff now staleMinutes)).foldlM
    (fun stored id => markAttemptUnknown stored id (.code .staleIndeterminate) now) db

/-- A definitive legacy failure, closed in the typed lifecycle. -/
def closedRow (attempt : Submission) (now : Timestamp) : Submission :=
  { attempt with
    stage := .finished
    outcome := some
      (if attempt.status = .draftOnly then .draftOnly else .failedBeforeCommit)
    finishedAt := some (attempt.finishedAt.getD now) }

def nextAttemptNumber (db : Db) (applicationId : ℕ) : ℕ :=
  ((db.submissions.filter fun attempt => attempt.applicationId = applicationId).map
    Submission.attemptNumber).foldl max 0 + 1

def legacyAttempt (applicationId attemptNumber : ℕ) (idempotencyKey : String)
    (now : Timestamp) : Submission where
  applicationId
  attemptNumber
  idempotencyKey
  submitterName := "unresolved"
  status := .running
  stage := .inspecting
  outcome := none
  reasonCode := none
  applicationRevision := 1
  adapterName := none
  adapterVersion := none
  selectorVersion := none
  formPlanId := none
  formPlanFingerprint := none
  selectedCvId := none
  requestedCvId := none
  requestedCvHash := none
  attachedCvId := none
  attachedCvHash := none
  attachmentVerified := false
  profileVersion := none
  runnerRelease := none
  authorityKind := .explicitOperator
  automationPolicyDecisionId := none
  automationPolicyDecisionDigest := none
  qualificationCanaryAuthorizationId := none
  qualificationCanaryAuthorizationDigest := none
  startedAt := some now
  finishedAt := none
  submittedAt := none
  finalActionAt := none
  reconciledAt := none
  reconciliationNote := none
  reconciliationSource := none
  reconciliationEvidenceRef := none
  verificationKind := none
  evidenceDigest := none
  confirmationId := none
  errorMessage := none
  permit := none
  command := none
  evidence := []

/-- Insert the claimed attempt; a conflict takes the whole claim back. -/
def insertLegacyAttempt (db flushed : Db) (applicationId : ℕ)
    (idempotencyKey : String) (now : Timestamp) : Db :=
  match flushed.insertSubmission (legacyAttempt applicationId
      (nextAttemptNumber flushed applicationId) idempotencyKey now) with
  | .ok after => after
  | .error _ => db

def claimAttempt (db : Db) (applicationId : ℕ) (idempotencyKey : String)
    (now : Timestamp) : Except KernelError Db :=
  match db.applications[applicationId]? with
  | none => .ok db
  | some application =>
    if application.status ≠ .approved then .ok db
    else
      match latestAttempt db applicationId with
      | none => .ok (insertLegacyAttempt db db applicationId idempotencyKey now)
      | some (current, id) =>
        if current.status = .failed ∨ current.status = .draftOnly then do
          let flushed ← db.flushSubmission id (closedRow current now)
          return insertLegacyAttempt db flushed applicationId idempotencyKey now
        else .ok db

/-! ## What the legacy writers change -/

/-- A transaction that rewrote one attempt without the typed lifecycle. -/
inductive LegacyStep (db : Db) : Submission → Submission → Prop
  | marked {old : Submission} (reason : AttemptReason) (now : Timestamp) :
      LegacyStep db old (unknownRow old reason now)
  | closed {old : Submission} {application : Application} (now : Timestamp)
      (happlication : db.applications[old.applicationId]? = some application)
      (happroved : application.status = .approved)
      (hstatus : old.status = .failed ∨ old.status = .draftOnly) :
      LegacyStep db old (closedRow old now)

/-- Only the application of the attempt is rewritten beside it. -/
structure LegacyTransaction (before : Db) (id : ℕ) (old new : Submission) (after : Db) :
    Prop where
  row : before.submissions[id]? = some old
  step : LegacyStep before old new
  transaction : AttemptTransaction before id new after
  outbox : after.outbox = before.outbox

section Specifications

variable {id : ℕ}

theorem quarantinedApplication_carried (application : Application) :
    ApplicationCarried application (quarantinedApplication application) :=
  ⟨by simp [quarantinedApplication, setApplicationStatus],
    fun hsource => ⟨hsource, rfl, rfl⟩⟩

theorem markAttemptUnknown_eq_ok (hmark : markAttemptUnknown db id reason now = .ok after) :
    ∃ old, LegacyTransaction db id old (unknownRow old reason now) after := by
  simp only [markAttemptUnknown, bind_eq_ok, fetch_eq_ok, pure_eq_ok] at hmark
  obtain ⟨attempt, hattempt, application, happlication, flushed, hflush, rfl⟩ := hmark
  obtain ⟨rfl, hchecks, hfree⟩ := Db.flushSubmission_eq_ok hflush
  refine ⟨attempt, hattempt, .marked reason now, ⟨rfl, hchecks, hfree, ?_, ?_, ?_,
    .refl PlanCarried.refl _, ⟨rfl, rfl, rfl, rfl, rfl, rfl, rfl⟩⟩, rfl⟩
  · exact .set ApplicationCarried.refl happlication (quarantinedApplication_carried _)
  · exact .set ApplicationRevised.refl happlication (.refl application)
  · intro other hother
    exact List.getElem?_set_ne (Ne.symm hother)

/-- A claim closes at most the latest attempt of an approved application, then
adds one unfinished attempt without a command. -/
theorem claimAttempt_eq_ok (hclaim : claimAttempt db applicationId idempotencyKey now = .ok after) :
    after = db ∨ ∃ flushed number,
      (flushed = db ∨ ∃ id old, LegacyTransaction db id old (closedRow old now) flushed ∧
        old.applicationId = applicationId) ∧
      (∃ application, flushed.applications[applicationId]? = some application) ∧
      flushed.insertSubmission (legacyAttempt applicationId number idempotencyKey now) =
        .ok after := by
  have hinserted : ∀ flushed,
      after = insertLegacyAttempt db flushed applicationId idempotencyKey now →
      after = db ∨ ∃ number, flushed.insertSubmission
        (legacyAttempt applicationId number idempotencyKey now) = .ok after := by
    intro flushed hafter
    unfold insertLegacyAttempt at hafter
    split at hafter
    · next stored hinsert => exact .inr ⟨_, hafter ▸ hinsert⟩
    · exact .inl hafter
  unfold claimAttempt at hclaim
  split at hclaim
  · exact .inl (Except.ok.inj hclaim).symm
  next application happlication =>
  split at hclaim
  · exact .inl (Except.ok.inj hclaim).symm
  next happroved =>
  split at hclaim
  · rcases hinserted db (Except.ok.inj hclaim).symm with hsame | ⟨number, hinsert⟩
    · exact .inl hsame
    · exact .inr ⟨db, number, .inl rfl, ⟨application, happlication⟩, hinsert⟩
  · next current id hlatest =>
    split at hclaim
    · next hstatus =>
      simp only [bind_eq_ok, pure_eq_ok] at hclaim
      obtain ⟨flushed, hflush, hafter⟩ := hclaim
      rcases hinserted flushed hafter.symm with hsame | ⟨number, hinsert⟩
      · exact .inl hsame
      obtain ⟨rfl, hchecks, hfree⟩ := Db.flushSubmission_eq_ok hflush
      obtain ⟨hrow, howner, _⟩ := latestAttemptWhere_eq_some hlatest
      refine .inr ⟨db.setSubmission id (closedRow current now), number,
        .inr ⟨id, current, ⟨hrow, ?_, ?_, rfl⟩, howner⟩,
        ⟨application, happlication⟩, hinsert⟩
      · exact .closed now (howner ▸ happlication) (not_not.mp happroved) hstatus
      · exact ⟨rfl, hchecks, hfree, .refl ApplicationCarried.refl _,
          .refl ApplicationRevised.refl _, fun _ _ => rfl,
          .refl PlanCarried.refl _,
          ⟨rfl, rfl, rfl, rfl, rfl, rfl, rfl⟩⟩
    · exact .inl (Except.ok.inj hclaim).symm

end Specifications

end JobApplyAgent.Kernel
