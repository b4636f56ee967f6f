import JobApplyAgent.Kernel.Reviewed
import JobApplyAgent.Kernel.Runs
import JobApplyAgent.Truth.EmployerVerified

/-!
# Employer truth of the attempts

Which operations make an attempt employer-verified.  The texts of a form plan,
of a release and of an evidence digest are opaque in the tables; what their
constructors promise of them is the guard of a run.
-/

namespace JobApplyAgent.Kernel

open Domain Store Library Truth

/-! ## The attempt as the reader loads it -/

def attemptReasonText : AttemptReason → String
  | .code reason => reasonCodeValue reason
  | .employerVerified => "EMPLOYER_VERIFIED"
  | .operatorConfirmedSubmitted => "OPERATOR_CONFIRMED_SUBMITTED"
  | .reconciledNotSubmitted => "RECONCILED_NOT_SUBMITTED"
  | .safePrecommitRedelivery => "SAFE_PRECOMMIT_REDELIVERY"
  | .commandStateInvalid => "COMMAND_STATE_INVALID"
  | .other text => text

def verificationKindText : VerificationKind → String
  | .evidence kind => evidenceTypeValue kind
  | .operatorConfirmed => "operator_confirmed"

def loadedEvidence (id : ℕ) (row : EvidenceRow) : EvidenceLike where
  attemptId := id
  evidenceType := evidenceTypeValue row.evidenceType
  evidenceDigest := row.evidenceDigest
  formFingerprint := row.formFingerprint
  cvHash := row.cvHash
  observedAt := row.observedAt

/-- An attempt with its evidence, as the reader of employer truth loads it. -/
def loadedAttempt (id : ℕ) (attempt : Submission) : SubmissionLike where
  id
  status := attempt.status
  stage := attempt.stage
  outcome := attempt.outcome
  reasonCode := attempt.reasonCode.map attemptReasonText
  submittedAt := attempt.submittedAt
  finalActionAt := attempt.finalActionAt
  attachmentVerified := attempt.attachmentVerified
  formPlanId := attempt.formPlanId
  adapterName := attempt.adapterName
  adapterVersion := attempt.adapterVersion
  selectorVersion := attempt.selectorVersion
  profileVersion := attempt.profileVersion.map Int.ofNat
  runnerRelease := attempt.runnerRelease
  formPlanFingerprint := attempt.formPlanFingerprint
  requestedCvId := attempt.requestedCvId
  requestedCvHash := attempt.requestedCvHash
  attachedCvId := attempt.attachedCvId
  attachedCvHash := attempt.attachedCvHash
  verificationKind := attempt.verificationKind.map verificationKindText
  evidenceDigest := attempt.evidenceDigest
  evidence := attempt.evidence.map (loadedEvidence id)

def employerVerified (id : ℕ) (attempt : Submission) : Bool :=
  isEmployerVerified (some (loadedAttempt id attempt))

/-! ## What the constructors promise -/

def IsDigest (text : String) : Prop :=
  sha256 (some text) = true

/-- The texts of a plan that the domain contract accepts: its adapter, its
versions and its CV are named, its fingerprint and its CV hash are digests. -/
def PlanTexts (plan : FormPlan) : Prop :=
  plan.contractValid = true →
    (∀ text ∈ [plan.adapterName, plan.adapterVersion, plan.selectorVersion,
      plan.selectedCvId], hasInk text = true) ∧
    ∀ digest ∈ [plan.fingerprint, plan.selectedCvHash], IsDigest digest

/-- Plans, releases and evidence enter through their constructors. -/
def WellTyped : Action → Prop
  | .environment (.addFormPlan plan) => PlanTexts plan
  | .work _ (.commit _ (.returned (.confirmedSubmitted evidence)) _ _) =>
    IsDigest evidence.digest
  | action => ReportsOk IsDigest action

theorem WellTyped.reports (htyped : WellTyped action) :
    ReportsOk IsDigest action := by
  cases action with
  | beginAdmission | accept => exact htyped
  | _ => trivial

/-! ## The row that a confirmed report leaves behind -/

def confirmedRow (attempt : Submission) (command : SubmissionCommand)
    (evidence : SubmissionEvidence) (now : Timestamp) : Submission :=
  { attempt with
    stage := .finished
    outcome := some .confirmedSubmitted
    status := .success
    finishedAt := some now
    errorMessage := none
    evidence := attempt.evidence ++ [evidenceRow evidence]
    reasonCode := some .employerVerified
    verificationKind := some (.evidence evidence.evidenceType)
    evidenceDigest := some evidence.digest
    confirmationId := evidence.employerApplicationId
      <|> evidence.apiReceiptId
      <|> evidence.candidatePortalReference
      <|> some evidence.digest
    submittedAt := some now
    command := some (completeCommand command now (some .employerVerified)) }

variable {zone : Zone} {id : ℕ}

theorem finishAttempt_confirmed (hdb : OutboxConsistent db)
    (hfinish : finishAttempt db id attempt command (.confirmedSubmitted evidence) now =
      .ok after) :
    confirmedEvidenceIsValid id attempt evidence now = true ∧
      after.submissions = db.submissions.set id (confirmedRow attempt command evidence now) ∧
      (confirmedRow attempt command evidence now).checks = true := by
  simp only [finishAttempt, bind_eq_ok, liftState_eq_ok, fetch_eq_ok] at hfinish
  obtain ⟨_, _, status, hstatus, application, _, ⟨recorded, closed⟩, hrecord, mirrored,
    hmirrored, hflush⟩ := hfinish
  rw [projectLegacyStatus_finished, Except.ok.injEq] at hstatus
  subst hstatus
  simp only at hmirrored hflush
  obtain ⟨plans, hplans, _⟩ := invalidateDriftedPlan_carried db attempt
    (.confirmedSubmitted evidence) now
  rw [hplans] at hmirrored
  have hstored : OutboxConsistent
      (({ db with formPlans := plans } : Db).setApplication
        attempt.applicationId closed) := hdb.congr rfl
  obtain ⟨outbox, rfl, _⟩ := enqueueControlPlaneAttemptTransition_mirrored hstored hmirrored
  obtain ⟨rfl, hchecks, _⟩ := Db.flushSubmission_eq_ok hflush
  simp only [recordOutcome] at hrecord
  split at hrecord
  · next hvalid =>
    cases hrecord
    exact ⟨hvalid, rfl, hchecks⟩
  · cases hrecord

theorem settleCommit_confirmed (hdb : OutboxConsistent db)
    (hsettle : settleCommit db id attempt command (.confirmedSubmitted evidence) now =
      .ok after) :
    confirmedEvidenceIsValid id attempt evidence now = true ∧
      after.submissions = db.submissions.set id (confirmedRow attempt command evidence now) ∧
      (confirmedRow attempt command evidence now).checks = true := by
  simp only [settleCommit, bind_eq_ok] at hsettle
  obtain ⟨staged, hstaged, mirrored, hmirrored, hfinish⟩ := hsettle
  obtain ⟨_, _, rfl⟩ := setStage_eq_ok hstaged
  obtain ⟨outbox, rfl, houtbox⟩ := enqueueControlPlaneAttemptTransition_mirrored hdb hmirrored
  have hmirrored : OutboxConsistent { db with outbox } :=
    (houtbox.published hdb (rfl : ({ db with outbox } : Db).outbox = outbox)).consistent
  obtain ⟨hvalid, hrows, hchecks⟩ := finishAttempt_confirmed hmirrored hfinish
  exact ⟨hvalid, hrows, hchecks⟩

/-! ## What the reader finds in it -/

/-- The evidence row that makes an attempt employer-verified. -/
structure BoundEvidence (attempt : Submission) (row : EvidenceRow) : Prop where
  stored : row ∈ attempt.evidence
  fingerprint : attempt.formPlanFingerprint = some row.formFingerprint
  cvHash : attempt.attachedCvHash = some row.cvHash
  observed : ∃ acted submitted, attempt.finalActionAt = some acted ∧
    attempt.submittedAt = some submitted ∧ acted ≤ row.observedAt ∧
    row.observedAt ≤ submitted + 5 * second

theorem evidenceTypeValue_mem (kind : EvidenceType) :
    evidenceTypeValue kind ∈ employerEvidenceTypes := by
  cases kind <;> decide

variable {row : Submission} {move : AttemptMove} {kind : ActionKind}

theorem confirmedChecks_eq_true (hchecks : row.checks = true)
    (houtcome : row.outcome = some .confirmedSubmitted) :
    row.status = .success ∧ row.attachmentVerified = true ∧
      row.requestedCvId = row.attachedCvId ∧ row.requestedCvHash = row.attachedCvHash ∧
      ∃ submitted acted, row.submittedAt = some submitted ∧ row.finalActionAt = some acted ∧
        acted ≤ submitted := by
  simp only [Submission.checks, houtcome, Bool.and_eq_true, Bool.or_eq_true, ne_eq,
    not_true, decide_false] at hchecks
  have hconfirmed : row.confirmedChecks = true := by
    simpa using hchecks.1.1.2
  simp only [Submission.confirmedChecks, Bool.and_eq_true, decide_eq_true_eq] at hconfirmed
  obtain ⟨⟨⟨⟨⟨⟨⟨⟨⟨⟨⟨⟨⟨⟨⟨hstatus, hclock⟩, _⟩, _⟩, _⟩, _⟩, _⟩, _⟩, _⟩, hcvId⟩, _⟩,
    hattachment⟩, hcvHash⟩, _⟩, _⟩, _⟩ := hconfirmed
  refine ⟨hstatus, hattachment, hcvId, hcvHash, ?_⟩
  split at hclock
  · next submitted acted hsubmitted hacted =>
    exact ⟨submitted, acted, hsubmitted, hacted, of_decide_eq_true hclock⟩
  · cases hclock

theorem isSpace_hexDigit (hmem : char ∈ hexDigits) :
    isSpace char = false := by
  have hinked : hexDigits.all (fun digit => !isSpace digit) = true := by decide
  simpa using List.all_eq_true.mp hinked char hmem

/-- A digest is not blank and not longer than a release may be. -/
theorem IsDigest.text {text : String} (hdigest : IsDigest text) :
    hasInk text = true ∧ text.length ≤ 64 := by
  simp only [IsDigest, sha256, Option.any_some, Bool.and_eq_true, beq_iff_eq,
    List.all_eq_true, List.contains_iff_mem] at hdigest
  obtain ⟨hlength, hdigits⟩ := hdigest
  have hnonempty : text.toList ≠ [] := by
    intro hnil
    rw [← String.length_toList, hnil] at hlength
    cases hlength
  obtain ⟨char, hmem⟩ := List.exists_mem_of_ne_nil _ hnonempty
  exact ⟨hasInk_iff.mpr ⟨char, hmem, isSpace_hexDigit (hdigits char hmem)⟩,
    hlength.le⟩

/-- The table checks and the reviewed columns give every condition of the reader. -/
theorem employerVerified_confirmedRow (hplans : AllRows plans PlanTexts)
    (hreviewed : Reviewed IsDigest plans (reviewedColumns attempt))
    (hdigest : IsDigest evidence.digest)
    (hvalid : confirmedEvidenceIsValid id attempt evidence now = true)
    (hchecks : (confirmedRow attempt command evidence now).checks = true) :
    employerVerified id (confirmedRow attempt command evidence now) = true ∧
      BoundEvidence (confirmedRow attempt command evidence now) (evidenceRow evidence) := by
  obtain ⟨plan, hplan⟩ := hreviewed.plan
  obtain ⟨release, hrelease, hreleaseDigest⟩ := hreviewed.release
  obtain ⟨planId, hplanId, hstored⟩ := hplan.stored
  obtain ⟨hinks, hdigests⟩ := hplans planId plan hstored hplan.contract
  obtain ⟨version, hprofile, hversion⟩ := hplan.profileVersion
  obtain ⟨hreleaseInk, hreleaseLength⟩ := hreleaseDigest.text
  simp only [List.forall_mem_cons, List.not_mem_nil, false_imp_iff, implies_true,
    and_true] at hinks hdigests
  obtain ⟨hstatus, hattachment, hcvId, hcvHash, submitted, acted, hsubmitted, hacted,
    horder⟩ := confirmedChecks_eq_true hchecks rfl
  have hsubmittedNow : now = submitted := Option.some.inj hsubmitted
  subst hsubmittedNow
  have hactedOld : attempt.finalActionAt = some acted := hacted
  simp only [confirmedEvidenceIsValid, confirmedEvidenceIsPostAction, hactedOld,
    Bool.and_eq_true, decide_eq_true_eq] at hvalid
  obtain ⟨⟨⟨_, hfingerprint⟩, hattached⟩, hafter, hbefore⟩ := hvalid
  have hrow : evidenceRow evidence ∈ (confirmedRow attempt command evidence now).evidence := by
    simp [confirmedRow]
  refine ⟨?_, hrow, hfingerprint, hattached, acted, now, hacted, hsubmitted, hafter, hbefore⟩
  apply isEmployerVerified_iff.mpr
  refine ⟨loadedEvidence id (evidenceRow evidence), List.mem_map_of_mem hrow, ?_⟩
  refine ⟨?_, ⟨now, acted, hsubmitted, hacted, horder, hafter, hbefore⟩, rfl, rfl, hstatus,
    hattachment, ?_, ?_, ?_, ⟨release, hrelease, hreleaseLength⟩, ⟨version, ?_, ?_⟩,
    ⟨"EMPLOYER_VERIFIED", by decide, rfl⟩,
    ⟨_, evidenceTypeValue_mem evidence.evidenceType, rfl⟩, hcvId, hcvHash⟩
  · simp only [EvidenceLike.bound, Bool.and_eq_true, decide_eq_true_eq]
    exact ⟨⟨⟨⟨rfl, rfl⟩, rfl⟩, hfingerprint.symm⟩, hattached.symm⟩
  · exact Option.isSome_iff_exists.mpr ⟨planId, hplanId⟩
  · simp only [SubmissionColumns.texts, List.forall_mem_cons, List.not_mem_nil,
      false_imp_iff, implies_true, and_true]
    exact ⟨⟨_, hplan.adapterName, hinks.1⟩, ⟨_, hplan.adapterVersion, hinks.2.1⟩,
      ⟨_, hplan.selectorVersion, hinks.2.2.1⟩, ⟨_, hrelease, hreleaseInk⟩,
      ⟨_, hplan.requestedCvId, hinks.2.2.2⟩⟩
  · simp only [SubmissionColumns.digests, List.forall_mem_cons, List.not_mem_nil,
      false_imp_iff, implies_true, and_true]
    exact ⟨⟨_, rfl, hdigest⟩, ⟨_, hplan.fingerprint, hdigests.1⟩,
      ⟨_, hplan.requestedCvHash, hdigests.2⟩⟩
  · exact congrArg (Option.map Int.ofNat) hprofile
  · exact Int.ofNat_le.mpr hversion

/-! ## What other steps do to a confirmed attempt -/

/-- A confirmed attempt is verified, its command is completed, and no attempt rests
in the verifying stage. -/
structure TruthOk (id : ℕ) (row : Submission) : Prop where
  settled : row.stage ≠ .verifying
  confirmed : row.outcome = some .confirmedSubmitted →
    row.checks = true ∧ ¬MayRun row ∧ employerVerified id row = true ∧
      ∃ evidence, BoundEvidence row evidence

theorem truthOk_of_unconfirmed (hstage : row.stage ≠ .verifying)
    (houtcome : row.outcome ≠ some .confirmedSubmitted) : TruthOk id row :=
  ⟨hstage, fun hconfirmed => absurd hconfirmed houtcome⟩

/-- A confirmed attempt is not moved again, and nothing but the verification of its
report confirms an attempt. -/
theorem AttemptStep.truth (hstep : AttemptStep move old new) (hverify : move ≠ .verify)
    (hold : TruthOk id old) :
    old.outcome ≠ some .confirmedSubmitted ∧ new.outcome ≠ some .confirmedSubmitted ∧
      new.stage ≠ .verifying := by
  have hlive : ∀ {command : SubmissionCommand}, old.command = some command →
      command.state = .pending ∨ command.state = .claimed →
      old.outcome ≠ some .confirmedSubmitted := by
    intro command hcommand hstate hconfirmed
    exact (hold.confirmed hconfirmed).2.1 ⟨command, hcommand, hstate⟩
  have hunfinished : old.checks = true → old.stage ≠ .finished →
      old.outcome ≠ some .confirmedSubmitted := by
    intro hchecks hstage hconfirmed
    exact hstage ((checks_outcome hchecks).mp (by simp [hconfirmed]))
  cases hstep with
  | claim _ _ _ hcommand hstate =>
    exact ⟨hlive hcommand (.inl hstate), by simp [claimRow], by simp [claimRow]⟩
  | cancelInvalid _ hcommand hstate =>
    have hopen := hlive hcommand (.inl hstate)
    exact ⟨hopen, hopen, hold.settled⟩
  | preflight hcommand hstate | ready _ hcommand hstate =>
    exact ⟨hlive hcommand (.inr hstate), by simp [stageRow], by simp [stageRow]⟩
  | boundary _ hcommand hstate =>
    exact ⟨hlive hcommand (.inr hstate), by simp [boundaryRow], by simp [boundaryRow]⟩
  | @finish _ _ command ending _ hcommand hstate hfinished =>
    refine ⟨hlive hcommand ?_, ?_, by simp [hfinished.stage]⟩
    · rcases hstate with hclaimed | ⟨hpending, _⟩
      · exact .inr hclaimed
      · exact .inl hpending
    · rw [hfinished.outcome]
      intro hconfirmed
      have hallowed := hfinished.allowed
      rw [Option.some.inj hconfirmed] at hallowed
      have hsettled := hold.settled
      cases hstage : old.stage <;> simp_all [allowedTerminalOutcomes]
  | verify => exact absurd rfl hverify
  | requeue hcommand hstate =>
    exact ⟨hlive hcommand (.inr hstate), by simp [requeueRow], by simp [requeueRow]⟩
  | cancel reason now hstage =>
    refine ⟨fun hconfirmed => ?_, by simp [cancelRow], by simp [cancelRow]⟩
    refine hunfinished (hold.confirmed hconfirmed).1 ?_ hconfirmed
    rintro hfinished
    rw [hfinished] at hstage
    cases hstage
  | reconcile request now hreconciliable =>
    refine ⟨?_, ?_, by simp [reconciledRow]⟩
    · rintro hconfirmed
      simp [reconciliable, hconfirmed] at hreconciliable
    · cases hrequest : request.outcome <;> simp [reconciledRow, hrequest]

/-- The v3 writers cannot store a confirmed attempt as anything else. -/
theorem LegacyStep.truth (hstep : LegacyStep db old new) (hchecks : new.checks = true)
    (hold : TruthOk id old) :
    old.outcome ≠ some .confirmedSubmitted ∧ new.outcome ≠ some .confirmedSubmitted ∧
      new.stage ≠ .verifying := by
  cases hstep with
  | marked reason now =>
    refine ⟨fun hconfirmed => ?_, by simp [unknownRow], by simp [unknownRow]⟩
    obtain ⟨_, _, _, _, submitted, _, hsubmitted, _⟩ :=
      confirmedChecks_eq_true (hold.confirmed hconfirmed).1 hconfirmed
    simp [Submission.checks, unknownRow, hsubmitted] at hchecks
  | closed now _ _ hstatus =>
    refine ⟨fun hconfirmed => ?_, ?_, by simp [closedRow]⟩
    · obtain ⟨hsuccess, _⟩ :=
        confirmedChecks_eq_true (hold.confirmed hconfirmed).1 hconfirmed
      simp [hsuccess] at hstatus
    · simp only [closedRow]
      split <;> simp

def TruthsOk (db : Db) : Prop :=
  ∀ (id : ℕ) (row : Submission), db.submissions[id]? = some row → TruthOk id row

def SameConfirmed (before after : Db) : Prop :=
  ∀ (id : ℕ) (row : Submission), row.outcome = some .confirmedSubmitted →
    (after.submissions[id]? = some row ↔ before.submissions[id]? = some row)

/-- Neither row is confirmed, and the later one does not rest in verifying. -/
def Unconfirmed (old new : Submission) : Prop :=
  old.outcome ≠ some .confirmedSubmitted ∧ new.outcome ≠ some .confirmedSubmitted ∧
    new.stage ≠ .verifying

variable {before : Db}

/-- A table whose rewritten and added rows are not confirmed keeps its truth. -/
theorem TruthsOk.evolved (hold : TruthsOk before)
    (hevolved : Evolved rel fresh before.submissions after.submissions)
    (hrel : ∀ id old new, TruthOk id old → rel old new → new = old ∨ Unconfirmed old new)
    (hfresh : ∀ row, fresh row →
      row.outcome ≠ some .confirmedSubmitted ∧ row.stage ≠ .verifying) :
    TruthsOk after ∧ SameConfirmed before after := by
  constructor
  · intro id row hrow
    rcases hevolved.origin id row hrow with ⟨old, hstored, hstep⟩ | ⟨_, hnew⟩
    · rcases hrel id old row (hold id old hstored) hstep with rfl | ⟨_, houtcome, hstage⟩
      · exact hold id _ hstored
      · exact truthOk_of_unconfirmed hstage houtcome
    · obtain ⟨houtcome, hstage⟩ := hfresh row hnew
      exact truthOk_of_unconfirmed hstage houtcome
  · intro id row hconfirmed
    constructor
    · intro hrow
      rcases hevolved.origin id row hrow with ⟨old, hstored, hstep⟩ | ⟨_, hnew⟩
      · rcases hrel id old row (hold id old hstored) hstep with rfl | ⟨_, houtcome, _⟩
        · exact hstored
        · exact absurd hconfirmed houtcome
      · exact absurd hconfirmed (hfresh row hnew).1
    · intro hrow
      obtain ⟨kept, hkept, hstep⟩ := hevolved.kept id row hrow
      rcases hrel id row kept (hold id row hrow) hstep with rfl | ⟨houtcome, _⟩
      · exact hkept
      · exact absurd hconfirmed houtcome

theorem SameConfirmed.refl (db : Db) : SameConfirmed db db :=
  fun _ _ _ => Iff.rfl

theorem SameConfirmed.trans {first second : Db} (hfirst : SameConfirmed first second)
    (hsecond : SameConfirmed second third) : SameConfirmed first third :=
  fun id row hconfirmed => (hsecond id row hconfirmed).trans (hfirst id row hconfirmed)

theorem TruthsOk.moved (hold : TruthsOk before) (hverify : move ≠ .verify)
    (hmoved : Moved before id move after) :
    TruthsOk after ∧ SameConfirmed before after := by
  obtain ⟨old, new, hmoved⟩ := hmoved
  have hcarried : Carried (fun first second => second = first ∨ AttemptStep move first second)
      before.submissions after.submissions := by
    rw [hmoved.transaction.submissions]
    exact .set (fun _ => .inl rfl) hmoved.row (.inr hmoved.step)
  refine hold.evolved (hcarried.evolved fun _ => False) ?_ (fun _ hnone => hnone.elim)
  rintro id first second hfirst (hsame | hstep)
  · exact .inl hsame
  · exact .inr (hstep.truth hverify hfirst)

/-- Only a worker's step may confirm an attempt. -/
theorem TruthsOk.change (hold : TruthsOk before) (hkind : kind ≠ .work)
    (hchange : Change held kind before after) :
    TruthsOk after ∧ SameConfirmed before after := by
  refine hold.evolved hchange.submissions ?_ ?_
  · intro id old new hrow hstep
    cases hstep with
    | same => exact .inl rfl
    | @moved _ move _ _ hmove hstep =>
      refine .inr (hstep.truth ?_ hrow)
      rintro rfl
      cases kind <;> simp [ActionKind.allows] at hmove
      exact hkind rfl
    | quarantined hstep hchecks => exact .inr (hstep.truth hchecks hrow)
  · intro row hfresh
    cases hfresh with
    | admitted hrow => simp [hrow.outcome, hrow.stage]
    | inserted => simp [legacyAttempt]

theorem TruthsOk.changes (hold : TruthsOk before) (hkind : kind ≠ .work)
    (hchanges : Changes held kind before after) :
    TruthsOk after ∧ SameConfirmed before after := by
  induction hchanges with
  | refl => exact ⟨hold, .refl _⟩
  | tail _ hchange ih =>
    obtain ⟨hmiddle, hsame⟩ := ih
    obtain ⟨hlast, hsame'⟩ := hmiddle.change hkind hchange
    exact ⟨hlast, hsame.trans hsame'⟩

/-! ## The irreversible call -/

theorem commitOutcome_confirmed
    (houtcome : commitOutcome id attempt report now = .confirmedSubmitted evidence) :
    report = .returned (.confirmedSubmitted evidence) := by
  cases report with
  | raised => cases houtcome
  | returned outcome =>
    cases outcome with
    | confirmedSubmitted found =>
      simp only [commitOutcome] at houtcome
      split at houtcome
      · rw [houtcome]
      · cases houtcome
    | _ => cases houtcome

/-- What the transaction around the call does: a move that confirms nothing, or the
settlement of a confirmed report. -/
theorem commitAction_truth (hdb : OutboxConsistent db)
    (hcommit : commitAction db worker action startedAt report finishedAt survives =
      .ok result) :
    result.db = db ∨ Moved db worker.attempt .finish result.db ∨
      ∃ attempt command evidence,
        commitContext db worker.attempt worker.token = some (attempt, command) ∧
        report = .returned (.confirmedSubmitted evidence) ∧
        settleCommit db worker.attempt attempt command (.confirmedSubmitted evidence)
          finishedAt = .ok result.db := by
  unfold commitAction at hcommit
  split at hcommit
  · cases hcommit
    exact .inl rfl
  · next attempt command hcontext =>
    obtain ⟨hrow, hcommand, hclaimed, _⟩ := commitContext_eq_some hcontext
    split at hcommit
    · rcases fenced_eq_ok hcommit with rfl | ⟨after, hfinish, rfl⟩
      · exact .inl rfl
      · obtain ⟨stored, hstored, hsame⟩ := map_eq_ok.mp hfinish
        cases hsame
        exact .inr (.inl (moved_of_finish hdb hrow hcommand (.inl hclaimed) hstored))
    · split at hcommit
      · cases hcommit
        exact .inl rfl
      · split at hcommit
        · cases hcommit
          exact .inl rfl
        · next after hsettle =>
          cases hcommit
          cases houtcome : commitOutcome worker.attempt attempt report finishedAt with
          | confirmedSubmitted evidence =>
            rw [houtcome] at hsettle
            exact .inr (.inr ⟨attempt, command, evidence, hcontext,
              commitOutcome_confirmed houtcome, hsettle⟩)
          | _ =>
            rw [houtcome] at hsettle
            exact .inr (.inl
              (moved_of_finish hdb hrow hcommand (.inl hclaimed) hsettle))

theorem workerStep_commit
    (hstep : workerStep zone db worker (.commit startedAt report finishedAt survives) =
      some (.ok result)) :
    ∃ action, commitAction db worker action startedAt report finishedAt survives =
      .ok result := by
  unfold workerStep at hstep
  cases hphase : worker.phase with
  | entered action =>
    simp only [hphase, Option.some.injEq] at hstep
    exact ⟨action, hstep⟩
  | _ =>
    simp only [hphase] at hstep
    cases hstep

/-! ## Runs -/

section Runs

variable {next : LocalState}

/-- The settlement of a confirmed report by the execution at `index`. -/
structure ConfirmedBy (state : LocalState) (index : ℕ) (worker : Worker)
    (evidence : SubmissionEvidence) (finishedAt : Timestamp) (after : Db) : Prop where
  running : state.workers[index]? = some worker
  settled : ∃ attempt command,
    commitContext state.db worker.attempt worker.token = some (attempt, command) ∧
    settleCommit state.db worker.attempt attempt command (.confirmedSubmitted evidence)
      finishedAt = .ok after

theorem performWork_truth (hdb : OutboxConsistent state.db) (hold : TruthsOk state.db)
    (hwork : performWork zone state index event = .ok next) :
    (TruthsOk next.db ∧ SameConfirmed state.db next.db) ∨
      ∃ startedAt finishedAt survives worker evidence,
        event = .commit startedAt (.returned (.confirmedSubmitted evidence)) finishedAt
          survives ∧
        ConfirmedBy state index worker evidence finishedAt next.db := by
  obtain ⟨worker, result, hworker, _, hstep, rfl⟩ := performWork_step hwork
  have hmove := workerStep_eq_some hdb hstep
  have hmoved : ∀ {move : AttemptMove}, move ≠ .verify →
      Moved state.db worker.attempt move result.db →
      TruthsOk result.db ∧ SameConfirmed state.db result.db :=
    fun hverify hmoved => hold.moved hverify hmoved
  cases hmove with
  | quit | fail | preflighted => exact .inl ⟨hold, .refl _⟩
  | finished _ hfinish => exact .inl (hmoved (by decide) hfinish)
  | entered _ _ hentered => exact .inl (hmoved (by decide) hentered)
  | readied _ _ hreadied => exact .inl (hmoved (by decide) hreadied)
  | crossed _ _ hcrossed => exact .inl (hmoved (by decide) ⟨_, _, hcrossed⟩)
  | @called startedAt finishedAt report survives =>
    obtain ⟨action, hcommit⟩ := workerStep_commit hstep
    rcases commitAction_truth hdb hcommit with
      hsame | hfinish | ⟨attempt, command, evidence, hcontext, rfl, hsettle⟩
    · exact .inl ⟨hsame ▸ hold, hsame ▸ .refl _⟩
    · exact .inl (hmoved (by decide) hfinish)
    · exact .inr ⟨startedAt, finishedAt, survives, worker, evidence, rfl, hworker,
        attempt, command, hcontext, hsettle⟩

theorem PlanTexts.carried (hold : PlanTexts old)
    (hcarried : PlanCarried old new) : PlanTexts new := by
  unfold PlanCarried at hcarried
  rw [hcarried]
  exact hold

theorem planTexts_environment (htyped : WellTyped (.environment change))
    (hold : AllRows state.db.formPlans PlanTexts)
    (hchange : environmentChange state change = some after) :
    AllRows after.formPlans PlanTexts := by
  cases change with
  | writeApplication id application =>
    simp only [environmentChange] at hchange
    split at hchange
    · cases hchange
    split at hchange
    · cases hchange
    cases hchange
    exact hold
  | addApplication application =>
    simp only [environmentChange] at hchange
    split at hchange
    · cases hchange
    cases hchange
    exact hold
  | addFormPlan plan =>
    cases hchange
    exact hold.concat htyped
  | invalidateFormPlan id reason now =>
    obtain ⟨plan, hplan, rfl⟩ := Option.map_eq_some_iff.mp hchange
    exact hold.set (hold id plan hplan)
  | authorizeCanary authorization =>
    cases hchange
    exact hold

/-- What every run of well-typed actions keeps true. -/
structure GreenOk (state : LocalState) : Prop where
  store : LocalOk state
  reviewed : ReviewedOk IsDigest state
  plans : AllRows state.db.formPlans PlanTexts
  truths : TruthsOk state.db

theorem ConfirmedBy.truths (hgreen : GreenOk state)
    (hdigest : IsDigest evidence.digest)
    (hby : ConfirmedBy state index worker evidence finishedAt next.db) :
    TruthsOk next.db := by
  obtain ⟨attempt, command, hcontext, hsettle⟩ := hby.settled
  obtain ⟨hrow, hcommand, hclaimed, _⟩ := commitContext_eq_some hcontext
  obtain ⟨hvalid, hrows, hchecks⟩ :=
    settleCommit_confirmed hgreen.store.store.logs.outbox hsettle
  have hreviewed := hgreen.reviewed.attempts worker.attempt attempt hrow
    ⟨command, hcommand, .inr hclaimed⟩
  obtain ⟨hverified, hbound⟩ :=
    employerVerified_confirmedRow hgreen.plans hreviewed hdigest hvalid hchecks
  intro id row hfound
  rw [hrows] at hfound
  rcases getElem?_set_eq_some hfound with ⟨rfl, rfl⟩ | ⟨_, hfound⟩
  · refine ⟨by simp [confirmedRow], fun _ => ⟨hchecks, ?_, hverified, _, hbound⟩⟩
    rintro ⟨completed, hcompleted, hstate⟩
    cases hcompleted
    simp [completeCommand] at hstate
  · exact hgreen.truths id row hfound

theorem GreenOk.perform (hgreen : GreenOk state) (htyped : WellTyped action)
    (hperform : Kernel.perform zone state action = .ok next) :
    GreenOk next where
  store := hgreen.store.perform hperform
  reviewed := hgreen.reviewed.perform hgreen.store htyped.reports hperform
  plans := by
    have hchanges := perform_change hgreen.store.store.logs.outbox hgreen.store.admissions
      hperform
    by_cases hkind : action.kind = .environment
    · cases action with
      | environment change =>
        simp only [Kernel.perform] at hperform
        split at hperform
        · cases hperform
        next changed hchange =>
        cases hperform
        exact planTexts_environment htyped hgreen.plans hchange
      | _ => cases hkind
    · intro id plan hplan
      obtain ⟨old, hold, hcarried⟩ := (hchanges.kept hkind).plans.origin hplan
      exact (hgreen.plans id old hold).carried hcarried
  truths := by
    by_cases hkind : action.kind = .work
    · cases action with
      | load id readings now =>
        obtain ⟨worker, _, rfl⟩ := performLoad_eq_ok hperform
        exact hgreen.truths
      | work index event =>
        rcases performWork_truth hgreen.store.store.logs.outbox hgreen.truths hperform with
          ⟨htruths, _⟩ | ⟨startedAt, finishedAt, survives, worker, evidence, rfl, hby⟩
        · exact htruths
        · exact hby.truths hgreen htyped
      | _ => cases hkind
    · exact (hgreen.truths.changes hkind
        (perform_change hgreen.store.store.logs.outbox hgreen.store.admissions hperform)).1

theorem employerVerified_outcome (hverified : employerVerified id attempt = true) :
    attempt.outcome = some .confirmedSubmitted := by
  obtain ⟨_, _, hverifies⟩ := isEmployerVerified_iff.mp hverified
  exact hverifies.outcome

/-- A step leaves the confirmed rows of an attempt alone, or it settles the confirmed
report of the execution that holds this attempt. -/
theorem perform_confirmed (hgreen : GreenOk state)
    (hperform : Kernel.perform zone state action = .ok next) (id : ℕ) (row : Submission) :
    (row.outcome = some .confirmedSubmitted →
      (next.db.submissions[id]? = some row ↔ state.db.submissions[id]? = some row)) ∨
    (∀ old, state.db.submissions[id]? = some old →
      old.outcome ≠ some .confirmedSubmitted) ∧
      ∃ index worker startedAt evidence finishedAt survives,
        action = .work index (.commit startedAt
          (.returned (.confirmedSubmitted evidence)) finishedAt survives) ∧
        state.workers[index]? = some worker ∧ worker.attempt = id := by
  by_cases hkind : action.kind = .work
  · cases action with
    | load attemptId readings now =>
      obtain ⟨worker, _, rfl⟩ := performLoad_eq_ok hperform
      exact .inl fun _ => Iff.rfl
    | work index event =>
      rcases performWork_truth hgreen.store.store.logs.outbox hgreen.truths hperform with
        ⟨_, hsame⟩ | ⟨startedAt, finishedAt, survives, worker, evidence, rfl, hby⟩
      · exact .inl (hsame id row)
      · obtain ⟨attempt, command, hcontext, hsettle⟩ := hby.settled
        obtain ⟨hrow, hcommand, hclaimed, _⟩ := commitContext_eq_some hcontext
        obtain ⟨_, hrows, _⟩ :=
          settleCommit_confirmed hgreen.store.store.logs.outbox hsettle
        by_cases hid : worker.attempt = id
        · subst hid
          refine .inr ⟨?_, index, worker, startedAt, evidence, finishedAt, survives, rfl,
            hby.running, rfl⟩
          intro old hold hconfirmed
          rw [hrow, Option.some.injEq] at hold
          subst hold
          exact ((hgreen.truths _ _ hrow).confirmed hconfirmed).2.1
            ⟨command, hcommand, .inr hclaimed⟩
        · refine .inl fun _ => ?_
          rw [hrows, List.getElem?_set_ne hid]
    | _ => cases hkind
  · exact .inl ((hgreen.truths.changes hkind
      (perform_change hgreen.store.store.logs.outbox hgreen.store.admissions hperform)).2
        id row)

theorem TruthsOk.initial (hinitial : InitialState state) : TruthsOk state.db := by
  intro id row hrow
  have himported := hinitial.db.imported id row hrow
  refine truthOk_of_unconfirmed (by simp [himported.stage]) ?_
  rcases himported.outcome with ⟨hlegacy, _⟩ | ⟨outcome, houtcome, _, hconfirmed, _⟩
  · simp [hlegacy]
  · simp [houtcome, hconfirmed]

theorem GreenOk.path (hinitial : InitialState state)
    (hplans : AllRows state.db.formPlans PlanTexts)
    (hpath : (localSystem zone).Path (fun _ => WellTyped) state next) : GreenOk next := by
  induction hpath with
  | refl => exact ⟨.initial hinitial, .initial hinitial, hplans, .initial hinitial⟩
  | tail _ hnext ih =>
    obtain ⟨action, htyped, hstep⟩ := hnext
    exact ih.perform htyped hstep

/-- A stored confirmed attempt stays as it is. -/
theorem GreenOk.confirmed_kept (hgreen : GreenOk state) {later : LocalState}
    (hpath : (localSystem zone).Path (fun _ => WellTyped) state later)
    (hrow : state.db.submissions[id]? = some attempt)
    (hconfirmed : attempt.outcome = some .confirmedSubmitted) :
    GreenOk later ∧ later.db.submissions[id]? = some attempt := by
  induction hpath with
  | refl => exact ⟨hgreen, hrow⟩
  | @tail before after _ hnext ih =>
    obtain ⟨hbefore, hstored⟩ := ih
    obtain ⟨action, htyped, hstep⟩ := hnext
    refine ⟨hbefore.perform htyped hstep, ?_⟩
    rcases perform_confirmed hbefore hstep id attempt with hsame | hby
    · exact (hsame hconfirmed).mpr hstored
    · obtain ⟨hold, _⟩ := hby
      exact absurd hconfirmed (hold attempt hstored)

/-- Employer truth: an attempt that a run confirms is employer-verified, carries the
evidence that it was checked against and is not rewritten; and only the settlement of
a confirmed report makes an attempt employer-verified. -/
theorem employer_truth_needs_evidence {start : LocalState} (hinitial : InitialState start)
    (hplans : AllRows start.db.formPlans PlanTexts)
    (hrun : (localSystem zone).Path (fun _ => WellTyped) start state) :
    (∀ (id : ℕ) (attempt : Submission), state.db.submissions[id]? = some attempt →
      attempt.outcome = some .confirmedSubmitted →
      employerVerified id attempt = true ∧ (∃ row, BoundEvidence attempt row) ∧
        ∀ later, (localSystem zone).Path (fun _ => WellTyped) state later →
          later.db.submissions[id]? = some attempt) ∧
    ∀ (action : Action) (after : LocalState), perform zone state action = .ok after →
      ∀ (id : ℕ) (attempt : Submission), after.db.submissions[id]? = some attempt →
        employerVerified id attempt = true →
        state.db.submissions[id]? = some attempt ∨
          ∃ index worker startedAt evidence finishedAt survives,
            action = .work index (.commit startedAt
              (.returned (.confirmedSubmitted evidence)) finishedAt survives) ∧
            state.workers[index]? = some worker ∧ worker.attempt = id := by
  have hgreen := GreenOk.path hinitial hplans hrun
  constructor
  · intro id attempt hrow hconfirmed
    obtain ⟨_, _, hverified, hbound⟩ := (hgreen.truths id attempt hrow).confirmed hconfirmed
    exact ⟨hverified, hbound,
      fun later hpath => (hgreen.confirmed_kept hpath hrow hconfirmed).2⟩
  · intro action after hstep id attempt hrow hverified
    rcases perform_confirmed hgreen hstep id attempt with hsame | ⟨_, hby⟩
    · exact .inl ((hsame (employerVerified_outcome hverified)).mp hrow)
    · exact .inr hby

end Runs

/-! ## A confirmed sample -/

def sampleDigest : String :=
  "e3b0c44298fc1c149afbf4c8996fb92427ae41e4649b934ca495991b7852b855"

/-- The sample tables, with digests where the sample texts are not. -/
def digestDb : Db :=
  { sampleDb with
    applications := [{ sampleApplication with selectedCvHash := some sampleDigest }]
    formPlans := [
      { samplePlan with
        fingerprint := sampleDigest
        selectedCvHash := sampleDigest
        attachedCvHash := some sampleDigest }] }

def digestState : LocalState :=
  { sampleState with db := digestDb }

def digestCapabilities : Capabilities :=
  { sampleCapabilities with release := some ⟨sampleIdentity, sampleDigest, sampleDigest⟩ }

def digestAction : PreparedFinalActionV1 :=
  { sampleAction with formFingerprint := sampleDigest, attachedCvHash := sampleDigest }

def sampleEvidence : SubmissionEvidence where
  attemptId := 0
  evidenceType := .employerApplicationId
  employerApplicationId := some "application"
  apiReceiptId := none
  candidatePortalReference := none
  formFingerprint := sampleDigest
  attachedCvHash := sampleDigest
  observedAt := 5
  digest := sampleDigest

def digestRun : List Action :=
  [.beginAdmission ⟨true, 300⟩ digestCapabilities [sampleRequest] 0, .lookup 0,
    .admitItem 0 sampleAdmission, .commitAdmission 0 0,
    .claim none 1 "runner" ⟨sampleDigest, true⟩, .load 0 ⟨true, some "url", true, true⟩ 1,
    .work 0 (.enterPreflight 1), .work 0 (.preflight (.prepared digestAction)),
    .work 0 (.markReady 2),
    .work 0 (.enterBoundary
      ⟨digestAction, "url", 3, 3, sampleBoundary, sampleBoundary, true⟩),
    .work 0 (.commit 4 (.returned (.confirmedSubmitted sampleEvidence)) 6 true)]

theorem digestState_initial : InitialState digestState where
  db :=
    { sampleState_initial.db with
      applications := by
        intro key application happlication
        have hmem := List.mem_of_getElem? happlication
        simp only [digestState, digestDb, List.mem_singleton] at hmem
        subst hmem
        decide
      imported := fun _ _ hattempt => by cases hattempt }
  workers := rfl
  admissions := rfl
  commits := rfl

theorem isDigest_sampleDigest : IsDigest sampleDigest := by
  unfold IsDigest
  decide +kernel

theorem digestState_plans : AllRows digestState.db.formPlans PlanTexts := by
  intro key plan hplan _
  have hmem := List.mem_of_getElem? hplan
  simp only [digestState, digestDb, List.mem_singleton] at hmem
  subst hmem
  refine ⟨by decide, ?_⟩
  simp [isDigest_sampleDigest]

theorem employer_truth_sample :
    ∃ attempt, (endOf sampleZone digestState digestRun).db.submissions[0]? = some attempt ∧
      attempt.outcome = some .confirmedSubmitted ∧ employerVerified 0 attempt = true ∧
        ∃ row, BoundEvidence attempt row := by
  have hrun : (localSystem sampleZone).Path (fun _ => WellTyped) digestState
      (endOf sampleZone digestState digestRun) := by
    apply endOf_path
    simp [digestRun, WellTyped, ReportsOk, ReleasesOk, digestCapabilities, sampleCapabilities,
      sampleEvidence, isDigest_sampleDigest]
  obtain ⟨hverified, hbound, _⟩ :=
    (employer_truth_needs_evidence digestState_initial digestState_plans hrun).1 0 _ rfl rfl
  exact ⟨_, rfl, rfl, hverified, hbound⟩

end JobApplyAgent.Kernel
