import JobApplyAgent.Restore.Quarantine

/-!
# Safety of the restore quarantine

What the quarantine leaves behind, row by row: no authority is left, no attempt
that may have submitted becomes retryable, and a second quarantine finds nothing
to do unless the delivery of a revocation has expired since the first.
-/

namespace JobApplyAgent.Restore

open Domain Store Library Kernel

variable {later : Timestamp} {id : ℕ}

/-! ## The schema -/

/-- `ck_automation_policy_revisions_revocation`. -/
def policyChecks (policy : RestoredPolicy) : Bool :=
  (policy.revokedAt.isNone && policy.revokedBy.isNone && policy.revocationReason.isNone
      && policy.activeSlot)
    || (policy.revokedAt.isSome && policy.revokedBy.isSome && policy.revocationReason.isSome
      && !policy.activeSlot)

/-- The consumption and revocation constraints of `control_plane_review_grants`. -/
def grantChecks (grant : RestoredGrant) : Bool :=
  let unclaimed := grant.revocationClaimedAt.isNone && grant.revocationClaimedBy.isNone
    && grant.revocationClaimToken.isNone
  decide (grant.consumedAt.isSome = grant.consumedCommandRef.isSome)
    && match grant.revocationState with
      | .none => grant.revocationAvailableAt.isNone && unclaimed
          && grant.revocationSentAt.isNone
      | .pending | .expired => grant.revocationAvailableAt.isSome && unclaimed
          && grant.revocationSentAt.isNone
      | .claimed => grant.revocationAvailableAt.isSome && grant.revocationClaimedAt.isSome
          && grant.revocationClaimedBy.isSome && grant.revocationClaimToken.isSome
          && grant.revocationSentAt.isNone
      | .delivered => grant.revocationAvailableAt.isSome && unclaimed
          && grant.revocationSentAt.isSome

/-- The table constraints of the restored database. -/
structure SchemaOk (db : RestoredDb) : Prop where
  policies : ∀ policy ∈ db.policies, policyChecks policy = true
  inspections : ∀ run ∈ db.inspections, run.checks = true
  grants : ∀ grant ∈ db.grants, grantChecks grant = true
  submissions : ∀ attempt ∈ db.submissions, attempt.checks = true
  unfinished : ∀ (key other : ℕ) (first second : Submission),
    db.submissions[key]? = some first → db.submissions[other]? = some second →
    first.applicationId = second.applicationId → first.stage ≠ .finished →
    second.stage ≠ .finished → key = other

/-! ## Attempts -/

theorem hasEmployerVerifiedEvidence_outcome
    (hverified : hasEmployerVerifiedEvidence id attempt = true) :
    attempt.outcome = some .confirmedSubmitted := by
  simp only [hasEmployerVerifiedEvidence, Bool.or_eq_true, Bool.and_eq_true,
    decide_eq_true_eq] at hverified
  rcases hverified with hverified | ⟨houtcome, _⟩
  · exact employerVerified_outcome hverified
  · exact houtcome

theorem stage_of_closed (hchecks : attempt.checks = true)
    (hclosed : attemptOpen id attempt = false) : attempt.stage = .finished := by
  simp only [attemptOpen, Bool.and_eq_false_iff, Bool.not_eq_false', decide_eq_false_iff_not,
    not_not] at hclosed
  rcases hclosed with hverified | hstage
  · apply (checks_outcome hchecks).mp
    rw [hasEmployerVerifiedEvidence_outcome hverified]
    rfl
  · exact hstage

/-- The attempt after the sweeps of its permit and its command. -/
def withoutAuthority (now : Timestamp) (attempt : Submission) : Submission :=
  let expired := if permitLive now attempt then expirePermit now attempt else attempt
  if commandActive expired then cancelAttemptCommand now expired else expired

def restoredAttempt (now : Timestamp) (id : ℕ) (attempt : Submission) : Submission :=
  quarantineAttempt now id (withoutAuthority now attempt)

theorem quarantine_submission :
    (quarantineRestoredRuntime db now).1.submissions[id]? =
      (db.submissions[id]?).map (restoredAttempt now id) := by
  simp only [quarantineRestoredRuntime, List.getElem?_mapIdx, sweep, List.getElem?_map,
    Option.map_map]
  rfl

theorem withoutAuthority_eq (now : Timestamp) (attempt : Submission) :
    withoutAuthority now attempt =
      { attempt with
        permit := (withoutAuthority now attempt).permit
        command := (withoutAuthority now attempt).command } := by
  unfold withoutAuthority
  simp only
  split <;> split <;> rfl

theorem attemptOpen_withoutAuthority :
    attemptOpen id (withoutAuthority now attempt) = attemptOpen id attempt := by
  rw [withoutAuthority_eq]
  rfl

theorem restoredAttempt_permit :
    (restoredAttempt now id attempt).permit = (withoutAuthority now attempt).permit := by
  unfold restoredAttempt quarantineAttempt
  split <;> rfl

theorem restoredAttempt_command :
    (restoredAttempt now id attempt).command = (withoutAuthority now attempt).command := by
  unfold restoredAttempt quarantineAttempt
  split <;> rfl

theorem restoredAttempt_of_closed (hclosed : attemptOpen id attempt = false) :
    restoredAttempt now id attempt =
      { attempt with
        permit := (restoredAttempt now id attempt).permit
        command := (restoredAttempt now id attempt).command } := by
  rw [restoredAttempt_permit, restoredAttempt_command]
  unfold restoredAttempt quarantineAttempt
  rw [attemptOpen_withoutAuthority, hclosed, if_neg (by decide)]
  exact withoutAuthority_eq now attempt

theorem restoredAttempt_of_open (hopen : attemptOpen id attempt = true) :
    restoredAttempt now id attempt = finishRestored now (withoutAuthority now attempt) := by
  unfold restoredAttempt quarantineAttempt
  rw [attemptOpen_withoutAuthority, hopen, if_pos rfl]

theorem restoredAttempt_stage (hchecks : attempt.checks = true) :
    (restoredAttempt now id attempt).stage = .finished := by
  cases hopen : attemptOpen id attempt with
  | true =>
    rw [restoredAttempt_of_open hopen]
    rfl
  | false =>
    have hstage := stage_of_closed hchecks hopen
    rw [restoredAttempt_of_closed hopen]
    exact hstage

theorem withoutAuthority_permit :
    (withoutAuthority now attempt).permit =
      (if permitLive now attempt then expirePermit now attempt else attempt).permit := by
  unfold withoutAuthority
  simp only
  generalize (if permitLive now attempt then expirePermit now attempt else attempt) = expired
  split <;> rfl

theorem commandActive_withoutAuthority :
    commandActive (withoutAuthority now attempt) = false := by
  unfold withoutAuthority
  simp only
  generalize (if permitLive now attempt then expirePermit now attempt else attempt) = expired
  split
  · cases hcommand : expired.command with
    | none => simp [commandActive, cancelAttemptCommand, hcommand]
    | some command => simp [commandActive, cancelAttemptCommand, hcommand, cancelCommand]
  · next hactive => simpa using hactive

theorem permitLive_restoredAttempt (hlater : now ≤ later) :
    permitLive later (restoredAttempt now id attempt) = false := by
  unfold permitLive
  rw [restoredAttempt_permit, withoutAuthority_permit]
  cases hstored : attempt.permit with
  | none => cases hlive : permitLive now attempt <;> simp [expirePermit, hstored]
  | some permit =>
    cases hlive : permitLive now attempt with
    | true =>
      rw [if_pos rfl]
      simp only [expirePermit, hstored, Option.map_some, Option.any_some,
        Bool.and_eq_false_iff, decide_eq_false_iff_not, not_lt]
      exact .inr hlater
    | false =>
      rw [if_neg (by decide), hstored]
      simp only [permitLive, hstored, Option.any_some, Bool.and_eq_false_iff,
        decide_eq_false_iff_not, not_lt] at hlive ⊢
      exact hlive.imp_right fun hexpired => hexpired.trans hlater

theorem commandActive_restoredAttempt :
    commandActive (restoredAttempt now id attempt) = false := by
  unfold commandActive
  rw [restoredAttempt_command]
  exact commandActive_withoutAuthority

theorem attemptOpen_restoredAttempt :
    attemptOpen id (restoredAttempt now id attempt) = false := by
  cases hopen : attemptOpen id attempt with
  | true =>
    rw [restoredAttempt_of_open hopen]
    simp [attemptOpen, finishRestored]
  | false =>
    rw [restoredAttempt_of_closed hopen]
    exact hopen

/-! ## What an attempt keeps -/

/-- Only a definite failure before the boundary or a draft may be retried. -/
def definitivelyRetryable (attempt : Submission) : Bool :=
  decide (attempt.outcome = some .failedBeforeCommit ∨ attempt.outcome = some .draftOnly)

/-- The attempt is past its commit boundary: its action may have happened, and its
outcome does not settle that it failed before the commit. -/
def pastBoundary (attempt : Submission) : Bool :=
  actionIndeterminate attempt && !definitivelyRetryable attempt

/-- What the quarantine leaves of an attempt. -/
structure AttemptKept (id : ℕ) (old new : Submission) : Prop where
  verified : employerVerified id old = true → employerVerified id new = true
  unretryable : pastBoundary old = true ∨ employerVerified id old = true →
    definitivelyRetryable new = false
  outcome : actionIndeterminate old = true ∨ employerVerified id old = true →
    new.outcome = old.outcome ∨ old.outcome = none ∧ new.outcome = some .unknown
  finished : old.stage = .finished → new = { old with permit := new.permit, command := new.command }

theorem actionIndeterminate_withoutAuthority :
    actionIndeterminate (withoutAuthority now attempt) = actionIndeterminate attempt := by
  have hconsumed : (withoutAuthority now attempt).permitConsumed = attempt.permitConsumed := by
    unfold Submission.permitConsumed
    rw [withoutAuthority_permit]
    split
    · cases hpermit : attempt.permit <;> simp [expirePermit, hpermit]
    · rfl
  unfold actionIndeterminate
  rw [hconsumed, withoutAuthority_eq]

theorem restoredAttempt_kept (hchecks : attempt.checks = true) :
    AttemptKept id attempt (restoredAttempt now id attempt) := by
  have hoffice : employerVerified id attempt = true → attempt.stage = .finished := by
    intro hverified
    apply (checks_outcome hchecks).mp
    rw [employerVerified_outcome hverified]
    rfl
  cases hopen : attemptOpen id attempt with
  | false =>
    rw [restoredAttempt_of_closed hopen]
    refine ⟨fun hverified => hverified, ?_, fun _ => .inl rfl, fun _ => rfl⟩
    rintro (hpast | hverified)
    · simp only [pastBoundary, Bool.and_eq_true, Bool.not_eq_true'] at hpast
      exact hpast.2
    · unfold definitivelyRetryable
      simp [employerVerified_outcome hverified]
  | true =>
    have hunfinished : attempt.stage ≠ .finished := by
      simp only [attemptOpen, Bool.and_eq_true, decide_eq_true_eq] at hopen
      exact hopen.2
    have hnone : attempt.outcome = none := by
      rw [← Option.not_isSome_iff_eq_none, checks_outcome hchecks]
      exact hunfinished
    have hcrossed : actionIndeterminate attempt = true ∨ employerVerified id attempt = true →
        (restoredAttempt now id attempt).outcome = some .unknown := by
      rintro (hpast | hverified)
      · rw [restoredAttempt_of_open hopen]
        simp [finishRestored, attemptIndeterminate, actionIndeterminate_withoutAuthority, hpast]
      · exact absurd (hoffice hverified) hunfinished
    refine ⟨fun hverified => absurd (hoffice hverified) hunfinished, ?_, ?_,
      fun hstage => absurd hstage hunfinished⟩
    · intro hkept
      have hold : actionIndeterminate attempt = true ∨ employerVerified id attempt = true := by
        apply hkept.imp_left
        intro hpast
        simp only [pastBoundary, Bool.and_eq_true] at hpast
        exact hpast.1
      unfold definitivelyRetryable
      simp [hcrossed hold]
    · intro hkept
      exact .inr ⟨hnone, hcrossed hkept⟩

/-! ## Review grants -/

/-- The delivery of the revocation is armed as it should be at `now`. -/
structure Armed (now : Timestamp) (grant : RestoredGrant) : Prop where
  state : grant.revocationState = desiredState now grant
  available : grant.revocationAvailableAt.isSome = true
  claimedAt : grant.revocationClaimedAt = none
  claimedBy : grant.revocationClaimedBy = none
  claimToken : grant.revocationClaimToken = none
  sentAt : grant.revocationSentAt = none

/-- The grant is neither consumed nor is its revocation delivered. -/
def Undelivered (grant : RestoredGrant) : Prop :=
  grant.consumedAt = none ∧ grant.revocationState ≠ .delivered

theorem revocationChanged_eq_false_iff :
    revocationChanged now grant = false ↔ Armed now grant := by
  have havailable : grant.revocationAvailableAt = some (desiredAvailableAt now grant) ↔
      grant.revocationAvailableAt.isSome = true := by
    unfold desiredAvailableAt
    cases grant.revocationAvailableAt <;> simp
  simp only [revocationChanged, Bool.or_eq_false_iff, decide_eq_false_iff_not, ne_eq, not_not,
    havailable, Option.isSome_eq_false_iff, Option.isNone_iff_eq_none]
  constructor
  · rintro ⟨⟨⟨⟨⟨hstate, hisSome⟩, hclaimedAt⟩, hclaimedBy⟩, htoken⟩, hsent⟩
    exact ⟨hstate, hisSome, hclaimedAt, hclaimedBy, htoken, hsent⟩
  · intro harmed
    exact ⟨⟨⟨⟨⟨harmed.state, harmed.available⟩, harmed.claimedAt⟩, harmed.claimedBy⟩,
      harmed.claimToken⟩, harmed.sentAt⟩

theorem rearm_of_undelivered (hopen : Undelivered grant) :
    rearmReviewGrantRevocation now grant =
      if revocationChanged now grant then (armRevocation now grant, true)
      else (grant, false) := by
  unfold rearmReviewGrantRevocation
  rw [if_neg]
  simp [hopen.1, hopen.2]

theorem rearm_of_not_undelivered (hdone : ¬Undelivered grant) :
    rearmReviewGrantRevocation now grant = (grant, false) := by
  unfold rearmReviewGrantRevocation
  rw [if_pos]
  rw [Undelivered, not_and_or, not_not, ← ne_eq, Option.ne_none_iff_isSome] at hdone
  exact hdone

/-- The grant after its sweep. -/
def restoredGrant (now : Timestamp) (grant : RestoredGrant) : RestoredGrant :=
  if grantTouched now grant then quarantineGrant now grant else grant

/-- The sweep leaves every undelivered grant revoked and armed. -/
theorem Undelivered.restored (hopen : Undelivered grant) (now : Timestamp) :
    Armed now (restoredGrant now grant) ∧
      (restoredGrant now grant).revokedAt.isSome = true ∧
      (restoredGrant now grant).expiresAt = grant.expiresAt ∧
      (restoredGrant now grant).consumedAt = none := by
  have hrevoked : Undelivered (revokeGrant now grant) := hopen
  have hisSome : (revokeGrant now grant).revokedAt.isSome = true := by
    unfold revokeGrant
    cases grant.revokedAt <;> rfl
  unfold restoredGrant grantTouched quarantineGrant
  rw [rearm_of_undelivered hrevoked]
  cases hchanged : revocationChanged now (revokeGrant now grant) with
  | true =>
    simp only [hopen.1, if_true, Option.isNone_none, Bool.or_true, Bool.and_true]
    exact ⟨⟨rfl, rfl, rfl, rfl, rfl, rfl⟩, hisSome, rfl, hopen.1⟩
  | false =>
    have harmed := revocationChanged_eq_false_iff.mp hchanged
    simp only [hopen.1, Option.isNone_none, Bool.or_false, Bool.true_and,
      Bool.false_eq_true, if_false]
    split
    · exact ⟨harmed, hisSome, rfl, hopen.1⟩
    next hrest =>
    refine ⟨⟨harmed.state, harmed.available, harmed.claimedAt, harmed.claimedBy,
      harmed.claimToken, harmed.sentAt⟩, ?_, rfl, hopen.1⟩
    rw [Option.isSome_iff_ne_none]
    simpa using hrest

theorem desiredState_ne_delivered : desiredState now grant ≠ .delivered := by
  unfold desiredState
  split <;> decide

theorem undelivered_restoredGrant (hopen : Undelivered grant) :
    Undelivered (restoredGrant now grant) := by
  obtain ⟨harmed, _, _, hconsumed⟩ := hopen.restored now
  refine ⟨hconsumed, ?_⟩
  rw [harmed.state]
  exact desiredState_ne_delivered

theorem quarantineGrant_state (hopen : Undelivered grant) :
    (quarantineGrant now grant).revocationState = desiredState now grant := by
  have hrevoked : Undelivered (revokeGrant now grant) := hopen
  unfold quarantineGrant
  rw [rearm_of_undelivered hrevoked]
  split
  · rfl
  next hsame =>
  rw [Bool.not_eq_true, revocationChanged_eq_false_iff] at hsame
  exact hsame.state

theorem desiredState_ne_iff (hlater : now ≤ later) :
    desiredState now grant ≠ desiredState later grant ↔
      now < grant.expiresAt ∧ grant.expiresAt ≤ later := by
  unfold desiredState
  by_cases hnow : grant.expiresAt ≤ now
  · have hlate : grant.expiresAt ≤ later := hnow.trans hlater
    simp [hnow, hlate]
  · by_cases hlate : grant.expiresAt ≤ later
    · simp [hnow, hlate, not_le.mp hnow]
    · simp [hnow, hlate]

/-- A grant whose revocation is delivered, or that is consumed, is at most revoked. -/
theorem grantTouched_of_done (hdone : ¬Undelivered grant) :
    grantTouched now grant = (grant.consumedAt.isNone && grant.revokedAt.isNone) := by
  have hrevoked : ¬Undelivered (revokeGrant now grant) := hdone
  unfold grantTouched
  rw [rearm_of_not_undelivered hrevoked, Bool.or_false]

/-- A later sweep touches a grant again exactly when its delivery has expired since. -/
theorem grantTouched_restoredGrant (hlater : now ≤ later) :
    grantTouched later (restoredGrant now grant) = true ↔
      Undelivered grant ∧ now < grant.expiresAt ∧ grant.expiresAt ≤ later := by
  by_cases hopen : Undelivered grant
  · obtain ⟨harmed, hrevoked, hexpires, hconsumed⟩ := hopen.restored now
    have hundelivered : Undelivered (revokeGrant later (restoredGrant now grant)) :=
      undelivered_restoredGrant hopen
    have hnotNone : (restoredGrant now grant).revokedAt.isNone = false := by
      simpa [Option.isSome_iff_ne_none] using hrevoked
    have hchanged : revocationChanged later (revokeGrant later (restoredGrant now grant)) = true ↔
        desiredState now (restoredGrant now grant) ≠
          desiredState later (restoredGrant now grant) := by
      rw [← not_iff_not, Bool.not_eq_true, revocationChanged_eq_false_iff, not_not]
      constructor
      · intro hlate
        exact harmed.state.symm.trans hlate.state
      · intro hsame
        exact ⟨harmed.state.trans hsame, harmed.available, harmed.claimedAt, harmed.claimedBy,
          harmed.claimToken, harmed.sentAt⟩
    have htouched : grantTouched later (restoredGrant now grant) =
        revocationChanged later (revokeGrant later (restoredGrant now grant)) := by
      unfold grantTouched
      rw [rearm_of_undelivered hundelivered, hconsumed, hnotNone]
      cases revocationChanged later (revokeGrant later (restoredGrant now grant)) <;> rfl
    rw [htouched, hchanged, desiredState_ne_iff hlater, hexpires]
    simp [hopen]
  · have hdone : ¬Undelivered (restoredGrant now grant) ∧
        ((restoredGrant now grant).consumedAt.isNone &&
          (restoredGrant now grant).revokedAt.isNone) = false := by
      unfold restoredGrant
      split
      · have hrevoked : ¬Undelivered (revokeGrant now grant) := hopen
        unfold quarantineGrant
        rw [rearm_of_not_undelivered hrevoked]
        refine ⟨hrevoked, ?_⟩
        unfold revokeGrant
        cases grant.revokedAt <;> simp
      · next hrest =>
        rw [grantTouched_of_done hopen, Bool.not_eq_true] at hrest
        exact ⟨hopen, hrest⟩
    rw [grantTouched_of_done hdone.1, hdone.2]
    simp [hopen]

theorem quarantineGrant_ne (hlater : now ≤ later)
    (htouched : grantTouched later (restoredGrant now grant) = true) :
    quarantineGrant later (restoredGrant now grant) ≠ restoredGrant now grant := by
  obtain ⟨hopen, hexpiry⟩ := (grantTouched_restoredGrant hlater).mp htouched
  obtain ⟨harmed, _, hexpires, _⟩ := hopen.restored now
  intro hsame
  have hstate : (quarantineGrant later (restoredGrant now grant)).revocationState =
      desiredState later (restoredGrant now grant) :=
    quarantineGrant_state (undelivered_restoredGrant hopen)
  rw [hsame, harmed.state] at hstate
  rw [← hexpires] at hexpiry
  exact (desiredState_ne_iff hlater).mpr hexpiry hstate

/-! ## Applications -/

/-- The authority that an application still carries, as the sweeps look for it. -/
inductive LeftOver (db : RestoredDb) (now : Timestamp) (id : ℕ) : Prop
  | inspection (run : InspectionRun) (hrun : run ∈ db.inspections)
      (hopen : inspectionOpen run = true) (howner : run.applicationId = id)
  | plan (plan : FormPlan) (hplan : plan ∈ db.formPlans) (hlive : planLive plan = true)
      (howner : plan.applicationId = id)
  | permit (attempt : Submission) (hattempt : attempt ∈ db.submissions)
      (hlive : permitLive now attempt = true) (howner : attempt.applicationId = id)
  | grant (grant : RestoredGrant) (hgrant : grant ∈ db.grants)
      (htouched : grantTouched now grant = true) (howner : grant.applicationId = id)
  | command (attempt : Submission) (hattempt : attempt ∈ db.submissions)
      (hactive : commandActive attempt = true) (howner : attempt.applicationId = id)
  | attempt (key : ℕ) (attempt : Submission) (hattempt : db.submissions[key]? = some attempt)
      (hopen : attemptOpen key attempt = true) (howner : attempt.applicationId = id)

theorem isSome_noteAttempt {affected : Notes ℕ ReasonCode} {entry : Submission × ℕ} :
    (noteAttempt exempt affected entry id).isSome = true ↔
      (affected id).isSome = true ∨
        attemptOpen entry.2 entry.1 = true ∧ entry.1.applicationId = id ∧ exempt id = false := by
  obtain ⟨attempt, key⟩ := entry
  unfold noteAttempt
  simp only
  split
  · next hrest =>
    constructor
    · exact .inl
    · rintro (hnoted | ⟨hopen, rfl, hexempt⟩)
      · exact hnoted
      · simp [hopen, hexempt] at hrest
  · next hnote =>
    simp only [Bool.not_eq_true, not_or, Bool.not_eq_false] at hnote
    have hsame : (id = attempt.applicationId ∨ (affected id).isSome = true) ↔
        (affected id).isSome = true ∨
          attemptOpen key attempt = true ∧ attempt.applicationId = id ∧ exempt id = false := by
      constructor
      · rintro (rfl | hnoted)
        · exact .inr ⟨hnote.1, rfl, hnote.2⟩
        · exact .inl hnoted
      · rintro (hnoted | ⟨_, rfl, _⟩)
        · exact .inr hnoted
        · exact .inl rfl
    split
    · rw [Notes.isSome_put]
      exact hsame
    · rw [Notes.isSome_setDefault]
      exact hsame

theorem isSome_noteAttempts {entries : List (Submission × ℕ)} {affected : Notes ℕ ReasonCode} :
    (entries.foldl (noteAttempt exempt) affected id).isSome = true ↔
      (affected id).isSome = true ∨
        ∃ entry ∈ entries, attemptOpen entry.2 entry.1 = true ∧
          entry.1.applicationId = id ∧ exempt id = false := by
  induction entries generalizing affected with
  | nil => simp
  | cons entry rest ih =>
    rw [List.foldl_cons, ih, isSome_noteAttempt, List.exists_mem_cons_iff, or_assoc]

/-- The applications that are moved to review are those that carry authority and have
no employer-verified attempt. -/
theorem isSome_affectedApplications :
    (affectedApplications db now id).isSome = true ↔
      verifiedApplication db id = false ∧ LeftOver db now id := by
  unfold affectedApplications
  simp only [isSome_noteAttempts, Notes.isSome_noteOwners, Notes.empty, Option.isSome_none,
    Bool.false_eq_true, false_or, Prod.exists, List.mk_mem_zipIdx_iff_getElem?]
  constructor
  · rintro (((((⟨run, hrun, hopen, howner, hexempt⟩ | ⟨plan, hplan, hlive, howner, hexempt⟩) |
      ⟨attempt, hattempt, hlive, howner, hexempt⟩) |
      ⟨grant, hgrant, htouched, howner, hexempt⟩) |
      ⟨attempt, hattempt, hactive, howner, hexempt⟩) |
      ⟨attempt, key, hattempt, hopen, howner, hexempt⟩)
    · exact ⟨hexempt, .inspection run hrun hopen howner⟩
    · exact ⟨hexempt, .plan plan hplan hlive howner⟩
    · exact ⟨hexempt, .permit attempt hattempt hlive howner⟩
    · exact ⟨hexempt, .grant grant hgrant htouched howner⟩
    · exact ⟨hexempt, .command attempt hattempt hactive howner⟩
    · exact ⟨hexempt, .attempt key attempt hattempt hopen howner⟩
  · rintro ⟨hexempt, hleft⟩
    cases hleft with
    | inspection run hrun hopen howner =>
      exact .inl (.inl (.inl (.inl (.inl ⟨run, hrun, hopen, howner, hexempt⟩))))
    | plan plan hplan hlive howner =>
      exact .inl (.inl (.inl (.inl (.inr ⟨plan, hplan, hlive, howner, hexempt⟩))))
    | permit attempt hattempt hlive howner =>
      exact .inl (.inl (.inl (.inr ⟨attempt, hattempt, hlive, howner, hexempt⟩)))
    | grant grant hgrant htouched howner =>
      exact .inl (.inl (.inr ⟨grant, hgrant, htouched, howner, hexempt⟩))
    | command attempt hattempt hactive howner =>
      exact .inl (.inr ⟨attempt, hattempt, hactive, howner, hexempt⟩)
    | attempt key attempt hattempt hopen howner =>
      exact .inr ⟨attempt, key, hattempt, hopen, howner, hexempt⟩

def statuses (application : Application) : JobStatus × Option JobStatus :=
  (application.status, application.job.map Job.status)

theorem quarantine_application (happlication : db.applications[id]? = some application) :
    (quarantineRestoredRuntime db now).1.applications[id]? =
      some (reviewAffected (affectedApplications db now) id application) := by
  simp only [quarantineRestoredRuntime, List.getElem?_mapIdx, happlication, Option.map_some]

theorem statuses_quarantineApplication :
    statuses (quarantineApplication reason application) = statuses application ↔
      application.status = .needsReview ∧
        ∀ job, application.job = some job → job.status = .needsReview := by
  unfold statuses quarantineApplication
  cases hjob : application.job with
  | none => simp [eq_comm]
  | some job => simp [eq_comm]

/-- An application keeps its statuses unless it is moved to review from elsewhere. -/
theorem quarantine_keeps_statuses (happlication : db.applications[id]? = some application) :
    (∃ kept, (quarantineRestoredRuntime db now).1.applications[id]? = some kept ∧
      statuses kept = statuses application) ↔
    (verifiedApplication db id = false → LeftOver db now id →
      application.status = .needsReview ∧
        ∀ job, application.job = some job → job.status = .needsReview) := by
  rw [quarantine_application happlication]
  unfold reviewAffected
  cases haffected : affectedApplications db now id with
  | none =>
    have hrest : ¬(verifiedApplication db id = false ∧ LeftOver db now id) := by
      rw [← isSome_affectedApplications, haffected]
      simp
    constructor
    · intro _ hverified hleft
      exact absurd ⟨hverified, hleft⟩ hrest
    · intro _
      exact ⟨application, rfl, rfl⟩
  | some reason =>
    have hmoved : verifiedApplication db id = false ∧ LeftOver db now id := by
      rw [← isSome_affectedApplications, haffected]
      rfl
    constructor
    · rintro ⟨kept, hkept, hsame⟩ _ _
      cases hkept
      exact statuses_quarantineApplication.mp hsame
    · intro hreview
      exact ⟨_, rfl, statuses_quarantineApplication.mpr (hreview hmoved.1 hmoved.2)⟩

/-! ## A second quarantine -/

/-- No row of the database is touched by a sweep at `now`. -/
structure Untouched (db : RestoredDb) (now : Timestamp) : Prop where
  policies : ∀ policy ∈ db.policies, policyActive policy = false
  inspections : ∀ run ∈ db.inspections, inspectionOpen run = false
  plans : ∀ plan ∈ db.formPlans, planLive plan = false
  grants : ∀ grant ∈ db.grants, grantTouched now grant = false
  permits : ∀ attempt ∈ db.submissions, permitLive now attempt = false
  commands : ∀ attempt ∈ db.submissions, commandActive attempt = false
  attempts : ∀ (key : ℕ) (attempt : Submission), db.submissions[key]? = some attempt →
    attemptOpen key attempt = false

theorem Untouched.not_leftOver (huntouched : Untouched db now) : ¬LeftOver db now id := by
  intro hleft
  cases hleft with
  | inspection run hrun hopen => simp [huntouched.inspections run hrun] at hopen
  | plan plan hplan hlive => simp [huntouched.plans plan hplan] at hlive
  | permit attempt hattempt hlive => simp [huntouched.permits attempt hattempt] at hlive
  | grant grant hgrant htouched => simp [huntouched.grants grant hgrant] at htouched
  | command attempt hattempt hactive => simp [huntouched.commands attempt hattempt] at hactive
  | attempt key attempt hattempt hopen => simp [huntouched.attempts key attempt hattempt] at hopen

theorem Untouched.affected (huntouched : Untouched db now) :
    affectedApplications db now = Notes.empty := by
  funext id
  cases haffected : affectedApplications db now id with
  | none => rfl
  | some reason =>
    have hisSome : (affectedApplications db now id).isSome = true := by
      rw [haffected]
      rfl
    exact absurd (isSome_affectedApplications.mp hisSome).2 huntouched.not_leftOver

/-- A quarantine that touches nothing changes no row. -/
theorem Untouched.quarantine (huntouched : Untouched db now) :
    (quarantineRestoredRuntime db now).1 = db := by
  have hsubmissions : (sweep commandActive (cancelAttemptCommand now)
      (sweep (permitLive now) (expirePermit now) db.submissions)).mapIdx
        (quarantineAttempt now) = db.submissions := by
    rw [sweep_eq_self huntouched.permits, sweep_eq_self huntouched.commands,
      List.mapIdx_eq_iff]
    intro key
    cases hattempt : db.submissions[key]? with
    | none => rfl
    | some attempt =>
      rw [Option.map_some, quarantineAttempt, huntouched.attempts key attempt hattempt]
      rfl
  have happlications : db.applications.mapIdx (reviewAffected Notes.empty) =
      db.applications := by
    rw [List.mapIdx_eq_iff]
    intro key
    cases db.applications[key]? <;> rfl
  have hmoved : movedApplications db Notes.empty = [] := by
    unfold movedApplications
    apply List.filterMap_eq_nil_iff.mpr
    intro entry _
    rfl
  simp only [quarantineRestoredRuntime, huntouched.affected, hsubmissions, happlications, hmoved,
    sweep_eq_self huntouched.policies, sweep_eq_self huntouched.inspections,
    sweep_eq_self huntouched.plans, sweep_eq_self huntouched.grants, List.append_nil]

theorem mem_restored_submissions {row : Submission}
    (hrow : row ∈ (quarantineRestoredRuntime db now).1.submissions) :
    ∃ (key : ℕ) (attempt : Submission), db.submissions[key]? = some attempt ∧
      restoredAttempt now key attempt = row := by
  obtain ⟨key, hkey⟩ := List.getElem?_of_mem hrow
  rw [quarantine_submission] at hkey
  obtain ⟨attempt, hattempt, hsame⟩ := Option.map_eq_some_iff.mp hkey
  exact ⟨key, attempt, hattempt, hsame⟩

theorem policyActive_restored :
    ∀ policy ∈ (quarantineRestoredRuntime db now).1.policies, policyActive policy = false :=
  sweep_forall (fun _ _ _ => rfl) (fun _ _ hactive => hactive)

theorem inspectionOpen_restored :
    ∀ run ∈ (quarantineRestoredRuntime db now).1.inspections, inspectionOpen run = false :=
  sweep_forall (fun _ _ _ => rfl) (fun _ _ hopen => hopen)

theorem planLive_restored :
    ∀ plan ∈ (quarantineRestoredRuntime db now).1.formPlans, planLive plan = false :=
  sweep_forall (fun _ _ _ => rfl) (fun _ _ hlive => hlive)

theorem restored_grants :
    (quarantineRestoredRuntime db now).1.grants = db.grants.map (restoredGrant now) := rfl

/-- A later quarantine changes no row exactly when no undelivered revocation has expired
in between. -/
theorem quarantine_again_iff (hlater : now ≤ later) :
    (quarantineRestoredRuntime (quarantineRestoredRuntime db now).1 later).1 =
        (quarantineRestoredRuntime db now).1 ↔
      ∀ grant ∈ db.grants, Undelivered grant →
        ¬(now < grant.expiresAt ∧ grant.expiresAt ≤ later) := by
  constructor
  · intro hsame grant hgrant hopen hexpired
    have hgrants := congrArg RestoredDb.grants hsame
    have hrow : restoredGrant now grant ∈ (quarantineRestoredRuntime db now).1.grants := by
      rw [restored_grants]
      exact List.mem_map_of_mem hgrant
    have htouched := (grantTouched_restoredGrant hlater).mpr ⟨hopen, hexpired⟩
    exact quarantineGrant_ne hlater htouched
      (sweep_eq_self_iff.mp hgrants _ hrow htouched)
  · intro hgrants
    apply Untouched.quarantine
    refine ⟨policyActive_restored, inspectionOpen_restored, planLive_restored, ?_, ?_, ?_, ?_⟩
    · intro row hrow
      rw [restored_grants] at hrow
      obtain ⟨grant, hgrant, rfl⟩ := List.mem_map.mp hrow
      rw [← Bool.not_eq_true, grantTouched_restoredGrant hlater]
      rintro ⟨hopen, hexpired⟩
      exact hgrants grant hgrant hopen hexpired
    · intro row hrow
      obtain ⟨key, attempt, _, rfl⟩ := mem_restored_submissions hrow
      exact permitLive_restoredAttempt hlater
    · intro row hrow
      obtain ⟨key, attempt, _, rfl⟩ := mem_restored_submissions hrow
      exact commandActive_restoredAttempt
    · intro key row hrow
      rw [quarantine_submission] at hrow
      obtain ⟨attempt, _, rfl⟩ := Option.map_eq_some_iff.mp hrow
      exact attemptOpen_restoredAttempt

end JobApplyAgent.Restore
