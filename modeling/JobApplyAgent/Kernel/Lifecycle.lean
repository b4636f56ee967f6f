import JobApplyAgent.Kernel.Worker
import JobApplyAgent.Kernel.Mutations

/-!
# The attempt state machine

Every writer of a submission row takes one of the steps below.  Each
transaction has a specification lemma that names its step, what else it
changed, and what it published.
-/

namespace JobApplyAgent.Kernel

open Domain Store Library

def claimRow (attempt : Submission) (command : SubmissionCommand)
    (now : Timestamp) (runner : String) (token : ℕ) : Submission :=
  { attempt with
    startedAt := some now
    stage := .inspecting
    outcome := none
    status := .pending
    command := some
      { command with
        state := .claimed
        claimedAt := some now
        claimedBy := some runner
        claimToken := some token } }

/-- A claimed attempt that moved on before the boundary. -/
def stageRow (attempt : Submission) (target : AttemptStage)
    (command : SubmissionCommand) : Submission :=
  { attempt with
    stage := target
    outcome := none
    status := .pending
    command := some command }

def boundaryRow (attempt : Submission) (command : SubmissionCommand)
    (permit : PermitRow) (now : Timestamp) : Submission :=
  { attempt with
    stage := .committing
    outcome := none
    status := .running
    finalActionAt := some now
    permit := some { permit with consumedAt := some now }
    command := some (renewLease command now) }

/-- An attempt whose confirmed report is being verified. -/
def verifyingRow (attempt : Submission) : Submission :=
  { attempt with stage := .verifying, outcome := none, status := .running }

/-- The ways in which a transaction moves one attempt. -/
inductive AttemptMove where
  | claim
  | cancelInvalid
  | preflight
  | ready
  | boundary
  | finish
  | verify
  | requeue
  | cancel
  | reconcile
  deriving DecidableEq

inductive AttemptStep : AttemptMove → Submission → Submission → Prop
  | claim {old : Submission} {command : SubmissionCommand} (now : Timestamp)
      (runner : String) (token : ℕ) (hcommand : old.command = some command)
      (hstate : command.state = .pending) (hstage : old.stage = .queued) :
      AttemptStep .claim old (claimRow old command now runner token)
  | cancelInvalid {old : Submission} {command : SubmissionCommand}
      (now : Timestamp) (hcommand : old.command = some command)
      (hstate : command.state = .pending) (hstage : old.stage ≠ .queued) :
      AttemptStep .cancelInvalid old (cancelInvalidCommand old command now)
  | preflight {old : Submission} {command : SubmissionCommand}
      (hcommand : old.command = some command) (hstate : command.state = .claimed)
      (hstage : old.stage = .inspecting) :
      AttemptStep .preflight old (stageRow old .preparing command)
  | ready {old : Submission} {command : SubmissionCommand} (now : Timestamp)
      (hcommand : old.command = some command) (hstate : command.state = .claimed)
      (hstage : old.stage = .preparing) :
      AttemptStep .ready old (stageRow old .ready (renewLease command now))
  | boundary {old : Submission} {command : SubmissionCommand}
      {permit : PermitRow} (now : Timestamp)
      (hcommand : old.command = some command) (hstate : command.state = .claimed)
      (hstage : old.stage = .ready) (hpermit : old.permit = some permit)
      (hunspent : permit.consumedAt = none) :
      AttemptStep .boundary old (boundaryRow old command permit now)
  | finish {old new : Submission} {command : SubmissionCommand}
      {ending : CommitOutcome} (now : Timestamp)
      (hcommand : old.command = some command)
      (hstate : command.state = .claimed ∨
        command.state = .pending ∧ old.stage = .queued)
      (hfinished : Finished old command ending now new) :
      AttemptStep .finish old new
  | verify {old new : Submission} {command : SubmissionCommand}
      {ending : CommitOutcome} (now : Timestamp)
      (hcommand : old.command = some command) (hstate : command.state = .claimed)
      (hstage : old.stage = .committing)
      (hfinished : Finished (verifyingRow old) command ending now new) :
      AttemptStep .verify old new
  | requeue {old : Submission} {command : SubmissionCommand}
      (hcommand : old.command = some command) (hstate : command.state = .claimed)
      (hcrossed : crossedBoundary old = false) :
      AttemptStep .requeue old (requeueRow old command)
  | cancel {old : Submission} (reason : AttemptReason) (now : Timestamp)
      (hstage : old.stage.precommit = true) (hacted : old.finalActionAt = none)
      (hconsumed : old.permitConsumed = false)
      (hstate : ∀ command, old.command = some command →
        command.state = .pending ∨ command.state = .claimed) :
      AttemptStep .cancel old (cancelRow old reason now)
  | reconcile {old : Submission} (request : ReconcileRequest) (now : Timestamp)
      (hold : reconciliable old = true) :
      AttemptStep .reconcile old (reconciledRow old request now)

/-- What a move does to the outbox: an invalid or an operator cancellation
enqueues nothing, every other move of a command is published. -/
inductive OutboxEffect (move : AttemptMove) (before : Db) (new : Submission)
    (after : Db) : Prop
  | silent (hmove : move = .cancelInvalid ∨ move = .cancel ∨ new.command = none)
      (hsame : after.outbox = before.outbox)
  | published (command : SubmissionCommand) (hcommand : new.command = some command)
      (hpublished : Published before after new command.idempotencyKey)

/-- A transaction that moved one attempt by one step. -/
structure MovedTo (before : Db) (id : ℕ) (move : AttemptMove)
    (old new : Submission) (after : Db) : Prop where
  row : before.submissions[id]? = some old
  step : AttemptStep move old new
  transaction : AttemptTransaction before id new after
  effect : OutboxEffect move before new after

def Moved (before : Db) (id : ℕ) (move : AttemptMove) (after : Db) : Prop :=
  ∃ old new, MovedTo before id move old new after

theorem AttemptStep.bindings {move : AttemptMove}
    (hstep : AttemptStep move old new) :
    attemptBindings new = attemptBindings old := by
  cases hstep with
  | claim now runner token hcommand => simp [attemptBindings, claimRow, hcommand]
  | cancelInvalid now hcommand =>
    simp [attemptBindings, cancelInvalidCommand, hcommand]
  | preflight hcommand => simp [attemptBindings, stageRow, hcommand]
  | ready now hcommand => simp [attemptBindings, stageRow, renewLease, hcommand]
  | boundary now hcommand =>
    simp [attemptBindings, boundaryRow, renewLease, hcommand]
  | finish now hcommand _ hfinished =>
    rw [hfinished.bindings]
    simp [attemptBindings, hcommand]
  | verify now hcommand _ _ hfinished =>
    rw [hfinished.bindings]
    simp [attemptBindings, verifyingRow, hcommand]
  | requeue hcommand => simp [attemptBindings, requeueRow, hcommand]
  | cancel reason now =>
    simp only [attemptBindings, cancelRow, AttemptBindings.mk.injEq, true_and]
    cases old.command <;> simp [cancelCommand]
  | reconcile => rfl

/-- The worker holding `token` owns the attempt. -/
def Owned (db : Db) (id token : ℕ) : Prop :=
  ∃ attempt command, db.submissions[id]? = some attempt ∧
    attempt.command = some command ∧ command.state = .claimed ∧
    command.claimToken = some token

theorem lockClaimedContext_eq_some {id token : ℕ}
    (hlock : lockClaimedContext db id token = some (application, attempt, command)) :
    db.submissions[id]? = some attempt ∧
      db.applications[attempt.applicationId]? = some application ∧
      attempt.command = some command ∧ command.state = .claimed ∧
      command.claimToken = some token := by
  unfold lockClaimedContext at hlock
  split at hlock
  · cases hlock
  next found hfound =>
  split at hlock
  · next application' command' happlication hcommand =>
    split at hlock
    · next hclaimed =>
      simp only [Option.some.injEq, Prod.mk.injEq] at hlock
      obtain ⟨rfl, rfl, rfl⟩ := hlock
      exact ⟨hfound, happlication, hcommand, hclaimed⟩
    · cases hlock
  · cases hlock

section Specifications

variable {id token : ℕ}

  {locked : ℕ → Bool} {answer : Option ℕ}

section

variable (hdb : OutboxConsistent db)
include hdb

/-- A flushed and published row makes a transaction. -/
theorem moved_of_flush {move : AttemptMove} {told : Submission}
    (hold : db.submissions[id]? = some old) (hstep : AttemptStep move old new)
    (htold : told.stage = new.stage ∧ told.outcome = new.outcome)
    (howner : new.command = some owner) (hkey : owner.idempotencyKey = command.idempotencyKey)
    (hmirrored : enqueueControlPlaneAttemptTransition db told command occurredAt
      true = .ok mirrored) (hflush : mirrored.flushSubmission id new = .ok after) :
    MovedTo db id move old new after := by
  obtain ⟨outbox, rfl, houtbox⟩ :=
    enqueueControlPlaneAttemptTransition_mirrored hdb hmirrored
  obtain ⟨rfl, hchecks, hfree⟩ := Db.flushSubmission_eq_ok hflush
  have htransaction : AttemptTransaction db id new
      (({ db with outbox } : Db).setSubmission id new) :=
    ⟨rfl, hchecks, hfree, .refl ApplicationCarried.refl _, .refl ApplicationRevised.refl _,
      fun _ _ => rfl, .refl PlanCarried.refl _, ⟨rfl, rfl, rfl, rfl, rfl, rfl, rfl⟩⟩
  refine ⟨hold, hstep, htransaction, .published owner howner ?_⟩
  have hpublished := houtbox.published hdb
    (rfl : (({ db with outbox } : Db).setSubmission id new).outbox = outbox)
  rw [← hkey] at hpublished
  refine ⟨hpublished.grown, hpublished.consistent, ?_, hpublished.others⟩
  intro receipt hreceipt
  obtain ⟨last, hlast, htells⟩ := hpublished.told receipt hreceipt
  exact ⟨last, hlast, htells.1.trans htold.1, htells.2.trans htold.2⟩

/-- Finishing an owned attempt is one step. -/
theorem moved_of_finish (hold : db.submissions[id]? = some old)
    (hcommand : old.command = some command)
    (hstate : command.state = .claimed ∨
      command.state = .pending ∧ old.stage = .queued)
    (hfinish : finishAttempt db id old command ending now = .ok after) :
    Moved db id .finish after := by
  obtain ⟨new, hfinished, htransaction, hmirrored, _⟩ :=
    finishAttempt_eq_ok hdb hfinish
  exact ⟨old, new, hold, .finish now hcommand hstate hfinished, htransaction,
    .published _ hfinished.command (hmirrored.published hdb rfl)⟩

theorem finishClaimedBeforeCommit_eq_ok
    (hfinish : finishClaimedBeforeCommit db id token reason now = .ok (some after)) :
    Owned db id token ∧ Moved db id .finish after := by
  unfold finishClaimedBeforeCommit at hfinish
  split at hfinish
  · cases hfinish
  next application attempt command hlock =>
  obtain ⟨hrow, _, hcommand, hclaimed, htoken⟩ := lockClaimedContext_eq_some hlock
  split at hfinish
  · simp only [bind_eq_ok, pure_eq_ok, Option.some.injEq] at hfinish
    obtain ⟨_, hfinish, rfl⟩ := hfinish
    exact ⟨⟨attempt, command, hrow, hcommand, hclaimed, htoken⟩,
      moved_of_finish hdb hrow hcommand (.inl hclaimed) hfinish⟩
  · cases hfinish

theorem enterClaimedPreflight_eq_ok
    (henter : enterClaimedPreflight db id token now = .ok (some after)) :
    Owned db id token ∧ Moved db id .preflight after := by
  unfold enterClaimedPreflight at henter
  split at henter
  · cases henter
  next application attempt command hlock =>
  obtain ⟨hrow, _, hcommand, hclaimed, htoken⟩ := lockClaimedContext_eq_some hlock
  split at henter
  · next hguard =>
    simp only [bind_eq_ok, pure_eq_ok, Option.some.injEq] at henter
    obtain ⟨staged, hstaged, mirrored, hmirrored, _, hflush, rfl⟩ := henter
    obtain ⟨_, _, rfl⟩ := setStage_eq_ok hstaged
    have hstep := AttemptStep.preflight hcommand hclaimed hguard.2
    have hrewrite : stageRow attempt .preparing command =
        { attempt with stage := .preparing, outcome := none, status := .pending } := by
      simp [stageRow, ← hcommand]
    rw [hrewrite] at hstep
    exact ⟨⟨attempt, command, hrow, hcommand, hclaimed, htoken⟩,
      _, _, moved_of_flush hdb hrow hstep ⟨rfl, rfl⟩ hcommand rfl hmirrored hflush⟩
  · cases henter

theorem finishUnprepared_eq_ok
    (hfinish : finishUnprepared db id token outcome now = .ok (some after)) :
    Owned db id token ∧ Moved db id .finish after := by
  unfold finishUnprepared at hfinish
  split at hfinish
  · cases hfinish
  next application attempt command hlock =>
  obtain ⟨hrow, _, hcommand, hclaimed, htoken⟩ := lockClaimedContext_eq_some hlock
  simp only [bind_eq_ok, pure_eq_ok, Option.some.injEq] at hfinish
  obtain ⟨_, hfinish, rfl⟩ := hfinish
  exact ⟨⟨attempt, command, hrow, hcommand, hclaimed, htoken⟩,
    moved_of_finish hdb hrow hcommand (.inl hclaimed) hfinish⟩

theorem markClaimedAttemptReady_eq_ok
    (hready : markClaimedAttemptReady db id token action now = .ok (.ready after)) :
    Owned db id token ∧ Moved db id .ready after := by
  unfold markClaimedAttemptReady at hready
  split at hready
  · cases hready
  next application attempt command hlock =>
  obtain ⟨hrow, _, hcommand, hclaimed, htoken⟩ := lockClaimedContext_eq_some hlock
  split at hready
  · cases hready
  next hstage =>
  split at hready
  · split at hready
    · simp only [bind_eq_ok, pure_eq_ok, ReadyResult.ready.injEq] at hready
      obtain ⟨staged, hstaged, mirrored, hmirrored, _, hflush, rfl⟩ := hready
      obtain ⟨_, _, rfl⟩ := setStage_eq_ok hstaged
      have hstep := AttemptStep.ready now hcommand hclaimed (not_not.mp hstage)
      have howner : (stageRow attempt .ready (renewLease command now)).command =
          some (renewLease command now) := rfl
      exact ⟨⟨attempt, command, hrow, hcommand, hclaimed, htoken⟩,
        _, _, moved_of_flush hdb hrow hstep ⟨rfl, rfl⟩ howner rfl hmirrored hflush⟩
    · cases hready
  · cases hready

end

/-! ### Commit boundary -/

theorem rejectAtBoundary_eq_ok (hdb : OutboxConsistent db)
    (hrow : db.submissions[id]? = some attempt) (hcommand : attempt.command = some command)
    (hclaimed : command.state = .claimed)
    (hreject : rejectAtBoundary db id attempt command reason now = .ok result) :
    ∃ after, result = .rejected after ∧ Moved db id .finish after := by
  simp only [rejectAtBoundary, bind_eq_ok, pure_eq_ok] at hreject
  obtain ⟨after, hfinish, rfl⟩ := hreject
  exact ⟨after, rfl, moved_of_finish hdb hrow hcommand (.inl hclaimed) hfinish⟩

theorem crossBoundary_eq_ok (hdb : OutboxConsistent db) (hrow : db.submissions[id]? = some attempt)
    (hcommand : attempt.command = some command) (hclaimed : command.state = .claimed)
    (hstage : attempt.stage = .ready) (hpermit : attempt.permit = some permit)
    (hcross : crossBoundary db id attempt command permit now = .ok result) :
    ∃ after, result = .entered after ∧
      MovedTo db id .boundary attempt (boundaryRow attempt command permit now) after := by
  simp only [crossBoundary, bind_eq_ok, pure_eq_ok] at hcross
  obtain ⟨staged, hstaged, mirrored, hmirrored, consumed, hconsumed, after, hflush,
    rfl⟩ := hcross
  obtain ⟨_, _, rfl⟩ := setStage_eq_ok hstaged
  unfold consumeFinalSubmitPermit at hconsumed
  split at hconsumed
  · cases hconsumed
  next hunspent =>
  rw [Except.ok.injEq] at hconsumed
  subst hconsumed
  have hstep := AttemptStep.boundary now hcommand hclaimed hstage hpermit
    (by simpa using hunspent)
  have howner : (boundaryRow attempt command permit now).command =
      some (renewLease command now) := rfl
  exact ⟨after, rfl, moved_of_flush hdb hrow hstep ⟨rfl, rfl⟩ howner rfl hmirrored
    hflush⟩

theorem killSwitchActive_eq_false_of_authority
    (hautopilot : attempt.authorityKind = .qualifiedAutopilot)
    (hvalid : validateAttemptAutomationAuthority zone db attempt now readings = .ok ()) :
    killSwitchActive db = false := by
  simp only [validateAttemptAutomationAuthority, hautopilot] at hvalid
  split at hvalid
  · cases hvalid
  split at hvalid
  · next decision hdecision => exact killSwitchActive_eq_false_of_validate hdecision
  all_goals cases hvalid

theorem killSwitchActive_eq_false_of_validateBoundary
    (hautopilot : attempt.authorityKind = .qualifiedAutopilot)
    (hvalid : validateBoundary zone db id attempt plan permit action jobUrlHash now
      readings = .ok ()) : killSwitchActive db = false := by
  unfold validateBoundary at hvalid
  split at hvalid
  · cases hvalid
  simp only [bind_eq_ok] at hvalid
  obtain ⟨_, hauthority, _⟩ := hvalid
  exact killSwitchActive_eq_false_of_authority hautopilot hauthority

/-- The boundary either finishes the attempt before it, or moves the owned
attempt across it; an autopilot attempt crosses only while the stop is off. -/
theorem enterCommitBoundary_eq_ok (hdb : OutboxConsistent db)
    (henter : enterCommitBoundary zone db id token request = .ok result) :
    result = .superseded ∨
      (∃ after, result = .rejected after ∧ Owned db id token ∧ Moved db id .finish after) ∨
      ∃ after old new, result = .entered after ∧ Owned db id token ∧
        MovedTo db id .boundary old new after ∧
        (old.authorityKind = .qualifiedAutopilot → killSwitchActive db = false) := by
  unfold enterCommitBoundary at henter
  split at henter
  · exact .inl (Except.ok.inj henter).symm
  next application attempt command hlock =>
  obtain ⟨hrow, _, hcommand, hclaimed, htoken⟩ := lockClaimedContext_eq_some hlock
  have howned : Owned db id token :=
    ⟨attempt, command, hrow, hcommand, hclaimed, htoken⟩
  have hrejected : ∀ reason at',
      rejectAtBoundary db id attempt command reason at' = .ok result →
      ∃ after, result = .rejected after ∧ Owned db id token ∧
        Moved db id .finish after := by
    intro reason at' hreject
    obtain ⟨after, hresult, hmoved⟩ :=
      rejectAtBoundary_eq_ok hdb hrow hcommand hclaimed hreject
    exact ⟨after, hresult, howned, hmoved⟩
  split at henter
  · exact .inr (.inl (hrejected _ _ henter))
  split at henter
  · next plan permit hplan hpermit =>
    split at henter
    · exact .inl (Except.ok.inj henter).symm
    next hguard =>
    simp only [not_not] at hguard
    split at henter
    · exact .inr (.inl (hrejected _ _ henter))
    split at henter
    · exact .inr (.inl (hrejected _ _ henter))
    split at henter
    · exact .inr (.inl (hrejected _ _ henter))
    split at henter
    · exact .inr (.inl (hrejected _ _ henter))
    next hvalid =>
    obtain ⟨after, hresult, hmoved⟩ := crossBoundary_eq_ok
      hdb hrow hcommand hclaimed hguard.2.1 hpermit henter
    exact .inr (.inr ⟨after, attempt, _, hresult, howned, hmoved,
      fun hautopilot =>
        killSwitchActive_eq_false_of_validateBoundary hautopilot
          hvalid⟩)
  · exact .inl (Except.ok.inj henter).symm

/-! ### The irreversible call -/

theorem commitContext_eq_some (hcontext : commitContext db id token = some (attempt, command)) :
    db.submissions[id]? = some attempt ∧ attempt.command = some command ∧
      command.state = .claimed ∧ command.claimToken = some token ∧
      attempt.stage = .committing ∧ attempt.finalActionAt.isSome = true ∧
      attempt.permitConsumed = true := by
  unfold commitContext at hcontext
  split at hcontext
  · cases hcontext
  next application found owner hlock =>
  obtain ⟨hrow, _, hcommand, hclaimed, htoken⟩ := lockClaimedContext_eq_some hlock
  split at hcontext
  · next hguard =>
    simp only [Option.some.injEq, Prod.mk.injEq] at hcontext
    obtain ⟨rfl, rfl⟩ := hcontext
    exact ⟨hrow, hcommand, hclaimed, htoken, hguard⟩
  · cases hcontext

/-- Settling a report is one step, through `verifying` when it is confirmed. -/
theorem settleCommit_eq_ok (hdb : OutboxConsistent db) (hrow : db.submissions[id]? = some attempt)
    (hcommand : attempt.command = some command) (hclaimed : command.state = .claimed)
    (hstage : attempt.stage = .committing)
    (hsettle : settleCommit db id attempt command outcome now = .ok after) :
    ∃ move, (move = .finish ∨ move = .verify) ∧ Moved db id move after := by
  have hplain : finishAttempt db id attempt command outcome now = .ok after →
      ∃ move, (move = .finish ∨ move = .verify) ∧ Moved db id move after :=
    fun hfinish => ⟨.finish, .inl rfl,
      moved_of_finish hdb hrow hcommand (.inl hclaimed) hfinish⟩
  cases outcome with
  | confirmedSubmitted evidence =>
    simp only [settleCommit, bind_eq_ok] at hsettle
    obtain ⟨staged, hstaged, mirrored, hmirrored, hfinish⟩ := hsettle
    obtain ⟨_, _, rfl⟩ := setStage_eq_ok hstaged
    obtain ⟨outbox, rfl, houtbox⟩ :=
      enqueueControlPlaneAttemptTransition_mirrored hdb hmirrored
    have hverifying := houtbox.published hdb
      (rfl : ({ db with outbox } : Db).outbox = outbox)
    obtain ⟨new, hfinished, htransaction, hfinal, _⟩ :=
      finishAttempt_eq_ok hverifying.consistent hfinish
    refine ⟨.verify, .inr rfl, attempt, new, hrow,
      .verify now hcommand hclaimed hstage hfinished, ?_, .published _
        hfinished.command (hverifying.trans
          (hfinal.published hverifying.consistent rfl) rfl)⟩
    exact ⟨htransaction.submissions, htransaction.checks, htransaction.free,
      htransaction.applications, htransaction.revisions, htransaction.others,
      htransaction.plans,
      ⟨htransaction.authority.applicationRefs, htransaction.authority.reviewGrants,
        htransaction.authority.receipts, htransaction.authority.policies,
        htransaction.authority.decisions, htransaction.authority.killEvents,
        htransaction.authority.canaryAuthorizations⟩⟩
  | _ => exact hplain hsettle

/-! ### Stale claims -/

/-- The application of an attempt is not locked by another transaction. -/
def Unlocked (locked : ℕ → Bool) (db : Db) (id : ℕ) : Prop :=
  ∃ attempt, db.submissions[id]? = some attempt ∧
    locked attempt.applicationId = false

theorem reconcileStaleClaim_eq_ok (hdb : OutboxConsistent db)
    (hreconcile : reconcileStaleClaim locked cutoff now db id = .ok after) :
    after = db ∨ ∃ move old new, (move = .finish ∨ move = .requeue) ∧
      locked old.applicationId = false ∧ claimStale cutoff old = true ∧
      MovedTo db id move old new after := by
  unfold reconcileStaleClaim at hreconcile
  split at hreconcile
  · exact .inl (Except.ok.inj hreconcile).symm
  next attempt hrow =>
  split at hreconcile
  · exact .inl (Except.ok.inj hreconcile).symm
  next hlocked =>
  have hunlocked : locked attempt.applicationId = false := by simpa using hlocked
  split at hreconcile
  · exact .inl (Except.ok.inj hreconcile).symm
  next command hcommand =>
  split at hreconcile
  · exact .inl (Except.ok.inj hreconcile).symm
  next hstale =>
  have hstale := not_not.mp hstale
  have hclaimed : command.state = .claimed := by
    simp only [claimStale, hcommand, Option.any_some, Bool.and_eq_true,
      decide_eq_true_eq] at hstale
    exact hstale.1
  split at hreconcile
  · obtain ⟨old, new, hmoved⟩ :=
      moved_of_finish hdb hrow hcommand (.inl hclaimed) hreconcile
    have hold := hmoved.row
    rw [hrow, Option.some.injEq] at hold
    subst hold
    exact .inr ⟨.finish, attempt, new, .inl rfl, hunlocked, hstale, hmoved⟩
  · next hcrossed =>
    simp only [requeueAttempt, bind_eq_ok] at hreconcile
    obtain ⟨mirrored, hmirrored, hflush⟩ := hreconcile
    exact .inr ⟨.requeue, attempt, _, .inr rfl, hunlocked, hstale,
      moved_of_flush hdb hrow
        (.requeue hcommand hclaimed (by simpa using hcrossed))
        ⟨rfl, rfl⟩ rfl rfl hmirrored hflush⟩

/-! ### Claiming -/

/-- The token of the live claim on an attempt. -/
def currentClaim (attempt : Submission) : Option ℕ :=
  attempt.command.bind fun command =>
    if command.state = .claimed then command.claimToken else none

theorem commandDue_pending (hcommand : attempt.command = some command)
    (hdue : commandDue now attempt = true) : command.state = .pending := by
  simp only [commandDue, hcommand, Option.any_some, Bool.and_eq_true,
    decide_eq_true_eq] at hdue
  exact hdue.1

theorem due_of_mem_claimCandidates (hmem : id ∈ claimCandidates db only now) :
    ∃ attempt, db.submissions[id]? = some attempt ∧ commandDue now attempt = true := by
  have hsorted := List.mem_of_mem_take hmem
  rw [List.mem_insertionSort] at hsorted
  obtain ⟨⟨attempt, index⟩, hentry, rfl⟩ := List.mem_map.mp hsorted
  obtain ⟨hzip, hdue⟩ := List.mem_filter.mp hentry
  rw [List.mk_mem_zipIdx_iff_getElem?] at hzip
  simp only [Bool.and_eq_true] at hdue
  exact ⟨attempt, hzip, hdue.1⟩

/-- A pending command is cancelled, finished for another build, or claimed
under the given token. -/
theorem claimCommand_eq_ok (hdb : OutboxConsistent db) (hrow : db.submissions[id]? = some attempt)
    (hdue : commandDue now attempt = true)
    (hclaim : claimCommand db id now runner token runtime = .ok (after, answer)) :
    (∃ move, (move = .cancelInvalid ∨ move = .finish) ∧ Moved db id move after) ∨
      ∃ new, MovedTo db id .claim attempt new after ∧
        currentClaim new = some token := by
  simp only [claimCommand, bind_eq_ok, fetch_eq_ok] at hclaim
  obtain ⟨found, hfound, hclaim⟩ := hclaim
  rw [hrow, Option.some.injEq] at hfound
  subst hfound
  split at hclaim
  · next hnone => simp [commandDue, hnone] at hdue
  · next command hcommand =>
    have hpending := commandDue_pending hcommand hdue
    split at hclaim
    · next hstage =>
      simp only [bind_eq_ok, pure_eq_ok, Prod.mk.injEq] at hclaim
      obtain ⟨_, hflush, rfl, _⟩ := hclaim
      obtain ⟨rfl, hchecks, hfree⟩ := Db.flushSubmission_eq_ok hflush
      exact .inl ⟨.cancelInvalid, .inl rfl, attempt, _, hrow,
        .cancelInvalid now hcommand hpending hstage,
        ⟨rfl, hchecks, hfree, .refl ApplicationCarried.refl _,
          .refl ApplicationRevised.refl _, fun _ _ => rfl, .refl PlanCarried.refl _,
          ⟨rfl, rfl, rfl, rfl, rfl, rfl, rfl⟩⟩,
        .silent (.inl rfl) rfl⟩
    · next hstage =>
      have hqueued := not_not.mp hstage
      split at hclaim
      · simp only [bind_eq_ok, pure_eq_ok, Prod.mk.injEq] at hclaim
        obtain ⟨_, hfinish, rfl, _⟩ := hclaim
        exact .inl ⟨.finish, .inr rfl,
          moved_of_finish hdb hrow hcommand (.inr ⟨hpending, hqueued⟩) hfinish⟩
      · simp only [bind_eq_ok, pure_eq_ok, Prod.mk.injEq] at hclaim
        obtain ⟨staged, hstaged, mirrored, hmirrored, _, hflush, rfl, _⟩ := hclaim
        obtain ⟨_, _, rfl⟩ := setStage_eq_ok hstaged
        exact .inr ⟨_, moved_of_flush hdb hrow
          (.claim now runner token hcommand hpending hqueued) ⟨rfl, rfl⟩ rfl rfl
          hmirrored hflush, rfl⟩

theorem claimSubmissionCommand_eq_ok (hdb : OutboxConsistent db)
    (hclaim : claimSubmissionCommand db locked only now runner token runtime =
      .ok (after, answer)) :
    after = db ∨ ∃ id, Unlocked locked db id ∧
      ((∃ move, (move = .cancelInvalid ∨ move = .finish) ∧ Moved db id move after) ∨
        ∃ old new, MovedTo db id .claim old new after ∧
          currentClaim new = some token) := by
  unfold claimSubmissionCommand at hclaim
  simp only at hclaim
  split at hclaim
  · simp only [Except.ok.injEq, Prod.mk.injEq] at hclaim
    exact .inl hclaim.1.symm
  · next id hfound =>
    obtain ⟨attempt, hrow, hdue⟩ :=
      due_of_mem_claimCandidates (List.mem_of_find?_eq_some hfound)
    have hfree := List.find?_some hfound
    simp only [hrow, Option.any_some, Bool.not_eq_true'] at hfree
    refine .inr ⟨id, ⟨attempt, hrow, hfree⟩, ?_⟩
    rcases claimCommand_eq_ok hdb hrow hdue hclaim with hmoved | ⟨new, hmoved, hnew⟩
    · exact .inl hmoved
    · exact .inr ⟨attempt, new, hmoved, hnew⟩

end Specifications

end JobApplyAgent.Kernel
