import JobApplyAgent.Kernel.Representation

/-!
# Refused transitions

Along typed runs the state machine refuses no transition of a worker, of a stale
claim or of an operator: whatever makes a transaction fail, it is not a stage that
its guards let through.
-/

namespace JobApplyAgent.Kernel

open Domain Store Library

/-- The error is not that of a transition which the state machine refuses. -/
def Unrefused : KernelError → Prop
  | .state _ => False
  | _ => True

section Writers

variable {id token : ℕ}

variable {α : Type}

theorem liftEvent_unrefused (result : Except EventError α) :
    FailsOnly Unrefused (liftEvent result) := by
  cases result with
  | ok value => exact .ok value
  | error error => exact .of_error trivial

theorem liftBlocked_unrefused (result : Except MutationBlocked α) :
    FailsOnly Unrefused (liftBlocked result) := by
  cases result with
  | ok value => exact .ok value
  | error error => exact .of_error trivial

theorem fetch_unrefused {ρ : Type} (rows : List ρ) (key : ℕ) :
    FailsOnly Unrefused (fetch rows key) := by
  unfold fetch
  split
  · exact .of_error trivial
  · exact .ok _

theorem flushSubmission_unrefused (db : Db) (id : ℕ) (attempt : Submission) :
    FailsOnly Unrefused (db.flushSubmission id attempt) := by
  unfold Db.flushSubmission
  split
  · exact .ok _
  · exact .of_error trivial

theorem enqueue_unrefused (db : Db) (attempt : Submission) (command : SubmissionCommand)
    (now : Timestamp) (useAttemptReason : Bool) :
    FailsOnly Unrefused
      (enqueueControlPlaneAttemptTransition db attempt command now useAttemptReason) := by
  have hstored : ∀ event, FailsOnly Unrefused (enqueueControlPlaneEvent db event) := by
    intro event
    unfold enqueueControlPlaneEvent
    split
    · split
      · exact .ok _
      · exact .of_error trivial
    · exact .ok _
  unfold enqueueControlPlaneAttemptTransition
  split
  · exact .ok _
  refine (liftEvent_unrefused _).bind fun evidence _ => ?_
  refine (liftEvent_unrefused _).bind fun last _ => ?_
  split
  · exact .ok _
  refine (liftEvent_unrefused _).bind fun position _ => ?_
  exact (liftEvent_unrefused _).bind fun _ _ => hstored _

theorem recordOutcome_unrefused (attempt : Submission) (application : Application)
    (outcome : CommitOutcome) :
    FailsOnly Unrefused (recordOutcome id attempt application outcome now) := by
  unfold recordOutcome
  split
  · split
    · exact .ok _
    · exact .of_error trivial
  all_goals exact .ok _

theorem setStage_unrefused (hnext : target ∈ allowedNextStages attempt.stage)
    (htarget : target ≠ .finished) :
    FailsOnly Unrefused (setStage attempt target) := by
  obtain ⟨staged, hstaged⟩ := setStage_isOk hnext htarget
  rw [hstaged]
  exact .ok _

variable {stage : AttemptStage}

theorem finishAttempt_unrefused (hallowed : outcome.kind ∈ allowedTerminalOutcomes attempt.stage) :
    FailsOnly Unrefused (finishAttempt db id attempt command outcome now) := by
  have htransition : requireTransition attempt.stage .finished (some outcome.kind) = .ok () :=
    requireTransition_eq_ok_iff.mpr (canTransition_finished_iff.mpr hallowed)
  unfold finishAttempt
  simp only [htransition, projectLegacyStatus_finished]
  refine (FailsOnly.ok ()).bind fun _ _ => (FailsOnly.ok _).bind fun status _ => ?_
  refine (fetch_unrefused _ _).bind fun application _ => ?_
  refine (recordOutcome_unrefused _ _ _).bind fun recorded _ => ?_
  refine (enqueue_unrefused _ _ _ _ _).bind fun mirrored _ => ?_
  exact flushSubmission_unrefused _ _ _

theorem failedWith_allowed (hstage : stage.precommit = true) :
    (failedWith reason).kind ∈ allowedTerminalOutcomes stage := by
  cases stage <;> simp_all [AttemptStage.precommit, failedWith, CommitOutcome.kind,
    allowedTerminalOutcomes]

theorem rejectAtBoundary_unrefused (hstage : attempt.stage.precommit = true) :
    FailsOnly Unrefused (rejectAtBoundary db id attempt command reason now) :=
  (finishAttempt_unrefused (failedWith_allowed hstage)).bind fun _ _ => .ok _

theorem enqueueFlush_unrefused (attempt told : Submission) (result : Db → α) :
    FailsOnly Unrefused (do
      let mirrored ← enqueueControlPlaneAttemptTransition db told command now true
      let after ← mirrored.flushSubmission id attempt
      return result after) :=
  (enqueue_unrefused _ _ _ _ _).bind fun _ _ =>
    (flushSubmission_unrefused _ _ _).bind fun _ _ => .ok _

/-! ### Claiming -/

theorem claimCommand_unrefused :
    FailsOnly Unrefused (claimCommand db id now runner token runtime) := by
  refine (fetch_unrefused _ _).bind fun attempt _ => ?_
  split
  · exact .ok _
  split
  · exact (flushSubmission_unrefused _ _ _).bind fun _ _ => .ok _
  next hstage =>
  have hqueued := not_not.mp hstage
  split
  · exact (finishAttempt_unrefused (failedWith_allowed (by rw [hqueued]; rfl))).bind
      fun _ _ => .ok _
  · refine (setStage_unrefused (by simp [hqueued, allowedNextStages])
      (by decide)).bind fun staged _ => ?_
    exact enqueueFlush_unrefused _ _ fun after => (after, some id)

theorem claimSubmissionCommand_unrefused {locked : ℕ → Bool} :
    FailsOnly Unrefused (claimSubmissionCommand db locked only now runner token runtime) := by
  unfold claimSubmissionCommand
  simp only
  split
  · exact .ok _
  · exact claimCommand_unrefused

/-! ### Executing -/

theorem finishClaimedBeforeCommit_unrefused :
    FailsOnly Unrefused (finishClaimedBeforeCommit db id token reason now) := by
  unfold finishClaimedBeforeCommit
  split
  · exact .ok _
  split
  · next hstage =>
    have hprecommit : ∀ {stage : AttemptStage},
        stage = .inspecting ∨ stage = .preparing ∨ stage = .ready →
          stage.precommit = true := by
      rintro stage (rfl | rfl | rfl) <;> rfl
    exact (finishAttempt_unrefused (failedWith_allowed (hprecommit hstage))).bind
      fun _ _ => .ok _
  · exact .ok _

theorem enterClaimedPreflight_unrefused :
    FailsOnly Unrefused (enterClaimedPreflight db id token now) := by
  unfold enterClaimedPreflight
  split
  · exact .ok _
  split
  · next hguard =>
    refine (setStage_unrefused (by simp [hguard.2, allowedNextStages])
      (by decide)).bind fun staged _ => ?_
    exact enqueueFlush_unrefused _ _ some
  · exact .ok _

theorem markClaimedAttemptReady_unrefused :
    FailsOnly Unrefused (markClaimedAttemptReady db id token action now) := by
  unfold markClaimedAttemptReady
  split
  · exact .ok _
  split
  · exact .ok _
  next hstage =>
  split
  · split
    · refine (setStage_unrefused (by simp [not_not.mp hstage, allowedNextStages])
        (by decide)).bind fun staged _ => ?_
      exact enqueueFlush_unrefused _ _ ReadyResult.ready
    · exact .ok _
  · exact .ok _

/-- The claim on an attempt is the worker's, and the attempt is where the worker left
it. -/
def LeftAt (db : Db) (id token : ℕ) (stage : AttemptStage) : Prop :=
  ∀ attempt, db.submissions[id]? = some attempt → currentClaim attempt = some token →
    attempt.stage = stage

theorem LeftAt.locked (hleft : LeftAt db id token stage)
    (hlock : lockClaimedContext db id token = some (application, attempt, command)) :
    attempt.stage = stage := by
  obtain ⟨hrow, _, hcommand, hclaimed, htoken⟩ := lockClaimedContext_eq_some hlock
  exact hleft attempt hrow ((currentClaim_claimed hcommand hclaimed).trans htoken)

theorem finishUnprepared_unrefused {preflight : PreflightOutcome}
    (hterminal : preflight.terminal? = some outcome) (hleft : LeftAt db id token .preparing) :
    FailsOnly Unrefused (finishUnprepared db id token outcome now) := by
  unfold finishUnprepared
  split
  · exact .ok _
  next hlock =>
  exact (finishAttempt_unrefused (preflight.kind_mem_allowedTerminalOutcomes hterminal
    (.inr (.inl (hleft.locked hlock))))).bind fun _ _ => .ok _

theorem crossBoundary_unrefused (hstage : attempt.stage = .ready) :
    FailsOnly Unrefused (crossBoundary db id attempt command permit now) := by
  have hconsume : FailsOnly Unrefused (consumeFinalSubmitPermit permit now) := by
    unfold consumeFinalSubmitPermit
    split
    · exact .of_error trivial
    · exact .ok _
  refine (setStage_unrefused (by simp [hstage, allowedNextStages]) (by decide)).bind
    fun staged _ => ?_
  refine (enqueue_unrefused _ _ _ _ _).bind fun mirrored _ => hconsume.bind fun _ _ => ?_
  exact (flushSubmission_unrefused _ _ _).bind fun _ _ => .ok _

theorem enterCommitBoundary_unrefused (hleft : LeftAt db id token .ready) :
    FailsOnly Unrefused (enterCommitBoundary zone db id token request) := by
  unfold enterCommitBoundary
  split
  · exact .ok _
  next application attempt command hlock =>
  have hstage := hleft.locked hlock
  have hprecommit : attempt.stage.precommit = true := by rw [hstage]; rfl
  have hreject : ∀ reason at', FailsOnly Unrefused
      (rejectAtBoundary db id attempt command reason at') :=
    fun reason at' => rejectAtBoundary_unrefused hprecommit
  split
  · exact hreject _ _
  split
  · split
    · exact .ok _
    split
    · exact hreject _ _
    split
    · exact hreject _ _
    split
    · exact hreject _ _
    split
    · exact hreject _ _
    · exact crossBoundary_unrefused hstage
  · exact .ok _

/-- A report settles an attempt at its boundary as unknown or, through `verifying`, as
confirmed. -/
theorem settleCommit_unrefused (hstage : attempt.stage = .committing) :
    FailsOnly Unrefused (settleCommit db id attempt command
      (commitOutcome id attempt report finishedAt) now) := by
  have hunknown : ∀ reason, FailsOnly Unrefused
      (settleCommit db id attempt command (.unknown reason) now) :=
    fun reason => finishAttempt_unrefused
      (by simp [hstage, CommitOutcome.kind, allowedTerminalOutcomes])
  have hconfirmed : ∀ evidence, FailsOnly Unrefused
      (settleCommit db id attempt command (.confirmedSubmitted evidence) now) := by
    intro evidence
    refine (setStage_unrefused (by simp [hstage, allowedNextStages]) (by decide)).bind
      fun staged hstaged => ?_
    obtain ⟨_, _, rfl⟩ := setStage_eq_ok hstaged
    exact (enqueue_unrefused _ _ _ _ _).bind fun mirrored _ =>
      finishAttempt_unrefused (by simp [CommitOutcome.kind, allowedTerminalOutcomes])
  unfold commitOutcome
  split
  · exact hunknown _
  · split
    · exact hconfirmed _
    · exact hunknown _
  · exact hunknown _
  · exact hunknown _

theorem fenced_unrefused (hresult : FailsOnly Unrefused result) : FailsOnly Unrefused
    (fenced db phase result) := by
  unfold fenced
  split
  · exact .of_error (hresult _ rfl)
  · exact .ok _
  · exact .ok _

theorem commitAction_unrefused :
    FailsOnly Unrefused
      (commitAction db worker action startedAt report finishedAt survives) := by
  unfold commitAction
  split
  · exact .ok _
  next attempt command hcontext =>
  have hstage := (commitContext_eq_some hcontext).2.2.2.2.1
  split
  · refine fenced_unrefused (FailsOnly.map ?_ some)
    exact finishAttempt_unrefused (by rw [hstage]; decide)
  · split
    · exact .ok _
    · split <;> exact .ok _

theorem workerStep_unrefused (hleft : ∀ stage, worker.phase.stage = some stage →
      LeftAt db worker.attempt worker.token stage)
    (hstep : workerStep zone db worker event = some result) : FailsOnly Unrefused result := by
  unfold workerStep at hstep
  simp only at hstep
  split at hstep
  · cases hstep
  · cases hstep
    exact .ok _
  · cases hstep
    exact fenced_unrefused finishClaimedBeforeCommit_unrefused
  · cases hstep
    exact fenced_unrefused enterClaimedPreflight_unrefused
  · cases hstep
    exact .ok _
  · cases hstep
    exact .ok _
  · next hphase =>
    obtain ⟨terminal, hterminal, rfl⟩ := Option.map_eq_some_iff.mp hstep
    exact fenced_unrefused
      (finishUnprepared_unrefused hterminal (hleft _ (by rw [hphase]; rfl)))
  · cases hstep
    split
    · next hmark => exact .of_error (markClaimedAttemptReady_unrefused _ hmark)
    all_goals exact .ok _
  · next hphase =>
    cases hstep
    split
    · next henter =>
      exact .of_error
        (enterCommitBoundary_unrefused (hleft _ (by rw [hphase]; rfl)) _ henter)
    all_goals exact .ok _
  · cases hstep
    exact commitAction_unrefused
  · cases hstep

/-! ### Operator steps -/

theorem skipApplication_unrefused :
    FailsOnly Unrefused (skipApplication db applicationId reason text now) := by
  refine (liftBlocked_unrefused _).bind fun locked _ => ?_
  refine FailsOnly.bind ?_ fun cancelled _ => ?_
  · unfold cancelLatestAttempt
    split
    · exact .ok _
    split
    · exact .ok _
    split
    · exact .of_error trivial
    · exact (flushSubmission_unrefused _ _ _).bind fun _ _ => .ok _
  · split
    simp only
    split <;> exact .ok _

theorem retryApplication_unrefused :
    FailsOnly Unrefused (retryApplication db applicationId reviewReady now) := by
  refine (liftBlocked_unrefused _).bind fun locked _ => ?_
  simp only
  split
  · exact .of_error trivial
  split
  · exact .of_error trivial
  refine (liftBlocked_unrefused _).bind fun prepared _ => ?_
  split <;> exact .ok _

theorem reconcileAttempt_unrefused :
    FailsOnly Unrefused (reconcileAttempt db id request now) := by
  refine (fetch_unrefused _ _).bind fun attempt _ => ?_
  refine (fetch_unrefused _ _).bind fun application _ => ?_
  split
  · exact .of_error trivial
  refine (flushSubmission_unrefused _ _ _).bind fun flushed _ => ?_
  split
  · exact .ok _
  · exact enqueue_unrefused _ _ _ _ _

end Writers

/-! ## Stale claims -/

section Reconciler

variable {db : Db} {held : ℕ → Bool} {id : ℕ}

theorem flushSubmission_isOk (hchecks : attempt.checks = true)
    (hfree : db.unfinishedFree id attempt = true) :
    db.flushSubmission id attempt = .ok (db.setSubmission id attempt) := by
  simp [Db.flushSubmission, hchecks, hfree]

theorem enqueueFlush_failsOnly (hlogs : LogsOk db) {told : Submission} (hid : told = attempt)
    (hchecks : attempt.checks = true) (hfree : db.unfinishedFree id attempt = true)
    (hunconfirmed : attempt.outcome ≠ some .confirmedSubmitted) :
    FailsOnly (OverflowsLog db command.idempotencyKey) (do
      let mirrored ← enqueueControlPlaneAttemptTransition db told command now true
      mirrored.flushSubmission id attempt) := by
  subst hid
  refine FailsOnly.bind ?_ fun mirrored hmirrored => ?_
  · refine enqueueControlPlaneAttemptTransition_failsOnly hlogs.outbox now true
      (by rw [checks_outcome hchecks]) (fun hconfirmed => absurd hconfirmed hunconfirmed)
      fun receipt hreceipt hempty => ?_
    obtain ⟨hmem, _⟩ := (receiptFor_eq_some_iff hlogs.receipts).mp hreceipt
    exact absurd hempty (hlogs.opened receipt hmem)
  · obtain ⟨outbox, rfl, _⟩ :=
      enqueueControlPlaneAttemptTransition_mirrored hlogs.outbox hmirrored
    have hstored : ({ db with outbox } : Db).flushSubmission id told = .ok _ :=
      flushSubmission_isOk hchecks hfree
    rw [hstored]
    exact .ok _

theorem requeueRow_checks (hchecks : attempt.checks = true) (hstage : attempt.stage ≠ .finished)
    (hcommand : attempt.command = some command) (hclaimed : command.state = .claimed) :
    (requeueRow attempt command).checks = true := by
  simp only [Submission.checks, Bool.and_eq_true, Bool.or_eq_true, decide_eq_true_eq, hcommand,
    Option.all_some, SubmissionCommand.checks, hclaimed] at hchecks
  obtain ⟨⟨⟨⟨⟨_, _⟩, hsubmitted⟩, _⟩, hauthority⟩, hmetadata⟩ := hchecks
  have hunsubmitted : attempt.submittedAt.isNone = true :=
    hsubmitted.resolve_right fun hfinished => hstage hfinished.1
  simp [Submission.checks, requeueRow, SubmissionCommand.checks, hmetadata.2,
    Option.isNone_iff_eq_none.mp hunsubmitted]
  exact hauthority

theorem requeueAttempt_failsOnly (hdb : StoreOk db)
    (hrow : db.submissions[id]? = some attempt) (hcommand : attempt.command = some command)
    (hclaimed : command.state = .claimed) (hstage : attempt.stage ≠ .finished) :
    FailsOnly (OverflowsLog db command.idempotencyKey)
      (requeueAttempt db id attempt command now) := by
  refine enqueueFlush_failsOnly hdb.logs rfl
    (requeueRow_checks (hdb.attempts.checks id attempt hrow) hstage hcommand hclaimed) ?_
    (by simp [requeueRow])
  rw [Db.unfinishedFree_iff]
  intro _ other row hother hne happ
  by_contra hunfinished
  exact hne (hdb.attempts.unfinished other id row attempt hother hrow happ hunfinished hstage)

def endedUnknown (attempt : Submission) (command : SubmissionCommand) (reason : ReasonCode)
    (now : Timestamp) : Submission :=
  { attempt with
    stage := .finished
    outcome := some .unknown
    status := .unknown
    finishedAt := some now
    errorMessage := none
    reasonCode := some (.code reason)
    submittedAt := none
    command := some (completeCommand command now (some (.code reason))) }

theorem endedUnknown_checks (hchecks : attempt.checks = true) (reason : ReasonCode) :
    (endedUnknown attempt command reason now).checks = true := by
  have hcompleted : ∀ text, (completeCommand command now text).checks = true := fun _ => rfl
  simp only [Submission.checks, Bool.and_eq_true] at hchecks
  simp [Submission.checks, endedUnknown, hcompleted]
  exact hchecks.1.2

theorem finishUnknown_failsOnly (hdb : StoreOk db)
    (hrow : db.submissions[id]? = some attempt)
    (hstage : attempt.stage.postcommit = true)
    (reason : UnknownReason) :
    FailsOnly (OverflowsLog db command.idempotencyKey)
      (finishAttempt db id attempt command (unknownWith reason) now) := by
  have hallowed : (unknownWith reason).kind ∈ allowedTerminalOutcomes attempt.stage := by
    cases hcurrent : attempt.stage <;> simp [hcurrent, AttemptStage.postcommit] at hstage <;>
      simp [unknownWith, CommitOutcome.kind, allowedTerminalOutcomes]
  have htransition : requireTransition attempt.stage .finished
      (some (unknownWith reason).kind) = .ok () :=
    requireTransition_eq_ok_iff.mpr (canTransition_finished_iff.mpr hallowed)
  obtain ⟨application, happlication⟩ := hdb.homed id attempt hrow
  have hfetch := fetch_eq_ok.mpr happlication
  have hclosed : ∀ closed, FailsOnly (OverflowsLog db command.idempotencyKey) (do
      let mirrored ← enqueueControlPlaneAttemptTransition
        (db.setApplication attempt.applicationId closed)
        (endedUnknown attempt command reason.val now)
        (completeCommand command now (some (.code reason.val))) now true
      mirrored.flushSubmission id (endedUnknown attempt command reason.val now)) := by
    intro closed
    have hlogs : LogsOk (db.setApplication attempt.applicationId closed) :=
      hdb.logs.congr rfl rfl
    exact enqueueFlush_failsOnly hlogs rfl
      (endedUnknown_checks (hdb.attempts.checks id attempt hrow) _)
      (Db.unfinishedFree_iff.mpr fun hunfinished => absurd rfl hunfinished)
      (by simp [endedUnknown])
  unfold finishAttempt
  simp only [htransition, projectLegacyStatus_finished, hfetch]
  exact hclosed _

/-- A stale claim is requeued or closed, unless the log of its command is full. -/
theorem reconcileStaleClaim_failsOnly (hdb : StoreOk db)
    (hrows : AllRows db.submissions LifecycleOk) :
    FailsOnly (fun error => ∃ key, Keyed db id key ∧ OverflowsLog db key error)
      (reconcileStaleClaim held cutoff now db id) := by
  unfold reconcileStaleClaim
  split
  · exact .ok _
  next attempt hrow =>
  split
  · exact .ok _
  split
  · exact .ok _
  next command hcommand =>
  have hkeyed : Keyed db id command.idempotencyKey :=
    ⟨attempt, hrow, by simp [attemptBindings, hcommand]⟩
  split
  · exact .ok _
  next hstale =>
  have hclaimed : command.state = .claimed := by
    have hstale := not_not.mp hstale
    simp only [claimStale, hcommand, Option.any_some, Bool.and_eq_true,
      decide_eq_true_eq] at hstale
    exact hstale.1
  have hok := (hrows id attempt hrow).agrees command hcommand
  split
  · next hcrossed =>
    exact (finishUnknown_failsOnly hdb hrow
      ((hok.crossed_iff hclaimed).mp hcrossed) _).mono
      fun error hfull => ⟨_, hkeyed, hfull⟩
  · refine (requeueAttempt_failsOnly hdb hrow hcommand hclaimed ?_).mono
      fun error hfull => ⟨_, hkeyed, hfull⟩
    intro hfinished
    have hstage := hok.claimed.mp hclaimed
    simp [claimedStages, hfinished] at hstage

theorem nodup_staleCandidates : (staleCandidates db cutoff).Nodup := by
  unfold staleCandidates
  refine ((List.perm_insertionSort _ _).nodup_iff).mpr ?_
  have hindices : (db.submissions.zipIdx.map Prod.snd).Nodup := by
    rw [List.zipIdx_map_snd]
    exact List.nodup_range'
  exact hindices.sublist (List.filter_sublist.map _)

/-- The batch runs to its end unless the log of one of its commands is full: no item
touches the log of a later one. -/
theorem reconcileStale_failsOnly {origin : Db} {ids : List ℕ} (hnodup : ids.Nodup)
    (hdb : StoreOk db) (hrows : AllRows db.submissions LifecycleOk)
    (hfull : ∀ id ∈ ids, ∀ key, Keyed db id key → LogFull db key → LogFull origin key) :
    FailsOnly (fun error => ∃ key, OverflowsLog origin key error)
      (ids.foldlM (reconcileStaleClaim held cutoff now) db) := by
  induction ids generalizing db with
  | nil => exact .ok _
  | cons id rest ih =>
    rw [List.foldlM_cons]
    rw [List.nodup_cons] at hnodup
    refine FailsOnly.bind ?_ fun middle hmiddle => ?_
    · refine (reconcileStaleClaim_failsOnly hdb hrows).mono ?_
      rintro error ⟨key, hkeyed, herror, hlog⟩
      exact ⟨key, herror, hfull id (by simp) key hkeyed hlog⟩
    · rcases reconcileStaleClaim_eq_ok hdb.logs.outbox hmiddle with
        rfl | ⟨move, old, new, hmove, hfree, _, hmoved⟩
      · exact ih hnodup.2 hdb hrows fun other hother =>
          hfull other (List.mem_cons_of_mem _ hother)
      · have hchange : Change held .stale db middle :=
          .moved (by rcases hmove with rfl | rfl <;> decide)
            (by rcases hmove with rfl | rfl <;> decide) ⟨old, hmoved.row, hfree⟩
            ⟨old, new, hmoved⟩
        refine ih hnodup.2 (hdb.change hchange) ?_ fun other hother key hkeyed hlog => ?_
        · rw [hmoved.transaction.submissions]
          exact hrows.set (hmoved.step.lifecycleOk (hrows id old hmoved.row))
        · have hkeyed' : Keyed db other key :=
            (hmoved.transaction.rebound hmoved.row hmoved.step.bindings).keyed_iff.mp hkeyed
          obtain ⟨receipt, hreceipt, hlength⟩ := hlog
          have hsame : receiptFor db key = some receipt := by
            simpa [receiptFor, hmoved.transaction.authority.receipts] using hreceipt
          have hne : other ≠ id := fun heq => hnodup.1 (heq ▸ hother)
          rw [hmoved.eventsFor hdb hne hkeyed' hsame] at hlength
          exact hfull other (List.mem_cons_of_mem _ hother) key hkeyed'
            ⟨receipt, hsame, hlength⟩

end Reconciler

/-! ## Every action -/

section Actions

variable {ε : Type}

theorem transact_unrefused {result : Except ε Db}
    (hresult : ∀ found, result = .error found → wrap found = .kernel error → Unrefused error)
    (htransact : transact state wrap blocked result = .error (.kernel error)) :
    Unrefused error := by
  unfold transact at htransact
  split at htransact
  · cases htransact
  split at htransact
  · next found => exact hresult found rfl (Except.error.inj htransact)
  · cases htransact

theorem transactClaim_unrefused {result : Except ε (Db × Option ℕ)}
    (hresult : ∀ found, result = .error found → wrap found = .kernel error → Unrefused error)
    (htransact : transactClaim state wrap result = .error (.kernel error)) :
    Unrefused error := by
  unfold transactClaim at htransact
  split at htransact
  · next found => exact hresult found rfl (Except.error.inj htransact)
  · cases htransact

theorem performWork_unrefused (hlifecycles : LifecyclesOk state)
    (hwork : performWork zone state index event = .error (.kernel error)) :
    Unrefused error := by
  unfold performWork at hwork
  split at hwork
  · cases hwork
  next worker hworker =>
  split at hwork
  · cases hwork
  split at hwork
  · cases hwork
  · next hstep =>
    cases hwork
    exact workerStep_unrefused
      (fun stage hstage => hlifecycles.phases index worker stage hworker hstage)
      hstep _ rfl
  · cases hwork

theorem reconcileStale_overflows (hlocal : LocalOk state) (hlifecycles : LifecyclesOk state)
    (held : ℕ → Bool) (now : Timestamp) (staleSeconds : ℤ) :
    FailsOnly (fun error => ∃ key, OverflowsLog state.db key error)
      (reconcileStaleSubmissionCommands state.db held now staleSeconds) :=
  reconcileStale_failsOnly nodup_staleCandidates hlocal.store hlifecycles.rows
    fun _ _ _ _ hfull => hfull

/-- No action of the typed lifecycle fails at the state machine. -/
theorem perform_unrefused (hlocal : LocalOk state) (hlifecycles : LifecyclesOk state)
    (htyped : action.kind ≠ .legacy)
    (hperform : perform zone state action = .error (.kernel error)) : Unrefused error := by
  have hkernel : ∀ {result : Except KernelError Db} {blocked : Bool},
      FailsOnly Unrefused result →
      transact state .kernel blocked result = .error (.kernel error) → Unrefused error := by
    intro result blocked hresult
    exact transact_unrefused fun found hfound hwrap =>
      ActionError.kernel.inj hwrap ▸ hresult found hfound
  cases action with
  | claim only now runner runtime =>
    exact transactClaim_unrefused (fun found hfound hwrap =>
      ActionError.kernel.inj hwrap ▸ claimSubmissionCommand_unrefused found hfound) hperform
  | work index event => exact performWork_unrefused hlifecycles hperform
  | reconcileStale now staleSeconds =>
    refine hkernel ((reconcileStale_overflows hlocal hlifecycles _ _ _).mono ?_) hperform
    rintro found ⟨key, rfl, _⟩
    trivial
  | skip => exact hkernel skipApplication_unrefused hperform
  | retry => exact hkernel retryApplication_unrefused hperform
  | reconcile => exact hkernel reconcileAttempt_unrefused hperform
  | legacyClaim | legacyMarkStale | legacyMarkUnknown => exact absurd rfl htyped
  | claimProjection | claimRevocation =>
    exact transactClaim_unrefused (fun _ _ hwrap => by cases hwrap) hperform
  | claimEvent =>
    simp only [perform, transactClaim] at hperform
    cases hperform
  | evaluate | killSwitch | remoteKillSwitch | activatePolicy | revokePolicy | mint
  | markProjected | releaseProjection | markRevoked | releaseRevocation =>
    exact transact_unrefused (fun _ _ hwrap => by cases hwrap) hperform
  | environment | load | finishDelivery =>
    simp only [perform] at hperform
    split at hperform <;> cases hperform
  | beginAdmission =>
    simp only [perform] at hperform
    split at hperform
    · cases hperform
    · split at hperform <;> cases hperform
  | accept command readings =>
    simp only [perform, performAccept] at hperform
    split at hperform
    · cases hperform
    · split at hperform <;> cases hperform
  | lookup | admitItem | commitAdmission | resolveConflict | abortAdmission =>
    simp only [perform, performAdmission] at hperform
    split at hperform
    all_goals first
      | cases hperform
      | split at hperform <;> cases hperform

/-- However admissions, claims, executions, stale reconciliations, skips and operator
reconciliations interleave, the columns of every attempt with a command agree.  So the
state machine refuses none of their transitions: not in a transaction that fails, not in
the one that settles a report, and not in the batch of stale claims, which only stops at
a command whose log of events is full. -/
theorem representation_kept (hreach : (localSystem zone).Reachable typedStep state) :
    (AllRows state.db.submissions fun attempt =>
      ∀ command, attempt.command = some command → CommandOk attempt command) ∧
    (∀ action, action.kind ≠ .legacy → ∀ error,
      perform zone state action = .error (.kernel error) → Unrefused error) ∧
    (∀ id token attempt command, commitContext state.db id token = some (attempt, command) →
      ∀ report finishedAt now, FailsOnly Unrefused (settleCommit state.db id attempt command
        (commitOutcome id attempt report finishedAt) now)) ∧
    ∀ held now staleSeconds error,
      reconcileStaleSubmissionCommands state.db held now staleSeconds = .error error →
      ∃ key, OverflowsLog state.db key error := by
  obtain ⟨⟨hlocal, _⟩, hlifecycles⟩ := lifecyclesOk_invariant.reachable hreach
  refine ⟨fun id attempt hattempt => (hlifecycles.rows id attempt hattempt).agrees,
    fun action htyped error hperform => perform_unrefused hlocal hlifecycles htyped hperform,
    fun id token attempt command hcontext report finishedAt now => ?_, ?_⟩
  · exact settleCommit_unrefused (commitContext_eq_some hcontext).2.2.2.2.1
  · exact fun held now staleSeconds error herror =>
      reconcileStale_overflows hlocal hlifecycles held now staleSeconds error herror

end Actions

/-- The sample run finishes its attempt. -/
theorem representation_kept_sample :
    ∃ attempt command, sampleCalled.db.submissions[0]? = some attempt ∧
      attempt.command = some command ∧ CommandOk attempt command := by
  have hreach : (localSystem sampleZone).Reachable typedStep sampleCalled :=
    endOf_reachable (fun _ => by
      simp [typedStep, sampleAdmit, samplePreflight, sampleCommit, Action.kind])
      sampleState_initial
  exact ⟨_, _, rfl, rfl, (representation_kept hreach).1 0 _ rfl _ rfl⟩

end JobApplyAgent.Kernel
