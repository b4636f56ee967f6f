import JobApplyAgent.Kernel.AtMostOnce

/-!
# The representation of an attempt

The stage, the outcome, the command and the permit of an admitted attempt tell
one story in every state that the typed lifecycle reaches, so none of its
transitions is ever refused.
-/

namespace JobApplyAgent.Kernel

open Domain Store Library

def claimedStages : List AttemptStage :=
  [.inspecting, .preparing, .ready, .committing, .verifying]

/-- The columns of an attempt with a command agree. -/
structure CommandOk (attempt : Submission) (command : SubmissionCommand) : Prop where
  pending : command.state = .pending ↔ attempt.stage = .queued
  claimed : command.state = .claimed ↔ attempt.stage ∈ claimedStages
  token : command.state = .claimed → command.claimToken.isSome = true
  ended : command.state = .completed ∨ command.state = .cancelled ↔
    attempt.stage = .finished
  outcome : attempt.outcome.isSome = true ↔ attempt.stage = .finished
  permit : ∃ permit, attempt.permit = some permit ∧
    (permit.consumedAt.isSome = true ↔ attempt.finalActionAt.isSome = true)
  precommit : attempt.stage.precommit = true → attempt.finalActionAt = none
  postcommit : attempt.stage.postcommit = true → attempt.finalActionAt.isSome = true

/-- What the lifecycle keeps of one attempt. -/
structure LifecycleOk (attempt : Submission) : Prop where
  agrees : ∀ command, attempt.command = some command → CommandOk attempt command
  running : attempt.command ≠ none → attempt.stage ≠ .finished → attempt.status ≠ .unknown

theorem CommandOk.consumed_iff (hok : CommandOk attempt command) :
    attempt.permitConsumed = true ↔ attempt.finalActionAt.isSome = true := by
  obtain ⟨permit, hpermit, hconsumed⟩ := hok.permit
  simpa [Submission.permitConsumed, hpermit] using hconsumed

/-- A claimed attempt stands before its boundary or behind it. -/
theorem CommandOk.crossed_iff (hok : CommandOk attempt command)
    (hstate : command.state = .claimed) :
    crossedBoundary attempt = true ↔ attempt.stage.postcommit = true := by
  have hstage := hok.claimed.mp hstate
  have hprecommit := hok.precommit
  simp only [crossedBoundary, Bool.or_eq_true, hok.consumed_iff]
  simp only [claimedStages, List.mem_cons, List.not_mem_nil, or_false] at hstage
  rcases hstage with hstage | hstage | hstage | hstage | hstage <;>
    simp [hstage, AttemptStage.postcommit, AttemptStage.precommit] at hprecommit ⊢ <;>
    simp [hprecommit]

theorem Finished.lifecycleOk (hfinished : Finished old owner ending now new)
    (hpermit : ∃ permit, old.permit = some permit ∧
      (permit.consumedAt.isSome = true ↔ old.finalActionAt.isSome = true)) :
    LifecycleOk new where
  agrees := by
    intro stored hstored
    rw [hfinished.command, Option.some.injEq] at hstored
    subst hstored
    have hstage := hfinished.stage
    refine ⟨by simp [completeCommand, hstage], by simp [completeCommand, hstage, claimedStages],
      by simp [completeCommand], by simp [completeCommand, hstage],
      by simp [hfinished.outcome, hstage], ?_, by simp [hstage, AttemptStage.precommit],
      by simp [hstage, AttemptStage.postcommit]⟩
    rw [hfinished.permit, hfinished.finalActionAt]
    exact hpermit
  running := fun _ hunfinished => absurd hfinished.stage hunfinished

/-- Every move of the lifecycle keeps the columns in agreement. -/
theorem AttemptStep.lifecycleOk (hstep : AttemptStep move old new)
    (hold : LifecycleOk old) : LifecycleOk new := by
  cases hstep with
  | claim now runner token hcommand hstate hstage =>
    have hok := hold.agrees _ hcommand
    refine ⟨fun command hnew => ?_, by simp [claimRow]⟩
    cases hnew
    have hnone := hok.precommit (by rw [hstage]; rfl)
    exact ⟨by simp [claimRow], by simp [claimRow, claimedStages], by simp,
      by simp [claimRow], by simp [claimRow], hok.permit, fun _ => hnone,
      by simp [claimRow, AttemptStage.postcommit]⟩
  | cancelInvalid now hcommand hstate hstage =>
    exact absurd ((hold.agrees _ hcommand).pending.mp hstate) hstage
  | preflight hcommand hstate hstage =>
    have hok := hold.agrees _ hcommand
    refine ⟨fun command hnew => ?_, by simp [stageRow]⟩
    cases hnew
    have hnone := hok.precommit (by rw [hstage]; rfl)
    exact ⟨by simp [stageRow, hstate], by simp [stageRow, hstate, claimedStages],
      hok.token, by simp [stageRow, hstate], by simp [stageRow], hok.permit,
      fun _ => hnone, by simp [stageRow, AttemptStage.postcommit]⟩
  | ready now hcommand hstate hstage =>
    have hok := hold.agrees _ hcommand
    refine ⟨fun command hnew => ?_, by simp [stageRow]⟩
    cases hnew
    have hnone := hok.precommit (by rw [hstage]; rfl)
    exact ⟨by simp [stageRow, renewLease, hstate],
      by simp [stageRow, renewLease, hstate, claimedStages], hok.token,
      by simp [stageRow, renewLease, hstate], by simp [stageRow], hok.permit,
      fun _ => hnone, by simp [stageRow, AttemptStage.postcommit]⟩
  | boundary now hcommand hstate hstage hpermit hunspent =>
    have hok := hold.agrees _ hcommand
    refine ⟨fun command hnew => ?_, by simp [boundaryRow]⟩
    cases hnew
    exact ⟨by simp [boundaryRow, renewLease, hstate],
      by simp [boundaryRow, renewLease, hstate, claimedStages], hok.token,
      by simp [boundaryRow, renewLease, hstate], by simp [boundaryRow],
      ⟨_, rfl, by simp [boundaryRow]⟩, by simp [boundaryRow, AttemptStage.precommit],
      by simp [boundaryRow]⟩
  | @finish _ _ command _ now hcommand hstate hfinished =>
    exact hfinished.lifecycleOk (hold.agrees _ hcommand).permit
  | @verify _ _ command _ now hcommand hstate hstage hfinished =>
    exact hfinished.lifecycleOk (hold.agrees _ hcommand).permit
  | requeue hcommand hstate hcrossed =>
    have hok := hold.agrees _ hcommand
    refine ⟨fun command hnew => ?_, by simp [requeueRow]⟩
    cases hnew
    have hnone : old.finalActionAt = none := by
      simp only [crossedBoundary, Bool.or_eq_false_iff] at hcrossed
      cases hacted : old.finalActionAt with
      | none => rfl
      | some instant =>
        have hconsumed := hok.consumed_iff.mpr (by rw [hacted]; rfl)
        rw [hcrossed.2] at hconsumed
        cases hconsumed
    exact ⟨by simp [requeueRow], by simp [requeueRow, claimedStages], by simp,
      by simp [requeueRow], by simp [requeueRow], hok.permit, fun _ => hnone,
      by simp [requeueRow, AttemptStage.postcommit]⟩
  | cancel reason now hstage hacted hconsumed hstate =>
    refine ⟨fun command hnew => ?_, fun _ hunfinished => absurd rfl hunfinished⟩
    obtain ⟨stored, hstored, rfl⟩ := Option.map_eq_some_iff.mp hnew
    exact ⟨by simp [cancelRow, cancelCommand],
      by simp [cancelRow, cancelCommand, claimedStages], by simp [cancelCommand],
      by simp [cancelRow, cancelCommand], by simp [cancelRow],
      (hold.agrees _ hstored).permit, by simp [cancelRow, AttemptStage.precommit],
      by simp [cancelRow, AttemptStage.postcommit]⟩
  | reconcile request now hreconciliable =>
    refine ⟨fun command hcommand => ?_, fun _ hunfinished => absurd rfl hunfinished⟩
    have hcommand : old.command = some command := hcommand
    have hok := hold.agrees command hcommand
    have hfinished : old.stage = .finished := by
      by_contra hunfinished
      have hrunning := hold.running (by rw [hcommand]; simp) hunfinished
      have hnone : old.outcome = none := by
        rw [← Option.not_isSome_iff_eq_none, hok.outcome]
        exact hunfinished
      simp [reconciliable, hnone, hrunning] at hreconciliable
    have hended := hok.ended.mpr hfinished
    refine ⟨?_, ?_, hok.token, by simpa [reconciledRow] using hended, ?_, hok.permit,
      by simp [reconciledRow, AttemptStage.precommit],
      by simp [reconciledRow, AttemptStage.postcommit]⟩
    · rcases hended with hended | hended <;> simp [reconciledRow, hended]
    · rcases hended with hended | hended <;>
        simp [reconciledRow, hended, claimedStages]
    · cases houtcome : request.outcome <;> simp [reconciledRow, houtcome]

/-- A reconciliation finds a finished attempt, so it has no live claim to drop. -/
theorem LifecycleOk.reconciliable (hold : LifecycleOk old)
    (hreconciliable : Kernel.reconciliable old = true) : currentClaim old = none := by
  cases hcommand : old.command with
  | none => simp [currentClaim, hcommand]
  | some command =>
    have hok := hold.agrees command hcommand
    refine currentClaim_eq_none hcommand fun hclaimed => ?_
    have hstage := hok.claimed.mp hclaimed
    have hunfinished : old.stage ≠ .finished := by
      rintro hfinished
      simp [claimedStages, hfinished] at hstage
    have hrunning := hold.running (by rw [hcommand]; simp) hunfinished
    have hnone : old.outcome = none := by
      rw [← Option.not_isSome_iff_eq_none, hok.outcome]
      exact hunfinished
    simp [Kernel.reconciliable, hnone, hrunning] at hreconciliable

theorem RowStep.lifecycleOk (hstep : RowStep db kind old new) (hkind : kind ≠ .legacy)
    (hold : LifecycleOk old) : LifecycleOk new := by
  cases hstep with
  | same => exact hold
  | moved _ hstep => exact hstep.lifecycleOk hold
  | quarantined => exact absurd rfl hkind

theorem AdmittedRow.lifecycleOk (hrow : AdmittedRow request new) : LifecycleOk new where
  agrees := by
    intro command hcommand
    obtain ⟨now, hpending⟩ := hrow.command
    rw [hpending, Option.some.injEq] at hcommand
    subst hcommand
    obtain ⟨permit, hpermit, hunspent⟩ := hrow.permit
    refine ⟨by simp [pendingCommand, hrow.stage], by
        simp [pendingCommand, hrow.stage, claimedStages], by simp [pendingCommand],
      by simp [pendingCommand, hrow.stage], by simp [hrow.stage, hrow.outcome],
      ⟨permit, hpermit, by simp [hunspent, hrow.finalActionAt]⟩,
      fun _ => hrow.finalActionAt, by simp [hrow.stage, AttemptStage.postcommit]⟩
  running := by
    intro _ _
    simp [hrow.status]

theorem FreshRow.lifecycleOk (hfresh : FreshRow db kind new) (hkind : kind ≠ .legacy) :
    LifecycleOk new := by
  cases hfresh with
  | admitted hrow => exact hrow.lifecycleOk
  | inserted => exact absurd rfl hkind

/-! ## The executions -/

/-- The moves that end the claim on an attempt. -/
def droppingMoves : List AttemptMove :=
  [.cancelInvalid, .finish, .verify, .requeue, .cancel, .reconcile]

theorem AttemptStep.dropped (hstep : AttemptStep move old new)
    (hold : LifecycleOk old) (hmove : move ∈ droppingMoves) : currentClaim new = none := by
  cases hstep with
  | claim | preflight | ready | boundary => simp [droppingMoves] at hmove
  | cancelInvalid now hcommand => exact currentClaim_eq_none rfl (by simp)
  | finish now hcommand hstate hfinished => exact hfinished.dropped
  | verify now hcommand hstate hstage hfinished => exact hfinished.dropped
  | requeue hcommand => exact currentClaim_eq_none rfl (by simp)
  | cancel reason now hstage hacted hconsumed hstate =>
    cases hcommand : old.command <;> simp [currentClaim, cancelRow, cancelCommand, hcommand]
  | reconcile request now hreconciliable => exact hold.reconciliable hreconciliable

/-- What an action outside the executions leaves of an attempt: a live claim stays
on its stage, is dropped, or is a new one. -/
structure StageStep (low : ℕ) (old new : Submission) : Prop where
  lifecycle : LifecycleOk old → LifecycleOk new
  claim : LifecycleOk old → currentClaim new = none ∨
    currentClaim new = currentClaim old ∧ new.stage = old.stage ∨
    ∃ token, currentClaim new = some token ∧ low ≤ token

theorem StageStep.refl (attempt : Submission) : StageStep low attempt attempt :=
  ⟨fun hold => hold, fun _ => .inr (.inl ⟨rfl, rfl⟩)⟩

theorem StageStep.trans (first second third : Submission) (hfirst : StageStep low first second)
    (hsecond : StageStep low second third) :
    StageStep low first third where
  lifecycle := fun hold => hsecond.lifecycle (hfirst.lifecycle hold)
  claim := by
    intro hold
    rcases hsecond.claim (hfirst.lifecycle hold) with hnone | ⟨hsame, hstage⟩ | hdrawn
    · exact .inl hnone
    · rw [hsame, hstage]
      exact hfirst.claim hold
    · exact .inr (.inr hdrawn)

theorem RowStep.stageStep (hstep : RowStep db kind old new) (hclaim : kind ≠ .claim)
    (hwork : kind ≠ .work) (hlegacy : kind ≠ .legacy) (low : ℕ) : StageStep low old new := by
  refine ⟨hstep.lifecycleOk hlegacy, fun hold => ?_⟩
  cases hstep with
  | same => exact .inr (.inl ⟨rfl, rfl⟩)
  | @moved _ move _ _ hmove hstep =>
    have hdropping : move ∈ droppingMoves := by
      cases kind <;> simp only [ActionKind.allows, List.not_mem_nil, ne_eq,
        not_true_eq_false, List.mem_cons, or_false] at hmove hclaim hwork
      · rcases hmove with rfl | rfl <;> decide
      all_goals
        subst hmove
        decide
    exact .inl (hstep.dropped hold hdropping)
  | quarantined => exact absurd rfl hlegacy

def ClaimedSince (low : ℕ) (attempt : Submission) : Prop :=
  ∀ token, currentClaim attempt = some token → low ≤ token

/-- What an action outside the executions leaves of the table of attempts. -/
def StagesKept (low : ℕ) (before after : Db) : Prop :=
  Evolved (StageStep low) (fun row => LifecycleOk row ∧ ClaimedSince low row)
    before.submissions after.submissions

theorem Changes.stagesKept (hchanges : Changes held kind before after) (hclaim : kind ≠ .claim)
    (hwork : kind ≠ .work)
    (hlegacy : kind ≠ .legacy) (low : ℕ) :
    StagesKept low before after := by
  refine hchanges.submissions .refl .trans ?_ ?_ ?_
  · rintro old new ⟨hold, hsince⟩ hstep
    refine ⟨hstep.lifecycle hold, fun token htoken => ?_⟩
    rcases hstep.claim hold with hdropped | ⟨hsame, _⟩ | ⟨drawn, hdrawn, hlow⟩
    · rw [hdropped] at htoken
      cases htoken
    · exact hsince token (hsame ▸ htoken)
    · rw [hdrawn, Option.some.injEq] at htoken
      exact htoken ▸ hlow
  · exact fun _ _ _ hstep => hstep.stageStep hclaim hwork hlegacy low
  · intro _ row hfresh
    refine ⟨hfresh.lifecycleOk hlegacy, fun token htoken => ?_⟩
    rw [hfresh.unclaimed] at htoken
    cases htoken

/-- The stage that an execution left its attempt in. -/
def WorkerPhase.stage : WorkerPhase → Option AttemptStage
  | .preflighting | .returned _ => some .preparing
  | .readied _ => some .ready
  | .entered _ => some .committing
  | _ => none

theorem WorkerPhase.pastPreflight_of_stage {phase : WorkerPhase} {stage : AttemptStage}
    (hstage : phase.stage = some stage) :
    phase.pastPreflight = true ∧ stage ≠ .inspecting := by
  cases phase <;> cases hstage <;> exact ⟨rfl, by decide⟩

/-- The columns of every attempt agree, and an execution finds its attempt in the
stage that it left it in for as long as its claim lasts. -/
structure LifecyclesOk (state : LocalState) : Prop where
  rows : AllRows state.db.submissions LifecycleOk
  phases : ∀ (index : ℕ) (worker : Worker) (stage : AttemptStage),
    state.workers[index]? = some worker → worker.phase.stage = some stage →
    ∀ attempt, state.db.submissions[worker.attempt]? = some attempt →
      currentClaim attempt = some worker.token → attempt.stage = stage

theorem LifecyclesOk.initial (hinitial : InitialState state) : LifecyclesOk state where
  rows := by
    intro id attempt hattempt
    have himported := hinitial.db.imported id attempt hattempt
    refine ⟨fun command hcommand => ?_, fun hcommand => absurd himported.command hcommand⟩
    rw [himported.command] at hcommand
    cases hcommand
  phases := by simp [hinitial.workers]

/-- Transactions that write only the database keep the stages of the executions. -/
theorem LifecyclesOk.database (hlifecycles : LifecyclesOk state)
    (hexecutions : ExecutionsOk state)
    (hkept : StagesKept state.nextToken state.db after.db)
    (hworkers : after.workers = state.workers) : LifecyclesOk after where
  rows := hkept.allRows hlifecycles.rows (fun _ _ hold hstep => hstep.lifecycle hold)
    fun _ hfresh => hfresh.1
  phases := by
    rw [hworkers]
    intro index worker stage hworker hstage attempt hattempt hclaim
    have hloaded := hexecutions.loaded index worker hworker
    rcases hkept.origin worker.attempt attempt hattempt with
      ⟨old, hold, hstep⟩ | ⟨_, _, hsince⟩
    · rcases hstep.claim (hlifecycles.rows _ old hold) with
        hnone | ⟨hsame, hrow⟩ | ⟨token, hdrawn, hlow⟩
      · rw [hnone] at hclaim
        cases hclaim
      · rw [hrow]
        exact hlifecycles.phases index worker stage hworker hstage old hold (hsame ▸ hclaim)
      · rw [hdrawn, Option.some.injEq] at hclaim
        omega
    · exact absurd (hsince _ hclaim) (by omega)

theorem WorkerMove.owned (hmove : WorkerMove db worker event result) :
    result.db = db ∨ ∃ move old new, MovedTo db worker.attempt move old new result.db ∧
      currentClaim old = some worker.token ∧ move ≠ .claim ∧
      (move ∈ droppingMoves ∨ move = .preflight ∨ worker.phase.pastPreflight = true) := by
  have howner : ∀ {old : Submission}, db.submissions[worker.attempt]? = some old →
      Owned db worker.attempt worker.token → currentClaim old = some worker.token := by
    intro old hold howned
    obtain ⟨owned, hrow, hclaim⟩ := howned.currentClaim
    rw [hold, Option.some.injEq] at hrow
    exact hrow ▸ hclaim
  cases hmove with
  | quit | fail | preflighted => exact .inl rfl
  | finished howned hmoved =>
    obtain ⟨old, new, hmoved⟩ := hmoved
    exact .inr ⟨_, old, new, hmoved, howner hmoved.row howned, by decide, .inl (by decide)⟩
  | entered hphase howned hmoved =>
    obtain ⟨old, new, hmoved⟩ := hmoved
    exact .inr ⟨_, old, new, hmoved, howner hmoved.row howned, by decide,
      .inr (.inl rfl)⟩
  | readied hphase howned hmoved =>
    obtain ⟨old, new, hmoved⟩ := hmoved
    exact .inr ⟨_, old, new, hmoved, howner hmoved.row howned, by decide,
      .inr (.inr (by rw [hphase]; rfl))⟩
  | @crossed _ _ _ old new hphase howned hmoved =>
    exact .inr ⟨_, old, new, hmoved, howner hmoved.row howned, by decide,
      .inr (.inr (by rw [hphase]; rfl))⟩
  | called hphase hcontext hafter =>
    rcases hafter with rfl | ⟨move, hmove, old, new, hmoved⟩
    · exact .inl rfl
    obtain ⟨hrow, hcommand, hstate, htoken, _⟩ := commitContext_eq_some hcontext
    have hclaim := (currentClaim_claimed hcommand hstate).trans htoken
    rw [hmoved.row, Option.some.injEq] at hrow
    subst hrow
    refine .inr ⟨move, old, new, hmoved, hclaim, ?_⟩
    rcases hmove with rfl | rfl <;> exact ⟨by decide, .inl (by decide)⟩

/-- An event of one execution leaves the stages of the other executions. -/
theorem LifecyclesOk.others (hlifecycles : LifecyclesOk state) (hexecutions : ExecutionsOk state)
    (hworker : state.workers[index]? = some worker)
    (hmove : WorkerMove state.db worker event result) {other : ℕ}
    (hrival : state.workers[other]? = some rival) (hne : other ≠ index) {stage : AttemptStage}
    (hstage : rival.phase.stage = some stage)
    (hattempt : result.db.submissions[rival.attempt]? = some attempt)
    (hclaim : currentClaim attempt = some rival.token) : attempt.stage = stage := by
  obtain ⟨hpast, hinspecting⟩ := WorkerPhase.pastPreflight_of_stage hstage
  rcases hmove.owned with hsame | ⟨move, old, new, hmoved, howner, hmove, hcases⟩
  · rw [hsame] at hattempt
    exact hlifecycles.phases other rival stage hrival hstage attempt hattempt hclaim
  · rw [hmoved.transaction.submissions] at hattempt
    rcases getElem?_set_eq_some hattempt with ⟨hid, rfl⟩ | ⟨_, hattempt⟩
    · have hold := hlifecycles.rows _ old hmoved.row
      have hkept : currentClaim attempt = currentClaim old := by
        rcases hmoved.step.claimKept hmove with hnone | ⟨hsame, _⟩
        · rw [hnone] at hclaim
          cases hclaim
        · exact hsame
      have htoken : rival.token = worker.token := by
        rw [hkept, howner, Option.some.injEq] at hclaim
        exact hclaim.symm
      have hstaged := hlifecycles.phases other rival stage hrival hstage old
        (hid ▸ hmoved.row) (htoken ▸ howner)
      rcases hcases with hdropping | rfl | hphase
      · rw [hmoved.step.dropped hold hdropping] at hclaim
        cases hclaim
      · cases hmoved.step with
        | preflight hcommand hstate hinspected =>
          exact absurd (hstaged.symm.trans hinspected) hinspecting
      · have hquiet := hexecutions.alone other index rival worker hrival hworker hne
          hid htoken hpast
        rw [hphase] at hquiet
        cases hquiet
    · exact hlifecycles.phases other rival stage hrival hstage attempt hattempt hclaim

theorem LifecyclesOk.work (hlocal : LocalOk state) (hexecutions : ExecutionsOk state)
    (hlifecycles : LifecyclesOk state)
    (hperform : perform zone state (.work index event) = .ok after) :
    LifecyclesOk after := by
  have hchanges : Changes state.locked .work state.db after.db :=
    perform_change hlocal.store.logs.outbox hlocal.admissions hperform
  obtain ⟨worker, result, hworker, _, hmove, rfl⟩ :=
    performWork_eq_ok hlocal.store.logs.outbox hperform
  refine ⟨?_, ?_⟩
  · have hrows : Evolved (fun old new => LifecycleOk old → LifecycleOk new) LifecycleOk
        state.db.submissions result.db.submissions :=
      hchanges.submissions (fun _ hold => hold)
        (fun _ _ _ hfirst hsecond hold => hsecond (hfirst hold))
        (fun _ _ hold hstep => hstep hold) (fun _ _ _ hstep => hstep.lifecycleOk (by decide))
        (fun _ _ hfresh => hfresh.lifecycleOk (by decide))
    exact hrows.allRows hlifecycles.rows (fun _ _ hold hstep => hstep hold)
      fun _ hfresh => hfresh
  · intro other found stage hfound hstage attempt hattempt hclaim
    rcases getElem?_set_eq_some hfound with ⟨rfl, rfl⟩ | ⟨hne, hrival⟩
    · -- the execution itself: its new phase names the stage of the new row
      have hentered : ∀ {move : AttemptMove} {old new : Submission},
          MovedTo state.db worker.attempt move old new result.db → attempt = new := by
        intro move old new hmoved
        change result.db.submissions[worker.attempt]? = some attempt at hattempt
        rw [hmoved.transaction.submissions, getElem?_set_self_of_some hmoved.row,
          Option.some.injEq] at hattempt
        exact hattempt.symm
      cases hmove with
      | quit | fail | finished | called => cases hstage
      | preflighted hphase =>
        exact hlifecycles.phases other worker stage hworker (by rw [hphase]; exact hstage)
          attempt hattempt hclaim
      | entered hphase howned hmoved =>
        obtain ⟨old, new, hmoved⟩ := hmoved
        rw [hentered hmoved]
        cases hstage
        cases hmoved.step
        rfl
      | readied hphase howned hmoved =>
        obtain ⟨old, new, hmoved⟩ := hmoved
        rw [hentered hmoved]
        cases hstage
        cases hmoved.step
        rfl
      | crossed hphase howned hmoved =>
        rw [hentered hmoved]
        cases hstage
        cases hmoved.step
        rfl
    · exact hlifecycles.others hexecutions hworker hmove hrival hne hstage hattempt hclaim

theorem claim_stagesKept (hlocal : LocalOk state)
    (hperform : perform zone state (.claim only now runner runtime) = .ok after) :
    StagesKept state.nextToken state.db after.db := by
  obtain ⟨db, answer, hclaim, rfl⟩ := transactClaim_eq_ok hperform
  have hstored : ∀ {id : ℕ} {move : AttemptMove} {old new : Submission},
      MovedTo state.db id move old new db →
      (LifecycleOk old → currentClaim new = none ∨
        currentClaim new = some state.nextToken) →
      StagesKept state.nextToken state.db db := by
    intro id move old new hmoved hnew
    unfold StagesKept
    rw [hmoved.transaction.submissions]
    refine (Carried.set .refl hmoved.row
      ⟨fun hold => hmoved.step.lifecycleOk hold, fun hold => ?_⟩).evolved _
    rcases hnew hold with hnone | hdrawn
    · exact .inl hnone
    · exact .inr (.inr ⟨_, hdrawn, le_refl _⟩)
  rcases claimSubmissionCommand_eq_ok hlocal.store.logs.outbox hclaim with
    rfl | ⟨id, _, ⟨move, hmove, old, new, hmoved⟩ | ⟨old, new, hmoved, htoken⟩⟩
  · exact .refl .refl _ _
  · have hdropping : move ∈ droppingMoves := by rcases hmove with rfl | rfl <;> decide
    exact hstored hmoved fun hold => .inl (hmoved.step.dropped hold hdropping)
  · exact hstored hmoved fun _ => .inr htoken

theorem LifecyclesOk.load (hlifecycles : LifecyclesOk state)
    (hphase : worker.phase.pastPreflight = false) :
    LifecyclesOk { state with workers := state.workers ++ [worker] } where
  rows := hlifecycles.rows
  phases := by
    intro index found stage hfound hstage
    rcases getElem?_append_singleton_eq_some hfound with ⟨_, rfl⟩ | hfound
    · rw [(WorkerPhase.pastPreflight_of_stage hstage).1] at hphase
      cases hphase
    · exact hlifecycles.phases index found stage hfound hstage

theorem LifecyclesOk.perform (hlocal : LocalOk state) (hexecutions : ExecutionsOk state)
    (hlifecycles : LifecyclesOk state) (hlegacy : action.kind ≠ .legacy)
    (hperform : Kernel.perform zone state action = .ok after) : LifecyclesOk after := by
  have hchanges := perform_change hlocal.store.logs.outbox hlocal.admissions hperform
  by_cases hclaim : action.kind = .claim
  · cases action with
    | claim only now runner runtime =>
      exact hlifecycles.database hexecutions (claim_stagesKept hlocal hperform)
        (perform_workers (by rw [hclaim]; decide) hperform).1
    | _ => cases hclaim
  · by_cases hwork : action.kind = .work
    · cases action with
      | load id readings now =>
        obtain ⟨worker, hload, rfl⟩ := performLoad_eq_ok hperform
        exact hlifecycles.load (loadWorker_eq_some hload).1
      | work index event => exact hlifecycles.work hlocal hexecutions hperform
      | _ => cases hwork
    · exact hlifecycles.database hexecutions
        (hchanges.stagesKept hclaim hwork hlegacy state.nextToken)
        (perform_workers hwork hperform).1

/-- Every step of the typed lifecycle: none of the functions for the old tables. -/
def typedStep (_ : LocalState) (action : Action) : Prop := action.kind ≠ .legacy

theorem lifecyclesOk_invariant : (localSystem zone).Invariant typedStep fun state =>
    (LocalOk state ∧ ExecutionsOk state) ∧ LifecyclesOk state where
  init := fun _ hinitial =>
    ⟨⟨.initial hinitial, .initial hinitial⟩, .initial hinitial⟩
  step := fun _ _ _ hstate htyped hstep =>
    ⟨(executionsOk_invariant typedStep).step _ _ _ hstate.1 htyped hstep,
      hstate.2.perform hstate.1.1 hstate.1.2 htyped hstep⟩

end JobApplyAgent.Kernel
