import JobApplyAgent.Kernel.AdmissionInvariant

/-!
# The commit boundary

The one step that takes an attempt to `committing`: the boundary of an execution
that still holds its claim, after both of its validations.
-/

namespace JobApplyAgent.Kernel

open Domain Store Library

variable {id token : ℕ}

/-- What the boundary leaves of its checks once it is crossed at `now`. -/
structure BoundaryPassed (zone : Zone) (db : Db) (id token : ℕ) (request : BoundaryRequest)
    (application : Application) (attempt : Submission) (command : SubmissionCommand)
    (plan : FormPlan) (permit : PermitRow) : Prop where
  locked : lockClaimedContext db id token = some (application, attempt, command)
  planned : attemptPlan db attempt = some plan
  permitted : attempt.permit = some permit
  draft : reviewedDraft application attempt = true
  stage : attempt.stage = .ready
  live : plan.invalidatedAt = none
  valid : validateBoundary zone db id attempt plan permit request.action request.jobUrlHash
    request.commitAt request.second = .ok ()

variable {kind : ActionKind}

theorem rejectAtBoundary_ne_entered
    (hreject : rejectAtBoundary db id attempt command reason now = .ok (.entered after)) :
    False := by
  simp only [rejectAtBoundary, bind_eq_ok, pure_eq_ok] at hreject
  obtain ⟨_, _, hresult⟩ := hreject
  cases hresult

theorem enterCommitBoundary_passed (hdb : OutboxConsistent db)
    (henter : enterCommitBoundary zone db id token request = .ok (.entered after)) :
    ∃ application attempt command plan permit,
      BoundaryPassed zone db id token request application attempt command plan permit ∧
      after.submissions =
        db.submissions.set id (boundaryRow attempt command permit request.commitAt) := by
  unfold enterCommitBoundary at henter
  split at henter
  · cases henter
  next application attempt command hlock =>
  obtain ⟨hrow, _, hcommand, hclaimed, _⟩ := lockClaimedContext_eq_some hlock
  split at henter
  · exact (rejectAtBoundary_ne_entered henter).elim
  split at henter
  · next plan permit hplan hpermit =>
    split at henter
    · cases henter
    next hguard =>
    simp only [not_not] at hguard
    split at henter
    · exact (rejectAtBoundary_ne_entered henter).elim
    split at henter
    · exact (rejectAtBoundary_ne_entered henter).elim
    split at henter
    · exact (rejectAtBoundary_ne_entered henter).elim
    split at henter
    · exact (rejectAtBoundary_ne_entered henter).elim
    next hvalid =>
    obtain ⟨_, hresult, hmoved⟩ := crossBoundary_eq_ok
      hdb hrow hcommand hclaimed hguard.2.1 hpermit henter
    cases hresult
    exact ⟨application, attempt, command, plan, permit,
      ⟨hlock, hplan, hpermit, hguard.1, hguard.2.1, hguard.2.2, hvalid⟩,
      hmoved.transaction.submissions⟩
  · cases henter

theorem validateBoundary_eq_ok
    (hvalid : validateBoundary zone db id attempt plan permit action jobUrlHash now readings =
      .ok ()) :
    validateFinalSubmitPermit permit attempt plan jobUrlHash now = .ok () ∧
      actionBinds id action plan permit now = true := by
  unfold validateBoundary at hvalid
  split at hvalid
  · cases hvalid
  simp only [bind_eq_ok] at hvalid
  obtain ⟨_, _, _, _, _, hpermit, hvalid⟩ := hvalid
  split at hvalid
  · next hbinds => exact ⟨hpermit, hbinds⟩
  · cases hvalid

/-! ## Who crosses it -/

theorem AttemptStep.committing {move : AttemptMove} (hstep : AttemptStep move old new)
    (hmove : move ≠ .boundary) (hnew : new.stage = .committing) :
    old.stage = .committing := by
  cases hstep with
  | boundary => exact absurd rfl hmove
  | cancelInvalid => exact hnew
  | finish _ _ _ hfinished | verify _ _ _ _ hfinished =>
    rw [hfinished.stage] at hnew
    cases hnew
  | claim | preflight | ready | requeue | cancel | reconcile => cases hnew

theorem RowStep.committing (hstep : RowStep db kind old new) (hkind : kind ≠ .work)
    (hnew : new.stage = .committing) : old.stage = .committing := by
  cases hstep with
  | same => exact hnew
  | moved hmove hstep =>
    refine hstep.committing ?_ hnew
    rintro rfl
    cases kind <;> simp [ActionKind.allows] at hmove hkind
  | quarantined hstep => cases hstep <;> cases hnew

theorem FreshRow.not_committing {row : Submission} (hfresh : FreshRow db kind row) :
    row.stage ≠ .committing := by
  cases hfresh with
  | admitted hrow => simp [hrow.stage]
  | inserted => simp [legacyAttempt]

theorem workerStep_entered (hstep : workerStep zone db worker (.enterBoundary request) =
      some (.ok { db := after, phase := .entered handle, called := false })) :
    enterCommitBoundary zone db worker.attempt worker.token
      { request with action := handle, jobUrlHash := worker.jobUrlHash } =
        .ok (.entered after) := by
  unfold workerStep at hstep
  cases hphase : worker.phase with
  | readied action =>
    simp only [hphase, Option.some.injEq] at hstep
    split at hstep
    · cases hstep
    · cases hstep
    · cases hstep
    next henter =>
    cases hstep
    exact henter
  | _ =>
    simp only [hphase] at hstep
    cases hstep

/-- An attempt gets to `committing` only through the boundary of an execution. -/
theorem perform_committing {next : LocalState} (hlocal : LocalOk state)
    (hperform : perform zone state action = .ok next) (hnew : next.db.submissions[id]? = some new)
    (hstage : new.stage = .committing)
    (hold : ∀ old, state.db.submissions[id]? = some old → old.stage ≠ .committing) :
    ∃ index worker request handle, action = .work index (.enterBoundary request) ∧
      state.workers[index]? = some worker ∧ worker.attempt = id ∧
      enterCommitBoundary zone state.db worker.attempt worker.token
        { request with action := handle, jobUrlHash := worker.jobUrlHash } =
          .ok (.entered next.db) := by
  by_cases hwork : action.kind = .work
  · cases action with
    | load worker readings now =>
      obtain ⟨_, _, rfl⟩ := performLoad_eq_ok hperform
      exact absurd hstage (hold new hnew)
    | work index event =>
      obtain ⟨worker, result, hworker, _, hstep, rfl⟩ := performWork_step hperform
      have hmoved : ∀ {move : AttemptMove},
          Moved state.db worker.attempt move result.db →
          worker.attempt = id ∧ move = .boundary := by
        rintro move ⟨row, entered, hmoved⟩
        change result.db.submissions[id]? = some new at hnew
        rw [hmoved.transaction.submissions] at hnew
        rcases getElem?_set_eq_some hnew with ⟨rfl, rfl⟩ | ⟨_, hsame⟩
        · refine ⟨rfl, ?_⟩
          by_contra hother
          exact hold row hmoved.row (hmoved.step.committing hother hstage)
        · exact absurd hstage (hold new hsame)
      cases workerStep_eq_some hlocal.store.logs.outbox hstep with
      | quit | fail | preflighted => exact absurd hstage (hold new hnew)
      | finished _ hmove | entered _ _ hmove | readied _ _ hmove =>
        cases (hmoved hmove).2
      | called _ _ hafter =>
        rcases hafter with hsame | ⟨move, hmoves, hmove⟩
        · rw [← hsame] at hold
          exact absurd hstage (hold new hnew)
        · obtain ⟨_, rfl⟩ := hmoved hmove
          rcases hmoves with hmoves | hmoves <;> cases hmoves
      | @crossed request _ handle _ _ _ _ hmove =>
        exact ⟨index, worker, request, handle, rfl, hworker, (hmoved ⟨_, _, hmove⟩).1,
          workerStep_entered hstep⟩
    | _ => cases hwork
  · have hchanges := perform_change hlocal.store.logs.outbox hlocal.admissions hperform
    have hevolved : Evolved
        (fun row moved => moved.stage = .committing → row.stage = .committing)
        (fun row => row.stage ≠ .committing) state.db.submissions next.db.submissions :=
      hchanges.submissions (fun _ hsame => hsame)
        (fun _ _ _ hfirst hsecond hthird => hfirst (hsecond hthird))
        (fun _ _ hfresh hrel hmoved => hfresh (hrel hmoved))
        (fun _ _ _ hstep => hstep.committing hwork) fun _ _ hfresh => hfresh.not_committing
    rcases hevolved.origin id new hnew with ⟨row, hrow, hrel⟩ | ⟨_, hfresh⟩
    · exact absurd (hrel hstage) (hold row hrow)
    · exact absurd hstage hfresh

end JobApplyAgent.Kernel
