import JobApplyAgent.Kernel.Lifecycle

/-!
# Operator transactions

What the operator's skip, retry and reconciliation do to the database: at most
one attempt moves, and the application is carried over or prepared for a retry.
-/

namespace JobApplyAgent.Kernel

open Domain Store Library

/-- A new application row was never approved and never prepared by retry. -/
structure FreshApplication (application : Application) : Prop where
  approved : application.status ≠ .approved
  prepared : application.approvalSource ≠ some .retryPrepare

/-- A transaction on applications and form plans that moved no attempt; only
applications that `touched` admits were rewritten. -/
structure ContentChange (touched : ℕ → Prop) (before after : Db) : Prop where
  submissions : after.submissions = before.submissions
  outbox : after.outbox = before.outbox
  applications : Evolved ApplicationCarried FreshApplication before.applications
    after.applications
  others : ∀ (id : ℕ) (application : Application),
    before.applications[id]? = some application → ¬touched id →
    after.applications[id]? = some application
  plans : Evolved PlanCarried (fun _ => True) before.formPlans after.formPlans
  authority : SameAuthority before after

section Specifications

variable {id : ℕ}

theorem latestAttemptWhere_eq_some
    (hlatest : latestAttemptWhere db applicationId pred = some (attempt, id)) :
    db.submissions[id]? = some attempt ∧ attempt.applicationId = applicationId ∧
      pred attempt = true := by
  obtain ⟨hzip, hpred⟩ := List.mem_filter.mp (latestBy_mem hlatest)
  rw [List.mk_mem_zipIdx_iff_getElem?] at hzip
  simp only [Bool.and_eq_true, decide_eq_true_eq] at hpred
  exact ⟨hzip, hpred⟩

theorem liftBlocked_eq_ok {α : Type} {result : Except MutationBlocked α} {value : α} :
    liftBlocked result = .ok value ↔ result = .ok value := by
  cases result <;> simp [liftBlocked, Except.mapError]

theorem lockApplicationForMutation_eq_ok {locked : LockedApplicationMutation}
    (hlock : lockApplicationForMutation db applicationId intent expected = .ok locked) :
    db.applications[applicationId]? = some locked.application ∧
      locked.latestAttempt = latestAttempt db applicationId ∧
      latestAttemptWhere db applicationId immutableHistory = none ∧
      requireMutableAttempt intent locked.latestAttempt = .ok () := by
  unfold lockApplicationForMutation at hlock
  split at hlock
  · cases hlock
  next application happlication =>
  split at hlock
  · cases hlock
  split at hlock
  · split at hlock <;> cases hlock
  · next hhistory =>
    simp only at hlock
    split at hlock
    · cases hlock
    split at hlock
    · cases hlock
    split at hlock
    · cases hlock
    next hmutable =>
    cases hlock
    exact ⟨happlication, rfl, hhistory, hmutable⟩

/-- An unfinished attempt that may be mutated has not crossed the boundary and
its command is live. -/
theorem requireMutableAttempt_eq_ok
    (hmutable : requireMutableAttempt intent (some (attempt, id)) = .ok ())
    (hstage : attempt.stage ≠ .finished) :
    intent = .terminal ∧ ∀ command, attempt.command = some command →
      command.state = .pending ∨ command.state = .claimed := by
  simp only [requireMutableAttempt, hstage, if_false] at hmutable
  split at hmutable
  · cases hmutable
  split at hmutable
  · cases hmutable
  split at hmutable
  · cases hmutable
  next hstate =>
  split at hmutable
  · cases hmutable
  next hintent =>
  refine ⟨not_not.mp hintent, ?_⟩
  intro command hcommand
  rw [hcommand, Option.any_some, decide_eq_true_eq] at hstate
  cases hcase : command.state <;> simp_all

/-! ## Skip -/

theorem applicationCarried_of_unprepared (hstatus : new.status = .approved → old.status = .approved)
    (hsource : new.approvalSource = none) : ApplicationCarried old new :=
  ⟨hstatus, fun hretry => by simp [hsource] at hretry⟩

theorem skippedApplication_carried (application : Application) (text : String) :
    ApplicationCarried application (skippedApplication application text now) :=
  applicationCarried_of_unprepared (by simp [skippedApplication]) rfl

theorem skippedApplication_revised (application : Application) (text : String) :
    ApplicationRevised application (skippedApplication application text now) :=
  (le_max_right 1 application.revision).trans (Nat.le_succ _)

theorem backfillSkipTime_carried (application : Application) :
    ApplicationCarried application (backfillSkipTime application now) :=
  ⟨id, fun hsource => ⟨hsource, rfl, rfl⟩⟩

theorem backfillSkipTime_revised (application : Application) :
    ApplicationRevised application (backfillSkipTime application now) :=
  le_refl application.revision

/-- Setting one application next to invalidated plans is a content change. -/
theorem contentChange_set (touched : ℕ → Prop) (htouched : touched applicationId)
    (hrow : db.applications[applicationId]? = some application)
    (hcarried : ApplicationCarried application new)
    (hplans : Evolved PlanCarried (fun _ => True) db.formPlans plans) :
    ContentChange touched db
      (({ db with formPlans := plans } : Db).setApplication applicationId new) where
  submissions := rfl
  outbox := rfl
  applications := (Carried.set ApplicationCarried.refl hrow hcarried).evolved _
  others := by
    intro other row hother huntouched
    have hne : applicationId ≠ other := fun heq => huntouched (heq ▸ htouched)
    rw [Db.setApplication_applications, List.getElem?_set_ne hne]
    exact hother
  plans := hplans
  authority := ⟨rfl, rfl, rfl, rfl, rfl, rfl, rfl⟩

theorem contentKept_set (hrow : db.applications[applicationId]? = some application)
    (hrevised : ApplicationRevised application new)
    (hplans : Carried PlanCarried db.formPlans plans) :
    ContentKept db
      (({ db with formPlans := plans } : Db).setApplication applicationId new) :=
  ⟨hplans, .set ApplicationRevised.refl hrow hrevised⟩

/-- A skip cancels the latest attempt before the boundary, or moves none. -/
theorem skipApplication_eq_ok {text : String}
    (hskip : skipApplication db applicationId reason text now = .ok after) :
    (ContentChange (· = applicationId) db after ∧ ContentKept db after ∧
      ∀ entry, latestAttempt db applicationId = some entry → entry.1.stage = .finished) ∨
      ∃ id old new, latestAttempt db applicationId = some (old, id) ∧
        old.applicationId = applicationId ∧ MovedTo db id .cancel old new after ∧
        after.outbox = db.outbox := by
  simp only [skipApplication, bind_eq_ok, liftBlocked_eq_ok] at hskip
  obtain ⟨locked, hlock, hskip⟩ := hskip
  obtain ⟨hrow, hlatest, _, hmutable⟩ := lockApplicationForMutation_eq_ok hlock
  simp only [transitionLockedApplicationToSkipped, bind_eq_ok] at hskip
  obtain ⟨⟨cancelled, changed⟩, hcancel, hskip⟩ := hskip
  simp only at hskip
  have hunchanged : cancelled = db →
      ContentChange (· = applicationId) db after ∧ ContentKept db after := by
    rintro rfl
    split at hskip
    · rw [pure_eq_ok] at hskip
      subst hskip
      exact ⟨contentChange_set (· = applicationId) rfl hrow (backfillSkipTime_carried _)
          (.refl PlanCarried.refl _ _),
        contentKept_set hrow (backfillSkipTime_revised _) (.refl PlanCarried.refl _)⟩
    · simp only [bumpApplicationRevision, pure_eq_ok] at hskip
      subst hskip
      have hplans := invalidateFormPlans_carried cancelled.formPlans applicationId reason now
      exact ⟨contentChange_set (· = applicationId) rfl hrow (skippedApplication_carried _ _)
          (hplans.evolved _),
        contentKept_set hrow (skippedApplication_revised _ _) hplans⟩
  unfold cancelLatestAttempt at hcancel
  split at hcancel
  · next hnone =>
    cases hcancel
    refine .inl ⟨(hunchanged rfl).1, (hunchanged rfl).2, fun entry hentry => ?_⟩
    rw [← hlatest, hnone] at hentry
    cases hentry
  · next attempt id hsome =>
    split at hcancel
    · next hstage =>
      cases hcancel
      refine .inl ⟨(hunchanged rfl).1, (hunchanged rfl).2, fun entry hentry => ?_⟩
      rw [← hlatest, hsome, Option.some.injEq] at hentry
      exact hentry ▸ hstage
    · next hstage =>
      split at hcancel
      · cases hcancel
      next hguard =>
      simp only [not_or, Bool.not_eq_true, Option.isSome_eq_false_iff,
        Option.isNone_iff_eq_none] at hguard
      obtain ⟨hprecommit, hacted, hconsumed⟩ := hguard
      rw [hsome] at hlatest hmutable
      obtain ⟨hattempt, howner, _⟩ := latestAttemptWhere_eq_some hlatest.symm
      obtain ⟨_, hstate⟩ := requireMutableAttempt_eq_ok hmutable hstage
      simp only [bind_eq_ok, pure_eq_ok, Prod.mk.injEq] at hcancel
      obtain ⟨_, hflush, rfl, rfl⟩ := hcancel
      obtain ⟨rfl, hchecks, hfree⟩ := Db.flushSubmission_eq_ok hflush
      simp only [bumpApplicationRevision, pure_eq_ok, and_false, not_true,
        if_false] at hskip
      subst hskip
      refine .inr ⟨id, attempt, _, hlatest.symm, howner, ⟨hattempt,
        .cancel reason now (by simpa using hprecommit) hacted hconsumed hstate,
        ⟨rfl, hchecks, hfree, ?_, ?_, ?_, ?_, ⟨rfl, rfl, rfl, rfl, rfl, rfl, rfl⟩⟩,
        .silent (.inr (.inl rfl)) rfl⟩, rfl⟩
      · exact .set ApplicationCarried.refl hrow (skippedApplication_carried _ _)
      · exact .set ApplicationRevised.refl hrow (skippedApplication_revised _ _)
      · intro other hother
        have hne : other ≠ applicationId := fun heq => hother (heq.trans howner.symm)
        rw [Db.setApplication_applications, List.getElem?_set_ne hne.symm]
        rfl
      · exact invalidateFormPlans_carried _ _ _ _

/-! ## Retry preparation -/

/-- A retry prepares a draft of its own application, after a latest attempt that
ended before the boundary, and changes nothing else. -/
theorem retryApplication_eq_ok
    (hretry : retryApplication db applicationId reviewReady now = .ok after) :
    after = db ∨ ∃ old new, db.applications[applicationId]? = some old ∧
      after = db.setApplication applicationId new ∧ new.status = .draft ∧
      ApplicationRevised old new := by
  simp only [retryApplication, bind_eq_ok, liftBlocked_eq_ok] at hretry
  obtain ⟨locked, hlock, hretry⟩ := hretry
  obtain ⟨hrow, _⟩ := lockApplicationForMutation_eq_ok hlock
  split at hretry
  · cases hretry
  split at hretry
  · cases hretry
  simp only [bind_eq_ok, liftBlocked_eq_ok] at hretry
  obtain ⟨prepared, hprepared, hretry⟩ := hretry
  simp only [markLockedApplicationPrepared] at hprepared
  split at hprepared
  · cases hprepared
  split at hprepared
  · cases hprepared
    rw [pure_eq_ok] at hretry
    exact .inl hretry.symm
  · cases hprepared
    rw [pure_eq_ok] at hretry
    exact .inr ⟨_, _, hrow, hretry.symm, rfl, le_max_right 1 _⟩

/-! ## Reconciliation -/

theorem reconciledApplication_carried (applicationId : ℕ) (application : Application) :
    ApplicationCarried application
      (reconciledApplication db applicationId application) := by
  unfold reconciledApplication
  simp only
  split
  · exact applicationCarried_of_unprepared (by simp [setApplicationStatus]) rfl
  split <;>
    exact applicationCarried_of_unprepared (by simp [setApplicationStatus]) rfl

theorem reconciledApplication_revision (applicationId : ℕ) (application : Application) :
    (reconciledApplication db applicationId application).revision =
      application.revision := by
  unfold reconciledApplication
  simp only
  split
  · rfl
  · split <;> rfl

theorem reconcileAttempt_eq_ok (hdb : OutboxConsistent db)
    (hreconcile : reconcileAttempt db id request now = .ok after) :
    Moved db id .reconcile after := by
  simp only [reconcileAttempt, bind_eq_ok, fetch_eq_ok] at hreconcile
  obtain ⟨attempt, hattempt, application, happlication, hreconcile⟩ := hreconcile
  split at hreconcile
  · cases hreconcile
  next hold =>
  simp only [bind_eq_ok] at hreconcile
  obtain ⟨flushed, hflush, hreconcile⟩ := hreconcile
  obtain ⟨rfl, hchecks, hfree⟩ := Db.flushSubmission_eq_ok hflush
  have htransaction : ∀ outbox, AttemptTransaction db id
      (reconciledRow attempt request now)
      { (db.setSubmission id (reconciledRow attempt request now)).setApplication
          attempt.applicationId (reconciledApplication
            (db.setSubmission id (reconciledRow attempt request now))
            attempt.applicationId application) with outbox } := by
    intro outbox
    refine ⟨rfl, hchecks, hfree, ?_, ?_, ?_, .refl PlanCarried.refl _,
      ⟨rfl, rfl, rfl, rfl, rfl, rfl, rfl⟩⟩
    · exact .set ApplicationCarried.refl happlication
        (reconciledApplication_carried _ _)
    · exact .set ApplicationRevised.refl happlication
        (reconciledApplication_revision _ _).ge
    · intro other hother
      exact List.getElem?_set_ne (Ne.symm hother)
  have hstep := AttemptStep.reconcile request now (not_not.mp hold)
  split at hreconcile
  · next hnone =>
    rw [pure_eq_ok] at hreconcile
    subst hreconcile
    exact ⟨attempt, _, hattempt, hstep, htransaction db.outbox,
      .silent (.inr (.inr hnone)) rfl⟩
  · next command hcommand =>
    have hstored : OutboxConsistent
        ((db.setSubmission id (reconciledRow attempt request now)).setApplication
          attempt.applicationId (reconciledApplication
            (db.setSubmission id (reconciledRow attempt request now))
            attempt.applicationId application)) := hdb.congr rfl
    obtain ⟨outbox, rfl, houtbox⟩ :=
      enqueueControlPlaneAttemptTransition_mirrored hstored hreconcile
    have hmirrored : Mirrored db (reconciledRow attempt request now)
        command.idempotencyKey outbox := houtbox.congr rfl rfl
    exact ⟨attempt, _, hattempt, hstep, htransaction outbox,
      .published command hcommand (hmirrored.published hdb rfl)⟩

end Specifications

end JobApplyAgent.Kernel
