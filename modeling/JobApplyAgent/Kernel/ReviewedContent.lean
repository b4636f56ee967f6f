import JobApplyAgent.Kernel.Boundary
import JobApplyAgent.Kernel.Reviewed
import JobApplyAgent.Kernel.Runs

/-!
# Reviewed content

Nothing is sent that was not reviewed.  A form plan records the content revision
that it was inspected for, revisions never go back, and the commit boundary
compares the plan with the application, its attempt and its permit.  The revision
at the boundary therefore lies between that of the plan and itself, so it has not
moved since the plan was stored.
-/

namespace JobApplyAgent.Kernel

open Domain Store Library

variable {zone : Zone} {id token : ℕ}

/-! ## What agrees at the boundary -/

/-- A value that the attempt, its plan, its permit and its handle share. -/
structure Agreed {α : Type} (value : α) (attempt : Option α) (permit handle : α) : Prop where
  attempt : attempt = some value
  permit : permit = value
  handle : handle = value

/-- The review that an action sent at `now` rests on. -/
structure SentAsReviewed (application : Application) (attempt : Submission) (plan : FormPlan)
    (permit : PermitRow) (action : PreparedFinalActionV1) (now : Timestamp) : Prop where
  live : plan.invalidatedAt = none
  unblocked : plan.blockers = []
  applicationRevision : application.revision = plan.applicationRevision
  attemptRevision : attempt.applicationRevision = plan.applicationRevision
  permitRevision : permit.applicationRevision = plan.applicationRevision
  adapterName : Agreed plan.adapterName attempt.adapterName permit.adapterName
    action.adapterName
  adapterVersion : Agreed plan.adapterVersion attempt.adapterVersion permit.adapterVersion
    action.adapterVersion
  selectorVersion : Agreed plan.selectorVersion attempt.selectorVersion permit.selectorVersion
    action.selectorVersion
  fingerprint : Agreed plan.fingerprint attempt.formPlanFingerprint permit.formPlanFingerprint
    action.formFingerprint
  requestedCv : attempt.requestedCvHash = some plan.selectedCvHash
  planCv : plan.attachedCvHash = some plan.selectedCvHash
  attachedCv : Agreed plan.selectedCvHash attempt.attachedCvHash permit.cvHash
    action.attachedCvHash
  handleAlive : now < action.expiresAt
  handleExpiry : action.expiresAt ≤ permit.expiresAt
  permitExpiry : permit.expiresAt ≤ plan.expiresAt

/-- The checks of the boundary and the reviewed columns of the attempt. -/
theorem BoundaryPassed.sent
    (hpassed : BoundaryPassed zone db id token request application attempt command plan permit)
    (hreviewed : ReviewedFor db.formPlans plan (reviewedColumns attempt)) :
    SentAsReviewed application attempt plan permit request.action request.commitAt := by
  obtain ⟨hpermit, hbinds⟩ := validateBoundary_eq_ok hpassed.valid
  obtain ⟨_, _, hbindings⟩ := validateFinalSubmitPermit_eq_ok hpermit
  simp only [actionBinds, Option.any_eq_true] at hbinds
  obtain ⟨domainPlan, hload, hbinds⟩ := hbinds
  obtain ⟨hattached, hname, hversion, hselector, hfingerprint, hselected, hexpires,
    hblockers⟩ := loadDomainPlan_eq_some hload
  obtain ⟨⟨hready, _, _, _, _, _, hpermitCv, hpermitExpiry⟩, halive, hactionName,
    hactionVersion, hactionSelector, hactionForm, hactionCv, hactionExpiry⟩ :=
    PreparedFinalActionV1.bound_of_binds hbinds
  have hdraft := hpassed.draft
  simp only [reviewedDraft, Bool.and_eq_true, decide_eq_true_eq] at hdraft
  simp only [FormPlanV1.readyForPermit, Bool.and_eq_true, decide_eq_true_eq,
    List.isEmpty_iff] at hready
  simp only [permitBindings, List.mem_cons, List.not_mem_nil, or_false, forall_eq_or_imp,
    decide_eq_true_eq] at hbindings
  obtain ⟨_, hrevision, hplanRevision, _, hpermitName, _, hpermitVersion, _, hpermitSelector, _,
    hpermitForm, _⟩ := hbindings
  have hcv : plan.attachedCvHash = some plan.selectedCvHash := by
    rw [hattached, hready.1.1.2, hselected]
  refine ⟨hpassed.live, hblockers ▸ hready.1.1.1.1.1, ?_, ?_, hplanRevision,
    ⟨hreviewed.adapterName, hpermitName, hactionName.trans hname⟩,
    ⟨hreviewed.adapterVersion, hpermitVersion, hactionVersion.trans hversion⟩,
    ⟨hreviewed.selectorVersion, hpermitSelector, hactionSelector.trans hselector⟩,
    ⟨hreviewed.fingerprint, hpermitForm, hactionForm.trans hfingerprint⟩,
    hreviewed.requestedCvHash, hcv,
    ⟨hreviewed.attachedCvHash.trans hcv, hpermitCv.trans hselected, ?_⟩, halive,
    hactionExpiry, hexpires ▸ hpermitExpiry⟩
  · exact hdraft.2.trans (hrevision.symm.trans hplanRevision)
  · exact hrevision.symm.trans hplanRevision
  · exact hactionCv.trans (hready.1.1.2.trans hselected)

/-! ## Recorded plans -/

/-- The plan was inspected for a revision that its application has reached. -/
def RecordedIn (db : Db) (plan : FormPlan) : Prop :=
  ∃ application, db.applications[plan.applicationId]? = some application ∧
    plan.applicationRevision ≤ applicationRevision application

def PlansRecorded (db : Db) : Prop :=
  AllRows db.formPlans (RecordedIn db)

/-- What the other writers of content promise: no write takes a revision back, and a
plan is stored with the revision that its application has at that moment. -/
def RecordsContent (state : LocalState) : Action → Prop
  | .environment (.writeApplication id application) =>
    ∀ old, state.db.applications[id]? = some old → old.revision ≤ application.revision
  | .environment (.addFormPlan plan) =>
    ∃ application, state.db.applications[plan.applicationId]? = some application ∧
      plan.applicationRevision = applicationRevision application
  | _ => True

/-- Plans are kept, added ones are recorded, and revisions do not go back. -/
structure ContentGrown (before after : Db) : Prop where
  plans : Evolved PlanCarried (RecordedIn after) before.formPlans after.formPlans
  revisions : Evolved ApplicationRevised (fun _ => True) before.applications after.applications

theorem ApplicationRevised.le (hrevised : ApplicationRevised old new) :
    applicationRevision old ≤ applicationRevision new := by
  unfold ApplicationRevised at hrevised
  unfold applicationRevision
  omega

variable {before : Db}

theorem RecordedIn.grown {fresh : Application → Prop} (hplan : RecordedIn before plan)
    (hrevisions : Evolved ApplicationRevised fresh before.applications after.applications) :
    RecordedIn after plan := by
  obtain ⟨application, happlication, hrevision⟩ := hplan
  obtain ⟨kept, hkept, hrevised⟩ := hrevisions.kept _ application happlication
  exact ⟨kept, hkept, hrevision.trans hrevised.le⟩

theorem RecordedIn.carried (hold : RecordedIn before old)
    (hcarried : PlanCarried old new) : RecordedIn before new := by
  rw [PlanCarried] at hcarried
  rw [hcarried]
  exact hold

theorem ContentGrown.refl (db : Db) : ContentGrown db db :=
  ⟨.refl PlanCarried.refl _ _, .refl ApplicationRevised.refl _ _⟩

theorem ContentGrown.trans {first second : Db} (hfirst : ContentGrown first second)
    (hsecond : ContentGrown second third) : ContentGrown first third where
  plans :=
    (hfirst.plans.mono (fun _ _ hrel => hrel) fun _ hplan =>
      hplan.grown hsecond.revisions).trans PlanCarried.trans
        (fun _ _ hplan hcarried => hplan.carried hcarried) hsecond.plans
  revisions := hfirst.revisions.trans ApplicationRevised.trans (fun _ _ _ _ => trivial)
    hsecond.revisions

theorem ContentKept.grown (hkept : ContentKept before after) : ContentGrown before after :=
  ⟨hkept.plans.evolved _, hkept.revisions.evolved _⟩

theorem PlansRecorded.grown (hplans : PlansRecorded before)
    (hgrown : ContentGrown before after) : PlansRecorded after :=
  hgrown.plans.allRows (fun id plan hplan => (hplans id plan hplan).grown hgrown.revisions)
    (fun _ _ hold hcarried => hold.carried hcarried) (fun _ hfresh => hfresh)

/-! ## Runs -/

section Runs

variable {state next : LocalState}

theorem environmentChange_grown {change : EnvironmentChange}
    (hrecords : RecordsContent state (.environment change))
    (hchange : environmentChange state change = some after) :
    ContentGrown state.db after := by
  cases change with
  | writeApplication key application =>
    simp only [environmentChange] at hchange
    split at hchange
    · cases hchange
    next old hold =>
    split at hchange
    · cases hchange
    cases hchange
    exact ⟨.refl PlanCarried.refl _ _,
      (Carried.set ApplicationRevised.refl hold (hrecords old hold)).evolved _⟩
  | addApplication application =>
    simp only [environmentChange] at hchange
    split at hchange
    · cases hchange
    cases hchange
    exact ⟨.refl PlanCarried.refl _ _, .concat ApplicationRevised.refl _ trivial⟩
  | addFormPlan plan =>
    cases hchange
    obtain ⟨application, happlication, hrevision⟩ := hrecords
    exact ⟨.concat PlanCarried.refl _ ⟨application, happlication, hrevision.le⟩,
      .refl ApplicationRevised.refl _ _⟩
  | invalidateFormPlan key reason now =>
    obtain ⟨plan, hplan, rfl⟩ := Option.map_eq_some_iff.mp hchange
    have hcarried : Carried PlanCarried state.db.formPlans
        (state.db.setFormPlan key
          { plan with invalidatedAt := some now, invalidationReason := some reason }).formPlans :=
      .set PlanCarried.refl hplan rfl
    exact ⟨hcarried.evolved _, .refl ApplicationRevised.refl _ _⟩
  | authorizeCanary authorization =>
    cases hchange
    exact ⟨.refl PlanCarried.refl _ _, .refl ApplicationRevised.refl _ _⟩

theorem perform_grown (hlocal : LocalOk state)
    (hrecords : RecordsContent state action)
    (hperform : perform zone state action = .ok next) : ContentGrown state.db next.db := by
  by_cases hkind : action.kind = .environment
  · cases action with
    | environment change =>
      simp only [perform] at hperform
      split at hperform
      · cases hperform
      next hchange =>
      cases hperform
      exact environmentChange_grown hrecords hchange
    | _ => cases hkind
  · exact ((perform_change hlocal.store.logs.outbox hlocal.admissions hperform).kept hkind).grown

theorem path_grown (hlocal : LocalOk state)
    (hpath : (localSystem zone).Path RecordsContent state next) :
    ContentGrown state.db next.db := by
  apply (localOk_invariant RecordsContent).path_rel (fun state => ContentGrown.refl state.db)
    (fun hfirst hsecond => hfirst.trans hsecond) ?_ hlocal hpath
  intro before action after hbefore hrecords hstep
  exact perform_grown hbefore hrecords hstep

/-- The content is still that of the state in which the plan was stored. -/
structure UnchangedSince (persisted state : Db) (planId : ℕ) (plan : FormPlan)
    (application : Application) : Prop where
  carried : ∀ old, persisted.formPlans[planId]? = some old → PlanCarried old plan
  revision : ∃ content, persisted.applications[plan.applicationId]? = some content ∧
    applicationRevision content = applicationRevision application

/-- The revision of the stored plan bounds those of its application from below, the one at
the boundary bounds them from above. -/
theorem unchangedSince_of_grown (hplans : PlansRecorded persisted)
    (hgrown : ContentGrown persisted db)
    (hold : persisted.formPlans[planId]? = some old)
    (hplan : db.formPlans[planId]? = some plan)
    (happlication : db.applications[plan.applicationId]? = some application)
    (hrevision : application.revision = plan.applicationRevision) :
    UnchangedSince persisted db planId plan application := by
  obtain ⟨kept, hkept, hcarried⟩ := hgrown.plans.kept planId old hold
  rw [hplan, Option.some.injEq] at hkept
  subst hkept
  obtain ⟨content, hcontent, hrecorded⟩ := (hplans planId old hold).carried hcarried
  obtain ⟨reached, hreached, hrevised⟩ := hgrown.revisions.kept _ content hcontent
  rw [happlication, Option.some.injEq] at hreached
  subst hreached
  refine ⟨?_, content, hcontent, ?_⟩
  · intro found hfound
    rw [hold, Option.some.injEq] at hfound
    exact hfound ▸ hcarried
  · apply le_antisymm hrevised.le
    rw [← hrevision] at hrecorded
    unfold applicationRevision at hrecorded ⊢
    omega

/-- Nothing is sent that was not reviewed: an attempt that gets to `committing` crosses
its boundary with everything its review fixed, and the content revision has been the
same in every state since its plan was stored. -/
theorem nothing_sent_unreviewed {start : LocalState} (hinitial : InitialState start)
    (hplans : PlansRecorded start.db)
    (hrun : (localSystem zone).Path RecordsContent start state) {action : Action}
    (hstep : perform zone state action = .ok next) {sent : Submission}
    (hsent : next.db.submissions[id]? = some sent) (hstage : sent.stage = .committing)
    (hold : ∀ old, state.db.submissions[id]? = some old → old.stage ≠ .committing) :
    ∃ index request handle application attempt planId plan permit,
      action = .work index (.enterBoundary request) ∧
      state.db.submissions[id]? = some attempt ∧
      state.db.applications[attempt.applicationId]? = some application ∧
      attempt.formPlanId = some planId ∧ state.db.formPlans[planId]? = some plan ∧
      plan.applicationId = attempt.applicationId ∧ attempt.permit = some permit ∧
      sent.finalActionAt = some request.commitAt ∧
      SentAsReviewed application attempt plan permit handle request.commitAt ∧
      ∀ persisted, (localSystem zone).Path RecordsContent start persisted →
        (localSystem zone).Path RecordsContent persisted state →
        (persisted.db.formPlans[planId]?).isSome = true →
        UnchangedSince persisted.db state.db planId plan application := by
  have hinvariant : (localSystem zone).Invariant RecordsContent
      fun state => LocalOk state ∧ ReviewedOk (fun _ => True) state := by
    apply reviewedOk_invariant
    intro _ action _
    cases action <;> simp [ReportsOk, ReleasesOk]
  obtain ⟨hlocal, hreviewed⟩ := hinvariant.path (hinvariant.init start hinitial) hrun
  obtain ⟨index, worker, request, handle, haction, _, rfl, henter⟩ :=
    perform_committing hlocal hstep hsent hstage hold
  obtain ⟨application, attempt, command, plan, permit, hpassed, hrows⟩ :=
    enterCommitBoundary_passed hlocal.store.logs.outbox henter
  obtain ⟨hrow, happlication, hcommand, hclaimed, _⟩ :=
    lockClaimedContext_eq_some hpassed.locked
  obtain ⟨found, hfound⟩ :=
    (hreviewed.attempts _ attempt hrow ⟨command, hcommand, .inr hclaimed⟩).plan
  obtain ⟨planId, hplanId, hplan⟩ := hfound.stored
  have hsame : found = plan := by
    have hplanned := hpassed.planned
    change attempt.formPlanId = some planId at hplanId
    rw [attemptPlan, hplanId, Option.bind_some, hplan] at hplanned
    exact Option.some.inj hplanned
  subst hsame
  rw [hrows, getElem?_set_self_of_some hrow, Option.some.injEq] at hsent
  subst hsent
  have hreview := hpassed.sent hfound
  have howner : found.applicationId = attempt.applicationId := hfound.owner
  refine ⟨index, request, handle, application, attempt, planId, found, permit, haction, hrow,
    happlication, hplanId, hplan, howner, hpassed.permitted, rfl, hreview, ?_⟩
  intro persisted hbefore hafter hstored
  obtain ⟨old, hstored⟩ := Option.isSome_iff_exists.mp hstored
  have hlocalBefore : LocalOk persisted :=
    (localOk_invariant RecordsContent).path (.initial hinitial) hbefore
  apply unchangedSince_of_grown (hplans.grown (path_grown (.initial hinitial) hbefore))
    (path_grown hlocalBefore hafter) hstored hplan _ hreview.applicationRevision
  rw [howner]
  exact happlication

end Runs

def sampleReady : LocalState :=
  endOf sampleZone sampleState (sampleAdmit ++ samplePreflight)

def sampleCrossing : Action :=
  .work 0 (.enterBoundary ⟨sampleAction, "url", 3, 3, sampleBoundary, sampleBoundary, true⟩)

def sampleSent : LocalState :=
  endOf sampleZone sampleReady [sampleCrossing]

theorem nothing_sent_unreviewed_sample :
    ∃ application attempt plan permit handle,
      sampleReady.db.submissions[0]? = some attempt ∧
      SentAsReviewed application attempt plan permit handle 3 ∧
      UnchangedSince sampleState.db sampleReady.db 0 plan application := by
  have hrun : (localSystem sampleZone).Path RecordsContent sampleState sampleReady :=
    endOf_path (fun _ => by simp [RecordsContent, sampleAdmit, samplePreflight]) sampleState
  have hplans : PlansRecorded sampleState.db := by
    intro key plan hplan
    have hmem := List.mem_of_getElem? hplan
    simp only [sampleState, sampleDb, List.mem_singleton] at hmem
    subst hmem
    exact ⟨sampleApplication, rfl, by decide⟩
  have hstep : perform sampleZone sampleReady sampleCrossing = .ok sampleSent := rfl
  have hsent : ∃ sent, sampleSent.db.submissions[0]? = some sent ∧ sent.stage = .committing :=
    ⟨_, rfl, rfl⟩
  have hold : ∀ old, sampleReady.db.submissions[0]? = some old → old.stage ≠ .committing := by
    intro old hold
    cases hold
    decide
  obtain ⟨sent, hsent, hstage⟩ := hsent
  obtain ⟨_, request, handle, application, attempt, planId, plan, permit, hcrossing, hattempt,
    _, hplanId, _, _, _, _, hreview, hsince⟩ :=
    nothing_sent_unreviewed sampleState_initial hplans hrun hstep hsent hstage hold
  cases hcrossing
  cases hattempt
  cases hplanId
  exact ⟨application, _, plan, permit, handle, rfl, hreview, hsince sampleState .refl hrun rfl⟩

end JobApplyAgent.Kernel
