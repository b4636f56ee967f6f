import JobApplyAgent.Kernel.AdmissionInvariant

/-!
# What an attempt was reviewed for

An attempt that may still be worked on carries the columns of the stored form
plan it was admitted with and of the release that admitted it.  What holds of
every stored plan and of every running release therefore holds of its columns.
-/

namespace JobApplyAgent.Kernel

open Domain Store Library

/-- The columns of an attempt that its review fixes. -/
structure ReviewedColumns where
  applicationId : ℕ
  formPlanId : Option ℕ
  adapterName : Option String
  adapterVersion : Option String
  selectorVersion : Option String
  formPlanFingerprint : Option String
  requestedCvId : Option String
  requestedCvHash : Option String
  attachedCvHash : Option String
  profileVersion : Option ℕ
  runnerRelease : Option String

def reviewedColumns (attempt : Submission) : ReviewedColumns where
  applicationId := attempt.applicationId
  formPlanId := attempt.formPlanId
  adapterName := attempt.adapterName
  adapterVersion := attempt.adapterVersion
  selectorVersion := attempt.selectorVersion
  formPlanFingerprint := attempt.formPlanFingerprint
  requestedCvId := attempt.requestedCvId
  requestedCvHash := attempt.requestedCvHash
  attachedCvHash := attempt.attachedCvHash
  profileVersion := attempt.profileVersion
  runnerRelease := attempt.runnerRelease

/-- The columns are those of a stored plan of the same application. -/
structure ReviewedFor (plans : List FormPlan) (plan : FormPlan) (columns : ReviewedColumns) :
    Prop where
  stored : ∃ planId, columns.formPlanId = some planId ∧ plans[planId]? = some plan
  owner : plan.applicationId = columns.applicationId
  contract : plan.contractValid = true
  adapterName : columns.adapterName = some plan.adapterName
  adapterVersion : columns.adapterVersion = some plan.adapterVersion
  selectorVersion : columns.selectorVersion = some plan.selectorVersion
  fingerprint : columns.formPlanFingerprint = some plan.fingerprint
  requestedCvId : columns.requestedCvId = some plan.selectedCvId
  requestedCvHash : columns.requestedCvHash = some plan.selectedCvHash
  attachedCvHash : columns.attachedCvHash = plan.attachedCvHash
  profileVersion : ∃ version, columns.profileVersion = some version ∧ 1 ≤ version

/-- The columns of an admitted attempt, for a condition on running releases. -/
structure Reviewed (releaseOk : String → Prop) (plans : List FormPlan)
    (columns : ReviewedColumns) : Prop where
  plan : ∃ plan, ReviewedFor plans plan columns
  release : ∃ release, columns.runnerRelease = some release ∧ releaseOk release

/-- The command of the attempt is pending or claimed. -/
def MayRun (attempt : Submission) : Prop :=
  ∃ command, attempt.command = some command ∧
    (command.state = .pending ∨ command.state = .claimed)

/-- Every running release that a report names meets the condition. -/
def ReleasesOk (releaseOk : String → Prop) (capabilities : Capabilities) : Prop :=
  ∀ release, capabilities.release = some release → releaseOk release.expectedId

variable {planOk : FormPlan → Prop}
  {held : ℕ → Bool} {kind : ActionKind} {before : Db}

/-! ## Plans -/

/-- Only the environment adds a plan, and only it may lower a content revision. -/
theorem Change.kept (hchange : Change held kind before after) :
    kind = .environment ∨ ContentKept before after := by
  cases hchange with
  | moved _ _ _ hmoved =>
    obtain ⟨old, new, hmoved⟩ := hmoved
    exact .inr hmoved.transaction.kept
  | cancelled _ _ _ hmoved => exact .inr hmoved.transaction.kept
  | content _ _ _ hkept => exact hkept
  | canaries => exact .inl rfl
  | retried _ hold _ hrevised =>
    exact .inr ⟨.refl PlanCarried.refl _, .set ApplicationRevised.refl hold hrevised⟩
  | automated _ hautomated => exact .inr hautomated.kept
  | committed _ _ _ hadmitted =>
    exact .inr (contentKept_of_same hadmitted.tables.2.2.1 hadmitted.tables.2.1)
  | minted => exact .inr (contentKept_of_same rfl rfl)
  | granted hdelivered =>
    obtain ⟨grants, rfl, _⟩ := hdelivered
    exact .inr (contentKept_of_same rfl rfl)
  | delivered hdelivered =>
    obtain ⟨outbox, rfl, _⟩ := hdelivered
    exact .inr (contentKept_of_same rfl rfl)
  | quarantined _ hlegacy => exact .inr hlegacy.transaction.kept
  | inserted now _ _ hinsert =>
    obtain ⟨rfl, _⟩ := Db.insertSubmission_eq_ok hinsert
    exact .inr (contentKept_of_same rfl rfl)

/-- Stored plans keep everything but their invalidation. -/
theorem Change.formPlans (hchange : Change held kind before after) :
    Evolved PlanCarried (fun _ => True) before.formPlans after.formPlans := by
  rcases hchange.kept with rfl | hkept
  · cases hchange with
    | content _ _ hcontent => exact hcontent.plans
    | canaries => exact .refl PlanCarried.refl _ _
    | moved hmove => simp [ActionKind.allows] at hmove
  · exact hkept.plans.evolved _

theorem PlanCarried.trans (first second third : FormPlan) (hfirst : PlanCarried first second)
    (hsecond : PlanCarried second third) : PlanCarried first third := by
  unfold PlanCarried at hfirst hsecond ⊢
  rw [hsecond, hfirst]

theorem Changes.formPlans (hchanges : Changes held kind before after) :
    Evolved PlanCarried (fun _ => True) before.formPlans after.formPlans := by
  induction hchanges with
  | refl => exact .refl PlanCarried.refl _ _
  | tail _ hchange ih =>
    exact ih.trans PlanCarried.trans (fun _ _ _ _ => trivial)
      hchange.formPlans

theorem ApplicationRevised.trans (first second third : Application)
    (hfirst : ApplicationRevised first second) (hsecond : ApplicationRevised second third) :
    ApplicationRevised first third :=
  le_trans hfirst hsecond

theorem ContentKept.trans {first second : Db} (hfirst : ContentKept first second)
    (hsecond : ContentKept second third) : ContentKept first third :=
  ⟨hfirst.plans.trans PlanCarried.trans hsecond.plans,
    hfirst.revisions.trans ApplicationRevised.trans hsecond.revisions⟩

theorem Changes.kept (hkind : kind ≠ .environment) (hchanges : Changes held kind before after) :
    ContentKept before after := by
  induction hchanges with
  | refl => exact contentKept_of_same rfl rfl
  | tail _ hchange ih => exact ih.trans (hchange.kept.resolve_left hkind)

variable {fresh : FormPlan → Prop}

variable {later : List FormPlan}

theorem ReviewedFor.kept (hreviewed : ReviewedFor plans plan columns)
    (hplans : Evolved PlanCarried fresh plans later) :
    ∃ kept, ReviewedFor later kept columns ∧ PlanCarried plan kept := by
  obtain ⟨planId, hid, hplan⟩ := hreviewed.stored
  obtain ⟨kept, hkept, hcarried⟩ := hplans.kept planId plan hplan
  have hsame := hcarried
  rw [PlanCarried] at hsame
  rw [hsame] at hkept
  refine ⟨_, ⟨⟨planId, hid, hkept⟩, hreviewed.owner, hreviewed.contract,
    hreviewed.adapterName, hreviewed.adapterVersion, hreviewed.selectorVersion,
    hreviewed.fingerprint, hreviewed.requestedCvId, hreviewed.requestedCvHash,
    hreviewed.attachedCvHash, hreviewed.profileVersion⟩, rfl⟩

theorem Reviewed.kept (hreviewed : Reviewed releaseOk plans columns)
    (hplans : Evolved PlanCarried fresh plans later) :
    Reviewed releaseOk later columns where
  plan := by
    obtain ⟨plan, hplan⟩ := hreviewed.plan
    obtain ⟨kept, hkept, _⟩ := hplan.kept hplans
    exact ⟨kept, hkept⟩
  release := hreviewed.release

/-! ## Attempts -/

theorem mayRun_of_eq (hcommand : new.command = old.command) (hmay : MayRun new) : MayRun old := by
  unfold MayRun at hmay ⊢
  rw [← hcommand]
  exact hmay

/-- A step that leaves a command to be worked on rewrites no reviewed column. -/
theorem AttemptStep.reviewed {move : AttemptMove} (hstep : AttemptStep move old new)
    (hmay : MayRun new) :
    MayRun old ∧ reviewedColumns new = reviewedColumns old := by
  cases hstep with
  | claim _ _ _ hcommand hstate => exact ⟨⟨_, hcommand, .inl hstate⟩, rfl⟩
  | cancelInvalid _ hcommand hstate => exact ⟨⟨_, hcommand, .inl hstate⟩, rfl⟩
  | preflight hcommand hstate => exact ⟨⟨_, hcommand, .inr hstate⟩, rfl⟩
  | ready _ hcommand hstate => exact ⟨⟨_, hcommand, .inr hstate⟩, rfl⟩
  | boundary _ hcommand hstate => exact ⟨⟨_, hcommand, .inr hstate⟩, rfl⟩
  | finish _ _ _ hfinished | verify _ _ _ _ hfinished =>
    obtain ⟨command, hcommand, hstate⟩ := hmay
    rw [hfinished.command, Option.some.injEq] at hcommand
    subst hcommand
    simp [completeCommand] at hstate
  | requeue hcommand hstate => exact ⟨⟨_, hcommand, .inr hstate⟩, rfl⟩
  | cancel reason now _ _ _ hlive =>
    obtain ⟨command, hcommand, _⟩ := hmay
    obtain ⟨owned, howned, _⟩ := Option.map_eq_some_iff.mp hcommand
    exact ⟨⟨owned, howned, hlive owned howned⟩, rfl⟩
  | reconcile => exact ⟨mayRun_of_eq rfl hmay, rfl⟩

theorem RowStep.reviewed (hstep : RowStep before kind old new) (hmay : MayRun new) :
    MayRun old ∧ reviewedColumns new = reviewedColumns old := by
  cases hstep with
  | same => exact ⟨hmay, rfl⟩
  | moved _ hstep => exact hstep.reviewed hmay
  | quarantined hstep =>
    cases hstep with
    | marked | closed => exact ⟨mayRun_of_eq rfl hmay, rfl⟩

def AttemptsReviewed (releaseOk : String → Prop) (db : Db) : Prop :=
  AllRows db.submissions fun attempt =>
    MayRun attempt → Reviewed releaseOk db.formPlans (reviewedColumns attempt)

/-- Only an admission adds an attempt that may run. -/
theorem AttemptsReviewed.change (hattempts : AttemptsReviewed releaseOk before)
    (hkind : kind ≠ .admission) (hchange : Change held kind before after) :
    AttemptsReviewed releaseOk after := by
  have hrows : AllRows before.submissions fun attempt =>
      MayRun attempt → Reviewed releaseOk after.formPlans (reviewedColumns attempt) :=
    fun id attempt hattempt hmay => (hattempts id attempt hattempt hmay).kept hchange.formPlans
  refine hchange.submissions.allRows hrows ?_ ?_
  · intro old new hold hstep hmay
    obtain ⟨hmayOld, hcolumns⟩ := hstep.reviewed hmay
    exact hcolumns ▸ hold hmayOld
  · intro row hfresh hmay
    cases hfresh with
    | admitted => exact absurd rfl hkind
    | inserted =>
      obtain ⟨command, hcommand, _⟩ := hmay
      cases hcommand

theorem AttemptsReviewed.changes (hattempts : AttemptsReviewed releaseOk before)
    (hkind : kind ≠ .admission) (hchanges : Changes held kind before after) :
    AttemptsReviewed releaseOk after := by
  induction hchanges with
  | refl => exact hattempts
  | tail _ hchange ih => exact ih.change hkind hchange

/-! ## Admissions -/

/-- What an open admission has staged is reviewed. -/
structure AdmissionReviewed (releaseOk : String → Prop) (db : Db) (admission : Admission) :
    Prop where
  capabilities : ReleasesOk releaseOk admission.capabilities
  staged : ∀ row ∈ admission.staged.added,
    Reviewed releaseOk db.formPlans (reviewedColumns row)

theorem requireRuntime_eq_ok {release : String}
    (hruntime : requireRuntime capabilities authorityKind = .ok release) :
    ∃ found, capabilities.release = some found ∧ release = found.expectedId := by
  simp only [requireRuntime, bind_eq_ok] at hruntime
  obtain ⟨_, _, _, _, hruntime⟩ := hruntime
  split at hruntime
  · cases hruntime
  next found hfound =>
  split at hruntime
  · cases hruntime
  next havailable =>
  cases hruntime
  refine ⟨found, hfound, ?_⟩
  unfold runtimeRelease at havailable ⊢
  split at havailable
  · simp [releaseUnavailable] at havailable
  next hsame =>
  rw [if_neg hsame]
  exact not_not.mp hsame

theorem validateAdapter_eq_ok (hvalid : validateAdapter descriptor plan = .ok adapter) :
    adapter.platform = plan.adapterName ∧ adapter.adapterVersion = plan.adapterVersion ∧
      adapter.selectorVersion = plan.selectorVersion := by
  unfold validateAdapter at hvalid
  split at hvalid
  · cases hvalid
  simp only [bind_eq_ok, pure_eq_ok] at hvalid
  obtain ⟨_, hbindings, rfl⟩ := hvalid
  have hadapter := requireBindings_eq_ok.mp hbindings _ (.head _)
  simpa [and_assoc] using hadapter

/-- A plan that admission accepts is valid and has its own profile. -/
theorem validatePlan_eq_ok
    (hvalid : validatePlan applicationId application plan request qualified now =
      .ok domainPlan) :
    plan.applicationId = applicationId ∧ plan.contractValid = true ∧
      ∃ version, plan.profileVersion = some version ∧ 1 ≤ version := by
  simp only [validatePlan, bind_eq_ok] at hvalid
  obtain ⟨_, hcolumns, hvalid⟩ := hvalid
  rw [requireBindings_eq_ok] at hcolumns
  simp only [planColumnChecks, List.mem_cons, List.not_mem_nil, or_false, forall_eq_or_imp,
    decide_eq_true_eq, Option.any_eq_true] at hcolumns
  refine ⟨hcolumns.1, ?_, hcolumns.2.2.1⟩
  by_contra hinvalid
  simp [loadDomainPlan, hinvalid] at hvalid

theorem createLocked_reviewed {row : Submission}
    (hreleases : ReleasesOk releaseOk capabilities)
    (hcreate : createLocked zone db capabilities ttlSeconds request readings now =
      .ok (.created row canary)) :
    Reviewed releaseOk db.formPlans (reviewedColumns row) := by
  obtain ⟨application, plan, planId, release, authority, adapter, permit, hgates, rfl, _⟩ :=
    createLocked_eq_created hcreate
  obtain ⟨hplan, _⟩ := planWithPublicId_eq_some hgates.planned
  obtain ⟨domainPlan, hvalid, _⟩ := hgates.valid
  obtain ⟨howner, hcontract, hprofile⟩ := validatePlan_eq_ok hvalid
  obtain ⟨hname, hversion, hselector⟩ := validateAdapter_eq_ok hgates.qualified
  obtain ⟨found, hfound, hrelease⟩ := requireRuntime_eq_ok hgates.runtime
  refine ⟨⟨plan, ⟨planId, rfl, hplan⟩, howner, hcontract, congrArg some hname,
    congrArg some hversion, congrArg some hselector, rfl, rfl, rfl, rfl, hprofile⟩,
    release, rfl, ?_⟩
  rw [hrelease]
  exact hreleases found hfound

section

variable (hadmission : AdmissionReviewed releaseOk before admission)
include hadmission

theorem AdmissionReviewed.kept
    (hplans : Evolved PlanCarried fresh before.formPlans after.formPlans) :
    AdmissionReviewed releaseOk after admission :=
  ⟨hadmission.capabilities, fun row hrow => (hadmission.staged row hrow).kept hplans⟩

/-- An admission that keeps its report and stages nothing new stays reviewed. -/
theorem AdmissionReviewed.same {next : Admission}
    (hcapabilities : next.capabilities = admission.capabilities)
    (hstaged : next.staged = admission.staged ∨ next.staged = nothingStaged) :
    AdmissionReviewed releaseOk before next where
  capabilities := hcapabilities ▸ hadmission.capabilities
  staged := by
    intro row hrow
    rcases hstaged with hsame | hnone
    · exact hadmission.staged row (hsame ▸ hrow)
    · rw [hnone] at hrow
      cases hrow

theorem AdmissionReviewed.reject (error : SubmissionAdmissionError) :
    AdmissionReviewed releaseOk before (admission.reject error) := by
  unfold Admission.reject
  split
  · exact hadmission.same rfl (.inr rfl)
  · exact hadmission.same rfl (.inr rfl)

theorem lookupItem_reviewed :
    AdmissionReviewed releaseOk before (lookupItem before admission) := by
  unfold lookupItem
  split
  · exact hadmission
  · exact hadmission.same rfl (.inr rfl)
  split
  · exact hadmission.reject _
  split
  · exact hadmission.reject _
  · exact hadmission.same rfl (.inl rfl)
  · exact hadmission.same rfl (.inl rfl)

theorem admitItem_reviewed (readings : AdmissionReadings) :
    AdmissionReviewed releaseOk before (admitItem zone before admission readings) := by
  unfold admitItem
  split
  · exact hadmission
  · exact hadmission.same rfl (.inr rfl)
  next request rest view _ happly =>
  have hlocking : AdmissionReviewed releaseOk before
      { admission with locks := request.applicationId :: admission.locks } :=
    hadmission.same rfl (.inl rfl)
  simp only
  split
  · exact hlocking.reject _
  · exact hlocking.same rfl (.inl rfl)
  next row canary hcreate =>
  split
  · exact hlocking.same rfl (.inr rfl)
  refine ⟨hadmission.capabilities, fun other hother => ?_⟩
  simp only [Admission.created, List.mem_append, List.mem_singleton] at hother
  rcases hother with hother | rfl
  · exact hadmission.staged other hother
  · rw [← (applyStaged_eq_ok happly).tables.2.2.1]
    exact createLocked_reviewed hadmission.capabilities hcreate

theorem commitAdmission_snd_reviewed (wallClock : Timestamp) :
    AdmissionReviewed releaseOk before (commitAdmission before admission wallClock).2 := by
  unfold commitAdmission
  split
  · exact hadmission.same rfl (.inr rfl)
  split
  · exact hadmission.same rfl (.inr rfl)
  · exact hadmission.same rfl (.inr rfl)

theorem resolveConflict_reviewed :
    AdmissionReviewed releaseOk before (resolveConflict before admission) := by
  unfold resolveConflict
  split
  · split
    · exact hadmission.same rfl (.inl rfl)
    · exact hadmission.same rfl (.inr rfl)
    · exact hadmission.same rfl (.inr rfl)
  · exact hadmission.same rfl (.inr rfl)

end

/-- A commit adds what the admission has staged. -/
theorem AttemptsReviewed.commit (hattempts : AttemptsReviewed releaseOk before)
    (hadmission : AdmissionReviewed releaseOk before admission) :
    AttemptsReviewed releaseOk (commitAdmission before admission wallClock).1 ∧
      (commitAdmission before admission wallClock).1.formPlans = before.formPlans := by
  have hcommit : (commitAdmission before admission wallClock).1 = before ∨
      applyStaged before admission.staged =
        .ok (commitAdmission before admission wallClock).1 := commitAdmission_fst
  rcases hcommit with hsame | happly
  · rw [hsame]
    exact ⟨hattempts, rfl⟩
  · obtain ⟨hsubmissions, _, hplans, _⟩ := (applyStaged_eq_ok happly).tables
    refine ⟨?_, hplans⟩
    unfold AttemptsReviewed
    rw [hsubmissions, hplans]
    intro id attempt hattempt hmay
    rcases List.mem_append.mp (List.mem_of_getElem? hattempt) with hold | hnew
    · obtain ⟨key, hkey⟩ := List.getElem?_of_mem hold
      exact hattempts key attempt hkey hmay
    · exact hadmission.staged attempt hnew

theorem stageAcceptance_capabilities {grant : ReviewGrant}
    (hstage : stageAcceptance db command capabilities readings grant grantId =
      .ok (.staged admission)) :
    admission.capabilities = capabilities ∧ admission.staged.added = [] := by
  simp only [stageAcceptance, bind_eq_ok] at hstage
  obtain ⟨_, _, hstage⟩ := hstage
  split at hstage
  · cases hstage
  split at hstage
  · cases hstage
  split at hstage
  · cases hstage
  · cases hstage
  simp only [bind_eq_ok] at hstage
  obtain ⟨identity, _, hstage⟩ := hstage
  split at hstage
  · cases hstage
  next begun hbegin =>
  obtain ⟨_, rfl⟩ := beginAdmission_eq_ok hbegin
  cases hstage
  exact ⟨rfl, rfl⟩

/-- The admission behind an acceptance runs under the report that was read. -/
theorem lockAcceptance_capabilities
    (hlock : lockAcceptance db command readings = .ok (.staged admission)) :
    readings.capabilities = some admission.capabilities ∧ admission.staged.added = [] := by
  unfold lockAcceptance at hlock
  split at hlock
  · cases hlock
  next capabilities hcapabilities =>
  simp only [bind_eq_ok] at hlock
  obtain ⟨release, _, hlock⟩ := hlock
  split at hlock
  · cases hlock
  split at hlock
  · obtain ⟨hsame, hadded⟩ := stageAcceptance_capabilities hlock
    exact ⟨hsame ▸ hcapabilities, hadded⟩
  · simp only [bind_eq_ok] at hlock
    obtain ⟨found, _, hlock⟩ := hlock
    split at hlock <;> cases hlock
  · cases hlock

/-! ## Runs -/

/-- The releases in the reports that an action reads meet the condition. -/
def ReportsOk (releaseOk : String → Prop) : Action → Prop
  | .beginAdmission _ capabilities _ _ => ReleasesOk releaseOk capabilities
  | .accept _ readings =>
    ∀ capabilities, readings.capabilities = some capabilities →
      ReleasesOk releaseOk capabilities
  | _ => True

structure ReviewedOk (releaseOk : String → Prop) (state : LocalState) : Prop where
  attempts : AttemptsReviewed releaseOk state.db
  admissions : ∀ admission ∈ state.admissions, AdmissionReviewed releaseOk state.db admission

section Local

variable {next : LocalState}

theorem ReviewedOk.changes (hreviewed : ReviewedOk releaseOk state) (hkind : kind ≠ .admission)
    (hchanges : Changes held kind state.db next.db)
    (hsame : next.admissions = state.admissions) : ReviewedOk releaseOk next where
  attempts := hreviewed.attempts.changes hkind hchanges
  admissions := by
    rw [hsame]
    exact fun admission hmem => (hreviewed.admissions admission hmem).kept hchanges.formPlans

theorem ReviewedOk.opened (hreviewed : ReviewedOk releaseOk state)
    (hadmission : AdmissionReviewed releaseOk state.db admission) :
    ReviewedOk releaseOk { state with admissions := state.admissions ++ [admission] } where
  attempts := hreviewed.attempts
  admissions := by
    intro other hother
    rcases List.mem_append.mp hother with hold | hnew
    · exact hreviewed.admissions other hold
    · exact List.mem_singleton.mp hnew ▸ hadmission

theorem ReviewedOk.moved (hreviewed : ReviewedOk releaseOk state) {ended : Admission}
    (hadmission : state.admissions[index]? = some admission)
    (hmove : AdmissionMove zone state index admission action db ended) :
    ReviewedOk releaseOk ((state.withDb db).setAdmission index ended) := by
  have hold := hreviewed.admissions admission (List.mem_of_getElem? hadmission)
  have hset : ∀ {db : Db}, AttemptsReviewed releaseOk db → db.formPlans = state.db.formPlans →
      AdmissionReviewed releaseOk state.db ended →
      ReviewedOk releaseOk ((state.withDb db).setAdmission index ended) := by
    intro db hattempts hplans hended
    have hevolved : Evolved PlanCarried (fun _ => True) state.db.formPlans db.formPlans := by
      rw [hplans]
      exact .refl PlanCarried.refl _ _
    refine ⟨hattempts, fun other hother => ?_⟩
    rcases List.mem_or_eq_of_mem_set hother with hother | rfl
    · exact (hreviewed.admissions other hother).kept hevolved
    · exact hended.kept hevolved
  cases hmove with
  | lookup => exact hset hreviewed.attempts rfl (lookupItem_reviewed hold)
  | @admitItem readings => exact hset hreviewed.attempts rfl (admitItem_reviewed hold readings)
  | @commit wallClock =>
    obtain ⟨hattempts, hplans⟩ := hreviewed.attempts.commit hold
    exact hset hattempts hplans (commitAdmission_snd_reviewed hold wallClock)
  | resolve => exact hset hreviewed.attempts rfl (resolveConflict_reviewed hold)
  | abort => exact hset hreviewed.attempts rfl (hold.same rfl (.inr rfl))

theorem ReviewedOk.perform (hlocal : LocalOk state) (hreviewed : ReviewedOk releaseOk state)
    (hreports : ReportsOk releaseOk action)
    (hperform : Kernel.perform zone state action = .ok next) :
    ReviewedOk releaseOk next := by
  by_cases hkind : action.kind = .admission
  · have hmove : ∀ {index : ℕ},
        (action = .lookup index ∨ (∃ readings, action = .admitItem index readings) ∨
          (∃ wallClock, action = .commitAdmission index wallClock) ∨
          action = .resolveConflict index ∨ action = .abortAdmission index) →
        performAdmission zone state index action = .ok next → ReviewedOk releaseOk next := by
      intro index hindex hstep
      obtain ⟨admission, db, ended, hadmission, hmove, rfl⟩ :=
        performAdmission_eq_ok hindex hstep
      exact hreviewed.moved hadmission hmove
    cases action with
    | beginAdmission settings capabilities requests now =>
      obtain ⟨_, admission, hbegin, rfl⟩ := performBegin_eq_ok hperform
      obtain ⟨_, rfl⟩ := beginAdmission_eq_ok hbegin
      exact hreviewed.opened ⟨hreports, fun _ hrow => by cases hrow⟩
    | accept command readings =>
      rcases performAccept_eq_ok hperform with rfl | ⟨admission, hlock, _, rfl⟩
      · exact hreviewed
      · obtain ⟨hcapabilities, hadded⟩ := lockAcceptance_capabilities hlock
        refine hreviewed.opened ⟨hreports _ hcapabilities, ?_⟩
        simp [hadded]
    | lookup index => exact hmove (.inl rfl) hperform
    | admitItem index readings => exact hmove (.inr (.inl ⟨readings, rfl⟩)) hperform
    | commitAdmission index wallClock =>
      exact hmove (.inr (.inr (.inl ⟨wallClock, rfl⟩))) hperform
    | resolveConflict index => exact hmove (.inr (.inr (.inr (.inl rfl)))) hperform
    | abortAdmission index => exact hmove (.inr (.inr (.inr (.inr rfl)))) hperform
    | _ => cases hkind
  · exact hreviewed.changes hkind
      (perform_change hlocal.store.logs.outbox hlocal.admissions hperform)
      (perform_admissions hlocal.store.logs.outbox hkind hperform)

theorem ReviewedOk.initial (hinitial : InitialState state) : ReviewedOk releaseOk state where
  attempts := by
    rintro id attempt hattempt ⟨command, hcommand, _⟩
    rw [(hinitial.db.imported id attempt hattempt).command] at hcommand
    cases hcommand
  admissions := by simp [hinitial.admissions]

/-- Attempts stay reviewed in every run whose reports meet the condition. -/
theorem reviewedOk_invariant {guard : LocalState → Action → Prop}
    (hguard : ∀ state action, guard state action → ReportsOk releaseOk action) :
    (localSystem zone).Invariant guard fun state => LocalOk state ∧ ReviewedOk releaseOk state where
  init := fun _ hinitial => ⟨.initial hinitial, .initial hinitial⟩
  step := fun _ _ _ hbefore hallowed hstep =>
    ⟨hbefore.1.perform hstep, hbefore.2.perform hbefore.1 (hguard _ _ hallowed) hstep⟩

end Local

end JobApplyAgent.Kernel
