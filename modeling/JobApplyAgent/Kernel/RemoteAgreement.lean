import JobApplyAgent.Kernel.RemoteAdmission
import JobApplyAgent.Kernel.EmployerTruth

/-!
# When the two admissions agree

The registry qualifies no adapter for a final action, so the runner refuses every command,
whatever the plan of its grant is qualified for.  The operator's own request is admitted
when the plan is qualified and the shared gates pass.
-/

namespace JobApplyAgent.Kernel

open Domain Store Library
open Adapters (adapterForUrl effectiveLiveDescriptorForPlan)

def operatorRequest (grant : ReviewGrant) (formPlanId clientIdempotencyKey : String)
    (clientRelease : ClientReleaseIdentity) : SubmissionCommandRequest where
  applicationId := grant.applicationId
  clientIdempotencyKey
  applicationRevision := grant.applicationRevision
  formPlanId
  clientRelease
  authorityExpiresAt := none
  authorityKind := .explicitOperator
  automationPolicyDecisionId := none
  qualificationCanaryAuthorizationId := none

/-- A confirmed canary qualifies the plan, and its portal session is there. -/
def SendQualified (readings : PortalReadings) (plan : FormPlan) : Prop :=
  ∃ descriptor,
    effectiveLiveDescriptorForPlan readings.qualification readings.url plan =
      some descriptor ∧
    descriptor.qualifiesFormFingerprint plan.fingerprint = true ∧
    sessionReady readings descriptor = true

/-- The gates that a request of the operator passes besides the one of its adapter. -/
structure OperatorGates (state : LocalState) (settings : AdmissionSettings)
    (capabilities : Capabilities) (request : SubmissionCommandRequest)
    (readings : PortalReadings) (now : Timestamp) (plan : FormPlan) : Prop where
  operator : settings.operatorAuthConfigured = true
  release : requireMatchingClientRelease capabilities request.clientRelease = .ok ()
  unlocked : state.locked request.applicationId = false
  keys : ∀ row ∈ state.db.submissions,
    row.idempotencyKey ≠ request.clientIdempotencyKey ∧
      ∀ command, row.command = some command →
        command.idempotencyKey ≠ request.clientIdempotencyKey
  planned : ∃ planId, planWithPublicId state.db request.formPlanId = some (plan, planId)
  reviewed : ∃ application, state.db.applications[request.applicationId]? = some application ∧
    request.applicationRevision = application.revision ∧ application.status = .draft ∧
    preparationIsCurrent application = true ∧
    (∀ check ∈ admissionBlocked state.db request.applicationId application, check.1 = true) ∧
    ∃ domainPlan, validatePlan request.applicationId application plan request
        readings.materialIdentityQualified now = .ok domainPlan ∧
      requireModelBinding application domainPlan capabilities = .ok ()
  profile : readings.profileSnapshot = .ok ()
  runtime : ∃ release, requireRuntime capabilities request.authorityKind = .ok release
  jobUrl : ∃ jobUrlHash, readings.jobUrlHash = some jobUrlHash

/-- The plan of a request is qualified, and the operator's request passes every gate. -/
def SendableLocally (state : LocalState) (settings : AdmissionSettings)
    (capabilities : Capabilities) (request : SubmissionCommandRequest)
    (readings : PortalReadings) (now : Timestamp) : Prop :=
  ∃ plan, OperatorGates state settings capabilities request readings now plan ∧
    SendQualified readings plan

/-- The columns in which an attempt and its permit are bound to what was reviewed. -/
def reviewedBindings (attempt : Submission) :=
  ((attempt.adapterName, attempt.adapterVersion, attempt.selectorVersion),
    (attempt.formPlanId, attempt.formPlanFingerprint, attempt.profileVersion),
    (attempt.selectedCvId, attempt.requestedCvId, attempt.requestedCvHash),
    (attempt.attachedCvId, attempt.attachedCvHash, attempt.attachmentVerified),
    attempt.permit.map fun permit =>
      ((permit.jobUrlHash, permit.applicationRevision, permit.adapterName),
        (permit.adapterVersion, permit.selectorVersion, permit.formPlanFingerprint),
        permit.cvHash))

/-- The remote command of a grant is admitted exactly when the operator's request for the
same plan is, and then both attempts are bound to the same. -/
structure AdmissionsAgree (zone : Zone) (state : LocalState)
    (remote local_ : List Action) : Prop where
  admitted : (∃ attempt, Admits zone state remote attempt) ↔
    ∃ attempt, Admits zone state local_ attempt
  bindings : ∀ first second, Admits zone state remote first →
    Admits zone state local_ second → reviewedBindings first = reviewedBindings second

section Inversion

theorem LockedGates.created
    (hgates : LockedGates zone db capabilities ttlSeconds request readings now application plan
      planId release authority adapter permit) :
    createLocked zone db capabilities ttlSeconds request readings now =
      .ok (.created (createdRow db request now plan planId release authority adapter permit)
        (authority.canary.map Prod.fst)) := by
  obtain ⟨domainPlan, hvalid, hmodel⟩ := hgates.valid
  obtain ⟨after, hinsert⟩ := hgates.inserted
  obtain ⟨jobUrlHash, hurl, hpermit⟩ := hgates.permitted
  have hdraft : requireBindings
      [(decide (request.applicationRevision = application.revision),
          SubmissionAdmissionError.applicationRevisionChanged),
        (decide (application.status = .draft), .applicationNotEligible),
        (preparationIsCurrent application, .applicationReviewRequired)] = .ok () := by
    simp [requireBindings, hgates.revision, hgates.draft, hgates.current]
  have hblocked := requireBindings_eq_ok.mpr hgates.blocked
  simp only [createLocked, hgates.stored, hgates.fresh, hdraft, hblocked, hgates.planned, hvalid,
    hgates.profile, hgates.runtime, hmodel, hgates.authorized, hgates.qualified, hgates.session,
    hinsert, hurl, hpermit, bind, Except.bind, pure, Except.pure, not_true_eq_false, if_false]
  rfl

end Inversion

/-! ## The runner -/

section Remote

variable {state : LocalState}

theorem validateAdapter_final (hvalid : validateAdapter descriptor plan = .ok adapter) :
    ∃ found, descriptor = some found ∧ found.allowsFinalExecution = true := by
  unfold validateAdapter at hvalid
  split at hvalid
  · cases hvalid
  next found =>
  simp only [bind_eq_ok] at hvalid
  obtain ⟨_, hbindings, _⟩ := hvalid
  have hall := requireBindings_eq_ok.mp hbindings
  exact ⟨found, rfl, hall (found.allowsFinalExecution, .adapterNotQualified) (by simp)⟩

theorem registry_not_final
    (hfound : (admissionReadings state.db readings (some adapterForUrl) formPlanId).descriptor =
      some found) : found.allowsFinalExecution = false := by
  simp only [admissionReadings, Option.map_eq_some_iff, Option.bind_eq_some_iff] at hfound
  obtain ⟨⟨plan, descriptor⟩, ⟨entry, _, candidate, hcandidate, hentry⟩, rfl⟩ := hfound
  cases hentry
  exact Adapters.adapters_not_final descriptor (Adapters.adapterForUrl_mem hcandidate)

/-- The runner admits no command: its resolver is the registry, which leaves every adapter
below the tier of a final action. -/
theorem remoteAdmission_refused (attempt : Submission) :
    ¬Admits zone state (remoteAdmission state command acceptance readings formPlanId wallClock)
      attempt := by
  rintro ⟨after, hrun, _⟩
  unfold remoteAdmission runActions at hrun
  split at hrun
  · cases hrun
  next accepted haccept =>
  rcases performAccept_eq_ok haccept with rfl | ⟨admission, hlock, _, rfl⟩
  · simp [admissionSteps, runActions, perform, performAdmission] at hrun
  obtain ⟨grant, grantId, request, hstaged⟩ := lockAcceptance_eq_ok hlock
  obtain ⟨capabilities, ttlSeconds, rfl⟩ := hstaged.admission
  obtain ⟨view, row, canary, hcreated, _⟩ :=
    run_admissionSteps (by exact ⟨rfl, rfl, rfl, rfl⟩ : OpenedFor request _) hrun
  obtain ⟨_, plan, _, _, _, adapter, _, hgates, _⟩ :=
    createLocked_eq_created hcreated.created
  obtain ⟨found, hfound, hfinal⟩ := validateAdapter_final hgates.qualified
  rw [registry_not_final hfound] at hfinal
  cases hfinal

end Remote

/-! ## The operator -/

section Attempts

theorem le_foldl_max (values : List ℕ) (start : ℕ) :
    start ≤ values.foldl max start ∧ ∀ value ∈ values, value ≤ values.foldl max start := by
  induction values generalizing start with
  | nil => simp
  | cons head rest ih =>
    obtain ⟨hstart, hrest⟩ := ih (max start head)
    rw [List.foldl_cons]
    refine ⟨(le_max_left _ _).trans hstart, ?_⟩
    intro value hvalue
    rcases List.mem_cons.mp hvalue with rfl | hmem
    · exact (le_max_right _ _).trans hstart
    · exact hrest value hmem

theorem attemptNumber_lt_next (hmem : attempt ∈ db.submissions) :
    attempt.attemptNumber < nextAttemptNumber db attempt.applicationId := by
  apply Nat.lt_succ_of_le
  apply (le_foldl_max _ 0).2
  apply List.mem_map_of_mem
  simp [hmem]

/-- What a request of the operator is admitted under: nothing but the operator. -/
def operatorAuthority : AdmittedAuthority := ⟨none, none, none⟩

/-- The authority and the key of a request of the operator. -/
structure ByOperator (request : SubmissionCommandRequest) : Prop where
  kind : request.authorityKind = .explicitOperator
  decision : request.automationPolicyDecisionId = none
  canary : request.qualificationCanaryAuthorizationId = none
  deadline : request.authorityExpiresAt = none

theorem operatorRequest_byOperator (grant : ReviewGrant) (formPlanId key : String)
    (identity : ClientReleaseIdentity) :
    ByOperator (operatorRequest grant formPlanId key identity) :=
  ⟨rfl, rfl, rfl, rfl⟩

theorem validatePlan_permits
    (hvalid : validatePlan applicationId application plan request qualified now =
      .ok domainPlan) :
    plan.attachmentVerified = true ∧ columnText plan.attachedCvHash ≠ "" ∧
      now < plan.expiresAt := by
  simp only [validatePlan, bind_eq_ok] at hvalid
  obtain ⟨_, hcolumns, hvalid⟩ := hvalid
  rw [requireBindings_eq_ok] at hcolumns
  have hattached := hcolumns (decide (columnText plan.attachedCvId ≠ "")
    && decide (columnText plan.attachedCvHash ≠ "") && plan.attachmentVerified,
    .attachmentUnverified) (by simp [planColumnChecks])
  simp only [Bool.and_eq_true, decide_eq_true_eq] at hattached
  split at hvalid
  · cases hvalid
  next loaded hload =>
  obtain ⟨_, _, _, _, _, _, hexpires, _⟩ := loadDomainPlan_eq_some hload
  simp only [bind_eq_ok] at hvalid
  obtain ⟨_, hchecks, _⟩ := hvalid
  rw [requireBindings_eq_ok] at hchecks
  have hlive := hchecks (!loaded.isExpired now, .formPlanExpired)
    (by simp [planAdmissionChecks])
  simp only [FormPlanV1.isExpired, hexpires, Bool.not_eq_true', decide_eq_false_iff_not,
    not_le] at hlive
  exact ⟨hattached.2, hattached.1.2, hlive⟩

theorem permitExpiry_live (hlive : now < plan.expiresAt) (ttlSeconds : ℤ) :
    now < permitExpiry plan ttlSeconds now none := by
  have hsecond : (0 : ℤ) < max 1 ttlSeconds * second :=
    Int.mul_pos (Int.lt_of_lt_of_le Int.one_pos (le_max_left 1 ttlSeconds)) (by decide)
  exact lt_min hlive (Int.lt_add_of_pos_right now hsecond)

/-- A row of the operator's request fits the table when its key is new and no attempt of the
application is left. -/
theorem insert_operatorRow (hoperator : ByOperator request)
    (hblocked : ∀ check ∈ admissionBlocked db request.applicationId application, check.1 = true)
    (hkeys : ∀ row ∈ db.submissions, row.idempotencyKey ≠ request.clientIdempotencyKey ∧
      ∀ command, row.command = some command →
        command.idempotencyKey ≠ request.clientIdempotencyKey)
    (permit : Option PermitRow) (command : Option SubmissionCommand)
    (hcommand : command = none ∨ command = some (pendingCommand request now)) :
    ∃ after, db.insertSubmission
      { admittedRow request (nextAttemptNumber db request.applicationId) planId plan adapter
          release operatorAuthority with
        permit, command } = .ok after := by
  have hfinished : ∀ row ∈ db.submissions, row.applicationId = request.applicationId →
      row.stage = .finished := by
    intro row hrow howner
    simp only [admissionBlocked, List.mem_cons, List.not_mem_nil, or_false,
      forall_eq_or_imp, forall_eq] at hblocked
    simpa using List.all_eq_true.mp hblocked.2.2.2 row (by simp [hrow, howner])
  refine ⟨_, if_pos ?_⟩
  simp only [Bool.and_eq_true]
  refine ⟨⟨?_, ?_⟩, ?_⟩
  · have hpending : command.all SubmissionCommand.checks = true := by
      rcases hcommand with rfl | rfl <;> rfl
    simp [Submission.checks, Submission.authorityChecks, admittedRow, operatorAuthority,
      hoperator.kind, hpending]
  · rw [Db.unfinishedFree_iff]
    intro _ other row hrow _ howner
    exact hfinished row (List.mem_of_getElem? hrow) howner
  · rw [Db.keysFree, List.all_eq_true]
    intro row hrow
    obtain ⟨hkey, hcommands⟩ := hkeys row hrow
    have hnumber : row.applicationId ≠ request.applicationId ∨
        row.attemptNumber ≠ nextAttemptNumber db request.applicationId := by
      by_cases howner : row.applicationId = request.applicationId
      · have hlt := attemptNumber_lt_next hrow
        rw [howner] at hlt
        exact .inr (Nat.ne_of_lt hlt)
      · exact .inl howner
    rcases hcommand with rfl | rfl
    · simp [admittedRow, operatorAuthority, hkey, hnumber]
    cases hstored : row.command with
    | none => simp [admittedRow, operatorAuthority, hkey, hnumber]
    | some stored =>
      have hcommand := hcommands stored hstored
      simp [admittedRow, operatorAuthority, hkey, hnumber, pendingCommand, hcommand]

end Attempts

section Local

def openedAdmission (settings : AdmissionSettings) (capabilities : Capabilities)
    (request : SubmissionCommandRequest) (now : Timestamp) : Admission where
  capabilities
  ttlSeconds := settings.submitPermitTtlSeconds
  timestamp := now
  requests := [request]
  waiting := [request]
  lookedUp := false
  locks := []
  staged := nothingStaged
  results := []
  phase := .running

theorem openedAdmission_openedFor :
    OpenedFor request (openedAdmission settings capabilities request now) :=
  ⟨rfl, rfl, rfl, rfl⟩

theorem perform_beginAdmission (hoperator : ByOperator request) :
    perform zone state (.beginAdmission settings capabilities [request] now) =
      if settings.operatorAuthConfigured then
        .ok (state.withAdmission (openedAdmission settings capabilities request now))
      else .error (.admission .operatorAuthRequired) := by
  have hkind : ([request].any fun found => decide (found.authorityKind = .controlPlane)) =
      false := by
    simp [hoperator.kind]
  cases hconfigured : settings.operatorAuthConfigured <;>
    simp [perform, hkind, beginAdmission, batchGates, requireBindings, hconfigured, bind,
      Except.bind, sortedRequests, openedAdmission, LocalState.withAdmission]

/-- What the qualification of a stored plan gives to its admission. -/
theorem admissionReadings_effective
    (hplanned : planWithPublicId db formPlanId = some (plan, planId)) :
    ((∃ adapter, validateAdapter (admissionReadings db readings none formPlanId).descriptor
        plan = .ok adapter) ∧
      (admissionReadings db readings none formPlanId).sessionLive = true) ↔
      SendQualified readings plan := by
  simp only [admissionReadings, hplanned, Option.bind_some, descriptorCandidate]
  constructor
  · rintro ⟨⟨adapter, hadapter⟩, hsession⟩
    cases heffective : effectiveLiveDescriptorForPlan readings.qualification readings.url
        plan with
    | none =>
      rw [heffective] at hadapter
      cases hadapter
    | some descriptor =>
      simp only [heffective, Option.map_some, validateAdapter, bind_eq_ok] at hadapter
      obtain ⟨_, hbindings, _⟩ := hadapter
      have hform := requireBindings_eq_ok.mp hbindings
        ((liveDescriptor plan descriptor).qualifiesForm, .formChanged) (by simp)
      rw [heffective] at hsession
      exact ⟨descriptor, heffective, hform, by simpa using hsession⟩
  · rintro ⟨descriptor, heffective, hform, hsession⟩
    have hfinal := Adapters.effectiveLiveDescriptorForPlan_final heffective
    obtain ⟨registered, _, hmatches, hsame⟩ :=
      Adapters.effectiveLiveDescriptorForPlan_eq_some heffective
    simp only [Adapters.descriptorMatchesPlan, Bool.and_eq_true, decide_eq_true_eq] at hmatches
    have hplatform : descriptor.platform = plan.adapterName := by
      rw [hsame]
      exact hmatches.1.1.1.1
    have hversion : descriptor.adapterVersion = plan.adapterVersion := by
      rw [hsame]
      exact hmatches.1.1.1.2
    have hselector : descriptor.selectorVersion = plan.selectorVersion := by
      rw [hsame]
      exact hmatches.1.1.2
    rw [heffective]
    refine ⟨⟨⟨descriptor.platform, descriptor.adapterVersion, descriptor.selectorVersion⟩, ?_⟩,
      by simpa using hsession⟩
    simp [validateAdapter, liveDescriptor, requireBindings, hplatform, hversion, hselector,
      hfinal, hform, bind, Except.bind, pure, Except.pure]

theorem keys_of_admitted (hfresh : findReplay db request = .ok none)
    (hinsert : db.insertSubmission (admittedRow request
      (nextAttemptNumber db request.applicationId) planId plan adapter release authority) =
        .ok after) :
    ∀ row ∈ db.submissions, row.idempotencyKey ≠ request.clientIdempotencyKey ∧
      ∀ command, row.command = some command →
        command.idempotencyKey ≠ request.clientIdempotencyKey := by
  intro row hrow
  obtain ⟨_, _, _, hkeys⟩ := Db.insertSubmission_eq_ok hinsert
  have hentry := List.all_eq_true.mp hkeys row hrow
  simp only [Bool.and_eq_true, decide_eq_true_eq] at hentry
  refine ⟨hentry.1.1.1, ?_⟩
  intro command hcommand hsame
  have hnone := findReplay_eq_none hfresh
  rw [commandWithKey, List.find?_eq_none] at hnone
  obtain ⟨index, hindex⟩ := List.mem_iff_getElem?.mp hrow
  have hstored := hnone (row, index) (List.mk_mem_zipIdx_iff_getElem?.mpr hindex)
  simp [hcommand, hsame] at hstored

theorem findReplay_none (hkeys : ∀ row ∈ db.submissions, ∀ command,
    row.command = some command → command.idempotencyKey ≠ request.clientIdempotencyKey) :
    findReplay db request = .ok none := by
  have hnone : commandWithKey db request.clientIdempotencyKey = none := by
    rw [commandWithKey, List.find?_eq_none]
    rintro ⟨row, index⟩ hentry
    have hrow := List.mem_of_getElem? (List.mk_mem_zipIdx_iff_getElem?.mp hentry)
    rw [Bool.not_eq_true, Option.any_eq_false]
    intro command hcommand
    simpa using hkeys row hrow command hcommand
  rw [findReplay, hnone]

/-- An admitted request of the operator passed every gate. -/
theorem sendable_of_admits (hoperator : ByOperator request)
    (hadmits : Admits zone state
      (localAdmission state settings capabilities request readings now wallClock) attempt) :
    SendableLocally state settings capabilities request readings now := by
  obtain ⟨after, hrun, _⟩ := hadmits
  unfold localAdmission runActions at hrun
  rw [perform_beginAdmission hoperator] at hrun
  split at hrun
  · cases hrun
  next begun hbegin =>
  split at hbegin
  · next hconfigured =>
    cases hbegin
    obtain ⟨view, row, canary, hcreated, _⟩ :=
      run_admissionSteps openedAdmission_openedFor hrun
    have hview : view = state.db := (Except.ok.inj hcreated.viewed).symm
    subst hview
    obtain ⟨application, plan, planId, release, authority, adapter, permit, hgates, _⟩ :=
      createLocked_eq_created hcreated.created
    obtain ⟨stored, hinserted⟩ := hgates.inserted
    obtain ⟨jobUrlHash, hurl, _⟩ := hgates.permitted
    refine ⟨plan, ?_, (admissionReadings_effective hgates.planned).mp
      ⟨⟨adapter, hgates.qualified⟩, hgates.session⟩⟩
    exact
      { operator := hconfigured
        release := hcreated.release
        unlocked := hcreated.unlocked
        keys := keys_of_admitted hgates.fresh hinserted
        planned := ⟨planId, hgates.planned⟩
        reviewed := ⟨application, hgates.stored, hgates.revision, hgates.draft,
          hgates.current, hgates.blocked, hgates.valid⟩
        profile := hgates.profile
        runtime := ⟨release, hgates.runtime⟩
        jobUrl := ⟨jobUrlHash, hurl⟩ }
  · cases hbegin

/-- A request of the operator that passes every gate is admitted. -/
theorem SendableLocally.admits (hoperator : ByOperator request)
    (hsendable : SendableLocally state settings capabilities request readings now) :
    ∃ attempt, Admits zone state
      (localAdmission state settings capabilities request readings now wallClock) attempt := by
  obtain ⟨plan, hgates, hqualified⟩ := hsendable
  obtain ⟨planId, hplanned⟩ := hgates.planned
  obtain ⟨application, hstored, hrevision, hdraft, hcurrent, hblocked, domainPlan, hvalid,
    hmodel⟩ := hgates.reviewed
  obtain ⟨release, hruntime⟩ := hgates.runtime
  obtain ⟨jobUrlHash, hurl⟩ := hgates.jobUrl
  obtain ⟨⟨adapter, hadapter⟩, hsession⟩ :=
    (admissionReadings_effective hplanned).mpr hqualified
  have hfresh : findReplay state.db request = .ok none :=
    findReplay_none fun row hrow => (hgates.keys row hrow).2
  obtain ⟨hverified, hattached, hlive⟩ := validatePlan_permits hvalid
  have hauthority : validateAutomationAuthority zone state.db request application planId plan
      (admissionReadings state.db readings none request.formPlanId) now =
        .ok operatorAuthority := by
    simp [validateAutomationAuthority, hoperator.kind, hoperator.decision, hoperator.canary,
      hoperator.deadline, operatorAuthority]
  obtain ⟨permit, hpermit⟩ : ∃ permit, issueFinalSubmitPermit (admittedRow request
      (nextAttemptNumber state.db request.applicationId) planId plan adapter release
        operatorAuthority) plan jobUrlHash readings.nonceHash settings.submitPermitTtlSeconds
      now none = .ok permit := by
    have hexpiry := permitExpiry_live hlive settings.submitPermitTtlSeconds
    simp [issueFinalSubmitPermit, hverified, hattached, Int.not_le.mpr hexpiry]
  have hinsert : ∀ permit command,
      command = none ∨ command = some (pendingCommand request now) →
      ∃ after, state.db.insertSubmission
        { admittedRow request (nextAttemptNumber state.db request.applicationId) planId plan
            adapter release operatorAuthority with
          permit, command } = .ok after :=
    insert_operatorRow hoperator hblocked hgates.keys
  have hlocked : LockedGates zone state.db capabilities settings.submitPermitTtlSeconds request
      (admissionReadings state.db readings none request.formPlanId) now application plan planId
      release operatorAuthority adapter permit :=
    { stored := hstored, fresh := hfresh, revision := hrevision, draft := hdraft
      current := hcurrent, blocked := hblocked, planned := hplanned
      valid := ⟨domainPlan, hvalid, hmodel⟩, profile := hgates.profile, runtime := hruntime
      authorized := hauthority, qualified := hadapter, session := hsession
      inserted := hinsert none none (.inl rfl)
      permitted := ⟨jobUrlHash, hurl, hpermit⟩ }
  have hcreated : CreatedAlone zone state
      (openedAdmission settings capabilities request now) request
      (admissionReadings state.db readings none request.formPlanId) state.db
      (createdRow state.db request now plan planId release operatorAuthority adapter permit)
      none :=
    ⟨rfl, hgates.release, hfresh, hgates.unlocked, hlocked.created⟩
  obtain ⟨stored, hfull⟩ := hinsert (some permit) (some (pendingCommand request now)) (.inr rfl)
  have happlied : applyStaged state.db
      (createdAdmission (openedAdmission settings capabilities request now) request
        (createdRow state.db request now plan planId release operatorAuthority adapter permit)
        none).staged = .ok stored := by
    simp only [createdAdmission, lookedUpAdmission, openedAdmission, Admission.created,
      nothingStaged, applyStaged, storeStagedAcceptance, List.nil_append, storeAdded, createdRow,
      hfull, bind, Except.bind, pure, Except.pure]
    rfl
  refine ⟨createdRow state.db request now plan planId release operatorAuthority adapter permit,
    committedAlone state (openedAdmission settings capabilities request now) request
      (createdRow state.db request now plan planId release operatorAuthority adapter permit)
      none wallClock, ?_, ?_⟩
  · unfold localAdmission runActions
    rw [perform_beginAdmission hoperator, if_pos hgates.operator]
    exact hcreated.run openedAdmission_openedFor happlied
  · obtain ⟨hsubmissions, _⟩ := Db.insertSubmission_eq_ok hfull
    have hdeadline : ((createdAdmission (openedAdmission settings capabilities request now)
        request (createdRow state.db request now plan planId release operatorAuthority adapter
          permit) none).requests.any fun found =>
        found.authorityExpiresAt.any fun deadline => decide (deadline ≤ wallClock)) = false := by
      simp [createdAdmission, lookedUpAdmission, openedAdmission, Admission.created,
        hoperator.deadline]
    simp only [committedAlone, commitAdmission, hdeadline, happlied, hsubmissions]
    rfl

end Local

/-! ## Agreement -/

/-- The runner's admission of a command agrees with the operator's request exactly when the
operator's request is refused: the plan is not qualified, or a shared gate fails. -/
theorem admissions_agree_iff (zone : Zone) (state : LocalState)
    (command : VerifiedControlCommand) (acceptance : AcceptanceReadings)
    (settings : AdmissionSettings) (capabilities : Capabilities)
    (readings : PortalReadings) (grant : ReviewGrant) (formPlanId key : String)
    (identity : ClientReleaseIdentity) (now wallClock : Timestamp) :
    AdmissionsAgree zone state
        (remoteAdmission state command acceptance readings formPlanId wallClock)
        (localAdmission state settings capabilities
          (operatorRequest grant formPlanId key identity) readings now wallClock) ↔
      ¬SendableLocally state settings capabilities
        (operatorRequest grant formPlanId key identity) readings now := by
  have hoperator := operatorRequest_byOperator grant formPlanId key identity
  constructor
  · intro hagree hsendable
    obtain ⟨attempt, hremote⟩ := hagree.admitted.mpr (hsendable.admits hoperator)
    exact remoteAdmission_refused attempt hremote
  · intro hrefused
    constructor
    · constructor
      · rintro ⟨attempt, hremote⟩
        exact (remoteAdmission_refused attempt hremote).elim
      · rintro ⟨attempt, hlocal⟩
        exact (hrefused (sendable_of_admits hoperator hlocal)).elim
    · intro first second hremote
      exact (remoteAdmission_refused first hremote).elim

/-! ## A qualified plan -/

/-- The checks of the review-grant route on the adapter of a plan. -/
def remoteSendAllowed (readings : PortalReadings) (plan : FormPlan) : Bool :=
  (effectiveLiveDescriptorForPlan readings.qualification readings.url plan).any
    fun descriptor =>
      decide (descriptor.platform = plan.adapterName)
        && decide (descriptor.adapterVersion = plan.adapterVersion)
        && decide (descriptor.selectorVersion = plan.selectorVersion)
        && descriptor.allowsFinalExecution
        && descriptor.qualifiesFormFingerprint plan.fingerprint

/-- A command that carries the bindings of a grant, delivered before it expires. -/
structure BuiltFrom (grant : ReviewGrant) (command : VerifiedControlCommand)
    (acceptance : AcceptanceReadings) (wallClock : Timestamp) : Prop where
  grantId : command.grantId = grant.grantRef
  applicationRef : command.applicationRef = grant.remoteApplicationRef
  revision : command.applicationRevision = grant.applicationRevision
  adapter : command.adapter = grant.adapterName
  version : command.adapterVersion = grant.adapterVersion
  fingerprint : command.formFingerprintDigest = grant.formPlanFingerprint
  delivered : command.issuedAt ≤ acceptance.validatedAt ∧
    acceptance.validatedAt ≤ acceptance.consumedAt ∧ acceptance.consumedAt ≤ wallClock ∧
    wallClock < command.expiresAt ∧ wallClock < grant.expiresAt

/-- A plan of a registered adapter. -/
def qualifiedPlan : FormPlan :=
  { samplePlan with
    adapterName := "greenhouse"
    adapterVersion := "1.0.0"
    selectorVersion := "greenhouse-candidate-v9" }

/-- Its form class after a confirmed canary. -/
def canaryRecord : Adapters.AdapterQualificationRecord where
  qualificationTier := .liveCanaryQualified
  adapterName := "greenhouse"
  adapterVersion := "1.0.0"
  selectorVersion := "greenhouse-candidate-v9"
  executionContractVersion := "two-phase-v2"
  formFingerprint := "form"
  formContractDigest := "contract"
  fixtureDigest := "fixture"
  runnerRelease := sampleDigest
  qualifiedAt := 0
  invalidatedAt := none

def qualifiedReadings : PortalReadings where
  url := ⟨true, false, false, some "boards.greenhouse.io"⟩
  qualification := ⟨[canaryRecord], fun _ => some "fixture", some sampleDigest,
    fun _ => some "contract"⟩
  portalSessionReady := false
  materialIdentityQualified := true
  profileSnapshot := .ok ()
  automation := sampleAutomation
  canaryValid := false
  jobUrlHash := some "url"
  nonceHash := "nonce"

def qualifiedState : LocalState :=
  { sampleState with db := { sampleDb with formPlans := [qualifiedPlan] } }

theorem qualifiedState_initial : InitialState qualifiedState where
  db :=
    { applications := sampleState_initial.db.applications
      imported := fun _ _ hattempt => by cases hattempt
      applicationRefs := rfl
      reviewGrants := rfl
      receipts := rfl
      outbox := rfl
      policies := rfl
      decisions := rfl
      killEvents := rfl
      canaryAuthorizations := rfl }
  workers := rfl
  admissions := rfl
  commits := rfl

def qualifiedGrant : ReviewGrant :=
  mintedGrant ⟨0, 0, sampleDigest, 300, some "url", "grant", "application"⟩ sampleApplication
    qualifiedPlan "application" "url" (300 * second) 0

/-- The review-grant route has minted its grant. -/
def mintedState : LocalState :=
  endOf sampleZone qualifiedState
    [.mint ⟨0, 0, sampleDigest, 300, some "url", "grant", "application"⟩ 0]

theorem mintedState_grants : mintedState.db.reviewGrants = [qualifiedGrant] := by decide

def grantedCommand : VerifiedControlCommand where
  commandId := "command-0000-0001"
  grantId := "grant"
  applicationRef := "application"
  applicationRevision := 1
  adapter := "greenhouse"
  adapterVersion := "1.0.0"
  formFingerprintDigest := "form"
  deliveryNonce := "delivery"
  issuedAt := 1
  expiresAt := 60 * second
  envelopeDigest := "envelope"
  lifetime := by decide

def grantedAcceptance : AcceptanceReadings where
  capabilities := some digestCapabilities
  jobUrlHash := some "url"
  remoteAttemptRef := "attempt"
  settings := ⟨true, 300⟩
  validatedAt := 2
  consumedAt := 3

/-- The operator may send the plan, and the runner refuses the command of its grant. -/
theorem qualified_plan_refused_remotely :
    ¬∀ state, (localSystem sampleZone).Reachable anyStep state →
      ∀ (grant : ReviewGrant) (plan : FormPlan), grant ∈ state.db.reviewGrants →
        state.db.formPlans[grant.formPlanId]? = some plan →
        ∀ command acceptance readings wallClock, BuiltFrom grant command acceptance wallClock →
          remoteSendAllowed readings plan = true →
          ∀ capabilities, acceptance.capabilities = some capabilities →
            AdmissionsAgree sampleZone state
              (remoteAdmission state command acceptance readings plan.planId wallClock)
              (localAdmission state acceptance.settings capabilities
                (operatorRequest grant plan.planId "key" sampleIdentity) readings
                acceptance.consumedAt wallClock) := by
  intro hagree
  have hreach : (localSystem sampleZone).Reachable anyStep mintedState :=
    endOf_reachable (fun _ _ _ => trivial) qualifiedState_initial
  have hbuilt : BuiltFrom qualifiedGrant grantedCommand grantedAcceptance 4 :=
    ⟨rfl, rfl, rfl, rfl, rfl, rfl, by decide⟩
  have hboth := hagree mintedState hreach qualifiedGrant qualifiedPlan
    (by simp [mintedState_grants]) (by decide) grantedCommand grantedAcceptance
    qualifiedReadings 4 hbuilt (by decide) digestCapabilities rfl
  have hlocal : ∃ attempt, Admits sampleZone mintedState
      (localAdmission mintedState grantedAcceptance.settings digestCapabilities
        (operatorRequest qualifiedGrant qualifiedPlan.planId "key" sampleIdentity)
        qualifiedReadings grantedAcceptance.consumedAt 4) attempt :=
    ⟨_, _, rfl, rfl⟩
  obtain ⟨attempt, hremote⟩ := hboth.admitted.mpr hlocal
  exact remoteAdmission_refused attempt hremote

end JobApplyAgent.Kernel
