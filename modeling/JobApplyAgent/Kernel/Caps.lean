import JobApplyAgent.Kernel.AtMostOnce

/-!
# The caps of the autopilot

An allowed decision reserves one submission, and a reservation is never given back.  A
policy caps the reservations of a local day, of an hour and of a company.  Each call
reads its clock before the fence is granted, so decisions are committed in another
order than they are dated, and only the count of a company looks at dates from above.
-/

namespace JobApplyAgent.Kernel

open Domain Store Library

/-- Dated in the span of a length that ends at an instant. -/
def datedWithin (length : ℤ) (stop : Timestamp) (decision : PolicyDecision) : Bool :=
  decide (stop - length ≤ decision.evaluatedAt) && decide (decision.evaluatedAt ≤ stop)

def reservesFor (companyDigest : String) (decision : PolicyDecision) : Bool :=
  decision.allowed && decide (decision.companyDigest = companyDigest)

/-- The reservations of every hour and of every local day that does not end before a
decision, among those committed up to it. -/
structure PeriodCapsHold (zone : Zone) (policy : AutoSubmitPolicyV1)
    (committed : List PolicyDecision) (decision : PolicyDecision) : Prop where
  hourly : ∀ stop, decision.evaluatedAt ≤ stop →
    (committed.countP fun other => other.allowed && datedWithin hour stop other) ≤
      policy.hourlyLimit
  daily : ∀ date, zone.midnight (zone.localDate decision.evaluatedAt) ≤ zone.midnight date →
    (committed.countP fun other =>
      other.allowed && decide (zone.localDate other.evaluatedAt = date)) ≤ policy.dailyLimit

/-- The reservations of a decision's company in the fourteen days up to the latest of
them, among those committed up to the decision. -/
def CompanyCapHolds (policy : AutoSubmitPolicyV1) (committed : List PolicyDecision)
    (decision : PolicyDecision) : Prop :=
  ∀ latest ∈ committed, reservesFor decision.companyDigest latest = true →
    (∀ other ∈ committed, reservesFor decision.companyDigest other = true →
      other.evaluatedAt ≤ latest.evaluatedAt) →
    (committed.countP fun other => reservesFor decision.companyDigest other &&
      datedWithin (14 * day) latest.evaluatedAt other) ≤ policy.companyLimit

/-- Every allowed decision meets a condition on its policy and on the decisions that
were committed up to it. -/
def Capped (cap : AutoSubmitPolicyV1 → List PolicyDecision → PolicyDecision → Prop)
    (db : Db) : Prop :=
  ∀ earlier decision, earlier ++ [decision] <+: db.decisions → decision.allowed = true →
    ∃ record, db.policies[decision.policyRevisionId]? = some record ∧
      cap record.policy (earlier ++ [decision]) decision

/-- An application has one allowed decision at most. -/
def OneReservation (db : Db) : Prop :=
  db.decisions.Pairwise fun earlier later =>
    earlier.allowed = true → later.allowed = true →
      earlier.applicationId ≠ later.applicationId

/-- The company of an evaluation has no reservation yet that is dated after the clock
that the evaluation has read. -/
def EvaluatedInOrder (state : LocalState) : Action → Prop
  | .evaluate _ _ now readings => ∀ decision ∈ state.db.decisions,
      reservesFor readings.companyDigest decision = true → decision.evaluatedAt ≤ now
  | _ => True

/-- A decision row that an evaluation adds to the stored ones. -/
structure ReservedRow (zone : Zone) (db : Db) (now : Timestamp) (companyDigest : String)
    (decision : PolicyDecision) : Prop where
  dated : decision.evaluatedAt = now
  company : decision.companyDigest = companyDigest
  first : decision.allowed = true → existingAllowed db decision.applicationId = none
  below : decision.allowed = true → ∃ record,
    db.policies[decision.policyRevisionId]? = some record ∧
      (usageCounts zone db.decisions companyDigest now).daily < record.policy.dailyLimit ∧
      (usageCounts zone db.decisions companyDigest now).hourly < record.policy.hourlyLimit ∧
      (usageCounts zone db.decisions companyDigest now).company < record.policy.companyLimit

/-- What one action does to the policies and their decisions. -/
inductive ReservationStep (zone : Zone) (before : Db) : Action → Db → Prop
  | kept {action : Action} {after : Db} (hdecisions : after.decisions = before.decisions)
      (hpolicies : Evolved PolicyCarried (fun _ => True) before.policies after.policies) :
      ReservationStep zone before action after
  | reserved {applicationId formPlanId : ℕ} {now : Timestamp} {readings : AutomationReadings}
      {after : Db} {decision : PolicyDecision} (hpolicies : after.policies = before.policies)
      (hdecisions : after.decisions = before.decisions ++ [decision])
      (hrow : ReservedRow zone before now readings.companyDigest decision) :
      ReservationStep zone before (.evaluate applicationId formPlanId now readings) after

section Steps

variable {before : Db}

variable {held : ℕ → Bool} {kind : ActionKind} {id : ℕ}

theorem currentSignedPolicy_row
    (hcurrent : currentSignedPolicy db now readings = .ok (some (id, policy))) :
    ∃ record, db.policies[id]? = some record ∧ record.policy = policy := by
  unfold currentSignedPolicy at hcurrent
  split at hcurrent
  · cases hcurrent
  next found record hactive =>
  split at hcurrent
  · cases hcurrent
  split at hcurrent
  · cases hcurrent
  split at hcurrent
  · cases hcurrent
  cases hcurrent
  exact ⟨record, activePolicyRecord_eq_some hactive, rfl⟩

theorem below_caps_of_denialReasons (hnone : denialReasons context = []) :
    context.usage.daily < context.policy.dailyLimit ∧
      context.usage.hourly < context.policy.hourlyLimit ∧
      context.usage.company < context.policy.companyLimit := by
  rw [denialReasons, List.map_eq_nil_iff, List.filter_eq_nil_iff] at hnone
  have hdaily := hnone (decide (context.policy.dailyLimit ≤ context.usage.daily),
    .dailyLimitReached) (by simp [denialConditions])
  have hhourly := hnone (decide (context.policy.hourlyLimit ≤ context.usage.hourly),
    .hourlyLimitReached) (by simp [denialConditions])
  have hcompany := hnone (decide (context.policy.companyLimit ≤ context.usage.company),
    .companyLimitReached) (by simp [denialConditions])
  simp only [decide_eq_true_eq, not_le] at hdaily hhourly hcompany
  exact ⟨hdaily, hhourly, hcompany⟩

theorem evaluateAutoSubmitPolicy_reservation
    (hevaluate : evaluateAutoSubmitPolicy zone db applicationId formPlanId now readings =
      .ok (after, id)) :
    ReservationStep zone db (.evaluate applicationId formPlanId now readings) after := by
  rcases evaluateAutoSubmitPolicy_eq_ok hevaluate with
    rfl | ⟨application, plan, policyId, policy, fit, fitDecisionId, contractDigest, stored,
      _, hpolicy, hexisting, hpersist, rfl⟩
  · exact .kept rfl (.refl PolicyCarried.refl _ _)
  · rcases persistDecision_eq_ok hpersist with rfl | ⟨rfl, _⟩
    · exact .kept rfl (.refl PolicyCarried.refl _ _)
    have hrow : ReservedRow zone db now readings.companyDigest
        (decisionRow applicationId formPlanId policyId fitDecisionId
          (evaluationContext zone db application plan policy fit contractDigest readings
            now) (activeHoursDeadline zone now).2) := by
      constructor
      · rfl
      · rfl
      · exact fun _ => hexisting
      · intro hallowed
        obtain ⟨record, hrecord, rfl⟩ := currentSignedPolicy_row hpolicy
        exact ⟨record, hrecord,
          below_caps_of_denialReasons (List.isEmpty_iff.mp hallowed)⟩
    exact .reserved rfl rfl hrow

/-- Every action keeps the decisions, or is an evaluation that adds one. -/
theorem perform_reservation {next : LocalState} (hlocal : LocalOk state)
    (hperform : perform zone state action = .ok next) :
    ReservationStep zone state.db action next.db := by
  by_cases hkind : action.kind = .automation
  · cases action with
    | evaluate applicationId formPlanId now readings =>
      obtain ⟨_, db, hevaluate, rfl⟩ := transact_eq_ok hperform
      obtain ⟨id, hevaluate⟩ := map_fst_eq_ok hevaluate
      exact evaluateAutoSubmitPolicy_reservation hevaluate
    | killSwitch active source reasonCode commandDigest now =>
      obtain ⟨_, db, hset, rfl⟩ := transact_eq_ok hperform
      obtain ⟨⟨event, replayed⟩, hset⟩ := map_fst_eq_ok hset
      obtain ⟨_, _, ⟨_, rfl⟩ | ⟨_, rfl, _⟩⟩ := setAutomationKillSwitch_eq_ok hset
      · exact .kept rfl (.refl PolicyCarried.refl _ _)
      · exact .kept rfl (.refl PolicyCarried.refl _ _)
    | remoteKillSwitch command now =>
      obtain ⟨_, db, hactivate, rfl⟩ := transact_eq_ok hperform
      obtain ⟨⟨event, replayed⟩, hactivate⟩ := map_fst_eq_ok hactivate
      obtain ⟨_, _, ⟨_, rfl⟩ | ⟨_, rfl, _⟩⟩ :=
        setAutomationKillSwitch_eq_ok (activateControlPlaneKillSwitch_eq_ok hactivate)
      · exact .kept rfl (.refl PolicyCarried.refl _ _)
      · exact .kept rfl (.refl PolicyCarried.refl _ _)
    | activatePolicy policy signingKeyId accepted now =>
      obtain ⟨_, db, hactivate, rfl⟩ := transact_eq_ok hperform
      obtain ⟨policies, rfl, hpolicies⟩ := activateAutoSubmitPolicy_kept hactivate
      exact .kept rfl hpolicies
    | revokePolicy reasonCode now =>
      obtain ⟨_, db, hrevoke, rfl⟩ := transact_eq_ok hperform
      obtain ⟨policies, rfl, hpolicies⟩ := revokeAutoSubmitPolicy_kept hrevoke
      exact .kept rfl hpolicies
    | _ => cases hkind
  · obtain ⟨hpolicies, hdecisions, _⟩ :=
      (perform_change hlocal.store.logs.outbox hlocal.admissions hperform).autopilot hkind
    exact .kept hdecisions (hpolicies ▸ .refl PolicyCarried.refl _ _)

end Steps

section Caps

variable {before : Db}
  {decision : PolicyDecision}

/-- A count that a new last entry may raise by one stays within a limit that the wider
count was below. -/
theorem countP_concat_le {ρ : Type} {rows : List ρ} {row : ρ} {narrow wide : ρ → Bool}
    (hwide : ∀ other ∈ rows, narrow other = true → wide other = true)
    (hbelow : rows.countP wide < limit) : (rows ++ [row]).countP narrow ≤ limit := by
  have hrows : rows.countP narrow ≤ rows.countP wide := List.countP_mono_left hwide
  have hrow : [row].countP narrow ≤ 1 := List.countP_le_length
  rw [List.countP_append]
  omega

/-- The counts of the hour and of the day have no upper bound, so they hold whatever was
committed before. -/
theorem ReservedRow.periodCaps (hrow : ReservedRow zone db now companyDigest decision)
    (hallowed : decision.allowed = true) : ∃ record,
      db.policies[decision.policyRevisionId]? = some record ∧
        PeriodCapsHold zone record.policy (db.decisions ++ [decision]) decision := by
  obtain ⟨record, hrecord, hdaily, hhourly, _⟩ := hrow.below hallowed
  refine ⟨record, hrecord, ?_, ?_⟩
  · intro stop hstop
    apply countP_concat_le ?_ hhourly
    intro other _ hother
    rw [hrow.dated] at hstop
    simp only [datedWithin, Bool.and_eq_true, decide_eq_true_eq] at hother ⊢
    exact ⟨hother.1, (Int.sub_le_sub_right hstop hour).trans hother.2.1⟩
  · intro date hdate
    apply countP_concat_le ?_ hdaily
    intro other _ hother
    rw [hrow.dated] at hdate
    simp only [Bool.and_eq_true, decide_eq_true_eq] at hother ⊢
    refine ⟨hother.1, hdate.trans ?_⟩
    rw [← hother.2]
    exact zone.midnight_le other.evaluatedAt

/-- The latest reservation of the company is the new one when the earlier ones are dated
no later, and its window is then the one that was counted. -/
theorem ReservedRow.companyCap (hrow : ReservedRow zone db now companyDigest decision)
    (horder : ∀ other ∈ db.decisions, reservesFor companyDigest other = true →
      other.evaluatedAt ≤ now)
    (hallowed : decision.allowed = true) : ∃ record,
      db.policies[decision.policyRevisionId]? = some record ∧
        CompanyCapHolds record.policy (db.decisions ++ [decision]) decision := by
  obtain ⟨record, hrecord, _, _, hcompany⟩ := hrow.below hallowed
  refine ⟨record, hrecord, ?_⟩
  intro latest hlatest hreserves hmax
  rw [hrow.company] at hreserves hmax ⊢
  have hself : decision.evaluatedAt ≤ latest.evaluatedAt := by
    apply hmax decision (by simp)
    simp [reservesFor, hallowed, hrow.company]
  have hdated : latest.evaluatedAt = now := by
    rw [hrow.dated] at hself
    rcases List.mem_append.mp hlatest with hold | hnew
    · exact le_antisymm (horder latest hold hreserves) hself
    · rw [List.mem_singleton.mp hnew, hrow.dated]
  apply countP_concat_le ?_ hcompany
  intro other _ hother
  simp only [reservesFor, datedWithin, hdated, Bool.and_eq_true, decide_eq_true_eq]
    at hother ⊢
  exact ⟨⟨hother.1, hother.2.1⟩, hother.2.2⟩

/-- One step keeps every cap that it grants to the decision it adds. -/
theorem Capped.step (hcapped : Capped cap before)
    (hstep : ReservationStep zone before action after)
    (hnew : ∀ decision, after.decisions = before.decisions ++ [decision] →
      decision.allowed = true → ∃ record,
        before.policies[decision.policyRevisionId]? = some record ∧
          cap record.policy (before.decisions ++ [decision]) decision) :
    Capped cap after := by
  intro earlier decision hdecision hallowed
  cases hstep with
  | kept hdecisions hpolicies =>
    rw [hdecisions] at hdecision
    obtain ⟨record, hrecord, hcap⟩ := hcapped earlier decision hdecision hallowed
    obtain ⟨kept, hkept, hsame⟩ := hpolicies.kept _ record hrecord
    exact ⟨kept, hkept, by rwa [hsame]⟩
  | reserved hpolicies hdecisions hrow =>
    rw [hpolicies]
    rw [hdecisions, List.prefix_concat_iff] at hdecision
    rcases hdecision with hlast | hold
    · obtain ⟨rfl, hsame⟩ := List.append_inj' hlast rfl
      cases hsame
      exact hnew decision hdecisions hallowed
    · exact hcapped earlier decision hold hallowed

theorem OneReservation.step (hone : OneReservation before)
    (hstep : ReservationStep zone before action after) : OneReservation after := by
  cases hstep with
  | kept hdecisions => exact (congrArg _ hdecisions).mpr hone
  | reserved _ hdecisions hrow =>
    rw [OneReservation, hdecisions, List.pairwise_append]
    refine ⟨hone, List.pairwise_singleton _ _, ?_⟩
    intro earlier hearlier later hlater hallowed hnew hsame
    rw [List.mem_singleton] at hlater
    subst hlater
    have hnone := hrow.first hnew
    rw [existingAllowed, Option.map_eq_none_iff, List.find?_eq_none] at hnone
    obtain ⟨index, hindex⟩ := List.mem_iff_getElem?.mp hearlier
    have hentry := hnone (earlier, index) (List.mk_mem_zipIdx_iff_getElem?.mpr hindex)
    simp [hsame, hallowed] at hentry

end Caps

/-! ## Runs -/

/-- What the decisions keep in every run, whatever the order of the clocks. -/
structure PeriodsOk (zone : Zone) (db : Db) : Prop where
  capped : Capped (PeriodCapsHold zone) db
  single : OneReservation db

theorem periodsOk_invariant (guard : LocalState → Action → Prop) :
    (localSystem zone).Invariant guard fun state => LocalOk state ∧ PeriodsOk zone state.db where
  init := by
    intro state hinitial
    refine ⟨.initial hinitial, ?_, ?_⟩
    · intro earlier decision hdecision
      simp [hinitial.db.decisions] at hdecision
    · simp [OneReservation, hinitial.db.decisions]
  step := by
    intro before action after ⟨hlocal, hperiods⟩ _ hperform
    have hstep := perform_reservation hlocal hperform
    refine ⟨hlocal.perform hperform, ?_, hperiods.single.step hstep⟩
    apply hperiods.capped.step hstep
    intro decision hdecisions hallowed
    cases hstep with
    | kept hsame => simp [hsame] at hdecisions
    | reserved _ hadded hrow =>
      rw [hadded, List.append_cancel_left_eq, List.cons.injEq] at hdecisions
      rw [hdecisions.1] at hrow
      exact hrow.periodCaps hallowed

theorem companyCaps_invariant :
    (localSystem zone).Invariant EvaluatedInOrder fun state =>
      LocalOk state ∧ Capped CompanyCapHolds state.db where
  init := by
    intro state hinitial
    refine ⟨.initial hinitial, ?_⟩
    intro earlier decision hdecision
    simp [hinitial.db.decisions] at hdecision
  step := by
    intro before action after ⟨hlocal, hcaps⟩ hguard hperform
    have hstep := perform_reservation hlocal hperform
    refine ⟨hlocal.perform hperform, ?_⟩
    apply hcaps.step hstep
    intro decision hdecisions hallowed
    cases hstep with
    | kept hsame => simp [hsame] at hdecisions
    | reserved _ hadded hrow =>
      rw [hadded, List.append_cancel_left_eq, List.cons.injEq] at hdecisions
      rw [hdecisions.1] at hrow
      exact hrow.companyCap hguard hallowed

/-- The caps that a policy promises: of the hour, of the local day, of the company, and
of the application. -/
structure CapsOk (zone : Zone) (db : Db) : Prop where
  periods : PeriodsOk zone db
  company : Capped CompanyCapHolds db

/-- In every run the caps of the hour and of the local day hold of every allowed decision,
and an application has one of them at most. -/
theorem autopilot_period_caps (hreach : (localSystem zone).Reachable anyStep state) :
    PeriodsOk zone state.db :=
  ((periodsOk_invariant anyStep).reachable hreach).2

/-- All caps hold in every run in which the evaluations of one company commit in the order
of the clocks that they read. -/
theorem autopilot_caps (hreach : (localSystem zone).Reachable EvaluatedInOrder state) :
    CapsOk zone state.db :=
  ⟨((periodsOk_invariant EvaluatedInOrder).reachable hreach).2,
    (companyCaps_invariant.reachable hreach).2⟩

/-! ## Two applications of one company -/

instance (state : LocalState) (action : Action) : Decidable (EvaluatedInOrder state action) :=
  match action with
  | .evaluate _ _ now readings =>
    inferInstanceAs (Decidable (∀ decision ∈ state.db.decisions,
      reservesFor readings.companyDigest decision = true → decision.evaluatedAt ≤ now))
  | .environment _ | .claim .. | .load .. | .work .. | .reconcileStale .. | .skip ..
  | .retry .. | .reconcile .. | .beginAdmission .. | .accept .. | .lookup _ | .admitItem ..
  | .commitAdmission .. | .resolveConflict _ | .abortAdmission _ | .killSwitch ..
  | .remoteKillSwitch .. | .activatePolicy .. | .revokePolicy .. | .mint ..
  | .claimProjection .. | .markProjected .. | .releaseProjection .. | .claimRevocation ..
  | .markRevoked .. | .releaseRevocation .. | .claimEvent .. | .finishDelivery ..
  | .legacyClaim .. | .legacyMarkStale .. | .legacyMarkUnknown .. =>
    inferInstanceAs (Decidable True)

def companyApplication : Application :=
  { sampleApplication with jobFitDecisionId := some 0 }

/-- Two applications of one company, each with its form plan. -/
def companyState : LocalState :=
  { sampleState with
    db :=
      { sampleDb with
        applications := [companyApplication, companyApplication]
        formPlans := [samplePlan, { samplePlan with planId := "second", applicationId := 1 }] } }

/-- One submission for a company in fourteen days. -/
def singlePolicy : AutoSubmitPolicyV1 where
  policyId := "policy"
  revision := 0
  roleFamilies := ["cv"]
  geographies := [.israel]
  minimumFitScore := 80
  dailyLimit := 10
  hourlyLimit := 5
  companyLimit := 1
  permittedAdapters := ["ats"]
  qualifiedFormContracts := [⟨"ats", "1", "1", "contract"⟩]
  profileVersion := 1
  routingConfigDigest := "routing"
  cvManifestDigest := "manifest"
  fitQualificationDigest := "qualification"
  confirmedAnswerRevision := "answers"
  activatedAt := 0
  expiresAt := day
  payloadDigest := "payload"

def companyFit : FitDecision where
  decisionDigest := "fit"
  qualityEligible := true
  fitScore := 90
  selectedCvId := "cv"
  selectedCvHash := some "cv-hash"
  jobDigest := "job"
  profileVersion := 1
  routingConfigDigest := "routing"
  cvManifestDigest := "manifest"
  qualificationDigest := "qualification"

/-- Readings under which nothing but a cap denies a submission. -/
def companyReadings (decisionDigest : String) : AutomationReadings where
  policyVerified := true
  latestProfileVersion := some 1
  artifactBindingsCurrent := true
  confirmedAnswerRevision := "answers"
  formContractDigest := some "contract"
  fitDecision := some companyFit
  fitMatchesJob := true
  jobContentDigest := "job"
  companyDigest := "company"
  geography := some .israel
  descriptor := some ⟨"ats", "1", "1"⟩
  scopeHasLiveCanary := fun _ => true
  decisionDigest

theorem companyState_initial : InitialState companyState where
  db :=
    { applications := by
        intro key application happlication
        have hmem := List.mem_of_getElem? happlication
        simp only [companyState, List.mem_cons, List.not_mem_nil, or_false, or_self] at hmem
        subst hmem
        decide
      imported := fun _ _ hattempt => by cases hattempt
      applicationRefs := rfl
      reviewGrants := rfl
      receipts := rfl
      outbox := rfl
      policies := rfl
      decisions := rfl
      killEvents := rfl
      canaryAuthorizations := rfl }
  workers := rfl
  admissions := rfl
  commits := rfl

def companyRun (check : LocalState → Action → Bool) (actions : List Action) : LocalState :=
  TransitionSystem.runEnd (fun state action => (perform sampleZone state action).toOption)
    check companyState actions

theorem companyRun_reachable {guard : LocalState → Action → Prop}
    (hcheck : ∀ state action, check state action = true → guard state action)
    (actions : List Action) :
    (localSystem sampleZone).Reachable guard (companyRun check actions) := by
  apply TransitionSystem.runEnd_reachable
  · intro before action after hperform
    cases hresult : perform sampleZone before action with
    | error error => simp [hresult, Except.toOption] at hperform
    | ok found =>
      rw [hresult] at hperform
      cases hperform
      exact hresult
  · exact hcheck
  · exact companyState_initial

/-- The second call gets the fence after the first has committed. -/
def orderedCalls : List Action :=
  [.activatePolicy singlePolicy "key" true 0, .evaluate 0 0 1 (companyReadings "first"),
    .evaluate 1 1 2 (companyReadings "second")]

theorem autopilot_caps_sample :
    (companyRun (fun state action => decide (EvaluatedInOrder state action))
      orderedCalls).db.decisions.map PolicyDecision.allowed = [true, false] ∧
    CapsOk sampleZone (companyRun (fun state action => decide (EvaluatedInOrder state action))
      orderedCalls).db :=
  ⟨by decide, autopilot_caps
    (companyRun_reachable (fun _ _ hcheck => of_decide_eq_true hcheck) orderedCalls)⟩

/-- The call with the later clock gets the fence first. -/
def crossedCalls : List Action :=
  [.activatePolicy singlePolicy "key" true 0, .evaluate 1 1 2 (companyReadings "second"),
    .evaluate 0 0 1 (companyReadings "first")]

def crossedReservations : List PolicyDecision :=
  (companyRun (fun _ _ => true) crossedCalls).db.decisions

theorem autopilot_period_caps_sample :
    crossedReservations.map PolicyDecision.allowed = [true, true] ∧
      PeriodsOk sampleZone (companyRun (fun _ _ => true) crossedCalls).db :=
  ⟨by decide, autopilot_period_caps (companyRun_reachable (fun _ _ _ => trivial) crossedCalls)⟩

def firstCommitted : PolicyDecision := crossedReservations.get ⟨0, by decide⟩

def lastCommitted : PolicyDecision := crossedReservations.get ⟨1, by decide⟩

/-- The earlier clock does not see the reservation that was committed before it. -/
theorem company_cap_exceeded :
    ¬∀ state, (localSystem sampleZone).Reachable anyStep state → CapsOk sampleZone state.db := by
  intro hcaps
  have hreach : (localSystem sampleZone).Reachable anyStep
      (companyRun (fun _ _ => true) crossedCalls) :=
    companyRun_reachable (fun _ _ _ => trivial) crossedCalls
  have hlast : [firstCommitted] ++ [lastCommitted] <+: crossedReservations := by decide
  obtain ⟨record, hrecord, hcap⟩ := (hcaps _ hreach).company _ _ hlast (by decide)
  cases hrecord
  have hlimit := hcap firstCommitted (by decide) (by decide) (by decide)
  exact absurd hlimit (by decide)

end JobApplyAgent.Kernel
