import JobApplyAgent.Kernel.AdmissionSteps
import JobApplyAgent.Kernel.Accept

/-!
# Authority transactions

What the automation service, the review grants and the event delivery write:
none of them touches an attempt, and each keeps to its own tables.
-/

namespace JobApplyAgent.Kernel

open Domain Store Library

/-- A transaction of the automation service. -/
structure AutomationChange (touched : ℕ → Prop) (before after : Db) : Prop where
  submissions : after.submissions = before.submissions
  formPlans : after.formPlans = before.formPlans
  outbox : after.outbox = before.outbox
  receipts : after.receipts = before.receipts
  reviewGrants : after.reviewGrants = before.reviewGrants
  applications : Carried ApplicationCarried before.applications after.applications
  revisions : Carried ApplicationRevised before.applications after.applications
  others : ∀ id, ¬touched id → after.applications[id]? = before.applications[id]?

theorem AutomationChange.kept (hchange : AutomationChange touched before after) :
    ContentKept before after where
  plans := hchange.formPlans ▸ .refl PlanCarried.refl _
  revisions := hchange.revisions

theorem automationChange_of_same (hsubmissions : after.submissions = before.submissions)
    (hplans : after.formPlans = before.formPlans) (houtbox : after.outbox = before.outbox)
    (hreceipts : after.receipts = before.receipts)
    (hgrants : after.reviewGrants = before.reviewGrants)
    (happlications : after.applications = before.applications) :
    AutomationChange touched before after :=
  ⟨hsubmissions, hplans, houtbox, hreceipts, hgrants,
    happlications ▸ .refl ApplicationCarried.refl _,
    happlications ▸ .refl ApplicationRevised.refl _, fun _ _ => by rw [happlications]⟩

section Automation

variable {db : Db}

theorem applyDecision_carried (application : Application) (decision : PolicyDecision) :
    ApplicationCarried application (applyDecision application decision) := by
  unfold applyDecision
  split
  · exact ⟨id, fun hsource => by simp [markApplicationPrepared] at hsource⟩
  · exact ⟨id, fun hsource => ⟨hsource, rfl, rfl⟩⟩

theorem applyDecision_revised (application : Application) (decision : PolicyDecision) :
    ApplicationRevised application (applyDecision application decision) := by
  unfold applyDecision
  split
  · exact le_max_right 1 application.revision
  · exact le_refl application.revision

variable {id : ℕ}

/-- A stored decision is a new last one or the identical earlier one. -/
theorem persistDecision_eq_ok {decision : PolicyDecision}
    (hpersist : persistDecision db decision = .ok (after, id)) :
    after = db ∨
      after = { db with decisions := db.decisions ++ [decision] } ∧
        (decision.allowed = true → existingAllowed db decision.applicationId = none) := by
  unfold persistDecision at hpersist
  split at hpersist
  · split at hpersist
    · cases hpersist
    cases hpersist
    exact .inl rfl
  · split at hpersist
    · cases hpersist
    split at hpersist
    · cases hpersist
    next hexisting =>
    cases hpersist
    refine .inr ⟨rfl, fun hallowed => ?_⟩
    simpa [hallowed] using hexisting

variable {readings : AutomationReadings}
  {record : PolicyRevision}

section

variable (hevaluate : evaluateAutoSubmitPolicy zone db applicationId formPlanId now readings = .ok
  (after, id))
include hevaluate

/-- An evaluation returns the stored decision, or stores a new one of the
context it read and applies it to its application. -/
theorem evaluateAutoSubmitPolicy_eq_ok :
    after = db ∨
      ∃ application plan policyId policy fit fitDecisionId contractDigest stored,
        db.applications[applicationId]? = some application ∧
        currentSignedPolicy db now readings = .ok (some (policyId, policy)) ∧
        existingAllowed db applicationId = none ∧
        persistDecision db (decisionRow applicationId formPlanId policyId fitDecisionId
          (evaluationContext zone db application plan policy fit contractDigest readings
            now) (activeHoursDeadline zone now).2) = .ok (stored, id) ∧
        after = stored.setApplication applicationId (applyDecision application
          (decisionRow applicationId formPlanId policyId fitDecisionId
            (evaluationContext zone db application plan policy fit contractDigest readings
              now) (activeHoursDeadline zone now).2)) := by
  unfold evaluateAutoSubmitPolicy at hevaluate
  split at hevaluate
  · cases hevaluate
  · cases hevaluate
  next application plan happlication hplan =>
  split at hevaluate
  · cases hevaluate
  split at hevaluate
  · next fitDecisionId fit hfitId hfit =>
    split at hevaluate
    · cases hevaluate
    simp only [bind_eq_ok] at hevaluate
    obtain ⟨active, hactive, hevaluate⟩ := hevaluate
    split at hevaluate
    · cases hevaluate
    next policyId policy =>
    split at hevaluate
    · split at hevaluate
      · split at hevaluate
        · cases hevaluate
        split at hevaluate
        · cases hevaluate
        cases hevaluate
        exact .inl rfl
      · cases hevaluate
    · next hexisting =>
      split at hevaluate
      · cases hevaluate
      · cases hevaluate
      simp only [bind_eq_ok, pure_eq_ok] at hevaluate
      obtain ⟨⟨stored, found⟩, hpersist, hevaluate⟩ := hevaluate
      simp only [Prod.mk.injEq] at hevaluate
      obtain ⟨rfl, rfl⟩ := hevaluate
      exact .inr ⟨application, plan, policyId, policy, fit,
        fitDecisionId, _, stored, happlication, hactive, hexisting,
        hpersist, rfl⟩
  · cases hevaluate

theorem evaluateAutoSubmitPolicy_change :
    AutomationChange (· = applicationId) db after := by
  rcases evaluateAutoSubmitPolicy_eq_ok hevaluate with
    rfl | ⟨application, plan, policyId, policy, fit, fitDecisionId, contractDigest,
      stored, happlication, _, _, hpersist, rfl⟩
  · exact automationChange_of_same rfl rfl rfl rfl rfl rfl
  · have hstored : ∃ decisions, stored = { db with decisions } := by
      rcases persistDecision_eq_ok hpersist with rfl | ⟨rfl, _⟩
      · exact ⟨_, rfl⟩
      · exact ⟨_, rfl⟩
    obtain ⟨decisions, rfl⟩ := hstored
    refine ⟨rfl, rfl, rfl, rfl, rfl, ?_, ?_, ?_⟩
    · exact .set ApplicationCarried.refl happlication (applyDecision_carried _ _)
    · exact .set ApplicationRevised.refl happlication (applyDecision_revised _ _)
    · intro other hother
      exact List.getElem?_set_ne (Ne.symm hother)

end

section

variable (hset : setAutomationKillSwitch db active source reasonCode commandDigest now = .ok
  (after, event, replayed))
include hset

/-- A stop transition appends its event, numbered after the latest one, or finds
an event that already says so. -/
theorem setAutomationKillSwitch_eq_ok :
    (source = .vercelSignedKill → active = true ∧ commandDigest.isSome = true) ∧
      event.active = active ∧
      (replayed = true ∧ after = db ∨
        replayed = false ∧ after = { db with killEvents := db.killEvents ++ [event] } ∧
          event.source = source ∧ event.commandDigest = commandDigest ∧
          (∀ digest, commandDigest = some digest → db.killEvents.find?
            (fun stored => stored.commandDigest = some digest) = none) ∧
          event.revision =
            (latestKillSwitchEvent db).elim 1 fun latest => latest.revision + 1) := by
  unfold setAutomationKillSwitch at hset
  split at hset
  · cases hset
  split at hset
  · cases hset
  next hremote =>
  have hsource : source = .vercelSignedKill →
      active = true ∧ commandDigest.isSome = true := by
    intro hvercel
    simp only [hvercel, true_and, not_or, Bool.not_eq_true, Bool.not_eq_false,
      Option.isNone_eq_false_iff] at hremote
    exact hremote
  refine ⟨hsource, ?_⟩
  split at hset
  · cases hset
  simp only at hset
  split at hset
  · split at hset
    · cases hset
    next hmatch =>
    simp only [ne_eq, not_or, not_not] at hmatch
    cases hset
    exact ⟨hmatch.1, .inl ⟨rfl, rfl⟩⟩
  · next hreplay =>
    split at hset
    · next latest hlatest hdigest =>
      split at hset
      · next hsame =>
        cases hset
        exact ⟨hsame, .inl ⟨rfl, rfl⟩⟩
      · cases hset
        refine ⟨rfl, .inr ⟨rfl, rfl, rfl, rfl, ?_, ?_⟩⟩
        · intro digest hsome
          cases hsome
        · simp [hlatest]
    · cases hset
      refine ⟨rfl, .inr ⟨rfl, rfl, rfl, rfl, ?_, rfl⟩⟩
      rintro digest rfl
      simpa using hreplay

theorem setAutomationKillSwitch_change : AutomationChange touched db after := by
  obtain ⟨_, _, ⟨_, rfl⟩ | ⟨_, rfl, _⟩⟩ := setAutomationKillSwitch_eq_ok hset
  · exact automationChange_of_same rfl rfl rfl rfl rfl rfl
  · exact automationChange_of_same rfl rfl rfl rfl rfl rfl

end

theorem activateControlPlaneKillSwitch_eq_ok
    (hactivate : activateControlPlaneKillSwitch db command now = .ok result) :
    setAutomationKillSwitch db true .vercelSignedKill "REMOTE_OPERATOR_KILL"
      (some command.envelopeDigest) now = .ok result := by
  unfold activateControlPlaneKillSwitch at hactivate
  split at hactivate
  · cases hactivate
  split at hactivate
  · cases hactivate
  cases hset : setAutomationKillSwitch db true .vercelSignedKill
      "REMOTE_OPERATOR_KILL" (some command.envelopeDigest) now with
  | error error =>
    rw [hset] at hactivate
    cases hactivate
  | ok found =>
    rw [hset] at hactivate
    cases hactivate
    rfl

/-- A revision keeps the policy that its signature covers. -/
def PolicyCarried (before after : PolicyRevision) : Prop :=
  after.policy = before.policy

theorem PolicyCarried.refl (record : PolicyRevision) : PolicyCarried record record := rfl

/-- Policy revisions are retired and added, and never rewritten. -/
def PoliciesKept (before after : Db) : Prop :=
  ∃ policies, after = { before with policies } ∧
    Evolved PolicyCarried (fun _ => True) before.policies policies

theorem PoliciesKept.change (hkept : PoliciesKept db after) :
    AutomationChange touched db after := by
  obtain ⟨policies, rfl, _⟩ := hkept
  exact automationChange_of_same rfl rfl rfl rfl rfl rfl

theorem activePolicyRecord_eq_some (hactive : activePolicyRecord db = some (id, record)) :
    db.policies[id]? = some record := by
  simp only [activePolicyRecord, Option.map_eq_some_iff, Prod.mk.injEq] at hactive
  obtain ⟨⟨found, index⟩, hfound, rfl, rfl⟩ := hactive
  exact List.mk_mem_zipIdx_iff_getElem?.mp (List.mem_of_find?_eq_some hfound)

theorem supersede_kept (hrecord : db.policies[id]? = some record) :
    Carried PolicyCarried db.policies
      (db.policies.set id (supersede record now reason)) :=
  .set PolicyCarried.refl hrecord rfl

theorem activateAutoSubmitPolicy_kept
    (hactivate : activateAutoSubmitPolicy db policy signingKeyId accepted now =
      .ok after) : PoliciesKept db after := by
  unfold activateAutoSubmitPolicy at hactivate
  split at hactivate
  · cases hactivate
  simp only at hactivate
  split at hactivate
  · cases hactivate
  cases hactivate
  refine ⟨_, rfl, ?_⟩
  have hretired : Carried PolicyCarried db.policies (retiredPolicies db now) := by
    unfold retiredPolicies
    split
    · exact .refl PolicyCarried.refl _
    · next id record hactive => exact supersede_kept (activePolicyRecord_eq_some hactive)
  exact (hretired.evolved _).append _

theorem revokeAutoSubmitPolicy_kept
    (hrevoke : revokeAutoSubmitPolicy db reasonCode now = .ok after) :
    PoliciesKept db after := by
  unfold revokeAutoSubmitPolicy at hrevoke
  split at hrevoke
  · cases hrevoke
  split at hrevoke
  · cases hrevoke
  next id record hactive =>
  cases hrevoke
  exact ⟨_, rfl, (supersede_kept (activePolicyRecord_eq_some hactive)).evolved _⟩

end Automation

/-! ## Grants and delivery -/

/-- A grant of which only the delivery of its projection and of its revocation
moved on. -/
def DeliveryCarried (before after : ReviewGrant) : Prop :=
  after = { before with
    projectionState := after.projectionState
    projectionAvailableAt := after.projectionAvailableAt
    projectionClaimedAt := after.projectionClaimedAt
    projectionClaimToken := after.projectionClaimToken
    projectedAt := after.projectedAt
    revocationState := after.revocationState
    revocationAvailableAt := after.revocationAvailableAt
    revocationClaimedAt := after.revocationClaimedAt
    revocationClaimToken := after.revocationClaimToken
    revocationSentAt := after.revocationSentAt }

theorem DeliveryCarried.refl (grant : ReviewGrant) : DeliveryCarried grant grant := rfl

theorem DeliveryCarried.trans (first second third : ReviewGrant)
    (hfirst : DeliveryCarried first second) (hsecond : DeliveryCarried second third) :
    DeliveryCarried first third := by
  cases first
  cases second
  cases third
  simp_all [DeliveryCarried]

/-- Grants moved through delivery only. -/
def GrantsDelivered (before after : Db) : Prop :=
  ∃ grants, after = { before with reviewGrants := grants } ∧
    Carried DeliveryCarried before.reviewGrants grants

/-- An event of which only the delivery moved on. -/
def EventCarried (before after : OutboxRow) : Prop :=
  after = { before with
    state := after.state
    availableAt := after.availableAt
    claimedAt := after.claimedAt
    claimedBy := after.claimedBy
    claimToken := after.claimToken
    sentAt := after.sentAt
    deliveryCount := after.deliveryCount
    lastErrorCode := after.lastErrorCode }

theorem EventCarried.refl (row : OutboxRow) : EventCarried row row := rfl

theorem EventCarried.trans (first second third : OutboxRow)
    (hfirst : EventCarried first second) (hsecond : EventCarried second third) :
    EventCarried first third := by
  cases first
  cases second
  cases third
  simp_all [EventCarried]

/-- Events moved through delivery only. -/
def EventsDelivered (before after : Db) : Prop :=
  ∃ outbox, after = { before with outbox } ∧
    Carried EventCarried before.outbox outbox

section Delivery

variable {id token : ℕ}

theorem GrantsDelivered.refl (db : Db) : GrantsDelivered db db :=
  ⟨_, rfl, .refl DeliveryCarried.refl _⟩

variable {grant : ReviewGrant}

theorem grantsDelivered_set (hgrants : Carried DeliveryCarried db.reviewGrants grants)
    (hgrant : grants[id]? = some grant)
    (hnew : DeliveryCarried grant new) :
    GrantsDelivered db { db with reviewGrants := grants.set id new } :=
  ⟨_, rfl, hgrants.trans DeliveryCarried.trans
    (.set DeliveryCarried.refl hgrant hnew)⟩

theorem mem_ranked_of_head? {ρ : Type} {rows : List ρ} {pred : ρ → Bool} {rank : ρ → ℤ}
    {row : ρ} (hhead : (ranked rows pred rank).head? = some (row, id)) :
    rows[id]? = some row :=
  (mem_ranked (List.mem_of_mem_head? hhead)).1

theorem projectionClaimed_eq_some (hclaimed : projectionClaimed db id token = some grant) :
    db.reviewGrants[id]? = some grant := by
  rw [projectionClaimed, Option.filter_eq_some_iff] at hclaimed
  exact hclaimed.1

theorem revocationClaimed_eq_some (hclaimed : revocationClaimed db id token = some grant) :
    db.reviewGrants[id]? = some grant := by
  rw [revocationClaimed, Option.filter_eq_some_iff] at hclaimed
  exact hclaimed.1

theorem projectionReleased_carried (grant : ReviewGrant) :
    DeliveryCarried grant (projectionReleased now grant) := rfl

theorem revocationReleased_carried (grant : ReviewGrant) :
    DeliveryCarried grant (revocationReleased now grant) := rfl

theorem revocationExpired_carried (grant : ReviewGrant) :
    DeliveryCarried grant { grant with revocationState := .expired } := rfl

theorem eventRecovered_carried (row : OutboxRow) :
    EventCarried row (eventRecovered now row) := rfl

variable {settle : ReviewGrant → ReviewGrant}

theorem claimReviewGrantProjection_delivered
    (hclaim : claimReviewGrantProjection db runner token now = .ok (after, answer)) :
    GrantsDelivered db after := by
  have hrecovered : Carried DeliveryCarried db.reviewGrants
      (rewriteRanked db.reviewGrants (projectionStale now) (fun _ => 0) 25
        (projectionReleased now)) :=
    .rewriteRanked DeliveryCarried.refl DeliveryCarried.trans projectionReleased_carried
      _ _ _ _
  unfold claimReviewGrantProjection at hclaim
  split at hclaim
  · cases hclaim
  split at hclaim
  · cases hclaim
    exact .refl _
  · simp only at hclaim
    split at hclaim
    · cases hclaim
      exact ⟨_, rfl, hrecovered⟩
    · next grant id hhead =>
      cases hclaim
      exact grantsDelivered_set hrecovered (mem_ranked_of_head? hhead) rfl

theorem claimReviewGrantRevocation_delivered
    (hclaim : claimReviewGrantRevocation db runner token now = .ok (after, answer)) :
    GrantsDelivered db after := by
  have hexpired : Carried DeliveryCarried db.reviewGrants
      (rewriteRanked (rewriteRanked db.reviewGrants (revocationStale now) (fun _ => 0) 25
        (revocationReleased now)) (revocationExpired now) (fun _ => 0) 25
        fun grant => { grant with revocationState := .expired }) :=
    Carried.trans DeliveryCarried.trans
      (.rewriteRanked DeliveryCarried.refl DeliveryCarried.trans revocationReleased_carried
        _ _ _ _)
      (.rewriteRanked DeliveryCarried.refl DeliveryCarried.trans revocationExpired_carried
        _ _ _ _)
  unfold claimReviewGrantRevocation at hclaim
  split at hclaim
  · cases hclaim
  simp only at hclaim
  split at hclaim
  · cases hclaim
    exact ⟨_, rfl, hexpired⟩
  · next grant id hhead =>
    cases hclaim
    exact grantsDelivered_set hexpired (mem_ranked_of_head? hhead) rfl

/-- Settling a claimed projection moves its grant through delivery. -/
theorem projection_settled (hsettle : ∀ grant, DeliveryCarried grant (settle grant))
    (hresult : (match projectionClaimed db id token with
      | none => Except.error ReviewGrantError.projectionClaimLost
      | some grant =>
        .ok { db with reviewGrants := db.reviewGrants.set id (settle grant) }) =
      .ok after) :
    GrantsDelivered db after := by
  split at hresult
  · cases hresult
  next grant hgrant =>
  cases hresult
  exact grantsDelivered_set (.refl DeliveryCarried.refl _)
    (projectionClaimed_eq_some hgrant) (hsettle grant)

theorem revocation_settled (hsettle : ∀ grant, DeliveryCarried grant (settle grant))
    (hresult : (match revocationClaimed db id token with
      | none => Except.error ReviewGrantError.revocationClaimLost
      | some grant =>
        .ok { db with reviewGrants := db.reviewGrants.set id (settle grant) }) =
      .ok after) :
    GrantsDelivered db after := by
  split at hresult
  · cases hresult
  next grant hgrant =>
  cases hresult
  exact grantsDelivered_set (.refl DeliveryCarried.refl _)
    (revocationClaimed_eq_some hgrant) (hsettle grant)

theorem claimControlPlaneEvent_delivered (locked : ℕ → Bool) (runner : String) :
    EventsDelivered db (claimControlPlaneEvent db locked runner token now).1 := by
  have hrecovered : Carried EventCarried db.outbox
      (rewriteRanked db.outbox (eventStale now) (fun row => row.claimedAt.getD 0) 100
        (eventRecovered now)) :=
    .rewriteRanked EventCarried.refl EventCarried.trans eventRecovered_carried _ _ _ _
  unfold claimControlPlaneEvent
  simp only
  split
  · exact ⟨_, rfl, .refl EventCarried.refl _⟩
  next row id hhead =>
  have hmem := List.mem_of_mem_filter (List.mem_of_mem_head? hhead)
  exact ⟨_, rfl, hrecovered.trans EventCarried.trans
    (.set EventCarried.refl (mem_ranked hmem).1 rfl)⟩

theorem claimedRow_eq_some {row : OutboxRow} (hclaimed : claimedRow db id token = some row) :
    db.outbox[id]? = some row := by
  rw [claimedRow, Option.filter_eq_some_iff] at hclaimed
  exact hclaimed.1

theorem deliverClaimedControlPlaneEvent_delivered {delivered : Bool}
    (hdeliver : deliverClaimedControlPlaneEvent db id token delivered now = some after) :
    EventsDelivered db after := by
  obtain ⟨row, hrow, rfl⟩ := Option.map_eq_some_iff.mp hdeliver
  refine ⟨_, rfl, .set EventCarried.refl (claimedRow_eq_some hrow) ?_⟩
  split <;> rfl

/-- Minting revokes the unconsumed grants of its application and adds one. -/
theorem mintControlPlaneReviewGrant_eq_ok
    (hmint : mintControlPlaneReviewGrant db request now = .ok after) :
    ∃ grant refs, grant.applicationId = request.applicationId ∧
      grant.grantRef = request.newGrantRef ∧ grant.consumedAt = none ∧
      grant.consumedCommandRef = none ∧ grant.revokedAt = none ∧
      (∀ row ∈ db.reviewGrants, row.grantRef ≠ grant.grantRef) ∧
      after = { db with
        applicationRefs := refs
        reviewGrants :=
          db.reviewGrants.map (revokeGrant request.applicationId now) ++ [grant] } := by
  unfold mintControlPlaneReviewGrant at hmint
  split at hmint
  · cases hmint
  split at hmint
  · cases hmint
  split at hmint
  · cases hmint
  split at hmint
  · cases hmint
  simp only [bind_eq_ok] at hmint
  obtain ⟨plan, _, _, _, hmint⟩ := hmint
  split at hmint
  · cases hmint
  split at hmint
  · cases hmint
  simp only [storeMintedGrant] at hmint
  split at hmint
  · cases hmint
  next hfresh =>
  split at hmint
  · cases hmint
  cases hmint
  refine ⟨_, _, rfl, rfl, rfl, rfl, rfl, ?_, rfl⟩
  simpa using hfresh

end Delivery

end JobApplyAgent.Kernel
