import JobApplyAgent.Kernel.Attempt
import JobApplyAgent.Kernel.Permits

/-!
# Automation authority

Signed policies, the kill switch, and the decisions that reserve automatic
submissions.  Every writer below runs behind the transaction fence, so each of
them is one atomic step.  Values that come from files and from tables outside
this model are passed in as readings.
-/

namespace JobApplyAgent.Kernel

open Domain Store Library

/-- The civil calendar of the policy's time zone. -/
structure Zone where
  localDate : Timestamp → ℤ
  midnight : ℤ → Timestamp
  opens : ℤ → Timestamp
  closes : ℤ → Timestamp
  midnight_le : ∀ now, midnight (localDate now) ≤ now

inductive AutomationError where
  | decisionRequired
  | decisionInvalid
  | decisionDenied
  | decisionBindingMismatch
  | decisionDigestConflict
  | authorityExpired
  | authorityAlreadyReserved
  | policyNotActive
  | policyChanged
  | policyRejected
  | policyConflict
  | policyRevocationInvalid
  | profileVersionChanged
  | fitQualificationChanged
  | fitDecisionRequired
  | fitDecisionChanged
  | applicationNotFound
  | applicationRevisionChanged
  | attachmentChanged
  | confirmedAnswersChanged
  | formPlanNotFound
  | formPlanBlocked
  | formChanged
  | jobNotFound
  | adapterVersionChanged
  | adapterNotQualified
  | selectorDrift
  | killSwitchActive
  | killSwitchReasonInvalid
  | killSwitchCommandInvalid
  | killSwitchCommandConflict
  | remoteKillCanOnlyActivate
  | outsideActiveHours
  | integrity
  deriving DecidableEq

structure AdapterDescriptor where
  platform : String
  adapterVersion : String
  selectorVersion : String

/-- The fit decision an application points to. -/
structure FitDecision where
  decisionDigest : String
  qualityEligible : Bool
  fitScore : Rat
  selectedCvId : String
  selectedCvHash : Option String
  jobDigest : String
  profileVersion : ℕ
  routingConfigDigest : String
  cvManifestDigest : String
  qualificationDigest : String

/-- What the automation service reads outside the tables of this model. -/
structure AutomationReadings where
  policyVerified : Bool
  latestProfileVersion : Option ℕ
  artifactBindingsCurrent : Bool
  confirmedAnswerRevision : String
  formContractDigest : Option String
  fitDecision : Option FitDecision
  fitMatchesJob : Bool
  jobContentDigest : String
  companyDigest : String
  geography : Option Geography
  descriptor : Option AdapterDescriptor
  scopeHasLiveCanary : QualifiedFormContractV1 → Bool
  decisionDigest : String

/-! ## Kill switch -/

def latestKillSwitchEvent (db : Db) : Option KillSwitchEvent :=
  latestBy KillSwitchEvent.revision db.killEvents

def killSwitchActive (db : Db) : Bool :=
  (latestKillSwitchEvent db).any KillSwitchEvent.active

/-- A stable reason: an upper-case token of two to sixty-four characters. -/
def reasonValid (reason : String) : Bool :=
  let letters := reason.toList
  decide (2 ≤ letters.length) && decide (letters.length ≤ 64)
    && letters.all (fun letter => letter.isUpper || letter.isDigit || letter == '_')
    && (letters.head?.any Char.isUpper)

def digestValid (digest : String) : Bool :=
  let letters := digest.toList
  decide (letters.length = 64)
    && letters.all fun letter =>
      letter.isDigit || ('a' ≤ letter && letter ≤ 'f')

def setAutomationKillSwitch (db : Db) (active : Bool)
    (source : PolicyAuthoritySource) (reasonCode : String)
    (commandDigest : Option String) (now : Timestamp) :
    Except AutomationError (Db × KillSwitchEvent × Bool) :=
  if ¬reasonValid reasonCode then .error .killSwitchReasonInvalid
  else if source = .vercelSignedKill ∧ (¬active ∨ commandDigest.isNone) then
    .error .remoteKillCanOnlyActivate
  else if commandDigest.any fun digest => ¬digestValid digest then
    .error .killSwitchCommandInvalid
  else
    let replay := commandDigest.bind fun digest =>
      db.killEvents.find? fun event => event.commandDigest = some digest
    match replay with
    | some event =>
      if event.active ≠ active ∨ event.source ≠ source then
        .error .killSwitchCommandConflict
      else .ok (db, event, true)
    | none =>
      let latest := latestKillSwitchEvent db
      match latest, commandDigest with
      | some event, none =>
        if event.active = active then .ok (db, event, true)
        else
          let row : KillSwitchEvent :=
            { revision := event.revision + 1, active, source, reasonCode
              commandDigest := none, createdAt := now }
          .ok ({ db with killEvents := db.killEvents ++ [row] }, row, false)
      | latest, commandDigest =>
        let row : KillSwitchEvent :=
          { revision := latest.elim 1 fun event => event.revision + 1
            active, source, reasonCode, commandDigest, createdAt := now }
        .ok ({ db with killEvents := db.killEvents ++ [row] }, row, false)

/-! ## Signed policies -/

def activePolicyRecord (db : Db) : Option (ℕ × PolicyRevision) :=
  (db.policies.zipIdx.find? fun entry => entry.1.activeSlot).map
    fun entry => (entry.2, entry.1)

/-- The active policy, when its signature verifies and it has not expired. -/
def currentSignedPolicy (db : Db) (now : Timestamp)
    (readings : AutomationReadings) :
    Except AutomationError (Option (ℕ × AutoSubmitPolicyV1)) :=
  match activePolicyRecord db with
  | none => .ok none
  | some (id, record) =>
    if record.revokedAt.isSome then .ok none
    else if ¬readings.policyVerified then .error .policyRejected
    else if record.policy.expiresAt ≤ now then .ok none
    else .ok (some (id, record.policy))

def supersede (record : PolicyRevision) (now : Timestamp) (reason : String) :
    PolicyRevision :=
  { record with
    activeSlot := false
    revokedAt := some now
    revocationReason := some reason }

/-- The revisions with the active one superseded. -/
def retiredPolicies (db : Db) (now : Timestamp) : List PolicyRevision :=
  match activePolicyRecord db with
  | none => db.policies
  | some (id, record) =>
    db.policies.set id (supersede record now "AUTOMATION_POLICY_SUPERSEDED")

/-- Persist one signed revision in place of the active one.  `policyAccepted`
is the verdict of the scope, artifact and contract checks on the policy. -/
def activateAutoSubmitPolicy (db : Db) (policy : AutoSubmitPolicyV1)
    (signingKeyId : String) (policyAccepted : Bool) (now : Timestamp) :
    Except AutomationError Db :=
  if ¬policyAccepted then .error .policyRejected
  else
    let nextRevision :=
      (db.policies.map fun record => record.policy.revision).foldl max 0 + 1
    if (retiredPolicies db now).any fun record =>
        record.policy.payloadDigest = policy.payloadDigest then .error .policyConflict
    else
      .ok
        { db with
          policies := retiredPolicies db now ++
            [{ policy := { policy with revision := nextRevision }
               signingKeyId
               activeSlot := true
               revokedAt := none
               revocationReason := none }] }

def revokeAutoSubmitPolicy (db : Db) (reasonCode : String) (now : Timestamp) :
    Except AutomationError Db :=
  if ¬reasonValid reasonCode then .error .policyRevocationInvalid
  else
    match activePolicyRecord db with
    | none => .error .policyNotActive
    | some (id, record) =>
      .ok { db with policies := db.policies.set id (supersede record now reasonCode) }

/-! ## Evaluation -/

def scopeMatches (scope : QualifiedFormContractV1) (plan : FormPlan)
    (contractDigest : String) : Bool :=
  decide (scope.adapterName = plan.adapterName)
    && decide (scope.adapterVersion = plan.adapterVersion)
    && decide (scope.selectorVersion = plan.selectorVersion)
    && decide (scope.formContractDigest = contractDigest)

/-- The first matching scope has a live canary. -/
def scopeQualified (policy : AutoSubmitPolicyV1) (plan : FormPlan)
    (contractDigest : String) (readings : AutomationReadings) : Bool :=
  match policy.qualifiedFormContracts.find? fun scope =>
      scopeMatches scope plan contractDigest with
  | none => false
  | some scope => readings.scopeHasLiveCanary scope

structure UsageCounts where
  daily : ℕ
  hourly : ℕ
  company : ℕ

/-- Committed reservations.  Only the company window has an upper bound. -/
def usageCounts (zone : Zone) (decisions : List PolicyDecision)
    (companyDigest : String) (now : Timestamp) : UsageCounts where
  daily := decisions.countP fun decision =>
    decision.allowed
      && decide (zone.midnight (zone.localDate now) ≤ decision.evaluatedAt)
  hourly := decisions.countP fun decision =>
    decision.allowed && decide (now - hour ≤ decision.evaluatedAt)
  company := decisions.countP fun decision =>
    decision.allowed && decide (decision.companyDigest = companyDigest)
      && decide (now - 14 * day ≤ decision.evaluatedAt)
      && decide (decision.evaluatedAt ≤ now)

def activeHoursDeadline (zone : Zone) (now : Timestamp) : Bool × Timestamp :=
  let date := zone.localDate now
  (decide (zone.opens date ≤ now) && decide (now < zone.closes date),
    zone.closes date)

def latestProfileMatches (readings : AutomationReadings) (version : ℕ) : Bool :=
  decide (readings.latestProfileVersion = some version)

/-- Everything an evaluation holds in its hands when it collects reasons. -/
structure EvaluationContext where
  application : Application
  plan : FormPlan
  policy : AutoSubmitPolicyV1
  fit : FitDecision
  contractDigest : String
  usage : UsageCounts
  killed : Bool
  activeHours : Bool
  readings : AutomationReadings
  now : Timestamp

def profileVersionChanged (context : EvaluationContext) : Bool :=
  let version := context.policy.profileVersion
  !latestProfileMatches context.readings version
    || decide (context.fit.profileVersion ≠ version)
    || decide (context.application.profileVersion ≠ some version)
    || decide (context.plan.profileVersion ≠ some version)

def fitQualificationChanged (context : EvaluationContext) : Bool :=
  decide (context.fit.routingConfigDigest ≠ context.policy.routingConfigDigest)
    || decide (context.fit.cvManifestDigest ≠ context.policy.cvManifestDigest)
    || decide (context.fit.qualificationDigest ≠ context.policy.fitQualificationDigest)
    || !context.readings.artifactBindingsCurrent

def attachmentUnverified (context : EvaluationContext) : Bool :=
  let cvHash := context.application.selectedCvHash.getD ""
  decide (cvHash = "")
    || context.fit.selectedCvHash.isNone
    || decide (context.plan.selectedCvHash ≠ cvHash)
    || decide (context.plan.attachedCvHash ≠ some cvHash)
    || decide (context.fit.selectedCvHash ≠ some cvHash)
    || !context.plan.attachmentVerified

def evaluationFormChanged (context : EvaluationContext) : Bool :=
  context.plan.invalidatedAt.isSome
    || decide (context.plan.expiresAt ≤ context.now)
    || decide (context.plan.applicationRevision ≠ context.application.revision)

def adapterUnqualified (context : EvaluationContext) : Bool :=
  match context.readings.descriptor with
  | none => true
  | some descriptor =>
    decide (descriptor.platform ∉ context.policy.permittedAdapters)
      || decide (descriptor.platform ≠ context.plan.adapterName)
      || decide (descriptor.adapterVersion ≠ context.plan.adapterVersion)
      || decide (descriptor.selectorVersion ≠ context.plan.selectorVersion)

def geographyAllowed (context : EvaluationContext) : Bool :=
  context.readings.geography.any fun place => place ∈ context.policy.geographies

/-- Each denial with the condition under which it is reported, in order. -/
def denialConditions (context : EvaluationContext) :
    List (Bool × AutomationDenial) :=
  [(context.killed, .killSwitchActive),
    (!context.activeHours, .outsideActiveHours),
    (decide (context.application.status ≠ .draft), .applicationNotEligible),
    (decide (context.application.materialEligible ≠ some true), .materialNotEligible),
    (!context.fit.qualityEligible, .fitDecisionNotEligible),
    (decide (context.fit.fitScore < context.policy.minimumFitScore),
      .fitScoreBelowPolicy),
    (decide (context.fit.selectedCvId ∉ context.policy.roleFamilies),
      .roleFamilyNotPermitted),
    (!geographyAllowed context, .geographyNotPermitted),
    (decide (context.fit.jobDigest ≠ context.readings.jobContentDigest), .jobChanged),
    (profileVersionChanged context, .profileVersionChanged),
    (fitQualificationChanged context, .fitQualificationChanged),
    (decide (context.readings.confirmedAnswerRevision ≠
      context.policy.confirmedAnswerRevision), .confirmedAnswersChanged),
    (attachmentUnverified context, .attachmentUnverified),
    (evaluationFormChanged context, .formChanged),
    (!context.plan.blockers.isEmpty, .formPlanBlocked),
    (adapterUnqualified context, .adapterNotQualified),
    (!scopeQualified context.policy context.plan context.contractDigest
      context.readings, .formContractNotQualified),
    (decide (context.policy.dailyLimit ≤ context.usage.daily), .dailyLimitReached),
    (decide (context.policy.hourlyLimit ≤ context.usage.hourly), .hourlyLimitReached),
    (decide (context.policy.companyLimit ≤ context.usage.company),
      .companyLimitReached)]

def denialReasons (context : EvaluationContext) : List AutomationDenial :=
  ((denialConditions context).filter Prod.fst).map Prod.snd

def retryableDenials : List AutomationDenial :=
  [.killSwitchActive, .outsideActiveHours, .dailyLimitReached,
    .hourlyLimitReached, .companyLimitReached]

/-- The stored reason of a denial that needs the operator's review. -/
def denialText : AutomationDenial → AttemptReason
  | .applicationNotEligible => .other "APPLICATION_NOT_ELIGIBLE"
  | .materialNotEligible => .other "MATERIAL_NOT_ELIGIBLE"
  | .fitDecisionNotEligible => .other "FIT_DECISION_NOT_ELIGIBLE"
  | .fitScoreBelowPolicy => .other "FIT_SCORE_BELOW_POLICY"
  | .roleFamilyNotPermitted => .other "ROLE_FAMILY_NOT_PERMITTED"
  | .geographyNotPermitted => .other "GEOGRAPHY_NOT_PERMITTED"
  | .jobChanged => .other "JOB_CHANGED"
  | .profileVersionChanged => .other "PROFILE_VERSION_CHANGED"
  | .fitQualificationChanged => .other "FIT_QUALIFICATION_CHANGED"
  | .confirmedAnswersChanged => .other "CONFIRMED_ANSWERS_CHANGED"
  | .attachmentUnverified => .code .attachmentUnverified
  | .formChanged => .code .formChanged
  | .formPlanBlocked => .other "FORM_PLAN_BLOCKED"
  | .adapterNotQualified => .code .adapterNotQualified
  | .formContractNotQualified => .other "FORM_CONTRACT_NOT_QUALIFIED"
  | .killSwitchActive => .other "KILL_SWITCH_ACTIVE"
  | .outsideActiveHours => .other "OUTSIDE_ACTIVE_HOURS"
  | .dailyLimitReached => .other "AUTOMATION_DAILY_LIMIT_REACHED"
  | .hourlyLimitReached => .other "AUTOMATION_HOURLY_LIMIT_REACHED"
  | .companyLimitReached => .other "AUTOMATION_COMPANY_LIMIT_REACHED"

/-- An allowed decision lives until the policy, the active hours or five
minutes run out. -/
def decisionExpiry (policy : AutoSubmitPolicyV1) (deadline now : Timestamp) :
    Timestamp :=
  min policy.expiresAt (min deadline (now + 5 * minute))

def decisionRow (applicationId formPlanId policyRevisionId fitDecisionId : ℕ)
    (context : EvaluationContext) (deadline : Timestamp) : PolicyDecision :=
  let reasons := denialReasons context
  { policyRevisionId
    applicationId
    applicationRevision := context.application.revision
    fitDecisionId
    formPlanId
    decisionDigest := context.readings.decisionDigest
    policyDigest := context.policy.payloadDigest
    jobDigest := context.fit.jobDigest
    companyDigest := context.readings.companyDigest
    fitDecisionDigest := context.fit.decisionDigest
    formPlanPublicId := context.plan.planId
    formFingerprint := context.plan.fingerprint
    formContractDigest := context.contractDigest
    selectedCvHash := context.application.selectedCvHash.getD ""
    profileVersion := context.policy.profileVersion
    confirmedAnswerRevision := context.readings.confirmedAnswerRevision
    adapterName := context.plan.adapterName
    adapterVersion := context.plan.adapterVersion
    selectorVersion := context.plan.selectorVersion
    fitScore := context.fit.fitScore
    allowed := reasons.isEmpty
    reasonCodes := reasons
    authorityExpiresAt :=
      if reasons.isEmpty then some (decisionExpiry context.policy deadline context.now)
      else none
    evaluatedAt := context.now }

/-- `ck_application_policy_decisions_outcome`. -/
def decisionConsistent (decision : PolicyDecision) : Bool :=
  if decision.allowed then
    decision.reasonCodes.isEmpty
      && decision.authorityExpiresAt.any fun expiry =>
        decide (decision.evaluatedAt < expiry)
  else !decision.reasonCodes.isEmpty && decision.authorityExpiresAt.isNone

def sameDecisionKey (stored decision : PolicyDecision) : Bool :=
  decide (stored.applicationId = decision.applicationId)
    && decide (stored.policyRevisionId = decision.policyRevisionId)
    && decide (stored.applicationRevision = decision.applicationRevision)
    && decide (stored.formPlanId = decision.formPlanId)
    && decide (stored.decisionDigest = decision.decisionDigest)

def existingAllowed (db : Db) (applicationId : ℕ) : Option (ℕ × PolicyDecision) :=
  (db.decisions.zipIdx.find? fun entry =>
    decide (entry.1.applicationId = applicationId) && entry.1.allowed).map
      fun entry => (entry.2, entry.1)

/-- Store a decision, or find the identical one that is stored already. -/
def persistDecision (db : Db) (decision : PolicyDecision) :
    Except AutomationError (Db × ℕ) :=
  match db.decisions.zipIdx.find? fun entry => sameDecisionKey entry.1 decision with
  | some (stored, id) =>
    if { stored with fitDecisionId := decision.fitDecisionId } ≠ decision then
      .error .decisionDigestConflict
    else .ok (db, id)
  | none =>
    if ¬decisionConsistent decision then .error .decisionInvalid
    else if decision.allowed && (existingAllowed db decision.applicationId).isSome
    then .error .integrity
    else
      .ok ({ db with decisions := db.decisions ++ [decision] },
        db.decisions.length)

def applyDecision (application : Application) (decision : PolicyDecision) :
    Application :=
  if decision.allowed then
    markApplicationPrepared
      { application with
        approvedAt := some decision.evaluatedAt
        approvalSource := some .qualifiedAutopilotPolicy }
  else
    { application with
      needsReviewReason :=
        ((decision.reasonCodes.filter fun reason =>
          reason ∉ retryableDenials).head?).map denialText }

/-- What an evaluation has to find before it collects reasons. -/
def evaluationContext (zone : Zone) (db : Db) (application : Application)
    (plan : FormPlan) (policy : AutoSubmitPolicyV1) (fit : FitDecision)
    (contractDigest : String) (readings : AutomationReadings) (now : Timestamp) :
    EvaluationContext where
  application
  plan
  policy
  fit
  contractDigest
  usage := usageCounts zone db.decisions readings.companyDigest now
  killed := killSwitchActive db
  activeHours := (activeHoursDeadline zone now).1
  readings
  now

/-- Evaluate and reserve authority while holding the fence and the exact
application row.  `now` was read before the fence was granted. -/
def evaluateAutoSubmitPolicy (zone : Zone) (db : Db)
    (applicationId formPlanId : ℕ) (now : Timestamp)
    (readings : AutomationReadings) : Except AutomationError (Db × ℕ) :=
  match db.applications[applicationId]?, db.formPlans[formPlanId]? with
  | none, _ => .error .applicationNotFound
  | some _, none => .error .formPlanNotFound
  | some application, some plan =>
    if plan.applicationId ≠ applicationId then .error .formPlanNotFound
    else
      match application.jobFitDecisionId, readings.fitDecision with
      | some fitDecisionId, some fit =>
        if ¬readings.fitMatchesJob then .error .fitDecisionRequired
        else do
          let active ← currentSignedPolicy db now readings
          match active with
          | none => .error .policyNotActive
          | some (policyId, policy) =>
            match existingAllowed db applicationId with
            | some (id, existing) =>
              if existing.policyRevisionId = policyId
                  ∧ existing.applicationRevision = application.revision
                  ∧ existing.formPlanId = formPlanId then
                if ¬latestProfileMatches readings policy.profileVersion then
                  .error .profileVersionChanged
                else if ¬readings.artifactBindingsCurrent then
                  .error .fitQualificationChanged
                else .ok (db, id)
              else .error .authorityAlreadyReserved
            | none =>
              match application.job, readings.formContractDigest with
              | none, _ => .error .jobNotFound
              | some _, none => .error .formPlanBlocked
              | some _, some contractDigest => do
                  let context := evaluationContext zone db application plan
                    policy fit contractDigest readings now
                  let decision := decisionRow applicationId formPlanId
                    policyId fitDecisionId context
                    (activeHoursDeadline zone now).2
                  let (stored, id) ← persistDecision db decision
                  return (stored.setApplication applicationId
                    (applyDecision application decision), id)
      | _, _ => .error .fitDecisionRequired

/-! ## Revalidation -/

def decisionBindings (application : Application) (plan : FormPlan)
    (fit : FitDecision) (decision : PolicyDecision) (contractDigest : String)
    (readings : AutomationReadings) : List (Bool × AutomationError) :=
  [(decide (application.revision = decision.applicationRevision),
      .applicationRevisionChanged),
    (decide (application.profileVersion = some decision.profileVersion),
      .profileVersionChanged),
    (decide (columnText application.selectedCvHash = decision.selectedCvHash),
      .attachmentChanged),
    (decide (fit.decisionDigest = decision.fitDecisionDigest), .fitDecisionChanged),
    (decide (plan.planId = decision.formPlanPublicId), .formChanged),
    (decide (plan.fingerprint = decision.formFingerprint), .formChanged),
    (decide (contractDigest = decision.formContractDigest), .formChanged),
    (decide (readings.confirmedAnswerRevision = decision.confirmedAnswerRevision),
      .confirmedAnswersChanged),
    (decide (plan.adapterName = decision.adapterName), .adapterVersionChanged),
    (decide (plan.adapterVersion = decision.adapterVersion), .adapterVersionChanged),
    (decide (plan.selectorVersion = decision.selectorVersion), .selectorDrift)]

/-- The policy side of the revalidation: the decision's own policy is still the
active one and its bindings are current. -/
def requireDecisionPolicy (zone : Zone) (db : Db) (decision : PolicyDecision)
    (now : Timestamp) (readings : AutomationReadings) :
    Except AutomationError AutoSubmitPolicyV1 := do
  match ← currentSignedPolicy db now readings with
  | none => .error .policyNotActive
  | some (policyId, policy) =>
    requireBindings
      [(latestProfileMatches readings policy.profileVersion, .profileVersionChanged),
        (readings.artifactBindingsCurrent, .fitQualificationChanged),
        (decide (policyId = decision.policyRevisionId
          ∧ policy.payloadDigest = decision.policyDigest), .policyChanged),
        (!killSwitchActive db, .killSwitchActive),
        ((activeHoursDeadline zone now).1, .outsideActiveHours)]
    return policy

/-- Recheck mutable stops and every signed binding before permit and commit. -/
def validateCurrentAutomationDecision (zone : Zone) (db : Db)
    (decisionId : Option ℕ) (now : Timestamp) (readings : AutomationReadings) :
    Except AutomationError PolicyDecision :=
  match decisionId.bind fun id => db.decisions[id]? with
  | none => .error .decisionRequired
  | some decision => do
      requireBindings
        [(decisionConsistent decision, .decisionInvalid),
          (decision.allowed, .decisionDenied),
          (decision.authorityExpiresAt.any fun expiry => decide (now < expiry),
            .authorityExpired)]
      let policy ← requireDecisionPolicy zone db decision now readings
      match db.applications[decision.applicationId]?,
          db.formPlans[decision.formPlanId]?, readings.fitDecision with
      | some application, some plan, some fit =>
        match readings.formContractDigest with
        | none => .error .formPlanBlocked
        | some contractDigest =>
          requireBindings
            (decisionBindings application plan fit decision contractDigest readings)
          requireBindings
            [(plan.invalidatedAt.isNone && decide (now < plan.expiresAt),
                .formChanged),
              (scopeQualified policy plan decision.formContractDigest readings,
                .adapterNotQualified)]
          return decision
      | _, _, _ => .error .decisionBindingMismatch

/-- A decision that passes its revalidation passes it with the stop off. -/
theorem killSwitchActive_eq_false_of_validate
    (hvalid : validateCurrentAutomationDecision zone db decisionId now readings =
      .ok decision) : killSwitchActive db = false := by
  unfold validateCurrentAutomationDecision at hvalid
  split at hvalid
  · cases hvalid
  simp only [bind_eq_ok] at hvalid
  obtain ⟨_, _, policy, hpolicy, _⟩ := hvalid
  simp only [requireDecisionPolicy, bind_eq_ok] at hpolicy
  obtain ⟨active, _, hpolicy⟩ := hpolicy
  split at hpolicy
  · cases hpolicy
  simp only [bind_eq_ok] at hpolicy
  obtain ⟨_, hbindings, _⟩ := hpolicy
  have hall := requireBindings_eq_ok.mp hbindings
  have hkill := hall (!killSwitchActive db, .killSwitchActive) (by simp)
  simpa using hkill

end JobApplyAgent.Kernel
