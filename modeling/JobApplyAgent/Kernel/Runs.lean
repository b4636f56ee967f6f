import JobApplyAgent.Kernel.System

/-!
# Finite runs

A run is the list of its actions.  A run that goes through is a path of the
local system, so a concrete behaviour is shown by evaluating its actions from
the sample tables below: one reviewed application with its form plan.
-/

namespace JobApplyAgent.Kernel

open Domain Store Library

/-- Perform the actions one after the other. -/
def runActions (zone : Zone) (state : LocalState) : List Action → Option LocalState
  | [] => some state
  | action :: rest =>
    match perform zone state action with
    | .error _ => none
    | .ok after => runActions zone after rest

variable {guard : LocalState → Action → Prop}

theorem runActions_path (hguard : ∀ state, ∀ action ∈ actions, guard state action)
    (hrun : runActions zone state actions = some after) :
    (localSystem zone).Path guard state after := by
  induction actions generalizing state with
  | nil =>
    cases hrun
    exact .refl
  | cons action rest ih =>
    unfold runActions at hrun
    split at hrun
    · cases hrun
    next middle hstep =>
    have hnext : (localSystem zone).Next guard state middle :=
      ⟨action, hguard state action (by simp), hstep⟩
    have hrest : ∀ state, ∀ action ∈ rest, guard state action :=
      fun state action hmem => hguard state action (by simp [hmem])
    exact Relation.ReflTransGen.head hnext (ih hrest hrun)

/-- The state that a run ends in; a run that does not go through has not started. -/
def endOf (zone : Zone) (state : LocalState) (actions : List Action) : LocalState :=
  (runActions zone state actions).getD state

theorem endOf_path (hguard : ∀ state, ∀ action ∈ actions, guard state action) (state : LocalState) :
    (localSystem zone).Path guard state (endOf zone state actions) := by
  unfold endOf
  cases hrun : runActions zone state actions with
  | none => exact .refl
  | some after => exact runActions_path hguard hrun

theorem endOf_reachable (hguard : ∀ state, ∀ action ∈ actions, guard state action)
    (hinitial : InitialState state) :
    (localSystem zone).Reachable guard (endOf zone state actions) :=
  ⟨state, hinitial, endOf_path hguard state⟩

/-! ## Sample tables -/

/-- A zone without offset whose active hours are the whole day. -/
def sampleZone : Zone where
  localDate now := now / day
  midnight date := date * day
  opens date := date * day
  closes date := (date + 1) * day
  midnight_le := fun now => Int.ediv_mul_le now (by decide)

def sampleJob : Job where
  status := .draft
  applyUrl := "https://jobs"
  sourceUrl := "https://jobs"
  terminalSkipAt := none

def sampleApplication : Application where
  job := some sampleJob
  status := .draft
  revision := 1
  preparedRevision := some 1
  approvedAt := some 0
  approvalSource := some .manualPrepare
  rejectedAt := none
  rejectionReason := none
  needsReviewReason := none
  outcome := none
  selectedCvId := some "cv"
  selectedCvHash := some "cv-hash"
  profileVersion := some 1
  jobFitDecisionId := none
  materialEligible := some true
  materialModelProvider := some qualifiedLocalLlmProvider
  materialModelName := some qualifiedLocalLlmModel
  materialModelDigest := some "model"
  materialPromptVersion := none

def samplePlan : FormPlan where
  planId := "plan"
  applicationId := 0
  applicationRevision := 1
  adapterName := "ats"
  adapterVersion := "1"
  selectorVersion := "1"
  fingerprint := "form"
  selectedCvId := "cv"
  selectedCvHash := "cv-hash"
  attachedCvId := some "cv"
  attachedCvHash := some "cv-hash"
  attachmentVerified := true
  profileVersion := some 1
  sessionVerifiedAt := some 0
  createdAt := 0
  expiresAt := 3600 * second
  contractValid := true
  blockers := []
  usesLocalLlm := false
  answerPolicyVersion := answerPolicyVersion
  llmPromptVersion := none
  llmModelProvider := none
  llmModelName := none
  llmModelDigest := none
  invalidatedAt := none
  invalidationReason := none

def sampleDb : Db where
  applications := [sampleApplication]
  formPlans := [samplePlan]
  submissions := []
  applicationRefs := []
  reviewGrants := []
  receipts := []
  outbox := []
  policies := []
  decisions := []
  killEvents := []
  canaryAuthorizations := []

def sampleState : LocalState where
  db := sampleDb
  workers := []
  admissions := []
  nextToken := 0
  commits := []

def sampleIdentity : ClientReleaseIdentity := ⟨"build", "ui", "source", "protocol", "boot"⟩

def sampleCapabilities : Capabilities where
  release := some ⟨sampleIdentity, "release", "release"⟩
  submission := some (true, [])
  automation := some (true, [])
  llm := some ⟨true, true, "model"⟩

def sampleRequest : SubmissionCommandRequest where
  applicationId := 0
  clientIdempotencyKey := "key"
  applicationRevision := 1
  formPlanId := "plan"
  clientRelease := sampleIdentity
  authorityExpiresAt := none
  authorityKind := .explicitOperator
  automationPolicyDecisionId := none
  qualificationCanaryAuthorizationId := none

def sampleAutomation : AutomationReadings where
  policyVerified := false
  latestProfileVersion := none
  artifactBindingsCurrent := false
  confirmedAnswerRevision := ""
  formContractDigest := none
  fitDecision := none
  fitMatchesJob := false
  jobContentDigest := ""
  companyDigest := ""
  geography := none
  descriptor := none
  scopeHasLiveCanary := fun _ => false
  decisionDigest := ""

def sampleAdmission : AdmissionReadings where
  materialIdentityQualified := true
  profileSnapshot := .ok ()
  automation := sampleAutomation
  canaryValid := false
  descriptor := some ⟨⟨"ats", "1", "1"⟩, true, true⟩
  sessionLive := true
  jobUrlHash := some "url"
  nonceHash := "nonce"

def sampleAction : PreparedFinalActionV1 where
  attemptId := 0
  adapterName := "ats"
  adapterVersion := "1"
  selectorVersion := "1"
  formFingerprint := "form"
  attachedCvHash := "cv-hash"
  preparedAt := 1
  expiresAt := 10
  actionNonce := "nonce"
  lifetime := by decide

def sampleBoundary : BoundaryReadings := ⟨true, sampleAutomation, false, false⟩

def sampleAdmit : List Action :=
  [.beginAdmission ⟨true, 300⟩ sampleCapabilities [sampleRequest] 0, .lookup 0,
    .admitItem 0 sampleAdmission, .commitAdmission 0 0]

def samplePreflight : List Action :=
  [.claim none 1 "runner" ⟨"release", true⟩, .load 0 ⟨true, some "url", true, true⟩ 1,
    .work 0 (.enterPreflight 1), .work 0 (.preflight (.prepared sampleAction)),
    .work 0 (.markReady 2)]

def sampleCommit : List Action :=
  [.work 0 (.enterBoundary
      ⟨sampleAction, "url", 3, 3, sampleBoundary, sampleBoundary, true⟩),
    .work 0 (.commit 4 .raised 5 true)]

theorem sampleState_initial : InitialState sampleState where
  db :=
    { applications := by
        intro key application happlication
        have hmem := List.mem_of_getElem? happlication
        simp only [sampleState, sampleDb, List.mem_singleton] at hmem
        subst hmem
        decide
      imported := fun _ _ hattempt => by cases hattempt
      applicationRefs := rfl
      reviewGrants := rfl
      receipts := rfl
      outbox := rfl
      policies := rfl
      decisions := rfl
      killEvents := rfl
      canaryAuthorizations := rfl }
  workers := rfl
  admissions := rfl
  commits := rfl

end JobApplyAgent.Kernel
