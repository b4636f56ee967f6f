import JobApplyAgent.Forms.AnswerSources
import JobApplyAgent.Forms.Acceptance

/-!
# Confirming answers

The operator confirms one answer of the reviewed plan; the plan is cloned with the
answer in the place of the decision of its field and with its blockers recomputed.
-/

namespace JobApplyAgent.Forms

open Domain Library

def answerPolicyVersion : String := "answer-policy-v1"

def fieldLevelAnswerBlockers : List ReasonCode :=
  [.requiredFieldUnknown, .unsupportedControl, .llmUnavailable, .llmModelMissing, .llmTimeout,
    .llmCircuitOpen, .llmSchemaInvalid, .unsupportedClaim, .attachmentUnverified]

def globalFormPlanBlockers : List ReasonCode := [.formPlanIncomplete]

/-! ## Blockers -/

def addFieldBlockers (decisionsById : String → Option AnswerDecisionV1)
    (blockers : List ReasonCode) (field : FormFieldV1) : List ReasonCode :=
  let decision := decisionsById field.fieldId
  if !field.required || decision.any (fun decision => decision.disposition == .resolved) then
    blockers
  else
    let known :=
      if blockers.contains .requiredFieldUnknown then blockers
      else blockers ++ [.requiredFieldUnknown]
    match decision.bind AnswerDecisionV1.reasonCode with
    | none => known
    | some reason =>
      if fieldLevelAnswerBlockers.contains reason && reason != .requiredFieldUnknown
          && !known.contains reason then
        known ++ [reason]
      else known

/-- Replace stale field-level blockers while preserving plan-global gates. -/
def recomputeAnswerBlockers (plan : FormPlanV1)
    (decisionsById : String → Option AnswerDecisionV1) : List ReasonCode :=
  let kept := plan.contract.blockers.filter fun blocker =>
    globalFormPlanBlockers.contains blocker || !fieldLevelAnswerBlockers.contains blocker
  plan.fields.foldl (addFieldBlockers decisionsById) kept

/-! ## The call -/

/-- The request body, after its own validators. -/
structure ConfirmAnswerRequest where
  planId : String
  applicationRevision : ℕ
  value : Option AnswerValue
  confirmBlank : Bool
  reusable : Bool
  evidenceReference : String
  blank : confirmBlank = true → value = none ∧ reusable = false
  answered : confirmBlank = false → value ≠ none
  referenced : isTextWithin 255 evidenceReference = true

def ConfirmAnswerRequest.evidenceRef (body : ConfirmAnswerRequest) : String :=
  "operator_confirmation:" ++ body.evidenceReference

/-- A stored plan; its columns hold the plan itself, and no two rows have one plan id. -/
structure StoredPlan where
  plan : FormPlanV1
  invalidated : Bool
  deriving DecidableEq

/-- What a confirmation reads and writes of one application. -/
structure AnswerReview where
  revision : ℕ
  plans : List StoredPlan
  approvals : List OperatorApprovedAnswer
  nextApprovalId : ℕ

/-- One call; `locked` is the outcome of the lock on the application, apart from the
revision. -/
structure ConfirmCall where
  fieldId : String
  body : ConfirmAnswerRequest
  locked : Bool
  now : Timestamp
  newPlanId : String

inductive ConfirmRefusal where
  | mutationBlocked
  | planNotFound
  | formChanged
  | formPlanBlocked
  | answerPolicyChanged
  | fieldNotFound
  | formPlanIncomplete
  | reusableWithoutIdentity
  | answerInvalid
  | integrityError
  deriving DecidableEq

def AnswerReview.latestFormPlan (review : AnswerReview) : Option StoredPlan :=
  match (review.plans.filter fun stored => !stored.invalidated).getLast? with
  | some active => some active
  | none => review.plans.getLast?

def requestedDecision (field : FormFieldV1) (body : ConfirmAnswerRequest) (evidenceRef : String) :
    AnswerDecisionV1 where
  fieldId := field.fieldId
  disposition := if body.confirmBlank then .operatorConfirmedBlank else .resolved
  provenance :=
    if body.confirmBlank then .operatorConfirmed
    else if body.reusable then .operatorApprovedReusable
    else .userConfirmed
  value := body.value
  confidence := some 1
  evidenceRefs := [evidenceRef]
  reasonCode := none

/-- The decisions of a plan by field, with one in the place of its field's. -/
def replacedDecisions (plan : FormPlanV1) (replacement : AnswerDecisionV1) :
    String → Option AnswerDecisionV1 :=
  fun fieldId =>
    if fieldId = replacement.fieldId then some replacement else plan.decisionById fieldId

/-- The plan with one decision replaced and the blockers recomputed. -/
def clonedPlan (plan : FormPlanV1) (planId : String) (revision : ℕ)
    (replacement : AnswerDecisionV1) : FormPlanV1 :=
  let decisionsById := replacedDecisions plan replacement
  let decisions := plan.fields.filterMap fun field => decisionsById field.fieldId
  { contract :=
      { plan.contract with
        planId
        applicationRevision := revision
        blockers := recomputeAnswerBlockers plan decisionsById
        usesLocalLlm := decisions.any fun decision => decision.provenance == .localLlm }
    fields := plan.fields
    disclosures := plan.disclosures
    decisions
    locale := plan.locale
    localLlm := rfl }

section Confirm

variable (policy : PlanningPolicy)

/-- The decision is built and the plan with it passes the validators. -/
def validatedClone (plan : FormPlanV1) (planId : String) (revision : ℕ)
    (replacement : AnswerDecisionV1) : Except ConfirmRefusal FormPlanV1 :=
  if replacement.withinSchema && decide (replacement.validateDecision = .ok ())
      && (clonedPlan plan planId revision replacement).accepted policy.toPlanPolicy then
    .ok (clonedPlan plan planId revision replacement)
  else
    .error .answerInvalid

/-- The row is an answer for the field in the context of the plan that is not revoked. -/
def supersededBy (plan : FormPlanV1) (field : FormFieldV1) (row : OperatorApprovedAnswer) :
    Bool :=
  row.canonicalField == canonicalField policy field
    && row.fieldType == field.fieldType.value
    && row.optionSetHash == policy.optionSetHash field
    && row.locale == plan.locale
    && row.profileVersion == plan.contract.profileVersion
    && row.selectedCvId == plan.contract.selectedCvId
    && row.selectedCvHash == plan.contract.selectedCvHash
    && row.adapterName == plan.contract.adapterName
    && row.adapterVersion == plan.contract.adapterVersion
    && row.selectorVersion == plan.contract.selectorVersion
    && row.formFingerprint == plan.contract.formFingerprint
    && row.policyVersion == plan.contract.answerPolicyVersion
    && row.revokedAt.isNone

def AnswerValue.loadedJson : AnswerValue → PyValue
  | .texts values => .list (values.map .text)
  | value => value.toPyValue

def reusableRow (plan : FormPlanV1) (field : FormFieldV1) (body : ConfirmAnswerRequest) (id : ℕ)
    (now : Timestamp) : OperatorApprovedAnswer where
  id
  canonicalField := canonicalField policy field
  fieldType := field.fieldType.value
  optionSetHash := policy.optionSetHash field
  locale := plan.locale
  profileVersion := plan.contract.profileVersion
  selectedCvId := plan.contract.selectedCvId
  selectedCvHash := plan.contract.selectedCvHash
  adapterName := plan.contract.adapterName
  adapterVersion := plan.contract.adapterVersion
  selectorVersion := plan.contract.selectorVersion
  formFingerprint := plan.contract.formFingerprint
  fieldContractFingerprint := some (policy.reusableFieldContractFingerprint field
    plan.contract.adapterName plan.contract.adapterVersion plan.contract.selectorVersion)
  policyVersion := plan.contract.answerPolicyVersion
  answer := body.value.map AnswerValue.loadedJson
  evidenceSource := "operator_confirmation"
  evidenceReference := body.evidenceReference
  approvedAt := now
  revokedAt := none

def maxAnswerJsonLength : ℕ := 4000

/-- The check constraints of the table of reusable answers. -/
def isStorable (row : OperatorApprovedAnswer) : Bool :=
  row.canonicalField != "" && row.answer.any fun answer =>
    decide (1 ≤ policy.jsonLength answer ∧ policy.jsonLength answer ≤ maxAnswerJsonLength)

/-- The answers of the context are revoked and the new one is added. -/
def storeReusable (review : AnswerReview) (plan : FormPlanV1) (field : FormFieldV1)
    (added : OperatorApprovedAnswer) (now : Timestamp) : AnswerReview :=
  { review with
    approvals := (review.approvals.map fun row =>
        if supersededBy policy plan field row then { row with revokedAt := some now } else row)
      ++ [added]
    nextApprovalId := review.nextApprovalId + 1 }

/-- The stored plan that a call may confirm an answer of. -/
def reviewedPlan (review : AnswerReview) (call : ConfirmCall) :
    Except ConfirmRefusal FormPlanV1 :=
  if !call.locked || call.body.applicationRevision != review.revision then
    .error .mutationBlocked
  else
    match review.plans.find? fun stored => stored.plan.contract.planId == call.body.planId with
    | none => .error .planNotFound
    | some stored =>
      let plan := stored.plan
      if decide (review.latestFormPlan = some stored) && !stored.invalidated
          && plan.contract.applicationRevision == review.revision
          && decide (call.now < plan.contract.expiresAt) then
        if plan.accepted policy.toPlanPolicy then
          if plan.contract.answerPolicyVersion = answerPolicyVersion then .ok plan
          else .error .answerPolicyChanged
        else .error .formPlanBlocked
      else .error .formChanged

/-- The field of the plan that a call may answer. -/
def answeredField (plan : FormPlanV1) (call : ConfirmCall) : Except ConfirmRefusal FormFieldV1 :=
  match plan.fieldById call.fieldId with
  | none => .error .fieldNotFound
  | some field =>
    if plan.contract.blockers.contains .formPlanIncomplete && !call.body.reusable then
      .error .formPlanIncomplete
    else if call.body.reusable && field.canonicalName.all (· == "") then
      .error .reusableWithoutIdentity
    else .ok field

/-- `bump_application_revision` and the new plan. -/
def storeClone (review : AnswerReview) (clone : FormPlanV1) : AnswerReview :=
  { review with
    revision := clone.contract.applicationRevision
    plans := (review.plans.map fun stored => { stored with invalidated := true })
      ++ [⟨clone, false⟩] }

/-- Confirm one exact observed answer and clone the immutable review plan. -/
def confirmApplicationAnswer (review : AnswerReview) (call : ConfirmCall) :
    Except ConfirmRefusal AnswerReview := do
  let plan ← reviewedPlan policy review call
  let field ← answeredField plan call
  let body := call.body
  let _ ← validatedClone policy plan plan.contract.planId plan.contract.applicationRevision
    (requestedDecision field body body.evidenceRef)
  let row := reusableRow policy plan field body review.nextApprovalId call.now
  if body.reusable && !isStorable policy row then
    .error .integrityError
  else
    let clone ← validatedClone policy plan call.newPlanId (max 1 review.revision + 1)
      (requestedDecision field body
        (if body.reusable then approvedAnswerRef review.nextApprovalId else body.evidenceRef))
    if review.plans.any fun stored => stored.plan.contract.planId == call.newPlanId then
      .error .integrityError
    else
      .ok (storeClone
        (if body.reusable then storeReusable policy review plan field row call.now else review)
        clone)

/-- A refused call is rolled back. -/
def performConfirm (review : AnswerReview) (call : ConfirmCall) : AnswerReview :=
  match confirmApplicationAnswer policy review call with
  | .ok next => next
  | .error _ => review

def performConfirms (review : AnswerReview) (calls : List ConfirmCall) : AnswerReview :=
  calls.foldl (performConfirm policy) review

end Confirm

end JobApplyAgent.Forms
