import JobApplyAgent.Forms.Inspection
import JobApplyAgent.Forms.ConfirmationExact
import JobApplyAgent.Adapters.Registry
import JobApplyAgent.Forms.PlanRows

/-!
# The table of plans

Inspected plans are stored and the plans of confirmed answers are cloned; each write
invalidates the plans that the application had before.  Audit events, metrics and the
status of a job are left out.
-/

namespace JobApplyAgent.Forms

open Domain Library

/-- Both spell the same compact JSON, where a tuple is a list. -/
def sameJson : PyValue → AnswerValue → Bool
  | .text recorded, .text value => recorded == value
  | .flag recorded, .flag value => recorded == value
  | .int recorded, .int value => recorded == value
  | .float recorded, .float value => recorded == value
  | .tuple recorded, .texts values => recorded == values
  | .list recorded, .texts values =>
    recorded.length == values.length
      && (recorded.zip values).all fun pair => match pair with
        | (.text recorded, value) => recorded == value
        | _ => false
  | _, _ => false

section Recheck

variable (policy : PlanningPolicy)

def asciiDigit (character : Char) : Char :=
  if character.toNat < 128 then character
  else
    match policy.decimal character with
    | some digit => Char.ofNat ('0'.toNat + digit)
    | none => character

/-- `int(text)`: blanks around it, a sign, and digits with single underscores between them. -/
def pyInt (text : String) : Option ℤ :=
  let core := (strip text).map (asciiDigit policy)
  if maxStrDigits < core.countP Char.isDigit then none
  else
    match core with
    | '+' :: rest => (String.ofList rest).toNat?.map Int.ofNat
    | rest => (String.ofList rest).toInt?

def approvedAnswerPrefix : String := "operator-approved-answer:"

/-- `_validate_reusable_answer_evidence` for the row that the reference names. -/
def rowSupports (plan : FormPlanV1) (field : FormFieldV1) (value : Option AnswerValue)
    (row : OperatorApprovedAnswer) : Bool :=
  row.revokedAt.isNone
    && field.canonicalName.any (· != "")
    && row.canonicalField == canonicalFactKey policy (field.canonicalName.getD "")
    && row.fieldType == field.fieldType.value
    && row.optionSetHash == policy.optionSetHash field
    && row.locale == plan.locale
    && row.profileVersion == plan.contract.profileVersion
    && row.selectedCvId == plan.contract.selectedCvId
    && row.selectedCvHash == plan.contract.selectedCvHash
    && row.adapterName == plan.contract.adapterName
    && row.adapterVersion == plan.contract.adapterVersion
    && row.selectorVersion == plan.contract.selectorVersion
    && row.fieldContractFingerprint == some (policy.reusableFieldContractFingerprint field
      plan.contract.adapterName plan.contract.adapterVersion plan.contract.selectorVersion)
    && row.policyVersion == plan.contract.answerPolicyVersion
    && row.evidenceSource == "operator_confirmation"
    && row.answer.any fun recorded => value.any fun value => sameJson recorded value

/-- The loop body of `_validate_reusable_answer_evidence`. -/
def reusableEvidenceHolds (rows : List OperatorApprovedAnswer) (plan : FormPlanV1)
    (decision : AnswerDecisionV1) : Bool :=
  if decision.provenance ≠ .operatorApprovedReusable then true
  else
    match plan.fieldById decision.fieldId, decision.evidenceRefs with
    | some field, [reference] =>
      decision.disposition == .resolved
        && approvedAnswerPrefix.toList.isPrefixOf reference.toList
        && match pyInt policy
            (String.ofList (reference.toList.drop approvedAnswerPrefix.length)) with
          | none => false
          | some evidenceId =>
            decide (1 ≤ evidenceId)
              && (rows.find? fun row => (row.id : ℤ) == evidenceId).any
                (rowSupports policy plan field decision.value)
    | _, _ => false

def validateReusableAnswerEvidence (rows : List OperatorApprovedAnswer) (plan : FormPlanV1) :
    Bool :=
  plan.decisions.all (reusableEvidenceHolds policy rows plan)

end Recheck

/-! ## The table of reusable answers -/

/-- The rows of the table and the id of the next one. -/
structure ApprovalTable where
  rows : List OperatorApprovedAnswer
  nextId : ℕ

/-- The table with one row added, by an answer of the field of the plan. -/
def addedTo (policy : PlanningPolicy) (table : ApprovalTable) (plan : FormPlanV1)
    (field : FormFieldV1) (body : ConfirmAnswerRequest) (now : Timestamp) : ApprovalTable where
  rows := (table.rows.map fun row =>
      if supersededBy policy plan field row then { row with revokedAt := some now } else row)
    ++ [reusableRow policy plan field body table.nextId now]
  nextId := table.nextId + 1

/-! ## The table -/

structure JobUrls where
  applyUrl : Option String
  sourceUrl : Option String

/-- `job.apply_url or job.source_url or ""`. -/
def JobUrls.candidateUrl (job : JobUrls) : String :=
  match job.applyUrl.filter (· != "") with
  | some url => url
  | none => job.sourceUrl.getD ""

structure ApplicationRow where
  id : ℕ
  revision : Option ℕ
  selectedCvId : Option String
  selectedCvHash : Option String
  profileVersion : Option ℕ
  job : Option JobUrls
  preparedRevision : Option ℕ
  approvedAt : Option NaiveUtc
  approvalSource : Option String
  jobFitDecisionId : Option ℕ

namespace ApplicationRow

variable (application : ApplicationRow)

/-- `application_revision`; a missing revision and zero are one. -/
def currentRevision : ℕ :=
  max 1 (application.revision.getD 1)

/-- The preparation is revoked. -/
def unprepared : ApplicationRow :=
  { application with preparedRevision := none, approvedAt := none, approvalSource := none }

/-- What `bump_application_revision` does to the row of the application. -/
def bumped : ApplicationRow :=
  { application.unprepared with
    revision := some (application.currentRevision + 1)
    jobFitDecisionId := none }

end ApplicationRow

structure PlanDatabase where
  applications : List ApplicationRow
  plans : List FormPlanRow
  answers : List OperatorApprovedAnswer
  nextAnswerId : ℕ

/-- What the operations are given: the policies, the parsers, the detection of a portal by
its URL and what the columns of the database can hold. -/
structure PlanStore where
  policy : PlanningPolicy
  uuids : UuidParsers
  readUrl : String → Adapters.CandidateUrl
  storable : FormPlanRow → Bool

/-- A plan that was built, so that its validators accepted it. -/
structure ValidPlan (policy : PlanPolicy) where
  plan : FormPlanV1
  accepted : plan.accepted policy = true
  canonical : isCanonicalUuid plan.contract.planId = true

namespace FormPlanRow

def isLive (row : FormPlanRow) : Bool :=
  row.invalidatedAt.isNone

def invalidate (row : FormPlanRow) (now : Timestamp) (reason : String) : FormPlanRow :=
  { row with invalidatedAt := some (naiveUtc now), invalidationReason := some reason }

end FormPlanRow

namespace PlanDatabase

variable (db : PlanDatabase)

def applicationById (applicationId : ℕ) : Option ApplicationRow :=
  db.applications.find? fun application => application.id == applicationId

/-- The plan of the application under this id. -/
def storedPlan (applicationId : ℕ) (planId : String) : Option FormPlanRow :=
  db.plans.find? fun row => row.applicationId == applicationId && row.planId == planId

def plansOf (applicationId : ℕ) : List FormPlanRow :=
  db.plans.filter fun row => row.applicationId == applicationId

def livePlans (applicationId : ℕ) : List FormPlanRow :=
  (db.plansOf applicationId).filter FormPlanRow.isLive

def lastPlan (applicationId : ℕ) : Option FormPlanRow :=
  (db.plansOf applicationId).getLast?

def latestFormPlan (applicationId : ℕ) : Option FormPlanRow :=
  match (db.livePlans applicationId).getLast? with
  | some active => some active
  | none => db.lastPlan applicationId

def invalidateFormPlans (applicationId : ℕ) (now : Timestamp) (reason : String) :
    List FormPlanRow :=
  db.plans.map fun row =>
    if row.applicationId == applicationId && row.isLive then row.invalidate now reason else row

def updateApplication (applicationId : ℕ) (change : ApplicationRow → ApplicationRow) :
    List ApplicationRow :=
  db.applications.map fun application =>
    if application.id = applicationId then change application else application

def addPlan (applicationId : ℕ) (now : Timestamp) (reason : String)
    (change : ApplicationRow → ApplicationRow) (row : FormPlanRow) : PlanDatabase :=
  { db with
    applications := db.updateApplication applicationId change
    plans := db.invalidateFormPlans applicationId now reason ++ [row] }

end PlanDatabase

inductive PersistRefusal where
  | applicationNotFound
  | jobNotFound
  | applicationChanged
  | applicationRevisionChanged
  | selectedCvUnavailable
  | formChanged
  | adapterVersionChanged
  | formPlanTimeInvalid
  | formPlanExpired
  | integrityError

/-- A confirmation; the new identifier is a fresh UUID. -/
structure ConfirmStoredCall extends ConfirmCall where
  canonical : isCanonicalUuid newPlanId = true

structure ConfirmedClone where
  source : FormPlanRow
  plan : FormPlanV1
  field : FormFieldV1
  clone : FormPlanV1

namespace PlanStore

variable (store : PlanStore)

/-! ## Persisting -/

/-- The checks of `persist_inspected_form_plan` that come before it looks for a duplicate. -/
def checkObservation (db : PlanDatabase) (application : ApplicationRow) (plan : FormPlanV1)
    (observedAt : Option Timestamp) : Except PersistRefusal Timestamp :=
  let contract := plan.contract
  match application.job with
  | none => .error .jobNotFound
  | some job =>
    if contract.applicationId ≠ application.id then .error .applicationChanged
    else if contract.applicationRevision ≠ application.currentRevision then
      .error .applicationRevisionChanged
    else if application.selectedCvId.all (· == "") || application.selectedCvHash.all (· == "")
    then .error .selectedCvUnavailable
    else if some contract.selectedCvId ≠ application.selectedCvId
        ∨ some contract.selectedCvHash ≠ application.selectedCvHash
        ∨ some contract.profileVersion ≠ application.profileVersion then
      .error .formChanged
    else if (Adapters.adapterForUrl (store.readUrl job.candidateUrl)).all fun descriptor =>
        descriptor.platform != contract.adapterName
          || descriptor.adapterVersion != contract.adapterVersion
          || descriptor.selectorVersion != contract.selectorVersion
          || descriptor.executionContractVersion.isNone then
      .error .adapterVersionChanged
    else
      match observedAt with
      | none => .error .formPlanTimeInvalid
      | some now =>
        if contract.isExpired now then .error .formPlanExpired
        else if validateReusableAnswerEvidence store.policy db.answers plan then .ok now
        else .error .formChanged

/-- Persist one exact observation; `observedAt` is missing where the clock has no zone. -/
def persistInspectedFormPlan (db : PlanDatabase) (applicationId : ℕ) (plan : FormPlanV1)
    (observedAt : Option Timestamp) : Except PersistRefusal (FormPlanRow × PlanDatabase) :=
  match db.applicationById applicationId with
  | none => .error .applicationNotFound
  | some application =>
    match store.checkObservation db application plan observedAt with
    | .error refusal => .error refusal
    | .ok now =>
      match db.storedPlan application.id plan.contract.planId with
      | some duplicate => .ok (duplicate, db)
      | none =>
        let row := inspectedRow plan
        if db.plans.any (fun other => other.planId == row.planId) || !store.storable row then
          .error .integrityError
        else
          .ok (row, db.addPlan application.id now "FORM_REINSPECTED"
            ApplicationRow.unprepared row)

/-! ## Cloning -/

/-- The row that a call may confirm an answer of, and its plan. -/
def reviewedRow (db : PlanDatabase) (application : ApplicationRow) (call : ConfirmCall) :
    Except ConfirmRefusal (FormPlanRow × FormPlanV1) :=
  if !call.locked || call.body.applicationRevision != application.currentRevision then
    .error .mutationBlocked
  else
    match db.storedPlan application.id call.body.planId with
    | none => .error .planNotFound
    | some row =>
      -- No two rows have one plan id, so that the ids tell the rows apart.
      if (db.latestFormPlan application.id).any (fun latest => latest.planId == row.planId)
          && row.isLive
          && application.revision == some row.applicationRevision
          && decide (call.now < awareUtc row.expiresAt) then
        match row.reconstructPersistedFormPlan store.policy.toPlanPolicy store.uuids with
        | .error _ => .error .formPlanBlocked
        | .ok plan =>
          if plan.contract.answerPolicyVersion = answerPolicyVersion then .ok (row, plan)
          else .error .answerPolicyChanged
      else .error .formChanged

/-- `confirm_application_answer` up to the new row. -/
def confirmedClone (db : PlanDatabase) (application : ApplicationRow) (call : ConfirmCall) :
    Except ConfirmRefusal ConfirmedClone := do
  let (source, plan) ← store.reviewedRow db application call
  let field ← answeredField plan call
  let body := call.body
  let _ ← validatedClone store.policy plan plan.contract.planId plan.contract.applicationRevision
    (requestedDecision field body body.evidenceRef)
  if body.reusable
      && !isStorable store.policy
        (reusableRow store.policy plan field body db.nextAnswerId call.now) then
    .error .integrityError
  else
    let clone ← validatedClone store.policy plan call.newPlanId (application.currentRevision + 1)
      (requestedDecision field body
        (if body.reusable then approvedAnswerRef db.nextAnswerId else body.evidenceRef))
    if db.plans.any (fun other => other.planId == call.newPlanId)
        || !store.storable (clonedRow source clone) then
      .error .integrityError
    else
      .ok ⟨source, plan, field, clone⟩

def answersAfter (db : PlanDatabase) (call : ConfirmCall) (confirmed : ConfirmedClone) :
    ApprovalTable :=
  let table : ApprovalTable := ⟨db.answers, db.nextAnswerId⟩
  if call.body.reusable then
    addedTo store.policy table confirmed.plan confirmed.field call.body call.now
  else table

/-- The database after a call. -/
def storeConfirmed (db : PlanDatabase) (application : ApplicationRow) (call : ConfirmCall)
    (confirmed : ConfirmedClone) : PlanDatabase :=
  let answers := store.answersAfter db call confirmed
  { db.addPlan application.id call.now "ANSWER_CONFIRMED" ApplicationRow.bumped
      (clonedRow confirmed.source confirmed.clone) with
    answers := answers.rows
    nextAnswerId := answers.nextId }

end PlanStore

/-! ## Runs -/

/-- What happens to the tables.  Elsewhere applications and reusable answers change in any
way and plans are invalidated, never stored and never made live again. -/
inductive PlanEvent (policy : PlanPolicy) where
  | persist (applicationId : ℕ) (plan : ValidPlan policy) (observedAt : Option Timestamp)
  | confirm (applicationId : ℕ) (call : ConfirmStoredCall)
  | elsewhere (applications : List ApplicationRow) (answers : List OperatorApprovedAnswer)
      (nextAnswerId : ℕ) (invalidated : FormPlanRow → Bool) (now : Timestamp) (reason : String)

namespace PlanStore

variable (store : PlanStore)

/-- The database after an event, and the plan that the event wrote; a refused call is rolled
back. -/
def perform (db : PlanDatabase) :
    PlanEvent store.policy.toPlanPolicy → PlanDatabase × Option FormPlanV1
  | .persist applicationId plan observedAt =>
    match store.persistInspectedFormPlan db applicationId plan.plan observedAt with
    | .error _ => (db, none)
    | .ok (row, next) =>
      (next, if (db.storedPlan applicationId row.planId).isNone then some plan.plan else none)
  | .confirm applicationId call =>
    match db.applicationById applicationId with
    | none => (db, none)
    | some application =>
      match store.confirmedClone db application call.toConfirmCall with
      | .error _ => (db, none)
      | .ok confirmed =>
        (store.storeConfirmed db application call.toConfirmCall confirmed,
          some confirmed.clone)
  | .elsewhere applications answers nextAnswerId invalidated now reason =>
    ({ applications, answers, nextAnswerId
       plans := db.plans.map fun row =>
         if invalidated row then row.invalidate now reason else row }, none)

/-- The database after a run, and the plans that were written, in order. -/
def run (db : PlanDatabase) (events : List (PlanEvent store.policy.toPlanPolicy)) :
    PlanDatabase × List FormPlanV1 :=
  events.foldl (fun state event =>
    let next := store.perform state.1 event
    (next.1, state.2 ++ next.2.toList)) (db, [])

end PlanStore

def PlanDatabase.unplanned (applications : List ApplicationRow)
    (answers : List OperatorApprovedAnswer) (nextAnswerId : ℕ) : PlanDatabase where
  applications
  plans := []
  answers
  nextAnswerId

end JobApplyAgent.Forms
