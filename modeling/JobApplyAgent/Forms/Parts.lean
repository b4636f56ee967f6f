import JobApplyAgent.Forms.PlanningSafety

/-!
# A plan, field by field

The stored facts of a field in the order in which planning tries them, and when the first one
that coerces gives a decision that the validators accept.  The loop carries the audit identity
of the first answer of the model from field to field.  Behind it each field is planned alone,
under the identity that the whole plan has in the end.
-/

namespace JobApplyAgent.Forms

open Domain Library

/-! ## Candidates -/

/-- A stored fact that may resolve a field, with the outcome of its safety check. -/
structure Candidate where
  provenance : AnswerProvenance
  raw : PyValue
  reference : String
  confidence : ℚ
  safe : Except PlanFault Bool

section Candidates

variable (policy : PlanningPolicy) (rows : List OperatorApprovedAnswer)
  (context : AnswerPolicyContext) (field : FormFieldV1)

def identityCandidate : Option Candidate :=
  (identityValue policy field context.profile).map fun value =>
    ⟨.deterministicIdentity, .text value, "profile:identity:" ++ canonicalField policy field, 1,
      .ok true⟩

def confirmedCandidate : Option Candidate :=
  let key := evidenceCanonical policy field
  if key = "" then none
  else (confirmedFact policy context.profile key).map fun fact =>
    ⟨.userConfirmed, .text fact, confirmedFactRef key, 1,
      evidenceValueIsSafe policy field (.text fact) true⟩

def approvedCandidate : Option Candidate :=
  if field.canonicalName.all (· == "") then none
  else (newestApproval (rows.filter (approvedFor policy field context))).bind fun row =>
    row.answer.map fun raw =>
      ⟨.operatorApprovedReusable, raw, approvedAnswerRef row.id, 1,
        evidenceValueIsSafe policy field raw true⟩

def cvCandidate : Option Candidate :=
  let key := evidenceCanonical policy field
  if key = "" ∨ policy.fieldRequiresOperatorReview field = true then none
  else ((selectedCvFacts policy context).lookup key).map fun fact =>
    ⟨.cvEvidence, .text fact, cvFactRef context.selectedCvHash key, cvConfidence,
      evidenceValueIsSafe policy field (.text fact) false⟩

/-- The facts that may resolve the field, in the order of their provenance. -/
def candidates : List Candidate :=
  if automaticResolutionAllowed policy field then
    [identityCandidate policy context field, confirmedCandidate policy context field,
      approvedCandidate policy rows context field, cvCandidate policy context field].reduceOption
  else []

def candidateValue (candidate : Candidate) : Except PlanFault (Option AnswerValue) := do
  if ← candidate.safe then coerceAnswer policy field candidate.raw else .ok none

/-- The first candidate that gives a value. -/
def firstFact : List Candidate → Except PlanFault (Option (Candidate × AnswerValue))
  | [] => .ok none
  | candidate :: rest => do
      match ← candidateValue policy field candidate with
      | some value => .ok (some (candidate, value))
      | none => firstFact rest

def tryCandidate (candidate : Candidate) : Except PlanFault (Option AnswerDecisionV1) := do
  if ← candidate.safe then
    resolvedDecision policy field candidate.raw candidate.provenance candidate.reference
      candidate.confidence
  else .ok none

def candidateDecision (candidate : Candidate) (value : AnswerValue) :
    Except PlanFault AnswerDecisionV1 :=
  answerDecision
    { fieldId := field.fieldId
      disposition := .resolved
      provenance := candidate.provenance
      value := some value
      confidence := some candidate.confidence
      evidenceRefs := [candidate.reference]
      reasonCode := none }

def firstDecision (found : List Candidate) : Except PlanFault (Option AnswerDecisionV1) := do
  match ← firstFact policy field found with
  | some (candidate, value) => (candidateDecision field candidate value).map some
  | none => .ok none

end Candidates

variable {α : Type}

theorem orTry_assoc (first second third : Except PlanFault (Option α)) :
    orTry (orTry first second) third = orTry first (orTry second third) := by
  cases first with
  | error => rfl
  | ok found => cases found <;> rfl

theorem orTry_none_right (first : Except PlanFault (Option α)) :
    orTry first (.ok none) = first := by
  cases first with
  | error => rfl
  | ok found => cases found <;> rfl

theorem firstDecision_cons (candidate : Candidate) (rest : List Candidate) :
    firstDecision policy field (candidate :: rest) =
      orTry (tryCandidate policy field candidate) (firstDecision policy field rest) := by
  simp only [firstDecision, firstFact, tryCandidate, candidateValue, resolvedDecision]
  cases candidate.safe with
  | error => rfl
  | ok safe =>
    cases safe with
    | false => rfl
    | true =>
      cases hcoerced : coerceAnswer policy field candidate.raw with
      | error => simp [bind, Except.bind, orTry]
      | ok found =>
        cases found with
        | none => simp [bind, Except.bind, orTry]
        | some value =>
          cases hbuilt : candidateDecision field candidate value <;>
            simp_all [candidateDecision, bind, Except.bind, orTry, Except.map]

theorem firstDecision_append (first second : List Candidate) :
    firstDecision policy field (first ++ second) =
      orTry (firstDecision policy field first) (firstDecision policy field second) := by
  induction first with
  | nil => rfl
  | cons candidate rest ih =>
    rw [List.cons_append, firstDecision_cons, firstDecision_cons, ih, orTry_assoc]

theorem firstDecision_singleton (candidate : Candidate) :
    firstDecision policy field [candidate] = tryCandidate policy field candidate := by
  rw [firstDecision_cons]
  exact orTry_none_right _

def optionalDecision (policy : PlanningPolicy) (field : FormFieldV1)
    (candidate : Option Candidate) : Except PlanFault (Option AnswerDecisionV1) :=
  firstDecision policy field candidate.toList

section

variable (hallowed : automaticResolutionAllowed policy field = true)
include hallowed

theorem identityDecision_eq :
    identityDecision policy field context =
      optionalDecision policy field (identityCandidate policy context field) := by
  rw [identityDecision, if_pos hallowed, optionalDecision, identityCandidate]
  cases identityValue policy field context.profile with
  | none => rfl
  | some value =>
    rw [Option.map_some, Option.toList_some, firstDecision_singleton]
    rfl

theorem confirmedDecision_eq :
    confirmedDecision policy field context =
      optionalDecision policy field (confirmedCandidate policy context field) := by
  simp only [confirmedDecision, evidenceDecision, optionalDecision, confirmedCandidate]
  by_cases hkey : evidenceCanonical policy field = ""
  · rw [if_neg (fun hguard => hguard.1 hkey), if_pos hkey]
    rfl
  · rw [if_pos ⟨hkey, hallowed⟩, if_neg hkey]
    cases confirmedFact policy context.profile (evidenceCanonical policy field) with
    | none => rfl
    | some fact =>
      rw [Option.map_some, Option.toList_some, firstDecision_singleton]
      rfl

theorem approvedDecision_eq :
    approvedDecision policy rows field context =
      optionalDecision policy field (approvedCandidate policy rows context field) := by
  rw [approvedDecision, if_pos hallowed, operatorApproved, optionalDecision, approvedCandidate]
  split
  · rfl
  cases newestApproval (rows.filter (approvedFor policy field context)) with
  | none => rfl
  | some row =>
    cases hanswer : row.answer with
    | none =>
      simp only [hanswer, Option.bind_some, Option.map_none, Option.toList_none]
      rfl
    | some raw =>
      simp only [hanswer, Option.bind_some, Option.map_some, Option.toList_some,
        firstDecision_singleton]
      rfl

theorem cvDecision_eq :
    cvDecision policy field context =
      optionalDecision policy field (cvCandidate policy context field) := by
  simp only [cvDecision, evidenceDecision, optionalDecision, cvCandidate, hallowed,
    Bool.true_and]
  by_cases hkey : evidenceCanonical policy field = ""
  · rw [if_neg (fun hguard => hguard.1 hkey), if_pos (.inl hkey)]
    rfl
  · cases hreview : policy.fieldRequiresOperatorReview field with
    | true =>
      rw [if_neg (by simp), if_pos (.inr rfl)]
      rfl
    | false =>
      rw [if_pos ⟨hkey, by simp⟩, if_neg (by simp [hkey])]
      cases (selectedCvFacts policy context).lookup (evidenceCanonical policy field) with
      | none => rfl
      | some fact =>
      rw [Option.map_some, Option.toList_some, firstDecision_singleton]
      rfl

end

/-- A field that no attachment resolves is resolved by its first candidate that coerces. -/
theorem storedDecision_eq :
    storedDecision policy rows context field =
      orTry (.ok (verifiedAttachmentDecision policy field context))
        (firstDecision policy field (candidates policy rows context field)) := by
  rw [storedDecision, candidates]
  cases hallowed : automaticResolutionAllowed policy field with
  | false =>
    have hidentity : identityDecision policy field context = .ok none := by
      rw [identityDecision, hallowed]
      rfl
    have hconfirmed : confirmedDecision policy field context = .ok none := by
      simp [confirmedDecision, evidenceDecision, hallowed]
    have happroved : approvedDecision policy rows field context = .ok none := by
      rw [approvedDecision, hallowed]
      rfl
    have hcv : cvDecision policy field context = .ok none := by
      simp [cvDecision, evidenceDecision, hallowed]
    rw [hidentity, hconfirmed, happroved, hcv]
    rfl
  | true =>
    rw [identityDecision_eq hallowed, confirmedDecision_eq hallowed,
      approvedDecision_eq hallowed, cvDecision_eq hallowed]
    simp only [↓reduceIte, optionalDecision, ← firstDecision_append]
    congr 2
    cases identityCandidate policy context field <;>
      cases confirmedCandidate policy context field <;>
      cases approvedCandidate policy rows context field <;>
      cases cvCandidate policy context field <;> rfl

/-! ## Fields -/

/-- What the planning of one field adds to the plan. -/
structure FieldOutcome where
  decision : AnswerDecisionV1
  blockers : List ReasonCode

/-- The blockers of a required field without an answer. -/
def openBlockers (field : FormFieldV1) (decision : AnswerDecisionV1) : List ReasonCode :=
  if decision.disposition ≠ .resolved ∧ field.required = true then
    .requiredFieldUnknown :: decision.reasonCode.toList
  else []

def PlanProgress.add (progress : PlanProgress) (outcome : FieldOutcome)
    (audit : Option ModelAudit) : PlanProgress where
  decisions := progress.decisions ++ [outcome.decision]
  blockers := progress.blockers ++ outcome.blockers
  modelAudit := audit

section Parts

variable (policy : PlanningPolicy) (rows : List OperatorApprovedAnswer)
  (context : AnswerPolicyContext)

/-- Whether the model is asked of a field that no stored fact resolves. -/
def askedOfModel (field : FormFieldV1) : Bool :=
  automaticResolutionAllowed policy field && !policy.fieldRequiresOperatorReview field

/-- The decision, with the blockers found on the way to it. -/
def recordedOutcome (field : FormFieldV1) (decision : AnswerDecisionV1)
    (found : List ReasonCode) : FieldOutcome :=
  ⟨decision, found ++ openBlockers field decision⟩

def abstainedOutcome (field : FormFieldV1) (reason : Option ReasonCode)
    (found : List ReasonCode) : FieldOutcome :=
  recordedOutcome field (abstainedDecision policy field (reason.getD .requiredFieldUnknown)) found

/-- The answer of the model counts where it stands under the identity of the plan. -/
def modelOutcome (audit : Option ModelAudit) (field : FormFieldV1) (outcome : LlmOutcome) :
    FieldOutcome :=
  match outcome.decision with
  | none => abstainedOutcome policy field outcome.reason []
  | some decision =>
    match candidateAudit outcome.identity with
    | none => abstainedOutcome policy field (some .llmModelMissing) [.llmModelMissing]
    | some offered =>
      if audit = some offered then recordedOutcome field decision []
      else abstainedOutcome policy field (some .llmUnavailable) [.llmUnavailable]

/-- The field planned alone, under the identity of the plan. -/
def fieldOutcome (audit : Option ModelAudit) (turn : Option LlmTurn) (field : FormFieldV1) :
    Except PlanFault FieldOutcome := do
  match ← storedDecision policy rows context field with
  | some decision => .ok (recordedOutcome field decision [])
  | none =>
    if askedOfModel policy field then
      (localLlm policy field context turn).map (modelOutcome policy audit field)
    else
      .ok (abstainedOutcome policy field (unaskedReason policy field) [])

/-- The identity under which the model answers the field, where it is asked and answers. -/
def modelOffer (turn : Option LlmTurn) (field : FormFieldV1) : Option ModelAudit :=
  match storedDecision policy rows context field with
  | .ok none =>
    if askedOfModel policy field then
      match localLlm policy field context turn with
      | .ok outcome => outcome.decision.bind fun _ => candidateAudit outcome.identity
      | .error _ => none
    else none
  | _ => none

/-- The identity of the first answer of the model. -/
def planAudit (turns : ℕ → Option LlmTurn) (items : List (FormFieldV1 × ℕ)) :
    Option ModelAudit :=
  items.findSome? fun item => modelOffer policy rows context (turns item.2) item.1

def fieldOutcomes (audit : Option ModelAudit) (turns : ℕ → Option LlmTurn)
    (items : List (FormFieldV1 × ℕ)) : Except PlanFault (List FieldOutcome) :=
  items.mapM fun item => fieldOutcome policy rows context audit (turns item.2) item.1

end Parts

variable {policy : PlanningPolicy}
  {progress : PlanProgress}

theorem record_eq_add (decision : AnswerDecisionV1) :
    progress.record field decision =
      progress.add (recordedOutcome field decision []) progress.modelAudit := by
  simp only [PlanProgress.record, PlanProgress.add, recordedOutcome, openBlockers]
  split <;> simp

theorem abstain_eq_add (policy : PlanningPolicy) (field : FormFieldV1)
    (progress : PlanProgress) (reason : Option ReasonCode) (found : List ReasonCode) :
    ({ progress with blockers := progress.blockers ++ found }).abstain policy field reason =
      progress.add (abstainedOutcome policy field reason found) progress.modelAudit := by
  rw [PlanProgress.abstain, record_eq_add]
  simp [PlanProgress.add, abstainedOutcome, recordedOutcome]

theorem takeModelAnswer_eq_add (outcome : LlmOutcome) (later : Option ModelAudit) :
    let known := progress.modelAudit.or
      (outcome.decision.bind fun _ => candidateAudit outcome.identity)
    progress.takeModelAnswer policy field outcome =
      progress.add (modelOutcome policy (known.or later) field outcome) known := by
  simp only [PlanProgress.takeModelAnswer, modelOutcome]
  cases outcome.decision with
  | none =>
    simpa using abstain_eq_add policy field progress outcome.reason []
  | some decision =>
    cases candidateAudit outcome.identity with
    | none =>
      simpa using abstain_eq_add policy field progress (some .llmModelMissing)
        [.llmModelMissing]
    | some offered =>
      cases hknown : progress.modelAudit with
      | none => simp [record_eq_add, PlanProgress.add]
      | some known =>
        by_cases hsame : known = offered
        · simp [hsame, record_eq_add, PlanProgress.add]
        · have habstained := abstain_eq_add policy field progress
            (some .llmUnavailable) [.llmUnavailable]
          simpa [hsame, hknown] using habstained

/-- One step of the loop adds the outcome of its own field. -/
theorem planField_eq (turn : Option LlmTurn) (field : FormFieldV1) (later : Option ModelAudit) :
    let known := progress.modelAudit.or (modelOffer policy rows context turn field)
    planField policy rows context turn progress field =
      (fieldOutcome policy rows context (known.or later) turn field).map
        fun outcome => progress.add outcome known := by
  simp only [planField, fieldOutcome, modelOffer]
  cases storedDecision policy rows context field with
  | error => rfl
  | ok stored =>
    cases stored with
    | some decision =>
      apply congrArg Except.ok
      rw [record_eq_add, Option.or_none]
    | none =>
      rw [← askedOfModel]
      cases askedOfModel policy field with
      | false =>
        apply congrArg Except.ok
        simpa using abstain_eq_add policy field progress (unaskedReason policy field) []
      | true =>
        cases localLlm policy field context turn with
        | error => rfl
        | ok outcome => exact congrArg Except.ok (takeModelAnswer_eq_add outcome later)

def PlanProgress.extend (progress : PlanProgress) (outcomes : List FieldOutcome)
    (audit : Option ModelAudit) : PlanProgress where
  decisions := progress.decisions ++ outcomes.map FieldOutcome.decision
  blockers := progress.blockers ++ outcomes.flatMap FieldOutcome.blockers
  modelAudit := audit

theorem planAudit_cons (item : FormFieldV1 × ℕ) (items : List (FormFieldV1 × ℕ)) :
    planAudit policy rows context turns (item :: items) =
      (modelOffer policy rows context (turns item.2) item.1).or
        (planAudit policy rows context turns items) := by
  rw [planAudit, List.findSome?_cons]
  cases modelOffer policy rows context (turns item.2) item.1 <;> rfl

/-- The loop adds, in order, what the fields are planned one by one. -/
theorem planEach_eq :
    let audit := progress.modelAudit.or
      (planAudit policy rows context turns (fields.zipIdx index))
    planEach policy rows context turns index progress fields =
      (fieldOutcomes policy rows context audit turns (fields.zipIdx index)).map
        fun outcomes => progress.extend outcomes audit := by
  induction fields generalizing index progress with
  | nil => simp [planEach, fieldOutcomes, planAudit, PlanProgress.extend, pure, Except.pure,
      Except.map]
  | cons field rest ih =>
    let offer := modelOffer policy rows context (turns index) field
    let later := planAudit policy rows context turns (rest.zipIdx (index + 1))
    have haudit : planAudit policy rows context turns ((field :: rest).zipIdx index) =
        offer.or later := by
      rw [List.zipIdx_cons, planAudit_cons]
    simp only [haudit, ← Option.or_assoc]
    simp only [planEach, fieldOutcomes, List.zipIdx_cons, List.mapM_cons]
    rw [planField_eq (turns index) field later]
    cases fieldOutcome policy rows context ((progress.modelAudit.or offer).or later)
        (turns index) field with
    | error => rfl
    | ok outcome =>
      change planEach policy rows context turns (index + 1)
        (progress.add outcome (progress.modelAudit.or offer)) rest = _
      rw [ih]
      simp only [PlanProgress.add, fieldOutcomes]
      cases (rest.zipIdx (index + 1)).mapM fun item => fieldOutcome policy rows context
          ((progress.modelAudit.or offer).or later) (turns item.2) item.1 with
      | error => rfl
      | ok outcomes =>
        simp [PlanProgress.extend, later, bind, Except.bind, pure, Except.pure, Except.map]

/-- What the planned fields make together. -/
def partsResult (outcomes : List FieldOutcome) (audit : Option ModelAudit) : AnswerPolicyResult :=
  planResult ⟨outcomes.map FieldOutcome.decision, outcomes.flatMap FieldOutcome.blockers, audit⟩

theorem planFields_eq_ok_iff (hbounded : observedFormFieldsAreBounded policy fields = true) :
    let turns := fun index => client.map (· index)
    let audit := planAudit policy rows context turns fields.zipIdx
    planFields policy rows context client fields = .ok result ↔
      ∃ outcomes, fieldOutcomes policy rows context audit turns fields.zipIdx = .ok outcomes ∧
        partsResult outcomes audit = result := by
  simp only [planFields, if_pos hbounded, planEach_eq, map_eq_ok, Option.none_or,
    exists_exists_and_eq_and]
  rfl

end JobApplyAgent.Forms
