import JobApplyAgent.Forms.Parts
import Mathlib.Data.List.ReduceOption

/-!
# When a plan is valid

Planning coerces without looking at the constraints of a field, and the validators of a
plan look at them all.  A planned form is accepted exactly when the facts that answer its
fields fit them.
-/

namespace JobApplyAgent.Forms

open Domain Library

/-! ## The answering fact -/

theorem firstFact_eq_ok_some
    (hfirst : firstFact policy field found = .ok (some (candidate, value))) :
    candidate ∈ found ∧ coerceAnswer policy field candidate.raw = .ok (some value) := by
  induction found with
  | nil => cases hfirst
  | cons head rest ih =>
    obtain ⟨coerced, hcoerced, hfirst⟩ := bind_eq_ok.mp hfirst
    cases coerced with
    | none =>
      obtain ⟨hmem, hvalue⟩ := ih hfirst
      exact ⟨.tail _ hmem, hvalue⟩
    | some found =>
      cases hfirst
      obtain ⟨safe, _, hvalue⟩ := bind_eq_ok.mp hcoerced
      cases safe with
      | false => cases hvalue
      | true => exact ⟨.head _, hvalue⟩

/-- What is common to the facts that may resolve a field. -/
structure StoredFact (policy : PlanningPolicy) (field : FormFieldV1) (candidate : Candidate) :
    Prop where
  allowed : automaticResolutionAllowed policy field = true
  stored : candidate.provenance ∈ [AnswerProvenance.deterministicIdentity, .userConfirmed,
    .operatorApprovedReusable, .cvEvidence]
  confirmed : candidate.provenance = .userConfirmed →
    ∃ key, candidate.reference = confirmedFactRef key
  confidence : 0 ≤ candidate.confidence ∧ candidate.confidence ≤ 1

theorem cvConfidence_bounds : 0 ≤ cvConfidence ∧ cvConfidence ≤ 1 := by
  decide +kernel

/-- Each candidate is a stored fact. -/
theorem candidates_stored (hmem : candidate ∈ candidates policy rows context field) :
    StoredFact policy field candidate := by
  unfold candidates at hmem
  split at hmem
  next hallowed =>
    rw [List.reduceOption_mem_iff] at hmem
    simp only [List.mem_cons, List.not_mem_nil, or_false] at hmem
    have hsure : (0 : ℚ) ≤ 1 ∧ (1 : ℚ) ≤ 1 := by decide
    rcases hmem with hidentity | hconfirmed | happroved | hcv
    · obtain ⟨_, _, rfl⟩ := Option.map_eq_some_iff.mp hidentity.symm
      exact ⟨hallowed, by simp, by simp, hsure⟩
    · obtain ⟨_, hfact⟩ := Option.ite_none_left_eq_some.mp hconfirmed.symm
      obtain ⟨_, _, rfl⟩ := Option.map_eq_some_iff.mp hfact
      exact ⟨hallowed, by simp, fun _ => ⟨_, rfl⟩, hsure⟩
    · obtain ⟨_, hrow⟩ := Option.ite_none_left_eq_some.mp happroved.symm
      obtain ⟨row, _, hanswer⟩ := Option.bind_eq_some_iff.mp hrow
      obtain ⟨_, _, rfl⟩ := Option.map_eq_some_iff.mp hanswer
      exact ⟨hallowed, by simp, by simp, hsure⟩
    · obtain ⟨_, hfact⟩ := Option.ite_none_left_eq_some.mp hcv.symm
      obtain ⟨_, _, rfl⟩ := Option.map_eq_some_iff.mp hfact
      exact ⟨hallowed, by simp, by simp, cvConfidence_bounds⟩
  next => cases hmem

/-- The decision that a fact stands behind, under its stripped reference. -/
def factDecision (field : FormFieldV1) (candidate : Candidate) (value : AnswerValue)
    (reference : String) : AnswerDecisionV1 where
  fieldId := field.fieldId
  disposition := .resolved
  provenance := candidate.provenance
  value := some value
  confidence := some candidate.confidence
  evidenceRefs := [reference]
  reasonCode := none

theorem validateDecision_factDecision (hinked : value.Inked)
    (hprovenance : candidate.provenance ≠ .abstained) :
    (factDecision field candidate value reference).validateDecision = .ok () := by
  simp only [AnswerDecisionV1.validateDecision, factDecision, seq_eq_ok, require_eq_ok]
  refine ⟨rfl, ?_, ?_, by simpa using hprovenance, rfl⟩
  · cases value with
    | text text => exact hinked
    | flag | int | float | texts => rfl
  · cases value with
    | texts texts => simpa [AnswerValue.Inked] using hinked
    | flag | int | float | text => rfl

theorem candidateDecision_eq_ok_iff (hinked : value.Inked)
    (hprovenance : candidate.provenance ≠ .abstained) :
    candidateDecision field candidate value = .ok decision ↔
      ∃ reference, boundedText candidate.reference = some reference ∧
        factDecision field candidate value reference = decision := by
  constructor
  · intro hbuilt
    obtain ⟨refs, hrefs, _, rfl, _⟩ := answerDecision_eq_ok hbuilt
    rw [List.mapM_cons, List.mapM_nil, Option.bind_eq_bind, Option.bind_eq_some_iff] at hrefs
    obtain ⟨reference, hreference, hsingle⟩ := hrefs
    cases hsingle
    exact ⟨reference, hreference, rfl⟩
  · rintro ⟨reference, hreference, rfl⟩
    have hvalid : (factDecision field candidate value reference).validateDecision = .ok () :=
      validateDecision_factDecision hinked hprovenance
    rw [factDecision] at hvalid
    simp [candidateDecision, answerDecision, hreference, maxEvidenceRefs, factDecision, hvalid]

/-! ## One decision -/

theorem allowed_compatible (hallowed : automaticResolutionAllowed policy field = true) :
    policy.fieldCanonicalLabelCompatible field = true ∧ field.fieldType ≠ .file := by
  simp only [automaticResolutionAllowed, Bool.and_eq_true, bne_iff_ne, ne_eq] at hallowed
  exact ⟨hallowed.1.1, hallowed.2⟩

theorem validateResolvedDecision_eq_ok_iff
    (hallowed : automaticResolutionAllowed policy field = true)
    (hprovenance : decision.provenance ≠ .verifiedAttachment) (hvalue : decision.value = some value)
    (hcoerced : CoercedTo field value) :
    validateResolvedDecision policy.toTextPolicy plan field decision = .ok () ↔
      validateReviewedAnswer policy.toTextPolicy field decision = .ok () ∧
        validateResolvedFieldValue policy.toTextPolicy field value = .ok () := by
  obtain ⟨hcompatible, hfile⟩ := allowed_compatible hallowed
  have hattachment : validateAttachment policy.toTextPolicy plan field decision = .ok () := by
    rw [validateAttachment, if_neg hprovenance, require_eq_ok]
    simpa using hfile
  simp only [validateResolvedDecision, hattachment, seq_eq_ok, require_eq_ok, hcompatible,
    Bool.true_or, validateDecisionValue, if_neg hprovenance, hvalue, hcoerced.option, true_and,
    and_true]

theorem boundedText_eq_some (hreference : boundedText text = some reference) :
    reference.toList = strip text ∧ strip text ≠ [] ∧
      (strip text).length ≤ maxBoundedTextLength := by
  obtain ⟨hguard, hsame⟩ := Option.ite_none_left_eq_some.mp hreference
  cases hsame
  simp only [Bool.or_eq_true, List.isEmpty_iff, decide_eq_true_eq, not_or, Nat.not_lt] at hguard
  exact ⟨String.toList_ofList, hguard⟩

theorem boundedText_head (hlabel : label.toList.head? = some first)
    (hink : isSpace first = false) (hreference : boundedText (label ++ text) = some reference) :
    reference.toList.head? = some first := by
  obtain ⟨rest, hrest⟩ := List.head?_eq_some_iff.mp hlabel
  rw [(boundedText_eq_some hreference).1, strip, String.toList_append, hrest, List.cons_append,
    stripBy, List.dropWhile_cons_of_neg (by simp [hink])]
  obtain ⟨last, hlast⟩ := List.rdropWhile_prefix isSpace (first :: (rest ++ text.toList))
  cases hkept : (first :: (rest ++ text.toList)).rdropWhile isSpace with
  | nil =>
    have hall := List.rdropWhile_eq_nil_iff.mp hkept first (.head _)
    rw [hink] at hall
    cases hall
  | cons kept later =>
    rw [hkept] at hlast
    rw [List.head?_cons, (List.cons.inj hlast).1]

theorem not_explicitlyConfirmed (hreference : boundedText (confirmedFactRef key) = some reference) :
    (factDecision field candidate value reference).explicitlyConfirmed = false := by
  have hlabel : "profile:user_confirmed:".toList.head? = some 'p' := by decide
  have hhead := boundedText_head hlabel (by decide) hreference
  have hother : "operator_confirmation:".toList.isPrefixOf reference.toList = false := by
    cases htext : reference.toList with
    | nil => rfl
    | cons first rest =>
      rw [htext] at hhead
      cases hhead
      rfl
  rw [AnswerDecisionV1.explicitlyConfirmed, factDecision, List.all_cons, hother, Bool.false_and,
    Bool.and_false]

/-- The first fact that coerces fits the field: its reference is not too long, its value meets
the constraints, and under review it is an approved answer or the fact of the very key. -/
structure FactFits (policy : PlanningPolicy) (field : FormFieldV1) (candidate : Candidate)
    (value : AnswerValue) : Prop where
  cited : (boundedText candidate.reference).isSome = true
  fits : validateResolvedFieldValue policy.toTextPolicy field value = .ok ()
  reviewed : policy.fieldRequiresOperatorReview field = true →
    candidate.provenance = .operatorApprovedReusable ∨
      candidate.provenance = .userConfirmed ∧
        policy.canonicalSensitiveKey (field.canonicalName.getD "") ≠ "" ∧
        boundedText candidate.reference = some ("profile:user_confirmed:" ++
          policy.canonicalSensitiveKey (field.canonicalName.getD ""))

theorem scoped_of_review (hallowed : automaticResolutionAllowed policy field = true)
    (hreview : policy.fieldRequiresOperatorReview field = true) :
    policy.fieldHasScopedSensitiveSemantics field = true := by
  simp only [automaticResolutionAllowed, ambiguousSensitiveIdentity, hreview, Bool.true_and,
    Bool.not_not, Bool.and_eq_true] at hallowed
  exact hallowed.1.2

/-- A fact answers a field under review only from the operator. -/
theorem validateReviewedAnswer_factDecision (hstored : StoredFact policy field candidate)
    (hreference : boundedText candidate.reference = some reference) :
    validateReviewedAnswer policy.toTextPolicy field
        (factDecision field candidate value reference) = .ok () ↔
      (policy.fieldRequiresOperatorReview field = true →
        candidate.provenance = .operatorApprovedReusable ∨
          candidate.provenance = .userConfirmed ∧
            policy.canonicalSensitiveKey (field.canonicalName.getD "") ≠ "" ∧
            reference = "profile:user_confirmed:" ++
              policy.canonicalSensitiveKey (field.canonicalName.getD "")) := by
  rw [validateReviewedAnswer]
  cases hreview : policy.fieldRequiresOperatorReview field with
  | false => simp
  | true =>
    have hscoped := scoped_of_review hstored.allowed hreview
    have hexplicit : candidate.provenance = .userConfirmed →
        (factDecision field candidate value reference).explicitlyConfirmed = false := by
      intro hconfirmed
      obtain ⟨key, hkey⟩ := hstored.confirmed hconfirmed
      rw [hkey] at hreference
      exact not_explicitlyConfirmed hreference
    simp only [if_true, validateSensitiveAnswer, seq_eq_ok, require_eq_ok, hscoped]
    have hprovenance := hstored.stored
    simp only [List.mem_cons, List.not_mem_nil, or_false] at hprovenance
    rcases hprovenance with hsource | hsource | hsource | hsource
    · simp [factDecision, hsource]
    · rw [hexplicit hsource]
      simp [factDecision, hsource]
    · simp [factDecision, hsource]
    · simp [factDecision, hsource]

/-- The decision on a fact is valid exactly where the fact fits. -/
theorem validatePlanDecision_factDecision (hstored : StoredFact policy field candidate)
    (hcoerced : CoercedTo field value)
    (hreference : boundedText candidate.reference = some reference) :
    validatePlanDecision policy.toTextPolicy plan field
        (factDecision field candidate value reference) = .ok () ↔
      FactFits policy field candidate value := by
  have hprovenance : candidate.provenance ≠ .verifiedAttachment := by
    intro hattached
    simpa [hattached] using hstored.stored
  change validateResolvedDecision policy.toTextPolicy plan field _ = .ok () ↔ _
  rw [validateResolvedDecision_eq_ok_iff hstored.allowed hprovenance rfl hcoerced,
    validateReviewedAnswer_factDecision hstored hreference]
  constructor
  · rintro ⟨hreviewed, hfits⟩
    refine ⟨by simp [hreference], hfits, ?_⟩
    simpa [hreference] using hreviewed
  · intro hfits
    refine ⟨?_, hfits.fits⟩
    simpa [hreference] using hfits.reviewed

/-- The plan binds the attachment of the context. -/
structure BindsAttachment (context : AnswerPolicyContext) (plan : FormPlanV1) : Prop where
  verified : plan.contract.attachmentVerified = context.attachmentVerified
  selectedCvId : plan.contract.selectedCvId = context.selectedCvId
  selectedCvHash : plan.contract.selectedCvHash = context.selectedCvHash
  attachedCvId : context.attachedCvId = some plan.contract.attachedCvId
  attachedCvHash : context.attachedCvHash = some plan.contract.attachedCvHash

/-- The verified upload is accepted where the control is compatible and not under review. -/
theorem validatePlanDecision_attachment (hbinds : BindsAttachment context plan)
    (hverified : verifiedAttachmentDecision policy field context = some decision) :
    validatePlanDecision policy.toTextPolicy plan field decision = .ok () ↔
      policy.fieldCanonicalLabelCompatible field = true ∧
        policy.fieldRequiresOperatorReview field = false := by
  obtain ⟨hguard, hsame⟩ := Option.ite_none_right_eq_some.mp hverified
  cases hsame
  simp only [hbinds.attachedCvId, hbinds.attachedCvHash, Bool.and_eq_true, beq_iff_eq,
    Option.some.injEq] at hguard
  obtain ⟨⟨⟨hupload, hattached⟩, hid⟩, hhash⟩ := hguard
  have htype : field.fieldType = .file := by
    by_contra hother
    simp [TextPolicy.fieldIsReviewedCvAttachment, hother] at hupload
  have hattachment : validateAttachment policy.toTextPolicy plan field
      { fieldId := field.fieldId
        disposition := .resolved
        provenance := .verifiedAttachment
        value := some (.text verifiedAttachmentSentinel)
        confidence := some 1
        evidenceRefs := [verifiedAttachmentEvidenceRef]
        reasonCode := none } = .ok () := by
    simp [validateAttachment, require_eq_ok, hupload, hbinds.verified, hattached, hid, hhash,
      hbinds.selectedCvId, hbinds.selectedCvHash]
  simp only [validatePlanDecision, validateResolvedDecision, hattachment, seq_eq_ok,
    require_eq_ok, validateDecisionValue, if_true, validateOptionValue, htype, true_and, and_true]
  apply and_congr
  · simp
  · rw [validateReviewedAnswer]
    cases policy.fieldRequiresOperatorReview field with
    | false => simp
    | true => simp [validateSensitiveAnswer, require, bind, Except.bind]

theorem validatePlanDecision_abstained (reason : ReasonCode) :
    validatePlanDecision policy.toTextPolicy plan field (abstainedDecision policy field reason) =
      .ok () := by
  rw [validatePlanDecision, abstainedDecision]
  split
  next hblank => split at hblank <;> cases hblank
  next hresolved => split at hresolved <;> cases hresolved
  · rfl

/-! ## One field -/

/-- Asking the model raises nothing, and an answer under the identity of the plan fits. -/
def ModelFits (policy : PlanningPolicy) (context : AnswerPolicyContext)
    (audit : Option ModelAudit) (turn : Option LlmTurn) (field : FormFieldV1) : Prop :=
  ∃ outcome, localLlm policy field context turn = .ok outcome ∧
    ∀ decision value offered, outcome.decision = some decision →
      decision.value = some value → candidateAudit outcome.identity = some offered →
      audit = some offered →
      validateResolvedFieldValue policy.toTextPolicy field value = .ok ()

/-- The upload, the first fact that coerces, or else the model answers the field validly. -/
def FieldFits (policy : PlanningPolicy) (rows : List OperatorApprovedAnswer)
    (context : AnswerPolicyContext) (audit : Option ModelAudit) (turn : Option LlmTurn)
    (field : FormFieldV1) : Prop :=
  match verifiedAttachmentDecision policy field context with
  | some _ =>
    policy.fieldCanonicalLabelCompatible field = true ∧
      policy.fieldRequiresOperatorReview field = false
  | none =>
    match firstFact policy field (candidates policy rows context field) with
    | .error _ => False
    | .ok (some (candidate, value)) => FactFits policy field candidate value
    | .ok none =>
      askedOfModel policy field = true → ModelFits policy context audit turn field

theorem storedDecision_of_attachment
    (hverified : verifiedAttachmentDecision policy field context = some decision) :
    storedDecision policy rows context field = .ok (some decision) := by
  rw [storedDecision_eq, hverified]
  rfl

theorem storedDecision_of_fact (hnone : verifiedAttachmentDecision policy field context = none) :
    storedDecision policy rows context field =
      firstDecision policy field (candidates policy rows context field) := by
  rw [storedDecision_eq, hnone]
  rfl

theorem localLlm_coerced (houtcome : localLlm policy field context turn = .ok outcome)
    (hdecision : outcome.decision = some decision) :
    decision.disposition = .resolved ∧ decision.provenance = .localLlm ∧
      ∃ value, decision.value = some value ∧ CoercedTo field value := by
  obtain ⟨_, _, _, _, hcited⟩ := localLlm_decision houtcome hdecision
  obtain ⟨_, _, _, value, hcoerced, hvalue⟩ := hcited.cited
  exact ⟨hcited.disposition, hcited.provenance, value, hvalue, coerceAnswer_shape hcoerced⟩

/-- An answer of the model is accepted where it fits the field, if it counts at all. -/
theorem validatePlanDecision_modelOutcome (hasked : askedOfModel policy field = true)
    (houtcome : localLlm policy field context turn = .ok outcome) :
    validatePlanDecision policy.toTextPolicy plan field
        (modelOutcome policy audit field outcome).decision = .ok () ↔
      ∀ decision value offered, outcome.decision = some decision →
        decision.value = some value → candidateAudit outcome.identity = some offered →
        audit = some offered →
        validateResolvedFieldValue policy.toTextPolicy field value = .ok () := by
  rw [askedOfModel, Bool.and_eq_true, Bool.not_eq_true'] at hasked
  unfold modelOutcome
  cases hdecision : outcome.decision with
  | none => simp [abstainedOutcome, recordedOutcome, validatePlanDecision_abstained]
  | some decision =>
    cases hoffered : candidateAudit outcome.identity with
    | none => simp [abstainedOutcome, recordedOutcome, validatePlanDecision_abstained]
    | some offered =>
      by_cases hsame : audit = some offered
      · obtain ⟨hresolved, hprovenance, value, hvalue, hcoerced⟩ :=
          localLlm_coerced houtcome hdecision
        have hother : decision.provenance ≠ .verifiedAttachment := by
          rw [hprovenance]
          decide
        have hreviewed : validateReviewedAnswer policy.toTextPolicy field decision =
            .ok () := by
          rw [validateReviewedAnswer, hasked.2]
          rfl
        have haccept : validatePlanDecision policy.toTextPolicy plan field decision = .ok () ↔
            validateResolvedFieldValue policy.toTextPolicy field value = .ok () := by
          simp only [validatePlanDecision, hresolved]
          rw [validateResolvedDecision_eq_ok_iff hasked.1 hother hvalue hcoerced]
          exact and_iff_right hreviewed
        simp only [if_pos hsame, recordedOutcome]
        rw [haccept]
        constructor
        · intro hfits found answer identity hfound hanswer _ _
          cases hfound
          rw [hvalue] at hanswer
          cases hanswer
          exact hfits
        · exact fun hall => hall decision value offered rfl hvalue rfl hsame
      · simp [hsame, abstainedOutcome, recordedOutcome, validatePlanDecision_abstained]

/-- A field is planned to a valid decision exactly where its facts fit. -/
theorem fieldFits_iff (hbinds : BindsAttachment context plan)
    (hschema : field.withinSchema = true) :
    FieldFits policy rows context audit turn field ↔
      ∃ outcome, fieldOutcome policy rows context audit turn field = .ok outcome ∧
        validatePlanDecision policy.toTextPolicy plan field outcome.decision = .ok () := by
  rw [FieldFits, fieldOutcome]
  cases hverified : verifiedAttachmentDecision policy field context with
  | some decision =>
    rw [storedDecision_of_attachment hverified,
      ← validatePlanDecision_attachment hbinds hverified]
    simp [recordedOutcome, bind, Except.bind]
  | none =>
    rw [storedDecision_of_fact hverified, firstDecision]
    cases hfact : firstFact policy field (candidates policy rows context field) with
    | error fault => simp [bind, Except.bind]
    | ok found =>
      cases found with
      | none =>
        cases hasked : askedOfModel policy field with
        | false =>
          simp [bind, Except.bind, abstainedOutcome, recordedOutcome,
            validatePlanDecision_abstained]
        | true =>
          rw [ModelFits]
          cases houtcome : localLlm policy field context turn with
          | error => simp [bind, Except.bind, Except.map]
          | ok outcome =>
            have hiff : validatePlanDecision policy.toTextPolicy plan field
                (modelOutcome policy audit field outcome).decision = .ok () ↔ _ :=
              validatePlanDecision_modelOutcome hasked houtcome
            simp [bind, Except.bind, Except.map, hiff]
      | some found =>
        obtain ⟨candidate, value⟩ := found
        obtain ⟨hmem, hcoerced⟩ := firstFact_eq_ok_some hfact
        have hstored := candidates_stored hmem
        have hshape := coerceAnswer_shape hcoerced
        have hprovenance : candidate.provenance ≠ .abstained := by
          intro habstained
          simpa [habstained] using hstored.stored
        have hbuilt : ∀ decision, candidateDecision field candidate value = .ok decision ↔ _ :=
          fun decision => candidateDecision_eq_ok_iff (hshape.inked hschema) hprovenance
        cases hreference : boundedText candidate.reference with
        | none =>
          have hnot : ¬FactFits policy field candidate value := by
            intro hfits
            simpa [hreference] using hfits.cited
          cases hdecision : candidateDecision field candidate value with
          | error => simp [bind, Except.bind, Except.map, hdecision, hnot]
          | ok decision =>
            obtain ⟨_, hsome, _⟩ := (hbuilt decision).mp hdecision
            rw [hreference] at hsome
            cases hsome
        | some reference =>
          have hdecision := (hbuilt _).mpr ⟨reference, hreference, rfl⟩
          have hiff : validatePlanDecision policy.toTextPolicy plan field
              (factDecision field candidate value reference) = .ok () ↔ _ :=
            validatePlanDecision_factDecision hstored hshape hreference
          simp [bind, Except.bind, Except.map, hdecision, recordedOutcome, hiff]

/-! ## What every planned field keeps to -/

def planningReasons : List ReasonCode :=
  [.requiredFieldUnknown, .attachmentUnverified, .unsupportedClaim, .llmUnavailable,
    .llmModelMissing, .llmTimeout, .llmCircuitOpen, .llmSchemaInvalid]

/-- What holds of every planned field, whether its answer fits or not. -/
structure OutcomeShape (field : FormFieldV1) (outcome : FieldOutcome) : Prop where
  fieldId : outcome.decision.fieldId = field.fieldId
  valid : outcome.decision.validateDecision = .ok ()
  schema : outcome.decision.withinSchema = true
  blockers : ∀ reason ∈ outcome.blockers, reason ∈ planningReasons
  unanswered : outcome.decision.disposition ≠ .resolved → field.required = true →
    .requiredFieldUnknown ∈ outcome.blockers

theorem recordedOutcome_shape (hfieldId : decision.fieldId = field.fieldId)
    (hvalid : decision.validateDecision = .ok ()) (hschema : decision.withinSchema = true)
    (hfound : ∀ reason ∈ found, reason ∈ planningReasons)
    (hreason : ∀ reason, decision.reasonCode = some reason → reason ∈ planningReasons) :
    OutcomeShape field (recordedOutcome field decision found) := by
  refine ⟨hfieldId, hvalid, hschema, ?_, ?_⟩
  · intro reason hmem
    rcases List.mem_append.mp hmem with hbefore | hopen
    · exact hfound reason hbefore
    unfold openBlockers at hopen
    split at hopen
    · rcases List.mem_cons.mp hopen with rfl | hcode
      · decide
      · exact hreason reason (Option.mem_toList.mp hcode)
    · cases hopen
  · intro hresolved hrequired
    have hopen : decision.disposition ≠ .resolved := hresolved
    apply List.mem_append_right
    simp [openBlockers, hopen, hrequired]

theorem abstainedOutcome_shape (hschema : field.withinSchema = true)
    (hreason : ∀ code, reason = some code → code ∈ planningReasons)
    (hfound : ∀ code ∈ found, code ∈ planningReasons) :
    OutcomeShape field (abstainedOutcome policy field reason found) := by
  simp only [FormFieldV1.withinSchema, Bool.and_eq_true] at hschema
  refine recordedOutcome_shape rfl ?_ ?_ hfound ?_
  · rw [AnswerDecisionV1.validateDecision, abstainedDecision]
    split
    next hblank => split at hblank <;> cases hblank
    next hresolved => split at hresolved <;> cases hresolved
    · rfl
  · simp [AnswerDecisionV1.withinSchema, abstainedDecision, hschema]
  · intro code hcode
    cases hcode
    cases reason with
    | none => decide
    | some code => exact hreason code rfl

theorem boundedText_within (hreference : boundedText text = some reference) :
    isBoundedText reference = true := by
  obtain ⟨hsame, hne, hlength⟩ := boundedText_eq_some hreference
  refine isTextWithin_iff.mpr ⟨?_, ?_, ?_⟩
  · rw [strip, hsame]
    exact stripBy_of_inked (inked_stripBy isSpace text.toList)
  · rintro rfl
    exact hne hsame.symm
  · rw [← String.length_toList, hsame]
    exact hlength

theorem attachment_shape (hschema : field.withinSchema = true)
    (hverified : verifiedAttachmentDecision policy field context = some decision) :
    OutcomeShape field (recordedOutcome field decision []) := by
  obtain ⟨_, hsame⟩ := Option.ite_none_right_eq_some.mp hverified
  cases hsame
  simp only [FormFieldV1.withinSchema, Bool.and_eq_true] at hschema
  have hsentinel : hasInk verifiedAttachmentSentinel = true := by decide
  have hreference : isBoundedText verifiedAttachmentEvidenceRef = true := by decide
  refine recordedOutcome_shape rfl ?_ ?_ (by simp) (by simp)
  · simp [AnswerDecisionV1.validateDecision, require, hsentinel, bind, Except.bind]
  · simp [AnswerDecisionV1.withinSchema, hschema, hreference, maxEvidenceRefs]

theorem factDecision_shape (hschema : field.withinSchema = true)
    (hstored : StoredFact policy field candidate) (hinked : value.Inked)
    (hprovenance : candidate.provenance ≠ .abstained)
    (hreference : boundedText candidate.reference = some reference) :
    OutcomeShape field (recordedOutcome field
      (factDecision field candidate value reference) []) := by
  simp only [FormFieldV1.withinSchema, Bool.and_eq_true] at hschema
  refine recordedOutcome_shape rfl (validateDecision_factDecision hinked hprovenance) ?_ (by simp)
    (by rintro _ ⟨⟩)
  simp [AnswerDecisionV1.withinSchema, factDecision, hschema, boundedText_within hreference,
    maxEvidenceRefs, hstored.confidence]

theorem mapM_boundedText {references : List String}
    (hbounded : references.mapM boundedText = some bounded) :
    ∀ reference ∈ bounded, isBoundedText reference = true := by
  induction references generalizing bounded with
  | nil =>
    cases hbounded
    exact nofun
  | cons first rest ih =>
    rw [List.mapM_cons, Option.bind_eq_bind, Option.bind_eq_some_iff] at hbounded
    obtain ⟨kept, hkept, hbounded⟩ := hbounded
    rw [Option.bind_eq_bind, Option.bind_eq_some_iff] at hbounded
    obtain ⟨later, hlater, hsame⟩ := hbounded
    cases hsame
    intro reference hmem
    rcases List.mem_cons.mp hmem with rfl | hrest
    · exact boundedText_within hkept
    · exact ih hlater reference hrest

theorem checkedReply_schema (hschema : field.withinSchema = true)
    (hreply : checkedReply policy field catalog typed = .ok (some decision)) :
    decision.withinSchema = true ∧ decision.reasonCode = none := by
  unfold checkedReply at hreply
  split at hreply
  · cases hreply
  obtain ⟨bound, _, hreply⟩ := bind_eq_ok.mp hreply
  cases bound with
  | none => cases hreply
  | some value =>
    simp only at hreply
    split at hreply
    · obtain ⟨built, hanswer, hsame⟩ := map_eq_ok.mp hreply
      cases hsame
      obtain ⟨refs, hrefs, hcount, rfl, _⟩ := answerDecision_eq_ok hanswer
      simp only [FormFieldV1.withinSchema, Bool.and_eq_true] at hschema
      have hreferences := mapM_boundedText hrefs
      refine ⟨?_, rfl⟩
      simpa [AnswerDecisionV1.withinSchema, hschema, hcount, typed.bounded.1,
        typed.bounded.2.1] using hreferences
    · cases hreply

theorem llmReason_planning (reasonCode : String) : llmReason reasonCode ∈ planningReasons := by
  unfold llmReason
  split_ifs <;> decide

theorem unaskedReason_planning (hcode : unaskedReason policy field = some code) :
    code ∈ planningReasons := by
  unfold unaskedReason at hcode
  split_ifs at hcode <;> cases hcode <;> decide

/-- The model gives a decision of the schema, or abstains for a planning reason. -/
structure LlmOutcome.Shape (outcome : LlmOutcome) : Prop where
  schema : ∀ decision, outcome.decision = some decision →
    decision.withinSchema = true ∧ decision.reasonCode = none
  reason : ∀ code, outcome.reason = some code → code ∈ planningReasons

theorem LlmOutcome.shape_abstained (identity : Option ModelIdentity) {reason : ReasonCode}
    (hreason : reason ∈ planningReasons) : (LlmOutcome.mk none identity (some reason)).Shape := by
  constructor
  · intro decision hdecision
    cases hdecision
  · intro code hcode
    cases hcode
    exact hreason

theorem localLlm_shape (hschema : field.withinSchema = true)
    (houtcome : localLlm policy field context turn = .ok outcome) : outcome.Shape := by
  unfold localLlm at houtcome
  split at houtcome
  · cases houtcome
    constructor
    · intro decision hdecision
      cases hdecision
    · intro code hcode
      cases hcode
  · split at houtcome
    · cases houtcome
      exact LlmOutcome.shape_abstained none (by decide)
    · split at houtcome
      · cases houtcome
        exact LlmOutcome.shape_abstained none (by decide)
      · split at houtcome
        · cases houtcome
          exact LlmOutcome.shape_abstained none (llmReason_planning _)
        next identity _ =>
          cases houtcome
          exact LlmOutcome.shape_abstained identity (by decide)
        next identity typed _ =>
          obtain ⟨checked, hchecked, houtcome⟩ := bind_eq_ok.mp houtcome
          cases checked with
          | none =>
            cases houtcome
            exact LlmOutcome.shape_abstained identity (by decide)
          | some decision =>
            cases houtcome
            constructor
            · intro found hfound
              cases hfound
              exact checkedReply_schema hschema hchecked
            · intro code hcode
              cases hcode

/-- An outcome of the model that is recorded is well formed. -/
theorem modelOutcome_shape (hschema : field.withinSchema = true)
    (houtcome : localLlm policy field context turn = .ok outcome) :
    OutcomeShape field (modelOutcome policy audit field outcome) := by
  have hshape := localLlm_shape hschema houtcome
  have hblocked : ∀ reason ∈ planningReasons,
      OutcomeShape field (abstainedOutcome policy field (some reason) [reason]) := by
    intro reason hreason
    apply abstainedOutcome_shape hschema
    · rintro code ⟨⟩
      exact hreason
    · intro code hcode
      rwa [List.mem_singleton.mp hcode]
  unfold modelOutcome
  split
  · apply abstainedOutcome_shape hschema hshape.reason
    intro code hcode
    cases hcode
  next decision hdecision =>
    split
    · exact hblocked .llmModelMissing (by decide)
    split
    · obtain ⟨_, _, _, _, hcited⟩ := localLlm_decision houtcome hdecision
      obtain ⟨hwithin, hcode⟩ := hshape.schema decision hdecision
      apply recordedOutcome_shape hcited.fieldId hcited.valid hwithin
      · intro reason hmem
        cases hmem
      · intro reason hsome
        rw [hcode] at hsome
        cases hsome
    · exact hblocked .llmUnavailable (by decide)

/-- The outcome of every field is well formed. -/
theorem fieldOutcome_shape (hschema : field.withinSchema = true)
    (houtcome : fieldOutcome policy rows context audit turn field = .ok outcome) :
    OutcomeShape field outcome := by
  rw [fieldOutcome] at houtcome
  obtain ⟨stored, hstored, houtcome⟩ := bind_eq_ok.mp houtcome
  cases stored with
  | none =>
    dsimp only at houtcome
    split at houtcome
    · obtain ⟨found, hfound, rfl⟩ := map_eq_ok.mp houtcome
      exact modelOutcome_shape hschema hfound
    · cases houtcome
      exact abstainedOutcome_shape hschema (fun code hcode => unaskedReason_planning
        hcode) (by simp)
  | some decision =>
    cases houtcome
    cases hverified : verifiedAttachmentDecision policy field context with
    | some attached =>
      rw [storedDecision_of_attachment hverified] at hstored
      cases hstored
      exact attachment_shape hschema hverified
    | none =>
      rw [storedDecision_of_fact hverified] at hstored
      obtain ⟨found, hfact, hstored⟩ := bind_eq_ok.mp hstored
      cases found with
      | none => cases hstored
      | some found =>
        obtain ⟨candidate, value⟩ := found
        obtain ⟨built, hbuilt, hsame⟩ := map_eq_ok.mp hstored
        cases hsame
        obtain ⟨hmem, hcoerced⟩ := firstFact_eq_ok_some hfact
        have hfound := candidates_stored hmem
        have hinked := (coerceAnswer_shape hcoerced).inked hschema
        have hprovenance : candidate.provenance ≠ .abstained := by
          intro habstained
          simpa [habstained] using hfound.stored
        obtain ⟨reference, hreference, rfl⟩ :=
          (candidateDecision_eq_ok_iff hinked hprovenance).mp hbuilt
        exact factDecision_shape hschema hfound hinked hprovenance hreference

end JobApplyAgent.Forms
