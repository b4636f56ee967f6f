import JobApplyAgent.Forms.Confirmation
import JobApplyAgent.Forms.PlanningSafety

/-!
# Confirmations are total and keep the blockers exact

A cloned plan is valid when the answer meets the contract of its field and the clone
still has an answer of the model that the plan is audited under.
-/

namespace JobApplyAgent.Forms

open Domain Library

variable {policy : PlanningPolicy} {plan : FormPlanV1}

/-! ## Recomputed blockers -/

/-- The field is required and has no resolved decision. -/
def Unresolved (decisionsById : String → Option AnswerDecisionV1) (field : FormFieldV1) : Prop :=
  field.required = true ∧
    (decisionsById field.fieldId).any (fun decision => decision.disposition == .resolved) = false

def CarriesReason (decisionsById : String → Option AnswerDecisionV1) (field : FormFieldV1)
    (reason : ReasonCode) : Prop :=
  (decisionsById field.fieldId).bind AnswerDecisionV1.reasonCode = some reason

theorem mem_addFieldBlockers :
    blocker ∈ addFieldBlockers decisionsById blockers field ↔
      blocker ∈ blockers ∨ Unresolved decisionsById field ∧
        (blocker = .requiredFieldUnknown ∨
          blocker ∈ fieldLevelAnswerBlockers ∧ CarriesReason decisionsById field blocker) := by
  unfold addFieldBlockers Unresolved CarriesReason
  grind

theorem addFieldBlockers_nodup (hnodup : blockers.Nodup) :
    (addFieldBlockers decisionsById blockers field).Nodup := by
  unfold addFieldBlockers
  grind

/-- The blockers of the plan stay; those of the fields are read off the decisions again. -/
theorem mem_recomputeAnswerBlockers :
    blocker ∈ recomputeAnswerBlockers plan decisionsById ↔
      (blocker ∈ plan.contract.blockers ∧ blocker ∉ fieldLevelAnswerBlockers) ∨
        ∃ field ∈ plan.fields, Unresolved decisionsById field ∧
          (blocker = .requiredFieldUnknown ∨
            blocker ∈ fieldLevelAnswerBlockers ∧ CarriesReason decisionsById field blocker) := by
  have hfold : ∀ (fields : List FormFieldV1) (blockers : List ReasonCode),
      blocker ∈ fields.foldl (addFieldBlockers decisionsById) blockers ↔
        blocker ∈ blockers ∨ ∃ field ∈ fields, Unresolved decisionsById field ∧
          (blocker = .requiredFieldUnknown ∨
            blocker ∈ fieldLevelAnswerBlockers ∧ CarriesReason decisionsById field blocker) := by
    intro fields
    induction fields with
    | nil => simp
    | cons first rest ih =>
      intro blockers
      rw [List.foldl_cons, ih, mem_addFieldBlockers]
      simp [or_assoc]
  have hkept : blocker ∈ (plan.contract.blockers.filter fun blocker =>
      globalFormPlanBlockers.contains blocker || !fieldLevelAnswerBlockers.contains blocker) ↔
      blocker ∈ plan.contract.blockers ∧ blocker ∉ fieldLevelAnswerBlockers := by
    rw [List.mem_filter]
    apply and_congr_right
    intro _
    cases blocker <;> decide
  rw [recomputeAnswerBlockers, hfold, hkept]

theorem recomputeAnswerBlockers_nodup (hnodup : plan.contract.blockers.Nodup) :
    (recomputeAnswerBlockers plan decisionsById).Nodup := by
  have hfold : ∀ (fields : List FormFieldV1) (blockers : List ReasonCode), blockers.Nodup →
      (fields.foldl (addFieldBlockers decisionsById) blockers).Nodup := by
    intro fields
    induction fields with
    | nil => exact fun _ hblockers => hblockers
    | cons first rest ih => exact fun _ hblockers => ih _ (addFieldBlockers_nodup hblockers)
  exact hfold _ _ (hnodup.filter _)

/-! ## Replaced decisions -/

variable {fieldId : String}

theorem decisionById_eq_some (hfind : plan.decisionById fieldId = some decision) :
    decision ∈ plan.decisions ∧ decision.fieldId = fieldId := by
  refine ⟨List.mem_of_find?_eq_some hfind, ?_⟩
  simpa using List.find?_some hfind

theorem fieldById_eq_some (hfind : plan.fieldById fieldId = some field) :
    field ∈ plan.fields ∧ field.fieldId = fieldId := by
  refine ⟨List.mem_of_find?_eq_some hfind, ?_⟩
  simpa using List.find?_some hfind

theorem replacedDecisions_fieldId
    (hfound : replacedDecisions plan replacement fieldId = some decision) :
    decision.fieldId = fieldId := by
  unfold replacedDecisions at hfound
  split at hfound
  next hsame =>
    cases hfound
    exact hsame.symm
  · exact (decisionById_eq_some hfound).2

theorem find_filterMap_fields {decisionsById : String → Option AnswerDecisionV1}
    (hids : ∀ fieldId decision, decisionsById fieldId = some decision →
      decision.fieldId = fieldId) {fields : List FormFieldV1} (hfield : field ∈ fields) :
    (fields.filterMap fun field => decisionsById field.fieldId).find?
        (fun decision => decision.fieldId == field.fieldId) = decisionsById field.fieldId := by
  induction fields with
  | nil => cases hfield
  | cons first rest ih =>
    cases hfirst : decisionsById first.fieldId with
    | none =>
      simp only [List.filterMap_cons, hfirst]
      rcases List.mem_cons.mp hfield with rfl | hlater
      · rw [hfirst, List.find?_eq_none]
        intro decision hdecision hsame
        obtain ⟨other, _, hother⟩ := List.mem_filterMap.mp hdecision
        rw [← hids _ _ hother, eq_of_beq hsame, hfirst] at hother
        cases hother
      · exact ih hlater
    | some found =>
      simp only [List.filterMap_cons, hfirst, List.find?_cons]
      by_cases hsame : found.fieldId = field.fieldId
      · rw [show (found.fieldId == field.fieldId) = true from beq_iff_eq.mpr hsame, ← hsame,
          hids _ _ hfirst, hfirst]
      · rw [show (found.fieldId == field.fieldId) = false from beq_eq_false_iff_ne.mpr hsame]
        apply ih
        rcases List.mem_cons.mp hfield with rfl | hlater
        · exact absurd (hids _ _ hfirst) hsame
        · exact hlater

theorem clonedPlan_decisionById (hfield : field ∈ plan.fields) :
    (clonedPlan plan planId revision replacement).decisionById field.fieldId =
      replacedDecisions plan replacement field.fieldId :=
  find_filterMap_fields (fun _ _ => replacedDecisions_fieldId) hfield

theorem clonedPlan_decisionIds (hids : (plan.fields.map FormFieldV1.fieldId).Nodup) :
    ((clonedPlan plan planId revision replacement).decisions.map
      AnswerDecisionV1.fieldId).Nodup := by
  refine hids.sublist ?_
  change ((plan.fields.filterMap fun field =>
    replacedDecisions plan replacement field.fieldId).map _).Sublist _
  induction plan.fields with
  | nil => exact .slnil
  | cons first rest ih =>
    cases hfirst : replacedDecisions plan replacement first.fieldId with
    | none =>
      simp only [List.filterMap_cons, hfirst]
      exact ih.trans (List.sublist_cons_self _ _)
    | some found =>
      simp only [List.filterMap_cons, hfirst, List.map_cons,
        replacedDecisions_fieldId hfirst]
      exact ih.cons_cons _

/-- The clone has the replacement, and the decisions on all other fields. -/
theorem mem_clonedPlan_decisions (hanswers : AnswersValid policy.toPlanPolicy plan)
    (hfield : field ∈ plan.fields) (hreplacement : replacement.fieldId = field.fieldId) :
    decision ∈ (clonedPlan plan planId revision replacement).decisions ↔
      decision = replacement ∨
        decision ∈ plan.decisions ∧ decision.fieldId ≠ field.fieldId := by
  change decision ∈ (plan.fields.filterMap fun field =>
    replacedDecisions plan replacement field.fieldId) ↔ _
  rw [List.mem_filterMap]
  constructor
  · rintro ⟨other, hother, hfound⟩
    have hid := replacedDecisions_fieldId hfound
    unfold replacedDecisions at hfound
    split at hfound
    · exact .inl (Option.some.inj hfound).symm
    next hne =>
      refine .inr ⟨(decisionById_eq_some hfound).1, ?_⟩
      rw [hid, ← hreplacement]
      exact hne
  · rintro (rfl | ⟨hmem, hne⟩)
    · exact ⟨field, hfield, by rw [replacedDecisions, if_pos hreplacement.symm]⟩
    · obtain ⟨other, hother, _⟩ := hanswers.observed decision hmem
      obtain ⟨hmemOther, hid⟩ := fieldById_eq_some hother
      refine ⟨other, hmemOther, ?_⟩
      rw [replacedDecisions, hid, if_neg (by rw [hreplacement]; exact hne)]
      cases hfind : plan.decisionById decision.fieldId with
      | none => simpa using List.find?_eq_none.mp hfind decision hmem
      | some found =>
        obtain ⟨hfound, hsame⟩ := decisionById_eq_some hfind
        rw [List.inj_on_of_nodup_map hanswers.decisionIds hfound hmem hsame]

/-! ## When a clone is valid -/

/-- An answer of the model is left when the decision of the field is replaced. -/
def KeepsModelAudit (plan : FormPlanV1) (fieldId : String) : Prop :=
  plan.usesLocalLlm = true →
    ∃ decision ∈ plan.decisions, decision.provenance = .localLlm ∧ decision.fieldId ≠ fieldId

/-- The size and the number of blockers of the clone are within their bounds. -/
def CloneFits (policy : PlanningPolicy) (plan : FormPlanV1) (planId : String) (revision : ℕ)
    (replacement : AnswerDecisionV1) : Prop :=
  policy.serializedSize (clonedPlan plan planId revision replacement) ≤ maxFormPlanBytes ∧
    (clonedPlan plan planId revision replacement).contract.blockers.length ≤ maxFormBlockers

theorem usesLocalLlm_eq_true_iff :
    plan.usesLocalLlm = true ↔ ∃ decision ∈ plan.decisions, decision.provenance = .localLlm := by
  rw [FormPlanV1.usesLocalLlm, plan.localLlm, List.any_eq_true]
  simp

theorem clonedPlan_usesLocalLlm (hanswers : AnswersValid policy.toPlanPolicy plan)
    (hfield : field ∈ plan.fields) (hreplacement : replacement.fieldId = field.fieldId)
    (hlocal : replacement.provenance ≠ .localLlm) :
    (clonedPlan plan planId revision replacement).usesLocalLlm = plan.usesLocalLlm ↔
      KeepsModelAudit plan field.fieldId := by
  rw [Bool.eq_iff_iff, usesLocalLlm_eq_true_iff, KeepsModelAudit]
  constructor
  · intro hsame huses
    obtain ⟨decision, hdecision, hmodel⟩ := hsame.mpr huses
    rcases (mem_clonedPlan_decisions hanswers hfield hreplacement).mp hdecision with
      rfl | ⟨hmem, hne⟩
    · exact absurd hmodel hlocal
    · exact ⟨decision, hmem, hmodel, hne⟩
  · intro hkeeps
    constructor
    · rintro ⟨decision, hdecision, hmodel⟩
      rcases (mem_clonedPlan_decisions hanswers hfield hreplacement).mp hdecision with
        rfl | ⟨hmem, _⟩
      · exact absurd hmodel hlocal
      · exact usesLocalLlm_eq_true_iff.mpr ⟨decision, hmem, hmodel⟩
    · intro huses
      obtain ⟨decision, hmem, hmodel, hne⟩ := hkeeps huses
      exact ⟨decision, (mem_clonedPlan_decisions hanswers hfield hreplacement).mpr
        (.inr ⟨hmem, hne⟩), hmodel⟩

theorem clonedPlan_shapeValid (hshape : FormShapeValid policy.toPlanPolicy plan) :
    FormShapeValid policy.toPlanPolicy (clonedPlan plan planId revision replacement) where
  fields := hshape.fields
  disclosures := hshape.disclosures
  locale := hshape.locale
  ordered := hshape.ordered
  lifetime := hshape.lifetime
  wholeAudit := hshape.wholeAudit
  fieldIds := hshape.fieldIds
  disclosureIds := hshape.disclosureIds
  positions := hshape.positions
  kinds := hshape.kinds
  acknowledgements := hshape.acknowledgements

theorem clonedPlan_withinSchema (hschema : plan.withinSchema = true)
    (hanswers : AnswersValid policy.toPlanPolicy plan) (hfield : field ∈ plan.fields)
    (hreplacement : replacement.fieldId = field.fieldId) (hrevision : 0 < revision)
    (hwithin : replacement.withinSchema = true) :
    (clonedPlan plan planId revision replacement).withinSchema = true ↔
      (clonedPlan plan planId revision replacement).contract.blockers.length ≤
        maxFormBlockers := by
  simp only [FormPlanV1.withinSchema, Bool.and_eq_true, decide_eq_true_eq] at hschema ⊢
  obtain ⟨⟨⟨⟨⟨⟨⟨hbindings, hcount⟩, hfields⟩, hnotices⟩, hdisclosures⟩, _⟩, hdecisions⟩, _⟩ :=
    hschema
  have hcloneBindings :
      (clonedPlan plan planId revision replacement).bindingsWithinSchema = true := by
    simp only [FormPlanV1.bindingsWithinSchema, List.all_cons, List.all_nil, Bool.and_true,
      Bool.and_eq_true, decide_eq_true_eq] at hbindings ⊢
    exact ⟨⟨⟨⟨⟨hbindings.1.1.1.1.1, hrevision, hbindings.1.1.1.1.2.2⟩, hbindings.1.1.1.2⟩,
      hbindings.1.1.2⟩, hbindings.1.2⟩, hbindings.2⟩
  have hlength : (clonedPlan plan planId revision replacement).decisions.length ≤
      maxFormFields :=
    (List.length_filterMap_le _ _).trans hcount
  have hall : (clonedPlan plan planId revision replacement).decisions.all
      AnswerDecisionV1.withinSchema = true := by
    rw [List.all_eq_true] at hdecisions ⊢
    intro decision hdecision
    rcases (mem_clonedPlan_decisions hanswers hfield hreplacement).mp hdecision with
      rfl | ⟨hmem, _⟩
    · exact hwithin
    · exact hdecisions decision hmem
  constructor
  · exact fun hclone => hclone.2
  · exact fun hblockers => ⟨⟨⟨⟨⟨⟨⟨hcloneBindings, hcount⟩, hfields⟩, hnotices⟩, hdisclosures⟩,
      hlength⟩, hall⟩, hblockers⟩

theorem clonedPlan_unresolved
    (hopen : (clonedPlan plan planId revision replacement).unresolvedRequired ≠ []) :
    .requiredFieldUnknown ∈ (clonedPlan plan planId revision replacement).contract.blockers := by
  obtain ⟨other, hother⟩ := List.exists_mem_of_ne_nil _ hopen
  obtain ⟨hfield, hunresolved⟩ := List.mem_filter.mp hother
  have hmem : other ∈ plan.fields := hfield
  rw [clonedPlan_decisionById hmem, Bool.and_eq_true, Bool.not_eq_true'] at hunresolved
  exact mem_recomputeAnswerBlockers.mpr (.inr ⟨other, hmem, hunresolved, .inl rfl⟩)

/-- The clone of an accepted plan is accepted when the answer meets the contract of its field,
the clone fits, and an answer of the model is left where the plan has one. -/
theorem clonedPlan_accepted_iff (planId : String)
    (haccepted : plan.accepted policy.toPlanPolicy = true)
    (hfind : plan.fieldById field.fieldId = some field)
    (hreplacement : replacement.fieldId = field.fieldId)
    (hlocal : replacement.provenance ≠ .localLlm) (hrevision : 0 < revision)
    (hwithin : replacement.withinSchema = true)
    (hvalid : replacement.validateDecision = .ok ()) :
    (clonedPlan plan planId revision replacement).accepted policy.toPlanPolicy = true ↔
      validatePlanDecision policy.toTextPolicy plan field replacement = .ok () ∧
        CloneFits policy plan planId revision replacement ∧
        KeepsModelAudit plan field.fieldId := by
  obtain ⟨hschema, hshape, hanswers⟩ := accepted_iff.mp haccepted
  have hfield := (fieldById_eq_some hfind).1
  rw [accepted_iff, clonedPlan_withinSchema hschema hanswers hfield hreplacement hrevision
    hwithin, CloneFits]
  constructor
  · rintro ⟨hblockers, _, hclone⟩
    obtain ⟨observed, hobserved, hok⟩ := hclone.observed replacement
      ((mem_clonedPlan_decisions hanswers hfield hreplacement).mpr (.inl rfl))
    have hsame : plan.fieldById replacement.fieldId = some observed := hobserved
    rw [hreplacement, hfind] at hsame
    cases hsame
    refine ⟨hok, ⟨hclone.size, hblockers⟩, ?_⟩
    rw [← clonedPlan_usesLocalLlm hanswers hfield hreplacement hlocal, hclone.audited,
      hanswers.audited]
    rfl
  · rintro ⟨hok, ⟨hsize, hblockers⟩, hkeeps⟩
    have huses : (clonedPlan plan planId revision replacement).usesLocalLlm =
        plan.usesLocalLlm :=
      (clonedPlan_usesLocalLlm hanswers hfield hreplacement hlocal).mpr hkeeps
    refine ⟨hblockers, clonedPlan_shapeValid hshape, ?_⟩
    constructor
    · exact hsize
    · exact clonedPlan_decisionIds hshape.fieldIds
    · intro decision hdecision
      rcases (mem_clonedPlan_decisions hanswers hfield hreplacement).mp hdecision with
        rfl | ⟨hmem, _⟩
      · exact hvalid
      · exact hanswers.decided decision hmem
    · intro decision hdecision
      rcases (mem_clonedPlan_decisions hanswers hfield hreplacement).mp hdecision with
        rfl | ⟨hmem, _⟩
      · refine ⟨field, ?_, hok⟩
        rw [hreplacement]
        exact hfind
      · exact hanswers.observed decision hmem
    · exact recomputeAnswerBlockers_nodup hanswers.blockers
    · rw [huses, hanswers.audited]
      rfl
    · rw [huses]
      exact hanswers.qualified
    · exact clonedPlan_unresolved

/-! ## One confirmation -/

/-- The call reaches the validation of the answer, for this plan and field. -/
def Reviewable (policy : PlanningPolicy) (review : AnswerReview) (call : ConfirmCall)
    (plan : FormPlanV1) (field : FormFieldV1) : Prop :=
  reviewedPlan policy review call = .ok plan ∧ answeredField plan call = .ok field

def MeetsContract (policy : PlanningPolicy) (plan : FormPlanV1) (field : FormFieldV1)
    (body : ConfirmAnswerRequest) : Prop :=
  (requestedDecision field body body.evidenceRef).validateDecision = .ok () ∧
    validatePlanDecision policy.toTextPolicy plan field
      (requestedDecision field body body.evidenceRef) = .ok ()

/-- The reference of the stored decision: that of the new row, or that of the request. -/
def storedRef (review : AnswerReview) (body : ConfirmAnswerRequest) : String :=
  if body.reusable then approvedAnswerRef review.nextApprovalId else body.evidenceRef

/-- The clones that the call validates are within the bounds on plans. -/
structure CallFits (policy : PlanningPolicy) (review : AnswerReview) (call : ConfirmCall)
    (plan : FormPlanV1) (field : FormFieldV1) : Prop where
  preliminary : CloneFits policy plan plan.contract.planId plan.contract.applicationRevision
    (requestedDecision field call.body call.body.evidenceRef)
  clone : CloneFits policy plan call.newPlanId (max 1 review.revision + 1)
    (requestedDecision field call.body (storedRef review call.body))
  reference : isBoundedText (storedRef review call.body) = true

/-- What a good answer replaces is not the last answer of the model. -/
def ReplacesSafely (policy : PlanningPolicy) (review : AnswerReview) (call : ConfirmCall) : Prop :=
  ∀ plan field, Reviewable policy review call plan field →
    MeetsContract policy plan field call.body → CallFits policy review call plan field →
    KeepsModelAudit plan field.fieldId

structure BlockersExact (plan clone : FormPlanV1) : Prop where
  unknown : .requiredFieldUnknown ∈ clone.contract.blockers ↔
    ∃ field ∈ clone.fields, Unresolved clone.decisionById field
  kept : ∀ blocker ∈ plan.contract.blockers, blocker ∉ fieldLevelAnswerBlockers →
    blocker ∈ clone.contract.blockers
  carried : ∀ blocker ∈ fieldLevelAnswerBlockers, blocker ≠ .requiredFieldUnknown →
    (blocker ∈ clone.contract.blockers ↔
      ∃ field ∈ clone.fields, Unresolved clone.decisionById field ∧
        CarriesReason clone.decisionById field blocker)

/-- A good answer is not refused as invalid, and an accepted one leaves a valid plan with
exact blockers. -/
structure ConfirmedWell (policy : PlanningPolicy) (review : AnswerReview) (call : ConfirmCall) :
    Prop where
  total : ∀ plan field, Reviewable policy review call plan field →
    MeetsContract policy plan field call.body → CallFits policy review call plan field →
    confirmApplicationAnswer policy review call ≠ .error .answerInvalid
  cloned : ∀ next, confirmApplicationAnswer policy review call = .ok next →
    ∃ plan clone, review.latestFormPlan = some ⟨plan, false⟩ ∧
      next.latestFormPlan = some ⟨clone, false⟩ ∧
      clone.accepted policy.toPlanPolicy = true ∧ BlockersExact plan clone

section Confirm

variable {call : ConfirmCall}

theorem reviewedPlan_eq_ok (hreviewed : reviewedPlan policy review call = .ok plan) :
    review.latestFormPlan = some ⟨plan, false⟩ ∧ plan.accepted policy.toPlanPolicy = true := by
  unfold reviewedPlan at hreviewed
  split at hreviewed
  · cases hreviewed
  split at hreviewed
  · cases hreviewed
  next stored _ =>
    simp only at hreviewed
    split at hreviewed
    next hlatest =>
      split at hreviewed
      next haccepted =>
        split at hreviewed
        · cases hreviewed
          simp only [Bool.and_eq_true, decide_eq_true_eq, Bool.not_eq_true'] at hlatest
          refine ⟨?_, haccepted⟩
          rw [hlatest.1.1.1, ← hlatest.1.1.2]
        · cases hreviewed
      · cases hreviewed
    · cases hreviewed

theorem answeredField_eq_ok (hanswered : answeredField plan call = .ok field) :
    plan.fieldById field.fieldId = some field := by
  unfold answeredField at hanswered
  split at hanswered
  · cases hanswered
  next found hfind =>
    split at hanswered
    · cases hanswered
    split at hanswered
    · cases hanswered
    cases hanswered
    rw [(fieldById_eq_some hfind).2, hfind]

theorem requestedDecision_notModel (field : FormFieldV1) (body : ConfirmAnswerRequest)
    (evidenceRef : String) :
    (requestedDecision field body evidenceRef).provenance ≠ .localLlm := by
  unfold requestedDecision
  grind

theorem ConfirmAnswerRequest.answer_of_reusable {body : ConfirmAnswerRequest}
    (hreusable : body.reusable = true) : body.confirmBlank = false := by
  by_contra hblank
  rw [(body.blank (Bool.not_eq_false _ ▸ hblank)).2] at hreusable
  cases hreusable

theorem validateDecision_storedRef :
    (requestedDecision field call.body (storedRef review call.body)).validateDecision =
      (requestedDecision field call.body call.body.evidenceRef).validateDecision := by
  unfold storedRef
  cases hreusable : call.body.reusable with
  | false => rfl
  | true =>
    simp [requestedDecision, AnswerDecisionV1.validateDecision,
      ConfirmAnswerRequest.answer_of_reusable hreusable,
      hreusable]

theorem validatePlanDecision_storedRef :
    validatePlanDecision policy.toTextPolicy plan field
        (requestedDecision field call.body (storedRef review call.body)) =
      validatePlanDecision policy.toTextPolicy plan field
        (requestedDecision field call.body call.body.evidenceRef) := by
  unfold storedRef
  cases hreusable : call.body.reusable with
  | false => rfl
  | true =>
    have hother : (AnswerProvenance.operatorApprovedReusable == .userConfirmed) = false := by
      decide
    simp [requestedDecision, validatePlanDecision, validateResolvedDecision,
      validateAttachment, validateReviewedAnswer, validateSensitiveAnswer,
      validateDecisionValue, ConfirmAnswerRequest.answer_of_reusable hreusable, hreusable,
        hother, bne]

variable {evidenceRef : String}

theorem validatedClone_eq_ok :
    validatedClone policy plan planId revision replacement = .ok clone ↔
      replacement.withinSchema = true ∧ replacement.validateDecision = .ok () ∧
        (clonedPlan plan planId revision replacement).accepted policy.toPlanPolicy = true ∧
        clone = clonedPlan plan planId revision replacement := by
  unfold validatedClone
  split
  next hvalid =>
    simp only [Bool.and_eq_true, decide_eq_true_eq] at hvalid
    simp [hvalid.1.1, hvalid.1.2, hvalid.2, eq_comm]
  next hinvalid =>
    simp only [Bool.and_eq_true, decide_eq_true_eq, not_and] at hinvalid
    simp only [reduceCtorEq, false_iff, not_and]
    exact fun hwithin hvalid haccepted => absurd haccepted (hinvalid ⟨hwithin, hvalid⟩)

theorem validatedClone_eq_error
    (hrefused : validatedClone policy plan planId revision replacement = .error refusal) :
    refusal = .answerInvalid := by
  unfold validatedClone at hrefused
  split at hrefused
  · cases hrefused
  cases hrefused
  rfl

/-- The blockers of the clone are those that its decisions give. -/
theorem clonedPlan_blockersExact :
    BlockersExact plan (clonedPlan plan planId revision replacement) := by
  have hunresolved : ∀ field ∈ plan.fields,
      (Unresolved (clonedPlan plan planId revision replacement).decisionById field ↔
        Unresolved (replacedDecisions plan replacement) field) := by
    intro field hfield
    rw [Unresolved, Unresolved, clonedPlan_decisionById hfield]
  have hcarries : ∀ field ∈ plan.fields, ∀ blocker,
      (CarriesReason (clonedPlan plan planId revision replacement).decisionById field blocker ↔
        CarriesReason (replacedDecisions plan replacement) field blocker) := by
    intro field hfield blocker
    rw [CarriesReason, CarriesReason, clonedPlan_decisionById hfield]
  have hmem : ∀ blocker,
      blocker ∈ (clonedPlan plan planId revision replacement).contract.blockers ↔
        blocker ∈ recomputeAnswerBlockers plan (replacedDecisions plan replacement) :=
    fun _ => Iff.rfl
  have hunknown : ReasonCode.requiredFieldUnknown ∈ fieldLevelAnswerBlockers := by decide
  constructor
  · rw [hmem, mem_recomputeAnswerBlockers]
    constructor
    · rintro (⟨_, hother⟩ | ⟨field, hfield, hopen, _⟩)
      · exact absurd hunknown hother
      · exact ⟨field, hfield, (hunresolved field hfield).mpr hopen⟩
    · rintro ⟨field, hfield, hopen⟩
      exact .inr ⟨field, hfield, (hunresolved field hfield).mp hopen, .inl rfl⟩
  · intro blocker hblocker hglobal
    rw [hmem, mem_recomputeAnswerBlockers]
    exact .inl ⟨hblocker, hglobal⟩
  · intro blocker hlevel hne
    rw [hmem, mem_recomputeAnswerBlockers]
    constructor
    · rintro (⟨_, hother⟩ | ⟨field, hfield, hopen, hreason⟩)
      · exact absurd hlevel hother
      · exact ⟨field, hfield, (hunresolved field hfield).mpr hopen,
          (hcarries field hfield blocker).mpr (hreason.resolve_left hne).2⟩
    · rintro ⟨field, hfield, hopen, hreason⟩
      exact .inr ⟨field, hfield, (hunresolved field hfield).mp hopen,
        .inr ⟨hlevel, (hcarries field hfield blocker).mp hreason⟩⟩

theorem storeClone_latest :
    (storeClone review clone).latestFormPlan = some ⟨clone, false⟩ := by
  have hactive : ((storeClone review clone).plans.filter fun stored => !stored.invalidated) =
      [⟨clone, false⟩] := by
    rw [storeClone, List.filter_append, List.filter_map]
    simp [Function.comp_def]
  rw [AnswerReview.latestFormPlan, hactive]
  rfl

theorem evidenceRef_bounded (body : ConfirmAnswerRequest) :
    isBoundedText body.evidenceRef = true :=
  isTextWithin_labelled ⟨'o', rfl, by decide⟩ body.referenced (by decide)

theorem requestedDecision_withinSchema (body : ConfirmAnswerRequest)
    (haccepted : plan.accepted policy.toPlanPolicy = true)
    (hfind : plan.fieldById field.fieldId = some field) (href : isBoundedText evidenceRef = true) :
    (requestedDecision field body evidenceRef).withinSchema = true := by
  have hschema := (accepted_iff.mp haccepted).1
  simp only [FormPlanV1.withinSchema, Bool.and_eq_true, List.all_eq_true] at hschema
  have hfield := hschema.1.1.1.1.1.2 field (fieldById_eq_some hfind).1
  simp only [FormFieldV1.withinSchema, Bool.and_eq_true] at hfield
  simp [AnswerDecisionV1.withinSchema, requestedDecision, hfield.1.1.1.1.1, href, maxEvidenceRefs]

theorem revision_pos (haccepted : plan.accepted policy.toPlanPolicy = true) :
    0 < plan.contract.applicationRevision := by
  have hschema := (accepted_iff.mp haccepted).1
  simp only [FormPlanV1.withinSchema, FormPlanV1.bindingsWithinSchema, Bool.and_eq_true,
    List.all_cons, decide_eq_true_eq] at hschema
  exact hschema.1.1.1.1.1.1.1.1.1.1.1.2.1

/-- A decision of the request is validated in a clone exactly when the answer meets the
contract, the clone fits and an answer of the model is left. -/
theorem validatedClone_isOk_iff (planId : String)
    (hreviewable : Reviewable policy review call plan field) (hrevision : 0 < revision)
    (href : isBoundedText evidenceRef = true)
    (hvalid : (requestedDecision field call.body evidenceRef).validateDecision =
      (requestedDecision field call.body call.body.evidenceRef).validateDecision)
    (hobserved : validatePlanDecision policy.toTextPolicy plan field
        (requestedDecision field call.body evidenceRef) =
      validatePlanDecision policy.toTextPolicy plan field
        (requestedDecision field call.body call.body.evidenceRef)) :
    (∃ clone, validatedClone policy plan planId revision
        (requestedDecision field call.body evidenceRef) = .ok clone) ↔
      MeetsContract policy plan field call.body ∧
        CloneFits policy plan planId revision (requestedDecision field call.body evidenceRef) ∧
        KeepsModelAudit plan field.fieldId := by
  have haccepted := (reviewedPlan_eq_ok hreviewable.1).2
  have hfind := answeredField_eq_ok hreviewable.2
  have hwithin := requestedDecision_withinSchema call.body haccepted hfind href
  have hiff := fun hdecided => clonedPlan_accepted_iff planId haccepted hfind rfl
    (requestedDecision_notModel field call.body evidenceRef) hrevision hwithin hdecided
  rw [hobserved] at hiff
  constructor
  · rintro ⟨clone, hclone⟩
    obtain ⟨_, hdecided, hcloned, _⟩ := validatedClone_eq_ok.mp hclone
    obtain ⟨hok, hfits, hkeeps⟩ := (hiff hdecided).mp hcloned
    exact ⟨⟨hvalid ▸ hdecided, hok⟩, hfits, hkeeps⟩
  · rintro ⟨⟨hdecided, hok⟩, hfits, hkeeps⟩
    rw [← hvalid] at hdecided
    exact ⟨_, validatedClone_eq_ok.mpr ⟨hwithin, hdecided,
      (hiff hdecided).mpr ⟨hok, hfits, hkeeps⟩, rfl⟩⟩

/-- A confirmation that meets the contract of its field is not refused as invalid. -/
theorem confirm_notInvalid (hreviewable : Reviewable policy review call plan field)
    (hmeets : MeetsContract policy plan field call.body)
    (hfits : CallFits policy review call plan field)
    (hkeeps : KeepsModelAudit plan field.fieldId) :
    confirmApplicationAnswer policy review call ≠ .error .answerInvalid := by
  have haccepted := (reviewedPlan_eq_ok hreviewable.1).2
  obtain ⟨preliminary, hpreliminary⟩ := (validatedClone_isOk_iff plan.contract.planId hreviewable
    (revision_pos haccepted) (evidenceRef_bounded call.body) rfl rfl).mpr
    ⟨hmeets, hfits.preliminary, hkeeps⟩
  obtain ⟨clone, hclone⟩ := (validatedClone_isOk_iff call.newPlanId hreviewable
    (Nat.succ_pos (max 1 review.revision)) hfits.reference validateDecision_storedRef
    validatePlanDecision_storedRef).mpr ⟨hmeets, hfits.clone, hkeeps⟩
  intro hrefused
  rcases bind_eq_error.mp hrefused with hfails | ⟨_, hplan, hrefused⟩
  · rw [hreviewable.1] at hfails
    cases hfails
  cases hreviewable.1.symm.trans hplan
  rcases bind_eq_error.mp hrefused with hfails | ⟨_, hanswered, hrefused⟩
  · rw [hreviewable.2] at hfails
    cases hfails
  cases hreviewable.2.symm.trans hanswered
  rcases bind_eq_error.mp hrefused with hfails | ⟨_, _, hrefused⟩
  · rw [hpreliminary] at hfails
    cases hfails
  simp only at hrefused
  split at hrefused
  · cases hrefused
  rcases bind_eq_error.mp hrefused with hfails | ⟨_, _, hrefused⟩
  · rw [← storedRef, hclone] at hfails
    cases hfails
  split at hrefused <;> cases hrefused

/-- A confirmation that takes the last answer of the model away is refused. -/
theorem confirm_invalid (hreviewable : Reviewable policy review call plan field)
    (hlost : ¬KeepsModelAudit plan field.fieldId) :
    confirmApplicationAnswer policy review call = .error .answerInvalid := by
  have haccepted := (reviewedPlan_eq_ok hreviewable.1).2
  have hnone := mt (validatedClone_isOk_iff plan.contract.planId hreviewable
    (revision_pos haccepted) (evidenceRef_bounded call.body) rfl rfl).mp
    (fun hok => hlost hok.2.2)
  apply bind_eq_error.mpr
  refine .inr ⟨plan, hreviewable.1, bind_eq_error.mpr (.inr ⟨field, hreviewable.2, ?_⟩)⟩
  apply bind_eq_error.mpr
  left
  cases hclone : validatedClone policy plan plan.contract.planId
      plan.contract.applicationRevision
      (requestedDecision field call.body call.body.evidenceRef) with
  | ok clone => exact absurd ⟨clone, hclone⟩ hnone
  | error refusal => rw [validatedClone_eq_error hclone]

/-- A confirmation that goes through leaves an accepted clone with exact blockers. -/
theorem confirm_eq_ok (hnext : confirmApplicationAnswer policy review call = .ok next) :
    ∃ plan clone, review.latestFormPlan = some ⟨plan, false⟩ ∧
      next.latestFormPlan = some ⟨clone, false⟩ ∧
      clone.accepted policy.toPlanPolicy = true ∧ BlockersExact plan clone := by
  obtain ⟨plan, hplan, hnext⟩ := bind_eq_ok.mp hnext
  obtain ⟨field, _, hnext⟩ := bind_eq_ok.mp hnext
  obtain ⟨_, _, hnext⟩ := bind_eq_ok.mp hnext
  simp only at hnext
  split at hnext
  · cases hnext
  obtain ⟨clone, hclone, hnext⟩ := bind_eq_ok.mp hnext
  split at hnext
  · cases hnext
  cases hnext
  obtain ⟨_, _, haccepted, rfl⟩ := validatedClone_eq_ok.mp hclone
  exact ⟨plan, _, (reviewedPlan_eq_ok hplan).1, storeClone_latest, haccepted,
    clonedPlan_blockersExact⟩

/-- One call does well exactly when a good answer does not replace the last answer of the
model. -/
theorem confirmedWell_iff :
    ConfirmedWell policy review call ↔ ReplacesSafely policy review call := by
  constructor
  · intro hwell plan field hreviewable hmeets hfits
    by_contra hlost
    exact hwell.total plan field hreviewable hmeets hfits (confirm_invalid hreviewable hlost)
  · intro hsafe
    constructor
    · intro plan field hreviewable hmeets hfits
      exact confirm_notInvalid hreviewable hmeets hfits
        (hsafe plan field hreviewable hmeets hfits)
    · exact fun next hnext => confirm_eq_ok hnext

end Confirm

/-! ## Runs -/

/-- The active plan is valid and has every blocker of the first one that is no field's. -/
def ReviewSound (policy : PlanningPolicy) (start : FormPlanV1) (review : AnswerReview) : Prop :=
  ∃ plan, review.latestFormPlan = some ⟨plan, false⟩ ∧
    plan.accepted policy.toPlanPolicy = true ∧
    ∀ blocker ∈ start.contract.blockers, blocker ∉ fieldLevelAnswerBlockers →
      blocker ∈ plan.contract.blockers

/-- Every call of the run does well, and every state of it is sound. -/
structure RunWell (policy : PlanningPolicy) (start : FormPlanV1) (review : AnswerReview)
    (calls : List ConfirmCall) : Prop where
  eachCall : ∀ before call after, calls = before ++ call :: after →
    ConfirmedWell policy (performConfirms policy review before) call
  eachState : ∀ before after, calls = before ++ after →
    ReviewSound policy start (performConfirms policy review before)

theorem performConfirm_sound {call : ConfirmCall} (hsound : ReviewSound policy start review) :
    ReviewSound policy start (performConfirm policy review call) := by
  unfold performConfirm
  split
  next next hnext =>
    obtain ⟨plan, hlatest, _, hkept⟩ := hsound
    obtain ⟨confirmed, clone, hconfirmed, hclone, haccepted, hexact⟩ := confirm_eq_ok hnext
    cases hlatest.symm.trans hconfirmed
    exact ⟨clone, hclone, haccepted, fun blocker hblocker hglobal =>
      hexact.kept blocker (hkept blocker hblocker hglobal) hglobal⟩
  · exact hsound

theorem performConfirms_sound (calls : List ConfirmCall)
    (hsound : ReviewSound policy start review) :
    ReviewSound policy start (performConfirms policy review calls) := by
  induction calls generalizing review with
  | nil => exact hsound
  | cons call rest ih => exact ih (performConfirm_sound hsound)

/-- From a valid plan, every call of a run does well exactly when none replaces the last
answer of the model with a good one. -/
theorem confirmations_well_iff {start : FormPlanV1} {review : AnswerReview}
    (hstart : review.latestFormPlan = some ⟨start, false⟩)
    (haccepted : start.accepted policy.toPlanPolicy = true) (calls : List ConfirmCall) :
    RunWell policy start review calls ↔
      ∀ before call after, calls = before ++ call :: after →
        ReplacesSafely policy (performConfirms policy review before) call := by
  constructor
  · intro hrun before call after hcalls
    exact confirmedWell_iff.mp (hrun.eachCall before call after hcalls)
  · intro hsafe
    constructor
    · intro before call after hcalls
      exact confirmedWell_iff.mpr (hsafe before call after hcalls)
    · intro before _ _
      exact performConfirms_sound before
        ⟨start, hstart, haccepted, fun _ hblocker _ => hblocker⟩

/-! ## Replacing the only answer of the model -/

def reviewPolicy : PlanningPolicy :=
  { samplePlanning with isQualifiedLocalModelIdentity := fun _ _ _ => true }

def reviewContract (audit : Option String → Option String) (usesLocalLlm : Bool) :
    Domain.FormPlanV1 :=
  { sampleContract with
    formFingerprint := sampleDigest
    selectedCvHash := sampleDigest
    attachedCvHash := sampleDigest
    usesLocalLlm
    llmPromptVersion := audit (some formResolutionPromptVersion)
    llmModelProvider := audit (some qualifiedLocalLlmProvider)
    llmModelName := audit (some qualifiedLocalLlmModel)
    llmModelDigest := audit (some ("sha256:" ++ sampleDigest)) }

def languageField : FormFieldV1 where
  fieldId := "language"
  canonicalName := none
  label := "Primary programming language"
  fieldType := .text
  required := true
  position := 0
  options := []
  constraints := noConstraints
  sensitiveCategory := none

def languageAnswer (provenance : AnswerProvenance) (evidenceRef : String) : AnswerDecisionV1 where
  fieldId := "language"
  disposition := .resolved
  provenance
  value := some (.text "Python")
  confidence := some 1
  evidenceRefs := [evidenceRef]
  reasonCode := none

def modelPlan : FormPlanV1 where
  contract := reviewContract id true
  fields := [languageField]
  disclosures := []
  decisions := [languageAnswer .localLlm "profile:user_confirmed:primary_language"]
  locale := "en"
  localLlm := rfl

def profilePlan : FormPlanV1 where
  contract := reviewContract (fun _ => none) false
  fields := [languageField]
  disclosures := []
  decisions := [languageAnswer .userConfirmed "profile:user_confirmed:primary_language"]
  locale := "en"
  localLlm := rfl

def reviewOf (plan : FormPlanV1) : AnswerReview where
  revision := 1
  plans := [⟨plan, false⟩]
  approvals := []
  nextApprovalId := 1

def confirmLanguage : ConfirmCall where
  fieldId := "language"
  body :=
    { planId := "plan"
      applicationRevision := 1
      value := some (.text "Lean")
      confirmBlank := false
      reusable := false
      evidenceReference := "operator_confirmation"
      blank := nofun
      answered := nofun
      referenced := by decide +kernel }
  locked := true
  now := 0
  newPlanId := "clone"

theorem modelPlan_accepted : modelPlan.accepted reviewPolicy.toPlanPolicy = true := by
  decide +kernel

theorem profilePlan_accepted : profilePlan.accepted reviewPolicy.toPlanPolicy = true := by
  decide +kernel

theorem confirmations_well_sample :
    RunWell reviewPolicy profilePlan (reviewOf profilePlan) [confirmLanguage] := by
  apply (confirmations_well_iff rfl profilePlan_accepted [confirmLanguage]).mpr
  intro before call after hcalls plan field hreviewable _ _ huses
  obtain ⟨rfl, hrest⟩ | ⟨_, rfl, hrest⟩ := List.cons_eq_append_iff.mp hcalls
  · cases hrest
    cases (reviewedPlan_eq_ok hreviewable.1).1
    cases huses
  · simp at hrest

/-- The operator's answer takes the place of the only answer of the model, and the plan
keeps the identity of the model. -/
theorem only_model_answer_kept :
    (reviewOf modelPlan).latestFormPlan = some ⟨modelPlan, false⟩ ∧
      modelPlan.accepted reviewPolicy.toPlanPolicy = true ∧
      ¬RunWell reviewPolicy modelPlan (reviewOf modelPlan) [confirmLanguage] := by
  refine ⟨rfl, modelPlan_accepted, ?_⟩
  intro hrun
  have hreviewable : Reviewable reviewPolicy (reviewOf modelPlan) confirmLanguage modelPlan
      languageField := by
    constructor <;> decide +kernel
  have hmeets : MeetsContract reviewPolicy modelPlan languageField confirmLanguage.body := by
    constructor <;> decide +kernel
  have hfits : CallFits reviewPolicy (reviewOf modelPlan) confirmLanguage modelPlan
      languageField := by
    refine ⟨⟨?_, ?_⟩, ⟨?_, ?_⟩, ?_⟩ <;> decide +kernel
  have hlost : ¬KeepsModelAudit modelPlan languageField.fieldId := by
    intro hkeeps
    obtain ⟨decision, hdecision, _, hother⟩ := hkeeps rfl
    rw [List.mem_singleton.mp hdecision] at hother
    exact hother rfl
  exact (hrun.eachCall [] confirmLanguage [] rfl).total modelPlan languageField hreviewable hmeets
    hfits (confirm_invalid hreviewable hlost)

end JobApplyAgent.Forms
