import JobApplyAgent.Forms.PlanValidity

/-!
# Inspected forms

The plan that an inspection assembles from the observed form and the planned answers,
and when the validators accept it.
-/

namespace JobApplyAgent.Forms

open Domain Library

/-! ## The assembly -/

/-- `AnswerPolicyContext.__post_init__`, without the digest of the fact catalog. -/
def AnswerPolicyContext.isBounded (context : AnswerPolicyContext) : Bool :=
  decide (1 ≤ context.profileVersion) && isSha256Digest context.selectedCvHash
    && isSha256Digest context.formFingerprint && FormPlanV1.isCanonicalLocale context.locale
    && context.attachedCvId.all (isTextWithin 255) && context.attachedCvHash.all isSha256Digest
    && [(context.selectedCvId, 255), (context.adapterName, 64), (context.adapterVersion, 32),
      (context.selectorVersion, 64), (context.locale, 32), (context.policyVersion, 64)].all
        fun (value, limit) => isTextWithin limit value

/-- An observed form with its context and the bindings that its plan gets.  The fields have
passed their own validators, their ids are distinct, and the form is bounded. -/
structure Inspection (policy : PlanningPolicy) where
  fields : List FormFieldV1
  context : AnswerPolicyContext
  attachedCvId : String
  attachedCvHash : String
  planId : String
  applicationId : ℕ
  applicationRevision : ℕ
  now : Timestamp
  observed : ∀ field ∈ fields, field.withinSchema = true ∧ field.Valid policy.toTextPolicy
  distinct : (fields.map FormFieldV1.fieldId).Nodup
  bounded : observedFormFieldsAreBounded policy fields = true
  contextBounded : context.isBounded = true
  attachedId : context.attachedCvId = some attachedCvId
  attachedHash : context.attachedCvHash = some attachedCvHash
  identified : 0 < applicationId ∧ 0 < applicationRevision

/-- The blockers of the policy, and that of an attachment which is not verified, each once. -/
def inspectionBlockers (result : AnswerPolicyResult) (attachmentVerified : Bool) :
    List ReasonCode :=
  if attachmentVerified then result.blockers.eraseDups
  else (result.blockers.eraseDups ++ [ReasonCode.attachmentUnverified]).eraseDups

section Assembly

variable (inspection : Inspection policy)

/-- The plan that `inspect` returns. -/
def Inspection.assembledPlan (result : AnswerPolicyResult) : FormPlanV1 where
  contract :=
    { planId := inspection.planId
      applicationId := inspection.applicationId
      applicationRevision := inspection.applicationRevision
      adapterName := inspection.context.adapterName
      adapterVersion := inspection.context.adapterVersion
      selectorVersion := inspection.context.selectorVersion
      formFingerprint := inspection.context.formFingerprint
      selectedCvId := inspection.context.selectedCvId
      selectedCvHash := inspection.context.selectedCvHash
      attachedCvId := inspection.attachedCvId
      attachedCvHash := inspection.attachedCvHash
      attachmentVerified := inspection.context.attachmentVerified
      profileVersion := inspection.context.profileVersion
      sessionVerifiedAt := inspection.now
      createdAt := inspection.now
      expiresAt := inspection.now + 30 * minute
      blockers := inspectionBlockers result inspection.context.attachmentVerified
      usesLocalLlm := result.decisions.any fun decision => decision.provenance == .localLlm
      answerPolicyVersion := inspection.context.policyVersion
      llmPromptVersion := result.promptVersion
      llmModelProvider := result.modelProvider
      llmModelName := result.modelName
      llmModelDigest := result.modelDigest }
  fields := inspection.fields
  disclosures := []
  decisions := result.decisions
  locale := inspection.context.locale
  localLlm := rfl

def turnsOf (client : Option (ℕ → LlmTurn)) : ℕ → Option LlmTurn :=
  fun index => client.map (· index)

/-- The identity under which the model answers the form. -/
def Inspection.audit (rows : List OperatorApprovedAnswer) (client : Option (ℕ → LlmTurn)) :
    Option ModelAudit :=
  planAudit policy rows inspection.context (turnsOf client) inspection.fields.zipIdx

def ModelAudit.Qualified (policy : PlanPolicy) (audit : ModelAudit) : Prop :=
  audit.provider = qualifiedLocalLlmProvider ∧ audit.model = qualifiedLocalLlmModel ∧
    policy.isQualifiedLocalModelIdentity (some audit.provider) (some audit.model)
      (some audit.digest) = true

/-- The facts of every field fit it, the model that answers is the qualified one, and the form
with its answers is not too large. -/
structure InspectionFits (rows : List OperatorApprovedAnswer) (client : Option (ℕ → LlmTurn))
    (inspection : Inspection policy) : Prop where
  fields : ∀ (index : ℕ) field, inspection.fields[index]? = some field →
    FieldFits policy rows inspection.context (inspection.audit rows client)
      (client.map (· index)) field
  qualified : ∀ audit, inspection.audit rows client = some audit →
    audit.Qualified policy.toPlanPolicy
  size : ∀ outcomes, fieldOutcomes policy rows inspection.context (inspection.audit rows client)
      (turnsOf client) inspection.fields.zipIdx = .ok outcomes →
    policy.serializedSize
      (inspection.assembledPlan (partsResult outcomes (inspection.audit rows client))) ≤
        maxFormPlanBytes

end Assembly

variable {inspection : Inspection policy}

theorem nodup_eraseDups {α : Type} [DecidableEq α] (items : List α) : items.eraseDups.Nodup := by
  induction hlength : items.length using Nat.strong_induction_on generalizing items with
  | _ length ih =>
    cases items with
    | nil => exact List.nodup_nil
    | cons item rest =>
      rw [List.eraseDups_cons, List.nodup_cons]
      constructor
      · rw [List.mem_eraseDups]
        simp
      · refine ih _ ?_ _ rfl
        have hfilter := List.length_filter_le (fun other => !other == item) rest
        rw [← hlength, List.length_cons]
        omega

theorem inspectionBlockers_nodup (result : AnswerPolicyResult) (attachmentVerified : Bool) :
    (inspectionBlockers result attachmentVerified).Nodup := by
  unfold inspectionBlockers
  split <;> exact nodup_eraseDups _

theorem mem_inspectionBlockers :
    reason ∈ inspectionBlockers result attachmentVerified ↔
      reason ∈ result.blockers ∨ attachmentVerified = false ∧ reason = .attachmentUnverified := by
  cases attachmentVerified <;> simp [inspectionBlockers]

theorem Inspection.bindsAttachment (result : AnswerPolicyResult) :
    BindsAttachment inspection.context (inspection.assembledPlan result) :=
  ⟨rfl, rfl, rfl, inspection.attachedId, inspection.attachedHash⟩

/-! ## What the planned fields make -/

section Parts

theorem mem_zipIdx_fields :
    item ∈ inspection.fields.zipIdx ↔ inspection.fields[item.2]? = some item.1 := by
  rw [List.mem_zipIdx_iff_getElem?]

section

variable (houtcomes : fieldOutcomes policy rows inspection.context (inspection.audit rows client)
  (turnsOf client) inspection.fields.zipIdx = .ok outcomes)
include houtcomes

theorem outcome_shape (houtcome : outcome ∈ outcomes) :
    ∃ field ∈ inspection.fields, OutcomeShape field outcome := by
  obtain ⟨item, hitem, hstep⟩ := exists_item_of_mapM houtcomes houtcome
  have hfield := List.mem_of_getElem? (mem_zipIdx_fields.mp hitem)
  exact ⟨item.1, hfield, fieldOutcome_shape (inspection.observed item.1 hfield).1 hstep⟩

theorem planFields_eq_parts :
    planFields policy rows inspection.context client inspection.fields =
      .ok (partsResult outcomes (inspection.audit rows client)) :=
  (planFields_eq_ok_iff inspection.bounded).mpr ⟨outcomes, houtcomes, rfl⟩

theorem parts_reasons (hreason : reason ∈ inspectionBlockers
      (partsResult outcomes (inspection.audit rows client))
      inspection.context.attachmentVerified) :
    reason ∈ planningReasons := by
  rcases mem_inspectionBlockers.mp hreason with hplanned | ⟨_, rfl⟩
  · rw [partsResult, planResult, mem_sortedReasons, List.mem_flatMap] at hplanned
    obtain ⟨outcome, houtcome, hblocker⟩ := hplanned
    obtain ⟨_, _, hshape⟩ := outcome_shape houtcomes houtcome
    exact hshape.blockers reason hblocker
  · decide

end

theorem mem_assembled_decisions {decision : AnswerDecisionV1} {audit : Option ModelAudit} :
    decision ∈ (inspection.assembledPlan (partsResult outcomes audit)).decisions ↔
      ∃ outcome ∈ outcomes, outcome.decision = decision := by
  simp [Inspection.assembledPlan, partsResult, planResult]

theorem parts_audited
    (houtcomes : fieldOutcomes policy rows inspection.context (inspection.audit rows client)
      (turnsOf client) inspection.fields.zipIdx = .ok outcomes) :
    (inspection.assembledPlan (partsResult outcomes (inspection.audit rows client))).usesLocalLlm =
      (inspection.audit rows client).isSome := by
  obtain ⟨final, hresult, hplanned⟩ := planFields_planned (planFields_eq_parts houtcomes)
  have hmodel := hplanned.localLlm_iff
  have haudit : final.modelAudit.isSome = (inspection.audit rows client).isSome := by
    have hprompt := congrArg AnswerPolicyResult.promptVersion hresult
    simp only [partsResult, planResult] at hprompt
    cases hfinal : final.modelAudit <;> cases hown : inspection.audit rows client <;>
      simp_all
  rw [← haudit, Bool.eq_iff_iff, hmodel]
  simp [FormPlanV1.usesLocalLlm, Inspection.assembledPlan]

/-- An assembled plan has one decision for each field. -/
theorem assembled_shapeValid {audit : Option ModelAudit} :
    FormShapeValid policy.toPlanPolicy
      (inspection.assembledPlan (partsResult outcomes audit)) where
  fields := fun field hfield => (inspection.observed field hfield).2
  disclosures := nofun
  locale := by
    have hcontext := inspection.contextBounded
    simp only [AnswerPolicyContext.isBounded, Bool.and_eq_true] at hcontext
    exact hcontext.1.1.1.2
  ordered := by
    have hminute : (0 : Timestamp) < 30 * minute := by decide
    exact Int.lt_add_of_pos_right _ hminute
  lifetime := by
    change inspection.now + 30 * minute - inspection.now ≤ 30 * minute
    rw [add_sub_cancel_left]
  wholeAudit := by
    cases audit <;> rfl
  fieldIds := inspection.distinct
  disclosureIds := List.nodup_nil
  positions := List.nodup_nil
  kinds := rfl
  acknowledgements := rfl

theorem isTextWithin_mono (hwithin : isTextWithin bound text = true) (hbound : bound ≤ total) :
    isTextWithin total text = true := by
  obtain ⟨hstripped, hne, hlength⟩ := isTextWithin_iff.mp hwithin
  exact isTextWithin_iff.mpr ⟨hstripped, hne, hlength.trans hbound⟩

theorem assembled_bindings {audit : Option ModelAudit}
    (hqualified : ∀ known, audit = some known → known.Qualified policy.toPlanPolicy ∧
      isModelDigest known.digest = true) :
    (inspection.assembledPlan (partsResult outcomes audit)).bindingsWithinSchema = true := by
  have hcontext := inspection.contextBounded
  simp only [AnswerPolicyContext.isBounded, Bool.and_eq_true, decide_eq_true_eq, List.all_cons,
    List.all_nil, inspection.attachedId, inspection.attachedHash, Option.all_some] at hcontext
  obtain ⟨⟨⟨⟨⟨⟨hversion, hcvHash⟩, hform⟩, _⟩, hattachedId⟩, hattachedHash⟩, hcv, hadapter,
    hadapterVersion, hselector, hlocale, hpolicy, _⟩ := hcontext
  have hwithin : ∀ {limit : ℕ} {text : String}, isTextWithin limit text = true →
      limit ≤ maxBoundedTextLength → isBoundedText text = true :=
    fun htext hlimit => isTextWithin_mono htext hlimit
  simp only [FormPlanV1.bindingsWithinSchema, Inspection.assembledPlan, List.all_cons,
    List.all_nil, Bool.and_eq_true, decide_eq_true_eq]
  refine ⟨⟨⟨⟨⟨inspection.identified.1, inspection.identified.2, hversion, trivial⟩,
    hwithin hadapter (by decide), hwithin hadapterVersion (by decide),
    hwithin hselector (by decide), hwithin hcv (by decide), hwithin hattachedId (by decide),
    hwithin hlocale (by decide), hwithin hpolicy (by decide), trivial⟩,
    hform, hcvHash, hattachedHash, trivial⟩, ?_⟩, ?_⟩
  · cases audit with
    | none => exact ⟨rfl, rfl, rfl, trivial⟩
    | some known =>
      obtain ⟨⟨hprovider, hmodel, _⟩, _⟩ := hqualified known rfl
      simp only [partsResult, planResult, Option.map_some, Option.all_some, hprovider, hmodel]
      decide
  · cases audit with
    | none => rfl
    | some known => exact (hqualified known rfl).2

theorem planAudit_digest (haudit : planAudit policy rows context turns items = some known) :
    isModelDigest known.digest = true := by
  obtain ⟨item, _, hoffer⟩ := List.exists_of_findSome?_eq_some haudit
  unfold modelOffer at hoffer
  split at hoffer
  · split at hoffer
    · split at hoffer
      · obtain ⟨_, _, hcandidate⟩ := Option.bind_eq_some_iff.mp hoffer
        unfold candidateAudit at hcandidate
        split at hcandidate
        · obtain ⟨hdigest, hsame⟩ := Option.ite_none_right_eq_some.mp hcandidate
          cases hsame
          exact hdigest
        · cases hcandidate
      · cases hoffer
    · cases hoffer
  · cases hoffer

/-- A plan with no or a qualified model is within the schema. -/
theorem assembled_withinSchema
    (houtcomes : fieldOutcomes policy rows inspection.context (inspection.audit rows client)
      (turnsOf client) inspection.fields.zipIdx = .ok outcomes)
    (hqualified : ∀ known, inspection.audit rows client = some known →
      known.Qualified policy.toPlanPolicy) :
    (inspection.assembledPlan
      (partsResult outcomes (inspection.audit rows client))).withinSchema = true := by
  have hbindings : (inspection.assembledPlan
      (partsResult outcomes (inspection.audit rows client))).bindingsWithinSchema = true :=
    assembled_bindings fun known hknown => ⟨hqualified known hknown, planAudit_digest hknown⟩
  have hcount : inspection.fields.length ≤ maxFormFields := by
    have hbounded := inspection.bounded
    rw [observedFormFieldsAreBounded, Bool.and_eq_true, decide_eq_true_eq] at hbounded
    exact hbounded.1
  have hdecisions : outcomes.length = inspection.fields.length := by
    have hlength := (mapM_eq_ok.mp houtcomes).length_eq
    rw [List.length_zipIdx] at hlength
    exact hlength.symm
  have hblockers : (inspectionBlockers (partsResult outcomes (inspection.audit rows client))
      inspection.context.attachmentVerified).length ≤ maxFormBlockers := by
    have hsubset := List.subperm_of_subset (inspectionBlockers_nodup _ _)
      fun reason hreason => parts_reasons houtcomes hreason
    exact hsubset.length_le.trans (by decide)
  simp only [FormPlanV1.withinSchema, hbindings, Bool.true_and, Bool.and_eq_true,
    decide_eq_true_eq, List.all_eq_true]
  refine ⟨⟨⟨⟨⟨⟨hcount, fun field hfield => (inspection.observed field hfield).1⟩, ?_⟩, nofun⟩,
    ?_⟩, ?_⟩, hblockers⟩
  · exact Nat.zero_le _
  · change ((outcomes.map FieldOutcome.decision).length ≤ maxFormFields)
    rw [List.length_map, hdecisions]
    exact hcount
  · intro decision hdecision
    obtain ⟨outcome, houtcome, rfl⟩ := mem_assembled_decisions.mp hdecision
    obtain ⟨_, _, hshape⟩ := outcome_shape houtcomes houtcome
    exact hshape.schema

theorem assembled_fieldById {audit : Option ModelAudit}
    (hfield : field ∈ inspection.fields) :
    (inspection.assembledPlan (partsResult outcomes audit)).fieldById field.fieldId =
      some field := by
  obtain ⟨found, hfound⟩ : ∃ found, (inspection.assembledPlan
      (partsResult outcomes audit)).fieldById field.fieldId = some found := by
    apply Option.isSome_iff_exists.mp
    rw [FormPlanV1.fieldById, List.find?_isSome]
    exact ⟨field, hfield, by simp⟩
  have hsame : found.fieldId = field.fieldId := by
    simpa using List.find?_some hfound
  rw [hfound, List.inj_on_of_nodup_map inspection.distinct (List.mem_of_find?_eq_some hfound)
    hfield hsame]

section

variable (houtcomes : fieldOutcomes policy rows inspection.context (inspection.audit rows client)
  (turnsOf client) inspection.fields.zipIdx = .ok outcomes)
include houtcomes

/-- The decisions of the fields are valid exactly when the facts of the fields fit. -/
theorem assembled_observed_iff :
    let plan := inspection.assembledPlan (partsResult outcomes (inspection.audit rows client))
    (∀ decision ∈ plan.decisions, ∃ field, plan.fieldById decision.fieldId = some field ∧
        validatePlanDecision policy.toTextPolicy plan field decision = .ok ()) ↔
      ∀ item ∈ inspection.fields.zipIdx, FieldFits policy rows inspection.context
        (inspection.audit rows client) (turnsOf client item.2) item.1 := by
  intro plan
  have hfits : ∀ item ∈ inspection.fields.zipIdx, ∀ outcome,
      fieldOutcome policy rows inspection.context (inspection.audit rows client)
        (turnsOf client item.2) item.1 = .ok outcome →
      outcome.decision.fieldId = item.1.fieldId ∧ item.1 ∈ inspection.fields ∧
        (FieldFits policy rows inspection.context (inspection.audit rows client)
            (turnsOf client item.2) item.1 ↔
          validatePlanDecision policy.toTextPolicy plan item.1 outcome.decision = .ok ()) := by
    intro item hitem outcome houtcome
    have hfield := List.mem_of_getElem? (mem_zipIdx_fields.mp hitem)
    have hschema := (inspection.observed item.1 hfield).1
    refine ⟨(fieldOutcome_shape hschema houtcome).fieldId, hfield, ?_⟩
    rw [fieldFits_iff (inspection.bindsAttachment
      (partsResult outcomes (inspection.audit rows client))) hschema]
    simp [houtcome, plan]
  constructor
  · intro hobserved item hitem
    obtain ⟨outcome, hmem, hstep⟩ := exists_result_of_mapM houtcomes hitem
    obtain ⟨hfieldId, hfield, hiff⟩ := hfits item hitem outcome hstep
    obtain ⟨found, hfound, hvalid⟩ := hobserved outcome.decision
      (mem_assembled_decisions.mpr ⟨outcome, hmem, rfl⟩)
    rw [hfieldId, assembled_fieldById hfield] at hfound
    cases hfound
    exact hiff.mpr hvalid
  · intro hall decision hdecision
    obtain ⟨outcome, hmem, rfl⟩ := mem_assembled_decisions.mp hdecision
    obtain ⟨item, hitem, hstep⟩ := exists_item_of_mapM houtcomes hmem
    obtain ⟨hfieldId, hfield, hiff⟩ := hfits item hitem outcome hstep
    refine ⟨item.1, ?_, hiff.mp (hall item hitem)⟩
    rw [hfieldId]
    exact assembled_fieldById hfield

theorem assembled_decisionIds :
    ((inspection.assembledPlan (partsResult outcomes (inspection.audit rows client))).decisions.map
      AnswerDecisionV1.fieldId).Nodup := by
  have horder := (planFields_trusted (planFields_eq_parts houtcomes)).inOrder
  rw [Inspection.assembledPlan, horder]
  exact inspection.distinct

/-- A required field without an answer blocks the plan. -/
theorem assembled_unresolved (hopen : (inspection.assembledPlan
      (partsResult outcomes (inspection.audit rows client))).unresolvedRequired ≠ []) :
    .requiredFieldUnknown ∈ (inspection.assembledPlan
      (partsResult outcomes (inspection.audit rows client))).contract.blockers := by
  obtain ⟨field, hfield⟩ := List.exists_mem_of_ne_nil _ hopen
  rw [FormPlanV1.unresolvedRequired, List.mem_filter, Bool.and_eq_true] at hfield
  obtain ⟨hobserved, hrequired, hnone⟩ := hfield
  obtain ⟨index, hindex⟩ := List.mem_iff_getElem?.mp hobserved
  obtain ⟨outcome, hmem, hstep⟩ := exists_result_of_mapM houtcomes
    (mem_zipIdx_fields.mpr hindex : (field, index) ∈ inspection.fields.zipIdx)
  have hshape := fieldOutcome_shape (inspection.observed field hobserved).1 hstep
  apply mem_inspectionBlockers.mpr
  left
  rw [partsResult, planResult, mem_sortedReasons, List.mem_flatMap]
  refine ⟨outcome, hmem, hshape.unanswered ?_ hrequired⟩
  intro hresolved
  have hdecided := assembled_decisionIds houtcomes
  cases hfind : (inspection.assembledPlan (partsResult outcomes
      (inspection.audit rows client))).decisionById field.fieldId with
  | none =>
    have hother := List.find?_eq_none.mp hfind outcome.decision
      (mem_assembled_decisions.mpr ⟨outcome, hmem, rfl⟩)
    simp [hshape.fieldId] at hother
  | some found =>
    have hsame : found.fieldId = field.fieldId := by
      simpa using List.find?_some hfind
    have hfound : found = outcome.decision :=
      List.inj_on_of_nodup_map hdecided (List.mem_of_find?_eq_some hfind)
        (mem_assembled_decisions.mpr ⟨outcome, hmem, rfl⟩) (hsame.trans hshape.fieldId.symm)
    simp [hfind, hfound, hresolved] at hnone

/-- The answers are valid exactly where every outcome is. -/
theorem assembled_answersValid_iff :
    let plan := inspection.assembledPlan (partsResult outcomes (inspection.audit rows client))
    AnswersValid policy.toPlanPolicy plan ↔
      (∀ item ∈ inspection.fields.zipIdx, FieldFits policy rows inspection.context
        (inspection.audit rows client) (turnsOf client item.2) item.1) ∧
      (∀ known, inspection.audit rows client = some known →
        known.Qualified policy.toPlanPolicy) ∧
      policy.serializedSize plan ≤ maxFormPlanBytes := by
  intro plan
  have hobserved := assembled_observed_iff houtcomes
  have haudited := parts_audited houtcomes
  constructor
  · intro hvalid
    refine ⟨hobserved.mp hvalid.observed, ?_, hvalid.size⟩
    intro known hknown
    have hqualified := hvalid.qualified (by rw [haudited, hknown]; rfl)
    simpa [plan, Inspection.assembledPlan, partsResult, planResult, hknown,
      ModelAudit.Qualified] using hqualified.2
  · rintro ⟨hfits, hqualified, hsize⟩
    refine ⟨hsize, assembled_decisionIds houtcomes, ?_, hobserved.mpr hfits,
      inspectionBlockers_nodup _ _, ?_, ?_, assembled_unresolved houtcomes⟩
    · intro decision hdecision
      obtain ⟨outcome, houtcome, rfl⟩ := mem_assembled_decisions.mp hdecision
      obtain ⟨_, _, hshape⟩ := outcome_shape houtcomes houtcome
      exact hshape.valid
    · rw [haudited]
      cases haudit : inspection.audit rows client <;>
        simp [plan, haudit, FormPlanV1.modelAudit, Inspection.assembledPlan, partsResult,
          planResult]
    · rw [haudited]
      intro hsome
      obtain ⟨known, hknown⟩ := Option.isSome_iff_exists.mp hsome
      have hmodel := hqualified known hknown
      simpa [plan, Inspection.assembledPlan, partsResult, planResult, hknown,
        ModelAudit.Qualified] using hmodel

end

end Parts

/-- Planning raises nothing and the assembled plan is accepted exactly when the facts of every
field fit it, the model that answers is the qualified one and the plan is not too large. -/
theorem inspection_accepted_iff (policy : PlanningPolicy) (inspection : Inspection policy)
    (rows : List OperatorApprovedAnswer) (client : Option (ℕ → LlmTurn)) :
    (∃ result, planFields policy rows inspection.context client inspection.fields = .ok result ∧
        (inspection.assembledPlan result).accepted policy.toPlanPolicy = true) ↔
      InspectionFits rows client inspection := by
  have hitems : (∀ item ∈ inspection.fields.zipIdx, FieldFits policy rows inspection.context
        (inspection.audit rows client) (turnsOf client item.2) item.1) ↔
      ∀ (index : ℕ) field, inspection.fields[index]? = some field →
        FieldFits policy rows inspection.context (inspection.audit rows client)
          (client.map (· index)) field := by
    constructor
    · exact fun hall index field hfield => hall (field, index) (mem_zipIdx_fields.mpr hfield)
    · exact fun hall item hitem => hall item.2 item.1 (mem_zipIdx_fields.mp hitem)
  constructor
  · rintro ⟨result, hplan, haccepted⟩
    obtain ⟨outcomes, houtcomes, rfl⟩ := (planFields_eq_ok_iff inspection.bounded).mp hplan
    obtain ⟨_, _, hvalid⟩ := accepted_iff.mp haccepted
    obtain ⟨hfits, hqualified, hsize⟩ := (assembled_answersValid_iff houtcomes).mp hvalid
    refine ⟨hitems.mp hfits, hqualified, ?_⟩
    intro found hfound
    cases Except.ok.inj (houtcomes.symm.trans hfound)
    exact hsize
  · intro hfits
    have hall := hitems.mpr hfits.fields
    obtain ⟨outcomes, houtcomes⟩ : ∃ outcomes, fieldOutcomes policy rows inspection.context
        (inspection.audit rows client) (turnsOf client) inspection.fields.zipIdx =
          .ok outcomes := by
      apply mapM_succeeds_iff.mpr
      intro item hitem
      have hfield := List.mem_of_getElem? (mem_zipIdx_fields.mp hitem)
      obtain ⟨outcome, houtcome, _⟩ := (fieldFits_iff (inspection.bindsAttachment
        (partsResult [] none)) (inspection.observed item.1 hfield).1).mp (hall item hitem)
      exact ⟨outcome, houtcome⟩
    refine ⟨_, planFields_eq_parts houtcomes, ?_⟩
    exact accepted_iff.mpr ⟨assembled_withinSchema houtcomes hfits.qualified, assembled_shapeValid,
      (assembled_answersValid_iff houtcomes).mpr ⟨hall, hfits.qualified,
        hfits.size outcomes houtcomes⟩⟩

/-! ## A fact that is too long for its field -/

def skillsField : FormFieldV1 where
  fieldId := "skills"
  canonicalName := some "skills"
  label := "skills"
  fieldType := .text
  required := true
  position := 0
  options := []
  constraints := { noConstraints with maxLength := some 3 }
  sensitiveCategory := none

def skillsInspection : Inspection samplePlanning where
  fields := [skillsField]
  context := { uploadContext with
    profile := { sampleProfile with userConfirmed := [("skills", "Python")] } }
  attachedCvId := "cv"
  attachedCvHash := sampleDigest
  planId := "plan"
  applicationId := 1
  applicationRevision := 1
  now := 0
  observed := by
    intro field hfield
    rw [List.mem_singleton.mp hfield]
    exact ⟨by decide +kernel, by decide +kernel, by decide +kernel⟩
  distinct := by decide
  bounded := by decide
  contextBounded := by decide +kernel
  attachedId := rfl
  attachedHash := rfl
  identified := by decide

/-- The fact is planned as the answer, and the validators refuse the whole plan. -/
theorem long_fact_refused :
    (planFields samplePlanning [] skillsInspection.context none skillsInspection.fields).isOk =
        true ∧
      ¬∃ result, planFields samplePlanning [] skillsInspection.context none
          skillsInspection.fields = .ok result ∧
        (skillsInspection.assembledPlan result).accepted samplePlanning.toPlanPolicy = true := by
  have hplan : ∃ result, planFields samplePlanning [] skillsInspection.context none
      skillsInspection.fields = .ok result ∧
      (skillsInspection.assembledPlan result).accepted samplePlanning.toPlanPolicy = false := by
    refine ⟨⟨[factDecision skillsField ⟨.userConfirmed, .text "Python",
      "profile:user_confirmed:skills", 1, .ok true⟩ (.text "Python")
      "profile:user_confirmed:skills"], [], none, none, none, none⟩, ?_, ?_⟩
    · decide +kernel
    · decide +kernel
  obtain ⟨result, hresult, hrefused⟩ := hplan
  rw [hresult]
  refine ⟨rfl, ?_⟩
  rintro ⟨found, hfound, haccepted⟩
  cases hfound
  rw [hrefused] at haccepted
  cases haccepted

end JobApplyAgent.Forms
