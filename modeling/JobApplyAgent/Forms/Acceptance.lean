import JobApplyAgent.Forms.Coercion
import JobApplyAgent.Forms.Safety
import JobApplyAgent.Library.Blanks

/-!
# Accepted plans

The bounds of the schema, and what it takes for the validators to accept a plan.  A
coerced value always has visible text and lies among the enabled options, but nothing holds it
to the constraints of the field.
-/

namespace JobApplyAgent.Forms

open Domain Library

/-! ## The schema -/

def maxLongTextLength : ℕ := 2000

def maxFormDisclosures : ℕ := 32

def maxFormOptions : ℕ := 200

def maxAcceptedFileTypes : ℕ := 32

def maxFormBlockers : ℕ := 32

/-- A text that validation keeps as it is, not empty and of bounded length. -/
def isTextWithin (bound : ℕ) (text : String) : Bool :=
  decide (strip text = text.toList) && text != "" && decide (text.length ≤ bound)

def isBoundedText : String → Bool :=
  isTextWithin maxBoundedTextLength

def isLongBoundedText : String → Bool :=
  isTextWithin maxLongTextLength

def isHexDigit (character : Char) : Bool :=
  character.isDigit || (decide ('a' ≤ character) && decide (character ≤ 'f'))

def isSha256Digest (text : String) : Bool :=
  text.length == 64 && text.toList.all isHexDigit

/-- `sha256:` and a digest. -/
def isModelDigest (text : String) : Bool :=
  "sha256:".toList.isPrefixOf text.toList && isSha256Digest (String.ofList (text.toList.drop 7))

def FormOptionV1.withinSchema (option : FormOptionV1) : Bool :=
  option.optionId.all isBoundedText && isBoundedText option.value
    && isLongBoundedText option.label

def FormFieldConstraintsV1.withinSchema (constraints : FormFieldConstraintsV1) : Bool :=
  constraints.pattern.all isBoundedText
    && decide (constraints.acceptedFileTypes.length ≤ maxAcceptedFileTypes)
    && constraints.acceptedFileTypes.all isBoundedText
    && constraints.maxFileBytes.all fun bytes => decide (0 < bytes)

def FormFieldV1.withinSchema (field : FormFieldV1) : Bool :=
  isBoundedText field.fieldId && field.canonicalName.all isBoundedText
    && isLongBoundedText field.label && decide (field.options.length ≤ maxFormOptions)
    && field.options.all FormOptionV1.withinSchema && field.constraints.withinSchema

def FormDisclosureV1.withinSchema (disclosure : FormDisclosureV1) : Bool :=
  isBoundedText disclosure.disclosureId && isLongBoundedText disclosure.summary
    && isSha256Digest disclosure.contentSha256 && isSha256Digest disclosure.referenceSha256
    && disclosure.acknowledgementFieldId.all isBoundedText

def AnswerDecisionV1.withinSchema (decision : AnswerDecisionV1) : Bool :=
  isBoundedText decision.fieldId
    && decision.confidence.all (fun confidence => decide (0 ≤ confidence ∧ confidence ≤ 1))
    && decide (decision.evidenceRefs.length ≤ maxEvidenceRefs)
    && decision.evidenceRefs.all isBoundedText

def maxFormFields : ℕ := 200

namespace FormPlanV1

def bindingsWithinSchema (plan : FormPlanV1) : Bool :=
  let contract := plan.contract
  [contract.applicationId, contract.applicationRevision, contract.profileVersion].all
      (fun count => decide (0 < count))
    && [contract.adapterName, contract.adapterVersion, contract.selectorVersion,
      contract.selectedCvId, contract.attachedCvId, plan.locale,
      contract.answerPolicyVersion].all isBoundedText
    && [contract.formFingerprint, contract.selectedCvHash, contract.attachedCvHash].all
      isSha256Digest
    && [contract.llmPromptVersion, contract.llmModelProvider, contract.llmModelName].all
      (fun part => part.all isBoundedText)
    && contract.llmModelDigest.all isModelDigest

def withinSchema (plan : FormPlanV1) : Bool :=
  plan.bindingsWithinSchema
    && decide (plan.fields.length ≤ maxFormFields) && plan.fields.all FormFieldV1.withinSchema
    && decide (plan.disclosures.length ≤ maxFormDisclosures)
    && plan.disclosures.all FormDisclosureV1.withinSchema
    && decide (plan.decisions.length ≤ maxFormFields)
    && plan.decisions.all AnswerDecisionV1.withinSchema
    && decide (plan.contract.blockers.length ≤ maxFormBlockers)

/-- `FormPlanV1.model_validate` returns the plan. -/
def accepted (policy : PlanPolicy) (plan : FormPlanV1) : Bool :=
  plan.withinSchema && decide (plan.validatePlan policy = .ok ())

end FormPlanV1

theorem isTextWithin_iff :
    isTextWithin bound text = true ↔
      strip text = text.toList ∧ text ≠ "" ∧ text.length ≤ bound := by
  simp [isTextWithin, and_assoc]

/-- A label with a text of the contract behind it is one, where it is not too long. -/
theorem isTextWithin_labelled
    (hlabel : ∃ char, label.toList.head? = some char ∧ isSpace char = false)
    (htext : isTextWithin bound text = true) (htotal : label.length + bound ≤ total) :
    isTextWithin total (label ++ text) = true := by
  obtain ⟨hstripped, hne, hlength⟩ := isTextWithin_iff.mp htext
  have hnil : text.toList ≠ [] := by
    simpa using hne
  have hlast : ∃ char, text.toList.getLast? = some char ∧
      isSpace char = false := by
    refine ⟨_, List.getLast?_eq_some_getLast hnil, ?_⟩
    apply (inked_stripBy isSpace text.toList).2
    change (strip text).getLast? = _
    rw [hstripped]
    exact List.getLast?_eq_some_getLast hnil
  refine isTextWithin_iff.mpr ⟨?_, ?_, ?_⟩
  · rw [strip, String.toList_append]
    exact stripBy_of_inked (inked_append hlabel hlast)
  · intro hempty
    exact hne (String.append_eq_empty_iff.mp hempty).2
  · rw [String.length_append]
    omega

/-! ## The validators -/

theorem forM_eq_ok_iff {α : Type} {items : List α} {check : α → Except String Unit} :
    items.forM check = .ok () ↔ ∀ item ∈ items, check item = .ok () := by
  constructor
  · exact fun hloop item hitem => forM_eq_ok hloop hitem
  · intro hall
    induction items with
    | nil => rfl
    | cons head tail ih =>
      have hrest := ih fun item hitem => hall item (.tail _ hitem)
      exact bind_eq_ok.mpr ⟨(), hall head (.head _), hrest⟩

theorem seq_eq_ok {first second : Except String Unit} :
    (first >>= fun _ => second) = .ok () ↔ first = .ok () ∧ second = .ok () := by
  rw [bind_eq_ok]
  constructor
  · rintro ⟨_, hfirst, hsecond⟩
    exact ⟨hfirst, hsecond⟩
  · rintro ⟨hfirst, hsecond⟩
    exact ⟨(), hfirst, hsecond⟩

/-- A nested check of a field. -/
def FormFieldV1.Valid (policy : TextPolicy) (field : FormFieldV1) : Prop :=
  field.constraints.validateRanges = .ok () ∧ field.validateOptions policy = .ok ()

/-- The checks of `validate_plan` that the decisions and the blockers have no part in. -/
structure FormShapeValid (policy : PlanPolicy) (plan : FormPlanV1) : Prop where
  fields : ∀ field ∈ plan.fields, field.Valid policy.toTextPolicy
  disclosures : ∀ disclosure ∈ plan.disclosures,
    disclosure.validateDisclosure policy.toTextPolicy = .ok ()
  locale : FormPlanV1.isCanonicalLocale plan.locale = true
  ordered : plan.contract.createdAt < plan.contract.expiresAt
  lifetime : plan.contract.expiresAt - plan.contract.createdAt ≤ maxFormPlanLifetime
  wholeAudit : (plan.modelAudit.all Option.isNone || plan.modelAudit.all Option.isSome) = true
  fieldIds : (plan.fields.map FormFieldV1.fieldId).Nodup
  disclosureIds : (plan.disclosures.map FormDisclosureV1.disclosureId).Nodup
  positions : (plan.disclosures.map FormDisclosureV1.position).Nodup
  kinds : ((plan.disclosures.map FormDisclosureV1.kind).contains .privacyPolicy
    && (plan.disclosures.map FormDisclosureV1.kind).contains .noPrivacyPolicyNotice) = false
  acknowledgements : (plan.disclosures.all fun disclosure =>
    disclosure.acknowledgementFieldId.all fun fieldId =>
      (plan.fieldById fieldId).any fun field =>
        decide (field.fieldType = .consent ∨ field.fieldType = .attestation)) = true

/-- The checks of the decisions, the blockers and the model identity. -/
structure AnswersValid (policy : PlanPolicy) (plan : FormPlanV1) : Prop where
  size : policy.serializedSize plan ≤ maxFormPlanBytes
  decisionIds : (plan.decisions.map AnswerDecisionV1.fieldId).Nodup
  decided : ∀ decision ∈ plan.decisions, decision.validateDecision = .ok ()
  observed : ∀ decision ∈ plan.decisions, ∃ field, plan.fieldById decision.fieldId = some field ∧
    validatePlanDecision policy.toTextPolicy plan field decision = .ok ()
  blockers : plan.contract.blockers.Nodup
  audited : plan.usesLocalLlm = plan.modelAudit.all Option.isSome
  qualified : plan.usesLocalLlm = true →
    plan.contract.llmPromptVersion = some formResolutionPromptVersion ∧
      plan.contract.llmModelProvider = some qualifiedLocalLlmProvider ∧
      plan.contract.llmModelName = some qualifiedLocalLlmModel ∧
      policy.isQualifiedLocalModelIdentity plan.contract.llmModelProvider
        plan.contract.llmModelName plan.contract.llmModelDigest = true
  unresolved : plan.unresolvedRequired ≠ [] →
    .requiredFieldUnknown ∈ plan.contract.blockers

variable {plan : FormPlanV1}

theorem validateDecisionOf_eq_ok_iff :
    plan.validateDecisionOf policy decision = .ok () ↔
      ∃ field, plan.fieldById decision.fieldId = some field ∧
        validatePlanDecision policy.toTextPolicy plan field decision = .ok () := by
  rw [FormPlanV1.validateDecisionOf]
  cases plan.fieldById decision.fieldId with
  | none => simp
  | some field => simp

theorem validateAudit_eq_ok_iff :
    plan.validateAudit policy = .ok () ↔
      plan.usesLocalLlm = plan.modelAudit.all Option.isSome ∧
      (plan.usesLocalLlm = true →
        plan.contract.llmPromptVersion = some formResolutionPromptVersion ∧
          plan.contract.llmModelProvider = some qualifiedLocalLlmProvider ∧
          plan.contract.llmModelName = some qualifiedLocalLlmModel ∧
          policy.isQualifiedLocalModelIdentity plan.contract.llmModelProvider
            plan.contract.llmModelName plan.contract.llmModelDigest = true) ∧
      (plan.unresolvedRequired ≠ [] → .requiredFieldUnknown ∈ plan.contract.blockers) := by
  simp only [FormPlanV1.validateAudit, seq_eq_ok, require_eq_ok, beq_iff_eq, Bool.or_eq_true,
    Bool.not_eq_true', Bool.and_eq_true, List.isEmpty_iff, List.contains_iff_mem]
  refine and_congr_right fun _ => and_congr ?_ ?_
  · cases plan.usesLocalLlm <;> simp [and_assoc]
  · exact or_iff_not_imp_left

/-- The validators accept a plan of valid shape whose answers are valid. -/
theorem validatePlan_eq_ok_iff :
    plan.validatePlan policy = .ok () ↔ FormShapeValid policy plan ∧ AnswersValid policy plan := by
  simp only [FormPlanV1.validatePlan, FormPlanV1.validateShape, seq_eq_ok, forM_eq_ok_iff,
    require_eq_ok, decide_eq_true_eq, isUnique, validateDecisionOf_eq_ok_iff,
    validateAudit_eq_ok_iff, Bool.not_eq_true']
  constructor
  · rintro ⟨hfields, hdisclosures, hdecided, hlocale, ⟨hordered, hlifetime, hsize, hwhole, hids,
      hdisclosureIds, hpositions, hkinds, hacknowledged, hdecisionIds, _, hblockers⟩, hobserved,
      haudited, hqualified, hunresolved⟩
    exact ⟨⟨hfields, hdisclosures, hlocale, hordered, hlifetime, hwhole, hids, hdisclosureIds,
      hpositions, hkinds, hacknowledged⟩, ⟨hsize, hdecisionIds, hdecided, hobserved, hblockers,
      haudited, hqualified, hunresolved⟩⟩
  · rintro ⟨hshape, hanswers⟩
    refine ⟨hshape.fields, hshape.disclosures, hanswers.decided, hshape.locale,
      ⟨hshape.ordered, hshape.lifetime, hanswers.size, hshape.wholeAudit, hshape.fieldIds,
        hshape.disclosureIds, hshape.positions, hshape.kinds, hshape.acknowledgements,
        hanswers.decisionIds, ?_, hanswers.blockers⟩, hanswers.observed, hanswers.audited,
      hanswers.qualified, hanswers.unresolved⟩
    rw [List.all_eq_true]
    intro decision hdecision
    obtain ⟨field, hfield, _⟩ := hanswers.observed decision hdecision
    simp [hfield]

theorem accepted_iff :
    plan.accepted policy = true ↔
      plan.withinSchema = true ∧ FormShapeValid policy plan ∧ AnswersValid policy plan := by
  rw [FormPlanV1.accepted, Bool.and_eq_true, decide_eq_true_eq, validatePlan_eq_ok_iff]

/-! ## Coerced values -/

variable {field : FormFieldV1}

def AnswerValue.Inked : AnswerValue → Prop
  | .text value => hasInk value = true
  | .texts values => values ≠ [] ∧ ∀ value ∈ values, hasInk value = true
  | _ => True

/-- A value of the shape that coercion gives the field. -/
inductive CoercedTo (field : FormFieldV1) : AnswerValue → Prop where
  | number (htype : field.fieldType = .number) (double : PyFloat) :
      CoercedTo field (numericAnswer double)
  | flag (htype : field.fieldType ∈ booleanFieldTypes) (value : Bool) :
      CoercedTo field (.flag value)
  | choice {value : String} (htype : field.fieldType = .select ∨ field.fieldType = .radio)
      (henabled : value ∈ field.allowedValues) : CoercedTo field (.text value)
  | choices {values : List String} (htype : field.fieldType = .multiSelect) (hne : values ≠ [])
      (hnodup : values.Nodup) (henabled : ∀ value ∈ values, value ∈ field.allowedValues) :
      CoercedTo field (.texts values)
  | text {value : String} (htype : field.fieldType ∈ textFieldTypes) (hne : value ≠ "")
      (hstripped : strip value = value.toList) : CoercedTo field (.text value)

theorem matchingOption_mem (hmatching : matchingOption policy field text = some value) :
    value ∈ field.allowedValues := by
  unfold matchingOption at hmatching
  dsimp only at hmatching
  split at hmatching
  next hfound =>
    cases hmatching
    have hmem : value ∈ [value] := .head _
    rw [← hfound, List.mem_dedup, List.mem_map] at hmem
    obtain ⟨option, hoption, rfl⟩ := hmem
    rw [List.mem_filter, Bool.and_eq_true] at hoption
    exact List.mem_map_of_mem (List.mem_filter.mpr ⟨hoption.1, hoption.2.1⟩)
  · cases hmatching

theorem selectedOptions_mem (hselected : selectedOptions policy field raws = .ok (some values)) :
    ∀ value ∈ values, value ∈ field.allowedValues := by
  induction raws generalizing values with
  | nil =>
    cases hselected
    exact nofun
  | cons raw rest ih =>
    obtain ⟨text, _, hselected⟩ := bind_eq_ok.mp hselected
    cases hmatching : matchingOption policy field text with
    | none => simp [hmatching] at hselected
    | some first =>
      simp only [hmatching] at hselected
      obtain ⟨found, hfound, hvalues⟩ := map_eq_ok.mp hselected
      obtain ⟨later, rfl, rfl⟩ := Option.map_eq_some_iff.mp hvalues
      intro value hvalue
      rcases List.mem_cons.mp hvalue with rfl | hlater
      · exact matchingOption_mem hmatching
      · exact ih hfound value hlater

theorem coerceNumber_shape (hcoerced : coerceNumber policy raw = .ok (some value)) :
    ∃ double, value = numericAnswer double := by
  unfold coerceNumber at hcoerced
  split at hcoerced
  · obtain ⟨double, _, rfl⟩ := Option.map_eq_some_iff.mp (Except.ok.inj hcoerced)
    exact ⟨double, rfl⟩
  · split at hcoerced
    next double _ => exact ⟨.finite double, (Option.some.inj (Except.ok.inj hcoerced)).symm⟩
    · cases hcoerced
  next double => exact ⟨double, (Option.some.inj (Except.ok.inj hcoerced)).symm⟩
  · cases hcoerced

theorem coerceFlag_shape (hcoerced : coerceFlag policy raw = .ok (some value)) :
    ∃ flag, value = .flag flag := by
  unfold coerceFlag at hcoerced
  split at hcoerced
  next flag => exact ⟨flag, (Option.some.inj (Except.ok.inj hcoerced)).symm⟩
  · obtain ⟨text, _, hcoerced⟩ := bind_eq_ok.mp hcoerced
    dsimp only at hcoerced
    split at hcoerced
    · exact ⟨true, (Option.some.inj (Except.ok.inj hcoerced)).symm⟩
    split at hcoerced
    · exact ⟨false, (Option.some.inj (Except.ok.inj hcoerced)).symm⟩
    · cases hcoerced

/-- Chosen options are coerced to allowed values, each once. -/
theorem coerceChoices_shape (hcoerced : coerceChoices policy field raw = .ok (some value)) :
    ∃ values, value = .texts values ∧ values ≠ [] ∧ values.Nodup ∧
      ∀ item ∈ values, item ∈ field.allowedValues := by
  have hselected : ∃ raws selected, selectedOptions policy field raws = .ok selected ∧
      (.ok (selected.bind fun values =>
        if values ≠ [] ∧ values.Nodup then some (.texts values) else none) :
          Except PlanFault (Option AnswerValue)) = .ok (some value) := by
    unfold coerceChoices at hcoerced
    split at hcoerced
    all_goals
      obtain ⟨raws, _, hcoerced⟩ := bind_eq_ok.mp hcoerced
      obtain ⟨selected, hselected, hvalue⟩ := bind_eq_ok.mp hcoerced
      exact ⟨raws, selected, hselected, hvalue⟩
  obtain ⟨raws, selected, hselected, hvalue⟩ := hselected
  obtain ⟨values, rfl, hvalues⟩ := Option.bind_eq_some_iff.mp (Except.ok.inj hvalue)
  obtain ⟨⟨hne, hnodup⟩, hsame⟩ := Option.ite_none_right_eq_some.mp hvalues
  exact ⟨values, (Option.some.inj hsame).symm, hne, hnodup, selectedOptions_mem hselected⟩

theorem coerceText_shape (hcoerced : coerceText policy raw = .ok (some value)) :
    ∃ text, value = .text text ∧ text ≠ "" ∧ strip text = text.toList := by
  obtain ⟨text, _, hvalue⟩ := map_eq_ok.mp hcoerced
  obtain ⟨hne, hsame⟩ := Option.ite_none_left_eq_some.mp hvalue
  refine ⟨_, (Option.some.inj hsame).symm, ?_, ?_⟩
  · intro hempty
    apply hne
    rw [List.isEmpty_iff]
    simpa using congrArg String.toList hempty
  · rw [strip, String.toList_ofList]
    exact stripBy_of_inked (inked_stripBy isSpace text.toList)

/-- What an answer is coerced to fits the control of the field. -/
theorem coerceAnswer_shape (hcoerced : coerceAnswer policy field raw = .ok (some value)) :
    CoercedTo field value := by
  unfold coerceAnswer at hcoerced
  split at hcoerced
  · cases hcoerced
  split at hcoerced
  case h_1 htype =>
    obtain ⟨double, rfl⟩ := coerceNumber_shape hcoerced
    exact .number htype double
  case h_2 htype | h_3 htype | h_4 htype =>
    obtain ⟨flag, rfl⟩ := coerceFlag_shape hcoerced
    exact .flag (by simp [htype, booleanFieldTypes]) flag
  case h_5 htype | h_6 htype =>
    obtain ⟨text, _, hvalue⟩ := map_eq_ok.mp hcoerced
    obtain ⟨option, hoption, rfl⟩ := Option.map_eq_some_iff.mp hvalue
    exact .choice (by simp [htype]) (matchingOption_mem hoption)
  case h_7 htype =>
    obtain ⟨values, rfl, hne, hnodup, henabled⟩ := coerceChoices_shape hcoerced
    exact .choices htype hne hnodup henabled
  case h_8 => cases hcoerced
  case h_9 hnumber hcheckbox hconsent hattestation hselect hradio hmulti hunknown =>
    obtain ⟨text, rfl, hne, hstripped⟩ := coerceText_shape hcoerced
    refine .text ?_ hne hstripped
    cases htype : field.fieldType <;> simp_all [textFieldTypes]

theorem allowedValues_bounded (hschema : field.withinSchema = true)
    (hvalue : value ∈ field.allowedValues) : isBoundedText value = true := by
  obtain ⟨option, hoption, rfl⟩ := List.mem_map.mp hvalue
  simp only [FormFieldV1.withinSchema, Bool.and_eq_true, List.all_eq_true] at hschema
  have hwithin := hschema.1.2 option (List.mem_filter.mp hoption).1
  simp only [FormOptionV1.withinSchema, Bool.and_eq_true] at hwithin
  exact hwithin.1.2

theorem hasInk_of_stripped (hne : text ≠ "")
    (hstripped : strip text = text.toList) : hasInk text = true := by
  rw [hasInk, hstripped]
  simpa using hne

theorem CoercedTo.inked (hcoerced : CoercedTo field value) (hschema : field.withinSchema = true) :
    value.Inked := by
  have hoption : ∀ option ∈ field.allowedValues, hasInk option = true := by
    intro option henabled
    obtain ⟨hstripped, hne, _⟩ := isTextWithin_iff.mp (allowedValues_bounded hschema henabled)
    exact hasInk_of_stripped hne hstripped
  cases hcoerced with
  | number _ double =>
    unfold numericAnswer
    split
    · split <;> exact True.intro
    · exact True.intro
  | flag => exact True.intro
  | choice _ henabled => exact hoption _ henabled
  | choices _ hne _ henabled => exact ⟨hne, fun text htext => hoption text (henabled text htext)⟩
  | text _ hne hstripped => exact hasInk_of_stripped hne hstripped

theorem CoercedTo.option (hcoerced : CoercedTo field value) :
    validateOptionValue field (some value) = .ok () := by
  cases hcoerced with
  | number htype => simp [validateOptionValue, htype]
  | flag htype =>
    simp only [booleanFieldTypes, List.mem_cons, List.not_mem_nil, or_false] at htype
    rcases htype with htype | htype | htype <;> simp [validateOptionValue, htype]
  | choice htype henabled =>
    rcases htype with htype | htype <;> simp [validateOptionValue, htype, require, henabled]
  | choices htype _ _ henabled =>
    simpa [validateOptionValue, htype, require] using henabled
  | text htype =>
    simp only [textFieldTypes, List.mem_cons, List.not_mem_nil, or_false] at htype
    rcases htype with htype | htype | htype | htype | htype | htype | htype <;>
      simp [validateOptionValue, htype]

end JobApplyAgent.Forms
