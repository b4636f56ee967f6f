import JobApplyAgent.Forms.Plan
import JobApplyAgent.Library.Fallible

/-!
# Plans that are safe to send

What the validators of a plan and its readiness for a permit guarantee about every
field of the form.
-/

namespace JobApplyAgent.Forms

open Domain Library

variable {field : FormFieldV1}
  {decision : AnswerDecisionV1}

/-- A loop that succeeds has succeeded on every item. -/
theorem forM_eq_ok {ε α : Type} {items : List α} {check : α → Except ε Unit}
    (hloop : items.forM check = .ok ()) {item : α} (hitem : item ∈ items) :
    check item = .ok () := by
  induction items with
  | nil => cases hitem
  | cons head tail ih =>
    obtain ⟨_, hhead, htail⟩ := bind_eq_ok.mp hloop
    rcases List.mem_cons.mp hitem with rfl | hmem
    · exact hhead
    · exact ih htail hmem

/-- The value is among the enabled options, where the field offers options. -/
def OptionEnabled (field : FormFieldV1) : AnswerValue → Prop
  | .text text => field.fieldType = .select ∨ field.fieldType = .radio →
      text ∈ field.allowedValues
  | .texts texts => field.fieldType = .multiSelect → ∀ text ∈ texts, text ∈ field.allowedValues
  | _ => True

theorem validateOptionValue_eq_ok (hvalid : validateOptionValue field (some value) = .ok ()) :
    OptionEnabled field value := by
  unfold validateOptionValue at hvalid
  cases value with
  | text text =>
    rintro (htype | htype) <;> rw [htype] at hvalid <;>
      simpa [require_eq_ok] using hvalid
  | texts texts =>
    intro htype
    rw [htype] at hvalid
    simpa [require_eq_ok] using hvalid
  | flag | int | float => trivial

/-- What the loop body checks of a resolved decision. -/
structure ResolvedOk (policy : TextPolicy) (plan : FormPlanV1) (field : FormFieldV1)
    (decision : AnswerDecisionV1) : Prop where
  attachment : decision.provenance = .verifiedAttachment →
    policy.fieldIsReviewedCvAttachment field = true ∧
      plan.contract.attachmentVerified = true ∧
      plan.contract.attachedCvId = plan.contract.selectedCvId ∧
      plan.contract.attachedCvHash = plan.contract.selectedCvHash
  file : decision.provenance ≠ .verifiedAttachment → field.fieldType ≠ .file
  reviewed : policy.fieldRequiresOperatorReview field = true →
    (decision.provenance = .userConfirmed ∨ decision.provenance = .operatorApprovedReusable) ∧
      decision.evidenceRefs ≠ []
  value : decision.provenance ≠ .verifiedAttachment →
    ∃ value, decision.value = some value ∧ FitsField policy field value ∧
      OptionEnabled field value

theorem validateAttachment_eq_ok (hvalid : validateAttachment policy plan field decision = .ok ()) :
    (decision.provenance = .verifiedAttachment →
      policy.fieldIsReviewedCvAttachment field = true ∧
        plan.contract.attachmentVerified = true ∧
        plan.contract.attachedCvId = plan.contract.selectedCvId ∧
        plan.contract.attachedCvHash = plan.contract.selectedCvHash) ∧
      (decision.provenance ≠ .verifiedAttachment → field.fieldType ≠ .file) := by
  unfold validateAttachment at hvalid
  split at hvalid
  next hattachment =>
    simp only [require_eq_ok, Bool.and_eq_true, beq_iff_eq] at hvalid
    obtain ⟨⟨⟨⟨⟨hreviewed, _⟩, _⟩, hverified⟩, hid⟩, hhash⟩ := hvalid
    exact ⟨fun _ => ⟨hreviewed, hverified, hid, hhash⟩, fun hother => absurd hattachment hother⟩
  next hother =>
    exact ⟨fun hattachment => absurd hattachment hother, fun _ => by
      simpa [require_eq_ok] using hvalid⟩

theorem validateReviewedAnswer_eq_ok
    (hvalid : validateReviewedAnswer policy field decision = .ok ())
    (hreview : policy.fieldRequiresOperatorReview field = true) :
    (decision.provenance = .userConfirmed ∨ decision.provenance = .operatorApprovedReusable) ∧
      decision.evidenceRefs ≠ [] := by
  rw [validateReviewedAnswer, if_pos hreview, validateSensitiveAnswer] at hvalid
  obtain ⟨_, hprovenance, hvalid⟩ := bind_eq_ok.mp hvalid
  obtain ⟨_, hrefs, _⟩ := bind_eq_ok.mp hvalid
  constructor
  · simpa [require_eq_ok] using hprovenance
  · simpa [require_eq_ok] using hrefs

theorem validateDecisionValue_eq_ok (hvalid : validateDecisionValue policy field decision = .ok ())
    (hother : decision.provenance ≠ .verifiedAttachment) :
    ∃ value, decision.value = some value ∧ FitsField policy field value := by
  rw [validateDecisionValue, if_neg hother] at hvalid
  split at hvalid
  next value hvalue => exact ⟨value, hvalue, validateResolvedFieldValue_eq_ok hvalid⟩
  · cases hvalid

theorem validateResolvedDecision_eq_ok
    (hvalid : validateResolvedDecision policy plan field decision = .ok ()) :
    ResolvedOk policy plan field decision := by
  obtain ⟨_, hattachment, hvalid⟩ := bind_eq_ok.mp hvalid
  obtain ⟨_, _, hvalid⟩ := bind_eq_ok.mp hvalid
  obtain ⟨_, hreviewed, hvalid⟩ := bind_eq_ok.mp hvalid
  obtain ⟨_, hvalue, hoption⟩ := bind_eq_ok.mp hvalid
  constructor
  · exact (validateAttachment_eq_ok hattachment).1
  · exact (validateAttachment_eq_ok hattachment).2
  · exact validateReviewedAnswer_eq_ok hreviewed
  · intro hother
    obtain ⟨value, hsome, hfits⟩ := validateDecisionValue_eq_ok hvalue hother
    rw [hsome] at hoption
    exact ⟨value, hsome, hfits, validateOptionValue_eq_ok hoption⟩

/-- What the validators say of an accepted plan. -/
structure Accepted (policy : PlanPolicy) (plan : FormPlanV1) : Prop where
  decisions : ∀ decision ∈ plan.decisions, plan.validateDecisionOf policy decision = .ok ()
  fieldIds : (plan.fields.map FormFieldV1.fieldId).Nodup
  audit : plan.validateAudit policy = .ok ()

/-- What a valid plan satisfies. -/
theorem validatePlan_eq_ok (hvalid : plan.validatePlan policy = .ok ()) :
    Accepted policy plan := by
  obtain ⟨_, _, hvalid⟩ := bind_eq_ok.mp hvalid
  obtain ⟨_, _, hvalid⟩ := bind_eq_ok.mp hvalid
  obtain ⟨_, _, hvalid⟩ := bind_eq_ok.mp hvalid
  obtain ⟨_, _, hvalid⟩ := bind_eq_ok.mp hvalid
  obtain ⟨_, hshape, hvalid⟩ := bind_eq_ok.mp hvalid
  obtain ⟨_, hdecisions, haudit⟩ := bind_eq_ok.mp hvalid
  refine ⟨fun decision hdecision => forM_eq_ok hdecisions hdecision, ?_, haudit⟩
  obtain ⟨_, _, hshape⟩ := bind_eq_ok.mp hshape
  obtain ⟨_, _, hshape⟩ := bind_eq_ok.mp hshape
  obtain ⟨_, _, hshape⟩ := bind_eq_ok.mp hshape
  obtain ⟨_, _, hshape⟩ := bind_eq_ok.mp hshape
  obtain ⟨_, hfields, _⟩ := bind_eq_ok.mp hshape
  simpa [require_eq_ok, isUnique] using hfields

section

variable (haccepted : Accepted policy plan)
include haccepted

theorem Accepted.fieldById_eq (hfield : field ∈ plan.fields) :
    plan.fieldById field.fieldId = some field := by
  cases hfind : plan.fieldById field.fieldId with
  | none =>
    have hnone := List.find?_eq_none.mp hfind field hfield
    simp at hnone
  | some found =>
    have hsame : found.fieldId = field.fieldId := by
      simpa using List.find?_some hfind
    rw [List.inj_on_of_nodup_map haccepted.fieldIds (List.mem_of_find?_eq_some hfind) hfield
      hsame]

theorem Accepted.resolved (hfield : field ∈ plan.fields)
    (hdecision : decision ∈ plan.decisions) (hsame : decision.fieldId = field.fieldId)
    (hresolved : decision.disposition = .resolved) :
    ResolvedOk policy.toTextPolicy plan field decision := by
  have hvalid := haccepted.decisions decision hdecision
  rw [FormPlanV1.validateDecisionOf, hsame, haccepted.fieldById_eq hfield] at hvalid
  simp only [validatePlanDecision, hresolved] at hvalid
  exact validateResolvedDecision_eq_ok hvalid

theorem Accepted.localLlm (hdecision : decision ∈ plan.decisions)
    (hllm : decision.provenance = .localLlm) :
    plan.contract.llmPromptVersion = some formResolutionPromptVersion ∧
      plan.contract.llmModelProvider = some qualifiedLocalLlmProvider ∧
      plan.contract.llmModelName = some qualifiedLocalLlmModel ∧
      policy.isQualifiedLocalModelIdentity plan.contract.llmModelProvider
        plan.contract.llmModelName plan.contract.llmModelDigest = true := by
  have huses : plan.usesLocalLlm = true := by
    rw [FormPlanV1.usesLocalLlm, plan.localLlm, List.any_eq_true]
    exact ⟨decision, hdecision, by simp [hllm]⟩
  obtain ⟨_, _, haudit⟩ := bind_eq_ok.mp haccepted.audit
  obtain ⟨_, hidentity, _⟩ := bind_eq_ok.mp haudit
  rw [require_eq_ok] at hidentity
  simpa [huses, and_assoc] using hidentity

/-- Without blockers every required field has a resolved decision. -/
theorem Accepted.required (hready : plan.contract.readyForPermit = true)
    (hfield : field ∈ plan.fields)
    (hrequired : field.required = true) :
    ∃ decision ∈ plan.decisions, decision.fieldId = field.fieldId ∧
      decision.disposition = .resolved := by
  obtain ⟨_, _, haudit⟩ := bind_eq_ok.mp haccepted.audit
  obtain ⟨_, _, hunresolved⟩ := bind_eq_ok.mp haudit
  rw [require_eq_ok] at hunresolved
  have hblockers : plan.contract.blockers = [] := by
    simp only [Domain.FormPlanV1.readyForPermit, Bool.and_eq_true, List.isEmpty_iff] at hready
    exact hready.1.1.1.1.1
  have hempty : plan.unresolvedRequired = [] := by
    simpa [hblockers] using hunresolved
  have hresolved := List.filter_eq_nil_iff.mp hempty field hfield
  simp only [hrequired, Bool.true_and, Bool.not_eq_true', Bool.not_eq_false] at hresolved
  obtain ⟨decision, hfind, hdisposition⟩ := (Option.any_eq_true _ _).mp hresolved
  refine ⟨decision, List.mem_of_find?_eq_some hfind, ?_, by simpa using hdisposition⟩
  simpa using List.find?_some hfind

end

/-- Every field of the form is answered safely. -/
structure SafeToSend (policy : PlanPolicy) (plan : FormPlanV1)
    (fits : FormFieldV1 → AnswerValue → Prop) : Prop where
  required : ∀ field ∈ plan.fields, field.required = true →
    ∃ decision ∈ plan.decisions, decision.fieldId = field.fieldId ∧
      decision.disposition = .resolved
  values : ∀ field ∈ plan.fields, ∀ decision ∈ plan.decisions,
    decision.fieldId = field.fieldId → decision.disposition = .resolved →
    decision.provenance ≠ .verifiedAttachment →
    ∃ value, decision.value = some value ∧ fits field value ∧ OptionEnabled field value
  files : ∀ field ∈ plan.fields, ∀ decision ∈ plan.decisions,
    decision.fieldId = field.fieldId → decision.disposition = .resolved →
    field.fieldType = .file →
    policy.fieldIsReviewedCvAttachment field = true ∧
      plan.contract.attachmentVerified = true ∧
      plan.contract.attachedCvId = plan.contract.selectedCvId ∧
      plan.contract.attachedCvHash = plan.contract.selectedCvHash
  reviewed : ∀ field ∈ plan.fields, policy.fieldRequiresOperatorReview field = true →
    ∀ decision ∈ plan.decisions, decision.fieldId = field.fieldId →
      decision.disposition = .resolved →
      (decision.provenance = .userConfirmed ∨
        decision.provenance = .operatorApprovedReusable) ∧ decision.evidenceRefs ≠ []
  unresolved : ∀ field ∈ plan.fields, policy.fieldRequiresOperatorReview field = true →
    (∀ decision ∈ plan.decisions, decision.fieldId = field.fieldId →
      decision.disposition ≠ .resolved) → field.required = false
  localLlm : ∀ decision ∈ plan.decisions, decision.provenance = .localLlm →
    plan.contract.llmPromptVersion = some formResolutionPromptVersion ∧
      plan.contract.llmModelProvider = some qualifiedLocalLlmProvider ∧
      plan.contract.llmModelName = some qualifiedLocalLlmModel ∧
      policy.isQualifiedLocalModelIdentity plan.contract.llmModelProvider
        plan.contract.llmModelName plan.contract.llmModelDigest = true

/-- An accepted plan that is ready for a permit is safe to send: each value fits the
type of its field and the constraints of that type. -/
theorem accepted_plan_safe (policy : PlanPolicy) (plan : FormPlanV1)
    (hvalid : plan.validatePlan policy = .ok ())
    (hready : plan.contract.readyForPermit = true) :
    SafeToSend policy plan (FitsField policy.toTextPolicy) := by
  have haccepted := validatePlan_eq_ok hvalid
  constructor
  · exact fun field hfield hrequired => haccepted.required hready hfield hrequired
  · intro field hfield decision hdecision hsame hresolved
    exact (haccepted.resolved hfield hdecision hsame hresolved).value
  · intro field hfield decision hdecision hsame hresolved hfile
    have hok := haccepted.resolved hfield hdecision hsame hresolved
    apply hok.attachment
    by_contra hother
    exact hok.file hother hfile
  · intro field hfield hreview decision hdecision hsame hresolved
    exact (haccepted.resolved hfield hdecision hsame hresolved).reviewed hreview
  · intro field hfield _ hunresolved
    by_contra hrequired
    obtain ⟨decision, hdecision, hsame, hresolved⟩ :=
      haccepted.required hready hfield (by simpa using hrequired)
    exact hunresolved decision hdecision hsame hresolved
  · exact fun decision hdecision hllm => haccepted.localLlm hdecision hllm

/-! ### Constraints read apart from the type -/

/-- The number that an answer is, before it is made a double. -/
def exactNumber : AnswerValue → Option ℚ
  | .int value => some value
  | .float (.finite value) => some value
  | _ => none

/-- The length bounds hold of every text. -/
def MeetsLength (field : FormFieldV1) (value : AnswerValue) : Prop :=
  ∀ text, value = .text text →
    (∀ bound, field.constraints.minLength = some bound → bound ≤ text.length) ∧
      ∀ bound, field.constraints.maxLength = some bound → text.length ≤ bound

/-- The range holds of the exact number. -/
def MeetsRange (field : FormFieldV1) (value : AnswerValue) : Prop :=
  ∀ number, exactNumber value = some number →
    (∀ bound, field.constraints.minValue = some bound → bound ≤ number) ∧
      ∀ bound, field.constraints.maxValue = some bound → number ≤ bound

def lowercaseText (text : String) : String :=
  String.ofList (text.toList.map Char.toLower)

/-- A policy that is right about the two questions below. -/
def samplePolicy : PlanPolicy where
  casefold := lowercaseText
  isWord := Char.isAlphanum
  decimal := fun character => if character.isDigit then some (character.toNat - 48) else none
  urlsplit := fun _ => none
  sha256Hex := id
  normalizePolicyText := lowercaseText
  normalizeFieldSemantics := lowercaseText
  canonicalSensitiveKey := lowercaseText
  isSensitiveFactKey := fun _ => false
  containsSensitiveText := fun _ => false
  containsPromptInjection := fun _ => false
  sensitiveFieldMarkers := []
  promptInjectionMarkers := []
  canonicalLabelAliases := []
  semanticLabelWrappers := [("", "")]
  serializedSize := fun _ => 4096
  isQualifiedLocalModelIdentity := fun _ _ _ => false

def noConstraints : FormFieldConstraintsV1 where
  minLength := none
  maxLength := none
  minValue := none
  maxValue := none
  pattern := none
  acceptedFileTypes := []
  maxFileBytes := none
  multiple := false

/-- A choice with a length bound. -/
def noticeField : FormFieldV1 where
  fieldId := "notice"
  canonicalName := none
  label := "Notice period"
  fieldType := .select
  required := true
  position := 0
  options := [⟨none, "none", "None", false⟩]
  constraints := { noConstraints with maxLength := some 1 }
  sensitiveCategory := none

/-- A number that has to be at most the last exact double. -/
def salaryField : FormFieldV1 where
  fieldId := "salary"
  canonicalName := none
  label := "Salary"
  fieldType := .number
  required := true
  position := 1
  options := []
  constraints := { noConstraints with maxValue := some 9007199254740992 }
  sensitiveCategory := none

def confirmedAnswer (fieldId : String) (value : AnswerValue) : AnswerDecisionV1 where
  fieldId
  disposition := .resolved
  provenance := .userConfirmed
  value := some value
  confidence := none
  evidenceRefs := ["profile:answers"]
  reasonCode := none

def sampleContract : Domain.FormPlanV1 where
  planId := "plan"
  applicationId := 1
  applicationRevision := 1
  adapterName := "greenhouse"
  adapterVersion := "1"
  selectorVersion := "1"
  formFingerprint := "form"
  selectedCvId := "cv"
  selectedCvHash := "hash"
  attachedCvId := "cv"
  attachedCvHash := "hash"
  attachmentVerified := true
  profileVersion := 1
  sessionVerifiedAt := 0
  createdAt := 0
  expiresAt := minute
  blockers := []
  usesLocalLlm := false
  answerPolicyVersion := "answer-policy-v1"
  llmPromptVersion := none
  llmModelProvider := none
  llmModelName := none
  llmModelDigest := none

def samplePlan : FormPlanV1 where
  contract := sampleContract
  fields := [noticeField, salaryField]
  disclosures := []
  decisions := [confirmedAnswer "notice" (.text "none"),
    confirmedAnswer "salary" (.int 9007199254740993)]
  locale := "en"
  localLlm := rfl

theorem samplePlan_valid : samplePlan.validatePlan samplePolicy = .ok () := by
  decide +kernel

theorem samplePlan_ready : samplePlan.contract.readyForPermit = true := by
  decide

theorem accepted_plan_safe_sample :
    SafeToSend samplePolicy samplePlan (FitsField samplePolicy.toTextPolicy) :=
  accepted_plan_safe samplePolicy samplePlan samplePlan_valid samplePlan_ready

/-- A choice is not measured, and a number is compared as a double. -/
theorem constraints_read_by_type :
    ¬(∀ policy plan, plan.validatePlan policy = .ok () → plan.contract.readyForPermit = true →
        SafeToSend policy plan MeetsLength) ∧
      ¬∀ policy plan, plan.validatePlan policy = .ok () → plan.contract.readyForPermit = true →
        SafeToSend policy plan MeetsRange := by
  constructor
  · intro hclaim
    obtain ⟨value, hvalue, hmeets, _⟩ :=
      (hclaim samplePolicy samplePlan samplePlan_valid samplePlan_ready).values noticeField
        (by decide) (confirmedAnswer "notice" (.text "none")) (by decide) rfl rfl (by decide)
    cases hvalue
    exact absurd ((hmeets "none" rfl).2 1 rfl) (by decide)
  · intro hclaim
    obtain ⟨value, hvalue, hmeets, _⟩ :=
      (hclaim samplePolicy samplePlan samplePlan_valid samplePlan_ready).values salaryField
        (by decide) (confirmedAnswer "salary" (.int 9007199254740993)) (by decide) rfl rfl
        (by decide)
    cases hvalue
    exact absurd ((hmeets 9007199254740993 rfl).2 9007199254740992 rfl) (by decide)

end JobApplyAgent.Forms
