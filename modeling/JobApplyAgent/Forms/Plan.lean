import JobApplyAgent.Forms.Values

/-!
# Reviewed form plans

The decisions of a plan, its disclosures, and the validators that a plan passes
before it is stored or sent.  The schema's bounds on the length of texts and lists
are left out.
-/

namespace JobApplyAgent.Forms

open Domain Library

inductive DisclosureKind where
  | privacyPolicy
  | noPrivacyPolicyNotice
  | aiDisclosure
  | imprint
  | diversity
  | information
  deriving DecidableEq

inductive DisclosureSource where
  | inline
  | link
  | synthetic
  deriving DecidableEq

structure FormDisclosureV1 where
  disclosureId : String
  kind : DisclosureKind
  source : DisclosureSource
  position : ℕ
  summary : String
  contentSha256 : String
  referenceSha256 : String
  acknowledgementFieldId : Option String
  deriving DecidableEq

inductive AnswerDisposition where
  | resolved
  | abstained
  | operatorRequired
  | operatorConfirmedBlank
  deriving DecidableEq

inductive AnswerProvenance where
  | deterministicIdentity
  | userConfirmed
  | operatorApprovedReusable
  | cvEvidence
  | localLlm
  | verifiedAttachment
  | operatorConfirmed
  | abstained
  deriving DecidableEq

/-- An auditable answer or explicit abstention for one observed field. -/
structure AnswerDecisionV1 where
  fieldId : String
  disposition : AnswerDisposition
  provenance : AnswerProvenance
  value : Option AnswerValue
  confidence : Option ℚ
  evidenceRefs : List String
  reasonCode : Option ReasonCode
  deriving DecidableEq

/-- The reviewed snapshot of a form: `contract` is what authority is bound to. -/
structure FormPlanV1 where
  contract : Domain.FormPlanV1
  fields : List FormFieldV1
  disclosures : List FormDisclosureV1
  decisions : List AnswerDecisionV1
  locale : String
  localLlm : contract.usesLocalLlm = decisions.any fun decision =>
    decision.provenance == .localLlm
  deriving DecidableEq

/-- The size of the serialized plan and the registry of qualified local models. -/
structure PlanPolicy extends TextPolicy where
  serializedSize : FormPlanV1 → ℕ
  isQualifiedLocalModelIdentity : Option String → Option String → Option String → Bool

def maxFormPlanLifetime : Timestamp := 30 * minute

def maxFormPlanBytes : ℕ := 384 * 1024

def verifiedAttachmentSentinel : String := "verified_attachment"

def verifiedAttachmentEvidenceRef : String := "form-plan:verified-attachment"

def formResolutionPromptVersion : String := "form-resolution-v1"

def qualifiedLocalLlmProvider : String := "ollama"

def qualifiedLocalLlmModel : String := "qwen2.5:7b"

def require (condition : Bool) (message : String) : Except String Unit :=
  if condition then .ok () else .error message

theorem require_eq_ok :
    require condition message = .ok result ↔ condition = true := by
  cases condition <;> simp [require]

section Validators

variable (policy : TextPolicy)

def FormFieldConstraintsV1.validateRanges (constraints : FormFieldConstraintsV1) :
    Except String Unit := do
  require (constraints.minLength.all fun low => constraints.maxLength.all fun high =>
    decide (low ≤ high)) "min_length cannot exceed max_length"
  require (constraints.minValue.all fun low => constraints.maxValue.all fun high =>
    decide (low ≤ high)) "min_value cannot exceed max_value"

/-- A list without repetitions. -/
def isUnique {α : Type} [DecidableEq α] (items : List α) : Bool :=
  decide items.Nodup

/-- The normalized values and labels, each with the position of its option. -/
def optionAliases (options : List FormOptionV1) : List (String × ℕ) :=
  options.zipIdx.flatMap fun (option, index) =>
    [(policy.normalizePolicyText option.value, index),
      (policy.normalizePolicyText option.label, index)]

def FormFieldV1.validateOptions (field : FormFieldV1) : Except String Unit := do
  let aliases := optionAliases policy field.options
  require (isUnique (field.options.map FormOptionV1.value))
    "form option values must be unique within a field"
  require (isUnique ((field.options.filterMap FormOptionV1.optionId).map
    policy.normalizePolicyText)) "form option IDs must be unique within a field"
  require (aliases.all fun entry => entry.1 != "")
    "form option aliases must contain visible text"
  require (aliases.all fun first => aliases.all fun second =>
    first.1 != second.1 || first.2 == second.2)
    "normalized option values and labels must identify exactly one option"
  if field.fieldType = .select ∨ field.fieldType = .multiSelect ∨ field.fieldType = .radio then
    require (!field.options.isEmpty) (field.fieldType.value ++ " fields must expose exact options")
  else
    require field.options.isEmpty (field.fieldType.value ++ " fields cannot contain options")
  require (decide (field.fieldType = .consent → field.sensitiveCategory = some .consent)
    && decide (field.fieldType = .attestation → field.sensitiveCategory = some .attestation))
    (field.fieldType.value ++ " fields require the matching sensitive category")
  require (decide (field.sensitiveCategory = some .consent → field.fieldType = .consent)
    && decide (field.sensitiveCategory = some .attestation → field.fieldType = .attestation))
    "consent and attestation sensitivity must match the observed control type"

def FormDisclosureV1.validateDisclosure (disclosure : FormDisclosureV1) : Except String Unit := do
  require (disclosure.contentSha256 == policy.sha256Hex disclosure.summary)
    "disclosure content digest must bind the bounded summary"
  if disclosure.kind = .noPrivacyPolicyNotice then
    require (disclosure.source == .synthetic && disclosure.acknowledgementFieldId.isNone)
      "no-policy notice must be synthetic and non-interactive"
  else
    require (disclosure.source != .synthetic) "only the no-policy notice may be synthetic"

/-- Every reference is the operator's, and there is one. -/
def AnswerDecisionV1.explicitlyConfirmed (decision : AnswerDecisionV1) : Bool :=
  !decision.evidenceRefs.isEmpty && decision.evidenceRefs.all fun reference =>
    "operator_confirmation:".toList.isPrefixOf reference.toList

def AnswerDecisionV1.validateDecision (decision : AnswerDecisionV1) : Except String Unit :=
  match decision.disposition with
  | .operatorConfirmedBlank => do
      require decision.value.isNone "operator-confirmed blank decisions cannot contain an answer"
      require (decision.provenance == .operatorConfirmed)
        "operator-confirmed blank decisions require operator provenance"
      require decision.explicitlyConfirmed
        "operator-confirmed blank decisions require operator evidence references"
      require decision.reasonCode.isNone "operator-confirmed blank decisions cannot carry a blocker"
  | .resolved => do
      require decision.value.isSome "resolved answers require a value"
      require (decision.value.all fun value => match value with
        | .text text => hasInk text
        | _ => true) "resolved string answers cannot be blank"
      require (decision.value.all fun value => match value with
        | .texts items => !items.isEmpty && items.all hasInk
        | _ => true) "resolved multi-value answers cannot be empty or blank"
      require (decision.provenance != .abstained)
        "resolved answers cannot have abstained provenance"
      require decision.reasonCode.isNone "resolved answers cannot carry a blocker reason"
  | _ => do
      require decision.value.isNone
        "abstained/operator-required decisions cannot contain an answer"
      require (decision.provenance == .abstained)
        "non-resolved decisions require abstained provenance"
      require decision.reasonCode.isSome "non-resolved decisions require a bounded reason code"

def FormFieldV1.allowedValues (field : FormFieldV1) : List String :=
  (field.options.filter fun option => !option.disabled).map FormOptionV1.value

def validateOptionValue (field : FormFieldV1) (value : Option AnswerValue) :
    Except String Unit :=
  match field.fieldType, value with
  | .select, some (.text text) | .radio, some (.text text) =>
    require (field.allowedValues.contains text)
      "resolved option does not match an enabled observed option"
  | .select, _ | .radio, _ => .error "resolved option does not match an enabled observed option"
  | .multiSelect, some (.texts texts) =>
    require (texts.all field.allowedValues.contains)
      "resolved options do not match enabled observed options"
  | .multiSelect, _ => .error "multi-select answers must be a tuple"
  | _, _ => .ok ()

/-- A verified attachment stands for the reviewed CV; no other answer fills a file control. -/
def validateAttachment (plan : FormPlanV1) (field : FormFieldV1) (decision : AnswerDecisionV1) :
    Except String Unit :=
  if decision.provenance = .verifiedAttachment then
    require (policy.fieldIsReviewedCvAttachment field
      && decision.value == some (.text verifiedAttachmentSentinel)
      && decision.evidenceRefs == [verifiedAttachmentEvidenceRef]
      && plan.contract.attachmentVerified
      && plan.contract.attachedCvId == plan.contract.selectedCvId
      && plan.contract.attachedCvHash == plan.contract.selectedCvHash)
      "verified attachment answers require exact reviewed attachment metadata"
  else
    require (field.fieldType != .file) "file controls accept only verified attachment provenance"

/-- A field under review is answered from confirmed operator evidence. -/
def validateSensitiveAnswer (field : FormFieldV1) (decision : AnswerDecisionV1) :
    Except String Unit := do
  let canonical := policy.canonicalSensitiveKey (field.canonicalName.getD "")
  require (decision.provenance == .userConfirmed
    || decision.provenance == .operatorApprovedReusable)
    "sensitive answers require confirmed operator evidence"
  require (!decision.evidenceRefs.isEmpty)
    "sensitive answers require at least one evidence reference"
  require (decision.provenance != .operatorApprovedReusable
    || policy.fieldHasScopedSensitiveSemantics field)
    "reusable sensitive answers require scoped field semantics"
  require (decision.provenance != .userConfirmed || decision.explicitlyConfirmed
    || policy.fieldHasScopedSensitiveSemantics field && canonical != ""
      && decision.evidenceRefs.all (· == "profile:user_confirmed:" ++ canonical))
    "profile-confirmed sensitive answers require exact scoped evidence"

def validateReviewedAnswer (field : FormFieldV1) (decision : AnswerDecisionV1) :
    Except String Unit :=
  if policy.fieldRequiresOperatorReview field then validateSensitiveAnswer policy field decision
  else .ok ()

/-- The value of any answer but a verified attachment fits its field. -/
def validateDecisionValue (field : FormFieldV1) (decision : AnswerDecisionV1) :
    Except String Unit :=
  if decision.provenance = .verifiedAttachment then
    .ok ()
  else
    match decision.value with
    | some value => validateResolvedFieldValue policy field value
    | none => .error "assertion failed"

/-- The iteration of `validate_plan` for a resolved decision. -/
def validateResolvedDecision (plan : FormPlanV1) (field : FormFieldV1)
    (decision : AnswerDecisionV1) : Except String Unit := do
  validateAttachment policy plan field decision
  require (policy.fieldCanonicalLabelCompatible field
    || decision.provenance == .userConfirmed && decision.explicitlyConfirmed)
    "automatic answers require compatible canonical and observed field semantics"
  validateReviewedAnswer policy field decision
  validateDecisionValue policy field decision
  validateOptionValue field decision.value

/-- The iteration of `validate_plan` for one decision. -/
def validatePlanDecision (plan : FormPlanV1) (field : FormFieldV1)
    (decision : AnswerDecisionV1) : Except String Unit :=
  match decision.disposition with
  | .operatorConfirmedBlank =>
    require (policy.fieldAllowsOperatorConfirmedBlank field)
      "operator-confirmed blank answers require a safe optional field"
  | .resolved => validateResolvedDecision policy plan field decision
  | _ => .ok ()

end Validators

namespace FormPlanV1

variable (policy : PlanPolicy) (plan : FormPlanV1)

def fieldById (fieldId : String) : Option FormFieldV1 :=
  plan.fields.find? fun field => field.fieldId == fieldId

def decisionById (fieldId : String) : Option AnswerDecisionV1 :=
  plan.decisions.find? fun decision => decision.fieldId == fieldId

def usesLocalLlm : Bool :=
  plan.contract.usesLocalLlm

def modelAudit : List (Option String) :=
  [plan.contract.llmPromptVersion, plan.contract.llmModelProvider, plan.contract.llmModelName,
    plan.contract.llmModelDigest]

/-- Required fields without a resolved decision. -/
def unresolvedRequired : List FormFieldV1 :=
  plan.fields.filter fun field => field.required
    && !(plan.decisionById field.fieldId).any fun decision => decision.disposition == .resolved

def isLanguage (part : List Char) : Bool :=
  decide (part.length = 2 ∨ part.length = 3) && part.all Char.isLower

def isScript (part : List Char) : Bool :=
  part.length == 4 && part.head?.any Char.isUpper && part.tail.all Char.isLower

def isRegion (part : List Char) : Bool :=
  part.length == 2 && part.all Char.isUpper || part.length == 3 && part.all Char.isDigit

def isCanonicalLocale (value : String) : Bool :=
  decide (value.length ≤ 32) && match value.toList.splitOn '-' with
    | [language] => isLanguage language
    | [language, part] => isLanguage language && (isScript part || isRegion part)
    | [language, script, region] => isLanguage language && isScript script && isRegion region
    | _ => false

/-- `validate_plan` up to the loop over the decisions. -/
def validateShape : Except String Unit := do
  require (decide (plan.contract.createdAt < plan.contract.expiresAt))
    "form plan expiry must be after creation"
  require (decide (plan.contract.expiresAt - plan.contract.createdAt ≤ maxFormPlanLifetime))
    "form plan lifetime cannot exceed 30 minutes"
  require (decide (policy.serializedSize plan ≤ maxFormPlanBytes))
    "serialized form plan exceeds the bounded domain maximum"
  require (plan.modelAudit.all Option.isNone || plan.modelAudit.all Option.isSome)
    "LLM form-plan audit identity must be all present or all absent"
  require (isUnique (plan.fields.map FormFieldV1.fieldId)) "form field IDs must be unique"
  require (isUnique (plan.disclosures.map FormDisclosureV1.disclosureId))
    "form disclosure IDs must be unique"
  require (isUnique (plan.disclosures.map FormDisclosureV1.position))
    "form disclosure positions must be unique"
  let kinds := plan.disclosures.map FormDisclosureV1.kind
  require (!(kinds.contains .privacyPolicy && kinds.contains .noPrivacyPolicyNotice))
    "privacy policy and no-policy notice are mutually exclusive"
  require (plan.disclosures.all fun disclosure =>
    disclosure.acknowledgementFieldId.all fun fieldId =>
      (plan.fieldById fieldId).any fun field =>
        decide (field.fieldType = .consent ∨ field.fieldType = .attestation))
    "disclosure acknowledgement must reference an observed consent control"
  require (isUnique (plan.decisions.map AnswerDecisionV1.fieldId))
    "answer decision field IDs must be unique"
  require (plan.decisions.all fun decision => (plan.fieldById decision.fieldId).isSome)
    "answer decisions must reference observed form fields"
  require (isUnique plan.contract.blockers) "form plan blockers must be unique"

/-- One iteration of the loop over the decisions. -/
def validateDecisionOf (decision : AnswerDecisionV1) : Except String Unit :=
  match plan.fieldById decision.fieldId with
  | none => .error "answer decisions must reference observed form fields"
  | some field => validatePlanDecision policy.toTextPolicy plan field decision

/-- `validate_plan` after the loop over the decisions. -/
def validateAudit : Except String Unit := do
  require (plan.usesLocalLlm == plan.modelAudit.all Option.isSome)
    "LLM form-plan audit identity must exist exactly when local LLM answers exist"
  require (!plan.usesLocalLlm
    || plan.contract.llmPromptVersion == some formResolutionPromptVersion
      && plan.contract.llmModelProvider == some qualifiedLocalLlmProvider
      && plan.contract.llmModelName == some qualifiedLocalLlmModel
      && policy.isQualifiedLocalModelIdentity plan.contract.llmModelProvider
        plan.contract.llmModelName plan.contract.llmModelDigest)
    "local LLM answers require the qualified prompt and model identity"
  require (plan.unresolvedRequired.isEmpty
    || plan.contract.blockers.contains .requiredFieldUnknown)
    "unresolved required fields require REQUIRED_FIELD_UNKNOWN"

def validatePlan : Except String Unit := do
  plan.fields.forM fun field => do
    field.constraints.validateRanges
    field.validateOptions policy.toTextPolicy
  plan.disclosures.forM fun disclosure => disclosure.validateDisclosure policy.toTextPolicy
  plan.decisions.forM AnswerDecisionV1.validateDecision
  require (isCanonicalLocale plan.locale) "locale must be a canonical BCP-47-style token"
  plan.validateShape policy
  plan.decisions.forM (plan.validateDecisionOf policy)
  plan.validateAudit policy

end FormPlanV1

end JobApplyAgent.Forms
