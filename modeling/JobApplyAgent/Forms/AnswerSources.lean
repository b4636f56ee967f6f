import JobApplyAgent.Forms.Coercion
import JobApplyAgent.Materials.Excerpt

/-!
# Where answers come from

The private facts of a profile and of the selected CV, the answers that an operator
approved for reuse, and the facts that a local model may cite for a field.
-/

namespace JobApplyAgent.Forms

open Domain Library

/-! ## Profile facts -/

/-- The names of the facts that a reviewed label asks for. -/
def semanticFactKeys : List String :=
  ["primary_language", "backend_framework", "database_skill", "cloud_platform",
    "container_platform", "iac_tool", "data_tool", "ml_framework", "frontend_language",
    "frontend_framework", "test_framework", "automation_tool", "operating_system",
    "embedded_language", "realtime_system", "analytics_tool", "pipeline_tool", "api_style",
    "version_control", "highest_degree"]

def llmSafeConfirmedFactKeys : List String :=
  semanticFactKeys ++ ["skills", "years_experience", "notice_period", "salary_expectations",
    "availability_date", "preferred_start", "portfolio_summary"]

def cvArtifactFactKeys : List String :=
  semanticFactKeys ++ ["relevant_experience", "technical_summary"]

/-- Facts under their names, as a dictionary keeps them. -/
abbrev Facts := List (String × String)

/-- What planning reads of a profile; the facts are under canonical names. -/
structure UserProfile where
  name : String
  email : String
  phone : String
  location : String
  linkedin : String
  github : String
  portfolio : String
  userConfirmed : Facts
  cvExtractedByArtifact : List (String × Facts)

/-- Exact private context that bounds one form-planning decision. -/
structure AnswerPolicyContext where
  profile : UserProfile
  profileVersion : ℕ
  selectedCvId : String
  selectedCvHash : String
  adapterName : String
  adapterVersion : String
  selectorVersion : String
  formFingerprint : String
  locale : String
  policyVersion : String
  attachedCvId : Option String
  attachedCvHash : Option String
  attachmentVerified : Bool
  selectedCvFactCatalog : Option Facts

/-- A durable answer that the operator approved; `answer` is what its JSON spells. -/
structure OperatorApprovedAnswer where
  id : ℕ
  canonicalField : String
  fieldType : String
  optionSetHash : String
  locale : String
  profileVersion : ℕ
  selectedCvId : String
  selectedCvHash : String
  adapterName : String
  adapterVersion : String
  selectorVersion : String
  formFingerprint : String
  fieldContractFingerprint : Option String
  policyVersion : String
  answer : Option PyValue
  evidenceSource : String
  evidenceReference : String
  approvedAt : Timestamp
  revokedAt : Option Timestamp

section Sources

variable (policy : PlanningPolicy)

def isKeyCharacter (character : Char) : Bool :=
  character.isLower || character.isDigit

/-- The runs of `[a-z0-9]`, joined by single underscores. -/
def canonicalFactKey (value : String) : String :=
  let lowered := (policy.lower (String.ofList (strip value))).toList
  let runs := (lowered.splitOnP fun character => !isKeyCharacter character).filter
    fun run => !run.isEmpty
  "_".intercalate (runs.map String.ofList)

def canonicalField (field : FormFieldV1) : String :=
  canonicalFactKey policy (field.canonicalName.getD "")

/-- `value.strip() or None`. -/
def inkOrNone (value : String) : Option String :=
  if hasInk value then some (String.ofList (strip value)) else none

/-- `value.split()`. -/
def words (value : String) : List String :=
  ((value.toList.splitOnP isSpace).filter fun word => !word.isEmpty).map String.ofList

/-- The identity values under the canonical names that ask for them. -/
def identityValues (profile : UserProfile) : List (String × Option String) :=
  let nameParts := words profile.name
  let normalizedName := " ".intercalate nameParts
  let givenName := if nameParts.length = 2 then nameParts.head? else none
  let familyName := if nameParts.length = 2 then nameParts.getLast? else none
  [("email", some profile.email), ("phone", some profile.phone),
    ("full_name", some normalizedName), ("name", some normalizedName),
    ("first_name", givenName), ("given_name", givenName),
    ("last_name", familyName), ("surname", familyName), ("family_name", familyName),
    ("location", some profile.location),
    ("city", some (String.ofList (profile.location.toList.takeWhile (· != ',')))),
    ("linkedin", some profile.linkedin), ("linkedin_url", some profile.linkedin),
    ("github", some profile.github), ("github_url", some profile.github),
    ("portfolio", some profile.portfolio), ("portfolio_url", some profile.portfolio)]

def identityValue (field : FormFieldV1) (profile : UserProfile) : Option String :=
  (((identityValues profile).lookup (canonicalField policy field)).join).bind inkOrNone

/-- Exact operator-confirmed evidence, never a CV fallback. -/
def confirmedFact (profile : UserProfile) (key : String) : Option String :=
  (profile.userConfirmed.lookup (canonicalFactKey policy key)).bind inkOrNone

def llmSafeConfirmedFacts (profile : UserProfile) : Facts :=
  profile.userConfirmed.filter fun entry =>
    entry.2 != "" && llmSafeConfirmedFactKeys.contains entry.1
      && !policy.isSensitiveFactKey entry.1

structure MergedFacts where
  merged : Facts
  conflicted : List String

/-- One more fact; a second value for a name is a conflict. -/
def mergeFact (progress : MergedFacts) (entry : String × String) : MergedFacts :=
  let key := canonicalFactKey policy entry.1
  let value := String.ofList (strip entry.2)
  if !cvArtifactFactKeys.contains key || policy.isSensitiveFactKey key || value == ""
      || policy.containsSensitiveText value || policy.containsPromptInjection value then
    progress
  else
    match progress.merged.lookup key with
    | none => { progress with merged := progress.merged ++ [(key, value)] }
    | some found =>
      if found = value then progress
      else { progress with conflicted := key :: progress.conflicted }

/-- One conflict-free, exact-artifact-bound private fact view. -/
def selectedCvFacts (context : AnswerPolicyContext) : Facts :=
  let profileFacts := (context.profile.cvExtractedByArtifact.lookup context.selectedCvHash).getD []
  let catalogFacts := context.selectedCvFactCatalog.getD []
  let progress := (profileFacts ++ catalogFacts).foldl (mergeFact policy) ⟨[], []⟩
  progress.merged.filter fun entry => !progress.conflicted.contains entry.1

/-! ## Answers approved for reuse -/

/-- The answer was approved for this field in this context, and not revoked. -/
def approvedFor (field : FormFieldV1) (context : AnswerPolicyContext)
    (row : OperatorApprovedAnswer) : Bool :=
  row.canonicalField == canonicalField policy field
    && row.fieldType == field.fieldType.value
    && row.optionSetHash == policy.optionSetHash field
    && row.locale == context.locale
    && row.profileVersion == context.profileVersion
    && row.selectedCvId == context.selectedCvId
    && row.selectedCvHash == context.selectedCvHash
    && row.adapterName == context.adapterName
    && row.adapterVersion == context.adapterVersion
    && row.selectorVersion == context.selectorVersion
    && row.formFingerprint == context.formFingerprint
    && row.fieldContractFingerprint == some (policy.reusableFieldContractFingerprint field
      context.adapterName context.adapterVersion context.selectorVersion)
    && row.policyVersion == context.policyVersion
    && row.revokedAt.isNone

def laterApproval (best : Option OperatorApprovedAnswer) (row : OperatorApprovedAnswer) :
    Option OperatorApprovedAnswer :=
  match best with
  | none => some row
  | some other =>
    if other.approvedAt < row.approvedAt
        ∨ other.approvedAt = row.approvedAt ∧ other.id < row.id then some row
    else some other

/-- The first row by descending time of approval and id. -/
def newestApproval (rows : List OperatorApprovedAnswer) : Option OperatorApprovedAnswer :=
  rows.foldl laterApproval none

def approvedAnswerRef (id : ℕ) : String :=
  "operator-approved-answer:" ++ id.repr

def operatorApproved (rows : List OperatorApprovedAnswer) (field : FormFieldV1)
    (context : AnswerPolicyContext) : Except PlanFault (Option AnswerDecisionV1) :=
  if field.canonicalName.all (· == "") then
    .ok none
  else
    match newestApproval (rows.filter (approvedFor policy field context)) with
    | none => .ok none
    | some row =>
      match row.answer with
      | none => .ok none
      | some raw => do
          if ← evidenceValueIsSafe policy field raw true then
            resolvedDecision policy field raw .operatorApprovedReusable
              (approvedAnswerRef row.id) 1
          else
            .ok none

/-! ## The verified attachment -/

def verifiedAttachmentDecision (field : FormFieldV1) (context : AnswerPolicyContext) :
    Option AnswerDecisionV1 :=
  if policy.fieldIsReviewedCvAttachment field && context.attachmentVerified
      && context.attachedCvId == some context.selectedCvId
      && context.attachedCvHash == some context.selectedCvHash then
    some
      { fieldId := field.fieldId
        disposition := .resolved
        provenance := .verifiedAttachment
        value := some (.text verifiedAttachmentSentinel)
        confidence := some 1
        evidenceRefs := [verifiedAttachmentEvidenceRef]
        reasonCode := none }
  else
    none

end Sources

end JobApplyAgent.Forms
