import JobApplyAgent.Forms.Acceptance
import JobApplyAgent.Library.JsonText
import Mathlib.Data.String.Basic

/-!
# Reviewed answer bindings

The redacted bindings of the Greenhouse adapter: every reviewed answer as the digest of its
canonical text, and the payload that the browser bound to the reviewed answers.
-/

namespace JobApplyAgent.Adapters

open Domain Forms Library

/-- The rules of a plan and `str(value)` of a double. -/
structure BindingPolicy extends PlanPolicy where
  floatText : PyFloat → String

/-! ## Bindings -/

def bindingInvalid : String := "GREENHOUSE_REVIEWED_ANSWER_BINDING_INVALID"

def maxFieldIdLength : ℕ := 500

def maxSuccessfulEntries : ℕ := 32

/-- `_FIELD_ID`. -/
def isFieldId (text : String) : Bool :=
  decide (1 ≤ text.length ∧ text.length ≤ maxFieldIdLength)
    && text.toList.all fun character =>
      character.isAlphanum || ['_', '.', ':', '-'].contains character

/-- The controls that may have no successful entry. -/
def mayBeEmpty (fieldType : FieldType) : Bool :=
  [FieldType.checkbox, .consent, .attestation, .multiSelect].contains fieldType

/-- One value-exact reviewed decision without its private raw answer. -/
structure GreenhouseReviewedAnswerBinding where
  fieldId : String
  fieldType : FieldType
  valueSha256 : String
  successfulEntryCount : ℕ
  fieldIdValid : isFieldId fieldId = true
  digestValid : isSha256Digest valueSha256 = true
  countBounded : successfulEntryCount ≤ maxSuccessfulEntries
  countPositive : mayBeEmpty fieldType = true ∨ successfulEntryCount ≠ 0
  deriving DecidableEq

/-- `GreenhouseReviewedAnswerBinding`, once it is validated. -/
def reviewedAnswerBinding (fieldId : String) (fieldType : FieldType) (valueSha256 : String)
    (successfulEntryCount : ℕ) : Except String GreenhouseReviewedAnswerBinding :=
  if hvalid : isFieldId fieldId = true ∧ isSha256Digest valueSha256 = true
      ∧ successfulEntryCount ≤ maxSuccessfulEntries
      ∧ (mayBeEmpty fieldType = true ∨ successfulEntryCount ≠ 0) then
    .ok ⟨fieldId, fieldType, valueSha256, successfulEntryCount, hvalid.1, hvalid.2.1,
      hvalid.2.2.1, hvalid.2.2.2⟩
  else .error bindingInvalid

/-- A reviewed answer bound to one exact successful-control name. -/
structure GreenhouseAnswerBinding where
  reviewed : GreenhouseReviewedAnswerBinding
  controlNameSha256 : String
  nameValid : isSha256Digest controlNameSha256 = true
  deriving DecidableEq

/-- Redacted name and value of the retained final submitter. -/
structure GreenhouseSubmitterBinding where
  controlNameSha256 : String
  valueSha256 : String
  nameValid : isSha256Digest controlNameSha256 = true
  valueValid : isSha256Digest valueSha256 = true
  deriving DecidableEq

/-- `GreenhousePayloadBinding.__post_init__`. -/
def payloadBindingValid (payloadCommitment : String)
    (answerBindings : List GreenhouseAnswerBinding) (resumeControlNameSha256 : String)
    (submitterBinding : Option GreenhouseSubmitterBinding) : Bool :=
  let names := answerBindings.map GreenhouseAnswerBinding.controlNameSha256
  isSha256Digest payloadCommitment && isSha256Digest resumeControlNameSha256
    && (match answerBindings.filter fun binding => binding.reviewed.fieldType == .file with
      | [binding] => binding.controlNameSha256 == resumeControlNameSha256
      | _ => false)
    && isUnique (answerBindings.map fun binding => binding.reviewed.fieldId)
    && isUnique names
    && submitterBinding.all fun submitter => !names.contains submitter.controlNameSha256

/-! ## Canonical answers -/

/-- `replace("\r\n", "\n")`. -/
def joinedBreaks : List Char → List Char
  | '\r' :: '\n' :: rest => '\n' :: joinedBreaks rest
  | character :: rest => character :: joinedBreaks rest
  | [] => []

def lineFeeds (text : String) : List Char :=
  (joinedBreaks text.toList).map fun character =>
    if character = '\r' then '\n' else character

/-- Every line break of a text as a form sends it. -/
def normalizedBreaks (text : String) : List Char :=
  (lineFeeds text).flatMap fun character =>
    if character = '\n' then ['\r', '\n'] else [character]

/-- `json.dumps` of a tag and what it is the tag of. -/
def tagged (tag : String) (item : List Char) : String :=
  String.ofList (JsonText.array [JsonText.quoted tag.toList, item])

def booleanText (value : Bool) : List Char :=
  if value then "true".toList else "false".toList

/-- The texts of an array in the order of their code points. -/
def sortedTexts (texts : List (List Char)) : List (List Char) :=
  texts.mergeSort fun first second => decide (first ≤ second)

section Materials

variable (policy : BindingPolicy)

def scalarFieldTypes : List FieldType :=
  [.text, .textarea, .select, .radio, .date, .number, .email, .phone, .url]

/-- `str` of a value that is not a truth value or a tuple. -/
def scalarText : AnswerValue → Option String
  | .text value => some value
  | .int value => some (toString value)
  | .float value => some (policy.floatText value)
  | .flag _ | .texts _ => none

def greenhouseAnswerMaterial (field : FormFieldV1) (value : AnswerValue)
    (selectedCvHash : String) : Except String (String × ℕ) :=
  if field.fieldType ∈ booleanFieldTypes then
    match value with
    | .flag flag => .ok (tagged "b" (booleanText flag), if flag then 1 else 0)
    | _ => .error bindingInvalid
  else if field.fieldType = .multiSelect then
    match value with
    | .texts items =>
      let normalized := sortedTexts (items.map normalizedBreaks)
      .ok (tagged "m" (JsonText.array (normalized.map JsonText.quoted)), normalized.length)
    | _ => .error bindingInvalid
  else if field.fieldType = .file then
    if value == .text verifiedAttachmentSentinel && policy.fieldIsReviewedCvAttachment field
        && isSha256Digest selectedCvHash then
      .ok (tagged "f" (JsonText.quoted selectedCvHash.toList), 1)
    else .error bindingInvalid
  else if field.fieldType ∈ scalarFieldTypes then
    match scalarText policy value with
    | some text => .ok (tagged "s" (JsonText.quoted (normalizedBreaks text)), 1)
    | none => .error bindingInvalid
  else .error bindingInvalid

def greenhouseReviewedBlankMaterial (field : FormFieldV1) : Except String (String × ℕ) :=
  if field.required || policy.fieldRequiresOperatorReview field then .error bindingInvalid
  else
    match field.fieldType with
    | .text | .textarea | .select | .date | .number | .email | .phone | .url =>
      .ok (tagged "s" (JsonText.quoted []), 1)
    | .multiSelect => .ok (tagged "m" (JsonText.array []), 0)
    | .checkbox => .ok (tagged "b" (booleanText false), 0)
    | .radio | .file | .consent | .attestation | .unknown => .error bindingInvalid

/-- What is bound of one decision: blank only where the policy abstained. -/
def decisionMaterial (field : FormFieldV1) (decision : AnswerDecisionV1)
    (selectedCvHash : String) : Except String (String × ℕ) :=
  match decision.disposition, decision.value with
  | .resolved, some value => greenhouseAnswerMaterial policy field value selectedCvHash
  | .abstained, _ => greenhouseReviewedBlankMaterial policy field
  | _, _ => .error bindingInvalid

/-- One iteration of the loop over the fields. -/
def bindField (decisions : List AnswerDecisionV1) (selectedCvHash : String)
    (field : FormFieldV1) : Except String GreenhouseReviewedAnswerBinding :=
  match decisions.find? fun decision => decision.fieldId == field.fieldId with
  | none => .error bindingInvalid
  | some decision => do
      let (material, entryCount) ← decisionMaterial policy field decision selectedCvHash
      reviewedAnswerBinding field.fieldId field.fieldType (policy.sha256Hex material) entryCount

/-- `greenhouse_v1_reviewed_answer_bindings`. -/
def greenhouseReviewedAnswerBindings (fields : List FormFieldV1)
    (decisions : List AnswerDecisionV1) (selectedCvHash : String) :
    Except String (List GreenhouseReviewedAnswerBinding) := do
  let fieldIds := fields.map FormFieldV1.fieldId
  let decided := decisions.map AnswerDecisionV1.fieldId
  require (!fields.isEmpty && isUnique decided && isUnique fieldIds
    && decided.all fieldIds.contains && fieldIds.all decided.contains
    && isSha256Digest selectedCvHash) bindingInvalid
  let bindings ← fields.mapM (bindField policy decisions selectedCvHash)
  require (fields.countP (fun field => field.fieldType == .file) == 1) bindingInvalid
  return bindings

end Materials

end JobApplyAgent.Adapters
