import JobApplyAgent.Domain.Contracts
import JobApplyAgent.Library.Text
import Mathlib.Data.Rat.Defs

/-!
# Observed form fields

The fields of an application form as the inspection observes them, and the
classification of a field: what it asks for, whether an operator has to review it
and whether it may be left blank.
-/

namespace JobApplyAgent.Forms

open Domain Library

inductive FieldType where
  | text
  | textarea
  | select
  | multiSelect
  | radio
  | checkbox
  | date
  | number
  | email
  | phone
  | url
  | file
  | consent
  | attestation
  | unknown
  deriving DecidableEq

def FieldType.value : FieldType → String
  | .text => "text"
  | .textarea => "textarea"
  | .select => "select"
  | .multiSelect => "multi_select"
  | .radio => "radio"
  | .checkbox => "checkbox"
  | .date => "date"
  | .number => "number"
  | .email => "email"
  | .phone => "phone"
  | .url => "url"
  | .file => "file"
  | .consent => "consent"
  | .attestation => "attestation"
  | .unknown => "unknown"

inductive SensitiveCategory where
  | authorization
  | sponsorship
  | nationality
  | citizenship
  | clearance
  | licensing
  | certification
  | demographic
  | consent
  | attestation
  deriving DecidableEq

structure FormOptionV1 where
  optionId : Option String
  value : String
  label : String
  disabled : Bool
  deriving DecidableEq

/-- Browser constraints; the bounds of a number are finite doubles. -/
structure FormFieldConstraintsV1 where
  minLength : Option ℕ
  maxLength : Option ℕ
  minValue : Option ℚ
  maxValue : Option ℚ
  pattern : Option String
  acceptedFileTypes : List String
  maxFileBytes : Option ℕ
  multiple : Bool
  deriving DecidableEq

structure FormFieldV1 where
  fieldId : String
  canonicalName : Option String
  label : String
  fieldType : FieldType
  required : Bool
  position : ℕ
  options : List FormOptionV1
  constraints : FormFieldConstraintsV1
  sensitiveCategory : Option SensitiveCategory
  deriving DecidableEq

/-- The parts of an absolute URL that `urlsplit` finds. -/
structure SplitUrl where
  scheme : String
  hostname : Option String
  username : Option String
  password : Option String

/-- Unicode, the reviewed tables and the regular expressions that classify a text.
What a plan guarantees does not depend on them. -/
structure TextPolicy where
  casefold : String → String
  isWord : Char → Bool
  decimal : Char → Option ℕ
  urlsplit : String → Option SplitUrl
  sha256Hex : String → String
  normalizePolicyText : String → String
  normalizeFieldSemantics : String → String
  canonicalSensitiveKey : String → String
  isSensitiveFactKey : String → Bool
  containsSensitiveText : String → Bool
  containsPromptInjection : String → Bool
  sensitiveFieldMarkers : List String
  promptInjectionMarkers : List String
  canonicalLabelAliases : List (String × List String)
  semanticLabelWrappers : List (String × String)

/-- `part in text`. -/
def containsText (text part : String) : Bool :=
  text.toList.tails.any fun rest => part.toList.isPrefixOf rest

/-- The phrase occurs with no word character before or after it. -/
def hasBoundedPhrase (isWord : Char → Bool) (phrase : List Char) : Bool → List Char → Bool
  | bounded, text =>
    (bounded && phrase.isPrefixOf text && !(text.drop phrase.length).head?.any isWord)
      || match text with
        | [] => false
        | character :: rest => hasBoundedPhrase isWord phrase (!isWord character) rest

/-- The maximal runs of lowercase letters, `re.findall("[a-z]+", text)`. -/
def lowercaseWords (text : String) : List (List Char) :=
  (text.toList.splitBy fun first second => first.isLower && second.isLower).filter
    fun word => word.all Char.isLower

namespace TextPolicy

variable (policy : TextPolicy)

def isHebrew (character : Char) : Bool :=
  decide (0x590 ≤ character.toNat ∧ character.toNat ≤ 0x5ff)

def hasBoundedOptionPhrase (value phrase : String) : Bool :=
  hasBoundedPhrase (fun character => policy.isWord character || isHebrew character)
    phrase.toList true value.toList

def optionText (option : FormOptionV1) : String :=
  " ".intercalate [option.optionId.getD "", option.value, option.label]

def fieldPolicyText (field : FormFieldV1) : String :=
  let rawParts := [field.canonicalName.getD "", field.label]
    ++ field.options.flatMap (fun option => [option.optionId.getD "", option.value, option.label])
    ++ field.options.map (fun option => option.optionId.getD "")
    ++ field.options.map FormOptionV1.value
    ++ field.options.map FormOptionV1.label
    ++ field.constraints.pattern.getD "" :: field.constraints.acceptedFileTypes
  let raw := (policy.casefold (" ".intercalate rawParts)).toList.map fun character =>
    if character = '_' then ' ' else character
  String.ofList (raw.filter fun character => !(['/', '.', '\u00b7'].contains character))

def optionSetIndicatesProtectedClass (field : FormFieldV1) : Bool :=
  let optionTexts := (field.options.filter fun option => !option.disabled).map fun option =>
    policy.normalizeFieldSemantics (optionText option)
  let found := fun markers : List String => markers.filter fun marker =>
    optionTexts.any fun text => policy.hasBoundedOptionPhrase text marker
  let race := found ["hispanic or latino", "black or african american", "native hawaiian",
    "pacific islander", "middle eastern or north african", "american indian", "alaska native",
    "two or more races", "white", "black", "asian"]
  let religion := found ["jewish", "christian", "muslim", "hindu", "atheist", "buddhist", "sikh",
    "no religion"]
  let gender := found ["man", "woman", "male", "female", "non binary", "transgender man",
    "transgender woman"]
  (decide (2 ≤ race.length) && race.any fun marker => !(["white", "black"].contains marker))
    || decide (2 ≤ religion.length) || decide (2 ≤ gender.length)

def optionSetHasInjectionSignature (field : FormFieldV1) : Bool :=
  let aggregate := policy.normalizePolicyText (" ".intercalate (field.options.flatMap
    fun option => [option.optionId.getD "", option.value, option.label]))
  let tokens := lowercaseWords aggregate
  let meets := fun words : List String => words.any fun word => tokens.contains word.toList
  meets ["ignore", "disregard", "override"]
    && meets ["previous", "prior", "system", "developer"]
    && meets ["instruction", "instructions", "prompt", "message"]

/-- Fail closed on typed, canonical, or label evidence of a sensitive field. -/
def fieldIsSensitive (field : FormFieldV1) : Bool :=
  let text := policy.fieldPolicyText field
  field.sensitiveCategory.isSome
    || decide (field.fieldType = .consent ∨ field.fieldType = .attestation)
    || field.canonicalName.any (fun name => name != "" && policy.isSensitiveFactKey name)
    || policy.optionSetIndicatesProtectedClass field
    || policy.containsSensitiveText text
    || policy.sensitiveFieldMarkers.any (containsText text)
    || hasBoundedPhrase policy.isWord "age".toList true text.toList
    || hasBoundedPhrase policy.isWord "sex".toList true text.toList

/-- Block sensitive or adversarial field instructions from automation. -/
def fieldRequiresOperatorReview (field : FormFieldV1) : Bool :=
  let text := policy.fieldPolicyText field
  policy.fieldIsSensitive field
    || policy.optionSetHasInjectionSignature field
    || policy.containsPromptInjection text
    || policy.promptInjectionMarkers.any (containsText text)

/-- Allow only safe optional controls to be explicitly left blank. -/
def fieldAllowsOperatorConfirmedBlank (field : FormFieldV1) : Bool :=
  if field.required || policy.fieldRequiresOperatorReview field then
    false
  else if [FieldType.file, .consent, .attestation, .unknown].contains field.fieldType then
    false
  else
    field.constraints.minLength.all fun length => length == 0

/-- The labels that a reviewed canonical name may stand under. -/
def approvedLabels (aliases : List String) : List String :=
  aliases.flatMap fun label => policy.semanticLabelWrappers.map fun wrapper =>
    policy.normalizeFieldSemantics
      (wrapper.1 ++ policy.normalizeFieldSemantics label ++ wrapper.2)

/-- Require an exact reviewed semantic match before trusting a canonical key. -/
def fieldCanonicalLabelCompatible (field : FormFieldV1) : Bool :=
  match field.canonicalName with
  | none => true
  | some name =>
    if name = "" then
      true
    else
      let canonical := policy.canonicalSensitiveKey name
      if canonical = "" then
        false
      else
        let phrase := policy.normalizeFieldSemantics
          (String.ofList (canonical.toList.map fun character =>
            if character = '_' then ' ' else character))
        let aliases := (policy.canonicalLabelAliases.lookup canonical).getD [phrase]
        (policy.approvedLabels aliases).contains (policy.normalizeFieldSemantics field.label)

/-- Recognize only reviewed resume and CV upload controls. -/
def fieldIsReviewedCvAttachment (field : FormFieldV1) : Bool :=
  if field.fieldType ≠ .file then
    false
  else
    let canonical := policy.canonicalSensitiveKey (field.canonicalName.getD "")
    if canonical ≠ "" then
      ["resume", "resume_upload", "cv", "cv_upload"].contains canonical
        && policy.fieldCanonicalLabelCompatible field
    else
      let aliases := ["resume", "cv"].flatMap fun name =>
        (policy.canonicalLabelAliases.lookup name).getD []
      (policy.approvedLabels aliases).contains (policy.normalizeFieldSemantics field.label)

def canonicalSensitiveCategory (canonicalName : String) : Option SensitiveCategory :=
  let key := policy.canonicalSensitiveKey canonicalName
  let mentions := fun markers : List String => markers.any (containsText key)
  if key = "" || !policy.isSensitiveFactKey key then
    none
  else if mentions ["consent"] || ["privacy", "terms_accepted"].contains key then
    some .consent
  else if mentions ["attest", "declaration"] then
    some .attestation
  else if mentions ["sponsor", "visa"] then
    some .sponsorship
  else if mentions ["nationality", "national_origin", "country_of_origin"] then
    some .nationality
  else if mentions ["citizen", "country_of_citizenship"] then
    some .citizenship
  else if mentions ["clearance", "security_vetting", "background_check", "itar",
      "export_control", "protected_person"] then
    some .clearance
  else if mentions ["license", "licensing", "bar_admission", "bar_membership",
      "professional_registration"] then
    some .licensing
  else if mentions ["certif", "credential"] then
    some .certification
  else if mentions ["authorization", "authorisation", "right_to_work", "right_of_abode",
      "work_permit", "permit_to_work", "employment_eligibility", "eligible_to_work"] then
    some .authorization
  else if mentions ["age", "birth", "demographic", "disab", "ethnic", "gender", "indigenous",
      "marital", "military", "national_service", "army_service", "pronoun", "race", "religion",
      "sexual", "veteran"] then
    some .demographic
  else
    none

/-- The canonical key, the observed label and the sensitive category agree. -/
def fieldHasScopedSensitiveSemantics (field : FormFieldV1) : Bool :=
  match field.fieldType with
  | .consent => decide (field.sensitiveCategory = some .consent)
  | .attestation => decide (field.sensitiveCategory = some .attestation)
  | _ =>
    match field.canonicalName with
    | none => false
    | some name =>
      if name = "" || !policy.fieldCanonicalLabelCompatible field then
        false
      else
        let expected := policy.canonicalSensitiveCategory name
        expected.isSome
          && (field.sensitiveCategory.isNone || field.sensitiveCategory == expected)

end TextPolicy

end JobApplyAgent.Forms
