import JobApplyAgent.Forms.Acceptance
import JobApplyAgent.Library.Json

/-!
# The JSON of a plan

What the parts of a plan are dumped to, and how the schema reads them again.  A reader
takes what a dump spells; other spellings that lax validation would convert stand in no row.
The bounds of a read part are left to the check of the whole plan.
-/

namespace JobApplyAgent.Forms

open Domain Library

/-- A number of a JSON text, with or without a fraction. -/
inductive PlanNumber where
  | int (value : ℤ)
  | float (value : PyFloat)

abbrev PlanJson := Json PlanNumber

def PlanNumber.isFinite : PlanNumber → Bool
  | .int _ => true
  | .float (.finite _) => true
  | .float _ => false

/-! ## Enumerations -/

def FieldType.all : List FieldType :=
  [text, textarea, select, multiSelect, radio, checkbox, date, number, email, phone, url, file,
    consent, attestation, unknown]

def SensitiveCategory.value : SensitiveCategory → String
  | authorization => "authorization"
  | sponsorship => "sponsorship"
  | nationality => "nationality"
  | citizenship => "citizenship"
  | clearance => "clearance"
  | licensing => "licensing"
  | certification => "certification"
  | demographic => "demographic"
  | consent => "consent"
  | attestation => "attestation"

def SensitiveCategory.all : List SensitiveCategory :=
  [authorization, sponsorship, nationality, citizenship, clearance, licensing, certification,
    demographic, consent, attestation]

def DisclosureKind.value : DisclosureKind → String
  | privacyPolicy => "privacy_policy"
  | noPrivacyPolicyNotice => "no_privacy_policy_notice"
  | aiDisclosure => "ai_disclosure"
  | imprint => "imprint"
  | diversity => "diversity"
  | information => "information"

def DisclosureKind.all : List DisclosureKind :=
  [privacyPolicy, noPrivacyPolicyNotice, aiDisclosure, imprint, diversity, information]

def DisclosureSource.value : DisclosureSource → String
  | inline => "inline"
  | link => "link"
  | synthetic => "synthetic"

def DisclosureSource.all : List DisclosureSource :=
  [inline, link, synthetic]

def AnswerDisposition.value : AnswerDisposition → String
  | resolved => "resolved"
  | abstained => "abstained"
  | operatorRequired => "operator_required"
  | operatorConfirmedBlank => "operator_confirmed_blank"

def AnswerDisposition.all : List AnswerDisposition :=
  [resolved, abstained, operatorRequired, operatorConfirmedBlank]

def AnswerProvenance.value : AnswerProvenance → String
  | deterministicIdentity => "deterministic_identity"
  | userConfirmed => "user_confirmed"
  | operatorApprovedReusable => "operator_approved_reusable"
  | cvEvidence => "cv_evidence"
  | localLlm => "local_llm"
  | verifiedAttachment => "verified_attachment"
  | operatorConfirmed => "operator_confirmed"
  | abstained => "abstained"

def AnswerProvenance.all : List AnswerProvenance :=
  [deterministicIdentity, userConfirmed, operatorApprovedReusable, cvEvidence, localLlm,
    verifiedAttachment, operatorConfirmed, abstained]

def reasonCodes : List ReasonCode :=
  [.runtimeNotReady, .buildMismatch, .adapterNotQualified, .sessionExpired, .mfaRequired,
    .challengeDetected, .formChanged, .formPlanIncomplete, .requiredFieldUnknown,
    .attachmentUnverified, .finalActionUnconfirmed, .alreadyApplied, .jobClosed, .selectorDrift,
    .staleIndeterminate, .dryRunDiscarded, .draftOnly, .permitMissing, .permitExpired,
    .permitReplayed, .permitBindingMismatch, .commandExpired, .commandReplayed, .governorDenied,
    .operatorCancelled, .evidenceInvalid, .unsupportedControl, .networkError, .internalError,
    .profileVersionNotFound, .profileSnapshotInvalid, .llmUnavailable, .llmModelMissing,
    .llmTimeout, .llmCircuitOpen, .llmSchemaInvalid, .unsupportedClaim, .answerPolicyChanged]

/-! ## Parts of a dump -/

namespace PlanJson

def count (value : ℕ) : PlanJson :=
  .number (.int value)

def double (value : ℚ) : PlanJson :=
  .number (.float (.finite value))

/-- An integer that is not negative. -/
def count? : PlanJson → Option ℕ
  | .number (.int value) => if 0 ≤ value then some value.toNat else none
  | _ => none

def double? : PlanJson → Option ℚ
  | .number (.int value) => intToDouble value
  | .number (.float (.finite value)) => some value
  | _ => none

/-- A text without the blanks around it. -/
def stripped? (json : PlanJson) : Option String :=
  json.text?.map fun text => String.ofList (strip text)

/-- A member of an enumeration. -/
def token? {α : Type} (token : α → String) (members : List α) (json : PlanJson) : Option α :=
  json.text?.bind (ofToken token members)

theorem count?_count (value : ℕ) : count? (count value) = some value := by
  simp [count, count?]

theorem double?_double (value : ℚ) : double? (double value) = some value := rfl

theorem stripped?_text {text : String} (hwithin : isTextWithin bound text = true) :
    stripped? (.text text) = some text := by
  rw [stripped?, Json.text?, Option.map_some, (isTextWithin_iff.mp hwithin).1,
    String.ofList_toList]

theorem token?_text {α : Type} [DecidableEq α] {token : α → String} {members : List α}
    (hdistinct : (members.map token).Nodup) (hall : ∀ member, member ∈ members) (member : α) :
    token? token members (.text (token member)) = some member :=
  ofToken_token hdistinct (hall member)

end PlanJson

/-! ## Dumps -/

open PlanJson (count double count? double? stripped? token?)

def FormOptionV1.modelDump (option : FormOptionV1) : PlanJson :=
  .object [("option_id", .optional .text option.optionId),
    ("value", .text option.value),
    ("label", .text option.label),
    ("disabled", .bool option.disabled)]

def FormFieldConstraintsV1.modelDump (constraints : FormFieldConstraintsV1) : PlanJson :=
  .object [("min_length", .optional count constraints.minLength),
    ("max_length", .optional count constraints.maxLength),
    ("min_value", .optional double constraints.minValue),
    ("max_value", .optional double constraints.maxValue),
    ("pattern", .optional .text constraints.pattern),
    ("accepted_file_types", .list .text constraints.acceptedFileTypes),
    ("max_file_bytes", .optional count constraints.maxFileBytes),
    ("multiple", .bool constraints.multiple)]

def FormFieldV1.modelDump (field : FormFieldV1) : PlanJson :=
  .object [("field_id", .text field.fieldId),
    ("canonical_name", .optional .text field.canonicalName),
    ("label", .text field.label),
    ("field_type", .text field.fieldType.value),
    ("required", .bool field.required),
    ("position", count field.position),
    ("options", .list FormOptionV1.modelDump field.options),
    ("constraints", field.constraints.modelDump),
    ("sensitive_category", .optional (fun category => .text category.value)
      field.sensitiveCategory)]

def FormDisclosureV1.modelDump (disclosure : FormDisclosureV1) : PlanJson :=
  .object [("disclosure_id", .text disclosure.disclosureId),
    ("kind", .text disclosure.kind.value),
    ("source", .text disclosure.source.value),
    ("position", count disclosure.position),
    ("summary", .text disclosure.summary),
    ("content_sha256", .text disclosure.contentSha256),
    ("reference_sha256", .text disclosure.referenceSha256),
    ("acknowledgement_field_id", .optional .text disclosure.acknowledgementFieldId)]

def AnswerValue.modelDump : AnswerValue → PlanJson
  | .text value => .text value
  | .flag value => .bool value
  | .int value => .number (.int value)
  | .float value => .number (.float value)
  | .texts values => .list .text values

def AnswerDecisionV1.modelDump (decision : AnswerDecisionV1) : PlanJson :=
  .object [("field_id", .text decision.fieldId),
    ("disposition", .text decision.disposition.value),
    ("provenance", .text decision.provenance.value),
    ("value", .optional AnswerValue.modelDump decision.value),
    ("confidence", .optional double decision.confidence),
    ("evidence_refs", .list .text decision.evidenceRefs),
    ("reason_code", .optional (fun reason => .text (reasonCodeValue reason)) decision.reasonCode)]

/-! ## Readers -/

def FormOptionV1.read (json : PlanJson) : Option FormOptionV1 :=
  if json.hasOnly ["option_id", "value", "label", "disabled"] then do
    return {
      optionId := ← json.memberOr "option_id" (Json.optional? stripped?) (some none)
      value := ← stripped? (← json.member? "value")
      label := ← stripped? (← json.member? "label")
      disabled := ← json.memberOr "disabled" Json.bool? (some false) }
  else none

def FormFieldConstraintsV1.read (json : PlanJson) : Option FormFieldConstraintsV1 :=
  if json.hasOnly ["min_length", "max_length", "min_value", "max_value", "pattern",
      "accepted_file_types", "max_file_bytes", "multiple"] then do
    return {
      minLength := ← json.memberOr "min_length" (Json.optional? count?) (some none)
      maxLength := ← json.memberOr "max_length" (Json.optional? count?) (some none)
      minValue := ← json.memberOr "min_value" (Json.optional? double?) (some none)
      maxValue := ← json.memberOr "max_value" (Json.optional? double?) (some none)
      pattern := ← json.memberOr "pattern" (Json.optional? stripped?) (some none)
      acceptedFileTypes := ← json.memberOr "accepted_file_types" (Json.list? stripped?) (some [])
      maxFileBytes := ← json.memberOr "max_file_bytes" (Json.optional? count?) (some none)
      multiple := ← json.memberOr "multiple" Json.bool? (some false) }
  else none

def FormFieldV1.read (json : PlanJson) : Option FormFieldV1 :=
  if json.hasOnly ["field_id", "canonical_name", "label", "field_type", "required", "position",
      "options", "constraints", "sensitive_category"] then do
    return {
      fieldId := ← stripped? (← json.member? "field_id")
      canonicalName := ← json.memberOr "canonical_name" (Json.optional? stripped?) (some none)
      label := ← stripped? (← json.member? "label")
      fieldType := ← token? FieldType.value FieldType.all (← json.member? "field_type")
      required := ← (← json.member? "required").bool?
      position := ← count? (← json.member? "position")
      options := ← json.memberOr "options" (Json.list? FormOptionV1.read) (some [])
      constraints := ← json.memberOr "constraints" FormFieldConstraintsV1.read
        (some noConstraints)
      sensitiveCategory := ← json.memberOr "sensitive_category"
        (Json.optional? (token? SensitiveCategory.value SensitiveCategory.all)) (some none) }
  else none

def FormDisclosureV1.read (json : PlanJson) : Option FormDisclosureV1 :=
  if json.hasOnly ["disclosure_id", "kind", "source", "position", "summary", "content_sha256",
      "reference_sha256", "acknowledgement_field_id"] then do
    return {
      disclosureId := ← stripped? (← json.member? "disclosure_id")
      kind := ← token? DisclosureKind.value DisclosureKind.all (← json.member? "kind")
      source := ← token? DisclosureSource.value DisclosureSource.all (← json.member? "source")
      position := ← count? (← json.member? "position")
      summary := ← stripped? (← json.member? "summary")
      contentSha256 := ← (← json.member? "content_sha256").text?
      referenceSha256 := ← (← json.member? "reference_sha256").text?
      acknowledgementFieldId := ← json.memberOr "acknowledgement_field_id"
        (Json.optional? stripped?) (some none) }
  else none

def AnswerValue.read : PlanJson → Option AnswerValue
  | .text value => some (.text value)
  | .bool value => some (.flag value)
  | .number (.int value) => some (.int value)
  | .number (.float value) => some (.float value)
  | .array items => (items.mapM Json.text?).map .texts
  | _ => none

def AnswerDecisionV1.read (json : PlanJson) : Option AnswerDecisionV1 :=
  if json.hasOnly ["field_id", "disposition", "provenance", "value", "confidence",
      "evidence_refs", "reason_code"] then do
    return {
      fieldId := ← stripped? (← json.member? "field_id")
      disposition := ← token? AnswerDisposition.value AnswerDisposition.all
        (← json.member? "disposition")
      provenance := ← token? AnswerProvenance.value AnswerProvenance.all
        (← json.member? "provenance")
      value := ← json.memberOr "value" (Json.optional? AnswerValue.read) (some none)
      confidence := ← json.memberOr "confidence" (Json.optional? double?) (some none)
      evidenceRefs := ← json.memberOr "evidence_refs" (Json.list? stripped?) (some [])
      reasonCode := ← json.memberOr "reason_code"
        (Json.optional? (token? reasonCodeValue reasonCodes)) (some none) }
  else none

/-! ## Reading what was dumped -/

theorem optional_stripped {text : Option String} (hwithin : text.all (isTextWithin bound) = true) :
    Json.optional? stripped? (Json.optional .text text) = some text := by
  apply Json.optional?_optional _ rfl
  rintro found rfl
  exact PlanJson.stripped?_text hwithin

theorem optional_count (value : Option ℕ) :
    Json.optional? count? (Json.optional count value) = some value :=
  Json.optional?_optional (fun found _ => PlanJson.count?_count found) rfl

theorem optional_double (value : Option ℚ) :
    Json.optional? double? (Json.optional double value) = some value :=
  Json.optional?_optional (fun found _ => PlanJson.double?_double found) rfl

theorem list_stripped (hwithin : texts.all (isTextWithin bound) = true) :
    Json.list? stripped? (Json.list .text texts) = some texts := by
  have hread : ∀ text ∈ texts, stripped? (Json.text text) = some text := fun text htext =>
    PlanJson.stripped?_text (List.all_eq_true.mp hwithin text htext)
  exact Json.list?_list_of_mem hread

theorem FormOptionV1.read_modelDump (hschema : option.withinSchema = true) :
    FormOptionV1.read option.modelDump = some option := by
  simp only [withinSchema, Bool.and_eq_true] at hschema
  obtain ⟨⟨hid, hvalue⟩, hlabel⟩ := hschema
  simp [read, modelDump, Json.hasOnly, Json.member?, Json.memberOr, Json.bool?, List.lookup_cons,
    optional_stripped hid, PlanJson.stripped?_text hvalue, PlanJson.stripped?_text hlabel]

theorem FormFieldConstraintsV1.read_modelDump (hschema : constraints.withinSchema = true) :
    FormFieldConstraintsV1.read constraints.modelDump = some constraints := by
  simp only [withinSchema, Bool.and_eq_true] at hschema
  obtain ⟨⟨⟨hpattern, _⟩, htypes⟩, _⟩ := hschema
  simp [read, modelDump, Json.hasOnly, Json.member?, Json.memberOr, Json.bool?, List.lookup_cons,
    optional_count, optional_double, optional_stripped hpattern, list_stripped htypes]

/-- A field is read back from what is written of it. -/
theorem FormFieldV1.read_modelDump (hschema : field.withinSchema = true) :
    FormFieldV1.read field.modelDump = some field := by
  simp only [withinSchema, Bool.and_eq_true] at hschema
  obtain ⟨⟨⟨⟨⟨hid, hname⟩, hlabel⟩, _⟩, hoptions⟩, hconstraints⟩ := hschema
  have htype : token? FieldType.value FieldType.all (.text field.fieldType.value)
      = some field.fieldType :=
    PlanJson.token?_text (by decide) (fun member => by cases member <;> decide) _
  have hcategory : Json.optional? (token? SensitiveCategory.value SensitiveCategory.all)
      (Json.optional (fun category => .text category.value) field.sensitiveCategory)
      = some field.sensitiveCategory :=
    Json.optional?_optional (fun found _ =>
      PlanJson.token?_text (by decide) (fun member => by cases member <;> decide) found) rfl
  have hread : Json.list? FormOptionV1.read (Json.list FormOptionV1.modelDump field.options)
      = some field.options :=
    Json.list?_list_of_mem fun option hoption =>
      FormOptionV1.read_modelDump (List.all_eq_true.mp hoptions option hoption)
  simp [read, modelDump, Json.hasOnly, Json.member?, Json.memberOr, Json.bool?, List.lookup_cons,
    PlanJson.stripped?_text hid, optional_stripped hname, PlanJson.stripped?_text hlabel, htype,
    PlanJson.count?_count, hread, FormFieldConstraintsV1.read_modelDump hconstraints, hcategory]

theorem FormDisclosureV1.read_modelDump (hschema : disclosure.withinSchema = true) :
    FormDisclosureV1.read disclosure.modelDump = some disclosure := by
  simp only [withinSchema, Bool.and_eq_true] at hschema
  obtain ⟨⟨⟨⟨hid, hsummary⟩, _⟩, _⟩, hfield⟩ := hschema
  have hkind : token? DisclosureKind.value DisclosureKind.all (.text disclosure.kind.value)
      = some disclosure.kind :=
    PlanJson.token?_text (by decide) (fun member => by cases member <;> decide) _
  have hsource : token? DisclosureSource.value DisclosureSource.all
      (.text disclosure.source.value) = some disclosure.source :=
    PlanJson.token?_text (by decide) (fun member => by cases member <;> decide) _
  simp [read, modelDump, Json.hasOnly, Json.member?, Json.memberOr, Json.text?, List.lookup_cons,
    PlanJson.stripped?_text hid, hkind, hsource, PlanJson.count?_count,
    PlanJson.stripped?_text hsummary, optional_stripped hfield]

theorem AnswerValue.read_modelDump (value : AnswerValue) :
    AnswerValue.read value.modelDump = some value := by
  cases value with
  | texts values =>
    change (Json.list? Json.text? (Json.list Json.text values)).map AnswerValue.texts = _
    rw [Json.list?_texts, Option.map_some]
  | _ => rfl

/-- A decision is read back from what is written of it. -/
theorem AnswerDecisionV1.read_modelDump {decision : AnswerDecisionV1}
    (hschema : decision.withinSchema = true) :
    AnswerDecisionV1.read decision.modelDump = some decision := by
  simp only [withinSchema, Bool.and_eq_true] at hschema
  obtain ⟨⟨⟨hid, _⟩, _⟩, hrefs⟩ := hschema
  have hdisposition : token? AnswerDisposition.value AnswerDisposition.all
      (.text decision.disposition.value) = some decision.disposition :=
    PlanJson.token?_text (by decide) (fun member => by cases member <;> decide) _
  have hprovenance : token? AnswerProvenance.value AnswerProvenance.all
      (.text decision.provenance.value) = some decision.provenance :=
    PlanJson.token?_text (by decide) (fun member => by cases member <;> decide) _
  have hvalue : Json.optional? AnswerValue.read (Json.optional AnswerValue.modelDump decision.value)
      = some decision.value :=
    Json.optional?_optional (fun found _ => AnswerValue.read_modelDump found) rfl
  have hreason : Json.optional? (token? reasonCodeValue reasonCodes)
      (Json.optional (fun reason => .text (reasonCodeValue reason)) decision.reasonCode)
      = some decision.reasonCode :=
    Json.optional?_optional (fun found _ =>
      PlanJson.token?_text (by decide) (fun member => by cases member <;> decide) found) rfl
  simp [read, modelDump, Json.hasOnly, Json.member?, Json.memberOr, List.lookup_cons,
    PlanJson.stripped?_text hid, hdisposition, hprovenance, hvalue, optional_double,
    list_stripped hrefs, hreason]

/-! ## Strict decoding -/

def AnswerValue.isFinite (value : AnswerValue) : Bool :=
  value.modelDump.isStrict PlanNumber.isFinite

theorem isStrict_optional_text (text : Option String) :
    (Json.optional .text text : PlanJson).isStrict PlanNumber.isFinite = true :=
  Json.isStrict_optional fun _ _ => rfl

theorem isStrict_optional_count (value : Option ℕ) :
    (Json.optional count value).isStrict PlanNumber.isFinite = true :=
  Json.isStrict_optional fun _ _ => rfl

theorem isStrict_optional_double (value : Option ℚ) :
    (Json.optional double value).isStrict PlanNumber.isFinite = true :=
  Json.isStrict_optional fun _ _ => rfl

theorem isStrict_count (value : ℕ) : (count value).isStrict PlanNumber.isFinite = true := rfl

theorem FormOptionV1.modelDump_strict (option : FormOptionV1) :
    option.modelDump.isStrict PlanNumber.isFinite = true := by
  simp [modelDump, Json.isStrict, Json.membersStrict, isStrict_optional_text]

theorem FormFieldConstraintsV1.modelDump_strict (constraints : FormFieldConstraintsV1) :
    constraints.modelDump.isStrict PlanNumber.isFinite = true := by
  simp [modelDump, Json.isStrict, Json.membersStrict, isStrict_optional_text,
    isStrict_optional_count, isStrict_optional_double, Json.isStrict_texts]

theorem FormFieldV1.modelDump_strict (field : FormFieldV1) :
    field.modelDump.isStrict PlanNumber.isFinite = true := by
  have hoptions : (Json.list FormOptionV1.modelDump field.options).isStrict PlanNumber.isFinite
      = true :=
    Json.isStrict_list fun option _ => option.modelDump_strict
  have hcategory : (Json.optional (fun category => .text category.value)
      field.sensitiveCategory : PlanJson).isStrict PlanNumber.isFinite = true :=
    Json.isStrict_optional fun _ _ => rfl
  simp [modelDump, Json.isStrict, Json.membersStrict, isStrict_optional_text, isStrict_count,
    hoptions, FormFieldConstraintsV1.modelDump_strict, hcategory]

theorem FormDisclosureV1.modelDump_strict (disclosure : FormDisclosureV1) :
    disclosure.modelDump.isStrict PlanNumber.isFinite = true := by
  simp [modelDump, Json.isStrict, Json.membersStrict, isStrict_optional_text, isStrict_count]

theorem AnswerDecisionV1.modelDump_strict {decision : AnswerDecisionV1}
    (hvalue : ∀ value, decision.value = some value → value.isFinite = true) :
    decision.modelDump.isStrict PlanNumber.isFinite = true := by
  have hreason : (Json.optional (fun reason => .text (reasonCodeValue reason))
      decision.reasonCode : PlanJson).isStrict PlanNumber.isFinite = true :=
    Json.isStrict_optional fun _ _ => rfl
  have hdumped : (Json.optional AnswerValue.modelDump decision.value).isStrict PlanNumber.isFinite
      = true :=
    Json.isStrict_optional hvalue
  simp [modelDump, Json.isStrict, Json.membersStrict, isStrict_optional_double,
    Json.isStrict_texts, hreason, hdumped]

theorem FitsField.isFinite {value : AnswerValue}
    (hfits : FitsField policy field value) : value.isFinite = true := by
  cases hfits with
  | flag _ | text _ _ _ _ _ | choice _ => rfl
  | choices _ => exact Json.isStrict_texts _
  | number _ hdouble _ _ =>
    cases value with
    | int number => rfl
    | float number =>
      cases number with
      | finite number => rfl
      | infinite negative => cases hdouble
      | nan => cases hdouble
    | _ => cases hdouble

end JobApplyAgent.Forms
