import JobApplyAgent.Forms.PlanJson

/-!
# Stored plans

The row that a plan is stored in, and the two decoders that take a plan out of its row
again.  A column of JSON text is the tree that the text spells.
-/

namespace JobApplyAgent.Forms

open Domain Library

/-- A datetime without a zone, as the database keeps it; every reader takes it for UTC. -/
structure NaiveUtc where
  clock : Timestamp

def naiveUtc (time : Timestamp) : NaiveUtc :=
  ⟨time⟩

/-- `_aware_utc`, and `_aware` of the worker. -/
def awareUtc (value : NaiveUtc) : Timestamp :=
  value.clock

/-- The text of an identifier as the database keeps it. -/
def isCanonicalUuid (text : String) : Bool :=
  Library.isCanonicalUuid text.toList

/-- The two parsers of identifiers, `UUID(text)` and the one of the schema.  Each returns the
canonical text of what it parses. -/
structure UuidParsers where
  uuid : String → Option String
  validated : String → Option String
  uuid_canonical : ∀ text, isCanonicalUuid text = true → uuid text = some text
  validated_canonical : ∀ text, isCanonicalUuid text = true → validated text = some text

structure FormPlanRow where
  planId : String
  applicationId : ℕ
  applicationRevision : ℕ
  adapterName : String
  adapterVersion : String
  selectorVersion : String
  fingerprint : String
  selectedCvId : String
  selectedCvHash : String
  attachedCvId : Option String
  attachedCvHash : Option String
  attachmentVerified : Bool
  attachmentVerificationSource : Option String
  attachmentVerifiedAt : Option NaiveUtc
  profileVersion : Option ℕ
  fieldsJson : PlanJson
  disclosuresJson : PlanJson
  decisionsJson : PlanJson
  blockersJson : PlanJson
  locale : String
  answerPolicyVersion : String
  llmPromptVersion : Option String
  llmModelProvider : Option String
  llmModelName : Option String
  llmModelDigest : Option String
  sessionVerifiedAt : Option NaiveUtc
  createdAt : NaiveUtc
  expiresAt : NaiveUtc
  invalidatedAt : Option NaiveUtc
  invalidationReason : Option String

/-! ## Writing -/

def planColumns (plan : FormPlanV1) : FormPlanRow where
  planId := plan.contract.planId
  applicationId := plan.contract.applicationId
  applicationRevision := plan.contract.applicationRevision
  adapterName := plan.contract.adapterName
  adapterVersion := plan.contract.adapterVersion
  selectorVersion := plan.contract.selectorVersion
  fingerprint := plan.contract.formFingerprint
  selectedCvId := plan.contract.selectedCvId
  selectedCvHash := plan.contract.selectedCvHash
  attachedCvId := some plan.contract.attachedCvId
  attachedCvHash := some plan.contract.attachedCvHash
  attachmentVerified := plan.contract.attachmentVerified
  attachmentVerificationSource := none
  attachmentVerifiedAt := none
  profileVersion := some plan.contract.profileVersion
  fieldsJson := .list FormFieldV1.modelDump plan.fields
  disclosuresJson := .list FormDisclosureV1.modelDump plan.disclosures
  decisionsJson := .list AnswerDecisionV1.modelDump plan.decisions
  blockersJson := .list (fun blocker => .text (reasonCodeValue blocker)) plan.contract.blockers
  locale := plan.locale
  answerPolicyVersion := plan.contract.answerPolicyVersion
  llmPromptVersion := plan.contract.llmPromptVersion
  llmModelProvider := plan.contract.llmModelProvider
  llmModelName := plan.contract.llmModelName
  llmModelDigest := plan.contract.llmModelDigest
  sessionVerifiedAt := some (naiveUtc plan.contract.sessionVerifiedAt)
  createdAt := naiveUtc plan.contract.createdAt
  expiresAt := naiveUtc plan.contract.expiresAt
  invalidatedAt := none
  invalidationReason := none

def attachmentVerificationSource : String := "candidate_browser_upload_complete"

def inspectedRow (plan : FormPlanV1) : FormPlanRow :=
  { planColumns plan with
    attachmentVerificationSource :=
      if plan.contract.attachmentVerified then some attachmentVerificationSource else none
    attachmentVerifiedAt :=
      if plan.contract.attachmentVerified then some (naiveUtc plan.contract.createdAt) else none }

/-- The row of a clone; the evidence of the attachment and the times come from the row that
was confirmed. -/
def clonedRow (source : FormPlanRow) (clone : FormPlanV1) : FormPlanRow :=
  { planColumns clone with
    attachmentVerificationSource := source.attachmentVerificationSource
    attachmentVerifiedAt := source.attachmentVerifiedAt
    sessionVerifiedAt := source.sessionVerifiedAt
    createdAt := source.createdAt
    expiresAt := source.expiresAt }

/-! ## Decoding -/

def jsonArray (json : PlanJson) : Option PlanJson :=
  if json.isStrict PlanNumber.isFinite then some json else none

def jsonLoads (json : PlanJson) : Option PlanJson :=
  some json.keepLast

/-- A bounded text without the blanks around it. -/
def strippedText (text : String) : String :=
  String.ofList (strip text)

namespace FormPlanRow

variable (row : FormPlanRow)

/-- The plan that the columns are validated to; `loads` decodes a JSON column. -/
def validated (policy : PlanPolicy) (parseUuid : String → Option String)
    (loads : PlanJson → Option PlanJson) (locale answerPolicyVersion : String) :
    Option FormPlanV1 := do
  let fields ← Json.list? FormFieldV1.read (← loads row.fieldsJson)
  let disclosures ← Json.list? FormDisclosureV1.read (← loads row.disclosuresJson)
  let decisions ← Json.list? AnswerDecisionV1.read (← loads row.decisionsJson)
  let blockers ← Json.list? (PlanJson.token? reasonCodeValue reasonCodes) (← loads row.blockersJson)
  let contract : Domain.FormPlanV1 := {
    planId := ← parseUuid row.planId
    applicationId := row.applicationId
    applicationRevision := row.applicationRevision
    adapterName := strippedText row.adapterName
    adapterVersion := strippedText row.adapterVersion
    selectorVersion := strippedText row.selectorVersion
    formFingerprint := row.fingerprint
    selectedCvId := strippedText row.selectedCvId
    selectedCvHash := row.selectedCvHash
    attachedCvId := strippedText (← row.attachedCvId)
    attachedCvHash := ← row.attachedCvHash
    attachmentVerified := row.attachmentVerified
    profileVersion := ← row.profileVersion
    sessionVerifiedAt := awareUtc (← row.sessionVerifiedAt)
    createdAt := awareUtc row.createdAt
    expiresAt := awareUtc row.expiresAt
    blockers
    usesLocalLlm := decisions.any fun decision => decision.provenance == .localLlm
    answerPolicyVersion := strippedText answerPolicyVersion
    llmPromptVersion := row.llmPromptVersion.map strippedText
    llmModelProvider := row.llmModelProvider.map strippedText
    llmModelName := row.llmModelName.map strippedText
    llmModelDigest := row.llmModelDigest }
  let plan : FormPlanV1 :=
    { contract, fields, disclosures, decisions, locale := strippedText locale, localLlm := rfl }
  if plan.accepted policy then return plan else none

/-- `text or fallback`. -/
def textOr (fallback text : String) : String :=
  if text = "" then fallback else text

/-- Validate every persisted field through the immutable domain contract. -/
def reconstructPersistedFormPlan (policy : PlanPolicy) (uuids : UuidParsers) :
    Except String FormPlanV1 :=
  match row.validated policy uuids.validated jsonArray (textOr "en" row.locale)
      (textOr "answer-policy-v1" row.answerPolicyVersion) with
  | none => .error "FORM_PLAN_BLOCKED"
  | some plan => if plan.contract.planId = row.planId then .ok plan else .error "FORM_PLAN_BLOCKED"

def loadDomainPlan (policy : PlanPolicy) (uuids : UuidParsers) : Option FormPlanV1 :=
  row.validated policy uuids.uuid jsonLoads row.locale row.answerPolicyVersion

/-- The columns that the decoders read. -/
def unmarked : FormPlanRow :=
  { row with
    attachmentVerificationSource := none
    attachmentVerifiedAt := none
    invalidatedAt := none
    invalidationReason := none }

/-- The row was written for the plan. -/
def Holds (plan : FormPlanV1) : Prop :=
  row.unmarked = planColumns plan

end FormPlanRow

/-! ## A row decodes to its plan -/

variable {policy : PlanPolicy} {plan : FormPlanV1} {row : FormPlanRow}

variable {bound : ℕ}

theorem strippedText_of_within {text : String} (hwithin : isTextWithin bound text = true) :
    strippedText text = text := by
  rw [strippedText, (isTextWithin_iff.mp hwithin).1, String.ofList_toList]

theorem map_strippedText {text : Option String} (hwithin : text.all (isTextWithin bound) = true) :
    text.map strippedText = text := by
  cases text with
  | none => rfl
  | some found => rw [Option.map_some, strippedText_of_within hwithin]

section

variable (haccepted : plan.accepted policy = true)
include haccepted

theorem decision_finite (hdecision : decision ∈ plan.decisions) {value : AnswerValue}
    (hvalue : decision.value = some value) : value.isFinite = true := by
  obtain ⟨_, _, hanswers⟩ := accepted_iff.mp haccepted
  obtain ⟨field, _, hchecked⟩ := hanswers.observed decision hdecision
  have hdecided := hanswers.decided decision hdecision
  cases hdisposition : decision.disposition with
  | resolved =>
    simp only [validatePlanDecision, hdisposition] at hchecked
    by_cases hattachment : decision.provenance = .verifiedAttachment
    · obtain ⟨_, hattached, _⟩ := bind_eq_ok.mp hchecked
      simp only [validateAttachment, if_pos hattachment, require_eq_ok, Bool.and_eq_true,
        beq_iff_eq] at hattached
      obtain ⟨⟨⟨⟨⟨_, hsentinel⟩, _⟩, _⟩, _⟩, _⟩ := hattached
      cases hvalue.symm.trans hsentinel
      rfl
    · obtain ⟨found, hfound, hfits, _⟩ :=
        (validateResolvedDecision_eq_ok hchecked).value hattachment
      cases hvalue.symm.trans hfound
      exact hfits.isFinite
  | _ => simp [AnswerDecisionV1.validateDecision, hdisposition, hvalue, seq_eq_ok,
      require_eq_ok] at hdecided

theorem planColumns_strict :
    (planColumns plan).fieldsJson.isStrict PlanNumber.isFinite = true ∧
      (planColumns plan).disclosuresJson.isStrict PlanNumber.isFinite = true ∧
      (planColumns plan).decisionsJson.isStrict PlanNumber.isFinite = true ∧
      (planColumns plan).blockersJson.isStrict PlanNumber.isFinite = true := by
  refine ⟨Json.isStrict_list fun field _ => field.modelDump_strict,
    Json.isStrict_list fun disclosure _ => disclosure.modelDump_strict,
    Json.isStrict_list fun decision hdecision => ?_, Json.isStrict_list fun _ _ => rfl⟩
  exact AnswerDecisionV1.modelDump_strict fun _ hvalue =>
    decision_finite haccepted hdecision hvalue

/-- A decoder that keeps strict JSON and canonical identifiers gives the plan back. -/
theorem validated_planColumns (hparse : parseUuid plan.contract.planId = some plan.contract.planId)
    (hloads : ∀ json : PlanJson, json.isStrict PlanNumber.isFinite = true →
      loads json = some json) :
    (planColumns plan).validated policy parseUuid loads plan.locale
      plan.contract.answerPolicyVersion = some plan := by
  obtain ⟨hfields, hdisclosures, hdecisions, hblockers⟩ := planColumns_strict haccepted
  obtain ⟨hschema, _, _⟩ := accepted_iff.mp haccepted
  simp only [FormPlanV1.withinSchema, FormPlanV1.bindingsWithinSchema, Bool.and_eq_true,
    List.all_cons, List.all_nil, and_true, List.all_eq_true] at hschema
  have hreadFields : Json.list? FormFieldV1.read (planColumns plan).fieldsJson
      = some plan.fields :=
    Json.list?_list_of_mem fun field hfield =>
      FormFieldV1.read_modelDump (hschema.1.1.1.1.1.2 field hfield)
  have hreadDisclosures : Json.list? FormDisclosureV1.read (planColumns plan).disclosuresJson
      = some plan.disclosures :=
    Json.list?_list_of_mem fun disclosure hdisclosure =>
      FormDisclosureV1.read_modelDump (hschema.1.1.1.2 disclosure hdisclosure)
  have hreadDecisions : Json.list? AnswerDecisionV1.read (planColumns plan).decisionsJson
      = some plan.decisions :=
    Json.list?_list_of_mem fun decision hdecision =>
      AnswerDecisionV1.read_modelDump (hschema.1.2 decision hdecision)
  have hreadBlockers : Json.list? (PlanJson.token? reasonCodeValue reasonCodes)
      (planColumns plan).blockersJson = some plan.contract.blockers :=
    Json.list?_list (fun blocker => PlanJson.token?_text (by decide)
      (fun member => by cases member <;> decide) blocker) _
  obtain ⟨⟨⟨⟨_, hname, hversion, hselector, hcv, hattached, hlocale, hanswerPolicy⟩, _⟩,
    hprompt, hprovider, hmodel⟩, _⟩ := hschema.1.1.1.1.1.1.1
  simp only [FormPlanRow.validated, hloads _ hfields, hloads _ hdisclosures, hloads _ hdecisions,
    hloads _ hblockers, hreadFields, hreadDisclosures, hreadDecisions, hreadBlockers,
    Option.bind_eq_bind, Option.bind_some]
  simp only [planColumns, hparse, Option.bind_some, naiveUtc, awareUtc,
    strippedText_of_within hname, strippedText_of_within hversion,
    strippedText_of_within hselector, strippedText_of_within hcv,
    strippedText_of_within hattached, strippedText_of_within hlocale,
    strippedText_of_within hanswerPolicy, map_strippedText hprompt, map_strippedText hprovider,
    map_strippedText hmodel]
  obtain ⟨contract, fields, disclosures, decisions, locale, hlocal⟩ := plan
  cases contract
  cases hlocal
  exact if_pos haccepted

end

theorem jsonArray_strict (json : PlanJson) (hstrict : json.isStrict PlanNumber.isFinite = true) :
    jsonArray json = some json :=
  if_pos hstrict

theorem jsonLoads_strict (json : PlanJson) (hstrict : json.isStrict PlanNumber.isFinite = true) :
    jsonLoads json = some json :=
  congrArg some (Json.keepLast_of_isStrict json hstrict)

theorem accepted_texts (haccepted : plan.accepted policy = true) :
    plan.locale ≠ "" ∧ plan.contract.answerPolicyVersion ≠ "" := by
  obtain ⟨hschema, _, _⟩ := accepted_iff.mp haccepted
  simp only [FormPlanV1.withinSchema, FormPlanV1.bindingsWithinSchema, Bool.and_eq_true,
    List.all_cons, List.all_nil, and_true] at hschema
  obtain ⟨⟨⟨⟨_, _, _, _, _, _, hlocale, hanswerPolicy⟩, _⟩, _⟩, _⟩ := hschema.1.1.1.1.1.1.1
  exact ⟨(isTextWithin_iff.mp hlocale).2.1, (isTextWithin_iff.mp hanswerPolicy).2.1⟩

theorem inspectedRow_holds (plan : FormPlanV1) : (inspectedRow plan).Holds plan := rfl

namespace FormPlanRow

/-- Both decoders give back the plan that a row holds. -/
structure Decodes (policy : PlanPolicy) (uuids : UuidParsers) (row : FormPlanRow)
    (plan : FormPlanV1) : Prop where
  reconstructed : row.reconstructPersistedFormPlan policy uuids = .ok plan
  loaded : row.loadDomainPlan policy uuids = some plan

/-- A row that holds an accepted plan is decoded to it. -/
theorem Holds.decodes (hholds : row.Holds plan) (haccepted : plan.accepted policy = true)
    (hcanonical : isCanonicalUuid plan.contract.planId = true) :
    row.Decodes policy uuids plan := by
  have hcolumns : ∀ parseUuid loads locale answerPolicyVersion,
      row.validated policy parseUuid loads locale answerPolicyVersion =
        (planColumns plan).validated policy parseUuid loads locale answerPolicyVersion := by
    intro parseUuid loads locale answerPolicyVersion
    rw [← hholds]
    rfl
  have hlocale : row.locale = plan.locale := congrArg FormPlanRow.locale hholds
  have hversion : row.answerPolicyVersion = plan.contract.answerPolicyVersion :=
    congrArg FormPlanRow.answerPolicyVersion hholds
  have hid : plan.contract.planId = row.planId := (congrArg FormPlanRow.planId hholds).symm
  obtain ⟨hlocaleText, hversionText⟩ := accepted_texts haccepted
  constructor
  · rw [reconstructPersistedFormPlan, hcolumns, hlocale, hversion, textOr, if_neg hlocaleText,
      textOr, if_neg hversionText,
      validated_planColumns haccepted (uuids.validated_canonical _ hcanonical) jsonArray_strict]
    exact if_pos hid
  · rw [loadDomainPlan, hcolumns, hlocale, hversion,
      validated_planColumns haccepted (uuids.uuid_canonical _ hcanonical) jsonLoads_strict]

theorem Holds.clonedRow (hholds : source.Holds plan)
    (hsession : clone.contract.sessionVerifiedAt = plan.contract.sessionVerifiedAt)
    (hcreated : clone.contract.createdAt = plan.contract.createdAt)
    (hexpires : clone.contract.expiresAt = plan.contract.expiresAt) :
    (clonedRow source clone).Holds clone := by
  have hsessionAt : source.sessionVerifiedAt = some (naiveUtc plan.contract.sessionVerifiedAt) :=
    congrArg FormPlanRow.sessionVerifiedAt hholds
  have hcreatedAt : source.createdAt = naiveUtc plan.contract.createdAt :=
    congrArg FormPlanRow.createdAt hholds
  have hexpiresAt : source.expiresAt = naiveUtc plan.contract.expiresAt :=
    congrArg FormPlanRow.expiresAt hholds
  simp only [Holds, unmarked, Forms.clonedRow, planColumns, hsessionAt, hcreatedAt, hexpiresAt,
    hsession, hcreated, hexpires]

end FormPlanRow

end JobApplyAgent.Forms
