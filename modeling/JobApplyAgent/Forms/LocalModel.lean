import JobApplyAgent.Forms.AnswerSources

/-!
# The local model

What a local model may be asked of a field, and how its reply is held against the facts
that it cites.
-/

namespace JobApplyAgent.Forms

open Domain Library

/-! ## Reviewed label semantics -/

def llmFieldSemanticPatterns : List (String × List String) :=
  [("primary_language", ["primary programming language", "שפת תכנות עיקרית"]),
    ("backend_framework", ["backend framework", "מסגרת פיתוח צד שרת"]),
    ("database_skill", ["database technology", "טכנולוגיית מסדי נתונים"]),
    ("cloud_platform", ["cloud platform", "פלטפורמת ענן"]),
    ("container_platform", ["container platform", "פלטפורמת קונטיינרים"]),
    ("iac_tool", ["infrastructure as code tool", "כלי תשתית כקוד"]),
    ("data_tool", ["distributed data tool", "כלי נתונים מבוזר"]),
    ("ml_framework", ["machine learning framework", "מסגרת מודלים"]),
    ("frontend_language", ["frontend language", "שפת צד לקוח"]),
    ("frontend_framework", ["frontend framework", "מסגרת פיתוח צד לקוח"]),
    ("test_framework", ["testing framework", "מסגרת בדיקות"]),
    ("automation_tool", ["browser automation tool", "כלי אוטומציית דפדפן"]),
    ("operating_system", ["operating system", "מערכת הפעלה"]),
    ("embedded_language", ["embedded programming language", "שפת תכנות משובצת"]),
    ("realtime_system", ["real time operating system", "מערכת הפעלה בזמן אמת"]),
    ("analytics_tool", ["analytics visualization tool", "כלי המחשה אנליטי"]),
    ("pipeline_tool", ["data pipeline tool", "כלי צינור נתונים"]),
    ("api_style", ["api design style", "סגנון תכנון ממשק"]),
    ("version_control", ["version control system", "מערכת ניהול גרסאות"]),
    ("highest_degree", ["highest academic degree", "תואר אקדמי גבוה ביותר"])]

def llmSynthesisFieldPatterns : List String :=
  ["relevant technical experience", "provide one relevant technical experience",
    "ניסיון טכני רלוונטי", "נא לציין ניסיון טכני רלוונטי אחד"]

def llmSynthesisAllowedEvidenceKeys : List String :=
  llmFieldSemanticPatterns.map Prod.fst ++ ["relevant_experience", "technical_summary"]

section Semantics

variable (policy : PlanningPolicy)

def labelKeys (frames : String → List String) (field : FormFieldV1) : List String :=
  (llmFieldSemanticPatterns.filter fun entry => entry.2.any fun phrase =>
    (frames (policy.normalizePolicyText phrase)).contains
      (policy.normalizePolicyText field.label)).map Prod.fst

/-- The frames of a question for one technical experience. -/
def synthesisFrames (phrase : String) : List String :=
  ["relevant technical experience: " ++ phrase,
    "provide one relevant technical experience about " ++ phrase,
    "ניסיון טכני רלוונטי: " ++ phrase,
    "נא לציין ניסיון טכני רלוונטי לגבי " ++ phrase]

/-- The frames of a question for the fact itself. -/
def directFrames (phrase : String) : List String :=
  [phrase, "provide the candidate's " ++ phrase, "נא לציין את " ++ phrase]

/-- Map only reviewed, non-sensitive label semantics to evidence keys. -/
def allowedLlmEvidenceKeys (field : FormFieldV1) : List String :=
  let canonical := canonicalField policy field
  if canonical ≠ "" then
    if ["relevant_experience", "technical_summary"].contains canonical then
      canonical :: llmSynthesisAllowedEvidenceKeys
    else [canonical]
  else if (llmSynthesisFieldPatterns.map policy.normalizePolicyText).contains
      (policy.normalizePolicyText field.label) then
    llmSynthesisAllowedEvidenceKeys
  else
    match labelKeys policy synthesisFrames field with
    | [key] => [key]
    | _ =>
      match labelKeys policy directFrames field with
      | [key] => [key]
      | _ => []

/-- One exact label-to-fact mapping that needs no model synthesis. -/
def directReviewedSemanticKey (field : FormFieldV1) : String :=
  if field.canonicalName.any (· != "") then ""
  else
    match labelKeys policy directFrames field with
    | [key] => key
    | _ => ""

/-- The key under which stored evidence answers the field. -/
def evidenceCanonical (field : FormFieldV1) : String :=
  let canonical := canonicalField policy field
  if canonical = "" then directReviewedSemanticKey policy field else canonical

end Semantics

/-! ## The local model -/

/-- What the code reads of the identity of a model; a part that is no text is missing. -/
structure ModelIdentity where
  isLocal : Bool
  provider : Option String
  model : Option String
  digest : Option String

/-- One bounded, schema-validated answer of the model. -/
structure LLMFieldAnswerV1 where
  value : AnswerValue
  confidence : ℚ
  evidenceRefs : List String
  bounded : 0 ≤ confidence ∧ confidence ≤ 1 ∧ evidenceRefs.length ≤ maxEvidenceRefs ∧
    evidenceRefs.Nodup ∧ ∀ reference ∈ evidenceRefs,
      hasInk reference = true ∧ reference.length ≤ 255

/-- The call of the model raises, or it returns a payload, which may fail the schema. -/
inductive LlmReply where
  | raised (reasonCode : String)
  | generated (identity : Option ModelIdentity) (payload : Option LLMFieldAnswerV1)

/-- What the client shows and gives at one call. -/
structure LlmTurn where
  clientIdentity : Option ModelIdentity
  reply : LlmReply

/-- A fact that the model may cite, under its reference. -/
structure CatalogFact where
  reference : String
  key : String
  text : String

def confirmedFactRef (key : String) : String :=
  "profile:user_confirmed:" ++ key

def cvFactRef (hash key : String) : String :=
  "cv:" ++ hash ++ ":" ++ key

def maxCatalogFacts : ℕ := 40

def llmReason (reasonCode : String) : ReasonCode :=
  if ["LLM_MODEL_NOT_READY", "LLM_MODEL_NOT_LOCAL"].contains reasonCode then .llmModelMissing
  else if reasonCode = "LLM_DEADLINE_EXCEEDED" then .llmTimeout
  else if reasonCode = "LLM_CIRCUIT_OPEN" then .llmCircuitOpen
  else if reasonCode = "LLM_OUTPUT_INVALID" then .llmSchemaInvalid
  else .llmUnavailable

section LocalLlm

variable (policy : PlanningPolicy)

/-- The facts of allowed keys in the order of their keys, each as a safe excerpt. -/
def safeFacts (reference : String → String) (allowed : List String) (facts : Facts) :
    List CatalogFact :=
  (facts.mergeSort fun first second => decide (first.1 ≤ second.1)).filterMap fun (key, value) =>
    let excerpt := Materials.nonSensitiveCvExcerpt policy.characters policy.content value.toList 500
    if allowed.contains key && !excerpt.isEmpty then
      some ⟨reference key, key, String.ofList excerpt⟩
    else none

/-- The bounded facts that the model may cite for the field. -/
def evidenceCatalog (field : FormFieldV1) (context : AnswerPolicyContext) : List CatalogFact :=
  let allowed := allowedLlmEvidenceKeys policy field
  let cvFacts := (selectedCvFacts policy context).filter fun entry =>
    !policy.isSensitiveFactKey entry.1
  (safeFacts policy confirmedFactRef allowed (llmSafeConfirmedFacts policy context.profile)
    ++ safeFacts policy (cvFactRef context.selectedCvHash) allowed cvFacts).take maxCatalogFacts

def catalogText (catalog : List CatalogFact) (reference : String) : Option String :=
  (catalog.find? fun fact => fact.reference == reference).map CatalogFact.text

def citedCanonical (reference : String) : String :=
  let confirmed := "profile:user_confirmed:".toList
  if confirmed.isPrefixOf reference.toList then
    canonicalFactKey policy (String.ofList (reference.toList.drop confirmed.length))
  else if "cv:".toList.isPrefixOf reference.toList then
    match (reference.toList.drop 3).dropWhile (· != ':') with
    | [] => ""
    | _ :: key => canonicalFactKey policy (String.ofList key)
  else ""

/-- The coercion of a text, which raises nothing. -/
def coerceFact (field : FormFieldV1) (text : String) : Option AnswerValue :=
  match coerceAnswer policy field (.text text) with
  | .ok value => value
  | .error _ => none

/-- Both are coerced to one control, so that only a number that is none differs from itself. -/
def sameAnswer (first second : AnswerValue) : Bool :=
  decide (first = second) && first != .float .nan

def exactControls : List FieldType :=
  [.select, .radio, .multiSelect, .checkbox, .number, .date, .email, .phone, .url]

def makeEvidenceItem (sourceKind : Materials.SourceKind) (sourceRef text : String) :
    Materials.EvidenceItem :=
  let clean := Materials.clean policy.characters text.toList
  let kind := match sourceKind with
    | .cv => "cv"
    | .userConfirmed => "user_confirmed"
  let digest := policy.sha256Hex (kind ++ ":" ++ sourceRef ++ "\x00"
    ++ String.ofList (Materials.normalized policy.characters clean))
  { evidenceId := "ev_" ++ String.ofList (digest.toList.take 24)
    sourceKind
    sourceRef
    text := String.ofList clean }

/-- The prose is the text of its citations, by the validator of material claims. -/
def proseSupported (field : FormFieldV1) (claimText : String) (cited : List (String × String)) :
    Bool :=
  let items := cited.map fun (reference, text) =>
    makeEvidenceItem policy
      (if "cv:".toList.isPrefixOf reference.toList then .cv else .userConfirmed)
      (policy.sha256Hex reference) text
  let claim : Materials.DraftClaim :=
    { claimId := "claim_form_" ++ String.ofList ((policy.sha256Hex field.fieldId).toList.take 16)
      claimText
      evidenceQuotes := items.map fun item => ⟨item.evidenceId, item.text⟩ }
  (Materials.validateClaimEvidence policy.characters policy.content [claimText] [claim]
    items).eligible

/-- Deterministically prove cited evidence supports the proposed answer. -/
def llmAnswerSupported (field : FormFieldV1) (value : AnswerValue) (evidenceRefs : List String)
    (catalog : List CatalogFact) : Bool :=
  let allowed := allowedLlmEvidenceKeys policy field
  let cited := evidenceRefs.filterMap fun reference =>
    (catalogText catalog reference).map fun text => (reference, text)
  if allowed.isEmpty
      || evidenceRefs.any fun reference => !allowed.contains (citedCanonical policy reference) then
    false
  else if exactControls.contains field.fieldType then
    cited.any fun (_, text) => (coerceFact policy field text).any (sameAnswer · value)
  else if field.fieldType = .text ∨ field.fieldType = .textarea then
    match value with
    | .text text => proseSupported policy field text cited
    | _ => false
  else
    false

/-- Render prose from one exact cited fact instead of trusting a paraphrase. -/
def evidenceBoundLlmValue (field : FormFieldV1) (typed : LLMFieldAnswerV1)
    (catalog : List CatalogFact) : Except PlanFault (Option AnswerValue) :=
  if field.fieldType = .text ∨ field.fieldType = .textarea then
    match typed.evidenceRefs with
    | [reference] =>
      .ok ((catalogText catalog reference).bind (coerceFact policy field))
    | _ => .ok none
  else
    coerceAnswer policy field typed.value.toPyValue

/-- The decision, the identity of the model that was asked, and the reason of an abstention. -/
structure LlmOutcome where
  decision : Option AnswerDecisionV1
  identity : Option ModelIdentity
  reason : Option ReasonCode

/-- The reply that passed the schema, held against the catalog. -/
def checkedReply (field : FormFieldV1) (catalog : List CatalogFact) (typed : LLMFieldAnswerV1) :
    Except PlanFault (Option AnswerDecisionV1) :=
  if typed.evidenceRefs.isEmpty
      || typed.evidenceRefs.any fun reference => (catalogText catalog reference).isNone then
    .ok none
  else do
    match ← evidenceBoundLlmValue policy field typed catalog with
    | none => .ok none
    | some value =>
      if llmAnswerSupported policy field value typed.evidenceRefs catalog then
        (answerDecision
          { fieldId := field.fieldId
            disposition := .resolved
            provenance := .localLlm
            value := some value
            confidence := some typed.confidence
            evidenceRefs := typed.evidenceRefs
            reasonCode := none }).map some
      else .ok none

def localLlm (field : FormFieldV1) (context : AnswerPolicyContext) (turn : Option LlmTurn) :
    Except PlanFault LlmOutcome :=
  match turn with
  | none => .ok ⟨none, none, none⟩
  | some turn =>
    if turn.clientIdentity.any fun identity => !identity.isLocal then
      .ok ⟨none, none, some .llmUnavailable⟩
    else if (allowedLlmEvidenceKeys policy field).isEmpty
        || (evidenceCatalog policy field context).isEmpty then
      .ok ⟨none, none, some .unsupportedClaim⟩
    else
      match turn.reply with
      | .raised reasonCode => .ok ⟨none, none, some (llmReason reasonCode)⟩
      | .generated identity none => .ok ⟨none, identity, some .llmSchemaInvalid⟩
      | .generated identity (some typed) => do
          match ← checkedReply policy field (evidenceCatalog policy field context) typed with
          | none => .ok ⟨none, identity, some .unsupportedClaim⟩
          | some decision => .ok ⟨some decision, identity, none⟩

end LocalLlm

end JobApplyAgent.Forms
