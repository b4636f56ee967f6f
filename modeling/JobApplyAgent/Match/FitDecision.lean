import JobApplyAgent.Forms.Acceptance
import JobApplyAgent.Library.Json

/-!
# Fit decisions

The quality decision about one job: its evidence, its thresholds, and what the validators
accept.  A decision carries their acceptance, so that one that contradicts its evidence
cannot be built.
-/

namespace JobApplyAgent.Match

open Library
open Forms (PyFloat isSha256Digest)

abbrev JsonValue := Json PyFloat

/-- A finite number within bounds. -/
def within (low high : ℚ) : PyFloat → Bool
  | .finite value => decide (low ≤ value) && decide (value ≤ high)
  | _ => false

/-- `first < second`; a comparison with no number is false. -/
def isBelow : PyFloat → PyFloat → Bool
  | .finite first, .finite second => decide (first < second)
  | .finite _, .infinite negative => !negative
  | .infinite negative, .finite _ => negative
  | .infinite first, .infinite second => first && !second
  | _, _ => false

/-- `_REASON_PATTERN`. -/
def isReasonCode (text : String) : Bool :=
  match text.toList with
  | [] => false
  | first :: rest =>
    first.isUpper && rest.all (fun character =>
        character.isUpper || character.isDigit || character == '_')
      && decide (1 ≤ rest.length) && decide (rest.length ≤ 63)

/-! ## Evidence -/

inductive FitFactor where
  | role
  | skills
  | location
  | seniority
  | employment
  | experience
  | languageAuthorization
  deriving DecidableEq

def FitFactor.token : FitFactor → String
  | role => "role"
  | skills => "skills"
  | location => "location"
  | seniority => "seniority"
  | employment => "employment"
  | experience => "experience"
  | languageAuthorization => "language_authorization"

def FitFactor.all : List FitFactor :=
  [role, skills, location, seniority, employment, experience, languageAuthorization]

inductive FitResult where
  | matched
  | partialMatch
  | unknown
  | unmatched
  | excluded
  deriving DecidableEq

def FitResult.token : FitResult → String
  | matched => "matched"
  | partialMatch => "partial"
  | unknown => "unknown"
  | unmatched => "unmatched"
  | excluded => "excluded"

def FitResult.all : List FitResult :=
  [matched, partialMatch, unknown, unmatched, excluded]

inductive FitDisposition where
  | excluded
  | needsReview
  | eligible
  deriving DecidableEq

def FitDisposition.value : FitDisposition → String
  | excluded => "excluded"
  | needsReview => "needs_review"
  | eligible => "eligible"

def FitDisposition.all : List FitDisposition :=
  [excluded, needsReview, eligible]

/-- One factor's result. -/
structure FitEvidenceV1 where
  factor : FitFactor
  result : FitResult
  points : PyFloat
  maximumPoints : PyFloat
  reasonCodes : List String
  deriving DecidableEq

def FitEvidenceV1.accepted (evidence : FitEvidenceV1) : Bool :=
  within 0 100 evidence.points
    && isBelow (.finite 0) evidence.maximumPoints && within 0 100 evidence.maximumPoints
    && decide (evidence.reasonCodes.length ≤ 12)
    && evidence.reasonCodes.all isReasonCode
    && decide evidence.reasonCodes.Nodup

structure FitThresholdsV1 where
  minimumFitScore : PyFloat
  minimumRoutingConfidence : PyFloat
  minimumRoutingMargin : PyFloat
  deriving DecidableEq

def defaultThresholds : FitThresholdsV1 where
  minimumFitScore := .finite 85
  minimumRoutingConfidence := .finite (55 / 100)
  minimumRoutingMargin := .finite (8 / 100)

def FitThresholdsV1.accepted (thresholds : FitThresholdsV1) : Bool :=
  within 85 100 thresholds.minimumFitScore
    && within 0 1 thresholds.minimumRoutingConfidence
    && within 0 1 thresholds.minimumRoutingMargin

/-! ## Decisions -/

def fitPolicyVersion : String := "job-fit-policy.v1"

def fitModelIdentity : String := "deterministic:job-fit-v1"

/-- The fields of a decision; its schema version has one value and is not stored. -/
structure DecisionFields where
  jobDigest : String
  profileVersion : Option ℤ
  routingConfigDigest : String
  cvManifestDigest : String
  selectedCvId : Option String
  selectedCvHash : Option String
  routingConfidence : PyFloat
  routingMargin : PyFloat
  routingFallbackReason : Option String
  fitScore : PyFloat
  disposition : FitDisposition
  qualityEligible : Bool
  hardExclusions : List String
  uncertainty : List String
  unsupportedRequiredSkills : List String
  evidence : List FitEvidenceV1
  policyVersion : String
  modelIdentity : String
  thresholds : FitThresholdsV1
  qualificationDigest : Option String
  deriving DecidableEq

namespace DecisionFields

variable (decision : DecisionFields)

/-- The bounds of the fields. -/
def withinSchema : Bool :=
  isSha256Digest decision.jobDigest
    && decision.profileVersion.all (fun version => decide (1 ≤ version))
    && isSha256Digest decision.routingConfigDigest
    && isSha256Digest decision.cvManifestDigest
    && decision.selectedCvId.all (fun id => decide (id.length ≤ 255))
    && decision.selectedCvHash.all isSha256Digest
    && within 0 1 decision.routingConfidence
    && within 0 1 decision.routingMargin
    && decision.routingFallbackReason.all (fun reason => decide (reason.length ≤ 64))
    && within 0 100 decision.fitScore
    && decide (decision.hardExclusions.length ≤ 20)
    && decide (decision.uncertainty.length ≤ 30)
    && decide (decision.unsupportedRequiredSkills.length ≤ 100)
    && decide (decision.evidence.length = 7)
    && decision.evidence.all FitEvidenceV1.accepted
    && decision.policyVersion == fitPolicyVersion
    && decision.modelIdentity == fitModelIdentity
    && decision.thresholds.accepted
    && decision.qualificationDigest.all isSha256Digest

def stableReasons (reasons : List String) : Bool :=
  reasons.all isReasonCode && decide reasons.Nodup

def contradicted : Bool :=
  decision.disposition != .eligible
    || !decision.hardExclusions.isEmpty
    || !decision.uncertainty.isEmpty
    || !decision.unsupportedRequiredSkills.isEmpty
    || decision.routingFallbackReason.isSome
    || decision.selectedCvId.isNone
    || decision.selectedCvHash.isNone
    || decision.qualificationDigest.isNone
    || isBelow decision.fitScore decision.thresholds.minimumFitScore
    || isBelow decision.routingConfidence decision.thresholds.minimumRoutingConfidence
    || isBelow decision.routingMargin decision.thresholds.minimumRoutingMargin

def eligibilityIsConsistent : Bool :=
  !(decision.selectedCvHash.isSome && decision.selectedCvId.isNone)
    && if decision.qualityEligible then !decision.contradicted
      else decision.disposition != .eligible

def accepted : Bool :=
  decision.withinSchema && stableReasons decision.hardExclusions
    && stableReasons decision.uncertainty && decision.eligibilityIsConsistent

end DecisionFields

/-- A decision that the validators accept. -/
structure JobFitDecisionV1 extends DecisionFields where
  valid : toDecisionFields.accepted = true
  deriving DecidableEq

/-- `JobFitDecisionV1.model_validate`, once the fields are read. -/
def JobFitDecisionV1.validate (fields : DecisionFields) : Option JobFitDecisionV1 :=
  if hvalid : fields.accepted = true then some ⟨fields, hvalid⟩ else none

theorem JobFitDecisionV1.validate_fields (decision : JobFitDecisionV1) :
    validate decision.toDecisionFields = some decision :=
  dif_pos decision.valid

/-! ## Dumps -/

/-- `item.model_dump(mode="json")`, its names in order. -/
def FitEvidenceV1.modelDump (evidence : FitEvidenceV1) : JsonValue :=
  .object [("factor", .text evidence.factor.token),
    ("maximum_points", .number evidence.maximumPoints),
    ("points", .number evidence.points),
    ("reason_codes", .list .text evidence.reasonCodes),
    ("result", .text evidence.result.token)]

def FitThresholdsV1.modelDump (thresholds : FitThresholdsV1) : JsonValue :=
  .object [("minimum_fit_score", .number thresholds.minimumFitScore),
    ("minimum_routing_confidence", .number thresholds.minimumRoutingConfidence),
    ("minimum_routing_margin", .number thresholds.minimumRoutingMargin)]

def schemaVersion : String := "job-fit-decision.v1"

def DecisionFields.modelDump (decision : DecisionFields) : JsonValue :=
  .object [("cv_manifest_digest", .text decision.cvManifestDigest),
    ("disposition", .text decision.disposition.value),
    ("evidence", .list FitEvidenceV1.modelDump decision.evidence),
    ("fit_score", .number decision.fitScore),
    ("hard_exclusions", .list .text decision.hardExclusions),
    ("job_digest", .text decision.jobDigest),
    ("model_identity", .text decision.modelIdentity),
    ("policy_version", .text decision.policyVersion),
    ("profile_version", .optional (fun version => .number (.finite version))
      decision.profileVersion),
    ("qualification_digest", .optional .text decision.qualificationDigest),
    ("quality_eligible", .bool decision.qualityEligible),
    ("routing_confidence", .number decision.routingConfidence),
    ("routing_config_digest", .text decision.routingConfigDigest),
    ("routing_fallback_reason", .optional .text decision.routingFallbackReason),
    ("routing_margin", .number decision.routingMargin),
    ("schema_version", .text schemaVersion),
    ("selected_cv_hash", .optional .text decision.selectedCvHash),
    ("selected_cv_id", .optional .text decision.selectedCvId),
    ("thresholds", decision.thresholds.modelDump),
    ("uncertainty", .list .text decision.uncertainty),
    ("unsupported_required_skills", .list .text decision.unsupportedRequiredSkills)]

def FitEvidenceV1.read (json : JsonValue) : Option FitEvidenceV1 :=
  if json.hasOnly ["factor", "result", "points", "maximum_points", "reason_codes"] then do
    let factor ← (← json.member? "factor").text?
    let result ← (← json.member? "result").text?
    return {
      factor := ← ofToken FitFactor.token FitFactor.all factor
      result := ← ofToken FitResult.token FitResult.all result
      points := ← (← json.member? "points").number?
      maximumPoints := ← (← json.member? "maximum_points").number?
      reasonCodes := ← json.memberOr "reason_codes" (Json.list? Json.text?) (some []) }
  else none

def FitThresholdsV1.read (json : JsonValue) : Option FitThresholdsV1 :=
  if json.hasOnly ["minimum_fit_score", "minimum_routing_confidence",
      "minimum_routing_margin"] then do
    return {
      minimumFitScore := ← json.memberOr "minimum_fit_score" Json.number?
        (some defaultThresholds.minimumFitScore)
      minimumRoutingConfidence := ← json.memberOr "minimum_routing_confidence" Json.number?
        (some defaultThresholds.minimumRoutingConfidence)
      minimumRoutingMargin := ← json.memberOr "minimum_routing_margin" Json.number?
        (some defaultThresholds.minimumRoutingMargin) }
  else none

theorem FitEvidenceV1.read_modelDump (evidence : FitEvidenceV1) :
    FitEvidenceV1.read evidence.modelDump = some evidence := by
  obtain ⟨factor, result, points, maximumPoints, reasonCodes⟩ := evidence
  have hfactor : ofToken FitFactor.token FitFactor.all factor.token = some factor :=
    ofToken_token (by decide) (by cases factor <;> decide)
  have hresult : ofToken FitResult.token FitResult.all result.token = some result :=
    ofToken_token (by decide) (by cases result <;> decide)
  have hreasons := @Json.list?_texts PyFloat reasonCodes
  simp [read, modelDump, Json.hasOnly, Json.member?, Json.memberOr, Json.text?, Json.number?,
    List.lookup_cons, hfactor, hresult, hreasons]

theorem FitThresholdsV1.read_modelDump (thresholds : FitThresholdsV1) :
    FitThresholdsV1.read thresholds.modelDump = some thresholds := by
  simp [read, modelDump, Json.hasOnly, Json.member?, Json.memberOr, Json.number?, List.lookup_cons]

end JobApplyAgent.Match
