import JobApplyAgent.Forms.LocalModel
import JobApplyAgent.Forms.Acceptance

/-!
# Field planning

Each field is resolved by a fixed precedence of sources, the last of which is the local
model; what no source resolves is an abstention with its blockers.
-/

namespace JobApplyAgent.Forms

open Domain Library

/-- The next source is asked when the first one has no answer. -/
def orTry {α : Type} (first next : Except PlanFault (Option α)) : Except PlanFault (Option α) :=
  match first with
  | .ok none => next
  | other => other

theorem orTry_eq_ok_some {α : Type} {first next : Except PlanFault (Option α)} {value : α} :
    orTry first next = .ok (some value) ↔
      first = .ok (some value) ∨ first = .ok none ∧ next = .ok (some value) := by
  cases first with
  | error => simp [orTry]
  | ok found => cases found <;> simp [orTry]

section Fields

variable (policy : PlanningPolicy)

/-- A field under review whose label and canonical name do not agree. -/
def ambiguousSensitiveIdentity (field : FormFieldV1) : Bool :=
  policy.fieldRequiresOperatorReview field && !policy.fieldHasScopedSensitiveSemantics field

def automaticResolutionAllowed (field : FormFieldV1) : Bool :=
  policy.fieldCanonicalLabelCompatible field && !ambiguousSensitiveIdentity policy field
    && field.fieldType != .file

/-- Whether the canonical fact name belongs to the reviewed semantic registry. -/
def fieldHasReviewedCanonicalName (field : FormFieldV1) : Bool :=
  field.canonicalName.any fun name =>
    name != "" && (policy.canonicalLabelAliases.lookup (policy.canonicalSensitiveKey name)).isSome

/-- Why a field abstains that no source was asked for. -/
def unaskedReason (field : FormFieldV1) : Option ReasonCode :=
  if field.fieldType = .file ∧ policy.fieldIsReviewedCvAttachment field = true then
    some .attachmentUnverified
  else if canonicalField policy field ≠ "" ∧ policy.fieldCanonicalLabelCompatible field = false
      ∧ fieldHasReviewedCanonicalName policy field = false then
    some .unsupportedClaim
  else none

/-- The double nearest to 0.95. -/
def cvConfidence : ℚ := 4278419646001971 / 4503599627370496

def identityDecision (field : FormFieldV1) (context : AnswerPolicyContext) :
    Except PlanFault (Option AnswerDecisionV1) :=
  let raw :=
    if automaticResolutionAllowed policy field then
      match identityValue policy field context.profile with
      | some value => .text value
      | none => .null
    else .null
  resolvedDecision policy field raw .deterministicIdentity
    ("profile:identity:" ++ canonicalField policy field) 1

/-- Stored evidence of one kind, where the field may be resolved from it. -/
def evidenceDecision (field : FormFieldV1) (fact : Option String) (allowed confirmed : Bool)
    (provenance : AnswerProvenance) (reference : String) (confidence : ℚ) :
    Except PlanFault (Option AnswerDecisionV1) :=
  if evidenceCanonical policy field ≠ "" ∧ allowed = true then
    match fact with
    | none => .ok none
    | some fact => do
        if ← evidenceValueIsSafe policy field (.text fact) confirmed then
          resolvedDecision policy field (.text fact) provenance reference confidence
        else
          .ok none
  else
    .ok none

def confirmedDecision (field : FormFieldV1) (context : AnswerPolicyContext) :
    Except PlanFault (Option AnswerDecisionV1) :=
  let key := evidenceCanonical policy field
  evidenceDecision policy field (confirmedFact policy context.profile key)
    (automaticResolutionAllowed policy field) true .userConfirmed (confirmedFactRef key) 1

def approvedDecision (rows : List OperatorApprovedAnswer) (field : FormFieldV1)
    (context : AnswerPolicyContext) : Except PlanFault (Option AnswerDecisionV1) :=
  if automaticResolutionAllowed policy field then operatorApproved policy rows field context
  else .ok none

def cvDecision (field : FormFieldV1) (context : AnswerPolicyContext) :
    Except PlanFault (Option AnswerDecisionV1) :=
  let key := evidenceCanonical policy field
  evidenceDecision policy field ((selectedCvFacts policy context).lookup key)
    (automaticResolutionAllowed policy field && !policy.fieldRequiresOperatorReview field) false
    .cvEvidence (cvFactRef context.selectedCvHash key) cvConfidence

/-- The sources before the model, in their order. -/
def storedDecision (rows : List OperatorApprovedAnswer) (context : AnswerPolicyContext)
    (field : FormFieldV1) : Except PlanFault (Option AnswerDecisionV1) :=
  orTry (.ok (verifiedAttachmentDecision policy field context))
    (orTry (identityDecision policy field context)
      (orTry (confirmedDecision policy field context)
        (orTry (approvedDecision policy rows field context) (cvDecision policy field context))))

/-- Provider, name and digest of the model that answers a plan. -/
structure ModelAudit where
  provider : String
  model : String
  digest : String
  deriving DecidableEq

/-- The audit identity of a local model that shows all its parts. -/
def candidateAudit (identity : Option ModelIdentity) : Option ModelAudit :=
  match identity with
  | some ⟨true, some provider, some model, some digest⟩ =>
    if isModelDigest digest then some ⟨provider, model, digest⟩ else none
  | _ => none

structure PlanProgress where
  decisions : List AnswerDecisionV1
  blockers : List ReasonCode
  modelAudit : Option ModelAudit

/-- One more decision, with the blockers of a required field that has no answer. -/
def PlanProgress.record (progress : PlanProgress) (field : FormFieldV1)
    (decision : AnswerDecisionV1) : PlanProgress :=
  { progress with
    decisions := progress.decisions ++ [decision]
    blockers :=
      if decision.disposition ≠ .resolved ∧ field.required = true then
        progress.blockers ++ .requiredFieldUnknown :: decision.reasonCode.toList
      else progress.blockers }

def PlanProgress.abstain (progress : PlanProgress) (field : FormFieldV1)
    (reason : Option ReasonCode) : PlanProgress :=
  progress.record field (abstainedDecision policy field (reason.getD .requiredFieldUnknown))

def PlanProgress.takeModelAnswer (progress : PlanProgress) (field : FormFieldV1)
    (outcome : LlmOutcome) : PlanProgress :=
  match outcome.decision with
  | none => progress.abstain policy field outcome.reason
  | some decision =>
    match candidateAudit outcome.identity with
    | none =>
      { progress with blockers := progress.blockers ++ [ReasonCode.llmModelMissing] }.abstain
        policy field (some .llmModelMissing)
    | some audit =>
      -- answers of two model artifacts are never combined in one plan
      if progress.modelAudit.all (· == audit) then
        { progress with modelAudit := some audit }.record field decision
      else
        { progress with blockers := progress.blockers ++ [ReasonCode.llmUnavailable] }.abstain
          policy field (some .llmUnavailable)

def planField (rows : List OperatorApprovedAnswer) (context : AnswerPolicyContext)
    (turn : Option LlmTurn) (progress : PlanProgress) (field : FormFieldV1) :
    Except PlanFault PlanProgress := do
  match ← storedDecision policy rows context field with
  | some decision => .ok (progress.record field decision)
  | none =>
    if automaticResolutionAllowed policy field && !policy.fieldRequiresOperatorReview field then
      (localLlm policy field context turn).map (progress.takeModelAnswer policy field)
    else
      .ok (progress.abstain policy field (unaskedReason policy field))

/-- The loop from the field at `index` on. -/
def planEach (rows : List OperatorApprovedAnswer) (context : AnswerPolicyContext)
    (turns : ℕ → Option LlmTurn) :
    ℕ → PlanProgress → List FormFieldV1 → Except PlanFault PlanProgress
  | _, progress, [] => .ok progress
  | index, progress, field :: rest => do
      let next ← planField policy rows context (turns index) progress field
      planEach rows context turns (index + 1) next rest

structure AnswerPolicyResult where
  decisions : List AnswerDecisionV1
  blockers : List ReasonCode
  promptVersion : Option String
  modelProvider : Option String
  modelName : Option String
  modelDigest : Option String
  deriving DecidableEq

def reasonCodesByName : List ReasonCode :=
  [.adapterNotQualified, .alreadyApplied, .answerPolicyChanged, .attachmentUnverified,
    .buildMismatch, .challengeDetected, .commandExpired, .commandReplayed, .draftOnly,
    .dryRunDiscarded, .evidenceInvalid, .finalActionUnconfirmed, .formChanged,
    .formPlanIncomplete, .governorDenied, .internalError, .jobClosed, .llmCircuitOpen,
    .llmModelMissing, .llmSchemaInvalid, .llmTimeout, .llmUnavailable, .mfaRequired,
    .networkError, .operatorCancelled, .permitBindingMismatch, .permitExpired, .permitMissing,
    .permitReplayed, .profileSnapshotInvalid, .profileVersionNotFound, .requiredFieldUnknown,
    .runtimeNotReady, .selectorDrift, .sessionExpired, .staleIndeterminate, .unsupportedClaim,
    .unsupportedControl]

/-- The blockers, each once, in the order of their names. -/
def sortedReasons (blockers : List ReasonCode) : List ReasonCode :=
  reasonCodesByName.filter fun reason => blockers.contains reason

def maxObservedFormBytes : ℕ := 256 * 1024

def observedFormFieldsAreBounded (fields : List FormFieldV1) : Bool :=
  decide (fields.length ≤ maxFormFields)
    && decide (policy.observedFormBytes fields ≤ maxObservedFormBytes)

def planResult (progress : PlanProgress) : AnswerPolicyResult where
  decisions := progress.decisions
  blockers := sortedReasons progress.blockers
  promptVersion := progress.modelAudit.map fun _ => formResolutionPromptVersion
  modelProvider := progress.modelAudit.map ModelAudit.provider
  modelName := progress.modelAudit.map ModelAudit.model
  modelDigest := progress.modelAudit.map ModelAudit.digest

/-- `plan_fields`; `turns` is what the client gives at each field, if it is asked. -/
def planFields (rows : List OperatorApprovedAnswer) (context : AnswerPolicyContext)
    (client : Option (ℕ → LlmTurn)) (fields : List FormFieldV1) :
    Except PlanFault AnswerPolicyResult :=
  if observedFormFieldsAreBounded policy fields then
    (planEach policy rows context (fun index => client.map (· index)) 0 ⟨[], [], none⟩ fields).map
      planResult
  else
    .error (.blocked .formChanged)

end Fields

theorem mem_sortedReasons :
    reason ∈ sortedReasons blockers ↔ reason ∈ blockers := by
  have hall : reason ∈ reasonCodesByName := by
    cases reason <;> decide
  simp [sortedReasons, hall]

end JobApplyAgent.Forms
