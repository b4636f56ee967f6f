import JobApplyAgent.Forms.Plan
import JobApplyAgent.Library.Fallible
import JobApplyAgent.Materials.ClaimEvidence

/-!
# Coercion of trusted evidence

How a stored text or JSON value becomes the value of an observed control, and the
decision that carries it.  What Python raises on the way is a fault.
-/

namespace JobApplyAgent.Forms

open Domain Library

/-- A value as JSON or a Python caller gives it. -/
inductive PyValue where
  | null
  | flag (value : Bool)
  | int (value : ℤ)
  | float (value : PyFloat)
  | text (value : String)
  | tuple (values : List String)
  | list (values : List PyValue)
  | mapping (entries : List (String × PyValue))

def AnswerValue.toPyValue : AnswerValue → PyValue
  | .text value => .text value
  | .flag value => .flag value
  | .int value => .int value
  | .float value => .float value
  | .texts values => .tuple values

/-- What a planning call may raise. -/
inductive PlanFault where
  | blocked (reason : ReasonCode)
  | overflow
  | tooManyDigits
  | invalidDecision
  deriving DecidableEq

/-- The parts of Python that planning reads: `str.lower`, `float` of a text and the
`repr` of a float or a container, which fails on too long an integer; the length of a
value as compact ASCII JSON; the hash of an option set and of a field contract; and the
size of the observed fields. -/
structure PlanningPolicy extends PlanPolicy where
  lower : String → String
  parseFloat : String → Option PyFloat
  represent : PyValue → Option String
  jsonLength : PyValue → ℕ
  optionSetHash : FormFieldV1 → String
  reusableFieldContractFingerprint : FormFieldV1 → String → String → String → String
  observedFormBytes : List FormFieldV1 → ℕ
  characters : CharacterTable

/-- The shared text policy, as it reads a material. -/
def PlanningPolicy.content (policy : PlanningPolicy) : Materials.ContentPolicy where
  containsSensitiveText text := policy.containsSensitiveText (String.ofList text)
  containsPromptInjection text := policy.containsPromptInjection (String.ofList text)

/-- `sys.get_int_max_str_digits()`. -/
def maxStrDigits : ℕ := 4300

def maxBoundedTextLength : ℕ := 500

def maxEvidenceRefs : ℕ := 16

section Coercion

variable (policy : PlanningPolicy)

/-- `str(value)`. -/
def pyStr : PyValue → Except PlanFault String
  | .null => .ok "None"
  | .flag true => .ok "True"
  | .flag false => .ok "False"
  | .int value =>
    if maxStrDigits < value.natAbs.repr.length then .error .tooManyDigits
    else .ok (toString value)
  | .text value => .ok value
  | value =>
    match policy.represent value with
    | some text => .ok text
    | none => .error .tooManyDigits

/-- `bool(value)`. -/
def pyTruthy : PyValue → Bool
  | .null => false
  | .flag value => value
  | .int value => value != 0
  | .float value => value != .finite 0
  | .text value => value != ""
  | .tuple values => !values.isEmpty
  | .list values => !values.isEmpty
  | .mapping entries => !entries.isEmpty

/-- `int(numeric) if numeric.is_integer() else numeric`. -/
def numericAnswer : PyFloat → AnswerValue
  | .finite value => if value.den = 1 then .int value.num else .float (.finite value)
  | value => .float value

def coerceNumber : PyValue → Except PlanFault (Option AnswerValue)
  | .text value => .ok ((policy.parseFloat value).map numericAnswer)
  | .int value =>
    match intToDouble value with
    | some double => .ok (some (numericAnswer (.finite double)))
    | none => .error .overflow
  | .float value => .ok (some (numericAnswer value))
  | _ => .ok none

def affirmations : List String := ["yes", "true", "1", "checked", "agree", "accepted"]

def denials : List String := ["no", "false", "0", "unchecked", "disagree", "declined"]

def coerceFlag : PyValue → Except PlanFault (Option AnswerValue)
  | .flag value => .ok (some (.flag value))
  | raw => do
      let text ← pyStr policy raw
      let normalized := policy.casefold (String.ofList (strip text))
      if affirmations.contains normalized then .ok (some (.flag true))
      else if denials.contains normalized then .ok (some (.flag false))
      else .ok none

/-- The one enabled option whose value or label is the text. -/
def matchingOption (field : FormFieldV1) (text : String) : Option String :=
  let normalized := policy.normalizePolicyText text
  let found := field.options.filter fun option =>
    !option.disabled && [policy.normalizePolicyText option.value,
      policy.normalizePolicyText option.label].contains normalized
  match (found.map FormOptionV1.value).dedup with
  | [value] => some value
  | _ => none

def coerceChoice (field : FormFieldV1) (raw : PyValue) :
    Except PlanFault (Option AnswerValue) :=
  (pyStr policy raw).map fun text => (matchingOption policy field text).map .text

/-- The options of the values, up to the first value that has none. -/
def selectedOptions (field : FormFieldV1) : List PyValue →
    Except PlanFault (Option (List String))
  | [] => .ok (some [])
  | raw :: rest => do
      let text ← pyStr policy raw
      match matchingOption policy field text with
      | none => .ok none
      | some value => (selectedOptions field rest).map (Option.map (value :: ·))

def coerceChoices (field : FormFieldV1) (raw : PyValue) :
    Except PlanFault (Option AnswerValue) := do
  let values ← match raw with
    | .list values => .ok values
    | .tuple values => .ok (values.map .text)
    | raw => (pyStr policy raw).map fun text =>
      (text.toList.splitOn ',').map fun part => .text (String.ofList part)
  let selected ← selectedOptions policy field values
  .ok (selected.bind fun values =>
    if values ≠ [] ∧ values.Nodup then some (.texts values) else none)

def coerceText (raw : PyValue) : Except PlanFault (Option AnswerValue) :=
  (pyStr policy raw).map fun text =>
    let value := strip text
    if value.isEmpty then none else some (.text (String.ofList value))

/-- Coerce trusted textual evidence to the exact observed control type. -/
def coerceAnswer (field : FormFieldV1) (raw : PyValue) : Except PlanFault (Option AnswerValue) :=
  match raw with
  | .null => .ok none
  | raw =>
    match field.fieldType with
    | .number => coerceNumber policy raw
    | .checkbox | .consent | .attestation => coerceFlag policy raw
    | .select | .radio => coerceChoice policy field raw
    | .multiSelect => coerceChoices policy field raw
    | .unknown => .ok none
    | _ => coerceText policy raw

/-- What a list renders as, item by item. -/
def joinRendered (values : List PyValue) : Except PlanFault String :=
  (values.mapM (pyStr policy)).map fun texts => " ".intercalate texts

/-- Prevent benign evidence keys from laundering protected or hostile values. -/
def evidenceValueIsSafe (field : FormFieldV1) (raw : PyValue) (confirmed : Bool) :
    Except PlanFault Bool := do
  let rendered ← match raw with
    | .list values => joinRendered policy values
    | .tuple values => joinRendered policy (values.map .text)
    | raw => if pyTruthy raw then pyStr policy raw else .ok ""
  .ok (!policy.containsPromptInjection rendered
    && (!policy.containsSensitiveText rendered
      || confirmed && policy.fieldRequiresOperatorReview field))

def boundedText (text : String) : Option String :=
  let stripped := strip text
  if stripped.isEmpty || decide (maxBoundedTextLength < stripped.length) then none
  else some (String.ofList stripped)

/-- `AnswerDecisionV1(...)`; the id is that of an observed field. -/
def answerDecision (decision : AnswerDecisionV1) : Except PlanFault AnswerDecisionV1 :=
  match decision.evidenceRefs.mapM boundedText with
  | none => .error .invalidDecision
  | some refs =>
    let bounded := { decision with evidenceRefs := refs }
    if maxEvidenceRefs < refs.length then .error .invalidDecision
    else
      match bounded.validateDecision with
      | .ok _ => .ok bounded
      | .error _ => .error .invalidDecision

/-- `_resolved`. -/
def resolvedDecision (field : FormFieldV1) (raw : PyValue) (provenance : AnswerProvenance)
    (evidenceRef : String) (confidence : ℚ) : Except PlanFault (Option AnswerDecisionV1) := do
  match ← coerceAnswer policy field raw with
  | none => .ok none
  | some value =>
    (answerDecision
      { fieldId := field.fieldId
        disposition := .resolved
        provenance
        value := some value
        confidence := some confidence
        evidenceRefs := [evidenceRef]
        reasonCode := none }).map some

/-- `_abstain`. -/
def abstainedDecision (field : FormFieldV1) (reason : ReasonCode) : AnswerDecisionV1 where
  fieldId := field.fieldId
  disposition :=
    if field.required || policy.fieldRequiresOperatorReview field then .operatorRequired
    else .abstained
  provenance := .abstained
  value := none
  confidence := none
  evidenceRefs := []
  reasonCode := some reason

variable {policy}

/-- A decision is built as it was given, up to the white space around its references. -/
theorem answerDecision_eq_ok (hbuilt : answerDecision decision = .ok built) :
    ∃ refs, decision.evidenceRefs.mapM boundedText = some refs ∧
      refs.length ≤ maxEvidenceRefs ∧ built = { decision with evidenceRefs := refs } ∧
      built.validateDecision = .ok () := by
  unfold answerDecision at hbuilt
  split at hbuilt
  · cases hbuilt
  next refs hrefs =>
    simp only at hbuilt
    split at hbuilt
    · cases hbuilt
    next hcount =>
      split at hbuilt
      next hvalid =>
        cases hbuilt
        exact ⟨refs, hrefs, Nat.not_lt.mp hcount, rfl, hvalid⟩
      · cases hbuilt

/-- What a resolved decision says of the evidence it was built from. -/
structure ResolvedFrom (policy : PlanningPolicy) (field : FormFieldV1) (raw : PyValue)
    (provenance : AnswerProvenance) (evidenceRef : String) (decision : AnswerDecisionV1) :
    Prop where
  fieldId : decision.fieldId = field.fieldId
  disposition : decision.disposition = .resolved
  provenance : decision.provenance = provenance
  coerced : ∃ value, coerceAnswer policy field raw = .ok (some value) ∧
    decision.value = some value
  reference : ∃ reference, boundedText evidenceRef = some reference ∧
    decision.evidenceRefs = [reference]
  valid : decision.validateDecision = .ok ()

/-- A resolved decision carries the coercion of its raw value. -/
theorem resolvedDecision_eq_ok
    (hresolved : resolvedDecision policy field raw provenance evidenceRef confidence =
      .ok (some decision)) :
    ResolvedFrom policy field raw provenance evidenceRef decision := by
  obtain ⟨coerced, hcoerced, hbuilt⟩ := bind_eq_ok.mp hresolved
  cases coerced with
  | none => cases hbuilt
  | some value =>
    obtain ⟨built, hanswer, hsame⟩ := map_eq_ok.mp hbuilt
    cases hsame
    obtain ⟨refs, hrefs, _, rfl, hvalid⟩ := answerDecision_eq_ok hanswer
    rw [List.mapM_cons, List.mapM_nil, Option.bind_eq_bind, Option.bind_eq_some_iff] at hrefs
    obtain ⟨reference, hreference, hsingle⟩ := hrefs
    cases hsingle
    exact ⟨rfl, rfl, rfl, ⟨value, hcoerced, rfl⟩, ⟨reference, hreference, rfl⟩, hvalid⟩

end Coercion

end JobApplyAgent.Forms
