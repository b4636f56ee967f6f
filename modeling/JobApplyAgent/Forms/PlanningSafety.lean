import JobApplyAgent.Forms.Planning

/-!
# Planning trusts no model

Every answer of a plan is the coercion of a stored fact, also where the model gives it,
and the model answers of one plan come from one artifact.
-/

namespace JobApplyAgent.Forms

open Domain Library

variable {rows : List OperatorApprovedAnswer}
  {decision : AnswerDecisionV1}

/-! ## The stored sources -/

/-- The source before the model that resolved a field, with the guards it passed. -/
inductive StoredSource (policy : PlanningPolicy) (rows : List OperatorApprovedAnswer)
    (context : AnswerPolicyContext) (field : FormFieldV1) (decision : AnswerDecisionV1) :
    Prop where
  | attachment (hverified : verifiedAttachmentDecision policy field context = some decision)
  | identity {value : String} (hallowed : automaticResolutionAllowed policy field = true)
      (hvalue : identityValue policy field context.profile = some value)
      (hresolved : ResolvedFrom policy field (.text value) .deterministicIdentity
        ("profile:identity:" ++ canonicalField policy field) decision)
  | confirmed {fact : String} (hallowed : automaticResolutionAllowed policy field = true)
      (hfact : confirmedFact policy context.profile (evidenceCanonical policy field) = some fact)
      (hresolved : ResolvedFrom policy field (.text fact) .userConfirmed
        (confirmedFactRef (evidenceCanonical policy field)) decision)
  | approved {row : OperatorApprovedAnswer} {raw : PyValue}
      (hallowed : automaticResolutionAllowed policy field = true)
      (hrow : newestApproval (rows.filter (approvedFor policy field context)) = some row)
      (hanswer : row.answer = some raw)
      (hresolved : ResolvedFrom policy field raw .operatorApprovedReusable
        (approvedAnswerRef row.id) decision)
  | cv {fact : String} (hallowed : automaticResolutionAllowed policy field = true)
      (hreview : policy.fieldRequiresOperatorReview field = false)
      (hfact : (selectedCvFacts policy context).lookup (evidenceCanonical policy field) =
        some fact)
      (hresolved : ResolvedFrom policy field (.text fact) .cvEvidence
        (cvFactRef context.selectedCvHash (evidenceCanonical policy field)) decision)

theorem identityDecision_eq_ok_some
    (hdecision : identityDecision policy field context = .ok (some decision)) :
    StoredSource policy rows context field decision := by
  rw [identityDecision] at hdecision
  split at hdecision
  next hallowed =>
    split at hdecision
    next value hvalue => exact .identity hallowed hvalue (resolvedDecision_eq_ok hdecision)
    · cases hdecision
  · cases hdecision

variable {provenance : AnswerProvenance}

theorem evidenceDecision_eq_ok_some
    (hdecision : evidenceDecision policy field fact allowed confirmed provenance reference
      confidence = .ok (some decision)) :
    allowed = true ∧ ∃ text, fact = some text ∧
      ResolvedFrom policy field (.text text) provenance reference decision := by
  unfold evidenceDecision at hdecision
  split at hdecision
  next hguard =>
    split at hdecision
    · cases hdecision
    next text =>
      obtain ⟨safe, _, hresolved⟩ := bind_eq_ok.mp hdecision
      cases safe with
      | false => cases hresolved
      | true => exact ⟨hguard.2, text, rfl, resolvedDecision_eq_ok hresolved⟩
  · cases hdecision

theorem operatorApproved_eq_ok_some
    (hdecision : operatorApproved policy rows field context = .ok (some decision)) :
    ∃ row raw, newestApproval (rows.filter (approvedFor policy field context)) = some row ∧
      row.answer = some raw ∧
      ResolvedFrom policy field raw .operatorApprovedReusable (approvedAnswerRef row.id)
        decision := by
  unfold operatorApproved at hdecision
  split at hdecision
  · cases hdecision
  split at hdecision
  · cases hdecision
  next row hrow =>
    split at hdecision
    · cases hdecision
    next raw hanswer =>
      obtain ⟨safe, _, hresolved⟩ := bind_eq_ok.mp hdecision
      cases safe with
      | false => cases hresolved
      | true => exact ⟨row, raw, hrow, hanswer, resolvedDecision_eq_ok hresolved⟩

theorem storedDecision_eq_ok_some
    (hdecision : storedDecision policy rows context field = .ok (some decision)) :
    StoredSource policy rows context field decision := by
  rw [storedDecision, orTry_eq_ok_some] at hdecision
  rcases hdecision with hattached | ⟨_, hlater⟩
  · exact .attachment (Except.ok.inj hattached)
  rw [orTry_eq_ok_some] at hlater
  rcases hlater with hidentity | ⟨_, hlater⟩
  · exact identityDecision_eq_ok_some hidentity
  rw [orTry_eq_ok_some] at hlater
  rcases hlater with hconfirmed | ⟨_, hlater⟩
  · obtain ⟨hallowed, fact, hfact, hresolved⟩ := evidenceDecision_eq_ok_some hconfirmed
    exact .confirmed hallowed hfact hresolved
  rw [orTry_eq_ok_some] at hlater
  rcases hlater with happroved | ⟨_, hcv⟩
  · rw [approvedDecision] at happroved
    split at happroved
    next hallowed =>
      obtain ⟨row, raw, hrow, hanswer, hresolved⟩ := operatorApproved_eq_ok_some happroved
      exact .approved hallowed hrow hanswer hresolved
    · cases happroved
  · obtain ⟨hallowed, fact, hfact, hresolved⟩ := evidenceDecision_eq_ok_some hcv
    rw [Bool.and_eq_true, Bool.not_eq_true'] at hallowed
    exact .cv hallowed.1 hallowed.2 hfact hresolved

theorem StoredSource.resolved (hsource : StoredSource policy rows context field decision) :
    decision.fieldId = field.fieldId ∧ decision.disposition = .resolved ∧
      decision.provenance ≠ .localLlm := by
  cases hsource with
  | attachment hverified =>
    obtain ⟨_, hsame⟩ := Option.ite_none_right_eq_some.mp hverified
    cases hsame
    exact ⟨rfl, rfl, AnswerProvenance.noConfusion⟩
  | identity _ _ hresolved | confirmed _ _ hresolved | approved _ _ _ hresolved
  | cv _ _ _ hresolved =>
    refine ⟨hresolved.fieldId, hresolved.disposition, ?_⟩
    rw [hresolved.provenance]
    decide

/-! ## The model -/

/-- The decision is the coercion of a fact that the reply cites, whose key is allowed for the
field. -/
structure CitedAnswer (policy : PlanningPolicy) (context : AnswerPolicyContext)
    (field : FormFieldV1) (typed : LLMFieldAnswerV1) (decision : AnswerDecisionV1) : Prop where
  fieldId : decision.fieldId = field.fieldId
  disposition : decision.disposition = .resolved
  provenance : decision.provenance = .localLlm
  cited : ∃ fact ∈ evidenceCatalog policy field context,
    fact.reference ∈ typed.evidenceRefs ∧
    ∃ value, coerceAnswer policy field (.text fact.text) = .ok (some value) ∧
      decision.value = some value
  references : ∃ refs, typed.evidenceRefs.mapM boundedText = some refs ∧
    decision.evidenceRefs = refs
  valid : decision.validateDecision = .ok ()

variable {turn : Option LlmTurn}
  {progress : PlanProgress}

theorem coerceFact_eq_some (hvalue : coerceFact policy field text = some value) :
    coerceAnswer policy field (.text text) = .ok (some value) := by
  unfold coerceFact at hvalue
  split at hvalue
  next found hfound => rw [hfound, hvalue]
  · cases hvalue

theorem catalogText_eq_some (htext : catalogText catalog reference = some text) :
    ∃ fact ∈ catalog, fact.reference = reference ∧ fact.text = text := by
  obtain ⟨fact, hfind, rfl⟩ := Option.map_eq_some_iff.mp htext
  exact ⟨fact, List.mem_of_find?_eq_some hfind, by simpa using List.find?_some hfind, rfl⟩

theorem evidenceBoundLlmValue_prose (hprose : field.fieldType = .text ∨ field.fieldType = .textarea)
    (hvalue : evidenceBoundLlmValue policy field typed catalog = .ok (some value)) :
    ∃ fact ∈ catalog, fact.reference ∈ typed.evidenceRefs ∧
      coerceAnswer policy field (.text fact.text) = .ok (some value) := by
  rw [evidenceBoundLlmValue, if_pos hprose] at hvalue
  split at hvalue
  next reference hrefs =>
    obtain ⟨text, htext, hcoerced⟩ := Option.bind_eq_some_iff.mp (Except.ok.inj hvalue)
    obtain ⟨fact, hfact, rfl, rfl⟩ := catalogText_eq_some htext
    exact ⟨fact, hfact, by rw [hrefs]; exact .head _, coerceFact_eq_some hcoerced⟩
  · cases hvalue

theorem llmAnswerSupported_exact (hprose : ¬(field.fieldType = .text ∨ field.fieldType = .textarea))
    (hsupported : llmAnswerSupported policy field value evidenceRefs catalog = true) :
    ∃ fact ∈ catalog, fact.reference ∈ evidenceRefs ∧
      coerceAnswer policy field (.text fact.text) = .ok (some value) := by
  unfold llmAnswerSupported at hsupported
  simp only [if_neg hprose] at hsupported
  split at hsupported
  · cases hsupported
  split at hsupported
  · rw [List.any_eq_true] at hsupported
    obtain ⟨⟨reference, text⟩, hcited, hsame⟩ := hsupported
    obtain ⟨cited, hreference, hfound⟩ := List.mem_filterMap.mp hcited
    obtain ⟨found, htext, hpair⟩ := Option.map_eq_some_iff.mp hfound
    cases hpair
    obtain ⟨fact, hfact, rfl, rfl⟩ := catalogText_eq_some htext
    obtain ⟨coerced, hcoerced, hequal⟩ := (Option.any_eq_true _ _).mp hsame
    rw [sameAnswer, Bool.and_eq_true, decide_eq_true_eq] at hequal
    exact ⟨fact, hfact, hreference, hequal.1 ▸ coerceFact_eq_some hcoerced⟩
  · cases hsupported

/-- A reply that is kept cites facts of the catalog. -/
theorem checkedReply_eq_ok_some
    (hreply : checkedReply policy field (evidenceCatalog policy field context) typed =
      .ok (some decision)) :
    CitedAnswer policy context field typed decision := by
  unfold checkedReply at hreply
  split at hreply
  · cases hreply
  obtain ⟨bound, hbound, hreply⟩ := bind_eq_ok.mp hreply
  cases bound with
  | none => cases hreply
  | some value =>
    simp only at hreply
    split at hreply
    next hsupported =>
      obtain ⟨built, hanswer, hsame⟩ := map_eq_ok.mp hreply
      cases hsame
      obtain ⟨refs, hrefs, _, rfl, hvalid⟩ := answerDecision_eq_ok hanswer
      refine ⟨rfl, rfl, rfl, ?_, ⟨refs, hrefs, rfl⟩, hvalid⟩
      have hcited : ∃ fact ∈ evidenceCatalog policy field context,
          fact.reference ∈ typed.evidenceRefs ∧
            coerceAnswer policy field (.text fact.text) = .ok (some value) := by
        by_cases hprose : field.fieldType = .text ∨ field.fieldType = .textarea
        · exact evidenceBoundLlmValue_prose hprose hbound
        · exact llmAnswerSupported_exact hprose hsupported
      obtain ⟨fact, hfact, hreference, hcoerced⟩ := hcited
      exact ⟨fact, hfact, hreference, value, hcoerced, rfl⟩
    · cases hreply

/-- A decision of the model is a cited answer to the turn of its field. -/
theorem localLlm_decision (houtcome : localLlm policy field context turn = .ok outcome)
    (hdecision : outcome.decision = some decision) :
    ∃ asked typed, turn = some asked ∧
      asked.reply = .generated outcome.identity (some typed) ∧
      CitedAnswer policy context field typed decision := by
  unfold localLlm at houtcome
  split at houtcome
  · cases houtcome
    cases hdecision
  next asked =>
    split at houtcome
    · cases houtcome
      cases hdecision
    · split at houtcome
      · cases houtcome
        cases hdecision
      · split at houtcome
        · cases houtcome
          cases hdecision
        · cases houtcome
          cases hdecision
        next identity typed hreply =>
          obtain ⟨checked, hchecked, hfinal⟩ := bind_eq_ok.mp houtcome
          cases checked with
          | none =>
            cases hfinal
            cases hdecision
          | some found =>
            cases hfinal
            cases hdecision
            exact ⟨asked, typed, rfl, hreply, checkedReply_eq_ok_some hchecked⟩

/-! ## One field -/

/-- What the loop does for one field, with the audit identity before and after it. -/
inductive Decided (policy : PlanningPolicy) (rows : List OperatorApprovedAnswer)
    (context : AnswerPolicyContext) (turn : Option LlmTurn) (field : FormFieldV1)
    (decision : AnswerDecisionV1) : Option ModelAudit → Option ModelAudit → Prop where
  | stored {audit : Option ModelAudit}
      (hsource : StoredSource policy rows context field decision) :
      Decided policy rows context turn field decision audit audit
  | model {before : Option ModelAudit} {audit : ModelAudit} {asked : LlmTurn}
      {identity : Option ModelIdentity} {typed : LLMFieldAnswerV1}
      (hallowed : automaticResolutionAllowed policy field = true)
      (hreview : policy.fieldRequiresOperatorReview field = false)
      (hturn : turn = some asked) (hreply : asked.reply = .generated identity (some typed))
      (hcited : CitedAnswer policy context field typed decision)
      (haudit : candidateAudit identity = some audit)
      (hbefore : ∀ known, before = some known → known = audit) :
      Decided policy rows context turn field decision before (some audit)
  | abstained {audit : Option ModelAudit} {reason : ReasonCode}
      (hdecision : decision = abstainedDecision policy field reason) :
      Decided policy rows context turn field decision audit audit

theorem takeModelAnswer_decided (hallowed : automaticResolutionAllowed policy field = true)
    (hreview : policy.fieldRequiresOperatorReview field = false)
    (houtcome : localLlm policy field context turn = .ok outcome) :
    ∃ decision,
      (progress.takeModelAnswer policy field outcome).decisions =
        progress.decisions ++ [decision] ∧
      Decided policy rows context turn field decision progress.modelAudit
        (progress.takeModelAnswer policy field outcome).modelAudit := by
  unfold PlanProgress.takeModelAnswer
  split
  · exact ⟨_, rfl, .abstained rfl⟩
  next decision hdecision =>
    obtain ⟨asked, typed, hturn, hreply, hcited⟩ := localLlm_decision houtcome hdecision
    split
    · exact ⟨_, rfl, .abstained rfl⟩
    next audit haudit =>
      split
      next hsame =>
        refine ⟨decision, rfl, .model hallowed hreview hturn hreply hcited haudit ?_⟩
        intro known hknown
        simpa [hknown] using hsame
      · exact ⟨_, rfl, .abstained rfl⟩

/-- One field gets one decision. -/
theorem planField_decided (hnext : planField policy rows context turn progress field = .ok next) :
    ∃ decision, next.decisions = progress.decisions ++ [decision] ∧
      Decided policy rows context turn field decision progress.modelAudit next.modelAudit := by
  obtain ⟨stored, hstored, hnext⟩ := bind_eq_ok.mp hnext
  cases stored with
  | some decision =>
    cases hnext
    exact ⟨decision, rfl, .stored (storedDecision_eq_ok_some hstored)⟩
  | none =>
    simp only at hnext
    split at hnext
    next hasked =>
      rw [Bool.and_eq_true, Bool.not_eq_true'] at hasked
      obtain ⟨outcome, houtcome, rfl⟩ := map_eq_ok.mp hnext
      exact takeModelAnswer_decided hasked.1 hasked.2 houtcome
    · cases hnext
      exact ⟨_, rfl, .abstained rfl⟩

section

variable (hdecided : Decided policy rows context turn field decision before after)
include hdecided

theorem Decided.fieldId :
    decision.fieldId = field.fieldId := by
  cases hdecided with
  | stored hsource => exact hsource.resolved.1
  | model _ _ _ _ hcited => exact hcited.fieldId
  | abstained hdecision => rw [hdecision, abstainedDecision]

/-- An audit identity is never replaced. -/
theorem Decided.kept (hbefore : before = some audit) : after = some audit := by
  cases hdecided with
  | stored | abstained => exact hbefore
  | model _ _ _ _ _ _ hknown => rw [hknown audit hbefore]

/-- Only an answer of the model sets the audit identity. -/
theorem Decided.localLlm_iff :
    after.isSome = true ↔ before.isSome = true ∨ decision.provenance = .localLlm := by
  cases hdecided with
  | stored hsource => simp [hsource.resolved.2.2]
  | model _ _ _ _ hcited => simp [hcited.provenance]
  | abstained hdecision => simp [hdecision, abstainedDecision]

end

/-! ## The whole plan -/

/-- The decisions of the fields from `index` on, one for each. -/
inductive PlannedFrom (policy : PlanningPolicy) (rows : List OperatorApprovedAnswer)
    (context : AnswerPolicyContext) (turns : ℕ → Option LlmTurn) :
    ℕ → Option ModelAudit → List FormFieldV1 → List AnswerDecisionV1 → Option ModelAudit →
      Prop where
  | nil {index : ℕ} {audit : Option ModelAudit} :
      PlannedFrom policy rows context turns index audit [] [] audit
  | cons {index : ℕ} {before middle after : Option ModelAudit} {field : FormFieldV1}
      {rest : List FormFieldV1} {decision : AnswerDecisionV1}
      {decisions : List AnswerDecisionV1}
      (hfirst : Decided policy rows context (turns index) field decision before middle)
      (hrest : PlannedFrom policy rows context turns (index + 1) middle rest decisions after) :
      PlannedFrom policy rows context turns index before (field :: rest) (decision :: decisions)
        after

theorem planEach_planned
    (hfinal : planEach policy rows context turns index progress fields = .ok final) :
    ∃ decisions, final.decisions = progress.decisions ++ decisions ∧
      PlannedFrom policy rows context turns index progress.modelAudit fields decisions
        final.modelAudit := by
  induction fields generalizing index progress with
  | nil =>
    cases hfinal
    exact ⟨[], by simp, .nil⟩
  | cons field rest ih =>
    obtain ⟨next, hnext, hfinal⟩ := bind_eq_ok.mp hfinal
    obtain ⟨decision, hdecisions, hdecided⟩ := planField_decided hnext
    obtain ⟨decisions, hall, hplanned⟩ := ih hfinal
    exact ⟨decision :: decisions, by simp [hall, hdecisions], .cons hdecided hplanned⟩

section Planned

section

variable (hplanned : PlannedFrom policy rows context turns index before fields decisions after)
include hplanned

theorem PlannedFrom.fieldIds :
    decisions.map AnswerDecisionV1.fieldId = fields.map FormFieldV1.fieldId := by
  induction hplanned with
  | nil => rfl
  | cons hfirst _ ih => rw [List.map_cons, List.map_cons, hfirst.fieldId, ih]

theorem PlannedFrom.kept (hbefore : before = some audit) : after = some audit := by
  induction hplanned with
  | nil => exact hbefore
  | cons hfirst _ ih => exact ih (hfirst.kept hbefore)

/-- Each decision is one of the loop, at the turn of its position. -/
theorem PlannedFrom.get (hfield : fields[position]? = some field)
    (hdecision : decisions[position]? = some decision) :
    ∃ first second, Decided policy rows context (turns (index + position)) field decision first
        second ∧
      ∀ audit, second = some audit → after = some audit := by
  induction hplanned generalizing position with
  | nil => cases hfield
  | @cons index before middle after _ rest _ decisions hfirst hrest ih =>
    cases position with
    | zero =>
      cases hfield
      cases hdecision
      exact ⟨before, middle, hfirst, fun audit hmiddle => hrest.kept hmiddle⟩
    | succ position =>
      have hplace : index + (position + 1) = index + 1 + position := by omega
      rw [hplace]
      exact ih hfield hdecision

theorem PlannedFrom.localLlm_iff :
    after.isSome = true ↔ before.isSome = true ∨
      ∃ decision ∈ decisions, decision.provenance = .localLlm := by
  induction hplanned with
  | nil => simp
  | cons hfirst _ ih =>
    rw [ih, hfirst.localLlm_iff]
    simp [or_assoc]

end

end Planned

/-! ## Trusted answers -/

def ModelSafeFact (policy : PlanningPolicy) (context : AnswerPolicyContext)
    (entry : String × String) : Prop :=
  entry ∈ llmSafeConfirmedFacts policy context.profile ∨
    entry ∈ selectedCvFacts policy context ∧ policy.isSensitiveFactKey entry.1 = false

/-- A catalog holds excerpts of safe facts whose keys are allowed for the field. -/
theorem mem_evidenceCatalog (hfact : fact ∈ evidenceCatalog policy field context) :
    fact.key ∈ allowedLlmEvidenceKeys policy field ∧
      ∃ value, ModelSafeFact policy context (fact.key, value) ∧
        fact.text = String.ofList (Materials.nonSensitiveCvExcerpt policy.characters
          policy.content value.toList 500) := by
  have hsafe : ∀ reference facts,
      fact ∈ safeFacts policy reference (allowedLlmEvidenceKeys policy field) facts →
      fact.key ∈ allowedLlmEvidenceKeys policy field ∧ ∃ value, (fact.key, value) ∈ facts ∧
        fact.text = String.ofList (Materials.nonSensitiveCvExcerpt policy.characters
          policy.content value.toList 500) := by
    intro reference facts hmem
    obtain ⟨⟨key, value⟩, hentry, hkept⟩ := List.mem_filterMap.mp hmem
    rw [Option.ite_none_right_eq_some, Bool.and_eq_true, List.contains_iff_mem] at hkept
    obtain ⟨⟨hallowed, _⟩, hsame⟩ := hkept
    cases hsame
    exact ⟨hallowed, value, List.mem_mergeSort.mp hentry, rfl⟩
  rcases List.mem_append.mp (List.mem_of_mem_take hfact) with hconfirmed | hcv
  · obtain ⟨hallowed, value, hvalue, htext⟩ := hsafe _ _ hconfirmed
    exact ⟨hallowed, value, .inl hvalue, htext⟩
  · obtain ⟨hallowed, value, hvalue, htext⟩ := hsafe _ _ hcv
    rw [List.mem_filter, Bool.not_eq_true'] at hvalue
    exact ⟨hallowed, value, .inr hvalue, htext⟩

/-- The decision carries the coercion of the raw value. -/
def Coerces (policy : PlanningPolicy) (field : FormFieldV1) (raw : PyValue)
    (decision : AnswerDecisionV1) : Prop :=
  ∃ value, coerceAnswer policy field raw = .ok (some value) ∧ decision.value = some value

/-- The fact that a resolved decision is the coercion of. -/
inductive FactSource (policy : PlanningPolicy) (rows : List OperatorApprovedAnswer)
    (context : AnswerPolicyContext) (turn : Option LlmTurn) (field : FormFieldV1)
    (decision : AnswerDecisionV1) : Prop where
  | identity {value : String} (hprovenance : decision.provenance = .deterministicIdentity)
      (hvalue : identityValue policy field context.profile = some value)
      (hcoerces : Coerces policy field (.text value) decision)
  | confirmed {fact : String} (hprovenance : decision.provenance = .userConfirmed)
      (hfact : confirmedFact policy context.profile (evidenceCanonical policy field) = some fact)
      (hcoerces : Coerces policy field (.text fact) decision)
  | approved {row : OperatorApprovedAnswer} {raw : PyValue}
      (hprovenance : decision.provenance = .operatorApprovedReusable) (hrow : row ∈ rows)
      (hfor : approvedFor policy field context row = true) (hanswer : row.answer = some raw)
      (hcoerces : Coerces policy field raw decision)
  | cv {fact : String} (hprovenance : decision.provenance = .cvEvidence)
      (hfact : (selectedCvFacts policy context).lookup (evidenceCanonical policy field) =
        some fact)
      (hcoerces : Coerces policy field (.text fact) decision)
  | cited {asked : LlmTurn} {identity : Option ModelIdentity} {typed : LLMFieldAnswerV1}
      {fact : CatalogFact} {value : String} (hprovenance : decision.provenance = .localLlm)
      (hturn : turn = some asked) (hreply : asked.reply = .generated identity (some typed))
      (hcites : fact.reference ∈ typed.evidenceRefs)
      (hkey : fact.key ∈ allowedLlmEvidenceKeys policy field)
      (hsafe : ModelSafeFact policy context (fact.key, value))
      (htext : fact.text = String.ofList (Materials.nonSensitiveCvExcerpt policy.characters
        policy.content value.toList 500))
      (hcoerces : Coerces policy field (.text fact.text) decision)

/-- A fact, or the verified attachment of the reviewed CV. -/
def TrustedSource (policy : PlanningPolicy) (rows : List OperatorApprovedAnswer)
    (context : AnswerPolicyContext) (turn : Option LlmTurn) (field : FormFieldV1)
    (decision : AnswerDecisionV1) : Prop :=
  FactSource policy rows context turn field decision ∨
    verifiedAttachmentDecision policy field context = some decision

/-- A field under review has no answer from the CV or the model, and without scoped semantics
none from the profile or a stored approval. -/
def ReviewedFromOperator (policy : PlanningPolicy) (field : FormFieldV1)
    (decision : AnswerDecisionV1) : Prop :=
  decision.provenance ≠ .cvEvidence ∧ decision.provenance ≠ .localLlm ∧
    (decision.provenance ∈ [AnswerProvenance.deterministicIdentity, .userConfirmed,
      .operatorApprovedReusable] → policy.fieldHasScopedSensitiveSemantics field = true)

def ReviewedWithoutIdentity (policy : PlanningPolicy) (field : FormFieldV1)
    (decision : AnswerDecisionV1) : Prop :=
  ReviewedFromOperator policy field decision ∧ decision.provenance ≠ .deterministicIdentity

def AnswerPolicyResult.audit (result : AnswerPolicyResult) : List (Option String) :=
  [result.promptVersion, result.modelProvider, result.modelName, result.modelDigest]

/-- The model was local and showed the identity that the plan is audited under. -/
def AuditedTurn (result : AnswerPolicyResult) (turn : Option LlmTurn) : Prop :=
  ∃ asked identity typed, turn = some asked ∧
    asked.reply = .generated (some identity) (some typed) ∧ identity.isLocal = true ∧
    identity.provider = result.modelProvider ∧ identity.model = result.modelName ∧
    identity.digest = result.modelDigest

/-- One decision for each field; each answer has a trusted source, one of a field under review
an operator's; and all answers of the model are of the audited one. -/
structure TrustedPlan (policy : PlanningPolicy) (client : Option (ℕ → LlmTurn))
    (fields : List FormFieldV1) (result : AnswerPolicyResult)
    (source : Option LlmTurn → FormFieldV1 → AnswerDecisionV1 → Prop)
    (review : FormFieldV1 → AnswerDecisionV1 → Prop) : Prop where
  inOrder : result.decisions.map AnswerDecisionV1.fieldId = fields.map FormFieldV1.fieldId
  sourced : ∀ (index : ℕ) field decision, fields[index]? = some field →
    result.decisions[index]? = some decision → decision.disposition = .resolved →
    source (client.map (· index)) field decision
  reviewed : ∀ (index : ℕ) field decision, fields[index]? = some field →
    result.decisions[index]? = some decision → decision.disposition = .resolved →
    policy.fieldRequiresOperatorReview field = true → review field decision
  audited : (∃ decision ∈ result.decisions, decision.provenance = .localLlm) →
    ∀ part ∈ result.audit, part.isSome = true
  unaudited : (¬∃ decision ∈ result.decisions, decision.provenance = .localLlm) →
    ∀ part ∈ result.audit, part = none
  oneModel : ∀ (index : ℕ) decision, result.decisions[index]? = some decision →
    decision.provenance = .localLlm → AuditedTurn result (client.map (· index))

theorem newestApproval_mem (hrow : newestApproval candidates = some row) :
    row ∈ candidates := by
  have hfold : ∀ (later : List OperatorApprovedAnswer) (best : Option OperatorApprovedAnswer),
      later.foldl laterApproval best = some row → best = some row ∨ row ∈ later := by
    intro later
    induction later with
    | nil => exact fun best hbest => .inl hbest
    | cons first rest ih =>
      intro best hbest
      rcases ih _ hbest with hfirst | hlater
      · unfold laterApproval at hfirst
        grind
      · exact .inr (.tail _ hlater)
  exact (hfold candidates none hrow).resolve_left nofun

theorem ResolvedFrom.coerces {evidenceRef : String}
    (hresolved : ResolvedFrom policy field raw provenance evidenceRef decision) :
    Coerces policy field raw decision :=
  hresolved.coerced

theorem StoredSource.trusted (hsource : StoredSource policy rows context field decision) :
    TrustedSource policy rows context turn field decision := by
  cases hsource with
  | attachment hverified => exact .inr hverified
  | identity _ hvalue hresolved =>
    exact .inl (.identity hresolved.provenance hvalue hresolved.coerces)
  | confirmed _ hfact hresolved =>
    exact .inl (.confirmed hresolved.provenance hfact hresolved.coerces)
  | approved _ hrow hanswer hresolved =>
    obtain ⟨hmem, hfor⟩ := List.mem_filter.mp (newestApproval_mem hrow)
    exact .inl (.approved hresolved.provenance hmem hfor hanswer hresolved.coerces)
  | cv _ _ hfact hresolved => exact .inl (.cv hresolved.provenance hfact hresolved.coerces)

theorem Decided.trusted (hdecided : Decided policy rows context turn field decision before after)
    (hresolved : decision.disposition = .resolved) :
    TrustedSource policy rows context turn field decision := by
  cases hdecided with
  | stored hsource => exact hsource.trusted
  | model _ _ hturn hreply hcited =>
    obtain ⟨fact, hfact, hcites, hcoerces⟩ := hcited.cited
    obtain ⟨hkey, value, hsafe, htext⟩ := mem_evidenceCatalog hfact
    exact .inl (.cited hcited.provenance hturn hreply hcites hkey hsafe htext hcoerces)
  | abstained hdecision =>
    rw [hdecision, abstainedDecision] at hresolved
    split at hresolved <;> cases hresolved

theorem scoped_of_allowed (hallowed : automaticResolutionAllowed policy field = true)
    (hreview : policy.fieldRequiresOperatorReview field = true) :
    policy.fieldHasScopedSensitiveSemantics field = true := by
  simp only [automaticResolutionAllowed, ambiguousSensitiveIdentity, hreview, Bool.true_and,
    Bool.not_not, Bool.and_eq_true] at hallowed
  exact hallowed.1.2

/-- A field under review is answered from what the operator gave. -/
theorem Decided.reviewed (hdecided : Decided policy rows context turn field decision before after)
    (hreview : policy.fieldRequiresOperatorReview field = true) :
    ReviewedFromOperator policy field decision := by
  cases hdecided with
  | stored hsource =>
    cases hsource with
    | attachment hverified =>
      obtain ⟨_, hsame⟩ := Option.ite_none_right_eq_some.mp hverified
      cases hsame
      simp [ReviewedFromOperator]
    | identity hallowed _ hresolved | confirmed hallowed _ hresolved
    | approved hallowed _ _ hresolved =>
      have hscoped := scoped_of_allowed hallowed hreview
      simp [ReviewedFromOperator, hresolved.provenance, hscoped]
    | cv _ hother =>
      rw [hreview] at hother
      cases hother
  | model _ hother =>
    rw [hreview] at hother
    cases hother
  | abstained hdecision => simp [ReviewedFromOperator, hdecision, abstainedDecision]

theorem candidateAudit_eq_some (haudit : candidateAudit identity = some audit) :
    ∃ shown, identity = some shown ∧ shown.isLocal = true ∧
      shown.provider = some audit.provider ∧ shown.model = some audit.model ∧
      shown.digest = some audit.digest := by
  unfold candidateAudit at haudit
  split at haudit
  next provider model digest =>
    obtain ⟨_, hsame⟩ := Option.ite_none_right_eq_some.mp haudit
    cases hsame
    exact ⟨_, rfl, rfl, rfl, rfl, rfl⟩
  · cases haudit

theorem planFields_planned (hplan : planFields policy rows context client fields = .ok result) :
    ∃ final, result = planResult final ∧
      PlannedFrom policy rows context (fun index => client.map (· index)) 0 none fields
        result.decisions final.modelAudit := by
  unfold planFields at hplan
  split at hplan
  · obtain ⟨final, hfinal, rfl⟩ := map_eq_ok.mp hplan
    obtain ⟨decisions, hdecisions, hplanned⟩ := planEach_planned hfinal
    rw [List.nil_append] at hdecisions
    refine ⟨final, rfl, ?_⟩
    rw [planResult, hdecisions]
    exact hplanned
  · cases hplan

/-- What `plan_fields` returns trusts no output of the model. -/
theorem planFields_trusted {policy : PlanningPolicy} {rows : List OperatorApprovedAnswer}
    {context : AnswerPolicyContext} {client : Option (ℕ → LlmTurn)} {fields : List FormFieldV1}
    {result : AnswerPolicyResult}
    (hplan : planFields policy rows context client fields = .ok result) :
    TrustedPlan policy client fields result (TrustedSource policy rows context)
      (ReviewedFromOperator policy) := by
  obtain ⟨final, hresult, hplanned⟩ := planFields_planned hplan
  have hcount : result.decisions.length = fields.length := by
    simpa using congrArg List.length hplanned.fieldIds
  have hmodel : final.modelAudit.isSome = true ↔
      ∃ decision ∈ result.decisions, decision.provenance = .localLlm := by
    simpa using hplanned.localLlm_iff
  constructor
  · exact hplanned.fieldIds
  · intro index field decision hfield hdecision hresolved
    obtain ⟨_, _, hdecided, _⟩ := hplanned.get hfield hdecision
    rw [Nat.zero_add] at hdecided
    exact hdecided.trusted hresolved
  · intro index field decision hfield hdecision _ hreview
    obtain ⟨_, _, hdecided, _⟩ := hplanned.get hfield hdecision
    exact hdecided.reviewed hreview
  · intro hsome
    obtain ⟨audit, haudit⟩ := Option.isSome_iff_exists.mp (hmodel.mpr hsome)
    rw [hresult]
    simp [AnswerPolicyResult.audit, planResult, haudit]
  · intro hnone
    have haudit : final.modelAudit = none := by
      simpa using mt hmodel.mp hnone
    rw [hresult]
    simp [AnswerPolicyResult.audit, planResult, haudit]
  · intro index decision hdecision hlocal
    obtain ⟨hbound, _⟩ := List.getElem?_eq_some_iff.mp hdecision
    obtain ⟨field, hfield⟩ : ∃ field, fields[index]? = some field :=
      ⟨_, List.getElem?_eq_getElem (hcount ▸ hbound)⟩
    obtain ⟨_, _, hdecided, hlast⟩ := hplanned.get hfield hdecision
    rw [Nat.zero_add] at hdecided
    cases hdecided with
    | stored hsource => exact absurd hlocal hsource.resolved.2.2
    | abstained habstained => simp [habstained, abstainedDecision] at hlocal
    | model _ _ hturn hreply _ haudit _ =>
      obtain ⟨shown, rfl, hshown, hprovider, hname, hdigest⟩ := candidateAudit_eq_some haudit
      rw [hresult]
      refine ⟨_, shown, _, hturn, hreply, hshown, ?_⟩
      simp [planResult, hlast _ rfl, hprovider, hname, hdigest]

/-! ## An upload that no fact answers -/

/-- The basic alphabet, where no text is a number. -/
def samplePlanning : PlanningPolicy where
  toPlanPolicy := samplePolicy
  lower := lowercaseText
  parseFloat := fun _ => none
  represent := fun _ => none
  jsonLength := fun _ => 16
  optionSetHash := fun _ => "options"
  reusableFieldContractFingerprint := fun _ _ _ _ => "contract"
  observedFormBytes := fun _ => 1024
  characters := Materials.basicCharacters

def sampleDigest : String :=
  "9f86d081884c7d659a2feaa0c55ad015a3bf4f1b2b0b822cd15d6c15b0f00a08"

def sampleProfile : UserProfile where
  name := "Dana Levi"
  email := "dana@example.com"
  phone := ""
  location := ""
  linkedin := ""
  github := ""
  portfolio := ""
  userConfirmed := []
  cvExtractedByArtifact := []

def uploadContext : AnswerPolicyContext where
  profile := sampleProfile
  profileVersion := 1
  selectedCvId := "cv"
  selectedCvHash := sampleDigest
  adapterName := "lever"
  adapterVersion := "1"
  selectorVersion := "1"
  formFingerprint := sampleDigest
  locale := "en"
  policyVersion := "answer-policy-v1"
  attachedCvId := some "cv"
  attachedCvHash := some sampleDigest
  attachmentVerified := true
  selectedCvFactCatalog := none

def uploadField : FormFieldV1 where
  fieldId := "resume"
  canonicalName := some "resume"
  label := "resume"
  fieldType := .file
  required := true
  position := 0
  options := []
  constraints := noConstraints
  sensitiveCategory := none

def uploadDecision : AnswerDecisionV1 where
  fieldId := "resume"
  disposition := .resolved
  provenance := .verifiedAttachment
  value := some (.text verifiedAttachmentSentinel)
  confidence := some 1
  evidenceRefs := [verifiedAttachmentEvidenceRef]
  reasonCode := none

def uploadResult : AnswerPolicyResult where
  decisions := [uploadDecision]
  blockers := []
  promptVersion := none
  modelProvider := none
  modelName := none
  modelDigest := none

theorem upload_planned :
    planFields samplePlanning [] uploadContext none [uploadField] = .ok uploadResult := by
  decide +kernel

/-- The verified upload is resolved with the sentinel, which is the coercion of no fact. -/
theorem upload_from_no_fact :
    planFields samplePlanning [] uploadContext none [uploadField] = .ok uploadResult ∧
      ¬TrustedPlan samplePlanning none [uploadField] uploadResult
        (FactSource samplePlanning [] uploadContext)
        (ReviewedWithoutIdentity samplePlanning) := by
  refine ⟨upload_planned, ?_⟩
  intro htrusted
  cases htrusted.sourced 0 uploadField uploadDecision rfl rfl rfl with
  | identity hprovenance | confirmed hprovenance | approved hprovenance | cv hprovenance
  | cited hprovenance => cases hprovenance

/-! ## A turn of the model -/

def emailField : FormFieldV1 :=
  { uploadField with
    fieldId := "email"
    canonicalName := some "email"
    label := "email"
    fieldType := .email
    position := 1 }

/-- The model is asked for one fact as prose. -/
def experienceField : FormFieldV1 :=
  { uploadField with
    fieldId := "experience"
    canonicalName := none
    label := "relevant technical experience: primary programming language"
    fieldType := .textarea
    position := 2 }

def factsContext : AnswerPolicyContext :=
  { uploadContext with
    profile := { sampleProfile with
      userConfirmed := [("primary_language", "I write Python.")] } }

def sampleModel : ModelIdentity :=
  ⟨true, some "ollama", some "local", some ("sha256:" ++ sampleDigest)⟩

/-- The model cites the confirmed fact and says something else. -/
def inventedTurn : LlmTurn where
  clientIdentity := some sampleModel
  reply := .generated (some sampleModel) (some
    { value := .text "I invented Python."
      confidence := 1
      evidenceRefs := [confirmedFactRef "primary_language"]
      bounded := by decide +kernel })

def citedResult : AnswerPolicyResult where
  decisions :=
    [uploadDecision,
      { uploadDecision with
        fieldId := "email"
        provenance := .deterministicIdentity
        value := some (.text "dana@example.com")
        evidenceRefs := ["profile:identity:email"] },
      { uploadDecision with
        fieldId := "experience"
        provenance := .localLlm
        value := some (.text "I write Python.")
        evidenceRefs := [confirmedFactRef "primary_language"] }]
  blockers := []
  promptVersion := some formResolutionPromptVersion
  modelProvider := sampleModel.provider
  modelName := sampleModel.model
  modelDigest := sampleModel.digest

theorem planFields_trusted_sample :
    TrustedPlan samplePlanning (some fun _ => inventedTurn)
      [uploadField, emailField, experienceField] citedResult
      (TrustedSource samplePlanning [] factsContext) (ReviewedFromOperator samplePlanning) :=
  planFields_trusted (by decide +kernel)

end JobApplyAgent.Forms
