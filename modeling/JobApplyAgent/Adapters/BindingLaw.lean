import JobApplyAgent.Adapters.BindingTexts
import Mathlib.Data.Rat.Encodable

/-!
# What a binding fixes

Which plans the Greenhouse adapter can bind, and what its bindings say of the answers.
-/

namespace JobApplyAgent.Adapters

open Domain Forms Library

/-! ## One field -/

/-- What a plan has to be for the law: accepted, ready, with a decision for every field and
the verified CV in its one file field. -/
structure Reviewable (policy : BindingPolicy) (plan : Forms.FormPlanV1) : Prop where
  accepted : plan.accepted policy.toPlanPolicy = true
  ready : plan.contract.readyForPermit = true
  decided : ∀ field ∈ plan.fields, ∃ decision ∈ plan.decisions, decision.fieldId = field.fieldId
  oneFile : plan.fields.countP (fun field => field.fieldType == .file) = 1
  verified : ∀ field ∈ plan.fields, field.fieldType = .file → ∀ decision ∈ plan.decisions,
    decision.fieldId = field.fieldId →
      decision.disposition = .resolved ∧ decision.provenance = .verifiedAttachment

/-- The decisions that the adapter binds. -/
def FieldBindable (policy : BindingPolicy) (field : FormFieldV1) (decision : AnswerDecisionV1) :
    Prop :=
  isFieldId field.fieldId = true ∧
    match decision.disposition with
    | .resolved => ∀ items, decision.value = some (.texts items) →
        items.length ≤ maxSuccessfulEntries
    | .abstained => policy.fieldRequiresOperatorReview field = false ∧
        field.fieldType ∈ blankFieldTypes
    | .operatorRequired | .operatorConfirmedBlank => False

section Plans

variable {plan : Forms.FormPlanV1}
  {decision : AnswerDecisionV1}

variable {material : String} {value : Option AnswerValue}

theorem left_countPositive (hleft : Left policy field selectedCvHash value material count) :
    mayBeEmpty field.fieldType = true ∨ count ≠ 0 := by
  cases hleft with
  | flag htype =>
    have hempty : ∀ fieldType ∈ booleanFieldTypes, mayBeEmpty fieldType = true := by
      decide
    exact .inl (hempty _ htype)
  | choices htype => exact .inl (by rw [htype]; rfl)
  | file => exact .inr (by decide)
  | scalar => exact .inr (by decide)

theorem left_countBounded_iff (hleft : Left policy field selectedCvHash value material count) :
    count ≤ maxSuccessfulEntries ↔
      ∀ items, value = some (.texts items) → items.length ≤ maxSuccessfulEntries := by
  cases hleft with
  | @flag value flag htype hflag =>
    refine iff_of_true (by cases flag <;> decide) fun items hitems => ?_
    subst hitems
    cases hflag
  | choices htype hchoices =>
    cases hchoices with
    | answer =>
      constructor
      · intro hbounded items hitems
        cases hitems
        exact hbounded
      · exact fun hbounded => hbounded _ rfl
    | none => exact iff_of_true (by decide) nofun
  | file => exact iff_of_true (by decide) nofun
  | scalar htype hscalar =>
    refine iff_of_true (by decide) fun items hitems => ?_
    subst hitems
    cases hscalar with
    | number _ hnumber => cases hnumber

theorem Reviewable.decision_of_field (hreviewable : Reviewable policy plan)
    (hfield : field ∈ plan.fields) :
    ∃ decision, plan.decisionById field.fieldId = some decision ∧ decision ∈ plan.decisions ∧
      decision.fieldId = field.fieldId := by
  obtain ⟨some', hmem, hsame⟩ := hreviewable.decided field hfield
  cases hfound : plan.decisionById field.fieldId with
  | none =>
    have hnone := List.find?_eq_none.mp hfound some' hmem
    simp [hsame] at hnone
  | some decision =>
    exact ⟨decision, rfl, List.mem_of_find?_eq_some hfound,
      by simpa using List.find?_some hfound⟩

theorem Reviewable.digest (hreviewable : Reviewable policy plan) :
    isSha256Digest plan.contract.selectedCvHash = true := by
  have hschema := (accepted_iff.mp hreviewable.accepted).1
  simp only [Forms.FormPlanV1.withinSchema, Forms.FormPlanV1.bindingsWithinSchema,
    Bool.and_eq_true, List.all_cons] at hschema
  tauto

/-- What the validators say of the decision for a field. -/
theorem Reviewable.valid (hreviewable : Reviewable policy plan) (hfield : field ∈ plan.fields)
    (hmem : decision ∈ plan.decisions) (hsame : decision.fieldId = field.fieldId) :
    decision.validateDecision = .ok () ∧
      validatePlanDecision policy.toTextPolicy plan field decision = .ok () := by
  obtain ⟨_, hshape, hanswers⟩ := accepted_iff.mp hreviewable.accepted
  obtain ⟨found, hfound, hvalid⟩ := hanswers.observed decision hmem
  have hids : found.fieldId = decision.fieldId := by
    simpa using List.find?_some hfound
  have hunique := List.inj_on_of_nodup_map hshape.fieldIds (List.mem_of_find?_eq_some hfound)
    hfield (hids.trans hsame)
  rw [hunique] at hvalid
  exact ⟨hanswers.decided decision hmem, hvalid⟩

theorem notBlank_of_valid {value : AnswerValue} (hresolved : decision.disposition = .resolved)
    (hvalue : decision.value = some value) (hvalid : decision.validateDecision = .ok ()) :
    NotBlank value := by
  simp only [AnswerDecisionV1.validateDecision, hresolved, hvalue, seq_eq_ok, require_eq_ok,
    Option.all_some] at hvalid
  obtain ⟨_, htext, htexts, _⟩ := hvalid
  cases value with
  | text text =>
    rintro rfl
    exact absurd htext (by decide)
  | texts texts =>
    rintro rfl
    exact absurd htexts (by decide)
  | flag | int | float => trivial

theorem Reviewable.left_of_resolved (hreviewable : Reviewable policy plan)
    (hfield : field ∈ plan.fields) (hmem : decision ∈ plan.decisions)
    (hsame : decision.fieldId = field.fieldId) (hresolved : decision.disposition = .resolved) :
    ∃ material count,
      Left policy field plan.contract.selectedCvHash decision.value material count ∧
        decisionMaterial policy field decision plan.contract.selectedCvHash =
          .ok (material, count) := by
  obtain ⟨hdecision, hvalid⟩ := hreviewable.valid hfield hmem hsame
  rw [validatePlanDecision, hresolved] at hvalid
  obtain ⟨value, hvalue, hanswered⟩ := answered_of_resolved hvalid
  obtain ⟨material, count, hleft, hmaterial⟩ := left_of_answered hreviewable.digest
    (notBlank_of_valid hresolved hvalue hdecision) hanswered
  refine ⟨material, count, hvalue ▸ hleft, ?_⟩
  rw [decisionMaterial, hresolved, hvalue]
  exact hmaterial

theorem Reviewable.optional_of_abstained (hreviewable : Reviewable policy plan)
    (hfield : field ∈ plan.fields) (hfound : plan.decisionById field.fieldId = some decision)
    (habstained : decision.disposition = .abstained) : field.required = false := by
  by_contra hrequired
  obtain ⟨_, hvalid⟩ := Bool.and_eq_true_iff.mp hreviewable.accepted
  have haccepted := validatePlan_eq_ok (of_decide_eq_true hvalid)
  obtain ⟨other, hother, hsame, hresolved⟩ :=
    haccepted.required hreviewable.ready hfield (by simpa using hrequired)
  obtain ⟨_, hshape, hanswers⟩ := accepted_iff.mp hreviewable.accepted
  have hids : decision.fieldId = field.fieldId := by
    simpa using List.find?_some hfound
  have hunique := List.inj_on_of_nodup_map hanswers.decisionIds
    (List.mem_of_find?_eq_some hfound) hother (hids.trans hsame.symm)
  rw [hunique, hresolved] at habstained
  cases habstained

theorem value_of_abstained (habstained : decision.disposition = .abstained)
    (hvalid : decision.validateDecision = .ok ()) : decision.value = none := by
  simp only [AnswerDecisionV1.validateDecision, habstained, seq_eq_ok, require_eq_ok,
    Option.isNone_iff_eq_none] at hvalid
  exact hvalid.1

theorem Reviewable.left_of_material (hreviewable : Reviewable policy plan)
    (hfield : field ∈ plan.fields) (hfound : plan.decisionById field.fieldId = some decision)
    (hmaterial : decisionMaterial policy field decision plan.contract.selectedCvHash =
      .ok (material, count)) :
    Left policy field plan.contract.selectedCvHash decision.value material count := by
  have hmem := List.mem_of_find?_eq_some hfound
  have hsame : decision.fieldId = field.fieldId := by
    simpa using List.find?_some hfound
  cases hdisposition : decision.disposition with
  | resolved =>
    obtain ⟨written, total, hleft, hwritten⟩ :=
      hreviewable.left_of_resolved hfield hmem hsame hdisposition
    cases hwritten.symm.trans hmaterial
    exact hleft
  | abstained =>
    have hnone := value_of_abstained hdisposition (hreviewable.valid hfield hmem hsame).1
    rw [decisionMaterial, hdisposition, hnone] at hmaterial
    obtain ⟨hoptional, hreview, htype⟩ := blank_of_material hmaterial
    obtain ⟨written, total, hleft, _, hwritten⟩ := @left_of_blank
      _ _ plan.contract.selectedCvHash hoptional hreview htype
    cases hwritten.symm.trans hmaterial
    rw [hnone]
    exact hleft
  | operatorRequired | operatorConfirmedBlank =>
    simp only [decisionMaterial, hdisposition] at hmaterial
    cases hmaterial

/-- A field can be bound when its id can be and its decision has a text of bounded entries. -/
theorem Reviewable.material_iff_bindable (hreviewable : Reviewable policy plan)
    (hfield : field ∈ plan.fields) (hfound : plan.decisionById field.fieldId = some decision) :
    (isFieldId field.fieldId = true ∧ ∃ material count, count ≤ maxSuccessfulEntries ∧
      decisionMaterial policy field decision plan.contract.selectedCvHash =
        .ok (material, count)) ↔ FieldBindable policy field decision := by
  have hmem := List.mem_of_find?_eq_some hfound
  have hsame : decision.fieldId = field.fieldId := by
    simpa using List.find?_some hfound
  refine and_congr_right fun _ => ?_
  cases hdisposition : decision.disposition with
  | resolved =>
    obtain ⟨material, count, hleft, hmaterial⟩ :=
      hreviewable.left_of_resolved hfield hmem hsame hdisposition
    constructor
    · rintro ⟨_, _, hbounded, hother⟩
      exact (left_countBounded_iff
        (hreviewable.left_of_material hfield hfound hother)).mp hbounded
    · exact fun hbounded =>
        ⟨material, count, (left_countBounded_iff hleft).mpr hbounded, hmaterial⟩
  | abstained =>
    have hnone := value_of_abstained hdisposition (hreviewable.valid hfield hmem hsame).1
    simp only [decisionMaterial, hdisposition, hnone]
    constructor
    · rintro ⟨material, count, _, hmaterial⟩
      exact (blank_of_material hmaterial).2
    · rintro ⟨hreview, htype⟩
      obtain ⟨material, count, _, hblank⟩ := @left_of_blank
        _ _ plan.contract.selectedCvHash
        (hreviewable.optional_of_abstained hfield hfound hdisposition) hreview htype
      exact ⟨material, count, hblank⟩
  | operatorRequired | operatorConfirmedBlank =>
    simp only [decisionMaterial, hdisposition]
    refine iff_of_false ?_ id
    rintro ⟨_, _, _, hmaterial⟩
    cases hmaterial

theorem reviewedAnswerBinding_eq_ok_iff {fieldId : String} :
    reviewedAnswerBinding fieldId fieldType valueSha256 count = .ok binding ↔
      binding.fieldId = fieldId ∧ binding.fieldType = fieldType ∧
        binding.valueSha256 = valueSha256 ∧ binding.successfulEntryCount = count := by
  unfold reviewedAnswerBinding
  split
  · constructor
    · rintro heq
      cases heq
      exact ⟨rfl, rfl, rfl, rfl⟩
    · rintro ⟨rfl, rfl, rfl, rfl⟩
      rfl
  · next hinvalid =>
    refine iff_of_false nofun ?_
    rintro ⟨rfl, rfl, rfl, rfl⟩
    exact hinvalid ⟨binding.fieldIdValid, binding.digestValid, binding.countBounded,
      binding.countPositive⟩

theorem bindField_eq_ok_iff (hfound : plan.decisionById field.fieldId = some decision) :
    bindField policy plan.decisions plan.contract.selectedCvHash field = .ok binding ↔
      ∃ material count,
        decisionMaterial policy field decision plan.contract.selectedCvHash =
            .ok (material, count) ∧
          binding.fieldId = field.fieldId ∧ binding.fieldType = field.fieldType ∧
          binding.valueSha256 = policy.sha256Hex material ∧
          binding.successfulEntryCount = count := by
  unfold bindField
  rw [show plan.decisions.find? (fun decision => decision.fieldId == field.fieldId) =
    some decision from hfound, bind_eq_ok]
  simp only [Prod.exists, reviewedAnswerBinding_eq_ok_iff]

theorem Reviewable.bindField_succeeds_iff (hreviewable : Reviewable policy plan)
    (hdigest : ∀ text, isSha256Digest (policy.sha256Hex text) = true)
    (hfield : field ∈ plan.fields) (hfound : plan.decisionById field.fieldId = some decision) :
    (∃ binding, bindField policy plan.decisions plan.contract.selectedCvHash field =
      .ok binding) ↔ FieldBindable policy field decision := by
  rw [← hreviewable.material_iff_bindable hfield hfound]
  simp only [bindField_eq_ok_iff hfound]
  constructor
  · rintro ⟨binding, material, count, hmaterial, hid, _, _, hcount⟩
    exact ⟨hid ▸ binding.fieldIdValid, material, count, hcount ▸ binding.countBounded, hmaterial⟩
  · rintro ⟨hid, material, count, hbounded, hmaterial⟩
    have hpositive := left_countPositive (hreviewable.left_of_material hfield hfound hmaterial)
    exact ⟨⟨field.fieldId, field.fieldType, policy.sha256Hex material, count, hid,
      hdigest material, hbounded, hpositive⟩, material, count, hmaterial, rfl, rfl, rfl, rfl⟩

/-! ## The law -/

def reviewedAnswers (policy : BindingPolicy) (plan : Forms.FormPlanV1) :
    Except String (List GreenhouseReviewedAnswerBinding) :=
  greenhouseReviewedAnswerBindings policy plan.fields plan.decisions plan.contract.selectedCvHash

def BoundInOrder (policy : BindingPolicy) (plan : Forms.FormPlanV1) : Prop :=
  ∃ bindings, reviewedAnswers policy plan = .ok bindings ∧
    bindings.map (fun binding => (binding.fieldId, binding.fieldType)) =
      plan.fields.map fun field => (field.fieldId, field.fieldType)

/-- Every decision for a field of the plan can be bound. -/
def Bindable (policy : BindingPolicy) (plan : Forms.FormPlanV1) : Prop :=
  ∀ field ∈ plan.fields, ∀ decision, plan.decisionById field.fieldId = some decision →
    FieldBindable policy field decision

/-- The texts that the bindings of a plan are digests of. -/
def boundTexts (policy : BindingPolicy) (plan : Forms.FormPlanV1) : List String :=
  plan.fields.filterMap fun field =>
    (plan.decisionById field.fieldId).bind fun decision =>
      match decisionMaterial policy field decision plan.contract.selectedCvHash with
      | .ok (material, _) => some material
      | .error _ => none

/-- No two of the texts of two plans have one digest. -/
def CollisionFree (policy : BindingPolicy) (first second : Forms.FormPlanV1) : Prop :=
  ∀ text ∈ boundTexts policy first, ∀ other ∈ boundTexts policy second,
    policy.sha256Hex text = policy.sha256Hex other → text = other

structure SameAnswers (first second : Forms.FormPlanV1) : Prop where
  answers : ∀ field ∈ first.fields, ∀ decision other,
    first.decisionById field.fieldId = some decision →
    second.decisionById field.fieldId = some other → SameAnswer decision.value other.value
  attachment : first.contract.selectedCvHash = second.contract.selectedCvHash

/-- The guards around the loop over the fields never fire. -/
theorem Reviewable.reviewedAnswers_eq (hreviewable : Reviewable policy plan) :
    reviewedAnswers policy plan =
      plan.fields.mapM (bindField policy plan.decisions plan.contract.selectedCvHash) := by
  obtain ⟨_, hshape, hanswers⟩ := accepted_iff.mp hreviewable.accepted
  have hnonempty : plan.fields.isEmpty = false := by
    have hone := hreviewable.oneFile
    cases hfields : plan.fields with
    | nil =>
      rw [hfields] at hone
      cases hone
    | cons => rfl
  have hobserved : (plan.decisions.map AnswerDecisionV1.fieldId).all
      (plan.fields.map FormFieldV1.fieldId).contains = true := by
    simp only [List.all_map, List.all_eq_true, Function.comp_apply, List.contains_iff_mem]
    intro decision hdecision
    obtain ⟨found, hfound, _⟩ := hanswers.observed decision hdecision
    exact List.mem_map.mpr ⟨found, List.mem_of_find?_eq_some hfound,
      by simpa using List.find?_some hfound⟩
  have hdecided : (plan.fields.map FormFieldV1.fieldId).all
      (plan.decisions.map AnswerDecisionV1.fieldId).contains = true := by
    simp only [List.all_map, List.all_eq_true, Function.comp_apply, List.contains_iff_mem]
    intro field hfield
    obtain ⟨decision, hdecision, hsame⟩ := hreviewable.decided field hfield
    exact List.mem_map.mpr ⟨decision, hdecision, hsame⟩
  have hunique : isUnique (plan.decisions.map AnswerDecisionV1.fieldId) = true ∧
      isUnique (plan.fields.map FormFieldV1.fieldId) = true :=
    ⟨decide_eq_true hanswers.decisionIds, decide_eq_true hshape.fieldIds⟩
  unfold reviewedAnswers greenhouseReviewedAnswerBindings
  dsimp only
  rw [hnonempty, hunique.1, hunique.2, hobserved, hdecided, hreviewable.digest,
    hreviewable.oneFile]
  generalize plan.fields.mapM (bindField policy plan.decisions plan.contract.selectedCvHash) = bound
  cases bound <;> rfl

theorem bindField_named (hbinding : bindField policy decisions selectedCvHash field = .ok binding) :
    (binding.fieldId, binding.fieldType) = (field.fieldId, field.fieldType) := by
  unfold bindField at hbinding
  split at hbinding
  · cases hbinding
  obtain ⟨_, _, hbinding⟩ := bind_eq_ok.mp hbinding
  obtain ⟨hid, htype, _⟩ := reviewedAnswerBinding_eq_ok_iff.mp hbinding
  rw [hid, htype]

theorem Reviewable.boundInOrder_iff (hreviewable : Reviewable policy plan)
    (hdigest : ∀ text, isSha256Digest (policy.sha256Hex text) = true) :
    BoundInOrder policy plan ↔ Bindable policy plan := by
  rw [BoundInOrder, hreviewable.reviewedAnswers_eq]
  constructor
  · rintro ⟨bindings, hbindings, _⟩ field hfield decision hfound
    obtain ⟨binding, _, hbinding⟩ := exists_result_of_mapM hbindings hfield
    exact (hreviewable.bindField_succeeds_iff hdigest hfield hfound).mp ⟨binding, hbinding⟩
  · intro hbindable
    have hsteps : ∀ field ∈ plan.fields, ∃ binding,
        bindField policy plan.decisions plan.contract.selectedCvHash field = .ok binding := by
      intro field hfield
      obtain ⟨decision, hfound, _⟩ := hreviewable.decision_of_field hfield
      exact (hreviewable.bindField_succeeds_iff hdigest hfield hfound).mpr
        (hbindable field hfield decision hfound)
    obtain ⟨bindings, hbindings⟩ := mapM_succeeds_iff.mpr hsteps
    exact ⟨bindings, hbindings, map_of_mapM hbindings fun _ _ hbinding => bindField_named hbinding⟩

theorem mem_boundTexts (hfield : field ∈ plan.fields)
    (hfound : plan.decisionById field.fieldId = some decision)
    (hmaterial : decisionMaterial policy field decision plan.contract.selectedCvHash =
      .ok (material, count)) : material ∈ boundTexts policy plan := by
  refine List.mem_filterMap.mpr ⟨field, hfield, ?_⟩
  rw [hfound, Option.bind_some, hmaterial]

variable {first second : Forms.FormPlanV1} {bindings : List GreenhouseReviewedAnswerBinding}

/-- What is left on a field of two plans has one text where the bindings are the same. -/
theorem common_text (hfirst : Reviewable policy first) (hsecond : Reviewable policy second)
    (hfields : first.fields = second.fields) (hfree : CollisionFree policy first second)
    (hbound : reviewedAnswers policy first = .ok bindings)
    (hagain : reviewedAnswers policy second = .ok bindings) (hfield : field ∈ first.fields)
    (hfound : first.decisionById field.fieldId = some decision)
    (hother : second.decisionById field.fieldId = some other) :
    ∃ material count total,
      Left policy field first.contract.selectedCvHash decision.value material count ∧
        Left policy field second.contract.selectedCvHash other.value material total := by
  rw [hfirst.reviewedAnswers_eq] at hbound
  rw [hsecond.reviewedAnswers_eq, ← hfields] at hagain
  obtain ⟨binding, hbinding, hsame⟩ := exists_common_of_mapM hbound hagain hfield
  obtain ⟨material, count, hmaterial, _, _, hdigest, _⟩ := (bindField_eq_ok_iff hfound).mp hbinding
  obtain ⟨text, total, htext, _, _, hagain, _⟩ := (bindField_eq_ok_iff hother).mp hsame
  have heq : material = text := by
    apply hfree _ (mem_boundTexts hfield hfound hmaterial) _
      (mem_boundTexts (hfields ▸ hfield) hother htext)
    rw [← hdigest, hagain]
  subst heq
  exact ⟨material, count, total, hfirst.left_of_material hfield hfound hmaterial,
    hsecond.left_of_material (hfields ▸ hfield) hother htext⟩

/-- A file control is left with the digest of the selected CV. -/
theorem material_of_file (hfile : field.fieldType = .file)
    (hleft : Left policy field selectedCvHash value material count) :
    material = tagged "f" (JsonText.quoted selectedCvHash.toList) := by
  cases hleft with
  | file => rfl
  | flag htype | scalar htype =>
    rw [hfile] at htype
    exact absurd htype (by decide)
  | choices htype =>
    rw [hfile] at htype
    cases htype

theorem sameAnswers_of_reviewedAnswers (hfloats : FloatRepr policy.floatText)
    (hfirst : Reviewable policy first) (hsecond : Reviewable policy second)
    (hfields : first.fields = second.fields) (hfree : CollisionFree policy first second)
    (hbound : reviewedAnswers policy first = .ok bindings)
    (hagain : reviewedAnswers policy second = .ok bindings) : SameAnswers first second where
  answers := by
    intro field hfield decision other hfound hother
    obtain ⟨_, _, _, hleft, hright⟩ :=
      common_text hfirst hsecond hfields hfree hbound hagain hfield hfound hother
    exact sameAnswer_of_left hfloats hleft hright
  attachment := by
    have hsome : 0 < first.fields.countP fun field => field.fieldType == .file := by
      rw [hfirst.oneFile]
      decide
    obtain ⟨field, hfield, hfile⟩ := List.countP_pos_iff.mp hsome
    rw [beq_iff_eq] at hfile
    obtain ⟨decision, hfound, _⟩ := hfirst.decision_of_field hfield
    obtain ⟨other, hother, _⟩ := hsecond.decision_of_field (hfields ▸ hfield)
    obtain ⟨_, _, _, hleft, hright⟩ :=
      common_text hfirst hsecond hfields hfree hbound hagain hfield hfound hother
    have htext := (material_of_file hfile hleft).symm.trans (material_of_file hfile hright)
    exact String.toList_inj.mp (JsonText.quoted_inj (tagged_inj htext).2)

end Plans

/-! ### A note and a resume -/

def cvDigest : String :=
  String.ofList (List.replicate 64 'a')

def sampleDigest (text : String) : String :=
  if text.toList[2]? = some 'f' then
    "754b064efc10ec707e1a75990b8bf81859f5ffe3bf7aed07a03c5a3973cccf84"
  else "cef6875326cc40d1b1639ecb6090d5fa5b6b73dc5655d36670294c11bc11a8a7"

/-- No field below is answered by a double; any exact spelling does. -/
def sampleFloatText : PyFloat → String
  | .finite value => String.ofList ('.' :: List.replicate (Encodable.encode value) '0')
  | .infinite _ | .nan => "e"

theorem sampleFloatText_repr : FloatRepr sampleFloatText where
  injective := by
    intro first second heq
    have hlists := (List.cons.inj (String.ofList_inj.mp heq)).2
    exact Encodable.encode_injective (List.replicate_left_injective '0' hlists)
  spelled := by
    intro value char hmem
    rw [sampleFloatText, String.toList_ofList, List.mem_cons, List.mem_replicate] at hmem
    rcases hmem with rfl | ⟨_, rfl⟩ <;> decide
  marked := by
    intro value
    refine ⟨'.', ?_, .inl rfl⟩
    rw [sampleFloatText, String.toList_ofList]
    exact .head _

def sampleBindingPolicy : BindingPolicy where
  toPlanPolicy := { samplePolicy with sha256Hex := sampleDigest }
  floatText := sampleFloatText

def resumeField : FormFieldV1 where
  fieldId := "resume"
  canonicalName := some "resume"
  label := "Resume"
  fieldType := .file
  required := true
  position := 0
  options := []
  constraints := noConstraints
  sensitiveCategory := none

def noteField : FormFieldV1 where
  fieldId := "note"
  canonicalName := none
  label := "Note"
  fieldType := .textarea
  required := false
  position := 1
  options := []
  constraints := noConstraints
  sensitiveCategory := none

def resumeDecision : AnswerDecisionV1 where
  fieldId := "resume"
  disposition := .resolved
  provenance := .verifiedAttachment
  value := some (.text verifiedAttachmentSentinel)
  confidence := none
  evidenceRefs := [verifiedAttachmentEvidenceRef]
  reasonCode := none

/-- An optional note that the operator has not got to. -/
def openNote : AnswerDecisionV1 where
  fieldId := "note"
  disposition := .operatorRequired
  provenance := .abstained
  value := none
  confidence := none
  evidenceRefs := []
  reasonCode := some .requiredFieldUnknown

/-- A note of the operator's. -/
def writtenNote (text : String) : AnswerDecisionV1 where
  fieldId := "note"
  disposition := .resolved
  provenance := .operatorConfirmed
  value := some (.text text)
  confidence := none
  evidenceRefs := ["operator_confirmation:note"]
  reasonCode := none

def notePlan (note : AnswerDecisionV1) (hnote : (note.provenance == .localLlm) = false) :
    Forms.FormPlanV1 where
  contract := { sampleContract with
    formFingerprint := cvDigest
    selectedCvHash := cvDigest
    attachedCvHash := cvDigest }
  fields := [resumeField, noteField]
  disclosures := []
  decisions := [resumeDecision, note]
  locale := "en"
  localLlm := by simp [sampleContract, resumeDecision, hnote]

theorem reviewable_notePlan (hid : note.fieldId = "note")
    (haccepted : (notePlan note hnote).accepted sampleBindingPolicy.toPlanPolicy = true) :
    Reviewable sampleBindingPolicy (notePlan note hnote) where
  accepted := haccepted
  ready := rfl
  decided := by
    intro field hfield
    rcases List.mem_cons.mp hfield with rfl | hfield
    · exact ⟨resumeDecision, .head _, rfl⟩
    · rw [List.mem_singleton.mp hfield]
      exact ⟨note, .tail _ (.head _), hid⟩
  oneFile := rfl
  verified := by
    intro field hfield hfile decision hdecision hsame
    rcases List.mem_cons.mp hfield with rfl | hfield
    · rcases List.mem_cons.mp hdecision with rfl | hdecision
      · exact ⟨rfl, rfl⟩
      · rw [List.mem_singleton.mp hdecision, hid] at hsame
        exact absurd hsame (by decide)
    · rw [List.mem_singleton.mp hfield] at hfile
      cases hfile

/-- An accepted, ready plan that the adapter cannot bind: an optional note is still open. -/
theorem openNote_not_bound :
    Reviewable sampleBindingPolicy (notePlan openNote rfl) ∧
      ¬BoundInOrder sampleBindingPolicy (notePlan openNote rfl) := by
  refine ⟨reviewable_notePlan rfl (by decide +kernel), ?_⟩
  rintro ⟨bindings, hbindings, _⟩
  have hrefused : reviewedAnswers sampleBindingPolicy (notePlan openNote rfl) =
      .error bindingInvalid := by
    decide +kernel
  rw [hrefused] at hbindings
  cases hbindings

/-- A plan without answers confirmed blank is bound, field by field, exactly when its decisions
can be, and its bindings tell its answers. -/
theorem reviewedAnswers_law (policy : BindingPolicy)
    (hdigest : ∀ text, isSha256Digest (policy.sha256Hex text) = true)
    (hfloats : FloatRepr policy.floatText) :
    (∀ plan : Forms.FormPlanV1, Reviewable policy plan →
      (∀ decision ∈ plan.decisions, decision.disposition ≠ .operatorConfirmedBlank) →
        (BoundInOrder policy plan ↔ Bindable policy plan)) ∧
      ∀ first second : Forms.FormPlanV1, Reviewable policy first → Reviewable policy second →
        first.fields = second.fields → CollisionFree policy first second →
        ∀ bindings, reviewedAnswers policy first = .ok bindings →
          reviewedAnswers policy second = .ok bindings → SameAnswers first second := by
  refine ⟨fun plan hreviewable _ => hreviewable.boundInOrder_iff hdigest, ?_⟩
  intro first second hfirst hsecond hfields hfree bindings hbound hagain
  exact sameAnswers_of_reviewedAnswers hfloats hfirst hsecond hfields hfree hbound hagain

theorem sampleDigest_isDigest (text : String) :
    isSha256Digest (sampleBindingPolicy.sha256Hex text) = true := by
  change isSha256Digest (sampleDigest text) = true
  unfold sampleDigest
  split <;> decide +kernel

/-- A note is bound, whichever way its lines are broken. -/
theorem reviewedAnswers_law_notes :
    BoundInOrder sampleBindingPolicy (notePlan (writtenNote "Line one\nLine two") rfl) ∧
      SameAnswers (notePlan (writtenNote "Line one\nLine two") rfl)
        (notePlan (writtenNote "Line one\r\nLine two") rfl) := by
  have hfirst : Reviewable sampleBindingPolicy
      (notePlan (writtenNote "Line one\nLine two") rfl) :=
    reviewable_notePlan rfl (by decide +kernel)
  have hsecond : Reviewable sampleBindingPolicy
      (notePlan (writtenNote "Line one\r\nLine two") rfl) :=
    reviewable_notePlan rfl (by decide +kernel)
  have hsame : reviewedAnswers sampleBindingPolicy
      (notePlan (writtenNote "Line one\r\nLine two") rfl) =
        reviewedAnswers sampleBindingPolicy
          (notePlan (writtenNote "Line one\nLine two") rfl) := by
    decide +kernel
  have hfree : CollisionFree sampleBindingPolicy
      (notePlan (writtenNote "Line one\nLine two") rfl)
      (notePlan (writtenNote "Line one\r\nLine two") rfl) := by
    unfold CollisionFree
    decide +kernel
  obtain ⟨hbound, hanswers⟩ :=
    reviewedAnswers_law sampleBindingPolicy sampleDigest_isDigest sampleFloatText_repr
  have hnote : BoundInOrder sampleBindingPolicy
      (notePlan (writtenNote "Line one\nLine two") rfl) := by
    refine (hbound _ hfirst (by decide +kernel)).mpr fun field hfield decision hfound => ?_
    rcases List.mem_cons.mp hfield with rfl | hfield
    · cases hfound.symm.trans (by decide +kernel : _ = some resumeDecision)
      exact ⟨by decide +kernel, nofun⟩
    · rw [List.mem_singleton.mp hfield] at hfound ⊢
      cases hfound.symm.trans
        (by decide +kernel : _ = some (writtenNote "Line one\nLine two"))
      exact ⟨by decide +kernel, nofun⟩
  obtain ⟨bindings, hbindings, hnamed⟩ := hnote
  exact ⟨⟨bindings, hbindings, hnamed⟩, hanswers _ _ hfirst hsecond rfl hfree bindings hbindings
    (hsame.trans hbindings)⟩

end JobApplyAgent.Adapters
