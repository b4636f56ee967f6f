import JobApplyAgent.Adapters.AnswerBindings
import Std.Data.String.ToInt

/-!
# What the text of an answer tells

The canonical text that a reviewed answer is bound by tells the answer, up to the style of its
line breaks, the order of its choices, and a blank control against an unchecked one.
-/

namespace JobApplyAgent.Adapters

open Domain Forms Library

/-! ## Line breaks -/

/-- A line feed as a form sends it, any other character as it is. -/
def sentBreak (character : Char) : List Char :=
  if character = '\n' then ['\r', '\n'] else [character]

theorem sent_ne_lineFeed (text rest : List Char) : text.flatMap sentBreak ≠ '\n' :: rest := by
  intro heq
  cases text with
  | nil => cases heq
  | cons char text =>
    rw [List.flatMap_cons, sentBreak] at heq
    split at heq
    · cases heq
    · next hother => exact hother (List.cons.inj heq).1

theorem sent_injective : Function.Injective fun text : List Char => text.flatMap sentBreak := by
  intro first second heq
  dsimp only at heq
  induction first generalizing second with
  | nil =>
    cases second with
    | nil => rfl
    | cons char second =>
      rw [List.flatMap_cons, sentBreak] at heq
      split at heq <;> cases heq
  | cons char first ih =>
    cases second with
    | nil =>
      rw [List.flatMap_cons, sentBreak] at heq
      split at heq <;> cases heq
    | cons other second =>
      simp only [List.flatMap_cons, sentBreak] at heq
      split at heq
      · next hbreak =>
        split at heq
        · next hother =>
          rw [hbreak, hother, ih (List.append_cancel_left heq)]
        · next hother =>
          exact absurd (List.cons.inj heq).2.symm (sent_ne_lineFeed _ _)
      · split at heq
        · exact absurd (List.cons.inj heq).2 (sent_ne_lineFeed _ _)
        obtain ⟨hsame, hrest⟩ := List.cons.inj heq
        rw [hsame, ih hrest]

theorem lineFeeds_of_normalizedBreaks {first second : String}
    (heq : normalizedBreaks first = normalizedBreaks second) :
    lineFeeds first = lineFeeds second :=
  sent_injective heq

theorem joinedBreaks_of_plain {text : List Char} (hplain : '\r' ∉ text) :
    joinedBreaks text = text := by
  induction text with
  | nil => rfl
  | cons char text ih =>
    rw [List.mem_cons, not_or] at hplain
    rw [joinedBreaks.eq_2, ih hplain.2]
    intro rest hreturn
    exact absurd hreturn.symm hplain.1

variable {text : String}

/-- A text without carriage returns stands for itself. -/
theorem lineFeeds_of_plain (hplain : '\r' ∉ text.toList) :
    lineFeeds text = text.toList := by
  rw [lineFeeds, joinedBreaks_of_plain hplain]
  refine (List.map_congr_left fun char hmem => ?_).trans (List.map_id _)
  rw [if_neg]
  · rfl
  · rintro rfl
    exact hplain hmem

theorem lineFeeds_eq_nil (hnil : lineFeeds text = []) : text = "" := by
  rw [lineFeeds, List.map_eq_nil_iff] at hnil
  rw [← String.toList_eq_nil_iff]
  cases htext : text.toList with
  | nil => rfl
  | cons char rest =>
    rw [htext, joinedBreaks.eq_def] at hnil
    split at hnil
    · cases hnil
    · cases hnil
    · next hempty => exact hempty

/-! ## Numbers -/

/-- What is known of `str(value)` for finite doubles: distinct ones are spelled differently, in
ASCII, and none as an integer. -/
structure FloatRepr (floatText : PyFloat → String) : Prop where
  injective : ∀ first second : ℚ, floatText (.finite first) = floatText (.finite second) →
    first = second
  spelled : ∀ value : ℚ, ∀ character ∈ (floatText (.finite value)).toList,
    character ∈ "+-.0123456789e".toList
  marked : ∀ value : ℚ, ∃ character ∈ (floatText (.finite value)).toList,
    character = '.' ∨ character = 'e'

theorem intText_characters {value : ℤ}
    (hmem : char ∈ (toString value).toList) :
    char = '-' ∨ char.isDigit = true := by
  cases value with
  | ofNat value =>
    change char ∈ (Nat.repr value).toList at hmem
    rw [Nat.toList_repr] at hmem
    exact .inr (Nat.isDigit_of_mem_toDigits (by decide) (by decide) hmem)
  | negSucc value =>
    change char ∈ ("-" ++ Nat.repr (value + 1)).toList at hmem
    rw [String.toList_append, List.mem_append, Nat.toList_repr] at hmem
    rcases hmem with hsign | hdigit
    · exact .inl (List.mem_singleton.mp hsign)
    · exact .inr (Nat.isDigit_of_mem_toDigits (by decide) (by decide) hdigit)

theorem intText_injective {first second : ℤ} (heq : toString first = toString second) :
    first = second :=
  Int.repr_injective heq

theorem intText_plain (value : ℤ) : '\r' ∉ (toString value).toList := by
  intro hmem
  rcases intText_characters hmem with heq | hdigit
  · cases heq
  · cases hdigit

theorem intText_ne_empty (value : ℤ) : toString value ≠ "" := by
  intro hempty
  rw [← String.toList_eq_nil_iff] at hempty
  cases value with
  | ofNat value =>
    change (Nat.repr value).toList = [] at hempty
    rw [Nat.toList_repr] at hempty
    exact Nat.toDigits_ne_nil hempty
  | negSucc value =>
    change ("-" ++ Nat.repr (value + 1)).toList = [] at hempty
    rw [String.toList_append] at hempty
    cases hempty

section Answers

variable {policy : BindingPolicy}

/-- The number that a value is, as a field of numbers takes it. -/
inductive IsNumber : AnswerValue → Prop where
  | int (value : ℤ) : IsNumber (.int value)
  | float (value : ℚ) : IsNumber (.float (.finite value))

variable {value : AnswerValue} {text : String} {first second : Option AnswerValue}

theorem isNumber_of_finiteDouble (hnumber : finiteDouble value = some number) :
    IsNumber value := by
  cases value with
  | int value => exact .int value
  | float value =>
    cases value with
    | finite value => exact .float value
    | infinite | nan => cases hnumber
  | text | flag | texts => cases hnumber

theorem scalarText_of_isNumber (hnumber : IsNumber value) :
    ∃ text, scalarText policy value = some text := by
  cases hnumber with
  | int value => exact ⟨_, rfl⟩
  | float value => exact ⟨_, rfl⟩

theorem scalarText_plain (hfloats : FloatRepr policy.floatText) (hnumber : IsNumber value)
    (htext : scalarText policy value = some text) :
    '\r' ∉ text.toList ∧ text ≠ "" := by
  cases hnumber with
  | int value =>
    cases htext
    exact ⟨intText_plain value, intText_ne_empty value⟩
  | float value =>
    cases htext
    refine ⟨fun hmem => ?_, fun hempty => ?_⟩
    · exact absurd (hfloats.spelled value _ hmem) (by decide)
    · obtain ⟨char, hmem, _⟩ := hfloats.marked value
      rw [hempty] at hmem
      cases hmem

theorem scalarText_injective (hfloats : FloatRepr policy.floatText) {first second : AnswerValue}
    (hfirst : IsNumber first) (hsecond : IsNumber second)
    (heq : scalarText policy first = scalarText policy second) : first = second := by
  have hapart : ∀ (value : ℤ) (number : ℚ),
      toString value ≠ policy.floatText (.finite number) := by
    intro value number hsame
    obtain ⟨char, hmem, hmark⟩ := hfloats.marked number
    rw [← hsame] at hmem
    rcases intText_characters hmem with rfl | hdigit
    · rcases hmark with hmark | hmark <;> cases hmark
    · rcases hmark with rfl | rfl <;> cases hdigit
  cases hfirst with
  | int value =>
    cases hsecond with
    | int other => rw [intText_injective (Option.some.inj heq)]
    | float other => exact absurd (Option.some.inj heq) (hapart value other)
  | float value =>
    cases hsecond with
    | int other => exact absurd (Option.some.inj heq).symm (hapart other value)
    | float other => rw [hfloats.injective value other (Option.some.inj heq)]

/-! ## The text of an answer -/

/-- What the validators leave of a resolved value: it fits its field, or it stands for the
reviewed CV. -/
inductive Answered (policy : BindingPolicy) (field : FormFieldV1) : AnswerValue → Prop where
  | fits {value : AnswerValue} (hfits : FitsField policy.toTextPolicy field value)
      (hfile : field.fieldType ≠ .file) : Answered policy field value
  | attached (hfile : field.fieldType = .file)
      (hreviewed : policy.fieldIsReviewedCvAttachment field = true) :
      Answered policy field (.text verifiedAttachmentSentinel)

theorem fieldType_of_reviewedCv {textPolicy : TextPolicy}
    (hreviewed : textPolicy.fieldIsReviewedCvAttachment field = true) :
    field.fieldType = .file := by
  by_contra hother
  rw [TextPolicy.fieldIsReviewedCvAttachment, if_pos hother] at hreviewed
  cases hreviewed

theorem answered_of_resolved
    (hvalid : validateResolvedDecision policy.toTextPolicy plan field decision = .ok ()) :
    ∃ value, decision.value = some value ∧ Answered policy field value := by
  by_cases hattached : decision.provenance = .verifiedAttachment
  · obtain ⟨_, hattachment, _⟩ := bind_eq_ok.mp hvalid
    rw [validateAttachment, if_pos hattached, require_eq_ok] at hattachment
    simp only [Bool.and_eq_true, beq_iff_eq] at hattachment
    obtain ⟨⟨⟨⟨⟨hreviewed, hvalue⟩, _⟩, _⟩, _⟩, _⟩ := hattachment
    exact ⟨_, hvalue, .attached (fieldType_of_reviewedCv hreviewed) hreviewed⟩
  · have hresolved := validateResolvedDecision_eq_ok hvalid
    obtain ⟨value, hvalue, hfits, _⟩ := hresolved.value hattached
    exact ⟨value, hvalue, .fits hfits (hresolved.file hattached)⟩

/-- An answer that is there. -/
def NotBlank : AnswerValue → Prop
  | .text value => value ≠ ""
  | .texts values => values ≠ []
  | .flag _ | .int _ | .float _ => True

/-- The state of a control that is ticked or not. -/
inductive FlagOf : Option AnswerValue → Bool → Prop where
  | answer (flag : Bool) : FlagOf (some (.flag flag)) flag
  | unchecked : FlagOf none false

inductive ChoicesOf : Option AnswerValue → List String → Prop where
  | answer {items : List String} (hitems : items ≠ []) : ChoicesOf (some (.texts items)) items
  | none : ChoicesOf none []

/-- The text of a control that sends one. -/
inductive ScalarOf (policy : BindingPolicy) (field : FormFieldV1) :
    Option AnswerValue → String → Prop where
  | text {text : String} (hother : field.fieldType ≠ .number) (htext : text ≠ "") :
      ScalarOf policy field (some (.text text)) text
  | number {value : AnswerValue} {text : String} (htype : field.fieldType = .number)
      (hnumber : IsNumber value) (htext : scalarText policy value = some text) :
      ScalarOf policy field (some value) text
  | blank : ScalarOf policy field none ""

def scalarMaterial (text : String) : String :=
  tagged "s" (JsonText.quoted (normalizedBreaks text))

def choicesMaterial (items : List String) : String :=
  tagged "m" (JsonText.array ((sortedTexts (items.map normalizedBreaks)).map JsonText.quoted))

/-- What is left on the control of a field, with its text and the number of its entries. -/
inductive Left (policy : BindingPolicy) (field : FormFieldV1) (selectedCvHash : String) :
    Option AnswerValue → String → ℕ → Prop where
  | flag {value : Option AnswerValue} {flag : Bool} (htype : field.fieldType ∈ booleanFieldTypes)
      (hflag : FlagOf value flag) :
      Left policy field selectedCvHash value (tagged "b" (booleanText flag)) (if flag then 1 else 0)
  | choices {value : Option AnswerValue} {items : List String}
      (htype : field.fieldType = .multiSelect) (hchoices : ChoicesOf value items) :
      Left policy field selectedCvHash value (choicesMaterial items) items.length
  | file (htype : field.fieldType = .file) :
      Left policy field selectedCvHash (some (.text verifiedAttachmentSentinel))
        (tagged "f" (JsonText.quoted selectedCvHash.toList)) 1
  | scalar {value : Option AnswerValue} {text : String}
      (htype : field.fieldType ∈ scalarFieldTypes) (hscalar : ScalarOf policy field value text) :
      Left policy field selectedCvHash value (scalarMaterial text) 1

theorem answerMaterial_of_scalar (htype : field.fieldType ∈ scalarFieldTypes)
    (htext : scalarText policy value = some text) :
    greenhouseAnswerMaterial policy field value selectedCvHash = .ok (scalarMaterial text, 1) := by
  have hapart : ∀ fieldType ∈ scalarFieldTypes, fieldType ∉ booleanFieldTypes ∧
      fieldType ≠ .multiSelect ∧ fieldType ≠ .file := by
    decide
  obtain ⟨hflag, hchoices, hfile⟩ := hapart _ htype
  unfold greenhouseAnswerMaterial
  rw [if_neg hflag, if_neg hchoices, if_neg hfile, if_pos htype, htext]
  rfl

/-- Every answer that the validators leave has a text. -/
theorem left_of_answered (hhash : isSha256Digest selectedCvHash = true) (hblank : NotBlank value)
    (hanswered : Answered policy field value) :
    ∃ material count, Left policy field selectedCvHash (some value) material count ∧
      greenhouseAnswerMaterial policy field value selectedCvHash = .ok (material, count) := by
  cases hanswered with
  | attached hfile hreviewed =>
    refine ⟨_, _, .file hfile, ?_⟩
    unfold greenhouseAnswerMaterial
    rw [if_neg (by rw [hfile]; decide), if_neg (by rw [hfile]; decide), if_pos hfile, hreviewed,
      hhash]
    rfl
  | fits hfits hfile =>
    cases hfits with
    | @flag flag htype =>
      refine ⟨_, _, .flag htype (.answer flag), ?_⟩
      unfold greenhouseAnswerMaterial
      rw [if_pos htype]
    | @number number double htype hdouble =>
      have hnumber := isNumber_of_finiteDouble hdouble
      obtain ⟨text, htext⟩ := @scalarText_of_isNumber policy _ hnumber
      have hscalar : field.fieldType ∈ scalarFieldTypes := by
        rw [htype]
        decide
      exact ⟨_, _, .scalar hscalar (.number htype hnumber htext),
        answerMaterial_of_scalar hscalar htext⟩
    | @text text htype =>
      have hscalar : ∀ fieldType ∈ textFieldTypes, fieldType ≠ .file →
          fieldType ∈ scalarFieldTypes ∧ fieldType ≠ .number := by
        decide
      obtain ⟨hscalar, hother⟩ := hscalar _ htype hfile
      exact ⟨_, _, .scalar hscalar (.text hother hblank),
        answerMaterial_of_scalar hscalar rfl⟩
    | @choice text htype =>
      have hscalar : field.fieldType ∈ scalarFieldTypes ∧ field.fieldType ≠ .number := by
        rcases htype with htype | htype <;> rw [htype] <;> decide
      exact ⟨_, _, .scalar hscalar.1 (.text hscalar.2 hblank),
        answerMaterial_of_scalar hscalar.1 rfl⟩
    | @choices items htype =>
      refine ⟨_, _, .choices htype (.answer hblank), ?_⟩
      unfold greenhouseAnswerMaterial
      rw [if_neg (by rw [htype]; decide), if_pos htype]
      simp only [sortedTexts, List.length_mergeSort, List.length_map]
      rfl

/-- The controls whose empty state is bound. -/
def blankFieldTypes : List FieldType :=
  [.text, .textarea, .select, .date, .number, .email, .phone, .url, .multiSelect, .checkbox]

/-- A control is left as it was where it is optional, needs no review and has an empty state. -/
theorem left_of_blank (hoptional : field.required = false)
    (hreview : policy.fieldRequiresOperatorReview field = false)
    (htype : field.fieldType ∈ blankFieldTypes) :
    ∃ material count, Left policy field selectedCvHash none material count ∧
      count ≤ maxSuccessfulEntries ∧
      greenhouseReviewedBlankMaterial policy field = .ok (material, count) := by
  have hguard : ¬(field.required || policy.fieldRequiresOperatorReview field) = true := by
    rw [hoptional, hreview]
    decide
  unfold greenhouseReviewedBlankMaterial
  rw [if_neg hguard]
  cases hfound : field.fieldType with
  | multiSelect => exact ⟨_, _, .choices hfound .none, by decide, by simp
    [choicesMaterial, sortedTexts]⟩
  | checkbox => exact ⟨_, _, .flag (by rw [hfound]; decide) .unchecked, by decide, rfl⟩
  | radio | file | consent | attestation | unknown =>
    rw [hfound] at htype
    exact absurd htype (by decide)
  | text | textarea | select | date | number | email | phone | url =>
    exact ⟨_, _, .scalar (by rw [hfound]; decide) .blank, by decide, rfl⟩

theorem blank_of_material (hmaterial : greenhouseReviewedBlankMaterial policy field = .ok result) :
    field.required = false ∧ policy.fieldRequiresOperatorReview field = false ∧
      field.fieldType ∈ blankFieldTypes := by
  unfold greenhouseReviewedBlankMaterial at hmaterial
  split at hmaterial
  · cases hmaterial
  next hguard =>
  rw [Bool.or_eq_true, not_or, Bool.not_eq_true, Bool.not_eq_true] at hguard
  refine ⟨hguard.1, hguard.2, ?_⟩
  cases hfound : field.fieldType with
  | radio | file | consent | attestation | unknown =>
    rw [hfound] at hmaterial
    cases hmaterial
  | _ => decide

/-! ## What a text tells -/

/-- The same answer up to line breaks, the order of choices and blank against unchecked. -/
def SameAnswer : Option AnswerValue → Option AnswerValue → Prop
  | some (.text first), some (.text second) => lineFeeds first = lineFeeds second
  | some (.texts first), some (.texts second) =>
    (first.map lineFeeds).Perm (second.map lineFeeds)
  | some (.flag value), none | none, some (.flag value) => value = false
  | first, second => first = second

theorem SameAnswer.refl (value : Option AnswerValue) : SameAnswer value value := by
  cases value with
  | none => rfl
  | some value =>
    cases value with
    | texts => exact List.Perm.refl _
    | _ => rfl

theorem tagged_inj {tag : String} {second : List Char}
    (heq : tagged tag item = tagged other second) : tag.toList = other.toList ∧ item = second :=
  JsonText.array_pair_inj (String.ofList_inj.mp heq)

theorem booleanText_injective {first second : Bool}
    (heq : booleanText first = booleanText second) : first = second := by
  cases first <;> cases second <;> first | rfl | cases heq

theorem scalarMaterial_inj {first second : String}
    (heq : scalarMaterial first = scalarMaterial second) : lineFeeds first = lineFeeds second :=
  lineFeeds_of_normalizedBreaks (JsonText.quoted_inj (tagged_inj heq).2)

theorem choicesMaterial_inj {first second : List String}
    (heq : choicesMaterial first = choicesMaterial second) :
    (first.map lineFeeds).Perm (second.map lineFeeds) := by
  have hsorted : sortedTexts (first.map normalizedBreaks) =
      sortedTexts (second.map normalizedBreaks) :=
    JsonText.array_quoted_inj (tagged_inj heq).2
  have hfirst : (sortedTexts (first.map normalizedBreaks)).Perm (first.map normalizedBreaks) :=
    List.mergeSort_perm _ _
  have hsecond : (sortedTexts (second.map normalizedBreaks)).Perm
      (second.map normalizedBreaks) :=
    List.mergeSort_perm _ _
  rw [hsorted] at hfirst
  have hperm := hfirst.symm.trans hsecond
  have hmap : ∀ items : List String, items.map normalizedBreaks =
      (items.map lineFeeds).map fun text => text.flatMap sentBreak := by
    intro items
    rw [List.map_map]
    rfl
  rw [hmap, hmap, List.map_perm_map_iff sent_injective] at hperm
  exact hperm

theorem sameAnswer_of_flags {flag : Bool} (hfirst : FlagOf first flag)
    (hsecond : FlagOf second flag) : SameAnswer first second := by
  cases hfirst <;> cases hsecond <;> rfl

theorem sameAnswer_of_choices {others : List String} (hfirst : ChoicesOf first items)
    (hsecond : ChoicesOf second others)
    (hperm : (items.map lineFeeds).Perm (others.map lineFeeds)) :
    SameAnswer first second := by
  cases hfirst with
  | answer hitems =>
    cases hsecond with
    | answer => exact hperm
    | none => exact absurd (List.map_eq_nil_iff.mp hperm.eq_nil) hitems
  | none =>
    cases hsecond with
    | answer hothers => exact absurd (List.map_eq_nil_iff.mp hperm.symm.eq_nil) hothers
    | none => rfl

theorem sameAnswer_of_scalars (hfloats : FloatRepr policy.floatText)
    (hfirst : ScalarOf policy field first text) (hsecond : ScalarOf policy field second other)
    (hfeeds : lineFeeds text = lineFeeds other) : SameAnswer first second := by
  cases hfirst with
  | text hother htext =>
    cases hsecond with
    | text => exact hfeeds
    | number htype => exact absurd htype hother
    | blank => exact absurd (lineFeeds_eq_nil hfeeds) htext
  | number htype hnumber htext =>
    obtain ⟨hplain, hne⟩ := scalarText_plain hfloats hnumber htext
    cases hsecond with
    | text hother => exact absurd htype hother
    | number _ hagain hother =>
      have hsame : text = other := by
        rwa [lineFeeds_of_plain hplain,
          lineFeeds_of_plain (scalarText_plain hfloats hagain hother).1,
          String.toList_inj] at hfeeds
      rw [scalarText_injective hfloats hnumber hagain (by rw [htext, hother, hsame])]
      exact .refl _
    | blank => exact absurd (lineFeeds_eq_nil hfeeds) hne
  | blank =>
    cases hsecond with
    | text _ hne => exact absurd (lineFeeds_eq_nil hfeeds.symm) hne
    | number _ hnumber htext =>
      exact absurd (lineFeeds_eq_nil hfeeds.symm) (scalarText_plain hfloats hnumber htext).2
    | blank => rfl

theorem sameAnswer_of_left (hfloats : FloatRepr policy.floatText) {hash : String}
    {material : String}
    (hfirst : Left policy field selectedCvHash first material count)
    (hsecond : Left policy field hash second material total) : SameAnswer first second := by
  generalize hmaterial : material = written at hsecond
  cases hfirst with
  | flag _ hflag =>
    cases hsecond with
    | flag _ hother =>
      rw [booleanText_injective (tagged_inj hmaterial).2] at hflag
      exact sameAnswer_of_flags hflag hother
    | _ => exact absurd (tagged_inj hmaterial).1 (by decide)
  | choices _ hchoices =>
    cases hsecond with
    | choices _ hothers =>
      exact sameAnswer_of_choices hchoices hothers (choicesMaterial_inj hmaterial)
    | _ => exact absurd (tagged_inj hmaterial).1 (by decide)
  | file =>
    cases hsecond with
    | file => exact .refl _
    | _ => exact absurd (tagged_inj hmaterial).1 (by decide)
  | scalar _ hscalar =>
    cases hsecond with
    | scalar _ hother =>
      exact sameAnswer_of_scalars hfloats hscalar hother (scalarMaterial_inj hmaterial)
    | _ => exact absurd (tagged_inj hmaterial).1 (by decide)

end Answers

end JobApplyAgent.Adapters
