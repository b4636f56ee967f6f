import JobApplyAgent.Adapters.MultipartBodies

/-!
# What a form sends of a reviewed answer

A reviewed answer as content: one text, the choices, a box that is checked or not, or the
selected document; and when the entries of a body carry it.
-/

namespace JobApplyAgent.Adapters

open Domain Forms Library

/-- The content of a reviewed answer, with the line breaks that a form sends. -/
inductive ReviewedContent where
  | one (text : List Char)
  | chosen (texts : List (List Char))
  | checked (value : Bool)
  | document

/-- The types whose content is one text. -/
def isScalar (fieldType : FieldType) : Bool :=
  fieldType != .file && fieldType != .multiSelect && !booleanFieldTypes.contains fieldType

/-- What a value says by the type of its field; without one the control is left blank. -/
inductive ContentOf (spelling : AnswerValue → Option (List Char)) (fieldType : FieldType) :
    Option AnswerValue → ReviewedContent → Prop where
  | flag (htype : fieldType ∈ booleanFieldTypes) (value : Bool) :
      ContentOf spelling fieldType (some (.flag value)) (.checked value)
  | choices (htype : fieldType = .multiSelect) (items : List String) :
      ContentOf spelling fieldType (some (.texts items)) (.chosen (items.map normalizedBreaks))
  | attachment (htype : fieldType = .file) :
      ContentOf spelling fieldType (some (.text verifiedAttachmentSentinel)) .document
  | scalar (htype : isScalar fieldType = true) {value : AnswerValue} {text : List Char}
      (htext : spelling value = some text) : ContentOf spelling fieldType (some value) (.one text)
  | blankText (htype : isScalar fieldType = true) : ContentOf spelling fieldType none (.one [])
  | blankChoices (htype : fieldType = .multiSelect) :
      ContentOf spelling fieldType none (.chosen [])
  | unchecked (htype : fieldType ∈ booleanFieldTypes) :
      ContentOf spelling fieldType none (.checked false)

/-- The observations of a field are its reviewed content: the same text, the same choices in any
order, one entry for a checked box, or the selected document. -/
def ReviewedContent.CarriedBy (cvSha256 : String) :
    ReviewedContent → List Observation → Prop
  | .one text, observed => observed = [.text text]
  | .chosen texts, observed =>
    ∃ values : List (List Char), observed = values.map Observation.text ∧ values.Perm texts
  | .checked value, observed =>
    ∃ values : List (List Char), observed = values.map Observation.text ∧
      values.length = if value then 1 else 0
  | .document, observed => observed = [.file cvSha256]

/-- The type of a field goes with the kind of its content. -/
def ReviewedContent.Fits (fieldType : FieldType) : ReviewedContent → Prop
  | .one _ => isScalar fieldType = true
  | .chosen _ => fieldType = .multiSelect
  | .checked _ => fieldType ∈ booleanFieldTypes
  | .document => fieldType = .file

variable {content : ReviewedContent}

variable {cvSha256 : String}

theorem ContentOf.fits {spelling : AnswerValue → Option (List Char)} {value : Option AnswerValue}
    (hcontent : ContentOf spelling fieldType value content) :
    content.Fits fieldType := by
  cases hcontent <;> assumption

theorem of_mapM_text? {observed : List Observation}
    (htexts : observed.mapM Observation.text? = some values) :
    observed = values.map Observation.text := by
  induction observed generalizing values with
  | nil =>
    cases htexts
    rfl
  | cons first observed ih =>
    simp only [List.mapM_cons, Option.bind_eq_bind, Option.bind_eq_some_iff] at htexts
    obtain ⟨value, hvalue, rest, hrest, hvalues⟩ := htexts
    cases hvalues
    cases first with
    | text found =>
      cases hvalue
      rw [List.map_cons, ← ih hrest]
    | file digest => cases hvalue

/-- What the texts of a field show, by its type. -/
def shownContent (fieldType : FieldType) (texts : List (List Char)) :
    Except PayloadRefusal ReviewedContent :=
  if fieldType = .multiSelect then .ok (.chosen texts)
  else if fieldType ∈ booleanFieldTypes then do
    demand (decide (texts.length ≤ 1)) formRefusal
    return .checked (texts.length == 1)
  else
    match texts with
    | [value] => .ok (.one value)
    | _ => .error formRefusal

/-- Entries that are read as material are texts, and the material is that of what they show. -/
theorem shown_of_read {α : Type} {spell : ReviewedContent → α} {result : α}
    (hread : (orRefuse (observed.mapM Observation.text?) formRefusal >>= fun texts =>
      (shownContent fieldType texts).map spell) = .ok result) :
    ∃ texts found, observed = texts.map Observation.text ∧
      shownContent fieldType texts = .ok found ∧ result = spell found := by
  obtain ⟨texts, htexts, hshown⟩ := bind_eq_ok.mp hread
  cases hfound : shownContent fieldType texts with
  | error => cases hfound ▸ hshown
  | ok found =>
    rw [hfound] at hshown
    cases hshown
    exact ⟨texts, found, of_mapM_text? (orRefuse_eq_ok.mp htexts), hfound, rfl⟩

theorem sortedTexts_perm {first second : List (List Char)}
    (heq : sortedTexts first = sortedTexts second) : first.Perm second := by
  have hfirst : (sortedTexts first).Perm first := List.mergeSort_perm _ _
  have hsecond : (sortedTexts second).Perm second := List.mergeSort_perm _ _
  exact hfirst.symm.trans (heq ▸ hsecond)

/-- What is shown is the reviewed content, where both have one spelling and equal spellings tell
the content up to the order of the choices. -/
theorem carriedBy_of_shown {α : Type} {spell : ReviewedContent → α}
    (hone : ∀ text other, spell (.one text) = spell (.one other) → text = other)
    (hchosen : ∀ texts others, spell (.chosen texts) = spell (.chosen others) → texts.Perm others)
    (hchecked : ∀ value other, spell (.checked value) = spell (.checked other) → value = other)
    {texts : List (List Char)} {found : ReviewedContent}
    (hshown : shownContent fieldType texts = .ok found) (hfile : fieldType ≠ .file)
    (hfits : content.Fits fieldType) (hsame : spell found = spell content) :
    content.CarriedBy cvSha256 (texts.map Observation.text) := by
  rw [shownContent.eq_def] at hshown
  split at hshown
  · next htype =>
    cases hshown
    cases content with
    | chosen others => exact ⟨texts, rfl, hchosen _ _ hsame⟩
    | document => exact absurd hfits hfile
    | one text =>
      rw [ReviewedContent.Fits, htype] at hfits
      cases hfits
    | checked value =>
      rw [ReviewedContent.Fits, htype] at hfits
      exact absurd hfits (by decide)
  · next hmany =>
    split at hshown
    · next htype =>
      obtain ⟨_, hbound, hshown⟩ := bind_eq_ok.mp hshown
      rw [demand_eq_ok, decide_eq_true_eq] at hbound
      cases hshown
      cases content with
      | checked value =>
        refine ⟨texts, rfl, ?_⟩
        rw [← hchecked _ _ hsame]
        by_cases hlength : texts.length = 1
        · simp [hlength]
        · simp only [beq_iff_eq, hlength, if_false]
          omega
      | one text =>
        rw [ReviewedContent.Fits, isScalar, Bool.and_eq_true, Bool.not_eq_true'] at hfits
        rw [List.contains_iff_mem.mpr htype] at hfits
        cases hfits.2
      | chosen texts => exact absurd hfits hmany
      | document => exact absurd hfits hfile
    · next hscalar =>
      split at hshown
      · next value =>
        cases hshown
        cases content with
        | one text =>
          rw [hone _ _ hsame]
          rfl
        | checked value => exact absurd hfits hscalar
        | chosen texts => exact absurd hfits hmany
        | document => exact absurd hfits hfile
      · cases hshown

theorem carriedBy_document (hfits : content.Fits .file) :
    content.CarriedBy cvSha256 [.file cvSha256] := by
  cases content with
  | document => rfl
  | one text => cases hfits
  | chosen texts => cases hfits
  | checked value =>
    have hnot : FieldType.file ∉ booleanFieldTypes := by decide
    exact absurd hfits hnot

/-! ## Roles of entries -/

section Roles

variable {ρ σ : Type} {plays : FormEntry → ρ → Prop}

theorem exists_role (hplays : List.Forall₂ plays entries roles) {entry : FormEntry}
    (hentry : entry ∈ entries) : ∃ role, plays entry role := by
  induction hplays with
  | nil => cases hentry
  | cons hplay _ ih =>
    rcases List.mem_cons.mp hentry with rfl | hmem
    · exact ⟨_, hplay⟩
    · exact ih hmem

theorem count_filterMap_marked {κ : Type} [DecidableEq ρ] [DecidableEq κ] {mark : ρ → Option κ}
    {key : κ} (hmark : ∀ other, mark other = some key ↔ other = role)
    (roles : List ρ) : roles.count role = (roles.filterMap mark).count key := by
  rw [List.count, List.count, List.countP_filterMap]
  refine List.countP_congr fun other _ => ?_
  rw [beq_iff_eq, ← hmark other]
  cases mark other <;> simp

/-- A loop whose every step finds a role for its entry finds roles for all of them. -/
theorem exists_roles {take : σ → FormEntry → Except PayloadRefusal σ}
    {taken : List FormEntry → List ρ → σ → Prop}
    (hstep : ∀ {entries roles state next entry}, taken entries roles state →
      take state entry = .ok next → ∃ role, taken (entries ++ [entry]) (roles ++ [role]) next)
    (htaken : taken entries roles state)
    (hwalk : more.foldlM take state = .ok last) : ∃ roles, taken (entries ++ more) roles last := by
  induction more generalizing entries roles state with
  | nil =>
    cases hwalk
    exact ⟨roles, by rwa [List.append_nil]⟩
  | cons entry more ih =>
    rw [List.foldlM_cons] at hwalk
    obtain ⟨next, hnext, hrest⟩ := bind_eq_ok.mp hwalk
    obtain ⟨role, hnext⟩ := hstep htaken hnext
    obtain ⟨roles, hlast⟩ := ih hnext hrest
    exact ⟨roles, by rwa [List.append_assoc] at hlast⟩

/-- A part with a file name is the selected CV, where every file that plays a role is. -/
theorem document_of_reads (hfree : Function.Injective policy.digest)
    {cvSha256 : String} (hfile : ∀ {name filename mediaType size digest role},
      plays (.file name filename mediaType size digest) role → digest = cvSha256)
    (hread : List.Forall₂ ((strictReading policy).Reads policy.digest) parts entries)
    (hplays : List.Forall₂ plays entries roles)
    (hcv : policy.digest cv = cvSha256) (hpart : part ∈ parts)
    (hfilename : (strictReading policy).filename part ≠ none) : part.payload = some cv := by
  induction hread generalizing roles with
  | nil => cases hpart
  | cons hfirst _ ih =>
    cases hplays with
    | cons hplay hrest =>
      rcases List.mem_cons.mp hpart with rfl | hmem
      · cases hfirst with
        | text _ hnone => exact absurd hnone hfilename
        | file _ _ hpayload => rw [hpayload, hfree ((hfile hplay).trans hcv.symm)]
      · exact ih hrest hmem

end Roles

end JobApplyAgent.Adapters
