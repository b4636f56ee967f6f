import JobApplyAgent.Adapters.AshbyPayload
import JobApplyAgent.Adapters.BindingTexts
import JobApplyAgent.Adapters.ReviewedContent

/-!
# Bodies that Ashby is sent

What the loop over the parts has taken at every place, and what an accepted body carries of the
reviewed answers.
-/

namespace JobApplyAgent.Adapters.Ashby

open Domain Forms Library

/-! ## Roles -/

inductive Role where
  | answer (fieldId : String)
  | attachment (fieldId : String)
  | system (name : String)
  | submit
  deriving DecidableEq

def Role.system? : Role → Option String
  | .system name => some name
  | _ => none

section Roles

variable (expectation : PayloadExpectation)

/-- What an entry is there for by its name, and the value that is expected of it. -/
inductive Named : FormEntry → Role → Prop where
  | answer {control : FieldControl} {name value : List Char}
      (hcontrol : control ∈ expectation.fieldControls)
      (hname : control.names = [String.ofList name]) :
      Named (.text name value) (.answer control.fieldId)
  | attachment {control : FieldControl} {name filename mediaType : List Char} {size : ℕ}
      (hcontrol : control ∈ expectation.fieldControls)
      (hname : control.names = [String.ofList name]) (htype : control.fieldType = .file)
      (hfilename : filename ≠ []) (hsize : size ≠ 0) :
      Named (.file name filename mediaType size expectation.selectedCvHash)
        (.attachment control.fieldId)
  | system {name value : List Char}
      (hunbound : ∀ control ∈ expectation.fieldControls, control.names ≠ [String.ofList name])
      (hname : String.ofList name ∈ expectation.systemControls) (hvalue : value ≠ []) :
      Named (.text name value) (.system (String.ofList name))
  | submit {name value : List Char}
      (hunbound : ∀ control ∈ expectation.fieldControls, control.names ≠ [String.ofList name])
      (hother : String.ofList name ∉ expectation.systemControls)
      (hname : String.ofList name = expectation.submitControl.1)
      (hvalue : String.ofList value = expectation.submitControl.2) :
      Named (.text name value) .submit

/-- An entry of a file control is a file, and no other entry is. -/
structure Plays (entry : FormEntry) (role : Role) : Prop where
  named : Named expectation entry role
  typed : ∀ control ∈ expectation.fieldControls, control.names = [String.ofList entry.name] →
    (entry.isFile = true ↔ control.fieldType = .file)

end Roles

variable {policy : WirePolicy} {expectation : PayloadExpectation}

/-! ## The expectation -/

namespace PayloadExpectation

theorem names_single (expectation : PayloadExpectation) :
    ∀ control ∈ expectation.fieldControls, ∃ name, control.names = [name] := by
  have hvalid := expectation.contractValid
  simp only [requestContractValid, Bool.and_eq_true, List.all_eq_true, beq_iff_eq] at hvalid
  intro control hcontrol
  have hsingle := (hvalid.1.1.1.1.1.1.1.1.1.1.1.2 control hcontrol).1.2
  exact List.length_eq_one_iff.mp hsingle

theorem controls_unique (expectation : PayloadExpectation) :
    (expectation.fieldControls.map FieldControl.fieldId).Nodup ∧
      (expectation.fieldControls.flatMap FieldControl.names).Nodup := by
  have hvalid := expectation.contractValid
  simp only [requestContractValid, Bool.and_eq_true, isUnique, decide_eq_true_eq] at hvalid
  exact ⟨hvalid.1.1.1.1.1.1.1.1.1.1.2, hvalid.1.1.1.1.1.1.1.1.1.2⟩

variable {first second : FieldControl}

theorem control_of_field (expectation : PayloadExpectation)
    (hfirst : first ∈ expectation.fieldControls) (hsecond : second ∈ expectation.fieldControls)
    (hid : first.fieldId = second.fieldId) : first = second :=
  List.inj_on_of_nodup_map expectation.controls_unique.1 hfirst hsecond hid

theorem control_of_name (expectation : PayloadExpectation)
    (hfirst : first ∈ expectation.fieldControls) (hsecond : second ∈ expectation.fieldControls)
    (hname : first.names = second.names) : first = second := by
  have hnames : (expectation.fieldControls.map FieldControl.names).Nodup := by
    have hflat := List.nodup_flatMap.mp expectation.controls_unique.2
    refine List.pairwise_map.mpr (hflat.2.imp_of_mem fun {one other} hone _ hdisjoint hsame => ?_)
    obtain ⟨name, hsingle⟩ := expectation.names_single one hone
    have hmem : name ∈ one.names := by
      rw [hsingle]
      exact .head _
    exact hdisjoint hmem (hsame ▸ hmem)
  exact List.inj_on_of_nodup_map hnames hfirst hsecond hname

theorem controlFor_eq_some {control : FieldControl} :
    expectation.controlFor name = some control ↔
      control ∈ expectation.fieldControls ∧ control.names = [String.ofList name] := by
  constructor
  · intro hfound
    exact ⟨List.mem_of_find?_eq_some hfound, by simpa using List.find?_some hfound⟩
  · rintro ⟨hmem, hname⟩
    cases hfound : expectation.controlFor name with
    | none =>
      have hnone := List.find?_eq_none.mp hfound control hmem
      simp [hname] at hnone
    | some found =>
      have hsame : found.names = [String.ofList name] := by
        simpa using List.find?_some hfound
      rw [expectation.control_of_name (List.mem_of_find?_eq_some hfound) hmem
        (hsame.trans hname.symm)]

theorem controlFor_eq_none (hnone : expectation.controlFor name = none) :
    ∀ control ∈ expectation.fieldControls, control.names ≠ [String.ofList name] := by
  intro control hmem
  simpa using List.find?_eq_none.mp hnone control hmem

end PayloadExpectation

variable {entry : FormEntry} {digest : String}

/-- An entry plays one role. -/
theorem Named.unique {first second : Role} (hfirst : Named expectation entry first)
    (hsecond : Named expectation entry second) :
    first = second := by
  cases hfirst with
  | answer hcontrol hname =>
    cases hsecond with
    | answer hother hsame =>
      rw [expectation.control_of_name hcontrol hother (hname.trans hsame.symm)]
    | system hunbound => exact absurd hname (hunbound _ hcontrol)
    | submit hunbound => exact absurd hname (hunbound _ hcontrol)
  | attachment hcontrol hname =>
    cases hsecond with
    | attachment hother hsame =>
      rw [expectation.control_of_name hcontrol hother (hname.trans hsame.symm)]
  | system hunbound hsystem _ =>
    cases hsecond with
    | answer hcontrol hname => exact absurd hname (hunbound _ hcontrol)
    | system => rfl
    | submit _ hother => exact absurd hsystem hother
  | submit hunbound hother =>
    cases hsecond with
    | answer hcontrol hname => exact absurd hname (hunbound _ hcontrol)
    | system _ hsystem _ => exact absurd hsystem hother
    | submit => rfl

/-! ## What the loop has taken -/

/-- The field that an entry is observed for. -/
def ownerOf (expectation : PayloadExpectation) (entry : FormEntry) : Option String :=
  (expectation.controlFor entry.name).map FieldControl.fieldId

def observedOf (expectation : PayloadExpectation) (entry : FormEntry) :
    Option (String × Observation) :=
  (ownerOf expectation entry).map fun id => (id, entry.observation)

/-- The state of the loop behind some entries, by the roles that they play. -/
structure Taken (expectation : PayloadExpectation) (entries : List FormEntry) (roles : List Role)
    (walk : PayloadWalk) : Prop where
  canonical : walk.canonical = entries
  named : List.Forall₂ (Named expectation) entries roles
  observed : walk.observed = entries.filterMap (observedOf expectation)
  systems : walk.systemSeen = (roles.filterMap Role.system?).reverse
  systemsOnce : walk.systemSeen.Nodup
  submits : walk.submitSeen = roles.count .submit

theorem taken_start : Taken expectation [] [] .start where
  canonical := rfl
  named := .nil
  observed := rfl
  systems := rfl
  systemsOnce := .nil
  submits := rfl

theorem Taken.text (htaken : Taken expectation entries roles walk)
    (htake : takeText expectation walk name value = .ok next) :
    ∃ role, Taken expectation (entries ++ [.text name value]) (roles ++ [role]) next := by
  simp only [takeText] at htake
  obtain ⟨_, _, htake⟩ := bind_eq_ok.mp htake
  split at htake
  · next control hcontrol =>
    cases htake
    obtain ⟨hmem, hname⟩ := PayloadExpectation.controlFor_eq_some.mp hcontrol
    have hadds : observedOf expectation (.text name value) =
        some (control.fieldId, .text value) := by
      simp [observedOf, ownerOf, FormEntry.name, FormEntry.observation, hcontrol]
    refine ⟨.answer control.fieldId, ?_⟩
    exact {
      canonical := by rw [htaken.canonical]
      named := List.rel_append htaken.named (.cons (.answer hmem hname) .nil)
      observed := by simp [htaken.observed, hadds]
      systems := by simp [htaken.systems, Role.system?]
      systemsOnce := htaken.systemsOnce
      submits := by simp [htaken.submits] }
  · next hnone =>
    have hunbound := PayloadExpectation.controlFor_eq_none hnone
    have hadds : observedOf expectation (.text name value) = none := by
      simp [observedOf, ownerOf, FormEntry.name, hnone]
    split at htake
    · next hsystem =>
      obtain ⟨_, hvalue, hnext⟩ := bind_eq_ok.mp htake
      rw [demand_eq_ok, Bool.and_eq_true] at hvalue
      cases hnext
      refine ⟨.system (String.ofList name), ?_⟩
      exact {
        canonical := by rw [htaken.canonical]
        named := List.rel_append htaken.named (.cons
          (.system hunbound (by simpa using hsystem) (by simpa using hvalue.1)) .nil)
        observed := by simp [htaken.observed, hadds]
        systems := by simp [htaken.systems, Role.system?]
        systemsOnce := List.nodup_cons.mpr ⟨by simpa using hvalue.2, htaken.systemsOnce⟩
        submits := by simp [htaken.submits] }
    · next hsystem =>
      obtain ⟨_, hvalue, hnext⟩ := bind_eq_ok.mp htake
      rw [demand_eq_ok, Bool.and_eq_true, beq_iff_eq, beq_iff_eq] at hvalue
      cases hnext
      refine ⟨.submit, ?_⟩
      exact {
        canonical := by rw [htaken.canonical]
        named := List.rel_append htaken.named (.cons
          (.submit hunbound (by simpa using hsystem) hvalue.1 hvalue.2) .nil)
        observed := by simp [htaken.observed, hadds]
        systems := by simp [htaken.systems, Role.system?]
        systemsOnce := htaken.systemsOnce
        submits := by simp [htaken.submits] }

theorem Taken.file (htaken : Taken expectation entries roles walk)
    (htake : takeFile expectation walk name filename mediaType size digest = .ok next) :
    ∃ role, Taken expectation (entries ++ [.file name filename mediaType size digest])
      (roles ++ [role]) next := by
  simp only [takeFile] at htake
  obtain ⟨control, hcontrol, htake⟩ := bind_eq_ok.mp htake
  obtain ⟨_, hfile, hnext⟩ := bind_eq_ok.mp htake
  rw [orRefuse_eq_ok] at hcontrol
  simp only [demand_eq_ok, Bool.and_eq_true, beq_iff_eq, bne_iff_ne, Bool.not_eq_true',
    List.isEmpty_eq_false_iff] at hfile
  obtain ⟨⟨⟨htype, hfilename⟩, hsize⟩, hdigest⟩ := hfile
  cases hnext
  obtain ⟨hmem, hname⟩ := PayloadExpectation.controlFor_eq_some.mp hcontrol
  have hadds : observedOf expectation (.file name filename mediaType size digest) =
      some (control.fieldId, .file digest) := by
    simp [observedOf, ownerOf, FormEntry.name, FormEntry.observation, hcontrol]
  have hnamed : Named expectation (.file name filename mediaType size digest)
      (.attachment control.fieldId) := by
    rw [hdigest]
    exact .attachment hmem hname htype hfilename hsize
  refine ⟨.attachment control.fieldId, ?_⟩
  exact {
    canonical := by rw [htaken.canonical]
    named := List.rel_append htaken.named (.cons hnamed .nil)
    observed := by simp [htaken.observed, hadds]
    systems := by simp [htaken.systems, Role.system?]
    systemsOnce := htaken.systemsOnce
    submits := by simp [htaken.submits] }

/-- One step of the loop. -/
theorem Taken.take (htaken : Taken expectation entries roles walk)
    (htake : takeEntry expectation walk entry = .ok next) :
    ∃ role, Taken expectation (entries ++ [entry]) (roles ++ [role]) next := by
  cases entry with
  | text name value => exact htaken.text htake
  | file => exact htaken.file htake

/-! ## Accepted bodies -/

theorem readPart_reads (hread : readPart policy part = .ok entry) :
    (strictReading policy).Reads policy.digest part entry := by
  simp only [readPart] at hread
  obtain ⟨_, _, hread⟩ := bind_eq_ok.mp hread
  obtain ⟨_, _, hread⟩ := bind_eq_ok.mp hread
  obtain ⟨_, _, hread⟩ := bind_eq_ok.mp hread
  obtain ⟨⟨name, filename⟩, hnames, hread⟩ := bind_eq_ok.mp hread
  obtain ⟨_, _, hread⟩ := bind_eq_ok.mp hread
  obtain ⟨payload, hpayload, hread⟩ := bind_eq_ok.mp hread
  rw [orRefuse_eq_ok] at hpayload
  obtain ⟨hname, hfilename⟩ := names_eq_ok hnames
  cases filename with
  | none =>
    obtain ⟨_, _, hread⟩ := bind_eq_ok.mp hread
    obtain ⟨value, hvalue, hread⟩ := bind_eq_ok.mp hread
    obtain ⟨_, _, hentry⟩ := bind_eq_ok.mp hread
    cases hentry
    exact .text hname hfilename hpayload (orRefuse_eq_ok.mp hvalue)
  | some found =>
    cases found with
    | encoded => cases hread
    | plain filename =>
      obtain ⟨_, _, hentry⟩ := bind_eq_ok.mp hread
      cases hentry
      exact .file hname hfilename hpayload

/-- A body that is accepted: its entries, the state that the loop ends in, and the checks behind
it. -/
structure Accepted (policy : WirePolicy) (expectation : PayloadExpectation) (contentType : String)
    (body : List UInt8) (digest : String) (message : MailMessage) (entries : List FormEntry)
    (roles : List Role) (walk : PayloadWalk) : Prop where
  parsed : parsedBody policy contentType body = some message
  read : List.Forall₂ ((strictReading policy).Reads policy.digest) message.parts entries
  taken : Taken expectation entries roles walk
  systems : ∀ name, name ∈ walk.systemSeen ↔ name ∈ expectation.systemControls
  oneSubmit : roles.count .submit = 1
  checked : ∀ control ∈ expectation.fieldControls,
    checkControl policy expectation walk control = .ok ()
  digest : canonicalPayloadCommitment policy entries = digest

theorem accepted_of_commitment
    (hdigest : multipartPayloadCommitment policy expectation contentType body = .ok digest) :
    ∃ message entries roles walk,
      Accepted policy expectation contentType body digest message entries roles walk := by
  simp only [multipartPayloadCommitment] at hdigest
  obtain ⟨_, _, hdigest⟩ := bind_eq_ok.mp hdigest
  obtain ⟨_, _, hdigest⟩ := bind_eq_ok.mp hdigest
  obtain ⟨_, _, hdigest⟩ := bind_eq_ok.mp hdigest
  obtain ⟨_, _, hdigest⟩ := bind_eq_ok.mp hdigest
  obtain ⟨message, hmessage, hdigest⟩ := bind_eq_ok.mp hdigest
  obtain ⟨_, _, hdigest⟩ := bind_eq_ok.mp hdigest
  obtain ⟨_, _, hdigest⟩ := bind_eq_ok.mp hdigest
  obtain ⟨walk, hwalk, hdigest⟩ := bind_eq_ok.mp hdigest
  obtain ⟨_, hseen, hdigest⟩ := bind_eq_ok.mp hdigest
  obtain ⟨_, hchecked, hdigest⟩ := bind_eq_ok.mp hdigest
  simp only [demand_eq_ok, Bool.and_eq_true, List.all_eq_true, List.contains_iff_mem,
    beq_iff_eq] at hseen
  obtain ⟨entries, hread, htakes⟩ := foldlM_read hwalk
  obtain ⟨roles, htaken⟩ := exists_roles (fun htaken hnext => htaken.take hnext) taken_start htakes
  rw [List.nil_append] at htaken
  refine ⟨message, entries, roles, walk, ?_⟩
  exact {
    parsed := orRefuse_eq_ok.mp hmessage
    read := hread.imp fun _ _ => readPart_reads
    taken := htaken
    systems := fun name => ⟨hseen.1.1 name, hseen.1.2 name⟩
    oneSubmit := htaken.submits.symm.trans hseen.2
    checked := fun control hmem => forM_eq_ok hchecked hmem
    digest := by
      rw [← htaken.canonical]
      exact Except.ok.inj hdigest }

/-! ## Reviewed content -/

/-- The text that content is bound by. -/
def material (cvHash : String) : ReviewedContent → List Char
  | .one text => valueMaterial text
  | .chosen texts => multiMaterial texts
  | .checked value => boolMaterial value
  | .document => fileMaterial cvHash

theorem isScalar_of_other (hfile : fieldType ≠ .file) (hmany : fieldType ≠ .multiSelect)
    (hflag : fieldType ∉ booleanFieldTypes) :
    isScalar fieldType = true := by
  simp [isScalar, hfile, hmany, hflag]

/-- What a value is bound by is the text of its content. -/
theorem content_of_material {text : List Char}
    (hmaterial : reviewedMaterial policy.toBindingPolicy fieldType value cvHash = .ok text) :
    ∃ content, ContentOf (scalarSpelling policy.toBindingPolicy) fieldType (some value) content ∧
      text = material cvHash content := by
  rw [reviewedMaterial.eq_def] at hmaterial
  split at hmaterial
  · next htype =>
    split at hmaterial
    · next hattached =>
      cases hmaterial
      rw [hattached]
      exact ⟨_, .attachment htype, rfl⟩
    · cases hmaterial
  · next hfile =>
    split at hmaterial
    · next htype =>
      split at hmaterial
      · next items =>
        cases hmaterial
        exact ⟨_, .choices htype items, rfl⟩
      · cases hmaterial
    · next hmany =>
      split at hmaterial
      · next htype =>
        split at hmaterial
        · next flag =>
          cases hmaterial
          exact ⟨_, .flag htype flag, rfl⟩
        · cases hmaterial
      · next hflag =>
        split at hmaterial
        · next spelled hspelled =>
          cases hmaterial
          exact ⟨_, .scalar (isScalar_of_other hfile hmany hflag) hspelled, rfl⟩
        · cases hmaterial

theorem answerMaterial_of_text (hfile : fieldType ≠ .file) :
    answerMaterial fieldType observed cvHash =
      orRefuse (observed.mapM Observation.text?) formRefusal >>= fun texts =>
        (shownContent fieldType texts).map (material cvHash) := by
  rw [answerMaterial, if_neg hfile]
  refine bind_congr fun texts => ?_
  unfold shownContent
  split
  · rfl
  split
  · cases demand (decide (texts.length ≤ 1)) formRefusal <;> rfl
  · rcases texts with _ | ⟨_, _ | _⟩ <;> rfl

/-- What was observed has the material of reviewed content only if it is that content. -/
theorem carried_of_observed (hfits : content.Fits fieldType)
    (hfile : fieldType ≠ .file)
    (hobserved : answerMaterial fieldType observed cvHash = .ok (material cvHash content)) :
    content.CarriedBy cvHash observed := by
  rw [answerMaterial_of_text hfile] at hobserved
  obtain ⟨texts, found, rfl, hshown, hsame⟩ := shown_of_read hobserved
  refine carriedBy_of_shown (fun _ _ heq => List.append_cancel_left heq) ?_ ?_ hshown hfile hfits
    hsame.symm
  · intro texts others heq
    have harray := List.append_cancel_left heq
    exact sortedTexts_perm (JsonText.array_asciiQuoted_selfDelimiting.injective harray)
  · intro value other heq
    have hdigit := List.append_cancel_left heq
    cases value <;> cases other <;> simp_all

/-! ## The entries of one control -/

/-- The entries that carry the name of a control. -/
def entriesOf (control : FieldControl) (entries : List FormEntry) : List FormEntry :=
  entries.filter fun entry => control.names == [String.ofList entry.name]

/-- What the loop observes of a field is what the entries of its control show. -/
theorem observedFor_taken (htaken : Taken expectation entries roles walk) {control : FieldControl}
    (hcontrol : control ∈ expectation.fieldControls) :
    observedFor walk.observed control.fieldId =
      (entriesOf control entries).map FormEntry.observation := by
  rw [htaken.observed]
  refine (observedFor_log entries _).trans (congrArg _ (List.filter_congr fun entry _ => ?_))
  rw [Bool.eq_iff_iff, beq_iff_eq, beq_iff_eq, ownerOf, Option.map_eq_some_iff]
  constructor
  · rintro ⟨found, hfound, hid⟩
    obtain ⟨hmem, hsame⟩ := PayloadExpectation.controlFor_eq_some.mp hfound
    rw [← expectation.control_of_field hmem hcontrol hid, hsame]
  · intro hname
    exact ⟨control, PayloadExpectation.controlFor_eq_some.mpr ⟨hcontrol, hname⟩, rfl⟩

section Accepted

variable {digest : String} {message : MailMessage}

variable {control : FieldControl}

section

variable (haccepted : Accepted policy expectation contentType body digest message entries
  roles walk)
include haccepted

theorem Accepted.observed (hcontrol : control ∈ expectation.fieldControls) :
    ∃ binding ∈ expectation.answerBindings, binding.fieldId = control.fieldId ∧
      binding.fieldType = control.fieldType ∧
        ∃ text, answerMaterial control.fieldType
            ((entriesOf control entries).map FormEntry.observation) expectation.selectedCvHash =
              .ok text ∧
          policy.digest (utf8 text) = binding.valueSha256 := by
  have hchecked := haccepted.checked control hcontrol
  rw [checkControl, observedFor_taken haccepted.taken hcontrol] at hchecked
  obtain ⟨binding, hbinding, hchecked⟩ := bind_eq_ok.mp hchecked
  obtain ⟨_, htype, hchecked⟩ := bind_eq_ok.mp hchecked
  obtain ⟨text, htext, hdigest⟩ := bind_eq_ok.mp hchecked
  rw [orRefuse_eq_ok] at hbinding
  rw [demand_eq_ok, beq_iff_eq] at htype hdigest
  exact ⟨binding, List.mem_of_find?_eq_some hbinding, by simpa using List.find?_some hbinding,
    htype, text, htext, hdigest⟩

/-- A file control has the selected CV, and nothing else. -/
theorem Accepted.attached (hcontrol : control ∈ expectation.fieldControls)
    (htype : control.fieldType = .file) :
    (entriesOf control entries).map FormEntry.observation =
      [.file expectation.selectedCvHash] := by
  obtain ⟨_, _, _, _, _, htext, _⟩ := haccepted.observed hcontrol
  rw [answerMaterial, if_pos htype] at htext
  split at htext
  · next hone => exact hone
  · cases htext

/-- An entry with the name of a file control is a file, and no other entry is. -/
theorem Accepted.typed (hentry : entry ∈ entries) (hcontrol : control ∈ expectation.fieldControls)
    (hname : control.names = [String.ofList entry.name]) :
    entry.isFile = true ↔ control.fieldType = .file := by
  constructor
  · intro hfile
    obtain ⟨role, hrole⟩ := exists_role haccepted.taken.named hentry
    cases hrole with
    | attachment hother hsame htype =>
      rwa [expectation.control_of_name hcontrol hother (hname.trans hsame.symm)]
    | _ => cases hfile
  · intro htype
    have hshown : entry.observation ∈ (entriesOf control entries).map FormEntry.observation :=
      List.mem_map_of_mem (List.mem_filter.mpr ⟨hentry, beq_iff_eq.mpr hname⟩)
    rw [haccepted.attached hcontrol htype, List.mem_singleton] at hshown
    cases entry with
    | text => cases hshown
    | file => rfl

theorem Accepted.plays :
    List.Forall₂ (Plays expectation) entries roles := by
  have htyped : ∀ entry ∈ entries, ∀ control ∈ expectation.fieldControls,
      control.names = [String.ofList entry.name] →
        (entry.isFile = true ↔ control.fieldType = .file) :=
    fun _ hentry _ hcontrol hname => haccepted.typed hentry hcontrol hname
  have hnamed := haccepted.taken.named
  clear haccepted
  induction hnamed with
  | nil => exact .nil
  | cons hfirst _ ih =>
    exact .cons ⟨hfirst, htyped _ (.head _)⟩ (ih fun entry hmem => htyped entry (.tail _ hmem))

end

theorem PayloadExpectation.control_of_binding (expectation : PayloadExpectation)
    (hbinding : binding ∈ expectation.answerBindings) :
    ∃ control ∈ expectation.fieldControls, control.fieldId = binding.fieldId ∧
      control.fieldType = binding.fieldType ∧
        ∀ other ∈ expectation.answerBindings, other.fieldId = control.fieldId →
          other = binding := by
  have hpair : (binding.fieldId, binding.fieldType) ∈ expectation.fieldControls.map fun control =>
      (control.fieldId, control.fieldType) := by
    rw [← expectation.boundInOrder]
    exact List.mem_map_of_mem hbinding
  obtain ⟨control, hcontrol, hsame⟩ := List.mem_map.mp hpair
  rw [Prod.mk.injEq] at hsame
  have hids : (expectation.answerBindings.map AnswerBinding.fieldId).Nodup := by
    have hfirst := congrArg (List.map Prod.fst) expectation.boundInOrder
    rw [List.map_map, List.map_map] at hfirst
    exact hfirst ▸ expectation.controls_unique.1
  exact ⟨control, hcontrol, hsame.1, hsame.2, fun other hother hid =>
    List.inj_on_of_nodup_map hids hother hbinding (hid.trans hsame.1)⟩

theorem answerBinding_eq_ok {fieldId : String}
    (hbinding : answerBinding fieldId fieldType valueSha256 = .ok binding) :
    binding.fieldType = fieldType ∧ binding.valueSha256 = valueSha256 := by
  rw [answerBinding] at hbinding
  split at hbinding
  · cases hbinding
    exact ⟨rfl, rfl⟩
  · cases hbinding

/-- The entries of a bound answer are its reviewed value. -/
theorem Accepted.answered (hfree : Function.Injective policy.digest)
    (haccepted : Accepted policy expectation contentType body digest message entries roles walk)
    (hbinding : binding ∈ expectation.answerBindings) :
    ∃ control ∈ expectation.fieldControls, control.fieldId = binding.fieldId ∧
      ∀ decisions field,
        bindField policy.toBindingPolicy decisions expectation.selectedCvHash field =
            .ok binding →
          ∃ decision ∈ decisions, decision.fieldId = field.fieldId ∧
            ∃ content, ContentOf (scalarSpelling policy.toBindingPolicy) field.fieldType
                decision.value content ∧
              content.CarriedBy expectation.selectedCvHash
                ((entriesOf control entries).map FormEntry.observation) := by
  obtain ⟨control, hcontrol, hid, hcontrolType, hunique⟩ :=
    expectation.control_of_binding hbinding
  refine ⟨control, hcontrol, hid, fun decisions field hbound => ?_⟩
  obtain ⟨other, hother, hotherId, _, text, htext, hdigest⟩ := haccepted.observed hcontrol
  rw [hunique other hother hotherId] at hdigest
  rw [bindField.eq_def] at hbound
  split at hbound
  · cases hbound
  next decision hdecision =>
  split at hbound
  · next value _ hvalue =>
    obtain ⟨expected, hexpected, hbinding⟩ := bind_eq_ok.mp hbound
    obtain ⟨htype, hsha⟩ := answerBinding_eq_ok hbinding
    obtain ⟨content, hcontent, hmaterial⟩ := content_of_material hexpected
    rw [hsha, policy.digest_text, String.toList_ofList] at hdigest
    have hsame : text = material expectation.selectedCvHash content :=
      (utf8_injective (hfree hdigest)).trans hmaterial
    have hfits : content.Fits control.fieldType := by
      rw [hcontrolType, htype]
      exact hcontent.fits
    refine ⟨decision, List.mem_of_find?_eq_some hdecision, ?_, content, ?_, ?_⟩
    · simpa using List.find?_some hdecision
    · rwa [hvalue]
    · by_cases hfile : control.fieldType = .file
      · rw [haccepted.attached hcontrol hfile]
        exact carriedBy_document (hfile ▸ hfits)
      · rw [hsame] at htext
        exact carried_of_observed hfits hfile htext
  · cases hbound

end Accepted

/-- A body carries what was reviewed and nothing else. -/
structure Carries (policy : WirePolicy) (expectation : PayloadExpectation)
    (parts : List MailPart) (entries : List FormEntry) (roles : List Role) : Prop where
  read : List.Forall₂ ((strictReading policy).Reads policy.digest) parts entries
  plays : List.Forall₂ (Plays expectation) entries roles
  oneRole : ∀ entry first second, Plays expectation entry first →
    Plays expectation entry second → first = second
  attachments : ∀ control ∈ expectation.fieldControls, control.fieldType = .file →
    (entriesOf control entries).map FormEntry.observation = [.file expectation.selectedCvHash]
  document : ∀ cv, policy.digest cv = expectation.selectedCvHash →
    ∀ part ∈ parts, (strictReading policy).filename part ≠ none → part.payload = some cv
  systems : ∀ name,
    roles.count (.system name) = if name ∈ expectation.systemControls then 1 else 0
  submit : roles.count .submit = 1
  answers : ∀ binding ∈ expectation.answerBindings,
    ∃ control ∈ expectation.fieldControls, control.fieldId = binding.fieldId ∧
      ∀ decisions field,
        bindField policy.toBindingPolicy decisions expectation.selectedCvHash field =
            .ok binding →
          ∃ decision ∈ decisions, decision.fieldId = field.fieldId ∧
            ∃ content, ContentOf (scalarSpelling policy.toBindingPolicy) field.fieldType
                decision.value content ∧
              content.CarriedBy expectation.selectedCvHash
                ((entriesOf control entries).map FormEntry.observation)

theorem system?_eq_some (role : Role) :
    role.system? = some name ↔ role = .system name := by
  cases role <;> simp [Role.system?]

theorem file_of_plays
    (hplays : Plays expectation (.file name filename mediaType size digest) role) :
    digest = expectation.selectedCvHash := by
  cases hplays.named
  rfl

theorem carries_of_accepted (hfree : Function.Injective policy.digest) {message : MailMessage}
    (haccepted : Accepted policy expectation contentType body digest message entries roles walk) :
    Carries policy expectation message.parts entries roles where
  read := haccepted.read
  plays := haccepted.plays
  oneRole _ _ _ hfirst hsecond := hfirst.named.unique hsecond.named
  attachments _ hcontrol htype := haccepted.attached hcontrol htype
  document cv hcv part hpart hfilename :=
    document_of_reads hfree file_of_plays haccepted.read haccepted.plays hcv hpart hfilename
  systems name := by
    rw [count_filterMap_marked system?_eq_some, ← List.count_reverse, ← haccepted.taken.systems,
      haccepted.taken.systemsOnce.count]
    simp only [haccepted.systems name]
  submit := haccepted.oneSubmit
  answers _ hbinding := haccepted.answered hfree hbinding

end JobApplyAgent.Adapters.Ashby
