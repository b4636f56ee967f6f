import JobApplyAgent.Adapters.BindingLaw
import JobApplyAgent.Adapters.GreenhousePayload
import JobApplyAgent.Adapters.ReviewedContent

/-!
# Bodies that Greenhouse is sent

What the loop over the parts has taken at every place: the role that every entry plays, how
often a role was played, and what was observed of every answer.
-/

namespace JobApplyAgent.Adapters.Greenhouse

open Domain Forms Library

/-! ## Roles -/

inductive Role where
  | answer (fieldId : String)
  | resume
  | submitter
  | identity (kind : IdentityKind)
  | system (name : String)
  deriving DecidableEq

def Role.kind? : Role → Option IdentityKind
  | .identity kind => some kind
  | _ => none

def Role.system? : Role → Option String
  | .system name => some name
  | _ => none

section Roles

variable (policy : WirePolicy) (expectation : PayloadExpectation)

/-- A name that is bound neither to an answer nor to the submitter. -/
def Unbound (name : List Char) : Prop :=
  (∀ binding ∈ expectation.answerBindings, binding.controlNameSha256 ≠ nameSha256 policy name) ∧
    ∀ submitter ∈ expectation.submitterBinding,
      submitter.controlNameSha256 ≠ nameSha256 policy name

/-- What an entry is there for, and the value that is expected of it. -/
inductive Plays : FormEntry → Role → Prop where
  | answer {binding : GreenhouseAnswerBinding} {name value : List Char}
      (hbinding : binding ∈ expectation.answerBindings)
      (hname : binding.controlNameSha256 = nameSha256 policy name)
      (htype : binding.reviewed.fieldType ≠ .file) :
      Plays (.text name value) (.answer binding.reviewed.fieldId)
  | resume {binding : GreenhouseAnswerBinding} {name filename mediaType : List Char} {size : ℕ}
      (hbinding : binding ∈ expectation.answerBindings)
      (hname : binding.controlNameSha256 = nameSha256 policy name)
      (htype : binding.reviewed.fieldType = .file)
      (hresume : nameSha256 policy name = expectation.resumeControlNameSha256)
      (hfilename : filename ≠ []) (hsize : size ≠ 0) :
      Plays (.file name filename mediaType size expectation.cvSha256) .resume
  | submitter {submitter : GreenhouseSubmitterBinding} {name value : List Char}
      (hsubmitter : expectation.submitterBinding = some submitter)
      (hname : submitter.controlNameSha256 = nameSha256 policy name)
      (hvalue : answerMaterialSha256 policy "s" (JsonText.quoted value) = submitter.valueSha256) :
      Plays (.text name value) .submitter
  | identity {kind : IdentityKind} {name value : List Char}
      (hunbound : Unbound policy expectation name)
      (hkind : actionIdentityKind policy (String.ofList name) = some kind)
      (hvalue : identityMatches policy expectation.identity kind value = true) :
      Plays (.text name value) (.identity kind)
  | system {name value : List Char} (hunbound : Unbound policy expectation name)
      (hkind : actionIdentityKind policy (String.ofList name) = none)
      (hname : String.ofList name ∈ systemControlNames)
      (hvalue : systemValueValid (String.ofList name) value = true) :
      Plays (.text name value) (.system (String.ofList name))

end Roles

variable {policy : WirePolicy} {expectation : PayloadExpectation}

/-! ## The expectation -/

namespace PayloadExpectation

theorem valid_parts (expectation : PayloadExpectation) :
    (∃ binding, expectation.answerBindings.filter
        (fun binding => binding.reviewed.fieldType == .file) = [binding] ∧
      binding.controlNameSha256 = expectation.resumeControlNameSha256) ∧
    (expectation.answerBindings.map fun binding => binding.reviewed.fieldId).Nodup ∧
    (expectation.answerBindings.map GreenhouseAnswerBinding.controlNameSha256).Nodup ∧
    ∀ submitter ∈ expectation.submitterBinding, submitter.controlNameSha256 ∉
      expectation.answerBindings.map GreenhouseAnswerBinding.controlNameSha256 := by
  have hvalid := expectation.valid
  simp only [payloadBindingValid, Bool.and_eq_true, isUnique, decide_eq_true_eq] at hvalid
  obtain ⟨⟨⟨⟨_, hfile⟩, hids⟩, hnames⟩, hsubmitter⟩ := hvalid
  refine ⟨?_, hids, hnames, ?_⟩
  · split at hfile
    · next binding hone => exact ⟨binding, hone, beq_iff_eq.mp hfile⟩
    · cases hfile
  · intro submitter hmem hbound
    rw [Option.mem_def.mp hmem] at hsubmitter
    simp at hsubmitter
    obtain ⟨binding, hbinding, hsame⟩ := List.mem_map.mp hbound
    exact hsubmitter binding hbinding hsame

variable {first second : GreenhouseAnswerBinding}

theorem binding_of_name (expectation : PayloadExpectation)
    (hfirst : first ∈ expectation.answerBindings) (hsecond : second ∈ expectation.answerBindings)
    (hname : first.controlNameSha256 = second.controlNameSha256) : first = second :=
  List.inj_on_of_nodup_map expectation.valid_parts.2.2.1 hfirst hsecond hname

theorem binding_of_field (expectation : PayloadExpectation)
    (hfirst : first ∈ expectation.answerBindings) (hsecond : second ∈ expectation.answerBindings)
    (hid : first.reviewed.fieldId = second.reviewed.fieldId) : first = second :=
  List.inj_on_of_nodup_map expectation.valid_parts.2.1 hfirst hsecond hid

theorem bindingFor_eq_some :
    expectation.bindingFor policy name = some binding ↔
      binding ∈ expectation.answerBindings ∧
        binding.controlNameSha256 = nameSha256 policy name := by
  constructor
  · intro hfound
    exact ⟨List.mem_of_find?_eq_some hfound, by simpa using List.find?_some hfound⟩
  · rintro ⟨hmem, hname⟩
    cases hfound : expectation.bindingFor policy name with
    | none =>
      have hnone := List.find?_eq_none.mp hfound binding hmem
      simp [hname] at hnone
    | some found =>
      have hsame : found.controlNameSha256 = nameSha256 policy name := by
        simpa using List.find?_some hfound
      rw [expectation.binding_of_name (List.mem_of_find?_eq_some hfound) hmem
        (hsame.trans hname.symm)]

theorem bindingFor_eq_none (hnone : expectation.bindingFor policy name = none) :
    ∀ binding ∈ expectation.answerBindings,
      binding.controlNameSha256 ≠ nameSha256 policy name := by
  intro binding hmem
  simpa using List.find?_eq_none.mp hnone binding hmem

end PayloadExpectation

variable {entry : FormEntry} {digest : String}

theorem Plays.unique {first second : Role} (hfirst : Plays policy expectation entry first)
    (hsecond : Plays policy expectation entry second) : first = second := by
  have hsubmitter := expectation.valid_parts.2.2.2
  cases hfirst with
  | answer hbinding hname htype =>
    cases hsecond with
    | answer hother hsame _ =>
      rw [expectation.binding_of_name hbinding hother (hname.trans hsame.symm)]
    | submitter hsome hsame _ =>
      exact absurd (List.mem_map.mpr ⟨_, hbinding, hname.trans hsame.symm⟩)
        (hsubmitter _ hsome)
    | identity hunbound => exact absurd hname (hunbound.1 _ hbinding)
    | system hunbound => exact absurd hname (hunbound.1 _ hbinding)
  | resume => cases hsecond; rfl
  | submitter hsome hname _ =>
    cases hsecond with
    | answer hbinding hsame _ =>
      exact absurd (List.mem_map.mpr ⟨_, hbinding, hsame.trans hname.symm⟩)
        (hsubmitter _ hsome)
    | submitter => rfl
    | identity hunbound => exact absurd hname (hunbound.2 _ hsome)
    | system hunbound => exact absurd hname (hunbound.2 _ hsome)
  | identity hunbound hkind _ =>
    cases hsecond with
    | answer hbinding hname _ => exact absurd hname (hunbound.1 _ hbinding)
    | submitter hsome hname _ => exact absurd hname (hunbound.2 _ hsome)
    | identity _ hother _ =>
      rw [hkind] at hother
      cases hother
      rfl
    | system _ hnone =>
      rw [hkind] at hnone
      cases hnone
  | system hunbound hnone =>
    cases hsecond with
    | answer hbinding hname _ => exact absurd hname (hunbound.1 _ hbinding)
    | submitter hsome hname _ => exact absurd hname (hunbound.2 _ hsome)
    | identity _ hkind _ =>
      rw [hnone] at hkind
      cases hkind
    | system => rfl

/-! ## What the loop has taken -/

/-- The field that an entry is observed for. -/
def ownerOf (policy : WirePolicy) (expectation : PayloadExpectation) (entry : FormEntry) :
    Option String :=
  (expectation.bindingFor policy entry.name).map fun binding => binding.reviewed.fieldId

def observedOf (policy : WirePolicy) (expectation : PayloadExpectation) (entry : FormEntry) :
    Option (String × Observation) :=
  (ownerOf policy expectation entry).map fun id => (id, entry.observation)

/-- The state of the loop behind some entries, by the roles that they play. -/
structure Taken (policy : WirePolicy) (expectation : PayloadExpectation)
    (entries : List FormEntry) (roles : List Role) (walk : PayloadWalk) : Prop where
  canonical : walk.canonical = entries
  plays : List.Forall₂ (Plays policy expectation) entries roles
  observed : walk.observed = entries.filterMap (observedOf policy expectation)
  identities : walk.identityKinds = (roles.filterMap Role.kind?).reverse
  identitiesOnce : walk.identityKinds.Nodup
  systems : walk.systemNames = (roles.filterMap Role.system?).reverse
  systemsOnce : walk.systemNames.Nodup
  submitters : walk.submitterCount = roles.count .submitter
  resumes : walk.routedResumeCvCount = roles.count .resume

theorem taken_start : Taken policy expectation [] [] .start where
  canonical := rfl
  plays := .nil
  observed := rfl
  identities := rfl
  identitiesOnce := .nil
  systems := rfl
  systemsOnce := .nil
  submitters := rfl
  resumes := rfl

/-- One more entry, in a role that it plays. -/
theorem Taken.concat (htaken : Taken policy expectation entries roles walk)
    (hplays : Plays policy expectation entry role)
    (hcanonical : next.canonical = walk.canonical ++ [entry])
    (hobserved : next.observed = walk.observed ++ (observedOf policy expectation entry).toList)
    (hidentities : next.identityKinds = role.kind?.toList ++ walk.identityKinds)
    (honce : next.identityKinds.Nodup)
    (hsystems : next.systemNames = role.system?.toList ++ walk.systemNames)
    (hsystemsOnce : next.systemNames.Nodup)
    (hsubmitters : next.submitterCount = walk.submitterCount + [role].count .submitter)
    (hresumes : next.routedResumeCvCount = walk.routedResumeCvCount + [role].count .resume) :
    Taken policy expectation (entries ++ [entry]) (roles ++ [role]) next where
  canonical := by rw [hcanonical, htaken.canonical]
  plays := List.rel_append htaken.plays (.cons hplays .nil)
  observed := by
    rw [hobserved, htaken.observed, List.filterMap_append]
    cases hentry : observedOf policy expectation entry <;> simp [hentry]
  identities := by
    rw [hidentities, htaken.identities, List.filterMap_append, List.reverse_append]
    cases hkind : role.kind? <;> simp [hkind]
  identitiesOnce := honce
  systems := by
    rw [hsystems, htaken.systems, List.filterMap_append, List.reverse_append]
    cases hsystem : role.system? <;> simp [hsystem]
  systemsOnce := hsystemsOnce
  submitters := by rw [hsubmitters, htaken.submitters, List.count_append]
  resumes := by rw [hresumes, htaken.resumes, List.count_append]

theorem Taken.text (htaken : Taken policy expectation entries roles walk)
    (htake : takeText policy expectation walk name value = .ok next) :
    ∃ role, Taken policy expectation (entries ++ [.text name value]) (roles ++ [role]) next := by
  simp only [takeText] at htake
  obtain ⟨_, _, htake⟩ := bind_eq_ok.mp htake
  split at htake
  · next binding hbinding =>
    obtain ⟨_, htype, hnext⟩ := bind_eq_ok.mp htake
    rw [demand_eq_ok, bne_iff_ne] at htype
    cases hnext
    obtain ⟨hmem, hname⟩ := PayloadExpectation.bindingFor_eq_some.mp hbinding
    have hadds : observedOf policy expectation (.text name value) =
        some (binding.reviewed.fieldId, .text value) := by
      simp [observedOf, ownerOf, FormEntry.name, FormEntry.observation, hbinding]
    exact ⟨_, htaken.concat (.answer hmem hname htype) rfl (by rw [hadds]; rfl) rfl
      htaken.identitiesOnce rfl htaken.systemsOnce rfl rfl⟩
  · next hnone =>
    have hbound := PayloadExpectation.bindingFor_eq_none hnone
    have hadds : observedOf policy expectation (.text name value) = none := by
      simp [observedOf, ownerOf, FormEntry.name, hnone]
    have hobserved : walk.observed = walk.observed ++
        (observedOf policy expectation (.text name value)).toList := by
      rw [hadds]
      exact (List.append_nil _).symm
    split at htake
    · next submitter hfilter =>
      obtain ⟨_, hvalue, hnext⟩ := bind_eq_ok.mp htake
      rw [demand_eq_ok, beq_iff_eq] at hvalue
      cases hnext
      obtain ⟨hsome, hname⟩ := Option.filter_eq_some_iff.mp hfilter
      exact ⟨_, htaken.concat (.submitter hsome (beq_iff_eq.mp hname) hvalue) rfl hobserved rfl
        htaken.identitiesOnce rfl htaken.systemsOnce rfl rfl⟩
    · next hfilter =>
      have hunbound : Unbound policy expectation name := by
        refine ⟨hbound, fun submitter hmem hname => ?_⟩
        rw [Option.mem_def.mp hmem] at hfilter
        simp [hname] at hfilter
      split at htake
      · next kind hkind =>
        obtain ⟨_, hmatches, hnext⟩ := bind_eq_ok.mp htake
        rw [demand_eq_ok, Bool.and_eq_true] at hmatches
        cases hnext
        exact ⟨_, htaken.concat (.identity hunbound hkind hmatches.2) rfl hobserved rfl
          (List.nodup_cons.mpr ⟨by simpa using hmatches.1, htaken.identitiesOnce⟩) rfl
          htaken.systemsOnce rfl rfl⟩
      · next hkind =>
        obtain ⟨_, hsystem, hnext⟩ := bind_eq_ok.mp htake
        rw [demand_eq_ok, Bool.and_eq_true, Bool.and_eq_true] at hsystem
        cases hnext
        exact ⟨_, htaken.concat
          (.system hunbound hkind (by simpa using hsystem.1.1) hsystem.1.2) rfl hobserved rfl
          htaken.identitiesOnce rfl
          (List.nodup_cons.mpr ⟨by simpa using hsystem.2, htaken.systemsOnce⟩) rfl rfl⟩

variable {contentType : String}

theorem Taken.file (htaken : Taken policy expectation entries roles walk)
    (htake : takeFile policy expectation walk name filename mediaType size digest = .ok next) :
    Taken policy expectation (entries ++ [.file name filename mediaType size digest])
      (roles ++ [.resume]) next := by
  simp only [takeFile] at htake
  obtain ⟨binding, hbinding, htake⟩ := bind_eq_ok.mp htake
  obtain ⟨_, hresume, hnext⟩ := bind_eq_ok.mp htake
  rw [orRefuse_eq_ok] at hbinding
  simp only [demand_eq_ok, Bool.and_eq_true, beq_iff_eq, bne_iff_ne, Bool.not_eq_true',
    List.isEmpty_eq_false_iff] at hresume
  obtain ⟨⟨⟨⟨⟨htype, hresume⟩, hfilename⟩, hsize⟩, hdigest⟩, _⟩ := hresume
  cases hnext
  obtain ⟨hmem, hname⟩ := PayloadExpectation.bindingFor_eq_some.mp hbinding
  have hadds : observedOf policy expectation (.file name filename mediaType size digest) =
      some (binding.reviewed.fieldId, .file digest) := by
    simp [observedOf, ownerOf, FormEntry.name, FormEntry.observation, hbinding]
  have hplays : Plays policy expectation (.file name filename mediaType size digest) .resume := by
    rw [hdigest]
    exact .resume hmem hname htype hresume hfilename hsize
  exact htaken.concat hplays rfl (by rw [hadds]; rfl) rfl htaken.identitiesOnce rfl
    htaken.systemsOnce rfl rfl

/-- One step of the loop. -/
theorem Taken.take (htaken : Taken policy expectation entries roles walk)
    (htake : takeEntry policy expectation walk entry = .ok next) :
    ∃ role, Taken policy expectation (entries ++ [entry]) (roles ++ [role]) next := by
  cases entry with
  | text name value => exact htaken.text htake
  | file => exact ⟨_, htaken.file htake⟩

/-! ## Accepted bodies -/

theorem readPart_reads (hread : readPart policy part = .ok entry) :
    (strictReading policy).Reads policy.digest part entry := by
  simp only [readPart] at hread
  obtain ⟨_, _, hread⟩ := bind_eq_ok.mp hread
  obtain ⟨⟨name, filename⟩, hnames, hread⟩ := bind_eq_ok.mp hread
  obtain ⟨payload, hpayload, hread⟩ := bind_eq_ok.mp hread
  rw [orRefuse_eq_ok] at hpayload
  obtain ⟨hname, hfilename⟩ := names_eq_ok hnames
  cases filename with
  | none =>
    obtain ⟨_, _, hread⟩ := bind_eq_ok.mp hread
    obtain ⟨value, hvalue, hentry⟩ := bind_eq_ok.mp hread
    cases hentry
    exact .text hname hfilename hpayload (orRefuse_eq_ok.mp hvalue)
  | some found =>
    cases found with
    | encoded => cases hread
    | plain filename =>
      obtain ⟨_, _, hentry⟩ := bind_eq_ok.mp hread
      cases hentry
      exact .file hname hfilename hpayload

/-- A body that is accepted: its entries, the state that the loop ends in, and the checks behind
it. -/
structure Accepted (policy : WirePolicy) (expectation : PayloadExpectation) (contentType : String)
    (body : List UInt8) (digest : String) (message : MailMessage) (entries : List FormEntry)
    (roles : List Role) (walk : PayloadWalk) : Prop where
  parsed : parsedBody policy contentType body = some message
  read : List.Forall₂ ((strictReading policy).Reads policy.digest) message.parts entries
  taken : Taken policy expectation entries roles walk
  checked : ∀ binding ∈ expectation.answerBindings,
    checkBinding policy expectation walk binding = .ok ()
  oneResume : roles.count .resume = 1
  submitters : roles.count .submitter = if expectation.submitterBinding.isSome then 1 else 0
  digest : canonicalPayloadCommitment policy entries = digest

theorem accepted_of_commitment
    (hdigest : multipartPayloadCommitment policy expectation contentType body = .ok digest) :
    ∃ message entries roles walk,
      Accepted policy expectation contentType body digest message entries roles walk := by
  simp only [multipartPayloadCommitment] at hdigest
  obtain ⟨_, _, hdigest⟩ := bind_eq_ok.mp hdigest
  obtain ⟨_, _, hdigest⟩ := bind_eq_ok.mp hdigest
  obtain ⟨_, _, hdigest⟩ := bind_eq_ok.mp hdigest
  obtain ⟨message, hmessage, hdigest⟩ := bind_eq_ok.mp hdigest
  obtain ⟨_, _, hdigest⟩ := bind_eq_ok.mp hdigest
  obtain ⟨_, _, hdigest⟩ := bind_eq_ok.mp hdigest
  obtain ⟨walk, hwalk, hdigest⟩ := bind_eq_ok.mp hdigest
  obtain ⟨_, hchecked, hdigest⟩ := bind_eq_ok.mp hdigest
  obtain ⟨_, hresume, hdigest⟩ := bind_eq_ok.mp hdigest
  obtain ⟨_, hsubmitters, hdigest⟩ := bind_eq_ok.mp hdigest
  rw [demand_eq_ok, beq_iff_eq] at hresume hsubmitters
  obtain ⟨entries, hread, htakes⟩ := foldlM_read hwalk
  obtain ⟨roles, htaken⟩ := exists_roles (fun htaken hnext => htaken.take hnext) taken_start htakes
  rw [List.nil_append] at htaken
  refine ⟨message, entries, roles, walk, ?_⟩
  exact {
    parsed := orRefuse_eq_ok.mp hmessage
    read := hread.imp fun _ _ => readPart_reads
    taken := htaken
    checked := fun binding hmem => forM_eq_ok hchecked hmem
    oneResume := htaken.resumes.symm.trans hresume
    submitters := htaken.submitters.symm.trans hsubmitters
    digest := by
      rw [← htaken.canonical]
      exact Except.ok.inj hdigest }

/-! ## The entries of one answer -/

/-- The entries that carry the name of a bound control. -/
def entriesOf (policy : WirePolicy) (binding : GreenhouseAnswerBinding)
    (entries : List FormEntry) : List FormEntry :=
  entries.filter fun entry => nameSha256 policy entry.name == binding.controlNameSha256

/-- What the loop observes of a field is what its own entries show. -/
theorem observedFor_taken (htaken : Taken policy expectation entries roles walk)
    (hbinding : binding ∈ expectation.answerBindings) :
    observedFor walk.observed binding.reviewed.fieldId =
      (entriesOf policy binding entries).map FormEntry.observation := by
  rw [htaken.observed]
  refine (observedFor_log entries _).trans (congrArg _ (List.filter_congr fun entry _ => ?_))
  rw [Bool.eq_iff_iff, beq_iff_eq, beq_iff_eq, ownerOf, Option.map_eq_some_iff]
  constructor
  · rintro ⟨found, hfound, hid⟩
    obtain ⟨hmem, hsame⟩ := PayloadExpectation.bindingFor_eq_some.mp hfound
    rw [← hsame, expectation.binding_of_field hmem hbinding hid]
  · intro hname
    exact ⟨binding, PayloadExpectation.bindingFor_eq_some.mpr ⟨hbinding, hname.symm⟩, rfl⟩

/-! ## Reviewed content -/

/-- The text of a value that is one text. -/
def spelling (policy : BindingPolicy) (value : AnswerValue) : Option (List Char) :=
  (scalarText policy value).map normalizedBreaks

/-- The value that was reviewed; an abstention leaves the control blank. -/
def reviewedValue (decision : AnswerDecisionV1) : Option AnswerValue :=
  if decision.disposition = .resolved then decision.value else none

/-- The text that content is bound by. -/
def material (cvSha256 : String) : ReviewedContent → String
  | .one text => tagged "s" (JsonText.quoted text)
  | .chosen texts => tagged "m" (JsonText.array ((sortedTexts texts).map JsonText.quoted))
  | .checked value => tagged "b" (booleanText value)
  | .document => tagged "f" (JsonText.quoted cvSha256.toList)

theorem isScalar_of_mem (hscalar : fieldType ∈ scalarFieldTypes) :
    isScalar fieldType = true := by
  have hall : ∀ fieldType ∈ scalarFieldTypes, isScalar fieldType = true := by
    decide
  exact hall fieldType hscalar

theorem content_of_blank (hmaterial : greenhouseReviewedBlankMaterial policy.toBindingPolicy field =
      .ok (text, count)) :
    ∃ content, ContentOf (spelling policy.toBindingPolicy) field.fieldType none content ∧
      text = material cvSha256 content := by
  obtain ⟨hoptional, hreview, htype⟩ := blank_of_material hmaterial
  obtain ⟨written, total, hleft, _, hwritten⟩ :=
    @left_of_blank _ _ cvSha256 hoptional hreview htype
  cases hwritten.symm.trans hmaterial
  cases hleft with
  | flag htype hflag =>
    cases hflag
    exact ⟨_, .unchecked htype, rfl⟩
  | choices htype hchoices =>
    cases hchoices
    exact ⟨_, .blankChoices htype, rfl⟩
  | scalar hscalar hblank =>
    cases hblank
    exact ⟨_, .blankText (isScalar_of_mem hscalar), rfl⟩

/-- What a decision is bound by is the text of its content. -/
theorem content_of_material
    (hmaterial : decisionMaterial policy.toBindingPolicy field decision cvSha256 =
      .ok (text, count)) :
    ∃ content, ContentOf (spelling policy.toBindingPolicy) field.fieldType
        (reviewedValue decision) content ∧ text = material cvSha256 content := by
  rw [decisionMaterial.eq_def] at hmaterial
  split at hmaterial
  · next value hresolved hvalue =>
    rw [reviewedValue, if_pos hresolved, hvalue]
    rw [greenhouseAnswerMaterial.eq_def] at hmaterial
    split at hmaterial
    · next htype =>
      split at hmaterial
      · next flag =>
        cases hmaterial
        exact ⟨_, .flag htype flag, rfl⟩
      · cases hmaterial
    · split at hmaterial
      · next htype =>
        split at hmaterial
        · next items =>
          cases hmaterial
          exact ⟨_, .choices htype items, rfl⟩
        · cases hmaterial
      · split at hmaterial
        · next htype =>
          split at hmaterial
          · next hattached =>
            rw [Bool.and_eq_true, Bool.and_eq_true, beq_iff_eq] at hattached
            cases hmaterial
            rw [hattached.1.1]
            exact ⟨_, .attachment htype, rfl⟩
          · cases hmaterial
        · split at hmaterial
          · next hscalar =>
            split at hmaterial
            · next spelled hspelled =>
              cases hmaterial
              refine ⟨_, .scalar (isScalar_of_mem hscalar) ?_, rfl⟩
              rw [spelling, hspelled, Option.map_some]
            · cases hmaterial
          · cases hmaterial
  · next habstained =>
    rw [reviewedValue, if_neg (by rw [habstained]; decide)]
    exact content_of_blank hmaterial
  · cases hmaterial

theorem observedSha256_of_text (hfile : fieldType ≠ .file) :
    observedSha256 policy expectation fieldType observed =
      orRefuse (observed.mapM Observation.text?) formRefusal >>= fun texts =>
        (shownContent fieldType texts).map fun content =>
          policy.digest (utf8 (material expectation.cvSha256 content).toList) := by
  rw [observedSha256, if_neg hfile]
  refine bind_congr fun texts => ?_
  unfold shownContent
  split
  · rfl
  split
  · cases demand (decide (texts.length ≤ 1)) formRefusal <;> rfl
  · rcases texts with _ | ⟨_, _ | _⟩ <;> rfl

/-- The digest of what was observed tells that it is the reviewed content. -/
theorem carried_of_observed (hfree : Function.Injective policy.digest)
    (hfits : content.Fits fieldType)
    (hobserved : observedSha256 policy expectation fieldType observed =
      .ok (policy.digest (utf8 (material expectation.cvSha256 content).toList)))
    (hattached : fieldType = .file → observed = [.file expectation.cvSha256]) :
    content.CarriedBy expectation.cvSha256 observed := by
  by_cases hfile : fieldType = .file
  · rw [hattached hfile]
    exact carriedBy_document (hfile ▸ hfits)
  · rw [observedSha256_of_text hfile] at hobserved
    obtain ⟨texts, found, rfl, hshown, hdigest⟩ := shown_of_read hobserved
    have hsame := String.toList_inj.mp (utf8_injective (hfree hdigest))
    refine carriedBy_of_shown (fun _ _ heq => JsonText.quoted_inj (tagged_inj heq).2)
      (fun _ _ heq => sortedTexts_perm (JsonText.array_quoted_inj (tagged_inj heq).2)) ?_ hshown
      hfile hfits hsame.symm
    intro value other heq
    have htext := (tagged_inj heq).2
    cases value <;> cases other <;> first | rfl | cases htext

/-! ## What an accepted body carries -/

theorem countP_isFile (hplays : List.Forall₂ (Plays policy expectation) entries roles) :
    entries.countP FormEntry.isFile = roles.count .resume := by
  induction hplays with
  | nil => rfl
  | cons hplay _ ih =>
    rw [List.countP_cons, List.count_cons, ih]
    cases hplay <;> rfl

theorem resume_of_file (hbinding : binding ∈ expectation.answerBindings)
    (htype : binding.reviewed.fieldType = .file) (hplays : Plays policy expectation entry role)
    (hname : nameSha256 policy entry.name = binding.controlNameSha256) :
    entry.isFile = true ∧ entry.observation = .file expectation.cvSha256 := by
  cases hplays with
  | answer hother hsame hnot =>
    rw [expectation.binding_of_name hother hbinding (hsame.trans hname)] at hnot
    exact absurd htype hnot
  | resume => exact ⟨rfl, rfl⟩
  | submitter hsome hsame _ =>
    exact absurd (List.mem_map.mpr ⟨binding, hbinding, (hsame.trans hname).symm⟩)
      (expectation.valid_parts.2.2.2 _ hsome)
  | identity hunbound => exact absurd hname.symm (hunbound.1 _ hbinding)
  | system hunbound => exact absurd hname.symm (hunbound.1 _ hbinding)

section Accepted

variable {digest : String} {message : MailMessage}

section

variable (haccepted : Accepted policy expectation contentType body digest message entries
  roles walk)
include haccepted

theorem Accepted.observed (hbinding : binding ∈ expectation.answerBindings) :
    (entriesOf policy binding entries).length = binding.reviewed.successfulEntryCount ∧
      observedSha256 policy expectation binding.reviewed.fieldType
        ((entriesOf policy binding entries).map FormEntry.observation) =
          .ok binding.reviewed.valueSha256 := by
  have hchecked := haccepted.checked binding hbinding
  rw [checkBinding, observedFor_taken haccepted.taken hbinding] at hchecked
  obtain ⟨_, hcount, hchecked⟩ := bind_eq_ok.mp hchecked
  obtain ⟨found, hfound, hdigest⟩ := bind_eq_ok.mp hchecked
  rw [demand_eq_ok, beq_iff_eq] at hcount hdigest
  rw [List.length_map] at hcount
  exact ⟨hcount, hdigest ▸ hfound⟩

/-- The file control has the selected CV, and nothing else. -/
theorem Accepted.attached (hbinding : binding ∈ expectation.answerBindings)
    (htype : binding.reviewed.fieldType = .file) :
    (entriesOf policy binding entries).map FormEntry.observation =
      [.file expectation.cvSha256] := by
  have hplays := haccepted.taken.plays
  have hall : ∀ entry ∈ entriesOf policy binding entries, entry.isFile = true ∧
      entry.observation = .file expectation.cvSha256 := by
    intro entry hentry
    obtain ⟨hmem, hname⟩ := List.mem_filter.mp hentry
    obtain ⟨role, hrole⟩ := exists_role hplays hmem
    exact resume_of_file hbinding htype hrole (beq_iff_eq.mp hname)
  have hatMost : (entriesOf policy binding entries).length ≤ 1 := by
    rw [entriesOf, ← List.countP_eq_length_filter, ← haccepted.oneResume, ← countP_isFile hplays]
    refine List.countP_mono_left fun entry hmem hname => ?_
    exact (hall entry (List.mem_filter.mpr ⟨hmem, hname⟩)).1
  have hsome : (entriesOf policy binding entries).length ≠ 0 := by
    rw [(haccepted.observed hbinding).1]
    rcases binding.reviewed.countPositive with hempty | hpositive
    · rw [htype] at hempty
      cases hempty
    · exact hpositive
  have hlength : (entriesOf policy binding entries).length = 1 := by
    omega
  obtain ⟨entry, hone⟩ := List.length_eq_one_iff.mp hlength
  rw [hone, List.map_singleton, (hall entry (by rw [hone]; exact .head _)).2]

end

/-- The entries of a bound answer are its reviewed value. -/
theorem Accepted.answered (hfree : Function.Injective policy.digest)
    (haccepted : Accepted policy expectation contentType body digest message entries roles walk)
    (hbinding : binding ∈ expectation.answerBindings)
    (hbound : bindField policy.toBindingPolicy decisions expectation.cvSha256 field =
      .ok binding.reviewed) :
    ∃ decision ∈ decisions, decision.fieldId = field.fieldId ∧
      ∃ content, ContentOf (spelling policy.toBindingPolicy) field.fieldType
          (reviewedValue decision) content ∧
        content.CarriedBy expectation.cvSha256
          ((entriesOf policy binding entries).map FormEntry.observation) := by
  rw [bindField.eq_def] at hbound
  split at hbound
  · cases hbound
  next decision hdecision =>
  obtain ⟨⟨text, count⟩, hmaterial, hreviewed⟩ := bind_eq_ok.mp hbound
  obtain ⟨_, htype, hdigest, _⟩ := reviewedAnswerBinding_eq_ok_iff.mp hreviewed
  obtain ⟨content, hcontent, rfl⟩ := content_of_material hmaterial
  refine ⟨decision, List.mem_of_find?_eq_some hdecision,
    by simpa using List.find?_some hdecision, content, hcontent, ?_⟩
  have hobserved := (haccepted.observed hbinding).2
  rw [hdigest, policy.digest_text] at hobserved
  exact carried_of_observed hfree (htype ▸ hcontent.fits) hobserved
    (haccepted.attached hbinding)

end Accepted

/-- A body carries what was reviewed and nothing else. -/
structure Carries (policy : WirePolicy) (expectation : PayloadExpectation)
    (parts : List MailPart) (entries : List FormEntry) (roles : List Role) : Prop where
  read : List.Forall₂ ((strictReading policy).Reads policy.digest) parts entries
  plays : List.Forall₂ (Plays policy expectation) entries roles
  oneRole : ∀ entry first second, Plays policy expectation entry first →
    Plays policy expectation entry second → first = second
  resume : roles.count .resume = 1
  document : ∀ cv, policy.digest cv = expectation.cvSha256 →
    ∀ part ∈ parts, (strictReading policy).filename part ≠ none → part.payload = some cv
  submitter : roles.count .submitter = if expectation.submitterBinding.isSome then 1 else 0
  submitted : ∀ submitter ∈ expectation.submitterBinding, ∀ expected,
    submitter.valueSha256 = answerMaterialSha256 policy "s" (JsonText.quoted expected) →
      ∀ name value, Plays policy expectation (.text name value) .submitter → value = expected
  identities : ∀ kind, roles.count (.identity kind) ≤ 1
  systems : ∀ name, roles.count (.system name) ≤ 1
  answers : ∀ binding ∈ expectation.answerBindings, ∀ decisions field,
    bindField policy.toBindingPolicy decisions expectation.cvSha256 field = .ok binding.reviewed →
      ∃ decision ∈ decisions, decision.fieldId = field.fieldId ∧
        ∃ content, ContentOf (spelling policy.toBindingPolicy) field.fieldType
            (reviewedValue decision) content ∧
          content.CarriedBy expectation.cvSha256
            ((entriesOf policy binding entries).map FormEntry.observation)

theorem kind?_eq_some (role : Role) :
    role.kind? = some kind ↔ role = .identity kind := by
  cases role <;> simp [Role.kind?]

theorem system?_eq_some (role : Role) :
    role.system? = some name ↔ role = .system name := by
  cases role <;> simp [Role.system?]

theorem file_of_plays
    (hplays : Plays policy expectation (.file name filename mediaType size digest) role) :
    digest = expectation.cvSha256 := by
  cases hplays
  rfl

theorem carries_of_accepted (hfree : Function.Injective policy.digest) {message : MailMessage}
    (haccepted : Accepted policy expectation contentType body digest message entries roles walk) :
    Carries policy expectation message.parts entries roles where
  read := haccepted.read
  plays := haccepted.taken.plays
  oneRole _ _ _ := Plays.unique
  resume := haccepted.oneResume
  document cv hcv part hpart hfilename :=
    document_of_reads hfree file_of_plays haccepted.read haccepted.taken.plays hcv hpart hfilename
  submitter := haccepted.submitters
  submitted submitter hsome expected hexpected name value hplays := by
    cases hplays with
    | submitter hother _ hvalue =>
      cases hsome.symm.trans hother
      rw [hexpected] at hvalue
      have htext := String.toList_inj.mp (utf8_injective (hfree hvalue))
      exact JsonText.quoted_inj (tagged_inj htext).2
  identities kind := by
    rw [count_filterMap_marked kind?_eq_some, ← List.count_reverse, ← haccepted.taken.identities]
    exact List.nodup_iff_count_le_one.mp haccepted.taken.identitiesOnce kind
  systems name := by
    rw [count_filterMap_marked system?_eq_some, ← List.count_reverse, ← haccepted.taken.systems]
    exact List.nodup_iff_count_le_one.mp haccepted.taken.systemsOnce name
  answers binding hbinding decisions field hbound :=
    haccepted.answered hfree hbinding hbound

end JobApplyAgent.Adapters.Greenhouse
