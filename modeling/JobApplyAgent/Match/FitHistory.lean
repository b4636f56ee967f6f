import JobApplyAgent.Match.FitDecision

/-!
# Histories of fit decisions

Decisions are kept as rows, one for each job and digest, that are only added, and each reads
back as the decision it was written for.  The latest decision of a job is read from the instants
of its rows.  The row of a decision keeps its place in time, so that a decision made again is
the latest one only where nothing superseded it.
-/

namespace JobApplyAgent.Match

open Library
open Forms (PyFloat isSha256Digest)

/-- A row of `job_fit_decisions`; a text column with JSON in it is the value of the text. -/
structure JobFitDecisionRecord where
  id : ℕ
  jobId : ℕ
  decisionDigest : String
  jobDigest : String
  profileVersion : Option ℤ
  routingConfigDigest : String
  cvManifestDigest : String
  selectedCvId : Option String
  selectedCvHash : Option String
  routingConfidence : PyFloat
  routingMargin : PyFloat
  routingFallbackReason : Option String
  fitScore : PyFloat
  disposition : String
  qualityEligible : Bool
  hardExclusionsJson : JsonValue
  uncertaintyJson : JsonValue
  unsupportedSkillsJson : JsonValue
  evidenceJson : JsonValue
  thresholdsJson : JsonValue
  policyVersion : String
  modelIdentity : String
  qualificationDigest : Option String
  createdAt : ℤ

/-- The rows of the table, and the key of the next one. -/
structure FitStore where
  rows : List JobFitDecisionRecord
  nextId : ℕ

def FitStore.empty : FitStore where
  rows := []
  nextId := 1

/-! ## One row -/

/-- The row written for a decision. -/
def recordOf (id jobId : ℕ) (digest : String) (createdAt : ℤ) (decision : JobFitDecisionV1) :
    JobFitDecisionRecord where
  id
  jobId
  decisionDigest := digest
  jobDigest := decision.jobDigest
  profileVersion := decision.profileVersion
  routingConfigDigest := decision.routingConfigDigest
  cvManifestDigest := decision.cvManifestDigest
  selectedCvId := decision.selectedCvId
  selectedCvHash := decision.selectedCvHash
  routingConfidence := decision.routingConfidence
  routingMargin := decision.routingMargin
  routingFallbackReason := decision.routingFallbackReason
  fitScore := decision.fitScore
  disposition := decision.disposition.value
  qualityEligible := decision.qualityEligible
  hardExclusionsJson := .list .text decision.hardExclusions
  uncertaintyJson := .list .text decision.uncertainty
  unsupportedSkillsJson := .list .text decision.unsupportedRequiredSkills
  evidenceJson := .list FitEvidenceV1.modelDump decision.evidence
  thresholdsJson := decision.thresholds.modelDump
  policyVersion := decision.policyVersion
  modelIdentity := decision.modelIdentity
  qualificationDigest := decision.qualificationDigest
  createdAt

def decisionFromRecord (record : JobFitDecisionRecord) : Option JobFitDecisionV1 := do
  let fields : DecisionFields := {
    jobDigest := record.jobDigest
    profileVersion := record.profileVersion
    routingConfigDigest := record.routingConfigDigest
    cvManifestDigest := record.cvManifestDigest
    selectedCvId := record.selectedCvId
    selectedCvHash := record.selectedCvHash
    routingConfidence := record.routingConfidence
    routingMargin := record.routingMargin
    routingFallbackReason := record.routingFallbackReason
    fitScore := record.fitScore
    disposition := ← ofToken FitDisposition.value FitDisposition.all record.disposition
    qualityEligible := record.qualityEligible
    hardExclusions := ← record.hardExclusionsJson.list? Json.text?
    uncertainty := ← record.uncertaintyJson.list? Json.text?
    unsupportedRequiredSkills := ← record.unsupportedSkillsJson.list? Json.text?
    evidence := ← record.evidenceJson.list? FitEvidenceV1.read
    policyVersion := record.policyVersion
    modelIdentity := record.modelIdentity
    thresholds := ← FitThresholdsV1.read record.thresholdsJson
    qualificationDigest := record.qualificationDigest }
  JobFitDecisionV1.validate fields

theorem decisionFromRecord_recordOf (id jobId : ℕ) (digest : String) (createdAt : ℤ)
    (decision : JobFitDecisionV1) :
    decisionFromRecord (recordOf id jobId digest createdAt decision) = some decision := by
  have hdisposition : ofToken FitDisposition.value FitDisposition.all decision.disposition.value =
      some decision.disposition :=
    ofToken_token (by decide) (by cases decision.disposition <;> decide)
  have hevidence := Json.list?_list FitEvidenceV1.read_modelDump decision.evidence
  simp only [decisionFromRecord, recordOf, hdisposition, Json.list?_texts, hevidence,
    FitThresholdsV1.read_modelDump, Option.bind_eq_bind, Option.bind_some]
  exact decision.validate_fields

/-! ## The table -/

section Store

variable (stableDigest : JsonValue → String)

def JobFitDecisionV1.decisionDigest (decision : JobFitDecisionV1) : String :=
  stableDigest decision.modelDump

/-- The row of a job with a digest. -/
def FitStore.existing (store : FitStore) (jobId : ℕ) (digest : String) :
    Option JobFitDecisionRecord :=
  store.rows.find? fun row => row.jobId == jobId && row.decisionDigest == digest

/-- `persist_job_fit_decision`, in a transaction whose `now()` is given. -/
def persistJobFitDecision (store : FitStore) (jobId : ℕ) (decision : JobFitDecisionV1) (now : ℤ) :
    Except String (FitStore × JobFitDecisionRecord) :=
  let digest := decision.decisionDigest stableDigest
  match store.existing jobId digest with
  | some existing =>
    if decisionFromRecord existing ≠ some decision then
      .error "JOB_FIT_DECISION_DIGEST_COLLISION"
    else
      .ok (store, existing)
  | none =>
    let record := recordOf store.nextId jobId digest now decision
    .ok (⟨store.rows ++ [record], store.nextId + 1⟩, record)

/-- `created_at DESC, id DESC`: the first row comes before the second. -/
def JobFitDecisionRecord.isNewer (first second : JobFitDecisionRecord) : Bool :=
  decide (second.createdAt < first.createdAt)
    || decide (second.createdAt = first.createdAt) && decide (second.id < first.id)

/-- The first of some rows in that order. -/
def newestRow : List JobFitDecisionRecord → Option JobFitDecisionRecord
  | [] => none
  | row :: rows =>
    match newestRow rows with
    | none => some row
    | some other => if row.isNewer other then some row else some other

def FitStore.ofJob (store : FitStore) (jobId : ℕ) : List JobFitDecisionRecord :=
  store.rows.filter fun row => row.jobId == jobId

def latestJobFitDecision (store : FitStore) (jobId : ℕ) :
    Option (JobFitDecisionRecord × Option JobFitDecisionV1) :=
  (newestRow (store.ofJob jobId)).map fun record => (record, decisionFromRecord record)

/-! ## Calls one after the other -/

structure PersistCall where
  jobId : ℕ
  decision : JobFitDecisionV1
  now : ℤ

/-- A call that is refused leaves the rows as they are. -/
def performPersist (store : FitStore) (call : PersistCall) : FitStore :=
  match persistJobFitDecision stableDigest store call.jobId call.decision call.now with
  | .ok (after, _) => after
  | .error _ => store

def performPersists (calls : List PersistCall) : FitStore :=
  calls.foldl (performPersist stableDigest) .empty

end Store

/-! ## The newest row -/

variable {first second : JobFitDecisionRecord} {rows : List JobFitDecisionRecord}
  {store : FitStore} {jobId : ℕ}

theorem isNewer_iff :
    first.isNewer second = true ↔ second.createdAt < first.createdAt ∨
      second.createdAt = first.createdAt ∧ second.id < first.id := by
  simp [JobFitDecisionRecord.isNewer]

theorem isNewer_of_not (hne : second.id ≠ first.id) (hnot : ¬ first.isNewer second = true) :
    second.isNewer first = true := by
  rw [isNewer_iff] at hnot ⊢
  omega

theorem isNewer_trans (hfirst : first.isNewer second = true)
    (hsecond : second.isNewer third = true) :
    first.isNewer third = true := by
  rw [isNewer_iff] at hfirst hsecond ⊢
  omega

/-- Every other row was created before it. -/
def IsNewest (rows : List JobFitDecisionRecord) (record : JobFitDecisionRecord) : Prop :=
  record ∈ rows ∧ ∀ other ∈ rows, other ≠ record → record.isNewer other = true

theorem newestRow_eq_none (hnone : newestRow rows = none) :
    rows = [] := by
  cases rows with
  | nil => rfl
  | cons row rows =>
    rw [newestRow] at hnone
    split at hnone
    · cases hnone
    · split at hnone <;> cases hnone

/-- The newest row is the newest by its time and its id. -/
theorem isNewest_of_newestRow (hids : (rows.map JobFitDecisionRecord.id).Nodup)
    (hnewest : newestRow rows = some record) : IsNewest rows record := by
  induction rows generalizing record with
  | nil => cases hnewest
  | cons row rows ih =>
    rw [List.map_cons, List.nodup_cons] at hids
    rw [newestRow] at hnewest
    split at hnewest
    · next hnone =>
      cases hnewest
      rw [newestRow_eq_none hnone]
      refine ⟨.head _, fun other hother hne => ?_⟩
      exact absurd (List.mem_singleton.mp hother) hne
    · next rest hrest =>
      obtain ⟨hmem, hbefore⟩ := ih hids.2 hrest
      split at hnewest
      · next hrow =>
        cases hnewest
        refine ⟨.head _, fun other hother hne => ?_⟩
        have hlater := (List.mem_cons.mp hother).resolve_left hne
        by_cases hsame : other = rest
        · rw [hsame]
          exact hrow
        · exact isNewer_trans hrow (hbefore other hlater hsame)
      · next hrow =>
        cases hnewest
        refine ⟨.tail _ hmem, fun other hother hne => ?_⟩
        rcases List.mem_cons.mp hother with rfl | hlater
        · refine isNewer_of_not (fun hid => ?_) hrow
          exact hids.1 (hid ▸ List.mem_map_of_mem hmem)
        · exact hbefore other hlater hne

theorem IsNewest.unique (hfirst : IsNewest rows first) (hsecond : IsNewest rows second) :
    first = second := by
  by_contra hne
  have hone := hfirst.2 second hsecond.1 (Ne.symm hne)
  have hother := hsecond.2 first hfirst.1 hne
  rw [isNewer_iff] at hone hother
  omega

theorem newestRow_eq_some_iff (hids : (rows.map JobFitDecisionRecord.id).Nodup) :
    newestRow rows = some record ↔ IsNewest rows record := by
  constructor
  · exact isNewest_of_newestRow hids
  · intro hrecord
    cases hnewest : newestRow rows with
    | none =>
      rw [newestRow_eq_none hnewest] at hrecord
      cases hrecord.1
    | some newest => rw [(isNewest_of_newestRow hids hnewest).unique hrecord]

/-! ## What every history keeps -/

variable (stableDigest) in
/-- Keys in order, one row for a job and a digest, and each row written for a decision. -/
structure Sound (store : FitStore) : Prop where
  ids : (store.rows.map JobFitDecisionRecord.id).Nodup
  below : ∀ row ∈ store.rows, row.id < store.nextId
  keys : (store.rows.map fun row => (row.jobId, row.decisionDigest)).Nodup
  written : ∀ row ∈ store.rows, ∃ decision : JobFitDecisionV1,
    row = recordOf row.id row.jobId (decision.decisionDigest stableDigest) row.createdAt decision

theorem sound_empty : Sound stableDigest .empty where
  ids := List.nodup_nil
  below row hrow := by cases hrow
  keys := List.nodup_nil
  written row hrow := by cases hrow

theorem Sound.decision_of_mem (hsound : Sound stableDigest store) (hrow : row ∈ store.rows) :
    ∃ decision : JobFitDecisionV1, decisionFromRecord row = some decision ∧
      row.decisionDigest = decision.decisionDigest stableDigest := by
  obtain ⟨decision, hwritten⟩ := hsound.written row hrow
  refine ⟨decision, ?_, ?_⟩
  · rw [hwritten]
    exact decisionFromRecord_recordOf _ _ _ _ decision
  · rw [hwritten]
    rfl

theorem existing_eq_some (hrow : store.existing jobId digest = some row) :
    row ∈ store.rows ∧ row.jobId = jobId ∧ row.decisionDigest = digest := by
  have hkey := List.find?_some hrow
  rw [Bool.and_eq_true, beq_iff_eq, beq_iff_eq] at hkey
  exact ⟨List.mem_of_find?_eq_some hrow, hkey⟩

theorem existing_eq_none (hnone : store.existing jobId digest = none) (hrow : row ∈ store.rows) :
    ¬ (row.jobId = jobId ∧ row.decisionDigest = digest) := by
  have hkey := List.find?_eq_none.mp hnone row hrow
  rwa [Bool.and_eq_true, beq_iff_eq, beq_iff_eq] at hkey

/-- A decision is kept in the row that it has, or in a new one. -/
theorem persist_eq_ok
    (hok : persistJobFitDecision stableDigest store jobId decision now = .ok (after, record)) :
    (store.existing jobId (decision.decisionDigest stableDigest) = some record ∧
        decisionFromRecord record = some decision ∧ after = store) ∨
      store.existing jobId (decision.decisionDigest stableDigest) = none ∧
        record = recordOf store.nextId jobId (decision.decisionDigest stableDigest) now decision ∧
        after = ⟨store.rows ++ [record], store.nextId + 1⟩ := by
  rw [persistJobFitDecision] at hok
  cases hexisting : store.existing jobId (decision.decisionDigest stableDigest) with
  | some existing =>
    simp only [hexisting] at hok
    split at hok
    · cases hok
    next hsame =>
    cases hok
    exact .inl ⟨rfl, not_not.mp hsame, rfl⟩
  | none =>
    simp only [hexisting] at hok
    cases hok
    exact .inr ⟨rfl, rfl, rfl⟩

/-- One call keeps the rows sound. -/
theorem Sound.persist (hsound : Sound stableDigest store)
    (hok : persistJobFitDecision stableDigest store jobId decision now = .ok (after, record)) :
    Sound stableDigest after := by
  rcases persist_eq_ok hok with ⟨_, _, rfl⟩ | ⟨hnone, rfl, rfl⟩
  · exact hsound
  constructor
  · rw [List.map_append, List.map_singleton, ← List.concat_eq_append, List.nodup_concat]
    refine ⟨?_, hsound.ids⟩
    rw [List.mem_map]
    rintro ⟨row, hrow, hid⟩
    exact absurd hid (Nat.ne_of_lt (hsound.below row hrow))
  · intro row hrow
    rcases List.mem_append.mp hrow with hold | hnew
    · exact Nat.lt_succ_of_lt (hsound.below row hold)
    · rw [List.mem_singleton.mp hnew]
      exact Nat.lt_succ_self _
  · rw [List.map_append, List.map_singleton, ← List.concat_eq_append, List.nodup_concat]
    refine ⟨?_, hsound.keys⟩
    rw [List.mem_map]
    rintro ⟨row, hrow, hkey⟩
    exact existing_eq_none hnone hrow (Prod.ext_iff.mp hkey)
  · intro row hrow
    rcases List.mem_append.mp hrow with hold | hnew
    · exact hsound.written row hold
    · rw [List.mem_singleton.mp hnew]
      exact ⟨decision, rfl⟩

theorem rows_prefix_persist
    (hok : persistJobFitDecision stableDigest store jobId decision now = .ok (after, record)) :
    store.rows <+: after.rows := by
  rcases persist_eq_ok hok with ⟨_, _, rfl⟩ | ⟨_, rfl, rfl⟩
  · exact List.prefix_rfl
  · exact List.prefix_append _ _

theorem performPersist_cases (store : FitStore) (call : PersistCall) :
    performPersist stableDigest store call = store ∨ ∃ record,
      persistJobFitDecision stableDigest store call.jobId call.decision call.now =
        .ok (performPersist stableDigest store call, record) := by
  rw [performPersist]
  cases hok : persistJobFitDecision stableDigest store call.jobId call.decision call.now with
  | error reason => exact .inl rfl
  | ok result => exact .inr ⟨result.2, rfl⟩

theorem Sound.performPersist (hsound : Sound stableDigest store) (call : PersistCall) :
    Sound stableDigest (performPersist stableDigest store call) := by
  rcases performPersist_cases store call with hsame | ⟨_, hok⟩
  · rw [hsame]
    exact hsound
  · exact hsound.persist hok

theorem rows_prefix_performPersist (store : FitStore) (call : PersistCall) :
    store.rows <+: (performPersist stableDigest store call).rows := by
  rcases performPersist_cases store call with hsame | ⟨_, hok⟩
  · exact ⟨[], by rw [hsame, List.append_nil]⟩
  · exact rows_prefix_persist hok

theorem sound_performPersists (calls : List PersistCall) :
    Sound stableDigest (performPersists stableDigest calls) := by
  have hfrom : ∀ store : FitStore, Sound stableDigest store →
      Sound stableDigest (calls.foldl (performPersist stableDigest) store) := by
    induction calls with
    | nil => exact fun _ hsound => hsound
    | cons call calls ih => exact fun store hsound => ih _ (hsound.performPersist call)
  exact hfrom .empty sound_empty

theorem performPersists_concat (calls : List PersistCall) (call : PersistCall) :
    performPersists stableDigest (calls ++ [call]) =
      performPersist stableDigest (performPersists stableDigest calls) call :=
  List.foldl_append

theorem rows_prefix_foldl (calls : List PersistCall) (store : FitStore) :
    store.rows <+: (calls.foldl (performPersist stableDigest) store).rows := by
  induction calls generalizing store with
  | nil => exact List.prefix_rfl
  | cons call calls ih => exact (rows_prefix_performPersist store call).trans (ih _)

/-! ## The latest decision -/

variable (stableDigest) in
/-- The decision of a call is new and no row of its job was created after the call, or its row
is the newest one of the job. -/
def NotSuperseded (store : FitStore) (call : PersistCall) : Prop :=
  match store.existing call.jobId (call.decision.decisionDigest stableDigest) with
  | none => ∀ row ∈ store.ofJob call.jobId, row.createdAt ≤ call.now
  | some existing => decisionFromRecord existing = some call.decision →
      IsNewest (store.ofJob call.jobId) existing

variable (stableDigest) in
/-- Every row returned reads back as the decision of its call, no row changes, there is one for
a job and a digest, and the latest decision is the one of the last call. -/
structure KeepsDecisions (calls : List PersistCall) : Prop where
  decoded : ∀ before call after, calls = before ++ call :: after → ∀ store record,
    persistJobFitDecision stableDigest (performPersists stableDigest before) call.jobId
        call.decision call.now = .ok (store, record) →
      decisionFromRecord record = some call.decision
  unchanged : ∀ before after, calls = before ++ after →
    (performPersists stableDigest before).rows <+: (performPersists stableDigest calls).rows
  unique : ((performPersists stableDigest calls).rows.map fun row =>
    (row.jobId, row.decisionDigest)).Nodup
  latest : ∀ before call after, calls = before ++ call :: after → ∀ store record,
    persistJobFitDecision stableDigest (performPersists stableDigest before) call.jobId
        call.decision call.now = .ok (store, record) →
      ∃ row, latestJobFitDecision store call.jobId = some (row, some call.decision)

theorem Sound.ids_ofJob (hsound : Sound stableDigest store) (jobId : ℕ) :
    ((store.ofJob jobId).map JobFitDecisionRecord.id).Nodup :=
  hsound.ids.sublist (List.filter_sublist.map _)

theorem mem_ofJob :
    row ∈ store.ofJob jobId ↔ row ∈ store.rows ∧ row.jobId = jobId := by
  rw [FitStore.ofJob, List.mem_filter, beq_iff_eq]

theorem Sound.eq_of_key (hsound : Sound stableDigest store) (hfirst : first ∈ store.rows)
    (hsecond : second ∈ store.rows) (hjob : first.jobId = second.jobId)
    (hdigest : first.decisionDigest = second.decisionDigest) : first = second :=
  List.inj_on_of_nodup_map hsound.keys hfirst hsecond (Prod.ext hjob hdigest)

/-- A decision is the latest exactly where its row is the newest. -/
theorem latest_iff (hsound : Sound stableDigest store) (hrecord : record ∈ store.ofJob jobId)
    (hdecoded : decisionFromRecord record = some decision) :
    (∃ row, latestJobFitDecision store jobId = some (row, some decision)) ↔
      IsNewest (store.ofJob jobId) record := by
  rw [← newestRow_eq_some_iff (hsound.ids_ofJob jobId), latestJobFitDecision]
  constructor
  · rintro ⟨row, hlatest⟩
    obtain ⟨newest, hnewest, hpair⟩ := Option.map_eq_some_iff.mp hlatest
    obtain ⟨rfl, hdecision⟩ := Prod.ext_iff.mp hpair
    have hrow := ((newestRow_eq_some_iff (hsound.ids_ofJob jobId)).mp hnewest).1
    rw [mem_ofJob] at hrow hrecord
    obtain ⟨first, hfirst, hfirstDigest⟩ := hsound.decision_of_mem hrow.1
    obtain ⟨second, hsecond, hsecondDigest⟩ := hsound.decision_of_mem hrecord.1
    have hsame : first = second :=
      Option.some.inj ((hfirst.symm.trans hdecision).trans (hdecoded.symm.trans hsecond))
    have hkey := hsound.eq_of_key hrow.1 hrecord.1 (hrow.2.trans hrecord.2.symm)
      (by rw [hfirstDigest, hsecondDigest, hsame])
    rw [hnewest, hkey]
  · intro hnewest
    exact ⟨record, by rw [hnewest, Option.map_some, hdecoded]⟩

/-- A call that goes through leaves its decision as the latest one exactly when it was not
superseded. -/
theorem latest_persist_iff (hsound : Sound stableDigest store)
    (hok : persistJobFitDecision stableDigest store call.jobId call.decision call.now =
      .ok (after, record)) :
    (∃ row, latestJobFitDecision after call.jobId = some (row, some call.decision)) ↔
      NotSuperseded stableDigest store call := by
  have hafter := hsound.persist hok
  rcases persist_eq_ok hok with ⟨hexisting, hdecoded, rfl⟩ | ⟨hnone, rfl, rfl⟩
  · obtain ⟨hmem, hjob, _⟩ := existing_eq_some hexisting
    rw [latest_iff hafter (mem_ofJob.mpr ⟨hmem, hjob⟩) hdecoded, NotSuperseded, hexisting]
    exact ⟨fun hnewest _ => hnewest, fun hnewest => hnewest hdecoded⟩
  · have hmem : recordOf store.nextId call.jobId (call.decision.decisionDigest stableDigest)
        call.now call.decision ∈ FitStore.ofJob ⟨store.rows ++ [recordOf store.nextId call.jobId
          (call.decision.decisionDigest stableDigest) call.now call.decision],
          store.nextId + 1⟩ call.jobId :=
      mem_ofJob.mpr ⟨List.mem_append_right _ (.head _), rfl⟩
    rw [latest_iff hafter hmem (decisionFromRecord_recordOf _ _ _ _ _), NotSuperseded, hnone]
    constructor
    · intro hnewest row hrow
      rw [mem_ofJob] at hrow
      have hbelow := hsound.below row hrow.1
      have hnewer := hnewest.2 row (mem_ofJob.mpr ⟨List.mem_append_left _ hrow.1, hrow.2⟩) (by
        rintro rfl
        exact Nat.lt_irrefl _ hbelow)
      rw [isNewer_iff] at hnewer
      change row.createdAt < call.now ∨ row.createdAt = call.now ∧ _ at hnewer
      omega
    · intro hbefore
      refine ⟨hmem, fun row hrow hne => ?_⟩
      rw [mem_ofJob, List.mem_append, List.mem_singleton] at hrow
      have hold := hrow.1.resolve_right hne
      have hcreated := hbefore row (mem_ofJob.mpr ⟨hold, hrow.2⟩)
      have hbelow := hsound.below row hold
      rw [isNewer_iff]
      change row.createdAt < call.now ∨ row.createdAt = call.now ∧ row.id < store.nextId
      omega

theorem decoded_of_persist
    (hok : persistJobFitDecision stableDigest store jobId decision now = .ok (after, record)) :
    decisionFromRecord record = some decision := by
  rcases persist_eq_ok hok with ⟨_, hdecoded, _⟩ | ⟨_, rfl, _⟩
  · exact hdecoded
  · exact decisionFromRecord_recordOf _ _ _ _ decision

theorem notSuperseded_of_refused
    (hrefused : persistJobFitDecision stableDigest store call.jobId call.decision call.now =
      .error reason) : NotSuperseded stableDigest store call := by
  rw [persistJobFitDecision] at hrefused
  rw [NotSuperseded]
  cases hexisting : store.existing call.jobId (call.decision.decisionDigest stableDigest) with
  | none =>
    simp only [hexisting] at hrefused
    cases hrefused
  | some existing =>
    simp only [hexisting] at hrefused
    intro hdecoded
    rw [if_neg (not_not.mpr hdecoded)] at hrefused
    cases hrefused

/-- Every history keeps its decisions, and the latest decision is always the last one made
exactly when no call makes a superseded decision again. -/
theorem keepsDecisions_iff (calls : List PersistCall) :
    KeepsDecisions stableDigest calls ↔
      ∀ before call after, calls = before ++ call :: after →
        NotSuperseded stableDigest (performPersists stableDigest before) call := by
  constructor
  · intro hkeeps before call after hcalls
    cases hok : persistJobFitDecision stableDigest (performPersists stableDigest before)
        call.jobId call.decision call.now with
    | error reason => exact notSuperseded_of_refused hok
    | ok result =>
      exact (latest_persist_iff (sound_performPersists before) hok).mp
        (hkeeps.latest before call after hcalls result.1 result.2 hok)
  · intro hnone
    constructor
    · intro before call after _ store record hok
      exact decoded_of_persist hok
    · rintro before after rfl
      rw [performPersists, performPersists, List.foldl_append]
      exact rows_prefix_foldl after _
    · exact (sound_performPersists calls).keys
    · intro before call after hcalls store record hok
      exact (latest_persist_iff (sound_performPersists before) hok).mpr
        (hnone before call after hcalls)

/-! ## A decision made again -/

def unavailableFactors : List (FitFactor × ℚ) :=
  [(.role, 35), (.skills, 25), (.location, 20), (.seniority, 10), (.employment, 5),
    (.experience, 3), (.languageAuthorization, 2)]

/-- `unavailable_job_fit_decision`, before it is validated. -/
def unavailableFields (jobDigest : String) (profileVersion : Option ℤ) (reasonCode : String) :
    DecisionFields where
  jobDigest
  profileVersion
  routingConfigDigest := String.ofList (List.replicate 64 '0')
  cvManifestDigest := String.ofList (List.replicate 64 '0')
  selectedCvId := none
  selectedCvHash := none
  routingConfidence := .finite 0
  routingMargin := .finite 0
  routingFallbackReason := none
  fitScore := .finite 0
  disposition := .needsReview
  qualityEligible := false
  hardExclusions := []
  uncertainty := [reasonCode, "FIT_SCORE_BELOW_THRESHOLD"]
  unsupportedRequiredSkills := []
  evidence := unavailableFactors.map fun entry =>
    { factor := entry.1, result := .unknown, points := .finite 0, maximumPoints := .finite entry.2,
      reasonCodes := [reasonCode] }
  policyVersion := fitPolicyVersion
  modelIdentity := fitModelIdentity
  thresholds := defaultThresholds
  qualificationDigest := none

def sampleFields (version : ℤ) : DecisionFields :=
  unavailableFields (String.ofList (List.replicate 64 'a')) (some version)
    "FIT_ROUTING_CONFIG_MISSING"

def firstDecision : JobFitDecisionV1 := ⟨sampleFields 1, by decide +kernel⟩

def secondDecision : JobFitDecisionV1 := ⟨sampleFields 2, by decide +kernel⟩

/-- Digests that tell the two profiles apart. -/
def sampleDigest (json : JsonValue) : String :=
  match json.member? "profile_version" with
  | some (.number (.finite version)) =>
    String.ofList (List.replicate 64 (if version = 1 then 'b' else 'c'))
  | _ => String.ofList (List.replicate 64 'd')

def profileHistory : List PersistCall :=
  [⟨1, firstDecision, 0⟩, ⟨1, secondDecision, 60⟩]

def changedBack : PersistCall := ⟨1, firstDecision, 120⟩

theorem superseded_decision_not_latest :
    (latestJobFitDecision (performPersists sampleDigest (profileHistory ++ [changedBack])) 1).map
        Prod.snd = some (some secondDecision) ∧
      ¬ KeepsDecisions sampleDigest (profileHistory ++ [changedBack]) := by
  have hlatest : (latestJobFitDecision (performPersists sampleDigest
      (profileHistory ++ [changedBack])) 1).map Prod.snd = some (some secondDecision) := by
    decide +kernel
  refine ⟨hlatest, fun hkeeps => ?_⟩
  have hok : (persistJobFitDecision sampleDigest (performPersists sampleDigest profileHistory)
      changedBack.jobId changedBack.decision changedBack.now).toBool = true := by
    decide +kernel
  cases hresult : persistJobFitDecision sampleDigest (performPersists sampleDigest profileHistory)
      changedBack.jobId changedBack.decision changedBack.now with
  | error reason =>
    rw [hresult] at hok
    cases hok
  | ok result =>
    obtain ⟨row, hrow⟩ := hkeeps.latest profileHistory changedBack [] rfl result.1 result.2
      hresult
    have hstore : performPersists sampleDigest (profileHistory ++ [changedBack]) = result.1 := by
      rw [performPersists_concat, performPersist, hresult]
    rw [hstore, show (1 : ℕ) = changedBack.jobId from rfl, hrow, Option.map_some,
      Option.some.injEq, Option.some.injEq] at hlatest
    have hother : changedBack.decision ≠ secondDecision := by decide +kernel
    exact hother hlatest

end JobApplyAgent.Match
