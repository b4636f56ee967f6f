import JobApplyAgent.Library.Rows
import JobApplyAgent.Truth.SqlConditions
import Mathlib.Data.List.Dedup

/-!
# Counting verified applications

The tables under their constraints, where the SQL conditions and the reader of a
loaded attempt agree, and the count of the applications whose latest attempt is
verified.
-/

namespace JobApplyAgent.Truth

open Domain Library

/-- The columns that `fk_submissions_exact_form_plan` refers to. -/
structure FormPlanKey where
  id : ℕ
  applicationId : ℕ
  applicationRevision : ℤ
  adapterName : String
  adapterVersion : String
  selectorVersion : String
  fingerprint : String
  selectedCvId : String
  selectedCvHash : String
  attachedCvId : String
  attachedCvHash : String
  attachmentVerified : Bool
  profileVersion : ℤ

/-- The referencing columns; a NULL among them refers to nothing. -/
def SubmissionRecord.formPlanKey (attempt : SubmissionRecord) : Option FormPlanKey := do
  return {
    id := ← attempt.formPlanId
    applicationId := attempt.applicationId
    applicationRevision := attempt.applicationRevision
    adapterName := ← attempt.adapterName
    adapterVersion := ← attempt.adapterVersion
    selectorVersion := ← attempt.selectorVersion
    fingerprint := ← attempt.formPlanFingerprint
    selectedCvId := ← attempt.requestedCvId
    selectedCvHash := ← attempt.requestedCvHash
    attachedCvId := ← attempt.attachedCvId
    attachedCvHash := ← attempt.attachedCvHash
    attachmentVerified := attempt.attachmentVerified
    profileVersion := ← attempt.profileVersion }

/-- The columns of `fk_submissions_confirmed_evidence`. -/
structure EvidenceKey where
  attemptId : ℕ
  evidenceDigest : String
  evidenceType : String
  formFingerprint : String
  cvHash : String

def EvidenceRecord.key (evidence : EvidenceRecord) : EvidenceKey where
  attemptId := evidence.attemptId
  evidenceDigest := evidence.evidenceDigest
  evidenceType := evidence.evidenceType
  formFingerprint := evidence.formFingerprint
  cvHash := evidence.cvHash

def SubmissionRecord.evidenceKey (attempt : SubmissionRecord) : Option EvidenceKey := do
  return {
    attemptId := attempt.id
    evidenceDigest := ← attempt.evidenceDigest
    evidenceType := ← attempt.verificationKind
    formFingerprint := ← attempt.formPlanFingerprint
    cvHash := ← attempt.attachedCvHash }

structure Tables where
  applications : List ℕ
  formPlans : List FormPlanKey
  submissions : List SubmissionRecord
  evidence : List EvidenceRecord

/-- The constraints of `submissions` and `submission_evidence`. -/
structure Tables.Admitted (tables : Tables) : Prop where
  applicationIds : tables.applications.Nodup
  submissionIds : (tables.submissions.map fun attempt => attempt.id).Nodup
  attemptNumbers : (tables.submissions.map fun attempt =>
    (attempt.applicationId, attempt.attemptNumber)).Nodup
  digestNumbers : (tables.evidence.map fun row => (row.attemptId, row.evidenceDigest)).Nodup
  application : ∀ attempt ∈ tables.submissions, attempt.applicationId ∈ tables.applications
  attempt : ∀ row ∈ tables.evidence, ∃ attempt ∈ tables.submissions, attempt.id = row.attemptId
  submissionChecks : ∀ attempt ∈ tables.submissions, (SqlBool.all
    [stageOutcomeConsistent attempt, successOutcome attempt, submittedAtVerified attempt,
      confirmedEvidence attempt]).Accepts
  evidenceChecks : ∀ row ∈ tables.evidence,
    (SqlBool.all [evidenceDigests row, typedReference row]).Accepts
  exactFormPlan : ∀ attempt ∈ tables.submissions, ∀ key, attempt.formPlanKey = some key →
    key ∈ tables.formPlans
  confirmedEvidence : ∀ attempt ∈ tables.submissions, ∀ key, attempt.evidenceKey = some key →
    ∃ row ∈ tables.evidence, row.key = key

namespace Tables

variable (tables : Tables)

/-- The attempt with its evidence, ordered by the time of observation. -/
def load (attempt : SubmissionRecord) : SubmissionLike where
  toSubmissionColumns := attempt.toSubmissionColumns
  evidence := ((tables.evidence.filter fun row => decide (row.attemptId = attempt.id)).map
    EvidenceRecord.toEvidenceLike).insertionSort fun first second =>
      first.observedAt ≤ second.observedAt

/-- The attempt joined with some evidence row satisfies the SQL conditions. -/
def SqlVerified (attempt : SubmissionRecord) : Prop :=
  ∃ evidence ∈ tables.evidence,
    (SqlBool.all (employerVerifiedSqlConditions evidence attempt)).Keeps

/-- The greatest attempt number of each application that has one. -/
def latestAttempts : List (ℕ × ℤ) :=
  (tables.submissions.map fun attempt => attempt.applicationId).dedup.filterMap
    fun application =>
      (((tables.submissions.filter fun attempt =>
        decide (attempt.applicationId = application)).map fun attempt =>
          attempt.attemptNumber).max?).map fun number => (application, number)

/-- One row for each latest attempt that joins with verifying evidence. -/
def latestEmployerVerifiedQuery : List SubmissionRecord :=
  (tables.submissions.flatMap fun attempt =>
    ((tables.latestAttempts.filter fun latest =>
      decide (attempt.applicationId = latest.1 ∧ attempt.attemptNumber = latest.2)).flatMap
        fun _ => (tables.evidence.filter fun row =>
          decide (row.attemptId = attempt.id)
            && decide (SqlBool.all (employerVerifiedSqlConditions row attempt)).Keeps).map
              fun _ => attempt)).dedup

def latestEmployerVerifiedCount : ℕ :=
  tables.latestEmployerVerifiedQuery.length

/-- The highest-numbered attempt of an application. -/
def latestAttempt (application : ℕ) : Option SubmissionRecord :=
  tables.submissions.find? fun attempt =>
    decide (attempt.applicationId = application) && tables.submissions.all fun other =>
      decide (other.applicationId = application → other.attemptNumber ≤ attempt.attemptNumber)

/-- The number of applications whose highest-numbered attempt is verified. -/
def verifiedApplications : ℕ :=
  tables.applications.countP fun application =>
    isEmployerVerified ((tables.latestAttempt application).map tables.load)

/-- The attempt is confirmed for an employer reason, with bound and timely
evidence. -/
def Evidenced (attempt : SubmissionRecord) : Prop :=
  attempt.outcome = some .confirmedSubmitted ∧
    (∃ reason ∈ employerVerifiedReasonCodes, attempt.reasonCode = some reason) ∧
    ∃ evidence ∈ tables.evidence, evidence.bound attempt.toSubmissionColumns = true ∧
      evidence.Timely attempt.toSubmissionColumns

/-- No text of an evidenced attempt is made of white space. -/
def TextsVisible (attempt : SubmissionRecord) : Prop :=
  tables.Evidenced attempt → ∀ column ∈ attempt.texts, nonblank column = true

variable {tables}

theorem mem_load_evidence :
    row ∈ (tables.load attempt).evidence ↔
      ∃ record ∈ tables.evidence, record.attemptId = attempt.id ∧ record.toEvidenceLike = row := by
  simp [load, List.mem_insertionSort, and_assoc]

theorem isEmployerVerified_load_iff :
    isEmployerVerified (some (tables.load attempt)) = true ↔
      ∃ evidence ∈ tables.evidence, Verifies (fun text => hasInk text = true)
        (fun text => sha256 (some text) = true) evidence.toEvidenceLike
        attempt.toSubmissionColumns := by
  rw [isEmployerVerified_iff]
  constructor
  · rintro ⟨row, hrow, hverifies⟩
    obtain ⟨record, hrecord, _, rfl⟩ := mem_load_evidence.mp hrow
    exact ⟨record, hrecord, hverifies⟩
  · rintro ⟨record, hrecord, hverifies⟩
    have hbound := hverifies.bound
    simp only [EvidenceLike.bound, Bool.and_eq_true, decide_eq_true_eq] at hbound
    exact ⟨_, mem_load_evidence.mpr ⟨record, hrecord, hbound.1.1.1.1, rfl⟩, hverifies⟩

section Admitted

variable (hadmitted : tables.Admitted) (hattempt : attempt ∈ tables.submissions)

include hadmitted hattempt

theorem verifies_of_admitted {evidence : EvidenceRecord}
    (houtcome : attempt.outcome = some .confirmedSubmitted)
    (hreason : ∃ reason ∈ employerVerifiedReasonCodes, attempt.reasonCode = some reason)
    (hbound : evidence.bound attempt.toSubmissionColumns = true)
    (htimely : evidence.Timely attempt.toSubmissionColumns) :
    Verifies (fun text => trim text ≠ []) (fun text => sha256 (some text) = true)
      evidence.toEvidenceLike attempt.toSubmissionColumns := by
  have hchecks := hadmitted.submissionChecks attempt hattempt
  simp only [SqlBool.all_accepts, List.forall_mem_cons] at hchecks
  exact verifies_of_constraints hchecks.1 hchecks.2.2.2.1 houtcome hreason hbound htimely

theorem sqlVerified_iff_evidenced : tables.SqlVerified attempt ↔ tables.Evidenced attempt := by
  constructor
  · rintro ⟨evidence, hevidence, hkeeps⟩
    have hverifies := employerVerifiedSqlConditions_keeps.mp hkeeps
    exact ⟨hverifies.outcome, hverifies.reason, evidence, hevidence, hverifies.bound,
      hverifies.timely⟩
  · rintro ⟨houtcome, hreason, evidence, hevidence, hbound, htimely⟩
    have hverifies := verifies_of_admitted hadmitted hattempt houtcome hreason hbound htimely
    refine ⟨evidence, hevidence, employerVerifiedSqlConditions_keeps.mpr ?_⟩
    apply hverifies.mono (fun _ _ _ _ htext => htext)
    intro column _ text _ hdigest
    simp only [sha256, Option.any_some, Bool.and_eq_true, beq_iff_eq] at hdigest
    exact hdigest.1

theorem isEmployerVerified_iff_evidenced :
    isEmployerVerified (some (tables.load attempt)) = true ↔
      tables.Evidenced attempt ∧ ∀ column ∈ attempt.texts, nonblank column = true := by
  rw [isEmployerVerified_load_iff]
  constructor
  · rintro ⟨evidence, hevidence, hverifies⟩
    refine ⟨⟨hverifies.outcome, hverifies.reason, evidence, hevidence, hverifies.bound,
      hverifies.timely⟩, ?_⟩
    intro column hcolumn
    exact nonblank_iff.mpr (hverifies.texts column hcolumn)
  · rintro ⟨⟨houtcome, hreason, evidence, hevidence, hbound, htimely⟩, hvisible⟩
    have hverifies := verifies_of_admitted hadmitted hattempt houtcome hreason hbound htimely
    refine ⟨evidence, hevidence, hverifies.mono ?_ fun _ _ _ _ hdigest => hdigest⟩
    rintro column hcolumn text rfl -
    simpa [nonblank] using hvisible _ hcolumn

theorem readings_agree_iff :
    (tables.SqlVerified attempt ↔ isEmployerVerified (some (tables.load attempt)) = true) ↔
      tables.TextsVisible attempt := by
  rw [sqlVerified_iff_evidenced hadmitted hattempt,
    isEmployerVerified_iff_evidenced hadmitted hattempt, TextsVisible]
  tauto

end Admitted

section Latest

/-- No attempt of the same application has a greater number. -/
def IsLatest (tables : Tables) (attempt : SubmissionRecord) : Prop :=
  ∀ other ∈ tables.submissions, other.applicationId = attempt.applicationId →
    other.attemptNumber ≤ attempt.attemptNumber

theorem mem_latestAttempts (hattempt : attempt ∈ tables.submissions) :
    (attempt.applicationId, attempt.attemptNumber) ∈ tables.latestAttempts ↔
      tables.IsLatest attempt := by
  simp only [latestAttempts, List.mem_filterMap, List.mem_dedup, List.mem_map,
    Option.map_eq_some_iff, Prod.mk.injEq]
  constructor
  · rintro ⟨_, _, number, hnumber, rfl, rfl⟩ other hother hsame
    apply (List.max?_eq_some_iff.mp hnumber).2
    simp only [List.mem_map, List.mem_filter, decide_eq_true_eq]
    exact ⟨other, ⟨hother, hsame⟩, rfl⟩
  · intro hlatest
    refine ⟨attempt.applicationId, ⟨attempt, hattempt, rfl⟩, attempt.attemptNumber, ?_, rfl, rfl⟩
    apply List.max?_eq_some_iff.mpr
    simp only [List.mem_map, List.mem_filter, decide_eq_true_eq]
    refine ⟨⟨attempt, ⟨hattempt, rfl⟩, rfl⟩, ?_⟩
    rintro _ ⟨other, ⟨hother, hsame⟩, rfl⟩
    exact hlatest other hother hsame

theorem mem_latestEmployerVerifiedQuery :
    attempt ∈ tables.latestEmployerVerifiedQuery ↔
      attempt ∈ tables.submissions ∧ tables.IsLatest attempt ∧ tables.SqlVerified attempt := by
  simp only [latestEmployerVerifiedQuery, List.mem_dedup, List.mem_flatMap, List.mem_map,
    List.mem_filter, decide_eq_true_eq, Bool.and_eq_true]
  constructor
  · rintro ⟨_, hattempt, ⟨_, _⟩, ⟨hlatest, rfl, rfl⟩, evidence, ⟨hevidence, _, hkeeps⟩, rfl⟩
    exact ⟨hattempt, (mem_latestAttempts hattempt).mp hlatest, evidence, hevidence, hkeeps⟩
  · rintro ⟨hattempt, hlatest, evidence, hevidence, hkeeps⟩
    have hbound := (employerVerifiedSqlConditions_keeps.mp hkeeps).bound
    simp only [EvidenceLike.bound, Bool.and_eq_true, decide_eq_true_eq] at hbound
    exact ⟨attempt, hattempt, _, ⟨(mem_latestAttempts hattempt).mpr hlatest, rfl, rfl⟩, evidence,
      ⟨hevidence, hbound.1.1.1.1, hkeeps⟩, rfl⟩

variable (hadmitted : tables.Admitted)

include hadmitted

theorem eq_of_isLatest (hattempt : attempt ∈ tables.submissions)
    (hother : other ∈ tables.submissions) (hsame : attempt.applicationId = other.applicationId)
    (hlatest : tables.IsLatest attempt) (hotherLatest : tables.IsLatest other) :
    attempt = other := by
  have hnumbers : attempt.attemptNumber = other.attemptNumber := by
    have hle := hlatest other hother hsame.symm
    have hge := hotherLatest attempt hattempt hsame
    omega
  exact List.inj_on_of_nodup_map hadmitted.attemptNumbers hattempt hother
    (Prod.ext hsame hnumbers)

theorem latestAttempt_eq_some_iff :
    tables.latestAttempt application = some attempt ↔
      attempt ∈ tables.submissions ∧ attempt.applicationId = application ∧
        tables.IsLatest attempt := by
  have hfound : ∀ {found : SubmissionRecord}, tables.latestAttempt application = some found →
      found ∈ tables.submissions ∧ found.applicationId = application ∧
        tables.IsLatest found := by
    intro found hfind
    have htest := List.find?_some hfind
    simp only [Bool.and_eq_true, decide_eq_true_eq, List.all_eq_true] at htest
    refine ⟨List.mem_of_find?_eq_some hfind, htest.1, ?_⟩
    intro other hother hsame
    exact htest.2 other hother (hsame.trans htest.1)
  refine ⟨hfound, ?_⟩
  rintro ⟨hattempt, rfl, hlatest⟩
  cases hfind : tables.latestAttempt attempt.applicationId with
  | none =>
    have htest := List.find?_eq_none.mp hfind attempt hattempt
    simp only [decide_true, Bool.true_and, List.all_eq_true, decide_eq_true_eq] at htest
    exact absurd hlatest htest
  | some found =>
    obtain ⟨hmem, hsame, hfoundLatest⟩ := hfound hfind
    rw [eq_of_isLatest hadmitted hmem hattempt hsame hfoundLatest hlatest]

open Classical in
/-- The query counts the applications whose highest-numbered attempt satisfies the
SQL conditions. -/
theorem latestEmployerVerifiedCount_eq :
    tables.latestEmployerVerifiedCount = tables.applications.countP fun application =>
      decide (∃ attempt, tables.latestAttempt application = some attempt ∧
        tables.SqlVerified attempt) := by
  have hquery : (tables.latestEmployerVerifiedQuery.map
      fun attempt => attempt.applicationId).Nodup := by
    apply List.Nodup.map_on _ (List.nodup_dedup _)
    intro first hfirst second hsecond hsame
    obtain ⟨hmem, hlatest, _⟩ := mem_latestEmployerVerifiedQuery.mp hfirst
    obtain ⟨hmem', hlatest', _⟩ := mem_latestEmployerVerifiedQuery.mp hsecond
    exact eq_of_isLatest hadmitted hmem hmem' hsame hlatest hlatest'
  have hperm : (tables.latestEmployerVerifiedQuery.map fun attempt => attempt.applicationId).Perm
      (tables.applications.filter fun application =>
        decide (∃ attempt, tables.latestAttempt application = some attempt ∧
          tables.SqlVerified attempt)) := by
    apply (List.perm_ext_iff_of_nodup hquery (hadmitted.applicationIds.filter _)).mpr
    intro application
    simp only [List.mem_map, mem_latestEmployerVerifiedQuery, List.mem_filter,
      decide_eq_true_eq, latestAttempt_eq_some_iff hadmitted]
    constructor
    · rintro ⟨attempt, ⟨hattempt, hlatest, hverified⟩, rfl⟩
      exact ⟨hadmitted.application attempt hattempt, attempt, ⟨hattempt, rfl, hlatest⟩, hverified⟩
    · rintro ⟨_, attempt, ⟨hattempt, hsame, hlatest⟩, hverified⟩
      exact ⟨attempt, ⟨hattempt, hlatest, hverified⟩, hsame⟩
  calc tables.latestEmployerVerifiedCount
      = (tables.latestEmployerVerifiedQuery.map fun attempt => attempt.applicationId).length := by
        rw [List.length_map, latestEmployerVerifiedCount]
    _ = _ := by rw [hperm.length_eq, List.countP_eq_length_filter]

/-- The reader of loaded attempts counts no application that the query misses. -/
theorem count_eq_iff :
    tables.latestEmployerVerifiedCount = tables.verifiedApplications ↔
      ∀ application ∈ tables.applications, ∀ attempt,
        tables.latestAttempt application = some attempt → tables.TextsVisible attempt := by
  classical
  rw [latestEmployerVerifiedCount_eq hadmitted, verifiedApplications, eq_comm,
    countP_eq_countP_iff]
  · apply forall₂_congr
    intro application _
    cases hlatest : tables.latestAttempt application with
    | none => simp [isEmployerVerified]
    | some attempt =>
      have hattempt := ((latestAttempt_eq_some_iff hadmitted).mp hlatest).1
      have hagree := readings_agree_iff hadmitted hattempt
      have hreader := isEmployerVerified_iff_evidenced hadmitted hattempt
      have hquery := sqlVerified_iff_evidenced hadmitted hattempt
      simp only [Option.some.injEq, exists_eq_left', decide_eq_true_eq, Option.map_some,
        forall_eq', ← hagree]
      rw [hquery, hreader]
      tauto
  · intro application _ hverified
    cases hlatest : tables.latestAttempt application with
    | none => simp [hlatest, isEmployerVerified] at hverified
    | some attempt =>
      have hattempt := ((latestAttempt_eq_some_iff hadmitted).mp hlatest).1
      rw [hlatest, Option.map_some,
        isEmployerVerified_iff_evidenced hadmitted hattempt] at hverified
      simpa using (sqlVerified_iff_evidenced hadmitted hattempt).mpr hverified.1

end Latest

end Tables

/-- The two readings agree on an attempt exactly when its texts are visible, and
the query counts the verified applications exactly when those of their latest
attempts are. -/
theorem sql_predicate_agrees (tables : Tables) (hadmitted : tables.Admitted) :
    (∀ attempt ∈ tables.submissions,
      ((tables.SqlVerified attempt ↔
          isEmployerVerified (some (tables.load attempt)) = true) ↔
        tables.TextsVisible attempt)) ∧
      (tables.latestEmployerVerifiedCount = tables.verifiedApplications ↔
        ∀ application ∈ tables.applications, ∀ attempt,
          tables.latestAttempt application = some attempt → tables.TextsVisible attempt) :=
  ⟨fun _ hattempt => Tables.readings_agree_iff hadmitted hattempt,
    Tables.count_eq_iff hadmitted⟩

def sampleDigest : String := String.ofList (List.replicate 64 'a')

/-- A confirmed attempt whose runner release is a tab. -/
def tabbedAttempt : SubmissionRecord where
  id := 1
  status := .success
  stage := .finished
  outcome := some .confirmedSubmitted
  reasonCode := some "EMPLOYER_VERIFIED"
  submittedAt := some (2 * second)
  finalActionAt := some second
  attachmentVerified := true
  formPlanId := some 1
  adapterName := some "greenhouse"
  adapterVersion := some "1"
  selectorVersion := some "1"
  profileVersion := some 1
  runnerRelease := some "\t"
  formPlanFingerprint := some sampleDigest
  requestedCvId := some "cv"
  requestedCvHash := some sampleDigest
  attachedCvId := some "cv"
  attachedCvHash := some sampleDigest
  verificationKind := some "api_receipt"
  evidenceDigest := some sampleDigest
  applicationId := 1
  attemptNumber := 1
  applicationRevision := 1

def receiptEvidence : EvidenceRecord where
  attemptId := 1
  evidenceType := "api_receipt"
  evidenceDigest := sampleDigest
  formFingerprint := sampleDigest
  cvHash := sampleDigest
  observedAt := 2 * second
  employerApplicationRef := none
  receiptRef := some "receipt"
  portalRecordRef := none

def tabbedTables : Tables where
  applications := [1]
  formPlans := tabbedAttempt.formPlanKey.toList
  submissions := [tabbedAttempt]
  evidence := [receiptEvidence]

theorem tabbedTables_admitted : tabbedTables.Admitted where
  applicationIds := by decide
  submissionIds := by decide
  attemptNumbers := by decide
  digestNumbers := by decide
  application := by decide
  attempt := by decide
  submissionChecks := by decide
  evidenceChecks := by decide
  exactFormPlan := by simp [tabbedTables]
  confirmedEvidence := by
    intro attempt hattempt key hkey
    rw [List.mem_singleton.mp hattempt] at hkey
    exact ⟨receiptEvidence, List.mem_singleton_self _, Option.some.inj hkey⟩

theorem tabbed_sqlVerified : tabbedTables.SqlVerified tabbedAttempt :=
  ⟨receiptEvidence, List.mem_singleton_self _, by decide⟩

theorem tabbed_not_verified :
    isEmployerVerified (some (tabbedTables.load tabbedAttempt)) = false := by
  decide

theorem sql_predicate_agrees_sample :
    tabbedTables.latestEmployerVerifiedCount = 1 ∧ tabbedTables.verifiedApplications = 0 ∧
      ¬tabbedTables.TextsVisible tabbedAttempt := by
  refine ⟨by decide +kernel, by decide, ?_⟩
  have hagree := (sql_predicate_agrees tabbedTables tabbedTables_admitted).1 tabbedAttempt
    (List.mem_singleton_self _)
  rw [← hagree, tabbed_not_verified]
  simp [tabbed_sqlVerified]

/-- A tab is a text to SQL and blank to Python. -/
theorem sql_predicate_accepts_tab :
    ¬∀ tables : Tables, tables.Admitted →
      (∀ attempt ∈ tables.submissions, tables.SqlVerified attempt ↔
        isEmployerVerified (some (tables.load attempt)) = true) ∧
      tables.latestEmployerVerifiedCount = tables.verifiedApplications := by
  intro hclaim
  have hagree := (hclaim tabbedTables tabbedTables_admitted).1 tabbedAttempt
    (List.mem_singleton_self _)
  rw [tabbed_not_verified] at hagree
  exact absurd (hagree.mp tabbed_sqlVerified) Bool.false_ne_true

end JobApplyAgent.Truth
