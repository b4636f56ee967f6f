import JobApplyAgent.Library.SqlBool
import JobApplyAgent.Truth.EmployerVerified

/-!
# Employer verification in SQL

The same predicate as a conjunction of conditions on the joined rows of an
attempt and one evidence row, and the table constraints that it rests on.
-/

namespace JobApplyAgent.Truth

open Domain Library

/-- A row of `submissions`. -/
structure SubmissionRecord extends SubmissionColumns where
  applicationId : ℕ
  attemptNumber : ℤ
  applicationRevision : ℤ
  deriving DecidableEq

/-- A row of `submission_evidence`. -/
structure EvidenceRecord extends EvidenceLike where
  employerApplicationRef : Option String
  receiptRef : Option String
  portalRecordRef : Option String

section Conditions

open SqlBool

/-- `length(trim(column)) > 0`. -/
def trimmedNonempty (column : Option String) : SqlBool :=
  column.map fun text => decide (0 < (trim text).length)

/-- `length(column) = length`. -/
def hasLength (length : ℕ) (column : Option String) : SqlBool :=
  column.map fun text => decide (text.length = length)

def atMostLength (length : ℕ) (column : Option String) : SqlBool :=
  column.map fun text => decide (text.length ≤ length)

/-- `left >= right` on instants. -/
def notBefore (left right : Option Timestamp) : SqlBool :=
  compare (fun x y => decide (y ≤ x)) left right

/-- A lowercase SHA-256 text: erasing the sixteen digits leaves nothing. -/
def sha256CheckSql (column : Option String) : SqlBool :=
  (hasLength 64 column).and (column.map fun text =>
    decide (hexDigits.foldl (fun rest digit => eraseChar digit rest) text.toList = []))

def employerVerifiedSqlConditions (evidence : EvidenceRecord) (attempt : SubmissionRecord) :
    List SqlBool :=
  [eq (some evidence.attemptId) (some attempt.id),
    eq (some evidence.evidenceType) attempt.verificationKind,
    eq (some evidence.evidenceDigest) attempt.evidenceDigest,
    eq (some evidence.formFingerprint) attempt.formPlanFingerprint,
    eq (some evidence.cvHash) attempt.attachedCvHash,
    eq (some attempt.stage) (some .finished),
    eq attempt.outcome (some .confirmedSubmitted),
    eq (some attempt.status) (some .success),
    isNotNull attempt.submittedAt,
    isNotNull attempt.finalActionAt,
    notBefore attempt.submittedAt attempt.finalActionAt,
    notBefore (some evidence.observedAt) attempt.finalActionAt,
    notBefore (attempt.submittedAt.map (· + 5 * second)) (some evidence.observedAt),
    eq (some attempt.attachmentVerified) (some true),
    isNotNull attempt.formPlanId,
    isNotNull attempt.adapterName,
    trimmedNonempty attempt.adapterName,
    isNotNull attempt.adapterVersion,
    trimmedNonempty attempt.adapterVersion,
    isNotNull attempt.selectorVersion,
    trimmedNonempty attempt.selectorVersion,
    isNotNull attempt.profileVersion,
    attempt.profileVersion.map fun version => decide (0 < version),
    isNotNull attempt.runnerRelease,
    trimmedNonempty attempt.runnerRelease,
    atMostLength 64 attempt.runnerRelease,
    isIn employerVerifiedReasonCodes attempt.reasonCode,
    isIn employerEvidenceTypes attempt.verificationKind,
    isNotNull attempt.evidenceDigest,
    hasLength 64 attempt.evidenceDigest,
    isNotNull attempt.formPlanFingerprint,
    hasLength 64 attempt.formPlanFingerprint,
    isNotNull attempt.requestedCvId,
    trimmedNonempty attempt.requestedCvId,
    eq attempt.requestedCvId attempt.attachedCvId,
    isNotNull attempt.requestedCvHash,
    hasLength 64 attempt.requestedCvHash,
    isNotNull attempt.attachedCvHash,
    hasLength 64 attempt.attachedCvHash,
    eq attempt.requestedCvHash attempt.attachedCvHash]

/-! ### Table constraints -/

/-- `ck_submissions_stage_outcome_consistent`. -/
def stageOutcomeConsistent (attempt : SubmissionRecord) : SqlBool :=
  ((eq (some attempt.stage) (some .finished)).and (isNotNull attempt.outcome)).or
    ((ne (some attempt.stage) (some .finished)).and (isNull attempt.outcome))

/-- `ck_submissions_success_outcome`. -/
def successOutcome (attempt : SubmissionRecord) : SqlBool :=
  (ne (some attempt.status) (some .success)).or
    ((eq (some attempt.stage) (some .finished)).and
      (isIn [.confirmedSubmitted, .legacyUnverified] attempt.outcome))

/-- `ck_submissions_submitted_at_verified`. -/
def submittedAtVerified (attempt : SubmissionRecord) : SqlBool :=
  (isNull attempt.submittedAt).or
    (all [eq (some attempt.stage) (some .finished),
      eq attempt.outcome (some .confirmedSubmitted),
      eq (some attempt.status) (some .success)])

/-- `ck_submissions_confirmed_evidence`. -/
def confirmedEvidence (attempt : SubmissionRecord) : SqlBool :=
  (ne attempt.outcome (some .confirmedSubmitted)).or
    (all [eq (some attempt.status) (some .success),
      isNotNull attempt.submittedAt,
      isNotNull attempt.finalActionAt,
      notBefore attempt.submittedAt attempt.finalActionAt,
      isNotNull attempt.formPlanId,
      isNotNull attempt.adapterName,
      trimmedNonempty attempt.adapterName,
      isNotNull attempt.adapterVersion,
      trimmedNonempty attempt.adapterVersion,
      isNotNull attempt.selectorVersion,
      trimmedNonempty attempt.selectorVersion,
      isNotNull attempt.profileVersion,
      attempt.profileVersion.map fun version => decide (0 < version),
      isNotNull attempt.runnerRelease,
      trimmedNonempty attempt.runnerRelease,
      atMostLength 64 attempt.runnerRelease,
      isNotNull attempt.requestedCvId,
      trimmedNonempty attempt.requestedCvId,
      isNotNull attempt.attachedCvId,
      trimmedNonempty attempt.attachedCvId,
      eq attempt.requestedCvId attempt.attachedCvId,
      isNotNull attempt.requestedCvHash,
      eq (some attempt.attachmentVerified) (some true),
      isNotNull attempt.attachedCvHash,
      eq attempt.requestedCvHash attempt.attachedCvHash,
      sha256CheckSql attempt.attachedCvHash,
      isNotNull attempt.formPlanFingerprint,
      sha256CheckSql attempt.formPlanFingerprint,
      isNotNull attempt.verificationKind,
      isIn employerEvidenceTypes attempt.verificationKind,
      isNotNull attempt.evidenceDigest,
      sha256CheckSql attempt.evidenceDigest])

/-- `ck_submission_evidence_digests` and `ck_submission_evidence_type`. -/
def evidenceDigests (evidence : EvidenceRecord) : SqlBool :=
  all [isIn employerEvidenceTypes (some evidence.evidenceType),
    sha256CheckSql (some evidence.evidenceDigest),
    sha256CheckSql (some evidence.formFingerprint),
    sha256CheckSql (some evidence.cvHash)]

/-- `ck_submission_evidence_typed_reference`. -/
def typedReference (evidence : EvidenceRecord) : SqlBool :=
  let ofType := fun kind => eq (some evidence.evidenceType) (some (evidenceTypeValue kind))
  let present := fun column : Option String =>
    (isNotNull column).and (trimmedNonempty column)
  ((all [ofType .employerApplicationId, present evidence.employerApplicationRef,
      isNull evidence.receiptRef, isNull evidence.portalRecordRef]).or
    (all [ofType .apiReceipt, present evidence.receiptRef,
      isNull evidence.employerApplicationRef, isNull evidence.portalRecordRef])).or
  ((all [ofType .candidatePortalRecord, present evidence.portalRecordRef,
      isNull evidence.employerApplicationRef, isNull evidence.receiptRef]).or
    (all [ofType .visiblePostClickConfirmation, isNull evidence.employerApplicationRef,
      isNull evidence.receiptRef, isNull evidence.portalRecordRef]))

end Conditions

section Readings

open SqlBool

variable {evidence : EvidenceRecord}

theorem trimmedNonempty_keeps :
    (trimmedNonempty column).Keeps ↔ ∃ text, column = some text ∧ trim text ≠ [] := by
  cases column <;> simp [trimmedNonempty, Keeps, List.length_pos_iff]

variable {text : String}

theorem hasLength_keeps :
    (hasLength length column).Keeps ↔ ∃ text, column = some text ∧ text.length = length := by
  cases column <;> simp [hasLength, Keeps]

theorem atMostLength_keeps :
    (atMostLength length column).Keeps ↔ ∃ text, column = some text ∧ text.length ≤ length := by
  cases column <;> simp [atMostLength, Keeps]

theorem notBefore_keeps :
    (notBefore left right).Keeps ↔ ∃ x y, left = some x ∧ right = some y ∧ y ≤ x := by
  simp [notBefore]

theorem positive_keeps {version : Option ℤ} :
    SqlBool.Keeps (version.map fun version => decide (0 < version)) ↔
      ∃ number, version = some number ∧ 1 ≤ number := by
  cases version with
  | none => simp [Keeps]
  | some number =>
    simp only [Keeps, Option.map_some, Option.some.injEq, decide_eq_true_eq, exists_eq_left']
    omega

theorem employerVerifiedSqlConditions_keeps :
    (all (employerVerifiedSqlConditions evidence attempt)).Keeps ↔
      Verifies (fun text => trim text ≠ []) (fun text => text.length = 64)
        evidence.toEvidenceLike attempt.toSubmissionColumns := by
  simp only [all_keeps, employerVerifiedSqlConditions, List.forall_mem_cons, eq_keeps_some,
    eq_some_keeps, isNotNull_keeps, notBefore_keeps, trimmedNonempty_keeps, hasLength_keeps,
    atMostLength_keeps, positive_keeps, isIn_keeps]
  simp only [eq_keeps]
  constructor
  · rintro ⟨hattempt, htype, hdigest, hform, hcvHash, hstage, houtcome, hstatus, -, -,
      ⟨submitted, acted, hsubmitted, hacted, horder⟩, ⟨observed, _, hobserved, hacted', hafter⟩,
      ⟨latest, observed', hlatest, hobserved', hbefore⟩, hattachment, hplan, -, hadapter, -,
      hversion, -, hselector, -, hprofile, -, hrelease, hlength, hreason, hkind, -, hdigest64,
      -, hform64, -, hcvId, hsameId, -, hhash64, -, -, hsameHash, -⟩
    cases hobserved
    cases hobserved'
    obtain rfl := Option.some.inj (hacted.symm.trans hacted')
    rw [hsubmitted, Option.map_some] at hlatest
    cases hlatest
    obtain ⟨cvId, hrequestedId, hattachedId⟩ := hsameId
    obtain ⟨cvHash, hrequestedHash, hattachedHash⟩ := hsameHash
    constructor
    · simp_all [EvidenceLike.bound]
    · exact ⟨submitted, acted, hsubmitted, hacted, horder, hafter, hbefore⟩
    · exact Option.some.inj hstage
    · exact houtcome
    · exact Option.some.inj hstatus
    · exact Option.some.inj hattachment
    · exact hplan
    · simp [SubmissionColumns.texts, hadapter, hversion, hselector, hrelease, hcvId]
    · simp [SubmissionColumns.digests, hdigest64, hform64, hhash64]
    · exact hlength
    · exact hprofile
    · exact hreason
    · exact hkind
    · rw [hrequestedId, hattachedId]
    · rw [hrequestedHash, hattachedHash]
  · intro hverifies
    obtain ⟨submitted, acted, hsubmitted, hacted, horder, hafter, hbefore⟩ := hverifies.timely
    have hbound := hverifies.bound
    have htexts := hverifies.texts
    have hdigests := hverifies.digests
    simp only [EvidenceLike.bound, Bool.and_eq_true, decide_eq_true_eq] at hbound
    simp only [SubmissionColumns.texts, SubmissionColumns.digests, List.forall_mem_cons]
      at htexts hdigests
    obtain ⟨⟨⟨⟨hattempt, htype⟩, hdigest⟩, hform⟩, hcvHash⟩ := hbound
    obtain ⟨hadapter, hversion, hselector, hrelease, ⟨cvId, hcvId, hink⟩, -⟩ := htexts
    obtain ⟨hdigest64, hform64, ⟨cvHash, hhash, h64⟩, -⟩ := hdigests
    have hattachedId : attempt.attachedCvId = some cvId := hverifies.cvId ▸ hcvId
    have hattachedHash : attempt.attachedCvHash = some cvHash := hverifies.cvHash ▸ hhash
    have hpresent : ∀ {column : Option String} {reads : String → Prop},
        (∃ text, column = some text ∧ reads text) → column.isSome = true := by
      rintro _ _ ⟨text, rfl, _⟩
      rfl
    refine ⟨by rw [hattempt], htype.symm, hdigest.symm, hform.symm, hcvHash.symm, by
      rw [hverifies.stage], hverifies.outcome, by rw [hverifies.status], by rw [hsubmitted]; rfl,
      by rw [hacted]; rfl, ⟨submitted, acted, hsubmitted, hacted, horder⟩,
      ⟨_, acted, rfl, hacted, hafter⟩, ⟨_, _, by rw [hsubmitted]; rfl, rfl, hbefore⟩, by
      rw [hverifies.attachment], hverifies.plan, hpresent hadapter, hadapter,
      hpresent hversion, hversion, hpresent hselector, hselector, ?_, hverifies.profile,
      hpresent hrelease, hrelease, hverifies.release, hverifies.reason, hverifies.kind,
      hpresent hdigest64, hdigest64, hpresent hform64, hform64, ?_, ⟨cvId, hcvId, hink⟩,
      ⟨cvId, hcvId, hattachedId⟩, ?_, ⟨cvHash, hhash, h64⟩, ?_, ⟨cvHash, hattachedHash, h64⟩,
      ⟨cvHash, hhash, hattachedHash⟩, by simp⟩
    · obtain ⟨number, hnumber, _⟩ := hverifies.profile
      simp [hnumber]
    · simp [hcvId]
    · simp [hhash]
    · simp [hattachedHash]
theorem sha256CheckSql_accepts_some :
    (sha256CheckSql (some text)).Accepts ↔ sha256 (some text) = true := by
  rw [sha256CheckSql, and_accepts]
  simp [hasLength, sha256, Accepts, foldl_eraseChar, List.filter_eq_nil_iff]

theorem trimmedNonempty_accepts_some :
    (trimmedNonempty (some text)).Accepts ↔ trim text ≠ [] := by
  simp [trimmedNonempty, Accepts, List.length_pos_iff]

/-- What the constraints say of a confirmed attempt with a bound and timely row. -/
theorem verifies_of_constraints (hconsistent : (stageOutcomeConsistent attempt).Accepts)
    (hconfirmed : (confirmedEvidence attempt).Accepts)
    (houtcome : attempt.outcome = some .confirmedSubmitted)
    (hreason : ∃ reason ∈ employerVerifiedReasonCodes, attempt.reasonCode = some reason)
    (hbound : evidence.bound attempt.toSubmissionColumns = true)
    (htimely : evidence.Timely attempt.toSubmissionColumns) :
    Verifies (fun text => trim text ≠ []) (fun text => sha256 (some text) = true)
      evidence.toEvidenceLike attempt.toSubmissionColumns := by
  have hstage : attempt.stage = .finished := by
    rw [stageOutcomeConsistent, or_accepts, and_accepts, and_accepts, eq_accepts_some,
      houtcome] at hconsistent
    rcases hconsistent with ⟨hfinished, _⟩ | ⟨_, hnull⟩
    · exact hfinished
    · exact absurd rfl hnull
  rw [confirmedEvidence, houtcome, or_accepts, all_accepts] at hconfirmed
  have hchecks := hconfirmed.resolve_left ne_accepts_self
  simp only [List.forall_mem_cons, eq_accepts_some, isNotNull_accepts] at hchecks
  obtain ⟨hstatus, -, -, -, hplan, ⟨adapter, hadapter⟩, hadapterText, ⟨version, hversion⟩,
    hversionText, ⟨selector, hselector⟩, hselectorText, ⟨profile, hprofile⟩, hpositive,
    ⟨release, hrelease⟩, hreleaseText, hlength, ⟨cvId, hcvId⟩, hcvIdText, ⟨attachedId,
    hattachedId⟩, -, hsameId, ⟨cvHash, hcvHash⟩, hattachment, ⟨attachedHash, hattachedHash⟩,
    hsameHash, hhash, ⟨form, hform⟩, hformHash, ⟨kind, hkind⟩, hkindIn, ⟨digest, hdigest⟩,
    hdigestHash, -⟩ := hchecks
  rw [hadapter, trimmedNonempty_accepts_some] at hadapterText
  rw [hversion, trimmedNonempty_accepts_some] at hversionText
  rw [hselector, trimmedNonempty_accepts_some] at hselectorText
  rw [hrelease, trimmedNonempty_accepts_some] at hreleaseText
  rw [hcvId, trimmedNonempty_accepts_some] at hcvIdText
  rw [hcvId, hattachedId, eq_accepts_some] at hsameId
  rw [hcvHash, hattachedHash, eq_accepts_some] at hsameHash
  rw [hattachedHash, sha256CheckSql_accepts_some] at hhash
  rw [hform, sha256CheckSql_accepts_some] at hformHash
  rw [hdigest, sha256CheckSql_accepts_some] at hdigestHash
  rw [hkind, isIn_accepts_some] at hkindIn
  constructor
  · exact hbound
  · exact htimely
  · exact hstage
  · exact houtcome
  · exact hstatus
  · exact hattachment
  · simpa [Option.isSome_iff_exists] using hplan
  · simp [SubmissionColumns.texts, hadapter, hadapterText, hversion, hversionText, hselector,
      hselectorText, hrelease, hreleaseText, hcvId, hcvIdText]
  · simp [SubmissionColumns.digests, hdigest, hdigestHash, hform, hformHash, hcvHash, hsameHash,
      hhash]
  · exact ⟨release, hrelease, by simpa [hrelease, atMostLength, Accepts] using hlength⟩
  · have hsigned : 0 < profile := by simpa [hprofile, Accepts] using hpositive
    exact ⟨profile, hprofile, by omega⟩
  · exact hreason
  · exact ⟨kind, hkindIn, hkind⟩
  · rw [hcvId, hattachedId, hsameId]
  · rw [hcvHash, hattachedHash, hsameHash]

end Readings

end JobApplyAgent.Truth
