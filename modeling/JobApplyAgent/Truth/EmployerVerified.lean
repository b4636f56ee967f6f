import JobApplyAgent.Domain.Contracts
import JobApplyAgent.Library.Text

/-!
# Employer verification

The columns of an attempt and of its evidence that employer truth reads, and
the predicate over a loaded attempt.
-/

namespace JobApplyAgent.Truth

open Domain Library

def employerVerifiedReasonCodes : List String :=
  ["EMPLOYER_VERIFIED", "ATS_CONFIRMATION_VERIFIED", "PROVIDER_RECEIPT_VERIFIED"]

def evidenceTypeValue : EvidenceType → String
  | .employerApplicationId => "employer_application_id"
  | .apiReceipt => "api_receipt"
  | .candidatePortalRecord => "candidate_portal_record"
  | .visiblePostClickConfirmation => "visible_post_click_confirmation"

def employerEvidenceTypes : List String :=
  [EvidenceType.employerApplicationId, .apiReceipt, .candidatePortalRecord,
    .visiblePostClickConfirmation].map evidenceTypeValue

structure EvidenceLike where
  attemptId : ℕ
  evidenceType : String
  evidenceDigest : String
  formFingerprint : String
  cvHash : String
  observedAt : Timestamp

/-- The columns of an attempt that employer truth reads. -/
structure SubmissionColumns where
  id : ℕ
  status : SubmissionStatus
  stage : AttemptStage
  outcome : Option AttemptOutcome
  reasonCode : Option String
  submittedAt : Option Timestamp
  finalActionAt : Option Timestamp
  attachmentVerified : Bool
  formPlanId : Option ℕ
  adapterName : Option String
  adapterVersion : Option String
  selectorVersion : Option String
  profileVersion : Option ℤ
  runnerRelease : Option String
  formPlanFingerprint : Option String
  requestedCvId : Option String
  requestedCvHash : Option String
  attachedCvId : Option String
  attachedCvHash : Option String
  verificationKind : Option String
  evidenceDigest : Option String
  deriving DecidableEq

/-- A loaded attempt with its evidence. -/
structure SubmissionLike extends SubmissionColumns where
  evidence : List EvidenceLike

def nonblank (value : Option String) : Bool :=
  value.any hasInk

def hexDigits : List Char :=
  "0123456789abcdef".toList

def sha256 (value : Option String) : Bool :=
  value.any fun text => text.length == 64 && text.toList.all hexDigits.contains

def latestAllowedDelay : Timestamp := 5 * second

/-- The evidence row is bound to this attempt, its form and its CV. -/
def EvidenceLike.bound (row : EvidenceLike) (attempt : SubmissionColumns) : Bool :=
  decide (row.attemptId = attempt.id)
    && decide (some row.evidenceType = attempt.verificationKind)
    && decide (some row.evidenceDigest = attempt.evidenceDigest)
    && decide (some row.formFingerprint = attempt.formPlanFingerprint)
    && decide (some row.cvHash = attempt.attachedCvHash)

/-- True only for a typed evidence row bound to this exact attempt and CV. -/
def isEmployerVerified : Option SubmissionLike → Bool
  | none => false
  | some attempt =>
    match attempt.submittedAt, attempt.finalActionAt with
    | some submittedAt, some finalActionAt =>
      decide (attempt.stage = .finished)
        && decide (attempt.outcome = some .confirmedSubmitted)
        && decide (attempt.status = .success)
        && decide (finalActionAt ≤ submittedAt)
        && attempt.attachmentVerified
        && attempt.formPlanId.isSome
        && nonblank attempt.adapterName
        && nonblank attempt.adapterVersion
        && nonblank attempt.selectorVersion
        && attempt.profileVersion.any (fun version => decide (1 ≤ version))
        && nonblank attempt.runnerRelease
        && attempt.runnerRelease.any (fun release => decide (release.length ≤ 64))
        && attempt.reasonCode.any employerVerifiedReasonCodes.contains
        && attempt.verificationKind.any employerEvidenceTypes.contains
        && sha256 attempt.evidenceDigest
        && sha256 attempt.formPlanFingerprint
        && nonblank attempt.requestedCvId
        && decide (attempt.requestedCvId = attempt.attachedCvId)
        && sha256 attempt.requestedCvHash
        && decide (attempt.requestedCvHash = attempt.attachedCvHash)
        && attempt.evidence.any fun row =>
            row.bound attempt.toSubmissionColumns
              && decide (finalActionAt ≤ row.observedAt)
              && decide (row.observedAt ≤ submittedAt + latestAllowedDelay)
    | _, _ => false

/-- The texts that must not be blank. -/
def SubmissionColumns.texts (attempt : SubmissionColumns) : List (Option String) :=
  [attempt.adapterName, attempt.adapterVersion, attempt.selectorVersion,
    attempt.runnerRelease, attempt.requestedCvId]

def SubmissionColumns.digests (attempt : SubmissionColumns) : List (Option String) :=
  [attempt.evidenceDigest, attempt.formPlanFingerprint, attempt.requestedCvHash]

/-- The observation falls between the final action and five seconds after the
submission. -/
def EvidenceLike.Timely (row : EvidenceLike) (attempt : SubmissionColumns) : Prop :=
  ∃ submitted acted, attempt.submittedAt = some submitted ∧
    attempt.finalActionAt = some acted ∧ acted ≤ submitted ∧
    acted ≤ row.observedAt ∧ row.observedAt ≤ submitted + 5 * second

/-- The evidence verifies the attempt, for a notion of a text and of a digest. -/
structure Verifies (isText isDigest : String → Prop) (row : EvidenceLike)
    (attempt : SubmissionColumns) : Prop where
  bound : row.bound attempt = true
  timely : row.Timely attempt
  stage : attempt.stage = .finished
  outcome : attempt.outcome = some .confirmedSubmitted
  status : attempt.status = .success
  attachment : attempt.attachmentVerified = true
  plan : attempt.formPlanId.isSome = true
  texts : ∀ column ∈ attempt.texts, ∃ text, column = some text ∧ isText text
  digests : ∀ column ∈ attempt.digests, ∃ text, column = some text ∧ isDigest text
  release : ∃ release, attempt.runnerRelease = some release ∧ release.length ≤ 64
  profile : ∃ version, attempt.profileVersion = some version ∧ 1 ≤ version
  reason : ∃ reason ∈ employerVerifiedReasonCodes, attempt.reasonCode = some reason
  kind : ∃ kind ∈ employerEvidenceTypes, attempt.verificationKind = some kind
  cvId : attempt.requestedCvId = attempt.attachedCvId
  cvHash : attempt.requestedCvHash = attempt.attachedCvHash

theorem Verifies.mono (hverifies : Verifies isText isDigest row attempt)
    (htexts : ∀ column ∈ attempt.texts, ∀ text, column = some text → isText text →
      isText' text)
    (hdigests : ∀ column ∈ attempt.digests, ∀ text, column = some text → isDigest text →
      isDigest' text) : Verifies isText' isDigest' row attempt where
  bound := hverifies.bound
  timely := hverifies.timely
  stage := hverifies.stage
  outcome := hverifies.outcome
  status := hverifies.status
  attachment := hverifies.attachment
  plan := hverifies.plan
  texts := fun column hcolumn => by
    obtain ⟨text, htext, hread⟩ := hverifies.texts column hcolumn
    exact ⟨text, htext, htexts column hcolumn text htext hread⟩
  digests := fun column hcolumn => by
    obtain ⟨text, htext, hread⟩ := hverifies.digests column hcolumn
    exact ⟨text, htext, hdigests column hcolumn text htext hread⟩
  release := hverifies.release
  profile := hverifies.profile
  reason := hverifies.reason
  kind := hverifies.kind
  cvId := hverifies.cvId
  cvHash := hverifies.cvHash

theorem nonblank_iff :
    nonblank value = true ↔ ∃ text, value = some text ∧ hasInk text = true := by
  cases value <;> simp [nonblank]

theorem sha256_iff :
    sha256 value = true ↔ ∃ text, value = some text ∧ sha256 (some text) = true := by
  cases value <;> simp [sha256]

/-- The predicate over a loaded attempt, as one conjunction for each evidence row. -/
theorem isEmployerVerified_iff :
    isEmployerVerified (some attempt) = true ↔
      ∃ row ∈ attempt.evidence, Verifies (fun text => hasInk text = true)
        (fun text => sha256 (some text) = true) row attempt.toSubmissionColumns := by
  constructor
  · intro hverified
    simp only [isEmployerVerified] at hverified
    split at hverified
    · next submitted acted hsubmitted hacted =>
      simp only [Bool.and_eq_true, decide_eq_true_eq, List.any_eq_true] at hverified
      obtain ⟨⟨⟨⟨⟨⟨⟨⟨⟨⟨⟨⟨⟨⟨⟨⟨⟨⟨⟨⟨hstage, houtcome⟩, hstatus⟩, horder⟩, hattachment⟩, hplan⟩,
        hadapter⟩, hversion⟩, hselector⟩, hprofile⟩, hrelease⟩, hlength⟩, hreason⟩, hkind⟩,
        hdigest⟩, hform⟩, hcvId⟩, hsameId⟩, hcvHash⟩, hsameHash⟩,
        row, hrow, ⟨hbound, hafter⟩, hbefore⟩ := hverified
      refine ⟨row, hrow, hbound, ⟨submitted, acted, hsubmitted, hacted, horder, hafter,
        hbefore⟩, hstage, houtcome, hstatus, hattachment, hplan, ?_, ?_, ?_, ?_, ?_, ?_,
        hsameId, hsameHash⟩
      · simp [SubmissionColumns.texts, ← nonblank_iff, hadapter, hversion, hselector,
          hrelease, hcvId]
      · simp [SubmissionColumns.digests, ← sha256_iff, hdigest, hform, hcvHash]
      · simpa [Option.any_eq_true] using hlength
      · simpa [Option.any_eq_true] using hprofile
      · simpa [Option.any_eq_true, and_comm] using hreason
      · simpa [Option.any_eq_true, and_comm] using hkind
    · cases hverified
  · rintro ⟨row, hrow, hverifies⟩
    obtain ⟨submitted, acted, hsubmitted, hacted, horder, hafter, hbefore⟩ := hverifies.timely
    have htexts := hverifies.texts
    have hdigests := hverifies.digests
    obtain ⟨release, hrelease, hlength⟩ := hverifies.release
    obtain ⟨version, hprofile, hversion⟩ := hverifies.profile
    obtain ⟨reason, hcode, hreason⟩ := hverifies.reason
    obtain ⟨kind, htype, hkind⟩ := hverifies.kind
    simp only [SubmissionColumns.texts, SubmissionColumns.digests, List.forall_mem_cons,
      ← nonblank_iff, ← sha256_iff] at htexts hdigests
    simp only [isEmployerVerified, hsubmitted, hacted, Bool.and_eq_true, decide_eq_true_eq,
      List.any_eq_true]
    refine ⟨⟨⟨⟨⟨⟨⟨⟨⟨⟨⟨⟨⟨⟨⟨⟨⟨⟨⟨⟨hverifies.stage, hverifies.outcome⟩, hverifies.status⟩, horder⟩,
      hverifies.attachment⟩, hverifies.plan⟩, htexts.1⟩, htexts.2.1⟩, htexts.2.2.1⟩, ?_⟩,
      htexts.2.2.2.1⟩, ?_⟩, ?_⟩, ?_⟩, hdigests.1⟩, hdigests.2.1⟩, htexts.2.2.2.2.1⟩,
      hverifies.cvId⟩, hdigests.2.2.1⟩, hverifies.cvHash⟩,
      row, hrow, ⟨hverifies.bound, hafter⟩, hbefore⟩
    · simpa [hprofile] using hversion
    · simpa [hrelease] using hlength
    · simpa [hreason] using hcode
    · simpa [hkind] using htype

end JobApplyAgent.Truth
