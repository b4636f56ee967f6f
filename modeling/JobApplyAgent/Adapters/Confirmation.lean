import JobApplyAgent.Forms.Acceptance

/-!
# Employer evidence

The verification of one adapter observation against the expectation of its attempt, shared
by the adapters.  Generic text, a redirect or a status is no evidence; a visible confirmation
has to be new after the action.
-/

namespace JobApplyAgent.Adapters

open Domain Library
open Forms (isSha256Digest)

/-- What a call that raises raises: a blocked adapter, another exception, or a cancellation,
which is none. -/
inductive Raised where
  | blocked (reason : ReasonCode)
  | exception
  | cancelled

/-! ## Pages -/

/-- The document tree of a page, as the HTML library builds it. -/
structure PageReader (Soup Element : Type) where
  parse : String → Except Raised Soup
  select : Soup → String → Except Raised (List Element)
  /-- `_visible` of the Greenhouse adapter. -/
  visible : Element → Bool
  /-- `_is_hidden` of the shared verification. -/
  isHidden : Element → Bool
  /-- `str(element)`. -/
  markup : Element → String
  /-- `str(soup)`. -/
  text : Soup → String
  sha256Hex : String → String

section Verification

variable {Soup Element : Type} (reader : PageReader Soup Element)

def selectedVisibleMarkup (html selector : String) : Option String :=
  if !hasInk selector then none
  else
    match reader.parse html >>= fun soup => reader.select soup selector with
    | .error _ => none
    | .ok elements =>
      match elements.filter fun element => !reader.isHidden element with
      | [element] => some (reader.markup element)
      | _ => none

/-! ## Expectation and observation -/

structure AdapterEvidenceRule where
  ruleId : String
  channel : EvidenceType
  visibleSelector : Option String

/-- An instant without a time zone is missing. -/
structure SubmissionEvidenceExpectation where
  attemptId : ℕ
  platform : String
  adapterVersion : String
  selectorVersion : String
  formFingerprint : String
  attachedCvHash : String
  attachmentVerified : Bool
  postActionNonce : String
  finalActionAt : Option Timestamp
  allowedRules : List AdapterEvidenceRule

structure SubmissionEvidenceObservation where
  attemptId : ℕ
  platform : String
  adapterVersion : String
  selectorVersion : String
  formFingerprint : String
  attachedCvHash : String
  postActionNonce : String
  ruleId : String
  channel : EvidenceType
  evidenceReference : String
  observedAt : Option Timestamp
  observedAfterFinalAction : Bool
  wasPresentBeforeAction : Bool
  visibleSelector : Option String
  computedVisible : Option Bool
  responseStatus : Option ℤ
  responseSchemaValid : Bool

/-- Evidence, or the reason why there is none. -/
inductive ConfirmationEvidence where
  | confirmed (evidence : SubmissionEvidence) (evidenceReference : String)
  | refused (reasonCode : String)

def evidenceTypeValue : EvidenceType → String
  | .employerApplicationId => "employer_application_id"
  | .apiReceipt => "api_receipt"
  | .candidatePortalRecord => "candidate_portal_record"
  | .visiblePostClickConfirmation => "visible_post_click_confirmation"

def matchingRule (expectation : SubmissionEvidenceExpectation)
    (observation : SubmissionEvidenceObservation) : Option AdapterEvidenceRule :=
  if expectation.attemptId < 1 || !expectation.attachmentVerified
      || !([expectation.platform, expectation.adapterVersion, expectation.selectorVersion,
        expectation.formFingerprint, expectation.attachedCvHash,
        expectation.postActionNonce].all hasInk)
      || expectation.allowedRules.isEmpty
      || (expectation.allowedRules.any fun rule => !hasInk rule.ruleId)
      || !decide (expectation.allowedRules.map AdapterEvidenceRule.ruleId).Nodup
      || !hasInk observation.ruleId
      || expectation.finalActionAt.isNone then none
  else if !(observation.attemptId == expectation.attemptId
      && observation.platform == expectation.platform
      && observation.adapterVersion == expectation.adapterVersion
      && observation.selectorVersion == expectation.selectorVersion
      && observation.formFingerprint == expectation.formFingerprint
      && observation.attachedCvHash == expectation.attachedCvHash
      && observation.postActionNonce == expectation.postActionNonce) then none
  else
    match expectation.allowedRules.filter fun rule => rule.ruleId == observation.ruleId with
    | [rule] =>
      if rule.channel != observation.channel
          || rule.visibleSelector != observation.visibleSelector
          || (rule.channel == .visiblePostClickConfirmation
            && !rule.visibleSelector.any hasInk)
          || (rule.channel != .visiblePostClickConfirmation
            && rule.visibleSelector.isSome) then none
      else some rule
    | _ => none

/-- What a channel proves: the reference that is kept, and what the digest is made of. -/
structure ChannelProof where
  verifiedReference : String
  channelProof : String

/-- The confirmation on the page after the action, which the page before it has nothing
of. -/
def visibleProof (rule : AdapterEvidenceRule) (observation : SubmissionEvidenceObservation)
    (preActionHtml postActionHtml : String) : Except String ChannelProof :=
  let selector := rule.visibleSelector.getD ""
  if !hasInk preActionHtml then .error "PRE_ACTION_SNAPSHOT_MISSING"
  else if observation.computedVisible != some true then .error "VISIBLE_EVIDENCE_HIDDEN"
  else
    match selectedVisibleMarkup reader postActionHtml selector with
    | none => .error "VISIBLE_EVIDENCE_MISSING"
    | some current =>
      match reader.parse preActionHtml >>= fun soup => reader.select soup selector with
      | .error _ => .error "PRE_ACTION_SNAPSHOT_INVALID"
      | .ok (_ :: _) => .error "EVIDENCE_PREEXISTED"
      | .ok [] => .ok ⟨reader.sha256Hex current, reader.sha256Hex current⟩

def proofOfChannel (rule : AdapterEvidenceRule) (observation : SubmissionEvidenceObservation)
    (preActionHtml postActionHtml : String) : Except String ChannelProof :=
  let reference := String.ofList (strip observation.evidenceReference)
  match observation.channel with
  | .apiReceipt =>
    if !observation.responseStatus.any (fun status => decide (200 ≤ status ∧ status < 300))
        || !observation.responseSchemaValid then .error "API_RECEIPT_INVALID"
    else .ok ⟨reference, reference⟩
  | .visiblePostClickConfirmation =>
    visibleProof reader rule observation preActionHtml postActionHtml
  | .employerApplicationId | .candidatePortalRecord => .ok ⟨reference, reference⟩

/-- `SubmissionEvidence`, once it is validated. -/
def validatedEvidence (observation : SubmissionEvidenceObservation) (observedAt : Timestamp)
    (digest reference : String) : Option SubmissionEvidence :=
  let typed (type : EvidenceType) : Option String :=
    if observation.channel = type then some reference else none
  if observation.attemptId < 1 || !isSha256Digest observation.formFingerprint
      || !isSha256Digest observation.attachedCvHash || !isSha256Digest digest
      || (observation.channel != .visiblePostClickConfirmation
        && (!hasInk reference || decide (255 < (strip reference).length))) then none
  else
    some
      { attemptId := observation.attemptId
        evidenceType := observation.channel
        employerApplicationId := typed .employerApplicationId
        apiReceiptId := typed .apiReceipt
        candidatePortalReference := typed .candidatePortalRecord
        formFingerprint := observation.formFingerprint
        attachedCvHash := observation.attachedCvHash
        observedAt
        digest }

def verifySubmissionEvidence (expectation : SubmissionEvidenceExpectation)
    (observation : SubmissionEvidenceObservation) (preActionHtml postActionHtml : String) :
    ConfirmationEvidence :=
  match matchingRule expectation observation with
  | none => .refused "EVIDENCE_BINDING_MISMATCH"
  | some rule =>
    if !observation.observedAfterFinalAction then .refused "EVIDENCE_NOT_POST_ACTION"
    else
      match observation.observedAt, expectation.finalActionAt with
      | some observedAt, some finalActionAt =>
        if observedAt < finalActionAt then .refused "EVIDENCE_TIMESTAMP_INVALID"
        else if observation.wasPresentBeforeAction then .refused "EVIDENCE_PREEXISTED"
        else if !hasInk observation.evidenceReference then
          .refused "EVIDENCE_REFERENCE_MISSING"
        else
          match proofOfChannel reader rule observation preActionHtml postActionHtml with
          | .error reason => .refused reason
          | .ok proof =>
            let digest := reader.sha256Hex ("|".intercalate
              [toString observation.attemptId, observation.platform,
                observation.adapterVersion, observation.selectorVersion,
                observation.formFingerprint, observation.attachedCvHash,
                observation.ruleId, evidenceTypeValue observation.channel,
                proof.channelProof])
            match validatedEvidence observation observedAt digest
                proof.verifiedReference with
            | none => .refused "EVIDENCE_BINDING_INVALID"
            | some evidence => .confirmed evidence proof.verifiedReference
      | _, _ => .refused "EVIDENCE_TIMESTAMP_INVALID"

/-- A confirmation that is new on a page: one visible node of the selector after the action,
and none of any kind before. -/
structure NewlyVisible (selector preActionHtml postActionHtml : String) : Prop where
  after : ∃ markup, selectedVisibleMarkup reader postActionHtml selector = some markup
  before : (reader.parse preActionHtml >>= fun soup => reader.select soup selector) = .ok []

/-! ## What evidence of a visible confirmation proves -/

variable {reader}

theorem visibleProof_newlyVisible (hselector : rule.visibleSelector = some selector)
    (hproof : visibleProof reader rule observation preActionHtml postActionHtml = .ok proof) :
    NewlyVisible reader selector preActionHtml postActionHtml := by
  rw [visibleProof, hselector, Option.getD_some] at hproof
  split at hproof
  · cases hproof
  split at hproof
  · cases hproof
  split at hproof
  · cases hproof
  next current hcurrent =>
  split at hproof
  · cases hproof
  · cases hproof
  · next hbefore => exact ⟨⟨current, hcurrent⟩, hbefore⟩

theorem matchingRule_eq_some (hrule : matchingRule expectation observation = some rule) :
    rule ∈ expectation.allowedRules ∧ rule.channel = observation.channel ∧
      rule.visibleSelector = observation.visibleSelector := by
  rw [matchingRule] at hrule
  split at hrule
  · cases hrule
  split at hrule
  · cases hrule
  split at hrule
  · next found hfilter =>
    split at hrule
    · cases hrule
    next hmatch =>
    cases hrule
    simp only [Bool.or_eq_true, not_or, bne_iff_ne, ne_eq, not_not] at hmatch
    have hmem : rule ∈ expectation.allowedRules.filter fun rule =>
        rule.ruleId == observation.ruleId := by
      rw [hfilter]
      exact .head _
    exact ⟨(List.mem_filter.mp hmem).1, hmatch.1.1.1, hmatch.1.1.2⟩
  · cases hrule

theorem newlyVisible_of_confirmed (hchannel : observation.channel = .visiblePostClickConfirmation)
    (hselector : observation.visibleSelector = some selector)
    (hconfirmed : verifySubmissionEvidence reader expectation observation preActionHtml
      postActionHtml = .confirmed evidence reference) :
    NewlyVisible reader selector preActionHtml postActionHtml := by
  rw [verifySubmissionEvidence] at hconfirmed
  cases hrule : matchingRule expectation observation with
  | none =>
    rw [hrule] at hconfirmed
    cases hconfirmed
  | some rule =>
    obtain ⟨_, _, hsame⟩ := matchingRule_eq_some hrule
    simp only [hrule] at hconfirmed
    split at hconfirmed
    · cases hconfirmed
    split at hconfirmed
    · split at hconfirmed
      · cases hconfirmed
      split at hconfirmed
      · cases hconfirmed
      split at hconfirmed
      · cases hconfirmed
      split at hconfirmed
      · cases hconfirmed
      next proof hproof =>
      rw [proofOfChannel, hchannel] at hproof
      exact visibleProof_newlyVisible (hsame.trans hselector) hproof
    · cases hconfirmed

end Verification

end JobApplyAgent.Adapters
