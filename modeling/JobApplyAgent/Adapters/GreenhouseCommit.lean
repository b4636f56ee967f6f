import JobApplyAgent.Adapters.AnswerBindings
import JobApplyAgent.Adapters.GreenhousePages
import JobApplyAgent.Adapters.Registry
import JobApplyAgent.Library.Slots

/-!
# The Greenhouse commit

The commit of a prepared action as it stands between two awaits: the observations before the
action, the atomic action itself, and the evidence after it.  A call waits for one answer of
the browser session at a time, and any number of calls may wait at once.
-/

namespace JobApplyAgent.Adapters

open Domain Library
open Forms (FormFieldV1 isSha256Digest)

/-! ## The atomic action -/

/-- The preflight commitments, as the browser session revalidates them. -/
structure CommitBindings where
  expectedHostname : String
  expectedIdentity : GreenhouseApplicationIdentity
  fields : List FormFieldV1
  variant : GreenhouseVariant
  formFingerprint : String
  actionBinding : String
  domCommitment : String
  resolvedActionUrl : String
  nativeTransport : String
  payloadCommitment : String
  answerBindings : List GreenhouseAnswerBinding
  resumeControlNameSha256 : String
  submitterBinding : Option GreenhouseSubmitterBinding
  cvId : String
  cvSha256 : String
  cvReceiptSha256 : String
  deriving DecidableEq

def greenhouseV1NativeTransport : String := "native-multipart-form-post-v1"

/-- What `__post_init__` asks of the commitments. -/
def CommitBindings.wellFormed (bindings : CommitBindings) : Bool :=
  payloadBindingValid bindings.payloadCommitment bindings.answerBindings
      bindings.resumeControlNameSha256 bindings.submitterBinding
    && bindings.expectedHostname != "" && !bindings.fields.isEmpty && bindings.cvId != ""
    && bindings.resolvedActionUrl != ""
    && bindings.nativeTransport == greenhouseV1NativeTransport
    && [bindings.formFingerprint, bindings.actionBinding, bindings.domCommitment,
      bindings.payloadCommitment, bindings.resumeControlNameSha256, bindings.cvSha256,
      bindings.cvReceiptSha256].all isSha256Digest
    && (bindings.answerBindings.map fun binding =>
        (binding.reviewed.fieldId, binding.reviewed.fieldType))
      == bindings.fields.map fun field => (field.fieldId, field.fieldType)

/-- Exact, private commit capability passed to one candidate session. -/
abbrev GreenhouseAtomicCommitExpectation := {bindings : CommitBindings // bindings.wellFormed}

/-- Bounded result returned by the single-use browser commit primitive. -/
structure GreenhouseAtomicCommitObservation where
  bindings : CommitBindings
  finalActionInvoked : Bool
  requestMayHaveLeft : Bool
  outboundRequestSha256 : Option String
  reasonCode : Option ReasonCode
  wellFormed : bindings.wellFormed = true
  digest : outboundRequestSha256.all isSha256Digest = true
  invoked : requestMayHaveLeft = true → finalActionInvoked = true
  outbound : outboundRequestSha256.isSome = requestMayHaveLeft
  reasoned : requestMayHaveLeft = false → reasonCode.isSome = true

def GreenhouseAtomicCommitObservation.binds (observation : GreenhouseAtomicCommitObservation)
    (expectation : GreenhouseAtomicCommitExpectation) : Bool :=
  decide (observation.bindings = expectation.val)

def atomicPreRequestReviewReasons : List ReasonCode :=
  [.runtimeNotReady, .buildMismatch, .adapterNotQualified, .sessionExpired, .mfaRequired,
    .challengeDetected, .formChanged, .requiredFieldUnknown, .attachmentUnverified, .jobClosed,
    .selectorDrift, .unsupportedControl]

def atomicPreRequestFailureReasons : List ReasonCode :=
  [.permitMissing, .permitExpired, .permitReplayed, .permitBindingMismatch, .commandExpired,
    .commandReplayed, .governorDenied, .operatorCancelled, .networkError, .internalError]

def atomicUnknownReasons : List ReasonCode :=
  [.finalActionUnconfirmed, .staleIndeterminate, .sessionExpired, .challengeDetected,
    .networkError, .internalError, .evidenceInvalid]

theorem reviewReason_allowed (hreason : reason ∈ atomicPreRequestReviewReasons) :
    reason ∈ needsReviewReasons := by
  revert reason
  decide

theorem failureReason_allowed (hreason : reason ∈ atomicPreRequestFailureReasons) :
    reason ∈ failedBeforeCommitReasons := by
  revert reason
  decide

theorem unknownReason_allowed (hreason : reason ∈ atomicUnknownReasons) :
    reason ∈ unknownReasons := by
  revert reason
  decide

def unconfirmed : CommitOutcome :=
  .unknown .finalActionUnconfirmed

def formChanged : CommitOutcome :=
  .needsReview ⟨.formChanged, by decide⟩

def attachmentUnverified : CommitOutcome :=
  .needsReview ⟨.attachmentUnverified, by decide⟩

def atomicObservationOutcome (observation : Option GreenhouseAtomicCommitObservation)
    (expectation : GreenhouseAtomicCommitExpectation) : Option CommitOutcome :=
  match observation with
  | none => some unconfirmed
  | some observation =>
    if observation.requestMayHaveLeft then
      if !observation.binds expectation then some unconfirmed
      else
        match observation.reasonCode with
        | none => none
        | some reason =>
          if hreason : reason ∈ atomicUnknownReasons then
            some (.unknown ⟨reason, unknownReason_allowed hreason⟩)
          else some unconfirmed
    else if observation.finalActionInvoked then some unconfirmed
    else
      match observation.reasonCode with
      | none => some formChanged
      | some reason =>
        if hreason : reason ∈ atomicPreRequestReviewReasons then
          some (.needsReview ⟨reason, reviewReason_allowed hreason⟩)
        else if hfailure : reason ∈ atomicPreRequestFailureReasons then
          some (.failedBeforeCommit ⟨reason, failureReason_allowed hfailure⟩)
        else some formChanged

/-! ## Prepared actions and calls -/

/-- Session-local proof of a fresh, browser-observed CV upload. -/
structure GreenhouseAttachmentProof where
  cvId : String
  cvSha256 : String
  uploadComplete : Bool
  receiptSha256 : Option String

def GreenhouseAttachmentProof.agrees (proof : GreenhouseAttachmentProof)
    (cvId cvSha256 : String) : Bool :=
  proof.uploadComplete && proof.cvId == cvId && proof.cvSha256 == cvSha256
    && proof.receiptSha256.any isSha256Digest

/-- What a preflight leaves behind for the commit. -/
structure PreparedState where
  plan : Forms.FormPlanV1
  permit : FinalSubmitPermit
  preActionHtml : String
  expectedHostname : String
  expectedIdentity : GreenhouseApplicationIdentity
  finalActionBinding : String
  atomicExpectation : GreenhouseAtomicCommitExpectation
  commitClaimed : Bool
  clicked : Bool

/-- The instant and the page that a call invokes the final action on. -/
structure Invocation where
  prepared : ℕ
  action : PreparedFinalActionV1
  permit : FinalSubmitPermit
  finalActionAt : Timestamp
  precommit : GreenhouseBrowserSnapshot

/-- The answer of the session that a call waits for, with what it has observed so far. -/
inductive CommitStage where
  | snapshot
  | observedFormActionBinding (precommit : GreenhouseBrowserSnapshot)
      (fields : List FormFieldV1) (variant : GreenhouseVariant)
  | verifyResumeAttachment (precommit : GreenhouseBrowserSnapshot) (observed : String)
  | finalActionReady (precommit : GreenhouseBrowserSnapshot) (observed : String)
  | finalActionBinding (precommit : GreenhouseBrowserSnapshot) (observed : String)
  | finalActionUrl (precommit : GreenhouseBrowserSnapshot) (observed : String)
      (finalBinding : Option String)
  | commitDomCommitment (precommit : GreenhouseBrowserSnapshot) (observed : String)
      (finalBinding finalUrl : Option String)
  | atomicCommit (invocation : Invocation)
  | postSnapshot (invocation : Invocation) (observation : GreenhouseAtomicCommitObservation)
  | confirmationReference (invocation : Invocation)
      (observation : GreenhouseAtomicCommitObservation) (postAction : GreenhouseBrowserSnapshot)

/-- The final action that a call has invoked. -/
def CommitStage.invocation : CommitStage → Option Invocation
  | .atomicCommit invocation | .postSnapshot invocation _
  | .confirmationReference invocation _ _ => some invocation
  | _ => none

/-- The observation that lets a call look for evidence. -/
def CommitStage.observation : CommitStage → Option GreenhouseAtomicCommitObservation
  | .postSnapshot _ observation | .confirmationReference _ observation _ => some observation
  | _ => none

/-- The page that a call sees after the final action. -/
def CommitStage.postAction : CommitStage → Option GreenhouseBrowserSnapshot
  | .confirmationReference _ _ postAction => some postAction
  | _ => none

/-- An answer of the browser session: a value or an exception. -/
inductive SessionReply where
  | snapshot (page : Except Raised GreenhouseBrowserSnapshot)
  | observedFormActionBinding (binding : Except Raised (Option String))
  | verifyResumeAttachment (proof : Except Raised GreenhouseAttachmentProof)
  | finalActionReady (ready : Except Raised Bool)
  | finalActionBinding (binding : Except Raised (Option String))
  | finalActionUrl (url : Except Raised (Option String))
  | commitDomCommitment (commitment : Except Raised (Option String))
  | atomicCommit (observation : Except Raised (Option GreenhouseAtomicCommitObservation))
  | confirmationReference (reference : Except Raised (Option String))

/-- What the session has told a call about the final action when it takes an answer. -/
def CommitStage.told (stage : CommitStage) (reply : SessionReply) :
    Option GreenhouseAtomicCommitObservation :=
  match stage, reply with
  | .atomicCommit _, .atomicCommit (.ok observation) => observation
  | _, _ => stage.observation

structure CommitCall where
  prepared : ℕ
  action : PreparedFinalActionV1
  permit : FinalSubmitPermit
  stage : CommitStage

/-- A reading of the clock; an instant without a time zone is missing. -/
abbrev ClockReading := Except Raised (Option Timestamp)

/-- Where a call is after an answer: it waits again, or it returns or raises. -/
inductive Progress where
  | awaits (stage : CommitStage)
  | ended (result : Except Raised CommitOutcome)

section Commit

variable {Soup Element : Type} (reader : GreenhouseReader Soup Element)
  (descriptor : AdapterDescriptor)

def needsReviewOutcome (reason : ReasonCode) : Except Raised CommitOutcome :=
  if hreason : reason ∈ needsReviewReasons then .ok (.needsReview ⟨reason, hreason⟩)
  else .error .exception

/-- The `except` clauses of the observations before the action. -/
def beforeAction : Except Raised Progress → Progress
  | .ok progress => progress
  | .error (.blocked reason) => .ended (needsReviewOutcome reason)
  | .error .exception => .ended (.ok (.failedBeforeCommit .runtimeNotReady))
  | .error .cancelled => .ended (.error .cancelled)

/-- The `except` clauses of the action and of the observations after it. -/
def afterAction : Except Raised Progress → Progress
  | .ok progress => progress
  | .error .cancelled => .ended (.error .cancelled)
  | .error _ => .ended (.ok unconfirmed)

def returns (outcome : CommitOutcome) : Progress :=
  .ended (.ok outcome)

/-- The page before the action. -/
def observePrecommit (state : PreparedState) (page : Except Raised GreenhouseBrowserSnapshot) :
    Except Raised Progress := do
  let precommit ← page
  requireSnapshotApplicationBinding reader precommit state.expectedHostname
    state.expectedIdentity
  let soup ← reader.parse precommit.html
  if !(visibleMatches reader soup greenhouseConfirmationSelector).isEmpty then
    return returns formChanged
  let assessment ← assessGreenhouseV1Snapshot reader precommit.html precommit.url
  match assessment.reasonCode with
  | some reason => return returns (← needsReviewOutcome reason)
  | none =>
    if assessment.state ≠ .form ∧ assessment.state ≠ .review then return returns formChanged
    let fields ← reader.observeFields precommit.html
    let variant ← reader.detectVariant precommit.html precommit.url
    return .awaits (.observedFormActionBinding precommit fields variant)

/-- The form before the action. -/
def observeForm (state : PreparedState) (precommit : GreenhouseBrowserSnapshot)
    (fields : List FormFieldV1) (variant : GreenhouseVariant)
    (binding : Except Raised (Option String)) : Except Raised Progress := do
  match ← binding with
  | none => return returns formChanged
  | some observed =>
    if fields ≠ state.plan.fields ∨
        reader.formFingerprint fields variant observed ≠ state.plan.contract.formFingerprint then
      return returns formChanged
    return .awaits (.verifyResumeAttachment precommit observed)

/-- The attachment before the action. -/
def observeAttachment (state : PreparedState) (precommit : GreenhouseBrowserSnapshot)
    (observed : String) (proof : Except Raised GreenhouseAttachmentProof) :
    Except Raised Progress := do
  let proof ← proof
  if !proof.agrees state.plan.contract.selectedCvId state.plan.contract.selectedCvHash
      || proof.receiptSha256 != some state.atomicExpectation.val.cvReceiptSha256 then
    return returns attachmentUnverified
  return .awaits (.finalActionReady precommit observed)

/-- What the last observations before the action are compared with. -/
def finalActionUnchanged (state : PreparedState) (observed : String)
    (finalBinding finalUrl domCommitment : Option String) : Bool :=
  finalUrl.isSome && domCommitment.isSome && finalBinding == some observed
    && finalBinding == some state.finalActionBinding
    && finalUrl == some state.atomicExpectation.val.resolvedActionUrl
    && domCommitment == some state.atomicExpectation.val.domCommitment

/-- The clock is read and everything has to bind still: the call then invokes the final
action. -/
def invokeFinalAction (state : PreparedState) (call : CommitCall)
    (precommit : GreenhouseBrowserSnapshot) (clock : ClockReading) : Progress :=
  match clock with
  | .error error => .ended (.error error)
  | .ok none => returns (.failedBeforeCommit .permitBindingMismatch)
  | .ok (some finalActionAt) =>
    if call.action.binds state.plan.contract call.permit finalActionAt
        && call.permit == state.permit then
      .awaits (.atomicCommit
        ⟨call.prepared, call.action, call.permit, finalActionAt, precommit⟩)
    else returns (.failedBeforeCommit .permitBindingMismatch)

/-- The evidence that the call asks for, under the names of its own rule. -/
def evidenceExpectation (state : PreparedState) (invocation : Invocation) :
    SubmissionEvidenceExpectation where
  attemptId := invocation.action.attemptId
  platform := descriptor.platform
  adapterVersion := descriptor.adapterVersion
  selectorVersion := descriptor.selectorVersion
  formFingerprint := invocation.action.formFingerprint
  attachedCvHash := invocation.action.attachedCvHash
  attachmentVerified := state.plan.contract.attachmentVerified
  postActionNonce := invocation.action.actionNonce
  finalActionAt := some invocation.finalActionAt
  allowedRules := [⟨"greenhouse-v1:visible-confirmation", .visiblePostClickConfirmation,
    some greenhouseConfirmationSelector⟩]

def evidenceObservation (invocation : Invocation) (reference : String)
    (observedAt : Option Timestamp) (present computedVisible : Bool) :
    SubmissionEvidenceObservation where
  attemptId := invocation.action.attemptId
  platform := descriptor.platform
  adapterVersion := descriptor.adapterVersion
  selectorVersion := descriptor.selectorVersion
  formFingerprint := invocation.action.formFingerprint
  attachedCvHash := invocation.action.attachedCvHash
  postActionNonce := invocation.action.actionNonce
  ruleId := "greenhouse-v1:visible-confirmation"
  channel := .visiblePostClickConfirmation
  evidenceReference := reference
  observedAt
  observedAfterFinalAction := true
  wasPresentBeforeAction := present
  visibleSelector := some greenhouseConfirmationSelector
  computedVisible := some computedVisible
  responseStatus := none
  responseSchemaValid := false

/-- The evidence of the page after the action. -/
def verifiedOutcome (state : PreparedState) (invocation : Invocation)
    (postAction : GreenhouseBrowserSnapshot) (reference : String) (clock : ClockReading) :
    Except Raised CommitOutcome := do
  let preSoup ← reader.parse state.preActionHtml
  let postSoup ← reader.parse postAction.html
  let observedAt ← clock
  let present ← finds reader preSoup greenhouseConfirmationSelector
  let computedVisible ← hasOneVisibleConfirmation reader postSoup
  match verifySubmissionEvidence reader.toPageReader
      (evidenceExpectation descriptor state invocation)
      (evidenceObservation descriptor invocation reference observedAt present computedVisible)
      state.preActionHtml postAction.html with
  | .confirmed evidence _ => return .confirmedSubmitted evidence
  | .refused _ => return unconfirmed

/-- The assessment of the page after the action. -/
def finalOutcome (state : PreparedState) (invocation : Invocation)
    (postAction : GreenhouseBrowserSnapshot) (employerReference : Option String)
    (clock : ClockReading) : Except Raised CommitOutcome := do
  let assessment ← assessGreenhouseV1Snapshot reader postAction.html postAction.url
  match assessment.state with
  | .alreadyApplied => return .alreadyApplied
  | .challenge => return .unknown ⟨.challengeDetected, by decide⟩
  | .login => return .unknown ⟨.sessionExpired, by decide⟩
  | _ =>
    let digest ← greenhouseVisibleConfirmationDigest reader postAction.html
    match employerReference with
    | none => return unconfirmed
    | some reference =>
      if assessment.state ≠ .confirmation ∨ reference = "" ∨ digest ≠ some reference then
        return unconfirmed
      verifiedOutcome reader descriptor state invocation postAction reference clock

/-- A call goes on with the answer that it waits for. -/
def resumed (state : PreparedState) (call : CommitCall) (reply : SessionReply)
    (clock : ClockReading) : Option Progress :=
  match call.stage, reply with
  | .snapshot, .snapshot page => some (beforeAction (observePrecommit reader state page))
  | .observedFormActionBinding precommit fields variant, .observedFormActionBinding binding =>
    some (beforeAction (observeForm reader state precommit fields variant binding))
  | .verifyResumeAttachment precommit observed, .verifyResumeAttachment proof =>
    some (beforeAction (observeAttachment state precommit observed proof))
  | .finalActionReady precommit observed, .finalActionReady ready =>
    some (beforeAction do
      if !(← ready) then return returns formChanged
      return .awaits (.finalActionBinding precommit observed))
  | .finalActionBinding precommit observed, .finalActionBinding binding =>
    some (beforeAction do return .awaits (.finalActionUrl precommit observed (← binding)))
  | .finalActionUrl precommit observed finalBinding, .finalActionUrl url =>
    some (beforeAction do
      return .awaits (.commitDomCommitment precommit observed finalBinding (← url)))
  | .commitDomCommitment precommit observed finalBinding finalUrl,
      .commitDomCommitment commitment =>
      some (beforeAction do
        if !finalActionUnchanged state observed finalBinding finalUrl (← commitment) then
          return returns formChanged
        return invokeFinalAction state call precommit clock)
  | .atomicCommit invocation, .atomicCommit answer =>
    some (afterAction do
      let observation ← answer
      match observation, atomicObservationOutcome observation state.atomicExpectation with
      | _, some outcome => return returns outcome
      | some observation, none => return .awaits (.postSnapshot invocation observation)
      | none, none => return returns unconfirmed)
  | .postSnapshot invocation observation, .snapshot page =>
    some (afterAction do
      let postAction ← page
      requireSnapshotApplicationBinding reader postAction state.expectedHostname
        state.expectedIdentity
      return .awaits (.confirmationReference invocation observation postAction))
  | .confirmationReference invocation _ postAction, .confirmationReference reference =>
    some (afterAction do
      let reference ← reference
      return .ended (finalOutcome reader descriptor state invocation postAction reference
        clock))
  | _, _ => none

/-! ## The adapter -/

/-- A call that has returned or raised: what it invoked, what it was told, and what it saw. -/
structure EndedCall where
  action : PreparedFinalActionV1
  permit : FinalSubmitPermit
  invocation : Option Invocation
  observation : Option GreenhouseAtomicCommitObservation
  postAction : Option GreenhouseBrowserSnapshot
  result : Except Raised CommitOutcome

/-- The adapter: what its preflights have prepared, under which nonce each is registered, the
calls that wait, and what has happened. -/
structure Adapter where
  prepared : List PreparedState
  registry : List (String × ℕ)
  calls : Slots CommitCall
  invocations : List Invocation
  ended : List EndedCall

def Adapter.initial : Adapter :=
  ⟨[], [], [], [], []⟩

inductive AdapterEvent where
  /-- A preflight registers what it has prepared. -/
  | prepare (nonce : String) (state : PreparedState)
  | cleanup (nonce : String)
  | commit (action : PreparedFinalActionV1) (permit : FinalSubmitPermit) (clock : ClockReading)
  /-- The session answers a call; the clock is what it reads if it comes to that. -/
  | reply (index : ℕ) (answer : SessionReply) (clock : ClockReading)

namespace Adapter

variable (adapter : Adapter)

/-- A preflight has claimed and clicked nothing yet. -/
def prepare (nonce : String) (state : PreparedState) : Adapter :=
  { adapter with
    prepared := adapter.prepared ++ [{ state with commitClaimed := false, clicked := false }]
    registry := (nonce, adapter.prepared.length)
      :: adapter.registry.filter fun entry => entry.1 != nonce }

def cleanup (nonce : String) : Adapter :=
  { adapter with registry := adapter.registry.filter fun entry => entry.1 != nonce }

/-- A call ends without having waited for anything. -/
def refuse (action : PreparedFinalActionV1) (permit : FinalSubmitPermit)
    (result : Except Raised CommitOutcome) : Adapter :=
  { adapter with ended := ⟨action, permit, none, none, none, result⟩ :: adapter.ended }

def claim (index : ℕ) (action : PreparedFinalActionV1) (permit : FinalSubmitPermit) : Adapter :=
  { adapter with
    prepared := adapter.prepared.modify index fun state => { state with commitClaimed := true }
    calls := adapter.calls.add ⟨index, action, permit, .snapshot⟩ }

/-- `commit` up to its first await. -/
def commit (action : PreparedFinalActionV1) (permit : FinalSubmitPermit)
    (clock : ClockReading) : Adapter :=
  if !descriptor.allowsFinalExecution then
    adapter.refuse action permit (.ok (.failedBeforeCommit .adapterNotQualified))
  else
    match clock, adapter.registry.lookup action.actionNonce with
    | .error error, _ => adapter.refuse action permit (.error error)
    | .ok _, none => adapter.refuse action permit (.ok (.failedBeforeCommit .runtimeNotReady))
    | .ok now, some index =>
      match adapter.prepared[index]? with
      | none => adapter.refuse action permit (.ok (.failedBeforeCommit .runtimeNotReady))
      | some state =>
        if state.clicked || state.commitClaimed then
          adapter.refuse action permit (.ok (.failedBeforeCommit .permitReplayed))
        else if !(now.any fun at' => action.binds state.plan.contract permit at')
            || permit != state.permit then
          adapter.refuse action permit (.ok (.failedBeforeCommit .permitBindingMismatch))
        else adapter.claim index action permit

/-- A call goes on waiting.  The one that invokes the final action leaves behind the page it
invoked it on. -/
def proceed (index : ℕ) (call : CommitCall) (stage : CommitStage) : Adapter :=
  let waiting := { adapter with calls := adapter.calls.put index (some { call with stage }) }
  match call.stage.invocation, stage.invocation with
  | none, some invocation =>
    { waiting with
      prepared := adapter.prepared.modify call.prepared fun state =>
        { state with preActionHtml := invocation.precommit.html, clicked := true }
      invocations := invocation :: adapter.invocations }
  | _, _ => waiting

/-- A call returns or raises. -/
def finish (index : ℕ) (call : CommitCall) (reply : SessionReply)
    (result : Except Raised CommitOutcome) : Adapter :=
  { adapter with
    calls := adapter.calls.put index none
    ended := ⟨call.action, call.permit, call.stage.invocation, call.stage.told reply,
      call.stage.postAction, result⟩ :: adapter.ended }

/-- A call takes an answer of the session. -/
def reply (index : ℕ) (answer : SessionReply) (clock : ClockReading) : Adapter :=
  match adapter.calls.entry index with
  | none => adapter
  | some call =>
    match adapter.prepared[call.prepared]? with
    | none => adapter
    | some state =>
      match resumed reader descriptor state call answer clock with
      | none => adapter
      | some (.awaits stage) => adapter.proceed index call stage
      | some (.ended result) => adapter.finish index call answer result

def step : AdapterEvent → Adapter
  | .prepare nonce state => adapter.prepare nonce state
  | .cleanup nonce => adapter.cleanup nonce
  | .commit action permit clock => adapter.commit descriptor action permit clock
  | .reply index answer clock => adapter.reply reader descriptor index answer clock

def run (events : List AdapterEvent) : Adapter :=
  events.foldl (fun adapter event => adapter.step reader descriptor event) Adapter.initial

end Adapter

end Commit

end JobApplyAgent.Adapters
