import Mathlib.Data.Set.Insert

/-!
# Attempt lifecycle

The stages and terminal outcomes of one submission attempt, the transition
tables that every writer has to respect, and the projection of the lifecycle
onto the coarser legacy status.
-/

namespace JobApplyAgent.Domain

/-- Operational progression of one submission attempt. -/
inductive AttemptStage where
  | queued
  | inspecting
  | preparing
  | ready
  | committing
  | verifying
  | finished
  deriving DecidableEq

/-- Terminal business outcome, kept separate from the stage. -/
inductive AttemptOutcome where
  | confirmedSubmitted
  | alreadyApplied
  | needsReview
  | unknown
  | failedBeforeCommit
  | draftOnly
  | operatorConfirmed
  | legacyUnverified
  deriving DecidableEq

inductive SubmissionStatus where
  | pending
  | running
  | success
  | failed
  | draftOnly
  | unknown
  deriving DecidableEq

inductive JobStatus where
  | extracted
  | scored
  | skipped
  | draft
  | approved
  | submitted
  | failed
  | needsReview
  deriving DecidableEq

inductive ReasonCode where
  | runtimeNotReady
  | buildMismatch
  | adapterNotQualified
  | sessionExpired
  | mfaRequired
  | challengeDetected
  | formChanged
  | formPlanIncomplete
  | requiredFieldUnknown
  | attachmentUnverified
  | finalActionUnconfirmed
  | alreadyApplied
  | jobClosed
  | selectorDrift
  | staleIndeterminate
  | dryRunDiscarded
  | draftOnly
  | permitMissing
  | permitExpired
  | permitReplayed
  | permitBindingMismatch
  | commandExpired
  | commandReplayed
  | governorDenied
  | operatorCancelled
  | evidenceInvalid
  | unsupportedControl
  | networkError
  | internalError
  | profileVersionNotFound
  | profileSnapshotInvalid
  | llmUnavailable
  | llmModelMissing
  | llmTimeout
  | llmCircuitOpen
  | llmSchemaInvalid
  | unsupportedClaim
  | answerPolicyChanged
  deriving DecidableEq

def reasonCodeValue : ReasonCode → String
  | .runtimeNotReady => "RUNTIME_NOT_READY"
  | .buildMismatch => "BUILD_MISMATCH"
  | .adapterNotQualified => "ADAPTER_NOT_QUALIFIED"
  | .sessionExpired => "SESSION_EXPIRED"
  | .mfaRequired => "MFA_REQUIRED"
  | .challengeDetected => "CHALLENGE_DETECTED"
  | .formChanged => "FORM_CHANGED"
  | .formPlanIncomplete => "FORM_PLAN_INCOMPLETE"
  | .requiredFieldUnknown => "REQUIRED_FIELD_UNKNOWN"
  | .attachmentUnverified => "ATTACHMENT_UNVERIFIED"
  | .finalActionUnconfirmed => "FINAL_ACTION_UNCONFIRMED"
  | .alreadyApplied => "ALREADY_APPLIED"
  | .jobClosed => "JOB_CLOSED"
  | .selectorDrift => "SELECTOR_DRIFT"
  | .staleIndeterminate => "STALE_INDETERMINATE"
  | .dryRunDiscarded => "DRY_RUN_DISCARDED"
  | .draftOnly => "DRAFT_ONLY"
  | .permitMissing => "PERMIT_MISSING"
  | .permitExpired => "PERMIT_EXPIRED"
  | .permitReplayed => "PERMIT_REPLAYED"
  | .permitBindingMismatch => "PERMIT_BINDING_MISMATCH"
  | .commandExpired => "COMMAND_EXPIRED"
  | .commandReplayed => "COMMAND_REPLAYED"
  | .governorDenied => "GOVERNOR_DENIED"
  | .operatorCancelled => "OPERATOR_CANCELLED"
  | .evidenceInvalid => "EVIDENCE_INVALID"
  | .unsupportedControl => "UNSUPPORTED_CONTROL"
  | .networkError => "NETWORK_ERROR"
  | .internalError => "INTERNAL_ERROR"
  | .profileVersionNotFound => "PROFILE_VERSION_NOT_FOUND"
  | .profileSnapshotInvalid => "PROFILE_SNAPSHOT_INVALID"
  | .llmUnavailable => "LLM_UNAVAILABLE"
  | .llmModelMissing => "LLM_MODEL_MISSING"
  | .llmTimeout => "LLM_TIMEOUT"
  | .llmCircuitOpen => "LLM_CIRCUIT_OPEN"
  | .llmSchemaInvalid => "LLM_SCHEMA_INVALID"
  | .unsupportedClaim => "UNSUPPORTED_CLAIM"
  | .answerPolicyChanged => "ANSWER_POLICY_CHANGED"

/-- Raised when a caller requests a transition the domain does not allow. -/
inductive InvalidSubmissionState where
  | transition (current target : AttemptStage) (outcome : Option AttemptOutcome)
  | finishedWithoutOutcome
  | unfinishedWithOutcome

def allowedNextStages : AttemptStage → List AttemptStage
  | .queued => [.inspecting, .finished]
  | .inspecting => [.preparing, .ready, .finished]
  | .preparing => [.ready, .finished]
  | .ready => [.committing, .finished]
  | .committing => [.verifying, .finished]
  | .verifying => [.finished]
  | .finished => []

/-- The outcomes accepted when finishing from a stage.  Committing means the
ambiguity boundary has been crossed, so only `unknown` can follow it. -/
def allowedTerminalOutcomes : AttemptStage → List AttemptOutcome
  | .queued => [.needsReview, .failedBeforeCommit, .draftOnly]
  | .inspecting => [.alreadyApplied, .needsReview, .failedBeforeCommit, .draftOnly]
  | .preparing => [.alreadyApplied, .needsReview, .failedBeforeCommit, .draftOnly]
  | .ready => [.alreadyApplied, .needsReview, .failedBeforeCommit, .draftOnly]
  | .committing => [.unknown]
  | .verifying => [.confirmedSubmitted, .unknown]
  | .finished => []

def canTransition (current target : AttemptStage)
    (outcome : Option AttemptOutcome) : Bool :=
  if target ∉ allowedNextStages current then false
  else if target = .finished then
    match outcome with
    | none => false
    | some terminal => decide (terminal ∈ allowedTerminalOutcomes current)
  else outcome.isNone

def requireTransition (current target : AttemptStage)
    (outcome : Option AttemptOutcome) : Except InvalidSubmissionState Unit :=
  if canTransition current target outcome then .ok ()
  else .error (.transition current target outcome)

/-- Reconciled and imported outcomes are never projected to `success`. -/
def legacyTerminalProjection : AttemptOutcome → SubmissionStatus
  | .confirmedSubmitted => .success
  | .alreadyApplied => .failed
  | .needsReview => .failed
  | .unknown => .unknown
  | .failedBeforeCommit => .failed
  | .draftOnly => .draftOnly
  | .operatorConfirmed => .unknown
  | .legacyUnverified => .unknown

def projectLegacyStatus (stage : AttemptStage)
    (outcome : Option AttemptOutcome) :
    Except InvalidSubmissionState SubmissionStatus :=
  if stage = .finished then
    match outcome with
    | none => .error .finishedWithoutOutcome
    | some terminal => .ok (legacyTerminalProjection terminal)
  else if outcome.isSome then .error .unfinishedWithOutcome
  else if stage = .committing ∨ stage = .verifying then .ok .running
  else .ok .pending

/-- The stages in which no external action can have happened yet. -/
def AttemptStage.precommit : AttemptStage → Bool
  | .queued | .inspecting | .preparing | .ready => true
  | _ => false

/-- The stages after the ambiguity boundary of an unfinished attempt. -/
def AttemptStage.postcommit : AttemptStage → Bool
  | .committing | .verifying => true
  | _ => false

def AttemptOutcome.immutable : AttemptOutcome → Bool
  | .confirmedSubmitted | .alreadyApplied | .unknown | .operatorConfirmed
  | .legacyUnverified => true
  | _ => false

/-- An accepted transition is listed in both tables. -/
theorem requireTransition_eq_ok_iff :
    requireTransition current target outcome = .ok () ↔
      canTransition current target outcome = true := by
  unfold requireTransition
  split <;> simp_all

/-- Finishing is allowed exactly from the stages that list the outcome. -/
theorem canTransition_finished_iff :
    canTransition current .finished (some terminal) = true ↔
      terminal ∈ allowedTerminalOutcomes current := by
  cases current <;> cases terminal <;> decide

/-- Moving on without finishing is allowed exactly along the stage table. -/
theorem canTransition_unfinished_iff (htarget : target ≠ .finished) :
    canTransition current target none = true ↔
      target ∈ allowedNextStages current := by
  cases current <;> cases target <;> simp_all [canTransition, allowedNextStages]

theorem projectLegacyStatus_finished (terminal : AttemptOutcome) :
    projectLegacyStatus .finished (some terminal) =
      .ok (legacyTerminalProjection terminal) := rfl

/-- The projection is defined exactly on the stage and outcome pairs that the
table constraint admits. -/
theorem projectLegacyStatus_isOk_iff (stage : AttemptStage)
    (outcome : Option AttemptOutcome) :
    (∃ status, projectLegacyStatus stage outcome = .ok status) ↔
      (stage = .finished ↔ outcome.isSome = true) := by
  cases stage <;> cases outcome <;> simp [projectLegacyStatus]

end JobApplyAgent.Domain
