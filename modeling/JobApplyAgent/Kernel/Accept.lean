import JobApplyAgent.Kernel.AdmissionTransaction
import JobApplyAgent.Kernel.Grants

/-!
# Remote commands on the runner

The local half of the control plane: accepting one authenticated command, which
stages its receipt, its spent grant and its first event in the transaction that
admits the attempt, the remote stop, and the claims under which outbox events
are delivered.
-/

namespace JobApplyAgent.Kernel

open Domain Store Library

def maxClockSkew : Timestamp := 30 * second

def maxCommandLifetime : Timestamp := 300 * second

/-- A verified command, normalized for the local admission boundary. -/
structure VerifiedControlCommand where
  commandId : String
  grantId : String
  applicationRef : String
  applicationRevision : ℕ
  adapter : String
  adapterVersion : String
  formFingerprintDigest : String
  deliveryNonce : String
  issuedAt : Timestamp
  expiresAt : Timestamp
  envelopeDigest : String
  lifetime : issuedAt < expiresAt ∧ expiresAt - issuedAt ≤ maxCommandLifetime

/-- A verified activation-only stop command. -/
structure VerifiedKillSwitchCommand where
  commandId : String
  runnerBootId : String
  deliveryNonce : String
  issuedAt : Timestamp
  expiresAt : Timestamp
  envelopeDigest : String
  lifetime : issuedAt < expiresAt ∧ expiresAt - issuedAt ≤ maxCommandLifetime
  deriving DecidableEq

structure AcceptedControlCommand where
  remoteCommandRef : String
  remoteAttemptRef : String
  applicationId : ℕ
  attemptId : ℕ
  replayed : Bool

inductive ControlPlaneRunnerError where
  | commandExpired
  | commandNotYetValid
  | commandConflict
  | receiptInconsistent
  | runtimeNotReady
  | capabilitiesUnavailable
  | remoteCommandInvalid
  | grantChanged
  | applicationChanged
  | applicationRevisionChanged
  | adapterVersionChanged
  | formChanged
  | grant (error : ReviewGrantError)
  | admission (error : SubmissionAdmissionError)
  | automation (error : AutomationError)
  | kernel (error : KernelError)

def receiptOfCommand (db : Db) (commandRef : String) : Option CommandReceipt :=
  db.receipts.find? fun receipt => receipt.remoteCommandRef = commandRef

def findCommandReplay (db : Db) (command : VerifiedControlCommand) :
    Except ControlPlaneRunnerError (Option AcceptedControlCommand) :=
  match receiptOfCommand db command.commandId with
  | none => .ok none
  | some receipt =>
    if receipt.envelopeDigest ≠ command.envelopeDigest then .error .commandConflict
    else
      match commandWithKey db receipt.clientIdempotencyKey with
      | none => .error .receiptInconsistent
      | some (attempt, id) =>
        if (db.reviewGrants[receipt.reviewGrantId]?).map ReviewGrant.applicationId
            ≠ some attempt.applicationId then .error .receiptInconsistent
        else
          .ok (some
            { remoteCommandRef := receipt.remoteCommandRef
              remoteAttemptRef := receipt.remoteAttemptRef
              applicationId := attempt.applicationId
              attemptId := id
              replayed := true })

/-- What an acceptance reads and draws after its replay lookup.  The capability
report may fail to be built at all. -/
structure AcceptanceReadings where
  capabilities : Option Capabilities
  jobUrlHash : Option String
  remoteAttemptRef : String
  settings : AdmissionSettings
  validatedAt : Timestamp
  consumedAt : Timestamp

def runnerRelease (capabilities : Capabilities) :
    Except ControlPlaneRunnerError String :=
  match capabilities.release with
  | none => .error .runtimeNotReady
  | some release =>
    if digestValid release.releaseId then .ok release.releaseId
    else .error .runtimeNotReady

def clientRelease (capabilities : Capabilities) :
    Except ControlPlaneRunnerError ClientReleaseIdentity :=
  match capabilities.release with
  | none => .error .runtimeNotReady
  | some release =>
    let identity := release.identity
    if identity.buildSha = "" ∨ identity.uiAssetDigest = "" ∨ identity.sourceDigest = ""
        ∨ identity.protocolVersion = "" ∨ identity.bootId = "" then
      .error .runtimeNotReady
    else .ok identity

def commandBindings (grant : ReviewGrant) (command : VerifiedControlCommand) :
    List (Bool × ControlPlaneRunnerError) :=
  [(decide (grant.grantRef = command.grantId), .grantChanged),
    (decide (grant.remoteApplicationRef = command.applicationRef), .applicationChanged),
    (decide (grant.applicationRevision = command.applicationRevision),
      .applicationRevisionChanged),
    (decide (grant.adapterName = command.adapter), .adapterVersionChanged),
    (decide (grant.adapterVersion = command.adapterVersion), .adapterVersionChanged),
    (decide (grant.formPlanFingerprint = command.formFingerprintDigest), .formChanged)]

def clientIdempotencyKey (commandId : String) : String :=
  "control-plane:" ++ commandId

def commandReceipt (command : VerifiedControlCommand) (grantId : ℕ)
    (readings : AcceptanceReadings) : CommandReceipt where
  remoteCommandRef := command.commandId
  remoteAttemptRef := readings.remoteAttemptRef
  reviewGrantId := grantId
  deliveryNonceHash := ⟨command.deliveryNonce⟩
  envelopeDigest := command.envelopeDigest
  clientIdempotencyKey := clientIdempotencyKey command.commandId
  acceptedAt := readings.consumedAt

/-- The first event of a command's log. -/
def acceptedEvent (commandId : String) (now : Timestamp) :
    RedactedControlPlaneEvent where
  wire :=
    { eventId := transitionEventRef commandId 1
      commandId
      sequence := 1
      stage := .queued
      occurredAt := now
      outcome := none
      reasonCode := none
      evidenceType := none
      evidenceDigest := none }
  cycle := 0

def acceptanceRequest (command : VerifiedControlCommand) (grant : ReviewGrant)
    (planId : String) (identity : ClientReleaseIdentity) :
    SubmissionCommandRequest where
  applicationId := grant.applicationId
  clientIdempotencyKey := clientIdempotencyKey command.commandId
  applicationRevision := grant.applicationRevision
  formPlanId := planId
  clientRelease := identity
  authorityExpiresAt := some (min command.expiresAt grant.expiresAt)
  authorityKind := .controlPlane
  automationPolicyDecisionId := none
  qualificationCanaryAuthorizationId := none

inductive AcceptanceStep where
  | replayed (accepted : AcceptedControlCommand)
  | staged (admission : Admission)

/-- Stage the authority of a validated grant and open the admission that shares
its transaction and its application lock. -/
def stageAcceptance (db : Db) (command : VerifiedControlCommand)
    (capabilities : Capabilities) (readings : AcceptanceReadings)
    (grant : ReviewGrant) (grantId : ℕ) :
    Except ControlPlaneRunnerError AcceptanceStep := do
  requireBindings (commandBindings grant command)
  if min command.expiresAt grant.expiresAt ≤ readings.consumedAt then
    .error .commandExpired
  else if ¬(16 ≤ command.commandId.length ∧ command.commandId.length ≤ 64) then
    .error .remoteCommandInvalid
  else
    let acceptance : Acceptance :=
      { receipt := commandReceipt command grantId readings
        event := acceptedEvent command.commandId readings.consumedAt }
    match storeAcceptance db acceptance, db.formPlans[grant.formPlanId]? with
    | .error error, _ => .error (.kernel error)
    | .ok _, none => .error .formChanged
    | .ok _, some plan => do
        let identity ← clientRelease capabilities
        match beginAdmission readings.settings capabilities
            [acceptanceRequest command grant plan.planId identity]
            readings.consumedAt with
        | .error error => .error (.admission error)
        | .ok admission =>
          return .staged
            { admission with
              locks := [grant.applicationId]
              staged := { nothingStaged with acceptance := some acceptance } }

def lockAcceptance (db : Db) (command : VerifiedControlCommand)
    (readings : AcceptanceReadings) :
    Except ControlPlaneRunnerError AcceptanceStep :=
  match readings.capabilities with
  | none => .error .capabilitiesUnavailable
  | some capabilities => do
      let release ← runnerRelease capabilities
      if command.expiresAt ≤ readings.validatedAt then .error .commandExpired
      else
        match validateControlPlaneReviewGrant db command.grantId command.applicationRef
            release readings.jobUrlHash readings.validatedAt with
        | .ok (grant, grantId) =>
          stageAcceptance db command capabilities readings grant grantId
        | .error .replayed =>
          -- a concurrent duplicate may have waited for the first one's lock
          match ← findCommandReplay db command with
          | some accepted => return .replayed accepted
          | none => .error (.grant .replayed)
        | .error error => .error (.grant error)

/-- Persist a replay-protected local stop. -/
def activateControlPlaneKillSwitch (db : Db) (command : VerifiedKillSwitchCommand)
    (now : Timestamp) :
    Except ControlPlaneRunnerError (Db × KillSwitchEvent × Bool) :=
  if now + maxClockSkew < command.issuedAt then .error .commandNotYetValid
  else if command.expiresAt ≤ now then .error .commandExpired
  else
    (setAutomationKillSwitch db true .vercelSignedKill "REMOTE_OPERATOR_KILL"
      (some command.envelopeDigest) now).mapError .automation

/-! ## Event delivery -/

def eventClaimTtl : Timestamp := 30 * second

def eventStale (now : Timestamp) (row : OutboxRow) : Bool :=
  decide (row.state = .claimed)
    && row.claimedAt.any fun claimedAt => decide (claimedAt ≤ now - eventClaimTtl)

def eventRecovered (now : Timestamp) (row : OutboxRow) : OutboxRow :=
  { row with
    state := .pending
    claimedAt := none
    claimedBy := none
    claimToken := none
    availableAt := min row.availableAt now
    lastErrorCode := some .claimExpired }

def eventDue (locked : ℕ → Bool) (now : Timestamp) (entry : OutboxRow × ℕ) : Bool :=
  decide (entry.1.state = .pending) && decide (entry.1.availableAt ≤ now)
    && !locked entry.2

def eventClaimed (row : OutboxRow) (runner : String) (token : ℕ) (now : Timestamp) :
    OutboxRow :=
  { row with
    state := .claimed
    claimedAt := some now
    claimedBy := some runner
    claimToken := some token
    deliveryCount := row.deliveryCount + 1 }

/-- Claim one due event and recover claims abandoned by crashed runners. -/
def claimControlPlaneEvent (db : Db) (locked : ℕ → Bool) (runner : String)
    (token : ℕ) (now : Timestamp) : Db × Option ℕ :=
  let recovered := rewriteRanked db.outbox (eventStale now)
    (fun row => row.claimedAt.getD 0) 100 (eventRecovered now)
  let due := (ranked recovered (fun _ => true) OutboxRow.availableAt).filter
    (eventDue locked now)
  match due.head? with
  | none => (db, none)  -- the flushed recovery is never committed
  | some (row, id) =>
    ({ db with outbox := recovered.set id (eventClaimed row runner token now) },
      some id)

def claimedRow (db : Db) (id token : ℕ) : Option OutboxRow :=
  (db.outbox[id]?).filter fun row =>
    decide (row.state = .claimed) && decide (row.claimToken = some token)

def eventSent (row : OutboxRow) (now : Timestamp) : OutboxRow :=
  { row with
    state := .sent
    sentAt := some now
    claimedAt := none
    claimedBy := none
    claimToken := none
    lastErrorCode := none }

/-- A failed delivery is tried again after ten seconds. -/
def eventReleased (row : OutboxRow) (now : Timestamp) : OutboxRow :=
  { row with
    state := .pending
    claimedAt := none
    claimedBy := none
    claimToken := none
    availableAt := now + 10 * second
    lastErrorCode := some .deliveryFailed }

/-- The end of a delivery: sent, or released for another try. -/
def deliverClaimedControlPlaneEvent (db : Db) (id token : ℕ) (delivered : Bool)
    (now : Timestamp) : Option Db :=
  (claimedRow db id token).map fun row =>
    { db with
      outbox := db.outbox.set id
        (if delivered then eventSent row now else eventReleased row now) }

end JobApplyAgent.Kernel
