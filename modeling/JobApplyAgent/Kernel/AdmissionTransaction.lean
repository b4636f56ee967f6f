import JobApplyAgent.Kernel.Admission

/-!
# The admission transaction

An open transaction keeps what it has flushed to itself until it commits: the
attempts it adds, the canary authorizations they spend and, for a remote
command, the receipt, the spent grant and the first event.  It holds the row
locks of the applications it has passed.  A flush that meets a concurrent
writer of the same key is decided when one of the two commits.
-/

namespace JobApplyAgent.Kernel

open Domain Store Library

/-- The acceptance of one remote command.  The receipt names the grant, the
command that spends it and the instant. -/
structure Acceptance where
  receipt : CommandReceipt
  event : RedactedControlPlaneEvent

/-- What an open transaction has flushed. -/
structure Staged where
  acceptance : Option Acceptance
  added : List Submission
  consumedCanaries : List (ℕ × Timestamp)

def nothingStaged : Staged where
  acceptance := none
  added := []
  consumedCanaries := []

def receiptKeysFree (db : Db) (receipt : CommandReceipt) : Bool :=
  db.receipts.all fun row =>
    decide (row.remoteCommandRef ≠ receipt.remoteCommandRef)
      && decide (row.remoteAttemptRef ≠ receipt.remoteAttemptRef)
      && decide (row.reviewGrantId ≠ receipt.reviewGrantId)
      && decide (row.deliveryNonceHash ≠ receipt.deliveryNonceHash)
      && decide (row.clientIdempotencyKey ≠ receipt.clientIdempotencyKey)

/-- Spend a validated grant inside the submission-admission transaction. -/
def consumeControlPlaneReviewGrant (grant : ReviewGrant) (commandRef : String)
    (now : Timestamp) : ReviewGrant :=
  { grant with consumedAt := some now, consumedCommandRef := some commandRef }

def storeAcceptance (db : Db) (acceptance : Acceptance) : Except KernelError Db :=
  let receipt := acceptance.receipt
  match db.reviewGrants[receipt.reviewGrantId]? with
  | none => .error .rowMissing
  | some grant =>
    if grant.consumedAt.isSome ∨ ¬receiptKeysFree db receipt then .error .integrity
    else
      enqueueControlPlaneEvent
        { db with
          receipts := db.receipts ++ [receipt]
          reviewGrants := db.reviewGrants.set receipt.reviewGrantId
            (consumeControlPlaneReviewGrant grant receipt.remoteCommandRef
              receipt.acceptedAt) }
        acceptance.event

def consumeCanary (db : Db) (entry : ℕ × Timestamp) : Db :=
  match db.canaryAuthorizations[entry.1]? with
  | none => db
  | some authorization =>
    { db with
      canaryAuthorizations := db.canaryAuthorizations.set entry.1
        { authorization with consumedAt := some entry.2 } }

def storeAdded (db : Db) : List Submission → Except KernelError Db
  | [] => .ok db
  | row :: rest =>
    match db.insertSubmission row with
    | .error error => .error error
    | .ok stored => storeAdded stored rest

def storeStagedAcceptance (db : Db) (acceptance : Option Acceptance) :
    Except KernelError Db :=
  match acceptance with
  | none => .ok db
  | some found => storeAcceptance db found

/-- The database as the transaction sees it, and as its commit leaves it. -/
def applyStaged (db : Db) (staged : Staged) : Except KernelError Db := do
  let accepted ← storeStagedAcceptance db staged.acceptance
  let stored ← storeAdded accepted staged.added
  return staged.consumedCanaries.foldl consumeCanary stored

/-- One admitted item with the attempt it replays, if any. -/
structure ItemResult where
  request : SubmissionCommandRequest
  replay : Option ℕ

inductive AdmissionPhase where
  | running
  | conflicted
  | done (results : List CreatedSubmissionCommand)
  | failed (error : SubmissionAdmissionError)

structure Admission where
  capabilities : Capabilities
  ttlSeconds : ℤ
  timestamp : Timestamp
  requests : List SubmissionCommandRequest
  waiting : List SubmissionCommandRequest
  lookedUp : Bool
  locks : List ℕ
  staged : Staged
  results : List ItemResult
  phase : AdmissionPhase

structure AdmissionSettings where
  operatorAuthConfigured : Bool
  submitPermitTtlSeconds : ℤ

def batchGates (settings : AdmissionSettings)
    (requests : List SubmissionCommandRequest) :
    List (Bool × SubmissionAdmissionError) :=
  [(!requests.isEmpty, .emptySubmissionBatch),
    (decide (requests.length ≤ 50), .submissionBatchTooLarge),
    (decide (requests.map SubmissionCommandRequest.applicationId).Nodup,
      .duplicateApplicationInBatch),
    (decide (requests.map SubmissionCommandRequest.clientIdempotencyKey).Nodup,
      .duplicateIdempotencyKeyInBatch),
    (settings.operatorAuthConfigured, .operatorAuthRequired)]

/-- The items of a batch are admitted in the order of their applications. -/
def sortedRequests (requests : List SubmissionCommandRequest) :
    List SubmissionCommandRequest :=
  requests.insertionSort fun first second => first.applicationId ≤ second.applicationId

/-- Open a transaction for a batch that passes the gates. -/
def beginAdmission (settings : AdmissionSettings) (capabilities : Capabilities)
    (requests : List SubmissionCommandRequest) (timestamp : Timestamp) :
    Except SubmissionAdmissionError Admission := do
  requireBindings (batchGates settings requests)
  .ok
    { capabilities
      ttlSeconds := settings.submitPermitTtlSeconds
      timestamp
      requests
      waiting := sortedRequests requests
      lookedUp := false
      locks := []
      staged := nothingStaged
      results := []
      phase := .running }

def Admission.fail (admission : Admission) (error : SubmissionAdmissionError) :
    Admission :=
  { admission with
    phase := .failed error, staged := nothingStaged, locks := [], waiting := [] }

/-- An integrity error rolls the transaction back; only a single request then
looks for a replay. -/
def Admission.conflict (admission : Admission) : Admission :=
  { admission with
    phase := .conflicted, staged := nothingStaged, locks := [], waiting := [] }

/-- The error of an item: an integrity error or a plain rejection. -/
def Admission.reject (admission : Admission) (error : SubmissionAdmissionError) :
    Admission :=
  if error = .integrity then admission.conflict else admission.fail error

def Admission.replayed (admission : Admission) (request : SubmissionCommandRequest)
    (rest : List SubmissionCommandRequest) (id : ℕ) : Admission :=
  { admission with
    waiting := rest
    lookedUp := false
    results := admission.results ++ [{ request, replay := some id }] }

/-- The release gate of the next item and its replay lookup before the lock. -/
def lookupItem (db : Db) (admission : Admission) : Admission :=
  match admission.waiting, applyStaged db admission.staged with
  | [], _ => admission
  | _ :: _, .error _ => admission.conflict
  | request :: rest, .ok view =>
    match requireMatchingClientRelease admission.capabilities request.clientRelease with
    | .error error => admission.reject error
    | .ok () =>
      match findReplay view request with
      | .error error => admission.reject error
      | .ok (some id) => admission.replayed request rest id
      | .ok none => { admission with lookedUp := true }

def Admission.created (admission : Admission) (request : SubmissionCommandRequest)
    (rest : List SubmissionCommandRequest) (row : Submission) (canary : Option ℕ) :
    Admission :=
  { admission with
    waiting := rest
    lookedUp := false
    staged :=
      { admission.staged with
        added := admission.staged.added ++ [row]
        consumedCanaries := admission.staged.consumedCanaries
          ++ canary.toList.map fun id => (id, admission.timestamp) }
    results := admission.results ++ [{ request, replay := none }] }

/-- Admit the next item behind its application lock, which it keeps. -/
def admitItem (zone : Zone) (db : Db) (admission : Admission)
    (readings : AdmissionReadings) : Admission :=
  match admission.waiting, applyStaged db admission.staged with
  | [], _ => admission
  | _ :: _, .error _ => admission.conflict
  | request :: rest, .ok view =>
    let locking :=
      { admission with locks := request.applicationId :: admission.locks }
    match createLocked zone view admission.capabilities admission.ttlSeconds request
        readings admission.timestamp with
    | .error error => locking.reject error
    | .ok (.replayed id) => locking.replayed request rest id
    | .ok (.created row canary) =>
      let staged := locking.created request rest row canary
      match applyStaged db staged.staged with
      | .error _ => locking.conflict
      | .ok _ => staged

/-- The attempt that a committed item names. -/
def committedResult (db : Db) (item : ItemResult) : CreatedSubmissionCommand where
  applicationId := item.request.applicationId
  attemptId := item.replay.getD
    (((commandWithKey db item.request.clientIdempotencyKey).map Prod.snd).getD 0)
  replayed := item.replay.isSome

/-- The last deadline check and the commit of every flushed row. -/
def commitAdmission (db : Db) (admission : Admission) (wallClock : Timestamp) :
    Db × Admission :=
  if admission.requests.any fun request =>
      request.authorityExpiresAt.any fun deadline => decide (deadline ≤ wallClock) then
    (db, admission.fail .commandExpired)
  else
    match applyStaged db admission.staged with
    | .error _ => (db, admission.conflict)
    | .ok after =>
      (after,
        { admission with
          phase := .done (admission.results.map (committedResult after))
          staged := nothingStaged
          locks := [] })

/-- After an integrity error a single request may find the attempt that a
concurrent request created. -/
def resolveConflict (db : Db) (admission : Admission) : Admission :=
  match admission.requests with
  | [request] =>
    match findReplay db request with
    | .ok (some id) =>
      { admission with
        phase := .done
          [{ applicationId := request.applicationId, attemptId := id
             replayed := true }] }
    | .ok none => admission.fail .submissionAlreadyActive
    | .error error => admission.fail error
  | _ => admission.fail .submissionAlreadyActive

end JobApplyAgent.Kernel
