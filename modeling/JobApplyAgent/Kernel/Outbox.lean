import JobApplyAgent.Store.Rows
import JobApplyAgent.Library.SequencedLog
import JobApplyAgent.Library.Fallible

/-!
# Event outbox

Every authoritative attempt transition of a control-plane command is mirrored
into a numbered, redacted event.  The reference of an event is derived from its
command and its number.
-/

namespace JobApplyAgent.Kernel

open Domain Store Library

/-- An event with the local bookkeeping that never leaves the runner. -/
structure RedactedControlPlaneEvent where
  wire : EventWire
  cycle : ℕ

/-- The reasons the hosted protocol knows. -/
def remoteReasonCodes : List ReasonCode :=
  [.runtimeNotReady, .buildMismatch, .adapterNotQualified, .sessionExpired,
    .mfaRequired, .challengeDetected, .formChanged, .formPlanIncomplete,
    .requiredFieldUnknown, .attachmentUnverified, .finalActionUnconfirmed,
    .alreadyApplied, .jobClosed, .selectorDrift, .staleIndeterminate,
    .dryRunDiscarded, .draftOnly, .permitMissing, .permitExpired,
    .permitReplayed, .permitBindingMismatch, .commandExpired, .commandReplayed,
    .governorDenied, .operatorCancelled, .evidenceInvalid, .unsupportedControl,
    .networkError, .internalError]

def evidenceTypeMap : EvidenceType → RemoteEvidenceType
  | .employerApplicationId => .employerApplicationId
  | .apiReceipt => .schemaValidReceipt
  | .candidatePortalRecord => .candidatePortalRecord
  | .visiblePostClickConfirmation => .atsVisibleConfirmation

def maxSequence : ℕ := 2147483647

def transitionEventRef (commandId : String) (sequence : ℕ) : EventRef :=
  { commandId, sequence }

def checkEvent (event : EventWire) : Except EventError Unit :=
  if ¬(1 ≤ event.sequence ∧ event.sequence ≤ maxSequence) then
    .error .sequenceInvalid
  else if event.reasonCode.any fun reason => reason ∉ remoteReasonCodes then
    .error .reasonInvalid
  else if decide (event.stage = .finished) ≠ event.outcome.isSome then
    .error .terminalStateInvalid
  else if event.evidenceType.isNone ≠ event.evidenceDigest.isNone then
    .error .evidenceIncomplete
  else if event.outcome = some .confirmedSubmitted ∧ event.evidenceType.isNone then
    .error .evidenceRequired
  else if event.outcome ≠ none ∧ event.outcome ≠ some .confirmedSubmitted
      ∧ event.evidenceType.isSome then
    .error .evidenceNotAllowed
  else .ok ()

def localEventType (event : EventWire) : EventType :=
  if event.evidenceType.isSome then .evidenceRecorded
  else if event.outcome.isSome then .attemptOutcome
  else if event.stage = .queued then .commandAccepted
  else .attemptStage

/-- The row that a new event is stored as. -/
def outboxRow (event : RedactedControlPlaneEvent) : OutboxRow where
  eventRef := event.wire.eventId
  remoteCommandRef := event.wire.commandId
  sequence := event.wire.sequence
  cycle := event.cycle
  eventType := localEventType event.wire
  payload := event.wire
  payloadDigest := ⟨event.wire⟩
  state := .pending
  availableAt := event.wire.occurredAt
  claimedAt := none
  claimedBy := none
  claimToken := none
  sentAt := none
  deliveryCount := 0
  lastErrorCode := none

def enqueueControlPlaneEvent (db : Db) (event : RedactedControlPlaneEvent) :
    Except KernelError Db :=
  match db.outbox.find? fun row => row.eventRef = event.wire.eventId with
  | some existing =>
    if existing.payloadDigest = ⟨event.wire⟩ then .ok db
    else .error (.event .idConflict)
  | none => .ok { db with outbox := db.outbox ++ [outboxRow event] }

def decodeRow (row : OutboxRow) : Except EventError EventWire :=
  if row.payloadDigest ≠ ⟨row.payload⟩ then .error .payloadCorrupt
  else match checkEvent row.payload with
    | .ok () => .ok row.payload
    | .error _ => .error .payloadCorrupt

/-- The events of one remote command, in the order they were enqueued. -/
def eventsFor (db : Db) (commandRef : String) : List OutboxRow :=
  db.outbox.filter fun row => row.remoteCommandRef = commandRef

/-- The event with the greatest number, with its revalidated payload. -/
def decodeLatest (rows : List OutboxRow) :
    Except EventError (Option (OutboxRow × EventWire)) :=
  match latestBy OutboxRow.sequence rows with
  | none => .ok none
  | some row => do
      let payload ← decodeRow row
      return some (row, payload)

/-- The reason that the mirror publishes for an attempt. -/
def remoteReason (attempt : Submission) (useAttemptReason : Bool) :
    Option ReasonCode :=
  if useAttemptReason ∧ attempt.outcome ≠ some .confirmedSubmitted then
    attempt.reasonCode.map fun
      | .code reason =>
        if reason ∈ remoteReasonCodes then reason else .internalError
      | _ => .internalError
  else none

/-- The evidence that the mirror publishes for a confirmed attempt. -/
def remoteEvidence (attempt : Submission) :
    Except EventError (Option (RemoteEvidenceType × String)) :=
  if attempt.outcome = some .confirmedSubmitted then
    match attempt.verificationKind, attempt.evidenceDigest with
    | some (.evidence kind), some digest => .ok (some (evidenceTypeMap kind, digest))
    | _, _ => .error .evidenceRequired
  else .ok none

/-- The last event already tells this transition. -/
def sameTransition (last : EventWire) (attempt : Submission)
    (reason : Option ReasonCode)
    (evidence : Option (RemoteEvidenceType × String)) : Bool :=
  decide (last.stage = attempt.stage)
    && decide (last.outcome = attempt.outcome)
    && decide (last.reasonCode = reason)
    && decide (last.evidenceType = evidence.map Prod.fst)
    && decide (last.evidenceDigest = evidence.map Prod.snd)

/-- The number and the cycle of the next event after the last one. -/
def nextPosition (last : Option (OutboxRow × EventWire)) (attempt : Submission) :
    Except EventError (ℕ × ℕ) :=
  match last with
  | none =>
    if attempt.stage = .queued then .ok (1, 0) else .error .initialStageInvalid
  | some (row, payload) =>
    let redelivered := decide (attempt.stage = .queued)
      && decide (payload.stage = .inspecting ∨ payload.stage = .preparing
        ∨ payload.stage = .ready)
    .ok (row.sequence + 1, row.cycle + (if redelivered then 1 else 0))

def transitionEvent (commandRef : String) (position : ℕ × ℕ)
    (attempt : Submission) (reason : Option ReasonCode)
    (evidence : Option (RemoteEvidenceType × String)) (occurredAt : Timestamp) :
    RedactedControlPlaneEvent where
  wire :=
    { eventId := transitionEventRef commandRef position.1
      commandId := commandRef
      sequence := position.1
      stage := attempt.stage
      occurredAt
      outcome := attempt.outcome
      reasonCode := reason
      evidenceType := evidence.map Prod.fst
      evidenceDigest := evidence.map Prod.snd }
  cycle := position.2

def liftEvent {α : Type} (result : Except EventError α) : Except KernelError α :=
  result.mapError .event

/-- The receipt of the remote command behind an idempotency key. -/
def receiptFor (db : Db) (idempotencyKey : String) : Option CommandReceipt :=
  db.receipts.find? fun receipt => receipt.clientIdempotencyKey = idempotencyKey

def enqueueControlPlaneAttemptTransition (db : Db) (attempt : Submission)
    (command : SubmissionCommand) (occurredAt : Timestamp)
    (useAttemptReason : Bool) : Except KernelError Db :=
  match receiptFor db command.idempotencyKey with
  | none => .ok db
  | some receipt => do
      let reason := remoteReason attempt useAttemptReason
      let evidence ← liftEvent (remoteEvidence attempt)
      let last ← liftEvent (decodeLatest (eventsFor db receipt.remoteCommandRef))
      if last.any fun found => sameTransition found.2 attempt reason evidence then
        return db
      let position ← liftEvent (nextPosition last attempt)
      let event := transitionEvent receipt.remoteCommandRef position attempt
        reason evidence occurredAt
      liftEvent (checkEvent event.wire)
      enqueueControlPlaneEvent db event

/-! ## What one mirrored transition adds -/

/-- A stored row agrees with its payload and its derived reference. -/
structure RowConsistent (row : OutboxRow) : Prop where
  digest : row.payloadDigest = ⟨row.payload⟩
  checked : checkEvent row.payload = .ok ()
  eventRef : row.eventRef = transitionEventRef row.remoteCommandRef row.sequence
  payloadRef : row.payload.eventId = row.eventRef
  command : row.payload.commandId = row.remoteCommandRef
  sequence : row.payload.sequence = row.sequence

/-- The outbox is a family of gap-free logs, one for each remote command. -/
structure OutboxConsistent (db : Db) : Prop where
  rows : ∀ row ∈ db.outbox, RowConsistent row
  sequenced : ∀ commandRef, IsSequenced OutboxRow.sequence (eventsFor db commandRef)

/-- An event row tells the current stage and outcome of an attempt. -/
def Tells (row : OutboxRow) (attempt : Submission) : Prop :=
  row.payload.stage = attempt.stage ∧ row.payload.outcome = attempt.outcome

/-- The outbox after an attempt's transition was mirrored: nothing for a local
command, and otherwise a log whose last event tells the transition. -/
inductive Mirrored (db : Db) (attempt : Submission) (idempotencyKey : String) :
    List OutboxRow → Prop
  | localCommand (hreceipt : receiptFor db idempotencyKey = none) :
      Mirrored db attempt idempotencyKey db.outbox
  | told (receipt : CommandReceipt) (last : OutboxRow)
      (hreceipt : receiptFor db idempotencyKey = some receipt)
      (hlast : latestBy OutboxRow.sequence
        (eventsFor db receipt.remoteCommandRef) = some last)
      (htells : Tells last attempt) :
      Mirrored db attempt idempotencyKey db.outbox
  | appended (receipt : CommandReceipt) (row : OutboxRow)
      (hreceipt : receiptFor db idempotencyKey = some receipt)
      (href : row.remoteCommandRef = receipt.remoteCommandRef)
      (hnumber : row.sequence =
        (eventsFor db receipt.remoteCommandRef).length + 1)
      (hrow : RowConsistent row)
      (hpending : row.state = .pending)
      (htells : Tells row attempt) :
      Mirrored db attempt idempotencyKey (db.outbox ++ [row])

variable {db : Db} {row : OutboxRow}

theorem mem_eventsFor :
    row ∈ eventsFor db commandRef ↔
      row ∈ db.outbox ∧ row.remoteCommandRef = commandRef := by
  simp [eventsFor]

theorem eventsFor_append (db : Db) (row : OutboxRow) (commandRef : String) :
    eventsFor { db with outbox := db.outbox ++ [row] } commandRef =
      if row.remoteCommandRef = commandRef then eventsFor db commandRef ++ [row]
      else eventsFor db commandRef := by
  simp only [eventsFor, List.filter_append]
  by_cases href : row.remoteCommandRef = commandRef
  · simp [href]
  · simp [href]

theorem OutboxConsistent.find?_eventRef_next (hdb : OutboxConsistent db) (commandRef : String) :
    (db.outbox.find? fun row => row.eventRef =
      transitionEventRef commandRef ((eventsFor db commandRef).length + 1)) = none := by
  rw [List.find?_eq_none]
  intro row hmem heq
  have hrow := hdb.rows row hmem
  simp only [decide_eq_true_eq, hrow.eventRef, transitionEventRef,
    EventRef.mk.injEq] at heq
  have hlog : row ∈ eventsFor db commandRef := mem_eventsFor.mpr ⟨hmem, heq.1⟩
  have hbound := (List.getElem?_eq_some_iff.mp
    ((hdb.sequenced commandRef).getElem?_of_mem hlog)).1
  omega

theorem OutboxConsistent.append (hdb : OutboxConsistent db) (hrow : RowConsistent row)
    (hnumber : row.sequence = (eventsFor db row.remoteCommandRef).length + 1) :
    OutboxConsistent { db with outbox := db.outbox ++ [row] } where
  rows := by
    intro found hfound
    rcases List.mem_append.mp hfound with hold | hnew
    · exact hdb.rows found hold
    · rw [List.mem_singleton] at hnew
      exact hnew ▸ hrow
  sequenced := by
    intro commandRef
    rw [eventsFor_append]
    split
    · next href =>
      subst href
      exact isSequenced_concat_iff.mpr ⟨hdb.sequenced _, hnumber⟩
    · exact hdb.sequenced commandRef

theorem decodeRow_eq_ok (hrow : RowConsistent row) :
    decodeRow row = .ok row.payload := by
  simp [decodeRow, hrow.digest, hrow.checked]

variable {after : Db}

theorem sameTransition_tells (hsame : sameTransition last.payload attempt reason evidence = true) :
    Tells last attempt := by
  simp only [sameTransition, Bool.and_eq_true, decide_eq_true_eq] at hsame
  exact ⟨hsame.1.1.1.1, hsame.1.1.1.2⟩

theorem nextPosition_fst (hdb : OutboxConsistent db) (hposition : nextPosition
      ((latestBy OutboxRow.sequence (eventsFor db commandRef)).map
        fun row => (row, row.payload)) attempt = .ok position) :
    position.1 = (eventsFor db commandRef).length + 1 := by
  have hsequenced := hdb.sequenced commandRef
  cases hlast : latestBy OutboxRow.sequence (eventsFor db commandRef) with
  | none =>
    rw [hsequenced.latestBy_eq, List.getLast?_eq_none_iff] at hlast
    simp only [hlast, latestBy, List.foldl_nil, Option.map_none,
      nextPosition] at hposition
    split at hposition
    · cases hposition
      simp [hlast]
    · cases hposition
  | some last =>
    have hnumber := hsequenced.number_latestBy hlast
    simp only [hlast, Option.map_some, nextPosition, Except.ok.injEq] at hposition
    rw [← hposition, ← hnumber]

theorem decodeLatest_eq (hdb : OutboxConsistent db) (commandRef : String) :
    decodeLatest (eventsFor db commandRef) =
      .ok ((latestBy OutboxRow.sequence (eventsFor db commandRef)).map
        fun row => (row, row.payload)) := by
  unfold decodeLatest
  cases hlast : latestBy OutboxRow.sequence (eventsFor db commandRef) with
  | none => rfl
  | some last =>
    have hmem := (mem_eventsFor.mp (latestBy_mem hlast)).1
    simp only [decodeRow_eq_ok (hdb.rows last hmem), Option.map_some]
    rfl

theorem enqueueControlPlaneEvent_next (hdb : OutboxConsistent db)
    (hnumber : event.wire.sequence = (eventsFor db event.wire.commandId).length + 1)
    (href : event.wire.eventId =
      transitionEventRef event.wire.commandId event.wire.sequence) :
    enqueueControlPlaneEvent db event =
      .ok { db with outbox := db.outbox ++ [outboxRow event] } := by
  unfold enqueueControlPlaneEvent
  rw [href, hnumber, hdb.find?_eventRef_next]

theorem liftEvent_eq_ok {α : Type} {result : Except EventError α} {value : α} :
    liftEvent result = .ok value ↔ result = .ok value := by
  cases result <;> simp [liftEvent, Except.mapError]

theorem enqueueControlPlaneAttemptTransition_mirrored (hdb : OutboxConsistent db)
    (henqueue : enqueueControlPlaneAttemptTransition db attempt command
      occurredAt useAttemptReason = .ok after) :
    ∃ outbox, after = { db with outbox } ∧
      Mirrored db attempt command.idempotencyKey outbox := by
  unfold enqueueControlPlaneAttemptTransition at henqueue
  cases hreceipt : receiptFor db command.idempotencyKey with
  | none =>
    rw [hreceipt] at henqueue
    cases henqueue
    exact ⟨db.outbox, rfl, .localCommand hreceipt⟩
  | some receipt =>
    simp only [hreceipt, bind_eq_ok, liftEvent_eq_ok,
      decodeLatest_eq hdb, Except.ok.injEq, exists_eq_left'] at henqueue
    obtain ⟨evidence, hevidence, henqueue⟩ := henqueue
    split at henqueue
    · next hsame =>
      cases henqueue
      rw [Option.any_map, Option.any_eq_true] at hsame
      obtain ⟨last, hlast, htold⟩ := hsame
      exact ⟨db.outbox, rfl,
        .told receipt last hreceipt hlast (sameTransition_tells htold)⟩
    · simp only [bind_eq_ok, liftEvent_eq_ok] at henqueue
      obtain ⟨position, hposition, _, hcheck, henqueue⟩ := henqueue
      have hnumber := nextPosition_fst hdb hposition
      rw [enqueueControlPlaneEvent_next hdb hnumber rfl] at henqueue
      cases henqueue
      exact ⟨_, rfl, .appended receipt _ hreceipt rfl hnumber
        ⟨rfl, hcheck, rfl, rfl, rfl, rfl⟩ rfl ⟨rfl, rfl⟩⟩

theorem remoteEvidence_isOk (hconfirmed : attempt.outcome = some .confirmedSubmitted →
      ∃ kind digest, attempt.verificationKind = some (.evidence kind) ∧
        attempt.evidenceDigest = some digest) :
    ∃ evidence, remoteEvidence attempt = .ok evidence ∧
      (evidence.isSome = true ↔ attempt.outcome = some .confirmedSubmitted) := by
  unfold remoteEvidence
  by_cases houtcome : attempt.outcome = some .confirmedSubmitted
  · obtain ⟨kind, digest, hkind, hdigest⟩ := hconfirmed houtcome
    exact ⟨_, by simp [houtcome, hkind, hdigest]; rfl, by simp [houtcome]⟩
  · exact ⟨none, by simp [houtcome], by simp [houtcome]⟩

theorem remoteReason_mem (hreason : remoteReason attempt useAttemptReason = some reason) :
    reason ∈ remoteReasonCodes := by
  unfold remoteReason at hreason
  split at hreason
  · obtain ⟨stored, _, rfl⟩ := Option.map_eq_some_iff.mp hreason
    cases stored with
    | code code =>
      simp only
      split
      · assumption
      · decide
    | _ => simp [remoteReasonCodes]
  · cases hreason

theorem checkEvent_transitionEvent
    (hstage : attempt.stage = .finished ↔ attempt.outcome.isSome = true)
    (hevidence : evidence.isSome = true ↔
      attempt.outcome = some .confirmedSubmitted) :
    checkEvent (transitionEvent commandRef position attempt
        (remoteReason attempt useAttemptReason) evidence occurredAt).wire =
      if 1 ≤ position.1 ∧ position.1 ≤ maxSequence then .ok ()
      else .error .sequenceInvalid := by
  have hreason : (remoteReason attempt useAttemptReason).any
      (fun reason => reason ∉ remoteReasonCodes) = false := by
    cases hfound : remoteReason attempt useAttemptReason with
    | none => rfl
    | some reason => simpa using remoteReason_mem hfound
  simp only [checkEvent, transitionEvent, hreason]
  by_cases hposition : 1 ≤ position.1 ∧ position.1 ≤ maxSequence
  · cases hsome : evidence with
    | none => simp_all
    | some found => simp_all
  · simp [hposition]

/-- The log behind an idempotency key has no room for another event. -/
def LogFull (db : Db) (idempotencyKey : String) : Prop :=
  ∃ receipt, receiptFor db idempotencyKey = some receipt ∧
    maxSequence ≤ (eventsFor db receipt.remoteCommandRef).length

/-- The only failure of a well-formed transition. -/
def OverflowsLog (db : Db) (idempotencyKey : String) (error : KernelError) : Prop :=
  error = .event .sequenceInvalid ∧ LogFull db idempotencyKey

/-- Mirroring a well-formed attempt fails only when its command's log is
full. -/
theorem enqueueControlPlaneAttemptTransition_failsOnly (hdb : OutboxConsistent db)
    (occurredAt : Timestamp) (useAttemptReason : Bool)
    (hstage : attempt.stage = .finished ↔ attempt.outcome.isSome = true)
    (hconfirmed : attempt.outcome = some .confirmedSubmitted →
      ∃ kind digest, attempt.verificationKind = some (.evidence kind) ∧
        attempt.evidenceDigest = some digest)
    (hopened : ∀ receipt, receiptFor db command.idempotencyKey = some receipt →
      eventsFor db receipt.remoteCommandRef = [] → attempt.stage = .queued) :
    FailsOnly (OverflowsLog db command.idempotencyKey)
      (enqueueControlPlaneAttemptTransition db attempt command occurredAt
        useAttemptReason) := by
  unfold enqueueControlPlaneAttemptTransition
  cases hreceipt : receiptFor db command.idempotencyKey with
  | none => exact .ok db
  | some receipt =>
    obtain ⟨evidence, hevidence, hsome⟩ := remoteEvidence_isOk hconfirmed
    simp only [hevidence, decodeLatest_eq hdb, liftEvent, Except.mapError,
      bind, Except.bind]
    split
    · exact .ok db
    cases hposition : nextPosition ((latestBy OutboxRow.sequence
        (eventsFor db receipt.remoteCommandRef)).map
          fun row => (row, row.payload)) attempt with
    | error error =>
      exfalso
      cases hlast : latestBy OutboxRow.sequence
          (eventsFor db receipt.remoteCommandRef) with
      | none =>
        have hempty := (hdb.sequenced receipt.remoteCommandRef).latestBy_eq
        rw [hlast, eq_comm, List.getLast?_eq_none_iff] at hempty
        simp [hlast, nextPosition, hopened receipt hreceipt hempty] at hposition
      | some last => simp [hlast, nextPosition] at hposition
    | ok position =>
      have hnumber := nextPosition_fst hdb hposition
      simp only [checkEvent_transitionEvent hstage hsome]
      by_cases hbound : 1 ≤ position.1 ∧ position.1 ≤ maxSequence
      · simp only [hbound]
        change FailsOnly _ (enqueueControlPlaneEvent db _)
        rw [enqueueControlPlaneEvent_next hdb hnumber rfl]
        exact .ok _
      · simp only [hbound]
        exact .of_error ⟨rfl, receipt, hreceipt, by omega⟩

/-! ## Published transitions -/

/-- Between two databases the outbox only grew, stayed a family of gap-free
logs, and the log behind `idempotencyKey` now ends in the attempt's stage and
outcome. -/
structure Published (before after : Db) (attempt : Submission)
    (idempotencyKey : String) : Prop where
  grown : before.outbox <+: after.outbox
  consistent : OutboxConsistent after
  told : ∀ receipt, receiptFor before idempotencyKey = some receipt →
    ∃ last, (eventsFor after receipt.remoteCommandRef).getLast? = some last ∧
      Tells last attempt
  others : ∀ commandRef,
    (∀ receipt, receiptFor before idempotencyKey = some receipt →
      receipt.remoteCommandRef ≠ commandRef) →
    eventsFor after commandRef = eventsFor before commandRef

theorem Mirrored.published {before : Db}
    (hmirrored : Mirrored before attempt idempotencyKey outbox) (hbefore : OutboxConsistent before)
    (hafter : after.outbox = outbox) :
    Published before after attempt idempotencyKey := by
  have hevents : ∀ commandRef, eventsFor after commandRef =
      eventsFor { before with outbox } commandRef := by
    simp [eventsFor, hafter]
  cases hmirrored with
  | localCommand hnone =>
    refine ⟨by simp [hafter], ⟨hafter ▸ hbefore.rows, ?_⟩, ?_, ?_⟩
    · exact fun commandRef => hevents commandRef ▸ hbefore.sequenced commandRef
    · intro receipt hreceipt
      rw [hnone] at hreceipt
      cases hreceipt
    · exact fun commandRef _ => hevents commandRef
  | told receipt last hsome hlast htells =>
    refine ⟨by simp [hafter], ⟨hafter ▸ hbefore.rows, ?_⟩, ?_, ?_⟩
    · exact fun commandRef => hevents commandRef ▸ hbefore.sequenced commandRef
    · intro found hfound
      rw [hsome, Option.some.injEq] at hfound
      subst hfound
      rw [(hbefore.sequenced _).latestBy_eq] at hlast
      exact ⟨last, (hevents _).symm ▸ hlast, htells⟩
    · exact fun commandRef _ => hevents commandRef
  | appended receipt row hsome href hnumber hrow _ htells =>
    have hgrown := hbefore.append hrow (href ▸ hnumber)
    refine ⟨hafter ▸ List.prefix_append _ _, ⟨hafter ▸ hgrown.rows, ?_⟩, ?_, ?_⟩
    · exact fun commandRef => hevents commandRef ▸ hgrown.sequenced commandRef
    · intro found hfound
      rw [hsome, Option.some.injEq] at hfound
      subst hfound
      refine ⟨row, ?_, htells⟩
      rw [hevents, eventsFor_append, if_pos href, List.getLast?_concat]
    · intro commandRef hother
      rw [hevents, eventsFor_append, if_neg]
      exact fun heq => hother receipt hsome (href.symm.trans heq)

/-- Publishing twice for one command leaves the last word to the second. -/
theorem Published.trans {first second : Db}
    (hfirst : Published first second early idempotencyKey)
    (hsecond : Published second third late idempotencyKey)
    (hreceipts : second.receipts = first.receipts) :
    Published first third late idempotencyKey := by
  have hreceipt : receiptFor second idempotencyKey =
      receiptFor first idempotencyKey := by
    simp [receiptFor, hreceipts]
  refine ⟨hfirst.grown.trans hsecond.grown, hsecond.consistent, ?_, ?_⟩
  · exact fun receipt hfound => hsecond.told receipt (hreceipt ▸ hfound)
  · intro commandRef hother
    rw [hsecond.others commandRef (hreceipt ▸ hother)]
    exact hfirst.others commandRef hother

end JobApplyAgent.Kernel
