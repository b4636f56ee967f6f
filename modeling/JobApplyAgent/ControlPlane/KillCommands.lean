import JobApplyAgent.ControlPlane.Envelope
import JobApplyAgent.Library.Rows

/-!
# Emergency-stop commands

The control plane mints a signed stop for one boot of the runner, delivers it under a
lease of fifteen seconds until it is acknowledged, and takes the first acknowledgement
as final.
-/

namespace JobApplyAgent.ControlPlane

open Domain Library

inductive RunnerStatus where
  | ready
  | degraded
  | draining
  deriving DecidableEq

inductive KillCommandStatus where
  | queued
  | claimed
  | acknowledged
  | rejected
  | expired
  deriving DecidableEq

inductive CommandAckStatus where
  | received
  | rejected
  deriving DecidableEq

structure KillSwitchCommandPayload where
  commandId : String
  bootId : String
  deriving DecidableEq

structure CommandPollPayload where
  bootId : String
  deriving DecidableEq

structure CommandAckPayload where
  commandId : String
  ackStatus : CommandAckStatus
  deriving DecidableEq

abbrev KillSwitchCommandEnvelope := SignedEnvelope KillSwitchCommandPayload

structure ControlKillSwitchCommand where
  id : String
  deviceId : String
  runnerBootId : String
  clientIdempotencyDigest : String
  status : KillCommandStatus
  signedEnvelope : KillSwitchCommandEnvelope
  createdAt : Timestamp
  expiresAt : Timestamp
  claimedAt : Option Timestamp
  claimLeaseExpiresAt : Option Timestamp
  deliveryCount : ℕ
  acknowledgedAt : Option Timestamp
  ackStatus : Option CommandAckStatus
  finishedAt : Option Timestamp

/-- What the heartbeats of the configured device say, and its stop commands. -/
structure KillTables where
  bootId : Option String
  status : Option RunnerStatus
  lastSeenAt : Option Timestamp
  killCommands : List ControlKillSwitchCommand

structure KillSettings extends Settings where
  controlSigningKeyId : String
  runnerOfflineAfter : Timestamp

inductive KillCommandError where
  | authentication (error : ControlPlaneError)
  | runnerDisabled
  | runnerOffline
  | runnerBootMismatch
  | bindingMismatch
  | notFound
  | ackConflict
  | notClaimed

def runnerAudience : String := "job-apply-private-runner"

def killCommandLifetime : Timestamp := 5 * minute

def killClaimLease : Timestamp := 15 * second

def KillTables.updateCommand (tables : KillTables) (id : String)
    (rewrite : ControlKillSwitchCommand → ControlKillSwitchCommand) : KillTables :=
  { tables with
    killCommands := updateWhere ControlKillSwitchCommand.id id rewrite tables.killCommands }

/-- The device was not heard of for too long. -/
def KillTables.offline (tables : KillTables) (settings : KillSettings) (now : Timestamp) : Bool :=
  tables.lastSeenAt.all fun seen => decide (settings.runnerOfflineAfter < now - seen)

/-! ## Minting -/

def ControlKillSwitchCommand.expire (now : Timestamp) (command : ControlKillSwitchCommand) :
    ControlKillSwitchCommand :=
  { command with
    status := .expired
    claimLeaseExpiresAt := none
    finishedAt := command.finishedAt.or (some now) }

/-- `_expire_undeliverable_kill_command_replay`. -/
def expireUndeliverable (db : Db KillTables) (settings : KillSettings)
    (command : ControlKillSwitchCommand) (now : Timestamp) : KillTables :=
  let tables := db.business
  let unfinished := decide (command.status = .queued ∨ command.status = .claimed)
  let expired := decide (command.expiresAt ≤ now)
  let bootChanged := (db.devices.find? fun row => row.id = settings.runnerDeviceId).isNone
    || decide (command.deviceId ≠ settings.runnerDeviceId)
    || decide (tables.bootId ≠ some command.runnerBootId)
  if unfinished && (expired || bootChanged) then
    tables.updateCommand command.id (ControlKillSwitchCommand.expire now)
  else tables

/-- The fresh identifiers of a command, and the signature over its content. -/
structure Minting where
  commandId : String
  nonce : String
  signature : String

def mintedCommand (settings : KillSettings) (idempotencyDigest bootId : String)
    (minting : Minting) (now : Timestamp) : ControlKillSwitchCommand where
  id := minting.commandId
  deviceId := settings.runnerDeviceId
  runnerBootId := bootId
  clientIdempotencyDigest := idempotencyDigest
  status := .queued
  signedEnvelope := {
    keyId := settings.controlSigningKeyId
    purpose := .controlKillCommand
    audience := runnerAudience
    issuedAt := now
    expiresAt := now + killCommandLifetime
    nonce := minting.nonce
    payload := { commandId := minting.commandId, bootId := bootId }
    signature := minting.signature }
  createdAt := now
  expiresAt := now + killCommandLifetime
  claimedAt := none
  claimLeaseExpiresAt := none
  deliveryCount := 0
  acknowledgedAt := none
  ackStatus := none
  finishedAt := none

/-- Mint one activation-only command of five minutes, unless its key has one.  A
concurrent insert of the key ends like a call after it. -/
def createKillSwitchCommand (db : Db KillTables) (settings : KillSettings)
    (idempotencyDigest : String) (minting : Minting) (now : Timestamp) :
    Except KillCommandError KillTables :=
  let tables := db.business
  match tables.killCommands.find? fun row => row.clientIdempotencyDigest = idempotencyDigest with
  | some prior => .ok (expireUndeliverable db settings prior now)
  | none =>
    match db.devices.find? fun row => row.id = settings.runnerDeviceId with
    | none => .error .runnerDisabled
    | some device =>
      if !device.active then .error .runnerDisabled
      else if tables.offline settings now || decide (tables.status ≠ some .ready) then
        .error .runnerOffline
      else
        match tables.bootId with
        | none => .error .runnerOffline
        | some bootId =>
          .ok { tables with killCommands := tables.killCommands ++
            [mintedCommand settings idempotencyDigest bootId minting now] }

/-! ## Requests of the runner -/

variable {π β : Type}

/-- A request of the runner: its envelope is authenticated, which commits the nonce,
then its body is committed or rolled back. -/
def handleRequest (verify : Verify π) (db : Db KillTables) (settings : KillSettings)
    (envelope : SignedEnvelope π) (expectedPurpose : EnvelopePurpose) (now : Timestamp)
    (body : Db KillTables → RunnerDevice → Except KillCommandError (KillTables × β)) :
    Db KillTables × Except KillCommandError β :=
  match verifyRunnerEnvelope verify ⟨db, db⟩ settings.toSettings envelope expectedPurpose now with
  | .error error => (db, .error (.authentication error))
  | .ok (session, device) =>
    match body session.working device with
    | .error error => (session.rollback.committed, .error error)
    | .ok (tables, result) =>
      let written := { session with working := { session.working with business := tables } }
      (written.commit.committed, .ok result)

/-- A command that may be delivered to this boot now. -/
def ControlKillSwitchCommand.deliverable (command : ControlKillSwitchCommand)
    (deviceId bootId : String) (now : Timestamp) : Bool :=
  decide (command.deviceId = deviceId)
    && decide (command.runnerBootId = bootId)
    && (decide (command.status = .queued)
      || (decide (command.status = .claimed) && command.acknowledgedAt.isNone
        && command.claimLeaseExpiresAt.any fun lease => decide (lease ≤ now)))
    && decide (now < command.expiresAt)

def ControlKillSwitchCommand.claim (now : Timestamp) (command : ControlKillSwitchCommand) :
    ControlKillSwitchCommand :=
  { command with
    status := .claimed
    claimedAt := command.claimedAt.or (some now)
    claimLeaseExpiresAt := some (now + killClaimLease)
    deliveryCount := command.deliveryCount + 1 }

/-- `ORDER BY created_at LIMIT 1 … SKIP LOCKED`: the rows of the commands in `locked`
are held by concurrent transactions. -/
def nextKillCommand (tables : KillTables) (deviceId bootId : String) (locked : List String)
    (now : Timestamp) : Option ControlKillSwitchCommand :=
  ((tables.killCommands.filter fun command =>
      command.deliverable deviceId bootId now && decide (command.id ∉ locked)).insertionSort
    fun first second => first.createdAt ≤ second.createdAt).head?

def deliverKillCommand (settings : KillSettings) (bootId : String) (locked : List String)
    (now : Timestamp) (db : Db KillTables) (device : RunnerDevice) :
    Except KillCommandError (KillTables × Option KillSwitchCommandEnvelope) :=
  let tables := db.business
  if tables.bootId ≠ some bootId then .error .runnerBootMismatch
  else if !device.active || tables.offline settings now then .error .runnerOffline
  else
    match nextKillCommand tables device.id bootId locked now with
    | none => .ok (tables, none)
    | some command =>
      if tables.bootId ≠ some command.runnerBootId ∨
          command.signedEnvelope.payload.bootId ≠ command.runnerBootId then
        .error .bindingMismatch
      else
        .ok (tables.updateCommand command.id (ControlKillSwitchCommand.claim now),
          some command.signedEnvelope)

def pollKillSwitchCommand (verify : Verify CommandPollPayload) (db : Db KillTables)
    (settings : KillSettings) (envelope : SignedEnvelope CommandPollPayload)
    (locked : List String) (now : Timestamp) :
    Db KillTables × Except KillCommandError (Option KillSwitchCommandEnvelope) :=
  handleRequest verify db settings envelope .runnerCommandPoll now
    (deliverKillCommand settings envelope.payload.bootId locked now)

def CommandAckStatus.commandStatus : CommandAckStatus → KillCommandStatus
  | .received => .acknowledged
  | .rejected => .rejected

def ControlKillSwitchCommand.finish (ackStatus : CommandAckStatus) (now : Timestamp)
    (command : ControlKillSwitchCommand) : ControlKillSwitchCommand :=
  { command with
    ackStatus := some ackStatus
    acknowledgedAt := some now
    claimLeaseExpiresAt := none
    finishedAt := some now
    status := ackStatus.commandStatus }

/-- The result says whether the command had this acknowledgement before. -/
def finishKillCommand (payload : CommandAckPayload) (pathCommandId : String)
    (now : Timestamp) (db : Db KillTables) (device : RunnerDevice) :
    Except KillCommandError (KillTables × Bool) :=
  let tables := db.business
  if payload.commandId ≠ pathCommandId then .error .bindingMismatch
  else
    match tables.killCommands.find? fun row => row.id = pathCommandId with
    | none => .error .notFound
    | some command =>
      if command.deviceId ≠ device.id then .error .notFound
      else if tables.bootId ≠ some command.runnerBootId then .error .runnerBootMismatch
      else if command.acknowledgedAt.isSome then
        if command.ackStatus ≠ some payload.ackStatus then .error .ackConflict
        else .ok (tables, true)
      else if command.status ≠ .claimed ∨
          command.claimedAt.all (fun claimed => decide (command.expiresAt ≤ claimed)) then
        .error .notClaimed
      else
        .ok (tables.updateCommand command.id
          (ControlKillSwitchCommand.finish payload.ackStatus now), false)

def acknowledgeKillSwitchCommand (verify : Verify CommandAckPayload) (db : Db KillTables)
    (settings : KillSettings) (envelope : SignedEnvelope CommandAckPayload)
    (pathCommandId : String) (now : Timestamp) :
    Db KillTables × Except KillCommandError Bool :=
  handleRequest verify db settings envelope .runnerCommandAck now
    (finishKillCommand envelope.payload pathCommandId now)

/-! ## What the requests do -/

theorem verifyRunnerEnvelope_business {γ : Type} {session later : Session γ}
    (haccept : verifyRunnerEnvelope verify session settings envelope expectedPurpose now =
      .ok (later, device)) :
    later.working.business = session.working.business ∧
      later.committed = later.working ∧ device.id = settings.runnerDeviceId := by
  unfold verifyRunnerEnvelope at haccept
  split at haccept
  · cases haccept
  split at haccept
  · cases haccept
  split at haccept
  · cases haccept
  obtain ⟨⟨registered, found⟩, hdevice, haccept⟩ := bind_eq_ok.mp haccept
  obtain ⟨spent, hspend, haccept⟩ := bind_eq_ok.mp haccept
  obtain ⟨rfl, _⟩ := spendNonce_eq_ok hspend
  have hregistered : registered.business = session.working.business := by
    unfold configuredDevice at hdevice
    split at hdevice
    · cases hdevice
      rfl
    · split at hdevice
      · cases hdevice
      split at hdevice
      · cases hdevice
      cases hdevice
      rfl
  cases haccept
  exact ⟨hregistered, rfl, (configuredDevice_eq_ok hdevice).2⟩

/-- A request leaves the tables alone, or writes what its body returns. -/
theorem handleRequest_cases :
    ((handleRequest verify db settings envelope expectedPurpose now body).1.business =
        db.business ∧
      ∃ error, (handleRequest verify db settings envelope expectedPurpose now body).2 =
        .error error) ∨
    ∃ (seen : Db KillTables) (device : RunnerDevice) (result : β),
      seen.business = db.business ∧ device.id = settings.runnerDeviceId ∧
      body seen device = .ok
        ((handleRequest verify db settings envelope expectedPurpose now body).1.business,
          result) ∧
      (handleRequest verify db settings envelope expectedPurpose now body).2 = .ok result := by
  unfold handleRequest
  cases hverify : verifyRunnerEnvelope verify ⟨db, db⟩ settings.toSettings envelope
      expectedPurpose now with
  | error error => exact .inl ⟨rfl, _, rfl⟩
  | ok accepted =>
    obtain ⟨session, device⟩ := accepted
    obtain ⟨hbusiness, hcommitted, hdevice⟩ := verifyRunnerEnvelope_business hverify
    cases hbody : body session.working device with
    | error error =>
      simp only [hbody, Session.rollback, hcommitted]
      exact .inl ⟨hbusiness, error, rfl⟩
    | ok written =>
      simp only [hbody, Session.commit]
      exact .inr ⟨session.working, device, written.2, hbusiness, hdevice, hbody, rfl⟩

end JobApplyAgent.ControlPlane
