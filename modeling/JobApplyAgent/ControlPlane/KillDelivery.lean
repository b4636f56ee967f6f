import JobApplyAgent.ControlPlane.KillCommands
import JobApplyAgent.Kernel.AuthoritySteps
import JobApplyAgent.Library.Transition

/-!
# Delivery of emergency stops

The control plane, the runner and the network between them.  The network holds every
message that was sent: a message may arrive any number of times, late, or never.  The
runner verifies a delivered command, activates it in a transaction of its own and signs
an acknowledgement; it may be restarted between any two of these steps.
-/

namespace JobApplyAgent.ControlPlane

open Domain Library

/-! ## The runner -/

structure RunnerKeys where
  controlSigningKeyId : String
  controlPlanePublicKey : String

inductive KillVerificationError where
  | signingKeyIdMismatch
  | envelope (error : ProtocolVerificationError)
  | bootMismatch
  | digestInvalid
  | lifetimeInvalid

/-- `digest` is the SHA-256 of the canonical envelope. -/
def verifyKillSwitchCommand (verify : Verify KillSwitchCommandPayload)
    (digest : KillSwitchCommandEnvelope → String) (keys : RunnerKeys) (bootId : String)
    (envelope : KillSwitchCommandEnvelope) (now : Timestamp) :
    Except KillVerificationError Kernel.VerifiedKillSwitchCommand :=
  if envelope.keyId ≠ keys.controlSigningKeyId then .error .signingKeyIdMismatch
  else
    match verifyEnvelope verify envelope keys.controlPlanePublicKey .controlKillCommand
        runnerAudience now with
    | .error error => .error (.envelope error)
    | .ok () =>
      if envelope.payload.bootId ≠ bootId then .error .bootMismatch
      else if ¬Kernel.digestValid (digest envelope) then .error .digestInvalid
      else if hlifetime : envelope.issuedAt < envelope.expiresAt ∧
          envelope.expiresAt - envelope.issuedAt ≤ Kernel.maxCommandLifetime then
        .ok {
          commandId := envelope.payload.commandId
          runnerBootId := envelope.payload.bootId
          deliveryNonce := envelope.nonce
          issuedAt := envelope.issuedAt
          expiresAt := envelope.expiresAt
          envelopeDigest := digest envelope
          lifetime := hlifetime }
      else .error .lifetimeInvalid

/-- Where a cycle of the runner stands. -/
inductive RunnerPhase where
  | idle
  | verified (command : Kernel.VerifiedKillSwitchCommand)
  | answering (payload : CommandAckPayload)
  deriving DecidableEq

/-- An exception inside the activation, before or after its commit took effect. -/
inductive ActivationFault where
  | none
  | beforeCommit
  | afterCommit
  deriving DecidableEq

/-- A command that took effect, with the boot of the runner in which it did. -/
structure Activation where
  bootId : String
  command : Kernel.VerifiedKillSwitchCommand

structure KillState where
  cloud : Db KillTables
  polls : List (SignedEnvelope CommandPollPayload)
  responses : List KillSwitchCommandEnvelope
  acks : List (SignedEnvelope CommandAckPayload)
  bootId : String
  boots : List String
  phase : RunnerPhase
  db : Store.Db
  /-- What took effect so far, for the statements only. -/
  activations : List Activation

inductive KillAction where
  /-- A heartbeat or the operator rewrites what the cloud knows of the device. -/
  | device (devices : List RunnerDevice) (bootId : Option String)
      (status : Option RunnerStatus) (lastSeenAt : Option Timestamp)
  | mint (idempotencyDigest : String) (minting : Minting) (now : Timestamp)
  | sendPoll (envelope : SignedEnvelope CommandPollPayload)
  | deliverPoll (envelope : SignedEnvelope CommandPollPayload) (locked : List String)
      (now : Timestamp)
  | receive (envelope : KillSwitchCommandEnvelope) (now : Timestamp)
  | activate (now : Timestamp) (fault : ActivationFault)
  | sendAck (envelope : SignedEnvelope CommandAckPayload)
  | deliverAck (envelope : SignedEnvelope CommandAckPayload) (pathCommandId : String)
      (now : Timestamp)
  | restart (bootId : String)
  /-- The local operator stops or clears. -/
  | setLocally (active : Bool) (reasonCode : String) (now : Timestamp)
  /-- Any other transaction of the runner's database. -/
  | other (after : Store.Db)

/-- The signature checks and the digest, and the configuration of both sides. -/
structure KillSetting where
  verifyPoll : Verify CommandPollPayload
  verifyAck : Verify CommandAckPayload
  verifyCommand : Verify KillSwitchCommandPayload
  digest : KillSwitchCommandEnvelope → String
  settings : KillSettings
  keys : RunnerKeys

variable (setting : KillSetting)

/-- The activation in its thread: every exception ends in a rejection. -/
def activateKillSwitch (state : KillState) (command : Kernel.VerifiedKillSwitchCommand)
    (now : Timestamp) (fault : ActivationFault) : KillState :=
  let rejecting := { state with phase := .answering ⟨command.commandId, .rejected⟩ }
  match Kernel.activateControlPlaneKillSwitch state.db command now with
  | .error _ => rejecting
  | .ok (after, _, _) =>
    let effective := { state with
      db := after
      activations := ⟨state.bootId, command⟩ :: state.activations }
    match fault with
    | .none => { effective with phase := .answering ⟨command.commandId, .received⟩ }
    | .beforeCommit => rejecting
    | .afterCommit => { effective with phase := .answering ⟨command.commandId, .rejected⟩ }

def performKill (state : KillState) : KillAction → Option KillState
  | .device devices bootId status lastSeenAt =>
    some { state with cloud := { state.cloud with
      devices := devices
      business := { state.cloud.business with bootId, status, lastSeenAt } } }
  | .mint idempotencyDigest minting now =>
    match createKillSwitchCommand state.cloud setting.settings idempotencyDigest minting now with
    | .error _ => some state
    | .ok tables => some { state with cloud := { state.cloud with business := tables } }
  | .sendPoll envelope =>
    if state.phase = .idle ∧ envelope.payload.bootId = state.bootId then
      some { state with polls := envelope :: state.polls }
    else none
  | .deliverPoll envelope locked now =>
    if envelope ∈ state.polls then
      let (cloud, result) := pollKillSwitchCommand setting.verifyPoll state.cloud
        setting.settings envelope locked now
      some (match result with
        | .ok (some command) => { state with cloud, responses := command :: state.responses }
        | _ => { state with cloud })
    else none
  | .receive envelope now =>
    if state.phase = .idle ∧ envelope ∈ state.responses then
      match verifyKillSwitchCommand setting.verifyCommand setting.digest setting.keys
          state.bootId envelope now with
      | .error _ => some state
      | .ok command => some { state with phase := .verified command }
    else none
  | .activate now fault =>
    match state.phase with
    | .verified command => some (activateKillSwitch state command now fault)
    | _ => none
  | .sendAck envelope =>
    if state.phase = .answering envelope.payload then
      some { state with phase := .idle, acks := envelope :: state.acks }
    else none
  | .deliverAck envelope pathCommandId now =>
    if envelope ∈ state.acks then
      some { state with cloud := (acknowledgeKillSwitchCommand setting.verifyAck state.cloud
        setting.settings envelope pathCommandId now).1 }
    else none
  | .restart bootId =>
    if bootId ∉ state.boots then
      some { state with bootId, boots := bootId :: state.boots, phase := .idle }
    else none
  | .setLocally active reasonCode now =>
    match Kernel.setAutomationKillSwitch state.db active .localOperator reasonCode none now with
    | .error _ => some state
    | .ok (after, _, _) => some { state with db := after }
  | .other after =>
    if after.killEvents = state.db.killEvents then some { state with db := after } else none

/-- No command is minted, nothing is under way, and the log has local entries only. -/
structure KillInitial (state : KillState) : Prop where
  commands : state.cloud.business.killCommands = []
  responses : state.responses = []
  acks : state.acks = []
  phase : state.phase = .idle
  activations : state.activations = []
  events : ∀ event ∈ state.db.killEvents, event.commandDigest = none

def killSystem : TransitionSystem KillState KillAction where
  initial := KillInitial
  step := fun before action after => performKill setting before action = some after

/-- The ids and the signed envelopes of all commands. -/
def KillTables.issued (tables : KillTables) : List (String × KillSwitchCommandEnvelope) :=
  tables.killCommands.map fun command => (command.id, command.signedEnvelope)

def FreshMint (state : KillState) : KillAction → Prop
  | .mint idempotencyDigest minting now =>
    ∀ bootId, ∀ entry ∈ state.cloud.business.issued,
      entry.1 ≠ minting.commandId ∧ setting.digest entry.2 ≠ setting.digest
        (mintedCommand setting.settings idempotencyDigest bootId minting now).signedEnvelope
  | _ => True

/-- The local log has the stop of this command. -/
def Stopped (db : Store.Db) (digest : String) : Prop :=
  ∃ event ∈ db.killEvents, event.commandDigest = some digest

/-- The activation refuses the command at this instant. -/
def Refuses (command : Kernel.VerifiedKillSwitchCommand) (now : Timestamp) : Prop :=
  now + Kernel.maxClockSkew < command.issuedAt ∨ command.expiresAt ≤ now

/-- The deliveries of one command end alike: none fails once its stop is in the log or
while it is put there, and none goes through once a rejection was sent. -/
def DeliveriesAgree (state : KillState) : KillAction → Prop
  | .activate now fault => ∀ command, state.phase = .verified command →
      (Refuses command now ∨ fault ≠ .none → ¬Stopped state.db command.envelopeDigest) ∧
      (¬Refuses command now → fault ≠ .afterCommit) ∧
      (¬Refuses command now ∧ fault = .none →
        ∀ ack ∈ state.acks, ack.payload ≠ ⟨command.commandId, .rejected⟩)
  | _ => True

/-! ## Rows of commands -/

/-- Every update of a command keeps its id, its boot and its envelope. -/
def KeepsIssue (rewrite : ControlKillSwitchCommand → ControlKillSwitchCommand) : Prop :=
  ∀ command, (rewrite command).id = command.id ∧
    (rewrite command).runnerBootId = command.runnerBootId ∧
    (rewrite command).signedEnvelope = command.signedEnvelope

variable {tables : KillTables} {answer : Option CommandAckPayload}

variable {id : String}

theorem KillTables.issued_updateCommand (hrewrite : KeepsIssue rewrite) :
    (tables.updateCommand id rewrite).issued = tables.issued := by
  unfold KillTables.issued KillTables.updateCommand updateWhere
  rw [List.map_map]
  apply List.map_congr_left
  intro command _
  rw [Function.comp_apply]
  split
  · rw [(hrewrite command).1, (hrewrite command).2.2]
  · rfl

/-- What one transaction may do to the stop commands: new ones are queued, and a
command is finished only by the acknowledgement `answer`. -/
structure KillTablesChange (answer : Option CommandAckPayload) (before after : KillTables) :
    Prop where
  issued : before.issued <+: after.issued
  rows : ∀ command ∈ after.killCommands,
    (∃ old ∈ before.killCommands, old.runnerBootId = command.runnerBootId ∧
      old.signedEnvelope = command.signedEnvelope ∧ old.id = command.id ∧
      old.status = command.status) ∨
    (∃ old ∈ before.killCommands, old.runnerBootId = command.runnerBootId ∧
      old.signedEnvelope = command.signedEnvelope ∧ old.id = command.id ∧
      ((command.status ≠ .acknowledged ∧ command.status ≠ .rejected) ∨
        ∃ payload, answer = some payload ∧ payload.commandId = command.id ∧
          command.status = payload.ackStatus.commandStatus)) ∨
    (command.status = .queued ∧
      command.signedEnvelope.payload = ⟨command.id, command.runnerBootId⟩)

theorem KillTablesChange.same (hsame : after.killCommands = before.killCommands) :
    KillTablesChange answer before after where
  issued := by
    unfold KillTables.issued
    simp only [hsame, List.prefix_rfl]
  rows := by
    intro command hcommand
    rw [hsame] at hcommand
    exact .inl ⟨command, hcommand, rfl, rfl, rfl, rfl⟩

/-- An update of one command that leaves it open or answers it. -/
theorem KillTablesChange.update (hrewrite : KeepsIssue rewrite)
    (hstatus : ∀ command, command.id = id →
      ((rewrite command).status ≠ .acknowledged ∧ (rewrite command).status ≠ .rejected) ∨
        ∃ payload, answer = some payload ∧ payload.commandId = command.id ∧
          (rewrite command).status = payload.ackStatus.commandStatus) :
    KillTablesChange answer tables (tables.updateCommand id rewrite) where
  issued := by
    simp only [KillTables.issued_updateCommand hrewrite, List.prefix_rfl]
  rows := by
    intro command hcommand
    obtain ⟨old, hold, rfl⟩ := List.mem_map.mp hcommand
    split
    · next hid =>
      obtain ⟨hkeepId, hkeepBoot, hkeepEnvelope⟩ := hrewrite old
      refine .inr (.inl ⟨old, hold, hkeepBoot.symm, hkeepEnvelope.symm, hkeepId.symm, ?_⟩)
      rw [hkeepId]
      exact hstatus old hid
    · exact .inl ⟨old, hold, rfl, rfl, rfl, rfl⟩

theorem KillTablesChange.mint (hqueued : command.status = .queued)
    (hpayload : command.signedEnvelope.payload = ⟨command.id, command.runnerBootId⟩) :
    KillTablesChange answer before
      { before with killCommands := before.killCommands ++ [command] } where
  issued := by
    unfold KillTables.issued
    rw [List.map_append]
    exact List.prefix_append _ _
  rows := by
    intro found hfound
    rcases List.mem_append.mp hfound with hold | hnew
    · exact .inl ⟨found, hold, rfl, rfl, rfl, rfl⟩
    · rw [List.mem_singleton] at hnew
      subst hnew
      exact .inr (.inr ⟨hqueued, hpayload⟩)

theorem createKillSwitchCommand_change
    (hcreate : createKillSwitchCommand db settings idempotencyDigest minting now = .ok tables) :
    KillTablesChange none db.business tables ∧
      (tables.issued = db.business.issued ∨ ∃ bootId,
        tables.issued = db.business.issued ++ [(minting.commandId,
          (mintedCommand settings idempotencyDigest bootId minting now).signedEnvelope)]) := by
  unfold createKillSwitchCommand at hcreate
  simp only at hcreate
  split at hcreate
  · next prior _ =>
    cases hcreate
    unfold expireUndeliverable
    simp only
    split
    · have hkeeps : KeepsIssue (ControlKillSwitchCommand.expire now) :=
        fun command => ⟨rfl, rfl, rfl⟩
      refine ⟨.update hkeeps ?_, .inl (KillTables.issued_updateCommand hkeeps)⟩
      intro command _
      exact .inl ⟨nofun, nofun⟩
    · exact ⟨.same rfl, .inl rfl⟩
  · split at hcreate
    · cases hcreate
    split at hcreate
    · cases hcreate
    split at hcreate
    · cases hcreate
    split at hcreate
    · cases hcreate
    next bootId _ =>
    cases hcreate
    refine ⟨.mint rfl rfl, .inr ⟨bootId, ?_⟩⟩
    unfold KillTables.issued
    rw [List.map_append]
    rfl

/-- A delivery hands out the envelope of a stored command. -/
theorem pollKillSwitchCommand_change (verify : Verify CommandPollPayload) (db : Db KillTables)
    (settings : KillSettings) (envelope : SignedEnvelope CommandPollPayload)
    (locked : List String) (now : Timestamp) :
    KillTablesChange none db.business
        (pollKillSwitchCommand verify db settings envelope locked now).1.business ∧
      (pollKillSwitchCommand verify db settings envelope locked now).1.business.issued =
        db.business.issued ∧
      ∀ command, (pollKillSwitchCommand verify db settings envelope locked now).2 =
          .ok (some command) → ∃ id, (id, command) ∈ db.business.issued := by
  unfold pollKillSwitchCommand
  rcases handleRequest_cases with ⟨hsame, error, herror⟩ | ⟨seen, device, result, hseen, _,
    hbody, hresult⟩
  · rw [hsame, herror]
    exact ⟨.same rfl, rfl, nofun⟩
  · rw [hresult]
    generalize (handleRequest verify db settings envelope .runnerCommandPoll now
      (deliverKillCommand settings envelope.payload.bootId locked now)).1.business = after
        at hbody ⊢
    unfold deliverKillCommand at hbody
    rw [hseen] at hbody
    simp only at hbody
    split at hbody
    · cases hbody
    split at hbody
    · cases hbody
    split at hbody
    · cases hbody
      exact ⟨.same rfl, rfl, nofun⟩
    · next command hnext =>
      split at hbody
      · cases hbody
      cases hbody
      have hkeeps : KeepsIssue (ControlKillSwitchCommand.claim now) :=
        fun command => ⟨rfl, rfl, rfl⟩
      refine ⟨.update hkeeps fun _ _ => .inl ⟨nofun, nofun⟩,
        KillTables.issued_updateCommand hkeeps, ?_⟩
      intro found hfound
      cases hfound
      have hmem := (List.mem_insertionSort _).mp (List.mem_of_head? hnext)
      exact ⟨command.id, List.mem_map_of_mem (List.mem_filter.mp hmem).1⟩

/-- An acknowledgement finishes at most the command that it names. -/
theorem acknowledgeKillSwitchCommand_change (verify : Verify CommandAckPayload)
    (db : Db KillTables) (settings : KillSettings) (envelope : SignedEnvelope CommandAckPayload)
    (pathCommandId : String) (now : Timestamp) :
    KillTablesChange (some envelope.payload) db.business (acknowledgeKillSwitchCommand verify db
        settings envelope pathCommandId now).1.business ∧
      (acknowledgeKillSwitchCommand verify db settings envelope pathCommandId
        now).1.business.issued = db.business.issued := by
  unfold acknowledgeKillSwitchCommand
  rcases handleRequest_cases with ⟨hsame, _⟩ | ⟨seen, device, result, hseen, _, hbody, _⟩
  · rw [hsame]
    exact ⟨.same rfl, rfl⟩
  · generalize (handleRequest verify db settings envelope .runnerCommandAck now
      (finishKillCommand envelope.payload pathCommandId now)).1.business = after at hbody ⊢
    unfold finishKillCommand at hbody
    rw [hseen] at hbody
    simp only at hbody
    split at hbody
    · cases hbody
    next hpath =>
    split at hbody
    · cases hbody
    next command hfind =>
    split at hbody
    · cases hbody
    split at hbody
    · cases hbody
    split at hbody
    · split at hbody
      · cases hbody
      cases hbody
      exact ⟨.same rfl, rfl⟩
    · split at hbody
      · cases hbody
      cases hbody
      have hkeeps : KeepsIssue
          (ControlKillSwitchCommand.finish envelope.payload.ackStatus now) :=
        fun command => ⟨rfl, rfl, rfl⟩
      have hid : command.id = pathCommandId := by
        simpa using List.find?_some hfind
      refine ⟨.update hkeeps ?_, KillTables.issued_updateCommand hkeeps⟩
      intro found hfound
      refine .inr ⟨envelope.payload, rfl, ?_, rfl⟩
      rw [hfound, hid]
      exact not_not.mp hpath

end JobApplyAgent.ControlPlane
