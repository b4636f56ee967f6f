import JobApplyAgent.ControlPlane.KillDelivery

/-!
# The cloud tells the truth about a stop

An acknowledged command has its stop in the local log and a rejected one has none, as
long as all deliveries of one command end alike.  The log takes one entry for a command,
made by the boot that the command is addressed to, so that no later delivery undoes a
local clear.
-/

namespace JobApplyAgent.ControlPlane

open Domain Library

variable (setting : KillSetting)

/-- The entries of the log that remote commands made. -/
def remoteStops (db : Store.Db) : List Store.KillSwitchEvent :=
  db.killEvents.filter fun event => event.commandDigest.isSome

variable {digest : String}
  {state : KillState}

theorem stopped_iff :
    Stopped db digest ↔ ∃ event ∈ remoteStops db, event.commandDigest = some digest := by
  unfold Stopped remoteStops
  constructor
  · rintro ⟨event, hevent, hdigest⟩
    refine ⟨event, List.mem_filter.mpr ⟨hevent, ?_⟩, hdigest⟩
    rw [hdigest]
    rfl
  · rintro ⟨event, hevent, hdigest⟩
    exact ⟨event, (List.mem_filter.mp hevent).1, hdigest⟩

theorem stopped_congr {before : Store.Db} (hsame : remoteStops after = remoteStops before) :
    Stopped after digest ↔ Stopped before digest := by
  rw [stopped_iff, stopped_iff, hsame]

/-- The verified command is one of the issued ones. -/
def NamedBy (tables : KillTables) (command : Kernel.VerifiedKillSwitchCommand) : Prop :=
  ∃ entry ∈ tables.issued, entry.1 = command.commandId ∧
    setting.digest entry.2 = command.envelopeDigest ∧
    entry.2.payload.bootId = command.runnerBootId

/-- An answer of the runner is about an issued command, and says what its log has. -/
def Answered (tables : KillTables) (db : Store.Db) (payload : CommandAckPayload) : Prop :=
  ∃ entry ∈ tables.issued, entry.1 = payload.commandId ∧
    (payload.ackStatus = .received → Stopped db (setting.digest entry.2)) ∧
    (payload.ackStatus = .rejected → ¬Stopped db (setting.digest entry.2))

/-- What holds of an entry that a remote command made. -/
structure RemoteStopOk (activations : List Activation) (event : Store.KillSwitchEvent)
    (digest : String) : Prop where
  active : event.active = true
  source : event.source = .vercelSignedKill
  valid : Kernel.digestValid digest = true
  activated : ∃ activation ∈ activations, activation.command.envelopeDigest = digest

structure KillOk (state : KillState) : Prop where
  ids : (state.cloud.business.issued.map Prod.fst).Nodup
  digests : (state.cloud.business.issued.map fun entry => setting.digest entry.2).Nodup
  payloads : ∀ command ∈ state.cloud.business.killCommands,
    command.signedEnvelope.payload = ⟨command.id, command.runnerBootId⟩
  responses : ∀ envelope ∈ state.responses, ∃ id, (id, envelope) ∈ state.cloud.business.issued
  verified : ∀ command, state.phase = .verified command →
    command.runnerBootId = state.bootId ∧ NamedBy setting state.cloud.business command
  answering : ∀ payload, state.phase = .answering payload →
    Answered setting state.cloud.business state.db payload
  acks : ∀ ack ∈ state.acks, Answered setting state.cloud.business state.db ack.payload
  finished : ∀ command ∈ state.cloud.business.killCommands, ∀ ackStatus,
    command.status = CommandAckStatus.commandStatus ackStatus →
      ∃ ack ∈ state.acks, ack.payload = ⟨command.id, ackStatus⟩
  events : ∀ event ∈ remoteStops state.db, ∀ digest, event.commandDigest = some digest →
    RemoteStopOk state.activations event digest
  once : ((remoteStops state.db).filterMap Store.KillSwitchEvent.commandDigest).Nodup
  activations : ∀ activation ∈ state.activations,
    activation.command.runnerBootId = activation.bootId ∧
      NamedBy setting state.cloud.business activation.command

variable {setting} {before : KillState}

theorem KillOk.initial (hinitial : KillInitial before) : KillOk setting before := by
  have hissued : before.cloud.business.issued = [] := by
    unfold KillTables.issued
    rw [hinitial.commands]
    rfl
  have hstops : remoteStops before.db = [] := by
    rw [remoteStops, List.filter_eq_nil_iff]
    intro event hevent
    simp [hinitial.events event hevent]
  constructor
  · simp [hissued]
  · simp [hissued]
  · simp [hinitial.commands]
  · simp [hinitial.responses]
  · simp [hinitial.phase]
  · simp [hinitial.phase]
  · simp [hinitial.acks]
  · simp [hinitial.commands]
  · simp [hstops]
  · simp [hstops]
  · simp [hinitial.activations]

theorem NamedBy.mono (hnamed : NamedBy setting tables command)
    (hissued : tables.issued <+: later.issued) :
    NamedBy setting later command := by
  obtain ⟨entry, hentry, hnames⟩ := hnamed
  exact ⟨entry, hissued.subset hentry, hnames⟩

theorem Answered.mono (hanswered : Answered setting tables db payload)
    (hissued : tables.issued <+: later.issued) :
    Answered setting later db payload := by
  obtain ⟨entry, hentry, hstate⟩ := hanswered
  exact ⟨entry, hissued.subset hentry, hstate⟩

theorem Answered.congr (hanswered : Answered setting tables db payload)
    (hsame : remoteStops later = remoteStops db) : Answered setting tables later payload := by
  obtain ⟨entry, hentry, hid, hreceived, hrejected⟩ := hanswered
  refine ⟨entry, hentry, hid, ?_, ?_⟩
  · intro hstatus
    exact (stopped_congr hsame).mpr (hreceived hstatus)
  · intro hstatus hstopped
    exact hrejected hstatus ((stopped_congr hsame).mp hstopped)

/-! ## Steps of the cloud -/

theorem commandStatus_injective : Function.Injective CommandAckStatus.commandStatus := by
  intro first second hsame
  cases first <;> cases second <;> first | rfl | cases hsame

theorem commandStatus_cases (ackStatus : CommandAckStatus) :
    ackStatus.commandStatus = .acknowledged ∨ ackStatus.commandStatus = .rejected := by
  cases ackStatus
  · exact .inl rfl
  · exact .inr rfl

/-- A transaction of the cloud that finishes commands only by answers it was sent. -/
theorem KillOk.cloudStep (hok : KillOk setting before)
    (hchange : KillTablesChange answer before.cloud.business cloud.business)
    (hids : (cloud.business.issued.map Prod.fst).Nodup)
    (hdigests : (cloud.business.issued.map fun entry => setting.digest entry.2).Nodup)
    (hanswer : ∀ payload, answer = some payload → ∃ ack ∈ before.acks, ack.payload = payload) :
    KillOk setting { before with cloud } where
  ids := hids
  digests := hdigests
  payloads := by
    intro command hcommand
    rcases hchange.rows command hcommand with ⟨old, hold, hboot, henvelope, hid, _⟩ |
      ⟨old, hold, hboot, henvelope, hid, _⟩ | ⟨_, hpayload⟩
    · rw [← hboot, ← henvelope, ← hid]
      exact hok.payloads old hold
    · rw [← hboot, ← henvelope, ← hid]
      exact hok.payloads old hold
    · exact hpayload
  responses := by
    intro envelope henvelope
    obtain ⟨id, hid⟩ := hok.responses envelope henvelope
    exact ⟨id, hchange.issued.subset hid⟩
  verified := by
    intro command hphase
    obtain ⟨hboot, hnamed⟩ := hok.verified command hphase
    exact ⟨hboot, hnamed.mono hchange.issued⟩
  answering := fun payload hphase => (hok.answering payload hphase).mono hchange.issued
  acks := fun ack hack => (hok.acks ack hack).mono hchange.issued
  finished := by
    intro command hcommand ackStatus hstatus
    rcases hchange.rows command hcommand with ⟨old, hold, _, _, hid, hsame⟩ |
      ⟨old, hold, _, _, hid, ⟨hopen, hunrejected⟩ | ⟨payload, hpayload, hnames, hfinal⟩⟩ |
      ⟨hqueued, _⟩
    · rw [← hid]
      exact hok.finished old hold ackStatus (hsame.trans hstatus)
    · rw [hstatus] at hopen hunrejected
      rcases commandStatus_cases ackStatus with hcase | hcase
      · exact absurd hcase hopen
      · exact absurd hcase hunrejected
    · obtain ⟨ack, hack, hstate⟩ := hanswer payload hpayload
      refine ⟨ack, hack, ?_⟩
      rw [hstate, ← hnames, ← commandStatus_injective (hfinal.symm.trans hstatus)]
    · rw [hqueued] at hstatus
      cases ackStatus <;> cases hstatus
  events := hok.events
  once := hok.once
  activations := by
    intro activation hactivation
    obtain ⟨hboot, hnamed⟩ := hok.activations activation hactivation
    exact ⟨hboot, hnamed.mono hchange.issued⟩

theorem KillOk.mintStep (hok : KillOk setting before)
    (hfresh : FreshMint setting before (.mint idempotencyDigest minting now))
    (hcreate : createKillSwitchCommand before.cloud setting.settings idempotencyDigest minting now =
      .ok tables) :
    KillOk setting { before with cloud := { before.cloud with business := tables } } := by
  obtain ⟨hchange, hissued⟩ := createKillSwitchCommand_change hcreate
  apply hok.cloudStep hchange
  · rcases hissued with hsame | ⟨bootId, hadded⟩
    · rw [hsame]
      exact hok.ids
    · rw [hadded, List.map_append, List.map_singleton, ← List.concat_eq_append, List.nodup_concat]
      refine ⟨?_, hok.ids⟩
      intro hmem
      obtain ⟨entry, hentry, hid⟩ := List.mem_map.mp hmem
      exact (hfresh bootId entry hentry).1 hid
  · rcases hissued with hsame | ⟨bootId, hadded⟩
    · rw [hsame]
      exact hok.digests
    · rw [hadded, List.map_append, List.map_singleton, ← List.concat_eq_append, List.nodup_concat]
      refine ⟨?_, hok.digests⟩
      intro hmem
      obtain ⟨entry, hentry, hdigest⟩ := List.mem_map.mp hmem
      exact (hfresh bootId entry hentry).2 hdigest
  · intro payload hpayload
    cases hpayload

variable {id : String} {ackStatus : CommandAckStatus}

theorem KillOk.respond (hok : KillOk setting before)
    (hissued : (id, envelope) ∈ before.cloud.business.issued) :
    KillOk setting { before with responses := envelope :: before.responses } :=
  { hok with
    responses := by
      intro found hfound
      rcases List.mem_cons.mp hfound with rfl | hold
      · exact ⟨id, hissued⟩
      · exact hok.responses found hold }

/-! ## Steps of the runner -/

/-- A step that only moves the cycle of the runner. -/
theorem KillOk.move (hok : KillOk setting before) {phase : RunnerPhase}
    {acks : List (SignedEnvelope CommandAckPayload)}
    (hverified : ∀ command, phase = .verified command →
      command.runnerBootId = bootId ∧ NamedBy setting before.cloud.business command)
    (hanswering : ∀ payload, phase = .answering payload →
      Answered setting before.cloud.business before.db payload) (hkept : before.acks ⊆ acks)
    (hacks : ∀ ack ∈ acks, Answered setting before.cloud.business before.db ack.payload) :
    KillOk setting { before with phase, acks, bootId, boots } :=
  { hok with
    verified := hverified
    answering := hanswering
    acks := hacks
    finished := by
      intro command hcommand ackStatus hstatus
      obtain ⟨ack, hack, hpayload⟩ := hok.finished command hcommand ackStatus hstatus
      exact ⟨ack, hkept hack, hpayload⟩ }

theorem verifyKillSwitchCommand_eq_ok {digest : KillSwitchCommandEnvelope → String}
    (hverify : verifyKillSwitchCommand verify digest keys bootId envelope now = .ok command) :
    command.commandId = envelope.payload.commandId ∧ command.runnerBootId = bootId ∧
      envelope.payload.bootId = bootId ∧ command.envelopeDigest = digest envelope := by
  unfold verifyKillSwitchCommand at hverify
  split at hverify
  · cases hverify
  split at hverify
  · cases hverify
  split at hverify
  · cases hverify
  next hboot =>
  split at hverify
  · cases hverify
  split at hverify
  · cases hverify
    exact ⟨rfl, not_not.mp hboot, not_not.mp hboot, rfl⟩
  · cases hverify

theorem KillOk.payload_of_issued (hok : KillOk setting before)
    (hissued : (id, envelope) ∈ before.cloud.business.issued) :
    envelope.payload.commandId = id := by
  obtain ⟨command, hcommand, heq⟩ := List.mem_map.mp hissued
  cases heq
  rw [hok.payloads command hcommand]

theorem KillOk.receiveStep (hok : KillOk setting before) (henvelope : envelope ∈ before.responses)
    (hverify : verifyKillSwitchCommand setting.verifyCommand setting.digest setting.keys
      before.bootId envelope now = .ok command) :
    KillOk setting { before with phase := .verified command } := by
  obtain ⟨hid, hboot, haddressed, hdigest⟩ := verifyKillSwitchCommand_eq_ok hverify
  obtain ⟨id, hissued⟩ := hok.responses envelope henvelope
  refine hok.move ?_ (fun _ hphase => nomatch hphase) (List.Subset.refl _) hok.acks
  rintro found ⟨⟩
  refine ⟨hboot, (id, envelope), hissued, ?_, hdigest.symm, haddressed.trans hboot.symm⟩
  rw [hid]
  exact (hok.payload_of_issued hissued).symm

/-! ## Steps of the runner's database -/

theorem KillOk.dbStep (hok : KillOk setting before)
    (hsame : remoteStops db = remoteStops before.db) :
    KillOk setting { before with db } where
  ids := hok.ids
  digests := hok.digests
  payloads := hok.payloads
  responses := hok.responses
  verified := hok.verified
  answering := fun payload hphase => (hok.answering payload hphase).congr hsame
  acks := fun ack hack => (hok.acks ack hack).congr hsame
  finished := hok.finished
  events := by
    intro event hevent
    rw [hsame] at hevent
    exact hok.events event hevent
  once := by
    have honce := hok.once
    rw [← hsame] at honce
    exact honce
  activations := hok.activations

theorem remoteStops_setLocally
    (hset : Kernel.setAutomationKillSwitch db active .localOperator reasonCode none now =
      .ok (later, event, replayed)) : remoteStops later = remoteStops db := by
  obtain ⟨_, _, ⟨_, rfl⟩ | ⟨_, rfl, _, hdigest, _⟩⟩ := Kernel.setAutomationKillSwitch_eq_ok hset
  · rfl
  · unfold remoteStops
    rw [List.filter_append, List.filter_singleton, hdigest]
    simp

/-! ## Activation -/

section Activation

variable {command : Kernel.VerifiedKillSwitchCommand}

/-- An activation finds the stop of its command in the log, or appends it. -/
theorem activate_eq_ok (hactivate : Kernel.activateControlPlaneKillSwitch db command now =
      .ok (later, event, replayed)) :
    ¬Refuses command now ∧
      (later = db ∧ Stopped db command.envelopeDigest ∨
        later = { db with killEvents := db.killEvents ++ [event] } ∧ event.active = true ∧
          event.source = .vercelSignedKill ∧ event.commandDigest = some command.envelopeDigest ∧
          Kernel.digestValid command.envelopeDigest = true ∧
          ¬Stopped db command.envelopeDigest) := by
  have hset := Kernel.activateControlPlaneKillSwitch_eq_ok hactivate
  have hadmitted : ¬Refuses command now := by
    unfold Kernel.activateControlPlaneKillSwitch at hactivate
    split at hactivate
    · cases hactivate
    next hbegun =>
    split at hactivate
    · cases hactivate
    · next hopen => exact not_or.mpr ⟨hbegun, hopen⟩
  refine ⟨hadmitted, ?_⟩
  unfold Kernel.setAutomationKillSwitch at hset
  split at hset
  · cases hset
  split at hset
  · cases hset
  split at hset
  · cases hset
  next hvalid =>
  simp only [Option.bind_some] at hset
  split at hset
  · next found hfind =>
    split at hset
    · cases hset
    cases hset
    exact .inl ⟨rfl, event, List.mem_of_find?_eq_some hfind,
      by simpa using List.find?_some hfind⟩
  · next hfind =>
    split at hset
    · next hnone => cases hnone
    · cases hset
      refine .inr ⟨rfl, rfl, rfl, rfl, by simpa using hvalid, ?_⟩
      rintro ⟨stored, hstored, hdigest⟩
      rw [List.find?_eq_none] at hfind
      exact hfind stored hstored (decide_eq_true hdigest)

/-- A refused activation refuses its instant, or the stop is not in the log. -/
theorem activate_eq_error
    (hremote : ∀ event ∈ db.killEvents, ∀ digest, event.commandDigest = some digest →
      event.active = true ∧ event.source = .vercelSignedKill ∧ Kernel.digestValid digest = true)
    (hactivate : Kernel.activateControlPlaneKillSwitch db command now = .error error) :
    Refuses command now ∨ ¬Stopped db command.envelopeDigest := by
  unfold Kernel.activateControlPlaneKillSwitch at hactivate
  split at hactivate
  · next hbegun => exact .inl (.inl hbegun)
  · split at hactivate
    · next hopen => exact .inl (.inr hopen)
    · right
      rintro ⟨stored, hstored, hdigest⟩
      obtain ⟨hactive, hsource, hvalid⟩ := hremote stored hstored _ hdigest
      have hreason : Kernel.reasonValid "REMOTE_OPERATOR_KILL" = true := by decide
      unfold Kernel.setAutomationKillSwitch at hactivate
      rw [if_neg (by simp [hreason]), if_neg (by simp), if_neg (by simp [hvalid])] at hactivate
      simp only [Option.bind_some] at hactivate
      split at hactivate
      · next found hfind =>
        have hfound : found.commandDigest = some command.envelopeDigest := by
          simpa using List.find?_some hfind
        obtain ⟨hfoundActive, hfoundSource, _⟩ :=
          hremote found (List.mem_of_find?_eq_some hfind) _ hfound
        rw [if_neg (by simp [hfoundActive, hfoundSource])] at hactivate
        cases hactivate
      · next hfind =>
        rw [List.find?_eq_none] at hfind
        exact hfind stored hstored (decide_eq_true hdigest)

end Activation

theorem stopped_concat (hmade : event.commandDigest = some made) :
    Stopped { db with killEvents := db.killEvents ++ [event] } digest ↔
      Stopped db digest ∨ digest = made := by
  unfold Stopped
  simp only [List.mem_append, List.mem_singleton]
  constructor
  · rintro ⟨found, hold | rfl, hdigest⟩
    · exact .inl ⟨found, hold, hdigest⟩
    · rw [hmade, Option.some.injEq] at hdigest
      exact .inr hdigest.symm
  · rintro (⟨found, hfound, hdigest⟩ | rfl)
    · exact ⟨found, .inl hfound, hdigest⟩
    · exact ⟨event, .inr rfl, hmade⟩

/-- An answer given before the stop of another command stays right. -/
theorem Answered.concat (hanswered : Answered setting tables db payload)
    (hmade : event.commandDigest = some made)
    (hother : payload.ackStatus = .rejected → ∀ entry ∈ tables.issued,
      entry.1 = payload.commandId → setting.digest entry.2 ≠ made) :
    Answered setting tables { db with killEvents := db.killEvents ++ [event] } payload := by
  obtain ⟨entry, hentry, hid, hreceived, hrejected⟩ := hanswered
  refine ⟨entry, hentry, hid, ?_, ?_⟩
  · intro hstatus
    exact (stopped_concat hmade).mpr (.inl (hreceived hstatus))
  · intro hstatus hstopped
    rcases (stopped_concat hmade).mp hstopped with hold | hsame
    · exact hrejected hstatus hold
    · exact hother hstatus entry hentry hid hsame

theorem remoteStops_concat (hremote : event.commandDigest.isSome = true) :
    remoteStops { db with killEvents := db.killEvents ++ [event] } = remoteStops db ++ [event] := by
  unfold remoteStops
  rw [List.filter_append, List.filter_singleton, hremote]
  rfl

theorem KillOk.remote (hok : KillOk setting before) : ∀ event ∈ before.db.killEvents,
    ∀ digest, event.commandDigest = some digest →
      event.active = true ∧ event.source = .vercelSignedKill ∧
        Kernel.digestValid digest = true := by
  intro event hevent digest hdigest
  have hstop : event ∈ remoteStops before.db := by
    apply List.mem_filter.mpr ⟨hevent, _⟩
    rw [hdigest]
    rfl
  have hstopOk := hok.events event hstop digest hdigest
  exact ⟨hstopOk.active, hstopOk.source, hstopOk.valid⟩

theorem KillOk.entry_of_digest (hok : KillOk setting before)
    (hnamed : NamedBy setting before.cloud.business command)
    (hentry : entry ∈ before.cloud.business.issued)
    (hdigest : setting.digest entry.2 = command.envelopeDigest) :
    entry.1 = command.commandId := by
  obtain ⟨named, hnamed, hid, hnamedDigest, _⟩ := hnamed
  have hsame : entry = named :=
    List.inj_on_of_nodup_map hok.digests hentry hnamed (hdigest.trans hnamedDigest.symm)
  rw [hsame]
  exact hid

theorem NamedBy.answer (hnamed : NamedBy setting before.cloud.business command) (db : Store.Db)
    (hstate : (ackStatus = .received → Stopped db command.envelopeDigest) ∧
      (ackStatus = .rejected → ¬Stopped db command.envelopeDigest)) :
    Answered setting before.cloud.business db ⟨command.commandId, ackStatus⟩ := by
  obtain ⟨entry, hentry, hid, hdigest, _⟩ := hnamed
  refine ⟨entry, hentry, hid, ?_⟩
  rw [hdigest]
  exact hstate

section

variable (hok : KillOk setting before)
include hok

/-- A stop goes into the log, and the runner answers that it did. -/
theorem KillOk.stop (hboot : command.runnerBootId = before.bootId)
    (hnamed : NamedBy setting before.cloud.business command) (hactive : event.active = true)
    (hsource : event.source = .vercelSignedKill)
    (hdigest : event.commandDigest = some command.envelopeDigest)
    (hvalid : Kernel.digestValid command.envelopeDigest = true)
    (hnew : ¬Stopped before.db command.envelopeDigest)
    (hunrejected : ∀ ack ∈ before.acks, ack.payload ≠ ⟨command.commandId, .rejected⟩) :
    KillOk setting { before with
      db := { before.db with killEvents := before.db.killEvents ++ [event] }
      activations := ⟨before.bootId, command⟩ :: before.activations
      phase := .answering ⟨command.commandId, .received⟩ } where
  ids := hok.ids
  digests := hok.digests
  payloads := hok.payloads
  responses := hok.responses
  verified := fun _ hphase => nomatch hphase
  answering := by
    intro payload hphase
    cases hphase
    apply hnamed.answer
    refine ⟨fun _ => ?_, nofun⟩
    exact (stopped_concat hdigest).mpr (.inr rfl)
  acks := by
    intro ack hack
    apply (hok.acks ack hack).concat hdigest
    intro hstatus entry hentry hid hsame
    apply hunrejected ack hack
    have hcommand := hok.entry_of_digest hnamed hentry hsame
    rw [← hcommand, hid, ← hstatus]
  finished := hok.finished
  events := by
    intro found hfound digest hfoundDigest
    rw [remoteStops_concat (by rw [hdigest]; rfl)] at hfound
    rcases List.mem_append.mp hfound with hold | hlast
    · obtain ⟨hactive, hsource, hvalid, activation, hactivation, hsame⟩ :=
        hok.events found hold digest hfoundDigest
      exact ⟨hactive, hsource, hvalid, activation, List.mem_cons_of_mem _ hactivation, hsame⟩
    · rw [List.mem_singleton] at hlast
      subst hlast
      rw [hdigest, Option.some.injEq] at hfoundDigest
      subst hfoundDigest
      exact ⟨hactive, hsource, hvalid, _, List.mem_cons_self, rfl⟩
  once := by
    have hlast : [event].filterMap Store.KillSwitchEvent.commandDigest =
        [command.envelopeDigest] := by simp [hdigest]
    rw [remoteStops_concat (by rw [hdigest]; rfl), List.filterMap_append, hlast,
      ← List.concat_eq_append, List.nodup_concat]
    refine ⟨?_, hok.once⟩
    intro hmem
    obtain ⟨found, hfound, hsame⟩ := List.mem_filterMap.mp hmem
    exact hnew (stopped_iff.mpr ⟨found, hfound, hsame⟩)
  activations := by
    intro activation hactivation
    rcases List.mem_cons.mp hactivation with rfl | hold
    · exact ⟨hboot, hnamed⟩
    · exact hok.activations activation hold

/-- A repeated delivery finds its stop in the log, and the runner answers that it did. -/
theorem KillOk.replay (hboot : command.runnerBootId = before.bootId)
    (hnamed : NamedBy setting before.cloud.business command)
    (hstopped : Stopped before.db command.envelopeDigest) :
    KillOk setting { before with
      activations := ⟨before.bootId, command⟩ :: before.activations
      phase := .answering ⟨command.commandId, .received⟩ } :=
  { hok with
    verified := fun _ hphase => nomatch hphase
    answering := by
      intro payload hphase
      cases hphase
      exact hnamed.answer _ ⟨fun _ => hstopped, nofun⟩
    events := by
      intro event hevent digest hdigest
      obtain ⟨hactive, hsource, hvalid, activation, hactivation, hsame⟩ :=
        hok.events event hevent digest hdigest
      exact ⟨hactive, hsource, hvalid, activation, List.mem_cons_of_mem _ hactivation, hsame⟩
    activations := by
      intro activation hactivation
      rcases List.mem_cons.mp hactivation with rfl | hold
      · exact ⟨hboot, hnamed⟩
      · exact hok.activations activation hold }

/-- The runner answers that a command without a stop failed. -/
theorem KillOk.reject (hnamed : NamedBy setting before.cloud.business command)
    (hclear : ¬Stopped before.db command.envelopeDigest) :
    KillOk setting { before with phase := .answering ⟨command.commandId, .rejected⟩ } := by
  refine hok.move (fun _ hphase => nomatch hphase) ?_ (List.Subset.refl _) hok.acks
  rintro payload ⟨⟩
  exact hnamed.answer _ ⟨nofun, fun _ => hclear⟩

theorem KillOk.activateStep (hphase : before.phase = .verified command)
    (hagree : DeliveriesAgree before (.activate now fault)) :
    KillOk setting (activateKillSwitch before command now fault) := by
  obtain ⟨hfails, hcommits, hsucceeds⟩ := hagree command hphase
  obtain ⟨hboot, hnamed⟩ := hok.verified command hphase
  unfold activateKillSwitch
  cases hactivate : Kernel.activateControlPlaneKillSwitch before.db command now with
  | error error =>
    apply hok.reject hnamed
    rcases activate_eq_error hok.remote hactivate with hrefuses | hclear
    · exact hfails (.inl hrefuses)
    · exact hclear
  | ok result =>
    obtain ⟨later, event, replayed⟩ := result
    obtain ⟨hadmitted, heffect⟩ := activate_eq_ok hactivate
    cases fault with
    | beforeCommit => exact hok.reject hnamed (hfails (.inr nofun))
    | afterCommit => exact absurd rfl (hcommits hadmitted)
    | none =>
      rcases heffect with ⟨rfl, hstopped⟩ | ⟨rfl, hactive, hsource, hdigest, hvalid, hnew⟩
      · exact hok.replay hboot hnamed hstopped
      · exact hok.stop hboot hnamed hactive hsource hdigest hvalid hnew
          (hsucceeds ⟨hadmitted, rfl⟩)

end

theorem activateKillSwitch_grown (command : Kernel.VerifiedKillSwitchCommand) (now : Timestamp)
    (fault : ActivationFault) :
    before.db.killEvents <+: (activateKillSwitch before command now fault).db.killEvents := by
  unfold activateKillSwitch
  cases hactivate : Kernel.activateControlPlaneKillSwitch before.db command now with
  | error error => exact List.prefix_rfl
  | ok result =>
    have hgrown : before.db.killEvents <+: result.1.killEvents := by
      rcases (activate_eq_ok hactivate).2 with ⟨hsame, _⟩ | ⟨hadded, _⟩
      · simp only [hsame, List.prefix_rfl]
      · rw [hadded]
        exact List.prefix_append _ _
    cases fault
    · exact hgrown
    · exact List.prefix_rfl
    · exact hgrown

/-! ## Every step -/

/-- What the environment promises, and the condition on the deliveries. -/
def KillGuard (setting : KillSetting) (state : KillState) (action : KillAction) : Prop :=
  FreshMint setting state action ∧ DeliveriesAgree state action

def LogGrown (before after : KillState) : Prop :=
  before.db.killEvents <+: after.db.killEvents

/-- Every step keeps the invariant and only appends to the log. -/
theorem KillOk.step (hok : KillOk setting before) (hguard : KillGuard setting before action)
    (hstep : performKill setting before action = some after) :
    KillOk setting after ∧ LogGrown before after := by
  obtain ⟨hfresh, hagree⟩ := hguard
  cases action with
  | device devices bootId status lastSeenAt =>
    cases hstep
    have hchange : KillTablesChange none before.cloud.business
        { before.cloud.business with bootId, status, lastSeenAt } := .same rfl
    exact ⟨hok.cloudStep hchange hok.ids hok.digests nofun, List.prefix_rfl⟩
  | mint idempotencyDigest minting now =>
    simp only [performKill] at hstep
    split at hstep
    · cases hstep
      exact ⟨hok, List.prefix_rfl⟩
    · next tables hcreate =>
      cases hstep
      exact ⟨hok.mintStep hfresh hcreate, List.prefix_rfl⟩
  | sendPoll envelope =>
    simp only [performKill] at hstep
    split at hstep <;> cases hstep
    exact ⟨{ hok with }, List.prefix_rfl⟩
  | deliverPoll envelope locked now =>
    simp only [performKill] at hstep
    split at hstep <;> cases hstep
    obtain ⟨hchange, hissued, hdelivered⟩ := pollKillSwitchCommand_change
      setting.verifyPoll before.cloud setting.settings envelope locked now
    have hpolled := hok.cloudStep hchange (hissued ▸ hok.ids) (hissued ▸ hok.digests) nofun
    split
    · next command hcommand =>
      obtain ⟨id, hid⟩ := hdelivered command hcommand
      exact ⟨hpolled.respond (hissued ▸ hid), List.prefix_rfl⟩
    · exact ⟨hpolled, List.prefix_rfl⟩
  | receive envelope now =>
    simp only [performKill] at hstep
    split at hstep
    · next hready =>
      split at hstep
      · cases hstep
        exact ⟨hok, List.prefix_rfl⟩
      · next command hverify =>
        cases hstep
        exact ⟨hok.receiveStep hready.2 hverify, List.prefix_rfl⟩
    · cases hstep
  | activate now fault =>
    simp only [performKill] at hstep
    split at hstep
    · next command hphase =>
      cases hstep
      exact ⟨hok.activateStep hphase hagree, activateKillSwitch_grown command now fault⟩
    · cases hstep
  | sendAck envelope =>
    simp only [performKill] at hstep
    split at hstep
    · next hphase =>
      cases hstep
      refine ⟨hok.move (fun _ hverified => nomatch hverified)
        (fun _ hanswering => nomatch hanswering) (List.subset_cons_self _ _) fun ack hack => ?_,
        List.prefix_rfl⟩
      rcases List.mem_cons.mp hack with rfl | hold
      · exact hok.answering _ hphase
      · exact hok.acks ack hold
    · cases hstep
  | deliverAck envelope pathCommandId now =>
    simp only [performKill] at hstep
    split at hstep
    · next hsent =>
      cases hstep
      obtain ⟨hchange, hissued⟩ := acknowledgeKillSwitchCommand_change
        setting.verifyAck before.cloud setting.settings envelope pathCommandId now
      exact ⟨hok.cloudStep hchange (hissued ▸ hok.ids) (hissued ▸ hok.digests)
        fun payload hpayload => ⟨envelope, hsent, Option.some.inj hpayload⟩, List.prefix_rfl⟩
    · cases hstep
  | restart bootId =>
    simp only [performKill] at hstep
    split at hstep <;> cases hstep
    exact ⟨hok.move (fun _ hverified => nomatch hverified)
      (fun _ hanswering => nomatch hanswering) (List.Subset.refl _) hok.acks, List.prefix_rfl⟩
  | setLocally active reasonCode now =>
    simp only [performKill] at hstep
    split at hstep
    · cases hstep
      exact ⟨hok, List.prefix_rfl⟩
    · next hset =>
      cases hstep
      refine ⟨hok.dbStep (remoteStops_setLocally hset), ?_⟩
      obtain ⟨_, _, ⟨_, rfl⟩ | ⟨_, rfl, _⟩⟩ := Kernel.setAutomationKillSwitch_eq_ok hset
      · exact List.prefix_rfl
      · exact List.prefix_append _ _
  | other later =>
    simp only [performKill] at hstep
    split at hstep
    · next hsame =>
      cases hstep
      refine ⟨hok.dbStep ?_, ?_⟩
      · rw [remoteStops, remoteStops, hsame]
      · simp only [LogGrown, hsame, List.prefix_rfl]
    · cases hstep

theorem killOk_invariant (setting : KillSetting) :
    (killSystem setting).Invariant (KillGuard setting) (KillOk setting) where
  init := fun _ hinitial => KillOk.initial hinitial
  step := fun _ _ _ hok hguard hstep => (hok.step hguard hstep).1

/-! ## The truth about a stop -/

variable (setting) in
/-- What the cloud and the log say of every command. -/
structure StopTruth (state : KillState) : Prop where
  acknowledged : ∀ command ∈ state.cloud.business.killCommands, command.status = .acknowledged →
    ∃ event ∈ state.db.killEvents, event.active = true ∧
      event.commandDigest = some (setting.digest command.signedEnvelope)
  rejected : ∀ command ∈ state.cloud.business.killCommands, command.status = .rejected →
    ¬Stopped state.db (setting.digest command.signedEnvelope)
  one_event : ∀ command ∈ state.cloud.business.killCommands,
    state.db.killEvents.countP (fun event =>
      event.commandDigest = some (setting.digest command.signedEnvelope)) ≤ 1
  activated : ∀ command ∈ state.cloud.business.killCommands,
    Stopped state.db (setting.digest command.signedEnvelope) →
      ∃ activation ∈ state.activations,
        activation.command.envelopeDigest = setting.digest command.signedEnvelope
  own_boot : ∀ command ∈ state.cloud.business.killCommands,
    ∀ activation ∈ state.activations,
      activation.command.envelopeDigest = setting.digest command.signedEnvelope →
        activation.bootId = command.runnerBootId
  clears : ∀ reasonCode now later event replayed,
    Kernel.setAutomationKillSwitch state.db false .localOperator reasonCode none now =
      .ok (later, event, replayed) → Kernel.killSwitchActive later = false

variable (setting) in
/-- The log only grows, and never again by a command that it has. -/
def ClearsHold (state later : KillState) : Prop :=
  state.db.killEvents <+: later.db.killEvents ∧
    ∀ command ∈ state.cloud.business.killCommands,
      Stopped state.db (setting.digest command.signedEnvelope) →
        ∀ event ∈ later.db.killEvents.drop state.db.killEvents.length,
          event.commandDigest ≠ some (setting.digest command.signedEnvelope)

theorem KillOk.issued_of_mem (hcommand : command ∈ state.cloud.business.killCommands) :
    (command.id, command.signedEnvelope) ∈ state.cloud.business.issued :=
  List.mem_map_of_mem hcommand

/-- An answer about a stored command is about its envelope. -/
theorem KillOk.answered (hok : KillOk setting before)
    (hcommand : command ∈ before.cloud.business.killCommands)
    (hstatus : command.status = ackStatus.commandStatus) :
    (ackStatus = .received → Stopped before.db (setting.digest command.signedEnvelope)) ∧
      (ackStatus = .rejected → ¬Stopped before.db (setting.digest command.signedEnvelope)) := by
  obtain ⟨ack, hack, hpayload⟩ := hok.finished command hcommand ackStatus hstatus
  obtain ⟨entry, hentry, hid, hstate⟩ := hok.acks ack hack
  rw [hpayload] at hid hstate
  have hsame : entry = (command.id, command.signedEnvelope) :=
    List.inj_on_of_nodup_map hok.ids hentry (KillOk.issued_of_mem hcommand) hid
  rw [hsame] at hstate
  exact hstate

theorem KillOk.once_log (hok : KillOk setting before) :
    (before.db.killEvents.filterMap Store.KillSwitchEvent.commandDigest).Nodup := by
  have honce := hok.once
  have hsame : (remoteStops before.db).filterMap Store.KillSwitchEvent.commandDigest =
      before.db.killEvents.filterMap Store.KillSwitchEvent.commandDigest := by
    rw [remoteStops, List.filterMap_filter]
    apply List.filterMap_congr
    intro event _
    cases hdigest : event.commandDigest <;> simp
  rw [hsame] at honce
  exact honce

theorem KillOk.own_boot (hok : KillOk setting before)
    (hcommand : command ∈ before.cloud.business.killCommands)
    (hactivation : activation ∈ before.activations)
    (hsame : activation.command.envelopeDigest = setting.digest command.signedEnvelope) :
    activation.bootId = command.runnerBootId := by
  obtain ⟨hboot, entry, hentry, _, hdigest, haddressed⟩ := hok.activations activation hactivation
  have hentryEq : entry = (command.id, command.signedEnvelope) :=
    List.inj_on_of_nodup_map hok.digests hentry (KillOk.issued_of_mem hcommand)
      (hdigest.trans hsame)
  rw [← hboot, ← haddressed, hentryEq, hok.payloads command hcommand]

theorem clear_inactive
    (hclear : Kernel.setAutomationKillSwitch db false .localOperator reasonCode none now =
      .ok (later, event, replayed)) : Kernel.killSwitchActive later = false := by
  unfold Kernel.setAutomationKillSwitch at hclear
  split at hclear
  · cases hclear
  split at hclear
  · cases hclear
  split at hclear
  · cases hclear
  simp only [Option.bind_none] at hclear
  unfold Kernel.killSwitchActive
  split at hclear
  · next hlatest _ =>
    split at hclear
    · next hinactive =>
      cases hclear
      rw [hlatest]
      exact hinactive
    · cases hclear
      rw [Kernel.latestKillSwitchEvent] at hlatest ⊢
      rw [latestBy_concat, hlatest]
      simp
  · next hlatest =>
    cases hclear
    have hnone : Kernel.latestKillSwitchEvent db = none := by
      cases hfound : Kernel.latestKillSwitchEvent db with
      | none => rfl
      | some latest => exact absurd rfl (hlatest latest hfound)
    rw [Kernel.latestKillSwitchEvent] at hnone ⊢
    rw [latestBy_concat, hnone]
    rfl

theorem KillOk.truth (hok : KillOk setting before) : StopTruth setting before where
  acknowledged := by
    intro command hcommand hstatus
    have hreceived : command.status = CommandAckStatus.received.commandStatus := hstatus
    obtain ⟨event, hevent, hdigest⟩ := (hok.answered hcommand hreceived).1 rfl
    exact ⟨event, hevent, (hok.remote event hevent _ hdigest).1, hdigest⟩
  rejected := by
    intro command hcommand hstatus
    have hrejected : command.status = CommandAckStatus.rejected.commandStatus := hstatus
    exact (hok.answered hcommand hrejected).2 rfl
  one_event := by
    intro command _
    have hcount := List.nodup_iff_count_le_one.mp hok.once_log
      (setting.digest command.signedEnvelope)
    rw [List.count_filterMap] at hcount
    refine le_trans (le_of_eq ?_) hcount
    apply List.countP_congr
    intro event _
    simp
  activated := by
    intro command _ hstopped
    obtain ⟨event, hevent, hdigest⟩ := stopped_iff.mp hstopped
    exact (hok.events event hevent _ hdigest).activated
  own_boot := fun command hcommand activation hactivation hsame =>
    hok.own_boot hcommand hactivation hsame
  clears := fun _ _ _ _ _ hclear => clear_inactive hclear

theorem killEvents_path (hok : KillOk setting state)
    (hpath : (killSystem setting).Path (KillGuard setting) state later) : LogGrown state later := by
  refine (killOk_invariant setting).path_rel ?_ ?_ ?_ hok hpath
  · intro state
    exact List.prefix_rfl
  · intro first second third hfirst hsecond
    exact List.IsPrefix.trans hfirst hsecond
  · intro before action after hok hguard hstep
    exact (hok.step hguard hstep).2

/-- A log without repeated commands has no second entry of one behind the first. -/
theorem ne_of_mem_drop (hextends : events <+: later)
    (honce : (later.filterMap Store.KillSwitchEvent.commandDigest).Nodup)
    (hrecorded : ∃ event ∈ events, event.commandDigest = some digest) :
    ∀ event ∈ later.drop events.length, event.commandDigest ≠ some digest := by
  obtain ⟨added, rfl⟩ := hextends
  rw [List.filterMap_append, List.nodup_append] at honce
  obtain ⟨recorded, hmem, hdigest⟩ := hrecorded
  rw [List.drop_left]
  intro event hevent hsame
  exact honce.2.2 digest (List.mem_filterMap.mpr ⟨recorded, hmem, hdigest⟩) digest
    (List.mem_filterMap.mpr ⟨event, hevent, hsame⟩) rfl

/-- In every run in which the deliveries of each command end alike, the cloud tells the
truth about every stop, and no later delivery undoes a local clear. -/
theorem kill_switch_truthful (setting : KillSetting) {state : KillState}
    (hreach : (killSystem setting).Reachable (KillGuard setting) state) :
    StopTruth setting state ∧
      ∀ later, (killSystem setting).Path (KillGuard setting) state later →
        ClearsHold setting state later := by
  have hok := (killOk_invariant setting).reachable hreach
  refine ⟨hok.truth, ?_⟩
  intro later hpath
  have hlater := (killOk_invariant setting).path hok hpath
  have hextends := killEvents_path hok hpath
  refine ⟨hextends, ?_⟩
  intro command _ hstopped
  exact ne_of_mem_drop hextends hlater.once_log hstopped

/-! ### Two runs -/

def sampleDigest : String :=
  "0123456789abcdef0123456789abcdef0123456789abcdef0123456789abcdef"

/-- Every signature verifies, and the one command of the runs has one digest. -/
def sampleSetting : KillSetting where
  verifyPoll := fun _ _ _ => true
  verifyAck := fun _ _ _ => true
  verifyCommand := fun _ _ _ => true
  digest := fun _ => sampleDigest
  settings := {
    runnerDeviceId := "runner"
    runnerVerifyPublicKey := "runner-key"
    controlSigningKeyId := "control"
    runnerOfflineAfter := minute }
  keys := { controlSigningKeyId := "control", controlPlanePublicKey := "control-key" }

def sampleKillState : KillState where
  cloud := {
    schemaRevisions := [expectedSchemaRevision]
    devices := []
    nonces := []
    business := { bootId := none, status := none, lastSeenAt := none, killCommands := [] } }
  polls := []
  responses := []
  acks := []
  bootId := "boot"
  boots := ["boot"]
  phase := .idle
  db := {
    applications := [], formPlans := [], submissions := [], applicationRefs := [],
    reviewGrants := [], receipts := [], outbox := [], policies := [], decisions := [],
    killEvents := [], canaryAuthorizations := [] }
  activations := []

theorem sampleKillState_initial : KillInitial sampleKillState :=
  ⟨rfl, rfl, rfl, rfl, rfl, nofun⟩

def runnerHeard (now : Timestamp) : KillAction :=
  .device [{ id := "runner", publicKeyB64 := "runner-key", active := true, createdAt := 0 }]
    (some "boot") (some .ready) (some now)

def samplePoll (nonce : String) (now : Timestamp) : SignedEnvelope CommandPollPayload where
  keyId := "runner"
  purpose := .runnerCommandPoll
  audience := controlAudience
  issuedAt := now
  expiresAt := now + minute
  nonce := nonce
  payload := { bootId := "boot" }
  signature := "signature"

def sampleMinting : Minting where
  commandId := "command"
  nonce := "nonce"
  signature := "signature"

def sampleKillEnvelope : KillSwitchCommandEnvelope :=
  (mintedCommand sampleSetting.settings "key" "boot" sampleMinting second).signedEnvelope

def sampleAck (nonce : String) (ackStatus : CommandAckStatus) (now : Timestamp) :
    SignedEnvelope CommandAckPayload where
  keyId := "runner"
  purpose := .runnerCommandAck
  audience := controlAudience
  issuedAt := now
  expiresAt := now + minute
  nonce := nonce
  payload := { commandId := "command", ackStatus := ackStatus }
  signature := "signature"

/-- Deliver the command at an instant; it is activated a little later. -/
def deliverOnce (nonce : String) (polledAt activatedAt : Timestamp) : List KillAction :=
  [.sendPoll (samplePoll nonce polledAt), .deliverPoll (samplePoll nonce polledAt) [] polledAt,
    .receive sampleKillEnvelope (polledAt + second), .activate activatedAt .none]

def mintsFirst (state : KillState) : KillAction → Bool
  | .mint _ _ _ => state.cloud.business.issued.isEmpty
  | _ => true

theorem freshMint_of_first (hfirst : mintsFirst state action = true) :
    FreshMint setting state action := by
  cases action with
  | mint idempotencyDigest minting now =>
    intro bootId entry hentry
    rw [mintsFirst, List.isEmpty_iff] at hfirst
    rw [hfirst] at hentry
    cases hentry
  | _ => trivial

/-- An activation succeeds, with no answer on its way. -/
def activatesFirst (state : KillState) : KillAction → Bool
  | .activate now fault =>
    match state.phase with
    | .verified command => decide (command.issuedAt ≤ now + Kernel.maxClockSkew)
        && decide (now < command.expiresAt) && decide (fault = .none) && state.acks.isEmpty
    | _ => true
  | _ => true

theorem agree_of_first (hfirst : activatesFirst state action = true) :
    DeliveriesAgree state action := by
  cases action with
  | activate now fault =>
    intro command hphase
    simp only [activatesFirst, hphase, Bool.and_eq_true, decide_eq_true_eq,
      List.isEmpty_iff] at hfirst
    obtain ⟨⟨⟨hbegun, hopen⟩, rfl⟩, hacks⟩ := hfirst
    have hadmitted : ¬Refuses command now :=
      not_or.mpr ⟨not_lt.mpr hbegun, not_le.mpr hopen⟩
    refine ⟨?_, fun _ => nofun, ?_⟩
    · rintro (hrefuses | hfault)
      · exact absurd hrefuses hadmitted
      · exact absurd rfl hfault
    · rintro _ ack hack
      rw [hacks] at hack
      cases hack
  | _ => trivial

/-- The command is delivered, activated and acknowledged. -/
def acknowledgedRun : List KillAction :=
  [runnerHeard 0, .mint "key" sampleMinting second] ++
    deliverOnce "first" (2 * second) (4 * second) ++
    [.sendAck (sampleAck "first" .received (5 * second)),
      .deliverAck (sampleAck "first" .received (5 * second)) "command" (5 * second)]

/-- The acknowledgement is lost, and the command is delivered again right before its
five minutes are over and activated right after. -/
def rejectedRun : List KillAction :=
  [runnerHeard 0, .mint "key" sampleMinting second] ++
    deliverOnce "first" (2 * second) (4 * second) ++
    [.sendAck (sampleAck "first" .received (5 * second)), runnerHeard (290 * second)] ++
    deliverOnce "second" (299 * second) (301 * second) ++
    [.sendAck (sampleAck "second" .rejected (301 * second)),
      .deliverAck (sampleAck "second" .rejected (301 * second)) "command" (302 * second)]

def endOf (check : KillState → KillAction → Bool) (labels : List KillAction) : KillState :=
  TransitionSystem.runEnd (performKill sampleSetting) check sampleKillState labels

theorem kill_switch_truthful_sample :
    ((endOf (fun state action => mintsFirst state action && activatesFirst state action)
      acknowledgedRun).cloud.business.killCommands.map ControlKillSwitchCommand.status =
        [.acknowledged]) ∧
    StopTruth sampleSetting
      (endOf (fun state action => mintsFirst state action && activatesFirst state action)
        acknowledgedRun) := by
  refine ⟨by decide, (kill_switch_truthful sampleSetting ?_).1⟩
  apply TransitionSystem.runEnd_reachable
  · intro before action after hstep
    exact hstep
  · intro state action hcheck
    rw [Bool.and_eq_true] at hcheck
    exact ⟨freshMint_of_first hcheck.1, agree_of_first hcheck.2⟩
  · exact sampleKillState_initial

/-- A stop that took effect is reported as rejected. -/
theorem stop_reported_rejected :
    ∃ state, (killSystem sampleSetting).Reachable (FreshMint sampleSetting) state ∧
      ¬StopTruth sampleSetting state := by
  refine ⟨endOf mintsFirst rejectedRun, ?_, ?_⟩
  · apply TransitionSystem.runEnd_reachable
    · intro before action after hstep
      exact hstep
    · intro state action hcheck
      exact freshMint_of_first hcheck
    · exact sampleKillState_initial
  · intro htruth
    have hcommands : ∃ command ∈ (endOf mintsFirst rejectedRun).cloud.business.killCommands,
        command.status = .rejected := by decide
    have hevents : ∃ event ∈ (endOf mintsFirst rejectedRun).db.killEvents,
        event.commandDigest = some sampleDigest := by decide
    obtain ⟨command, hcommand, hstatus⟩ := hcommands
    exact htruth.rejected command hcommand hstatus hevents

end JobApplyAgent.ControlPlane
