import JobApplyAgent.Domain.Contracts
import JobApplyAgent.Library.Fallible

/-!
# Signed envelopes

Purpose-separated envelopes, their verification, and the authentication of a
runner's envelope by the control plane, which spends the nonce of the envelope
before any business operation runs.
-/

namespace JobApplyAgent.ControlPlane

open Domain Library

inductive EnvelopePurpose where
  | runnerHeartbeat
  | runnerReviewGrant
  | runnerReviewGrantRevocation
  | runnerCommandPoll
  | runnerCommandAck
  | runnerEvent
  | controlCommand
  | controlKillCommand
  deriving DecidableEq

/-- The canonical content that a signature covers. -/
structure UnsignedEnvelope (π : Type) where
  keyId : String
  purpose : EnvelopePurpose
  audience : String
  issuedAt : Timestamp
  expiresAt : Timestamp
  nonce : String
  payload : π
  deriving DecidableEq

structure SignedEnvelope (π : Type) extends UnsignedEnvelope π where
  signature : String
  deriving DecidableEq

def maxEnvelopeTtl : Timestamp := 5 * minute

def maxClockSkew : Timestamp := 30 * second

inductive ProtocolVerificationError where
  | purposeMismatch
  | audienceMismatch
  | issuedAtInTheFuture
  | invalidExpiryOrdering
  | lifetimeExceedsFiveMinutes
  | envelopeExpired
  | signatureMissing
  | signatureInvalid

/-- Ed25519: decode the key and the signature and check the canonical content. -/
abbrev Verify (π : Type) := String → UnsignedEnvelope π → String → Bool

variable {π β : Type}

/-- Check purpose, audience, lifetime, clock bounds and signature. -/
def verifyEnvelope (verify : Verify π) (envelope : SignedEnvelope π) (publicKey : String)
    (expectedPurpose : EnvelopePurpose) (expectedAudience : String) (checkedAt : Timestamp) :
    Except ProtocolVerificationError Unit :=
  if envelope.purpose ≠ expectedPurpose then
    .error .purposeMismatch
  else if envelope.audience ≠ expectedAudience then
    .error .audienceMismatch
  else if envelope.issuedAt > checkedAt + maxClockSkew then
    .error .issuedAtInTheFuture
  else if envelope.expiresAt ≤ envelope.issuedAt then
    .error .invalidExpiryOrdering
  else if envelope.expiresAt - envelope.issuedAt > maxEnvelopeTtl then
    .error .lifetimeExceedsFiveMinutes
  else if envelope.expiresAt ≤ checkedAt then
    .error .envelopeExpired
  else if envelope.signature = "" then
    .error .signatureMissing
  else if verify publicKey envelope.toUnsignedEnvelope envelope.signature then
    .ok ()
  else
    .error .signatureInvalid

/-- What an accepted envelope says. -/
structure Verified (verify : Verify π) (envelope : SignedEnvelope π) (publicKey : String)
    (expectedPurpose : EnvelopePurpose) (expectedAudience : String)
    (checkedAt : Timestamp) : Prop where
  purpose : envelope.purpose = expectedPurpose
  audience : envelope.audience = expectedAudience
  issued : envelope.issuedAt ≤ checkedAt + maxClockSkew
  ordered : envelope.issuedAt < envelope.expiresAt
  lifetime : envelope.expiresAt - envelope.issuedAt ≤ maxEnvelopeTtl
  unexpired : checkedAt < envelope.expiresAt
  signed : verify publicKey envelope.toUnsignedEnvelope envelope.signature = true

theorem verifyEnvelope_eq_ok
    (hverify : verifyEnvelope verify envelope publicKey expectedPurpose expectedAudience
      checkedAt = .ok ()) :
    Verified verify envelope publicKey expectedPurpose expectedAudience checkedAt := by
  unfold verifyEnvelope at hverify
  split at hverify
  · cases hverify
  next hpurpose =>
    split at hverify
    · cases hverify
    next haudience =>
      split at hverify
      · cases hverify
      next hissued =>
        split at hverify
        · cases hverify
        next hordered =>
          split at hverify
          · cases hverify
          next hlifetime =>
            split at hverify
            · cases hverify
            next hunexpired =>
              split at hverify
              · cases hverify
              split at hverify
              next hsigned =>
                exact ⟨not_not.mp hpurpose, not_not.mp haudience, not_lt.mp hissued,
                  not_le.mp hordered, not_lt.mp hlifetime, not_le.mp hunexpired, hsigned⟩
              · cases hverify

/-! ## The control plane's database -/

structure RunnerDevice where
  id : String
  publicKeyB64 : String
  active : Bool
  createdAt : Timestamp

structure RunnerNonce where
  deviceId : String
  purpose : EnvelopePurpose
  nonce : String
  issuedAt : Timestamp
  expiresAt : Timestamp
  seenAt : Timestamp

/-- The columns of `uq_control_runner_nonces_device_purpose_nonce`. -/
def RunnerNonce.key (row : RunnerNonce) : String × EnvelopePurpose × String :=
  (row.deviceId, row.purpose, row.nonce)

/-- The authentication tables; `business` stands for all the others. -/
structure Db (β : Type) where
  schemaRevisions : List String
  devices : List RunnerDevice
  nonces : List RunnerNonce
  business : β

/-- A database session: what is committed and what the open transaction sees. -/
structure Session (β : Type) where
  committed : Db β
  working : Db β

namespace Session

def commit (session : Session β) : Session β :=
  { session with committed := session.working }

def rollback (session : Session β) : Session β :=
  { session with working := session.committed }

end Session

structure Settings where
  runnerDeviceId : String
  runnerVerifyPublicKey : String

inductive ControlPlaneError where
  | runnerUnknown
  | runnerSignatureInvalid
  | schemaNotCurrent
  | runnerDisabled
  | runnerKeyMismatch
  | runnerReplayed

def expectedSchemaRevision : String := "0006_runner_operations_summary"

def controlAudience : String := "job-apply-control-plane"

def nonceRetention : Timestamp := 10 * minute

def configuredDevice (db : Db β) (settings : Settings) (now : Timestamp) :
    Except ControlPlaneError (Db β × RunnerDevice) :=
  match db.devices.find? fun row => decide (row.id = settings.runnerDeviceId) with
  | none =>
    let row : RunnerDevice :=
      { id := settings.runnerDeviceId
        publicKeyB64 := settings.runnerVerifyPublicKey
        active := true
        createdAt := now }
    .ok ({ db with devices := db.devices ++ [row] }, row)
  | some row =>
    if !row.active then
      .error .runnerDisabled
    else if row.publicKeyB64 ≠ settings.runnerVerifyPublicKey then
      .error .runnerKeyMismatch
    else
      .ok (db, row)

/-- Purge the old nonces and add the new one, whose key must be free. -/
def spendNonce (db : Db β) (nonce : RunnerNonce) (checkedAt : Timestamp) :
    Except ControlPlaneError (Db β) :=
  let kept := db.nonces.filter fun row => decide (checkedAt - nonceRetention ≤ row.expiresAt)
  if kept.any fun row => decide (row.key = nonce.key) then
    .error .runnerReplayed
  else
    .ok { db with nonces := kept ++ [nonce] }

/-- Authenticate a runner's envelope and commit its spent nonce. -/
def verifyRunnerEnvelope (verify : Verify π) (session : Session β) (settings : Settings)
    (envelope : SignedEnvelope π) (expectedPurpose : EnvelopePurpose) (checkedAt : Timestamp) :
    Except ControlPlaneError (Session β × RunnerDevice) :=
  if envelope.keyId ≠ settings.runnerDeviceId then
    .error .runnerUnknown
  else
    match verifyEnvelope verify envelope settings.runnerVerifyPublicKey expectedPurpose
        controlAudience checkedAt with
    | .error _ => .error .runnerSignatureInvalid
    | .ok () =>
      if session.working.schemaRevisions ≠ [expectedSchemaRevision] then
        .error .schemaNotCurrent
      else do
        let (registered, device) ← configuredDevice session.working settings checkedAt
        let spent ← spendNonce registered
          { deviceId := device.id
            purpose := envelope.purpose
            nonce := envelope.nonce
            issuedAt := envelope.issuedAt
            expiresAt := envelope.expiresAt
            seenAt := checkedAt } checkedAt
        return ({ session with working := spent }.commit, device)

theorem configuredDevice_eq_ok (hdevice : configuredDevice db settings now = .ok (after, device)) :
    after.nonces = db.nonces ∧ device.id = settings.runnerDeviceId := by
  unfold configuredDevice at hdevice
  split at hdevice
  · cases hdevice
    exact ⟨rfl, rfl⟩
  next row hrow =>
    split at hdevice
    · cases hdevice
    split at hdevice
    · cases hdevice
    cases hdevice
    exact ⟨rfl, by simpa using List.find?_some hrow⟩

theorem spendNonce_eq_ok (hspend : spendNonce db nonce now = .ok after) :
    after = { db with nonces := (db.nonces.filter fun row =>
        decide (now - nonceRetention ≤ row.expiresAt)) ++ [nonce] } ∧
      ∀ row ∈ db.nonces, now - nonceRetention ≤ row.expiresAt → row.key ≠ nonce.key := by
  unfold spendNonce at hspend
  simp only at hspend
  split at hspend
  · cases hspend
  next hfree =>
    refine ⟨(Except.ok.inj hspend).symm, ?_⟩
    intro row hrow hkept hsame
    apply hfree
    simp only [List.any_eq_true, List.mem_filter, decide_eq_true_eq]
    exact ⟨row, ⟨hrow, hkept⟩, hsame⟩

/-- The nonce row that an accepted envelope leaves. -/
def spentNonce (settings : Settings) (envelope : SignedEnvelope π) (checkedAt : Timestamp) :
    RunnerNonce where
  deviceId := settings.runnerDeviceId
  purpose := envelope.purpose
  nonce := envelope.nonce
  issuedAt := envelope.issuedAt
  expiresAt := envelope.expiresAt
  seenAt := checkedAt

/-- What the control plane has done when it accepts an envelope. -/
theorem verifyRunnerEnvelope_eq_ok
    (haccept : verifyRunnerEnvelope verify session settings envelope expectedPurpose checkedAt =
      .ok (later, device)) :
    Verified verify envelope settings.runnerVerifyPublicKey expectedPurpose controlAudience
        checkedAt ∧
      envelope.keyId = settings.runnerDeviceId ∧
      later.committed = later.working ∧
      later.working.nonces = (session.working.nonces.filter fun row =>
          decide (checkedAt - nonceRetention ≤ row.expiresAt)) ++
        [spentNonce settings envelope checkedAt] ∧
      ∀ row ∈ session.working.nonces, checkedAt - nonceRetention ≤ row.expiresAt →
        row.key ≠ (spentNonce settings envelope checkedAt).key := by
  unfold verifyRunnerEnvelope at haccept
  split at haccept
  · cases haccept
  next hkey =>
    split at haccept
    · cases haccept
    next hverify =>
      split at haccept
      · cases haccept
      obtain ⟨⟨registered, found⟩, hdevice, haccept⟩ := bind_eq_ok.mp haccept
      obtain ⟨spent, hspend, haccept⟩ := bind_eq_ok.mp haccept
      obtain ⟨hnonces, hid⟩ := configuredDevice_eq_ok hdevice
      obtain ⟨rfl, hfree⟩ := spendNonce_eq_ok hspend
      cases haccept
      rw [hnonces] at hfree
      refine ⟨verifyEnvelope_eq_ok hverify, not_not.mp hkey, rfl, ?_, ?_⟩
      · simp only [Session.commit, hnonces, hid, spentNonce]
      · simpa only [hid, spentNonce] using hfree

end JobApplyAgent.ControlPlane
