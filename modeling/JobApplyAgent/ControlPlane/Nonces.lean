import JobApplyAgent.ControlPlane.Envelope
import JobApplyAgent.Library.Transition
import Mathlib.Data.List.Nodup
import Mathlib.Tactic.Linarith

/-!
# Replay of signed envelopes

A runner signs envelopes under fresh nonces; the network delivers them in any
order and any number of times, next to forgeries.  The control plane accepts each
nonce once, although it purges its table of nonces on every call.
-/

namespace JobApplyAgent.ControlPlane

open Domain Library

variable {π β : Type}

/-- A delivery that the control plane accepted. -/
structure Acceptance (π : Type) where
  settings : Settings
  envelope : SignedEnvelope π
  checkedAt : Timestamp

namespace Acceptance

def row (acceptance : Acceptance π) : RunnerNonce :=
  spentNonce acceptance.settings acceptance.envelope acceptance.checkedAt

/-- The device, the purpose and the nonce. -/
def key (acceptance : Acceptance π) : String × EnvelopePurpose × String :=
  acceptance.row.key

end Acceptance

/-- `signed` is what the runner has signed, `readings` the clock at each delivery. -/
structure ReplayState (π β : Type) where
  session : Session β
  signed : List (UnsignedEnvelope π)
  readings : List Timestamp
  accepted : List (Acceptance π)

/-- One event of the runner, the network or the control plane. -/
inductive ReplayAction (π β : Type) where
  | sign (envelope : UnsignedEnvelope π)
  | deliver (settings : Settings) (envelope : SignedEnvelope π)
    (expectedPurpose : EnvelopePurpose) (now : Timestamp)
  | business (devices : List RunnerDevice → List RunnerDevice) (write : β → β)
  | commit
  | rollback

variable (verify : Verify π)

/-- An accepted delivery is recorded; a refused one ends its session. -/
def ReplayState.deliver (state : ReplayState π β) (settings : Settings)
    (envelope : SignedEnvelope π) (expectedPurpose : EnvelopePurpose) (now : Timestamp) :
    ReplayState π β :=
  let read := { state with readings := now :: state.readings }
  match verifyRunnerEnvelope verify state.session settings envelope expectedPurpose now with
  | .ok (session, _) =>
    { read with session, accepted := ⟨settings, envelope, now⟩ :: state.accepted }
  | .error _ => { read with session := state.session.rollback }

def ReplayState.perform (state : ReplayState π β) : ReplayAction π β → ReplayState π β
  | .sign envelope => { state with signed := envelope :: state.signed }
  | .deliver settings envelope expectedPurpose now =>
    state.deliver verify settings envelope expectedPurpose now
  | .business devices write =>
    let working := state.session.working
    { state with session := { state.session with working := { working with
      devices := devices working.devices
      business := write working.business } } }
  | .commit => { state with session := state.session.commit }
  | .rollback => { state with session := state.session.rollback }

/-- No message signed, no nonce spent. -/
structure ReplayInitial (state : ReplayState π β) : Prop where
  signed : state.signed = []
  accepted : state.accepted = []
  settled : state.session.committed.nonces = state.session.working.nonces

def replaySystem (β : Type) : TransitionSystem (ReplayState π β) (ReplayAction π β) where
  initial := ReplayInitial
  step := fun before action after => after = before.perform verify action

/-- What the environment promises: the runner draws a fresh nonce for each
signature, a signature that verifies was made by the runner, and the clock is
never more than ten minutes behind an earlier reading. -/
def Promised (state : ReplayState π β) : ReplayAction π β → Prop
  | .sign envelope => ∀ earlier ∈ state.signed, earlier.nonce ≠ envelope.nonce
  | .deliver settings envelope _ now =>
    (verify settings.runnerVerifyPublicKey envelope.toUnsignedEnvelope envelope.signature =
      true → envelope.toUnsignedEnvelope ∈ state.signed) ∧
    ∀ reading ∈ state.readings, reading - 10 * minute ≤ now
  | _ => True

/-- The nonce is in the table, or it was purged at a reading more than ten minutes
past its expiry. -/
def Spent (state : ReplayState π β) (acceptance : Acceptance π) : Prop :=
  acceptance.row ∈ state.session.committed.nonces ∨
    ∃ reading ∈ state.readings, acceptance.envelope.expiresAt < reading - nonceRetention

/-- The time bounds of an acceptance. -/
structure InTime (acceptance : Acceptance π) : Prop where
  unexpired : acceptance.checkedAt < acceptance.envelope.expiresAt
  issued : acceptance.envelope.issuedAt ≤ acceptance.checkedAt + 30 * second
  lifetime : acceptance.envelope.expiresAt - acceptance.envelope.issuedAt ≤ 5 * minute

structure ReplayOk (state : ReplayState π β) : Prop where
  settled : state.session.committed.nonces = state.session.working.nonces
  fresh : (state.signed.map fun envelope => envelope.nonce).Nodup
  signed : ∀ acceptance ∈ state.accepted,
    acceptance.envelope.toUnsignedEnvelope ∈ state.signed
  spent : ∀ acceptance ∈ state.accepted, Spent state acceptance
  once : (state.accepted.map Acceptance.key).Nodup
  inTime : ∀ acceptance ∈ state.accepted, InTime acceptance

variable {verify} {state : ReplayState π β}

theorem ReplayOk.eq_of_nonce (hok : ReplayOk state) {first second : UnsignedEnvelope π}
    (hfirst : first ∈ state.signed) (hsecond : second ∈ state.signed)
    (hsame : first.nonce = second.nonce) : first = second :=
  List.inj_on_of_nodup_map hok.fresh hfirst hsecond hsame

theorem ReplayOk.initial (hinitial : ReplayInitial state) : ReplayOk state where
  settled := hinitial.settled
  fresh := by simp [hinitial.signed]
  signed := by simp [hinitial.accepted]
  spent := by simp [hinitial.accepted]
  once := by simp [hinitial.accepted]
  inTime := by simp [hinitial.accepted]

/-- A step that leaves the nonces and the acceptances alone. -/
theorem ReplayOk.quiet {after : ReplayState π β} (hok : ReplayOk state)
    (hsettled : after.session.committed.nonces = after.session.working.nonces)
    (hnonces : after.session.committed.nonces = state.session.committed.nonces)
    (hsigned : after.signed = state.signed) (hreadings : state.readings ⊆ after.readings)
    (haccepted : after.accepted = state.accepted) : ReplayOk after where
  settled := hsettled
  fresh := hsigned ▸ hok.fresh
  signed := by rw [haccepted, hsigned]; exact hok.signed
  spent := by
    rw [haccepted]
    intro acceptance hacceptance
    rcases hok.spent acceptance hacceptance with hrow | ⟨reading, hreading, hpast⟩
    · exact .inl (hnonces ▸ hrow)
    · exact .inr ⟨reading, hreadings hreading, hpast⟩
  once := haccepted ▸ hok.once
  inTime := haccepted ▸ hok.inTime

theorem ReplayOk.sign (hok : ReplayOk state)
    (hfresh : ∀ earlier ∈ state.signed, earlier.nonce ≠ envelope.nonce) :
    ReplayOk { state with signed := envelope :: state.signed } where
  settled := hok.settled
  fresh := by
    rw [List.map_cons, List.nodup_cons]
    refine ⟨?_, hok.fresh⟩
    intro hmem
    obtain ⟨earlier, hearlier, hsame⟩ := List.mem_map.mp hmem
    exact hfresh earlier hearlier hsame
  signed := fun acceptance hacceptance => .tail _ (hok.signed acceptance hacceptance)
  spent := hok.spent
  once := hok.once
  inTime := hok.inTime

/-- An envelope that was accepted before is refused: its nonce is still in the
table, or its expiry is too far in the past. -/
theorem ReplayOk.refused (hok : ReplayOk state)
    (hpromised : Promised verify state (.deliver settings envelope expectedPurpose now))
    (haccept : verifyRunnerEnvelope verify state.session settings envelope expectedPurpose now =
      .ok (session, device)) {earlier : Acceptance π} (hearlier : earlier ∈ state.accepted) :
    earlier.key ≠ (spentNonce settings envelope now).key := by
  obtain ⟨hverified, _, _, _, hfree⟩ := verifyRunnerEnvelope_eq_ok haccept
  intro hsame
  have hnonce : earlier.envelope.nonce = envelope.nonce :=
    congrArg (fun key => key.2.2) hsame
  have hcontent : earlier.envelope.toUnsignedEnvelope = envelope.toUnsignedEnvelope :=
    hok.eq_of_nonce (hok.signed earlier hearlier) (hpromised.1 hverified.signed) hnonce
  have hexpiry : earlier.envelope.expiresAt = envelope.expiresAt :=
    congrArg UnsignedEnvelope.expiresAt hcontent
  have hunexpired := hverified.unexpired
  rcases hok.spent earlier hearlier with hrow | ⟨reading, hreading, hpast⟩
  · refine hfree earlier.row (hok.settled ▸ hrow) ?_ hsame
    have hstored : earlier.row.expiresAt = earlier.envelope.expiresAt := rfl
    have hretention : 0 ≤ nonceRetention := by decide
    linarith
  · have hclock := hpromised.2 reading hreading
    have hretention : nonceRetention = 10 * minute := rfl
    linarith

theorem ReplayOk.accept (hok : ReplayOk state)
    (hpromised : Promised verify state (.deliver settings envelope expectedPurpose now))
    (haccept : verifyRunnerEnvelope verify state.session settings envelope expectedPurpose now =
      .ok (session, device)) :
    ReplayOk { state with
      session
      readings := now :: state.readings
      accepted := ⟨settings, envelope, now⟩ :: state.accepted } := by
  obtain ⟨hverified, _, hcommitted, hnonces, _⟩ := verifyRunnerEnvelope_eq_ok haccept
  constructor
  · exact congrArg Db.nonces hcommitted
  · exact hok.fresh
  · intro acceptance hacceptance
    rcases List.mem_cons.mp hacceptance with rfl | hold
    · exact hpromised.1 hverified.signed
    · exact hok.signed acceptance hold
  · intro acceptance hacceptance
    simp only [Spent, hcommitted, hnonces]
    rcases List.mem_cons.mp hacceptance with rfl | hold
    · exact .inl (List.mem_append_right _ (List.mem_singleton_self _))
    rcases hok.spent acceptance hold with hrow | ⟨reading, hreading, hpast⟩
    · by_cases hkept : now - nonceRetention ≤ acceptance.envelope.expiresAt
      · apply Or.inl
        apply List.mem_append_left
        exact List.mem_filter.mpr ⟨hok.settled ▸ hrow, decide_eq_true hkept⟩
      · exact .inr ⟨now, .head _, not_le.mp hkept⟩
    · exact .inr ⟨reading, .tail _ hreading, hpast⟩
  · rw [List.map_cons, List.nodup_cons]
    refine ⟨?_, hok.once⟩
    intro hmem
    obtain ⟨earlier, hearlier, hsame⟩ := List.mem_map.mp hmem
    exact hok.refused hpromised haccept hearlier hsame
  · intro acceptance hacceptance
    rcases List.mem_cons.mp hacceptance with rfl | hold
    · exact ⟨hverified.unexpired, hverified.issued, hverified.lifetime⟩
    · exact hok.inTime acceptance hold

theorem replayOk_invariant : (replaySystem verify β).Invariant (Promised verify) ReplayOk where
  init := fun _ hinitial => .initial hinitial
  step := by
    rintro state action _ hok hpromised rfl
    cases action with
    | sign envelope => exact hok.sign hpromised
    | deliver settings envelope expectedPurpose now =>
      simp only [ReplayState.perform, ReplayState.deliver]
      split
      next haccept => exact hok.accept hpromised haccept
      · exact hok.quiet rfl rfl rfl (List.subset_cons_self _ _) rfl
    | business devices write => exact hok.quiet hok.settled rfl rfl (List.Subset.refl _) rfl
    | commit => exact hok.quiet rfl hok.settled.symm rfl (List.Subset.refl _) rfl
    | rollback => exact hok.quiet rfl rfl rfl (List.Subset.refl _) rfl

/-- Every nonce is accepted once and in time, and it stays spent whatever becomes
of the business operation behind it. -/
theorem envelopes_accepted_once
    (hreach : (replaySystem verify β).Reachable (Promised verify) state) :
    (state.accepted.map Acceptance.key).Nodup ∧
      (∀ acceptance ∈ state.accepted,
        acceptance.checkedAt < acceptance.envelope.expiresAt ∧
        acceptance.envelope.issuedAt ≤ acceptance.checkedAt + 30 * second ∧
        acceptance.envelope.expiresAt - acceptance.envelope.issuedAt ≤ 5 * minute) ∧
      ∀ acceptance ∈ state.accepted, ∀ settings envelope expectedPurpose now,
        Promised verify state (.deliver settings envelope expectedPurpose now) →
        acceptance.key = (spentNonce settings envelope now).key →
        ∃ error, verifyRunnerEnvelope verify state.session settings envelope expectedPurpose now =
          .error error := by
  have hok := replayOk_invariant.reachable hreach
  refine ⟨hok.once, ?_, ?_⟩
  · intro acceptance hacceptance
    have htime := hok.inTime acceptance hacceptance
    exact ⟨htime.unexpired, htime.issued, htime.lifetime⟩
  · intro acceptance hacceptance settings envelope expectedPurpose now hpromised hsame
    cases hresult : verifyRunnerEnvelope verify state.session settings envelope expectedPurpose
        now with
    | error error => exact ⟨error, rfl⟩
    | ok result => exact absurd hsame (hok.refused hpromised hresult hacceptance)

def sampleSettings : Settings := ⟨"device", "key"⟩

def sampleEnvelope : SignedEnvelope Unit where
  keyId := "device"
  purpose := .runnerHeartbeat
  audience := controlAudience
  issuedAt := 0
  expiresAt := minute
  nonce := "nonce"
  payload := ()
  signature := "signature"

def sampleVerify : Verify Unit := fun key content signature =>
  decide (key = "key" ∧ content = sampleEnvelope.toUnsignedEnvelope ∧ signature = "signature")

def sampleStart : ReplayState Unit Unit where
  session := ⟨⟨[expectedSchemaRevision], [], [], ()⟩, ⟨[expectedSchemaRevision], [], [], ()⟩⟩
  signed := []
  readings := []
  accepted := []

/-- The runner signs a heartbeat, which is accepted and then denied. -/
def sampleActions : List (ReplayAction Unit Unit) :=
  [.sign sampleEnvelope.toUnsignedEnvelope,
    .deliver sampleSettings sampleEnvelope .runnerHeartbeat second, .rollback]

def sampleEnd : ReplayState Unit Unit :=
  sampleActions.foldl (fun state action => state.perform sampleVerify action) sampleStart

theorem sampleEnd_reachable :
    (replaySystem sampleVerify Unit).Reachable (Promised sampleVerify) sampleEnd := by
  have hstart : (replaySystem sampleVerify Unit).Reachable (Promised sampleVerify) sampleStart :=
    .initial ⟨rfl, rfl, rfl⟩
  have hsign : Promised sampleVerify sampleStart (.sign sampleEnvelope.toUnsignedEnvelope) :=
    fun _ hearlier => absurd hearlier List.not_mem_nil
  have hsigned := hstart.tail hsign rfl
  have hdeliver : Promised sampleVerify
      (sampleStart.perform sampleVerify (.sign sampleEnvelope.toUnsignedEnvelope))
      (.deliver sampleSettings sampleEnvelope .runnerHeartbeat second) :=
    ⟨fun _ => List.mem_singleton_self _, fun _ hreading => absurd hreading List.not_mem_nil⟩
  have hdelivered := hsigned.tail hdeliver rfl
  have hrollback : Promised sampleVerify
      ((sampleStart.perform sampleVerify (.sign sampleEnvelope.toUnsignedEnvelope)).perform
        sampleVerify (.deliver sampleSettings sampleEnvelope .runnerHeartbeat second))
      (.rollback : ReplayAction Unit Unit) :=
    trivial
  exact hdelivered.tail hrollback rfl

theorem envelopes_accepted_once_sample :
    ∃ error, verifyRunnerEnvelope sampleVerify sampleEnd.session sampleSettings sampleEnvelope
      .runnerHeartbeat (2 * second) = .error error :=
  (envelopes_accepted_once sampleEnd_reachable).2.2 ⟨sampleSettings, sampleEnvelope, second⟩
    (List.mem_singleton_self _) sampleSettings sampleEnvelope .runnerHeartbeat (2 * second)
    ⟨fun _ => List.mem_singleton_self _, by decide⟩ rfl

end JobApplyAgent.ControlPlane
