import JobApplyAgent.Adapters.Registry
import JobApplyAgent.Kernel.AtMostOnce

/-!
# Remote and local admission

Two ways lead from a reviewed plan to an attempt: the operator's own request, and the
remote command of a minted grant.  Both end in the same admission, but each resolves the
adapter on its own: the local request by the qualification of the plan, the runner by the
registry, which is the default of its acceptance.
-/

namespace JobApplyAgent.Kernel

open Domain Store Library
open Adapters (CandidateUrl QualificationReadings adapterForUrl effectiveLiveDescriptorForPlan)

/-- What both ways read outside the modelled tables. -/
structure PortalReadings where
  url : CandidateUrl
  qualification : QualificationReadings
  portalSessionReady : Bool
  materialIdentityQualified : Bool
  profileSnapshot : Except SubmissionAdmissionError Unit
  automation : AutomationReadings
  canaryValid : Bool
  jobUrlHash : Option String
  nonceHash : String

/-- A resolver that a caller injects; without one the qualification of the plan decides. -/
abbrev DescriptorResolver := CandidateUrl → Option Adapters.AdapterDescriptor

def descriptorCandidate (readings : PortalReadings) (resolver : Option DescriptorResolver)
    (plan : FormPlan) : Option Adapters.AdapterDescriptor :=
  match resolver with
  | some resolve => resolve readings.url
  | none => effectiveLiveDescriptorForPlan readings.qualification readings.url plan

/-- A descriptor as the adapter gate of a plan asks it. -/
def liveDescriptor (plan : FormPlan) (descriptor : Adapters.AdapterDescriptor) :
    LiveDescriptor where
  adapter := ⟨descriptor.platform, descriptor.adapterVersion, descriptor.selectorVersion⟩
  allowsFinalExecution := descriptor.allowsFinalExecution
  qualifiesForm := descriptor.qualifiesFormFingerprint plan.fingerprint

/-- The default session check: only a persistent profile has a session to lose. -/
def sessionReady (readings : PortalReadings) (descriptor : Adapters.AdapterDescriptor) : Bool :=
  decide (descriptor.authenticationMode ≠ "persistent_profile") || readings.portalSessionReady

/-- What the admission of the stored plan with a public id reads, under a resolver. -/
def admissionReadings (db : Db) (readings : PortalReadings)
    (resolver : Option DescriptorResolver) (formPlanId : String) : AdmissionReadings :=
  let candidate := (planWithPublicId db formPlanId).bind fun entry =>
    (descriptorCandidate readings resolver entry.1).map fun descriptor => (entry.1, descriptor)
  { materialIdentityQualified := readings.materialIdentityQualified
    profileSnapshot := readings.profileSnapshot
    automation := readings.automation
    canaryValid := readings.canaryValid
    descriptor := candidate.map fun found => liveDescriptor found.1 found.2
    sessionLive := candidate.all fun found => sessionReady readings found.2
    jobUrlHash := readings.jobUrlHash
    nonceHash := readings.nonceHash }

/-- The steps of the admission that was opened last, with nothing in between. -/
def admissionSteps (state : LocalState) (readings : AdmissionReadings)
    (wallClock : Timestamp) : List Action :=
  [.lookup state.admissions.length, .admitItem state.admissions.length readings,
    .commitAdmission state.admissions.length wallClock]

/-- The runner accepts a command, as its `_admit` calls it. -/
def remoteAdmission (state : LocalState) (command : VerifiedControlCommand)
    (acceptance : AcceptanceReadings) (readings : PortalReadings) (formPlanId : String)
    (wallClock : Timestamp) : List Action :=
  .accept command acceptance ::
    admissionSteps state
      (admissionReadings state.db readings (some adapterForUrl) formPlanId) wallClock

/-- The operator sends a plan from the local dashboard. -/
def localAdmission (state : LocalState) (settings : AdmissionSettings)
    (capabilities : Capabilities) (request : SubmissionCommandRequest)
    (readings : PortalReadings) (now wallClock : Timestamp) : List Action :=
  .beginAdmission settings capabilities [request] now ::
    admissionSteps state (admissionReadings state.db readings none request.formPlanId)
      wallClock

def Admits (zone : Zone) (state : LocalState) (actions : List Action)
    (attempt : Submission) : Prop :=
  ∃ after, runActions zone state actions = some after ∧
    after.db.submissions = state.db.submissions ++ [attempt]

/-! ## One admission without interference -/

def LocalState.withAdmission (state : LocalState) (admission : Admission) : LocalState :=
  { state with admissions := state.admissions ++ [admission] }

section Last

variable {state : LocalState}

theorem withAdmission_last :
    (state.withAdmission admission).admissions[state.admissions.length]? = some admission :=
  List.getElem?_concat_length

theorem withAdmission_set (later : Admission) :
    (state.withAdmission admission).setAdmission state.admissions.length later =
      state.withAdmission later := by
  simp [LocalState.withAdmission, LocalState.setAdmission]

theorem withAdmission_lockedByOther (applicationId : ℕ) :
    (state.withAdmission admission).lockedByOther state.admissions.length applicationId =
      state.locked applicationId := by
  unfold LocalState.lockedByOther LocalState.locked LocalState.withAdmission
  rw [List.zipIdx_append, List.any_append]
  have hlast : ([admission].zipIdx (0 + state.admissions.length)).any (fun entry =>
      decide (entry.2 ≠ state.admissions.length) &&
        decide (applicationId ∈ entry.1.locks)) = false := by
    simp
  rw [hlast, Bool.or_false]
  rw [Bool.eq_iff_iff, List.any_eq_true, List.any_eq_true]
  constructor
  · rintro ⟨⟨other, index⟩, hmem, hlocked⟩
    rw [List.mk_mem_zipIdx_iff_getElem?] at hmem
    simp only [Bool.and_eq_true] at hlocked
    exact ⟨other, List.mem_of_getElem? hmem, hlocked.2⟩
  · rintro ⟨other, hmem, hlocked⟩
    obtain ⟨index, hindex⟩ := List.mem_iff_getElem?.mp hmem
    refine ⟨(other, index), List.mk_mem_zipIdx_iff_getElem?.mpr hindex, ?_⟩
    have hbound := (List.getElem?_eq_some_iff.mp hindex).1
    simp only [Bool.and_eq_true, decide_eq_true_eq] at hlocked ⊢
    exact ⟨by omega, hlocked⟩

theorem perform_lookup_last : perform zone (state.withAdmission admission)
      (.lookup state.admissions.length) =
    if admission.waitsFor false then
      .ok (state.withAdmission (lookupItem state.db admission))
    else .error .disabled := by
  simp only [perform, performAdmission, withAdmission_last, withAdmission_set]
  rfl

theorem perform_admitItem_last (readings : AdmissionReadings) :
    perform zone (state.withAdmission admission)
      (.admitItem state.admissions.length readings) =
    if admission.waitsFor true ∧ ¬(nextApplication admission).any state.locked then
      .ok (state.withAdmission (admitItem zone state.db admission readings))
    else .error .disabled := by
  have hlocked : (state.withAdmission admission).lockedByOther state.admissions.length =
      state.locked := funext withAdmission_lockedByOther
  simp only [perform, performAdmission, withAdmission_last, withAdmission_set, hlocked]
  rfl

theorem perform_commitAdmission_last (wallClock : Timestamp) :
    perform zone (state.withAdmission admission)
      (.commitAdmission state.admissions.length wallClock) =
    if admission.complete then
      .ok ((state.withDb (commitAdmission state.db admission wallClock).1).withAdmission
        (commitAdmission state.db admission wallClock).2)
    else .error .disabled := by
  simp only [perform, performAdmission, withAdmission_last]
  split
  · simp [LocalState.setAdmission, LocalState.withAdmission, LocalState.withDb]
  · rfl

end Last

section Steps

variable {state : LocalState}

/-- An admission of one request that has not begun. -/
structure OpenedFor (request : SubmissionCommandRequest) (opened : Admission) : Prop where
  requests : opened.requests = [request]
  waiting : opened.waiting = [request]
  lookedUp : opened.lookedUp = false
  phase : opened.phase = .running

/-- What one admission passes until its item is created. -/
structure CreatedAlone (zone : Zone) (state : LocalState) (opened : Admission)
    (request : SubmissionCommandRequest) (readings : AdmissionReadings) (view : Db)
    (row : Submission) (canary : Option ℕ) : Prop where
  viewed : applyStaged state.db opened.staged = .ok view
  release : requireMatchingClientRelease opened.capabilities request.clientRelease = .ok ()
  fresh : findReplay view request = .ok none
  unlocked : state.locked request.applicationId = false
  created : createLocked zone view opened.capabilities opened.ttlSeconds request readings
    opened.timestamp = .ok (.created row canary)

def lookedUpAdmission (opened : Admission) : Admission := { opened with lookedUp := true }

def createdAdmission (opened : Admission) (request : SubmissionCommandRequest)
    (row : Submission) (canary : Option ℕ) : Admission :=
  ({ lookedUpAdmission opened with locks := request.applicationId :: opened.locks }).created
    request [] row canary

theorem lookupItem_opened (hopened : OpenedFor request opened) :
    (lookupItem state.db opened).waitsFor true = true ↔
      ∃ view, applyStaged state.db opened.staged = .ok view ∧
        requireMatchingClientRelease opened.capabilities request.clientRelease = .ok () ∧
        findReplay view request = .ok none ∧
        lookupItem state.db opened = lookedUpAdmission opened := by
  have hreject : ∀ error, (opened.reject error).waitsFor true = false := by
    intro error
    unfold Admission.reject
    split <;> rfl
  constructor
  · intro hwaits
    unfold lookupItem at hwaits ⊢
    rw [hopened.waiting] at hwaits ⊢
    cases happly : applyStaged state.db opened.staged with
    | error error =>
      rw [happly] at hwaits
      cases hwaits
    | ok view =>
      rw [happly] at hwaits
      refine ⟨view, rfl, ?_⟩
      cases hrelease : requireMatchingClientRelease opened.capabilities
          request.clientRelease with
      | error error =>
        simp only [hrelease] at hwaits
        rw [hreject] at hwaits
        cases hwaits
      | ok value =>
        cases hreplay : findReplay view request with
        | error error =>
          simp only [hrelease, hreplay] at hwaits
          rw [hreject] at hwaits
          cases hwaits
        | ok found =>
          cases found with
          | none => exact ⟨rfl, rfl, by simp [hrelease, hreplay, lookedUpAdmission,
            hopened.waiting]⟩
          | some id =>
            simp [hrelease, hreplay, Admission.replayed, Admission.waitsFor,
              hopened.phase] at hwaits
  · rintro ⟨view, _, _, _, hlookup⟩
    rw [hlookup]
    simp [lookedUpAdmission, Admission.waitsFor, hopened.phase, hopened.waiting]

theorem admitItem_opened (hopened : OpenedFor request opened)
    (hview : applyStaged state.db opened.staged = .ok view) :
    (admitItem zone state.db (lookedUpAdmission opened) readings).complete = true →
      (∃ row canary, createLocked zone view opened.capabilities opened.ttlSeconds request
          readings opened.timestamp = .ok (.created row canary) ∧
        admitItem zone state.db (lookedUpAdmission opened) readings =
          createdAdmission opened request row canary) ∨
        ∃ id, findReplay view request = .ok (some id) := by
  intro hcomplete
  unfold admitItem at hcomplete ⊢
  have hwaiting : (lookedUpAdmission opened).waiting = [request] := hopened.waiting
  have hstaged : (lookedUpAdmission opened).staged = opened.staged := rfl
  simp only [hwaiting, hstaged, hview] at hcomplete ⊢
  cases hcreate : createLocked zone view opened.capabilities opened.ttlSeconds request readings
      opened.timestamp with
  | error error =>
    simp only [lookedUpAdmission, hcreate] at hcomplete
    unfold Admission.reject at hcomplete
    split at hcomplete <;> cases hcomplete
  | ok item =>
    cases item with
    | replayed id => exact .inr ⟨id, createLocked_replayed hcreate⟩
    | created row canary =>
      refine .inl ⟨row, canary, rfl, ?_⟩
      simp only [lookedUpAdmission, hcreate] at hcomplete ⊢
      split at hcomplete
      · cases hcomplete
      · rfl

theorem nextApplication_lookedUp (hopened : OpenedFor request opened) :
    (nextApplication (lookedUpAdmission opened)).any state.locked =
      state.locked request.applicationId := by
  have hwaiting : (lookedUpAdmission opened).waiting = [request] := hopened.waiting
  simp [nextApplication, hwaiting]

/-- The state that the commit of a created item leaves. -/
def committedAlone (state : LocalState) (opened : Admission)
    (request : SubmissionCommandRequest) (row : Submission) (canary : Option ℕ)
    (wallClock : Timestamp) : LocalState :=
  let committed := commitAdmission state.db (createdAdmission opened request row canary) wallClock
  (state.withDb committed.1).withAdmission committed.2

/-- An admission that runs through alone has created its item. -/
theorem run_admissionSteps (hopened : OpenedFor request opened)
    (hrun : runActions zone (state.withAdmission opened)
      (admissionSteps state readings wallClock) = some after) :
    ∃ view row canary, CreatedAlone zone state opened request readings view row canary ∧
      after = committedAlone state opened request row canary wallClock := by
  have hwaits : opened.waitsFor false = true := by
    simp [Admission.waitsFor, hopened.phase, hopened.waiting, hopened.lookedUp]
  simp only [admissionSteps, runActions, perform_lookup_last, hwaits, if_true,
    perform_admitItem_last] at hrun
  by_cases hlooked : (lookupItem state.db opened).waitsFor true = true ∧
      ¬(nextApplication (lookupItem state.db opened)).any state.locked = true
  · simp only [if_pos hlooked, perform_commitAdmission_last] at hrun
    obtain ⟨view, hview, hrelease, hfresh, hlookup⟩ :=
      (lookupItem_opened hopened).mp hlooked.1
    rw [hlookup] at hrun hlooked
    rw [nextApplication_lookedUp hopened, Bool.not_eq_true] at hlooked
    split at hrun
    · cases hrun
    next middle hmiddle =>
    split at hmiddle
    · next hcomplete =>
      cases hmiddle
      cases hrun
      rcases admitItem_opened hopened hview hcomplete with
        ⟨row, canary, hcreate, hadmission⟩ | ⟨id, hreplay⟩
      · refine ⟨view, row, canary, ⟨hview, hrelease, hfresh, hlooked.2, hcreate⟩, ?_⟩
        rw [hadmission]
        rfl
      · rw [hfresh] at hreplay
        cases hreplay
    · cases hmiddle
  · rw [if_neg hlooked] at hrun
    cases hrun

theorem CreatedAlone.run (hopened : OpenedFor request opened)
    (hcreated : CreatedAlone zone state opened request readings view row canary)
    (hstored : applyStaged state.db (createdAdmission opened request row canary).staged =
      .ok stored) :
    runActions zone (state.withAdmission opened) (admissionSteps state readings wallClock) =
      some (committedAlone state opened request row canary wallClock) := by
  have hwaits : opened.waitsFor false = true := by
    simp [Admission.waitsFor, hopened.phase, hopened.waiting, hopened.lookedUp]
  have hlookup : lookupItem state.db opened = lookedUpAdmission opened := by
    simp [lookupItem, hopened.waiting, hcreated.viewed, hcreated.release, hcreated.fresh,
      lookedUpAdmission]
  have hready : (lookedUpAdmission opened).waitsFor true = true := by
    simp [lookedUpAdmission, Admission.waitsFor, hopened.phase, hopened.waiting]
  have hadmission : admitItem zone state.db (lookedUpAdmission opened) readings =
      createdAdmission opened request row canary := by
    have hstaged := hstored
    simp only [createdAdmission, lookedUpAdmission, hopened.waiting] at hstaged
    simp [admitItem, lookedUpAdmission, hopened.waiting, hcreated.viewed, hcreated.created,
      createdAdmission, hstaged]
  have hcomplete : (createdAdmission opened request row canary).complete = true := by
    simp [createdAdmission, Admission.created, Admission.complete, lookedUpAdmission,
      hopened.phase]
  simp only [admissionSteps, runActions, perform_lookup_last, hwaits, if_true, hlookup,
    perform_admitItem_last, hready, nextApplication_lookedUp hopened, hcreated.unlocked,
    Bool.false_eq_true, not_false_eq_true, and_self, hadmission, perform_commitAdmission_last,
    hcomplete, committedAlone]

end Steps

end JobApplyAgent.Kernel
