import JobApplyAgent.Kernel.AdmissionTransaction

/-!
# What an admission admits

The attempt that the locked part of an admission creates, the facts about the
application it was created under, and what the open transaction then writes.
-/

namespace JobApplyAgent.Kernel

open Domain Store Library

/-- An application may get a new attempt: it is a current reviewed draft, every
earlier attempt of it has finished without an immutable outcome, and after any
earlier attempt the preparation was made by retry. -/
structure Admissible (db : Db) (applicationId revision : ℕ) : Prop where
  application : ∃ application, db.applications[applicationId]? = some application ∧
    application.status = .draft ∧ preparationIsCurrent application = true ∧
    application.revision = revision ∧
    ((∃ attempt ∈ db.submissions, attempt.applicationId = applicationId) →
      application.approvalSource = some .retryPrepare)
  finished : ∀ attempt ∈ db.submissions, attempt.applicationId = applicationId →
    attempt.stage = .finished ∧
      ∀ outcome, attempt.outcome = some outcome → outcome.immutable = false

/-- A new attempt: queued, with an unspent permit and a pending command. -/
structure AdmittedRow (request : SubmissionCommandRequest) (row : Submission) :
    Prop where
  applicationId : row.applicationId = request.applicationId
  revision : row.applicationRevision = request.applicationRevision
  authorityKind : row.authorityKind = request.authorityKind
  decision : row.automationPolicyDecisionId = request.automationPolicyDecisionId
  canary : row.qualificationCanaryAuthorizationId =
    request.qualificationCanaryAuthorizationId
  stage : row.stage = .queued
  outcome : row.outcome = none
  status : row.status = .pending
  finalActionAt : row.finalActionAt = none
  permit : ∃ permit, row.permit = some permit ∧ permit.consumedAt = none
  command : ∃ now, row.command = some (pendingCommand request now)

section Locked

variable {db : Db}
  {request : SubmissionCommandRequest}

variable {id : ℕ}

theorem findReplay_eq_ok (hreplay : findReplay db request = .ok (some id)) :
    ∃ attempt, commandWithKey db request.clientIdempotencyKey = some (attempt, id) ∧
      replayBinds db attempt request = true := by
  unfold findReplay at hreplay
  split at hreplay
  · cases hreplay
  next attempt found hfound =>
  split at hreplay
  · next hbinds =>
    cases hreplay
    exact ⟨attempt, hfound, hbinds⟩
  · cases hreplay

theorem commandWithKey_eq_some {key : String}
    (hfound : commandWithKey db key = some (attempt, id)) :
    db.submissions[id]? = some attempt ∧
      ∃ command, attempt.command = some command ∧ command.idempotencyKey = key := by
  have hmem := List.mem_of_find?_eq_some hfound
  rw [List.mk_mem_zipIdx_iff_getElem?] at hmem
  have hkey := List.find?_some hfound
  simp only [Option.any_eq_true, decide_eq_true_eq] at hkey
  exact ⟨hmem, hkey⟩

theorem findReplay_eq_none (hreplay : findReplay db request = .ok none) :
    commandWithKey db request.clientIdempotencyKey = none := by
  unfold findReplay at hreplay
  split at hreplay
  · next hnone => exact hnone
  · split at hreplay <;> cases hreplay

theorem planWithPublicId_eq_some (hplan : planWithPublicId db planId = some (plan, id)) :
    db.formPlans[id]? = some plan ∧ plan.planId = planId := by
  have hmem := List.mem_of_find?_eq_some hplan
  rw [List.mk_mem_zipIdx_iff_getElem?] at hmem
  have hid := List.find?_some hplan
  exact ⟨hmem, by simpa using hid⟩

/-- The authority of an admitted attempt names what its request names. -/
theorem validateAutomationAuthority_eq_ok
    (hauthority : validateAutomationAuthority zone db request application planId plan
      readings now = .ok authority) :
    authority.decision.map Prod.fst = request.automationPolicyDecisionId ∧
      authority.canary.map Prod.fst = request.qualificationCanaryAuthorizationId := by
  unfold validateAutomationAuthority at hauthority
  split at hauthority
  · cases hauthority
  · unfold canaryAuthority at hauthority
    split at hauthority
    · next id hnone hsome =>
      split at hauthority
      · cases hauthority
      split at hauthority
      · cases hauthority
      split at hauthority
      · cases hauthority
      cases hauthority
      exact ⟨hnone.symm, hsome.symm⟩
    · cases hauthority
  · split at hauthority
    · cases hauthority
    next hcanary =>
    unfold decisionAuthority at hauthority
    split at hauthority
    · cases hauthority
    next id hid =>
    split at hauthority
    · cases hauthority
    split at hauthority
    · cases hauthority
    split at hauthority
    · cases hauthority
    cases hauthority
    exact ⟨hid.symm, Eq.symm (by simpa using hcanary)⟩
  all_goals
    split at hauthority
    · cases hauthority
    next hnone =>
    cases hauthority
    simp only [not_or, Bool.not_eq_true, Option.isSome_eq_false_iff,
      Option.isNone_iff_eq_none] at hnone
    exact ⟨hnone.2.symm, hnone.1.symm⟩

theorem admissible_of_checks
    (happlication : db.applications[request.applicationId]? = some application)
    (hdraft : application.status = .draft) (hcurrent : preparationIsCurrent application = true)
    (hrevision : application.revision = revision)
    (hblocked : ∀ check ∈ admissionBlocked db request.applicationId application,
      check.1 = true) :
    Admissible db request.applicationId revision := by
  simp only [admissionBlocked, List.mem_cons, List.not_mem_nil, or_false,
    forall_eq_or_imp, forall_eq] at hblocked
  obtain ⟨himmutable, hretry, hended, hactive⟩ := hblocked
  have hfinished : ∀ attempt ∈ db.submissions,
      attempt.applicationId = request.applicationId → attempt.stage = .finished := by
    intro attempt hmem howner
    have := List.all_eq_true.mp hactive attempt (by simp [hmem, howner])
    simpa using this
  refine ⟨⟨application, happlication, hdraft, hcurrent, hrevision, ?_⟩, ?_⟩
  · rintro ⟨attempt, hmem, howner⟩
    cases hlatest : latestAttempt db request.applicationId with
    | none =>
      obtain ⟨id, hid⟩ := List.getElem?_of_mem hmem
      have hentry : (attempt, id) ∈ db.submissions.zipIdx.filter fun entry =>
          decide (entry.1.applicationId = request.applicationId) && true := by
        simp [List.mk_mem_zipIdx_iff_getElem?, hid, howner]
      rw [latestAttempt, latestAttemptWhere, latestBy_eq_none_iff] at hlatest
      rw [hlatest] at hentry
      cases hentry
    | some entry =>
      obtain ⟨latest, id⟩ := entry
      obtain ⟨hrow, hlatestOwner, _⟩ := latestAttemptWhere_eq_some hlatest
      have hstage := hfinished latest (List.mem_of_getElem? hrow) hlatestOwner
      simp only [hlatest, Option.map_some, Option.any_some, hstage, decide_true,
        Bool.not_true, Bool.false_or] at hretry hended
      simpa [hended] using hretry
  · intro attempt hmem howner
    refine ⟨hfinished attempt hmem howner, ?_⟩
    intro outcome houtcome
    have := List.all_eq_true.mp himmutable attempt (by simp [hmem, howner])
    simpa [houtcome] using this

/-- Every gate behind the application lock, with what it computes. -/
structure LockedGates (zone : Zone) (db : Db) (capabilities : Capabilities) (ttlSeconds : ℤ)
    (request : SubmissionCommandRequest) (readings : AdmissionReadings) (now : Timestamp)
    (application : Application) (plan : FormPlan) (planId : ℕ) (release : String)
    (authority : AdmittedAuthority) (adapter : AdapterDescriptor) (permit : PermitRow) :
    Prop where
  stored : db.applications[request.applicationId]? = some application
  fresh : findReplay db request = .ok none
  revision : request.applicationRevision = application.revision
  draft : application.status = .draft
  current : preparationIsCurrent application = true
  blocked : ∀ check ∈ admissionBlocked db request.applicationId application, check.1 = true
  planned : planWithPublicId db request.formPlanId = some (plan, planId)
  valid : ∃ domainPlan, validatePlan request.applicationId application plan request
      readings.materialIdentityQualified now = .ok domainPlan ∧
    requireModelBinding application domainPlan capabilities = .ok ()
  profile : readings.profileSnapshot = .ok ()
  runtime : requireRuntime capabilities request.authorityKind = .ok release
  authorized : validateAutomationAuthority zone db request application planId plan readings
    now = .ok authority
  qualified : validateAdapter readings.descriptor plan = .ok adapter
  session : readings.sessionLive = true
  inserted : ∃ after, db.insertSubmission (admittedRow request
    (nextAttemptNumber db request.applicationId) planId plan adapter release authority) =
      .ok after
  permitted : ∃ jobUrlHash, readings.jobUrlHash = some jobUrlHash ∧
    issueFinalSubmitPermit (admittedRow request
      (nextAttemptNumber db request.applicationId) planId plan adapter release authority)
      plan jobUrlHash readings.nonceHash ttlSeconds now authority.expiresAt = .ok permit

/-- The attempt that an admitted request adds. -/
def createdRow (db : Db) (request : SubmissionCommandRequest) (now : Timestamp) (plan : FormPlan)
    (planId : ℕ) (release : String) (authority : AdmittedAuthority)
    (adapter : AdapterDescriptor) (permit : PermitRow) : Submission :=
  { admittedRow request (nextAttemptNumber db request.applicationId) planId plan adapter
      release authority with
    permit := some permit
    command := some (pendingCommand request now) }

section

variable (hcreate : createLocked zone db capabilities ttlSeconds request readings now = .ok
  (.created row canary))
include hcreate

theorem createLocked_eq_created :
    ∃ application plan planId release authority adapter permit,
      LockedGates zone db capabilities ttlSeconds request readings now application plan planId
        release authority adapter permit ∧
      row = createdRow db request now plan planId release authority adapter permit ∧
      canary = authority.canary.map Prod.fst := by
  unfold createLocked at hcreate
  split at hcreate
  · cases hcreate
  next application happlication =>
  simp only [bind_eq_ok] at hcreate
  obtain ⟨replay, hreplay, hcreate⟩ := hcreate
  split at hcreate
  · cases hcreate
  simp only [bind_eq_ok] at hcreate
  obtain ⟨_, hdraft, _, hblocked, hcreate⟩ := hcreate
  have hdraft := requireBindings_eq_ok.mp hdraft
  simp only [List.mem_cons, List.not_mem_nil, or_false, forall_eq_or_imp, forall_eq,
    decide_eq_true_eq] at hdraft
  split at hcreate
  · cases hcreate
  next plan planId hplan =>
  simp only [bind_eq_ok] at hcreate
  obtain ⟨domainPlan, hvalid, _, hprofile, release, hrelease, _, hmodel, authority,
    hauthority, adapter, hadapter, hcreate⟩ := hcreate
  split at hcreate
  · cases hcreate
  next hsession =>
  split at hcreate
  · cases hcreate
  · cases hcreate
  next after jobUrlHash hinsert hurl =>
  split at hcreate
  · cases hcreate
  next permit hpermit =>
  rw [pure_eq_ok, AdmittedItem.created.injEq] at hcreate
  obtain ⟨rfl, rfl⟩ := hcreate
  refine ⟨application, plan, planId, release, authority, adapter, permit,
    ?_, rfl, rfl⟩
  exact ⟨happlication, hreplay, hdraft.1, hdraft.2.1, hdraft.2.2,
    requireBindings_eq_ok.mp hblocked, hplan,
    ⟨domainPlan, hvalid, hmodel⟩, hprofile, hrelease, hauthority,
    hadapter, by simpa using hsession, ⟨after, hinsert⟩,
    ⟨jobUrlHash, hurl, hpermit⟩⟩

/-- Everything a created item is bound to. -/
theorem createLocked_created :
    AdmittedRow request row ∧ Admissible db request.applicationId row.applicationRevision ∧
      (attemptPlan db row).map FormPlan.planId = some request.formPlanId ∧
      commandWithKey db request.clientIdempotencyKey = none := by
  obtain ⟨application, plan, planId, release, authority, adapter, permit, hgates, rfl, _⟩ :=
    createLocked_eq_created hcreate
  obtain ⟨hdecision, hcanary⟩ := validateAutomationAuthority_eq_ok hgates.authorized
  obtain ⟨hplanRow, hplanRef⟩ := planWithPublicId_eq_some hgates.planned
  obtain ⟨jobUrlHash, _, hpermit⟩ := hgates.permitted
  refine ⟨⟨rfl, rfl, rfl, hdecision, hcanary, rfl, rfl, rfl, rfl,
    ⟨permit, rfl, (issueFinalSubmitPermit_eq_ok hpermit).1⟩, ⟨now, rfl⟩⟩,
    admissible_of_checks hgates.stored hgates.draft hgates.current hgates.revision.symm
      hgates.blocked, ?_, findReplay_eq_none hgates.fresh⟩
  simp [attemptPlan, createdRow, admittedRow, hplanRow, hplanRef]

end

theorem createLocked_replayed
    (hcreate : createLocked zone db capabilities ttlSeconds request readings now =
      .ok (.replayed id)) : findReplay db request = .ok (some id) := by
  unfold createLocked at hcreate
  split at hcreate
  · cases hcreate
  simp only [bind_eq_ok] at hcreate
  obtain ⟨replay, hreplay, hcreate⟩ := hcreate
  split at hcreate
  · rw [pure_eq_ok, AdmittedItem.replayed.injEq] at hcreate
    rw [hreplay, hcreate]
  · simp only [bind_eq_ok] at hcreate
    obtain ⟨_, _, _, _, hcreate⟩ := hcreate
    split at hcreate
    · cases hcreate
    simp only [bind_eq_ok] at hcreate
    obtain ⟨_, _, _, _, _, _, _, _, _, _, _, _, hcreate⟩ := hcreate
    split at hcreate
    · cases hcreate
    split at hcreate
    · cases hcreate
    · cases hcreate
    · split at hcreate <;> cases hcreate

end Locked

/-! ## What a commit writes -/

/-- Rows were inserted one after the other under the constraints of the
table. -/
inductive Inserted : Db → List Submission → Db → Prop
  | nil (db : Db) : Inserted db [] db
  | cons {db stored after : Db} {row : Submission} {rest : List Submission}
      (hinsert : db.insertSubmission row = .ok stored)
      (hrest : Inserted stored rest after) : Inserted db (row :: rest) after

theorem storeAdded_eq_ok (hstore : storeAdded db rows = .ok after) : Inserted db rows after := by
  induction rows generalizing db with
  | nil =>
    cases hstore
    exact .nil _
  | cons row rest ih =>
    unfold storeAdded at hstore
    split at hstore
    · cases hstore
    · next stored hinsert => exact .cons hinsert (ih hstore)

theorem Inserted.eq (hinserted : Inserted db rows after) :
    after = { db with submissions := db.submissions ++ rows } := by
  induction hinserted with
  | nil => simp
  | cons hinsert _ ih =>
    obtain ⟨rfl, _⟩ := Db.insertSubmission_eq_ok hinsert
    simpa using ih

/-- What every constrained insertion preserves, a sequence of them does. -/
theorem Inserted.preserves (hinserted : Inserted db rows after) {inv : Db → Prop}
    (hstep : ∀ db row stored, row ∈ rows → inv db → db.insertSubmission row = .ok stored →
      inv stored) (hdb : inv db) : inv after := by
  induction hinserted with
  | nil => exact hdb
  | cons hinsert _ ih =>
    exact ih (fun db row stored hmem => hstep db row stored (.tail _ hmem))
      (hstep _ _ _ (.head _) hdb hinsert)

/-- The acceptance of a remote command spent an unspent grant, stored its
receipt and opened its log. -/
structure Accepted (before : Db) (acceptance : Acceptance) (grant : ReviewGrant)
    (after : Db) : Prop where
  row : before.reviewGrants[acceptance.receipt.reviewGrantId]? = some grant
  unspent : grant.consumedAt = none
  keysFree : receiptKeysFree before acceptance.receipt = true
  outbox : ∃ outbox, after =
      { before with
        receipts := before.receipts ++ [acceptance.receipt]
        reviewGrants := before.reviewGrants.set acceptance.receipt.reviewGrantId
          (consumeControlPlaneReviewGrant grant acceptance.receipt.remoteCommandRef
            acceptance.receipt.acceptedAt)
        outbox } ∧
    (outbox = before.outbox ++ [outboxRow acceptance.event] ∨
      outbox = before.outbox ∧
        ∃ row ∈ before.outbox, row.eventRef = acceptance.event.wire.eventId)

theorem storeAcceptance_eq_ok (hstore : storeAcceptance db acceptance = .ok after) :
    ∃ grant, Accepted db acceptance grant after := by
  unfold storeAcceptance at hstore
  simp only at hstore
  split at hstore
  · cases hstore
  next grant hgrant =>
  split at hstore
  · cases hstore
  next hguard =>
  simp only [not_or, Bool.not_eq_true, Option.isSome_eq_false_iff,
    Option.isNone_iff_eq_none] at hguard
  refine ⟨grant, hgrant, hguard.1, by simpa using hguard.2, ?_⟩
  unfold enqueueControlPlaneEvent at hstore
  split at hstore
  · next existing hexisting =>
    split at hstore
    · cases hstore
      exact ⟨db.outbox, rfl, .inr ⟨rfl, existing,
        List.mem_of_find?_eq_some hexisting,
        by simpa using List.find?_some hexisting⟩⟩
    · cases hstore
  · cases hstore
    exact ⟨_, rfl, .inl rfl⟩

/-- The optional acceptance of a transaction. -/
def StagedAcceptance (before : Db) (acceptance : Option Acceptance) (after : Db) : Prop :=
  match acceptance with
  | none => after = before
  | some found => ∃ grant, Accepted before found grant after

theorem storeStagedAcceptance_eq_ok (hstore : storeStagedAcceptance db acceptance = .ok after) :
    StagedAcceptance db acceptance after := by
  cases acceptance with
  | none => exact (Except.ok.inj hstore).symm
  | some found => exact storeAcceptance_eq_ok hstore

/-- Everything a committed transaction wrote. -/
structure Admitted (before : Db) (staged : Staged) (after : Db) : Prop where
  steps : ∃ accepted stored canaries, StagedAcceptance before staged.acceptance accepted ∧
    Inserted accepted staged.added stored ∧
    after = { stored with canaryAuthorizations := canaries }

theorem foldl_consumeCanary (db : Db) (entries : List (ℕ × Timestamp)) :
    ∃ canaries, entries.foldl consumeCanary db =
      { db with canaryAuthorizations := canaries } := by
  induction entries generalizing db with
  | nil => exact ⟨_, rfl⟩
  | cons entry rest ih =>
    obtain ⟨canaries, hrest⟩ := ih (consumeCanary db entry)
    refine ⟨canaries, hrest.trans ?_⟩
    unfold consumeCanary
    split <;> rfl

theorem applyStaged_eq_ok (happly : applyStaged db staged = .ok after) :
    Admitted db staged after := by
  simp only [applyStaged, bind_eq_ok, pure_eq_ok] at happly
  obtain ⟨accepted, haccepted, stored, hstored, rfl⟩ := happly
  obtain ⟨canaries, hcanaries⟩ := foldl_consumeCanary stored staged.consumedCanaries
  exact ⟨accepted, stored, canaries, storeStagedAcceptance_eq_ok haccepted,
    storeAdded_eq_ok hstored, hcanaries⟩

/-- A commit appends the added attempts and leaves applications, plans,
decisions and stops alone. -/
theorem Admitted.tables (hadmitted : Admitted before staged after) :
    after.submissions = before.submissions ++ staged.added ∧
      after.applications = before.applications ∧ after.formPlans = before.formPlans ∧
      after.applicationRefs = before.applicationRefs ∧ after.policies = before.policies ∧
      after.decisions = before.decisions ∧ after.killEvents = before.killEvents := by
  obtain ⟨accepted, stored, canaries, haccepted, hinserted, rfl⟩ := hadmitted.steps
  have hstored := hinserted.eq
  subst hstored
  unfold StagedAcceptance at haccepted
  split at haccepted
  · subst haccepted
    exact ⟨rfl, rfl, rfl, rfl, rfl, rfl, rfl⟩
  · obtain ⟨grant, hgrant⟩ := haccepted
    obtain ⟨outbox, rfl, _⟩ := hgrant.outbox
    exact ⟨rfl, rfl, rfl, rfl, rfl, rfl, rfl⟩

end JobApplyAgent.Kernel
