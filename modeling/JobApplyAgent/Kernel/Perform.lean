import JobApplyAgent.Kernel.Effects

/-!
# One action of the local system

Every action of the local system is a path of database changes of its kind, and
the locks of the open admissions keep what the changes need.
-/

namespace JobApplyAgent.Kernel

open Domain Store Library

/-- Every open admission may still commit, and no row lock is held twice. -/
structure AdmissionsOk (state : LocalState) : Prop where
  each : ∀ (index : ℕ) (admission : Admission),
    state.admissions[index]? = some admission → AdmissionOk state.db admission
  disjoint : ∀ (index other : ℕ) (admission rival : Admission),
    state.admissions[index]? = some admission →
    state.admissions[other]? = some rival → index ≠ other →
    ∀ id ∈ admission.locks, id ∉ rival.locks

variable {state : LocalState}

variable {id : ℕ} {action : Action}

theorem locked_eq_false_iff :
    state.locked id = false ↔
      ∀ (index : ℕ) (admission : Admission),
        state.admissions[index]? = some admission → id ∉ admission.locks := by
  simp only [LocalState.locked, List.any_eq_false, decide_eq_true_eq]
  constructor
  · intro hnone index admission hadmission
    exact hnone admission (List.mem_of_getElem? hadmission)
  · intro hnone admission hmem
    obtain ⟨index, hindex⟩ := List.getElem?_of_mem hmem
    exact hnone index admission hindex

theorem lockedByOther_eq_false_iff :
    state.lockedByOther index id = false ↔
      ∀ (other : ℕ) (admission : Admission),
        state.admissions[other]? = some admission → other ≠ index →
        id ∉ admission.locks := by
  simp only [LocalState.lockedByOther, List.any_eq_false, Bool.and_eq_true,
    decide_eq_true_eq, not_and]
  constructor
  · intro hnone other admission hadmission
    refine hnone (admission, other) ?_
    rw [List.mk_mem_zipIdx_iff_getElem?]
    exact hadmission
  · rintro hnone ⟨admission, other⟩ hmem
    rw [List.mk_mem_zipIdx_iff_getElem?] at hmem
    exact hnone other admission hmem

variable {held : ℕ → Bool} {ε : Type}

theorem AdmissionsOk.lockedByOther (hadmissions : AdmissionsOk state)
    (hadmission : state.admissions[index]? = some admission) (hmem : id ∈ admission.locks) :
    state.lockedByOther index id = false := by
  rw [lockedByOther_eq_false_iff]
  intro other rival hrival hne
  exact hadmissions.disjoint index other admission rival hadmission hrival hne.symm id hmem

theorem commitAdmission_fst :
    (commitAdmission db admission wallClock).1 = db ∨
      applyStaged db admission.staged =
        .ok (commitAdmission db admission wallClock).1 := by
  unfold commitAdmission
  split
  · exact .inl rfl
  split
  · exact .inl rfl
  · next after happly => exact .inr happly

/-- What one step of an open admission leaves behind. -/
inductive AdmissionMove (zone : Zone) (state : LocalState) (index : ℕ)
    (admission : Admission) : Action → Db → Admission → Prop
  | lookup (hwaits : admission.waitsFor false = true) :
      AdmissionMove zone state index admission (.lookup index) state.db
        (lookupItem state.db admission)
  | admitItem {readings : AdmissionReadings} (hwaits : admission.waitsFor true = true)
      (hfree : (nextApplication admission).any (state.lockedByOther index) = false) :
      AdmissionMove zone state index admission (.admitItem index readings) state.db
        (admitItem zone state.db admission readings)
  | commit {wallClock : Timestamp} (hcomplete : admission.complete = true) :
      AdmissionMove zone state index admission (.commitAdmission index wallClock)
        (commitAdmission state.db admission wallClock).1
        (commitAdmission state.db admission wallClock).2
  | resolve (hconflict : admission.inConflict = true) :
      AdmissionMove zone state index admission (.resolveConflict index) state.db
        (resolveConflict state.db admission)
  | abort (hopen : admission.ended = false) :
      AdmissionMove zone state index admission (.abortAdmission index) state.db
        (admission.fail .runtimeNotReady)

theorem performAdmission_eq_ok
    (hindex : action = .lookup index ∨ (∃ readings, action = .admitItem index readings) ∨
      (∃ wallClock, action = .commitAdmission index wallClock) ∨
      action = .resolveConflict index ∨ action = .abortAdmission index)
    (hperform : performAdmission zone state index action = .ok after) :
    ∃ admission db next, state.admissions[index]? = some admission ∧
      AdmissionMove zone state index admission action db next ∧
      after = (state.withDb db).setAdmission index next := by
  cases hadmission : state.admissions[index]? with
  | none =>
    simp only [performAdmission, hadmission] at hperform
    cases hperform
  | some admission =>
    rcases hindex with rfl | ⟨readings, rfl⟩ | ⟨wallClock, rfl⟩ | rfl | rfl <;>
      simp only [performAdmission, hadmission] at hperform <;>
      split at hperform
    · next hwaits =>
      cases hperform
      exact ⟨admission, _, _, rfl, .lookup hwaits, rfl⟩
    · cases hperform
    · next hguard =>
      cases hperform
      exact ⟨admission, _, _, rfl, .admitItem hguard.1 (by simpa using hguard.2), rfl⟩
    · cases hperform
    · next hcomplete =>
      cases hperform
      exact ⟨admission, _, _, rfl, .commit hcomplete, rfl⟩
    · cases hperform
    · next hconflict =>
      cases hperform
      exact ⟨admission, _, _, rfl, .resolve hconflict, rfl⟩
    · cases hperform
    · cases hperform
    · next hopen =>
      cases hperform
      exact ⟨admission, _, _, rfl, .abort (by simpa using hopen), rfl⟩

/-- A step of an admission changes the database by its commit at most. -/
theorem performAdmission_change (hadmissions : AdmissionsOk state)
    (hindex : action = .lookup index ∨ (∃ readings, action = .admitItem index readings) ∨
      (∃ wallClock, action = .commitAdmission index wallClock) ∨
      action = .resolveConflict index ∨ action = .abortAdmission index)
    (hperform : performAdmission zone state index action = .ok after) :
    Changes (state.held action) .admission state.db after.db := by
  obtain ⟨admission, db, next, hadmission, hmove, rfl⟩ :=
    performAdmission_eq_ok hindex hperform
  cases hmove with
  | lookup | admitItem | resolve | abort => exact .refl _ _ _
  | commit hcomplete =>
    rcases commitAdmission_fst with hsame | happly
    · change Changes _ _ state.db (commitAdmission _ _ _).1
      rw [hsame]
      exact .refl _ _ _
    · have hok := hadmissions.each index admission hadmission
      exact (Change.committed (fun _ hmem => hadmissions.lockedByOther hadmission hmem)
        hok.staged (hok.scope.bound hcomplete) (applyStaged_eq_ok happly)).changes

theorem performAccept_eq_ok
    (haccept : (performAccept state command readings).map Prod.fst = .ok after) :
    after = state ∨ ∃ admission,
      lockAcceptance state.db command readings = .ok (.staged admission) ∧
      ((grantWithRef state.db command.grantId).map
        fun entry => entry.1.applicationId).any state.locked = false ∧
      after = { state with admissions := state.admissions ++ [admission] } := by
  obtain ⟨step, haccept⟩ := map_fst_eq_ok haccept
  simp only [performAccept] at haccept
  split at haccept
  · cases haccept
  next hfree =>
  split at haccept
  · cases haccept
  · cases haccept
    exact .inl rfl
  · next admission hlock =>
    cases haccept
    exact .inr ⟨admission, hlock, by simpa using hfree, rfl⟩

theorem markStaleAttempts_changes {ids : List ℕ} {before : Db}
    (hfree : ∀ id ∈ ids, ∀ attempt, before.submissions[id]? = some attempt →
      held attempt.applicationId = false) (hfold : ids.foldlM
      (fun stored id => markAttemptUnknown stored id (.code .staleIndeterminate) now)
      before = .ok after) : Changes held .legacy before after := by
  induction ids generalizing before with
  | nil =>
    cases hfold
    exact .refl _ _ _
  | cons id rest ih =>
    rw [List.foldlM_cons, bind_eq_ok] at hfold
    obtain ⟨middle, hmiddle, hrest⟩ := hfold
    obtain ⟨old, hlegacy⟩ := markAttemptUnknown_eq_ok hmiddle
    have hhead : Change held .legacy before middle :=
      .quarantined ⟨old, hlegacy.row, hfree id (by simp) old hlegacy.row⟩ hlegacy
    refine Relation.ReflTransGen.head hhead (ih ?_ hrest)
    intro other hother attempt hattempt
    rw [hlegacy.transaction.submissions] at hattempt
    by_cases heq : id = other
    · subst heq
      rw [getElem?_set_self_of_some hlegacy.row, Option.some.injEq] at hattempt
      subst hattempt
      exact hfree id (by simp) old hlegacy.row
    · rw [List.getElem?_set_ne heq] at hattempt
      exact hfree other (by simp [hother]) attempt hattempt

theorem claimAttempt_changes (hfree : held applicationId = false)
    (hclaim : claimAttempt db applicationId idempotencyKey now = .ok changed) :
    Changes held .legacy db changed := by
  rcases claimAttempt_eq_ok hclaim with
    rfl | ⟨flushed, number, hclosed, hexists, hinsert⟩
  · exact .refl _ _ _
  · have hadded : Change held .legacy flushed changed :=
      .inserted now hfree hexists hinsert
    rcases hclosed with rfl | ⟨id, old, hlegacy, howner⟩
    · exact hadded.changes
    · have hquarantined : Change held .legacy db flushed :=
        .quarantined ⟨old, hlegacy.row, howner ▸ hfree⟩ hlegacy
      exact hquarantined.changes.tail hadded

/-- Every action moves the database by changes of its kind. -/
theorem perform_change (hdb : OutboxConsistent state.db) (hadmissions : AdmissionsOk state)
    (hperform : perform zone state action = .ok after) :
    Changes (state.held action) action.kind state.db after.db := by
  cases action with
  | environment change =>
    simp only [perform] at hperform
    split at hperform
    · cases hperform
    next changed hchange =>
    cases hperform
    exact (environmentChange_eq_some hchange).changes
  | claim only now runner runtime =>
    obtain ⟨db, answer, hclaim, rfl⟩ := transactClaim_eq_ok hperform
    rcases claimSubmissionCommand_eq_ok hdb hclaim with
      rfl | ⟨id, hfree, ⟨move, hmove, hmoved⟩ | ⟨old, new, hmoved, _⟩⟩
    · exact .refl _ _ _
    · have hallowed : move ∈ ActionKind.claim.allows := by
        rcases hmove with rfl | rfl <;> decide
      exact (Change.moved hallowed (by rcases hmove with rfl | rfl <;> decide) hfree
        hmoved).changes
    · have hallowed : AttemptMove.claim ∈ ActionKind.claim.allows := by decide
      exact (Change.moved hallowed (by decide) hfree ⟨old, new, hmoved⟩).changes
  | load id readings now =>
    simp only [perform] at hperform
    split at hperform
    · cases hperform
    cases hperform
    exact .refl _ _ _
  | work index event =>
    obtain ⟨worker, result, _, hfree, hmove, rfl⟩ := performWork_eq_ok hdb hperform
    rcases hmove.moved with hsame | ⟨move, hallowed, hmoved⟩
    · rw [hsame]
      exact .refl _ _ _
    · have hcancel : move ≠ .cancel := by
        rintro rfl
        revert hallowed
        decide
      exact (Change.moved hallowed hcancel (hmoved.unlocked hfree) hmoved).changes
  | reconcileStale now staleSeconds =>
    obtain ⟨_, db, hreconcile, rfl⟩ := transact_eq_ok hperform
    exact reconcileStale_changes hdb hreconcile
  | skip applicationId reason text now =>
    obtain ⟨hfree, db, hskip, rfl⟩ := transact_eq_ok hperform
    rcases skipApplication_eq_ok hskip with
      ⟨hcontent, hkept, _⟩ | ⟨id, old, new, hlatest, howner, hmoved, _⟩
    · refine (Change.content (.inl rfl) ?_ hcontent (.inr hkept)).changes
      rintro id rfl
      exact hfree
    · exact (Change.cancelled hfree hlatest howner hmoved).changes
  | retry applicationId reviewReady now =>
    obtain ⟨hfree, db, hretry, rfl⟩ := transact_eq_ok hperform
    rcases retryApplication_eq_ok hretry with
      rfl | ⟨old, new, hold, rfl, hdraft, hrevised⟩
    · exact .refl _ _ _
    · exact (Change.retried hfree hold hdraft hrevised).changes
  | reconcile id request now =>
    obtain ⟨hfree, db, hreconcile, rfl⟩ := transact_eq_ok hperform
    have hmoved := reconcileAttempt_eq_ok hdb hreconcile
    have hallowed : AttemptMove.reconcile ∈ ActionKind.reconcile.allows := by decide
    exact (Change.moved hallowed (by decide) (hmoved.unlocked hfree) hmoved).changes
  | beginAdmission settings capabilities requests now =>
    simp only [perform] at hperform
    split at hperform
    · cases hperform
    split at hperform
    · cases hperform
    cases hperform
    exact .refl _ _ _
  | accept command readings =>
    rcases performAccept_eq_ok hperform with rfl | ⟨admission, _, _, rfl⟩
    · exact .refl _ _ _
    · exact .refl _ _ _
  | lookup index => exact performAdmission_change hadmissions (.inl rfl) hperform
  | admitItem index readings =>
    exact performAdmission_change hadmissions (.inr (.inl ⟨readings, rfl⟩)) hperform
  | commitAdmission index wallClock =>
    exact performAdmission_change hadmissions (.inr (.inr (.inl ⟨wallClock, rfl⟩)))
      hperform
  | resolveConflict index =>
    exact performAdmission_change hadmissions (.inr (.inr (.inr (.inl rfl)))) hperform
  | abortAdmission index =>
    exact performAdmission_change hadmissions (.inr (.inr (.inr (.inr rfl)))) hperform
  | evaluate applicationId formPlanId now readings =>
    obtain ⟨hfree, db, hevaluate, rfl⟩ := transact_eq_ok hperform
    obtain ⟨id, hevaluate⟩ := map_fst_eq_ok hevaluate
    refine (Change.automated ?_ (evaluateAutoSubmitPolicy_change hevaluate)).changes
    rintro id rfl
    exact hfree
  | killSwitch active source reasonCode commandDigest now =>
    obtain ⟨_, db, hset, rfl⟩ := transact_eq_ok hperform
    obtain ⟨⟨event, replayed⟩, hset⟩ := map_fst_eq_ok hset
    have hchange : AutomationChange (fun _ => False) state.db db :=
      setAutomationKillSwitch_change hset
    exact (Change.automated (fun _ hnone => hnone.elim) hchange).changes
  | remoteKillSwitch command now =>
    obtain ⟨_, db, hactivate, rfl⟩ := transact_eq_ok hperform
    obtain ⟨⟨event, replayed⟩, hactivate⟩ := map_fst_eq_ok hactivate
    have hchange : AutomationChange (fun _ => False) state.db db :=
      setAutomationKillSwitch_change (activateControlPlaneKillSwitch_eq_ok hactivate)
    exact (Change.automated (fun _ hnone => hnone.elim) hchange).changes
  | activatePolicy policy signingKeyId accepted now =>
    obtain ⟨_, db, hactivate, rfl⟩ := transact_eq_ok hperform
    have hchange : AutomationChange (fun _ => False) state.db db :=
      (activateAutoSubmitPolicy_kept hactivate).change
    exact (Change.automated (fun _ hnone => hnone.elim) hchange).changes
  | revokePolicy reasonCode now =>
    obtain ⟨_, db, hrevoke, rfl⟩ := transact_eq_ok hperform
    have hchange : AutomationChange (fun _ => False) state.db db :=
      (revokeAutoSubmitPolicy_kept hrevoke).change
    exact (Change.automated (fun _ hnone => hnone.elim) hchange).changes
  | mint request now =>
    obtain ⟨hfree, db, hmint, rfl⟩ := transact_eq_ok hperform
    obtain ⟨grant, refs, hid, _, hconsumed, hcommand, hrevoked, hfresh, rfl⟩ :=
      mintControlPlaneReviewGrant_eq_ok hmint
    rw [← hid] at hfree ⊢
    exact (Change.minted now hfree ⟨hconsumed, hcommand, hrevoked⟩ hfresh).changes
  | claimProjection runner now =>
    obtain ⟨db, answer, hclaim, rfl⟩ := transactClaim_eq_ok hperform
    exact (Change.granted (claimReviewGrantProjection_delivered hclaim)).changes
  | markProjected id token now =>
    obtain ⟨_, db, hsettle, rfl⟩ := transact_eq_ok hperform
    exact (Change.granted (projection_settled (by exact fun _ => rfl) hsettle)).changes
  | releaseProjection id token now =>
    obtain ⟨_, db, hsettle, rfl⟩ := transact_eq_ok hperform
    exact (Change.granted (projection_settled (by exact fun _ => rfl) hsettle)).changes
  | claimRevocation runner now =>
    obtain ⟨db, answer, hclaim, rfl⟩ := transactClaim_eq_ok hperform
    exact (Change.granted (claimReviewGrantRevocation_delivered hclaim)).changes
  | markRevoked id token now =>
    obtain ⟨_, db, hsettle, rfl⟩ := transact_eq_ok hperform
    exact (Change.granted (revocation_settled (by exact fun _ => rfl) hsettle)).changes
  | releaseRevocation id token now =>
    obtain ⟨_, db, hsettle, rfl⟩ := transact_eq_ok hperform
    exact (Change.granted (revocation_settled (by exact fun _ => rfl) hsettle)).changes
  | claimEvent locked runner now =>
    simp only [perform] at hperform
    obtain ⟨db, answer, hclaim, rfl⟩ := transactClaim_eq_ok hperform
    have hdb : db = (claimControlPlaneEvent state.db locked runner state.nextToken now).1 :=
      congrArg Prod.fst (Except.ok.inj hclaim).symm
    subst hdb
    exact (Change.delivered (claimControlPlaneEvent_delivered locked runner)).changes
  | finishDelivery id token delivered now =>
    simp only [perform] at hperform
    split at hperform
    · cases hperform
    next changed hdeliver =>
    cases hperform
    exact (Change.delivered
      (deliverClaimedControlPlaneEvent_delivered hdeliver)).changes
  | legacyClaim applicationId idempotencyKey now =>
    obtain ⟨hfree, db, hclaim, rfl⟩ := transact_eq_ok hperform
    exact claimAttempt_changes hfree hclaim
  | legacyMarkStale now staleMinutes =>
    obtain ⟨hfree, db, hmark, rfl⟩ := transact_eq_ok hperform
    refine markStaleAttempts_changes ?_ hmark
    intro id hmem attempt hattempt
    have hid := List.any_eq_false.mp hfree id hmem
    simpa [LocalState.attemptLocked, LocalState.held, hattempt] using hid
  | legacyMarkUnknown id reason now =>
    obtain ⟨hfree, db, hmark, rfl⟩ := transact_eq_ok hperform
    obtain ⟨old, hlegacy⟩ := markAttemptUnknown_eq_ok hmark
    exact (Change.quarantined (unlocked_of_attemptLocked hlegacy.row hfree) hlegacy).changes

/-! ## What is left alone -/

/-- The action runs no execution and no admission. -/
def Action.quiet : Action → Bool
  | .load .. | .work .. => false
  | action => decide (action.kind ≠ .admission)

theorem transact_quiet (htransact : transact state wrap blocked result = .ok after) :
    after = { state with db := after.db, nextToken := after.nextToken } ∧
      state.nextToken ≤ after.nextToken := by
  obtain ⟨_, db, _, rfl⟩ := transact_eq_ok htransact
  exact ⟨rfl, le_refl _⟩

theorem transactClaim_quiet (htransact : transactClaim state wrap result = .ok after) :
    after = { state with db := after.db, nextToken := after.nextToken } ∧
      state.nextToken ≤ after.nextToken := by
  obtain ⟨db, _, _, rfl⟩ := transactClaim_eq_ok htransact
  exact ⟨rfl, Nat.le_succ _⟩

/-- A quiet action writes the database and draws at most a token. -/
theorem perform_quiet (hquiet : action.quiet = true)
    (hperform : perform zone state action = .ok after) :
    after = { state with db := after.db, nextToken := after.nextToken } ∧
      state.nextToken ≤ after.nextToken := by
  cases action with
  | environment change =>
    simp only [perform] at hperform
    split at hperform
    · cases hperform
    cases hperform
    exact ⟨rfl, le_refl _⟩
  | finishDelivery id token delivered now =>
    simp only [perform] at hperform
    split at hperform
    · cases hperform
    cases hperform
    exact ⟨rfl, le_refl _⟩
  | claimEvent locked runner now =>
    simp only [perform] at hperform
    exact transactClaim_quiet hperform
  | claim | claimProjection | claimRevocation => exact transactClaim_quiet hperform
  | reconcileStale | skip | retry | reconcile | evaluate | killSwitch | remoteKillSwitch
  | activatePolicy | revokePolicy | mint | markProjected | releaseProjection | markRevoked
  | releaseRevocation | legacyClaim | legacyMarkStale | legacyMarkUnknown =>
    exact transact_quiet hperform
  | load | work | beginAdmission | accept | lookup | admitItem | commitAdmission
  | resolveConflict | abortAdmission => cases hquiet

theorem performLoad_eq_ok (hperform : perform zone state (.load id readings now) = .ok after) :
    ∃ worker, loadWorker state.db id readings now = some worker ∧
      after = { state with workers := state.workers ++ [worker] } := by
  simp only [perform] at hperform
  split at hperform
  · cases hperform
  next worker hworker =>
  cases hperform
  exact ⟨worker, hworker, rfl⟩

theorem performBegin_eq_ok
    (hperform : perform zone state (.beginAdmission settings capabilities requests now) =
      .ok after) :
    (∀ request ∈ requests, request.authorityKind ≠ .controlPlane) ∧
      ∃ admission, beginAdmission settings capabilities requests now = .ok admission ∧
        after = { state with admissions := state.admissions ++ [admission] } := by
  simp only [perform] at hperform
  split at hperform
  · cases hperform
  next hlocal =>
  split at hperform
  · cases hperform
  next admission hbegin =>
  cases hperform
  exact ⟨by simpa using hlocal, admission, hbegin, rfl⟩

/-- An admission leaves executions, tokens and calls alone. -/
theorem perform_admission (hkind : action.kind = .admission)
    (hperform : perform zone state action = .ok after) :
    after = { state with db := after.db, admissions := after.admissions } := by
  have hmoved : ∀ {index : ℕ},
      (action = .lookup index ∨ (∃ readings, action = .admitItem index readings) ∨
        (∃ wallClock, action = .commitAdmission index wallClock) ∨
        action = .resolveConflict index ∨ action = .abortAdmission index) →
      performAdmission zone state index action = .ok after →
      after = { state with db := after.db, admissions := after.admissions } := by
    intro index hindex hadmission
    obtain ⟨admission, db, next, _, _, rfl⟩ := performAdmission_eq_ok hindex hadmission
    rfl
  cases action with
  | beginAdmission settings capabilities requests now =>
    obtain ⟨_, admission, _, rfl⟩ := performBegin_eq_ok hperform
    rfl
  | accept command readings =>
    rcases performAccept_eq_ok hperform with rfl | ⟨admission, _, _, rfl⟩ <;> rfl
  | lookup index => exact hmoved (.inl rfl) hperform
  | admitItem index readings => exact hmoved (.inr (.inl ⟨readings, rfl⟩)) hperform
  | commitAdmission index wallClock =>
    exact hmoved (.inr (.inr (.inl ⟨wallClock, rfl⟩))) hperform
  | resolveConflict index => exact hmoved (.inr (.inr (.inr (.inl rfl)))) hperform
  | abortAdmission index => exact hmoved (.inr (.inr (.inr (.inr rfl)))) hperform
  | _ => cases hkind

theorem Action.quiet_of_kind (hwork : action.kind ≠ .work) (hadmission : action.kind ≠ .admission) :
    action.quiet = true := by
  cases action with
  | load | work => exact absurd rfl hwork
  | _ => exact decide_eq_true hadmission

/-- Only the actions of an execution touch the executions. -/
theorem perform_workers (hwork : action.kind ≠ .work)
    (hperform : perform zone state action = .ok after) :
    after.workers = state.workers ∧ after.commits = state.commits := by
  by_cases hadmission : action.kind = .admission
  · have hsame := perform_admission hadmission hperform
    exact ⟨by rw [hsame], by rw [hsame]⟩
  · have hsame := (perform_quiet (Action.quiet_of_kind hwork hadmission) hperform).1
    exact ⟨by rw [hsame], by rw [hsame]⟩

/-- Only the actions of an admission touch the admissions. -/
theorem perform_admissions (hdb : OutboxConsistent state.db) (hadmission : action.kind ≠ .admission)
    (hperform : perform zone state action = .ok after) :
    after.admissions = state.admissions := by
  by_cases hwork : action.kind = .work
  · cases action with
    | load id readings now =>
      obtain ⟨worker, _, rfl⟩ := performLoad_eq_ok hperform
      rfl
    | work index event =>
      obtain ⟨_, _, _, _, _, rfl⟩ := performWork_eq_ok hdb hperform
      rfl
    | _ => cases hwork
  · have hsame := (perform_quiet (Action.quiet_of_kind hwork hadmission) hperform).1
    rw [hsame]

end JobApplyAgent.Kernel
