import JobApplyAgent.Kernel.AuthoritySteps
import JobApplyAgent.Kernel.System

/-!
# What a transaction does to the database

Every action of the local system changes the database by a path of the changes
below, said once for all invariants.  `held` are the applications whose row
lock another transaction holds; no change touches them.
-/

namespace JobApplyAgent.Kernel

open Domain Store Library

/-- The components whose actions write different tables. -/
inductive ActionKind where
  | claim
  | work
  | stale
  | reconcile
  | skip
  | retry
  | environment
  | automation
  | admission
  | grants
  | delivery
  | legacy
  deriving DecidableEq

def Action.kind : Action → ActionKind
  | .environment _ => .environment
  | .claim .. => .claim
  | .load .. | .work .. => .work
  | .reconcileStale .. => .stale
  | .reconcile .. => .reconcile
  | .skip .. => .skip
  | .retry .. => .retry
  | .beginAdmission .. | .accept .. | .lookup _ | .admitItem .. | .commitAdmission ..
  | .resolveConflict _ | .abortAdmission _ => .admission
  | .evaluate .. | .killSwitch .. | .remoteKillSwitch .. | .activatePolicy ..
  | .revokePolicy .. => .automation
  | .mint .. | .claimProjection .. | .markProjected .. | .releaseProjection ..
  | .claimRevocation .. | .markRevoked .. | .releaseRevocation .. => .grants
  | .claimEvent .. | .finishDelivery .. => .delivery
  | .legacyClaim .. | .legacyMarkStale .. | .legacyMarkUnknown .. => .legacy

def ActionKind.allows : ActionKind → List AttemptMove
  | .claim => [.claim, .cancelInvalid, .finish]
  | .work => [.preflight, .ready, .boundary, .finish, .verify]
  | .stale => [.finish, .requeue]
  | .reconcile => [.reconcile]
  | .skip => [.cancel]
  | _ => []

/-- The acceptance that a transaction has staged may still be committed. -/
structure AcceptanceOk (db : Db) (locks : List ℕ) (acceptance : Acceptance) : Prop where
  grant : ∃ grant, db.reviewGrants[acceptance.receipt.reviewGrantId]? = some grant ∧
    grant.applicationId ∈ locks ∧ grant.consumedAt = none ∧ grant.revokedAt = none
  event : acceptance.event =
    acceptedEvent acceptance.receipt.remoteCommandRef acceptance.receipt.acceptedAt
  key : acceptance.receipt.clientIdempotencyKey =
    clientIdempotencyKey acceptance.receipt.remoteCommandRef

/-- Every staged attempt may still be committed. -/
structure StagedOk (db : Db) (locks : List ℕ) (staged : Staged) : Prop where
  rows : ∀ row ∈ staged.added, ∃ request, AdmittedRow request row ∧
    Admissible db row.applicationId row.applicationRevision ∧
    row.applicationId ∈ locks
  acceptance : ∀ acceptance, staged.acceptance = some acceptance →
    AcceptanceOk db locks acceptance

/-- An accepted command commits with exactly the attempt behind its receipt, and
only an accepted command does. -/
def AcceptanceBound (staged : Staged) : Prop :=
  match staged.acceptance with
  | none => ∀ row ∈ staged.added, row.authorityKind ≠ .controlPlane
  | some acceptance => ∃ row request, staged.added = [row] ∧ AdmittedRow request row ∧
      request.authorityKind = .controlPlane ∧
      request.clientIdempotencyKey = acceptance.receipt.clientIdempotencyKey

/-- One change of the database by an action of one kind. -/
inductive Change (held : ℕ → Bool) : ActionKind → Db → Db → Prop
  | moved {kind : ActionKind} {before after : Db} {id : ℕ} {move : AttemptMove}
      (hmove : move ∈ kind.allows) (hcancel : move ≠ .cancel)
      (hfree : Unlocked held before id) (hmoved : Moved before id move after) :
      Change held kind before after
  | cancelled {before after : Db} {applicationId id : ℕ} {old new : Submission}
      (hfree : held applicationId = false)
      (hlatest : latestAttempt before applicationId = some (old, id))
      (howner : old.applicationId = applicationId)
      (hmoved : MovedTo before id .cancel old new after) :
      Change held .skip before after
  | content {kind : ActionKind} {before after : Db} {touched : ℕ → Prop}
      (hkind : kind = .skip ∨ kind = .environment)
      (hfree : ∀ id, touched id → held id = false)
      (hchange : ContentChange touched before after)
      (hkept : kind = .environment ∨ ContentKept before after) :
      Change held kind before after
  | canaries {before : Db} (canaries : List CanaryAuthorization) :
      Change held .environment before
        { before with canaryAuthorizations := canaries }
  | retried {before : Db} {applicationId : ℕ} {old new : Application}
      (hfree : held applicationId = false)
      (hold : before.applications[applicationId]? = some old)
      (hdraft : new.status = .draft) (hrevised : ApplicationRevised old new) :
      Change held .retry before (before.setApplication applicationId new)
  | automated {before after : Db} {touched : ℕ → Prop}
      (hfree : ∀ id, touched id → held id = false)
      (hchange : AutomationChange touched before after) :
      Change held .automation before after
  | committed {before after : Db} {locks : List ℕ} {staged : Staged}
      (hfree : ∀ id ∈ locks, held id = false) (hstaged : StagedOk before locks staged)
      (hbound : AcceptanceBound staged) (hadmitted : Admitted before staged after) :
      Change held .admission before after
  | minted {before : Db} {grant : ReviewGrant} {refs : List ApplicationRef}
      (now : Timestamp) (hfree : held grant.applicationId = false)
      (hunspent : grant.consumedAt = none ∧ grant.consumedCommandRef = none ∧
        grant.revokedAt = none)
      (hfresh : ∀ row ∈ before.reviewGrants, row.grantRef ≠ grant.grantRef) :
      Change held .grants before
        { before with
          applicationRefs := refs
          reviewGrants :=
            before.reviewGrants.map (revokeGrant grant.applicationId now) ++ [grant] }
  | granted {before after : Db} (hdelivered : GrantsDelivered before after) :
      Change held .grants before after
  | delivered {before after : Db} (hdelivered : EventsDelivered before after) :
      Change held .delivery before after
  | quarantined {before after : Db} {id : ℕ} {old new : Submission}
      (hfree : Unlocked held before id)
      (hlegacy : LegacyTransaction before id old new after) :
      Change held .legacy before after
  | inserted {before after : Db} {applicationId number : ℕ} {key : String}
      (now : Timestamp) (hfree : held applicationId = false)
      (hexists : ∃ application, before.applications[applicationId]? = some application)
      (hinsert : before.insertSubmission (legacyAttempt applicationId number key now) =
        .ok after) :
      Change held .legacy before after

/-- Finitely many changes of one kind. -/
def Changes (held : ℕ → Bool) (kind : ActionKind) : Db → Db → Prop :=
  Relation.ReflTransGen (Change held kind)

theorem Changes.refl (held : ℕ → Bool) (kind : ActionKind) (db : Db) :
    Changes held kind db db := Relation.ReflTransGen.refl

theorem Change.changes {before : Db}
    (hchange : Change held kind before after) : Changes held kind before after :=
  Relation.ReflTransGen.single hchange

/-- The applications that other transactions hold while an action runs. -/
def LocalState.held (state : LocalState) : Action → ℕ → Bool
  | .commitAdmission index _ => state.lockedByOther index
  | _ => state.locked

/-- Only an accepted command is admitted under the control plane's authority, and
it is the one item of its admission. -/
def AdmissionScope (admission : Admission) : Prop :=
  match admission.staged.acceptance with
  | none => (∀ row ∈ admission.staged.added, row.authorityKind ≠ .controlPlane) ∧
      ∀ request ∈ admission.waiting, request.authorityKind ≠ .controlPlane
  | some acceptance => ∃ request : SubmissionCommandRequest,
      request.authorityKind = .controlPlane ∧
      request.clientIdempotencyKey = acceptance.receipt.clientIdempotencyKey ∧
      (admission.waiting = [request] ∧ admission.staged.added = [] ∨
        admission.waiting = [] ∧
          ∃ row, admission.staged.added = [row] ∧ AdmittedRow request row)

/-- What an open admission keeps true of the database. -/
structure AdmissionOk (db : Db) (admission : Admission) : Prop where
  staged : StagedOk db admission.locks admission.staged
  scope : AdmissionScope admission

theorem AdmissionScope.bound (hscope : AdmissionScope admission)
    (hcomplete : admission.complete = true) : AcceptanceBound admission.staged := by
  have hwaiting : admission.waiting = [] := by
    unfold Admission.complete at hcomplete
    split at hcomplete
    · simpa using hcomplete
    · cases hcomplete
  unfold AdmissionScope at hscope
  unfold AcceptanceBound
  split
  · next hnone =>
    rw [hnone] at hscope
    exact hscope.1
  · next acceptance hsome =>
    rw [hsome] at hscope
    obtain ⟨request, hkind, hkey, ⟨hsingle, _⟩ | ⟨_, row, hadded, hrow⟩⟩ := hscope
    · rw [hwaiting] at hsingle
      cases hsingle
    · exact ⟨row, request, hadded, hrow, hkind, hkey⟩

section Perform

variable {state : LocalState}

variable {id : ℕ} {ε : Type}

variable {before : Db} {move : AttemptMove}

theorem Moved.outboxConsistent (hbefore : OutboxConsistent before)
    (hmoved : Moved before id move after) :
    OutboxConsistent after := by
  obtain ⟨old, new, hmoved⟩ := hmoved
  cases hmoved.effect with
  | silent _ hsame => exact hbefore.congr hsame
  | published command _ hpublished => exact hpublished.consistent

theorem unlocked_of_attemptLocked (hrow : state.db.submissions[id]? = some attempt)
    (hfree : state.attemptLocked id = false) :
    Unlocked state.locked state.db id :=
  ⟨attempt, hrow, by simpa [LocalState.attemptLocked, hrow] using hfree⟩

theorem Moved.unlocked (hmoved : Moved state.db id move after)
    (hfree : state.attemptLocked id = false) :
    Unlocked state.locked state.db id := by
  obtain ⟨old, new, hmoved⟩ := hmoved
  exact unlocked_of_attemptLocked hmoved.row hfree

theorem transact_eq_ok (htransact : transact state wrap blocked result = .ok after) :
    blocked = false ∧ ∃ db, result = .ok db ∧ after = state.withDb db := by
  unfold transact at htransact
  split at htransact
  · cases htransact
  next hblocked =>
  split at htransact
  · cases htransact
  next db =>
  cases htransact
  exact ⟨by simpa using hblocked, db, rfl, rfl⟩

theorem transactClaim_eq_ok (htransact : transactClaim state wrap result = .ok after) :
    ∃ db answer, result = .ok (db, answer) ∧
      after = { state with db, nextToken := state.nextToken + 1 } := by
  unfold transactClaim at htransact
  split at htransact
  · cases htransact
  next db answer =>
  cases htransact
  exact ⟨db, answer, rfl, rfl⟩

theorem map_fst_eq_ok {α β : Type} {result : Except ε (α × β)} {value : α}
    (hmap : result.map Prod.fst = .ok value) : ∃ rest, result = .ok (value, rest) := by
  cases result with
  | error error => cases hmap
  | ok found =>
    cases hmap
    exact ⟨found.2, rfl⟩

/-- The stale reconciliation is a sequence of moves of unlocked attempts. -/
theorem reconcileStale_changes {ids : List ℕ}
    (hbefore : OutboxConsistent before)
    (hfold : ids.foldlM (reconcileStaleClaim held cutoff now) before = .ok after) :
    Changes held .stale before after := by
  induction ids generalizing before with
  | nil =>
    cases hfold
    exact .refl _ _ _
  | cons id rest ih =>
    rw [List.foldlM_cons, bind_eq_ok] at hfold
    obtain ⟨middle, hmiddle, hrest⟩ := hfold
    rcases reconcileStaleClaim_eq_ok hbefore hmiddle with
      rfl | ⟨move, old, new, hmove, hfree, _, hmoved⟩
    · exact ih hbefore hrest
    · have hmoves : Moved before id move middle := ⟨old, new, hmoved⟩
      have hchange : Change held .stale before middle :=
        .moved (by rcases hmove with rfl | rfl <;> decide)
          (by rcases hmove with rfl | rfl <;> decide) ⟨old, hmoved.row, hfree⟩ hmoves
      exact Relation.ReflTransGen.head hchange
        (ih (hmoves.outboxConsistent hbefore) hrest)

theorem environmentChange_eq_some (hchange : environmentChange state change = some db) :
    Change state.locked .environment state.db db := by
  cases change with
  | writeApplication id application =>
    simp only [environmentChange] at hchange
    split at hchange
    · cases hchange
    next old hold =>
    split at hchange
    · cases hchange
    next hguard =>
    simp only [not_or, Bool.not_eq_true, not_not] at hguard
    cases hchange
    have hfree : ∀ other, other = id → state.locked other = false := by
      rintro other rfl
      exact hguard.1
    exact .content (.inr rfl) hfree
      (contentChange_set (· = id) rfl hold hguard.2 (.refl PlanCarried.refl _ _))
      (.inl rfl)
  | addApplication application =>
    simp only [environmentChange] at hchange
    split at hchange
    · cases hchange
    next hfresh =>
    cases hchange
    have hadded : ContentChange (fun _ => False) state.db
        { state.db with
          applications := state.db.applications ++ [application] } :=
      ⟨rfl, rfl, .concat ApplicationCarried.refl _ (not_not.mp hfresh),
        fun _ _ happlication _ => getElem?_append_of_some happlication,
        .refl PlanCarried.refl _ _, ⟨rfl, rfl, rfl, rfl, rfl, rfl, rfl⟩⟩
    exact .content (.inr rfl) (fun _ hnone => hnone.elim) hadded (.inl rfl)
  | addFormPlan plan =>
    cases hchange
    have hadded : ContentChange (fun _ => False) state.db
        { state.db with formPlans := state.db.formPlans ++ [plan] } :=
      ⟨rfl, rfl, .refl ApplicationCarried.refl _ _,
        fun _ _ happlication _ => happlication,
        .concat PlanCarried.refl _ trivial, ⟨rfl, rfl, rfl, rfl, rfl, rfl, rfl⟩⟩
    exact .content (.inr rfl) (fun _ hnone => hnone.elim) hadded (.inl rfl)
  | invalidateFormPlan id reason now =>
    obtain ⟨plan, hplan, rfl⟩ := Option.map_eq_some_iff.mp hchange
    have hcarried : Carried PlanCarried state.db.formPlans
        (state.db.formPlans.set id
          { plan with invalidatedAt := some now, invalidationReason := some reason }) :=
      .set PlanCarried.refl hplan (by rfl)
    have hinvalidated : ContentChange (fun _ => False) state.db
        (state.db.setFormPlan id
          { plan with invalidatedAt := some now, invalidationReason := some reason }) :=
      ⟨rfl, rfl, .refl ApplicationCarried.refl _ _,
        fun _ _ happlication _ => happlication, hcarried.evolved _,
        ⟨rfl, rfl, rfl, rfl, rfl, rfl, rfl⟩⟩
    exact .content (.inr rfl) (fun _ hnone => hnone.elim) hinvalidated (.inl rfl)
  | authorizeCanary authorization =>
    cases hchange
    exact .canaries _

/-! ### Executions -/

theorem fenced_eq_ok (hfenced : fenced db phase result = .ok outcome) :
    outcome = supersededBy db ∨
      ∃ after, result = .ok (some after) ∧
        outcome = { db := after, phase, called := false } := by
  unfold fenced at hfenced
  split at hfenced
  · cases hfenced
  · cases hfenced
    exact .inl rfl
  · next after =>
    cases hfenced
    exact .inr ⟨after, rfl, rfl⟩

/-- What one event of an execution did: nothing to the database, or one move of
the attempt it owns that fits the phase. -/
inductive WorkerMove (db : Db) (worker : Worker) : WorkerEvent → WorkerResult → Prop
  | quit {event : WorkerEvent} :
      WorkerMove db worker event (supersededBy db)
  | fail {event : WorkerEvent} {reason : FailureReason} :
      WorkerMove db worker event { db, phase := .failing reason, called := false }
  | preflighted {outcome : PreflightOutcome} (hphase : worker.phase = .preflighting) :
      WorkerMove db worker (.preflight outcome)
        { db, phase := .returned outcome, called := false }
  | finished {event : WorkerEvent} {after : Db}
      (howned : Owned db worker.attempt worker.token)
      (hmoved : Moved db worker.attempt .finish after) :
      WorkerMove db worker event { db := after, phase := .done, called := false }
  | entered {now : Timestamp} {after : Db} (hphase : worker.phase = .loaded)
      (howned : Owned db worker.attempt worker.token)
      (hmoved : Moved db worker.attempt .preflight after) :
      WorkerMove db worker (.enterPreflight now)
        { db := after, phase := .preflighting, called := false }
  | readied {now : Timestamp} {after : Db} {action : PreparedFinalActionV1}
      (hphase : worker.phase = .returned (.prepared action))
      (howned : Owned db worker.attempt worker.token)
      (hmoved : Moved db worker.attempt .ready after) :
      WorkerMove db worker (.markReady now)
        { db := after, phase := .readied action, called := false }
  | crossed {request : BoundaryRequest} {after : Db} {action : PreparedFinalActionV1}
      {old new : Submission} (hphase : worker.phase = .readied action)
      (howned : Owned db worker.attempt worker.token)
      (hmoved : MovedTo db worker.attempt .boundary old new after)
      (hstop : old.authorityKind = .qualifiedAutopilot → killSwitchActive db = false) :
      WorkerMove db worker (.enterBoundary request)
        { db := after, phase := .entered action, called := false }
  | called {startedAt finishedAt : Timestamp} {report : CommitReport} {survives : Bool}
      {after : Db} {action : PreparedFinalActionV1} {attempt : Submission}
      {command : SubmissionCommand} (hphase : worker.phase = .entered action)
      (hcontext : commitContext db worker.attempt worker.token = some (attempt, command))
      (hafter : after = db ∨ ∃ move, (move = .finish ∨ move = .verify) ∧
        Moved db worker.attempt move after) :
      WorkerMove db worker (.commit startedAt report finishedAt survives)
        { db := after, phase := .done, called := true }

theorem commitAction_eq_ok (hdb : OutboxConsistent db)
    (hphase : worker.phase = .entered action)
    (hcommit : commitAction db worker action startedAt report finishedAt survives =
      .ok result) :
    WorkerMove db worker (.commit startedAt report finishedAt survives) result := by
  unfold commitAction at hcommit
  split at hcommit
  · cases hcommit
    exact .quit
  · next attempt command hcontext =>
    obtain ⟨hrow, hcommand, hclaimed, htoken, hstage, _⟩ := commitContext_eq_some hcontext
    split at hcommit
    · rcases fenced_eq_ok hcommit with rfl | ⟨after, hfinish, rfl⟩
      · exact .quit
      cases hresult : finishAttempt db worker.attempt attempt command
        (unknownWith .finalActionUnconfirmed) startedAt with
      | error error =>
        rw [hresult] at hfinish
        cases hfinish
      | ok stored =>
        rw [hresult] at hfinish
        cases hfinish
        exact .finished ⟨attempt, command, hrow, hcommand, hclaimed, htoken⟩
          (moved_of_finish hdb hrow hcommand (.inl hclaimed) hresult)
    · split at hcommit
      · cases hcommit
        exact .called hphase hcontext (.inl rfl)
      · split at hcommit
        · cases hcommit
          exact .called hphase hcontext (.inl rfl)
        · next after hsettle =>
          cases hcommit
          exact .called hphase hcontext
            (.inr (settleCommit_eq_ok hdb hrow hcommand hclaimed hstage hsettle))

/-- Every event of an execution is one of its moves. -/
theorem workerStep_eq_some (hdb : OutboxConsistent db)
    (hstep : workerStep zone db worker event = some (.ok result)) :
    WorkerMove db worker event result := by
  unfold workerStep at hstep
  simp only at hstep
  split at hstep
  · cases hstep
  · cases hstep
    exact .quit
  · rcases fenced_eq_ok (Option.some.inj hstep) with rfl | ⟨after, hfinish, rfl⟩
    · exact .quit
    · obtain ⟨howned, hmoved⟩ := finishClaimedBeforeCommit_eq_ok hdb hfinish
      exact .finished howned hmoved
  · next hphase =>
    rcases fenced_eq_ok (Option.some.inj hstep) with rfl | ⟨after, henter, rfl⟩
    · exact .quit
    · obtain ⟨howned, hmoved⟩ := enterClaimedPreflight_eq_ok hdb henter
      exact .entered hphase howned hmoved
  · cases hstep
    exact .fail
  · next hphase =>
    cases hstep
    exact .preflighted hphase
  · obtain ⟨terminal, _, hfenced⟩ := Option.map_eq_some_iff.mp hstep
    rcases fenced_eq_ok hfenced with rfl | ⟨after, hfinish, rfl⟩
    · exact .quit
    · obtain ⟨howned, hmoved⟩ := finishUnprepared_eq_ok hdb hfinish
      exact .finished howned hmoved
  · next hphase =>
    have hready := Option.some.inj hstep
    split at hready
    · cases hready
    · cases hready
      exact .quit
    · cases hready
      exact .fail
    · next hmark =>
      cases hready
      obtain ⟨howned, hmoved⟩ := markClaimedAttemptReady_eq_ok hdb hmark
      exact .readied hphase howned hmoved
  · next hphase =>
    have hboundary := Option.some.inj hstep
    split at hboundary
    · cases hboundary
    · cases hboundary
      exact .quit
    · next henter =>
      cases hboundary
      rcases enterCommitBoundary_eq_ok hdb henter with
        hresult | ⟨_, hresult, howned, hmoved⟩ | ⟨_, _, _, hresult, _⟩
      · cases hresult
      · cases hresult
        exact .finished howned hmoved
      · cases hresult
    · next henter =>
      cases hboundary
      rcases enterCommitBoundary_eq_ok hdb henter with
        hresult | ⟨_, hresult, _⟩ | ⟨_, _, _, hresult, howned, hmoved, hstop⟩
      · cases hresult
      · cases hresult
      · cases hresult
        exact .crossed hphase howned hmoved hstop
  · next hphase => exact commitAction_eq_ok hdb hphase (Option.some.inj hstep)
  · cases hstep

/-- One event of an execution whose application is not locked. -/
theorem performWork_step (hwork : performWork zone state index event = .ok after) :
    ∃ worker result, state.workers[index]? = some worker ∧
      state.attemptLocked worker.attempt = false ∧
      workerStep zone state.db worker event = some (.ok result) ∧
      after =
        { state with
          db := result.db
          workers := state.workers.set index { worker with phase := result.phase }
          commits :=
            if result.called then state.commits ++ [worker.attempt] else state.commits } := by
  unfold performWork at hwork
  split at hwork
  · cases hwork
  next worker hworker =>
  split at hwork
  · cases hwork
  next hfree =>
  split at hwork
  · cases hwork
  · cases hwork
  next result hstep =>
  cases hwork
  exact ⟨worker, result, hworker, by simpa using hfree, hstep, rfl⟩

theorem performWork_eq_ok (hdb : OutboxConsistent state.db)
    (hwork : performWork zone state index event = .ok after) :
    ∃ worker result, state.workers[index]? = some worker ∧
      state.attemptLocked worker.attempt = false ∧
      WorkerMove state.db worker event result ∧
      after =
        { state with
          db := result.db
          workers := state.workers.set index { worker with phase := result.phase }
          commits :=
            if result.called then state.commits ++ [worker.attempt] else state.commits } := by
  obtain ⟨worker, result, hworker, hfree, hstep, hafter⟩ := performWork_step hwork
  exact ⟨worker, result, hworker, hfree, workerStep_eq_some hdb hstep, hafter⟩

/-- An execution moves the database by at most one step of its attempt. -/
theorem WorkerMove.moved (hmove : WorkerMove db worker event result) :
    result.db = db ∨
      ∃ move ∈ ActionKind.work.allows, Moved db worker.attempt move result.db := by
  cases hmove with
  | quit | fail | preflighted => exact .inl rfl
  | finished _ hmoved | entered _ _ hmoved | readied _ _ hmoved =>
    exact .inr ⟨_, by decide, hmoved⟩
  | crossed _ _ hmoved => exact .inr ⟨_, by decide, _, _, hmoved⟩
  | called _ _ hafter =>
    rcases hafter with rfl | ⟨move, hmove, hmoved⟩
    · exact .inl rfl
    · exact .inr ⟨move, by rcases hmove with rfl | rfl <;> decide, hmoved⟩

end Perform

/-! ## One table -/

/-- What an action of one kind may do to one attempt. -/
inductive RowStep (db : Db) : ActionKind → Submission → Submission → Prop
  | same {kind : ActionKind} (row : Submission) : RowStep db kind row row
  | moved {kind : ActionKind} {move : AttemptMove} {old new : Submission}
      (hmove : move ∈ kind.allows) (hstep : AttemptStep move old new)
      (hchecks : new.checks = true) :
      RowStep db kind old new
  | quarantined {old new : Submission} (hstep : LegacyStep db old new)
      (hchecks : new.checks = true) : RowStep db .legacy old new

/-- The attempts that an action of one kind may add. -/
inductive FreshRow (db : Db) : ActionKind → Submission → Prop
  | admitted {request : SubmissionCommandRequest} {row : Submission}
      (hrow : AdmittedRow request row) (hchecks : row.checks = true)
      (hadmissible : Admissible db row.applicationId row.applicationRevision) :
      FreshRow db .admission row
  | inserted (applicationId number : ℕ) (key : String) (now : Timestamp)
      (hexists : ∃ application, db.applications[applicationId]? = some application) :
      FreshRow db .legacy (legacyAttempt applicationId number key now)

variable {held : ℕ → Bool} {kind : ActionKind} {before : Db}

theorem Inserted.checks (hinserted : Inserted before rows after) :
    ∀ row ∈ rows, row.checks = true := by
  induction hinserted with
  | nil => simp
  | cons hinsert _ ih =>
    have hchecks := (Db.insertSubmission_eq_ok hinsert).2.1
    simpa using ⟨hchecks, ih⟩

theorem AttemptTransaction.evolved {id : ℕ}
    (htransaction : AttemptTransaction before id new after)
    (hrow : before.submissions[id]? = some old) (hstep : RowStep before kind old new) :
    Evolved (RowStep before kind) (FreshRow before kind) before.submissions after.submissions := by
  rw [htransaction.submissions]
  exact (Carried.set .same hrow hstep).evolved _

/-- Every attempt is rewritten by one step of the action's kind, and added
attempts are fresh. -/
theorem Change.submissions (hchange : Change held kind before after) :
    Evolved (RowStep before kind) (FreshRow before kind) before.submissions after.submissions := by
  have hsame : ∀ {db : Db}, db.submissions = before.submissions →
      Evolved (RowStep before kind) (FreshRow before kind) before.submissions db.submissions := by
    intro db heq
    rw [heq]
    exact .refl .same _ _
  cases hchange with
  | moved hmove _ _ hmoved =>
    obtain ⟨old, new, hmoved⟩ := hmoved
    exact hmoved.transaction.evolved hmoved.row
      (.moved hmove hmoved.step hmoved.transaction.checks)
  | cancelled _ _ _ hmoved =>
    exact hmoved.transaction.evolved hmoved.row
      (.moved (by decide) hmoved.step hmoved.transaction.checks)
  | content _ _ hcontent => exact hsame hcontent.submissions
  | canaries | retried | minted => exact hsame rfl
  | automated _ hautomated => exact hsame hautomated.submissions
  | committed _ hstaged _ hadmitted =>
    rw [hadmitted.tables.1]
    obtain ⟨accepted, stored, _, _, hinserted, _⟩ := hadmitted.steps
    refine .added .same _ fun row hrow => ?_
    obtain ⟨request, hadmitted, hadmissible, _⟩ := hstaged.rows row hrow
    exact .admitted hadmitted (hinserted.checks row hrow) hadmissible
  | granted hdelivered =>
    obtain ⟨grants, rfl, _⟩ := hdelivered
    exact hsame rfl
  | delivered hdelivered =>
    obtain ⟨outbox, rfl, _⟩ := hdelivered
    exact hsame rfl
  | quarantined _ hlegacy =>
    exact hlegacy.transaction.evolved hlegacy.row
      (.quarantined hlegacy.step hlegacy.transaction.checks)
  | inserted now _ hexists hinsert =>
    obtain ⟨rfl, _⟩ := Db.insertSubmission_eq_ok hinsert
    exact .concat .same _ (.inserted _ _ _ _ hexists)

/-- A relation that every step of a kind satisfies relates the attempts before and
after any number of changes of that kind. -/
theorem Changes.submissions {fresh : Submission → Prop} (hrefl : ∀ row, rel row row)
    (htrans : ∀ first second third, rel first second → rel second third →
      rel first third)
    (hkeep : ∀ old new, fresh old → rel old new → fresh new)
    (hstep : ∀ (db : Db) (old new : Submission), RowStep db kind old new → rel old new)
    (hfresh : ∀ (db : Db) (row : Submission), FreshRow db kind row → fresh row)
    (hchanges : Changes held kind before after) :
    Evolved rel fresh before.submissions after.submissions := by
  induction hchanges with
  | refl => exact .refl hrefl _ _
  | tail _ hchange ih =>
    exact ih.trans htrans hkeep (hchange.submissions.mono (hstep _) (hfresh _))

/-- No change but a retry prepares an application for another attempt. -/
theorem Change.applications (hchange : Change held kind before after) :
    kind = .retry ∨
      Evolved ApplicationCarried FreshApplication before.applications after.applications := by
  have hsame : ∀ {db : Db}, db.applications = before.applications →
      Evolved ApplicationCarried FreshApplication before.applications db.applications := by
    intro db heq
    rw [heq]
    exact .refl ApplicationCarried.refl _ _
  cases hchange with
  | moved _ _ _ hmoved =>
    obtain ⟨old, new, hmoved⟩ := hmoved
    exact .inr (hmoved.transaction.applications.evolved _)
  | cancelled _ _ _ hmoved => exact .inr (hmoved.transaction.applications.evolved _)
  | content _ _ hcontent => exact .inr hcontent.applications
  | canaries | minted => exact .inr (hsame rfl)
  | retried => exact .inl rfl
  | automated _ hautomated => exact .inr (hautomated.applications.evolved _)
  | committed _ _ _ hadmitted => exact .inr (hsame hadmitted.tables.2.1)
  | granted hdelivered =>
    obtain ⟨grants, rfl, _⟩ := hdelivered
    exact .inr (hsame rfl)
  | delivered hdelivered =>
    obtain ⟨outbox, rfl, _⟩ := hdelivered
    exact .inr (hsame rfl)
  | quarantined _ hlegacy => exact .inr (hlegacy.transaction.applications.evolved _)
  | inserted now _ _ hinsert =>
    obtain ⟨rfl, _⟩ := Db.insertSubmission_eq_ok hinsert
    exact .inr (hsame rfl)

theorem SameAuthority.autopilot (hsame : SameAuthority before after) :
    after.policies = before.policies ∧ after.decisions = before.decisions ∧
      after.killEvents = before.killEvents :=
  ⟨hsame.policies, hsame.decisions, hsame.killEvents⟩

/-- Only the automation service writes policies, decisions and the log of stops. -/
theorem Change.autopilot (hchange : Change held kind before after) (hkind : kind ≠ .automation) :
    after.policies = before.policies ∧ after.decisions = before.decisions ∧
      after.killEvents = before.killEvents := by
  cases hchange with
  | moved _ _ _ hmoved =>
    obtain ⟨old, new, hmoved⟩ := hmoved
    exact hmoved.transaction.authority.autopilot
  | cancelled _ _ _ hmoved => exact hmoved.transaction.authority.autopilot
  | content _ _ hcontent => exact hcontent.authority.autopilot
  | canaries | retried | minted => exact ⟨rfl, rfl, rfl⟩
  | automated => exact absurd rfl hkind
  | committed _ _ _ hadmitted => exact hadmitted.tables.2.2.2.2
  | granted hdelivered =>
    obtain ⟨grants, rfl, _⟩ := hdelivered
    exact ⟨rfl, rfl, rfl⟩
  | delivered hdelivered =>
    obtain ⟨outbox, rfl, _⟩ := hdelivered
    exact ⟨rfl, rfl, rfl⟩
  | quarantined _ hlegacy => exact hlegacy.transaction.authority.autopilot
  | inserted now _ _ hinsert =>
    obtain ⟨rfl, _⟩ := Db.insertSubmission_eq_ok hinsert
    exact ⟨rfl, rfl, rfl⟩

theorem Changes.autopilot (hchanges : Changes held kind before after)
    (hkind : kind ≠ .automation) :
    after.policies = before.policies ∧ after.decisions = before.decisions ∧
      after.killEvents = before.killEvents := by
  induction hchanges with
  | refl => exact ⟨rfl, rfl, rfl⟩
  | tail _ hchange ih =>
    obtain ⟨hpolicies, hdecisions, hkills⟩ := hchange.autopilot hkind
    exact ⟨hpolicies.trans ih.1, hdecisions.trans ih.2.1, hkills.trans ih.2.2⟩

end JobApplyAgent.Kernel
