import JobApplyAgent.Kernel.Accept
import JobApplyAgent.Kernel.Execution
import JobApplyAgent.Library.Transition

/-!
# The local system

The runner's machine as one transition system: a database, any number of
executions and open admissions, and every transaction as one step.  A
transaction that needs the row lock of an application waits while an open
admission holds it.  Other writers of applications and form plans are one
environment action that may write whatever they may write.
-/

namespace JobApplyAgent.Kernel

open Domain Store Library

/-- The state of the runner's machine.  `commits` is a history of the attempts
whose irreversible call was made. -/
structure LocalState where
  db : Db
  workers : List Worker
  admissions : List Admission
  nextToken : ℕ
  commits : List ℕ

/-- What the other writers of applications and plans may do. -/
inductive EnvironmentChange where
  | writeApplication (id : ℕ) (application : Application)
  | addApplication (application : Application)
  | addFormPlan (plan : FormPlan)
  | invalidateFormPlan (id : ℕ) (reason : AttemptReason) (now : Timestamp)
  | authorizeCanary (authorization : CanaryAuthorization)

inductive Action where
  | environment (change : EnvironmentChange)
  | claim (only : Option ℕ) (now : Timestamp) (runner : String)
      (runtime : WorkerRuntime)
  | load (id : ℕ) (readings : ExecutionReadings) (now : Timestamp)
  | work (worker : ℕ) (event : WorkerEvent)
  | reconcileStale (now : Timestamp) (staleSeconds : ℤ)
  | skip (applicationId : ℕ) (reason : AttemptReason) (text : String)
      (now : Timestamp)
  | retry (applicationId : ℕ) (reviewReady : Bool) (now : Timestamp)
  | reconcile (id : ℕ) (request : ReconcileRequest) (now : Timestamp)
  | beginAdmission (settings : AdmissionSettings) (capabilities : Capabilities)
      (requests : List SubmissionCommandRequest) (now : Timestamp)
  | accept (command : VerifiedControlCommand) (readings : AcceptanceReadings)
  | lookup (admission : ℕ)
  | admitItem (admission : ℕ) (readings : AdmissionReadings)
  | commitAdmission (admission : ℕ) (wallClock : Timestamp)
  | resolveConflict (admission : ℕ)
  | abortAdmission (admission : ℕ)
  | evaluate (applicationId formPlanId : ℕ) (now : Timestamp)
      (readings : AutomationReadings)
  | killSwitch (active : Bool) (source : PolicyAuthoritySource)
      (reasonCode : String) (commandDigest : Option String) (now : Timestamp)
  | remoteKillSwitch (command : VerifiedKillSwitchCommand) (now : Timestamp)
  | activatePolicy (policy : AutoSubmitPolicyV1) (signingKeyId : String)
      (accepted : Bool) (now : Timestamp)
  | revokePolicy (reasonCode : String) (now : Timestamp)
  | mint (request : MintRequest) (now : Timestamp)
  | claimProjection (runner : String) (now : Timestamp)
  | markProjected (id token : ℕ) (now : Timestamp)
  | releaseProjection (id token : ℕ) (now : Timestamp)
  | claimRevocation (runner : String) (now : Timestamp)
  | markRevoked (id token : ℕ) (now : Timestamp)
  | releaseRevocation (id token : ℕ) (now : Timestamp)
  | claimEvent (locked : ℕ → Bool) (runner : String) (now : Timestamp)
  | finishDelivery (id token : ℕ) (delivered : Bool) (now : Timestamp)
  | legacyClaim (applicationId : ℕ) (idempotencyKey : String) (now : Timestamp)
  | legacyMarkStale (now : Timestamp) (staleMinutes : ℤ)
  | legacyMarkUnknown (id : ℕ) (reason : AttemptReason) (now : Timestamp)

/-- Why an action leaves the state unchanged. -/
inductive ActionError where
  | disabled
  | kernel (error : KernelError)
  | automation (error : AutomationError)
  | grant (error : ReviewGrantError)
  | runner (error : ControlPlaneRunnerError)
  | admission (error : SubmissionAdmissionError)

namespace LocalState

variable (state : LocalState)

/-- An open admission holds the row lock of an application. -/
def locked (applicationId : ℕ) : Bool :=
  state.admissions.any fun admission => decide (applicationId ∈ admission.locks)

/-- Another admission than `index` holds the row lock of an application. -/
def lockedByOther (index applicationId : ℕ) : Bool :=
  state.admissions.zipIdx.any fun entry =>
    decide (entry.2 ≠ index) && decide (applicationId ∈ entry.1.locks)

def attemptLocked (id : ℕ) : Bool :=
  (state.db.submissions[id]?).any fun attempt => state.locked attempt.applicationId

def withDb (db : Db) : LocalState := { state with db }

def setAdmission (index : ℕ) (admission : Admission) : LocalState :=
  { state with admissions := state.admissions.set index admission }

end LocalState

instance (application : Application) : Decidable (FreshApplication application) :=
  decidable_of_iff
    (application.status ≠ .approved ∧ application.approvalSource ≠ some .retryPrepare)
    ⟨fun ⟨happroved, hprepared⟩ => ⟨happroved, hprepared⟩,
      fun ⟨happroved, hprepared⟩ => ⟨happroved, hprepared⟩⟩

instance (before after : Application) : Decidable (ApplicationCarried before after) :=
  decidable_of_iff
    ((after.status = .approved → before.status = .approved) ∧
      (after.approvalSource = some .retryPrepare →
        before.approvalSource = some .retryPrepare ∧
          after.preparedRevision = before.preparedRevision ∧
          after.approvedAt = before.approvedAt))
    ⟨fun ⟨happroved, hprepared⟩ => ⟨happroved, hprepared⟩,
      fun ⟨happroved, hprepared⟩ => ⟨happroved, hprepared⟩⟩

/-- An environment write on unlocked rows. -/
def environmentChange (state : LocalState) (change : EnvironmentChange) :
    Option Db :=
  let db := state.db
  match change with
  | .writeApplication id application =>
    match db.applications[id]? with
    | none => none
    | some old =>
      if state.locked id ∨ ¬ApplicationCarried old application then none
      else some (db.setApplication id application)
  | .addApplication application =>
    if ¬FreshApplication application then none
    else some { db with applications := db.applications ++ [application] }
  | .addFormPlan plan =>
    some { db with formPlans := db.formPlans ++ [plan] }
  | .invalidateFormPlan id reason now =>
    (db.formPlans[id]?).map fun plan =>
      db.setFormPlan id
        { plan with invalidatedAt := some now, invalidationReason := some reason }
  | .authorizeCanary authorization =>
    some
      { db with canaryAuthorizations := db.canaryAuthorizations ++ [authorization] }

/-- One transaction on the database that needs no lock of its own or finds its
lock free. -/
def transact {ε : Type} (state : LocalState) (wrap : ε → ActionError)
    (blocked : Bool) (result : Except ε Db) : Except ActionError LocalState :=
  if blocked then .error .disabled
  else
    match result with
    | .error error => .error (wrap error)
    | .ok db => .ok (state.withDb db)

def transactClaim {ε : Type} (state : LocalState) (wrap : ε → ActionError)
    (result : Except ε (Db × Option ℕ)) : Except ActionError LocalState :=
  match result with
  | .error error => .error (wrap error)
  | .ok (db, _) => .ok { state with db, nextToken := state.nextToken + 1 }

/-- One event of one execution. -/
def performWork (zone : Zone) (state : LocalState) (index : ℕ) (event : WorkerEvent) :
    Except ActionError LocalState :=
  match state.workers[index]? with
  | none => .error .disabled
  | some worker =>
    if state.attemptLocked worker.attempt then .error .disabled
    else
      match workerStep zone state.db worker event with
      | none => .error .disabled
      | some (.error error) => .error (.kernel error)
      | some (.ok result) =>
        .ok
          { state with
            db := result.db
            workers := state.workers.set index { worker with phase := result.phase }
            commits :=
              if result.called then state.commits ++ [worker.attempt]
              else state.commits }

/-- Stage a remote command behind the lock of its grant's application. -/
def performAccept (state : LocalState) (command : VerifiedControlCommand)
    (readings : AcceptanceReadings) :
    Except ActionError (LocalState × AcceptanceStep) :=
  let applicationId := (grantWithRef state.db command.grantId).map
    fun entry => entry.1.applicationId
  if applicationId.any state.locked then .error .disabled
  else
    match lockAcceptance state.db command readings with
    | .error error => .error (.runner error)
    | .ok (.replayed accepted) => .ok (state, .replayed accepted)
    | .ok (.staged admission) =>
      .ok ({ state with admissions := state.admissions ++ [admission] },
        .staged admission)

/-- A running admission whose next item has, or has not, been looked up. -/
def Admission.waitsFor (admission : Admission) (lookedUp : Bool) : Bool :=
  match admission.phase with
  | .running => !admission.waiting.isEmpty && decide (admission.lookedUp = lookedUp)
  | _ => false

def Admission.complete (admission : Admission) : Bool :=
  match admission.phase with
  | .running => admission.waiting.isEmpty
  | _ => false

def Admission.inConflict (admission : Admission) : Bool :=
  match admission.phase with
  | .conflicted => true
  | _ => false

def Admission.ended (admission : Admission) : Bool :=
  match admission.phase with
  | .done _ | .failed _ => true
  | _ => false

def nextApplication (admission : Admission) : Option ℕ :=
  admission.waiting.head?.map SubmissionCommandRequest.applicationId

/-- One step of an open admission. -/
def performAdmission (zone : Zone) (state : LocalState) (index : ℕ)
    (action : Action) : Except ActionError LocalState :=
  match state.admissions[index]?, action with
  | some admission, .lookup _ =>
    if admission.waitsFor false then
      .ok (state.setAdmission index (lookupItem state.db admission))
    else .error .disabled
  | some admission, .admitItem _ readings =>
    if admission.waitsFor true
        ∧ ¬(nextApplication admission).any (state.lockedByOther index) then
      .ok (state.setAdmission index (admitItem zone state.db admission readings))
    else .error .disabled
  | some admission, .commitAdmission _ wallClock =>
    if admission.complete then
      let (db, ended) := commitAdmission state.db admission wallClock
      .ok ((state.withDb db).setAdmission index ended)
    else .error .disabled
  | some admission, .resolveConflict _ =>
    if admission.inConflict then
      .ok (state.setAdmission index (resolveConflict state.db admission))
    else .error .disabled
  | some admission, .abortAdmission _ =>
    if admission.ended then .error .disabled
    else .ok (state.setAdmission index (admission.fail .runtimeNotReady))
  | _, _ => .error .disabled

def perform (zone : Zone) (state : LocalState) (action : Action) :
    Except ActionError LocalState :=
  let db := state.db
  match action with
  | .environment change =>
    match environmentChange state change with
    | none => .error .disabled
    | some after => .ok (state.withDb after)
  | .claim only now runner runtime =>
    transactClaim state .kernel
      (claimSubmissionCommand db state.locked only now runner state.nextToken runtime)
  | .load id readings now =>
    match loadWorker db id readings now with
    | none => .error .disabled
    | some worker => .ok { state with workers := state.workers ++ [worker] }
  | .work index event => performWork zone state index event
  | .reconcileStale now staleSeconds =>
    transact state .kernel false
      (reconcileStaleSubmissionCommands db state.locked now staleSeconds)
  | .skip applicationId reason text now =>
    transact state .kernel (state.locked applicationId)
      (skipApplication db applicationId reason text now)
  | .retry applicationId reviewReady now =>
    transact state .kernel (state.locked applicationId)
      (retryApplication db applicationId reviewReady now)
  | .reconcile id request now =>
    transact state .kernel (state.attemptLocked id)
      (reconcileAttempt db id request now)
  | .beginAdmission settings capabilities requests now =>
    -- only the acceptance of a remote command passes this authority
    if requests.any fun request => request.authorityKind = .controlPlane then
      .error .disabled
    else
      match beginAdmission settings capabilities requests now with
      | .error error => .error (.admission error)
      | .ok admission =>
        .ok { state with admissions := state.admissions ++ [admission] }
  | .accept command readings =>
    (performAccept state command readings).map Prod.fst
  | .lookup index | .admitItem index _ | .commitAdmission index _
  | .resolveConflict index | .abortAdmission index =>
    performAdmission zone state index action
  | .evaluate applicationId formPlanId now readings =>
    transact state .automation (state.locked applicationId)
      ((evaluateAutoSubmitPolicy zone db applicationId formPlanId now readings).map
        Prod.fst)
  | .killSwitch active source reasonCode commandDigest now =>
    transact state .automation false
      ((setAutomationKillSwitch db active source reasonCode commandDigest now).map
        Prod.fst)
  | .remoteKillSwitch command now =>
    transact state .runner false
      ((activateControlPlaneKillSwitch db command now).map Prod.fst)
  | .activatePolicy policy signingKeyId accepted now =>
    transact state .automation false
      (activateAutoSubmitPolicy db policy signingKeyId accepted now)
  | .revokePolicy reasonCode now =>
    transact state .automation false (revokeAutoSubmitPolicy db reasonCode now)
  | .mint request now =>
    transact state .grant (state.locked request.applicationId)
      (mintControlPlaneReviewGrant db request now)
  | .claimProjection runner now =>
    transactClaim state .grant
      (claimReviewGrantProjection db runner state.nextToken now)
  | .markProjected id token now =>
    transact state .grant false (markReviewGrantProjected db id token now)
  | .releaseProjection id token now =>
    transact state .grant false (releaseReviewGrantProjection db id token now)
  | .claimRevocation runner now =>
    transactClaim state .grant
      (claimReviewGrantRevocation db runner state.nextToken now)
  | .markRevoked id token now =>
    transact state .grant false (markReviewGrantRevocationDelivered db id token now)
  | .releaseRevocation id token now =>
    transact state .grant false (releaseReviewGrantRevocation db id token now)
  | .claimEvent locked runner now =>
    transactClaim state ActionError.grant
      (.ok (claimControlPlaneEvent db locked runner state.nextToken now))
  | .finishDelivery id token delivered now =>
    match deliverClaimedControlPlaneEvent db id token delivered now with
    | none => .error .disabled
    | some after => .ok (state.withDb after)
  | .legacyClaim applicationId idempotencyKey now =>
    transact state .kernel (state.locked applicationId)
      (claimAttempt db applicationId idempotencyKey now)
  | .legacyMarkStale now staleMinutes =>
    transact state .kernel
      ((staleLegacyAttempts db (staleCutoff now staleMinutes)).any
        state.attemptLocked)
      (markStaleAttemptsUnknown db now staleMinutes)
  | .legacyMarkUnknown id reason now =>
    transact state .kernel (state.attemptLocked id)
      (markAttemptUnknown db id reason now)

/-- An attempt that was imported from the v3 tables: finished, without permit
and command. -/
structure ImportedAttempt (db : Db) (attempt : Submission) : Prop where
  checks : attempt.checks = true
  stage : attempt.stage = .finished
  outcome : attempt.outcome = some .legacyUnverified ∧ attempt.status = .success ∨
    ∃ outcome, attempt.outcome = some outcome ∧
      attempt.status = legacyTerminalProjection outcome ∧
      outcome ≠ .confirmedSubmitted ∧ outcome ≠ .alreadyApplied
  permit : attempt.permit = none
  command : attempt.command = none
  finalActionAt : attempt.finalActionAt = none
  application : ∃ application, db.applications[attempt.applicationId]? = some application

/-- The tables after the migration: applications, plans and imported attempts,
and nothing of the later components. -/
structure Migrated (db : Db) : Prop where
  applications : AllRows db.applications fun application =>
    application.approvalSource ≠ some .retryPrepare
  imported : AllRows db.submissions (ImportedAttempt db)
  applicationRefs : db.applicationRefs = []
  reviewGrants : db.reviewGrants = []
  receipts : db.receipts = []
  outbox : db.outbox = []
  policies : db.policies = []
  decisions : db.decisions = []
  killEvents : db.killEvents = []
  canaryAuthorizations : db.canaryAuthorizations = []

/-- Every run starts from migrated tables, with nothing going on. -/
structure InitialState (state : LocalState) : Prop where
  db : Migrated state.db
  workers : state.workers = []
  admissions : state.admissions = []
  commits : state.commits = []

def localSystem (zone : Zone) : TransitionSystem LocalState Action where
  initial := InitialState
  step := fun before action after => perform zone before action = .ok after

end JobApplyAgent.Kernel
