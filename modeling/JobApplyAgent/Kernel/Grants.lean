import JobApplyAgent.Kernel.Admission

/-!
# Review grants

Minting, validating and revoking the short-lived local authority behind a
remote command, and the claims under which its projection and its revocation
are delivered.  A claim is a lease of thirty seconds.
-/

namespace JobApplyAgent.Kernel

open Domain Store Library

/-- A stable, fail-closed review-grant rejection. -/
inductive ReviewGrantError where
  | ttlInvalid
  | runtimeNotReady
  | runnerIdInvalid
  | applicationNotFound
  | applicationReviewRequired
  | formPlanNotFound
  | formPlanBlocked
  | formPlanExpired
  | formChanged
  | attachmentUnverified
  | attachmentChanged
  | jobUrlInvalid
  | jobUrlChanged
  | notFound
  | revoked
  | notRevoked
  | replayed
  | expired
  | remoteApplicationChanged
  | buildMismatch
  | applicationRevisionChanged
  | cvSelectionChanged
  | adapterVersionChanged
  | selectorDrift
  | projectionClaimLost
  | revocationClaimLost
  | integrity

def maxReviewGrantTtlSeconds : ℤ := 300

def projectionClaimTtl : Timestamp := 30 * second

/-- The reviewed plan behind a grant, still valid at the given instant. -/
def currentPlan (db : Db) (applicationId formPlanId : ℕ) (now : Timestamp) :
    Except ReviewGrantError FormPlan :=
  match db.formPlans[formPlanId]? with
  | none => .error .formPlanNotFound
  | some plan =>
    if plan.applicationId ≠ applicationId then .error .formPlanNotFound
    else if plan.invalidatedAt.isSome then .error .formChanged
    else
      match loadDomainPlan plan with
      | none => .error .formPlanBlocked
      | some domainPlan =>
        if domainPlan.isExpired now then .error .formPlanExpired
        else if ¬domainPlan.readyForPermitAt now then
          if ¬plan.attachmentVerified then .error .attachmentUnverified
          else .error .formPlanBlocked
        else .ok plan

/-- A fresh local review supersedes every unconsumed projection. -/
def revokeGrant (applicationId : ℕ) (now : Timestamp) (grant : ReviewGrant) :
    ReviewGrant :=
  if grant.applicationId = applicationId ∧ grant.consumedAt = none
      ∧ grant.revokedAt = none then
    { grant with
      revokedAt := some now
      revocationAvailableAt := some now
      revocationState := if now < grant.expiresAt then .pending else .expired }
  else grant

/-- What minting reads and draws besides the tables. -/
structure MintRequest where
  applicationId : ℕ
  formPlanId : ℕ
  runnerRelease : String
  ttlSeconds : ℤ
  jobUrlHash : Option String
  newGrantRef : String
  newApplicationRef : String

def applicationRefFor (db : Db) (applicationId : ℕ) : Option String :=
  (db.applicationRefs.find? fun row => row.applicationId = applicationId).map
    ApplicationRef.remoteRef

def mintedGrant (request : MintRequest) (application : Application)
    (plan : FormPlan) (remoteRef jobUrlHash : String) (expiresAt now : Timestamp) :
    ReviewGrant where
  grantRef := request.newGrantRef
  applicationId := request.applicationId
  remoteApplicationRef := remoteRef
  formPlanId := request.formPlanId
  applicationRevision := application.revision
  jobUrlHash
  formPlanFingerprint := plan.fingerprint
  cvHash := columnText plan.attachedCvHash
  adapterName := plan.adapterName
  adapterVersion := plan.adapterVersion
  selectorVersion := plan.selectorVersion
  runnerRelease := request.runnerRelease
  issuedAt := now
  expiresAt
  revokedAt := none
  consumedAt := none
  consumedCommandRef := none
  projectionState := .pending
  projectionAvailableAt := now
  projectionClaimedAt := none
  projectionClaimToken := none
  projectedAt := none
  revocationState := .none
  revocationAvailableAt := none
  revocationClaimedAt := none
  revocationClaimToken := none
  revocationSentAt := none

/-- The checks on the application and the plan of a grant to be minted. -/
def mintBindings (application : Application) (plan : FormPlan) :
    List (Bool × ReviewGrantError) :=
  [(decide (plan.applicationRevision = application.revision), .formChanged),
    (decide (some plan.selectedCvId = application.selectedCvId), .formChanged),
    (decide (some plan.selectedCvHash = application.selectedCvHash), .formChanged),
    (decide (plan.profileVersion = application.profileVersion), .formChanged),
    (decide (columnText plan.attachedCvHash ≠ "") && plan.attachmentVerified,
      .formChanged),
    (decide (plan.attachedCvId = some plan.selectedCvId)
      && decide (plan.attachedCvHash = some plan.selectedCvHash),
      .attachmentUnverified)]

def storeMintedGrant (db : Db) (request : MintRequest) (grant : ReviewGrant)
    (now : Timestamp) : Except ReviewGrantError Db :=
  if db.reviewGrants.any fun row => row.grantRef = grant.grantRef then
    .error .integrity
  else if (applicationRefFor db request.applicationId).isNone
      ∧ db.applicationRefs.any fun row => row.remoteRef = request.newApplicationRef then
    .error .integrity
  else
    .ok
      { db with
        applicationRefs :=
          if (applicationRefFor db request.applicationId).isSome then db.applicationRefs
          else db.applicationRefs ++
            [{ applicationId := request.applicationId
               remoteRef := request.newApplicationRef }]
        reviewGrants :=
          db.reviewGrants.map (revokeGrant request.applicationId now) ++ [grant] }

/-- Mint private exact bindings for the opaque cloud projection. -/
def mintControlPlaneReviewGrant (db : Db) (request : MintRequest)
    (now : Timestamp) : Except ReviewGrantError Db :=
  if ¬(1 ≤ request.ttlSeconds ∧ request.ttlSeconds ≤ maxReviewGrantTtlSeconds) then
    .error .ttlInvalid
  else if ¬(1 ≤ request.runnerRelease.length ∧ request.runnerRelease.length ≤ 64) then
    .error .runtimeNotReady
  else
    match db.applications[request.applicationId]? with
    | none => .error .applicationNotFound
    | some application =>
      if ¬(application.status = .draft ∧ preparationIsCurrent application) then
        .error .applicationReviewRequired
      else do
        let plan ← currentPlan db request.applicationId request.formPlanId now
        requireBindings (mintBindings application plan)
        let expiresAt := min plan.expiresAt (now + request.ttlSeconds * second)
        if expiresAt ≤ now then .error .formPlanExpired
        else
          match request.jobUrlHash with
          | none => .error .jobUrlInvalid
          | some jobUrlHash =>
            let remoteRef := (applicationRefFor db request.applicationId).getD
              request.newApplicationRef
            storeMintedGrant db request
              (mintedGrant request application plan remoteRef jobUrlHash expiresAt
                now) now

def grantWithRef (db : Db) (grantRef : String) : Option (ReviewGrant × ℕ) :=
  db.reviewGrants.zipIdx.find? fun entry => entry.1.grantRef = grantRef

def grantBindings (grant : ReviewGrant) (application : Application)
    (plan : FormPlan) (jobUrlHash : String) : List (Bool × ReviewGrantError) :=
  [(decide (grant.applicationRevision = application.revision),
      .applicationRevisionChanged),
    (decide (grant.applicationRevision = plan.applicationRevision),
      .applicationRevisionChanged),
    (decide (grant.jobUrlHash = jobUrlHash), .jobUrlChanged),
    (decide (grant.formPlanFingerprint = plan.fingerprint), .formChanged),
    (decide (grant.cvHash = columnText application.selectedCvHash),
      .cvSelectionChanged),
    (decide (grant.cvHash = plan.selectedCvHash), .cvSelectionChanged),
    (decide (grant.cvHash = columnText plan.attachedCvHash), .attachmentChanged),
    (decide (grant.adapterName = plan.adapterName), .adapterVersionChanged),
    (decide (grant.adapterVersion = plan.adapterVersion), .adapterVersionChanged),
    (decide (grant.selectorVersion = plan.selectorVersion), .selectorDrift),
    (plan.attachmentVerified && decide (plan.attachedCvId = some plan.selectedCvId),
      .attachmentUnverified)]

/-- Revalidate every private binding of a locked grant. -/
def validateControlPlaneReviewGrant (db : Db) (grantRef remoteApplicationRef
    runnerRelease : String) (jobUrlHash : Option String) (now : Timestamp) :
    Except ReviewGrantError (ReviewGrant × ℕ) :=
  match grantWithRef db grantRef with
  | none => .error .notFound
  | some (grant, id) =>
    match db.applications[grant.applicationId]? with
    | none => .error .applicationNotFound
    | some application => do
        requireBindings
          [(grant.revokedAt.isNone, .revoked),
            (grant.consumedAt.isNone, .replayed),
            (decide (now < grant.expiresAt), .expired),
            (decide (grant.remoteApplicationRef = remoteApplicationRef),
              .remoteApplicationChanged),
            (decide (grant.runnerRelease = runnerRelease), .buildMismatch),
            (decide (application.status = .draft)
              && preparationIsCurrent application, .applicationReviewRequired)]
        let plan ← currentPlan db grant.applicationId grant.formPlanId now
        match jobUrlHash with
        | none => .error .jobUrlInvalid
        | some hash =>
          requireBindings (grantBindings grant application plan hash)
          return (grant, id)

/-! ## Delivery claims -/

def runnerIdValid (runnerId : String) : Bool :=
  decide (1 ≤ runnerId.length) && decide (runnerId.length ≤ 64)

def projectionReleased (now : Timestamp) (grant : ReviewGrant) : ReviewGrant :=
  { grant with
    projectionState := .pending
    projectionClaimedAt := none
    projectionClaimToken := none
    projectionAvailableAt := now }

def projectionStale (now : Timestamp) (grant : ReviewGrant) : Bool :=
  decide (grant.projectionState = .claimed)
    && grant.projectionClaimedAt.any
      (fun claimedAt => decide (claimedAt < now - projectionClaimTtl))
    && grant.projectedAt.isNone

def projectionDue (now : Timestamp) (grant : ReviewGrant) : Bool :=
  decide (grant.projectionState = .pending)
    && decide (grant.projectionAvailableAt ≤ now) && decide (now < grant.expiresAt)
    && grant.revokedAt.isNone && grant.consumedAt.isNone

def revocationOutstanding (now : Timestamp) (grant : ReviewGrant) : Bool :=
  decide (grant.revocationState = .pending ∨ grant.revocationState = .claimed)
    && decide (now < grant.expiresAt)

/-- Claim one due projection; a pending revocation goes first. -/
def claimReviewGrantProjection (db : Db) (runnerId : String) (token : ℕ)
    (now : Timestamp) : Except ReviewGrantError (Db × Option ℕ) :=
  if ¬runnerIdValid runnerId then .error .runnerIdInvalid
  else if db.reviewGrants.any (revocationOutstanding now) then .ok (db, none)
  else
    let recovered := rewriteRanked db.reviewGrants (projectionStale now) (fun _ => 0) 25
      (projectionReleased now)
    match (ranked recovered (projectionDue now)
        ReviewGrant.projectionAvailableAt).head? with
    | none => .ok ({ db with reviewGrants := recovered }, none)
    | some (grant, id) =>
      .ok
        ({ db with
            reviewGrants := recovered.set id
              { grant with
                projectionState := .claimed
                projectionClaimedAt := some now
                projectionClaimToken := some token } },
          some id)

def projectionClaimed (db : Db) (id token : ℕ) : Option ReviewGrant :=
  (db.reviewGrants[id]?).filter fun grant =>
    decide (grant.projectionState = .claimed)
      && decide (grant.projectionClaimToken = some token)

def markReviewGrantProjected (db : Db) (id token : ℕ) (now : Timestamp) :
    Except ReviewGrantError Db :=
  match projectionClaimed db id token with
  | none => .error .projectionClaimLost
  | some grant =>
    .ok
      { db with
        reviewGrants := db.reviewGrants.set id
          { grant with
            projectionState := .projected
            projectedAt := some now
            projectionClaimedAt := none
            projectionClaimToken := none } }

def releaseReviewGrantProjection (db : Db) (id token : ℕ) (now : Timestamp) :
    Except ReviewGrantError Db :=
  match projectionClaimed db id token with
  | none => .error .projectionClaimLost
  | some grant =>
    .ok
      { db with
        reviewGrants := db.reviewGrants.set id
          (projectionReleased (now + 10 * second) grant) }

def revocationReleased (now : Timestamp) (grant : ReviewGrant) : ReviewGrant :=
  { grant with
    revocationState := .pending
    revocationClaimedAt := none
    revocationClaimToken := none
    revocationAvailableAt := some now }

def revocationStale (now : Timestamp) (grant : ReviewGrant) : Bool :=
  decide (grant.revocationState = .claimed)
    && grant.revocationClaimedAt.any
      (fun claimedAt => decide (claimedAt < now - projectionClaimTtl))
    && grant.revocationSentAt.isNone

def revocationExpired (now : Timestamp) (grant : ReviewGrant) : Bool :=
  decide (grant.revocationState = .pending) && decide (grant.expiresAt ≤ now)

def revocationDue (now : Timestamp) (grant : ReviewGrant) : Bool :=
  decide (grant.revocationState = .pending)
    && grant.revocationAvailableAt.any (fun availableAt => decide (availableAt ≤ now))
    && decide (now < grant.expiresAt) && grant.revokedAt.isSome
    && grant.consumedAt.isNone

def claimReviewGrantRevocation (db : Db) (runnerId : String) (token : ℕ)
    (now : Timestamp) : Except ReviewGrantError (Db × Option ℕ) :=
  if ¬runnerIdValid runnerId then .error .runnerIdInvalid
  else
    let recovered := rewriteRanked db.reviewGrants (revocationStale now) (fun _ => 0) 25
      (revocationReleased now)
    let expired := rewriteRanked recovered (revocationExpired now) (fun _ => 0) 25
      fun grant => { grant with revocationState := .expired }
    match (ranked expired (revocationDue now)
        (fun grant => grant.revocationAvailableAt.getD 0)).head? with
    | none => .ok ({ db with reviewGrants := expired }, none)
    | some (grant, id) =>
      .ok
        ({ db with
            reviewGrants := expired.set id
              { grant with
                revocationState := .claimed
                revocationClaimedAt := some now
                revocationClaimToken := some token } },
          some id)

def revocationClaimed (db : Db) (id token : ℕ) : Option ReviewGrant :=
  (db.reviewGrants[id]?).filter fun grant =>
    decide (grant.revocationState = .claimed)
      && decide (grant.revocationClaimToken = some token)

def markReviewGrantRevocationDelivered (db : Db) (id token : ℕ)
    (now : Timestamp) : Except ReviewGrantError Db :=
  match revocationClaimed db id token with
  | none => .error .revocationClaimLost
  | some grant =>
    .ok
      { db with
        reviewGrants := db.reviewGrants.set id
          { grant with
            revocationState := .delivered
            revocationSentAt := some now
            revocationClaimedAt := none
            revocationClaimToken := none } }

def releaseReviewGrantRevocation (db : Db) (id token : ℕ) (now : Timestamp) :
    Except ReviewGrantError Db :=
  match revocationClaimed db id token with
  | none => .error .revocationClaimLost
  | some grant =>
    .ok
      { db with
        reviewGrants := db.reviewGrants.set id
          { revocationReleased (now + 10 * second) grant with
            revocationState :=
              if grant.expiresAt ≤ now then .expired else .pending } }

end JobApplyAgent.Kernel
