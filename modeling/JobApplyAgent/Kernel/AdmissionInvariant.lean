import JobApplyAgent.Kernel.StoreInvariant
import JobApplyAgent.Kernel.Perform

/-!
# Open admissions

What an open admission has flushed may still be committed: its locks keep the
checks it has passed true, whatever other transactions commit meanwhile.
-/

namespace JobApplyAgent.Kernel

open Domain Store Library

variable {admission : Admission}

/-! ## Other transactions -/

variable {id : ℕ}

theorem Admissible.framed (hadmissible : Admissible db applicationId revision)
    (hframed : Framed applicationId db after) : Admissible after applicationId revision where
  application := by
    obtain ⟨application, happlication, hdraft, hcurrent, hrevision, hretry⟩ :=
      hadmissible.application
    refine ⟨application, hframed.application application happlication, hdraft, hcurrent,
      hrevision, ?_⟩
    rintro ⟨attempt, hattempt, happ⟩
    exact hretry ⟨attempt, hframed.attempts attempt hattempt happ, happ⟩
  finished := fun attempt hattempt happ =>
    hadmissible.finished attempt (hframed.attempts attempt hattempt happ) happ

/-- The locks of an admission protect everything it has staged. -/
theorem AdmissionOk.framed (hok : AdmissionOk db admission)
    (hframed : ∀ id ∈ admission.locks, Framed id db after) : AdmissionOk after admission where
  scope := hok.scope
  staged := by
    refine ⟨fun row hrow => ?_, fun acceptance hacceptance => ?_⟩
    · obtain ⟨request, hadmitted, hadmissible, hlock⟩ := hok.staged.rows row hrow
      exact ⟨request, hadmitted, hadmissible.framed (hframed _ hlock), hlock⟩
    · have haccepted := hok.staged.acceptance acceptance hacceptance
      refine ⟨?_, haccepted.event, haccepted.key⟩
      obtain ⟨grant, hgrant, hlock, hconsumed, hrevoked⟩ := haccepted.grant
      obtain ⟨kept, hkept, hcarried⟩ := (hframed _ hlock).grants _ grant hgrant rfl
      rw [hcarried] at hkept
      exact ⟨_, hkept, hlock, hconsumed, hrevoked⟩

/-! ## The steps of one admission -/

/-- Nothing is staged and nothing waits. -/
structure Admission.Cleared (admission : Admission) : Prop where
  staged : admission.staged = nothingStaged
  waiting : admission.waiting = []

theorem Admission.Cleared.ok (hcleared : admission.Cleared) : AdmissionOk db admission where
  staged := by
    rw [hcleared.staged]
    exact ⟨by simp [nothingStaged], by simp [nothingStaged]⟩
  scope := by
    unfold AdmissionScope
    rw [hcleared.staged, hcleared.waiting]
    simp [nothingStaged]

theorem Admission.fail_cleared (error : SubmissionAdmissionError) :
    (admission.fail error).Cleared := ⟨rfl, rfl⟩

theorem Admission.conflict_cleared : admission.conflict.Cleared := ⟨rfl, rfl⟩

/-- The result of a step keeps the invariant and at most the locks it had, up to
one new lock. -/
structure AdmissionStepOk (db : Db) (locks : List ℕ) (next : Admission) : Prop where
  ok : AdmissionOk db next
  locks : ∀ id ∈ next.locks, id ∈ locks

theorem Admission.reject_ok (locks : List ℕ) (error : SubmissionAdmissionError) :
    AdmissionStepOk db locks (admission.reject error) := by
  unfold Admission.reject
  split
  · exact ⟨Admission.conflict_cleared.ok, by simp [Admission.conflict]⟩
  · exact ⟨(Admission.fail_cleared error).ok, by simp [Admission.fail]⟩

variable {view : Db}

theorem findReplay_authority (hreplay : findReplay view request = .ok (some id)) :
    ∃ attempt, view.submissions[id]? = some attempt ∧
      attempt.authorityKind = request.authorityKind ∧
      (attemptBindings attempt).commandKey = some request.clientIdempotencyKey := by
  obtain ⟨attempt, hfound, hbinds⟩ := findReplay_eq_ok hreplay
  obtain ⟨hattempt, command, hcommand, hkey⟩ := commandWithKey_eq_some hfound
  simp only [replayBinds, Bool.and_eq_true, decide_eq_true_eq] at hbinds
  exact ⟨attempt, hattempt, hbinds.1.1.2, by simp [attemptBindings, hcommand, hkey]⟩

theorem not_replayed_of_acceptance (hlinks : LinksOk db)
    (happly : applyStaged db admission.staged = .ok view) (hok : AdmissionOk db admission)
    (hwaiting : admission.waiting = request :: rest)
    (hreplay : findReplay view request = .ok (some id)) :
    admission.staged.acceptance = none := by
  cases hacceptance : admission.staged.acceptance with
  | none => rfl
  | some acceptance =>
    exfalso
    have hscope := hok.scope
    unfold AdmissionScope at hscope
    rw [hacceptance, hwaiting] at hscope
    obtain ⟨only, hkind, hkey, ⟨hsingle, hadded⟩ | ⟨hnone, _⟩⟩ := hscope
    · obtain ⟨rfl, _⟩ := List.cons.inj hsingle
      obtain ⟨attempt, hattempt, hauthority, hattemptKey⟩ := findReplay_authority hreplay
      have hadmitted := applyStaged_eq_ok happly
      rw [hadmitted.tables.1, hadded, List.append_nil] at hattempt
      obtain ⟨receipt, hreceipt, howner⟩ :=
        hlinks.backed id attempt _ hattempt (hauthority.trans hkind) hattemptKey
      obtain ⟨accepted, _, _, haccepted, _⟩ := hadmitted.steps
      unfold StagedAcceptance at haccepted
      rw [hacceptance] at haccepted
      obtain ⟨grant, haccepted⟩ := haccepted
      exact (receiptKeysFree_eq_true haccepted.keysFree receipt hreceipt).2.1
        (howner.trans hkey)
    · cases hnone

theorem AdmissionOk.replayed (hok : AdmissionOk db admission)
    (hnone : admission.staged.acceptance = none) (hwaiting : admission.waiting = request :: rest)
    (id : ℕ) : AdmissionOk db (admission.replayed request rest id) where
  staged := hok.staged
  scope := by
    have hscope := hok.scope
    unfold AdmissionScope at hscope ⊢
    simp only [Admission.replayed, hnone] at hscope ⊢
    rw [hwaiting] at hscope
    exact ⟨hscope.1, fun other hother => hscope.2 other (.tail _ hother)⟩

theorem lookupItem_ok (hlinks : LinksOk db) (hok : AdmissionOk db admission) :
    AdmissionStepOk db admission.locks (lookupItem db admission) := by
  unfold lookupItem
  split
  · exact ⟨hok, fun _ hmem => hmem⟩
  · exact ⟨Admission.conflict_cleared.ok, by simp [Admission.conflict]⟩
  next request rest view hwaiting happly =>
  split
  · exact Admission.reject_ok _ _
  split
  · exact Admission.reject_ok _ _
  · next id hreplay =>
    have hnone := not_replayed_of_acceptance hlinks happly hok hwaiting hreplay
    exact ⟨hok.replayed hnone hwaiting id, fun _ hmem => hmem⟩
  · exact ⟨⟨hok.staged, hok.scope⟩, fun _ hmem => hmem⟩

/-- Holding one lock more changes nothing that is staged. -/
theorem AdmissionOk.locking (hok : AdmissionOk db admission) (applicationId : ℕ) :
    AdmissionOk db { admission with locks := applicationId :: admission.locks } where
  scope := hok.scope
  staged := by
    refine ⟨fun row hrow => ?_, fun acceptance hacceptance => ?_⟩
    · obtain ⟨request, hadmitted, hadmissible, hlock⟩ := hok.staged.rows row hrow
      exact ⟨request, hadmitted, hadmissible, .tail _ hlock⟩
    · have haccepted := hok.staged.acceptance acceptance hacceptance
      obtain ⟨grant, hgrant, hlock, hrest⟩ := haccepted.grant
      exact ⟨⟨grant, hgrant, .tail _ hlock, hrest⟩, haccepted.event, haccepted.key⟩

/-- What holds behind the staged rows holds before them. -/
theorem Admissible.before (hadmitted : Admitted db staged view)
    (hadmissible : Admissible view applicationId revision) :
    Admissible db applicationId revision := by
  obtain ⟨hsubmissions, happlications, _⟩ := hadmitted.tables
  obtain ⟨application, happlication, hdraft, hcurrent, hrevision, hretry⟩ :=
    hadmissible.application
  have hmem : ∀ attempt ∈ db.submissions, attempt ∈ view.submissions := by
    intro attempt hattempt
    rw [hsubmissions]
    exact List.mem_append_left _ hattempt
  refine ⟨⟨application, happlications ▸ happlication, hdraft, hcurrent, hrevision, ?_⟩, ?_⟩
  · rintro ⟨attempt, hattempt, happ⟩
    exact hretry ⟨attempt, hmem attempt hattempt, happ⟩
  · exact fun attempt hattempt happ =>
      hadmissible.finished attempt (hmem attempt hattempt) happ

/-- A created attempt joins what is staged, behind the lock of its application. -/
theorem AdmissionOk.created (hok : AdmissionOk db admission)
    (hwaiting : admission.waiting = request :: rest)
    (hrow : AdmittedRow request row)
    (hadmissible : Admissible db row.applicationId row.applicationRevision)
    (hlock : row.applicationId ∈ admission.locks) (canary : Option ℕ) :
    AdmissionOk db (admission.created request rest row canary) where
  staged := by
    refine ⟨fun other hother => ?_, hok.staged.acceptance⟩
    simp only [Admission.created, List.mem_append, List.mem_singleton] at hother
    rcases hother with hother | rfl
    · exact hok.staged.rows other hother
    · exact ⟨request, hrow, hadmissible, hlock⟩
  scope := by
    have hscope := hok.scope
    unfold AdmissionScope at hscope ⊢
    simp only [Admission.created]
    cases hacceptance : admission.staged.acceptance with
    | none =>
      simp only [hacceptance, hwaiting] at hscope ⊢
      refine ⟨fun other hother => ?_, fun other hother => hscope.2 other (.tail _ hother)⟩
      rw [List.mem_append, List.mem_singleton] at hother
      rcases hother with hother | rfl
      · exact hscope.1 other hother
      · rw [hrow.authorityKind]
        exact hscope.2 request (.head _)
    | some acceptance =>
      simp only [hacceptance, hwaiting] at hscope ⊢
      obtain ⟨only, hkind, hkey, ⟨hsingle, hadded⟩ | ⟨hnone, _⟩⟩ := hscope
      · obtain ⟨rfl, hrest⟩ := List.cons.inj hsingle
        exact ⟨request, hkind, hkey, .inr ⟨hrest, row, by rw [hadded]; rfl, hrow⟩⟩
      · cases hnone

theorem admitItem_ok (hlinks : LinksOk db) (hok : AdmissionOk db admission)
    (hwaiting : admission.waiting = request :: rest) :
    AdmissionStepOk db (request.applicationId :: admission.locks)
      (admitItem zone db admission readings) := by
  have hlocking := hok.locking request.applicationId
  unfold admitItem
  split
  · next hnone =>
    rw [hwaiting] at hnone
    cases hnone
  · exact ⟨Admission.conflict_cleared.ok, by simp [Admission.conflict]⟩
  · next next others view hnext happly =>
    obtain ⟨rfl, rfl⟩ := List.cons.inj (hwaiting.symm.trans hnext)
    simp only
    split
    · exact Admission.reject_ok _ _
    · next id hcreate =>
      have hnone := not_replayed_of_acceptance hlinks happly hok hwaiting
        (createLocked_replayed hcreate)
      exact ⟨hlocking.replayed hnone hwaiting id, fun _ hmem => hmem⟩
    · next row canary hcreate =>
      split
      · exact ⟨Admission.conflict_cleared.ok, by simp [Admission.conflict]⟩
      obtain ⟨hrow, hadmissible, _⟩ := createLocked_created hcreate
      have hbefore := hadmissible.before (applyStaged_eq_ok happly)
      rw [← hrow.applicationId] at hbefore
      refine ⟨hlocking.created hwaiting hrow hbefore ?_ canary, fun _ hmem => hmem⟩
      rw [hrow.applicationId]
      exact .head _

/-! ## Opening and ending -/

theorem sortedRequests_mem :
    request ∈ sortedRequests requests ↔ request ∈ requests := by
  rw [sortedRequests, List.mem_insertionSort]

theorem beginAdmission_eq_ok
    (hbegin : beginAdmission settings capabilities requests now = .ok admission) :
    (∀ gate ∈ batchGates settings requests, gate.1 = true) ∧
      admission =
        { capabilities
          ttlSeconds := settings.submitPermitTtlSeconds
          timestamp := now
          requests
          waiting := sortedRequests requests
          lookedUp := false
          locks := []
          staged := nothingStaged
          results := []
          phase := .running } := by
  simp only [beginAdmission, bind_eq_ok] at hbegin
  obtain ⟨_, hgates, hadmission⟩ := hbegin
  exact ⟨requireBindings_eq_ok.mp hgates, (Except.ok.inj hadmission).symm⟩

theorem beginAdmission_ok
    (hbegin : beginAdmission settings capabilities requests now = .ok admission)
    (hlocal : ∀ request ∈ requests, request.authorityKind ≠ .controlPlane) :
    AdmissionStepOk db [] admission := by
  obtain ⟨_, rfl⟩ := beginAdmission_eq_ok hbegin
  refine ⟨⟨⟨by simp [nothingStaged], by simp [nothingStaged]⟩, ?_⟩, by simp⟩
  refine ⟨by simp [nothingStaged], fun request hmem => ?_⟩
  exact hlocal request (sortedRequests_mem.mp hmem)

/-- The admission that the acceptance of a remote command opens. -/
structure AcceptanceStaged (db : Db) (command : VerifiedControlCommand)
    (readings : AcceptanceReadings) (grant : ReviewGrant) (grantId : ℕ)
    (request : SubmissionCommandRequest) (admission : Admission) : Prop where
  found : grantWithRef db command.grantId = some (grant, grantId)
  unspent : grant.consumedAt = none
  unrevoked : grant.revokedAt = none
  stored : ∃ after, storeAcceptance db
    { receipt := commandReceipt command grantId readings
      event := acceptedEvent command.commandId readings.consumedAt } = .ok after
  asked : ∃ planId identity, request = acceptanceRequest command grant planId identity
  admission : ∃ capabilities ttlSeconds, admission =
    { capabilities
      ttlSeconds
      timestamp := readings.consumedAt
      requests := [request]
      waiting := [request]
      lookedUp := false
      locks := [grant.applicationId]
      staged :=
        { nothingStaged with
          acceptance := some
            { receipt := commandReceipt command grantId readings
              event := acceptedEvent command.commandId readings.consumedAt } }
      results := []
      phase := .running }

theorem validateControlPlaneReviewGrant_eq_ok
    (hvalid : validateControlPlaneReviewGrant db grantRef applicationRef release jobUrlHash
      now = .ok (grant, grantId)) :
    grantWithRef db grantRef = some (grant, grantId) ∧ grant.revokedAt = none ∧
      grant.consumedAt = none := by
  unfold validateControlPlaneReviewGrant at hvalid
  split at hvalid
  · cases hvalid
  next found foundId hfound =>
  split at hvalid
  · cases hvalid
  simp only [bind_eq_ok] at hvalid
  obtain ⟨_, hbindings, plan, _, hvalid⟩ := hvalid
  split at hvalid
  · cases hvalid
  simp only [bind_eq_ok, pure_eq_ok] at hvalid
  obtain ⟨_, _, heq⟩ := hvalid
  cases heq
  rw [requireBindings_eq_ok] at hbindings
  simp only [List.mem_cons, forall_eq_or_imp, Option.isNone_iff_eq_none] at hbindings
  exact ⟨hfound, hbindings.1, hbindings.2.1⟩

theorem stageAcceptance_eq_ok
    (hstage : stageAcceptance db command capabilities readings grant grantId =
      .ok (.staged admission)) (hfound : grantWithRef db command.grantId = some (grant, grantId))
    (hunspent : grant.consumedAt = none) (hunrevoked : grant.revokedAt = none) :
    ∃ request, AcceptanceStaged db command readings grant grantId request admission := by
  simp only [stageAcceptance, bind_eq_ok] at hstage
  obtain ⟨_, _, hstage⟩ := hstage
  split at hstage
  · cases hstage
  split at hstage
  · cases hstage
  split at hstage
  · cases hstage
  · cases hstage
  next after plan hstored hplan =>
  simp only [bind_eq_ok] at hstage
  obtain ⟨identity, _, hstage⟩ := hstage
  split at hstage
  · cases hstage
  next begun hbegin =>
  obtain ⟨_, rfl⟩ := beginAdmission_eq_ok hbegin
  cases hstage
  exact ⟨_, hfound, hunspent, hunrevoked, ⟨after, hstored⟩,
    ⟨plan.planId, identity, rfl⟩, _, _, rfl⟩

theorem lockAcceptance_eq_ok
    (hlock : lockAcceptance db command readings = .ok (.staged admission)) :
    ∃ grant grantId request,
      AcceptanceStaged db command readings grant grantId request admission := by
  unfold lockAcceptance at hlock
  split at hlock
  · cases hlock
  next capabilities hcapabilities =>
  simp only [bind_eq_ok] at hlock
  obtain ⟨release, _, hlock⟩ := hlock
  split at hlock
  · cases hlock
  split at hlock
  · next grant grantId hvalid =>
    obtain ⟨hfound, hunrevoked, hunspent⟩ :=
      validateControlPlaneReviewGrant_eq_ok hvalid
    obtain ⟨request, hstaged⟩ :=
      stageAcceptance_eq_ok hlock hfound hunspent hunrevoked
    exact ⟨grant, grantId, request, hstaged⟩
  · simp only [bind_eq_ok] at hlock
    obtain ⟨found, _, hlock⟩ := hlock
    split at hlock <;> cases hlock
  · cases hlock

theorem grantWithRef_eq_some (hfound : grantWithRef db grantRef = some (grant, grantId)) :
    db.reviewGrants[grantId]? = some grant ∧ grant.grantRef = grantRef := by
  refine ⟨?_, by simpa using List.find?_some hfound⟩
  have hmem := List.mem_of_find?_eq_some hfound
  rwa [List.mk_mem_zipIdx_iff_getElem?] at hmem

theorem AcceptanceStaged.ok
    (hstaged : AcceptanceStaged db command readings grant grantId request admission) :
    AdmissionStepOk db [grant.applicationId] admission := by
  obtain ⟨capabilities, ttlSeconds, rfl⟩ := hstaged.admission
  obtain ⟨planId, identity, rfl⟩ := hstaged.asked
  refine ⟨⟨⟨by simp [nothingStaged], fun acceptance hacceptance => ?_⟩, ?_⟩,
    fun _ hmem => hmem⟩
  · cases hacceptance
    exact ⟨⟨grant, (grantWithRef_eq_some hstaged.found).1, by simp, hstaged.unspent,
      hstaged.unrevoked⟩, rfl, rfl⟩
  · exact ⟨_, rfl, rfl, .inl ⟨rfl, rfl⟩⟩

theorem commitAdmission_cleared (hcomplete : admission.complete = true)
    (wallClock : Timestamp) :
    (commitAdmission db admission wallClock).2.Cleared ∧
      (commitAdmission db admission wallClock).2.locks = [] := by
  have hwaiting : admission.waiting = [] := by
    unfold Admission.complete at hcomplete
    split at hcomplete
    · simpa using hcomplete
    · cases hcomplete
  unfold commitAdmission
  split
  · exact ⟨Admission.fail_cleared _, rfl⟩
  split
  · exact ⟨Admission.conflict_cleared, rfl⟩
  · exact ⟨⟨rfl, hwaiting⟩, rfl⟩

theorem resolveConflict_ok (hok : AdmissionOk db admission) :
    AdmissionStepOk db admission.locks (resolveConflict db admission) := by
  unfold resolveConflict
  split
  · split
    · exact ⟨⟨hok.staged, hok.scope⟩, fun _ hmem => hmem⟩
    · exact ⟨(Admission.fail_cleared _).ok, by simp [Admission.fail]⟩
    · exact ⟨(Admission.fail_cleared _).ok, by simp [Admission.fail]⟩
  · exact ⟨(Admission.fail_cleared _).ok, by simp [Admission.fail]⟩

/-! ## The local invariant -/

/-- The invariant of the local system: the tables and the open admissions. -/
structure LocalOk (state : LocalState) : Prop where
  store : StoreOk state.db
  admissions : AdmissionsOk state

section Local

variable {state : LocalState}

variable {index : ℕ}

/-- Rewrite one admission behind locks that no other admission holds. -/
theorem AdmissionsOk.set (hadmissions : AdmissionsOk state)
    (hothers : ∀ (other : ℕ) (rival : Admission), state.admissions[other]? = some rival →
      other ≠ index → AdmissionOk db rival) (hnext : AdmissionStepOk db locks next)
    (hfree : ∀ id ∈ locks, state.lockedByOther index id = false) :
    AdmissionsOk ((state.withDb db).setAdmission index next) where
  each := by
    intro other rival hrival
    rcases getElem?_set_eq_some hrival with ⟨_, rfl⟩ | ⟨hne, hrival⟩
    · exact hnext.ok
    · exact hothers other rival hrival hne
  disjoint := by
    intro first second left right hleft hright hne id hid
    rcases getElem?_set_eq_some hleft with ⟨rfl, rfl⟩ | ⟨hfirst, hrow₁⟩ <;>
      rcases getElem?_set_eq_some hright with ⟨rfl, rfl⟩ | ⟨hsecond, hrow₂⟩
    · exact absurd rfl hne
    · exact lockedByOther_eq_false_iff.mp (hfree id (hnext.locks id hid)) second right
        hrow₂ hsecond
    · intro hmem
      exact lockedByOther_eq_false_iff.mp (hfree id (hnext.locks id hmem)) first left hrow₁
        hfirst hid
    · exact hadmissions.disjoint first second left right hrow₁ hrow₂ hne id hid

/-- Open an admission behind locks that are free. -/
theorem AdmissionsOk.opened (hadmissions : AdmissionsOk state)
    (hnext : AdmissionStepOk state.db locks next) (hfree : ∀ id ∈ locks, state.locked id = false) :
    AdmissionsOk { state with admissions := state.admissions ++ [next] } where
  each := by
    intro other rival hrival
    rcases getElem?_append_singleton_eq_some hrival with ⟨_, rfl⟩ | hrival
    · exact hnext.ok
    · exact hadmissions.each other rival hrival
  disjoint := by
    intro first second left right hleft hright hne id hid
    rcases getElem?_append_singleton_eq_some hleft with ⟨rfl, rfl⟩ | hrow₁ <;>
      rcases getElem?_append_singleton_eq_some hright with ⟨rfl, rfl⟩ | hrow₂
    · exact absurd rfl hne
    · exact locked_eq_false_iff.mp (hfree id (hnext.locks id hid)) second right hrow₂
    · intro hmem
      exact locked_eq_false_iff.mp (hfree id (hnext.locks id hmem)) first left hrow₁ hid
    · exact hadmissions.disjoint first second left right hrow₁ hrow₂ hne id hid

theorem LocalState.locked_of_mem (hadmission : state.admissions[index]? = some admission)
    (hmem : id ∈ admission.locks) : state.locked id = true := by
  by_contra hfree
  rw [Bool.not_eq_true] at hfree
  exact locked_eq_false_iff.mp hfree index admission hadmission hmem

theorem LocalState.lockedByOther_of_mem (hadmission : state.admissions[other]? = some admission)
    (hne : other ≠ index)
    (hmem : id ∈ admission.locks) : state.lockedByOther index id = true := by
  by_contra hfree
  rw [Bool.not_eq_true] at hfree
  exact lockedByOther_eq_false_iff.mp hfree other admission hadmission hne hmem

/-- Changes behind the locks keep every open admission. -/
theorem AdmissionsOk.changes (hadmissions : AdmissionsOk state)
    (hchanges : Changes state.locked kind state.db after.db)
    (hsame : after.admissions = state.admissions) : AdmissionsOk after where
  each := by
    intro index admission hadmission
    rw [hsame] at hadmission
    exact (hadmissions.each index admission hadmission).framed fun id hmem =>
      hchanges.framed (state.locked_of_mem hadmission hmem)
  disjoint := by
    rw [hsame]
    exact hadmissions.disjoint

/-- One step of an open admission keeps them all. -/
theorem AdmissionsOk.move (hlocal : LocalOk state)
    (hadmission : state.admissions[index]? = some admission)
    (hmove : AdmissionMove zone state index admission action db next)
    (hchanges : Changes (state.lockedByOther index) .admission state.db db) :
    AdmissionsOk ((state.withDb db).setAdmission index next) := by
  have hok := hlocal.admissions.each index admission hadmission
  have howned : ∀ id ∈ admission.locks, state.lockedByOther index id = false :=
    fun id hmem => hlocal.admissions.lockedByOther hadmission hmem
  have hothers : ∀ (other : ℕ) (rival : Admission),
      state.admissions[other]? = some rival → other ≠ index → AdmissionOk db rival := by
    intro other rival hrival hne
    exact (hlocal.admissions.each other rival hrival).framed fun id hmem =>
      hchanges.framed (state.lockedByOther_of_mem hrival hne hmem)
  cases hmove with
  | lookup =>
    exact hlocal.admissions.set hothers (lookupItem_ok hlocal.store.links hok) howned
  | @admitItem readings _ hfree =>
    cases hwaiting : admission.waiting with
    | nil =>
      have hsame : admitItem zone state.db admission readings = admission := by
        unfold admitItem
        rw [hwaiting]
      rw [hsame]
      exact hlocal.admissions.set hothers ⟨hok, fun _ hmem => hmem⟩ howned
    | cons request rest =>
      refine hlocal.admissions.set hothers
        (admitItem_ok hlocal.store.links hok hwaiting) fun id hmem => ?_
      rcases List.mem_cons.mp hmem with rfl | hmem
      · simpa [nextApplication, hwaiting] using hfree
      · exact howned id hmem
  | commit hcomplete =>
    obtain ⟨hcleared, hlocks⟩ := commitAdmission_cleared hcomplete _
    exact hlocal.admissions.set hothers ⟨hcleared.ok, by simp [hlocks]⟩ howned
  | resolve => exact hlocal.admissions.set hothers (resolveConflict_ok hok) howned
  | abort =>
    exact hlocal.admissions.set hothers
      ⟨(Admission.fail_cleared _).ok, by simp [Admission.fail]⟩ howned

theorem AdmissionsOk.performAdmission (hlocal : LocalOk state)
    (hindex : action = .lookup index ∨ (∃ readings, action = .admitItem index readings) ∨
      (∃ wallClock, action = .commitAdmission index wallClock) ∨
      action = .resolveConflict index ∨ action = .abortAdmission index)
    (hperform : performAdmission zone state index action = .ok after) :
    AdmissionsOk after := by
  have hchanges := performAdmission_change hlocal.admissions hindex hperform
  obtain ⟨admission, db, next, hadmission, hmove, rfl⟩ :=
    performAdmission_eq_ok hindex hperform
  refine .move hlocal hadmission hmove ?_
  cases hmove with
  | commit => exact hchanges
  | lookup | admitItem | resolve | abort => exact .refl _ _ _

theorem AdmissionsOk.perform (hlocal : LocalOk state)
    (hperform : perform zone state action = .ok after) : AdmissionsOk after := by
  have hchanges := perform_change hlocal.store.logs.outbox hlocal.admissions hperform
  cases hquiet : action.quiet with
  | true =>
    have hheld : state.held action = state.locked := by
      cases action <;> first | rfl | cases hquiet
    rw [hheld] at hchanges
    obtain ⟨hsame, _⟩ := perform_quiet hquiet hperform
    exact hlocal.admissions.changes hchanges (by rw [hsame])
  | false =>
    cases action with
    | load id readings now =>
      obtain ⟨worker, _, rfl⟩ := performLoad_eq_ok hperform
      exact hlocal.admissions.changes hchanges rfl
    | work index event =>
      have hsame : after.admissions = state.admissions := by
        obtain ⟨_, _, _, _, _, rfl⟩ := performWork_eq_ok hlocal.store.logs.outbox hperform
        rfl
      exact hlocal.admissions.changes hchanges hsame
    | beginAdmission settings capabilities requests now =>
      obtain ⟨hrequests, admission, hbegin, rfl⟩ := performBegin_eq_ok hperform
      exact hlocal.admissions.opened (beginAdmission_ok hbegin hrequests) (by simp)
    | accept command readings =>
      rcases performAccept_eq_ok hperform with rfl | ⟨admission, hlock, hfree, rfl⟩
      · exact hlocal.admissions
      obtain ⟨grant, grantId, request, hstaged⟩ := lockAcceptance_eq_ok hlock
      refine hlocal.admissions.opened hstaged.ok fun id hmem => ?_
      rw [List.mem_singleton] at hmem
      subst hmem
      simpa [hstaged.found] using hfree
    | lookup index => exact .performAdmission hlocal (.inl rfl) hperform
    | admitItem index readings =>
      exact .performAdmission hlocal (.inr (.inl ⟨readings, rfl⟩)) hperform
    | commitAdmission index wallClock =>
      exact .performAdmission hlocal (.inr (.inr (.inl ⟨wallClock, rfl⟩))) hperform
    | resolveConflict index =>
      exact .performAdmission hlocal (.inr (.inr (.inr (.inl rfl)))) hperform
    | abortAdmission index =>
      exact .performAdmission hlocal (.inr (.inr (.inr (.inr rfl)))) hperform
    | _ => cases hquiet

theorem LocalOk.perform (hlocal : LocalOk state)
    (hperform : Kernel.perform zone state action = .ok after) : LocalOk after :=
  ⟨hlocal.store.changes
      (perform_change hlocal.store.logs.outbox hlocal.admissions hperform),
    .perform hlocal hperform⟩

theorem LocalOk.initial (hinitial : InitialState state) : LocalOk state where
  store := by
    have hdb := hinitial.db
    have hnone : ∀ (id : ℕ) (key : String), ¬Keyed state.db id key := by
      rintro id key ⟨attempt, hattempt, hkey⟩
      simp [attemptBindings, (hdb.imported id attempt hattempt).command] at hkey
    refine ⟨⟨fun id _ key hkeyed => absurd hkeyed (hnone id key), ?_, ?_⟩,
      fun id attempt hattempt => (hdb.imported id attempt hattempt).application,
      ⟨⟨by simp [hdb.outbox], ?_⟩, by simp [hdb.outbox], by simp [hdb.receipts], ?_⟩,
      ⟨?_, by simp [hdb.receipts]⟩⟩
    · intro id _ attempt _ hattempt _ _ hunfinished
      exact absurd (hdb.imported id attempt hattempt).stage hunfinished
    · exact fun id attempt hattempt => (hdb.imported id attempt hattempt).checks
    · intro commandRef
      simp [eventsFor, hdb.outbox, IsSequenced]
    · rw [hdb.receipts]
      exact ⟨by simp, by simp, by simp⟩
    · intro id attempt key hattempt _ hkey
      exact absurd ⟨attempt, hattempt, hkey⟩ (hnone id key)
  admissions := by
    refine ⟨fun index admission hadmission => ?_, fun index _ admission _ hadmission => ?_⟩
    · rw [hinitial.admissions] at hadmission
      cases hadmission
    · rw [hinitial.admissions] at hadmission
      cases hadmission

/-- The local invariant holds in every reachable state, whatever the guard. -/
theorem localOk_invariant (guard : LocalState → Action → Prop) :
    (localSystem zone).Invariant guard LocalOk where
  init := fun _ hinitial => .initial hinitial
  step := fun _ _ _ hlocal _ hstep => hlocal.perform hstep

end Local

end JobApplyAgent.Kernel
