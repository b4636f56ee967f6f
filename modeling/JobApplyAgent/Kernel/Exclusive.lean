import JobApplyAgent.Kernel.Mirror

/-!
# Exclusive authority

What holds of attempts, receipts and review grants in every run, in whatever order the
admissions, mintings, deliveries and steps of the workers interleave.
-/

namespace JobApplyAgent.Kernel

open Domain Store Library

variable {zone : Zone} {held : ℕ → Bool} {kind : ActionKind} {before : Db}
  {state next : LocalState} {action : Action} {id : ℕ} {row : Submission}

/-- An application has one unfinished attempt at most.  A client key, a remote command and a
grant name one attempt at most.  A receipt has its attempt and an opened log without gaps, and
an attempt under the authority of the control plane has its receipt. -/
theorem store_exclusive (hreach : (localSystem zone).Reachable anyStep state) :
    StoreOk state.db :=
  ((localOk_invariant anyStep).reachable hreach).store

theorem acceptedState_anyStep : (localSystem sampleZone).Reachable anyStep acceptedState :=
  acceptedState_reachable (fun _ _ _ => trivial) fun _ _ _ => trivial

theorem store_exclusive_sample :
    acceptedState.db.receipts.length = 1 ∧ StoreOk acceptedState.db :=
  ⟨by decide, store_exclusive acceptedState_anyStep⟩

/-! ## Added attempts -/

theorem Changes.admissible (hchanges : Changes held .admission before after)
    (hadmissible : Admissible after applicationId revision) :
    Admissible before applicationId revision := by
  induction hchanges with
  | refl => exact hadmissible
  | tail _ hchange ih =>
    cases hchange with
    | moved hmove => cases hmove
    | content hkind => rcases hkind with hkind | hkind <;> cases hkind
    | committed _ _ _ hadmitted => exact ih (hadmissible.before hadmitted)

/-- Admissions rewrite no attempt, and add attempts of admissible applications. -/
theorem Changes.admitted (hchanges : Changes held .admission before after) :
    Evolved Eq (fun row => Admissible before row.applicationId row.applicationRevision)
      before.submissions after.submissions := by
  induction hchanges with
  | refl => exact .refl (fun _ => rfl) _ _
  | tail hchanges hchange ih =>
    refine ih.trans (fun _ _ _ => Eq.trans) (fun _ _ hfresh hsame => hsame ▸ hfresh)
      (hchange.submissions.mono ?_ ?_)
    · intro old new hstep
      cases hstep with
      | same => rfl
      | moved hmove => cases hmove
    · intro row hfresh
      cases hfresh with
      | admitted _ _ hadmissible => exact Changes.admissible hchanges hadmissible

/-- No other action adds an attempt with a command. -/
theorem Changes.unadmitted (hkind : kind ≠ .admission) (hchanges : Changes held kind before after) :
    Evolved BindingsKept (fun row => (attemptBindings row).commandKey = none)
      before.submissions after.submissions := by
  apply hchanges.submissions BindingsKept.refl
  · exact fun _ _ _ hfirst hsecond => Eq.trans hsecond hfirst
  · exact fun _ _ hnone hkept => (congrArg AttemptBindings.commandKey hkept).trans hnone
  · exact fun _ _ _ hstep => hstep.bindings
  · intro db row hfresh
    cases hfresh with
    | admitted => exact absurd rfl hkind
    | inserted => rfl

/-- A step of a run that adds an attempt with a command is an admission.  It finds a current
reviewed draft of the admitted revision, whose earlier attempts have all finished without an
immutable outcome; and if there are any, the preparation was made by retry. -/
theorem admitted_when_free (hreach : (localSystem zone).Reachable anyStep state)
    (hperform : perform zone state action = .ok next)
    (hrow : next.db.submissions[id]? = some row) (hnew : state.db.submissions[id]? = none)
    (hcommand : row.command ≠ none) :
    action.kind = .admission ∧ Admissible state.db row.applicationId row.applicationRevision := by
  have hlocal := (localOk_invariant anyStep).reachable hreach
  have hchanges := perform_change hlocal.store.logs.outbox hlocal.admissions hperform
  by_cases hkind : action.kind = .admission
  · rw [hkind] at hchanges
    rcases hchanges.admitted.origin id row hrow with ⟨old, hold, _⟩ | ⟨_, hadmissible⟩
    · rw [hnew] at hold
      cases hold
    · exact ⟨hkind, hadmissible⟩
  · rcases (hchanges.unadmitted hkind).origin id row hrow with ⟨old, hold, _⟩ | ⟨_, hnone⟩
    · rw [hnew] at hold
      cases hold
    · exact absurd (Option.map_eq_none_iff.mp hnone) hcommand

/-- The tables behind the commit of the accepted command. -/
def stagedState : LocalState :=
  endOf sampleZone mintedState (acceptedSteps.take 3)

theorem admitted_when_free_sample :
    Admissible stagedState.db 0 acceptedAttempt.applicationRevision := by
  have hminted : (localSystem sampleZone).Reachable anyStep mintedState :=
    endOf_reachable (fun _ _ _ => trivial) qualifiedState_initial
  have hreach : (localSystem sampleZone).Reachable anyStep stagedState :=
    hminted.trans (endOf_path (fun _ _ _ => trivial) mintedState)
  have hperform : perform sampleZone stagedState (.commitAdmission 0 4) = .ok acceptedState := rfl
  have hrow : acceptedState.db.submissions[0]? = some acceptedAttempt := rfl
  exact (admitted_when_free hreach hperform hrow (by decide) (by decide)).2

/-! ## Review grants -/

/-- A grant that may still authorize a submission. -/
def Unspent (grant : ReviewGrant) : Prop :=
  grant.consumedAt = none ∧ grant.revokedAt = none

/-- The authority of the grants is spent once. -/
structure GrantsOk (db : Db) : Prop where
  exclusive : AllRows db.reviewGrants fun grant =>
    grant.consumedAt = none ∨ grant.revokedAt = none
  unspent : ∀ (id other : ℕ) (grant rival : ReviewGrant), db.reviewGrants[id]? = some grant →
    db.reviewGrants[other]? = some rival → grant.applicationId = rival.applicationId →
    Unspent grant → Unspent rival → id = other
  consumed : ∀ (id : ℕ) (grant : ReviewGrant), db.reviewGrants[id]? = some grant →
    grant.consumedAt ≠ none → ∃ receipt ∈ db.receipts, receipt.reviewGrantId = id ∧
      grant.consumedCommandRef = some receipt.remoteCommandRef
  spent : ∀ receipt ∈ db.receipts, ∃ grant,
    db.reviewGrants[receipt.reviewGrantId]? = some grant ∧
      grant.consumedAt = some receipt.acceptedAt

theorem GrantsOk.delivered (hok : GrantsOk before) (hreceipts : after.receipts = before.receipts)
    (hgrants : Carried DeliveryCarried before.reviewGrants after.reviewGrants) :
    GrantsOk after where
  exclusive := by
    intro id new hnew
    obtain ⟨old, hold, hsame⟩ := hgrants.origin hnew
    rw [hsame]
    exact hok.exclusive id old hold
  unspent := by
    intro id other new rival hnew hrival
    obtain ⟨old, hold, hsame⟩ := hgrants.origin hnew
    obtain ⟨earlier, hearlier, hother⟩ := hgrants.origin hrival
    rw [hsame, hother]
    exact hok.unspent id other old earlier hold hearlier
  consumed := by
    intro id new hnew
    obtain ⟨old, hold, hsame⟩ := hgrants.origin hnew
    rw [hsame, hreceipts]
    exact hok.consumed id old hold
  spent := by
    intro receipt hreceipt
    obtain ⟨old, hold, hspent⟩ := hok.spent receipt (hreceipts ▸ hreceipt)
    obtain ⟨new, hnew, hsame⟩ := hgrants.kept _ old hold
    rw [hsame] at hnew
    exact ⟨_, hnew, hspent⟩

theorem GrantsOk.congr (hok : GrantsOk before) (hreceipts : after.receipts = before.receipts)
    (hgrants : after.reviewGrants = before.reviewGrants) : GrantsOk after :=
  hok.delivered hreceipts (hgrants ▸ .refl DeliveryCarried.refl _)

@[simp] theorem revokeGrant_consumedAt (now : Timestamp) (grant : ReviewGrant) :
    (revokeGrant applicationId now grant).consumedAt = grant.consumedAt := by
  unfold revokeGrant
  split <;> rfl

@[simp] theorem revokeGrant_consumedCommandRef (now : Timestamp) (grant : ReviewGrant) :
    (revokeGrant applicationId now grant).consumedCommandRef = grant.consumedCommandRef := by
  unfold revokeGrant
  split <;> rfl

/-- Minting does not revoke a grant that is consumed. -/
theorem revokeGrant_of_consumed (now : Timestamp) {grant : ReviewGrant}
    (hconsumed : grant.consumedAt ≠ none) : revokeGrant applicationId now grant = grant :=
  if_neg fun hunspent => hconsumed hunspent.2.1

/-- A grant that minting leaves unspent is an unspent one of another application. -/
theorem Unspent.of_revokeGrant {grant : ReviewGrant}
    (hleft : Unspent (revokeGrant applicationId now grant)) :
    revokeGrant applicationId now grant = grant ∧ grant.applicationId ≠ applicationId := by
  unfold revokeGrant at hleft ⊢
  split at hleft
  · cases hleft.2
  · next hspent => exact ⟨if_neg hspent, fun happ => hspent ⟨happ, hleft⟩⟩

/-- Minting revokes what is unspent of the application. -/
theorem GrantsOk.minted (hok : GrantsOk before) {grant : ReviewGrant} (hunspent : Unspent grant)
    (now : Timestamp) (hreceipts : after.receipts = before.receipts)
    (hgrants : after.reviewGrants =
      before.reviewGrants.map (revokeGrant grant.applicationId now) ++ [grant]) :
    GrantsOk after := by
  have horigin : ∀ {id : ℕ} {new : ReviewGrant}, after.reviewGrants[id]? = some new →
      (id = before.reviewGrants.length ∧ new = grant) ∨ ∃ old,
        before.reviewGrants[id]? = some old ∧ revokeGrant grant.applicationId now old = new := by
    intro id new hnew
    rw [hgrants] at hnew
    rcases getElem?_append_singleton_eq_some hnew with ⟨rfl, rfl⟩ | hold
    · exact .inl ⟨List.length_map _, rfl⟩
    · rw [List.getElem?_map] at hold
      exact .inr (Option.map_eq_some_iff.mp hold)
  have hothers : ∀ {id : ℕ} {new : ReviewGrant}, after.reviewGrants[id]? = some new →
      Unspent new → (id = before.reviewGrants.length ∧ new = grant) ∨
        before.reviewGrants[id]? = some new ∧ new.applicationId ≠ grant.applicationId := by
    intro id new hnew hfirst
    refine (horigin hnew).imp_right ?_
    rintro ⟨old, hold, rfl⟩
    obtain ⟨hsame, hother⟩ := hfirst.of_revokeGrant
    rw [hsame]
    exact ⟨hold, hother⟩
  refine ⟨?_, ?_, ?_, ?_⟩
  · intro id new hnew
    rcases horigin hnew with ⟨_, rfl⟩ | ⟨old, hold, rfl⟩
    · exact .inl hunspent.1
    · by_cases hconsumed : old.consumedAt = none
      · exact .inl (by simpa using hconsumed)
      · rw [revokeGrant_of_consumed now hconsumed]
        exact hok.exclusive id old hold
  · intro id other new rival hnew hrival happ hfirst hsecond
    rcases hothers hnew hfirst with ⟨rfl, rfl⟩ | ⟨hold, hne⟩ <;>
      rcases hothers hrival hsecond with ⟨rfl, rfl⟩ | ⟨hearlier, hother⟩
    · rfl
    · exact absurd happ.symm hother
    · exact absurd happ hne
    · exact hok.unspent id other new rival hold hearlier happ hfirst hsecond
  · intro id new hnew hconsumed
    rcases horigin hnew with ⟨_, rfl⟩ | ⟨old, hold, rfl⟩
    · exact absurd hunspent.1 hconsumed
    · rw [revokeGrant_consumedAt] at hconsumed
      rw [revokeGrant_consumedCommandRef, hreceipts]
      exact hok.consumed id old hold hconsumed
  · intro receipt hreceipt
    obtain ⟨old, hold, hspent⟩ := hok.spent receipt (hreceipts ▸ hreceipt)
    refine ⟨revokeGrant grant.applicationId now old, ?_, ?_⟩
    · rw [hgrants]
      apply getElem?_append_of_some
      rw [List.getElem?_map, hold, Option.map_some]
    · rw [revokeGrant_consumedAt]
      exact hspent

/-- The commit of an accepted command spends its grant. -/
theorem GrantsOk.accepted (hok : GrantsOk before) {grant : ReviewGrant}
    (haccepted : Accepted before acceptance grant after) (hlive : grant.revokedAt = none) :
    GrantsOk after := by
  have hrow := haccepted.row
  have hreceipts := haccepted.receipts.1
  obtain ⟨outbox, hafter, _⟩ := haccepted.outbox
  have hgrants : after.reviewGrants = before.reviewGrants.set acceptance.receipt.reviewGrantId
      (consumeControlPlaneReviewGrant grant acceptance.receipt.remoteCommandRef
        acceptance.receipt.acceptedAt) := by rw [hafter]
  have horigin : ∀ {id : ℕ} {new : ReviewGrant}, after.reviewGrants[id]? = some new →
      Unspent new → before.reviewGrants[id]? = some new := by
    intro id new hnew hunspent
    rw [hgrants] at hnew
    rcases getElem?_set_eq_some hnew with ⟨_, rfl⟩ | ⟨_, hold⟩
    · cases hunspent.1
    · exact hold
  refine ⟨?_, ?_, ?_, ?_⟩
  · rw [hgrants]
    exact AllRows.set hok.exclusive (.inr hlive)
  · intro id other new rival hnew hrival happ hfirst hsecond
    exact hok.unspent id other new rival (horigin hnew hfirst) (horigin hrival hsecond) happ
      hfirst hsecond
  · intro id new hnew hconsumed
    rw [hreceipts]
    rw [hgrants] at hnew
    rcases getElem?_set_eq_some hnew with ⟨rfl, rfl⟩ | ⟨_, hold⟩
    · exact ⟨acceptance.receipt, by simp, rfl, rfl⟩
    · obtain ⟨receipt, hreceipt, hsame⟩ := hok.consumed id new hold hconsumed
      exact ⟨receipt, List.mem_append_left _ hreceipt, hsame⟩
  · intro receipt hreceipt
    rw [hreceipts] at hreceipt
    rcases List.mem_append.mp hreceipt with hold | hnew
    · obtain ⟨old, hfound, hspent⟩ := hok.spent receipt hold
      refine ⟨old, ?_, hspent⟩
      rw [hgrants, List.getElem?_set_ne]
      · exact hfound
      · exact fun hsame => (receiptKeysFree_eq_true haccepted.keysFree receipt hold).2.2
          hsame.symm
    · rw [List.mem_singleton.mp hnew]
      exact ⟨_, hgrants ▸ getElem?_set_self_of_some hrow, rfl⟩

theorem GrantsOk.change (hok : GrantsOk before) (hchange : Change held kind before after) :
    GrantsOk after := by
  cases hchange with
  | moved _ _ _ hmoved =>
    obtain ⟨old, new, hmoved⟩ := hmoved
    have hsame := hmoved.transaction.authority
    exact hok.congr hsame.receipts hsame.reviewGrants
  | cancelled _ _ _ hmoved =>
    have hsame := hmoved.transaction.authority
    exact hok.congr hsame.receipts hsame.reviewGrants
  | content _ _ hcontent =>
    exact hok.congr hcontent.authority.receipts hcontent.authority.reviewGrants
  | canaries | retried => exact hok.congr rfl rfl
  | automated _ hautomated => exact hok.congr hautomated.receipts hautomated.reviewGrants
  | committed _ hstaged _ hadmitted =>
    obtain ⟨accepted, stored, canaries, haccepted, hinserted, rfl⟩ := hadmitted.steps
    have hgrants : GrantsOk accepted := by
      unfold StagedAcceptance at haccepted
      split at haccepted
      · exact haccepted ▸ hok
      · next found hfound =>
        obtain ⟨grant, haccepted⟩ := haccepted
        obtain ⟨live, hlive, _, _, hrevoked⟩ := (hstaged.acceptance found hfound).grant
        cases haccepted.row.symm.trans hlive
        exact hok.accepted haccepted hrevoked
    rw [hinserted.eq]
    exact hgrants.congr rfl rfl
  | minted now _ hunspent _ =>
    exact hok.minted ⟨hunspent.1, hunspent.2.2⟩ now rfl rfl
  | granted hdelivered =>
    obtain ⟨grants, rfl, hcarried⟩ := hdelivered
    exact hok.delivered rfl hcarried
  | delivered hdelivered =>
    obtain ⟨outbox, rfl, _⟩ := hdelivered
    exact hok.congr rfl rfl
  | quarantined _ hlegacy =>
    have hsame := hlegacy.transaction.authority
    exact hok.congr hsame.receipts hsame.reviewGrants
  | inserted now _ _ hinsert =>
    obtain ⟨rfl, _⟩ := Db.insertSubmission_eq_ok hinsert
    exact hok.congr rfl rfl

theorem GrantsOk.changes (hok : GrantsOk before) (hchanges : Changes held kind before after) :
    GrantsOk after := by
  induction hchanges with
  | refl => exact hok
  | tail _ hchange ih => exact ih.change hchange

theorem grantsOk_invariant :
    (localSystem zone).Invariant anyStep fun state => LocalOk state ∧ GrantsOk state.db where
  init := by
    intro state hinitial
    have hgrants := hinitial.db.reviewGrants
    refine ⟨.initial hinitial, ?_, ?_, ?_, ?_⟩ <;> simp [AllRows, hgrants, hinitial.db.receipts]
  step := by
    intro before action after ⟨hlocal, hok⟩ _ hperform
    have hchanges := perform_change hlocal.store.logs.outbox hlocal.admissions hperform
    exact ⟨hlocal.perform hperform, hok.changes hchanges⟩

/-- In every run no grant is both spent and revoked, an application has one grant at most that
is neither, and a grant is spent by exactly the command of its receipt. -/
theorem grants_spent_once (hreach : (localSystem zone).Reachable anyStep state) :
    GrantsOk state.db :=
  (grantsOk_invariant.reachable hreach).2

theorem grants_spent_once_sample :
    acceptedState.db.reviewGrants.map ReviewGrant.consumedCommandRef =
        [some "command-0000-0001"] ∧ GrantsOk acceptedState.db :=
  ⟨by decide, grants_spent_once acceptedState_anyStep⟩

end JobApplyAgent.Kernel
