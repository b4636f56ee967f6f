import JobApplyAgent.Adapters.GreenhouseCommit

/-!
# One-shot commits

Whatever the browser session answers, in whatever order the calls go on, the final action is
invoked at most once for what a preflight prepared, and a call says that nothing was sent only
where the session said so.
-/

namespace JobApplyAgent.Adapters

open Domain Library
open Forms (FormFieldV1)

variable {Soup Element : Type} {reader : GreenhouseReader Soup Element}
  {state : PreparedState} {call : CommitCall}

/-! ## What is promised -/

/-- Everything binds at the instant of an invocation, and nothing has expired. -/
structure Invocation.Bound (invocation : Invocation) (state : PreparedState) : Prop where
  binds : invocation.action.binds state.plan.contract invocation.permit
    invocation.finalActionAt = true
  permit : invocation.permit = state.permit
  action : invocation.finalActionAt < invocation.action.expiresAt
  permitAlive : invocation.finalActionAt < invocation.permit.expiresAt
  plan : invocation.finalActionAt < state.plan.contract.expiresAt

/-- What an outcome says about the final action, as far as the session bears it out. -/
def Warranted (reader : GreenhouseReader Soup Element) (state : PreparedState)
    (invocation : Invocation) (observation : Option GreenhouseAtomicCommitObservation)
    (postAction : Option GreenhouseBrowserSnapshot) : CommitOutcome → Prop
  | .needsReview _ | .failedBeforeCommit _ =>
    ∃ told, observation = some told ∧ told.finalActionInvoked = false ∧
      told.requestMayHaveLeft = false
  | .alreadyApplied | .unknown _ => True
  | .draftOnly _ => False
  | .confirmedSubmitted _ =>
    ∃ told page, observation = some told ∧ postAction = some page ∧
      told.requestMayHaveLeft = true ∧ told.binds state.atomicExpectation = true ∧
      NewlyVisible reader.toPageReader greenhouseConfirmationSelector
        invocation.precommit.html page.html

/-- Without an invocation nothing is claimed to be submitted. -/
def RetrySafe (result : Except Raised CommitOutcome) : Prop :=
  ∀ outcome, result = .ok outcome →
    outcome.kind = .needsReview ∨ outcome.kind = .failedBeforeCommit

/-! ## Before the action -/

/-- Where a call may be after an observation before the action. -/
def BeforeProgress (state : PreparedState) (call : CommitCall) : Progress → Prop
  | .awaits stage => stage.invocation = none ∧ stage.observation = none ∨
      ∃ invocation, stage = .atomicCommit invocation ∧ invocation.prepared = call.prepared ∧
        invocation.action = call.action ∧ invocation.permit = call.permit ∧
        invocation.Bound state
  | .ended result => RetrySafe result

theorem retrySafe_ok (houtcome : outcome.kind = .needsReview ∨ outcome.kind = .failedBeforeCommit) :
    RetrySafe (.ok outcome) := by
  intro found hfound
  cases hfound
  exact houtcome

theorem retrySafe_error (error : Raised) : RetrySafe (.error error) := by
  intro found hfound
  cases hfound

theorem needsReviewOutcome_retrySafe (reason : ReasonCode) :
    RetrySafe (needsReviewOutcome reason) := by
  rw [needsReviewOutcome]
  split
  · exact retrySafe_ok (.inl rfl)
  · exact retrySafe_error _

theorem beforeAction_progress (hobserved : SucceedsOnly (BeforeProgress state call) observed) :
    BeforeProgress state call (beforeAction observed) := by
  cases observed with
  | ok progress => exact hobserved progress rfl
  | error error =>
    cases error with
    | blocked reason => exact needsReviewOutcome_retrySafe reason
    | exception => exact retrySafe_ok (.inr rfl)
    | cancelled => exact retrySafe_error _

theorem observePrecommit_progress (page : Except Raised GreenhouseBrowserSnapshot) :
    SucceedsOnly (BeforeProgress state call) (observePrecommit reader state page) := by
  refine .bind fun precommit _ => .bind fun _ _ => .bind fun soup _ => ?_
  split
  · exact .pure (retrySafe_ok (.inl rfl))
  refine .bind fun assessment _ => ?_
  split
  · next reason _ =>
    refine .bind fun outcome houtcome => .pure ?_
    exact retrySafe_ok (needsReviewOutcome_retrySafe reason outcome houtcome)
  · split
    · exact .pure (retrySafe_ok (.inl rfl))
    · exact .bind fun fields _ => .bind fun variant _ => .pure (.inl ⟨rfl, rfl⟩)

theorem observeForm_progress (precommit : GreenhouseBrowserSnapshot)
    (fields : List FormFieldV1) (variant : GreenhouseVariant)
    (binding : Except Raised (Option String)) :
    SucceedsOnly (BeforeProgress state call)
      (observeForm reader state precommit fields variant binding) := by
  refine .bind fun observed _ => ?_
  split
  · exact .pure (retrySafe_ok (.inl rfl))
  split
  · exact .pure (retrySafe_ok (.inl rfl))
  · exact .pure (.inl ⟨rfl, rfl⟩)

theorem observeAttachment_progress (precommit : GreenhouseBrowserSnapshot) (observed : String)
    (proof : Except Raised GreenhouseAttachmentProof) :
    SucceedsOnly (BeforeProgress state call)
      (observeAttachment state precommit observed proof) := by
  refine .bind fun found _ => ?_
  split
  · exact .pure (retrySafe_ok (.inl rfl))
  · exact .pure (.inl ⟨rfl, rfl⟩)

theorem invokeFinalAction_progress (precommit : GreenhouseBrowserSnapshot)
    (clock : ClockReading) :
    BeforeProgress state call (invokeFinalAction state call precommit clock) := by
  unfold invokeFinalAction
  split
  · exact retrySafe_error _
  · exact retrySafe_ok (.inr rfl)
  next finalActionAt =>
  split
  · next hbound =>
    rw [Bool.and_eq_true, beq_iff_eq] at hbound
    obtain ⟨hbinds, hpermit⟩ := hbound
    obtain ⟨⟨_, _, _, _, _, _, _, hplan⟩, haction, _, _, _, _, _, hexpiry⟩ :=
      PreparedFinalActionV1.bound_of_binds hbinds
    have halive : finalActionAt < call.permit.expiresAt := lt_of_lt_of_le haction hexpiry
    exact .inr ⟨_, rfl, rfl, rfl, rfl, hbinds, hpermit, haction, halive,
      lt_of_lt_of_le halive hplan⟩
  · exact retrySafe_ok (.inr rfl)

/-! ## After the action -/

/-- Where a call may be after an observation after the action. -/
def AfterProgress (reader : GreenhouseReader Soup Element) (state : PreparedState)
    (invocation : Invocation) (observation : Option GreenhouseAtomicCommitObservation)
    (postAction : Option GreenhouseBrowserSnapshot) : Progress → Prop
  | .awaits stage => stage.invocation = some invocation ∧ ∃ told,
      stage.observation = some told ∧ told.requestMayHaveLeft = true ∧
        told.binds state.atomicExpectation = true
  | .ended result => ∀ outcome, result = .ok outcome →
      Warranted reader state invocation observation postAction outcome

section After

variable {invocation : Invocation}

theorem afterAction_progress (hobserved : SucceedsOnly
      (AfterProgress reader state invocation observation postAction) observed) :
    AfterProgress reader state invocation observation postAction (afterAction observed) := by
  cases observed with
  | ok progress => exact hobserved progress rfl
  | error error =>
    cases error with
    | cancelled => exact fun _ hraised => nomatch hraised
    | blocked | exception =>
      intro outcome houtcome
      cases houtcome
      trivial

theorem atomicObservationOutcome_eq_none
    (hnone : atomicObservationOutcome (some told) state.atomicExpectation = none) :
    told.requestMayHaveLeft = true ∧ told.binds state.atomicExpectation = true := by
  rw [atomicObservationOutcome] at hnone
  split at hnone
  · next hleft =>
    split at hnone
    · cases hnone
    · next hbinds => exact ⟨hleft, by simpa using hbinds⟩
  · split at hnone
    · cases hnone
    split at hnone
    · cases hnone
    split at hnone
    · cases hnone
    · split at hnone <;> cases hnone

theorem atomicObservationOutcome_warranted
    (houtcome : atomicObservationOutcome observation state.atomicExpectation = some outcome) :
    Warranted reader state invocation observation postAction outcome := by
  rw [atomicObservationOutcome.eq_def] at houtcome
  split at houtcome
  · cases houtcome
    trivial
  · next told =>
    split at houtcome
    · split at houtcome
      · cases houtcome
        trivial
      · split at houtcome
        · cases houtcome
        · split at houtcome <;> cases houtcome <;> trivial
    · next hleft =>
      split at houtcome
      · cases houtcome
        trivial
      · next hinvoked =>
        have htold : told.finalActionInvoked = false ∧ told.requestMayHaveLeft = false :=
          ⟨by simpa using hinvoked, by simpa using hleft⟩
        split at houtcome
        · cases houtcome
          exact ⟨told, rfl, htold⟩
        · split at houtcome
          · cases houtcome
            exact ⟨told, rfl, htold⟩
          · split at houtcome <;> cases houtcome <;> exact ⟨told, rfl, htold⟩

theorem verifiedOutcome_warranted (hpage : state.preActionHtml = invocation.precommit.html)
    (hleft : told.requestMayHaveLeft = true) (hbinds : told.binds state.atomicExpectation = true) :
    SucceedsOnly (Warranted reader state invocation (some told) (some page))
      (verifiedOutcome reader descriptor state invocation page reference clock) := by
  refine .bind fun preSoup _ => .bind fun postSoup _ => .bind fun observedAt _ =>
    .bind fun present _ => .bind fun computedVisible _ => ?_
  split
  · next evidence kept hconfirmed =>
    refine .pure ⟨told, page, rfl, rfl, hleft, hbinds, ?_⟩
    rw [← hpage]
    exact newlyVisible_of_confirmed rfl rfl hconfirmed
  · exact .pure trivial

theorem finalOutcome_warranted (hpage : state.preActionHtml = invocation.precommit.html)
    (hleft : told.requestMayHaveLeft = true) (hbinds : told.binds state.atomicExpectation = true) :
    SucceedsOnly (Warranted reader state invocation (some told) (some page))
      (finalOutcome reader descriptor state invocation page reference clock) := by
  refine .bind fun assessment _ => ?_
  split
  · exact .pure trivial
  · exact .pure trivial
  · exact .pure trivial
  refine .bind fun digest _ => ?_
  split
  · exact .pure trivial
  split
  · exact .pure trivial
  · exact verifiedOutcome_warranted hpage hleft hbinds

end After

/-! ## One answer -/

/-- What a waiting call may rely on, given what is prepared for it. -/
structure CallSound (state : PreparedState) (call : CommitCall) : Prop where
  claimed : state.commitClaimed = true
  invoked : ∀ invocation, call.stage.invocation = some invocation →
    invocation.prepared = call.prepared ∧ state.preActionHtml = invocation.precommit.html
  told : ∀ told, call.stage.observation = some told →
    told.requestMayHaveLeft = true ∧ told.binds state.atomicExpectation = true

theorem resumed_before {answer : SessionReply}
    (hbefore : call.stage.invocation = none)
    (hresumed : resumed reader descriptor state call answer clock = some progress) :
    BeforeProgress state call progress := by
  unfold resumed at hresumed
  split at hresumed
  · cases hresumed
    exact beforeAction_progress (observePrecommit_progress _)
  · cases hresumed
    exact beforeAction_progress (observeForm_progress _ _ _ _)
  · cases hresumed
    exact beforeAction_progress (observeAttachment_progress _ _ _)
  · cases hresumed
    refine beforeAction_progress (.bind fun ready _ => ?_)
    split
    · exact .pure (retrySafe_ok (.inl rfl))
    · exact .pure (.inl ⟨rfl, rfl⟩)
  · cases hresumed
    exact beforeAction_progress (.bind fun binding _ => .pure (.inl ⟨rfl, rfl⟩))
  · cases hresumed
    exact beforeAction_progress (.bind fun url _ => .pure (.inl ⟨rfl, rfl⟩))
  · cases hresumed
    refine beforeAction_progress (.bind fun commitment _ => ?_)
    split
    · exact .pure (retrySafe_ok (.inl rfl))
    · exact .pure (invokeFinalAction_progress _ _)
  · next hstage =>
    rw [hstage] at hbefore
    cases hbefore
  · next hstage =>
    rw [hstage] at hbefore
    cases hbefore
  · next hstage =>
    rw [hstage] at hbefore
    cases hbefore
  · cases hresumed

variable {invocation : Invocation}

/-- A call that has invoked the final action looks for evidence, or returns what the session
bears out. -/
theorem resumed_after {answer : SessionReply}
    (hsound : CallSound state call) (hafter : call.stage.invocation = some invocation)
    (hresumed : resumed reader descriptor state call answer clock = some progress) :
    AfterProgress reader state invocation (call.stage.told answer) call.stage.postAction
      progress := by
  obtain ⟨prepared, action, permit, stage⟩ := call
  have hpage := (hsound.invoked invocation hafter).2
  cases stage with
  | atomicCommit found =>
    cases hafter
    cases answer with
    | atomicCommit reply =>
      cases hresumed
      cases reply with
      | error error =>
        exact afterAction_progress fun _ hraised => nomatch hraised
      | ok observation =>
        refine afterAction_progress (.bind fun told htold => ?_)
        cases htold
        split
        · next outcome houtcome =>
          refine .pure fun found hfound => ?_
          cases hfound
          exact atomicObservationOutcome_warranted houtcome
        · next told hnone =>
          obtain ⟨hleft, hbinds⟩ := atomicObservationOutcome_eq_none hnone
          exact .pure ⟨rfl, told, rfl, hleft, hbinds⟩
        · refine .pure fun found hfound => ?_
          cases hfound
          trivial
    | _ => cases hresumed
  | postSnapshot found told =>
    cases hafter
    obtain ⟨hleft, hbinds⟩ := hsound.told told rfl
    cases answer with
    | snapshot page =>
      cases hresumed
      exact afterAction_progress (.bind fun postAction _ => .bind fun _ _ =>
        .pure ⟨rfl, told, rfl, hleft, hbinds⟩)
    | _ => cases hresumed
  | confirmationReference found told page =>
    cases hafter
    obtain ⟨hleft, hbinds⟩ := hsound.told told rfl
    cases answer with
    | confirmationReference reference =>
      cases hresumed
      refine afterAction_progress (.bind fun reference _ => .pure ?_)
      exact finalOutcome_warranted hpage hleft hbinds
    | _ => cases hresumed
  | _ => cases hafter

/-! ## Every run -/

/-- What a call that has ended says, and what it may say. -/
structure EndedCall.Honest (reader : GreenhouseReader Soup Element) (adapter : Adapter)
    (ended : EndedCall) : Prop where
  uninvoked : ended.invocation = none → RetrySafe ended.result
  invoked : ∀ invocation, ended.invocation = some invocation →
    invocation ∈ adapter.invocations ∧ invocation.action = ended.action ∧
      invocation.permit = ended.permit ∧
      ∃ state, adapter.prepared[invocation.prepared]? = some state ∧
        ∀ outcome, ended.result = .ok outcome →
          Warranted reader state invocation ended.observation ended.postAction outcome

/-- What holds between two events. -/
structure OneShot (reader : GreenhouseReader Soup Element) (adapter : Adapter) : Prop where
  sound : ∀ index call, adapter.calls.entry index = some call →
    ∃ state, adapter.prepared[call.prepared]? = some state ∧ CallSound state call
  alone : ∀ first second call other, adapter.calls.entry first = some call →
    adapter.calls.entry second = some other → call.prepared = other.prepared → first = second
  listed : ∀ index call invocation, adapter.calls.entry index = some call →
    call.stage.invocation = some invocation →
      invocation ∈ adapter.invocations ∧ invocation.action = call.action ∧
        invocation.permit = call.permit
  spent : ∀ invocation ∈ adapter.invocations, ∃ state,
    adapter.prepared[invocation.prepared]? = some state ∧ state.commitClaimed = true ∧
      invocation.Bound state
  waiting : ∀ invocation ∈ adapter.invocations, ∀ index call,
    adapter.calls.entry index = some call → call.prepared = invocation.prepared →
      call.stage.invocation = some invocation
  once : (adapter.invocations.map Invocation.prepared).Nodup
  accounted : ∀ invocation ∈ adapter.invocations,
    (∃ index call, adapter.calls.entry index = some call ∧
      call.stage.invocation = some invocation) ∨
    ∃ ended ∈ adapter.ended, ended.invocation = some invocation
  honest : ∀ ended ∈ adapter.ended, ended.Honest reader adapter

/-- What is prepared keeps its plan, its permit and its commitments, and stays claimed. -/
structure SameTerms (before after : PreparedState) : Prop where
  plan : after.plan = before.plan
  permit : after.permit = before.permit
  expectation : after.atomicExpectation = before.atomicExpectation
  claimed : before.commitClaimed = true → after.commitClaimed = true

/-- One adapter goes on from another. -/
structure Adapter.Extends (before after : Adapter) : Prop where
  prepared : ∀ (index : ℕ) (state : PreparedState), before.prepared[index]? = some state →
    ∃ next, after.prepared[index]? = some next ∧ SameTerms state next
  invocations : before.invocations ⊆ after.invocations

theorem Warranted.sameTerms (hterms : SameTerms state next)
    (hwarranted : Warranted reader state invocation observation postAction outcome) :
    Warranted reader next invocation observation postAction outcome := by
  cases outcome with
  | confirmedSubmitted evidence =>
    obtain ⟨told, page, htold, hpage, hleft, hbinds, hnew⟩ := hwarranted
    exact ⟨told, page, htold, hpage, hleft, by rwa [hterms.expectation], hnew⟩
  | _ => exact hwarranted

theorem Invocation.Bound.sameTerms (hterms : SameTerms state next)
    (hbound : invocation.Bound state) :
    invocation.Bound next := by
  obtain ⟨hbinds, hpermit, haction, halive, hplan⟩ := hbound
  rw [← hterms.plan] at hbinds hplan
  exact ⟨hbinds, hpermit.trans hterms.permit.symm, haction, halive, hplan⟩

variable {before : Adapter}

theorem EndedCall.Honest.extends' {ended : EndedCall} (hextends : before.Extends after)
    (hhonest : ended.Honest reader before) : ended.Honest reader after where
  uninvoked := hhonest.uninvoked
  invoked := by
    intro invocation hinvocation
    obtain ⟨hlisted, haction, hpermit, state, hstate, hwarranted⟩ :=
      hhonest.invoked invocation hinvocation
    obtain ⟨next, hnext, hterms⟩ := hextends.prepared _ _ hstate
    exact ⟨hextends.invocations hlisted, haction, hpermit, next, hnext,
      fun outcome houtcome => (hwarranted outcome houtcome).sameTerms hterms⟩

theorem sameTerms_modify {change : PreparedState → PreparedState} {changed index : ℕ}
    (hchange : ∀ state, SameTerms state (change state))
    (hstate : before.prepared[index]? = some state) :
    ∃ next, (before.prepared.modify changed change)[index]? = some next ∧
      SameTerms state next := by
  by_cases hindex : changed = index
  · subst hindex
    rw [List.getElem?_modify_eq, hstate]
    exact ⟨change state, rfl, hchange state⟩
  · rw [List.getElem?_modify_ne _ _ hindex, hstate]
    exact ⟨state, rfl, rfl, rfl, rfl, id⟩

theorem OneShot.initial : OneShot reader Adapter.initial where
  sound := fun _ _ hcall => nomatch hcall
  alone := fun _ _ _ _ hcall => nomatch hcall
  listed := fun _ _ _ hcall => nomatch hcall
  spent := fun _ hmem => nomatch hmem
  waiting := fun _ hmem => nomatch hmem
  once := List.nodup_nil
  accounted := fun _ hmem => nomatch hmem
  honest := fun _ hmem => nomatch hmem

section

variable (hone : OneShot reader before)
include hone

theorem OneShot.spent_of_extends (hextends : before.Extends after)
    (hmem : invocation ∈ before.invocations) :
    ∃ state, after.prepared[invocation.prepared]? = some state ∧ state.commitClaimed = true ∧
      invocation.Bound state := by
  obtain ⟨found, hfound, hclaimed, hbound⟩ := hone.spent invocation hmem
  obtain ⟨next, hnext, hterms⟩ := hextends.prepared _ _ hfound
  exact ⟨next, hnext, hterms.claimed hclaimed, hbound.sameTerms hterms⟩

/-- A preflight registers what it has prepared after all that is prepared already. -/
theorem OneShot.prepare (nonce : String)
    (state : PreparedState) : OneShot reader (before.prepare nonce state) := by
  have hextends : before.Extends (before.prepare nonce state) := by
    refine ⟨fun index found hfound => ⟨found, ?_, rfl, rfl, rfl, id⟩, List.Subset.refl _⟩
    exact (List.getElem?_append_left (List.getElem?_eq_some_iff.mp hfound).1).trans hfound
  refine { hone with
    sound := fun index call hcall => ?_
    spent := fun invocation hmem => hone.spent_of_extends hextends hmem
    honest := fun ended hended => (hone.honest ended hended).extends' hextends }
  obtain ⟨found, hfound, hsound⟩ := hone.sound index call hcall
  exact ⟨found,
    (List.getElem?_append_left (List.getElem?_eq_some_iff.mp hfound).1).trans hfound, hsound⟩

theorem OneShot.cleanup (nonce : String) :
    OneShot reader (before.cleanup nonce) :=
  { hone with
    honest := fun ended hended =>
      ⟨(hone.honest ended hended).uninvoked, (hone.honest ended hended).invoked⟩ }

/-- A call that is refused at once has invoked nothing. -/
theorem OneShot.refuse (action : PreparedFinalActionV1)
    (permit : FinalSubmitPermit)
    (hresult : RetrySafe result) : OneShot reader (before.refuse action permit result) := by
  refine { hone with accounted := ?_, honest := ?_ }
  · intro invocation hmem
    rcases hone.accounted invocation hmem with hwaiting | ⟨ended, hended, hinvocation⟩
    · exact .inl hwaiting
    · exact .inr ⟨ended, .tail _ hended, hinvocation⟩
  · intro ended hended
    rcases List.mem_cons.mp hended with rfl | hended
    · refine ⟨fun _ => hresult, fun invocation hinvocation => ?_⟩
      cases hinvocation
    · exact ⟨(hone.honest ended hended).uninvoked, (hone.honest ended hended).invoked⟩

/-- A claim is for what no other call and no invocation is about. -/
theorem OneShot.claim (action : PreparedFinalActionV1) (permit : FinalSubmitPermit)
    (hstate : before.prepared[index]? = some state) (hfree : state.commitClaimed = false) :
    OneShot reader (before.claim index action permit) := by
  have hextends : before.Extends (before.claim index action permit) :=
    ⟨fun _ _ hfound => sameTerms_modify (fun _ => ⟨rfl, rfl, rfl, fun _ => rfl⟩) hfound,
      List.Subset.refl _⟩
  have hothers : ∀ place call, before.calls.entry place = some call → call.prepared ≠ index := by
    rintro place call hcall rfl
    obtain ⟨found, hfound, hsound⟩ := hone.sound place call hcall
    rw [hstate] at hfound
    cases hfound
    rw [hsound.claimed] at hfree
    cases hfree
  refine ⟨?_, ?_, ?_, ?_, ?_, hone.once, ?_, ?_⟩
  · intro place call hcall
    rcases Slots.entry_add hcall with ⟨hold, _⟩ | ⟨_, rfl⟩
    · obtain ⟨found, hfound, hsound⟩ := hone.sound place call hold
      refine ⟨found, ?_, hsound⟩
      exact (List.getElem?_modify_ne _ _ (hothers place call hold).symm).trans hfound
    · refine ⟨{ state with commitClaimed := true }, ?_, rfl, fun invocation hinvocation => ?_,
        fun told htold => ?_⟩
      · change (before.prepared.modify index _)[index]? = _
        rw [List.getElem?_modify_eq, hstate]
        rfl
      · cases hinvocation
      · cases htold
  · intro first second call other hcall hother hsame
    rcases Slots.entry_add hcall with ⟨hold, _⟩ | ⟨hfirst, rfl⟩
    · rcases Slots.entry_add hother with ⟨hwas, _⟩ | ⟨_, rfl⟩
      · exact hone.alone first second call other hold hwas hsame
      · exact absurd hsame (hothers first call hold)
    · rcases Slots.entry_add hother with ⟨hwas, _⟩ | ⟨hsecond, _⟩
      · exact absurd hsame.symm (hothers second other hwas)
      · rw [hfirst, hsecond]
  · intro place call invocation hcall hinvocation
    rcases Slots.entry_add hcall with ⟨hold, _⟩ | ⟨_, rfl⟩
    · exact hone.listed place call invocation hold hinvocation
    · cases hinvocation
  · exact fun invocation hmem => hone.spent_of_extends hextends hmem
  · intro invocation hmem place call hcall hsame
    rcases Slots.entry_add hcall with ⟨hold, _⟩ | ⟨_, rfl⟩
    · exact hone.waiting invocation hmem place call hold hsame
    obtain ⟨found, hfound, hclaimed, _⟩ := hone.spent invocation hmem
    rw [← hsame, hstate] at hfound
    cases hfound
    rw [hclaimed] at hfree
    cases hfree
  · intro invocation hmem
    rcases hone.accounted invocation hmem with ⟨place, call, hcall, hinvocation⟩ | hended
    · exact .inl ⟨place, call, Slots.entry_add_of_entry hcall _, hinvocation⟩
    · exact .inr hended
  · exact fun ended hended => (hone.honest ended hended).extends' hextends

end

section Answered

variable {stage : CommitStage}

theorem proceed_of_same (hsame : stage.invocation = call.stage.invocation) :
    before.proceed index call stage =
      { before with calls := before.calls.put index (some { call with stage }) } := by
  unfold Adapter.proceed
  rw [hsame]
  cases call.stage.invocation <;> rfl

theorem proceed_of_fresh (hfresh : call.stage.invocation = none) (invocation : Invocation) :
    before.proceed index call (.atomicCommit invocation) =
      { before with
        prepared := before.prepared.modify call.prepared fun state =>
          { state with preActionHtml := invocation.precommit.html, clicked := true }
        calls := before.calls.put index (some { call with stage := .atomicCommit invocation })
        invocations := invocation :: before.invocations } := by
  unfold Adapter.proceed
  rw [hfresh]
  rfl

section

variable (hone : OneShot reader before)
include hone

/-- A call goes on waiting with what it has invoked, or has not. -/
theorem OneShot.waits (hcall : before.calls.entry index = some call)
    (hstate : before.prepared[call.prepared]? = some state)
    (hsame : stage.invocation = call.stage.invocation)
    (hsound : CallSound state { call with stage }) :
    OneShot reader (before.proceed index call stage) := by
  rw [proceed_of_same hsame]
  refine ⟨?_, ?_, ?_, hone.spent, ?_, hone.once, ?_, ?_⟩
  · intro place found hfound
    rcases Slots.entry_put hfound with ⟨_, ⟨⟩⟩ | ⟨_, hold⟩
    · exact ⟨state, hstate, hsound⟩
    · exact hone.sound place found hold
  · intro first second found other hfirst hsecond hprepared
    rcases Slots.entry_put hfirst with ⟨rfl, ⟨⟩⟩ | ⟨_, hold⟩
    · rcases Slots.entry_put hsecond with ⟨rfl, _⟩ | ⟨_, hwas⟩
      · rfl
      · exact hone.alone _ _ call other hcall hwas hprepared
    · rcases Slots.entry_put hsecond with ⟨rfl, ⟨⟩⟩ | ⟨_, hwas⟩
      · exact hone.alone _ _ found call hold hcall hprepared
      · exact hone.alone _ _ found other hold hwas hprepared
  · intro place found invocation hfound hinvocation
    rcases Slots.entry_put hfound with ⟨_, ⟨⟩⟩ | ⟨_, hold⟩
    · exact hone.listed index call invocation hcall (hsame.symm.trans hinvocation)
    · exact hone.listed place found invocation hold hinvocation
  · intro invocation hmem place found hfound hprepared
    rcases Slots.entry_put hfound with ⟨_, ⟨⟩⟩ | ⟨_, hold⟩
    · exact hsame.trans (hone.waiting invocation hmem index call hcall hprepared)
    · exact hone.waiting invocation hmem place found hold hprepared
  · intro invocation hmem
    rcases hone.accounted invocation hmem with ⟨place, found, hfound, hinvocation⟩ | hended
    · by_cases hplace : place = index
      · subst hplace
        rw [hcall] at hfound
        cases hfound
        exact .inl ⟨place, _, Slots.entry_put_self hcall _, hsame.trans hinvocation⟩
      · exact .inl ⟨place, found, (Slots.entry_put_of_ne _ _ hplace).trans hfound, hinvocation⟩
    · exact .inr hended
  · exact fun ended hended =>
      ⟨(hone.honest ended hended).uninvoked, (hone.honest ended hended).invoked⟩

/-- A call returns or raises, and says what it may. -/
theorem OneShot.finish (hcall : before.calls.entry index = some call) {answer : SessionReply}
    (hhonest : EndedCall.Honest reader before ⟨call.action, call.permit, call.stage.invocation,
      call.stage.told answer, call.stage.postAction, result⟩) :
    OneShot reader (before.finish index call answer result) := by
  have hothers : ∀ place found, (before.calls.put index none).entry place = some found →
      before.calls.entry place = some found := by
    intro place found hfound
    obtain ⟨_, ⟨⟩⟩ | ⟨_, hold⟩ := Slots.entry_put hfound
    exact hold
  refine ⟨?_, ?_, ?_, hone.spent, ?_, hone.once, ?_, ?_⟩
  · exact fun place found hfound => hone.sound place found (hothers place found hfound)
  · exact fun first second found other hfirst hsecond =>
      hone.alone first second found other (hothers _ _ hfirst) (hothers _ _ hsecond)
  · exact fun place found invocation hfound =>
      hone.listed place found invocation (hothers place found hfound)
  · exact fun invocation hmem place found hfound =>
      hone.waiting invocation hmem place found (hothers place found hfound)
  · intro invocation hmem
    rcases hone.accounted invocation hmem with ⟨place, found, hfound, hinvocation⟩ |
      ⟨ended, hended, hinvocation⟩
    · by_cases hplace : place = index
      · subst hplace
        rw [hcall] at hfound
        cases hfound
        exact .inr ⟨_, .head _, hinvocation⟩
      · exact .inl ⟨place, found, (Slots.entry_put_of_ne _ _ hplace).trans hfound, hinvocation⟩
    · exact .inr ⟨ended, .tail _ hended, hinvocation⟩
  · intro ended hended
    rcases List.mem_cons.mp hended with rfl | hended
    · exact ⟨hhonest.uninvoked, hhonest.invoked⟩
    · exact ⟨(hone.honest ended hended).uninvoked, (hone.honest ended hended).invoked⟩

/-- A call invokes the final action on the page that it leaves behind. -/
theorem OneShot.invokes (hcall : before.calls.entry index = some call)
    (hstate : before.prepared[call.prepared]? = some state) (hsound : CallSound state call)
    (hfresh : call.stage.invocation = none) {invocation : Invocation}
    (hprepared : invocation.prepared = call.prepared) (haction : invocation.action = call.action)
    (hpermit : invocation.permit = call.permit) (hbound : invocation.Bound state) :
    OneShot reader (before.proceed index call (.atomicCommit invocation)) := by
  rw [proceed_of_fresh hfresh]
  set clicked : PreparedState → PreparedState := fun state =>
    { state with preActionHtml := invocation.precommit.html, clicked := true } with hclicked
  have hterms : ∀ state, SameTerms state (clicked state) := fun state => ⟨rfl, rfl, rfl, id⟩
  have hnow : (before.prepared.modify call.prepared clicked)[call.prepared]? =
      some (clicked state) := by
    rw [List.getElem?_modify_eq, hstate]
    rfl
  have hnone : ∀ other ∈ before.invocations, call.prepared ≠ other.prepared := by
    intro other hother hsame
    rw [hone.waiting other hother index call hcall hsame] at hfresh
    cases hfresh
  have hapart : ∀ place found, place ≠ index → before.calls.entry place = some found →
      call.prepared ≠ found.prepared :=
    fun place found hplace hfound hsame =>
      hplace (hone.alone place index found call hfound hcall hsame.symm)
  refine ⟨?_, ?_, ?_, ?_, ?_, ?_, ?_, ?_⟩
  · intro place found hfound
    rcases Slots.entry_put hfound with ⟨_, ⟨⟩⟩ | ⟨hplace, hold⟩
    · refine ⟨clicked state, hnow, hsound.claimed, fun other hother => ?_, fun told htold => ?_⟩
      · cases hother
        exact ⟨hprepared, rfl⟩
      · cases htold
    · obtain ⟨was, hwas, hkept⟩ := hone.sound place found hold
      refine ⟨was, ?_, hkept⟩
      exact (List.getElem?_modify_ne _ _ (hapart place found hplace hold)).trans hwas
  · intro first second found other hfirst hsecond hsame
    rcases Slots.entry_put hfirst with ⟨rfl, ⟨⟩⟩ | ⟨hplace, hold⟩
    · rcases Slots.entry_put hsecond with ⟨rfl, _⟩ | ⟨hother, hwas⟩
      · rfl
      · exact absurd hsame (hapart second other hother hwas)
    · rcases Slots.entry_put hsecond with ⟨rfl, ⟨⟩⟩ | ⟨_, hwas⟩
      · exact absurd hsame.symm (hapart first found hplace hold)
      · exact hone.alone first second found other hold hwas hsame
  · intro place found other hfound hother
    rcases Slots.entry_put hfound with ⟨_, ⟨⟩⟩ | ⟨_, hold⟩
    · cases hother
      exact ⟨.head _, haction, hpermit⟩
    · obtain ⟨hmem, hsame⟩ := hone.listed place found other hold hother
      exact ⟨.tail _ hmem, hsame⟩
  · intro other hother
    rcases List.mem_cons.mp hother with rfl | hold
    · rw [hprepared]
      exact ⟨clicked state, hnow, hsound.claimed, hbound.sameTerms (hterms state)⟩
    · obtain ⟨was, hwas, hclaimed, hkept⟩ := hone.spent other hold
      obtain ⟨next, hnext, hsame⟩ := @sameTerms_modify _ _ _ call.prepared _ hterms hwas
      exact ⟨next, hnext, hsame.claimed hclaimed, hkept.sameTerms hsame⟩
  · intro other hother place found hfound hsame
    rcases List.mem_cons.mp hother with rfl | hold
    · rcases Slots.entry_put hfound with ⟨_, ⟨⟩⟩ | ⟨hplace, hwas⟩
      · rfl
      · exact absurd (hprepared.symm.trans hsame.symm) (hapart place found hplace hwas)
    · rcases Slots.entry_put hfound with ⟨_, ⟨⟩⟩ | ⟨_, hwas⟩
      · exact absurd hsame (hnone other hold)
      · exact hone.waiting other hold place found hwas hsame
  · rw [List.map_cons, List.nodup_cons]
    refine ⟨fun hmem => ?_, hone.once⟩
    obtain ⟨other, hother, hsame⟩ := List.mem_map.mp hmem
    exact hnone other hother (hprepared.symm.trans hsame.symm)
  · intro other hother
    rcases List.mem_cons.mp hother with rfl | hold
    · exact .inl ⟨index, _, Slots.entry_put_self hcall _, rfl⟩
    rcases hone.accounted other hold with ⟨place, found, hfound, hinvocation⟩ | hended
    · refine .inl ⟨place, found, ?_, hinvocation⟩
      refine (Slots.entry_put_of_ne _ _ fun hplace => ?_).trans hfound
      subst hplace
      rw [hcall] at hfound
      cases hfound
      rw [hfresh] at hinvocation
      cases hinvocation
    · exact .inr hended
  · intro ended hended
    exact (hone.honest ended hended).extends'
      ⟨fun _ _ hfound => sameTerms_modify hterms hfound, List.subset_cons_self _ _⟩

/-- A call takes an answer. -/
theorem OneShot.reply (index : ℕ) (answer : SessionReply)
    (clock : ClockReading) :
    OneShot reader (before.reply reader descriptor index answer clock) := by
  unfold Adapter.reply
  cases hcall : before.calls.entry index with
  | none => exact hone
  | some call =>
    obtain ⟨state, hstate, hsound⟩ := hone.sound index call hcall
    simp only [hstate]
    cases hresumed : resumed reader descriptor state call answer clock with
    | none => exact hone
    | some progress =>
      cases hbefore : call.stage.invocation with
      | none =>
        have hprogress := resumed_before hbefore hresumed
        cases progress with
        | awaits stage =>
          rcases hprogress with ⟨hnone, htold⟩ |
            ⟨invocation, rfl, hprepared, haction, hpermit, hbound⟩
          · refine hone.waits hcall hstate (hnone.trans hbefore.symm)
              ⟨hsound.claimed, fun other hother => ?_, fun other hother => ?_⟩
            · exact nomatch hnone.symm.trans hother
            · exact nomatch htold.symm.trans hother
          · exact hone.invokes hcall hstate hsound hbefore hprepared haction hpermit hbound
        | ended result =>
          refine hone.finish hcall ⟨fun _ => hprogress, fun invocation hinvocation => ?_⟩
          exact nomatch hbefore.symm.trans hinvocation
      | some invocation =>
        have hprogress := resumed_after hsound hbefore hresumed
        cases progress with
        | awaits stage =>
          obtain ⟨hsame, told, htold, hleft, hbinds⟩ := hprogress
          refine hone.waits hcall hstate (hsame.trans hbefore.symm)
            ⟨hsound.claimed, fun other hother => ?_, fun other hother => ?_⟩
          · exact hsound.invoked other (hbefore.trans (hsame.symm.trans hother))
          · cases htold.symm.trans hother
            exact ⟨hleft, hbinds⟩
        | ended result =>
          obtain ⟨hmem, haction, hpermit⟩ := hone.listed index call invocation hcall hbefore
          have hprepared := (hsound.invoked invocation hbefore).1
          refine hone.finish hcall ⟨fun hnone => ?_, fun other hother => ?_⟩
          · exact nomatch hnone.symm.trans hbefore
          · cases hbefore.symm.trans hother
            refine ⟨hmem, haction, hpermit, state, ?_, hprogress⟩
            rw [hprepared]
            exact hstate

end

end Answered

/-! ## The adapter -/

theorem OneShot.commit (hone : OneShot reader before) (action : PreparedFinalActionV1)
    (permit : FinalSubmitPermit) (clock : ClockReading) :
    OneShot reader (before.commit descriptor action permit clock) := by
  unfold Adapter.commit
  split
  · exact hone.refuse action permit (retrySafe_ok (.inr rfl))
  split
  · exact hone.refuse action permit (retrySafe_error _)
  · exact hone.refuse action permit (retrySafe_ok (.inr rfl))
  split
  · exact hone.refuse action permit (retrySafe_ok (.inr rfl))
  next state hstate =>
  split
  · exact hone.refuse action permit (retrySafe_ok (.inr rfl))
  next hfree =>
  split
  · exact hone.refuse action permit (retrySafe_ok (.inr rfl))
  rw [Bool.or_eq_true, not_or] at hfree
  exact hone.claim action permit hstate (Bool.eq_false_iff.mpr hfree.2)

theorem OneShot.step (hone : OneShot reader before) (event : AdapterEvent) :
    OneShot reader (before.step reader descriptor event) := by
  cases event with
  | prepare nonce state => exact hone.prepare nonce state
  | cleanup nonce => exact hone.cleanup nonce
  | commit action permit clock => exact hone.commit action permit clock
  | reply index answer clock => exact hone.reply index answer clock

theorem oneShot_run (events : List AdapterEvent) :
    OneShot reader (Adapter.run reader descriptor events) :=
  List.foldlRecOn events _ OneShot.initial fun _ hone event _ => hone.step event

/-- In every run the final action is invoked at most once for what a preflight prepared, while
everything binds and nothing has expired; and what a call that has ended says about it, the
session bears out. -/
theorem commits_oneShot_honest (reader : GreenhouseReader Soup Element)
    (descriptor : AdapterDescriptor) (events : List AdapterEvent) :
    let adapter := Adapter.run reader descriptor events
    (adapter.invocations.map Invocation.prepared).Nodup ∧
      (∀ invocation ∈ adapter.invocations, ∃ state,
        adapter.prepared[invocation.prepared]? = some state ∧ invocation.Bound state) ∧
      (∀ invocation ∈ adapter.invocations,
        (∃ index call, adapter.calls.entry index = some call ∧
          call.stage.invocation = some invocation) ∨
        ∃ ended ∈ adapter.ended, ended.invocation = some invocation) ∧
      ∀ ended ∈ adapter.ended, ended.Honest reader adapter := by
  have hone : OneShot reader (Adapter.run reader descriptor events) := oneShot_run events
  refine ⟨hone.once, fun invocation hmem => ?_, hone.accounted, hone.honest⟩
  obtain ⟨state, hstate, _, hbound⟩ := hone.spent invocation hmem
  exact ⟨state, hstate, hbound⟩

end JobApplyAgent.Adapters
