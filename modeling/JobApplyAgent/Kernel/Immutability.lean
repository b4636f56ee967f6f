import JobApplyAgent.Kernel.AtMostOnce

/-!
# Final outcomes

An attempt that has ended stays as it ended; an indeterminate one is settled by the
operator's reconciliation only.  The quarantine of the old tables does not look at
the outcome that it overwrites, nor at the live claim that it leaves behind.
-/

namespace JobApplyAgent.Kernel

open Domain Store Library

/-- The outcomes that nothing may change. -/
def terminalOutcomes : List AttemptOutcome :=
  [.confirmedSubmitted, .alreadyApplied, .operatorConfirmed]

/-- The outcomes that only the operator may settle. -/
def indeterminateOutcomes : List AttemptOutcome := [.unknown, .legacyUnverified]

def SameEnd (old new : Submission) : Prop :=
  new.stage = old.stage ∧ new.outcome = old.outcome ∧ new.status = old.status

theorem SameEnd.refl (attempt : Submission) : SameEnd attempt attempt := ⟨rfl, rfl, rfl⟩

theorem SameEnd.trans {first second : Submission} (hfirst : SameEnd first second)
    (hsecond : SameEnd second third) : SameEnd first third :=
  ⟨hsecond.1.trans hfirst.1, hsecond.2.1.trans hfirst.2.1, hsecond.2.2.trans hfirst.2.2⟩

/-- One action leaves the end of an attempt alone, or settles an indeterminate one. -/
structure EndKept (action : Action) (id : ℕ) (old new : Submission) : Prop where
  terminal : ∀ outcome ∈ terminalOutcomes, old.outcome = some outcome → SameEnd old new
  indeterminate : ∀ outcome ∈ indeterminateOutcomes, old.outcome = some outcome →
    SameEnd old new ∨ (∃ request now, action = .reconcile id request now) ∧
      (new.outcome = some .operatorConfirmed ∨ new.outcome = some .failedBeforeCommit)

theorem EndKept.of_same {id : ℕ} (hsame : old.outcome ≠ none → SameEnd old new) :
    EndKept action id old new where
  terminal := fun outcome _ houtcome => hsame (by rw [houtcome]; simp)
  indeterminate := fun outcome _ houtcome => .inl (hsame (by rw [houtcome]; simp))

/-! ## Outcome and status -/

/-- The coarse status of an attempt follows its outcome. -/
structure EndOk (attempt : Submission) : Prop where
  finished : attempt.stage = .finished ↔ attempt.outcome.isSome = true
  running : attempt.outcome = none → attempt.status = .pending ∨ attempt.status = .running
  projected : ∀ outcome, attempt.outcome = some outcome →
    attempt.status = legacyTerminalProjection outcome ∨
      outcome = .legacyUnverified ∧ attempt.status = .success
  applied : attempt.outcome = some .alreadyApplied → attempt.command ≠ none

theorem endOk_running (hstage : attempt.stage ≠ .finished) (houtcome : attempt.outcome = none)
    (hstatus : attempt.status = .pending ∨ attempt.status = .running) : EndOk attempt where
  finished := by simp [hstage, houtcome]
  running := fun _ => hstatus
  projected := by simp [houtcome]
  applied := by simp [houtcome]

theorem endOk_finished (hstage : attempt.stage = .finished)
    (houtcome : attempt.outcome = some outcome)
    (hstatus : attempt.status = legacyTerminalProjection outcome)
    (happlied : outcome = .alreadyApplied → attempt.command ≠ none) : EndOk attempt where
  finished := by simp [hstage, houtcome]
  running := by simp [houtcome]
  projected := by
    intro found hfound
    rw [houtcome, Option.some.injEq] at hfound
    exact .inl (hfound ▸ hstatus)
  applied := by
    intro hfound
    rw [houtcome, Option.some.injEq] at hfound
    exact happlied hfound

theorem Finished.endOk (hfinished : Finished old owner ending now new) : EndOk new := by
  apply endOk_finished hfinished.stage hfinished.outcome hfinished.status
  intro _
  rw [hfinished.command]
  simp

theorem EndOk.not_running (hattempt : EndOk attempt) (houtcome : attempt.outcome ≠ none) :
    attempt.status ≠ .pending ∧ attempt.status ≠ .running := by
  obtain ⟨outcome, houtcome⟩ := Option.ne_none_iff_exists'.mp houtcome
  rcases hattempt.projected outcome houtcome with hstatus | ⟨_, hstatus⟩
  · cases outcome <;> simp [hstatus, legacyTerminalProjection]
  · simp [hstatus]

theorem EndOk.reconciliable (hattempt : EndOk attempt)
    (hreconciliable : Kernel.reconciliable attempt = true) :
    attempt.outcome = some .unknown ∨ attempt.outcome = some .legacyUnverified := by
  simp only [Kernel.reconciliable, Bool.or_eq_true, decide_eq_true_eq] at hreconciliable
  rcases hreconciliable with hindeterminate | ⟨hnone, hunknown⟩
  · exact hindeterminate
  · rcases hattempt.running hnone with hstatus | hstatus <;>
      rw [hunknown] at hstatus <;> cases hstatus

theorem AttemptStep.endOk (hstep : AttemptStep move old new) (hold : EndOk old) : EndOk new := by
  cases hstep with
  | claim | preflight | ready => exact endOk_running (by simp [claimRow, stageRow]) rfl (.inl rfl)
  | boundary => exact endOk_running (by simp [boundaryRow]) rfl (.inr rfl)
  | requeue => exact endOk_running (by simp [requeueRow]) rfl (.inl rfl)
  | cancelInvalid now hcommand =>
    exact ⟨hold.finished, hold.running, hold.projected, fun _ => by
      simp [cancelInvalidCommand]⟩
  | finish now hcommand hstate hfinished => exact hfinished.endOk
  | verify now hcommand hstate hstage hfinished => exact hfinished.endOk
  | cancel => exact endOk_finished rfl rfl rfl (by simp)
  | reconcile request now =>
    cases houtcome : request.outcome with
    | confirmedSubmitted =>
      have hended : (reconciledRow old request now).outcome = some .operatorConfirmed := by
        simp [reconciledRow, houtcome]
      exact endOk_finished rfl hended (by simp [reconciledRow, houtcome,
        legacyTerminalProjection]) (by simp)
    | confirmedNotSubmitted =>
      have hended : (reconciledRow old request now).outcome = some .failedBeforeCommit := by
        simp [reconciledRow, houtcome]
      exact endOk_finished rfl hended (by simp [reconciledRow, houtcome,
        legacyTerminalProjection]) (by simp)

theorem endOk_unknownRow (attempt : Submission) (reason : AttemptReason) (now : Timestamp) :
    EndOk (unknownRow attempt reason now) :=
  endOk_finished rfl rfl rfl (by simp)

theorem LegacyStep.endOk (hstep : LegacyStep db old new) : EndOk new := by
  cases hstep with
  | marked reason now => exact endOk_unknownRow old reason now
  | closed now happlication happroved hstatus =>
    rcases hstatus with hstatus | hstatus
    · have hended : (closedRow old now).outcome = some .failedBeforeCommit := by
        simp [closedRow, hstatus]
      exact endOk_finished rfl hended hstatus (by simp)
    · have hended : (closedRow old now).outcome = some .draftOnly := by
        simp [closedRow, hstatus]
      exact endOk_finished rfl hended hstatus (by simp)

theorem RowStep.endOk (hstep : RowStep db kind old new) (hold : EndOk old) : EndOk new := by
  cases hstep with
  | same => exact hold
  | moved _ hstep => exact hstep.endOk hold
  | quarantined hstep => exact hstep.endOk

theorem FreshRow.endOk (hfresh : FreshRow db kind new) :
    EndOk new := by
  cases hfresh with
  | admitted hrow => exact endOk_running (by simp [hrow.stage]) hrow.outcome (.inl hrow.status)
  | inserted => exact endOk_running (by simp [legacyAttempt]) rfl (.inr rfl)

theorem ImportedAttempt.endOk (himported : ImportedAttempt db old) : EndOk old where
  finished := by rw [checks_outcome himported.checks]
  running := by
    intro hnone
    rcases himported.outcome with ⟨hsome, _⟩ | ⟨outcome, hsome, _⟩ <;>
      rw [hnone] at hsome <;> cases hsome
  projected := by
    intro outcome houtcome
    rcases himported.outcome with ⟨hsome, hstatus⟩ | ⟨found, hsome, hstatus, _⟩
    · rw [houtcome, Option.some.injEq] at hsome
      exact .inr ⟨hsome, hstatus⟩
    · rw [houtcome, Option.some.injEq] at hsome
      exact .inl (hsome ▸ hstatus)
  applied := by
    intro happlied
    rcases himported.outcome with ⟨hsome, _⟩ | ⟨found, hsome, _, _, hother⟩
    · rw [happlied] at hsome
      cases hsome
    · rw [happlied, Option.some.injEq] at hsome
      exact absurd hsome.symm hother

/-! ## Ended attempts -/

def EndStep (old new : Submission) : Prop :=
  EndOk old → EndOk new ∧ (old.outcome ≠ none → SameEnd old new)

theorem EndStep.refl (attempt : Submission) : EndStep attempt attempt :=
  fun hold => ⟨hold, fun _ => .refl attempt⟩

theorem EndStep.trans (first second third : Submission) (hfirst : EndStep first second)
    (hsecond : EndStep second third) : EndStep first third := by
  intro hold
  obtain ⟨hmiddle, hsame⟩ := hfirst hold
  obtain ⟨hnew, hsame'⟩ := hsecond hmiddle
  refine ⟨hnew, fun houtcome => ?_⟩
  have hkept := hsame houtcome
  apply hkept.trans
  apply hsame'
  rw [hkept.2.1]
  exact houtcome

/-- Of all moves of the lifecycle only a requeue and a reconciliation can touch an
attempt that has ended. -/
theorem AttemptStep.endStep (hstep : AttemptStep move old new) (hreconcile : move ≠ .reconcile)
    (hrequeue : move = .requeue → old.outcome = none) :
    EndStep old new := by
  intro hold
  refine ⟨hstep.endOk hold, fun houtcome => ?_⟩
  have hended : old.stage = .finished :=
    hold.finished.mpr (Option.isSome_iff_ne_none.mpr houtcome)
  cases hstep with
  | claim _ _ _ _ _ hstage | preflight _ _ hstage | ready _ _ _ hstage
  | boundary _ _ _ hstage | verify _ _ _ hstage =>
    rw [hended] at hstage
    cases hstage
  | cancelInvalid => exact .refl _
  | finish now hcommand hstate hfinished =>
    have hallowed := hfinished.allowed
    rw [hended] at hallowed
    cases hallowed
  | requeue => exact absurd (hrequeue rfl) houtcome
  | cancel _ _ hstage =>
    rw [hended] at hstage
    cases hstage
  | reconcile => exact absurd rfl hreconcile

theorem RowStep.endStep (hstep : RowStep db kind old new) (hlegacy : kind ≠ .legacy)
    (hreconcile : kind ≠ .reconcile) (hstale : kind ≠ .stale) :
    EndStep old new := by
  cases hstep with
  | same => exact .refl _
  | @moved _ move _ _ hmove hstep =>
    have hmoves : move ≠ .reconcile ∧ move ≠ .requeue := by
      constructor <;> rintro rfl <;> cases kind <;>
        simp [ActionKind.allows] at hmove hreconcile hstale
    exact hstep.endStep hmoves.1 fun hrequeue => absurd hrequeue hmoves.2
  | quarantined => exact absurd rfl hlegacy

/-! ## Approved applications -/

/-- No attempt with a command belongs to an approved application. -/
def Unapproved (db : Db) : Prop :=
  ∀ (id : ℕ) (attempt : Submission) (application : Application),
    db.submissions[id]? = some attempt → attempt.command ≠ none →
    db.applications[attempt.applicationId]? = some application →
    application.status ≠ .approved

section Changes

variable {before : Db}

variable {id : ℕ} {ids : List ℕ}

theorem Change.unapproved_application (hchange : Change held kind before after)
    (hold : before.applications[id]? = some old)
    (hstatus : old.status ≠ .approved) (hnew : after.applications[id]? = some new) :
    new.status ≠ .approved := by
  rcases hchange.applications with rfl | hevolved
  · cases hchange with
    | moved hmove => simp [ActionKind.allows] at hmove
    | content hkind => rcases hkind with hkind | hkind <;> cases hkind
    | retried _ _ hdraft =>
      rcases getElem?_set_eq_some hnew with ⟨rfl, rfl⟩ | ⟨_, hsame⟩
      · simp [hdraft]
      · rw [hold, Option.some.injEq] at hsame
        exact hsame ▸ hstatus
  · obtain ⟨kept, hkept, hcarried⟩ := hevolved.kept id old hold
    rw [hkept, Option.some.injEq] at hnew
    subst hnew
    exact fun happroved => hstatus (hcarried.approved happroved)

theorem command_ne_none_iff (hbindings : attemptBindings new = attemptBindings old) :
    new.command ≠ none ↔ old.command ≠ none := by
  have hkey := congrArg AttemptBindings.commandKey hbindings
  simp only [attemptBindings] at hkey
  cases hold : old.command <;> cases hnew : new.command <;> simp [hold, hnew] at hkey ⊢

theorem Change.unapproved (hchange : Change held kind before after) (hhomed : Homed before)
    (hbefore : Unapproved before) : Unapproved after := by
  intro id attempt application hattempt hcommand happlication
  rcases hchange.submissions.origin id attempt hattempt with ⟨old, hold, hstep⟩ | ⟨_, hfresh⟩
  · have howner : attempt.applicationId = old.applicationId :=
      congrArg AttemptBindings.applicationId hstep.bindings
    obtain ⟨stored, hstored⟩ := hhomed id old hold
    have hstatus := hbefore id old stored hold
      ((command_ne_none_iff hstep.bindings).mp hcommand) hstored
    exact hchange.unapproved_application hstored hstatus (howner ▸ happlication)
  · cases hfresh with
    | admitted _ _ hadmissible =>
      obtain ⟨stored, hstored, hdraft, _⟩ := hadmissible.application
      exact hchange.unapproved_application hstored (by simp [hdraft]) happlication
    | inserted => exact absurd rfl hcommand

/-- What every action keeps of the ends of the attempts. -/
structure EndsOk (db : Db) : Prop where
  rows : AllRows db.submissions EndOk
  unapproved : Unapproved db

theorem EndsOk.changes (hdb : EndsOk before) (hstore : StoreOk before)
    (hchanges : Changes held kind before after) : EndsOk after := by
  have hboth : EndsOk after ∧ StoreOk after := by
    induction hchanges with
    | refl => exact ⟨hdb, hstore⟩
    | tail _ hchange ih =>
      obtain ⟨hmiddle, hstored⟩ := ih
      refine ⟨⟨?_, hchange.unapproved hstored.homed hmiddle.unapproved⟩,
        hstored.change hchange⟩
      exact hchange.submissions.allRows hmiddle.rows (fun _ _ hold hstep => hstep.endOk hold)
        fun _ hfresh => hfresh.endOk
  exact hboth.1

theorem Migrated.endsOk (hmigrated : Migrated db) : EndsOk db where
  rows := fun id attempt hattempt => (hmigrated.imported id attempt hattempt).endOk
  unapproved := by
    intro id attempt application hattempt hcommand
    exact absurd (hmigrated.imported id attempt hattempt).command hcommand

/-! ## Stale claims and legacy writers -/

/-- No stale claim that would be requeued belongs to an attempt that has ended. -/
def StaleRunning (held : ℕ → Bool) (cutoff : Timestamp) (db : Db) : Prop :=
  AllRows db.submissions fun attempt =>
    held attempt.applicationId = false → claimStale cutoff attempt = true →
    crossedBoundary attempt = false → attempt.outcome = none

theorem claimStale_eq_false (hcommand : attempt.command = some command)
    (hstate : command.state ≠ .claimed) :
    claimStale cutoff attempt = false := by
  simp [claimStale, hcommand, hstate]

theorem reconcileStale_endSteps (hdb : OutboxConsistent before)
    (hrunning : StaleRunning held cutoff before)
    (hfold : ids.foldlM (reconcileStaleClaim held cutoff now) before = .ok after) :
    Carried EndStep before.submissions after.submissions := by
  induction ids generalizing before with
  | nil =>
    cases hfold
    exact .refl .refl _
  | cons id rest ih =>
    rw [List.foldlM_cons, bind_eq_ok] at hfold
    obtain ⟨middle, hmiddle, hrest⟩ := hfold
    rcases reconcileStaleClaim_eq_ok hdb hmiddle with
      rfl | ⟨move, old, new, hmove, hfree, hstale, hmoved⟩
    · exact ih hdb hrunning hrest
    · have hstep : EndStep old new := by
        apply hmoved.step.endStep (by rcases hmove with rfl | rfl <;> decide)
        rintro rfl
        cases hmoved.step with
        | requeue _ _ hcrossed => exact hrunning id old hmoved.row hfree hstale hcrossed
      have hfresh : claimStale cutoff new = false := by
        rcases hmove with rfl | rfl
        · cases hmoved.step with
          | finish _ _ _ hfinished =>
            exact claimStale_eq_false hfinished.command (by simp [completeCommand])
        · cases hmoved.step
          exact claimStale_eq_false rfl (by simp)
      have hmiddleRunning : StaleRunning held cutoff middle := by
        unfold StaleRunning
        rw [hmoved.transaction.submissions]
        refine AllRows.set hrunning fun _ hagain _ => ?_
        rw [hfresh] at hagain
        cases hagain
      have hmoves : Moved before id move middle := ⟨old, new, hmoved⟩
      have hcarried : Carried EndStep before.submissions middle.submissions := by
        rw [hmoved.transaction.submissions]
        exact .set .refl hmoved.row hstep
      exact hcarried.trans .trans (ih (hmoves.outboxConsistent hdb) hmiddleRunning hrest)

theorem unknownRow_endStep (reason : AttemptReason) (now : Timestamp)
    (hold : old.outcome = none ∨ old.outcome = some .unknown) :
    EndStep old (unknownRow old reason now) := by
  intro hend
  refine ⟨endOk_unknownRow old reason now, fun houtcome => ?_⟩
  have hunknown := hold.resolve_left houtcome
  have hstage := hend.finished.mpr (by rw [hunknown]; rfl)
  have hstatus : old.status = .unknown := by
    obtain hstatus | ⟨⟨⟩, _⟩ := hend.projected _ hunknown
    exact hstatus
  exact ⟨hstage.symm, hunknown.symm, hstatus.symm⟩

theorem markStale_endSteps
    (hrunning : ∀ id ∈ ids, ∀ attempt, before.submissions[id]? = some attempt →
      attempt.outcome = none ∨ attempt.outcome = some .unknown)
    (hfold : ids.foldlM (fun stored id => markAttemptUnknown stored id reason now) before =
      .ok after) : Carried EndStep before.submissions after.submissions := by
  induction ids generalizing before with
  | nil =>
    cases hfold
    exact .refl .refl _
  | cons id rest ih =>
    rw [List.foldlM_cons, bind_eq_ok] at hfold
    obtain ⟨middle, hmiddle, hrest⟩ := hfold
    obtain ⟨old, hlegacy⟩ := markAttemptUnknown_eq_ok hmiddle
    have hcarried : Carried EndStep before.submissions middle.submissions := by
      rw [hlegacy.transaction.submissions]
      exact .set .refl hlegacy.row
        (unknownRow_endStep reason now (hrunning id (by simp) old hlegacy.row))
    refine hcarried.trans .trans (ih ?_ hrest)
    intro other hother attempt hattempt
    rw [hlegacy.transaction.submissions] at hattempt
    rcases getElem?_set_eq_some hattempt with ⟨_, rfl⟩ | ⟨_, hsame⟩
    · exact .inr rfl
    · exact hrunning other (by simp [hother]) attempt hsame

/-- The claim of the old tables closes the attempt of an approved application. -/
theorem LegacyStep.approved (hstep : LegacyStep before old (closedRow old now)) :
    ∃ application, before.applications[old.applicationId]? = some application ∧
      application.status = .approved ∧ (old.status = .failed ∨ old.status = .draftOnly) := by
  generalize hnew : closedRow old now = new at hstep
  cases hstep with
  | marked =>
    have houtcome := congrArg Submission.outcome hnew
    simp only [closedRow, unknownRow, Option.some.injEq] at houtcome
    split at houtcome <;> cases houtcome
  | closed now happlication happroved hstatus =>
    exact ⟨_, happlication, happroved, hstatus⟩

/-- It closes definitive failures only. -/
theorem closedRow_endKept (hdb : EndsOk before)
    (hrow : before.submissions[id]? = some old)
    (hstep : LegacyStep before old (closedRow old now)) :
    EndKept action id old (closedRow old now) := by
  obtain ⟨application, happlication, happroved, hstatus⟩ := hstep.approved
  have hend := hdb.rows id old hrow
  have hlocal : old.command = none := by
    by_contra hcommand
    exact hdb.unapproved id old application hrow hcommand happlication happroved
  have hother : ∀ outcome, old.outcome = some outcome →
      outcome = .needsReview ∨ outcome = .failedBeforeCommit ∨ outcome = .draftOnly := by
    intro outcome houtcome
    have happlied := hend.applied
    rcases hend.projected outcome houtcome with hprojected | ⟨_, hsuccess⟩
    · rw [hprojected] at hstatus
      cases outcome <;> simp_all [legacyTerminalProjection]
    · simp [hsuccess] at hstatus
  constructor
  · intro outcome hterminal houtcome
    rcases hother outcome houtcome with rfl | rfl | rfl <;> simp [terminalOutcomes] at hterminal
  · intro outcome hopen houtcome
    rcases hother outcome houtcome with rfl | rfl | rfl <;>
      simp [indeterminateOutcomes] at hopen

end Changes

/-! ## Every action -/

/-- The quarantine of the old tables overwrites no end, and the stale reconciliation
never meets a live claim that it left on an attempt it ended. -/
def QuarantinedSafely (state : LocalState) : Action → Prop
  | .legacyMarkUnknown id _ _ => ∀ attempt, state.db.submissions[id]? = some attempt →
      ∀ outcome, attempt.outcome = some outcome →
        outcome ∉ [.alreadyApplied, .operatorConfirmed, .legacyUnverified]
  | .reconcileStale now staleSeconds =>
    StaleRunning state.locked (now - max 1 staleSeconds * second) state.db
  | _ => True

section Actions

variable {id : ℕ}

theorem EndsOk.marked (hlocal : LocalOk state) (hends : EndsOk state.db)
    (hsafe : ∀ outcome, old.outcome = some outcome →
      outcome ∉ [.alreadyApplied, .operatorConfirmed, .legacyUnverified])
    (hrow : state.db.submissions[id]? = some old)
    (hchecks : (unknownRow old reason now).checks = true) :
    EndKept action id old (unknownRow old reason now) := by
  have hunconfirmed : old.outcome ≠ some .confirmedSubmitted := by
    intro hconfirmed
    have hold := hlocal.store.attempts.checks id old hrow
    simp only [Submission.checks, Bool.and_eq_true, Bool.or_eq_true, decide_eq_true_eq,
      hconfirmed] at hold
    have hproof := hold.1.1.2.resolve_left (by simp)
    simp only [Submission.checks, Bool.and_eq_true, Bool.or_eq_true, decide_eq_true_eq,
      unknownRow] at hchecks
    have hnone := hchecks.1.1.1.2.resolve_right (by simp)
    simp [Submission.confirmedChecks, Option.isNone_iff_eq_none.mp hnone] at hproof
  constructor
  · intro outcome hterminal houtcome
    have hother := hsafe outcome houtcome
    rw [houtcome, ne_eq, Option.some.injEq] at hunconfirmed
    simp only [terminalOutcomes, List.mem_cons, List.not_mem_nil, or_false] at hterminal hother
    grind
  · intro outcome hopen houtcome
    have hother := hsafe outcome houtcome
    have hunknown : outcome = .unknown := by
      simp only [indeterminateOutcomes, List.mem_cons, List.not_mem_nil, or_false] at hopen
      rcases hopen with rfl | rfl
      · rfl
      · simp at hother
    subst hunknown
    exact .inl ((unknownRow_endStep reason now (.inr houtcome) (hends.rows id old hrow)).2
      (by rw [houtcome]; simp))

/-- Every action that the condition allows keeps the ends of all attempts. -/
theorem perform_endKept (hlocal : LocalOk state) (hends : EndsOk state.db)
    (hsafe : QuarantinedSafely state action) (hperform : perform zone state action = .ok after)
    (hrow : state.db.submissions[id]? = some old) :
    ∃ new, after.db.submissions[id]? = some new ∧ EndKept action id old new := by
  have hchanges := perform_change hlocal.store.logs.outbox hlocal.admissions hperform
  have hend := hends.rows id old hrow
  have hstepped : ∀ {fresh : Submission → Prop},
      Evolved EndStep fresh state.db.submissions after.db.submissions →
      ∃ new, after.db.submissions[id]? = some new ∧ EndKept action id old new := by
    intro fresh hevolved
    obtain ⟨new, hnew, hstep⟩ := hevolved.kept id old hrow
    exact ⟨new, hnew, .of_same (hstep hend).2⟩
  have hother : action.kind ≠ .legacy → action.kind ≠ .reconcile → action.kind ≠ .stale →
      ∃ new, after.db.submissions[id]? = some new ∧ EndKept action id old new := by
    intro hlegacy hreconcile hstale
    have hevolved : Evolved EndStep (fun _ => True) state.db.submissions
        after.db.submissions :=
      hchanges.submissions .refl .trans (fun _ _ _ _ => trivial)
        (fun _ _ _ hstep => hstep.endStep hlegacy hreconcile hstale) fun _ _ _ => trivial
    exact hstepped hevolved
  cases action with
  | reconcileStale now staleSeconds =>
    obtain ⟨_, db, hfold, rfl⟩ := transact_eq_ok hperform
    have hcarried := reconcileStale_endSteps hlocal.store.logs.outbox hsafe hfold
    exact hstepped (hcarried.evolved fun _ => True)
  | reconcile target request now =>
    obtain ⟨_, db, hreconcile, rfl⟩ := transact_eq_ok hperform
    obtain ⟨row, new, hmoved⟩ :=
      reconcileAttempt_eq_ok hlocal.store.logs.outbox hreconcile
    have hsubmissions : (state.withDb db).db.submissions =
        state.db.submissions.set target new := hmoved.transaction.submissions
    rw [hsubmissions]
    by_cases htarget : target = id
    · subst htarget
      have hsame := hmoved.row
      rw [hrow, Option.some.injEq] at hsame
      subst hsame
      refine ⟨new, getElem?_set_self_of_some hrow, ?_⟩
      cases hmoved.step with
      | reconcile settled settledAt hreconciliable =>
        have hindeterminate := hend.reconciliable hreconciliable
        constructor
        · intro outcome hterminal houtcome
          rw [houtcome] at hindeterminate
          rcases hindeterminate with hfound | hfound <;> cases hfound <;>
            simp [terminalOutcomes] at hterminal
        · intro outcome _ _
          refine .inr ⟨⟨request, now, rfl⟩, ?_⟩
          cases hsettled : settled.outcome <;> simp [reconciledRow, hsettled]
    · exact ⟨old, (List.getElem?_set_ne htarget).trans hrow,
        .of_same fun _ => .refl old⟩
  | legacyClaim applicationId key now =>
    obtain ⟨_, db, hclaim, rfl⟩ := transact_eq_ok hperform
    rcases claimAttempt_eq_ok hclaim with rfl | ⟨flushed, number, hclosed, _, hinsert⟩
    · exact ⟨old, hrow, .of_same fun _ => .refl old⟩
    obtain ⟨rfl, _⟩ := Db.insertSubmission_eq_ok hinsert
    have happended : ∀ {new : Submission}, flushed.submissions[id]? = some new →
        EndKept (.legacyClaim applicationId key now) id old new →
        ∃ new, (flushed.submissions ++
          [legacyAttempt applicationId number key now])[id]? = some new ∧
          EndKept (.legacyClaim applicationId key now) id old new :=
      fun hnew hkept => ⟨_, getElem?_append_of_some hnew, hkept⟩
    rcases hclosed with rfl | ⟨target, row, hlegacy, _⟩
    · exact happended hrow (.of_same fun _ => .refl old)
    by_cases htarget : target = id
    · subst htarget
      have hsame := hlegacy.row
      rw [hrow, Option.some.injEq] at hsame
      subst hsame
      refine happended ?_ (closedRow_endKept hends hrow hlegacy.step)
      rw [hlegacy.transaction.submissions]
      exact getElem?_set_self_of_some hrow
    · refine happended ?_ (.of_same fun _ => .refl old)
      rw [hlegacy.transaction.submissions]
      exact (List.getElem?_set_ne htarget).trans hrow
  | legacyMarkStale now staleMinutes =>
    obtain ⟨_, db, hmark, rfl⟩ := transact_eq_ok hperform
    refine hstepped ((markStale_endSteps (fun other hother attempt hattempt => ?_)
      hmark).evolved fun _ => True)
    left
    obtain ⟨⟨found, index⟩, hentry, rfl⟩ := List.mem_map.mp hother
    obtain ⟨hzip, hstale⟩ := List.mem_filter.mp hentry
    rw [List.mk_mem_zipIdx_iff_getElem?] at hzip
    have hfound : found = attempt := Option.some.inj (hzip.symm.trans hattempt)
    subst hfound
    simp only [legacyStale, Bool.and_eq_true, decide_eq_true_eq] at hstale
    by_contra houtcome
    have hquiet := (hends.rows index found hzip).not_running houtcome
    rcases hstale.1.1 with hstatus | hstatus
    · exact hquiet.1 hstatus
    · exact hquiet.2 hstatus
  | legacyMarkUnknown target reason now =>
    obtain ⟨_, db, hmark, rfl⟩ := transact_eq_ok hperform
    obtain ⟨row, hlegacy⟩ := markAttemptUnknown_eq_ok hmark
    have hsubmissions : (state.withDb db).db.submissions =
        state.db.submissions.set target (unknownRow row reason now) :=
      hlegacy.transaction.submissions
    rw [hsubmissions]
    by_cases htarget : target = id
    · subst htarget
      have hsame := hlegacy.row
      rw [hrow, Option.some.injEq] at hsame
      subst hsame
      exact ⟨_, getElem?_set_self_of_some hrow,
        hends.marked hlocal (hsafe old hrow) hrow hlegacy.transaction.checks⟩
    · exact ⟨old, (List.getElem?_set_ne htarget).trans hrow,
        .of_same fun _ => .refl old⟩
  | _ => exact hother (by simp [Action.kind]) (by simp [Action.kind]) (by simp [Action.kind])

theorem endsOk_invariant (guard : LocalState → Action → Prop) :
    (localSystem zone).Invariant guard fun state => LocalOk state ∧ EndsOk state.db where
  init := fun _ hinitial => ⟨.initial hinitial, hinitial.db.endsOk⟩
  step := fun _ _ _ ⟨hlocal, hends⟩ _ hstep =>
    ⟨hlocal.perform hstep, hends.changes hlocal.store
      (perform_change hlocal.store.logs.outbox hlocal.admissions hstep)⟩

/-- In every run in which the quarantine of the old tables is only called on an attempt
without a final outcome, and the stale reconciliation finds none of the live claims that it
left, final outcomes never change and indeterminate ones only by the operator. -/
theorem outcomes_immutable (hreach : (localSystem zone).Reachable QuarantinedSafely state) :
    (∀ action after, QuarantinedSafely state action →
      perform zone state action = .ok after →
      ∀ (id : ℕ) (old : Submission), state.db.submissions[id]? = some old →
        ∃ new, after.db.submissions[id]? = some new ∧ EndKept action id old new) ∧
    ∀ (id : ℕ) (old : Submission), state.db.submissions[id]? = some old →
      ∀ outcome ∈ terminalOutcomes, old.outcome = some outcome →
        ∀ later, (localSystem zone).Path QuarantinedSafely state later →
          ∃ new, later.db.submissions[id]? = some new ∧ SameEnd old new := by
  have hinvariant : (localSystem zone).Invariant QuarantinedSafely
      fun state => LocalOk state ∧ EndsOk state.db := endsOk_invariant QuarantinedSafely
  have hstate := hinvariant.reachable hreach
  constructor
  · intro action after hsafe hperform id old hrow
    exact perform_endKept hstate.1 hstate.2 hsafe hperform hrow
  · intro id old hrow outcome hterminal houtcome later hpath
    induction hpath with
    | refl => exact ⟨old, hrow, .refl old⟩
    | tail hhead hnext ih =>
      obtain ⟨middle, hmiddle, hsame⟩ := ih
      obtain ⟨hlocal, hends⟩ := hinvariant.path hstate hhead
      obtain ⟨action, hsafe, hstep⟩ := hnext
      obtain ⟨new, hnew, hkept⟩ := perform_endKept hlocal hends hsafe hstep hmiddle
      exact ⟨new, hnew, hsame.trans
        (hkept.terminal outcome hterminal (hsame.2.1.trans houtcome))⟩

end Actions

/-- The sample attempt, confirmed by the operator after its call had raised. -/
def sampleSettled : List Action :=
  sampleAdmit ++ samplePreflight ++ sampleCommit ++
    [.reconcile 0 ⟨.confirmedSubmitted, "portal", "reference", "note"⟩ 6]

theorem outcomes_immutable_sample :
    ∃ old, (endOf sampleZone sampleState sampleSettled).db.submissions[0]? = some old ∧
      old.outcome = some .operatorConfirmed ∧
      ∃ new, (endOf sampleZone sampleState sampleSettled).db.submissions[0]? = some new ∧
        SameEnd old new := by
  have hreach : (localSystem sampleZone).Reachable QuarantinedSafely
      (endOf sampleZone sampleState sampleSettled) :=
    endOf_reachable (fun _ => by
      simp [QuarantinedSafely, sampleSettled, sampleAdmit, samplePreflight, sampleCommit])
      sampleState_initial
  exact ⟨_, rfl, rfl, (outcomes_immutable hreach).2 0 _ rfl .operatorConfirmed (by decide) rfl
    _ .refl⟩

/-- The quarantine of the old tables takes an operator-confirmed attempt back to
unknown. -/
theorem outcome_overwritten :
    ¬∀ state, (localSystem sampleZone).Reachable anyStep state →
      ∀ action after, perform sampleZone state action = .ok after →
        ∀ (id : ℕ) (old : Submission), state.db.submissions[id]? = some old →
          ∃ new, after.db.submissions[id]? = some new ∧ EndKept action id old new := by
  intro himmutable
  have hreach : (localSystem sampleZone).Reachable anyStep
      (endOf sampleZone sampleState sampleSettled) :=
    endOf_reachable (fun _ _ _ => trivial) sampleState_initial
  obtain ⟨new, hnew, hkept⟩ := himmutable _ hreach
    (.legacyMarkUnknown 0 (.code .staleIndeterminate) 7) _ rfl 0 _ rfl
  cases hnew
  have hsame := hkept.terminal .operatorConfirmed (by decide) rfl
  exact absurd hsame.2.1 (by decide)

end JobApplyAgent.Kernel
