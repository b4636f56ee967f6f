import JobApplyAgent.Kernel.AdmissionInvariant
import JobApplyAgent.Kernel.Runs

/-!
# At most one irreversible call

The claim token fences the executions of an attempt: of all executions that
carry one token at most one passes the preflight, a claim that moves on never
comes back under its token, and an attempt beyond its boundary is never claimed
again.
-/

namespace JobApplyAgent.Kernel

open Domain Store Library

/-! ## One attempt -/

/-- Beyond the boundary the permit is spent, and neither the attempt nor its
command is waiting. -/
def Barrier (attempt : Submission) : Prop :=
  attempt.finalActionAt.isSome = true →
    attempt.permitConsumed = true ∧ attempt.stage.precommit = false ∧
      ∀ command, attempt.command = some command → command.state ≠ .pending

/-- The claimed attempt has passed its preflight fence. -/
def Advanced (attempt : Submission) : Prop :=
  attempt.stage ≠ .queued ∧ attempt.stage ≠ .inspecting

theorem Finished.crossed (hfinished : Finished old owner ending now new) :
    new.finalActionAt = old.finalActionAt ∧ new.permitConsumed = old.permitConsumed := by
  refine ⟨hfinished.finalActionAt, ?_⟩
  unfold Submission.permitConsumed
  rw [hfinished.permit]

theorem Finished.barrier (hfinished : Finished old owner ending now new)
    (hold : old.finalActionAt.isSome = true → old.permitConsumed = true) :
    Barrier new := by
  intro hacted
  obtain ⟨hsame, hpermit⟩ := hfinished.crossed
  rw [hsame] at hacted
  refine ⟨hpermit.trans (hold hacted), by rw [hfinished.stage]; rfl, ?_⟩
  intro command hcommand
  rw [hfinished.command, Option.some.injEq] at hcommand
  subst hcommand
  simp [completeCommand]

theorem not_acted_of_precommit (hbarrier : Barrier attempt)
    (hstage : attempt.stage.precommit = true) : attempt.finalActionAt = none := by
  cases hacted : attempt.finalActionAt with
  | none => rfl
  | some instant =>
    have hcrossed := (hbarrier (by rw [hacted]; rfl)).2.1
    rw [hstage] at hcrossed
    cases hcrossed

theorem barrier_of_none (hnone : attempt.finalActionAt = none) :
    Barrier attempt := by
  intro hacted
  rw [hnone] at hacted
  cases hacted

theorem AttemptStep.barrier (hstep : AttemptStep move old new) (hold : Barrier old) :
    Barrier new := by
  cases hstep with
  | claim now runner token hcommand hstate hstage =>
    have hnone := not_acted_of_precommit hold (by rw [hstage]; rfl)
    exact barrier_of_none hnone
  | cancelInvalid now hcommand hstate hstage =>
    intro hacted
    obtain ⟨_, _, hpending⟩ := hold hacted
    exact absurd hstate (hpending _ hcommand)
  | preflight hcommand hstate hstage =>
    have hnone := not_acted_of_precommit hold (by rw [hstage]; rfl)
    exact barrier_of_none hnone
  | ready now hcommand hstate hstage =>
    have hnone := not_acted_of_precommit hold (by rw [hstage]; rfl)
    exact barrier_of_none hnone
  | boundary now hcommand hstate hstage hpermit hunspent =>
    refine fun _ => ⟨rfl, rfl, fun command hnew => ?_⟩
    cases hnew
    rw [renewLease, hstate]
    decide
  | finish now hcommand hstate hfinished =>
    exact hfinished.barrier fun hacted => (hold hacted).1
  | verify now hcommand hstate hstage hfinished =>
    exact hfinished.barrier fun hacted => (hold hacted).1
  | requeue hcommand hstate hcrossed =>
    refine barrier_of_none ?_
    cases hacted : old.finalActionAt with
    | none => exact hacted
    | some instant =>
      have hconsumed := (hold (by rw [hacted]; rfl)).1
      simp [crossedBoundary, hconsumed] at hcrossed
  | cancel reason now hstage hacted => exact barrier_of_none hacted
  | reconcile request now hreconciliable =>
    intro hacted
    obtain ⟨hconsumed, _, hpending⟩ := hold hacted
    exact ⟨hconsumed, rfl, hpending⟩

theorem AttemptStep.acted (hstep : AttemptStep move old new)
    (hacted : old.finalActionAt.isSome = true) :
    new.finalActionAt.isSome = true := by
  cases hstep with
  | boundary => rfl
  | finish now hcommand hstate hfinished => rwa [hfinished.crossed.1]
  | verify now hcommand hstate hstage hfinished => rwa [hfinished.crossed.1]
  | claim | cancelInvalid | preflight | ready | requeue | cancel | reconcile => exact hacted

theorem RowStep.barrier (hstep : RowStep db kind old new) (hold : Barrier old) :
    Barrier new := by
  cases hstep with
  | same => exact hold
  | moved _ hstep => exact hstep.barrier hold
  | quarantined hstep =>
    cases hstep with
    | marked reason now =>
      intro hacted
      obtain ⟨hconsumed, _, hpending⟩ := hold hacted
      exact ⟨hconsumed, rfl, hpending⟩
    | closed now =>
      intro hacted
      obtain ⟨hconsumed, _, hpending⟩ := hold hacted
      exact ⟨hconsumed, rfl, hpending⟩

theorem RowStep.acted (hstep : RowStep db kind old new)
    (hacted : old.finalActionAt.isSome = true) : new.finalActionAt.isSome = true := by
  cases hstep with
  | same => exact hacted
  | moved _ hstep => exact hstep.acted hacted
  | quarantined hstep => cases hstep <;> exact hacted

theorem FreshRow.barrier (hfresh : FreshRow db kind new) : Barrier new := by
  cases hfresh with
  | admitted hrow => exact barrier_of_none hrow.finalActionAt
  | inserted => exact barrier_of_none rfl

/-- A transaction gives up the claim on an attempt, or keeps it and never moves the
attempt back before its preflight fence. -/
def ClaimKept (old new : Submission) : Prop :=
  currentClaim new = none ∨
    currentClaim new = currentClaim old ∧ (Advanced old → Advanced new)

theorem ClaimKept.refl (attempt : Submission) : ClaimKept attempt attempt :=
  .inr ⟨rfl, fun hadvanced => hadvanced⟩

theorem ClaimKept.trans (first second third : Submission) (hfirst : ClaimKept first second)
    (hsecond : ClaimKept second third) : ClaimKept first third := by
  rcases hsecond with hnone | ⟨hsame, hadvanced⟩
  · exact .inl hnone
  · rcases hfirst with hnone | ⟨hsame', hadvanced'⟩
    · exact .inl (hsame.trans hnone)
    · exact .inr ⟨hsame.trans hsame', fun hold => hadvanced (hadvanced' hold)⟩

theorem currentClaim_claimed (hcommand : attempt.command = some command)
    (hstate : command.state = .claimed) :
    currentClaim attempt = command.claimToken := by
  simp [currentClaim, hcommand, hstate]

theorem currentClaim_eq_none (hcommand : attempt.command = some command)
    (hstate : command.state ≠ .claimed) :
    currentClaim attempt = none := by
  simp [currentClaim, hcommand, hstate]

theorem Finished.dropped (hfinished : Finished old owner ending now new) :
    currentClaim new = none :=
  currentClaim_eq_none hfinished.command (by simp [completeCommand])

theorem AttemptStep.claimKept (hstep : AttemptStep move old new)
    (hmove : move ≠ .claim) : ClaimKept old new := by
  cases hstep with
  | claim => exact absurd rfl hmove
  | cancelInvalid now hcommand hstate hstage =>
    exact .inl (currentClaim_eq_none rfl (by simp))
  | preflight hcommand hstate hstage =>
    refine .inr ⟨?_, fun _ => ⟨by simp [stageRow], by simp [stageRow]⟩⟩
    rw [currentClaim_claimed hcommand hstate]
    exact currentClaim_claimed rfl hstate
  | ready now hcommand hstate hstage =>
    refine .inr ⟨?_, fun _ => ⟨by simp [stageRow], by simp [stageRow]⟩⟩
    simp [currentClaim, stageRow, renewLease, hcommand, hstate]
  | boundary now hcommand hstate hstage hpermit hunspent =>
    refine .inr ⟨?_, fun _ => ⟨by simp [boundaryRow], by simp [boundaryRow]⟩⟩
    simp [currentClaim, boundaryRow, renewLease, hcommand, hstate]
  | finish now hcommand hstate hfinished => exact .inl hfinished.dropped
  | verify now hcommand hstate hstage hfinished => exact .inl hfinished.dropped
  | requeue hcommand hstate hcrossed =>
    exact .inl (currentClaim_eq_none rfl (by simp))
  | cancel reason now hstage hacted hconsumed hstate =>
    refine .inl ?_
    cases hcommand : old.command <;> simp [currentClaim, cancelRow, cancelCommand, hcommand]
  | reconcile request now hreconciliable =>
    exact .inr ⟨rfl, fun _ => ⟨by simp [reconciledRow], by simp [reconciledRow]⟩⟩

theorem RowStep.claimKept (hstep : RowStep db kind old new) (hkind : kind ≠ .claim) :
    ClaimKept old new := by
  cases hstep with
  | same => exact .refl _
  | moved hmove hstep =>
    refine hstep.claimKept ?_
    rintro rfl
    cases kind <;> simp [ActionKind.allows] at hmove hkind
  | quarantined hstep =>
    cases hstep with
    | marked => exact .inr ⟨rfl, fun _ => ⟨by simp [unknownRow], by simp [unknownRow]⟩⟩
    | closed => exact .inr ⟨rfl, fun _ => ⟨by simp [closedRow], by simp [closedRow]⟩⟩

theorem FreshRow.unclaimed (hfresh : FreshRow db kind new) : currentClaim new = none := by
  cases hfresh with
  | admitted hrow =>
    obtain ⟨now, hcommand⟩ := hrow.command
    exact currentClaim_eq_none hcommand (by simp [pendingCommand])
  | inserted => rfl

/-- What one action does to an attempt, as far as the fence is concerned.  A new
claim is drawn for a queued attempt only. -/
structure FenceStep (low high : ℕ) (old new : Submission) : Prop where
  acted : old.finalActionAt.isSome = true → new.finalActionAt.isSome = true
  claim : ClaimKept old new ∨
    ∃ token, currentClaim new = some token ∧ old.stage = .queued ∧ low ≤ token ∧ token < high

/-- What an action leaves of the table of attempts for the executions. -/
def Fenced (low high : ℕ) (before after : Db) : Prop :=
  Evolved (FenceStep low high) (fun row => currentClaim row = none) before.submissions
    after.submissions

/-- Actions other than a claim draw no token. -/
theorem Changes.fenced (hchanges : Changes held kind before after) (hkind : kind ≠ .claim)
    (low high : ℕ) :
    Fenced low high before after := by
  have hkept : Evolved
      (fun old new => (old.finalActionAt.isSome = true → new.finalActionAt.isSome = true) ∧
        ClaimKept old new)
      (fun row => currentClaim row = none) before.submissions after.submissions := by
    refine hchanges.submissions (fun row => ⟨fun hacted => hacted, .refl row⟩) ?_ ?_ ?_ ?_
    · exact fun _ _ _ hfirst hsecond =>
        ⟨fun hacted => hsecond.1 (hfirst.1 hacted), hfirst.2.trans _ _ _ hsecond.2⟩
    · rintro old new hnone ⟨_, hclaim | ⟨hsame, _⟩⟩
      · exact hclaim
      · exact hsame.trans hnone
    · exact fun _ _ _ hstep => ⟨hstep.acted, hstep.claimKept hkind⟩
    · exact fun _ _ hfresh => hfresh.unclaimed
  exact hkept.mono (fun _ _ hrel => ⟨hrel.1, .inl hrel.2⟩) fun _ hnone => hnone

theorem Changes.barrier (hchanges : Changes held kind before after)
    (hbefore : AllRows before.submissions Barrier) :
    AllRows after.submissions Barrier := by
  induction hchanges with
  | refl => exact hbefore
  | tail _ hchange ih =>
    exact hchange.submissions.allRows ih (fun _ _ hold hstep => hstep.barrier hold)
      fun _ hfresh => hfresh.barrier

/-! ## The executions -/

/-- The fence that the claim tokens build around the executions. -/
structure ExecutionsOk (state : LocalState) : Prop where
  barrier : AllRows state.db.submissions Barrier
  drawn : ∀ (id : ℕ) (attempt : Submission) (token : ℕ),
    state.db.submissions[id]? = some attempt → currentClaim attempt = some token →
    token < state.nextToken
  loaded : ∀ (index : ℕ) (worker : Worker), state.workers[index]? = some worker →
    worker.token < state.nextToken
  alone : ∀ (index other : ℕ) (worker rival : Worker),
    state.workers[index]? = some worker → state.workers[other]? = some rival →
    index ≠ other → worker.attempt = rival.attempt → worker.token = rival.token →
    worker.phase.pastPreflight = true → rival.phase.pastPreflight = false
  advanced : ∀ (index : ℕ) (worker : Worker), state.workers[index]? = some worker →
    worker.phase.pastPreflight = true → ∀ attempt,
      state.db.submissions[worker.attempt]? = some attempt →
      currentClaim attempt = some worker.token → Advanced attempt
  called : ∀ id ∈ state.commits, ∃ attempt, state.db.submissions[id]? = some attempt ∧
    attempt.finalActionAt.isSome = true ∧
    ∀ (index : ℕ) (worker : Worker), state.workers[index]? = some worker →
      worker.attempt = id → worker.phase.pastPreflight = true →
      currentClaim attempt ≠ some worker.token
  once : state.commits.Nodup

section Executions

variable {zone : Zone}

theorem ExecutionsOk.initial (hinitial : InitialState state) : ExecutionsOk state where
  barrier := fun id attempt hattempt =>
    barrier_of_none (hinitial.db.imported id attempt hattempt).finalActionAt
  drawn := by
    intro id attempt token hattempt hclaim
    simp [currentClaim, (hinitial.db.imported id attempt hattempt).command] at hclaim
  loaded := by simp [hinitial.workers]
  alone := by simp [hinitial.workers]
  advanced := by simp [hinitial.workers]
  called := by simp [hinitial.commits]
  once := by simp [hinitial.commits]

/-- Transactions that write only the database keep the fence. -/
theorem ExecutionsOk.database (hexecutions : ExecutionsOk state)
    (hfenced : Fenced state.nextToken after.nextToken state.db after.db)
    (hbarrier : AllRows after.db.submissions Barrier)
    (hworkers : after.workers = state.workers) (hcommits : after.commits = state.commits)
    (htoken : state.nextToken ≤ after.nextToken) : ExecutionsOk after where
  barrier := hbarrier
  drawn := by
    intro id attempt token hattempt hclaim
    rcases hfenced.origin id attempt hattempt with ⟨old, hold, hstep⟩ | ⟨_, hnone⟩
    · rcases hstep.claim with (hnone | ⟨hsame, _⟩) | ⟨drawn, hdrawn, _, _, hhigh⟩
      · rw [hnone] at hclaim
        cases hclaim
      · exact lt_of_lt_of_le (hexecutions.drawn id old token hold (hsame ▸ hclaim)) htoken
      · rw [hdrawn, Option.some.injEq] at hclaim
        exact hclaim ▸ hhigh
    · rw [hnone] at hclaim
      cases hclaim
  loaded := by
    rw [hworkers]
    exact fun index worker hworker =>
      lt_of_lt_of_le (hexecutions.loaded index worker hworker) htoken
  alone := by
    rw [hworkers]
    exact hexecutions.alone
  advanced := by
    rw [hworkers]
    intro index worker hworker hpast attempt hattempt hclaim
    rcases hfenced.origin worker.attempt attempt hattempt with ⟨old, hold, hstep⟩ | ⟨_, hnone⟩
    · rcases hstep.claim with (hnone | ⟨hsame, hadvanced⟩) | ⟨drawn, hdrawn, _, hlow, _⟩
      · rw [hnone] at hclaim
        cases hclaim
      · exact hadvanced
          (hexecutions.advanced index worker hworker hpast old hold (hsame ▸ hclaim))
      · rw [hdrawn, Option.some.injEq] at hclaim
        exact absurd (hexecutions.loaded index worker hworker) (by omega)
    · rw [hnone] at hclaim
      cases hclaim
  called := by
    rw [hworkers, hcommits]
    intro id hcalled
    obtain ⟨old, hold, hacted, hfree⟩ := hexecutions.called id hcalled
    obtain ⟨new, hnew, hstep⟩ := hfenced.kept id old hold
    refine ⟨new, hnew, hstep.acted hacted, fun index worker hworker hid hpast hclaim => ?_⟩
    rcases hstep.claim with (hnone | ⟨hsame, _⟩) | ⟨_, _, hqueued, _⟩
    · rw [hnone] at hclaim
      cases hclaim
    · exact hfree index worker hworker hid hpast (hsame ▸ hclaim)
    · have hcrossed := (hexecutions.barrier id old hold hacted).2.1
      rw [hqueued] at hcrossed
      cases hcrossed
  once := hcommits ▸ hexecutions.once

variable {id : ℕ}

/-- An execution that does not newly pass the preflight keeps the fence. -/
theorem ExecutionsOk.phase (hexecutions : ExecutionsOk state)
    (hworker : state.workers[index]? = some worker) {phase : WorkerPhase}
    (hpast : phase.pastPreflight = true → worker.phase.pastPreflight = true) :
    ExecutionsOk
      { state with workers := state.workers.set index { worker with phase } } where
  barrier := hexecutions.barrier
  drawn := hexecutions.drawn
  loaded := by
    intro other found hfound
    rcases getElem?_set_eq_some hfound with ⟨_, rfl⟩ | ⟨_, hfound⟩
    · exact hexecutions.loaded index worker hworker
    · exact hexecutions.loaded other found hfound
  alone := by
    intro first second left right hleft hright hne hattempt htoken hphase
    rcases getElem?_set_eq_some hleft with ⟨rfl, rfl⟩ | ⟨_, hrow₁⟩ <;>
      rcases getElem?_set_eq_some hright with ⟨rfl, rfl⟩ | ⟨_, hrow₂⟩
    · exact absurd rfl hne
    · exact hexecutions.alone first second worker right hworker hrow₂ hne hattempt htoken
        (hpast hphase)
    · have hquiet := hexecutions.alone first second left worker hrow₁ hworker hne hattempt
        htoken hphase
      by_contra hphase'
      rw [Bool.not_eq_false] at hphase'
      rw [hpast hphase'] at hquiet
      cases hquiet
    · exact hexecutions.alone first second left right hrow₁ hrow₂ hne hattempt htoken hphase
  advanced := by
    intro other found hfound hphase
    rcases getElem?_set_eq_some hfound with ⟨_, rfl⟩ | ⟨_, hfound⟩
    · exact hexecutions.advanced index worker hworker (hpast hphase)
    · exact hexecutions.advanced other found hfound hphase
  called := by
    intro id hcalled
    obtain ⟨attempt, hattempt, hacted, hfree⟩ := hexecutions.called id hcalled
    refine ⟨attempt, hattempt, hacted, fun other found hfound hid hphase => ?_⟩
    rcases getElem?_set_eq_some hfound with ⟨_, rfl⟩ | ⟨_, hfound⟩
    · exact hfree index worker hworker hid (hpast hphase)
    · exact hfree other found hfound hid hphase
  once := hexecutions.once

/-- The first execution under a token passes the preflight. -/
theorem ExecutionsOk.enter (hexecutions : ExecutionsOk state)
    (hworker : state.workers[index]? = some worker) {phase : WorkerPhase}
    (hattempt : state.db.submissions[worker.attempt]? = some attempt) (hadvanced : Advanced attempt)
    (hacted : attempt.finalActionAt = none)
    (hfirst : ∀ (other : ℕ) (rival : Worker), state.workers[other]? = some rival →
      rival.attempt = worker.attempt → rival.token = worker.token →
      rival.phase.pastPreflight = false) :
    ExecutionsOk
      { state with workers := state.workers.set index { worker with phase } } where
  barrier := hexecutions.barrier
  drawn := hexecutions.drawn
  loaded := by
    intro other found hfound
    rcases getElem?_set_eq_some hfound with ⟨_, rfl⟩ | ⟨_, hfound⟩
    · exact hexecutions.loaded index worker hworker
    · exact hexecutions.loaded other found hfound
  alone := by
    intro first second left right hleft hright hne hsame htoken hphase
    rcases getElem?_set_eq_some hleft with ⟨rfl, rfl⟩ | ⟨_, hrow₁⟩ <;>
      rcases getElem?_set_eq_some hright with ⟨rfl, rfl⟩ | ⟨_, hrow₂⟩
    · exact absurd rfl hne
    · exact hfirst second right hrow₂ hsame.symm htoken.symm
    · rw [hfirst first left hrow₁ hsame htoken] at hphase
      cases hphase
    · exact hexecutions.alone first second left right hrow₁ hrow₂ hne hsame htoken hphase
  advanced := by
    intro other found hfound hphase row hrow hclaim
    rcases getElem?_set_eq_some hfound with ⟨_, rfl⟩ | ⟨_, hfound⟩
    · rw [hattempt, Option.some.injEq] at hrow
      exact hrow ▸ hadvanced
    · exact hexecutions.advanced other found hfound hphase row hrow hclaim
  called := by
    intro id hcalled
    obtain ⟨row, hrow, hactedRow, hfree⟩ := hexecutions.called id hcalled
    refine ⟨row, hrow, hactedRow, fun other found hfound hid hphase => ?_⟩
    rcases getElem?_set_eq_some hfound with ⟨_, rfl⟩ | ⟨_, hfound⟩
    · change worker.attempt = id at hid
      rw [hid, hrow, Option.some.injEq] at hattempt
      rw [hattempt, hacted] at hactedRow
      cases hactedRow
    · exact hfree other found hfound hid hphase
  once := hexecutions.once

/-- The first call for an attempt that no execution may call again. -/
theorem ExecutionsOk.call (hexecutions : ExecutionsOk state) (hfresh : id ∉ state.commits)
    (hattempt : state.db.submissions[id]? = some attempt)
    (hacted : attempt.finalActionAt.isSome = true)
    (hfree : ∀ (index : ℕ) (worker : Worker), state.workers[index]? = some worker →
      worker.attempt = id → worker.phase.pastPreflight = true →
      currentClaim attempt ≠ some worker.token) :
    ExecutionsOk { state with commits := state.commits ++ [id] } where
  barrier := hexecutions.barrier
  drawn := hexecutions.drawn
  loaded := hexecutions.loaded
  alone := hexecutions.alone
  advanced := hexecutions.advanced
  called := by
    intro other hcalled
    rcases List.mem_append.mp hcalled with hcalled | hcalled
    · exact hexecutions.called other hcalled
    · rw [List.mem_singleton] at hcalled
      subst hcalled
      exact ⟨attempt, hattempt, hacted, hfree⟩
  once := by
    rw [List.nodup_append]
    refine ⟨hexecutions.once, by simp, fun other hother found hfound heq => ?_⟩
    rw [List.mem_singleton] at hfound
    subst hfound
    exact hfresh (heq ▸ hother)

theorem Owned.currentClaim {token : ℕ} (howned : Owned db id token) :
    ∃ attempt, db.submissions[id]? = some attempt ∧
      Kernel.currentClaim attempt = some token := by
  obtain ⟨attempt, command, hattempt, hcommand, hstate, htoken⟩ := howned
  exact ⟨attempt, hattempt, (currentClaim_claimed hcommand hstate).trans htoken⟩

/-- Every event of an execution keeps the fence. -/
theorem ExecutionsOk.work (hlocal : LocalOk state) (hexecutions : ExecutionsOk state)
    (hperform : perform zone state (.work index event) = .ok after) :
    ExecutionsOk after := by
  have hchanges : Changes state.locked .work state.db after.db :=
    perform_change hlocal.store.logs.outbox hlocal.admissions hperform
  have hfenced : Fenced state.nextToken state.nextToken state.db after.db :=
    hchanges.fenced (by decide) _ _
  have hbarrier := hchanges.barrier hexecutions.barrier
  have hmiddle : ExecutionsOk { state with db := after.db } :=
    hexecutions.database hfenced hbarrier rfl rfl (le_refl _)
  obtain ⟨worker, result, hworker, _, hmove, rfl⟩ :=
    performWork_eq_ok hlocal.store.logs.outbox hperform
  cases hmove with
  | quit | fail | finished => exact hmiddle.phase hworker (by simp [WorkerPhase.pastPreflight,
      supersededBy])
  | preflighted hphase | readied hphase | crossed hphase =>
    exact hmiddle.phase hworker fun _ => by rw [hphase]; rfl
  | entered hphase howned hmoved =>
    obtain ⟨old, new, hmoved⟩ := hmoved
    obtain ⟨owned, hrow, hclaim⟩ := howned.currentClaim
    rw [hmoved.row, Option.some.injEq] at hrow
    subst hrow
    have hrow := hmoved.row
    have hnew := hmoved.transaction.submissions
    cases hmoved.step with
    | @preflight _ command hcommand hstate hstage =>
      have hentered : (state.db.submissions.set worker.attempt
          (stageRow old .preparing command))[worker.attempt]? =
            some (stageRow old .preparing command) := getElem?_set_self_of_some hrow
      rw [← hnew] at hentered
      have hacted := not_acted_of_precommit (hexecutions.barrier _ _ hrow)
        (by rw [hstage]; rfl)
      refine hmiddle.enter hworker hentered
        ⟨by simp [stageRow], by simp [stageRow]⟩ hacted
        fun other rival hrival hattempt htoken => ?_
      by_contra hpast
      rw [Bool.not_eq_false] at hpast
      exact (hexecutions.advanced other rival hrival hpast old (hattempt ▸ hmoved.row)
        (htoken ▸ hclaim)).2 hstage
  | called hphase hcontext hafter =>
    obtain ⟨hrow, hcommand, hstate, htoken, hstage, hacted, _⟩ :=
      commitContext_eq_some hcontext
    have hclaim := (currentClaim_claimed hcommand hstate).trans htoken
    have hpast : worker.phase.pastPreflight = true := by rw [hphase]; rfl
    have hfresh : worker.attempt ∉ state.commits := by
      intro hcalled
      obtain ⟨attempt, hattempt, _, hfree⟩ := hexecutions.called _ hcalled
      rw [hrow, Option.some.injEq] at hattempt
      exact hfree index worker hworker rfl hpast (hattempt ▸ hclaim)
    obtain ⟨new, hnew, hstep⟩ := hfenced.kept worker.attempt _ hrow
    have hquiet : WorkerPhase.done.pastPreflight = true →
        worker.phase.pastPreflight = true := by simp [WorkerPhase.pastPreflight]
    have hdone := hmiddle.phase hworker hquiet
    refine hdone.call hfresh hnew (hstep.acted hacted) fun other rival hrival hid hphase' => ?_
    intro hnewClaim
    rcases getElem?_set_eq_some hrival with ⟨_, rfl⟩ | ⟨hne, hrival⟩
    · cases hphase'
    rcases hstep.claim with (hnone | ⟨hsame, _⟩) | ⟨_, _, hqueued, _⟩
    · rw [hnone] at hnewClaim
      cases hnewClaim
    · rw [hsame, hclaim, Option.some.injEq] at hnewClaim
      have halone := hexecutions.alone index other worker rival hworker hrival hne.symm
        hid.symm hnewClaim hpast
      rw [halone] at hphase'
      cases hphase'
    · rw [hstage] at hqueued
      cases hqueued

/-- A claim draws the next token for a queued attempt. -/
theorem claim_fenced (hlocal : LocalOk state)
    (hperform : perform zone state (.claim only now runner runtime) = .ok after) :
    Fenced state.nextToken after.nextToken state.db after.db := by
  obtain ⟨db, answer, hclaim, rfl⟩ := transactClaim_eq_ok hperform
  have hrefl : ∀ row, FenceStep state.nextToken (state.nextToken + 1) row row :=
    fun row => ⟨fun hacted => hacted, .inl (.refl row)⟩
  have hstored : ∀ {id : ℕ} {move : AttemptMove} {old new : Submission},
      MovedTo state.db id move old new db →
      FenceStep state.nextToken (state.nextToken + 1) old new →
      Fenced state.nextToken (state.nextToken + 1) state.db db := by
    intro id move old new hmoved hstep
    unfold Fenced
    rw [hmoved.transaction.submissions]
    exact (Carried.set hrefl hmoved.row hstep).evolved _
  rcases claimSubmissionCommand_eq_ok hlocal.store.logs.outbox hclaim with
    rfl | ⟨id, _, ⟨move, hmove, old, new, hmoved⟩ | ⟨old, new, hmoved, htoken⟩⟩
  · exact .refl hrefl _ _
  · have hclaim : move ≠ .claim := by rcases hmove with rfl | rfl <;> decide
    exact hstored hmoved
      ⟨fun hacted => hmoved.step.acted hacted, .inl (hmoved.step.claimKept hclaim)⟩
  · refine hstored hmoved ⟨fun hacted => hmoved.step.acted hacted, .inr ?_⟩
    cases hmoved.step with
    | claim now runner token hcommand hstate hstage =>
      exact ⟨state.nextToken, htoken, hstage, le_refl _, Nat.lt_succ_self _⟩

/-- A new execution reads the token of the claim and has passed nothing. -/
theorem loadWorker_eq_some (hload : loadWorker db id readings now = some worker) :
    worker.phase.pastPreflight = false ∧ ∃ attempt, db.submissions[id]? = some attempt ∧
      currentClaim attempt = some worker.token := by
  unfold loadWorker at hload
  split at hload
  · cases hload
  next attempt hattempt =>
  split at hload
  · next command application hcommand happlication =>
    split at hload
    · cases hload
    next hstate =>
    obtain ⟨token, htoken, hworker⟩ := Option.map_eq_some_iff.mp hload
    have hclaim := (currentClaim_claimed hcommand (not_not.mp hstate)).trans htoken
    split at hworker <;> subst hworker <;>
      exact ⟨rfl, attempt, hattempt, hclaim⟩
  · cases hload

theorem ExecutionsOk.load (hexecutions : ExecutionsOk state)
    (hphase : worker.phase.pastPreflight = false) (htoken : worker.token < state.nextToken) :
    ExecutionsOk { state with workers := state.workers ++ [worker] } where
  barrier := hexecutions.barrier
  drawn := hexecutions.drawn
  loaded := by
    intro index found hfound
    rcases getElem?_append_singleton_eq_some hfound with ⟨_, rfl⟩ | hfound
    · exact htoken
    · exact hexecutions.loaded index found hfound
  alone := by
    intro first second left right hleft hright hne hattempt hsame hpast
    rcases getElem?_append_singleton_eq_some hright with ⟨rfl, rfl⟩ | hrow₂
    · exact hphase
    rcases getElem?_append_singleton_eq_some hleft with ⟨rfl, rfl⟩ | hrow₁
    · rw [hphase] at hpast
      cases hpast
    · exact hexecutions.alone first second left right hrow₁ hrow₂ hne hattempt hsame hpast
  advanced := by
    intro index found hfound hpast
    rcases getElem?_append_singleton_eq_some hfound with ⟨_, rfl⟩ | hfound
    · rw [hphase] at hpast
      cases hpast
    · exact hexecutions.advanced index found hfound hpast
  called := by
    intro id hcalled
    obtain ⟨attempt, hattempt, hacted, hfree⟩ := hexecutions.called id hcalled
    refine ⟨attempt, hattempt, hacted, fun index found hfound hid hpast => ?_⟩
    rcases getElem?_append_singleton_eq_some hfound with ⟨_, rfl⟩ | hfound
    · rw [hphase] at hpast
      cases hpast
    · exact hfree index found hfound hid hpast
  once := hexecutions.once

theorem ExecutionsOk.perform (hlocal : LocalOk state) (hexecutions : ExecutionsOk state)
    (hperform : Kernel.perform zone state action = .ok after) :
    ExecutionsOk after := by
  have hchanges := perform_change hlocal.store.logs.outbox hlocal.admissions hperform
  have hbarrier := hchanges.barrier hexecutions.barrier
  cases hquiet : action.quiet with
  | true =>
    obtain ⟨hsame, htoken⟩ := perform_quiet hquiet hperform
    have hworkers : after.workers = state.workers := by rw [hsame]
    have hcommits : after.commits = state.commits := by rw [hsame]
    by_cases hkind : action.kind = .claim
    · cases action with
      | claim only now runner runtime =>
        exact hexecutions.database (claim_fenced hlocal hperform) hbarrier hworkers
          hcommits htoken
      | _ => cases hkind
    · exact hexecutions.database (hchanges.fenced hkind _ _) hbarrier hworkers hcommits
        htoken
  | false =>
    by_cases hkind : action.kind = .admission
    · have hsame := perform_admission hkind hperform
      rw [hkind] at hchanges
      refine hexecutions.database (hchanges.fenced (by decide) _ _) hbarrier ?_ ?_ ?_
      · rw [hsame]
      · rw [hsame]
      · rw [hsame]
    · cases action with
      | load id readings now =>
        obtain ⟨worker, hload, rfl⟩ := performLoad_eq_ok hperform
        obtain ⟨hphase, attempt, hattempt, hclaim⟩ := loadWorker_eq_some hload
        exact hexecutions.load hphase (hexecutions.drawn id attempt _ hattempt hclaim)
      | work index event => exact hexecutions.work hlocal hperform
      | beginAdmission | accept | lookup | admitItem | commitAdmission | resolveConflict
      | abortAdmission => exact absurd rfl hkind
      | _ => cases hquiet

/-- The fence holds in every reachable state, whatever the guard. -/
theorem executionsOk_invariant (guard : LocalState → Action → Prop) :
    (localSystem zone).Invariant guard fun state => LocalOk state ∧ ExecutionsOk state where
  init := fun _ hinitial => ⟨.initial hinitial, .initial hinitial⟩
  step := fun _ _ _ hstate _ hstep =>
    ⟨hstate.1.perform hstep, hstate.2.perform hstate.1 hstep⟩

/-! ## The irreversible call -/

/-- Every step of the system, under no restriction. -/
def anyStep (_ : LocalState) (_ : Action) : Prop := True

/-- A call finds the committed boundary of its attempt. -/
theorem performWork_called (hlocal : LocalOk state)
    (hperform : perform zone state action = .ok after) :
    after.commits = state.commits ∨ ∃ id attempt, after.commits = state.commits ++ [id] ∧
      state.db.submissions[id]? = some attempt ∧ attempt.stage = .committing ∧
      attempt.finalActionAt.isSome = true ∧ attempt.permitConsumed = true := by
  cases hquiet : action.quiet with
  | true =>
    obtain ⟨hsame, _⟩ := perform_quiet hquiet hperform
    exact .inl (by rw [hsame])
  | false =>
    by_cases hkind : action.kind = .admission
    · exact .inl (by rw [perform_admission hkind hperform])
    cases action with
    | load id readings now =>
      obtain ⟨worker, _, rfl⟩ := performLoad_eq_ok hperform
      exact .inl rfl
    | work index event =>
      obtain ⟨worker, result, _, _, hmove, rfl⟩ :=
        performWork_eq_ok hlocal.store.logs.outbox hperform
      cases hmove with
      | called hphase hcontext hafter =>
        obtain ⟨hrow, _, _, _, hstage, hacted, hconsumed⟩ :=
          commitContext_eq_some hcontext
        exact .inr ⟨worker.attempt, _, rfl, hrow, hstage, hacted, hconsumed⟩
      | quit | fail | preflighted | finished | entered | readied | crossed =>
        exact .inl rfl
    | beginAdmission | accept | lookup | admitItem | commitAdmission | resolveConflict
    | abortAdmission => exact absurd rfl hkind
    | _ => cases hquiet

/-- A final action is never undone. -/
theorem perform_acted (hlocal : LocalOk state) (hperform : perform zone state action = .ok after)
    (hattempt : state.db.submissions[id]? = some attempt)
    (hacted : attempt.finalActionAt.isSome = true) :
    ∃ row, after.db.submissions[id]? = some row ∧ row.finalActionAt.isSome = true := by
  have hchanges := perform_change hlocal.store.logs.outbox hlocal.admissions hperform
  have hevolved : Evolved
      (fun old new => old.finalActionAt.isSome = true → new.finalActionAt.isSome = true)
      (fun _ => True) state.db.submissions after.db.submissions :=
    hchanges.submissions (fun _ hold => hold)
      (fun _ _ _ hfirst hsecond hold => hsecond (hfirst hold)) (fun _ _ _ _ => trivial)
      (fun _ _ _ hstep => hstep.acted) (fun _ _ _ => trivial)
  obtain ⟨row, hrow, hkept⟩ := hevolved.kept id attempt hattempt
  exact ⟨row, hrow, hkept hacted⟩

/-- However executions, redeliveries, crashes, stale reconciliation and skips
interleave, the irreversible call is made at most once for an attempt and behind
its committed boundary only, and no step takes the attempt back from there. -/
theorem final_action_at_most_once (hreach : (localSystem zone).Reachable anyStep state) :
    state.commits.Nodup ∧
      (∀ action after, perform zone state action = .ok after →
        after.commits = state.commits ∨
          ∃ id attempt, after.commits = state.commits ++ [id] ∧
            state.db.submissions[id]? = some attempt ∧ attempt.stage = .committing ∧
            attempt.finalActionAt.isSome = true ∧ attempt.permitConsumed = true) ∧
      ∀ (id : ℕ) (attempt : Submission), state.db.submissions[id]? = some attempt →
        attempt.finalActionAt.isSome = true →
        ∀ later, (localSystem zone).Path anyStep state later →
          ∃ row, later.db.submissions[id]? = some row ∧ row.finalActionAt.isSome = true ∧
            row.stage.precommit = false ∧
            ∀ command, row.command = some command → command.state ≠ .pending := by
  have hinvariant : (localSystem zone).Invariant anyStep
      fun state => LocalOk state ∧ ExecutionsOk state := executionsOk_invariant anyStep
  obtain ⟨hlocal, hexecutions⟩ := hinvariant.reachable hreach
  refine ⟨hexecutions.once, fun action after hperform => performWork_called hlocal hperform,
    fun id attempt hattempt hacted later hpath => ?_⟩
  have hlater := (hinvariant.path ⟨hlocal, hexecutions⟩ hpath).2
  have hkept : ∃ row, later.db.submissions[id]? = some row ∧
      row.finalActionAt.isSome = true := by
    induction hpath with
    | refl => exact ⟨attempt, hattempt, hacted⟩
    | tail hhead hnext ih =>
      obtain ⟨hmiddle, hexecuted⟩ := hinvariant.path ⟨hlocal, hexecutions⟩ hhead
      obtain ⟨row, hrow, hrowActed⟩ := ih hexecuted
      obtain ⟨action, _, hstep⟩ := hnext
      exact perform_acted hmiddle hstep hrow hrowActed
  obtain ⟨row, hrow, hrowActed⟩ := hkept
  obtain ⟨_, hprecommit, hpending⟩ := hlater.barrier id row hrow hrowActed
  exact ⟨row, hrow, hrowActed, hprecommit, hpending⟩

end Executions

def sampleCalled : LocalState :=
  endOf sampleZone sampleState (sampleAdmit ++ samplePreflight ++ sampleCommit)

theorem final_action_at_most_once_sample :
    sampleCalled.commits = [0] ∧ sampleCalled.commits.Nodup :=
  ⟨by rfl, (final_action_at_most_once
    (endOf_reachable (fun _ _ _ => trivial) sampleState_initial)).1⟩

end JobApplyAgent.Kernel
