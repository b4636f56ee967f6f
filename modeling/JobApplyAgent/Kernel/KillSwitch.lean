import JobApplyAgent.Kernel.AtMostOnce
import JobApplyAgent.Kernel.Boundary

/-!
# The kill switch

The log of stops only grows, a signed remote command can only stop, and an autopilot
attempt crosses its boundary only while the last entry of the log is no stop.
-/

namespace JobApplyAgent.Kernel

open Domain Store Library

/-- The log of stops is numbered without gaps, and the remote side only stops. -/
structure StopsOk (db : Db) : Prop where
  sequenced : IsSequenced KillSwitchEvent.revision db.killEvents
  remote : ∀ event ∈ db.killEvents, event.source = .vercelSignedKill → event.active = true

/-- One transaction appends at most one entry to the log. -/
def StopsGrown (before after : Db) : Prop :=
  after.killEvents = before.killEvents ∨
    ∃ event, after.killEvents = before.killEvents ++ [event] ∧
      (event.source = .vercelSignedKill → event.active = true) ∧
      event.revision = (latestKillSwitchEvent before).elim 1 fun latest => latest.revision + 1

theorem StopsOk.latest_eq (hstops : StopsOk db) :
    latestKillSwitchEvent db = db.killEvents.getLast? :=
  hstops.sequenced.latestBy_eq

theorem StopsOk.grown (hstops : StopsOk before) (hgrown : StopsGrown before after) :
    StopsOk after := by
  rcases hgrown with hsame | ⟨event, happended, hremote, hrevision⟩
  · exact ⟨hsame ▸ hstops.sequenced, hsame ▸ hstops.remote⟩
  have hnumber : event.revision = before.killEvents.length + 1 := by
    cases hlatest : latestKillSwitchEvent before with
    | none =>
      have hempty := latestBy_eq_none_iff.mp hlatest
      simp [hrevision, hlatest, hempty]
    | some latest =>
      have hlast := hstops.sequenced.number_latestBy hlatest
      simp [hrevision, hlatest, hlast]
  constructor
  · rw [happended]
    exact isSequenced_concat_iff.mpr ⟨hstops.sequenced, hnumber⟩
  · rw [happended]
    intro found hfound
    rcases List.mem_append.mp hfound with hold | hnew
    · exact hstops.remote found hold
    · rw [List.mem_singleton] at hnew
      exact hnew ▸ hremote

theorem StopsGrown.isPrefix (hgrown : StopsGrown before after) :
    before.killEvents <+: after.killEvents := by
  rcases hgrown with hsame | ⟨event, happended, _⟩
  · simp [hsame]
  · rw [happended]
    apply List.prefix_append

def DigestApplied (db : Db) (digest : String) : Prop :=
  ∃ event ∈ db.killEvents, event.commandDigest = some digest

theorem digestApplied_of_set
    (hset : setAutomationKillSwitch db active source reasonCode (some digest) now =
      .ok (after, event, replayed)) : DigestApplied after digest := by
  unfold setAutomationKillSwitch at hset
  split at hset
  · cases hset
  split at hset
  · cases hset
  split at hset
  · cases hset
  simp only [Option.bind_some] at hset
  split at hset
  · next found hfound =>
    split at hset
    · cases hset
    cases hset
    exact ⟨event, List.mem_of_find?_eq_some hfound, by
      simpa using List.find?_some hfound⟩
  · split at hset
    · next hdigest => cases hdigest
    · cases hset
      exact ⟨_, List.mem_append_right _ (List.mem_singleton_self _), rfl⟩

theorem setAutomationKillSwitch_replayed (happlied : DigestApplied db digest)
    (hset : setAutomationKillSwitch db active source reasonCode (some digest) now =
      .ok (after, event, replayed)) : after = db := by
  obtain ⟨_, _, ⟨_, hsame⟩ | ⟨_, _, _, _, hfresh, _⟩⟩ := setAutomationKillSwitch_eq_ok hset
  · exact hsame
  · obtain ⟨stored, hstored, hdigest⟩ := happlied
    have hnone := List.find?_eq_none.mp (hfresh digest rfl) stored hstored
    simp [hdigest] at hnone

theorem stopsGrown_of_set
    (hset : setAutomationKillSwitch db active source reasonCode commandDigest now =
      .ok (after, event, replayed)) : StopsGrown db after := by
  obtain ⟨hremote, hactive, ⟨_, rfl⟩ | ⟨_, rfl, hsource, _, _, hrevision⟩⟩ :=
    setAutomationKillSwitch_eq_ok hset
  · exact .inl rfl
  · refine .inr ⟨event, rfl, fun hvercel => ?_, hrevision⟩
    rw [hactive]
    exact (hremote (hsource.symm.trans hvercel)).1

def Action.killDigest : Action → Option String
  | .killSwitch _ _ _ commandDigest _ => commandDigest
  | .remoteKillSwitch command _ => some command.envelopeDigest
  | _ => none

/-- An autopilot attempt enters its commit boundary. -/
def EntersCommitting (before after : Db) (id : ℕ) : Prop :=
  ∃ new, after.submissions[id]? = some new ∧ new.authorityKind = .qualifiedAutopilot ∧
    new.stage = .committing ∧
    ∀ old, before.submissions[id]? = some old → old.stage ≠ .committing

section Actions

variable {zone : Zone} {state : LocalState}

theorem perform_killDigest (hdigest : action.killDigest = some digest)
    (hperform : perform zone state action = .ok after) :
    ∃ active source reasonCode now db event replayed,
      setAutomationKillSwitch state.db active source reasonCode (some digest) now =
        .ok (db, event, replayed) ∧ after = state.withDb db := by
  cases action with
  | killSwitch active source reasonCode commandDigest now =>
    change commandDigest = some digest at hdigest
    subst hdigest
    obtain ⟨_, db, hset, rfl⟩ := transact_eq_ok hperform
    obtain ⟨⟨event, replayed⟩, hset⟩ := map_fst_eq_ok hset
    exact ⟨_, _, _, _, db, event, replayed, hset, rfl⟩
  | remoteKillSwitch command now =>
    change some command.envelopeDigest = some digest at hdigest
    rw [Option.some.injEq] at hdigest
    subst hdigest
    obtain ⟨_, db, hactivate, rfl⟩ := transact_eq_ok hperform
    obtain ⟨⟨event, replayed⟩, hactivate⟩ := map_fst_eq_ok hactivate
    exact ⟨_, _, _, _, db, event, replayed,
      activateControlPlaneKillSwitch_eq_ok hactivate, rfl⟩
  | _ => cases hdigest

theorem perform_stopsGrown (hlocal : LocalOk state)
    (hperform : perform zone state action = .ok after) : StopsGrown state.db after.db := by
  by_cases hkind : action.kind = .automation
  · cases action with
    | evaluate applicationId formPlanId now readings =>
      obtain ⟨_, db, hevaluate, rfl⟩ := transact_eq_ok hperform
      obtain ⟨id, hevaluate⟩ := map_fst_eq_ok hevaluate
      rcases evaluateAutoSubmitPolicy_eq_ok hevaluate with
        rfl | ⟨_, _, _, _, _, _, _, stored, _, _, _, hpersist, rfl⟩
      · exact .inl rfl
      · rcases persistDecision_eq_ok hpersist with rfl | ⟨rfl, _⟩ <;> exact .inl rfl
    | killSwitch active source reasonCode commandDigest now =>
      obtain ⟨_, db, hset, rfl⟩ := transact_eq_ok hperform
      obtain ⟨⟨event, replayed⟩, hset⟩ := map_fst_eq_ok hset
      exact stopsGrown_of_set hset
    | remoteKillSwitch command now =>
      obtain ⟨_, db, hactivate, rfl⟩ := transact_eq_ok hperform
      obtain ⟨⟨event, replayed⟩, hactivate⟩ := map_fst_eq_ok hactivate
      exact stopsGrown_of_set (activateControlPlaneKillSwitch_eq_ok hactivate)
    | activatePolicy policy signingKeyId accepted now =>
      obtain ⟨_, db, hactivate, rfl⟩ := transact_eq_ok hperform
      obtain ⟨policies, rfl, _⟩ := activateAutoSubmitPolicy_kept hactivate
      exact .inl rfl
    | revokePolicy reasonCode now =>
      obtain ⟨_, db, hrevoke, rfl⟩ := transact_eq_ok hperform
      obtain ⟨policies, rfl, _⟩ := revokeAutoSubmitPolicy_kept hrevoke
      exact .inl rfl
    | _ => cases hkind
  · exact .inl ((perform_change hlocal.store.logs.outbox hlocal.admissions
      hperform).autopilot hkind).2.2

variable {later : LocalState}

theorem path_killEvents (hlocal : LocalOk state) {guard : LocalState → Action → Prop}
    (hpath : (localSystem zone).Path guard state later) :
    state.db.killEvents <+: later.db.killEvents := by
  apply (localOk_invariant guard).path_rel (fun _ => List.prefix_rfl)
    (fun hfirst hsecond => hfirst.trans hsecond) ?_ hlocal hpath
  intro before action after hbefore _ hstep
  exact (perform_stopsGrown hbefore hstep).isPrefix

/-- Only an execution whose boundary finds no stop takes an autopilot attempt across. -/
theorem perform_entersCommitting (hlocal : LocalOk state)
    (hperform : perform zone state action = .ok after) {id : ℕ}
    (henters : EntersCommitting state.db after.db id) : killSwitchActive state.db = false := by
  obtain ⟨new, hnew, hkind, hstage, hold⟩ := henters
  obtain ⟨_, worker, _, _, _, _, rfl, henter⟩ :=
    perform_committing hlocal hperform hnew hstage hold
  rcases enterCommitBoundary_eq_ok hlocal.store.logs.outbox henter with
    hresult | ⟨_, hresult, _⟩ | ⟨_, old, entered, hresult, _, hmoved, hstop⟩
  · cases hresult
  · cases hresult
  · cases hresult
    apply hstop
    rw [hmoved.transaction.submissions,
      getElem?_set_self_of_some hmoved.row, Option.some.injEq] at hnew
    subst hnew
    rw [← hkind]
    exact (congrArg AttemptBindings.authorityKind hmoved.step.bindings).symm

theorem stopsOk_invariant (guard : LocalState → Action → Prop) :
    (localSystem zone).Invariant guard fun state => LocalOk state ∧ StopsOk state.db where
  init := fun _ hinitial => ⟨.initial hinitial,
    ⟨hinitial.db.killEvents ▸ isSequenced_nil, by simp [hinitial.db.killEvents]⟩⟩
  step := fun _ _ _ ⟨hlocal, hstops⟩ _ hstep =>
    ⟨hlocal.perform hstep, hstops.grown (perform_stopsGrown hlocal hstep)⟩

/-- An active log that ends inactive has grown by an entry that clears the stop. -/
theorem exists_cleared (hactive : killSwitchActive state.db = true) (hstate : StopsOk state.db)
    (hlater : StopsOk later.db) (hgrown : state.db.killEvents <+: later.db.killEvents)
    (hcleared : killSwitchActive later.db = false) :
    ∃ event ∈ later.db.killEvents.drop state.db.killEvents.length, event.active = false := by
  obtain ⟨added, hadded⟩ := hgrown
  rw [← hadded, List.drop_left]
  rw [killSwitchActive, hstate.latest_eq] at hactive
  rw [killSwitchActive, hlater.latest_eq, ← hadded] at hcleared
  cases hlast : added.getLast? with
  | none =>
    rw [List.getLast?_eq_none_iff] at hlast
    rw [hlast, List.append_nil, hactive] at hcleared
    cases hcleared
  | some event =>
    rw [List.getLast?_append, hlast, Option.some_or, Option.any_some] at hcleared
    exact ⟨event, List.mem_of_getLast? hlast, hcleared⟩

/-- Once a stop is committed, no autopilot attempt enters its boundary until a later entry
of the log clears it, and only the local operator writes such an entry.  A remote command
only ever appends stops, and a command whose digest was applied changes nothing again. -/
theorem kill_switch_barrier (hreach : (localSystem zone).Reachable anyStep state) :
    (∀ event ∈ state.db.killEvents, event.active = false → event.source = .localOperator) ∧
    (killSwitchActive state.db = true →
      ∀ later, (localSystem zone).Path anyStep state later →
        ∀ action after, perform zone later action = .ok after →
          ∀ id, EntersCommitting later.db after.db id →
            ∃ event ∈ later.db.killEvents.drop state.db.killEvents.length,
              event.active = false ∧ event.source = .localOperator) ∧
    (∀ command now after, perform zone state (.remoteKillSwitch command now) = .ok after →
      ∀ event ∈ after.db.killEvents.drop state.db.killEvents.length, event.active = true) ∧
    ∀ action digest after, action.killDigest = some digest →
      perform zone state action = .ok after →
      ∀ later, (localSystem zone).Path anyStep after later →
        ∀ again final, again.killDigest = some digest →
          perform zone later again = .ok final → final = later := by
  have hinvariant : (localSystem zone).Invariant anyStep
      fun state => LocalOk state ∧ StopsOk state.db := stopsOk_invariant anyStep
  obtain ⟨hlocal, hstops⟩ := hinvariant.reachable hreach
  have hoperator : ∀ {db : Db}, StopsOk db → ∀ event ∈ db.killEvents,
      event.active = false → event.source = .localOperator := by
    intro db hdb event hevent hinactive
    cases hsource : event.source with
    | localOperator => rfl
    | vercelSignedKill =>
      rw [hdb.remote event hevent hsource] at hinactive
      cases hinactive
  refine ⟨hoperator hstops, ?_, ?_, ?_⟩
  · intro hactive later hpath action after hperform id henters
    obtain ⟨hlaterLocal, hlaterStops⟩ := hinvariant.path ⟨hlocal, hstops⟩ hpath
    obtain ⟨event, hevent, hinactive⟩ := exists_cleared hactive hstops hlaterStops
      (path_killEvents hlocal hpath) (perform_entersCommitting hlaterLocal hperform henters)
    exact ⟨event, hevent, hinactive,
      hoperator hlaterStops event (List.mem_of_mem_drop hevent) hinactive⟩
  · intro command now after hperform event hevent
    obtain ⟨_, db, hactivate, rfl⟩ := transact_eq_ok hperform
    obtain ⟨⟨row, replayed⟩, hactivate⟩ := map_fst_eq_ok hactivate
    obtain ⟨_, hactive, ⟨_, hsame⟩ | ⟨_, happended, _⟩⟩ :=
      setAutomationKillSwitch_eq_ok (activateControlPlaneKillSwitch_eq_ok hactivate)
    · simp [LocalState.withDb, hsame] at hevent
    · simp only [LocalState.withDb, happended, List.drop_left, List.mem_singleton] at hevent
      exact hevent ▸ hactive
  · intro action digest after hdigest hperform later hpath again final hagain hfinal
    obtain ⟨_, _, _, _, db, _, _, hset, rfl⟩ := perform_killDigest hdigest hperform
    have happlied : DigestApplied later.db digest := by
      obtain ⟨event, hevent, hsame⟩ := digestApplied_of_set hset
      have hstep : LocalOk (state.withDb db) := hlocal.perform hperform
      exact ⟨event, (path_killEvents hstep hpath).subset hevent, hsame⟩
    obtain ⟨_, _, _, _, found, _, _, hreset, rfl⟩ := perform_killDigest hagain hfinal
    rw [setAutomationKillSwitch_replayed happlied hreset]
    rfl

end Actions

def sampleStop : List Action := [.killSwitch true .localOperator "OPERATOR_STOP" none 0]

theorem kill_switch_barrier_sample :
    killSwitchActive (endOf sampleZone sampleState sampleStop).db = true ∧
      ∀ event ∈ (endOf sampleZone sampleState sampleStop).db.killEvents,
        event.active = false → event.source = .localOperator := by
  have hreach : (localSystem sampleZone).Reachable anyStep
      (endOf sampleZone sampleState sampleStop) :=
    endOf_reachable (fun _ _ _ => trivial) sampleState_initial
  exact ⟨by decide, (kill_switch_barrier hreach).1⟩

end JobApplyAgent.Kernel
