import Mathlib.Tactic.Linarith
import JobApplyAgent.Governor.Limits

/-!
# Every run of the governor keeps its limits
-/

namespace JobApplyAgent.Governor

open Library TransitionSystem

/-- A transaction that is carried out found its watched keys as it had read them. -/
structure Cleared (settings : GovernorSettings) (state : GovernorState) (call : Reserving)
    (pending : Option Counted) : Prop where
  notKilled : isKilled state.store state.now = false
  noCooldown : inCooldown state.store state.now = false
  unrecorded : state.store.get state.now call.request.key = none
  counted : ∀ counted ∈ pending, counted.day ≤ dayOf state.now ∧
    counted.stamp ≤ epoch state.now ∧ settings.linkedinMinGapS ≤ counted.gap ∧
    BelowCap settings state counted.day ∧
    EndsBy state.store state.now .nextActionAt counted.stamp ∧
    ∀ earlier ∈ countedGrants state, earlier.stamp ≤ counted.stamp

/-- Where no watched key was written, what the call has learned holds at the transaction. -/
theorem cleared_of_intact (hpoint : PointOk settings state call (.execute pending))
    (hintact : call.watch.intact state.store state.now = true) :
    Cleared settings state call pending := by
  have hlearned := hpoint.learned
  have huntouched : ∀ key, key ∈ watchedKeys call.request call.watchedDay →
      call.watch.Untouched state.store key :=
    fun key hkey => Watch.untouched_of_intact hintact (hlearned.keys ▸ hkey)
  have hsame : ∀ {key}, call.watch.Untouched state.store key →
      state.store.get state.now key = call.watch.taken.get state.now key :=
    fun hkey => hlearned.since.get_eq hkey state.now
  have hstage : 3 ≤ (ReservePoint.execute pending).stage := by
    cases pending <;> simp [ReservePoint.stage]
  have hkill := huntouched .kill (by simp [watchedKeys])
  have hcooldown := huntouched .cooldownUntil (by simp [watchedKeys])
  have hrecord := huntouched call.request.key (by simp [watchedKeys])
  constructor
  · unfold isKilled
    rw [hsame hkill]
    exact hlearned.notKilled (by omega) hkill
  · unfold inCooldown readInt
    rw [hsame hcooldown]
    exact hlearned.noCooldown (by omega) hcooldown
  · rw [hsame hrecord]
    exact hlearned.unrecorded hstage hrecord
  · rintro counted ⟨⟩
    have hlinkedin : call.request.linkedin = true := hpoint.linkedin
    have hnext := huntouched .nextActionAt (by simp [watchedKeys, hlinkedin])
    obtain ⟨hday, hstamp, hgap, hhistory⟩ := hpoint.facts
    obtain ⟨hbelow, hends, hearlier⟩ := hhistory hnext
    refine ⟨hday, hstamp, hgap, hbelow, fun value hvalue => ?_, hearlier⟩
    rw [hsame hnext] at hvalue
    exact hends value hvalue

section CarryingOut

theorem countedGrants_carryOut (request : ReserveRequest) :
    countedGrants (carryOut state caller request pending) =
      pending.toList ++ countedGrants state := by
  cases pending <;> rfl

theorem carryOut_later (caller : ℕ) (request : ReserveRequest) (pending : Option Counted) :
    Later state (carryOut state caller request pending) where
  now_le := le_rfl
  since := reserveWrites_since state.store state.now request pending
  counted := by
    cases pending with
    | none => exact .inl rfl
    | some counted =>
      right
      apply reserveWrites_spent

theorem countedOn_carryOut (request : ReserveRequest) (counted : Counted) (day : ℕ) :
    countedOn (carryOut state caller request (some counted)) day =
      if counted.day = day then counted :: countedOn state day else countedOn state day := by
  unfold countedOn
  rw [countedGrants_carryOut, Option.toList_some, List.singleton_append, List.filter_cons]
  simp only [beq_iff_eq]

variable {counted : Counted}

/-- The gap of the new reservation to every earlier one. -/
theorem Cleared.spaced (hcleared : Cleared settings state call pending)
    (hhistory : HistoryOk settings state) (hcounted : counted ∈ pending)
    (hearlier : earlier ∈ countedGrants state) :
    earlier.stamp + settings.linkedinMinGapS ≤ counted.stamp := by
  obtain ⟨_, _, _, _, hends, _⟩ := hcleared.counted counted hcounted
  obtain ⟨limit, hlimit, hspaced⟩ := hhistory.spaced earlier hearlier
  exact hspaced.trans (hends limit (hlimit state.now))

theorem carryOut_plain (hcleared : Cleared settings state call none)
    (hhistory : HistoryOk settings state) :
    HistoryOk settings (carryOut state caller call.request none) := by
  have hentry : ∀ {key : GovernorKey}, key ≠ call.request.key →
      (carryOut state caller call.request none).store.entry key = state.store.entry key :=
    fun hkey => recordedStore_entry hkey
  have hget : ∀ {key : GovernorKey}, key ≠ call.request.key → ∀ now,
      (carryOut state caller call.request none).store.get now key =
        state.store.get now key :=
    fun hkey now => recordedStore_get hkey now
  constructor
  · intro day now
    unfold readInt
    rw [hget (by simp [ReserveRequest.key])]
    exact hhistory.counts day now
  · exact hhistory.days
  · exact hhistory.stamps
  · intro counted hcounted
    obtain ⟨limit, hlimit, hspaced⟩ := hhistory.spaced counted hcounted
    refine ⟨limit, fun now => ?_, hspaced⟩
    rw [hget (by simp [ReserveRequest.key])]
    exact hlimit now
  · exact hhistory.carried_records hcleared.unrecorded none
  · intro day entry
    rw [hentry (by simp [ReserveRequest.key])]
    exact hhistory.lasting day entry

/-- A counted reservation is remembered with its day, its stamp and its gap. -/
theorem carryOut_counted (hcleared : Cleared settings state call (some counted))
    (hhistory : HistoryOk settings state) :
    HistoryOk settings (carryOut state caller call.request (some counted)) := by
  obtain ⟨hday, hstamp, hgap, _, _, hearlier⟩ := hcleared.counted counted rfl
  have hnew : ∀ {found : Counted},
      found ∈ countedGrants (carryOut state caller call.request (some counted)) →
        found = counted ∨ found ∈ countedGrants state := by
    intro found hfound
    rw [countedGrants_carryOut] at hfound
    simpa using hfound
  have hother : ∀ {day : ℕ}, counted.day ≠ day →
      (carryOut state caller call.request (some counted)).store.entry (.applications day) =
        state.store.entry (.applications day) := by
    intro day hne
    have hday : GovernorKey.applications day ≠ .applications counted.day := by
      simpa using Ne.symm hne
    exact (reserveWrites_entry hday (by simp)).trans
      (recordedStore_entry (by simp [ReserveRequest.key]))
  constructor
  · intro day now
    rw [countedOn_carryOut]
    split
    · next hsame =>
      subst hsame
      have hget : (carryOut state caller call.request (some counted)).store.get now
          (.applications counted.day) = some ((countedOn state counted.day).length + 1 : ℤ) :=
        Keyspace.get_of_lasting (reserveWrites_count hhistory) now
      unfold readInt
      rw [hget, Option.getD_some, List.length_cons]
      push_cast
      rfl
    · next hne =>
      have hget : (carryOut state caller call.request (some counted)).store.get now
          (.applications day) = state.store.get now (.applications day) := by
        unfold Keyspace.get
        rw [hother hne]
      unfold readInt
      rw [hget]
      exact hhistory.counts day now
  · intro found hfound
    rcases hnew hfound with rfl | hold
    · exact hday
    · exact hhistory.days found hold
  · intro found hfound
    rcases hnew hfound with rfl | hold
    · exact hstamp
    · exact hhistory.stamps found hold
  · intro found hfound
    refine ⟨counted.stamp + counted.gap,
      Keyspace.get_of_lasting reserveWrites_nextAction, ?_⟩
    have hle : found.stamp ≤ counted.stamp := by
      rcases hnew hfound with rfl | hold
      · exact le_rfl
      · exact hearlier found hold
    linarith
  · intro granted hgranted
    obtain ⟨entry, expiry, hentry, hrest⟩ :=
      hhistory.carried_records hcleared.unrecorded (some counted) granted hgranted
    exact ⟨entry, expiry, (reserveWrites_entry (by simp) (by simp)).trans hentry, hrest⟩
  · intro day entry hentry
    by_cases hsame : counted.day = day
    · subst hsame
      have hcount : (carryOut state caller call.request (some counted)).store.entry
          (.applications counted.day) = some ⟨_, none⟩ := reserveWrites_count hhistory
      cases hcount.symm.trans hentry
      rfl
    · rw [hother hsame] at hentry
      exact hhistory.lasting day entry hentry

theorem Cleared.historyOk (hcleared : Cleared settings state call pending)
    (hhistory : HistoryOk settings state) :
    HistoryOk settings (carryOut state caller call.request pending) := by
  cases pending with
  | none => exact carryOut_plain hcleared hhistory
  | some counted => exact carryOut_counted hcleared hhistory

theorem Cleared.limits (hcleared : Cleared settings state call pending)
    (hlimits : Limits settings state) (hhistory : HistoryOk settings state) :
    Limits settings (carryOut state caller call.request pending) := by
  constructor
  · intro day
    cases pending with
    | none => exact hlimits.daily day
    | some counted =>
      rw [countedOn_carryOut]
      split
      · next hsame =>
        subst hsame
        obtain ⟨_, _, _, hbelow, _⟩ := hcleared.counted counted rfl
        unfold BelowCap at hbelow
        rw [List.length_cons]
        push_cast
        exact le_max_of_le_right hbelow
      · exact hlimits.daily day
  · rw [countedGrants_carryOut]
    cases pending with
    | none => exact hlimits.gap
    | some counted =>
      rw [Option.toList_some, List.singleton_append, List.pairwise_cons]
      exact ⟨fun earlier hearlier => hcleared.spaced hhistory rfl hearlier, hlimits.gap⟩
  · change (grant state call.request pending).Pairwise _
    unfold grant
    rw [List.pairwise_cons]
    refine ⟨fun granted hgranted hsame => ?_, hlimits.record⟩
    exact hhistory.recordsOut hcleared.unrecorded hgranted hsame.symm
  · exact fun day => (hcleared.historyOk hhistory).counts day state.now

end CarryingOut

/-- What one step does: it grants nothing, with the facts of whoever moved, or it carries
out one cleared transaction. -/
inductive StepCase (settings : GovernorSettings) (before after : GovernorState) : Prop
  | quiet (hquiet : Quiet before after)
      (hphases : ∀ caller, after.phases caller = before.phases caller ∨
        PhaseOk settings before (after.phases caller))
  | granted (caller : ℕ) (call : Reserving) (pending : Option Counted)
      (hcleared : Cleared settings before call pending)
      (hafter : after = carryOut before caller call.request pending)

theorem stepCase_enter (hphase : PhaseOk settings state phase) :
    StepCase settings state (state.enter caller phase) := by
  refine .quiet (.enter state caller phase) fun other => ?_
  by_cases hsame : other = caller
  · subst hsame
    right
    simpa [GovernorState.enter] using hphase
  · left
    simp [GovernorState.enter, hsame]

theorem stepCase_put (hkey : key.isStop = true) (entry : Option (KeyEntry ℤ))
    (hphase : PhaseOk settings state phase) :
    StepCase settings state (GovernorState.enter
      { state with store := state.store.put key entry } caller phase) := by
  refine .quiet (.put state hkey entry _) fun other => ?_
  by_cases hsame : other = caller
  · subst hsame
    right
    simpa [GovernorState.enter] using hphase
  · left
    simp [GovernorState.enter, hsame]

theorem stepCase_execute (hpoint : PointOk settings state call (.execute pending)) :
    StepCase settings state (execute state caller call pending) := by
  unfold execute
  split
  · next hintact =>
    exact .granted caller call pending (cleared_of_intact hpoint hintact) rfl
  · exact stepCase_enter trivial

/-- One read or write of a call grants nothing, or is one cleared transaction. -/
theorem proceed_cases (hok : GovernorOk settings before)
    (hphase : PhaseOk settings before phase)
    (hstep : proceed settings before caller gap phase = some after) :
    StepCase settings before after := by
  cases phase with
  | opened request =>
    cases hstep
    exact stepCase_enter trivial
  | retrying request day triesLeft =>
    cases triesLeft with
    | zero =>
      cases hstep
      exact stepCase_enter trivial
    | succ triesLeft =>
      cases hstep
      exact stepCase_enter (pointOk_watched request day triesLeft)
  | reserving call point =>
    by_cases hexecute : ∃ pending, point = .execute pending
    · obtain ⟨pending, rfl⟩ := hexecute
      cases hstep
      exact stepCase_execute hphase
    · have hread : (reserveRead settings before.store before.now gap call point).map
          (before.enter caller) = some after := by
        rw [← hstep]
        cases point <;> first | rfl | exact absurd ⟨_, rfl⟩ hexecute
      rw [Option.map_eq_some_iff] at hread
      obtain ⟨entered, hread, rfl⟩ := hread
      exact stepCase_enter (reserveRead_ok hphase hok.history hread)
  | tripCount | tripClock =>
    cases hstep
    exact stepCase_enter trivial
  | tripRecord trips seen =>
    cases hstep
    exact stepCase_put rfl _ trivial
  | tripExtend trips limit seen =>
    cases hstep
    exact stepCase_put rfl _ trivial
  | idle | reserveAnswer | tripAnswer => cases hstep

theorem reserveFinalAction_ok (now : ℕ) (request : ReserveRequest) :
    PhaseOk settings state (reserveFinalAction settings now request) := by
  unfold reserveFinalAction
  split
  · trivial
  · split <;> trivial

/-- Any action grants nothing, or is one cleared transaction. -/
theorem performGovernor_cases (hok : GovernorOk settings before)
    (hstep : performGovernor settings before action = some after) :
    StepCase settings before after := by
  cases action with
  | tick elapsed =>
    cases hstep
    exact .quiet ⟨Nat.le_add_right _ _, .refl _, rfl, fun _ _ => rfl⟩ fun _ => .inl rfl
  | kill =>
    cases hstep
    exact .quiet (.put before rfl _ before.phases) fun _ => .inl rfl
  | resume =>
    cases hstep
    refine .quiet ?_ fun _ => .inl rfl
    unfold Keyspace.delete
    split
    · exact .put before rfl none before.phases
    · exact ⟨le_rfl, .refl _, rfl, fun _ _ => rfl⟩
  | reserve caller request =>
    simp only [performGovernor] at hstep
    split at hstep
    · cases hstep
      exact stepCase_enter (reserveFinalAction_ok _ _)
    · cases hstep
  | tripCooldown caller =>
    simp only [performGovernor] at hstep
    split at hstep
    · cases hstep
      exact stepCase_enter trivial
    · cases hstep
  | proceed caller gap => exact proceed_cases hok (hok.phases caller) hstep

theorem GovernorOk.step (hok : GovernorOk settings before)
    (hcase : StepCase settings before after) : GovernorOk settings after := by
  cases hcase with
  | quiet hquiet hphases =>
    refine ⟨hok.limits.quiet hok.history hquiet, hok.history.quiet hquiet, ?_⟩
    intro caller
    have hbefore : PhaseOk settings before (after.phases caller) := by
      rcases hphases caller with hsame | hphase
      · rw [hsame]
        exact hok.phases caller
      · exact hphase
    exact hbefore.later hquiet.later
  | granted caller call pending hcleared hafter =>
    subst hafter
    refine ⟨hcleared.limits hok.limits hok.history, hcleared.historyOk hok.history, ?_⟩
    intro other
    by_cases hsame : other = caller
    · subst hsame
      simp [carryOut, PhaseOk]
    · have hphase := (hok.phases other).later
        (carryOut_later caller call.request pending)
      simpa [carryOut, hsame] using hphase

theorem governorStart_ok (settings : GovernorSettings) (now : ℕ) :
    GovernorOk settings (governorStart now) := by
  refine ⟨⟨?_, .nil, .nil, fun _ => rfl⟩, ⟨fun _ _ => rfl, ?_, ?_, ?_, ?_, ?_⟩, ?_⟩
  · exact fun _ => le_max_left _ _
  · exact fun _ hcounted => nomatch hcounted
  · exact fun _ hcounted => nomatch hcounted
  · exact fun _ hcounted => nomatch hcounted
  · exact fun _ hgranted => nomatch hgranted
  · exact fun _ _ hentry => nomatch hentry
  · exact fun _ => trivial

/-- The invariant of every run, whatever the guard. -/
theorem governorOk_invariant (settings : GovernorSettings)
    (guard : GovernorState → GovernorAction → Prop) :
    (governorSystem settings).Invariant guard (GovernorOk settings) where
  init := by
    rintro state ⟨now, rfl⟩
    exact governorStart_ok settings now
  step := fun _ _ _ hok _ hstep => hok.step (performGovernor_cases hok hstep)

/-- A step that grants finds the kill switch off and no cooldown running. -/
theorem granted_cleared (hok : GovernorOk settings before)
    (hstep : performGovernor settings before action = some after)
    (hgranted : after.grants ≠ before.grants) :
    isKilled before.store before.now = false ∧ inCooldown before.store before.now = false := by
  cases performGovernor_cases hok hstep with
  | quiet hquiet _ => exact absurd hquiet.grants hgranted
  | granted _ _ _ hcleared _ => exact ⟨hcleared.notKilled, hcleared.noCooldown⟩

end JobApplyAgent.Governor
