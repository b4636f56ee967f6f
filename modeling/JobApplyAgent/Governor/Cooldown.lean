import JobApplyAgent.Governor.Runs

/-!
# The end of a cooldown

A trip reads the count of the earlier ones, writes the next count, reads the clock and
writes the end of the cooldown, each on its own.  Trips that run one after the other
never move the end of a running cooldown earlier; two at once can.
-/

namespace JobApplyAgent.Governor

open Library TransitionSystem

variable {settings : GovernorSettings} {state before after : GovernorState} {caller : ℕ}

/-- The end of the cooldown that the store knows. -/
def cooldownUntil (state : GovernorState) : ℤ :=
  readInt state.store state.now .cooldownUntil

/-- A cooldown that runs does not end earlier after the step. -/
def CooldownKept (before after : GovernorState) : Prop :=
  inCooldown before.store before.now = true → cooldownUntil before ≤ cooldownUntil after

/-- The recorded end of the cooldown is no later than the limit. -/
def CoolBy (store : GovernorStore) (limit : ℤ) : Prop :=
  ∀ entry, store.entry .cooldownUntil = some entry → entry.value ≤ limit

/-- The end that a trip after so many earlier ones would set now. -/
def tripEnd (now : ℕ) (trips : ℤ) : ℤ :=
  epoch now + tripHours trips * 3600

def TripsRecorded (store : GovernorStore) (trips : ℤ) : Prop :=
  ∃ entry, store.entry .trips = some entry ∧ entry.value = trips

/-- What a trip under way relies on while nobody else writes its two keys. -/
structure TripHolds (state : GovernorState) (seen : TripSeen) (limit : ℤ) : Prop where
  trips_le : seen.trips ≤ state.store.version .trips
  cooldown_le : seen.cooldownUntil ≤ state.store.version .cooldownUntil
  coolBy : state.store.version .cooldownUntil = seen.cooldownUntil → CoolBy state.store limit

def TripOk (state : GovernorState) : Phase → Prop
  | .tripRecord trips seen => TripHolds state seen (tripEnd state.now trips)
  | .tripClock trips seen => TripHolds state seen (tripEnd state.now trips) ∧
      (state.store.version .trips = seen.trips → TripsRecorded state.store (trips + 1))
  | .tripExtend trips limit seen => TripHolds state seen limit ∧
      limit ≤ tripEnd state.now trips ∧
      (state.store.version .trips = seen.trips → TripsRecorded state.store (trips + 1))
  | _ => True

structure CooldownOk (state : GovernorState) : Prop where
  lasting : ∀ entry, state.store.entry .cooldownUntil = some entry → entry.expiresAt = none
  covered : CoolBy state.store (epoch state.now) ∨
    ∃ trips, TripsRecorded state.store (trips + 1) ∧ CoolBy state.store (tripEnd state.now trips)
  trips : ∀ caller, TripOk state (state.phases caller)

variable {fewer more gap : ℤ}

theorem tripHours_mono (hle : fewer ≤ more) :
    tripHours fewer ≤ tripHours more := by
  unfold tripHours
  apply min_le_min_left
  apply Nat.mul_le_mul_left
  exact Nat.pow_le_pow_right (by decide) (Int.toNat_le_toNat hle)

theorem tripEnd_mono {now later : ℕ} (hnow : now ≤ later) (hle : fewer ≤ more) :
    tripEnd now fewer ≤ tripEnd later more := by
  have hclock := epoch_mono hnow
  have hhours : (tripHours fewer : ℤ) ≤ tripHours more := by
    exact_mod_cast tripHours_mono hle
  unfold tripEnd
  linarith

theorem epoch_le_tripEnd (now : ℕ) (trips : ℤ) : epoch now ≤ tripEnd now trips := by
  unfold tripEnd
  have hhours : (0 : ℤ) ≤ tripHours trips := Int.natCast_nonneg _
  linarith

variable {limit trips : ℤ} {seen : TripSeen} {phase : Phase}

theorem CoolBy.mono {store : GovernorStore} {later : ℤ} (hcool : CoolBy store limit)
    (hle : limit ≤ later) : CoolBy store later :=
  fun entry hentry => (hcool entry hentry).trans hle

theorem TripHolds.later {later : ℤ} (hholds : TripHolds before seen limit)
    (hsince : Since before.store after.store) (hle : limit ≤ later) :
    TripHolds after seen later := by
  have htrips := hsince.version_le .trips
  have hcooldown := hsince.version_le .cooldownUntil
  have hseen := hholds.cooldown_le
  refine ⟨hholds.trips_le.trans htrips, hseen.trans hcooldown, fun hsame => ?_⟩
  intro entry hentry
  rw [hsince.entry_eq _ (by omega)] at hentry
  exact (hholds.coolBy (by omega) entry hentry).trans hle

theorem TripHolds.recorded (hholds : TripHolds before seen limit)
    (hsince : Since before.store after.store)
    (hrecorded : before.store.version .trips = seen.trips →
      TripsRecorded before.store trips) (hsame : after.store.version .trips = seen.trips) :
    TripsRecorded after.store trips := by
  have htrips := hsince.version_le .trips
  have hseen := hholds.trips_le
  unfold TripsRecorded
  rw [hsince.entry_eq _ (by omega)]
  exact hrecorded (by omega)

theorem TripOk.later (htrip : TripOk before phase) (hnow : before.now ≤ after.now)
    (hsince : Since before.store after.store) :
    TripOk after phase := by
  have hend : ∀ trips, tripEnd before.now trips ≤ tripEnd after.now trips :=
    fun trips => tripEnd_mono hnow le_rfl
  cases phase with
  | tripRecord trips seen => exact TripHolds.later htrip hsince (hend trips)
  | tripClock trips seen =>
    exact ⟨htrip.1.later hsince (hend trips), htrip.1.recorded hsince htrip.2⟩
  | tripExtend trips limit seen =>
    exact ⟨htrip.1.later hsince le_rfl, htrip.2.1.trans (hend trips),
      htrip.1.recorded hsince htrip.2.2⟩
  | _ => trivial

/-- A step that writes neither key of the cooldown. -/
structure CooldownSame (before after : GovernorState) : Prop where
  now_le : before.now ≤ after.now
  since : Since before.store after.store
  cooldown : after.store.entry .cooldownUntil = before.store.entry .cooldownUntil
  trips : after.store.entry .trips = before.store.entry .trips

theorem CooldownSame.coolBy (hsame : CooldownSame before after) :
    CoolBy after.store limit ↔ CoolBy before.store limit := by
  unfold CoolBy
  rw [hsame.cooldown]

/-- The end of the cooldown is read off its entry, at any instant. -/
theorem CooldownOk.until_eq (hok : CooldownOk state) (now : ℕ) :
    readInt state.store now .cooldownUntil =
      ((state.store.entry .cooldownUntil).map KeyEntry.value).getD 0 := by
  unfold readInt Keyspace.get
  cases hentry : state.store.entry .cooldownUntil with
  | none => rfl
  | some entry =>
    have hlive : entry.live now = true := by simp [KeyEntry.live, hok.lasting entry hentry]
    simp [Option.filter, hlive]

theorem CooldownOk.same (hok : CooldownOk before) (hsame : CooldownSame before after)
    (hphases : ∀ caller, after.phases caller = before.phases caller ∨
      TripOk before (after.phases caller)) :
    CooldownOk after ∧ CooldownKept before after := by
  have hafter : CooldownOk after := by
    refine ⟨fun entry hentry => hok.lasting entry (hsame.cooldown ▸ hentry), ?_, ?_⟩
    · rcases hok.covered with hended | ⟨trips, hrecorded, hcool⟩
      · left
        exact hsame.coolBy.mpr (hended.mono (epoch_mono hsame.now_le))
      · right
        refine ⟨trips, ?_, hsame.coolBy.mpr (hcool.mono (tripEnd_mono hsame.now_le le_rfl))⟩
        unfold TripsRecorded
        rw [hsame.trips]
        exact hrecorded
    · intro caller
      have hbefore : TripOk before (after.phases caller) := by
        rcases hphases caller with hphase | htrip
        · rw [hphase]
          exact hok.trips caller
        · exact htrip
      exact hbefore.later hsame.now_le hsame.since
  refine ⟨hafter, fun _ => ?_⟩
  unfold cooldownUntil
  rw [hok.until_eq, hafter.until_eq, hsame.cooldown]

theorem same_enter (hok : CooldownOk state) (htrip : TripOk state phase) :
    CooldownOk (state.enter caller phase) ∧
      CooldownKept state (state.enter caller phase) := by
  refine hok.same ⟨le_rfl, .refl _, rfl, rfl⟩ fun other => ?_
  by_cases hsame : other = caller
  · subst hsame
    right
    simpa [GovernorState.enter] using htrip
  · left
    simp [GovernorState.enter, hsame]

theorem CooldownOk.tripCount (hok : CooldownOk state) (halone : TripAlone state .tripCount) :
    TripOk state (.tripRecord (readInt state.store state.now .trips)
      ⟨state.store.version .trips, state.store.version .cooldownUntil⟩) := by
  refine ⟨le_rfl, le_rfl, fun _ => ?_⟩
  have hend := epoch_le_tripEnd state.now (readInt state.store state.now .trips)
  cases hrunning : inCooldown state.store state.now with
  | false =>
    have hends := inCooldown_eq_false.mp hrunning
    intro entry hentry
    have hlive : entry.live state.now = true := by
      simp [KeyEntry.live, hok.lasting entry hentry]
    have hget := Keyspace.get_eq_some.mpr ⟨entry, hentry, hlive, rfl⟩
    exact (hends entry.value hget).trans hend
  | true =>
    rcases hok.covered with hended | ⟨trips, ⟨entry, hentry, hvalue⟩, hcool⟩
    · exact hended.mono hend
    obtain ⟨count, hcount⟩ := Option.isSome_iff_exists.mp (halone hrunning)
    obtain ⟨live, hlive, _, hread⟩ := Keyspace.get_eq_some.mp hcount
    cases hentry.symm.trans hlive
    have hreads : readInt state.store state.now .trips = trips + 1 := by
      unfold readInt
      rw [hcount, Option.getD_some, ← hread, hvalue]
    apply hcool.mono
    rw [hreads]
    exact tripEnd_mono le_rfl (by omega)

theorem CooldownOk.tripRecord (hok : CooldownOk state)
    (halone : TripAlone state (.tripRecord trips seen))
    (htrip : TripOk state (.tripRecord trips seen)) :
    CooldownOk (writeTrips state caller trips seen) ∧
      CooldownKept state (writeTrips state caller trips seen) := by
  have hsince : Since state.store (writeTrips state caller trips seen).store :=
    .put state.store .trips _
  have hcooldown : (writeTrips state caller trips seen).store.entry .cooldownUntil =
      state.store.entry .cooldownUntil := Keyspace.put_entry_of_ne _ _ (by simp)
  have hversion : (writeTrips state caller trips seen).store.version .cooldownUntil =
      state.store.version .cooldownUntil := Keyspace.put_version_of_ne _ _ (by simp)
  have hrecorded : TripsRecorded (writeTrips state caller trips seen).store (trips + 1) :=
    ⟨_, Keyspace.put_entry_self _ _ _, rfl⟩
  have hcool : CoolBy (writeTrips state caller trips seen).store
      (tripEnd state.now trips) := by
    unfold CoolBy
    rw [hcooldown]
    exact htrip.coolBy halone.2
  have hafter : CooldownOk (writeTrips state caller trips seen) := by
    refine ⟨?_, .inr ⟨trips, hrecorded, hcool⟩, fun other => ?_⟩
    · rw [hcooldown]
      exact hok.lasting
    · by_cases hsame : other = caller
      · subst hsame
        have hphase : (writeTrips state other trips seen).phases other =
            .tripClock trips { seen with trips := state.store.version .trips + 1 } :=
          Function.update_self ..
        rw [hphase]
        refine ⟨⟨?_, ?_, fun _ => hcool⟩, fun _ => hrecorded⟩
        · exact (Keyspace.put_version_self _ _ _).ge
        · exact halone.2.ge.trans hversion.ge
      · have hphase : (writeTrips state caller trips seen).phases other =
            state.phases other := Function.update_of_ne hsame ..
        rw [hphase]
        exact (hok.trips other).later le_rfl hsince
  refine ⟨hafter, fun _ => ?_⟩
  unfold cooldownUntil
  rw [hok.until_eq, hafter.until_eq, hcooldown]

/-- A trip that runs alone never moves the end of the cooldown earlier. -/
theorem CooldownOk.tripExtend (hok : CooldownOk state)
    (halone : TripAlone state (.tripExtend trips limit seen))
    (htrip : TripOk state (.tripExtend trips limit seen)) :
    CooldownOk (writeCooldown state caller trips limit) ∧
      CooldownKept state (writeCooldown state caller trips limit) := by
  obtain ⟨hholds, hlimit, hrecorded⟩ := htrip
  have hsince : Since state.store (writeCooldown state caller trips limit).store :=
    .put state.store .cooldownUntil _
  have hentry : (writeCooldown state caller trips limit).store.entry .cooldownUntil =
      some ⟨limit, none⟩ := Keyspace.put_entry_self _ _ _
  have htrips : (writeCooldown state caller trips limit).store.entry .trips =
      state.store.entry .trips := Keyspace.put_entry_of_ne _ _ (by simp)
  have hafter : CooldownOk (writeCooldown state caller trips limit) := by
    refine ⟨?_, .inr ⟨trips, ?_, ?_⟩, fun other => ?_⟩
    · intro entry hfound
      cases hentry.symm.trans hfound
      rfl
    · unfold TripsRecorded
      rw [htrips]
      exact hrecorded halone.1
    · intro entry hfound
      cases hentry.symm.trans hfound
      exact hlimit
    · by_cases hsame : other = caller
      · subst hsame
        have hphase : (writeCooldown state other trips limit).phases other =
            .tripAnswer (tripHours trips) := Function.update_self ..
        rw [hphase]
        trivial
      · have hphase : (writeCooldown state caller trips limit).phases other =
            state.phases other := Function.update_of_ne hsame ..
        rw [hphase]
        exact (hok.trips other).later le_rfl hsince
  refine ⟨hafter, fun hrunning => ?_⟩
  have hcool := hholds.coolBy halone.2
  unfold inCooldown at hrunning
  unfold cooldownUntil
  rw [hok.until_eq] at hrunning ⊢
  rw [hafter.until_eq, hentry]
  cases hbefore : state.store.entry .cooldownUntil with
  | none =>
    rw [hbefore, decide_eq_true_eq] at hrunning
    exact absurd hrunning (not_lt.mpr (epoch_nonneg _))
  | some entry => exact hcool entry hbefore

theorem reserveRead_trip {call : Reserving} {point : ReservePoint}
    (hread : reserveRead settings state.store state.now gap call point = some phase) :
    TripOk state phase := by
  cases point with
  | stamp day =>
    simp only [reserveRead, Option.ite_none_right_eq_some, Option.some.injEq] at hread
    obtain ⟨_, rfl⟩ := hread
    trivial
  | execute counted => cases hread
  | cooldown | dayKey | nextAction | queue =>
    cases hread
    trivial
  | killSwitch | cooldownEnd | used | gapEnd =>
    cases hread
    split <;> trivial
  | record =>
    cases hread
    split
    · trivial
    · split <;> trivial

theorem reserveWrites_stops (store : GovernorStore) (now : ℕ) (request : ReserveRequest)
    (counted : Option Counted) {key : GovernorKey} (hkey : key.isStop = true) :
    (reserveWrites store now request counted).entry key = store.entry key := by
  have hrecord : key ≠ request.key := by
    rintro rfl
    simp [ReserveRequest.key, GovernorKey.isStop] at hkey
  cases counted with
  | none => exact Keyspace.put_entry_of_ne _ _ hrecord
  | some counted =>
    change (Keyspace.put _ _ _).entry key = _
    rw [Keyspace.put_entry_of_ne _ _ (by rintro rfl; simp [GovernorKey.isStop] at hkey)]
    change (Keyspace.put _ _ _).entry key = _
    rw [Keyspace.put_entry_of_ne _ _ (by rintro rfl; simp [GovernorKey.isStop] at hkey)]
    exact Keyspace.put_entry_of_ne _ _ hrecord

theorem same_execute (hok : CooldownOk state) (call : Reserving)
    (pending : Option Counted) :
    CooldownOk (execute state caller call pending) ∧
      CooldownKept state (execute state caller call pending) := by
  unfold execute
  split
  · refine hok.same ⟨le_rfl, reserveWrites_since _ _ _ _, ?_, ?_⟩ fun other => ?_
    · exact reserveWrites_stops _ _ _ _ rfl
    · exact reserveWrites_stops _ _ _ _ rfl
    · by_cases hsame : other = caller
      · subst hsame
        right
        simp [carryOut, TripOk]
      · left
        simp [carryOut, hsame]
  · exact same_enter hok trivial

theorem CooldownOk.proceed (hok : CooldownOk before) (halone : TripAlone before phase)
    (htrip : TripOk before phase)
    (hstep : Governor.proceed settings before caller gap phase = some after) :
    CooldownOk after ∧ CooldownKept before after := by
  cases phase with
  | opened request =>
    cases hstep
    exact same_enter hok trivial
  | retrying request day triesLeft =>
    cases triesLeft <;>
    · cases hstep
      exact same_enter hok trivial
  | reserving call point =>
    by_cases hexecute : ∃ pending, point = .execute pending
    · obtain ⟨pending, rfl⟩ := hexecute
      cases hstep
      exact same_execute hok call pending
    · have hread : (reserveRead settings before.store before.now gap call point).map
          (before.enter caller) = some after := by
        rw [← hstep]
        cases point <;> first | rfl | exact absurd ⟨_, rfl⟩ hexecute
      rw [Option.map_eq_some_iff] at hread
      obtain ⟨entered, hread, rfl⟩ := hread
      exact same_enter hok (reserveRead_trip hread)
  | tripCount =>
    cases hstep
    exact same_enter hok (hok.tripCount halone)
  | tripRecord trips seen =>
    cases hstep
    exact hok.tripRecord halone htrip
  | tripClock trips seen =>
    cases hstep
    exact same_enter hok ⟨htrip.1, le_rfl, htrip.2⟩
  | tripExtend trips limit seen =>
    cases hstep
    exact hok.tripExtend halone htrip
  | idle | reserveAnswer | tripAnswer => cases hstep

/-- One action of a run in which no trip overlaps another. -/
theorem CooldownOk.step (hok : CooldownOk before) {action : GovernorAction}
    (halone : tripsAlone before action)
    (hstep : performGovernor settings before action = some after) :
    CooldownOk after ∧ CooldownKept before after := by
  cases action with
  | tick elapsed =>
    cases hstep
    exact hok.same ⟨Nat.le_add_right _ _, .refl _, rfl, rfl⟩ fun _ => .inl rfl
  | kill =>
    cases hstep
    refine hok.same ⟨le_rfl, .put _ _ _, ?_, ?_⟩ fun _ => .inl rfl
    · exact Keyspace.put_entry_of_ne _ _ (by simp)
    · exact Keyspace.put_entry_of_ne _ _ (by simp)
  | resume =>
    cases hstep
    refine hok.same ⟨le_rfl, .delete _ _, ?_, ?_⟩ fun _ => .inl rfl
    · exact Keyspace.delete_entry_of_ne _ (by simp)
    · exact Keyspace.delete_entry_of_ne _ (by simp)
  | reserve caller request =>
    simp only [performGovernor] at hstep
    split at hstep
    · cases hstep
      refine same_enter hok ?_
      unfold reserveFinalAction
      split
      · trivial
      · split <;> trivial
    · cases hstep
  | tripCooldown caller =>
    simp only [performGovernor] at hstep
    split at hstep
    · cases hstep
      exact same_enter hok trivial
    · cases hstep
  | proceed caller gap => exact hok.proceed halone (hok.trips caller) hstep

/-- The facts about the cooldown hold in every such run. -/
theorem cooldownOk_invariant (settings : GovernorSettings) :
    (governorSystem settings).Invariant tripsAlone CooldownOk where
  init := by
    rintro state ⟨now, rfl⟩
    refine ⟨?_, .inl ?_, fun _ => trivial⟩
    · exact fun _ hentry => nomatch hentry
    · exact fun _ hentry => nomatch hentry
  step := fun _ _ _ hok halone hstep => (hok.step halone hstep).1

/-- In every run the reservations keep the cap, the gap and their records, and none is
committed against the kill switch or a running cooldown; in every run whose trips do not
overlap, no step moves the end of a running cooldown earlier. -/
theorem governor_holds (settings : GovernorSettings) :
    (∀ state, (governorSystem settings).Reachable anyStep state →
      Limits settings state ∧
        ∀ action after, performGovernor settings state action = some after →
          after.grants ≠ state.grants →
            isKilled state.store state.now = false ∧
              inCooldown state.store state.now = false) ∧
    (∀ state, (governorSystem settings).Reachable tripsAlone state →
      ∀ action after, tripsAlone state action →
        performGovernor settings state action = some after → CooldownKept state after) := by
  constructor
  · intro state hreach
    have hok := (governorOk_invariant settings anyStep).reachable hreach
    exact ⟨hok.limits, fun action after hstep => granted_cleared hok hstep⟩
  · intro state hreach action after halone hstep
    have hok := (cooldownOk_invariant settings).reachable hreach
    exact (hok.step halone hstep).2

instance (state : GovernorState) : (phase : Phase) → Decidable (TripAlone state phase)
  | .tripCount => inferInstanceAs (Decidable (_ → _))
  | .tripRecord _ _ | .tripExtend _ _ _ => inferInstanceAs (Decidable (_ ∧ _))
  | .idle | .opened _ | .retrying _ _ _ | .reserving _ _ | .reserveAnswer _ _
  | .tripClock _ _ | .tripAnswer _ => inferInstanceAs (Decidable True)

instance (state : GovernorState) : (action : GovernorAction) →
    Decidable (tripsAlone state action)
  | .proceed caller _ => inferInstanceAs (Decidable (TripAlone state (state.phases caller)))
  | .tick _ | .kill | .resume | .reserve _ _ | .tripCooldown _ =>
    inferInstanceAs (Decidable True)

def sampleSettings : GovernorSettings where
  linkedinDailyCap := 45
  linkedinMinGapS := 120
  linkedinMaxGapS := 360
  activeStart := 8
  activeEnd := 21
  localHour := fun now => now / hoursLong 1 % 24

/-- A LinkedIn reservation at ten o'clock, then one trip, whose last write is still to
come, from a second caller. -/
def sampleRun : List GovernorAction :=
  .reserve 0 ⟨"attempt-1", "linkedin"⟩ :: List.replicate 13 (.proceed 0 180) ++
    .tripCooldown 1 :: List.replicate 3 (.proceed 1 0)

def sampleEnd : GovernorState :=
  runEnd (performGovernor sampleSettings) (fun state action => decide (tripsAlone state action))
    (governorStart (hoursLong 10)) sampleRun

theorem sampleEnd_reachable :
    (governorSystem sampleSettings).Reachable tripsAlone sampleEnd := by
  apply runEnd_reachable
  · exact fun _ _ _ hstep => hstep
  · exact fun _ _ hcheck => of_decide_eq_true hcheck
  · exact ⟨hoursLong 10, rfl⟩

theorem governor_holds_sample :
    Limits sampleSettings sampleEnd ∧ (countedGrants sampleEnd).length = 1 ∧
      ∃ after, performGovernor sampleSettings sampleEnd (.proceed 1 0) = some after ∧
        CooldownKept sampleEnd after ∧ cooldownUntil after = 16 * 3600 := by
  have hall : (governorSystem sampleSettings).Reachable anyStep sampleEnd :=
    sampleEnd_reachable.mono fun _ _ _ => trivial
  have halone : tripsAlone sampleEnd (.proceed 1 0) := by decide
  refine ⟨((governor_holds sampleSettings).1 sampleEnd hall).1, by decide,
    (performGovernor sampleSettings sampleEnd (.proceed 1 0)).getD sampleEnd, ?_, ?_, ?_⟩
  · rfl
  · exact (governor_holds sampleSettings).2 sampleEnd sampleEnd_reachable _ _ halone rfl
  · decide

/-- A trip that has read the clock, and a second one that runs from its reading of the
count to its last write. -/
def racingRun : List GovernorAction :=
  .tripCooldown 0 :: List.replicate 3 (.proceed 0 0) ++
    .tripCooldown 1 :: List.replicate 4 (.proceed 1 0)

def racingEnd : GovernorState :=
  runEnd (performGovernor sampleSettings) (fun _ _ => true) (governorStart (hoursLong 10))
    racingRun

/-- The first trip then sets back the end that the second one has set. -/
theorem trips_race :
    ∃ state action after, (governorSystem sampleSettings).Reachable anyStep state ∧
      performGovernor sampleSettings state action = some after ∧
      inCooldown state.store state.now = true ∧ cooldownUntil state = 22 * 3600 ∧
      cooldownUntil after = 16 * 3600 := by
  refine ⟨racingEnd, .proceed 0 0,
    (performGovernor sampleSettings racingEnd (.proceed 0 0)).getD racingEnd,
    ?_, rfl, ?_, ?_, ?_⟩
  · apply runEnd_reachable
    · exact fun _ _ _ hstep => hstep
    · exact fun _ _ _ => trivial
    · exact ⟨hoursLong 10, rfl⟩
  · decide
  · decide
  · decide

end JobApplyAgent.Governor
