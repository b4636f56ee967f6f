import JobApplyAgent.Governor.System

/-!
# The limits of the governor

The daily cap, the gap between two LinkedIn reservations, the record of a reservation and
the stops hold in every run.  Between its watch and its transaction a call learns one fact
after the other.  Each is about the store as it was watched, on the condition that the watched
key is untouched, so it stays true whatever the other callers do; the counts of all days are
written together with the next action, so watching that key watches all of them.  A step either
leaves the history as it is, or carries out one transaction whose watched keys are as the call
read them.
-/

namespace JobApplyAgent.Governor

open Library

/-! ## What a call learns -/

theorem epoch_mono {later : ℕ} (hle : now ≤ later) : epoch now ≤ epoch later := by
  unfold epoch
  have hdiv : now / 1000000 ≤ later / 1000000 := Nat.div_le_div_right hle
  exact_mod_cast hdiv

theorem epoch_nonneg (now : ℕ) : 0 ≤ epoch now := by
  unfold epoch
  exact Int.natCast_nonneg _

theorem dayOf_mono {later : ℕ} (hle : now ≤ later) : dayOf now ≤ dayOf later :=
  Nat.div_le_div_right hle

/-- No end in the store is later than the limit. -/
def EndsBy (store : GovernorStore) (now : ℕ) (key : GovernorKey) (limit : ℤ) : Prop :=
  ∀ value, store.get now key = some value → value ≤ limit

theorem EndsBy.later {later : ℕ}
    (hends : EndsBy store now key limit) (hle : now ≤ later) :
    EndsBy store later key limit :=
  fun value hvalue => hends value (Keyspace.get_earlier hle hvalue)

theorem endsBy_readInt (store : GovernorStore) (now : ℕ) (key : GovernorKey) :
    EndsBy store now key (readInt store now key) := by
  intro value hvalue
  unfold readInt
  rw [hvalue, Option.getD_some]

theorem inCooldown_eq_false :
    inCooldown store now = false ↔ EndsBy store now .cooldownUntil (epoch now) := by
  unfold inCooldown readInt EndsBy
  rw [decide_eq_false_iff_not, not_lt]
  cases store.get now .cooldownUntil with
  | none => simp [epoch_nonneg]
  | some limit => simp

theorem isKilled_later {later : ℕ} (hle : now ≤ later) (hkilled : isKilled store now = false) :
    isKilled store later = false := by
  unfold isKilled at hkilled ⊢
  rw [beq_eq_false_iff_ne] at hkilled ⊢
  exact fun hlater => hkilled (Keyspace.get_earlier hle hlater)

/-- The store and the clock only move on, and a change of the LinkedIn history comes
with a write of the next action. -/
structure Later (before after : GovernorState) : Prop where
  now_le : before.now ≤ after.now
  since : Since before.store after.store
  counted : countedGrants after = countedGrants before ∨
    before.store.version .nextActionAt < after.store.version .nextActionAt

/-- The next action was not written since the watch. -/
abbrev Unspent (state : GovernorState) (call : Reserving) : Prop :=
  call.watch.Untouched state.store .nextActionAt

def BelowCap (settings : GovernorSettings) (state : GovernorState) (day : ℕ) : Prop :=
  ((countedOn state day).length : ℤ) < settings.linkedinDailyCap

/-- The facts that a call has gathered by the stages of its reading. -/
structure Learned (settings : GovernorSettings) (state : GovernorState) (call : Reserving)
    (stage : ℕ) : Prop where
  since : Since call.watch.taken state.store
  keys : call.watch.keys = watchedKeys call.request call.watchedDay
  notKilled : 1 ≤ stage → call.watch.Untouched state.store .kill →
    isKilled call.watch.taken state.now = false
  noCooldown : 2 ≤ stage → call.watch.Untouched state.store .cooldownUntil →
    inCooldown call.watch.taken state.now = false
  unrecorded : 3 ≤ stage → call.watch.Untouched state.store call.request.key →
    call.watch.taken.get state.now call.request.key = none
  budgetLeft : 4 ≤ stage → Unspent state call →
    ∃ first ≤ dayOf state.now, ∀ day ≥ first, BelowCap settings state day
  gapOver : 5 ≤ stage → Unspent state call →
    EndsBy call.watch.taken state.now .nextActionAt (epoch state.now)

/-- What is as it was in the watched store, if the next action is unspent: the history
itself. -/
theorem Later.history (hlater : Later before after) (htaken : Since call.watch.taken before.store)
    (hunspent : Unspent after call) :
    countedGrants after = countedGrants before := by
  rcases hlater.counted with hsame | hspent
  · exact hsame
  · have hbefore := htaken.version_le .nextActionAt
    unfold Unspent Watch.Untouched at hunspent
    omega

theorem belowCap_congr (hsame : countedGrants after = countedGrants before) (day : ℕ) :
    BelowCap settings after day ↔ BelowCap settings before day := by
  unfold BelowCap countedOn
  rw [hsame]

/-- What a call has learned stays true whatever the others do. -/
theorem Learned.later (hlearned : Learned settings before call stage)
    (hlater : Later before after) :
    Learned settings after call stage := by
  have htaken := hlearned.since
  have huntouched : ∀ {key}, call.watch.Untouched after.store key →
      call.watch.Untouched before.store key :=
    fun hafter => hafter.earlier htaken hlater.since
  constructor
  · exact htaken.trans hlater.since
  · exact hlearned.keys
  · intro hstage hafter
    exact isKilled_later hlater.now_le (hlearned.notKilled hstage (huntouched hafter))
  · intro hstage hafter
    have hends := inCooldown_eq_false.mp (hlearned.noCooldown hstage (huntouched hafter))
    exact inCooldown_eq_false.mpr fun value hvalue =>
      (hends.later hlater.now_le value hvalue).trans (epoch_mono hlater.now_le)
  · intro hstage hafter
    exact Keyspace.get_none_later hlater.now_le
      (hlearned.unrecorded hstage (huntouched hafter))
  · intro hstage hafter
    obtain ⟨first, hfirst, hbelow⟩ := hlearned.budgetLeft hstage (huntouched hafter)
    refine ⟨first, hfirst.trans (dayOf_mono hlater.now_le), fun day hday => ?_⟩
    exact (belowCap_congr (hlater.history htaken hafter) day).mpr (hbelow day hday)
  · intro hstage hafter value hvalue
    have hends := hlearned.gapOver hstage (huntouched hafter)
    exact (hends.later hlater.now_le value hvalue).trans (epoch_mono hlater.now_le)

def PointFacts (settings : GovernorSettings) (state : GovernorState) (call : Reserving) :
    ReservePoint → Prop
  | .cooldownEnd limit => call.watch.Untouched state.store .cooldownUntil →
      EndsBy call.watch.taken state.now .cooldownUntil limit
  | .used day => day ≤ dayOf state.now ∧
      (Unspent state call → ∀ later > day, countedOn state later = [])
  | .gapEnd limit => Unspent state call →
      EndsBy call.watch.taken state.now .nextActionAt limit
  | .stamp day => day ≤ dayOf state.now ∧ (Unspent state call → BelowCap settings state day)
  | .execute (some counted) => counted.day ≤ dayOf state.now ∧
      counted.stamp ≤ epoch state.now ∧ settings.linkedinMinGapS ≤ counted.gap ∧
      (Unspent state call → BelowCap settings state counted.day ∧
        EndsBy call.watch.taken state.now .nextActionAt counted.stamp ∧
        ∀ earlier ∈ countedGrants state, earlier.stamp ≤ counted.stamp)
  | _ => True

theorem PointFacts.later (hfacts : PointFacts settings before call point)
    (htaken : Since call.watch.taken before.store) (hlater : Later before after) :
    PointFacts settings after call point := by
  have hunspent : Unspent after call → Unspent before call :=
    fun hafter => hafter.earlier htaken hlater.since
  have hdays := dayOf_mono hlater.now_le
  cases point with
  | cooldownEnd limit =>
    intro hafter
    exact (hfacts (hafter.earlier htaken hlater.since)).later hlater.now_le
  | used day =>
    refine ⟨hfacts.1.trans hdays, fun hafter later hday => ?_⟩
    unfold countedOn
    rw [hlater.history htaken hafter]
    exact hfacts.2 (hunspent hafter) later hday
  | gapEnd limit =>
    intro hafter
    exact (hfacts (hunspent hafter)).later hlater.now_le
  | stamp day =>
    refine ⟨hfacts.1.trans hdays, fun hafter => ?_⟩
    exact (belowCap_congr (hlater.history htaken hafter) day).mpr
      (hfacts.2 (hunspent hafter))
  | execute counted =>
    cases counted with
    | none => trivial
    | some counted =>
      obtain ⟨hday, hstamp, hgap, hhistory⟩ := hfacts
      refine ⟨hday.trans hdays, hstamp.trans (epoch_mono hlater.now_le), hgap, ?_⟩
      intro hafter
      obtain ⟨hbelow, hends, hearlier⟩ := hhistory (hunspent hafter)
      have hsame := hlater.history htaken hafter
      refine ⟨(belowCap_congr hsame _).mpr hbelow, hends.later hlater.now_le, ?_⟩
      rwa [hsame]
  | _ => trivial

/-- Only a LinkedIn reservation comes to these points. -/
def LinkedinOnly (call : Reserving) : ReservePoint → Prop
  | .killSwitch | .cooldown | .cooldownEnd _ | .record | .execute none => True
  | _ => call.request.linkedin = true

/-- How much a call has learned at each of its points. -/
def ReservePoint.stage : ReservePoint → ℕ
  | .killSwitch => 0
  | .cooldown | .cooldownEnd _ => 1
  | .record => 2
  | .dayKey | .used _ | .execute none => 3
  | .nextAction | .gapEnd _ => 4
  | .queue | .stamp _ | .execute (some _) => 5

structure PointOk (settings : GovernorSettings) (state : GovernorState) (call : Reserving)
    (point : ReservePoint) : Prop where
  learned : Learned settings state call point.stage
  facts : PointFacts settings state call point
  linkedin : LinkedinOnly call point

def PhaseOk (settings : GovernorSettings) (state : GovernorState) : Phase → Prop
  | .reserving call point => PointOk settings state call point
  | _ => True

theorem PhaseOk.later (hphase : PhaseOk settings before phase)
    (hlater : Later before after) : PhaseOk settings after phase := by
  cases phase with
  | reserving call point =>
    exact ⟨hphase.learned.later hlater, hphase.facts.later hphase.learned.since hlater,
      hphase.linkedin⟩
  | _ => trivial

/-! ## Limits -/

variable {state : GovernorState}

/-- What the shared governor promises of the reservations that it has granted.  The
history has the latest first. -/
structure Limits (settings : GovernorSettings) (state : GovernorState) : Prop where
  daily : ∀ day, ((countedOn state day).length : ℤ) ≤ max 0 settings.linkedinDailyCap
  gap : (countedGrants state).Pairwise fun later earlier =>
    earlier.stamp + settings.linkedinMinGapS ≤ later.stamp
  record : state.grants.Pairwise fun later earlier =>
    later.reservationId = earlier.reservationId →
      earlier.committedAt + hoursLong 24 ≤ later.committedAt
  budget : ∀ day, readInt state.store state.now (.applications day) =
    ((countedOn state day).length : ℤ)

/-- How the store remembers the history. -/
structure HistoryOk (settings : GovernorSettings) (state : GovernorState) : Prop where
  counts : ∀ day now, readInt state.store now (.applications day) =
    ((countedOn state day).length : ℤ)
  days : ∀ counted ∈ countedGrants state, counted.day ≤ dayOf state.now
  stamps : ∀ counted ∈ countedGrants state, counted.stamp ≤ epoch state.now
  spaced : ∀ counted ∈ countedGrants state, ∃ limit,
    (∀ now, state.store.get now .nextActionAt = some limit) ∧
      counted.stamp + settings.linkedinMinGapS ≤ limit
  records : ∀ granted ∈ state.grants, ∃ entry expiry,
    state.store.entry (.reservation granted.reservationId) = some entry ∧
      entry.expiresAt = some expiry ∧ granted.committedAt + hoursLong 24 ≤ expiry
  lasting : ∀ day entry, state.store.entry (.applications day) = some entry →
    entry.expiresAt = none

structure GovernorOk (settings : GovernorSettings) (state : GovernorState) : Prop where
  limits : Limits settings state
  history : HistoryOk settings state
  phases : ∀ caller, PhaseOk settings state (state.phases caller)

def GovernorKey.isStop : GovernorKey → Bool
  | .kill | .cooldownUntil | .trips => true
  | _ => false

/-- A step that grants nothing: it writes no key that remembers the history. -/
structure Quiet (before after : GovernorState) : Prop where
  now_le : before.now ≤ after.now
  since : Since before.store after.store
  grants : after.grants = before.grants
  entry : ∀ key : GovernorKey, key.isStop = false →
    after.store.entry key = before.store.entry key

theorem Quiet.later (hquiet : Quiet before after) : Later before after where
  now_le := hquiet.now_le
  since := hquiet.since
  counted := by
    left
    unfold countedGrants
    rw [hquiet.grants]

theorem Quiet.enter (state : GovernorState) (caller : ℕ) (phase : Phase) :
    Quiet state (state.enter caller phase) where
  now_le := le_rfl
  since := .refl state.store
  grants := rfl
  entry := fun _ _ => rfl

variable {key : GovernorKey}

theorem Quiet.put (state : GovernorState) (hkey : key.isStop = true) (entry : Option (KeyEntry ℤ))
    (phases : ℕ → Phase) :
    Quiet state { state with store := state.store.put key entry, phases := phases } where
  now_le := le_rfl
  since := .put state.store key entry
  grants := rfl
  entry := by
    intro other hother
    apply Keyspace.put_entry_of_ne
    rintro rfl
    simp [hkey] at hother

theorem Quiet.get (hquiet : Quiet before after) (hkey : key.isStop = false) (now : ℕ) :
    after.store.get now key = before.store.get now key := by
  unfold Keyspace.get
  rw [hquiet.entry key hkey]

theorem Quiet.countedGrants (hquiet : Quiet before after) :
    countedGrants after = countedGrants before := by
  unfold Governor.countedGrants
  rw [hquiet.grants]

theorem Quiet.countedOn (hquiet : Quiet before after) (day : ℕ) :
    countedOn after day = countedOn before day := by
  unfold Governor.countedOn
  rw [hquiet.countedGrants]

/-- A step that grants nothing keeps what the store remembers. -/
theorem HistoryOk.quiet (hhistory : HistoryOk settings before)
    (hquiet : Quiet before after) : HistoryOk settings after := by
  constructor
  · intro day now
    unfold readInt
    rw [hquiet.get rfl, hquiet.countedOn]
    exact hhistory.counts day now
  · intro counted hcounted
    rw [hquiet.countedGrants] at hcounted
    exact (hhistory.days counted hcounted).trans (dayOf_mono hquiet.now_le)
  · intro counted hcounted
    rw [hquiet.countedGrants] at hcounted
    exact (hhistory.stamps counted hcounted).trans (epoch_mono hquiet.now_le)
  · intro counted hcounted
    rw [hquiet.countedGrants] at hcounted
    obtain ⟨limit, hlimit, hspaced⟩ := hhistory.spaced counted hcounted
    exact ⟨limit, fun now => (hquiet.get rfl now).trans (hlimit now), hspaced⟩
  · intro granted hgranted
    rw [hquiet.grants] at hgranted
    obtain ⟨entry, expiry, hentry, hexpiry⟩ := hhistory.records granted hgranted
    exact ⟨entry, expiry, (hquiet.entry _ rfl).trans hentry, hexpiry⟩
  · intro day entry hentry
    rw [hquiet.entry _ rfl] at hentry
    exact hhistory.lasting day entry hentry

theorem Limits.quiet (hlimits : Limits settings before)
    (hhistory : HistoryOk settings before) (hquiet : Quiet before after) :
    Limits settings after := by
  constructor
  · intro day
    rw [hquiet.countedOn]
    exact hlimits.daily day
  · rw [hquiet.countedGrants]
    exact hlimits.gap
  · rw [hquiet.grants]
    exact hlimits.record
  · exact fun day => (hhistory.quiet hquiet).counts day after.now

section Reading

variable {call : Reserving}

/-- The facts that hold already at a watch. -/
theorem pointOk_watched (request : ReserveRequest) (day triesLeft : ℕ) :
    PointOk settings state ⟨request, day, triesLeft, watchFor state request day⟩
      .killSwitch := by
  constructor
  · constructor
    · exact .refl state.store
    · rfl
    all_goals
      intro hstage
      simp [ReservePoint.stage] at hstage
  · trivial
  · trivial

theorem Learned.killSwitch (hlearned : Learned settings state call 0)
    (hkilled : isKilled state.store state.now = false) : Learned settings state call 1 := by
  constructor
  · exact hlearned.since
  · exact hlearned.keys
  · intro _ huntouched
    unfold isKilled at hkilled ⊢
    rwa [← hlearned.since.get_eq huntouched]
  all_goals
    intro hstage
    omega

theorem Learned.cooldownEnd (hlearned : Learned settings state call 1)
    (hfacts : PointFacts settings state call (.cooldownEnd limit))
    (hlimit : limit ≤ epoch state.now) : Learned settings state call 2 := by
  constructor
  · exact hlearned.since
  · exact hlearned.keys
  · exact fun _ => hlearned.notKilled le_rfl
  · intro _ huntouched
    exact inCooldown_eq_false.mpr fun value hvalue =>
      (hfacts huntouched value hvalue).trans hlimit
  all_goals
    intro hstage
    omega

theorem Learned.record (hlearned : Learned settings state call 2)
    (hrecord : state.store.get state.now call.request.key = none) :
    Learned settings state call 3 := by
  constructor
  · exact hlearned.since
  · exact hlearned.keys
  · exact fun _ => hlearned.notKilled (by omega)
  · exact fun _ => hlearned.noCooldown le_rfl
  · intro _ huntouched
    rwa [← hlearned.since.get_eq huntouched]
  all_goals
    intro hstage
    omega

/-- A count below the cap leaves room on its day and the later ones. -/
theorem Learned.used (hlearned : Learned settings state call 3)
    (hfacts : PointFacts settings state call (.used day)) (hhistory : HistoryOk settings state)
    (hused : readInt state.store state.now (.applications day) < settings.linkedinDailyCap) :
    Learned settings state call 4 := by
  constructor
  · exact hlearned.since
  · exact hlearned.keys
  · exact fun _ => hlearned.notKilled (by omega)
  · exact fun _ => hlearned.noCooldown (by omega)
  · exact fun _ => hlearned.unrecorded le_rfl
  · intro _ hunspent
    rw [hhistory.counts] at hused
    refine ⟨day, hfacts.1, fun later hlater => ?_⟩
    unfold BelowCap
    rcases Nat.eq_or_lt_of_le hlater with rfl | hday
    · exact hused
    · rw [hfacts.2 hunspent later hday]
      exact lt_of_le_of_lt (Int.natCast_nonneg _) hused
  · intro hstage
    omega

theorem Learned.gapEnd (hlearned : Learned settings state call 4)
    (hfacts : PointFacts settings state call (.gapEnd limit)) (hlimit : limit ≤ epoch state.now) :
    Learned settings state call 5 := by
  constructor
  · exact hlearned.since
  · exact hlearned.keys
  · exact fun _ => hlearned.notKilled (by omega)
  · exact fun _ => hlearned.noCooldown (by omega)
  · exact fun _ => hlearned.unrecorded (by omega)
  · exact fun _ => hlearned.budgetLeft le_rfl
  · exact fun _ hunspent value hvalue => (hfacts hunspent value hvalue).trans hlimit

theorem endsBy_read (hsince : Since call.watch.taken state.store) {key : GovernorKey}
    (huntouched : call.watch.Untouched state.store key) :
    EndsBy call.watch.taken state.now key (readInt state.store state.now key) := by
  intro value hvalue
  rw [← hsince.get_eq huntouched] at hvalue
  exact endsBy_readInt state.store state.now key value hvalue

theorem HistoryOk.countedOn_later (hhistory : HistoryOk settings state)
    (hday : dayOf state.now < day) : countedOn state day = [] := by
  unfold countedOn
  rw [List.filter_eq_nil_iff]
  intro counted hcounted hsame
  have hle := hhistory.days counted hcounted
  rw [beq_iff_eq] at hsame
  omega

/-- Every reading takes a call to a point whose facts it has learned. -/
theorem reserveRead_ok (hpoint : PointOk settings state call point)
    (hhistory : HistoryOk settings state)
    (hread : reserveRead settings state.store state.now gap call point = some phase) :
    PhaseOk settings state phase := by
  have hlearned := hpoint.learned
  have hfacts := hpoint.facts
  cases point with
  | killSwitch =>
    cases hread
    split
    · trivial
    · next hkilled =>
      exact ⟨hlearned.killSwitch (by simpa using hkilled), trivial, trivial⟩
  | cooldown =>
    cases hread
    exact ⟨hlearned, fun huntouched => endsBy_read hlearned.since huntouched, trivial⟩
  | cooldownEnd limit =>
    cases hread
    split
    · trivial
    · next hlimit =>
      exact ⟨hlearned.cooldownEnd hfacts (not_lt.mp hlimit), trivial, trivial⟩
  | record =>
    cases hread
    split
    · trivial
    · next hrecord =>
      have hthird := hlearned.record (by simpa using hrecord)
      split
      · next hlinkedin => exact ⟨hthird, trivial, hlinkedin⟩
      · exact ⟨hthird, trivial, trivial⟩
  | dayKey =>
    cases hread
    exact ⟨hlearned, ⟨le_rfl, fun _ later hlater => hhistory.countedOn_later hlater⟩,
      hpoint.linkedin⟩
  | used day =>
    cases hread
    split
    · trivial
    · next hused =>
      exact ⟨hlearned.used hfacts hhistory (not_le.mp hused), trivial, hpoint.linkedin⟩
  | nextAction =>
    cases hread
    exact ⟨hlearned, fun hunspent => endsBy_read hlearned.since hunspent, hpoint.linkedin⟩
  | gapEnd limit =>
    cases hread
    split
    · trivial
    · next hlimit =>
      exact ⟨hlearned.gapEnd hfacts (not_lt.mp hlimit), trivial, hpoint.linkedin⟩
  | queue =>
    cases hread
    refine ⟨hlearned, ⟨le_rfl, fun hunspent => ?_⟩, hpoint.linkedin⟩
    obtain ⟨first, hfirst, hbelow⟩ :=
      hlearned.budgetLeft (by simp [ReservePoint.stage]) hunspent
    exact hbelow _ hfirst
  | stamp day =>
    simp only [reserveRead, Option.ite_none_right_eq_some, Option.some.injEq] at hread
    obtain ⟨hgap, rfl⟩ := hread
    refine ⟨hlearned, ⟨hfacts.1, le_rfl, hgap.1, fun hunspent => ?_⟩, hpoint.linkedin⟩
    exact ⟨hfacts.2 hunspent, hlearned.gapOver le_rfl hunspent, hhistory.stamps⟩
  | execute counted => cases hread

end Reading

section Committing

variable {request : ReserveRequest}

def recordedStore (state : GovernorState) (request : ReserveRequest) : GovernorStore :=
  state.store.set request.key 1 (some (state.now + hoursLong 24))

variable {key : GovernorKey}

theorem recordedStore_entry (hkey : key ≠ request.key) :
    (recordedStore state request).entry key = state.store.entry key :=
  Keyspace.put_entry_of_ne _ _ hkey

theorem recordedStore_get (hkey : key ≠ request.key) (now : ℕ) :
    (recordedStore state request).get now key = state.store.get now key :=
  Keyspace.get_put_of_ne _ _ _ hkey

/-- The counted writes come on top of the record. -/
theorem reserveWrites_entry (hday : key ≠ .applications counted.day) (hnext : key ≠ .nextActionAt) :
    (reserveWrites state.store state.now request (some counted)).entry key =
      (recordedStore state request).entry key := by
  change (Keyspace.put _ _ _).entry key = _
  rw [Keyspace.put_entry_of_ne _ _ hnext]
  exact Keyspace.put_entry_of_ne _ _ hday

theorem reserveWrites_nextAction :
    (reserveWrites state.store state.now request (some counted)).entry .nextActionAt =
      some ⟨counted.stamp + counted.gap, none⟩ :=
  Keyspace.put_entry_self _ _ _

/-- The transaction writes the number of the reservations of the day, the new one with them. -/
theorem reserveWrites_count (hhistory : HistoryOk settings state) :
    (reserveWrites state.store state.now request (some counted)).entry
        (.applications counted.day) =
      some ⟨((countedOn state counted.day).length : ℤ) + 1, none⟩ := by
  change (Keyspace.put _ _ _).entry _ = _
  rw [Keyspace.put_entry_of_ne _ _ (by simp)]
  have hkey : GovernorKey.applications counted.day ≠ request.key := by
    simp [ReserveRequest.key]
  have hlasting : ∀ entry, (recordedStore state request).entry (.applications counted.day) =
      some entry → entry.expiresAt = none := by
    intro entry hentry
    rw [recordedStore_entry hkey] at hentry
    exact hhistory.lasting counted.day entry hentry
  have hcount := Keyspace.increment_entry state.now hlasting
  rw [recordedStore_get hkey] at hcount
  rw [← hhistory.counts counted.day state.now]
  exact hcount

theorem reserveWrites_since (store : GovernorStore) (now : ℕ) (request : ReserveRequest)
    (counted : Option Counted) : Since store (reserveWrites store now request counted) := by
  cases counted with
  | none => exact .put store _ _
  | some counted => exact ((Since.put store _ _).trans (.put _ _ _)).trans (.put _ _ _)

theorem reserveWrites_spent (store : GovernorStore) (now : ℕ) (request : ReserveRequest)
    (counted : Counted) : store.version .nextActionAt <
      (reserveWrites store now request (some counted)).version .nextActionAt := by
  change _ < (Keyspace.put _ _ _).version _
  rw [Keyspace.put_version_self]
  apply Nat.lt_succ_of_le
  exact ((Since.put store _ _).trans (.put _ _ _)).version_le _

/-- A reservation without a record was made a day ago or earlier. -/
theorem HistoryOk.recordsOut (hhistory : HistoryOk settings state)
    (hrecord : state.store.get state.now request.key = none)
    (hgranted : granted ∈ state.grants)
    (hsame : granted.reservationId = request.reservationId) :
    granted.committedAt + hoursLong 24 ≤ state.now := by
  obtain ⟨entry, expiry, hentry, hexpiry, hle⟩ := hhistory.records granted hgranted
  rw [hsame] at hentry
  exact hle.trans (Keyspace.expired_of_get_eq_none hrecord hentry hexpiry)

/-- Every granted reservation has a record for its day. -/
theorem HistoryOk.carried_records (hhistory : HistoryOk settings state)
    (hrecord : state.store.get state.now request.key = none)
    (pending : Option Counted) :
    ∀ granted ∈ grant state request pending, ∃ entry expiry,
      (recordedStore state request).entry (.reservation granted.reservationId) = some entry ∧
        entry.expiresAt = some expiry ∧ granted.committedAt + hoursLong 24 ≤ expiry := by
  intro granted hgranted
  have hnew : (recordedStore state request).entry (.reservation request.reservationId) =
      some ⟨1, some (state.now + hoursLong 24)⟩ := Keyspace.put_entry_self _ _ _
  rcases List.mem_cons.mp hgranted with rfl | hold
  · exact ⟨_, _, hnew, rfl, le_rfl⟩
  by_cases hsame : granted.reservationId = request.reservationId
  · have hout := hhistory.recordsOut hrecord hold hsame
    rw [hsame]
    exact ⟨_, _, hnew, rfl, by omega⟩
  · obtain ⟨entry, expiry, hentry, hrest⟩ := hhistory.records granted hold
    refine ⟨entry, expiry, ?_, hrest⟩
    rwa [recordedStore_entry (by simpa [ReserveRequest.key] using hsame)]

end Committing

end JobApplyAgent.Governor
