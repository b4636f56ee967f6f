import JobApplyAgent.Library.Optimistic
import JobApplyAgent.Library.Transition

/-!
# Runs of the rate governor

Any number of callers share one store and one clock.  A step lets time pass, writes or
deletes the kill switch, opens a call or takes an open call to its next point.
-/

namespace JobApplyAgent.Governor

open Library

inductive GovernorKey
  | kill
  | cooldownUntil
  | nextActionAt
  | trips
  | applications (day : ℕ)
  | reservation (id : String)
  deriving DecidableEq

abbrev GovernorStore := Keyspace GovernorKey ℤ

/-- The hour of an instant in the operator's timezone comes from the zone database. -/
structure GovernorSettings where
  linkedinDailyCap : ℤ
  linkedinMinGapS : ℤ
  linkedinMaxGapS : ℤ
  activeStart : ℕ
  activeEnd : ℕ
  localHour : ℕ → ℕ

/-- Instants are microseconds since the epoch. -/
def epoch (now : ℕ) : ℤ :=
  (now / 1000000 : ℕ)

/-- The day that `_day_key` names: the date of the instant in UTC. -/
def dayOf (now : ℕ) : ℕ :=
  now / 86400000000

def hoursLong (hours : ℕ) : ℕ :=
  hours * 3600 * 1000000

def withinActiveHours (settings : GovernorSettings) (now : ℕ) : Bool :=
  settings.activeStart ≤ settings.localHour now && settings.localHour now < settings.activeEnd

def isKilled (store : GovernorStore) (now : ℕ) : Bool :=
  store.get now .kill == some 1

/-- `int(store.get(key) or 0)`. -/
def readInt (store : GovernorStore) (now : ℕ) (key : GovernorKey) : ℤ :=
  (store.get now key).getD 0

def inCooldown (store : GovernorStore) (now : ℕ) : Bool :=
  epoch now < readInt store now .cooldownUntil

structure ReserveRequest where
  reservationId : String
  platform : String

def ReserveRequest.linkedin (request : ReserveRequest) : Bool :=
  request.platform == "linkedin"

def ReserveRequest.key (request : ReserveRequest) : GovernorKey :=
  .reservation request.reservationId

def watchedKeys (request : ReserveRequest) (day : ℕ) : List GovernorKey :=
  [request.key, .kill, .cooldownUntil] ++
    if request.linkedin then [.applications day, .nextActionAt] else []

/-- A call between `watch` and `execute`: the day that it named first, the tries that
are left after this one, and what it watches. -/
structure Reserving where
  request : ReserveRequest
  watchedDay : ℕ
  triesLeft : ℕ
  watch : Watch GovernorKey ℤ

/-- What the transaction of a LinkedIn reservation queues: the day whose count it
raises, the second it takes as its own, and the gap drawn after it. -/
structure Counted where
  day : ℕ
  stamp : ℤ
  gap : ℤ

/-- What `_reserve_shared` does next.  A value that was read stands in the point that
compares it, since the clock is read after it. -/
inductive ReservePoint
  | killSwitch
  | cooldown
  | cooldownEnd (limit : ℤ)
  | record
  | dayKey
  | used (day : ℕ)
  | nextAction
  | gapEnd (limit : ℤ)
  | queue
  | stamp (day : ℕ)
  | execute (counted : Option Counted)

/-- The versions of the two keys of a cooldown as a call last saw or left them.  The
code keeps no such note: it says which writes of other calls came since. -/
structure TripSeen where
  trips : ℕ
  cooldownUntil : ℕ

inductive Phase
  | idle
  | opened (request : ReserveRequest)
  | retrying (request : ReserveRequest) (watchedDay triesLeft : ℕ)
  | reserving (call : Reserving) (point : ReservePoint)
  | reserveAnswer (allowed : Bool) (reason : String)
  | tripCount
  | tripRecord (trips : ℤ) (seen : TripSeen)
  | tripClock (trips : ℤ) (seen : TripSeen)
  | tripExtend (trips limit : ℤ) (seen : TripSeen)
  | tripAnswer (hours : ℕ)

/-- `reserve_final_action` up to the point where it names the keys that it watches. -/
def reserveFinalAction (settings : GovernorSettings) (now : ℕ) (request : ReserveRequest) :
    Phase :=
  if request.reservationId = "" ∨ 128 < request.reservationId.length then
    .reserveAnswer false "invalid reservation"
  else if withinActiveHours settings now then
    .opened request
  else
    .reserveAnswer false "outside active hours"

/-- One reading of `_reserve_shared`, up to the transaction. -/
def reserveRead (settings : GovernorSettings) (store : GovernorStore) (now : ℕ) (gap : ℤ)
    (call : Reserving) : ReservePoint → Option Phase
  | .killSwitch =>
    some (if isKilled store now then .reserveAnswer false "kill switch active"
      else .reserving call .cooldown)
  | .cooldown => some (.reserving call (.cooldownEnd (readInt store now .cooldownUntil)))
  | .cooldownEnd limit =>
    some (if epoch now < limit then .reserveAnswer false "in challenge cooldown"
      else .reserving call .record)
  | .record =>
    some (if (store.get now call.request.key).isSome then
        .reserveAnswer true "already reserved"
      else if call.request.linkedin then .reserving call .dayKey
      else .reserving call (.execute none))
  | .dayKey => some (.reserving call (.used (dayOf now)))
  | .used day =>
    some (if settings.linkedinDailyCap ≤ readInt store now (.applications day) then
        .reserveAnswer false "daily cap reached"
      else .reserving call .nextAction)
  | .nextAction => some (.reserving call (.gapEnd (readInt store now .nextActionAt)))
  | .gapEnd limit =>
    some (if epoch now < limit then .reserveAnswer false "min gap not elapsed"
      else .reserving call .queue)
  | .queue => some (.reserving call (.stamp (dayOf now)))
  | .stamp day =>
    if settings.linkedinMinGapS ≤ gap ∧ gap ≤ settings.linkedinMaxGapS then
      some (.reserving call (.execute (some ⟨day, epoch now, gap⟩)))
    else none
  | .execute _ => none

/-- The queued commands: the record of the reservation for a day and, for LinkedIn, the
count and the next action. -/
def reserveWrites (store : GovernorStore) (now : ℕ) (request : ReserveRequest)
    (counted : Option Counted) : GovernorStore :=
  let recorded := store.set request.key 1 (some (now + hoursLong 24))
  match counted with
  | none => recorded
  | some counted =>
    (recorded.increment now (.applications counted.day)).set .nextActionAt
      (counted.stamp + counted.gap) none

/-- The hours that a trip applies after so many earlier ones. -/
def tripHours (trips : ℤ) : ℕ :=
  min 48 (6 * 2 ^ trips.toNat)

/-! ## Runs -/

/-- One committed reservation, as the store carried it out. -/
structure Granted where
  reservationId : String
  committedAt : ℕ
  counted : Option Counted

/-- The store, the clock and the callers.  The grants are the history of committed
reservations, the latest first; no call reads them. -/
structure GovernorState where
  now : ℕ
  store : GovernorStore
  phases : ℕ → Phase
  grants : List Granted

inductive GovernorAction
  | tick (elapsed : ℕ)
  | kill
  | resume
  | reserve (caller : ℕ) (request : ReserveRequest)
  | tripCooldown (caller : ℕ)
  | proceed (caller : ℕ) (gap : ℤ)

def GovernorState.enter (state : GovernorState) (caller : ℕ) (phase : Phase) :
    GovernorState :=
  { state with phases := Function.update state.phases caller phase }

/-- The history with the reservation that is carried out now. -/
def grant (state : GovernorState) (request : ReserveRequest) (counted : Option Counted) :
    List Granted :=
  ⟨request.reservationId, state.now, counted⟩ :: state.grants

/-- The queued commands are carried out together. -/
def carryOut (state : GovernorState) (caller : ℕ) (request : ReserveRequest)
    (counted : Option Counted) : GovernorState where
  now := state.now
  store := reserveWrites state.store state.now request counted
  phases := Function.update state.phases caller (.reserveAnswer true "reserved")
  grants := grant state request counted

/-- `execute`: the transaction is carried out, or `WatchError` leads to the next try. -/
def execute (state : GovernorState) (caller : ℕ) (call : Reserving)
    (counted : Option Counted) : GovernorState :=
  if call.watch.intact state.store state.now then
    carryOut state caller call.request counted
  else
    state.enter caller (.retrying call.request call.watchedDay call.triesLeft)

/-- The watch of the next try. -/
def watchFor (state : GovernorState) (request : ReserveRequest) (day : ℕ) :
    Watch GovernorKey ℤ where
  keys := watchedKeys request day
  taken := state.store
  takenAt := state.now

/-- The first write of a trip: the count for the next seven days. -/
def writeTrips (state : GovernorState) (caller : ℕ) (trips : ℤ) (seen : TripSeen) :
    GovernorState :=
  GovernorState.enter
    { state with
      store := state.store.set .trips (trips + 1) (some (state.now + hoursLong (7 * 24))) }
    caller (.tripClock trips { seen with trips := state.store.version .trips + 1 })

def writeCooldown (state : GovernorState) (caller : ℕ) (trips limit : ℤ) :
    GovernorState :=
  GovernorState.enter
    { state with store := state.store.set .cooldownUntil limit none }
    caller (.tripAnswer (tripHours trips))

/-- What a call does from its phase. -/
def proceed (settings : GovernorSettings) (state : GovernorState) (caller : ℕ) (gap : ℤ) :
    Phase → Option GovernorState
  | .opened request =>
    some (state.enter caller (.retrying request (dayOf state.now) 5))
  | .retrying _ _ 0 =>
    some (state.enter caller (.reserveAnswer false "governor contention"))
  | .retrying request day (triesLeft + 1) =>
    some (state.enter caller
      (.reserving ⟨request, day, triesLeft, watchFor state request day⟩ .killSwitch))
  | .reserving call (.execute counted) => some (execute state caller call counted)
  | .reserving call point =>
    (reserveRead settings state.store state.now gap call point).map (state.enter caller)
  | .tripCount =>
    some (state.enter caller (.tripRecord (readInt state.store state.now .trips)
      ⟨state.store.version .trips, state.store.version .cooldownUntil⟩))
  | .tripRecord trips seen => some (writeTrips state caller trips seen)
  | .tripClock trips seen =>
    some (state.enter caller
      (.tripExtend trips (epoch state.now + tripHours trips * 3600) seen))
  | .tripExtend trips limit _ => some (writeCooldown state caller trips limit)
  | .idle | .reserveAnswer _ _ | .tripAnswer _ => none

def performGovernor (settings : GovernorSettings) (state : GovernorState) :
    GovernorAction → Option GovernorState
  | .tick elapsed => some { state with now := state.now + elapsed }
  | .kill => some { state with store := state.store.set .kill 1 none }
  | .resume => some { state with store := state.store.delete .kill }
  | .reserve caller request =>
    match state.phases caller with
    | .idle => some (state.enter caller (reserveFinalAction settings state.now request))
    | _ => none
  | .tripCooldown caller =>
    match state.phases caller with
    | .idle => some (state.enter caller .tripCount)
    | _ => none
  | .proceed caller gap => proceed settings state caller gap (state.phases caller)

/-- An empty store and no call under way, at any instant. -/
def governorStart (now : ℕ) : GovernorState where
  now := now
  store := .empty
  phases := fun _ => .idle
  grants := []

def governorSystem (settings : GovernorSettings) :
    TransitionSystem GovernorState GovernorAction where
  initial := fun state => ∃ now, state = governorStart now
  step := fun before action after => performGovernor settings before action = some after

/-- Every run of the system. -/
def anyStep (_ : GovernorState) (_ : GovernorAction) : Prop :=
  True

/-- The condition of a trip at each of its store commands.  It reads the count of a
running cooldown before that count has expired, and no other trip has written the count
or the cooldown between its reading and its writes. -/
def TripAlone (state : GovernorState) : Phase → Prop
  | .tripCount =>
    inCooldown state.store state.now = true → (state.store.get state.now .trips).isSome = true
  | .tripRecord _ seen | .tripExtend _ _ seen =>
    state.store.version .trips = seen.trips ∧
      state.store.version .cooldownUntil = seen.cooldownUntil
  | _ => True

def tripsAlone (state : GovernorState) : GovernorAction → Prop
  | .proceed caller _ => TripAlone state (state.phases caller)
  | _ => True

/-- The LinkedIn reservations of the history, the latest first. -/
def countedGrants (state : GovernorState) : List Counted :=
  state.grants.filterMap Granted.counted

def countedOn (state : GovernorState) (day : ℕ) : List Counted :=
  (countedGrants state).filter fun counted => counted.day == day

end JobApplyAgent.Governor
