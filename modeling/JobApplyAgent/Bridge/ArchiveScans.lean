import Mathlib.Tactic.NormNum
import JobApplyAgent.Library.Transition

/-!
# Scheduled archive scans

The scheduler of the bridge runs a pass over the watched groups when its timer fires or when it
is told to.  A pass waits for the list of groups and for every scan of a group, so it outlives a
stop, and it may end after another start.  The event loop holds the timers that are armed and the
passes that have not returned; that the scheduler's own flags agree with what the loop holds is
what is proved.
-/

namespace JobApplyAgent.Bridge

open Library

/-! ## Reason codes -/

/-- An error code as a caller reports it. -/
inductive ReportedCode where
  | missing
  | other
  | text (value : List Char)

/-- The code stands for an error: it is there, and it is no empty text. -/
def ReportedCode.reported : ReportedCode → Bool
  | missing => false
  | other => true
  | text value => !value.isEmpty

def isUpper (character : Char) : Bool :=
  decide ('A' ≤ character) && decide (character ≤ 'Z')

def isReasonCode : List Char → Bool
  | [] => false
  | first :: rest =>
    isUpper first && decide (rest.length ≤ 63) &&
      rest.all fun character => isUpper character || character.isDigit || character == '_'

def defaultReasonCode : List Char := "ARCHIVE_SCAN_FAILED".toList

/-- The parameter trims a text and puts it into upper case. -/
def boundedReasonCode (trimmedUpper : List Char → List Char) : ReportedCode → List Char
  | .text value =>
    if isReasonCode (trimmedUpper value) then trimmedUpper value else defaultReasonCode
  | _ => defaultReasonCode

/-! ## The scheduler -/

/-- A scheduler as it was created: the two delays are not negative, and a check of a group may
throw. -/
structure ScanSettings (Group : Type) where
  enabled : Bool
  initialDelay : ℚ
  attempts : ℕ
  interval : ℚ
  shouldWatchGroup : Group → Option Bool
  trimmedUpper : List Char → List Char

inductive ScanPhase where
  | idle
  | scheduled
  | scanning

/-- What the scheduler tells about itself. -/
structure PublishedState where
  active : Bool := false
  running : Bool := false
  phase : ScanPhase := .idle
  lastStartedAt : Option ℤ := none
  lastFinishedAt : Option ℤ := none
  lastGroupCount : ℕ := 0
  lastMessageCount : ℕ := 0
  lastErrorCode : Option (List Char) := none
  lastPaginationAvailable : Option Bool := none

/-- What a pass waits for: the groups, or one scan with the groups behind it. -/
inductive PassWait (Group : Type) where
  | groups
  | scan (rest : List Group)

/-- A pass that has not returned. -/
structure ScanPass (Group : Type) where
  wait : PassWait Group := .groups
  groupCount : ℕ := 0
  messageCount : ℕ := 0
  paginationAvailable : Bool := true
  errorCode : Option (List Char) := none

inductive ScanStart (Group : Type) where
  | pass
  | group (group : Group)

/-- The variables of the scheduler, and the timers and passes that the event loop holds for
it.  What was started is kept in order. -/
structure ScanLoop (Group : Type) where
  active : Bool := false
  running : Bool := false
  timer : Option ℕ := none
  remainingAttempts : ℕ
  state : PublishedState := {}
  armed : List ℕ := []
  nextTimer : ℕ := 0
  passes : List (ScanPass Group) := []
  started : List (ScanStart Group) := []

/-- A scan that did not fail: a finite message count, whether pages could be loaded, a code. -/
structure ScanResult where
  messageCount : Option ℚ
  paginationAvailable : Option Bool
  errorCode : ReportedCode

/-- How what a pass waits for settles.  The list of groups may be no array, the answer of a scan
no object. -/
inductive Settlement (Group : Type) where
  | listed (metadata : Option (List Group))
  | scanned (result : Option ScanResult)
  | rejected (code : ReportedCode)

/-- What the event loop may run next. -/
inductive ScanAction (Group : Type) where
  | start
  | stop
  | runNow (now : ℤ)
  | fire (timer : ℕ) (now : ℤ)
  | settled (place : ℕ) (settlement : Settlement Group) (now : ℤ)

section Code

variable {Group : Type} (settings : ScanSettings Group)

def nextDelay (loop : ScanLoop Group) : ℚ :=
  if 0 < loop.remainingAttempts then settings.initialDelay else settings.interval

def scheduleNext (loop : ScanLoop Group) : ScanLoop Group :=
  if loop.active = false ∨ loop.timer.isSome then loop
  else if nextDelay settings loop ≤ 0 then
    { loop with active := false, state := { loop.state with active := false, phase := .idle } }
  else { loop with
    timer := some loop.nextTimer
    armed := loop.armed ++ [loop.nextTimer]
    nextTimer := loop.nextTimer + 1 }

/-- A pass up to where it waits for the groups. -/
def runPass (loop : ScanLoop Group) (now : ℤ) : ScanLoop Group :=
  if loop.active = false ∨ loop.running = true then loop
  else { loop with
    running := true
    remainingAttempts := loop.remainingAttempts - 1
    state := { loop.state with
      active := true, running := true, phase := .scanning, lastStartedAt := some now
      lastErrorCode := none }
    passes := loop.passes ++ [{}]
    started := loop.started ++ [.pass] }

/-- The end of a pass, whether it failed or not. -/
def finishPass (loop : ScanLoop Group) (place : ℕ) (pass : ScanPass Group) (now : ℤ) :
    ScanLoop Group :=
  scheduleNext settings { loop with
    running := false
    state := { loop.state with
      active := loop.active, running := false, phase := .idle, lastFinishedAt := some now
      lastGroupCount := pass.groupCount, lastMessageCount := pass.messageCount
      lastErrorCode := pass.errorCode
      lastPaginationAvailable := some pass.paginationAvailable }
    passes := loop.passes.eraseIdx place }

/-- The loop over the groups, up to the next scan or the end. -/
def visitGroups (loop : ScanLoop Group) (place : ℕ) (pass : ScanPass Group)
    (groups : List Group) (now : ℤ) : ScanLoop Group :=
  match groups with
  | [] => finishPass settings loop place pass now
  | group :: rest =>
    if loop.active = false then finishPass settings loop place pass now
    else { loop with
      passes := loop.passes.set place { pass with wait := .scan rest }
      started := loop.started ++ [.group group] }

def ScanPass.failed (pass : ScanPass Group) (code : ReportedCode) : ScanPass Group :=
  { pass with errorCode := some (boundedReasonCode settings.trimmedUpper code) }

def ScanPass.took (pass : ScanPass Group) : Option ScanResult → ScanPass Group
  | none => pass
  | some result => { pass with
      messageCount := pass.messageCount +
        (result.messageCount.map fun count => count.floor.toNat).getD 0
      paginationAvailable := pass.paginationAvailable && result.paginationAvailable != some false
      errorCode := if result.errorCode.reported
        then some (boundedReasonCode settings.trimmedUpper result.errorCode)
        else pass.errorCode }

def watchedGroups (metadata : Option (List Group)) : List Group :=
  (metadata.getD []).filter fun group => (settings.shouldWatchGroup group).getD false

/-- A pass takes what it waited for, and has these groups before it. -/
def ScanPass.settle (pass : ScanPass Group) :
    Settlement Group → Option (ScanPass Group × List Group)
  | .listed metadata =>
    match pass.wait with
    | .groups =>
      let groups := watchedGroups settings metadata
      some ({ pass with groupCount := groups.length }, groups)
    | .scan _ => none
  | .scanned result =>
    match pass.wait with
    | .groups => none
    | .scan rest => some (pass.took settings result, rest)
  | .rejected code =>
    match pass.wait with
    | .groups => some (pass.failed settings code, [])
    | .scan rest => some (pass.failed settings code, rest)

def stopScans (loop : ScanLoop Group) : ScanLoop Group :=
  { loop with
    active := false
    timer := none
    armed := loop.armed.filter fun timer => loop.timer != some timer
    state := { loop.state with
      active := false, running := loop.running
      phase := if loop.running then .scanning else .idle } }

/-- One turn of the event loop, none where there is nothing to run. -/
def performScan (loop : ScanLoop Group) : ScanAction Group → Option (ScanLoop Group)
  | .start =>
    if settings.enabled = false ∨ loop.active = true then some loop
    else some (scheduleNext settings { loop with
      active := true
      remainingAttempts := settings.attempts
      state := { loop.state with active := true, phase := .scheduled } })
  | .stop => some (stopScans loop)
  | .runNow now =>
    if settings.enabled = false then some loop
    else some (runPass { loop with active := true } now)
  | .fire timer now =>
    if timer ∈ loop.armed then
      some (runPass { loop with armed := loop.armed.erase timer, timer := none } now)
    else none
  | .settled place settlement now =>
    (loop.passes[place]?).bind fun pass =>
      (pass.settle settings settlement).map fun (next, groups) =>
        visitGroups settings loop place next groups now

/-- The bridge asks for scans. -/
def ScanAction.asks : ScanAction Group → Bool
  | .start | .runNow _ => true
  | _ => false

/-- A scheduler from its creation on. -/
def scanSystem : TransitionSystem (ScanLoop Group) (ScanAction Group) where
  initial loop := loop = { remainingAttempts := settings.attempts }
  step before action after := performScan settings before action = some after

end Code

variable {Group : Type} {settings : ScanSettings Group} {loop : ScanLoop Group}
  {pass : ScanPass Group}

/-! ## The flags and the event loop -/

/-- The flags say which passes and timers the event loop holds. -/
structure Wired (loop : ScanLoop Group) : Prop where
  passes : loop.passes.length = loop.running.toNat
  armed : loop.armed = loop.timer.toList
  stopped : loop.active = false → loop.timer = none

/-- An active scheduler will go on. -/
structure WillScan (loop : ScanLoop Group) : Prop extends Wired loop where
  goesOn : loop.active = true → loop.running = true ∨ loop.timer.isSome = true

section

variable (hwired : Wired loop)
include hwired

theorem Wired.scheduleNext : WillScan (scheduleNext settings loop) := by
  unfold Bridge.scheduleNext
  split
  · next hleft => exact ⟨hwired, fun hactive => .inr (hleft.resolve_left (by simp [hactive]))⟩
  next hdue =>
  obtain ⟨hactive, htimer⟩ := not_or.mp hdue
  rw [Option.not_isSome_iff_eq_none] at htimer
  have harmed : loop.armed = [] := by rw [hwired.armed, htimer, Option.toList_none]
  split
  · exact ⟨⟨hwired.passes, hwired.armed, fun _ => htimer⟩, nofun⟩
  · refine ⟨⟨hwired.passes, ?_, fun hstopped => absurd hstopped hactive⟩, fun _ => .inr rfl⟩
    simp [harmed]

theorem Wired.runPass (now : ℤ) : WillScan (runPass loop now) := by
  unfold Bridge.runPass
  split
  · next hleft =>
    exact ⟨hwired, fun hactive => .inl (hleft.resolve_left (by simp [hactive]))⟩
  next hdue =>
  have hidle : loop.running = false := by simpa using (not_or.mp hdue).2
  refine ⟨⟨?_, hwired.armed, hwired.stopped⟩, fun _ => .inl rfl⟩
  have hpasses : loop.passes.length = 0 := by rw [hwired.passes, hidle, Bool.toNat_false]
  simp [hpasses]

theorem Wired.running_of_pass (hpass : loop.passes[place]? = some pass) :
    place = 0 ∧ loop.running = true := by
  have hplace := (List.getElem?_eq_some_iff.mp hpass).1
  rw [hwired.passes] at hplace
  cases hrunning : loop.running <;> simp_all

theorem Wired.finishPass (hpass : loop.passes[place]? = some pass)
    (ended : ScanPass Group) (now : ℤ) : WillScan (finishPass settings loop place ended now) := by
  obtain ⟨rfl, hrunning⟩ := hwired.running_of_pass hpass
  refine Wired.scheduleNext ⟨?_, hwired.armed, hwired.stopped⟩
  have hlength := hwired.passes
  rw [hrunning, Bool.toNat_true] at hlength
  simp [hlength]

theorem Wired.visitGroups (hpass : loop.passes[place]? = some pass)
    (next : ScanPass Group) (groups : List Group) (now : ℤ) :
    WillScan (visitGroups settings loop place next groups now) := by
  unfold Bridge.visitGroups
  split
  · exact hwired.finishPass hpass _ now
  split
  · exact hwired.finishPass hpass _ now
  · exact ⟨⟨by simp [hwired.passes], hwired.armed, hwired.stopped⟩,
      fun _ => .inl (hwired.running_of_pass hpass).2⟩

theorem Wired.stopScans : Wired (stopScans loop) where
  passes := hwired.passes
  armed := by
    cases htimer : loop.timer <;> simp [Bridge.stopScans, hwired.armed, htimer]
  stopped := fun _ => rfl

end

/-- A step goes on from a pass that waits, or it is one of the scheduler's own. -/
theorem WillScan.step (hok : WillScan loop)
    (hstep : performScan settings loop action = some after) :
    WillScan after := by
  have hwired := hok.toWired
  cases action with
  | start =>
    simp only [performScan] at hstep
    split at hstep
    · cases hstep
      exact hok
    cases hstep
    exact Wired.scheduleNext ⟨hwired.passes, hwired.armed, nofun⟩
  | stop =>
    cases hstep
    exact ⟨hwired.stopScans, nofun⟩
  | runNow now =>
    simp only [performScan] at hstep
    split at hstep
    · cases hstep
      exact hok
    cases hstep
    apply Wired.runPass
    exact ⟨hwired.passes, hwired.armed, nofun⟩
  | fire timer now =>
    simp only [performScan] at hstep
    split at hstep
    · next hmem =>
      cases hstep
      apply Wired.runPass
      refine ⟨hwired.passes, ?_, fun _ => rfl⟩
      rw [hwired.armed, Option.mem_toList] at hmem
      simp [hwired.armed, hmem]
    · cases hstep
  | settled place settlement now =>
    obtain ⟨pass, hpass, hstep⟩ := Option.bind_eq_some_iff.mp hstep
    obtain ⟨⟨next, groups⟩, _, rfl⟩ := Option.map_eq_some_iff.mp hstep
    exact hwired.visitGroups hpass next groups now

theorem willScan_invariant (guard : ScanLoop Group → ScanAction Group → Prop) :
    (scanSystem settings).Invariant guard WillScan where
  init := by
    rintro _ rfl
    exact ⟨⟨rfl, rfl, fun _ => rfl⟩, nofun⟩
  step := fun _ _ _ hok _ hstep => hok.step hstep

/-! ## After a stop -/

/-- The scheduler was stopped: no timer is armed, and nothing but this was started. -/
def Stopped (started : List (ScanStart Group)) (loop : ScanLoop Group) : Prop :=
  loop.active = false ∧ loop.started = started

theorem Stopped.visitGroups (hstopped : Stopped started loop) (groups : List Group) (now : ℤ) :
    Stopped started (visitGroups settings loop place pass groups now) := by
  have hfinish : Stopped started (finishPass settings loop place pass now) := by
    rwa [finishPass, scheduleNext, if_pos (.inl hstopped.1)]
  unfold Bridge.visitGroups
  split
  · exact hfinish
  · rwa [if_pos hstopped.1]

/-- A pass that goes on after a stop starts no further scan. -/
theorem Stopped.step (hstopped : Stopped started loop) (hasks : action.asks = false)
    (hstep : performScan settings loop action = some after) : Stopped started after := by
  cases action with
  | start | runNow now => cases hasks
  | stop =>
    cases hstep
    exact ⟨rfl, hstopped.2⟩
  | fire timer now =>
    simp only [performScan] at hstep
    split at hstep
    · cases hstep
      rwa [runPass, if_pos (.inl hstopped.1)]
    · cases hstep
  | settled place settlement now =>
    obtain ⟨pass, _, hstep⟩ := Option.bind_eq_some_iff.mp hstep
    obtain ⟨⟨next, groups⟩, _, rfl⟩ := Option.map_eq_some_iff.mp hstep
    exact hstopped.visitGroups groups now

/-! ## Going on -/

/-- The delay that every pass of the scheduler waits for is positive. -/
def Delays (settings : ScanSettings Group) : Prop :=
  0 < settings.interval ∧ (0 < settings.initialDelay ∨ settings.attempts = 0)

/-- No more initial scans are due than the scheduler was created with. -/
def WithinAttempts (settings : ScanSettings Group) (loop : ScanLoop Group) : Prop :=
  loop.remainingAttempts ≤ settings.attempts

theorem scheduleNext_remaining (loop : ScanLoop Group) :
    (scheduleNext settings loop).remainingAttempts = loop.remainingAttempts := by
  unfold scheduleNext
  split
  · rfl
  · split <;> rfl

theorem visitGroups_remaining (groups : List Group) (now : ℤ) :
    (visitGroups settings loop place pass groups now).remainingAttempts =
      loop.remainingAttempts := by
  unfold visitGroups
  split
  · exact scheduleNext_remaining _
  · split
    · exact scheduleNext_remaining _
    · rfl

theorem runPass_remaining (loop : ScanLoop Group) (now : ℤ) :
    (runPass loop now).remainingAttempts ≤ loop.remainingAttempts := by
  unfold runPass
  split
  · rfl
  · exact Nat.sub_le _ _

theorem WithinAttempts.step (hwithin : WithinAttempts settings loop)
    (hstep : performScan settings loop action = some after) : WithinAttempts settings after := by
  cases action with
  | start =>
    simp only [performScan] at hstep
    split at hstep <;> cases hstep
    · exact hwithin
    · exact (scheduleNext_remaining _).le
  | stop =>
    cases hstep
    exact hwithin
  | runNow now =>
    simp only [performScan] at hstep
    split at hstep <;> cases hstep
    · exact hwithin
    · exact (runPass_remaining _ now).trans hwithin
  | fire timer now =>
    simp only [performScan] at hstep
    split at hstep <;> cases hstep
    exact (runPass_remaining _ now).trans hwithin
  | settled place settlement now =>
    obtain ⟨pass, _, hstep⟩ := Option.bind_eq_some_iff.mp hstep
    obtain ⟨⟨next, groups⟩, _, rfl⟩ := Option.map_eq_some_iff.mp hstep
    exact (visitGroups_remaining groups now).trans_le hwithin

theorem withinAttempts_invariant (guard : ScanLoop Group → ScanAction Group → Prop) :
    (scanSystem settings).Invariant guard (WithinAttempts settings) where
  init := by
    rintro _ rfl
    exact le_rfl
  step := fun _ _ _ hwithin _ hstep => hwithin.step hstep

theorem scheduleNext_active (hdelays : Delays settings) (hwithin : WithinAttempts settings loop)
    (hactive : loop.active = true) : (scheduleNext settings loop).active = true := by
  have hdelay : ¬nextDelay settings loop ≤ 0 := by
    unfold nextDelay
    split
    · next hattempts =>
      -- an initial scan is due, so that the scheduler was created with some
      exact not_le.mpr (hdelays.2.resolve_right (by unfold WithinAttempts at hwithin; omega))
    · exact not_le.mpr hdelays.1
  unfold scheduleNext
  rw [if_neg hdelay]
  split
  · exact hactive
  · exact hactive

theorem runPass_active (loop : ScanLoop Group) (now : ℤ) :
    (runPass loop now).active = loop.active := by
  unfold runPass
  split <;> rfl

theorem visitGroups_active (hdelays : Delays settings) (hwithin : WithinAttempts settings loop)
    (hactive : loop.active = true) (groups : List Group) (now : ℤ) :
    (visitGroups settings loop place pass groups now).active = true := by
  unfold visitGroups
  split
  · exact scheduleNext_active hdelays hwithin hactive
  · split
    · exact scheduleNext_active hdelays hwithin hactive
    · exact hactive

/-- What holds of a scheduler over all its runs. -/
structure ScanLaws (settings : ScanSettings Group) : Prop where
  /-- One pass and one timer at most, and an active scheduler has one of them. -/
  goesOn : ∀ loop, (scanSystem settings).Reachable (fun _ _ => True) loop →
    loop.passes.length ≤ 1 ∧ loop.armed.length ≤ 1 ∧
      (loop.active = true → loop.passes ≠ [] ∨ loop.armed ≠ [])
  /-- An active scheduler, or one that is told to scan, is active until it is stopped. -/
  active : ∀ loop, (scanSystem settings).Reachable (fun _ _ => True) loop →
    ∀ action after, performScan settings loop action = some after → action ≠ .stop →
      (loop.active = true ∨ action.asks = true) → after.active = true
  /-- After a stop no timer is armed and nothing is started until the bridge asks for it. -/
  stops : ∀ loop stopped later, (scanSystem settings).Reachable (fun _ _ => True) loop →
    performScan settings loop .stop = some stopped →
    (scanSystem settings).Path (fun _ action => action.asks = false) stopped later →
      later.armed = [] ∧ later.started = loop.started

/-- An enabled scheduler whose passes all wait for a positive delay keeps to its schedule. -/
theorem scan_laws (henabled : settings.enabled = true) (hdelays : Delays settings) :
    ScanLaws settings where
  goesOn loop hreach := by
    have hok := (willScan_invariant _).reachable hreach
    refine ⟨hok.passes ▸ Bool.toNat_le _, ?_, fun hactive => ?_⟩
    · rw [hok.armed]
      cases loop.timer <;> simp
    · rcases hok.goesOn hactive with hrunning | htimer
      · have hlength := hok.passes
        rw [hrunning, Bool.toNat_true] at hlength
        exact .inl (List.ne_nil_of_length_pos (by omega))
      · obtain ⟨timer, htimer⟩ := Option.isSome_iff_exists.mp htimer
        exact .inr (by rw [hok.armed, htimer]; simp)
  active loop hreach action after hstep hstop hactive := by
    have hwithin := (withinAttempts_invariant _).reachable hreach
    cases action with
    | stop => exact absurd rfl hstop
    | start =>
      simp only [performScan, henabled, Bool.true_eq_false, false_or] at hstep
      split at hstep
      · next hrun =>
        cases hstep
        exact hrun
      cases hstep
      exact scheduleNext_active hdelays (le_refl settings.attempts) rfl
    | runNow now =>
      simp only [performScan, henabled, Bool.true_eq_false, if_false] at hstep
      cases hstep
      exact runPass_active _ now
    | fire timer now =>
      simp only [performScan] at hstep
      split at hstep
      · cases hstep
        exact (runPass_active _ now).trans (hactive.resolve_right nofun)
      · cases hstep
    | settled place settlement now =>
      obtain ⟨pass, _, hstep⟩ := Option.bind_eq_some_iff.mp hstep
      obtain ⟨⟨next, groups⟩, _, rfl⟩ := Option.map_eq_some_iff.mp hstep
      exact visitGroups_active hdelays hwithin (hactive.resolve_right nofun) groups now
  stops loop stopped later hreach hstop hpath := by
    have hok := ((willScan_invariant _).reachable hreach).step hstop
    have hinvariant : ∀ state, (scanSystem settings).Path
        (fun _ action => action.asks = false) stopped state →
        WillScan state ∧ Stopped loop.started state := by
      intro state hrun
      induction hrun with
      | refl =>
        cases hstop
        exact ⟨hok, rfl, rfl⟩
      | tail _ hnext ih =>
        obtain ⟨action, hasks, hstep⟩ := hnext
        exact ⟨ih.1.step hstep, ih.2.step hasks hstep⟩
    obtain ⟨hlater, hquiet⟩ := hinvariant later hpath
    rw [hlater.armed, hlater.stopped hquiet.1]
    exact ⟨rfl, hquiet.2⟩

/-- Thirty seconds before an initial scan, ten minutes between the later ones. -/
def sampleScanSettings : ScanSettings String where
  enabled := true
  initialDelay := 30000
  attempts := 2
  interval := 600000
  shouldWatchGroup := fun _ => some true
  trimmedUpper := id

theorem scan_laws_sample : ScanLaws sampleScanSettings :=
  scan_laws rfl ⟨by norm_num [sampleScanSettings], .inl (by norm_num [sampleScanSettings])⟩

/-- Two initial scans without a delay. -/
def undelayedSettings : ScanSettings String :=
  { sampleScanSettings with initialDelay := 0 }

/-- The start of a scheduler that has no delay for its initial scans ends at once, and neither a
pass nor a timer is left. -/
theorem undelayed_stops :
    undelayedSettings.enabled = true ∧ 0 < undelayedSettings.interval ∧
      ¬ScanLaws undelayedSettings := by
  refine ⟨rfl, by norm_num [undelayedSettings, sampleScanSettings], fun hlaws => ?_⟩
  have hactive := hlaws.active _ (.initial rfl) .start _ rfl nofun (.inr rfl)
  simp [undelayedSettings, sampleScanSettings, scheduleNext, nextDelay] at hactive

end JobApplyAgent.Bridge
