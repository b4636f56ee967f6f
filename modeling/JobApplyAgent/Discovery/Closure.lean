import JobApplyAgent.Discovery.System

/-!
# One job and the sources that observe it

The occurrences of one job, with the transactions that observe and close them: ingesting,
marking a page as seen and reconciling a snapshot.  Each reads rows, decides on what it
has read, and writes back the columns that it has changed; other transactions may commit
between any two of its queries.  The locked writers of the job are single steps.
-/

namespace JobApplyAgent.Discovery

open Domain Library

/-- The rows of one job. -/
structure JobDb where
  jobId : ℕ
  job : JobRow
  application : Bool
  occurrences : List OccurrenceRow
  /-- The status was set to SKIPPED by closing, and not by the operator.  The code keeps no
  such column. -/
  closedBySources : Bool

/-- Write the job back; the flag tells whether its status comes from closing. -/
def JobDb.putJob (db : JobDb) (row : JobRow) (closing : Bool) : JobDb :=
  { db with
    job := row
    closedBySources := closing && decide (row.status = .skipped) && row.terminalSkipAt.isNone }

/-- The occurrences after the changed columns of the loaded ones were written. -/
def mergeRows (loaded : Table (Tracked OccurrenceRow)) (rows : List OccurrenceRow) :
    List OccurrenceRow :=
  rows.mapIdx fun id row =>
    match loaded id with
    | some tracked => writeBackOccurrence tracked row
    | none => row

/-- The rows that a query selects, with the values that are staged for them. -/
def selectRows (test : OccurrenceRow → Bool) (change : OccurrenceRow → OccurrenceRow)
    (rows : List OccurrenceRow) : Table (Tracked OccurrenceRow) :=
  fun id => (rows[id]?).bind fun row => if test row then some ⟨row, change row⟩ else none

/-! ## Ingesting -/

/-- An ingest, as far as it concerns the job. -/
structure JobIngest where
  postings : List DiscoveredPosting
  /-- The posting whose rows are loaded, with its occurrence if the key is known. -/
  matched : Option (DiscoveredPosting × Option ℕ)
  job : Option (Tracked JobRow)
  application : Option Bool
  occurrences : Table (Tracked OccurrenceRow)
  pending : List OccurrenceRow

def JobIngest.start (postings : List DiscoveredPosting) : JobIngest where
  postings := postings
  matched := none
  job := none
  application := none
  occurrences := Table.empty
  pending := []

/-- Load the occurrence that a posting was matched with, if there is one. -/
def loadVia (db : JobDb) (found : Option ℕ) (loaded : Table (Tracked OccurrenceRow)) :
    Table (Tracked OccurrenceRow) :=
  match found with
  | some id => loadRow loaded (fun other => db.occurrences[other]?) id
  | none => loaded

/-- Match the next posting: by its key, or through another occurrence or the URL. -/
def JobIngest.lookup (db : JobDb) (via : Option ℕ) (session : JobIngest) : Option JobIngest :=
  match session.matched, session.postings with
  | none, posting :: postings =>
    let known := db.occurrences.findIdx? fun row =>
      row.occurrenceKey = posting.occurrence.occurrenceKey
    some { session with
      postings := postings
      matched := some (posting, known)
      job := some (session.job.getD (.fresh db.job))
      occurrences := loadVia db (known.or via) session.occurrences }
  | _, _ => none

variable (codec : TextCodec)

def knownJob (posting : DiscoveredPosting) (occurrence : OccurrenceRow) (application : Bool)
    (job : JobRow) : JobRow :=
  if revisedOrReopened occurrence posting && mayUpdate job application then
    updateMutableJob codec job posting
  else job

/-- The job after an occurrence with a new key was observed. -/
def seenJob (posting : DiscoveredPosting) (application : Bool) (job : JobRow) : JobRow :=
  if mayUpdate job application then
    if jobContentQuality job.content < jobContentQuality (postingContent codec posting) then
      updateMutableJob codec job posting
    else if job.status = .skipped then { job with status := .extracted, score := none }
    else job
  else job

/-- Stage what the matched posting changes. -/
def JobIngest.decide (db : JobDb) (catalogId : Option ℕ) (session : JobIngest) :
    Option JobIngest :=
  match session.matched, session.job with
  | some (posting, known), some job =>
    let application := session.application.getD db.application
    match known with
    | some id =>
      (session.occurrences id).map fun occurrence =>
        { session with
          matched := none
          application := some application
          job := some { job with
            staged := knownJob codec posting occurrence.staged application job.staged }
          occurrences := session.occurrences.put id
            { occurrence with staged := observeAgain occurrence.staged posting } }
    | none =>
      some { session with
        matched := none
        application := some application
        job := some { job with staged := seenJob codec posting application job.staged }
        pending := session.pending ++ [newOccurrence posting db.jobId catalogId] }
  | _, _ => none

/-- The occurrence keys stay unique. -/
def freshKeys (db : JobDb) (pending : List OccurrenceRow) : Bool :=
  decide ((pending.map OccurrenceRow.occurrenceKey).Nodup) &&
    pending.all fun row => db.occurrences.all fun stored =>
      stored.occurrenceKey != row.occurrenceKey

/-- Write back everything that is staged, and insert the new occurrences. -/
def JobIngest.write (session : JobIngest) (db : JobDb) : JobDb :=
  let row := match session.job with
    | some tracked => writeBackJob tracked db.job
    | none => db.job
  { db.putJob row db.closedBySources with
    occurrences := mergeRows session.occurrences db.occurrences ++ session.pending }

/-! ## Marking a page as seen -/

/-- The occurrences of one source that a transaction looks at. -/
structure SourceQuery where
  sourceKey : String
  catalogEntryId : Option ℕ

def SourceQuery.selects (query : SourceQuery) (row : OccurrenceRow) : Bool :=
  decide (row.sourceKey = query.sourceKey) &&
    query.catalogEntryId.all fun entry => row.catalogEntryId = some entry

/-- Read the occurrences of a page and stage that they were seen. -/
def readMarked (query : SourceQuery) (keys : List String) (seenAt : Timestamp) (db : JobDb) :
    Table (Tracked OccurrenceRow) :=
  selectRows (fun row => query.selects row && decide (row.occurrenceKey ∈ keys))
    (fun row => { row with
      lastSeenAt := max row.lastSeenAt seenAt
      active := true
      closedAt := none })
    db.occurrences

/-! ## Reconciling a snapshot -/

/-- What a complete snapshot has seen: the keys, or everything since an instant. -/
inductive SnapshotTest
  | seenKeys (keys : List String)
  | startedAt (instant : Timestamp)

def SnapshotTest.misses (row : OccurrenceRow) : SnapshotTest → Bool
  | .seenKeys keys => decide (row.occurrenceKey ∉ keys)
  | .startedAt instant => decide (row.lastSeenAt < instant)

/-- Read the active occurrences that the snapshot misses and stage that they are closed. -/
def readMissed (query : SourceQuery) (test : SnapshotTest) (closedAt : Timestamp)
    (db : JobDb) : Table (Tracked OccurrenceRow) :=
  selectRows (fun row => query.selects row && row.active && test.misses row)
    (fun row => { row with active := false, closedAt := some closedAt })
    db.occurrences

inductive ReconcilePhase
  | missed
  | flushed
  | checkedActive (hasActive : Bool)
  | checkedApplication (hasActive hasApplication : Bool)
  /-- The job that is to be skipped, if one is. -/
  | ready (job : Option (Tracked JobRow))

structure ReconcileSession where
  rows : Table (Tracked OccurrenceRow)
  phase : ReconcilePhase

/-- Some occurrence of the job is closed. -/
def ReconcileSession.affects (db : JobDb) (session : ReconcileSession) : Bool :=
  (List.range db.occurrences.length).any fun id => (session.rows id).isSome

/-- The occurrences as the transaction sees them. -/
def ReconcileSession.view (session : ReconcileSession) (db : JobDb) : List OccurrenceRow :=
  mergeRows session.rows db.occurrences

def skipMutable (job : JobRow) : Option (Tracked JobRow) :=
  if mutableJobStatuses.contains job.status then some ⟨job, { job with status := .skipped }⟩
  else none

/-- The next query of a snapshot that is being reconciled. -/
def ReconcileSession.proceed (db : JobDb) (session : ReconcileSession) : Option ReconcileSession :=
  match session.phase with
  | .missed => some { session with phase := .flushed }
  | .flushed =>
    some { session with
      phase :=
        if session.affects db then
          .checkedActive ((session.view db).any OccurrenceRow.active)
        else .ready none }
  | .checkedActive hasActive =>
    some { session with phase := .checkedApplication hasActive db.application }
  | .checkedApplication hasActive hasApplication =>
    some { session with
      phase := .ready
        (if hasActive || hasApplication then none else skipMutable db.job) }
  | .ready _ => none

/-- The commit of a reconciled snapshot. -/
def ReconcileSession.write (job : Option (Tracked JobRow)) (session : ReconcileSession)
    (db : JobDb) : JobDb :=
  let db := { db with occurrences := session.view db }
  match job with
  | some tracked => db.putJob (writeBackJob tracked db.job) true
  | none => db

/-! ## The system -/

inductive JobSession
  | ingest (session : JobIngest)
  | mark (rows : Table (Tracked OccurrenceRow))
  | reconcile (session : ReconcileSession)

structure JobState where
  db : JobDb
  sessions : List (Option JobSession)

inductive JobAction
  | ingest (postings : List DiscoveredPosting)
  | lookup (index : ℕ) (via : Option ℕ)
  | decide (index : ℕ) (catalogId : Option ℕ)
  | mark (query : SourceQuery) (keys : List String) (seenAt : Timestamp)
  | reconcile (query : SourceQuery) (test : SnapshotTest) (closedAt : Timestamp)
  | proceed (index : ℕ)
  | commit (index : ℕ)
  | abort (index : ℕ)
  /-- The job without application is scored; the score was computed of the digest. -/
  | score (jobDigest : String) (expected : JobStatus) (score : Rat) (outcome : ScoreOutcome)
  /-- The job with application is scored again. -/
  | rescore (jobDigest : String) (score : Rat)
  | generate (jobDigest : String)
  | regenerate (jobDigest : String)
  /-- A draft without application goes back to scoring. -/
  | returnToScored
  | skip (now : Timestamp)

/-- Rows that a transaction has written and not committed. -/
def JobSession.holds (id : ℕ) : JobSession → Bool
  | .reconcile ⟨_, .missed⟩ => false
  | .reconcile ⟨rows, _⟩ => (rows id).isSome
  | _ => false

def JobState.session (state : JobState) (index : ℕ) : Option JobSession :=
  (state.sessions[index]?).join

def JobState.held (state : JobState) (index id : ℕ) : Bool :=
  (state.sessions.eraseIdx index).any fun session => session.any (JobSession.holds id)

/-- Some changed row is written by another transaction. -/
def JobState.waits (state : JobState) (index : ℕ) (rows : Table (Tracked OccurrenceRow)) :
    Bool :=
  (List.range state.db.occurrences.length).any fun id =>
    state.held index id && (rows id).any fun tracked => !unchangedOccurrence tracked

/-- A transaction ends with these rows. -/
def JobState.finish (state : JobState) (index : ℕ) (db : JobDb) : JobState where
  db := db
  sessions := state.sessions.set index none

def JobState.goOn (state : JobState) (index : ℕ) (session : JobSession) : JobState :=
  { state with sessions := state.sessions.set index (some session) }

def JobState.begin (state : JobState) (session : JobSession) : JobState :=
  { state with sessions := state.sessions ++ [some session] }

def commitJob (state : JobState) (index : ℕ) : JobSession → Option JobState
  | .ingest session =>
    if session.matched.isNone && session.postings.isEmpty &&
        freshKeys state.db session.pending && !state.waits index session.occurrences then
      some (state.finish index (session.write state.db))
    else none
  | .mark rows =>
    if state.waits index rows then none
    else
      some (state.finish index
        { state.db with occurrences := mergeRows rows state.db.occurrences })
  | .reconcile session =>
    match session.phase with
    | .ready job => some (state.finish index (session.write job state.db))
    | _ => none

def proceedJob (state : JobState) (index : ℕ) : JobSession → Option JobState
  | .reconcile session =>
    match session.phase with
    | .missed =>
      if state.waits index session.rows then none
      else (session.proceed state.db).map fun session => state.goOn index (.reconcile session)
    | _ => (session.proceed state.db).map fun session => state.goOn index (.reconcile session)
  | _ => none

variable (fitDigest : (ContentField → String) → String)

/-- The locked writers of the job: what they check of its row, and what they write. -/
def performLocked (db : JobDb) : JobAction → Option JobDb
  | .score jobDigest expected score outcome =>
    if !db.application && contentOpen db.job && decide (db.job.status = expected)
        && fitDigest db.job.content = jobDigest then
      some (db.putJob { db.job with score := some score, status := outcome.status } false)
    else none
  | .rescore jobDigest score =>
    if db.application && contentOpen db.job && fitDigest db.job.content = jobDigest then
      some (db.putJob { db.job with score := some score } false)
    else none
  | .generate jobDigest =>
    if !db.application && contentOpen db.job && fitDigest db.job.content = jobDigest then
      some { db.putJob { db.job with status := .draft } false with application := true }
    else none
  | .regenerate jobDigest =>
    if db.application && contentOpen db.job && fitDigest db.job.content = jobDigest then
      some (db.putJob { db.job with status := .draft } false)
    else none
  | .returnToScored =>
    if !db.application && decide (db.job.status = .draft) then
      some (db.putJob { db.job with status := .scored } false)
    else none
  | .skip now =>
    if db.job.status ≠ .submitted then
      some (db.putJob { db.job with status := .skipped, terminalSkipAt := some now } false)
    else none
  | _ => none

def performJob (state : JobState) : JobAction → Option JobState
  | .ingest postings => some (state.begin (.ingest (.start postings)))
  | .lookup index via =>
    match state.session index with
    | some (.ingest session) =>
      (session.lookup state.db via).map fun session => state.goOn index (.ingest session)
    | _ => none
  | .decide index catalogId =>
    match state.session index with
    | some (.ingest session) =>
      (session.decide codec state.db catalogId).map fun session =>
        state.goOn index (.ingest session)
    | _ => none
  | .mark query keys seenAt =>
    some (state.begin (.mark (readMarked query keys seenAt state.db)))
  | .reconcile query test closedAt =>
    some (state.begin (.reconcile ⟨readMissed query test closedAt state.db, .missed⟩))
  | .proceed index => (state.session index).bind (proceedJob state index)
  | .commit index => (state.session index).bind (commitJob state index)
  | .abort index => (state.session index).map fun _ => state.finish index state.db
  | action => (performLocked fitDigest state.db action).map fun db => { state with db := db }

/-- A closed occurrence has its instant of closing. -/
def RowOk (row : OccurrenceRow) : Prop :=
  row.active = row.closedAt.isNone

/-- Runs begin with a job that was not closed. -/
structure JobInitial (state : JobState) : Prop where
  sessions : state.sessions = []
  closed : state.db.closedBySources = false
  rows : ∀ row ∈ state.db.occurrences, RowOk row

def jobSystem : TransitionSystem JobState JobAction where
  initial := JobInitial
  step before action after := performJob codec fitDigest before action = some after

/-- Every run. -/
def anyJobStep (_ : JobState) (_ : JobAction) : Prop :=
  True

/-- What a commit must find.  If the job is closed by its sources, an ingest has read it as
skipped, and no marked occurrence was closed; a reconciled snapshot that skips the job
finds, as it has checked, no active occurrence and no application. -/
def ReadsHold (db : JobDb) : JobSession → Prop
  | .ingest session => db.closedBySources = true →
      ∀ tracked, session.job = some tracked → tracked.loaded.status = .skipped
  | .mark rows => db.closedBySources = true →
      ∀ id tracked, rows id = some tracked → tracked.loaded.active = true
  | .reconcile session => ∀ tracked, session.phase = .ready (some tracked) →
      db.application = false ∧ ∀ row ∈ session.view db, row.active = false

def UnracedClosure (state : JobState) : JobAction → Prop
  | .commit index => ∀ session, state.session index = some session → ReadsHold state.db session
  | _ => True

end JobApplyAgent.Discovery
