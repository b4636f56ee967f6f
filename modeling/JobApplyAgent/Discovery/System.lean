import JobApplyAgent.Discovery.Ingest
import JobApplyAgent.Library.Transition

/-!
# Discovery among the other writers

Any number of running ingests, and the transactions that score a job, generate
its application, or skip it.  These lock the job and re-read it, so each of them
is one step, which waits while an ingest has written the job.
-/

namespace JobApplyAgent.Discovery

open Domain Library

structure DiscoveryState where
  db : DiscoveryDb
  sessions : List (Option IngestSession)

/-- How a scored job goes on. -/
inductive ScoreOutcome where
  | preparationBlocked
  | skip
  | prepare

def ScoreOutcome.status : ScoreOutcome → JobStatus
  | .preparationBlocked => .scored
  | .skip => .skipped
  | .prepare => .draft

inductive DiscoveryAction where
  | begin (postings : List DiscoveredPosting)
  | lookup (index : ℕ)
  | decide (index : ℕ)
  | commit (index : ℕ)
  | abort (index : ℕ)
  /-- A job without application is scored; the score was computed of the digest. -/
  | score (jobId : ℕ) (jobDigest : String) (expected : JobStatus) (score : Rat)
      (outcome : ScoreOutcome)
  /-- A job with application is scored again. -/
  | rescore (jobId : ℕ) (jobDigest : String) (score : Rat)
  | generate (jobId : ℕ) (jobDigest : String)
  | regenerate (jobId : ℕ) (jobDigest : String)
  | skip (jobId : ℕ) (now : Timestamp)

/-- The running ingests apart from one. -/
def others (state : DiscoveryState) (index : ℕ) : List IngestSession :=
  (state.sessions.zipIdx.filter fun entry => entry.2 ≠ index).filterMap Prod.fst

/-- What the other ingests have written. -/
def heldBy (state : DiscoveryState) (index : ℕ) : Held where
  jobs id := (others state index).any fun session => (session.flushedJobs id).isSome
  occurrences id :=
    (others state index).any fun session => (session.flushedOccurrences id).isSome
  occurrenceKeys key :=
    (others state index).any fun session =>
      (List.range state.db.nextOccurrence).any fun id =>
        (session.flushedOccurrences id).any fun row => row.occurrenceKey = key

/-- An ingest has written the job and not committed yet. -/
def jobLocked (state : DiscoveryState) (jobId : ℕ) : Bool :=
  state.sessions.any fun session => session.any fun session => (session.flushedJobs jobId).isSome

/-- The committed job, once no ingest holds its row. -/
def lockedJob (state : DiscoveryState) (jobId : ℕ) : Option JobRow :=
  if jobLocked state jobId then none else state.db.jobs jobId

def runningIngest (state : DiscoveryState) (index : ℕ) : Option IngestSession :=
  (state.sessions[index]?).bind id

/-- An ingest goes on with a new session and database. -/
def advance (state : DiscoveryState) (index : ℕ) (db : DiscoveryDb)
    (session : Option IngestSession) : DiscoveryState where
  db := db
  sessions := state.sessions.set index session

def writeJob (state : DiscoveryState) (jobId : ℕ) (row : JobRow) : DiscoveryState :=
  { state with db := { state.db with jobs := state.db.jobs.put jobId row } }

/-- Submitted and skipped jobs are closed to content changes. -/
def contentOpen (row : JobRow) : Bool :=
  decide (row.status ≠ .submitted ∧ row.status ≠ .skipped)

variable (codec : TextCodec) (fitDigest : (ContentField → String) → String)

/-- One step of the system; `none` when the step is not possible in the state. -/
def performDiscovery (state : DiscoveryState) : DiscoveryAction → Option DiscoveryState
  | .begin postings =>
    some { state with sessions := state.sessions ++ [some (beginIngest postings)] }
  | .lookup index => do
      let session ← runningIngest state index
      let session ← lookup state.db session
      return advance state index state.db (some session)
  | .decide index => do
      let session ← runningIngest state index
      let (db, session) ←
        (decideMatched codec state.db session (heldBy state index)).toOption
      return advance state index db (some session)
  | .commit index => do
      let session ← runningIngest state index
      let db ← (commitIngest state.db session (heldBy state index)).toOption
      return advance state index db none
  | .abort index => do
      let _ ← runningIngest state index
      return advance state index state.db none
  | .score jobId jobDigest expected score outcome => do
      let row ← lockedJob state jobId
      if !state.db.applications jobId && contentOpen row && decide (row.status = expected)
          && fitDigest row.content = jobDigest then
        return writeJob state jobId { row with score := some score, status := outcome.status }
      else none
  | .rescore jobId jobDigest score => do
      let row ← lockedJob state jobId
      if state.db.applications jobId && contentOpen row && fitDigest row.content = jobDigest then
        return writeJob state jobId { row with score := some score }
      else none
  | .generate jobId jobDigest => do
      let row ← lockedJob state jobId
      if !state.db.applications jobId && contentOpen row
          && fitDigest row.content = jobDigest then
        let state := writeJob state jobId { row with status := .draft }
        return { state with db := { state.db with
          applications := fun id => decide (id = jobId) || state.db.applications id } }
      else none
  | .regenerate jobId jobDigest => do
      let row ← lockedJob state jobId
      if state.db.applications jobId && contentOpen row && fitDigest row.content = jobDigest then
        return writeJob state jobId { row with status := .draft }
      else none
  | .skip jobId now => do
      let row ← lockedJob state jobId
      if row.status ≠ .submitted then
        return writeJob state jobId { row with status := .skipped, terminalSkipAt := some now }
      else none

/-! ## Undisturbed steps -/

/-- A running ingest has flushed the hash for the job, or will write it. -/
inductive SessionCarries (session : IngestSession) (id : ℕ) (hash : String) : Prop
  | flushed (row : JobRow) (hrow : session.flushedJobs id = some row)
      (hhash : row.applyUrlHash = some hash)
  | staged (tracked : Tracked JobRow) (hrow : session.jobs id = some tracked)
      (hhash : tracked.staged.applyUrlHash = some hash)
      (hchanged : tracked.staged.applyUrlHash ≠ tracked.loaded.applyUrlHash)

/-- The job carries the hash, or will once the running ingests have committed. -/
inductive CarriesHash (state : DiscoveryState) (id : ℕ) (hash : String) : Prop
  | committed (row : JobRow) (hrow : state.db.jobs id = some row)
      (hhash : row.applyUrlHash = some hash)
  | running (index : ℕ) (session : IngestSession)
      (hsession : runningIngest state index = some session)
      (hcarries : SessionCarries session id hash)

/-- The decision on a matched posting creates its job or replaces the content of it. -/
def rewritesJob (db : DiscoveryDb) (session : IngestSession) (posting : DiscoveredPosting)
    (target : Target) : Bool :=
  match target, loadedJob session target with
  | .missing _, _ => true
  | .known occurrenceId, some (jobId, job) =>
    (session.occurrences occurrenceId).any fun occurrence =>
      revisedOrReopened occurrence.staged posting
        && mayUpdate job.staged (applicationOf db session jobId)
  | _, some (jobId, job) =>
    mayUpdate job.staged (applicationOf db session jobId)
      && decide (jobContentQuality job.staged.content
        < jobContentQuality (postingContent codec posting))
  | _, none => false

/-- The decision inserts a job, and so flushes everything that is staged. -/
def insertsJob (session : IngestSession) : Bool :=
  match session.phase with
  | .matched _ (.missing _) => true
  | _ => false

/-- A running ingest has looked the hash up in vain, and not created its job yet. -/
def Taken (state : DiscoveryState) (index : ℕ) (hash : String) : Prop :=
  ∃ session posting catalogId, runningIngest state index = some session ∧
    session.phase = .matched posting (.missing catalogId) ∧
    hash = posting.occurrence.normalizedUrlHash

/-- The ingest has written a row with the hash, or the row of a job with it, or will write
it. -/
def Written (db : DiscoveryDb) (session : IngestSession) (hash : String) : Prop :=
  ∃ id, SessionCarries session id hash ∨
    (session.flushedJobs id).isSome = true ∧
      ∃ row : JobRow, db.jobs id = some row ∧ row.applyUrlHash = some hash

/-- A running ingest has the hash in hand. -/
def InHand (state : DiscoveryState) (hash : String) : Prop :=
  (∃ index session, runningIngest state index = some session ∧ Written state.db session hash) ∨
    ∃ index, Taken state index hash

/-- Whatever carries the hash of a posting that rewrites a job is this job. -/
def MovesAlone (state : DiscoveryState) (session : IngestSession) (posting : DiscoveredPosting)
    (target : Target) : Prop :=
  (∀ id, CarriesHash state id posting.occurrence.normalizedUrlHash →
    targetJob session target = some id) ∧
  ∀ index, ¬Taken state index posting.occurrence.normalizedUrlHash

end JobApplyAgent.Discovery
