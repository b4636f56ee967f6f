import JobApplyAgent.Discovery.Posting
import JobApplyAgent.Library.Fallible

/-!
# Ingesting postings

One ingest transaction as the steps between which other transactions may
commit: the queries that match a posting, the decision that stages its writes,
and the commit.  The transaction sees committed rows under the versions that it
has flushed, and decides on the rows that it has loaded before.  Its session
does not flush before a query, so staged writes reach the database only when a
new job needs its id, and at the commit.
-/

namespace JobApplyAgent.Discovery

open Domain Library

structure DiscoveryDb where
  jobs : Table JobRow
  nextJob : ℕ
  occurrences : Table OccurrenceRow
  nextOccurrence : ℕ
  /-- The jobs that have an application. -/
  applications : ℕ → Bool
  catalog : List String

structure DiscoveryIngestStats where
  inserted : ℕ
  updated : ℕ
  duplicate : ℕ

/-- What a posting is matched with. -/
inductive Target where
  /-- An occurrence with its key. -/
  | known (occurrenceId : ℕ)
  /-- Another occurrence of its catalog entry or of its URL. -/
  | seen (occurrenceId : ℕ) (catalogId : Option ℕ)
  /-- A job with its URL that has no such occurrence. -/
  | canonical (jobId : ℕ) (catalogId : Option ℕ)
  | missing (catalogId : Option ℕ)

inductive IngestPhase where
  | querying
  | matched (posting : DiscoveredPosting) (target : Target)

/-- A running ingest transaction: the rows that it has loaded and staged, and the
versions that it has flushed. -/
structure IngestSession where
  postings : List DiscoveredPosting
  phase : IngestPhase
  jobs : Table (Tracked JobRow)
  applications : Table Bool
  occurrences : Table (Tracked OccurrenceRow)
  pending : List OccurrenceRow
  flushedJobs : Table JobRow
  flushedOccurrences : Table OccurrenceRow
  queuedIds : List ℕ
  stats : DiscoveryIngestStats

def beginIngest (postings : List DiscoveredPosting) : IngestSession where
  postings := postings
  phase := .querying
  jobs := Table.empty
  applications := Table.empty
  occurrences := Table.empty
  pending := []
  flushedJobs := Table.empty
  flushedOccurrences := Table.empty
  queuedIds := []
  stats := ⟨0, 0, 0⟩

section Ingest

variable (codec : TextCodec) (db : DiscoveryDb) (session : IngestSession)

def viewJobs : Table JobRow :=
  Table.overlay session.flushedJobs db.jobs

def viewOccurrences : Table OccurrenceRow :=
  Table.overlay session.flushedOccurrences db.occurrences

/-! ## Queries -/

def firstOccurrence (test : OccurrenceRow → Bool) : Option ℕ :=
  (viewOccurrences db session).first db.nextOccurrence test

def firstJob (test : JobRow → Bool) : Option ℕ :=
  (viewJobs db session).first db.nextJob test

def catalogByKey (catalogKey : Option String) : Option ℕ :=
  match catalogKey with
  | none => none
  | some "" => none
  | some key => db.catalog.findIdx? fun stored => stored = key

/-- The first occurrence of the posting in its employer's catalog entry. -/
def sameCatalogPosting (catalogId : Option ℕ) (posting : DiscoveredPosting) : Option ℕ :=
  match catalogId, posting.occurrence.externalPostingId with
  | some _, some "" => none
  | some entry, some externalId =>
    firstOccurrence db session fun row =>
      row.catalogEntryId = some entry && row.externalPostingId = some externalId
  | _, _ => none

def findTarget (posting : DiscoveredPosting) : Target :=
  match firstOccurrence db session fun row =>
      row.occurrenceKey = posting.occurrence.occurrenceKey with
  | some occurrenceId => .known occurrenceId
  | none =>
    let catalogId := catalogByKey db posting.occurrence.catalogKey
    let existing := (sameCatalogPosting db session catalogId posting).or
      (firstOccurrence db session fun row =>
        row.normalizedUrlHash = posting.occurrence.normalizedUrlHash)
    match existing with
    | some occurrenceId => .seen occurrenceId catalogId
    | none =>
      match firstJob db session fun row =>
          row.applyUrlHash = some posting.occurrence.normalizedUrlHash with
      | some jobId => .canonical jobId catalogId
      | none => .missing catalogId

def loadRow {ρ : Type} (loaded : Table (Tracked ρ)) (view : Table ρ) (id : ℕ) :
    Table (Tracked ρ) :=
  match loaded id, view id with
  | none, some row => loaded.put id (.fresh row)
  | _, _ => loaded

def loadOccurrence (occurrenceId : ℕ) : IngestSession :=
  { session with
    occurrences := loadRow session.occurrences (viewOccurrences db session) occurrenceId }

def loadJob (jobId : ℕ) : IngestSession :=
  { session with jobs := loadRow session.jobs (viewJobs db session) jobId }

def Target.occurrenceId : Target → Option ℕ
  | .known occurrenceId => some occurrenceId
  | .seen occurrenceId _ => some occurrenceId
  | .canonical _ _ => none
  | .missing _ => none

def targetJob (target : Target) : Option ℕ :=
  match target with
  | .known occurrenceId | .seen occurrenceId _ =>
    (session.occurrences occurrenceId).map fun tracked => tracked.staged.jobId
  | .canonical jobId _ => some jobId
  | .missing _ => none

/-- Match the next posting and load its rows. -/
def lookup : Option IngestSession :=
  match session.phase, session.postings with
  | .querying, posting :: postings =>
    let target := findTarget db session posting
    let session := { session with postings, phase := .matched posting target }
    let session := match target.occurrenceId with
      | some occurrenceId => loadOccurrence db session occurrenceId
      | none => session
    some (match targetJob session target with
      | some jobId => loadJob db session jobId
      | none => session)
  | _, _ => none

/-! ## Flush -/

/-- What other running transactions have written. -/
structure Held where
  jobs : ℕ → Bool
  occurrences : ℕ → Bool
  occurrenceKeys : String → Bool

def Held.nothing : Held where
  jobs _ := false
  occurrences _ := false
  occurrenceKeys _ := false

/-- A flush waits for a row of another transaction, or breaks a unique key. -/
inductive FlushFailure where
  | blocked
  | integrityError

/-- Only the columns that were changed since the row was loaded are written. -/
def writeBackJob (tracked : Tracked JobRow) (current : JobRow) : JobRow :=
  { current with
    content := fun field =>
      writeBack (tracked.loaded.content field) (tracked.staged.content field)
        (current.content field)
    applyUrlHash :=
      writeBack tracked.loaded.applyUrlHash tracked.staged.applyUrlHash current.applyUrlHash
    status := writeBack tracked.loaded.status tracked.staged.status current.status
    score := writeBack tracked.loaded.score tracked.staged.score current.score }

/-- No column of the row was changed. -/
def unchangedJob (tracked : Tracked JobRow) : Bool :=
  (ContentField.all.all fun field =>
      tracked.staged.content field == tracked.loaded.content field)
    && tracked.staged.applyUrlHash == tracked.loaded.applyUrlHash
    && tracked.staged.status == tracked.loaded.status
    && tracked.staged.score == tracked.loaded.score

def writeBackOccurrence (tracked : Tracked OccurrenceRow) (current : OccurrenceRow) :
    OccurrenceRow :=
  { current with
    lastSeenAt :=
      writeBack tracked.loaded.lastSeenAt tracked.staged.lastSeenAt current.lastSeenAt
    active := writeBack tracked.loaded.active tracked.staged.active current.active
    closedAt := writeBack tracked.loaded.closedAt tracked.staged.closedAt current.closedAt
    normalizedUrl :=
      writeBack tracked.loaded.normalizedUrl tracked.staged.normalizedUrl current.normalizedUrl
    normalizedUrlHash := writeBack tracked.loaded.normalizedUrlHash
      tracked.staged.normalizedUrlHash current.normalizedUrlHash
    revisionDigest := writeBack tracked.loaded.revisionDigest tracked.staged.revisionDigest
      current.revisionDigest }

def unchangedOccurrence (tracked : Tracked OccurrenceRow) : Bool :=
  tracked.staged == tracked.loaded

/-- The versions of a table after the changed rows were written. -/
def flushRows {ρ : Type} (loaded : Table (Tracked ρ)) (unchanged : Tracked ρ → Bool)
    (merge : Tracked ρ → ρ → ρ) (flushed base : Table ρ) : Table ρ :=
  fun id =>
    match loaded id with
    | none => flushed id
    | some tracked =>
      if unchanged tracked then flushed id
      else (Table.overlay flushed base id).map (merge tracked)

/-- A changed row is written by another transaction. -/
def waitsFor {ρ : Type} (loaded : Table (Tracked ρ)) (unchanged : Tracked ρ → Bool)
    (held : ℕ → Bool) (bound : ℕ) : Bool :=
  (List.range bound).any fun id =>
    held id && (loaded id).any fun tracked => !unchanged tracked

/-- The loaded rows after a flush. -/
def synced {ρ : Type} (loaded : Table (Tracked ρ)) : Table (Tracked ρ) :=
  fun id => (loaded id).map fun tracked => Tracked.fresh tracked.staged

/-- Send the staged rows. -/
def flushStaged (held : Held) : Except FlushFailure IngestSession :=
  if waitsFor session.jobs unchangedJob held.jobs db.nextJob
      || waitsFor session.occurrences unchangedOccurrence held.occurrences db.nextOccurrence then
    .error .blocked
  else
    .ok { session with
      jobs := synced session.jobs
      occurrences := synced session.occurrences
      flushedJobs :=
        flushRows session.jobs unchangedJob writeBackJob session.flushedJobs db.jobs
      flushedOccurrences :=
        flushRows session.occurrences unchangedOccurrence writeBackOccurrence
          session.flushedOccurrences db.occurrences }

/-- The tables with a new occurrence, under the next id. -/
def storeOccurrence (row : OccurrenceRow) : DiscoveryDb × IngestSession :=
  ({ db with nextOccurrence := db.nextOccurrence + 1 },
    { session with
      occurrences := session.occurrences.put db.nextOccurrence (.fresh row)
      flushedOccurrences := session.flushedOccurrences.put db.nextOccurrence row })

def insertOccurrence (held : Held) (state : DiscoveryDb × IngestSession) (row : OccurrenceRow) :
    Except FlushFailure (DiscoveryDb × IngestSession) :=
  let (db, session) := state
  if (firstOccurrence db session fun stored =>
      stored.occurrenceKey = row.occurrenceKey).isSome then .error .integrityError
  else if held.occurrenceKeys row.occurrenceKey then .error .blocked
  else .ok (storeOccurrence db session row)

/-- Send everything that is staged. -/
def flush (held : Held) : Except FlushFailure (DiscoveryDb × IngestSession) := do
  let session ← flushStaged db session held
  session.pending.foldlM (insertOccurrence held) (db, { session with pending := [] })

/-! ## Decisions -/

/-- The relationship of a job to its application, loaded when it is first read. -/
def applicationOf (jobId : ℕ) : Bool :=
  (session.applications jobId).getD (db.applications jobId)

def mayUpdate (job : JobRow) (hasApplication : Bool) : Bool :=
  !hasApplication && mutableJobStatuses.contains job.status && job.terminalSkipAt.isNone

def awaitsScore (job : JobRow) (hasApplication : Bool) : Bool :=
  !hasApplication && decide (job.status = .extracted) && job.score.isNone

/-- Stage new values of a loaded job and queue it for scoring. -/
def stageJob (jobId : ℕ) (tracked : Tracked JobRow) (row : JobRow) : IngestSession :=
  { session with
    jobs := session.jobs.put jobId { tracked with staged := row }
    queuedIds := session.queuedIds ++ [jobId]
    stats := { session.stats with updated := session.stats.updated + 1 } }

def countDuplicate : IngestSession :=
  { session with stats := { session.stats with duplicate := session.stats.duplicate + 1 } }

def queueIf (jobId : ℕ) (awaits : Bool) : IngestSession :=
  if awaits then { session with queuedIds := session.queuedIds ++ [jobId] } else session

/-- Remember the relationship that a decision has read. -/
def readApplication (jobId : ℕ) : IngestSession :=
  { session with
    applications := session.applications.put jobId (applicationOf db session jobId) }

/-- The posting is a revision of the occurrence, or the occurrence was closed. -/
def revisedOrReopened (occurrence : OccurrenceRow) (posting : DiscoveredPosting) : Bool :=
  decide (occurrence.revisionDigest ≠ posting.occurrence.revisionDigest)
    || (!occurrence.active && occurrence.closedAt.isSome)

/-- The key is known: the occurrence is observed again, and a revised or reopened
posting updates its job. -/
def decideKnown (posting : DiscoveredPosting) (occurrenceId : ℕ)
    (occurrence : Tracked OccurrenceRow) (jobId : ℕ) (job : Tracked JobRow) : IngestSession :=
  let hasApplication := applicationOf db session jobId
  let session := readApplication db session jobId
  let session := { session with
    occurrences := session.occurrences.put occurrenceId
      { occurrence with staged := observeAgain occurrence.staged posting } }
  if revisedOrReopened occurrence.staged posting && mayUpdate job.staged hasApplication then
    stageJob session jobId job (updateMutableJob codec job.staged posting)
  else queueIf (countDuplicate session) jobId (awaitsScore job.staged hasApplication)

/-- The key is new but the job is known: richer content replaces it, and a skipped
job is reopened. -/
def decideSeen (posting : DiscoveredPosting) (jobId : ℕ) (job : Tracked JobRow)
    (catalogId : Option ℕ) : IngestSession :=
  let hasApplication := applicationOf db session jobId
  let session := countDuplicate (readApplication db session jobId)
  let session :=
    { session with pending := session.pending ++ [newOccurrence posting jobId catalogId] }
  if mayUpdate job.staged hasApplication then
    if jobContentQuality job.staged.content < jobContentQuality (postingContent codec posting) then
      stageJob session jobId job (updateMutableJob codec job.staged posting)
    else if job.staged.status = .skipped then
      stageJob session jobId job { job.staged with status := .extracted, score := none }
    else queueIf session jobId (awaitsScore job.staged hasApplication)
  else session

/-- The job is new: everything is flushed, so that it has its id. -/
def decideMissing (held : Held) (posting : DiscoveredPosting) (catalogId : Option ℕ) :
    Except FlushFailure (DiscoveryDb × IngestSession) := do
  let jobId := db.nextJob
  let row := createJob codec posting
  let session := { session with
    jobs := session.jobs.put jobId (.fresh row)
    flushedJobs := session.flushedJobs.put jobId row }
  let (db, session) ← flush { db with nextJob := jobId + 1 } session held
  return (db, { session with
    pending := [newOccurrence posting jobId catalogId]
    queuedIds := session.queuedIds ++ [jobId]
    stats := { session.stats with inserted := session.stats.inserted + 1 } })

/-- A step of an ingest is refused when it is not its turn. -/
inductive IngestFailure where
  | notReady
  | flush (failure : FlushFailure)

def loadedJob (target : Target) : Option (ℕ × Tracked JobRow) := do
  let jobId ← targetJob session target
  let job ← session.jobs jobId
  return (jobId, job)

/-- Stage the writes of the matched posting. -/
def decideMatched (held : Held) : Except IngestFailure (DiscoveryDb × IngestSession) :=
  match session.phase with
  | .querying => .error .notReady
  | .matched posting target =>
    let session := { session with phase := .querying }
    match target, loadedJob session target with
    | .missing catalogId, _ =>
      (decideMissing codec db session held posting catalogId).mapError .flush
    | .known occurrenceId, some (jobId, job) =>
      match session.occurrences occurrenceId with
      | none => .error .notReady
      | some occurrence =>
        .ok (db, decideKnown codec db session posting occurrenceId occurrence jobId job)
    | .seen _ catalogId, some (jobId, job) | .canonical _ catalogId, some (jobId, job) =>
      .ok (db, decideSeen codec db session posting jobId job catalogId)
    | _, none => .error .notReady

/-! ## Commit -/

/-- The last flush and the commit: the versions of the transaction become the
committed rows. -/
def commitIngest (held : Held) : Except IngestFailure DiscoveryDb :=
  match session.phase, session.postings with
  | .querying, [] =>
    match flush db session held with
    | .error failure => .error (.flush failure)
    | .ok (db, session) =>
      .ok { db with jobs := viewJobs db session, occurrences := viewOccurrences db session }
  | _, _ => .error .notReady

/-! ## One ingest without interference -/

/-- Everything that is done for one posting. -/
def visit (state : DiscoveryDb × IngestSession) :
    Except IngestFailure (DiscoveryDb × IngestSession) :=
  match lookup state.1 state.2 with
  | none => .error .notReady
  | some session => decideMatched codec state.1 session Held.nothing

/-- Ingest a batch while nothing else runs. -/
def ingestDiscoveredPostings (postings : List DiscoveredPosting) :
    Except IngestFailure DiscoveryDb := do
  let (db, session) ← postings.foldlM (fun state _ => visit codec state)
    (db, beginIngest postings)
  commitIngest db session Held.nothing

end Ingest

/-! ## Loading -/

/-- Rows are only loaded, and only as the transaction sees them. -/
def LoadsFrom {ρ : Type} (view : Table ρ) (old new : Table (Tracked ρ)) : Prop :=
  ∀ id, new id = old id ∨
    old id = none ∧ ∃ row, view id = some row ∧ new id = some (.fresh row)

theorem LoadsFrom.refl (view : Table ρ) (table : Table (Tracked ρ)) :
    LoadsFrom view table table := fun _ => .inl rfl

theorem loadRow_cases (loaded : Table (Tracked ρ)) (view : Table ρ) (id : ℕ) :
    loadRow loaded view id = loaded ∧ (view id = none ∨ (loaded id).isSome = true) ∨
      ∃ row, loaded id = none ∧ view id = some row ∧
        loadRow loaded view id = loaded.put id (.fresh row) := by
  unfold loadRow
  cases hloaded : loaded id with
  | some tracked => exact .inl ⟨rfl, .inr rfl⟩
  | none =>
    cases hview : view id with
    | none => exact .inl ⟨rfl, .inl rfl⟩
    | some row => exact .inr ⟨row, rfl, rfl, rfl⟩

theorem loadRow_loadsFrom (loaded : Table (Tracked ρ)) (view : Table ρ) (id : ℕ) :
    LoadsFrom view loaded (loadRow loaded view id) := by
  intro other
  rcases loadRow_cases loaded view id with ⟨hsame, _⟩ | ⟨row, hloaded, hview, hput⟩
  · exact .inl (congrFun hsame other)
  rw [hput]
  by_cases hid : other = id
  · subst hid
    exact .inr ⟨hloaded, row, hview, Table.put_self _ _ _⟩
  · exact .inl (Table.put_of_ne _ _ hid)

/-- What a lookup changes. -/
structure LookedUp (db : DiscoveryDb) (session moved : IngestSession) : Prop where
  jobs : LoadsFrom (viewJobs db session) session.jobs moved.jobs
  occurrences : LoadsFrom (viewOccurrences db session) session.occurrences moved.occurrences
  applications : moved.applications = session.applications
  pending : moved.pending = session.pending
  flushedJobs : moved.flushedJobs = session.flushedJobs
  flushedOccurrences : moved.flushedOccurrences = session.flushedOccurrences

theorem lookup_lookedUp (hlookup : lookup db session = some moved) : LookedUp db session moved := by
  unfold lookup at hlookup
  split at hlookup
  · next posting postings hphase hpostings =>
    simp only [Option.some.injEq] at hlookup
    subst hlookup
    cases (findTarget db session posting).occurrenceId with
    | none =>
      simp only
      split
      · exact ⟨loadRow_loadsFrom _ _ _, .refl _ _, rfl, rfl, rfl, rfl⟩
      · exact ⟨.refl _ _, .refl _ _, rfl, rfl, rfl, rfl⟩
    | some occurrenceId =>
      simp only
      split
      · exact ⟨loadRow_loadsFrom _ _ _, loadRow_loadsFrom _ _ _, rfl, rfl, rfl, rfl⟩
      · exact ⟨.refl _ _, loadRow_loadsFrom _ _ _, rfl, rfl, rfl, rfl⟩
  · cases hlookup

/-! ## Flushing -/

theorem insertOccurrence_eq_ok (hinsert : insertOccurrence held state row = .ok result) :
    (∀ id stored, id < state.1.nextOccurrence →
      viewOccurrences state.1 state.2 id = some stored →
      stored.occurrenceKey ≠ row.occurrenceKey) ∧
    held.occurrenceKeys row.occurrenceKey = false ∧
    result = storeOccurrence state.1 state.2 row := by
  unfold insertOccurrence at hinsert
  simp only at hinsert
  split at hinsert
  · cases hinsert
  next hfree =>
  split at hinsert
  · cases hinsert
  next hheld =>
  cases hinsert
  refine ⟨?_, by simpa using hheld, rfl⟩
  intro id stored hid hstored
  rw [Option.not_isSome_iff_eq_none, firstOccurrence, Table.first_eq_none] at hfree
  simpa using hfree id stored hid hstored

/-- The ingest after its staged rows were written back. -/
def writtenBack (db : DiscoveryDb) (session : IngestSession) : IngestSession :=
  { session with
    jobs := synced session.jobs
    occurrences := synced session.occurrences
    pending := []
    flushedJobs := flushRows session.jobs unchangedJob writeBackJob session.flushedJobs db.jobs
    flushedOccurrences := flushRows session.occurrences unchangedOccurrence writeBackOccurrence
      session.flushedOccurrences db.occurrences }

theorem flush_eq_ok (hflush : flush db session held = .ok (after, moved)) :
    session.pending.foldlM (insertOccurrence held) (db, writtenBack db session) =
      .ok (after, moved) := by
  unfold flush at hflush
  obtain ⟨staged, hstaged, hinserts⟩ := bind_eq_ok.mp hflush
  unfold flushStaged at hstaged
  split at hstaged <;> cases hstaged
  exact hinserts

end JobApplyAgent.Discovery
