import JobApplyAgent.Discovery.Catalog
import JobApplyAgent.Library.PrefixScan
import JobApplyAgent.Library.SequencedLog
import JobApplyAgent.Library.Slots

/-!
# Checkpoints and search intents

Runs of the discovery mesh over a board that answers conditional requests, while the list
of the board changes and another process activates search intents.  A run reads the active
intents when it starts and keeps its own copy of the checkpoint, which it saves after every
page; an activation deletes the saved checkpoint.
-/

namespace JobApplyAgent.Discovery

open Domain Library

/-- The settings of a mesh run, within their declared bounds. -/
structure DiscoveryMeshSettings where
  publicDiscoveryMaxJobs : ℕ
  discoveryMaxPagesPerRun : ℕ
  jobsBounded : 1 ≤ publicDiscoveryMaxJobs ∧ publicDiscoveryMaxJobs ≤ 500
  pagesBounded : 1 ≤ discoveryMaxPagesPerRun ∧ discoveryMaxPagesPerRun ≤ 100

variable {τ : Type*}

/-! ## Search intents -/

structure SearchIntentRevision (τ : Type*) where
  version : ℕ
  intents : List τ
  active : Bool

def currentRevision (revisions : List (SearchIntentRevision τ)) :
    Option (SearchIntentRevision τ) :=
  latestBy SearchIntentRevision.version (revisions.filter SearchIntentRevision.active)

/-- `max(version)`, or zero. -/
def latestVersion (revisions : List (SearchIntentRevision τ)) : ℕ :=
  ((latestBy SearchIntentRevision.version revisions).map SearchIntentRevision.version).getD 0

def SearchIntentRevision.deactivate (revision : SearchIntentRevision τ) :
    SearchIntentRevision τ :=
  { revision with active := false }

def nextRevisions (revisions : List (SearchIntentRevision τ)) (intents : List τ) :
    List (SearchIntentRevision τ) :=
  revisions.map SearchIntentRevision.deactivate ++ [⟨latestVersion revisions + 1, intents, true⟩]

/-- An activation that has made its statements and not yet committed.  It holds the row of
the checkpoint locked if there was one to delete. -/
structure PendingActivation (τ : Type*) where
  intents : List τ
  deletesCursor : Bool

/-! ## Runs -/

inductive ScanPhase
  | loading
  | settling (snapshot : SnapshotState)
  | clearing
  | scanning
  | restarting (cursor : CatalogCursor)
  | ingesting (postings : List SourceRow) (read : ReadPage)
  | marking (read : ReadPage)
  | saving (read : ReadPage)
  | closing (snapshot : SnapshotState)
  | finishing
  /-- The run has ended with a 304 answer or with a complete snapshot. -/
  | ended

def ScanPhase.saves : ScanPhase → Bool
  | .clearing | .restarting _ | .saving _ | .finishing => true
  | _ => false

/-- A run with what it read when it started and its copy of the checkpoint.  The code does
not keep the postings that the board offered when it last answered. -/
structure ScanRun (τ : Type*) where
  settings : DiscoveryMeshSettings
  version : ℕ
  intents : List τ
  pagesLeft : ℕ
  cursor : CatalogCursor
  snapshot : Option SnapshotState
  answered : List SourceRow
  phase : ScanPhase

/-- The database, the board and the runs.  The listings are the validators that the board
has given so far, with what it offered under each. -/
structure CheckpointState (τ : Type*) where
  now : Timestamp
  source : List SourceRow
  etag : String
  listings : List (String × List SourceRow)
  records : List SourceRecord
  cursor : Option CatalogCursor
  revisions : List (SearchIntentRevision τ)
  activation : Option (PendingActivation τ)
  runs : Slots (ScanRun τ)

inductive CheckpointAction (τ : Type*)
  | tick (elapsed : ℕ)
  /-- The list of the board changes, and with it the validator. -/
  | change (source : List SourceRow) (etag : String)
  | activate (intents : List τ)
  | commitActivation
  | rollbackActivation
  | begin (settings : DiscoveryMeshSettings)
  | fetch (place : ℕ) (lastModified : Option String)
  | proceed (place : ℕ)
  | fail (place : ℕ)

variable (ats : Ats) (occurrenceKey : String → String)
  (matchesIntents : List τ → SourceRow → Bool) (payloadDigest : List τ → String)

/-! ## The board and the intents -/

/-- A validator stands for one list only. -/
def changeSource (state : CheckpointState τ) (source : List SourceRow) (etag : String) :
    Option (CheckpointState τ) :=
  if etag ≠ "" ∧ ∀ listing ∈ state.listings, listing.1 = etag → listing.2 = offered ats source then
    some { state with
      source := source
      etag := etag
      listings := state.listings ++ [(etag, offered ats source)] }
  else none

/-- Nothing is activated without intents, and the active intents are not activated again.  A
second activation waits for the rows of the first. -/
def activateSearchIntents (state : CheckpointState τ) (intents : List τ) :
    Option (CheckpointState τ) :=
  if intents.isEmpty || state.activation.isSome then none
  else if (currentRevision state.revisions).any fun current =>
      payloadDigest current.intents = payloadDigest intents then some state
  else some { state with activation := some ⟨intents, state.cursor.isSome⟩ }

def commitActivation (state : CheckpointState τ) : Option (CheckpointState τ) :=
  state.activation.map fun pending =>
    { state with
      revisions := nextRevisions state.revisions pending.intents
      cursor := if pending.deletesCursor then none else state.cursor
      activation := none }

/-! ## Steps of a run -/

def CheckpointState.withRun (state : CheckpointState τ) (place : ℕ) (run : Option (ScanRun τ)) :
    CheckpointState τ :=
  { state with runs := state.runs.put place run }

/-- Upsert the checkpoint; a row that an activation deletes is waited for. -/
def saveCursor (state : CheckpointState τ) (cursor : CatalogCursor) :
    Option (CheckpointState τ) :=
  if state.activation.any PendingActivation.deletesCursor then none
  else some { state with cursor := some cursor }

/-- The snapshot that a run goes on with; the ids that are offered all along are not
followed here. -/
def continuedSnapshot (now : Timestamp) (cursor : CatalogCursor) : Option SnapshotState :=
  if cursor.offset = 0 ∧ cursor.snapshot = none then some ⟨now, false, []⟩ else cursor.snapshot

/-- The run with the checkpoint that it found. -/
def loadCursor (state : CheckpointState τ) (run : ScanRun τ) : ScanRun τ :=
  let cursor := state.cursor.getD .empty
  match cursor.snapshot.filter SnapshotState.pending with
  | some snapshot => { run with cursor := cursor, phase := .settling snapshot }
  | none =>
    { run with
      cursor := cursor
      snapshot := continuedSnapshot state.now cursor
      phase := .scanning }

/-- The validators are sent at the start of the list only. -/
def conditionalValidator (cursor : CatalogCursor) : Option String :=
  if cursor.offset = 0 then cursor.etag else none

/-- The board answers 304 exactly if the validator that was sent is the current one. -/
def answerRequest (state : CheckpointState τ) (cursor : CatalogCursor)
    (lastModified : Option String) : CatalogResponse :=
  let notModified := decide (conditionalValidator cursor = some state.etag)
  { notModified := notModified
    rows := if notModified then [] else state.source
    totalFound := 0
    etag := some state.etag
    lastModified := lastModified }

/-- The postings of a page that are ingested. -/
def wantedRow (intents : List τ) (row : SourceRow) : Bool :=
  accepts ats row && matchesIntents intents row

/-- The run after a page; it fails with an adapter that fails on the answer. -/
def readAnswer (state : CheckpointState τ) (run : ScanRun τ) (pagesLeft : ℕ) :
    Option CatalogPage → Option (ScanRun τ)
  | none => none
  | some page =>
    let answered := offered ats state.source
    if page.restart then
      some { run with
        pagesLeft := pagesLeft
        answered := answered
        phase := .restarting page.cursor }
    else
      some { run with
        pagesLeft := pagesLeft
        answered := answered
        phase := .ingesting (page.rows.filter (wantedRow ats matchesIntents run.intents))
          ⟨page, state.now⟩ }

def fetchPage (state : CheckpointState τ) (place : ℕ) (run : ScanRun τ)
    (lastModified : Option String) : Option (CheckpointState τ) :=
  match run.phase, run.pagesLeft with
  | .scanning, pagesLeft + 1 =>
    let page := fetchCatalogPage ats run.cursor [] (answerRequest state run.cursor lastModified)
      run.settings.publicDiscoveryMaxJobs
    some (state.withRun place (readAnswer ats matchesIntents state run pagesLeft page))
  | _, _ => none

def afterSave (run : ScanRun τ) (page : CatalogPage) : ScanRun τ :=
  let cursor := savedCursor page (run.snapshot.map fun snapshot =>
    { snapshot with pending := page.complete })
  let phase : ScanPhase :=
    if page.notModified then .ended
    else if page.complete then
      match run.snapshot with
      | some snapshot => .closing snapshot
      | none => .ended
    else .scanning
  { run with cursor := cursor, phase := phase }

/-- Any step of a run other than an answer of the board. -/
def proceedRun (state : CheckpointState τ) (place : ℕ) (run : ScanRun τ) :
    Option (CheckpointState τ) :=
  match run.phase with
  | .loading => some (state.withRun place (some (loadCursor state run)))
  | .settling snapshot =>
    some ({ state with
      records := reconcileSourceSnapshot snapshot.startedAt state.now state.records }.withRun
        place (some { run with phase := .clearing }))
  | .clearing =>
    let cursor := { run.cursor with snapshot := none }
    (saveCursor state cursor).map fun saved =>
      saved.withRun place (some { run with
        cursor := cursor
        snapshot := continuedSnapshot state.now cursor
        phase := .scanning })
  | .scanning =>
    if run.pagesLeft = 0 then some (state.withRun place none) else none
  | .restarting cursor =>
    let snapshot : SnapshotState := ⟨state.now, false, []⟩
    let cursor := { cursor with snapshot := some snapshot }
    (saveCursor state cursor).map fun saved =>
      saved.withRun place (some { run with
        cursor := cursor
        snapshot := some snapshot
        phase := .scanning })
  | .ingesting [] read => some (state.withRun place (some { run with phase := .marking read }))
  | .ingesting (posting :: postings) read =>
    some ({ state with
      records := observeRecord read.observedAt state.records
        (occurrenceKey posting.jobId) }.withRun
          place (some { run with phase := .ingesting postings read }))
  | .marking read =>
    some ({ state with
      records := markSnapshotOccurrencesSeen state.now
        (pageKeys ats occurrenceKey read.page.rows) state.records }.withRun
          place (some { run with phase := .saving read }))
  | .saving read =>
    let run := afterSave run read.page
    (saveCursor state run.cursor).map fun saved => saved.withRun place (some run)
  | .closing snapshot =>
    some ({ state with
      records := reconcileSourceSnapshot snapshot.startedAt state.now state.records }.withRun
        place (some { run with phase := .finishing }))
  | .finishing =>
    let cursor := { run.cursor with snapshot := none }
    (saveCursor state cursor).map fun saved =>
      saved.withRun place (some { run with cursor := cursor, phase := .ended })
  | .ended => none

/-- A run reads the active intents before anything else. -/
def beginRun (state : CheckpointState τ) (settings : DiscoveryMeshSettings) :
    Option (CheckpointState τ) :=
  match currentRevision state.revisions with
  | none => none
  | some revision =>
    if revision.intents.isEmpty then none
    else
      some { state with
        runs := state.runs.add
          { settings := settings
            version := revision.version
            intents := revision.intents
            pagesLeft := settings.discoveryMaxPagesPerRun
            cursor := .empty
            snapshot := none
            answered := []
            phase := .loading } }

def performCheckpoint (state : CheckpointState τ) :
    CheckpointAction τ → Option (CheckpointState τ)
  | .tick elapsed => some { state with now := state.now + elapsed }
  | .change source etag => changeSource ats state source etag
  | .activate intents => activateSearchIntents payloadDigest state intents
  | .commitActivation => commitActivation state
  | .rollbackActivation => some { state with activation := none }
  | .begin settings => beginRun state settings
  | .fetch place lastModified =>
    (state.runs.entry place).bind fun run =>
      fetchPage ats matchesIntents state place run lastModified
  | .proceed place =>
    (state.runs.entry place).bind fun run => proceedRun ats occurrenceKey state place run
  | .fail place => some (state.withRun place none)

def checkpointStart (now : Timestamp) (source : List SourceRow) (etag : String) :
    CheckpointState τ where
  now := now
  source := source
  etag := etag
  listings := [(etag, offered ats source)]
  records := []
  cursor := none
  revisions := []
  activation := none
  runs := []

def checkpointSystem : TransitionSystem (CheckpointState τ) (CheckpointAction τ) where
  initial := fun state => ∃ now source etag, etag ≠ "" ∧ state = checkpointStart ats now source etag
  step := fun before action after =>
    performCheckpoint ats occurrenceKey matchesIntents payloadDigest before action = some after

/-- Every interleaving. -/
def anyCheckpointStep (_ : CheckpointState τ) (_ : CheckpointAction τ) : Prop :=
  True

/-- A run saves its checkpoint only while the intents that it read are the active ones and
no activation is under way. -/
def SavesOwnRevision (state : CheckpointState τ) : CheckpointAction τ → Prop
  | .proceed place => ∀ run, state.runs.entry place = some run → run.phase.saves = true →
      state.activation = none ∧
        (currentRevision state.revisions).map SearchIntentRevision.version = some run.version
  | _ => True

/-- No checkpoint hides a posting: a run that started after the last activation and ended
with a 304 answer or with a complete snapshot leaves an occurrence of every posting that
the board offered then and the active intents want. -/
def NothingHidden (state : CheckpointState τ) : Prop :=
  ∀ place run revision, state.runs.entry place = some run → run.phase = .ended →
    currentRevision state.revisions = some revision → run.version = revision.version →
      ∀ row ∈ run.answered, wantedRow ats matchesIntents revision.intents row = true →
        ∃ record ∈ state.records, record.occurrenceKey = occurrenceKey row.jobId

end JobApplyAgent.Discovery
