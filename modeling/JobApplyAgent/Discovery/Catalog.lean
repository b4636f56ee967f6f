import JobApplyAgent.Domain.Contracts
import JobApplyAgent.Library.Transition

/-!
# Scanning a catalog source

One employer's job board, read page by page through its adapter into the occurrences of
the source.  The durable cursor holds the next offset and the snapshot that the scan
belongs to; a complete snapshot closes the occurrences that it has not seen.  The list of
the source may change at any time, and a run may fail between any two commits.
-/

namespace JobApplyAgent.Discovery

open Domain Library

inductive Ats
  | greenhouse
  | lever
  | ashby
  | smartrecruiters
  deriving DecidableEq

/-- A row of a job board: the stripped fields that decide whether it is a posting. -/
structure SourceRow where
  jobId : String
  title : String
  applyUrl : String
  listed : Bool
  deriving DecidableEq

/-- The adapter reads the row as a posting; SmartRecruiters builds the URL itself. -/
def accepts (ats : Ats) (row : SourceRow) : Bool :=
  row.jobId != "" && row.title != "" && (ats == .smartrecruiters || row.applyUrl != "")

/-- The postings that the source offers; Ashby also delivers rows that are not listed. -/
def offered (ats : Ats) (source : List SourceRow) : List SourceRow :=
  if ats = .ashby then source.filter SourceRow.listed else source

def jobIds (rows : List SourceRow) : List String :=
  rows.map SourceRow.jobId

/-- The snapshot state of a cursor, with the ids that the source has offered ever since
the snapshot began.  The code keeps no such list; it ends with the complete page. -/
structure SnapshotState where
  startedAt : Timestamp
  pending : Bool
  present : List String
  deriving DecidableEq

/-- The cursor, with the postings that the source offered when its page was read.  The
code does not keep them. -/
structure CatalogCursor where
  offset : ℕ
  etag : Option String
  lastModified : Option String
  snapshot : Option SnapshotState
  origin : List SourceRow

def CatalogCursor.empty : CatalogCursor where
  offset := 0
  etag := none
  lastModified := none
  snapshot := none
  origin := []

/-- What the source answers; a total of zero stands for a missing one. -/
structure CatalogResponse where
  notModified : Bool
  rows : List SourceRow
  totalFound : ℕ
  etag : Option String
  lastModified : Option String

structure CatalogPage where
  rows : List SourceRow
  cursor : CatalogCursor
  complete : Bool
  notModified : Bool
  restart : Bool

/-! ## Adapters -/

def validatorsDiffer : Option String → Option String → Bool
  | some known, some current => known != current
  | _, _ => false

def snapshotChanged (cursor : CatalogCursor) (response : CatalogResponse) : Bool :=
  cursor.offset != 0 &&
    (validatorsDiffer cursor.etag response.etag ||
      validatorsDiffer cursor.lastModified response.lastModified)

def restartPage : CatalogPage where
  rows := []
  cursor := .empty
  complete := false
  notModified := false
  restart := true

/-- Boards that deliver the whole list: the page is a window of it, and the validators
of the response tell whether it is still the list of the first page. -/
def fetchWholeList (ats : Ats) (cursor : CatalogCursor) (response : CatalogResponse)
    (maxJobs : ℕ) : CatalogPage :=
  let moved (offset : ℕ) : CatalogCursor :=
    { offset := offset
      etag := response.etag.or cursor.etag
      lastModified := response.lastModified.or cursor.lastModified
      snapshot := none
      origin := offered ats response.rows }
  if snapshotChanged cursor response then restartPage
  else if response.notModified then
    ⟨[], moved cursor.offset, true, true, false⟩
  else
    let rows := offered ats response.rows
    let window := (rows.drop cursor.offset).take maxJobs
    let complete := decide (rows.length ≤ cursor.offset + window.length)
    ⟨window, moved (if complete then 0 else cursor.offset + window.length), complete, false,
      false⟩

/-- Boards that page on their side: every response stands for itself. -/
def fetchSlice (cursor : CatalogCursor) (source : List SourceRow)
    (response : CatalogResponse) (limit : ℕ) (complete : Bool) : Option CatalogPage :=
  if response.notModified then none
  else
    some ⟨response.rows,
      { offset := if complete then 0 else cursor.offset + limit
        etag := none
        lastModified := none
        snapshot := none
        origin := source }, complete, false, false⟩

def pageLimit (maxJobs : ℕ) : ℕ :=
  min 100 maxJobs

def fetchGreenhousePage (cursor : CatalogCursor) (response : CatalogResponse) (maxJobs : ℕ) :
    Option CatalogPage :=
  some (fetchWholeList .greenhouse cursor response maxJobs)

def fetchAshbyPage (cursor : CatalogCursor) (response : CatalogResponse) (maxJobs : ℕ) :
    Option CatalogPage :=
  some (fetchWholeList .ashby cursor response maxJobs)

/-- A short page is the last one. -/
def fetchLeverPage (cursor : CatalogCursor) (source : List SourceRow)
    (response : CatalogResponse) (maxJobs : ℕ) : Option CatalogPage :=
  fetchSlice cursor source response (pageLimit maxJobs)
    (decide (response.rows.length < pageLimit maxJobs))

/-- The page that reaches the total is the last one. -/
def fetchSmartrecruitersPage (cursor : CatalogCursor) (source : List SourceRow)
    (response : CatalogResponse) (maxJobs : ℕ) : Option CatalogPage :=
  let total := if response.totalFound = 0 then response.rows.length else response.totalFound
  fetchSlice cursor source response (pageLimit maxJobs)
    (decide (total ≤ cursor.offset + response.rows.length))

def fetchCatalogPage (ats : Ats) (cursor : CatalogCursor) (source : List SourceRow)
    (response : CatalogResponse) (maxJobs : ℕ) : Option CatalogPage :=
  match ats with
  | .greenhouse => fetchGreenhousePage cursor response maxJobs
  | .lever => fetchLeverPage cursor source response maxJobs
  | .ashby => fetchAshbyPage cursor response maxJobs
  | .smartrecruiters => fetchSmartrecruitersPage cursor source response maxJobs

/-! ## Occurrences -/

/-- The occurrence of a posting, among those of this source and catalog entry. -/
structure SourceRecord where
  occurrenceKey : String
  lastSeenAt : Timestamp
  closedAt : Option Timestamp
  active : Bool
  deriving DecidableEq

/-- What ingesting a posting does to its occurrence. -/
def observeRecord (observedAt : Timestamp) (records : List SourceRecord) (key : String) :
    List SourceRecord :=
  if records.any fun record => record.occurrenceKey = key then
    records.map fun record =>
      if record.occurrenceKey = key then
        { record with lastSeenAt := observedAt, active := true, closedAt := none }
      else record
  else records ++ [⟨key, observedAt, none, true⟩]

def ingestPage (observedAt : Timestamp) (keys : List String) (records : List SourceRecord) :
    List SourceRecord :=
  keys.foldl (observeRecord observedAt) records

def markSnapshotOccurrencesSeen (seenAt : Timestamp) (keys : List String)
    (records : List SourceRecord) : List SourceRecord :=
  records.map fun record =>
    if record.occurrenceKey ∈ keys then
      { record with
        lastSeenAt := max record.lastSeenAt seenAt
        active := true
        closedAt := none }
    else record

/-- Close the active occurrences that were last seen before the snapshot began. -/
def reconcileSourceSnapshot (startedAt closedAt : Timestamp) (records : List SourceRecord) :
    List SourceRecord :=
  records.map fun record =>
    if record.active = true ∧ record.lastSeenAt < startedAt then
      { record with active := false, closedAt := some closedAt }
    else record

/-! ## Runs -/

/-- The settings of a run; which rows match the search intents depends on their content. -/
structure ScanSettings where
  maxJobs : ℕ
  maxPages : ℕ
  matchesIntents : SourceRow → Bool

structure ReadPage where
  page : CatalogPage
  observedAt : Timestamp

inductive CatalogRun
  | idle
  | settling (settings : ScanSettings) (snapshot : SnapshotState)
  | clearing (settings : ScanSettings)
  | scanning (settings : ScanSettings) (snapshot : Option SnapshotState) (pagesLeft : ℕ)
  | restarting (settings : ScanSettings) (cursor : CatalogCursor) (pagesLeft : ℕ)
  | ingesting (settings : ScanSettings) (read : ReadPage) (snapshot : Option SnapshotState)
      (pagesLeft : ℕ)
  | marking (settings : ScanSettings) (read : ReadPage) (snapshot : Option SnapshotState)
      (pagesLeft : ℕ)
  | saving (settings : ScanSettings) (read : ReadPage) (snapshot : Option SnapshotState)
      (pagesLeft : ℕ)
  | closing (snapshot : SnapshotState)
  | finishing

/-- The clock, the list of the source, its occurrences, the durable cursor and the run.
Between two pages the cursor of the run is the durable one. -/
structure CatalogState where
  now : Timestamp
  source : List SourceRow
  records : List SourceRecord
  cursor : CatalogCursor
  run : CatalogRun

inductive CatalogAction
  | tick (elapsed : ℕ)
  | change (source : List SourceRow)
  | begin (settings : ScanSettings)
  /-- The source answers a request: how many rows, and what else it says. -/
  | fetch (size totalFound : ℕ) (notModified : Bool) (etag lastModified : Option String)
  | proceed
  | fail

variable (ats : Ats) (occurrenceKey : String → String)

def offeredNow (state : CatalogState) : List SourceRow :=
  offered ats state.source

def beginSnapshot (state : CatalogState) : SnapshotState where
  startedAt := state.now
  pending := false
  present := jobIds (offeredNow ats state)

/-- The snapshot that a run goes on with. -/
def currentSnapshot (state : CatalogState) (cursor : CatalogCursor) : Option SnapshotState :=
  if cursor.offset = 0 ∧ cursor.snapshot = none then some (beginSnapshot ats state)
  else cursor.snapshot

/-- An open snapshot keeps the ids that the source still offers. -/
def SnapshotState.follow (ids : List String) (snapshot : SnapshotState) : SnapshotState :=
  if snapshot.pending then snapshot
  else { snapshot with present := snapshot.present.filter fun id => id ∈ ids }

def CatalogCursor.follow (ids : List String) (cursor : CatalogCursor) : CatalogCursor :=
  { cursor with snapshot := cursor.snapshot.map (SnapshotState.follow ids) }

def CatalogRun.follow (ids : List String) : CatalogRun → CatalogRun
  | .scanning settings snapshot pagesLeft =>
    .scanning settings (snapshot.map (SnapshotState.follow ids)) pagesLeft
  | .ingesting settings read snapshot pagesLeft =>
    .ingesting settings read (snapshot.map (SnapshotState.follow ids)) pagesLeft
  | .marking settings read snapshot pagesLeft =>
    .marking settings read (snapshot.map (SnapshotState.follow ids)) pagesLeft
  | .saving settings read snapshot pagesLeft =>
    .saving settings read (snapshot.map (SnapshotState.follow ids)) pagesLeft
  | run => run

/-- The rows of a response: the whole list, or as many as the source likes from the
offset on. -/
def responseRows (source : List SourceRow) (offset size : ℕ) : List SourceRow :=
  match ats with
  | .greenhouse | .ashby => source
  | .lever | .smartrecruiters => (source.drop offset).take size

def readPage (state : CatalogState) (maxJobs size totalFound : ℕ) (notModified : Bool)
    (etag lastModified : Option String) : Option CatalogPage :=
  fetchCatalogPage ats state.cursor state.source
    ⟨notModified, responseRows ats state.source state.cursor.offset size, totalFound, etag,
      lastModified⟩ maxJobs

def pageKeys (rows : List SourceRow) : List String :=
  (jobIds (rows.filter (accepts ats))).map occurrenceKey

def savedCursor (page : CatalogPage) (snapshot : Option SnapshotState) : CatalogCursor :=
  { page.cursor with snapshot := if page.notModified then none else snapshot }

def afterPage (settings : ScanSettings) (page : CatalogPage)
    (snapshot : Option SnapshotState) (pagesLeft : ℕ) : CatalogRun :=
  if page.notModified then .idle
  else if page.complete then
    match snapshot with
    | some snapshot => .closing snapshot
    | none => .idle
  else .scanning settings snapshot pagesLeft

/-- One step of a run other than the answer of the source. -/
def proceedCatalog (state : CatalogState) : Option CatalogState :=
  match state.run with
  | .settling settings snapshot =>
    some { state with
      records := reconcileSourceSnapshot snapshot.startedAt state.now state.records
      run := .clearing settings }
  | .clearing settings =>
    let cursor := { state.cursor with snapshot := none }
    some { state with
      cursor := cursor
      run := .scanning settings (currentSnapshot ats state cursor) settings.maxPages }
  | .restarting settings cursor pagesLeft =>
    let snapshot := beginSnapshot ats state
    some { state with
      cursor := { cursor with snapshot := some snapshot }
      run := .scanning settings (some snapshot) pagesLeft }
  | .ingesting settings read snapshot pagesLeft =>
    let wanted := read.page.rows.filter settings.matchesIntents
    some { state with
      records := ingestPage read.observedAt (pageKeys ats occurrenceKey wanted) state.records
      run := .marking settings read snapshot pagesLeft }
  | .marking settings read snapshot pagesLeft =>
    some { state with
      records := markSnapshotOccurrencesSeen state.now
        (pageKeys ats occurrenceKey read.page.rows) state.records
      run := .saving settings read snapshot pagesLeft }
  | .saving settings read snapshot pagesLeft =>
    some { state with
      cursor := savedCursor read.page snapshot
      run := afterPage settings read.page snapshot pagesLeft }
  | .closing snapshot =>
    some { state with
      records := reconcileSourceSnapshot snapshot.startedAt state.now state.records
      run := .finishing }
  | .finishing =>
    some { state with cursor := { state.cursor with snapshot := none }, run := .idle }
  | .scanning _ _ 0 => some { state with run := .idle }
  | .idle | .scanning _ _ (_ + 1) => none

/-- The run of the next page, or of an adapter that fails on the answer. -/
def afterFetch (state : CatalogState) (settings : ScanSettings)
    (snapshot : Option SnapshotState) (pagesLeft : ℕ) : Option CatalogPage → CatalogRun
  | none => .idle
  | some page =>
    if page.restart then .restarting settings page.cursor pagesLeft
    else
      .ingesting settings ⟨page, state.now⟩
        (snapshot.map fun snapshot => { snapshot with pending := page.complete }) pagesLeft

def performCatalog (state : CatalogState) : CatalogAction → Option CatalogState
  | .tick elapsed => some { state with now := state.now + elapsed }
  | .change source =>
    let ids := jobIds (offered ats source)
    some { state with
      source := source
      cursor := state.cursor.follow ids
      run := state.run.follow ids }
  | .begin settings =>
    match state.run with
    | .idle =>
      match state.cursor.snapshot with
      | some snapshot =>
        if snapshot.pending then
          some { state with run := .settling settings snapshot }
        else
          some { state with
            run := .scanning settings (some snapshot) settings.maxPages }
      | none =>
        some { state with
          run := .scanning settings (currentSnapshot ats state state.cursor)
            settings.maxPages }
    | _ => none
  | .fetch size totalFound notModified etag lastModified =>
    match state.run with
    | .scanning settings snapshot (pagesLeft + 1) =>
      some { state with
        run := afterFetch state settings snapshot pagesLeft
          (readPage ats state settings.maxJobs size totalFound notModified etag
            lastModified) }
    | _ => none
  | .proceed => proceedCatalog ats occurrenceKey state
  | .fail => some { state with run := .idle }

def catalogStart (now : Timestamp) (source : List SourceRow) : CatalogState where
  now := now
  source := source
  records := []
  cursor := .empty
  run := .idle

def catalogSystem : TransitionSystem CatalogState CatalogAction where
  initial := fun state => ∃ now source, state = catalogStart now source
  step := fun before action after => performCatalog ats occurrenceKey before action = some after

/-- Every run of the scanner. -/
def anyScan (_ : CatalogState) (_ : CatalogAction) : Prop :=
  True

/-- What a page that a snapshot goes on with must find.  Every posting is complete; none
that was offered all along has moved from behind the offset to before it since the last
page; a page that ends the scan reaches the end of the list, and any other page reaches
the next offset. -/
structure SteadyPage (state : CatalogState) (snapshot : SnapshotState) (page : CatalogPage) :
    Prop where
  rows : ∀ row ∈ offeredNow ats state, accepts ats row = true
  order : ∀ id ∈ snapshot.present,
    id ∈ jobIds (state.cursor.origin.take state.cursor.offset) ∨
      id ∉ jobIds ((offeredNow ats state).take state.cursor.offset)
  last : page.complete = true →
    (offeredNow ats state).length ≤ state.cursor.offset + page.rows.length
  between : page.complete = false →
    page.cursor.offset ≤ state.cursor.offset + page.rows.length ∨
      (offeredNow ats state).length ≤ state.cursor.offset + page.rows.length

/-- Every page that is accepted into a snapshot is steady. -/
def SteadyScan (state : CatalogState) : CatalogAction → Prop
  | .fetch size totalFound notModified etag lastModified =>
    ∀ settings snapshot pagesLeft page, state.run = .scanning settings (some snapshot) pagesLeft →
      readPage ats state settings.maxJobs size totalFound notModified etag lastModified =
        some page → page.restart = false → page.notModified = false →
        SteadyPage ats state snapshot page
  | _ => True

end JobApplyAgent.Discovery
