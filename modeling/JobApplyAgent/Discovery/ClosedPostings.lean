import JobApplyAgent.Discovery.SnapshotClosure

/-!
# The postings that a scan closes

Only reconciling closes an occurrence, and a steady scan reconciles a snapshot that is
covered.  A list that gets shorter between two pages of a board that pages on its side is
not steady: the scan then closes a posting that was offered all along.
-/

namespace JobApplyAgent.Discovery

open Domain Library TransitionSystem

variable {ats : Ats} {occurrenceKey : String → String} {before after state : CatalogState}
  {action : CatalogAction}

/-! ## Closing -/

section Records

variable {records changed : List SourceRecord}

/-- An active occurrence becomes inactive; no step moves an occurrence in the list. -/
def Closes (records changed : List SourceRecord) (record : SourceRecord) : Prop :=
  ∃ index : ℕ, records[index]? = some record ∧ record.active = true ∧
    ∃ closed : SourceRecord, changed[index]? = some closed ∧ closed.active = false

def KeepsActive (records changed : List SourceRecord) : Prop :=
  ∀ (index : ℕ) (record : SourceRecord), records[index]? = some record → record.active = true →
    ∃ kept : SourceRecord, changed[index]? = some kept ∧ kept.active = true

theorem KeepsActive.refl (records : List SourceRecord) : KeepsActive records records :=
  fun _ record hrecord hactive => ⟨record, hrecord, hactive⟩

theorem KeepsActive.trans {further : List SourceRecord} (hfirst : KeepsActive records changed)
    (hsecond : KeepsActive changed further) : KeepsActive records further := by
  intro index record hrecord hactive
  obtain ⟨kept, hkept, hstill⟩ := hfirst index record hrecord hactive
  exact hsecond index kept hkept hstill

theorem KeepsActive.map {change : SourceRecord → SourceRecord}
    (hchange : ∀ record, record.active = true → (change record).active = true) :
    KeepsActive records (records.map change) := by
  intro index record hrecord hactive
  refine ⟨change record, ?_, hchange record hactive⟩
  rw [List.getElem?_map, hrecord, Option.map_some]

theorem KeepsActive.not_closes (hkeeps : KeepsActive records changed) (record : SourceRecord) :
    ¬ Closes records changed record := by
  rintro ⟨index, hrecord, hactive, closed, hclosed, hinactive⟩
  obtain ⟨kept, hkept, hstill⟩ := hkeeps index record hrecord hactive
  rw [hclosed] at hkept
  cases hkept
  rw [hinactive] at hstill
  cases hstill

theorem keepsActive_observe (observedAt : Timestamp) (records : List SourceRecord)
    (key : String) : KeepsActive records (observeRecord observedAt records key) := by
  unfold observeRecord
  split
  · apply KeepsActive.map
    intro record hactive
    split
    · rfl
    · exact hactive
  · intro index record hrecord hactive
    refine ⟨record, ?_, hactive⟩
    rw [List.getElem?_append_left (List.getElem?_eq_some_iff.mp hrecord).1]
    exact hrecord

theorem keepsActive_ingest (observedAt : Timestamp) (keys : List String)
    (records : List SourceRecord) : KeepsActive records (ingestPage observedAt keys records) := by
  unfold ingestPage
  induction keys generalizing records with
  | nil => exact .refl records
  | cons key keys ih => exact (keepsActive_observe observedAt records key).trans (ih _)

theorem keepsActive_mark (seenAt : Timestamp) (keys : List String)
    (records : List SourceRecord) :
    KeepsActive records (markSnapshotOccurrencesSeen seenAt keys records) := by
  apply KeepsActive.map
  intro record hactive
  split
  · rfl
  · exact hactive

theorem closes_reconciled {startedAt closedAt : Timestamp} {record : SourceRecord}
    (hcloses : Closes records (reconcileSourceSnapshot startedAt closedAt records) record) :
    record ∈ records ∧ record.lastSeenAt < startedAt := by
  obtain ⟨index, hrecord, hactive, closed, hclosed, hinactive⟩ := hcloses
  refine ⟨List.mem_of_getElem? hrecord, ?_⟩
  unfold reconcileSourceSnapshot at hclosed
  rw [List.getElem?_map, hrecord, Option.map_some, Option.some.injEq] at hclosed
  by_contra hlater
  rw [if_neg (fun hold => hlater hold.2)] at hclosed
  rw [hclosed, hinactive] at hactive
  cases hactive

end Records

/-- The snapshot whose reconciliation is the next step of the run. -/
def CatalogRun.reconciles : CatalogRun → Option SnapshotState
  | .settling _ snapshot | .closing snapshot => some snapshot
  | _ => none

theorem closes_step {record : SourceRecord}
    (hstep : performCatalog ats occurrenceKey before action = some after)
    (hcloses : Closes before.records after.records record) :
    ∃ snapshot, before.run.reconciles = some snapshot ∧
      record ∈ before.records ∧ record.lastSeenAt < snapshot.startedAt := by
  cases action with
  | tick elapsed | change source | fail =>
    cases hstep
    exact absurd hcloses ((KeepsActive.refl before.records).not_closes record)
  | begin settings =>
    have hsame : after.records = before.records := by
      simp only [performCatalog] at hstep
      grind
    rw [hsame] at hcloses
    exact absurd hcloses ((KeepsActive.refl before.records).not_closes record)
  | fetch size totalFound notModified etag lastModified =>
    have hsame : after.records = before.records := by
      simp only [performCatalog] at hstep
      grind
    rw [hsame] at hcloses
    exact absurd hcloses ((KeepsActive.refl before.records).not_closes record)
  | proceed =>
    change proceedCatalog ats occurrenceKey before = some after at hstep
    unfold proceedCatalog at hstep
    split at hstep
    · next settings snapshot hrun =>
      cases hstep
      exact ⟨snapshot, by rw [hrun]; rfl, closes_reconciled hcloses⟩
    · cases hstep
      exact absurd hcloses ((KeepsActive.refl before.records).not_closes record)
    · cases hstep
      exact absurd hcloses ((KeepsActive.refl before.records).not_closes record)
    · cases hstep
      exact absurd hcloses ((keepsActive_ingest _ _ before.records).not_closes record)
    · cases hstep
      exact absurd hcloses ((keepsActive_mark _ _ before.records).not_closes record)
    · cases hstep
      exact absurd hcloses ((KeepsActive.refl before.records).not_closes record)
    · next snapshot hrun =>
      cases hstep
      exact ⟨snapshot, by rw [hrun]; rfl, closes_reconciled hcloses⟩
    · cases hstep
      exact absurd hcloses ((KeepsActive.refl before.records).not_closes record)
    · cases hstep
      exact absurd hcloses ((KeepsActive.refl before.records).not_closes record)
    · cases hstep
    · cases hstep

/-- The snapshot that is reconciled is complete and covered. -/
theorem CatalogOk.reconciles (hok : CatalogOk ats occurrenceKey state)
    {snapshot : SnapshotState} (hreconciles : state.run.reconciles = some snapshot) :
    snapshot.pending = true ∧ CoveredAt ats occurrenceKey state state.cursor snapshot := by
  have hrun := hok.run
  cases hphase : state.run with
  | settling settings found | closing found =>
    rw [hphase] at hrun hreconciles
    cases hreconciles
    exact hrun
  | _ =>
    rw [hphase] at hreconciles
    cases hreconciles

/-! ## Steady scans -/

/-- In every run whose pages are steady, an occurrence is closed by reconciling a snapshot,
and the source has not offered its posting from the beginning of the snapshot to its last
page. -/
theorem closes_absent (ats : Ats) (occurrenceKey : String → String)
    (hreach : (catalogSystem ats occurrenceKey).Reachable (SteadyScan ats) state)
    (hstep : (catalogSystem ats occurrenceKey).step state action after)
    {record : SourceRecord} (hcloses : Closes state.records after.records record) :
    ∃ snapshot, state.run.reconciles = some snapshot ∧
      ∀ id ∈ snapshot.present, occurrenceKey id ≠ record.occurrenceKey := by
  obtain ⟨snapshot, hreconciles, hmem, hearlier⟩ := closes_step hstep hcloses
  refine ⟨snapshot, hreconciles, fun id hid hkey => ?_⟩
  have hok := (catalogOk_invariant ats occurrenceKey).reachable hreach
  obtain ⟨hpending, hcovers⟩ := hok.reconciles hreconciles
  have hseen : snapshot.startedAt ≤ record.lastSeenAt :=
    hcovers.seen hpending hid record hmem hkey.symm
  exact absurd hearlier (not_lt.mpr hseen)

def sampleRow (id : String) : SourceRow where
  jobId := id
  title := "engineer"
  applyUrl := id
  listed := true

/-- Two postings on a page. -/
def sampleScan : ScanSettings where
  maxJobs := 2
  maxPages := 5
  matchesIntents := fun _ => true

/-- A page is read, ingested, marked and saved. -/
def scanPage : List CatalogAction :=
  [.fetch 2 0 false none none, .proceed, .proceed, .proceed]

/-- A scan of a list of three postings, and the first page of a second one. -/
def scanTwice : List CatalogAction :=
  [.begin sampleScan] ++ scanPage ++ scanPage ++ [.proceed, .proceed, .tick 10]

/-- The first posting of the list leaves it between the pages of the second scan. -/
def shrinkingScan : List CatalogAction :=
  scanTwice ++ [.begin sampleScan] ++ scanPage ++ [.change [sampleRow "b", sampleRow "c"]] ++
    scanPage

/-- The last posting of the list leaves it before the second scan. -/
def leavingScan : List CatalogAction :=
  scanTwice ++ [.change [sampleRow "a", sampleRow "b"], .begin sampleScan] ++ scanPage ++ scanPage

def sampleStart : CatalogState :=
  catalogStart 0 [sampleRow "a", sampleRow "b", sampleRow "c"]

instance (state : CatalogState) (snapshot : SnapshotState) (page : CatalogPage) :
    Decidable (SteadyPage ats state snapshot page) :=
  decidable_of_iff
    ((∀ row ∈ offeredNow ats state, accepts ats row = true) ∧
      (∀ id ∈ snapshot.present,
        id ∈ jobIds (state.cursor.origin.take state.cursor.offset) ∨
          id ∉ jobIds ((offeredNow ats state).take state.cursor.offset)) ∧
      (page.complete = true →
        (offeredNow ats state).length ≤ state.cursor.offset + page.rows.length) ∧
      (page.complete = false →
        page.cursor.offset ≤ state.cursor.offset + page.rows.length ∨
          (offeredNow ats state).length ≤ state.cursor.offset + page.rows.length))
    ⟨fun ⟨rows, order, last, between⟩ => ⟨rows, order, last, between⟩,
      fun ⟨rows, order, last, between⟩ => ⟨rows, order, last, between⟩⟩

/-- The guard of a steady scan, evaluated. -/
def steadyCheck (ats : Ats) (state : CatalogState) : CatalogAction → Bool
  | .fetch size totalFound notModified etag lastModified =>
    match state.run with
    | .scanning settings (some snapshot) _ =>
      match readPage ats state settings.maxJobs size totalFound notModified etag
          lastModified with
      | some page => page.restart || page.notModified ||
          decide (SteadyPage ats state snapshot page)
      | none => true
    | _ => true
  | _ => true

theorem steadyScan_of_check (state : CatalogState) (action : CatalogAction)
    (hcheck : steadyCheck ats state action = true) : SteadyScan ats state action := by
  cases action with
  | fetch size totalFound notModified etag lastModified =>
    intro settings snapshot pagesLeft page hrun hread hrestart hmodified
    simp only [steadyCheck, hrun, hread, hrestart, hmodified, Bool.false_or] at hcheck
    exact of_decide_eq_true hcheck
  | _ => trivial

def leavingEnd : CatalogState :=
  runEnd (performCatalog .lever id) (steadyCheck .lever) sampleStart leavingScan

/-- The last step of a steady scan closes the posting that has left the list. -/
theorem closes_absent_sample :
    ∃ snapshot, leavingEnd.run.reconciles = some snapshot ∧
      ∀ posting ∈ snapshot.present, id posting ≠ "c" := by
  have hreach : (catalogSystem .lever id).Reachable (SteadyScan .lever) leavingEnd := by
    apply runEnd_reachable
    · exact fun _ _ _ hstep => hstep
    · exact steadyScan_of_check
    · exact ⟨0, _, rfl⟩
  have hstep : (catalogSystem .lever id).step leavingEnd .proceed
      ((performCatalog .lever id leavingEnd .proceed).getD sampleStart) := by
    rfl
  have hcloses : Closes leavingEnd.records
      ((performCatalog .lever id leavingEnd .proceed).getD sampleStart).records
      ⟨"c", 0, none, true⟩ :=
    ⟨2, by decide, rfl, _, rfl, by decide⟩
  exact closes_absent .lever id hreach hstep hcloses

def shrinkingEnd : CatalogState :=
  runEnd (performCatalog .lever id) (fun _ _ => true) sampleStart shrinkingScan

/-- The last page of the shorter list is empty, and the scan closes a posting that was
offered from its beginning to its end. -/
theorem offered_posting_closed :
    (catalogSystem .lever id).Reachable anyScan shrinkingEnd ∧
      ∃ after record snapshot,
        (catalogSystem .lever id).step shrinkingEnd .proceed after ∧
          Closes shrinkingEnd.records after.records record ∧
          shrinkingEnd.run.reconciles = some snapshot ∧
          ∃ posting ∈ snapshot.present, id posting = record.occurrenceKey := by
  constructor
  · apply runEnd_reachable
    · exact fun _ _ _ hstep => hstep
    · exact fun _ _ _ => trivial
    · exact ⟨0, _, rfl⟩
  · refine ⟨(performCatalog .lever id shrinkingEnd .proceed).getD sampleStart,
      ⟨"c", 0, none, true⟩, ⟨10, true, ["b", "c"]⟩, rfl, ?_, by decide, "c", by decide, rfl⟩
    exact ⟨2, by decide, rfl, _, rfl, by decide⟩

end JobApplyAgent.Discovery
