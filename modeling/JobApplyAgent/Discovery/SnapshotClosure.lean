import JobApplyAgent.Discovery.CatalogRuns

/-!
# Only absent postings are closed

The invariant of the scanner: the durable cursor and the run rely on snapshots that are
covered.  In every run of steady pages an occurrence is closed only if the source did not
offer its posting all along; a list that shrinks between two pages closes a live one.
-/

namespace JobApplyAgent.Discovery

open Domain Library TransitionSystem

variable {ats : Ats} {occurrenceKey : String → String} {before : CatalogState}

variable (ats occurrenceKey)

/-- The occurrence of the posting was seen since the snapshot began. -/
def SeenIn (records : List SourceRecord) (snapshot : SnapshotState) (id : String) : Prop :=
  SeenSince records snapshot.startedAt (occurrenceKey id)

/-- The snapshot is covered at the cursor, with what the occurrences say. -/
abbrev CoveredAt (state : CatalogState) (cursor : CatalogCursor) (snapshot : SnapshotState) :
    Prop :=
  Covers state.now (jobIds (offeredNow ats state))
    (SeenIn occurrenceKey state.records snapshot) cursor snapshot

/-- The snapshot will be covered once the keys of the page are marked. -/
abbrev CoveredByPage (state : CatalogState) (page : CatalogPage) (snapshot : SnapshotState) :
    Prop :=
  Covers state.now (jobIds (offeredNow ats state))
    (fun id => SeenIn occurrenceKey state.records snapshot id ∨
      occurrenceKey id ∈ pageKeys ats occurrenceKey page.rows) page.cursor snapshot

/-- A page that was read but not yet saved. -/
structure ReadOk (state : CatalogState) (read : ReadPage) (snapshot : Option SnapshotState) :
    Prop where
  notLater : read.observedAt ≤ state.now
  durable : ∀ found ∈ state.cursor.snapshot, found.startedAt ≤ read.observedAt
  running : read.page.notModified = false → ∀ found ∈ snapshot,
    found.startedAt ≤ read.observedAt ∧ found.pending = read.page.complete ∧
      CoveredByPage ats occurrenceKey state read.page found

def CatalogRunOk (state : CatalogState) : CatalogRun → Prop
  | .idle | .clearing _ | .finishing => True
  | .settling _ snapshot | .closing snapshot =>
    snapshot.pending = true ∧ CoveredAt ats occurrenceKey state state.cursor snapshot
  | .scanning _ snapshot _ => ∀ found ∈ snapshot,
      found.pending = false ∧ CoveredAt ats occurrenceKey state state.cursor found
  | .restarting _ cursor _ => cursor.offset = 0
  | .ingesting _ read snapshot _ | .marking _ read snapshot _ =>
    ReadOk ats occurrenceKey state read snapshot
  | .saving _ read snapshot _ => read.page.notModified = false → ∀ found ∈ snapshot,
      found.pending = read.page.complete ∧
        CoveredAt ats occurrenceKey state read.page.cursor found

structure CatalogOk (state : CatalogState) : Prop where
  durable : ∀ found ∈ state.cursor.snapshot,
    CoveredAt ats occurrenceKey state state.cursor found
  run : CatalogRunOk ats occurrenceKey state state.run

variable {ats occurrenceKey}

theorem CatalogOk.idle (hok : CatalogOk ats occurrenceKey state) :
    CatalogOk ats occurrenceKey { state with run := .idle } :=
  ⟨hok.durable, trivial⟩

variable {run : CatalogRun}
  {read : ReadPage}

theorem CatalogRunOk.withRun (hrun : CatalogRunOk ats occurrenceKey state run) :
    CatalogRunOk ats occurrenceKey { state with run := other } run := by
  cases run with
  | ingesting settings read snapshot pagesLeft | marking settings read snapshot pagesLeft =>
    exact ⟨hrun.notLater, hrun.durable, hrun.running⟩
  | _ => exact hrun

/-- A later clock keeps what is covered. -/
theorem CatalogOk.later (hok : CatalogOk ats occurrenceKey state)
    (hnow : state.now ≤ now) :
    CatalogOk ats occurrenceKey { state with now := now } := by
  refine ⟨fun found hfound => (hok.durable found hfound).mono hnow fun _ hseen => hseen, ?_⟩
  have hrun := hok.run
  change CatalogRunOk ats occurrenceKey { state with now := now } state.run
  cases hphase : state.run with
  | idle | clearing settings | finishing => trivial
  | settling settings snapshot =>
    rw [hphase] at hrun
    exact ⟨hrun.1, hrun.2.mono hnow fun _ hseen => hseen⟩
  | closing snapshot =>
    rw [hphase] at hrun
    exact ⟨hrun.1, hrun.2.mono hnow fun _ hseen => hseen⟩
  | scanning settings snapshot pagesLeft =>
    rw [hphase] at hrun
    exact fun found hfound =>
      ⟨(hrun found hfound).1, (hrun found hfound).2.mono hnow fun _ hseen => hseen⟩
  | restarting settings cursor pagesLeft =>
    rw [hphase] at hrun
    exact hrun
  | ingesting settings read snapshot pagesLeft | marking settings read snapshot pagesLeft =>
    rw [hphase] at hrun
    refine ⟨hrun.notLater.trans hnow, hrun.durable, fun hmodified found hfound => ?_⟩
    obtain ⟨hstarted, hpending, hcovers⟩ := hrun.running hmodified found hfound
    exact ⟨hstarted, hpending, hcovers.mono hnow fun _ hseen => hseen⟩
  | saving settings read snapshot pagesLeft =>
    rw [hphase] at hrun
    intro hmodified found hfound
    obtain ⟨hpending, hcovers⟩ := hrun hmodified found hfound
    exact ⟨hpending, hcovers.mono hnow fun _ hseen => hseen⟩

@[simp]
theorem follow_pending (ids : List String) (snapshot : SnapshotState) :
    (snapshot.follow ids).pending = snapshot.pending := by
  unfold SnapshotState.follow
  split <;> rfl

@[simp]
theorem follow_startedAt (ids : List String) (snapshot : SnapshotState) :
    (snapshot.follow ids).startedAt = snapshot.startedAt := by
  unfold SnapshotState.follow
  split <;> rfl

theorem seenIn_follow (records : List SourceRecord) (ids : List String)
    (snapshot : SnapshotState) :
    SeenIn occurrenceKey records (snapshot.follow ids) =
      SeenIn occurrenceKey records snapshot := by
  unfold SeenIn
  rw [follow_startedAt]

theorem follow_of_pending {snapshot : SnapshotState} (hpending : snapshot.pending = true)
    (ids : List String) : snapshot.follow ids = snapshot := by
  unfold SnapshotState.follow
  rw [if_pos hpending]

theorem CatalogOk.change (hok : CatalogOk ats occurrenceKey state) (source : List SourceRow) :
    CatalogOk ats occurrenceKey { state with
      source := source
      cursor := state.cursor.follow (jobIds (offered ats source))
      run := state.run.follow (jobIds (offered ats source)) } := by
  have hrun := hok.run
  have hfollow : ∀ {cursor : CatalogCursor} {found : SnapshotState},
      CoveredAt ats occurrenceKey state cursor found →
        Covers state.now (jobIds (offered ats source))
          (SeenIn occurrenceKey state.records (found.follow (jobIds (offered ats source))))
          cursor (found.follow (jobIds (offered ats source))) := by
    intro cursor found hcovers
    rw [seenIn_follow]
    exact hcovers.follow
  constructor
  · intro found hfound
    obtain ⟨old, hold, rfl⟩ := Option.map_eq_some_iff.mp hfound
    exact (hfollow (hok.durable old hold)).at_cursor rfl rfl
  change CatalogRunOk ats occurrenceKey _ (state.run.follow (jobIds (offered ats source)))
  cases hphase : state.run with
  | idle | clearing settings | finishing => trivial
  | settling settings snapshot | closing snapshot =>
    rw [hphase] at hrun
    refine ⟨hrun.1, ?_⟩
    have hcovers := hfollow hrun.2
    rw [follow_of_pending hrun.1] at hcovers
    exact hcovers.at_cursor rfl rfl
  | scanning settings snapshot pagesLeft =>
    rw [hphase] at hrun
    intro found hfound
    obtain ⟨old, hold, rfl⟩ := Option.map_eq_some_iff.mp hfound
    exact ⟨(follow_pending _ old).trans (hrun old hold).1,
      (hfollow (hrun old hold).2).at_cursor rfl rfl⟩
  | restarting settings cursor pagesLeft =>
    rw [hphase] at hrun
    exact hrun
  | ingesting settings read snapshot pagesLeft | marking settings read snapshot pagesLeft =>
    rw [hphase] at hrun
    refine ⟨hrun.notLater, ?_, ?_⟩
    · intro found hfound
      obtain ⟨old, hold, rfl⟩ := Option.map_eq_some_iff.mp hfound
      rw [follow_startedAt]
      exact hrun.durable old hold
    · intro hmodified found hfound
      obtain ⟨old, hold, rfl⟩ := Option.map_eq_some_iff.mp hfound
      obtain ⟨hstarted, hpending, hcovers⟩ := hrun.running hmodified old hold
      refine ⟨?_, (follow_pending _ old).trans hpending, ?_⟩
      · rwa [follow_startedAt]
      · unfold CoveredByPage
        rw [seenIn_follow]
        exact hcovers.follow
  | saving settings read snapshot pagesLeft =>
    rw [hphase] at hrun
    intro hmodified found hfound
    obtain ⟨old, hold, rfl⟩ := Option.map_eq_some_iff.mp hfound
    obtain ⟨hpending, hcovers⟩ := hrun hmodified old hold
    exact ⟨(follow_pending _ old).trans hpending, hfollow hcovers⟩

theorem currentSnapshot_ok (hcursor : ∀ found ∈ cursor.snapshot, found.pending = false ∧
      CoveredAt ats occurrenceKey state cursor found) :
    ∀ found ∈ currentSnapshot ats state cursor, found.pending = false ∧
      CoveredAt ats occurrenceKey state cursor found := by
  intro found hfound
  unfold currentSnapshot at hfound
  split at hfound
  · next hstart =>
    cases hfound
    exact ⟨rfl, beginSnapshot_covers _ hstart.1⟩
  · exact hcursor found hfound

theorem CatalogOk.begin (hok : CatalogOk ats occurrenceKey before)
    (hstep : performCatalog ats occurrenceKey before (.begin settings) = some after) :
    CatalogOk ats occurrenceKey after := by
  simp only [performCatalog] at hstep
  split at hstep
  · split at hstep
    · next snapshot hsnapshot =>
      have hcovers := hok.durable snapshot hsnapshot
      split at hstep
      · next hpending =>
        cases hstep
        exact ⟨hok.durable, hpending, hcovers⟩
      · next hopen =>
        cases hstep
        refine ⟨hok.durable, ?_⟩
        rintro found ⟨⟩
        exact ⟨by simpa using hopen, hcovers⟩
    · next hnone =>
      cases hstep
      refine ⟨hok.durable, currentSnapshot_ok ?_⟩
      rw [hnone]
      rintro found ⟨⟩
  · cases hstep

theorem restartCursor_offset
    (hread : readPage ats state maxJobs size totalFound notModified etag lastModified =
      some page) (hrestart : page.restart = true) : page.cursor.offset = 0 := by
  have hwhole : ∀ response, (fetchWholeList ats state.cursor response maxJobs).restart = true →
      (fetchWholeList ats state.cursor response maxJobs).cursor.offset = 0 := by
    intro response hrestart
    unfold fetchWholeList at hrestart ⊢
    simp only at hrestart ⊢
    split
    · rfl
    next hsame =>
    rw [if_neg hsame] at hrestart
    split at hrestart <;> cases hrestart
  have hslice : ∀ source response limit complete,
      fetchSlice state.cursor source response limit complete = some page → False := by
    intro source response limit complete hfetch
    unfold fetchSlice at hfetch
    split at hfetch
    · cases hfetch
    cases hfetch
    cases hrestart
  unfold readPage at hread
  cases ats with
  | greenhouse =>
    cases hread
    exact hwhole _ hrestart
  | ashby =>
    cases hread
    exact hwhole _ hrestart
  | lever => exact (hslice _ _ _ _ hread).elim
  | smartrecruiters => exact (hslice _ _ _ _ hread).elim

theorem afterFetch_restart (hrestart : page.restart = true) :
    afterFetch state settings snapshot pagesLeft (some page) =
      .restarting settings page.cursor pagesLeft :=
  if_pos hrestart

theorem afterFetch_page (hrestart : page.restart = false) :
    afterFetch state settings snapshot pagesLeft (some page) =
      .ingesting settings ⟨page, state.now⟩
        (snapshot.map fun snapshot => { snapshot with pending := page.complete }) pagesLeft :=
  if_neg (by simp [hrestart])

theorem CatalogOk.fetch (hok : CatalogOk ats occurrenceKey before)
    (hsteady : SteadyScan ats before (.fetch size totalFound notModified etag lastModified))
    (hstep : performCatalog ats occurrenceKey before
      (.fetch size totalFound notModified etag lastModified) = some after) :
    CatalogOk ats occurrenceKey after := by
  simp only [performCatalog] at hstep
  split at hstep
  · next settings snapshot pagesLeft hrun =>
    cases hstep
    have hscan := hok.run
    rw [hrun] at hscan
    refine ⟨hok.durable, CatalogRunOk.withRun ?_⟩
    cases hread : readPage ats before settings.maxJobs size totalFound notModified etag
        lastModified with
    | none => trivial
    | some page =>
      change CatalogRunOk ats occurrenceKey before
        (afterFetch before settings snapshot pagesLeft (some page))
      cases hrestart : page.restart with
      | true =>
        rw [afterFetch_restart hrestart]
        exact restartCursor_offset hread hrestart
      | false =>
        rw [afterFetch_page hrestart]
        refine ⟨le_rfl, fun found hfound => (hok.durable found hfound).started, ?_⟩
        intro hmodified found hfound
        obtain ⟨old, rfl, rfl⟩ := Option.map_eq_some_iff.mp hfound
        obtain ⟨hopen, hcovers⟩ := hscan old rfl
        have hpage := hsteady settings old (pagesLeft + 1) page hrun hread hrestart
          hmodified
        exact ⟨hcovers.started, rfl, hcovers.read hopen hread hrestart hmodified hpage⟩
  · cases hstep

/-! ## The other steps of a run -/

section

variable (hok : CatalogOk ats occurrenceKey state)
include hok

/-- Occurrences that are seen at least as late keep what the durable cursor relies on. -/
theorem CatalogOk.records {records : List SourceRecord}
    (hseen : ∀ found ∈ state.cursor.snapshot, ∀ id,
      SeenIn occurrenceKey state.records found id → SeenIn occurrenceKey records found id)
    (hrun : CatalogRunOk ats occurrenceKey { state with records := records } run) :
    CatalogOk ats occurrenceKey { state with records := records, run := run } := by
  refine ⟨fun found hfound => ?_, hrun.withRun⟩
  exact (hok.durable found hfound).mono le_rfl fun id hid => hseen found hfound id hid

theorem CatalogOk.ingesting (hrun : state.run = .ingesting settings read snapshot pagesLeft)
    (keys : List String) :
    CatalogOk ats occurrenceKey { state with
      records := ingestPage read.observedAt keys state.records
      run := .marking settings read snapshot pagesLeft } := by
  have hread := hok.run
  rw [hrun] at hread
  apply hok.records
  · exact fun found hfound id hid => hid.ingest (hread.durable found hfound) keys
  · refine ⟨hread.notLater, hread.durable, fun hmodified found hfound => ?_⟩
    obtain ⟨hstarted, hpending, hcovers⟩ := hread.running hmodified found hfound
    refine ⟨hstarted, hpending, hcovers.mono le_rfl fun id hid => ?_⟩
    exact hid.imp_left fun hseen => hseen.ingest hstarted keys

theorem CatalogOk.marking (hrun : state.run = .marking settings read snapshot pagesLeft) :
    CatalogOk ats occurrenceKey { state with
      records := markSnapshotOccurrencesSeen state.now
        (pageKeys ats occurrenceKey read.page.rows) state.records
      run := .saving settings read snapshot pagesLeft } := by
  have hread := hok.run
  rw [hrun] at hread
  apply hok.records
  · exact fun found _ id hid => hid.mark _ _
  · intro hmodified found hfound
    obtain ⟨hstarted, hpending, hcovers⟩ := hread.running hmodified found hfound
    refine ⟨hpending, hcovers.mono le_rfl fun id hid => ?_⟩
    rcases hid with hseen | hkey
    · exact hseen.mark _ _
    · exact seenSince_marked hkey (hstarted.trans hread.notLater)

/-- Reconciling closes occurrences and changes nothing about when they were seen. -/
theorem CatalogOk.reconciled (startedAt : Timestamp)
    (hrun : CatalogRunOk ats occurrenceKey { state with
      records := reconcileSourceSnapshot startedAt state.now state.records } run) :
    CatalogOk ats occurrenceKey { state with
      records := reconcileSourceSnapshot startedAt state.now state.records
      run := run } :=
  hok.records (fun _ _ _ hid => hid.reconcile _ _) hrun

end

/-- A saved cursor with the snapshot that it is covered for. -/
theorem catalogOk_saved
    (hdurable : ∀ found ∈ cursor.snapshot, CoveredAt ats occurrenceKey state cursor found)
    (hrun : CatalogRunOk ats occurrenceKey { state with cursor := cursor } run) :
    CatalogOk ats occurrenceKey { state with cursor := cursor, run := run } :=
  ⟨hdurable, hrun.withRun⟩

theorem CatalogOk.saving (hok : CatalogOk ats occurrenceKey state)
    (hrun : state.run = .saving settings read snapshot pagesLeft) :
    CatalogOk ats occurrenceKey { state with
      cursor := savedCursor read.page snapshot
      run := afterPage settings read.page snapshot pagesLeft } := by
  have hread := hok.run
  rw [hrun] at hread
  cases hmodified : read.page.notModified with
  | true =>
    apply catalogOk_saved
    · intro found hfound
      simp [savedCursor, hmodified] at hfound
    · unfold afterPage
      rw [if_pos hmodified]
      trivial
  | false =>
    have hcovers : ∀ found ∈ snapshot, found.pending = read.page.complete ∧
        CoveredAt ats occurrenceKey state (savedCursor read.page snapshot) found := by
      intro found hfound
      obtain ⟨hpending, hcovers⟩ := hread hmodified found hfound
      exact ⟨hpending, hcovers.at_cursor rfl rfl⟩
    have hsnapshot : (savedCursor read.page snapshot).snapshot = snapshot := by
      simp [savedCursor, hmodified]
    apply catalogOk_saved
    · intro found hfound
      rw [hsnapshot] at hfound
      exact (hcovers found hfound).2
    · unfold afterPage
      rw [if_neg (by simp [hmodified])]
      split
      · next hcomplete =>
        cases hsnap : snapshot with
        | none => trivial
        | some found =>
          subst hsnap
          obtain ⟨hpending, hcovers⟩ := hcovers found rfl
          exact ⟨hpending.trans hcomplete, hcovers⟩
      · next hmore =>
        intro found hfound
        obtain ⟨hpending, hcovers⟩ := hcovers found hfound
        exact ⟨hpending.trans (by simpa using hmore), hcovers⟩

theorem CatalogOk.proceed (hok : CatalogOk ats occurrenceKey before)
    (hstep : proceedCatalog ats occurrenceKey before = some after) :
    CatalogOk ats occurrenceKey after := by
  have hrun := hok.run
  unfold proceedCatalog at hstep
  split at hstep
  · cases hstep
    exact hok.reconciled _ trivial
  · cases hstep
    apply catalogOk_saved
    · rintro found ⟨⟩
    · intro found hfound
      have hnone : ∀ found ∈ ({ before.cursor with snapshot := none } : CatalogCursor).snapshot,
          found.pending = false ∧
            CoveredAt ats occurrenceKey before { before.cursor with snapshot := none } found := by
        rintro found ⟨⟩
      exact currentSnapshot_ok hnone found hfound
  · next settings cursor pagesLeft hphase =>
    cases hstep
    rw [hphase] at hrun
    apply catalogOk_saved
    · rintro found ⟨⟩
      exact beginSnapshot_covers _ hrun
    · rintro found ⟨⟩
      exact ⟨rfl, beginSnapshot_covers _ hrun⟩
  · next hphase =>
    cases hstep
    exact hok.ingesting hphase _
  · next hphase =>
    cases hstep
    exact hok.marking hphase
  · next hphase =>
    cases hstep
    exact hok.saving hphase
  · cases hstep
    exact hok.reconciled _ trivial
  · cases hstep
    apply catalogOk_saved
    · rintro found ⟨⟩
    · trivial
  · cases hstep
    exact hok.idle
  · cases hstep
  · cases hstep

theorem CatalogOk.step (hok : CatalogOk ats occurrenceKey before)
    (hsteady : SteadyScan ats before action)
    (hstep : performCatalog ats occurrenceKey before action = some after) :
    CatalogOk ats occurrenceKey after := by
  cases action with
  | tick elapsed =>
    cases hstep
    apply hok.later
    have helapsed : (0 : ℤ) ≤ elapsed := Int.natCast_nonneg _
    unfold Timestamp at *
    omega
  | change source =>
    cases hstep
    exact hok.change source
  | begin settings => exact hok.begin hstep
  | fetch size totalFound notModified etag lastModified => exact hok.fetch hsteady hstep
  | proceed => exact hok.proceed hstep
  | fail =>
    cases hstep
    exact hok.idle

theorem catalogOk_invariant (ats : Ats) (occurrenceKey : String → String) :
    (catalogSystem ats occurrenceKey).Invariant (SteadyScan ats)
      (CatalogOk ats occurrenceKey) where
  init := by
    rintro state ⟨now, source, rfl⟩
    refine ⟨?_, trivial⟩
    rintro found ⟨⟩
  step := fun _ _ _ hok hsteady hstep => hok.step hsteady hstep

end JobApplyAgent.Discovery
