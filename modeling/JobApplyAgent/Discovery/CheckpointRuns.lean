import JobApplyAgent.Discovery.Checkpoint

/-!
# A checkpoint hides nothing

Every checkpoint, saved or in the hands of a run, tells which rows of the board have an
occurrence if the intents want them.  This is kept as long as a run saves its checkpoint
under the intents that it read; a run that outlives an activation saves one that hides
postings which the new intents want.
-/

namespace JobApplyAgent.Discovery

open Domain Library TransitionSystem

variable {τ : Type*} {ats : Ats} {occurrenceKey : String → String}
  {matchesIntents : List τ → SourceRow → Bool} {payloadDigest : List τ → String}
  {state : CheckpointState τ}

/-! ## Occurrences are kept -/

section Records

variable {records : List SourceRecord}

def HasOccurrence (records : List SourceRecord) (key : String) : Prop :=
  ∃ record ∈ records, record.occurrenceKey = key

section

variable (hhas : HasOccurrence records key)
include hhas

theorem HasOccurrence.map (hkey : ∀ record, (change record).occurrenceKey = record.occurrenceKey) :
    HasOccurrence (records.map change) key := by
  obtain ⟨record, hmem, hsame⟩ := hhas
  exact ⟨change record, List.mem_map_of_mem hmem, (hkey record).trans hsame⟩

theorem HasOccurrence.mark (seenAt : Timestamp)
    (keys : List String) : HasOccurrence (markSnapshotOccurrencesSeen seenAt keys records) key := by
  apply hhas.map
  intro record
  split <;> rfl

theorem HasOccurrence.reconcile (startedAt closedAt : Timestamp) :
    HasOccurrence (reconcileSourceSnapshot startedAt closedAt records) key := by
  apply hhas.map
  intro record
  split <;> rfl

theorem HasOccurrence.observe (observedAt : Timestamp)
    (posting : String) : HasOccurrence (observeRecord observedAt records posting) key := by
  unfold observeRecord
  split
  · apply hhas.map
    intro record
    split <;> rfl
  · obtain ⟨record, hmem, hsame⟩ := hhas
    exact ⟨record, List.mem_append_left _ hmem, hsame⟩

end

theorem hasOccurrence_observe (observedAt : Timestamp) (records : List SourceRecord)
    (key : String) : HasOccurrence (observeRecord observedAt records key) key := by
  unfold observeRecord
  split
  · next hfound =>
    obtain ⟨record, hmem, hsame⟩ := List.any_eq_true.mp hfound
    rw [decide_eq_true_eq] at hsame
    apply HasOccurrence.map ⟨record, hmem, hsame⟩
    intro record
    split <;> rfl
  · exact ⟨_, List.mem_append_right _ (List.mem_singleton_self _), rfl⟩

end Records

/-! ## Revisions -/

theorem currentRevision_mem (hcurrent : currentRevision revisions = some revision) :
    revision ∈ revisions :=
  (List.mem_filter.mp (latestBy_mem hcurrent)).1

theorem version_le_latestVersion (hmem : revision ∈ revisions) :
    revision.version ≤ latestVersion revisions := by
  unfold latestVersion
  cases hlatest : latestBy SearchIntentRevision.version revisions with
  | none =>
    rw [latestBy_eq_none_iff.mp hlatest] at hmem
    cases hmem
  | some latest => exact number_le_latestBy hmem hlatest

theorem currentRevision_nextRevisions (revisions : List (SearchIntentRevision τ))
    (intents : List τ) :
    currentRevision (nextRevisions revisions intents) =
      some ⟨latestVersion revisions + 1, intents, true⟩ := by
  have hnone : (revisions.map SearchIntentRevision.deactivate).filter
      SearchIntentRevision.active = [] := by
    rw [List.filter_eq_nil_iff]
    intro revision hrevision
    obtain ⟨old, _, rfl⟩ := List.mem_map.mp hrevision
    exact Bool.false_ne_true
  unfold currentRevision nextRevisions
  rw [List.filter_append, hnone]
  rfl

theorem latestVersion_nextRevisions (revisions : List (SearchIntentRevision τ))
    (intents : List τ) :
    latestVersion (nextRevisions revisions intents) = latestVersion revisions + 1 := by
  have hmap : latestBy SearchIntentRevision.version
      (revisions.map SearchIntentRevision.deactivate) =
        (latestBy SearchIntentRevision.version revisions).map
          SearchIntentRevision.deactivate := by
    apply latestBy_map
    intro revision
    rfl
  unfold nextRevisions
  rw [latestVersion, latestBy_concat, hmap]
  unfold latestVersion
  cases latestBy SearchIntentRevision.version revisions with
  | none => rfl
  | some latest =>
    have hle : latest.deactivate.version ≤ latest.version + 1 := Nat.le_succ _
    simp only [Option.map_some, Option.getD_some, hle, ↓reduceIte]

/-! ## Checkpoints -/

variable (ats occurrenceKey matchesIntents)

/-- A row that the intents want has an occurrence. -/
def StoredIfWanted (records : List SourceRecord) (intents : List τ) (row : SourceRow) : Prop :=
  wantedRow ats matchesIntents intents row = true →
    HasOccurrence records (occurrenceKey row.jobId)

abbrev CheckpointGood (listings : List (String × List SourceRow)) (records : List SourceRecord)
    (intents : List τ) (postings : List SourceRow) (cursor : CatalogCursor) : Prop :=
  Checkpointed listings
    (fun row =>
      StoredIfWanted ats occurrenceKey matchesIntents records intents row ∨ row ∈ postings)
    cursor.etag cursor.offset

/-- A page that was read: its checkpoint, and what a page that ends the run has seen. -/
structure PageGood (listings : List (String × List SourceRow)) (records : List SourceRecord)
    (intents : List τ) (postings answered : List SourceRow) (page : CatalogPage) : Prop where
  cursor : CheckpointGood ats occurrenceKey matchesIntents listings records intents postings
    page.cursor
  last : page.complete = true → ∀ row ∈ answered,
    StoredIfWanted ats occurrenceKey matchesIntents records intents row ∨ row ∈ postings
  unchanged : page.notModified = true → page.complete = true

/-- What a run under the current intents relies on in a phase. -/
def ScanGood (listings : List (String × List SourceRow)) (records : List SourceRecord)
    (run : ScanRun τ) : ScanPhase → Prop
  | .loading => True
  | .settling _ | .clearing | .scanning =>
    CheckpointGood ats occurrenceKey matchesIntents listings records run.intents [] run.cursor
  | .restarting cursor => cursor.etag = none ∧ cursor.offset = 0
  | .ingesting postings read =>
    PageGood ats occurrenceKey matchesIntents listings records run.intents postings
      run.answered read.page
  | .marking read | .saving read =>
    PageGood ats occurrenceKey matchesIntents listings records run.intents [] run.answered
      read.page
  | .closing _ | .finishing =>
    CheckpointGood ats occurrenceKey matchesIntents listings records run.intents [] run.cursor ∧
      ∀ row ∈ run.answered,
        StoredIfWanted ats occurrenceKey matchesIntents records run.intents row
  | .ended =>
    ∀ row ∈ run.answered,
      StoredIfWanted ats occurrenceKey matchesIntents records run.intents row

structure CheckpointOk (state : CheckpointState τ) : Prop where
  identifies : Identifies state.listings
  listed : (state.etag, offered ats state.source) ∈ state.listings
  durable : ∀ cursor revision, state.cursor = some cursor →
    currentRevision state.revisions = some revision →
      CheckpointGood ats occurrenceKey matchesIntents state.listings state.records
        revision.intents [] cursor
  pending : ∀ pending, state.activation = some pending →
    pending.deletesCursor = state.cursor.isSome
  versions : ∀ place run, state.runs.entry place = some run →
    run.version ≤ latestVersion state.revisions
  runs : ∀ place run revision, state.runs.entry place = some run →
    currentRevision state.revisions = some revision → run.version = revision.version →
      run.intents = revision.intents ∧
        ScanGood ats occurrenceKey matchesIntents state.listings state.records run run.phase

variable {ats occurrenceKey matchesIntents}

/-! ## Pages -/

section Pages

variable {listings : List (String × List SourceRow)} {records : List SourceRecord}

theorem StoredIfWanted.mono
    (hstored : StoredIfWanted ats occurrenceKey matchesIntents records intents row)
    (hkept : ∀ key, HasOccurrence records key → HasOccurrence later key) :
    StoredIfWanted ats occurrenceKey matchesIntents later intents row :=
  fun hwanted => hkept _ (hstored hwanted)

theorem CheckpointGood.kept
    (hgood : CheckpointGood ats occurrenceKey matchesIntents listings records intents postings
      cursor)
    (hkept : ∀ key, HasOccurrence records key → HasOccurrence later key) :
    CheckpointGood ats occurrenceKey matchesIntents listings later intents postings cursor :=
  hgood.mono fun _ hrow => hrow.imp_left fun hstored => hstored.mono hkept

theorem PageGood.kept
    (hgood : PageGood ats occurrenceKey matchesIntents listings records intents postings answered
      page)
    (hkept : ∀ key, HasOccurrence records key → HasOccurrence later key) :
    PageGood ats occurrenceKey matchesIntents listings later intents postings answered page where
  cursor := CheckpointGood.kept hgood.cursor hkept
  last := fun hcomplete row hrow =>
    (hgood.last hcomplete row hrow).imp_left fun hstored => hstored.mono hkept
  unchanged := hgood.unchanged

variable {phase : ScanPhase}

theorem ScanGood.kept (hgood : ScanGood ats occurrenceKey matchesIntents listings records run phase)
    (hkept : ∀ key, HasOccurrence records key → HasOccurrence later key) :
    ScanGood ats occurrenceKey matchesIntents listings later run phase := by
  cases phase with
  | loading | restarting => exact hgood
  | settling | clearing | scanning => exact CheckpointGood.kept hgood hkept
  | ingesting | marking | saving => exact PageGood.kept hgood hkept
  | closing | finishing =>
    exact ⟨CheckpointGood.kept hgood.1 hkept, fun row hrow => (hgood.2 row hrow).mono hkept⟩
  | ended => exact fun row hrow => (hgood row hrow).mono hkept

/-- A new list of the board keeps what a run relies on. -/
theorem ScanGood.listed
    (hgood : ScanGood ats occurrenceKey matchesIntents listings records run phase)
    (hidentifies : Identifies (listings ++ [listing])) :
    ScanGood ats occurrenceKey matchesIntents (listings ++ [listing]) records run phase := by
  cases phase with
  | loading | restarting | ended => exact hgood
  | settling | clearing | scanning => exact Checkpointed.concat hgood hidentifies
  | ingesting | marking | saving =>
    exact ⟨hgood.cursor.concat hidentifies, hgood.last, hgood.unchanged⟩
  | closing | finishing => exact ⟨hgood.1.concat hidentifies, hgood.2⟩

/-- Once a posting is ingested it need not be in hand. -/
theorem PageGood.ingest (hgood : PageGood ats occurrenceKey matchesIntents listings records intents
      (posting :: postings) answered page) :
    PageGood ats occurrenceKey matchesIntents listings
      (observeRecord observedAt records (occurrenceKey posting.jobId)) intents postings answered
      page := by
  have hrow : ∀ row, StoredIfWanted ats occurrenceKey matchesIntents records intents row ∨
      row ∈ posting :: postings →
        StoredIfWanted ats occurrenceKey matchesIntents
          (observeRecord observedAt records (occurrenceKey posting.jobId)) intents row ∨
        row ∈ postings := by
    intro row hrow
    rcases hrow with hstored | hmem
    · exact .inl (hstored.mono fun key hkey => hkey.observe observedAt _)
    · rcases List.mem_cons.mp hmem with rfl | hmem
      · exact .inl fun _ => hasOccurrence_observe observedAt records _
      · exact .inr hmem
  exact ⟨hgood.cursor.mono hrow, fun hcomplete row hanswered =>
    hrow row (hgood.last hcomplete row hanswered), hgood.unchanged⟩

theorem steady_validator (hcheck : Checkpointed listings done cursor.etag cursor.offset)
    (hetag : response.etag = some etag) (hsteady : ¬snapshotChanged cursor response = true) :
    cursor.offset = 0 ∨ cursor.etag = some etag := by
  by_cases hoffset : cursor.offset = 0
  · exact .inl hoffset
  right
  cases hknown : cursor.etag with
  | none => exact absurd (hcheck.start hknown) hoffset
  | some known =>
    simp only [snapshotChanged, hknown, hetag, validatorsDiffer, bne_iff_ne, ne_eq, hoffset,
      not_false_eq_true, Bool.and_eq_true, Bool.or_eq_true, true_and, not_or,
      not_not] at hsteady
    rw [hsteady.1]

/-- What a board that delivers its whole list gives for a good checkpoint: it is read from
the start, or the next page is good. -/
theorem fetchWholeList_good (hcheck : Checkpointed listings done cursor.etag cursor.offset)
    (hidentifies : Identifies listings) (hlisted : (etag, offered ats source) ∈ listings)
    (hetag : response.etag = some etag)
    (hunchanged : response.notModified = true → cursor.offset = 0 ∧ cursor.etag = some etag)
    (hrows : response.notModified = false → response.rows = source) (hjobs : 0 < maxJobs)
    (hpage : fetchWholeList ats cursor response maxJobs = page) :
    page.restart = true ∧ page.cursor = .empty ∨
      page.restart = false ∧
        Checkpointed listings (fun row => done row ∨ row ∈ page.rows) page.cursor.etag
          page.cursor.offset ∧
        (page.complete = true → ∀ row ∈ offered ats source, done row ∨ row ∈ page.rows) ∧
        (page.notModified = true → page.complete = true) := by
  subst hpage
  unfold fetchWholeList
  split
  · exact .inl ⟨rfl, rfl⟩
  next hsteady =>
  right
  have hsame := steady_validator hcheck hetag hsteady
  split
  · next hmodified =>
    obtain ⟨hoffset, hknown⟩ := hunchanged hmodified
    rw [hknown, hoffset] at hcheck
    simp only [hetag, Option.some_or, hoffset, List.not_mem_nil, or_false]
    exact ⟨trivial, hcheck, fun _ => hcheck.whole hlisted, fun _ => trivial⟩
  · next hmodified =>
    simp only [hetag, Option.some_or, hrows (Bool.eq_false_iff.mpr hmodified),
      decide_eq_true_eq]
    have hwindow := hcheck.window hlisted hsame maxJobs
    refine ⟨trivial, ?_, fun hcomplete => ?_, by simp⟩
    · split
      · next hcomplete =>
        rw [List.take_of_length_le hcomplete] at hwindow
        exact .of_all hidentifies hlisted hwindow
      · next hmore =>
        apply Checkpointed.of_take hidentifies hlisted _ hwindow
        rw [List.length_take, List.length_drop] at *
        omega
    · rw [List.take_of_length_le hcomplete] at hwindow
      exact hwindow

end Pages

/-! ## Steps -/

theorem checkpointOk_start (now : Timestamp) (source : List SourceRow) (etag : String) :
    CheckpointOk ats occurrenceKey matchesIntents (checkpointStart ats now source etag) where
  identifies := identifies_singleton etag (offered ats source)
  listed := List.mem_singleton_self _
  durable := fun _ _ hcursor => nomatch hcursor
  pending := fun _ hpending => nomatch hpending
  versions := fun _ _ hentry => nomatch hentry
  runs := fun _ _ _ hentry => nomatch hentry

theorem CheckpointOk.change (hok : CheckpointOk ats occurrenceKey matchesIntents state)
    (hstep : changeSource ats state source etag = some after) :
    CheckpointOk ats occurrenceKey matchesIntents after := by
  unfold changeSource at hstep
  split at hstep
  · next hnew =>
    cases hstep
    have hidentifies : Identifies (state.listings ++ [(etag, offered ats source)]) :=
      hok.identifies.concat fun other hother => hnew.2 _ hother rfl
    exact
      { identifies := hidentifies
        listed := List.mem_append_right _ (List.mem_singleton_self _)
        durable := fun cursor revision hcursor hcurrent =>
          (hok.durable cursor revision hcursor hcurrent).concat hidentifies
        pending := hok.pending
        versions := hok.versions
        runs := fun place run revision hentry hcurrent hversion =>
          (hok.runs place run revision hentry hcurrent hversion).imp_right fun hgood =>
            hgood.listed hidentifies }
  · cases hstep

variable {records : List SourceRecord}

section

variable (hok : CheckpointOk ats occurrenceKey matchesIntents state)
include hok

theorem CheckpointOk.activate
    (hstep : activateSearchIntents payloadDigest state intents = some after) :
    CheckpointOk ats occurrenceKey matchesIntents after := by
  unfold activateSearchIntents at hstep
  split at hstep
  · cases hstep
  split at hstep <;> cases hstep
  · exact hok
  · exact { hok with pending := fun pending hpending => by cases hpending; rfl }

/-- An activation leaves no checkpoint, and no run under the new intents. -/
theorem CheckpointOk.commit (hstep : commitActivation state = some after) :
    CheckpointOk ats occurrenceKey matchesIntents after := by
  obtain ⟨pending, hpending, rfl⟩ := Option.map_eq_some_iff.mp hstep
  have hcursor : (if pending.deletesCursor then none else state.cursor) = none := by
    rw [hok.pending pending hpending]
    cases state.cursor <;> rfl
  have hversions := hok.versions
  refine { hok with durable := ?_, pending := nofun, versions := ?_, runs := ?_ }
  · intro cursor revision hsome
    rw [hcursor] at hsome
    cases hsome
  · intro place run hentry
    rw [latestVersion_nextRevisions]
    exact (hversions place run hentry).trans (Nat.le_succ _)
  · intro place run revision hentry hcurrent hversion
    rw [currentRevision_nextRevisions] at hcurrent
    cases hcurrent
    have hle := hversions place run hentry
    rw [hversion] at hle
    exact absurd hle (Nat.not_succ_le_self _)

theorem CheckpointOk.begin (hstep : beginRun state settings = some after) :
    CheckpointOk ats occurrenceKey matchesIntents after := by
  unfold beginRun at hstep
  split at hstep
  · cases hstep
  next current hcurrent =>
  split at hstep <;> cases hstep
  refine { hok with versions := ?_, runs := ?_ }
  · intro place run hentry
    rcases Slots.entry_add hentry with ⟨hold, _⟩ | ⟨_, rfl⟩
    · exact hok.versions place run hold
    · exact version_le_latestVersion (currentRevision_mem hcurrent)
  · intro place run revision hentry hrevision hversion
    rcases Slots.entry_add hentry with ⟨hold, _⟩ | ⟨_, rfl⟩
    · exact hok.runs place run revision hold hrevision hversion
    · cases hcurrent.symm.trans hrevision
      exact ⟨rfl, trivial⟩

theorem CheckpointOk.drop (place : ℕ) : CheckpointOk ats occurrenceKey matchesIntents
    (state.withRun place none) := by
  have hentries : ∀ index run, (state.withRun place none).runs.entry index = some run →
      state.runs.entry index = some run := by
    intro index run hentry
    obtain ⟨_, ⟨⟩⟩ | ⟨_, hold⟩ := Slots.entry_put hentry
    exact hold
  exact
    { hok with
      versions := fun index run hentry => hok.versions index run (hentries index run hentry)
      runs := fun index run revision hentry =>
        hok.runs index run revision (hentries index run hentry) }

end

variable {next : ScanRun τ}

/-- A run goes on, and occurrences are kept. -/
theorem CheckpointOk.goOn (hok : CheckpointOk ats occurrenceKey matchesIntents state)
    (hentry : state.runs.entry place = some run) (hversion : next.version = run.version)
    (hintents : next.intents = run.intents)
    (hkept : ∀ key, HasOccurrence state.records key → HasOccurrence records key)
    (hgood : ∀ revision, currentRevision state.revisions = some revision →
      run.intents = revision.intents →
        ScanGood ats occurrenceKey matchesIntents state.listings state.records run run.phase →
          ScanGood ats occurrenceKey matchesIntents state.listings records next next.phase) :
    CheckpointOk ats occurrenceKey matchesIntents
      ({ state with records := records }.withRun place (some next)) where
  identifies := hok.identifies
  listed := hok.listed
  durable := fun cursor revision hcursor hcurrent =>
    (hok.durable cursor revision hcursor hcurrent).kept hkept
  pending := hok.pending
  versions := by
    intro index found hfound
    rcases Slots.entry_put hfound with ⟨_, ⟨⟩⟩ | ⟨_, hold⟩
    · exact hversion.trans_le (hok.versions place run hentry)
    · exact hok.versions index found hold
  runs := by
    intro index found revision hfound hcurrent hsame
    rcases Slots.entry_put hfound with ⟨_, ⟨⟩⟩ | ⟨_, hold⟩
    · obtain ⟨hread, hscan⟩ :=
        hok.runs place run revision hentry hcurrent (hversion.symm.trans hsame)
      exact ⟨hintents.trans hread, hgood revision hcurrent hread hscan⟩
    · exact (hok.runs index found revision hold hcurrent hsame).imp_right fun hrun =>
        hrun.kept hkept

/-- A run that saves its own revision leaves a good checkpoint and goes on. -/
theorem CheckpointOk.save (hok : CheckpointOk ats occurrenceKey matchesIntents state)
    (hstep : (saveCursor state cursor).map (fun saved => saved.withRun place (some next)) =
      some after) (hentry : state.runs.entry place = some run)
    (hown : state.activation = none ∧
      (currentRevision state.revisions).map SearchIntentRevision.version = some run.version)
    (hversion : next.version = run.version) (hintents : next.intents = run.intents)
    (hgood : ScanGood ats occurrenceKey matchesIntents state.listings state.records run
        run.phase →
      CheckpointGood ats occurrenceKey matchesIntents state.listings state.records run.intents
          [] cursor ∧
        ScanGood ats occurrenceKey matchesIntents state.listings state.records next next.phase) :
    CheckpointOk ats occurrenceKey matchesIntents after := by
  obtain ⟨saved, hsave, rfl⟩ := Option.map_eq_some_iff.mp hstep
  obtain ⟨current, hcurrent, hsame⟩ := Option.map_eq_some_iff.mp hown.2
  obtain ⟨hread, hscan⟩ := hok.runs place run current hentry hcurrent hsame.symm
  have hfree : ¬state.activation.any PendingActivation.deletesCursor = true := by
    rw [hown.1]
    exact Bool.false_ne_true
  rw [saveCursor, if_neg hfree] at hsave
  cases hsave
  have hsaved : CheckpointOk ats occurrenceKey matchesIntents
      { state with cursor := some cursor } := by
    refine { hok with durable := ?_, pending := ?_ }
    · intro found revision hfound hrevision
      cases hfound
      cases hcurrent.symm.trans hrevision
      exact hread ▸ (hgood hscan).1
    · intro pending hpending
      cases hown.1.symm.trans hpending
  exact hsaved.goOn hentry hversion hintents (fun _ hkey => hkey) fun _ _ _ _ => (hgood hscan).2

theorem fetchCatalogPage_whole (hats : ats = .greenhouse ∨ ats = .ashby)
    (cursor : CatalogCursor) (source : List SourceRow) (response : CatalogResponse)
    (maxJobs : ℕ) :
    fetchCatalogPage ats cursor source response maxJobs =
      some (fetchWholeList ats cursor response maxJobs) := by
  rcases hats with rfl | rfl <;> rfl

/-- The board answers a good checkpoint: the scan starts again, or the next page is good. -/
theorem answerRequest_good (hok : CheckpointOk ats occurrenceKey matchesIntents state)
    (hcheck : CheckpointGood ats occurrenceKey matchesIntents state.listings state.records
      intents [] cursor) (hjobs : 0 < maxJobs)
    (hpage : fetchWholeList ats cursor (answerRequest state cursor lastModified) maxJobs =
      page) :
    page.restart = true ∧ page.cursor = .empty ∨
      page.restart = false ∧
        PageGood ats occurrenceKey matchesIntents state.listings state.records intents
          (page.rows.filter (wantedRow ats matchesIntents intents))
          (offered ats state.source) page := by
  have hwanted : ∀ row,
      (StoredIfWanted ats occurrenceKey matchesIntents state.records intents row ∨ row ∈ []) ∨
        row ∈ page.rows →
          StoredIfWanted ats occurrenceKey matchesIntents state.records intents row ∨
            row ∈ page.rows.filter (wantedRow ats matchesIntents intents) := by
    intro row hrow
    by_cases hmatch : wantedRow ats matchesIntents intents row = true
    · rcases hrow with (hstored | hmem) | hmem
      · exact .inl hstored
      · cases hmem
      · exact .inr (List.mem_filter.mpr ⟨hmem, hmatch⟩)
    · exact .inl fun hother => absurd hother hmatch
  have hunmodified : (answerRequest state cursor lastModified).notModified = true →
      cursor.offset = 0 ∧ cursor.etag = some state.etag := by
    intro hmodified
    have hsent := of_decide_eq_true hmodified
    unfold conditionalValidator at hsent
    split at hsent
    · next hoffset => exact ⟨hoffset, hsent⟩
    · cases hsent
  have hdelivered : (answerRequest state cursor lastModified).notModified = false →
      (answerRequest state cursor lastModified).rows = state.source := by
    intro hmodified
    exact if_neg (Bool.eq_false_iff.mp hmodified)
  rcases fetchWholeList_good hcheck hok.identifies hok.listed rfl hunmodified hdelivered hjobs
    hpage with hrestart | ⟨hread, hcursor, hlast, hunchanged⟩
  · exact .inl hrestart
  · exact .inr ⟨hread, hcursor.mono hwanted,
      fun hcomplete row hrow => hwanted row (hlast hcomplete row hrow), hunchanged⟩

theorem CheckpointOk.fetch (hats : ats = .greenhouse ∨ ats = .ashby)
    (hok : CheckpointOk ats occurrenceKey matchesIntents state)
    (hentry : state.runs.entry place = some run)
    (hstep : fetchPage ats matchesIntents state place run lastModified = some after) :
    CheckpointOk ats occurrenceKey matchesIntents after := by
  unfold fetchPage at hstep
  split at hstep
  · next pagesLeft hphase _ =>
    simp only [fetchCatalogPage_whole hats, Option.some.injEq] at hstep
    subst hstep
    unfold readAnswer
    simp only
    have hjobs : 0 < run.settings.publicDiscoveryMaxJobs := run.settings.jobsBounded.1
    split
    · next hrestart =>
      refine hok.goOn hentry rfl rfl (fun _ hkey => hkey) fun _ _ _ hscan => ?_
      rw [hphase] at hscan
      rcases answerRequest_good hok hscan hjobs rfl with ⟨_, hempty⟩ | ⟨hread, _⟩
      · change CatalogCursor.etag _ = none ∧ CatalogCursor.offset _ = 0
        rw [hempty]
        exact ⟨rfl, rfl⟩
      · cases hread.symm.trans hrestart
    · next hread =>
      refine hok.goOn hentry rfl rfl (fun _ hkey => hkey) fun _ _ _ hscan => ?_
      rw [hphase] at hscan
      exact ((answerRequest_good hok hscan hjobs rfl).resolve_left fun hrestart =>
        hread hrestart.1).2
  · cases hstep

theorem loadCursor_version (state : CheckpointState τ) (run : ScanRun τ) :
    (loadCursor state run).version = run.version := by
  unfold loadCursor
  simp only
  split <;> rfl

theorem loadCursor_intents (state : CheckpointState τ) (run : ScanRun τ) :
    (loadCursor state run).intents = run.intents := by
  unfold loadCursor
  simp only
  split <;> rfl

theorem CheckpointOk.load (hok : CheckpointOk ats occurrenceKey matchesIntents state)
    (hentry : state.runs.entry place = some run) :
    CheckpointOk ats occurrenceKey matchesIntents
      (state.withRun place (some (loadCursor state run))) := by
  refine hok.goOn hentry (loadCursor_version state run) (loadCursor_intents state run)
    (fun _ hkey => hkey) fun revision hcurrent hread _ => ?_
  have hcursor : CheckpointGood ats occurrenceKey matchesIntents state.listings state.records
      run.intents [] (state.cursor.getD .empty) := by
    rw [hread]
    cases hfound : state.cursor with
    | none => exact .empty
    | some cursor => exact hok.durable cursor revision hfound hcurrent
  unfold loadCursor
  simp only
  split <;> exact hcursor

theorem afterSave_good
    (hpage : PageGood ats occurrenceKey matchesIntents listings records run.intents []
      run.answered page) :
    CheckpointGood ats occurrenceKey matchesIntents listings records run.intents []
        (afterSave run page).cursor ∧
      ScanGood ats occurrenceKey matchesIntents listings records (afterSave run page)
        (afterSave run page).phase := by
  have hlast : page.complete = true → ∀ row ∈ run.answered,
      StoredIfWanted ats occurrenceKey matchesIntents records run.intents row :=
    fun hcomplete row hrow => (hpage.last hcomplete row hrow).resolve_right List.not_mem_nil
  refine ⟨hpage.cursor, ?_⟩
  simp only [afterSave]
  split
  · next hmodified => exact hlast (hpage.unchanged hmodified)
  split
  · next hcomplete =>
    split
    · exact ⟨hpage.cursor, hlast hcomplete⟩
    · exact hlast hcomplete
  · exact hpage.cursor

theorem CheckpointOk.proceed (hok : CheckpointOk ats occurrenceKey matchesIntents state)
    (hentry : state.runs.entry place = some run)
    (hown : run.phase.saves = true → state.activation = none ∧
      (currentRevision state.revisions).map SearchIntentRevision.version = some run.version)
    (hstep : proceedRun ats occurrenceKey state place run = some after) :
    CheckpointOk ats occurrenceKey matchesIntents after := by
  obtain ⟨settings, version, intents, pagesLeft, current, snapshot, answered, phase⟩ := run
  cases phase with
  | loading =>
    cases hstep
    exact hok.load hentry
  | settling | closing =>
    cases hstep
    exact hok.goOn hentry rfl rfl (fun _ hkey => hkey.reconcile _ _) fun _ _ _ hscan =>
      ScanGood.kept hscan fun _ hkey => hkey.reconcile _ _
  | marking =>
    cases hstep
    exact hok.goOn hentry rfl rfl (fun _ hkey => hkey.mark _ _) fun _ _ _ hscan =>
      ScanGood.kept hscan fun _ hkey => hkey.mark _ _
  | clearing => exact hok.save hstep hentry (hown rfl) rfl rfl fun hgood => ⟨hgood, hgood⟩
  | scanning =>
    unfold proceedRun at hstep
    simp only at hstep
    split at hstep <;> cases hstep
    exact hok.drop place
  | restarting cursor =>
    refine hok.save hstep hentry (hown rfl) rfl rfl fun hempty => ?_
    have hgood : CheckpointGood ats occurrenceKey matchesIntents state.listings state.records
        intents [] { cursor with snapshot := some ⟨state.now, false, []⟩ } := by
      change Checkpointed _ _ cursor.etag cursor.offset
      rw [hempty.1, hempty.2]
      exact .empty
    exact ⟨hgood, hgood⟩
  | ingesting postings read =>
    cases postings with
    | nil =>
      cases hstep
      exact hok.goOn hentry rfl rfl (fun _ hkey => hkey) fun _ _ _ hscan => hscan
    | cons posting postings =>
      cases hstep
      exact hok.goOn hentry rfl rfl (fun _ hkey => hkey.observe read.observedAt _)
        fun _ _ _ hscan => PageGood.ingest hscan
  | saving read => exact hok.save hstep hentry (hown rfl) rfl rfl afterSave_good
  | finishing => exact hok.save hstep hentry (hown rfl) rfl rfl fun hgood => ⟨hgood.1, hgood.2⟩
  | ended => cases hstep

theorem checkpointOk_invariant (hats : ats = .greenhouse ∨ ats = .ashby) :
    (checkpointSystem ats occurrenceKey matchesIntents payloadDigest).Invariant SavesOwnRevision
      (CheckpointOk ats occurrenceKey matchesIntents) where
  init := by
    intro state hinitial
    obtain ⟨now, source, etag, _, rfl⟩ := hinitial
    exact checkpointOk_start now source etag
  step := by
    intro before action after hok hguard hstep
    change performCheckpoint ats occurrenceKey matchesIntents payloadDigest before action =
      some after at hstep
    cases action with
    | tick elapsed =>
      cases hstep
      exact { hok with }
    | change source etag => exact hok.change hstep
    | activate intents => exact hok.activate hstep
    | commitActivation => exact hok.commit hstep
    | rollbackActivation =>
      cases hstep
      exact { hok with pending := nofun }
    | begin settings => exact hok.begin hstep
    | fetch place lastModified =>
      obtain ⟨run, hentry, hfetch⟩ := Option.bind_eq_some_iff.mp hstep
      exact hok.fetch hats hentry hfetch
    | proceed place =>
      obtain ⟨run, hentry, hproceed⟩ := Option.bind_eq_some_iff.mp hstep
      exact hok.proceed hentry (hguard run hentry) hproceed
    | fail place =>
      cases hstep
      exact hok.drop place

/-- In every interleaving in which a run saves its checkpoint only under the intents that it
read, no checkpoint hides a posting. -/
theorem checkpoint_hides_nothing (hats : ats = .greenhouse ∨ ats = .ashby)
    (hreach : (checkpointSystem ats occurrenceKey matchesIntents payloadDigest).Reachable
      SavesOwnRevision state) :
    NothingHidden ats occurrenceKey matchesIntents state := by
  have hok := (checkpointOk_invariant hats).reachable hreach
  intro place run revision hentry hended hcurrent hversion row hrow hwanted
  obtain ⟨hintents, hscan⟩ := hok.runs place run revision hentry hcurrent hversion
  rw [hended] at hscan
  rw [← hintents] at hwanted
  exact hscan row hrow hwanted

/-! ## A run that outlives an activation -/

/-- A run at this place has ended under the current intents and left a posting that they
want without an occurrence. -/
def hidesPosting (ats : Ats) (occurrenceKey : String → String)
    (matchesIntents : List τ → SourceRow → Bool) (state : CheckpointState τ) (place : ℕ) :
    Bool :=
  match state.runs.entry place, currentRevision state.revisions with
  | some run, some revision =>
    (match run.phase with
      | .ended => true
      | _ => false) &&
    run.version == revision.version &&
    run.answered.any fun row =>
      wantedRow ats matchesIntents revision.intents row &&
        state.records.all fun record => record.occurrenceKey != occurrenceKey row.jobId
  | _, _ => false

theorem not_nothingHidden
    (hhides : hidesPosting ats occurrenceKey matchesIntents state place = true) :
    ¬NothingHidden ats occurrenceKey matchesIntents state := by
  intro hnothing
  unfold hidesPosting at hhides
  split at hhides
  · next run revision hentry hcurrent =>
    rw [Bool.and_eq_true, Bool.and_eq_true, beq_iff_eq, List.any_eq_true] at hhides
    obtain ⟨⟨hphase, hversion⟩, row, hrow, hmissing⟩ := hhides
    rw [Bool.and_eq_true, List.all_eq_true] at hmissing
    have hended : run.phase = .ended := by
      split at hphase
      · next hended => exact hended
      · cases hphase
    obtain ⟨record, hmem, hsame⟩ :=
      hnothing place run revision hentry hended hcurrent hversion row hrow hmissing.1
    have hother := hmissing.2 record hmem
    rw [bne_iff_ne] at hother
    exact hother hsame
  · cases hhides

def sampleMeshSettings : DiscoveryMeshSettings where
  publicDiscoveryMaxJobs := 50
  discoveryMaxPagesPerRun := 100
  jobsBounded := by decide
  pagesBounded := by decide

def titleMatches (intents : List String) (row : SourceRow) : Bool :=
  intents.contains row.title

def sampleBoard : CheckpointState String :=
  checkpointStart .greenhouse 0 [⟨"4101", "Nurse", "https://boards.example/4101", true⟩] "v1"

def performSample : CheckpointState String → CheckpointAction String →
    Option (CheckpointState String) :=
  performCheckpoint .greenhouse id titleMatches fun intents => intents.headD ""

/-- The new intents are activated while a run is about to save what it read; the next run
is told that nothing has changed. -/
def staleCheckpoint : List (CheckpointAction String) :=
  [.activate ["Cook"], .commitActivation, .begin sampleMeshSettings, .proceed 0, .fetch 0 none,
    .proceed 0, .proceed 0, .activate ["Nurse"], .commitActivation, .proceed 0, .proceed 0,
    .proceed 0, .begin sampleMeshSettings, .proceed 1, .fetch 1 none, .proceed 1, .proceed 1,
    .proceed 1]

theorem sampleBoard_initial :
    (checkpointSystem .greenhouse id titleMatches fun intents => intents.headD "").initial
      sampleBoard :=
  ⟨0, [⟨"4101", "Nurse", "https://boards.example/4101", true⟩], "v1", by decide, rfl⟩

/-- A run that outlives an activation hides a posting from the new intents. -/
theorem stale_checkpoint_hides :
    ∃ state, (checkpointSystem .greenhouse id titleMatches fun intents =>
        intents.headD "").Reachable anyCheckpointStep state ∧
      ¬NothingHidden .greenhouse id titleMatches state := by
  refine ⟨runEnd performSample (fun _ _ => true) sampleBoard staleCheckpoint, ?_, ?_⟩
  · apply runEnd_reachable
    · intro before action after hstep
      exact hstep
    · intro _ _ _
      trivial
    · exact sampleBoard_initial
  · have hhides : hidesPosting .greenhouse id titleMatches
        (runEnd performSample (fun _ _ => true) sampleBoard staleCheckpoint) 1 = true := by
      decide +kernel
    exact not_nothingHidden hhides

def savesOwnRevision (state : CheckpointState String) : CheckpointAction String → Bool
  | .proceed place => (state.runs.entry place).all fun run =>
    !run.phase.saves || state.activation.isNone &&
      (currentRevision state.revisions).map SearchIntentRevision.version == some run.version
  | _ => true

theorem savesOwnRevision_of_check {state : CheckpointState String}
    (hcheck : savesOwnRevision state action = true) :
    SavesOwnRevision state action := by
  cases action with
  | proceed place =>
    intro run hentry hsaves
    simp only [savesOwnRevision, hentry, Option.all_some, hsaves, Bool.not_true, Bool.false_or,
      Bool.and_eq_true, Option.isNone_iff_eq_none, beq_iff_eq] at hcheck
    exact hcheck
  | _ => trivial

/-- A scan of the whole list under the intents that stay active. -/
def ownCheckpoint : List (CheckpointAction String) :=
  [.activate ["Nurse"], .commitActivation, .begin sampleMeshSettings, .proceed 0, .fetch 0 none,
    .proceed 0, .proceed 0, .proceed 0, .proceed 0, .proceed 0, .proceed 0,
    .begin sampleMeshSettings, .proceed 1, .fetch 1 none, .proceed 1, .proceed 1, .proceed 1]

theorem checkpoint_hides_nothing_sample :
    ((runEnd performSample savesOwnRevision sampleBoard ownCheckpoint).runs.entry 1).any
        (fun run => run.phase matches .ended) = true ∧
      NothingHidden .greenhouse id titleMatches
        (runEnd performSample savesOwnRevision sampleBoard ownCheckpoint) := by
  refine ⟨by decide +kernel, checkpoint_hides_nothing (.inl rfl) (?_ :
    (checkpointSystem .greenhouse id titleMatches fun intents =>
      intents.headD "").Reachable SavesOwnRevision _)⟩
  apply runEnd_reachable
  · intro before action after hstep
    exact hstep
  · intro state action hcheck
    exact savesOwnRevision_of_check hcheck
  · exact sampleBoard_initial

end JobApplyAgent.Discovery
