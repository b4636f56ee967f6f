import JobApplyAgent.Discovery.Closure

/-!
# A closed job has no active occurrence

The columns of an occurrence change together, an ingest that makes one active stages that
the job is open, and the locked writers refuse a skipped job.  In every run whose commits
find what they have read, a job that is closed by its sources has no active occurrence and
no application; without it both can fail.
-/

namespace JobApplyAgent.Discovery

open Domain Library TransitionSystem

variable {fitDigest : (ContentField → String) → String}
  {before state : JobState} {db later : JobDb}

/-! ## Rows -/

section Rows

variable {loaded : Table (Tracked OccurrenceRow)}
  {row : OccurrenceRow}

/-- A loaded occurrence: when its activity stays the same, so does its closing instant. -/
structure TrackedOk (tracked : Tracked OccurrenceRow) : Prop where
  loaded : RowOk tracked.loaded
  staged : RowOk tracked.staged
  together : tracked.staged.active = tracked.loaded.active →
    tracked.staged.closedAt = tracked.loaded.closedAt

theorem TrackedOk.fresh (hrow : RowOk row) : TrackedOk (.fresh row) :=
  ⟨hrow, hrow, fun _ => rfl⟩

theorem RowOk.closedAt_active (hrow : RowOk row) (hactive : row.active = true) :
    row.closedAt = none := by
  unfold RowOk at hrow
  rw [hactive] at hrow
  exact Option.isNone_iff_eq_none.mp hrow.symm

theorem RowOk.closedAt_inactive (hrow : RowOk row) (hactive : row.active = false) :
    row.closedAt.isSome = true := by
  unfold RowOk at hrow
  rw [hactive] at hrow
  cases hclosed : row.closedAt with
  | none =>
    rw [hclosed] at hrow
    cases hrow
  | some instant => rfl

/-- Staging an active row keeps the columns together. -/
theorem TrackedOk.observed (htracked : TrackedOk tracked) {staged : OccurrenceRow}
    (hactive : staged.active = true) (hclosed : staged.closedAt = none) :
    TrackedOk { tracked with staged := staged } := by
  refine ⟨htracked.loaded, ?_, fun hsame => ?_⟩
  · unfold RowOk
    rw [hactive, hclosed]
    rfl
  · rw [hclosed]
    exact (htracked.loaded.closedAt_active (hsame.symm.trans hactive)).symm

theorem writeBackOccurrence_active (htracked : TrackedOk tracked) (hrow : RowOk row) :
    RowOk (writeBackOccurrence tracked row) := by
  unfold RowOk writeBackOccurrence
  simp only
  by_cases hsame : tracked.staged.active = tracked.loaded.active
  · rw [writeBack, if_pos hsame, writeBack, if_pos (htracked.together hsame)]
    exact hrow
  · have hdiffer : tracked.staged.closedAt ≠ tracked.loaded.closedAt := by
      intro hclosed
      apply hsame
      rw [htracked.staged, htracked.loaded, hclosed]
    rw [writeBack, if_neg hsame, writeBack, if_neg hdiffer]
    exact htracked.staged

variable {merged : OccurrenceRow} {query : SourceQuery}

theorem mem_mergeRows (hmem : merged ∈ mergeRows loaded rows) :
    ∃ id row, rows[id]? = some row ∧
      (loaded id = none ∧ merged = row ∨
        ∃ tracked, loaded id = some tracked ∧ merged = writeBackOccurrence tracked row) := by
  unfold mergeRows at hmem
  obtain ⟨id, hid, rfl⟩ := List.mem_mapIdx.mp hmem
  refine ⟨id, rows[id], List.getElem?_eq_getElem hid, ?_⟩
  cases hloaded : loaded id with
  | none => exact .inl ⟨rfl, rfl⟩
  | some tracked => exact .inr ⟨tracked, rfl, rfl⟩

theorem mergeRows_ok (hloaded : ∀ id tracked, loaded id = some tracked → TrackedOk tracked)
    (hrows : ∀ row ∈ rows, RowOk row) : ∀ row ∈ mergeRows loaded rows, RowOk row := by
  intro merged hmem
  obtain ⟨id, row, hrow, ⟨_, rfl⟩ | ⟨tracked, htracked, rfl⟩⟩ := mem_mergeRows hmem
  · exact hrows _ (List.mem_of_getElem? hrow)
  · exact writeBackOccurrence_active (hloaded id tracked htracked)
      (hrows row (List.mem_of_getElem? hrow))

theorem mergeRows_activates (hrows : ∀ row ∈ rows, row.active = false)
    (hmem : merged ∈ mergeRows loaded rows) (hactive : merged.active = true) :
    ∃ id tracked, loaded id = some tracked ∧ tracked.loaded.active = false ∧
      tracked.staged.active = true := by
  obtain ⟨id, row, hrow, ⟨_, rfl⟩ | ⟨tracked, htracked, rfl⟩⟩ := mem_mergeRows hmem
  · rw [hrows _ (List.mem_of_getElem? hrow)] at hactive
    cases hactive
  · have hinactive := hrows row (List.mem_of_getElem? hrow)
    refine ⟨id, tracked, htracked, ?_⟩
    simp only [writeBackOccurrence] at hactive
    rcases writeBack_cases tracked.loaded.active tracked.staged.active row.active with
      hstaged | ⟨_, hcurrent⟩
    · rw [hstaged] at hactive
      refine ⟨?_, hactive⟩
      by_contra hloaded
      rw [Bool.not_eq_false] at hloaded
      rw [hloaded, hactive, hinactive] at hstaged
      exact absurd hstaged (by decide)
    · rw [hcurrent, hinactive] at hactive
      cases hactive

variable {id : ℕ}

theorem selectRows_eq_some {change : OccurrenceRow → OccurrenceRow}
    (hselected : selectRows test change rows id = some tracked) :
    ∃ row ∈ rows, test row = true ∧ tracked = ⟨row, change row⟩ := by
  unfold selectRows at hselected
  rw [Option.bind_eq_some_iff] at hselected
  obtain ⟨row, hrow, hselected⟩ := hselected
  split at hselected
  · next htest =>
    cases hselected
    exact ⟨row, List.mem_of_getElem? hrow, htest, rfl⟩
  · cases hselected

theorem readMarked_ok {keys : List String}
    (hrows : ∀ row ∈ db.occurrences, RowOk row)
    (hread : readMarked query keys seenAt db id = some tracked) :
    TrackedOk tracked ∧ tracked.staged.active = true := by
  obtain ⟨row, hrow, _, rfl⟩ := selectRows_eq_some hread
  exact ⟨(TrackedOk.fresh (hrows row hrow)).observed rfl rfl, rfl⟩

theorem readMissed_ok (hrows : ∀ row ∈ db.occurrences, RowOk row)
    (hread : readMissed query test closedAt db id = some tracked) :
    TrackedOk tracked ∧ tracked.staged.active = false := by
  obtain ⟨row, hrow, htest, rfl⟩ := selectRows_eq_some hread
  refine ⟨⟨hrows row hrow, rfl, fun hsame => ?_⟩, rfl⟩
  simp only [Bool.and_eq_true] at htest
  cases hsame.trans htest.1.2

end Rows

/-! ## Sessions -/

/-- Applications and terminal skips stay. -/
structure JobDb.Grows (db later : JobDb) : Prop where
  application : db.application = true → later.application = true
  terminal : db.job.terminalSkipAt.isSome = true → later.job.terminalSkipAt.isSome = true

theorem JobDb.Grows.refl (db : JobDb) : db.Grows db :=
  ⟨id, id⟩

/-- The ingest has a new occurrence, or observes one that it has read as closed. -/
def JobIngest.Activates (session : JobIngest) : Prop :=
  session.pending ≠ [] ∨ ∃ id tracked, session.occurrences id = some tracked ∧
    tracked.loaded.active = false ∧ tracked.staged.active = true

/-- The ingest leaves the job open, or has read why it may not open it. -/
def Opens (application : Option Bool) (job : JobRow) : Prop :=
  job.status ≠ .skipped ∨ application = some true ∨ job.terminalSkipAt.isSome = true

structure IngestOk (db : JobDb) (session : JobIngest) : Prop where
  rows : ∀ id tracked, session.occurrences id = some tracked → TrackedOk tracked
  pending : ∀ row ∈ session.pending, RowOk row
  application : session.application = some true → db.application = true
  terminal : ∀ tracked, session.job = some tracked →
    tracked.staged.terminalSkipAt.isSome = true → db.job.terminalSkipAt.isSome = true
  opens : session.Activates →
    ∃ tracked, session.job = some tracked ∧ Opens session.application tracked.staged

/-- A closed job is skipped without the operator, and nothing observes or uses it. -/
structure JobDb.Closed (db : JobDb) : Prop where
  status : db.job.status = .skipped
  terminal : db.job.terminalSkipAt = none
  application : db.application = false
  inactive : ∀ row ∈ db.occurrences, row.active = false

structure JobOk (db : JobDb) : Prop where
  rows : ∀ row ∈ db.occurrences, RowOk row
  closed : db.closedBySources = true → db.Closed

def SessionOk (db : JobDb) : JobSession → Prop
  | .ingest session => IngestOk db session
  | .mark rows => ∀ id tracked, rows id = some tracked →
      TrackedOk tracked ∧ tracked.staged.active = true
  | .reconcile session => ∀ id tracked, session.rows id = some tracked →
      TrackedOk tracked ∧ tracked.staged.active = false

structure ClosureOk (state : JobState) : Prop where
  db : JobOk state.db
  sessions : ∀ index session, state.session index = some session → SessionOk state.db session

variable {session : JobSession}

theorem SessionOk.grows (hgrows : db.Grows later) (hok : SessionOk db session) :
    SessionOk later session := by
  cases session with
  | ingest session =>
    refine ⟨hok.rows, hok.pending, fun hread => hgrows.application (hok.application hread),
      fun tracked hjob hskip => hgrows.terminal (hok.terminal tracked hjob hskip), hok.opens⟩
  | mark rows | reconcile session => exact hok

theorem ingestOk_start (db : JobDb) (postings : List DiscoveredPosting) :
    IngestOk db (.start postings) := by
  refine ⟨?_, ?_, ?_, ?_, ?_⟩
  · rintro id tracked ⟨⟩
  · rintro row ⟨⟩
  · rintro ⟨⟩
  · rintro tracked ⟨⟩
  · rintro (hpending | ⟨id, tracked, hloaded, _⟩)
    · exact absurd rfl hpending
    · cases hloaded

/-! ### Loading -/

theorem IngestOk.terminal_getD {session : JobIngest} (hok : IngestOk db session) :
    (session.job.getD (.fresh db.job)).staged.terminalSkipAt.isSome = true →
      db.job.terminalSkipAt.isSome = true := by
  cases hjob : session.job with
  | none => exact id
  | some tracked => exact hok.terminal tracked hjob

theorem loadVia_eq_some {found : Option ℕ} {id : ℕ}
    (hloaded : loadVia db found loaded id = some tracked) :
    loaded id = some tracked ∨ ∃ row ∈ db.occurrences, tracked = .fresh row := by
  unfold loadVia at hloaded
  split at hloaded
  · next other =>
    rcases loadRow_loadsFrom loaded (fun other => db.occurrences[other]?) other id with
      hsame | ⟨_, row, hrow, hnew⟩
    · exact .inl (hsame ▸ hloaded)
    · rw [hnew] at hloaded
      exact .inr ⟨row, List.mem_of_getElem? hrow, (Option.some.inj hloaded).symm⟩
  · exact .inl hloaded

variable {moved : JobIngest}
  {opened : JobSession}

theorem IngestOk.lookup {session : JobIngest} (hok : IngestOk db session)
    (hrows : ∀ row ∈ db.occurrences, RowOk row) (hlookup : session.lookup db via = some moved) :
    IngestOk db moved := by
  have hfrom : ∀ other tracked, moved.occurrences other = some tracked →
      session.occurrences other = some tracked ∨ ∃ row ∈ db.occurrences, tracked = .fresh row := by
    unfold JobIngest.lookup at hlookup
    split at hlookup
    · cases hlookup
      exact fun other tracked hloaded => loadVia_eq_some hloaded
    · cases hlookup
  have hsame : moved.pending = session.pending ∧ moved.application = session.application ∧
      moved.job = some (session.job.getD (.fresh db.job)) := by
    unfold JobIngest.lookup at hlookup
    split at hlookup
    · cases hlookup
      exact ⟨rfl, rfl, rfl⟩
    · cases hlookup
  obtain ⟨hpending, happlication, hjob⟩ := hsame
  refine ⟨?_, ?_, ?_, ?_, ?_⟩
  · intro id tracked hloaded
    rcases hfrom id tracked hloaded with hold | ⟨row, hrow, rfl⟩
    · exact hok.rows id tracked hold
    · exact .fresh (hrows row hrow)
  · rw [hpending]
    exact hok.pending
  · rw [happlication]
    exact hok.application
  · intro tracked htracked
    rw [hjob] at htracked
    cases htracked
    exact hok.terminal_getD
  · intro hactivates
    have hold : session.Activates := by
      rcases hactivates with hnew | ⟨id, tracked, hloaded, hclosed, hactive⟩
      · rw [hpending] at hnew
        exact .inl hnew
      · rcases hfrom id tracked hloaded with hold | ⟨row, _, rfl⟩
        · exact .inr ⟨id, tracked, hold, hclosed, hactive⟩
        · exact absurd (hclosed.symm.trans hactive) (by decide)
    obtain ⟨tracked, htracked, hopens⟩ := hok.opens hold
    refine ⟨tracked, ?_, happlication ▸ hopens⟩
    rw [hjob, htracked, Option.getD_some]

/-! ### Deciding -/

theorem updateMutableJob_opens (application : Option Bool) (job : JobRow)
    (posting : DiscoveredPosting) : Opens application (updateMutableJob codec job posting) :=
  .inl (by simp [updateMutableJob])

theorem opens_of_not_mayUpdate (hmay : mayUpdate job application = false) :
    Opens (some application) job := by
  unfold Opens
  by_contra hclosed
  push Not at hclosed
  obtain ⟨hstatus, happlication, hterminal⟩ := hclosed
  have hfree : application = false := by simpa using happlication
  have hnone : job.terminalSkipAt = none := by simpa using hterminal
  rw [mayUpdate, hstatus, hfree, hnone] at hmay
  exact absurd hmay (by decide)

theorem seenJob_opens (posting : DiscoveredPosting) (application : Bool) (job : JobRow) :
    Opens (some application) (seenJob codec posting application job) := by
  unfold seenJob
  split
  · split
    · exact updateMutableJob_opens _ _ _
    split
    · exact .inl (by simp)
    · next hopen => exact .inl hopen
  · next hmay => exact opens_of_not_mayUpdate (by simpa using hmay)

theorem knownJob_opens (hrow : RowOk occurrence) (hclosed : occurrence.active = false) :
    Opens (some application) (knownJob codec posting occurrence application job) := by
  have hreopened : revisedOrReopened occurrence posting = true := by
    unfold revisedOrReopened
    rw [hclosed, hrow.closedAt_inactive hclosed]
    simp
  unfold knownJob
  rw [hreopened, Bool.true_and]
  split
  · exact updateMutableJob_opens _ _ _
  · next hmay => exact opens_of_not_mayUpdate (by simpa using hmay)

theorem Opens.known (hopens : Opens (some application) job) :
    Opens (some application) (knownJob codec posting occurrence application job) := by
  unfold knownJob
  split
  · exact updateMutableJob_opens _ _ _
  · exact hopens

theorem knownJob_terminal (posting : DiscoveredPosting) (occurrence : OccurrenceRow)
    (application : Bool) (job : JobRow) :
    (knownJob codec posting occurrence application job).terminalSkipAt = job.terminalSkipAt := by
  unfold knownJob
  split <;> rfl

theorem seenJob_terminal (posting : DiscoveredPosting) (application : Bool) (job : JobRow) :
    (seenJob codec posting application job).terminalSkipAt = job.terminalSkipAt := by
  unfold seenJob
  split
  · split
    · rfl
    · split <;> rfl
  · rfl

/-- What was read of the application before is what a decision goes on with. -/
theorem IngestOk.application_getD {session : JobIngest} (hok : IngestOk db session)
    (hread : some (session.application.getD db.application) = some true) :
    db.application = true := by
  cases happlication : session.application with
  | none =>
    rw [happlication] at hread
    exact Option.some.inj hread
  | some application =>
    rw [happlication] at hread
    exact hok.application (happlication.trans hread)

theorem Opens.getD (hopens : Opens application job) :
    Opens (some (application.getD stored)) job := by
  rcases hopens with hstatus | hread | hterminal
  · exact .inl hstatus
  · rw [hread]
    exact .inr (.inl rfl)
  · exact .inr (.inr hterminal)

theorem IngestOk.decide {session : JobIngest} (hok : IngestOk db session)
    (hdecide : session.decide codec db catalogId = some moved) :
    IngestOk db moved := by
  unfold JobIngest.decide at hdecide
  split at hdecide
  · next posting known job hmatched hjob =>
    simp only at hdecide
    split at hdecide
    · next id =>
      rw [Option.map_eq_some_iff] at hdecide
      obtain ⟨occurrence, hoccurrence, rfl⟩ := hdecide
      have htracked := hok.rows id occurrence hoccurrence
      refine ⟨?_, hok.pending, hok.application_getD, ?_, ?_⟩
      · intro other tracked hloaded
        rcases Table.put_eq_some hloaded with ⟨_, rfl⟩ | ⟨_, hold⟩
        · exact htracked.observed rfl rfl
        · exact hok.rows other tracked hold
      · rintro tracked ⟨⟩ hskip
        simp only [knownJob_terminal] at hskip
        exact hok.terminal job hjob hskip
      · intro hactivates
        refine ⟨_, rfl, ?_⟩
        by_cases hclosed : occurrence.staged.active = false
        · exact knownJob_opens htracked.staged hclosed
        rw [Bool.not_eq_false] at hclosed
        have hold : session.Activates := by
          rcases hactivates with hnew | ⟨other, tracked, hloaded, hread, hactive⟩
          · exact .inl hnew
          · rcases Table.put_eq_some hloaded with ⟨_, rfl⟩ | ⟨_, hold⟩
            · exact .inr ⟨id, occurrence, hoccurrence, hread, hclosed⟩
            · exact .inr ⟨other, tracked, hold, hread, hactive⟩
        obtain ⟨tracked, htracked, hopens⟩ := hok.opens hold
        rw [hjob] at htracked
        cases htracked
        exact hopens.getD.known
    · cases hdecide
      refine ⟨hok.rows, ?_, hok.application_getD, ?_, fun _ => ⟨_, rfl, seenJob_opens _ _ _⟩⟩
      · intro row hrow
        rcases List.mem_append.mp hrow with hold | hnew
        · exact hok.pending row hold
        · rw [List.mem_singleton] at hnew
          rw [hnew]
          rfl
      · rintro tracked ⟨⟩ hskip
        simp only [seenJob_terminal] at hskip
        exact hok.terminal job hjob hskip
  · cases hdecide

/-! ## Commits -/

theorem putJob_closed (db : JobDb) {row : JobRow} {closing : Bool}
    (hclosed : (db.putJob row closing).closedBySources = true) :
    closing = true ∧ row.status = .skipped ∧ row.terminalSkipAt = none := by
  simp only [JobDb.putJob, Bool.and_eq_true, decide_eq_true_eq] at hclosed
  exact ⟨hclosed.1.1, hclosed.1.2, Option.isNone_iff_eq_none.mp hclosed.2⟩

def JobIngest.row (session : JobIngest) (db : JobDb) : JobRow :=
  match session.job with
  | some tracked => writeBackJob tracked db.job
  | none => db.job

theorem JobIngest.row_terminal (session : JobIngest) (db : JobDb) :
    (session.row db).terminalSkipAt = db.job.terminalSkipAt := by
  unfold JobIngest.row
  split <;> rfl

theorem IngestOk.write {session : JobIngest} (hok : IngestOk db session) (hdb : JobOk db)
    (hholds : ReadsHold db (.ingest session)) : JobOk (session.write db) := by
  constructor
  · intro row hmem
    rcases List.mem_append.mp hmem with hold | hnew
    · exact mergeRows_ok hok.rows hdb.rows row hold
    · exact hok.pending row hnew
  · intro hclosed
    obtain ⟨hbefore, hstatus, hterminal⟩ := putJob_closed db hclosed
    have hskipped : (session.row db).status = .skipped := hstatus
    have hearlier := hdb.closed hbefore
    -- an ingest that activates an occurrence has staged a status other than the one it read
    have hquiet : ¬ session.Activates := by
      intro hactivates
      obtain ⟨tracked, hjob, hopens⟩ := hok.opens hactivates
      have hread := hholds hbefore tracked hjob
      rcases hopens with hopen | happlication | hskip
      · have hchanged : tracked.staged.status ≠ tracked.loaded.status := by
          rwa [hread]
        unfold JobIngest.row at hskipped
        rw [hjob] at hskipped
        simp only [writeBackJob, writeBack, if_neg hchanged] at hskipped
        exact hopen hskipped
      · have hnow := hok.application happlication
        rw [hearlier.application] at hnow
        cases hnow
      · have hnow := hok.terminal tracked hjob hskip
        rw [hearlier.terminal] at hnow
        cases hnow
    refine ⟨hstatus, hterminal, hearlier.application, fun row hmem => ?_⟩
    by_contra hactive
    rw [Bool.not_eq_false] at hactive
    apply hquiet
    rcases List.mem_append.mp hmem with hold | hnew
    · exact .inr (mergeRows_activates hearlier.inactive hold hactive)
    · exact .inl (List.ne_nil_of_mem hnew)

theorem JobIngest.write_grows (session : JobIngest) (db : JobDb) :
    db.Grows (session.write db) := by
  refine ⟨id, fun hskip => ?_⟩
  change (session.row db).terminalSkipAt.isSome = true
  rw [session.row_terminal db]
  exact hskip

theorem JobOk.mark (hdb : JobOk db) {rows : Table (Tracked OccurrenceRow)}
    (hok : SessionOk db (.mark rows)) (hholds : ReadsHold db (.mark rows)) :
    JobOk { db with occurrences := mergeRows rows db.occurrences } := by
  refine ⟨mergeRows_ok (fun id tracked hrow => (hok id tracked hrow).1) hdb.rows, fun hclosed => ?_⟩
  have hearlier := hdb.closed hclosed
  refine ⟨hearlier.status, hearlier.terminal, hearlier.application, fun row hmem => ?_⟩
  by_contra hactive
  rw [Bool.not_eq_false] at hactive
  obtain ⟨id, tracked, htracked, hread, _⟩ :=
    mergeRows_activates hearlier.inactive hmem hactive
  rw [hholds hclosed id tracked htracked] at hread
  cases hread

theorem JobOk.reconcile (hdb : JobOk db) {session : ReconcileSession}
    (hok : SessionOk db (.reconcile session))
    (hholds : ReadsHold db (.reconcile session)) (hphase : session.phase = .ready job) :
    JobOk (session.write job db) := by
  have hrows : ∀ row ∈ session.view db, RowOk row :=
    mergeRows_ok (fun id tracked hrow => (hok id tracked hrow).1) hdb.rows
  cases job with
  | none =>
    refine ⟨hrows, fun hclosed => ?_⟩
    have hearlier := hdb.closed hclosed
    refine ⟨hearlier.status, hearlier.terminal, hearlier.application, fun row hmem => ?_⟩
    by_contra hactive
    rw [Bool.not_eq_false] at hactive
    obtain ⟨id, tracked, htracked, _, hstaged⟩ :=
      mergeRows_activates hearlier.inactive hmem hactive
    rw [(hok id tracked htracked).2] at hstaged
    cases hstaged
  | some tracked =>
    obtain ⟨happlication, hinactive⟩ := hholds tracked hphase
    refine ⟨hrows, fun hclosed => ?_⟩
    obtain ⟨_, hstatus, hterminal⟩ := putJob_closed _ hclosed
    exact ⟨hstatus, hterminal, happlication, hinactive⟩

theorem ReconcileSession.write_grows (job : Option (Tracked JobRow))
    (session : ReconcileSession) (db : JobDb) : db.Grows (session.write job db) := by
  cases job with
  | none => exact ⟨id, id⟩
  | some tracked => exact ⟨id, id⟩

theorem performLocked_writes (hstep : performLocked fitDigest db action = some later) :
    ∃ row application, later = { db.putJob row false with application := application } ∧
      (db.application = true → application = true) ∧
      (db.job.terminalSkipAt.isSome = true → row.terminalSkipAt.isSome = true) := by
  unfold performLocked at hstep
  cases action with
  | score jobDigest expected score outcome =>
    obtain ⟨_, hwrite⟩ := Option.ite_none_right_eq_some.mp hstep
    cases hwrite
    exact ⟨_, _, rfl, id, id⟩
  | rescore jobDigest score =>
    obtain ⟨_, hwrite⟩ := Option.ite_none_right_eq_some.mp hstep
    cases hwrite
    exact ⟨_, _, rfl, id, id⟩
  | generate jobDigest =>
    obtain ⟨_, hwrite⟩ := Option.ite_none_right_eq_some.mp hstep
    cases hwrite
    exact ⟨_, true, rfl, fun _ => rfl, id⟩
  | regenerate jobDigest =>
    obtain ⟨_, hwrite⟩ := Option.ite_none_right_eq_some.mp hstep
    cases hwrite
    exact ⟨_, _, rfl, id, id⟩
  | returnToScored =>
    obtain ⟨_, hwrite⟩ := Option.ite_none_right_eq_some.mp hstep
    cases hwrite
    exact ⟨_, _, rfl, id, id⟩
  | skip now =>
    obtain ⟨_, hwrite⟩ := Option.ite_none_right_eq_some.mp hstep
    cases hwrite
    exact ⟨_, _, rfl, id, fun _ => rfl⟩
  | _ => cases hstep

theorem JobOk.locked (hdb : JobOk db) (hstep : performLocked fitDigest db action = some later) :
    JobOk later ∧ db.Grows later := by
  obtain ⟨row, application, rfl, happlication, hterminal⟩ := performLocked_writes hstep
  refine ⟨⟨hdb.rows, fun hclosed => ?_⟩, happlication, hterminal⟩
  have hclosing : (db.putJob row false).closedBySources = true := hclosed
  cases (putJob_closed db hclosing).1

/-! ## Runs -/

theorem session_begin (hsession : (state.begin opened).session index = some session) :
    state.session index = some session ∨ session = opened := by
  unfold JobState.session JobState.begin at hsession
  rw [Option.join_eq_some_iff, List.getElem?_append] at hsession
  split at hsession
  · exact .inl (Option.join_eq_some_iff.mpr hsession)
  right
  have hmem := List.mem_of_getElem? hsession
  rw [List.mem_singleton] at hmem
  exact Option.some.inj hmem

theorem session_set {entry : Option JobSession}
    (hsession : ((state.sessions.set place entry)[index]?).join = some session) :
    state.session index = some session ∨ entry = some session := by
  rw [Option.join_eq_some_iff, List.getElem?_set] at hsession
  split at hsession
  · split at hsession
    · exact .inr (Option.some.inj hsession)
    · cases hsession
  · exact .inl (Option.join_eq_some_iff.mpr hsession)

section

variable (hok : ClosureOk state)
include hok

theorem ClosureOk.begin (hopened : SessionOk state.db opened) :
    ClosureOk (state.begin opened) := by
  refine ⟨hok.db, fun index session hsession => ?_⟩
  rcases session_begin hsession with hold | rfl
  · exact hok.sessions index session hold
  · exact hopened

theorem ClosureOk.goOn {moved : JobSession}
    (hmoved : SessionOk state.db moved) : ClosureOk (state.goOn index moved) := by
  refine ⟨hok.db, fun other session hsession => ?_⟩
  rcases session_set hsession with hold | hnew
  · exact hok.sessions other session hold
  · cases hnew
    exact hmoved

theorem ClosureOk.finish (hdb : JobOk db) (hgrows : state.db.Grows db) :
    ClosureOk (state.finish index db) := by
  refine ⟨hdb, fun other session hsession => ?_⟩
  rcases session_set hsession with hold | hnew
  · exact (hok.sessions other session hold).grows hgrows
  · cases hnew

theorem ClosureOk.proceed (hsession : state.session index = some session)
    (hstep : proceedJob state index session = some after) : ClosureOk after := by
  have hrows := hok.sessions index session hsession
  have hmoved : ∀ running moved : ReconcileSession, SessionOk state.db (.reconcile running) →
      running.proceed state.db = some moved → SessionOk state.db (.reconcile moved) := by
    intro running moved hrunning hproceed
    have hsame : moved.rows = running.rows := by
      unfold ReconcileSession.proceed at hproceed
      split at hproceed <;> cases hproceed <;> rfl
    intro id tracked htracked
    exact hrunning id tracked (hsame ▸ htracked)
  unfold proceedJob at hstep
  split at hstep
  · next running =>
    have hnext : ∃ moved, running.proceed state.db = some moved ∧
        state.goOn index (.reconcile moved) = after := by
      split at hstep
      · split at hstep
        · cases hstep
        · exact Option.map_eq_some_iff.mp hstep
      · exact Option.map_eq_some_iff.mp hstep
    obtain ⟨moved, hproceed, rfl⟩ := hnext
    exact hok.goOn (hmoved running moved hrows hproceed)
  · cases hstep

theorem ClosureOk.commit (hsession : state.session index = some session)
    (hholds : ReadsHold state.db session) (hstep : commitJob state index session = some after) :
    ClosureOk after := by
  have hrunning := hok.sessions index session hsession
  unfold commitJob at hstep
  split at hstep
  · next running =>
    split at hstep
    · cases hstep
      exact hok.finish (hrunning.write hok.db hholds) (running.write_grows state.db)
    · cases hstep
  · split at hstep
    · cases hstep
    cases hstep
    exact hok.finish (hok.db.mark hrunning hholds) ⟨id, id⟩
  · next running =>
    split at hstep
    · next job hphase =>
      cases hstep
      exact hok.finish (hok.db.reconcile hrunning hholds hphase)
        (running.write_grows job state.db)
    · cases hstep

end

theorem ClosureOk.step (hok : ClosureOk before) (hunraced : UnracedClosure before action)
    (hstep : performJob codec fitDigest before action = some after) : ClosureOk after := by
  unfold performJob at hstep
  split at hstep
  · cases hstep
    exact hok.begin (ingestOk_start _ _)
  · split at hstep
    · next session hsession =>
      obtain ⟨moved, hlookup, rfl⟩ := Option.map_eq_some_iff.mp hstep
      exact hok.goOn ((hok.sessions _ _ hsession).lookup hok.db.rows hlookup)
    · cases hstep
  · split at hstep
    · next session hsession =>
      obtain ⟨moved, hdecide, rfl⟩ := Option.map_eq_some_iff.mp hstep
      exact hok.goOn ((hok.sessions _ _ hsession).decide hdecide)
    · cases hstep
  · cases hstep
    exact hok.begin fun id tracked hread => readMarked_ok hok.db.rows hread
  · cases hstep
    exact hok.begin fun id tracked hread => readMissed_ok hok.db.rows hread
  · obtain ⟨session, hsession, hproceed⟩ := Option.bind_eq_some_iff.mp hstep
    exact hok.proceed hsession hproceed
  · obtain ⟨session, hsession, hcommit⟩ := Option.bind_eq_some_iff.mp hstep
    exact hok.commit hsession (hunraced session hsession) hcommit
  · obtain ⟨session, hsession, rfl⟩ := Option.map_eq_some_iff.mp hstep
    exact hok.finish hok.db (.refl _)
  · obtain ⟨db, hlocked, rfl⟩ := Option.map_eq_some_iff.mp hstep
    obtain ⟨hdb, hgrows⟩ := hok.db.locked hlocked
    exact ⟨hdb, fun index session hsession => (hok.sessions index session hsession).grows hgrows⟩

theorem closureOk_invariant (codec : TextCodec) (fitDigest : (ContentField → String) → String) :
    (jobSystem codec fitDigest).Invariant UnracedClosure ClosureOk where
  init := by
    intro state hinit
    refine ⟨⟨hinit.rows, fun hclosed => ?_⟩, fun index session hsession => ?_⟩
    · rw [hinit.closed] at hclosed
      cases hclosed
    · unfold JobState.session at hsession
      rw [hinit.sessions] at hsession
      cases hsession
  step := fun _ _ _ hok hunraced hstep => hok.step hunraced hstep

/-- In every run whose commits find what they have read, a job that closing has skipped is
without active occurrence and without application. -/
theorem closed_job_unused (codec : TextCodec) (fitDigest : (ContentField → String) → String)
    (hreach : (jobSystem codec fitDigest).Reachable UnracedClosure state)
    (hclosed : state.db.closedBySources = true) :
    (∀ row ∈ state.db.occurrences, row.active = false) ∧ state.db.application = false := by
  have hdb := ((closureOk_invariant codec fitDigest).reachable hreach).db.closed hclosed
  exact ⟨hdb.inactive, hdb.application⟩

def sampleCodec : TextCodec where
  keywordsJson := fun _ => ""
  jobSignature := fun _ _ _ => ""

def sampleJob : JobRow where
  content := fun _ => ""
  applyUrlHash := none
  status := .scored
  score := none
  discoverySource := "lever"
  terminalSkipAt := none

def sampleOccurrence : OccurrenceRow where
  occurrenceKey := "a"
  jobId := 1
  sourceKey := "lever"
  catalogEntryId := none
  externalPostingId := none
  normalizedUrl := "u"
  normalizedUrlHash := "h"
  revisionDigest := "d"
  firstSeenAt := 0
  lastSeenAt := 0
  closedAt := none
  active := true

/-- A scored job with one active occurrence. -/
def observedJob : JobState where
  db := ⟨1, sampleJob, false, [sampleOccurrence], false⟩
  sessions := []

theorem observedJob_initial : JobInitial observedJob := by
  refine ⟨rfl, rfl, fun row hrow => ?_⟩
  obtain rfl := List.mem_singleton.mp hrow
  rfl

def leverQuery : SourceQuery := ⟨"lever", none⟩

/-- A snapshot misses the occurrence; everything but its commit. -/
def missingSnapshot : List JobAction :=
  [.reconcile leverQuery (.startedAt 5) 6, .proceed 0, .proceed 0, .proceed 0, .proceed 0]

/-- The guard of a commit, evaluated for snapshots that are reconciled. -/
def reconcileCheck (state : JobState) : JobAction → Bool
  | .commit index =>
    match state.session index with
    | some (.reconcile session) =>
      !state.db.application && (session.view state.db).all fun row => !row.active
    | _ => false
  | _ => true

theorem unraced_of_check (state : JobState) (action : JobAction)
    (hcheck : reconcileCheck state action = true) : UnracedClosure state action := by
  cases action with
  | commit index =>
    intro session hsession
    unfold reconcileCheck at hcheck
    simp only [hsession] at hcheck
    cases session with
    | reconcile session =>
      simp only [Bool.and_eq_true, Bool.not_eq_true', List.all_eq_true] at hcheck
      exact fun _ _ => hcheck
    | _ => cases hcheck
  | _ => trivial

def sampleRun (check : JobState → JobAction → Bool) (actions : List JobAction) : JobState :=
  runEnd (performJob sampleCodec fun _ => "") check observedJob actions

theorem sampleRun_reachable {guard : JobState → JobAction → Prop}
    (hcheck : ∀ state action, check state action = true → guard state action)
    (actions : List JobAction) :
    (jobSystem sampleCodec fun _ => "").Reachable guard (sampleRun check actions) := by
  apply runEnd_reachable
  · exact fun _ _ _ hstep => hstep
  · exact hcheck
  · exact observedJob_initial

def closedRun : JobState :=
  sampleRun reconcileCheck (missingSnapshot ++ [.commit 0])

/-- A snapshot that misses the only occurrence skips the job. -/
theorem closed_job_unused_sample :
    closedRun.db.job.status = .skipped ∧
      (∀ row ∈ closedRun.db.occurrences, row.active = false) ∧
      closedRun.db.application = false :=
  ⟨rfl, closed_job_unused sampleCodec (fun _ => "") (sampleRun_reachable unraced_of_check _) rfl⟩

/-- The page that shows the posting again is marked after the snapshot was reconciled. -/
def markedRun : JobState :=
  sampleRun (fun _ _ => true)
    (missingSnapshot ++ [.commit 0, .mark leverQuery ["a"] 7, .commit 1])

/-- The application is generated after the snapshot has looked for one. -/
def generatedRun : JobState :=
  sampleRun (fun _ _ => true) (missingSnapshot ++ [.generate "", .commit 0])

/-- A job that closing has skipped has an active occurrence; another one has an
application. -/
theorem closed_job_used :
    ((jobSystem sampleCodec fun _ => "").Reachable anyJobStep markedRun ∧
      markedRun.db.closedBySources = true ∧
      ∃ row ∈ markedRun.db.occurrences, row.active = true) ∧
    ((jobSystem sampleCodec fun _ => "").Reachable anyJobStep generatedRun ∧
      generatedRun.db.closedBySources = true ∧ generatedRun.db.application = true) := by
  refine ⟨⟨sampleRun_reachable (fun _ _ _ => trivial) _, by decide, ?_⟩,
    sampleRun_reachable (fun _ _ _ => trivial) _, by decide, by decide⟩
  decide

end JobApplyAgent.Discovery
