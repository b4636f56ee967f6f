import JobApplyAgent.Discovery.System

/-!
# Which jobs carry a hash

A job carries a URL hash when its committed row does, when a running ingest has flushed the
hash for it, or when one will write it.  Queries, flushes and commits carry a hash on; only
a decision that creates or rewrites a job brings a new one.
-/

namespace JobApplyAgent.Discovery

open Domain Library

variable {session moved : IngestSession}
  {held : Held} {target : Target} {id : ℕ} {hash : String}

/-! ## Flushes -/

structure FlushedJobs (db : DiscoveryDb) (session : IngestSession) (after : DiscoveryDb)
    (moved : IngestSession) : Prop where
  jobs : after.jobs = db.jobs
  nextJob : after.nextJob = db.nextJob
  owners : after.applications = db.applications
  loaded : moved.jobs = synced session.jobs
  flushed : moved.flushedJobs =
    flushRows session.jobs unchangedJob writeBackJob session.flushedJobs db.jobs
  applications : moved.applications = session.applications
  postings : moved.postings = session.postings
  phase : moved.phase = session.phase

theorem FlushedJobs.insert {row : OccurrenceRow} (hstate : FlushedJobs db stored state.1 state.2)
    (hinsert : insertOccurrence held state row = .ok result) :
    FlushedJobs db stored result.1 result.2 := by
  obtain ⟨_, _, rfl⟩ := insertOccurrence_eq_ok hinsert
  exact ⟨hstate.jobs, hstate.nextJob, hstate.owners, hstate.loaded, hstate.flushed,
    hstate.applications, hstate.postings, hstate.phase⟩

theorem flush_flushedJobs (hflush : flush db session held = .ok (after, moved)) :
    FlushedJobs db session after moved := by
  refine foldlM_invariant (fun state => FlushedJobs db session state.1 state.2) ?_ _ ?_
    (flush_eq_ok hflush)
  · exact fun _ _ _ hstate hinsert => hstate.insert hinsert
  · exact ⟨rfl, rfl, rfl, rfl, rfl, rfl, rfl, rfl⟩

variable {row : JobRow}

/-- The rows that a flush writes carry on the staged and the current values of a column. -/
theorem flushRows_eq_some
    (hrow : flushRows loaded unchangedJob writeBackJob flushed base id = some row) :
    flushed id = some row ∨ ∃ tracked current, loaded id = some tracked ∧
      unchangedJob tracked = false ∧ Table.overlay flushed base id = some current ∧
      row = writeBackJob tracked current := by
  unfold flushRows at hrow
  cases hloaded : loaded id with
  | none =>
    rw [hloaded] at hrow
    exact .inl hrow
  | some tracked =>
    rw [hloaded] at hrow
    simp only at hrow
    split at hrow
    · exact .inl hrow
    next hchanged =>
    obtain ⟨current, hcurrent, rfl⟩ := Option.map_eq_some_iff.mp hrow
    exact .inr ⟨tracked, current, rfl, Bool.eq_false_iff.mpr hchanged, hcurrent, rfl⟩

/-- The committed rows, or what one ingest has written or will write. -/
def CarriedIn (db : DiscoveryDb) (session : IngestSession) (id : ℕ) (hash : String) : Prop :=
  (∃ row, db.jobs id = some row ∧ row.applyUrlHash = some hash) ∨ SessionCarries session id hash

theorem viewJobs_carriedIn (hrow : viewJobs db session id = some row)
    (hhash : row.applyUrlHash = some hash) : CarriedIn db session id hash := by
  rcases Table.overlay_eq_some.mp hrow with hflushed | ⟨_, hcommitted⟩
  · exact .inr (.flushed row hflushed hhash)
  · exact .inl ⟨row, hcommitted, hhash⟩

/-- A flush brings no new hash. -/
theorem FlushedJobs.carries (hflush : FlushedJobs db session after moved)
    (hcarries : SessionCarries moved id hash) : CarriedIn db session id hash := by
  cases hcarries with
  | flushed row hrow hhash =>
    rw [hflush.flushed] at hrow
    rcases flushRows_eq_some hrow with hold | ⟨tracked, current, htracked, _, hcurrent, rfl⟩
    · exact .inr (.flushed row hold hhash)
    rcases writeBack_cases tracked.loaded.applyUrlHash tracked.staged.applyUrlHash
      current.applyUrlHash with hstaged | ⟨_, hkept⟩
    · by_cases hchanged : tracked.staged.applyUrlHash = tracked.loaded.applyUrlHash
      · have hcurrentHash : current.applyUrlHash = some hash := by
          rw [← hhash]
          exact (if_pos hchanged).symm
        exact viewJobs_carriedIn hcurrent hcurrentHash
      · exact .inr (.staged tracked htracked (hstaged.symm.trans hhash) hchanged)
    · exact viewJobs_carriedIn hcurrent (hkept.symm.trans hhash)
  | staged tracked hrow hhash hchanged =>
    rw [hflush.loaded] at hrow
    obtain ⟨_, _, rfl⟩ := Option.map_eq_some_iff.mp hrow
    exact absurd rfl hchanged

/-! ## Queries and decisions -/

/-- A query brings no new hash. -/
theorem LookedUp.carries (hlookedUp : LookedUp db session moved)
    (hcarries : SessionCarries moved id hash) : SessionCarries session id hash := by
  cases hcarries with
  | flushed row hrow hhash =>
    rw [hlookedUp.flushedJobs] at hrow
    exact .flushed row hrow hhash
  | staged tracked hrow hhash hchanged =>
    rcases hlookedUp.jobs id with hsame | ⟨_, row, _, hfresh⟩
    · rw [hsame] at hrow
      exact .staged tracked hrow hhash hchanged
    · rw [hfresh] at hrow
      cases hrow
      exact absurd rfl hchanged

/-- How a decision may change a loaded job. -/
inductive StagedJob (codec : TextCodec) (db : DiscoveryDb) (session : IngestSession)
    (posting : DiscoveredPosting) (target : Target) (tracked : Tracked JobRow) :
    Tracked JobRow → Prop
  | kept : StagedJob codec db session posting target tracked tracked
  | rewritten (hrewrites : rewritesJob codec db session posting target = true) :
      StagedJob codec db session posting target tracked
        { tracked with staged := updateMutableJob codec tracked.staged posting }
  | reopened : StagedJob codec db session posting target tracked
      { tracked with staged := { tracked.staged with status := .extracted, score := none } }

/-- What a decision about a loaded job does to the jobs. -/
structure StagesJob (codec : TextCodec) (db : DiscoveryDb) (session : IngestSession)
    (posting : DiscoveredPosting) (target : Target) (moved : IngestSession) : Prop where
  jobs : ∃ jobId tracked new, loadedJob session target = some (jobId, tracked) ∧
    StagedJob codec db session posting target tracked new ∧
    moved.jobs = session.jobs.put jobId new
  flushedJobs : moved.flushedJobs = session.flushedJobs
  postings : moved.postings = session.postings
  phase : moved.phase = .querying

structure CreatesJob (codec : TextCodec) (db : DiscoveryDb) (session : IngestSession)
    (held : Held) (posting : DiscoveredPosting) (after : DiscoveryDb) (moved : IngestSession) :
    Prop where
  flushed : ∃ flushed : IngestSession,
    FlushedJobs { db with nextJob := db.nextJob + 1 }
      { session with
        phase := .querying
        jobs := session.jobs.put db.nextJob (.fresh (createJob codec posting))
        flushedJobs := session.flushedJobs.put db.nextJob (createJob codec posting) }
      after flushed ∧
    moved.jobs = flushed.jobs ∧ moved.flushedJobs = flushed.flushedJobs
  postings : moved.postings = session.postings
  phase : moved.phase = .querying

theorem loadedJob_eq_some (hloaded : loadedJob session target = some (jobId, job)) :
    targetJob session target = some jobId ∧ session.jobs jobId = some job := by
  unfold loadedJob at hloaded
  obtain ⟨found, hfound, hrest⟩ := Option.bind_eq_some_iff.mp hloaded
  obtain ⟨tracked, htracked, hpair⟩ := Option.bind_eq_some_iff.mp hrest
  cases hpair
  exact ⟨hfound, htracked⟩

theorem decideMissing_createsJob
    (hdecide : decideMissing codec db { session with phase := .querying } held posting catalogId =
      .ok (after, moved)) : CreatesJob codec db session held posting after moved := by
  unfold decideMissing at hdecide
  obtain ⟨⟨flushedDb, flushed⟩, hflush, hresult⟩ := bind_eq_ok.mp hdecide
  cases hresult
  have hjobs := flush_flushedJobs hflush
  exact ⟨⟨flushed, hjobs, rfl, rfl⟩, hjobs.postings, hjobs.phase⟩

theorem queueIf_jobs (session : IngestSession) (jobId : ℕ) (awaits : Bool) :
    (queueIf session jobId awaits).jobs = session.jobs ∧
    (queueIf session jobId awaits).flushedJobs = session.flushedJobs ∧
    (queueIf session jobId awaits).postings = session.postings ∧
    (queueIf session jobId awaits).phase = session.phase := by
  unfold queueIf
  split <;> exact ⟨rfl, rfl, rfl, rfl⟩

theorem decideKnown_stagesJob {occurrenceId : ℕ}
    (htarget : target = .known occurrenceId)
    (hloaded : loadedJob session target = some (jobId, job))
    (hoccurrence : session.occurrences occurrenceId = some occurrence)
    (hmoved : moved = decideKnown codec db { session with phase := .querying } posting
      occurrenceId occurrence jobId job) :
    StagesJob codec db session posting target moved := by
  subst htarget
  unfold decideKnown at hmoved
  simp only at hmoved
  split at hmoved
  · next hrewrites =>
    subst hmoved
    refine ⟨⟨jobId, job, _, hloaded, .rewritten ?_, rfl⟩, rfl, rfl, rfl⟩
    unfold rewritesJob
    rw [hloaded]
    simp only [hoccurrence, Option.any_some]
    exact hrewrites
  · obtain ⟨hjobs, hflushed, hpostings, hphase⟩ := queueIf_jobs (countDuplicate _) jobId _
    subst hmoved
    refine ⟨⟨jobId, job, job, hloaded, .kept, ?_⟩, hflushed, hpostings, hphase⟩
    rw [hjobs]
    exact (Table.put_of_some (loadedJob_eq_some hloaded).2).symm

theorem decideSeen_stagesJob (htarget : (∃ occurrenceId, target = .seen occurrenceId catalogId) ∨
      target = .canonical jobId catalogId) (hloaded : loadedJob session target = some (jobId, job))
    (hmoved : moved = decideSeen codec db { session with phase := .querying } posting jobId job
      catalogId) :
    StagesJob codec db session posting target moved := by
  have hsame := (Table.put_of_some (loadedJob_eq_some hloaded).2).symm
  unfold decideSeen at hmoved
  simp only at hmoved
  split at hmoved
  · next hmay =>
    split at hmoved
    · next hricher =>
      subst hmoved
      refine ⟨⟨jobId, job, _, hloaded, .rewritten ?_, rfl⟩, rfl, rfl, rfl⟩
      unfold rewritesJob
      rw [hloaded]
      obtain ⟨occurrenceId, rfl⟩ | rfl := htarget <;>
        exact Bool.and_eq_true_iff.mpr ⟨hmay, decide_eq_true hricher⟩
    · split at hmoved
      · subst hmoved
        exact ⟨⟨jobId, job, _, hloaded, .reopened, rfl⟩, rfl, rfl, rfl⟩
      · subst hmoved
        obtain ⟨hjobs, hflushed, hpostings, hphase⟩ := queueIf_jobs
          { countDuplicate (readApplication db { session with phase := .querying } jobId) with
            pending := session.pending ++ [newOccurrence posting jobId catalogId] } jobId
          (awaitsScore job.staged (applicationOf db { session with phase := .querying } jobId))
        exact ⟨⟨jobId, job, job, hloaded, .kept, hjobs.trans hsame⟩, hflushed, hpostings, hphase⟩
  · subst hmoved
    exact ⟨⟨jobId, job, job, hloaded, .kept, hsame⟩, rfl, rfl, rfl⟩

/-- A decision creates a job, or it is about a job that is loaded. -/
theorem decideMatched_cases (hdecide : decideMatched codec db session held = .ok (after, moved)) :
    ∃ posting target, session.phase = .matched posting target ∧
      (insertsJob session = true ∧ CreatesJob codec db session held posting after moved ∨
        insertsJob session = false ∧ after = db ∧
          StagesJob codec db session posting target moved) := by
  unfold decideMatched at hdecide
  cases hphase : session.phase with
  | querying =>
    rw [hphase] at hdecide
    cases hdecide
  | matched posting target =>
    rw [hphase] at hdecide
    refine ⟨posting, target, rfl, ?_⟩
    unfold insertsJob
    rw [hphase]
    have hloadedJob : loadedJob { session with phase := .querying } target =
        loadedJob session target := rfl
    simp only [hloadedJob] at hdecide
    split at hdecide
    · next _ catalogId =>
      cases hresult : decideMissing codec db { session with phase := .querying } held posting
          catalogId with
      | error failure =>
        rw [hresult] at hdecide
        cases hdecide
      | ok result =>
        rw [hresult] at hdecide
        cases hdecide
        exact .inl ⟨rfl, decideMissing_createsJob hresult⟩
    · next occurrenceId jobId job hloaded =>
      split at hdecide
      · cases hdecide
      next occurrence hoccurrence =>
      cases hdecide
      exact .inr ⟨rfl, rfl, decideKnown_stagesJob rfl hloaded hoccurrence rfl⟩
    · next occurrenceId catalogId jobId job hloaded =>
      cases hdecide
      exact .inr ⟨rfl, rfl, decideSeen_stagesJob (.inl ⟨_, rfl⟩) hloaded rfl⟩
    · next canonicalId catalogId jobId job hloaded =>
      cases hdecide
      have htarget : canonicalId = jobId := Option.some.inj (loadedJob_eq_some hloaded).1
      exact .inr ⟨rfl, rfl, decideSeen_stagesJob (.inr (htarget ▸ rfl)) hloaded rfl⟩
    · cases hdecide

/-- A decision about a loaded job brings the hash of its posting, if it rewrites the job. -/
theorem StagesJob.carries (hstages : StagesJob codec db session posting target moved)
    (hcarries : SessionCarries moved id hash) :
    SessionCarries session id hash ∨
      rewritesJob codec db session posting target = true ∧
        targetJob session target = some id ∧ hash = posting.occurrence.normalizedUrlHash := by
  obtain ⟨jobId, tracked, new, hloaded, hstaged, hjobs⟩ := hstages.jobs
  obtain ⟨htarget, htracked⟩ := loadedJob_eq_some hloaded
  cases hcarries with
  | flushed row hrow hhash =>
    rw [hstages.flushedJobs] at hrow
    exact .inl (.flushed row hrow hhash)
  | staged found hrow hhash hchanged =>
    rw [hjobs] at hrow
    rcases Table.put_eq_some hrow with ⟨rfl, rfl⟩ | ⟨_, hold⟩
    · cases hstaged with
      | kept | reopened => exact .inl (.staged tracked htracked hhash hchanged)
      | rewritten hrewrites => exact .inr ⟨hrewrites, htarget, (Option.some.inj hhash).symm⟩
    · exact .inl (.staged found hold hhash hchanged)

/-- A decision that creates a job brings the hash of its posting for the new id. -/
theorem CreatesJob.carries (hcreates : CreatesJob codec db session held posting after moved)
    (hcarries : SessionCarries moved id hash) :
    CarriedIn db session id hash ∨
      id = db.nextJob ∧ hash = posting.occurrence.normalizedUrlHash := by
  obtain ⟨flushed, hflush, hjobs, hflushed⟩ := hcreates.flushed
  have hsession : SessionCarries flushed id hash := by
    cases hcarries with
    | flushed row hrow hhash => exact .flushed row (hflushed ▸ hrow) hhash
    | staged tracked hrow hhash hchanged => exact .staged tracked (hjobs ▸ hrow) hhash hchanged
  rcases hflush.carries hsession with ⟨row, hrow, hhash⟩ | hheld
  · exact .inl (.inl ⟨row, hrow, hhash⟩)
  cases hheld with
  | flushed row hrow hhash =>
    rcases Table.put_eq_some hrow with ⟨rfl, rfl⟩ | ⟨_, hold⟩
    · exact .inr ⟨rfl, (Option.some.inj hhash).symm⟩
    · exact .inl (.inr (.flushed row hold hhash))
  | staged tracked hrow hhash hchanged =>
    rcases Table.put_eq_some hrow with ⟨rfl, rfl⟩ | ⟨_, hold⟩
    · exact absurd rfl hchanged
    · exact .inl (.inr (.staged tracked hold hhash hchanged))

/-- A commit brings no new hash. -/
theorem commitIngest_carries (hcommit : commitIngest db session held = .ok after)
    (hrow : after.jobs id = some row) (hhash : row.applyUrlHash = some hash) :
    CarriedIn db session id hash := by
  unfold commitIngest at hcommit
  split at hcommit
  · next hphase hpostings =>
    cases hresult : flush db session held with
    | error failure =>
      rw [hresult] at hcommit
      cases hcommit
    | ok result =>
      rw [hresult] at hcommit
      obtain ⟨flushedDb, flushed⟩ := result
      cases hcommit
      have hflush := flush_flushedJobs hresult
      rcases viewJobs_carriedIn hrow hhash with ⟨found, hfound, hsame⟩ | hsession
      · exact .inl ⟨found, hflush.jobs ▸ hfound, hsame⟩
      · exact hflush.carries hsession
  · cases hcommit

end JobApplyAgent.Discovery
