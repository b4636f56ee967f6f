import JobApplyAgent.Discovery.Claims
import JobApplyAgent.Intake.Jobs

/-!
# The stored apply URLs

A job row is clean when its apply URL is in normal form and its digest is that of its URL.
The steps of an ingest keep the rows clean that it has loaded, flushed and committed, as
long as the postings that create or rewrite a job are in normal form.
-/

namespace JobApplyAgent.Intake

open Discovery Domain Library

variable {codec : IntakeCodec}

/-! ## Clean rows -/

section Clean

variable (codec)

def NormalUrl (url : String) : Prop :=
  codec.links.normalizeUrl url = url

/-- The row has the digest of its URL, and the URL is in normal form. -/
structure CleanRow (row : JobRow) : Prop where
  normal : row.content .applyUrl ≠ "" → NormalUrl codec (row.content .applyUrl)
  hash : row.applyUrlHash = if row.content .applyUrl = "" then none
    else some (codec.links.urlHash (row.content .applyUrl))

/-- A loaded row and its staged values are clean, and differ in their URL only if they
differ in their digest. -/
structure CleanTracked (tracked : Tracked JobRow) : Prop where
  loaded : CleanRow codec tracked.loaded
  staged : CleanRow codec tracked.staged
  apart : tracked.staged.applyUrlHash = tracked.loaded.applyUrlHash →
    tracked.staged.content .applyUrl = tracked.loaded.content .applyUrl

/-- A posting as a source builds it. -/
structure Sourced (posting : DiscoveredPosting) : Prop where
  nonempty : posting.occurrence.normalizedUrl ≠ ""
  hash : posting.occurrence.normalizedUrlHash =
    codec.links.urlHash posting.occurrence.normalizedUrl

end Clean

variable {row : JobRow}

theorem CleanTracked.fresh (hrow : CleanRow codec row) : CleanTracked codec (.fresh row) :=
  ⟨hrow, hrow, fun _ => rfl⟩

theorem CleanRow.of_same (hrow : CleanRow codec row)
    (hcontent : current.content .applyUrl = row.content .applyUrl)
    (hhash : current.applyUrlHash = row.applyUrlHash) : CleanRow codec current := by
  refine ⟨?_, ?_⟩
  · rw [hcontent]
    exact hrow.normal
  · rw [hcontent, hhash]
    exact hrow.hash

/-- The columns of a clean change are written back together. -/
theorem CleanTracked.writeBack (htracked : CleanTracked codec tracked)
    (hcurrent : CleanRow codec current) : CleanRow codec (writeBackJob tracked current) := by
  by_cases hsame : tracked.staged.content .applyUrl = tracked.loaded.content .applyUrl
  · have hhash : tracked.staged.applyUrlHash = tracked.loaded.applyUrlHash := by
      rw [htracked.staged.hash, htracked.loaded.hash, hsame]
    exact hcurrent.of_same (if_pos hsame) (if_pos hhash)
  · have hhash : tracked.staged.applyUrlHash ≠ tracked.loaded.applyUrlHash :=
      fun hsameHash => hsame (htracked.apart hsameHash)
    exact htracked.staged.of_same (if_neg hsame) (if_neg hhash)

theorem Sourced.cleanRow (hsourced : Sourced codec posting)
    (hnormal : NormalUrl codec posting.occurrence.normalizedUrl)
    (hcontent : row.content .applyUrl = posting.occurrence.normalizedUrl)
    (hhash : row.applyUrlHash = some posting.occurrence.normalizedUrlHash) :
    CleanRow codec row := by
  refine ⟨?_, ?_⟩
  · rw [hcontent]
    exact fun _ => hnormal
  · rw [hcontent, hhash, if_neg hsourced.nonempty, hsourced.hash]

theorem extractedRow_clean
    (hnormal : extracted.applyUrl ≠ "" → NormalUrl codec extracted.applyUrl) :
    CleanRow codec (extractedRow codec extracted) :=
  ⟨hnormal, rfl⟩

theorem CleanRow.hash_of_form (hrow : CleanRow codec row)
    (hform : urlForm codec row = some form) :
    row.applyUrlHash = some (codec.links.urlHash form) := by
  obtain ⟨hurl, hsame⟩ := Option.ite_none_left_eq_some.mp hform
  rw [hrow.hash, if_neg hurl, ← Option.some.inj hsame, hrow.normal hurl]

/-! ## What ingests hold -/

section Sessions

variable (codec)

def CleanDb (db : DiscoveryDb) : Prop :=
  ∀ (id : ℕ) (row : JobRow), db.jobs id = some row → CleanRow codec row ∧ id < db.nextJob

/-- An ingest over a sequence that has reached the bound. -/
structure CleanSession (bound : ℕ) (session : IngestSession) : Prop where
  flushed : ∀ (id : ℕ) (row : JobRow), session.flushedJobs id = some row →
    CleanRow codec row ∧ id < bound
  tracked : ∀ (id : ℕ) (tracked : Tracked JobRow), session.jobs id = some tracked →
    CleanTracked codec tracked
  postings : ∀ posting ∈ session.postings, Sourced codec posting
  matched : ∀ posting target, session.phase = .matched posting target →
    Sourced codec posting ∧
      (insertsJob session = true → NormalUrl codec posting.occurrence.normalizedUrl)

end Sessions

variable {session moved : IngestSession} {held : Held}
  {bound : ℕ}

theorem CleanSession.mono (hclean : CleanSession codec bound session)
    (hbound : bound ≤ other) : CleanSession codec other session :=
  { hclean with
    flushed := fun id row hrow =>
      ⟨(hclean.flushed id row hrow).1, (hclean.flushed id row hrow).2.trans_le hbound⟩ }

theorem CleanSession.view (hclean : CleanSession codec db.nextJob session)
    (hdb : CleanDb codec db) {id : ℕ} (hrow : viewJobs db session id = some row) :
    CleanRow codec row ∧ id < db.nextJob := by
  rcases Table.overlay_eq_some.mp hrow with hflushed | ⟨_, hcommitted⟩
  · exact hclean.flushed id row hflushed
  · exact hdb id row hcommitted

theorem beginIngest_clean (hsourced : ∀ posting ∈ postings, Sourced codec posting) :
    CleanSession codec bound (beginIngest postings) := by
  refine ⟨?_, ?_, hsourced, ?_⟩
  · intro id row hrow
    cases hrow
  · intro id tracked hrow
    cases hrow
  · intro posting target hphase
    cases hphase

/-- The rows that a flush leaves behind. -/
theorem CleanSession.flush (hclean : CleanSession codec db.nextJob session)
    (hdb : CleanDb codec db) (hflush : FlushedJobs db session afterDb moved) :
    CleanDb codec afterDb ∧ CleanSession codec afterDb.nextJob moved := by
  have hafter : CleanDb codec afterDb := by
    intro id row hrow
    rw [hflush.jobs] at hrow
    rw [hflush.nextJob]
    exact hdb id row hrow
  refine ⟨hafter, ?_, ?_, ?_, ?_⟩
  · intro id row hrow
    rw [hflush.nextJob]
    rw [hflush.flushed] at hrow
    rcases flushRows_eq_some hrow with hold | ⟨tracked, current, htracked, _, hcurrent, rfl⟩
    · exact hclean.flushed id row hold
    · have hview := hclean.view hdb hcurrent
      exact ⟨(hclean.tracked id tracked htracked).writeBack hview.1, hview.2⟩
  · intro id tracked hrow
    rw [hflush.loaded] at hrow
    obtain ⟨old, hold, rfl⟩ := Option.map_eq_some_iff.mp hrow
    exact .fresh (hclean.tracked id old hold).staged
  · rw [hflush.postings]
    exact hclean.postings
  · have hinserts : insertsJob moved = insertsJob session := by
      unfold insertsJob
      rw [hflush.phase]
    rw [hflush.phase, hinserts]
    exact hclean.matched

theorem CleanSession.lookup (hclean : CleanSession codec db.nextJob session)
    (hdb : CleanDb codec db) (hlookup : lookup db session = some moved)
    (hnormal : ∀ posting catalogId, session.postings.head? = some posting →
      findTarget db session posting = .missing catalogId →
      NormalUrl codec posting.occurrence.normalizedUrl) :
    CleanSession codec db.nextJob moved := by
  have hlookedUp := lookup_lookedUp hlookup
  obtain ⟨_, posting, rest, hpostings, hrest, hphase⟩ := lookup_matched hlookup
  refine ⟨?_, ?_, ?_, ?_⟩
  · rw [hlookedUp.flushedJobs]
    exact hclean.flushed
  · intro id tracked hrow
    rcases hlookedUp.jobs id with hsame | ⟨_, row, hview, hfresh⟩
    · exact hclean.tracked id tracked (hsame ▸ hrow)
    · rw [hfresh] at hrow
      cases hrow
      exact .fresh (hclean.view hdb hview).1
  · intro other hother
    rw [hrest] at hother
    exact hclean.postings other (hpostings ▸ List.mem_cons_of_mem _ hother)
  · intro found target hfound
    rw [hphase] at hfound
    cases hfound
    refine ⟨hclean.postings posting (hpostings ▸ List.mem_cons_self), fun hinserts => ?_⟩
    unfold insertsJob at hinserts
    rw [hphase] at hinserts
    cases htarget : findTarget db session posting with
    | missing catalogId => exact hnormal posting catalogId (hpostings ▸ rfl) htarget
    | known | seen | canonical =>
      rw [htarget] at hinserts
      cases hinserts

/-- The row of a posting in normal form. -/
theorem createJob_clean (hsourced : Sourced codec posting)
    (hnormal : NormalUrl codec posting.occurrence.normalizedUrl) :
    CleanRow codec (createJob codec.texts posting) :=
  hsourced.cleanRow hnormal rfl rfl

theorem CleanSession.stage (hclean : CleanSession codec bound session)
    (hphase : session.phase = .matched posting target)
    (hstages : StagesJob codec.texts db session posting target moved)
    (hnormal : rewritesJob codec.texts db session posting target = true →
      NormalUrl codec posting.occurrence.normalizedUrl ∧
      ∀ jobId tracked, loadedJob session target = some (jobId, tracked) →
        tracked.loaded.applyUrlHash = some posting.occurrence.normalizedUrlHash →
        tracked.loaded.content .applyUrl = posting.occurrence.normalizedUrl) :
    CleanSession codec bound moved := by
  obtain ⟨jobId, tracked, new, hloaded, hstaged, hjobs⟩ := hstages.jobs
  have htracked := hclean.tracked jobId tracked (loadedJob_eq_some hloaded).2
  have hnew : CleanTracked codec new := by
    cases hstaged with
    | kept => exact htracked
    | reopened =>
      exact ⟨htracked.loaded, htracked.staged.of_same rfl rfl, htracked.apart⟩
    | rewritten hrewrites =>
      obtain ⟨hform, hapart⟩ := hnormal hrewrites
      refine ⟨htracked.loaded, (hclean.matched posting target hphase).1.cleanRow hform rfl rfl,
        fun hsame => ?_⟩
      exact (hapart jobId tracked hloaded hsame.symm).symm
  refine ⟨?_, ?_, ?_, ?_⟩
  · rw [hstages.flushedJobs]
    exact hclean.flushed
  · intro id found hfound
    rw [hjobs] at hfound
    rcases Table.put_eq_some hfound with ⟨_, rfl⟩ | ⟨_, hold⟩
    · exact hnew
    · exact hclean.tracked id found hold
  · rw [hstages.postings]
    exact hclean.postings
  · intro other found hfound
    rw [hstages.phase] at hfound
    cases hfound

theorem CleanSession.create (hclean : CleanSession codec db.nextJob session)
    (hdb : CleanDb codec db) (hphase : session.phase = .matched posting target)
    (hinserts : insertsJob session = true)
    (hcreates : CreatesJob codec.texts db session held posting afterDb moved) :
    CleanDb codec afterDb ∧ CleanSession codec afterDb.nextJob moved := by
  obtain ⟨flushed, hflush, hjobs, hflushed⟩ := hcreates.flushed
  obtain ⟨hsourced, hnormal⟩ := hclean.matched posting target hphase
  have hnew := createJob_clean hsourced (hnormal hinserts)
  have hgrown : CleanDb codec { db with nextJob := db.nextJob + 1 } := by
    intro id row hrow
    obtain ⟨hrowClean, hid⟩ := hdb id row hrow
    exact ⟨hrowClean, Nat.lt_succ_of_lt hid⟩
  have hinner := CleanSession.flush ?_ hgrown hflush
  · refine ⟨hinner.1, hflushed ▸ hinner.2.flushed, hjobs ▸ hinner.2.tracked, ?_, ?_⟩
    · rw [hcreates.postings]
      exact hclean.postings
    · intro other found hfound
      rw [hcreates.phase] at hfound
      cases hfound
  · refine ⟨?_, ?_, hclean.postings, fun other found hfound => nomatch hfound⟩
    · intro id row hrow
      rcases Table.put_eq_some hrow with ⟨rfl, rfl⟩ | ⟨_, hold⟩
      · exact ⟨hnew, Nat.lt_succ_self _⟩
      · exact ⟨(hclean.flushed id row hold).1, Nat.lt_succ_of_lt (hclean.flushed id row hold).2⟩
    · intro id tracked hrow
      rcases Table.put_eq_some hrow with ⟨_, rfl⟩ | ⟨_, hold⟩
      · exact .fresh hnew
      · exact hclean.tracked id tracked hold

theorem commitIngest_clean (hclean : CleanSession codec db.nextJob session)
    (hdb : CleanDb codec db) (hcommit : commitIngest db session held = .ok afterDb) :
    CleanDb codec afterDb ∧ db.nextJob ≤ afterDb.nextJob := by
  unfold commitIngest at hcommit
  split at hcommit
  · cases hresult : flush db session held with
    | error failure =>
      rw [hresult] at hcommit
      cases hcommit
    | ok result =>
      rw [hresult] at hcommit
      obtain ⟨flushedDb, flushed⟩ := result
      cases hcommit
      have hflush := flush_flushedJobs hresult
      obtain ⟨hafter, hmoved⟩ := hclean.flush hdb hflush
      exact ⟨fun id row hrow => hmoved.view hafter hrow, hflush.nextJob.ge⟩
  · cases hcommit

end JobApplyAgent.Intake
