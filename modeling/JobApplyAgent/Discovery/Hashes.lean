import JobApplyAgent.Discovery.Carriers
import JobApplyAgent.Library.Slots

/-!
# One job for each hash

The steps of the system by what they do to the jobs, and the hashes that they bring.  As
long as a decision brings a hash that no other job carries, no two jobs share their hash.
-/

namespace JobApplyAgent.Discovery

open Domain Library

variable {fitDigest : (ContentField → String) → String}
  {before : DiscoveryState} {id : ℕ} {hash : String}

/-- What the steps of the system do. -/
inductive DiscoveryEffect (codec : TextCodec) (before : DiscoveryState) :
    DiscoveryAction → DiscoveryState → Prop
  | began (postings : List DiscoveredPosting) : DiscoveryEffect codec before (.begin postings)
      { before with sessions := before.sessions ++ [some (beginIngest postings)] }
  | lookedUp (index : ℕ) (session moved : IngestSession)
      (hsession : runningIngest before index = some session)
      (hlookup : lookup before.db session = some moved) :
      DiscoveryEffect codec before (.lookup index) (advance before index before.db (some moved))
  | decided (index : ℕ) (session : IngestSession) (db : DiscoveryDb) (moved : IngestSession)
      (hsession : runningIngest before index = some session)
      (hdecide : decideMatched codec before.db session (heldBy before index) = .ok (db, moved)) :
      DiscoveryEffect codec before (.decide index) (advance before index db (some moved))
  | committed (index : ℕ) (session : IngestSession) (db : DiscoveryDb)
      (hsession : runningIngest before index = some session)
      (hcommit : commitIngest before.db session (heldBy before index) = .ok db) :
      DiscoveryEffect codec before (.commit index) (advance before index db none)
  | aborted (index : ℕ) (session : IngestSession)
      (hsession : runningIngest before index = some session) :
      DiscoveryEffect codec before (.abort index) (advance before index before.db none)
  /-- Another writer locks a job and changes neither its content nor its hash. -/
  | wrote (action : DiscoveryAction) (jobId : ℕ) (row new : JobRow) (applications : ℕ → Bool)
      (haction : ∀ index, action ≠ .lookup index ∧ action ≠ .decide index)
      (hlocked : lockedJob before jobId = some row) (hcontent : new.content = row.content)
      (hhash : new.applyUrlHash = row.applyUrlHash) :
      DiscoveryEffect codec before action { before with
        db := { before.db with jobs := before.db.jobs.put jobId new, applications } }

theorem toOption_eq_some {ε α : Type} {result : Except ε α} {value : α}
    (hresult : result.toOption = some value) : result = .ok value := by
  cases result with
  | error failure => cases hresult
  | ok found =>
    cases hresult
    rfl

theorem performDiscovery_effect
    (hstep : performDiscovery codec fitDigest before action = some after) :
    DiscoveryEffect codec before action after := by
  cases action with
  | begin postings =>
    cases hstep
    exact .began postings
  | lookup index =>
    obtain ⟨session, hsession, hrest⟩ := Option.bind_eq_some_iff.mp hstep
    obtain ⟨moved, hlookup, hresult⟩ := Option.bind_eq_some_iff.mp hrest
    cases hresult
    exact .lookedUp index session moved hsession hlookup
  | decide index =>
    obtain ⟨session, hsession, hrest⟩ := Option.bind_eq_some_iff.mp hstep
    obtain ⟨⟨db, moved⟩, hdecide, hresult⟩ := Option.bind_eq_some_iff.mp hrest
    cases hresult
    exact .decided index session db moved hsession (toOption_eq_some hdecide)
  | commit index =>
    obtain ⟨session, hsession, hrest⟩ := Option.bind_eq_some_iff.mp hstep
    obtain ⟨db, hcommit, hresult⟩ := Option.bind_eq_some_iff.mp hrest
    cases hresult
    exact .committed index session db hsession (toOption_eq_some hcommit)
  | abort index =>
    obtain ⟨session, hsession, hresult⟩ := Option.bind_eq_some_iff.mp hstep
    cases hresult
    exact .aborted index session hsession
  | score jobId jobDigest expected score outcome =>
    obtain ⟨row, hlocked, hrest⟩ := Option.bind_eq_some_iff.mp hstep
    obtain ⟨_, hresult⟩ := Option.ite_none_right_eq_some.mp hrest
    cases hresult
    exact .wrote _ jobId row _ before.db.applications (fun _ => ⟨nofun, nofun⟩) hlocked rfl
      rfl
  | rescore jobId jobDigest score =>
    obtain ⟨row, hlocked, hrest⟩ := Option.bind_eq_some_iff.mp hstep
    obtain ⟨_, hresult⟩ := Option.ite_none_right_eq_some.mp hrest
    cases hresult
    exact .wrote _ jobId row _ before.db.applications (fun _ => ⟨nofun, nofun⟩) hlocked rfl
      rfl
  | generate jobId jobDigest =>
    obtain ⟨row, hlocked, hrest⟩ := Option.bind_eq_some_iff.mp hstep
    obtain ⟨_, hresult⟩ := Option.ite_none_right_eq_some.mp hrest
    cases hresult
    exact .wrote _ jobId row _ _ (fun _ => ⟨nofun, nofun⟩) hlocked rfl rfl
  | regenerate jobId jobDigest =>
    obtain ⟨row, hlocked, hrest⟩ := Option.bind_eq_some_iff.mp hstep
    obtain ⟨_, hresult⟩ := Option.ite_none_right_eq_some.mp hrest
    cases hresult
    exact .wrote _ jobId row _ before.db.applications (fun _ => ⟨nofun, nofun⟩) hlocked rfl
      rfl
  | skip jobId now =>
    obtain ⟨row, hlocked, hrest⟩ := Option.bind_eq_some_iff.mp hstep
    obtain ⟨_, hresult⟩ := Option.ite_none_right_eq_some.mp hrest
    cases hresult
    exact .wrote _ jobId row _ before.db.applications (fun _ => ⟨nofun, nofun⟩) hlocked rfl
      rfl

/-! ## Sessions -/

variable {session : Option IngestSession} {found : IngestSession}

theorem runningIngest_advance
    (hfound : runningIngest (advance before index db session) place = some found) :
    place = index ∧ session = some found ∨
      place ≠ index ∧ runningIngest before place = some found :=
  Slots.entry_put hfound

theorem runningIngest_began (hfound : runningIngest { before with
      sessions := before.sessions ++ [some (beginIngest postings)] } place = some found) :
    runningIngest before place = some found ∨ found = beginIngest postings := by
  have hentry : (Slots.add before.sessions (beginIngest postings)).entry place = some found :=
    hfound
  rcases Slots.entry_add hentry with ⟨hold, _⟩ | ⟨_, hnew⟩
  · exact .inl hold
  · exact .inr hnew

/-! ## The hashes that steps bring -/

/-- The action decides on a posting with the hash, and creates the job or rewrites it. -/
def Brings (codec : TextCodec) (state : DiscoveryState) (action : DiscoveryAction) (id : ℕ)
    (hash : String) : Prop :=
  ∃ index session posting target, action = .decide index ∧
    runningIngest state index = some session ∧ session.phase = .matched posting target ∧
    rewritesJob codec state.db session posting target = true ∧
    hash = posting.occurrence.normalizedUrlHash ∧
    (insertsJob session = true ∧ id = state.db.nextJob ∨
      insertsJob session = false ∧ targetJob session target = some id)

/-- What the decision on a matched posting brings. -/
theorem Brings.of_decide {session : IngestSession}
    (hbrings : Brings codec before (.decide index) id hash)
    (hsession : runningIngest before index = some session)
    (hphase : session.phase = .matched posting target) :
    rewritesJob codec before.db session posting target = true ∧
    hash = posting.occurrence.normalizedUrlHash ∧
    (insertsJob session = true ∧ id = before.db.nextJob ∨
      insertsJob session = false ∧ targetJob session target = some id) := by
  obtain ⟨_, _, _, _, haction, hsame, hagain, hrest⟩ := hbrings
  cases haction
  rw [hsession] at hsame
  cases hsame
  rw [hphase] at hagain
  cases hagain
  exact hrest

theorem carriedIn_carriesHash {session : IngestSession}
    (hsession : runningIngest before index = some session)
    (hcarried : CarriedIn before.db session id hash) : CarriesHash before id hash := by
  obtain ⟨row, hrow, hhash⟩ | hcarries := hcarried
  · exact .committed row hrow hhash
  · exact .running index session hsession hcarries

/-- Committed rows that are the same, and an ingest that brings no hash. -/
theorem carriesHash_advance (hrows : ∀ row, db.jobs id = some row → row.applyUrlHash = some hash →
      CarriesHash before id hash)
    (hmoved : ∀ moved, session = some moved → SessionCarries moved id hash →
      CarriesHash before id hash) (hcarries : CarriesHash (advance before index db session)
        id hash) :
    CarriesHash before id hash := by
  cases hcarries with
  | committed row hrow hhash => exact hrows row hrow hhash
  | running place found hfound hheld =>
    rcases runningIngest_advance hfound with ⟨_, hsome⟩ | ⟨_, hold⟩
    · exact hmoved found hsome hheld
    · exact .running place found hold hheld

/-- Every hash after a step was carried before it, or the step brings it. -/
theorem DiscoveryEffect.carries (heffect : DiscoveryEffect codec before action after)
    (hcarries : CarriesHash after id hash) :
    CarriesHash before id hash ∨ Brings codec before action id hash := by
  by_cases hbrings : Brings codec before action id hash
  · exact .inr hbrings
  left
  cases heffect with
  | began postings =>
    cases hcarries with
    | committed row hrow hhash => exact .committed row hrow hhash
    | running place found hfound hheld =>
      rcases runningIngest_began hfound with hold | rfl
      · exact .running place found hold hheld
      · cases hheld with
        | flushed row hrow hhash => cases hrow
        | staged tracked hrow hhash hchanged => cases hrow
  | lookedUp index session moved hsession hlookup =>
    refine carriesHash_advance (fun row hrow hhash => .committed row hrow hhash) ?_ hcarries
    rintro found hfound hheld
    cases hfound
    exact .running index session hsession ((lookup_lookedUp hlookup).carries hheld)
  | decided index session db moved hsession hdecide =>
    obtain ⟨posting, target, hphase, ⟨hinserts, hcreates⟩ | ⟨hkeeps, rfl, hstages⟩⟩ :=
      decideMatched_cases hdecide
    · refine carriesHash_advance ?_ ?_ hcarries
      · intro row hrow hhash
        obtain ⟨flushed, hflush, _⟩ := hcreates.flushed
        rw [hflush.jobs] at hrow
        exact .committed row hrow hhash
      · rintro found hfound hheld
        cases hfound
        rcases hcreates.carries hheld with hcarried | ⟨hid, hsame⟩
        · exact carriedIn_carriesHash hsession hcarried
        refine absurd ⟨index, session, posting, target, rfl, hsession, hphase, ?_, hsame,
          .inl ⟨hinserts, hid⟩⟩ hbrings
        unfold insertsJob at hinserts
        rw [hphase] at hinserts
        cases target with
        | missing catalogId => rfl
        | known | seen | canonical => cases hinserts
    · refine carriesHash_advance (fun row hrow hhash => .committed row hrow hhash) ?_ hcarries
      rintro found hfound hheld
      cases hfound
      rcases hstages.carries hheld with hold | ⟨hrewrites, htarget, hsame⟩
      · exact .running index session hsession hold
      · exact absurd ⟨index, session, posting, target, rfl, hsession, hphase, hrewrites, hsame,
          .inr ⟨hkeeps, htarget⟩⟩ hbrings
  | committed index session db hsession hcommit =>
    refine carriesHash_advance ?_ (fun moved hmoved => by cases hmoved) hcarries
    intro row hrow hhash
    exact carriedIn_carriesHash hsession (commitIngest_carries hcommit hrow hhash)
  | aborted index session hsession =>
    exact carriesHash_advance (fun row hrow hhash => .committed row hrow hhash)
      (fun moved hmoved => by cases hmoved) hcarries
  | wrote action jobId row new applications haction hlocked hcontent hhash =>
    cases hcarries with
    | running place found hfound hheld => exact .running place found hfound hheld
    | committed found hfound hsame =>
      rcases Table.put_eq_some hfound with ⟨rfl, rfl⟩ | ⟨_, hold⟩
      · unfold lockedJob at hlocked
        exact .committed row (Option.ite_none_left_eq_some.mp hlocked).2 (hhash ▸ hsame)
      · exact .committed found hold hsame

end JobApplyAgent.Discovery
