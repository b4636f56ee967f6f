import JobApplyAgent.Intake.CleanRows
import JobApplyAgent.Intake.LinksDistinct

/-!
# One job for each posting

A run or an ingest has a digest in hand from the moment at which it looked it up in vain
until its commit.  In every run in which the stored apply URLs are in normal form, nothing
that is in hand is looked up in vain, and a revision moves its job to a URL that no other
job has, no two jobs have apply URLs with one normal form.
-/

namespace JobApplyAgent.Intake

open Discovery Domain Library TransitionSystem

variable {codec : IntakeCodec}
  {before : IntakeState}

/-! ## Digests in hand -/

section Guard

variable (codec)

/-- The run has looked the digest up in vain, and not created its job yet. -/
def Extracts (state : IntakeState) (run : ℕ) (hash : String) : Prop :=
  ∃ todo extracted, state.extractions run = some ⟨todo, .storing extracted⟩ ∧
    extracted.applyHash codec = some hash

/-- A running ingest or a run has the digest in hand. -/
def HashInHand (state : IntakeState) (hash : String) : Prop :=
  InHand state.discovery hash ∨ ∃ run, Extracts codec state run hash

/-- A posting moves its job to a URL that is in normal form and that no other job has or is
about to get; and the digest of the job changes with its URL. -/
structure MovesNormal (state : IntakeState) (session : IngestSession)
    (posting : DiscoveredPosting) (target : Target) : Prop where
  normal : NormalUrl codec posting.occurrence.normalizedUrl
  alone : MovesAlone state.discovery session posting target
  unextracted : ∀ run, ¬Extracts codec state run posting.occurrence.normalizedUrlHash
  apart : ∀ jobId tracked, loadedJob session target = some (jobId, tracked) →
    tracked.loaded.applyUrlHash = some posting.occurrence.normalizedUrlHash →
    tracked.loaded.content .applyUrl = posting.occurrence.normalizedUrl

/-- What is looked up in vain is in normal form and in no hand, and a posting that rewrites
a job moves it alone. -/
def Undoubled (state : IntakeState) : IntakeAction → Prop
  | .link action => AloneLook codec.links state.links action
  | .query run => ∀ todo extracted hash,
      state.extractions run = some ⟨todo, .checking extracted⟩ →
      extracted.applyHash codec = some hash →
      (jobExists state.discovery.db fun row => row.applyUrlHash = some hash) = false →
      NormalUrl codec extracted.applyUrl ∧ ¬HashInHand codec state hash
  | .discovery (.lookup index) => ∀ session posting catalogId,
      runningIngest state.discovery index = some session →
      session.postings.head? = some posting →
      findTarget state.discovery.db session posting = .missing catalogId →
      NormalUrl codec posting.occurrence.normalizedUrl ∧
        ¬HashInHand codec state posting.occurrence.normalizedUrlHash
  | .discovery (.decide index) => ∀ session posting target,
      runningIngest state.discovery index = some session →
      session.phase = .matched posting target → insertsJob session = false →
      rewritesJob codec.texts state.discovery.db session posting target = true →
      MovesNormal codec state session posting target
  | _ => True

/-- The committed rows and the ingests are clean, and each digest has one job or one hand. -/
structure JobsDistinct (state : IntakeState) : Prop where
  rows : CleanDb codec state.discovery.db
  sessions : ∀ index session, runningIngest state.discovery index = some session →
    CleanSession codec state.discovery.db.nextJob session
  extracted : ∀ run todo extracted, state.extractions run = some ⟨todo, .storing extracted⟩ →
    extracted.applyUrl ≠ "" → NormalUrl codec extracted.applyUrl
  claimed : Claimed (CarriesHash state.discovery)
    (Takers (Extracts codec state) state.discovery)

end Guard

/-- Clean rows with different digests have different forms. -/
theorem JobsDistinct.oneJob (hdistinct : JobsDistinct codec state) :
    OneJobPerPosting codec state.discovery.db := by
  intro id other row found form hrow hfound hform hsame
  have hhash := (hdistinct.rows id row hrow).1.hash_of_form hform
  have hother := (hdistinct.rows other found hfound).1.hash_of_form hsame
  exact hdistinct.claimed.carriers id other _ (.committed row hrow hhash)
    (.committed found hfound hother)

theorem JobsDistinct.bound (hdistinct : JobsDistinct codec state) (id : ℕ) (row : JobRow)
    (hrow : state.discovery.db.jobs id = some row) : id < state.discovery.db.nextJob :=
  (hdistinct.rows id row hrow).2

variable {hash : String} {extracted : ExtractedJob}

/-- What is in no hand was taken by nobody. -/
theorem HashInHand.untaken (hinHand : ¬HashInHand codec state hash) (taker : ℕ ⊕ ℕ) :
    ¬Takers (Extracts codec state) state.discovery taker hash := by
  intro htaker
  cases taker with
  | inl index => exact hinHand (.inl (.inr ⟨index, htaker⟩))
  | inr run => exact hinHand (.inr ⟨run, htaker⟩)

/-! ## Steps of the runs of a link's task -/

theorem JobsDistinct.of_extractions (hdistinct : JobsDistinct codec before)
    (hdiscovery : after.discovery = before.discovery)
    (hstoring : ∀ run todo extracted, after.extractions run = some ⟨todo, .storing extracted⟩ →
      ∃ old, before.extractions run = some ⟨old, .storing extracted⟩) :
    JobsDistinct codec after := by
  refine ⟨?_, ?_, ?_, ?_⟩
  · rw [hdiscovery]
    exact hdistinct.rows
  · rw [hdiscovery]
    exact hdistinct.sessions
  · intro run todo extracted hrun
    obtain ⟨old, hold⟩ := hstoring run todo extracted hrun
    exact hdistinct.extracted run old extracted hold
  · rw [hdiscovery]
    refine hdistinct.claimed.mono (fun _ _ hcarries => hcarries) fun taker hash htakes => ?_
    cases taker with
    | inl index => exact htakes
    | inr run =>
      obtain ⟨todo, extracted, hrun, hhash⟩ := htakes
      obtain ⟨old, hold⟩ := hstoring run todo extracted hrun
      exact ⟨old, extracted, hold, hhash⟩

theorem endedExtractions_eq_some
    (hrun : endedExtractions action extractions run = some extraction) :
    extractions run = some extraction := by
  unfold endedExtractions at hrun
  split at hrun
  · exact (Option.ite_none_left_eq_some.mp hrun).2
  · exact hrun

section

variable (hdistinct : JobsDistinct codec before)
include hdistinct

/-- A run goes on with an extraction that stores nothing. -/
theorem JobsDistinct.setExtraction (run : ℕ)
    (hphase : ∀ extracted, extraction.phase = .storing extracted →
      extracted.applyHash codec = none) :
    JobsDistinct codec (before.setExtraction run extraction) := by
  refine ⟨hdistinct.rows, hdistinct.sessions, ?_, ?_⟩
  · intro place todo extracted hplace hurl
    rcases Table.put_eq_some hplace with ⟨_, hsame⟩ | ⟨_, hold⟩
    · have hnone := hphase extracted (hsame ▸ rfl)
      unfold ExtractedJob.applyHash at hnone
      rw [if_neg hurl] at hnone
      cases hnone
    · exact hdistinct.extracted place todo extracted hold hurl
  · refine hdistinct.claimed.mono (fun _ _ hcarries => hcarries) fun taker hash htakes => ?_
    cases taker with
    | inl index => exact htakes
    | inr place =>
      obtain ⟨todo, extracted, hplace, hhash⟩ := htakes
      rcases Table.put_eq_some hplace with ⟨_, hsame⟩ | ⟨_, hold⟩
      · rw [hphase extracted (hsame ▸ rfl)] at hhash
        cases hhash
      · exact ⟨todo, extracted, hold, hhash⟩

theorem JobsDistinct.takeExtracted (hhash : extracted.applyHash codec = some hash)
    (hmissing : (jobExists before.discovery.db fun row => row.applyUrlHash = some hash) = false)
    (hnormal : NormalUrl codec extracted.applyUrl) (hinHand : ¬HashInHand codec before hash) :
    JobsDistinct codec (before.setExtraction run
      { todo := todo, phase := .storing extracted }) := by
  refine ⟨hdistinct.rows, hdistinct.sessions, ?_, ?_⟩
  · intro place rest found hplace hurl
    rcases Table.put_eq_some hplace with ⟨_, ⟨⟩⟩ | ⟨_, hold⟩
    · exact hnormal
    · exact hdistinct.extracted place rest found hold hurl
  · have hstored : ∀ id, ¬CarriesHash before.discovery id hash := by
      intro id hcarries
      cases hcarries with
      | committed row hrow hsame =>
        unfold jobExists at hmissing
        rw [Option.isSome_eq_false_iff, Option.isNone_iff_eq_none] at hmissing
        have hnone := Table.first_eq_none.mp hmissing id row (hdistinct.bound id row hrow) hrow
        exact of_decide_eq_false hnone hsame
      | running index session hsession hheld =>
        exact hinHand (.inl (.inl ⟨index, session, hsession, id, .inl hheld⟩))
    refine hdistinct.claimed.take (.inr run) hstored (HashInHand.untaken hinHand)
      (fun _ _ hcarries => hcarries) fun taker key htakes => ?_
    cases taker with
    | inl index => exact .inl htakes
    | inr place =>
      obtain ⟨rest, found, hplace, hkey⟩ := htakes
      rcases Table.put_eq_some hplace with ⟨rfl, ⟨⟩⟩ | ⟨_, hold⟩
      · rw [hhash] at hkey
        exact .inr ⟨rfl, (Option.some.inj hkey).symm⟩
      · exact .inl ⟨rest, found, hold, hkey⟩

theorem JobsDistinct.query (hundoubled : Undoubled codec before (.query run))
    (hrun : before.extractions run = some extraction)
    (hquery : queryJobs codec before.discovery.db extraction = some moved) :
    JobsDistinct codec (before.setExtraction run moved) := by
  unfold queryJobs at hquery
  split at hquery
  · next extracted rest hphase htodo =>
    cases hquery
    refine hdistinct.setExtraction run fun found hfound => ?_
    split at hfound
    · rw [hphase] at hfound
      cases hfound
    · cases hfound
  · next _ extracted hphase =>
    obtain ⟨todo, phase⟩ := extraction
    cases hphase
    split at hquery
    · next hnone =>
      cases hquery
      refine hdistinct.setExtraction run fun found hfound => ?_
      cases hfound
      exact hnone
    · next hash hhash =>
      cases hquery
      cases hmissing : jobExists before.discovery.db fun row => row.applyUrlHash =
        some hash with
      | true => exact hdistinct.setExtraction run fun found hfound => nomatch hfound
      | false =>
        obtain ⟨hnormal, hinHand⟩ := hundoubled todo extracted hash hrun hhash hmissing
        exact hdistinct.takeExtracted hhash hmissing hnormal hinHand
  · cases hquery

/-- A run commits the job of the digest that it has taken. -/
theorem JobsDistinct.insert (hrun : before.extractions run = some ⟨todo, .storing extracted⟩) :
    JobsDistinct codec { before.setExtraction run { todo := todo, phase := .looking } with
      discovery := { before.discovery with
        db := insertJob before.discovery.db (extractedRow codec extracted) } } := by
  have hcarries : ∀ id key, CarriesHash { before.discovery with
        db := insertJob before.discovery.db (extractedRow codec extracted) } id key →
      CarriesHash before.discovery id key ∨
        id = before.discovery.db.nextJob ∧ extracted.applyHash codec = some key := by
    intro id key hcarries
    cases hcarries with
    | committed row hrow hhash =>
      rcases Table.put_eq_some hrow with ⟨rfl, rfl⟩ | ⟨_, hold⟩
      · exact .inr ⟨rfl, hhash⟩
      · exact .inl (.committed row hold hhash)
    | running index session hsession hheld => exact .inl (.running index session hsession hheld)
  have htakes : ∀ taker key, Takers
      (Extracts codec (before.setExtraction run { todo := todo, phase := .looking }))
      before.discovery taker key →
      Takers (Extracts codec before) before.discovery taker key ∧ taker ≠ .inr run := by
    intro taker key htakes
    cases taker with
    | inl index => exact ⟨htakes, Sum.inl_ne_inr⟩
    | inr place =>
      obtain ⟨rest, found, hplace, hkey⟩ := htakes
      obtain ⟨_, ⟨⟩⟩ | ⟨hne, hold⟩ := Table.put_eq_some hplace
      refine ⟨⟨rest, found, hold, hkey⟩, fun hsame => ?_⟩
      cases hsame
      exact hne rfl
  refine ⟨?_, ?_, ?_, ?_⟩
  · intro id row hrow
    rcases Table.put_eq_some hrow with ⟨rfl, rfl⟩ | ⟨_, hold⟩
    · exact ⟨extractedRow_clean (hdistinct.extracted run todo extracted hrun),
        Nat.lt_succ_self _⟩
    · obtain ⟨hclean, hid⟩ := hdistinct.rows id row hold
      exact ⟨hclean, Nat.lt_succ_of_lt hid⟩
  · intro index session hsession
    exact (hdistinct.sessions index session hsession).mono (Nat.le_succ _)
  · intro place rest found hplace
    obtain ⟨_, ⟨⟩⟩ | ⟨_, hold⟩ := Table.put_eq_some hplace
    exact hdistinct.extracted place rest found hold
  · cases hhash : extracted.applyHash codec with
    | none =>
      refine hdistinct.claimed.mono (fun id key hid => ?_)
        fun taker key htaker => (htakes taker key htaker).1
      rcases hcarries id key hid with hold | ⟨_, hkey⟩
      · exact hold
      · rw [hhash] at hkey
        cases hkey
    | some hash =>
      have htaken : Takers (Extracts codec before) before.discovery (.inr run) hash :=
        ⟨todo, extracted, hrun, hhash⟩
      refine hdistinct.claimed.bring before.discovery.db.nextJob hash (fun id hid => ?_)
        (fun taker htaker => ?_) (fun id key hid => ?_)
        fun taker key htaker => (htakes taker key htaker).1
      · exact absurd hid (hdistinct.claimed.untaken _ _ htaken id)
      · obtain ⟨hold, hne⟩ := htakes taker hash htaker
        exact hne (hdistinct.claimed.takers _ _ _ hold htaken)
      · rcases hcarries id key hid with hold | ⟨hsame, hkey⟩
        · exact .inl hold
        · rw [hhash] at hkey
          exact .inr ⟨hsame, (Option.some.inj hkey).symm⟩

end

/-! ## Steps of the deliveries -/

/-- The job of a text post has no digest that another one could have. -/
theorem JobsDistinct.insertPost (hdistinct : JobsDistinct codec before) (post : TextPost) :
    JobsDistinct codec { before with
      discovery := { before.discovery with
        db := insertJob before.discovery.db (postRow codec post) } } := by
  refine ⟨?_, ?_, hdistinct.extracted, ?_⟩
  · intro id row hrow
    rcases Table.put_eq_some hrow with ⟨rfl, rfl⟩ | ⟨_, hold⟩
    · exact ⟨⟨fun hurl => absurd rfl hurl, rfl⟩, Nat.lt_succ_self _⟩
    · obtain ⟨hclean, hid⟩ := hdistinct.rows id row hold
      exact ⟨hclean, Nat.lt_succ_of_lt hid⟩
  · intro index session hsession
    exact (hdistinct.sessions index session hsession).mono (Nat.le_succ _)
  · refine hdistinct.claimed.mono (fun id hash hcarries => ?_) fun taker hash htakes => ?_
    · cases hcarries with
      | committed row hrow hhash =>
        rcases Table.put_eq_some hrow with ⟨_, rfl⟩ | ⟨_, hold⟩
        · cases hhash
        · exact .committed row hold hhash
      | running index session hsession hheld => exact .running index session hsession hheld
    · cases taker with
      | inl index => exact htakes
      | inr run => exact htakes

theorem JobsDistinct.storePosts (posts : List TextPost) (hdistinct : JobsDistinct codec before) :
    JobsDistinct codec { before with
      discovery := { before.discovery with
        db := storePosts codec before.discovery.db posts } } := by
  induction posts generalizing before with
  | nil => exact hdistinct
  | cons post rest ih => exact ih (hdistinct.insertPost post)

/-! ## Steps of the ingests -/

section

variable (hdistinct : JobsDistinct codec before)
include hdistinct

/-- An ingest goes on; the other ingests stay as they are. -/
theorem sessions_advance (hbound : before.discovery.db.nextJob ≤ db.nextJob)
    (hmoved : ∀ moved, session = some moved → CleanSession codec db.nextJob moved) :
    ∀ place found, runningIngest (advance before.discovery index db session) place = some found →
      CleanSession codec db.nextJob found := by
  intro place found hfound
  rcases runningIngest_advance hfound with ⟨_, hsession⟩ | ⟨_, hold⟩
  · exact hmoved found hsession
  · exact (hdistinct.sessions place found hold).mono hbound

theorem JobsDistinct.lookup (hundoubled : Undoubled codec before (.discovery (.lookup index)))
    (hsession : runningIngest before.discovery index = some session)
    (hlookup : Discovery.lookup before.discovery.db session = some moved) :
    JobsDistinct codec { before with
      discovery := advance before.discovery index before.discovery.db (some moved) } := by
  refine ⟨hdistinct.rows, sessions_advance hdistinct le_rfl ?_, hdistinct.extracted,
    claimed_lookup hdistinct.claimed hsession hlookup ?_⟩
  · intro found hfound
    cases hfound
    refine (hdistinct.sessions index session hsession).lookup hdistinct.rows hlookup ?_
    intro posting catalogId hhead htarget
    exact (hundoubled session posting catalogId hsession hhead htarget).1
  · intro posting catalogId hhead htarget
    have hinHand := (hundoubled session posting catalogId hsession hhead htarget).2
    refine ⟨fun id => ?_, HashInHand.untaken hinHand⟩
    exact findTarget_missing_free hdistinct.bound hsession htarget
      (fun hheld => hinHand (.inl hheld)) id

theorem JobsDistinct.decide (hundoubled : Undoubled codec before (.discovery (.decide index)))
    (hsession : runningIngest before.discovery index = some session)
    (hdecide : decideMatched codec.texts before.discovery.db session
      (heldBy before.discovery index) = .ok (db, moved)) :
    JobsDistinct codec { before with
      discovery := advance before.discovery index db (some moved) } := by
  have hclean := hdistinct.sessions index session hsession
  obtain ⟨posting, target, hphase, hcases⟩ := decideMatched_cases hdecide
  have hclaimed := claimed_decide hdistinct.claimed hsession hphase hdecide
    fun hkeeps hrewritten =>
      have hmoves := hundoubled session posting target hsession hphase hkeeps hrewritten
      ⟨hmoves.alone, hmoves.unextracted⟩
  obtain ⟨hinserts, hcreates⟩ | ⟨hkeeps, rfl, hstages⟩ := hcases
  · obtain ⟨hrows, hmoved⟩ := hclean.create hdistinct.rows hphase hinserts hcreates
    have hbound : before.discovery.db.nextJob ≤ db.nextJob := by
      obtain ⟨flushed, hflush, _⟩ := hcreates.flushed
      rw [hflush.nextJob]
      exact Nat.le_succ _
    refine ⟨hrows, sessions_advance hdistinct hbound ?_, hdistinct.extracted, hclaimed⟩
    intro found hfound
    cases hfound
    exact hmoved
  · refine ⟨hdistinct.rows, sessions_advance hdistinct le_rfl ?_, hdistinct.extracted, hclaimed⟩
    intro found hfound
    cases hfound
    refine hclean.stage hphase hstages fun hrewritten => ?_
    have hmoves := hundoubled session posting target hsession hphase hkeeps hrewritten
    exact ⟨hmoves.normal, hmoves.apart⟩

theorem JobsDistinct.discovery (hundoubled : Undoubled codec before (.discovery action))
    (heffect : DiscoveryEffect codec.texts before.discovery action moved)
    (hsourced : ∀ postings, action = .begin postings →
      ∀ posting ∈ postings, Sourced codec posting) :
    JobsDistinct codec { before with discovery := moved } := by
  have hclaimed := claimed_effect hdistinct.claimed heffect
  cases heffect with
  | began postings =>
    refine ⟨hdistinct.rows, ?_, hdistinct.extracted, hclaimed nofun nofun⟩
    intro index session hsession
    rcases runningIngest_began hsession with hold | rfl
    · exact hdistinct.sessions index session hold
    · exact beginIngest_clean (hsourced postings rfl)
  | lookedUp index session moved hsession hlookup =>
    exact hdistinct.lookup hundoubled hsession hlookup
  | decided index session db moved hsession hdecide =>
    exact hdistinct.decide hundoubled hsession hdecide
  | committed index session db hsession hcommit =>
    obtain ⟨hrows, hbound⟩ :=
      commitIngest_clean (hdistinct.sessions index session hsession) hdistinct.rows hcommit
    exact ⟨hrows, sessions_advance hdistinct hbound nofun, hdistinct.extracted,
      hclaimed nofun nofun⟩
  | aborted index session hsession =>
    exact ⟨hdistinct.rows, sessions_advance hdistinct le_rfl nofun, hdistinct.extracted,
      hclaimed nofun nofun⟩
  | wrote _ jobId row new applications haction hlocked hcontent hhash =>
    have hrow : before.discovery.db.jobs jobId = some row :=
      (Option.ite_none_left_eq_some.mp hlocked).2
    refine ⟨?_, hdistinct.sessions, hdistinct.extracted,
      hclaimed (fun index => (haction index).1) fun index => (haction index).2⟩
    intro id found hfound
    rcases Table.put_eq_some hfound with ⟨rfl, rfl⟩ | ⟨_, hold⟩
    · obtain ⟨hclean, hid⟩ := hdistinct.rows id row hrow
      exact ⟨hclean.of_same (congrFun hcontent .applyUrl) hhash, hid⟩
    · exact hdistinct.rows id found hold

end

theorem sourcePosting_sourced
    (hnonempty : (sourcePosting codec found).occurrence.normalizedUrl ≠ "") :
    Sourced codec (sourcePosting codec found) :=
  ⟨hnonempty, rfl⟩

theorem performIntake_discovery
    (hstep : performIntake codec fitDigest before (.discovery action) = some after) :
    (∀ postings, action ≠ .begin postings) ∧
      (performDiscovery codec.texts fitDigest before.discovery action).map
        (fun discovery => { before with discovery := discovery }) = some after := by
  cases action with
  | begin postings => cases hstep
  | _ => exact ⟨(fun postings hsame => nomatch hsame), hstep⟩

theorem jobsDistinct_step (hdistinct : JobsDistinct codec before)
    (hundoubled : Undoubled codec before action)
    (hstep : performIntake codec fitDigest before action = some after) :
    JobsDistinct codec after := by
  cases action with
  | link action =>
    obtain ⟨_, hlink⟩ := Option.ite_none_right_eq_some.mp hstep
    obtain ⟨links, _, rfl⟩ := Option.map_eq_some_iff.mp hlink
    have hstored := hdistinct.storePosts (links.posts.drop before.links.posts.length)
    exact hstored.of_extractions rfl fun run todo extracted hrun =>
      ⟨todo, endedExtractions_eq_some hrun⟩
  | extract run jobs =>
    simp only [performIntake] at hstep
    split at hstep
    · cases hstep
      refine hdistinct.setExtraction run fun extracted hphase => ?_
      cases hphase
    · cases hstep
  | query run =>
    obtain ⟨extraction, hrun, hquery⟩ := Option.bind_eq_some_iff.mp hstep
    obtain ⟨moved, hmoved, rfl⟩ := Option.map_eq_some_iff.mp hquery
    exact hdistinct.query hundoubled hrun hmoved
  | insert run =>
    simp only [performIntake] at hstep
    split at hstep
    · next todo extracted hrun =>
      cases hstep
      exact hdistinct.insert hrun
    · cases hstep
  | discover found =>
    obtain ⟨hnonempty, hbegin⟩ := Option.ite_none_right_eq_some.mp hstep
    obtain ⟨moved, hmoved, rfl⟩ := Option.map_eq_some_iff.mp hbegin
    have hbegun : Undoubled codec before (.discovery (.begin (found.map (sourcePosting codec)))) :=
      trivial
    refine hdistinct.discovery hbegun (performDiscovery_effect hmoved) ?_
    rintro postings hpostings posting hposting
    cases hpostings
    obtain ⟨source, hsource, rfl⟩ := List.mem_map.mp hposting
    have hurl := List.all_eq_true.mp hnonempty source hsource
    exact sourcePosting_sourced (of_decide_eq_true hurl)
  | discovery action =>
    obtain ⟨hother, hperform⟩ := performIntake_discovery hstep
    obtain ⟨moved, hmoved, rfl⟩ := Option.map_eq_some_iff.mp hperform
    refine hdistinct.discovery hundoubled (performDiscovery_effect hmoved) ?_
    rintro postings rfl
    exact absurd rfl (hother postings)

theorem jobsDistinct_invariant :
    (intakeSystem codec fitDigest).Invariant (Undoubled codec) (JobsDistinct codec) where
  init := by
    intro state hinitial
    have hidle : ∀ index, runningIngest state.discovery index = none := by
      intro index
      unfold runningIngest
      rw [hinitial.sessions]
      rfl
    refine ⟨?_, ?_, ?_, ?_⟩
    · intro id row hrow
      rw [hinitial.jobs] at hrow
      cases hrow
    · intro index session hsession
      rw [hidle index] at hsession
      cases hsession
    · intro run todo extracted hrun
      rw [hinitial.extractions] at hrun
      cases hrun
    · have htakes : ∀ taker key, ¬Takers (Extracts codec state) state.discovery taker key := by
        intro taker key htakes
        cases taker with
        | inl index =>
          obtain ⟨session, _, _, hsession, _⟩ := htakes
          rw [hidle index] at hsession
          cases hsession
        | inr run =>
          obtain ⟨_, _, hrun, _⟩ := htakes
          rw [hinitial.extractions] at hrun
          cases hrun
      have hcarries : ∀ id key, ¬CarriesHash state.discovery id key := by
        intro id key hid
        cases hid with
        | committed row hrow hhash =>
          rw [hinitial.jobs] at hrow
          cases hrow
        | running index session hsession hheld =>
          rw [hidle index] at hsession
          cases hsession
      exact ⟨fun id _ key hid => absurd hid (hcarries id key),
        fun taker key htaker => absurd htaker (htakes taker key),
        fun taker _ key htaker => absurd htaker (htakes taker key)⟩
  step := fun _ _ _ hdistinct hundoubled hstep => jobsDistinct_step hdistinct hundoubled hstep

end JobApplyAgent.Intake
