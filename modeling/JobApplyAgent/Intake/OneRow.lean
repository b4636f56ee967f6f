import JobApplyAgent.Intake.JobsDistinct

/-!
# One row each

Messages, links and jobs together: in every run without a doubled lookup there is one row for
each message and each link, and one job for each posting.
-/

namespace JobApplyAgent.Intake

open Discovery Domain Library TransitionSystem

/-- The links change by their own steps only. -/
theorem performIntake_links (hstep : performIntake codec fitDigest before action = some after) :
    after.links = before.links ∨ ∃ linkAction, action = .link linkAction ∧
      performLink codec.links before.links linkAction = some after.links := by
  unfold performIntake at hstep
  split at hstep
  · next linkAction =>
    obtain ⟨_, hlink⟩ := Option.ite_none_right_eq_some.mp hstep
    obtain ⟨links, hlinks, rfl⟩ := Option.map_eq_some_iff.mp hlink
    exact .inr ⟨linkAction, rfl, hlinks⟩
  · split at hstep <;> cases hstep
    exact .inl rfl
  · obtain ⟨extraction, _, hquery⟩ := Option.bind_eq_some_iff.mp hstep
    obtain ⟨moved, _, rfl⟩ := Option.map_eq_some_iff.mp hquery
    exact .inl rfl
  · split at hstep <;> cases hstep
    exact .inl rfl
  · obtain ⟨_, hbegin⟩ := Option.ite_none_right_eq_some.mp hstep
    obtain ⟨moved, _, rfl⟩ := Option.map_eq_some_iff.mp hbegin
    exact .inl rfl
  · cases hstep
  · obtain ⟨moved, _, rfl⟩ := Option.map_eq_some_iff.mp hstep
    exact .inl rfl

theorem intakeLinks_invariant :
    (intakeSystem codec fitDigest).Invariant (Undoubled codec)
      fun state => LinksDistinct codec.links state.links where
  init := by
    intro state hinitial
    rw [hinitial.links]
    exact linksDistinct_invariant.init noLinks rfl
  step := by
    intro before action after hdistinct hundoubled hstep
    rcases performIntake_links hstep with hsame | ⟨linkAction, rfl, hlinks⟩
    · rw [hsame]
      exact hdistinct
    · exact linksDistinct_step hdistinct hundoubled hlinks

/-- In every run in which what is looked up in vain is in normal form and in no hand, and a
revision moves its job alone, there is one row each. -/
theorem one_row_each (codec : IntakeCodec) (fitDigest : (ContentField → String) → String)
    (hreach : (intakeSystem codec fitDigest).Reachable (Undoubled codec) state) :
    OneRowEach codec state := by
  have hlinks := intakeLinks_invariant.reachable hreach
  have hjobs := jobsDistinct_invariant.reachable hreach
  exact ⟨hlinks.messages.nodup, hlinks.links.nodup, hlinks.conflicts, hjobs.oneJob⟩

def trackedUrl : String := "https://jobs.lever.co/acme/1?utm_source=x"

def plainUrl : String := "https://jobs.lever.co/acme/1"

def sampleIntake : IntakeCodec where
  links := {
    normalizeUrl := fun url => if url = trackedUrl then plainUrl else url
    urlHash := fun url => "sha256:" ++ url
    submissionId := fun _ hash => hash }
  texts := {
    keywordsJson := fun _ => "[]"
    jobSignature := fun title company location => title ++ "|" ++ company ++ "|" ++ location }
  keywordsAscii := fun _ => "[]"

def samplePage (title : String) : JobData where
  title := title
  company := "Acme"
  location := "Haifa"
  employmentType := ""
  seniority := ""
  description := ""
  requirements := ""
  sourceUrl := plainUrl
  datePosted := ""
  keywords := []

def samplePosting : DiscoveredPosting where
  job := samplePage "Backend Engineer (Platform)"
  occurrence := {
    occurrenceKey := "key"
    sourceKey := "lever"
    catalogKey := none
    externalPostingId := some "1"
    normalizedUrl := ""
    normalizedUrlHash := ""
    revisionDigest := "r1"
    observedAt := 0 }

def noIntake : IntakeState where
  links := noLinks
  discovery := {
    db := {
      jobs := Table.empty
      nextJob := 0
      occurrences := Table.empty
      nextOccurrence := 0
      applications := fun _ => false
      catalog := [] }
    sessions := [] }
  extractions := Table.empty

theorem noIntake_initial : IntakeInitial noIntake :=
  ⟨rfl, rfl, rfl, rfl, rfl⟩

def intakeRun (actions : List IntakeAction) : IntakeState :=
  runEnd (performIntake sampleIntake fun _ => "") (fun _ _ => true) noIntake actions

/-- Every run. -/
def anyIntakeStep (_ : IntakeState) (_ : IntakeAction) : Prop :=
  True

theorem intakeRun_reachable (actions : List IntakeAction) :
    (intakeSystem sampleIntake fun _ => "").Reachable anyIntakeStep (intakeRun actions) := by
  apply runEnd_reachable
  · exact fun _ _ _ hstep => hstep
  · exact fun _ _ _ => trivial
  · exact noIntake_initial

/-- One posting comes through a source. -/
def discoverySteps : List IntakeAction :=
  [.discover [(plainUrl, samplePosting)], .discovery (.lookup 0), .discovery (.decide 0),
    .discovery (.commit 0)]

def discovered (steps : ℕ) : IntakeState :=
  intakeRun (discoverySteps.take steps)

theorem discovered_begun (hsession : runningIngest (discovered 1).discovery index = some session) :
    session = beginIngest [sourcePosting sampleIntake (plainUrl, samplePosting)] := by
  cases index with
  | zero =>
    cases hsession
    rfl
  | succ place => cases hsession

theorem discovered_lookup_undoubled :
    Undoubled sampleIntake (discovered 1) (.discovery (.lookup 0)) := by
  intro session posting catalogId hsession hhead _
  obtain rfl := discovered_begun hsession
  cases hhead
  refine ⟨?_, ?_⟩
  · unfold NormalUrl
    decide
  rintro ((⟨index, found, hfound, id, hcarries | ⟨hflushed, _⟩⟩ | ⟨index, htaken⟩) | ⟨run, hrun⟩)
  · obtain rfl := discovered_begun hfound
    cases hcarries with
    | flushed row hrow hhash => cases hrow
    | staged tracked hrow hhash hchanged => cases hrow
  · obtain rfl := discovered_begun hfound
    cases hflushed
  · obtain ⟨found, _, _, hfound, hphase, _⟩ := htaken
    obtain rfl := discovered_begun hfound
    cases hphase
  · obtain ⟨_, _, hextracted, _⟩ := hrun
    cases hextracted

theorem discovered_decide_undoubled :
    Undoubled sampleIntake (discovered 2) (.discovery (.decide 0)) := by
  intro session posting target hsession _ hkeeps
  cases hsession
  cases hkeeps

theorem discovered_reachable :
    (intakeSystem sampleIntake fun _ => "").Reachable (Undoubled sampleIntake) (discovered 4) := by
  have hbegun : performIntake sampleIntake (fun _ => "") noIntake
      (.discover [(plainUrl, samplePosting)]) = some (discovered 1) := rfl
  have hlookedUp : performIntake sampleIntake (fun _ => "") (discovered 1)
      (.discovery (.lookup 0)) = some (discovered 2) := rfl
  have hdecided : performIntake sampleIntake (fun _ => "") (discovered 2)
      (.discovery (.decide 0)) = some (discovered 3) := rfl
  have hcommitted : performIntake sampleIntake (fun _ => "") (discovered 3)
      (.discovery (.commit 0)) = some (discovered 4) := rfl
  have hdiscover : Undoubled sampleIntake noIntake (.discover [(plainUrl, samplePosting)]) :=
    trivial
  have hcommit : Undoubled sampleIntake (discovered 3) (.discovery (.commit 0)) := trivial
  have hinitial : (intakeSystem sampleIntake fun _ => "").Reachable (Undoubled sampleIntake)
      noIntake := .initial noIntake_initial
  exact (((hinitial.tail hdiscover hbegun).tail discovered_lookup_undoubled hlookedUp).tail
    discovered_decide_undoubled hdecided).tail hcommit hcommitted

theorem one_row_each_sample :
    (discovered 4).discovery.db.jobs 0 ≠ none ∧ OneRowEach sampleIntake (discovered 4) :=
  ⟨by decide, one_row_each sampleIntake (fun _ => "") discovered_reachable⟩

/-- A posting comes through a link, whose page has a tracking parameter in its apply URL, and
then through a source. -/
def doubledPosting : IntakeState :=
  intakeRun
    ([.link (.submit .ingest plainUrl), .link (.look 0), .link (.store 0), .link (.commit 0),
      .link (.publish 0 true), .link (.start 0),
      .extract 0 [⟨samplePage "Backend Engineer", trackedUrl⟩], .query 0, .query 0, .insert 0]
      ++ discoverySteps)

/-- Two deliveries bring one link; each looks it up before the other commits. -/
def doubledLink : IntakeState :=
  intakeRun
    [.link (.deliver [.text "m1" [plainUrl] none]),
      .link (.deliver [.text "m2" [plainUrl] none]),
      .link (.look 0), .link (.store 0), .link (.look 0), .link (.store 0),
      .link (.publish 0 true), .link (.look 1), .link (.store 1), .link (.look 1),
      .link (.store 1), .link (.publish 1 true), .link (.commit 0), .link (.commit 1)]

/-- A submission is repeated before the first one commits. -/
def failedSubmission : IntakeState :=
  intakeRun
    [.link (.submit .ingest plainUrl), .link (.submit .ingest plainUrl), .link (.look 0),
      .link (.look 1), .link (.store 0), .link (.commit 0), .link (.store 1)]

def samplePost : TextPost where
  digest := "0123456789abcdef0123456789abcdef"
  title := "Backend Engineer"
  company := "Acme"
  description := ""
  score := 80
  skipped := false

/-- Two deliveries bring one text post; each looks its message up before the other commits. -/
def failedPost : IntakeState :=
  intakeRun
    [.link (.deliver [.text "m1" [] (some samplePost)]),
      .link (.deliver [.text "m2" [] (some samplePost)]), .link (.look 0), .link (.store 0),
      .link (.probe 0 false), .link (.look 0), .link (.look 1), .link (.store 1),
      .link (.probe 1 false), .link (.look 1), .link (.store 0), .link (.look 0),
      .link (.store 0), .link (.commit 0), .link (.store 1)]

/-- One posting with two jobs, one link with two rows, a repeated submission that fails, and a
delivery that fails on the text post of another one. -/
theorem rows_doubled :
    ((intakeSystem sampleIntake fun _ => "").Reachable anyIntakeStep doubledPosting ∧
      ¬ OneJobPerPosting sampleIntake doubledPosting.discovery.db) ∧
    ((intakeSystem sampleIntake fun _ => "").Reachable anyIntakeStep doubledLink ∧
      ¬ (doubledLink.links.urls.map ExtractedUrl.urlHash).Nodup) ∧
    ((intakeSystem sampleIntake fun _ => "").Reachable anyIntakeStep failedSubmission ∧
      failedSubmission.links.conflicts = 1) ∧
    ((intakeSystem sampleIntake fun _ => "").Reachable anyIntakeStep failedPost ∧
      failedPost.links.conflicts = 1) := by
  refine ⟨⟨intakeRun_reachable _, fun hone => ?_⟩, ⟨intakeRun_reachable _, by decide⟩,
    ⟨intakeRun_reachable _, by decide⟩, intakeRun_reachable _, by decide⟩
  have hforms : (doubledPosting.discovery.db.jobs 0).bind (urlForm sampleIntake) = some plainUrl ∧
      (doubledPosting.discovery.db.jobs 1).bind (urlForm sampleIntake) = some plainUrl := by
    decide
  obtain ⟨row, hrow, hform⟩ := Option.bind_eq_some_iff.mp hforms.1
  obtain ⟨found, hfound, hsame⟩ := Option.bind_eq_some_iff.mp hforms.2
  exact absurd (hone 0 1 row found plainUrl hrow hfound hform hsame) Nat.zero_ne_one

end JobApplyAgent.Intake
