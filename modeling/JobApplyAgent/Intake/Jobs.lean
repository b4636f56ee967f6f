import JobApplyAgent.Discovery.System
import JobApplyAgent.Intake.Links

/-!
# Jobs and their doors

A run of a link's task stores the jobs that were extracted of its page, one after the other;
discovery stores the postings that its sources have found.  A run looks for the signature
of a job and then for the digest of the apply URL as it stands on the page; a source
normalizes the URL first.  A text post has a job without a URL, stored with its delivery.
-/

namespace JobApplyAgent.Intake

open Discovery Domain Library

structure ExtractedJob where
  job : JobData
  applyUrl : String

/-- The digests and texts that are computed of links and jobs. -/
structure IntakeCodec where
  links : LinkCodec
  texts : TextCodec
  /-- The stored keyword list of an extracted job, in which only ASCII is left as it is. -/
  keywordsAscii : List String → String

inductive ExtractionPhase
  | looking
  /-- The signature of the job was not found. -/
  | checking (extracted : ExtractedJob)
  /-- Neither the signature nor the URL was found. -/
  | storing (extracted : ExtractedJob)

/-- The jobs that a run has extracted and not visited yet. -/
structure Extraction where
  todo : List ExtractedJob
  phase : ExtractionPhase

structure IntakeState where
  links : LinkState
  discovery : DiscoveryState
  /-- The extractions of the runs of a link's task. -/
  extractions : Table Extraction

inductive IntakeAction
  | link (action : LinkAction)
  | extract (run : ℕ) (jobs : List ExtractedJob)
  /-- The next query of a run. -/
  | query (run : ℕ)
  | insert (run : ℕ)
  /-- A source hands over postings, each with its link. -/
  | discover (found : List (String × DiscoveredPosting))
  /-- A step of a running ingest, or of a task that changes a job. -/
  | discovery (action : DiscoveryAction)

variable (codec : IntakeCodec)

def ExtractedJob.signature (extracted : ExtractedJob) : String :=
  codec.texts.jobSignature extracted.job.title extracted.job.company extracted.job.location

def ExtractedJob.applyHash (extracted : ExtractedJob) : Option String :=
  if extracted.applyUrl = "" then none else some (codec.links.urlHash extracted.applyUrl)

def extractedContent (extracted : ExtractedJob) : ContentField → String
  | .title => extracted.job.title
  | .company => extracted.job.company
  | .location => extracted.job.location
  | .employmentType => extracted.job.employmentType
  | .seniority => extracted.job.seniority
  | .description => extracted.job.description
  | .requirements => extracted.job.requirements
  | .applyUrl => extracted.applyUrl
  | .sourceUrl => extracted.job.sourceUrl
  | .datePosted => extracted.job.datePosted
  | .keywords => codec.keywordsAscii extracted.job.keywords
  | .jobSignature => extracted.signature codec

def extractedRow (extracted : ExtractedJob) : JobRow where
  content := extractedContent codec extracted
  applyUrlHash := extracted.applyHash codec
  status := .extracted
  score := none
  discoverySource := "manual"
  terminalSkipAt := none

def postSignature (post : TextPost) : String :=
  codec.texts.jobSignature post.title post.company ""

def postContent (post : TextPost) : ContentField → String
  | .title => post.title
  | .company => post.company
  | .description => post.description
  | .keywords => codec.keywordsAscii []
  | .jobSignature => postSignature codec post
  | .location | .employmentType | .seniority | .requirements | .applyUrl | .sourceUrl
  | .datePosted => ""

/-- Text posts do not have an employer URL, so they are recorded as scored jobs. -/
def postRow (post : TextPost) : JobRow where
  content := postContent codec post
  applyUrlHash := none
  status := if post.skipped then .skipped else .scored
  score := some post.score
  discoverySource := "whatsapp_text"
  terminalSkipAt := none

/-- A committed job satisfies the test. -/
def jobExists (db : DiscoveryDb) (test : JobRow → Bool) : Bool :=
  (db.jobs.first db.nextJob test).isSome

/-- Look for the signature of the next job, or for the URL of the job. -/
def queryJobs (db : DiscoveryDb) (extraction : Extraction) : Option Extraction :=
  match extraction.phase, extraction.todo with
  | .looking, extracted :: rest =>
    some (if jobExists db fun row => row.content .jobSignature = extracted.signature codec then
      { extraction with todo := rest }
    else { todo := rest, phase := .checking extracted })
  | .checking extracted, _ =>
    match extracted.applyHash codec with
    | none => some { extraction with phase := .storing extracted }
    | some hash =>
      some (if jobExists db fun row => row.applyUrlHash = some hash then
        { extraction with phase := .looking }
      else { extraction with phase := .storing extracted })
  | _, _ => none

/-- A new job is committed at once. -/
def insertJob (db : DiscoveryDb) (row : JobRow) : DiscoveryDb :=
  { db with
    jobs := db.jobs.put db.nextJob row
    nextJob := db.nextJob + 1 }

/-- The jobs of text posts become visible. -/
def storePosts (db : DiscoveryDb) (posts : List TextPost) : DiscoveryDb :=
  posts.foldl (fun db post => insertJob db (postRow codec post)) db

/-- A request finds the signature of a text post among the jobs, or among its own. -/
def probesJob (db : DiscoveryDb) (request : LinkRequest) (known : Bool) : Bool :=
  match request.todo with
  | .post post :: _ => known ==
      ((jobExists db fun row => row.content .jobSignature = postSignature codec post) ||
        request.posts.any fun other => postSignature codec other = postSignature codec post)
  | _ => true

/-- The posting under the normalized form of its link. -/
def sourcePosting (found : String × DiscoveredPosting) : DiscoveredPosting :=
  { found.2 with occurrence := { found.2.occurrence with
      normalizedUrl := codec.links.normalizeUrl found.1
      normalizedUrlHash := codec.links.linkHash found.1 } }

/-- The extractions after a step of the links: a run takes its extraction with it. -/
def endedExtractions (action : LinkAction) (extractions : Table Extraction) : Table Extraction :=
  match action with
  | .endRun run _ => fun other => if other = run then none else extractions other
  | _ => extractions

def IntakeState.setExtraction (state : IntakeState) (run : ℕ) (extraction : Extraction) :
    IntakeState :=
  { state with extractions := state.extractions.put run extraction }

/-- What a request is told of the jobs is what is stored. -/
def IntakeState.tells (state : IntakeState) : LinkAction → Bool
  | .probe index known => (state.links.requests.entry index).all fun request =>
      probesJob codec state.discovery.db request known
  | _ => true

variable (fitDigest : (ContentField → String) → String)

def performIntake (state : IntakeState) : IntakeAction → Option IntakeState
  | .link action =>
    if state.tells codec action then
      (performLink codec.links state.links action).map fun links =>
        { links := links
          discovery := { state.discovery with
            db := storePosts codec state.discovery.db
              (links.posts.drop state.links.posts.length) }
          extractions := endedExtractions action state.extractions }
    else none
  | .extract run jobs =>
    match state.links.runs.entry run, state.extractions run with
    | some _, none => some (state.setExtraction run { todo := jobs, phase := .looking })
    | _, _ => none
  | .query run =>
    (state.extractions run).bind fun extraction =>
      (queryJobs codec state.discovery.db extraction).map (state.setExtraction run)
  | .insert run =>
    match state.extractions run with
    | some ⟨todo, .storing extracted⟩ =>
      some { state.setExtraction run { todo := todo, phase := .looking } with
        discovery := { state.discovery with
          db := insertJob state.discovery.db (extractedRow codec extracted) } }
    | _ => none
  | .discover found =>
    -- a source drops a posting whose normalized link is empty
    if found.all fun posting => (sourcePosting codec posting).occurrence.normalizedUrl ≠ "" then
      (performDiscovery codec.texts fitDigest state.discovery
        (.begin (found.map (sourcePosting codec)))).map fun discovery =>
        { state with discovery := discovery }
    else none
  | .discovery (.begin _) => none
  | .discovery action =>
    (performDiscovery codec.texts fitDigest state.discovery action).map fun discovery =>
      { state with discovery := discovery }

/-- Nothing is stored yet. -/
structure IntakeInitial (state : IntakeState) : Prop where
  links : state.links = noLinks
  jobs : state.discovery.db.jobs = Table.empty
  occurrences : state.discovery.db.occurrences = Table.empty
  sessions : state.discovery.sessions = []
  extractions : state.extractions = Table.empty

def intakeSystem : TransitionSystem IntakeState IntakeAction where
  initial := IntakeInitial
  step before action after := performIntake codec fitDigest before action = some after

def urlForm (row : JobRow) : Option String :=
  if row.content .applyUrl = "" then none
  else some (codec.links.normalizeUrl (row.content .applyUrl))

/-- No two jobs have apply URLs with one normalized form. -/
def OneJobPerPosting (db : DiscoveryDb) : Prop :=
  ∀ (id other : ℕ) (row found : JobRow) (form : String), db.jobs id = some row →
    db.jobs other = some found → urlForm codec row = some form →
    urlForm codec found = some form → id = other

/-- One row for each message and each link, no submission that fails on a message that is
there, and one job for each posting. -/
structure OneRowEach (state : IntakeState) : Prop where
  messages : state.links.messages.Nodup
  urls : (state.links.urls.map ExtractedUrl.urlHash).Nodup
  conflicts : state.links.conflicts = 0
  jobs : OneJobPerPosting codec state.discovery.db

end JobApplyAgent.Intake
