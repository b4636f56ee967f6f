import JobApplyAgent.Domain.Contracts
import JobApplyAgent.Library.Overlay
import JobApplyAgent.Library.Text

/-!
# Discovered postings

Postings as the sources deliver them, and the rows of the canonical jobs and of
the source occurrences that observe them.
-/

namespace JobApplyAgent.Discovery

open Domain Library

/-- Canonical job posting extracted from a page. -/
structure JobData where
  title : String
  company : String
  location : String
  employmentType : String
  seniority : String
  description : String
  requirements : String
  sourceUrl : String
  datePosted : String
  keywords : List String

/-- One source observation before it is attached to a canonical local job. -/
structure JobSourceOccurrence where
  occurrenceKey : String
  sourceKey : String
  catalogKey : Option String
  externalPostingId : Option String
  normalizedUrl : String
  normalizedUrlHash : String
  revisionDigest : String
  observedAt : Timestamp

/-- Canonical content plus its exact source identity. -/
structure DiscoveredPosting where
  job : JobData
  occurrence : JobSourceOccurrence

/-- The columns that discovery fills from a posting. -/
inductive ContentField where
  | title
  | company
  | location
  | employmentType
  | seniority
  | description
  | requirements
  | applyUrl
  | sourceUrl
  | datePosted
  | keywords
  | jobSignature

def ContentField.all : List ContentField :=
  [.title, .company, .location, .employmentType, .seniority, .description, .requirements,
    .applyUrl, .sourceUrl, .datePosted, .keywords, .jobSignature]

structure JobRow where
  content : ContentField → String
  applyUrlHash : Option String
  status : JobStatus
  score : Option Rat
  discoverySource : String
  terminalSkipAt : Option Timestamp

/-- One immutable-source identity observing a canonical local job. -/
structure OccurrenceRow where
  occurrenceKey : String
  jobId : ℕ
  sourceKey : String
  catalogEntryId : Option ℕ
  externalPostingId : Option String
  normalizedUrl : String
  normalizedUrlHash : String
  revisionDigest : String
  firstSeenAt : Timestamp
  lastSeenAt : Timestamp
  closedAt : Option Timestamp
  active : Bool
  deriving DecidableEq

/-- The texts that are computed from others: the stored keyword list and the
signature of title, company and location. -/
structure TextCodec where
  keywordsJson : List String → String
  jobSignature : String → String → String → String

variable (codec : TextCodec)

def postingContent (posting : DiscoveredPosting) : ContentField → String
  | .title => posting.job.title
  | .company => posting.job.company
  | .location => posting.job.location
  | .employmentType => posting.job.employmentType
  | .seniority => posting.job.seniority
  | .description => posting.job.description
  | .requirements => posting.job.requirements
  | .applyUrl => posting.occurrence.normalizedUrl
  | .sourceUrl =>
    if posting.job.sourceUrl = "" then posting.occurrence.normalizedUrl
    else posting.job.sourceUrl
  | .datePosted => posting.job.datePosted
  | .keywords => codec.keywordsJson posting.job.keywords
  | .jobSignature =>
    codec.jobSignature posting.job.title posting.job.company posting.job.location

def createJob (posting : DiscoveredPosting) : JobRow where
  content := postingContent codec posting
  applyUrlHash := some posting.occurrence.normalizedUrlHash
  status := .extracted
  score := none
  discoverySource := String.ofList (posting.occurrence.sourceKey.toList.take 30)
  terminalSkipAt := none

def updateMutableJob (job : JobRow) (posting : DiscoveredPosting) : JobRow :=
  { job with
    content := postingContent codec posting
    applyUrlHash := some posting.occurrence.normalizedUrlHash
    status := .extracted
    score := none }

def inkPoints (points : ℕ) (text : String) : ℕ :=
  if hasInk text then points else 0

/-- Prefer richer source metadata without allowing sparse alerts to erase it. -/
def jobContentQuality (content : ContentField → String) : ℕ :=
  (strip (content .description)).length.min 20000
    + (strip (content .requirements)).length.min 10000
    + inkPoints 100 (content .company)
    + inkPoints 100 (content .location)
    + inkPoints 50 (content .employmentType)
    + inkPoints 50 (content .seniority)

def mutableJobStatuses : List JobStatus := [.extracted, .scored, .skipped]

def observeAgain (occurrence : OccurrenceRow) (posting : DiscoveredPosting) : OccurrenceRow :=
  { occurrence with
    lastSeenAt := posting.occurrence.observedAt
    active := true
    closedAt := none
    normalizedUrl := posting.occurrence.normalizedUrl
    normalizedUrlHash := posting.occurrence.normalizedUrlHash
    revisionDigest := posting.occurrence.revisionDigest }

/-- The row of an occurrence that is observed for the first time. -/
def newOccurrence (posting : DiscoveredPosting) (jobId : ℕ) (catalogEntryId : Option ℕ) :
    OccurrenceRow where
  occurrenceKey := posting.occurrence.occurrenceKey
  jobId := jobId
  sourceKey := posting.occurrence.sourceKey
  catalogEntryId := catalogEntryId
  externalPostingId := posting.occurrence.externalPostingId
  normalizedUrl := posting.occurrence.normalizedUrl
  normalizedUrlHash := posting.occurrence.normalizedUrlHash
  revisionDigest := posting.occurrence.revisionDigest
  firstSeenAt := posting.occurrence.observedAt
  lastSeenAt := posting.occurrence.observedAt
  closedAt := none
  active := true

end JobApplyAgent.Discovery
