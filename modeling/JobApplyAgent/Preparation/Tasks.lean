import JobApplyAgent.Domain.Lifecycle
import JobApplyAgent.Library.Overlay
import JobApplyAgent.Library.Transition
import Mathlib.Data.Rat.Defs

/-!
# Scoring and generation tasks

Scoring a job, generating its application and rescoring a page of jobs read a job and a
profile, compute without a transaction, and write under a lock.  In between the operator
may save a profile, discovery may change the job, and any other task may commit.
-/

namespace JobApplyAgent.Preparation

open Domain Library

/-- The fields of a job that matching and generation read; the job digest covers them. -/
structure JobContent where
  title : String
  company : String
  location : String
  employmentType : String
  seniority : String
  description : String
  requirements : String
  keywords : List String
  deriving DecidableEq

/-- What is computed of a job, a profile with its version, and an environment: the routing
files and the answers of the model. -/
structure Matcher (Profile Env Fit Materials Digest : Type) where
  jobContentDigest : JobContent → Digest
  scoreJob : JobContent → Profile → Rat
  /-- The action of the score is to skip the job. -/
  decidesSkip : JobContent → Profile → Bool
  evaluateJobFit : Env → JobContent → Profile → Option ℕ → Fit
  generateFullApplication : Env → JobContent → Profile → Option ℕ → Materials

variable {Profile Env Fit Materials Digest : Type}

structure ApplicationRow (Fit Materials : Type) where
  revision : ℕ
  status : JobStatus
  /-- A submission attempt is running or has ended for good. -/
  attempted : Bool
  profileVersion : Option ℕ
  fit : Fit
  materials : Materials

structure JobRecord (Fit Materials : Type) where
  content : JobContent
  status : JobStatus
  score : Option Rat
  application : Option (ApplicationRow Fit Materials)

/-- A scoring task after it has read the job and the profile. -/
structure ScoreTask (Profile : Type) where
  jobId : ℕ
  content : JobContent
  expectedStatus : JobStatus
  /-- The revision of the application, if the job has one. -/
  application : Option ℕ
  version : Option ℕ
  profile : Profile
  /-- The preparation readiness, once it was probed. -/
  ready : Option Bool

structure GenerateTask (Profile Env : Type) where
  jobId : ℕ
  content : JobContent
  application : Option ℕ
  version : Option ℕ
  profile : Profile
  env : Env

/-- A page of jobs that is rescored, with the contents that it has read. -/
structure RescoreTask (Profile : Type) where
  version : ℕ
  profile : Profile
  contents : Table JobContent

inductive PreparationTask (Profile Env : Type)
  | score (task : ScoreTask Profile)
  | generate (task : GenerateTask Profile Env)
  | rescore (task : RescoreTask Profile)

/-- The jobs, the profile versions in their order, the profile file and the tasks. -/
structure PreparationState (Profile Env Fit Materials : Type) where
  jobs : Table (JobRecord Fit Materials)
  versions : List Profile
  profileFile : Profile
  tasks : List (Option (PreparationTask Profile Env))

inductive PreparationAction (Profile Env : Type)
  | saveProfile (profile : Profile)
  | editFile (profile : Profile)
  | discoverJob (jobId : ℕ) (content : JobContent)
  /-- Discovery writes the columns that it has changed. -/
  | updateJob (jobId : ℕ) (content : JobContent) (reopens clearsScore : Bool)
  /-- Some other writer moves the job and its application on. -/
  | moveOn (jobId : ℕ) (status applicationStatus : JobStatus) (revision : ℕ) (attempted : Bool)
  | beginScore (jobId : ℕ)
  | probe (index : ℕ) (ready : Bool)
  | beginGenerate (jobId : ℕ) (requested : Option ℕ) (env : Env)
  | beginRescore (version : ℕ) (jobIds : List ℕ)
  | returnToScored (jobId : ℕ)
  | commit (index : ℕ)
  | abandon (index : ℕ)

section State

variable (state : PreparationState Profile Env Fit Materials)

def PreparationState.latestProfileVersion : Option ℕ :=
  if state.versions = [] then none else some state.versions.length

/-- The profile of an exact version; without a version it comes from the file. -/
def PreparationState.loadProfile : Option ℕ → Option Profile
  | none => some state.profileFile
  | some 0 => none
  | some (index + 1) => state.versions[index]?

def PreparationState.task (index : ℕ) : Option (PreparationTask Profile Env) :=
  (state.tasks[index]?).join

def PreparationState.addTask (task : PreparationTask Profile Env) :
    PreparationState Profile Env Fit Materials :=
  { state with tasks := state.tasks ++ [some task] }

def PreparationState.setTask (index : ℕ) (task : Option (PreparationTask Profile Env)) :
    PreparationState Profile Env Fit Materials :=
  { state with tasks := state.tasks.set index task }

def PreparationState.putJob (jobId : ℕ) (job : JobRecord Fit Materials) :
    PreparationState Profile Env Fit Materials :=
  { state with jobs := state.jobs.put jobId job }

end State

def contentOpen (status : JobStatus) : Bool :=
  decide (status ≠ .submitted ∧ status ≠ .skipped)

def lockApplication (job : JobRecord Fit Materials) (revision : ℕ) :
    Option (ApplicationRow Fit Materials) :=
  job.application.filter fun application =>
    decide (application.revision = revision) && contentOpen application.status &&
      contentOpen job.status && !application.attempted

def lockJob (job : JobRecord Fit Materials) : Bool :=
  job.application.isNone && contentOpen job.status

variable (matcher : Matcher Profile Env Fit Materials Digest)

def rescoreStatuses : List JobStatus := [.extracted, .scored, .draft]

/-! ## Reading -/

section Begin

variable (state : PreparationState Profile Env Fit Materials)

def terminalApplication (job : JobRecord Fit Materials) : Bool :=
  job.application.any fun application => !contentOpen application.status

def beginScore (jobId : ℕ) : Option (ScoreTask Profile) := do
  let job ← state.jobs jobId
  let profile ← state.loadProfile state.latestProfileVersion
  if terminalApplication job then none
  else
    return {
      jobId := jobId
      content := job.content
      expectedStatus := job.status
      application := job.application.map ApplicationRow.revision
      version := state.latestProfileVersion
      profile := profile
      ready := none }

/-- The readiness with what the current profile version says about it. -/
def probeScore (task : ScoreTask Profile) (ready : Bool) : ScoreTask Profile :=
  { task with
    ready := some (ready && task.version.isSome &&
      decide (state.latestProfileVersion = task.version)) }

def beginGenerate (jobId : ℕ) (requested : Option ℕ) (env : Env) :
    Option (GenerateTask Profile Env) := do
  let job ← state.jobs jobId
  let version := requested.or state.latestProfileVersion
  let profile ← state.loadProfile version
  if terminalApplication job || decide (version ≠ state.latestProfileVersion) then none
  else
    return {
      jobId := jobId
      content := job.content
      application := job.application.map ApplicationRow.revision
      version := version
      profile := profile
      env := env }

def beginRescore (version : ℕ) (jobIds : List ℕ) : Option (RescoreTask Profile) := do
  let profile ← state.loadProfile (some version)
  return {
    version := version
    profile := profile
    contents := fun jobId =>
      if jobId ∈ jobIds then
        (state.jobs jobId).bind fun job =>
          if job.status ∈ rescoreStatuses then some job.content else none
      else none }

end Begin

/-! ## Committing -/

section Commit

variable [DecidableEq Digest] (state : PreparationState Profile Env Fit Materials)

/-- The content that was read is still that of the job. -/
def jobInputIsCurrent (job : JobRecord Fit Materials) (content : JobContent) : Bool :=
  decide (matcher.jobContentDigest job.content = matcher.jobContentDigest content)

/-- The status of a scored job: it goes on to generation only with the current profile. -/
def scoredStatus (task : ScoreTask Profile) (ready : Bool) : JobStatus :=
  if ready && decide (state.latestProfileVersion = task.version) then
    if matcher.decidesSkip task.content task.profile then .skipped else .draft
  else .scored

def commitScore (task : ScoreTask Profile) :
    Option (PreparationState Profile Env Fit Materials) := do
  let ready ← task.ready
  let job ← state.jobs task.jobId
  let score := matcher.scoreJob task.content task.profile
  match task.application with
  | some revision =>
    let _ ← lockApplication job revision
    if jobInputIsCurrent matcher job task.content then
      return state.putJob task.jobId { job with score := some score }
    else none
  | none =>
    if lockJob job && decide (job.status = task.expectedStatus) &&
        jobInputIsCurrent matcher job task.content then
      return state.putJob task.jobId { job with
        score := some score
        status := scoredStatus matcher state task ready }
    else none

/-- The revision of the application that a generation writes, if it may write one. -/
def generatedRevision (job : JobRecord Fit Materials) (application : Option ℕ) : Option ℕ :=
  match application with
  | none => if lockJob job then some 1 else none
  | some revision => (lockApplication job revision).map fun locked => locked.revision + 1

def commitGenerate (task : GenerateTask Profile Env) :
    Option (PreparationState Profile Env Fit Materials) := do
  let job ← state.jobs task.jobId
  let revision ← generatedRevision job task.application
  if jobInputIsCurrent matcher job task.content &&
      decide (state.latestProfileVersion = task.version) then
    return state.putJob task.jobId { job with
      status := .draft
      application := some {
        revision := revision
        status := .draft
        attempted := false
        profileVersion := task.version
        fit := matcher.evaluateJobFit task.env task.content task.profile task.version
        materials :=
          matcher.generateFullApplication task.env task.content task.profile task.version } }
  else none

def rescored (task : RescoreTask Profile) (job : JobRecord Fit Materials) (jobId : ℕ) :
    JobRecord Fit Materials :=
  match task.contents jobId with
  | some content =>
    if job.status ∈ rescoreStatuses then
      { job with score := some (matcher.scoreJob content task.profile) }
    else job
  | none => job

def commitRescore (task : RescoreTask Profile) :
    Option (PreparationState Profile Env Fit Materials) :=
  if state.latestProfileVersion = some task.version then
    some { state with
      jobs := fun jobId => (state.jobs jobId).map fun job => rescored matcher task job jobId }
  else none

def commitTask : PreparationTask Profile Env →
    Option (PreparationState Profile Env Fit Materials)
  | .score task => commitScore matcher state task
  | .generate task => commitGenerate matcher state task
  | .rescore task => commitRescore matcher state task

end Commit

/-! ## The system -/

variable [DecidableEq Digest]

def movedOn (job : JobRecord Fit Materials) (status applicationStatus : JobStatus)
    (revision : ℕ) (attempted : Bool) : JobRecord Fit Materials :=
  { job with
    status := status
    application := job.application.map fun application =>
      { application with
        status := applicationStatus, revision := revision, attempted := attempted } }

def updatedJob (job : JobRecord Fit Materials) (content : JobContent)
    (reopens clearsScore : Bool) : JobRecord Fit Materials :=
  { job with
    content := content
    status := if reopens then .extracted else job.status
    score := if clearsScore then none else job.score }

def performPreparation (state : PreparationState Profile Env Fit Materials) :
    PreparationAction Profile Env → Option (PreparationState Profile Env Fit Materials)
  | .saveProfile profile =>
    some { state with versions := state.versions ++ [profile], profileFile := profile }
  | .editFile profile => some { state with profileFile := profile }
  | .discoverJob jobId content =>
    if (state.jobs jobId).isNone then
      some (state.putJob jobId ⟨content, .extracted, none, none⟩)
    else none
  | .updateJob jobId content reopens clearsScore =>
    (state.jobs jobId).map fun job =>
      state.putJob jobId (updatedJob job content reopens clearsScore)
  | .moveOn jobId status applicationStatus revision attempted =>
    (state.jobs jobId).map fun job =>
      state.putJob jobId (movedOn job status applicationStatus revision attempted)
  | .beginScore jobId => (beginScore state jobId).map fun task => state.addTask (.score task)
  | .probe index ready =>
    match state.task index with
    | some (.score task) => some (state.setTask index (some (.score (probeScore state task ready))))
    | _ => none
  | .beginGenerate jobId requested env =>
    (beginGenerate state jobId requested env).map fun task => state.addTask (.generate task)
  | .beginRescore version jobIds =>
    (beginRescore state version jobIds).map fun task => state.addTask (.rescore task)
  | .returnToScored jobId =>
    (state.jobs jobId).bind fun job =>
      if lockJob job && decide (job.status = .draft) then
        some (state.putJob jobId { job with status := .scored })
      else none
  | .commit index =>
    (state.task index).bind fun task =>
      (commitTask matcher state task).map fun after => after.setTask index none
  | .abandon index => (state.task index).map fun _ => state.setTask index none

def preparationStart (profile : Profile) : PreparationState Profile Env Fit Materials where
  jobs := Table.empty
  versions := []
  profileFile := profile
  tasks := []

def preparationSystem : TransitionSystem (PreparationState Profile Env Fit Materials)
    (PreparationAction Profile Env) where
  initial := fun state => ∃ profile, state = preparationStart profile
  step before action after := performPreparation matcher before action = some after

/-- Every run. -/
def anyPreparation (_ : PreparationState Profile Env Fit Materials)
    (_ : PreparationAction Profile Env) : Prop :=
  True

end JobApplyAgent.Preparation
