import JobApplyAgent.Preparation.Tasks

/-!
# What a committed score and application were computed of

A scoring commit compares the digest of the job, so its score belongs to the committed
content; its profile may be an older one, and then the job does not go on to generation.
A generation commit compares the profile version too.  A rescored page compares the
version only, and its scores belong to the contents that it has read.
-/

namespace JobApplyAgent.Preparation

open Domain Library TransitionSystem

variable {Profile Env Fit Materials Digest : Type} [DecidableEq Digest]
  {matcher : Matcher Profile Env Fit Materials Digest}
  {before after state : PreparationState Profile Env Fit Materials}

/-! ## Profile versions -/

/-- The profile is that of the version, if there is one. -/
def Loaded (state : PreparationState Profile Env Fit Materials) (version : Option ℕ)
    (profile : Profile) : Prop :=
  ∀ number, version = some number → state.loadProfile (some number) = some profile

omit [DecidableEq Digest] in
/-- A later list of versions keeps the profile of each version. -/
theorem Loaded.later (hloaded : Loaded before version profile)
    (hversions : List.IsPrefix before.versions after.versions) :
    Loaded after version profile := by
  intro number hversion
  have hfound := hloaded number hversion
  cases number with
  | zero => cases hfound
  | succ index =>
    obtain ⟨more, hmore⟩ := hversions
    change before.versions[index]? = some profile at hfound
    change after.versions[index]? = some profile
    rw [← hmore, List.getElem?_append_left (List.getElem?_eq_some_iff.mp hfound).1]
    exact hfound

omit [DecidableEq Digest] in
theorem loaded_of_loadProfile (hload : state.loadProfile version = some profile) :
    Loaded state version profile := by
  rintro number rfl
  exact hload

/-- The version and the profile that a task works with belong together. -/
def TaskOk (state : PreparationState Profile Env Fit Materials) :
    PreparationTask Profile Env → Prop
  | .score task => Loaded state task.version task.profile
  | .generate task => Loaded state task.version task.profile
  | .rescore task => Loaded state (some task.version) task.profile

def TasksOk (state : PreparationState Profile Env Fit Materials) : Prop :=
  ∀ index task, state.task index = some task → TaskOk state task

variable {task : PreparationTask Profile Env}

omit [DecidableEq Digest] in
theorem TaskOk.later (hok : TaskOk before task)
    (hversions : List.IsPrefix before.versions after.versions) : TaskOk after task := by
  cases task with
  | score task => exact Loaded.later hok hversions
  | generate task => exact Loaded.later hok hversions
  | rescore task => exact Loaded.later hok hversions

omit [DecidableEq Digest] in
theorem beginScore_ok {task : ScoreTask Profile} (hbegin : beginScore state jobId = some task) :
    TaskOk state (.score task : PreparationTask Profile Env) := by
  simp only [beginScore, Option.bind_eq_bind, Option.bind_eq_some_iff] at hbegin
  obtain ⟨job, _, profile, hload, hbegin⟩ := hbegin
  split at hbegin
  · cases hbegin
  cases hbegin
  exact loaded_of_loadProfile hload

omit [DecidableEq Digest] in
theorem beginGenerate_ok {task : GenerateTask Profile Env}
    (hbegin : beginGenerate state jobId requested env = some task) :
    TaskOk state (.generate task) := by
  simp only [beginGenerate, Option.bind_eq_bind, Option.bind_eq_some_iff] at hbegin
  obtain ⟨job, _, profile, hload, hbegin⟩ := hbegin
  split at hbegin
  · cases hbegin
  cases hbegin
  exact loaded_of_loadProfile hload

omit [DecidableEq Digest] in
theorem beginRescore_ok {task : RescoreTask Profile}
    (hbegin : beginRescore state version jobIds = some task) :
    TaskOk state (.rescore task : PreparationTask Profile Env) := by
  simp only [beginRescore, Option.bind_eq_bind, Option.bind_eq_some_iff] at hbegin
  obtain ⟨profile, hload, hbegin⟩ := hbegin
  cases hbegin
  exact loaded_of_loadProfile hload

/-! ## Commits -/

/-- What a scoring commit writes. -/
structure ScoreCommitted (matcher : Matcher Profile Env Fit Materials Digest)
    (before after : PreparationState Profile Env Fit Materials) (task : ScoreTask Profile) :
    Prop where
  loaded : Loaded before task.version task.profile
  written : ∃ job, after.jobs task.jobId = some job ∧
    job.score = some (matcher.scoreJob job.content task.profile) ∧
    (task.application = none → before.latestProfileVersion ≠ task.version →
      job.status = .scored)

/-- What a generation commit writes. -/
structure GenerateCommitted (matcher : Matcher Profile Env Fit Materials Digest)
    (before after : PreparationState Profile Env Fit Materials)
    (task : GenerateTask Profile Env) : Prop where
  loaded : Loaded before task.version task.profile
  current : before.latestProfileVersion = task.version
  written : ∃ job application, after.jobs task.jobId = some job ∧
    job.application = some application ∧
    application.profileVersion = task.version ∧
    application.fit = matcher.evaluateJobFit task.env job.content task.profile task.version ∧
    application.materials =
      matcher.generateFullApplication task.env job.content task.profile task.version

/-- What the commit of a rescored page writes. -/
structure RescoreCommitted (matcher : Matcher Profile Env Fit Materials Digest)
    (before after : PreparationState Profile Env Fit Materials) (task : RescoreTask Profile) :
    Prop where
  loaded : Loaded before (some task.version) task.profile
  current : before.latestProfileVersion = some task.version
  written : ∀ jobId job, after.jobs jobId = some job → ∃ old, before.jobs jobId = some old ∧
    (job = old ∨ ∃ content, task.contents jobId = some content ∧
      job = { old with score := some (matcher.scoreJob content task.profile) })

def TaskCommitted (matcher : Matcher Profile Env Fit Materials Digest)
    (before after : PreparationState Profile Env Fit Materials) :
    PreparationTask Profile Env → Prop
  | .score task => ScoreCommitted matcher before after task
  | .generate task => GenerateCommitted matcher before after task
  | .rescore task => RescoreCommitted matcher before after task

theorem content_of_current (hdigest : Function.Injective matcher.jobContentDigest)
    {content : JobContent} (hcurrent : jobInputIsCurrent matcher job content = true) :
    job.content = content :=
  hdigest (of_decide_eq_true hcurrent)

omit [DecidableEq Digest] in
theorem scoredStatus_of_changed {task : ScoreTask Profile} (ready : Bool)
    (hchanged : before.latestProfileVersion ≠ task.version) :
    scoredStatus matcher before task ready = .scored := by
  unfold scoredStatus
  rw [if_neg]
  simp [hchanged]

theorem commitScore_committed (hdigest : Function.Injective matcher.jobContentDigest)
    {task : ScoreTask Profile} (hloaded : Loaded before task.version task.profile)
    (hcommit : commitScore matcher before task = some after) :
    ScoreCommitted matcher before after task := by
  refine ⟨hloaded, ?_⟩
  simp only [commitScore, Option.bind_eq_bind, Option.bind_eq_some_iff] at hcommit
  obtain ⟨ready, _, job, _, hcommit⟩ := hcommit
  split at hcommit
  · next revision happlication =>
    obtain ⟨_, _, hcommit⟩ := Option.bind_eq_some_iff.mp hcommit
    split at hcommit
    · next hcurrent =>
      cases hcommit
      refine ⟨_, Table.put_self _ _ _, ?_, fun hnone => ?_⟩
      · rw [content_of_current hdigest hcurrent]
      · rw [happlication] at hnone
        cases hnone
    · cases hcommit
  · split at hcommit
    · next hopen =>
      cases hcommit
      rw [Bool.and_eq_true] at hopen
      refine ⟨_, Table.put_self _ _ _, ?_, fun _ hchanged => scoredStatus_of_changed
        ready hchanged⟩
      rw [content_of_current hdigest hopen.2]
    · cases hcommit

theorem commitGenerate_committed (hdigest : Function.Injective matcher.jobContentDigest)
    {task : GenerateTask Profile Env} (hloaded : Loaded before task.version task.profile)
    (hcommit : commitGenerate matcher before task = some after) :
    GenerateCommitted matcher before after task := by
  simp only [commitGenerate, Option.bind_eq_bind, Option.bind_eq_some_iff] at hcommit
  obtain ⟨job, _, revision, _, hcommit⟩ := hcommit
  split at hcommit
  · next hcurrent =>
    cases hcommit
    rw [Bool.and_eq_true, decide_eq_true_eq] at hcurrent
    refine ⟨hloaded, hcurrent.2, _, _, Table.put_self _ _ _, rfl, rfl, ?_, ?_⟩
    · rw [content_of_current hdigest hcurrent.1]
    · rw [content_of_current hdigest hcurrent.1]
  · cases hcommit

omit [DecidableEq Digest] in
theorem rescored_cases (task : RescoreTask Profile) (job : JobRecord Fit Materials) (jobId : ℕ) :
    rescored matcher task job jobId = job ∨
      ∃ content, task.contents jobId = some content ∧ rescored matcher task job jobId =
        { job with score := some (matcher.scoreJob content task.profile) } := by
  unfold rescored
  split
  · next content hcontent =>
    split
    · exact .inr ⟨content, hcontent, rfl⟩
    · exact .inl rfl
  · exact .inl rfl

omit [DecidableEq Digest] in
theorem commitRescore_committed {task : RescoreTask Profile}
    (hloaded : Loaded before (some task.version) task.profile)
    (hcommit : commitRescore matcher before task = some after) :
    RescoreCommitted matcher before after task := by
  unfold commitRescore at hcommit
  split at hcommit
  · next hcurrent =>
    cases hcommit
    refine ⟨hloaded, hcurrent, fun jobId job hjob => ?_⟩
    obtain ⟨old, hold, rfl⟩ := Option.map_eq_some_iff.mp hjob
    exact ⟨old, hold, rescored_cases task old jobId⟩
  · cases hcommit

theorem commitTask_committed (hdigest : Function.Injective matcher.jobContentDigest)
    (hok : TaskOk before task) (hcommit : commitTask matcher before task = some after) :
    TaskCommitted matcher before after task := by
  cases task with
  | score task => exact commitScore_committed hdigest hok hcommit
  | generate task => exact commitGenerate_committed hdigest hok hcommit
  | rescore task => exact commitRescore_committed hok hcommit

/-! ## Steps -/

/-- No score and no application is written. -/
def WritesNone (before after : PreparationState Profile Env Fit Materials) : Prop :=
  ∀ jobId job, after.jobs jobId = some job →
    (∀ score, job.score = some score →
      ∃ old, before.jobs jobId = some old ∧ old.score = some score) ∧
    ∀ application, job.application = some application →
      ∃ old earlier, before.jobs jobId = some old ∧ old.application = some earlier ∧
        earlier.profileVersion = application.profileVersion ∧
        earlier.fit = application.fit ∧ earlier.materials = application.materials

omit [DecidableEq Digest] in
theorem writesNone_of_jobs (hjobs : after.jobs = before.jobs) : WritesNone before after := by
  intro jobId job hjob
  rw [hjobs] at hjob
  exact ⟨fun score hscore => ⟨job, hjob, hscore⟩,
    fun application happlication => ⟨job, application, hjob, happlication, rfl, rfl, rfl⟩⟩

/-- A row that keeps what is written of it, apart from a score that is cleared. -/
structure KeepsWritten (old job : JobRecord Fit Materials) : Prop where
  score : job.score = old.score ∨ job.score = none
  application : ∀ application, job.application = some application →
    ∃ earlier, old.application = some earlier ∧
      earlier.profileVersion = application.profileVersion ∧
      earlier.fit = application.fit ∧ earlier.materials = application.materials

omit [DecidableEq Digest] in
theorem writesNone_put (hold : before.jobs jobId = some old)
    (hkeeps : KeepsWritten old job) :
    WritesNone before (before.putJob jobId job) := by
  intro other found hfound
  rcases Table.put_eq_some hfound with ⟨rfl, rfl⟩ | ⟨_, hsame⟩
  · constructor
    · intro score hscore
      rcases hkeeps.score with hkept | hcleared
      · exact ⟨old, hold, hkept.symm.trans hscore⟩
      · rw [hcleared] at hscore
        cases hscore
    · intro application happlication
      obtain ⟨earlier, hearlier, hrest⟩ := hkeeps.application application happlication
      exact ⟨old, earlier, hold, hearlier, hrest⟩
  · exact writesNone_of_jobs rfl other found hsame

omit [DecidableEq Digest] in
theorem updatedJob_keeps (job : JobRecord Fit Materials) (content : JobContent)
    (reopens clearsScore : Bool) :
    KeepsWritten job (updatedJob job content reopens clearsScore) := by
  constructor
  · cases clearsScore with
    | true => exact .inr rfl
    | false => exact .inl rfl
  · exact fun application happlication => ⟨application, happlication, rfl, rfl, rfl⟩

omit [DecidableEq Digest] in
theorem movedOn_keeps (job : JobRecord Fit Materials) (status applicationStatus : JobStatus)
    (revision : ℕ) (attempted : Bool) :
    KeepsWritten job (movedOn job status applicationStatus revision attempted) := by
  refine ⟨.inl rfl, fun application happlication => ?_⟩
  obtain ⟨earlier, hearlier, rfl⟩ := Option.map_eq_some_iff.mp happlication
  exact ⟨earlier, hearlier, rfl, rfl, rfl⟩

/-- A step that is no commit writes neither a score nor an application. -/
theorem perform_writesNone (hstep : performPreparation matcher before action = some after)
    (hother : ∀ index, action ≠ .commit index) : WritesNone before after := by
  cases action with
  | saveProfile profile | editFile profile =>
    cases hstep
    exact writesNone_of_jobs rfl
  | discoverJob jobId content =>
    simp only [performPreparation, Option.ite_none_right_eq_some] at hstep
    obtain ⟨_, hput⟩ := hstep
    cases hput
    intro other found hfound
    rcases Table.put_eq_some hfound with ⟨rfl, rfl⟩ | ⟨_, hsame⟩
    · constructor
      · rintro score ⟨⟩
      · rintro application ⟨⟩
    · exact writesNone_of_jobs rfl other found hsame
  | updateJob jobId content reopens clearsScore =>
    obtain ⟨job, hjob, rfl⟩ := Option.map_eq_some_iff.mp hstep
    exact writesNone_put hjob (updatedJob_keeps _ _ _ _)
  | moveOn jobId status applicationStatus revision attempted =>
    obtain ⟨job, hjob, rfl⟩ := Option.map_eq_some_iff.mp hstep
    exact writesNone_put hjob (movedOn_keeps _ _ _ _ _)
  | beginScore jobId | beginGenerate jobId requested env | beginRescore version jobIds =>
    obtain ⟨task, _, rfl⟩ := Option.map_eq_some_iff.mp hstep
    exact writesNone_of_jobs rfl
  | probe index ready =>
    simp only [performPreparation] at hstep
    split at hstep
    · cases hstep
      exact writesNone_of_jobs rfl
    · cases hstep
  | returnToScored jobId =>
    obtain ⟨job, hjob, hwrite⟩ := Option.bind_eq_some_iff.mp hstep
    obtain ⟨_, hput⟩ := Option.ite_none_right_eq_some.mp hwrite
    cases hput
    refine writesNone_put hjob ⟨.inl rfl, fun application happlication => ?_⟩
    exact ⟨application, happlication, rfl, rfl, rfl⟩
  | commit index => exact absurd rfl (hother index)
  | abandon index =>
    obtain ⟨task, _, rfl⟩ := Option.map_eq_some_iff.mp hstep
    exact writesNone_of_jobs rfl

/-! ## Runs -/

omit [DecidableEq Digest] in
theorem task_add (htask : (state.addTask added).task index = some task) :
    state.task index = some task ∨ task = added := by
  unfold PreparationState.task PreparationState.addTask at htask
  rw [Option.join_eq_some_iff, List.getElem?_append] at htask
  split at htask
  · exact .inl (Option.join_eq_some_iff.mpr htask)
  right
  have hmem := List.mem_of_getElem? htask
  rw [List.mem_singleton] at hmem
  exact Option.some.inj hmem

omit [DecidableEq Digest] in
theorem task_set (htask : (state.setTask place entry).task index = some task) :
    state.task index = some task ∨ entry = some task := by
  unfold PreparationState.task PreparationState.setTask at htask
  rw [Option.join_eq_some_iff, List.getElem?_set] at htask
  split at htask
  · split at htask
    · exact .inr (Option.some.inj htask)
    · cases htask
  · exact .inl (Option.join_eq_some_iff.mpr htask)

omit [DecidableEq Digest] in
theorem TasksOk.add (hok : TasksOk state) (hadded : TaskOk state added) :
    TasksOk (state.addTask added) := by
  intro index task htask
  rcases task_add htask with hold | rfl
  · exact (hok index task hold).later (List.prefix_refl _)
  · exact TaskOk.later hadded (List.prefix_refl _)

omit [DecidableEq Digest] in
theorem TasksOk.set (hok : TasksOk state) (hentry : ∀ task, entry = some task → TaskOk state task) :
    TasksOk (state.setTask place entry) := by
  intro index task htask
  rcases task_set htask with hold | hnew
  · exact (hok index task hold).later (List.prefix_refl _)
  · exact (hentry task hnew).later (List.prefix_refl _)

/-- Other columns of the state do not matter to the tasks. -/
theorem TasksOk.of_same (hok : TasksOk before) (htasks : after.tasks = before.tasks)
    (hversions : List.IsPrefix before.versions after.versions) : TasksOk after := by
  intro index task htask
  unfold PreparationState.task at htask
  rw [htasks] at htask
  exact (hok index task htask).later hversions

theorem commitTask_same (hcommit : commitTask matcher before task = some after) :
    after.tasks = before.tasks ∧ after.versions = before.versions := by
  cases task with
  | score task =>
    simp only [commitTask, commitScore, Option.bind_eq_bind, Option.bind_eq_some_iff] at hcommit
    obtain ⟨ready, _, job, _, hcommit⟩ := hcommit
    split at hcommit
    · obtain ⟨_, _, hcommit⟩ := Option.bind_eq_some_iff.mp hcommit
      split at hcommit <;> cases hcommit
      exact ⟨rfl, rfl⟩
    · split at hcommit <;> cases hcommit
      exact ⟨rfl, rfl⟩
  | generate task =>
    simp only [commitTask, commitGenerate, Option.bind_eq_bind, Option.bind_eq_some_iff]
      at hcommit
    obtain ⟨job, _, revision, _, hcommit⟩ := hcommit
    split at hcommit <;> cases hcommit
    exact ⟨rfl, rfl⟩
  | rescore task =>
    simp only [commitTask, commitRescore] at hcommit
    split at hcommit <;> cases hcommit
    exact ⟨rfl, rfl⟩

theorem TasksOk.step (hok : TasksOk before)
    (hstep : performPreparation matcher before action = some after) : TasksOk after := by
  cases action with
  | saveProfile profile =>
    cases hstep
    exact hok.of_same rfl (List.prefix_append _ _)
  | editFile profile =>
    cases hstep
    exact hok.of_same rfl (List.prefix_refl _)
  | discoverJob jobId content =>
    simp only [performPreparation, Option.ite_none_right_eq_some] at hstep
    obtain ⟨_, hput⟩ := hstep
    cases hput
    exact hok.of_same rfl (List.prefix_refl _)
  | updateJob jobId content reopens clearsScore
  | moveOn jobId status applicationStatus revision attempted =>
    obtain ⟨job, _, rfl⟩ := Option.map_eq_some_iff.mp hstep
    exact hok.of_same rfl (List.prefix_refl _)
  | beginScore jobId =>
    obtain ⟨task, hbegin, rfl⟩ := Option.map_eq_some_iff.mp hstep
    exact hok.add (beginScore_ok hbegin)
  | beginGenerate jobId requested env =>
    obtain ⟨task, hbegin, rfl⟩ := Option.map_eq_some_iff.mp hstep
    exact hok.add (beginGenerate_ok hbegin)
  | beginRescore version jobIds =>
    obtain ⟨task, hbegin, rfl⟩ := Option.map_eq_some_iff.mp hstep
    exact hok.add (beginRescore_ok hbegin)
  | probe index ready =>
    simp only [performPreparation] at hstep
    split at hstep
    · next task htask =>
      cases hstep
      apply hok.set
      rintro other ⟨⟩
      exact hok index (.score task) htask
    · cases hstep
  | returnToScored jobId =>
    obtain ⟨job, _, hwrite⟩ := Option.bind_eq_some_iff.mp hstep
    obtain ⟨_, hput⟩ := Option.ite_none_right_eq_some.mp hwrite
    cases hput
    exact hok.of_same rfl (List.prefix_refl _)
  | commit index =>
    obtain ⟨task, _, hcommit⟩ := Option.bind_eq_some_iff.mp hstep
    obtain ⟨written, hwritten, rfl⟩ := Option.map_eq_some_iff.mp hcommit
    obtain ⟨htasks, hversions⟩ := commitTask_same hwritten
    have hkept : TasksOk written := hok.of_same htasks (hversions ▸ List.prefix_refl _)
    exact hkept.set fun _ hnone => nomatch hnone
  | abandon index =>
    obtain ⟨task, _, rfl⟩ := Option.map_eq_some_iff.mp hstep
    exact hok.set fun _ hnone => nomatch hnone

theorem tasksOk_invariant (matcher : Matcher Profile Env Fit Materials Digest) :
    (preparationSystem matcher).Invariant anyPreparation TasksOk where
  init := by
    rintro state ⟨profile, rfl⟩ index task htask
    cases htask
  step := fun _ _ _ hok _ hstep => hok.step hstep

/-- Every commit of a task, in any run: a score is that of the committed content and of the
profile of the version that the task has read, and a job whose version is not the latest any
more does not go on to generation; a generated application belongs to the committed content
and to the latest version; a rescored page belongs to the latest version.  No other step
writes a score or an application. -/
theorem commits_current (matcher : Matcher Profile Env Fit Materials Digest)
    (hdigest : Function.Injective matcher.jobContentDigest)
    (hreach : (preparationSystem matcher).Reachable anyPreparation state)
    (hstep : (preparationSystem matcher).step state action after) :
    (∀ index task, action = .commit index → state.task index = some task →
      TaskCommitted matcher state after task) ∧
      ((∀ index, action ≠ .commit index) → WritesNone state after) := by
  refine ⟨fun index task haction htask => ?_, perform_writesNone hstep⟩
  subst haction
  have hok := (tasksOk_invariant matcher).reachable hreach index task htask
  obtain ⟨found, hfound, hcommit⟩ := Option.bind_eq_some_iff.mp hstep
  rw [htask] at hfound
  cases hfound
  obtain ⟨written, hwritten, rfl⟩ := Option.map_eq_some_iff.mp hcommit
  have hcommitted := commitTask_committed hdigest hok hwritten
  cases task with
  | score task => exact ⟨hcommitted.loaded, hcommitted.written⟩
  | generate task => exact ⟨hcommitted.loaded, hcommitted.current, hcommitted.written⟩
  | rescore task => exact ⟨hcommitted.loaded, hcommitted.current, hcommitted.written⟩

/-- A matcher over numbered profiles: a score counts the profile, and a hundred for one
title. -/
def sampleMatcher : Matcher ℕ Unit ℕ ℕ JobContent where
  jobContentDigest := id
  scoreJob := fun content profile =>
    ((if content.title = "revised" then 100 + profile else profile : ℕ) : Rat)
  decidesSkip := fun _ _ => false
  evaluateJobFit := fun _ _ profile _ => profile
  generateFullApplication := fun _ _ profile _ => profile

def sampleContent (title : String) : JobContent where
  title := title
  company := ""
  location := ""
  employmentType := ""
  seniority := ""
  description := ""
  requirements := ""
  keywords := []

def sampleRun (actions : List (PreparationAction ℕ Unit)) : PreparationState ℕ Unit ℕ ℕ :=
  runEnd (performPreparation sampleMatcher) (fun _ _ => true) (preparationStart 0) actions

theorem sampleRun_reachable (actions : List (PreparationAction ℕ Unit)) :
    (preparationSystem sampleMatcher).Reachable anyPreparation (sampleRun actions) := by
  apply runEnd_reachable
  · exact fun _ _ _ hstep => hstep
  · exact fun _ _ _ => trivial
  · exact ⟨0, rfl⟩

/-- A scoring task reads the first profile version; a second one is saved before it
commits. -/
def supersededScore : PreparationState ℕ Unit ℕ ℕ :=
  sampleRun [.saveProfile 1, .discoverJob 7 (sampleContent "first"), .beginScore 7,
    .saveProfile 2, .probe 0 true]

def revisedPage : PreparationState ℕ Unit ℕ ℕ :=
  sampleRun [.saveProfile 1, .discoverJob 7 (sampleContent "first"), .beginRescore 1 [7],
    .updateJob 7 (sampleContent "revised") true true]

def afterCommit (state : PreparationState ℕ Unit ℕ ℕ) : PreparationState ℕ Unit ℕ ℕ :=
  (performPreparation sampleMatcher state (.commit 0)).getD state

/-- The score of the superseded task is written, and its job is not handed on. -/
theorem commits_current_sample :
    ∃ task, supersededScore.task 0 = some task ∧
      TaskCommitted sampleMatcher supersededScore (afterCommit supersededScore) task := by
  have hdigest : Function.Injective sampleMatcher.jobContentDigest := Function.injective_id
  have hstep : (preparationSystem sampleMatcher).step supersededScore (.commit 0)
      (afterCommit supersededScore) := by
    rfl
  exact ⟨_, rfl,
    (commits_current sampleMatcher hdigest (sampleRun_reachable _) hstep).1 0 _ rfl rfl⟩

/-- The score of the job and the one that its content and the latest profile give. -/
def scoreAndCurrent (state : PreparationState ℕ Unit ℕ ℕ) : Option (Option Rat × Rat) := do
  let job ← state.jobs 7
  let profile ← state.loadProfile state.latestProfileVersion
  return (job.score, sampleMatcher.scoreJob job.content profile)

/-- A committed score of an older profile, and one of an older content. -/
theorem stale_scores_committed :
    ((preparationSystem sampleMatcher).Reachable anyPreparation supersededScore ∧
      (preparationSystem sampleMatcher).step supersededScore (.commit 0)
        (afterCommit supersededScore) ∧
      scoreAndCurrent (afterCommit supersededScore) = some (some 1, 2)) ∧
    ((preparationSystem sampleMatcher).Reachable anyPreparation revisedPage ∧
      (preparationSystem sampleMatcher).step revisedPage (.commit 0) (afterCommit revisedPage) ∧
      scoreAndCurrent (afterCommit revisedPage) = some (some 1, 101)) := by
  refine ⟨⟨sampleRun_reachable _, rfl, ?_⟩, sampleRun_reachable _, rfl, ?_⟩
  · decide
  · decide

end JobApplyAgent.Preparation
