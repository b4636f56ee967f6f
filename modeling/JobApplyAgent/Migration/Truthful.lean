import JobApplyAgent.Migration.Upgrade

/-!
# What the upgrade claims about the past

No imported attempt counts as a submission the employer confirmed, and an application
that may have reached its employer waits for a review.  The state of an application
comes from one attempt of its history: an unknown attempt or an unverified success
outranks later ones, an attempt that the operator confirmed does not.
-/

namespace JobApplyAgent.Migration

open Domain Library

/-! ## The old attempts -/

namespace LegacySubmission

/-- The operator recorded that this attempt was submitted. -/
def confirmedByOperator (row : LegacySubmission) : Bool :=
  row.reasonIs "OPERATOR_CONFIRMED_SUBMITTED"

/-- This attempt ended before it could reach the employer. -/
def endedBeforeCommit (row : LegacySubmission) : Bool :=
  !row.confirmedByOperator && (row.reasonIs "RECONCILED_NOT_SUBMITTED"
    || decide (row.status = .draftOnly)
    || (decide (row.status = .failed) && row.reasonCode.any (· ∈ knownPrecommitFailures)))

end LegacySubmission

variable {row : LegacySubmission}

theorem legacyOutcome_eq_operatorConfirmed :
    (legacyOutcome row).1 = .operatorConfirmed ↔ row.confirmedByOperator = true := by
  unfold legacyOutcome LegacySubmission.confirmedByOperator
  split_ifs <;> simp_all

theorem legacyOutcome_ended :
    ((legacyOutcome row).1 = .failedBeforeCommit ∨ (legacyOutcome row).1 = .draftOnly) ↔
      row.endedBeforeCommit = true := by
  unfold legacyOutcome LegacySubmission.endedBeforeCommit LegacySubmission.confirmedByOperator
  split_ifs <;> simp_all

/-- An imported attempt has one of five outcomes. -/
theorem legacyOutcome_cases (row : LegacySubmission) :
    (legacyOutcome row).1 = .unknown ∨ (legacyOutcome row).1 = .legacyUnverified ∨
      (legacyOutcome row).1 = .operatorConfirmed ∨
      (legacyOutcome row).1 = .failedBeforeCommit ∨ (legacyOutcome row).1 = .draftOnly := by
  unfold legacyOutcome
  split_ifs <;> simp

theorem legacyOutcome_success (hstatus : (legacyOutcome row).2 = .success) :
    (legacyOutcome row).1 = .legacyUnverified := by
  unfold legacyOutcome at *
  split_ifs at hstatus ⊢ <;> simp_all

/-! ## Histories -/

section

variable {submissions : List Submission}

theorem mem_attemptsByApplication :
    (applicationId, history) ∈ attemptsByApplication submissions ↔
      (∃ row ∈ submissions, row.applicationId = applicationId) ∧
        history = (submissions.insertionSort Submission.Precedes).filter
          fun row => row.applicationId = applicationId := by
  simp only [attemptsByApplication, List.mem_map, List.mem_dedup, List.mem_insertionSort,
    Prod.mk.injEq]
  constructor
  · rintro ⟨_, hrow, rfl, rfl⟩
    exact ⟨hrow, rfl⟩
  · rintro ⟨hrow, rfl⟩
    exact ⟨applicationId, hrow, rfl, rfl⟩

theorem mem_history (hhistory : (applicationId, history) ∈ attemptsByApplication submissions)
    {row : Submission} : row ∈ history ↔ row ∈ submissions ∧ row.applicationId = applicationId := by
  rw [(mem_attemptsByApplication.mp hhistory).2, List.mem_filter, List.mem_insertionSort,
    decide_eq_true_eq]

theorem nodup_histories (submissions : List Submission) :
    ((attemptsByApplication submissions).map Prod.fst).Nodup := by
  rw [attemptsByApplication, List.map_map]
  have hfirst : (Prod.fst ∘ fun applicationId : ℕ =>
      (applicationId, (submissions.insertionSort Submission.Precedes).filter
        fun row => row.applicationId = applicationId)) = id := rfl
  rw [hfirst, List.map_id]
  exact List.nodup_dedup _

theorem head_history (hhistory : (applicationId, history) ∈ attemptsByApplication submissions) :
    ∃ last ∈ history, history.head? = some last ∧
      ∀ row ∈ history, row.attemptNumber ≤ last.attemptNumber := by
  obtain ⟨⟨row, hrow, hid⟩, heq⟩ := mem_attemptsByApplication.mp hhistory
  have hmem : row ∈ history := (mem_history hhistory).mpr ⟨hrow, hid⟩
  have hsorted : history.Pairwise Submission.Precedes := by
    rw [heq]
    exact (List.pairwise_insertionSort _ _).filter _
  have hids : ∀ item ∈ history, item.applicationId = applicationId :=
    fun item hitem => ((mem_history hhistory).mp hitem).2
  cases history with
  | nil => cases hmem
  | cons last rest =>
    refine ⟨last, List.mem_cons_self, rfl, ?_⟩
    intro item hitem
    rcases List.mem_cons.mp hitem with rfl | hrest
    · exact le_refl _
    have horder := (List.pairwise_cons.mp hsorted).1 item hrest
    have hsame : last.applicationId = item.applicationId :=
      (hids last List.mem_cons_self).trans (hids item hitem).symm
    unfold Submission.Precedes at horder
    omega

end

/-! ## The representative attempt -/

theorem projectedState_unknown {ambiguous : List ℤ}
    (hclear : profileIdentityAmbiguous ambiguous application history = false)
    (hunknown : ∃ row ∈ history, row.outcome = some .unknown) :
    projectedState ambiguous application history =
      some (.needsReview, some "STALE_INDETERMINATE") := by
  have hfind : (history.find? fun item => item.outcome = some .unknown).isSome := by
    rw [List.find?_isSome]
    obtain ⟨row, hrow, houtcome⟩ := hunknown
    exact ⟨row, hrow, by simp [houtcome]⟩
  obtain ⟨row, hrow⟩ := Option.isSome_iff_exists.mp hfind
  have houtcome : row.outcome = some .unknown := by simpa using List.find?_some hrow
  simp [projectedState, hclear, representative, hrow, houtcome]

theorem projectedState_unverified {ambiguous : List ℤ}
    (hclear : profileIdentityAmbiguous ambiguous application history = false)
    (hknown : ¬∃ row ∈ history, row.outcome = some .unknown)
    (hunverified : ∃ row ∈ history, row.outcome = some .legacyUnverified) :
    projectedState ambiguous application history =
      some (.needsReview, some "LEGACY_UNVERIFIED") := by
  have hnone : (history.find? fun item => item.outcome = some .unknown) = none := by
    rw [List.find?_eq_none]
    intro row hrow houtcome
    exact hknown ⟨row, hrow, by simpa using houtcome⟩
  have hfind : (history.find? fun item => item.outcome = some .legacyUnverified).isSome := by
    rw [List.find?_isSome]
    obtain ⟨row, hrow, houtcome⟩ := hunverified
    exact ⟨row, hrow, by simp [houtcome]⟩
  obtain ⟨row, hrow⟩ := Option.isSome_iff_exists.mp hfind
  have houtcome : row.outcome = some .legacyUnverified := by simpa using List.find?_some hrow
  simp [projectedState, hclear, representative, hnone, hrow, houtcome]

theorem representative_latest (hhead : history.head? = some last)
    (hknown : ¬∃ row ∈ history, row.outcome = some .unknown)
    (hverified : ¬∃ row ∈ history, row.outcome = some .legacyUnverified) :
    representative history = some last := by
  have hunknown : (history.find? fun item => item.outcome = some .unknown) = none := by
    rw [List.find?_eq_none]
    intro row hrow houtcome
    exact hknown ⟨row, hrow, by simpa using houtcome⟩
  have hunverified : (history.find? fun item => item.outcome = some .legacyUnverified) = none := by
    rw [List.find?_eq_none]
    intro row hrow houtcome
    exact hverified ⟨row, hrow, by simpa using houtcome⟩
  simp [representative, hunknown, hunverified, hhead]

theorem projectedState_confirmed {ambiguous : List ℤ}
    (hclear : profileIdentityAmbiguous ambiguous application history = false)
    (hlast : representative history = some last)
    (houtcome : last.outcome = some .operatorConfirmed) :
    projectedState ambiguous application history = some (.submitted, none) := by
  simp [projectedState, hclear, hlast, houtcome]

theorem projectedState_ended {ambiguous : List ℤ}
    (hclear : profileIdentityAmbiguous ambiguous application history = false)
    (hlast : representative history = some last)
    (houtcome : last.outcome = some .failedBeforeCommit ∨ last.outcome = some .draftOnly) :
    ∃ status reason, projectedState ambiguous application history = some (status, reason) ∧
      (status = .failed ∨ status = .draft) := by
  rcases houtcome with houtcome | houtcome
  · let reason := last.reasonCode.filter fun text => text ≠ ""
    refine ⟨.failed, some (reason.getD "FAILED_BEFORE_COMMIT"), ?_, .inl rfl⟩
    simp only [projectedState, hclear, hlast, Option.bind_some, houtcome]
    rfl
  · exact ⟨.draft, none, by simp [projectedState, hclear, hlast, houtcome], .inr rfl⟩

theorem projectedState_ambiguous {ambiguous : List ℤ}
    (hambiguous : profileIdentityAmbiguous ambiguous application history = true) :
    projectedState ambiguous application history =
      some (.needsReview, some "PROFILE_VERSION_AMBIGUOUS") := by
  rw [projectedState, if_pos hambiguous]

/-! ## The upgraded applications -/

namespace LegacyContent

variable (legacy : LegacyContent)

/-- The application rows before the histories are projected onto them. -/
def backfilled : List Application :=
  legacy.applications.map backfillApplication

def imported : List Submission :=
  legacy.submissions.map (backfillSubmission legacy.backfilled)

def histories : List (ℕ × List Submission) :=
  attemptsByApplication legacy.imported

def ambiguous : List ℤ :=
  ambiguousProfileVersions legacy.profiles

/-- What the loop over the histories makes of a row. -/
def projectedRow (row : Application) : Application :=
  rewritten (fun row : Application => row.id) Prod.fst
    (fun entry row => row.project (projectedState legacy.ambiguous row entry.2))
    legacy.histories row

def projected : List Application :=
  projectApplications legacy.ambiguous legacy.histories legacy.backfilled

def upgradedRow (row : Application) : Application :=
  rewritten (fun row : Application => row.id) (fun row : Application => row.id)
    (fun _ row => quarantine row)
    (untouchedApplications legacy.ambiguous legacy.histories legacy.projected)
    (legacy.projectedRow row)

theorem projected_eq_map : legacy.projected = legacy.backfilled.map legacy.projectedRow :=
  updateEach_eq_map _ _

theorem applications_upgrade :
    (upgrade legacy).applications = legacy.backfilled.map legacy.upgradedRow := by
  have hupgrade : (upgrade legacy).applications = quarantineApplications
      (untouchedApplications legacy.ambiguous legacy.histories legacy.projected)
      legacy.projected := rfl
  rw [hupgrade, quarantineApplications, updateEach_eq_map]
  conv_lhs => rw [projected_eq_map, List.map_map]
  rw [← projected_eq_map]
  rfl

end LegacyContent

@[simp]
theorem Application.id_project (row : Application) (state : Option (JobStatus × Option String)) :
    (row.project state).id = row.id := by
  cases state <;> rfl

@[simp]
theorem Application.profileVersion_project (row : Application)
    (state : Option (JobStatus × Option String)) :
    (row.project state).profileVersion = row.profileVersion := by
  cases state <;> rfl

section

variable (legacy : LegacyContent)

theorem id_projectedRow (row : Application) : (legacy.projectedRow row).id = row.id := by
  apply column_rewritten fun row : Application => row.id
  intro entry row
  exact row.id_project _

theorem profileVersion_projectedRow (row : Application) :
    (legacy.projectedRow row).profileVersion = row.profileVersion := by
  apply column_rewritten fun row : Application => row.profileVersion
  intro entry row
  exact row.profileVersion_project _

theorem id_upgradedRow (row : Application) : (legacy.upgradedRow row).id = row.id := by
  refine Eq.trans ?_ (id_projectedRow legacy row)
  apply column_rewritten fun row : Application => row.id
  intro entry row
  exact row.id_project _

theorem map_id_applications_upgrade :
    (upgrade legacy).applications.map (fun row => row.id) =
      legacy.applications.map LegacyApplication.id := by
  rw [legacy.applications_upgrade, LegacyContent.backfilled, List.map_map, List.map_map]
  apply List.map_congr_left
  intro row _
  exact id_upgradedRow legacy _

end

section

variable {legacy : LegacyContent}

variable {row : Application}

theorem projectedRow_of_history (hhistory : (row.id, history) ∈ legacy.histories) :
    legacy.projectedRow row = row.project (projectedState legacy.ambiguous row history) := by
  refine (rewritten_of_mem ?_ (nodup_histories _) hhistory ?_).trans ?_
  · intro entry row
    exact row.id_project _
  · rfl
  · rfl

theorem upgradedRow_of_history (hhistory : (row.id, history) ∈ legacy.histories) :
    legacy.upgradedRow row = row.project (projectedState legacy.ambiguous row history) := by
  rw [← projectedRow_of_history hhistory]
  apply rewritten_of_forall_ne
  intro other hother hid
  obtain ⟨_, htouched⟩ := List.mem_filter.mp hother
  rw [id_projectedRow] at hid
  have hmem : other.id ∈ legacy.histories.map Prod.fst :=
    hid ▸ List.mem_map_of_mem hhistory
  simp [hmem] at htouched

theorem upgradedRow_of_untouched (hids : (legacy.applications.map LegacyApplication.id).Nodup)
    (hrow : row ∈ legacy.backfilled) (hnone : row.id ∉ legacy.histories.map Prod.fst)
    (hambiguous : namesAny legacy.ambiguous row.profileVersion = true) :
    (legacy.upgradedRow row).status = .needsReview := by
  have hplaces : ((untouchedApplications legacy.ambiguous legacy.histories
      legacy.projected).map fun row => row.id).Nodup := by
    apply List.Nodup.sublist (List.filter_sublist.map _)
    rw [legacy.projected_eq_map, List.map_map, LegacyContent.backfilled, List.map_map]
    have hsame : ((fun row : Application => row.id) ∘ legacy.projectedRow) ∘
        backfillApplication = LegacyApplication.id := by
      funext old
      exact id_projectedRow legacy _
    rw [hsame]
    exact hids
  have hmem : legacy.projectedRow row ∈ untouchedApplications legacy.ambiguous
      legacy.histories legacy.projected := by
    rw [untouchedApplications, List.mem_filter, legacy.projected_eq_map]
    refine ⟨List.mem_map_of_mem hrow, ?_⟩
    rw [profileVersion_projectedRow, hambiguous, id_projectedRow]
    simpa using hnone
  have hwritten : legacy.upgradedRow row = quarantine (legacy.projectedRow row) := by
    refine (rewritten_of_mem ?_ hplaces hmem ?_).trans ?_
    · intro other row
      exact row.id_project _
    · rfl
    · rfl
  rw [hwritten]
  rfl

end

/-! ## The claim of the upgrade -/

namespace LegacyContent

variable (legacy : LegacyContent)

/-- The application, or one of its attempts, names a version number of two profiles. -/
def RefersDuplicated (application : LegacyApplication) : Prop :=
  (∃ version, application.profileVersion = some version ∧
    Duplicated legacy.profiles version) ∨
  ∃ submission ∈ legacy.submissions, submission.applicationId = application.id ∧
    ∃ version, submission.profileVersion = some version ∧ Duplicated legacy.profiles version

def LatestAttempt (application : LegacyApplication) (last : LegacySubmission) : Prop :=
  last ∈ legacy.submissions ∧ last.applicationId = application.id ∧
    ∀ other ∈ legacy.submissions, other.applicationId = application.id →
      other.attemptNumber ≤ last.attemptNumber

/-- The operator confirmed an attempt, a later one ended before it could reach the
employer, and nothing else keeps the application from being tried again. -/
structure ConfirmationOutrun (application : LegacyApplication) : Prop where
  confirmed : ∃ submission ∈ legacy.submissions,
    submission.applicationId = application.id ∧ submission.confirmedByOperator = true
  settled : ∀ submission ∈ legacy.submissions, submission.applicationId = application.id →
    submission.confirmedByOperator = true ∨ submission.endedBeforeCommit = true
  outrun : ∃ last, legacy.LatestAttempt application last ∧ last.endedBeforeCommit = true
  identified : ¬legacy.RefersDuplicated application

end LegacyContent

def Submission.mayHaveReached (submission : Submission) : Prop :=
  submission.outcome = some .unknown ∨ submission.outcome = some .legacyUnverified ∨
    submission.outcome = some .operatorConfirmed

/-- What the upgraded tables may say about the version 3 ones. -/
structure Truthful (legacy : LegacyContent) (upgraded : Content) : Prop where
  finished : ∀ submission ∈ upgraded.submissions,
    submission.stage = .finished ∧ submission.outcome.isSome = true
  unreported : ∀ submission ∈ upgraded.submissions, submission.submittedAt = none
  unconfirmed : ∀ submission ∈ upgraded.submissions,
    submission.outcome ≠ some .confirmedSubmitted
  admitted : upgraded.Admitted
  attempts_kept : upgraded.submissions.map (fun row => row.id) =
    legacy.submissions.map LegacySubmission.id
  applications_kept : upgraded.applications.map (fun row => row.id) =
    legacy.applications.map LegacyApplication.id
  profiles_kept : upgraded.profiles.map ProfileVersion.id =
    legacy.profiles.map ProfileVersion.id
  lowest_keeps : ∀ row ∈ legacy.profiles,
    (∀ other ∈ legacy.profiles, other.version = row.version → row.id ≤ other.id) →
      row ∈ upgraded.profiles
  duplicated_reviewed : ∀ application ∈ legacy.applications,
    legacy.RefersDuplicated application →
      ∀ row ∈ upgraded.applications, row.id = application.id → row.status = .needsReview
  reached_withheld : ∀ row ∈ upgraded.applications, ∀ submission ∈ upgraded.submissions,
    submission.applicationId = row.id → submission.mayHaveReached →
      row.status = .needsReview ∨ row.status = .submitted

/-! ### The imported attempts -/

section

variable {legacy : LegacyContent}

theorem mem_imported (hmem : submission ∈ legacy.imported) :
    ∃ old ∈ legacy.submissions, submission = backfillSubmission legacy.backfilled old := by
  obtain ⟨old, hold, rfl⟩ := List.mem_map.mp hmem
  exact ⟨old, hold, rfl⟩

theorem imported_ne_confirmed (hmem : submission ∈ legacy.imported) :
    submission.outcome ≠ some .confirmedSubmitted := by
  obtain ⟨old, _, rfl⟩ := mem_imported hmem
  intro hconfirmed
  have houtcome : (legacyOutcome old).1 = .confirmedSubmitted := Option.some.inj hconfirmed
  rcases legacyOutcome_cases old with hcase | hcase | hcase | hcase | hcase <;>
    rw [hcase] at houtcome <;> cases houtcome

theorem upgrade_admitted (legacy : LegacyDatabase) :
    (upgrade legacy.toLegacyContent).Admitted where
  stage_outcome := by
    intro submission hmem
    obtain ⟨old, _, rfl⟩ := mem_imported hmem
    exact iff_of_true rfl rfl
  success_outcome := by
    intro submission hmem hsuccess
    obtain ⟨old, _, rfl⟩ := mem_imported hmem
    exact ⟨rfl, .inr (congrArg some (legacyOutcome_success hsuccess))⟩
  submitted_at := by
    intro submission hmem hsubmitted
    obtain ⟨old, _, rfl⟩ := mem_imported hmem
    cases hsubmitted
  attempts := by
    have hsame : (upgrade legacy.toLegacyContent).submissions.map
        (fun submission => (submission.applicationId, submission.attemptNumber)) =
        legacy.submissions.map
          (fun submission => (submission.applicationId, submission.attemptNumber)) := by
      apply List.map_map
    rw [hsame]
    exact legacy.submissions_attempt
  one_unfinished := by
    have hnone : (upgrade legacy.toLegacyContent).submissions.filter
        (fun submission => submission.stage ≠ .finished) = [] := by
      rw [List.filter_eq_nil_iff]
      intro submission hmem
      obtain ⟨old, _, rfl⟩ := mem_imported hmem
      simp [backfillSubmission]
    rw [hnone]
    exact List.nodup_nil
  profile_versions := normalizeProfileVersions_nodup legacy.profiles_id

theorem history_of_attempt (hmem : submission ∈ legacy.imported)
    (hid : submission.applicationId = applicationId) :
    ∃ history, (applicationId, history) ∈ legacy.histories ∧ submission ∈ history := by
  have hhistory : (applicationId, (legacy.imported.insertionSort Submission.Precedes).filter
      fun row => row.applicationId = applicationId) ∈ legacy.histories :=
    mem_attemptsByApplication.mpr ⟨⟨submission, hmem, hid⟩, rfl⟩
  exact ⟨_, hhistory, (mem_history hhistory).mpr ⟨hmem, hid⟩⟩

theorem mem_history_iff (hhistory : (applicationId, history) ∈ legacy.histories) :
    submission ∈ history ↔ ∃ old ∈ legacy.submissions, old.applicationId = applicationId ∧
      submission = backfillSubmission legacy.backfilled old := by
  rw [mem_history hhistory]
  constructor
  · rintro ⟨hmem, hid⟩
    obtain ⟨old, hold, rfl⟩ := mem_imported hmem
    exact ⟨old, hold, hid, rfl⟩
  · rintro ⟨old, hold, hid, rfl⟩
    exact ⟨List.mem_map_of_mem hold, hid⟩

theorem namesAny_iff (hids : (legacy.profiles.map ProfileVersion.id).Nodup) :
    namesAny legacy.ambiguous version = true ↔
      ∃ number, version = some number ∧ Duplicated legacy.profiles number := by
  unfold namesAny LegacyContent.ambiguous
  cases version with
  | none => simp
  | some number => simp [mem_ambiguousProfileVersions hids]

theorem profileIdentityAmbiguous_iff (hids : (legacy.profiles.map ProfileVersion.id).Nodup)
    (hhistory : (application.id, history) ∈ legacy.histories) :
    profileIdentityAmbiguous legacy.ambiguous (backfillApplication application) history = true ↔
      legacy.RefersDuplicated application := by
  rw [profileIdentityAmbiguous, Bool.or_eq_true, namesAny_iff hids, List.any_eq_true]
  apply or_congr Iff.rfl
  constructor
  · rintro ⟨item, hitem, hnames⟩
    obtain ⟨old, hold, hid, rfl⟩ := (mem_history_iff hhistory).mp hitem
    exact ⟨old, hold, hid, (namesAny_iff hids).mp hnames⟩
  · rintro ⟨old, hold, hid, hnames⟩
    exact ⟨_, (mem_history_iff hhistory).mpr ⟨old, hold, hid, rfl⟩,
      (namesAny_iff hids).mpr hnames⟩

/-- The representative of a history without an indeterminate attempt is the import of
the latest old attempt. -/
theorem representative_settled (hhistory : (application.id, history) ∈ legacy.histories)
    (hknown : ¬∃ row ∈ history, row.outcome = some .unknown)
    (hverified : ¬∃ row ∈ history, row.outcome = some .legacyUnverified) :
    ∃ last, legacy.LatestAttempt application last ∧
      representative history = some (backfillSubmission legacy.backfilled last) := by
  obtain ⟨row, hrow, hhead, hlatest⟩ := head_history hhistory
  obtain ⟨last, hlast, hid, rfl⟩ := (mem_history_iff hhistory).mp hrow
  refine ⟨last, ⟨hlast, hid, ?_⟩, representative_latest hhead hknown hverified⟩
  intro other hother hotherId
  exact hlatest _ ((mem_history_iff hhistory).mpr ⟨other, hother, hotherId, rfl⟩)

end

/-! ### The upgraded applications -/

section

variable {legacy : LegacyContent}

theorem mem_applications_upgrade {row : Application}
    (hrow : row ∈ (upgrade legacy).applications) :
    ∃ application ∈ legacy.applications,
      row = legacy.upgradedRow (backfillApplication application) := by
  rw [legacy.applications_upgrade, LegacyContent.backfilled, List.map_map] at hrow
  obtain ⟨application, happlication, rfl⟩ := List.mem_map.mp hrow
  exact ⟨application, happlication, rfl⟩

theorem upgradedRow_mem (happlication : application ∈ legacy.applications) :
    legacy.upgradedRow (backfillApplication application) ∈ (upgrade legacy).applications := by
  rw [legacy.applications_upgrade]
  exact List.mem_map_of_mem (List.mem_map_of_mem happlication)

theorem upgradedRow_duplicated (happlications : (legacy.applications.map
      LegacyApplication.id).Nodup) (hprofiles : (legacy.profiles.map ProfileVersion.id).Nodup)
    (happlication : application ∈ legacy.applications)
    (hrefers : legacy.RefersDuplicated application) :
    (legacy.upgradedRow (backfillApplication application)).status = .needsReview := by
  by_cases hattempted : application.id ∈ legacy.histories.map Prod.fst
  · obtain ⟨⟨applicationId, history⟩, hhistory, rfl⟩ := List.mem_map.mp hattempted
    have hambiguous := (profileIdentityAmbiguous_iff hprofiles hhistory).mpr hrefers
    rw [upgradedRow_of_history hhistory, projectedState_ambiguous hambiguous]
    rfl
  · apply upgradedRow_of_untouched happlications (List.mem_map_of_mem happlication) hattempted
    rcases hrefers with hnames | ⟨old, hold, hid, _⟩
    · exact (namesAny_iff hprofiles).mpr hnames
    -- an attempt would have given the application a history
    have hmem : backfillSubmission legacy.backfilled old ∈ legacy.imported :=
      List.mem_map_of_mem hold
    obtain ⟨history, hhistory, _⟩ := history_of_attempt hmem hid
    exact absurd (List.mem_map_of_mem hhistory) hattempted

/-- An application whose confirmation is not outrun waits once any attempt of it may
have reached the employer. -/
theorem upgradedRow_withheld (hprofiles : (legacy.profiles.map ProfileVersion.id).Nodup)
    (hkept : ¬legacy.ConfirmationOutrun application)
    (hmem : submission ∈ legacy.imported) (hid : submission.applicationId = application.id)
    (hreached : submission.mayHaveReached) :
    (legacy.upgradedRow (backfillApplication application)).status = .needsReview ∨
      (legacy.upgradedRow (backfillApplication application)).status = .submitted := by
  obtain ⟨history, hhistory, hitem⟩ := history_of_attempt hmem hid
  rw [upgradedRow_of_history hhistory]
  by_cases hambiguous : profileIdentityAmbiguous legacy.ambiguous
      (backfillApplication application) history = true
  · rw [projectedState_ambiguous hambiguous]
    exact .inl rfl
  have hclear := Bool.eq_false_iff.mpr hambiguous
  by_cases hunknown : ∃ row ∈ history, row.outcome = some .unknown
  · rw [projectedState_unknown hclear hunknown]
    exact .inl rfl
  by_cases hunverified : ∃ row ∈ history, row.outcome = some .legacyUnverified
  · rw [projectedState_unverified hclear hunknown hunverified]
    exact .inl rfl
  obtain ⟨last, hlast, hrepresentative⟩ :=
    representative_settled hhistory hunknown hunverified
  have hsettled : ∀ old ∈ legacy.submissions, old.applicationId = application.id →
      old.confirmedByOperator = true ∨ old.endedBeforeCommit = true := by
    intro old hold holdId
    have hrow := (mem_history_iff hhistory).mpr ⟨old, hold, holdId, rfl⟩
    rcases legacyOutcome_cases old with hcase | hcase | hcase | hcase
    · exact absurd ⟨_, hrow, congrArg some hcase⟩ hunknown
    · exact absurd ⟨_, hrow, congrArg some hcase⟩ hunverified
    · exact .inl (legacyOutcome_eq_operatorConfirmed.mp hcase)
    · exact .inr (legacyOutcome_ended.mp hcase)
  rcases hsettled last hlast.1 hlast.2.1 with hconfirmed | hended
  · have houtcome := legacyOutcome_eq_operatorConfirmed.mpr hconfirmed
    rw [projectedState_confirmed hclear hrepresentative (congrArg some houtcome)]
    exact .inr rfl
  · have hidentified : ¬legacy.RefersDuplicated application := fun hrefers =>
      hambiguous ((profileIdentityAmbiguous_iff hprofiles hhistory).mpr hrefers)
    obtain ⟨old, hold, holdId, rfl⟩ := (mem_history_iff hhistory).mp hitem
    have hconfirmed : old.confirmedByOperator = true := by
      rcases hreached with hcase | hcase | hcase
      · exact absurd ⟨_, hitem, hcase⟩ hunknown
      · exact absurd ⟨_, hitem, hcase⟩ hunverified
      · exact legacyOutcome_eq_operatorConfirmed.mp (Option.some.inj hcase)
    exact absurd ⟨⟨old, hold, holdId, hconfirmed⟩, hsettled, ⟨last, hlast, hended⟩, hidentified⟩
      hkept

/-- An outrun confirmation leaves the application failed or a draft. -/
theorem upgradedRow_outrun (hprofiles : (legacy.profiles.map ProfileVersion.id).Nodup)
    (hattempts : (legacy.submissions.map fun submission =>
      (submission.applicationId, submission.attemptNumber)).Nodup)
    (houtrun : legacy.ConfirmationOutrun application) :
    (legacy.upgradedRow (backfillApplication application)).status = .failed ∨
      (legacy.upgradedRow (backfillApplication application)).status = .draft := by
  obtain ⟨latest, ⟨hlatest, hlatestId, hmaximal⟩, hended⟩ := houtrun.outrun
  obtain ⟨history, hhistory, hitem⟩ := history_of_attempt
    (List.mem_map_of_mem hlatest : backfillSubmission legacy.backfilled latest ∈ _) hlatestId
  have hclear : profileIdentityAmbiguous legacy.ambiguous (backfillApplication application)
      history = false := by
    rw [Bool.eq_false_iff]
    intro hambiguous
    exact houtrun.identified ((profileIdentityAmbiguous_iff hprofiles hhistory).mp hambiguous)
  have hsettled : ∀ row ∈ history, row.outcome = some .operatorConfirmed ∨
      row.outcome = some .failedBeforeCommit ∨ row.outcome = some .draftOnly := by
    intro row hrow
    obtain ⟨old, hold, hid, rfl⟩ := (mem_history_iff hhistory).mp hrow
    rcases houtrun.settled old hold hid with hconfirmed | hended
    · exact .inl (congrArg some (legacyOutcome_eq_operatorConfirmed.mpr hconfirmed))
    · exact .inr ((legacyOutcome_ended.mpr hended).imp (congrArg some) (congrArg some))
  have hknown : ¬∃ row ∈ history, row.outcome = some .unknown := by
    rintro ⟨row, hrow, houtcome⟩
    have := hsettled row hrow
    simp [houtcome] at this
  have hverified : ¬∃ row ∈ history, row.outcome = some .legacyUnverified := by
    rintro ⟨row, hrow, houtcome⟩
    have := hsettled row hrow
    simp [houtcome] at this
  obtain ⟨last, ⟨hlast, hlastId, hlastMaximal⟩, hrepresentative⟩ :=
    representative_settled hhistory hknown hverified
  have hsame : last = latest := by
    apply List.inj_on_of_nodup_map hattempts hlast hlatest
    have hnumber : last.attemptNumber = latest.attemptNumber :=
      le_antisymm (hmaximal last hlast hlastId) (hlastMaximal latest hlatest hlatestId)
    rw [hlastId, hlatestId, hnumber]
  subst hsame
  have houtcome := (legacyOutcome_ended.mpr hended).imp (congrArg some) (congrArg some)
  obtain ⟨status, reason, hstate, hstatus⟩ :=
    projectedState_ended hclear hrepresentative houtcome
  rw [upgradedRow_of_history hhistory, hstate]
  exact hstatus

end

/-- The upgrade is truthful exactly when no operator confirmation is outrun by a later
attempt that ended before commit: the search for a representative attempt does not look
for confirmations, so the latest attempt speaks over them. -/
theorem upgrade_truthful (legacy : LegacyDatabase) :
    Truthful legacy.toLegacyContent (upgrade legacy.toLegacyContent) ↔
      ∀ application ∈ legacy.applications,
        ¬legacy.ConfirmationOutrun application := by
  constructor
  · intro htruthful application happlication houtrun
    obtain ⟨old, hold, hid, hconfirmed⟩ := houtrun.confirmed
    have hreached : (backfillSubmission legacy.backfilled old).mayHaveReached :=
      .inr (.inr (congrArg some (legacyOutcome_eq_operatorConfirmed.mpr hconfirmed)))
    have hkept := id_upgradedRow legacy.toLegacyContent (backfillApplication application)
    have hrow := htruthful.reached_withheld _ (upgradedRow_mem happlication) _
      (List.mem_map_of_mem hold) (hid.trans hkept.symm) hreached
    rcases upgradedRow_outrun legacy.profiles_id legacy.submissions_attempt houtrun with
      hstatus | hstatus <;> simp [hstatus] at hrow
  · intro hkept
    refine ⟨?_, ?_, fun _ => imported_ne_confirmed, upgrade_admitted legacy, ?_,
      map_id_applications_upgrade _, map_id_normalizeProfileVersions _, ?_, ?_, ?_⟩
    · intro submission hmem
      obtain ⟨old, _, rfl⟩ := mem_imported hmem
      exact ⟨rfl, rfl⟩
    · intro submission hmem
      obtain ⟨old, _, rfl⟩ := mem_imported hmem
      rfl
    · exact List.map_map
    · intro row hrow hlowest
      exact mem_normalizeProfileVersions legacy.profiles_id hrow hlowest
    · intro application happlication hrefers row hrow hid
      obtain ⟨other, hother, rfl⟩ := mem_applications_upgrade hrow
      rw [id_upgradedRow] at hid
      have hsame : other = application :=
        List.inj_on_of_nodup_map legacy.applications_id hother happlication hid
      subst hsame
      exact upgradedRow_duplicated legacy.applications_id legacy.profiles_id happlication hrefers
    · intro row hrow submission hmem hid hreached
      obtain ⟨application, happlication, rfl⟩ := mem_applications_upgrade hrow
      exact upgradedRow_withheld legacy.profiles_id (hkept application happlication) hmem
        (hid.trans (id_upgradedRow _ _)) hreached

/-- One application: the operator confirmed its first attempt, a second attempt stopped
at an expired session. -/
def confirmedThenFailed : LegacyDatabase where
  jobs := [{ id := 1, status := .failed }]
  applications := [{
    id := 1, jobId := 1, status := .failed, approvedAt := none, approvalSource := none,
    needsReviewReason := none, updatedAt := 20, profileVersion := none }]
  submissions := [
    { id := 1, applicationId := 1, attemptNumber := 1, submitterName := "greenhouse",
      status := .success, reasonCode := some "OPERATOR_CONFIRMED_SUBMITTED",
      selectedCvId := none, profileVersion := none, submittedAt := some 5, createdAt := 1,
      finishedAt := some 5 },
    { id := 2, applicationId := 1, attemptNumber := 2, submitterName := "greenhouse",
      status := .failed, reasonCode := some "SESSION_EXPIRED", selectedCvId := none,
      profileVersion := none, submittedAt := none, createdAt := 10, finishedAt := some 12 }]
  profiles := []
  jobs_id := by decide
  applications_id := by decide
  applications_job_id := by decide
  applications_job := by decide
  submissions_id := by decide
  submissions_attempt := by decide
  submissions_application := by decide
  profiles_id := by decide

/-- A later failure hides the confirmed submission. -/
theorem confirmation_outrun :
    ¬Truthful confirmedThenFailed.toLegacyContent
      (upgrade confirmedThenFailed.toLegacyContent) := by
  intro htruthful
  have hstatus : ∀ row ∈ (upgrade confirmedThenFailed.toLegacyContent).applications,
      row.id = 1 ∧ row.status = .failed := by decide
  have hattempt : ∃ submission ∈ (upgrade confirmedThenFailed.toLegacyContent).submissions,
      submission.applicationId = 1 ∧ submission.outcome = some .operatorConfirmed := by decide
  obtain ⟨submission, hmem, hid, houtcome⟩ := hattempt
  obtain ⟨row, hrow⟩ := List.exists_mem_of_ne_nil
    (upgrade confirmedThenFailed.toLegacyContent).applications (by decide)
  have hwithheld := htruthful.reached_withheld row hrow submission hmem
    (hid.trans (hstatus row hrow).1.symm) (.inr (.inr houtcome))
  rw [(hstatus row hrow).2] at hwithheld
  simp at hwithheld

end JobApplyAgent.Migration
