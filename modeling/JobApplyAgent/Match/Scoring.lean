import JobApplyAgent.Library.Text
import Mathlib.Data.Finset.Card
import Mathlib.Tactic.Linarith

/-!
# Job scores

The score of a job for a profile, over exact weights.  Names match when one contains the other,
and every name contains the empty one: a job without a title, a location or a company matches
whatever the profile names there.
-/

namespace JobApplyAgent.Match

inductive Action where
  | skip
  | draft
  | autoApply
  deriving DecidableEq

/-- How far an action goes. -/
def Action.rank : Action → ℕ
  | .skip => 0
  | .draft => 1
  | .autoApply => 2

/-- What scoring reads of a posting. -/
structure JobData where
  title : List Char
  company : List Char
  location : List Char
  employmentType : List Char
  seniority : List Char
  description : List Char
  requirements : List Char

/-- What scoring reads of the preferences of a profile. -/
structure Preferences where
  roles : List (List Char)
  locations : List (List Char)
  remoteOk : Bool
  keywords : List (List Char)
  blacklistCompanies : List (List Char)
  seniority : List (List Char)

def titleWeight : ℚ := 25
def keywordWeight : ℚ := 25
def locationWeight : ℚ := 20
def seniorityWeight : ℚ := 15
def employmentWeight : ℚ := 10
def skipThreshold : ℚ := 20

structure ScoreBreakdown where
  titleScore : ℚ
  keywordScore : ℚ
  locationScore : ℚ
  seniorityScore : ℚ
  employmentScore : ℚ
  salaryBonus : ℚ
  blacklistPenalty : ℚ
  total : ℚ
  action : Action
  skipReason : Option (List Char)

def ScoreBreakdown.computeTotal (breakdown : ScoreBreakdown) : ScoreBreakdown :=
  { breakdown with
    total := max 0 (min 100 (breakdown.titleScore + breakdown.keywordScore
      + breakdown.locationScore + breakdown.seniorityScore + breakdown.employmentScore
      + breakdown.salaryBonus - breakdown.blacklistPenalty)) }

def emptyBreakdown : ScoreBreakdown :=
  ⟨0, 0, 0, 0, 0, 0, 0, 0, .draft, none⟩

/-- `first in second or second in first`. -/
def Contains (first second : List Char) : Prop :=
  first <:+: second ∨ second <:+: first

instance (first second : List Char) : Decidable (Contains first second) :=
  inferInstanceAs (Decidable (first <:+: second ∨ second <:+: first))

/-- `[a-z0-9#+.]`. -/
def tokenCharacter (character : Char) : Bool :=
  character.isLower || character.isDigit || decide (character ∈ ['#', '+', '.'])

section Scoring

variable (lower : List Char → List Char)

def tokenize (text : List Char) : Finset (List Char) :=
  (((lower text).splitOnP fun character => !tokenCharacter character).filter (· ≠ [])).toFinset

/-- The loop over the roles, with the best match so far. -/
def bestTitleMatch (titleLower : List Char) (best : ℚ) : List (List Char) → ℚ
  | [] => best
  | role :: roles =>
    let roleLower := lower role
    if Contains roleLower titleLower then 1
    else
      let roleWords := tokenize lower roleLower
      let titleWords := tokenize lower titleLower
      if roleWords.Nonempty ∧ titleWords.Nonempty then
        bestTitleMatch titleLower
          (max best ((roleWords ∩ titleWords).card / roleWords.card)) roles
      else bestTitleMatch titleLower best roles

def scoreTitle (job : JobData) (preferences : Preferences) : ℚ :=
  if preferences.roles = [] then titleWeight * (1 / 2)
  else titleWeight * bestTitleMatch lower (lower job.title) 0 preferences.roles

def keywordSet (preferences : Preferences) : Finset (List Char) :=
  (preferences.keywords.map lower).toFinset

def scoreKeywords (job : JobData) (preferences : Preferences) : ℚ :=
  if preferences.keywords = [] then keywordWeight * (1 / 2)
  else
    let jobText := lower (job.title ++ ' ' :: job.description ++ ' ' :: job.requirements)
    let keywords := keywordSet lower preferences
    if keywords = ∅ then keywordWeight * (1 / 2)
    else
      let found := (keywords ∩ tokenize lower jobText).card
      keywordWeight * min 1 (found / (max 1 keywords.card : ℕ))

/-- The loop over the preferred locations. -/
def namesLocation (jobLocation : List Char) (locations : List (List Char)) : Bool :=
  locations.any fun preferred =>
    lower preferred != "remote".toList && decide (Contains (lower preferred) jobLocation)

def scoreLocation (job : JobData) (preferences : Preferences) : ℚ :=
  if preferences.locations = [] then locationWeight * (1 / 2)
  else if "remote".toList <:+: lower job.location then
    if preferences.remoteOk then locationWeight else locationWeight * (3 / 10)
  else if namesLocation lower (lower job.location) preferences.locations then locationWeight
  else 0

def scoreSeniority (job : JobData) (preferences : Preferences) : ℚ :=
  if preferences.seniority = [] ∨ job.seniority = [] then seniorityWeight * (1 / 2)
  else if lower job.seniority ∈ preferences.seniority.map lower then seniorityWeight
  else seniorityWeight * (2 / 10)

def scoreEmployment (job : JobData) : ℚ :=
  let employment := lower job.employmentType
  if job.employmentType = [] then employmentWeight * (1 / 2)
  else if "full-time".toList <:+: employment ∨ "full time".toList <:+: employment then
    employmentWeight
  else if "contract".toList <:+: employment then employmentWeight * (1 / 2)
  else if "internship".toList <:+: employment then employmentWeight * (3 / 10)
  else employmentWeight * (1 / 2)

def checkBlacklist (job : JobData) (preferences : Preferences) : Option (List Char) :=
  if preferences.blacklistCompanies.any fun entry =>
      decide (Contains (lower entry) (lower job.company)) then
    some ("Company '".toList ++ job.company ++ "' is blacklisted".toList)
  else none

def scoreJob (job : JobData) (preferences : Preferences) : ScoreBreakdown :=
  match checkBlacklist lower job preferences with
  | some reason =>
    { emptyBreakdown with
      blacklistPenalty := 100, skipReason := some reason, action := .skip }.computeTotal
  | none =>
    { emptyBreakdown with
      titleScore := scoreTitle lower job preferences
      keywordScore := scoreKeywords lower job preferences
      locationScore := scoreLocation lower job preferences
      seniorityScore := scoreSeniority lower job preferences
      employmentScore := scoreEmployment lower job }.computeTotal

end Scoring

def decideAction (score : ℚ) (autoApplyEnabled draftOnly : Bool) (skipReason : Option (List Char))
    (threshold : ℚ) (minApplyScore : Option ℚ) : Action :=
  if skipReason.any (· ≠ []) then .skip
  else if score < skipThreshold then .skip
  else if draftOnly then .draft
  else if autoApplyEnabled && decide (minApplyScore.getD threshold ≤ score) then .autoApply
  else .draft

/-! ### One role, and the best of several -/

variable {lower : List Char → List Char} {preferences : Preferences} {job : JobData}

/-- What one role alone is worth. -/
def roleMatch (lower : List Char → List Char) (titleLower role : List Char) : ℚ :=
  if Contains (lower role) titleLower then 1
  else if (tokenize lower (lower role)).Nonempty ∧ (tokenize lower titleLower).Nonempty then
    (tokenize lower (lower role) ∩ tokenize lower titleLower).card
      / (tokenize lower (lower role)).card
  else 0

theorem roleMatch_mem (titleLower role : List Char) :
    0 ≤ roleMatch lower titleLower role ∧ roleMatch lower titleLower role ≤ 1 := by
  unfold roleMatch
  split
  · exact ⟨zero_le_one, le_rfl⟩
  split
  · refine ⟨div_nonneg (Nat.cast_nonneg _) (Nat.cast_nonneg _),
      div_le_one_of_le₀ ?_ (Nat.cast_nonneg _)⟩
    exact_mod_cast Finset.card_le_card Finset.inter_subset_left
  · exact ⟨le_rfl, zero_le_one⟩

/-- The loop computes the least upper bound of the roles' matches. -/
theorem bestTitleMatch_le_iff (hbest : 0 ≤ best) (hone : best ≤ 1) :
    bestTitleMatch lower titleLower best roles ≤ bound ↔
      best ≤ bound ∧ ∀ role ∈ roles, roleMatch lower titleLower role ≤ bound := by
  induction roles generalizing best with
  | nil => simp [bestTitleMatch]
  | cons role roles ih =>
    have hrole : 0 ≤ roleMatch lower titleLower role ∧ roleMatch lower titleLower role ≤ 1 :=
      roleMatch_mem titleLower role
    rw [List.forall_mem_cons, bestTitleMatch]
    by_cases hcontains : Contains (lower role) titleLower
    · -- the loop ends here, at the largest value any role can reach
      have hvalue : roleMatch lower titleLower role = 1 := if_pos hcontains
      rw [if_pos hcontains, hvalue]
      refine ⟨fun hle => ⟨hone.trans hle, hle, fun later _ => ?_⟩, fun hall => hall.2.1⟩
      exact (roleMatch_mem titleLower later).2.trans hle
    rw [if_neg hcontains]
    by_cases hwords : (tokenize lower (lower role)).Nonempty ∧ (tokenize lower titleLower).Nonempty
    · have hvalue : roleMatch lower titleLower role =
          (tokenize lower (lower role) ∩ tokenize lower titleLower).card
            / (tokenize lower (lower role)).card := by
        rw [roleMatch, if_neg hcontains, if_pos hwords]
      rw [if_pos hwords, ← hvalue, ih (hbest.trans (le_max_left _ _)) (max_le hone hrole.2),
        max_le_iff, and_assoc]
    · have hvalue : roleMatch lower titleLower role = 0 := by
        rw [roleMatch, if_neg hcontains, if_neg hwords]
      rw [if_neg hwords, ih hbest hone, hvalue]
      exact ⟨fun hall => ⟨hall.1, hbest.trans hall.1, hall.2⟩, fun hall => ⟨hall.1, hall.2.2⟩⟩

theorem bestTitleMatch_mono (hmore : roles.map lower ⊆ more.map lower) :
    bestTitleMatch lower titleLower 0 roles ≤ bestTitleMatch lower titleLower 0 more := by
  have hbound : 0 ≤ bestTitleMatch lower titleLower 0 more ∧ ∀ role ∈ more,
      roleMatch lower titleLower role ≤ bestTitleMatch lower titleLower 0 more :=
    (bestTitleMatch_le_iff le_rfl zero_le_one).1 le_rfl
  refine (bestTitleMatch_le_iff le_rfl zero_le_one).2 ⟨hbound.1, fun role hrole => ?_⟩
  obtain ⟨same, hsame, hlower⟩ := List.mem_map.1 (hmore (List.mem_map_of_mem hrole))
  have hvalue : roleMatch lower titleLower role = roleMatch lower titleLower same := by
    simp only [roleMatch, hlower]
  exact hvalue.trans_le (hbound.2 same hsame)

/-! ### One factor each -/

theorem scoreTitle_mono (hroles : preferences.roles ≠ [])
    (hmore : preferences.roles.map lower ⊆ roles.map lower) :
    scoreTitle lower job preferences ≤ scoreTitle lower job
      { preferences with roles := roles } := by
  have hother : roles ≠ [] := by
    rintro rfl
    simp [hroles] at hmore
  rw [scoreTitle, scoreTitle, if_neg hroles, if_neg hother]
  exact mul_le_mul_of_nonneg_left (bestTitleMatch_mono hmore) (by norm_num [titleWeight])

theorem namesLocation_iff :
    namesLocation lower jobLocation locations = true ↔
      ∃ name ∈ locations.map lower, name ≠ "remote".toList ∧ Contains name jobLocation := by
  simp [namesLocation]

theorem scoreLocation_mono (hlocations : preferences.locations ≠ [])
    (hmore : preferences.locations.map lower ⊆ locations.map lower) :
    scoreLocation lower job preferences ≤
      scoreLocation lower job { preferences with locations := locations } := by
  have hother : locations ≠ [] := by
    rintro rfl
    simp [hlocations] at hmore
  simp only [scoreLocation, if_neg hlocations, if_neg hother]
  split
  · exact le_rfl
  split
  next hnames =>
    obtain ⟨name, hname, hnamed⟩ := namesLocation_iff.1 hnames
    rw [if_pos (namesLocation_iff.2 ⟨name, hmore hname, hnamed⟩)]
  next =>
    split <;> norm_num [locationWeight]

theorem scoreSeniority_mono (hseniority : preferences.seniority ≠ [])
    (hmore : preferences.seniority.map lower ⊆ seniority.map lower) :
    scoreSeniority lower job preferences ≤
      scoreSeniority lower job { preferences with seniority := seniority } := by
  have hother : seniority ≠ [] := by
    rintro rfl
    simp [hseniority] at hmore
  simp only [scoreSeniority, hseniority, hother, false_or]
  split
  · exact le_rfl
  split
  next hnamed => rw [if_pos (hmore hnamed)]
  next => split <;> norm_num [seniorityWeight]

theorem checkBlacklist_isSome :
    (checkBlacklist lower job preferences).isSome = true ↔
      ∃ name ∈ preferences.blacklistCompanies.map lower, Contains name (lower job.company) := by
  rw [checkBlacklist]
  split <;> simp_all

/-! ### The total -/

theorem scoreJob_blacklisted (hreason : checkBlacklist lower job preferences = some reason) :
    (scoreJob lower job preferences).skipReason = some reason ∧
      (scoreJob lower job preferences).total = 0 := by
  simp [scoreJob, hreason, ScoreBreakdown.computeTotal, emptyBreakdown]

theorem scoreJob_skipReason :
    (scoreJob lower job preferences).skipReason = checkBlacklist lower job preferences := by
  rw [scoreJob]
  split <;> simp_all [ScoreBreakdown.computeTotal, emptyBreakdown]

theorem scoreJob_total_mem :
    0 ≤ (scoreJob lower job preferences).total ∧ (scoreJob lower job preferences).total ≤ 100 := by
  rw [scoreJob]
  split <;> exact ⟨le_max_left _ _, max_le (by norm_num) (min_le_left _ _)⟩

/-- The total grows with its parts. -/
theorem scoreJob_total_mono (hblacklist : other.blacklistCompanies = preferences.blacklistCompanies)
    (htitle : scoreTitle lower job preferences ≤ scoreTitle lower job other)
    (hkeywords : scoreKeywords lower job preferences = scoreKeywords lower job other)
    (hlocation : scoreLocation lower job preferences ≤ scoreLocation lower job other)
    (hseniority : scoreSeniority lower job preferences ≤ scoreSeniority lower job other) :
    (scoreJob lower job preferences).total ≤ (scoreJob lower job other).total := by
  have hcheck : checkBlacklist lower job other = checkBlacklist lower job preferences := by
    rw [checkBlacklist, checkBlacklist, hblacklist]
  cases hreason : checkBlacklist lower job preferences with
  | some reason =>
    rw [(scoreJob_blacklisted hreason).2, (scoreJob_blacklisted (hcheck.trans hreason)).2]
  | none =>
    simp only [scoreJob, hcheck, hreason, ScoreBreakdown.computeTotal, emptyBreakdown]
    exact max_le_max le_rfl (min_le_min le_rfl (by linarith))

/-- The preferences name the same things, in any order and spelling. -/
structure SameNames (lower : List Char → List Char) (preferences other : Preferences) : Prop where
  roles : ∀ name, name ∈ other.roles.map lower ↔ name ∈ preferences.roles.map lower
  locations : ∀ name, name ∈ other.locations.map lower ↔ name ∈ preferences.locations.map lower
  remoteOk : other.remoteOk = preferences.remoteOk
  keywords : ∀ name, name ∈ other.keywords.map lower ↔ name ∈ preferences.keywords.map lower
  blacklist : ∀ name, name ∈ other.blacklistCompanies.map lower ↔
    name ∈ preferences.blacklistCompanies.map lower
  seniority : ∀ name, name ∈ other.seniority.map lower ↔ name ∈ preferences.seniority.map lower

theorem eq_nil_of_same (hsame : ∀ name, name ∈ others.map lower ↔ name ∈ names.map lower) :
    others = [] ↔ names = [] := by
  rw [← List.map_eq_nil_iff (f := lower), ← List.map_eq_nil_iff (f := lower) (l := names),
    List.eq_nil_iff_forall_not_mem, List.eq_nil_iff_forall_not_mem]
  exact forall_congr' fun name => not_congr (hsame name)

section

variable (hsame : SameNames lower preferences other)
include hsame

theorem scoreTitle_congr :
    scoreTitle lower job other = scoreTitle lower job preferences := by
  simp only [scoreTitle, eq_nil_of_same hsame.roles]
  split
  · rfl
  rw [le_antisymm (bestTitleMatch_mono fun name => (hsame.roles name).1)
    (bestTitleMatch_mono fun name => (hsame.roles name).2)]

theorem scoreKeywords_congr :
    scoreKeywords lower job other = scoreKeywords lower job preferences := by
  have hset : keywordSet lower other = keywordSet lower preferences := by
    ext name
    rw [keywordSet, keywordSet, List.mem_toFinset, List.mem_toFinset, hsame.keywords]
  simp only [scoreKeywords, eq_nil_of_same hsame.keywords, hset]

theorem scoreLocation_congr :
    scoreLocation lower job other = scoreLocation lower job preferences := by
  have hnames : namesLocation lower (lower job.location) other.locations =
      namesLocation lower (lower job.location) preferences.locations := by
    rw [Bool.eq_iff_iff, namesLocation_iff, namesLocation_iff]
    simp only [hsame.locations]
  simp only [scoreLocation, eq_nil_of_same hsame.locations, hsame.remoteOk, hnames]

theorem scoreSeniority_congr :
    scoreSeniority lower job other = scoreSeniority lower job preferences := by
  simp only [scoreSeniority, eq_nil_of_same hsame.seniority, hsame.seniority]

theorem checkBlacklist_congr :
    checkBlacklist lower job other = checkBlacklist lower job preferences := by
  have hlisted : (checkBlacklist lower job other).isSome =
      (checkBlacklist lower job preferences).isSome := by
    rw [Bool.eq_iff_iff, checkBlacklist_isSome, checkBlacklist_isSome]
    simp only [hsame.blacklist]
  -- a reason names the company of the posting, not the entry that matched
  simp only [checkBlacklist] at hlisted ⊢
  split <;> split <;> simp_all

theorem scoreJob_congr :
    scoreJob lower job other = scoreJob lower job preferences := by
  rw [scoreJob, scoreJob, checkBlacklist_congr hsame, scoreTitle_congr hsame,
    scoreKeywords_congr hsame, scoreLocation_congr hsame, scoreSeniority_congr hsame]

end

/-! ### What the scores promise -/

/-- What is expected of scoring one posting for one set of preferences. -/
structure ScoringLaws (lower : List Char → List Char) (preferences : Preferences)
    (job : JobData) : Prop where
  total_nonneg : 0 ≤ (scoreJob lower job preferences).total
  total_le : (scoreJob lower job preferences).total ≤ 100
  blacklisted : (scoreJob lower job preferences).skipReason ≠ none → job.company ≠ [] ∧
    ∃ entry ∈ preferences.blacklistCompanies, entry ≠ [] ∧
      Contains (lower entry) (lower job.company)
  no_title : scoreTitle lower { job with title := [] } preferences ≤ titleWeight / 2
  no_location : scoreLocation lower { job with location := [] } preferences ≤ locationWeight / 2
  no_seniority : scoreSeniority lower { job with seniority := [] } preferences ≤ seniorityWeight / 2
  no_employment : scoreEmployment lower { job with employmentType := [] } ≤ employmentWeight / 2
  no_company : (scoreJob lower job preferences).skipReason = none →
    (scoreJob lower { job with company := [] } preferences).skipReason = none
  more_roles : ∀ roles, preferences.roles ≠ [] → preferences.roles ⊆ roles →
    (scoreJob lower job preferences).total ≤
      (scoreJob lower job { preferences with roles := roles }).total
  more_locations : ∀ locations, preferences.locations ≠ [] → preferences.locations ⊆ locations →
    (scoreJob lower job preferences).total ≤
      (scoreJob lower job { preferences with locations := locations }).total
  more_seniority : ∀ seniority, preferences.seniority ≠ [] → preferences.seniority ⊆ seniority →
    (scoreJob lower job preferences).total ≤
      (scoreJob lower job { preferences with seniority := seniority }).total
  more_blacklisted : ∀ entries, preferences.blacklistCompanies ⊆ entries →
    (scoreJob lower job preferences).skipReason ≠ none →
      (scoreJob lower job { preferences with blacklistCompanies := entries }).skipReason ≠ none
  more_skipped : ∀ entries autoApplyEnabled draftOnly threshold minApplyScore,
    preferences.blacklistCompanies ⊆ entries →
    decideAction (scoreJob lower job preferences).total autoApplyEnabled draftOnly
      (scoreJob lower job preferences).skipReason threshold minApplyScore = .skip →
    let listed := scoreJob lower job { preferences with blacklistCompanies := entries }
    decideAction listed.total autoApplyEnabled draftOnly listed.skipReason threshold
      minApplyScore = .skip
  same_names : ∀ other, SameNames lower preferences other →
    scoreJob lower job other = scoreJob lower job preferences
  action_mono : ∀ score higher autoApplyEnabled draftOnly skipReason threshold minApplyScore,
    score ≤ higher →
      (decideAction score autoApplyEnabled draftOnly skipReason threshold minApplyScore).rank ≤
        (decideAction higher autoApplyEnabled draftOnly skipReason threshold minApplyScore).rank

theorem decideAction_mono (hscore : score ≤ higher) :
    (decideAction score autoApplyEnabled draftOnly skipReason threshold minApplyScore).rank ≤
      (decideAction higher autoApplyEnabled draftOnly skipReason threshold minApplyScore).rank := by
  unfold decideAction
  by_cases hreason : skipReason.any (· ≠ [])
  · rw [if_pos hreason, if_pos hreason]
  rw [if_neg hreason, if_neg hreason]
  by_cases hlow : score < skipThreshold
  · rw [if_pos hlow]
    exact Nat.zero_le _
  rw [if_neg hlow, if_neg (not_lt.2 ((not_lt.1 hlow).trans hscore))]
  cases draftOnly with
  | true => exact le_rfl
  | false =>
    cases autoApplyEnabled with
    | false => exact le_rfl
    | true =>
      by_cases hgate : minApplyScore.getD threshold ≤ score
      · simp [hgate, hgate.trans hscore]
      · rw [if_neg Bool.false_ne_true, if_neg (by simpa using hgate), if_neg Bool.false_ne_true]
        split <;> decide

theorem checkBlacklist_ne_none (hmore : preferences.blacklistCompanies ⊆ entries)
    (hlisted : checkBlacklist lower job preferences ≠ none) :
    checkBlacklist lower job { preferences with blacklistCompanies := entries } ≠ none := by
  rw [← Option.isSome_iff_ne_none, checkBlacklist_isSome] at hlisted ⊢
  obtain ⟨name, hname, hshared⟩ := hlisted
  exact ⟨name, List.map_subset lower hmore hname, hshared⟩

theorem decideAction_checkBlacklist (hlisted : checkBlacklist lower job preferences ≠ none) :
    decideAction score autoApplyEnabled draftOnly (checkBlacklist lower job preferences) threshold
      minApplyScore = .skip := by
  have hreason : (checkBlacklist lower job preferences).any (· ≠ []) = true := by
    unfold checkBlacklist at hlisted ⊢
    split <;> simp_all
  rw [decideAction, if_pos hreason]

theorem decideAction_more_blacklisted (hmore : preferences.blacklistCompanies ⊆ entries)
    (hskip : decideAction (scoreJob lower job preferences).total autoApplyEnabled draftOnly
      (scoreJob lower job preferences).skipReason threshold minApplyScore = .skip) :
    let listed := scoreJob lower job { preferences with blacklistCompanies := entries }
    decideAction listed.total autoApplyEnabled draftOnly listed.skipReason threshold
      minApplyScore = .skip := by
  intro listed
  rw [scoreJob_skipReason] at hskip
  rw [show listed.skipReason = _ from scoreJob_skipReason]
  by_cases hafter : checkBlacklist lower job
      { preferences with blacklistCompanies := entries } = none
  · -- kept by the longer list, and so by the shorter one: the two runs are the same
    have hbefore : checkBlacklist lower job preferences = none := by
      by_contra hlisted
      exact checkBlacklist_ne_none hmore hlisted hafter
    have hsame : listed = scoreJob lower job preferences := by
      simp only [listed, scoreJob, hafter, hbefore]
      rfl
    rw [hsame, hafter]
    rwa [hbefore] at hskip
  · exact decideAction_checkBlacklist hafter

section

variable (hlower : lower [] = [])
include hlower

/-- Everything matches what is missing. -/
theorem contains_missing :
    Contains text (lower []) := by
  rw [hlower]
  exact .inr List.nil_infix

theorem scoreTitle_no_title_iff :
    scoreTitle lower { job with title := [] } preferences ≤ titleWeight / 2 ↔
      preferences.roles = [] := by
  cases hroles : preferences.roles with
  | nil => simp [scoreTitle, hroles, div_eq_mul_inv]
  | cons role roles =>
    simp only [scoreTitle, hroles, bestTitleMatch, if_pos (contains_missing hlower),
      reduceCtorEq, if_false]
    norm_num [titleWeight]

theorem scoreLocation_no_location_iff :
    scoreLocation lower { job with location := [] } preferences ≤ locationWeight / 2 ↔
      ∀ name ∈ preferences.locations, lower name = "remote".toList := by
  by_cases hnone : preferences.locations = []
  · simp [scoreLocation, hnone, div_eq_mul_inv]
  have hremote : ¬"remote".toList <:+: lower [] := by
    rw [hlower, List.infix_nil]
    simp
  simp only [scoreLocation, if_neg hnone, if_neg hremote]
  split
  next hnames =>
    obtain ⟨name, hname, hother, -⟩ := namesLocation_iff.1 hnames
    obtain ⟨place, hplace, rfl⟩ := List.mem_map.1 hname
    refine iff_of_false (by norm_num [locationWeight]) fun hall => hother (hall place hplace)
  next hnames =>
    refine iff_of_true (by norm_num [locationWeight]) fun place hplace => ?_
    by_contra hother
    exact hnames (namesLocation_iff.2
      ⟨lower place, List.mem_map_of_mem hplace, hother, contains_missing hlower⟩)

/-- A posting without a company is skipped as soon as anybody is blacklisted. -/
theorem checkBlacklist_no_company_iff :
    checkBlacklist lower { job with company := [] } preferences = none ↔
      preferences.blacklistCompanies = [] := by
  cases hentries : preferences.blacklistCompanies with
  | nil => simp [checkBlacklist, hentries]
  | cons entry entries =>
    simp [checkBlacklist, hentries, contains_missing hlower]

end

/-- Scoring keeps its promises exactly where a missing title, location or company has nothing to
match: the profile names no role and no place but remote ones, and either blacklists nobody or
the posting names a company that a nonempty entry matches. -/
theorem scoringLaws_iff (hlower : lower [] = []) :
    ScoringLaws lower preferences job ↔
      preferences.roles = [] ∧
      (∀ name ∈ preferences.locations, lower name = "remote".toList) ∧
      (preferences.blacklistCompanies = [] ∨ job.company ≠ [] ∧
        ∃ entry ∈ preferences.blacklistCompanies, entry ≠ [] ∧
          Contains (lower entry) (lower job.company)) := by
  constructor
  · intro hlaws
    refine ⟨(scoreTitle_no_title_iff hlower).1 hlaws.no_title,
      (scoreLocation_no_location_iff hlower).1 hlaws.no_location, ?_⟩
    by_cases hskip : (scoreJob lower job preferences).skipReason = none
    · have hmissing := hlaws.no_company hskip
      rw [scoreJob_skipReason] at hmissing
      exact .inl ((checkBlacklist_no_company_iff hlower).1 hmissing)
    · exact .inr (hlaws.blacklisted hskip)
  · rintro ⟨hroles, hlocations, hblacklist⟩
    have hkept : preferences.blacklistCompanies = [] → ∀ posting,
        (scoreJob lower posting preferences).skipReason = none := by
      intro hnobody posting
      rw [scoreJob_skipReason]
      simp [checkBlacklist, hnobody]
    exact {
      total_nonneg := scoreJob_total_mem.1
      total_le := scoreJob_total_mem.2
      blacklisted := fun hskip => hblacklist.resolve_left fun hnobody => hskip (hkept hnobody job)
      no_title := (scoreTitle_no_title_iff hlower).2 hroles
      no_location := (scoreLocation_no_location_iff hlower).2 hlocations
      no_seniority := by simp [scoreSeniority, div_eq_mul_inv]
      no_employment := by simp [scoreEmployment, div_eq_mul_inv]
      no_company := by
        intro hskip
        rcases hblacklist with hnobody | ⟨-, entry, hentry, -, hshared⟩
        · exact hkept hnobody _
        -- the posting is skipped already
        rw [scoreJob_skipReason] at hskip
        have hlisted := checkBlacklist_isSome.2
          ⟨lower entry, List.mem_map_of_mem hentry, hshared⟩
        simp [hskip] at hlisted
      more_roles := fun roles hnonempty hmore => scoreJob_total_mono rfl
        (scoreTitle_mono hnonempty (List.map_subset lower hmore)) rfl le_rfl le_rfl
      more_locations := fun locations hnonempty hmore => scoreJob_total_mono rfl le_rfl rfl
        (scoreLocation_mono hnonempty (List.map_subset lower hmore)) le_rfl
      more_seniority := fun seniority hnonempty hmore => scoreJob_total_mono rfl le_rfl rfl le_rfl
        (scoreSeniority_mono hnonempty (List.map_subset lower hmore))
      more_blacklisted := by
        intro entries hmore hskip
        rw [scoreJob_skipReason] at hskip ⊢
        exact checkBlacklist_ne_none hmore hskip
      more_skipped := fun entries _ _ _ _ hmore => decideAction_more_blacklisted hmore
      same_names := fun other hsame => scoreJob_congr hsame
      action_mono := fun _ _ _ _ _ _ _ hscore => decideAction_mono hscore }

/-- A profile after remote work in a full-time post. -/
def remoteSeeker : Preferences :=
  ⟨[], ["Remote".toList], true, ["python".toList], ["Acme".toList], []⟩

def acmePosting : JobData :=
  ⟨"Engineer".toList, "Acme Labs".toList, "".toList, "".toList, "".toList, "".toList, "".toList⟩

theorem scoringLaws_remoteSeeker :
    ScoringLaws (List.map Char.toLower) remoteSeeker acmePosting :=
  (scoringLaws_iff rfl).2
    ⟨rfl, by decide, .inr ⟨by decide, "Acme".toList, by decide, by decide, by decide⟩⟩

/-- A posting without a company is skipped as if its company were blacklisted. -/
theorem unnamed_company_skipped :
    (scoreJob (List.map Char.toLower) { acmePosting with company := [] } remoteSeeker).action
        = .skip ∧
      ¬ScoringLaws (List.map Char.toLower) remoteSeeker { acmePosting with company := [] } := by
  refine ⟨by decide +kernel, fun hlaws => ?_⟩
  exact absurd rfl (hlaws.blacklisted (by decide +kernel)).1

end JobApplyAgent.Match
