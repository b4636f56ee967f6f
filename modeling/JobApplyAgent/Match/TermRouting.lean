import JobApplyAgent.Match.CvRouting
import JobApplyAgent.Match.Scoring
import Mathlib.Data.Finset.Sort
import Mathlib.Data.List.MinMax
import Mathlib.Data.Prod.Lex
import Mathlib.Data.String.Basic

/-!
# CV selection by terms

The CV whose terms cover most of a job, unless an override names one.  The required skills are
compared as they are written with the words of the skills that a CV lists, so a required skill
of several words, or of one character, is covered by no CV, while other words of the
description count in its place.
-/

namespace JobApplyAgent.Match.Terms

structure CVDefinition where
  id : String
  file : String
  titleTerms : List (List Char)
  skills : List (List Char)
  seniority : List (List Char)

structure RoutingOverride where
  cvId : String
  titleContains : List (List Char)
  descriptionContains : List (List Char)
  seniority : List (List Char)

/-- A configuration with unique ids and no reference to another. -/
structure CVRoutingConfig where
  cvs : List CVDefinition
  overrides : List RoutingOverride
  minimumConfidence : ℚ
  fallbackCvId : Option String
  idsUnique : (cvs.map CVDefinition.id).Nodup
  overridesKnown : ∀ override ∈ overrides, override.cvId ∈ cvs.map CVDefinition.id
  fallbackKnown : ∀ id ∈ fallbackCvId, id ≠ "" → id ∈ cvs.map CVDefinition.id

structure RoutingJob where
  title : List Char
  description : List Char
  seniority : List Char
  requiredSkills : List (List Char)

/-- What is compared of a CV, and what a decision says of it. -/
structure Ranked where
  confidence : ℚ
  id : String
  file : String
  evidence : List String

/-- CVs are compared by confidence, and by id where it is the same. -/
def Ranked.key (ranked : Ranked) : ℚ ×ₗ String :=
  toLex (ranked.confidence, ranked.id)

def tokens (lower : List Char → List Char) (value : List Char) : Finset (List Char) :=
  (((lower value).splitOnP fun character => !tokenCharacter character).filter fun token =>
    decide (2 ≤ token.length)).toFinset

def tokensOf (lower : List Char → List Char) (terms : List (List Char)) : Finset (List Char) :=
  tokens lower ([' '].intercalate terms)

def lowered (lower : List Char → List Char) (texts : List (List Char)) : Finset (List Char) :=
  (texts.map lower).toFinset

/-- A condition of an override that is left out holds. -/
def namesOne (terms : List (List Char)) (named : List Char → Bool) : Bool :=
  terms.isEmpty || terms.any named

/-- A sorted list of hits behind its name, if there are any. -/
def evidenceOf (name : String) (hits : Finset (List Char)) : List String :=
  if hits.Nonempty then
    [name ++ String.ofList ([','].intercalate (hits.sort (· ≤ ·)))]
  else []

section Routing

variable (lower : List Char → List Char) (blend : ℚ → ℚ → Bool → ℚ) (job : RoutingJob)
  (config : CVRoutingConfig) (cv : CVDefinition)

def overrideMatches (override : RoutingOverride) : Bool :=
  namesOne override.titleContains (fun term => decide (lower term <:+: lower job.title))
    && namesOne override.descriptionContains
      (fun term => decide (lower term <:+: lower job.description))
    && namesOne override.seniority fun level => lower job.seniority == lower level

def titleHits : Finset (List Char) :=
  tokens lower job.title ∩ tokensOf lower cv.titleTerms

def required : Finset (List Char) :=
  lowered lower job.requiredSkills

def skillHits : Finset (List Char) :=
  (tokens lower job.description ∪ required lower job) ∩ tokensOf lower cv.skills

def seniorityHit : Bool :=
  lower job.seniority != [] && cv.seniority.any fun level => lower job.seniority == lower level

/-- A count as a share of another, at most the whole. -/
def share (count total : ℕ) : ℚ :=
  min (count / (max total 1 : ℕ)) 1

def titleScore : ℚ :=
  share (titleHits lower job cv).card (tokensOf lower cv.titleTerms).card

def skillDenominator : ℕ :=
  if required lower job = ∅ then (tokensOf lower cv.skills).card else (required lower job).card

def skillScore : ℚ :=
  share (skillHits lower job cv).card (skillDenominator lower job cv)

/-- `round(0.5 * title_score + 0.4 * skill_score + 0.1 * seniority_hit, 4)` is computed by
`blend`, in floating point. -/
def confidence : ℚ :=
  blend (titleScore lower job cv) (skillScore lower job cv) (seniorityHit lower job cv)

def rank : Ranked where
  confidence := confidence lower blend job cv
  id := cv.id
  file := cv.file
  evidence := evidenceOf "title:" (titleHits lower job cv)
    ++ evidenceOf "skills:" (skillHits lower job cv)
    ++ if seniorityHit lower job cv then
        ["seniority:" ++ String.ofList (lower job.seniority)] else []

/-- `max(ranked)`. -/
def best : Option Ranked :=
  (config.cvs.map (rank lower blend job)).argmax Ranked.key

/-- `next(cv for cv in config.cvs if cv.id == id)`. -/
def CVRoutingConfig.find (id : String) : Option CVDefinition :=
  config.cvs.find? fun cv => cv.id == id

/-- A decision for a CV without a hash, or for none. -/
def decision (selected : Option (String × String)) (confidence : ℚ) (matchedEvidence : List String)
    (fallbackReason : Option String) (overridden : Bool) : RoutingDecision where
  selectedCvId := selected.map Prod.fst
  selectedFile := selected.map Prod.snd
  selectedCvHash := none
  confidence := confidence
  matchedEvidence := matchedEvidence
  fallbackReason := fallbackReason
  overridden := overridden

/-- What comes after no override has matched. -/
def settle : Option RoutingDecision :=
  let chosen := (best lower blend job config).getD ⟨0, "", "", []⟩
  if best lower blend job config ≠ none ∧ config.minimumConfidence ≤ chosen.confidence then
    some (decision (some (chosen.id, chosen.file)) chosen.confidence chosen.evidence none false)
  else
    match config.fallbackCvId.filter (· ≠ "") with
    | some id => (config.find id).map fun fallback =>
      decision (some (fallback.id, fallback.file)) chosen.confidence chosen.evidence
        (some "confidence_below_threshold") false
    | none => some (decision none chosen.confidence chosen.evidence
        (some "abstained_low_confidence") false)

def routeCv : Option RoutingDecision :=
  match config.overrides.find? (overrideMatches lower job) with
  | some override => (config.find override.cvId).map fun cv =>
    decision (some (cv.id, cv.file)) 1 ["ordered_override"] none true
  | none => settle lower blend job config

end Routing

variable {lower : List Char → List Char} {blend : ℚ → ℚ → Bool → ℚ} {job : RoutingJob}
  {config changed : CVRoutingConfig}

/-! ### Tokens -/

/-- A text is lowered one word after the other. -/
structure LowersWords (lower : List Char → List Char) : Prop where
  nothing : lower [] = []
  words : ∀ first second, lower (first ++ ' ' :: second) = lower first ++ ' ' :: lower second

theorem tokens_words (hlower : LowersWords lower) (first second : List Char) :
    tokens lower (first ++ ' ' :: second) = tokens lower first ∪ tokens lower second := by
  rw [tokens, hlower.words, List.splitOnP_append_cons _ _ (by decide), List.filter_append,
    List.toFinset_append]
  rfl

variable {id : String}

theorem mem_tokensOf (hlower : LowersWords lower) {token : List Char} :
    token ∈ tokensOf lower terms ↔ ∃ term ∈ terms, token ∈ tokens lower term := by
  induction terms with
  | nil => simp [tokensOf, tokens, hlower.nothing]
  | cons term terms ih =>
    cases terms with
    | nil => simp [tokensOf]
    | cons next terms =>
      have hjoined : tokensOf lower (term :: next :: terms) =
          tokens lower term ∪ tokensOf lower (next :: terms) := by
        rw [tokensOf, List.intercalate_cons_cons, List.append_assoc]
        exact tokens_words hlower _ _
      rw [hjoined, Finset.mem_union, ih]
      simp

theorem tokensOf_subset (hlower : LowersWords lower) (hmore : terms ⊆ more) :
    tokensOf lower terms ⊆ tokensOf lower more := by
  intro token htoken
  obtain ⟨term, hterm, hfound⟩ := (mem_tokensOf hlower).1 htoken
  exact (mem_tokensOf hlower).2 ⟨term, hmore hterm, hfound⟩

theorem tokensOf_perm (hlower : LowersWords lower) (hperm : terms.Perm more) :
    tokensOf lower more = tokensOf lower terms :=
  (tokensOf_subset hlower hperm.symm.subset).antisymm (tokensOf_subset hlower hperm.subset)

/-! ### Shares -/

theorem share_mono (hmore : count ≤ more) :
    share count total ≤ share more total :=
  min_le_min_right 1 (div_le_div_of_nonneg_right (by exact_mod_cast hmore) (Nat.cast_nonneg _))

theorem share_eq_one_iff : share count total = 1 ↔ max total 1 ≤ count := by
  have hpositive : (0 : ℚ) < (max total 1 : ℕ) :=
    Nat.cast_pos.2 (lt_max_of_lt_right one_pos)
  rw [share, min_eq_right_iff, one_le_div₀ hpositive]
  exact_mod_cast Iff.rfl

/-- The CV covers the job: where skills are required, it lists at least as many other tokens of
the description as required skills that are no token of it, and else some tokens, all of the
description. -/
def Covers (lower : List Char → List Char) (job : RoutingJob) (cv : CVDefinition) : Prop :=
  if required lower job = ∅ then
    (tokensOf lower cv.skills).Nonempty ∧
      tokensOf lower cv.skills ⊆ tokens lower job.description
  else
    (required lower job \ tokensOf lower cv.skills).card ≤
      ((tokens lower job.description ∩ tokensOf lower cv.skills) \ required lower job).card

instance : Decidable (Covers lower job cv) :=
  inferInstanceAs (Decidable (ite _ _ _))

/-- The share of the skills is full exactly where the CV covers the job. -/
theorem skillScore_eq_one_iff : skillScore lower job cv = 1 ↔ Covers lower job cv := by
  rw [skillScore, share_eq_one_iff, skillDenominator, Covers]
  split
  next hnone =>
    rw [skillHits, hnone, Finset.union_empty, max_le_iff, Nat.succ_le_iff, Finset.card_pos]
    constructor
    · rintro ⟨hcard, hsome⟩
      have hall := Finset.eq_of_subset_of_card_le Finset.inter_subset_right hcard
      exact ⟨hsome.mono Finset.inter_subset_right, hall ▸ Finset.inter_subset_left⟩
    · rintro ⟨hsome, hall⟩
      rw [Finset.inter_eq_right.2 hall]
      exact ⟨le_rfl, hsome⟩
  next hsome =>
    have hpositive := Finset.card_pos.2 (Finset.nonempty_iff_ne_empty.2 hsome)
    rw [max_eq_left (Nat.succ_le_of_lt hpositive), ← Finset.card_sdiff_le_card_sdiff_iff]
    -- both sides compare the required skills with the hits, without what they share
    have hmissed : required lower job \ skillHits lower job cv =
        required lower job \ tokensOf lower cv.skills := by
      ext token
      simp only [skillHits, Finset.mem_sdiff, Finset.mem_inter, Finset.mem_union]
      tauto
    have hextra : skillHits lower job cv \ required lower job =
        (tokens lower job.description ∩ tokensOf lower cv.skills) \ required lower job := by
      ext token
      simp only [skillHits, Finset.mem_sdiff, Finset.mem_inter, Finset.mem_union]
      tauto
    rw [hmissed, hextra]

theorem confidence_add_skill (hlower : LowersWords lower)
    (hblend : ∀ title hit, Monotone fun skill => blend title skill hit)
    (hskill : skill ∈ job.requiredSkills)
    (hperm : (skill :: cv.skills).Perm skills) :
    confidence lower blend job cv ≤ confidence lower blend job { cv with skills := skills } := by
  refine hblend _ _ ?_
  have hsome : required lower job ≠ ∅ :=
    Finset.ne_empty_of_mem (List.mem_toFinset.2 (List.mem_map_of_mem hskill))
  rw [skillScore, skillScore, skillDenominator, skillDenominator, if_neg hsome, if_neg hsome]
  exact share_mono (Finset.card_le_card (Finset.inter_subset_inter_left
    (tokensOf_subset hlower fun _ hterm => hperm.subset (.tail _ hterm))))

/-! ### The order of the terms and of the CVs -/

structure CVDefinition.Reordered (cv same : CVDefinition) : Prop where
  id : same.id = cv.id
  file : same.file = cv.file
  titleTerms : cv.titleTerms.Perm same.titleTerms
  skills : cv.skills.Perm same.skills
  seniority : cv.seniority.Perm same.seniority

structure RoutingJob.Reordered (job other : RoutingJob) : Prop where
  title : other.title = job.title
  description : other.description = job.description
  seniority : other.seniority = job.seniority
  requiredSkills : job.requiredSkills.Perm other.requiredSkills

/-- The same CVs in any order, each with its terms in any order; their ids are unique. -/
structure CVRoutingConfig.Reordered (config changed : CVRoutingConfig) : Prop where
  kept : ∀ cv ∈ config.cvs, ∃ same ∈ changed.cvs, cv.Reordered same
  found : ∀ same ∈ changed.cvs, ∃ cv ∈ config.cvs, cv.Reordered same
  overrides : changed.overrides = config.overrides
  minimumConfidence : changed.minimumConfidence = config.minimumConfidence
  fallbackCvId : changed.fallbackCvId = config.fallbackCvId

theorem rank_reordered (hlower : LowersWords lower) (hjob : job.Reordered other)
    (hcv : cv.Reordered same) : rank lower blend other same = rank lower blend job cv := by
  have hrequired : required lower other = required lower job := by
    rw [required, required, lowered, lowered,
      List.toFinset_eq_of_perm _ _ (hjob.requiredSkills.map lower)]
  have htitle : titleHits lower other same = titleHits lower job cv := by
    rw [titleHits, titleHits, hjob.title, tokensOf_perm hlower hcv.titleTerms]
  have hskills : skillHits lower other same = skillHits lower job cv := by
    rw [skillHits, skillHits, hjob.description, hrequired, tokensOf_perm hlower hcv.skills]
  have hseniority : seniorityHit lower other same = seniorityHit lower job cv := by
    rw [seniorityHit, seniorityHit, hjob.seniority, hcv.seniority.any_eq]
  simp only [rank, confidence, titleScore, skillScore, skillDenominator, htitle, hskills,
    hseniority, hrequired, tokensOf_perm hlower hcv.titleTerms, tokensOf_perm hlower hcv.skills,
    hjob.seniority, hcv.id, hcv.file]

theorem find_eq_some_iff :
    config.find id = some cv ↔ cv ∈ config.cvs ∧ cv.id = id := by
  constructor
  · intro hfind
    exact ⟨List.mem_of_find?_eq_some hfind, by simpa using List.find?_some hfind⟩
  · rintro ⟨hmem, rfl⟩
    cases hfind : config.find cv.id with
    | none => exact absurd (List.find?_eq_none.1 hfind cv hmem) (by simp)
    | some found =>
      have hid : found.id = cv.id := by simpa using List.find?_some hfind
      rw [List.inj_on_of_nodup_map config.idsUnique (List.mem_of_find?_eq_some hfind) hmem hid]

/-- The best CV is ranked before all others. -/
theorem best_eq_some_iff :
    best lower blend job config = some ranked ↔
      (∃ cv ∈ config.cvs, rank lower blend job cv = ranked) ∧
        ∀ cv ∈ config.cvs, (rank lower blend job cv).key ≤ ranked.key := by
  constructor
  · intro hbest
    refine ⟨List.mem_map.1 (List.argmax_mem hbest), fun cv hcv => ?_⟩
    exact List.le_of_mem_argmax (List.mem_map_of_mem hcv) hbest
  · rintro ⟨⟨cv, hcv, rfl⟩, hmost⟩
    cases hbest : best lower blend job config with
    | none =>
      rw [List.map_eq_nil_iff.1 (List.argmax_eq_none.1 hbest)] at hcv
      cases hcv
    | some found =>
      obtain ⟨winner, hwinner, rfl⟩ := List.mem_map.1 (List.argmax_mem hbest)
      have hkey := (hmost winner hwinner).antisymm
        (List.le_of_mem_argmax (List.mem_map_of_mem hcv) hbest)
      have hid : winner.id = cv.id := congrArg (fun key => (ofLex key).2) hkey
      rw [List.inj_on_of_nodup_map config.idsUnique hwinner hcv hid]

theorem best_reordered (hlower : LowersWords lower) (hjob : job.Reordered other)
    (hconfig : config.Reordered changed) :
    best lower blend other changed = best lower blend job config := by
  ext ranked
  rw [best_eq_some_iff, best_eq_some_iff]
  constructor
  · rintro ⟨⟨same, hsame, rfl⟩, hmost⟩
    obtain ⟨cv, hcv, hchanged⟩ := hconfig.found same hsame
    refine ⟨⟨cv, hcv, (rank_reordered hlower hjob hchanged).symm⟩, fun cv hcv => ?_⟩
    obtain ⟨same, hsame, hchanged⟩ := hconfig.kept cv hcv
    rw [← rank_reordered hlower hjob hchanged]
    exact hmost same hsame
  · rintro ⟨⟨cv, hcv, rfl⟩, hmost⟩
    obtain ⟨same, hsame, hchanged⟩ := hconfig.kept cv hcv
    refine ⟨⟨same, hsame, rank_reordered hlower hjob hchanged⟩, fun same hsame => ?_⟩
    obtain ⟨cv, hcv, hchanged⟩ := hconfig.found same hsame
    rw [rank_reordered hlower hjob hchanged]
    exact hmost cv hcv

theorem find_reordered (hconfig : config.Reordered changed) (id : String) :
    (changed.find id).map (fun cv => (cv.id, cv.file)) =
      (config.find id).map fun cv => (cv.id, cv.file) := by
  ext place
  simp only [Option.map_eq_some_iff, find_eq_some_iff]
  constructor
  · rintro ⟨same, ⟨hsame, rfl⟩, rfl⟩
    obtain ⟨cv, hcv, hchanged⟩ := hconfig.found same hsame
    exact ⟨cv, ⟨hcv, hchanged.id.symm⟩, by rw [hchanged.id, hchanged.file]⟩
  · rintro ⟨cv, ⟨hcv, rfl⟩, rfl⟩
    obtain ⟨same, hsame, hchanged⟩ := hconfig.kept cv hcv
    exact ⟨same, ⟨hsame, hchanged.id⟩, by rw [hchanged.id, hchanged.file]⟩

/-- The order of the CVs and of their terms does not matter. -/
theorem settle_reordered (hlower : LowersWords lower) (hjob : job.Reordered other)
    (hconfig : config.Reordered changed) :
    settle lower blend other changed = settle lower blend job config := by
  have hplace : ∀ id (say : String × String → RoutingDecision),
      ((changed.find id).map fun cv => say (cv.id, cv.file)) =
        (config.find id).map fun cv => say (cv.id, cv.file) := by
    intro id say
    have hfind := congrArg (Option.map say) (find_reordered hconfig id)
    rw [Option.map_map, Option.map_map] at hfind
    exact hfind
  simp only [settle, best_reordered hlower hjob hconfig, hconfig.minimumConfidence,
    hconfig.fallbackCvId]
  split
  · rfl
  split
  · exact hplace _ fun place => decision (some place) _ _ _ false
  · rfl

/-! ### What routing promises -/

theorem confidence_le_best (hbest : best lower blend job config = some ranked)
    (hcv : cv ∈ config.cvs) : confidence lower blend job cv ≤ ranked.confidence :=
  Prod.Lex.monotone_fst_ofLex ((best_eq_some_iff.1 hbest).2 cv hcv)

/-- The best CV is selected if it reaches the threshold, and else none of them is good enough. -/
structure Settled (lower : List Char → List Char) (blend : ℚ → ℚ → Bool → ℚ)
    (job : RoutingJob) (config : CVRoutingConfig) (result : RoutingDecision) : Prop where
  selected : result.fallbackReason = none → ∃ cv ∈ config.cvs,
    result.selectedCvId = some cv.id ∧ result.confidence = confidence lower blend job cv ∧
      config.minimumConfidence ≤ confidence lower blend job cv ∧
      ∀ rival ∈ config.cvs, confidence lower blend job rival ≤ confidence lower blend job cv
  withheld : result.fallbackReason ≠ none →
    ∀ cv ∈ config.cvs, confidence lower blend job cv < config.minimumConfidence

/-- What is expected of routing one job. -/
structure RoutingLaws (lower : List Char → List Char) (blend : ℚ → ℚ → Bool → ℚ)
    (job : RoutingJob) (config : CVRoutingConfig) : Prop where
  returns : (routeCv lower blend job config).isSome = true
  reordered : (∀ override ∈ config.overrides, overrideMatches lower job override = false) →
    ∀ other changed, job.Reordered other → config.Reordered changed →
      routeCv lower blend other changed = routeCv lower blend job config
  settled : ∀ result, routeCv lower blend job config = some result → result.overridden = false →
    Settled lower blend job config result
  covered : ∀ cv ∈ config.cvs,
    (∀ skill ∈ job.requiredSkills, lower skill ∈ lowered lower cv.skills) →
      skillScore lower job cv = 1 ∧
        ∀ rival ∈ config.cvs, skillScore lower job rival ≤ skillScore lower job cv
  added : ∀ cv ∈ config.cvs, ∀ skill ∈ job.requiredSkills, ∀ skills,
    (skill :: cv.skills).Perm skills →
      confidence lower blend job cv ≤ confidence lower blend job { cv with skills := skills }
  overrides : ∀ before override after, config.overrides = before ++ override :: after →
    (∀ earlier ∈ before, overrideMatches lower job earlier = false) →
    overrideMatches lower job override = true →
      ∃ cv ∈ config.cvs, cv.id = override.cvId ∧ routeCv lower blend job config =
        some (decision (some (cv.id, cv.file)) 1 ["ordered_override"] none true)

theorem find_known (hid : id ∈ config.cvs.map CVDefinition.id) :
    ∃ cv ∈ config.cvs, cv.id = id ∧ config.find id = some cv := by
  obtain ⟨cv, hcv, hsame⟩ := List.mem_map.1 hid
  exact ⟨cv, hcv, hsame, find_eq_some_iff.2 ⟨hcv, hsame⟩⟩

variable (lower blend job config) in
/-- The decision where no override matches. -/
theorem settle_spec : ∃ result, settle lower blend job config = some result ∧
    result.overridden = false ∧ Settled lower blend job config result := by
  simp only [settle]
  split
  next hbest =>
    obtain ⟨hsome, hreaches⟩ := hbest
    obtain ⟨ranked, hranked⟩ := Option.ne_none_iff_exists'.1 hsome
    rw [hranked] at hreaches ⊢
    obtain ⟨cv, hcv, rfl⟩ := (best_eq_some_iff.1 hranked).1
    exact ⟨_, rfl, rfl, fun _ => ⟨cv, hcv, rfl, rfl, hreaches,
      fun _ hrival => confidence_le_best hranked hrival⟩, fun hreason => absurd rfl hreason⟩
  next hbest =>
    have hbelow : ∀ cv ∈ config.cvs,
        confidence lower blend job cv < config.minimumConfidence := by
      intro cv hcv
      cases hranked : best lower blend job config with
      | none =>
        rw [List.map_eq_nil_iff.1 (List.argmax_eq_none.1 hranked)] at hcv
        cases hcv
      | some ranked =>
        rw [hranked] at hbest
        exact (confidence_le_best hranked hcv).trans_lt
          (lt_of_not_ge fun hreaches => hbest ⟨nofun, hreaches⟩)
    split
    next id hid =>
      obtain ⟨hfallback, hnonempty⟩ := Option.filter_eq_some_iff.1 hid
      obtain ⟨cv, _, _, hfind⟩ :=
        find_known (config.fallbackKnown id hfallback (by simpa using hnonempty))
      rw [hfind]
      exact ⟨_, rfl, rfl, nofun, fun _ => hbelow⟩
    next => exact ⟨_, rfl, rfl, nofun, fun _ => hbelow⟩

theorem routeCv_override {before : List RoutingOverride}
    (hsplit : config.overrides = before ++ override :: after)
    (hearlier : ∀ earlier ∈ before, overrideMatches lower job earlier = false)
    (hmatches : overrideMatches lower job override = true) :
    ∃ cv ∈ config.cvs, cv.id = override.cvId ∧ routeCv lower blend job config =
      some (decision (some (cv.id, cv.file)) 1 ["ordered_override"] none true) := by
  obtain ⟨cv, hcv, hid, hfind⟩ :=
    find_known (config.overridesKnown override (by simp [hsplit]))
  have hfirst : config.overrides.find? (overrideMatches lower job) = some override := by
    rw [hsplit, List.find?_append, List.find?_eq_none.2 (by simpa using hearlier), Option.none_or,
      List.find?_cons_of_pos hmatches]
  exact ⟨cv, hcv, hid, by rw [routeCv, hfirst]; simp only [hfind, Option.map_some]⟩

theorem routeCv_unmatched
    (hnone : ∀ override ∈ config.overrides, overrideMatches lower job override = false) :
    routeCv lower blend job config = settle lower blend job config := by
  rw [routeCv, List.find?_eq_none.2 (by simpa using hnone)]

variable (lower blend job config) in
/-- The first override that matches decides, and else the best CV. -/
theorem routeCv_cases :
    (∃ cv ∈ config.cvs, routeCv lower blend job config =
      some (decision (some (cv.id, cv.file)) 1 ["ordered_override"] none true)) ∨
    routeCv lower blend job config = settle lower blend job config := by
  cases hfind : config.overrides.find? (overrideMatches lower job) with
  | none => exact .inr (routeCv_unmatched (by simpa using List.find?_eq_none.1 hfind))
  | some override =>
    obtain ⟨hmatches, before, after, hsplit, hearlier⟩ := List.find?_eq_some_iff_append.1 hfind
    obtain ⟨cv, hcv, -, hroute⟩ := routeCv_override hsplit (by simpa using hearlier) hmatches
    exact .inl ⟨cv, hcv, hroute⟩

/-- Routing keeps its promises exactly where every CV that lists all required skills covers the
job by its tokens. -/
theorem routingLaws_iff (hlower : LowersWords lower)
    (hblend : ∀ title hit, Monotone fun skill => blend title skill hit) :
    RoutingLaws lower blend job config ↔ ∀ cv ∈ config.cvs,
      (∀ skill ∈ job.requiredSkills, lower skill ∈ lowered lower cv.skills) →
        Covers lower job cv := by
  constructor
  · intro hlaws cv hcv hlists
    exact skillScore_eq_one_iff.1 (hlaws.covered cv hcv hlists).1
  · intro hcovers
    obtain ⟨result, hsettle, -, hsettled⟩ :=
      settle_spec lower blend job config
    exact {
      returns := by
        rcases routeCv_cases lower blend job config with ⟨_, -, hroute⟩ | hroute
        · rw [hroute, Option.isSome_some]
        · rw [hroute, hsettle, Option.isSome_some]
      reordered := by
        intro hnone other changed hjob hconfig
        have hunmatched : ∀ override ∈ changed.overrides,
            overrideMatches lower other override = false := by
          rw [hconfig.overrides]
          intro override hoverride
          rw [← hnone override hoverride]
          simp only [overrideMatches, hjob.title, hjob.description, hjob.seniority]
        rw [routeCv_unmatched hunmatched, routeCv_unmatched hnone,
          settle_reordered hlower hjob hconfig]
      settled := by
        intro result hresult hordinary
        rcases routeCv_cases lower blend job config with ⟨_, -, hroute⟩ | hroute
        · rw [hroute] at hresult
          cases hresult
          cases hordinary
        · rw [hroute, hsettle] at hresult
          cases hresult
          exact hsettled
      covered := by
        intro cv hcv hlists
        have hfull := skillScore_eq_one_iff.2 (hcovers cv hcv hlists)
        exact ⟨hfull, fun rival _ => hfull ▸ min_le_right _ _⟩
      added := fun cv _ skill hskill skills hperm =>
        confidence_add_skill hlower hblend hskill hperm
      overrides := fun _ _ _ hsplit hearlier hmatches =>
        routeCv_override hsplit hearlier hmatches }

/-- The weights of the source, without rounding. -/
def exactBlend (title skill : ℚ) (hit : Bool) : ℚ :=
  title / 2 + skill * 2 / 5 + if hit then 1 / 10 else 0

theorem exactBlend_mono (title : ℚ) (hit : Bool) :
    Monotone fun skill => exactBlend title skill hit := by
  intro skill more hmore
  simp only [exactBlend]
  linarith

theorem lowersWords_map : LowersWords (List.map Char.toLower) :=
  ⟨rfl, fun _ _ => by rw [List.map_append, List.map_cons]; rfl⟩

/-- One CV for one skill. -/
def singleCv (skill : String) : CVRoutingConfig where
  cvs := [⟨"ml", "ml.pdf", [], [skill.toList], []⟩]
  overrides := []
  minimumConfidence := 35 / 100
  fallbackCvId := none
  idsUnique := List.nodup_singleton _
  overridesKnown := nofun
  fallbackKnown := nofun

def jobFor (skill : String) : RoutingJob :=
  ⟨[], [], [], [skill.toList]⟩

/-- The second CV has one of the two required skills. -/
def twoCvs : CVRoutingConfig where
  cvs := [⟨"ml", "ml.pdf", [], ["python".toList, "sql".toList], []⟩,
    ⟨"data", "data.pdf", ["analyst".toList], ["machine learning".toList, "sql".toList], []⟩]
  overrides := []
  minimumConfidence := 35 / 100
  fallbackCvId := some "data"
  idsUnique := by decide
  overridesKnown := nofun
  fallbackKnown := by decide

theorem routingLaws_one_word :
    RoutingLaws (List.map Char.toLower) exactBlend
      ⟨"Analyst".toList, [], [], ["Python".toList, "SQL".toList]⟩ twoCvs := by
  refine (routingLaws_iff lowersWords_map exactBlend_mono).2 fun cv hcv hlists => ?_
  rcases List.mem_pair.1 hcv with rfl | rfl
  · decide +kernel
  · exact absurd (hlists _ (.head _)) (by decide +kernel)

/-- A CV that lists the one required skill word for word does not count as covering it. -/
theorem phrase_not_covered :
    ¬ RoutingLaws (List.map Char.toLower) exactBlend (jobFor "Machine learning")
      (singleCv "machine learning") := by
  intro hlaws
  have hcovered := hlaws.covered _ (.head _) (by decide +kernel)
  exact absurd hcovered.1 (by decide +kernel)

end JobApplyAgent.Match.Terms
