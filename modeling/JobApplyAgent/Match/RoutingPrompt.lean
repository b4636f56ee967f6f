import JobApplyAgent.Match.RoutedCvs

/-!
# The budget of a routing prompt

What a routing prompt takes up is the length of its fixed texts and the costs of the texts in it,
each character of which has a cost of its own.  So the budget is spent to the character: a prompt
is made whenever the first segments fit, and no further segment would fit into it.
-/

namespace JobApplyAgent.Match

open Library

/-! ## Costs -/

variable {first second value : List Char} {budget room : ℤ} {fuel low : ℕ}

theorem jsonTextCost_eq (value : List Char) :
    jsonTextCost value = (value.flatMap JsonText.escaped).length := by
  simp [jsonTextCost, JsonText.quoted]

theorem jsonTextCost_append (first second : List Char) :
    jsonTextCost (first ++ second) = jsonTextCost first + jsonTextCost second := by
  simp [jsonTextCost_eq]

theorem jsonTextCost_nil : jsonTextCost [] = 0 :=
  rfl

theorem length_quoted (value : List Char) :
    (JsonText.quoted value).length = jsonTextCost value + 2 := by
  simp [jsonTextCost_eq, JsonText.quoted]

theorem jsonTextCost_mono (hinit : first <+: second) :
    jsonTextCost first ≤ jsonTextCost second := by
  obtain ⟨rest, rfl⟩ := hinit
  rw [jsonTextCost_append]
  exact Nat.le_add_right _ _

/-! ## The longest front -/

/-- A text is the longest front within a cap that is not too long as JSON. -/
def LongestWithin (value : List Char) (cap : ℕ) (budget : ℤ) (front : List Char) : Prop :=
  front <+: value ∧ front.length ≤ cap ∧ jsonTextCost front ≤ budget ∧
    ∀ other, other <+: value → other.length ≤ cap → jsonTextCost other ≤ budget →
      other.length ≤ front.length

/-- The search ends at a front that fits, with none that fits beyond it. -/
theorem prefixSearch_spec (hlow : jsonTextCost (value.take low) ≤ budget) (hle : low ≤ high)
    (hfuel : high - low ≤ fuel)
    (hhigh : ∀ count, high < count → count ≤ cap → budget < jsonTextCost (value.take count)) :
    jsonTextCost (value.take (prefixSearch value budget fuel low high)) ≤ budget ∧
      prefixSearch value budget fuel low high ≤ high ∧
      ∀ count, prefixSearch value budget fuel low high < count → count ≤ cap →
        budget < jsonTextCost (value.take count) := by
  induction fuel generalizing low high with
  | zero =>
    obtain rfl : low = high := by omega
    exact ⟨hlow, Nat.le_refl _, hhigh⟩
  | succ fuel ih =>
    rw [prefixSearch]
    split
    swap
    · obtain rfl : low = high := by omega
      exact ⟨hlow, Nat.le_refl _, hhigh⟩
    simp only
    split
    · next hfits => exact ih hfits (by omega) (by omega) hhigh
    · next hover =>
      obtain ⟨hcost, hbound, hrest⟩ := @ih low ((low + high + 1) / 2 - 1) hlow (by omega) (by omega)
        fun count hcount _ => by
          have hmono := jsonTextCost_mono (List.take_prefix_take_left (l := value)
            (show (low + high + 1) / 2 ≤ count by omega))
          omega
      exact ⟨hcost, by omega, hrest⟩

theorem prefixSearch_settled (hfuel : high - low ≤ fuel) :
    prefixSearch value budget (fuel + 1) low high = prefixSearch value budget fuel low high := by
  induction fuel generalizing low high with
  | zero => rw [prefixSearch, prefixSearch, if_neg (by omega)]
  | succ fuel ih =>
    rw [prefixSearch, prefixSearch]
    split
    · simp only
      rw [ih (by omega), ih (by omega)]
    · rfl

/-- The search ends at the longest front that fits. -/
theorem longest_largestPrefixWithin (hbudget : 0 ≤ budget) :
    LongestWithin value cap budget (largestPrefixWithin value cap budget) := by
  obtain ⟨hcost, hbound, hrest⟩ := @prefixSearch_spec value budget (min value.length cap) 0
    (min value.length cap) (min value.length cap) (by simpa [jsonTextCost_eq] using hbudget)
    (Nat.zero_le _) (Nat.sub_le _ _) (fun count hcount hle => by omega)
  refine ⟨List.take_prefix _ _, ?_, hcost, fun other hother hlength hfits => ?_⟩
  · rw [largestPrefixWithin, List.length_take]
    omega
  · have hother' := List.prefix_iff_eq_take.mp hother
    have hupper := hother.length_le
    rw [largestPrefixWithin, List.length_take]
    by_contra hlonger
    have hover := hrest other.length (by omega) (by omega)
    rw [← hother'] at hover
    omega

/-! ## Rounds -/

/-- What one more segment would cost. -/
def growth (allocation : Allocation) (next : List Char) : ℤ :=
  jsonTextCost (['\n'].intercalate (allocation.taken ++ [next])) - jsonTextCost allocation.value

theorem intercalate_concat (htaken : taken ≠ []) (next : List Char) :
    ['\n'].intercalate (taken ++ [next]) = ['\n'].intercalate taken ++ '\n' :: next := by
  induction taken with
  | nil => exact absurd rfl htaken
  | cons head tail ih =>
    cases tail with
    | nil => simp [List.intercalate_cons_cons]
    | cons other tail =>
      have htail := ih (List.cons_ne_nil other tail)
      simp only [List.cons_append, List.intercalate_cons_cons] at htail ⊢
      rw [htail, List.append_assoc _ _ ('\n' :: next)]

/-- A further segment costs itself and the line break before it. -/
theorem growth_eq (htaken : allocation.taken ≠ []) (next : List Char) :
    growth allocation next = jsonTextCost next + 2 := by
  have hbreak : jsonTextCost ('\n' :: next) = 2 + jsonTextCost next :=
    jsonTextCost_append ['\n'] next
  rw [growth, intercalate_concat htaken, jsonTextCost_append, hbreak, Allocation.value]
  omega

def costs (allocations : List Allocation) : ℤ :=
  (allocations.map fun allocation => (jsonTextCost allocation.value : ℤ)).sum

theorem costs_cons (allocation : Allocation) (later : List Allocation) :
    costs (allocation :: later) = jsonTextCost allocation.value + costs later :=
  List.sum_cons

/-- There is no room for a further segment of any excerpt. -/
def Full (room : ℤ) (allocations : List Allocation) : Prop :=
  ∀ allocation ∈ allocations, ∀ next pending, allocation.pending = next :: pending →
    room < growth allocation next

/-- What a round comes to: it spends what it takes, and if it takes nothing, everything is full. -/
structure RoundResult (before : List Allocation) (remaining : ℤ)
    (result : List Allocation × ℤ × Bool) : Prop where
  spent : costs result.1 + result.2.1 = costs before + remaining
  room : 0 ≤ result.2.1
  kept : pendingSegments result.1 ≤ pendingSegments before
  progressed : result.2.2 = true → pendingSegments result.1 < pendingSegments before
  settled : result.2.2 = false → result.1 = before ∧ Full remaining before

theorem RoundResult.skip {later : List Allocation}
    (hlater : RoundResult later remaining result)
    (hfull : ∀ next pending, allocation.pending = next :: pending →
      remaining < growth allocation next) :
    RoundResult (allocation :: later) remaining (allocation :: result.1, result.2) where
  spent := by
    have hspent := hlater.spent
    change costs (allocation :: result.1) + result.2.1 = _
    rw [costs_cons, costs_cons]
    omega
  room := hlater.room
  kept := Nat.add_le_add_left hlater.kept _
  progressed := fun hprogressed => Nat.add_lt_add_left (hlater.progressed hprogressed) _
  settled := fun hsettled => by
    obtain ⟨hsame, hrest⟩ := hlater.settled hsettled
    exact ⟨by rw [hsame], List.forall_mem_cons.mpr ⟨hfull, hrest⟩⟩

theorem allocateRound_result (allocations : List Allocation) (hremaining : 0 ≤ remaining) :
    RoundResult allocations remaining (allocateRound allocations remaining) := by
  induction allocations generalizing remaining with
  | nil => exact ⟨rfl, hremaining, Nat.le_refl _, nofun, fun _ => ⟨rfl, nofun⟩⟩
  | cons allocation later ih =>
    rw [allocateRound.eq_def]
    simp only
    split
    · next hpending => exact (ih hremaining).skip (by simp [hpending])
    next next pending hpending =>
    change RoundResult _ _ (if growth allocation next > remaining then _ else _)
    split
    · next hover =>
      refine (ih hremaining).skip fun other rest hother => ?_
      obtain ⟨rfl, _⟩ := List.cons.inj (hpending.symm.trans hother)
      exact hover
    · next hfits =>
      have hlater := ih (sub_nonneg.mpr (not_lt.mp hfits))
      have hless : pendingSegments (⟨allocation.taken ++ [next], pending⟩ ::
          (allocateRound later (remaining - growth allocation next)).1) <
          pendingSegments (allocation :: later) := by
        have hkept := hlater.kept
        simp only [pendingSegments, List.map_cons, List.sum_cons, hpending, List.length_cons]
          at hkept ⊢
        omega
      refine ⟨?_, hlater.room, hless.le, fun _ => hless, nofun⟩
      have hspent := hlater.spent
      have hgrowth : growth allocation next =
        jsonTextCost (Allocation.value ⟨allocation.taken ++ [next], pending⟩) -
          jsonTextCost allocation.value := rfl
      change costs (_ :: (allocateRound later (remaining - growth allocation next)).1) +
        (allocateRound later (remaining - growth allocation next)).2.1 = _
      rw [costs_cons, costs_cons]
      omega

theorem taken_of_parts (hparts : List.Forall₂ Parts excerpts allocations) :
    ∀ allocation ∈ allocations, allocation.taken ≠ [] := by
  induction hparts with
  | nil => nofun
  | cons hpart _ ih => exact List.forall_mem_cons.mpr ⟨hpart.1, ih⟩

/-- The rounds end with everything full. -/
theorem allocate_full (hparts : List.Forall₂ Parts excerpts allocations)
    (hremaining : 0 ≤ remaining) (hfuel : pendingSegments allocations < fuel) :
    ∃ left, costs (allocate fuel allocations remaining) + left = costs allocations + remaining ∧
      0 ≤ left ∧ Full left (allocate fuel allocations remaining) := by
  induction fuel generalizing allocations remaining with
  | zero => cases hfuel
  | succ fuel ih =>
    have hround := allocateRound_result allocations hremaining
    rw [allocate]
    split
    · simp only
      split
      · next hprogressed =>
        obtain ⟨left, hspent, hrest⟩ := ih (parts_allocateRound hparts remaining) hround.room
          (by have := hround.progressed hprogressed; omega)
        exact ⟨left, hspent.trans hround.spent, hrest⟩
      · next hstopped =>
        obtain ⟨hsame, hfull⟩ := hround.settled (by simpa using hstopped)
        exact ⟨remaining, by rw [hsame], hremaining, by rwa [hsame]⟩
    · next hspent =>
      refine ⟨remaining, rfl, hremaining, fun allocation hmem next _ _ => ?_⟩
      rw [growth_eq (taken_of_parts hparts allocation hmem)]
      omega

/-- More rounds than segments change nothing. -/
theorem allocate_settled (hfuel : pendingSegments allocations < fuel) (remaining : ℤ) :
    allocate (fuel + 1) allocations remaining = allocate fuel allocations remaining := by
  induction fuel generalizing allocations remaining with
  | zero => cases hfuel
  | succ fuel ih =>
    rw [allocate, allocate]
    split
    · next hremaining =>
      have hround := allocateRound_result allocations hremaining.le
      simp only
      split
      · next hprogressed => exact ih (by have := hround.progressed hprogressed; omega) _
      · rfl
    · rfl

/-! ## The length of a prompt -/

theorem length_candidateJson (candidate : String × List Char) :
    (candidateJson candidate).length =
      (candidateJson (candidate.1, [])).length + jsonTextCost candidate.2 := by
  unfold candidateJson
  generalize "\x7b\"id\":".toList = head, ",\"excerpt\":".toList = middle
  simp only [List.length_append, length_quoted, jsonTextCost_nil]
  omega

variable {candidates : List (String × List Char)}

def withoutExcerpts (candidates : List (String × List Char)) : List (String × List Char) :=
  candidates.map fun candidate => (candidate.1, [])

def shownCosts (included : List (String × List Char)) : ℕ :=
  (included.map fun item => jsonTextCost item.2).sum

theorem length_array (included : List (String × List Char)) :
    (JsonText.array (included.map candidateJson)).length =
      (JsonText.array ((withoutExcerpts included).map candidateJson)).length +
        shownCosts included := by
  have hclosing : ∀ included : List (String × List Char),
      (JsonText.closing (included.map candidateJson)).length =
        (JsonText.closing ((withoutExcerpts included).map candidateJson)).length +
          shownCosts included := by
    intro included
    induction included with
    | nil => rfl
    | cons item later ih =>
      simp only [withoutExcerpts, shownCosts, List.map_cons, JsonText.closing, List.length_append,
        List.length_cons, List.sum_cons] at ih ⊢
      rw [length_candidateJson, ih]
      omega
  cases included with
  | nil => rfl
  | cons item later =>
    have hlater := hclosing later
    simp only [withoutExcerpts, shownCosts, List.map_cons, JsonText.array, List.length_append,
      List.length_cons, List.sum_cons] at hlater ⊢
    rw [length_candidateJson, hlater]
    omega

theorem length_renderPrompt (title description : List Char)
    (included : List (String × List Char)) :
    (renderPrompt title description included).length =
      (renderPrompt [] [] (withoutExcerpts included)).length + jsonTextCost title +
        jsonTextCost description + shownCosts included := by
  unfold renderPrompt
  generalize "\x7b\"title\":".toList = head, ",\"description\":".toList = middle,
    promptTexts = texts
  simp only [List.length_append, length_quoted, jsonTextCost_nil, length_array included]
  omega

/-! ## What a prompt is made of -/

/-- Everything but the texts: the fixed text with the ids, the schema, the system text and the
margin for a retry. -/
def fixedLength (policy : RoutingPolicy) (candidates : List (String × List Char)) : ℕ :=
  (renderPrompt [] [] (withoutExcerpts candidates)).length + requestOverhead policy

def firstSegment (excerpt : List Char) : List Char :=
  (segments excerpt).headD []

def minimumCost (candidates : List (String × List Char)) : ℕ :=
  (candidates.map fun candidate => jsonTextCost (firstSegment candidate.2)).sum

/-- Every candidate has a first segment, and these fit together with all that is fixed. -/
def FirstSegmentsFit (policy : RoutingPolicy) (candidates : List (String × List Char))
    (limit : ℤ) : Prop :=
  (∀ candidate ∈ candidates, segments candidate.2 ≠ []) ∧
    (fixedLength policy candidates + minimumCost candidates : ℕ) ≤ limit

/-- What is shown of an excerpt: its first segments, whole and at least one, and all for which
there is room. -/
def ShowsMost (room : ℤ) (candidate item : String × List Char) : Prop :=
  item.1 = candidate.1 ∧ ∃ taken pending, taken ≠ [] ∧ taken ++ pending = segments candidate.2 ∧
    item.2 = ['\n'].intercalate taken ∧ ∀ next rest, pending = next :: rest →
      room < jsonTextCost (['\n'].intercalate (taken ++ [next])) - jsonTextCost item.2

/-- A prompt that spends its budget exactly. -/
def SpendsBudget (policy : RoutingPolicy) (job : RoutingJob)
    (candidates : List (String × List Char)) (limit : ℤ) (prompt : List Char)
    (included : List (String × List Char)) : Prop :=
  prompt.length + requestOverhead policy ≤ limit ∧
    List.Forall₂ (ShowsMost (limit - (prompt.length + requestOverhead policy))) candidates
      included ∧
    ∃ title description, prompt = renderPrompt title description included ∧
      LongestWithin (orText job.title "(no title)") jobTitleChars
        (limit - fixedLength policy candidates - minimumCost candidates) title ∧
      LongestWithin (orText job.description "(no description provided)") jobDescriptionChars
        (limit - fixedLength policy candidates - minimumCost candidates - jsonTextCost title)
        description

/-! ## The prompt is exact -/

def firstAllocation (candidate : String × List Char) : Allocation :=
  ⟨[firstSegment candidate.2], (segments candidate.2).tail⟩

theorem started_iff :
    (candidates.mapM fun candidate => startAllocation candidate.2) = some started ↔
      (∀ candidate ∈ candidates, segments candidate.2 ≠ []) ∧
        started = candidates.map firstAllocation := by
  induction candidates generalizing started with
  | nil => exact ⟨fun hnil => ⟨nofun, (Option.some.inj hnil).symm⟩, fun hnil => hnil.2 ▸ rfl⟩
  | cons candidate later ih =>
    rw [List.mapM_cons, List.forall_mem_cons, List.map_cons]
    cases hsegments : segments candidate.2 with
    | nil => simp [startAllocation, hsegments]
    | cons first rest =>
      have hfirst : startAllocation candidate.2 = some (firstAllocation candidate) := by
        simp [startAllocation, firstAllocation, firstSegment, hsegments]
      rw [hfirst, Option.bind_eq_bind, Option.bind_some, Option.bind_eq_bind,
        Option.bind_eq_some_iff]
      constructor
      · rintro ⟨others, hothers, hsome⟩
        obtain ⟨hall, rfl⟩ := ih.mp hothers
        exact ⟨⟨List.cons_ne_nil _ _, hall⟩, (Option.some.inj hsome).symm⟩
      · rintro ⟨⟨_, hall⟩, rfl⟩
        exact ⟨_, ih.mpr ⟨hall, rfl⟩, rfl⟩

theorem costs_started (candidates : List (String × List Char)) :
    costs (candidates.map firstAllocation) = minimumCost candidates := by
  induction candidates with
  | nil => rfl
  | cons candidate later ih =>
    rw [List.map_cons, costs_cons, ih]
    simp [minimumCost, firstAllocation, Allocation.value]

def shownItems (candidates : List (String × List Char)) (allocations : List Allocation) :
    List (String × List Char) :=
  (candidates.zip allocations).map fun (candidate, allocation) => (candidate.1, allocation.value)

/-- Each candidate is shown the most for which there is room. -/
theorem shownItems_spec (hparts : List.Forall₂ Parts (candidates.map Prod.snd) allocations)
    (hfull : Full room allocations) :
    List.Forall₂ (ShowsMost room) candidates (shownItems candidates allocations) ∧
      withoutExcerpts (shownItems candidates allocations) = withoutExcerpts candidates ∧
      (shownCosts (shownItems candidates allocations) : ℤ) = costs allocations := by
  induction candidates generalizing allocations with
  | nil =>
    cases hparts
    exact ⟨.nil, rfl, rfl⟩
  | cons candidate later ih =>
    cases hparts with
    | @cons _ allocation _ rest hpart hrest =>
    obtain ⟨hfirst, hlater⟩ := List.forall_mem_cons.mp hfull
    obtain ⟨hshown, hids, hcosts⟩ := ih hrest hlater
    refine ⟨.cons ⟨rfl, _, _, hpart.1, hpart.2, rfl, hfirst⟩ hshown,
      congrArg ((candidate.1, []) :: ·) hids, ?_⟩
    rw [costs_cons, ← hcosts]
    exact Nat.cast_add _ _

/-- Where the first segments fit, the prompt is built. -/
theorem boundedRoutingPrompt_of_fits (hfits : FirstSegmentsFit policy candidates limit) :
    ∃ prompt included, boundedRoutingPrompt policy job candidates limit = some (prompt, included) ∧
      SpendsBudget policy job candidates limit prompt included := by
  obtain ⟨hsegments, hlimit⟩ := hfits
  have hstarted := started_iff.mpr ⟨hsegments, rfl⟩
  have hparts : List.Forall₂ Parts (candidates.map Prod.snd) (candidates.map firstAllocation) :=
    parts_start (by rw [List.mapM_map]; exact hstarted)
  have hminimum := costs_started candidates
  obtain ⟨budget, hbudget⟩ : ∃ budget : ℤ, budget = limit - requestOverhead policy -
    (renderPrompt [] [] (withoutExcerpts candidates)).length := ⟨_, rfl⟩
  have hleft : limit - fixedLength policy candidates - minimumCost candidates =
      budget - costs (candidates.map firstAllocation) := by
    rw [fixedLength]
    omega
  have htitle := @longest_largestPrefixWithin (orText job.title "(no title)") _ jobTitleChars
    (show 0 ≤ budget - costs (candidates.map firstAllocation) by omega)
  generalize htitleEq : largestPrefixWithin (orText job.title "(no title)") jobTitleChars
    (budget - costs (candidates.map firstAllocation)) = title at htitle
  have hdescription := @longest_largestPrefixWithin
    (orText job.description "(no description provided)") _ jobDescriptionChars
    (sub_nonneg.mpr htitle.2.2.1)
  generalize hdescriptionEq : largestPrefixWithin
    (orText job.description "(no description provided)") jobDescriptionChars
    (budget - costs (candidates.map firstAllocation) - jsonTextCost title) = description
    at hdescription
  have hcost := hdescription.2.2.1
  obtain ⟨left, hspent, hroom, hfull⟩ := allocate_full hparts (show 0 ≤ budget -
    jsonTextCost title - jsonTextCost description - costs (candidates.map firstAllocation) by omega)
    (Nat.lt_add_one _)
  obtain ⟨hshown, hids, hcosts⟩ := shownItems_spec (parts_allocate _ _ hparts) hfull
  generalize hallocations : allocate (pendingSegments (candidates.map firstAllocation) + 1) _ _ =
    allocations at *
  have hlength := length_renderPrompt title description (shownItems candidates allocations)
  rw [hids] at hlength
  have htotal : ((renderPrompt title description (shownItems candidates allocations)).length : ℤ) +
      requestOverhead policy = limit - left := by
    omega
  refine ⟨_, _, ?_, htotal ▸ Int.sub_le_self _ hroom, by rwa [htotal, sub_sub_cancel], title,
    description, rfl, by rwa [hleft], by rwa [hleft]⟩
  subst hallocations htitleEq hdescriptionEq hbudget
  simp only [boundedRoutingPrompt, Option.bind_eq_bind, Option.bind_eq_some_iff]
  refine ⟨(), (Option.guard_eq_some' _).mpr ?_, _, hstarted, (), (Option.guard_eq_some' _).mpr ?_,
    (), (Option.guard_eq_some' _).mpr (htotal.trans_le (Int.sub_le_self _ hroom)), rfl⟩
  · change (0 : ℤ) ≤ limit - requestOverhead policy -
      (renderPrompt [] [] (withoutExcerpts candidates)).length
    omega
  · change costs _ ≤ limit - requestOverhead policy -
      (renderPrompt [] [] (withoutExcerpts candidates)).length
    omega

/-- A prompt is built only where the first segments fit. -/
theorem fits_of_boundedRoutingPrompt
    (hbounded : boundedRoutingPrompt policy job candidates limit = some result) :
    FirstSegmentsFit policy candidates limit := by
  simp only [boundedRoutingPrompt, Option.bind_eq_bind, Option.bind_eq_some_iff] at hbounded
  obtain ⟨_, _, started, hstarted, _, hminimum, _⟩ := hbounded
  obtain ⟨hsegments, rfl⟩ := started_iff.mp hstarted
  refine ⟨hsegments, ?_⟩
  have hfits := (Option.guard_eq_some' _).mp hminimum
  change costs _ ≤ _ at hfits
  rw [costs_started] at hfits
  change (minimumCost candidates : ℤ) ≤
    limit - requestOverhead policy - (renderPrompt [] [] (withoutExcerpts candidates)).length
    at hfits
  rw [fixedLength]
  omega

/-- A prompt is made exactly when the first segments fit, and it spends the budget exactly; its
search and its rounds have come to their end. -/
theorem routing_prompt_exact (policy : RoutingPolicy) (job : RoutingJob)
    (candidates : List (String × List Char)) (limit : ℤ) :
    ((boundedRoutingPrompt policy job candidates limit).isSome ↔
        FirstSegmentsFit policy candidates limit) ∧
      (∀ prompt included,
        boundedRoutingPrompt policy job candidates limit = some (prompt, included) →
          SpendsBudget policy job candidates limit prompt included) ∧
      (∀ value budget fuel low high, high - low ≤ fuel →
        prefixSearch value budget (fuel + 1) low high = prefixSearch value budget fuel low high) ∧
      ∀ allocations remaining fuel, pendingSegments allocations < fuel →
        allocate (fuel + 1) allocations remaining = allocate fuel allocations remaining := by
  refine ⟨⟨fun hsome => ?_, fun hfits => ?_⟩, fun prompt included hbounded => ?_,
    fun _ _ _ _ _ => prefixSearch_settled, fun _ remaining _ hfuel =>
      allocate_settled hfuel remaining⟩
  · obtain ⟨_, hbounded⟩ := Option.isSome_iff_exists.mp hsome
    exact fits_of_boundedRoutingPrompt hbounded
  · obtain ⟨_, _, hbounded, _⟩ := boundedRoutingPrompt_of_fits hfits
    rw [hbounded, Option.isSome_some]
  · obtain ⟨_, _, hmade, hspends⟩ :=
      boundedRoutingPrompt_of_fits (fits_of_boundedRoutingPrompt hbounded)
    cases hmade.symm.trans hbounded
    exact hspends

end JobApplyAgent.Match
