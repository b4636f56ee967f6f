import JobApplyAgent.Materials.ClaimEvidence

/-!
# Literal evidence

What an eligible validation says about every sentence of the material.  A claim
that a quote supports as a whole lends all its split-off clauses to the other
sentences, so a sentence may be covered by a fragment that no quote supports.
-/

namespace JobApplyAgent.Materials

open Library Regex

variable {table : CharacterTable} {policy : ContentPolicy} {claims : List DraftClaim}
  {catalog : List EvidenceItem}

/-! ## Support -/

/-- A claim cites the quote from an item of the catalog of which it is an exact
affirmative span. -/
def Cited (table : CharacterTable) (claims : List DraftClaim) (catalog : List EvidenceItem)
    (quote : List Char) : Prop :=
  ∃ claim ∈ claims, ∃ binding ∈ claim.evidenceQuotes, ∃ item ∈ catalog,
    item.evidenceId = binding.evidenceId ∧ binding.quote.toList = quote ∧
    quoteIsExactAffirmativeSpan table quote item.text.toList = true

/-- A cited quote supports the clause. -/
def Supported (table : CharacterTable) (claims : List DraftClaim) (catalog : List EvidenceItem)
    (clause : List Char) : Prop :=
  ∃ quote, Cited table claims catalog quote ∧ quoteSupportsClaimClause table clause quote = true

/-- The sentence is exempt, or supported as a whole, or clause by clause. -/
def Evidenced (table : CharacterTable) (claims : List DraftClaim) (catalog : List EvidenceItem)
    (sentence : List Char) : Prop :=
  requiresEvidence table sentence = false ∨ Supported table claims catalog sentence ∨
    ∀ clause ∈ factualClauses table sentence, Supported table claims catalog clause

/-- A clause that no quote supports, split off a claim that one supports as a whole, occurs
only in sentences that are supported as a whole. -/
def FragmentsCovered (table : CharacterTable) (claims : List DraftClaim)
    (catalog : List EvidenceItem) (texts : List String) : Prop :=
  ∀ claim ∈ claims, Supported table claims catalog claim.claimText.toList →
    ∀ clause ∈ declaredClaimClauses table claim.claimText.toList,
      ¬Supported table claims catalog clause →
      ∀ sentence ∈ materialSentences table texts, clause ∈ factualClauses table sentence →
        Supported table claims catalog sentence

theorem evidenceById_mem {id : String}
    (hitem : evidenceById catalog id = some item) : item ∈ catalog ∧ item.evidenceId = id := by
  have hmem := List.mem_of_getLast? hitem
  simpa using hmem

theorem factualClauses_of_exempt (hexempt : requiresEvidence table sentence = false) :
    factualClauses table sentence = [] := by
  unfold factualClauses
  rw [hexempt]
  rfl

/-! ## The loop over the claims -/

variable {claim : DraftClaim}

variable {seen : List String}

theorem clausesSupported_of_reason
    (hreason : claimReason table policy combined catalog seen claim = none) :
    clausesSupported table claim (exactBindings table policy catalog claim) = true := by
  unfold claimReason at hreason
  grind

theorem cited_of_exact (hclaim : claim ∈ claims)
    (hbinding : binding ∈ exactBindings table policy catalog claim) :
    Cited table claims catalog binding.quote.toList := by
  unfold exactBindings at hbinding
  rw [List.mem_filter] at hbinding
  obtain ⟨hmem, hexact⟩ := hbinding
  simp only [Bool.and_eq_true, Option.any_eq_true] at hexact
  obtain ⟨⟨⟨item, hitem, hspan⟩, _⟩, _⟩ := hexact
  obtain ⟨hstored, hid⟩ := evidenceById_mem hitem
  exact ⟨claim, hclaim, binding, hmem, item, hstored, hid, rfl, hspan⟩

theorem claim_supported (hclaim : claim ∈ claims)
    (hreason : claimReason table policy combined catalog seen claim = none) :
    Supported table claims catalog claim.claimText.toList ∨
      ∀ clause ∈ declaredClaimClauses table claim.claimText.toList,
        Supported table claims catalog clause := by
  have hsupported := clausesSupported_of_reason hreason
  simp only [clausesSupported, Bool.and_eq_true, Bool.or_eq_true, List.any_eq_true,
    List.all_eq_true, bindingSupports] at hsupported
  apply hsupported.2.imp
  · rintro ⟨binding, hbinding, hsupports⟩
    exact ⟨_, cited_of_exact hclaim hbinding, hsupports⟩
  · intro hclauses clause hclause
    obtain ⟨binding, hbinding, hsupports⟩ := hclauses clause hclause
    exact ⟨_, cited_of_exact hclaim hbinding, hsupports⟩

theorem reasons_of_unblocked
    (hend : (claims.foldl (validateClaim table policy combined catalog) progress).blockers = []) :
    progress.blockers = [] ∧ ∀ claim ∈ claims, ∃ seen,
      claimReason table policy combined catalog seen claim = none := by
  induction claims generalizing progress with
  | nil => exact ⟨hend, fun claim hclaim => absurd hclaim (by simp)⟩
  | cons first rest ih =>
    rw [List.foldl_cons] at hend
    obtain ⟨hfirst, hrest⟩ := ih hend
    rw [validateClaim, List.append_eq_nil_iff, Option.toList_eq_nil_iff] at hfirst
    refine ⟨hfirst.1, ?_⟩
    intro claim hclaim
    rcases List.mem_cons.mp hclaim with rfl | hclaim
    · exact ⟨_, hfirst.2⟩
    · exact hrest claim hclaim

theorem declared_of_collected (hend : clause ∈
      (claims.foldl (validateClaim table policy combined catalog) progress).supportedClaimClauses) :
    clause ∈ progress.supportedClaimClauses ∨
      ∃ claim ∈ claims, clause ∈ declaredClaimClauses table claim.claimText.toList := by
  induction claims generalizing progress with
  | nil => exact .inl hend
  | cons first rest ih =>
    rw [List.foldl_cons] at hend
    rcases ih hend with hcollected | ⟨claim, hclaim, hdeclared⟩
    · unfold validateClaim at hcollected
      simp only at hcollected
      split at hcollected
      · rcases List.mem_append.mp hcollected with hold | hnew
        · exact .inl hold
        · exact .inr ⟨first, by simp, hnew⟩
      · exact .inl hcollected
    · exact .inr ⟨claim, by simp [hclaim], hdeclared⟩

/-! ## Eligible validations -/

theorem sortedBlockers_eq_nil (hsorted : sortedBlockers blockers = []) : blockers = [] := by
  rw [List.eq_nil_iff_forall_not_mem]
  intro blocker hblocker
  rw [sortedBlockers, List.filter_eq_nil_iff] at hsorted
  apply hsorted blocker
  · cases blocker <;> simp
  · simpa using hblocker

/-- An eligible validation supports every claim and covers every factual clause. -/
theorem eligible_covers
    (heligible : (validateClaimEvidence table policy texts claims catalog).eligible = true) :
    (∀ claim ∈ claims, Supported table claims catalog claim.claimText.toList ∨
      ∀ clause ∈ declaredClaimClauses table claim.claimText.toList,
        Supported table claims catalog clause) ∧
    ∀ sentence ∈ materialSentences table texts, ∀ clause ∈ factualClauses table sentence,
      ∃ claim ∈ claims, clause ∈ declaredClaimClauses table claim.claimText.toList := by
  rw [ClaimValidation.eligible, Bool.and_eq_true, List.isEmpty_iff, validateClaimEvidence]
    at heligible
  have hblockers := sortedBlockers_eq_nil heligible.1
  rw [List.append_eq_nil_iff, List.flatMap_eq_nil_iff] at hblockers
  obtain ⟨hclaims, hsentences⟩ := hblockers
  constructor
  · intro claim hclaim
    obtain ⟨seen, hreason⟩ := (reasons_of_unblocked hclaims).2 claim hclaim
    exact claim_supported hclaim hreason
  · intro sentence hsentence clause hclause
    have hcovered := hsentences sentence hsentence
    rw [sentenceBlockers, List.append_eq_nil_iff, List.flatMap_eq_nil_iff] at hcovered
    have hcollected := hcovered.2 clause hclause
    rw [ite_eq_left_iff] at hcollected
    have hcontains := not_not.mp fun hmissing => absurd (hcollected hmissing) (by simp)
    rcases declared_of_collected (List.contains_iff_mem.mp hcontains) with hstart | hdeclared
    · cases hstart
    · exact hdeclared

/-- The material of an eligible validation is literally evidenced exactly when no sentence
rests on an unsupported fragment of a claim. -/
theorem literally_evidenced_iff
    (heligible : (validateClaimEvidence table policy texts claims catalog).eligible = true) :
    (∀ sentence ∈ materialSentences table texts, Evidenced table claims catalog sentence) ↔
      FragmentsCovered table claims catalog texts := by
  obtain ⟨hclaims, hsentences⟩ := eligible_covers heligible
  constructor
  · intro hevidenced claim _ _ clause _ hfragment sentence hsentence hclause
    rcases hevidenced sentence hsentence with hexempt | hwhole | hclauses
    · rw [factualClauses_of_exempt hexempt] at hclause
      cases hclause
    · exact hwhole
    · exact absurd (hclauses clause hclause) hfragment
  · intro hcovered sentence hsentence
    by_cases hclauses : ∀ clause ∈ factualClauses table sentence,
        Supported table claims catalog clause
    · exact .inr (.inr hclauses)
    · simp only [not_forall] at hclauses
      obtain ⟨clause, hclause, hfragment⟩ := hclauses
      obtain ⟨claim, hclaim, hdeclared⟩ := hsentences sentence hsentence clause hclause
      have hwhole : Supported table claims catalog claim.claimText.toList := by
        apply (hclaims claim hclaim).resolve_right
        intro hall
        exact hfragment (hall clause hdeclared)
      exact .inr (.inl
        (hcovered claim hclaim hwhole clause hdeclared hfragment sentence hsentence hclause))

/-! ## A fragment without evidence -/

def sampleText : String := "Led QA but under Al."

def sampleEvidence : EvidenceItem where
  evidenceId := "ev_dec449cf3e65970491d97480"
  sourceKind := .cv
  sourceRef := "cv"
  text := sampleText

def sampleClaim : DraftClaim where
  claimId := "claim_1"
  claimText := sampleText
  evidenceQuotes := [⟨"ev_dec449cf3e65970491d97480", sampleText⟩]

theorem literally_evidenced_sample :
    FragmentsCovered basicCharacters [sampleClaim] [sampleEvidence] [sampleText] ∧
    ∀ sentence ∈ materialSentences basicCharacters [sampleText],
      Evidenced basicCharacters [sampleClaim] [sampleEvidence] sentence := by
  have heligible : (validateClaimEvidence basicCharacters openPolicy [sampleText] [sampleClaim]
      [sampleEvidence]).eligible = true := by decide +kernel
  have hsentences : materialSentences basicCharacters [sampleText] = [sampleText.toList] := by
    decide +kernel
  have hcovered :
      FragmentsCovered basicCharacters [sampleClaim] [sampleEvidence] [sampleText] := by
    intro claim hclaim hwhole clause _ _ sentence hsentence _
    obtain rfl := List.mem_singleton.mp hclaim
    rw [hsentences, List.mem_singleton] at hsentence
    rw [hsentence]
    exact hwhole
  exact ⟨hcovered, (literally_evidenced_iff heligible).mpr hcovered⟩

/-- The second sentence drops the limiting half of the evidence and is accepted. -/
theorem fragment_accepted :
    (validateClaimEvidence basicCharacters openPolicy ["Led QA but under Al. Led QA."]
      [sampleClaim] [sampleEvidence]).eligible = true ∧
    ¬∀ sentence ∈ materialSentences basicCharacters ["Led QA but under Al. Led QA."],
      Evidenced basicCharacters [sampleClaim] [sampleEvidence] sentence := by
  constructor
  · decide +kernel
  · intro hevidenced
    have hunsupported : ∀ clause, quoteSupportsClaimClause basicCharacters clause
        sampleText.toList = false →
        ¬Supported basicCharacters [sampleClaim] [sampleEvidence] clause := by
      rintro clause hfails ⟨quote, ⟨claim, hclaim, binding, hbinding, _, _, _, rfl, _⟩, hquote⟩
      obtain rfl := List.mem_singleton.mp hclaim
      obtain rfl := List.mem_singleton.mp hbinding
      rw [hfails] at hquote
      cases hquote
    have hmem : "Led QA.".toList ∈
        materialSentences basicCharacters ["Led QA but under Al. Led QA."] := by decide +kernel
    rcases hevidenced _ hmem with hexempt | hwhole | hclauses
    · exact absurd hexempt (by decide +kernel)
    · exact hunsupported _ (by decide +kernel) hwhole
    · exact hunsupported "led qa".toList (by decide +kernel)
        (hclauses _ (by decide +kernel))

end JobApplyAgent.Materials
