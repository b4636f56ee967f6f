import JobApplyAgent.Materials.ClaimBinding
import JobApplyAgent.Materials.LiteralEvidence

/-!
# The binder and the validator

When the validator accepts what the binder declares.  The binder proves the factual
clauses of a sentence, the validator all clauses of the declared claim.
-/

namespace JobApplyAgent.Materials

open Library Regex

variable {table : CharacterTable} {policy : ContentPolicy} {catalog : List EvidenceItem}
  {texts : List String}

/-! ## Numbered claims -/

theorem claimId_injective {first second : ℕ}
    (hsame : "claim_" ++ first.repr = "claim_" ++ second.repr) : first = second := by
  have hlist := congrArg String.toList hsame
  rw [String.toList_append, String.toList_append] at hlist
  have hdigits := List.append_cancel_left hlist
  rw [Nat.toList_repr, Nat.toList_repr] at hdigits
  rw [← Nat.ofDigitChars_ten_toDigits (n := first), hdigits, Nat.ofDigitChars_ten_toDigits]

variable {bound : List (List Char × List ClaimEvidenceQuote)} {claim : DraftClaim}

theorem mem_numberedClaims (hclaim : claim ∈ numberedClaims number bound) :
    ∃ entry ∈ bound, ∃ index, number ≤ index ∧ claim = numberedClaim index entry := by
  induction bound generalizing number with
  | nil => cases hclaim
  | cons entry rest ih =>
    rcases List.mem_cons.mp hclaim with rfl | hlater
    · exact ⟨entry, .head _, number, Nat.le_refl _, rfl⟩
    · obtain ⟨later, hmem, index, hindex, rfl⟩ := ih hlater
      exact ⟨later, .tail _ hmem, index, by omega, rfl⟩

theorem exists_numberedClaim (number : ℕ) {entry : List Char × List ClaimEvidenceQuote}
    (hentry : entry ∈ bound) :
    ∃ index, numberedClaim index entry ∈ numberedClaims number bound := by
  induction bound generalizing number with
  | nil => cases hentry
  | cons first rest ih =>
    rcases List.mem_cons.mp hentry with rfl | hlater
    · exact ⟨number, .head _⟩
    · obtain ⟨index, hmem⟩ := ih (number + 1) hlater
      exact ⟨index, .tail _ hmem⟩

theorem numberedClaims_length (number : ℕ)
    (bound : List (List Char × List ClaimEvidenceQuote)) :
    (numberedClaims number bound).length = bound.length := by
  induction bound generalizing number with
  | nil => rfl
  | cons entry rest ih => simp [numberedClaims, ih]

theorem numberedClaims_ids_nodup (number : ℕ)
    (bound : List (List Char × List ClaimEvidenceQuote)) :
    ((numberedClaims number bound).map DraftClaim.claimId).Nodup := by
  induction bound generalizing number with
  | nil => exact List.nodup_nil
  | cons entry rest ih =>
    rw [numberedClaims, List.map_cons, List.nodup_cons]
    refine ⟨?_, ih (number + 1)⟩
    intro hrepeated
    obtain ⟨claim, hclaim, hid⟩ := List.mem_map.mp hrepeated
    obtain ⟨_, _, index, hindex, rfl⟩ := mem_numberedClaims hclaim
    have hsame := claimId_injective hid
    omega

/-! ## One claim -/

/-- The quote is an exact affirmative span of the item of its id, and safe. -/
def quoteHolds (table : CharacterTable) (policy : ContentPolicy) (catalog : List EvidenceItem)
    (binding : ClaimEvidenceQuote) : Bool :=
  (evidenceById catalog binding.evidenceId).any (fun item =>
    quoteIsExactAffirmativeSpan table binding.quote.toList item.text.toList)
  && !policy.containsSensitiveText binding.quote.toList
  && !policy.containsPromptInjection binding.quote.toList

/-- Every clause of the sentence is supported by a quote, and every quote supports one. -/
def ClausesCovered (table : CharacterTable) (sentence : List Char)
    (quotes : List ClaimEvidenceQuote) : Prop :=
  (∀ clause ∈ declaredClaimClauses table sentence,
      ∃ quote ∈ quotes, bindingSupports table clause quote = true) ∧
    ∀ quote ∈ quotes, ∃ clause ∈ declaredClaimClauses table sentence,
      bindingSupports table clause quote = true

theorem claimReason_of_fresh {seen : List String} (hfresh : claim.claimId ∉ seen) :
    claimReason table policy combined catalog seen claim =
      claimReason table policy combined catalog [] claim := by
  simp [claimReason, hfresh]

theorem evidenceById_isSome (hitem : item ∈ catalog) :
    (evidenceById catalog item.evidenceId).isSome = true := by
  rw [evidenceById, Option.isSome_iff_ne_none, Ne, List.getLast?_eq_none_iff,
    List.filter_eq_nil_iff]
  intro hnone
  exact hnone item hitem (by simp)

theorem declaredClaimClauses_ne_nil {claim : List Char}
    (hclaim : (normalizedClause table claim).isEmpty = false) :
    declaredClaimClauses table claim ≠ [] := by
  unfold declaredClaimClauses
  simp only
  split
  · simp [wholeClause, hclaim]
  next hparts => simpa using hparts

/-- A claim that occurs in the material and cites known items is accepted when all its quotes
hold and either support it or cover its clauses. -/
theorem claimReason_eq_none_iff
    (hoccurs : occursIn (normalized table claim.claimText.toList) combined = true)
    (hsafe : policy.containsSensitiveText claim.claimText.toList = false)
    (hquotes : claim.evidenceQuotes ≠ []) (hknown : ∀ quote ∈ claim.evidenceQuotes,
      (evidenceById catalog quote.evidenceId).isSome = true) :
    claimReason table policy combined catalog [] claim = none ↔
      (∀ quote ∈ claim.evidenceQuotes, quoteHolds table policy catalog quote = true) ∧
      clausesSupported table claim claim.evidenceQuotes = true ∧
      quotesUsed table claim claim.evidenceQuotes = true := by
  have hids : (claim.evidenceIds.any fun id => (evidenceById catalog id).isNone) = false := by
    rw [List.any_eq_false]
    intro id hid
    obtain ⟨quote, hquote, rfl⟩ := List.mem_map.mp hid
    simp [Option.isNone_iff_eq_none, ← Option.isSome_iff_ne_none, hknown quote hquote]
  have hexact : exactBindings table policy catalog claim =
      claim.evidenceQuotes.filter (quoteHolds table policy catalog) := rfl
  have hreason : claimReason table policy combined catalog [] claim = none ↔
      clausesSupported table claim (exactBindings table policy catalog claim) = true ∧
        quotesUsed table claim (exactBindings table policy catalog claim) = true := by
    simp [claimReason, hoccurs, hsafe, hquotes, hids]
  rw [hreason, hexact]
  constructor
  · rintro ⟨hsupported, hused⟩
    have hlength := hused
    rw [quotesUsed, Bool.and_eq_true, decide_eq_true_eq] at hlength
    have hall := List.filter_eq_self.mp
      (List.filter_sublist.eq_of_length hlength.1)
    rw [List.filter_eq_self.mpr hall] at hsupported hused
    exact ⟨hall, hsupported, hused⟩
  · rintro ⟨hall, hsupported, hused⟩
    rw [List.filter_eq_self.mpr hall]
    exact ⟨hsupported, hused⟩

theorem supports_ink (hsupports : bindingSupports table sentence quote = true) :
    (normalizedClause table sentence).isEmpty = false := by
  by_contra hempty
  rw [bindingSupports, quoteSupportsClaimClause] at hsupports
  simp [Bool.not_eq_false _ ▸ hempty] at hsupports

/-- The claim of a bound sentence is accepted when its quotes hold and it is supported as a
whole or all its clauses are. -/
theorem bound_accepted_iff (hquotes : boundQuotes table catalog sentence = some quotes)
    (hoccurs : occursIn (normalized table sentence) combined = true)
    (hsafe : policy.containsSensitiveText sentence = false) :
    claimReason table policy combined catalog [] (numberedClaim number (sentence, quotes)) = none ↔
      (∀ quote ∈ quotes, quoteHolds table policy catalog quote = true) ∧
      (literalBinding table catalog sentence ≠ none ∨ ClausesCovered table sentence quotes) := by
  obtain ⟨hne, hcited, hwhole⟩ := boundQuotes_spec hquotes
  have hknown : ∀ quote ∈ quotes, (evidenceById catalog quote.evidenceId).isSome = true := by
    intro quote hquote
    obtain ⟨item, hitem, _, _, _, rfl⟩ := hcited quote hquote
    exact evidenceById_isSome hitem
  rw [claimReason_eq_none_iff (by simpa [numberedClaim] using hoccurs)
    (by simpa [numberedClaim] using hsafe) hne hknown]
  simp only [numberedClaim, clausesSupported, quotesUsed, String.toList_ofList, decide_true,
    Bool.true_and, Bool.and_eq_true, Bool.or_eq_true, List.any_eq_true, List.all_eq_true,
    Bool.not_eq_true']
  apply and_congr_right
  intro _
  rcases hwhole with ⟨hbound, quote, rfl, hsupports⟩ | ⟨hnone, hunsupported⟩
  · have hclauses := declaredClaimClauses_ne_nil (supports_ink hsupports)
    constructor
    · exact fun _ => .inl hbound
    · intro _
      refine ⟨⟨by simpa using hclauses, .inl ⟨quote, .head _, hsupports⟩⟩, ?_⟩
      intro other hother
      rw [List.mem_singleton.mp hother]
      exact .inl hsupports
  · constructor
    · rintro ⟨⟨_, hsupported⟩, hused⟩
      refine .inr ⟨?_, ?_⟩
      · rcases hsupported with ⟨quote, hquote, hsupports⟩ | hall
        · rw [hunsupported quote hquote] at hsupports
          cases hsupports
        · exact hall
      · intro quote hquote
        rcases hused quote hquote with hsupports | hclause
        · rw [hunsupported quote hquote] at hsupports
          cases hsupports
        · exact hclause
    · rintro (hbound | ⟨hall, hused⟩)
      · exact absurd hnone hbound
      · obtain ⟨quote, hquote⟩ := List.exists_mem_of_ne_nil _ hne
        obtain ⟨clause, hclause, _⟩ := hused quote hquote
        exact ⟨⟨List.isEmpty_eq_false_iff.mpr (List.ne_nil_of_mem hclause), .inr hall⟩,
          fun other hother => .inr (hused other hother)⟩

/-! ## The loop over the claims -/

section Loop

theorem fresh_after_first {first : DraftClaim}
    (hids : ((first :: rest).map DraftClaim.claimId).Nodup)
    (hfresh : ∀ claim ∈ first :: rest, claim.claimId ∉ progress.seenClaimIds) :
    ∀ claim ∈ rest, claim.claimId ∉
      (validateClaim table policy combined catalog progress first).seenClaimIds := by
  rw [List.map_cons, List.nodup_cons] at hids
  intro claim hclaim
  simp only [validateClaim, List.mem_append, List.mem_singleton, not_or]
  refine ⟨hfresh claim (.tail _ hclaim), ?_⟩
  intro hsame
  exact hids.1 (List.mem_map.mpr ⟨claim, hclaim, hsame⟩)

variable {claims : List DraftClaim}

theorem results_supported_iff (progress : ClaimProgress)
    (hids : (claims.map DraftClaim.claimId).Nodup)
    (hfresh : ∀ claim ∈ claims, claim.claimId ∉ progress.seenClaimIds) :
    (∀ result ∈ (claims.foldl (validateClaim table policy combined catalog) progress).results,
        result.supported = true) ↔
      (∀ result ∈ progress.results, result.supported = true) ∧
        ∀ claim ∈ claims, claimReason table policy combined catalog [] claim = none := by
  induction claims generalizing progress with
  | nil => simp
  | cons first rest ih =>
    have hlater := (List.nodup_cons.mp hids).2
    rw [List.foldl_cons, ih _ hlater (fresh_after_first hids hfresh)]
    simp only [validateClaim, claimReason_of_fresh (hfresh first (.head _)), List.mem_append,
      List.mem_singleton, List.forall_mem_cons]
    constructor
    · rintro ⟨hresults, hlater⟩
      refine ⟨fun result hresult => hresults result (.inl hresult), ?_, hlater⟩
      simpa [claimEvidenceRef] using hresults _ (.inr rfl)
    · rintro ⟨hresults, hfirst, hlater⟩
      refine ⟨?_, hlater⟩
      rintro result (hresult | rfl)
      · exact hresults result hresult
      · simp [claimEvidenceRef, hfirst]

theorem foldl_accepted (progress : ClaimProgress) (hids : (claims.map DraftClaim.claimId).Nodup)
    (hfresh : ∀ claim ∈ claims, claim.claimId ∉ progress.seenClaimIds)
    (haccepted : ∀ claim ∈ claims, claimReason table policy combined catalog [] claim = none) :
    (claims.foldl (validateClaim table policy combined catalog) progress).blockers =
        progress.blockers ∧
      (claims.foldl (validateClaim table policy combined catalog)
          progress).supportedClaimClauses =
        progress.supportedClaimClauses ++
          claims.flatMap fun claim => declaredClaimClauses table claim.claimText.toList := by
  induction claims generalizing progress with
  | nil => simp
  | cons first rest ih =>
    have hlater := (List.nodup_cons.mp hids).2
    have hnone : claimReason table policy combined catalog progress.seenClaimIds first = none :=
      (claimReason_of_fresh (hfresh first (.head _))).trans (haccepted first (.head _))
    obtain ⟨hblockers, hclauses⟩ :=
      ih _ hlater (fresh_after_first hids hfresh) fun claim hclaim => haccepted claim
        (.tail _ hclaim)
    rw [List.foldl_cons, hblockers, hclauses]
    simp [validateClaim, hnone]

end Loop

/-! ## Agreement -/

/-- No sentence of the material is sensitive or prohibited. -/
def CleanMaterial (table : CharacterTable) (policy : ContentPolicy) (texts : List String) :
    Prop :=
  ∀ sentence ∈ materialSentences table texts,
    policy.containsSensitiveText sentence = false ∧
      policy.containsPromptInjection sentence = false ∧
      (prohibitedGeneratedContentRe table).search sentence = false

/-- Every sentence with factual clauses is the text of a claim, up to case and blanks. -/
def BindsAll (table : CharacterTable) (texts : List String) (claims : List DraftClaim) : Prop :=
  ∀ sentence ∈ materialSentences table texts, factualClauses table sentence ≠ [] →
    ∃ claim ∈ claims, normalized table claim.claimText.toList = normalized table sentence

/-- The binder returns, the validator supports all its claims, and where it binds every
sentence, under the limit on the claims, the validation is eligible. -/
def BinderAgrees (table : CharacterTable) (policy : ContentPolicy) (texts : List String)
    (catalog : List EvidenceItem) : Prop :=
  ∃ claims, bindGeneratedClaims table texts catalog = some claims ∧
    (∀ result ∈ (validateClaimEvidence table policy texts claims catalog).claims,
      result.supported = true) ∧
    (claims.length < maxBoundClaims → BindsAll table texts claims →
      (validateClaimEvidence table policy texts claims catalog).eligible = true)

/-- What the validator asks of the bound sentences beyond what the binder proves. -/
structure BoundWell (table : CharacterTable) (policy : ContentPolicy) (texts : List String)
    (catalog : List EvidenceItem) : Prop where
  fits : ∀ bound ∈ boundSentences table texts catalog, bound.1.length ≤ maxClaimTextChars
  quoted : ∀ bound ∈ boundSentences table texts catalog, ∀ quote ∈ bound.2,
    quoteHolds table policy catalog quote = true
  covered : ∀ bound ∈ boundSentences table texts catalog,
    literalBinding table catalog bound.1 ≠ none ∨ ClausesCovered table bound.1 bound.2
  declared : (boundSentences table texts catalog).length < maxBoundClaims →
    (∀ sentence ∈ materialSentences table texts, factualClauses table sentence ≠ [] →
      ∃ bound ∈ boundSentences table texts catalog,
        normalized table bound.1 = normalized table sentence) →
    ∀ sentence ∈ materialSentences table texts, ∀ clause ∈ factualClauses table sentence,
      ∃ bound ∈ boundSentences table texts catalog, clause ∈ declaredClaimClauses table bound.1

theorem bindsAll_numbered_iff :
    BindsAll table texts (numberedClaims 1 bound) ↔
      ∀ sentence ∈ materialSentences table texts, factualClauses table sentence ≠ [] →
        ∃ entry ∈ bound, normalized table entry.1 = normalized table sentence := by
  constructor
  · intro hall sentence hsentence hclauses
    obtain ⟨claim, hclaim, hsame⟩ := hall sentence hsentence hclauses
    obtain ⟨entry, hentry, index, _, rfl⟩ := mem_numberedClaims hclaim
    exact ⟨entry, hentry, by simpa [numberedClaim] using hsame⟩
  · intro hall sentence hsentence hclauses
    obtain ⟨entry, hentry, hsame⟩ := hall sentence hsentence hclauses
    obtain ⟨index, hclaim⟩ := exists_numberedClaim 1 hentry
    exact ⟨_, hclaim, by simpa [numberedClaim] using hsame⟩

theorem declares_numbered_iff :
    (∀ sentence ∈ materialSentences table texts, ∀ clause ∈ factualClauses table sentence,
        ∃ claim ∈ numberedClaims 1 bound,
          clause ∈ declaredClaimClauses table claim.claimText.toList) ↔
      ∀ sentence ∈ materialSentences table texts, ∀ clause ∈ factualClauses table sentence,
        ∃ entry ∈ bound, clause ∈ declaredClaimClauses table entry.1 := by
  constructor
  · intro hall sentence hsentence clause hclause
    obtain ⟨claim, hclaim, hdeclared⟩ := hall sentence hsentence clause hclause
    obtain ⟨entry, hentry, index, _, rfl⟩ := mem_numberedClaims hclaim
    exact ⟨entry, hentry, by simpa [numberedClaim] using hdeclared⟩
  · intro hall sentence hsentence clause hclause
    obtain ⟨entry, hentry, hdeclared⟩ := hall sentence hsentence clause hclause
    obtain ⟨index, hclaim⟩ := exists_numberedClaim 1 hentry
    exact ⟨_, hclaim, by simpa [numberedClaim] using hdeclared⟩

/-- A validation that supports every claim of a clean material is eligible when every factual
clause is a declared one. -/
theorem eligible_iff (hclean : CleanMaterial table policy texts)
    (hids : (claims.map DraftClaim.claimId).Nodup)
    (hsupported : ∀ result ∈ (validateClaimEvidence table policy texts claims catalog).claims,
      result.supported = true) :
    (validateClaimEvidence table policy texts claims catalog).eligible = true ↔
      ∀ sentence ∈ materialSentences table texts, ∀ clause ∈ factualClauses table sentence,
        ∃ claim ∈ claims, clause ∈ declaredClaimClauses table claim.claimText.toList := by
  have haccepted := ((results_supported_iff ⟨[], [], [], []⟩ hids (by simp)).mp hsupported).2
  obtain ⟨hblockers, hclauses⟩ := foldl_accepted ⟨[], [], [], []⟩ hids (by simp) haccepted
  have hsentence : ∀ sentence ∈ materialSentences table texts,
      sentenceBlockers table policy
          (claims.flatMap fun claim => declaredClaimClauses table claim.claimText.toList)
          sentence = [] ↔
        ∀ clause ∈ factualClauses table sentence,
          ∃ claim ∈ claims, clause ∈ declaredClaimClauses table claim.claimText.toList := by
    intro sentence hmem
    obtain ⟨hsafe, hhonest, hallowed⟩ := hclean sentence hmem
    simp [sentenceBlockers, hsafe, hhonest, hallowed]
  constructor
  · intro heligible sentence hmem clause hclause
    exact (eligible_covers heligible).2 sentence hmem clause hclause
  · intro hdeclared
    rw [ClaimValidation.eligible, Bool.and_eq_true, List.all_eq_true]
    refine ⟨?_, hsupported⟩
    rw [List.isEmpty_iff, validateClaimEvidence]
    simp only [hblockers, hclauses, List.nil_append]
    have hnone : (materialSentences table texts).flatMap (sentenceBlockers table policy
        (claims.flatMap fun claim => declaredClaimClauses table claim.claimText.toList)) = [] := by
      rw [List.flatMap_eq_nil_iff]
      exact fun sentence hmem => (hsentence sentence hmem).mpr (hdeclared sentence hmem)
    rw [hnone]
    rfl

/-- The validator supports the claims of the bound sentences when their quotes hold and each
is supported as a whole or clause by clause. -/
theorem bound_supported_iff (catalog : List EvidenceItem) (hspace : table.isBlank ' ' = true)
    (hclean : CleanMaterial table policy texts) :
    (∀ result ∈ (validateClaimEvidence table policy texts
        (numberedClaims 1 (boundSentences table texts catalog)) catalog).claims,
        result.supported = true) ↔
      ∀ bound ∈ boundSentences table texts catalog,
        (∀ quote ∈ bound.2, quoteHolds table policy catalog quote = true) ∧
        (literalBinding table catalog bound.1 ≠ none ∨
          ClausesCovered table bound.1 bound.2) := by
  apply (results_supported_iff ⟨[], [], [], []⟩
    (numberedClaims_ids_nodup 1 (boundSentences table texts catalog)) (by simp)).trans
  constructor
  · rintro ⟨_, haccepted⟩ bound hbound
    obtain ⟨hsentence, hquotes⟩ := mem_boundSentences hbound
    obtain ⟨index, hclaim⟩ := exists_numberedClaim 1 hbound
    exact (bound_accepted_iff hquotes (sentence_occurs hspace hsentence)
      (hclean _ hsentence).1).mp (haccepted _ hclaim)
  · intro hwell
    refine ⟨by simp, ?_⟩
    intro claim hclaim
    obtain ⟨bound, hbound, index, _, rfl⟩ := mem_numberedClaims hclaim
    obtain ⟨hsentence, hquotes⟩ := mem_boundSentences hbound
    exact (bound_accepted_iff hquotes (sentence_occurs hspace hsentence)
      (hclean _ hsentence).1).mpr (hwell bound hbound)

/-- The binder and the validator agree exactly where every bound sentence fits, its quotes
hold and cover all its clauses, and no factual clause is split off otherwise. -/
theorem binder_agrees_iff (hspace : table.isBlank ' ' = true)
    (hclean : CleanMaterial table policy texts) :
    BinderAgrees table policy texts catalog ↔ BoundWell table policy texts catalog := by
  have hids := numberedClaims_ids_nodup 1 (boundSentences table texts catalog)
  have hsupports := bound_supported_iff catalog hspace hclean
  have hfits : (boundSentences table texts catalog).all claimFits = true ↔
      ∀ bound ∈ boundSentences table texts catalog, bound.1.length ≤ maxClaimTextChars := by
    simp [claimFits]
  constructor
  · rintro ⟨claims, hclaims, hall, heligible⟩
    rw [bindGeneratedClaims_eq, Option.ite_none_right_eq_some] at hclaims
    obtain ⟨hfit, hsame⟩ := hclaims
    cases hsame
    have hwell := hsupports.mp hall
    refine ⟨hfits.mp hfit, fun bound hbound => (hwell bound hbound).1,
      fun bound hbound => (hwell bound hbound).2, ?_⟩
    intro hroom hbinds
    rw [numberedClaims_length] at heligible
    exact declares_numbered_iff.mp ((eligible_iff hclean hids hall).mp
      (heligible hroom (bindsAll_numbered_iff.mpr hbinds)))
  · intro hwell
    have hall := hsupports.mpr fun bound hbound =>
      ⟨hwell.quoted bound hbound, hwell.covered bound hbound⟩
    refine ⟨_, by rw [bindGeneratedClaims_eq, if_pos (hfits.mpr hwell.fits)], hall, ?_⟩
    intro hroom hbinds
    rw [numberedClaims_length] at hroom
    apply (eligible_iff hclean hids hall).mpr
    exact declares_numbered_iff.mpr (hwell.declared hroom (bindsAll_numbered_iff.mp hbinds))

/-! ## A sentence with a safe clause -/

def ledEvidence : EvidenceItem where
  evidenceId := "ev_efcdd131786cb7d71e206409"
  sourceKind := .cv
  sourceRef := "cv"
  text := "I led QA."

theorem binder_agrees_sample :
    BoundWell basicCharacters openPolicy ["I led QA."] [ledEvidence] ∧
    BinderAgrees basicCharacters openPolicy ["I led QA."] [ledEvidence] := by
  have hsentences : materialSentences basicCharacters ["I led QA."] = ["I led QA.".toList] := by
    decide +kernel
  have hbound : boundSentences basicCharacters ["I led QA."] [ledEvidence] =
      [("I led QA.".toList, [⟨ledEvidence.evidenceId, "I led QA."⟩])] := by
    decide +kernel
  have hwell : BoundWell basicCharacters openPolicy ["I led QA."] [ledEvidence] := by
    refine ⟨?_, ?_, ?_, ?_⟩
    all_goals
      rw [hbound]
      simp only [List.mem_singleton, forall_eq, exists_eq_left, hsentences]
    · decide +kernel
    · decide +kernel
    · exact .inl (by decide +kernel)
    · intro _ _
      decide +kernel
  refine ⟨hwell, (binder_agrees_iff (by decide) ?_).mpr hwell⟩
  rw [CleanMaterial, hsentences, List.forall_mem_singleton]
  decide +kernel

/-- The safe half of the sentence is left out by the binder and required by the validator. -/
theorem safe_clause_unsupported :
    CleanMaterial basicCharacters openPolicy ["I led QA and I am excited about this role."] ∧
    ¬BinderAgrees basicCharacters openPolicy ["I led QA and I am excited about this role."]
      [ledEvidence] := by
  have hsentences :
      materialSentences basicCharacters ["I led QA and I am excited about this role."] =
        ["I led QA and I am excited about this role.".toList] := by
    decide +kernel
  constructor
  · rw [CleanMaterial, hsentences, List.forall_mem_singleton]
    decide +kernel
  · rintro ⟨claims, hclaims, hsupported, _⟩
    have hrefused : (bindGeneratedClaims basicCharacters
        ["I led QA and I am excited about this role."] [ledEvidence]).all (fun claims =>
          (validateClaimEvidence basicCharacters openPolicy
            ["I led QA and I am excited about this role."] claims [ledEvidence]).claims.all
              ClaimEvidenceRef.supported) = false := by
      decide +kernel
    rw [hclaims, Option.all_some, List.all_eq_true.mpr hsupported] at hrefused
    cases hrefused

end JobApplyAgent.Materials
