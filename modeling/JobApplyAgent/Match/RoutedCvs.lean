import JobApplyAgent.Match.CvRouting

/-!
# Selections that rest on evidence

What a selection without a fallback reason is made of: the CV, its excerpt in the prompt, the
digest of its evidence, and terms that are found in the excerpt.  A term is found as a run of
characters, which may be a part of a longer word.
-/

namespace JobApplyAgent.Match

open Library
open Forms (isSha256Digest)
open Materials (infix_of_occursIn nonSensitiveCvExcerpt)

variable {candidates : Candidates}

/-! ## Candidates -/

def RoutingEvidence.text : RoutingEvidence → String
  | bound evidence => evidence.excerpt
  | unbound excerpt => excerpt

def RoutingEvidence.sha256 : RoutingEvidence → Option String
  | bound evidence => some evidence.pdfSha256
  | unbound _ => none

variable {config : CVRoutingConfig}

/-- The excerpts and the digests of candidates are those of the evidence for their ids. -/
structure FromEvidence (policy : RoutingPolicy) (cvExcerpts : List (String × RoutingEvidence))
    (candidates : Candidates) : Prop where
  excerpts : ∀ item ∈ candidates.excerpts, ∃ evidence, get cvExcerpts item.1 = some evidence ∧
    item.2 = nonSensitiveCvExcerpt policy.table policy.content evidence.text.toList excerptChars
  hashes : ∀ item ∈ candidates.hashes, ∃ evidence, get cvExcerpts item.1 = some evidence ∧
    item.2 = evidence.sha256 ∧ ∀ bound, evidence = .bound bound → bound.cvId = item.1

variable {next : Candidates} {value : String} {isWord : Char → Bool}

theorem FromEvidence.addExcerpt (hfrom : FromEvidence policy cvExcerpts candidates)
    (hfound : get cvExcerpts cv.id = some evidence)
    (hid : ∀ bound, evidence = .bound bound → bound.cvId = cv.id)
    (hadd : addExcerpt policy candidates cv evidence.text evidence.sha256 = some next) :
    FromEvidence policy cvExcerpts next := by
  simp only [Match.addExcerpt] at hadd
  split at hadd
  · cases hadd
    exact hfrom
  · split at hadd
    · cases hadd
    split at hadd
    · cases hadd
      exact hfrom
    · cases hadd
      constructor
      · intro item hitem
        rcases List.mem_append.mp hitem with hold | hnew
        · exact hfrom.excerpts item hold
        rw [List.mem_singleton.mp hnew]
        dsimp only
        refine ⟨evidence, hfound, ?_⟩
        rfl
      · intro item hitem
        rcases List.mem_append.mp hitem with hold | hnew
        · exact hfrom.hashes item hold
        · rw [List.mem_singleton.mp hnew]
          exact ⟨evidence, hfound, rfl, hid⟩

theorem FromEvidence.addCandidate (hfrom : FromEvidence policy cvExcerpts candidates)
    (hadd : addCandidate policy cvExcerpts candidates cv = some next) :
    FromEvidence policy cvExcerpts next := by
  rw [Match.addCandidate] at hadd
  split at hadd
  · cases hadd
    exact hfrom
  · next evidence hfound =>
    split at hadd
    · cases hadd
    next hid =>
    have hbound : ∀ bound, RoutingEvidence.bound evidence = .bound bound →
        bound.cvId = cv.id := by
      intro bound hbound
      cases hbound
      exact not_not.mp hid
    exact FromEvidence.addExcerpt hfrom hfound hbound hadd
  · next raw hfound =>
    have hbound : ∀ bound, RoutingEvidence.unbound raw = .bound bound → bound.cvId = cv.id :=
      nofun
    exact FromEvidence.addExcerpt hfrom hfound hbound hadd

/-- All candidates come from the evidence. -/
theorem fromEvidence_of_configured
    (hconfigured : configuredCandidates policy config cvExcerpts = some candidates) :
    FromEvidence policy cvExcerpts candidates := by
  have hrun : ∀ (cvs : List CVDefinition) (start : Candidates),
      FromEvidence policy cvExcerpts start →
        cvs.foldlM (addCandidate policy cvExcerpts) start = some candidates →
          FromEvidence policy cvExcerpts candidates := by
    intro cvs
    induction cvs with
    | nil =>
      intro start hstart hfold
      cases hfold
      exact hstart
    | cons cv cvs ih =>
      intro start hstart hfold
      rw [List.foldlM_cons, Option.bind_eq_bind, Option.bind_eq_some_iff] at hfold
      obtain ⟨next, hnext, hrest⟩ := hfold
      exact ih next (hstart.addCandidate hnext) hrest
  exact hrun config.cvs ⟨[], []⟩ ⟨List.forall_mem_nil _, List.forall_mem_nil _⟩ hconfigured

/-! ## The prompt -/

/-- What is shown of an excerpt: its first segments, whole and at least one. -/
def Shows (value excerpt : List Char) : Prop :=
  ∃ taken pending, taken ≠ [] ∧ taken ++ pending = segments excerpt ∧
    value = ['\n'].intercalate taken

/-- An allocation parts the segments of an excerpt. -/
def Parts (excerpt : List Char) (allocation : Allocation) : Prop :=
  allocation.taken ≠ [] ∧ allocation.taken ++ allocation.pending = segments excerpt

theorem parts_allocateRound (hparts : List.Forall₂ Parts excerpts allocations) (remaining : ℤ) :
    List.Forall₂ Parts excerpts (allocateRound allocations remaining).1 := by
  induction hparts generalizing remaining with
  | nil => exact .nil
  | @cons excerpt allocation _ _ hfirst _ ih =>
    rw [allocateRound.eq_def]
    simp only
    split
    · exact .cons hfirst (ih _)
    next next pending hpending =>
    split
    · exact .cons hfirst (ih _)
    refine .cons ⟨List.append_ne_nil_of_right_ne_nil _ (List.cons_ne_nil _ _), ?_⟩ (ih _)
    rw [← hfirst.2, hpending, List.append_assoc, List.singleton_append]

theorem parts_allocate (fuel : ℕ) (remaining : ℤ)
    (hparts : List.Forall₂ Parts excerpts allocations) :
    List.Forall₂ Parts excerpts (allocate fuel allocations remaining) := by
  induction fuel generalizing allocations remaining with
  | zero => exact hparts
  | succ fuel ih =>
    rw [allocate]
    split
    · simp only
      split
      · exact ih _ (parts_allocateRound hparts remaining)
      · exact parts_allocateRound hparts remaining
    · exact hparts

theorem parts_start (hstarted : excerpts.mapM startAllocation = some started) :
    List.Forall₂ Parts excerpts started := by
  induction excerpts generalizing started with
  | nil =>
    cases hstarted
    exact .nil
  | cons excerpt excerpts ih =>
    simp only [List.mapM_cons, Option.bind_eq_bind, Option.bind_eq_some_iff] at hstarted
    obtain ⟨first, hfirst, rest, hrest, hsome⟩ := hstarted
    cases hsome
    rw [startAllocation] at hfirst
    split at hfirst
    · cases hfirst
    next segment later hsegments =>
    cases hfirst
    exact .cons ⟨List.cons_ne_nil _ _, hsegments.symm⟩ (ih hrest)

theorem infix_array (hitem : item ∈ items) :
    item <:+: JsonText.array items := by
  have hclosing : ∀ items : List (List Char), item ∈ items → item <:+: JsonText.closing items := by
    intro items
    induction items with
    | nil => exact nofun
    | cons first items ih =>
      intro hmem
      rw [JsonText.closing]
      rcases List.mem_cons.mp hmem with rfl | hlater
      · exact ⟨[','], JsonText.closing items, by simp⟩
      · exact (ih hlater).trans (List.suffix_append (',' :: first) _).isInfix
  cases items with
  | nil => cases hitem
  | cons first items =>
    rw [JsonText.array]
    rcases List.mem_cons.mp hitem with rfl | hlater
    · exact ⟨['['], JsonText.closing items, by simp⟩
    · exact (hclosing items hlater).trans (List.suffix_append ('[' :: first) _).isInfix

theorem infix_renderPrompt (title description : List Char)
    {candidates : List (String × List Char)} (hcandidate : candidate ∈ candidates) :
    candidateJson candidate <:+: renderPrompt title description candidates := by
  have harray := infix_array (List.mem_map_of_mem (f := candidateJson) hcandidate)
  exact harray.trans ⟨_, _, rfl⟩

/-- Each shown candidate is in the prompt, with a front of its excerpt. -/
theorem shown_of_bounded {candidates : List (String × List Char)}
    (hbounded : boundedRoutingPrompt policy job candidates maxPromptChars =
      some (prompt, included)) :
    ∀ item ∈ included, candidateJson item <:+: prompt ∧
      ∃ excerpt, (item.1, excerpt) ∈ candidates ∧ Shows item.2 excerpt := by
  simp only [boundedRoutingPrompt, Option.bind_eq_bind, Option.bind_eq_some_iff, Option.pure_def,
    Option.some.injEq, Prod.mk.injEq] at hbounded
  obtain ⟨_, _, started, hstarted, _, _, _, _, hprompt, hincluded⟩ := hbounded
  have hstart : List.Forall₂ Parts (candidates.map Prod.snd) started := by
    refine parts_start ?_
    rw [List.mapM_map]
    exact hstarted
  intro item hitem
  refine ⟨?_, ?_⟩
  · rw [← hprompt]
    rw [← hincluded] at hitem
    exact infix_renderPrompt _ _ hitem
  · rw [← hincluded] at hitem
    obtain ⟨⟨candidate, allocation⟩, hzip, rfl⟩ := List.mem_map.mp hitem
    obtain ⟨htaken, hsegments⟩ := List.forall₂_zip
      (List.forall₂_map_left_iff.mp (parts_allocate _ _ hstart)) hzip
    exact ⟨candidate.2, (List.of_mem_zip hzip).1, _, _, htaken, hsegments, rfl⟩

/-! ## Terms -/

/-- A part of a text that no word goes on beyond. -/
def OccursWhole (isWord : Char → Bool) (part text : List Char) : Prop :=
  ∃ before after, before ++ part ++ after = text ∧
    (∀ character ∈ before.getLast?, isWord character = false) ∧
      ∀ character ∈ after.head?, isWord character = false

section Terms

variable {table : CharacterTable}

/-- What the loop has verified so far is what it renders of the verified phrases. -/
theorem foldl_addTerm (values seen : List String) (verified : List String) (hseen : ∀ item,
    item ∈ verified ↔ ∃ value ∈ seen, isVerified table cvText value = true ∧
      item = renderedTerm table value) (hlength : verified.length ≤ seen.length) :
    (values.foldl (addTerm table cvText) verified).length ≤ (seen ++ values).length ∧
      ∀ item, item ∈ values.foldl (addTerm table cvText) verified ↔
        ∃ value ∈ seen ++ values, isVerified table cvText value = true ∧
          item = renderedTerm table value := by
  induction values generalizing seen verified with
  | nil =>
    rw [List.append_nil]
    exact ⟨hlength, hseen⟩
  | cons value values ih =>
    have hassoc : seen ++ value :: values = (seen ++ [value]) ++ values := by simp
    rw [List.foldl_cons, hassoc]
    apply ih
    · intro item
      have hsplit : (∃ found ∈ seen ++ [value], isVerified table cvText found = true ∧
          item = renderedTerm table found) ↔ item ∈ verified ∨
            isVerified table cvText value = true ∧ item = renderedTerm table value := by
        rw [hseen item]
        simp only [List.mem_append, List.mem_singleton]
        constructor
        · rintro ⟨found, hfound | rfl, hverified⟩
          · exact .inl ⟨found, hfound, hverified⟩
          · exact .inr hverified
        · rintro (⟨found, hfound, hverified⟩ | hverified)
          · exact ⟨found, .inl hfound, hverified⟩
          · exact ⟨value, .inr rfl, hverified⟩
      rw [hsplit, addTerm]
      split
      · next hskipped =>
        refine ⟨.inl, ?_⟩
        rintro (hold | ⟨hverified, rfl⟩)
        · exact hold
        · rw [hverified, Bool.not_true, Bool.false_or] at hskipped
          exact List.contains_iff_mem.mp hskipped
      · next hadded =>
        rw [Bool.or_eq_true, not_or, Bool.not_eq_true', Bool.not_eq_false] at hadded
        rw [List.mem_append, List.mem_singleton]
        exact or_congr_right ⟨fun hitem => ⟨hadded.1, hitem⟩, And.right⟩
    · rw [addTerm, List.length_append, List.length_singleton]
      split
      · omega
      rw [List.length_append, List.length_singleton]
      omega

theorem mem_verifiedEvidenceTerms (hbounded : values.length ≤ 6) :
    item ∈ verifiedEvidenceTerms table values cvText ↔
      ∃ value ∈ values, isVerified table cvText value = true ∧
        item = renderedTerm table value := by
  obtain ⟨hlength, hmem⟩ := @foldl_addTerm table cvText values [] [] (by simp) (Nat.le_refl _)
  rw [List.nil_append] at hlength
  rw [verifiedEvidenceTerms, List.take_of_length_le (by omega), hmem, List.nil_append]

theorem length_verifiedEvidenceTerms : (verifiedEvidenceTerms table values cvText).length ≤ 6 :=
  List.length_take_le _ _

end Terms

/-! ## Selections -/

/-- A selection rests on the evidence that the model was shown. -/
structure RestsOnEvidence (policy : RoutingPolicy) (config : CVRoutingConfig)
    (cvExcerpts : List (String × RoutingEvidence)) (prepared : PreparedPrompt)
    (decision : RoutingDecision) (cv : CVDefinition) (evidence : CVRoutingEvidenceV1)
    (excerpt : List Char) : Prop where
  configured : cv ∈ config.cvs
  selectedId : decision.selectedCvId = some cv.id
  selectedFile : decision.selectedFile = some cv.file
  found : get cvExcerpts cv.id = some (.bound evidence)
  sameCv : evidence.cvId = cv.id
  hash : decision.selectedCvHash = some evidence.pdfSha256
  included : get prepared.includedExcerpts cv.id = some excerpt
  inPrompt : candidateJson (cv.id, excerpt) <:+: prepared.prompt
  shown : Shows excerpt (nonSensitiveCvExcerpt policy.table policy.content
    evidence.excerpt.toList excerptChars)
  confidence : config.minimumConfidence ≤ decision.confidence
  count : 1 ≤ decision.matchedEvidence.length ∧ decision.matchedEvidence.length ≤ 6
  terms : ∀ item ∈ decision.matchedEvidence, ∃ term : List Char,
    item = String.ofList ("llm_term:".toList ++ term) ∧
      term <:+: normalizedCv policy.table excerpt

/-- Every term that is listed stands in an excerpt between words. -/
def TermsWhole (policy : RoutingPolicy) (decision : RoutingDecision) (excerpt : List Char) : Prop :=
  ∀ item ∈ decision.matchedEvidence, ∃ term : List Char,
    item = String.ofList ("llm_term:".toList ++ term) ∧
      OccursWhole policy.table.isWord term (normalizedCv policy.table excerpt)

theorem validated_abstained (reason : String) :
    (abstained reason).validated = .ok (abstained reason) :=
  rfl

theorem mem_of_get {α : Type} {mapping : List (String × α)} {key : String} {item : α}
    (hget : get mapping key = some item) : (key, item) ∈ mapping := by
  obtain ⟨⟨found, value⟩, hfound, rfl⟩ := Option.map_eq_some_iff.mp hget
  have hkey : found = key := by
    simpa using List.find?_some hfound
  exact hkey ▸ List.mem_of_find?_eq_some hfound

/-- What a prepared prompt says of the CV behind one of its excerpts. -/
theorem evidence_of_prepared
    (hprepared : preparedPrompt policy job config cvExcerpts client = .ok prepared) {id : String}
    (hexcerpt : get prepared.includedExcerpts id = some excerpt) :
    candidateJson (id, excerpt) <:+: prepared.prompt ∧
      ∃ evidence, get cvExcerpts id = some evidence ∧
        Shows excerpt (nonSensitiveCvExcerpt policy.table policy.content evidence.text.toList
          excerptChars) ∧
        ∀ hash, get prepared.candidateHashes id = some hash →
          hash = evidence.sha256 ∧ ∀ bound, evidence = .bound bound → bound.cvId = id := by
  rw [preparedPrompt.eq_def] at hprepared
  split at hprepared
  · cases hprepared
  split at hprepared
  · cases hprepared
  split at hprepared
  · cases hprepared
  next candidates hcandidates =>
  have hfrom := fromEvidence_of_configured hcandidates
  split at hprepared
  · cases hprepared
  split at hprepared
  · cases hprepared
  next prompt included hbounded =>
  cases hprepared
  obtain ⟨hjson, whole, hwhole, hshows⟩ :=
    shown_of_bounded hbounded _ (mem_of_get hexcerpt)
  obtain ⟨evidence, hevidence, hsource⟩ := hfrom.excerpts _ hwhole
  refine ⟨hjson, evidence, hevidence, hsource ▸ hshows, fun hash hhash => ?_⟩
  obtain ⟨other, hother, hsame, hid⟩ := hfrom.hashes _ (mem_of_get hhash)
  cases hevidence.symm.trans hother
  exact ⟨hsame, hid⟩

/-- What becomes of a reply, and when it is a selection without a reason to fall back. -/
theorem settleReply_spec
    (hprepared : preparedPrompt policy job config cvExcerpts client = .ok prepared)
    (reply : CVRoutingLLMResponseV1) :
    ∃ decision, settleReply policy config prepared reply = .ok decision ∧
      (decision.fallbackReason = none → ∃ cv evidence excerpt,
        RestsOnEvidence policy config cvExcerpts prepared decision cv evidence excerpt ∧
          reply.selectedCvId = some cv.id ∧
          get prepared.candidateHashes cv.id = some (some evidence.pdfSha256) ∧
          decision.confidence = reply.confidence ∧
          decision.matchedEvidence =
            verifiedEvidenceTerms policy.table reply.matchedEvidence excerpt) := by
  rw [settleReply.eq_def]
  split
  · exact ⟨_, validated_abstained _, nofun⟩
  next selected hselected =>
  obtain ⟨id, hid, hfind⟩ := Option.bind_eq_some_iff.mp hselected
  have hsame : selected.id = id := by
    simpa using List.find?_some hfind
  split
  · exact ⟨_, validated_abstained _, nofun⟩
  next excerpt hexcerpt =>
  obtain ⟨hjson, source, hsource, hshows, hhashes⟩ :=
    evidence_of_prepared hprepared hexcerpt
  have hvalid : ((get prepared.candidateHashes selected.id).join.all isSha256Digest) =
      true := by
    cases hhash : get prepared.candidateHashes selected.id with
    | none => rfl
    | some hash =>
      rw [(hhashes hash hhash).1]
      cases source with
      | bound evidence => exact evidence.digestValid
      | unbound raw => rfl
  refine ⟨_, if_pos hvalid, fun hnone => ?_⟩
  simp only [selectionFallback] at hnone
  split at hnone
  · cases hnone
  next hbound =>
  obtain ⟨digest, hdigest⟩ := Option.ne_none_iff_exists'.mp hbound
  rw [Option.join_eq_some_iff] at hdigest
  split at hnone
  · cases hnone
  next hterms =>
  split at hnone
  · cases hnone
  next hconfident =>
  obtain ⟨hdigests, hcv⟩ := hhashes _ hdigest
  cases source with
  | unbound raw => cases hdigests
  | bound evidence =>
    cases hdigests
    refine ⟨selected, evidence, excerpt, ?_, hsame ▸ hid, hdigest, rfl, rfl⟩
    exact {
      configured := List.mem_of_find?_eq_some hfind
      selectedId := rfl
      selectedFile := rfl
      found := hsource
      sameCv := hcv evidence rfl
      hash := by
        rw [hdigest]
        rfl
      included := hexcerpt
      inPrompt := hjson
      shown := hshows
      confidence := not_lt.mp hconfident
      count := ⟨List.length_pos_iff.mpr (by simpa using hterms),
        length_verifiedEvidenceTerms⟩
      terms := by
        intro item hitem
        obtain ⟨value, _, hverified, hrendered⟩ :=
          (mem_verifiedEvidenceTerms reply.evidenceBounded).mp hitem
        rw [isVerified, Bool.and_eq_true] at hverified
        exact ⟨_, hrendered, infix_of_occursIn hverified.2⟩ }

/-- The call returns, and a selection without a reason to fall back rests on evidence, its terms
whole words of the excerpt. -/
def RoutesOnEvidence (policy : RoutingPolicy) (job : RoutingJob) (config : CVRoutingConfig)
    (cvExcerpts : List (String × RoutingEvidence)) (client : LLMClient) : Prop :=
  ∃ decision, selectCvViaLlm policy job config cvExcerpts client = .ok decision ∧
    (decision.fallbackReason = none → ∃ prepared cv evidence excerpt,
      preparedPrompt policy job config cvExcerpts client = .ok prepared ∧
        RestsOnEvidence policy config cvExcerpts prepared decision cv evidence excerpt ∧
          TermsWhole policy decision excerpt)

/-- A reply that is sure enough of a CV with bound evidence has no phrase that its excerpt has
only inside longer words. -/
def PhrasesWhole (policy : RoutingPolicy) (job : RoutingJob) (config : CVRoutingConfig)
    (cvExcerpts : List (String × RoutingEvidence)) (client : LLMClient) : Prop :=
  ∀ prepared reply cv excerpt hash,
    preparedPrompt policy job config cvExcerpts client = .ok prepared →
    client.generateTyped prepared.prompt = .value reply →
    cv ∈ config.cvs → reply.selectedCvId = some cv.id →
    get prepared.includedExcerpts cv.id = some excerpt →
    get prepared.candidateHashes cv.id = some (some hash) →
    config.minimumConfidence ≤ reply.confidence →
      ∀ value ∈ reply.matchedEvidence, isVerified policy.table excerpt value = true →
        OccursWhole policy.table.isWord (folded policy.table (evidenceTerm value))
          (normalizedCv policy.table excerpt)

theorem find_configured (hcv : cv ∈ config.cvs) :
    (config.cvs.find? fun found => found.id == cv.id) = some cv := by
  cases hfound : config.cvs.find? fun found => found.id == cv.id with
  | none =>
    have hnone := List.find?_eq_none.mp hfound cv hcv
    simp at hnone
  | some found =>
    have hsame : found.id = cv.id := by
      simpa using List.find?_some hfound
    rw [List.inj_on_of_nodup_map config.idsUnique (List.mem_of_find?_eq_some hfound) hcv hsame]

theorem renderedTerm_inj {table : CharacterTable} {term : List Char}
    (hsame : renderedTerm table value = String.ofList ("llm_term:".toList ++ term)) :
    folded table (evidenceTerm value) = term :=
  List.append_cancel_left (String.ofList_inj.mp hsame)

/-- A reply that is sure enough, with a verified phrase, is a selection. -/
theorem settleReply_of_verified {reply : CVRoutingLLMResponseV1} {decision : RoutingDecision}
    {hash : String} (hsettled : settleReply policy config prepared reply = .ok decision)
    (hcv : cv ∈ config.cvs) (hid : reply.selectedCvId = some cv.id)
    (hexcerpt : get prepared.includedExcerpts cv.id = some excerpt)
    (hhash : get prepared.candidateHashes cv.id = some (some hash))
    (hconfident : config.minimumConfidence ≤ reply.confidence)
    (hvalue : value ∈ reply.matchedEvidence)
    (hverified : isVerified policy.table excerpt value = true) :
    decision.fallbackReason = none ∧ decision.selectedCvId = some cv.id ∧
      renderedTerm policy.table value ∈ decision.matchedEvidence := by
  have hterm := (mem_verifiedEvidenceTerms reply.evidenceBounded).mpr
    ⟨value, hvalue, hverified, rfl⟩
  rw [settleReply, hid, Option.bind_some, find_configured hcv] at hsettled
  simp only [hexcerpt, hhash, Option.join_some, RoutingDecision.validated] at hsettled
  split at hsettled
  · cases hsettled
    refine ⟨?_, rfl, hterm⟩
    rw [selectionFallback, if_neg (Option.some_ne_none _), if_neg, if_neg (not_lt.mpr hconfident)]
    rw [List.isEmpty_iff]
    exact List.ne_nil_of_mem hterm
  · cases hsettled

/-- Where every decision is on evidence, the phrases are whole. -/
theorem phrasesWhole_of_routes (hroutes : RoutesOnEvidence policy job config cvExcerpts client) :
    PhrasesWhole policy job config cvExcerpts client := by
  obtain ⟨decision, hselect, hroutes⟩ := hroutes
  intro prepared reply cv excerpt hash hprepared hreply hcv hid hexcerpt hhash hconfident value
    hvalue hverified
  rw [selectCvViaLlm, hprepared] at hselect
  simp only [hreply] at hselect
  obtain ⟨hnone, hselected, hmem⟩ := settleReply_of_verified hselect hcv hid hexcerpt hhash
    hconfident hvalue hverified
  obtain ⟨other, found, _, shown, hother, hrests, hwhole⟩ := hroutes hnone
  cases hprepared.symm.trans hother
  have hsame : found.id = cv.id := Option.some.inj (hrests.selectedId.symm.trans hselected)
  have hshown := hrests.included
  rw [hsame, hexcerpt] at hshown
  cases hshown
  obtain ⟨term, hterm, hoccurs⟩ := hwhole _ hmem
  rw [renderedTerm_inj hterm]
  exact hoccurs

/-- Whole phrases are evidence for every decision. -/
theorem routes_of_phrasesWhole (hphrases : PhrasesWhole policy job config cvExcerpts client) :
    RoutesOnEvidence policy job config cvExcerpts client := by
  rw [RoutesOnEvidence, selectCvViaLlm.eq_def]
  cases hprepared : preparedPrompt policy job config cvExcerpts client with
  | error reason => exact ⟨_, validated_abstained _, nofun⟩
  | ok prepared =>
    cases hreply : client.generateTyped prepared.prompt with
    | typedGenerationError =>
      simp only [hreply]
      exact ⟨_, validated_abstained _, nofun⟩
    | otherException =>
      simp only [hreply]
      exact ⟨_, validated_abstained _, nofun⟩
    | value reply =>
      simp only [hreply]
      obtain ⟨decision, hsettled, hspec⟩ := settleReply_spec hprepared reply
      refine ⟨decision, hsettled, fun hnone => ?_⟩
      obtain ⟨cv, evidence, excerpt, hrests, hid, hhash, hconfidence, hterms⟩ := hspec hnone
      refine ⟨prepared, cv, evidence, excerpt, rfl, hrests, fun item hitem => ?_⟩
      rw [hterms] at hitem
      obtain ⟨value, hvalue, hverified, hrendered⟩ :=
        (mem_verifiedEvidenceTerms reply.evidenceBounded).mp hitem
      exact ⟨_, hrendered, hphrases prepared reply cv excerpt _ hprepared hreply
        hrests.configured hid hrests.included hhash (hconfidence ▸ hrests.confidence) value
        hvalue hverified⟩

/-- Routing by the model rests on evidence exactly where no phrase of a reply is found only inside
longer words. -/
theorem routesOnEvidence_iff (policy : RoutingPolicy) (job : RoutingJob) (config : CVRoutingConfig)
    (cvExcerpts : List (String × RoutingEvidence)) (client : LLMClient) :
    RoutesOnEvidence policy job config cvExcerpts client ↔
      PhrasesWhole policy job config cvExcerpts client :=
  ⟨phrasesWhole_of_routes, routes_of_phrasesWhole⟩

/-! ### A part of a word -/

/-- The search for a phrase between words, from a place inside a text. -/
theorem hasBoundedPhrase_iff {phrase text : List Char} :
    Forms.hasBoundedPhrase isWord phrase bounded text = true ↔
      ∃ before after, before ++ phrase ++ after = text ∧ (before = [] → bounded = true) ∧
        (∀ char ∈ before.getLast?, isWord char = false) ∧
          ∀ char ∈ after.head?, isWord char = false := by
  induction text generalizing bounded with
  | nil =>
    rw [Forms.hasBoundedPhrase]
    cases phrase with
    | nil =>
      constructor
      · intro hfound
        exact ⟨[], [], rfl, fun _ => by simpa using hfound, nofun, nofun⟩
      · rintro ⟨before, after, hparts, hbounded, _⟩
        rw [List.append_eq_nil_iff, List.append_eq_nil_iff] at hparts
        simp [hbounded hparts.1.1]
    | cons first phrase =>
      constructor
      · intro hfound
        simp at hfound
      · rintro ⟨before, after, hparts, _⟩
        simp at hparts
  | cons char text ih =>
    rw [Forms.hasBoundedPhrase, Bool.or_eq_true, ih]
    constructor
    · rintro (hhere | ⟨before, after, rfl, hbounded, hbefore, hafter⟩)
      · simp only [Bool.and_eq_true, List.isPrefixOf_iff_prefix, Bool.not_eq_true',
          Option.any_eq_false] at hhere
        obtain ⟨⟨hbounded, after, hafter⟩, hedge⟩ := hhere
        refine ⟨[], after, hafter, fun _ => hbounded, nofun, ?_⟩
        rw [← hafter, List.drop_left] at hedge
        exact hedge
      · refine ⟨char :: before, after, rfl, nofun, ?_, hafter⟩
        cases before with
        | nil => simpa using hbounded rfl
        | cons second before =>
          rw [List.getLast?_cons_cons]
          exact hbefore
    · rintro ⟨before, after, hparts, hbounded, hbefore, hafter⟩
      cases before with
      | nil =>
        rw [List.nil_append] at hparts
        left
        simp only [Bool.and_eq_true, List.isPrefixOf_iff_prefix, Bool.not_eq_true',
          Option.any_eq_false]
        refine ⟨⟨hbounded rfl, after, hparts⟩, ?_⟩
        rw [← hparts, List.drop_left]
        exact hafter
      | cons first before =>
        obtain ⟨rfl, hrest⟩ := List.cons.inj hparts
        right
        refine ⟨before, after, hrest, ?_, ?_, hafter⟩
        · rintro rfl
          simpa using hbefore
        · intro last hlast
          refine hbefore last ?_
          cases before with
          | nil => cases hlast
          | cons second before => exact hlast

theorem occursWhole_iff {text : List Char} :
    OccursWhole isWord part text ↔ Forms.hasBoundedPhrase isWord part true text = true := by
  rw [hasBoundedPhrase_iff, OccursWhole]
  simp

instance (isWord : Char → Bool) (part text : List Char) :
    Decidable (OccursWhole isWord part text) :=
  decidable_of_iff' _ occursWhole_iff

def sampleRoutingPolicy : RoutingPolicy where
  table := Materials.basicCharacters
  content := Materials.openPolicy
  schemaText := "\x7b\"type\":\"object\"\x7d".toList
  maxPromptChars := 24000

def sampleRoutingJob : RoutingJob where
  title := "Backend Engineer"
  description := ""
  seniority := ""
  requiredSkills := []

def javaCv : CVDefinition where
  id := "cv_a"
  file := "a.pdf"

def sampleRoutingConfig : CVRoutingConfig where
  cvs := [javaCv]
  minimumConfidence := 7 / 20
  confidenceBounded := by decide +kernel
  idsUnique := by decide

def javaEvidence : CVRoutingEvidenceV1 where
  cvId := "cv_a"
  pdfSha256 := "86edbaa24831badfa0a8b04bb410141e2ee4182b6d0014493fe262a7a331c20b"
  excerpt := "Java services"
  idValid := by decide +kernel
  digestValid := by decide +kernel
  excerptBounded := by decide +kernel

def partialReply : CVRoutingLLMResponseV1 where
  selectedCvId := some "cv_a"
  confidence := 9 / 10
  matchedEvidence := ["av"]
  idBounded := by decide +kernel
  confidenceBounded := by decide +kernel
  evidenceBounded := by decide
  termsBounded := by decide +kernel

def partialClient : LLMClient where
  maxPromptChars := none
  generateTyped _ := .value partialReply

theorem javaPrompt_prepared :
    (preparedPrompt sampleRoutingPolicy sampleRoutingJob sampleRoutingConfig
      [("cv_a", .bound javaEvidence)] partialClient).toOption.map (fun prepared =>
        (get prepared.includedExcerpts "cv_a", get prepared.candidateHashes "cv_a")) =
      some (some "Java services".toList, some (some javaEvidence.pdfSha256)) := by
  decide +kernel

/-- Two letters inside a word are evidence enough. -/
theorem routesOnEvidence_not_always :
    ¬RoutesOnEvidence sampleRoutingPolicy sampleRoutingJob sampleRoutingConfig
      [("cv_a", .bound javaEvidence)] partialClient := by
  intro hroutes
  obtain ⟨prepared, hprepared, hfound⟩ := Option.map_eq_some_iff.mp javaPrompt_prepared
  obtain ⟨hexcerpt, hhash⟩ := Prod.mk.inj hfound
  have hok : preparedPrompt sampleRoutingPolicy sampleRoutingJob sampleRoutingConfig
      [("cv_a", .bound javaEvidence)] partialClient = .ok prepared := by
    cases hcase : preparedPrompt sampleRoutingPolicy sampleRoutingJob sampleRoutingConfig
        [("cv_a", .bound javaEvidence)] partialClient with
    | error reason =>
      rw [hcase] at hprepared
      cases hprepared
    | ok found =>
      rw [hcase] at hprepared
      cases hprepared
      rfl
  have hwhole := phrasesWhole_of_routes hroutes prepared partialReply javaCv _ _ hok rfl (.head _)
    rfl hexcerpt hhash (by decide +kernel) "av" (.head _) (by decide +kernel)
  exact absurd hwhole (by decide +kernel)

end JobApplyAgent.Match
