import JobApplyAgent.Materials.ClaimEvidence
import JobApplyAgent.Library.Blanks
import Mathlib.Data.List.Infix

/-!
# Binding generated claims

The binder that cites literal evidence for generated sentences, and when the
validator agrees with it.
-/

namespace JobApplyAgent.Materials

open Library Regex

def maxBoundClaims : ℕ := 50

def maxEvidenceQuotesPerClaim : ℕ := 8

def maxClaimTextChars : ℕ := 1000

/-! ## The binder -/

section Binder

variable (table : CharacterTable)

def leadingBulletRe : Regex :=
  inOrder [.assert atStart, many1 (member ['-', '—', '–', '•', '*', '▪', '◦', '‣']),
    many1 (blank table)]

/-- Return only complete evidence text or that text with one bullet removed. -/
def evidenceQuoteCandidates (item : EvidenceItem) : List (List Char) :=
  let strippedBullet := (leadingBulletRe table).dropMatch item.text.toList
  if strippedBullet = item.text.toList then [item.text.toList]
  else [item.text.toList, strippedBullet]

/-- The quote is an exact span of the item and supports the claim. -/
def candidateBinds (claimText : List Char) (item : EvidenceItem) (quote : List Char) : Bool :=
  quoteIsExactAffirmativeSpan table quote item.text.toList
    && quoteSupportsClaimClause table claimText quote

/-- The first candidate that binds.  A quote is no longer than its item, so that its own
bound on the length, which is the item's, holds. -/
def literalBinding (catalog : List EvidenceItem) (claimText : List Char) :
    Option ClaimEvidenceQuote :=
  catalog.findSome? fun item =>
    ((evidenceQuoteCandidates table item).find? (candidateBinds table claimText item)).map
      fun quote => ⟨item.evidenceId, String.ofList quote⟩

def bindClause (catalog : List EvidenceItem) (bindings : List ClaimEvidenceQuote)
    (clause : List Char) : Option (List ClaimEvidenceQuote) :=
  (literalBinding table catalog clause).bind fun found =>
    let next := if found ∈ bindings then bindings else bindings ++ [found]
    if maxEvidenceQuotesPerClaim < next.length then none else some next

/-- The quotes that are cited for a sentence: one for the whole sentence, or those of all
its factual clauses. -/
def boundQuotes (catalog : List EvidenceItem) (sentence : List Char) :
    Option (List ClaimEvidenceQuote) :=
  let clauses := factualClauses table sentence
  if clauses.isEmpty then none
  else
    match literalBinding table catalog sentence with
    | some found => some [found]
    | none => clauses.foldlM (bindClause table catalog) []

def numberedClaim (number : ℕ) (bound : List Char × List ClaimEvidenceQuote) : DraftClaim where
  claimId := "claim_" ++ number.repr
  claimText := String.ofList bound.1
  evidenceQuotes := bound.2

/-- A claim of the contract; a text over its bound is a validation error. -/
def draftClaim (number : ℕ) (sentence : List Char) (quotes : List ClaimEvidenceQuote) :
    Option DraftClaim :=
  if sentence.length ≤ maxClaimTextChars then some (numberedClaim number (sentence, quotes))
  else none

structure BinderProgress where
  claims : List DraftClaim
  seenSentences : List (List Char)

/-- One sentence of the loop; `none` is the validation error. -/
def bindSentence (catalog : List EvidenceItem) (progress : BinderProgress)
    (sentence : List Char) : Option BinderProgress :=
  let key := normalized table sentence
  if key ∈ progress.seenSentences then some progress
  else
    let seen := key :: progress.seenSentences
    match boundQuotes table catalog sentence with
    | none => some ⟨progress.claims, seen⟩
    | some quotes =>
      if progress.claims.length < maxBoundClaims then
        (draftClaim (progress.claims.length + 1) sentence quotes).map fun claim =>
          ⟨progress.claims ++ [claim], seen⟩
      else
        some ⟨progress.claims, seen⟩

/-- Bind generated factual sentences to literal evidence deterministically. -/
def bindGeneratedClaims (materialTexts : List String) (catalog : List EvidenceItem) :
    Option (List DraftClaim) :=
  ((materialSentences table materialTexts).foldlM (bindSentence table catalog) ⟨[], []⟩).map
    BinderProgress.claims

end Binder

/-! ## What the binder binds -/

section Bound

variable (table : CharacterTable)

/-- The sentences that are bound, with their quotes, where `seen` is behind. -/
def bindable (catalog : List EvidenceItem) :
    List (List Char) → List (List Char) → List (List Char × List ClaimEvidenceQuote)
  | _, [] => []
  | seen, sentence :: rest =>
    let key := normalized table sentence
    if key ∈ seen then bindable catalog seen rest
    else
      match boundQuotes table catalog sentence with
      | none => bindable catalog (key :: seen) rest
      | some quotes => (sentence, quotes) :: bindable catalog (key :: seen) rest

def boundSentences (materialTexts : List String) (catalog : List EvidenceItem) :
    List (List Char × List ClaimEvidenceQuote) :=
  (bindable table catalog [] (materialSentences table materialTexts)).take maxBoundClaims

/-- The claims of bound sentences, numbered from `number` on. -/
def numberedClaims : ℕ → List (List Char × List ClaimEvidenceQuote) → List DraftClaim
  | _, [] => []
  | number, bound :: rest => numberedClaim number bound :: numberedClaims (number + 1) rest

def claimFits (bound : List Char × List ClaimEvidenceQuote) : Bool :=
  decide (bound.1.length ≤ maxClaimTextChars)

variable {table}

theorem foldlM_bindSentence (sentences : List (List Char)) (claims : List DraftClaim)
    (seen : List (List Char)) (hclaims : claims.length ≤ maxBoundClaims) :
    (sentences.foldlM (bindSentence table catalog) ⟨claims, seen⟩).map BinderProgress.claims =
      let bound := (bindable table catalog seen sentences).take (maxBoundClaims - claims.length)
      if bound.all claimFits then some (claims ++ numberedClaims (claims.length + 1) bound)
      else none := by
  induction sentences generalizing claims seen with
  | nil => simp [bindable, numberedClaims]
  | cons sentence rest ih =>
    rw [List.foldlM_cons, bindSentence, bindable]
    by_cases hseen : normalized table sentence ∈ seen
    · simp only [hseen, ↓reduceIte]
      exact ih _ _ hclaims
    · simp only [hseen, ↓reduceIte]
      cases hquotes : boundQuotes table catalog sentence with
      | none => exact ih _ _ hclaims
      | some quotes =>
        simp only
        by_cases hroom : claims.length < maxBoundClaims
        · have hcount : maxBoundClaims - claims.length =
              (maxBoundClaims - (claims.length + 1)) + 1 := by omega
          rw [if_pos hroom, hcount, List.take_succ_cons, List.all_cons]
          by_cases hfits : sentence.length ≤ maxClaimTextChars
          · have hnext := ih
              (claims ++ [numberedClaim (claims.length + 1) (sentence, quotes)])
              (normalized table sentence :: seen) (by simp; omega)
            simp only [List.length_append, List.length_singleton] at hnext
            simp only [draftClaim, hfits, ↓reduceIte, Option.map_some, Option.bind_eq_bind,
              Option.bind_some, claimFits, decide_true, Bool.true_and, numberedClaims]
            simpa using hnext
          · simp [draftClaim, hfits, claimFits]
        · have hzero : maxBoundClaims - claims.length = 0 := by omega
          rw [if_neg hroom]
          have hnext := ih claims (normalized table sentence :: seen) hclaims
          rw [hzero] at hnext ⊢
          simpa using hnext

/-- The binder gives the numbered claims of the bound sentences, unless one is too long. -/
theorem bindGeneratedClaims_eq (materialTexts : List String) :
    bindGeneratedClaims table materialTexts catalog =
      if (boundSentences table materialTexts catalog).all claimFits then
        some (numberedClaims 1 (boundSentences table materialTexts catalog))
      else none :=
  foldlM_bindSentence (materialSentences table materialTexts) [] [] (Nat.zero_le _)

end Bound

/-! ## Sentences in the material -/

section Occurrence

variable {table : CharacterTable}

theorem clean_eq (value : List Char) :
    clean table value = stripBy table.isBlank (collapse table.isBlank value) := by
  rw [clean, spaceRe, blank, sub_many1]

theorem clean_eq_core (hspace : table.isBlank ' ' = true) (value : List Char) :
    clean table value = collapse table.isBlank (stripBy table.isBlank value) := by
  rw [clean_eq, stripBy_collapse hspace]

theorem clean_clean (hspace : table.isBlank ' ' = true) (value : List Char) :
    clean table (clean table value) = clean table value := by
  have hinked := inked_collapse (inked_stripBy table.isBlank value)
  rw [clean_eq_core hspace value, clean_eq_core hspace, stripBy_of_inked hinked,
    collapse_collapse hspace]

variable {text : List Char}

theorem clean_infix (hspace : table.isBlank ' ' = true) (hpart : part <:+: text) :
    clean table part <:+: clean table text := by
  by_cases hne : stripBy table.isBlank part = []
  · rw [clean_eq_core hspace, hne, collapse_nil]
    exact List.nil_infix
  · obtain ⟨before, after, rfl⟩ := hpart
    obtain ⟨front, rest, hcore, _, _⟩ := exists_core table.isBlank part
    have hinked := inked_stripBy table.isBlank part
    have htext : before ++ part ++ after =
        (before ++ front) ++ stripBy table.isBlank part ++ (rest ++ after) := by
      conv_lhs => rw [hcore]
      simp only [List.append_assoc]
    rw [clean_eq_core hspace part, clean_eq, htext, collapse_append_inked _ _ hinked hne,
      stripBy_append_inked _ _ (inked_collapse hinked) (collapse_ne_nil hne)]
    exact ⟨_, _, rfl⟩

theorem infix_normalized (hspace : table.isBlank ' ' = true) (hpart : part <:+: text) :
    normalized table part <:+: normalized table text := by
  obtain ⟨before, after, htext⟩ := clean_infix hspace hpart
  rw [normalized, normalized, ← htext, List.flatMap_append, List.flatMap_append]
  exact ⟨_, _, rfl⟩

theorem occursIn_of_infix (hpart : part <:+: text) :
    occursIn part text = true := by
  obtain ⟨before, after, rfl⟩ := hpart
  rw [occursIn, List.any_eq_true]
  refine ⟨part ++ after, ?_, ?_⟩
  · rw [List.mem_tails, List.append_assoc]
    exact List.suffix_append _ _
  · rw [List.isPrefixOf_iff_prefix]
    exact List.prefix_append _ _

theorem infix_of_occursIn (hoccurs : occursIn part text = true) : part <:+: text := by
  rw [occursIn, List.any_eq_true] at hoccurs
  obtain ⟨rest, hrest, hpart⟩ := hoccurs
  rw [List.mem_tails] at hrest
  exact (List.isPrefixOf_iff_prefix.mp hpart).isInfix.trans hrest.isInfix

theorem sentence_occurs (hspace : table.isBlank ' ' = true) {texts : List String}
    (hsentence : sentence ∈ materialSentences table texts) :
    occursIn (normalized table sentence)
      (normalized table (['\n'].intercalate (texts.map String.toList))) = true := by
  obtain ⟨piece, hpiece, rfl⟩ := List.mem_map.mp (List.mem_filter.mp hsentence).1
  obtain ⟨text, htext, hsplit⟩ := List.mem_flatMap.mp hpiece
  have hnormal : normalized table (clean table piece) = normalized table piece := by
    rw [normalized, clean_clean hspace, normalized]
  rw [hnormal]
  apply occursIn_of_infix
  apply infix_normalized hspace
  exact (infix_of_mem_split hsplit).trans
    (infix_intercalate (List.mem_map_of_mem htext))

end Occurrence

/-! ## Quotes of a bound sentence -/

section Quotes

variable {table : CharacterTable}

variable {bindings : List ClaimEvidenceQuote}
  {bound : List Char × List ClaimEvidenceQuote}

theorem literalBinding_spec {found : ClaimEvidenceQuote}
    (hfound : literalBinding table catalog claimText = some found) :
    ∃ item ∈ catalog, ∃ quote ∈ evidenceQuoteCandidates table item,
      candidateBinds table claimText item quote = true ∧
      found = ⟨item.evidenceId, String.ofList quote⟩ := by
  obtain ⟨item, hitem, hquote⟩ := List.exists_of_findSome?_eq_some hfound
  obtain ⟨quote, hfind, rfl⟩ := Option.map_eq_some_iff.mp hquote
  exact ⟨item, hitem, quote, List.mem_of_find?_eq_some hfind, List.find?_some hfind, rfl⟩

theorem literalBinding_isSome (hitem : item ∈ catalog)
    (hquote : quote ∈ evidenceQuoteCandidates table item)
    (hbinds : candidateBinds table claimText item quote = true) :
    literalBinding table catalog claimText ≠ none := by
  intro hnone
  rw [literalBinding, List.findSome?_eq_none_iff] at hnone
  have hfind := Option.map_eq_none_iff.mp (hnone item hitem)
  exact List.find?_eq_none.mp hfind quote hquote hbinds

theorem bindClause_spec {next : List ClaimEvidenceQuote}
    (hnext : bindClause table catalog bindings clause = some next) :
    ∃ found, literalBinding table catalog clause = some found ∧ found ∈ next ∧
      (∀ quote ∈ bindings, quote ∈ next) ∧
      ∀ quote ∈ next, quote ∈ bindings ∨ quote = found := by
  obtain ⟨found, hfound, hstep⟩ := Option.bind_eq_some_iff.mp hnext
  refine ⟨found, hfound, ?_⟩
  rw [Option.ite_none_left_eq_some] at hstep
  obtain ⟨_, hsame⟩ := hstep
  cases hsame
  split
  next hmem => exact ⟨hmem, fun _ hquote => hquote, fun _ hquote => .inl hquote⟩
  · refine ⟨by simp, fun quote hquote => by simp [hquote], ?_⟩
    intro quote hquote
    simpa using hquote

theorem foldlM_bindClause_spec {clauses : List (List Char)}
    (hquotes : clauses.foldlM (bindClause table catalog) bindings = some quotes) :
    (∀ quote ∈ bindings, quote ∈ quotes) ∧
      (∀ quote ∈ quotes, quote ∈ bindings ∨
        ∃ clause ∈ clauses, literalBinding table catalog clause = some quote) ∧
      ∀ clause ∈ clauses, ∃ quote ∈ quotes, literalBinding table catalog clause = some quote := by
  induction clauses generalizing bindings with
  | nil =>
    cases hquotes
    simp
  | cons clause rest ih =>
    rw [List.foldlM_cons] at hquotes
    obtain ⟨next, hnext, hrest⟩ := Option.bind_eq_some_iff.mp hquotes
    obtain ⟨found, hfound, hmem, hkept, hnew⟩ := bindClause_spec hnext
    obtain ⟨hlater, hfrom, hall⟩ := ih hrest
    refine ⟨fun quote hquote => hlater quote (hkept quote hquote), ?_, ?_⟩
    · intro quote hquote
      rcases hfrom quote hquote with hstart | ⟨other, hother, hbound⟩
      · rcases hnew quote hstart with hold | rfl
        · exact .inl hold
        · exact .inr ⟨clause, .head _, hfound⟩
      · exact .inr ⟨other, .tail _ hother, hbound⟩
    · intro other hother
      rcases List.mem_cons.mp hother with rfl | hother
      · exact ⟨found, hlater found hmem, hfound⟩
      · exact hall other hother

theorem boundQuotes_spec (hquotes : boundQuotes table catalog sentence = some quotes) :
    quotes ≠ [] ∧
      (∀ quote ∈ quotes, ∃ item ∈ catalog, ∃ text ∈ evidenceQuoteCandidates table item,
        quoteIsExactAffirmativeSpan table text item.text.toList = true ∧
        quote = ⟨item.evidenceId, String.ofList text⟩) ∧
      ((literalBinding table catalog sentence ≠ none ∧
          ∃ quote, quotes = [quote] ∧ bindingSupports table sentence quote = true) ∨
        (literalBinding table catalog sentence = none ∧
          ∀ quote ∈ quotes, bindingSupports table sentence quote = false)) := by
  rw [boundQuotes] at hquotes
  split at hquotes
  · cases hquotes
  next hclauses =>
    split at hquotes
    next found hfound =>
      cases hquotes
      obtain ⟨item, hitem, text, htext, hbinds, rfl⟩ := literalBinding_spec hfound
      rw [candidateBinds, Bool.and_eq_true] at hbinds
      refine ⟨by simp, ?_, .inl ⟨by simp [hfound], _, rfl, ?_⟩⟩
      · intro quote hquote
        rw [List.mem_singleton.mp hquote]
        exact ⟨item, hitem, text, htext, hbinds.1, rfl⟩
      · simpa [bindingSupports] using hbinds.2
    next hwhole =>
      obtain ⟨_, hfrom, hall⟩ := foldlM_bindClause_spec hquotes
      have hcited : ∀ quote ∈ quotes, ∃ item ∈ catalog,
          ∃ text ∈ evidenceQuoteCandidates table item,
            quoteIsExactAffirmativeSpan table text item.text.toList = true ∧
            quote = ⟨item.evidenceId, String.ofList text⟩ := by
        intro quote hquote
        obtain ⟨clause, _, hbound⟩ := (hfrom quote hquote).resolve_left List.not_mem_nil
        obtain ⟨item, hitem, text, htext, hbinds, rfl⟩ := literalBinding_spec hbound
        rw [candidateBinds, Bool.and_eq_true] at hbinds
        exact ⟨item, hitem, text, htext, hbinds.1, rfl⟩
      refine ⟨?_, hcited, .inr ⟨hwhole, ?_⟩⟩
      · obtain ⟨clause, hclause⟩ := List.exists_mem_of_ne_nil _ (by simpa using hclauses)
        obtain ⟨quote, hquote, _⟩ := hall clause hclause
        exact List.ne_nil_of_mem hquote
      · intro quote hquote
        obtain ⟨item, hitem, text, htext, hspan, rfl⟩ := hcited quote hquote
        by_contra hsupports
        refine literalBinding_isSome hitem htext ?_ hwhole
        rw [candidateBinds, hspan, Bool.true_and]
        simpa [bindingSupports] using hsupports

theorem mem_bindable {seen : List (List Char)}
    (hbound : bound ∈ bindable table catalog seen sentences) :
    bound.1 ∈ sentences ∧ boundQuotes table catalog bound.1 = some bound.2 := by
  induction sentences generalizing seen with
  | nil => cases hbound
  | cons sentence rest ih =>
    rw [bindable] at hbound
    split at hbound
    · exact (ih hbound).imp_left (.tail _)
    split at hbound
    · exact (ih hbound).imp_left (.tail _)
    next quotes hquotes =>
      rcases List.mem_cons.mp hbound with rfl | hlater
      · exact ⟨.head _, hquotes⟩
      · exact (ih hlater).imp_left (.tail _)

theorem mem_boundSentences {texts : List String}
    (hbound : bound ∈ boundSentences table texts catalog) :
    bound.1 ∈ materialSentences table texts ∧
      boundQuotes table catalog bound.1 = some bound.2 :=
  mem_bindable (List.mem_of_mem_take hbound)

end Quotes

end JobApplyAgent.Materials
