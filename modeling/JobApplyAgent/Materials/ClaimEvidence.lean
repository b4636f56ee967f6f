import JobApplyAgent.Materials.ClaimPatterns
import JobApplyAgent.Store.Rows

/-!
# Claim evidence

The deterministic validation of generated prose against immutable evidence.
Every factual sentence has to be covered by the clauses of declared claims, and
every declared claim by the literal quotes that it cites.
-/

namespace JobApplyAgent.Materials

open Library Regex Store

/-- The shared policy for sensitive facts and adversarial instructions. -/
structure ContentPolicy where
  containsSensitiveText : List Char → Bool
  containsPromptInjection : List Char → Bool

inductive ClaimBlocker where
  | claimEvidenceMismatch
  | claimEvidenceMissing
  | claimEvidenceUnknown
  | claimNotInMaterial
  | prohibitedGeneratedContent
  | sensitiveClaimProhibited
  | undeclaredFactualClaim
  deriving DecidableEq

inductive SourceKind where
  | cv
  | userConfirmed

/-- Private runtime evidence. -/
structure EvidenceItem where
  evidenceId : String
  sourceKind : SourceKind
  sourceRef : String
  text : String

/-- One literal evidence span cited by a generated factual claim. -/
structure ClaimEvidenceQuote where
  evidenceId : String
  quote : String
  deriving DecidableEq

/-- Claim contract emitted by the typed material generator. -/
structure DraftClaim where
  claimId : String
  claimText : String
  evidenceQuotes : List ClaimEvidenceQuote

def DraftClaim.evidenceIds (claim : DraftClaim) : List String :=
  claim.evidenceQuotes.map ClaimEvidenceQuote.evidenceId

/-- Redacted result for one claim.  Its id is the front of a digest, which is kept
whole here. -/
structure ClaimEvidenceRef where
  claimId : Sha256 (List Char)
  claimDigest : Sha256 (List Char)
  evidenceIds : List String
  evidenceQuoteDigests : List (Sha256 (List Char))
  supported : Bool
  reasonCode : Option ClaimBlocker

structure ClaimValidation where
  claims : List ClaimEvidenceRef
  blockers : List ClaimBlocker

def ClaimValidation.eligible (validation : ClaimValidation) : Bool :=
  validation.blockers.isEmpty && validation.claims.all ClaimEvidenceRef.supported

variable (table : CharacterTable)

/-! ## Normal forms -/

/-- `_SPACE_RE.sub(" ", value).strip()`. -/
def clean (value : List Char) : List Char :=
  stripBy table.isBlank ((spaceRe table).sub [' '] value)

def normalized (value : List Char) : List Char :=
  (clean table value).flatMap table.casefold

def normalizedClause (value : List Char) : List Char :=
  stripBy (" \t\r\n,.;:!?".toList.contains ·)
    ((leadingConjunctionRe table).dropMatch (normalized table value))

def digest (scope : String) (value : List Char) : Sha256 (List Char) :=
  ⟨scope.toList ++ '\x00' :: normalized table value⟩

/-! ## Quotes -/

/-- Allow only literal evidence or a bounded grammatical subject wrapper. -/
def quoteSupportsClaimClause (claimClause quote : List Char) : Bool :=
  let claim := normalizedClause table claimClause
  let source := normalizedClause table quote
  if claim.isEmpty || source.isEmpty then false
  else if claim == source then true
  else if claim == "i ".toList ++ source
      && (englishSubjectlessAccomplishmentRe table).isMatch source then true
  else if claim == "אני ".toList ++ source
      && (hebrewSubjectlessAccomplishmentRe table).isMatch source then true
  else if claim == "my ".toList ++ source && (possessiveRe table).isMatch source then true
  else if claim == "i am ".toList ++ source && (predicateRe table).isMatch source then true
  else if claim == "i have ".toList ++ source && (possessionRe table).isMatch source then true
  else false

def endsSentence (character : Char) : Bool :=
  ['\n', '.', '!', '?'].contains character

/-- What may stand before a quote in its sentence. -/
def leadAllowed (lead : List Char) : Bool :=
  lead.isEmpty || headingMarkerRe.isFullMatch lead
    || (["i", "i have", "i am", "i've", "i'm", "my", "אני"].map String.toList).contains
      (normalizedClause table lead)

def affirmativeOccurrence (quote : List Char) (occurrence : Place × Place) : Bool :=
  let lead := (occurrence.1.before.takeWhile fun character => !endsSentence character).reverse
  let rest := occurrence.2.after.takeWhile fun character => !endsSentence character
  let context := lead ++ quote ++ rest
  !(negatedEvidenceContextRe table).search context
    && !(uncertainEvidenceContextRe table).search context
    && leadAllowed table (stripBy table.isBlank lead)
    && (stripBy table.isBlank rest).isEmpty

/-- Require at least one literal occurrence in an affirmative source sentence. -/
def quoteIsExactAffirmativeSpan (quote evidenceText : List Char) : Bool :=
  ((Regex.word (· == ·) quote).findIter evidenceText).any (affirmativeOccurrence table quote)

/-! ## Sentences and clauses -/

def firstPerson (sentence : List Char) : Bool :=
  (firstPersonRe table).search sentence || (hebrewFirstPersonRe table).search sentence

def factual (sentence : List Char) : Bool :=
  (factualMarkerRe table).search sentence || (hebrewFactualMarkerRe table).search sentence
    || (numberRe table).search sentence

def requiresEvidence (sentence : List Char) : Bool :=
  let text := clean table sentence
  if text.isEmpty || (safeNonfactualFragmentRe table).isFullMatch text
      || (safeSubjectiveFragmentRe table).isFullMatch text
      || (safeHebrewSubjectiveFragmentRe table).isFullMatch text then false
  else if (impliedCandidateRe table).search sentence then true
  else if firstPerson table sentence && factual table sentence then true
  else if (thirdPersonCandidateRe table).search sentence then true
  -- Hebrew has no case distinction that could identify a name.
  else if (hebrewFactualMarkerRe table).search sentence then true
  else if factual table sentence && !(employerContextRe table).search sentence then true
  else if !firstPerson table sentence then true
  else true

/-- The raw clauses of a text whose normal form is not empty, with that form. -/
def clauseParts (text : List Char) : List (List Char × List Char) :=
  (((clauseRe table).split text).map fun raw => (raw, normalizedClause table raw)).filter
    fun part => !part.2.isEmpty

/-- The normal form of a text, unless it is empty. -/
def wholeClause (text : List Char) : List (List Char) :=
  if (normalizedClause table text).isEmpty then [] else [normalizedClause table text]

def candidateSubject (sentence : List Char) : Bool :=
  firstPerson table sentence || (thirdPersonCandidateRe table).search sentence
    || (impliedCandidateRe table).search sentence

def factualClauses (sentence : List Char) : List (List Char) :=
  if !requiresEvidence table sentence then []
  else
    let parts := clauseParts table sentence
    if parts.length ≤ 1 then wholeClause table sentence
    else
      let factualParts := parts.filter fun part =>
        requiresEvidence table part.1 || candidateSubject table sentence && factual table part.1
      if factualParts.isEmpty then parts.map Prod.snd else factualParts.map Prod.snd

def declaredClaimClauses (claim : List Char) : List (List Char) :=
  let clauses := (clauseParts table claim).map Prod.snd
  if clauses.isEmpty then wholeClause table claim else clauses

/-- Split material fields using the validator's canonical sentence boundary. -/
def materialSentences (materialTexts : List String) : List (List Char) :=
  (materialTexts.flatMap fun text => (sentenceRe table).split text.toList).map (clean table)
    |>.filter fun sentence => !sentence.isEmpty

/-! ## Validation -/

/-- The later of two items with one id is kept. -/
def evidenceById (catalog : List EvidenceItem) (id : String) : Option EvidenceItem :=
  (catalog.filter fun item => item.evidenceId = id).getLast?

section Validation

variable (policy : ContentPolicy)

/-- The quotes of a claim that are exact affirmative spans of their items. -/
def exactBindings (catalog : List EvidenceItem) (claim : DraftClaim) :
    List ClaimEvidenceQuote :=
  claim.evidenceQuotes.filter fun binding =>
    (evidenceById catalog binding.evidenceId).any (fun item =>
      quoteIsExactAffirmativeSpan table binding.quote.toList item.text.toList)
    && !policy.containsSensitiveText binding.quote.toList
    && !policy.containsPromptInjection binding.quote.toList

def bindingSupports (clause : List Char) (binding : ClaimEvidenceQuote) : Bool :=
  quoteSupportsClaimClause table clause binding.quote.toList

def clausesSupported (claim : DraftClaim) (bindings : List ClaimEvidenceQuote) : Bool :=
  let clauses := declaredClaimClauses table claim.claimText.toList
  !clauses.isEmpty
    && (bindings.any (bindingSupports table claim.claimText.toList)
      || clauses.all fun clause => bindings.any (bindingSupports table clause))

/-- Every quote is exact and supports the claim or one of its clauses. -/
def quotesUsed (claim : DraftClaim) (bindings : List ClaimEvidenceQuote) : Bool :=
  let clauses := declaredClaimClauses table claim.claimText.toList
  decide (bindings.length = claim.evidenceQuotes.length)
    && bindings.all fun binding =>
      bindingSupports table claim.claimText.toList binding
        || clauses.any fun clause => bindingSupports table clause binding

/-- `part in text`. -/
def occursIn (part text : List Char) : Bool :=
  text.tails.any fun rest => part.isPrefixOf rest

/-- Why a claim is not supported. -/
def claimReason (combined : List Char) (catalog : List EvidenceItem)
    (seenClaimIds : List String) (claim : DraftClaim) : Option ClaimBlocker :=
  if seenClaimIds.contains claim.claimId
      || !occursIn (normalized table claim.claimText.toList) combined then
    some .claimNotInMaterial
  else if policy.containsSensitiveText claim.claimText.toList then
    some .sensitiveClaimProhibited
  else if claim.evidenceQuotes.isEmpty then some .claimEvidenceMissing
  else if claim.evidenceIds.any fun id => (evidenceById catalog id).isNone then
    some .claimEvidenceUnknown
  else
    let bindings := exactBindings table policy catalog claim
    if !clausesSupported table claim bindings || !quotesUsed table claim bindings then
      some .claimEvidenceMismatch
    else none

/-- What the loop over the claims has collected. -/
structure ClaimProgress where
  results : List ClaimEvidenceRef
  blockers : List ClaimBlocker
  supportedClaimClauses : List (List Char)
  seenClaimIds : List String

def claimEvidenceRef (claim : DraftClaim) (reason : Option ClaimBlocker) : ClaimEvidenceRef where
  claimId := digest table "claim-id"
    (claim.claimId.toList ++ '\x00' :: claim.claimText.toList)
  claimDigest := digest table "claim" claim.claimText.toList
  evidenceIds := claim.evidenceIds
  evidenceQuoteDigests := claim.evidenceQuotes.map fun binding =>
    digest table ("quote:" ++ binding.evidenceId) binding.quote.toList
  supported := reason.isNone
  reasonCode := reason

def validateClaim (combined : List Char) (catalog : List EvidenceItem)
    (progress : ClaimProgress) (claim : DraftClaim) : ClaimProgress :=
  let reason := claimReason table policy combined catalog progress.seenClaimIds claim
  { results := progress.results ++ [claimEvidenceRef table claim reason]
    blockers := progress.blockers ++ reason.toList
    supportedClaimClauses :=
      if reason.isNone then
        progress.supportedClaimClauses ++ declaredClaimClauses table claim.claimText.toList
      else progress.supportedClaimClauses
    seenClaimIds := progress.seenClaimIds ++ [claim.claimId] }

def sentenceBlockers (supportedClaimClauses : List (List Char)) (sentence : List Char) :
    List ClaimBlocker :=
  (if policy.containsPromptInjection sentence
      || (prohibitedGeneratedContentRe table).search sentence then
    [.prohibitedGeneratedContent] else [])
  ++ (if policy.containsSensitiveText sentence then [.sensitiveClaimProhibited] else [])
  ++ (factualClauses table sentence).flatMap fun clause =>
    if supportedClaimClauses.contains clause then [] else [.undeclaredFactualClaim]

/-- The blockers in the order of their names. -/
def sortedBlockers (blockers : List ClaimBlocker) : List ClaimBlocker :=
  [.claimEvidenceMismatch, .claimEvidenceMissing, .claimEvidenceUnknown, .claimNotInMaterial,
    .prohibitedGeneratedContent, .sensitiveClaimProhibited, .undeclaredFactualClaim].filter
    fun blocker => blockers.contains blocker

/-- Validate declared claims and detect undeclared candidate assertions. -/
def validateClaimEvidence (materialTexts : List String) (draftClaims : List DraftClaim)
    (catalog : List EvidenceItem) : ClaimValidation :=
  let combined := normalized table (['\n'].intercalate (materialTexts.map String.toList))
  let progress := draftClaims.foldl (validateClaim table policy combined catalog) ⟨[], [], [], []⟩
  let blockers := progress.blockers ++ (materialSentences table materialTexts).flatMap
    (sentenceBlockers table policy progress.supportedClaimClauses)
  { claims := progress.results, blockers := sortedBlockers blockers }

end Validation

/-! ## The basic alphabet -/

/-- Letters, digits and blanks of the basic alphabet. -/
def basicCharacters : CharacterTable where
  isWord character := character.isAlphanum || character == '_'
  isDigit character := character.isDigit
  isBlank := isSpace
  sameLetter first second := first.toLower == second.toLower
  casefold character := [character.toLower]

/-- A policy that finds nothing to object to. -/
def openPolicy : ContentPolicy where
  containsSensitiveText _ := false
  containsPromptInjection _ := false

end JobApplyAgent.Materials
