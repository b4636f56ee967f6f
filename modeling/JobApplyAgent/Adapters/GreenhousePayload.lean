import JobApplyAgent.Adapters.GreenhousePages
import JobApplyAgent.Adapters.MultipartBodies

/-!
# The Greenhouse payload check

The last check of an outgoing body before it leaves: every part is an answer, the resume, an
identity, a system control or the submitter, and the answers are those that were reviewed.
-/

namespace JobApplyAgent.Adapters

open Domain Forms Library

namespace Greenhouse

def maxNativeBodyBytes : ℕ := 12 * 1024 * 1024

def maxNativeFileBytes : ℕ := 8 * 1024 * 1024

def maxNativeTextBytes : ℕ := 1024 * 1024

def maxNativeEntries : ℕ := 128

def maxTextPartBytes : ℕ := 262144

/-- What the check of a body is given of the expectation of one commit. -/
structure PayloadExpectation where
  cvSha256 : String
  payloadCommitment : String
  answerBindings : List GreenhouseAnswerBinding
  resumeControlNameSha256 : String
  identity : GreenhouseApplicationIdentity
  submitterBinding : Option GreenhouseSubmitterBinding
  valid : payloadBindingValid payloadCommitment answerBindings resumeControlNameSha256
    submitterBinding = true

/-! ## Names -/

inductive IdentityKind where
  | board
  | job
  deriving DecidableEq

def actionBoardKeys : List String := ["board", "board_id", "board_token", "for"]

def actionJobKeys : List String :=
  ["gh_jid", "job", "job_id", "job_token", "posting_id", "requisition_id"]

def systemControlNames : List String := ["authenticity_token", "csrf_token", "_csrf", "utf8"]

section Names

variable (policy : WirePolicy)

/-- A name without the case and the punctuation of its spelling. -/
def identityKey (rawKey : String) : String :=
  let other := fun character : Char => !(character.isLower || character.isDigit)
  String.ofList (stripBy (· == '_') (Regex.sub (Regex.many1 (.char other)) ['_']
    (policy.casefold (String.ofList (strip rawKey))).toList))

def actionIdentityKind (rawKey : String) : Option IdentityKind :=
  let key := identityKey policy rawKey
  if actionBoardKeys.contains key then some .board
  else if actionJobKeys.contains key then some .job
  else none

/-- `hashlib.sha256(name.encode("utf-8")).hexdigest()`. -/
def nameSha256 (name : List Char) : String :=
  policy.digest (utf8 name)

def answerMaterialSha256 (tag : String) (item : List Char) : String :=
  policy.digest (utf8 (tagged tag item).toList)

/-- The value of an identity that a form names by itself. -/
def identityMatches (identity : GreenhouseApplicationIdentity) (kind : IdentityKind)
    (value : List Char) : Bool :=
  match kind with
  | .board => policy.casefold (String.ofList value) == identity.boardToken
  | .job => String.ofList value == identity.jobToken

/-- A system control has a value, and the check mark has its own. -/
def systemValueValid (name : String) (value : List Char) : Bool :=
  if name = "utf8" then value == ['✓'] else !value.isEmpty

end Names

/-! ## The loop over the parts -/

/-- What the loop has collected. -/
structure PayloadWalk where
  /-- `observed_by_field`, in the order of the entries. -/
  observed : List (String × Observation)
  systemNames : List String
  identityKinds : List IdentityKind
  submitterCount : ℕ
  totalTextBytes : ℕ
  routedResumeCvCount : ℕ
  canonical : List FormEntry

def PayloadWalk.start : PayloadWalk where
  observed := []
  systemNames := []
  identityKinds := []
  submitterCount := 0
  totalTextBytes := 0
  routedResumeCvCount := 0
  canonical := []

section Walk

variable (policy : WirePolicy) (expectation : PayloadExpectation)

def readPart (part : MailPart) : Except PayloadRefusal FormEntry := do
  demand (!part.hasDefects && !part.isMultipart && part.headersValid policy
    && decide (encodedLength part.disposition ≤ 1024)
    && part.contentDisposition == some "form-data") formRefusal
  let (name, filename) ← part.names policy
  let payload ← orRefuse part.payload formRefusal
  match filename with
  | none =>
    demand (part.isPlainText policy && decide (payload.length ≤ maxTextPartBytes)) formRefusal
    let value ← orRefuse (decodeUtf8 payload) formRefusal
    return .text name.toList (normalizedBreaks (String.ofList value))
  | some .encoded => .error attachmentRefusal
  | some (.plain filename) =>
    let fileType := policy.casefold (String.ofList (strip part.contentType))
    demand (!filename.toList.contains '/' && !filename.toList.contains '\\'
      && decide (encodedLength filename ≤ 255)
      && decide (payload.length ≤ maxNativeFileBytes) && part.contentTypes policy == 1
      && fileType != "" && decide (encodedLength fileType ≤ 160)) attachmentRefusal
    return .file name.toList filename.toList fileType.toList payload.length
      (policy.digest payload)

/-- `bindings_by_name.get(name_sha256)`. -/
def PayloadExpectation.bindingFor (name : List Char) : Option GreenhouseAnswerBinding :=
  expectation.answerBindings.find? fun binding =>
    binding.controlNameSha256 == nameSha256 policy name

/-- A text entry; an answer, the submitter, an identity or a system control, in this order. -/
def takeText (walk : PayloadWalk) (name value : List Char) : Except PayloadRefusal PayloadWalk := do
  let next : PayloadWalk := { walk with
    totalTextBytes := walk.totalTextBytes + (utf8 value).length
    canonical := walk.canonical ++ [FormEntry.text name value] }
  demand (next.totalTextBytes ≤ maxNativeTextBytes) formRefusal
  match expectation.bindingFor policy name with
  | some binding =>
    demand (binding.reviewed.fieldType != .file) formRefusal
    return { next with
      observed := walk.observed ++ [(binding.reviewed.fieldId, Observation.text value)] }
  | none =>
    match expectation.submitterBinding.filter fun submitter =>
        submitter.controlNameSha256 == nameSha256 policy name with
    | some submitter =>
      demand (answerMaterialSha256 policy "s" (JsonText.quoted value) ==
        submitter.valueSha256) formRefusal
      return { next with submitterCount := walk.submitterCount + 1 }
    | none =>
      match actionIdentityKind policy (String.ofList name) with
      | some kind =>
        demand (!walk.identityKinds.contains kind
          && identityMatches policy expectation.identity kind value) formRefusal
        return { next with identityKinds := kind :: walk.identityKinds }
      | none =>
        let found := String.ofList name
        demand (systemControlNames.contains found && systemValueValid found value
          && !walk.systemNames.contains found) formRefusal
        return { next with systemNames := found :: walk.systemNames }

/-- A file entry; the resume, once. -/
def takeFile (walk : PayloadWalk) (name filename mediaType : List Char) (size : ℕ)
    (digest : String) : Except PayloadRefusal PayloadWalk := do
  let binding ← orRefuse (expectation.bindingFor policy name) attachmentRefusal
  demand (binding.reviewed.fieldType == .file
    && nameSha256 policy name == expectation.resumeControlNameSha256 && !filename.isEmpty
    && size != 0 && digest == expectation.cvSha256 && walk.routedResumeCvCount == 0)
    attachmentRefusal
  return { walk with
    observed := walk.observed ++ [(binding.reviewed.fieldId, Observation.file digest)]
    routedResumeCvCount := walk.routedResumeCvCount + 1
    canonical := walk.canonical ++ [FormEntry.file name filename mediaType size digest] }

def takeEntry (walk : PayloadWalk) : FormEntry → Except PayloadRefusal PayloadWalk
  | .text name value => takeText policy expectation walk name value
  | .file name filename mediaType size digest =>
    takeFile policy expectation walk name filename mediaType size digest

def takePart (walk : PayloadWalk) (part : MailPart) : Except PayloadRefusal PayloadWalk :=
  readPart policy part >>= takeEntry policy expectation walk

/-! ## The answers -/

/-- The digest of what was observed for a field, by the type of the field. -/
def observedSha256 (fieldType : FieldType) (observed : List Observation) :
    Except PayloadRefusal String :=
  if fieldType = .file then
    .ok (answerMaterialSha256 policy "f" (JsonText.quoted expectation.cvSha256.toList))
  else do
    let texts ← orRefuse (observed.mapM Observation.text?) formRefusal
    if fieldType = .multiSelect then
      return answerMaterialSha256 policy "m"
        (JsonText.array ((sortedTexts texts).map JsonText.quoted))
    else if fieldType ∈ booleanFieldTypes then do
      demand (decide (texts.length ≤ 1)) formRefusal
      return answerMaterialSha256 policy "b" (booleanText (texts.length == 1))
    else
      match texts with
      | [value] => return answerMaterialSha256 policy "s" (JsonText.quoted value)
      | _ => .error formRefusal

/-- One iteration of the loop over the bindings. -/
def checkBinding (walk : PayloadWalk) (binding : GreenhouseAnswerBinding) :
    Except PayloadRefusal Unit := do
  let observed := observedFor walk.observed binding.reviewed.fieldId
  demand (observed.length == binding.reviewed.successfulEntryCount) formRefusal
  let found ← observedSha256 policy expectation binding.reviewed.fieldType observed
  demand (found == binding.reviewed.valueSha256) formRefusal

def contentTypeHead (table : CharacterTable) : Regex :=
  Regex.inOrder [Regex.word table.sameLetter "multipart/form-data".toList,
    Regex.many (.char table.isBlank), .char (· == ';'), Regex.many (.char table.isBlank),
    Regex.word table.sameLetter "boundary=".toList]

def multipartPayloadCommitment (contentType : String) (body : List UInt8) :
    Except PayloadRefusal String := do
  let bindings := expectation.answerBindings
  demand (isSha256Digest expectation.cvSha256 && isSha256Digest expectation.resumeControlNameSha256
    && !bindings.isEmpty && !body.isEmpty && decide (body.length ≤ maxNativeBodyBytes)
    && !hasLineBreak contentType) formRefusal
  let boundary ← orRefuse
    (multipartBoundary policy.table (contentTypeHead policy.table) 70 contentType) formRefusal
  demand (isDelimited boundary body) formRefusal
  let message ← orRefuse (parsedBody policy contentType body) none
  demand (!message.hasDefects && message.isMultipart && !message.parts.isEmpty
    && decide (message.parts.length ≤ maxNativeEntries)) formRefusal
  demand (isUnique (bindings.map GreenhouseAnswerBinding.controlNameSha256)
    && (bindings.countP fun binding => binding.reviewed.fieldType == .file
      && binding.controlNameSha256 == expectation.resumeControlNameSha256) == 1) formRefusal
  let walk ← message.parts.foldlM (takePart policy expectation) .start
  bindings.forM (checkBinding policy expectation walk)
  demand (walk.routedResumeCvCount == 1) attachmentRefusal
  demand (walk.submitterCount == if expectation.submitterBinding.isSome then 1 else 0) formRefusal
  return canonicalPayloadCommitment policy walk.canonical

end Walk

end Greenhouse

end JobApplyAgent.Adapters
