import JobApplyAgent.Adapters.MultipartBodies

/-!
# The Ashby payload check

The bindings of reviewed answers by type, and the last check of an outgoing body: every part is
an answer, a system control or the submitter of the request contract.
-/

namespace JobApplyAgent.Adapters

open Domain Forms Library

namespace Ashby

def bindingInvalid : String := "ASHBY_ANSWER_BINDING_INVALID"

def maxFieldCount : ℕ := 200

def maxNativeBodyBytes : ℕ := 24 * 1024 * 1024

def maxMultipartParts : ℕ := 256

def maxTextBytes : ℕ := 1024 * 1024

def maxTextPartBytes : ℕ := 262144

def maxFileBytes : ℕ := 20 * 1024 * 1024

/-! ## Bindings -/

/-- One reviewed answer represented only by a type-aware digest. -/
structure AnswerBinding where
  fieldId : String
  fieldType : FieldType
  valueSha256 : String
  fieldIdValid : isFieldId fieldId = true
  digestValid : isSha256Digest valueSha256 = true

/-- `AshbyAnswerBinding`, once it is validated. -/
def answerBinding (fieldId : String) (fieldType : FieldType) (valueSha256 : String) :
    Except String AnswerBinding :=
  if hvalid : isFieldId fieldId = true ∧ isSha256Digest valueSha256 = true then
    .ok ⟨fieldId, fieldType, valueSha256, hvalid.1, hvalid.2⟩
  else .error bindingInvalid

def fileMaterial (cvHash : String) : List Char :=
  "file:".toList ++ cvHash.toList

def multiMaterial (texts : List (List Char)) : List Char :=
  "multi:".toList ++ JsonText.array ((sortedTexts texts).map JsonText.asciiQuoted)

def boolMaterial (value : Bool) : List Char :=
  "bool:".toList ++ if value then ['1'] else ['0']

def valueMaterial (text : List Char) : List Char :=
  "value:".toList ++ text

section Bindings

variable (policy : BindingPolicy)

/-- A value that is no truth value and no choice of several, as it is bound. -/
def scalarSpelling : AnswerValue → Option (List Char)
  | .text text => some (normalizedBreaks text)
  | .int number => some (toString number).toList
  | .float number => some (policy.floatText number).toList
  | .flag _ | .texts _ => none

def reviewedMaterial (fieldType : FieldType) (value : AnswerValue) (selectedCvHash : String) :
    Except String (List Char) :=
  if fieldType = .file then
    if value = .text verifiedAttachmentSentinel then .ok (fileMaterial selectedCvHash)
    else .error bindingInvalid
  else if fieldType = .multiSelect then
    match value with
    | .texts items => .ok (multiMaterial (items.map normalizedBreaks))
    | _ => .error bindingInvalid
  else if fieldType ∈ booleanFieldTypes then
    match value with
    | .flag flag => .ok (boolMaterial flag)
    | _ => .error bindingInvalid
  else
    match scalarSpelling policy value with
    | some text => .ok (valueMaterial text)
    | none => .error bindingInvalid

/-- One iteration of the loop over the fields. -/
def bindField (decisions : List AnswerDecisionV1) (selectedCvHash : String)
    (field : FormFieldV1) : Except String AnswerBinding :=
  match decisions.find? fun decision => decision.fieldId == field.fieldId with
  | none => .error bindingInvalid
  | some decision =>
    match decision.disposition, decision.value with
    | .resolved, some value => do
        let material ← reviewedMaterial policy field.fieldType value selectedCvHash
        answerBinding field.fieldId field.fieldType
          (policy.sha256Hex (String.ofList material))
    | _, _ => .error bindingInvalid

end Bindings

/-! ## The request contract -/

structure FieldControl where
  fieldId : String
  fieldType : FieldType
  names : List String

/-- `_CONTROL_NAME_RE`. -/
def isControlName (text : String) : Bool :=
  decide (1 ≤ text.length ∧ text.length ≤ 256)
    && text.toList.all fun character =>
      character.isAlphanum || ['_', '.', ':', '[', ']', '-'].contains character

/-- The controls of `AshbyFinalRequestContract.__post_init__`. -/
def requestContractValid (fieldControls : List FieldControl) (systemControls : List String)
    (submitControl : String × String) : Bool :=
  let reviewedNames := fieldControls.flatMap FieldControl.names
  !fieldControls.isEmpty && decide (fieldControls.length ≤ maxFieldCount)
    && fieldControls.all (fun control => isFieldId control.fieldId && control.names.length == 1
      && control.names.all isControlName)
    && isUnique (fieldControls.map FieldControl.fieldId) && isUnique reviewedNames
    && decide (systemControls.length ≤ maxFieldCount) && systemControls.all isControlName
    && isUnique systemControls && systemControls.all (fun name => !reviewedNames.contains name)
    && isControlName submitControl.1 && !reviewedNames.contains submitControl.1
    && !systemControls.contains submitControl.1
    && decide (0 < submitControl.2.length ∧ submitControl.2.length ≤ 256)
    && submitControl.2.toList.all fun character =>
      decide (31 < character.toNat) && character.toNat != 127

/-- What the check of a body is given of the expectation of one commit. -/
structure PayloadExpectation where
  fieldControls : List FieldControl
  systemControls : List String
  submitControl : String × String
  answerBindings : List AnswerBinding
  selectedCvHash : String
  contractValid : requestContractValid fieldControls systemControls submitControl = true
  boundInOrder : answerBindings.map (fun binding => (binding.fieldId, binding.fieldType)) =
    fieldControls.map fun control => (control.fieldId, control.fieldType)
  selected : isSha256Digest selectedCvHash = true

/-! ## The loop over the parts -/

/-- What the loop has collected. -/
structure PayloadWalk where
  /-- `observed`, in the order of the entries. -/
  observed : List (String × Observation)
  systemSeen : List String
  submitSeen : ℕ
  totalTextBytes : ℕ
  canonical : List FormEntry

def PayloadWalk.start : PayloadWalk where
  observed := []
  systemSeen := []
  submitSeen := 0
  totalTextBytes := 0
  canonical := []

section Walk

variable (policy : WirePolicy) (expectation : PayloadExpectation)

/-- `re.findall(r"(?:^|;)\s*key\s*=", text, re.IGNORECASE)`. -/
def parameterSpellings (key text : String) : ℕ :=
  let table := policy.table
  ((Regex.inOrder [.either (.assert Regex.atStart) (.char (· == ';')),
    Regex.many (.char table.isBlank), Regex.word table.sameLetter key.toList,
    Regex.many (.char table.isBlank), .char (· == '=')]).findIter text.toList).length

def rawDisposition (part : MailPart) : Option String :=
  (part.rawItems.find? fun item => policy.casefold item.1 == "content-disposition").bind Prod.snd

def readPart (part : MailPart) : Except PayloadRefusal FormEntry := do
  demand (!part.hasDefects && !part.isMultipart && part.headersValid policy) formRefusal
  let raw ← orRefuse (rawDisposition policy part) none
  demand (decide (encodedLength raw ≤ 1024) && !hasLineBreak raw
    && parameterSpellings policy "name" raw == 1
    && decide (parameterSpellings policy "filename" raw ≤ 1)
    && decide (encodedLength part.disposition ≤ 1024)
    && part.contentDisposition == some "form-data") formRefusal
  let (name, filename) ← part.names policy
  demand (!hasLineBreak part.disposition) formRefusal
  let payload ← orRefuse part.payload formRefusal
  match filename with
  | none =>
    demand (part.isPlainText policy) formRefusal
    let value ← orRefuse (decodeUtf8 payload) formRefusal
    demand (decide (payload.length ≤ maxTextPartBytes)) formRefusal
    return .text name.toList (normalizedBreaks (String.ofList value))
  | some .encoded => .error attachmentRefusal
  | some (.plain filename) =>
    let mediaType := policy.casefold (String.ofList (strip part.contentType))
    demand (!filename.toList.contains '/' && !filename.toList.contains '\\'
      && decide (encodedLength filename ≤ 255) && mediaType != ""
      && decide (encodedLength mediaType ≤ 160) && decide (payload.length ≤ maxFileBytes))
      attachmentRefusal
    return .file name.toList filename.toList mediaType.toList payload.length
      (policy.digest payload)

/-- `field_by_name.get(name)`. -/
def PayloadExpectation.controlFor (name : List Char) : Option FieldControl :=
  expectation.fieldControls.find? fun control => control.names == [String.ofList name]

/-- A text entry; an answer, a system control or the submitter, in this order. -/
def takeText (walk : PayloadWalk) (name value : List Char) : Except PayloadRefusal PayloadWalk := do
  let next : PayloadWalk := { walk with
    totalTextBytes := walk.totalTextBytes + (utf8 value).length
    canonical := walk.canonical ++ [FormEntry.text name value] }
  demand (next.totalTextBytes ≤ maxTextBytes) formRefusal
  match expectation.controlFor name with
  | some control =>
    return { next with observed := walk.observed ++ [(control.fieldId, Observation.text value)] }
  | none =>
    let found := String.ofList name
    if expectation.systemControls.contains found then
      demand (!value.isEmpty && !walk.systemSeen.contains found) formRefusal
      return { next with systemSeen := found :: walk.systemSeen }
    else
      demand (found == expectation.submitControl.1
        && String.ofList value == expectation.submitControl.2) formRefusal
      return { next with submitSeen := walk.submitSeen + 1 }

/-- A file entry, the selected CV. -/
def takeFile (walk : PayloadWalk) (name filename mediaType : List Char) (size : ℕ)
    (digest : String) : Except PayloadRefusal PayloadWalk := do
  let control ← orRefuse (expectation.controlFor name) attachmentRefusal
  demand (control.fieldType == .file && !filename.isEmpty && size != 0
    && digest == expectation.selectedCvHash) attachmentRefusal
  return { walk with
    observed := walk.observed ++ [(control.fieldId, Observation.file digest)]
    canonical := walk.canonical ++ [FormEntry.file name filename mediaType size digest] }

def takeEntry (walk : PayloadWalk) : FormEntry → Except PayloadRefusal PayloadWalk
  | .text name value => takeText expectation walk name value
  | .file name filename mediaType size digest =>
    takeFile expectation walk name filename mediaType size digest

def takePart (walk : PayloadWalk) (part : MailPart) : Except PayloadRefusal PayloadWalk :=
  readPart policy part >>= takeEntry expectation walk

/-! ## The answers -/

def answerMaterial (fieldType : FieldType) (observed : List Observation) (cvHash : String) :
    Except PayloadRefusal (List Char) :=
  if fieldType = .file then
    if observed = [Observation.file cvHash] then .ok (fileMaterial cvHash)
    else .error attachmentRefusal
  else do
    let texts ← orRefuse (observed.mapM Observation.text?) formRefusal
    if fieldType = .multiSelect then
      return multiMaterial texts
    else if fieldType ∈ booleanFieldTypes then do
      demand (decide (texts.length ≤ 1)) formRefusal
      return boolMaterial (texts.length == 1)
    else
      match texts with
      | [value] => return valueMaterial value
      | _ => .error formRefusal

/-- One iteration of the loop over the controls. -/
def checkControl (walk : PayloadWalk) (control : FieldControl) : Except PayloadRefusal Unit := do
  let binding ← orRefuse (expectation.answerBindings.find? fun binding =>
    binding.fieldId == control.fieldId) formRefusal
  demand (binding.fieldType == control.fieldType) formRefusal
  let material ← answerMaterial control.fieldType (observedFor walk.observed control.fieldId)
    expectation.selectedCvHash
  demand (policy.digest (utf8 material) == binding.valueSha256) formRefusal

def contentTypeHead (table : CharacterTable) : Regex :=
  Regex.inOrder [Regex.word table.sameLetter "multipart/form-data".toList, .char (· == ';'),
    Regex.many (.char table.isBlank), Regex.word table.sameLetter "boundary=".toList]

def multipartPayloadCommitment (contentType : String) (body : List UInt8) :
    Except PayloadRefusal String := do
  demand (!body.isEmpty && decide (body.length ≤ maxNativeBodyBytes)
    && !hasLineBreak contentType) formRefusal
  let boundary ← orRefuse
    (multipartBoundary policy.table (contentTypeHead policy.table) 200 contentType) formRefusal
  demand (isDelimited boundary body) formRefusal
  let _ ← orRefuse (asciiBytes contentType) none
  let message ← orRefuse (parsedBody policy contentType body) formRefusal
  demand (!message.hasDefects && message.isMultipart && !message.parts.isEmpty
    && decide (message.parts.length ≤ maxMultipartParts)) formRefusal
  demand (expectation.fieldControls.all (fun control => control.names.length == 1)
    && isUnique (expectation.fieldControls.flatMap FieldControl.names)) formRefusal
  let walk ← message.parts.foldlM (takePart policy expectation) .start
  demand (walk.systemSeen.all expectation.systemControls.contains
    && expectation.systemControls.all walk.systemSeen.contains && walk.submitSeen == 1) formRefusal
  expectation.fieldControls.forM (checkControl policy expectation walk)
  return canonicalPayloadCommitment policy walk.canonical

end Walk

end Ashby

end JobApplyAgent.Adapters
