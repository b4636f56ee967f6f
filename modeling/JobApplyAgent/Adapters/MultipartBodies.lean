import JobApplyAgent.Adapters.AnswerBindings
import JobApplyAgent.Library.Utf8

/-!
# Multipart bodies

What the mail parser reads of an outgoing body, and the entries of a form that an adapter reads
of its parts; what the Greenhouse and the Ashby adapter ask alike of a body and of its parts, and
the commitment that both take of the entries.
-/

namespace JobApplyAgent.Adapters

open Domain Forms Library

/-! ## What the parser reads -/

/-- The value of a parameter of a header; one with a character set of its own is no text. -/
inductive MailValue where
  | plain (text : String)
  | encoded
  deriving DecidableEq

structure MailPart where
  hasDefects : Bool
  isMultipart : Bool
  /-- `raw_items()`; bytes that are no text are `none`. -/
  rawItems : List (String × Option String)
  /-- `get("Content-Disposition", "")`. -/
  disposition : String
  /-- `get_content_disposition()`. -/
  contentDisposition : Option String
  /-- `get_params(header="content-disposition")`. -/
  parameters : List (String × MailValue)
  /-- `get_filename()`. -/
  filename : Option String
  /-- `get_content_type()`. -/
  contentType : String
  /-- `get_content_charset()`. -/
  contentCharset : Option String
  /-- `get_payload(decode=True)`. -/
  payload : Option (List UInt8)
  deriving DecidableEq

structure MailMessage where
  hasDefects : Bool
  isMultipart : Bool
  /-- `get_boundary()`. -/
  boundary : Option String
  preamble : Option String
  epilogue : Option String
  /-- `get_content_type()`. -/
  contentType : String
  /-- `iter_parts()`. -/
  parts : List MailPart
  deriving DecidableEq

/-- The rules of bindings, and what a check of a body knows of letters, digests and mail. -/
structure WirePolicy extends BindingPolicy where
  /-- `text.lower()`. -/
  lower : String → String
  table : CharacterTable
  /-- `hashlib.sha256(data).hexdigest()`. -/
  digest : List UInt8 → String
  /-- `BytesParser(policy=policy.default).parsebytes(data)`; `none` where it raises. -/
  parsebytes : List UInt8 → Option MailMessage
  digest_text : ∀ text : String, sha256Hex text = digest (utf8 text.toList)

/-- `len(text.encode("utf-8"))`. -/
def encodedLength (text : String) : ℕ :=
  (utf8 text.toList).length

/-- `text.encode("ascii")`; `none` where it raises. -/
def asciiBytes (text : String) : Option (List UInt8) :=
  if text.toList.all fun character => character.toNat < 128 then some (utf8 text.toList) else none

def hasLineBreak (text : String) : Bool :=
  text.toList.any fun character => character == '\r' || character == '\n'

section Reading

variable (policy : WirePolicy)

/-- The body behind the header of its content type, as the parser reads it. -/
def parsedBody (contentType : String) (body : List UInt8) : Option MailMessage :=
  (asciiBytes contentType).bind fun header =>
    policy.parsebytes (utf8 "Content-Type: ".toList ++ header
      ++ utf8 "\r\nMIME-Version: 1.0\r\n\r\n".toList ++ body)

/-- `len(part.get_all(name, []))`. -/
def MailPart.count (part : MailPart) (name : String) : ℕ :=
  part.rawItems.countP fun item => policy.lower item.1 == name

/-- `part.get_param("name", header="content-disposition")`. -/
def MailPart.nameParameter (part : MailPart) : Option MailValue :=
  (part.parameters.find? fun parameter => policy.lower parameter.1 == "name").map Prod.snd

/-- The values of a parameter behind the disposition itself. -/
def MailPart.named (part : MailPart) (name : String) : List MailValue :=
  (part.parameters.tail.filter fun parameter => policy.casefold parameter.1 == name).map Prod.snd

end Reading

/-! ## Entries -/

/-- What a form sends: a text, or a file of a size and a digest. -/
inductive FormEntry where
  | text (name value : List Char)
  | file (name filename mediaType : List Char) (size : ℕ) (digest : String)

namespace FormEntry

def name : FormEntry → List Char
  | text name _ => name
  | file name _ _ _ _ => name

def isFile : FormEntry → Bool
  | text _ _ => false
  | file _ _ _ _ _ => true

/-- The texts of an entry, in the order in which they are committed to. -/
def texts : FormEntry → List (List Char)
  | text name value => [name, value]
  | file name filename mediaType size digest =>
    [name, filename, mediaType, Nat.toDigits 10 size, digest.toList]

theorem texts_inj {first second : FormEntry} (hkind : first.isFile = second.isFile)
    (htexts : first.texts = second.texts) : first = second := by
  cases first with
  | text name value =>
    cases second with
    | text other found =>
      simp only [texts, List.cons.injEq, and_true] at htexts
      rw [htexts.1, htexts.2]
    | file => cases hkind
  | file name filename mediaType size digest =>
    cases second with
    | text => cases hkind
    | file other found kind count hash =>
      simp only [texts, List.cons.injEq, and_true] at htexts
      obtain ⟨hname, hfilename, hmedia, hsize, hdigest⟩ := htexts
      rw [hname, hfilename, hmedia, toDigits_injective hsize, String.toList_inj.mp hdigest]

theorem length_texts (entry : FormEntry) :
    entry.texts.length = if entry.isFile then 5 else 2 := by
  cases entry <;> rfl

end FormEntry

/-! ## Parts as entries -/

/-- Where an adapter finds the name, the file name and the media type of a part. -/
structure PartReading where
  name : MailPart → Option MailValue
  filename : MailPart → Option MailValue
  mediaType : MailPart → String

/-- A part stands for an entry: a text as a form sends its line breaks, a file by its size and
its digest. -/
inductive PartReading.Reads (reading : PartReading) (digest : List UInt8 → String)
    (part : MailPart) : FormEntry → Prop where
  | text {name : String} {payload : List UInt8} {value : List Char}
      (hname : reading.name part = some (.plain name)) (hfilename : reading.filename part = none)
      (hpayload : part.payload = some payload) (hvalue : decodeUtf8 payload = some value) :
      Reads reading digest part (.text name.toList (normalizedBreaks (String.ofList value)))
  | file {name filename : String} {payload : List UInt8}
      (hname : reading.name part = some (.plain name))
      (hfilename : reading.filename part = some (.plain filename))
      (hpayload : part.payload = some payload) :
      Reads reading digest part (.file name.toList filename.toList
        (reading.mediaType part).toList payload.length (digest payload))

def SameEntries (policy : WirePolicy) (reading : PartReading) (firstType secondType : String)
    (firstBody secondBody : List UInt8) : Prop :=
  ∃ first second entries, parsedBody policy firstType firstBody = some first ∧
    parsedBody policy secondType secondBody = some second ∧
    List.Forall₂ (reading.Reads policy.digest) first.parts entries ∧
    List.Forall₂ (reading.Reads policy.digest) second.parts entries

/-! ## Refusals -/

/-- Why a body is refused; `none` is an error that nothing catches. -/
abbrev PayloadRefusal := Option ReasonCode

def formRefusal : PayloadRefusal := some .formChanged

def attachmentRefusal : PayloadRefusal := some .attachmentUnverified

/-- Go on where a condition holds. -/
def demand (condition : Bool) (refusal : PayloadRefusal) : Except PayloadRefusal Unit :=
  if condition then .ok () else .error refusal

theorem demand_eq_ok :
    demand condition refusal = .ok result ↔ condition = true := by
  cases condition <;> simp [demand]

def orRefuse {α : Type} (value : Option α) (refusal : PayloadRefusal) : Except PayloadRefusal α :=
  match value with
  | some found => .ok found
  | none => .error refusal

theorem orRefuse_eq_ok {α : Type} {value : Option α} {result : α} :
    orRefuse value refusal = .ok result ↔ value = some result := by
  cases value <;> simp [orRefuse]

/-! ## Boundaries -/

/-- A text between quotes, or one without blanks and semicolons. -/
def boundaryText (table : CharacterTable) (maximum : ℕ) (rest : List Char) : Option (List Char) :=
  let bare := decide (1 ≤ rest.length ∧ rest.length ≤ maximum)
    && rest.all fun character => character != ';' && !table.isBlank character
  match rest with
  | '"' :: quoted =>
    let inner := quoted.dropLast
    if quoted.getLast? = some '"' ∧ 1 ≤ inner.length ∧ inner.length ≤ maximum
        ∧ !inner.contains '"' then some inner
    else if bare then some rest else none
  | _ => if bare then some rest else none

def isBoundary (maximum : ℕ) (boundary : List Char) : Bool :=
  decide (1 ≤ boundary.length ∧ boundary.length ≤ maximum)
    && boundary.all fun character =>
      character.isAlphanum || "'()+_,./:=?-".toList.contains character

/-- The boundary of a content type that begins as a pattern says. -/
def multipartBoundary (table : CharacterTable) (head : Regex) (maximum : ℕ)
    (contentType : String) : Option (List Char) :=
  ((head.ends ⟨[], strip contentType⟩).findSome? fun place =>
    boundaryText table maximum place.after).filter (isBoundary maximum)

/-- The body begins with the delimiter and ends with the last one. -/
def isDelimited (boundary : List Char) (body : List UInt8) : Bool :=
  let delimiter := utf8 ('-' :: '-' :: boundary)
  let newline := utf8 ['\r', '\n']
  (delimiter ++ newline).isPrefixOf body
    && ((newline ++ delimiter ++ utf8 "--\r\n".toList).isSuffixOf body
      || (newline ++ delimiter ++ utf8 "--".toList).isSuffixOf body)

/-! ## Canonical entries -/

def base64Utf8 (text : List Char) : List Char :=
  Base64.encode (utf8 text)

/-- The texts that an entry adds to the commitment. -/
def FormEntry.canonical : FormEntry → List (List Char)
  | text name value => [['t'], base64Utf8 name, base64Utf8 value]
  | file name filename mediaType size digest =>
    [['f'], base64Utf8 name, base64Utf8 filename, base64Utf8 mediaType, Nat.toDigits 10 size,
      digest.toList]

def canonicalPayloadCommitment (policy : WirePolicy) (entries : List FormEntry) : String :=
  policy.digest (utf8 (JsonText.array (entries.map fun entry =>
    JsonText.array (entry.canonical.map JsonText.asciiQuoted))))

theorem base64Utf8_injective : Function.Injective base64Utf8 :=
  Base64.encode_injective.comp utf8_injective

theorem canonical_injective : Function.Injective FormEntry.canonical := by
  intro first second heq
  cases first with
  | text name value =>
    cases second with
    | text other found =>
      simp only [FormEntry.canonical, List.cons.injEq, and_true, true_and] at heq
      rw [base64Utf8_injective heq.1, base64Utf8_injective heq.2]
    | file => simp [FormEntry.canonical] at heq
  | file name filename mediaType size digest =>
    cases second with
    | text => simp [FormEntry.canonical] at heq
    | file other found kind count hash =>
      simp only [FormEntry.canonical, List.cons.injEq, and_true, true_and] at heq
      obtain ⟨hname, hfilename, hmedia, hsize, hdigest⟩ := heq
      rw [base64Utf8_injective hname, base64Utf8_injective hfilename,
        base64Utf8_injective hmedia, toDigits_injective hsize, String.toList_inj.mp hdigest]

/-- The commitment tells the entries and their order. -/
theorem canonicalPayloadCommitment_injective (hfree : Function.Injective policy.digest) :
    Function.Injective (canonicalPayloadCommitment policy) := by
  have hentry : SelfDelimiting fun entry : FormEntry =>
      JsonText.array (entry.canonical.map JsonText.asciiQuoted) :=
    JsonText.array_asciiQuoted_selfDelimiting.comp canonical_injective
  have harray := JsonText.array_selfDelimiting hentry fun entry rest tail hbegins => by
    cases entry <;> cases hbegins
  intro first second heq
  exact harray.injective (utf8_injective (hfree heq))

/-! ## Parts -/

/-- The headers of a part: one disposition, and at most a content type besides. -/
def MailPart.headersValid (policy : WirePolicy) (part : MailPart) : Bool :=
  let names := part.rawItems.map fun item => policy.casefold item.1
  !names.isEmpty && decide (names.length ≤ 2)
    && names.all (fun name => ["content-disposition", "content-type"].contains name)
    && names.count "content-disposition" == 1

def MailPart.contentTypes (policy : WirePolicy) (part : MailPart) : ℕ :=
  part.rawItems.countP fun item => policy.casefold item.1 == "content-type"

def MailPart.names (policy : WirePolicy) (part : MailPart) :
    Except PayloadRefusal (String × Option MailValue) :=
  let filenames := part.named policy "filename"
  match part.named policy "name" with
  | [.plain name] =>
    if name ≠ "" ∧ encodedLength name ≤ 256 ∧ filenames.length ≤ 1 then
      .ok (name, filenames.head?)
    else .error formRefusal
  | _ => .error formRefusal

def MailPart.isPlainText (policy : WirePolicy) (part : MailPart) : Bool :=
  part.contentTypes policy == 0
    || policy.casefold part.contentType == "text/plain"
      && policy.casefold (match part.contentCharset with
        | none | some "" => "utf-8"
        | some charset => charset) == "utf-8"

/-! ## Observations -/

/-- What one entry shows of the answer to a field. -/
inductive Observation where
  | text (value : List Char)
  | file (digest : String)
  deriving DecidableEq

def Observation.text? : Observation → Option (List Char)
  | .text value => some value
  | .file _ => none

def FormEntry.observation : FormEntry → Observation
  | .text _ value => .text value
  | .file _ _ _ _ digest => .file digest

/-- What a loop has observed for one field, in the order of the entries. -/
def observedFor (observed : List (String × Observation)) (fieldId : String) : List Observation :=
  (observed.filter fun item => item.1 == fieldId).map Prod.snd

/-- What a log of owned entries shows for one owner is what that owner's entries show. -/
theorem observedFor_log {owner : FormEntry → Option String} (entries : List FormEntry)
    (fieldId : String) :
    observedFor (entries.filterMap fun entry => (owner entry).map fun id =>
        (id, entry.observation)) fieldId =
      (entries.filter fun entry => owner entry == some fieldId).map FormEntry.observation := by
  rw [observedFor]
  induction entries with
  | nil => rfl
  | cons entry entries ih =>
    rw [List.filterMap_cons, List.filter_cons]
    cases howner : owner entry with
    | none => simpa using ih
    | some id =>
      by_cases hid : id = fieldId
      · simp [hid, ih]
      · simp [hid, ih]

/-! ## Reading -/

/-- The one name and the one file name behind the disposition. -/
def strictReading (policy : WirePolicy) : PartReading where
  name part := (part.named policy "name").head?
  filename part := (part.named policy "filename").head?
  mediaType part := policy.casefold (String.ofList (strip part.contentType))

theorem names_eq_ok (hnames : part.names policy = .ok (name, filename)) :
    (strictReading policy).name part = some (.plain name) ∧
      (strictReading policy).filename part = filename := by
  simp only [MailPart.names] at hnames
  simp only [strictReading]
  split at hnames
  · next hname =>
    split at hnames
    · cases hnames
      rw [hname]
      exact ⟨rfl, rfl⟩
    · cases hnames
  · cases hnames

/-- A loop that reads a part and takes its entry is a loop over the entries. -/
theorem foldlM_read {σ : Type} {read : MailPart → Except PayloadRefusal FormEntry}
    {take : σ → FormEntry → Except PayloadRefusal σ} {state last : σ}
    (hwalk : parts.foldlM (fun state part => read part >>= take state) state = .ok last) :
    ∃ entries, List.Forall₂ (fun part entry => read part = .ok entry) parts entries ∧
      entries.foldlM take state = .ok last := by
  induction parts generalizing state with
  | nil => exact ⟨[], .nil, hwalk⟩
  | cons part parts ih =>
    rw [List.foldlM_cons] at hwalk
    obtain ⟨next, hnext, hrest⟩ := bind_eq_ok.mp hwalk
    obtain ⟨entry, hentry, htake⟩ := bind_eq_ok.mp hnext
    obtain ⟨entries, hentries, hlast⟩ := ih hrest
    refine ⟨entry :: entries, .cons hentry hentries, ?_⟩
    rw [List.foldlM_cons]
    exact bind_eq_ok.mpr ⟨next, htake, hlast⟩

end JobApplyAgent.Adapters
