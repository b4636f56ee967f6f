import JobApplyAgent.Adapters.BindingTexts
import JobApplyAgent.Adapters.MultipartBodies
import JobApplyAgent.Library.QueryString

/-!
# Length-framed commitments

The digest of an outgoing body as the Workday, Lever and SmartRecruiters adapters take it: every
entry a tag and its texts, each behind its length in bytes.
-/

namespace JobApplyAgent.Adapters

open Domain Forms Library QueryString

/-- What one adapter has of its own. -/
structure FramedCommitment where
  version : String
  maxBodyBytes : ℕ
  maxEntries : ℕ
  maxStringBytes : ℕ
  maxNameBytes : ℕ
  maxFilenameBytes : ℕ
  maxMediaTypeBytes : ℕ
  maxFileBytes : ℕ

def maxContentTypeBytes : ℕ := 512

def maxBoundaryBytes : ℕ := 70

def lengthFrame (text : List Char) : List UInt8 :=
  frame decimalBytes colon (utf8 (normalizedBreaks (String.ofList text)))

def boundedFormName (maximum : ℕ) (name : String) : Option String :=
  if name ≠ "" ∧ encodedLength name ≤ maximum
      ∧ name.toList.all (fun character => 32 ≤ character.toNat && character.toNat != 127) then
    some name
  else none

/-- The bytes of `S` and of `F`. -/
def stringTag : UInt8 := 83

def fileTag : UInt8 := 70

/-- What an entry adds to the material. -/
def FormEntry.framed : FormEntry → List UInt8
  | text name value => stringTag :: (lengthFrame name ++ lengthFrame value)
  | file name filename mediaType size digest =>
    fileTag :: (lengthFrame name ++ lengthFrame filename ++ lengthFrame mediaType
      ++ lengthFrame (Nat.toDigits 10 size) ++ lengthFrame digest.toList)

/-- The counters and the material of the loop over the entries. -/
structure FrameWalk where
  entryCount : ℕ
  stringBytes : ℕ
  fileCount : ℕ
  material : List UInt8

namespace FramedCommitment

variable (commitment : FramedCommitment) (policy : WirePolicy)

def start : FrameWalk where
  entryCount := 0
  stringBytes := 0
  fileCount := 0
  material := utf8 commitment.version.toList

def addEntry (walk : FrameWalk) (entry : FormEntry) : Option FrameWalk :=
  let next : FrameWalk := {
    entryCount := walk.entryCount + 1
    stringBytes := match entry with
      | .text _ value => walk.stringBytes + (utf8 value).length
      | .file .. => walk.stringBytes
    fileCount := if entry.isFile then walk.fileCount + 1 else walk.fileCount
    material := walk.material ++ entry.framed }
  if next.entryCount ≤ commitment.maxEntries ∧ next.stringBytes ≤ commitment.maxStringBytes
      ∧ next.fileCount ≤ 1 then
    some next
  else none

def readPart (expectedCvSha256 : String) (part : MailPart) : Option FormEntry := do
  guard (!part.hasDefects && !part.isMultipart && part.count policy "content-disposition" == 1
    && decide (part.count policy "content-type" ≤ 1)
    && part.rawItems.all (fun item =>
      ["content-disposition", "content-type"].contains (policy.casefold item.1))
    && part.contentDisposition == some "form-data"
    && part.count policy "content-transfer-encoding" == 0)
  let .plain rawName ← part.nameParameter policy | none
  let name ← boundedFormName commitment.maxNameBytes rawName
  let payload ← part.payload
  match part.filename with
  | none =>
    let value ← decodeUtf8 payload
    return .text name.toList (normalizedBreaks (String.ofList value))
  | some rawFilename =>
    let filename ← boundedFormName commitment.maxFilenameBytes rawFilename
    let mediaType ← boundedFormName commitment.maxMediaTypeBytes
      (policy.casefold part.contentType)
    guard (part.count policy "content-type" != 0 && !payload.isEmpty
      && decide (payload.length ≤ commitment.maxFileBytes)
      && policy.digest payload == expectedCvSha256)
    return .file name.toList filename.toList mediaType.toList payload.length
      (policy.digest payload)

/-- The loop over the parts of a body. -/
def multipartWalk (contentType : String) (body : List UInt8) (expectedCvSha256 : String) :
    Option FrameWalk := do
  let message ← parsedBody policy contentType body
  let boundary ← message.boundary.bind asciiBytes
  guard (!message.hasDefects && message.isMultipart && !boundary.isEmpty
    && decide (boundary.length ≤ maxBoundaryBytes) && message.preamble.all (· == "")
    && message.epilogue.all (· == "")
    && policy.casefold message.contentType == "multipart/form-data")
  message.parts.foldlM (fun walk part => do
    let entry ← commitment.readPart policy expectedCvSha256 part
    commitment.addEntry walk entry) commitment.start

def requestMediaType (contentType : String) : String :=
  policy.casefold (String.ofList
    (stripBy isSpace (contentType.toList.takeWhile fun character => character != ';')))

/-- What is asked of every request before its body is read. -/
def requestBounded (contentType : String) (body : List UInt8) (expectedCvSha256 : String) : Bool :=
  !body.isEmpty && decide (body.length ≤ commitment.maxBodyBytes)
    && decide (encodedLength contentType ≤ maxContentTypeBytes) && !hasLineBreak contentType
    && isSha256Digest expectedCvSha256

/-- The digest of entries of which one is the file. -/
def finish (walk : FrameWalk) : Option String :=
  if walk.entryCount ≠ 0 ∧ walk.fileCount = 1 then some (policy.digest walk.material) else none

/-- `canonical_multipart_payload_sha256`. -/
def multipartPayloadSha256 (contentType : String) (body : List UInt8)
    (expectedCvSha256 : String) : Option String := do
  guard (commitment.requestBounded contentType body expectedCvSha256
    && requestMediaType policy contentType == "multipart/form-data")
  let walk ← commitment.multipartWalk policy contentType body expectedCvSha256
  finish policy walk

end FramedCommitment

/-! ## The three adapters -/

namespace Lever

def payloadCommitment : FramedCommitment where
  version := "lever-formdata-v1;"
  maxBodyBytes := 24 * 1024 * 1024
  maxEntries := 256
  maxStringBytes := 1024 * 1024
  maxNameBytes := 256
  maxFilenameBytes := 512
  maxMediaTypeBytes := 200
  maxFileBytes := 20 * 1024 * 1024

def canonicalMultipartPayloadSha256 : WirePolicy → String → List UInt8 → String → Option String :=
  payloadCommitment.multipartPayloadSha256

end Lever

namespace SmartRecruiters

def payloadCommitment : FramedCommitment where
  version := "smartrecruiters-formdata-v1"
  maxBodyBytes := 24 * 1024 * 1024
  maxEntries := 256
  maxStringBytes := 1024 * 1024
  maxNameBytes := 256
  maxFilenameBytes := 512
  maxMediaTypeBytes := 200
  maxFileBytes := 20 * 1024 * 1024

def canonicalFormDataPayloadSha256 : WirePolicy → String → List UInt8 → String → Option String :=
  payloadCommitment.multipartPayloadSha256

end SmartRecruiters

namespace Workday

def payloadCommitment : FramedCommitment where
  version := "workday-formdata-v1;"
  maxBodyBytes := 24 * 1024 * 1024
  maxEntries := 256
  maxStringBytes := 1024 * 1024
  maxNameBytes := 256
  maxFilenameBytes := 512
  maxMediaTypeBytes := 200
  maxFileBytes := 20 * 1024 * 1024

variable (policy : WirePolicy)

/-- Read on in a text; `run` is the text of the first script behind the last other character, in
reverse. -/
def unquoteStrictRuns : List Char → List Char → Option (List Char)
  | run, [] => decodeUtf8 (unquoteToBytes run.reverse)
  | run, character :: rest =>
    if character.toNat < 128 then
      unquoteStrictRuns (character :: run) rest
    else do
      let before ← decodeUtf8 (unquoteToBytes run.reverse)
      let after ← unquoteStrictRuns [] rest
      return before ++ character :: after

/-- `unquote(text.replace("+", " "), errors="strict")`. -/
def unquoteStrict (text : List Char) : Option (List Char) :=
  unquoteStrictRuns [] (text.map fun character => if character = '+' then ' ' else character)

/-- `parse_qsl(text, keep_blank_values=True, errors="strict", max_num_fields=maximum)`. -/
def parseQslBounded (maximum : ℕ) (text : List Char) : Option (List (List Char × List Char)) :=
  if text.count '&' + 1 ≤ maximum then
    ((text.splitOn '&').filter fun piece => !piece.isEmpty).mapM fun piece => do
      let name ← unquoteStrict (piece.takeWhile (· != '='))
      let value ← unquoteStrict (piece.dropWhile (· != '=')).tail
      return (name, value)
  else none

/-- The loop over the pairs of a body that is no multipart. -/
def urlencodedWalk (body : List UInt8) : Option FrameWalk := do
  let decoded ← decodeUtf8 body
  let pairs ← parseQslBounded payloadCommitment.maxEntries decoded
  pairs.foldlM (fun walk pair => do
    let name ← boundedFormName payloadCommitment.maxNameBytes (String.ofList pair.1)
    payloadCommitment.addEntry walk
      (.text name.toList (normalizedBreaks (String.ofList pair.2)))) payloadCommitment.start

/-- The loop that belongs to the media type. -/
def formDataWalk (contentType : String) (body : List UInt8) (expectedCvSha256 : String) :
    Option FrameWalk :=
  let mediaType := FramedCommitment.requestMediaType policy contentType
  if mediaType = "" ∨ mediaType = "application/x-www-form-urlencoded" then urlencodedWalk body
  else if mediaType = "multipart/form-data" then
    payloadCommitment.multipartWalk policy contentType body expectedCvSha256
  else none

def canonicalFormDataPayloadSha256 (contentType : String) (body : List UInt8)
    (expectedCvSha256 : String) : Option String := do
  guard (payloadCommitment.requestBounded contentType body expectedCvSha256)
  let walk ← formDataWalk policy contentType body expectedCvSha256
  FramedCommitment.finish policy walk

end Workday

/-! ## Frames tell entries apart -/

def SentAsIs (text : List Char) : Prop :=
  normalizedBreaks (String.ofList text) = text

theorem sentAsIs_of_plain (hreturn : '\r' ∉ text) (hfeed : '\n' ∉ text) :
    SentAsIs text := by
  have htext : (String.ofList text).toList = text := String.toList_ofList
  rw [SentAsIs, normalizedBreaks, lineFeeds_of_plain (by rwa [htext]), htext]
  refine (List.flatMap_congr fun char hmem => ?_).trans (List.flatMap_singleton' text)
  rw [if_neg]
  rintro rfl
  exact hfeed hmem

theorem joinedBreaks_sent (hplain : '\r' ∉ text) :
    joinedBreaks (text.flatMap sentBreak) = text := by
  induction text with
  | nil => rfl
  | cons char text ih =>
    rw [List.mem_cons, not_or] at hplain
    rw [List.flatMap_cons, sentBreak]
    split
    · next hfeed =>
      subst hfeed
      change '\n' :: joinedBreaks (text.flatMap sentBreak) = _
      rw [ih hplain.2]
    · rw [List.singleton_append, joinedBreaks.eq_2, ih hplain.2]
      intro rest hreturn
      exact absurd hreturn.symm hplain.1

theorem return_notMem_lineFeeds (text : String) : '\r' ∉ lineFeeds text := by
  rw [lineFeeds, List.mem_map]
  rintro ⟨char, _, heq⟩
  split at heq
  · cases heq
  · next hother => exact hother heq

theorem sentAsIs_normalized (text : String) : SentAsIs (normalizedBreaks text) := by
  have hplain := return_notMem_lineFeeds text
  have hfeeds : lineFeeds (String.ofList (normalizedBreaks text)) = lineFeeds text := by
    rw [lineFeeds, String.toList_ofList]
    change (joinedBreaks ((lineFeeds text).flatMap sentBreak)).map _ = _
    rw [joinedBreaks_sent hplain]
    refine (List.map_congr_left fun char hmem => ?_).trans (List.map_id _)
    rw [if_neg]
    · rfl
    · rintro rfl
      exact hplain hmem
  rw [SentAsIs, normalizedBreaks, hfeeds]
  rfl

namespace FormEntry

def SentAsIs (entry : FormEntry) : Prop :=
  ∀ text ∈ entry.texts, Adapters.SentAsIs text

def tag (entry : FormEntry) : UInt8 :=
  if entry.isFile then fileTag else stringTag

/-- What is added for an entry whose texts are sent as they are. -/
def plainFramed (entry : FormEntry) : List UInt8 :=
  entry.tag :: entry.texts.flatMap fun text => frame decimalBytes colon (utf8 text)

theorem framed_eq_plainFramed {entry : FormEntry} (hsent : entry.SentAsIs) :
    entry.framed = entry.plainFramed := by
  have hframes : entry.framed = entry.tag :: entry.texts.flatMap lengthFrame := by
    cases entry <;> simp [framed, tag, texts, isFile]
  rw [hframes, plainFramed]
  congr 1
  refine List.flatMap_congr fun text hmem => ?_
  rw [lengthFrame, hsent text hmem]

theorem plainFramed_selfDelimiting : SelfDelimiting plainFramed := by
  have hframe : SelfDelimiting fun text : List Char => frame decimalBytes colon (utf8 text) :=
    (frame_selfDelimiting decimalBytes_injective colon_notMem_decimalBytes).comp utf8_injective
  intro first second rest tail heq
  simp only [plainFramed, List.cons_append, List.cons.injEq] at heq
  obtain ⟨htag, hframes⟩ := heq
  have hkind : first.isFile = second.isFile := by
    rw [tag, tag] at htag
    cases hfirst : first.isFile <;> cases hsecond : second.isFile <;>
      rw [hfirst, hsecond] at htag
    · cases htag
    · cases htag
  obtain ⟨htexts, hrest⟩ := hframe.flatMap_append
    (by rw [length_texts, length_texts, hkind]) hframes
  exact ⟨texts_inj hkind htexts, hrest⟩

theorem framed_inj {first second : List FormEntry} (hfirst : ∀ entry ∈ first, entry.SentAsIs)
    (hsecond : ∀ entry ∈ second, entry.SentAsIs)
    (heq : first.flatMap framed = second.flatMap framed) : first = second := by
  rw [List.flatMap_congr fun entry hmem => framed_eq_plainFramed (hfirst entry hmem),
    List.flatMap_congr fun entry hmem => framed_eq_plainFramed (hsecond entry hmem)] at heq
  exact plainFramed_selfDelimiting.flatMap_injective (fun _ => List.cons_ne_nil _ _) heq

end FormEntry

/-! ## Accepted bodies -/

theorem guard_eq_some [Decidable condition] :
    (guard condition : Option Unit) = some result ↔ condition := by
  by_cases hcondition : condition <;> simp [hcondition]

theorem boundedFormName_eq_some (hbounded : boundedFormName maximum name = some found) :
    found = name ∧ SentAsIs name.toList := by
  rw [boundedFormName, Option.ite_none_right_eq_some] at hbounded
  obtain ⟨⟨_, _, hprinted⟩, hfound⟩ := hbounded
  rw [List.all_eq_true] at hprinted
  refine ⟨(Option.some.inj hfound).symm, sentAsIs_of_plain ?_ ?_⟩
  · exact fun hmem => absurd (hprinted _ hmem) (by decide)
  · exact fun hmem => absurd (hprinted _ hmem) (by decide)

theorem toDigits_plain (hmem : char ∈ Nat.toDigits 10 value) :
    char ≠ '\r' ∧ char ≠ '\n' := by
  have hdigit := Nat.isDigit_of_mem_toDigits (by decide) (by decide) hmem
  constructor
  · rintro rfl
    cases hdigit
  · rintro rfl
    cases hdigit

theorem digest_plain (hdigest : isSha256Digest text = true)
    (hmem : char ∈ text.toList) : char ≠ '\r' ∧ char ≠ '\n' := by
  rw [isSha256Digest, Bool.and_eq_true, List.all_eq_true] at hdigest
  have hhex := hdigest.2 char hmem
  constructor
  · rintro rfl
    cases hhex
  · rintro rfl
    cases hhex

/-- The first parameter `name`, and the file name wherever the parser finds one. -/
def framedReading (policy : WirePolicy) : PartReading where
  name part := part.nameParameter policy
  filename part := part.filename.map .plain
  mediaType part := policy.casefold part.contentType

namespace FramedCommitment

variable {commitment : FramedCommitment}

variable {entry : FormEntry}

theorem readPart_spec (hselected : isSha256Digest expectedCvSha256 = true)
    (hread : commitment.readPart policy expectedCvSha256 part = some entry) :
    (framedReading policy).Reads policy.digest part entry ∧ entry.SentAsIs := by
  simp only [readPart, Option.bind_eq_bind, Option.bind_eq_some_iff, guard_eq_some] at hread
  obtain ⟨_, _, parameter, hparameter, hread⟩ := hread
  cases parameter with
  | encoded => cases hread
  | plain rawName =>
    simp only [Option.bind_eq_some_iff] at hread
    obtain ⟨name, hname, payload, hpayload, hread⟩ := hread
    obtain ⟨rfl, hplain⟩ := boundedFormName_eq_some hname
    cases hfilename : part.filename with
    | none =>
      rw [hfilename] at hread
      simp only [Option.bind_eq_some_iff] at hread
      obtain ⟨value, hvalue, hentry⟩ := hread
      cases hentry
      refine ⟨.text hparameter (by simp [framedReading, hfilename]) hpayload hvalue, ?_⟩
      simp only [FormEntry.SentAsIs, FormEntry.texts, List.forall_mem_cons]
      exact ⟨hplain, sentAsIs_normalized _, List.forall_mem_nil _⟩
    | some rawFilename =>
      rw [hfilename] at hread
      simp only [Option.bind_eq_some_iff, guard_eq_some, Bool.and_eq_true, beq_iff_eq] at hread
      obtain ⟨filename, hshown, mediaType, hmedia, _, ⟨_, hdigest⟩, hentry⟩ := hread
      obtain ⟨rfl, hshown⟩ := boundedFormName_eq_some hshown
      obtain ⟨rfl, hkind⟩ := boundedFormName_eq_some hmedia
      cases hentry
      refine ⟨.file hparameter (by simp [framedReading, hfilename]) hpayload, ?_⟩
      simp only [FormEntry.SentAsIs, FormEntry.texts, List.forall_mem_cons]
      refine ⟨hplain, hshown, hkind, ?_, ?_, List.forall_mem_nil _⟩
      · exact sentAsIs_of_plain (fun hmem => (toDigits_plain hmem).1 rfl)
          fun hmem => (toDigits_plain hmem).2 rfl
      · rw [hdigest]
        exact sentAsIs_of_plain (fun hmem => (digest_plain hselected hmem).1 rfl)
          fun hmem => (digest_plain hselected hmem).2 rfl

theorem addEntry_material (hadd : commitment.addEntry walk entry = some next) :
    next.material = walk.material ++ entry.framed := by
  simp only [addEntry, Option.ite_none_right_eq_some] at hadd
  rw [← Option.some.inj hadd.2]

theorem walk_material (hselected : isSha256Digest expectedCvSha256 = true)
    (hwalk : parts.foldlM (fun walk part => do
      let entry ← commitment.readPart policy expectedCvSha256 part
      commitment.addEntry walk entry) walk = some last) :
    ∃ entries, List.Forall₂ ((framedReading policy).Reads policy.digest) parts entries ∧
      (∀ entry ∈ entries, entry.SentAsIs) ∧
      last.material = walk.material ++ entries.flatMap FormEntry.framed := by
  induction parts generalizing walk with
  | nil =>
    cases hwalk
    exact ⟨[], .nil, List.forall_mem_nil _, (List.append_nil _).symm⟩
  | cons part parts ih =>
    simp only [List.foldlM_cons, Option.bind_eq_bind, Option.bind_eq_some_iff] at hwalk
    obtain ⟨next, ⟨entry, hentry, hadd⟩, hrest⟩ := hwalk
    obtain ⟨hreads, hsent⟩ := readPart_spec hselected hentry
    obtain ⟨entries, hentries, hall, hmaterial⟩ := ih hrest
    refine ⟨entry :: entries, .cons hreads hentries, List.forall_mem_cons.mpr ⟨hsent, hall⟩, ?_⟩
    rw [hmaterial, addEntry_material hadd, List.flatMap_cons, List.append_assoc]

/-- A body that is accepted, entry by entry. -/
structure Accepts (commitment : FramedCommitment) (policy : WirePolicy) (contentType : String)
    (body : List UInt8) (digest : String) (message : MailMessage) (entries : List FormEntry) :
    Prop where
  parsed : parsedBody policy contentType body = some message
  read : List.Forall₂ ((framedReading policy).Reads policy.digest) message.parts entries
  sent : ∀ entry ∈ entries, entry.SentAsIs
  digest : policy.digest (utf8 commitment.version.toList ++ entries.flatMap FormEntry.framed) =
    digest

theorem finish_eq_some (hfinish : finish policy walk = some digest) :
    walk.fileCount = 1 ∧ policy.digest walk.material = digest := by
  rw [finish, Option.ite_none_right_eq_some] at hfinish
  exact ⟨hfinish.1.2, Option.some.inj hfinish.2⟩

theorem accepts_of_walk (hselected : isSha256Digest expectedCvSha256 = true)
    (hwalk : commitment.multipartWalk policy contentType body expectedCvSha256 = some walk)
    (hfinish : finish policy walk = some digest) :
    ∃ message entries, commitment.Accepts policy contentType body digest message entries := by
  simp only [multipartWalk, Option.bind_eq_bind, Option.bind_eq_some_iff] at hwalk
  obtain ⟨message, hmessage, _, _, _, _, hparts⟩ := hwalk
  obtain ⟨entries, hentries, hsent, hmaterial⟩ := walk_material hselected hparts
  refine ⟨message, entries, hmessage, hentries, hsent, ?_⟩
  rw [← (finish_eq_some hfinish).2, hmaterial]
  rfl

theorem accepts_of_multipart
    (hdigest : commitment.multipartPayloadSha256 policy contentType body expectedCvSha256 =
      some digest) :
    ∃ message entries, commitment.Accepts policy contentType body digest message entries := by
  simp only [multipartPayloadSha256, Option.bind_eq_bind, Option.bind_eq_some_iff, guard_eq_some,
    requestBounded, Bool.and_eq_true] at hdigest
  obtain ⟨_, ⟨⟨_, hselected⟩, _⟩, walk, hwalk, hfinish⟩ := hdigest
  exact accepts_of_walk hselected hwalk hfinish

theorem sameEntries_of_accepts (hfree : Function.Injective policy.digest)
    (haccepts : commitment.Accepts policy contentType body digest message entries)
    (hother : commitment.Accepts policy otherType otherBody digest other found) :
    SameEntries policy (framedReading policy) contentType otherType body otherBody := by
  have hmaterial := hfree (haccepts.digest.trans hother.digest.symm)
  have hsame := FormEntry.framed_inj haccepts.sent hother.sent
    (List.append_cancel_left hmaterial)
  exact ⟨message, other, entries, haccepts.parsed, hother.parsed, haccepts.read,
    hsame ▸ hother.read⟩

end FramedCommitment

namespace Workday

/-- A body that is no multipart has no file. -/
theorem fileCount_urlencoded {pairs : List (List Char × List Char)}
    (hwalk : pairs.foldlM (fun walk pair => do
      let name ← boundedFormName payloadCommitment.maxNameBytes (String.ofList pair.1)
      payloadCommitment.addEntry walk
        (.text name.toList (normalizedBreaks (String.ofList pair.2)))) walk = some last) :
    last.fileCount = walk.fileCount := by
  induction pairs generalizing walk with
  | nil =>
    cases hwalk
    rfl
  | cons pair pairs ih =>
    simp only [List.foldlM_cons, Option.bind_eq_bind, Option.bind_eq_some_iff] at hwalk
    obtain ⟨next, ⟨_, _, hadd⟩, hrest⟩ := hwalk
    simp only [FramedCommitment.addEntry, Option.ite_none_right_eq_some] at hadd
    rw [ih hrest, ← Option.some.inj hadd.2]
    rfl

theorem accepts_of_formData
    (hdigest : canonicalFormDataPayloadSha256 policy contentType body expectedCvSha256 =
      some digest) :
    ∃ message entries,
      payloadCommitment.Accepts policy contentType body digest message entries := by
  simp only [canonicalFormDataPayloadSha256, Option.bind_eq_bind, Option.bind_eq_some_iff,
    guard_eq_some, FramedCommitment.requestBounded, Bool.and_eq_true] at hdigest
  obtain ⟨_, ⟨_, hselected⟩, walk, hwalk, hfinish⟩ := hdigest
  simp only [formDataWalk] at hwalk
  split at hwalk
  · simp only [urlencodedWalk, Option.bind_eq_bind, Option.bind_eq_some_iff] at hwalk
    obtain ⟨_, _, _, _, hpairs⟩ := hwalk
    have hfiles := (FramedCommitment.finish_eq_some hfinish).1
    rw [fileCount_urlencoded hpairs] at hfiles
    cases hfiles
  · split at hwalk
    · exact FramedCommitment.accepts_of_walk hselected hwalk hfinish
    · cases hwalk

end Workday

end JobApplyAgent.Adapters
