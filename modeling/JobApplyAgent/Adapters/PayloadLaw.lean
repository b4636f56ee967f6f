import JobApplyAgent.Adapters.AshbyBodies
import JobApplyAgent.Adapters.FramedCommitments
import JobApplyAgent.Adapters.GreenhouseBodies

/-!
# What an accepted body says

An accepted body carries the reviewed answers and nothing else, and the commitment to a body
tells its entries, as long as no two byte strings have one digest.
-/

namespace JobApplyAgent.Adapters

open Domain Forms Library

theorem sameEntries_of_canonical (hfree : Function.Injective policy.digest)
    {first second : MailMessage} {found : List FormEntry}
    (hfirst : parsedBody policy firstType firstBody = some first)
    (hsecond : parsedBody policy secondType secondBody = some second)
    (hread : List.Forall₂ ((strictReading policy).Reads policy.digest) first.parts entries)
    (hother : List.Forall₂ ((strictReading policy).Reads policy.digest) second.parts found)
    (hsame : canonicalPayloadCommitment policy entries =
      canonicalPayloadCommitment policy found) :
    SameEntries policy (strictReading policy) firstType secondType firstBody secondBody := by
  have hentries := canonicalPayloadCommitment_injective hfree hsame
  exact ⟨first, second, entries, hfirst, hsecond, hread, hentries ▸ hother⟩

/-! ### A note and a resume -/

/-- The digests of known data; all other data stands for itself behind a mark. -/
def tableDigest (known : List (List UInt8 × String)) (data : List UInt8) : String :=
  match known.find? fun item => item.1 == data with
  | some item => item.2
  | none => String.ofList ('#' :: Base64.encode data)

theorem tableDigest_cases (known : List (List UInt8 × String)) (data : List UInt8) :
    (data, tableDigest known data) ∈ known ∨
      tableDigest known data = String.ofList ('#' :: Base64.encode data) := by
  rw [tableDigest]
  cases hfound : known.find? fun item => item.1 == data with
  | none => exact .inr rfl
  | some item =>
    have hsame : item.1 = data := by
      simpa using List.find?_some hfound
    exact .inl (hsame ▸ List.mem_of_find?_eq_some hfound)

theorem tableDigest_injective {known : List (List UInt8 × String)}
    (honce : (known.map Prod.snd).Nodup)
    (hunmarked : ∀ item ∈ known, item.2.toList.head? ≠ some '#') :
    Function.Injective (tableDigest known) := by
  have hmarked : ∀ data other, (data, String.ofList ('#' :: Base64.encode other)) ∉ known := by
    intro data other hmem
    exact hunmarked _ hmem (by rw [String.toList_ofList]; rfl)
  intro first second heq
  rcases tableDigest_cases known first with hfirst | hfirst
  · rcases tableDigest_cases known second with hsecond | hsecond
    · exact congrArg Prod.fst (List.inj_on_of_nodup_map honce hfirst hsecond heq)
    · rw [heq, hsecond] at hfirst
      exact absurd hfirst (hmarked _ _)
  · rcases tableDigest_cases known second with hsecond | hsecond
    · rw [← heq, hfirst] at hsecond
      exact absurd hsecond (hmarked _ _)
    · have htexts := String.ofList_inj.mp (hfirst.symm.trans (heq.trans hsecond))
      exact Base64.encode_injective (List.cons.inj htexts).2

/-! The bodies below are what a browser sends of a note, a resume and a control, and the digests
are those of their parts. -/

def bytesOf (pieces : List String) : List UInt8 :=
  pieces.flatMap fun piece => utf8 piece.toList

def cvBytes : List UInt8 := bytesOf ["%PDF-1.7"]

def cvSha256 : String := "86edbaa24831badfa0a8b04bb410141e2ee4182b6d0014493fe262a7a331c20b"

def noteSha256 : String := "edb465624291e4053c6c5ea4b7eb320dec773e10a57d26b95dcf0564f8e310f8"

def resumeSha256 : String := "a83a31320d921b888a48fa5edd0b4b5a29984de6e96bf7b8ac7d29ba06caf616"

/-- The material of the three commitments, and the names and answers in it. -/
def knownMaterial : List (List String × String) :=
  [(["%PDF-1.7"], cvSha256), (["note"], noteSha256), (["resume"], resumeSha256),
    (["board_token"], "78d09f227df1189d849db6a15507b5c14489efc7bd3c7fef88ed5d96f6a218d3"),
    (["[\"s\",", "\"Line one", "\\r\\n", "Line two\"]"],
      "cef6875326cc40d1b1639ecb6090d5fa5b6b73dc5655d36670294c11bc11a8a7"),
    (["[\"f\",\"", cvSha256, "\"]"],
      "79463b9c783956f1436400cd0d0e9e26759f62de1456f29041bcc1cedc02a62f"),
    (["file:", cvSha256], "7d7fccbd0c3735fa2c096d2469250480da9ccfd224ae3ec5188852d49bf5f1f0"),
    (["value:", "Line one", "\r\n", "Line two"],
      "8162b7cc0a72654658c43e98bd3a4a79e174851ee39b0ca751afc97cf6b9cf10"),
    (["[[\"t\",", "\"bm90ZQ==\",", "\"TGluZSBvbmUN", "CkxpbmUgdHdv\"],", "[\"t\",",
        "\"Ym9hcmRfdG9rZW4=\",", "\"QUNNRQ==\"],", "[\"f\",", "\"cmVzdW1l\",",
        "\"Y3YucGRm\",", "\"YXBwbGljYXRp", "b24vcGRm\",", "\"8\",\"", cvSha256, "\"]]"],
      "4213271e246cfd759a9fd765a8d1a334c64929fafd3e9592ee0bfd91982f8683"),
    (["[[\"t\",", "\"bm90ZQ==\",", "\"TGluZSBvbmUN", "CkxpbmUgdHdv\"],", "[\"f\",",
        "\"cmVzdW1l\",", "\"Y3YucGRm\",", "\"YXBwbGljYXRp", "b24vcGRm\",", "\"8\",\"",
        cvSha256, "\"],", "[\"t\",", "\"c3VibWl0\",", "\"YXBwbHk=\"]]"],
      "6739225eaf6117bc3bdf4009c6b038cbe0336b99eca323d6cf8a661f947aa8f9"),
    (["lever-formdata-", "v1;", "S4:note", "18:Line one", "\r\n", "Line two", "F6:resume",
        "6:cv.pdf", "8:image/ss", "1:8", "64:", cvSha256],
      "6beac397733a294cbdf63f37f43408ea11cd500214cff3f46b70a25ffe0df133")]

def sampleDigests : List UInt8 → String :=
  tableDigest (knownMaterial.map fun item => (bytesOf item.1, item.2))

theorem sampleDigests_injective : Function.Injective sampleDigests :=
  tableDigest_injective (by decide +kernel) (by decide +kernel)

def textPart (name value : String) : MailPart where
  hasDefects := false
  isMultipart := false
  rawItems := [("Content-Disposition", some ("form-data; name=\"" ++ name ++ "\""))]
  disposition := "form-data; name=\"" ++ name ++ "\""
  contentDisposition := some "form-data"
  parameters := [("form-data", .plain ""), ("name", .plain name)]
  filename := none
  contentType := "text/plain"
  contentCharset := none
  payload := some (utf8 value.toList)

/-- The part with the resume; a type beyond the basic alphabet is no text in the raw header. -/
def resumePart (rawType : Option String) (contentType : String) : MailPart where
  hasDefects := false
  isMultipart := false
  rawItems := [("Content-Disposition", some "form-data; name=\"resume\"; filename=\"cv.pdf\""),
    ("Content-Type", rawType)]
  disposition := "form-data; name=\"resume\"; filename=\"cv.pdf\""
  contentDisposition := some "form-data"
  parameters := [("form-data", .plain ""), ("name", .plain "resume"),
    ("filename", .plain "cv.pdf")]
  filename := some "cv.pdf"
  contentType := contentType
  contentCharset := none
  payload := some cvBytes

def messageOf (parts : List MailPart) : MailMessage where
  hasDefects := false
  isMultipart := true
  boundary := some "b"
  preamble := none
  epilogue := some ""
  contentType := "multipart/form-data"
  parts := parts

def sampleContentType : String := "multipart/form-data; boundary=b"

/-- A part behind the delimiter, as it is sent. -/
def sentText (name value : String) : List String :=
  ["--b\r\n", "Content-Disposition: ", "form-data; ", "name=\"", name, "\"\r\n\r\n", value, "\r\n"]

def sentResume (contentType : String) : List String :=
  ["--b\r\n", "Content-Disposition: ", "form-data; ", "name=\"resume\"; ",
    "filename=\"cv.pdf\"", "\r\nContent-Type: ", contentType, "\r\n\r\n", "%PDF-1.7", "\r\n"]

def sentBody (parts : List (List String)) : List UInt8 :=
  bytesOf (parts.flatten ++ ["--b--\r\n"])

def greenhouseBody : List UInt8 :=
  sentBody [sentText "note" "Line one\r\nLine two", sentText "board_token" "ACME",
    sentResume "application/pdf"]

def greenhouseParts : List MailPart :=
  [textPart "note" "Line one\r\nLine two", textPart "board_token" "ACME",
    resumePart (some "application/pdf") "application/pdf"]

def ashbyBody : List UInt8 :=
  sentBody [sentText "note" "Line one\r\nLine two", sentResume "application/pdf",
    sentText "submit" "apply"]

def ashbyParts : List MailPart :=
  [textPart "note" "Line one\r\nLine two", resumePart (some "application/pdf") "application/pdf",
    textPart "submit" "apply"]

def leverBody (note contentType : String) : List UInt8 :=
  sentBody [sentText "note" note, sentResume contentType]

def leverParts (note : String) (rawType : Option String) (contentType : String) :
    List MailPart :=
  [textPart "note" note, resumePart rawType contentType]

/-- The bodies that the sample parser knows, and their parts. -/
def knownBodies : List (List UInt8 × List MailPart) :=
  [(greenhouseBody, greenhouseParts), (ashbyBody, ashbyParts),
    (leverBody "Line one\nLine two" "image/ß", leverParts "Line one\nLine two" none "image/ß"),
    (leverBody "Line one\r\nLine two" "image/ss",
      leverParts "Line one\r\nLine two" (some "image/ss") "image/ss")]

def sampleParsebytes (data : List UInt8) : Option MailMessage :=
  (knownBodies.find? fun known =>
    bytesOf ["Content-Type: ", sampleContentType, "\r\nMIME-Version: 1.0\r\n\r\n"] ++ known.1
      == data).map fun known => messageOf known.2

/-- Case folding of the basic alphabet and of the sharp s. -/
def foldedText (text : String) : String :=
  String.ofList (text.toList.flatMap fun character =>
    if character = 'ß' then ['s', 's'] else [character.toLower])

def sampleWirePolicy : WirePolicy where
  toBindingPolicy := { sampleBindingPolicy with
    casefold := foldedText
    sha256Hex := fun text => sampleDigests (utf8 text.toList) }
  lower := lowercaseText
  table := Materials.basicCharacters
  digest := sampleDigests
  parsebytes := sampleParsebytes
  digest_text _ := rfl

def noteBinding : GreenhouseAnswerBinding where
  reviewed := {
    fieldId := "note"
    fieldType := .textarea
    valueSha256 := "cef6875326cc40d1b1639ecb6090d5fa5b6b73dc5655d36670294c11bc11a8a7"
    successfulEntryCount := 1
    fieldIdValid := by decide +kernel
    digestValid := by decide +kernel
    countBounded := by decide
    countPositive := by decide }
  controlNameSha256 := noteSha256
  nameValid := by decide +kernel

def resumeBinding : GreenhouseAnswerBinding where
  reviewed := {
    fieldId := "resume"
    fieldType := .file
    valueSha256 := "79463b9c783956f1436400cd0d0e9e26759f62de1456f29041bcc1cedc02a62f"
    successfulEntryCount := 1
    fieldIdValid := by decide +kernel
    digestValid := by decide +kernel
    countBounded := by decide
    countPositive := by decide }
  controlNameSha256 := resumeSha256
  nameValid := by decide +kernel

def greenhouseExpectation : Greenhouse.PayloadExpectation where
  cvSha256 := cvSha256
  payloadCommitment := "4213271e246cfd759a9fd765a8d1a334c64929fafd3e9592ee0bfd91982f8683"
  answerBindings := [noteBinding, resumeBinding]
  resumeControlNameSha256 := resumeSha256
  identity := { boardToken := "acme", jobToken := "4011" }
  submitterBinding := none
  valid := by decide +kernel

def ashbyExpectation : Ashby.PayloadExpectation where
  fieldControls := [{ fieldId := "note", fieldType := .textarea, names := ["note"] },
    { fieldId := "resume", fieldType := .file, names := ["resume"] }]
  systemControls := []
  submitControl := ("submit", "apply")
  answerBindings := [
    { fieldId := "note"
      fieldType := .textarea
      valueSha256 := "8162b7cc0a72654658c43e98bd3a4a79e174851ee39b0ca751afc97cf6b9cf10"
      fieldIdValid := by decide +kernel
      digestValid := by decide +kernel },
    { fieldId := "resume"
      fieldType := .file
      valueSha256 := "7d7fccbd0c3735fa2c096d2469250480da9ccfd224ae3ec5188852d49bf5f1f0"
      fieldIdValid := by decide +kernel
      digestValid := by decide +kernel }]
  selectedCvHash := cvSha256
  contractValid := by decide +kernel
  boundInOrder := rfl
  selected := by decide +kernel

theorem greenhouseBody_accepted :
    Greenhouse.multipartPayloadCommitment sampleWirePolicy greenhouseExpectation sampleContentType
      greenhouseBody =
        .ok "4213271e246cfd759a9fd765a8d1a334c64929fafd3e9592ee0bfd91982f8683" := by
  decide +kernel

theorem greenhouseBody_parsed :
    parsedBody sampleWirePolicy sampleContentType greenhouseBody =
      some (messageOf greenhouseParts) := by
  decide +kernel

theorem ashbyBody_parsed :
    parsedBody sampleWirePolicy sampleContentType ashbyBody = some (messageOf ashbyParts) := by
  decide +kernel

theorem ashbyBody_accepted :
    Ashby.multipartPayloadCommitment sampleWirePolicy ashbyExpectation sampleContentType
      ashbyBody = .ok "6739225eaf6117bc3bdf4009c6b038cbe0336b99eca323d6cf8a661f947aa8f9" := by
  decide +kernel

/-- Greenhouse and Ashby accept a body only if it carries what was reviewed: a board token up to
the case of its letters, texts up to the form of their line breaks. -/
theorem accepted_carries (policy : WirePolicy) (hfree : Function.Injective policy.digest) :
    (∀ expectation contentType body digest,
      Greenhouse.multipartPayloadCommitment policy expectation contentType body = .ok digest →
        ∃ message entries roles, parsedBody policy contentType body = some message ∧
          Greenhouse.Carries policy expectation message.parts entries roles) ∧
      ∀ expectation contentType body digest,
        Ashby.multipartPayloadCommitment policy expectation contentType body = .ok digest →
          ∃ message entries roles, parsedBody policy contentType body = some message ∧
            Ashby.Carries policy expectation message.parts entries roles := by
  constructor
  · intro expectation contentType body digest hdigest
    obtain ⟨message, entries, roles, _, haccepted⟩ := Greenhouse.accepted_of_commitment hdigest
    exact ⟨message, entries, roles, haccepted.parsed,
      Greenhouse.carries_of_accepted hfree haccepted⟩
  · intro expectation contentType body digest hdigest
    obtain ⟨message, entries, roles, _, haccepted⟩ := Ashby.accepted_of_commitment hdigest
    exact ⟨message, entries, roles, haccepted.parsed, Ashby.carries_of_accepted hfree haccepted⟩

/-- What the two bodies with a note carry. -/
theorem accepted_carries_note :
    (∃ entries roles,
      Greenhouse.Carries sampleWirePolicy greenhouseExpectation greenhouseParts entries roles) ∧
      ∃ entries roles,
        Ashby.Carries sampleWirePolicy ashbyExpectation ashbyParts entries roles := by
  obtain ⟨hgreenhouse, hashby⟩ := accepted_carries sampleWirePolicy sampleDigests_injective
  constructor
  · obtain ⟨message, entries, roles, hmessage, hcarries⟩ :=
      hgreenhouse _ _ _ _ greenhouseBody_accepted
    cases hmessage.symm.trans greenhouseBody_parsed
    exact ⟨entries, roles, hcarries⟩
  · obtain ⟨message, entries, roles, hmessage, hcarries⟩ := hashby _ _ _ _ ashbyBody_accepted
    cases hmessage.symm.trans ashbyBody_parsed
    exact ⟨entries, roles, hcarries⟩

/-- A board token is accepted in other letters than expected, and a note with other line breaks
than reviewed. -/
theorem accepted_not_exact :
    Greenhouse.multipartPayloadCommitment sampleWirePolicy greenhouseExpectation sampleContentType
      greenhouseBody =
        .ok "4213271e246cfd759a9fd765a8d1a334c64929fafd3e9592ee0bfd91982f8683" ∧
    parsedBody sampleWirePolicy sampleContentType greenhouseBody =
      some (messageOf greenhouseParts) ∧
    (¬∀ part ∈ greenhouseParts, ∀ name value,
      (strictReading sampleWirePolicy).Reads sampleWirePolicy.digest part (.text name value) →
        Greenhouse.Unbound sampleWirePolicy greenhouseExpectation name →
          Greenhouse.actionIdentityKind sampleWirePolicy (String.ofList name) = some .board →
            String.ofList value = greenhouseExpectation.identity.boardToken) ∧
    bindField sampleWirePolicy.toBindingPolicy [writtenNote "Line one\nLine two"]
      cvSha256 noteField = .ok noteBinding.reviewed ∧
    (greenhouseParts.filter fun part => part.nameParameter sampleWirePolicy ==
      some (.plain "note")).map MailPart.payload ≠ [some (utf8 "Line one\nLine two".toList)] := by
  refine ⟨greenhouseBody_accepted, greenhouseBody_parsed, fun hexact => ?_, by decide +kernel,
    by decide +kernel⟩
  have hread : (strictReading sampleWirePolicy).Reads sampleWirePolicy.digest
      (textPart "board_token" "ACME")
      (.text "board_token".toList (normalizedBreaks (String.ofList "ACME".toList))) :=
    .text (by decide +kernel) (by decide +kernel) rfl (decodeUtf8_utf8 _)
  have hunbound : Greenhouse.Unbound sampleWirePolicy greenhouseExpectation
      "board_token".toList := by
    refine ⟨by decide +kernel, fun submitter hsome => ?_⟩
    cases hsome
  have hboard := hexact _ (.tail _ (.head _)) _ _ hread hunbound (by decide +kernel)
  exact absurd hboard (by decide +kernel)

/-- Two bodies that one adapter accepts with one digest have the same entries in the same order,
media types up to the case of their letters. -/
theorem commitments_injective (policy : WirePolicy) (hfree : Function.Injective policy.digest) :
    (∀ firstType firstBody secondType secondBody cvSha256 digest,
      Lever.canonicalMultipartPayloadSha256 policy firstType firstBody cvSha256 = some digest →
      Lever.canonicalMultipartPayloadSha256 policy secondType secondBody cvSha256 = some digest →
        SameEntries policy (framedReading policy) firstType secondType firstBody secondBody) ∧
    (∀ firstType firstBody secondType secondBody cvSha256 digest,
      SmartRecruiters.canonicalFormDataPayloadSha256 policy firstType firstBody cvSha256 =
        some digest →
      SmartRecruiters.canonicalFormDataPayloadSha256 policy secondType secondBody cvSha256 =
        some digest →
        SameEntries policy (framedReading policy) firstType secondType firstBody secondBody) ∧
    (∀ firstType firstBody secondType secondBody cvSha256 digest,
      Workday.canonicalFormDataPayloadSha256 policy firstType firstBody cvSha256 = some digest →
      Workday.canonicalFormDataPayloadSha256 policy secondType secondBody cvSha256 = some digest →
        SameEntries policy (framedReading policy) firstType secondType firstBody secondBody) ∧
    (∀ first second firstType firstBody secondType secondBody digest,
      Greenhouse.multipartPayloadCommitment policy first firstType firstBody = .ok digest →
      Greenhouse.multipartPayloadCommitment policy second secondType secondBody = .ok digest →
        SameEntries policy (strictReading policy) firstType secondType firstBody secondBody) ∧
    ∀ first second firstType firstBody secondType secondBody digest,
      Ashby.multipartPayloadCommitment policy first firstType firstBody = .ok digest →
      Ashby.multipartPayloadCommitment policy second secondType secondBody = .ok digest →
        SameEntries policy (strictReading policy) firstType secondType firstBody secondBody := by
  refine ⟨?_, ?_, ?_, ?_, ?_⟩
  · intro firstType firstBody secondType secondBody cvSha256 digest hfirst hsecond
    obtain ⟨_, _, hfirst⟩ := FramedCommitment.accepts_of_multipart hfirst
    obtain ⟨_, _, hsecond⟩ := FramedCommitment.accepts_of_multipart hsecond
    exact FramedCommitment.sameEntries_of_accepts hfree hfirst hsecond
  · intro firstType firstBody secondType secondBody cvSha256 digest hfirst hsecond
    obtain ⟨_, _, hfirst⟩ := FramedCommitment.accepts_of_multipart hfirst
    obtain ⟨_, _, hsecond⟩ := FramedCommitment.accepts_of_multipart hsecond
    exact FramedCommitment.sameEntries_of_accepts hfree hfirst hsecond
  · intro firstType firstBody secondType secondBody cvSha256 digest hfirst hsecond
    obtain ⟨_, _, hfirst⟩ := Workday.accepts_of_formData hfirst
    obtain ⟨_, _, hsecond⟩ := Workday.accepts_of_formData hsecond
    exact FramedCommitment.sameEntries_of_accepts hfree hfirst hsecond
  · intro first second firstType firstBody secondType secondBody digest hfirst hsecond
    obtain ⟨_, _, _, _, hfirst⟩ := Greenhouse.accepted_of_commitment hfirst
    obtain ⟨_, _, _, _, hsecond⟩ := Greenhouse.accepted_of_commitment hsecond
    exact sameEntries_of_canonical hfree hfirst.parsed hsecond.parsed hfirst.read hsecond.read
      (hfirst.digest.trans hsecond.digest.symm)
  · intro first second firstType firstBody secondType secondBody digest hfirst hsecond
    obtain ⟨_, _, _, _, hfirst⟩ := Ashby.accepted_of_commitment hfirst
    obtain ⟨_, _, _, _, hsecond⟩ := Ashby.accepted_of_commitment hsecond
    exact sameEntries_of_canonical hfree hfirst.parsed hsecond.parsed hfirst.read hsecond.read
      (hfirst.digest.trans hsecond.digest.symm)

theorem leverBody_accepted :
    Lever.canonicalMultipartPayloadSha256 sampleWirePolicy sampleContentType
        (leverBody "Line one\nLine two" "image/ß") cvSha256 =
          some "6beac397733a294cbdf63f37f43408ea11cd500214cff3f46b70a25ffe0df133" ∧
      Lever.canonicalMultipartPayloadSha256 sampleWirePolicy sampleContentType
        (leverBody "Line one\r\nLine two" "image/ss") cvSha256 =
          some "6beac397733a294cbdf63f37f43408ea11cd500214cff3f46b70a25ffe0df133" := by
  decide +kernel

/-- Bodies with other line breaks and another spelling of one folded type have the same
entries. -/
theorem commitments_injective_folded :
    SameEntries sampleWirePolicy (framedReading sampleWirePolicy) sampleContentType
      sampleContentType (leverBody "Line one\nLine two" "image/ß")
      (leverBody "Line one\r\nLine two" "image/ss") := by
  obtain ⟨hlever, _⟩ := commitments_injective sampleWirePolicy sampleDigests_injective
  exact hlever _ _ _ _ _ _ leverBody_accepted.1 leverBody_accepted.2

/-- The digest does not tell media types apart that are folded to one. -/
theorem mediaType_not_told :
    Function.Injective sampleWirePolicy.digest ∧
      Lever.canonicalMultipartPayloadSha256 sampleWirePolicy sampleContentType
        (leverBody "Line one\nLine two" "image/ß") cvSha256 =
          some "6beac397733a294cbdf63f37f43408ea11cd500214cff3f46b70a25ffe0df133" ∧
      Lever.canonicalMultipartPayloadSha256 sampleWirePolicy sampleContentType
        (leverBody "Line one\r\nLine two" "image/ss") cvSha256 =
          some "6beac397733a294cbdf63f37f43408ea11cd500214cff3f46b70a25ffe0df133" ∧
      (parsedBody sampleWirePolicy sampleContentType
        (leverBody "Line one\nLine two" "image/ß")).map
          (fun message => message.parts.map MailPart.contentType) =
            some ["text/plain", "image/ß"] ∧
      (parsedBody sampleWirePolicy sampleContentType
        (leverBody "Line one\r\nLine two" "image/ss")).map
          (fun message => message.parts.map MailPart.contentType) =
            some ["text/plain", "image/ss"] :=
  ⟨sampleDigests_injective, leverBody_accepted.1, leverBody_accepted.2, by decide +kernel,
    by decide +kernel⟩

end JobApplyAgent.Adapters
