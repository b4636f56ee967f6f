import JobApplyAgent.Library.Text

/-!
# Merging a rebuilt profile

A profile rebuilt from an uploaded CV takes over what the operator has entered into the
profile that is there.  Nothing that the operator has entered is lost in the merge.
-/

namespace JobApplyAgent.Profile

open Library

/-- A mapping; the order of its keys does not matter here. -/
abbrev Facts := String → Option String

structure Personal where
  name : String
  email : String
  phone : String
  location : String

structure Links where
  linkedin : String
  github : String
  portfolio : String

structure Resume where
  text : String
  pdfPath : String
  pdfSha256 : String

structure SalaryPreference where
  min : ℤ
  max : ℤ
  currency : String

structure Preferences where
  roles : List String
  locations : List String
  remoteOk : Bool
  hybridOk : Bool
  onsiteOk : Bool
  salary : SalaryPreference
  keywords : List String
  blacklistCompanies : List String
  seniority : List String

structure Attachment where
  path : String
  label : String

structure ProfileEvidence where
  cvExtracted : Facts
  cvExtractedByArtifact : String → Option Facts
  userConfirmed : Facts
  inferredPreferences : Facts

/-- Full user profile, as it is stored. -/
structure UserProfile where
  personal : Personal
  links : Links
  resume : Resume
  coverLetterStyle : String
  preferences : Preferences
  attachments : List Attachment
  evidence : ProfileEvidence

/-- An entered value wins over a rebuilt one, without the space around it. -/
def keepEntered (existing rebuilt : String) : String :=
  if hasInk existing then String.ofList (strip existing) else rebuilt

/-- Preserve manual state while binding new facts to the uploaded CV. -/
def mergeOperatorProfileState (rebuilt existing : UserProfile) : UserProfile :=
  { rebuilt with
    personal :=
      { name := keepEntered existing.personal.name rebuilt.personal.name
        email := keepEntered existing.personal.email rebuilt.personal.email
        phone := keepEntered existing.personal.phone rebuilt.personal.phone
        location := keepEntered existing.personal.location rebuilt.personal.location }
    links :=
      { linkedin := keepEntered existing.links.linkedin rebuilt.links.linkedin
        github := keepEntered existing.links.github rebuilt.links.github
        portfolio := keepEntered existing.links.portfolio rebuilt.links.portfolio }
    evidence :=
      { rebuilt.evidence with
        userConfirmed := existing.evidence.userConfirmed
        cvExtractedByArtifact := fun digest =>
          (rebuilt.evidence.cvExtractedByArtifact digest).or
            (existing.evidence.cvExtractedByArtifact digest) }
    coverLetterStyle := existing.coverLetterStyle
    attachments := existing.attachments
    preferences :=
      { rebuilt.preferences with
        locations := existing.preferences.locations
        remoteOk := existing.preferences.remoteOk
        hybridOk := existing.preferences.hybridOk
        onsiteOk := existing.preferences.onsiteOk
        salary := existing.preferences.salary
        blacklistCompanies := existing.preferences.blacklistCompanies } }

/-- `profile.resume.pdf_path = str(final_pdf)`. -/
def UserProfile.bindResume (path : String) (profile : UserProfile) : UserProfile :=
  { profile with resume := { profile.resume with pdfPath := path } }

/-- The profile that an upload stores over the one that is there, if there is one. -/
def ingestedProfile (resumePath : String) (rebuilt : UserProfile)
    (existing : Option UserProfile) : UserProfile :=
  (match existing with
    | some existing => mergeOperatorProfileState rebuilt existing
    | none => rebuilt).bindResume resumePath

/-- An entered text is still there, without the space around it. -/
def KeepsEntered (existing later : String) : Prop :=
  hasInk existing = true → later = String.ofList (strip existing)

/-- What the operator has entered, and what was found in earlier CVs, is still there. -/
structure KeepsOperatorState (existing later : UserProfile) : Prop where
  name : KeepsEntered existing.personal.name later.personal.name
  email : KeepsEntered existing.personal.email later.personal.email
  phone : KeepsEntered existing.personal.phone later.personal.phone
  location : KeepsEntered existing.personal.location later.personal.location
  linkedin : KeepsEntered existing.links.linkedin later.links.linkedin
  github : KeepsEntered existing.links.github later.links.github
  portfolio : KeepsEntered existing.links.portfolio later.links.portfolio
  confirmed : later.evidence.userConfirmed = existing.evidence.userConfirmed
  artifacts : ∀ digest, (existing.evidence.cvExtractedByArtifact digest).isSome = true →
    (later.evidence.cvExtractedByArtifact digest).isSome = true
  coverLetter : later.coverLetterStyle = existing.coverLetterStyle
  attachments : later.attachments = existing.attachments
  locations : later.preferences.locations = existing.preferences.locations
  places : later.preferences.remoteOk = existing.preferences.remoteOk ∧
    later.preferences.hybridOk = existing.preferences.hybridOk ∧
    later.preferences.onsiteOk = existing.preferences.onsiteOk
  salary : later.preferences.salary = existing.preferences.salary
  blacklist : later.preferences.blacklistCompanies = existing.preferences.blacklistCompanies

theorem keepsEntered_keepEntered (existing rebuilt : String) :
    KeepsEntered existing (keepEntered existing rebuilt) :=
  fun hink => if_pos hink

theorem ingestedProfile_keeps (resumePath : String) (rebuilt existing : UserProfile) :
    KeepsOperatorState existing (ingestedProfile resumePath rebuilt (some existing)) where
  name := keepsEntered_keepEntered _ _
  email := keepsEntered_keepEntered _ _
  phone := keepsEntered_keepEntered _ _
  location := keepsEntered_keepEntered _ _
  linkedin := keepsEntered_keepEntered _ _
  github := keepsEntered_keepEntered _ _
  portfolio := keepsEntered_keepEntered _ _
  confirmed := rfl
  artifacts := by
    intro digest hknown
    change ((rebuilt.evidence.cvExtractedByArtifact digest).or
      (existing.evidence.cvExtractedByArtifact digest)).isSome = true
    rw [Option.isSome_or, hknown, Bool.or_true]
  coverLetter := rfl
  attachments := rfl
  locations := rfl
  places := ⟨rfl, rfl, rfl⟩
  salary := rfl
  blacklist := rfl

end JobApplyAgent.Profile
