import JobApplyAgent.Adapters.Confirmation

/-!
# Greenhouse candidate pages

The snapshot of a Greenhouse candidate page and what the adapter classifies it as.
-/

namespace JobApplyAgent.Adapters

open Domain Library
open Forms (FormFieldV1)

inductive GreenhouseVariant where
  | hosted
  | embedded
  | jobId
  deriving DecidableEq

inductive GreenhousePageState where
  | job
  | form
  | review
  | login
  | mfa
  | challenge
  | closed
  | alreadyApplied
  | confirmation
  | selectorDrift
  deriving DecidableEq

structure GreenhousePageAssessment where
  state : GreenhousePageState
  reasonCode : Option ReasonCode

def maxSnapshotBytes : ℕ := 256 * 1024

/-- Ephemeral candidate page, in UTF-8 no larger than the bound. -/
structure GreenhouseBrowserSnapshot where
  html : String
  url : String
  bounded : html.utf8ByteSize ≤ maxSnapshotBytes

structure GreenhouseApplicationIdentity where
  boardToken : String
  jobToken : String
  deriving DecidableEq

def greenhouseConfirmationSelector : String :=
  "[data-qa=\"application-confirmation\"], #application_confirmation"

def formSelectors : List String :=
  ["form#application_form", "form[data-qa=\"application-form\"]",
    "form[data-greenhouse-application]"]

def fieldWrapperSelector : String :=
  "[data-gh-field][data-field-id], [data-qa=\"application-field\"][data-field-id], "
    ++ ".field[data-field-id], fieldset[data-field-id]"

def finalActionSelectors : List String :=
  ["button#submit_app[type=\"submit\"]", "button[data-qa=\"submit-application\"][type=\"submit\"]",
    "form[data-greenhouse-application] button[type=\"submit\"]"]

def challengeSelectors : List String :=
  ["[data-qa=\"captcha\"]", ".g-recaptcha", ".h-captcha", "iframe[src*=\"captcha\"]"]

def challengeMarkers : List String :=
  ["verify you are human", "security challenge", "complete the captcha"]

def closedMarkers : List String :=
  ["this job is no longer available", "this position has been filled",
    "the job posting has expired"]

def appliedMarkers : List String :=
  ["you have already applied", "application already received"]

/-- What the adapter reads off a candidate page besides its tree.  A URL of another origin or
application is no candidate. -/
structure GreenhouseReader (Soup Element : Type) extends PageReader Soup Element where
  strippedStrings : Soup → List String
  casefold : String → String
  /-- `_final_control_is_actionable`. -/
  actionable : Element → Element → Bool
  observeFields : String → Except Raised (List FormFieldV1)
  detectVariant : String → String → Except Raised GreenhouseVariant
  formFingerprint : List FormFieldV1 → GreenhouseVariant → String → String
  isCandidate : String → String → GreenhouseApplicationIdentity → Except Raised Bool

section Pages

variable {Soup Element : Type} (reader : GreenhouseReader Soup Element)

def visibleMatches (soup : Soup) (selector : String) : List Element :=
  match reader.select soup selector with
  | .ok elements => elements.filter reader.visible
  | .error _ => []

def greenhouseVisibleConfirmationDigest (html : String) : Except Raised (Option String) := do
  let soup ← reader.parse html
  match visibleMatches reader soup greenhouseConfirmationSelector with
  | [element] => return some (reader.sha256Hex (reader.markup element))
  | _ => return none

def hasOneVisibleConfirmation (soup : Soup) : Except Raised Bool :=
  Option.isSome <$> greenhouseVisibleConfirmationDigest reader (reader.text soup)

def requireSnapshotApplicationBinding (snapshot : GreenhouseBrowserSnapshot)
    (expectedHostname : String) (expectedIdentity : GreenhouseApplicationIdentity) :
    Except Raised Unit := do
  if ← reader.isCandidate snapshot.url expectedHostname expectedIdentity then return
  else throw (.blocked .formChanged)

/-- `select_one(selector) is not None`. -/
def finds (soup : Soup) (selector : String) : Except Raised Bool :=
  (fun elements => !elements.isEmpty) <$> reader.select soup selector

/-- Some marker stands in a text. -/
def mentions (text : String) (markers : List String) : Bool :=
  markers.any (Forms.containsText text)

def assessForm (soup : Soup) (form : Element) :
    Except Raised (Option GreenhousePageAssessment) := do
  if !(visibleMatches reader soup
      "[data-qa=\"resume-upload-pending\"], [data-qa=\"resume-upload-error\"]").isEmpty then
    return some ⟨.form, some .attachmentUnverified⟩
  if !(visibleMatches reader soup
      "[data-qa=\"validation-error\"], [role=\"alert\"].field-error").isEmpty then
    return some ⟨.form, some .requiredFieldUnknown⟩
  let buttons ← reader.select soup (", ".intercalate finalActionSelectors)
  let submit := buttons.filter fun button => reader.actionable button form
  let wrappers := visibleMatches reader soup fieldWrapperSelector
  if submit.length == 1 && !wrappers.isEmpty then return some ⟨.review, none⟩
  if !wrappers.isEmpty then return some ⟨.form, none⟩
  return none

def assessGreenhouseV1Snapshot (html url : String) : Except Raised GreenhousePageAssessment := do
  if maxSnapshotBytes < html.utf8ByteSize then return ⟨.selectorDrift, some .selectorDrift⟩
  let soup ← reader.parse html
  let text := reader.casefold (" ".intercalate (reader.strippedStrings soup))
  let lowUrl := reader.casefold url
  if (← challengeSelectors.anyM (finds reader soup)) || mentions text challengeMarkers then
    return ⟨.challenge, some .challengeDetected⟩
  if ← ["[data-qa=\"mfa-challenge\"]", "input[autocomplete=\"one-time-code\"]"].anyM
      (finds reader soup) then
    return ⟨.mfa, some .mfaRequired⟩
  if (← ["[data-qa=\"sign-in\"]", "input[type=\"password\"]"].anyM (finds reader soup))
      || mentions lowUrl ["/login", "/signin", "/sign-in"] then
    return ⟨.login, some .sessionExpired⟩
  if (← finds reader soup "[data-qa=\"job-closed\"], #job_not_found")
      || mentions text closedMarkers then
    return ⟨.closed, some .jobClosed⟩
  if (← finds reader soup "[data-qa=\"already-applied\"]") || mentions text appliedMarkers then
    return ⟨.alreadyApplied, some .alreadyApplied⟩
  if ← hasOneVisibleConfirmation reader soup then return ⟨.confirmation, none⟩
  match ← reader.select soup (", ".intercalate formSelectors) with
  | form :: _ =>
    if let some assessment ← assessForm reader soup form then return assessment
  | [] => pure ()
  if (visibleMatches reader soup "[data-qa=\"apply-button\"], a[href*=\"/embed/job_app\"], a[href*=\"/apply\"]").length == 1 then
    return ⟨.job, none⟩
  return ⟨.selectorDrift, some .selectorDrift⟩

end Pages

end JobApplyAgent.Adapters
