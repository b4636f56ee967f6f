import JobApplyAgent.Library.Text
import JobApplyAgent.Store.Rows

/-!
# The adapter registry

The immutable inventory of portal adapters, the detection of a portal by its URL, and the
two predicates that a final action asks of a descriptor.  How a URL is taken apart is left
to its readings: the verdicts of the three exact identity checks and the host name.
-/

namespace JobApplyAgent.Adapters

open Domain Library Store

/-- Evidence level reached by one exact adapter version. -/
inductive QualificationTier where
  | disabled
  | dryRunOnly
  | fixtureQualified
  | dryRunQualified
  | liveCanaryQualified
  deriving DecidableEq

/-- Immutable identity and qualification policy of an adapter. -/
structure AdapterDescriptor where
  platform : String
  adapterVersion : String
  selectorVersion : String
  transport : String
  authenticationMode : String
  qualification : QualificationTier
  qualifiedFormScope : List String
  domains : List String
  executionContractVersion : Option String
  allowSubdomains : Bool

def twoPhaseExecutionContractVersion : String := "two-phase-v2"

namespace AdapterDescriptor

variable (descriptor : AdapterDescriptor)

/-- Only a completed live canary qualifies an external final action. -/
def allowsLiveSubmission : Bool :=
  decide (descriptor.qualification = .liveCanaryQualified)

/-- Require the two-phase contract and an exact qualified form scope. -/
def allowsFinalExecution : Bool :=
  descriptor.allowsLiveSubmission
    && decide (descriptor.executionContractVersion = some twoPhaseExecutionContractVersion)
    && !descriptor.qualifiedFormScope.isEmpty

def qualifiesFormFingerprint (formFingerprint : String) : Bool :=
  let normalized := strip formFingerprint
  !normalized.isEmpty
    && descriptor.qualifiedFormScope.any fun scope => decide (scope.toList = normalized)

end AdapterDescriptor

def fixtureAdapter (platform adapterVersion selectorVersion authenticationMode : String)
    (domains : List String) (allowSubdomains : Bool) : AdapterDescriptor where
  platform
  adapterVersion
  selectorVersion
  transport := "browser"
  authenticationMode
  qualification := .fixtureQualified
  qualifiedFormScope := []
  domains
  executionContractVersion := some twoPhaseExecutionContractVersion
  allowSubdomains

/-- An adapter that is disabled until it gets a fixture program of its own. -/
def legacyAdapter (platform adapterVersion selectorVersion transport authenticationMode : String)
    (domains : List String) : AdapterDescriptor where
  platform
  adapterVersion
  selectorVersion
  transport
  authenticationMode
  qualification := .disabled
  qualifiedFormScope := []
  domains
  executionContractVersion := none
  allowSubdomains := true

/-- The registered adapters in the order of URL detection. -/
def adapters : List AdapterDescriptor :=
  [fixtureAdapter "workday" "2.0.3" "workday-candidate-v2.4" "persistent_profile"
      ["myworkdayjobs.com", "myworkday.com", "workday.com"] true,
    fixtureAdapter "greenhouse" "1.0.0" "greenhouse-candidate-v9" "public_candidate_flow"
      ["boards.greenhouse.io", "job-boards.greenhouse.io", "greenhouse-hosted.com"] true,
    fixtureAdapter "lever" "1.0.0" "lever-candidate-v5" "public_candidate_flow"
      ["jobs.lever.co", "jobs.eu.lever.co"] false,
    fixtureAdapter "ashby" "1.0.0" "ashby-candidate-v1" "public_candidate_flow"
      ["jobs.ashbyhq.com"] true,
    legacyAdapter "workable" "0.1.0" "legacy-v1" "legacy_hybrid" "public_candidate_flow"
      ["apply.workable.com", "workable.com"],
    fixtureAdapter "smartrecruiters" "1.0.0" "smartrecruiters-candidate-v1"
      "public_candidate_flow" ["jobs.smartrecruiters.com"] false,
    legacyAdapter "jobvite" "0.1.0" "legacy-v1" "legacy_hybrid" "public_candidate_flow"
      ["jobs.jobvite.com", "jobvite.com"],
    legacyAdapter "icims" "0.1.0" "legacy-v1" "browser" "public_candidate_flow" ["icims.com"],
    legacyAdapter "comeet" "0.1.0" "legacy-v1" "browser" "public_candidate_flow"
      ["comeet.com", "comeet.co"],
    legacyAdapter "linkedin" "2.0.0" "linkedin-easy-apply-v1" "browser" "persistent_profile"
      ["linkedin.com"],
    legacyAdapter "indeed" "0.1.0" "legacy-v1" "browser" "persistent_profile" ["indeed.com"]]

/-- A candidate URL as the detection sees it.  The host name is lower-case, without the dots
at its end, empty when the URL has none, and missing when the URL is malformed. -/
structure CandidateUrl where
  greenhouseCandidate : Bool
  ashbyCandidate : Bool
  smartrecruitersCandidate : Bool
  hostname : Option String

def matchesDomain (hostname domain : String) (allowSubdomains : Bool) : Bool :=
  decide (hostname = domain)
    || (allowSubdomains && decide (("." ++ domain).toList <:+ hostname.toList))

def identityPlatforms : List String := ["greenhouse", "ashby", "smartrecruiters"]

/-- Return a stable platform name without performing network requests. -/
def detectPlatform (url : CandidateUrl) : String :=
  if url.greenhouseCandidate then "greenhouse"
  else if url.ashbyCandidate then "ashby"
  else if url.smartrecruitersCandidate then "smartrecruiters"
  else
    match url.hostname with
    | none => "unknown"
    | some hostname =>
      let detected := adapters.find? fun descriptor =>
        decide (descriptor.platform ∉ identityPlatforms)
          && descriptor.domains.any fun domain =>
            matchesDomain hostname domain descriptor.allowSubdomains
      match detected with
      | some descriptor => descriptor.platform
      | none => if hostname = "" then "unknown" else "generic_portal"

/-- Resolve an exact platform identifier to its versioned descriptor. -/
def adapterForPlatform (platform : String) : Option AdapterDescriptor :=
  adapters.find? fun descriptor =>
    decide (descriptor.platform.toList = (strip platform).map Char.toLower)

/-- Resolve a URL through the same detector used by ingestion and routing. -/
def adapterForUrl (url : CandidateUrl) : Option AdapterDescriptor :=
  adapterForPlatform (detectPlatform url)

/-- The registry qualifies no adapter for live use. -/
theorem adapters_not_final (descriptor : AdapterDescriptor) (hmem : descriptor ∈ adapters) :
    descriptor.allowsFinalExecution = false := by
  have hall : ∀ descriptor ∈ adapters, descriptor.allowsFinalExecution = false := by decide
  exact hall descriptor hmem

theorem adapterForUrl_mem (hdescriptor : adapterForUrl url = some descriptor) :
    descriptor ∈ adapters := by
  rw [adapterForUrl, adapterForPlatform] at hdescriptor
  exact List.mem_of_find?_eq_some hdescriptor

/-! ## Qualification authority -/

/-- One dry run or one confirmed canary of an adapter build. -/
structure AdapterQualificationRecord where
  qualificationTier : QualificationTier
  adapterName : String
  adapterVersion : String
  selectorVersion : String
  executionContractVersion : String
  formFingerprint : String
  formContractDigest : String
  fixtureDigest : String
  runnerRelease : String
  qualifiedAt : Timestamp
  invalidatedAt : Option Timestamp

def descriptorMatchesPlan (descriptor : AdapterDescriptor) (plan : FormPlan) : Bool :=
  decide (descriptor.platform = plan.adapterName)
    && decide (descriptor.adapterVersion = plan.adapterVersion)
    && decide (descriptor.selectorVersion = plan.selectorVersion)
    && decide (descriptor.executionContractVersion = some twoPhaseExecutionContractVersion)
    && decide (descriptor.transport = "browser")

/-- What the qualification service reads: its table, the validated fixture report of an
adapter, the release while its source is unchanged, and the contract digest of a plan. -/
structure QualificationReadings where
  records : List AdapterQualificationRecord
  fixtureDigest : AdapterDescriptor → Option String
  runnerRelease : Option String
  formContractDigest : FormPlan → Option String

/-- The live records of one adapter build and one form class. -/
def qualificationQuery (records : List AdapterQualificationRecord)
    (descriptor : AdapterDescriptor) (fixtureDigest runnerRelease : String)
    (tier : QualificationTier) : List AdapterQualificationRecord :=
  records.filter fun row =>
    decide (row.adapterName = descriptor.platform)
      && decide (row.adapterVersion = descriptor.adapterVersion)
      && decide (row.selectorVersion = descriptor.selectorVersion)
      && decide (some row.executionContractVersion = descriptor.executionContractVersion)
      && decide (row.fixtureDigest = fixtureDigest)
      && decide (row.runnerRelease = runnerRelease)
      && row.invalidatedAt.isNone
      && decide (row.qualificationTier = tier)

/-- Resolve final authority for one current semantic form-contract class. -/
def effectiveLiveDescriptorForPlan (readings : QualificationReadings) (url : CandidateUrl)
    (plan : FormPlan) : Option AdapterDescriptor :=
  match adapterForUrl url with
  | none => none
  | some descriptor =>
    if ¬descriptorMatchesPlan descriptor plan then none
    else
      match readings.fixtureDigest descriptor, readings.formContractDigest plan,
          readings.runnerRelease with
      | some fixtureDigest, some contractDigest, some runnerRelease =>
        if (qualificationQuery readings.records descriptor fixtureDigest runnerRelease
            .liveCanaryQualified).any
            (fun row => decide (row.formContractDigest = contractDigest)) then
          some
            { descriptor with
              qualification := .liveCanaryQualified
              qualifiedFormScope := [plan.fingerprint] }
        else none
      | _, _, _ => none

/-- An effective descriptor is the registered one of the plan, qualified for a final action
on exactly this plan. -/
theorem effectiveLiveDescriptorForPlan_eq_some
    (heffective : effectiveLiveDescriptorForPlan readings url plan = some effective) :
    ∃ descriptor, adapterForUrl url = some descriptor ∧
      descriptorMatchesPlan descriptor plan = true ∧
      effective =
        { descriptor with
          qualification := .liveCanaryQualified
          qualifiedFormScope := [plan.fingerprint] } := by
  unfold effectiveLiveDescriptorForPlan at heffective
  split at heffective
  · cases heffective
  next descriptor hdescriptor =>
  split at heffective
  · cases heffective
  next hmatches =>
  split at heffective
  · split at heffective
    · cases heffective
      exact ⟨descriptor, hdescriptor, by simpa using hmatches, rfl⟩
    · cases heffective
  · cases heffective

/-- It allows a final action. -/
theorem effectiveLiveDescriptorForPlan_final
    (heffective : effectiveLiveDescriptorForPlan readings url plan = some effective) :
    effective.allowsFinalExecution = true := by
  obtain ⟨descriptor, _, hmatches, rfl⟩ := effectiveLiveDescriptorForPlan_eq_some heffective
  simp only [descriptorMatchesPlan, Bool.and_eq_true, decide_eq_true_eq] at hmatches
  simp [AdapterDescriptor.allowsFinalExecution, AdapterDescriptor.allowsLiveSubmission,
    hmatches.1.2]

end JobApplyAgent.Adapters
