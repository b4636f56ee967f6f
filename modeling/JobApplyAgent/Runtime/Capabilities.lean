import JobApplyAgent.Library.Fallible
import JobApplyAgent.Library.Text
import Mathlib.Algebra.Group.Int.Defs
import Mathlib.Algebra.Group.Nat.Defs

/-!
# Runtime capabilities

The decision whether a final send may start, and the reasons that are published for a denial.
The two are computed by separate chains of conditions, and no reason is published exactly when
the send is allowed.  The values of a readiness report may have any type: a conversion that
raises is the only way for the decision to raise.
-/

namespace JobApplyAgent.Runtime

open Library

/-! ## Values of a report -/

/-- A value of any type, with what `str` and `bool` make of it: the name of the exception where
they raise. -/
inductive PyValue where
  | none
  | bool (value : Bool)
  | int (value : ℤ)
  | text (value : String)
  | sequence (items : List PyValue) (spelling : Except String String)
  | mapping (entries : List (String × PyValue)) (spelling : Except String String)
  | other (truth : Except String Bool) (spelling : Except String String)

abbrev Entries := List (String × PyValue)

/-- `str` refuses an integer with more digits. -/
def maxStrDigits : ℕ := 4300

namespace PyValue

def truth : PyValue → Except String Bool
  | none => .ok false
  | bool value => .ok value
  | int value => .ok (value != 0)
  | text value => .ok (value != "")
  | sequence items _ => .ok !items.isEmpty
  | mapping entries _ => .ok !entries.isEmpty
  | other truth _ => truth

def spelling : PyValue → Except String String
  | none => .ok "None"
  | bool value => .ok (if value then "True" else "False")
  | int value =>
    if value.natAbs < 10 ^ maxStrDigits then .ok (toString value) else .error "ValueError"
  | text value => .ok value
  | sequence _ spelling | mapping _ spelling | other _ spelling => spelling

def text? : PyValue → Option String
  | text value => some value
  | _ => .none

/-- `value is True`. -/
def isTrue : Option PyValue → Bool
  | some (bool true) => true
  | _ => false

/-- The entries of a mapping; any other value is read as an empty one. -/
def asMapping : Option PyValue → Entries
  | some (mapping entries _) => entries
  | _ => []

/-- The items of a list or a tuple. -/
def asSequence : Option PyValue → List PyValue
  | some (sequence items _) => items
  | _ => []

end PyValue

open PyValue (asMapping asSequence isTrue)

/-- `bool(entries.get(key))`. -/
def flag (entries : Entries) (key : String) : Except String Bool :=
  match entries.lookup key with
  | some value => value.truth
  | none => .ok false

/-- `str(entries.get(key) or fallback)`. -/
def spelled (entries : Entries) (key fallback : String) : Except String String :=
  match entries.lookup key with
  | some value => value.truth.bind fun truth => if truth then value.spelling else .ok fallback
  | none => .ok fallback

/-! ## Formats -/

def isSafeRelease (text : String) : Bool :=
  match text.toList with
  | [] => false
  | first :: rest => first.isAlphanum && decide (rest.length ≤ 63)
      && rest.all fun character => character.isAlphanum || ['.', '_', '-'].contains character

def isSourceDigest (text : String) : Bool :=
  "sha256:".toList.isPrefixOf text.toList && text.length == 71
    && (text.toList.drop 7).all fun character =>
      character.isDigit || (decide ('a' ≤ character) && decide (character ≤ 'f'))

def isReasonCode (text : String) : Bool :=
  match text.toList with
  | [] => false
  | first :: rest => first.isUpper && decide (rest.length ≤ 63)
      && rest.all fun character => character.isUpper || character.isDigit || character == '_'

def cleanRelease (spelling : String) : Option String :=
  let candidate := String.ofList (strip spelling)
  if isSafeRelease candidate then some candidate else none

/-! ## Settings and identity -/

structure Settings where
  databaseUrl : String
  secretKey : String
  dryRun : Bool
  draftOnly : Bool
  portalFinalSubmitEnabled : Bool
  liveAutomationAcknowledged : Bool
  discoveryEnabled : Bool
  autoApply : Bool

namespace Settings

/-- No letter outside ASCII has a letter of the two prefixes in lower case. -/
def dbIsPostgres (settings : Settings) : Bool :=
  let url := settings.databaseUrl.toList.map Char.toLower
  "postgresql://".toList.isPrefixOf url || "postgresql+".toList.isPrefixOf url

def operatorAuthIsPlaceholder (settings : Settings) : Bool :=
  ["", "change-me", "change-me-to-a-random-secret"].contains settings.secretKey

def operatorAuthConfigured (settings : Settings) : Bool :=
  !settings.operatorAuthIsPlaceholder && decide (32 ≤ settings.secretKey.length)

end Settings

/-- `startedAt` is the instant as `isoformat` prints it. -/
structure RuntimeIdentity where
  buildSha : String
  uiAssetDigest : String
  sourceDigest : String
  protocolVersion : String
  bootId : String
  startedAt : String

variable (sha256 : String → String)

def RuntimeIdentity.releaseId (identity : RuntimeIdentity) : String :=
  sha256 (identity.buildSha ++ "\x00" ++ identity.sourceDigest ++ "\x00" ++
    identity.protocolVersion ++ "\x00")

inductive SubmissionBlockReason where
  | dryRunEnabled
  | draftOnlyEnabled
  | finalSubmitDisabled
  | liveAutomationNotAcknowledged
  | runtimeNotReady
  | buildIdentityUnavailable
  | workerIdentityUnavailable
  | buildMismatch
  | protocolMismatch
  | submitCommandUnavailable
  | databaseSerializationRequired
  | operatorAuthRequired
  | automationSubmissionNotReady

def SubmissionBlockReason.value : SubmissionBlockReason → String
  | dryRunEnabled => "DRY_RUN_ENABLED"
  | draftOnlyEnabled => "DRAFT_ONLY_ENABLED"
  | finalSubmitDisabled => "FINAL_SUBMIT_DISABLED"
  | liveAutomationNotAcknowledged => "LIVE_AUTOMATION_NOT_ACKNOWLEDGED"
  | runtimeNotReady => "RUNTIME_NOT_READY"
  | buildIdentityUnavailable => "BUILD_IDENTITY_UNAVAILABLE"
  | workerIdentityUnavailable => "WORKER_IDENTITY_UNAVAILABLE"
  | buildMismatch => "BUILD_MISMATCH"
  | protocolMismatch => "PROTOCOL_MISMATCH"
  | submitCommandUnavailable => "SUBMIT_COMMAND_UNAVAILABLE"
  | databaseSerializationRequired => "DATABASE_SERIALIZATION_REQUIRED"
  | operatorAuthRequired => "OPERATOR_AUTH_REQUIRED"
  | automationSubmissionNotReady => "AUTOMATION_SUBMISSION_NOT_READY"

def submitCommandProtocolAvailable : Bool := true

def readinessComponents : List String :=
  ["database", "migration", "redis", "worker", "beat", "shared_storage", "browser", "llm"]

/-! ## What is read of a report -/

/-- The arguments of a call, with the identity of the process and the digest of the sources on
disk. -/
structure CapabilityInput where
  settings : Settings
  readiness : Entries
  identity : Option RuntimeIdentity
  currentSourceDigest : Option String
  automationReadiness : Option Entries
  automationPolicyStatus : Option Entries
  processIdentity : RuntimeIdentity
  computedSourceDigest : String

namespace CapabilityInput

def release (input : CapabilityInput) : RuntimeIdentity :=
  input.identity.getD input.processIdentity

def observedSourceDigest (input : CapabilityInput) : String :=
  input.currentSourceDigest.getD
    (if input.identity.isNone then input.computedSourceDigest else input.release.sourceDigest)

/-- What the report says of a component. -/
def detail (input : CapabilityInput) (component : String) : Entries :=
  asMapping ((asMapping (input.readiness.lookup "checks")).lookup component)

end CapabilityInput

structure WorkerIdentity where
  buildSha : Option String
  protocolVersion : Option String
  sourceDigest : String
  releaseId : Option String

def readWorker (detail : Entries) : Except String WorkerIdentity := do
  return {
    buildSha := cleanRelease (← spelled detail "build_sha" "")
    protocolVersion := cleanRelease (← spelled detail "protocol_version" "")
    sourceDigest := ← spelled detail "source_digest" ""
    releaseId := cleanRelease (← spelled detail "release_id" "") }

structure LlmCapabilities where
  provider : String
  model : String
  isLocal : Bool
  digest : Option String
  ollamaServerVersion : Option String
  ready : Bool
  reasonCode : Option String

def cut (length : ℕ) (text : String) : String :=
  String.ofList (text.toList.take length)

def readLlm (detail : Entries) : Except String LlmCapabilities := do
  return {
    provider := cut 32 (← spelled detail "provider" "unknown")
    model := cut 128 (← spelled detail "model" "unknown")
    isLocal := ← flag detail "local"
    digest := some (← spelled detail "digest" "") |>.filter isSourceDigest
    ollamaServerVersion := some (← spelled detail "ollama_server_version" "")
      |>.filter isSafeRelease
    ready := ← flag detail "ok"
    reasonCode := ((detail.lookup "reason_code").bind PyValue.text?).map (cut 64) }

/-- Every component with the truth of its `ok`. -/
def readChecks (input : CapabilityInput) : Except String (List (String × Bool)) :=
  readinessComponents.mapM fun component => do
    return (component, ← flag (input.detail component) "ok")

/-! ## The decision -/

def unnamedBuilds : List String :=
  ["unknown", "unavailable"]

def releaseKnown (release : RuntimeIdentity) : Bool :=
  !unnamedBuilds.contains release.buildSha

def sourceCurrent (input : CapabilityInput) : Bool :=
  isSourceDigest input.observedSourceDigest
    && input.observedSourceDigest == input.release.sourceDigest

/-- A text that is there and names a build. -/
def named (text : Option String) : Bool :=
  text.any fun found => !unnamedBuilds.contains found

def WorkerIdentity.known (worker : WorkerIdentity) : Bool :=
  named worker.buildSha && worker.protocolVersion.isSome
    && "sha256:".toList.isPrefixOf worker.sourceDigest.toList && worker.sourceDigest.length == 71
    && named worker.releaseId

def workerCompatible (input : CapabilityInput) (worker : WorkerIdentity) : Bool :=
  releaseKnown input.release && isSourceDigest input.release.sourceDigest && sourceCurrent input
    && worker.known
    && worker.buildSha == some input.release.buildSha
    && worker.protocolVersion == some input.release.protocolVersion
    && worker.sourceDigest == input.release.sourceDigest
    && worker.releaseId == some (input.release.releaseId sha256)

def effectiveMode (settings : Settings) : String × Bool :=
  let liveSubmitEnabled := !settings.dryRun && !settings.draftOnly
    && settings.portalFinalSubmitEnabled && settings.liveAutomationAcknowledged
    && settings.dbIsPostgres && settings.operatorAuthConfigured
  if settings.dryRun then ("dry_run", liveSubmitEnabled)
  else if settings.draftOnly then ("draft_only", liveSubmitEnabled)
  else if !settings.portalFinalSubmitEnabled then ("prepare_only", liveSubmitEnabled)
  else if !settings.liveAutomationAcknowledged then ("blocked_unacknowledged", liveSubmitEnabled)
  else if !settings.operatorAuthConfigured then ("blocked_auth", liveSubmitEnabled)
  else ("explicit_live", liveSubmitEnabled)

/-- A reason that is given in one case. -/
def reasonIf (condition : Bool) (reason : SubmissionBlockReason) : List SubmissionBlockReason :=
  if condition then [reason] else []

def settingReasons (settings : Settings) : List SubmissionBlockReason :=
  reasonIf settings.dryRun .dryRunEnabled
    ++ reasonIf settings.draftOnly .draftOnlyEnabled
    ++ reasonIf (!settings.portalFinalSubmitEnabled) .finalSubmitDisabled
    ++ reasonIf (!settings.liveAutomationAcknowledged) .liveAutomationNotAcknowledged
    ++ reasonIf (!settings.dbIsPostgres) .databaseSerializationRequired
    ++ reasonIf (!settings.operatorAuthConfigured) .operatorAuthRequired

def buildReasons (input : CapabilityInput) : List SubmissionBlockReason :=
  if !releaseKnown input.release || !isSourceDigest input.release.sourceDigest then
    [.buildIdentityUnavailable]
  else reasonIf (!sourceCurrent input) .buildMismatch

def workerReasons (input : CapabilityInput) (worker : WorkerIdentity) :
    List SubmissionBlockReason :=
  if !worker.known then [.workerIdentityUnavailable]
  else
    reasonIf (worker.buildSha != some input.release.buildSha
        || worker.sourceDigest != input.release.sourceDigest
        || worker.releaseId != some (input.release.releaseId sha256)) .buildMismatch
      ++ reasonIf (worker.protocolVersion != some input.release.protocolVersion) .protocolMismatch

/-- The well-formed codes that the automation gives for its submission stage. -/
def submissionCodes (automation : Entries) : List String :=
  let stage := asMapping ((asMapping (automation.lookup "stages")).lookup "submission")
  ((asSequence (stage.lookup "reason_codes")).filterMap PyValue.text?).filter isReasonCode

/-- Whether the automation may submit, and the reasons why it may not. -/
def automationDecision : Option Entries → Bool × List String
  | none => (false, [SubmissionBlockReason.automationSubmissionNotReady.value])
  | some automation =>
    if isTrue (automation.lookup "submission_ready") then (true, [])
    else
      let codes := submissionCodes automation
      (false, if codes.isEmpty then [SubmissionBlockReason.automationSubmissionNotReady.value]
        else codes)

def blockReasons (input : CapabilityInput) (ready : Bool) (worker : WorkerIdentity) :
    List SubmissionBlockReason :=
  settingReasons input.settings
    ++ reasonIf (!ready) .runtimeNotReady
    ++ buildReasons input
    ++ workerReasons sha256 input worker
    ++ reasonIf (!submitCommandProtocolAvailable) .submitCommandUnavailable

def reasonValues (input : CapabilityInput) (ready : Bool) (worker : WorkerIdentity) :
    List String :=
  ((blockReasons sha256 input ready worker).map SubmissionBlockReason.value
    ++ (automationDecision input.automationReadiness).2).eraseDups

def submissionAllowed (input : CapabilityInput) (ready : Bool) (worker : WorkerIdentity) : Bool :=
  (effectiveMode input.settings).2 && ready && workerCompatible sha256 input worker
    && submitCommandProtocolAvailable && input.settings.dbIsPostgres
    && (automationDecision input.automationReadiness).1

/-! ## The response -/

structure ModeCapabilities where
  name : String
  dryRun : Bool
  draftOnly : Bool
  liveSubmitEnabled : Bool
  discoveryEnabled : Bool
  autoPrepareEnabled : Bool
  qualifiedAutopilotEnabled : Bool
  legacyAutoApplyAlias : Bool

structure WorkerCapabilities where
  buildSha : Option String
  sourceDigest : Option String
  releaseId : Option String
  protocolVersion : Option String
  compatible : Bool

/-- The release is published with its id. -/
structure RuntimeCapabilities where
  release : RuntimeIdentity
  releaseId : String
  mode : ModeCapabilities
  readinessStatus : String
  checks : List (String × Bool)
  allowed : Bool
  reasons : List String
  worker : WorkerCapabilities
  llm : LlmCapabilities
  automation : Option Entries
  automationPolicy : Option Entries

def buildRuntimeCapabilities (input : CapabilityInput) : Except String RuntimeCapabilities := do
  let settings := input.settings
  let release := input.release
  let checks ← readChecks input
  let ready := checks.all Prod.snd
  let llm ← readLlm (input.detail "llm")
  let worker ← readWorker (input.detail "worker")
  let allowed := submissionAllowed sha256 input ready worker
  let autopilot := allowed &&
    input.automationPolicyStatus.any fun status => isTrue (status.lookup "active")
  return {
    release := { release with startedAt := release.startedAt.replace "+00:00" "Z" }
    releaseId := release.releaseId sha256
    mode := {
      name := if autopilot then "qualified_autopilot" else (effectiveMode settings).1
      dryRun := settings.dryRun
      draftOnly := settings.draftOnly
      liveSubmitEnabled := (effectiveMode settings).2
      discoveryEnabled := settings.discoveryEnabled
      autoPrepareEnabled := settings.autoApply
      qualifiedAutopilotEnabled := autopilot
      legacyAutoApplyAlias := settings.autoApply }
    readinessStatus := if ready then "ready" else "degraded"
    checks
    allowed
    reasons := reasonValues sha256 input ready worker
    worker := {
      buildSha := worker.buildSha
      sourceDigest := some worker.sourceDigest |>.filter (· != "")
      releaseId := worker.releaseId
      protocolVersion := worker.protocolVersion
      compatible := workerCompatible sha256 input worker }
    llm
    automation := input.automationReadiness
    automationPolicy := input.automationPolicyStatus }

variable {sha256}

/-! ## The two chains -/

theorem reasonIf_eq_nil :
    reasonIf condition reason = [] ↔ condition = false := by
  cases condition <;> simp [reasonIf]

theorem effectiveMode_live (settings : Settings) :
    (effectiveMode settings).2 = (!settings.dryRun && !settings.draftOnly
      && settings.portalFinalSubmitEnabled && settings.liveAutomationAcknowledged
      && settings.dbIsPostgres && settings.operatorAuthConfigured) := by
  unfold effectiveMode
  split_ifs <;> rfl

theorem settingReasons_eq_nil :
    settingReasons settings = [] ↔ (effectiveMode settings).2 = true := by
  simp [settingReasons, effectiveMode_live, reasonIf_eq_nil, and_assoc]

theorem buildReasons_eq_nil :
    buildReasons input = [] ↔ releaseKnown input.release = true ∧
      isSourceDigest input.release.sourceDigest = true ∧ sourceCurrent input = true := by
  unfold buildReasons
  split_ifs with hunknown
  · rw [Bool.or_eq_true, Bool.not_eq_true', Bool.not_eq_true'] at hunknown
    rcases hunknown with hnone | hnone <;> simp [hnone]
  · simp_all [reasonIf_eq_nil]

theorem workerReasons_eq_nil :
    workerReasons sha256 input worker = [] ↔ worker.known = true ∧
      worker.buildSha = some input.release.buildSha ∧
      worker.sourceDigest = input.release.sourceDigest ∧
      worker.releaseId = some (input.release.releaseId sha256) ∧
      worker.protocolVersion = some input.release.protocolVersion := by
  unfold workerReasons
  split_ifs with hunknown
  · simp_all
  · simp_all [reasonIf_eq_nil, and_assoc]

theorem workerCompatible_iff :
    workerCompatible sha256 input worker = true ↔
      buildReasons input = [] ∧ workerReasons sha256 input worker = [] := by
  rw [buildReasons_eq_nil, workerReasons_eq_nil]
  simp only [workerCompatible, Bool.and_eq_true, beq_iff_eq]
  tauto

theorem automationDecision_agrees (automation : Option Entries) :
    (automationDecision automation).1 = true ↔ (automationDecision automation).2 = [] := by
  unfold automationDecision
  cases automation with
  | none => simp
  | some automation =>
    dsimp only
    split_ifs with hready hcodes
    · simp
    · simp
    · simpa using hcodes

theorem blockReasons_eq_nil :
    blockReasons sha256 input ready worker = [] ↔ (effectiveMode input.settings).2 = true ∧
      ready = true ∧ workerCompatible sha256 input worker = true := by
  simp only [blockReasons, List.append_eq_nil_iff, settingReasons_eq_nil, reasonIf_eq_nil,
    submitCommandProtocolAvailable, workerCompatible_iff, Bool.not_eq_false', and_assoc, and_true]

/-- No reason is published exactly when both chains give none. -/
theorem reasonValues_eq_nil :
    reasonValues sha256 input ready worker = [] ↔ blockReasons sha256 input ready worker = [] ∧
      (automationDecision input.automationReadiness).2 = [] := by
  rw [reasonValues, List.eq_nil_iff_forall_not_mem]
  simp only [List.mem_eraseDups]
  rw [← List.eq_nil_iff_forall_not_mem, List.append_eq_nil_iff, List.map_eq_nil_iff]

/-- A send is allowed exactly when no reason is published. -/
theorem submissionAllowed_iff :
    submissionAllowed sha256 input ready worker = true ↔
      reasonValues sha256 input ready worker = [] := by
  have hpostgres : (effectiveMode input.settings).2 = true →
      input.settings.dbIsPostgres = true := by
    rw [effectiveMode_live]
    simp only [Bool.and_eq_true]
    exact fun hlive => hlive.1.2
  rw [reasonValues_eq_nil, blockReasons_eq_nil, ← automationDecision_agrees]
  simp only [submissionAllowed, submitCommandProtocolAvailable, Bool.and_true, Bool.and_eq_true]
  constructor
  · rintro ⟨⟨⟨⟨hlive, hready⟩, hcompatible⟩, _⟩, hautomation⟩
    exact ⟨⟨hlive, hready, hcompatible⟩, hautomation⟩
  · rintro ⟨⟨hlive, hready, hcompatible⟩, hautomation⟩
    exact ⟨⟨⟨⟨hlive, hready⟩, hcompatible⟩, hpostgres hlive⟩, hautomation⟩

/-! ## What a call reads -/

def CapabilityInput.workerText (input : CapabilityInput) (key : String) : Option String :=
  (spelled (input.detail "worker") key "").toOption.bind cleanRelease

def CapabilityInput.workerDigest (input : CapabilityInput) : Option String :=
  (spelled (input.detail "worker") "source_digest" "").toOption

/-- Every conversion that a call makes returns. -/
structure Converts (input : CapabilityInput) : Prop where
  oks : ∀ component ∈ readinessComponents, ∃ ok, flag (input.detail component) "ok" = .ok ok
  isLocal : ∃ found, flag (input.detail "llm") "local" = .ok found
  worker : ∀ key ∈ ["build_sha", "protocol_version", "source_digest", "release_id"],
    ∃ text, spelled (input.detail "worker") key "" = .ok text
  llm : ∀ key ∈ ["digest", "ollama_server_version"],
    ∃ text, spelled (input.detail "llm") key "" = .ok text
  names : ∀ key ∈ ["provider", "model"], ∃ text, spelled (input.detail "llm") key "unknown"
    = .ok text

/-- The worker as the report tells of it. -/
structure WorkerRead (input : CapabilityInput) (worker : WorkerIdentity) : Prop where
  buildSha : worker.buildSha = input.workerText "build_sha"
  protocolVersion : worker.protocolVersion = input.workerText "protocol_version"
  sourceDigest : input.workerDigest = some worker.sourceDigest
  releaseId : worker.releaseId = input.workerText "release_id"

theorem readWorker_eq_ok (hread : readWorker (input.detail "worker") = .ok worker) :
    WorkerRead input worker := by
  simp only [readWorker, bind_eq_ok, pure_eq_ok] at hread
  obtain ⟨build, hbuild, protocol, hprotocol, digest, hdigest, release, hrelease, rfl⟩ := hread
  constructor
  · simp [CapabilityInput.workerText, hbuild, Except.toOption]
  · simp [CapabilityInput.workerText, hprotocol, Except.toOption]
  · simp [CapabilityInput.workerDigest, hdigest, Except.toOption]
  · simp [CapabilityInput.workerText, hrelease, Except.toOption]

theorem readChecks_eq_ok (hread : readChecks input = .ok checks) :
    checks.all Prod.snd = true ↔
      ∀ component ∈ readinessComponents, flag (input.detail component) "ok" = .ok true := by
  unfold readChecks at hread
  generalize readinessComponents = components at hread ⊢
  induction mapM_eq_ok.mp hread with
  | nil => simp
  | @cons component check components checks hfirst hrest ih =>
    simp only [bind_eq_ok, pure_eq_ok] at hfirst
    obtain ⟨ok, hok, rfl⟩ := hfirst
    simp [hok, ih (mapM_eq_ok.mpr hrest)]

theorem build_eq_ok (hbuild : buildRuntimeCapabilities sha256 input = .ok caps) :
    ∃ checks worker, readChecks input = .ok checks ∧ WorkerRead input worker ∧
      caps.allowed = submissionAllowed sha256 input (checks.all Prod.snd) worker ∧
      caps.reasons = reasonValues sha256 input (checks.all Prod.snd) worker := by
  simp only [buildRuntimeCapabilities, bind_eq_ok, pure_eq_ok] at hbuild
  obtain ⟨checks, hchecks, _, _, worker, hworker, rfl⟩ := hbuild
  exact ⟨checks, worker, hchecks, readWorker_eq_ok hworker, rfl, rfl⟩

/-- A call raises only where a conversion does. -/
theorem build_returns_iff :
    (∃ caps, buildRuntimeCapabilities sha256 input = .ok caps) ↔ Converts input := by
  have hoks : (∃ checks, readChecks input = .ok checks) ↔
      ∀ component ∈ readinessComponents, ∃ ok, flag (input.detail component) "ok" = .ok ok := by
    rw [readChecks, mapM_succeeds_iff]
    simp only [bind_eq_ok, pure_eq_ok, exists_comm (α := String × Bool)]
    simp
  constructor
  · rintro ⟨caps, hbuild⟩
    simp only [buildRuntimeCapabilities, readLlm, readWorker, bind_eq_ok, pure_eq_ok] at hbuild
    obtain ⟨checks, hchecks, _, ⟨_, hprovider, _, hmodel, _, hlocal, _, hdigest, _, hversion, _⟩, _,
      ⟨_, hsha, _, hprotocol, _, hsource, _, hrelease, _⟩, _⟩ := hbuild
    exact {
      oks := hoks.mp ⟨checks, hchecks⟩
      isLocal := ⟨_, hlocal⟩
      worker := by simp [hsha, hprotocol, hsource, hrelease]
      llm := by simp [hdigest, hversion]
      names := by simp [hprovider, hmodel] }
  · rintro ⟨hcomponents, ⟨_, hlocal⟩, hworker, hllm, hnames⟩
    obtain ⟨checks, hchecks⟩ := hoks.mpr hcomponents
    obtain ⟨_, hready⟩ := hcomponents "llm" (by decide)
    simp only [List.mem_cons, List.not_mem_nil, or_false, forall_eq_or_imp, forall_eq]
      at hworker hllm hnames
    obtain ⟨⟨_, hsha⟩, ⟨_, hprotocol⟩, ⟨_, hsource⟩, _, hrelease⟩ := hworker
    obtain ⟨⟨_, hdigest⟩, _, hversion⟩ := hllm
    obtain ⟨⟨_, hprovider⟩, _, hmodel⟩ := hnames
    simp only [buildRuntimeCapabilities, readLlm, readWorker, hchecks, hready, hlocal, hsha,
      hprotocol, hsource, hrelease, hdigest, hversion, hprovider, hmodel]
    exact ⟨_, rfl⟩

/-! ## The conditions of a send -/

inductive Condition where
  | component (name : String)
  | workerBuild
  | workerSourceDigest
  | workerReleaseId
  | workerProtocol
  | workerDigestFormed
  | sourceDigestFormed
  | observedDigest
  | postgres
  | dryRunOff
  | draftOnlyOff
  | finalSubmitEnabled
  | automationAcknowledged
  | operatorAuth
  | automationReady
  deriving DecidableEq

variable (sha256) in
def Met (input : CapabilityInput) : Condition → Prop
  | .component name => name ∈ readinessComponents → flag (input.detail name) "ok" = .ok true
  | .workerBuild => input.workerText "build_sha" = some input.release.buildSha
  | .workerSourceDigest => input.workerDigest = some input.release.sourceDigest
  | .workerReleaseId => input.workerText "release_id" = some (input.release.releaseId sha256)
  | .workerProtocol => input.workerText "protocol_version" = some input.release.protocolVersion
  | .workerDigestFormed => ∃ digest, input.workerDigest = some digest ∧ isSourceDigest digest = true
  | .sourceDigestFormed => isSourceDigest input.release.sourceDigest = true
  | .observedDigest => input.observedSourceDigest = input.release.sourceDigest
  | .postgres => input.settings.dbIsPostgres = true
  | .dryRunOff => input.settings.dryRun = false
  | .draftOnlyOff => input.settings.draftOnly = false
  | .finalSubmitEnabled => input.settings.portalFinalSubmitEnabled = true
  | .automationAcknowledged => input.settings.liveAutomationAcknowledged = true
  | .operatorAuth => input.settings.operatorAuthConfigured = true
  | .automationReady => ∃ automation, input.automationReadiness = some automation ∧
      isTrue (automation.lookup "submission_ready") = true

def naming : Condition → List SubmissionBlockReason
  | .component _ => [.runtimeNotReady]
  | .workerBuild | .workerSourceDigest | .workerReleaseId =>
    [.workerIdentityUnavailable, .buildMismatch]
  | .workerProtocol => [.workerIdentityUnavailable, .protocolMismatch]
  | .workerDigestFormed => [.workerIdentityUnavailable, .buildMismatch, .buildIdentityUnavailable]
  | .sourceDigestFormed => [.buildIdentityUnavailable]
  | .observedDigest => [.buildIdentityUnavailable, .buildMismatch]
  | .postgres => [.databaseSerializationRequired]
  | .dryRunOff => [.dryRunEnabled]
  | .draftOnlyOff => [.draftOnlyEnabled]
  | .finalSubmitEnabled => [.finalSubmitDisabled]
  | .automationAcknowledged => [.liveAutomationNotAcknowledged]
  | .operatorAuth => [.operatorAuthRequired]
  | .automationReady => [.automationSubmissionNotReady]

/-- The codes that the automation gives stand for its own condition. -/
def Names (input : CapabilityInput) (condition : Condition) (reason : String) : Prop :=
  (∃ block ∈ naming condition, reason = block.value) ∨
    condition = .automationReady ∧ ∃ automation, input.automationReadiness = some automation ∧
      reason ∈ submissionCodes automation

variable (sha256) in
theorem settings_met_iff :
    (effectiveMode input.settings).2 = true ↔
      ∀ condition ∈ [Condition.dryRunOff, .draftOnlyOff, .finalSubmitEnabled,
        .automationAcknowledged, .postgres, .operatorAuth], Met sha256 input condition := by
  simp [effectiveMode_live, Met, and_assoc]

variable (sha256) in
theorem automation_met_iff :
    (automationDecision input.automationReadiness).1 = true ↔
      Met sha256 input .automationReady := by
  unfold automationDecision Met
  cases input.automationReadiness with
  | none => simp
  | some automation =>
    dsimp only
    split_ifs <;> simp_all

theorem met_of_allowed (hchecks : readChecks input = .ok checks) (hread : WorkerRead input worker)
    (hallowed : submissionAllowed sha256 input (checks.all Prod.snd) worker = true)
    (condition : Condition) : Met sha256 input condition := by
  rw [submissionAllowed_iff, reasonValues_eq_nil, blockReasons_eq_nil,
    ← automationDecision_agrees, automation_met_iff sha256, workerCompatible_iff,
    buildReasons_eq_nil, workerReasons_eq_nil, settings_met_iff sha256] at hallowed
  obtain ⟨⟨hsettings, hready, ⟨_, hformed, hcurrent⟩, _, hbuild, hdigest, hrelease, hprotocol⟩,
    hautomation⟩ := hallowed
  rw [sourceCurrent, Bool.and_eq_true, beq_iff_eq] at hcurrent
  cases condition with
  | component name => exact (readChecks_eq_ok hchecks).mp hready name
  | workerBuild => exact hread.buildSha.symm.trans hbuild
  | workerSourceDigest => exact hread.sourceDigest.trans (congrArg some hdigest)
  | workerReleaseId => exact hread.releaseId.symm.trans hrelease
  | workerProtocol => exact hread.protocolVersion.symm.trans hprotocol
  | workerDigestFormed => exact ⟨_, hread.sourceDigest, hdigest ▸ hformed⟩
  | sourceDigestFormed => exact hformed
  | observedDigest => exact hcurrent.2
  | automationReady => exact hautomation
  | _ => exact hsettings _ (by decide)

/-- A mismatch of the worker is published, unless its identity is not known. -/
theorem workerReasons_of_mismatch (hmismatch : worker.buildSha ≠ some input.release.buildSha ∨
      worker.sourceDigest ≠ input.release.sourceDigest ∨
      worker.releaseId ≠ some (input.release.releaseId sha256)) :
    ∃ block ∈ [SubmissionBlockReason.workerIdentityUnavailable, .buildMismatch],
      block ∈ workerReasons sha256 input worker := by
  unfold workerReasons
  split_ifs
  · exact ⟨_, .head _, .head _⟩
  · refine ⟨.buildMismatch, by simp, ?_⟩
    simp [reasonIf, ← or_assoc] at hmismatch ⊢
    simp [hmismatch]

theorem named_of_unmet (hchecks : readChecks input = .ok checks) (hread : WorkerRead input worker)
    (hunmet : ¬Met sha256 input condition) (hother : condition ≠ .automationReady) :
    ∃ block ∈ naming condition,
      block ∈ blockReasons sha256 input (checks.all Prod.snd) worker := by
  have hworker : ∀ block, block ∈ workerReasons sha256 input worker →
      block ∈ blockReasons sha256 input (checks.all Prod.snd) worker := by
    intro block hblock
    simp [blockReasons, hblock]
  cases condition with
  | component name =>
    have hready : checks.all Prod.snd = false := by
      rw [← Bool.not_eq_true, readChecks_eq_ok hchecks]
      exact fun hall => hunmet (hall name)
    exact ⟨_, .head _, by simp [blockReasons, reasonIf, hready]⟩
  | workerBuild | workerSourceDigest | workerReleaseId =>
    simp only [Met, ← hread.buildSha, ← hread.releaseId, hread.sourceDigest,
      Option.some.injEq] at hunmet
    obtain ⟨block, hnamed, hblock⟩ : ∃ block ∈ [SubmissionBlockReason.workerIdentityUnavailable,
        .buildMismatch], block ∈ workerReasons sha256 input worker :=
      workerReasons_of_mismatch (by tauto)
    exact ⟨block, hnamed, hworker block hblock⟩
  | workerProtocol =>
    simp only [Met, ← hread.protocolVersion] at hunmet
    cases hknown : worker.known with
    | false => exact ⟨_, .head _, hworker _ (by simp [workerReasons, hknown])⟩
    | true =>
      exact ⟨.protocolMismatch, by simp [naming],
        hworker _ (by simp [workerReasons, hknown, reasonIf, hunmet])⟩
  | workerDigestFormed =>
    by_cases hformed : isSourceDigest input.release.sourceDigest = true
    · have hdiffers : worker.sourceDigest ≠ input.release.sourceDigest :=
        fun hsame => hunmet ⟨_, hread.sourceDigest, hsame ▸ hformed⟩
      obtain ⟨block, hnamed, hblock⟩ := workerReasons_of_mismatch (.inr (.inl hdiffers))
      exact ⟨block, List.mem_append_left [SubmissionBlockReason.buildIdentityUnavailable] hnamed,
        hworker block hblock⟩
    · exact ⟨.buildIdentityUnavailable, by simp [naming],
        by simp [blockReasons, buildReasons, hformed]⟩
  | sourceDigestFormed =>
    exact ⟨_, .head _, by simp_all [blockReasons, buildReasons, Met]⟩
  | observedDigest =>
    have hcurrent : sourceCurrent input = false := by
      simp_all [sourceCurrent, Met]
    by_cases hunknown : (!releaseKnown input.release ||
        !isSourceDigest input.release.sourceDigest) = true
    · exact ⟨_, .head _, by simp [blockReasons, buildReasons, hunknown]⟩
    · exact ⟨.buildMismatch, by simp [naming],
        by simp [blockReasons, buildReasons, hunknown, reasonIf, hcurrent]⟩
  | automationReady => exact absurd rfl hother
  | _ => exact ⟨_, .head _, by simp_all [blockReasons, settingReasons, reasonIf, Met]⟩

theorem names_of_automation (hreason : reason ∈ (automationDecision input.automationReadiness).2) :
    Names input .automationReady reason := by
  unfold automationDecision at hreason
  cases hautomation : input.automationReadiness with
  | none => exact .inl ⟨_, .head _, by simpa [hautomation] using hreason⟩
  | some automation =>
    simp only [hautomation] at hreason
    split_ifs at hreason
    · cases hreason
    · exact .inl ⟨_, .head _, by simpa using hreason⟩
    · exact .inr ⟨rfl, automation, hautomation, hreason⟩

theorem reason_of_unmet (hbuild : buildRuntimeCapabilities sha256 input = .ok caps)
    (hunmet : ¬Met sha256 input condition) :
    ∃ reason ∈ caps.reasons, Names input condition reason := by
  obtain ⟨checks, worker, hchecks, hread, _, hreasons⟩ := build_eq_ok hbuild
  rw [hreasons]
  simp only [reasonValues, List.mem_eraseDups, List.mem_append, List.mem_map]
  by_cases hother : condition = .automationReady
  · subst hother
    rw [← automation_met_iff, automationDecision_agrees] at hunmet
    obtain ⟨reason, hreason⟩ := List.exists_mem_of_ne_nil _ hunmet
    exact ⟨reason, .inr hreason, names_of_automation hreason⟩
  · obtain ⟨block, hnamed, hblock⟩ := named_of_unmet hchecks hread hunmet hother
    exact ⟨block.value, .inl ⟨block, hblock, rfl⟩, .inl ⟨block, hnamed, rfl⟩⟩

variable (sha256) in
/-- The decision and its reasons never contradict each other. -/
structure CapabilityLaws : Prop where
  returns : ∀ input, (∃ caps, buildRuntimeCapabilities sha256 input = .ok caps) ↔ Converts input
  decided : ∀ input caps, buildRuntimeCapabilities sha256 input = .ok caps →
    (caps.allowed = true ↔ caps.reasons = [])
  conditions : ∀ input caps, buildRuntimeCapabilities sha256 input = .ok caps →
    caps.allowed = true → ∀ condition, Met sha256 input condition
  flipped : ∀ before after first second condition,
    buildRuntimeCapabilities sha256 before = .ok first →
    buildRuntimeCapabilities sha256 after = .ok second →
    Met sha256 before condition → ¬Met sha256 after condition →
    (first.allowed = false → second.allowed = false) ∧
      (first.allowed = true →
        ∃ reason ∈ second.reasons, reason ∉ first.reasons ∧ Names after condition reason)

/-- The laws hold of all settings and reports. -/
theorem capabilityLaws (sha256 : String → String) : CapabilityLaws sha256 := by
  have hdecided : ∀ input caps, buildRuntimeCapabilities sha256 input = .ok caps →
      (caps.allowed = true ↔ caps.reasons = []) := by
    intro input caps hbuild
    obtain ⟨checks, worker, _, _, hallowed, hreasons⟩ := build_eq_ok hbuild
    rw [hallowed, hreasons, submissionAllowed_iff]
  have hmet : ∀ input caps, buildRuntimeCapabilities sha256 input = .ok caps →
      caps.allowed = true → ∀ condition, Met sha256 input condition := by
    intro input caps hbuild hallowed
    obtain ⟨checks, worker, hchecks, hread, hsame, _⟩ := build_eq_ok hbuild
    exact met_of_allowed hchecks hread (hsame.symm.trans hallowed)
  refine ⟨fun input => build_returns_iff, hdecided, hmet, ?_⟩
  intro before after first second condition hbefore hafter _ hunmet
  constructor
  · intro _
    rw [← Bool.not_eq_true]
    exact fun hallowed => hunmet (hmet after second hafter hallowed condition)
  · intro hallowed
    obtain ⟨reason, hreason, hnames⟩ := reason_of_unmet hafter hunmet
    have hnone := (hdecided before first hbefore).mp hallowed
    exact ⟨reason, hreason, by simp [hnone], hnames⟩

def sampleIdentity : RuntimeIdentity where
  buildSha := "abc1234"
  uiAssetDigest := "static"
  sourceDigest := "sha256:aaaaaaaaaaaaaaaaaaaaaaaaaaaaaaaaaaaaaaaaaaaaaaaaaaaaaaaaaaaaaaaa"
  protocolVersion := "submission-control.v1"
  bootId := "boot"
  startedAt := "2026-01-01T00:00:00+00:00"

/-- SHA-256 of the material of the sample identity. -/
def sampleSha256 (_ : String) : String :=
  "e268ee04943e17fbd073189f3e5da8d3daa365552ec6d8c695dbfa924ee37ec0"

/-- Every condition is met, as far as the build of the worker and the automation are concerned. -/
def sampleInput (build : PyValue) (automation : Entries) : CapabilityInput where
  settings :=
    { databaseUrl := "postgresql://db/jobs", secretKey := "0123456789abcdef0123456789abcdef"
      dryRun := false, draftOnly := false, portalFinalSubmitEnabled := true
      liveAutomationAcknowledged := true, discoveryEnabled := true, autoApply := false }
  readiness :=
    let detail : Entries := [("ok", .bool true), ("build_sha", build),
      ("protocol_version", .text sampleIdentity.protocolVersion),
      ("source_digest", .text sampleIdentity.sourceDigest),
      ("release_id", .text (sampleIdentity.releaseId sampleSha256))]
    [("checks", .mapping (readinessComponents.map fun component =>
      (component, .mapping detail (.ok "detail"))) (.ok "checks"))]
  identity := some sampleIdentity
  currentSourceDigest := none
  automationReadiness := some automation
  automationPolicyStatus := none
  processIdentity := sampleIdentity
  computedSourceDigest := sampleIdentity.sourceDigest

def automationReady : Entries := [("submission_ready", .bool true)]

/-- The automation is not ready, and gives the reason of another condition. -/
def automationStopped : Entries :=
  [("submission_ready", .bool false), ("stages", .mapping [("submission", .mapping
    [("reason_codes", .sequence [.text "DRY_RUN_ENABLED"] (.ok "codes"))] (.ok "stage"))]
      (.ok "stages"))]

/-- A long number as build raises, a blank one is taken, and a foreign reason is shown. -/
theorem report_contradicts :
    (buildRuntimeCapabilities sampleSha256
      (sampleInput (.int (10 ^ maxStrDigits)) automationReady)).toOption.isNone = true ∧
    (buildRuntimeCapabilities sampleSha256
      (sampleInput (.text " abc1234") automationReady)).toOption.map RuntimeCapabilities.allowed =
        some true ∧
    (buildRuntimeCapabilities sampleSha256
      (sampleInput (.text "abc1234") automationStopped)).toOption.map
        RuntimeCapabilities.reasons = some ["DRY_RUN_ENABLED"] := by
  decide +kernel

end JobApplyAgent.Runtime
