import JobApplyAgent.Library.Json
import JobApplyAgent.Library.Slots
import JobApplyAgent.Library.Transition
import JobApplyAgent.Match.CvRouting

/-!
# Artifact snapshots

The routing file, the qualification and the CVs of a signed policy are copied into a staging
directory, which becomes the snapshot of the policy by one rename.  Calls run side by side and
end anywhere; the files that they copy may change at any time.
-/

namespace JobApplyAgent.Artifacts

open Domain Library Store
open Forms (forM_eq_ok isSha256Digest require require_eq_ok)
open Match (CVDefinition)

abbrev Bytes := List UInt8

/-- The regular files of a private directory, by their relative paths. -/
abbrev Files := String → Option Bytes

structure RoutingFile where
  cvs : List CVDefinition
  /-- `routing_config_digest`, over all that the file says. -/
  digest : String
  idsUnique : (cvs.map CVDefinition.id).Nodup

structure FitQualificationV1 where
  routingConfigDigest : String
  cvManifestDigest : String
  qualified : Bool
  /-- `qualification_digest`, over all that the file says. -/
  qualificationDigest : String

/-- Digests, JSON, and the two files that are parsed. -/
structure ArtifactFormats where
  sha256 : Bytes → String
  /-- Compact, with sorted names and without escapes. -/
  dumps : Json ℚ → Bytes
  loads : Bytes → Option (Json ℚ)
  /-- `str` of a value that is no string. -/
  str : Json ℚ → String
  loadRoutingConfig : Bytes → Option RoutingFile
  loadFitQualification : Bytes → Option FitQualificationV1
  /-- Whether the text of a PDF can be extracted. -/
  extracts : Bytes → Bool

def schemaVersion : String := "automation-artifact-snapshot.v1"

def maxManifestBytes : ℕ := 128 * 1024

def routingPath : String := "routing.yaml"

def qualificationPath : String := "fit-qualification.json"

def manifestPath : String := "manifest.json"

/-- `f"cvs/{index:03d}.pdf"`. -/
def cvPath (index : ℕ) : String :=
  let digits := Nat.toDigits 10 index
  "cvs/" ++ String.ofList (List.replicate (3 - digits.length) '0' ++ digits) ++ ".pdf"

/-- A configured CV in a snapshot. -/
structure CvEntry where
  cvId : String
  pdfSha256 : String
  path : String
  deriving DecidableEq

structure AutomationArtifactSnapshot where
  snapshotId : String
  cvEntries : List CvEntry
  deriving DecidableEq

/-- A CV as it was read: its source, and the digest of its bytes. -/
structure SelectedCVArtifact where
  cvId : String
  resolvedPath : String
  pdfSha256 : String
  deriving DecidableEq

def orError {α : Type} (value : Option α) (message : String) : Except String α :=
  match value with
  | some found => .ok found
  | none => .error message

theorem orError_eq_ok {α : Type} {value : Option α} {message : String} {result : α} :
    orError value message = .ok result ↔ value = some result := by
  cases value <;> simp [orError]

section Formats

variable (formats : ArtifactFormats) (policy : AutoSubmitPolicyV1)

def stableDigest (payload : Json ℚ) : String :=
  formats.sha256 (formats.dumps payload)

def policyArtifactSnapshotId : String :=
  stableDigest formats (.object [("cv_manifest_digest", .text policy.cvManifestDigest),
    ("fit_qualification_digest", .text policy.fitQualificationDigest),
    ("routing_config_digest", .text policy.routingConfigDigest),
    ("schema_version", .text schemaVersion)])

/-- `cv_manifest_digest` and `_manifest_cv_digest`, over the ids and the digests of CVs. -/
def cvManifestDigest (cvs : List (String × String)) : String :=
  stableDigest formats (Json.list (fun cv => .object [("cv_id", .text cv.1),
    ("pdf_sha256", .text cv.2)]) cvs)

def qualificationMatches (qualification : FitQualificationV1) : Bool :=
  qualification.qualified && qualification.routingConfigDigest == policy.routingConfigDigest
    && qualification.cvManifestDigest == policy.cvManifestDigest

/-! ## Loading a snapshot -/

def readManifest (files : Files) : Except String (Json ℚ) := do
  let text ← orError ((files manifestPath).filter fun text =>
    decide (text.length ≤ maxManifestBytes)) "artifact snapshot manifest is unavailable"
  let payload ← orError (formats.loads text) "artifact snapshot manifest is invalid"
  match payload with
  | .object members => return .object members
  | _ => .error "artifact snapshot manifest is invalid"

/-- `str(raw[name])`. -/
def spelledMember (raw : Json ℚ) (name : String) : Option String :=
  (raw.member? name).map fun
    | .text value => value
    | other => formats.str other

def manifestEntry (files : Files) (entries : List CvEntry) (raw : Json ℚ) :
    Except String (List CvEntry) := do
  require (raw.hasOnly ["cv_id", "pdf_sha256", "path"]) "artifact snapshot CV entry is invalid"
  match spelledMember formats raw "cv_id", spelledMember formats raw "pdf_sha256",
      spelledMember formats raw "path" with
  | some cvId, some pdfSha256, some path =>
    require (cvId != "" && decide (cvId.length ≤ 200)
      && !(entries.map CvEntry.cvId).contains cvId && isSha256Digest pdfSha256
      && path == cvPath entries.length) "artifact snapshot CV entry is invalid"
    require (files path).isSome "artifact snapshot CV is unavailable"
    return entries ++ [⟨cvId, pdfSha256, path⟩]
  | _, _, _ => .error "artifact snapshot CV entry is invalid"

def manifestEntries (payload : Json ℚ) (files : Files) : Except String (List CvEntry) :=
  match payload.member? "cvs" with
  | some (.array (first :: rest)) => do
      let entries ← (first :: rest).foldlM (manifestEntry formats files) []
      require (decide (entries.Pairwise fun one other => one.cvId ≤ other.cvId))
        "artifact snapshot CV entries are not canonical"
      return entries
  | _ => .error "artifact snapshot CV manifest is invalid"

def bindingHolds (payload : Json ℚ) : Bool :=
  [("schema_version", schemaVersion), ("snapshot_id", policyArtifactSnapshotId formats policy),
    ("routing_config_digest", policy.routingConfigDigest),
    ("cv_manifest_digest", policy.cvManifestDigest),
    ("fit_qualification_digest", policy.fitQualificationDigest),
    ("routing_config_path", routingPath), ("fit_qualification_path", qualificationPath)].all
      fun bound => (payload.member? bound.1).bind Json.text? == some bound.2

/-- One entry of the loop over the CVs. -/
def checkEntry (files : Files) (verifyAllCvBytes : Bool) (selected : Option (String × String))
    (entry : CvEntry) : Except String Unit := do
  let isSelected := selected.any fun cv => entry.cvId == cv.1
  require (!(verifyAllCvBytes || isSelected)
    || (files entry.path).any fun bytes => formats.sha256 bytes == entry.pdfSha256)
    "CV snapshot bytes changed"
  require (!isSelected || selected.any fun cv => cv.2 == entry.pdfSha256)
    "selected CV snapshot binding changed"

def loadSnapshot (found : Option Files) (verifyAllCvBytes : Bool)
    (selected : Option (String × String)) : Except String AutomationArtifactSnapshot := do
  let files ← orError found "artifact snapshot is unavailable"
  let payload ← readManifest formats files
  require (bindingHolds formats policy payload) "artifact snapshot binding changed"
  let routing ← orError (files routingPath) "artifact snapshot metadata is unavailable"
  let text ← orError (files qualificationPath) "artifact snapshot metadata is unavailable"
  let config ← orError (formats.loadRoutingConfig routing) "artifact snapshot metadata is invalid"
  let qualification ← orError (formats.loadFitQualification text)
    "artifact snapshot metadata is invalid"
  require (config.digest == policy.routingConfigDigest) "routing snapshot digest changed"
  let entries ← manifestEntries formats payload files
  let ids := entries.map CvEntry.cvId
  require (cvManifestDigest formats (entries.map fun entry => (entry.cvId, entry.pdfSha256))
    == policy.cvManifestDigest) "CV snapshot manifest digest changed"
  require (config.cvs.all (fun cv => ids.contains cv.id)
    && ids.all (config.cvs.map CVDefinition.id).contains)
    "routing and CV snapshot identities differ"
  require (qualification.qualificationDigest == policy.fitQualificationDigest
    && qualificationMatches policy qualification) "fit qualification snapshot changed"
  entries.forM (checkEntry formats files verifyAllCvBytes selected)
  require (selected.all fun cv => ids.contains cv.1)
    "selected CV is absent from policy snapshot"
  return ⟨policyArtifactSnapshotId formats policy, entries⟩

/-! ## One CV of a snapshot -/

def AutomationArtifactSnapshot.selectedPath (snapshot : AutomationArtifactSnapshot) (cvId : String)
    (expectedSha256 : String) : Except String String :=
  match snapshot.cvEntries.find? fun entry => entry.cvId == cvId with
  | some entry =>
    if expectedSha256 = entry.pdfSha256 then .ok entry.path
    else .error "selected CV snapshot hash changed"
  | none => .error "selected CV is absent from policy snapshot"

def resolveSelectedCvArtifactSnapshot (found : Option Files) (cvId expectedSha256 : String) :
    Except String (SelectedCVArtifact × String) := do
  let snapshot ← loadSnapshot formats policy found false (some (cvId, expectedSha256))
  let path ← snapshot.selectedPath cvId expectedSha256
  let bytes ← orError ((found.bind fun files => files path).filter formats.extracts)
    "selected CV snapshot is unavailable"
  require (formats.sha256 bytes == expectedSha256) "selected CV snapshot is unavailable"
  return (⟨cvId, path, formats.sha256 bytes⟩, snapshot.snapshotId)

/-! ## The sources -/

/-- What one call reads of the live files.  A CV is `none` where it is missing, lies outside of
the CV directory, cannot be extracted, or changes while it is read. -/
structure LiveFiles where
  routing : Bytes
  qualification : Bytes
  cv : String → Option Bytes

def loadConfiguredCvArtifacts (live : LiveFiles) (config : RoutingFile) :
    List SelectedCVArtifact :=
  config.cvs.filterMap fun cv => (live.cv cv.file).map fun bytes =>
    ⟨cv.id, cv.file, formats.sha256 bytes⟩

/-- The CVs of a policy, in the order of their ids, where the live files are those of it. -/
def policyArtifacts (live : LiveFiles) : Except String (List SelectedCVArtifact) := do
  let config ← orError (formats.loadRoutingConfig live.routing) "policy artifacts are unavailable"
  let artifacts := (loadConfiguredCvArtifacts formats live config).insertionSort
    fun one other => one.cvId ≤ other.cvId
  require (artifacts.all fun artifact => decide (1 ≤ artifact.cvId.length
    ∧ artifact.cvId.length ≤ 200)) "policy artifacts are unavailable"
  let qualification ← orError (formats.loadFitQualification live.qualification)
    "policy artifacts are unavailable"
  require (config.digest == policy.routingConfigDigest
    && config.cvs.all (fun cv => (artifacts.map SelectedCVArtifact.cvId).contains cv.id)
    && cvManifestDigest formats (artifacts.map fun artifact =>
      (artifact.cvId, artifact.pdfSha256)) == policy.cvManifestDigest
    && qualification.qualificationDigest == policy.fitQualificationDigest
    && qualificationMatches policy qualification)
    "policy artifacts changed before snapshotting"
  return artifacts

/-- `_copy_exact`, as it is called: where to, and the digest that is expected. -/
structure Copy where
  destination : String
  expectedSha256 : Option String
  deriving DecidableEq

def copies (artifacts : List SelectedCVArtifact) : List Copy :=
  ⟨routingPath, none⟩ :: ⟨qualificationPath, none⟩ ::
    artifacts.mapIdx fun index artifact => ⟨cvPath index, some artifact.pdfSha256⟩

def manifest (artifacts : List SelectedCVArtifact) : Bytes :=
  formats.dumps (.object [
    ("cv_manifest_digest", .text policy.cvManifestDigest),
    ("cvs", .array (artifacts.mapIdx fun index artifact => .object [
      ("cv_id", .text artifact.cvId), ("path", .text (cvPath index)),
      ("pdf_sha256", .text artifact.pdfSha256)])),
    ("fit_qualification_digest", .text policy.fitQualificationDigest),
    ("fit_qualification_path", .text qualificationPath),
    ("routing_config_digest", .text policy.routingConfigDigest),
    ("routing_config_path", .text routingPath),
    ("schema_version", .text schemaVersion),
    ("snapshot_id", .text (policyArtifactSnapshotId formats policy))]) ++ [10]

end Formats

/-! ## Whole snapshots -/

section Whole

variable (formats : ArtifactFormats) (policy : AutoSubmitPolicyV1)

/-- The files are whole, and their digests are those of the policy. -/
structure Exact (files : Files) (snapshot : AutomationArtifactSnapshot) : Prop where
  snapshotId : snapshot.snapshotId = policyArtifactSnapshotId formats policy
  routing : ∃ bytes config, files routingPath = some bytes ∧
    formats.loadRoutingConfig bytes = some config ∧
      config.digest = policy.routingConfigDigest ∧
        ∀ id, id ∈ config.cvs.map CVDefinition.id ↔ id ∈ snapshot.cvEntries.map CvEntry.cvId
  qualification : ∃ bytes qualification, files qualificationPath = some bytes ∧
    formats.loadFitQualification bytes = some qualification ∧
      qualification.qualificationDigest = policy.fitQualificationDigest ∧
        qualificationMatches policy qualification = true
  idsOnce : (snapshot.cvEntries.map CvEntry.cvId).Nodup
  paths : snapshot.cvEntries.map CvEntry.path =
    (List.range snapshot.cvEntries.length).map cvPath
  manifest : cvManifestDigest formats (snapshot.cvEntries.map fun entry =>
    (entry.cvId, entry.pdfSha256)) = policy.cvManifestDigest
  cvs : ∀ entry ∈ snapshot.cvEntries,
    ∃ bytes, files entry.path = some bytes ∧ formats.sha256 bytes = entry.pdfSha256

/-- What the loop over the entries of a manifest keeps. -/
structure Listed (files : Files) (entries : List CvEntry) : Prop where
  idsOnce : (entries.map CvEntry.cvId).Nodup
  paths : entries.map CvEntry.path = (List.range entries.length).map cvPath
  present : ∀ entry ∈ entries, (files entry.path).isSome = true

variable {formats policy} {found : Option Files}

theorem Listed.entry (hlisted : Listed files entries)
    (hentry : manifestEntry formats files entries raw = .ok more) :
    Listed files more := by
  simp only [manifestEntry] at hentry
  obtain ⟨_, _, hentry⟩ := bind_eq_ok.mp hentry
  split at hentry
  · next cvId pdfSha256 path _ _ _ =>
    obtain ⟨_, hvalid, hentry⟩ := bind_eq_ok.mp hentry
    obtain ⟨_, hpresent, hmore⟩ := bind_eq_ok.mp hentry
    simp only [require_eq_ok, Bool.and_eq_true, beq_iff_eq, Bool.not_eq_true'] at hvalid
    obtain ⟨⟨⟨_, hfresh⟩, _⟩, hpath⟩ := hvalid
    cases hmore
    exact {
      idsOnce := by
        rw [List.map_append, List.map_singleton]
        refine List.nodup_append'.mpr ⟨hlisted.idsOnce, List.nodup_singleton _, ?_⟩
        rw [List.disjoint_singleton]
        simpa using hfresh
      paths := by
        rw [List.map_append, hlisted.paths, List.length_append, List.length_singleton,
          List.range_succ, List.map_append, List.map_singleton, hpath]
        rfl
      present := by
        intro entry hmem
        rcases List.mem_append.mp hmem with hold | hnew
        · exact hlisted.present entry hold
        · rw [List.mem_singleton.mp hnew]
          exact require_eq_ok.mp hpresent }
  · cases hentry

theorem listed_of_manifestEntries (hentries : manifestEntries formats payload files = .ok entries) :
    Listed files entries := by
  simp only [manifestEntries] at hentries
  split at hentries
  · obtain ⟨listed, hfold, hentries⟩ := bind_eq_ok.mp hentries
    obtain ⟨_, _, hsame⟩ := bind_eq_ok.mp hentries
    cases hsame
    have hnone : Listed files [] := ⟨List.nodup_nil, rfl, fun _ hmem => nomatch hmem⟩
    exact foldlM_invariant (Listed files) (fun _ _ _ hlisted hentry => hlisted.entry hentry) _
      hnone hfold
  · cases hentries

/-- What a load has checked that comes back. -/
theorem load_eq_ok
    (hload : loadSnapshot formats policy found verifyAllCvBytes selected = .ok snapshot) :
    ∃ files, found = some files ∧
      (∀ entry ∈ snapshot.cvEntries,
        checkEntry formats files verifyAllCvBytes selected entry = .ok ()) ∧
      ((∀ entry ∈ snapshot.cvEntries,
        ∃ bytes, files entry.path = some bytes ∧ formats.sha256 bytes = entry.pdfSha256) →
          Exact formats policy files snapshot) ∧
      cvManifestDigest formats (snapshot.cvEntries.map fun entry =>
        (entry.cvId, entry.pdfSha256)) = policy.cvManifestDigest := by
  simp only [loadSnapshot] at hload
  obtain ⟨files, hfiles, hload⟩ := bind_eq_ok.mp hload
  obtain ⟨_, _, hload⟩ := bind_eq_ok.mp hload
  obtain ⟨_, _, hload⟩ := bind_eq_ok.mp hload
  obtain ⟨routing, hrouting, hload⟩ := bind_eq_ok.mp hload
  obtain ⟨text, htext, hload⟩ := bind_eq_ok.mp hload
  obtain ⟨config, hconfig, hload⟩ := bind_eq_ok.mp hload
  obtain ⟨qualification, hqualification, hload⟩ := bind_eq_ok.mp hload
  obtain ⟨_, hdigest, hload⟩ := bind_eq_ok.mp hload
  obtain ⟨entries, hentries, hload⟩ := bind_eq_ok.mp hload
  obtain ⟨_, hmanifest, hload⟩ := bind_eq_ok.mp hload
  obtain ⟨_, hids, hload⟩ := bind_eq_ok.mp hload
  obtain ⟨_, hmatches, hload⟩ := bind_eq_ok.mp hload
  obtain ⟨_, hchecked, hload⟩ := bind_eq_ok.mp hload
  obtain ⟨_, _, hsnapshot⟩ := bind_eq_ok.mp hload
  cases hsnapshot
  rw [orError_eq_ok] at hfiles hrouting htext hconfig hqualification
  simp only [require_eq_ok, Bool.and_eq_true, beq_iff_eq, List.all_eq_true,
    List.contains_iff_mem] at hdigest hmanifest hids hmatches
  have hlisted := listed_of_manifestEntries hentries
  refine ⟨files, hfiles, fun entry hmem => forM_eq_ok hchecked hmem, fun hbytes => ?_, hmanifest⟩
  exact {
    snapshotId := rfl
    routing := by
      refine ⟨routing, config, hrouting, hconfig, hdigest, fun id => ⟨fun hid => ?_, hids.2 id⟩⟩
      obtain ⟨cv, hcv, rfl⟩ := List.mem_map.mp hid
      exact hids.1 cv hcv
    qualification := ⟨text, qualification, htext, hqualification, hmatches⟩
    idsOnce := hlisted.idsOnce
    paths := hlisted.paths
    manifest := hmanifest
    cvs := hbytes }

theorem bytes_of_checkEntry {entry : CvEntry}
    (hchecked : checkEntry formats files verifyAllCvBytes selected entry = .ok ())
    (hverified : verifyAllCvBytes = true ∨ ∃ cv ∈ selected, entry.cvId = cv.1) :
    ∃ bytes, files entry.path = some bytes ∧ formats.sha256 bytes = entry.pdfSha256 := by
  simp only [checkEntry] at hchecked
  obtain ⟨_, hbytes, _⟩ := bind_eq_ok.mp hchecked
  rw [require_eq_ok, Bool.or_eq_true, Bool.not_eq_true', Bool.or_eq_false_iff,
    Option.any_eq_true] at hbytes
  rcases hbytes with ⟨hnone, hnot⟩ | ⟨bytes, hfound, hdigest⟩
  · rcases hverified with hall | ⟨cv, hcv, hid⟩
    · rw [hall] at hnone
      cases hnone
    · rw [Option.mem_def.mp hcv] at hnot
      simp [hid] at hnot
  · exact ⟨bytes, hfound, beq_iff_eq.mp hdigest⟩

/-- A directory that is verified is whole. -/
theorem exact_of_load (hload : loadSnapshot formats policy found true none = .ok snapshot) :
    ∃ files, found = some files ∧ Exact formats policy files snapshot := by
  obtain ⟨files, hfiles, hchecked, hexact, _⟩ := load_eq_ok hload
  exact ⟨files, hfiles, hexact fun entry hmem => bytes_of_checkEntry (hchecked entry hmem)
    (.inl rfl)⟩

/-- A CV that is resolved is the named CV of the policy, with the bytes that are expected. -/
theorem resolve_eq_ok
    (hresolved : resolveSelectedCvArtifactSnapshot formats policy found cvId expectedSha256 =
      .ok (selected, snapshotId)) :
    ∃ files cvs bytes, found = some files ∧
      cvManifestDigest formats cvs = policy.cvManifestDigest ∧ (cvId, expectedSha256) ∈ cvs ∧
        files selected.resolvedPath = some bytes ∧ formats.sha256 bytes = expectedSha256 ∧
          selected.cvId = cvId ∧ selected.pdfSha256 = expectedSha256 := by
  simp only [resolveSelectedCvArtifactSnapshot] at hresolved
  obtain ⟨snapshot, hload, hresolved⟩ := bind_eq_ok.mp hresolved
  obtain ⟨path, hpath, hresolved⟩ := bind_eq_ok.mp hresolved
  obtain ⟨bytes, hbytes, hresolved⟩ := bind_eq_ok.mp hresolved
  obtain ⟨_, hdigest, hselected⟩ := bind_eq_ok.mp hresolved
  cases hselected
  obtain ⟨files, rfl, _, _, hmanifest⟩ := load_eq_ok hload
  rw [orError_eq_ok] at hbytes
  rw [require_eq_ok, beq_iff_eq] at hdigest
  rw [AutomationArtifactSnapshot.selectedPath] at hpath
  split at hpath
  · next entry hentry =>
    split at hpath
    · next hsame =>
      have hid : entry.cvId = cvId := by
        simpa using List.find?_some hentry
      refine ⟨files, _, bytes, rfl, hmanifest, List.mem_map.mpr
        ⟨entry, List.mem_of_find?_eq_some hentry, ?_⟩,
        (Option.filter_eq_some_iff.mp hbytes).1, hdigest, rfl, hdigest⟩
      rw [hid, hsame]
    · cases hpath
  · cases hpath

end Whole

end JobApplyAgent.Artifacts
