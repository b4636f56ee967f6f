import JobApplyAgent.Library.SequencedLog
import JobApplyAgent.Library.Slots
import JobApplyAgent.Library.Transition
import JobApplyAgent.Profile.Merge

/-!
# Writing the profile

Several processes save profiles and ingest CVs over one profile file, one resume file and
one table of profile versions.  The advisory lock belongs to a transaction: a rollback
releases it while the call that was rolled back goes on.
-/

namespace JobApplyAgent.Profile

open Library

abbrev Bytes := List UInt8

/-- A versioned snapshot.  The code does not keep which upload a snapshot comes from. -/
structure UserProfileVersion where
  profileYaml : String
  version : ℕ
  rebuilt : Option UserProfile

/-- An uploaded CV that was validated, with the profile rebuilt from it. -/
structure Upload where
  pdf : Bytes
  rebuilt : UserProfile

inductive ProfilePhase
  /-- Taking the lock of the whole upload. -/
  | fencing
  | merging
  | replacing
  | backingUp
  | locking (attempt : ℕ)
  | writing (attempt : ℕ)
  | numbering (attempt : ℕ)
  | committing (attempt version : ℕ)
  /-- The version is committed; the cached profile is swapped. -/
  | publishing
  /-- The version was not written, and the file is restored. -/
  | relocking
  | restoring
  /-- The upload failed, and its saved bytes are written back. -/
  | undoingResume
  | undoingProfile
  deriving DecidableEq

/-- A call of `save_profile`, or of `ingest_cv_from_temp` if there is an upload. -/
structure ProfileCall where
  upload : Option Upload
  text : String
  previousText : Option String
  oldPdf : Option Bytes
  oldYaml : Option String
  phase : ProfilePhase

/-- The files, the table in the order of its commits, the lock and the calls.  The code
keeps neither the original file nor the bytes of the last successful upload. -/
structure ProfileStore where
  profileFile : Option String
  resumeFile : Option Bytes
  versions : List UserProfileVersion
  lock : Option ℕ
  calls : Slots ProfileCall
  original : Option String
  accepted : Option Bytes

inductive ProfileAction
  | save (profile : UserProfile)
  | ingest (upload : Upload)
  | proceed (place : ℕ)
  /-- The insert raises an IntegrityError. -/
  | collide (place : ℕ)
  /-- Any other exception, before the step has taken effect. -/
  | fail (place : ℕ)
  /-- The commit takes effect and raises. -/
  | commitAndRaise (place : ℕ)

def versionWriteRetries : ℕ :=
  3

def latestVersion (versions : List UserProfileVersion) : Option UserProfileVersion :=
  latestBy UserProfileVersion.version versions

/-- The text that the profile file should have. -/
def authoritativeText (original : Option String) (versions : List UserProfileVersion) :
    Option String :=
  match latestVersion versions with
  | some row => some row.profileYaml
  | none => original

/-- How profiles are written to YAML and read from it; reading may fail. -/
structure ProfileCodec where
  dump : UserProfile → String
  load : String → Option UserProfile

variable (codec : ProfileCodec) (resumePath : String)

/-! ## Steps of a call -/

def ProfileStore.withCall (store : ProfileStore) (place : ℕ) (call : Option ProfileCall) :
    ProfileStore :=
  { store with calls := store.calls.put place call }

/-- The transaction of the call ends. -/
def ProfileStore.unlock (store : ProfileStore) (place : ℕ) : ProfileStore :=
  { store with lock := if store.lock = some place then none else store.lock }

/-- The call ends, and its session with it. -/
def ProfileStore.close (store : ProfileStore) (place : ℕ) : ProfileStore :=
  (store.unlock place).withCall place none

/-- Wait for the lock, unless the session has it. -/
def takeLock (store : ProfileStore) (place : ℕ) (call : ProfileCall) : Option ProfileStore :=
  if store.lock = none ∨ store.lock = some place then
    some ({ store with lock := some place }.withCall place (some call))
  else none

/-- The profile that is there, if it can be read. -/
def loadExisting (file : Option String) : Option (Option UserProfile) :=
  match file with
  | none => some none
  | some text => (codec.load text).map some

/-- Merge the rebuilt profile into the one that is there, and save both files' bytes. -/
def mergeUpload (store : ProfileStore) (place : ℕ) (call : ProfileCall) (upload : Upload) :
    ProfileStore :=
  match loadExisting codec store.profileFile with
  | none => store.close place
  | some existing =>
    store.withCall place (some { call with
      text := codec.dump (ingestedProfile resumePath upload.rebuilt existing)
      oldPdf := store.resumeFile
      oldYaml := store.profileFile
      phase := .replacing })

/-- An exception leaves `save_profile`: it ends the call, or the upload is undone. -/
def raiseFromSave (store : ProfileStore) (place : ℕ) (call : ProfileCall) : ProfileStore :=
  match call.upload with
  | none => store.close place
  | some _ => store.withCall place (some { call with phase := .undoingResume })

/-- An IntegrityError: the transaction is rolled back, and the write is tried again. -/
def retryVersion (store : ProfileStore) (place : ℕ) (call : ProfileCall) (attempt : ℕ) :
    ProfileStore :=
  (store.unlock place).withCall place (some { call with
    phase := if versionWriteRetries ≤ attempt + 1 then .relocking else .locking (attempt + 1) })

def ProfileStore.insertVersion (store : ProfileStore) (call : ProfileCall) (version : ℕ) :
    ProfileStore :=
  { store with versions := store.versions ++
      [{ profileYaml := call.text
         version := version
         rebuilt := call.upload.map Upload.rebuilt }] }

/-- The upload of the call is the last successful one. -/
def ProfileStore.accept (store : ProfileStore) (call : ProfileCall) : ProfileStore :=
  { store with accepted :=
      match call.upload with
      | some upload => some upload.pdf
      | none => store.accepted }

/-- Insert and commit the version, unless another row has its number. -/
def commitVersion (store : ProfileStore) (place : ℕ) (call : ProfileCall)
    (attempt version : ℕ) : ProfileStore :=
  if store.versions.any fun row => row.version = version then
    retryVersion store place call attempt
  else
    (((store.insertVersion call version).accept call).unlock place).withCall place
      (some { call with phase := .publishing })

/-- Restore the latest committed snapshot, or the text that was there. -/
def restoreAuthoritativeFile (store : ProfileStore) (place : ℕ) (call : ProfileCall) :
    ProfileStore :=
  raiseFromSave
    ({ store with profileFile := authoritativeText call.previousText store.versions }.unlock
      place) place call

def proceedCall (store : ProfileStore) (place : ℕ) (call : ProfileCall) : Option ProfileStore :=
  match call.phase, call.upload with
  | .fencing, _ => takeLock store place { call with phase := .merging }
  | .merging, some upload => some (mergeUpload codec resumePath store place call upload)
  | .replacing, some upload =>
    some ({ store with resumeFile := some upload.pdf }.withCall place
      (some { call with phase := .backingUp }))
  | .backingUp, _ =>
    some (store.withCall place (some { call with
      previousText := store.profileFile
      phase := .locking 0 }))
  | .locking attempt, _ => takeLock store place { call with phase := .writing attempt }
  | .writing attempt, _ =>
    some ({ store with profileFile := some call.text }.withCall place
      (some { call with phase := .numbering attempt }))
  | .numbering attempt, _ =>
    let latest := ((latestVersion store.versions).map UserProfileVersion.version).getD 0
    some (store.withCall place (some { call with phase := .committing attempt (latest + 1) }))
  | .committing attempt version, _ => some (commitVersion store place call attempt version)
  | .publishing, _ => some (store.close place)
  | .relocking, _ => takeLock store place { call with phase := .restoring }
  | .restoring, _ => some (restoreAuthoritativeFile store place call)
  | .undoingResume, some _ =>
    some ({ store with resumeFile := call.oldPdf }.withCall place
      (some { call with phase := .undoingProfile }))
  | .undoingProfile, some _ =>
    some ({ store with profileFile := call.oldYaml }.close place)
  | .merging, none | .replacing, none | .undoingResume, none | .undoingProfile, none => none

/-- What an exception does to a call in a phase. -/
def failCall (store : ProfileStore) (place : ℕ) (call : ProfileCall) : ProfileStore :=
  match call.phase with
  | .fencing | .merging | .replacing | .undoingResume | .undoingProfile => store.close place
  | .backingUp | .publishing => raiseFromSave store place call
  | .locking _ | .writing _ | .numbering _ | .committing _ _ =>
    (store.unlock place).withCall place (some { call with phase := .relocking })
  | .relocking | .restoring => raiseFromSave (store.unlock place) place call

def collideCall (store : ProfileStore) (place : ℕ) (call : ProfileCall) : Option ProfileStore :=
  match call.phase with
  | .committing attempt _ => some (retryVersion store place call attempt)
  | _ => none

/-- The version is committed, and the call takes it for a failure. -/
def commitAndRaise (store : ProfileStore) (place : ℕ) (call : ProfileCall) :
    Option ProfileStore :=
  match call.phase with
  | .committing _ version =>
    if store.versions.any fun row => row.version = version then none
    else
      some (((store.insertVersion call version).unlock place).withCall place
        (some { call with phase := .relocking }))
  | _ => none

def startCall (upload : Option Upload) (text : String) (phase : ProfilePhase) : ProfileCall where
  upload := upload
  text := text
  previousText := none
  oldPdf := none
  oldYaml := none
  phase := phase

def performProfile (store : ProfileStore) : ProfileAction → Option ProfileStore
  | .save profile =>
    some { store with
      calls := store.calls.add (startCall none (codec.dump profile) .backingUp) }
  | .ingest upload =>
    some { store with calls := store.calls.add (startCall (some upload) "" .fencing) }
  | .proceed place =>
    (store.calls.entry place).bind fun call => proceedCall codec resumePath store place call
  | .collide place => (store.calls.entry place).bind fun call => collideCall store place call
  | .fail place => (store.calls.entry place).map fun call => failCall store place call
  | .commitAndRaise place =>
    (store.calls.entry place).bind fun call => commitAndRaise store place call

def profileStart (profile : Option String) (resume : Option Bytes) : ProfileStore where
  profileFile := profile
  resumeFile := resume
  versions := []
  lock := none
  calls := []
  original := profile
  accepted := resume

def profileSystem : TransitionSystem ProfileStore ProfileAction where
  initial := fun store => ∃ profile resume, store = profileStart profile resume
  step := fun before action after => performProfile codec resumePath before action = some after

/-- Every interleaving, with every failure. -/
def anyProfileStep (_ : ProfileStore) (_ : ProfileAction) : Prop :=
  True

/-! ## Agreement -/

/-- The text is that of a profile that keeps what the current text has. -/
def CarriedOver (current : Option String) (text : String) : Prop :=
  ∀ previous, current = some previous → ∃ existing later,
    codec.load previous = some existing ∧ text = codec.dump later ∧
      KeepsOperatorState existing later

/-- The files and the table agree, and no upload has lost what was there before it. -/
structure InAgreement (store : ProfileStore) : Prop where
  increasing : (store.versions.map UserProfileVersion.version).Pairwise (· < ·)
  profile : store.profileFile = authoritativeText store.original store.versions
  resume : store.resumeFile = store.accepted
  carried : ∀ earlier row later, store.versions = earlier ++ row :: later →
    row.rebuilt.isSome = true →
      CarriedOver codec (authoritativeText store.original earlier) row.profileYaml

/-- No call is in progress. -/
def ProfileStore.Quiet (store : ProfileStore) : Prop :=
  ∀ place, store.calls.entry place = none

/-! ## Calls that were rolled back -/

/-- The call waits for the lock. -/
def ProfilePhase.takesLock : ProfilePhase → Bool
  | .fencing | .locking _ | .relocking => true
  | _ => false

/-- The call has lost the lock in a rollback and goes on. -/
def ProfilePhase.rolledBack : ProfilePhase → Bool
  | .locking attempt => attempt != 0
  | .relocking | .undoingResume | .undoingProfile => true
  | _ => false

/-- An exception now leaves a file as it should not be: a restore or an undo has not been
made, or the upload is undone though its version is committed. -/
def ProfileCall.mustNotFail (call : ProfileCall) : Bool :=
  match call.upload, call.phase with
  | none, .relocking | none, .restoring => true
  | some _, .publishing | some _, .undoingResume | some _, .undoingProfile => true
  | _, _ => false

/-- No call takes the lock from an upload that was rolled back and goes on, and no upload
takes it from a save that was; a save reads the original file or there is a version; no
restore or undo fails, and no upload fails once its version is committed. -/
def Undisturbed (store : ProfileStore) : ProfileAction → Prop
  | .proceed place => ∀ call, store.calls.entry place = some call →
      (call.phase.takesLock = true → ∀ other found, other ≠ place →
        store.calls.entry other = some found → found.phase.rolledBack = true →
          call.upload = none ∧ found.upload = none) ∧
      (call.upload = none → call.phase = .backingUp →
        store.versions ≠ [] ∨ store.profileFile = store.original)
  | .fail place => ∀ call, store.calls.entry place = some call → call.mustNotFail = false
  | .commitAndRaise place => ∀ call, store.calls.entry place = some call → call.upload = none
  | _ => True

end JobApplyAgent.Profile
