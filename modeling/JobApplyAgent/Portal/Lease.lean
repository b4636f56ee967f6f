import JobApplyAgent.Domain.Contracts
import JobApplyAgent.Library.Slots
import JobApplyAgent.Library.Transition

/-!
# Portal session leases

The lock file of one browser profile, and the lease objects that acquire and release it.
Every file-system call is a step of its own, and a process may die between any two.  A lease
that finds the file looks at its age, reads its owner, asks whether the owner is running,
and unlinks it.
-/

namespace JobApplyAgent.Portal

open Domain Library

/-- The lock file, with the lease that created it. -/
structure LockFile where
  id : ℕ
  creator : ℕ
  modifiedAt : Timestamp
  /-- The process id in the file; none while the file is empty. -/
  ownerPid : Option ℕ

/-- Where the call of a lease stands; a lease that has found a file remembers which one. -/
inductive LeasePhase
  | idle
  | creating (attempt : ℕ)
  | inspecting (attempt : ℕ)
  | reading (attempt seen : ℕ)
  | probing (attempt seen ownerPid : ℕ)
  | unlinking (attempt seen : ℕ)
  | writing (fileId : ℕ)
  deriving DecidableEq

structure PortalSessionLease where
  pid : ℕ
  staleSeconds : ℕ
  held : Bool
  phase : LeasePhase
  deriving DecidableEq

structure LeaseState where
  clock : Timestamp
  /-- The running processes. -/
  pids : List ℕ
  lockFile : Option LockFile
  nextFile : ℕ
  leases : Slots PortalSessionLease

inductive LeaseAction
  | spawn (pid : ℕ)
  | die (pid : ℕ)
  | tick (elapsed : ℕ)
  /-- A process makes a lease object for the profile. -/
  | make (pid staleMinutes : ℕ)
  | acquire (index : ℕ)
  /-- The next file-system call of an acquisition. -/
  | step (index : ℕ)
  /-- The process id cannot be written. -/
  | writeFails (index : ℕ)
  | release (index : ℕ)

def newLease (pid staleMinutes : ℕ) : PortalSessionLease where
  pid := pid
  staleSeconds := max 1 staleMinutes * 60
  held := false
  phase := .idle

variable (state : LeaseState) (index : ℕ) (lease : PortalSessionLease)

def processIsRunning (pid : ℕ) : Bool :=
  decide (0 < pid) && decide (pid ∈ state.pids)

def setPhase (phase : LeasePhase) : LeaseState :=
  { state with leases := state.leases.put index (some { lease with phase := phase }) }

/-- The acquisition fails with `PORTAL_SESSION_BUSY`. -/
def busy : LeaseState :=
  setPhase state index lease .idle

def createFile : LeaseState :=
  { setPhase state index lease (.writing state.nextFile) with
    lockFile := some ⟨state.nextFile, index, state.clock, none⟩
    nextFile := state.nextFile + 1 }

/-- A write goes to the file that was opened, also when it is no longer the lock file. -/
def writeOwner (fileId pid : ℕ) (file : LockFile) : LockFile :=
  if file.id = fileId then { file with modifiedAt := state.clock, ownerPid := some pid } else file

def acquireStep : Option LeaseState :=
  match lease.phase with
  | .idle => none
  | .creating attempt =>
    some (match state.lockFile with
      | none => createFile state index lease
      | some _ => setPhase state index lease (.inspecting attempt))
  | .inspecting attempt =>
    some (match state.lockFile with
      | none => busy state index lease
      | some file =>
        if state.clock - file.modifiedAt ≤ lease.staleSeconds * second then busy state index lease
        else setPhase state index lease (.reading attempt file.id))
  | .reading attempt seen =>
    some (setPhase state index lease
      (.probing attempt seen ((state.lockFile.bind LockFile.ownerPid).getD 0)))
  | .probing attempt seen ownerPid =>
    some (if processIsRunning state ownerPid then busy state index lease
      else setPhase state index lease (.unlinking attempt seen))
  | .unlinking attempt _ =>
    some (match state.lockFile with
      | none => busy state index lease
      | some _ =>
        { (if attempt + 1 < 2 then setPhase state index lease (.creating (attempt + 1))
          else busy state index lease) with lockFile := none })
  | .writing fileId =>
    some { state with
      lockFile := state.lockFile.map (writeOwner state fileId lease.pid)
      leases := state.leases.put index (some { lease with phase := .idle, held := true }) }

/-- The lease object of a process that has died is gone. -/
def survives (pid : ℕ) (lease : Option PortalSessionLease) : Option PortalSessionLease :=
  lease.filter fun lease => lease.pid ≠ pid

def performLease (state : LeaseState) : LeaseAction → Option LeaseState
  | .spawn pid =>
    if 0 < pid ∧ pid ∉ state.pids then some { state with pids := pid :: state.pids } else none
  | .die pid =>
    some { state with
      pids := state.pids.filter (· ≠ pid)
      leases := state.leases.map (survives pid) }
  | .tick elapsed => some { state with clock := state.clock + elapsed }
  | .make pid staleMinutes =>
    if pid ∈ state.pids then
      some { state with leases := state.leases.add (newLease pid staleMinutes) }
    else none
  | .acquire index =>
    (state.leases.entry index).bind fun lease =>
      if lease.phase = .idle then some (setPhase state index lease (.creating 0)) else none
  | .step index => (state.leases.entry index).bind (acquireStep state index)
  | .writeFails index =>
    (state.leases.entry index).bind fun lease =>
      match lease.phase with
      | .writing _ => some (busy state index lease)
      | _ => none
  | .release index =>
    (state.leases.entry index).bind fun lease =>
      if lease.phase = .idle ∧ lease.held then
        some { state with
          lockFile := none
          leases := state.leases.put index (some { lease with held := false }) }
      else none

def noLeases : LeaseState where
  clock := 0
  pids := []
  lockFile := none
  nextFile := 0
  leases := []

def leaseSystem : TransitionSystem LeaseState LeaseAction where
  initial := fun state => state = noLeases
  step before action after := performLease before action = some after

def anyLeaseStep (_ : LeaseState) (_ : LeaseAction) : Prop :=
  True

/-- The lease is the only holder, and the lock file, if there is one, is its own. -/
structure OneHolder (state : LeaseState) : Prop where
  alone : ∀ (index other : ℕ) (lease found : PortalSessionLease),
    state.leases.entry index = some lease → state.leases.entry other = some found →
    lease.held = true → found.held = true → index = other
  own : ∀ (index : ℕ) (lease : PortalSessionLease) (file : LockFile),
    state.leases.entry index = some lease → lease.held = true → state.lockFile = some file →
    file.creator = index

/-- An empty lock file that was judged stale is read only once its creator no longer writes
it, and what is unlinked in a takeover is the file that was judged. -/
def OrderlyTakeover (state : LeaseState) : LeaseAction → Prop
  | .step index => ∀ lease file, state.leases.entry index = some lease →
      state.lockFile = some file →
      (∀ attempt, lease.phase = .reading attempt file.id → file.ownerPid = none →
        ∀ creator, state.leases.entry file.creator = some creator →
          creator.phase ≠ .writing file.id) ∧
      ∀ attempt seen, lease.phase = .unlinking attempt seen → file.id = seen
  | _ => True

end JobApplyAgent.Portal
