import JobApplyAgent.Portal.Lease

/-!
# One lease holder

Whoever holds the lease has its process id in the lock file, and whoever writes it has
created the file.  In every run with orderly takeovers, what a takeover unlinks was
abandoned, so that there is never a second holder.
-/

namespace JobApplyAgent.Portal

open Domain Library TransitionSystem

variable {before : LeaseState}
  {phase : LeasePhase}

/-- The lease that created the file neither holds it nor writes it. -/
def Abandoned (state : LeaseState) (file : LockFile) : Prop :=
  ∀ lease, state.leases.entry file.creator = some lease →
    lease.held = false ∧ lease.phase ≠ .writing file.id

/-- What a phase says about the lock file, if it is still the file that was seen. -/
def PhaseOk (state : LeaseState) (index : ℕ) : LeasePhase → Prop
  | .idle | .creating _ | .inspecting _ => True
  | .reading _ seen => seen < state.nextFile
  | .probing _ seen ownerPid => seen < state.nextFile ∧
      ∀ file, state.lockFile = some file → file.id = seen →
        file.ownerPid = some ownerPid ∨ Abandoned state file
  | .unlinking _ seen => seen < state.nextFile ∧
      ∀ file, state.lockFile = some file → file.id = seen → Abandoned state file
  | .writing fileId => ∃ file, state.lockFile = some file ∧ file.creator = index ∧
      file.id = fileId ∧ file.ownerPid = none

structure LeaseOk (state : LeaseState) : Prop where
  file : ∀ file, state.lockFile = some file → file.id < state.nextFile
  running : ∀ index lease, state.leases.entry index = some lease →
    lease.pid ∈ state.pids ∧ 0 < lease.pid
  pids : ∀ pid ∈ state.pids, 0 < pid
  holder : ∀ index lease, state.leases.entry index = some lease → lease.held = true →
    ∃ file, state.lockFile = some file ∧ file.creator = index ∧
      file.ownerPid = some lease.pid
  phase : ∀ index lease, state.leases.entry index = some lease →
    PhaseOk state index lease.phase

variable {file : LockFile}

/-- The lease neither holds the lock nor writes the file. -/
def Unclaimed (lease : PortalSessionLease) : Prop :=
  lease.held = false ∧ ∀ fileId, lease.phase ≠ .writing fileId

/-- A lease whose own file is gone or abandoned has no part in it. -/
theorem LeaseOk.unclaimed (hok : LeaseOk state) (hlease : state.leases.entry index = some lease)
    (hgone : ∀ file, state.lockFile = some file → file.creator = index → Abandoned state file) :
    Unclaimed lease := by
  refine ⟨Bool.eq_false_iff.mpr fun hheld => ?_, fun fileId hwriting => ?_⟩
  · obtain ⟨file, hfile, rfl, _⟩ := hok.holder index lease hlease hheld
    exact Bool.false_ne_true ((hgone file hfile rfl lease hlease).1.symm.trans hheld)
  · have hwriter := hok.phase index lease hlease
    rw [hwriting] at hwriter
    obtain ⟨file, hfile, rfl, rfl, _⟩ := hwriter
    exact (hgone file hfile rfl lease hlease).2 hwriting

theorem LeaseOk.unclaimed_of_none (hok : LeaseOk state) (hfile : state.lockFile = none)
    (hlease : state.leases.entry index = some lease) : Unclaimed lease :=
  hok.unclaimed hlease fun _ hfound => nomatch hfile.symm.trans hfound

theorem LeaseOk.unclaimed_of_abandoned (hok : LeaseOk state) (hfile : state.lockFile = some file)
    (hgone : Abandoned state file) (hlease : state.leases.entry index = some lease) :
    Unclaimed lease :=
  hok.unclaimed hlease fun _ hfound _ => Option.some.inj (hfile.symm.trans hfound) ▸ hgone

theorem LeaseOk.unclaimed_of_ne (hok : LeaseOk state) (hfile : state.lockFile = some file)
    (hne : index ≠ file.creator) (hlease : state.leases.entry index = some lease) :
    Unclaimed lease := by
  refine hok.unclaimed hlease fun found hfound hcreator => ?_
  cases hfile.symm.trans hfound
  exact absurd hcreator.symm hne

/-- A file that nobody leaves or takes stays abandoned. -/
theorem Abandoned.mono (habandoned : Abandoned before file)
    (hleases : ∀ lease, after.leases.entry file.creator = some lease →
      (∃ old, before.leases.entry file.creator = some old ∧
        (lease.held = true → old.held = true) ∧
          (lease.phase = old.phase ∨ lease.phase ≠ .writing file.id)) ∨
      lease.held = false ∧ lease.phase ≠ .writing file.id) : Abandoned after file := by
  intro lease hlease
  rcases hleases lease hlease with ⟨old, hold, hheld, hphase⟩ | hidle
  · obtain ⟨hfalse, hwriting⟩ := habandoned old hold
    refine ⟨Bool.eq_false_iff.mpr fun htrue => ?_, ?_⟩
    · rw [hheld htrue] at hfalse
      cases hfalse
    rcases hphase with hsame | hother
    · rw [hsame]
      exact hwriting
    · exact hother
  · exact hidle

/-- What a phase says is kept if the lock file is a new one, or one that was seen before and has
kept its owner. -/
theorem PhaseOk.step (hphase : PhaseOk before index phase)
    (hwriting : ∀ fileId, phase ≠ .writing fileId) (hnext : before.nextFile ≤ after.nextFile)
    (hseen : ∀ file, after.lockFile = some file → file.id < before.nextFile →
      ∃ old, before.lockFile = some old ∧ old.id = file.id ∧
        (∀ pid, old.ownerPid = some pid → file.ownerPid = some pid) ∧
        (Abandoned before old → Abandoned after file)) : PhaseOk after index phase := by
  cases phase with
  | idle | creating | inspecting => trivial
  | reading attempt seen => exact Nat.lt_of_lt_of_le hphase hnext
  | probing attempt seen ownerPid =>
    refine ⟨hphase.1.trans_le hnext, ?_⟩
    rintro file hfile rfl
    obtain ⟨old, hold, hid, howner, hgone⟩ := hseen file hfile hphase.1
    exact (hphase.2 old hold hid).imp (howner ownerPid) hgone
  | unlinking attempt seen =>
    refine ⟨hphase.1.trans_le hnext, ?_⟩
    rintro file hfile rfl
    obtain ⟨old, hold, hid, _, hgone⟩ := hseen file hfile hphase.1
    exact hgone (hphase.2 old hold hid)
  | writing fileId => exact absurd rfl (hwriting fileId)

/-- What a phase says is kept when the lock file stays and what was abandoned stays so. -/
theorem PhaseOk.mono (hphase : PhaseOk before index phase)
    (hfile : after.lockFile = before.lockFile) (hnext : after.nextFile = before.nextFile)
    (habandoned : ∀ file, Abandoned before file → Abandoned after file) :
    PhaseOk after index phase := by
  by_cases hwriting : ∃ fileId, phase = .writing fileId
  · obtain ⟨fileId, rfl⟩ := hwriting
    unfold PhaseOk at *
    rw [hfile]
    exact hphase
  · refine hphase.step (not_exists.mp hwriting) hnext.ge fun file hfound _ => ?_
    exact ⟨file, hfile ▸ hfound, rfl, fun _ howner => howner, habandoned file⟩

/-! ## Steps -/

section

variable (hok : LeaseOk before)
include hok

/-- One lease moves, and the others keep what holds of them. -/
theorem LeaseOk.put (hlease : before.leases.entry index = some lease)
    (hpid : moved.pid = lease.pid) (hpids : after.pids = before.pids)
    (hleases : after.leases = before.leases.put index (some moved))
    (hfile : ∀ file, after.lockFile = some file → file.id < after.nextFile)
    (hholder : moved.held = true →
      ∃ file, after.lockFile = some file ∧ file.creator = index ∧ file.ownerPid = some moved.pid)
    (hphase : PhaseOk after index moved.phase)
    (hothers : ∀ place found, place ≠ index → before.leases.entry place = some found →
      (found.held = true → ∃ file, after.lockFile = some file ∧ file.creator = place ∧
        file.ownerPid = some found.pid) ∧ PhaseOk after place found.phase) : LeaseOk after := by
  refine ⟨hfile, ?_, hpids ▸ hok.pids, ?_, ?_⟩
  all_goals
    intro place found hplace
    rw [hleases] at hplace
    rcases Slots.entry_put hplace with ⟨rfl, ⟨⟩⟩ | ⟨hne, hold⟩
  · rw [hpids, hpid]
    exact hok.running place lease hlease
  · rw [hpids]
    exact hok.running place found hold
  · exact hholder
  · exact (hothers place found hne hold).1
  · exact hphase
  · exact (hothers place found hne hold).2

/-- A lease that goes on, and neither writes nor gets to hold the lease. -/
theorem LeaseOk.change (hlease : before.leases.entry index = some lease)
    (hpid : moved.pid = lease.pid)
    (hheld : moved.held = true → lease.held = true)
    (hwriting : ∀ fileId, moved.phase ≠ .writing fileId)
    (hphase : PhaseOk before index moved.phase) :
    LeaseOk { before with leases := before.leases.put index (some moved) } := by
  have habandoned : ∀ file, Abandoned before file →
      Abandoned { before with leases := before.leases.put index (some moved) } file := by
    intro file hgone
    refine hgone.mono fun found hplace => .inl ?_
    rcases Slots.entry_put hplace with ⟨hsame, ⟨⟩⟩ | ⟨_, hold⟩
    · exact ⟨lease, hsame ▸ hlease, hheld, .inr (hwriting file.id)⟩
    · exact ⟨found, hold, id, .inl rfl⟩
  refine hok.put hlease hpid rfl rfl hok.file (fun hholds => ?_) (hphase.mono rfl rfl habandoned)
    fun place found _ hold => ⟨hok.holder place found hold,
      (hok.phase place found hold).mono rfl rfl habandoned⟩
  rw [hpid]
  exact hok.holder index lease hlease (hheld hholds)

theorem LeaseOk.setPhase (hlease : before.leases.entry index = some lease)
    (hwriting : ∀ fileId, phase ≠ .writing fileId) (hphase : PhaseOk before index phase) :
    LeaseOk (setPhase before index lease phase) :=
  hok.change hlease rfl id hwriting hphase

theorem LeaseOk.busy (hlease : before.leases.entry index = some lease) :
    LeaseOk (busy before index lease) :=
  hok.setPhase hlease nofun trivial

theorem LeaseOk.removeFile
    (hfree : ∀ index lease, before.leases.entry index = some lease → Unclaimed lease) :
    LeaseOk { before with lockFile := none } := by
  refine ⟨nofun, hok.running, hok.pids, ?_, fun place found hplace => ?_⟩
  · intro place found hplace hheld
    cases (hfree place found hplace).1.symm.trans hheld
  · exact (hok.phase place found hplace).step (hfree place found hplace).2 le_rfl nofun

/-- A takeover unlinks a file that was abandoned. -/
theorem LeaseOk.unlink (hlease : before.leases.entry index = some lease)
    (hfile : before.lockFile = some file) (habandoned : Abandoned before file)
    (hwriting : ∀ fileId, phase ≠ .writing fileId) (hphase : PhaseOk before index phase) :
    LeaseOk { Portal.setPhase before index lease phase with lockFile := none } := by
  refine (hok.setPhase hlease hwriting hphase).removeFile fun place found hplace => ?_
  rcases Slots.entry_put hplace with ⟨rfl, ⟨⟩⟩ | ⟨_, hold⟩
  · exact ⟨(hok.unclaimed_of_abandoned hfile habandoned hlease).1, hwriting⟩
  · exact hok.unclaimed_of_abandoned hfile habandoned hold

theorem LeaseOk.createFile (hlease : before.leases.entry index = some lease)
    (hfile : before.lockFile = none) :
    LeaseOk (createFile before index lease) := by
  refine hok.put hlease ?_ rfl rfl ?_ ?_ ⟨_, rfl, rfl, rfl, rfl⟩ fun place found _ hold => ?_
  · rfl
  · rintro file ⟨⟩
    exact Nat.lt_succ_self _
  · intro hheld
    cases (hok.unclaimed_of_none hfile hlease).1.symm.trans hheld
  · obtain ⟨hheld, hwriting⟩ := hok.unclaimed_of_none hfile hold
    refine ⟨fun hholds => (nomatch hheld.symm.trans hholds), ?_⟩
    -- the new file is none of those that were seen
    refine (hok.phase place found hold).step hwriting (Nat.le_succ _) ?_
    rintro file ⟨⟩ hseen
    exact absurd hseen (lt_irrefl _)

end

section

variable (hok : LeaseOk before)
include hok

theorem LeaseOk.writer (hlease : before.leases.entry index = some lease)
    (hwriting : lease.phase = .writing fileId) :
    ∃ file, before.lockFile = some file ∧ file.creator = index ∧ file.id = fileId ∧
      file.ownerPid = none := by
  have hwriter := hok.phase index lease hlease
  rw [hwriting] at hwriter
  exact hwriter

theorem LeaseOk.write (hlease : before.leases.entry index = some lease)
    (hwriting : lease.phase = .writing fileId) :
    LeaseOk { before with
      lockFile := before.lockFile.map (writeOwner before fileId lease.pid)
      leases := before.leases.put index (some { lease with phase := .idle, held := true }) } := by
  obtain ⟨file, hfile, rfl, rfl, hempty⟩ := hok.writer hlease hwriting
  have hwritten : before.lockFile.map (writeOwner before file.id lease.pid) =
      some { file with modifiedAt := before.clock, ownerPid := some lease.pid } := by
    rw [hfile]
    exact congrArg some (if_pos rfl)
  rw [hwritten]
  refine hok.put hlease ?_ rfl rfl ?_ (fun _ => ⟨_, rfl, rfl, rfl⟩) trivial
    fun place found hne hold => ?_
  · rfl
  · rintro found ⟨⟩
    exact hok.file file hfile
  · obtain ⟨hheld, hother⟩ := hok.unclaimed_of_ne hfile hne hold
    refine ⟨fun hholds => (nomatch hheld.symm.trans hholds), ?_⟩
    refine (hok.phase place found hold).step hother le_rfl ?_
    rintro owned ⟨⟩ _
    refine ⟨file, hfile, rfl, fun pid howner => (nomatch hempty.symm.trans howner), fun hgone => ?_⟩
    exact absurd hwriting (hgone lease hlease).2

theorem LeaseOk.release (hlease : before.leases.entry index = some lease)
    (hheld : lease.held = true) (hidle : lease.phase = .idle) :
    LeaseOk { before with
      lockFile := none
      leases := before.leases.put index (some { lease with held := false }) } := by
  obtain ⟨file, hfile, hcreator, _⟩ := hok.holder index lease hlease hheld
  have hwriting : ∀ fileId, lease.phase ≠ .writing fileId := by
    rw [hidle]
    exact nofun
  have hgone : LeaseOk { before with
      leases := before.leases.put index (some { lease with held := false }) } := by
    refine hok.change hlease rfl nofun hwriting ?_
    rw [hidle]
    trivial
  refine hgone.removeFile fun place found hplace => ?_
  rcases Slots.entry_put hplace with ⟨rfl, ⟨⟩⟩ | ⟨hne, hold⟩
  · exact ⟨rfl, hwriting⟩
  · exact hok.unclaimed_of_ne hfile (hcreator ▸ hne) hold

theorem LeaseOk.of_leases (hfile : after.lockFile = before.lockFile)
    (hnext : after.nextFile = before.nextFile) (hpids : ∀ pid ∈ after.pids, 0 < pid)
    (hleases : ∀ index lease, after.leases.entry index = some lease →
      lease.pid ∈ after.pids ∧
        (before.leases.entry index = some lease ∨ lease.held = false ∧ lease.phase = .idle)) :
    LeaseOk after := by
  have habandoned : ∀ file, Abandoned before file → Abandoned after file := by
    intro file hgone
    refine hgone.mono fun lease hlease => ?_
    rcases (hleases _ lease hlease).2 with hold | ⟨hheld, hphase⟩
    · exact .inl ⟨lease, hold, id, .inl rfl⟩
    · refine .inr ⟨hheld, ?_⟩
      rw [hphase]
      exact nofun
  refine ⟨?_, ?_, hpids, ?_, ?_⟩
  · rw [hfile, hnext]
    exact hok.file
  · intro index lease hlease
    have hrunning := (hleases index lease hlease).1
    exact ⟨hrunning, hpids lease.pid hrunning⟩
  · intro index lease hlease hheld
    rw [hfile]
    rcases (hleases index lease hlease).2 with hold | ⟨hfree, _⟩
    · exact hok.holder index lease hold hheld
    · rw [hfree] at hheld
      cases hheld
  · intro index lease hlease
    rcases (hleases index lease hlease).2 with hold | ⟨_, hphase⟩
    · exact (hok.phase index lease hold).mono hfile hnext habandoned
    · rw [hphase]
      trivial

/-- The owner of a file that was seen is not running, so the file was abandoned. -/
theorem LeaseOk.abandoned_of_dead (hfile : before.lockFile = some file)
    (howner : file.ownerPid = some ownerPid)
    (hdead : processIsRunning before ownerPid = false) : Abandoned before file := by
  intro lease hlease
  refine ⟨Bool.eq_false_iff.mpr fun hheld => ?_, fun hwriting => ?_⟩
  · obtain ⟨owned, howned, _, hpid⟩ := hok.holder _ lease hlease hheld
    rw [hfile] at howned
    cases howned
    rw [howner] at hpid
    obtain rfl := Option.some.inj hpid
    obtain ⟨hmem, hpositive⟩ := hok.running _ lease hlease
    unfold processIsRunning at hdead
    rw [decide_eq_true hpositive, decide_eq_true hmem] at hdead
    cases hdead
  · obtain ⟨owned, howned, _, _, hempty⟩ := hok.writer hlease hwriting
    cases hfile.symm.trans howned
    cases howner.symm.trans hempty

theorem LeaseOk.abandoned_of_empty (hfile : before.lockFile = some file)
    (hempty : file.ownerPid = none)
    (hwriter : ∀ creator, before.leases.entry file.creator = some creator →
      creator.phase ≠ .writing file.id) : Abandoned before file := by
  intro lease hlease
  refine ⟨Bool.eq_false_iff.mpr fun hheld => ?_, hwriter lease hlease⟩
  obtain ⟨owned, howned, _, hpid⟩ := hok.holder _ lease hlease hheld
  rw [hfile] at howned
  cases howned
  rw [hempty] at hpid
  cases hpid

theorem LeaseOk.step (horderly : OrderlyTakeover before (.step index))
    (hlease : before.leases.entry index = some lease)
    (hstep : acquireStep before index lease = some after) : LeaseOk after := by
  have hphase := hok.phase index lease hlease
  unfold acquireStep at hstep
  split at hstep
  · cases hstep
  · cases hstep
    split
    · next hfile => exact hok.createFile hlease hfile
    · exact hok.setPhase hlease nofun trivial
  · cases hstep
    split
    · exact hok.busy hlease
    next file hfile =>
    split
    · exact hok.busy hlease
    · exact hok.setPhase hlease nofun (hok.file file hfile)
  · next attempt seen hreading =>
    cases hstep
    rw [hreading] at hphase
    refine hok.setPhase hlease nofun ⟨hphase, fun file hfile hseen => ?_⟩
    rw [hfile]
    cases howner : file.ownerPid with
    | some ownerPid =>
      left
      simp only [Option.bind_some, howner, Option.getD_some]
    | none =>
      right
      have hread := (horderly lease file hlease hfile).1 attempt (hseen ▸ hreading) howner
      exact hok.abandoned_of_empty hfile howner hread
  · next attempt seen ownerPid hprobing =>
    cases hstep
    rw [hprobing] at hphase
    split
    · exact hok.busy hlease
    next hdead =>
    refine hok.setPhase hlease nofun ⟨hphase.1, fun file hfile hseen => ?_⟩
    rcases hphase.2 file hfile hseen with howner | hgone
    · exact hok.abandoned_of_dead hfile howner (Bool.eq_false_iff.mpr hdead)
    · exact hgone
  · next attempt seen hunlinking =>
    cases hstep
    rw [hunlinking] at hphase
    split
    · exact hok.busy hlease
    next file hfile =>
    have hseen := (horderly lease file hlease hfile).2 attempt seen hunlinking
    have hgone := hphase.2 file hfile hseen
    split
    · exact hok.unlink hlease hfile hgone nofun trivial
    · exact hok.unlink hlease hfile hgone nofun trivial
  · next fileId hwriting =>
    cases hstep
    exact hok.write hlease hwriting

theorem leaseOk_step (horderly : OrderlyTakeover before action)
    (hstep : performLease before action = some after) : LeaseOk after := by
  cases action with
  | spawn pid =>
    obtain ⟨⟨hpositive, _⟩, hspawned⟩ := Option.ite_none_right_eq_some.mp hstep
    cases hspawned
    refine hok.of_leases rfl rfl ?_ fun index lease hlease => ?_
    · intro other hother
      rcases List.mem_cons.mp hother with rfl | hold
      · exact hpositive
      · exact hok.pids other hold
    · exact ⟨List.mem_cons_of_mem _ (hok.running index lease hlease).1, .inl hlease⟩
  | die pid =>
    cases hstep
    refine hok.of_leases rfl rfl ?_ fun index lease hlease => ?_
    · intro other hother
      exact hok.pids other (List.mem_of_mem_filter hother)
    · obtain ⟨hold, hother⟩ := Slots.entry_map_filter hlease
      exact ⟨List.mem_filter.mpr ⟨(hok.running index lease hold).1, hother⟩, .inl hold⟩
  | tick elapsed =>
    cases hstep
    exact hok.of_leases rfl rfl hok.pids fun index lease hlease =>
      ⟨(hok.running index lease hlease).1, .inl hlease⟩
  | make pid staleMinutes =>
    obtain ⟨hpid, hmade⟩ := Option.ite_none_right_eq_some.mp hstep
    cases hmade
    refine hok.of_leases rfl rfl hok.pids fun index lease hlease => ?_
    rcases Slots.entry_add hlease with ⟨hold, _⟩ | ⟨_, rfl⟩
    · exact ⟨(hok.running index lease hold).1, .inl hold⟩
    · exact ⟨hpid, .inr ⟨rfl, rfl⟩⟩
  | acquire index =>
    obtain ⟨lease, hlease, hacquire⟩ := Option.bind_eq_some_iff.mp hstep
    obtain ⟨_, hcreating⟩ := Option.ite_none_right_eq_some.mp hacquire
    cases hcreating
    exact hok.setPhase hlease nofun trivial
  | step index =>
    obtain ⟨lease, hlease, hacquire⟩ := Option.bind_eq_some_iff.mp hstep
    exact hok.step horderly hlease hacquire
  | writeFails index =>
    obtain ⟨lease, hlease, hfails⟩ := Option.bind_eq_some_iff.mp hstep
    split at hfails <;> cases hfails
    exact hok.busy hlease
  | release index =>
    obtain ⟨lease, hlease, hrelease⟩ := Option.bind_eq_some_iff.mp hstep
    obtain ⟨⟨hidle, hheld⟩, hreleased⟩ := Option.ite_none_right_eq_some.mp hrelease
    cases hreleased
    exact hok.release hlease hheld hidle

end

theorem leaseOk_invariant : leaseSystem.Invariant OrderlyTakeover LeaseOk where
  init := by
    rintro state rfl
    exact ⟨nofun, nofun, nofun, nofun, nofun⟩
  step := fun _ _ _ hok horderly hstep => leaseOk_step hok horderly hstep

/-- In every run with orderly takeovers there is at most one holder, and a release removes no
lock file but its own. -/
theorem lease_exclusive (hreach : leaseSystem.Reachable OrderlyTakeover state) :
    OneHolder state := by
  have hok := leaseOk_invariant.reachable hreach
  refine ⟨?_, ?_⟩
  · intro index other lease found hlease hfound hheld hholds
    obtain ⟨file, hfile, hcreator, _⟩ := hok.holder other found hfound hholds
    by_contra hne
    cases (hok.unclaimed_of_ne hfile (hcreator ▸ hne) hlease).1.symm.trans hheld
  · intro index lease file hlease hheld hfile
    obtain ⟨owned, howned, hcreator, _⟩ := hok.holder index lease hlease hheld
    cases hfile.symm.trans howned
    exact hcreator

def orderlyCheck (state : LeaseState) : LeaseAction → Bool
  | .step index => (state.leases.entry index).all fun lease =>
    state.lockFile.all fun file =>
      match lease.phase with
      | .reading _ seen => file.id != seen || file.ownerPid.isSome ||
          (state.leases.entry file.creator).all fun creator => creator.phase != .writing file.id
      | .unlinking _ seen => file.id == seen
      | _ => true
  | _ => true

theorem orderlyTakeover_of_check (state : LeaseState) (action : LeaseAction)
    (hcheck : orderlyCheck state action = true) : OrderlyTakeover state action := by
  cases action with
  | step index =>
    intro lease file hlease hfile
    simp only [orderlyCheck, hlease, hfile, Option.all_some] at hcheck
    refine ⟨fun attempt hreading hempty creator hcreator => ?_, fun attempt seen hunlinking => ?_⟩
    · rw [hreading] at hcheck
      simp only [bne_self_eq_false, hempty, Option.isSome_none, Bool.or_self, Bool.false_or,
        hcreator, Option.all_some, bne_iff_ne] at hcheck
      exact hcheck
    · rw [hunlinking] at hcheck
      exact beq_iff_eq.mp hcheck
  | _ => trivial

def leaseRun (check : LeaseState → LeaseAction → Bool) (actions : List LeaseAction) : LeaseState :=
  runEnd performLease check noLeases actions

theorem leaseRun_reachable {guard : LeaseState → LeaseAction → Prop}
    (hcheck : ∀ state action, check state action = true → guard state action)
    (actions : List LeaseAction) : leaseSystem.Reachable guard (leaseRun check actions) := by
  apply runEnd_reachable
  · exact fun _ _ _ hstep => hstep
  · exact hcheck
  · rfl

def staleLock : List LeaseAction :=
  [.spawn 1, .make 1 30, .acquire 0, .step 0, .step 0, .die 1, .tick (1801 * 1000000)]

/-- One process takes the stale lease over. -/
def takenOver : LeaseState :=
  leaseRun orderlyCheck
    (staleLock ++ [.spawn 2, .make 2 30, .acquire 1, .step 1, .step 1, .step 1, .step 1, .step 1,
      .step 1, .step 1])

theorem lease_exclusive_sample :
    (∃ lease, takenOver.leases.entry 1 = some lease ∧ lease.held = true) ∧ OneHolder takenOver :=
  ⟨⟨⟨2, 1800, true, .idle⟩, by decide, rfl⟩,
    lease_exclusive (leaseRun_reachable orderlyTakeover_of_check _)⟩

/-- Two processes judge the stale file; the second one unlinks the fresh file of the first. -/
def twiceTakenOver : LeaseState :=
  leaseRun (fun _ _ => true)
    (staleLock ++ [.spawn 2, .spawn 3, .make 2 30, .make 3 30, .acquire 1, .acquire 2,
      .step 1, .step 1, .step 1, .step 1, .step 2, .step 2, .step 2, .step 2,
      .step 1, .step 1, .step 1, .step 2, .step 2, .step 2])

/-- A process creates the file and writes its id only when another one has taken it over. -/
def slowWriter : LeaseState :=
  leaseRun (fun _ _ => true)
    [.spawn 1, .spawn 2, .make 1 30, .make 2 30, .acquire 0, .step 0, .tick (1801 * 1000000),
      .acquire 1, .step 1, .step 1, .step 1, .step 1, .step 1, .step 1, .step 0, .step 1]

/-- Two live holders, of which the first one would remove the file of the second. -/
theorem lease_shared :
    (leaseSystem.Reachable anyLeaseStep twiceTakenOver ∧ ¬OneHolder twiceTakenOver) ∧
    (leaseSystem.Reachable anyLeaseStep slowWriter ∧ ¬OneHolder slowWriter) := by
  refine ⟨⟨leaseRun_reachable (fun _ _ _ => trivial) _, fun hone => ?_⟩,
    leaseRun_reachable (fun _ _ _ => trivial) _, fun hone => ?_⟩
  · have hsame := hone.alone 1 2 ⟨2, 1800, true, .idle⟩ ⟨3, 1800, true, .idle⟩ (by decide)
      (by decide) rfl rfl
    cases hsame
  · have hsame := hone.alone 0 1 ⟨1, 1800, true, .idle⟩ ⟨2, 1800, true, .idle⟩ (by decide)
      (by decide) rfl rfl
    cases hsame

end JobApplyAgent.Portal
