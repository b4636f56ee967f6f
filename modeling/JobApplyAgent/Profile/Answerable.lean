import JobApplyAgent.Profile.Writer

/-!
# What a call is answerable for

A call that has written a file and not yet settled it is answerable for what the file
holds: it commits its text, restores the latest snapshot or writes the saved bytes back.
-/

namespace JobApplyAgent.Profile

open Library TransitionSystem

variable {before store : ProfileStore}
  {call found : ProfileCall} {next : Option ProfileCall}

/-! ## The latest version -/

section Versions

variable {versions : List UserProfileVersion}
  {row : UserProfileVersion}

theorem authoritativeText_concat (original : Option String)
    (hlater : ∀ earlier ∈ versions, earlier.version < row.version) :
    authoritativeText original (versions ++ [row]) = some row.profileYaml := by
  have hlatest : latestVersion (versions ++ [row]) = some row := by
    unfold latestVersion
    rw [latestBy_concat]
    cases hfound : latestBy UserProfileVersion.version versions with
    | none => rfl
    | some latest => exact if_pos (hlater latest (latestBy_mem hfound)).le
  unfold authoritativeText
  rw [hlatest]

/-- The text that was there before is asked for only while there is no version. -/
theorem authoritativeText_previous (hprevious : versions ≠ [] ∨ previous = original) :
    authoritativeText previous versions = authoritativeText original versions := by
  rcases hprevious with hsome | rfl
  · unfold authoritativeText
    cases hlatest : latestVersion versions with
    | none => exact absurd (latestBy_eq_none_iff.mp hlatest) hsome
    | some latest => rfl
  · rfl

theorem lt_next_version (versions : List UserProfileVersion) :
    ∀ row ∈ versions, row.version <
      ((latestVersion versions).map UserProfileVersion.version).getD 0 + 1 := by
  intro row hrow
  cases hlatest : latestVersion versions with
  | none =>
    rw [latestBy_eq_none_iff.mp hlatest] at hrow
    cases hrow
  | some latest => exact Nat.lt_succ_of_le (number_le_latestBy hrow hlatest)

def Increasing (versions : List UserProfileVersion) : Prop :=
  (versions.map UserProfileVersion.version).Pairwise (· < ·)

theorem Increasing.concat (hincreasing : Increasing versions)
    (hlater : ∀ earlier ∈ versions, earlier.version < row.version) :
    Increasing (versions ++ [row]) := by
  unfold Increasing at *
  rw [List.map_append, List.pairwise_append]
  refine ⟨hincreasing, List.pairwise_singleton _ _, ?_⟩
  intro version hversion other hother
  obtain ⟨earlier, hearlier, rfl⟩ := List.mem_map.mp hversion
  rw [List.map_singleton, List.mem_singleton] at hother
  rw [hother]
  exact hlater earlier hearlier

variable (codec)

/-- Every snapshot of an upload keeps what the snapshot before it has. -/
def AllCarried (original : Option String) (versions : List UserProfileVersion) : Prop :=
  ∀ earlier row later, versions = earlier ++ row :: later → row.rebuilt.isSome = true →
    CarriedOver codec (authoritativeText original earlier) row.profileYaml

variable {codec}

theorem AllCarried.concat (hcarried : AllCarried codec original versions)
    (hrow : row.rebuilt.isSome = true →
      CarriedOver codec (authoritativeText original versions) row.profileYaml) :
    AllCarried codec original (versions ++ [row]) := by
  intro earlier found later hsplit hupload
  rcases List.eq_nil_or_concat later with rfl | ⟨rest, last, rfl⟩
  · obtain ⟨rfl, hsame⟩ := List.append_inj' hsplit rfl
    cases hsame
    exact hrow hupload
  · rw [List.concat_eq_append, ← List.cons_append, ← List.append_assoc] at hsplit
    obtain ⟨hold, _⟩ := List.append_inj' hsplit rfl
    exact hcarried earlier found rest hold hupload

end Versions

/-! ## What a call is answerable for -/

def ProfileCall.holdsLock (call : ProfileCall) : Bool :=
  match call.phase with
  | .merging | .replacing | .writing _ | .numbering _ | .committing _ _ | .restoring => true
  | .backingUp => call.upload.isSome
  | .locking attempt => call.upload.isSome && attempt == 0
  | _ => false

/-- No other call may touch the files: the call has the lock, or it is an upload that goes on
without it. -/
def ProfileCall.controls (call : ProfileCall) : Bool :=
  call.holdsLock || call.upload.isSome && call.phase.rolledBack

/-- The profile file may hold something that is not committed, and the call will settle it. -/
def ProfileCall.dirties (call : ProfileCall) : Bool :=
  match call.phase with
  | .writing _ | .numbering _ | .committing _ _ | .restoring => true
  | phase => phase.rolledBack

/-- The resume file holds the upload of the call. -/
def ProfileCall.carries (call : ProfileCall) : Bool :=
  match call.upload, call.phase with
  | some _, .backingUp | some _, .locking _ | some _, .writing _ | some _, .numbering _
  | some _, .committing _ _ | some _, .relocking | some _, .restoring
  | some _, .undoingResume => true
  | _, _ => false

/-- The upload has merged what was there and has not yet been committed. -/
def ProfilePhase.merged : ProfilePhase → Bool
  | .fencing | .merging | .publishing => false
  | _ => true

/-- The text of the call has been written under the lock that it has. -/
def ProfilePhase.wrote : ProfilePhase → Bool
  | .numbering _ | .committing _ _ => true
  | _ => false

def ProfilePhase.ofUpload : ProfilePhase → Bool
  | .fencing | .merging | .replacing | .undoingResume | .undoingProfile => true
  | _ => false

theorem holdsLock_or_rolledBack_of_dirties (hdirties : call.dirties = true) :
    call.holdsLock = true ∨ call.phase.rolledBack = true := by
  obtain ⟨upload, text, previous, pdf, yaml, phase⟩ := call
  cases phase <;> simp_all [ProfileCall.dirties, ProfileCall.holdsLock, ProfilePhase.rolledBack]

theorem controls_of_carries (hcarries : call.carries = true) : call.controls = true := by
  obtain ⟨upload, text, previous, pdf, yaml, phase⟩ := call
  cases upload <;> cases phase <;>
    simp_all [ProfileCall.carries, ProfileCall.controls, ProfileCall.holdsLock,
      ProfilePhase.rolledBack, beq_iff_eq]
  omega

theorem controls_of_holdsLock (hholds : call.holdsLock = true) : call.controls = true := by
  unfold ProfileCall.controls
  rw [hholds, Bool.true_or]

/-! ## The invariant -/

def ProfileStore.authoritative (store : ProfileStore) : Option String :=
  authoritativeText store.original store.versions

variable (codec)

structure CallOk (store : ProfileStore) (call : ProfileCall) : Prop where
  kind : call.phase.ofUpload = true → call.upload.isSome = true
  written : call.phase.wrote = true → store.profileFile = some call.text
  number : ∀ attempt version, call.phase = .committing attempt version →
    ∀ row ∈ store.versions, row.version < version
  previous : call.upload = none → call.phase ≠ .backingUp →
    store.versions ≠ [] ∨ call.previousText = store.original
  read : call.phase = .merging →
    store.profileFile = store.authoritative ∧ store.resumeFile = store.accepted
  knows : call.upload.isSome = true → call.phase.merged = true →
    call.oldPdf = store.accepted ∧ call.oldYaml = store.authoritative ∧
      CarriedOver codec store.authoritative call.text
  holds : ∀ upload, call.upload = some upload → call.carries = true →
    store.resumeFile = some upload.pdf
  undone : call.phase = .undoingProfile → store.resumeFile = store.accepted

structure StoreOk (store : ProfileStore) : Prop where
  increasing : Increasing store.versions
  carried : AllCarried codec store.original store.versions
  lock : ∀ place call, store.calls.entry place = some call → call.holdsLock = true →
    store.lock = some place
  alone : ∀ place other call found, store.calls.entry place = some call →
    store.calls.entry other = some found → place ≠ other → call.controls = true →
      found.controls = false
  profile : store.profileFile = store.authoritative ∨
    ∃ place call, store.calls.entry place = some call ∧ call.dirties = true
  resume : store.resumeFile = store.accepted ∨
    ∃ place call, store.calls.entry place = some call ∧ call.carries = true
  calls : ∀ place call, store.calls.entry place = some call → CallOk codec store call

/-- The files, the table and what a call may know of them are the same. -/
structure SameFiles (before after : ProfileStore) : Prop where
  profile : after.profileFile = before.profileFile
  resume : after.resumeFile = before.resumeFile
  versions : after.versions = before.versions
  accepted : after.accepted = before.accepted

/-- What a step of a call does to the store and to the call. -/
structure StepOk (before : ProfileStore) (place : ℕ) (call : ProfileCall)
    (after : ProfileStore) (next : Option ProfileCall) : Prop where
  calls : after.calls = before.calls.put place next
  original : after.original = before.original
  frame : call.controls = true ∨ SameFiles before after
  versions : after.versions = before.versions ∨ after.versions ≠ [] ∧
    Increasing after.versions ∧ AllCarried codec after.original after.versions
  keepsLock : ∀ other, other ≠ place → before.lock = some other → after.lock = some other
  lock : ∀ later, next = some later → later.holdsLock = true → after.lock = some place
  alone : ∀ later, next = some later → later.controls = true → call.controls = true ∨
    ∀ other found, other ≠ place → before.calls.entry other = some found →
      found.controls = false
  profile : after.profileFile = after.authoritative ∨
    (∃ later, next = some later ∧ later.dirties = true) ∨
      after.profileFile = before.profileFile ∧ after.versions = before.versions ∧
        call.dirties = false
  resume : after.resumeFile = after.accepted ∨
    (∃ later, next = some later ∧ later.carries = true) ∨
      after.resumeFile = before.resumeFile ∧ after.accepted = before.accepted ∧
        call.carries = false
  next : ∀ later, next = some later → CallOk codec after later

variable {codec}

theorem CallOk.of_not_controls (hok : CallOk codec before call)
    (hcontrols : call.controls = false) (horiginal : after.original = before.original)
    (hgrown : before.versions ≠ [] → after.versions ≠ []) : CallOk codec after call := by
  obtain ⟨upload, text, previous, pdf, yaml, phase⟩ := call
  have hcarries : ∀ other, ProfileCall.carries ⟨other, text, previous, pdf, yaml, phase⟩ =
      true → ProfileCall.controls ⟨other, text, previous, pdf, yaml, phase⟩ = true :=
    fun other hother => controls_of_carries hother
  have hprevious := hok.previous
  have hkind := hok.kind
  refine ⟨hkind, ?_, ?_, ?_, ?_, ?_, ?_, ?_⟩
  · intro hwrote
    cases phase <;> simp_all [ProfileCall.controls, ProfileCall.holdsLock, ProfilePhase.wrote]
  · intro attempt version hphase
    cases hphase
    cases hcontrols
  · intro hupload hphase
    rw [horiginal]
    exact (hprevious hupload hphase).imp_left hgrown
  · intro hphase
    cases hphase
    cases hcontrols
  · intro hupload hmerged
    cases phase <;> simp_all [ProfileCall.controls, ProfileCall.holdsLock, ProfilePhase.merged,
      ProfilePhase.rolledBack]
  · intro found hfound hother
    rw [hcarries upload hother] at hcontrols
    cases hcontrols
  · intro hphase
    cases hphase
    have hsome := hkind rfl
    simp_all [ProfileCall.controls, ProfilePhase.rolledBack]

theorem SameFiles.authoritative (hsame : SameFiles before after)
    (horiginal : after.original = before.original) :
    after.authoritative = before.authoritative := by
  unfold ProfileStore.authoritative
  rw [hsame.versions, horiginal]

theorem CallOk.of_sameFiles (hok : CallOk codec before call) (hsame : SameFiles before after)
    (horiginal : after.original = before.original) : CallOk codec after call where
  kind := hok.kind
  written := by
    rw [hsame.profile]
    exact hok.written
  number := by
    rw [hsame.versions]
    exact hok.number
  previous := by
    rw [hsame.versions, horiginal]
    exact hok.previous
  read := by
    rw [hsame.profile, hsame.resume, hsame.accepted, hsame.authoritative horiginal]
    exact hok.read
  knows := by
    rw [hsame.accepted, hsame.authoritative horiginal]
    exact hok.knows
  holds := by
    rw [hsame.resume]
    exact hok.holds
  undone := by
    rw [hsame.resume, hsame.accepted]
    exact hok.undone

/-- A step that is all right keeps the invariant. -/
theorem StoreOk.step (hok : StoreOk codec before)
    (hentry : before.calls.entry place = some call)
    (hstep : StepOk codec before place call after next) : StoreOk codec after := by
  have hself : after.calls.entry place = next := by
    rw [hstep.calls]
    exact Slots.entry_put_self hentry next
  have hothers : ∀ other, other ≠ place →
      after.calls.entry other = before.calls.entry other := by
    intro other hother
    rw [hstep.calls]
    exact Slots.entry_put_of_ne before.calls next hother
  have hgrown : before.versions ≠ [] → after.versions ≠ [] := by
    intro hsome
    rcases hstep.versions with hsame | hmore
    · rw [hsame]
      exact hsome
    · exact hmore.1
  refine ⟨?_, ?_, ?_, ?_, ?_, ?_, ?_⟩
  · rcases hstep.versions with hsame | hmore
    · rw [hsame]
      exact hok.increasing
    · exact hmore.2.1
  · rcases hstep.versions with hsame | hmore
    · rw [hsame, hstep.original]
      exact hok.carried
    · exact hmore.2.2
  · intro other found hfound hholds
    by_cases hplace : other = place
    · rw [hplace, hself] at hfound
      rw [hplace]
      exact hstep.lock found hfound hholds
    · rw [hothers other hplace] at hfound
      exact hstep.keepsLock other hplace (hok.lock other found hfound hholds)
  · intro first second left right hleft hright hne hcontrols
    by_cases hfirst : first = place
    · rw [hfirst] at hne
      rw [hfirst, hself] at hleft
      rw [hothers second (Ne.symm hne)] at hright
      rcases hstep.alone left hleft hcontrols with hcall | hfree
      · exact hok.alone place second call right hentry hright hne hcall
      · exact hfree second right (Ne.symm hne) hright
    · rw [hothers first hfirst] at hleft
      by_cases hsecond : second = place
      · rw [hsecond, hself] at hright
        by_contra hright'
        rw [Bool.not_eq_false] at hright'
        rcases hstep.alone right hright hright' with hcall | hfree
        · rw [hok.alone first place left call hleft hentry hfirst hcontrols] at hcall
          cases hcall
        · rw [hfree first left hfirst hleft] at hcontrols
          cases hcontrols
      · rw [hothers second hsecond] at hright
        exact hok.alone first second left right hleft hright hne hcontrols
  · rcases hstep.profile with hsettled | ⟨later, hlater, hdirties⟩ | ⟨hsame, hversions, hclean⟩
    · exact .inl hsettled
    · exact .inr ⟨place, later, hself.trans hlater, hdirties⟩
    rcases hok.profile with hgood | ⟨other, found, hfound, hdirties⟩
    · left
      unfold ProfileStore.authoritative at *
      rw [hsame, hversions, hstep.original]
      exact hgood
    · right
      have hother : other ≠ place := by
        rintro rfl
        cases hentry.symm.trans hfound
        rw [hclean] at hdirties
        cases hdirties
      exact ⟨other, found, (hothers other hother).trans hfound, hdirties⟩
  · rcases hstep.resume with hsettled | ⟨later, hlater, hcarries⟩ | ⟨hsame, haccepted, hclean⟩
    · exact .inl hsettled
    · exact .inr ⟨place, later, hself.trans hlater, hcarries⟩
    rcases hok.resume with hgood | ⟨other, found, hfound, hcarries⟩
    · left
      rw [hsame, haccepted]
      exact hgood
    · right
      have hother : other ≠ place := by
        rintro rfl
        cases hentry.symm.trans hfound
        rw [hclean] at hcarries
        cases hcarries
      exact ⟨other, found, (hothers other hother).trans hfound, hcarries⟩
  · intro other found hfound
    by_cases hplace : other = place
    · rw [hplace, hself] at hfound
      exact hstep.next found hfound
    · rw [hothers other hplace] at hfound
      have hcall := hok.calls other found hfound
      rcases hstep.frame with hcontrols | hsame
      · have hfree := hok.alone place other call found hentry hfound (Ne.symm hplace) hcontrols
        exact hcall.of_not_controls hfree hstep.original hgrown
      · exact hcall.of_sameFiles hsame hstep.original

end JobApplyAgent.Profile
