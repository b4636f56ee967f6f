import JobApplyAgent.Profile.Answerable

/-!
# Steps of the calls

Every step of a call keeps what the calls are answerable for.  An upload writes back what it
read under the lock, so no other call may take the lock while it goes on without it.
-/

namespace JobApplyAgent.Profile

open Library TransitionSystem

variable {before : ProfileStore}
  {call later : ProfileCall} {phase : ProfilePhase}
  {text : String}
  {lock : Option ℕ}

/-! ## What a call keeps -/

/-- The phases of the write of a version. -/
def ProfilePhase.persists : ProfilePhase → Bool
  | .locking _ | .writing _ | .numbering _ | .committing _ _ | .relocking | .restoring => true
  | _ => false

theorem controls_of_persists (hupload : call.upload.isSome = true)
    (hpersists : call.phase.persists = true) : call.controls = true := by
  obtain ⟨source, text, previous, pdf, yaml, phase⟩ := call
  cases source with
  | none => cases hupload
  | some upload =>
    apply controls_of_carries
    cases phase <;> first | rfl | cases hpersists

theorem carries_persist (hpersists : phase.persists = true) (hcarries : call.carries = true) :
    ProfileCall.carries { call with phase := phase } = true := by
  obtain ⟨source, text, previous, pdf, yaml, old⟩ := call
  cases source with
  | none => cases hcarries
  | some upload => cases phase <;> first | rfl | cases hpersists

/-- A call that goes on with its version, or undoes its upload, knows what it knew. -/
theorem CallOk.onward (hcall : CallOk codec store call)
    (hfrom : call.phase.persists = true ∨ call.phase = .backingUp ∧ call.upload.isSome = true)
    (hto : phase.persists = true ∨ phase = .undoingResume ∧ call.upload.isSome = true)
    (hwritten : phase.wrote = true → file = some call.text)
    (hnumber : ∀ attempt version, phase = .committing attempt version →
      ∀ row ∈ store.versions, row.version < version) :
    CallOk codec { store with profileFile := file } { call with phase := phase } := by
  obtain ⟨source, text, previous, pdf, yaml, old⟩ := call
  have hmerged : old.merged = true := by
    rcases hfrom with hpersists | ⟨rfl, _⟩
    · cases old <;> first | rfl | cases hpersists
    · rfl
  exact {
    kind := fun hkind => by
      rcases hto with hpersists | ⟨_, hsome⟩
      · change phase.ofUpload = true at hkind
        cases phase <;> simp_all [ProfilePhase.persists, ProfilePhase.ofUpload]
      · exact hsome
    written := hwritten
    number := hnumber
    previous := fun hnone _ => by
      refine hcall.previous hnone ?_
      rintro rfl
      rcases hfrom with hpersists | ⟨_, hsome⟩
      · cases hpersists
      · cases hnone
        cases hsome
    read := by
      rintro rfl
      rcases hto with hpersists | ⟨hother, _⟩
      · cases hpersists
      · cases hother
    knows := fun hsome _ => hcall.knows hsome hmerged
    holds := by
      rintro upload rfl _
      refine hcall.holds upload rfl ?_
      rcases hfrom with hpersists | ⟨rfl, _⟩
      · cases old <;> first | rfl | cases hpersists
      · rfl
    undone := by
      rintro rfl
      rcases hto with hpersists | ⟨hother, _⟩
      · cases hpersists
      · cases hother }

/-! ## Steps that leave the files -/

theorem keepsLock_unlock (store : ProfileStore) (place : ℕ) :
    ∀ other, other ≠ place → store.lock = some other → (store.unlock place).lock = some other := by
  intro other hother hlock
  have hne : store.lock ≠ some place := by
    rw [hlock]
    exact fun hsame => hother (Option.some.inj hsame)
  exact (if_neg hne).trans hlock

/-- The call ends with no file to settle. -/
theorem StoreOk.close (hok : StoreOk codec before) (hentry : before.calls.entry place = some call)
    (hdirties : call.dirties = false) (hcarries : call.carries = false) :
    StoreOk codec (before.close place) := by
  apply hok.step hentry
  exact {
    calls := rfl
    original := rfl
    frame := .inr ⟨rfl, rfl, rfl, rfl⟩
    versions := .inl rfl
    keepsLock := keepsLock_unlock before place
    lock := fun _ hlater => nomatch hlater
    alone := fun _ hlater => nomatch hlater
    profile := .inr (.inr ⟨rfl, rfl, hdirties⟩)
    resume := .inr (.inr ⟨rfl, rfl, hcarries⟩)
    next := fun _ hlater => nomatch hlater }

/-- The call goes on, with the lock as it then is. -/
theorem StoreOk.onward (hok : StoreOk codec before)
    (hentry : before.calls.entry place = some call)
    (hkeeps : ∀ other, other ≠ place → before.lock = some other → lock = some other)
    (hlock : later.holdsLock = true → lock = some place)
    (halone : later.controls = true → call.controls = true ∨
      ∀ other found, other ≠ place → before.calls.entry other = some found →
        found.controls = false)
    (hdirties : call.dirties = true → later.dirties = true)
    (hcarries : call.carries = true → later.carries = true) (hlater : CallOk codec before later) :
    StoreOk codec ({ before with lock := lock }.withCall place (some later)) := by
  apply hok.step hentry
  exact {
    calls := rfl
    original := rfl
    frame := .inr ⟨rfl, rfl, rfl, rfl⟩
    versions := .inl rfl
    keepsLock := hkeeps
    lock := by
      rintro _ ⟨⟩
      exact hlock
    alone := by
      rintro _ ⟨⟩
      exact halone
    profile := by
      cases hclean : call.dirties with
      | true => exact .inr (.inl ⟨_, rfl, hdirties hclean⟩)
      | false => exact .inr (.inr ⟨rfl, rfl, rfl⟩)
    resume := by
      cases hclean : call.carries with
      | true => exact .inr (.inl ⟨_, rfl, hcarries hclean⟩)
      | false => exact .inr (.inr ⟨rfl, rfl, rfl⟩)
    next := by
      rintro _ ⟨⟩
      exact hlater.of_sameFiles ⟨rfl, rfl, rfl, rfl⟩ rfl }

/-! ## The lock -/

/-- No call that was rolled back is in the way of the call. -/
def Unobstructed (store : ProfileStore) (place : ℕ) (call : ProfileCall) : Prop :=
  ∀ other found, other ≠ place → store.calls.entry other = some found →
    found.phase.rolledBack = true → call.upload = none ∧ found.upload = none

section

variable (hok : StoreOk codec before)
include hok

theorem StoreOk.free_of_lock (hlock : before.lock = none ∨ before.lock = some place)
    (hfree : Unobstructed before place call) :
    ∀ other found, other ≠ place → before.calls.entry other = some found →
      found.controls = false := by
  intro other found hother hfound
  by_contra hcontrols
  rw [Bool.not_eq_false, ProfileCall.controls, Bool.or_eq_true, Bool.and_eq_true] at hcontrols
  rcases hcontrols with hholds | ⟨hupload, hrolled⟩
  · have hheld := hok.lock other found hfound hholds
    rcases hlock with hnone | hown
    · cases hnone.symm.trans hheld
    · exact hother (Option.some.inj (hown.symm.trans hheld)).symm
  · rw [(hfree other found hother hfound hrolled).2] at hupload
    cases hupload

/-- An upload that takes the lock finds both files settled. -/
theorem StoreOk.settled_of_lock
    (hentry : before.calls.entry place = some ⟨some upload, text, previous, pdf, yaml, .fencing⟩)
    (hlock : before.lock = none ∨ before.lock = some place)
    (hfree : Unobstructed before place ⟨some upload, text, previous, pdf, yaml, .fencing⟩) :
    before.profileFile = before.authoritative ∧ before.resumeFile = before.accepted := by
  have hothers := hok.free_of_lock hlock hfree
  constructor
  · rcases hok.profile with hgood | ⟨other, found, hfound, hdirties⟩
    · exact hgood
    have hother : other ≠ place := by
      rintro rfl
      cases hentry.symm.trans hfound
      cases hdirties
    rcases holdsLock_or_rolledBack_of_dirties hdirties with hholds | hrolled
    · have hcontrols := hothers other found hother hfound
      rw [controls_of_holdsLock hholds] at hcontrols
      cases hcontrols
    · cases (hfree other found hother hfound hrolled).1
  · rcases hok.resume with hgood | ⟨other, found, hfound, hcarries⟩
    · exact hgood
    have hother : other ≠ place := by
      rintro rfl
      cases hentry.symm.trans hfound
      cases hcarries
    have hcontrols := hothers other found hother hfound
    rw [controls_of_carries hcarries] at hcontrols
    cases hcontrols

theorem takeLock_ok (hentry : before.calls.entry place = some call)
    (hfree : Unobstructed before place call)
    (hdirties : call.dirties = true → later.dirties = true)
    (hcarries : call.carries = true → later.carries = true)
    (hlater : before.lock = none ∨ before.lock = some place → CallOk codec before later)
    (hstep : takeLock before place later = some after) : StoreOk codec after := by
  unfold takeLock at hstep
  split at hstep
  · next hlock =>
    cases hstep
    refine hok.onward hentry ?_ (fun _ => rfl) (fun _ => .inr (hok.free_of_lock hlock hfree))
      hdirties hcarries (hlater hlock)
    intro other hother hheld
    rcases hlock with hnone | hown
    · cases hnone.symm.trans hheld
    · exact absurd (Option.some.inj (hown.symm.trans hheld)).symm hother
  · cases hstep

theorem proceed_fencing
    (hentry : before.calls.entry place = some ⟨some upload, text, previous, pdf, yaml, .fencing⟩)
    (hfree : Unobstructed before place ⟨some upload, text, previous, pdf, yaml, .fencing⟩)
    (hstep : takeLock before place ⟨some upload, text, previous, pdf, yaml, .merging⟩ =
      some after) : StoreOk codec after := by
  refine takeLock_ok hok hentry hfree nofun nofun (fun hlock => ?_) hstep
  exact {
    kind := fun _ => rfl
    written := nofun
    number := nofun
    previous := nofun
    read := fun _ => hok.settled_of_lock hentry hlock hfree
    knows := nofun
    holds := nofun
    undone := nofun }

theorem proceed_locking (hentry : before.calls.entry place = some call)
    (hfrom : call.phase.persists = true) (hto : phase.persists = true)
    (hwritten : phase.wrote = false)
    (hdirties : call.dirties = true → ProfileCall.dirties { call with phase := phase } = true)
    (hfree : Unobstructed before place call)
    (hstep : takeLock before place { call with phase := phase } = some after) :
    StoreOk codec after := by
  refine takeLock_ok hok hentry hfree hdirties (carries_persist hto) (fun _ => ?_) hstep
  apply (hok.calls place call hentry).onward (.inl hfrom) (.inl hto)
  · rw [hwritten]
    exact nofun
  · rintro attempt version rfl
    cases hwritten

end

/-! ## The uploaded files -/

theorem carriedOver_ingested (hload : loadExisting codec file = some existing) (resumePath : String)
    (rebuilt : UserProfile) :
    CarriedOver codec file (codec.dump (ingestedProfile resumePath rebuilt existing)) := by
  rintro previous rfl
  obtain ⟨profile, hprofile, rfl⟩ := Option.map_eq_some_iff.mp hload
  exact ⟨profile, _, hprofile, rfl, ingestedProfile_keeps resumePath rebuilt profile⟩

theorem proceed_merging (hok : StoreOk codec before)
    (hentry : before.calls.entry place =
      some ⟨some upload, text, previous, pdf, yaml, .merging⟩) :
    StoreOk codec (mergeUpload codec resumePath before place
      ⟨some upload, text, previous, pdf, yaml, .merging⟩ upload) := by
  obtain ⟨hprofile, hresume⟩ := (hok.calls place _ hentry).read rfl
  unfold mergeUpload
  split
  · exact hok.close hentry rfl rfl
  next existing hload =>
  apply hok.onward hentry (fun _ _ hheld => hheld) (fun _ => hok.lock place _ hentry rfl)
    (fun _ => .inl rfl) nofun nofun
  exact {
    kind := fun _ => rfl
    written := nofun
    number := nofun
    previous := nofun
    read := nofun
    knows := fun _ _ => ⟨hresume, hprofile,
      hprofile ▸ carriedOver_ingested hload resumePath upload.rebuilt⟩
    holds := nofun
    undone := nofun }

theorem proceed_replacing (hok : StoreOk codec before)
    (hentry : before.calls.entry place =
      some ⟨some upload, text, previous, pdf, yaml, .replacing⟩) :
    StoreOk codec ({ before with resumeFile := some upload.pdf }.withCall place
      (some ⟨some upload, text, previous, pdf, yaml, .backingUp⟩)) := by
  have hknows := (hok.calls place _ hentry).knows rfl rfl
  apply hok.step hentry
  exact {
    calls := rfl
    original := rfl
    frame := .inl rfl
    versions := .inl rfl
    keepsLock := fun _ _ hheld => hheld
    lock := fun _ _ _ => hok.lock place _ hentry rfl
    alone := fun _ _ _ => .inl rfl
    profile := .inr (.inr ⟨rfl, rfl, rfl⟩)
    resume := .inr (.inl ⟨_, rfl, rfl⟩)
    next := by
      rintro _ ⟨⟩
      exact {
        kind := fun _ => rfl
        written := nofun
        number := nofun
        previous := nofun
        read := nofun
        knows := fun _ _ => hknows
        holds := by
          rintro _ ⟨⟩ _
          rfl
        undone := nofun } }

theorem proceed_backingUp (hok : StoreOk codec before)
    (hentry : before.calls.entry place = some ⟨source, text, previous, pdf, yaml, .backingUp⟩)
    (hguard : source = none → before.versions ≠ [] ∨ before.profileFile = before.original) :
    StoreOk codec (before.withCall place
      (some ⟨source, text, before.profileFile, pdf, yaml, .locking 0⟩)) := by
  have hcall := hok.calls place _ hentry
  apply hok.onward hentry (fun _ _ hheld => hheld)
  · intro hholds
    cases source with
    | none => cases hholds
    | some upload => exact hok.lock place _ hentry rfl
  · intro hcontrols
    cases source with
    | none => cases hcontrols
    | some upload => exact .inl rfl
  · exact nofun
  · cases source <;> exact id
  · exact {
      kind := nofun
      written := nofun
      number := nofun
      previous := fun hnone _ => hguard hnone
      read := nofun
      knows := fun hsome _ => hcall.knows hsome rfl
      holds := by
        rintro upload ⟨⟩ _
        exact hcall.holds upload rfl rfl
      undone := nofun }

/-! ## The write of a version -/

section

variable (hok : StoreOk codec before)
include hok

/-- The call may write while it has the lock. -/
theorem proceed_writing (hentry : before.calls.entry place =
      some ⟨source, text, previous, pdf, yaml, .writing attempt⟩) :
    StoreOk codec ({ before with profileFile := some text }.withCall place
      (some ⟨source, text, previous, pdf, yaml, .numbering attempt⟩)) := by
  have hnext : CallOk codec { before with profileFile := some text }
      ⟨source, text, previous, pdf, yaml, .numbering attempt⟩ :=
    (hok.calls place _ hentry).onward (.inl rfl) (.inl rfl) (fun _ => rfl) nofun
  apply hok.step hentry
  exact {
    calls := rfl
    original := rfl
    frame := .inl rfl
    versions := .inl rfl
    keepsLock := fun _ _ hheld => hheld
    lock := fun _ _ _ => hok.lock place _ hentry rfl
    alone := fun _ _ _ => .inl rfl
    profile := .inr (.inl ⟨_, rfl, rfl⟩)
    resume := by
      cases source with
      | none => exact .inr (.inr ⟨rfl, rfl, rfl⟩)
      | some upload => exact .inr (.inl ⟨_, rfl, rfl⟩)
    next := by
      rintro _ ⟨⟩
      exact hnext.of_sameFiles ⟨rfl, rfl, rfl, rfl⟩ rfl }

theorem proceed_numbering (hentry : before.calls.entry place =
      some ⟨source, text, previous, pdf, yaml, .numbering attempt⟩)
    (hversion : ∀ row ∈ before.versions, row.version < version) :
    StoreOk codec (before.withCall place
      (some ⟨source, text, previous, pdf, yaml, .committing attempt version⟩)) := by
  have hcall := hok.calls place _ hentry
  apply hok.onward hentry (fun _ _ hheld => hheld) (fun _ => hok.lock place _ hentry rfl)
    (fun _ => .inl rfl) (fun _ => rfl) (carries_persist rfl)
  refine hcall.onward (.inl rfl) (.inl rfl) (fun _ => hcall.written rfl) ?_
  rintro _ _ ⟨⟩
  exact hversion

/-- A rollback takes the lock from the call. -/
theorem StoreOk.rollback (hentry : before.calls.entry place = some call)
    (hfrom : call.phase.persists = true)
    (hto : phase = .relocking ∨ ∃ attempt, phase = .locking (attempt + 1)) :
    StoreOk codec ((before.unlock place).withCall place (some { call with phase := phase })) := by
  have hcall := hok.calls place call hentry
  have hpersists : phase.persists = true := by
    rcases hto with rfl | ⟨_, rfl⟩ <;> rfl
  have hunlocked : ProfileCall.holdsLock { call with phase := phase } = false := by
    rcases hto with rfl | ⟨_, rfl⟩
    · rfl
    · exact Bool.and_false _
  apply hok.onward hentry (keepsLock_unlock before place)
  · rw [hunlocked]
    intro hholds
    cases hholds
  · intro hcontrols
    rw [ProfileCall.controls, hunlocked, Bool.false_or, Bool.and_eq_true] at hcontrols
    exact .inl (controls_of_persists hcontrols.1 hfrom)
  · rcases hto with rfl | ⟨_, rfl⟩ <;> exact fun _ => rfl
  · exact carries_persist hpersists
  · rcases hto with rfl | ⟨_, rfl⟩ <;>
      exact hcall.onward (.inl hfrom) (.inl rfl) (by rintro ⟨⟩) (by rintro _ _ ⟨⟩)

theorem retryVersion_ok (hentry : before.calls.entry place = some call)
    (hphase : call.phase = .committing attempt version) :
    StoreOk codec (retryVersion before place call attempt) := by
  have hfrom : call.phase.persists = true := by rw [hphase]; rfl
  unfold retryVersion
  split
  · exact hok.rollback hentry hfrom (.inl rfl)
  · exact hok.rollback hentry hfrom (.inr ⟨attempt, rfl⟩)

theorem insertVersion_ok (hentry : before.calls.entry place =
      some ⟨source, text, previous, pdf, yaml, .committing attempt version⟩) :
    some text = authoritativeText before.original
        (before.versions ++ [⟨text, version, source.map Upload.rebuilt⟩]) ∧
      Increasing (before.versions ++ [⟨text, version, source.map Upload.rebuilt⟩]) ∧
      AllCarried codec before.original
        (before.versions ++ [⟨text, version, source.map Upload.rebuilt⟩]) := by
  have hcall := hok.calls place _ hentry
  have hlater := hcall.number attempt version rfl
  refine ⟨?_, hok.increasing.concat hlater, hok.carried.concat fun hupload => ?_⟩
  · symm
    apply authoritativeText_concat
    exact hlater
  · exact (hcall.knows (Option.isSome_map.symm.trans hupload) rfl).2.2

/-- The version that is inserted stays in the file when the call lets go of the lock. -/
theorem StoreOk.inserted (hentry : before.calls.entry place =
      some ⟨source, text, previous, pdf, yaml, .committing attempt version⟩)
    (hphase : phase = .publishing ∨ source = none ∧ phase = .relocking) :
    StoreOk codec ((((before.insertVersion
      ⟨source, text, previous, pdf, yaml, .committing attempt version⟩ version).accept
        ⟨source, text, previous, pdf, yaml, .committing attempt version⟩).unlock place).withCall
      place (some ⟨source, text, previous, pdf, yaml, phase⟩)) := by
  have hcall := hok.calls place _ hentry
  obtain ⟨hprofile, hincreasing, hcarried⟩ := insertVersion_ok hok hentry
  have hsome := List.append_ne_nil_of_right_ne_nil before.versions (List.cons_ne_nil
    (⟨text, version, source.map Upload.rebuilt⟩ : UserProfileVersion) [])
  apply hok.step hentry
  exact {
    calls := rfl
    original := rfl
    frame := .inl rfl
    versions := .inr ⟨hsome, hincreasing, hcarried⟩
    keepsLock := keepsLock_unlock _ place
    lock := by
      rcases hphase with rfl | ⟨rfl, rfl⟩ <;> rintro _ ⟨⟩ ⟨⟩
    alone := fun _ _ _ => .inl rfl
    profile := .inl ((hcall.written rfl).trans hprofile)
    resume := by
      cases source with
      | none => exact .inr (.inr ⟨rfl, rfl, rfl⟩)
      | some upload => exact .inl (hcall.holds upload rfl rfl)
    next := by
      rintro _ ⟨⟩
      rcases hphase with rfl | ⟨rfl, rfl⟩ <;> exact {
        kind := nofun
        written := nofun
        number := nofun
        previous := fun _ _ => .inl hsome
        read := nofun
        knows := nofun
        holds := by
          rintro _ ⟨⟩ ⟨⟩
        undone := nofun } }

theorem proceed_committing (hentry : before.calls.entry place =
      some ⟨source, text, previous, pdf, yaml, .committing attempt version⟩) :
    StoreOk codec (commitVersion before place
      ⟨source, text, previous, pdf, yaml, .committing attempt version⟩ attempt version) := by
  unfold commitVersion
  split
  · exact retryVersion_ok hok hentry rfl
  · exact hok.inserted hentry (.inl rfl)

theorem commitAndRaise_ok (hentry : before.calls.entry place = some call)
    (hupload : call.upload = none)
    (hstep : commitAndRaise before place call = some after) : StoreOk codec after := by
  obtain ⟨source, text, previous, pdf, yaml, phase⟩ := call
  obtain rfl : source = none := hupload
  cases phase with
  | committing attempt version =>
    simp only [commitAndRaise] at hstep
    split at hstep <;> cases hstep
    exact hok.inserted hentry (.inr ⟨rfl, rfl⟩)
  | _ => cases hstep

end

/-! ## What is written back -/

section

variable (hok : StoreOk codec before)
include hok

theorem proceed_restoring (hentry : before.calls.entry place =
      some ⟨source, text, previous, pdf, yaml, .restoring⟩) :
    StoreOk codec (restoreAuthoritativeFile before place
      ⟨source, text, previous, pdf, yaml, .restoring⟩) := by
  have hcall := hok.calls place _ hentry
  cases source with
  | none =>
    apply hok.step hentry
    exact {
      calls := rfl
      original := rfl
      frame := .inl rfl
      versions := .inl rfl
      keepsLock := fun other hother hheld =>
        keepsLock_unlock _ place other hother (keepsLock_unlock _ place other hother hheld)
      lock := fun _ hlater => nomatch hlater
      alone := fun _ hlater => nomatch hlater
      profile := .inl (authoritativeText_previous (hcall.previous rfl nofun))
      resume := .inr (.inr ⟨rfl, rfl, rfl⟩)
      next := fun _ hlater => nomatch hlater }
  | some upload =>
    have hnext : CallOk codec
        { before with profileFile := authoritativeText previous before.versions }
        ⟨some upload, text, previous, pdf, yaml, .undoingResume⟩ :=
      hcall.onward (.inl rfl) (.inr ⟨rfl, rfl⟩) nofun nofun
    apply hok.step hentry
    exact {
      calls := rfl
      original := rfl
      frame := .inl rfl
      versions := .inl rfl
      keepsLock := keepsLock_unlock _ place
      lock := by
        rintro _ ⟨⟩ ⟨⟩
      alone := fun _ _ _ => .inl rfl
      profile := .inr (.inl ⟨_, rfl, rfl⟩)
      resume := .inr (.inl ⟨_, rfl, rfl⟩)
      next := by
        rintro _ ⟨⟩
        exact hnext.of_sameFiles ⟨rfl, rfl, rfl, rfl⟩ rfl }

/-- The saved bytes are those of the last successful upload. -/
theorem proceed_undoingResume (hentry : before.calls.entry place =
      some ⟨some upload, text, previous, pdf, yaml, .undoingResume⟩) :
    StoreOk codec ({ before with resumeFile := pdf }.withCall place
      (some ⟨some upload, text, previous, pdf, yaml, .undoingProfile⟩)) := by
  have hknows := (hok.calls place _ hentry).knows rfl rfl
  apply hok.step hentry
  exact {
    calls := rfl
    original := rfl
    frame := .inl rfl
    versions := .inl rfl
    keepsLock := fun _ _ hheld => hheld
    lock := by
      rintro _ ⟨⟩ ⟨⟩
    alone := fun _ _ _ => .inl rfl
    profile := .inr (.inl ⟨_, rfl, rfl⟩)
    resume := .inl hknows.1
    next := by
      rintro _ ⟨⟩
      exact {
        kind := fun _ => rfl
        written := nofun
        number := nofun
        previous := nofun
        read := nofun
        knows := fun _ _ => hknows
        holds := nofun
        undone := fun _ => hknows.1 } }

theorem proceed_undoingProfile (hentry : before.calls.entry place =
      some ⟨some upload, text, previous, pdf, yaml, .undoingProfile⟩) :
    StoreOk codec ({ before with profileFile := yaml }.close place) := by
  have hcall := hok.calls place _ hentry
  apply hok.step hentry
  exact {
    calls := rfl
    original := rfl
    frame := .inl rfl
    versions := .inl rfl
    keepsLock := keepsLock_unlock _ place
    lock := fun _ hlater => nomatch hlater
    alone := fun _ hlater => nomatch hlater
    profile := .inl (hcall.knows rfl rfl).2.1
    resume := .inl (hcall.undone rfl)
    next := fun _ hlater => nomatch hlater }

theorem proceedCall_ok (hentry : before.calls.entry place = some call)
    (hguard : Undisturbed before (.proceed place))
    (hstep : proceedCall codec resumePath before place call = some after) :
    StoreOk codec after := by
  obtain ⟨hlock, hread⟩ := hguard call hentry
  have hkind := (hok.calls place call hentry).kind
  obtain ⟨source, text, previous, pdf, yaml, phase⟩ := call
  cases phase with
  | fencing =>
    obtain ⟨upload, rfl⟩ := Option.isSome_iff_exists.mp (hkind rfl)
    exact proceed_fencing hok hentry (hlock rfl) hstep
  | merging =>
    obtain ⟨upload, rfl⟩ := Option.isSome_iff_exists.mp (hkind rfl)
    cases hstep
    exact proceed_merging hok hentry
  | replacing =>
    obtain ⟨upload, rfl⟩ := Option.isSome_iff_exists.mp (hkind rfl)
    cases hstep
    exact proceed_replacing hok hentry
  | backingUp =>
    cases hstep
    exact proceed_backingUp hok hentry fun hupload => hread hupload rfl
  | locking attempt =>
    exact proceed_locking hok hentry rfl rfl rfl (fun _ => rfl) (hlock rfl) hstep
  | writing attempt =>
    cases hstep
    exact proceed_writing hok hentry
  | numbering attempt =>
    cases hstep
    exact proceed_numbering hok hentry (lt_next_version before.versions)
  | committing attempt version =>
    cases hstep
    exact proceed_committing hok hentry
  | publishing =>
    cases hstep
    exact hok.close hentry rfl (by cases source <;> rfl)
  | relocking =>
    exact proceed_locking hok hentry rfl rfl rfl (fun _ => rfl) (hlock rfl) hstep
  | restoring =>
    cases hstep
    exact proceed_restoring hok hentry
  | undoingResume =>
    obtain ⟨upload, rfl⟩ := Option.isSome_iff_exists.mp (hkind rfl)
    cases hstep
    exact proceed_undoingResume hok hentry
  | undoingProfile =>
    obtain ⟨upload, rfl⟩ := Option.isSome_iff_exists.mp (hkind rfl)
    cases hstep
    exact proceed_undoingProfile hok hentry

end

/-! ## Exceptions -/

theorem failCall_ok (hok : StoreOk codec before)
    (hentry : before.calls.entry place = some call) (hguard : call.mustNotFail = false) :
    StoreOk codec (failCall before place call) := by
  have hcall := hok.calls place call hentry
  obtain ⟨source, text, previous, pdf, yaml, phase⟩ := call
  cases phase with
  | fencing | merging | replacing =>
    obtain ⟨upload, rfl⟩ := Option.isSome_iff_exists.mp (hcall.kind rfl)
    exact hok.close hentry rfl rfl
  | undoingResume | undoingProfile =>
    obtain ⟨upload, rfl⟩ := Option.isSome_iff_exists.mp (hcall.kind rfl)
    cases hguard
  | backingUp =>
    cases source with
    | none => exact hok.close hentry rfl rfl
    | some upload =>
      exact hok.onward hentry (fun _ _ hheld => hheld) nofun (fun _ => .inl rfl) (fun _ => rfl)
        (fun _ => rfl) (hcall.onward (.inr ⟨rfl, rfl⟩) (.inr ⟨rfl, rfl⟩) nofun nofun)
  | publishing =>
    cases source with
    | none => exact hok.close hentry rfl rfl
    | some upload => cases hguard
  | locking | writing | numbering | committing => exact hok.rollback hentry rfl (.inl rfl)
  | relocking | restoring =>
    cases source with
    | none => cases hguard
    | some upload =>
      exact hok.onward hentry (keepsLock_unlock before place) nofun (fun _ => .inl rfl)
        (fun _ => rfl) (fun _ => rfl)
        (hcall.onward (.inl rfl) (.inr ⟨rfl, rfl⟩) nofun nofun)

end JobApplyAgent.Profile
