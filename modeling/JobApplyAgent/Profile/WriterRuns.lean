import JobApplyAgent.Profile.WriterSteps

/-!
# The profile files and the version table agree

Whenever no call is in progress, the profile file holds the latest committed snapshot and
the resume file the last successful upload, unless an upload that was rolled back has been
overtaken.
-/

namespace JobApplyAgent.Profile

open Library TransitionSystem

variable {codec : ProfileCodec} {resumePath : String} {store : ProfileStore}

theorem storeOk_start (profile : Option String) (resume : Option Bytes) :
    StoreOk codec (profileStart profile resume) where
  increasing := List.Pairwise.nil
  carried := by
    intro earlier row later hsplit
    exact absurd hsplit.symm (List.append_ne_nil_of_right_ne_nil _ (List.cons_ne_nil _ _))
  lock := fun _ _ hfound => nomatch hfound
  alone := fun _ _ _ _ hfound => nomatch hfound
  profile := .inl rfl
  resume := .inl rfl
  calls := fun _ _ hfound => nomatch hfound

/-- A call that has not yet read anything. -/
theorem StoreOk.add (hok : StoreOk codec before) (hcontrols : call.controls = false)
    (hholds : call.holdsLock = false) (hcall : CallOk codec before call) :
    StoreOk codec { before with calls := before.calls.add call } := by
  refine ⟨hok.increasing, hok.carried, ?_, ?_, ?_, ?_, ?_⟩
  · intro other found hfound hheld
    rcases Slots.entry_add hfound with ⟨hold, _⟩ | ⟨_, rfl⟩
    · exact hok.lock other found hold hheld
    · rw [hholds] at hheld
      cases hheld
  · intro first second left right hleft hright hne hcontrol
    rcases Slots.entry_add hleft with ⟨hleft, _⟩ | ⟨_, rfl⟩
    · rcases Slots.entry_add hright with ⟨hright, _⟩ | ⟨_, rfl⟩
      · exact hok.alone first second left right hleft hright hne hcontrol
      · exact hcontrols
    · rw [hcontrols] at hcontrol
      cases hcontrol
  · apply hok.profile.imp_right
    rintro ⟨other, found, hfound, hdirties⟩
    exact ⟨other, found, Slots.entry_add_of_entry hfound call, hdirties⟩
  · apply hok.resume.imp_right
    rintro ⟨other, found, hfound, hcarries⟩
    exact ⟨other, found, Slots.entry_add_of_entry hfound call, hcarries⟩
  · intro other found hfound
    have hfiles : SameFiles before { before with calls := before.calls.add call } :=
      ⟨rfl, rfl, rfl, rfl⟩
    rcases Slots.entry_add hfound with ⟨hold, _⟩ | ⟨_, rfl⟩
    · exact (hok.calls other found hold).of_sameFiles hfiles rfl
    · exact hcall.of_sameFiles hfiles rfl

theorem callOk_save (store : ProfileStore) (text : String) :
    CallOk codec store (startCall none text .backingUp) where
  kind := nofun
  written := nofun
  number := nofun
  previous := fun _ hphase => absurd rfl hphase
  read := nofun
  knows := nofun
  holds := nofun
  undone := nofun

theorem callOk_ingest (store : ProfileStore) (upload : Upload) :
    CallOk codec store (startCall (some upload) "" .fencing) where
  kind := fun _ => rfl
  written := nofun
  number := nofun
  previous := nofun
  read := nofun
  knows := nofun
  holds := nofun
  undone := nofun

theorem storeOk_invariant :
    (profileSystem codec resumePath).Invariant Undisturbed (StoreOk codec) where
  init := by
    rintro store ⟨profile, resume, rfl⟩
    exact storeOk_start profile resume
  step := by
    intro before action after hok hguard hstep
    change performProfile codec resumePath before action = some after at hstep
    cases action with
    | save profile =>
      cases hstep
      exact hok.add rfl rfl (callOk_save before (codec.dump profile))
    | ingest upload =>
      cases hstep
      exact hok.add rfl rfl (callOk_ingest before upload)
    | proceed place =>
      obtain ⟨call, hentry, hproceed⟩ := Option.bind_eq_some_iff.mp hstep
      exact proceedCall_ok hok hentry hguard hproceed
    | collide place =>
      obtain ⟨call, hentry, hcollide⟩ := Option.bind_eq_some_iff.mp hstep
      unfold collideCall at hcollide
      split at hcollide
      · next attempt version hphase =>
        cases hcollide
        exact retryVersion_ok hok hentry hphase
      · cases hcollide
    | fail place =>
      obtain ⟨call, hentry, rfl⟩ := Option.map_eq_some_iff.mp hstep
      exact failCall_ok hok hentry (hguard call hentry)
    | commitAndRaise place =>
      obtain ⟨call, hentry, hcommit⟩ := Option.bind_eq_some_iff.mp hstep
      exact commitAndRaise_ok hok hentry (hguard call hentry) hcommit

/-- The files and the table agree whenever no call is in progress, in every interleaving in
which no upload that was rolled back is overtaken and no restore or undo fails. -/
theorem profile_agrees (hreach : (profileSystem codec resumePath).Reachable Undisturbed store)
    (hquiet : store.Quiet) : InAgreement codec store := by
  have hok := storeOk_invariant.reachable hreach
  refine ⟨hok.increasing, ?_, ?_, hok.carried⟩
  · rcases hok.profile with hgood | ⟨place, call, hentry, _⟩
    · exact hgood
    · rw [hquiet place] at hentry
      cases hentry
  · rcases hok.resume with hgood | ⟨place, call, hentry, _⟩
    · exact hgood
    · rw [hquiet place] at hentry
      cases hentry

/-! ## An upload that is overtaken -/

def blankProfile : UserProfile where
  personal := ⟨"", "", "", ""⟩
  links := ⟨"", "", ""⟩
  resume := ⟨"", "", ""⟩
  coverLetterStyle := ""
  preferences := ⟨[], [], true, true, true, ⟨0, 0, "USD"⟩, [], [], []⟩
  attachments := []
  evidence := ⟨fun _ => none, fun _ => none, fun _ => none, fun _ => none⟩

def namedProfile (name : String) : UserProfile :=
  { blankProfile with personal := ⟨name, "", "", ""⟩ }

def nameCodec : ProfileCodec where
  dump := fun profile => profile.personal.name
  load := fun text => some (namedProfile text)

def sampleUpload : Upload where
  pdf := [37, 80, 68, 70, 45]
  rebuilt := namedProfile "R. Cohen"

def sampleStore : ProfileStore :=
  profileStart (some "Ruth") (some [37, 80, 68, 70])

def performSample : ProfileStore → ProfileAction → Option ProfileStore :=
  performProfile nameCodec "resume.pdf"

theorem quiet_of_none (hnone : store.calls.all Option.isNone = true) : store.Quiet := by
  intro place
  unfold Slots.entry
  cases hcall : store.calls[place]? with
  | none => rfl
  | some call =>
    rw [List.all_eq_true] at hnone
    exact Option.isNone_iff_eq_none.mp (hnone call (List.mem_of_getElem? hcall))

/-- An upload whose commit fails is overtaken by a save before it has restored the files. -/
def overtakenUpload : List ProfileAction :=
  [.ingest sampleUpload, .proceed 0, .proceed 0, .proceed 0, .proceed 0, .proceed 0, .proceed 0,
    .proceed 0, .fail 0, .save (namedProfile "Ruth Cohen"), .proceed 1, .proceed 1, .proceed 1,
    .proceed 1, .proceed 1, .proceed 1, .proceed 0, .proceed 0, .proceed 0, .proceed 0]

/-- A committed profile is overwritten by the bytes that a failed upload has saved. -/
theorem overtaken_upload_disagrees :
    ∃ store, (profileSystem nameCodec "resume.pdf").Reachable anyProfileStep store ∧
      store.Quiet ∧ ¬InAgreement nameCodec store := by
  refine ⟨runEnd performSample (fun _ _ => true) sampleStore overtakenUpload, ?_, ?_, ?_⟩
  · apply runEnd_reachable
    · intro before action after hstep
      exact hstep
    · intro _ _ _
      trivial
    · exact ⟨_, _, rfl⟩
  · apply quiet_of_none
    decide +kernel
  · intro hagree
    have hfile : (runEnd performSample (fun _ _ => true) sampleStore
        overtakenUpload).profileFile = some "Ruth" := by
      decide +kernel
    have hlatest : authoritativeText (runEnd performSample (fun _ _ => true) sampleStore
          overtakenUpload).original (runEnd performSample (fun _ _ => true) sampleStore
            overtakenUpload).versions = some "Ruth Cohen" := by
      decide +kernel
    have hsame := hfile.symm.trans (hagree.profile.trans hlatest)
    exact absurd (Option.some.inj hsame) (by decide)

/-- A check that implies that nothing disturbs the step: no other call is in progress. -/
def undisturbedAlone (store : ProfileStore) : ProfileAction → Bool
  | .proceed place =>
    ((List.range store.calls.length).all fun other =>
      other == place || (store.calls.entry other).isNone) &&
    (store.calls.entry place).all fun call =>
      call.upload.isSome || call.phase != .backingUp || store.profileFile == store.original
  | .fail place => (store.calls.entry place).all fun call => !call.mustNotFail
  | .commitAndRaise _ => false
  | _ => true

theorem undisturbed_of_alone (hcheck : undisturbedAlone store action = true) :
    Undisturbed store action := by
  cases action with
  | proceed place =>
    unfold undisturbedAlone at hcheck
    rw [Bool.and_eq_true, List.all_eq_true] at hcheck
    intro call hentry
    constructor
    · intro _ other found hother hfound
      have hindex : other < store.calls.length := by
        unfold Slots.entry at hfound
        rw [Option.join_eq_some_iff] at hfound
        exact (List.getElem?_eq_some_iff.mp hfound).1
      have hnone := hcheck.1 other (List.mem_range.mpr hindex)
      rw [hfound, Bool.or_eq_true, beq_iff_eq] at hnone
      rcases hnone with hsame | hfalse
      · exact absurd hsame hother
      · cases hfalse
    · intro hupload hphase
      have hread := hcheck.2
      rw [hentry, Option.all_some, hupload, hphase] at hread
      exact .inr (beq_iff_eq.mp hread)
  | fail place =>
    intro call hentry
    simp only [undisturbedAlone, hentry, Option.all_some, Bool.not_eq_true'] at hcheck
    exact hcheck
  | commitAndRaise place => cases hcheck
  | save profile | ingest upload | collide place => trivial

/-- An upload whose commit fails, and then one that succeeds. -/
def undoneUpload : List ProfileAction :=
  [.ingest sampleUpload, .proceed 0, .proceed 0, .proceed 0, .proceed 0, .proceed 0, .proceed 0,
    .proceed 0, .fail 0, .proceed 0, .proceed 0, .proceed 0, .proceed 0, .ingest sampleUpload,
    .proceed 1, .proceed 1, .proceed 1, .proceed 1, .proceed 1, .proceed 1, .proceed 1,
    .proceed 1, .proceed 1]

theorem profile_agrees_sample :
    (runEnd performSample undisturbedAlone sampleStore undoneUpload).versions.length = 1 ∧
      InAgreement nameCodec (runEnd performSample undisturbedAlone sampleStore undoneUpload) := by
  refine ⟨by decide +kernel, profile_agrees (?_ :
    (profileSystem nameCodec "resume.pdf").Reachable Undisturbed _) (quiet_of_none ?_)⟩
  · apply runEnd_reachable
    · intro before action after hstep
      exact hstep
    · intro store action hcheck
      exact undisturbed_of_alone hcheck
    · exact ⟨_, _, rfl⟩
  · decide +kernel

end JobApplyAgent.Profile
