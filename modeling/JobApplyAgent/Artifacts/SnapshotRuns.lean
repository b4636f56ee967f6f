import JobApplyAgent.Artifacts.Snapshot
import JobApplyAgent.Library.Utf8

/-!
# Calls that publish a snapshot

Any number of calls for one policy, one file operation after the other.  An operation may fail,
and a call may end between any two of them.  Whatever the live files do meanwhile, only a whole
and exact directory gets the name of the policy, and it keeps it.
-/

namespace JobApplyAgent.Artifacts

open Domain Library Store

/-! ## One call -/

/-- Where a call of `materialize_policy_artifact_snapshot` stands. -/
inductive Phase where
  | starting
  | absent
  | preparing (artifacts : List SelectedCVArtifact)
  /-- The manifest to come, the copies to be made, and what is written of the first one. -/
  | copying (manifest : Bytes) (rest : List Copy) (written : Option Bytes)
  /-- What is written of the manifest, and the rest of it. -/
  | listing (written rest : Bytes)
  | verifying
  | publishing
  /-- The target was there already, and the own directory is being removed. -/
  | losing
  | loading (staged : Bool)
  /-- `_remove_staging`, after an error. -/
  | removing
  | returned (snapshot : AutomationArtifactSnapshot)
  | raised
  | crashed
  deriving DecidableEq

/-- One operation of a call. -/
inductive Move where
  | look
  | readSources (live : LiveFiles)
  | stage
  | openCopy
  | copyChunk (data : Bytes)
  | closeCopy
  | openManifest
  | writeManifest (count : ℕ)
  | closeManifest
  | verify
  | rename
  | unlink (path : String)
  | rmdir
  | reload
  | fail
  | crash

/-- The target directory, and the staging directory of one call.  `mkdtemp` gives every call a
name of its own. -/
structure Room where
  target : Option Files
  own : Option Files

def Room.put (room : Room) (path : String) (bytes : Option Bytes) : Room :=
  { room with own := room.own.map fun files => Function.update files path bytes }

section Calls

variable (formats : ArtifactFormats) (policy : AutoSubmitPolicyV1)

/-- What an operation does to the call and to the two directories. -/
def move (room : Room) : Phase → Move → Option (Phase × Room)
  | .returned _, _ | .raised, _ | .crashed, _ => none
  | _, .crash => some (.crashed, room)
  | .starting, .look => some (if room.target.isSome then .loading false else .absent, room)
  | .absent, .readSources live =>
    match policyArtifacts formats policy live with
    | .ok artifacts => some (.preparing artifacts, room)
    | .error _ => some (.raised, room)
  | .preparing artifacts, .stage =>
    some (.copying (manifest formats policy artifacts) (copies artifacts) none,
      { room with own := some fun _ => none })
  | .copying text (copy :: rest) none, .openCopy =>
    some (.copying text (copy :: rest) (some []), room.put copy.destination (some []))
  | .copying text (copy :: rest) (some written), .copyChunk data =>
    some (.copying text (copy :: rest) (some (written ++ data)),
      room.put copy.destination (some (written ++ data)))
  | .copying text (copy :: rest) (some written), .closeCopy =>
    if copy.expectedSha256.all fun expected => formats.sha256 written == expected then
      some (.copying text rest none, room)
    else some (.removing, room)
  | .copying text [] none, .openManifest =>
    some (.listing [] text, room.put manifestPath (some []))
  | .listing written rest, .writeManifest count =>
    some (.listing (written ++ rest.take count) (rest.drop count),
      room.put manifestPath (some (written ++ rest.take count)))
  | .listing _ [], .closeManifest => some (.verifying, room)
  | .verifying, .verify =>
    match loadSnapshot formats policy room.own true none with
    | .ok _ => some (.publishing, room)
    | .error _ => some (.removing, room)
  | .publishing, .rename =>
    match room.target with
    | none => some (.loading true, ⟨room.own, none⟩)
    | some _ => some (.losing, room)
  | .losing, .unlink path => some (.losing, room.put path none)
  | .removing, .unlink path => some (.removing, room.put path none)
  | .losing, .rmdir => some (.loading true, { room with own := none })
  | .removing, .rmdir => some (.raised, { room with own := none })
  | .loading staged, .reload =>
    match loadSnapshot formats policy room.target true none with
    | .ok snapshot => some (.returned snapshot, room)
    | .error _ => some (if staged then .removing else .raised, room)
  | .publishing, .fail => some (if room.target.isSome then .losing else .removing, room)
  | .starting, .fail | .absent, .fail | .preparing _, .fail | .loading false, .fail
  | .removing, .fail => some (.raised, room)
  | _, .fail => some (.removing, room)
  | _, _ => none

/-! ## All calls -/

structure SnapshotState where
  target : Option Files
  staged : ℕ → Option Files
  calls : List Phase

def SnapshotState.room (state : SnapshotState) (index : ℕ) : Room :=
  ⟨state.target, state.staged index⟩

inductive SnapshotAction where
  | call
  | move (index : ℕ) (move : Move)

def performSnapshot (state : SnapshotState) : SnapshotAction → Option SnapshotState
  | .call => some { state with calls := state.calls ++ [.starting] }
  | .move index step =>
    (state.calls[index]?).bind fun phase =>
      (move formats policy (state.room index) phase step).map fun next =>
        { target := next.2.target
          staged := Function.update state.staged index next.2.own
          calls := state.calls.set index next.1 }

/-- At first nothing is published. -/
def SnapshotInitial (state : SnapshotState) : Prop :=
  state.target = none ∧ state.calls = []

def snapshotSystem : TransitionSystem SnapshotState SnapshotAction where
  initial := SnapshotInitial
  step before action after := performSnapshot formats policy before action = some after

end Calls

/-! ## One operation -/

section Moves

variable (formats : ArtifactFormats) (policy : AutoSubmitPolicyV1)

/-- A directory that `_load_snapshot` verifies. -/
def Loads (found : Option Files) : Prop :=
  ∃ snapshot, loadSnapshot formats policy found true none = .ok snapshot

/-- What holds of the directories where a call stands. -/
def PhaseOk (room : Room) : Phase → Prop
  | .publishing => Loads formats policy room.own
  | .losing | .loading _ => room.target.isSome = true
  | .returned snapshot => loadSnapshot formats policy room.target true none = .ok snapshot
  | _ => True

/-- The published directory stays as it is. -/
def Keeps (before after : Option Files) : Prop :=
  before = none ∨ after = before

variable {formats policy} {room : Room}

theorem Keeps.some (hkeeps : Keeps before after)
    (hbefore : before.isSome = true) : after = before := by
  rcases hkeeps with rfl | hsame
  · cases hbefore
  · exact hsame

/-- A call stands as well where it stood after another one has moved. -/
theorem PhaseOk.keeps (hok : PhaseOk formats policy room phase)
    (hkeeps : Keeps room.target target) : PhaseOk formats policy ⟨target, room.own⟩ phase := by
  cases phase with
  | losing => exact (hkeeps.some hok).symm ▸ hok
  | loading => exact (hkeeps.some hok).symm ▸ hok
  | returned snapshot =>
    have hsome : room.target.isSome = true := by
      obtain ⟨files, hfiles, _⟩ := load_eq_ok hok
      rw [hfiles]
      rfl
    exact (hkeeps.some hsome).symm ▸ hok
  | _ => exact hok

/-- What one operation does. -/
structure MoveOk (formats : ArtifactFormats) (policy : AutoSubmitPolicyV1) (room next : Room)
    (phase moved : Phase) : Prop where
  stands : PhaseOk formats policy next moved
  keeps : Keeps room.target next.target
  /-- Only a verified directory is published, as a whole. -/
  publishes : next.target = room.target ∨
    phase = .publishing ∧ next.target = room.own ∧ Loads formats policy room.own

theorem moveOk_same (hstands : PhaseOk formats policy room moved) :
    MoveOk formats policy room room phase moved :=
  ⟨hstands, .inr rfl, .inl rfl⟩

theorem move_ok (hok : PhaseOk formats policy room phase)
    (hmove : move formats policy room phase step = some (moved, next)) :
    MoveOk formats policy room next phase moved := by
  revert hmove
  fun_cases move formats policy room phase step <;> intro hmove <;> cases hmove
  case case5 =>
    cases htarget : room.target.isSome with
    | true => exact moveOk_same htarget
    | false => exact moveOk_same trivial
  case case16 snapshot hload => exact moveOk_same ⟨snapshot, hload⟩
  case case18 hnone =>
    obtain ⟨snapshot, hload⟩ := hok
    obtain ⟨files, hfiles, _⟩ := load_eq_ok hload
    refine ⟨?_, .inl hnone, .inr ⟨rfl, rfl, snapshot, hload⟩⟩
    simp only [PhaseOk, hfiles, Option.isSome_some]
  case case19 hsome => exact moveOk_same (Option.isSome_of_eq_some hsome)
  case case20 => exact ⟨hok, .inr rfl, .inl rfl⟩
  case case22 => exact ⟨hok, .inr rfl, .inl rfl⟩
  case case24 snapshot hload => exact moveOk_same hload
  case case25 staged _ _ => cases staged <;> exact moveOk_same trivial
  case case26 =>
    cases htarget : room.target.isSome with
    | true => exact moveOk_same htarget
    | false => exact moveOk_same trivial
  -- no other operation looks at the target or verifies a directory
  all_goals exact ⟨trivial, .inr rfl, .inl rfl⟩

/-- A call that cannot publish: it is about to verify a wrong directory, or it has failed. -/
def Wrong (formats : ArtifactFormats) (policy : AutoSubmitPolicyV1) (room : Room) : Phase → Prop
  | .verifying => ¬ Loads formats policy room.own
  | .removing | .raised | .crashed => True
  | _ => False

theorem wrong_move (hwrong : Wrong formats policy room phase)
    (hmove : move formats policy room phase step = some (moved, next)) :
    Wrong formats policy next moved ∧ next.target = room.target := by
  revert hmove
  fun_cases move formats policy room phase step <;> intro hmove <;> cases hmove
  case case16 snapshot hload => exact absurd ⟨snapshot, hload⟩ hwrong
  all_goals first
    | exact hwrong.elim
    | exact ⟨trivial, rfl⟩

/-- A call that reads what another one has published, or has returned it. -/
def Follows (snapshot : AutomationArtifactSnapshot) : Phase → Prop
  | .losing | .loading _ => True
  | .returned found => found = snapshot
  | _ => False

theorem follows_move (hfollows : Follows snapshot phase)
    (hload : loadSnapshot formats policy room.target true none = .ok snapshot)
    (hfail : step ≠ .fail) (hcrash : step ≠ .crash)
    (hmove : move formats policy room phase step = some (moved, next)) :
    Follows snapshot moved ∧ next.target = room.target := by
  revert hmove
  fun_cases move formats policy room phase step <;> intro hmove <;> cases hmove
  case case24 found hfound =>
    rw [hload] at hfound
    exact ⟨(Except.ok.inj hfound).symm, rfl⟩
  case case25 _ herror =>
    rw [hload] at herror
    cases herror
  all_goals first
    | exact hfollows.elim
    | exact absurd rfl hcrash
    | exact absurd rfl hfail
    | exact ⟨trivial, rfl⟩

end Moves

/-! ## Runs -/

section Runs

variable (formats : ArtifactFormats) (policy : AutoSubmitPolicyV1)

/-- What is published is verified, and every call stands as it should. -/
structure SnapshotsOk (state : SnapshotState) : Prop where
  target : state.target = none ∨ Loads formats policy state.target
  calls : ∀ index phase, state.calls[index]? = some phase →
    PhaseOk formats policy (state.room index) phase

/-- The runs of the calls in which an operation is allowed by a guard. -/
abbrev SnapshotPath (guard : SnapshotState → SnapshotAction → Prop) :
    SnapshotState → SnapshotState → Prop :=
  (snapshotSystem formats policy).Path guard

def anyOperation : SnapshotState → SnapshotAction → Prop :=
  fun _ _ => True

/-- No operation of the call fails or is its last one. -/
def completes (index : ℕ) : SnapshotState → SnapshotAction → Prop :=
  fun _ action => action ≠ .move index .fail ∧ action ≠ .move index .crash

variable {formats policy} {state : SnapshotState}

theorem performSnapshot_move
    (hperform : performSnapshot formats policy before (.move index step) = some after) :
    ∃ phase moved next, before.calls[index]? = some phase ∧
      move formats policy (before.room index) phase step = some (moved, next) ∧
        after = ⟨next.target, Function.update before.staged index next.own,
          before.calls.set index moved⟩ := by
  simp only [performSnapshot, Option.bind_eq_some_iff, Option.map_eq_some_iff] at hperform
  obtain ⟨phase, hphase, ⟨moved, next⟩, hmove, rfl⟩ := hperform
  exact ⟨phase, moved, next, hphase, hmove, rfl⟩

section

variable (hok : SnapshotsOk formats policy before)
include hok

/-- Where a call stands behind an operation: it has moved, or the directories around it may
have. -/
theorem stands_after (hperform : performSnapshot formats policy before action = some after)
    (hphase : before.calls[index]? = some phase) :
    (∃ step moved, action = .move index step ∧ after.calls[index]? = some moved ∧
      move formats policy (before.room index) phase step = some (moved, after.room index)) ∨
    (∀ step, action ≠ .move index step) ∧ after.calls[index]? = some phase ∧
      after.staged index = before.staged index ∧ Keeps before.target after.target := by
  have hindex := (List.getElem?_eq_some_iff.mp hphase).1
  cases action with
  | call =>
    cases hperform
    refine .inr ⟨fun _ => nofun, ?_, rfl, .inr rfl⟩
    rw [List.getElem?_append_left hindex, hphase]
  | move other step =>
    obtain ⟨found, moved, next, hfound, hmove, rfl⟩ := performSnapshot_move hperform
    by_cases hsame : other = index
    · subst hsame
      rw [hphase] at hfound
      cases hfound
      refine .inl ⟨step, moved, rfl, List.getElem?_set_self hindex, ?_⟩
      rw [hmove, SnapshotState.room]
      simp only [Function.update_self]
    · refine .inr ⟨fun found heq => hsame (SnapshotAction.move.inj heq).1, ?_, ?_, ?_⟩
      · rw [List.getElem?_set_ne hsame, hphase]
      · exact Function.update_of_ne (Ne.symm hsame) _ _
      · exact (move_ok (hok.calls other found hfound) hmove).keeps

theorem keeps_step (hperform : performSnapshot formats policy before action = some after) :
    Keeps before.target after.target := by
  cases action with
  | call =>
    cases hperform
    exact .inr rfl
  | move index step =>
    obtain ⟨phase, moved, next, hphase, hmove, rfl⟩ := performSnapshot_move hperform
    exact (move_ok (hok.calls index phase hphase) hmove).keeps

theorem snapshotsOk_step (hperform : performSnapshot formats policy before action = some after) :
    SnapshotsOk formats policy after where
  target := by
    cases action with
    | call =>
      cases hperform
      exact hok.target
    | move index step =>
      obtain ⟨phase, moved, next, hphase, hmove, rfl⟩ := performSnapshot_move hperform
      rcases (move_ok (hok.calls index phase hphase) hmove).publishes with hsame | ⟨_, hown, hloads⟩
      · exact hsame ▸ hok.target
      · exact .inr (hown ▸ hloads)
  calls index phase hphase := by
    cases hbefore : before.calls[index]? with
    | none =>
      -- the call has begun with this step
      cases action with
      | call =>
        cases hperform
        rw [List.getElem?_append_right (List.getElem?_eq_none_iff.mp hbefore)] at hphase
        rw [List.mem_singleton.mp (List.mem_of_getElem? hphase)]
        trivial
      | move other step =>
        obtain ⟨_, _, _, _, _, rfl⟩ := performSnapshot_move hperform
        rw [List.getElem?_eq_none_iff] at hbefore
        rw [List.getElem?_eq_none_iff.mpr (by rw [List.length_set]; exact hbefore)] at hphase
        cases hphase
    | some old =>
      rcases stands_after hok hperform hbefore with
        ⟨step, moved, _, hmoved, hmove⟩ | ⟨_, hsame, hown, hkeeps⟩
      · rw [hmoved] at hphase
        cases hphase
        exact (move_ok (hok.calls index old hbefore) hmove).stands
      · rw [hsame, Option.some.injEq] at hphase
        have hstands := (hok.calls index old hbefore).keeps hkeeps
        rw [← hphase, SnapshotState.room, hown]
        exact hstands

end

theorem snapshots_invariant (guard : SnapshotState → SnapshotAction → Prop) :
    (snapshotSystem formats policy).Invariant guard (SnapshotsOk formats policy) where
  init state hinitial := by
    refine ⟨.inl hinitial.1, fun index phase hphase => ?_⟩
    rw [hinitial.2] at hphase
    cases hphase
  step _ _ _ hok _ hstep := snapshotsOk_step hok hstep

section

variable (hok : SnapshotsOk formats policy before)
include hok

theorem keeps_path (hpath : SnapshotPath formats policy anyOperation before after) :
    Keeps before.target after.target := by
  induction hpath with
  | refl => exact .inr rfl
  | tail hhead hnext ih =>
    obtain ⟨label, _, hstep⟩ := hnext
    have hmiddle := (snapshots_invariant anyOperation).path hok hhead
    rcases ih with hnone | hsame
    · exact .inl hnone
    · exact hsame ▸ keeps_step hmiddle hstep

theorem wrong_path (hphase : before.calls[index]? = some phase)
    (hwrong : Wrong formats policy (before.room index) phase)
    (hpath : SnapshotPath formats policy anyOperation before after) :
    ∃ moved, after.calls[index]? = some moved ∧
      Wrong formats policy (after.room index) moved := by
  induction hpath with
  | refl => exact ⟨phase, hphase, hwrong⟩
  | tail hhead hnext ih =>
    obtain ⟨label, _, hstep⟩ := hnext
    obtain ⟨moved, hmoved, hstill⟩ := ih
    have hmiddle := (snapshots_invariant anyOperation).path hok hhead
    rcases stands_after hmiddle hstep hmoved with
      ⟨_, next, _, hnext, hmove⟩ | ⟨_, hsame, hown, _⟩
    · exact ⟨next, hnext, (wrong_move hstill hmove).1⟩
    · refine ⟨moved, hsame, ?_⟩
      cases moved with
      | verifying =>
        rw [Wrong, SnapshotState.room, hown]
        exact hstill
      | _ => exact hstill

/-- A call that follows a published directory returns it. -/
theorem follows_path (hphase : before.calls[index]? = some phase)
    (hfollows : Follows snapshot phase)
    (hload : loadSnapshot formats policy before.target true none = .ok snapshot)
    (hpath : SnapshotPath formats policy (completes index) before after) :
    loadSnapshot formats policy after.target true none = .ok snapshot ∧
      ∃ moved, after.calls[index]? = some moved ∧ Follows snapshot moved := by
  induction hpath with
  | refl => exact ⟨hload, phase, hphase, hfollows⟩
  | tail hhead hnext ih =>
    obtain ⟨label, hguard, hstep⟩ := hnext
    obtain ⟨hloads, moved, hmoved, hstill⟩ := ih
    have hmiddle := (snapshots_invariant (completes index)).path hok hhead
    rcases stands_after hmiddle hstep hmoved with
      ⟨step, next, rfl, hnext, hmove⟩ | ⟨_, hsame, _, hkeeps⟩
    · obtain ⟨hnow, htarget⟩ := follows_move hstill hloads
        (fun hfail => hguard.1 (by rw [hfail])) (fun hcrash => hguard.2 (by rw [hcrash])) hmove
      exact ⟨by rw [← hloads]; exact congrArg (loadSnapshot formats policy · true none) htarget,
        next, hnext, hnow⟩
    · obtain ⟨files, hfiles, _⟩ := load_eq_ok hloads
      rw [hkeeps.some (Option.isSome_of_eq_some hfiles)]
      exact ⟨hloads, moved, hsame, hstill⟩

end

end Runs

/-! ## Published whole or not at all -/

/-- What holds in a state of the calls for one policy, and from it on. -/
structure PublishedWhole (formats : ArtifactFormats) (policy : AutoSubmitPolicyV1)
    (state : SnapshotState) : Prop where
  exact : ∀ files, state.target = some files → ∃ snapshot, Exact formats policy files snapshot
  stays : ∀ later, SnapshotPath formats policy anyOperation state later →
    ∀ files, state.target = some files → later.target = some files
  returns : ∀ (index : ℕ) snapshot, state.calls[index]? = some (Phase.returned snapshot) →
    ∃ files, state.target = some files ∧ Exact formats policy files snapshot
  /-- One operation puts the whole staging directory in place. -/
  publishes : ∀ index step after,
    performSnapshot formats policy state (.move index step) = some after →
      after.target = state.target ∨ state.target = none ∧ ∃ files snapshot,
        state.staged index = some files ∧ after.target = some files ∧
          Exact formats policy files snapshot
  /-- A call whose copies are not those of the policy fails, and publishes nothing. -/
  changed : ∀ (index : ℕ) phase, state.calls[index]? = some phase →
    (phase = .removing ∨ phase = .verifying ∧ ∀ files snapshot,
      state.staged index = some files → ¬ Exact formats policy files snapshot) →
    ∀ later, SnapshotPath formats policy anyOperation state later →
      (later.calls[index]? = some .verifying ∨ later.calls[index]? = some .removing ∨
        later.calls[index]? = some .raised ∨ later.calls[index]? = some .crashed) ∧
      ∀ step after, performSnapshot formats policy later (.move index step) = some after →
        after.target = later.target
  /-- A call that loses has the published directory returned, if its own operations succeed. -/
  loses : ∀ index : ℕ, state.calls[index]? = some .losing →
    ∃ files snapshot, state.target = some files ∧ Exact formats policy files snapshot ∧
      (∀ later, SnapshotPath formats policy (completes index) state later →
        later.calls[index]? = some .losing ∨
          (∃ staged, later.calls[index]? = some (Phase.loading staged)) ∨
            later.calls[index]? = some (.returned snapshot)) ∧
      ∃ after, TransitionSystem.runWhile (performSnapshot formats policy) (fun _ _ => true) state
          [.move index .rmdir, .move index .reload] = some after ∧
        after.calls[index]? = some (Phase.returned snapshot)
  resolves : ∀ cvId expectedSha256 selected snapshotId,
    resolveSelectedCvArtifactSnapshot formats policy state.target cvId expectedSha256 =
      .ok (selected, snapshotId) →
    ∃ files cvs bytes, state.target = some files ∧
      cvManifestDigest formats cvs = policy.cvManifestDigest ∧ (cvId, expectedSha256) ∈ cvs ∧
        files selected.resolvedPath = some bytes ∧ formats.sha256 bytes = expectedSha256 ∧
          selected.cvId = cvId ∧ selected.pdfSha256 = expectedSha256

section Whole

variable {state : SnapshotState}

theorem SnapshotsOk.publishes (hok : SnapshotsOk formats policy state)
    (hperform : performSnapshot formats policy state (.move index step) = some after) :
    after.target = state.target ∨ state.target = none ∧ ∃ files snapshot,
      state.staged index = some files ∧ after.target = some files ∧
        Exact formats policy files snapshot := by
  have hkeeps := keeps_step hok hperform
  obtain ⟨phase, moved, next, hphase, hmove, rfl⟩ := performSnapshot_move hperform
  rcases (move_ok (hok.calls index phase hphase) hmove).publishes with
    hsame | ⟨_, hown, snapshot, hload⟩
  · exact .inl hsame
  · obtain ⟨files, hfiles, hexact⟩ := exact_of_load hload
    rcases hkeeps with hnone | hsame
    · exact .inr ⟨hnone, files, snapshot, hfiles, hown.trans hfiles, hexact⟩
    · exact .inl hsame

theorem wrong_of_changed (hchanged : phase = .removing ∨ phase = .verifying ∧ ∀ files snapshot,
      state.staged index = some files → ¬ Exact formats policy files snapshot) :
    Wrong formats policy (state.room index) phase := by
  rcases hchanged with rfl | ⟨rfl, hwrong⟩
  · trivial
  · rintro ⟨snapshot, hload⟩
    obtain ⟨files, hfiles, hexact⟩ := exact_of_load hload
    exact hwrong files snapshot hfiles hexact

theorem SnapshotsOk.changed (hok : SnapshotsOk formats policy state)
    (hphase : state.calls[index]? = some phase)
    (hwrong : Wrong formats policy (state.room index) phase)
    (hpath : SnapshotPath formats policy anyOperation state later) :
    (later.calls[index]? = some .verifying ∨ later.calls[index]? = some .removing ∨
      later.calls[index]? = some .raised ∨ later.calls[index]? = some .crashed) ∧
    ∀ step after, performSnapshot formats policy later (.move index step) = some after →
      after.target = later.target := by
  obtain ⟨moved, hmoved, hstill⟩ := wrong_path hok hphase hwrong hpath
  constructor
  · rw [hmoved]
    cases moved <;> simp_all [Wrong]
  · intro step after hperform
    obtain ⟨found, _, _, hfound, hmove, rfl⟩ := performSnapshot_move hperform
    rw [hmoved] at hfound
    cases hfound
    exact (wrong_move hstill hmove).2

/-- The two operations that a losing call still makes. -/
theorem loser_returns (hphase : state.calls[index]? = some .losing)
    (hload : loadSnapshot formats policy state.target true none = .ok snapshot) :
    ∃ after, TransitionSystem.runWhile (performSnapshot formats policy) (fun _ _ => true) state
        [.move index .rmdir, .move index .reload] = some after ∧
      after.calls[index]? = some (.returned snapshot) := by
  have hindex := (List.getElem?_eq_some_iff.mp hphase).1
  let middle : SnapshotState := ⟨state.target, Function.update state.staged index none,
    state.calls.set index (.loading true)⟩
  have hloading : middle.calls[index]? = some (.loading true) := List.getElem?_set_self hindex
  have hfirst : performSnapshot formats policy state (.move index .rmdir) = some middle := by
    simp only [performSnapshot, hphase, Option.bind_some]
    rfl
  let last : SnapshotState := ⟨state.target, Function.update middle.staged index
    (middle.staged index), middle.calls.set index (.returned snapshot)⟩
  have hsecond : performSnapshot formats policy middle (.move index .reload) = some last := by
    simp only [performSnapshot, hloading, Option.bind_some, move, SnapshotState.room, middle,
      hload, Option.map_some, last]
  refine ⟨last, ?_, List.getElem?_set_self (List.getElem?_eq_some_iff.mp hloading).1⟩
  simp only [TransitionSystem.runWhile, hfirst, hsecond, if_true, Option.bind_some]

/-- In every run for a policy the snapshot is published whole and exact, or not at all. -/
theorem snapshots_whole (formats : ArtifactFormats) (policy : AutoSubmitPolicyV1)
    (hreach : (snapshotSystem formats policy).Reachable anyOperation state) :
    PublishedWhole formats policy state := by
  have hok := (snapshots_invariant anyOperation).reachable hreach
  exact {
    exact := by
      intro files hfiles
      rcases hok.target with hnone | ⟨snapshot, hload⟩
      · rw [hfiles] at hnone
        cases hnone
      · obtain ⟨found, hfound, hexact⟩ := exact_of_load hload
        rw [hfiles] at hfound
        cases hfound
        exact ⟨snapshot, hexact⟩
    stays := by
      intro later hpath files hfiles
      rw [← hfiles]
      exact (keeps_path hok hpath).some (Option.isSome_of_eq_some hfiles)
    returns := fun index snapshot hreturned => exact_of_load (hok.calls index _ hreturned)
    publishes := fun _ _ _ hperform => hok.publishes hperform
    changed := fun _ _ hphase hchanged _ hpath =>
      hok.changed hphase (wrong_of_changed hchanged) hpath
    loses := by
      intro index hlosing
      have hsome : state.target.isSome = true := hok.calls index _ hlosing
      obtain hnone | ⟨snapshot, hload⟩ := hok.target
      · rw [hnone] at hsome
        cases hsome
      · obtain ⟨files, hfiles, hexact⟩ := exact_of_load hload
        refine ⟨files, snapshot, hfiles, hexact, fun later hpath => ?_,
          loser_returns hlosing hload⟩
        obtain ⟨_, moved, hmoved, hfollows⟩ := follows_path hok hlosing trivial hload hpath
        rw [hmoved]
        cases moved <;> simp_all [Follows]
    resolves := fun _ _ _ _ hresolved => resolve_eq_ok hresolved }

end Whole

/-! ### A routing file that changes

One CV, with the digests that its files have.  The routing file gets a remark between its first
reading and its copy. -/

mutual

def compactText : Json ℚ → List Char
  | .text value => JsonText.quoted value.toList
  | .array items => JsonText.array (compactItems items)
  | .object members => '\x7b' :: (JsonText.closing (compactMembers members)).tail.dropLast
    ++ ['\x7d']
  | .null => "null".toList
  | .bool value => (if value then "true" else "false").toList
  | .number value => (toString value).toList

def compactItems : List (Json ℚ) → List (List Char)
  | [] => []
  | item :: items => compactText item :: compactItems items

def compactMembers : List (String × Json ℚ) → List (List Char)
  | [] => []
  | (name, value) :: members =>
    (JsonText.quoted name.toList ++ ':' :: compactText value) :: compactMembers members

end

def bytesOf (pieces : List String) : Bytes :=
  pieces.flatMap fun piece => utf8 piece.toList

def pdfBytes : Bytes := bytesOf ["%PDF-1.7"]

def pdfSha256 : String := "86edbaa24831badfa0a8b04bb410141e2ee4182b6d0014493fe262a7a331c20b"

def routingDigest : String := "f876177a0dd93596182a92521355b61580e1a5ea3e92c09b32da96df4a4f1434"

def manifestDigest : String := "3e841a1ee8ec0867fcd0452e859763d239f9a4ffc5ed9ae8c1ef375d3d8e25d1"

def fitDigest : String := "10b01778ae2b3789ce6cdc0f22bae9527efe3c45ccb5d03ada500e42388d97e7"

def snapshotDigest : String := "231c3aeaa753645626144ba049c1917183ba030808c6503fc1c8b39f9258ddc8"

def routingText : Bytes := bytesOf ["cvs:\n", "- id: a\n", "  file: a.pdf\n"]

def remarkedText : Bytes := routingText ++ bytesOf ["# reviewed\n"]

def fitText : Bytes :=
  bytesOf ["\x7b\"algorithm_version\":\"job-fit.v1\",", "\"created_at\":",
    "\"2026-01-01T00:00:00Z\",", "\"cv_manifest_digest\":\"", manifestDigest, "\",",
    "\"dataset_digest\":\"", String.ofList (List.replicate 64 '0'), "\",",
    "\"holdout_cases\":48,", "\"holdout_coverage\":1.0,", "\"holdout_precision\":1.0,",
    "\"labeled_cases\":240,", "\"qualified\":true,", "\"routing_config_digest\":\"",
    routingDigest, "\",", "\"schema_version\":", "\"fit-qualification.v1\",",
    "\"thresholds\":\x7b", "\"minimum_fit_score\":85.0,", "\"minimum_routing_confidence\":0.55,",
    "\"minimum_routing_margin\":0.08", "\x7d\x7d"]

def samplePolicy : AutoSubmitPolicyV1 where
  policyId := "policy"
  revision := 1
  roleFamilies := ["backend"]
  geographies := [.israel]
  minimumFitScore := 85
  dailyLimit := 10
  hourlyLimit := 5
  companyLimit := 1
  permittedAdapters := []
  qualifiedFormContracts := []
  profileVersion := 1
  routingConfigDigest := routingDigest
  cvManifestDigest := manifestDigest
  fitQualificationDigest := fitDigest
  confirmedAnswerRevision := "answers"
  activatedAt := 0
  expiresAt := 3600
  payloadDigest := "payload"

def sampleManifest : Json ℚ :=
  .object [("cv_manifest_digest", .text manifestDigest),
    ("cvs", .array [.object [("cv_id", .text "a"), ("path", .text "cvs/000.pdf"),
      ("pdf_sha256", .text pdfSha256)]]),
    ("fit_qualification_digest", .text fitDigest),
    ("fit_qualification_path", .text qualificationPath),
    ("routing_config_digest", .text routingDigest), ("routing_config_path", .text routingPath),
    ("schema_version", .text schemaVersion), ("snapshot_id", .text snapshotDigest)]

/-- The digests of the CV, of the list of CVs and of the id of the snapshot. -/
def knownDigests : List (Bytes × String) :=
  [(pdfBytes, pdfSha256),
    (bytesOf ["[\x7b\"cv_id\":\"a\",", "\"pdf_sha256\":\"", pdfSha256, "\"\x7d]"], manifestDigest),
    (bytesOf ["\x7b\"cv_manifest_digest\":\"", manifestDigest, "\",",
      "\"fit_qualification_digest\":\"",
      fitDigest, "\",\"routing_config_digest\":\"", routingDigest, "\",\"schema_version\":\"",
      schemaVersion, "\"\x7d"], snapshotDigest)]

def sampleFormats : ArtifactFormats where
  sha256 data := ((knownDigests.find? fun known => known.1 == data).map Prod.snd).getD ""
  dumps payload := utf8 (compactText payload)
  loads text := if text = utf8 (compactText sampleManifest) ++ [10] then some
    sampleManifest else none
  str _ := ""
  loadRoutingConfig text :=
    if text = routingText ∨ text = remarkedText then
      some ⟨[⟨"a", "a.pdf"⟩], routingDigest, by decide⟩
    else none
  loadFitQualification text :=
    if text = fitText then some ⟨routingDigest, manifestDigest, true, fitDigest⟩ else none
  extracts _ := true

def sampleLive : LiveFiles where
  routing := routingText
  qualification := fitText
  cv path := if path = "a.pdf" then some pdfBytes else none

/-- A call that reads the live files, and copies what it finds later. -/
def callMoves (live : LiveFiles) (copied : List Bytes) : List Move :=
  [.look, .readSources live, .stage]
    ++ copied.flatMap (fun data => [.openCopy, .copyChunk data, .closeCopy])
    ++ [.openManifest, .writeManifest maxManifestBytes, .closeManifest, .verify, .rename, .reload]

def noSnapshots : SnapshotState := ⟨none, fun _ => none, []⟩

theorem run_reachable (actions : List SnapshotAction) :
    (snapshotSystem sampleFormats samplePolicy).Reachable anyOperation
      (TransitionSystem.runEnd (performSnapshot sampleFormats samplePolicy) (fun _ _ => true)
        noSnapshots actions) := by
  have hinitial : (snapshotSystem sampleFormats samplePolicy).initial noSnapshots := ⟨rfl, rfl⟩
  exact TransitionSystem.runEnd_reachable (fun _ _ _ hperform => hperform)
    (fun _ _ _ => trivial) hinitial _

def remarkedRun : SnapshotState :=
  TransitionSystem.runEnd (performSnapshot sampleFormats samplePolicy) (fun _ _ => true) noSnapshots
    (.call :: (callMoves sampleLive [remarkedText, fitText, pdfBytes]).map (.move 0))

theorem remarkedRun_ends :
    (remarkedRun.target.map fun files => files routingPath) = some (some remarkedText) ∧
      remarkedRun.calls = [.returned ⟨snapshotDigest, [⟨"a", pdfSha256, "cvs/000.pdf"⟩]⟩] := by
  decide +kernel

/-- The second call has staged copies of its own before the first one publishes. -/
def racedRun : SnapshotState :=
  TransitionSystem.runEnd (performSnapshot sampleFormats samplePolicy) (fun _ _ => true) noSnapshots
    (.call :: .call ::
      ((callMoves sampleLive [routingText, fitText, pdfBytes]).take 16).map (.move 1) ++
      (callMoves sampleLive [remarkedText, fitText, pdfBytes]).map (.move 0) ++
      [.rename, .unlink manifestPath, .rmdir, .reload].map (.move 1))

theorem snapshots_whole_remarked :
    (racedRun.target.map fun files => files routingPath) = some (some remarkedText) ∧
      racedRun.calls = List.replicate 2
        (.returned ⟨snapshotDigest, [⟨"a", pdfSha256, "cvs/000.pdf"⟩]⟩) ∧
      PublishedWhole sampleFormats samplePolicy racedRun :=
  and_assoc.mp
    ⟨by decide +kernel, snapshots_whole sampleFormats samplePolicy (run_reachable _)⟩

/-- The routing file has changed between its reading and its copy; the call returns and has
published the copy. -/
theorem changed_source_published :
    (snapshotSystem sampleFormats samplePolicy).Reachable anyOperation remarkedRun ∧
      sampleLive.routing ≠ remarkedText ∧
      (remarkedRun.target.map fun files => files routingPath) = some (some remarkedText) ∧
        remarkedRun.calls = [.returned ⟨snapshotDigest, [⟨"a", pdfSha256, "cvs/000.pdf"⟩]⟩] :=
  ⟨run_reachable _, by decide +kernel, remarkedRun_ends⟩

end JobApplyAgent.Artifacts
