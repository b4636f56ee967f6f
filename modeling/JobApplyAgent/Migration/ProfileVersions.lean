import JobApplyAgent.Library.Rows

/-!
# Profile version numbers

The old schema let two stored profiles carry one version number.  The upgrade keeps
each number with its row of lowest id and moves every later row to a number above all
others; an archive row says which number it had, and the downgrade writes it back.
-/

namespace JobApplyAgent.Migration

open Library

structure ProfileVersion where
  id : ℕ
  version : ℤ
  deriving DecidableEq

/-- A row of `_submission_domain_profile_version_state`. -/
structure ProfileVersionState where
  profileVersionId : ℕ
  originalVersion : ℤ

def ProfileVersion.renumber (row : ProfileVersion) (version : ℤ) : ProfileVersion :=
  { row with version }

@[simp]
theorem ProfileVersion.version_renumber (row : ProfileVersion) (version : ℤ) :
    (row.renumber version).version = version := rfl

/-- `ORDER BY version, id`. -/
def ProfileVersion.Precedes (first second : ProfileVersion) : Prop :=
  first.version < second.version ∨ first.version = second.version ∧ first.id ≤ second.id

instance : DecidableRel ProfileVersion.Precedes :=
  fun _ _ => inferInstanceAs (Decidable (_ ∨ _))

instance : Std.Total ProfileVersion.Precedes where
  total first second := by
    unfold ProfileVersion.Precedes
    omega

instance : IsTrans ProfileVersion ProfileVersion.Precedes where
  trans first second third hfirst hsecond := by
    unfold ProfileVersion.Precedes at *
    omega

/-- The variables of the renumbering loop.  Its rows were fetched before it starts, so
its writes are collected here and made in their order. -/
structure Numbering where
  maximum : ℤ
  used : List ℤ
  ambiguous : List ℤ
  renumbered : List (ProfileVersion × ℤ)

/-- `while maximum in used: maximum += 1`.  A round skips a used number, so there are
at most as many rounds as used numbers. -/
def nextUnused (used : List ℤ) : ℕ → ℤ → ℤ
  | 0, maximum => maximum
  | rounds + 1, maximum =>
    if maximum ∈ used then nextUnused used rounds (maximum + 1) else maximum

def numberRow (state : Numbering) (row : ProfileVersion) : Numbering :=
  if row.version ∈ state.used then
    let maximum := nextUnused state.used state.used.length (state.maximum + 1)
    { maximum
      used := maximum :: state.used
      ambiguous := row.version :: state.ambiguous
      renumbered := state.renumbered ++ [(row, maximum)] }
  else { state with used := row.version :: state.used }

def numberRows (profiles : List ProfileVersion) : Numbering :=
  let rows := profiles.insertionSort ProfileVersion.Precedes
  match (rows.map ProfileVersion.version).max? with
  | none => ⟨0, [], [], []⟩
  | some maximum => rows.foldl numberRow ⟨maximum, [], [], []⟩

/-- The stored profiles after the renumbering. -/
def normalizeProfileVersions (profiles : List ProfileVersion) : List ProfileVersion :=
  updateEach ProfileVersion.id (fun write => write.1.id) (fun write row => row.renumber write.2)
    (numberRows profiles).renumbered profiles

def profileVersionStates (profiles : List ProfileVersion) : List ProfileVersionState :=
  (numberRows profiles).renumbered.map fun write => ⟨write.1.id, write.1.version⟩

/-- The version numbers that the migration reports as ambiguous. -/
def ambiguousProfileVersions (profiles : List ProfileVersion) : List ℤ :=
  (numberRows profiles).ambiguous

def restoreLegacyProfileVersions (archive : List ProfileVersionState)
    (profiles : List ProfileVersion) : List ProfileVersion :=
  updateEach ProfileVersion.id ProfileVersionState.profileVersionId
    (fun state row => row.renumber state.originalVersion) archive profiles

/-! ## What the loop collects -/

/-- The rows in strict order: by number, and among rows of one number by id. -/
def ProfileVersion.Before (first second : ProfileVersion) : Prop :=
  first.version < second.version ∨ first.version = second.version ∧ first.id < second.id

/-- The loop has seen some rows, none of whose numbers is above `bound`. -/
structure Numbered (bound : ℤ) (seen : List ProfileVersion) (state : Numbering) : Prop where
  above : bound ≤ state.maximum
  used_le : ∀ version ∈ state.used, version ≤ state.maximum
  used_iff : ∀ version, version ∈ state.used ↔
    (∃ row ∈ seen, row.version = version) ∨ ∃ write ∈ state.renumbered, write.2 = version
  ambiguous_iff : ∀ version, version ∈ state.ambiguous ↔
    ∃ write ∈ state.renumbered, write.1.version = version
  rows : ∀ write ∈ state.renumbered, write.1 ∈ seen
  ids : (state.renumbered.map fun write => write.1.id).Nodup
  numbers : (state.renumbered.map Prod.snd).Nodup
  fresh : ∀ write ∈ state.renumbered, bound < write.2
  later : ∀ row ∈ seen, (∃ write ∈ state.renumbered, write.1 = row) ↔
    ∃ other ∈ seen, other.version = row.version ∧ other.id < row.id

theorem nextUnused_of_forall_lt (habove : ∀ version ∈ used, version < maximum) (rounds : ℕ) :
    nextUnused used rounds maximum = maximum := by
  cases rounds with
  | zero => rfl
  | succ rounds =>
    rw [nextUnused, if_neg]
    intro hused
    exact lt_irrefl _ (habove maximum hused)

theorem Numbered.start (bound : ℤ) : Numbered bound [] ⟨bound, [], [], []⟩ := by
  constructor <;> simp

variable {seen profiles : List ProfileVersion}
  {row : ProfileVersion}

/-- A number is used by a seen row exactly when the next row has a predecessor of its
number: the numbers given out are all above the bound. -/
theorem Numbered.used_iff_seen (hstate : Numbered bound seen state) (hbound : version ≤ bound) :
    version ∈ state.used ↔ ∃ row ∈ seen, row.version = version := by
  rw [hstate.used_iff]
  constructor
  · rintro (hseen | ⟨write, hwrite, hnumber⟩)
    · exact hseen
    · have hfresh := hstate.fresh write hwrite
      omega
  · exact .inl

theorem exists_lower_concat {found : ProfileVersion} (hbefore : ∀ other ∈ seen, other.Before row)
    (hfound : found ∈ seen) :
    (∃ other ∈ seen ++ [row], other.version = found.version ∧ other.id < found.id) ↔
      ∃ other ∈ seen, other.version = found.version ∧ other.id < found.id := by
  constructor
  · rintro ⟨other, hother, hversion, hid⟩
    rcases List.mem_append.mp hother with hseen | hlast
    · exact ⟨other, hseen, hversion, hid⟩
    rw [List.mem_singleton] at hlast
    subst hlast
    have horder := hbefore found hfound
    unfold ProfileVersion.Before at horder
    omega
  · rintro ⟨other, hother, hlower⟩
    exact ⟨other, List.mem_append_left _ hother, hlower⟩

theorem exists_lower_self (hbefore : ∀ other ∈ seen, other.Before row) :
    (∃ other ∈ seen ++ [row], other.version = row.version ∧ other.id < row.id) ↔
      ∃ other ∈ seen, other.version = row.version := by
  constructor
  · rintro ⟨other, hother, hversion, hid⟩
    rcases List.mem_append.mp hother with hseen | hlast
    · exact ⟨other, hseen, hversion⟩
    · rw [List.mem_singleton] at hlast
      subst hlast
      exact absurd hid (lt_irrefl _)
  · rintro ⟨other, hother, hversion⟩
    refine ⟨other, List.mem_append_left _ hother, hversion, ?_⟩
    have horder := hbefore other hother
    unfold ProfileVersion.Before at horder
    omega

theorem ProfileVersion.Before.ne {first second : ProfileVersion}
    (hbefore : first.Before second) : first ≠ second := by
  rintro rfl
  unfold ProfileVersion.Before at hbefore
  omega

/-- A row whose number is new keeps it. -/
theorem Numbered.keep (hstate : Numbered bound seen state)
    (hbefore : ∀ other ∈ seen, other.Before row) (hbound : row.version ≤ bound)
    (hnew : row.version ∉ state.used) :
    Numbered bound (seen ++ [row]) { state with used := row.version :: state.used } where
  above := hstate.above
  used_le := by
    intro version hversion
    rcases List.mem_cons.mp hversion with rfl | hused
    · exact hbound.trans hstate.above
    · exact hstate.used_le version hused
  used_iff := by
    intro version
    simp only [List.mem_cons, List.mem_append, List.not_mem_nil, or_false, hstate.used_iff]
    constructor
    · rintro (rfl | ⟨other, hother, hversion⟩ | hwrite)
      · exact .inl ⟨row, .inr rfl, rfl⟩
      · exact .inl ⟨other, .inl hother, hversion⟩
      · exact .inr hwrite
    · rintro (⟨other, hother | rfl, hversion⟩ | hwrite)
      · exact .inr (.inl ⟨other, hother, hversion⟩)
      · exact .inl hversion.symm
      · exact .inr (.inr hwrite)
  ambiguous_iff := hstate.ambiguous_iff
  rows write hwrite := List.mem_append_left _ (hstate.rows write hwrite)
  ids := hstate.ids
  numbers := hstate.numbers
  fresh := hstate.fresh
  later := by
    intro found hfound
    rcases List.mem_append.mp hfound with hseen | hlast
    · rw [exists_lower_concat hbefore hseen]
      exact hstate.later found hseen
    · rw [List.mem_singleton] at hlast
      subst hlast
      rw [exists_lower_self hbefore, ← hstate.used_iff_seen hbound]
      constructor
      · rintro ⟨write, hwrite, hrow⟩
        exact absurd hrow (hbefore _ (hstate.rows write hwrite)).ne
      · intro hused
        exact absurd hused hnew

/-- A row whose number is taken moves above every number so far. -/
theorem Numbered.move (hstate : Numbered bound seen state)
    (hbefore : ∀ other ∈ seen, other.Before row) (hids : ∀ other ∈ seen, other.id ≠ row.id)
    (hbound : row.version ≤ bound) (hused : row.version ∈ state.used) :
    Numbered bound (seen ++ [row])
      { maximum := state.maximum + 1
        used := (state.maximum + 1) :: state.used
        ambiguous := row.version :: state.ambiguous
        renumbered := state.renumbered ++ [(row, state.maximum + 1)] } where
  above := by
    have habove := hstate.above
    simp only
    omega
  used_le := by
    intro version hversion
    rcases List.mem_cons.mp hversion with rfl | hold
    · exact le_refl _
    · have hle := hstate.used_le version hold
      simp only
      omega
  used_iff := by
    intro version
    simp only [List.mem_cons, List.mem_append, List.not_mem_nil, or_false, hstate.used_iff]
    constructor
    · rintro (rfl | ⟨other, hother, hversion⟩ | ⟨write, hwrite, hnumber⟩)
      · exact .inr ⟨_, .inr rfl, rfl⟩
      · exact .inl ⟨other, .inl hother, hversion⟩
      · exact .inr ⟨write, .inl hwrite, hnumber⟩
    · rintro (⟨other, hother | rfl, hversion⟩ | ⟨write, hwrite | rfl, hnumber⟩)
      · exact .inr (.inl ⟨other, hother, hversion⟩)
      · rw [← hversion]
        exact .inr ((hstate.used_iff _).mp hused)
      · exact .inr (.inr ⟨write, hwrite, hnumber⟩)
      · exact .inl hnumber.symm
  ambiguous_iff := by
    intro version
    simp only [List.mem_cons, List.mem_append, List.not_mem_nil, or_false, hstate.ambiguous_iff]
    constructor
    · rintro (rfl | ⟨write, hwrite, hversion⟩)
      · exact ⟨_, .inr rfl, rfl⟩
      · exact ⟨write, .inl hwrite, hversion⟩
    · rintro ⟨write, hwrite | rfl, hversion⟩
      · exact .inr ⟨write, hwrite, hversion⟩
      · exact .inl hversion.symm
  rows := by
    intro write hwrite
    rcases List.mem_append.mp hwrite with hold | hlast
    · exact List.mem_append_left _ (hstate.rows write hold)
    · rw [List.mem_singleton] at hlast
      subst hlast
      exact List.mem_append_right _ (List.mem_singleton_self row)
  ids := by
    rw [List.map_append, List.map_singleton, ← List.concat_eq_append, List.nodup_concat]
    refine ⟨?_, hstate.ids⟩
    intro hmem
    obtain ⟨write, hwrite, hid⟩ := List.mem_map.mp hmem
    exact hids _ (hstate.rows write hwrite) hid
  numbers := by
    rw [List.map_append, List.map_singleton, ← List.concat_eq_append, List.nodup_concat]
    refine ⟨?_, hstate.numbers⟩
    intro hmem
    obtain ⟨write, hwrite, hnumber⟩ := List.mem_map.mp hmem
    have hle := hstate.used_le write.2 ((hstate.used_iff _).mpr (.inr ⟨write, hwrite, rfl⟩))
    omega
  fresh := by
    intro write hwrite
    rcases List.mem_append.mp hwrite with hold | hlast
    · exact hstate.fresh write hold
    rw [List.mem_singleton] at hlast
    subst hlast
    have habove := hstate.above
    simp only
    omega
  later := by
    intro found hfound
    simp only [List.mem_append, List.mem_singleton]
    rcases List.mem_append.mp hfound with hseen | hlast
    · have hlower := exists_lower_concat hbefore hseen
      simp only [List.mem_append, List.mem_singleton] at hlower
      rw [hlower, ← hstate.later found hseen]
      constructor
      · rintro ⟨write, hwrite | rfl, hrow⟩
        · exact ⟨write, hwrite, hrow⟩
        · exact absurd hrow.symm (hbefore found hseen).ne
      · rintro ⟨write, hwrite, hrow⟩
        exact ⟨write, .inl hwrite, hrow⟩
    · rw [List.mem_singleton] at hlast
      subst hlast
      have hlower := exists_lower_self hbefore
      simp only [List.mem_append, List.mem_singleton] at hlower
      rw [hlower, ← hstate.used_iff_seen hbound]
      exact iff_of_true ⟨_, .inr rfl, rfl⟩ hused

theorem Numbered.numberRow (hstate : Numbered bound seen state)
    (hbefore : ∀ other ∈ seen, other.Before row) (hids : ∀ other ∈ seen, other.id ≠ row.id)
    (hbound : row.version ≤ bound) :
    Numbered bound (seen ++ [row]) (numberRow state row) := by
  unfold Migration.numberRow
  split
  · next hused =>
    have hnext : nextUnused state.used state.used.length (state.maximum + 1) =
        state.maximum + 1 := by
      apply nextUnused_of_forall_lt
      intro version hversion
      have hle := hstate.used_le version hversion
      omega
    simp only [hnext]
    exact hstate.move hbefore hids hbound hused
  · next hnew => exact hstate.keep hbefore hbound hnew

theorem Numbered.foldl (rows : List ProfileVersion) (hstate : Numbered bound seen state)
    (hsorted : (seen ++ rows).Pairwise ProfileVersion.Before)
    (hids : ((seen ++ rows).map ProfileVersion.id).Nodup)
    (hbound : ∀ row ∈ rows, row.version ≤ bound) :
    Numbered bound (seen ++ rows) (rows.foldl Migration.numberRow state) := by
  induction rows generalizing seen state with
  | nil => simpa using hstate
  | cons row rest ih =>
    rw [List.forall_mem_cons] at hbound
    rw [List.append_cons] at hsorted hids ⊢
    rw [List.foldl_cons]
    apply ih _ hsorted hids hbound.2
    have hseen := (List.pairwise_append.mp hsorted).1
    have hseenIds : ((seen ++ [row]).map ProfileVersion.id).Nodup := by
      rw [List.map_append] at hids
      exact (List.nodup_append.mp hids).1
    apply hstate.numberRow
    · intro other hother
      exact (List.pairwise_append.mp hseen).2.2 other hother row (List.mem_singleton_self row)
    · intro other hother hsame
      rw [List.map_append, List.map_singleton, ← List.concat_eq_append,
        List.nodup_concat] at hseenIds
      exact hseenIds.1 (hsame ▸ List.mem_map_of_mem hother)
    · exact hbound.1

/-! ## The renumbered table -/

/-- What the whole loop collects about a table of profiles. -/
structure Renumbering (profiles : List ProfileVersion)
    (renumbered : List (ProfileVersion × ℤ)) : Prop where
  rows : ∀ write ∈ renumbered, write.1 ∈ profiles
  ids : (renumbered.map fun write => write.1.id).Nodup
  numbers : (renumbered.map Prod.snd).Nodup
  fresh : ∀ write ∈ renumbered, ∀ row ∈ profiles, row.version < write.2
  later : ∀ row ∈ profiles, (∃ write ∈ renumbered, write.1 = row) ↔
    ∃ other ∈ profiles, other.version = row.version ∧ other.id < row.id

section

variable (hids : (profiles.map ProfileVersion.id).Nodup)
include hids

theorem pairwise_before :
    (profiles.insertionSort ProfileVersion.Precedes).Pairwise ProfileVersion.Before := by
  have hsorted := List.pairwise_insertionSort ProfileVersion.Precedes profiles
  have hdistinct : (profiles.insertionSort ProfileVersion.Precedes).Pairwise
      fun first second => first.id ≠ second.id := by
    rw [← List.pairwise_map]
    exact (((List.perm_insertionSort _ profiles).map _).nodup_iff).mpr hids
  apply (hsorted.and hdistinct).imp
  rintro first second ⟨horder, hne⟩
  unfold ProfileVersion.Precedes at horder
  unfold ProfileVersion.Before
  omega

theorem numberRows_numbered :
    ∃ bound, (∀ row ∈ profiles, row.version ≤ bound) ∧
      Numbered bound (profiles.insertionSort ProfileVersion.Precedes) (numberRows profiles) := by
  have hsortedIds : ((profiles.insertionSort ProfileVersion.Precedes).map
      ProfileVersion.id).Nodup :=
    (((List.perm_insertionSort _ profiles).map _).nodup_iff).mpr hids
  have hmem : ∀ row ∈ profiles, row.version ∈
      (profiles.insertionSort ProfileVersion.Precedes).map ProfileVersion.version :=
    fun row hrow => List.mem_map_of_mem ((List.mem_insertionSort _).mpr hrow)
  unfold numberRows
  cases hmax : ((profiles.insertionSort ProfileVersion.Precedes).map
      ProfileVersion.version).max? with
  | none =>
    rw [List.max?_eq_none_iff] at hmax
    have hempty : profiles.insertionSort ProfileVersion.Precedes = [] :=
      List.map_eq_nil_iff.mp hmax
    refine ⟨0, ?_, ?_⟩
    · intro row hrow
      have hfound := hmem row hrow
      rw [hmax] at hfound
      cases hfound
    · simp only [hempty]
      exact .start 0
  | some bound =>
    have hbound : ∀ version ∈ (profiles.insertionSort ProfileVersion.Precedes).map
        ProfileVersion.version, version ≤ bound :=
      (List.max?_eq_some_iff.mp hmax).2
    refine ⟨bound, fun row hrow => hbound _ (hmem row hrow), ?_⟩
    simp only [hmax]
    apply (Numbered.start bound).foldl _ (pairwise_before hids) hsortedIds
    intro row hrow
    exact hbound _ (List.mem_map_of_mem hrow)

theorem numberRows_renumbering :
    Renumbering profiles (numberRows profiles).renumbered := by
  obtain ⟨bound, hbound, hnumbered⟩ := numberRows_numbered hids
  refine ⟨?_, hnumbered.ids, hnumbered.numbers, ?_, ?_⟩
  · intro write hwrite
    exact (List.mem_insertionSort _).mp (hnumbered.rows write hwrite)
  · intro write hwrite row hrow
    exact (hbound row hrow).trans_lt (hnumbered.fresh write hwrite)
  · intro row hrow
    rw [hnumbered.later row ((List.mem_insertionSort _).mpr hrow)]
    simp only [List.mem_insertionSort]

end

/-- Two stored profiles carry this number. -/
def Duplicated (profiles : List ProfileVersion) (version : ℤ) : Prop :=
  ∃ first ∈ profiles, ∃ second ∈ profiles,
    first.id ≠ second.id ∧ first.version = version ∧ second.version = version

theorem mem_ambiguousProfileVersions (hids : (profiles.map ProfileVersion.id).Nodup) :
    version ∈ ambiguousProfileVersions profiles ↔ Duplicated profiles version := by
  obtain ⟨_, _, hnumbered⟩ := numberRows_numbered hids
  have hlater := (numberRows_renumbering hids).later
  rw [ambiguousProfileVersions, hnumbered.ambiguous_iff]
  constructor
  · rintro ⟨write, hwrite, rfl⟩
    have hrow := (numberRows_renumbering hids).rows write hwrite
    obtain ⟨other, hother, hversion, hid⟩ := (hlater _ hrow).mp ⟨write, hwrite, rfl⟩
    exact ⟨other, hother, _, hrow, hid.ne, hversion, rfl⟩
  · rintro ⟨first, hfirst, second, hsecond, hne, rfl, hversion⟩
    rcases Nat.lt_or_gt_of_ne hne with hlt | hlt
    · obtain ⟨write, hwrite, hrow⟩ :=
        (hlater second hsecond).mpr ⟨first, hfirst, hversion.symm, hlt⟩
      exact ⟨write, hwrite, hrow ▸ hversion⟩
    · obtain ⟨write, hwrite, hrow⟩ := (hlater first hfirst).mpr ⟨second, hsecond, hversion, hlt⟩
      exact ⟨write, hwrite, hrow ▸ rfl⟩

/-- The number that the upgrade gives a row. -/
def normalizedVersion (renumbered : List (ProfileVersion × ℤ)) (row : ProfileVersion) :
    ProfileVersion :=
  rewritten ProfileVersion.id (fun write => write.1.id)
    (fun write row => row.renumber write.2) renumbered row

section

theorem Renumbering.moved (hrenumbering : Renumbering profiles renumbered)
    (hwrite : write ∈ renumbered) :
    normalizedVersion renumbered write.1 = write.1.renumber write.2 := by
  apply rewritten_of_mem _ hrenumbering.ids hwrite rfl
  intro other row
  rfl

theorem Renumbering.kept (hids : (profiles.map ProfileVersion.id).Nodup)
    (hrenumbering : Renumbering profiles renumbered) (hrow : row ∈ profiles)
    (hkept : ¬∃ write ∈ renumbered, write.1 = row) :
    normalizedVersion renumbered row = row := by
  apply rewritten_of_forall_ne
  intro write hwrite hid
  exact hkept ⟨write, hwrite,
    List.inj_on_of_nodup_map hids (hrenumbering.rows write hwrite) hrow hid.symm⟩

/-- No two rows end with one number: a kept number has one keeper, and a number given
out is above every old one. -/
theorem Renumbering.injective (hids : (profiles.map ProfileVersion.id).Nodup)
    (hrenumbering : Renumbering profiles renumbered) {first second : ProfileVersion}
    (hfirst : first ∈ profiles) (hsecond : second ∈ profiles)
    (hsame : (normalizedVersion renumbered first).version =
      (normalizedVersion renumbered second).version) : first = second := by
  by_cases hmovedFirst : ∃ write ∈ renumbered, write.1 = first
  · obtain ⟨write, hwrite, rfl⟩ := hmovedFirst
    rw [hrenumbering.moved hwrite, ProfileVersion.version_renumber] at hsame
    by_cases hmovedSecond : ∃ write ∈ renumbered, write.1 = second
    · obtain ⟨other, hother, rfl⟩ := hmovedSecond
      rw [hrenumbering.moved hother, ProfileVersion.version_renumber] at hsame
      rw [List.inj_on_of_nodup_map hrenumbering.numbers hwrite hother hsame]
    · rw [hrenumbering.kept hids hsecond hmovedSecond] at hsame
      have hfresh := hrenumbering.fresh write hwrite second hsecond
      omega
  · rw [hrenumbering.kept hids hfirst hmovedFirst] at hsame
    by_cases hmovedSecond : ∃ write ∈ renumbered, write.1 = second
    · obtain ⟨other, hother, rfl⟩ := hmovedSecond
      rw [hrenumbering.moved hother, ProfileVersion.version_renumber] at hsame
      have hfresh := hrenumbering.fresh other hother first hfirst
      omega
    · rw [hrenumbering.kept hids hsecond hmovedSecond] at hsame
      rw [hrenumbering.later first hfirst] at hmovedFirst
      rw [hrenumbering.later second hsecond] at hmovedSecond
      apply List.inj_on_of_nodup_map hids hfirst hsecond
      apply le_antisymm
      · exact not_lt.mp fun hlt => hmovedFirst ⟨second, hsecond, hsame.symm, hlt⟩
      · exact not_lt.mp fun hlt => hmovedSecond ⟨first, hfirst, hsame, hlt⟩

end

theorem normalizeProfileVersions_eq_map (profiles : List ProfileVersion) :
    normalizeProfileVersions profiles =
      profiles.map (normalizedVersion (numberRows profiles).renumbered) :=
  updateEach_eq_map _ profiles

/-- The renumbered table meets `uq_user_profile_versions_version`. -/
theorem normalizeProfileVersions_nodup (hids : (profiles.map ProfileVersion.id).Nodup) :
    ((normalizeProfileVersions profiles).map ProfileVersion.version).Nodup := by
  rw [normalizeProfileVersions_eq_map, List.map_map]
  apply List.Nodup.map_on _ hids.of_map
  intro first hfirst second hsecond hsame
  exact (numberRows_renumbering hids).injective hids hfirst hsecond hsame

theorem map_id_normalizeProfileVersions (profiles : List ProfileVersion) :
    (normalizeProfileVersions profiles).map ProfileVersion.id =
      profiles.map ProfileVersion.id := by
  apply map_key_updateEach
  intro write row
  rfl

/-- A number stays with its row of lowest id. -/
theorem mem_normalizeProfileVersions (hids : (profiles.map ProfileVersion.id).Nodup)
    (hrow : row ∈ profiles)
    (hlowest : ∀ other ∈ profiles, other.version = row.version → row.id ≤ other.id) :
    row ∈ normalizeProfileVersions profiles := by
  have hrenumbering := numberRows_renumbering hids
  have hkept : ¬∃ write ∈ (numberRows profiles).renumbered, write.1 = row := by
    rw [hrenumbering.later row hrow]
    rintro ⟨other, hother, hversion, hid⟩
    exact absurd (hlowest other hother hversion) (not_le.mpr hid)
  rw [normalizeProfileVersions_eq_map]
  exact List.mem_map.mpr ⟨row, hrow, hrenumbering.kept hids hrow hkept⟩

/-- The archive gives every renumbered row its number back. -/
theorem restore_normalizeProfileVersions (hids : (profiles.map ProfileVersion.id).Nodup) :
    restoreLegacyProfileVersions (profileVersionStates profiles)
      (normalizeProfileVersions profiles) = profiles := by
  have hrenumbering := numberRows_renumbering hids
  have hplaces : ((profileVersionStates profiles).map
      ProfileVersionState.profileVersionId).Nodup := by
    rw [profileVersionStates, List.map_map]
    exact hrenumbering.ids
  rw [restoreLegacyProfileVersions, updateEach_eq_map, normalizeProfileVersions_eq_map,
    List.map_map]
  conv_rhs => rw [← List.map_id profiles]
  apply List.map_congr_left
  intro row hrow
  rw [Function.comp_apply, id]
  by_cases hmoved : ∃ write ∈ (numberRows profiles).renumbered, write.1 = row
  · obtain ⟨write, hwrite, rfl⟩ := hmoved
    rw [hrenumbering.moved hwrite]
    have hstate : (⟨write.1.id, write.1.version⟩ : ProfileVersionState) ∈
        profileVersionStates profiles := List.mem_map_of_mem hwrite
    refine (rewritten_of_mem ?_ hplaces hstate ?_).trans ?_
    · intro state row
      rfl
    · rfl
    · rfl
  · rw [hrenumbering.kept hids hrow hmoved]
    apply rewritten_of_forall_ne
    intro state hstate hid
    obtain ⟨write, hwrite, rfl⟩ := List.mem_map.mp hstate
    exact hmoved ⟨write, hwrite,
      List.inj_on_of_nodup_map hids (hrenumbering.rows write hwrite) hrow hid.symm⟩

end JobApplyAgent.Migration
