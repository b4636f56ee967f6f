import Mathlib.Algebra.GroupWithZero.Nat
import Mathlib.Data.List.Dedup
import Mathlib.Data.List.Perm.Subperm

/-!
# Linear patterns

A pattern is a sequence of symbol classes with bounded repetition.  Matching
carries the set of positions that the classes read so far can end at, so it never
backtracks.
-/

namespace JobApplyAgent.Library

variable {α : Type*}

/-- One class of symbols with an explicitly bounded repetition. -/
structure PatternAtom (α : Type*) where
  characters : List α
  minimum : ℕ
  maximum : ℕ

/-- The words of one class. -/
structure PatternAtom.Reads (atom : PatternAtom α) (word : List α) : Prop where
  minimum : atom.minimum ≤ word.length
  maximum : word.length ≤ atom.maximum
  characters : ∀ character ∈ word, character ∈ atom.characters

/-- The words of a pattern. -/
inductive Spells : List (PatternAtom α) → List α → Prop where
  | nil : Spells [] []
  | cons {atom : PatternAtom α} {atoms : List (PatternAtom α)} {word rest : List α}
      (hword : atom.Reads word) (hrest : Spells atoms rest) : Spells (atom :: atoms) (word ++ rest)

variable [DecidableEq α]

/-- The positions after the `count`-th and up to `remaining` later symbols of a class. -/
def PatternAtom.run (atom : PatternAtom α) (value : List α) : ℕ → ℕ → ℕ → List ℕ
  | 0, _, _ => []
  | remaining + 1, count, cursor =>
    match value[cursor]? with
    | none => []
    | some character =>
      if character ∈ atom.characters then
        (if atom.minimum ≤ count then [cursor + 1] else [])
          ++ atom.run value remaining (count + 1) (cursor + 1)
      else
        []

/-- The positions that a class entered at `position` can end at. -/
def PatternAtom.ends (atom : PatternAtom α) (value : List α) (position : ℕ) : List ℕ :=
  (if atom.minimum = 0 then [position] else []) ++ atom.run value atom.maximum 1 position

def reachPositions (value : List α) : List (PatternAtom α) → List ℕ → List ℕ
  | [], positions => positions
  | atom :: atoms, positions =>
    let next := (positions.flatMap (atom.ends value)).dedup
    if next.isEmpty then [] else reachPositions value atoms next

/-- The whole value is a word of the pattern. -/
def matchesAtoms (atoms : List (PatternAtom α)) (value : List α) : Bool :=
  decide (value.length ≤ atoms.foldl (fun total atom => total + atom.maximum) 0)
    && decide (value.length ∈ reachPositions value atoms [0])

section Soundness

variable {atom : PatternAtom α} {value : List α}

/-- Reading on from the `count`-th symbol reads a word of the class. -/
theorem PatternAtom.run_sound (hcount : 0 < count)
    (hrun : position ∈ atom.run value remaining count cursor) :
    ∃ word, value.drop cursor = word ++ value.drop position ∧
      word.length ≤ remaining ∧ atom.minimum < count + word.length ∧
      ∀ char ∈ word, char ∈ atom.characters := by
  induction remaining generalizing count cursor with
  | zero => simp [PatternAtom.run] at hrun
  | succ remaining ih =>
    rw [PatternAtom.run] at hrun
    cases hread : value[cursor]? with
    | none => simp [hread] at hrun
    | some char =>
      have hdrop : value.drop cursor = char :: value.drop (cursor + 1) := by
        obtain ⟨hlt, hchar⟩ := List.getElem?_eq_some_iff.mp hread
        rw [List.drop_eq_getElem_cons hlt, hchar]
      simp only [hread] at hrun
      split at hrun
      next hclass =>
        rcases List.mem_append.mp hrun with hhere | hlater
        · split at hhere
          next hminimum =>
            rw [List.mem_singleton.mp hhere]
            refine ⟨[char], hdrop, by simp, ?_, by simpa using hclass⟩
            simp only [List.length_singleton]
            omega
          · cases hhere
        · obtain ⟨word, hword, hlength, hminimum, hcharacters⟩ := ih (by omega) hlater
          refine ⟨char :: word, by rw [hdrop, hword, List.cons_append], ?_, ?_, ?_⟩
          · simp only [List.length_cons]
            omega
          · simp only [List.length_cons]
            omega
          · exact List.forall_mem_cons.mpr ⟨hclass, hcharacters⟩
      · cases hrun

theorem PatternAtom.ends_sound (hnext : next ∈ atom.ends value position) :
    ∃ word, value.drop position = word ++ value.drop next ∧ atom.Reads word := by
  rcases List.mem_append.mp hnext with hempty | hrun
  · split at hempty
    next hminimum =>
      rw [List.mem_singleton.mp hempty]
      exact ⟨[], rfl, by simp [hminimum], by simp, by simp⟩
    · cases hempty
  · obtain ⟨word, hword, hlength, hminimum, hcharacters⟩ := run_sound Nat.one_pos hrun
    exact ⟨word, hword, by omega, hlength, hcharacters⟩

theorem reachPositions_sound (hlast : last ∈ reachPositions value atoms positions) :
    ∃ position ∈ positions, ∃ word, value.drop position = word ++ value.drop last ∧
      Spells atoms word := by
  induction atoms generalizing positions with
  | nil => exact ⟨last, hlast, [], rfl, .nil⟩
  | cons atom atoms ih =>
    rw [reachPositions] at hlast
    split at hlast
    · cases hlast
    obtain ⟨middle, hmiddle, rest, hrest, hspells⟩ := ih hlast
    obtain ⟨position, hposition, hends⟩ := List.mem_flatMap.mp (List.mem_dedup.mp hmiddle)
    obtain ⟨word, hword, hreads⟩ := PatternAtom.ends_sound hends
    refine ⟨position, hposition, word ++ rest, ?_, .cons hreads hspells⟩
    rw [hword, hrest, List.append_assoc]

/-- A value that matches is spelt by the pattern. -/
theorem spells_of_matchesAtoms (hmatches : matchesAtoms atoms value = true) :
    Spells atoms value := by
  simp only [matchesAtoms, Bool.and_eq_true, decide_eq_true_eq] at hmatches
  obtain ⟨position, hposition, word, hword, hspells⟩ := reachPositions_sound hmatches.2
  rw [List.mem_singleton.mp hposition, List.drop_zero, List.drop_length,
    List.append_nil] at hword
  exact hword ▸ hspells

end Soundness

section Completeness

variable {atom : PatternAtom α} {value : List α}

/-- A word of the class from the `count`-th symbol on is read to its end. -/
theorem PatternAtom.run_complete (hword : value.drop cursor = word ++ rest) (hnonempty : word ≠ [])
    (hmaximum : word.length ≤ remaining) (hminimum : atom.minimum < count + word.length)
    (hcharacters : ∀ char ∈ word, char ∈ atom.characters) :
    cursor + word.length ∈ atom.run value remaining count cursor := by
  induction remaining generalizing count cursor word with
  | zero => exact absurd (List.length_eq_zero_iff.mp (Nat.le_zero.mp hmaximum)) hnonempty
  | succ remaining ih =>
    cases word with
    | nil => exact absurd rfl hnonempty
    | cons char word =>
      have hread : value[cursor]? = some char := by
        rw [← List.head?_drop, hword]
        rfl
      have hnext : value.drop (cursor + 1) = word ++ rest := by
        rw [← List.tail_drop, hword]
        rfl
      rw [List.length_cons] at hmaximum hminimum
      rw [PatternAtom.run, hread]
      simp only [hcharacters char (.head _), if_true]
      apply List.mem_append.mpr
      cases word with
      | nil =>
        left
        rw [List.length_nil] at hminimum
        rw [if_pos (by omega)]
        simp
      | cons second word =>
        right
        have hlater : cursor + 1 + (second :: word).length ∈
            atom.run value remaining (count + 1) (cursor + 1) :=
          ih hnext (by simp) (by omega) (by omega)
            fun found hfound => hcharacters found (.tail _ hfound)
        rwa [Nat.add_right_comm] at hlater

theorem PatternAtom.ends_complete (hword : value.drop position = word ++ rest)
    (hreads : atom.Reads word) :
    position + word.length ∈ atom.ends value position := by
  apply List.mem_append.mpr
  by_cases hempty : word = []
  · left
    subst hempty
    have hminimum : atom.minimum = 0 := Nat.le_zero.mp hreads.minimum
    simp [hminimum]
  · right
    have hminimum := hreads.minimum
    exact run_complete hword hempty hreads.maximum (by omega) hreads.characters

theorem reachPositions_complete (hposition : position ∈ positions)
    (hword : value.drop position = word ++ rest) (hspells : Spells atoms word) :
    position + word.length ∈ reachPositions value atoms positions := by
  induction hspells generalizing positions position rest with
  | nil => simpa [reachPositions] using hposition
  | @cons atom atoms first later hreads _ ih =>
    rw [List.append_assoc] at hword
    have hends : position + first.length ∈
        (positions.flatMap (atom.ends value)).dedup :=
      List.mem_dedup.mpr
        (List.mem_flatMap.mpr ⟨position, hposition, PatternAtom.ends_complete hword hreads⟩)
    have hrest : value.drop (position + first.length) = later ++ rest := by
      rw [← List.drop_drop, hword, List.drop_left]
    have hreached := ih hends hrest
    rw [List.length_append, ← Nat.add_assoc, reachPositions]
    rw [if_neg (by rw [List.isEmpty_iff]; exact List.ne_nil_of_mem hends)]
    exact hreached

/-- The greatest length of a word of the pattern. -/
def maximumLength (atoms : List (PatternAtom α)) : ℕ :=
  (atoms.map PatternAtom.maximum).sum

omit [DecidableEq α] in
theorem foldl_maximum (atoms : List (PatternAtom α)) (total : ℕ) :
    atoms.foldl (fun total atom => total + atom.maximum) total = total + maximumLength atoms := by
  induction atoms generalizing total with
  | nil => rfl
  | cons atom atoms ih =>
    rw [List.foldl_cons, ih, maximumLength, maximumLength, List.map_cons, List.sum_cons,
      Nat.add_assoc]

omit [DecidableEq α] in
theorem Spells.length_le (hspells : Spells atoms word) :
    word.length ≤ maximumLength atoms := by
  induction hspells with
  | nil => exact Nat.zero_le _
  | cons hreads _ ih =>
    have hmaximum := hreads.maximum
    rw [List.length_append, maximumLength, List.map_cons, List.sum_cons]
    exact Nat.add_le_add hmaximum ih

/-- The matcher decides exactly the words of the pattern. -/
theorem matchesAtoms_iff : matchesAtoms atoms value = true ↔ Spells atoms value := by
  constructor
  · exact spells_of_matchesAtoms
  · intro hspells
    have hlength := hspells.length_le
    have hstart : value.drop 0 = value ++ [] := by rw [List.drop_zero, List.append_nil]
    have hreached := reachPositions_complete (List.mem_singleton_self 0) hstart hspells
    rw [Nat.zero_add] at hreached
    simp only [matchesAtoms, foldl_maximum, Nat.zero_add, Bool.and_eq_true, decide_eq_true_eq]
    exact ⟨hlength, hreached⟩

omit [DecidableEq α] in
/-- The words of a pattern are cut into one word for each of its classes. -/
theorem spells_iff_pieces : Spells atoms value ↔
    ∃ pieces : List (List α), pieces.flatten = value ∧
      List.Forall₂ PatternAtom.Reads atoms pieces := by
  constructor
  · intro hspells
    induction hspells with
    | nil => exact ⟨[], rfl, .nil⟩
    | @cons atom atoms word rest hreads _ ih =>
      obtain ⟨pieces, rfl, hpieces⟩ := ih
      exact ⟨word :: pieces, rfl, .cons hreads hpieces⟩
  · rintro ⟨pieces, rfl, hpieces⟩
    induction hpieces with
    | nil => exact .nil
    | cons hreads _ ih => exact .cons hreads ih

end Completeness

section Cost

variable {atom : PatternAtom α} {value : List α}

theorem PatternAtom.run_le (hrun : position ∈ atom.run value remaining count cursor) :
    position ≤ value.length := by
  induction remaining generalizing count cursor with
  | zero => simp [PatternAtom.run] at hrun
  | succ remaining ih =>
    rw [PatternAtom.run] at hrun
    split at hrun
    · cases hrun
    next char hread =>
    split at hrun
    · rcases List.mem_append.mp hrun with hhere | hlater
      · split at hhere
        · rw [List.mem_singleton.mp hhere]
          exact (List.getElem?_eq_some_iff.mp hread).1
        · cases hhere
      · exact ih hlater
    · cases hrun

variable {positions : List ℕ}

/-- No position leaves the value. -/
theorem reachPositions_le (hpositions : ∀ position ∈ positions,
    position ≤ value.length) : ∀ position ∈ reachPositions value atoms positions,
      position ≤ value.length := by
  induction atoms generalizing positions with
  | nil => exact hpositions
  | cons atom atoms ih =>
    intro position hposition
    rw [reachPositions] at hposition
    split at hposition
    · cases hposition
    refine ih (fun next hnext => ?_) position hposition
    obtain ⟨first, hfirst, hends⟩ := List.mem_flatMap.mp (List.mem_dedup.mp hnext)
    rcases List.mem_append.mp hends with hempty | hrun
    · split at hempty
      · exact List.mem_singleton.mp hempty ▸ hpositions first hfirst
      · cases hempty
    · exact PatternAtom.run_le hrun

/-- The symbols that a class tests when it is entered at a position. -/
def PatternAtom.tests (atom : PatternAtom α) (value : List α) : ℕ → ℕ → ℕ
  | 0, _ => 0
  | remaining + 1, cursor =>
    match value[cursor]? with
    | none => 0
    | some character =>
      if character ∈ atom.characters then 1 + atom.tests value remaining (cursor + 1) else 1

/-- The symbols that are tested on the way of `reachPositions`. -/
def reachTests (value : List α) : List (PatternAtom α) → List ℕ → ℕ
  | [], _ => 0
  | atom :: atoms, positions =>
    let next := (positions.flatMap (atom.ends value)).dedup
    (positions.map (atom.tests value atom.maximum)).sum
      + if next.isEmpty then 0 else reachTests value atoms next

def matchTests (atoms : List (PatternAtom α)) (value : List α) : ℕ :=
  if value.length ≤ maximumLength atoms then reachTests value atoms [0] else 0

theorem PatternAtom.tests_le (remaining cursor : ℕ) :
    atom.tests value remaining cursor ≤ remaining := by
  induction remaining generalizing cursor with
  | zero => exact Nat.le_refl _
  | succ remaining ih =>
    have hlater := ih (cursor + 1)
    rw [PatternAtom.tests]
    split
    · exact Nat.zero_le _
    · split <;> omega

theorem PatternAtom.tests_eq_zero (hcursor : value.length ≤ cursor) :
    atom.tests value remaining cursor = 0 := by
  cases remaining with
  | zero => rfl
  | succ remaining => rw [PatternAtom.tests, List.getElem?_eq_none hcursor]

/-- Distinct positions below `bound` are at most `bound` many. -/
theorem countP_lt_le_of_nodup (hpositions : positions.Nodup) (bound : ℕ) :
    positions.countP (· < bound) ≤ bound := by
  rw [List.countP_eq_length_filter]
  have hsubset : positions.filter (· < bound) ⊆ List.range bound := by
    intro position hposition
    simpa using (List.mem_filter.mp hposition).2
  have hlength := (List.Nodup.subperm (hpositions.filter _) hsubset).length_le
  rwa [List.length_range] at hlength

theorem sum_tests_le_countP (positions : List ℕ) (remaining : ℕ) :
    (positions.map (atom.tests value remaining)).sum ≤
      positions.countP (· < value.length) * remaining := by
  induction positions with
  | nil => simp
  | cons position positions ih =>
    rw [List.map_cons, List.sum_cons]
    by_cases hinside : position < value.length
    · have hhere : atom.tests value remaining position ≤ remaining :=
        PatternAtom.tests_le remaining position
      rw [List.countP_cons_of_pos (by simpa using hinside), Nat.add_mul, Nat.one_mul,
        Nat.add_comm]
      exact Nat.add_le_add ih hhere
    · rw [PatternAtom.tests_eq_zero (Nat.not_lt.mp hinside), Nat.zero_add,
        List.countP_cons_of_neg (by simpa using hinside)]
      exact ih

theorem reachTests_le (hpositions : positions.Nodup) :
    reachTests value atoms positions ≤ value.length * maximumLength atoms := by
  induction atoms generalizing positions with
  | nil => exact Nat.zero_le _
  | cons atom atoms ih =>
    have hhere : (positions.map (atom.tests value atom.maximum)).sum ≤
        value.length * atom.maximum :=
      Nat.le_trans (sum_tests_le_countP positions atom.maximum)
        (Nat.mul_le_mul_right _ (countP_lt_le_of_nodup hpositions value.length))
    rw [reachTests, maximumLength, List.map_cons, List.sum_cons, Nat.mul_add]
    apply Nat.add_le_add hhere
    split
    · exact Nat.zero_le _
    · exact ih (List.nodup_dedup _)

/-- The work of the matcher is linear in the value. -/
theorem matchTests_le : matchTests atoms value ≤ value.length * maximumLength atoms := by
  unfold matchTests
  split
  · exact reachTests_le (List.nodup_singleton 0)
  · exact Nat.zero_le _

end Cost

end JobApplyAgent.Library
