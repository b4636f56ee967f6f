import Mathlib.Data.List.Range

/-!
# Sequenced logs

A log whose entries carry the numbers `1, 2, …` in the order in which they were
appended.  The entry with the greatest number is the last one, and appending
the successor keeps the numbering free of gaps.
-/

namespace JobApplyAgent.Library

variable {ρ : Type*} (number : ρ → ℕ)

/-- The row with the greatest number, the later one among equals. -/
def latestBy (rows : List ρ) : Option ρ :=
  rows.foldl (fun best row =>
    match best with
    | none => some row
    | some found => if number found ≤ number row then some row else some found)
    none

/-- The rows carry the numbers `1 … n` in order. -/
def IsSequenced (rows : List ρ) : Prop :=
  rows.map number = List.range' 1 rows.length

variable {number}

theorem latestBy_concat (rows : List ρ) (row : ρ) :
    latestBy number (rows ++ [row]) =
      match latestBy number rows with
      | none => some row
      | some found => if number found ≤ number row then some row else some found := by
  rw [latestBy, List.foldl_append]
  rfl

variable {rows : List ρ} {row : ρ}

theorem latestBy_mem (hlatest : latestBy number rows = some row) : row ∈ rows := by
  induction rows using List.reverseRecOn with
  | nil => simp [latestBy] at hlatest
  | append_singleton rows last ih =>
    rw [latestBy_concat] at hlatest
    cases hrest : latestBy number rows with
    | none =>
      rw [hrest] at hlatest
      simp_all
    | some found =>
      rw [hrest] at hlatest
      simp only at hlatest
      split at hlatest
      · simp_all
      have := ih (hrest.trans hlatest)
      simp [this]

theorem latestBy_eq_none_iff :
    latestBy number rows = none ↔ rows = [] := by
  constructor
  · intro hnone
    induction rows using List.reverseRecOn with
    | nil => rfl
    | append_singleton rows last _ =>
      rw [latestBy_concat] at hnone
      split at hnone
      · cases hnone
      · split at hnone <;> cases hnone
  · rintro rfl
    rfl

theorem isSequenced_nil : IsSequenced number ([] : List ρ) := rfl

theorem number_le_latestBy (hmem : row ∈ rows)
    (hlatest : latestBy number rows = some latest) : number row ≤ number latest := by
  induction rows using List.reverseRecOn generalizing latest with
  | nil => cases hmem
  | append_singleton rows last ih =>
    rw [latestBy_concat] at hlatest
    rw [List.mem_append, List.mem_singleton] at hmem
    cases hrest : latestBy number rows with
    | none =>
      rw [latestBy_eq_none_iff] at hrest
      subst hrest
      cases hlatest
      exact (hmem.resolve_left List.not_mem_nil) ▸ le_rfl
    | some found =>
      rw [hrest] at hlatest
      simp only at hlatest
      split at hlatest <;> cases hlatest <;> rcases hmem with hold | rfl
      · next hle => exact (ih hold hrest).trans hle
      · exact le_rfl
      · exact ih hold hrest
      · next hlt => exact (Nat.lt_of_not_le hlt).le

/-- A change of the rows that keeps their numbers keeps which one is the latest. -/
theorem latestBy_map {change : ρ → ρ} (hnumber : ∀ row, number (change row) = number row)
    (rows : List ρ) : latestBy number (rows.map change) = (latestBy number rows).map change := by
  induction rows using List.reverseRecOn with
  | nil => rfl
  | append_singleton rows last ih =>
    rw [List.map_append, List.map_singleton, latestBy_concat, latestBy_concat, ih]
    cases latestBy number rows with
    | none => rfl
    | some found =>
      simp only [Option.map_some, hnumber]
      split <;> rfl

/-- Appending the successor keeps a log free of gaps. -/
theorem isSequenced_concat_iff :
    IsSequenced number (rows ++ [row]) ↔
      IsSequenced number rows ∧ number row = rows.length + 1 := by
  unfold IsSequenced
  rw [List.map_append, List.length_append, List.length_singleton,
    List.range'_concat]
  constructor
  · intro happend
    have hlengths : (rows.map number).length = (List.range' 1 rows.length).length := by
      simp
    obtain ⟨hrows, hrow⟩ := List.append_inj happend hlengths
    refine ⟨hrows, ?_⟩
    simpa [Nat.add_comm] using hrow
  · rintro ⟨hrows, hrow⟩
    rw [hrows, List.map_singleton, hrow]
    simp [Nat.add_comm]

section

variable (hrows : IsSequenced number rows)
include hrows

theorem IsSequenced.number_of_getElem? (hrow : rows[index]? = some row) :
    number row = index + 1 := by
  have hmap : (rows.map number)[index]? = some (number row) := by
    rw [List.getElem?_map, hrow]
    rfl
  rw [hrows, List.getElem?_range' (List.getElem?_eq_some_iff.mp hrow).1] at hmap
  simp only [Option.some.injEq] at hmap
  omega

/-- The numbers of a sequenced log identify its rows. -/
theorem IsSequenced.getElem?_of_mem (hmem : row ∈ rows) :
    rows[number row - 1]? = some row := by
  obtain ⟨index, hindex⟩ := List.getElem?_of_mem hmem
  have hnumber := hrows.number_of_getElem? hindex
  rw [hnumber]
  simpa using hindex

/-- The greatest number of a sequenced log stands on its last row. -/
theorem IsSequenced.latestBy_eq :
    latestBy number rows = rows.getLast? := by
  induction rows using List.reverseRecOn with
  | nil => rfl
  | append_singleton rows last ih =>
    obtain ⟨hleading, hlast⟩ := isSequenced_concat_iff.mp hrows
    rw [latestBy_concat, ih hleading, List.getLast?_concat]
    cases hfound : rows.getLast? with
    | none => rfl
    | some found =>
      obtain ⟨index, hindex⟩ :=
        List.getElem?_of_mem (List.mem_of_getLast? hfound)
      have hbound := (List.getElem?_eq_some_iff.mp hindex).1
      have hnumber := hleading.number_of_getElem? hindex
      simp only
      rw [if_pos (by omega)]

theorem IsSequenced.number_latestBy (hlatest : latestBy number rows = some row) :
    number row = rows.length := by
  rw [hrows.latestBy_eq] at hlatest
  obtain ⟨initial, rfl⟩ := List.getLast?_eq_some_iff.mp hlatest
  simpa using (isSequenced_concat_iff.mp hrows).2

end

end JobApplyAgent.Library
