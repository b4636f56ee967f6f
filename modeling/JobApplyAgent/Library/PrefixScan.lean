import Mathlib.Data.List.Basic

/-!
# Scans of a validated list

A list that may change is read window by window.  A checkpoint is the offset of the next
window and the validator of the list that was read; an offset of zero with a validator
stands behind the last row.  While no validator is given to two lists, a checkpoint tells
which rows have been dealt with.
-/

namespace JobApplyAgent.Library

universe u v

variable {ν : Type u} {ρ : Type v}

/-- No validator is given to two lists. -/
def Identifies (listings : List (ν × List ρ)) : Prop :=
  ∀ validator first second, (validator, first) ∈ listings → (validator, second) ∈ listings →
    first = second

theorem Identifies.concat {listings : List (ν × List ρ)} (hidentifies : Identifies listings)
    (hsame : ∀ other, (validator, other) ∈ listings → other = rows) :
    Identifies (listings ++ [(validator, rows)]) := by
  intro found first second hfirst hsecond
  rw [List.mem_append, List.mem_singleton, Prod.mk.injEq] at hfirst hsecond
  rcases hfirst with hfirst | ⟨rfl, rfl⟩ <;> rcases hsecond with hsecond | ⟨hfound, rfl⟩
  · exact hidentifies found first second hfirst hsecond
  · rw [hfound] at hfirst
    exact hsame first hfirst
  · exact (hsame second hsecond).symm
  · rfl

theorem identifies_singleton (validator : ν) (rows : List ρ) :
    Identifies [(validator, rows)] := by
  intro found first second hfirst hsecond
  rw [List.mem_singleton] at hfirst hsecond
  cases hfirst
  cases hsecond
  rfl

/-- The rows before a checkpoint. -/
def scanned (offset : ℕ) (rows : List ρ) : List ρ :=
  if offset = 0 then rows else rows.take offset

/-- Every row before the checkpoint has been dealt with. -/
structure Checkpointed (listings : List (ν × List ρ)) (done : ρ → Prop)
    (validator : Option ν) (offset : ℕ) : Prop where
  known : ∀ found, validator = some found → ∃ rows, (found, rows) ∈ listings
  rows : ∀ found rows, validator = some found → (found, rows) ∈ listings →
    ∀ row ∈ scanned offset rows, done row
  start : validator = none → offset = 0

theorem take_window (rows : List ρ) (offset size : ℕ) :
    rows.take (offset + ((rows.drop offset).take size).length) =
      rows.take offset ++ (rows.drop offset).take size := by
  rw [List.take_add, List.length_take]
  congr 1
  rw [List.take_eq_take_iff]
  omega

namespace Checkpointed

variable {listings : List (ν × List ρ)} {later : ρ → Prop}

/-- Nothing has been read. -/
theorem empty : Checkpointed listings done none 0 where
  known := fun _ hfound => nomatch hfound
  rows := fun _ _ hfound => nomatch hfound
  start := fun _ => rfl

theorem mono (hcheck : Checkpointed listings done validator offset)
    (hlater : ∀ row, done row → later row) : Checkpointed listings later validator offset where
  known := hcheck.known
  rows := fun found rows hfound hlisted row hrow =>
    hlater row (hcheck.rows found rows hfound hlisted row hrow)
  start := hcheck.start

variable {current : ν} {rows : List ρ}

/-- A checkpoint stays good when the list changes. -/
theorem concat (hcheck : Checkpointed listings done validator offset)
    (hidentifies : Identifies (listings ++ [(current, rows)])) :
    Checkpointed (listings ++ [(current, rows)]) done validator offset where
  known := by
    intro found hfound
    obtain ⟨old, hold⟩ := hcheck.known found hfound
    exact ⟨old, List.mem_append_left _ hold⟩
  rows := by
    intro found other hfound hlisted
    obtain ⟨old, hold⟩ := hcheck.known found hfound
    rw [hidentifies found other old hlisted (List.mem_append_left _ hold)]
    exact hcheck.rows found old hfound hold
  start := hcheck.start

/-- A validator that is still current answers for the whole list. -/
theorem whole (hcheck : Checkpointed listings done (some current) 0)
    (hlisted : (current, rows) ∈ listings) : ∀ row ∈ rows, done row :=
  hcheck.rows current rows rfl hlisted

/-- The window of the current list at a checkpoint of that list, or at its start. -/
theorem window (hcheck : Checkpointed listings done validator offset)
    (hlisted : (current, rows) ∈ listings) (hsame : offset = 0 ∨ validator = some current)
    (size : ℕ) :
    ∀ row ∈ rows.take (offset + ((rows.drop offset).take size).length),
      done row ∨ row ∈ (rows.drop offset).take size := by
  intro row hrow
  rw [take_window, List.mem_append] at hrow
  apply hrow.imp_left
  intro hbefore
  by_cases hoffset : offset = 0
  · rw [hoffset, List.take_zero] at hbefore
    cases hbefore
  · apply hcheck.rows current rows (hsame.resolve_left hoffset) hlisted row
    unfold scanned
    rw [if_neg hoffset]
    exact hbefore

/-- A list whose rows up to the offset are dealt with. -/
theorem of_take (hidentifies : Identifies listings) (hlisted : (current, rows) ∈ listings)
    (hpositive : offset ≠ 0) (hdone : ∀ row ∈ rows.take offset, done row) :
    Checkpointed listings done (some current) offset where
  known := fun _ hfound => ⟨rows, Option.some.inj hfound ▸ hlisted⟩
  rows := by
    intro found other hfound hother row hrow
    cases hfound
    rw [hidentifies current other rows hother hlisted] at hrow
    unfold scanned at hrow
    rw [if_neg hpositive] at hrow
    exact hdone row hrow
  start := fun hnone => nomatch hnone

/-- A list whose rows are all dealt with. -/
theorem of_all (hidentifies : Identifies listings) (hlisted : (current, rows) ∈ listings)
    (hdone : ∀ row ∈ rows, done row) :
    Checkpointed listings done (some current) 0 where
  known := fun _ hfound => ⟨rows, Option.some.inj hfound ▸ hlisted⟩
  rows := by
    intro found other hfound hother
    cases hfound
    rw [hidentifies current other rows hother hlisted]
    exact hdone
  start := fun _ => rfl

end Checkpointed

end JobApplyAgent.Library
