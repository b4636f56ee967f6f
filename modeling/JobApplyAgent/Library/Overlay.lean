import Mathlib.Data.List.Basic

/-!
# Tables under uncommitted writes

A transaction sees the committed rows under the versions that it has written
itself.  A mapper on top of it keeps the rows that it has loaded, and writes back
only the columns that it has changed since.
-/

namespace JobApplyAgent.Library

universe u

variable {ρ : Type u}

/-- The rows of a table by their id. -/
abbrev Table (ρ : Type u) := ℕ → Option ρ

namespace Table

def empty : Table ρ := fun _ => none

def put (table : Table ρ) (id : ℕ) (row : ρ) : Table ρ :=
  fun other => if other = id then some row else table other

/-- The rows of `base` under the versions of `writes`. -/
def overlay (writes base : Table ρ) : Table ρ :=
  fun id => (writes id).or (base id)

/-- The first id below the bound whose row satisfies the test. -/
def first (table : Table ρ) (bound : ℕ) (test : ρ → Bool) : Option ℕ :=
  (List.range bound).find? fun id => (table id).any test

theorem put_self (table : Table ρ) (id : ℕ) (row : ρ) : table.put id row id = some row := by
  simp [put]

variable {id : ℕ} {table : Table ρ} {row : ρ}

theorem put_of_ne (table : Table ρ) (row : ρ) (hne : other ≠ id) :
    table.put id row other = table other := by
  simp [put, hne]

theorem put_eq_some {found : ρ} (hfound : table.put id row other = some found) :
    other = id ∧ found = row ∨ other ≠ id ∧ table other = some found := by
  by_cases hsame : other = id
  · subst hsame
    rw [put_self] at hfound
    exact .inl ⟨rfl, (Option.some.inj hfound).symm⟩
  · rw [put_of_ne table row hsame] at hfound
    exact .inr ⟨hsame, hfound⟩

theorem put_of_some (hrow : table id = some row) :
    table.put id row = table := by
  funext other
  unfold put
  split
  · next hsame => rw [hsame, hrow]
  · rfl

theorem overlay_eq_some :
    overlay writes base id = some row ↔
      writes id = some row ∨ writes id = none ∧ base id = some row := by
  unfold overlay
  cases writes id <;> simp

theorem first_eq_none :
    table.first bound test = none ↔
      ∀ id row, id < bound → table id = some row → test row = false := by
  unfold first
  rw [List.find?_eq_none]
  constructor
  · intro hnone id row hid hrow
    simpa [hrow] using hnone id (List.mem_range.mpr hid)
  · intro hfails id hid
    cases hrow : table id with
    | none => simp
    | some row => simpa using hfails id row (List.mem_range.mp hid) hrow

end Table

/-- A row as it was loaded and as it is staged to be written back. -/
structure Tracked (ρ : Type u) where
  loaded : ρ
  staged : ρ

/-- A row that was just loaded. -/
def Tracked.fresh (row : ρ) : Tracked ρ := ⟨row, row⟩

/-- The value of a column that is written back over the current one. -/
def writeBack [DecidableEq ρ] (loaded staged current : ρ) : ρ :=
  if staged = loaded then current else staged

theorem writeBack_cases [DecidableEq ρ] (loaded staged current : ρ) :
    writeBack loaded staged current = staged ∨
      staged = loaded ∧ writeBack loaded staged current = current := by
  unfold writeBack
  split
  · next hsame => exact .inr ⟨hsame, rfl⟩
  · exact .inl rfl

end JobApplyAgent.Library
