import Mathlib.Data.List.Basic

/-!
# Running activities

The activities of a system, each under its place in a list.  An activity that has ended
leaves its place empty, so that a place never means two of them.
-/

namespace JobApplyAgent.Library

universe u

variable {σ : Type u}

abbrev Slots (σ : Type u) := List (Option σ)

namespace Slots

def entry (slots : Slots σ) (index : ℕ) : Option σ :=
  (slots[index]?).join

def put (slots : Slots σ) (index : ℕ) (activity : Option σ) : Slots σ :=
  slots.set index activity

def add (slots : Slots σ) (activity : σ) : Slots σ :=
  slots ++ [some activity]

variable {slots : Slots σ}

theorem entry_put (hfound : (slots.put index activity).entry place = some found) :
    place = index ∧ activity = some found ∨ place ≠ index ∧ slots.entry place = some found := by
  unfold entry put at *
  rw [Option.join_eq_some_iff, List.getElem?_set] at hfound
  split at hfound
  · next hsame =>
    split at hfound
    · exact .inl ⟨hsame.symm, Option.some.inj hfound⟩
    · cases hfound
  · next hother => exact .inr ⟨fun hsame => hother hsame.symm, Option.join_eq_some_iff.mpr hfound⟩

theorem entry_put_self (hold : slots.entry index = some old) (activity : Option σ) :
    (slots.put index activity).entry index = activity := by
  unfold entry at hold
  rw [Option.join_eq_some_iff] at hold
  have hindex := (List.getElem?_eq_some_iff.mp hold).1
  unfold entry put
  rw [List.getElem?_set_self hindex]
  rfl

theorem entry_put_of_ne (slots : Slots σ) (activity : Option σ) (hne : place ≠ index) :
    (slots.put index activity).entry place = slots.entry place := by
  unfold entry put
  rw [List.getElem?_set_ne (Ne.symm hne)]

theorem entry_add (hfound : (slots.add activity).entry place = some found) :
    slots.entry place = some found ∧ place < slots.length ∨
      place = slots.length ∧ found = activity := by
  unfold entry add at *
  rw [Option.join_eq_some_iff, List.getElem?_append] at hfound
  split at hfound
  · next hplace => exact .inl ⟨Option.join_eq_some_iff.mpr hfound, hplace⟩
  · next hplace =>
    rw [List.getElem?_eq_some_iff] at hfound
    obtain ⟨hshort, hsame⟩ := hfound
    have hzero : place - slots.length = 0 := by
      rw [List.length_singleton] at hshort
      omega
    refine .inr ⟨by omega, ?_⟩
    simp only [hzero, List.getElem_singleton, Option.some.injEq] at hsame
    exact hsame.symm

theorem entry_add_of_entry (hfound : slots.entry place = some found) (activity : σ) :
    (slots.add activity).entry place = some found := by
  unfold entry at hfound
  rw [Option.join_eq_some_iff] at hfound
  unfold entry add
  rw [List.getElem?_append_left (List.getElem?_eq_some_iff.mp hfound).1, hfound]
  rfl

theorem entry_add_self (slots : Slots σ) (activity : σ) :
    (slots.add activity).entry slots.length = some activity := by
  unfold entry add
  rw [List.getElem?_append_right (Nat.le_refl _)]
  simp

theorem entry_map_filter {keeps : σ → Bool}
    (hfound : entry (slots.map fun activity => activity.filter keeps) place = some found) :
    slots.entry place = some found ∧ keeps found = true := by
  unfold entry at *
  rw [List.getElem?_map, Option.join_eq_some_iff, Option.map_eq_some_iff] at hfound
  obtain ⟨activity, hactivity, hfilter⟩ := hfound
  obtain ⟨hsome, hkeeps⟩ := Option.filter_eq_some_iff.mp hfilter
  rw [hactivity, hsome]
  exact ⟨rfl, hkeeps⟩

end Slots

end JobApplyAgent.Library
