import Mathlib.Data.List.Sort

/-!
# Tables as lists

A table is the list of its rows and a primary key is a position in it.  Rows
are replaced in place and appended, never removed.  A procedure may sweep a table, or update
its rows by a key that they carry.
-/

namespace JobApplyAgent.Library

variable {ρ : Type*}

variable {rows before : List ρ} {key : ℕ} {row : ρ} {fresh : ρ → Prop}

variable {found : ρ} {first second : List ρ}

/-- A row of a table after one row was replaced is the new row or an old one. -/
theorem getElem?_set_eq_some (hfound : (rows.set key row)[other]? = some found) :
    (other = key ∧ found = row) ∨ (other ≠ key ∧ rows[other]? = some found) := by
  rw [List.getElem?_set] at hfound
  split at hfound
  · next heq =>
    subst heq
    split at hfound
    · exact .inl ⟨rfl, (Option.some.inj hfound).symm⟩
    · cases hfound
  · next hne => exact .inr ⟨fun heq => hne heq.symm, hfound⟩

theorem getElem?_set_self_of_some (hold : rows[key]? = some old) :
    (rows.set key row)[key]? = some row := by
  rw [List.getElem?_set_self]
  exact (List.getElem?_eq_some_iff.mp hold).1

/-- A row of a table after one row was added is the new row or an old one. -/
theorem getElem?_append_singleton_eq_some (hfound : (rows ++ [row])[other]? = some found) :
    (other = rows.length ∧ found = row) ∨ rows[other]? = some found := by
  rcases Nat.lt_trichotomy other rows.length with hlt | rfl | hgt
  · rw [List.getElem?_append_left hlt] at hfound
    exact .inr hfound
  · rw [List.getElem?_concat_length] at hfound
    exact .inl ⟨rfl, (Option.some.inj hfound).symm⟩
  · rw [List.getElem?_eq_none (by simp; omega)] at hfound
    cases hfound

theorem getElem?_append_of_some {added : List ρ} (hrow : rows[key]? = some row) :
    (rows ++ added)[key]? = some row := by
  rw [List.getElem?_append_left (List.getElem?_eq_some_iff.mp hrow).1]
  exact hrow

/-- Every row of a table satisfies a predicate. -/
def AllRows (rows : List ρ) (pred : ρ → Prop) : Prop :=
  ∀ (key : ℕ) (row : ρ), rows[key]? = some row → pred row

theorem AllRows.set (hrows : AllRows rows pred) (hrow : pred row) :
    AllRows (rows.set key row) pred := by
  intro other found hfound
  rcases getElem?_set_eq_some hfound with ⟨_, rfl⟩ | ⟨_, hold⟩
  · exact hrow
  · exact hrows other found hold

theorem AllRows.concat (hrows : AllRows rows pred) (hrow : pred row) :
    AllRows (rows ++ [row]) pred := by
  intro other found hfound
  rcases getElem?_append_singleton_eq_some hfound with ⟨_, rfl⟩ | hold
  · exact hrow
  · exact hrows other found hold

/-- Two tables with the same keys whose rows are related one by one. -/
structure Carried (rel : ρ → ρ → Prop) (before after : List ρ) : Prop where
  length : after.length = before.length
  kept : ∀ (key : ℕ) (row : ρ), before[key]? = some row →
    ∃ kept, after[key]? = some kept ∧ rel row kept

theorem Carried.refl (hrefl : ∀ row, rel row row) (rows : List ρ) : Carried rel rows rows :=
  ⟨rfl, fun _ row hrow => ⟨row, hrow, hrefl row⟩⟩

theorem Carried.trans (htrans : ∀ first second third, rel first second → rel second third →
      rel first third) (hfirst : Carried rel first second) (hsecond : Carried rel second third) :
    Carried rel first third where
  length := hsecond.length.trans hfirst.length
  kept := by
    intro key row hrow
    obtain ⟨middle, hmiddle, hrel⟩ := hfirst.kept key row hrow
    obtain ⟨last, hlast, hrel'⟩ := hsecond.kept key middle hmiddle
    exact ⟨last, hlast, htrans _ _ _ hrel hrel'⟩

/-- Every row of the later table comes from a row of the earlier one. -/
theorem Carried.origin (hcarried : Carried rel before after) {kept : ρ}
    (hkept : after[key]? = some kept) :
    ∃ row, before[key]? = some row ∧ rel row kept := by
  have hbound := (List.getElem?_eq_some_iff.mp hkept).1
  rw [hcarried.length] at hbound
  have hrow : before[key]? = some before[key] := List.getElem?_eq_getElem hbound
  obtain ⟨found, hfound, hrel⟩ := hcarried.kept key _ hrow
  rw [hkept, Option.some.injEq] at hfound
  exact ⟨_, hrow, hfound ▸ hrel⟩

theorem carried_iff_forall₂ :
    Carried rel before after ↔ List.Forall₂ rel before after := by
  rw [List.forall₂_iff_get]
  constructor
  · rintro ⟨hlength, hkept⟩
    refine ⟨hlength.symm, fun key hbefore hafter => ?_⟩
    obtain ⟨kept, hkey, hrel⟩ := hkept key _ (List.getElem?_eq_getElem hbefore)
    rw [List.getElem?_eq_getElem hafter, Option.some.injEq] at hkey
    subst hkey
    exact hrel
  · rintro ⟨hlength, hget⟩
    refine ⟨hlength.symm, fun key row hrow => ?_⟩
    obtain ⟨hbound, rfl⟩ := List.getElem?_eq_some_iff.mp hrow
    exact ⟨_, List.getElem?_eq_getElem (hlength ▸ hbound), hget key hbound _⟩

theorem Carried.filter (hcarried : Carried rel before after)
    (hpred : ∀ old new, rel old new → pred new = pred old) :
    Carried rel (before.filter pred) (after.filter pred) := by
  rw [carried_iff_forall₂] at hcarried ⊢
  exact List.rel_filter (fun old new hrel => by simp [hpred old new hrel]) hcarried

/-- A column that the relation keeps is unchanged as a whole. -/
theorem Carried.map_eq (hcarried : Carried rel before after) {γ : Type*} {column : ρ → γ}
    (hcolumn : ∀ old new, rel old new → column new = column old) :
    after.map column = before.map column := by
  rw [carried_iff_forall₂] at hcarried
  induction hcarried with
  | nil => rfl
  | cons hrel _ ih => rw [List.map_cons, List.map_cons, hcolumn _ _ hrel, ih]

theorem Carried.set (hrefl : ∀ row, rel row row) (hold : rows[key]? = some old)
    (hrel : rel old new) : Carried rel rows (rows.set key new) where
  length := by simp
  kept := by
    intro other row hrow
    by_cases heq : other = key
    · subst heq
      rw [hold, Option.some.injEq] at hrow
      subst hrow
      exact ⟨new, getElem?_set_self_of_some hold, hrel⟩
    · refine ⟨row, ?_, hrefl row⟩
      rw [List.getElem?_set_ne (Ne.symm heq)]
      exact hrow

/-- A table that kept every row up to a relation and may have new rows. -/
structure Evolved (rel : ρ → ρ → Prop) (fresh : ρ → Prop) (before after : List ρ) :
    Prop where
  kept : ∀ (key : ℕ) (row : ρ), before[key]? = some row →
    ∃ kept, after[key]? = some kept ∧ rel row kept
  origin : ∀ (key : ℕ) (row : ρ), after[key]? = some row →
    (∃ old, before[key]? = some old ∧ rel old row) ∨
      before[key]? = none ∧ fresh row

theorem Carried.evolved (hcarried : Carried rel before after) (fresh : ρ → Prop) :
    Evolved rel fresh before after :=
  ⟨hcarried.kept, fun _ _ hrow => .inl (hcarried.origin hrow)⟩

theorem Evolved.refl (hrefl : ∀ row, rel row row) (fresh : ρ → Prop) (rows : List ρ) :
    Evolved rel fresh rows rows :=
  (Carried.refl hrefl rows).evolved fresh

theorem Evolved.mono (hevolved : Evolved rel fresh before after)
    (hrel : ∀ old new, rel old new → weaker old new)
    (hfresh : ∀ row, fresh row → other row) : Evolved weaker other before after where
  kept := by
    intro key row hrow
    obtain ⟨kept, hkept, hstep⟩ := hevolved.kept key row hrow
    exact ⟨kept, hkept, hrel row kept hstep⟩
  origin := by
    intro key row hrow
    rcases hevolved.origin key row hrow with ⟨old, hold, hstep⟩ | ⟨hnone, hrow⟩
    · exact .inl ⟨old, hold, hrel old row hstep⟩
    · exact .inr ⟨hnone, hfresh row hrow⟩

theorem Evolved.trans (htrans : ∀ first second third, rel first second → rel second third →
      rel first third) (hfresh : ∀ old new, fresh old → rel old new → fresh new)
    (hfirst : Evolved rel fresh first second) (hsecond : Evolved rel fresh second third) :
    Evolved rel fresh first third where
  kept := by
    intro key row hrow
    obtain ⟨middle, hmiddle, hrel⟩ := hfirst.kept key row hrow
    obtain ⟨last, hlast, hrel'⟩ := hsecond.kept key middle hmiddle
    exact ⟨last, hlast, htrans _ _ _ hrel hrel'⟩
  origin := by
    intro key row hrow
    rcases hsecond.origin key row hrow with ⟨middle, hmiddle, hrel⟩ | ⟨hnone, hnew⟩
    · rcases hfirst.origin key middle hmiddle with ⟨old, hold, hrel'⟩ | ⟨hnone, hnew⟩
      · exact .inl ⟨old, hold, htrans _ _ _ hrel' hrel⟩
      · exact .inr ⟨hnone, hfresh middle row hnew hrel⟩
    · refine .inr ⟨?_, hnew⟩
      cases hbefore : first[key]? with
      | none => rfl
      | some old =>
        obtain ⟨middle, hmiddle, _⟩ := hfirst.kept key old hbefore
        rw [hnone] at hmiddle
        cases hmiddle

/-- A predicate that every rewrite keeps and every new row has holds of the later
table. -/
theorem Evolved.allRows (hevolved : Evolved rel fresh before after) (hbefore : AllRows before pred)
    (hrel : ∀ old new, pred old → rel old new → pred new) (hfresh : ∀ row, fresh row → pred row) :
    AllRows after pred := by
  intro key row hrow
  rcases hevolved.origin key row hrow with ⟨old, hold, hstep⟩ | ⟨_, hnew⟩
  · exact hrel old row (hbefore key old hold) hstep
  · exact hfresh row hnew

theorem Evolved.concat (hrefl : ∀ row, rel row row) (rows : List ρ) (hrow : fresh row) :
    Evolved rel fresh rows (rows ++ [row]) where
  kept := fun _ old hold => ⟨old, getElem?_append_of_some hold, hrefl old⟩
  origin := by
    intro key found hfound
    rcases getElem?_append_singleton_eq_some hfound with ⟨rfl, rfl⟩ | hold
    · exact .inr ⟨by simp, hrow⟩
    · exact .inl ⟨found, hold, hrefl found⟩

theorem Evolved.added (hrefl : ∀ row, rel row row) (rows : List ρ) {added : List ρ}
    (hadded : ∀ row ∈ added, fresh row) : Evolved rel fresh rows (rows ++ added) where
  kept := fun _ old hold => ⟨old, getElem?_append_of_some hold, hrefl old⟩
  origin := by
    intro key found hfound
    by_cases hlt : key < rows.length
    · rw [List.getElem?_append_left hlt] at hfound
      exact .inl ⟨found, hfound, hrefl found⟩
    · rw [List.getElem?_append_right (not_lt.mp hlt)] at hfound
      exact .inr ⟨List.getElem?_eq_none (not_lt.mp hlt),
        hadded found (List.mem_of_getElem? hfound)⟩

/-- Appending to a table that may grow. -/
theorem Evolved.append (hevolved : Evolved rel (fun _ => True) before after) (added : List ρ) :
    Evolved rel (fun _ => True) before (after ++ added) where
  kept := by
    intro key row hrow
    obtain ⟨kept, hkept, hrel⟩ := hevolved.kept key row hrow
    exact ⟨kept, getElem?_append_of_some hkept, hrel⟩
  origin := by
    intro key row hrow
    cases hafter : after[key]? with
    | some found =>
      rw [getElem?_append_of_some hafter, Option.some.injEq] at hrow
      subst hrow
      exact hevolved.origin key found hafter
    | none =>
      refine .inr ⟨?_, trivial⟩
      cases hbefore : before[key]? with
      | none => rfl
      | some old =>
        obtain ⟨kept, hkept, _⟩ := hevolved.kept key old hbefore
        rw [hafter] at hkept
        cases hkept

/-! ## Queues -/

/-- The rows that satisfy a predicate, with their keys, in the order of a rank
and then of the key. -/
def ranked (rows : List ρ) (pred : ρ → Bool) (rank : ρ → ℤ) : List (ρ × ℕ) :=
  (rows.zipIdx.filter fun entry => pred entry.1).insertionSort
    fun first second => rank first.1 ≤ rank second.1

/-- Rewrite the first `limit` rows of a queue in place. -/
def rewriteRanked (rows : List ρ) (pred : ρ → Bool) (rank : ρ → ℤ) (limit : ℕ)
    (rewrite : ρ → ρ) : List ρ :=
  (((ranked rows pred rank).take limit).map Prod.snd).foldl
    (fun stored key => stored.modify key rewrite) rows

theorem mem_ranked {rank : ρ → ℤ} (hmem : (row, key) ∈ ranked rows pred rank) :
    rows[key]? = some row ∧ pred row = true := by
  rw [ranked, List.mem_insertionSort] at hmem
  obtain ⟨hzip, hpred⟩ := List.mem_filter.mp hmem
  rw [List.mk_mem_zipIdx_iff_getElem?] at hzip
  exact ⟨hzip, hpred⟩

theorem Carried.modify (hrefl : ∀ row, rel row row) (hrewrite : ∀ row, rel row (rewrite row))
    (rows : List ρ) (key : ℕ) :
    Carried rel rows (rows.modify key rewrite) where
  length := by simp
  kept := by
    intro other row hrow
    rw [List.getElem?_modify, hrow]
    by_cases heq : key = other
    · exact ⟨rewrite row, by simp [heq], hrewrite row⟩
    · exact ⟨row, by simp [heq], hrefl row⟩

theorem Carried.rewriteRanked (hrefl : ∀ row, rel row row)
    (htrans : ∀ first second third, rel first second → rel second third →
      rel first third) (hrewrite : ∀ row, rel row (rewrite row)) (rows : List ρ) (pred : ρ → Bool)
    (rank : ρ → ℤ) (limit : ℕ) :
    Carried rel rows (rewriteRanked rows pred rank limit rewrite) := by
  have hfold : ∀ (keys : List ℕ) (stored : List ρ), Carried rel rows stored →
      Carried rel rows
        (keys.foldl (fun stored key => stored.modify key rewrite) stored) := by
    intro keys
    induction keys with
    | nil => exact fun _ hstored => hstored
    | cons key keys ih =>
      intro stored hstored
      have hmodified : Carried rel stored (stored.modify key rewrite) :=
        .modify hrefl hrewrite stored key
      exact ih _ (hstored.trans htrans hmodified)
  exact hfold _ _ (.refl hrefl rows)

/-- A stronger condition counts as many rows when no row tells the two apart. -/
theorem countP_eq_countP_iff (himp : ∀ row ∈ rows, p row = true → q row = true) :
    rows.countP p = rows.countP q ↔ ∀ row ∈ rows, q row = true → p row = true := by
  induction rows with
  | nil => simp
  | cons row rows ih =>
    rw [List.forall_mem_cons] at himp
    have hle := List.countP_mono_left himp.2
    rw [List.forall_mem_cons, ← ih himp.2]
    cases hp : p row with
    | true => simp [hp, himp.1 hp]
    | false =>
      cases hq : q row with
      | true =>
        simp only [List.countP_cons, hp, hq]
        simp
        omega
      | false => simp [hp, hq]

/-! ## Sweeps -/

section

universe u v w

variable {ρ : Type u} {κ : Type v} {ν : Type w}

/-- Rewrite the rows that are touched. -/
def sweep (touches : ρ → Bool) (rewrite : ρ → ρ) (rows : List ρ) : List ρ :=
  rows.map fun row => if touches row then rewrite row else row

variable {rows : List ρ}

theorem sweep_forall {pred : ρ → Prop}
    (htouched : ∀ row ∈ rows, touches row = true → pred (rewrite row))
    (hrest : ∀ row ∈ rows, touches row = false → pred row) :
    ∀ row ∈ sweep touches rewrite rows, pred row := by
  intro row hrow
  obtain ⟨old, hold, rfl⟩ := List.mem_map.mp hrow
  split
  · next htouches => exact htouched old hold htouches
  · next htouches => exact hrest old hold (by simpa using htouches)

/-- A sweep changes nothing exactly when no touched row is rewritten. -/
theorem sweep_eq_self_iff :
    sweep touches rewrite rows = rows ↔
      ∀ row ∈ rows, touches row = true → rewrite row = row := by
  unfold sweep
  induction rows with
  | nil => simp
  | cons row rest ih =>
    rw [List.map_cons, List.cons.injEq, ih, List.forall_mem_cons]
    apply and_congr_left'
    split
    · next htouches => simp [htouches]
    · next htouches => simp [htouches]

theorem sweep_eq_self (hrest : ∀ row ∈ rows, touches row = false) :
    sweep touches rewrite rows = rows := by
  apply sweep_eq_self_iff.mpr
  intro row hrow htouches
  rw [hrest row hrow] at htouches
  cases htouches

/-! ## Notes -/

/-- A dictionary from keys to notes, whose first note of a key stays unless it is overwritten. -/
abbrev Notes (κ : Type v) (ν : Type w) := κ → Option ν

namespace Notes

variable [DecidableEq κ]

def empty : Notes κ ν := fun _ => none

/-- `notes.setdefault(key, note)`. -/
def setDefault (notes : Notes κ ν) (key : κ) (note : ν) : Notes κ ν :=
  fun other => if other = key then (notes other).or (some note) else notes other

/-- `notes[key] = note`. -/
def put (notes : Notes κ ν) (key : κ) (note : ν) : Notes κ ν :=
  fun other => if other = key then some note else notes other

variable {notes : Notes κ ν} {key : κ}

theorem isSome_setDefault :
    (notes.setDefault key note other).isSome = true ↔
      other = key ∨ (notes other).isSome = true := by
  unfold setDefault
  split
  · next hkey => simp [hkey]
  · next hkey => simp [hkey]

theorem isSome_put :
    (notes.put key note other).isSome = true ↔
      other = key ∨ (notes other).isSome = true := by
  unfold put
  split
  · next hkey => simp [hkey]
  · next hkey => simp [hkey]

/-- Note the owners of the touched rows, but none that is exempt. -/
def noteOwners (touches : ρ → Bool) (owner : ρ → κ) (exempt : κ → Bool) (note : ν)
    (rows : List ρ) (notes : Notes κ ν) : Notes κ ν :=
  rows.foldl (fun notes row =>
    if touches row && !exempt (owner row) then notes.setDefault (owner row) note else notes)
    notes

theorem isSome_noteOwners :
    (noteOwners touches owner exempt note rows notes key).isSome = true ↔
      (notes key).isSome = true ∨
        ∃ row ∈ rows, touches row = true ∧ owner row = key ∧ exempt key = false := by
  induction rows generalizing notes with
  | nil => simp [noteOwners]
  | cons row rest ih =>
    unfold noteOwners at ih ⊢
    rw [List.foldl_cons, ih]
    split
    · next hnoted =>
      simp only [Bool.and_eq_true, Bool.not_eq_true'] at hnoted
      rw [isSome_setDefault]
      constructor
      · rintro ((rfl | hkey) | ⟨other, hother, hrest⟩)
        · exact .inr ⟨row, by simp, hnoted.1, rfl, hnoted.2⟩
        · exact .inl hkey
        · exact .inr ⟨other, by simp [hother], hrest⟩
      · rintro (hkey | ⟨other, hother, htouched, howner, hexempt⟩)
        · exact .inl (.inr hkey)
        · rcases List.mem_cons.mp hother with rfl | hother
          · exact .inl (.inl howner.symm)
          · exact .inr ⟨other, hother, htouched, howner, hexempt⟩
    · next hnoted =>
      apply or_congr_right
      constructor
      · rintro ⟨other, hother, hrest⟩
        exact ⟨other, by simp [hother], hrest⟩
      · rintro ⟨other, hother, htouched, rfl, hexempt⟩
        rcases List.mem_cons.mp hother with rfl | hother
        · simp [htouched, hexempt] at hnoted
        · exact ⟨other, hother, htouched, rfl, hexempt⟩

end Notes

end

/-! ## Updates by key -/

section

universe u v w

variable {ρ : Type u} {κ : Type v} {α : Type w} [DecidableEq κ]

/-- Rewrite the rows under one key. -/
def updateWhere (key : ρ → κ) (place : κ) (rewrite : ρ → ρ) (rows : List ρ) : List ρ :=
  rows.map fun row => if key row = place then rewrite row else row

/-- Make one update by key for each item, in order. -/
def updateEach (key : ρ → κ) (place : α → κ) (rewrite : α → ρ → ρ) (items : List α)
    (rows : List ρ) : List ρ :=
  items.foldl (fun stored item => updateWhere key (place item) (rewrite item) stored) rows

/-- What the loop makes of one row. -/
def rewritten (key : ρ → κ) (place : α → κ) (rewrite : α → ρ → ρ) (items : List α) (row : ρ) :
    ρ :=
  items.foldl (fun row item => if key row = place item then rewrite item row else row) row

variable {key : ρ → κ} {rewrite : α → ρ → ρ}

theorem updateEach_eq_map (items : List α) (rows : List ρ) :
    updateEach key place rewrite items rows =
      rows.map (rewritten key place rewrite items) := by
  unfold updateEach
  induction items generalizing rows with
  | nil => exact (List.map_id rows).symm
  | cons item rest ih =>
    rw [List.foldl_cons, ih, updateWhere, List.map_map]
    rfl

/-- A row that no update is for is unchanged. -/
theorem rewritten_of_forall_ne {row : ρ}
    (hother : ∀ item ∈ items, key row ≠ place item) :
    rewritten key place rewrite items row = row := by
  unfold rewritten
  induction items with
  | nil => rfl
  | cons item rest ih =>
    rw [List.forall_mem_cons] at hother
    rw [List.foldl_cons, if_neg hother.1]
    exact ih hother.2

/-- A column that no update writes is kept. -/
theorem column_rewritten {β : Type*} (column : ρ → β)
    (hcolumn : ∀ item row, column (rewrite item row) = column row) (items : List α) (row : ρ) :
    column (rewritten key place rewrite items row) = column row := by
  unfold rewritten
  induction items generalizing row with
  | nil => rfl
  | cons item rest ih =>
    rw [List.foldl_cons, ih]
    split
    · exact hcolumn item row
    · rfl

section KeepsKey

variable (hkey : ∀ item row, key (rewrite item row) = key row)

include hkey

/-- When at most one update is for a row, the loop makes that update. -/
theorem rewritten_of_mem (hplaces : (items.map place).Nodup)
    (hitem : item ∈ items) {row : ρ} (hrow : key row = place item) :
    rewritten key place rewrite items row = rewrite item row := by
  induction items generalizing row with
  | nil => cases hitem
  | cons first rest ih =>
    rw [List.map_cons, List.nodup_cons] at hplaces
    have hstep : rewritten key place rewrite (first :: rest) row =
        rewritten key place rewrite rest
          (if key row = place first then rewrite first row else row) := rfl
    rw [hstep]
    rcases List.mem_cons.mp hitem with rfl | hrest
    · rw [if_pos hrow]
      apply rewritten_of_forall_ne
      intro other hother hsame
      rw [hkey, hrow] at hsame
      exact hplaces.1 (hsame ▸ List.mem_map_of_mem hother)
    · have hne : key row ≠ place first := by
        intro hsame
        rw [hrow] at hsame
        exact hplaces.1 (hsame ▸ List.mem_map_of_mem hrest)
      rw [if_neg hne]
      exact ih hplaces.2 hrest hrow

theorem map_key_updateEach (items : List α) (rows : List ρ) :
    (updateEach key place rewrite items rows).map key = rows.map key := by
  rw [updateEach_eq_map, List.map_map]
  apply List.map_congr_left
  intro row _
  exact column_rewritten key hkey items row

end KeepsKey

end

end JobApplyAgent.Library
