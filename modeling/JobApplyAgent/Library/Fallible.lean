import Mathlib.Data.List.Forall2

/-!
# Fallible transactions

Inversion of monadic steps that may fail: a successful composite names the
value of its first step.
-/

namespace JobApplyAgent.Library

universe u v

variable {ε : Type u} {α β : Type v}

variable {first : Except ε α} {rest : α → Except ε β} {value : β}

theorem bind_eq_ok :
    (first >>= rest) = .ok value ↔
      ∃ middle, first = .ok middle ∧ rest middle = .ok value := by
  cases first <;> simp [bind, Except.bind]

theorem bind_eq_error :
    (first >>= rest) = .error error ↔
      first = .error error ∨
        ∃ middle, first = .ok middle ∧ rest middle = .error error := by
  cases first <;> simp [bind, Except.bind]

theorem pure_eq_ok {value : α} :
    (pure value : Except ε α) = .ok result ↔ value = result := by
  simp [pure, Except.pure]

/-- A result that fails, if at all, with an error of one kind. -/
def FailsOnly (allowed : ε → Prop) (result : Except ε α) : Prop :=
  ∀ error, result = .error error → allowed error

namespace FailsOnly

theorem ok (value : α) : FailsOnly allowed (.ok value : Except ε α) := by
  intro error herror
  cases herror

theorem of_error (herror : allowed error) :
    FailsOnly allowed (.error error : Except ε α) := by
  intro found hfound
  cases hfound
  exact herror

/-- A composite fails only as its steps do. -/
theorem bind {first : Except ε α} (hfirst : FailsOnly allowed first)
    (hrest : ∀ value, first = .ok value → FailsOnly allowed (rest value)) :
    FailsOnly allowed (first >>= rest) := by
  intro error herror
  rcases bind_eq_error.mp herror with hfails | ⟨value, hvalue, hfails⟩
  · exact hfirst error hfails
  · exact hrest value hvalue error hfails

variable {result : Except ε α}

theorem map (hresult : FailsOnly allowed result) (f : α → β) :
    FailsOnly allowed (result.map f) := by
  intro error herror
  cases hfound : result with
  | error found =>
    rw [hfound] at herror
    cases herror
    exact hresult _ hfound
  | ok value =>
    rw [hfound] at herror
    cases herror

theorem mono (hresult : FailsOnly allowed result)
    (hweaker : ∀ error, allowed error → weaker error) :
    FailsOnly weaker result :=
  fun error herror => hweaker error (hresult error herror)

end FailsOnly

/-- A result that succeeds, if at all, with a value of one kind. -/
def SucceedsOnly (allowed : α → Prop) (result : Except ε α) : Prop :=
  ∀ value, result = .ok value → allowed value

namespace SucceedsOnly

theorem pure {value : β} (hvalue : allowed value) :
    SucceedsOnly allowed (Pure.pure value : Except ε β) := by
  intro found hfound
  cases hfound
  exact hvalue

/-- A composite succeeds only as its last step does. -/
theorem bind {first : Except ε α}
    (hrest : ∀ value, first = .ok value → SucceedsOnly allowed (rest value)) :
    SucceedsOnly allowed (first >>= rest) := by
  intro found hfound
  obtain ⟨value, hvalue, hfound⟩ := bind_eq_ok.mp hfound
  exact hrest value hvalue found hfound

end SucceedsOnly

/-- What every step of a fold keeps, the fold keeps. -/
theorem foldlM_invariant {step : β → α → Except ε β} (inv : β → Prop)
    (hkeep : ∀ state item after, inv state → step state item = .ok after → inv after)
    (items : List α) (hstate : inv state)
    (hfold : items.foldlM step state = .ok after) : inv after := by
  induction items generalizing state with
  | nil =>
    cases hfold
    exact hstate
  | cons item rest ih =>
    rw [List.foldlM_cons, bind_eq_ok] at hfold
    obtain ⟨middle, hstep, hrest⟩ := hfold
    exact ih (hkeep state item middle hstate hstep) hrest

variable {step : α → Except ε β} {items : List α} {results : List β}

/-- A traversal succeeds with the results of its steps, in their order. -/
theorem mapM_eq_ok :
    items.mapM step = .ok results ↔
      List.Forall₂ (fun item result => step item = .ok result) items results := by
  induction items generalizing results with
  | nil => rw [List.mapM_nil, pure_eq_ok, List.forall₂_nil_left_iff, eq_comm]
  | cons item rest ih =>
    rw [List.mapM_cons, bind_eq_ok, List.forall₂_cons_left_iff]
    apply exists_congr
    intro first
    rw [bind_eq_ok]
    simp only [ih, pure_eq_ok]
    constructor
    · rintro ⟨hfirst, later, hlater, rfl⟩
      exact ⟨later, hfirst, hlater, rfl⟩
    · rintro ⟨later, hfirst, hlater, rfl⟩
      exact ⟨hfirst, later, hlater, rfl⟩

section

variable (htraversed : items.mapM step = .ok results)
include htraversed

theorem exists_result_of_mapM (hitem : item ∈ items) :
    ∃ result ∈ results, step item = .ok result := by
  induction mapM_eq_ok.mp htraversed with
  | nil => cases hitem
  | cons hfirst hrest ih =>
    rcases List.mem_cons.mp hitem with rfl | hlater
    · exact ⟨_, .head _, hfirst⟩
    · obtain ⟨result, hresult, hstep⟩ := ih (mapM_eq_ok.mpr hrest) hlater
      exact ⟨result, .tail _ hresult, hstep⟩

theorem exists_item_of_mapM (hresult : result ∈ results) :
    ∃ item ∈ items, step item = .ok result := by
  induction mapM_eq_ok.mp htraversed with
  | nil => cases hresult
  | cons hfirst hrest ih =>
    rcases List.mem_cons.mp hresult with rfl | hlater
    · exact ⟨_, .head _, hfirst⟩
    · obtain ⟨item, hitem, hstep⟩ := ih (mapM_eq_ok.mpr hrest) hlater
      exact ⟨item, .tail _ hitem, hstep⟩

/-- What the results of a traversal tell of their items, in their order. -/
theorem map_of_mapM {γ : Type*} {f : α → γ} {g : β → γ}
    (hsame : ∀ item result, step item = .ok result → g result = f item) :
    results.map g = items.map f := by
  induction mapM_eq_ok.mp htraversed with
  | nil => rfl
  | cons hfirst hrest ih =>
    rw [List.map_cons, List.map_cons, hsame _ _ hfirst, ih (mapM_eq_ok.mpr hrest)]

/-- Two traversals with the same results agree on every item. -/
theorem exists_common_of_mapM {other : α → Except ε β}
    (hagain : items.mapM other = .ok results) (hitem : item ∈ items) :
    ∃ result, step item = .ok result ∧
      other item = .ok result := by
  induction mapM_eq_ok.mp htraversed with
  | nil => cases hitem
  | cons hfirst hrest ih =>
    obtain ⟨hsecond, hlater⟩ := List.forall₂_cons.mp (mapM_eq_ok.mp hagain)
    rcases List.mem_cons.mp hitem with rfl | hmem
    · exact ⟨_, hfirst, hsecond⟩
    · exact ih (mapM_eq_ok.mpr hrest) (mapM_eq_ok.mpr hlater) hmem

end

/-- A traversal succeeds exactly when every step does. -/
theorem mapM_succeeds_iff :
    (∃ results, items.mapM step = .ok results) ↔
      ∀ item ∈ items, ∃ result, step item = .ok result := by
  constructor
  · rintro ⟨results, htraversed⟩ item hitem
    obtain ⟨result, _, hstep⟩ := exists_result_of_mapM htraversed hitem
    exact ⟨result, hstep⟩
  · intro hsteps
    induction items with
    | nil => exact ⟨[], mapM_eq_ok.mpr .nil⟩
    | cons item rest ih =>
      obtain ⟨result, hresult⟩ := hsteps item (.head _)
      obtain ⟨results, hresults⟩ := ih fun later hlater => hsteps later (.tail _ hlater)
      exact ⟨result :: results, mapM_eq_ok.mpr (.cons hresult (mapM_eq_ok.mp hresults))⟩

/-- Report the first binding that does not hold. -/
def requireBindings : List (Bool × ε) → Except ε Unit
  | [] => .ok ()
  | (holds, error) :: rest => if holds then requireBindings rest else .error error

theorem requireBindings_eq_ok :
    requireBindings bindings = .ok () ↔
      ∀ binding ∈ bindings, binding.1 = true := by
  induction bindings with
  | nil => simp [requireBindings]
  | cons binding rest ih =>
    obtain ⟨holds, error⟩ := binding
    cases holds <;> simp [requireBindings, ih]

/-- A mapped computation succeeds with the image of its result. -/
theorem map_eq_ok {result : Except ε α} :
    result.map f = .ok value ↔ ∃ inner, result = .ok inner ∧ f inner = value := by
  cases result <;> simp [Except.map]

end JobApplyAgent.Library
