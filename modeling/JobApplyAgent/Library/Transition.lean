import Mathlib.Logic.Relation

/-!
# Labelled transition systems

A transition system is a set of initial states and a labelled step relation.
Runs are restricted by a guard on the state and the label, so that "every run
whose steps all meet a condition" is a reachability notion of its own.
-/

namespace JobApplyAgent.Library

universe u v

structure TransitionSystem (σ : Type u) (α : Type v) where
  initial : σ → Prop
  step : σ → α → σ → Prop

namespace TransitionSystem

variable {σ : Type u} {α : Type v} (system : TransitionSystem σ α)

/-- One guarded step under some label. -/
def Next (guard : σ → α → Prop) (before after : σ) : Prop :=
  ∃ label, guard before label ∧ system.step before label after

/-- Finitely many guarded steps. -/
def Path (guard : σ → α → Prop) : σ → σ → Prop :=
  Relation.ReflTransGen (system.Next guard)

/-- States reached from an initial state by guarded steps only. -/
def Reachable (guard : σ → α → Prop) (state : σ) : Prop :=
  ∃ start, system.initial start ∧ system.Path guard start state

/-- A predicate that holds initially and is preserved by guarded steps. -/
structure Invariant (guard : σ → α → Prop) (inv : σ → Prop) : Prop where
  init : ∀ state, system.initial state → inv state
  step : ∀ before label after, inv before → guard before label →
    system.step before label after → inv after

variable {system} {guard : σ → α → Prop}

variable {before : σ}

theorem Reachable.initial (hinit : system.initial state) :
    system.Reachable guard state :=
  ⟨state, hinit, .refl⟩

theorem Reachable.tail (hreach : system.Reachable guard before)
    (hguard : guard before label) (hstep : system.step before label after) :
    system.Reachable guard after := by
  obtain ⟨start, hinit, hpath⟩ := hreach
  exact ⟨start, hinit, hpath.tail ⟨label, hguard, hstep⟩⟩

theorem Reachable.trans (hreach : system.Reachable guard before)
    (hpath : system.Path guard before after) :
    system.Reachable guard after := by
  obtain ⟨start, hinit, hstart⟩ := hreach
  exact ⟨start, hinit, Relation.ReflTransGen.trans hstart hpath⟩

/-- An invariant holds along every path that starts inside it. -/
theorem Invariant.path (hinv : system.Invariant guard inv) (hbefore : inv before)
    (hpath : system.Path guard before after) :
    inv after := by
  induction hpath with
  | refl => exact hbefore
  | tail _ hnext ih =>
    obtain ⟨label, hguard, hstep⟩ := hnext
    exact hinv.step _ label _ ih hguard hstep

theorem Invariant.reachable (hinv : system.Invariant guard inv)
    (hreach : system.Reachable guard state) : inv state := by
  obtain ⟨start, hinit, hpath⟩ := hreach
  exact hinv.path (hinv.init start hinit) hpath

/-- A reflexive and transitive relation that every guarded step between
invariant states satisfies relates the two ends of a path. -/
theorem Invariant.path_rel (hinv : system.Invariant guard inv) {rel : σ → σ → Prop}
    (hrefl : ∀ state, rel state state)
    (htrans : ∀ {first second third}, rel first second → rel second third →
      rel first third) (hstep : ∀ before label after, inv before → guard before label →
      system.step before label after → rel before after) (hbefore : inv before)
    (hpath : system.Path guard before after) : rel before after := by
  induction hpath with
  | refl => exact hrefl _
  | tail hhead hnext ih =>
    obtain ⟨label, hguard, hlabel⟩ := hnext
    exact htrans ih
      (hstep _ label _ (hinv.path hbefore hhead) hguard hlabel)

theorem Reachable.mono (hweaker : ∀ state label, guard state label → weaker state label)
    (hreach : system.Reachable guard state) :
    system.Reachable weaker state := by
  obtain ⟨start, hinit, hpath⟩ := hreach
  refine ⟨start, hinit, Relation.ReflTransGen.mono ?_ _ _ hpath⟩
  rintro before after ⟨label, hguard, hstep⟩
  exact ⟨label, hweaker _ _ hguard, hstep⟩

/-- Perform the labels one after the other, as long as the check allows each. -/
def runWhile (perform : σ → α → Option σ) (check : σ → α → Bool) (state : σ) :
    List α → Option σ
  | [] => some state
  | label :: rest =>
    if check state label then
      (perform state label).bind fun after => runWhile perform check after rest
    else none

variable {perform : σ → α → Option σ}

theorem runWhile_path (hperform : ∀ before label after, perform before label = some after →
      system.step before label after)
    (hcheck : ∀ state label, check state label = true → guard state label)
    (hrun : runWhile perform check state labels = some after) :
    system.Path guard state after := by
  induction labels generalizing state with
  | nil =>
    cases hrun
    exact .refl
  | cons label rest ih =>
    unfold runWhile at hrun
    split at hrun
    · next hallowed =>
      rw [Option.bind_eq_some_iff] at hrun
      obtain ⟨middle, hstep, hrest⟩ := hrun
      have hnext : system.Next guard state middle :=
        ⟨label, hcheck state label hallowed, hperform state label middle hstep⟩
      exact Relation.ReflTransGen.head hnext (ih hrest)
    · cases hrun

/-- The state that a checked run ends in; a run that does not go through has not
started. -/
def runEnd (perform : σ → α → Option σ) (check : σ → α → Bool) (state : σ)
    (labels : List α) : σ :=
  (runWhile perform check state labels).getD state

theorem runEnd_reachable (hperform : ∀ before label after, perform before label = some after →
      system.step before label after)
    (hcheck : ∀ state label, check state label = true → guard state label)
    (hinit : system.initial state) (labels : List α) :
    system.Reachable guard (runEnd perform check state labels) := by
  refine ⟨state, hinit, ?_⟩
  unfold runEnd
  cases hrun : runWhile perform check state labels with
  | none => exact .refl
  | some after => exact runWhile_path hperform hcheck hrun

end TransitionSystem

end JobApplyAgent.Library
