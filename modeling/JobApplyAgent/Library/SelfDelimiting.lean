import Mathlib.Data.List.Basic

/-!
# Self-delimiting encodings

An encoding that can be told apart in front of anything.  Such encodings may stand one behind
the other: a record, a sequence and a length-prefixed frame give back what they were made of.
-/

namespace JobApplyAgent.Library

variable {α β γ : Type*}

/-- What is written in front of anything tells what was written and what comes after it. -/
def SelfDelimiting (encode : α → List β) : Prop :=
  ∀ ⦃first second : α⦄ ⦃rest tail : List β⦄,
    encode first ++ rest = encode second ++ tail → first = second ∧ rest = tail

namespace SelfDelimiting

variable {encode : α → List β}

/-- A reader that undoes the encoding, whatever comes after it. -/
theorem of_reader {read : List β → Option (α × List β)}
    (hread : ∀ value rest, read (encode value ++ rest) = some (value, rest)) :
    SelfDelimiting encode := by
  intro first second rest tail heq
  have hsame := congrArg read heq
  rw [hread, hread] at hsame
  exact Prod.mk.inj (Option.some.inj hsame)

section

variable (hencode : SelfDelimiting encode)
include hencode

theorem injective : Function.Injective encode := by
  intro first second heq
  exact (hencode (congrArg (· ++ []) heq)).1

theorem comp {source : γ → α}
    (hsource : Function.Injective source) : SelfDelimiting fun value => encode (source value) := by
  intro first second rest tail heq
  obtain ⟨hsame, hrest⟩ := hencode heq
  exact ⟨hsource hsame, hrest⟩

/-- A word in front of an encoding. -/
theorem headed (head : List β) :
    SelfDelimiting fun value => head ++ encode value := by
  intro first second rest tail heq
  dsimp only at heq
  rw [List.append_assoc, List.append_assoc] at heq
  exact hencode (List.append_cancel_left heq)

/-- A sequence of encodings that are not empty, with nothing behind it. -/
theorem flatMap_injective (hnonempty : ∀ value, encode value ≠ []) :
    Function.Injective fun values : List α => values.flatMap encode := by
  intro first second heq
  dsimp only at heq
  induction first generalizing second with
  | nil =>
    cases second with
    | nil => rfl
    | cons value second =>
      rw [List.flatMap_nil, List.flatMap_cons] at heq
      exact absurd (List.append_eq_nil_iff.mp heq.symm).1 (hnonempty value)
  | cons value first ih =>
    cases second with
    | nil =>
      rw [List.flatMap_nil, List.flatMap_cons] at heq
      exact absurd (List.append_eq_nil_iff.mp heq).1 (hnonempty value)
    | cons other second =>
      rw [List.flatMap_cons, List.flatMap_cons] at heq
      obtain ⟨hvalue, hrest⟩ := hencode heq
      rw [hvalue, ih hrest]

/-- Sequences of one length in front of anything. -/
theorem flatMap_append {first second : List α}
    {tail : List β} (hlength : first.length = second.length)
    (heq : first.flatMap encode ++ rest = second.flatMap encode ++ tail) :
    first = second ∧ rest = tail := by
  induction first generalizing second with
  | nil =>
    rw [List.length_nil, eq_comm, List.length_eq_zero_iff] at hlength
    subst hlength
    exact ⟨rfl, heq⟩
  | cons value first ih =>
    cases second with
    | nil => cases hlength
    | cons other second =>
      rw [List.flatMap_cons, List.flatMap_cons, List.append_assoc, List.append_assoc] at heq
      obtain ⟨hvalue, hrest⟩ := hencode heq
      obtain ⟨hsame, htail⟩ := ih (Nat.succ.inj hlength) hrest
      exact ⟨by rw [hvalue, hsame], htail⟩

/-- A sequence of encodings in front of a word that begins none of them. -/
theorem closed {stop : List β}
    (hstop : ∀ value rest tail, encode value ++ rest ≠ stop ++ tail) :
    SelfDelimiting fun values : List α => values.flatMap encode ++ stop := by
  intro first second rest tail heq
  dsimp only at heq
  rw [List.append_assoc, List.append_assoc] at heq
  induction first generalizing second with
  | nil =>
    cases second with
    | nil => exact ⟨rfl, List.append_cancel_left heq⟩
    | cons value second =>
      rw [List.flatMap_nil, List.nil_append, List.flatMap_cons, List.append_assoc] at heq
      exact absurd heq.symm (hstop _ _ _)
  | cons value first ih =>
    cases second with
    | nil =>
      rw [List.flatMap_nil, List.nil_append, List.flatMap_cons, List.append_assoc] at heq
      exact absurd heq (hstop _ _ _)
    | cons other second =>
      rw [List.flatMap_cons, List.flatMap_cons, List.append_assoc, List.append_assoc] at heq
      obtain ⟨hvalue, hrest⟩ := hencode heq
      obtain ⟨hsame, htail⟩ := ih hrest
      exact ⟨by rw [hvalue, hsame], htail⟩

end

end SelfDelimiting

/-! ## Length-prefixed frames -/

section Frames

variable {mark : β}

/-- The length of a body, a mark, and the body. -/
def frame (spell : ℕ → List β) (mark : β) (body : List β) : List β :=
  spell body.length ++ mark :: body

theorem append_mark_inj {first second tail : List β} (hfirst : mark ∉ first)
    (hsecond : mark ∉ second) (heq : first ++ mark :: rest = second ++ mark :: tail) :
    first = second ∧ rest = tail := by
  rcases List.append_eq_append_iff.mp heq with ⟨middle, rfl, hrest⟩ | ⟨middle, rfl, hrest⟩
  · cases middle with
    | nil => exact ⟨(List.append_nil _).symm, (List.cons.inj hrest).2⟩
    | cons item middle =>
      obtain ⟨rfl, _⟩ := List.cons.inj hrest
      exact absurd (List.mem_append_right _ List.mem_cons_self) hsecond
  · cases middle with
    | nil => exact ⟨List.append_nil _, (List.cons.inj hrest).2.symm⟩
    | cons item middle =>
      obtain ⟨rfl, _⟩ := List.cons.inj hrest
      exact absurd (List.mem_append_right _ List.mem_cons_self) hfirst

/-- No body can pass for the end of its frame or for the beginning of another one. -/
theorem frame_selfDelimiting (hspell : Function.Injective spell)
    (hmark : ∀ length, mark ∉ spell length) : SelfDelimiting (frame spell mark) := by
  intro first second rest tail heq
  simp only [frame, List.append_assoc, List.cons_append] at heq
  obtain ⟨hlength, hbodies⟩ := append_mark_inj (hmark _) (hmark _) heq
  exact List.append_inj hbodies (hspell hlength)

end Frames

end JobApplyAgent.Library
