import Mathlib.Data.List.DropRight

/-!
# Texts

What two languages call a blank text: one strips every white-space character
from both ends, the other strips spaces only.
-/

namespace JobApplyAgent.Library

/-- The membership tests of texts name this instance. -/
instance lawfulBEqText : LawfulBEq (List Char) := List.instLawfulBEq

/-- `text` without the characters that satisfy `blank` at its two ends. -/
def stripBy (blank : Char → Bool) (text : List Char) : List Char :=
  (text.dropWhile blank).rdropWhile blank

theorem stripBy_eq_nil_iff {text : List Char} :
    stripBy blank text = [] ↔ ∀ char ∈ text, blank char = true := by
  constructor
  · intro hstrip char hmem
    rw [stripBy, List.rdropWhile_eq_nil_iff] at hstrip
    rw [← List.takeWhile_append_dropWhile (p := blank) (l := text)] at hmem
    rcases List.mem_append.mp hmem with hhead | htail
    · exact List.mem_takeWhile_imp hhead
    · exact hstrip char htail
  · intro hblank
    rw [stripBy, List.dropWhile_eq_nil_iff.mpr hblank]
    rfl

/-- The white space of Unicode, as `str.isspace` has it. -/
def isSpace (character : Char) : Bool :=
  let code := character.toNat
  decide (9 ≤ code ∧ code ≤ 13) || decide (28 ≤ code ∧ code ≤ 32)
    || decide (8192 ≤ code ∧ code ≤ 8202)
    || [133, 160, 5760, 8232, 8233, 8239, 8287, 12288].contains code

def strip (text : String) : List Char :=
  stripBy isSpace text.toList

/-- `bool(text.strip())`. -/
def hasInk (text : String) : Bool :=
  !(strip text).isEmpty

theorem hasInk_iff {text : String} :
    hasInk text = true ↔ ∃ char ∈ text.toList, isSpace char = false := by
  rw [hasInk, strip, Bool.not_eq_true', List.isEmpty_eq_false_iff, Ne, stripBy_eq_nil_iff]
  simp

def trim (text : String) : List Char :=
  stripBy (· == ' ') text.toList

variable {α : Type}

/-- A list is searched item by item, whatever else decides a statement about all items. -/
theorem forall_mem_of_all {items : List α} {holds : α → Prop} [DecidablePred holds]
    (hall : (items.all fun item => decide (holds item)) = true) : ∀ item ∈ items, holds item := by
  simpa using hall

/-- SQL `replace(text, character, '')`. -/
def eraseChar (character : Char) (text : List Char) : List Char :=
  text.filter (· != character)

/-- Erasing a list of characters leaves what is not among them. -/
theorem foldl_eraseChar (characters text : List Char) :
    characters.foldl (fun rest char => eraseChar char rest) text =
      text.filter fun found => !characters.contains found := by
  induction characters generalizing text with
  | nil => simp
  | cons char characters ih =>
    rw [List.foldl_cons, ih, eraseChar, List.filter_filter]
    apply List.filter_congr
    intro found _
    by_cases hsame : found = char <;> simp [hsame]

variable {separator : List α}

/-- What is split off consists of symbols of the text. -/
theorem mem_of_mem_splitOnP {text : List α}
    (hpiece : piece ∈ text.splitOnP separates) (hsymbol : symbol ∈ piece) :
    symbol ∈ text := by
  induction text generalizing piece with
  | nil =>
    rw [List.splitOnP_nil, List.mem_singleton] at hpiece
    rw [hpiece] at hsymbol
    cases hsymbol
  | cons first text ih =>
    rw [List.splitOnP_cons_eq_if_modifyHead] at hpiece
    split at hpiece
    · rcases List.mem_cons.mp hpiece with rfl | hlater
      · cases hsymbol
      · exact .tail _ (ih hlater hsymbol)
    · cases hrest : text.splitOnP separates with
      | nil => exact absurd hrest (List.splitOnP_ne_nil _ _)
      | cons head rest =>
        rw [hrest, List.modifyHead_cons] at hpiece
        rcases List.mem_cons.mp hpiece with rfl | hlater
        · rcases List.mem_cons.mp hsymbol with rfl | hhead
          · exact .head _
          · exact .tail _ (ih (by rw [hrest]; exact .head _) hhead)
        · exact .tail _ (ih (by rw [hrest]; exact .tail _ hlater) hsymbol)

/-- What is joined consists of the pieces and the separator. -/
theorem mem_of_mem_intercalate (hsymbol : symbol ∈ separator.intercalate pieces) :
    symbol ∈ separator ∨ ∃ piece ∈ pieces, symbol ∈ piece := by
  induction pieces with
  | nil => cases hsymbol
  | cons first pieces ih =>
    cases pieces with
    | nil =>
      rw [List.intercalate_singleton] at hsymbol
      exact .inr ⟨first, .head _, hsymbol⟩
    | cons second pieces =>
      rw [List.intercalate_cons_cons, List.mem_append, List.mem_append] at hsymbol
      rcases hsymbol with (hfirst | hseparator) | hlater
      · exact .inr ⟨first, .head _, hfirst⟩
      · exact .inl hseparator
      · rcases ih hlater with hseparator | ⟨piece, hpiece, hmem⟩
        · exact .inl hseparator
        · exact .inr ⟨piece, .tail _ hpiece, hmem⟩

/-- Every piece stands in the joined text. -/
theorem infix_intercalate (hpiece : piece ∈ pieces) : piece <:+: separator.intercalate pieces := by
  induction pieces with
  | nil => cases hpiece
  | cons first pieces ih =>
    cases pieces with
    | nil =>
      obtain rfl := List.mem_singleton.mp hpiece
      exact (List.intercalate_singleton ..) ▸ List.infix_rfl
    | cons second pieces =>
      rw [List.intercalate_cons_cons]
      rcases List.mem_cons.mp hpiece with rfl | hlater
      · exact ⟨[], _, by rw [List.nil_append, List.append_assoc]⟩
      · exact (ih hlater).trans (List.suffix_append _ _).isInfix

/-- Letters and digits are of the first script. -/
theorem toNat_lt_of_isAlphanum {char : Char} (halphanum : char.isAlphanum = true) :
    char.toNat < 128 := by
  delta Char.isAlphanum Char.isAlpha Char.isUpper Char.isLower Char.isDigit at halphanum
  simp only [Bool.or_eq_true, Bool.and_eq_true, decide_eq_true_eq] at halphanum
  have hbound : char.val.toNat ≤ 122 := by
    rcases halphanum with (⟨_, h⟩ | ⟨_, h⟩) | ⟨_, h⟩
    · exact Nat.le_trans (UInt32.le_iff_toNat_le.mp h) (by decide)
    · exact UInt32.le_iff_toNat_le.mp h
    · exact Nat.le_trans (UInt32.le_iff_toNat_le.mp h) (by decide)
  exact Nat.lt_of_le_of_lt hbound (by decide)

/-! ## Identifiers -/

def isLowerHexDigit (character : Char) : Bool :=
  character.isDigit || (decide ('a' ≤ character) && decide (character ≤ 'f'))

/-- Hexadecimal digits in groups of 8, 4, 4, 4 and 12, with hyphens between them. -/
def isUuidText (isDigit : Char → Bool) (text : List Char) : Bool :=
  let groups := text.splitOn '-'
  decide (groups.map List.length = [8, 4, 4, 4, 12]) && groups.all fun group => group.all isDigit

/-- `str(UUID(text)) == text`. -/
def isCanonicalUuid (text : List Char) : Bool :=
  isUuidText isLowerHexDigit text

end JobApplyAgent.Library
