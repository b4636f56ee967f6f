import Mathlib.Data.List.Basic

/-!
# Regular expressions

Backtracking patterns as a scripting language has them: the ends of a pattern
at a place of a text are listed in the order in which the matcher tries them.
The classes of characters and the comparison without case come from a table of
characters.
-/

namespace JobApplyAgent.Library

/-- What a matcher has to know about characters. -/
structure CharacterTable where
  /-- `\w`. -/
  isWord : Char → Bool
  /-- `\d`. -/
  isDigit : Char → Bool
  /-- `\s`. -/
  isBlank : Char → Bool
  /-- Two characters are equal when case is ignored. -/
  sameLetter : Char → Char → Bool
  /-- The full case folding of a character. -/
  casefold : Char → List Char

/-- A place in a text: what stands before it, in reverse, and what stands after it. -/
structure Place where
  before : List Char
  after : List Char

inductive Regex where
  | empty
  | char (accepts : Char → Bool)
  | seq (first second : Regex)
  | either (first second : Regex)
  /-- Greedy repetition; `none` as the upper bound is unbounded. -/
  | repeated (body : Regex) (least : ℕ) (most : Option ℕ)
  /-- A test of the place that reads nothing. -/
  | assert (holds : Place → Bool)
  | notAhead (body : Regex)

namespace Regex

/-! ## Matching -/

/-- Repeat `step` as often as the fuel allows; longer repetitions come first. -/
def greedy (step : Place → List Place) : ℕ → ℕ → Place → List Place
  | 0, least, place => if least = 0 then [place] else []
  | fuel + 1, least, place =>
    (step place).flatMap (greedy step fuel (least - 1))
      ++ if least = 0 then [place] else []

/-- The ends of the matches that begin at a place. -/
def ends : Regex → Place → List Place
  | .empty => fun place => [place]
  | .char accepts => fun place =>
    match place.after with
    | [] => []
    | character :: rest =>
      if accepts character then [⟨character :: place.before, rest⟩] else []
  | .seq first second => fun place => (first.ends place).flatMap second.ends
  | .either first second => fun place => first.ends place ++ second.ends place
  -- Every repeated pattern reads a character, so a text bounds the repetitions.
  | .repeated body least most => fun place =>
    greedy body.ends ((most.getD place.after.length).min place.after.length) least place
  | .assert holds => fun place => if holds place then [place] else []
  | .notAhead body => fun place => if (body.ends place).isEmpty then [place] else []

/-- The places of a text from `place` on. -/
def placesFrom : List Char → List Char → List Place
  | before, [] => [⟨before, []⟩]
  | before, character :: rest =>
    ⟨before, character :: rest⟩ :: placesFrom (character :: before) rest

/-- `pattern.match(text)`. -/
def isMatch (regex : Regex) (text : List Char) : Bool :=
  !(regex.ends ⟨[], text⟩).isEmpty

/-- `pattern.fullmatch(text)`. -/
def isFullMatch (regex : Regex) (text : List Char) : Bool :=
  (regex.ends ⟨[], text⟩).any fun place => place.after.isEmpty

def search (regex : Regex) (text : List Char) : Bool :=
  (placesFrom [] text).any fun place => !(regex.ends place).isEmpty

/-- The matches from a place on, from their begin to their end. -/
def findFrom (regex : Regex) : ℕ → Place → List (Place × Place)
  | 0, _ => []
  | fuel + 1, place =>
    match regex.ends place with
    | next :: _ => (place, next) :: findFrom regex fuel next
    | [] =>
      match place.after with
      | [] => []
      | character :: rest => findFrom regex fuel ⟨character :: place.before, rest⟩

/-- `pattern.finditer(text)`, for a pattern that never matches an empty text. -/
def findIter (regex : Regex) (text : List Char) : List (Place × Place) :=
  findFrom regex text.length ⟨[], text⟩

/-- Read on from a place; `piece` is the current piece in reverse. -/
def splitFrom (regex : Regex) : ℕ → List Char → Place → List (List Char)
  | 0, piece, place => [piece.reverse ++ place.after]
  | fuel + 1, piece, place =>
    match regex.ends place with
    | next :: _ => piece.reverse :: splitFrom regex fuel [] next
    | [] =>
      match place.after with
      | [] => [piece.reverse]
      | character :: rest =>
        splitFrom regex fuel (character :: piece) ⟨character :: place.before, rest⟩

/-- `pattern.split(text)`, for a pattern that never matches an empty text. -/
def split (regex : Regex) (text : List Char) : List (List Char) :=
  splitFrom regex text.length [] ⟨[], text⟩

/-- `pattern.sub(replacement, text)`, for a pattern that never matches an empty text. -/
def sub (regex : Regex) (replacement text : List Char) : List Char :=
  replacement.intercalate (regex.split text)

/-- `text` without the match of `regex` at its beginning. -/
def dropMatch (regex : Regex) (text : List Char) : List Char :=
  match regex.ends ⟨[], text⟩ with
  | [] => text
  | next :: _ => next.after

/-! ## Assertions -/

def atStart (place : Place) : Bool :=
  place.before.isEmpty

/-- `$`: the end, or before a last line break. -/
def atEnd (place : Place) : Bool :=
  place.after.isEmpty || place.after == ['\n']

def wordBoundary (table : CharacterTable) (place : Place) : Bool :=
  place.before.head?.any table.isWord != place.after.head?.any table.isWord

def precededBy (accepts : Char → Bool) (place : Place) : Bool :=
  place.before.head?.any accepts

/-! ## Building patterns -/

/-- The pattern that matches nothing. -/
def never : Regex := .char fun _ => false

/-- The first of several alternatives that matches. -/
def oneOf (alternatives : List Regex) : Regex :=
  alternatives.foldr .either never

/-- One pattern after the other. -/
def inOrder (parts : List Regex) : Regex :=
  parts.foldr .seq .empty

def optional (body : Regex) : Regex := .repeated body 0 (some 1)

def many (body : Regex) : Regex := .repeated body 0 none

def many1 (body : Regex) : Regex := .repeated body 1 none

/-- A word, read character by character. -/
def word (same : Char → Char → Bool) (letters : List Char) : Regex :=
  inOrder (letters.map fun letter => .char (same letter))

/-- A word in which a space stands for one or more blanks. -/
def phrase (same : Char → Char → Bool) (blank : Char → Bool) (letters : String) : Regex :=
  inOrder (letters.toList.map fun letter =>
    if letter = ' ' then many1 (.char blank) else .char (same letter))

/-! ## What a match reads -/

theorem ends_char (accepts : Char → Bool) (place : Place) :
    (char accepts).ends place =
      match place.after with
      | [] => []
      | character :: rest =>
        if accepts character then [⟨character :: place.before, rest⟩] else [] := rfl

variable {accepts : Char → Bool} {next : Place} {regex : Regex}
  {text : List Char}

theorem mem_ends_char :
    next ∈ (char accepts).ends place ↔ ∃ character rest, place.after = character :: rest ∧
      accepts character = true ∧ next = ⟨character :: place.before, rest⟩ := by
  rw [ends_char]
  cases hafter : place.after with
  | nil => simp
  | cons first rest => cases hfirst : accepts first <;> simp [hfirst]

theorem ends_seq (first second : Regex) (place : Place) :
    (seq first second).ends place = (first.ends place).flatMap second.ends := rfl

/-! ## Repeated characters -/

theorem suffix_of_mem_ite {holds : Prop} [Decidable holds]
    (hnext : next ∈ if holds then [place] else []) : next.after <:+ place.after := by
  split at hnext
  · obtain rfl := List.mem_singleton.mp hnext
    exact List.suffix_rfl
  · cases hnext

theorem greedy_suffix {step : Place → List Place}
    (hstep : ∀ place next, next ∈ step place → next.after <:+ place.after)
    (hnext : next ∈ greedy step fuel least place) :
    next.after <:+ place.after := by
  induction fuel generalizing least place with
  | zero => exact suffix_of_mem_ite hnext
  | succ fuel ih =>
    rw [greedy, List.mem_append, List.mem_flatMap] at hnext
    rcases hnext with ⟨middle, hmiddle, hrest⟩ | hnext
    · exact (ih hrest).trans (hstep place middle hmiddle)
    · exact suffix_of_mem_ite hnext

/-- A match reads on in the text. -/
theorem ends_suffix (regex : Regex) (hnext : next ∈ regex.ends place) :
    next.after <:+ place.after := by
  induction regex generalizing place next with
  | empty =>
    obtain rfl := List.mem_singleton.mp hnext
    exact List.suffix_rfl
  | char accepts =>
    rw [ends_char] at hnext
    split at hnext
    · cases hnext
    next character rest hplace =>
    split at hnext
    · rw [List.mem_singleton.mp hnext, hplace]
      exact List.suffix_cons character rest
    · cases hnext
  | seq first second ihfirst ihsecond =>
    obtain ⟨middle, hmiddle, hrest⟩ := List.mem_flatMap.mp hnext
    exact (ihsecond hrest).trans (ihfirst hmiddle)
  | either first second ihfirst ihsecond =>
    rcases List.mem_append.mp hnext with hfirst | hsecond
    · exact ihfirst hfirst
    · exact ihsecond hsecond
  | repeated body least most ih => exact greedy_suffix (fun _ _ => ih) hnext
  | assert holds => exact suffix_of_mem_ite hnext
  | notAhead body _ => exact suffix_of_mem_ite hnext

theorem infix_of_mem_splitFrom {read : List Char}
    (hpiece : piece ∈ splitFrom regex fuel read place) :
    piece <:+: read.reverse ++ place.after := by
  induction fuel generalizing read place with
  | zero =>
    obtain rfl := List.mem_singleton.mp hpiece
    exact List.infix_rfl
  | succ fuel ih =>
    rw [splitFrom] at hpiece
    split at hpiece
    · next next rest hends =>
      rcases List.mem_cons.mp hpiece with rfl | hlater
      · exact (List.prefix_append _ _).isInfix
      have hnext : next ∈ regex.ends place := by rw [hends]; exact List.mem_cons_self
      have hsuffix : next.after <:+ read.reverse ++ place.after :=
        (ends_suffix regex hnext).trans (List.suffix_append _ _)
      exact (ih hlater).trans (by simpa using hsuffix.isInfix)
    · split at hpiece
      · rw [List.mem_singleton.mp hpiece]
        exact (List.prefix_append _ _).isInfix
      · next found rest hplace =>
        have hlater := ih hpiece
        rw [hplace]
        simpa using hlater

theorem infix_of_mem_split (hpiece : piece ∈ regex.split text) : piece <:+: text :=
  infix_of_mem_splitFrom hpiece

variable {before : List Char}

theorem mem_of_mem_split (hpiece : piece ∈ regex.split text) (hcharacter : character ∈ piece) :
    character ∈ text :=
  (infix_of_mem_split hpiece).subset hcharacter

theorem mem_greedy_char (word : List Char) (hword : ∀ character ∈ word, accepts character = true)
    (hmost : word.length ≤ fuel) (hleast : least ≤ word.length) :
    (⟨word.reverse ++ before, rest⟩ : Place) ∈
      greedy (char accepts).ends fuel least ⟨before, word ++ rest⟩ := by
  induction word generalizing fuel least before with
  | nil =>
    have hzero : least = 0 := Nat.le_zero.mp hleast
    cases fuel <;> simp [greedy, hzero]
  | cons character word ih =>
    rw [List.length_cons] at hmost hleast
    cases fuel with
    | zero => omega
    | succ fuel =>
      have hlater : (⟨word.reverse ++ character :: before, rest⟩ : Place) ∈
          greedy (char accepts).ends fuel (least - 1) ⟨character :: before, word ++ rest⟩ :=
        ih (fun found hfound => hword found (.tail _ hfound)) (by omega) (by omega)
      have haccepts := hword character (.head _)
      rw [greedy, List.mem_append, List.mem_flatMap]
      left
      refine ⟨⟨character :: before, word ++ rest⟩, ?_, ?_⟩
      · rw [ends_char]
        simp [haccepts]
      · rw [List.reverse_cons, List.append_assoc]
        exact hlater

/-- A bounded repetition of a set reads every word over the set within the bounds. -/
theorem mem_ends_repeated {word : List Char} (hword : ∀ character ∈ word, accepts character = true)
    (hleast : least ≤ word.length)
    (hmost : ∀ bound, most = some bound → word.length ≤ bound) :
    (⟨word.reverse ++ before, rest⟩ : Place) ∈
      (repeated (char accepts) least most).ends ⟨before, word ++ rest⟩ := by
  apply mem_greedy_char _ hword ?_ hleast
  rw [List.length_append]
  cases most with
  | none => exact Nat.le_min.mpr ⟨Nat.le_add_right _ _, Nat.le_add_right _ _⟩
  | some bound => exact Nat.le_min.mpr ⟨hmost bound rfl, Nat.le_add_right _ _⟩

theorem ends_many1_length (hnext : next ∈ (many1 (char accepts)).ends place) :
    next.after.length < place.after.length := by
  rw [many1, ends] at hnext
  cases hafter : place.after with
  | nil => simp [hafter, greedy] at hnext
  | cons first rest =>
    simp only [hafter, Option.getD_none, Nat.min_self, List.length_cons, greedy,
      List.mem_append, List.mem_flatMap] at hnext
    rcases hnext with ⟨middle, hmiddle, hrest⟩ | hnow
    · obtain ⟨found, tail, hplace, _, rfl⟩ := mem_ends_char.mp hmiddle
      obtain ⟨rfl, rfl⟩ := List.cons.inj (hafter.symm.trans hplace)
      have hlater := (greedy_suffix (fun _ _ => ends_suffix (char accepts)) hrest).length_le
      exact Nat.lt_succ_of_le hlater
    · simp at hnow

/-- A run of one set of characters begins where one of them stands. -/
theorem ends_many1_eq_nil_iff :
    (many1 (char accepts)).ends place = [] ↔
      ∀ character, place.after.head? = some character → accepts character = false := by
  obtain ⟨before, after⟩ := place
  cases after with
  | nil => simp [many1, ends, greedy]
  | cons first rest =>
    rw [many1, ends]
    simp only [Option.getD_none, Nat.min_self, List.length_cons, greedy, List.head?_cons,
      Option.some.injEq, forall_eq']
    cases hfirst : accepts first with
    | true =>
      simp only [ends_char, hfirst, ↓reduceIte, List.flatMap_cons, List.flatMap_nil]
      have hend : (⟨first :: before, rest⟩ : Place) ∈
          greedy (char accepts).ends rest.length 0 ⟨first :: before, rest⟩ :=
        mem_greedy_char [] (by simp) (Nat.zero_le _) (Nat.le_refl _)
      constructor
      · intro hnil
        have hempty := (List.append_eq_nil_iff.mp (List.append_eq_nil_iff.mp hnil).1).1
        exact absurd hend (by rw [hempty]; exact List.not_mem_nil)
      · intro hfalse
        cases hfalse
    | false => simp [ends_char, hfirst]

/-- No separator is left in what runs of a set of characters split. -/
theorem not_accepts_of_mem_split_many1 (hpiece : piece ∈ (many1 (char accepts)).split text)
    (hcharacter : character ∈ piece) : accepts character = false := by
  have hfrom : ∀ fuel read place, place.after.length ≤ fuel →
      (∀ found ∈ read, accepts found = false) →
      piece ∈ splitFrom (many1 (char accepts)) fuel read place →
      accepts character = false := by
    intro fuel
    induction fuel with
    | zero =>
      intro read place hfuel hread hmem
      rw [splitFrom, List.mem_singleton, List.length_eq_zero_iff.mp (Nat.le_zero.mp hfuel)] at hmem
      apply hread
      simpa [hmem] using hcharacter
    | succ fuel ih =>
      intro read place hfuel hread hmem
      rw [splitFrom] at hmem
      split at hmem
      · next next rest hends =>
        rcases List.mem_cons.mp hmem with rfl | hlater
        · exact hread character (List.mem_reverse.mp hcharacter)
        have hnext : next ∈ (many1 (char accepts)).ends place := by
          rw [hends]
          exact List.mem_cons_self
        refine ih [] next ?_ (by simp) hlater
        have hshorter := ends_many1_length hnext
        omega
      · next hends =>
        have hhead := ends_many1_eq_nil_iff.mp hends
        split at hmem
        · rw [List.mem_singleton.mp hmem] at hcharacter
          exact hread character (List.mem_reverse.mp hcharacter)
        · next found rest hplace =>
          rw [hplace] at hfuel hhead
          refine ih _ _ ?_ ?_ hmem
          · simpa using hfuel
          · intro other hother
            rcases List.mem_cons.mp hother with rfl | hother
            · exact hhead _ rfl
            · exact hread other hother
  exact hfrom text.length [] ⟨[], text⟩ (Nat.le_refl _) (by simp) hpiece

end Regex

end JobApplyAgent.Library
