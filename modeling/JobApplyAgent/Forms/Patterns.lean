import JobApplyAgent.Forms.Values
import JobApplyAgent.Library.ScriptPattern

/-!
# Observed patterns

The finite matcher decides exactly the splits of a value over the atoms of a pattern.  Read
as a regular expression of the browser, a pattern accepts every value that the matcher
accepts, as long as no repetition is written with the digits of another script.
-/

namespace JobApplyAgent.Forms

open Domain Library
open ScriptPattern (classAtom classMembers classRange quantifier bracedBounds dropLazy term terms)

/-! ## Quantifiers -/

/-- How a quantifier is written. -/
inductive QuantifierText (decimal : Char → Option ℕ) (minimum maximum : ℕ)
    (rest : List Char) : List Char → Prop where
  | once (hbounds : minimum = 1 ∧ maximum = 1)
      (hhead : ∀ character ∈ rest.head?, character ∉ ['?', '{', '*', '+']) :
      QuantifierText decimal minimum maximum rest rest
  | optional (hbounds : minimum = 0 ∧ maximum = 1) :
      QuantifierText decimal minimum maximum rest ('?' :: rest)
  | exactly {body : List Char} (hbody : shortDecimal decimal body = some minimum)
      (hsame : maximum = minimum) (hclosed : '}' ∉ body) :
      QuantifierText decimal minimum maximum rest ('{' :: (body ++ '}' :: rest))
  | range {low high : List Char} (hlow : shortDecimal decimal low = some minimum)
      (hhigh : shortDecimal decimal high = some maximum) (hclosed : '}' ∉ low ++ ',' :: high) :
      QuantifierText decimal minimum maximum rest ('{' :: (low ++ ',' :: high ++ '}' :: rest))

variable {after : List Char}
  {first : Char}

theorem cut_at_brace (hclosed : rest.contains '}' = true) :
    rest = rest.takeWhile (· != '}') ++ '}' :: (rest.dropWhile (· != '}')).tail ∧
      '}' ∉ rest.takeWhile (· != '}') := by
  have hdropped : rest.dropWhile (· != '}') ≠ [] := by
    rw [ne_eq, List.dropWhile_eq_nil_iff]
    intro hall
    have hmem : '}' ∈ rest := by simpa using hclosed
    simpa using hall '}' hmem
  have hhead := List.head_dropWhile_not (· != '}') hdropped
  rw [bne_eq_false_iff_eq] at hhead
  constructor
  · calc rest = rest.takeWhile (· != '}') ++ rest.dropWhile (· != '}') :=
          (List.takeWhile_append_dropWhile ..).symm
      _ = rest.takeWhile (· != '}') ++
            ((rest.dropWhile (· != '}')).head hdropped :: (rest.dropWhile (· != '}')).tail) := by
          rw [List.cons_head_tail]
      _ = _ := by rw [hhead]
  · intro hmem
    have hkept := List.mem_takeWhile_imp hmem
    simp at hkept

/-- A quantifier has bounds in their order, and the text that spells them. -/
theorem boundedQuantifier_eq_some
    (hquantifier : boundedQuantifier decimal pattern = some (minimum, maximum, rest)) :
    minimum ≤ maximum ∧ 1 ≤ maximum ∧ QuantifierText decimal minimum maximum rest pattern := by
  unfold boundedQuantifier at hquantifier
  split at hquantifier
  · cases hquantifier
    exact ⟨le_rfl, le_rfl, .once ⟨rfl, rfl⟩ (by simp)⟩
  · cases hquantifier
    exact ⟨Nat.zero_le _, le_rfl, .optional ⟨rfl, rfl⟩⟩
  · next tail =>
    split at hquantifier
    · next hclosed =>
      obtain ⟨⟨low, high⟩, hbounds, hbounded⟩ := Option.bind_eq_some_iff.mp hquantifier
      simp only [Option.ite_none_left_eq_some, Option.some.injEq, Prod.mk.injEq, not_or,
        Nat.not_lt] at hbounded
      obtain ⟨⟨hpositive, hordered, _⟩, rfl, rfl, rfl⟩ := hbounded
      obtain ⟨htail, hbody⟩ := cut_at_brace hclosed
      refine ⟨hordered, hpositive, ?_⟩
      generalize tail.takeWhile (· != '}') = body at hbounds htail hbody
      generalize (tail.dropWhile (· != '}')).tail = after at htail ⊢
      subst htail
      have hjoined : [','].intercalate (body.splitOn ',') = body := List.intercalate_splitOn ','
      split at hbounds
      · next single hsplit =>
        obtain ⟨bound, hbound, hpair⟩ := Option.map_eq_some_iff.mp hbounds
        cases hpair
        rw [hsplit, List.intercalate_singleton] at hjoined
        subst hjoined
        exact .exactly hbound rfl hbody
      · next first second hsplit =>
        obtain ⟨minimum, hlow, hrest⟩ := Option.bind_eq_some_iff.mp hbounds
        obtain ⟨maximum, hhigh, hpair⟩ := Option.map_eq_some_iff.mp hrest
        cases hpair
        rw [hsplit] at hjoined
        have hbodyText : body = first ++ ',' :: second := by
          rw [← hjoined]
          simp [List.intercalate]
        subst hbodyText
        exact .range hlow hhigh hbody
      · cases hbounds
    · cases hquantifier
  · next char tail hquestion hbrace =>
    split at hquantifier
    · cases hquantifier
    next hother =>
    cases hquantifier
    refine ⟨le_rfl, le_rfl, .once ⟨rfl, rfl⟩ ?_⟩
    simp only [List.head?_cons, Option.mem_some_iff, forall_eq']
    simp only [List.mem_cons, List.not_mem_nil, or_false, not_or]
    refine ⟨?_, ?_, fun h => hother (.inl h), fun h => hother (.inr h)⟩
    · rintro rfl
      exact hquestion rfl
    · rintro rfl
      exact hbrace rfl

/-! ## Exactness of the matcher -/

/-- The bounds of an atom are ordered, and it can read something. -/
structure WellBounded (atom : PatternAtom Char) : Prop where
  ordered : atom.minimum ≤ atom.maximum
  positive : 1 ≤ atom.maximum

/-- A parsed pattern is empty, or an atom with its quantifier and the rest. -/
theorem parseAtoms_cons (hparse : parseAtoms decimal states pattern = some atoms) :
    pattern = [] ∧ atoms = [] ∨
      ∃ characters minimum maximum rest after later,
        patternCharacters pattern = some (characters, rest) ∧
        boundedQuantifier decimal rest = some (minimum, maximum, after) ∧
        parseAtoms decimal (states + maximum) after = some later ∧
        atoms = ⟨characters, minimum, maximum⟩ :: later := by
  unfold parseAtoms at hparse
  split at hparse
  · next hempty =>
    cases hparse
    exact .inl ⟨List.isEmpty_iff.mp hempty, rfl⟩
  · split at hparse
    · cases hparse
    next characters rest hcharacters =>
    split at hparse
    · cases hparse
    next minimum maximum after hquantifier =>
    split at hparse
    · cases hparse
    obtain ⟨later, hlater, rfl⟩ := Option.map_eq_some_iff.mp hparse
    exact .inr ⟨characters, minimum, maximum, rest, after, later, hcharacters,
      hquantifier, hlater, rfl⟩

theorem parseAtoms_forall {holds : PatternAtom Char → Prop}
    (hholds : ∀ pattern characters rest minimum maximum after,
      patternCharacters pattern = some (characters, rest) →
      boundedQuantifier decimal rest = some (minimum, maximum, after) →
      holds ⟨characters, minimum, maximum⟩)
    (hparse : parseAtoms decimal states pattern = some atoms) : ∀ atom ∈ atoms, holds atom := by
  induction atoms generalizing states pattern with
  | nil => simp
  | cons first later ih =>
    rcases parseAtoms_cons hparse with ⟨_, hnone⟩ |
      ⟨characters, minimum, maximum, rest, after, _, hcharacters, hquantifier, hlater, hatoms⟩
    · cases hnone
    · cases hatoms
      intro atom hatom
      rcases List.mem_cons.mp hatom with rfl | hatom
      · exact hholds pattern characters rest minimum maximum after hcharacters hquantifier
      · exact ih hlater atom hatom

/-- What stands between the anchors of a pattern. -/
def patternBody (pattern : String) : List Char :=
  let characters := pattern.toList
  let slashes := (characters.dropLast.reverse.takeWhile (· == '\\')).length
  let anchored := characters.getLast? == some '$' && slashes % 2 == 0
  let body := if anchored then characters.dropLast else characters
  if characters.head? == some '^' then body.tail else body

theorem parseBoundedFormPattern_eq_some
    (hparse : parseBoundedFormPattern decimal pattern = some atoms) :
    parseAtoms decimal 0 (patternBody pattern) = some atoms ∧ atoms ≠ [] := by
  simp only [parseBoundedFormPattern] at hparse
  split at hparse
  · cases hparse
  obtain ⟨found, hfound, hatoms⟩ := Option.bind_eq_some_iff.mp hparse
  split at hatoms
  · cases hatoms
  next hsome =>
  cases hatoms
  exact ⟨hfound, by simpa [List.isEmpty_iff] using hsome⟩

theorem parseBoundedFormPattern_wellBounded
    (hparse : parseBoundedFormPattern decimal pattern = some atoms) :
    ∀ atom ∈ atoms, WellBounded atom := by
  have hholds : ∀ (pattern characters rest : List Char) (minimum maximum : ℕ)
      (after : List Char), patternCharacters pattern = some (characters, rest) →
      boundedQuantifier decimal rest = some (minimum, maximum, after) →
      WellBounded ⟨characters, minimum, maximum⟩ := by
    intro _ _ _ _ _ _ _ hquantifier
    obtain ⟨hordered, hpositive, _⟩ := boundedQuantifier_eq_some hquantifier
    exact ⟨hordered, hpositive⟩
  exact parseAtoms_forall hholds (parseBoundedFormPattern_eq_some hparse).1

theorem matchesBoundedFormPattern_iff
    (hparse : parseBoundedFormPattern decimal pattern = some atoms) :
    matchesBoundedFormPattern decimal pattern value = true ↔ Spells atoms value.toList := by
  unfold matchesBoundedFormPattern
  rw [hparse, Option.any_some]
  exact matchesAtoms_iff

/-- The matcher decides the splits of a value over the atoms of a pattern: one piece for each
atom, within its bounds and over its characters.  Every position that it keeps lies in the
value, and the characters that it tests are at most the value times the greatest lengths of
the atoms. -/
theorem position_sets_exact {pattern : String} {atoms : List (PatternAtom Char)}
    (hparse : parseBoundedFormPattern decimal pattern = some atoms) (value : String) :
    (∀ atom ∈ atoms, WellBounded atom) ∧
    (matchesBoundedFormPattern decimal pattern value = true ↔
      ∃ pieces : List (List Char), pieces.flatten = value.toList ∧
        List.Forall₂ PatternAtom.Reads atoms pieces) ∧
    (∀ first, first <+: atoms → ∀ position ∈ reachPositions value.toList first [0],
      position ≤ value.toList.length) ∧
    matchTests atoms value.toList ≤
      value.toList.length * (atoms.map PatternAtom.maximum).sum := by
  refine ⟨parseBoundedFormPattern_wellBounded hparse, ?_, fun first _ => ?_, matchTests_le⟩
  · rw [matchesBoundedFormPattern_iff hparse]
    exact spells_iff_pieces
  · apply reachPositions_le
    simp

/-- The zeros of the decimal digits of all scripts, in Unicode 15.1. -/
def decimalZeros : List ℕ :=
  [0x30, 0x660, 0x6F0, 0x7C0, 0x966, 0x9E6, 0xA66, 0xAE6, 0xB66, 0xBE6, 0xC66, 0xCE6, 0xD66,
    0xDE6, 0xE50, 0xED0, 0xF20, 0x1040, 0x1090, 0x17E0, 0x1810, 0x1946, 0x19D0, 0x1A80, 0x1A90,
    0x1B50, 0x1BB0, 0x1C40, 0x1C50, 0xA620, 0xA8D0, 0xA900, 0xA9D0, 0xA9F0, 0xAA50, 0xABF0,
    0xFF10, 0x104A0, 0x10D30, 0x11066, 0x110F0, 0x11136, 0x111D0, 0x112F0, 0x11450, 0x114D0,
    0x11650, 0x116C0, 0x11730, 0x118E0, 0x11950, 0x11C50, 0x11D50, 0x11DA0, 0x11F50, 0x16A60,
    0x16AC0, 0x16B50, 0x1D7CE, 0x1D7D8, 0x1D7E2, 0x1D7EC, 0x1D7F6, 0x1E140, 0x1E2F0, 0x1E4F0,
    0x1E950, 0x1FBF0]

/-- `unicodedata.decimal`, the value of what `\\d` matches. -/
def unicodeDecimal (character : Char) : Option ℕ :=
  (decimalZeros.find? fun first => first ≤ character.toNat ∧ character.toNat < first + 10).map
    fun first => character.toNat - first

theorem parseAtoms_step (hcharacters : patternCharacters pattern = some (characters, rest))
    (hquantifier : boundedQuantifier decimal rest = some (minimum, maximum, after))
    (hstates : states + maximum ≤ maxSafePatternStates) :
    parseAtoms decimal states pattern =
      (parseAtoms decimal (states + maximum) after).map (⟨characters, minimum, maximum⟩ :: ·) := by
  have hnonempty : pattern.isEmpty = false := by
    cases pattern with
    | nil => cases hcharacters
    | cons => rfl
  rw [parseAtoms]
  simp only [hnonempty, Bool.false_eq_true, if_false]
  split
  · next hnone => simp [hcharacters] at hnone
  · next found next hfound =>
    rw [hcharacters, Option.some.injEq, Prod.mk.injEq] at hfound
    obtain ⟨rfl, rfl⟩ := hfound
    split
    · next hnone => simp [hquantifier] at hnone
    · next low high beyond hbounds =>
      rw [hquantifier, Option.some.injEq, Prod.mk.injEq, Prod.mk.injEq] at hbounds
      obtain ⟨rfl, rfl, rfl⟩ := hbounds
      rw [if_neg (by omega)]

theorem parseAtoms_nil (states : ℕ) : parseAtoms decimal states [] = some [] := by
  rw [parseAtoms]
  rfl

theorem parseBoundedFormPattern_of_atoms (hnonempty : pattern.toList ≠ [])
    (hlength : pattern.toList.length ≤ maxSafePatternChars)
    (hparse : parseAtoms decimal 0 (patternBody pattern) = some atoms) (hatoms : atoms ≠ []) :
    parseBoundedFormPattern decimal pattern = some atoms := by
  have hbounded : (pattern.toList.isEmpty ||
      decide (maxSafePatternChars < pattern.toList.length)) = false := by
    simp [hnonempty, hlength]
  simp only [parseBoundedFormPattern]
  rw [hbounded]
  change (parseAtoms decimal 0 (patternBody pattern)).bind _ = _
  rw [hparse]
  simp [hatoms]

theorem parseAtoms_repeatedLetter
    (hquantifier : boundedQuantifier decimal body = some (count, count, []))
    (hcount : count ≤ maxSafePatternRepeat) :
    parseAtoms decimal 0 ('a' :: body) = some [⟨['a'], count, count⟩] := by
  have hcharacters : patternCharacters ('a' :: body) = some (['a'], body) := rfl
  have hstates : 0 + count ≤ maxSafePatternStates := by
    unfold maxSafePatternRepeat at hcount
    unfold maxSafePatternStates
    omega
  rw [parseAtoms_step hcharacters hquantifier hstates, parseAtoms_nil]
  rfl

theorem position_sets_exact_sample :
    matchesBoundedFormPattern unicodeDecimal "^a{2}$" "aa" = true ↔
      ∃ pieces : List (List Char), pieces.flatten = "aa".toList ∧
        List.Forall₂ PatternAtom.Reads [⟨['a'], 2, 2⟩] pieces := by
  have hatoms : parseAtoms unicodeDecimal 0 ['a', '{', '2', '}'] = some [⟨['a'], 2, 2⟩] :=
    parseAtoms_repeatedLetter (by decide) (by decide)
  exact (position_sets_exact
    (parseBoundedFormPattern_of_atoms (by decide) (by decide) hatoms (by decide)) "aa").2.1

/-! ## The pattern in the browser -/

theorem isDigit_of_mem_asciiDigits : ∀ char ∈ asciiDigits, char.isDigit = true :=
  forall_mem_of_all (by decide)

theorem isWord_of_mem_asciiWord : ∀ char ∈ asciiWord,
    ScriptPattern.isWord char = true :=
  forall_mem_of_all (by decide)

theorem isSpace_of_mem_asciiSpace : ∀ char ∈ asciiSpace,
    ScriptPattern.isSpace char = true :=
  forall_mem_of_all (by decide)

theorem escapedLiteral_reads : ∀ escaped ∈ safePatternEscapedLiterals,
    ScriptPattern.classEscape escaped = none ∧
      ScriptPattern.characterEscape escaped = some escaped ∧ escaped ≠ 'b' ∧ escaped ≠ 'B' :=
  forall_mem_of_all (by decide)

/-- An escape of the matcher is a set or a single character of the browser. -/
inductive EscapeReads (escaped : Char) (characters : List Char) : Prop where
  | set (accepts : Char → Bool) (hset : ScriptPattern.classEscape escaped = some accepts)
      (haccepts : ∀ character ∈ characters, accepts character = true)
      (hmany : characters.length ≠ 1)
  | literal (hset : ScriptPattern.classEscape escaped = none)
      (hliteral : ScriptPattern.characterEscape escaped = some escaped)
      (hsame : characters = [escaped])

theorem escapedPatternCharacters_reads
    (hescape : escapedPatternCharacters pattern = some (characters, rest)) :
    ∃ escaped, pattern = escaped :: rest ∧ escaped ≠ 'b' ∧ escaped ≠ 'B' ∧
      EscapeReads escaped characters := by
  unfold escapedPatternCharacters at hescape
  split at hescape
  · cases hescape
  · cases hescape
    exact ⟨'d', rfl, by decide, by decide,
      .set Char.isDigit rfl isDigit_of_mem_asciiDigits (by decide)⟩
  · cases hescape
    exact ⟨'w', rfl, by decide, by decide,
      .set ScriptPattern.isWord rfl isWord_of_mem_asciiWord (by decide)⟩
  · cases hescape
    exact ⟨'s', rfl, by decide, by decide,
      .set ScriptPattern.isSpace rfl isSpace_of_mem_asciiSpace (by decide)⟩
  · next escaped rest _ _ _ =>
    split at hescape
    · next hliteral =>
      cases hescape
      obtain ⟨hset, hchar, hb, hB⟩ :=
        escapedLiteral_reads escaped (List.contains_iff_mem.mp hliteral)
      exact ⟨escaped, rfl, hb, hB, .literal hset hchar rfl⟩
    · cases hescape

/-- The atom of the browser for a member of a class: the same single character, and at least
the same characters. -/
structure UnitReads (characters : List Char) (literal : Option Char)
    (member : ScriptPattern.ClassAtom) : Prop where
  single : member.single = literal
  accepts : ∀ character ∈ characters, member.accepts character = true

theorem classUnit_reads (hunit : classUnit pattern = some (characters, literal, rest))
    (tail : List Char) :
    ∃ member, classAtom (pattern ++ tail) = some (member, rest ++ tail) ∧
      UnitReads characters literal member := by
  unfold classUnit at hunit
  split at hunit
  · cases hunit
  · cases hunit
  · next escapedText =>
    obtain ⟨⟨found, next⟩, hescape, heq⟩ := Option.map_eq_some_iff.mp hunit
    cases heq
    obtain ⟨escaped, rfl, hb, _, hreads⟩ := escapedPatternCharacters_reads hescape
    cases hreads with
    | set accepts hset haccepts hmany =>
      refine ⟨.set accepts, ?_, ?_, haccepts⟩
      · simp [classAtom, hset]
      · simp [hmany, ScriptPattern.ClassAtom.set]
    | literal hset hliteral hsame =>
      subst hsame
      refine ⟨.literal escaped, ?_, rfl, ?_⟩
      · simp [classAtom, hset, hliteral]
      · simp [ScriptPattern.ClassAtom.literal]
  · next char rest hclosing hslash =>
    split at hunit
    · cases hunit
      refine ⟨.literal char, ?_, rfl, by simp [ScriptPattern.ClassAtom.literal]⟩
      have hnotSlash : char ≠ '\\' := by
        rintro rfl
        exact hslash rfl
      have hnotClosing : char ≠ ']' := by
        rintro rfl
        exact hclosing rfl
      simp [classAtom, hnotSlash, hnotClosing]
    · cases hunit

/-! ### Characters of an atom -/

def IsAscii (character : Char) : Prop :=
  character.toNat < 128

instance (character : Char) : Decidable (IsAscii character) :=
  inferInstanceAs (Decidable (character.toNat < 128))

/-- A part of a pattern was read as a set of characters, in the first script alone. -/
structure AsciiPiece (pattern characters rest : List Char) : Prop where
  consumed : ∃ piece, pattern = piece ++ rest ∧ ∀ character ∈ piece, IsAscii character
  members : ∀ character ∈ characters, IsAscii character
  nonempty : characters ≠ []

theorem isAscii_of_mem_sets : ∀ char ∈ asciiDigits ++ asciiWord ++ asciiSpace ++
    safePatternEscapedLiterals ++ safePatternLiteralChars, IsAscii char :=
  forall_mem_of_all (by decide +kernel)

theorem isAscii_of_literal (hliteral : safePatternLiteralChars.contains char = true) :
    IsAscii char := by
  apply isAscii_of_mem_sets
  simp only [List.mem_append]
  exact .inr (List.contains_iff_mem.mp hliteral)

theorem escapedPatternCharacters_ascii
    (hescape : escapedPatternCharacters pattern = some (characters, rest)) :
    AsciiPiece pattern characters rest := by
  have hsets : ∀ {set : List Char}, set ∈ [asciiDigits, asciiWord, asciiSpace] →
      ∀ char ∈ set, IsAscii char := by
    intro set hset char hchar
    apply isAscii_of_mem_sets
    simp only [List.mem_cons, List.not_mem_nil, or_false] at hset
    rcases hset with rfl | rfl | rfl <;> simp [hchar]
  have hletter : ∀ letter ∈ ['d', 'w', 's'], ∀ char ∈ [letter], IsAscii char := by
    have hascii : ∀ letter ∈ ['d', 'w', 's'], IsAscii letter := forall_mem_of_all (by decide)
    intro letter hmem char hchar
    rw [List.mem_singleton.mp hchar]
    exact hascii letter hmem
  unfold escapedPatternCharacters at hescape
  split at hescape
  · cases hescape
  · cases hescape
    exact ⟨⟨['d'], rfl, hletter 'd' (by decide)⟩, hsets (by simp), by decide⟩
  · cases hescape
    exact ⟨⟨['w'], rfl, hletter 'w' (by decide)⟩, hsets (by simp), by decide⟩
  · cases hescape
    exact ⟨⟨['s'], rfl, hletter 's' (by decide)⟩, hsets (by simp), by decide⟩
  · next escaped rest _ _ _ =>
    split at hescape
    · next hliteral =>
      cases hescape
      have hascii : ∀ char ∈ [escaped], IsAscii char := by
        intro char hchar
        rw [List.mem_singleton.mp hchar]
        apply isAscii_of_mem_sets
        simp only [List.mem_append]
        exact .inl (.inr (List.contains_iff_mem.mp hliteral))
      exact ⟨⟨[escaped], rfl, hascii⟩, hascii, by simp⟩
    · cases hescape

theorem AsciiPiece.cons (hpiece : AsciiPiece pattern characters rest) (hfirst : IsAscii first) :
    AsciiPiece (first :: pattern) characters rest where
  consumed := by
    obtain ⟨piece, rfl, hascii⟩ := hpiece.consumed
    exact ⟨first :: piece, rfl, List.forall_mem_cons.mpr ⟨hfirst, hascii⟩⟩
  members := hpiece.members
  nonempty := hpiece.nonempty

theorem asciiPiece_literal (hchar : IsAscii char) :
    AsciiPiece (char :: rest) [char] rest where
  consumed := ⟨[char], rfl, by simpa using hchar⟩
  members := by simpa using hchar
  nonempty := by simp

theorem classUnit_ascii (hunit : classUnit pattern = some (characters, literal, rest)) :
    AsciiPiece pattern characters rest ∧ ∀ char, literal = some char →
      characters = [char] := by
  unfold classUnit at hunit
  split at hunit
  · cases hunit
  · cases hunit
  · obtain ⟨⟨found, next⟩, hescape, heq⟩ := Option.map_eq_some_iff.mp hunit
    cases heq
    refine ⟨(escapedPatternCharacters_ascii hescape).cons (by decide), ?_⟩
    intro char hliteral
    split at hliteral
    · next hlength =>
      obtain ⟨only, rfl⟩ := List.length_eq_one_iff.mp hlength
      exact congrArg (fun found => [found]) (Option.some.inj hliteral)
    · cases hliteral
  · split at hunit
    · next hchar =>
      cases hunit
      rw [Bool.and_eq_true] at hchar
      refine ⟨asciiPiece_literal (isAscii_of_literal hchar.1), ?_⟩
      rintro char hliteral
      rw [Option.some.inj hliteral]
    · cases hunit

theorem toNat_ofNat (hcode : code < 128) : (Char.ofNat code).toNat = code := by
  have hvalid : code.isValidChar := Or.inl (by omega)
  rw [Char.ofNat, dif_pos hvalid]
  rfl

theorem mem_characterRange (hlast : IsAscii last)
    (hchar : char ∈ characterRange first last) :
    first.toNat ≤ char.toNat ∧ char.toNat ≤ last.toNat := by
  unfold IsAscii at hlast
  obtain ⟨code, hcode, rfl⟩ := List.mem_map.mp hchar
  obtain ⟨hlow, hhigh⟩ := List.mem_range'_1.mp hcode
  rw [toNat_ofNat (by omega)]
  omega

theorem classItem_ascii (hitem : classItem pattern = some (characters, rest)) :
    AsciiPiece pattern characters rest := by
  unfold classItem at hitem
  split at hitem
  · cases hitem
  next firstChars firstLiteral next hfirst =>
  obtain ⟨hpiece, hfirstLiteral⟩ := classUnit_ascii hfirst
  split at hitem
  · next hhyphen =>
    split at hitem
    · cases hitem
    next secondChars secondLiteral beyond hsecond =>
    obtain ⟨hlater, hsecondLiteral⟩ := classUnit_ascii hsecond
    split at hitem
    · next first last =>
      split at hitem
      · next hordered =>
        cases hitem
        have hlast : IsAscii last :=
          hlater.members last (by simp [hsecondLiteral last rfl])
        obtain ⟨piece, rfl, hascii⟩ := hpiece.consumed
        obtain ⟨second, hsecondText, hsecondPiece⟩ := hlater.consumed
        obtain ⟨tail, rfl⟩ : ∃ tail, next = '-' :: tail := by
          cases next with
          | nil => cases hhyphen.1
          | cons head tail => exact ⟨tail, by rw [Option.some.inj hhyphen.1]⟩
        rw [List.tail_cons] at hsecondText
        subst hsecondText
        refine ⟨⟨piece ++ '-' :: second, by simp, ?_⟩, ?_, ?_⟩
        · intro char hchar
          rcases List.mem_append.mp hchar with hfound | hfound
          · exact hascii char hfound
          · rcases List.mem_cons.mp hfound with rfl | hfound
            · decide
            · exact hsecondPiece char hfound
        · intro char hchar
          have hbound := (mem_characterRange hlast hchar).2
          exact hbound.trans_lt hlast
        · simp only [characterRange, ne_eq, List.map_eq_nil_iff,
            List.range'_eq_nil_iff]
          omega
      · cases hitem
    · cases hitem
  · cases hitem
    exact hpiece

theorem characterClassItems_ascii
    (hclass : characterClassItems found pattern = some (characters, rest))
    (hfound : ∀ char ∈ found, IsAscii char) : AsciiPiece pattern characters rest := by
  fun_induction characterClassItems found pattern with
  | case1 => cases hclass
  | case2 found pattern hclosing hsome =>
    cases hclass
    obtain ⟨tail, rfl⟩ : ∃ tail, pattern = ']' :: tail := by
      cases pattern with
      | nil => cases hclosing
      | cons head tail => exact ⟨tail, by rw [Option.some.inj hclosing]⟩
    exact ⟨⟨[']'], rfl, forall_mem_of_all (by decide)⟩, hfound,
      by simpa [List.isEmpty_iff] using hsome⟩
  | case3 => cases hclass
  | case4 found pattern _ added after hitem ih =>
    have hpiece := classItem_ascii hitem
    have hlater := ih hclass fun char hchar => by
      rcases List.mem_append.mp hchar with hold | hnew
      · exact hfound char hold
      · exact hpiece.members char hnew
    obtain ⟨first, rfl, hfirst⟩ := hpiece.consumed
    obtain ⟨second, rfl, hsecond⟩ := hlater.consumed
    refine ⟨⟨first ++ second, by simp, ?_⟩, hlater.members, hlater.nonempty⟩
    exact List.forall_mem_append.mpr ⟨hfirst, hsecond⟩

theorem patternCharacters_ascii
    (hcharacters : patternCharacters pattern = some (characters, rest)) :
    AsciiPiece pattern characters rest := by
  unfold patternCharacters at hcharacters
  split at hcharacters
  · cases hcharacters
  · unfold characterClass at hcharacters
    split at hcharacters
    · cases hcharacters
    · exact (characterClassItems_ascii hcharacters (by simp)).cons (by decide)
  · exact (escapedPatternCharacters_ascii hcharacters).cons (by decide)
  · split at hcharacters
    · next hliteral =>
      cases hcharacters
      exact asciiPiece_literal (isAscii_of_literal hliteral)
    · cases hcharacters

/-! ### Classes -/

/-- A member of a class of the matcher is one or two members of the browser's class. -/
inductive ItemReads (characters pattern rest tail : List Char) : Prop where
  | single (member : ScriptPattern.ClassAtom)
      (hmember : classAtom (pattern ++ tail) = some (member, rest ++ tail))
      (hplain : ¬((rest ++ tail).head? = some '-' ∧ (rest ++ tail)[1]? ≠ some ']'))
      (haccepts : ∀ character ∈ characters, member.accepts character = true)
  | range (first last : ScriptPattern.ClassAtom) (second : List Char) (accepts : Char → Bool)
      (hfirst : classAtom (pattern ++ tail) = some (first, second))
      (hhyphen : second.head? = some '-' ∧ second[1]? ≠ some ']')
      (hlast : classAtom second.tail = some (last, rest ++ tail))
      (hrange : classRange first last = some accepts)
      (haccepts : ∀ character ∈ characters, accepts character = true)

theorem classItem_reads (hitem : classItem pattern = some (characters, rest))
    (htail : tail.head? ≠ some '-') (hrest : rest ≠ ['-']) :
    ItemReads characters pattern rest tail := by
  unfold classItem at hitem
  split at hitem
  · cases hitem
  next firstChars firstLiteral next hfirst =>
  obtain ⟨first, hfirstReads, hsingle⟩ := classUnit_reads hfirst tail
  split at hitem
  · next hhyphen =>
    obtain ⟨hdash, hsome, hclosing⟩ := hhyphen
    obtain ⟨after, rfl⟩ : ∃ after, next = '-' :: after := by
      cases next with
      | nil => cases hdash
      | cons head after => exact ⟨after, by rw [Option.some.inj hdash]⟩
    split at hitem
    · cases hitem
    next secondChars secondLiteral beyond hsecond =>
    obtain ⟨last, hlastReads, hlastSingle⟩ := classUnit_reads hsecond tail
    split at hitem
    · next low high =>
      split at hitem
      · next hordered =>
        cases hitem
        have hascii : IsAscii high := by
          obtain ⟨hpiece, hliteral⟩ := classUnit_ascii hsecond
          exact hpiece.members high (by simp [hliteral high rfl])
        refine .range first last ('-' :: after ++ tail)
          (ScriptPattern.between low high) hfirstReads ⟨rfl, ?_⟩ hlastReads ?_ ?_
        · rw [List.tail_cons] at hsecond
          cases after with
          | nil => cases hsecond
          | cons head after => simpa using hclosing
        · simp only [classRange, hsingle.single, hlastSingle.single]
          rw [if_neg (Nat.not_lt.mpr hordered)]
        · intro char hchar
          exact decide_eq_true (mem_characterRange hascii hchar)
      · cases hitem
    · cases hitem
  · next hplain =>
    cases hitem
    refine .single first hfirstReads ?_ hsingle.accepts
    rintro ⟨hdash, hclosing⟩
    cases rest with
    | nil => exact htail hdash
    | cons head after =>
      cases after with
      | nil =>
        rw [List.cons_append, List.head?_cons, Option.some.injEq] at hdash
        exact hrest (by rw [hdash])
      | cons second after =>
        exact hplain ⟨hdash, by simp, by simpa using hclosing⟩

theorem closing_mem_of_class
    (hclass : characterClassItems found pattern = some (characters, rest)) :
    ']' ∈ pattern := by
  fun_induction characterClassItems found pattern with
  | case1 => cases hclass
  | case2 found pattern hclosing _ => exact List.mem_of_mem_head? hclosing
  | case3 => cases hclass
  | case4 found pattern _ added after hitem ih =>
    obtain ⟨piece, rfl, _⟩ := (classItem_ascii hitem).consumed
    exact List.mem_append_right piece (ih hclass)

/-- A browser reads a class as one that has its characters. -/
theorem characterClassItems_reads
    (hclass : characterClassItems found pattern = some (characters, rest))
    (htail : tail.head? ≠ some '-') (hfound : ∀ char ∈ found, accepts char = true)
    (hfuel : pattern.length ≤ fuel) :
    ∃ members, classMembers fuel accepts (pattern ++ tail) = some (members, rest ++ tail) ∧
      ∀ char ∈ characters, members char = true := by
  fun_induction characterClassItems found pattern generalizing accepts fuel with
  | case1 => cases hclass
  | case2 found pattern hclosing hsome =>
    cases hclass
    obtain ⟨after, rfl⟩ : ∃ after, pattern = ']' :: after := by
      cases pattern with
      | nil => cases hclosing
      | cons head after => exact ⟨after, by rw [Option.some.inj hclosing]⟩
    obtain ⟨fuel, rfl⟩ := Nat.exists_eq_add_one_of_ne_zero
      (show fuel ≠ 0 by simp only [List.length_cons] at hfuel; omega)
    exact ⟨accepts, by simp [classMembers], hfound⟩
  | case3 => cases hclass
  | case4 found pattern hopen added after hitem ih =>
    have hshorter := classItem_length hitem
    obtain ⟨fuel, rfl⟩ := Nat.exists_eq_add_one_of_ne_zero
      (show fuel ≠ 0 by omega)
    have hafter : after ≠ ['-'] := by
      rintro rfl
      exact absurd (closing_mem_of_class hclass) (by decide)
    have hhead : (pattern ++ tail).head? ≠ some ']' := by
      cases pattern with
      | nil => simp at hshorter
      | cons head rest => exact hopen
    have hjoin : ∀ {more : Char → Bool}, (∀ char ∈ added, more char = true) →
        ∀ char ∈ found ++ added, (accepts char || more char) = true := by
      intro more hmore char hchar
      rcases List.mem_append.mp hchar with hold | hnew
      · rw [hfound char hold, Bool.true_or]
      · rw [hmore char hnew, Bool.or_true]
    cases classItem_reads hitem htail hafter with
    | single member hmember hplain haccepts =>
      obtain ⟨members, hmembers, hall⟩ := ih hclass (hjoin haccepts)
        (show after.length ≤ fuel by omega)
      refine ⟨members, ?_, hall⟩
      rw [classMembers, if_neg hhead, hmember]
      simp only [hplain, if_false]
      exact hmembers
    | range first last second range hfirst hhyphen hlast hrange haccepts =>
      obtain ⟨members, hmembers, hall⟩ := ih hclass (hjoin haccepts)
        (show after.length ≤ fuel by omega)
      refine ⟨members, ?_, hall⟩
      rw [classMembers, if_neg hhead, hfirst]
      simp only [hhyphen, ne_eq, not_false_eq_true, and_self, if_true, hlast, hrange]
      exact hmembers

/-! ### Terms -/

theorem safeLiteral_reads : ∀ char ∈ safePatternLiteralChars,
    char = '.' ∨ char ∉ ScriptPattern.syntaxCharacters ∧ char ≠ '{' :=
  forall_mem_of_all (by decide)

theorem atom_literal (hplain : char ∉ ScriptPattern.syntaxCharacters)
    (hbrace : char ≠ '{') (rest : List Char) :
    ScriptPattern.assertion ScriptPattern.table (char :: rest) = none ∧
      ScriptPattern.atom (char :: rest) = some ((· == char), rest) := by
  have hsyntax := hplain
  simp only [ScriptPattern.syntaxCharacters, List.mem_cons, List.not_mem_nil, or_false,
    not_or] at hsyntax
  obtain ⟨hcaret, hdollar, hslash, hdot, _, _, _, _, _, hbracket, _⟩ := hsyntax
  constructor
  · unfold ScriptPattern.assertion
    split <;> simp_all
  · unfold ScriptPattern.atom
    split <;> simp_all

theorem atom_class (hfirst : first ≠ '^') (rest : List Char) :
    ScriptPattern.atom ('[' :: first :: rest) =
      classMembers (first :: rest).length (fun _ => false) (first :: rest) := by
  rw [ScriptPattern.atom]
  intro after heq
  exact hfirst (List.cons.inj heq).1

/-- The atoms of the matcher are atoms of the browser. -/
theorem patternCharacters_reads (hcharacters : patternCharacters pattern = some (characters, rest))
    (htail : tail.head? ≠ some '-') :
    ScriptPattern.assertion ScriptPattern.table (pattern ++ tail) = none ∧
      ∃ accepts, ScriptPattern.atom (pattern ++ tail) = some (accepts, rest ++ tail) ∧
        ∀ char ∈ characters, accepts char = true := by
  unfold patternCharacters at hcharacters
  split at hcharacters
  · cases hcharacters
  · next members =>
    unfold characterClass at hcharacters
    split at hcharacters
    · cases hcharacters
    next hcaret =>
    cases members with
    | nil => exact absurd (closing_mem_of_class hcharacters) (by simp)
    | cons first members =>
      have hnone : ∀ char ∈ ([] : List Char), (fun _ => false) char = true := by
        simp
      have hfuel : (first :: members).length ≤ (first :: (members ++ tail)).length := by
        simp
      obtain ⟨accepts, hmembers, haccepts⟩ :=
        characterClassItems_reads hcharacters htail hnone hfuel
      have hfirst : first ≠ '^' := fun heq => hcaret (by rw [heq]; rfl)
      refine ⟨rfl, accepts, ?_, haccepts⟩
      rw [List.cons_append, List.cons_append, atom_class hfirst]
      exact hmembers
  · next escapedText =>
    obtain ⟨escaped, rfl, hb, hB, hreads⟩ := escapedPatternCharacters_reads hcharacters
    constructor
    · unfold ScriptPattern.assertion
      split <;> simp_all
    · cases hreads with
      | set accepts hset haccepts _ =>
        refine ⟨accepts, ?_, haccepts⟩
        simp [ScriptPattern.atom, hset]
      | literal hset hliteral hsame =>
        refine ⟨(· == escaped), ?_, by simp [hsame]⟩
        simp [ScriptPattern.atom, hset, hliteral]
  · next char after hbracket hslash =>
    split at hcharacters
    · next hliteral =>
      cases hcharacters
      rcases safeLiteral_reads char (List.contains_iff_mem.mp hliteral) with
        rfl | ⟨hplain, hbrace⟩
      · exact ⟨rfl, _, rfl, forall_mem_of_all (by decide)⟩
      · obtain ⟨hassertion, hatom⟩ := atom_literal hplain hbrace (rest ++ tail)
        exact ⟨hassertion, _, hatom, by simp⟩
    · cases hcharacters

/-! ### Repetitions -/

/-- The decimal digits of the first script are the digits of the browser. -/
def AsciiDecimal (decimal : Char → Option ℕ) : Prop :=
  ∀ character, IsAscii character → decimal character =
    if character.isDigit then some (character.toNat - '0'.toNat) else none

theorem isAscii_of_isDigit (hdigit : char.isDigit = true) :
    IsAscii char := by
  simp only [Char.isDigit, Bool.and_eq_true, decide_eq_true_eq] at hdigit
  have hbound : char.val.toNat ≤ 57 := hdigit.2
  exact hbound.trans_lt (by decide)

theorem shortDecimal_digits (hvalue : shortDecimal decimal text = some value) :
    text ≠ [] ∧ ∀ char ∈ text, decimal char ≠ none := by
  unfold shortDecimal at hvalue
  split at hvalue
  · next hlength =>
    obtain ⟨digits, hdigits, _⟩ := Option.map_eq_some_iff.mp hvalue
    rcases hlength with hlength | hlength
    · obtain ⟨first, rfl⟩ := List.length_eq_one_iff.mp hlength
      cases hfirst : decimal first with
      | none => simp [hfirst] at hdigits
      | some => simp [hfirst]
    · obtain ⟨first, second, rfl⟩ := List.length_eq_two.mp hlength
      cases hfirst : decimal first with
      | none => simp [hfirst] at hdigits
      | some =>
        cases hsecond : decimal second with
        | none => simp [hfirst, hsecond] at hdigits
        | some => simp [hfirst, hsecond]
  · cases hvalue

theorem shortDecimal_ascii (hdecimal : AsciiDecimal decimal)
    (hvalue : shortDecimal decimal text = some value)
    (hascii : ∀ char ∈ text, IsAscii char) :
    text ≠ [] ∧ (∀ char ∈ text, char.isDigit = true) ∧
      ScriptPattern.decimalValue text = value := by
  obtain ⟨hnonempty, hsome⟩ := shortDecimal_digits hvalue
  have hdigits : ∀ char ∈ text, char.isDigit = true := by
    intro char hchar
    by_contra hother
    apply hsome char hchar
    rw [hdecimal char (hascii char hchar), if_neg hother]
  have hread : ∀ char ∈ text,
      decimal char = some (char.toNat - '0'.toNat) := by
    intro char hchar
    rw [hdecimal char (hascii char hchar), if_pos (hdigits char hchar)]
  refine ⟨hnonempty, hdigits, ?_⟩
  unfold shortDecimal at hvalue
  split at hvalue
  · next hlength =>
    rcases hlength with hlength | hlength
    · obtain ⟨first, rfl⟩ := List.length_eq_one_iff.mp hlength
      simpa [hread first, ScriptPattern.decimalValue] using hvalue
    · obtain ⟨first, second, rfl⟩ := List.length_eq_two.mp hlength
      simpa [hread first, hread second, ScriptPattern.decimalValue] using hvalue
  · cases hvalue

theorem takeWhile_digits (hdigits : ∀ char ∈ digits, char.isDigit = true)
    (hstop : stop.isDigit = false)
    (rest : List Char) :
    (digits ++ stop :: rest).takeWhile Char.isDigit = digits ∧
      (digits ++ stop :: rest).dropWhile Char.isDigit = stop :: rest := by
  rw [List.takeWhile_append_of_pos hdigits, List.dropWhile_append_of_pos hdigits]
  simp [hstop]

/-- A repetition in braces that the browser reads is written in the first script. -/
theorem bracedBounds_consumed (hbounds : bracedBounds pattern = some (bounds, rest)) :
    ∃ consumed, pattern = consumed ++ '}' :: rest ∧ '}' ∉ consumed ∧
      ∀ char ∈ consumed, IsAscii char := by
  have hdigit : ∀ {text : List Char}, ∀ char ∈ text.takeWhile Char.isDigit,
      char.isDigit = true := fun char hchar => List.mem_takeWhile_imp hchar
  have hbrace : ∀ {text : List Char}, '}' ∉ text.takeWhile Char.isDigit :=
    fun hmem => absurd (hdigit '}' hmem) (by decide)
  have hjoin : ∀ text : List Char, text = text.takeWhile Char.isDigit ++
      text.dropWhile Char.isDigit := fun text => (List.takeWhile_append_dropWhile ..).symm
  simp only [bracedBounds] at hbounds
  split at hbounds
  · cases hbounds
  split at hbounds
  · next after hafter =>
    cases hbounds
    refine ⟨pattern.takeWhile Char.isDigit, by rw [← hafter]; exact hjoin pattern, hbrace, ?_⟩
    exact fun char hchar => isAscii_of_isDigit (hdigit char hchar)
  · next after hafter =>
    split at hbounds
    · next beyond hbeyond =>
      cases hbounds
      refine ⟨pattern.takeWhile Char.isDigit ++ ',' :: after.takeWhile Char.isDigit,
        ?_, ?_, ?_⟩
      · calc pattern = pattern.takeWhile Char.isDigit ++ ',' :: after := by
              rw [← hafter]
              exact hjoin pattern
          _ = pattern.takeWhile Char.isDigit ++
                ',' :: (after.takeWhile Char.isDigit ++ '}' :: rest) := by
              rw [← hbeyond, ← hjoin after]
          _ = _ := by simp
      · simp only [List.mem_append, List.mem_cons, not_or]
        exact ⟨hbrace, by decide, hbrace⟩
      · intro char hchar
        simp only [List.mem_append, List.mem_cons] at hchar
        rcases hchar with hchar | rfl | hchar
        · exact isAscii_of_isDigit (hdigit char hchar)
        · decide
        · exact isAscii_of_isDigit (hdigit char hchar)
    · cases hbounds
  · cases hbounds

theorem before_brace_unique {first second : List Char} (hfirst : '}' ∉ first)
    (hsecond : '}' ∉ second) (hsame : first ++ '}' :: after = second ++ '}' :: beyond) :
    first = second := by
  have hcut : ∀ {text rest : List Char}, '}' ∉ text →
      (text ++ '}' :: rest).takeWhile (· != '}') = text := by
    intro text rest htext
    rw [List.takeWhile_append_of_pos]
    · simp
    · intro char hchar
      rw [bne_iff_ne]
      rintro rfl
      exact htext hchar
  rw [← hcut hfirst, hsame, hcut hsecond]

def ReadsAlike (atom : PatternAtom Char) (regex : Regex) : Prop :=
  ∀ word before rest : List Char, atom.Reads word →
    (⟨word.reverse ++ before, rest⟩ : Place) ∈ regex.ends ⟨before, word ++ rest⟩

theorem readsAlike_once (haccepts : ∀ char ∈ characters, accepts char = true) :
    ReadsAlike ⟨characters, 1, 1⟩ (.char accepts) := by
  intro word before rest hword
  have hlength : word.length = 1 := le_antisymm hword.maximum hword.minimum
  obtain ⟨char, rfl⟩ := List.length_eq_one_iff.mp hlength
  have haccepted := haccepts char (hword.characters char (by simp))
  simp [Regex.ends_char, haccepted]

theorem readsAlike_repeated (haccepts : ∀ char ∈ characters, accepts char = true)
    (minimum maximum : ℕ) :
    ReadsAlike ⟨characters, minimum, maximum⟩
      (.repeated (.char accepts) minimum (some maximum)) := by
  intro word before rest hword
  apply Regex.mem_ends_repeated
  · exact fun char hchar => haccepts char (hword.characters char hchar)
  · exact hword.minimum
  · intro bound hbound
    rw [← Option.some.inj hbound]
    exact hword.maximum

/-- What may follow the atoms of a pattern: its end or its last anchor. -/
def Closing (tail : List Char) : Prop :=
  tail = [] ∨ tail = ['$']

theorem Closing.head (htail : Closing tail) (hchar : char ≠ '$') :
    tail.head? ≠ some char := by
  rcases htail with rfl | rfl
  · simp
  · simpa using hchar.symm

theorem Closing.append_head (htail : Closing tail) (hchar : char ≠ '$')
    (hrest : rest.head? ≠ some char) :
    (rest ++ tail).head? ≠ some char := by
  cases rest with
  | nil => exact htail.head hchar
  | cons first rest => exact hrest

theorem quantifier_eq_none (hrest : ∀ char ∈ ['?', '{', '*', '+'], rest.head? ≠ some char) :
    quantifier rest = none := by
  unfold quantifier
  split
  · exact absurd rfl (hrest '*' (by decide))
  · exact absurd rfl (hrest '+' (by decide))
  · exact absurd rfl (hrest '?' (by decide))
  · exact absurd rfl (hrest '{' (by decide))
  · rfl

theorem dropLazy_of_head (hrest : rest.head? ≠ some '?') :
    dropLazy rest = rest := by
  unfold dropLazy
  split
  · exact absurd rfl hrest
  · rfl

/-- A repetition in the first script is the same repetition in the browser. -/
theorem quantifierText_reads (hdecimal : AsciiDecimal decimal)
    (htext : QuantifierText decimal minimum maximum after pattern) (htail : Closing tail)
    (hascii : ∀ piece, pattern = piece ++ after → ∀ char ∈ piece, IsAscii char) :
    minimum = 1 ∧ maximum = 1 ∧ pattern = after ∧ quantifier (pattern ++ tail) = none ∨
      quantifier (pattern ++ tail) = some ((minimum, some maximum), after ++ tail) := by
  cases htext with
  | once hbounds hhead =>
    refine .inl ⟨hbounds.1, hbounds.2, rfl, quantifier_eq_none fun char hchar => ?_⟩
    apply htail.append_head
    · rintro rfl
      simp at hchar
    · intro hhere
      exact hhead char hhere hchar
  | optional hbounds =>
    right
    rw [hbounds.1, hbounds.2]
    rfl
  | @exactly body hbody hsame hclosed =>
    right
    have hpiece := hascii ('{' :: (body ++ ['}'])) (by simp)
    have hbodyAscii : ∀ char ∈ body, IsAscii char :=
      fun char hchar => hpiece char (by simp [hchar])
    obtain ⟨hnonempty, hdigits, hvalue⟩ := shortDecimal_ascii hdecimal hbody hbodyAscii
    have hstop : '}'.isDigit = false := rfl
    obtain ⟨htake, hdrop⟩ := takeWhile_digits hdigits hstop (after ++ tail)
    simp only [List.cons_append, List.append_assoc, quantifier, bracedBounds, htake, hdrop]
    simp [hnonempty, hvalue, hsame]
  | @range low high hlow hhigh hclosed =>
    right
    have hpiece := hascii ('{' :: (low ++ ',' :: high ++ ['}'])) (by simp)
    have hlowAscii : ∀ char ∈ low, IsAscii char :=
      fun char hchar => hpiece char (by simp [hchar])
    have hhighAscii : ∀ char ∈ high, IsAscii char :=
      fun char hchar => hpiece char (by simp [hchar])
    obtain ⟨hlowText, hlowDigits, hlowValue⟩ := shortDecimal_ascii hdecimal hlow hlowAscii
    obtain ⟨hhighText, hhighDigits, hhighValue⟩ :=
      shortDecimal_ascii hdecimal hhigh hhighAscii
    have hcomma : ','.isDigit = false := rfl
    have hstop : '}'.isDigit = false := rfl
    obtain ⟨hlowTake, hlowDrop⟩ :=
      takeWhile_digits hlowDigits hcomma (high ++ '}' :: (after ++ tail))
    obtain ⟨hhighTake, hhighDrop⟩ :=
      takeWhile_digits hhighDigits hstop (after ++ tail)
    simp only [List.cons_append, List.append_assoc, quantifier, bracedBounds, hlowTake,
      hlowDrop, hhighTake, hhighDrop]
    simp [hlowText, hhighText, hlowValue, hhighValue]

/-- A browser reads an atom with its quantifier alike. -/
theorem term_reads (hdecimal : AsciiDecimal decimal)
    (hcharacters : patternCharacters pattern = some (characters, rest))
    (hquantifier : boundedQuantifier decimal rest = some (minimum, maximum, after))
    (htail : Closing tail)
    (hascii : ∀ piece, rest = piece ++ after → ∀ char ∈ piece, IsAscii char)
    (hafter : after.head? ≠ some '?') :
    ScriptPattern.assertion ScriptPattern.table (pattern ++ tail) = none ∧
      ∃ regex, term (pattern ++ tail) = some (regex, after ++ tail) ∧
        ReadsAlike ⟨characters, minimum, maximum⟩ regex := by
  obtain ⟨hassertion, accepts, hatom, haccepts⟩ :=
    patternCharacters_reads hcharacters (htail.head (by decide))
  obtain ⟨hordered, _, htext⟩ := boundedQuantifier_eq_some hquantifier
  refine ⟨hassertion, ?_⟩
  unfold term
  rw [hatom]
  rcases quantifierText_reads hdecimal htext htail hascii with ⟨rfl, rfl, rfl, hnone⟩ | hsome
  · simp only [hnone]
    exact ⟨_, rfl, readsAlike_once haccepts⟩
  · have hlazy : dropLazy (after ++ tail) = after ++ tail :=
      dropLazy_of_head (htail.append_head (by decide) hafter)
    simp only [hsome, Option.any_some, decide_eq_true_eq, Nat.not_lt.mpr hordered, if_false,
      hlazy]
    exact ⟨_, rfl, readsAlike_repeated haccepts minimum maximum⟩

/-! ### Whole patterns -/

theorem parseAtoms_head (hparse : parseAtoms decimal states pattern = some atoms) :
    pattern.head? ≠ some '?' := by
  intro hhead
  rcases parseAtoms_cons hparse with ⟨rfl, _⟩ | ⟨_, _, _, _, _, _, hcharacters, _⟩
  · cases hhead
  cases pattern with
  | nil => cases hhead
  | cons first rest =>
    rw [List.head?_cons, Option.some.injEq] at hhead
    subst hhead
    cases hcharacters

theorem terms_step (hne : pattern ≠ [])
    (hassertion : ScriptPattern.assertion ScriptPattern.table pattern = none)
    (hterm : term pattern = some (regex, rest)) :
    terms ScriptPattern.table (fuel + 1) pattern =
      (terms ScriptPattern.table fuel rest).map (.seq regex) := by
  cases pattern with
  | nil => exact absurd rfl hne
  | cons first pattern =>
    rw [terms]
    · simp only [hassertion, hterm]
    · simp

theorem terms_closing (htail : Closing tail) (hfuel : tail.length ≤ fuel) :
    ∃ regex, terms ScriptPattern.table fuel tail = some regex ∧
      ∀ before, (⟨before, []⟩ : Place) ∈ regex.ends ⟨before, []⟩ := by
  rcases htail with rfl | rfl
  · exact ⟨.empty, by cases fuel <;> rfl, fun before => List.mem_singleton_self _⟩
  cases fuel with
  | zero => simp at hfuel
  | succ fuel =>
    refine ⟨.seq (.assert fun place => place.after.isEmpty) .empty, ?_, fun before => ?_⟩
    · rw [terms]
      · cases fuel <;> rfl
      · simp
    · simp [Regex.ends]

/-- The browser reads a pattern in the first script as the matcher does. -/
theorem parseAtoms_reads (hdecimal : AsciiDecimal decimal)
    (hparse : parseAtoms decimal states pattern = some atoms) (htail : Closing tail)
    (hascii : ∀ char ∈ pattern, IsAscii char) (hfuel : (pattern ++ tail).length ≤ fuel) :
    ∃ regex, terms ScriptPattern.table fuel (pattern ++ tail) = some regex ∧
      ∀ word before : List Char, Spells atoms word →
        (⟨word.reverse ++ before, []⟩ : Place) ∈ regex.ends ⟨before, word⟩ := by
  induction atoms generalizing states fuel pattern with
  | nil =>
    obtain ⟨rfl, _⟩ | ⟨_, _, _, _, _, _, _, _, _, ⟨⟩⟩ := parseAtoms_cons hparse
    obtain ⟨regex, hregex, hends⟩ := terms_closing htail hfuel
    refine ⟨regex, hregex, fun word before hword => ?_⟩
    cases hword
    exact hends before
  | cons atom later ih =>
    rcases parseAtoms_cons hparse with ⟨_, hnone⟩ |
      ⟨characters, minimum, maximum, rest, after, found, hcharacters, hquantifier, hlater,
        hatoms⟩
    · cases hnone
    · cases hatoms
      obtain ⟨piece, hpattern, _⟩ := (patternCharacters_ascii hcharacters).consumed
      have hshorter := patternCharacters_length hcharacters
      have hshortest := boundedQuantifier_length hquantifier
      have hrest : ∀ char ∈ rest, IsAscii char := by
        intro char hchar
        exact hascii char (by rw [hpattern]; simp [hchar])
      have hafter : ∀ char ∈ after, IsAscii char := by
        intro char hchar
        obtain ⟨_, _, htext⟩ := boundedQuantifier_eq_some hquantifier
        apply hrest
        cases htext <;> simp [hchar]
      have hpieces : ∀ piece, rest = piece ++ after → ∀ char ∈ piece, IsAscii char :=
        fun piece hpiece char hchar =>
          hrest char (by rw [hpiece]; simp [hchar])
      obtain ⟨hassertion, regex, hterm, hreads⟩ := term_reads hdecimal hcharacters hquantifier
        htail hpieces (parseAtoms_head hlater)
      rw [List.length_append] at hfuel
      obtain ⟨fuel, rfl⟩ := Nat.exists_eq_add_one_of_ne_zero (show fuel ≠ 0 by omega)
      have hless : (after ++ tail).length ≤ fuel := by
        rw [List.length_append]
        omega
      obtain ⟨next, hnext, hends⟩ := ih hlater hafter hless
      have hne : pattern ++ tail ≠ [] := by
        intro hnil
        rw [(List.append_eq_nil_iff.mp hnil).1] at hshorter
        simp at hshorter
      refine ⟨.seq regex next, ?_, fun word before hword => ?_⟩
      · rw [terms_step hne hassertion hterm, hnext]
        rfl
      · cases hword with
        | @cons _ _ first second hfirst hsecond =>
          rw [Regex.ends_seq, List.mem_flatMap]
          refine ⟨_, hreads first before second hfirst, ?_⟩
          rw [List.reverse_append, List.append_assoc]
          exact hends second (first.reverse ++ before) hsecond

/-! ### Repetitions in another script -/

theorem plain_of_digit (hdecimal : AsciiDecimal decimal)
    (hdigit : decimal char ≠ none ∨ char = ',') :
    char ∉ ScriptPattern.syntaxCharacters ∧ char ∉ ['?', '{', '*', '+'] := by
  have hspecial : ∀ special ∈ ScriptPattern.syntaxCharacters ++ ['?', '{', '*', '+'],
      IsAscii special ∧ special.isDigit = false ∧ special ≠ ',' := forall_mem_of_all (by decide)
  have hother : char ∉ ScriptPattern.syntaxCharacters ++ ['?', '{', '*', '+'] := by
    intro hmem
    obtain ⟨hascii, hnotDigit, hcomma⟩ := hspecial char hmem
    rcases hdigit with hsome | heq
    · apply hsome
      rw [hdecimal char hascii, hnotDigit]
      rfl
    · exact hcomma heq
  rw [List.mem_append, not_or] at hother
  exact hother

theorem term_once (hatom : ScriptPattern.atom pattern = some (accepts, rest))
    (hquantifier : quantifier rest = none) : term pattern = some (.char accepts, rest) := by
  unfold term
  rw [hatom]
  simp only [hquantifier]

theorem terms_literal
    (hassertion : ScriptPattern.assertion ScriptPattern.table (char :: rest) = none)
    (hatom : ScriptPattern.atom (char :: rest) = some ((· == char), rest))
    (hquantifier : quantifier rest = none)
    (hterms : terms ScriptPattern.table fuel (char :: rest) = some regex) :
    ∃ fuel next, terms ScriptPattern.table fuel rest = some next ∧
      regex = .seq (.char (· == char)) next := by
  cases fuel with
  | zero => cases hterms
  | succ fuel =>
    rw [terms_step (by simp) hassertion (term_once hatom hquantifier)] at hterms
    obtain ⟨next, hnext, hregex⟩ := Option.map_eq_some_iff.mp hterms
    exact ⟨fuel, next, hnext, hregex.symm⟩

theorem ends_literal (hnext : next ∈ (Regex.seq (.char (· == char)) later).ends place) :
    ∃ middle : Place, place.after = char :: middle.after ∧ next ∈ later.ends middle := by
  obtain ⟨middle, hmiddle, hrest⟩ := List.mem_flatMap.mp hnext
  rw [Regex.ends_char] at hmiddle
  split at hmiddle
  · cases hmiddle
  next found rest hplace =>
  split at hmiddle
  · next hsame =>
    rw [List.mem_singleton] at hmiddle
    subst hmiddle
    exact ⟨_, by rw [hplace, beq_iff_eq.mp hsame], hrest⟩
  · cases hmiddle

theorem quantifier_digits (hdecimal : AsciiDecimal decimal)
    (hbody : ∀ char ∈ body, decimal char ≠ none ∨ char = ',') (rest : List Char) :
    quantifier (body ++ '}' :: rest) = none := by
  apply quantifier_eq_none
  intro char hchar hhead
  cases body with
  | nil =>
    rw [List.nil_append, List.head?_cons, Option.some.injEq] at hhead
    subst hhead
    simp at hchar
  | cons first body =>
    rw [List.cons_append, List.head?_cons, Option.some.injEq] at hhead
    subst hhead
    exact (plain_of_digit hdecimal (hbody first (.head _))).2 hchar

theorem digits_needed (hdecimal : AsciiDecimal decimal)
    (hbody : ∀ char ∈ body, decimal char ≠ none ∨ char = ',')
    (hterms : terms ScriptPattern.table fuel (body ++ '}' :: rest) = some regex)
    (hnext : next ∈ regex.ends place) :
    ∀ char ∈ body, char ∈ place.after := by
  induction body generalizing fuel regex place with
  | nil => simp
  | cons first body ih =>
    obtain ⟨hplain, hother⟩ := plain_of_digit hdecimal (hbody first (.head _))
    have hlater : ∀ char ∈ body, decimal char ≠ none ∨ char = ',' :=
      fun char hchar => hbody char (.tail _ hchar)
    have hbrace : first ≠ '{' := by
      rintro rfl
      simp at hother
    obtain ⟨hassertion, hatom⟩ := atom_literal hplain hbrace (body ++ '}' :: rest)
    obtain ⟨fuel, later, hrest, rfl⟩ :=
      terms_literal hassertion hatom (quantifier_digits hdecimal hlater rest) hterms
    obtain ⟨middle, hplace, hend⟩ := ends_literal hnext
    intro char hchar
    rw [hplace]
    rcases List.mem_cons.mp hchar with rfl | hchar
    · exact List.mem_cons_self
    · exact List.mem_cons_of_mem _ (ih hlater hrest hend char hchar)

theorem bracedBounds_foreign (rest : List Char) (hclosed : '}' ∉ body)
    (hforeign : ∃ char ∈ body, ¬IsAscii char) :
    bracedBounds (body ++ '}' :: rest) = none := by
  cases hbounds : bracedBounds (body ++ '}' :: rest) with
  | none => rfl
  | some found =>
    obtain ⟨consumed, htext, hnotClosed, hascii⟩ := bracedBounds_consumed hbounds
    have hsame := before_brace_unique hclosed hnotClosed htext
    obtain ⟨char, hchar, hother⟩ := hforeign
    exact absurd (hascii char (hsame ▸ hchar)) hother

/-- The braces of a repetition and what stands between them. -/
theorem QuantifierText.braces (htext : QuantifierText decimal minimum maximum rest pattern)
    (hpiece : pattern = piece ++ rest)
    (hforeign : ∃ char ∈ piece, ¬IsAscii char) :
    ∃ body, pattern = '{' :: (body ++ '}' :: rest) ∧ '}' ∉ body ∧
      (∀ char ∈ body, decimal char ≠ none ∨ char = ',') ∧
      ∃ char ∈ body, ¬IsAscii char := by
  have hinside : ∀ {body : List Char}, piece = '{' :: (body ++ ['}']) →
      ∃ char ∈ body, ¬IsAscii char := by
    rintro body rfl
    obtain ⟨char, hchar, hother⟩ := hforeign
    refine ⟨char, ?_, hother⟩
    simp only [List.mem_cons, List.mem_append, List.not_mem_nil, or_false] at hchar
    rcases hchar with rfl | hchar | rfl
    · exact absurd (by decide) hother
    · exact hchar
    · exact absurd (by decide) hother
  cases htext with
  | once =>
    rw [List.self_eq_append_left] at hpiece
    subst hpiece
    simp at hforeign
  | optional =>
    have hquestion : piece = ['?'] :=
      List.append_cancel_right (hpiece.symm.trans (by simp : _ = ['?'] ++ rest))
    subst hquestion
    obtain ⟨char, hchar, hother⟩ := hforeign
    rw [List.mem_singleton.mp hchar] at hother
    exact absurd (by decide) hother
  | @exactly body hbody _ hclosed =>
    have hwhole : piece = '{' :: (body ++ ['}']) :=
      List.append_cancel_right (hpiece.symm.trans (by simp))
    exact ⟨body, rfl, hclosed, fun char hchar =>
      .inl ((shortDecimal_digits hbody).2 char hchar), hinside hwhole⟩
  | @range low high hlow hhigh hclosed =>
    have hwhole : piece = '{' :: ((low ++ ',' :: high) ++ ['}']) :=
      List.append_cancel_right (hpiece.symm.trans (by simp))
    refine ⟨low ++ ',' :: high, rfl, hclosed, fun char hchar => ?_, hinside hwhole⟩
    rcases List.mem_append.mp hchar with hchar | hchar
    · exact .inl ((shortDecimal_digits hlow).2 char hchar)
    · rcases List.mem_cons.mp hchar with rfl | hchar
      · exact .inr rfl
      · exact .inl ((shortDecimal_digits hhigh).2 char hchar)

theorem QuantifierText.suffix (htext : QuantifierText decimal minimum maximum rest pattern) :
    ∃ piece, pattern = piece ++ rest := by
  cases htext with
  | once => exact ⟨[], rfl⟩
  | optional => exact ⟨['?'], rfl⟩
  | @exactly body => exact ⟨'{' :: (body ++ ['}']), by simp⟩
  | @range low high => exact ⟨'{' :: (low ++ ',' :: high ++ ['}']), by simp⟩

theorem atom_brace (hbounds : bracedBounds rest = none) :
    ScriptPattern.assertion ScriptPattern.table ('{' :: rest) = none ∧
      ScriptPattern.atom ('{' :: rest) = some ((· == '{'), rest) := by
  constructor
  · rfl
  · have hplain : '{' ∉ ScriptPattern.syntaxCharacters := by decide
    simp [ScriptPattern.atom, hplain, hbounds]

theorem repetition_needed (hdecimal : AsciiDecimal decimal) (hclosed : '}' ∉ body)
    (hbody : ∀ char ∈ body, decimal char ≠ none ∨ char = ',')
    (hforeign : ∃ char ∈ body, ¬IsAscii char)
    (hterms : terms ScriptPattern.table fuel ('{' :: (body ++ '}' :: rest)) = some regex)
    (hnext : next ∈ regex.ends place) :
    ∃ char ∈ place.after, ¬IsAscii char := by
  obtain ⟨hassertion, hatom⟩ := atom_brace (bracedBounds_foreign rest hclosed hforeign)
  obtain ⟨fuel, later, hlater, rfl⟩ :=
    terms_literal hassertion hatom (quantifier_digits hdecimal hbody rest) hterms
  obtain ⟨middle, hplace, hend⟩ := ends_literal hnext
  obtain ⟨char, hchar, hother⟩ := hforeign
  have hmiddle := digits_needed hdecimal hbody hlater hend char hchar
  exact ⟨char, by rw [hplace]; exact List.mem_cons_of_mem _ hmiddle, hother⟩

theorem terms_later {first : Regex} (hne : pattern ≠ [])
    (hassertion : ScriptPattern.assertion ScriptPattern.table pattern = none)
    (hterm : term pattern = some (first, rest))
    (hterms : terms ScriptPattern.table fuel pattern = some regex)
    (hnext : next ∈ regex.ends place) :
    ∃ fuel later, terms ScriptPattern.table fuel rest = some later ∧
      ∃ middle : Place, middle.after <:+ place.after ∧ next ∈ later.ends middle := by
  cases fuel with
  | zero =>
    cases pattern with
    | nil => exact absurd rfl hne
    | cons => cases hterms
  | succ fuel =>
    rw [terms_step hne hassertion hterm] at hterms
    obtain ⟨later, hlater, rfl⟩ := Option.map_eq_some_iff.mp hterms
    obtain ⟨middle, hmiddle, hend⟩ := List.mem_flatMap.mp hnext
    exact ⟨fuel, later, hlater, middle, Regex.ends_suffix first hmiddle, hend⟩

/-- The browser needs a character of another script in the value wherever the pattern has
one. -/
theorem parseAtoms_needs (hdecimal : AsciiDecimal decimal)
    (hparse : parseAtoms decimal states pattern = some atoms) (htail : Closing tail)
    (hforeign : ∃ char ∈ pattern, ¬IsAscii char)
    (hterms : terms ScriptPattern.table fuel (pattern ++ tail) = some regex)
    (hnext : next ∈ regex.ends place) :
    ∃ char ∈ place.after, ¬IsAscii char := by
  induction atoms generalizing states fuel pattern regex place with
  | nil =>
    obtain ⟨rfl, _⟩ | ⟨_, _, _, _, _, _, _, _, _, ⟨⟩⟩ := parseAtoms_cons hparse
    simp at hforeign
  | cons atom later ih =>
    rcases parseAtoms_cons hparse with ⟨_, hnone⟩ |
      ⟨characters, minimum, maximum, rest, after, found, hcharacters, hquantifier, hlater,
        hatoms⟩
    · cases hnone
    · cases hatoms
      obtain ⟨piece, hpattern, hpiece⟩ := (patternCharacters_ascii hcharacters).consumed
      obtain ⟨_, _, htext⟩ := boundedQuantifier_eq_some hquantifier
      have hne : pattern ++ tail ≠ [] := by
        intro hnil
        rw [(List.append_eq_nil_iff.mp hnil).1] at hcharacters
        cases hcharacters
      by_cases hascii : ∀ piece, rest = piece ++ after → ∀ char ∈ piece, IsAscii char
      -- The browser reads the same term, and the rest of the pattern has the char.
      · obtain ⟨hassertion, first, hterm, _⟩ := term_reads hdecimal hcharacters hquantifier
          htail hascii (parseAtoms_head hlater)
        obtain ⟨fuel, regex, hrest, middle, hsuffix, hend⟩ :=
          terms_later hne hassertion hterm hterms hnext
        obtain ⟨bounds, hbounds⟩ := htext.suffix
        have hafter : ∃ char ∈ after, ¬IsAscii char := by
          obtain ⟨char, hchar, hother⟩ := hforeign
          refine ⟨char, ?_, hother⟩
          rw [hpattern, hbounds, List.mem_append, List.mem_append] at hchar
          rcases hchar with hchar | hchar | hchar
          · exact absurd (hpiece char hchar) hother
          · exact absurd (hascii bounds hbounds char hchar) hother
          · exact hchar
        obtain ⟨char, hchar, hother⟩ := ih hlater hafter hrest hend
        exact ⟨char, hsuffix.subset hchar, hother⟩
      -- The browser reads the repetition itself as text.
      · push Not at hascii
        obtain ⟨bounds, hbounds, hother⟩ := hascii
        obtain ⟨body, rfl, hclosed, hbody, hinside⟩ := htext.braces hbounds hother
        obtain ⟨hassertion, accepts, hatom, _⟩ :=
          patternCharacters_reads hcharacters (htail.head (by decide))
        have hnone : quantifier ('{' :: (body ++ '}' :: after) ++ tail) = none := by
          have hforeignBody := bracedBounds_foreign (after ++ tail) hclosed hinside
          rwa [List.cons_append, List.append_assoc, List.cons_append]
        obtain ⟨fuel, regex, hrest, middle, hsuffix, hend⟩ :=
          terms_later hne hassertion (term_once hatom hnone) hterms hnext
        rw [List.cons_append, List.append_assoc, List.cons_append] at hrest
        obtain ⟨char, hchar, hfound⟩ :=
          repetition_needed hdecimal hclosed hbody hinside hrest hend
        exact ⟨char, hsuffix.subset hchar, hfound⟩

/-! ### Accepted values -/

/-- A pattern is its body between its anchors. -/
theorem pattern_anchors (pattern : String) :
    ∃ head tail, (head = [] ∨ head = ['^']) ∧ Closing tail ∧
      pattern.toList = head ++ (patternBody pattern ++ tail) := by
  have hclosing : ∃ body tail, Closing tail ∧ pattern.toList = body ++ tail ∧
      patternBody pattern = if pattern.toList.head? == some '^' then body.tail else body := by
    simp only [patternBody]
    generalize hanchored : (pattern.toList.getLast? == some '$' &&
      (pattern.toList.dropLast.reverse.takeWhile (· == '\\')).length % 2 == 0) = anchored
    cases anchored with
    | false => exact ⟨pattern.toList, [], .inl rfl, (List.append_nil _).symm, rfl⟩
    | true =>
      rw [Bool.and_eq_true, beq_iff_eq] at hanchored
      exact ⟨pattern.toList.dropLast, ['$'], .inr rfl,
        (List.dropLast_append_getLast? _ hanchored.1).symm, rfl⟩
  obtain ⟨body, tail, htail, hpattern, hbody⟩ := hclosing
  split at hbody
  · next hcaret =>
    rw [beq_iff_eq] at hcaret
    refine ⟨['^'], tail, .inr rfl, htail, ?_⟩
    rw [hpattern, hbody]
    cases body with
    | nil =>
      rw [hpattern, List.nil_append] at hcaret
      exact absurd hcaret (htail.head (by decide))
    | cons first body =>
      rw [hpattern, List.cons_append, List.head?_cons, Option.some.injEq] at hcaret
      rw [hcaret]
      rfl
  · exact ⟨[], tail, .inl rfl, htail, by rw [hpattern, hbody, List.nil_append]⟩

/-- The first anchor reads nothing at the beginning of the value. -/
theorem fullyMatches_anchored (hhead : head = [] ∨ head = ['^'])
    (hpattern : pattern.toList = head ++ rest) :
    ScriptPattern.fullyMatches pattern value =
      (terms ScriptPattern.table rest.length rest).any fun regex =>
        regex.isFullMatch value.toList := by
  unfold ScriptPattern.fullyMatches ScriptPattern.read
  rcases hhead with rfl | rfl
  · rw [hpattern, List.nil_append]
  rw [hpattern, List.cons_append, List.nil_append, List.length_cons, terms]
  · simp only [ScriptPattern.assertion, Option.any_map]
    congr 1
    funext regex
    simp [Regex.isFullMatch, Regex.ends, Regex.atStart]
  · simp

/-- A browser accepts what an ASCII pattern spells. -/
theorem browser_accepts (hdecimal : AsciiDecimal decimal)
    (hparse : parseBoundedFormPattern decimal pattern = some atoms)
    (hascii : ∀ char ∈ pattern.toList, IsAscii char)
    (hspells : Spells atoms value.toList) :
    ScriptPattern.fullyMatches pattern value = true := by
  obtain ⟨head, tail, hhead, htail, hpattern⟩ := pattern_anchors pattern
  have hbody : ∀ char ∈ patternBody pattern, IsAscii char := by
    intro char hchar
    apply hascii
    rw [hpattern]
    simp [hchar]
  obtain ⟨regex, hregex, hends⟩ := parseAtoms_reads hdecimal
    (parseBoundedFormPattern_eq_some hparse).1 htail hbody le_rfl
  rw [fullyMatches_anchored hhead hpattern, hregex, Option.any_some, Regex.isFullMatch,
    List.any_eq_true]
  exact ⟨_, hends value.toList [] hspells, rfl⟩

/-- A browser refuses every ASCII text for a pattern that is not ASCII. -/
theorem browser_refuses (hdecimal : AsciiDecimal decimal)
    (hparse : parseBoundedFormPattern decimal pattern = some atoms)
    (hforeign : ∃ char ∈ pattern.toList, ¬IsAscii char)
    (hvalue : ∀ char ∈ value.toList, IsAscii char) :
    ScriptPattern.fullyMatches pattern value = false := by
  obtain ⟨head, tail, hhead, htail, hpattern⟩ := pattern_anchors pattern
  have hbody : ∃ char ∈ patternBody pattern, ¬IsAscii char := by
    obtain ⟨char, hchar, hother⟩ := hforeign
    have hanchors : ∀ anchor ∈ head ++ tail, IsAscii anchor := by
      rcases hhead with rfl | rfl <;> rcases htail with rfl | rfl <;>
        exact forall_mem_of_all (by decide)
    rw [hpattern, List.mem_append, List.mem_append] at hchar
    rcases hchar with hchar | hchar | hchar
    · exact absurd (hanchors char (List.mem_append_left _ hchar)) hother
    · exact ⟨char, hchar, hother⟩
    · exact absurd (hanchors char (List.mem_append_right _ hchar)) hother
  rw [fullyMatches_anchored hhead hpattern, Bool.eq_false_iff]
  intro hmatches
  obtain ⟨regex, hregex, hfull⟩ := (Option.any_eq_true _ _).mp hmatches
  obtain ⟨next, hnext, _⟩ := List.any_eq_true.mp hfull
  obtain ⟨char, hchar, hother⟩ := parseAtoms_needs hdecimal
    (parseBoundedFormPattern_eq_some hparse).1 htail hbody hregex hnext
  exact hother (hvalue char hchar)

/-- An atom reads a word of the first script. -/
def ReadsAscii (atom : PatternAtom Char) : Prop :=
  ∃ word, atom.Reads word ∧ ∀ character ∈ word, IsAscii character

/-- Every parsed pattern spells an ASCII word. -/
theorem parseBoundedFormPattern_ascii
    (hparse : parseBoundedFormPattern decimal pattern = some atoms) :
    ∃ word, Spells atoms word ∧ ∀ char ∈ word, IsAscii char := by
  have hholds : ∀ (pattern characters rest : List Char) (minimum maximum : ℕ)
      (after : List Char), patternCharacters pattern = some (characters, rest) →
      boundedQuantifier decimal rest = some (minimum, maximum, after) →
      ReadsAscii ⟨characters, minimum, maximum⟩ := by
    intro pattern characters rest minimum maximum after hcharacters hquantifier
    have hpiece := patternCharacters_ascii hcharacters
    obtain ⟨char, hchar⟩ := List.exists_mem_of_ne_nil _ hpiece.nonempty
    obtain ⟨hordered, _⟩ := boundedQuantifier_eq_some hquantifier
    refine ⟨List.replicate minimum char, ⟨by simp, by simpa using hordered, ?_⟩, ?_⟩
    · intro found hfound
      rwa [List.eq_of_mem_replicate hfound]
    · intro found hfound
      rw [List.eq_of_mem_replicate hfound]
      exact hpiece.members char hchar
  have hatoms := parseAtoms_forall hholds (parseBoundedFormPattern_eq_some hparse).1
  clear hparse
  induction atoms with
  | nil => exact ⟨[], .nil, by simp⟩
  | cons atom atoms ih =>
    obtain ⟨first, hfirst, hfirstAscii⟩ := hatoms atom (.head _)
    obtain ⟨later, hlater, hlaterAscii⟩ := ih fun found hfound => hatoms found (.tail _ hfound)
    exact ⟨first ++ later, .cons hfirst hlater,
      List.forall_mem_append.mpr ⟨hfirstAscii, hlaterAscii⟩⟩

theorem asciiDecimal_unicodeDecimal : AsciiDecimal unicodeDecimal := by
  have hcodes : ∀ code < 128, unicodeDecimal (Char.ofNat code) =
      if (Char.ofNat code).isDigit then some ((Char.ofNat code).toNat - '0'.toNat) else none := by
    decide +kernel
  intro char hascii
  have hread := hcodes char.toNat hascii
  rwa [Char.ofNat_toNat] at hread

/-- Every value that the matcher accepts matches the pattern in the browser if and only if the
pattern is refused, or is written in the first script.  The digits of a repetition are the only
characters of another script that are not refused; the browser reads them as text. -/
theorem accepted_in_browser_iff (pattern : String) :
    (∀ value, matchesBoundedFormPattern unicodeDecimal pattern value = true →
      ScriptPattern.fullyMatches pattern value = true) ↔
      parseBoundedFormPattern unicodeDecimal pattern = none ∨
        ∀ character ∈ pattern.toList, IsAscii character := by
  cases hparse : parseBoundedFormPattern unicodeDecimal pattern with
  | none => simp [matchesBoundedFormPattern, hparse]
  | some atoms =>
    constructor
    · intro hsound
      right
      by_contra hforeign
      push Not at hforeign
      obtain ⟨word, hword, hascii⟩ := parseBoundedFormPattern_ascii hparse
      rw [← String.toList_ofList (l := word)] at hword hascii
      have hmatches := hsound _ ((matchesBoundedFormPattern_iff hparse).mpr hword)
      rw [browser_refuses asciiDecimal_unicodeDecimal hparse hforeign hascii] at hmatches
      cases hmatches
    · rintro (hnone | hascii) value hmatches
      · cases hnone
      · exact browser_accepts asciiDecimal_unicodeDecimal hparse hascii
          ((matchesBoundedFormPattern_iff hparse).mp hmatches)

/-- A browser reads a repetition in digits of another script as text. -/
theorem foreign_repetition :
    matchesBoundedFormPattern unicodeDecimal "a{٣}" "aaa" = true ∧
      ScriptPattern.fullyMatches "a{٣}" "aaa" = false := by
  have hquantifier : boundedQuantifier unicodeDecimal "{٣}".toList = some (3, 3, []) := by
    decide +kernel
  have hatoms : parseAtoms unicodeDecimal 0 "a{٣}".toList = some [⟨['a'], 3, 3⟩] :=
    parseAtoms_repeatedLetter hquantifier (by decide)
  have hparse : parseBoundedFormPattern unicodeDecimal "a{٣}" = some [⟨['a'], 3, 3⟩] :=
    parseBoundedFormPattern_of_atoms (by decide) (by decide) hatoms (by decide)
  constructor
  · unfold matchesBoundedFormPattern
    rw [hparse]
    decide
  · decide +kernel

end JobApplyAgent.Forms
