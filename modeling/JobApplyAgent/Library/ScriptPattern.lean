import JobApplyAgent.Library.Regex

/-!
# Script patterns

The reading of a pattern as a regular expression of the scripting language of browsers,
without flags.  Groups, alternatives, back references and the escapes that name a character
by a number or a control letter are not read.  A brace that opens no quantifier is a literal.
-/

namespace JobApplyAgent.Library.ScriptPattern

open Library

/-! ## Characters -/

def isLineTerminator (character : Char) : Bool :=
  decide (character.toNat ∈ [0x0A, 0x0D, 0x2028, 0x2029])

/-- `\s`. -/
def isSpace (character : Char) : Bool :=
  decide (character.toNat ∈ [0x09, 0x0A, 0x0B, 0x0C, 0x0D, 0x20, 0xA0, 0x1680, 0x2028, 0x2029,
    0x202F, 0x205F, 0x3000, 0xFEFF])
    || decide (0x2000 ≤ character.toNat ∧ character.toNat ≤ 0x200A)

/-- `\w`. -/
def isWord (character : Char) : Bool :=
  character.isAlphanum || character == '_'

/-- The set of a class escape, given the character behind the backslash. -/
def classEscape : Char → Option (Char → Bool)
  | 'd' => some Char.isDigit
  | 'D' => some fun character => !character.isDigit
  | 's' => some isSpace
  | 'S' => some fun character => !isSpace character
  | 'w' => some isWord
  | 'W' => some fun character => !isWord character
  | _ => none

def characterEscape : Char → Option Char
  | 't' => some '\t'
  | 'n' => some '\n'
  | 'v' => some '\x0b'
  | 'f' => some '\x0c'
  | 'r' => some '\r'
  | escaped =>
    if escaped.isDigit ∨ escaped ∈ ['b', 'B', 'c', 'k', 'u', 'x'] then none else some escaped

/-- A member of a class: the set it stands for, and its character if it is a single one. -/
structure ClassAtom where
  single : Option Char
  accepts : Char → Bool

def ClassAtom.literal (character : Char) : ClassAtom where
  single := some character
  accepts := (· == character)

def ClassAtom.set (accepts : Char → Bool) : ClassAtom where
  single := none
  accepts

def classAtom : List Char → Option (ClassAtom × List Char)
  | [] => none
  | '\\' :: 'b' :: rest => some (.literal '\x08', rest)
  | '\\' :: escaped :: rest =>
    match classEscape escaped with
    | some accepts => some (.set accepts, rest)
    | none => (characterEscape escaped).map fun character => (.literal character, rest)
  | ['\\'] => none
  | character :: rest => if character = ']' then none else some (.literal character, rest)

/-- The characters from one to another. -/
def between (first last character : Char) : Bool :=
  decide (first.toNat ≤ character.toNat ∧ character.toNat ≤ last.toNat)

/-- A range of two members, or their union with the hyphen if one of them is a set. -/
def classRange (first last : ClassAtom) : Option (Char → Bool) :=
  match first.single, last.single with
  | some low, some high => if high.toNat < low.toNat then none else some (between low high)
  | _, _ => some fun character =>
    first.accepts character || character == '-' || last.accepts character

def classMembers : ℕ → (Char → Bool) → List Char → Option ((Char → Bool) × List Char)
  | 0, _, _ => none
  | fuel + 1, accepts, pattern =>
    if pattern.head? = some ']' then
      some (accepts, pattern.tail)
    else
      match classAtom pattern with
      | none => none
      | some (first, rest) =>
        if rest.head? = some '-' ∧ rest[1]? ≠ some ']' then
          match classAtom rest.tail with
          | none => none
          | some (last, beyond) =>
            match classRange first last with
            | none => none
            | some range =>
              classMembers fuel (fun character => accepts character || range character)
                beyond
        else
          classMembers fuel (fun character => accepts character || first.accepts character)
            rest

/-! ## Terms -/

/-- An assertion at the beginning of a pattern. -/
def assertion (table : CharacterTable) : List Char → Option ((Place → Bool) × List Char)
  | '^' :: rest => some (Regex.atStart, rest)
  | '$' :: rest => some (fun place => place.after.isEmpty, rest)
  | '\\' :: 'b' :: rest => some (Regex.wordBoundary table, rest)
  | '\\' :: 'B' :: rest => some (fun place => !Regex.wordBoundary table place, rest)
  | _ => none

def decimalValue (digits : List Char) : ℕ :=
  digits.foldl (fun value digit => 10 * value + (digit.toNat - '0'.toNat)) 0

/-- The bounds of a repetition; `none` as the upper one is unbounded. -/
abbrev Bounds := ℕ × Option ℕ

/-- A repetition in braces, given what follows the opening brace. -/
def bracedBounds (pattern : List Char) : Option (Bounds × List Char) :=
  let low := pattern.takeWhile Char.isDigit
  if low.isEmpty then none
  else
    match pattern.dropWhile Char.isDigit with
    | '}' :: rest => some ((decimalValue low, some (decimalValue low)), rest)
    | ',' :: rest =>
      let high := rest.takeWhile Char.isDigit
      match rest.dropWhile Char.isDigit with
      | '}' :: after =>
        some ((decimalValue low, if high.isEmpty then none else some (decimalValue high)),
          after)
      | _ => none
    | _ => none

/-- The quantifier at the beginning of a pattern, without its laziness. -/
def quantifier : List Char → Option (Bounds × List Char)
  | '*' :: rest => some ((0, none), rest)
  | '+' :: rest => some ((1, none), rest)
  | '?' :: rest => some ((0, some 1), rest)
  | '{' :: rest => bracedBounds rest
  | _ => none

/-- A lazy quantifier repeats the same words. -/
def dropLazy : List Char → List Char
  | '?' :: rest => rest
  | pattern => pattern

def syntaxCharacters : List Char :=
  ['^', '$', '\\', '.', '*', '+', '?', '(', ')', '[', '|']

/-- One character, class or escape, given the rest of the pattern. -/
def atom : List Char → Option ((Char → Bool) × List Char)
  | [] => none
  | '.' :: rest => some (fun character => !isLineTerminator character, rest)
  | '[' :: '^' :: rest =>
    (classMembers rest.length (fun _ => false) rest).map fun (accepts, after) =>
      (fun character => !accepts character, after)
  | '[' :: rest => classMembers rest.length (fun _ => false) rest
  | '\\' :: escaped :: rest =>
    match classEscape escaped with
    | some accepts => some (accepts, rest)
    | none => (characterEscape escaped).map fun character => ((· == character), rest)
  | character :: rest =>
    if character ∈ syntaxCharacters ∨ (character = '{' ∧ (bracedBounds rest).isSome) then none
    else some ((· == character), rest)

/-- One atom with its quantifier. -/
def term (pattern : List Char) : Option (Regex × List Char) :=
  match atom pattern with
  | none => none
  | some (accepts, rest) =>
    match quantifier rest with
    | none => some (.char accepts, rest)
    | some ((low, high), after) =>
      if high.any (· < low) then none
      else some (.repeated (.char accepts) low high, dropLazy after)

/-- The terms of a pattern, one after the other. -/
def terms (table : CharacterTable) : ℕ → List Char → Option Regex
  | _, [] => some .empty
  | 0, _ :: _ => none
  | fuel + 1, pattern =>
    match assertion table pattern with
    | some (holds, rest) => (terms table fuel rest).map (.seq (.assert holds))
    | none =>
      match term pattern with
      | none => none
      | some (regex, rest) => (terms table fuel rest).map (.seq regex)

/-- What `\b` has to know about characters. -/
def table : CharacterTable where
  isWord
  isDigit := Char.isDigit
  isBlank := isSpace
  sameLetter := (· == ·)
  casefold := fun character => [character]

/-- A pattern as a regular expression. -/
def read (pattern : String) : Option Regex :=
  terms table pattern.toList.length pattern.toList

/-- The whole value matches the pattern. -/
def fullyMatches (pattern value : String) : Bool :=
  (read pattern).any fun regex => regex.isFullMatch value.toList

example : fullyMatches "^[a-c\\d-]{2,3}$" "a-7" = true := by decide

example : fullyMatches "a{x}" "a{x}" = true := by decide

end JobApplyAgent.Library.ScriptPattern
