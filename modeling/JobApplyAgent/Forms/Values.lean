import JobApplyAgent.Forms.Fields
import JobApplyAgent.Library.LinearPattern
import Mathlib.Algebra.Order.Ring.Unbundled.Rat

/-!
# Answer values

The values that answer a field, the finite subset of regular expressions that an
observed pattern may use, and the check of a value against its field.
-/

namespace JobApplyAgent.Forms

open Domain Library

/-- A double: a finite one is a rational. -/
inductive PyFloat where
  | finite (value : ℚ)
  | infinite (negative : Bool)
  | nan
  deriving DecidableEq

inductive AnswerValue where
  | text (value : String)
  | flag (value : Bool)
  | int (value : ℤ)
  | float (value : PyFloat)
  | texts (values : List String)
  deriving DecidableEq

/-- The double nearest to an integer, ties to even; none on overflow. -/
def intToDouble (value : ℤ) : Option ℚ :=
  let magnitude := value.natAbs
  if magnitude < Nat.pow 2 53 then
    some value
  else
    let unit := Nat.pow 2 (magnitude.log2 - 52)
    let quotient := magnitude / unit
    let remainder := magnitude % unit
    let rounded :=
      if 2 * remainder < unit ∨ (2 * remainder = unit ∧ quotient % 2 = 0) then quotient
      else quotient + 1
    if Nat.pow 2 1024 ≤ rounded * unit then none else some (value.sign * (rounded * unit : ℕ) : ℤ)

/-- `float(value)`, where it is a finite double. -/
def finiteDouble : AnswerValue → Option ℚ
  | .int value => intToDouble value
  | .float (.finite value) => some value
  | _ => none

/-! ### Patterns -/

def asciiLetters : List Char :=
  "abcdefghijklmnopqrstuvwxyzABCDEFGHIJKLMNOPQRSTUVWXYZ".toList

def asciiDigits : List Char :=
  "0123456789".toList

def asciiWord : List Char :=
  asciiLetters ++ asciiDigits ++ ['_']

def asciiSpace : List Char :=
  [' ', '\t', '\r', '\n', '\x0c', '\x0b']

def safePatternLiteralChars : List Char :=
  asciiLetters ++ asciiDigits ++ " _:/@.,%-".toList

def safePatternEscapedLiterals : List Char :=
  ['\\', '.', '+', '-', '*', '?', '{', '}', '[', ']', '(', ')', '|', '^', '$']

def maxSafePatternChars : ℕ := 128

def maxSafePatternRepeat : ℕ := 64

def maxSafePatternStates : ℕ := 256

/-- One supported escape, given what follows the backslash. -/
def escapedPatternCharacters : List Char → Option (List Char × List Char)
  | [] => none
  | 'd' :: rest => some (asciiDigits, rest)
  | 'w' :: rest => some (asciiWord, rest)
  | 's' :: rest => some (asciiSpace, rest)
  | escaped :: rest =>
    if safePatternEscapedLiterals.contains escaped then some ([escaped], rest) else none

/-- One literal or supported escape inside a character class. -/
def classUnit : List Char → Option (List Char × Option Char × List Char)
  | [] => none
  | ']' :: _ => none
  | '\\' :: rest =>
    (escapedPatternCharacters rest).map fun (characters, next) =>
      (characters, if characters.length = 1 then characters.head? else none, next)
  | character :: rest =>
    if safePatternLiteralChars.contains character && character != '[' then
      some ([character], some character, rest)
    else
      none

theorem escapedPatternCharacters_length
    (hescape : escapedPatternCharacters pattern = some (characters, rest)) :
    rest.length < pattern.length := by
  unfold escapedPatternCharacters at hescape
  split at hescape
  · cases hescape
  · cases hescape
    simp
  · cases hescape
    simp
  · cases hescape
    simp
  · split at hescape
    · cases hescape
      simp
    · cases hescape

theorem classUnit_length (hunit : classUnit pattern = some (characters, literal, rest)) :
    rest.length < pattern.length := by
  unfold classUnit at hunit
  split at hunit
  · cases hunit
  · cases hunit
  · obtain ⟨⟨found, next⟩, hescape, heq⟩ := Option.map_eq_some_iff.mp hunit
    cases heq
    have hshorter := escapedPatternCharacters_length hescape
    simp only [List.length_cons]
    omega
  · split at hunit
    · cases hunit
      simp
    · cases hunit

def characterRange (first last : Char) : List Char :=
  (List.range' first.toNat (last.toNat + 1 - first.toNat)).map Char.ofNat

/-- One unit of a character class, or a range of two literals. -/
def classItem (pattern : List Char) : Option (List Char × List Char) :=
  match classUnit pattern with
  | none => none
  | some (firstChars, firstLiteral, rest) =>
    if rest.head? = some '-' ∧ rest[1]? ≠ none ∧ rest[1]? ≠ some ']' then
      match classUnit rest.tail with
      | none => none
      | some (_, secondLiteral, beyond) =>
        match firstLiteral, secondLiteral with
        | some first, some second =>
          if first.toNat ≤ second.toNat then some (characterRange first second, beyond)
          else none
        | _, _ => none
    else
      some (firstChars, rest)

theorem classItem_length (hitem : classItem pattern = some (characters, rest)) :
    rest.length < pattern.length := by
  unfold classItem at hitem
  split at hitem
  · cases hitem
  next hfirst =>
    have hshorter := classUnit_length hfirst
    split at hitem
    · split at hitem
      · cases hitem
      next hsecond =>
        have hbeyond := classUnit_length hsecond
        split at hitem
        · split at hitem
          · cases hitem
            rw [List.length_tail] at hbeyond
            omega
          · cases hitem
        · cases hitem
    · cases hitem
      exact hshorter

/-- A positive character class, given what follows its opening bracket. -/
def characterClassItems (characters pattern : List Char) : Option (List Char × List Char) :=
  if pattern.head? = some ']' then
    if characters.isEmpty then none else some (characters, pattern.tail)
  else
    match _hitem : classItem pattern with
    | none => none
    | some (added, rest) => characterClassItems (characters ++ added) rest
  termination_by pattern.length
  decreasing_by exact classItem_length _hitem

def characterClass (pattern : List Char) : Option (List Char × List Char) :=
  if pattern.head? = some '^' then none else characterClassItems [] pattern

theorem characterClassItems_length
    (hclass : characterClassItems characters pattern = some (found, rest)) :
    rest.length < pattern.length := by
  fun_induction characterClassItems characters pattern with
  | case1 => cases hclass
  | case2 characters pattern hclosing _ =>
    cases hclass
    obtain ⟨tail, rfl⟩ : ∃ tail, pattern = ']' :: tail := by
      cases pattern with
      | nil => cases hclosing
      | cons head tail => exact ⟨tail, by rw [Option.some.inj hclosing]⟩
    simp
  | case3 => cases hclass
  | case4 characters pattern _ added after hitem ih =>
    exact (ih hclass).trans (classItem_length hitem)

/-- The value of a text of one or two decimal digits. -/
def shortDecimal (decimal : Char → Option ℕ) (text : List Char) : Option ℕ :=
  if text.length = 1 ∨ text.length = 2 then
    (text.mapM decimal).map fun digits => digits.foldl (fun value digit => 10 * value + digit) 0
  else
    none

/-- No quantifier, `?`, `{n}`, or finite `{n,m}`. -/
def boundedQuantifier (decimal : Char → Option ℕ) (pattern : List Char) :
    Option (ℕ × ℕ × List Char) :=
  match pattern with
  | [] => some (1, 1, [])
  | '?' :: rest => some (0, 1, rest)
  | '{' :: rest =>
    if rest.contains '}' then
      let body := rest.takeWhile (· != '}')
      let after := (rest.dropWhile (· != '}')).tail
      let bounds := match body.splitOn ',' with
        | [single] => (shortDecimal decimal single).map fun bound => (bound, bound)
        | [low, high] =>
          (shortDecimal decimal low).bind fun minimum =>
            (shortDecimal decimal high).map fun maximum => (minimum, maximum)
        | _ => none
      bounds.bind fun (minimum, maximum) =>
        if maximum < 1 ∨ maximum < minimum ∨ maxSafePatternRepeat < maximum then none
        else some (minimum, maximum, after)
    else
      none
  | character :: rest =>
    if character = '*' ∨ character = '+' then none else some (1, 1, character :: rest)

def patternCharacters : List Char → Option (List Char × List Char)
  | [] => none
  | '[' :: rest => characterClass rest
  | '\\' :: rest => escapedPatternCharacters rest
  | character :: rest =>
    if safePatternLiteralChars.contains character then some ([character], rest) else none

theorem boundedQuantifier_length
    (hquantifier : boundedQuantifier decimal pattern = some (minimum, maximum, rest)) :
    rest.length ≤ pattern.length := by
  unfold boundedQuantifier at hquantifier
  split at hquantifier
  · cases hquantifier
    exact le_rfl
  · cases hquantifier
    simp
  next _ tail =>
    split at hquantifier
    · obtain ⟨⟨low, high⟩, _, hbounded⟩ := Option.bind_eq_some_iff.mp hquantifier
      simp only [Option.ite_none_left_eq_some, Option.some.injEq, Prod.mk.injEq] at hbounded
      obtain ⟨_, _, _, rfl⟩ := hbounded
      have hdropped : (tail.dropWhile (· != '}')).length ≤ tail.length :=
        (List.dropWhile_sublist _).length_le
      simp only [List.length_tail, List.length_cons]
      omega
    · cases hquantifier
  · split at hquantifier
    · cases hquantifier
    cases hquantifier
    exact le_rfl

theorem patternCharacters_length
    (hcharacters : patternCharacters pattern = some (characters, rest)) :
    rest.length < pattern.length := by
  unfold patternCharacters at hcharacters
  split at hcharacters
  · cases hcharacters
  · unfold characterClass at hcharacters
    split at hcharacters
    · cases hcharacters
    have hshorter := characterClassItems_length hcharacters
    simp only [List.length_cons]
    omega
  · have hshorter := escapedPatternCharacters_length hcharacters
    simp only [List.length_cons]
    omega
  · split at hcharacters
    · cases hcharacters
      simp
    · cases hcharacters

/-- The atoms of a pattern whose anchors are removed. -/
def parseAtoms (decimal : Char → Option ℕ) (states : ℕ) (pattern : List Char) :
    Option (List (PatternAtom Char)) :=
  if pattern.isEmpty then
    some []
  else
    match _hcharacters : patternCharacters pattern with
    | none => none
    | some (characters, rest) =>
      match _hquantifier : boundedQuantifier decimal rest with
      | none => none
      | some (minimum, maximum, after) =>
        if maxSafePatternStates < states + maximum then
          none
        else
          (parseAtoms decimal (states + maximum) after).map
            (⟨characters, minimum, maximum⟩ :: ·)
  termination_by pattern.length
  decreasing_by
    exact (boundedQuantifier_length _hquantifier).trans_lt (patternCharacters_length _hcharacters)

/-- Compile an untrusted pattern into a finite matcher. -/
def parseBoundedFormPattern (decimal : Char → Option ℕ) (pattern : String) :
    Option (List (PatternAtom Char)) :=
  let characters := pattern.toList
  if characters.isEmpty || decide (maxSafePatternChars < characters.length) then
    none
  else
    let slashes := (characters.dropLast.reverse.takeWhile (· == '\\')).length
    let anchored := characters.getLast? == some '$' && slashes % 2 == 0
    let body := if anchored then characters.dropLast else characters
    let start := if characters.head? == some '^' then body.tail else body
    (parseAtoms decimal 0 start).bind fun atoms => if atoms.isEmpty then none else some atoms

def matchesBoundedFormPattern (decimal : Char → Option ℕ) (pattern value : String) : Bool :=
  (parseBoundedFormPattern decimal pattern).any fun atoms => matchesAtoms atoms value.toList

theorem matchesBoundedFormPattern_sound
    (hmatches : matchesBoundedFormPattern decimal pattern value = true) :
    ∃ atoms, parseBoundedFormPattern decimal pattern = some atoms ∧
      Spells atoms value.toList := by
  obtain ⟨atoms, hparse, hatoms⟩ := (Option.any_eq_true _ _).mp hmatches
  exact ⟨atoms, hparse, spells_of_matchesAtoms hatoms⟩

/-! ### Values of a field -/

def maxAnswerTextLength : ℕ := 2000

def daysInMonth (year month : ℕ) : ℕ :=
  if month = 2 then
    if year % 4 = 0 ∧ (year % 100 ≠ 0 ∨ year % 400 = 0) then 29 else 28
  else if month = 4 ∨ month = 6 ∨ month = 9 ∨ month = 11 then
    30
  else
    31

def digitsValue (digits : List Char) : ℕ :=
  digits.foldl (fun value digit => 10 * value + (digit.toNat - '0'.toNat)) 0

/-- A calendar date written `YYYY-MM-DD`. -/
def isIsoDate (value : String) : Bool :=
  match value.toList.splitOn '-' with
  | [year, month, day] =>
    year.length == 4 && month.length == 2 && day.length == 2
      && (year ++ month ++ day).all asciiDigits.contains
      && decide (1 ≤ digitsValue year)
      && decide (1 ≤ digitsValue month ∧ digitsValue month ≤ 12)
      && decide (1 ≤ digitsValue day ∧
        digitsValue day ≤ daysInMonth (digitsValue year) (digitsValue month))
  | _ => false

def emailLocalChars : List Char :=
  asciiLetters ++ asciiDigits ++ ['.', '!', '#', '$', '%', '&', '\'', '*', '+', '/', '=', '?',
    '^', '_', '\x60', '\x7b', '|', '\x7d', '~', '-']

def isDomainLabel (label : List Char) : Bool :=
  let alphanumeric := asciiLetters ++ asciiDigits
  label.head?.any alphanumeric.contains && label.getLast?.any alphanumeric.contains
    && label.all (fun character => alphanumeric.contains character || character == '-')
    && decide (label.length ≤ 63)

/-- `_EMAIL_VALUE_RE`. -/
def isEmail (value : String) : Bool :=
  match value.toList.splitOn '@' with
  | [localPart, domain] =>
    let labels := domain.splitOn '.'
    !localPart.isEmpty && localPart.all emailLocalChars.contains
      && decide (2 ≤ labels.length) && labels.all isDomainLabel
  | _ => false

/-- `_PHONE_VALUE_RE` with the checks on signs, brackets and digits. -/
def isPhone (value : String) : Bool :=
  let characters := value.toList
  let body := if characters.head? = some '+' then characters.tail else characters
  let middle := body.tail.dropLast
  decide (2 ≤ body.length)
    && body.head?.any asciiDigits.contains && body.getLast?.any asciiDigits.contains
    && middle.all (asciiDigits ++ [' ', '(', ')', '.', '-']).contains
    && decide (5 ≤ middle.length ∧ middle.length ≤ 30)
    && decide (characters.count '+' ≤ 1)
    && decide (characters.count '(' = characters.count ')')
    && decide (7 ≤ characters.countP asciiDigits.contains
      ∧ characters.countP asciiDigits.contains ≤ 15)

/-- An absolute web address without credentials. -/
def isWebUrl (policy : TextPolicy) (value : String) : Bool :=
  if value.toList.any fun character => isSpace character || decide (character.toNat < 32) then
    false
  else
    (policy.urlsplit value).any fun parts =>
      ["http", "https"].contains parts.scheme && parts.hostname.any (· != "")
        && parts.username.isNone && parts.password.isNone

/-- Validate browser-typed strings at the domain boundary. -/
def validSemanticTextValue (policy : TextPolicy) (fieldType : FieldType) (value : String) : Bool :=
  match fieldType with
  | .date => isIsoDate value
  | .email => isEmail value
  | .phone => isPhone value
  | .url => isWebUrl policy value
  | _ => true

def booleanFieldTypes : List FieldType := [.checkbox, .consent, .attestation]

def textFieldTypes : List FieldType := [.text, .textarea, .date, .email, .phone, .url, .file]

/-- Reject cross-type values before any adapter can interpret them. -/
def validateResolvedFieldValue (policy : TextPolicy) (field : FormFieldV1) (value : AnswerValue) :
    Except String Unit :=
  if field.fieldType ∈ booleanFieldTypes then
    match value with
    | .flag _ => .ok ()
    | _ => .error (field.fieldType.value ++ " answers must be boolean")
  else if field.fieldType = .number then
    match finiteDouble value with
    | none => .error "number answers must be finite numeric values"
    | some number =>
      if field.constraints.minValue.any fun bound => decide (number < bound) then
        .error "number answer is below the observed minimum"
      else if field.constraints.maxValue.any fun bound => decide (bound < number) then
        .error "number answer exceeds the observed maximum"
      else
        .ok ()
  else if field.fieldType ∈ textFieldTypes then
    match value with
    | .text text =>
      if maxAnswerTextLength < text.length then
        .error "string answer exceeds the bounded domain maximum"
      else if !validSemanticTextValue policy field.fieldType text then
        .error (field.fieldType.value ++ " answer is not a valid canonical value")
      else if field.constraints.minLength.any fun bound => decide (text.length < bound) then
        .error "string answer is shorter than the observed minimum"
      else if field.constraints.maxLength.any fun bound => decide (bound < text.length) then
        .error "string answer exceeds the observed maximum"
      else if field.constraints.pattern.any fun pattern =>
          !matchesBoundedFormPattern policy.decimal pattern text then
        .error "string answer does not match a safe observed pattern"
      else
        .ok ()
    | _ => .error (field.fieldType.value ++ " answers must be strings")
  else if field.fieldType = .select ∨ field.fieldType = .radio then
    match value with
    | .text _ => .ok ()
    | _ => .error (field.fieldType.value ++ " answers must be strings")
  else if field.fieldType = .multiSelect then
    match value with
    | .texts _ => .ok ()
    | _ => .error "multi-select answers must be a tuple of strings"
  else
    .error "unknown controls cannot contain resolved answers"

/-- The value has the type of its field, and the constraints of that type hold. -/
inductive FitsField (policy : TextPolicy) (field : FormFieldV1) : AnswerValue → Prop where
  | flag {value : Bool} (htype : field.fieldType ∈ booleanFieldTypes) :
      FitsField policy field (.flag value)
  | number {value : AnswerValue} {number : ℚ} (htype : field.fieldType = .number)
      (hdouble : finiteDouble value = some number)
      (hminimum : ∀ bound, field.constraints.minValue = some bound → bound ≤ number)
      (hmaximum : ∀ bound, field.constraints.maxValue = some bound → number ≤ bound) :
      FitsField policy field value
  | text {value : String} (htype : field.fieldType ∈ textFieldTypes)
      (hvalid : validSemanticTextValue policy field.fieldType value = true)
      (hminimum : ∀ bound, field.constraints.minLength = some bound → bound ≤ value.length)
      (hmaximum : ∀ bound, field.constraints.maxLength = some bound → value.length ≤ bound)
      (hpattern : ∀ pattern, field.constraints.pattern = some pattern →
        ∃ atoms, parseBoundedFormPattern policy.decimal pattern = some atoms ∧
          Spells atoms value.toList) :
      FitsField policy field (.text value)
  | choice {value : String} (htype : field.fieldType = .select ∨ field.fieldType = .radio) :
      FitsField policy field (.text value)
  | choices {values : List String} (htype : field.fieldType = .multiSelect) :
      FitsField policy field (.texts values)

theorem validateResolvedFieldValue_eq_ok
    (hvalid : validateResolvedFieldValue policy field value = .ok ()) :
    FitsField policy field value := by
  unfold validateResolvedFieldValue at hvalid
  split at hvalid
  next htype =>
    split at hvalid
    · exact .flag htype
    · cases hvalid
  · split at hvalid
    next htype =>
      split at hvalid
      · cases hvalid
      next number hdouble =>
        split at hvalid
        · cases hvalid
        next hminimum =>
          split at hvalid
          · cases hvalid
          next hmaximum =>
            refine .number htype hdouble ?_ ?_
            · intro bound hbound
              simpa [hbound] using hminimum
            · intro bound hbound
              simpa [hbound] using hmaximum
    · split at hvalid
      next htype =>
        split at hvalid
        next text =>
          split at hvalid
          · cases hvalid
          split at hvalid
          · cases hvalid
          next hsemantic =>
            split at hvalid
            · cases hvalid
            next hminimum =>
              split at hvalid
              · cases hvalid
              next hmaximum =>
                split at hvalid
                · cases hvalid
                next hpattern =>
                  refine .text htype (by simpa using hsemantic) ?_ ?_ ?_
                  · intro bound hbound
                    simpa [hbound] using hminimum
                  · intro bound hbound
                    simpa [hbound] using hmaximum
                  · intro pattern hfound
                    apply matchesBoundedFormPattern_sound
                    simpa [hfound] using hpattern
        · cases hvalid
      · split at hvalid
        next htype =>
          split at hvalid
          · exact .choice htype
          · cases hvalid
        · split at hvalid
          next htype =>
            split at hvalid
            · exact .choices htype
            · cases hvalid
          · cases hvalid

end JobApplyAgent.Forms
