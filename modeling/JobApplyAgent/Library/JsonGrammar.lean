import JobApplyAgent.Library.QueryString

/-!
# JSON texts

The texts that stand for a value, with any blanks between the tokens and any spelling of a
string.  A string is the units that it spells, so that halves of a pair may stand alone.
-/

namespace JobApplyAgent.Library

inductive JsonValue where
  | null
  | bool (value : Bool)
  | number (spelling : List Char)
  | string (units : List ℕ)
  | array (items : List JsonValue)
  | object (members : List (List ℕ × JsonValue))

namespace JsonValue

/-! ## Tokens -/

def IsBlank (text : List Char) : Prop :=
  ∀ character ∈ text, character ∈ [' ', '\t', '\n', '\r']

def AreDigits (text : List Char) : Prop :=
  text ≠ [] ∧ ∀ character ∈ text, character.isDigit = true

/-- A number without a sign, a fraction or an exponent. -/
def IsWhole (text : List Char) : Prop :=
  AreDigits text ∧ (text.head? = some '0' → text = ['0'])

/-- A sign, a whole number, a fraction and an exponent. -/
def IsNumber (text : List Char) : Prop :=
  ∃ sign whole fraction exponent, text = sign ++ whole ++ fraction ++ exponent ∧
    sign ∈ [[], ['-']] ∧ IsWhole whole ∧
    (fraction = [] ∨ ∃ digits, fraction = '.' :: digits ∧ AreDigits digits) ∧
    (exponent = [] ∨ ∃ mark sign digits, exponent = mark :: sign ++ digits ∧
      mark ∈ ['e', 'E'] ∧ sign ∈ [[], ['+'], ['-']] ∧ AreDigits digits)

/-- What stands for one unit of a string: a character, a short escape or an escape by its code. -/
inductive SpellsUnit : ℕ → List Char → Prop where
  | plain {character : Char} (hquote : character ≠ '"') (hslash : character ≠ '\\')
      (hcontrol : ' ' ≤ character) : SpellsUnit character.toNat [character]
  | short {mark character : Char} (hmark : (mark, character) ∈ [('"', '"'), ('\\', '\\'),
      ('/', '/'), ('b', '\x08'), ('f', '\x0c'), ('n', '\n'), ('r', '\r'), ('t', '\t')]) :
      SpellsUnit character.toNat ['\\', mark]
  | code {digits : List Char} {values : List ℕ} (hlength : digits.length = 4)
      (hdigits : digits.map QueryString.hexValue = values.map some) :
      SpellsUnit (values.foldl (fun code value => 16 * code + value) 0) ('\\' :: 'u' :: digits)

inductive SpellsUnits : List ℕ → List Char → Prop where
  | nil : SpellsUnits [] []
  | cons {unit : ℕ} {units : List ℕ} {text rest : List Char} (hunit : SpellsUnit unit text)
      (hunits : SpellsUnits units rest) : SpellsUnits (unit :: units) (text ++ rest)

def SpellsString (units : List ℕ) (text : List Char) : Prop :=
  ∃ body, SpellsUnits units body ∧ text = '"' :: body ++ ['"']

/-! ## Values -/

/-- A text with blanks around it. -/
def Padded (spells : List Char → Prop) (text : List Char) : Prop :=
  ∃ before body behind, text = before ++ body ++ behind ∧
    IsBlank before ∧ spells body ∧ IsBlank behind

mutual

def Spells : JsonValue → List Char → Prop
  | null, text => text = "null".toList
  | bool value, text => text = (if value then "true" else "false").toList
  | number spelling, text => text = spelling ∧ IsNumber spelling
  | string units, text => SpellsString units text
  | array items, text => ∃ inside, text = '[' :: inside ++ [']'] ∧ SpellsItems items inside
  | object members, text => ∃ inside, text = '{' :: inside ++ ['}'] ∧ SpellsMembers members inside

def SpellsItems : List JsonValue → List Char → Prop
  | [], text => IsBlank text
  | [item], text => Padded (Spells item) text
  | item :: next :: items, text => ∃ first rest, text = first ++ ',' :: rest ∧
      Padded (Spells item) first ∧ SpellsItems (next :: items) rest

def SpellsMembers : List (List ℕ × JsonValue) → List Char → Prop
  | [], text => IsBlank text
  | [(name, value)], text => ∃ key rest, text = key ++ ':' :: rest ∧
      Padded (SpellsString name) key ∧ Padded (Spells value) rest
  | (name, value) :: next :: members, text => ∃ key first rest,
      text = key ++ ':' :: first ++ ',' :: rest ∧ Padded (SpellsString name) key ∧
      Padded (Spells value) first ∧ SpellsMembers (next :: members) rest

end

mutual

/-- How many arrays and objects lie within each other. -/
def depth : JsonValue → ℕ
  | array items => depthOfItems items + 1
  | object members => depthOfMembers members + 1
  | _ => 0

def depthOfItems : List JsonValue → ℕ
  | [] => 0
  | item :: items => max (depth item) (depthOfItems items)

def depthOfMembers : List (List ℕ × JsonValue) → ℕ
  | [] => 0
  | (_, value) :: members => max (depth value) (depthOfMembers members)

end

theorem numberCharacter (hnumber : IsNumber text) :
    ∀ char ∈ text, char.isDigit = true ∨ char ∈ ['-', '+', '.', 'e', 'E'] := by
  obtain ⟨sign, whole, fraction, exponent, rfl, hsign, hwhole, hfraction, hexponent⟩ := hnumber
  intro char hmem
  simp only [List.mem_append] at hmem
  rcases hmem with ((hmem | hmem) | hmem) | hmem
  · simp only [List.mem_cons, List.not_mem_nil, or_false] at hsign
    rcases hsign with rfl | rfl
    · cases hmem
    · exact .inr (by simp_all)
  · exact .inl (hwhole.1.2 char hmem)
  · rcases hfraction with rfl | ⟨digits, rfl, hdigits⟩
    · cases hmem
    · rcases List.mem_cons.mp hmem with rfl | hmem
      · simp
      · exact .inl (hdigits.2 char hmem)
  · rcases hexponent with rfl | ⟨mark, sign, digits, rfl, hmark, hsign, hdigits⟩
    · cases hmem
    · simp only [List.cons_append, List.mem_cons, List.mem_append] at hmem
      rcases hmem with rfl | hmem | hmem
      · exact .inr (by simp_all)
      · simp only [List.mem_cons, List.not_mem_nil, or_false] at hsign
        rcases hsign with rfl | rfl | rfl <;> simp_all
      · exact .inl (hdigits.2 char hmem)

end JsonValue

end JobApplyAgent.Library
