import JobApplyAgent.Library.SelfDelimiting

/-!
# Compact JSON text

The text of strings and arrays as a compact JSON writer spells them, without blanks, with no
escape that the syntax does not ask for or with everything but ASCII escaped.  What is written
can be read off again: equal texts are the texts of equal values.
-/

namespace JobApplyAgent.Library

namespace JsonText

def hexDigits : List Char :=
  "0123456789abcdef".toList

/-- The two last digits of the escape of a control character. -/
def hexPair (code : ℕ) : List Char :=
  [hexDigits.getD (code / 16) '0', hexDigits.getD (code % 16) '0']

/-- A character inside a quoted string. -/
def escaped (character : Char) : List Char :=
  if character = '"' then ['\\', '"']
  else if character = '\\' then ['\\', '\\']
  else if character = '\n' then ['\\', 'n']
  else if character = '\r' then ['\\', 'r']
  else if character = '\t' then ['\\', 't']
  else if character = '\x0c' then ['\\', 'f']
  else if character = '\x08' then ['\\', 'b']
  else if character.toNat < 32 then ['\\', 'u', '0', '0'] ++ hexPair character.toNat
  else [character]

def quoted (text : List Char) : List Char :=
  '"' :: text.flatMap escaped ++ ['"']

/-- `\uXXXX`. -/
def unicodeEscape (unit : ℕ) : List Char :=
  '\\' :: 'u' :: (hexPair (unit / 256) ++ hexPair (unit % 256))

/-- A character inside a quoted string of ASCII; one beyond the first plane as two units. -/
def asciiEscaped (character : Char) : List Char :=
  if character.toNat < 127 then escaped character
  else if character.toNat < 0x10000 then unicodeEscape character.toNat
  else unicodeEscape (0xD800 + (character.toNat - 0x10000) / 1024)
    ++ unicodeEscape (0xDC00 + (character.toNat - 0x10000) % 1024)

def asciiQuoted (text : List Char) : List Char :=
  '"' :: text.flatMap asciiEscaped ++ ['"']

/-- The rest of an array after its first item. -/
def closing : List (List Char) → List Char
  | [] => [']']
  | item :: items => ',' :: item ++ closing items

/-- An array of items that are written already. -/
def array : List (List Char) → List Char
  | [] => ['[', ']']
  | item :: items => '[' :: item ++ closing items

/-! ## Reading back -/

/-- The character whose escape begins with these two. -/
def shortEscape : Char → Option Char
  | '"' => some '"'
  | '\\' => some '\\'
  | 'n' => some '\n'
  | 'r' => some '\r'
  | 't' => some '\t'
  | 'f' => some '\x0c'
  | 'b' => some '\x08'
  | _ => none

def pairCode (high low : Char) : ℕ :=
  16 * hexDigits.idxOf high + hexDigits.idxOf low

/-- The unit of an escape, and what comes after it. -/
def readUnit : List Char → Option (ℕ × List Char)
  | '\\' :: 'u' :: first :: second :: third :: fourth :: rest =>
    some (256 * pairCode first second + pairCode third fourth, rest)
  | _ => none

/-- A character that is not written as a unit. -/
def readPlain : List Char → Option (Char × List Char)
  | '\\' :: letter :: rest => (shortEscape letter).map fun character => (character, rest)
  | character :: rest => if character = '"' then none else some (character, rest)
  | [] => none

/-- The first character of a quoted text, and what comes after its spelling. -/
def unescape (text : List Char) : Option (Char × List Char) :=
  match readUnit text with
  | some (high, rest) =>
    if 0xD800 ≤ high ∧ high < 0xDC00 then
      (readUnit rest).map fun (low, behind) =>
        (Char.ofNat (0x10000 + (high - 0xD800) * 1024 + (low - 0xDC00)), behind)
    else some (Char.ofNat high, rest)
  | none => readPlain text

theorem pairCode_hexPair (hcode : code < 256) :
    pairCode (hexDigits.getD (code / 16) '0') (hexDigits.getD (code % 16) '0') = code := by
  have hdigit : ∀ digit < 16, hexDigits.idxOf (hexDigits.getD digit '0') = digit := by
    decide
  rw [pairCode, hdigit _ (by omega), hdigit _ (by omega)]
  omega

theorem readUnit_unicodeEscape (hunit : unit < 0x10000) (rest : List Char) :
    readUnit (unicodeEscape unit ++ rest) = some (unit, rest) := by
  simp only [unicodeEscape, hexPair, List.cons_append, List.nil_append, readUnit]
  rw [pairCode_hexPair (by omega), pairCode_hexPair (by omega)]
  congr 2
  omega

theorem unescape_unicodeEscape (hcode : char.toNat < 0xD800 ∨
    0xDC00 ≤ char.toNat) (hplane : char.toNat < 0x10000) (rest : List Char) :
    unescape (unicodeEscape char.toNat ++ rest) = some (char, rest) := by
  rw [unescape, readUnit_unicodeEscape hplane]
  simp only
  rw [if_neg (by omega), Char.ofNat_toNat]

theorem unescape_escaped (char : Char) (rest : List Char) :
    unescape (escaped char ++ rest) = some (char, rest) := by
  rw [escaped]
  by_cases hshort : char ∈ ['"', '\\', '\n', '\r', '\t', '\x0c', '\x08']
  · simp only [List.mem_cons, List.not_mem_nil, or_false] at hshort
    rcases hshort with rfl | rfl | rfl | rfl | rfl | rfl | rfl <;> rfl
  · simp only [List.mem_cons, List.not_mem_nil, or_false, not_or] at hshort
    obtain ⟨hquote, hslash, hline, hreturn, htab, hform, hback⟩ := hshort
    rw [if_neg hquote, if_neg hslash, if_neg hline, if_neg hreturn, if_neg htab, if_neg hform,
      if_neg hback]
    split
    · next hcontrol =>
      have hspelled : ['\\', 'u', '0', '0'] ++ hexPair char.toNat =
          unicodeEscape char.toNat := by
        rw [unicodeEscape, Nat.div_eq_of_lt (by omega), Nat.mod_eq_of_lt (by omega)]
        rfl
      rw [hspelled]
      exact unescape_unicodeEscape (by omega) (by omega) rest
    · have hunit : readUnit (char :: rest) = none := by
        rw [readUnit.eq_def]
        split
        · next heq => exact absurd (List.cons.inj heq).1 hslash
        · rfl
      rw [List.singleton_append, unescape, hunit]
      simp only
      rw [readPlain.eq_def]
      split
      · next heq => exact absurd (List.cons.inj heq).1 hslash
      · next heq =>
        cases heq
        rw [if_neg hquote]
      · next heq => cases heq

theorem unescape_asciiEscaped (char : Char) (rest : List Char) :
    unescape (asciiEscaped char ++ rest) = some (char, rest) := by
  have hvalid : char.toNat < 0xD800 ∨ 0xDFFF < char.toNat ∧ char.toNat < 0x110000 :=
    char.valid
  rw [asciiEscaped]
  split
  · exact unescape_escaped char rest
  split
  · next hplane => exact unescape_unicodeEscape (by omega) hplane rest
  · next hplane =>
    rw [List.append_assoc, unescape, readUnit_unicodeEscape (by omega)]
    simp only
    rw [if_pos (by omega), readUnit_unicodeEscape (by omega), Option.map_some]
    have hcode : 0x10000 + (0xD800 + (char.toNat - 0x10000) / 1024 - 0xD800) * 1024
        + (0xDC00 + (char.toNat - 0x10000) % 1024 - 0xDC00) = char.toNat := by
      omega
    rw [hcode, Char.ofNat_toNat]

theorem escaped_selfDelimiting : SelfDelimiting escaped :=
  .of_reader unescape_escaped

theorem asciiEscaped_selfDelimiting : SelfDelimiting asciiEscaped :=
  .of_reader unescape_asciiEscaped

theorem quoted_selfDelimiting : SelfDelimiting quoted := by
  refine (escaped_selfDelimiting.closed fun char rest tail heq => ?_).headed ['"']
  have hread := congrArg unescape heq
  rw [unescape_escaped] at hread
  cases hread

theorem asciiQuoted_selfDelimiting : SelfDelimiting asciiQuoted := by
  refine (asciiEscaped_selfDelimiting.closed fun char rest tail heq => ?_).headed ['"']
  have hread := congrArg unescape heq
  rw [unescape_asciiEscaped] at hread
  cases hread

theorem quoted_inj {first second : List Char} (heq : quoted first = quoted second) :
    first = second :=
  quoted_selfDelimiting.injective heq

section Arrays

variable {α : Type*}

theorem closing_eq (items : List (List Char)) :
    closing items = items.flatMap (',' :: ·) ++ [']'] := by
  induction items with
  | nil => rfl
  | cons first items ih =>
    rw [closing, ih, List.flatMap_cons, List.append_assoc]

theorem closing_selfDelimiting (hitem : SelfDelimiting item) :
    SelfDelimiting fun values : List α => closing (values.map item) := by
  have hclosed : SelfDelimiting fun values : List α =>
      values.flatMap (fun value => [','] ++ item value) ++ [']'] := by
    refine (hitem.headed [',']).closed fun value rest tail heq => ?_
    cases heq
  intro first second rest tail heq
  dsimp only at heq
  rw [closing_eq, closing_eq, List.flatMap_map, List.flatMap_map] at heq
  exact hclosed heq

/-- An array tells its items apart, where none of them could be taken for its end. -/
theorem array_selfDelimiting (hitem : SelfDelimiting item)
    (hbegins : ∀ value rest tail, item value ++ rest ≠ ']' :: tail) :
    SelfDelimiting fun values : List α => array (values.map item) := by
  intro first second rest tail heq
  cases first with
  | nil =>
    cases second with
    | nil => exact ⟨rfl, List.append_cancel_left heq⟩
    | cons value second =>
      simp only [List.map_nil, List.map_cons, array, List.cons_append, List.append_assoc,
        List.cons.injEq, true_and] at heq
      exact absurd heq.symm (hbegins _ _ _)
  | cons value first =>
    cases second with
    | nil =>
      simp only [List.map_nil, List.map_cons, array, List.cons_append, List.append_assoc,
        List.cons.injEq, true_and] at heq
      exact absurd heq (hbegins _ _ _)
    | cons other second =>
      simp only [List.map_cons, array, List.cons_append, List.append_assoc, List.cons.injEq,
        true_and] at heq
      obtain ⟨hvalue, hrest⟩ := hitem heq
      obtain ⟨hsame, htail⟩ := closing_selfDelimiting hitem hrest
      exact ⟨by rw [hvalue, hsame], htail⟩

end Arrays

/-- An array of strings tells the strings apart. -/
theorem array_quoted_inj {first second : List (List Char)}
    (heq : array (first.map quoted) = array (second.map quoted)) : first = second := by
  refine (array_selfDelimiting quoted_selfDelimiting fun value rest tail hbegins => ?_).injective
    heq
  cases hbegins

/-- So it does where they are written in ASCII. -/
theorem array_asciiQuoted_selfDelimiting :
    SelfDelimiting fun texts : List (List Char) => array (texts.map asciiQuoted) := by
  refine array_selfDelimiting asciiQuoted_selfDelimiting fun value rest tail hbegins => ?_
  cases hbegins

/-- A pair whose first item is a string tells both items apart. -/
theorem array_pair_inj {tag : List Char} {second : List Char}
    (heq : array [quoted tag, item] = array [quoted other, second]) :
    tag = other ∧ item = second := by
  simp only [array, closing, List.cons_append, List.cons.injEq, true_and] at heq
  obtain ⟨htag, hrest⟩ := quoted_selfDelimiting heq
  simp only [List.cons.injEq, true_and] at hrest
  exact ⟨htag, List.append_cancel_right hrest⟩

end JsonText

end JobApplyAgent.Library
