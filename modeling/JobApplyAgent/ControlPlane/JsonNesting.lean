import JobApplyAgent.Library.Fallible
import JobApplyAgent.Library.JsonGrammar

/-!
# The nesting of a token's JSON

Before the JSON of a token is parsed, one pass over its characters refuses what is nested too
deeply.  The pass knows strings and escapes and nothing else of the grammar: it agrees with the
depth of every value on every text of it, and whatever a parser reads of an accepted text, it
never has more than the allowed arrays and objects open.
-/

namespace JobApplyAgent.ControlPlane

open Library JsonValue

def maxJsonNestingDepth : ℕ := 32

structure NestingScan where
  depth : ℤ := 0
  inString : Bool := false
  escaped : Bool := false

def nestingTooDeep : String := "JSON nesting is too deep"

def scanCharacter (scan : NestingScan) (character : Char) : Except String NestingScan :=
  if scan.inString then
    if scan.escaped then .ok { scan with escaped := false }
    else if character = '\\' then .ok { scan with escaped := true }
    else if character = '"' then .ok { scan with inString := false }
    else .ok scan
  else if character = '"' then .ok { scan with inString := true }
  else if character ∈ ['[', '{'] then
    if (maxJsonNestingDepth : ℤ) < scan.depth + 1 then .error nestingTooDeep
    else .ok { scan with depth := scan.depth + 1 }
  else if character ∈ [']', '}'] then .ok { scan with depth := scan.depth - 1 }
  else .ok scan

def scanNesting (scan : NestingScan) : List Char → Except String NestingScan
  | [] => .ok scan
  | character :: rest => do
    let next ← scanCharacter scan character
    scanNesting next rest

def assertJsonNestingDepth (text : List Char) : Except String Unit :=
  (scanNesting {} text).map fun _ => ()

/-! ## What the pass makes of a whole value -/

/-- The pass outside of strings, with so many arrays and objects open. -/
def openScan (count : ℕ) : NestingScan := { depth := count }

/-- A text that opens so many arrays and objects within each other and closes them all. -/
def Nests (count : ℕ) (text : List Char) : Prop :=
  ∀ before ≤ maxJsonNestingDepth, scanNesting (openScan before) text =
    if before + count ≤ maxJsonNestingDepth then .ok (openScan before)
    else .error nestingTooDeep

theorem scanNesting_append (scan : NestingScan) (first second : List Char) :
    scanNesting scan (first ++ second) =
      (scanNesting scan first >>= fun middle => scanNesting middle second) := by
  induction first generalizing scan with
  | nil => rfl
  | cons char rest ih =>
    simp only [List.cons_append, scanNesting, bind_assoc, ih]

theorem scanNesting_one (scan : NestingScan) (char : Char) :
    scanNesting scan [char] = scanCharacter scan char :=
  bind_pure _

theorem Nests.append {first second : List Char} {count : ℕ} (hfirst : Nests count first)
    (hsecond : Nests other second) : Nests (max count other) (first ++ second) := by
  intro before hbefore
  rw [scanNesting_append, hfirst before hbefore]
  by_cases hcount : before + count ≤ maxJsonNestingDepth
  · rw [if_pos hcount]
    refine (hsecond before hbefore).trans (if_congr ?_ rfl rfl)
    omega
  · rw [if_neg hcount, if_neg (by omega)]
    rfl

theorem nests_nil : Nests 0 [] := by
  intro before hbefore
  rw [if_pos (by omega)]
  rfl

/-- A character that is no quote and no bracket. -/
theorem nests_character (hplain : char ∉ ['"', '[', '{', ']', '}']) : Nests 0 [char] := by
  intro before hbefore
  simp only [List.mem_cons, List.not_mem_nil, or_false, not_or] at hplain
  rw [if_pos (by omega), scanNesting_one]
  simp [scanCharacter, openScan, hplain]

theorem nests_characters {text : List Char}
    (hplain : ∀ char ∈ text, char ∉ ['"', '[', '{', ']', '}']) : Nests 0 text := by
  induction text with
  | nil => exact nests_nil
  | cons char rest ih =>
    rw [List.forall_mem_cons] at hplain
    exact (nests_character hplain.1).append (ih hplain.2)

theorem nests_blank {text : List Char} (hblank : IsBlank text) : Nests 0 text := by
  refine nests_characters fun char hmem => ?_
  have hkind := hblank char hmem
  simp only [List.mem_cons, List.not_mem_nil, or_false] at hkind
  rcases hkind with rfl | rfl | rfl | rfl <;> decide

theorem scanCharacter_opening (hbracket : bracket ∈ ['[', '{']) (before : ℕ) :
    scanCharacter (openScan before) bracket =
      if before + 1 ≤ maxJsonNestingDepth then .ok (openScan (before + 1))
      else .error nestingTooDeep := by
  have hlimit : (maxJsonNestingDepth : ℤ) < (before : ℤ) + 1 ↔
      ¬ before + 1 ≤ maxJsonNestingDepth := by omega
  simp only [List.mem_cons, List.not_mem_nil, or_false] at hbracket
  rcases hbracket with rfl | rfl <;>
    simp only [scanCharacter, openScan, hlimit, ite_not] <;> rfl

theorem scanCharacter_closing (hbracket : bracket ∈ [']', '}']) (before : ℕ) :
    scanCharacter (openScan (before + 1)) bracket = .ok (openScan before) := by
  simp only [List.mem_cons, List.not_mem_nil, or_false] at hbracket
  rcases hbracket with rfl | rfl <;> simp [scanCharacter, openScan]

/-- Brackets around a text open one more. -/
theorem Nests.enclose {count : ℕ} (hinside : Nests count inside)
    (hleft : left ∈ ['[', '{']) (hright : right ∈ [']', '}']) :
    Nests (count + 1) (left :: inside ++ [right]) := by
  intro before hbefore
  simp only [List.cons_append, scanNesting, scanCharacter_opening hleft]
  by_cases hfits : before + 1 ≤ maxJsonNestingDepth
  · rw [if_pos hfits]
    change scanNesting (openScan (before + 1)) (inside ++ [right]) = _
    rw [scanNesting_append, hinside (before + 1) hfits]
    by_cases hcount : before + 1 + count ≤ maxJsonNestingDepth
    · rw [if_pos hcount, if_pos (by omega)]
      exact (scanNesting_one _ _).trans (scanCharacter_closing hright before)
    · rw [if_neg hcount, if_neg (by omega)]
      rfl
  · rw [if_neg hfits, if_neg (by omega)]
    rfl

/-! ## Strings -/

/-- The pass inside of a string. -/
def stringScan (scan : NestingScan) : NestingScan :=
  { scan with inString := true, escaped := false }

theorem scanNesting_plain {text : List Char} (scan : NestingScan)
    (hplain : ∀ char ∈ text, char ≠ '"' ∧ char ≠ '\\') :
    scanNesting (stringScan scan) text = .ok (stringScan scan) := by
  induction text with
  | nil => rfl
  | cons char rest ih =>
    rw [List.forall_mem_cons] at hplain
    have hstay : scanCharacter (stringScan scan) char = .ok (stringScan scan) := by
      simp [scanCharacter, stringScan, hplain.1]
    rw [scanNesting, hstay]
    exact ih hplain.2

/-- The pass stays inside the string behind every unit of it. -/
theorem scanNesting_unit {text : List Char} (hunit : SpellsUnit unit text)
    (scan : NestingScan) : scanNesting (stringScan scan) text = .ok (stringScan scan) := by
  cases hunit with
  | plain hquote hslash hcontrol =>
    exact scanNesting_plain scan (List.forall_mem_singleton.mpr ⟨hquote, hslash⟩)
  | short hmark => rfl
  | @code digits values hlength hdigits =>
    change scanNesting (stringScan scan) digits = _
    refine scanNesting_plain scan fun digit hmem => ?_
    have hvalue : QueryString.hexValue digit ∈ digits.map QueryString.hexValue :=
      List.mem_map_of_mem hmem
    rw [hdigits] at hvalue
    obtain ⟨value, _, hvalue⟩ := List.mem_map.mp hvalue
    constructor <;> rintro rfl <;> cases hvalue

theorem scanNesting_units (hunits : SpellsUnits units body)
    (scan : NestingScan) : scanNesting (stringScan scan) body = .ok (stringScan scan) := by
  induction hunits with
  | nil => rfl
  | cons hunit hunits ih =>
    rw [scanNesting_append, scanNesting_unit hunit]
    exact ih

theorem nests_string {text : List Char} (hstring : SpellsString units text) :
    Nests 0 text := by
  obtain ⟨body, hunits, rfl⟩ := hstring
  intro before hbefore
  rw [if_pos (by omega)]
  change scanNesting (stringScan (openScan before)) (body ++ ['"']) = _
  rw [scanNesting_append, scanNesting_units hunits]
  rfl

/-! ## Values -/

theorem Nests.of_padded {count : ℕ}
    (hspells : ∀ body, spells body → Nests count body) {text : List Char}
    (hpadded : Padded spells text) : Nests count text := by
  obtain ⟨before, body, behind, rfl, hbefore, hbody, hbehind⟩ := hpadded
  simpa using ((nests_blank hbefore).append (hspells body hbody)).append (nests_blank hbehind)

mutual

theorem nests_value : ∀ (value : JsonValue) (text : List Char), JsonValue.Spells value text →
    Nests value.depth text
  | .null, text, hspells => by
    rw [JsonValue.Spells] at hspells
    subst hspells
    exact nests_characters (forall_mem_of_all (by decide))
  | .bool value, text, hspells => by
    rw [JsonValue.Spells] at hspells
    subst hspells
    cases value <;> exact nests_characters (forall_mem_of_all (by decide))
  | .number spelling, text, hspells => by
    rw [JsonValue.Spells] at hspells
    obtain ⟨rfl, hnumber⟩ := hspells
    refine nests_characters fun char hmem => ?_
    rintro hplain
    simp only [List.mem_cons, List.not_mem_nil, or_false] at hplain
    rcases hplain with rfl | rfl | rfl | rfl | rfl <;>
      exact absurd (numberCharacter hnumber _ hmem) (by decide)
  | .string units, text, hspells => by
    rw [JsonValue.Spells] at hspells
    exact nests_string hspells
  | .array items, text, hspells => by
    rw [JsonValue.Spells] at hspells
    obtain ⟨inside, rfl, hitems⟩ := hspells
    exact (nests_items items inside hitems).enclose (by decide) (by decide)
  | .object members, text, hspells => by
    rw [JsonValue.Spells] at hspells
    obtain ⟨inside, rfl, hmembers⟩ := hspells
    exact (nests_members members inside hmembers).enclose (by decide) (by decide)

theorem nests_items : ∀ (items : List JsonValue) (text : List Char), SpellsItems items text →
    Nests (depthOfItems items) text
  | [], text, hspells => by
    rw [SpellsItems] at hspells
    exact nests_blank hspells
  | [item], text, hspells => by
    rw [SpellsItems] at hspells
    simpa [depthOfItems] using Nests.of_padded (fun body => nests_value item body) hspells
  | item :: next :: items, text, hspells => by
    rw [SpellsItems] at hspells
    obtain ⟨first, rest, rfl, hfirst, hrest⟩ := hspells
    have hcomma : Nests 0 [','] := nests_character (by decide)
    have hlater := hcomma.append (nests_items (next :: items) rest hrest)
    rw [Nat.zero_max] at hlater
    exact (Nests.of_padded (fun body => nests_value item body) hfirst).append hlater

theorem nests_members : ∀ (members : List (List ℕ × JsonValue)) (text : List Char),
    SpellsMembers members text → Nests (depthOfMembers members) text
  | [], text, hspells => by
    rw [SpellsMembers] at hspells
    exact nests_blank hspells
  | [(name, value)], text, hspells => by
    rw [SpellsMembers] at hspells
    obtain ⟨key, rest, rfl, hkey, hrest⟩ := hspells
    have hcolon : Nests 0 [':'] := nests_character (by decide)
    have hvalue := hcolon.append (Nests.of_padded (fun body => nests_value value body) hrest)
    simpa [depthOfMembers] using (Nests.of_padded (fun _ => nests_string) hkey).append hvalue
  | (name, value) :: next :: members, text, hspells => by
    rw [SpellsMembers] at hspells
    obtain ⟨key, first, rest, rfl, hkey, hfirst, hrest⟩ := hspells
    have hcolon : Nests 0 [':'] := nests_character (by decide)
    have hcomma : Nests 0 [','] := nests_character (by decide)
    have hvalue := hcolon.append (Nests.of_padded (fun body => nests_value value body) hfirst)
    have hhead := (Nests.of_padded (fun _ => nests_string) hkey).append hvalue
    have hlater := hcomma.append (nests_members (next :: members) rest hrest)
    simpa [depthOfMembers] using hhead.append hlater

end

/-! ## What a parser reads -/

/-- What a parser goes past in one go: a whole value, a comma, a colon or blanks. -/
inductive IsPiece : List Char → Prop where
  | value {value : JsonValue} {text : List Char} (hspells : Spells value text) : IsPiece text
  | comma : IsPiece [',']
  | colon : IsPiece [':']
  | blank {text : List Char} (hblank : IsBlank text) : IsPiece text

/-- The text is read, and so many arrays and objects are open.  A parser asks for more, for the
pieces in their order. -/
inductive HasRead : List Char → ℕ → Prop where
  | start : HasRead [] 0
  | piece {text piece : List Char} {count : ℕ} (hread : HasRead text count)
      (hpiece : IsPiece piece) : HasRead (text ++ piece) count
  | opened {text : List Char} {count : ℕ} (hread : HasRead text count) {bracket : Char}
      (hbracket : bracket ∈ ['[', '{']) : HasRead (text ++ [bracket]) (count + 1)

/-- A parser can consume the text: it is in the middle of a token, or behind one. -/
def CanConsume (text : List Char) (count : ℕ) : Prop :=
  ∃ read part, text = read ++ part ∧ HasRead read count ∧
    ∃ rest, IsPiece (part ++ rest)

/-- A recursive parser has a call for the document and one for a value in each open array or
object. -/
def parserCalls (count : ℕ) : ℕ := count + 1

theorem IsPiece.nests (hpiece : IsPiece piece) :
    ∃ count, Nests count piece := by
  cases hpiece with
  | value hspells => exact ⟨_, nests_value _ _ hspells⟩
  | comma | colon => exact ⟨0, nests_character (by decide)⟩
  | blank hblank => exact ⟨0, nests_blank hblank⟩

/-- Behind what a parser has read, the counter is what is open. -/
theorem HasRead.scanned {text : List Char} {count : ℕ} (hread : HasRead text count)
    {scan : NestingScan} (hscan : scanNesting {} text = .ok scan) :
    scan = openScan count ∧ count ≤ maxJsonNestingDepth := by
  induction hread generalizing scan with
  | start =>
    cases hscan
    exact ⟨rfl, Nat.zero_le _⟩
  | piece hread hpiece ih =>
    rw [scanNesting_append] at hscan
    obtain ⟨middle, hmiddle, hscan⟩ := bind_eq_ok.mp hscan
    obtain ⟨rfl, hcount⟩ := ih hmiddle
    obtain ⟨deeper, hnests⟩ := hpiece.nests
    rw [hnests _ hcount] at hscan
    split at hscan
    · cases hscan
      exact ⟨rfl, hcount⟩
    · cases hscan
  | opened hread hbracket ih =>
    rw [scanNesting_append] at hscan
    obtain ⟨middle, hmiddle, hscan⟩ := bind_eq_ok.mp hscan
    obtain ⟨rfl, hcount⟩ := ih hmiddle
    have hopened := (scanNesting_one _ _).symm.trans hscan
    rw [scanCharacter_opening hbracket] at hopened
    split at hopened
    · next hfits =>
      cases hopened
      exact ⟨rfl, hfits⟩
    · cases hopened

/-- The guard takes a text of a value exactly when the value is not nested too deeply; and of a
text that it takes, a parser consumes nothing that opens more arrays and objects at once. -/
theorem nesting_guard_exact :
    (∀ (value : JsonValue) text, Padded value.Spells text →
      (assertJsonNestingDepth text = .ok () ↔ value.depth ≤ maxJsonNestingDepth)) ∧
    ∀ text, assertJsonNestingDepth text = .ok () → ∀ consumed count, consumed <+: text →
      CanConsume consumed count →
        count ≤ maxJsonNestingDepth ∧ parserCalls count ≤ maxJsonNestingDepth + 1 := by
  constructor
  · intro value text hpadded
    have hnests := Nests.of_padded (nests_value value) hpadded 0 (Nat.zero_le _)
    rw [Nat.zero_add] at hnests
    change (scanNesting (openScan 0) text).map _ = _ ↔ _
    rw [hnests]
    split
    · next hfits => exact ⟨fun _ => hfits, fun _ => rfl⟩
    · next hdeep => exact ⟨nofun, fun hfits => absurd hfits hdeep⟩
  · rintro text hguard consumed count ⟨behind, rfl⟩ ⟨read, part, rfl, hread, _⟩
    obtain ⟨scan, hscan, _⟩ := map_eq_ok.mp hguard
    rw [List.append_assoc, scanNesting_append] at hscan
    obtain ⟨middle, hmiddle, _⟩ := bind_eq_ok.mp hscan
    have hcount := (hread.scanned hmiddle).2
    exact ⟨hcount, Nat.succ_le_succ hcount⟩

end JobApplyAgent.ControlPlane
