import JobApplyAgent.Library.Text
import Mathlib.Data.List.Nodup

/-!
# Query strings

Form encoding and its reading, as a scripting language has them.  What is encoded is read
back as it was, so that a query that was read and encoded once is not changed by a second
pass.
-/

namespace JobApplyAgent.Library.QueryString

/-! ## Percent encoding -/

def alwaysSafe (character : Char) : Bool :=
  character.isAlphanum || character ∈ ['_', '.', '-', '~']

/-- A digit of `%02X`. -/
def hexDigit (value : ℕ) : Char :=
  Char.ofNat (if value < 10 then '0'.toNat + value else 'A'.toNat + (value - 10))

def percent (byte : UInt8) : List Char :=
  ['%', hexDigit (byte.toNat / 16), hexDigit (byte.toNat % 16)]

def quoteCharacter (character : Char) : List Char :=
  if character = ' ' then ['+']
  else if alwaysSafe character then [character]
  else (String.utf8EncodeChar character).flatMap percent

def quotePlus (text : List Char) : List Char :=
  text.flatMap quoteCharacter

def hexValue (character : Char) : Option ℕ :=
  if '0' ≤ character ∧ character ≤ '9' then some (character.toNat - '0'.toNat)
  else if 'A' ≤ character ∧ character ≤ 'F' then some (character.toNat - 'A'.toNat + 10)
  else if 'a' ≤ character ∧ character ≤ 'f' then some (character.toNat - 'a'.toNat + 10)
  else none

def unquoteToBytes : List Char → List UInt8
  | [] => []
  | [first] => [UInt8.ofNat first.toNat]
  | [first, second] => [UInt8.ofNat first.toNat, UInt8.ofNat second.toNat]
  | first :: second :: third :: rest =>
    match if first = '%' then (hexValue second).bind fun high =>
        (hexValue third).map fun low => 16 * high + low else none with
    | some byte => UInt8.ofNat byte :: unquoteToBytes rest
    | none => UInt8.ofNat first.toNat :: unquoteToBytes (second :: third :: rest)

/-- The second byte of a character of three or four bytes. -/
def secondFits (lead second : ℕ) : Bool :=
  if lead = 0xE0 then decide (0xA0 ≤ second ∧ second ≤ 0xBF)
  else if lead = 0xED then decide (0x80 ≤ second ∧ second ≤ 0x9F)
  else if lead = 0xF0 then decide (0x90 ≤ second ∧ second ≤ 0xBF)
  else if lead = 0xF4 then decide (0x80 ≤ second ∧ second ≤ 0x8F)
  else decide (0xE1 ≤ lead ∧ lead ≤ 0xF3 ∧ 0x80 ≤ second ∧ second ≤ 0xBF)

/-- The bytes that one replacement character stands for, where no character begins. -/
def malformed : List UInt8 → ℕ
  | lead :: second :: rest =>
    if secondFits lead.toNat second.toNat then
      if 0xF0 ≤ lead.toNat ∧ rest.head?.any fun third => 0x80 ≤ third.toNat ∧ third.toNat ≤ 0xBF
      then 3 else 2
    else 1
  | _ => 1

/-- `bytes.decode("utf-8", "replace")`; every step reads a byte. -/
def decodeReplace : ℕ → List UInt8 → List Char
  | 0, _ => []
  | _ + 1, [] => []
  | fuel + 1, bytes =>
    match ByteArray.utf8DecodeChar? bytes.toByteArray 0 with
    | some character => character :: decodeReplace fuel (bytes.drop character.utf8Size)
    | none => '\uFFFD' :: decodeReplace fuel (bytes.drop (malformed bytes))

def decodeBytes (bytes : List UInt8) : List Char :=
  decodeReplace bytes.length bytes

/-- Read on; `run` is the text of the first script behind the last other character, in
reverse. -/
def unquoteRuns : List Char → List Char → List Char
  | run, [] => decodeBytes (unquoteToBytes run.reverse)
  | run, character :: rest =>
    if character.toNat < 128 then
      unquoteRuns (character :: run) rest
    else
      decodeBytes (unquoteToBytes run.reverse) ++ character :: unquoteRuns [] rest

def unquote (text : List Char) : List Char :=
  unquoteRuns [] text

/-- `unquote(text.replace("+", " "))`. -/
def unquotePlus (text : List Char) : List Char :=
  unquote (text.map fun character => if character = '+' then ' ' else character)

/-! ## Queries -/

/-- The values of every name of a query, in the order in which the names first occur. -/
abbrev Query := List (List Char × List (List Char))

variable {κ ν : Type*} [DecidableEq κ]

/-- Append a value under its name. -/
def addValue (name : κ) (value : ν) : List (κ × List ν) → List (κ × List ν)
  | [] => [(name, [value])]
  | (found, values) :: rest =>
    if found = name then (found, values ++ [value]) :: rest
    else (found, values) :: addValue name value rest

/-- The values by their names. -/
def group (pairs : List (κ × ν)) : List (κ × List ν) :=
  pairs.foldl (fun grouped pair => addValue pair.1 pair.2 grouped) []

/-- One pair for each value. -/
def ungroup (grouped : List (κ × List ν)) : List (κ × ν) :=
  grouped.flatMap fun entry => entry.2.map fun value => (entry.1, value)

def readPair (piece : List Char) : List Char × List Char :=
  (unquotePlus (piece.takeWhile (· != '=')), unquotePlus (piece.dropWhile (· != '=')).tail)

/-- `parse_qsl(query, keep_blank_values=True)`. -/
def parseQsl (query : List Char) : List (List Char × List Char) :=
  ((query.splitOn '&').filter fun piece => !piece.isEmpty).map readPair

/-- `parse_qs(query, keep_blank_values=True)`. -/
def parseQs (query : List Char) : Query :=
  group (parseQsl query)

def writePair (pair : List Char × List Char) : List Char :=
  quotePlus pair.1 ++ '=' :: quotePlus pair.2

/-- `urlencode(query, doseq=True)`. -/
def urlencode (query : Query) : List Char :=
  ['&'].intercalate ((ungroup query).map writePair)

/-! ## Quoted characters -/

/-- The characters of a quoted text. -/
def Quoted (character : Char) : Prop :=
  character.isAlphanum = true ∨ character ∈ ['_', '.', '-', '~', '+', '%']

instance (character : Char) : Decidable (Quoted character) :=
  inferInstanceAs (Decidable (_ ∨ _))

theorem hexDigit_spec : ∀ value < 16, Quoted (hexDigit value) ∧ hexDigit value ≠ '+' ∧
    (hexDigit value).toNat < 128 ∧ hexValue (hexDigit value) = some value := by
  decide

variable {text : List Char} {name : κ} {grouped : List (κ × List ν)}
  {query : Query}

theorem quoted_of_alwaysSafe (hsafe : alwaysSafe char = true) :
    Quoted char := by
  simp only [alwaysSafe, Bool.or_eq_true, decide_eq_true_eq] at hsafe
  rcases hsafe with halphanum | hmark
  · exact .inl halphanum
  · right
    simp only [List.mem_cons, List.not_mem_nil, or_false] at hmark ⊢
    rcases hmark with rfl | rfl | rfl | rfl <;> simp

theorem quoted_percent (byte : UInt8) : ∀ char ∈ percent byte, Quoted char := by
  have hbyte := byte.toNat_lt
  intro char hchar
  simp only [percent, List.mem_cons, List.not_mem_nil, or_false] at hchar
  rcases hchar with rfl | rfl | rfl
  · decide
  · exact (hexDigit_spec _ (by omega)).1
  · exact (hexDigit_spec _ (by omega)).1

theorem quoted_quotePlus : ∀ char ∈ quotePlus text, Quoted char := by
  intro char hchar
  obtain ⟨source, _, hsource⟩ := List.mem_flatMap.mp hchar
  unfold quoteCharacter at hsource
  split at hsource
  · rw [List.mem_singleton.mp hsource]
    decide
  · split at hsource
    · next hsafe =>
      rw [List.mem_singleton.mp hsource]
      exact quoted_of_alwaysSafe hsafe
    · obtain ⟨byte, _, hbyte⟩ := List.mem_flatMap.mp hsource
      exact quoted_percent byte char hbyte

theorem Quoted.toNat_lt (hquoted : Quoted char) :
    char.toNat < 128 := by
  rcases hquoted with halphanum | hmark
  · exact toNat_lt_of_isAlphanum halphanum
  · simp only [List.mem_cons, List.not_mem_nil, or_false] at hmark
    rcases hmark with rfl | rfl | rfl | rfl | rfl | rfl <;> decide

theorem Quoted.ne (hquoted : Quoted char) (hother : ¬Quoted other) :
    char ≠ other := by
  rintro rfl
  exact hother hquoted

/-! ## Reading a quoted text -/

theorem decodeReplace_encoded (hfuel : (text.flatMap String.utf8EncodeChar).length ≤ fuel) :
    decodeReplace fuel (text.flatMap String.utf8EncodeChar) = text := by
  induction text generalizing fuel with
  | nil => cases fuel <;> rfl
  | cons char text ih =>
    have hsize := char.utf8Size_pos
    rw [List.flatMap_cons, List.length_append, String.length_utf8EncodeChar] at hfuel
    obtain ⟨fuel, rfl⟩ := Nat.exists_eq_add_one_of_ne_zero (show fuel ≠ 0 by omega)
    have hnonempty : (char :: text).flatMap String.utf8EncodeChar ≠ [] := by
      intro hnil
      have hlength := congrArg List.length hnil
      rw [List.flatMap_cons, List.length_append, String.length_utf8EncodeChar,
        List.length_nil] at hlength
      omega
    rw [decodeReplace]
    · rw [List.flatMap_cons, List.toByteArray_append,
        ByteArray.utf8DecodeChar?_utf8EncodeChar_append]
      simp only
      rw [List.drop_left' (String.length_utf8EncodeChar char), ih (by omega)]
    · exact hnonempty

theorem unquoteRuns_ascii {run : List Char} (hascii : ∀ char ∈ text, char.toNat < 128) :
    unquoteRuns run text = decodeBytes (unquoteToBytes (run.reverse ++ text)) := by
  induction text generalizing run with
  | nil => rw [unquoteRuns, List.append_nil]
  | cons char text ih =>
    rw [unquoteRuns, if_pos (hascii char (.head _)),
      ih fun later hlater => hascii later (.tail _ hlater), List.reverse_cons,
      List.append_assoc, List.singleton_append]

theorem unquoteToBytes_cons (hplain : char ≠ '%') (rest : List Char) :
    unquoteToBytes (char :: rest) =
      UInt8.ofNat char.toNat :: unquoteToBytes rest := by
  match rest with
  | [] => rfl
  | [second] => rfl
  | second :: third :: rest => rw [unquoteToBytes, if_neg hplain]

theorem unquoteToBytes_percent (byte : UInt8) (rest : List Char) :
    unquoteToBytes (percent byte ++ rest) = byte :: unquoteToBytes rest := by
  have hbyte := byte.toNat_lt
  have hhigh := (hexDigit_spec (byte.toNat / 16) (by omega)).2.2.2
  have hlow := (hexDigit_spec (byte.toNat % 16) (by omega)).2.2.2
  rw [percent, List.cons_append, List.cons_append, List.cons_append, List.nil_append,
    unquoteToBytes]
  simp only [hhigh, hlow, if_true, Option.bind_some, Option.map_some]
  rw [Nat.div_add_mod, UInt8.ofNat_toNat]

/-- A plus stands for a space. -/
def spaced (text : List Char) : List Char :=
  text.map fun character => if character = '+' then ' ' else character

theorem spaced_append (first second : List Char) :
    spaced (first ++ second) = spaced first ++ spaced second :=
  List.map_append

theorem spaced_percent (byte : UInt8) : spaced (percent byte) = percent byte := by
  have hbyte := byte.toNat_lt
  have hhigh := (hexDigit_spec (byte.toNat / 16) (by omega)).2.1
  have hlow := (hexDigit_spec (byte.toNat % 16) (by omega)).2.1
  simp [spaced, percent, hhigh, hlow]

theorem unquoteToBytes_percents (bytes : List UInt8) (rest : List Char) :
    unquoteToBytes (spaced (bytes.flatMap percent) ++ rest) = bytes ++ unquoteToBytes rest := by
  induction bytes with
  | nil => rfl
  | cons byte bytes ih =>
    rw [List.flatMap_cons, spaced_append, spaced_percent, List.append_assoc,
      unquoteToBytes_percent, ih, List.cons_append]

theorem utf8EncodeChar_ascii (hascii : char.toNat < 128) :
    String.utf8EncodeChar char = [UInt8.ofNat char.toNat] := by
  have hsmall : char.toNat ≤ 127 := Nat.le_of_lt_succ hascii
  simp [String.utf8EncodeChar, hsmall]

theorem unquoteToBytes_character (char : Char) (rest : List Char) :
    unquoteToBytes (spaced (quoteCharacter char) ++ rest) =
      String.utf8EncodeChar char ++ unquoteToBytes rest := by
  unfold quoteCharacter
  split
  · next hspace =>
    subst hspace
    exact unquoteToBytes_cons (by decide) rest
  · split
    · next hsafe =>
      have hascii := (quoted_of_alwaysSafe hsafe).toNat_lt
      have hplus : char ≠ '+' := by
        rintro rfl
        exact absurd hsafe (by decide)
      have hplain : char ≠ '%' := by
        rintro rfl
        exact absurd hsafe (by decide)
      simp only [spaced, List.map_cons, List.map_nil, if_neg hplus]
      rw [List.singleton_append, unquoteToBytes_cons hplain, utf8EncodeChar_ascii hascii]
      rfl
    · exact unquoteToBytes_percents _ rest

theorem unquoteToBytes_quoted (text : List Char) :
    unquoteToBytes (spaced (quotePlus text)) = text.flatMap String.utf8EncodeChar := by
  induction text with
  | nil => rfl
  | cons char text ih =>
    rw [quotePlus, List.flatMap_cons, spaced_append, unquoteToBytes_character,
      List.flatMap_cons, ← ih]
    rfl

theorem unquotePlus_quotePlus (text : List Char) : unquotePlus (quotePlus text) = text := by
  have hascii : ∀ char ∈ spaced (quotePlus text), char.toNat < 128 := by
    intro char hchar
    obtain ⟨source, hsource, rfl⟩ := List.mem_map.mp hchar
    split
    · decide
    · exact (quoted_quotePlus source hsource).toNat_lt
  change unquoteRuns [] (spaced (quotePlus text)) = text
  rw [unquoteRuns_ascii hascii, List.reverse_nil, List.nil_append, unquoteToBytes_quoted]
  exact decodeReplace_encoded (Nat.le_refl _)

/-! ## Grouped values -/

/-- Every name occurs once, with at least one value. -/
structure Grouped (grouped : List (κ × List ν)) : Prop where
  names : (grouped.map Prod.fst).Nodup
  values : ∀ entry ∈ grouped, entry.2 ≠ []

theorem names_addValue (name : κ) (value : ν) (grouped : List (κ × List ν)) :
    (addValue name value grouped).map Prod.fst =
      if name ∈ grouped.map Prod.fst then grouped.map Prod.fst
      else grouped.map Prod.fst ++ [name] := by
  induction grouped with
  | nil => rfl
  | cons entry rest ih =>
    obtain ⟨found, values⟩ := entry
    rw [addValue]
    split
    · next hsame => simp [hsame]
    · next hother =>
      rw [List.map_cons, ih]
      split
      · next hmem => simp [hmem]
      · next hmem =>
        rw [if_neg, List.map_cons, List.cons_append]
        simp only [List.map_cons, List.mem_cons, not_or]
        exact ⟨Ne.symm hother, hmem⟩

theorem values_addValue {value : ν} (hgrouped : ∀ entry ∈ grouped, entry.2 ≠ []) :
    ∀ entry ∈ addValue name value grouped, entry.2 ≠ [] := by
  induction grouped with
  | nil => simp [addValue]
  | cons first rest ih =>
    obtain ⟨found, values⟩ := first
    obtain ⟨hfirst, hrest⟩ := List.forall_mem_cons.mp hgrouped
    rw [addValue]
    split
    · exact List.forall_mem_cons.mpr ⟨by simp, hrest⟩
    · exact List.forall_mem_cons.mpr ⟨hfirst, ih hrest⟩

theorem Grouped.addValue (hgrouped : Grouped grouped) (name : κ) (value : ν) :
    Grouped (addValue name value grouped) where
  names := by
    rw [names_addValue]
    split
    · exact hgrouped.names
    next hfresh =>
    rw [List.nodup_append]
    refine ⟨hgrouped.names, List.nodup_singleton name, ?_⟩
    rintro other hother _ hname rfl
    exact hfresh (List.mem_singleton.mp hname ▸ hother)
  values := values_addValue hgrouped.values

theorem grouped_group (pairs : List (κ × ν)) : Grouped (group pairs) := by
  have hfold : ∀ grouped : List (κ × List ν), Grouped grouped →
      Grouped (pairs.foldl (fun grouped pair => addValue pair.1 pair.2 grouped) grouped) := by
    induction pairs with
    | nil => exact fun grouped hgrouped => hgrouped
    | cons pair pairs ih =>
      intro grouped hgrouped
      exact ih _ (hgrouped.addValue pair.1 pair.2)
  exact hfold [] ⟨List.nodup_nil, by simp⟩

omit [DecidableEq κ] in
theorem Grouped.filter (hgrouped : Grouped grouped) (keep : κ × List ν → Bool) :
    Grouped (grouped.filter keep) where
  names := hgrouped.names.sublist (List.filter_sublist.map Prod.fst)
  values := fun entry hentry => hgrouped.values entry (List.mem_filter.mp hentry).1

theorem addValue_fresh (hfresh : name ∉ grouped.map Prod.fst) (values : List ν) (value : ν)
    (rest : List (κ × List ν)) :
    addValue name value (grouped ++ (name, values) :: rest) =
      grouped ++ (name, values ++ [value]) :: rest := by
  induction grouped with
  | nil => simp [addValue]
  | cons entry grouped ih =>
    rw [List.map_cons, List.mem_cons, not_or] at hfresh
    rw [List.cons_append, addValue, if_neg (Ne.symm hfresh.1), ih hfresh.2, List.cons_append]

theorem addValue_new (hfresh : name ∉ grouped.map Prod.fst) (value : ν) :
    addValue name value grouped = grouped ++ [(name, [value])] := by
  induction grouped with
  | nil => rfl
  | cons entry grouped ih =>
    rw [List.map_cons, List.mem_cons, not_or] at hfresh
    rw [addValue, if_neg (Ne.symm hfresh.1), ih hfresh.2, List.cons_append]

theorem foldl_addValue (hfresh : name ∉ grouped.map Prod.fst) (values later : List ν) :
    (later.map fun value => (name, value)).foldl
        (fun grouped pair => addValue pair.1 pair.2 grouped) (grouped ++ [(name, values)]) =
      grouped ++ [(name, values ++ later)] := by
  induction later generalizing values with
  | nil => simp
  | cons value later ih =>
    rw [List.map_cons, List.foldl_cons, addValue_fresh hfresh, ih, List.append_assoc,
      List.singleton_append]

/-- Grouping the values of a grouped list gives it back. -/
theorem group_ungroup (hgrouped : Grouped grouped) :
    group (ungroup grouped) = grouped := by
  have hfold : ∀ before after : List (κ × List ν), Grouped (before ++ after) →
      (ungroup after).foldl (fun grouped pair => addValue pair.1 pair.2 grouped) before =
        before ++ after := by
    intro before after
    induction after generalizing before with
    | nil => simp [ungroup]
    | cons entry after ih =>
      intro hboth
      obtain ⟨name, values⟩ := entry
      obtain ⟨value, later, rfl⟩ :=
        List.exists_cons_of_ne_nil (hboth.values (name, values) (by simp))
      have hfresh : name ∉ before.map Prod.fst := by
        intro hmem
        have hnodup := hboth.names
        rw [List.map_append, List.nodup_append] at hnodup
        exact hnodup.2.2 name hmem name (by simp) rfl
      have hnext : Grouped (before ++ [(name, value :: later)] ++ after) := by
        rwa [List.append_assoc, List.singleton_append]
      calc (ungroup ((name, value :: later) :: after)).foldl
            (fun grouped pair => addValue pair.1 pair.2 grouped) before
          = (ungroup after).foldl (fun grouped pair => addValue pair.1 pair.2 grouped)
              ((later.map fun value => (name, value)).foldl
                (fun grouped pair => addValue pair.1 pair.2 grouped)
                (addValue name value before)) := by
            rw [ungroup, List.flatMap_cons, List.map_cons, List.cons_append, List.foldl_cons,
              List.foldl_append]
            rfl
        _ = (ungroup after).foldl (fun grouped pair => addValue pair.1 pair.2 grouped)
              (before ++ [(name, value :: later)]) := by
            rw [addValue_new hfresh, foldl_addValue hfresh, List.singleton_append]
        _ = before ++ (name, value :: later) :: after := by
            rw [ih _ hnext, List.append_assoc, List.singleton_append]
  exact hfold [] grouped hgrouped

/-! ## Reading an encoded query -/

theorem mem_writePair (hchar : char ∈ writePair pair) :
    Quoted char ∨ char = '=' := by
  rcases List.mem_append.mp hchar with hname | hvalue
  · exact .inl (quoted_quotePlus char hname)
  · rcases List.mem_cons.mp hvalue with rfl | hvalue
    · exact .inr rfl
    · exact .inl (quoted_quotePlus char hvalue)

theorem readPair_writePair (pair : List Char × List Char) : readPair (writePair pair) = pair := by
  have hname : ∀ char ∈ quotePlus pair.1, (char != '=') = true := by
    intro char hchar
    rw [bne_iff_ne]
    exact (quoted_quotePlus char hchar).ne (by decide)
  have htake : (writePair pair).takeWhile (· != '=') = quotePlus pair.1 := by
    rw [writePair, List.takeWhile_append_of_pos hname]
    simp
  have hdrop : (writePair pair).dropWhile (· != '=') = '=' :: quotePlus pair.2 := by
    rw [writePair, List.dropWhile_append_of_pos hname]
    simp
  rw [readPair, htake, hdrop, List.tail_cons, unquotePlus_quotePlus, unquotePlus_quotePlus]

theorem parseQsl_write (pairs : List (List Char × List Char)) :
    parseQsl (['&'].intercalate (pairs.map writePair)) = pairs := by
  by_cases hpairs : pairs = []
  · subst hpairs
    rfl
  · have hseparate : ∀ piece ∈ pairs.map writePair, '&' ∉ piece := by
      intro piece hpiece hmem
      obtain ⟨pair, _, rfl⟩ := List.mem_map.mp hpiece
      exact absurd (mem_writePair hmem) (by decide)
    have hwritten : ∀ piece ∈ pairs.map writePair, (!piece.isEmpty) = true := by
      intro piece hpiece
      obtain ⟨pair, _, rfl⟩ := List.mem_map.mp hpiece
      simp [writePair]
    have hpieces : pairs.map writePair ≠ [] := by simpa using hpairs
    rw [parseQsl, List.splitOn_intercalate '&' hseparate hpieces,
      List.filter_eq_self.mpr hwritten, List.map_map]
    calc pairs.map (readPair ∘ writePair) = pairs.map id :=
          List.map_congr_left fun pair _ => readPair_writePair pair
      _ = pairs := List.map_id pairs

/-- A query is read as it was encoded. -/
theorem parseQs_urlencode (hquery : Grouped query) :
    parseQs (urlencode query) = query := by
  rw [parseQs, urlencode, parseQsl_write, group_ungroup hquery]

theorem grouped_parseQs (query : List Char) : Grouped (parseQs query) :=
  grouped_group _

theorem mem_urlencode (hchar : char ∈ urlencode query) :
    Quoted char ∨ char ∈ ['=', '&'] := by
  rcases mem_of_mem_intercalate hchar with hseparator | ⟨piece, hpiece, hmem⟩
  · rw [List.mem_singleton.mp hseparator]
    simp
  · obtain ⟨pair, _, rfl⟩ := List.mem_map.mp hpiece
    rcases mem_writePair hmem with hquoted | rfl
    · exact .inl hquoted
    · simp

theorem urlencode_eq_nil_iff (hquery : Grouped query) :
    urlencode query = [] ↔ query = [] := by
  constructor
  · intro hnil
    rw [← parseQs_urlencode hquery, hnil]
    rfl
  · rintro rfl
    rfl

end JobApplyAgent.Library.QueryString
