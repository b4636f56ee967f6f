import JobApplyAgent.Library.QueryString

/-!
# Reading queries

What is read of a query without escapes, of a query with text behind it, and of an encoded
query whose names differ.
-/

namespace JobApplyAgent.Library.QueryString

/-! ## Texts without escapes -/

theorem decodeBytes_plain (hascii : ∀ char ∈ text, char.toNat < 128)
    (hplain : '%' ∉ text) :
    decodeBytes (unquoteToBytes text) = text := by
  have hbytes : unquoteToBytes text = text.flatMap String.utf8EncodeChar := by
    induction text with
    | nil => rfl
    | cons char text ih =>
      rw [List.mem_cons, not_or] at hplain
      rw [unquoteToBytes_cons (Ne.symm hplain.1), List.flatMap_cons,
        utf8EncodeChar_ascii (hascii char (.head _)),
        ih (fun later hlater => hascii later (.tail _ hlater)) hplain.2, List.singleton_append]
  rw [hbytes, decodeBytes]
  exact decodeReplace_encoded (Nat.le_refl _)

theorem unquoteRuns_plain (hascii : ∀ char ∈ run, char.toNat < 128)
    (hrun : '%' ∉ run) (htext : '%' ∉ text) : unquoteRuns run text = run.reverse ++ text := by
  have hdecoded : ∀ run : List Char, (∀ char ∈ run, char.toNat < 128) → '%' ∉ run →
      decodeBytes (unquoteToBytes run.reverse) = run.reverse := by
    intro run hascii hrun
    apply decodeBytes_plain
    · exact fun char hmem => hascii char (List.mem_reverse.mp hmem)
    · exact fun hmem => hrun (List.mem_reverse.mp hmem)
  induction text generalizing run with
  | nil => rw [unquoteRuns, hdecoded run hascii hrun, List.append_nil]
  | cons char text ih =>
    rw [List.mem_cons, not_or] at htext
    rw [unquoteRuns]
    split
    · next hsmall =>
      rw [ih (List.forall_mem_cons.mpr ⟨hsmall, hascii⟩)
        (by rw [List.mem_cons, not_or]; exact ⟨htext.1, hrun⟩) htext.2,
        List.reverse_cons, List.append_assoc, List.singleton_append]
    · rw [hdecoded run hascii hrun, ih (by simp) (by simp) htext.2, List.reverse_nil,
        List.nil_append]

/-- A text without escapes is read as it is, but for its pluses. -/
theorem unquotePlus_plain (hplain : '%' ∉ text) :
    unquotePlus text = spaced text := by
  have hspaced : '%' ∉ spaced text := by
    intro hmem
    obtain ⟨source, hsource, heq⟩ := List.mem_map.mp hmem
    split at heq
    · exact absurd heq (by decide)
    · exact hplain (heq ▸ hsource)
  change unquoteRuns [] (spaced text) = spaced text
  rw [unquoteRuns_plain (by simp) (by simp) hspaced, List.reverse_nil, List.nil_append]

/-- A text that is written without escapes. -/
def isPlain (text : List Char) : Bool :=
  text.all fun character => character == ' ' || alwaysSafe character

theorem percent_mem_quotePlus :
    '%' ∈ quotePlus text ↔ isPlain text = false := by
  have hchar : ∀ char, '%' ∈ quoteCharacter char ↔
      (char == ' ' || alwaysSafe char) = false := by
    intro char
    unfold quoteCharacter
    split
    · next hspace => simp [hspace]
    · next hspace =>
      split
      · next hsafe =>
        have hother : '%' ≠ char := by
          rintro rfl
          exact absurd hsafe (by decide)
        simp [hsafe, hother]
      · next hsafe =>
        have hne : String.utf8EncodeChar char ≠ [] := by
          intro hnil
          have hlength := String.length_utf8EncodeChar char
          have hpositive := char.utf8Size_pos
          rw [hnil, List.length_nil] at hlength
          omega
        obtain ⟨byte, hbyte⟩ := List.exists_mem_of_ne_nil _ hne
        have hpercent : '%' ∈ (String.utf8EncodeChar char).flatMap percent :=
          List.mem_flatMap.mpr ⟨byte, hbyte, .head _⟩
        simp [hspace, hsafe, hpercent]
  rw [isPlain, List.all_eq_false]
  simp only [quotePlus, List.mem_flatMap, hchar, Bool.not_eq_true]

/-! ## Text behind a query -/

/-- The last piece of a text, and the pieces of the text with more behind it. -/
theorem splitOn_last (separator : Char) (text : List Char) :
    ∃ before, text.splitOn separator = before ++ [text.rtakeWhile (· != separator)] ∧
      ∀ behind, separator ∉ behind → (text ++ behind).splitOn separator =
        before ++ [text.rtakeWhile (· != separator) ++ behind] := by
  have hsplit : text.rdropWhile (· != separator) ++ text.rtakeWhile (· != separator) = text :=
    List.rdropWhile_append_rtakeWhile
  have hnone : separator ∉ text.rtakeWhile (· != separator) := by
    intro hmem
    simpa using List.mem_rtakeWhile_imp hmem
  have hwhole : ∀ before, (∀ behind, separator ∉ text.rtakeWhile (· != separator) ++ behind →
      (text ++ behind).splitOn separator =
        before ++ [text.rtakeWhile (· != separator) ++ behind]) →
      text.splitOn separator = before ++ [text.rtakeWhile (· != separator)] ∧
        ∀ behind, separator ∉ behind → (text ++ behind).splitOn separator =
          before ++ [text.rtakeWhile (· != separator) ++ behind] := by
    intro before hbehind
    constructor
    · have hempty := hbehind [] (by rwa [List.append_nil])
      rwa [List.append_nil, List.append_nil] at hempty
    · intro behind hother
      apply hbehind
      rw [List.mem_append, not_or]
      exact ⟨hnone, hother⟩
  by_cases hempty : text.rdropWhile (· != separator) = []
  · refine ⟨[], hwhole [] fun behind hother => ?_⟩
    rw [hempty, List.nil_append] at hsplit
    rw [hsplit] at hother ⊢
    rw [List.splitOn_eq_singleton hother, List.nil_append]
  · have hlast := List.rdropWhile_last_not _ _ hempty
    have hseparator : (text.rdropWhile (· != separator)).getLast hempty = separator := by
      simpa using hlast
    have hbefore := List.dropLast_append_getLast hempty
    rw [hseparator] at hbefore
    refine ⟨_, hwhole ((text.rdropWhile (· != separator)).dropLast.splitOn separator)
      fun behind hother => ?_⟩
    have htext : text ++ behind = (text.rdropWhile (· != separator)).dropLast ++
        separator :: (text.rtakeWhile (· != separator) ++ behind) := by
      conv_lhs => rw [← hsplit, ← hbefore]
      simp
    rw [htext, List.splitOn_append_cons_self, List.splitOn_eq_singleton hother]

theorem parseQsl_of_splitOn {query : List Char} {before : List (List Char)}
    (hpieces : query.splitOn '&' = before ++ [last]) :
    parseQsl query = (before.filter fun piece => !piece.isEmpty).map readPair ++
      if last = [] then [] else [readPair last] := by
  rw [parseQsl, hpieces, List.filter_append, List.map_append]
  congr 1
  split
  · next hnone => simp [hnone]
  · next hsome => simp [hsome]

theorem readPair_of_mem (hmem : '=' ∈ piece) :
    ∃ name value, value ⊆ piece ∧ ∀ behind, readPair (piece ++ behind) =
      (unquotePlus name, unquotePlus (value ++ behind)) := by
  refine ⟨piece.takeWhile (· != '='), (piece.dropWhile (· != '=')).tail, ?_, fun behind => ?_⟩
  · exact fun char hchar =>
      (List.dropWhile_sublist _).subset (List.mem_of_mem_tail hchar)
  have hne : piece.dropWhile (· != '=') ≠ [] := by
    rw [Ne, List.dropWhile_eq_nil_iff]
    intro hall
    exact absurd (hall '=' hmem) (by simp)
  have hsame : (piece ++ behind).takeWhile (· != '=') = piece.takeWhile (· != '=') := by
    rw [List.takeWhile_append, if_neg]
    intro hlength
    have hwhole := congrArg List.length
      (List.takeWhile_append_dropWhile (p := (· != '=')) (l := piece))
    rw [List.length_append, hlength] at hwhole
    exact hne (List.eq_nil_of_length_eq_zero (by omega))
  rw [readPair, hsame, List.dropWhile_append, if_neg (by simpa using hne),
    List.tail_append_of_ne_nil hne]

theorem readPair_of_notMem (hnone : '=' ∉ piece) :
    readPair piece = (unquotePlus piece, unquotePlus []) := by
  have hall : ∀ char ∈ piece, (char != '=') = true := by
    intro char hchar
    rw [bne_iff_ne]
    rintro rfl
    exact hnone hchar
  rw [readPair, List.takeWhile_eq_self_iff.mpr hall, List.dropWhile_eq_nil_iff.mpr hall,
    List.tail_nil]

/-- What is read of a query with text behind it: a pair of its own, a longer value, or a longer
name where the last name has no value. -/
theorem parseQsl_behind (query : List Char) (hpair : '&' ∉ behind) :
    [] ∈ query.splitOn '&' ∧
        parseQsl (query ++ behind) = parseQsl query ++ parseQsl behind ∨
      (∃ before name value, parseQsl query = before ++ [(unquotePlus name, unquotePlus value)] ∧
        parseQsl (query ++ behind) =
          before ++ [(unquotePlus name, unquotePlus (value ++ behind))] ∧ value ⊆ query) ∨
      ∃ before piece, parseQsl query = before ++ [(unquotePlus piece, unquotePlus [])] ∧
        piece ∈ query.splitOn '&' ∧ '=' ∉ piece := by
  obtain ⟨before, hpieces, hbehind⟩ := splitOn_last '&' query
  have hboth := hbehind behind hpair
  have hread := parseQsl_of_splitOn hpieces
  have hreadBoth := parseQsl_of_splitOn hboth
  have hlast : query.rtakeWhile (· != '&') ∈ query.splitOn '&' := by
    rw [hpieces]
    exact List.mem_append_right _ (.head _)
  generalize query.rtakeWhile (· != '&') = last at hpieces hread hreadBoth hlast
  by_cases hnone : last = []
  · left
    subst hnone
    refine ⟨hlast, ?_⟩
    have hother : parseQsl behind = if behind = [] then [] else [readPair behind] := by
      have hsingle := @parseQsl_of_splitOn _ _ [] (List.splitOn_eq_singleton hpair)
      simpa using hsingle
    rw [hreadBoth, hread, hother, if_pos rfl, List.append_nil, List.nil_append]
  · have hsome : last ++ behind ≠ [] := List.append_ne_nil_of_left_ne_nil hnone _
    rw [if_neg hnone] at hread
    rw [if_neg hsome] at hreadBoth
    right
    by_cases hvalue : '=' ∈ last
    · left
      obtain ⟨name, value, hsubset, hpairs⟩ := readPair_of_mem hvalue
      refine ⟨_, name, value, ?_, hreadBoth.trans (by rw [hpairs]), fun char hchar => ?_⟩
      swap
      · rw [List.splitOn_eq_splitOnP] at hlast
        exact mem_of_mem_splitOnP hlast (hsubset hchar)
      have hempty := hpairs []
      rw [List.append_nil, List.append_nil] at hempty
      rw [hread, hempty]
    · right
      exact ⟨_, last, hread.trans (by rw [readPair_of_notMem hvalue]), hlast, hvalue⟩

/-! ## Grouped pairs -/

variable {κ ν : Type*} [DecidableEq κ]

theorem mem_ungroup_addValue {name : κ} {value : ν} :
    pair ∈ ungroup (addValue name value grouped) ↔
      pair ∈ ungroup grouped ∨ pair = (name, value) := by
  induction grouped with
  | nil => simp [addValue, ungroup]
  | cons entry grouped ih =>
    obtain ⟨found, values⟩ := entry
    rw [addValue]
    split
    · next hsame =>
      subst hsame
      simp only [ungroup, List.flatMap_cons, List.map_append, List.mem_append, List.map_cons,
        List.map_nil, List.mem_singleton]
      tauto
    · simp only [ungroup, List.flatMap_cons, List.mem_append] at ih ⊢
      rw [ih]
      tauto

theorem mem_ungroup_group {pairs : List (κ × ν)} :
    pair ∈ ungroup (group pairs) ↔ pair ∈ pairs := by
  have hfold : ∀ grouped : List (κ × List ν),
      pair ∈ ungroup (pairs.foldl (fun grouped pair => addValue pair.1 pair.2 grouped) grouped) ↔
        pair ∈ ungroup grouped ∨ pair ∈ pairs := by
    induction pairs with
    | nil => simp
    | cons first pairs ih =>
      intro grouped
      rw [List.foldl_cons, ih, mem_ungroup_addValue, List.mem_cons]
      tauto
  have hgroup := hfold []
  rwa [show ungroup ([] : List (κ × List ν)) = [] from rfl, or_iff_right List.not_mem_nil]
    at hgroup

omit [DecidableEq κ] in
theorem mem_ungroup_filter {keep : κ → Bool} {grouped : List (κ × List ν)} :
    pair ∈ ungroup (grouped.filter fun entry => keep entry.1) ↔
      pair ∈ ungroup grouped ∧ keep pair.1 = true := by
  simp only [ungroup, List.mem_flatMap, List.mem_filter, List.mem_map]
  constructor
  · rintro ⟨entry, ⟨hentry, hkept⟩, value, hvalue, rfl⟩
    exact ⟨⟨entry, hentry, value, hvalue, rfl⟩, hkept⟩
  · rintro ⟨⟨entry, hentry, value, hvalue, rfl⟩, hkept⟩
    exact ⟨entry, ⟨hentry, hkept⟩, value, hvalue, rfl⟩

/-- Pairs whose names differ are grouped one by one. -/
theorem group_of_nodup {pairs : List (κ × ν)} (hnames : (pairs.map Prod.fst).Nodup) :
    group pairs = pairs.map fun pair => (pair.1, [pair.2]) := by
  have hfold : ∀ grouped : List (κ × List ν),
      (grouped.map Prod.fst ++ pairs.map Prod.fst).Nodup →
      pairs.foldl (fun grouped pair => addValue pair.1 pair.2 grouped) grouped =
        grouped ++ pairs.map fun pair => (pair.1, [pair.2]) := by
    clear hnames
    induction pairs with
    | nil => simp
    | cons pair pairs ih =>
      intro grouped hnodup
      have hfresh : pair.1 ∉ grouped.map Prod.fst := by
        intro hmem
        rw [List.nodup_append] at hnodup
        exact hnodup.2.2 pair.1 hmem pair.1 (.head _) rfl
      rw [List.foldl_cons, addValue_new hfresh, ih, List.append_assoc]
      · rfl
      · simpa using hnodup
  exact hfold [] hnames

omit [DecidableEq κ] in
/-- Filtering single values by their names filters the pairs. -/
theorem ungroup_filter_singletons (keep : κ → Bool) (pairs : List (κ × ν)) :
    ungroup ((pairs.map fun pair => (pair.1, [pair.2])).filter fun entry => keep entry.1) =
      pairs.filter fun pair => keep pair.1 := by
  induction pairs with
  | nil => rfl
  | cons pair pairs ih =>
    rw [List.map_cons, List.filter_cons, List.filter_cons]
    split
    · rw [ungroup, List.flatMap_cons, ← ungroup, ih]
      rfl
    · exact ih

end JobApplyAgent.Library.QueryString
