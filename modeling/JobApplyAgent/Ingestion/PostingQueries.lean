import JobApplyAgent.Ingestion.PostingPaths

/-!
# Queries of posting addresses

What the parsers make of a query that normalization has filtered and encoded anew.
-/

namespace JobApplyAgent.Ingestion

open Library Library.QueryString Library.UrlText

variable {tables : IdentityTables}

/-! ## The encoded query -/

def keptPairs (tables : IdentityTables) (query : List Char) : List (List Char × List Char) :=
  ungroup (filteredQuery tables.toUrlTables query)

theorem filteredQuery_eq (query : List Char) :
    filteredQuery tables.toUrlTables query =
      (group (parseQsl query)).filter fun entry => keepsParam tables.toUrlTables entry.1 := by
  unfold filteredQuery
  split
  · next hnone =>
    rw [hnone]
    rfl
  · rfl

theorem mem_keptPairs :
    pair ∈ keptPairs tables query ↔
      pair ∈ parseQsl query ∧ keepsParam tables.toUrlTables pair.1 = true := by
  rw [keptPairs, filteredQuery_eq, mem_ungroup_filter, mem_ungroup_group]

theorem keptPairs_of_nodup (hnames : ((parseQsl query).map Prod.fst).Nodup) :
    keptPairs tables query =
      (parseQsl query).filter fun pair => keepsParam tables.toUrlTables pair.1 := by
  rw [keptPairs, filteredQuery_eq, group_of_nodup hnames, ungroup_filter_singletons]

theorem parseQsl_encoded (query : List Char) :
    parseQsl (urlencode (filteredQuery tables.toUrlTables query)) = keptPairs tables query :=
  parseQsl_write _

theorem encoded_eq_nil_iff :
    urlencode (filteredQuery tables.toUrlTables query) = [] ↔ keptPairs tables query = [] := by
  constructor
  · intro hnone
    rw [← parseQsl_encoded, hnone]
    rfl
  · intro hnone
    rw [urlencode, ← keptPairs, hnone]
    rfl

/-! ## What the parsers allow -/

/-- A parser takes a pair of an encoded query. -/
def Ats.allowsPair (tables : IdentityTables) : Ats → List Char × List Char → Bool
  | .greenhouse => fun pair => isPlain pair.1 && isPlain pair.2
      && Greenhouse.queryKeys.contains (tables.casefold pair.1)
  | .ashby => Ashby.allowsEntry tables
  | .lever | .smartRecruiters => fun _ => false

/-- Every pair of a query that normalization keeps is one that the parser takes. -/
def QueryKept (tables : IdentityTables) (ats : Ats) (query : List Char) : Prop :=
  ∀ pair ∈ parseQsl query, keepsParam tables.toUrlTables pair.1 = true →
    ats.allowsPair tables pair = true

instance (tables : IdentityTables) (ats : Ats) (query : List Char) :
    Decidable (QueryKept tables ats query) :=
  inferInstanceAs (Decidable (∀ pair ∈ parseQsl query, _))

theorem queryKept_iff :
    QueryKept tables ats query ↔
      ∀ pair ∈ keptPairs tables query, ats.allowsPair tables pair = true := by
  simp only [QueryKept, mem_keptPairs, and_imp]

/-- A parser that takes no query takes none that is kept. -/
theorem encoded_eq_nil_iff_queryKept (hnone : ∀ pair, ats.allowsPair tables pair = false) :
    urlencode (filteredQuery tables.toUrlTables query) = [] ↔ QueryKept tables ats query := by
  rw [encoded_eq_nil_iff, queryKept_iff, List.eq_nil_iff_forall_not_mem]
  simp only [hnone, Bool.false_eq_true, imp_false]

/-! ## Ashby -/

namespace Ashby

/-- Strict parsing reads the kept pairs from the encoded query. -/
theorem parseQslStrict_encoded (maximum : ℕ) (query : List Char) :
    parseQslStrict maximum (urlencode (filteredQuery tables.toUrlTables query)) =
      if maximum < (keptPairs tables query).length then none
      else some (keptPairs tables query) := by
  by_cases hnone : keptPairs tables query = []
  · rw [encoded_eq_nil_iff.mpr hnone, hnone]
    rfl
  · have hsome := encoded_eq_nil_iff.not.mpr hnone
    have hwritten : ∀ piece ∈ (keptPairs tables query).map writePair,
        '&' ∉ piece ∧ piece.contains '=' = true := by
      intro piece hpiece
      obtain ⟨pair, _, rfl⟩ := List.mem_map.mp hpiece
      constructor
      · intro hmem
        exact absurd (mem_writePair hmem) (by decide)
      · rw [List.contains_iff_mem]
        simp [writePair]
    have hpieces : (urlencode (filteredQuery tables.toUrlTables query)).splitOn '&' =
        (keptPairs tables query).map writePair := by
      rw [urlencode, ← keptPairs, List.splitOn_intercalate '&'
        (fun piece hpiece => (hwritten piece hpiece).1) (by simpa using hnone)]
    have hall : ((keptPairs tables query).map writePair).all (·.contains '=') = true :=
      List.all_eq_true.mpr fun piece hpiece => (hwritten piece hpiece).2
    have hread : ((keptPairs tables query).map writePair).map readPair =
        keptPairs tables query := by
      rw [List.map_map]
      calc (keptPairs tables query).map (readPair ∘ writePair) =
            (keptPairs tables query).map id :=
            List.map_congr_left fun pair _ => readPair_writePair pair
        _ = keptPairs tables query := List.map_id _
    rw [parseQslStrict, if_neg hsome]
    simp only [hpieces, List.length_map, hall, hread]
    simp

theorem entries_of_parseQslStrict (hread : parseQslStrict maximum query = some entries) :
    entries = parseQsl query ∧ entries.length ≤ maximum ∧
      (query = [] ∨ ∀ piece ∈ query.splitOn '&', '=' ∈ piece) := by
  unfold parseQslStrict at hread
  split at hread
  · next hnone =>
    subst hnone
    rw [Option.some.injEq] at hread
    subst hread
    exact ⟨rfl, Nat.zero_le _, .inl rfl⟩
  · simp only at hread
    split at hread
    · cases hread
    next hvalid =>
    rw [Option.some.injEq] at hread
    simp only [Bool.or_eq_true, decide_eq_true_eq, not_or, Nat.not_lt, Bool.not_eq_true,
      Bool.not_eq_false'] at hvalid
    have hall : ∀ piece ∈ query.splitOn '&', '=' ∈ piece := by
      simpa using hvalid.2
    have hsome : ∀ piece ∈ query.splitOn '&', (!piece.isEmpty) = true := by
      intro piece hpiece
      have hne := List.ne_nil_of_mem (hall piece hpiece)
      simpa using hne
    refine ⟨?_, ?_, .inr hall⟩
    · rw [← hread, parseQsl, List.filter_eq_self.mpr hsome]
    · rw [← hread, List.length_map]
      exact hvalid.1

theorem validateQuery_eq_ok : validateQuery tables query = .ok () ↔
    ∃ entries, parseQslStrict maxQueryItems query = some entries ∧
      (∀ entry ∈ entries, allowsEntry tables entry = true) ∧
      (entries.map (entryKey tables)).Nodup := by
  unfold validateQuery
  cases hread : parseQslStrict maxQueryItems query with
  | none => simp
  | some entries => simp [List.all_eq_true]

theorem names_behind (hpair : '&' ∉ behind) (hmaximum : 1 ≤ maximum)
    (hread : parseQslStrict maximum query = some entries)
    (hkeys : (entries.map (entryKey tables)).Nodup) :
    ((parseQsl (query ++ behind)).map (entryKey tables)).Nodup ∧
      (parseQsl (query ++ behind)).length ≤ maximum := by
  obtain ⟨rfl, hlength, hpieces⟩ := entries_of_parseQslStrict hread
  by_cases hempty : query = []
  · have hsingle := @parseQsl_of_splitOn _ _ [] (List.splitOn_eq_singleton hpair)
    rw [List.filter_nil, List.map_nil, List.nil_append] at hsingle
    rw [hempty, List.nil_append, hsingle]
    split
    · exact ⟨List.nodup_nil, Nat.zero_le _⟩
    · exact ⟨List.nodup_singleton _, hmaximum⟩
  · have hall := hpieces.resolve_left hempty
    rcases parseQsl_behind query hpair with ⟨hnil, _⟩ | ⟨before, name, value, hfirst, hsecond, _⟩ |
      ⟨_, piece, _, hpiece, hnone⟩
    · exact absurd (hall [] hnil) List.not_mem_nil
    · rw [hfirst] at hkeys hlength
      rw [hsecond]
      rw [List.map_append] at hkeys ⊢
      rw [List.length_append] at hlength ⊢
      exact ⟨hkeys, hlength⟩
    · exact absurd (hall piece hpiece) hnone

/-- The encoded query is accepted if and only if every kept pair is allowed. -/
theorem validateQuery_encoded (hpair : '&' ∉ behind)
    (hquery : validateQuery tables query = .ok ()) :
    validateQuery tables (urlencode (filteredQuery tables.toUrlTables (query ++ behind))) =
      .ok () ↔ QueryKept tables .ashby (query ++ behind) := by
  obtain ⟨entries, hread, _, hkeys⟩ := validateQuery_eq_ok.mp hquery
  obtain ⟨hnodup, hlength⟩ := names_behind hpair (by decide) hread hkeys
  have hnames : ((parseQsl (query ++ behind)).map Prod.fst).Nodup := by
    apply List.Nodup.of_map fun name => tables.casefold (stripBy isSpace name)
    rw [List.map_map]
    exact hnodup
  have hkept := @keptPairs_of_nodup tables _ hnames
  have hsublist : (keptPairs tables (query ++ behind)).Sublist (parseQsl (query ++ behind)) := by
    rw [hkept]
    exact List.filter_sublist
  have hbound := Nat.le_trans hsublist.length_le hlength
  rw [validateQuery_eq_ok, parseQslStrict_encoded, if_neg (Nat.not_lt.mpr hbound), queryKept_iff]
  constructor
  · rintro ⟨found, heq, hallowed, _⟩
    rw [Option.some.injEq] at heq
    subst heq
    exact hallowed
  · intro hallowed
    exact ⟨_, rfl, hallowed, hnodup.sublist (hsublist.map _)⟩

end Ashby

/-! ## Greenhouse -/

namespace Greenhouse

theorem boundedQuery_eq_ok :
    boundedQuery tables query = .ok values ↔
      values = (parseQsl query).map (readValue tables) ∧ '\\' ∉ query ∧ '%' ∉ query ∧
        (∀ char ∈ query, isControl char = false) ∧
        (parseQsl query).length ≤ 4 ∧ acceptsValues values = true := by
  simp only [boundedQuery]
  split
  · next hrefused =>
    constructor
    · intro hnone
      cases hnone
    · rintro ⟨rfl, hback, hpercent, hcontrol, hlength, haccepted⟩
      exfalso
      have hany : query.any isControl = false := by
        rw [List.any_eq_false]
        intro char hchar
        rw [hcontrol char hchar]
        decide
      simp [hback, hpercent, hany, haccepted, Nat.not_lt.mpr hlength] at hrefused
  · next haccepted =>
    simp only [Bool.or_eq_true, List.contains_eq_mem, decide_eq_true_eq, not_or,
      Bool.not_eq_true, Bool.not_eq_false', List.length_map, Nat.not_lt,
      List.any_eq_false] at haccepted
    obtain ⟨⟨⟨⟨hback, hpercent⟩, hcontrol⟩, hlength⟩, haccepts⟩ := haccepted
    rw [Except.ok.injEq]
    constructor
    · rintro rfl
      exact ⟨rfl, hback, hpercent, hcontrol, hlength, haccepts⟩
    · rintro ⟨rfl, _⟩
      rfl

theorem accepted_value (haccepted : acceptsValues values = true) :
    (values.map Prod.fst).Nodup ∧
      ∀ entry ∈ values, entry.1 ∈ queryKeys ∧ entry.2 ≠ [] := by
  simp only [acceptsValues, Bool.and_eq_true, decide_eq_true_eq, List.all_eq_true,
    List.contains_iff_mem, Bool.not_eq_true', List.isEmpty_eq_false_iff] at haccepted
  exact ⟨haccepted.1.1, fun entry hentry => (haccepted.1.2 entry hentry).1⟩

theorem keepsParam_of_queryKey (hlawful : tables.Lawful)
    (hname : tables.casefold name ∈ queryKeys) :
    keepsParam tables.toUrlTables name = true := by
  rw [keepsParam, Bool.or_eq_true, decide_eq_true_eq]
  left
  intro htracking
  have hapart : ∀ tracking ∈ trackingParams,
      (tracking.all fun char => decide (char.toNat < 128)) = true ∧
        tracking.map Char.toLower ∉ queryKeys := by
    decide
  obtain ⟨hascii, hnot⟩ := hapart _ htracking
  apply hnot
  rw [← casefold_ascii hlawful (forall_mem_of_all hascii), hlawful.casefold_lower]
  exact hname

theorem blank_not_key (hlawful : tables.Lawful) (hsome : blank ≠ [])
    (hspace : ∀ char ∈ blank, isSpace char = true) :
    tables.casefold blank ∉ queryKeys := by
  obtain ⟨first, rest, rfl⟩ := List.exists_cons_of_ne_nil hsome
  have hkeys : ∀ key ∈ queryKeys, (key.all fun char => !isSpace char) = true := by decide
  intro hmem
  have hink := List.all_eq_true.mp (hkeys _ hmem) first (by
    rw [IdentityTables.casefold, List.flatMap_cons,
      hlawful.fold_space first (hspace first (.head _))]
    exact .head _)
  rw [hspace first (.head _)] at hink
  cases hink

theorem spaced_blank (hbehind : ∀ char ∈ behind, isSpace char = true) :
    spaced behind = behind := by
  calc spaced behind = behind.map id := by
        apply List.map_congr_left
        intro char hchar
        rw [if_neg]
        · rfl
        · rintro rfl
          exact absurd (hbehind '+' hchar) (by decide)
    _ = behind := List.map_id _

theorem stripBy_behind (text : List Char)
    (hbehind : ∀ char ∈ behind, isSpace char = true) :
    stripBy isSpace (text ++ behind) = stripBy isSpace text := by
  have htail : ∀ front : List Char,
      (front ++ behind).rdropWhile isSpace = front.rdropWhile isSpace := by
    intro front
    rw [List.rdropWhile, List.reverse_append, List.dropWhile_append_of_pos, List.rdropWhile]
    exact fun char hchar => hbehind char (List.mem_reverse.mp hchar)
  rw [stripBy, stripBy, List.dropWhile_append]
  split
  · next hempty =>
    rw [List.isEmpty_iff.mp hempty, List.dropWhile_eq_nil_iff.mpr hbehind]
  · exact htail _

theorem readValue_behind (hvalue : '%' ∉ value)
    (hbehind : ∀ char ∈ behind, isSpace char = true) :
    readValue tables (name, unquotePlus (value ++ behind)) =
      readValue tables (name, unquotePlus value) := by
  have hplain : ∀ mark, isSpace mark = false → mark ∉ behind := by
    intro mark hink hmem
    rw [hbehind mark hmem] at hink
    cases hink
  have hboth : '%' ∉ value ++ behind := by
    rw [List.mem_append, not_or]
    exact ⟨hvalue, hplain '%' (by decide)⟩
  rw [readValue, readValue, unquotePlus_plain hboth, unquotePlus_plain hvalue, spaced_append,
    spaced_blank hbehind, stripBy_behind _ hbehind]

/-- A percent sign is written where a kept pair is not plain. -/
theorem percent_mem_encoded :
    '%' ∈ urlencode (filteredQuery tables.toUrlTables query) ↔
      ∃ pair ∈ keptPairs tables query, isPlain pair.1 = false ∨ isPlain pair.2 = false := by
  have hwritten : ∀ pair : List Char × List Char,
      '%' ∈ writePair pair ↔ isPlain pair.1 = false ∨ isPlain pair.2 = false := by
    intro pair
    rw [writePair, List.mem_append, List.mem_cons, percent_mem_quotePlus, percent_mem_quotePlus]
    simp
  constructor
  · intro hmem
    rcases mem_of_mem_intercalate hmem with hseparator | ⟨piece, hpiece, hmem⟩
    · exact absurd hseparator (by decide)
    · obtain ⟨pair, hpair, rfl⟩ := List.mem_map.mp hpiece
      exact ⟨pair, hpair, (hwritten pair).mp hmem⟩
  · rintro ⟨pair, hpair, hescaped⟩
    exact (infix_intercalate (List.mem_map.mpr ⟨pair, hpair, rfl⟩)).subset
      ((hwritten pair).mpr hescaped)

theorem blank_pair_not_key (hlawful : tables.Lawful)
    (hbehind : ∀ char ∈ behind, isSpace char = true) :
    ∀ pair ∈ parseQsl behind, tables.casefold pair.1 ∉ queryKeys := by
  have hplain : ∀ mark, isSpace mark = false → mark ∉ behind := by
    intro mark hink hmem
    rw [hbehind mark hmem] at hink
    cases hink
  intro pair hmem
  rw [@parseQsl_of_splitOn _ _ [] (List.splitOn_eq_singleton (hplain '&' (by decide))),
    List.filter_nil, List.map_nil, List.nil_append] at hmem
  split at hmem
  · cases hmem
  next hsome =>
  rw [List.mem_singleton.mp hmem, readPair_of_notMem (hplain '=' (by decide)),
    unquotePlus_plain (hplain '%' (by decide)), spaced_blank hbehind]
  exact blank_not_key hlawful hsome hbehind

theorem readValue_keptPairs (hlawful : tables.Lawful)
    (hbehind : ∀ char ∈ behind, isSpace char = true)
    (hquery : boundedQuery tables query = .ok values)
    (hkept : QueryKept tables .greenhouse (query ++ behind)) :
    (keptPairs tables (query ++ behind)).map (readValue tables) = values := by
  obtain ⟨hvalues, _, hpercent, _, _, haccepted⟩ := boundedQuery_eq_ok.mp hquery
  obtain ⟨hnodup, haccepted⟩ := accepted_value haccepted
  have hpair : '&' ∉ behind := fun hmem => absurd (hbehind '&' hmem) (by decide)
  have hfolded : ((parseQsl query).map fun pair => tables.casefold pair.1).Nodup := by
    rw [hvalues, List.map_map] at hnodup
    exact hnodup
  have hnames : ∀ pairs : List (List Char × List Char),
      (pairs.map fun pair => tables.casefold pair.1).Nodup → (pairs.map Prod.fst).Nodup := by
    intro pairs hpairs
    apply List.Nodup.of_map tables.casefold
    rw [List.map_map]
    exact hpairs
  have hkeys : ∀ pair ∈ parseQsl query, tables.casefold pair.1 ∈ queryKeys := by
    intro pair hmem
    refine (haccepted (readValue tables pair) ?_).1
    rw [hvalues]
    exact List.mem_map_of_mem hmem
  have hkeeps : ∀ pairs : List (List Char × List Char),
      (∀ pair ∈ pairs, tables.casefold pair.1 ∈ queryKeys) →
      (pairs.filter fun pair => keepsParam tables.toUrlTables pair.1) = pairs := by
    intro pairs hpairs
    exact List.filter_eq_self.mpr fun pair hmem =>
      keepsParam_of_queryKey hlawful (hpairs pair hmem)
  rcases parseQsl_behind query hpair with ⟨_, happend⟩ |
    ⟨before, name, value, hfirst, hsecond, hsubset⟩ | ⟨before, piece, hfirst, _, _⟩
  · have hown : ∀ pair ∈ parseQsl behind, tables.casefold pair.1 ∉ queryKeys :=
      blank_pair_not_key hlawful hbehind
    have hsingle : ((parseQsl behind).map Prod.fst).Nodup := by
      rw [@parseQsl_of_splitOn _ _ [] (List.splitOn_eq_singleton hpair)]
      split <;> simp
    have hdistinct : ((parseQsl (query ++ behind)).map Prod.fst).Nodup := by
      rw [happend, List.map_append, List.nodup_append]
      refine ⟨hnames _ hfolded, hsingle, ?_⟩
      intro name hname other hother heq
      obtain ⟨pair, hmem, rfl⟩ := List.mem_map.mp hname
      obtain ⟨later, hlater, rfl⟩ := List.mem_map.mp hother
      exact hown later hlater (heq ▸ hkeys pair hmem)
    have hdropped : ((parseQsl behind).filter fun pair =>
        keepsParam tables.toUrlTables pair.1) = [] := by
      rw [List.filter_eq_nil_iff]
      intro pair hmem hkeep
      have hallowed := hkept pair (by rw [happend]; exact List.mem_append_right _ hmem) hkeep
      simp only [Ats.allowsPair, Bool.and_eq_true, List.contains_iff_mem] at hallowed
      exact hown pair hmem hallowed.2
    rw [keptPairs_of_nodup hdistinct, happend, List.filter_append, hdropped, hkeeps _ hkeys,
      List.append_nil, hvalues]
  · have hsame : (parseQsl (query ++ behind)).map (fun pair => tables.casefold pair.1) =
        (parseQsl query).map fun pair => tables.casefold pair.1 := by
      rw [hfirst, hsecond, List.map_append, List.map_append]
      rfl
    have hbehindKeys : ∀ pair ∈ parseQsl (query ++ behind),
        tables.casefold pair.1 ∈ queryKeys := by
      intro pair hmem
      have hfound := List.mem_map_of_mem (f := fun pair => tables.casefold pair.1) hmem
      rw [hsame] at hfound
      obtain ⟨source, hsource, heq⟩ := List.mem_map.mp hfound
      exact heq ▸ hkeys source hsource
    rw [keptPairs_of_nodup (hnames _ (hsame ▸ hfolded)), hkeeps _ hbehindKeys, hvalues, hfirst,
      hsecond, List.map_append, List.map_append, List.map_singleton, List.map_singleton,
      readValue_behind (fun hmem => hpercent (hsubset hmem)) hbehind]
  · exfalso
    have hempty := (haccepted (readValue tables (unquotePlus piece, unquotePlus [])) (by
      rw [hvalues, hfirst]
      exact List.mem_map_of_mem (List.mem_append_right _ (.head _)))).2
    exact hempty rfl

/-- The encoded query is accepted if and only if every kept pair is allowed, and then it has the
values of the query. -/
theorem boundedQuery_encoded (hlawful : tables.Lawful)
    (hbehind : ∀ char ∈ behind, isSpace char = true)
    (hquery : boundedQuery tables query = .ok values) (found : Values) :
    boundedQuery tables (urlencode (filteredQuery tables.toUrlTables (query ++ behind))) =
      .ok found ↔ QueryKept tables .greenhouse (query ++ behind) ∧ found = values := by
  rw [boundedQuery_eq_ok, parseQsl_encoded, percent_mem_encoded]
  constructor
  · rintro ⟨rfl, _, hpercent, _, _, haccepted⟩
    have hkept : QueryKept tables .greenhouse (query ++ behind) := by
      rw [queryKept_iff]
      intro pair hmem
      have hkey := ((accepted_value haccepted).2 _ (List.mem_map_of_mem hmem)).1
      simp only [not_exists, not_and, not_or, Bool.not_eq_false] at hpercent
      simp only [Ats.allowsPair, Bool.and_eq_true, List.contains_iff_mem]
      exact ⟨hpercent pair hmem, hkey⟩
    exact ⟨hkept, readValue_keptPairs hlawful hbehind hquery hkept⟩
  · rintro ⟨hkept, rfl⟩
    have hvalues := readValue_keptPairs hlawful hbehind hquery hkept
    obtain ⟨hread, _, _, _, hlength, haccepted⟩ := boundedQuery_eq_ok.mp hquery
    have hencoded : ∀ char ∈ urlencode
        (filteredQuery tables.toUrlTables (query ++ behind)),
        char ≠ '\\' ∧ isControl char = false := by
      have hquoted : ∀ code < 128, Quoted (Char.ofNat code) →
          Char.ofNat code ≠ '\\' ∧ isControl (Char.ofNat code) = false := by
        decide
      intro char hchar
      rcases mem_urlencode hchar with hmem | hmark
      · have hplain := hquoted char.toNat hmem.toNat_lt
        rw [Char.ofNat_toNat] at hplain
        exact hplain hmem
      · simp only [List.mem_cons, List.not_mem_nil, or_false] at hmark
        rcases hmark with rfl | rfl <;> decide
    refine ⟨hvalues.symm, fun hmem => (hencoded _ hmem).1 rfl, ?_,
      fun char hchar => (hencoded char hchar).2, ?_, haccepted⟩
    · rintro ⟨pair, hmem, hescaped⟩
      have hallowed := queryKept_iff.mp hkept pair hmem
      simp only [Ats.allowsPair, Bool.and_eq_true] at hallowed
      rw [hallowed.1.1, hallowed.1.2] at hescaped
      simp at hescaped
    · have hcount := congrArg List.length (hvalues.trans hread)
      rw [List.length_map, List.length_map] at hcount
      rw [hcount]
      exact hlength

end Greenhouse

end JobApplyAgent.Ingestion
