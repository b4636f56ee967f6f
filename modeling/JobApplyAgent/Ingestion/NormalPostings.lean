import JobApplyAgent.Ingestion.PostingPaths
import JobApplyAgent.Library.UrlReading

/-!
# Normal forms of posting addresses

The parsers strip an address and normalization does not.  What a parser reads of the normal
form of an address that it accepts: the same host and port, the same path up to its trailing
slashes, and the query that normalization has read behind the blanks.
-/

namespace JobApplyAgent.Ingestion

open Library Library.QueryString Library.UrlText

variable {tables : IdentityTables}

/-! ## Paths and queries behind a host -/

variable {path query url : List Char}

theorem readPath_query (hquestion : '?' ∉ path) (hhash : '#' ∉ path ++ query) :
    readPath (path ++ trailing '?' query) = (path, query, []) := by
  have hnone : '#' ∉ path ++ trailing '?' query := by
    intro hmem
    apply hhash
    rw [List.mem_append] at hmem ⊢
    refine hmem.imp_right fun hquery => ?_
    exact (mem_trailing hquery).resolve_left (by decide)
  simp only [readPath, cutAt_of_notMem hnone, cutAt_trailing hquestion]

theorem lastSegment_append (before : List Char) (hslash : '/' ∈ path) :
    lastSegment (before ++ path) = lastSegment path := by
  have hmem : '/' ∈ path.reverse := List.mem_reverse.mpr hslash
  rw [lastSegment, lastSegment, List.rtakeWhile, List.rtakeWhile, List.reverse_append,
    takeWhile_append_of_mem hmem]

theorem located_append (spelling netloc after behind : List Char) :
    located spelling netloc after ++ behind = located spelling netloc (after ++ behind) := by
  simp [located]

theorem located_path (before spelling netloc path : List Char) :
    before ++ located spelling netloc path =
      (before ++ spelling ++ ':' :: '/' :: '/' :: netloc) ++ path := by
  simp [located]

theorem strippedPath_append (before : List Char) (hsome : ∃ char ∈ path, char ≠ '/') :
    strippedPath (before ++ path) = before ++ strippedPath path := by
  have hne : path.rdropWhile (· == '/') ≠ [] := by
    obtain ⟨char, hmem, hother⟩ := hsome
    rw [Ne, List.rdropWhile_eq_nil_iff]
    intro hall
    exact hother (by simpa using hall char hmem)
  have hreverse : path.reverse.dropWhile (· == '/') ≠ [] := by
    rw [List.rdropWhile] at hne
    simpa using hne
  have hwhole : (before ++ path).rdropWhile (· == '/') = before ++ path.rdropWhile (· == '/') := by
    rw [List.rdropWhile, List.reverse_append, List.dropWhile_append,
      if_neg (by simpa using hreverse), List.reverse_append, List.reverse_reverse,
      List.rdropWhile]
  rw [strippedPath, strippedPath, hwhole, if_neg hne, if_neg]
  exact List.append_ne_nil_of_right_ne_nil _ hne

/-! ## Reading a stripped address -/

/-- A path and a query that are read as they are written. -/
structure WrittenPath (path query : List Char) : Prop where
  rooted : path.head? = some '/'
  path : ∀ character ∈ path, character ≠ '?' ∧ character ≠ '#' ∧ isUnsafe character = false
  query : ∀ character ∈ query, character ≠ '#' ∧ isSpace character = false

theorem isSpace_of_isUnsafe (hmarked : isUnsafe char = true) :
    isSpace char = true := by
  simp only [isUnsafe, decide_eq_true_eq, List.mem_cons, List.not_mem_nil, or_false] at hmarked
  rcases hmarked with rfl | rfl | rfl <;> decide

def behindStripped (path query : List Char) : List Char :=
  if query = [] then path.rdropWhile isSpace else path

theorem rdropWhile_written (hwritten : WrittenPath path query) :
    (path ++ trailing '?' query).rdropWhile isSpace =
      behindStripped path query ++ trailing '?' query := by
  unfold behindStripped trailing
  split
  · rw [List.append_nil, List.append_nil]
  rw [List.rdropWhile_eq_self_iff]
  intro hne
  rw [List.getLast_append_of_ne_nil _ (List.cons_ne_nil _ _)]
  have hmem := List.getLast_mem (List.cons_ne_nil '?' query)
  rcases List.mem_cons.mp hmem with heq | hquery
  · rw [heq]
    decide
  · rw [(hwritten.query _ hquery).2]
    decide

theorem behindStripped_written (hwritten : WrittenPath path query) :
    WrittenPath (behindStripped path query) query := by
  have hsubset : ∀ char ∈ behindStripped path query, char ∈ path := by
    intro char hchar
    unfold behindStripped at hchar
    split at hchar
    · exact (List.rdropWhile_prefix _ _).subset hchar
    · exact hchar
  refine ⟨?_, fun char hchar => hwritten.path char (hsubset char hchar),
    hwritten.query⟩
  unfold behindStripped
  split
  · obtain ⟨rest, hrest⟩ := List.head?_eq_some_iff.mp hwritten.rooted
    have hkept : ('/' :: rest).rdropWhile isSpace = '/' :: rest.rdropWhile isSpace :=
      @rdropWhile_blank_append _ _ [] _ (by decide)
    rw [hrest, hkept]
    rfl
  · exact hwritten.rooted

/-- What a parser reads of an address, whatever blank text leads to it. -/
theorem candidateParts_located {spelling : List Char} {found : Option ℕ}
    (hlead : lead = [] ∨ Leads lead) (hspells : SpellsScheme spelling scheme)
    (hnetloc : ∀ char ∈ netloc,
      isDelimiter char = false ∧ isUnsafe char = false)
    (haccepted : tables.refuses netloc = false) (hport : port netloc = some found)
    (hwritten : WrittenPath path query) :
    candidateParts tables (lead ++ located spelling netloc (path ++ trailing '?' query)) =
      some ({ scheme, netloc, path := behindStripped path query, query, fragment := [] },
        found) := by
  have hstripped : ∀ char ∈ lead.dropWhile isSpace, isControlOrSpace char = true := by
    rcases hlead with rfl | hlead
    · simp
    · exact hlead.stripped
  have hslash : (path ++ trailing '?' query).head? = some '/' := by
    rw [List.head?_append, hwritten.rooted]
    rfl
  have hsafe : ∀ char ∈ netloc ++ (path ++ trailing '?' query),
      isUnsafe char = false := by
    intro char hchar
    rcases List.mem_append.mp hchar with hmem | hmem
    · exact (hnetloc char hmem).2
    rcases List.mem_append.mp hmem with hmem | hmem
    · exact (hwritten.path char hmem).2.2
    rcases mem_trailing hmem with rfl | hmem
    · decide
    · rw [Bool.eq_false_iff]
      intro hmarked
      have hspace := isSpace_of_isUnsafe hmarked
      rw [(hwritten.query char hmem).2] at hspace
      cases hspace
  have hclean := clean_stripBy hstripped hspells hslash hsafe
  rw [rdropWhile_written hwritten] at hclean
  have hkept := behindStripped_written hwritten
  have hdelimited : Delimited (behindStripped path query ++ trailing '?' query) := by
    intro char hhead
    rw [List.head?_append, hkept.rooted] at hhead
    cases hhead
    rfl
  have hread : readPath (behindStripped path query ++ trailing '?' query) =
      (behindStripped path query, query, []) := by
    apply readPath_query
    · exact fun hmem => (hkept.path '?' hmem).1 rfl
    · intro hmem
      rcases List.mem_append.mp hmem with hmem | hmem
      · exact (hkept.path '#' hmem).2.1 rfl
      · exact (hkept.query '#' hmem).1 rfl
  rw [candidateParts, urlsplit_located hclean hspells
    (fun char hchar => (hnetloc char hchar).1) hdelimited haccepted, hread]
  simp [hport]

/-! ## The normal form -/

theorem rdropWhile_of_ink (hink : ∀ char ∈ path, isSpace char = false)
    (behind : List Char) (hbehind : ∀ char ∈ behind, isSpace char = true) :
    (path ++ behind).rdropWhile isSpace = path := by
  rw [List.rdropWhile, List.reverse_append, List.dropWhile_append_of_pos]
  · rw [← List.rdropWhile, List.rdropWhile_eq_self_iff]
    intro hne
    rw [hink _ (List.getLast_mem hne)]
    decide
  · intro char hchar
    exact hbehind char (List.mem_reverse.mp hchar)

/-- Slashes and blanks behind a path are taken away, in either order. -/
theorem behindStripped_strippedPath (hplain : PlainPath path)
    (hbehind : ∀ char ∈ behind, isSpace char = true) (hquery : behind = [] ∨ query = []) :
    behindStripped (strippedPath (path ++ behind)) query = path ∨
      behindStripped (strippedPath (path ++ behind)) query = strippedPath path := by
  by_cases hnone : behind = []
  · right
    subst hnone
    obtain ⟨count, hslashes⟩ := hplain.slashes
    rw [List.append_nil]
    unfold behindStripped
    split
    · have hkept := @rdropWhile_of_ink (strippedPath path)
        (fun char hchar => (hplain.characters char (hslashes.subset hchar)).2)
        [] (by simp)
      rwa [List.append_nil] at hkept
    · rfl
  · left
    have hlast : (path ++ behind).rdropWhile (· == '/') = path ++ behind := by
      rw [List.rdropWhile_eq_self_iff]
      intro hne heq
      rw [List.getLast_append_of_ne_nil _ hnone, beq_iff_eq] at heq
      have hspace := hbehind _ (List.getLast_mem hnone)
      rw [heq] at hspace
      exact absurd hspace (by decide)
    rw [behindStripped, if_pos (hquery.resolve_left hnone), strippedPath, hlast, if_neg]
    · exact rdropWhile_of_ink (fun char hchar =>
        (hplain.characters char hchar).2) behind hbehind
    · exact List.append_ne_nil_of_right_ne_nil _ hnone

theorem encoded_written (query : Query) (hplain : PlainPath path)
    (hpath : ∀ char ∈ path, char ≠ '?' ∧ char ≠ '#' ∧ isUnsafe char = false)
    (hbehind : ∀ char ∈ behind,
      isSpace char = true ∧ isUnsafe char = false) :
    WrittenPath (strippedPath (path ++ behind)) (urlencode query) where
  rooted := by
    apply strippedPath_head
    right
    rw [List.head?_append, hplain.rooted]
    rfl
  path := by
    intro char hchar
    rcases strippedPath_eq (path ++ behind) with heq | ⟨heq, _⟩
    · rw [heq, List.mem_singleton] at hchar
      subst hchar
      decide
    · rw [heq] at hchar
      rcases List.mem_append.mp ((List.rdropWhile_prefix _ _).subset hchar) with hmem | hmem
      · exact hpath char hmem
      obtain ⟨hspace, hsafe⟩ := hbehind char hmem
      refine ⟨?_, ?_, hsafe⟩
      · rintro rfl
        exact absurd hspace (by decide)
      · rintro rfl
        exact absurd hspace (by decide)
  query := by
    have hquoted : ∀ code < 128, Quoted (Char.ofNat code) → isSpace (Char.ofNat code) = false := by
      decide
    intro char hchar
    rcases mem_urlencode hchar with hmem | hmark
    · refine ⟨hmem.ne (by decide), ?_⟩
      have hink := hquoted char.toNat hmem.toNat_lt
      rw [Char.ofNat_toNat] at hink
      exact hink hmem
    · simp only [List.mem_cons, List.not_mem_nil, or_false] at hmark
      rcases hmark with rfl | rfl <;> decide

theorem barePath_plain {before : List Char} (hpath : parts.path = before ++ (path ++ behind))
    (hplain : PlainPath path) (hbehind : ∀ char ∈ behind, isSpace char = true) :
    barePath parts = parts.path := by
  apply barePath_of_not_exposed
  rintro ⟨_, hmem⟩
  have hslash : '/' ∈ path ++ behind := by
    apply List.mem_append_left
    exact List.mem_of_mem_head? hplain.rooted
  rw [hpath, lastSegment_append _ hslash] at hmem
  rcases List.mem_append.mp ((lastSegment_isSuffix _).subset hmem) with hmem | hmem
  · exact (hplain.characters ';' hmem).1 rfl
  · exact absurd (hbehind ';' hmem) (by decide)

theorem spells_https : SpellsScheme "https".toList "https".toList where
  begins := by decide
  characters := forall_mem_of_all (by decide)
  lower := by decide

theorem SameHost.wellSplit (hsame : SameHost tables netloc other)
    (hnetloc : ∀ char ∈ netloc,
      isDelimiter char = false ∧ isUnsafe char = false) :
    ∀ char ∈ other, isDelimiter char = false ∧ isUnsafe char = false := by
  intro char hchar
  constructor
  · rw [Bool.eq_false_iff]
    intro hdelimiter
    have hmem := hsame.characters char hchar (.inl hdelimiter)
    rw [(hnetloc char hmem).1] at hdelimiter
    cases hdelimiter
  · rw [Bool.eq_false_iff]
    intro hmarked
    have hmem := hsame.characters char hchar (.inr hmarked)
    rw [(hnetloc char hmem).2] at hmarked
    cases hmarked

theorem urlunsplit_https (hnetloc : netloc ≠ []) (hrooted : path.head? = some '/') :
    urlunsplit { scheme := "https".toList, netloc, path, query, fragment := [] } =
      located "https".toList netloc (path ++ trailing '?' query) := by
  have hpath : hierarchy { scheme := "https".toList, netloc, path, query, fragment := [] } =
      '/' :: '/' :: (netloc ++ path) := by
    rw [hierarchy, if_pos hnetloc, if_neg fun hother => hother.2 hrooted]
  have hscheme : ¬"https".toList = [] := by decide
  rw [urlunsplit, hpath]
  simp only [if_neg hscheme]
  simp [located, trailing]

theorem urlunsplit_led (hlead : Leads lead) :
    urlunsplit { scheme := [], netloc := [], path := lead ++ path, query, fragment := [] } =
      lead ++ (path ++ trailing '?' query) := by
  obtain ⟨first, hfirst, _⟩ := hlead.begins
  obtain ⟨rest, rfl⟩ := List.head?_eq_some_iff.mp hfirst
  have hslash : first ≠ '/' := by
    rintro rfl
    exact hlead.notMem (by decide) (by decide) (.head _)
  have hpath : hierarchy
      { scheme := [], netloc := [], path := first :: rest ++ path, query := query,
        fragment := [] } = first :: rest ++ path := by
    rw [hierarchy, if_neg (by simp), if_neg, if_neg]
    · simp [usesNetloc]
    · rw [List.cons_append, List.take_succ_cons]
      exact fun heq => hslash (List.cons.inj heq).1
  rw [urlunsplit, hpath]
  simp [trailing]

/-- What normalization reads of an address that a parser reads as `parts`. -/
structure Surrounded (tables : IdentityTables) (url : List Char) (parts : SplitUrl)
    (pathBehind queryBehind : List Char) : Prop where
  path : ∀ character ∈ pathBehind, isSpace character = true ∧ isUnsafe character = false
  query : ∀ character ∈ queryBehind, isSpace character = true
  only : pathBehind = [] ∨ parts.query ++ queryBehind = []
  split : ∃ fragment,
    urlsplit tables.refuses url = some {
      scheme := parts.scheme
      netloc := parts.netloc
      path := parts.path ++ pathBehind
      query := parts.query ++ queryBehind
      fragment } ∨
    ∃ lead spelling, Leads lead ∧ SpellsScheme spelling parts.scheme ∧
      urlsplit tables.refuses url = some {
        scheme := []
        netloc := []
        path := lead ++ located spelling parts.netloc (parts.path ++ pathBehind)
        query := parts.query ++ queryBehind
        fragment }

theorem surrounded (hsplit : urlsplit tables.refuses (stripBy isSpace url) = some parts)
    (hscheme : parts.scheme ≠ []) (hnetloc : parts.netloc ≠ []) (hpath : parts.path ≠ [])
    (hfragment : parts.fragment = []) :
    ∃ pathBehind queryBehind, Surrounded tables url parts pathBehind queryBehind := by
  obtain ⟨front, rest, hurl, hfront, hrest⟩ := exists_core isSpace url
  obtain ⟨hwell, haccepted⟩ := urlsplit_eq_some hsplit
  have haccepted := haccepted.resolve_left hnetloc
  obtain ⟨spelling, after, hclean, hspells, hdelimited, hread⟩ :=
    located_of_urlsplit hsplit hscheme hnetloc
  rw [hfragment] at hread
  have hcore : ∃ char ∈ stripBy isSpace url, isControlOrSpace char = false := by
    obtain ⟨first, later, rfl, hfirst⟩ := hspells.exists_cons
    refine ⟨first, ?_, not_control_of_isAlpha hfirst⟩
    have hmem : first ∈ clean (stripBy isSpace url) := by
      rw [hclean]
      exact .head _
    exact (List.dropWhile_sublist _).subset (List.mem_filter.mp hmem).1
  have hsafeRest : ∀ char ∈ rest.filter (!isUnsafe ·),
      isSpace char = true ∧ isUnsafe char = false := by
    intro char hchar
    obtain ⟨hmem, hsafe⟩ := List.mem_filter.mp hchar
    exact ⟨hrest char hmem, by simpa using hsafe⟩
  have hmark : ∀ mark, isSpace mark = false → mark ∉ rest.filter (!isUnsafe ·) := by
    intro mark hink hmem
    rw [(hsafeRest mark hmem).1] at hink
    cases hink
  obtain ⟨pathBehind, queryBehind, fragment, hreadBehind, hpathBehind, hqueryBehind, honly⟩ :=
    readPath_behind hread (hmark '?' (by decide)) (hmark '#' (by decide))
  have hwhole := @clean_around _ front rest hcore
  rw [← hurl, hclean, List.append_assoc, located_append] at hwhole
  have hlead := @leads_clean front ((stripBy isSpace url).takeWhile isControlOrSpace) hfront
    fun char hchar => List.mem_takeWhile_imp hchar
  generalize clean (front ++ (stripBy isSpace url).takeWhile isControlOrSpace) = lead
    at hwhole hlead
  have hdelimiters : ∀ char ∈ parts.netloc, isDelimiter char = false :=
    fun char hchar => (hwell.netloc char hchar).1
  refine ⟨pathBehind, queryBehind,
    fun char hchar => hsafeRest char (hpathBehind.subset hchar),
    fun char hchar => (hsafeRest char (hqueryBehind.subset hchar)).1,
    honly, fragment, ?_⟩
  rcases hlead with rfl | hlead
  · left
    have hdelimited : Delimited (after ++ rest.filter (!isUnsafe ·)) := by
      have hsome : after ≠ [] := by
        rintro rfl
        exact hpath (congrArg Prod.fst hread).symm
      intro char hhead
      rw [List.head?_append_of_ne_nil _ hsome] at hhead
      exact hdelimited char hhead
    rw [urlsplit_located hwhole hspells hdelimiters hdelimited haccepted, hreadBehind]
  · right
    refine ⟨lead, spelling, hlead, hspells, ?_⟩
    rw [urlsplit_led hwhole hlead hspells hdelimiters, hreadBehind]

/-- The normal form of an address that normalization reads with its host. -/
theorem normalizeUrl_located (hlawful : tables.Lawful)
    (hsplit : urlsplit tables.refuses url = some {
      scheme := "https".toList, netloc, path := path ++ pathBehind, query, fragment })
    (hnetloc : tables.lower netloc ≠ []) (hplain : PlainPath path)
    (hbehind : ∀ char ∈ pathBehind, isSpace char = true) :
    normalizeUrl tables.toUrlTables url =
      located "https".toList (tables.lower netloc) (strippedPath (path ++ pathBehind) ++
        trailing '?' (urlencode (filteredQuery tables.toUrlTables query))) := by
  have hbare := @barePath_plain _ _
    { scheme := "https".toList, netloc, path := path ++ pathBehind, query, fragment }
    [] rfl hplain hbehind
  have hrooted : (strippedPath (path ++ pathBehind)).head? = some '/' := by
    apply strippedPath_head
    right
    rw [List.head?_append, hplain.rooted]
    rfl
  rw [normalizeUrl_of_split hsplit, normalParts, hbare,
    hlawful.ascii "https".toList (forall_mem_of_all (by decide))]
  exact urlunsplit_https hnetloc hrooted

/-- The normal form of an address that normalization reads as a path. -/
theorem normalizeUrl_led (hlawful : tables.Lawful) {spelling : List Char}
    (hlead : Leads lead) (hsplit : urlsplit tables.refuses url = some {
      scheme := [], netloc := [], path := lead ++ located spelling netloc (path ++ pathBehind)
      query, fragment }) (hplain : PlainPath path)
    (hbehind : ∀ char ∈ pathBehind, isSpace char = true) :
    normalizeUrl tables.toUrlTables url =
      lead ++ located spelling netloc (strippedPath (path ++ pathBehind) ++
        trailing '?' (urlencode (filteredQuery tables.toUrlTables query))) := by
  have hbare := @barePath_plain _ _ {
    scheme := [], netloc := [], path := lead ++ located spelling netloc (path ++ pathBehind)
    query, fragment } _ (located_path lead spelling netloc _) hplain hbehind
  have hsome : ∃ char ∈ path ++ pathBehind, char ≠ '/' := by
    obtain ⟨char, hmem, hother⟩ := hplain.some_segment
    exact ⟨char, List.mem_append_left _ hmem, hother⟩
  have hpath : strippedPath (lead ++ located spelling netloc (path ++ pathBehind)) =
      lead ++ located spelling netloc (strippedPath (path ++ pathBehind)) := by
    rw [located_path, strippedPath_append _ hsome, ← located_path]
  rw [normalizeUrl_of_split hsplit, normalParts, hbare, lower_nil hlawful.toLawful, hpath,
    urlunsplit_led hlead, located_append]

/-- What the parsers read of the normal form of an address. -/
structure NormalReading (tables : IdentityTables) (url : List Char) (parts : SplitUrl)
    (found : Option ℕ) (raw : SplitUrl) (netloc path : List Char) : Prop where
  split : urlsplit tables.refuses url = some raw
  behind : ∃ behind, raw.query = parts.query ++ behind ∧
    ∀ character ∈ behind, isSpace character = true
  host : SameHost tables parts.netloc netloc
  slashes : path = parts.path ∨ path = strippedPath parts.path
  candidate : candidateParts tables (normalizeUrl tables.toUrlTables url) = some ({
    scheme := "https".toList
    netloc
    path
    query := urlencode (filteredQuery tables.toUrlTables raw.query)
    fragment := [] }, found)

/-- The parts that normalization writes are read again. -/
theorem normalReading (hlawful : tables.Lawful) {found : Option ℕ}
    (hcandidate : candidateParts tables url = some (parts, found))
    (hscheme : parts.scheme = "https".toList) (hfragment : parts.fragment = [])
    (hplain : PlainPath parts.path)
    (hhost : PlainHost tables parts.netloc host hostPort) :
    ∃ raw netloc path, NormalReading tables url parts found raw netloc path := by
  rw [candidateParts, Option.bind_eq_some_iff] at hcandidate
  obtain ⟨read, hsplit, hport⟩ := hcandidate
  rw [Option.map_eq_some_iff] at hport
  obtain ⟨number, hport, heq⟩ := hport
  rw [Prod.mk.injEq] at heq
  obtain ⟨rfl, rfl⟩ := heq
  obtain ⟨hwell, haccepted⟩ := urlsplit_eq_some hsplit
  have haccepted := haccepted.resolve_left hhost.ne_nil
  have hpathSome : read.path ≠ [] := by
    intro hnone
    have hrooted := hplain.rooted
    rw [hnone] at hrooted
    cases hrooted
  obtain ⟨pathBehind, queryBehind, hsurrounded⟩ :=
    surrounded hsplit (by rw [hscheme]; decide) hhost.ne_nil hpathSome hfragment
  have hblank : ∀ char ∈ pathBehind, isSpace char = true :=
    fun char hchar => (hsurrounded.path char hchar).1
  have hwritten := encoded_written
    (filteredQuery tables.toUrlTables (read.query ++ queryBehind)) hplain hwell.path
    hsurrounded.path
  have hencoded : pathBehind = [] ∨
      urlencode (filteredQuery tables.toUrlTables (read.query ++ queryBehind)) = [] := by
    refine hsurrounded.only.imp_right fun hnone => ?_
    rw [hnone]
    rfl
  have hpath := behindStripped_strippedPath hplain hblank hencoded
  obtain ⟨fragment, hraw | ⟨lead, spelling, hlead, hspells, hraw⟩⟩ := hsurrounded.split
  · rw [hscheme] at hraw
    have hsame := hhost.sameHost_lower hlawful
    have hread := @candidateParts_located _ _ _ [] _ _ _ _ (.inl rfl) spells_https
      (hsame.wellSplit hwell.netloc) (hsame.accepted haccepted) (hsame.port.trans hport) hwritten
    rw [List.nil_append, ← normalizeUrl_located hlawful hraw (hhost.lower hlawful).ne_nil hplain
      hblank] at hread
    exact ⟨_, _, _, hraw, ⟨queryBehind, rfl, hsurrounded.query⟩, hsame, hpath, hread⟩
  · have hread := candidateParts_located (.inr hlead) hspells hwell.netloc haccepted hport hwritten
    rw [← normalizeUrl_led hlawful hlead hraw hplain hblank, hscheme] at hread
    exact ⟨_, _, _, hraw, ⟨queryBehind, rfl, hsurrounded.query⟩, SameHost.refl _ _, hpath, hread⟩

end JobApplyAgent.Ingestion
