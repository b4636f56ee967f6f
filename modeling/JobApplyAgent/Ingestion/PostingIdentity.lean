import JobApplyAgent.Ingestion.NormalPostings
import JobApplyAgent.Ingestion.PostingQueries

/-!
# Postings of normal forms

The normal form of an address that a parser accepts names the same posting, and none of another
parser, if and only if the parser takes every parameter that normalization keeps.
-/

namespace JobApplyAgent.Ingestion

open Library Library.QueryString Library.UrlText

variable {tables : IdentityTables}

/-! ## What a parser asks of an address -/

/-- The path and the query name a posting on a host. -/
def Ats.Names (tables : IdentityTables) (host path query : List Char) (posting : Posting) :
    Ats → Prop
  | .greenhouse => ∃ values identity route,
      Greenhouse.refusesPath (if path = [] then ['/'] else path) = false ∧
        Greenhouse.boundedQuery tables query = .ok values ∧
        Greenhouse.namedRoute tables (if path = [] then ['/'] else path) values =
          .ok (identity, route) ∧
        posting = .greenhouse { hostname := host, identity, route }
  | .lever => query = [] ∧ '\\' ∉ path ∧
      ∃ identity, Lever.ofPath tables host path = .ok identity ∧ posting = .lever identity
  | .ashby => ∃ identity route, Ashby.candidateRoute tables path = .ok (identity, route) ∧
      Ashby.validateQuery tables query = .ok () ∧
      posting = .ashby { hostname := host, identity, route }
  | .smartRecruiters => (query = [] ∧ '\\' ∉ path ∧ path.head? = some '/' ∧
      path.getLast? ≠ some '/' ∧ hasDoubleSlash path = false) ∧
      ∃ identity, SmartRecruiters.ofPath host path = .ok identity ∧
        posting = .smartRecruiters identity

variable {ats : Ats}

/-- A parser accepts an origin of its own whose path and query name a posting. -/
theorem postingOfParts_eq_ok :
    postingOfParts tables parts found ats = .ok posting ↔
      admitsOrigin tables ats.hosts (ats.readHost tables parts.netloc) parts found = true ∧
        ats.Names tables (ats.readHost tables parts.netloc) parts.path parts.query posting := by
  cases ats with
  | greenhouse =>
    simp only [postingOfParts, Greenhouse.ofParts, Ats.hosts, Ats.readHost, Ats.Names]
    cases admitsOrigin tables Greenhouse.allowedCandidateHosts (lowerHost tables parts.netloc)
      parts found with
    | false => simp [Except.map]
    | true =>
      simp only [Greenhouse.candidateRoute]
      generalize (if parts.path = [] then ['/'] else parts.path) = path
      cases Greenhouse.refusesPath path with
      | true => simp [Except.map, bind, Except.bind]
      | false =>
        cases Greenhouse.boundedQuery tables parts.query with
        | error => simp [Except.map, bind, Except.bind]
        | ok values =>
          cases hnamed : Greenhouse.namedRoute tables path values with
          | error => simp [Except.map, bind, Except.bind, hnamed]
          | ok result =>
            obtain ⟨identity, route⟩ := result
            simp [Except.map, bind, Except.bind, hnamed, eq_comm, pure, Except.pure]
  | lever =>
    simp only [postingOfParts, Lever.ofParts, Ats.hosts, Ats.readHost, Ats.Names]
    cases admitsOrigin tables Lever.hosts (lowerHost tables parts.netloc) parts found with
    | false => simp [Except.map]
    | true =>
      by_cases hquery : parts.query = []
      · by_cases hback : '\\' ∈ parts.path
        · simp [Except.map, hquery, hback]
        · cases Lever.ofPath tables (lowerHost tables parts.netloc) parts.path with
          | error => simp [Except.map, hquery, hback]
          | ok identity => simp [Except.map, hquery, hback, eq_comm]
      · simp [Except.map, hquery]
  | ashby =>
    simp only [postingOfParts, Ashby.ofParts, Ats.hosts, Ats.readHost, Ats.Names]
    cases admitsOrigin tables [Ashby.candidateHost] (foldedHost tables parts.netloc) parts
      found with
    | false => simp [Except.map]
    | true =>
      cases Ashby.candidateRoute tables parts.path with
      | error => simp [Except.map, bind, Except.bind]
      | ok result =>
        obtain ⟨identity, route⟩ := result
        cases Ashby.validateQuery tables parts.query with
        | error => simp [Except.map, bind, Except.bind]
        | ok => simp [Except.map, bind, Except.bind, eq_comm, pure, Except.pure]
  | smartRecruiters =>
    simp only [postingOfParts, SmartRecruiters.ofParts, Ats.hosts, Ats.readHost, Ats.Names]
    cases admitsOrigin tables [SmartRecruiters.candidateHost]
      (foldedHost tables parts.netloc) parts found with
    | false => simp [Except.map]
    | true =>
      have hvalid : (!true || !parts.query.isEmpty || parts.path.contains '\\'
          || parts.path.head? != some '/' || parts.path.getLast? == some '/'
          || hasDoubleSlash parts.path) = false ↔
          (parts.query = [] ∧ '\\' ∉ parts.path ∧ parts.path.head? = some '/' ∧
            parts.path.getLast? ≠ some '/' ∧ hasDoubleSlash parts.path = false) := by
        simp only [Bool.not_true, Bool.false_or, Bool.or_eq_false_iff, Bool.not_eq_false',
          List.isEmpty_iff, List.contains_eq_mem, decide_eq_false_iff_not, bne_eq_false_iff_eq,
          beq_eq_false_iff_ne, and_assoc]
      rw [← hvalid]
      generalize (!true || !parts.query.isEmpty || parts.path.contains '\\'
          || parts.path.head? != some '/' || parts.path.getLast? == some '/'
          || hasDoubleSlash parts.path) = refused
      cases refused with
      | true => simp [Except.map]
      | false =>
        cases SmartRecruiters.ofPath (foldedHost tables parts.netloc) parts.path with
        | error => simp [Except.map]
        | ok identity => simp [Except.map, eq_comm]

/-! ## The same posting -/

/-- The path of a named posting is plain. -/
theorem Ats.Names.plainPath (hlawful : tables.Lawful) (hrooted : path = [] ∨ path.head? = some '/')
    (hnames : ats.Names tables host path query posting) : PlainPath path := by
  cases ats with
  | greenhouse =>
    obtain ⟨values, identity, route, _, _, hnamed, _⟩ := hnames
    by_cases hempty : path = []
    · rw [if_pos hempty] at hnamed
      have hslash := Greenhouse.plainPath hlawful (.inr rfl) hnamed
      obtain ⟨char, hmem, hother⟩ := hslash.some_segment
      exact absurd (List.mem_singleton.mp hmem) hother
    · rw [if_neg hempty] at hnamed
      exact Greenhouse.plainPath hlawful hrooted hnamed
  | lever =>
    obtain ⟨_, _, identity, hidentity, _⟩ := hnames
    exact Lever.plainPath hrooted hidentity
  | ashby =>
    obtain ⟨identity, route, hroute, _⟩ := hnames
    exact Ashby.plainPath hrooted hroute
  | smartRecruiters =>
    obtain ⟨_, identity, hidentity, _⟩ := hnames
    exact SmartRecruiters.plainPath hrooted hidentity

/-- A posting is named without the slashes at the end of its path, too. -/
theorem Ats.Names.stripped (hlawful : tables.Lawful) (hplain : PlainPath path)
    (hnames : ats.Names tables host path query posting) :
    ats.Names tables host (strippedPath path) query posting := by
  obtain ⟨count, hslashes⟩ := hplain.slashes
  have hne : path ≠ [] := by
    intro hempty
    have hrooted := hplain.rooted
    rw [hempty] at hrooted
    cases hrooted
  cases ats with
  | greenhouse =>
    obtain ⟨values, identity, route, hrefuses, hquery, hnamed, heq⟩ := hnames
    rw [if_neg hne] at hrefuses hnamed
    have hdouble : hasDoubleSlash path = false := by
      simp only [Greenhouse.refusesPath, Bool.or_eq_false_iff] at hrefuses
      exact hrefuses.1.2
    refine ⟨values, identity, route, ?_, hquery, ?_, heq⟩
    · rw [if_neg (strippedPath_ne_nil path)]
      exact Greenhouse.refusesPath_slashes hslashes hrefuses
    · rw [if_neg (strippedPath_ne_nil path),
        Greenhouse.namedRoute_slashes hlawful hslashes hdouble]
      exact hnamed
  | lever =>
    obtain ⟨hquery, hback, identity, hidentity, heq⟩ := hnames
    refine ⟨hquery, fun hmem => hback (hslashes.subset hmem), identity, ?_, heq⟩
    rw [Lever.ofPath, hslashes.pathSegments]
    exact hidentity
  | ashby =>
    obtain ⟨identity, route, hroute, hquery, heq⟩ := hnames
    refine ⟨identity, route, ?_, hquery, heq⟩
    have hsegments := (Ashby.tokens_of_candidateRoute hroute).2
    rw [Ashby.candidateRoute, Ashby.routeSegments_slashes hslashes fun segment hsegment =>
      (hsegments segment hsegment).1]
    exact hroute
  | smartRecruiters =>
    have hlast := hnames.1.2.2.2.1
    have hsame : strippedPath path = path := by
      have hkept : path.rdropWhile (· == '/') = path := by
        rw [List.rdropWhile_eq_self_iff]
        intro hsome hslash
        apply hlast
        rw [List.getLast?_eq_some_getLast hsome, beq_iff_eq.mp hslash]
      rw [strippedPath, hkept, if_neg hne]
    rwa [hsame]

/-- With its query encoded anew, behind blanks, a posting is named if and only if the parser
takes every parameter that is kept. -/
theorem Ats.Names.encoded (hlawful : tables.Lawful)
    (hbehind : ∀ char ∈ behind, isSpace char = true)
    (hnames : ats.Names tables host path query posting) :
    ats.Names tables host path
        (urlencode (filteredQuery tables.toUrlTables (query ++ behind))) posting ↔
      QueryKept tables ats (query ++ behind) := by
  cases ats with
  | greenhouse =>
    obtain ⟨values, identity, route, hrefuses, hquery, hnamed, heq⟩ := hnames
    have hencoded := Greenhouse.boundedQuery_encoded hlawful hbehind hquery
    constructor
    · rintro ⟨found, _, _, _, hread, _⟩
      exact ((hencoded found).mp hread).1
    · intro hkept
      exact ⟨values, identity, route, hrefuses, (hencoded values).mpr ⟨hkept, rfl⟩, hnamed,
        heq⟩
  | lever =>
    obtain ⟨_, hback, hidentity⟩ := hnames
    rw [← @encoded_eq_nil_iff_queryKept _ _ .lever fun _ => rfl]
    exact ⟨fun hencoded => hencoded.1, fun hnone => ⟨hnone, hback, hidentity⟩⟩
  | ashby =>
    obtain ⟨identity, route, hroute, hquery, heq⟩ := hnames
    have hpair : '&' ∉ behind := fun hmem => absurd (hbehind '&' hmem) (by decide)
    rw [← Ashby.validateQuery_encoded hpair hquery]
    constructor
    · rintro ⟨_, _, _, hvalid, _⟩
      exact hvalid
    · exact fun hvalid => ⟨identity, route, hroute, hvalid, heq⟩
  | smartRecruiters =>
    obtain ⟨⟨_, hpath⟩, hidentity⟩ := hnames
    rw [← @encoded_eq_nil_iff_queryKept _ _ .smartRecruiters fun _ => rfl]
    exact ⟨fun hencoded => hencoded.1.1, fun hnone => ⟨⟨hnone, hpath⟩, hidentity⟩⟩

/-! ## The claim of an origin -/

theorem admitsOrigin_iff :
    admitsOrigin tables hosts host parts found = true ↔
      tables.casefold parts.scheme = "https".toList ∧ host ∈ hosts ∧
        hasUserinfo parts.netloc = false ∧ parts.fragment = [] ∧
        (found = none ∨ found = some 443) := by
  simp [admitsOrigin, and_assoc]

/-- A scheme that is folded into `https` is `https`, as it is read. -/
theorem scheme_of_casefold (hlawful : tables.Lawful)
    (hcandidate : candidateParts tables url = some (parts, found))
    (hscheme : tables.casefold parts.scheme = "https".toList) :
    parts.scheme = "https".toList := by
  rw [candidateParts, Option.bind_eq_some_iff] at hcandidate
  obtain ⟨read, hsplit, hport⟩ := hcandidate
  rw [Option.map_eq_some_iff] at hport
  obtain ⟨_, _, heq⟩ := hport
  rw [Prod.mk.injEq] at heq
  obtain ⟨rfl, rfl⟩ := heq
  have hwell := (urlsplit_eq_some hsplit).1
  have hcharacters : ∀ char ∈ read.scheme, char.toNat < 128 := by
    intro char hchar
    rcases hwell.scheme with hnone | ⟨_, hall⟩
    · rw [hnone] at hchar
      cases hchar
    · exact toNat_of_schemeCharacter (hall char hchar).1
  have hlower := lower_scheme hlawful.toLawful hwell
  rw [hlawful.ascii _ hcharacters] at hlower
  rw [casefold_ascii hlawful hcharacters, hlower] at hscheme
  exact hscheme

/-! ## The normal form -/

/-- The query that normalization reads. -/
def rawQuery (tables : IdentityTables) (url : List Char) : List Char :=
  ((urlsplit tables.refuses url).map SplitUrl.query).getD []

/-- The normal form of an address names the posting, for its own parser alone. -/
structure KeepsPosting (tables : IdentityTables) (ats : Ats) (url : List Char)
    (posting : Posting) : Prop where
  same : parsePosting tables (normalizeUrl tables.toUrlTables url) ats = .ok posting
  alone : ∀ other, other ≠ ats → ∀ found,
    parsePosting tables (normalizeUrl tables.toUrlTables url) other ≠ .ok found

/-- A normal form names the posting if and only if the parser takes every parameter that is
kept. -/
theorem keepsPosting_iff (hlawful : tables.Lawful)
    (hposting : parsePosting tables url ats = .ok posting) :
    KeepsPosting tables ats url posting ↔ QueryKept tables ats (rawQuery tables url) := by
  obtain ⟨parts, found, hcandidate, hparts⟩ := (parsePosting_eq_ok tables).mp hposting
  obtain ⟨hadmits, hnames⟩ := postingOfParts_eq_ok.mp hparts
  obtain ⟨hfolded, hlisted, huser, hfragment, hport⟩ := admitsOrigin_iff.mp hadmits
  have hscheme := scheme_of_casefold hlawful hcandidate hfolded
  have hread := hcandidate
  rw [candidateParts, Option.bind_eq_some_iff] at hread
  obtain ⟨read, hsplit, hread⟩ := hread
  rw [Option.map_eq_some_iff] at hread
  obtain ⟨number, hnumber, heq⟩ := hread
  rw [Prod.mk.injEq] at heq
  obtain ⟨rfl, rfl⟩ := heq
  obtain ⟨hwell, haccepted⟩ := urlsplit_eq_some hsplit
  have hnetloc : read.netloc ≠ [] := by
    intro hnone
    have hempty := casefold_readHost hlawful hlisted
    obtain ⟨_, _, _, _, hsome⟩ := listed_host hlisted
    apply hsome
    rw [← hempty, hnone]
    simp only [hostname, hostinfo, List.rtakeWhile_nil, List.not_mem_nil, if_false, cutAt,
      List.takeWhile_nil, List.dropWhile_nil, List.append_nil, lower_nil hlawful.toLawful]
    rfl
  have hrefused := haccepted.resolve_left hnetloc
  obtain ⟨host, hostPort, hhost⟩ := plainHost_of_read hlawful hrefused hlisted huser hnumber
  have hplain := hnames.plainPath hlawful (hwell.rooted hnetloc)
  obtain ⟨raw, netloc, path, hreading⟩ :=
    normalReading hlawful hcandidate hscheme hfragment hplain hhost
  obtain ⟨behind, hquery, hbehind⟩ := hreading.behind
  have hraw : rawQuery tables url = read.query ++ behind := by
    rw [rawQuery, hreading.split, ← hquery]
    rfl
  have hpath : ats.Names tables (ats.readHost tables read.netloc) path read.query posting := by
    rcases hreading.slashes with rfl | rfl
    · exact hnames
    · exact hnames.stripped hlawful hplain
  have hencoded := hpath.encoded hlawful hbehind
  have hsame : parsePosting tables (normalizeUrl tables.toUrlTables url) ats = .ok posting ↔
      QueryKept tables ats (rawQuery tables url) := by
    rw [parsePosting_eq, hreading.candidate]
    simp only
    rw [postingOfParts_eq_ok, admitsOrigin_iff, hreading.host.readHost, hraw, ← hencoded, hquery]
    constructor
    · exact fun hkept => hkept.2
    · intro hkept
      refine ⟨⟨?_, hlisted, hreading.host.user.trans huser, rfl, hport⟩, hkept⟩
      exact (congrArg tables.casefold hscheme.symm).trans hfolded
  constructor
  · exact fun hkept => hsame.mp hkept.same
  · intro hkept
    refine ⟨hsame.mpr hkept, ?_⟩
    intro other hother named hnamed
    apply hother
    rw [parsePosting_eq, hreading.candidate] at hnamed
    simp only at hnamed
    rw [postingOfParts_eq_ok, admitsOrigin_iff, hreading.host.readHost] at hnamed
    have hotherListed := hnamed.1.2.1
    have hsameHost : other.readHost tables read.netloc = ats.readHost tables read.netloc := by
      rw [← casefold_readHost hlawful hotherListed, casefold_readHost hlawful hlisted]
    rw [hsameHost] at hotherListed
    exact hosts_disjoint hotherListed hlisted

/-! ## Stored postings -/

def urlHash {δ : Type*} (sha256 : List UInt8 → δ) (url : List Char) : δ :=
  sha256 (url.flatMap String.utf8EncodeChar)

theorem urlHash_inj {δ : Type*} {sha256 : List UInt8 → δ} (hsha : Function.Injective sha256)
    {first second : List Char} (heq : urlHash sha256 first = urlHash sha256 second) :
    first = second := by
  have hbytes := hsha heq
  calc first = decodeBytes (first.flatMap String.utf8EncodeChar) :=
        (decodeReplace_encoded (Nat.le_refl _)).symm
    _ = decodeBytes (second.flatMap String.utf8EncodeChar) := by rw [hbytes]
    _ = second := decodeReplace_encoded (Nat.le_refl _)

/-- The normal forms of two addresses name their postings, and one hash names one posting. -/
structure PostingsKept {δ : Type*} (tables : IdentityTables) (sha256 : List UInt8 → δ)
    (firstAts secondAts : Ats) (first second : List Char) (firstPosting secondPosting : Posting) :
    Prop where
  keepsFirst : KeepsPosting tables firstAts first firstPosting
  keepsSecond : KeepsPosting tables secondAts second secondPosting
  hash : urlHash sha256 (normalizeUrl tables.toUrlTables first) =
      urlHash sha256 (normalizeUrl tables.toUrlTables second) →
    firstPosting = secondPosting

/-- Normalization keeps what two accepted addresses name if and only if their parsers take every
query parameter that it keeps, as it reads the query without stripping the address. -/
theorem postingsKept_iff {δ : Type*} {sha256 : List UInt8 → δ}
    (hsha : Function.Injective sha256) (hlawful : tables.Lawful) {firstAts secondAts : Ats}
    {first second : List Char} {firstPosting secondPosting : Posting}
    (hfirst : parsePosting tables first firstAts = .ok firstPosting)
    (hsecond : parsePosting tables second secondAts = .ok secondPosting) :
    PostingsKept tables sha256 firstAts secondAts first second firstPosting secondPosting ↔
      QueryKept tables firstAts (rawQuery tables first) ∧
        QueryKept tables secondAts (rawQuery tables second) := by
  rw [← keepsPosting_iff hlawful hfirst, ← keepsPosting_iff hlawful hsecond]
  constructor
  · exact fun hkept => ⟨hkept.keepsFirst, hkept.keepsSecond⟩
  · rintro ⟨hkeptFirst, hkeptSecond⟩
    refine ⟨hkeptFirst, hkeptSecond, ?_⟩
    intro hhash
    have hnormal := urlHash_inj hsha hhash
    have hsame := hkeptSecond.same
    rw [← hnormal] at hsame
    have hats : secondAts = firstAts := by
      by_contra hother
      exact hkeptFirst.alone secondAts hother secondPosting hsame
    subst hats
    exact Except.ok.inj (hkeptFirst.same.symm.trans hsame)

/-! ### The first script -/

/-- Letters of the first script, and no brackets. -/
def asciiIdentityTables : IdentityTables where
  lower := List.map Char.toLower
  refuses netloc := netloc.contains '[' || netloc.contains ']'
  fold character := [character.toLower]
  decimal character := if character.isDigit then some (character.toNat - '0'.toNat) else none

theorem toLower_eq_mark {char mark : Char} (hmark : mark.isAlphanum = false)
    (heq : char.toLower = mark) : char = mark := by
  cases hupper : char.isUpper with
  | false => rwa [toLower_of_not_isUpper hupper] at heq
  | true =>
    have hletter := (toLower_letter (isAlphanum_of_isUpper hupper)).1
    rw [heq, hmark] at hletter
    cases hletter

theorem lawful_asciiIdentityTables : asciiIdentityTables.Lawful where
  lower_lower := lawful_asciiTables.lower_lower
  ascii := lawful_asciiTables.ascii
  marks := lawful_asciiTables.marks
  accepted := by
    intro netloc haccepted
    change ((netloc.map Char.toLower).contains '[' || (netloc.map Char.toLower).contains ']') =
      false
    rw [contains_map_toLower (by decide), contains_map_toLower (by decide)]
    exact haccepted
  fold_ascii := fun _ _ => rfl
  fold_marks := by
    intro char mark _ hmark hmem
    exact (toLower_eq_mark hmark (List.mem_singleton.mp hmem).symm).symm
  fold_space := by
    intro char hspace
    have hupper : char.isUpper = false := by
      rw [Bool.eq_false_iff]
      intro hupper
      have hink := @isSpace_of_isAlpha char (Bool.or_eq_true_iff.mpr (.inl hupper))
      rw [hspace] at hink
      cases hink
    exact congrArg (fun found => [found]) (toLower_of_not_isUpper hupper)
  casefold_lower := by
    intro text
    change (text.map Char.toLower).flatMap (fun char => [char.toLower]) =
      text.flatMap fun char => [char.toLower]
    rw [← List.map_eq_flatMap, ← List.map_eq_flatMap]
    exact lawful_asciiTables.lower_lower text
  lower_marks := fun _ _ _ hmark hmem => (mem_map_toLower hmark).mp hmem
  lower_append := fun _ _ _ _ => List.map_append
  bracketed := by
    intro netloc haccepted _ hmem
    have hnone : netloc.contains '[' = false := (Bool.or_eq_false_iff.mp haccepted).1
    rw [List.contains_eq_mem, decide_eq_false_iff_not] at hnone
    exact absurd hmem hnone

theorem postingsKept_sample :
    PostingsKept asciiIdentityTables id .greenhouse .ashby
      " https://Boards.Greenhouse.io/Acme/jobs/123/?gh_jid=123 ".toList
      ("https://jobs.ashbyhq.com/acme/01234567-89ab-cdef-0123-456789abcdef/" ++
        "?utm_source=x&source=a%20b").toList
      (.greenhouse ⟨"boards.greenhouse.io".toList, ⟨"acme".toList, "123".toList⟩, .hosted⟩)
      (.ashby ⟨"jobs.ashbyhq.com".toList,
        ⟨"acme".toList, "01234567-89ab-cdef-0123-456789abcdef".toList⟩, .job⟩) :=
  (postingsKept_iff Function.injective_id lawful_asciiIdentityTables
    (by decide +kernel) (by decide +kernel)).mpr ⟨by decide +kernel, by decide +kernel⟩

/-- A blank behind the job is stripped by the parser and escaped by normalization. -/
theorem escaped_blank :
    parsePosting asciiIdentityTables
        "https://boards.greenhouse.io/acme/jobs/123?gh_jid=123\u00a0".toList .greenhouse =
      .ok (.greenhouse
        ⟨"boards.greenhouse.io".toList, ⟨"acme".toList, "123".toList⟩, .hosted⟩) ∧
    parsePosting asciiIdentityTables (normalizeUrl asciiIdentityTables.toUrlTables
        "https://boards.greenhouse.io/acme/jobs/123?gh_jid=123\u00a0".toList) .greenhouse =
      .error "GREENHOUSE_QUERY_INVALID" :=
  ⟨by decide +kernel, by decide +kernel⟩

end JobApplyAgent.Ingestion
