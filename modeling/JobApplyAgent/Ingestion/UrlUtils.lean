import JobApplyAgent.Library.QueryString
import JobApplyAgent.Library.UrlText

/-!
# Normal forms of addresses

A stored address is normalized again before it is hashed.  The second pass agrees with the
first unless taking away path parameters or slashes has laid open another parameter, and two
addresses of one normal form agree in all that it keeps.
-/

namespace JobApplyAgent.Ingestion

open Library Library.QueryString Library.UrlText

/-! ## Tracking parameters -/

def trackingParams : List (List Char) :=
  ["utm_source", "utm_medium", "utm_campaign", "utm_term", "utm_content", "fbclid", "gclid",
    "mc_cid", "mc_eid", "igshid", "igsh", "trk", "trkEmail", "wt_mc_o", "wt_mc_n", "wt_mc_t",
    "wa_source", "wa_campaign", "si"].map String.toList

def atsPreserveParams : List (List Char) :=
  ["gh_jid", "gh_src", "lever-origin", "j", "jobId"].map String.toList

/-- What normalization has to know about texts. -/
structure UrlTables where
  /-- `str.lower`. -/
  lower : List Char → List Char
  /-- `urlsplit` raises a `ValueError` for the network location. -/
  refuses : List Char → Bool

/-- What lower case is like. -/
structure UrlTables.Lawful (tables : UrlTables) : Prop where
  lower_lower : ∀ text, tables.lower (tables.lower text) = tables.lower text
  ascii : ∀ text, (∀ character ∈ text, character.toNat < 128) →
    tables.lower text = text.map Char.toLower
  /-- No character becomes a separator or a control character. -/
  marks : ∀ text, ∀ character ∈ tables.lower text,
    isDelimiter character = true ∨ isUnsafe character = true → character ∈ text
  accepted : ∀ netloc, tables.refuses netloc = false → tables.refuses (tables.lower netloc) = false

variable (tables : UrlTables)

/-- A parameter is kept. -/
def keepsParam (name : List Char) : Bool :=
  decide (tables.lower name ∉ trackingParams) || decide (name ∈ atsPreserveParams)

/-- The query without its tracking parameters. -/
def filteredQuery (query : List Char) : Query :=
  if query = [] then [] else (parseQs query).filter fun entry => keepsParam tables entry.1

/-- A path without its trailing slashes. -/
def strippedPath (path : List Char) : List Char :=
  let stripped := path.rdropWhile (· == '/')
  if stripped = [] then ['/'] else stripped

def normalizeUrl (url : List Char) : List Char :=
  match urlparse tables.refuses url with
  | none => url
  | some parsed =>
    let filtered := filteredQuery tables parsed.query
    urlunparse {
      scheme := tables.lower parsed.scheme
      netloc := tables.lower parsed.netloc
      path := strippedPath parsed.path
      params := []
      query := if filtered = [] then [] else urlencode filtered
      fragment := []
    }

/-! ## The parts of a normal form -/

/-- The path without the parameters of its last segment. -/
def barePath (parts : SplitUrl) : List Char :=
  if parts.scheme ∈ usesParams ∧ ';' ∈ parts.path then (splitparams parts.path).1 else parts.path

/-- The parameters of the last segment. -/
def pathParams (parts : SplitUrl) : List Char :=
  if parts.scheme ∈ usesParams ∧ ';' ∈ parts.path then (splitparams parts.path).2 else []

def normalParts (parts : SplitUrl) : SplitUrl where
  scheme := tables.lower parts.scheme
  netloc := tables.lower parts.netloc
  path := strippedPath (barePath parts)
  query := urlencode (filteredQuery tables parts.query)
  fragment := []

variable {tables}

variable {char : Char}

theorem normalizeUrl_of_split (hsplit : urlsplit tables.refuses url = some parts) :
    normalizeUrl tables url = urlunsplit (normalParts tables parts) := by
  have hpath : (if parts.scheme ∈ usesParams ∧ ';' ∈ parts.path then splitparams parts.path
      else (parts.path, [])).1 = barePath parts := by
    unfold barePath
    split <;> rfl
  have hquery : ∀ filtered : Query,
      (if filtered = [] then [] else urlencode filtered) = urlencode filtered := by
    intro filtered
    split
    · next hnone =>
      rw [hnone]
      rfl
    · rfl
  simp only [normalizeUrl, urlparse, hsplit, Option.map_some, urlunparse, hquery, if_true, hpath]
  rfl

theorem normalizeUrl_of_refused (hsplit : urlsplit tables.refuses url = none) :
    normalizeUrl tables url = url := by
  simp only [normalizeUrl, urlparse, hsplit, Option.map_none]

/-! ### Paths -/

theorem splitparams_isPrefix (path : List Char) : (splitparams path).1 <+: path := by
  obtain ⟨tail, htext, _⟩ := cutAt_eq ';' (lastSegment path)
  refine ⟨tail, ?_⟩
  rw [splitparams]
  simp only
  rw [List.append_assoc, ← htext]
  exact List.rdropWhile_append_rtakeWhile

theorem barePath_isPrefix (parts : SplitUrl) : barePath parts <+: parts.path := by
  unfold barePath
  split
  · exact splitparams_isPrefix parts.path
  · exact List.prefix_rfl

theorem strippedPath_eq (path : List Char) :
    strippedPath path = ['/'] ∨
      strippedPath path = path.rdropWhile (· == '/') ∧ strippedPath path ≠ [] := by
  unfold strippedPath
  simp only
  split
  · exact .inl rfl
  · next hsome => exact .inr ⟨rfl, hsome⟩

theorem strippedPath_ne_nil (path : List Char) : strippedPath path ≠ [] := by
  rcases strippedPath_eq path with heq | ⟨_, hne⟩
  · rw [heq]
    simp
  · exact hne

theorem strippedPath_strippedPath (path : List Char) :
    strippedPath (strippedPath path) = strippedPath path := by
  rcases strippedPath_eq path with heq | ⟨heq, hne⟩
  · rw [heq]
    rfl
  · rw [heq] at hne ⊢
    unfold strippedPath
    simp only [List.rdropWhile_idempotent, if_neg hne]

/-- Another parameter of the path is laid open by taking away the last ones. -/
def ExposesParams (parts : SplitUrl) : Prop :=
  parts.scheme ∈ usesParams ∧ ';' ∈ lastSegment (strippedPath (barePath parts))

instance (parts : SplitUrl) : Decidable (ExposesParams parts) :=
  inferInstanceAs (Decidable (_ ∧ _))

theorem lastSegment_isSuffix (path : List Char) : lastSegment path <:+ path :=
  List.rtakeWhile_suffix _ _

variable {text : List Char} {mark : Char}

theorem cutAt_of_notMem (hnone : separator ∉ text) :
    cutAt separator text = (text, []) := by
  have hcut := cutAt_trailing hnone []
  rwa [trailing, if_pos rfl, List.append_nil] at hcut

theorem barePath_of_not_exposed
    (hnone : ¬(parts.scheme ∈ usesParams ∧ ';' ∈ lastSegment parts.path)) :
    barePath parts = parts.path := by
  unfold barePath
  split
  · next huses =>
    have hsegment : ';' ∉ lastSegment parts.path := fun hmem => hnone ⟨huses.1, hmem⟩
    rw [splitparams, cutAt_of_notMem hsegment]
    exact List.rdropWhile_append_rtakeWhile
  · rfl

theorem length_barePath_of_exposed (huses : parts.scheme ∈ usesParams)
    (hsegment : ';' ∈ lastSegment parts.path) :
    (barePath parts).length < parts.path.length := by
  have hmem : ';' ∈ parts.path := (lastSegment_isSuffix parts.path).subset hsegment
  obtain ⟨tail, htext, hnot, _⟩ := cutAt_eq ';' (lastSegment parts.path)
  have htail : tail ≠ [] := by
    rintro rfl
    rw [List.append_nil] at htext
    rw [← htext] at hnot
    exact hnot hsegment
  have hwhole : parts.path.rdropWhile (· != '/') ++ lastSegment parts.path = parts.path :=
    List.rdropWhile_append_rtakeWhile
  have hlength := congrArg List.length hwhole
  rw [htext, List.length_append, List.length_append] at hlength
  have hpositive := List.length_pos_of_ne_nil htail
  rw [barePath, if_pos ⟨huses, hmem⟩, splitparams]
  simp only [List.length_append]
  omega

theorem strippedPath_barePath_iff (parts : SplitUrl) (hpath : parts.path = strippedPath path) :
    strippedPath (barePath parts) = parts.path ↔
      ¬(parts.scheme ∈ usesParams ∧ ';' ∈ lastSegment parts.path) := by
  constructor
  · rintro hsame ⟨huses, hsegment⟩
    have hshorter := length_barePath_of_exposed huses hsegment
    have hbound : (strippedPath (barePath parts)).length ≤ (barePath parts).length ∨
        strippedPath (barePath parts) = ['/'] := by
      rcases strippedPath_eq (barePath parts) with heq | ⟨heq, _⟩
      · exact .inr heq
      · left
        rw [heq]
        exact (List.rdropWhile_prefix _ _).length_le
    rcases hbound with hle | hslash
    · rw [hsame] at hle
      omega
    · rw [← hsame, hslash] at hsegment
      exact absurd hsegment (by decide)
  · intro hnone
    rw [barePath_of_not_exposed hnone, hpath, strippedPath_strippedPath]

/-! ### Queries -/

theorem grouped_filteredQuery (query : List Char) : Grouped (filteredQuery tables query) := by
  unfold filteredQuery
  split
  · exact ⟨List.nodup_nil, by simp⟩
  · exact (grouped_parseQs query).filter _

theorem parseQs_filteredQuery (query : List Char) :
    parseQs (urlencode (filteredQuery tables query)) = filteredQuery tables query :=
  parseQs_urlencode (grouped_filteredQuery query)

theorem filteredQuery_filteredQuery (query : List Char) :
    filteredQuery tables (urlencode (filteredQuery tables query)) =
      filteredQuery tables query := by
  have hkept : ∀ entry ∈ filteredQuery tables query, keepsParam tables entry.1 = true := by
    intro entry hentry
    unfold filteredQuery at hentry
    split at hentry
    · cases hentry
    · exact (List.mem_filter.mp hentry).2
  rw [filteredQuery]
  split
  · next hnone => exact ((urlencode_eq_nil_iff (grouped_filteredQuery query)).mp hnone).symm
  · rw [parseQs_filteredQuery]
    exact List.filter_eq_self.mpr hkept

theorem urlencode_filteredQuery_inj :
    urlencode (filteredQuery tables first) = urlencode (filteredQuery tables second) ↔
      filteredQuery tables first = filteredQuery tables second := by
  constructor
  · intro heq
    rw [← parseQs_filteredQuery first, heq, parseQs_filteredQuery second]
  · intro heq
    rw [heq]

/-! ### Normal parts -/

theorem toNat_of_schemeCharacter (hscheme : schemeCharacter char = true) :
    char.toNat < 128 := by
  simp only [schemeCharacter, Bool.or_eq_true, decide_eq_true_eq] at hscheme
  rcases hscheme with halphanum | hmark
  · exact Library.toNat_lt_of_isAlphanum halphanum
  · simp only [List.mem_cons, List.not_mem_nil, or_false] at hmark
    rcases hmark with rfl | rfl | rfl <;> decide

theorem lower_scheme (hlawful : tables.Lawful) (hparts : WellSplit parts) :
    tables.lower parts.scheme = parts.scheme := by
  have hcharacters : ∀ char ∈ parts.scheme,
      schemeCharacter char = true ∧ char.toLower = char := by
    rcases hparts.scheme with hnone | ⟨_, hcharacters⟩
    · rw [hnone]
      simp
    · exact hcharacters
  rw [hlawful.ascii parts.scheme fun char hchar =>
    toNat_of_schemeCharacter (hcharacters char hchar).1]
  calc parts.scheme.map Char.toLower = parts.scheme.map id :=
        List.map_congr_left fun char hchar => (hcharacters char hchar).2
    _ = parts.scheme := List.map_id _

theorem lower_nil (hlawful : tables.Lawful) : tables.lower [] = [] := by
  rw [hlawful.ascii [] (by simp)]
  rfl

theorem strippedPath_head (hpath : path = [] ∨ path.head? = some '/') :
    (strippedPath path).head? = some '/' := by
  rcases strippedPath_eq path with heq | ⟨heq, hne⟩
  · rw [heq]
    rfl
  · obtain ⟨rest, hrest⟩ := List.rdropWhile_prefix (· == '/') path
    rw [heq] at hne ⊢
    cases hfirst : path.rdropWhile (· == '/') with
    | nil => exact absurd hfirst hne
    | cons first later =>
      rw [hfirst] at hrest
      rw [← hrest] at hpath
      simpa using hpath

theorem head_of_isPrefix (hbegins : first <+: path) (hpath : path = [] ∨ path.head? = some '/') :
    first = [] ∨ first.head? = some '/' := by
  obtain ⟨rest, rfl⟩ := hbegins
  cases first with
  | nil => exact .inl rfl
  | cons => simpa using hpath

/-- Normal parts are put together to an address that is split into them. -/
theorem normalParts_wellSplit (hlawful : tables.Lawful) (hparts : WellSplit parts) :
    WellSplit (normalParts tables parts) where
  scheme := by
    rw [normalParts, lower_scheme hlawful hparts]
    exact hparts.scheme
  netloc := by
    intro char hchar
    constructor
    · rw [Bool.eq_false_iff]
      intro hdelimiter
      have hmem := hlawful.marks parts.netloc char hchar (.inl hdelimiter)
      rw [(hparts.netloc char hmem).1] at hdelimiter
      cases hdelimiter
    · rw [Bool.eq_false_iff]
      intro hunsafe
      have hmem := hlawful.marks parts.netloc char hchar (.inr hunsafe)
      rw [(hparts.netloc char hmem).2] at hunsafe
      cases hunsafe
  path := by
    intro char hchar
    rcases strippedPath_eq (barePath parts) with heq | ⟨heq, _⟩
    · rw [normalParts, heq, List.mem_singleton] at hchar
      subst hchar
      decide
    · rw [normalParts, heq] at hchar
      exact hparts.path char
        ((barePath_isPrefix parts).subset ((List.rdropWhile_prefix _ _).subset hchar))
  query := by
    intro char hchar
    rcases mem_urlencode hchar with hquoted | hmark
    · refine ⟨hquoted.ne (by decide), ?_⟩
      rw [isUnsafe, decide_eq_false_iff_not]
      intro hmem
      simp only [List.mem_cons, List.not_mem_nil, or_false] at hmem
      rcases hmem with rfl | rfl | rfl <;> exact absurd hquoted (by decide)
    · simp only [List.mem_cons, List.not_mem_nil, or_false] at hmark
      rcases hmark with rfl | rfl <;> decide
  fragment := by simp [normalParts]
  rooted := by
    intro hnetloc
    have hsome : parts.netloc ≠ [] := by
      intro hnone
      exact hnetloc (by rw [normalParts, hnone, lower_nil hlawful])
    right
    exact strippedPath_head (head_of_isPrefix (barePath_isPrefix parts) (hparts.rooted hsome))
  relative := by
    intro hscheme _
    rw [normalParts, lower_scheme hlawful hparts] at hscheme
    by_cases hnetloc : parts.netloc = []
    · obtain ⟨hreads, hcontrol⟩ := hparts.relative hscheme hnetloc
      rcases strippedPath_eq (barePath parts) with heq | ⟨heq, hne⟩
      · rw [normalParts, heq]
        exact ⟨rfl, rfl⟩
      · have hbegins : strippedPath (barePath parts) <+: parts.path := by
          rw [heq]
          exact (List.rdropWhile_prefix _ _).trans (barePath_isPrefix parts)
        refine ⟨readsScheme_of_isPrefix hbegins hreads, ?_⟩
        obtain ⟨rest, hrest⟩ := hbegins
        rw [← hrest] at hcontrol
        rw [normalParts]
        cases hfirst : strippedPath (barePath parts) with
        | nil => exact absurd hfirst hne
        | cons first later =>
          rw [hfirst] at hcontrol
          exact hcontrol
    · exact relative_of_rooted (.inr (strippedPath_head
        (head_of_isPrefix (barePath_isPrefix parts) (hparts.rooted hnetloc))))

theorem urlsplit_normalizeUrl (hlawful : tables.Lawful)
    (hsplit : urlsplit tables.refuses url = some parts) :
    urlsplit tables.refuses (normalizeUrl tables url) = some (normalParts tables parts) := by
  obtain ⟨hparts, haccepted⟩ := urlsplit_eq_some hsplit
  rw [normalizeUrl_of_split hsplit]
  apply urlsplit_urlunsplit (normalParts_wellSplit hlawful hparts)
  · exact strippedPath_ne_nil _
  · rcases haccepted with hnone | haccepted
    · left
      rw [normalParts, hnone, lower_nil hlawful]
    · exact .inr (hlawful.accepted parts.netloc haccepted)

/-! ## The normal form as a canonical form -/

/-- What the normal forms of two addresses have in common. -/
structure SameNormal (tables : UrlTables) (first second : SplitUrl) : Prop where
  scheme : first.scheme = second.scheme
  netloc : tables.lower first.netloc = tables.lower second.netloc
  path : strippedPath (barePath first) = strippedPath (barePath second)
  query : filteredQuery tables first.query = filteredQuery tables second.query

theorem normalParts_eq_iff (hlawful : tables.Lawful)
    (hfirst : WellSplit first) (hsecond : WellSplit second) :
    normalParts tables first = normalParts tables second ↔ SameNormal tables first second := by
  constructor
  · intro heq
    have hscheme := congrArg SplitUrl.scheme heq
    have hquery := congrArg SplitUrl.query heq
    simp only [normalParts, lower_scheme hlawful hfirst, lower_scheme hlawful hsecond] at hscheme
    simp only [normalParts] at hquery
    exact ⟨hscheme, congrArg SplitUrl.netloc heq, congrArg SplitUrl.path heq,
      urlencode_filteredQuery_inj.mp hquery⟩
  · intro hsame
    simp only [normalParts, hsame.scheme, hsame.netloc, hsame.path, hsame.query]

theorem normalizeUrl_eq_iff (hlawful : tables.Lawful)
    (hfirst : urlsplit tables.refuses first = some firstParts)
    (hsecond : urlsplit tables.refuses second = some secondParts) :
    normalizeUrl tables first = normalizeUrl tables second ↔
      SameNormal tables firstParts secondParts := by
  rw [← normalParts_eq_iff hlawful (urlsplit_eq_some hfirst).1 (urlsplit_eq_some hsecond).1]
  constructor
  · intro heq
    have hparts := urlsplit_normalizeUrl hlawful hfirst
    rw [heq, urlsplit_normalizeUrl hlawful hsecond] at hparts
    exact (Option.some.inj hparts).symm
  · intro heq
    rw [normalizeUrl_of_split hfirst, normalizeUrl_of_split hsecond, heq]

/-- A second pass over an address keeps its normal form unless it exposes a parameter. -/
theorem normalizeUrl_idempotent_iff (hlawful : tables.Lawful)
    (hsplit : urlsplit tables.refuses url = some parts) :
    normalizeUrl tables (normalizeUrl tables url) = normalizeUrl tables url ↔
      ¬ExposesParams parts := by
  have hparts := (urlsplit_eq_some hsplit).1
  have hscheme := lower_scheme hlawful hparts
  rw [normalizeUrl_eq_iff hlawful (urlsplit_normalizeUrl hlawful hsplit) hsplit]
  have hpath := strippedPath_barePath_iff (normalParts tables parts) rfl
  simp only [normalParts, hscheme] at hpath
  constructor
  · intro hsame hexposes
    have hkept := hsame.path
    simp only [normalParts, hscheme] at hkept
    exact hpath.mp hkept hexposes
  · intro hnone
    constructor
    · exact hscheme
    · exact hlawful.lower_lower parts.netloc
    · simp only [normalParts, hscheme]
      exact hpath.mpr hnone
    · exact filteredQuery_filteredQuery parts.query

/-! ### Tracking parameters -/

/-- A name that normalization means to remove. -/
def IsTracking (name : List Char) : Prop :=
  name ∈ trackingParams ∧ name ∉ atsPreserveParams

def paramNames (query : List Char) : List (List Char) :=
  (parseQs query).map Prod.fst

theorem lower_trackingParams (hlawful : tables.Lawful) : ∀ name ∈ trackingParams,
    tables.lower name ∈ trackingParams ∨ name = "trkEmail".toList := by
  have hascii : ∀ name ∈ trackingParams,
      (name.all fun char => decide (char.toNat < 128)) = true ∧
      (name.map Char.toLower ∈ trackingParams ∨ name = "trkEmail".toList) := by
    decide
  intro name hname
  obtain ⟨hcharacters, hlower⟩ := hascii name hname
  rw [hlawful.ascii name (forall_mem_of_all hcharacters)]
  exact hlower

theorem keepsParam_trkEmail (hlawful : tables.Lawful) :
    keepsParam tables "trkEmail".toList = true := by
  rw [keepsParam, hlawful.ascii _ (forall_mem_of_all (by decide))]
  decide

/-- A tracking parameter is kept if and only if it is the one whose name has a capital. -/
theorem keepsParam_of_isTracking (hlawful : tables.Lawful) (htracking : IsTracking name) :
    keepsParam tables name = true ↔ name = "trkEmail".toList := by
  constructor
  · intro hkept
    simp only [keepsParam, Bool.or_eq_true, decide_eq_true_eq] at hkept
    rcases hkept with hlower | hpreserved
    · exact (lower_trackingParams hlawful name htracking.1).resolve_left hlower
    · exact absurd hpreserved htracking.2
  · rintro rfl
    exact keepsParam_trkEmail hlawful

theorem mem_names_filteredQuery :
    name ∈ (filteredQuery tables query).map Prod.fst ↔
      name ∈ paramNames query ∧ keepsParam tables name = true := by
  unfold filteredQuery paramNames
  split
  · next hnone =>
    subst hnone
    have hempty : parseQs [] = [] := rfl
    simp [hempty]
  · simp only [List.mem_map, List.mem_filter]
    constructor
    · rintro ⟨entry, ⟨hentry, hkept⟩, rfl⟩
      exact ⟨⟨entry, hentry, rfl⟩, hkept⟩
    · rintro ⟨⟨entry, hentry, rfl⟩, hkept⟩
      exact ⟨entry, ⟨hentry, hkept⟩, rfl⟩

theorem untracked_iff (hlawful : tables.Lawful) (query : List Char) :
    (∀ name ∈ paramNames (urlencode (filteredQuery tables query)), ¬IsTracking name) ↔
      "trkEmail".toList ∉ paramNames query := by
  rw [paramNames, parseQs_filteredQuery]
  constructor
  · intro hnone hmem
    apply hnone "trkEmail".toList (mem_names_filteredQuery.mpr ⟨hmem, keepsParam_trkEmail hlawful⟩)
    exact ⟨by decide, by decide⟩
  · intro hnone name hname htracking
    obtain ⟨hmem, hkept⟩ := mem_names_filteredQuery.mp hname
    rw [(keepsParam_of_isTracking hlawful htracking).mp hkept] at hmem
    exact hnone hmem

/-! ### Two addresses -/

/-- The user information of a network location. -/
def userinfo (netloc : List Char) : List Char :=
  if '@' ∈ netloc then (netloc.rdropWhile (· != '@')).dropLast else []

/-- Two addresses that differ only in how they are written: in the letter case of the scheme
and the host, in trailing slashes, in the fragment, in tracking parameters, in the encoding of
the query and in the interleaving of its names. -/
structure SameAddress (tables : UrlTables) (first second : SplitUrl) : Prop extends
    SameNormal tables first second where
  userinfo : userinfo first.netloc = userinfo second.netloc
  params : pathParams first = pathParams second

def IsHttp (parts : SplitUrl) : Prop :=
  parts.scheme ∈ ["http", "https"].map String.toList

/-- What a canonical form promises for an address, and for it and another one. -/
structure Canonical (tables : UrlTables) (url other : List Char) : Prop where
  idempotent : normalizeUrl tables (normalizeUrl tables url) = normalizeUrl tables url
  untracked : ∀ parts, urlsplit tables.refuses (normalizeUrl tables url) = some parts →
    ∀ name ∈ paramNames parts.query, ¬IsTracking name
  faithful : ∀ first second, urlsplit tables.refuses url = some first →
    urlsplit tables.refuses other = some second → IsHttp first → IsHttp second →
    normalizeUrl tables url = normalizeUrl tables other → SameAddress tables first second

/-- Lower case of the first script, and network locations without half a bracket. -/
def asciiTables : UrlTables where
  lower := List.map Char.toLower
  refuses netloc := netloc.contains '[' != netloc.contains ']'

theorem toLower_of_not_isUpper (hnot : char.isUpper = false) :
    char.toLower = char := by
  delta Char.toLower
  exact dif_neg (of_decide_eq_false hnot)

theorem isAlphanum_of_isUpper (hupper : char.isUpper = true) :
    char.isAlphanum = true := by
  delta Char.isAlphanum Char.isAlpha
  rw [hupper, Bool.true_or, Bool.true_or]

theorem mem_map_toLower (hmark : mark.isAlphanum = false) :
    mark ∈ text.map Char.toLower ↔ mark ∈ text := by
  constructor
  · intro hmem
    obtain ⟨source, hsource, heq⟩ := List.mem_map.mp hmem
    cases hupper : source.isUpper with
    | false => rwa [← heq, toLower_of_not_isUpper hupper]
    | true =>
      have hletter := (toLower_letter (isAlphanum_of_isUpper hupper)).1
      rw [heq, hmark] at hletter
      cases hletter
  · intro hmem
    have hnot : mark.isUpper = false := by
      rw [Bool.eq_false_iff]
      intro hupper
      rw [isAlphanum_of_isUpper hupper] at hmark
      cases hmark
    exact List.mem_map.mpr ⟨mark, hmem, toLower_of_not_isUpper hnot⟩

theorem contains_map_toLower (hmark : mark.isAlphanum = false) (text : List Char) :
    (text.map Char.toLower).contains mark = text.contains mark := by
  rw [Bool.eq_iff_iff, List.contains_iff_mem, List.contains_iff_mem]
  exact mem_map_toLower hmark

theorem lawful_asciiTables : asciiTables.Lawful where
  lower_lower := by
    intro text
    change (text.map Char.toLower).map Char.toLower = text.map Char.toLower
    rw [List.map_map]
    apply List.map_congr_left
    intro char _
    rw [Function.comp_apply]
    cases hupper : char.isUpper with
    | false => rw [toLower_of_not_isUpper hupper, toLower_of_not_isUpper hupper]
    | true => exact (toLower_letter (isAlphanum_of_isUpper hupper)).2
  ascii := fun _ _ => rfl
  marks := by
    intro text char hchar hmark
    apply (mem_map_toLower ?_).mp hchar
    simp only [isDelimiter, isUnsafe, decide_eq_true_eq, List.mem_cons, List.not_mem_nil,
      or_false] at hmark
    rcases hmark with (rfl | rfl | rfl) | (rfl | rfl | rfl) <;> decide
  accepted := by
    intro netloc haccepted
    change ((netloc.map Char.toLower).contains '[' != (netloc.map Char.toLower).contains ']') =
      false
    rw [contains_map_toLower (by decide), contains_map_toLower (by decide)]
    exact haccepted

end JobApplyAgent.Ingestion
