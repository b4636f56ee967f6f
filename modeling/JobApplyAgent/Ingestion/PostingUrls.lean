import JobApplyAgent.Ingestion.UrlUtils
import JobApplyAgent.Library.Regex
import Mathlib.Data.List.Infix

/-!
# Posting addresses

The four parsers of public candidate addresses: the board, the job and the route that an
exact address names.  An address that is not exact is refused with the reason.
-/

namespace JobApplyAgent.Ingestion

open Library Library.QueryString Library.UrlText

/-- What the parsers have to know about texts. -/
structure IdentityTables extends UrlTables where
  /-- One character under `str.casefold`. -/
  fold : Char → List Char
  /-- The value of a decimal digit of any script. -/
  decimal : Char → Option ℕ

variable (tables : IdentityTables)

def IdentityTables.casefold (text : List Char) : List Char :=
  text.flatMap tables.fold

/-! ## The origin -/

/-- `urlsplit(url.strip())` and its port; `none` is a `ValueError`. -/
def candidateParts (url : List Char) : Option (SplitUrl × Option ℕ) :=
  (urlsplit tables.refuses (stripBy isSpace url)).bind fun parts =>
    (port parts.netloc).map fun found => (parts, found)

/-- A plain https origin on one of the hosts.  What else is asked of the host (no dot at its
end, no other script, no IP address) holds of every host that is listed. -/
def admitsOrigin (hosts : List (List Char)) (host : List Char) (parts : SplitUrl)
    (found : Option ℕ) : Bool :=
  tables.casefold parts.scheme == "https".toList && hosts.contains host
    && !hasUserinfo parts.netloc && parts.fragment.isEmpty
    && (found == none || found == some 443)

/-- `(parsed.hostname or "").lower()`. -/
def lowerHost (netloc : List Char) : List Char :=
  tables.lower (hostname tables.lower netloc)

/-- `(parsed.hostname or "").casefold()`. -/
def foldedHost (netloc : List Char) : List Char :=
  tables.casefold (hostname tables.lower netloc)

def isControl (character : Char) : Bool :=
  decide (character.toNat < 32) || character.toNat == 127

def pathSegments (path : List Char) : List (List Char) :=
  (path.splitOn '/').filter (!·.isEmpty)

def hasDoubleSlash (path : List Char) : Bool :=
  decide (['/', '/'] <:+: path)

def isTokenCharacter (character : Char) : Bool :=
  character.isAlphanum || decide (character ∈ ['_', '-'])

/-- Letters, digits and marks up to a length, with a letter or a digit at both ends. -/
def isEndedToken (marks : List Char) (bound : ℕ) (text : List Char) : Bool :=
  decide (text.length ≤ bound) && text.head?.any Char.isAlphanum
    && text.getLast?.any Char.isAlphanum
    && text.all fun character => character.isAlphanum || decide (character ∈ marks)

/-! ## Greenhouse -/

namespace Greenhouse

def allowedCandidateHosts : List (List Char) :=
  ["boards.greenhouse.io", "job-boards.greenhouse.io", "greenhouse-hosted.com"].map String.toList

/-- `_IDENTITY_TOKEN`. -/
def isIdentityToken (text : List Char) : Bool :=
  decide (1 ≤ text.length ∧ text.length ≤ 120) && text.all isTokenCharacter

/-- `_JOB_TOKEN`. -/
def isJobToken (text : List Char) : Bool :=
  decide (1 ≤ text.length ∧ text.length ≤ 20) && text.all Char.isDigit

inductive Route where
  | hosted
  | embedded
  | jobId
  deriving DecidableEq

structure ApplicationIdentity where
  boardToken : List Char
  jobToken : List Char
  deriving DecidableEq

structure CandidateUrl where
  hostname : List Char
  identity : ApplicationIdentity
  route : Route
  deriving DecidableEq

abbrev Values := List (List Char × List Char)

def queryKeys : List (List Char) :=
  ["for", "gh_jid", "gh_src", "token"].map String.toList

def readValue (pair : List Char × List Char) : List Char × List Char :=
  (tables.casefold pair.1, stripBy isSpace pair.2)

/-- The loop of `_bounded_query` accepts the values of the pairs. -/
def acceptsValues (values : Values) : Bool :=
  decide (values.map Prod.fst).Nodup
    && values.all (fun entry => queryKeys.contains entry.1 && !entry.2.isEmpty
      && decide (entry.2.length ≤ 160))
    && ((values.lookup "gh_src".toList).all isIdentityToken)

def boundedQuery (query : List Char) : Except String Values :=
  let values := (parseQsl query).map (readValue tables)
  if query.contains '\\' || query.contains '%' || query.any isControl
      || decide (4 < values.length) || !acceptsValues values then
    .error "GREENHOUSE_QUERY_INVALID"
  else .ok values

/-- `set(values) == set(keys)`. -/
def keysAre (values : Values) (keys : List String) : Bool :=
  values.all (fun entry => (keys.map String.toList).contains entry.1)
    && keys.all fun key => (values.lookup key.toList).isSome

/-- The groups of `_HOSTED_PATH`; one slash may follow them. -/
def hostedPath (path : List Char) : Option (List Char × List Char) :=
  let segments := path.splitOn '/'
  match if segments.getLast? = some [] then segments.dropLast else segments with
  | [[], board, jobs, job] =>
    if isIdentityToken board && jobs == "jobs".toList && isJobToken job then some (board, job)
    else none
  | _ => none

/-- The path and the values name a job on its own page. -/
def hostedRoute (values : Values) (board job : List Char) :
    Except String (ApplicationIdentity × Route) :=
  if !values.all (fun entry => (["gh_jid", "gh_src"].map String.toList).contains entry.1) then
    .error "GREENHOUSE_QUERY_INVALID"
  else if !(values.lookup "gh_jid".toList).all fun found => isJobToken found && found == job then
    .error "GREENHOUSE_JOB_ID_MISMATCH"
  else .ok (⟨tables.casefold board, job⟩, .hosted)

/-- The embedded form of a board. -/
def embeddedRoute (values : Values) : Except String (ApplicationIdentity × Route) :=
  if !(keysAre values ["for", "token"] || keysAre values ["for", "gh_src", "token"]) then
    .error "GREENHOUSE_QUERY_INVALID"
  else
    let board := (values.lookup "for".toList).getD []
    let job := (values.lookup "token".toList).getD []
    if !isIdentityToken board || !isJobToken job then .error "GREENHOUSE_IDENTITY_INVALID"
    else .ok (⟨tables.casefold board, job⟩, .embedded)

/-- A board with the job in the query. -/
def jobIdRoute (segments : List (List Char)) (values : Values) :
    Except String (ApplicationIdentity × Route) :=
  match segments with
  | [board] =>
    let job := (values.lookup "gh_jid".toList).getD []
    if isIdentityToken board
        && (keysAre values ["gh_jid"] || keysAre values ["gh_jid", "gh_src"])
        && isJobToken job then
      .ok (⟨tables.casefold board, job⟩, .jobId)
    else .error "GREENHOUSE_PATH_INVALID"
  | _ => .error "GREENHOUSE_PATH_INVALID"

/-- What the path and the values of the query name. -/
def namedRoute (path : List Char) (values : Values) :
    Except String (ApplicationIdentity × Route) :=
  match hostedPath path with
  | some (board, job) => hostedRoute tables values board job
  | none =>
    if (tables.casefold path).rdropWhile (· == '/') = "/embed/job_app".toList then
      embeddedRoute tables values
    else jobIdRoute tables (pathSegments path) values

def refusesPath (path : List Char) : Bool :=
  path.contains '\\' || path.contains '%' || hasDoubleSlash path
    || (path.splitOn '/').any fun segment => segment == ['.'] || segment == ['.', '.']

def candidateRoute (path query : List Char) : Except String (ApplicationIdentity × Route) :=
  let rawPath := if path = [] then ['/'] else path
  if refusesPath rawPath then .error "GREENHOUSE_PATH_INVALID"
  else (boundedQuery tables query).bind (namedRoute tables rawPath)

def ofParts (parts : SplitUrl) (found : Option ℕ) : Except String CandidateUrl :=
  if !admitsOrigin tables allowedCandidateHosts (lowerHost tables parts.netloc) parts found then
    .error "GREENHOUSE_ORIGIN_INVALID"
  else do
    let (identity, route) ← candidateRoute tables parts.path parts.query
    return { hostname := lowerHost tables parts.netloc, identity, route }

/-- `parse_greenhouse_candidate_url`. -/
def parseCandidateUrl (url : List Char) : Except String CandidateUrl :=
  match candidateParts tables url with
  | none => .error "GREENHOUSE_URL_INVALID"
  | some (parts, found) => ofParts tables parts found

end Greenhouse

/-! ## Lever -/

namespace Lever

def hosts : List (List Char) :=
  ["jobs.lever.co", "jobs.eu.lever.co"].map String.toList

structure PostingIdentity where
  hostname : List Char
  site : List Char
  postingId : List Char
  deriving DecidableEq

def isHexDigit (character : Char) : Bool :=
  isLowerHexDigit character || (decide ('A' ≤ character) && decide (character ≤ 'F'))

/-- The site and the identifier of a posting, and the suffix behind them. -/
def ofSegments (hostname : List Char) (site postingId : List Char) (suffix : List (List Char)) :
    Except String PostingIdentity :=
  if isEndedToken ['_', '-'] 128 site && isUuidText isHexDigit postingId
      && (suffix.isEmpty || suffix == ["apply".toList]) then
    .ok { hostname, site, postingId := tables.lower postingId }
  else .error "LEVER_POSTING_IDENTITY_REQUIRED"

/-- The identity that the segments of a path name. -/
def ofPath (hostname path : List Char) : Except String PostingIdentity :=
  match pathSegments path with
  | [site, postingId] => ofSegments tables hostname site postingId []
  | [site, postingId, suffix] => ofSegments tables hostname site postingId [suffix]
  | _ => .error "LEVER_POSTING_IDENTITY_REQUIRED"

def ofParts (parts : SplitUrl) (found : Option ℕ) : Except String PostingIdentity :=
  if !admitsOrigin tables hosts (lowerHost tables parts.netloc) parts found
      || !parts.query.isEmpty || parts.path.contains '\\' then
    .error "LEVER_URL_INVALID"
  else ofPath tables (lowerHost tables parts.netloc) parts.path

/-- `parse_lever_posting_identity`. -/
def parsePostingIdentity (url : List Char) : Except String PostingIdentity :=
  match candidateParts tables url with
  | none => .error "LEVER_URL_INVALID"
  | some (parts, found) => ofParts tables parts found

end Lever

/-! ## Ashby -/

namespace Ashby

def candidateHost : List Char :=
  "jobs.ashbyhq.com".toList

/-- `_BOARD_TOKEN`. -/
def isBoardToken (text : List Char) : Bool :=
  decide (text.length ≤ 80) && text.head?.any Char.isAlphanum && text.all isTokenCharacter

inductive Route where
  | job
  | application
  deriving DecidableEq

structure ApplicationIdentity where
  boardToken : List Char
  postingId : List Char
  deriving DecidableEq

structure CandidateUrl where
  hostname : List Char
  identity : ApplicationIdentity
  route : Route
  deriving DecidableEq

def allowedQueryKeys : List (List Char) :=
  ["source", "utm_campaign", "utm_content", "utm_medium", "utm_source", "utm_term"].map
    String.toList

def maxQueryItems : ℕ := 8

def maxQueryValueChars : ℕ := 256

/-- `parse_qsl(query, keep_blank_values=True, strict_parsing=True, max_num_fields=maximum)`. -/
def parseQslStrict (maximum : ℕ) (query : List Char) : Option (List (List Char × List Char)) :=
  if query = [] then some []
  else
    let pieces := query.splitOn '&'
    if maximum < pieces.length || !pieces.all (fun piece => piece.contains '=') then none
    else some (pieces.map readPair)

def entryKey (entry : List Char × List Char) : List Char :=
  tables.casefold (stripBy isSpace entry.1)

/-- An entry that is not refused, but where its key was seen before. -/
def allowsEntry (entry : List Char × List Char) : Bool :=
  allowedQueryKeys.contains (entryKey tables entry) && !(stripBy isSpace entry.2).isEmpty
    && decide (entry.2.length ≤ maxQueryValueChars) && !entry.2.contains '\\'
    && !entry.2.any isControl

def validateQuery (query : List Char) : Except String Unit :=
  match parseQslStrict maxQueryItems query with
  | none => .error "ASHBY_QUERY_INVALID"
  | some entries =>
    if entries.all (allowsEntry tables) && decide (entries.map (entryKey tables)).Nodup then
      .ok ()
    else .error "ASHBY_QUERY_INVALID"

/-- The segments of a path, without the empty ones at its two ends. -/
def routeSegments (path : List Char) : List (List Char) :=
  let segments := path.splitOn '/'
  let rooted := if segments.head? = some [] then segments.tail else segments
  if rooted.getLast? = some [] then rooted.dropLast else rooted

def asciiDigit (character : Char) : Char :=
  match tables.decimal character with
  | some digit => Char.ofNat ('0'.toNat + digit)
  | none => character

/-- `int(text, 16)` raises nothing. -/
def readsHex (text : List Char) : Bool :=
  let core := (stripBy isSpace text).map (asciiDigit tables)
  let unsigned := if core.head?.any (['+', '-'].contains ·) then core.tail else core
  let digits :=
    if unsigned.take 2 = ['0', 'x'] ∨ unsigned.take 2 = ['0', 'X'] then
      if unsigned[2]? = some '_' then unsigned.drop 3 else unsigned.drop 2
    else unsigned
  (digits.splitOn '_').all fun group => !group.isEmpty && group.all Lever.isHexDigit

/-- `UUID(text)` raises nothing. -/
def readsUuid (text : List Char) : Bool :=
  let without := fun (mark : String) => (Regex.word (· == ·) mark.toList).sub []
  let plain := stripBy (['{', '}'].contains ·) (without "uuid:" (without "urn:" text))
  let digits := plain.filter (· != '-')
  digits.length == 32 && readsHex tables digits

def identityOf (board postingId : List Char) (route : Route) :
    Except String (ApplicationIdentity × Route) :=
  if !isCanonicalUuid postingId then
    .error (if readsUuid tables postingId then "ASHBY_POSTING_ID_NOT_CANONICAL"
      else "ASHBY_POSTING_ID_INVALID")
  else .ok (⟨board, postingId⟩, route)

def candidateRoute (path : List Char) : Except String (ApplicationIdentity × Route) :=
  match routeSegments path with
  | [board, postingId] =>
    if !isBoardToken board then .error "ASHBY_BOARD_TOKEN_INVALID"
    else identityOf tables board postingId .job
  | [board, postingId, suffix] =>
    if !isBoardToken board then .error "ASHBY_BOARD_TOKEN_INVALID"
    else if suffix ≠ "application".toList then .error "ASHBY_ROUTE_INVALID"
    else identityOf tables board postingId .application
  | _ => .error "ASHBY_ROUTE_INVALID"

def ofParts (parts : SplitUrl) (found : Option ℕ) : Except String CandidateUrl :=
  if !admitsOrigin tables [candidateHost] (foldedHost tables parts.netloc) parts found then
    .error "ASHBY_CANDIDATE_ORIGIN_INVALID"
  else do
    let (identity, route) ← candidateRoute tables parts.path
    validateQuery tables parts.query
    return { hostname := foldedHost tables parts.netloc, identity, route }

/-- `parse_ashby_candidate_url`. -/
def parseCandidateUrl (url : List Char) : Except String CandidateUrl :=
  match candidateParts tables url with
  | none => .error "ASHBY_URL_INVALID"
  | some (parts, found) => ofParts tables parts found

end Ashby

/-! ## SmartRecruiters -/

namespace SmartRecruiters

def candidateHost : List Char :=
  "jobs.smartrecruiters.com".toList

structure CandidateIdentity where
  hostname : List Char
  company : List Char
  publicId : List Char
  slug : Option (List Char)
  deriving DecidableEq

/-- The groups of `_POSTING_SEGMENT_RE`. -/
def postingSegment (segment : List Char) : Option (List Char × Option (List Char)) :=
  let publicId := segment.takeWhile Char.isDigit
  if 6 ≤ publicId.length ∧ publicId.length ≤ 20 then
    match segment.dropWhile Char.isDigit with
    | [] => some (publicId, none)
    | '-' :: slug => if isEndedToken ['-'] 200 slug then some (publicId, some slug) else none
    | _ => none
  else none

def ofSegments (hostname company segment : List Char) (suffix : List (List Char)) :
    Except String CandidateIdentity :=
  match postingSegment segment with
  | some (publicId, slug) =>
    if isEndedToken ['_', '-'] 128 company && publicId.any (· != '0')
        && (suffix.isEmpty || suffix == ["apply".toList]) then
      .ok { hostname, company, publicId, slug }
    else .error "SMARTRECRUITERS_CANDIDATE_IDENTITY_REQUIRED"
  | none => .error "SMARTRECRUITERS_CANDIDATE_IDENTITY_REQUIRED"

/-- The identity that the segments of a path name. -/
def ofPath (hostname path : List Char) : Except String CandidateIdentity :=
  match pathSegments path with
  | [company, segment] => ofSegments hostname company segment []
  | [company, segment, suffix] => ofSegments hostname company segment [suffix]
  | _ => .error "SMARTRECRUITERS_CANDIDATE_IDENTITY_REQUIRED"

def ofParts (parts : SplitUrl) (found : Option ℕ) : Except String CandidateIdentity :=
  if !admitsOrigin tables [candidateHost] (foldedHost tables parts.netloc) parts found
      || !parts.query.isEmpty || parts.path.contains '\\' || parts.path.head? != some '/'
      || parts.path.getLast? == some '/' || hasDoubleSlash parts.path then
    .error "SMARTRECRUITERS_URL_INVALID"
  else ofPath (foldedHost tables parts.netloc) parts.path

/-- `parse_smartrecruiters_candidate_identity`. -/
def parseCandidateIdentity (url : List Char) : Except String CandidateIdentity :=
  match candidateParts tables url with
  | none => .error "SMARTRECRUITERS_URL_INVALID"
  | some (parts, found) => ofParts tables parts found

end SmartRecruiters

/-! ## The four parsers -/

inductive Ats where
  | greenhouse
  | lever
  | ashby
  | smartRecruiters
  deriving DecidableEq

/-- What an accepted address names. -/
inductive Posting where
  | greenhouse (url : Greenhouse.CandidateUrl)
  | lever (identity : Lever.PostingIdentity)
  | ashby (url : Ashby.CandidateUrl)
  | smartRecruiters (identity : SmartRecruiters.CandidateIdentity)
  deriving DecidableEq

def postingOfParts (parts : SplitUrl) (found : Option ℕ) : Ats → Except String Posting
  | .greenhouse => (Greenhouse.ofParts tables parts found).map .greenhouse
  | .lever => (Lever.ofParts tables parts found).map .lever
  | .ashby => (Ashby.ofParts tables parts found).map .ashby
  | .smartRecruiters => (SmartRecruiters.ofParts tables parts found).map .smartRecruiters

/-- The result of one of the parsers. -/
def parsePosting (url : List Char) : Ats → Except String Posting
  | .greenhouse => (Greenhouse.parseCandidateUrl tables url).map .greenhouse
  | .lever => (Lever.parsePostingIdentity tables url).map .lever
  | .ashby => (Ashby.parseCandidateUrl tables url).map .ashby
  | .smartRecruiters => (SmartRecruiters.parseCandidateIdentity tables url).map .smartRecruiters

/-- The error of an address that cannot be split. -/
def Ats.urlInvalid : Ats → String
  | .greenhouse => "GREENHOUSE_URL_INVALID"
  | .lever => "LEVER_URL_INVALID"
  | .ashby => "ASHBY_URL_INVALID"
  | .smartRecruiters => "SMARTRECRUITERS_URL_INVALID"

theorem parsePosting_eq (url : List Char) (ats : Ats) :
    parsePosting tables url ats =
      match candidateParts tables url with
      | none => .error ats.urlInvalid
      | some (parts, found) => postingOfParts tables parts found ats := by
  cases ats <;>
    simp only [parsePosting, Greenhouse.parseCandidateUrl, Lever.parsePostingIdentity,
      Ashby.parseCandidateUrl, SmartRecruiters.parseCandidateIdentity] <;>
    cases candidateParts tables url <;> rfl

/-- An address is accepted as its parts are. -/
theorem parsePosting_eq_ok :
    parsePosting tables url ats = .ok posting ↔
      ∃ parts found, candidateParts tables url = some (parts, found) ∧
        postingOfParts tables parts found ats = .ok posting := by
  rw [parsePosting_eq]
  cases candidateParts tables url with
  | none => simp
  | some pair =>
    obtain ⟨parts, found⟩ := pair
    simp

end JobApplyAgent.Ingestion
