import JobApplyAgent.Library.Text

/-!
# Addresses

The parts of an address, how they are read and how they are put together.  Parts that were
read from an address are read again from the text that is put together from them.
-/

namespace JobApplyAgent.Library.UrlText

/-- `SplitResult`. -/
structure SplitUrl where
  scheme : List Char
  netloc : List Char
  path : List Char
  query : List Char
  fragment : List Char
  deriving DecidableEq

/-! ## Reading an address -/

/-- `_WHATWG_C0_CONTROL_OR_SPACE`. -/
def isControlOrSpace (character : Char) : Bool :=
  decide (character.toNat ≤ 0x20)

/-- `_UNSAFE_URL_BYTES_TO_REMOVE`. -/
def isUnsafe (character : Char) : Bool :=
  decide (character ∈ ['\t', '\r', '\n'])

/-- `scheme_chars`. -/
def schemeCharacter (character : Char) : Bool :=
  character.isAlphanum || decide (character ∈ ['+', '-', '.'])

/-- What stands before the first colon is a scheme. -/
def readsScheme (text : List Char) : Bool :=
  text.contains ':' && text.head?.any Char.isAlpha
    && (text.takeWhile (· != ':')).all schemeCharacter

def splitScheme (text : List Char) : List Char × List Char :=
  if readsScheme text then
    ((text.takeWhile (· != ':')).map Char.toLower, (text.dropWhile (· != ':')).tail)
  else
    ([], text)

/-- A character that ends a network location. -/
def isDelimiter (character : Char) : Bool :=
  decide (character ∈ ['/', '?', '#'])

def splitNetloc : List Char → List Char × List Char
  | '/' :: '/' :: rest => (rest.takeWhile (!isDelimiter ·), rest.dropWhile (!isDelimiter ·))
  | text => ([], text)

/-- The text before the first separator and the text behind it. -/
def cutAt (separator : Char) (text : List Char) : List Char × List Char :=
  (text.takeWhile (· != separator), (text.dropWhile (· != separator)).tail)

/-- `urlsplit(url)`; `none` is a `ValueError`, which some network locations raise. -/
def urlsplit (refuses : List Char → Bool) (url : List Char) : Option SplitUrl :=
  let text := (url.dropWhile isControlOrSpace).filter (!isUnsafe ·)
  let (scheme, rest) := splitScheme text
  let (netloc, rest) := splitNetloc rest
  if !netloc.isEmpty && refuses netloc then
    none
  else
    let (rest, fragment) := cutAt '#' rest
    let (path, query) := cutAt '?' rest
    some { scheme, netloc, path, query, fragment }

/-! ### Path parameters -/

/-- `ParseResult`. -/
structure ParsedUrl where
  scheme : List Char
  netloc : List Char
  path : List Char
  params : List Char
  query : List Char
  fragment : List Char

def usesParams : List (List Char) :=
  ["", "ftp", "hdl", "prospero", "http", "https", "shttp", "rtsp", "rtsps", "sip", "sips", "mms",
    "sftp", "tel"].map String.toList

def lastSegment (path : List Char) : List Char :=
  path.rtakeWhile (· != '/')

/-- The path up to the parameters of its last segment, and these. -/
def splitparams (path : List Char) : List Char × List Char :=
  let (segment, params) := cutAt ';' (lastSegment path)
  (path.rdropWhile (· != '/') ++ segment, params)

def urlparse (refuses : List Char → Bool) (url : List Char) : Option ParsedUrl :=
  (urlsplit refuses url).map fun parts =>
    let (path, params) :=
      if parts.scheme ∈ usesParams ∧ ';' ∈ parts.path then splitparams parts.path
      else (parts.path, [])
    { scheme := parts.scheme, netloc := parts.netloc, path, params, query := parts.query,
      fragment := parts.fragment }

/-! ## Putting an address together -/

def usesNetloc : List (List Char) :=
  ["ftp", "http", "gopher", "nntp", "telnet", "imap", "wais", "file", "mms", "https", "shttp",
    "snews", "prospero", "rtsp", "rtsps", "rtspu", "rsync", "svn", "svn+ssh", "sftp", "nfs",
    "git", "git+ssh", "ws", "wss", "itms-services"].map String.toList

/-- The network location and the path. -/
def hierarchy (parts : SplitUrl) : List Char :=
  if parts.netloc ≠ [] then
    '/' :: '/' :: (parts.netloc ++
      if parts.path ≠ [] ∧ parts.path.head? ≠ some '/' then '/' :: parts.path else parts.path)
  else if parts.path.take 2 = ['/', '/'] then
    '/' :: '/' :: parts.path
  else if parts.scheme ∈ usesNetloc ∧ (parts.path = [] ∨ parts.path.head? = some '/') then
    '/' :: '/' :: parts.path
  else
    parts.path

/-- A part behind its separator, if there is one. -/
def trailing (separator : Char) (part : List Char) : List Char :=
  if part = [] then [] else separator :: part

def urlunsplit (parts : SplitUrl) : List Char :=
  (if parts.scheme = [] then [] else parts.scheme ++ [':'])
    ++ (hierarchy parts ++ trailing '?' parts.query ++ trailing '#' parts.fragment)

def urlunparse (parsed : ParsedUrl) : List Char :=
  urlunsplit {
    scheme := parsed.scheme
    netloc := parsed.netloc
    path := if parsed.params = [] then parsed.path else parsed.path ++ ';' :: parsed.params
    query := parsed.query
    fragment := parsed.fragment
  }

/-! ## Parts that were read -/

/-- The parts of an address as they are read. -/
structure WellSplit (parts : SplitUrl) : Prop where
  scheme : parts.scheme = [] ∨ parts.scheme.head?.any Char.isAlpha = true ∧
    ∀ character ∈ parts.scheme, schemeCharacter character = true ∧ character.toLower = character
  netloc : ∀ character ∈ parts.netloc,
    isDelimiter character = false ∧ isUnsafe character = false
  path : ∀ character ∈ parts.path,
    character ≠ '?' ∧ character ≠ '#' ∧ isUnsafe character = false
  query : ∀ character ∈ parts.query, character ≠ '#' ∧ isUnsafe character = false
  fragment : ∀ character ∈ parts.fragment, isUnsafe character = false
  rooted : parts.netloc ≠ [] → parts.path = [] ∨ parts.path.head? = some '/'
  relative : parts.scheme = [] → parts.netloc = [] →
    readsScheme parts.path = false ∧ parts.path.head?.any isControlOrSpace = false

variable {path : List Char} {char : Char}

theorem readsScheme_iff : readsScheme text = true ↔
    ':' ∈ text ∧ text.head?.any Char.isAlpha = true ∧
      ∀ char ∈ text.takeWhile (· != ':'), schemeCharacter char = true := by
  simp [readsScheme, and_assoc]

theorem takeWhile_append_of_mem (hmem : separator ∈ first) (second : List Char) :
    (first ++ second).takeWhile (· != separator) = first.takeWhile (· != separator) := by
  induction first with
  | nil => cases hmem
  | cons char first ih =>
    rw [List.cons_append, List.takeWhile_cons, List.takeWhile_cons]
    by_cases hsame : char = separator
    · simp [hsame]
    have hlater : separator ∈ first := by
      rcases List.mem_cons.mp hmem with rfl | hlater
      · exact absurd rfl hsame
      · exact hlater
    rw [ih hlater]

/-- What follows the path of an address. -/
def Behind (tail : List Char) : Prop :=
  ∀ character, tail.head? = some character → character = '?' ∨ character = '#'

theorem readsScheme_append (htail : Behind tail) :
    readsScheme (path ++ tail) = readsScheme path := by
  rw [Bool.eq_iff_iff, readsScheme_iff, readsScheme_iff]
  by_cases hcolon : ':' ∈ path
  · have hhead : (path ++ tail).head? = path.head? := by
      cases path with
      | nil => cases hcolon
      | cons => rfl
    rw [takeWhile_append_of_mem hcolon, hhead]
    simp [hcolon]
  · constructor
    · rintro ⟨hmem, _, hscheme⟩
      exfalso
      have hbefore : ∀ char ∈ path, (char != ':') = true := by
        intro char hchar
        rw [bne_iff_ne]
        rintro rfl
        exact hcolon hchar
      rw [List.takeWhile_append_of_pos hbefore] at hscheme
      cases tail with
      | nil => exact hcolon (by simpa using hmem)
      | cons first tail =>
        have hfirst := htail first rfl
        have hmark := hscheme first (List.mem_append_right _ (by
          rcases hfirst with rfl | rfl <;> simp))
        rcases hfirst with rfl | rfl <;> exact absurd hmark (by decide)
    · rintro ⟨hmem, _⟩
      exact absurd hmem hcolon

theorem readsScheme_of_isPrefix (hbegins : first <+: path) (hpath : readsScheme path = false) :
    readsScheme first = false := by
  obtain ⟨rest, rfl⟩ := hbegins
  rw [Bool.eq_false_iff] at hpath ⊢
  intro hfirst
  apply hpath
  rw [readsScheme_iff] at hfirst ⊢
  obtain ⟨hcolon, hhead, hscheme⟩ := hfirst
  rw [takeWhile_append_of_mem hcolon]
  refine ⟨List.mem_append_left _ hcolon, ?_, hscheme⟩
  cases first with
  | nil => cases hcolon
  | cons => exact hhead

/-! ### Separators -/

theorem cutAt_trailing (hfirst : separator ∉ first) (second : List Char) :
    cutAt separator (first ++ trailing separator second) = (first, second) := by
  have hbefore : ∀ char ∈ first, (char != separator) = true := by
    intro char hchar
    rw [bne_iff_ne]
    rintro rfl
    exact hfirst hchar
  rw [cutAt, List.takeWhile_append_of_pos hbefore, List.dropWhile_append_of_pos hbefore]
  unfold trailing
  split
  · next hnone => simp [hnone]
  · simp

theorem cutAt_eq (separator : Char) (text : List Char) :
    ∃ tail, text = (cutAt separator text).1 ++ tail ∧ separator ∉ (cutAt separator text).1 ∧
      (cutAt separator text).2 = tail.tail ∧
      ∀ char, tail.head? = some char → char = separator := by
  refine ⟨text.dropWhile (· != separator), (List.takeWhile_append_dropWhile ..).symm, ?_, rfl, ?_⟩
  · intro hmem
    simpa using List.mem_takeWhile_imp hmem
  · intro char hhead
    have hnot := List.head?_dropWhile_not (· != separator) text
    rw [hhead] at hnot
    simpa using hnot

theorem mem_trailing (hchar : char ∈ trailing separator part) :
    char = separator ∨ char ∈ part := by
  unfold trailing at hchar
  split at hchar
  · cases hchar
  · exact List.mem_cons.mp hchar

theorem behind_trailing (query fragment : List Char) :
    Behind (trailing '?' query ++ trailing '#' fragment) := by
  intro char hhead
  unfold trailing at hhead
  split at hhead <;> split at hhead <;> simp at hhead <;> simp [← hhead]

/-! ### What was read -/

theorem splitScheme_eq (hsplit : splitScheme text = (scheme, rest)) :
    (scheme = [] ∧ rest = text ∧ readsScheme text = false) ∨
      (readsScheme text = true ∧ scheme = (text.takeWhile (· != ':')).map Char.toLower ∧
        ∃ before, text = before ++ rest) := by
  unfold splitScheme at hsplit
  split at hsplit
  · next hreads =>
    cases hsplit
    refine .inr ⟨hreads, rfl, text.takeWhile (· != ':') ++
      (text.dropWhile (· != ':')).take 1, ?_⟩
    rw [List.append_assoc, ← List.drop_one, List.take_append_drop,
      List.takeWhile_append_dropWhile]
  · next hreads =>
    cases hsplit
    exact .inl ⟨rfl, rfl, Bool.eq_false_iff.mpr hreads⟩

theorem toLower_letter (hletter : char.isAlphanum = true) :
    char.toLower.isAlphanum = true ∧ char.toLower.toLower = char.toLower := by
  have hascii : ∀ code < 128, (Char.ofNat code).isAlphanum = true →
      (Char.ofNat code).toLower.isAlphanum = true ∧
        (Char.ofNat code).toLower.toLower = (Char.ofNat code).toLower := by
    decide
  have hread := hascii char.toNat (toNat_lt_of_isAlphanum hletter)
  rw [Char.ofNat_toNat] at hread
  exact hread hletter

theorem schemeCharacter_toLower (hscheme : schemeCharacter char = true) :
    schemeCharacter char.toLower = true ∧
      char.toLower.toLower = char.toLower := by
  simp only [schemeCharacter, Bool.or_eq_true, decide_eq_true_eq] at hscheme ⊢
  rcases hscheme with halphanum | hmark
  · obtain ⟨hlower, hsame⟩ := toLower_letter halphanum
    exact ⟨.inl hlower, hsame⟩
  · simp only [List.mem_cons, List.not_mem_nil, or_false] at hmark
    rcases hmark with rfl | rfl | rfl <;> decide

theorem isAlpha_toLower (halpha : char.isAlpha = true) :
    char.toLower.isAlpha = true := by
  have hascii : ∀ code < 128, (Char.ofNat code).isAlpha = true →
      (Char.ofNat code).toLower.isAlpha = true := by
    decide
  have hbound : char.toNat < 128 := by
    apply toNat_lt_of_isAlphanum
    simp [Char.isAlphanum, halpha]
  have hread := hascii char.toNat hbound
  rw [Char.ofNat_toNat] at hread
  exact hread halpha

theorem scheme_wellSplit (hreads : readsScheme text = true) :
    ((text.takeWhile (· != ':')).map Char.toLower).head?.any Char.isAlpha = true ∧
      ∀ char ∈ (text.takeWhile (· != ':')).map Char.toLower,
        schemeCharacter char = true ∧ char.toLower = char := by
  obtain ⟨_, hhead, hscheme⟩ := readsScheme_iff.mp hreads
  constructor
  · cases text with
    | nil => cases hhead
    | cons first rest =>
      have hfirst : first.isAlpha = true := hhead
      have hcolon : first ≠ ':' := by
        rintro rfl
        exact absurd hfirst (by decide)
      simp [hcolon, isAlpha_toLower hfirst]
  · intro char hchar
    obtain ⟨source, hsource, rfl⟩ := List.mem_map.mp hchar
    exact schemeCharacter_toLower (hscheme source hsource)

theorem splitNetloc_eq (hsplit : splitNetloc text = (netloc, rest)) :
    (netloc = [] ∧ rest = text) ∨
      text = '/' :: '/' :: (netloc ++ rest) ∧
        (∀ char ∈ netloc, isDelimiter char = false) ∧
        ∀ char, rest.head? = some char → isDelimiter char = true := by
  unfold splitNetloc at hsplit
  split at hsplit
  · next after =>
    cases hsplit
    refine .inr ⟨by rw [List.takeWhile_append_dropWhile], ?_, ?_⟩
    · intro char hchar
      simpa using List.mem_takeWhile_imp hchar
    · intro char hhead
      have hnot := List.head?_dropWhile_not (fun char => !isDelimiter char) after
      rw [hhead] at hnot
      simpa using hnot
  · cases hsplit
    exact .inl ⟨rfl, rfl⟩

theorem rooted_of_delimiter (hdelimiter : ∀ char, (path ++ tail).head? = some char →
      isDelimiter char = true) (hquestion : '?' ∉ path) (hhash : '#' ∉ path) :
    path = [] ∨ path.head? = some '/' := by
  cases path with
  | nil => exact .inl rfl
  | cons first path =>
    right
    have hmark := hdelimiter first rfl
    simp only [isDelimiter, decide_eq_true_eq, List.mem_cons, List.not_mem_nil,
      or_false] at hmark
    rcases hmark with rfl | rfl | rfl
    · rfl
    · simp at hquestion
    · simp at hhash

theorem relative_of_rooted (hrooted : path = [] ∨ path.head? = some '/') :
    readsScheme path = false ∧ path.head?.any isControlOrSpace = false := by
  rcases hrooted with rfl | hslash
  · exact ⟨rfl, rfl⟩
  constructor
  · rw [Bool.eq_false_iff]
    intro hreads
    have hhead := (readsScheme_iff.mp hreads).2.1
    rw [hslash] at hhead
    exact absurd hhead (by decide)
  · rw [hslash]
    decide

/-- The first character of an address is no control character, and none of its characters is
removed. -/
theorem cleaned (url : List Char) :
    (∀ char ∈ (url.dropWhile isControlOrSpace).filter (!isUnsafe ·),
      isUnsafe char = false) ∧
    ((url.dropWhile isControlOrSpace).filter (!isUnsafe ·)).head?.any isControlOrSpace =
      false := by
  constructor
  · intro char hchar
    simpa using (List.mem_filter.mp hchar).2
  · have hnot := List.head?_dropWhile_not isControlOrSpace url
    cases hrest : url.dropWhile isControlOrSpace with
    | nil => rfl
    | cons first rest =>
      rw [hrest, List.head?_cons] at hnot
      have hfirst : isControlOrSpace first = false := by simpa using hnot
      have hsafe : isUnsafe first = false := by
        rw [Bool.eq_false_iff]
        intro hunsafe
        simp only [isUnsafe, decide_eq_true_eq, List.mem_cons, List.not_mem_nil,
          or_false] at hunsafe
        rcases hunsafe with rfl | rfl | rfl <;> exact absurd hfirst (by decide)
      simp [hsafe, hfirst]

/-- The parts that are read from an address. -/
theorem urlsplit_eq_some (hsplit : urlsplit refuses url = some parts) :
    WellSplit parts ∧ (parts.netloc = [] ∨ refuses parts.netloc = false) := by
  obtain ⟨hsafe, hfirst⟩ := cleaned url
  simp only [urlsplit] at hsplit
  generalize (url.dropWhile isControlOrSpace).filter (!isUnsafe ·) = text at hsplit hsafe hfirst
  generalize hscheme : splitScheme text = found at hsplit
  obtain ⟨scheme, rest⟩ := found
  simp only at hsplit
  generalize hnetloc : splitNetloc rest = found at hsplit
  obtain ⟨netloc, after⟩ := found
  simp only [Option.ite_none_left_eq_some, Option.some.injEq] at hsplit
  obtain ⟨haccepted, rfl⟩ := hsplit
  obtain ⟨fragmentTail, hafter, hnoHash, hfragment, hhash⟩ := cutAt_eq '#' after
  obtain ⟨queryTail, hbefore, hnoQuestion, hquery, hquestion⟩ := cutAt_eq '?' (cutAt '#' after).1
  generalize cutAt '?' (cutAt '#' after).1 = cut at hbefore hnoQuestion hquery
  obtain ⟨path, query⟩ := cut
  generalize cutAt '#' after = cut at hafter hnoHash hfragment hbefore
  obtain ⟨before, fragment⟩ := cut
  simp only at hafter hnoHash hfragment hbefore hnoQuestion hquery
  subst hfragment hquery hbefore
  have hrest : ∀ char ∈ rest, isUnsafe char = false := by
    rcases splitScheme_eq hscheme with ⟨_, rfl, _⟩ | ⟨_, _, before, rfl⟩
    · exact hsafe
    · exact fun char hchar => hsafe char (List.mem_append_right _ hchar)
  have hinside : ∀ char ∈ netloc ++ after, isUnsafe char = false := by
    rcases splitNetloc_eq hnetloc with ⟨rfl, rfl⟩ | ⟨rfl, _, _⟩
    · exact hrest
    · intro char hchar
      exact hrest char (.tail _ (.tail _ hchar))
  subst hafter
  have hnotHash : '#' ∉ path := fun hmem => hnoHash (List.mem_append_left _ hmem)
  refine ⟨?_, ?_⟩
  · constructor
    · rcases splitScheme_eq hscheme with ⟨rfl, _, _⟩ | ⟨hreads, rfl, _⟩
      · exact .inl rfl
      · exact .inr (scheme_wellSplit hreads)
    · intro char hchar
      refine ⟨?_, hinside char (List.mem_append_left _ hchar)⟩
      rcases splitNetloc_eq hnetloc with ⟨rfl, _⟩ | ⟨_, hdelimiter, _⟩
      · cases hchar
      · exact hdelimiter char hchar
    · intro char hchar
      refine ⟨?_, ?_, hinside char (by simp [hchar])⟩
      · rintro rfl
        exact hnoQuestion hchar
      · rintro rfl
        exact hnotHash hchar
    · intro char hchar
      have hmem := List.mem_of_mem_tail hchar
      refine ⟨?_, hinside char (by simp [hmem])⟩
      rintro rfl
      exact hnoHash (List.mem_append_right _ hmem)
    · intro char hchar
      exact hinside char (by simp [List.mem_of_mem_tail hchar])
    · intro hne
      rcases splitNetloc_eq hnetloc with ⟨hnil, _⟩ | ⟨_, _, hdelimiter⟩
      · exact absurd hnil hne
      · rw [List.append_assoc] at hdelimiter
        exact rooted_of_delimiter hdelimiter hnoQuestion hnotHash
    · rintro hnoScheme hnoNetloc
      rcases splitNetloc_eq hnetloc with ⟨_, heq⟩ | ⟨_, _, hdelimiter⟩
      · rcases splitScheme_eq hscheme with ⟨_, rfl, hreads⟩ | ⟨hreads, rfl, _⟩
        · rw [← heq, List.append_assoc] at hreads hfirst
          refine ⟨readsScheme_of_isPrefix (List.prefix_append _ _) hreads, ?_⟩
          cases path with
          | nil => rfl
          | cons first path => exact hfirst
        · have hhead := (scheme_wellSplit hreads).1
          simp only at hnoScheme
          rw [hnoScheme] at hhead
          cases hhead
      · rw [List.append_assoc] at hdelimiter
        exact relative_of_rooted (rooted_of_delimiter hdelimiter hnoQuestion hnotHash)
  · simpa [or_iff_not_imp_left] using haccepted

/-! ### Reading again -/

theorem splitNetloc_path (htail : Behind tail) (hpath : path ≠ [])
    (hslashes : path.take 2 ≠ ['/', '/']) : splitNetloc (path ++ tail) = ([], path ++ tail) := by
  unfold splitNetloc
  split
  · next rest heq =>
    exfalso
    match path with
    | [] => exact hpath rfl
    | [first] =>
      rw [List.cons_append, List.nil_append, List.cons.injEq] at heq
      have hmark := htail '/' (by rw [heq.2]; rfl)
      exact absurd hmark (by decide)
    | first :: second :: path =>
      rw [List.cons_append, List.cons_append, List.cons.injEq, List.cons.injEq] at heq
      exact hslashes (by rw [heq.1, heq.2.1]; rfl)
  · rfl

theorem splitNetloc_slashes (hnetloc : ∀ char ∈ netloc, isDelimiter char = false)
    (hpath : path.head? = some '/') :
    splitNetloc ('/' :: '/' :: (netloc ++ path ++ tail)) = (netloc, path ++ tail) := by
  have hstop : ∀ char ∈ netloc, (!isDelimiter char) = true := by
    intro char hchar
    rw [hnetloc char hchar]
    rfl
  cases path with
  | nil => cases hpath
  | cons first path =>
    rw [List.head?_cons, Option.some.injEq] at hpath
    subst hpath
    have hslash : isDelimiter '/' = true := rfl
    rw [splitNetloc, List.append_assoc, List.takeWhile_append_of_pos hstop,
      List.dropWhile_append_of_pos hstop]
    simp [hslash]

theorem head_of_take (hslashes : path.take 2 = ['/', '/']) :
    path.head? = some '/' := by
  cases path with
  | nil => cases hslashes
  | cons first path => rw [List.head?_cons, (List.cons.inj hslashes).1]

theorem splitNetloc_hierarchy (hparts : WellSplit parts) (hpath : parts.path ≠ [])
    (htail : Behind tail) :
    splitNetloc (hierarchy parts ++ tail) = (parts.netloc, parts.path ++ tail) := by
  have hdelimiter : ∀ char ∈ parts.netloc, isDelimiter char = false :=
    fun char hchar => (hparts.netloc char hchar).1
  unfold hierarchy
  split
  · next hnetloc =>
    have hslash : parts.path.head? = some '/' := (hparts.rooted hnetloc).resolve_left hpath
    rw [if_neg (by simp [hslash])]
    exact splitNetloc_slashes hdelimiter hslash
  · next hnetloc =>
    rw [ne_eq, not_not] at hnetloc
    rw [hnetloc]
    have hnone : ∀ char ∈ ([] : List Char), isDelimiter char = false := by simp
    split
    · next hslashes => exact splitNetloc_slashes hnone (head_of_take hslashes)
    · next hslashes =>
      split
      · next hrooted =>
        exact splitNetloc_slashes hnone (hrooted.2.resolve_left hpath)
      · exact splitNetloc_path htail hpath hslashes

theorem head_hierarchy (parts : SplitUrl) :
    (hierarchy parts).head? = some '/' ∨
      parts.netloc = [] ∧ hierarchy parts = parts.path := by
  unfold hierarchy
  split
  · exact .inl rfl
  next hnetloc =>
  split
  · exact .inl rfl
  split
  · exact .inl rfl
  · exact .inr ⟨not_not.mp hnetloc, rfl⟩

theorem splitScheme_urlunsplit (hparts : WellSplit parts) (htail : Behind tail) :
    splitScheme ((if parts.scheme = [] then [] else parts.scheme ++ [':'])
        ++ (hierarchy parts ++ tail)) = (parts.scheme, hierarchy parts ++ tail) := by
  split
  · next hscheme =>
    have hreads : readsScheme (hierarchy parts ++ tail) = false := by
      rw [readsScheme_append htail]
      rcases head_hierarchy parts with hslash | ⟨hnetloc, heq⟩
      · exact (relative_of_rooted (.inr hslash)).1
      · rw [heq]
        exact (hparts.relative hscheme hnetloc).1
    rw [List.nil_append, splitScheme, if_neg (by simp [hreads]), hscheme]
  · next hscheme =>
    obtain ⟨hhead, hcharacters⟩ := hparts.scheme.resolve_left hscheme
    have hbefore : ∀ char ∈ parts.scheme, (char != ':') = true := by
      intro char hchar
      rw [bne_iff_ne]
      rintro rfl
      exact absurd (hcharacters ':' hchar).1 (by decide)
    have htake : (parts.scheme ++ ':' :: (hierarchy parts ++ tail)).takeWhile (· != ':') =
        parts.scheme := by
      rw [List.takeWhile_append_of_pos hbefore]
      simp
    have hdrop : (parts.scheme ++ ':' :: (hierarchy parts ++ tail)).dropWhile (· != ':') =
        ':' :: (hierarchy parts ++ tail) := by
      rw [List.dropWhile_append_of_pos hbefore]
      simp
    have hfirst : (parts.scheme ++ ':' :: (hierarchy parts ++ tail)).head? =
        parts.scheme.head? := by
      cases hempty : parts.scheme with
      | nil => exact absurd hempty hscheme
      | cons => rfl
    have hreads : readsScheme (parts.scheme ++ ':' :: (hierarchy parts ++ tail)) = true := by
      rw [readsScheme_iff, htake, hfirst]
      exact ⟨by simp, hhead, fun char hchar => (hcharacters char hchar).1⟩
    have hlower : parts.scheme.map Char.toLower = parts.scheme := by
      calc parts.scheme.map Char.toLower = parts.scheme.map id :=
            List.map_congr_left fun char hchar => (hcharacters char hchar).2
        _ = parts.scheme := List.map_id _
    rw [List.append_assoc, List.singleton_append, splitScheme, if_pos hreads, htake, hdrop,
      hlower, List.tail_cons]

theorem mem_hierarchy (hchar : char ∈ hierarchy parts) :
    char = '/' ∨ char ∈ parts.netloc ∨ char ∈ parts.path := by
  unfold hierarchy at hchar
  split at hchar
  · simp only [List.mem_cons, List.mem_append] at hchar
    rcases hchar with rfl | rfl | hnetloc | hpath
    · exact .inl rfl
    · exact .inl rfl
    · exact .inr (.inl hnetloc)
    split at hpath
    · rcases List.mem_cons.mp hpath with rfl | hpath
      · exact .inl rfl
      · exact .inr (.inr hpath)
    · exact .inr (.inr hpath)
  · split at hchar
    · simp only [List.mem_cons] at hchar
      rcases hchar with rfl | rfl | hpath
      · exact .inl rfl
      · exact .inl rfl
      · exact .inr (.inr hpath)
    · split at hchar
      · simp only [List.mem_cons] at hchar
        rcases hchar with rfl | rfl | hpath
        · exact .inl rfl
        · exact .inl rfl
        · exact .inr (.inr hpath)
      · exact .inr (.inr hchar)

theorem safe_of_schemeCharacter (hscheme : schemeCharacter char = true) :
    isUnsafe char = false := by
  rw [Bool.eq_false_iff]
  intro hunsafe
  simp only [isUnsafe, decide_eq_true_eq, List.mem_cons, List.not_mem_nil, or_false] at hunsafe
  rcases hunsafe with rfl | rfl | rfl <;> exact absurd hscheme (by decide)

theorem not_control_of_isAlpha (halpha : char.isAlpha = true) :
    isControlOrSpace char = false := by
  rw [Bool.eq_false_iff]
  intro hcontrol
  have hsmall : ∀ code ≤ 0x20, (Char.ofNat code).isAlpha = false := by decide
  have hnot := hsmall char.toNat (by simpa [isControlOrSpace] using hcontrol)
  rw [Char.ofNat_toNat, halpha] at hnot
  cases hnot

/-- Reading an address removes nothing from a text that was put together. -/
theorem cleaned_urlunsplit (hparts : WellSplit parts) (hpath : parts.path ≠ []) :
    ((urlunsplit parts).dropWhile isControlOrSpace).filter (!isUnsafe ·) = urlunsplit parts := by
  have hfirst : (urlunsplit parts).head?.any isControlOrSpace = false := by
    unfold urlunsplit
    by_cases hscheme : parts.scheme = []
    · rw [if_pos hscheme, List.nil_append, List.append_assoc]
      rcases head_hierarchy parts with hslash | ⟨hnetloc, heq⟩
      · rw [List.head?_append, hslash]
        rfl
      · have hrelative := (hparts.relative hscheme hnetloc).2
        rw [heq]
        cases hsome : parts.path with
        | nil => exact absurd hsome hpath
        | cons first path =>
          rw [hsome] at hrelative
          exact hrelative
    · rw [if_neg hscheme]
      have hhead := (hparts.scheme.resolve_left hscheme).1
      cases hsome : parts.scheme with
      | nil => exact absurd hsome hscheme
      | cons first scheme =>
        rw [hsome] at hhead
        exact not_control_of_isAlpha hhead
  have hsafe : ∀ char ∈ urlunsplit parts, (!isUnsafe char) = true := by
    intro char hchar
    rw [Bool.not_eq_true']
    unfold urlunsplit at hchar
    simp only [List.mem_append] at hchar
    rcases hchar with hscheme | (hhierarchy | hquery) | hfragment
    · split at hscheme
      · cases hscheme
      next hne =>
      rcases List.mem_append.mp hscheme with hmem | hcolon
      · exact safe_of_schemeCharacter
          ((hparts.scheme.resolve_left hne).2 char hmem).1
      · rw [List.mem_singleton.mp hcolon]
        decide
    · rcases mem_hierarchy hhierarchy with rfl | hnetloc | hmem
      · decide
      · exact (hparts.netloc char hnetloc).2
      · exact (hparts.path char hmem).2.2
    · rcases mem_trailing hquery with rfl | hmem
      · decide
      · exact (hparts.query char hmem).2
    · rcases mem_trailing hfragment with rfl | hmem
      · decide
      · exact hparts.fragment char hmem
  have hkept : (urlunsplit parts).dropWhile isControlOrSpace = urlunsplit parts := by
    cases hsome : urlunsplit parts with
    | nil => rfl
    | cons first rest =>
      rw [hsome] at hfirst
      rw [List.dropWhile_cons_of_neg]
      simpa using hfirst
  rw [hkept]
  exact List.filter_eq_self.mpr hsafe

/-- Parts that were read are read again from their address. -/
theorem urlsplit_urlunsplit (hparts : WellSplit parts) (hpath : parts.path ≠ [])
    (haccepted : parts.netloc = [] ∨ refuses parts.netloc = false) :
    urlsplit refuses (urlunsplit parts) = some parts := by
  have hbehind := behind_trailing parts.query parts.fragment
  have hnotRefused : (!parts.netloc.isEmpty && refuses parts.netloc) = false := by
    rcases haccepted with hnone | haccepted
    · simp [hnone]
    · simp [haccepted]
  have hhash : '#' ∉ parts.path ++ trailing '?' parts.query := by
    intro hmem
    rcases List.mem_append.mp hmem with hmem | hmem
    · exact (hparts.path '#' hmem).2.1 rfl
    · rcases mem_trailing hmem with heq | hmem
      · exact absurd heq (by decide)
      · exact (hparts.query '#' hmem).1 rfl
  have hquestion : '?' ∉ parts.path := fun hmem => (hparts.path '?' hmem).1 rfl
  have hscheme : splitScheme (urlunsplit parts) = (parts.scheme,
      hierarchy parts ++ (trailing '?' parts.query ++ trailing '#' parts.fragment)) := by
    rw [urlunsplit, List.append_assoc (hierarchy parts)]
    exact splitScheme_urlunsplit hparts hbehind
  simp only [urlsplit, cleaned_urlunsplit hparts hpath, hscheme,
    splitNetloc_hierarchy hparts hpath hbehind, hnotRefused, Bool.false_eq_true, if_false]
  rw [← List.append_assoc, cutAt_trailing hhash]
  simp only [cutAt_trailing hquestion]

/-! ## Network locations -/

/-- `_hostinfo`: the host as it is written and the text of the port. -/
def hostinfo (netloc : List Char) : List Char × List Char :=
  let located := netloc.rtakeWhile (· != '@')
  if '[' ∈ located then
    let (host, rest) := cutAt ']' (cutAt '[' located).2
    (host, (cutAt ':' rest).2)
  else
    cutAt ':' located

/-- A user name or a password is given. -/
def hasUserinfo (netloc : List Char) : Bool :=
  netloc.contains '@'

/-- `hostname or ""`; what follows a percent sign is kept as it is. -/
def hostname (lower : List Char → List Char) (netloc : List Char) : List Char :=
  let host := (hostinfo netloc).1
  lower (host.takeWhile (· != '%')) ++ host.dropWhile (· != '%')

def digitsNumber (digits : List Char) : ℕ :=
  digits.foldl (fun value digit => 10 * value + (digit.toNat - '0'.toNat)) 0

/-- `port`; the outer `none` is a `ValueError`. -/
def port (netloc : List Char) : Option (Option ℕ) :=
  let digits := (hostinfo netloc).2
  if digits = [] then some none
  else if digits.all Char.isDigit && decide (digitsNumber digits ≤ 65535) then
    some (some (digitsNumber digits))
  else none

/-- Without a user and brackets, the host and the port stand on the two sides of a colon. -/
theorem hostinfo_plain (huser : '@' ∉ netloc) (hbracket : '[' ∉ netloc) :
    hostinfo netloc = cutAt ':' netloc := by
  have hlocated : netloc.rtakeWhile (· != '@') = netloc := by
    rw [List.rtakeWhile_eq_self_iff]
    intro char hchar
    rw [bne_iff_ne]
    rintro rfl
    exact huser hchar
  rw [hostinfo, hlocated, if_neg hbracket]

/-- A host before its port. -/
theorem cutAt_colon (hhost : ':' ∉ host)
    (hrest : ∀ char, rest.head? = some char → char = ':') :
    cutAt ':' (host ++ rest) = (host, rest.tail) := by
  have hbefore : ∀ char ∈ host, (char != ':') = true := by
    intro char hchar
    rw [bne_iff_ne]
    rintro rfl
    exact hhost hchar
  rw [cutAt, List.takeWhile_append_of_pos hbefore, List.dropWhile_append_of_pos hbefore]
  cases rest with
  | nil => simp
  | cons first rest =>
    rw [hrest first rfl]
    simp

end JobApplyAgent.Library.UrlText
