import JobApplyAgent.Ingestion.UrlUtils
import JobApplyAgent.Library.Blanks

/-!
# Portal sessions

The browser profile of an employer is a directory named after its host.  The name keeps the
letters, digits, dots and hyphens of the host and reads every other run of characters as one
hyphen, so that only plain hosts have profiles that they share with no other plain host.
-/

namespace JobApplyAgent.Portal

open Library Library.UrlText
open Ingestion (UrlTables asciiTables lawful_asciiTables)

/-! ## Sessions -/

/-- The components of an absolute path. -/
abbrev Path := List (List Char)

/-- `[a-z0-9.-]`. -/
def keyCharacter (character : Char) : Bool :=
  character.isLower || character.isDigit || character == '.' || character == '-'

/-- A character that no key begins or ends with. -/
def edgeCharacter (character : Char) : Bool :=
  character == '.' || character == '-'

/-- `re.sub(r"[^a-z0-9.-]+", "-", text)`: a run counts at its last character. -/
def collapsed : List Char → List Char
  | [] => []
  | character :: rest =>
    if keyCharacter character then character :: collapsed rest
    else if rest.head?.all keyCharacter then '-' :: collapsed rest
    else collapsed rest

section Sessions

variable (tables : UrlTables)

/-- `_hostname`; `none` is an error. -/
def hostname (url : List Char) : Option (List Char) :=
  match urlparse tables.refuses url with
  | none => none
  | some parsed =>
    let host := (tables.lower (UrlText.hostname tables.lower parsed.netloc)).rdropWhile (· == '.')
    if parsed.scheme ∉ ["http".toList, "https".toList] ∨ host = [] then none else some host

/-- The key before it is cut. -/
def wholeKey (host : List Char) : List Char :=
  stripBy edgeCharacter (collapsed (tables.lower host))

def profileKey (host : List Char) : Option (List Char) :=
  let key := wholeKey tables host
  if key = [] ∨ key ∈ [".".toList, "..".toList] then none else some (key.take 180)

/-- `(root / name).resolve()` for a resolved root, without symbolic links. -/
def joined (root : Path) (name : List Char) : Path :=
  (name.splitOn '/').foldl
    (fun path part =>
      if part = [] ∨ part = ".".toList then path
      else if part = "..".toList then path.dropLast
      else path ++ [part])
    (if name.head? = some '/' then [] else root)

structure PortalSession where
  hostname : List Char
  profileKey : List Char
  profileDir : Path
  deriving DecidableEq

def PortalSession.readyMarker (session : PortalSession) : Path :=
  session.profileDir ++ [".job-agent-session-ready".toList]

def PortalSession.lockPath (session : PortalSession) : Path :=
  session.profileDir.dropLast ++ ['.' :: session.profileKey ++ ".lock".toList]

def portalSessionForUrl (url : List Char) (root : Path) : Option PortalSession := do
  let host ← hostname tables url
  let key ← profileKey tables host
  let directory := joined root key
  if directory = [] ∨ directory.dropLast ≠ root then none
  else some { hostname := host, profileKey := key, profileDir := directory }

end Sessions

variable {tables : UrlTables}
  {session other : PortalSession}

/-! ## Keys -/

theorem keyCharacter_iff : keyCharacter char = true ↔
    char.isLower = true ∨ char.isDigit = true ∨ char = '.' ∨ char = '-' := by
  simp [keyCharacter, or_assoc]

theorem toNat_lt_of_keyCharacter (hkey : keyCharacter char = true) :
    char.toNat < 128 := by
  rcases keyCharacter_iff.mp hkey with hlower | hdigit | rfl | rfl
  · exact toNat_lt_of_isAlphanum
      (Bool.or_eq_true_iff.mpr (.inl (Bool.or_eq_true_iff.mpr (.inr hlower))))
  · exact toNat_lt_of_isAlphanum (by simp [Char.isAlphanum, hdigit])
  · decide
  · decide

theorem toLower_of_keyCharacter (hkey : keyCharacter char = true) :
    char.toLower = char := by
  have hall : ∀ code < 128, keyCharacter (Char.ofNat code) = true →
      (Char.ofNat code).toLower = Char.ofNat code := by
    decide +kernel
  have hsame := hall char.toNat (toNat_lt_of_keyCharacter hkey)
  rw [Char.ofNat_toNat] at hsame
  exact hsame hkey

theorem lower_of_keyCharacters (hlawful : tables.Lawful)
    (hkey : ∀ char ∈ text, keyCharacter char = true) : tables.lower text = text := by
  rw [hlawful.ascii text fun char hmem => toNat_lt_of_keyCharacter (hkey char hmem)]
  conv_rhs => rw [← List.map_id text]
  exact List.map_congr_left fun char hmem => toLower_of_keyCharacter (hkey char hmem)

theorem collapsed_of_keyCharacters (hkey : ∀ char ∈ text, keyCharacter char = true) :
    collapsed text = text := by
  induction text with
  | nil => rfl
  | cons first text ih =>
    rw [collapsed, if_pos (hkey first (.head _)),
      ih fun char hmem => hkey char (.tail _ hmem)]

theorem keyCharacter_of_mem_collapsed (hmem : char ∈ collapsed text) :
    keyCharacter char = true := by
  induction text with
  | nil => cases hmem
  | cons first text ih =>
    rw [collapsed] at hmem
    split at hmem
    · next hfirst =>
      rcases List.mem_cons.mp hmem with rfl | hmem
      · exact hfirst
      · exact ih hmem
    · split at hmem
      · rcases List.mem_cons.mp hmem with rfl | hmem
        · rfl
        · exact ih hmem
      · exact ih hmem

/-- A text of the characters of keys with neither a dot nor a hyphen at its ends. -/
structure IsKey (text : List Char) : Prop where
  characters : ∀ character ∈ text, keyCharacter character = true
  nonempty : text ≠ []
  ends : Inked edgeCharacter text

theorem isKey_wholeKey (hsome : wholeKey tables host ≠ []) : IsKey (wholeKey tables host) where
  characters := fun _ hmem => keyCharacter_of_mem_collapsed
    ((List.dropWhile_sublist _).subset ((List.rdropWhile_prefix _ _).subset hmem))
  nonempty := hsome
  ends := inked_stripBy _ _

namespace IsKey

theorem head (hkey : IsKey key) : key ≠ '.' :: rest := by
  rintro rfl
  exact absurd (hkey.ends.1 '.' rfl) (by decide)

theorem wholeKey (hlawful : tables.Lawful) (hkey : IsKey key) : wholeKey tables key = key := by
  rw [Portal.wholeKey, lower_of_keyCharacters hlawful hkey.characters,
    collapsed_of_keyCharacters hkey.characters, stripBy_of_inked hkey.ends]

/-- A letter behind a key is a key. -/
theorem concat (hkey : IsKey key) (letter : Char) (hletter : letter.isLower = true) :
    IsKey (key ++ [letter]) where
  characters := by
    intro char hmem
    rcases List.mem_append.mp hmem with hmem | hmem
    · exact hkey.characters char hmem
    · rw [List.mem_singleton.mp hmem, keyCharacter_iff]
      exact .inl hletter
  nonempty := by simp
  ends := by
    refine ⟨fun char hhead => hkey.ends.1 char ?_, fun char hlast => ?_⟩
    · rwa [List.head?_append_of_ne_nil _ hkey.nonempty] at hhead
    · rw [List.getLast?_concat, Option.some.injEq] at hlast
      subst hlast
      rw [Bool.eq_false_iff]
      intro hedge
      simp only [edgeCharacter, Bool.or_eq_true, beq_iff_eq] at hedge
      rcases hedge with rfl | rfl <;> exact absurd hletter (by decide)

end IsKey

/-! ## Profiles -/

theorem profileKey_eq_some : profileKey tables host = some key ↔
    IsKey (wholeKey tables host) ∧ key = (wholeKey tables host).take 180 := by
  rw [profileKey]
  constructor
  · intro hprofile
    split at hprofile
    · cases hprofile
    next hnot =>
    rw [not_or] at hnot
    cases hprofile
    exact ⟨isKey_wholeKey hnot.1, rfl⟩
  · rintro ⟨hkey, rfl⟩
    rw [if_neg]
    rintro (hnil | hdots)
    · exact hkey.nonempty hnil
    · simp only [List.mem_cons, List.not_mem_nil, or_false] at hdots
      rcases hdots with hdot | hdot <;> exact hkey.head hdot

theorem joined_take (hkey : IsKey text) (root : Path) :
    joined root (text.take 180) = root ++ [text.take 180] := by
  have hslash : '/' ∉ text.take 180 := fun hmem =>
    absurd (hkey.characters '/' (List.mem_of_mem_take hmem)) (by decide)
  obtain ⟨first, rest, rfl⟩ := List.exists_cons_of_ne_nil hkey.nonempty
  have hdot : ∀ tail, (first :: rest).take 180 ≠ '.' :: tail := by
    intro tail heq
    rw [List.take_succ_cons, List.cons.injEq] at heq
    exact hkey.head (congrArg (· :: rest) heq.1)
  have htwo : (first :: rest).take 180 ≠ "..".toList := hdot ['.']
  have hhead : ((first :: rest).take 180).head? ≠ some '/' := by
    intro hhead
    exact hslash (List.mem_of_mem_head? hhead)
  rw [joined, List.splitOn_eq_singleton hslash, if_neg hhead, List.foldl_cons, List.foldl_nil,
    if_neg, if_neg htwo]
  rintro (hnil | hone)
  · cases hnil
  · exact hdot _ hone

/-- What is known of a session. -/
structure PortalSession.Of (tables : UrlTables) (root : Path) (session : PortalSession) :
    Prop where
  whole : IsKey (wholeKey tables session.hostname)
  key : session.profileKey = (wholeKey tables session.hostname).take 180
  directory : session.profileDir = root ++ [session.profileKey]

theorem portalSessionForUrl_eq_some : portalSessionForUrl tables url root = some session ↔
    hostname tables url = some session.hostname ∧ session.Of tables root := by
  simp only [portalSessionForUrl, Option.bind_eq_bind, Option.bind_eq_some_iff,
    profileKey_eq_some]
  constructor
  · rintro ⟨host, hhost, key, ⟨hkey, rfl⟩, hsession⟩
    rw [joined_take hkey root] at hsession
    split at hsession
    · cases hsession
    cases hsession
    exact ⟨hhost, hkey, rfl, rfl⟩
  · rintro ⟨hhost, hwhole, hkey, hdirectory⟩
    refine ⟨_, hhost, _, ⟨hwhole, rfl⟩, ?_⟩
    rw [joined_take hwhole root, if_neg (by simp), Option.some.injEq, ← hkey, ← hdirectory]

/-- The paths of two sessions are the same only with their keys. -/
theorem PortalSession.Of.paths_eq_iff (hsession : session.Of tables root)
    (hother : other.Of tables root) :
    (session.profileDir = other.profileDir ↔ session.profileKey = other.profileKey) ∧
      (session.readyMarker = other.readyMarker ↔ session.profileKey = other.profileKey) ∧
        (session.lockPath = other.lockPath ↔ session.profileKey = other.profileKey) := by
  simp [PortalSession.readyMarker, PortalSession.lockPath, hsession.directory, hother.directory]

theorem PortalSession.Of.ne_lockPath (hsession : session.Of tables root)
    (hother : other.Of tables root) : session.profileDir ≠ other.lockPath := by
  rw [PortalSession.lockPath, hother.directory, hsession.directory, List.dropLast_concat]
  intro hsame
  have hdot := List.singleton_inj.mp (List.append_cancel_left hsame)
  obtain ⟨first, rest, hwhole⟩ := List.exists_cons_of_ne_nil hsession.whole.nonempty
  rw [hsession.key, hwhole, List.take_succ_cons, List.cons_append, List.cons.injEq] at hdot
  exact hsession.whole.head (hwhole.trans (congrArg (· :: rest) hdot.1))

/-! ## Plain hosts -/

/-- A host that its key spells. -/
structure PlainHost (host : List Char) : Prop where
  key : IsKey host
  short : host.length ≤ 180

theorem PortalSession.Of.profileKey_of_plain (hlawful : tables.Lawful)
    (hsession : session.Of tables root) (hplain : PlainHost session.hostname) :
    session.profileKey = session.hostname := by
  rw [hsession.key, hplain.key.wholeKey hlawful, List.take_of_length_le hplain.short]

/-- Another key with the name that a host is cut to. -/
theorem exists_twin (hwhole : IsKey (wholeKey tables host)) (hnot : ¬ PlainHost host) :
    ∃ twin, IsKey twin ∧ twin ≠ host ∧ twin.take 180 = (wholeKey tables host).take 180 := by
  by_cases hshort : (wholeKey tables host).length ≤ 180
  · refine ⟨wholeKey tables host, hwhole, fun hsame => hnot ?_, rfl⟩
    exact ⟨hsame ▸ hwhole, hsame ▸ hshort⟩
  · have hcut : ∀ letter, (wholeKey tables host ++ [letter]).take 180 =
        (wholeKey tables host).take 180 := fun letter =>
      List.take_append_of_le_length (Nat.le_of_not_le hshort)
    by_cases hsame : wholeKey tables host ++ ['a'] = host
    · refine ⟨_, hwhole.concat 'b' rfl, fun hother => ?_, hcut 'b'⟩
      have hletter := List.append_cancel_left (hother.trans hsame.symm)
      exact absurd hletter (by decide)
    · exact ⟨_, hwhole.concat 'a' rfl, hsame, hcut 'a'⟩

/-- Network locations of the characters of keys are read. -/
def AcceptsKeys (tables : UrlTables) : Prop :=
  ∀ netloc, (∀ character ∈ netloc, keyCharacter character = true) → tables.refuses netloc = false

def addressOf (host : List Char) : List Char :=
  urlunsplit
    { scheme := "https".toList, netloc := host, path := ['/'], query := [], fragment := [] }

theorem hostname_addressOf (hlawful : tables.Lawful) (haccepts : AcceptsKeys tables)
    (hkey : IsKey key) : hostname tables (addressOf key) = some key := by
  have hnot : ∀ mark : Char, keyCharacter mark = false → mark ∉ key := by
    intro mark hmark hmem
    rw [hkey.characters mark hmem] at hmark
    cases hmark
  have hsplit : urlsplit tables.refuses (addressOf key) = some {
      scheme := "https".toList, netloc := key, path := ['/'], query := [], fragment := [] } := by
    refine urlsplit_urlunsplit ?_ (by simp) (.inr (haccepts key hkey.characters))
    have hscheme : ("https".toList.all fun char =>
        schemeCharacter char && char.toLower == char) = true := by
      decide
    constructor
    · exact .inr ⟨rfl, fun char hmem => by
        simpa using List.all_eq_true.mp hscheme char hmem⟩
    · intro char hmem
      constructor
      · rw [isDelimiter, decide_eq_false_iff_not]
        intro hdelimiter
        simp only [List.mem_cons, List.not_mem_nil, or_false] at hdelimiter
        rcases hdelimiter with rfl | rfl | rfl <;> exact hnot _ (by decide) hmem
      · rw [isUnsafe, decide_eq_false_iff_not]
        intro hunsafe
        simp only [List.mem_cons, List.not_mem_nil, or_false] at hunsafe
        rcases hunsafe with rfl | rfl | rfl <;> exact hnot _ (by decide) hmem
    · simp [isUnsafe]
    · simp
    · simp
    · exact fun _ => .inr rfl
    · intro hnone
      cases hnone
  have hhost : UrlText.hostname tables.lower key = key := by
    have hall : ∀ mark : Char, keyCharacter mark = false →
        key.takeWhile (· != mark) = key ∧ key.dropWhile (· != mark) = [] := by
      intro mark hmark
      have hpos : ∀ char ∈ key, (char != mark) = true := by
        intro char hmem
        rw [bne_iff_ne]
        rintro rfl
        exact hnot _ hmark hmem
      exact ⟨List.takeWhile_eq_self_iff.mpr hpos, List.dropWhile_eq_nil_iff.mpr hpos⟩
    rw [UrlText.hostname, hostinfo_plain (hnot '@' (by decide)) (hnot '[' (by decide)), cutAt,
      (hall ':' (by decide)).1, (hall '%' (by decide)).1, (hall '%' (by decide)).2,
      lower_of_keyCharacters hlawful hkey.characters, List.append_nil]
  have hdots : key.rdropWhile (· == '.') = key := by
    rw [List.rdropWhile_eq_self_iff]
    intro hne hdot
    have hlast := hkey.ends.2 _ (List.getLast?_eq_some_getLast hne)
    rw [beq_iff_eq.mp hdot] at hlast
    cases hlast
  have hhttps : "https".toList ∈ ["http".toList, "https".toList] := by decide
  rw [hostname, urlparse, hsplit]
  simp [hhost, lower_of_keyCharacters hlawful hkey.characters, hdots, hkey.nonempty]

/-! ## Separate profiles -/

/-- Two sessions share their paths if and only if they have one host. -/
structure Separate (first second : PortalSession) : Prop where
  directory : first.profileDir = second.profileDir ↔ first.hostname = second.hostname
  marker : first.readyMarker = second.readyMarker ↔ first.hostname = second.hostname
  lock : first.lockPath = second.lockPath ↔ first.hostname = second.hostname

theorem separate_of_plain (hlawful : tables.Lawful) (hsession : session.Of tables root)
    (hother : other.Of tables root) (hplain : PlainHost session.hostname)
    (hotherPlain : PlainHost other.hostname) : Separate session other := by
  obtain ⟨hdirectory, hmarker, hlock⟩ := hsession.paths_eq_iff hother
  rw [hsession.profileKey_of_plain hlawful hplain,
    hother.profileKey_of_plain hlawful hotherPlain] at hdirectory hmarker hlock
  exact ⟨hdirectory, hmarker, hlock⟩

/-- Every profile is a child of the root and no lock file.  A plain host shares its profile with
no other plain host, and every other host shares its own. -/
theorem profiles_separate (hlawful : tables.Lawful) (haccepts : AcceptsKeys tables) (root : Path)
    (url : List Char) (session : PortalSession)
    (hsession : portalSessionForUrl tables url root = some session) :
    (∃ name, session.profileDir = root ++ [name]) ∧
      (∀ otherUrl other, portalSessionForUrl tables otherUrl root = some other →
        session.profileDir ≠ other.lockPath) ∧
      ((∀ otherUrl other, portalSessionForUrl tables otherUrl root = some other →
        (PlainHost session.hostname → PlainHost other.hostname) → Separate session other) ↔
          PlainHost session.hostname) := by
  obtain ⟨-, hof⟩ := portalSessionForUrl_eq_some.mp hsession
  refine ⟨⟨_, hof.directory⟩, ?_, ?_, ?_⟩
  · intro otherUrl other hother
    exact hof.ne_lockPath (portalSessionForUrl_eq_some.mp hother).2
  · intro hseparate
    by_contra hnot
    obtain ⟨twin, hkey, hne, hcut⟩ := exists_twin hof.whole hnot
    have htwin : portalSessionForUrl tables (addressOf twin) root =
        some ⟨twin, twin.take 180, root ++ [twin.take 180]⟩ := by
      rw [portalSessionForUrl_eq_some]
      refine ⟨hostname_addressOf hlawful haccepts hkey, ?_, ?_, rfl⟩
      · exact (hkey.wholeKey hlawful).symm ▸ hkey
      · rw [hkey.wholeKey hlawful]
    have hshared := (hseparate _ _ htwin fun hplain => absurd hplain hnot).directory
    rw [hof.directory, hof.key, hcut] at hshared
    exact hne (hshared.mp rfl).symm
  · intro hplain otherUrl other hother hboth
    exact separate_of_plain hlawful hof (portalSessionForUrl_eq_some.mp hother).2 hplain
      (hboth hplain)

theorem acceptsKeys_asciiTables : AcceptsKeys asciiTables := by
  intro netloc hkey
  have hnone : ∀ mark : Char, keyCharacter mark = false → netloc.contains mark = false := by
    intro mark hmark
    rw [Bool.eq_false_iff, Ne, List.contains_iff_mem]
    intro hmem
    rw [hkey mark hmem] at hmark
    cases hmark
  change (netloc.contains '[' != netloc.contains ']') = false
  rw [hnone '[' (by decide), hnone ']' (by decide)]
  rfl

def careers : PortalSession :=
  ⟨"a-b.example".toList, "a-b.example".toList, [['p'], "a-b.example".toList]⟩

def research : PortalSession :=
  ⟨"a.b.example".toList, "a.b.example".toList, [['p'], "a.b.example".toList]⟩

theorem plainHost_of_wholeKey (hsame : wholeKey tables host = host) (hsome : host ≠ [])
    (hshort : host.length ≤ 180) : PlainHost host where
  key := by
    rw [← hsame]
    exact isKey_wholeKey (hsame.symm ▸ hsome)
  short := hshort

theorem profiles_separate_sample :
    portalSessionForUrl asciiTables "https://A-B.example./jobs".toList [['p']] = some careers ∧
      portalSessionForUrl asciiTables "https://a.b.example".toList [['p']] = some research ∧
        Separate careers research := by
  have hcareers : portalSessionForUrl asciiTables "https://A-B.example./jobs".toList [['p']] =
      some careers := by
    decide +kernel
  have hresearch : portalSessionForUrl asciiTables "https://a.b.example".toList [['p']] =
      some research := by
    decide +kernel
  have hplain : ∀ session ∈ [careers, research], PlainHost session.hostname := by
    simp only [List.forall_mem_cons]
    exact ⟨@plainHost_of_wholeKey asciiTables _ (by decide +kernel) (by decide) (by decide),
      @plainHost_of_wholeKey asciiTables _ (by decide +kernel) (by decide) (by decide),
      fun _ hnone => absurd hnone List.not_mem_nil⟩
  refine ⟨hcareers, hresearch, ?_⟩
  have hseparate := profiles_separate lawful_asciiTables acceptsKeys_asciiTables _ _ _ hcareers
  exact hseparate.2.2.mpr (hplain _ (.head _)) _ _ hresearch fun _ => hplain _ (.tail _ (.head _))

/-- An underscore and a hyphen name one profile. -/
theorem underscore_shares_profile :
    ∃ session, portalSessionForUrl asciiTables "https://a_b.example/".toList [['p']] =
      some session ∧
      portalSessionForUrl asciiTables "https://a-b.example/".toList [['p']] = some careers ∧
        session.hostname ≠ careers.hostname ∧ session.profileDir = careers.profileDir :=
  ⟨⟨"a_b.example".toList, careers.profileKey, careers.profileDir⟩, by decide +kernel⟩

end JobApplyAgent.Portal
