import JobApplyAgent.Library.Blanks
import JobApplyAgent.Library.UrlText

/-!
# Addresses with a host

How an address with a scheme and a host is read, and what is read where text stands before it
or behind it.
-/

namespace JobApplyAgent.Library.UrlText

/-- The text that is read of an address. -/
def clean (url : List Char) : List Char :=
  (url.dropWhile isControlOrSpace).filter (!isUnsafe ·)

def readPath (text : List Char) : List Char × List Char × List Char :=
  let (rest, fragment) := cutAt '#' text
  let (path, query) := cutAt '?' rest
  (path, query, fragment)

/-- A scheme, a network location and what follows it. -/
def located (spelling netloc after : List Char) : List Char :=
  spelling ++ ':' :: '/' :: '/' :: (netloc ++ after)

/-- A scheme as it is written. -/
structure SpellsScheme (spelling scheme : List Char) : Prop where
  begins : spelling.head?.any Char.isAlpha = true
  characters : ∀ character ∈ spelling, schemeCharacter character = true
  lower : spelling.map Char.toLower = scheme

/-- The text ends or goes on with a delimiter. -/
def Delimited (after : List Char) : Prop :=
  ∀ character, after.head? = some character → isDelimiter character = true

variable {spelling url : List Char}
  {char : Char}

theorem SpellsScheme.ne_colon (hspells : SpellsScheme spelling scheme) :
    ∀ char ∈ spelling, (char != ':') = true := by
  intro char hchar
  rw [bne_iff_ne]
  rintro rfl
  exact absurd (hspells.characters ':' hchar) (by decide)

theorem SpellsScheme.exists_cons (hspells : SpellsScheme spelling scheme) :
    ∃ first rest, spelling = first :: rest ∧ first.isAlpha = true := by
  cases spelling with
  | nil => exact absurd hspells.begins (by simp)
  | cons first rest => exact ⟨first, rest, rfl, hspells.begins⟩

/-! ## Reading -/

variable {text before : List Char}

theorem urlsplit_eq (refuses : List Char → Bool)
    (hscheme : splitScheme (clean url) = (scheme, rest))
    (hlocation : splitNetloc rest = (netloc, after)) :
    urlsplit refuses url =
      if !netloc.isEmpty && refuses netloc then none
      else some {
        scheme
        netloc
        path := (readPath after).1
        query := (readPath after).2.1
        fragment := (readPath after).2.2 } := by
  rw [clean] at hscheme
  simp only [urlsplit, hscheme, hlocation]
  rfl

theorem splitScheme_located (hspells : SpellsScheme spelling scheme) (netloc after : List Char) :
    splitScheme (located spelling netloc after) =
      (scheme, '/' :: '/' :: (netloc ++ after)) := by
  have hbefore := hspells.ne_colon
  have htake : (located spelling netloc after).takeWhile (· != ':') = spelling := by
    rw [located, List.takeWhile_append_of_pos hbefore]
    simp
  have hdrop : (located spelling netloc after).dropWhile (· != ':') =
      ':' :: '/' :: '/' :: (netloc ++ after) := by
    rw [located, List.dropWhile_append_of_pos hbefore]
    simp
  have hreads : readsScheme (located spelling netloc after) = true := by
    rw [readsScheme_iff, htake]
    refine ⟨by simp [located], ?_, hspells.characters⟩
    obtain ⟨first, rest, rfl, hfirst⟩ := hspells.exists_cons
    exact hfirst
  rw [splitScheme, if_pos hreads, htake, hdrop, hspells.lower, List.tail_cons]

theorem splitNetloc_located (hnetloc : ∀ char ∈ netloc, isDelimiter char = false)
    (hafter : Delimited after) :
    splitNetloc ('/' :: '/' :: (netloc ++ after)) = (netloc, after) := by
  have hstop : ∀ char ∈ netloc, (!isDelimiter char) = true := by
    intro char hchar
    rw [hnetloc char hchar]
    rfl
  rw [splitNetloc, List.takeWhile_append_of_pos hstop, List.dropWhile_append_of_pos hstop]
  cases after with
  | nil => simp
  | cons first after =>
    have hfirst := hafter first rfl
    simp [hfirst]

/-- What is read of an address with a host. -/
theorem urlsplit_located (hclean : clean url = located spelling netloc after)
    (hspells : SpellsScheme spelling scheme)
    (hnetloc : ∀ char ∈ netloc, isDelimiter char = false) (hafter : Delimited after)
    (haccepted : refuses netloc = false) :
    urlsplit refuses url = some {
      scheme
      netloc
      path := (readPath after).1
      query := (readPath after).2.1
      fragment := (readPath after).2.2 } := by
  rw [urlsplit_eq refuses (hclean ▸ splitScheme_located hspells netloc after)
    (splitNetloc_located hnetloc hafter), haccepted, Bool.and_false]
  rfl

/-- An address that is read with a scheme and a host is written so. -/
theorem located_of_urlsplit (hsplit : urlsplit refuses url = some parts)
    (hscheme : parts.scheme ≠ []) (hnetloc : parts.netloc ≠ []) :
    ∃ spelling after, clean url = located spelling parts.netloc after ∧
      SpellsScheme spelling parts.scheme ∧ Delimited after ∧
      readPath after = (parts.path, parts.query, parts.fragment) := by
  obtain ⟨scheme, rest, hfound⟩ : ∃ scheme rest, splitScheme (clean url) = (scheme, rest) :=
    ⟨_, _, rfl⟩
  obtain ⟨netloc, after, hlocation⟩ : ∃ netloc after, splitNetloc rest = (netloc, after) :=
    ⟨_, _, rfl⟩
  rw [urlsplit_eq refuses hfound hlocation] at hsplit
  simp only [Option.ite_none_left_eq_some, Option.some.injEq] at hsplit
  obtain ⟨_, rfl⟩ := hsplit
  simp only at hscheme hnetloc
  rcases splitNetloc_eq hlocation with ⟨hnil, _⟩ | ⟨rfl, _, hdelimiter⟩
  · exact absurd hnil hnetloc
  unfold splitScheme at hfound
  split at hfound
  · next hreads =>
    rw [Prod.mk.injEq] at hfound
    obtain ⟨hlower, hbehind⟩ := hfound
    obtain ⟨hcolon, hhead, hcharacters⟩ := readsScheme_iff.mp hreads
    refine ⟨(clean url).takeWhile (· != ':'), after, ?_, ?_, hdelimiter, rfl⟩
    · have hdropped : (clean url).dropWhile (· != ':') =
          ':' :: ((clean url).dropWhile (· != ':')).tail := by
        have hnot := List.head?_dropWhile_not (· != ':') (clean url)
        cases hdrop : (clean url).dropWhile (· != ':') with
        | nil =>
          rw [List.dropWhile_eq_nil_iff] at hdrop
          exact absurd (hdrop ':' hcolon) (by decide)
        | cons first later =>
          rw [hdrop] at hnot
          have hfirst : first = ':' := by simpa using hnot
          rw [hfirst, List.tail_cons]
      rw [located, ← hbehind, ← hdropped, List.takeWhile_append_dropWhile]
    · refine ⟨?_, hcharacters, hlower⟩
      cases htext : clean url with
      | nil =>
        rw [htext] at hcolon
        cases hcolon
      | cons first later =>
        rw [htext] at hhead
        have hfirst : first ≠ ':' := by
          rintro rfl
          exact absurd (show ':'.isAlpha = true from hhead) (by decide)
        simpa [hfirst] using hhead
  · next hreads =>
    rw [Prod.mk.injEq] at hfound
    exact absurd hfound.1.symm hscheme

/-! ## Text before and behind -/

theorem cutAt_of_mem (hmem : separator ∈ text) (behind : List Char) :
    cutAt separator (text ++ behind) =
      ((cutAt separator text).1, (cutAt separator text).2 ++ behind) := by
  have hne : text.dropWhile (· != separator) ≠ [] := by
    rw [Ne, List.dropWhile_eq_nil_iff]
    intro hall
    exact absurd (hall separator hmem) (by simp)
  rw [cutAt, takeWhile_append_of_mem hmem, List.dropWhile_append, if_neg (by simpa using hne),
    List.tail_append_of_ne_nil hne]
  rfl

theorem cutAt_append (hbefore : separator ∉ before) (text : List Char) :
    cutAt separator (before ++ text) =
      (before ++ (cutAt separator text).1, (cutAt separator text).2) := by
  have hall : ∀ char ∈ before, (char != separator) = true := by
    intro char hchar
    rw [bne_iff_ne]
    rintro rfl
    exact hbefore hchar
  rw [cutAt, List.takeWhile_append_of_pos hall, List.dropWhile_append_of_pos hall]
  rfl

theorem readPath_append (hquestion : '?' ∉ before) (hhash : '#' ∉ before) (text : List Char) :
    readPath (before ++ text) =
      (before ++ (readPath text).1, (readPath text).2.1, (readPath text).2.2) := by
  simp only [readPath, cutAt_append hhash, cutAt_append hquestion]

/-- Text behind an address without a fragment belongs to the path, the query or the
fragment. -/
theorem readPath_behind {path query : List Char} (hread : readPath text = (path, query, []))
    (hquestion : '?' ∉ behind) (hhash : '#' ∉ behind) :
    ∃ pathBehind queryBehind fragment,
      readPath (text ++ behind) = (path ++ pathBehind, query ++ queryBehind, fragment) ∧
      pathBehind <+: behind ∧ queryBehind <+: behind ∧
      (pathBehind = [] ∨ query ++ queryBehind = []) := by
  simp only [readPath, Prod.mk.injEq] at hread
  obtain ⟨rfl, rfl, hfragment⟩ := hread
  by_cases hmarked : '#' ∈ text
  · refine ⟨[], [], behind, ?_, List.nil_prefix, List.nil_prefix, .inl rfl⟩
    simp only [readPath, cutAt_of_mem hmarked, hfragment, List.nil_append, List.append_nil]
  · have hwhole : cutAt '#' (text ++ behind) = (text ++ behind, []) := by
      have hcut := cutAt_append hmarked behind
      have hnone := cutAt_trailing hhash []
      rw [trailing, if_pos rfl, List.append_nil] at hnone
      rw [hcut, hnone]
    have htext : cutAt '#' text = (text, []) := by
      have hcut := cutAt_trailing hmarked []
      rwa [trailing, if_pos rfl, List.append_nil] at hcut
    by_cases hqueried : '?' ∈ text
    · refine ⟨[], behind, [], ?_, List.nil_prefix, List.prefix_rfl, .inl rfl⟩
      simp only [readPath, hwhole, htext, cutAt_of_mem hqueried, List.append_nil]
    · have hnone : ∀ other, '?' ∉ other → cutAt '?' other = (other, []) := by
        intro other hother
        have hcut := cutAt_trailing hother []
        rwa [trailing, if_pos rfl, List.append_nil] at hcut
      have hboth : '?' ∉ text ++ behind := by
        rw [List.mem_append, not_or]
        exact ⟨hqueried, hquestion⟩
      refine ⟨behind, [], [], ?_, List.prefix_rfl, List.nil_prefix, .inr ?_⟩
      · simp only [readPath, hwhole, htext, hnone _ hboth, hnone _ hqueried, List.append_nil]
      · simp only [htext, hnone _ hqueried, List.append_nil]

/-- Blank text before an address: it hides the scheme. -/
structure Leads (lead : List Char) : Prop where
  begins : ∃ first, lead.head? = some first ∧ isControlOrSpace first = false
  characters : ∀ character ∈ lead, isSpace character = true ∨ isControlOrSpace character = true
  stripped : ∀ character ∈ lead.dropWhile isSpace, isControlOrSpace character = true

theorem not_leading (hprinted : char.toNat < 127) (hink : 0x20 < char.toNat) :
    ¬(isSpace char = true ∨ isControlOrSpace char = true) := by
  simp only [isSpace, isControlOrSpace, Bool.or_eq_true, decide_eq_true_eq,
    List.contains_eq_mem, List.mem_cons, List.not_mem_nil, or_false]
  omega

theorem Leads.notMem (hlead : Leads lead) (hprinted : char.toNat < 127)
    (hink : 0x20 < char.toNat) : char ∉ lead :=
  fun hmem => not_leading hprinted hink (hlead.characters char hmem)

theorem toNat_of_isAlpha (halpha : char.isAlpha = true) :
    char.toNat < 127 ∧ 0x20 < char.toNat := by
  have hascii : ∀ code < 128, (Char.ofNat code).isAlpha = true → code < 127 ∧ 0x20 < code := by
    decide
  have hbound := @toNat_lt_of_isAlphanum char (by simp [Char.isAlphanum, halpha])
  have hread := hascii char.toNat hbound
  rw [Char.ofNat_toNat] at hread
  exact hread halpha

/-- An address behind blank text is read as a path. -/
theorem urlsplit_led (hclean : clean url = lead ++ located spelling netloc after)
    (hlead : Leads lead) (hspells : SpellsScheme spelling scheme)
    (hnetloc : ∀ char ∈ netloc, isDelimiter char = false) :
    urlsplit refuses url = some {
      scheme := []
      netloc := []
      path := lead ++ located spelling netloc (readPath after).1
      query := (readPath after).2.1
      fragment := (readPath after).2.2 } := by
  obtain ⟨first, hfirst, _⟩ := hlead.begins
  obtain ⟨rest, rfl⟩ := List.head?_eq_some_iff.mp hfirst
  have hscheme : splitScheme (clean url) = ([], clean url) := by
    rw [splitScheme, if_neg]
    rw [readsScheme_iff, hclean, List.cons_append, List.head?_cons]
    rintro ⟨_, halpha, _⟩
    obtain ⟨hprinted, hink⟩ := @toNat_of_isAlpha first halpha
    exact hlead.notMem hprinted hink (.head _)
  have hslash : first ≠ '/' := by
    rintro rfl
    exact hlead.notMem (by decide) (by decide) (.head _)
  have hlocation : splitNetloc (clean url) = ([], clean url) := by
    rw [hclean, List.cons_append]
    unfold splitNetloc
    split
    · next heq => exact absurd (List.cons.inj heq).1 hslash
    · rfl
  have hbefore : ∀ char, isDelimiter char = true → char ≠ '/' →
      char ∉ first :: rest ++ (spelling ++ ':' :: '/' :: '/' :: netloc) := by
    intro char hdelimiter hother hmem
    simp only [isDelimiter, decide_eq_true_eq, List.mem_cons, List.not_mem_nil,
      or_false] at hdelimiter
    rcases List.mem_append.mp hmem with hmem | hmem
    · rcases hdelimiter with rfl | rfl | rfl
      · exact hother rfl
      · exact hlead.notMem (by decide) (by decide) hmem
      · exact hlead.notMem (by decide) (by decide) hmem
    · rcases List.mem_append.mp hmem with hmem | hmem
      · have hchar := hspells.characters char hmem
        rcases hdelimiter with rfl | rfl | rfl <;> exact absurd hchar (by decide)
      · rcases hdelimiter with rfl | rfl | rfl
        · exact hother rfl
        · have hinside : '?' ∈ netloc := by simpa using hmem
          exact absurd (hnetloc '?' hinside) (by decide)
        · have hinside : '#' ∈ netloc := by simpa using hmem
          exact absurd (hnetloc '#' hinside) (by decide)
  have hread : readPath (clean url) = (first :: rest ++ located spelling netloc (readPath after).1,
      (readPath after).2.1, (readPath after).2.2) := by
    have happend : ∀ path, first :: rest ++ located spelling netloc path =
        first :: rest ++ (spelling ++ ':' :: '/' :: '/' :: netloc) ++ path := by
      intro path
      simp [located]
    rw [hclean, happend, happend, readPath_append (hbefore '?' rfl (by decide))
      (hbefore '#' rfl (by decide))]
  rw [urlsplit_eq refuses hscheme hlocation, hread]
  rfl

/-- What is read of a text around an address. -/
theorem clean_around (hcore : ∃ char ∈ core, isControlOrSpace char = false) :
    clean (front ++ core ++ rest) =
      clean (front ++ core.takeWhile isControlOrSpace) ++ clean core
        ++ rest.filter (!isUnsafe ·) := by
  have hne : core.dropWhile isControlOrSpace ≠ [] := by
    rw [Ne, List.dropWhile_eq_nil_iff]
    intro hall
    obtain ⟨char, hmem, hink⟩ := hcore
    rw [hall char hmem] at hink
    cases hink
  obtain ⟨first, later, hdropped⟩ := List.exists_cons_of_ne_nil hne
  have hfirst : isControlOrSpace first = false := by
    have hnot := List.head?_dropWhile_not isControlOrSpace core
    rw [hdropped] at hnot
    simpa using hnot
  have hwhole : front ++ core ++ rest =
      (front ++ core.takeWhile isControlOrSpace) ++ first :: (later ++ rest) := by
    rw [← List.cons_append, ← hdropped, List.append_assoc, List.append_assoc,
      ← List.append_assoc (core.takeWhile _), List.takeWhile_append_dropWhile]
  rw [hwhole, clean, dropWhile_blank_append hfirst, ← List.cons_append, ← hdropped]
  simp only [clean, List.filter_append, List.append_assoc]

/-- White space and control characters are read as nothing, or they lead. -/
theorem leads_clean {controls : List Char} (hfront : ∀ char ∈ front, isSpace char = true)
    (hcontrols : ∀ char ∈ controls, isControlOrSpace char = true) :
    clean (front ++ controls) = [] ∨ Leads (clean (front ++ controls)) := by
  obtain ⟨_, hbegins⟩ := cleaned (front ++ controls)
  rw [or_iff_not_imp_left]
  intro hne
  constructor
  · obtain ⟨first, rest, hcons⟩ := List.exists_cons_of_ne_nil hne
    refine ⟨first, by rw [hcons]; rfl, ?_⟩
    rw [clean] at hcons
    rw [hcons] at hbegins
    simpa using hbegins
  · intro char hchar
    have hmem := (List.dropWhile_sublist _).subset (List.mem_filter.mp hchar).1
    rcases List.mem_append.mp hmem with hmem | hmem
    · exact .inl (hfront char hmem)
    · exact .inr (hcontrols char hmem)
  · rw [clean, List.dropWhile_append]
    split
    · rw [List.dropWhile_eq_nil_iff.mpr hcontrols]
      simp
    · have hspaces : ∀ char ∈ (front.dropWhile isControlOrSpace).filter (!isUnsafe ·),
          isSpace char = true := by
        intro char hchar
        exact hfront char
          ((List.dropWhile_sublist _).subset (List.mem_filter.mp hchar).1)
      rw [List.filter_append, List.dropWhile_append_of_pos hspaces]
      intro char hchar
      have hmem := (List.dropWhile_sublist _).subset hchar
      exact hcontrols char (List.mem_filter.mp hmem).1

theorem isSpace_of_isAlpha (halpha : char.isAlpha = true) :
    isSpace char = false := by
  obtain ⟨hprinted, hink⟩ := toNat_of_isAlpha halpha
  rw [Bool.eq_false_iff]
  exact fun hspace => not_leading hprinted hink (.inl hspace)

/-- A stripped address is read from its scheme on. -/
theorem clean_stripBy (hlead : ∀ char ∈ lead.dropWhile isSpace, isControlOrSpace char = true)
    (hspells : SpellsScheme spelling scheme) (hslash : after.head? = some '/')
    (hsafe : ∀ char ∈ netloc ++ after, isUnsafe char = false) :
    clean (stripBy isSpace (lead ++ located spelling netloc after)) =
      located spelling netloc (after.rdropWhile isSpace) := by
  obtain ⟨first, rest, rfl, hfirst⟩ := hspells.exists_cons
  obtain ⟨after, rfl⟩ := List.head?_eq_some_iff.mp hslash
  have hslashInk : isSpace '/' = false := by decide
  have hdropped : (lead ++ located (first :: rest) netloc ('/' :: after)).dropWhile isSpace =
      lead.dropWhile isSpace ++ located (first :: rest) netloc ('/' :: after) :=
    dropWhile_blank_append (isSpace_of_isAlpha hfirst)
  have hlocated : ∀ behind, lead.dropWhile isSpace ++ located (first :: rest) netloc behind =
      lead.dropWhile isSpace ++ (first :: rest ++ ':' :: '/' :: '/' :: netloc) ++ behind := by
    intro behind
    simp [located]
  have hkept : ('/' :: after).rdropWhile isSpace = '/' :: after.rdropWhile isSpace :=
    @rdropWhile_blank_append _ _ [] _ hslashInk
  rw [stripBy, hdropped, hlocated, rdropWhile_blank_append hslashInk, ← hkept, ← hlocated, clean,
    List.dropWhile_append_of_pos hlead, located, List.cons_append,
    List.dropWhile_cons_of_neg (by simp [not_control_of_isAlpha hfirst]), ← List.cons_append]
  refine List.filter_eq_self.mpr ?_
  intro char hchar
  rw [Bool.not_eq_true']
  rcases List.mem_append.mp hchar with hmem | hmem
  · exact safe_of_schemeCharacter (hspells.characters char hmem)
  simp only [List.mem_cons] at hmem
  rcases hmem with rfl | rfl | rfl | hmem
  · decide
  · decide
  · decide
  · apply hsafe
    rcases List.mem_append.mp hmem with hmem | hmem
    · exact List.mem_append_left _ hmem
    · exact List.mem_append_right _ ((List.rdropWhile_prefix _ _).subset hmem)

end JobApplyAgent.Library.UrlText
