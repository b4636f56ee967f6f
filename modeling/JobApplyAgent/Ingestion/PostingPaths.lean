import JobApplyAgent.Ingestion.PostingHosts
import JobApplyAgent.Library.QueryReading

/-!
# Paths of posting addresses

A path that names a posting is made of tokens, and it names the same posting without its
trailing slashes.
-/

namespace JobApplyAgent.Ingestion

open Library Library.QueryString Library.UrlText

variable {tables : IdentityTables}

/-! ## Segments -/

theorem getLast_splitOn (separator : Char) (text : List Char) :
    (text.splitOn separator).getLast? = some (text.rtakeWhile (· != separator)) := by
  obtain ⟨before, hpieces, _⟩ := splitOn_last separator text
  rw [hpieces, List.getLast?_concat]

theorem splitOn_append_replicate (separator : Char) (text : List Char) (count : ℕ) :
    (text ++ List.replicate count separator).splitOn separator =
      text.splitOn separator ++ List.replicate count [] := by
  induction count with
  | zero => simp
  | succ count ih =>
    rw [List.replicate_succ', ← List.append_assoc, List.splitOn_append_cons_self, ih,
      List.splitOn_nil, List.append_assoc, ← List.replicate_succ']

variable {path segment hostname : List Char} {char : Char}
  {suffix : List (List Char)}

theorem mem_segment (hchar : char ∈ path) (hother : char ≠ '/') :
    ∃ segment ∈ pathSegments path, char ∈ segment := by
  rw [← @List.intercalate_splitOn _ path _ _ '/'] at hchar
  rcases mem_of_mem_intercalate hchar with hslash | ⟨segment, hsegment, hmem⟩
  · exact absurd (List.mem_singleton.mp hslash) hother
  · refine ⟨segment, List.mem_filter.mpr ⟨hsegment, ?_⟩, hmem⟩
    have hne := List.ne_nil_of_mem hmem
    simpa using hne

theorem mem_of_mem_segment (hsegment : segment ∈ pathSegments path)
    (hchar : char ∈ segment) : char ∈ path := by
  have hpiece := (List.mem_filter.mp hsegment).1
  rw [List.splitOn_eq_splitOnP] at hpiece
  exact mem_of_mem_splitOnP hpiece hchar

/-! ## Plain paths -/

/-- A path from the root with a segment, without blanks and parameters. -/
structure PlainPath (path : List Char) : Prop where
  rooted : path.head? = some '/'
  some_segment : ∃ character ∈ path, character ≠ '/'
  characters : ∀ character ∈ path, character ≠ ';' ∧ isSpace character = false

theorem plain_of_isTokenCharacter (htoken : isTokenCharacter char = true) :
    char ≠ ';' ∧ char ≠ '/' ∧ isSpace char = false := by
  have hascii : ∀ code < 128, isTokenCharacter (Char.ofNat code) = true →
      Char.ofNat code ≠ ';' ∧ Char.ofNat code ≠ '/' ∧ isSpace (Char.ofNat code) = false := by
    decide
  have hbound : char.toNat < 128 := by
    simp only [isTokenCharacter, Bool.or_eq_true, decide_eq_true_eq, List.mem_cons,
      List.not_mem_nil, or_false] at htoken
    rcases htoken with halphanum | rfl | rfl
    · exact toNat_lt_of_isAlphanum halphanum
    · decide
    · decide
  have hread := hascii char.toNat hbound
  rw [Char.ofNat_toNat] at hread
  exact hread htoken

def IsToken (segment : List Char) : Prop :=
  ∀ character ∈ segment, isTokenCharacter character = true

theorem plainPath_of_tokens (hrooted : path = [] ∨ path.head? = some '/')
    (hsome : pathSegments path ≠ []) (htokens : ∀ segment ∈ pathSegments path, IsToken segment) :
    PlainPath path where
  rooted := by
    apply hrooted.resolve_left
    rintro rfl
    exact hsome rfl
  some_segment := by
    obtain ⟨segment, hsegment⟩ := List.exists_mem_of_ne_nil _ hsome
    have hne : segment ≠ [] := by simpa using (List.mem_filter.mp hsegment).2
    obtain ⟨char, hchar⟩ := List.exists_mem_of_ne_nil _ hne
    exact ⟨char, mem_of_mem_segment hsegment hchar,
      (plain_of_isTokenCharacter (htokens segment hsegment char hchar)).2.1⟩
  characters := by
    intro char hchar
    by_cases hslash : char = '/'
    · subst hslash
      decide
    · obtain ⟨segment, hsegment, hmem⟩ := mem_segment hchar hslash
      have hplain := plain_of_isTokenCharacter (htokens segment hsegment char hmem)
      exact ⟨hplain.1, hplain.2.2⟩

/-- A plain path is its stripped form before some slashes. -/
structure Slashes (path stripped : List Char) (count : ℕ) : Prop where
  path : path = stripped ++ List.replicate count '/'
  rooted : stripped.head? = some '/'
  ends : (stripped.splitOn '/').getLast? ≠ some []

/-- Normalization takes slashes behind a plain path away and nothing else. -/
theorem PlainPath.slashes (hplain : PlainPath path) :
    ∃ count, Slashes path (strippedPath path) count := by
  obtain ⟨char, hmem, hother⟩ := hplain.some_segment
  have hne : path.rdropWhile (· == '/') ≠ [] := by
    rw [Ne, List.rdropWhile_eq_nil_iff]
    intro hall
    exact hother (by simpa using hall char hmem)
  have hstripped : strippedPath path = path.rdropWhile (· == '/') := by
    rw [strippedPath, if_neg hne]
  have htail : path.rtakeWhile (· == '/') =
      List.replicate (path.rtakeWhile (· == '/')).length '/' := by
    rw [List.eq_replicate_iff]
    exact ⟨rfl, fun found hfound => by simpa using List.mem_rtakeWhile_imp hfound⟩
  refine ⟨(path.rtakeWhile (· == '/')).length, ?_, strippedPath_head (.inr hplain.rooted), ?_⟩
  · rw [← htail, hstripped, List.rdropWhile_append_rtakeWhile]
  · rw [getLast_splitOn, Ne, Option.some.injEq, List.rtakeWhile_eq_nil_iff, hstripped]
    intro hall
    have hlast := hall hne
    have hnot := List.rdropWhile_last_not (· == '/') path hne
    simp only [bne_iff_ne, ne_eq, not_not] at hlast
    simp [hlast] at hnot

theorem Slashes.segments (hslashes : Slashes path stripped count) :
    path.splitOn '/' = stripped.splitOn '/' ++ List.replicate count [] := by
  rw [hslashes.path, splitOn_append_replicate]

theorem Slashes.pathSegments (hslashes : Slashes path stripped count) :
    pathSegments stripped = pathSegments path := by
  have hempty : (List.replicate count ([] : List Char)).filter (!·.isEmpty) = [] := by
    rw [List.filter_eq_nil_iff]
    intro segment hsegment
    rw [List.eq_of_mem_replicate hsegment]
    simp
  rw [Ingestion.pathSegments, Ingestion.pathSegments, hslashes.segments, List.filter_append,
    hempty, List.append_nil]

theorem Slashes.subset (hslashes : Slashes path stripped count) (hmem : char ∈ stripped) :
    char ∈ path := by
  rw [hslashes.path]
  exact List.mem_append_left _ hmem

/-! ## Tokens -/

theorem isToken_of_isAlphanum (hall : ∀ char ∈ segment, char.isAlphanum = true) :
    IsToken segment := by
  intro char hchar
  rw [isTokenCharacter, hall char hchar, Bool.true_or]

theorem isToken_of_isEndedToken (hmarks : marks ⊆ ['_', '-'])
    (htoken : isEndedToken marks bound segment = true) :
    segment ≠ [] ∧ IsToken segment := by
  simp only [isEndedToken, Bool.and_eq_true, List.all_eq_true, Bool.or_eq_true,
    decide_eq_true_eq] at htoken
  obtain ⟨⟨⟨_, hhead⟩, _⟩, hall⟩ := htoken
  constructor
  · rintro rfl
    cases hhead
  · intro char hchar
    rw [isTokenCharacter, Bool.or_eq_true, decide_eq_true_eq]
    exact (hall char hchar).imp_right fun hmark => hmarks hmark

theorem isToken_of_isUuidText (hdigits : ∀ char, isDigit char = true → char.isAlphanum = true)
    (huuid : isUuidText isDigit segment = true) : segment ≠ [] ∧ IsToken segment := by
  simp only [isUuidText, Bool.and_eq_true, decide_eq_true_eq, List.all_eq_true] at huuid
  obtain ⟨hlengths, hall⟩ := huuid
  constructor
  · rintro rfl
    simp at hlengths
  · intro char hchar
    rw [← @List.intercalate_splitOn _ segment _ _ '-'] at hchar
    rw [isTokenCharacter, Bool.or_eq_true, decide_eq_true_eq]
    rcases mem_of_mem_intercalate hchar with hhyphen | ⟨group, hgroup, hmem⟩
    · rw [List.mem_singleton.mp hhyphen]
      simp
    · exact .inl (hdigits char (hall group hgroup char hmem))

theorem isAlphanum_of_isDigit (hdigit : char.isDigit = true) :
    char.isAlphanum = true := by
  rw [Char.isAlphanum, hdigit, Bool.or_true]

theorem isAlphanum_of_isLowerHexDigit (hdigit : isLowerHexDigit char = true) :
    char.isAlphanum = true := by
  simp only [isLowerHexDigit, Bool.or_eq_true, Bool.and_eq_true, decide_eq_true_eq] at hdigit
  rcases hdigit with hdigit | ⟨hleast, hmost⟩
  · exact isAlphanum_of_isDigit hdigit
  have hlower : char.isLower = true := by
    delta Char.isLower
    simp only [Bool.and_eq_true, decide_eq_true_eq]
    exact ⟨hleast, UInt32.le_trans hmost (by decide)⟩
  delta Char.isAlphanum Char.isAlpha
  rw [hlower, Bool.or_true, Bool.true_or]

theorem isAlphanum_of_isHexDigit (hdigit : Lever.isHexDigit char = true) :
    char.isAlphanum = true := by
  simp only [Lever.isHexDigit, Bool.or_eq_true, Bool.and_eq_true, decide_eq_true_eq] at hdigit
  rcases hdigit with hdigit | ⟨hleast, hmost⟩
  · exact isAlphanum_of_isLowerHexDigit hdigit
  have hupper : char.isUpper = true := by
    delta Char.isUpper
    exact decide_eq_true ⟨hleast, UInt32.le_trans hmost (by decide)⟩
  exact isAlphanum_of_isUpper hupper

theorem isToken_of_mem_suffix (hsuffix : (suffix.isEmpty || suffix == [last]) = true)
    (hlast : IsToken last)
    (hsegment : segment ∈ suffix) : IsToken segment := by
  rw [Bool.or_eq_true, List.isEmpty_iff, beq_iff_eq] at hsuffix
  rcases hsuffix with rfl | rfl
  · cases hsegment
  · rw [List.mem_singleton.mp hsegment]
    exact hlast

theorem isToken_apply : IsToken "apply".toList :=
  forall_mem_of_all (by decide)

/-! ## Lever and SmartRecruiters -/

theorem Lever.tokens_of_ofSegments {identity : Lever.PostingIdentity}
    (hidentity : Lever.ofSegments tables hostname site postingId suffix = .ok identity) :
    ∀ segment ∈ site :: postingId :: suffix, IsToken segment := by
  unfold Lever.ofSegments at hidentity
  split at hidentity
  · next hvalid =>
    rw [Bool.and_eq_true, Bool.and_eq_true] at hvalid
    obtain ⟨⟨hsite, hposting⟩, hsuffix⟩ := hvalid
    intro segment hsegment
    rcases List.mem_cons.mp hsegment with rfl | hsegment
    · exact (isToken_of_isEndedToken (List.Subset.refl _) hsite).2
    rcases List.mem_cons.mp hsegment with rfl | hsegment
    · exact (isToken_of_isUuidText (fun _ => isAlphanum_of_isHexDigit) hposting).2
    · exact isToken_of_mem_suffix hsuffix isToken_apply hsegment
  · cases hidentity

theorem Lever.plainPath {identity : Lever.PostingIdentity}
    (hrooted : path = [] ∨ path.head? = some '/')
    (hidentity : Lever.ofPath tables hostname path = .ok identity) : PlainPath path := by
  unfold Lever.ofPath at hidentity
  split at hidentity
  · next site postingId hsegments =>
    apply plainPath_of_tokens hrooted (by rw [hsegments]; exact List.cons_ne_nil _ _)
    rw [hsegments]
    exact Lever.tokens_of_ofSegments hidentity
  · next site postingId suffix hsegments =>
    apply plainPath_of_tokens hrooted (by rw [hsegments]; exact List.cons_ne_nil _ _)
    rw [hsegments]
    exact Lever.tokens_of_ofSegments hidentity
  · cases hidentity

theorem SmartRecruiters.isToken_of_postingSegment
    (hsegment : SmartRecruiters.postingSegment segment = some (publicId, slug)) :
    IsToken segment := by
  have hdigits : ∀ char ∈ segment.takeWhile Char.isDigit,
      isTokenCharacter char = true := by
    intro char hchar
    rw [isTokenCharacter, isAlphanum_of_isDigit (List.mem_takeWhile_imp hchar),
      Bool.true_or]
  unfold SmartRecruiters.postingSegment at hsegment
  simp only at hsegment
  split at hsegment
  · intro char hchar
    rw [← List.takeWhile_append_dropWhile (p := Char.isDigit) (l := segment)] at hchar
    rcases List.mem_append.mp hchar with hdigit | hbehind
    · exact hdigits char hdigit
    split at hsegment
    · next hnone =>
      rw [hnone] at hbehind
      cases hbehind
    · next found hslug =>
      split at hsegment
      · next htoken =>
        rw [hslug] at hbehind
        rcases List.mem_cons.mp hbehind with rfl | hmem
        · decide
        · exact (isToken_of_isEndedToken (by simp) htoken).2 char hmem
      · cases hsegment
    · cases hsegment
  · cases hsegment

variable {identity : SmartRecruiters.CandidateIdentity}

theorem SmartRecruiters.tokens_of_ofSegments
    (hidentity : SmartRecruiters.ofSegments hostname company segment suffix = .ok identity) :
    ∀ found ∈ company :: segment :: suffix, IsToken found := by
  unfold SmartRecruiters.ofSegments at hidentity
  split at hidentity
  · next publicId slug hposting =>
    split at hidentity
    · next hvalid =>
      rw [Bool.and_eq_true, Bool.and_eq_true] at hvalid
      obtain ⟨⟨hcompany, _⟩, hsuffix⟩ := hvalid
      intro found hfound
      rcases List.mem_cons.mp hfound with rfl | hfound
      · exact (isToken_of_isEndedToken (List.Subset.refl _) hcompany).2
      rcases List.mem_cons.mp hfound with rfl | hfound
      · exact SmartRecruiters.isToken_of_postingSegment hposting
      · exact isToken_of_mem_suffix hsuffix isToken_apply hfound
    · cases hidentity
  · cases hidentity

theorem SmartRecruiters.plainPath (hrooted : path = [] ∨ path.head? = some '/')
    (hidentity : SmartRecruiters.ofPath hostname path = .ok identity) : PlainPath path := by
  unfold SmartRecruiters.ofPath at hidentity
  split at hidentity
  · next company segment hsegments =>
    apply plainPath_of_tokens hrooted (by rw [hsegments]; exact List.cons_ne_nil _ _)
    rw [hsegments]
    exact SmartRecruiters.tokens_of_ofSegments hidentity
  · next company segment suffix hsegments =>
    apply plainPath_of_tokens hrooted (by rw [hsegments]; exact List.cons_ne_nil _ _)
    rw [hsegments]
    exact SmartRecruiters.tokens_of_ofSegments hidentity
  · cases hidentity

/-! ## Ashby -/

theorem Ashby.tokens_of_candidateRoute (hroute : Ashby.candidateRoute tables path = .ok result) :
    Ashby.routeSegments path ≠ [] ∧
      ∀ segment ∈ Ashby.routeSegments path, segment ≠ [] ∧ IsToken segment := by
  have hboard : ∀ board, Ashby.isBoardToken board = true → board ≠ [] ∧ IsToken board := by
    intro board htoken
    simp only [Ashby.isBoardToken, Bool.and_eq_true, List.all_eq_true] at htoken
    constructor
    · rintro rfl
      exact absurd htoken.1.2 (by decide)
    · exact htoken.2
  have hposting : ∀ postingId, isCanonicalUuid postingId = true →
      postingId ≠ [] ∧ IsToken postingId :=
    fun postingId => isToken_of_isUuidText fun _ => isAlphanum_of_isLowerHexDigit
  unfold Ashby.candidateRoute at hroute
  split at hroute
  · next board postingId hsegments =>
    unfold Ashby.identityOf at hroute
    split at hroute
    · cases hroute
    next htoken =>
    split at hroute
    · cases hroute
    next huuid =>
    rw [hsegments]
    simp only [Bool.not_eq_true', Bool.not_eq_false] at htoken huuid
    simp only [List.forall_mem_cons]
    exact ⟨List.cons_ne_nil _ _, hboard board htoken, hposting postingId huuid,
      fun _ hnone => absurd hnone List.not_mem_nil⟩
  · next board postingId suffix hsegments =>
    unfold Ashby.identityOf at hroute
    split at hroute
    · cases hroute
    next htoken =>
    split at hroute
    · cases hroute
    next hsuffix =>
    split at hroute
    · cases hroute
    next huuid =>
    rw [hsegments]
    simp only [Bool.not_eq_true', Bool.not_eq_false] at htoken huuid
    rw [ne_eq, not_not] at hsuffix
    subst hsuffix
    simp only [List.forall_mem_cons]
    exact ⟨List.cons_ne_nil _ _, hboard board htoken, hposting postingId huuid,
      ⟨by decide, forall_mem_of_all (by decide)⟩,
      fun _ hnone => absurd hnone List.not_mem_nil⟩
  · cases hroute

theorem mem_trimmed {segments : List (List Char)} (hsegment : segment ∈ segments)
    (hne : segment ≠ []) :
    (segments.head? = some [] → segment ∈ segments.tail) ∧
      (segments.getLast? = some [] → segment ∈ segments.dropLast) := by
  constructor
  · intro hhead
    obtain ⟨rest, rfl⟩ := List.head?_eq_some_iff.mp hhead
    exact (List.mem_cons.mp hsegment).resolve_left hne
  · intro hlast
    obtain ⟨before, rfl⟩ := List.getLast?_eq_some_iff.mp hlast
    rw [List.dropLast_concat]
    rcases List.mem_append.mp hsegment with hmem | hmem
    · exact hmem
    · exact absurd (List.mem_singleton.mp hmem) hne

theorem routeSegments_eq (path : List Char) :
    ∃ rooted, (rooted = path.splitOn '/' ∧ (path.splitOn '/').head? ≠ some [] ∨
        rooted = (path.splitOn '/').tail ∧ (path.splitOn '/').head? = some []) ∧
      (Ashby.routeSegments path = rooted ∧ rooted.getLast? ≠ some [] ∨
        Ashby.routeSegments path = rooted.dropLast ∧ rooted.getLast? = some []) := by
  refine ⟨if (path.splitOn '/').head? = some [] then (path.splitOn '/').tail
    else path.splitOn '/', ?_, ?_⟩
  · split
    · next hhead => exact .inr ⟨rfl, hhead⟩
    · next hhead => exact .inl ⟨rfl, hhead⟩
  · rw [Ashby.routeSegments]
    generalize (if (path.splitOn '/').head? = some [] then (path.splitOn '/').tail
      else path.splitOn '/') = rooted
    by_cases hlast : rooted.getLast? = some []
    · exact .inr ⟨if_pos hlast, hlast⟩
    · exact .inl ⟨if_neg hlast, hlast⟩

theorem mem_routeSegments (hsegment : segment ∈ pathSegments path) :
    segment ∈ Ashby.routeSegments path := by
  obtain ⟨hpiece, hsome⟩ := List.mem_filter.mp hsegment
  have hne : segment ≠ [] := by simpa using hsome
  obtain ⟨rooted, hrooted, htrimmed⟩ := routeSegments_eq path
  have hmem : segment ∈ rooted := by
    rcases hrooted with ⟨rfl, _⟩ | ⟨rfl, hhead⟩
    · exact hpiece
    · exact (mem_trimmed hpiece hne).1 hhead
  rcases htrimmed with ⟨heq, _⟩ | ⟨heq, hlast⟩
  · rwa [heq]
  · rw [heq]
    exact (mem_trimmed hmem hne).2 hlast

theorem mem_splitOn_of_routeSegments (hsegment : segment ∈ Ashby.routeSegments path) :
    segment ∈ path.splitOn '/' := by
  obtain ⟨rooted, hrooted, htrimmed⟩ := routeSegments_eq path
  have hmem : segment ∈ rooted := by
    rcases htrimmed with ⟨heq, _⟩ | ⟨heq, _⟩
    · rwa [heq] at hsegment
    · rw [heq] at hsegment
      exact List.dropLast_subset _ hsegment
  rcases hrooted with ⟨rfl, _⟩ | ⟨rfl, _⟩
  · exact hmem
  · exact List.mem_of_mem_tail hmem

theorem Ashby.plainPath (hrooted : path = [] ∨ path.head? = some '/')
    (hroute : Ashby.candidateRoute tables path = .ok result) :
    PlainPath path := by
  obtain ⟨hsome, htokens⟩ := Ashby.tokens_of_candidateRoute hroute
  obtain ⟨segment, hsegment⟩ := List.exists_mem_of_ne_nil _ hsome
  apply plainPath_of_tokens hrooted
  · apply List.ne_nil_of_mem (a := segment)
    apply List.mem_filter.mpr
    refine ⟨mem_splitOn_of_routeSegments hsegment, ?_⟩
    simpa using (htokens segment hsegment).1
  · intro other hother
    exact (htokens other (mem_routeSegments hother)).2

/-- A route keeps its segments without the slashes. -/
theorem Ashby.routeSegments_slashes (hslashes : Slashes path stripped count)
    (hsegments : ∀ segment ∈ Ashby.routeSegments path, segment ≠ []) :
    Ashby.routeSegments stripped = Ashby.routeSegments path := by
  obtain ⟨rest, rfl⟩ := List.head?_eq_some_iff.mp hslashes.rooted
  have hstripped : ('/' :: rest).splitOn '/' = [] :: rest.splitOn '/' := by
    rw [List.splitOn_cons_eq_if_modifyHead]
    simp
  have hends : (rest.splitOn '/').getLast? ≠ some [] := by
    have hends := hslashes.ends
    rwa [hstripped, List.getLast?_cons_of_ne_nil (List.splitOn_ne_nil _ _)] at hends
  have hpath := hslashes.segments
  rw [hstripped] at hpath
  simp only [Ashby.routeSegments, hstripped, hpath, List.cons_append, List.head?_cons, if_true,
    List.tail_cons, if_neg hends] at hsegments ⊢
  cases count with
  | zero => rw [List.replicate_zero, List.append_nil, if_neg hends]
  | succ count =>
    rw [List.replicate_succ', ← List.append_assoc, List.getLast?_concat, if_pos rfl,
      List.dropLast_concat] at hsegments ⊢
    cases count with
    | zero => rw [List.replicate_zero, List.append_nil]
    | succ count => exact absurd rfl (hsegments [] (by simp [List.replicate_succ]))

/-! ## Greenhouse -/

namespace Greenhouse

theorem isToken_of_isIdentityToken (htoken : isIdentityToken text = true) :
    IsToken text := by
  rw [isIdentityToken, Bool.and_eq_true, List.all_eq_true] at htoken
  exact htoken.2

theorem isToken_of_isJobToken (htoken : isJobToken text = true) :
    IsToken text := by
  rw [isJobToken, Bool.and_eq_true, List.all_eq_true] at htoken
  exact isToken_of_isAlphanum fun char hchar =>
    isAlphanum_of_isDigit (htoken.2 char hchar)

variable {path : List Char}

theorem hostedPath_eq_some (hhosted : hostedPath path = some (board, job)) :
    isIdentityToken board = true ∧ isJobToken job = true ∧
      (path.splitOn '/' = [[], board, "jobs".toList, job] ∨
        path.splitOn '/' = [[], board, "jobs".toList, job, []]) := by
  simp only [hostedPath] at hhosted
  split at hhosted
  · next found jobs identifier hsegments =>
    split at hhosted
    · next hvalid =>
      cases hhosted
      simp only [Bool.and_eq_true, beq_iff_eq] at hvalid
      obtain ⟨⟨hboard, rfl⟩, hjob⟩ := hvalid
      refine ⟨hboard, hjob, ?_⟩
      split at hsegments
      · next hlast =>
        right
        obtain ⟨before, hbefore⟩ := List.getLast?_eq_some_iff.mp hlast
        rw [hbefore, List.dropLast_concat] at hsegments
        rw [hbefore, hsegments]
        rfl
      · exact .inl hsegments
    · cases hhosted
  · cases hhosted

theorem tokens_of_hostedPath (hhosted : hostedPath path = some (board, job)) :
    pathSegments path ≠ [] ∧ ∀ segment ∈ pathSegments path, IsToken segment := by
  obtain ⟨hboard, hjob, hsegments⟩ := hostedPath_eq_some hhosted
  have hall : ∀ segment ∈ path.splitOn '/', segment = [] ∨ IsToken segment := by
    intro segment hsegment
    have hmem : segment ∈ [[], board, "jobs".toList, job, []] := by
      rcases hsegments with heq | heq
      · rw [heq] at hsegment
        exact List.mem_append_left [[]] hsegment
      · rwa [heq] at hsegment
    simp only [List.mem_cons, List.not_mem_nil, or_false] at hmem
    rcases hmem with rfl | rfl | rfl | rfl | rfl
    · exact .inl rfl
    · exact .inr (isToken_of_isIdentityToken hboard)
    · exact .inr (forall_mem_of_all (by decide))
    · exact .inr (isToken_of_isJobToken hjob)
    · exact .inl rfl
  constructor
  · apply List.ne_nil_of_mem (a := "jobs".toList)
    apply List.mem_filter.mpr
    constructor
    · rcases hsegments with heq | heq <;> rw [heq] <;> simp
    · rfl
  · intro segment hsegment
    obtain ⟨hpiece, hsome⟩ := List.mem_filter.mp hsegment
    exact (hall segment hpiece).resolve_left (by simpa using hsome)

theorem plainPath_of_embedded (hlawful : tables.Lawful)
    (hrooted : path = [] ∨ path.head? = some '/')
    (hembedded : (tables.casefold path).rdropWhile (· == '/') = "/embed/job_app".toList) :
    PlainPath path := by
  have hfolded : ∀ char ∈ tables.casefold path, isTokenCharacter char = true ∨
      char = '/' := by
    have hembed : ∀ char ∈ "/embed/job_app".toList, isTokenCharacter char = true ∨
        char = '/' := forall_mem_of_all (by decide)
    intro char hchar
    rw [← List.rdropWhile_append_rtakeWhile (p := (· == '/')) (l := tables.casefold path),
      hembedded] at hchar
    rcases List.mem_append.mp hchar with hmem | hmem
    · exact hembed char hmem
    · exact .inr (by simpa using List.mem_rtakeWhile_imp hmem)
  have hletter : 'e' ∈ tables.casefold path := by
    apply (List.rdropWhile_prefix (· == '/') _).subset
    rw [hembedded]
    decide
  constructor
  · apply hrooted.resolve_left
    rintro rfl
    cases hletter
  · obtain ⟨source, hsource, hmem⟩ := List.mem_flatMap.mp hletter
    refine ⟨source, hsource, ?_⟩
    rintro rfl
    rw [hlawful.fold_ascii '/' (by decide)] at hmem
    exact absurd hmem (by decide)
  · intro char hchar
    have hinside : ∀ found ∈ tables.fold char, found ∈ tables.casefold path :=
      fun found hfound => List.mem_flatMap.mpr ⟨char, hchar, hfound⟩
    constructor
    · rintro rfl
      have hmem := hinside ';' (by rw [hlawful.fold_ascii ';' (by decide)]; decide)
      rcases hfolded ';' hmem with htoken | hslash
      · exact absurd htoken (by decide)
      · exact absurd hslash (by decide)
    · rw [Bool.eq_false_iff]
      intro hspace
      have hmem := hinside char (by rw [hlawful.fold_space char hspace]; exact .head _)
      rcases hfolded char hmem with htoken | rfl
      · rw [(plain_of_isTokenCharacter htoken).2.2] at hspace
        cases hspace
      · exact absurd hspace (by decide)

theorem plainPath (hlawful : tables.Lawful)
    (hrooted : path = [] ∨ path.head? = some '/')
    (hnamed : namedRoute tables path values = .ok result) : PlainPath path := by
  unfold namedRoute at hnamed
  split at hnamed
  · next board job hhosted =>
    obtain ⟨hsome, htokens⟩ := tokens_of_hostedPath hhosted
    exact plainPath_of_tokens hrooted hsome htokens
  · split at hnamed
    · next hembedded => exact plainPath_of_embedded hlawful hrooted hembedded
    · unfold jobIdRoute at hnamed
      split at hnamed
      · next board hsegments =>
        simp only at hnamed
        split at hnamed
        · next hvalid =>
          simp only [Bool.and_eq_true] at hvalid
          apply plainPath_of_tokens hrooted (by rw [hsegments]; exact List.cons_ne_nil _ _)
          rw [hsegments, List.forall_mem_singleton]
          exact isToken_of_isIdentityToken hvalid.1.1
        · cases hnamed
      · cases hnamed

theorem hostedPath_slashes (hslashes : Slashes path stripped count) (hcount : count ≤ 1) :
    hostedPath stripped = hostedPath path := by
  have hpath := hslashes.segments
  simp only [hostedPath]
  rw [if_neg hslashes.ends, hpath]
  obtain rfl | rfl := Nat.le_one_iff_eq_zero_or_eq_one.mp hcount
  · rw [List.replicate_zero, List.append_nil, if_neg hslashes.ends]
  · rw [List.replicate_one, List.getLast?_concat, if_pos rfl, List.dropLast_concat]

theorem namedRoute_slashes (hlawful : tables.Lawful) (hslashes : Slashes path stripped count)
    (hdouble : hasDoubleSlash path = false) (values : Values) :
    namedRoute tables stripped values = namedRoute tables path values := by
  have hcount : count ≤ 1 := by
    by_contra hmany
    obtain ⟨more, rfl⟩ := Nat.exists_eq_add_of_le (Nat.lt_of_not_le hmany)
    rw [hasDoubleSlash, decide_eq_false_iff_not] at hdouble
    apply hdouble
    rw [hslashes.path, List.replicate_add]
    exact ⟨stripped, List.replicate more '/', by simp [List.replicate]⟩
  have hfolded : (tables.casefold path).rdropWhile (· == '/') =
      (tables.casefold stripped).rdropWhile (· == '/') := by
    have hslash : ∀ more, tables.casefold (List.replicate more '/') = List.replicate more '/' := by
      intro more
      rw [casefold_ascii hlawful, List.map_replicate]
      · rfl
      · intro char hchar
        rw [List.eq_of_mem_replicate hchar]
        decide
    rw [hslashes.path, casefold_append, hslash]
    clear hslashes hcount hslash
    induction count with
    | zero => rw [List.replicate_zero, List.append_nil]
    | succ count ih =>
      rw [List.replicate_succ', ← List.append_assoc, List.rdropWhile_concat_pos _ _ _ rfl, ih]
  rw [namedRoute, namedRoute, hostedPath_slashes hslashes hcount, hfolded, hslashes.pathSegments]

theorem refusesPath_slashes (hslashes : Slashes path stripped count)
    (hrefuses : refusesPath path = false) :
    refusesPath stripped = false := by
  simp only [refusesPath, Bool.or_eq_false_iff, List.contains_eq_mem, decide_eq_false_iff_not,
    hasDoubleSlash, List.any_eq_false] at hrefuses ⊢
  obtain ⟨⟨⟨hback, hpercent⟩, hdouble⟩, hdots⟩ := hrefuses
  refine ⟨⟨⟨fun hmem => hback (hslashes.subset hmem),
    fun hmem => hpercent (hslashes.subset hmem)⟩, ?_⟩, ?_⟩
  · intro hinfix
    apply hdouble
    rw [hslashes.path]
    exact hinfix.trans (List.prefix_append _ _).isInfix
  · intro segment hsegment
    apply hdots
    rw [hslashes.segments]
    exact List.mem_append_left _ hsegment

end Greenhouse

end JobApplyAgent.Ingestion
