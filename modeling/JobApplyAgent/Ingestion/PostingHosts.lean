import JobApplyAgent.Ingestion.PostingUrls

/-!
# Hosts of posting addresses

An address that a parser accepts names one of its hosts and no host of another parser, and its
host and port are the same in lower case.
-/

namespace JobApplyAgent.Ingestion

open Library Library.QueryString Library.UrlText

variable {tables : IdentityTables}

/-- What lower case and `str.casefold` are like, and what `urlsplit` asks of brackets. -/
structure IdentityTables.Lawful (tables : IdentityTables) : Prop extends
    UrlTables.Lawful tables.toUrlTables where
  fold_ascii : ∀ character, character.toNat < 128 → tables.fold character = [character.toLower]
  /-- Only an ASCII mark is folded into one. -/
  fold_marks : ∀ character mark, mark.toNat < 128 → mark.isAlphanum = false →
    mark ∈ tables.fold character → mark = character
  fold_space : ∀ character, isSpace character = true → tables.fold character = [character]
  casefold_lower : ∀ text, tables.casefold (tables.lower text) = tables.casefold text
  lower_marks : ∀ text mark, mark.toNat < 128 → mark.isAlphanum = false →
    mark ∈ tables.lower text → mark ∈ text
  /-- Lower case looks at the surroundings of no letter that is folded into ASCII. -/
  lower_append : ∀ first second, (∀ character ∈ tables.casefold first, character.toNat < 128) →
    (∀ character ∈ second, character.toNat < 128) →
    tables.lower (first ++ second) = tables.lower first ++ tables.lower second
  /-- Brackets stand around an IPv6 address or a later one. -/
  bracketed : ∀ netloc, tables.refuses netloc = false → '@' ∉ netloc → '[' ∈ netloc →
    ':' ∈ (hostinfo netloc).1 ∨ (hostinfo netloc).1.head? = some 'v'

theorem casefold_append (first second : List Char) :
    tables.casefold (first ++ second) = tables.casefold first ++ tables.casefold second :=
  List.flatMap_append

variable {listed : List Char}

theorem casefold_ascii (hlawful : tables.Lawful)
    (hascii : ∀ char ∈ text, char.toNat < 128) :
    tables.casefold text = text.map Char.toLower := by
  induction text with
  | nil => rfl
  | cons char text ih =>
    rw [IdentityTables.casefold, List.flatMap_cons,
      hlawful.fold_ascii char (hascii char (.head _)), List.map_cons,
      List.singleton_append]
    exact congrArg _ (ih fun later hlater => hascii later (.tail _ hlater))

theorem mem_casefold (hlawful : tables.Lawful) {mark : Char} (hascii : mark.toNat < 128)
    (hmark : mark.isAlphanum = false) :
    mark ∈ tables.casefold text ↔ mark ∈ text := by
  rw [IdentityTables.casefold, List.mem_flatMap]
  constructor
  · rintro ⟨source, hsource, hmem⟩
    rwa [hlawful.fold_marks source mark hascii hmark hmem]
  · intro hmem
    refine ⟨mark, hmem, ?_⟩
    have hlower : mark.toLower = mark := by
      apply toLower_of_not_isUpper
      rw [Bool.eq_false_iff]
      intro hupper
      rw [isAlphanum_of_isUpper hupper] at hmark
      cases hmark
    rw [hlawful.fold_ascii mark hascii, hlower]
    exact .head _

/-! ## The hosts -/

namespace Ats

def hosts : Ats → List (List Char)
  | .greenhouse => Greenhouse.allowedCandidateHosts
  | .lever => Lever.hosts
  | .ashby => [Ashby.candidateHost]
  | .smartRecruiters => [SmartRecruiters.candidateHost]

def readHost (tables : IdentityTables) : Ats → List Char → List Char
  | .greenhouse | .lever => lowerHost tables
  | .ashby | .smartRecruiters => foldedHost tables

end Ats

variable {ats : Ats} {netloc : List Char}

/-- A host that is listed is written in lower case, without marks of other parts. -/
theorem listed_host (hlisted : listed ∈ ats.hosts) :
    (∀ char ∈ listed, char.toNat < 128) ∧ listed.map Char.toLower = listed ∧
      (∀ mark ∈ [':', '@', '[', '%'], mark ∉ listed) ∧ listed.head? ≠ some 'v' ∧
        listed ≠ [] := by
  have hall : ∀ ats ∈ [Ats.greenhouse, .lever, .ashby, .smartRecruiters],
      ∀ listed ∈ ats.hosts, (listed.all fun char => decide (char.toNat < 128)) = true ∧
        listed.map Char.toLower = listed ∧
        ([':', '@', '[', '%'].all fun mark => decide (mark ∉ listed)) = true ∧
        listed.head? ≠ some 'v' ∧ listed ≠ [] := by
    decide
  obtain ⟨hascii, hlower, hmarks, hhead, hsome⟩ := hall ats (by cases ats <;> simp) listed hlisted
  exact ⟨forall_mem_of_all hascii, hlower, forall_mem_of_all hmarks, hhead, hsome⟩

/-- No host is listed for two parsers. -/
theorem hosts_disjoint {first second : Ats} (hfirst : listed ∈ first.hosts)
    (hsecond : listed ∈ second.hosts) : first = second := by
  have hall : ∀ first ∈ [Ats.greenhouse, .lever, .ashby, .smartRecruiters],
      ∀ second ∈ [Ats.greenhouse, .lever, .ashby, .smartRecruiters],
        ∀ listed ∈ first.hosts, listed ∈ second.hosts → first = second := by
    decide
  exact hall first (by cases first <;> simp) second (by cases second <;> simp) listed hfirst
    hsecond

theorem casefold_readHost (hlawful : tables.Lawful)
    (hlisted : ats.readHost tables netloc ∈ ats.hosts) :
    tables.casefold (hostname tables.lower netloc) = ats.readHost tables netloc := by
  have hlower : ∀ listed ∈ ats.hosts, tables.lower (hostname tables.lower netloc) = listed →
      tables.casefold (hostname tables.lower netloc) = listed := by
    intro listed hmem hread
    obtain ⟨hascii, hsame, _⟩ := listed_host hmem
    rw [← hlawful.casefold_lower, hread, casefold_ascii hlawful hascii, hsame]
  cases ats with
  | greenhouse => exact hlower _ hlisted rfl
  | lever => exact hlower _ hlisted rfl
  | ashby => rfl
  | smartRecruiters => rfl

/-! ## Network locations -/

/-- A network location that is a host and perhaps a port. -/
structure PlainHost (tables : IdentityTables) (netloc host port : List Char) : Prop where
  netloc : netloc = host ++ port
  folded : tables.casefold host ≠ []
  ascii : ∀ character ∈ tables.casefold host, character.toNat < 128
  marks : ∀ mark ∈ [':', '@', '[', '%'], mark ∉ host
  port : port = [] ∨ ∃ digits, port = ':' :: digits ∧ ∀ digit ∈ digits, digit.isDigit = true

/-- A listed host is spelled plainly, with its port behind it. -/
theorem plainHost_of_read (hlawful : tables.Lawful)
    (haccepted : tables.refuses netloc = false) (hlisted : ats.readHost tables netloc ∈ ats.hosts)
    (huser : hasUserinfo netloc = false) (hport : port netloc = some found) :
    ∃ host port, PlainHost tables netloc host port := by
  obtain ⟨hascii, _, hmarks, hhead, hsome⟩ := listed_host hlisted
  rw [← casefold_readHost hlawful hlisted, hostname, casefold_append, hlawful.casefold_lower,
    ← casefold_append, List.takeWhile_append_dropWhile] at hascii hmarks hhead hsome
  have hnoMark : ∀ mark ∈ [':', '@', '[', '%'], mark ∉ (hostinfo netloc).1 := by
    intro mark hmark hmem
    have hplain : mark.toNat < 128 ∧ mark.isAlphanum = false := by
      simp only [List.mem_cons, List.not_mem_nil, or_false] at hmark
      rcases hmark with rfl | rfl | rfl | rfl <;> decide
    exact hmarks mark hmark ((mem_casefold hlawful hplain.1 hplain.2).mpr hmem)
  have hat : '@' ∉ netloc := by
    rw [hasUserinfo, ← Bool.not_eq_true, List.contains_iff_mem] at huser
    exact huser
  have hbracket : '[' ∉ netloc := by
    intro hmem
    rcases hlawful.bracketed netloc haccepted hat hmem with hcolon | hlater
    · exact hnoMark ':' (by simp) hcolon
    obtain ⟨rest, hrest⟩ := List.head?_eq_some_iff.mp hlater
    apply hhead
    rw [hrest, IdentityTables.casefold, List.flatMap_cons, hlawful.fold_ascii 'v' (by decide)]
    rfl
  have hinfo := hostinfo_plain hat hbracket
  obtain ⟨tail, hnetloc, hcolon, hdigits, htail⟩ := cutAt_eq ':' netloc
  rw [hinfo] at hascii hnoMark hsome
  refine ⟨(cutAt ':' netloc).1, tail, hnetloc, hsome, hascii, hnoMark, ?_⟩
  cases tail with
  | nil => exact .inl rfl
  | cons first digits =>
    obtain rfl := htail first rfl
    refine .inr ⟨digits, rfl, ?_⟩
    rw [port, hinfo, hdigits, List.tail_cons] at hport
    split at hport
    · next hnone => simp [hnone]
    · split at hport
      · next hvalid =>
        rw [Bool.and_eq_true, List.all_eq_true] at hvalid
        exact hvalid.1
      · cases hport

namespace PlainHost

variable {port : List Char}

section

variable (hplain : PlainHost tables netloc host port)
include hplain

theorem ne_nil : netloc ≠ [] := by
  rintro rfl
  have hnone := (List.append_eq_nil_iff.mp hplain.netloc.symm).1
  apply hplain.folded
  rw [hnone]
  rfl

theorem notMem {mark : Char}
    (hmark : mark ∈ ['@', '[', '%']) : mark ∉ netloc := by
  rw [hplain.netloc, List.mem_append, not_or]
  constructor
  · exact hplain.marks mark (.tail _ hmark)
  · rcases hplain.port with rfl | ⟨digits, rfl, hdigits⟩
    · exact List.not_mem_nil
    intro hmem
    simp only [List.mem_cons, List.not_mem_nil, or_false] at hmark hmem
    rcases hmem with rfl | hmem
    · exact absurd hmark (by decide)
    · have hdigit := hdigits mark hmem
      rcases hmark with rfl | rfl | rfl <;> exact absurd hdigit (by decide)

theorem hostinfo :
    hostinfo netloc = (host, port.tail) := by
  rw [hostinfo_plain (hplain.notMem (by simp)) (hplain.notMem (by simp)), hplain.netloc]
  apply cutAt_colon (hplain.marks ':' (by simp))
  intro char hhead
  rcases hplain.port with rfl | ⟨digits, rfl, _⟩
  · cases hhead
  · exact (Option.some.inj hhead).symm

theorem hostname :
    hostname tables.lower netloc = tables.lower host := by
  have hpercent : ∀ char ∈ host, (char != '%') = true := by
    intro char hchar
    rw [bne_iff_ne]
    rintro rfl
    exact hplain.marks '%' (by simp) hchar
  rw [UrlText.hostname, hplain.hostinfo, List.takeWhile_eq_self_iff.mpr hpercent,
    List.dropWhile_eq_nil_iff.mpr hpercent, List.append_nil]

end

/-- A plain host is a plain host in lower case. -/
theorem lower (hlawful : tables.Lawful) (hplain : PlainHost tables netloc host port) :
    PlainHost tables (tables.lower netloc) (tables.lower host) port where
  netloc := by
    have hport : ∀ char ∈ port,
        char.toNat < 128 ∧ char.toLower = char := by
      intro char hchar
      rcases hplain.port with rfl | ⟨digits, rfl, hdigits⟩
      · cases hchar
      rcases List.mem_cons.mp hchar with rfl | hmem
      · decide
      · have hdigit := hdigits char hmem
        have halphanum : char.isAlphanum = true := by simp [Char.isAlphanum, hdigit]
        refine ⟨toNat_lt_of_isAlphanum halphanum, toLower_of_not_isUpper ?_⟩
        rw [Bool.eq_false_iff]
        intro hupper
        delta Char.isUpper at hupper
        simp only [Char.isDigit, Bool.and_eq_true, decide_eq_true_eq, ge_iff_le] at hdigit hupper
        exact absurd (UInt32.le_trans hupper.1 hdigit.2) (by decide)
    rw [hplain.netloc, hlawful.lower_append host port hplain.ascii fun char hchar =>
      (hport char hchar).1, hlawful.ascii port fun char hchar =>
      (hport char hchar).1]
    congr 1
    calc port.map Char.toLower = port.map id :=
          List.map_congr_left fun char hchar => (hport char hchar).2
      _ = port := List.map_id _
  folded := by
    rw [hlawful.casefold_lower]
    exact hplain.folded
  ascii := by
    rw [hlawful.casefold_lower]
    exact hplain.ascii
  marks := by
    intro mark hmark hmem
    have hascii : mark.toNat < 128 ∧ mark.isAlphanum = false := by
      simp only [List.mem_cons, List.not_mem_nil, or_false] at hmark
      rcases hmark with rfl | rfl | rfl | rfl <;> decide
    exact hplain.marks mark hmark (hlawful.lower_marks host mark hascii.1 hascii.2 hmem)
  port := hplain.port

end PlainHost

/-- Network locations that name the same host and the same port. -/
structure SameHost (tables : IdentityTables) (netloc other : List Char) : Prop where
  accepted : tables.refuses netloc = false → tables.refuses other = false
  characters : ∀ character ∈ other,
    isDelimiter character = true ∨ isUnsafe character = true → character ∈ netloc
  user : hasUserinfo other = hasUserinfo netloc
  host : hostname tables.lower other = hostname tables.lower netloc
  port : port other = port netloc

theorem SameHost.refl (tables : IdentityTables) (netloc : List Char) :
    SameHost tables netloc netloc where
  accepted := id
  characters := fun _ hchar _ => hchar
  user := rfl
  host := rfl
  port := rfl

theorem PlainHost.sameHost_lower (hlawful : tables.Lawful) {port : List Char}
    (hplain : PlainHost tables netloc host port) :
    SameHost tables netloc (tables.lower netloc) where
  accepted := hlawful.accepted netloc
  characters := hlawful.marks netloc
  user := by
    have hnone : '@' ∉ netloc := hplain.notMem (by simp)
    have hlower : '@' ∉ tables.lower netloc := (hplain.lower hlawful).notMem (by simp)
    rw [hasUserinfo, hasUserinfo, List.contains_eq_mem, List.contains_eq_mem,
      decide_eq_false hnone, decide_eq_false hlower]
  host := by
    rw [(hplain.lower hlawful).hostname, hplain.hostname, hlawful.lower_lower]
  port := by
    rw [UrlText.port, UrlText.port, (hplain.lower hlawful).hostinfo, hplain.hostinfo]

theorem SameHost.readHost (hsame : SameHost tables netloc other) (ats : Ats) :
    ats.readHost tables other = ats.readHost tables netloc := by
  cases ats <;> simp only [Ats.readHost, lowerHost, foldedHost, hsame.host]

end JobApplyAgent.Ingestion
