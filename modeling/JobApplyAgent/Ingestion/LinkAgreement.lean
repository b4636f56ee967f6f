import JobApplyAgent.Ingestion.LinkExtraction

/-!
# The extractors agree

Every extractor scans a message in step with its passages: it passes over what is no link and
reads a link as a whole.  The scan leaves the step only where a marker stands behind a link
that the reader does not replace, or where an address is spelled with a long s.
-/

namespace JobApplyAgent.Ingestion

open Library Library.QueryString Library.Regex

/-! ## Schemes -/

variable {word : List Char}

theorem dropWord_eq_some_iff {same : Char → Char → Bool} :
    dropWord same letters text = some rest ↔ ∃ word, text = word ++ rest ∧
      List.Forall₂ (fun letter char => same letter char = true) letters word := by
  induction letters generalizing text with
  | nil =>
    constructor
    · rintro hrest
      cases hrest
      exact ⟨[], rfl, .nil⟩
    · rintro ⟨word, rfl, hword⟩
      cases hword
      rfl
  | cons letter letters ih =>
    cases text with
    | nil =>
      constructor
      · intro hrest
        cases hrest
      · rintro ⟨word, htext, hword⟩
        cases hword
        cases htext
    | cons char text =>
      rw [dropWord]
      constructor
      · intro hrest
        split at hrest
        · next hsame =>
          obtain ⟨word, rfl, hword⟩ := ih.mp hrest
          exact ⟨char :: word, rfl, .cons hsame hword⟩
        · cases hrest
      · rintro ⟨word, htext, hword⟩
        cases hword with
        | cons hsame hword =>
          rw [List.cons_append, List.cons.injEq] at htext
          obtain ⟨rfl, rfl⟩ := htext
          rw [if_pos hsame]
          exact ih.mpr ⟨_, rfl, hword⟩

theorem dropWord_eq_iff :
    dropWord (· == ·) letters text = some rest ↔ text = letters ++ rest := by
  rw [dropWord_eq_some_iff]
  constructor
  · rintro ⟨word, rfl, hword⟩
    have hsame : List.Forall₂ (· = ·) letters word := hword.imp fun _ _ => eq_of_beq
    rw [List.forall₂_eq_eq_eq] at hsame
    rw [hsame]
  · rintro rfl
    exact ⟨letters, rfl, List.forall₂_same.mpr fun letter _ => beq_self_eq_true letter⟩

/-- A spelling of `http://` or of `https://`. -/
structure Spells (same : Char → Char → Bool) (word : List Char) : Prop where
  spelled : ∃ letters ending, word = letters ++ ending ++ "://".toList ∧
    List.Forall₂ (fun letter character => same letter character = true) "http".toList letters ∧
    (ending = [] ∨ ∃ character, ending = [character] ∧ same 's' character = true)

variable {same : Char → Char → Bool}

theorem dropScheme_eq_some_iff (hcolon : same 's' ':' = false) :
    dropScheme same text = some rest ↔ ∃ word, text = word ++ rest ∧ Spells same word := by
  rw [dropScheme, Option.bind_eq_some_iff]
  constructor
  · rintro ⟨middle, hmiddle, hrest⟩
    obtain ⟨letters, rfl, hletters⟩ := dropWord_eq_some_iff.mp hmiddle
    rw [Option.or_eq_some_iff] at hrest
    rcases hrest with hlong | ⟨_, hshort⟩
    · obtain ⟨behind, hbehind, hend⟩ := Option.bind_eq_some_iff.mp hlong
      obtain ⟨ending, rfl, hending⟩ := dropWord_eq_some_iff.mp hbehind
      rw [dropWord_eq_iff] at hend
      cases hending with
      | cons hsame hnil =>
        cases hnil
        refine ⟨_, ?_, ⟨letters, _, rfl, hletters, .inr ⟨_, rfl, hsame⟩⟩⟩
        rw [hend]
        simp
    · rw [dropWord_eq_iff] at hshort
      refine ⟨_, ?_, ⟨letters, [], rfl, hletters, .inl rfl⟩⟩
      rw [hshort]
      simp
  · rintro ⟨word, rfl, ⟨letters, ending, rfl, hletters, hending⟩⟩
    refine ⟨ending ++ "://".toList ++ rest, ?_, ?_⟩
    · exact dropWord_eq_some_iff.mpr ⟨letters, by simp, hletters⟩
    · rw [Option.or_eq_some_iff]
      rcases hending with rfl | ⟨char, rfl, hsame⟩
      · right
        constructor
        · rw [Option.bind_eq_none_iff]
          intro behind hbehind
          exact absurd hbehind (by simp [dropWord, hcolon])
        · exact dropWord_eq_iff.mpr rfl
      · left
        rw [Option.bind_eq_some_iff]
        exact ⟨"://".toList ++ rest, by simp [dropWord, hsame], dropWord_eq_iff.mpr rfl⟩

theorem Spells.mono (hword : Spells same word)
    (hmono : ∀ letter char, same letter char = true →
      other letter char = true) : Spells other word := by
  obtain ⟨letters, ending, rfl, hletters, hending⟩ := hword
  refine ⟨letters, ending, rfl, hletters.imp hmono, hending.imp id ?_⟩
  rintro ⟨char, rfl, hsame⟩
  exact ⟨char, rfl, hmono _ _ hsame⟩

/-- The slashes at its end stand behind the rest of a scheme. -/
theorem Spells.concat (hword : Spells same word) :
    ∃ first, word = first ++ ['/'] := by
  obtain ⟨letters, ending, rfl, _, _⟩ := hword
  exact ⟨letters ++ ending ++ [':', '/'], by simp⟩

def isSchemeCharacter (character : Char) : Bool :=
  ['h', 't', 'p', 's', ':', '/'].contains character.toLower || character == 'ſ'

theorem Spells.characters (hword : Spells sameLetterPython word) :
    ∀ char ∈ word, isSchemeCharacter char = true := by
  have hone : ∀ letter ∈ "https".toList, ∀ char,
      sameLetterPython letter char = true → isSchemeCharacter char = true := by
    intro letter hletter char hsame
    rw [sameLetterPython, Bool.or_eq_true, Bool.and_eq_true, beq_iff_eq, beq_iff_eq,
      beq_iff_eq] at hsame
    rw [isSchemeCharacter, Bool.or_eq_true, beq_iff_eq, List.contains_iff_mem]
    rcases hsame with hlower | ⟨_, hlong⟩
    · left
      have hletters : ∀ letter ∈ "https".toList, letter ∈ ['h', 't', 'p', 's', ':', '/'] :=
        forall_mem_of_all (by decide)
      rw [hlower]
      exact hletters letter hletter
    · exact .inr hlong
  obtain ⟨letters, ending, rfl, hletters, hending⟩ := hword
  intro char hchar
  rw [List.mem_append, List.mem_append] at hchar
  rcases hchar with (hmem | hmem) | hmem
  · have hall : ∀ found ∈ letters, isSchemeCharacter found = true := by
      have hpairs := hletters
      rw [show "http".toList = ['h', 't', 't', 'p'] from rfl] at hpairs
      rcases hpairs with _ | ⟨hh, _ | ⟨ht, _ | ⟨hu, _ | ⟨hp, _ | _⟩⟩⟩⟩
      intro found hfound
      simp only [List.mem_cons, List.not_mem_nil, or_false] at hfound
      rcases hfound with rfl | rfl | rfl | rfl
      · exact hone 'h' (by decide) _ hh
      · exact hone 't' (by decide) _ ht
      · exact hone 't' (by decide) _ hu
      · exact hone 'p' (by decide) _ hp
    exact hall char hmem
  · rcases hending with rfl | ⟨found, rfl, hsame⟩
    · cases hmem
    · rw [List.mem_singleton.mp hmem]
      exact hone 's' (by decide) _ hsame
  · have hall : ∀ found ∈ "://".toList, isSchemeCharacter found = true :=
      forall_mem_of_all (by decide)
    exact hall char hmem

/-! ## Reading on -/

/-- What a link at the beginning of a text leaves of it. -/
def LinkReader.next (reader : LinkReader) (text : List Char) : Option (List Char) :=
  (dropScheme reader.sameLetter text).bind fun rest =>
    if rest.head?.any fun character => !reader.excludes character then
      some (rest.dropWhile fun character => !reader.excludes character)
    else none

/-- What the three readers have in common. -/
structure LinkReader.Lawful (reader : LinkReader) : Prop where
  colon : reader.sameLetter 's' ':' = false
  script : ∀ letter character, sameLetterScript letter character = true →
    reader.sameLetter letter character = true
  python : ∀ letter character, reader.sameLetter letter character = true →
    sameLetterPython letter character = true
  breaks : ∀ character, Passage.isBreak character = true → reader.excludes character = true
  accepts : ∀ character, isLinkCharacter character = true → reader.excludes character = false
  long : reader.sameLetter 's' 'ſ' = true → ∀ character,
    webhookReader.excludes character = true → reader.excludes character = true
  trims : ∀ character, reader.trims character = true → urlUtilsReader.trims character = true
  formats : ∀ character, reader.formats character = true → isFormatting character = true

section Reading

variable {reader : LinkReader} (hlawful : reader.Lawful)

include hlawful

theorem schemePattern_reads :
    reader.schemePattern.Reads fun text => (dropScheme reader.sameLetter text).toList := by
  intro place
  refine (Reads.seq (reads_word _ _)
    (Reads.seq (reads_optional_char _) (reads_word _ _)) place).trans ?_
  change _ = (dropScheme reader.sameLetter place.after).toList
  rw [dropScheme]
  beta_reduce
  cases dropWord reader.sameLetter "http".toList place.after with
  | none => rfl
  | some rest =>
    simp only [Option.toList_some, List.flatMap_cons, List.flatMap_nil, List.append_nil,
      List.flatMap_append, Option.bind_some]
    cases rest with
    | nil => rfl
    | cons char rest =>
      cases hsame : reader.sameLetter 's' char with
      | false => simp [dropWord, hsame]
      | true =>
        have hother : ':' ≠ char := by
          rintro rfl
          rw [hlawful.colon] at hsame
          cases hsame
        have hnone : dropWord (· == ·) "://".toList (char :: rest) = none := by
          simp [dropWord, hother]
        rw [hnone]
        simp [dropWord, hsame]

theorem urlPattern_readsBy : reader.urlPattern.ReadsBy reader.next :=
  ReadsBy.seq (schemePattern_reads hlawful) (readsBy_many1_char _)

omit hlawful in
theorem next_eq_some (hnext : reader.next text = some after) :
    ∃ rest char, dropScheme reader.sameLetter text = some rest ∧
      rest.head? = some char ∧ reader.excludes char = false ∧
      after = rest.dropWhile fun char => !reader.excludes char := by
  obtain ⟨rest, hscheme, hrest⟩ := Option.bind_eq_some_iff.mp hnext
  split at hrest
  · next hhead =>
    cases hrest
    obtain ⟨char, hchar, haccepts⟩ := (Option.any_eq_true _ _).mp hhead
    exact ⟨rest, char, hscheme, hchar, by simpa using haccepts, rfl⟩
  · cases hrest

theorem next_suffix (hnext : reader.next text = some after) :
    after <:+ text := by
  obtain ⟨rest, _, hscheme, _, _, rfl⟩ := next_eq_some hnext
  obtain ⟨word, rfl, _⟩ := (dropScheme_eq_some_iff hlawful.colon).mp hscheme
  exact (List.dropWhile_suffix _).trans (List.suffix_append _ _)

theorem next_shortens : Shortens reader.next := by
  intro text after hnext
  obtain ⟨rest, _, hscheme, _, _, rfl⟩ := next_eq_some hnext
  obtain ⟨word, rfl, hword⟩ := (dropScheme_eq_some_iff hlawful.colon).mp hscheme
  obtain ⟨first, rfl⟩ := hword.concat
  have hshorter := (List.dropWhile_suffix (l := rest)
    fun char => !reader.excludes char).length_le
  simp only [List.length_append, List.length_singleton]
  omega

theorem found_eq_scan (text : List Char) :
    reader.found text = scan reader.next (reader.cleaned text) :=
  findall_eq_scan (urlPattern_readsBy hlawful) (next_shortens hlawful) _

end Reading

theorem lawful_urlUtils : urlUtilsReader.Lawful where
  colon := by decide
  script := fun letter char hsame => by
    rw [sameLetterScript] at hsame
    simp [urlUtilsReader, sameLetterPython, hsame]
  python := fun _ _ hsame => hsame
  breaks := fun char hbreak => by
    simp only [Passage.isBreak, List.contains_iff_mem, List.mem_cons, List.not_mem_nil,
      or_false] at hbreak
    rcases hbreak with rfl | rfl | rfl <;> decide
  accepts := fun char haccepts => by
    simp only [isLinkCharacter, Bool.not_eq_true', Bool.or_eq_false_iff] at haccepts
    simp only [urlUtilsReader, Bool.or_eq_false_iff]
    exact ⟨⟨haccepts.1.1.1, haccepts.2⟩, haccepts.1.2⟩
  long := fun _ char hexcluded => by
    simp only [webhookReader, Bool.or_eq_true, List.contains_iff_mem] at hexcluded
    simp only [urlUtilsReader, Bool.or_eq_true, List.contains_iff_mem]
    rcases hexcluded with hspace | hlisted
    · exact .inl (.inl hspace)
    · exact .inl (.inr (List.mem_append_left ['|'] hlisted))
  trims := fun _ htrims => htrims
  formats := fun _ hformats => hformats

theorem lawful_webhook : webhookReader.Lawful where
  colon := by decide
  script := lawful_urlUtils.script
  python := fun _ _ hsame => hsame
  breaks := fun char hbreak => by
    simp only [Passage.isBreak, List.contains_iff_mem, List.mem_cons, List.not_mem_nil,
      or_false] at hbreak
    rcases hbreak with rfl | rfl | rfl <;> decide
  accepts := fun char haccepts => by
    have hurl := lawful_urlUtils.accepts char haccepts
    cases hexcluded : webhookReader.excludes char with
    | false => rfl
    | true =>
      rw [lawful_urlUtils.long (by decide) char hexcluded] at hurl
      cases hurl
  long := fun _ _ hexcluded => hexcluded
  trims := fun char htrims => by
    simp only [webhookReader, List.contains_iff_mem] at htrims
    exact List.contains_iff_mem.mpr (List.mem_append_left [']'] htrims)
  formats := fun _ hformats => by cases hformats

theorem lawful_bridge : bridgeReader.Lawful where
  colon := by decide
  script := fun _ _ hsame => hsame
  python := lawful_urlUtils.script
  breaks := fun char hbreak => by
    simp only [Passage.isBreak, List.contains_iff_mem, List.mem_cons, List.not_mem_nil,
      or_false] at hbreak
    rcases hbreak with rfl | rfl | rfl <;> decide
  accepts := fun char haccepts => by
    simp only [isLinkCharacter, Bool.not_eq_true', Bool.or_eq_false_iff] at haccepts
    simp only [bridgeReader, Bool.or_eq_false_iff]
    exact ⟨⟨haccepts.1.1.2, haccepts.2⟩, haccepts.1.2⟩
  long := fun hsame => absurd hsame (by decide)
  trims := fun _ htrims => htrims
  formats := fun _ hformats => hformats

end JobApplyAgent.Ingestion
