import JobApplyAgent.Ingestion.LinkAgreement

/-!
# Links of a message, extracted

A message without formatting in or around its links gives every extractor the same list, the
links of the message; and a message that does so has no formatting there, no escaped link
that adds anything, and no address with a long s.
-/

namespace JobApplyAgent.Ingestion

open Library Library.QueryString Library.Regex

/-! ## Places where no link begins -/

variable {char : Char} {text : List Char}

theorem not_scheme_of_isBreak (hbreak : Passage.isBreak char = true) :
    isSchemeCharacter char = false := by
  simp only [Passage.isBreak, List.contains_iff_mem, List.mem_cons, List.not_mem_nil,
    or_false] at hbreak
  rcases hbreak with rfl | rfl | rfl <;> decide

theorem isFormatting_cases (hformats : isFormatting char = true) :
    char = '*' ∨ char = '_' ∨ char = '~' ∨ char = '`' := by
  simpa [isFormatting] using hformats

theorem not_scheme_of_isFormatting (hformats : isFormatting char = true) :
    isSchemeCharacter char = false := by
  rcases isFormatting_cases hformats with rfl | rfl | rfl | rfl <;> decide

theorem not_formatting_of_isBreak (hbreak : Passage.isBreak char = true) :
    isFormatting char = false := by
  simp only [Passage.isBreak, List.contains_iff_mem, List.mem_cons, List.not_mem_nil,
    or_false] at hbreak
  rcases hbreak with rfl | rfl | rfl <;> decide

/-- No scheme runs from a text over into what follows. -/
def Parted (text rest : List Char) : Prop :=
  text.getLast?.any (fun character => !isSchemeCharacter character) = true ∨
    rest.head?.all (fun character => !isSchemeCharacter character) = true

theorem Parted.suffix (hparted : Parted text rest) (htail : tail <:+ text)
    (hne : tail ≠ []) : Parted tail rest := by
  obtain ⟨before, rfl⟩ := htail
  rw [Parted, List.getLast?_append_of_ne_nil _ hne] at hparted
  exact hparted

variable {word : List Char}

theorem Parted.scheme_within (hparted : Parted text rest)
    (hword : Spells same word) (hpython : ∀ letter char, same letter char = true →
      sameLetterPython letter char = true) (htext : text ++ rest = word ++ behind) :
    ∃ within, text = word ++ within ∧ behind = within ++ rest := by
  have hcharacters := (hword.mono hpython).characters
  rcases List.append_eq_append_iff.mp htext with ⟨beyond, rfl, hrest⟩ | ⟨within, htext, hbehind⟩
  · rcases hparted with hlast | hhead
    · obtain ⟨last, hlast, hnot⟩ := (Option.any_eq_true _ _).mp hlast
      have hmem := hcharacters last (List.mem_append_left _ (List.mem_of_getLast? hlast))
      rw [hmem] at hnot
      cases hnot
    · cases beyond with
      | nil => exact ⟨[], by simp, by simpa using hrest.symm⟩
      | cons first beyond =>
        rw [hrest, List.cons_append, List.head?_cons, Option.all_some] at hhead
        rw [hcharacters first (List.mem_append_right _ (.head _))] at hhead
        cases hhead
  · exact ⟨within, htext, hbehind⟩

/-! ## Reading a message -/

section Reading

variable {reader : LinkReader} (hlawful : reader.Lawful)

theorem LinkReader.cleaned_append (reader : LinkReader) (first second : List Char) :
    reader.cleaned (first ++ second) = reader.cleaned first ++ reader.cleaned second :=
  List.map_append

variable {text : List Char}

theorem spelled_of_cleaned {word : List Char} (hword : Spells same word)
    (hpython : ∀ letter char, same letter char = true →
      sameLetterPython letter char = true) (htext : reader.cleaned text = word ++ rest) :
    ∃ behind, text = word ++ behind ∧ rest = reader.cleaned behind := by
  obtain ⟨first, behind, rfl, hfirst, hbehind⟩ := List.map_eq_append_iff.mp htext
  have hsame : first = word := by
    have hcharacters := (hword.mono hpython).characters
    rw [← hfirst]
    symm
    conv_rhs => rw [← List.map_id first]
    apply List.map_congr_left
    intro char hchar
    split
    · next hformats =>
      have hspace := hcharacters ' ' (by
        rw [← hfirst]
        exact List.mem_map.mpr ⟨char, hchar, if_pos hformats⟩)
      exact absurd hspace (by decide)
    · rfl
  exact ⟨behind, by rw [hsame], hbehind.symm⟩

include hlawful

theorem script_of_same (hlong : reader.sameLetter 's' 'ſ' = false) (letter char : Char)
    (hsame : reader.sameLetter letter char = true) :
    sameLetterScript letter char = true := by
  have hpython := hlawful.python letter char hsame
  rw [sameLetterPython, Bool.or_eq_true, Bool.and_eq_true, beq_iff_eq, beq_iff_eq,
    beq_iff_eq] at hpython
  rcases hpython with hlower | ⟨rfl, rfl⟩
  · exact beq_iff_eq.mpr hlower
  · rw [hlong] at hsame
    cases hsame

/-- A link that is found in the cleaned text begins in the text. -/
theorem next_cleaned_eq_some (hnext : reader.next (reader.cleaned text) = some after) :
    ∃ word behind char, text = word ++ behind ∧ Spells reader.sameLetter word ∧
      behind.head? = some char ∧ reader.formats char = false ∧
      reader.excludes char = false := by
  obtain ⟨rest, found, hscheme, hhead, haccepts, _⟩ := next_eq_some hnext
  obtain ⟨word, hcleaned, hword⟩ := (dropScheme_eq_some_iff hlawful.colon).mp hscheme
  obtain ⟨behind, rfl, rfl⟩ := spelled_of_cleaned hword hlawful.python hcleaned
  rw [LinkReader.cleaned, List.head?_map, Option.map_eq_some_iff] at hhead
  obtain ⟨char, hchar, rfl⟩ := hhead
  split at haccepts
  · rw [hlawful.breaks ' ' (by decide)] at haccepts
    cases haccepts
  · next hformats => exact ⟨word, behind, char, rfl, hword, hchar, by simpa
    using hformats,
      haccepts⟩

omit hlawful in
/-- The scan passes over a text in which no link begins. -/
theorem scan_passage (hnone : ∀ tail, tail <:+ text → tail ≠ [] →
      reader.next (reader.cleaned (tail ++ rest)) = none) :
    scan reader.next (reader.cleaned (text ++ rest)) = scan reader.next (reader.cleaned rest) := by
  rw [LinkReader.cleaned_append]
  apply scan_gap
  intro tail htail hne
  obtain ⟨source, hsource, rfl⟩ := List.suffix_map_iff.mp htail
  have hnext := hnone source hsource (by rintro rfl; exact hne rfl)
  rwa [LinkReader.cleaned_append] at hnext

/-- Nothing is found in a text without any scheme. -/
theorem next_of_unlinked
    (hunlinked : ∀ tail, tail <:+ text → dropScheme sameLetterPython tail = none)
    (hparted : Parted text rest) (htail : tail <:+ text) (hne : tail ≠ []) :
    reader.next (reader.cleaned (tail ++ rest)) = none := by
  cases hnext : reader.next (reader.cleaned (tail ++ rest)) with
  | none => rfl
  | some after =>
    obtain ⟨word, behind, _, htext, hword, _⟩ := next_cleaned_eq_some hlawful hnext
    obtain ⟨within, rfl, _⟩ := (hparted.suffix htail hne).scheme_within hword
      hlawful.python htext
    have hscheme : dropScheme sameLetterPython (word ++ within) = some within :=
      (dropScheme_eq_some_iff (by decide)).mpr ⟨word, rfl, hword.mono hlawful.python⟩
    rw [hunlinked _ htail] at hscheme
    cases hscheme

/-- Nothing is found in other text, unless an address with a long s begins there. -/
theorem next_of_plain (hplain : Passage.IsPlain text) (hparted : Parted text rest)
    (htail : tail <:+ text) (hne : tail ≠ []) (hlong : beginsLongLink (tail ++ rest) = false) :
    reader.next (reader.cleaned (tail ++ rest)) = none := by
  cases hnext : reader.next (reader.cleaned (tail ++ rest)) with
  | none => rfl
  | some after =>
    obtain ⟨word, behind, char, htext, hword, hhead, hformats, haccepts⟩ :=
      next_cleaned_eq_some hlawful hnext
    have hnoScript : dropScheme sameLetterScript (tail ++ rest) = none := by
      cases hscript : dropScheme sameLetterScript (tail ++ rest) with
      | none => rfl
      | some behind =>
        obtain ⟨word, htext, hword⟩ := (dropScheme_eq_some_iff (by decide)).mp hscript
        obtain ⟨within, rfl, _⟩ := (hparted.suffix htail hne).scheme_within hword
          lawful_bridge.python htext
        have hscheme : dropScheme sameLetterScript (word ++ within) = some within :=
          (dropScheme_eq_some_iff (by decide)).mpr ⟨word, rfl, hword⟩
        rw [hplain.unlinked _ htail] at hscheme
        cases hscheme
    have hsame : reader.sameLetter 's' 'ſ' = true := by
      by_contra hother
      have hscript : dropScheme sameLetterScript (tail ++ rest) = some behind :=
        (dropScheme_eq_some_iff (by decide)).mpr ⟨word, htext,
          hword.mono (script_of_same hlawful (Bool.eq_false_iff.mpr hother))⟩
      rw [hnoScript] at hscript
      cases hscript
    have hpython : dropScheme sameLetterPython (tail ++ rest) = some behind :=
      (dropScheme_eq_some_iff (by decide)).mpr ⟨word, htext, hword.mono hlawful.python⟩
    rw [beginsLongLink, hnoScript, hpython] at hlong
    have hexcluded : webhookReader.excludes char = true := by
      simpa [hhead] using hlong
    rw [hlawful.long hsame char hexcluded] at haccepts
    cases haccepts

/-- A link is read as a whole, up to the first excluded character behind it. -/
theorem next_of_link (hlink : IsLink url) :
    reader.next (url ++ rest) =
      some (rest.dropWhile fun char => !reader.excludes char) := by
  obtain ⟨behind, hbehind, hscheme⟩ := hlink.scheme
  obtain ⟨word, rfl, hword⟩ := (dropScheme_eq_some_iff (by decide)).mp hscheme
  have haccepts : ∀ char ∈ behind, (!reader.excludes char) = true := by
    intro char hchar
    rw [hlawful.accepts char (hlink.characters char
      (List.mem_append_right _ hchar))]
    rfl
  have hread : dropScheme reader.sameLetter (word ++ behind ++ rest) = some (behind ++ rest) :=
    (dropScheme_eq_some_iff hlawful.colon).mpr
      ⟨word, List.append_assoc .., hword.mono hlawful.script⟩
  obtain ⟨first, others, rfl⟩ := List.exists_cons_of_ne_nil hbehind
  rw [LinkReader.next, hread, Option.bind_some, List.cons_append, List.head?_cons,
    Option.any_some, if_pos (haccepts first (.head _)), ← List.cons_append,
    List.dropWhile_append_of_pos haccepts]

end Reading

/-! ## Links of a reader -/

/-- A character that is not taken off an end holds on to what stands before it. -/
theorem rdropWhile_append_of_concat (hkept : drops char = false) :
    (front ++ [char] ++ rest).rdropWhile drops =
      front ++ [char] ++ rest.rdropWhile drops := by
  have hfront : (char :: front.reverse).dropWhile drops = char :: front.reverse := by
    rw [List.dropWhile_cons_of_neg (by rw [hkept]; decide)]
  rw [List.rdropWhile, List.rdropWhile, List.reverse_append, List.reverse_append,
    List.reverse_singleton, List.singleton_append, List.dropWhile_append,
    hfront]
  split
  · next hempty => simp [List.isEmpty_iff.mp hempty]
  · simp

theorem Spells.rdropWhile_append (hword : Spells same word) (hslash : drops '/' = false) :
    (word ++ rest).rdropWhile drops = word ++ rest.rdropWhile drops := by
  obtain ⟨first, rfl⟩ := hword.concat
  exact rdropWhile_append_of_concat hslash

theorem rdropWhile_eq_of_ending (hending : ∀ char, text.getLast? = some char → drops char = false) :
    text.rdropWhile drops = text := by
  rw [List.rdropWhile_eq_self_iff]
  intro hne
  rw [hending _ (List.getLast?_eq_getLast_of_ne_nil hne)]
  decide

section Links

variable {reader : LinkReader} (hlawful : reader.Lawful)

include hlawful

variable {word : List Char}

/-- A link that is found begins with a scheme, and stands in the text without formatting. -/
theorem of_mem_found (hword : word ∈ reader.found text) :
    word <:+: reader.cleaned text ∧
      ∃ scheme rest, word = scheme ++ rest ∧ Spells reader.sameLetter scheme := by
  rw [found_eq_scan hlawful] at hword
  obtain ⟨before, after, htext, hnext⟩ :=
    of_mem_scan (fun _ _ => next_suffix hlawful) hword
  refine ⟨⟨before, after, by rw [htext, List.append_assoc]⟩, ?_⟩
  obtain ⟨rest, _, hscheme, _, _, hafter⟩ := next_eq_some hnext
  obtain ⟨scheme, hsplit, hspells⟩ := (dropScheme_eq_some_iff hlawful.colon).mp hscheme
  refine ⟨scheme, rest.takeWhile fun char => !reader.excludes char, ?_, hspells⟩
  rw [← List.takeWhile_append_dropWhile
    (p := fun char => !reader.excludes char) (l := rest), ← hafter,
    ← List.append_assoc] at hsplit
  exact List.append_cancel_right hsplit

theorem slash_not_trimmed : reader.trims '/' = false := by
  cases htrims : reader.trims '/' with
  | false => rfl
  | true => exact absurd (hlawful.trims '/' htrims) (by decide)

/-- What is left of a link that is found still begins with a scheme. -/
theorem spelled_of_mem_found (hword : word ∈ reader.found text) :
    ∃ scheme rest, word.rdropWhile reader.trims = scheme ++ rest ∧
      Spells reader.sameLetter scheme := by
  obtain ⟨_, scheme, rest, rfl, hspells⟩ := of_mem_found hlawful hword
  exact ⟨scheme, _, hspells.rdropWhile_append (slash_not_trimmed hlawful), hspells⟩

end Links

end JobApplyAgent.Ingestion
