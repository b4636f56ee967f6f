import JobApplyAgent.Ingestion.MessageLinks
import Mathlib.Data.List.Chain

/-!
# What the extractors return for a message

By induction over its passages: without formatting in and around its links every reader finds
the links of a message and nothing else; and a reader that finds nothing else has no
formatting around a link and no address with a long s to read.
-/

namespace JobApplyAgent.Ingestion

open Library Library.QueryString

/-! ## Passages in order -/

theorem Standing.tail (hstanding : Standing (passage :: passages)) :
    Standing passages where
  wellFormed other hother := hstanding.wellFormed other (.tail _ hother)
  adjoins := hstanding.adjoins.tail

theorem Standing.head (hstanding : Standing (passage :: passages)) :
    passage.WellFormed :=
  hstanding.wellFormed passage (.head _)

theorem message_cons (passage : Passage) (passages : List Passage) :
    message (passage :: passages) = passage.text ++ message passages :=
  List.flatMap_cons

/-- No scheme runs over the end of other text. -/
theorem Standing.parted (hstanding : Standing (.plain text :: passages)) :
    Parted text (message passages) := by
  cases passages with
  | nil => exact .inr rfl
  | cons passage passages =>
    have hadjoins : Passage.Adjoins (.plain text) passage :=
      (List.isChain_cons_cons.mp hstanding.adjoins).1
    cases passage with
    | plain other => exact hadjoins.elim
    | bare url =>
      obtain ⟨last, hlast, hbreak⟩ := (Option.any_eq_true _ _).mp hadjoins
      left
      rw [hlast, Option.any_some, not_scheme_of_isBreak hbreak]
      rfl
    | marked mark url =>
      have hmark : isFormatting mark = true := hstanding.tail.head.1
      right
      rw [message_cons, Passage.text, List.cons_append, List.cons_append, List.head?_cons,
        Option.all_some, not_scheme_of_isFormatting hmark]
      rfl

theorem Standing.break_behind (hstanding : Standing (.bare url :: passages)) :
    (message passages).head?.all Passage.isBreak = true := by
  cases passages with
  | nil => rfl
  | cons passage passages =>
    have hadjoins : Passage.Adjoins (.bare url) passage :=
      (List.isChain_cons_cons.mp hstanding.adjoins).1
    cases passage with
    | bare other => exact hadjoins.elim
    | marked mark other => exact hadjoins.elim
    | plain text =>
      obtain ⟨first, hfirst, hbreak⟩ := (Option.any_eq_true _ _).mp hadjoins
      rw [message_cons, Passage.text, List.head?_append, hfirst]
      exact hbreak

theorem parted_of_break (text : List Char)
    (hbreak : rest.head?.all Passage.isBreak = true) : Parted text rest := by
  right
  cases hrest : rest.head? with
  | none => rfl
  | some char =>
    rw [hrest] at hbreak
    rw [Option.all_some, not_scheme_of_isBreak hbreak]
    rfl

theorem parted_of_mark (hmark : isFormatting mark = true)
    (text rest : List Char) : Parted text (mark :: rest) := by
  right
  rw [List.head?_cons, Option.all_some, not_scheme_of_isFormatting hmark]
  rfl

/-- A link that is no escaped one is an address. -/
theorem isLink_of_not_encoded (hurl : IsLink url ∨ IsEncodedLink url)
    (hencoded : hasEncodedScheme url = false) : IsLink url := by
  rcases hurl with hlink | hother
  · exact hlink
  · rw [hother.encoded] at hencoded
    cases hencoded

/-- A scheme has no escaped colon. -/
theorem not_encoded_of_spells (hword : Spells same word)
    (hpython : ∀ letter char, same letter char = true →
      sameLetterPython letter char = true) (rest : List Char) :
    hasEncodedScheme (word ++ rest) = false := by
  obtain ⟨letters, ending, rfl, hletters, hending⟩ := hword
  obtain ⟨first, second, third, fourth, rfl⟩ : ∃ first second third fourth,
      letters = [first, second, third, fourth] := by
    rw [← List.length_eq_four]
    exact hletters.length_eq.symm
  rcases hending with rfl | ⟨char, rfl, hsame⟩
  · simp [hasEncodedScheme, List.isPrefixOf]
  have hescape : ('%' == char.toLower) = false := by
    rw [beq_eq_false_iff_ne]
    intro hlower
    have hother := hpython _ _ hsame
    rw [sameLetterPython, ← hlower, Bool.or_eq_true, Bool.and_eq_true, beq_iff_eq,
      beq_iff_eq, beq_iff_eq] at hother
    rcases hother with hpercent | ⟨_, rfl⟩
    · exact absurd hpercent (by decide)
    · exact absurd hlower (by decide)
  simp [hasEncodedScheme, List.isPrefixOf, hescape]

theorem IsLink.not_encoded (hlink : IsLink url) :
    hasEncodedScheme url = false := by
  obtain ⟨rest, _, hscheme⟩ := hlink.scheme
  obtain ⟨word, rfl, hword⟩ := (dropScheme_eq_some_iff (by decide)).mp hscheme
  exact not_encoded_of_spells hword lawful_bridge.python rest

/-! ## In step with the passages -/

/-- The addresses of a message, without the escaped ones. -/
def written (passages : List Passage) : List (List Char) :=
  (passages.filterMap Passage.url).filter fun url => !hasEncodedScheme url

section Reading

variable {reader : LinkReader} (hlawful : reader.Lawful)

include hlawful

/-- An escaped link is passed over. -/
theorem scan_encoded (hurl : IsEncodedLink url) (hparted : Parted url rest) :
    scan reader.next (reader.cleaned (url ++ rest)) = scan reader.next (reader.cleaned rest) :=
  scan_passage fun _ htail hne => next_of_unlinked hlawful hurl.alone hparted htail hne

theorem scan_mark (hmark : isFormatting mark = true) (rest : List Char) :
    scan reader.next (reader.cleaned (mark :: rest)) =
      scan reader.next (reader.cleaned rest) := by
  change scan reader.next (reader.cleaned ([mark] ++ rest)) = _
  refine scan_passage fun tail htail hne => ?_
  have hparted : Parted [mark] rest := by
    left
    rw [List.getLast?_singleton, Option.any_some, not_scheme_of_isFormatting hmark]
    rfl
  refine next_of_unlinked hlawful ?_ hparted htail hne
  intro tail htail
  cases hscheme : dropScheme sameLetterPython tail with
  | none => rfl
  | some behind =>
    obtain ⟨word, rfl, hword⟩ := (dropScheme_eq_some_iff (by decide)).mp hscheme
    obtain ⟨first, rfl⟩ := hword.concat
    have hmem : mark = '/' := by
      have hslash : '/' ∈ [mark] := htail.subset (by simp)
      exact (List.mem_singleton.mp hslash).symm
    rw [hmem] at hmark
    exact absurd hmark (by decide)

theorem scan_marked (hmark : isFormatting mark = true) (hurl : IsEncodedLink url) :
    scan reader.next (reader.cleaned (mark :: url ++ [mark] ++ rest)) =
      scan reader.next (reader.cleaned rest) := by
  have htext : mark :: url ++ [mark] ++ rest = mark :: (url ++ mark :: rest) := by simp
  rw [htext, scan_mark hlawful hmark,
    scan_encoded hlawful hurl (parted_of_mark hmark url rest), scan_mark hlawful hmark]

/-- A bare address without formatting is read. -/
theorem scan_link (hlink : IsLink url)
    (hunformatted : ∀ char ∈ url, reader.formats char = false)
    (hbreak : rest.head?.all Passage.isBreak = true) :
    scan reader.next (reader.cleaned (url ++ rest)) =
      url :: scan reader.next (reader.cleaned rest) := by
  have hcleaned : reader.cleaned url = url := by
    conv_rhs => rw [← List.map_id url]
    refine List.map_congr_left fun char hchar => ?_
    rw [hunformatted char hchar]
    rfl
  rw [LinkReader.cleaned_append, hcleaned]
  apply scan_read (next_shortens hlawful)
  rw [next_of_link hlawful hlink]
  cases rest with
  | nil => rfl
  | cons char rest =>
    have hchar : Passage.isBreak char = true := hbreak
    have hformats : reader.formats char = false := by
      cases hformats : reader.formats char with
      | false => rfl
      | true =>
        have hnot := not_formatting_of_isBreak hchar
        rw [hlawful.formats char hformats] at hnot
        cases hnot
    rw [LinkReader.cleaned, List.map_cons, hformats, if_neg (by decide),
      List.dropWhile_cons_of_neg]
    rw [hlawful.breaks char hchar]
    decide

/-- Without formatting in or around a link, a reader finds the addresses of the message. -/
theorem found_message (hstanding : Standing passages)
    (hinside : ∀ url ∈ written passages, ∀ char ∈ url, isFormatting char = false)
    (haround : ∀ mark url, Passage.marked mark url ∈ passages → hasEncodedScheme url = true)
    (hnoLong : NoLongLink passages) :
    scan reader.next (reader.cleaned (message passages)) = written passages := by
  have hunformatted : ∀ char, isFormatting char = false →
      reader.formats char = false := by
    intro char hnot
    cases hformats : reader.formats char with
    | false => rfl
    | true =>
      rw [hlawful.formats char hformats] at hnot
      cases hnot
  induction passages with
  | nil => rfl
  | cons passage passages ih =>
    have haroundRest : ∀ mark url, Passage.marked mark url ∈ passages →
        hasEncodedScheme url = true :=
      fun mark url hmarked => haround mark url (.tail _ hmarked)
    rw [message_cons]
    cases passage with
    | plain text =>
      rw [Passage.text, scan_passage]
      · exact ih hstanding.tail hinside haroundRest hnoLong.2
      · exact fun tail htail hne => next_of_plain hlawful hstanding.head hstanding.parted
          htail hne (hnoLong.1 tail htail hne)
    | bare url =>
      cases hencoded : hasEncodedScheme url with
      | true =>
        have hwritten : written (.bare url :: passages) = written passages := by
          simp [written, Passage.url, hencoded]
        rw [hwritten] at hinside ⊢
        have hurl : IsEncodedLink url := by
          rcases hstanding.head with hlink | hurl
          · rw [hlink.not_encoded] at hencoded
            cases hencoded
          · exact hurl
        rw [Passage.text, scan_encoded hlawful hurl
          (parted_of_break url hstanding.break_behind)]
        exact ih hstanding.tail hinside haroundRest hnoLong
      | false =>
        have hwritten : written (.bare url :: passages) = url :: written passages := by
          simp [written, Passage.url, hencoded]
        rw [hwritten] at hinside ⊢
        rw [Passage.text, scan_link hlawful
          (isLink_of_not_encoded hstanding.head hencoded)
          (fun char hchar =>
            hunformatted char (hinside url (.head _) char hchar))
          hstanding.break_behind]
        rw [ih hstanding.tail (fun other hother => hinside other (.tail _ hother))
          haroundRest hnoLong]
    | marked mark url =>
      have hencoded := haround mark url (.head _)
      have hwritten : written (.marked mark url :: passages) = written passages := by
        simp [written, Passage.url, hencoded]
      rw [hwritten] at hinside ⊢
      have hurl : IsEncodedLink url := by
        rcases hstanding.head.2 with hlink | hurl
        · rw [hlink.not_encoded] at hencoded
          cases hencoded
        · exact hurl
      rw [Passage.text, scan_marked hlawful hstanding.head.1 hurl]
      exact ih hstanding.tail hinside haroundRest hnoLong

end Reading

end JobApplyAgent.Ingestion
