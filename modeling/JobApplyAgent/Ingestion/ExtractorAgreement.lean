import JobApplyAgent.Ingestion.MessageExtraction
import Mathlib.Data.List.Infix

/-!
# One list through every door

The extractors return the links of a message exactly when nothing in it is formatted.  One
direction reads the message in step with its passages; in the other, a formatted link or an
address with a long s is something that one extractor returns and another cannot.
-/

namespace JobApplyAgent.Ingestion

open Library Library.QueryString

/-! ## What is returned -/

variable {reader : LinkReader}

theorem found_nil (hlawful : reader.Lawful) : reader.found [] = [] :=
  found_eq_scan hlawful []

theorem extractUrls_eq (text : List Char) :
    extractUrls text =
      distinctLinks ((urlUtilsReader.found text).map fun raw => decodeIfEncoded
        (cleanUrl raw)) := by
  rw [extractUrls]
  split
  · next hempty =>
    rw [List.isEmpty_iff.mp hempty, found_nil lawful_urlUtils]
    rfl
  · rfl

theorem webhookExtractUrls_eq (text : List Char) :
    webhookExtractUrls text =
      distinctLinks ((webhookReader.found text).map fun raw => raw.rdropWhile
        webhookReader.trims) := by
  rw [webhookExtractUrls]
  split
  · next hempty =>
    rw [List.isEmpty_iff.mp hempty, found_nil lawful_webhook]
    rfl
  · rfl

theorem bridgeExtractUrls_eq (text : List Char) :
    bridgeExtractUrls text =
      distinctLinks ((bridgeReader.found text).map fun raw => raw.rdropWhile
        bridgeReader.trims) := by
  rw [bridgeExtractUrls]
  split
  · next hempty =>
    rw [List.isEmpty_iff.mp hempty, found_nil lawful_bridge]
    rfl
  · rfl

theorem mem_distinctLinks :
    link ∈ distinctLinks links ↔ link ∈ links ∧ link ≠ [] := by
  rw [distinctLinks, List.mem_eraseDups, List.mem_filter]
  simp

theorem distinctLinks_of_ne_nil (hlinks : ∀ link ∈ links, link ≠ []) :
    distinctLinks links = links.eraseDups := by
  rw [distinctLinks, List.filter_eq_self.mpr]
  intro link hlink
  simpa using hlinks link hlink

variable {url text : List Char}

theorem IsLink.ne_nil (hlink : IsLink url) : url ≠ [] := by
  rintro rfl
  obtain ⟨rest, _, hscheme⟩ := hlink.scheme
  cases hscheme

theorem IsLink.trimmed (hlawful : reader.Lawful) (hlink : IsLink url) :
    url.rdropWhile reader.trims = url :=
  rdropWhile_eq_of_ending fun char hlast => by
    cases htrims : reader.trims char with
    | false => rfl
    | true =>
      have hending := hlink.ending char hlast
      rw [hlawful.trims char htrims] at hending
      cases hending

theorem IsLink.clean (hlink : IsLink url) : cleanUrl url = url := by
  have htrimmed : url.rdropWhile urlUtilsReader.trims = url := hlink.trimmed lawful_urlUtils
  rw [cleanUrl, htrimmed]
  refine rdropWhile_eq_of_ending fun char hlast => ?_
  have hchar := hlink.characters char (List.mem_of_getLast? hlast)
  cases hzero : ['\u200b', '\u200c', '\u200d'].contains char with
  | false => rfl
  | true =>
    have hwidth : zeroWidth.contains char = true :=
      List.contains_iff_mem.mpr (List.mem_append_left ['\ufeff'] (List.contains_iff_mem.mp hzero))
    rw [isLinkCharacter, hwidth] at hchar
    simp at hchar

theorem IsLink.decoded (hlink : IsLink url) : decodeIfEncoded url = url := by
  rw [decodeIfEncoded, hlink.not_encoded]
  rfl

theorem isLink_of_mem_written (hstanding : Standing passages) (hurl : url ∈ written passages) :
    IsLink url := by
  obtain ⟨hmem, hencoded⟩ := List.mem_filter.mp hurl
  obtain ⟨passage, hpassage, hpassageUrl⟩ := List.mem_filterMap.mp hmem
  have hwellFormed := hstanding.wellFormed passage hpassage
  rw [Bool.not_eq_true'] at hencoded
  cases passage with
  | plain text => cases hpassageUrl
  | bare other =>
    cases hpassageUrl
    exact isLink_of_not_encoded hwellFormed hencoded
  | marked mark other =>
    cases hpassageUrl
    exact isLink_of_not_encoded hwellFormed.2 hencoded

theorem linksOf_written (hstanding : Standing passages) :
    linksOf (passages.filter fun passage => !passage.url.any hasEncodedScheme) =
      (written passages).eraseDups := by
  have hurls : (passages.filter fun passage => !passage.url.any hasEncodedScheme).filterMap
      Passage.url = written passages := by
    rw [written, List.filterMap_filter, List.filter_filterMap]
    refine List.filterMap_congr fun passage _ => ?_
    cases hurl : passage.url with
    | none => simp
    | some url => cases hencoded : hasEncodedScheme url <;> simp [hencoded, Option.filter]
  rw [linksOf, hurls]
  have hsame : (written passages).map decodeIfEncoded = written passages := by
    conv_rhs => rw [← List.map_id (written passages)]
    exact List.map_congr_left fun url hurl => (isLink_of_mem_written hstanding hurl).decoded
  rw [hsame]

section Returned

variable (hstanding : Standing passages)
  (hinside : ∀ url ∈ written passages, ∀ char ∈ url, isFormatting char = false)
  (haround : ∀ mark url, Passage.marked mark url ∈ passages → hasEncodedScheme url = true)
  (hnoLong : NoLongLink passages)

include hstanding hinside haround hnoLong

theorem returned_of_unformatted (hlawful : reader.Lawful)
    (take : List Char → List Char) (htake : ∀ url, IsLink url → take url = url) :
    distinctLinks ((reader.found (message passages)).map take) = (written passages).eraseDups := by
  have hlinks : ∀ url ∈ written passages, IsLink url :=
    fun url hurl => isLink_of_mem_written hstanding hurl
  have hsame : (written passages).map take = written passages := by
    conv_rhs => rw [← List.map_id (written passages)]
    exact List.map_congr_left fun url hurl => htake url (hlinks url hurl)
  rw [found_eq_scan hlawful, found_message hlawful hstanding hinside haround hnoLong, hsame,
    distinctLinks_of_ne_nil fun url hurl => (hlinks url hurl).ne_nil]

theorem extractUrls_message : extractUrls (message passages) = (written passages).eraseDups := by
  rw [extractUrls_eq]
  refine returned_of_unformatted hstanding hinside haround hnoLong lawful_urlUtils _ ?_
  intro url hlink
  rw [hlink.clean, hlink.decoded]

theorem webhookExtractUrls_message :
    webhookExtractUrls (message passages) = (written passages).eraseDups := by
  rw [webhookExtractUrls_eq]
  exact returned_of_unformatted hstanding hinside haround hnoLong lawful_webhook _
    fun _ hlink => hlink.trimmed lawful_webhook

theorem bridgeExtractUrls_message :
    bridgeExtractUrls (message passages) = (written passages).eraseDups := by
  rw [bridgeExtractUrls_eq]
  exact returned_of_unformatted hstanding hinside haround hnoLong lawful_bridge _
    fun _ hlink => hlink.trimmed lawful_bridge

end Returned

/-! ## What can be returned -/

/-- No extracted link has a formatting mark. -/
theorem not_formatting_of_mem_extractUrls (hurl : url ∈ extractUrls text) :
    ∀ char ∈ url, isFormatting char = false := by
  rw [extractUrls_eq, mem_distinctLinks, List.mem_map] at hurl
  obtain ⟨⟨raw, hraw, rfl⟩, _⟩ := hurl
  obtain ⟨hwithin, scheme, rest, rfl, hspells⟩ := of_mem_found lawful_urlUtils hraw
  have hfront : (scheme ++ rest).rdropWhile urlUtilsReader.trims =
      scheme ++ rest.rdropWhile urlUtilsReader.trims := hspells.rdropWhile_append (by decide)
  have hclean : cleanUrl (scheme ++ rest) = scheme ++
      (rest.rdropWhile urlUtilsReader.trims).rdropWhile fun char =>
        ['\u200b', '\u200c', '\u200d'].contains char := by
    rw [cleanUrl, hfront]
    exact hspells.rdropWhile_append (by decide)
  have hdecoded : decodeIfEncoded (cleanUrl (scheme ++ rest)) = cleanUrl (scheme ++ rest) := by
    rw [decodeIfEncoded, hclean, not_encoded_of_spells hspells lawful_urlUtils.python]
    rfl
  rw [hdecoded]
  intro char hchar
  have hbegins : cleanUrl (scheme ++ rest) <+: scheme ++ rest :=
    (List.rdropWhile_prefix _ _).trans (List.rdropWhile_prefix _ _)
  have hmem := (hbegins.isInfix.trans hwithin).subset hchar
  obtain ⟨original, _, horiginal⟩ := List.mem_map.mp hmem
  rw [← horiginal]
  split
  · decide
  · next hformats => exact Bool.eq_false_iff.mpr hformats

theorem scheme_of_mem_bridgeExtractUrls (hurl : url ∈ bridgeExtractUrls text) :
    ∃ scheme rest, url = scheme ++ rest ∧ Spells sameLetterScript scheme := by
  rw [bridgeExtractUrls_eq, mem_distinctLinks, List.mem_map] at hurl
  obtain ⟨⟨raw, hraw, rfl⟩, _⟩ := hurl
  exact spelled_of_mem_found lawful_bridge hraw

/-- What all extractors may return: no formatting, and no long s in the scheme. -/
structure Clean (url : List Char) : Prop where
  unformatted : ∀ character ∈ url, isFormatting character = false
  scheme : ∃ scheme rest, url = scheme ++ rest ∧ Spells sameLetterScript scheme

/-! ## What the webhook reads -/

def ReadsClean (text : List Char) : Prop :=
  ∀ word ∈ scan webhookReader.next text, Clean (word.rdropWhile webhookReader.trims)

theorem webhookReader_cleaned (text : List Char) : webhookReader.cleaned text = text := by
  rw [LinkReader.cleaned]
  exact List.map_id text

theorem scan_webhook (hnext : webhookReader.next text = some after) :
    ∃ word, text = word ++ after ∧
      scan webhookReader.next text = word :: scan webhookReader.next after := by
  obtain ⟨word, rfl⟩ := next_suffix lawful_webhook hnext
  exact ⟨word, rfl, scan_read (next_shortens lawful_webhook) hnext⟩

theorem not_beginsLongLink_of_readsClean (hclean : ReadsClean text) :
    beginsLongLink text = false := by
  cases hlong : beginsLongLink text with
  | false => rfl
  | true =>
    rw [beginsLongLink, Bool.and_eq_true, Option.isNone_iff_eq_none] at hlong
    obtain ⟨hnone, hany⟩ := hlong
    obtain ⟨rest, hscheme, hhead⟩ := (Option.any_eq_true _ _).mp hany
    have hnext : webhookReader.next text = some (rest.dropWhile fun char =>
        !webhookReader.excludes char) := by
      rw [LinkReader.next, show webhookReader.sameLetter = sameLetterPython from rfl, hscheme,
        Option.bind_some, if_pos hhead]
    obtain ⟨word, htext, hscan⟩ := scan_webhook hnext
    have hword : Clean (word.rdropWhile webhookReader.trims) :=
      hclean word (by rw [hscan]; exact .head _)
    obtain ⟨scheme, behind, hspelled, hspells⟩ := hword.scheme
    obtain ⟨cut, hcut⟩ := List.rdropWhile_prefix webhookReader.trims word
    have hscript : dropScheme sameLetterScript text = some (behind ++ cut ++
        rest.dropWhile fun char => !webhookReader.excludes char) :=
      (dropScheme_eq_some_iff (by decide)).mpr ⟨scheme, by
        rw [htext, ← hcut, hspelled]
        simp only [List.append_assoc], hspells⟩
    rw [hnone] at hscript
    cases hscript

theorem Passage.IsPlain.suffix {tail : List Char} (hplain : Passage.IsPlain text)
    (htail : tail <:+ text) : Passage.IsPlain tail where
  unlinked other hother := hplain.unlinked other (hother.trans htail)
  unencoded other hother := hplain.unencoded other (hother.trans htail)

/-- Over other text the webhook reads on, and no address with a long s begins in it. -/
theorem ReadsClean.plain (hplain : Passage.IsPlain text) (hparted : Parted text rest)
    (hclean : ReadsClean (text ++ rest)) :
    (∀ tail, tail <:+ text → tail ≠ [] → beginsLongLink (tail ++ rest) = false) ∧
      ReadsClean rest := by
  induction text with
  | nil =>
    refine ⟨fun tail htail hne => ?_, hclean⟩
    exact absurd (List.suffix_nil.mp htail) hne
  | cons char text ih =>
    have hlong := not_beginsLongLink_of_readsClean hclean
    have hnone : webhookReader.next (char :: text ++ rest) = none := by
      have hnext := next_of_plain lawful_webhook hplain hparted List.suffix_rfl
        (List.cons_ne_nil _ _) hlong
      rwa [webhookReader_cleaned] at hnext
    rw [List.cons_append] at hnone
    have hbehind : ReadsClean (text ++ rest) := by
      rw [ReadsClean, List.cons_append, scan_skip hnone] at hclean
      exact hclean
    cases text with
    | nil =>
      refine ⟨fun tail htail hne => ?_, hbehind⟩
      rcases List.suffix_cons_iff.mp htail with rfl | hlater
      · exact hlong
      · exact absurd (List.suffix_nil.mp hlater) hne
    | cons other text =>
      obtain ⟨hlater, hrest⟩ := ih (hplain.suffix (List.suffix_cons _ _))
        (hparted.suffix (List.suffix_cons _ _) (List.cons_ne_nil _ _)) hbehind
      refine ⟨fun tail htail hne => ?_, hrest⟩
      rcases List.suffix_cons_iff.mp htail with rfl | htail
      · exact hlong
      · exact hlater tail htail hne

/-- A link between two formatting marks is not read clean. -/
theorem not_readsClean_of_marked {mark : Char} (hmark : isFormatting mark = true)
    (hlink : IsLink url) :
    ¬ ReadsClean (mark :: url ++ [mark] ++ rest) := by
  intro hclean
  have haccepts : (!webhookReader.excludes mark) = true := by
    rcases isFormatting_cases hmark with rfl | rfl | rfl | rfl <;> decide
  have htrims : webhookReader.trims mark = false := by
    rcases isFormatting_cases hmark with rfl | rfl | rfl | rfl <;> decide
  have htext : mark :: url ++ [mark] ++ rest = mark :: (url ++ mark :: rest) := by simp
  have hskip := scan_mark lawful_webhook hmark (url ++ mark :: rest)
  rw [webhookReader_cleaned, webhookReader_cleaned] at hskip
  have hnext := @next_of_link _ lawful_webhook url (mark :: rest) hlink
  rw [List.dropWhile_cons_of_pos (p := fun char => !webhookReader.excludes char)
    haccepts] at hnext
  obtain ⟨word, hword, hscan⟩ := scan_webhook hnext
  have hread : word = url ++ [mark] ++
      rest.takeWhile fun char => !webhookReader.excludes char := by
    refine List.append_cancel_right (hword.symm.trans ?_)
    rw [List.append_assoc, List.takeWhile_append_dropWhile]
    simp
  have hfirst : Clean (word.rdropWhile webhookReader.trims) :=
    hclean word (by rw [htext, hskip, hscan]; exact .head _)
  rw [hread, rdropWhile_append_of_concat htrims] at hfirst
  have hnot := hfirst.unformatted mark (by simp)
  rw [hmark] at hnot
  cases hnot

/-- What the webhook can read without returning anything else has no formatting around its
addresses and none of them with a long s. -/
theorem around_of_readsClean (hstanding : Standing passages)
    (hclean : ReadsClean (message passages)) :
    (∀ mark url, Passage.marked mark url ∈ passages → hasEncodedScheme url = true) ∧
      NoLongLink passages := by
  induction passages with
  | nil =>
    refine ⟨fun mark url hmarked => ?_, trivial⟩
    cases hmarked
  | cons passage passages ih =>
    rw [message_cons] at hclean
    have hpass : ∀ text, scan webhookReader.next (webhookReader.cleaned
        (text ++ message passages)) = scan webhookReader.next (webhookReader.cleaned
        (message passages)) → ReadsClean (text ++ message passages) →
        ReadsClean (message passages) := by
      intro text hskip hreads
      rw [webhookReader_cleaned, webhookReader_cleaned] at hskip
      rwa [ReadsClean, hskip] at hreads
    cases passage with
    | plain text =>
      obtain ⟨hlong, hrest⟩ := ReadsClean.plain hstanding.head hstanding.parted hclean
      obtain ⟨haround, hnoLong⟩ := ih hstanding.tail hrest
      refine ⟨fun mark url hmarked => ?_, hlong, hnoLong⟩
      exact haround mark url (by simpa using hmarked)
    | bare url =>
      have hrest : ReadsClean (message passages) := by
        rcases hstanding.head with hlink | hurl
        · have hread := scan_link lawful_webhook hlink (fun _ _ => rfl) hstanding.break_behind
          rw [webhookReader_cleaned, webhookReader_cleaned] at hread
          rw [Passage.text, ReadsClean, hread] at hclean
          exact fun word hword => hclean word (.tail _ hword)
        · exact hpass url (scan_encoded lawful_webhook hurl
            (parted_of_break url hstanding.break_behind)) hclean
      obtain ⟨haround, hnoLong⟩ := ih hstanding.tail hrest
      refine ⟨fun mark other hmarked => ?_, hnoLong⟩
      exact haround mark other (by simpa using hmarked)
    | marked mark url =>
      obtain ⟨hmark, hlink | hurl⟩ := hstanding.head
      · exact absurd hclean (not_readsClean_of_marked hmark hlink)
      have hrest := hpass _ (scan_marked lawful_webhook hmark hurl) hclean
      obtain ⟨haround, hnoLong⟩ := ih hstanding.tail hrest
      refine ⟨fun other url hmarked => ?_, hnoLong⟩
      rcases List.mem_cons.mp hmarked with hhere | hlater
      · cases hhere
        exact hurl.encoded
      · exact haround other url hlater

/-! ## Where the extractors agree -/

theorem mem_linksOf (hurl : url ∈ passages.filterMap Passage.url) :
    decodeIfEncoded url ∈ linksOf passages := by
  rw [linksOf, List.mem_eraseDups]
  exact List.mem_map_of_mem hurl

/-- A message whose links are all extracted is read clean. -/
theorem readsClean_of_extractsAll (hall : ExtractsAll passages) :
    ReadsClean (message passages) := by
  intro word hword
  have hfound : word ∈ webhookReader.found (message passages) := by
    rw [found_eq_scan lawful_webhook, webhookReader_cleaned]
    exact hword
  have hne : word.rdropWhile webhookReader.trims ≠ [] := by
    obtain ⟨scheme, rest, htrimmed, hspells⟩ := spelled_of_mem_found lawful_webhook hfound
    obtain ⟨first, rfl⟩ := hspells.concat
    rw [htrimmed]
    simp
  have hreturned : word.rdropWhile webhookReader.trims ∈ webhookExtractUrls (message passages) := by
    rw [webhookExtractUrls_eq, mem_distinctLinks]
    exact ⟨List.mem_map_of_mem hfound, hne⟩
  rw [hall.received] at hreturned
  refine ⟨not_formatting_of_mem_extractUrls hreturned, ?_⟩
  rw [← hall.bridged] at hreturned
  exact scheme_of_mem_bridgeExtractUrls hreturned

/-- The three extractors find exactly the links of a message just where it has no formatting. -/
theorem extractsAll_iff_unformatted {passages : List Passage} (hstanding : Standing passages) :
    ExtractsAll passages ↔ Unformatted passages := by
  constructor
  · intro hall
    obtain ⟨haround, hnoLong⟩ := around_of_readsClean hstanding (readsClean_of_extractsAll hall)
    have hinside : ∀ url ∈ passages.filterMap Passage.url, hasEncodedScheme url = false →
        ∀ character ∈ url, isFormatting character = false := by
      intro url hurl hencoded
      have hlink := mem_linksOf hurl
      rw [decodeIfEncoded, hencoded, if_neg (by decide), ← hall.ingested] at hlink
      exact not_formatting_of_mem_extractUrls hlink
    refine ⟨hinside, haround, ?_, hnoLong⟩
    rw [linksOf_written hstanding, ← hall.ingested]
    refine extractUrls_message hstanding (fun url hurl => ?_) haround hnoLong
    obtain ⟨hmem, hencoded⟩ := List.mem_filter.mp hurl
    exact hinside url hmem (by simpa using hencoded)
  · intro hunformatted
    have hinside : ∀ url ∈ written passages, ∀ character ∈ url,
        isFormatting character = false := by
      intro url hurl
      obtain ⟨hmem, hencoded⟩ := List.mem_filter.mp hurl
      exact hunformatted.inside url hmem (by simpa using hencoded)
    have hextracted := extractUrls_message hstanding hinside hunformatted.around
      hunformatted.noLong
    refine ⟨?_, ?_, ?_⟩
    · rw [hextracted, hunformatted.decoded, linksOf_written hstanding]
    · rw [hextracted, bridgeExtractUrls_message hstanding hinside hunformatted.around
        hunformatted.noLong]
    · rw [hextracted, webhookExtractUrls_message hstanding hinside hunformatted.around
        hunformatted.noLong]

/-! ## A message -/

theorem isPlain_of_tails
    (hunlinked : (text.tails.all fun tail => (dropScheme sameLetterScript tail).isNone) = true)
    (hunencoded : (text.tails.all fun tail => !hasEncodedScheme tail) = true) :
    Passage.IsPlain text where
  unlinked tail htail :=
    Option.isNone_iff_eq_none.mp (List.all_eq_true.mp hunlinked tail
      ((List.mem_tails _ _).mpr htail))
  unencoded tail htail := by
    simpa using List.all_eq_true.mp hunencoded tail ((List.mem_tails _ _).mpr htail)

theorem isLink_of_scheme (hcharacters : url.all isLinkCharacter = true)
    (hending : url.getLast?.all (fun char => !urlUtilsReader.trims char) = true)
    (hrest : rest ≠ []) (hscheme : dropScheme sameLetterScript url = some rest) : IsLink url where
  characters := List.all_eq_true.mp hcharacters
  ending char hlast := by
    rw [hlast] at hending
    simpa using hending
  scheme := ⟨rest, hrest, hscheme⟩

def postingMessage : List Passage :=
  [.plain "Apply: ".toList, .bare "https://x.y/a".toList]

theorem standing_postingMessage : Standing postingMessage where
  wellFormed passage hpassage := by
    simp only [postingMessage, List.mem_cons, List.not_mem_nil, or_false] at hpassage
    rcases hpassage with rfl | rfl
    · exact isPlain_of_tails (by decide) (by decide)
    · exact .inl (@isLink_of_scheme _ "x.y/a".toList (by decide) (by decide) (by decide)
        (by decide))
  adjoins := by
    refine .cons_cons ?_ (.singleton _)
    exact (by decide : "Apply: ".toList.getLast?.any Passage.isBreak = true)

theorem extractsAll_iff_unformatted_postingMessage :
    ExtractsAll postingMessage ↔ Unformatted postingMessage :=
  extractsAll_iff_unformatted standing_postingMessage

def underscoreMessage : List Passage :=
  [.bare "https://x.y/a_b".toList]

/-- A link is cut at its underscore. -/
theorem underscoreMessage_cut :
    Standing underscoreMessage ∧
      extractUrls (message underscoreMessage) = ["https://x.y/a".toList] ∧
      ¬ ExtractsAll underscoreMessage := by
  have hcut : extractUrls (message underscoreMessage) = ["https://x.y/a".toList] := by
    rw [extractUrls_eq, found_eq_scan lawful_urlUtils]
    decide
  refine ⟨⟨fun passage hpassage => ?_, .singleton _⟩, hcut, fun hall => ?_⟩
  · rw [List.mem_singleton.mp hpassage]
    exact .inl (@isLink_of_scheme _ "x.y/a_b".toList (by decide) (by decide) (by decide)
      (by decide))
  · have hwhole := hall.ingested
    rw [hcut] at hwhole
    exact absurd hwhole (by decide)

end JobApplyAgent.Ingestion
