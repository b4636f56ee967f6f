import JobApplyAgent.Library.Regex
import JobApplyAgent.Library.Text

/-!
# Blanks

Runs of blanks made one space.  A part of a text without blanks at its ends is
found, in this form, in the same form of the whole text; and a text in this form that
is cut at the blanks behind some marks is made of its pieces and of single spaces.
-/

namespace JobApplyAgent.Library

open Regex

/-- Every run of blanks is one space. -/
def collapse (isBlank : Char → Bool) : List Char → List Char
  | [] => []
  | character :: rest =>
    if isBlank character then ' ' :: collapse isBlank (rest.dropWhile isBlank)
    else character :: collapse isBlank rest
  termination_by text => text.length
  decreasing_by
    · simp only [List.length_cons]
      have hshorter := (List.dropWhile_sublist (p := isBlank) (l := rest)).length_le
      omega
    · simp

@[simp]
theorem collapse_nil (isBlank : Char → Bool) : collapse isBlank [] = [] := by
  rw [collapse]

theorem collapse_cons_blank (rest : List Char) (hblank : isBlank character = true) :
    collapse isBlank (character :: rest) =
      ' ' :: collapse isBlank (rest.dropWhile isBlank) := by
  rw [collapse, if_pos hblank]

theorem collapse_cons_ink (rest : List Char) (hink : isBlank character = false) :
    collapse isBlank (character :: rest) = character :: collapse isBlank rest := by
  rw [collapse, if_neg (by simp [hink])]

section Substitution

variable {accepts : Char → Bool}

/-- The first end of a greedy repetition of a set is behind all its characters. -/
theorem greedy_char_head (before text : List Char) (least : ℕ) (hfuel : text.length ≤ fuel)
    (hleast : least ≤ (text.takeWhile accepts).length) :
    ∃ next later, greedy (char accepts).ends fuel least ⟨before, text⟩ = next :: later ∧
      next.after = text.dropWhile accepts := by
  induction text generalizing before fuel least with
  | nil =>
    have hzero : least = 0 := Nat.le_zero.mp hleast
    cases fuel <;> exact ⟨⟨before, []⟩, [], by simp [greedy, ends_char, hzero], rfl⟩
  | cons character rest ih =>
    cases fuel with
    | zero => cases hfuel
    | succ fuel =>
      cases haccepts : accepts character with
      | true =>
        rw [List.takeWhile_cons_of_pos haccepts, List.length_cons] at hleast
        obtain ⟨next, later, hgreedy, hafter⟩ :=
          ih (character :: before) (least - 1) (Nat.le_of_succ_le_succ hfuel) (by omega)
        refine ⟨next, later ++ if least = 0 then [⟨before, character :: rest⟩] else [],
          ?_, ?_⟩
        · simp [greedy, ends_char, haccepts, hgreedy]
        · rw [hafter, List.dropWhile_cons_of_pos haccepts]
      | false =>
        rw [List.takeWhile_cons_of_neg (by simp [haccepts])] at hleast
        have hzero : least = 0 := Nat.le_zero.mp hleast
        refine ⟨⟨before, character :: rest⟩, [], ?_, ?_⟩
        · simp [greedy, ends_char, haccepts, hzero]
        · rw [List.dropWhile_cons_of_neg (by simp [haccepts])]

theorem ends_many1_head (before rest : List Char)
    (haccepts : accepts character = true) :
    ∃ next later, (many1 (char accepts)).ends ⟨before, character :: rest⟩ = next :: later ∧
      next.after = rest.dropWhile accepts := by
  simp only [many1, ends, Option.getD_none, Nat.min_self]
  obtain ⟨next, later, hgreedy, hafter⟩ :=
    greedy_char_head before (character :: rest) 1 (Nat.le_refl _)
      (by rw [List.takeWhile_cons_of_pos haccepts]; simp)
  exact ⟨next, later, hgreedy, hafter.trans (List.dropWhile_cons_of_pos haccepts)⟩

variable {read : List Char}

theorem splitFrom_ne_nil :
    splitFrom regex fuel read place ≠ [] := by
  induction fuel generalizing read place with
  | zero => simp [splitFrom]
  | succ fuel ih =>
    rw [splitFrom]
    split
    · simp
    split
    · simp
    · exact ih

theorem intercalate_splitFrom_many1 (hfuel : place.after.length ≤ fuel) :
    [' '].intercalate (splitFrom (many1 (char accepts)) fuel read place) =
      read.reverse ++ collapse accepts place.after := by
  induction fuel generalizing read place with
  | zero =>
    rw [splitFrom, List.length_eq_zero_iff.mp (Nat.le_zero.mp hfuel), collapse]
    simp
  | succ fuel ih =>
    obtain ⟨before, after⟩ := place
    cases after with
    | nil =>
      rw [splitFrom, ends_many1_eq_nil_iff.mpr (by simp), collapse]
      simp
    | cons character rest =>
      rw [splitFrom, collapse]
      cases haccepts : accepts character with
      | true =>
        obtain ⟨next, later, hends, hafter⟩ :=
          ends_many1_head before rest haccepts
        have hshorter := (List.dropWhile_sublist (p := accepts) (l := rest)).length_le
        have hlength : next.after.length ≤ fuel := by
          rw [hafter]
          exact hshorter.trans (Nat.le_of_succ_le_succ hfuel)
        simp only [hends]
        rw [List.intercalate_cons_of_ne_nil splitFrom_ne_nil, ih hlength, hafter]
        simp
      | false =>
        rw [ends_many1_eq_nil_iff.mpr (by simpa using haccepts)]
        simp only
        rw [ih (Nat.le_of_succ_le_succ hfuel)]
        simp

/-- Substituting a space for every run of blanks collapses them. -/
theorem sub_many1 (text : List Char) :
    (many1 (char accepts)).sub [' '] text = collapse accepts text :=
  intercalate_splitFrom_many1 (Nat.le_refl _)

end Substitution

section Ends

/-- Neither the first nor the last character is blank. -/
def Inked (isBlank : Char → Bool) (text : List Char) : Prop :=
  (∀ character, text.head? = some character → isBlank character = false) ∧
    ∀ character, text.getLast? = some character → isBlank character = false

variable {text : List Char} {character : Char}

theorem inked_append
    (hfront : ∃ character, front.head? = some character ∧ isBlank character = false)
    (hrest : ∃ character, rest.getLast? = some character ∧ isBlank character = false) :
    Inked isBlank (front ++ rest) := by
  obtain ⟨first, hfirst, hinkFirst⟩ := hfront
  obtain ⟨last, hlast, hinkLast⟩ := hrest
  constructor
  · intro character hhead
    rw [List.head?_append, hfirst, Option.some_or] at hhead
    exact Option.some.inj hhead ▸ hinkFirst
  · intro character htail
    rw [List.getLast?_append, hlast, Option.some_or] at htail
    exact Option.some.inj htail ▸ hinkLast

theorem dropWhile_blank_append (hink : isBlank character = false) :
    (front ++ character :: rest).dropWhile isBlank =
      front.dropWhile isBlank ++ character :: rest := by
  rw [List.dropWhile_append]
  split
  next hempty =>
    rw [List.isEmpty_iff.mp hempty, List.dropWhile_cons_of_neg (by simp [hink])]
    rfl
  · rfl

theorem collapse_append (front rest : List Char) (hink : isBlank character = false) :
    collapse isBlank (front ++ character :: rest) =
      collapse isBlank front ++ character :: collapse isBlank rest := by
  induction front using collapse.induct isBlank with
  | case1 => rw [collapse_nil, List.nil_append, List.nil_append, collapse_cons_ink rest hink]
  | case2 first front hblank ih =>
    rw [List.cons_append, collapse_cons_blank _ hblank, dropWhile_blank_append hink, ih,
      collapse_cons_blank _ hblank, List.cons_append]
  | case3 first front hblank ih =>
    have hfirst : isBlank first = false := by simpa using hblank
    rw [List.cons_append, collapse_cons_ink _ hfirst, ih, collapse_cons_ink _ hfirst,
      List.cons_append]

/-- A part with ink at its ends is collapsed where it stands. -/
theorem collapse_append_inked (front rest : List Char) (hcore : Inked isBlank core)
    (hne : core ≠ []) :
    collapse isBlank (front ++ core ++ rest) =
      collapse isBlank front ++ collapse isBlank core ++ collapse isBlank rest := by
  obtain ⟨first, tail, rfl⟩ := List.exists_cons_of_ne_nil hne
  have hfirst : isBlank first = false := hcore.1 first rfl
  have hright : collapse isBlank (first :: tail ++ rest) =
      collapse isBlank (first :: tail) ++ collapse isBlank rest := by
    obtain ⟨before, last, hsnoc⟩ := (List.eq_nil_or_concat (first :: tail)).resolve_left hne
    have hlast : isBlank last = false := hcore.2 last (by rw [hsnoc]; simp)
    rw [hsnoc, List.concat_eq_append, List.append_assoc, List.singleton_append,
      collapse_append _ _ hlast, collapse_append before [] hlast, collapse_nil,
      List.append_assoc, List.singleton_append]
  rw [List.append_assoc, List.cons_append, collapse_append _ _ hfirst, List.append_assoc,
    ← hright, List.cons_append, collapse_cons_ink _ hfirst]

theorem collapse_all_blank (hblank : ∀ character ∈ text, isBlank character = true) :
    collapse isBlank text = [] ∨ collapse isBlank text = [' '] := by
  cases text with
  | nil => exact .inl (collapse_nil isBlank)
  | cons first rest =>
    right
    have hrest : rest.dropWhile isBlank = [] :=
      List.dropWhile_eq_nil_iff.mpr fun character hmem => hblank character (.tail _ hmem)
    rw [collapse_cons_blank rest (hblank first (.head _)), hrest, collapse_nil]

/-- A text is its core between two runs of blanks. -/
theorem exists_core (isBlank : Char → Bool) (text : List Char) :
    ∃ front rest, text = front ++ stripBy isBlank text ++ rest ∧
      (∀ character ∈ front, isBlank character = true) ∧
      ∀ character ∈ rest, isBlank character = true := by
  refine ⟨text.takeWhile isBlank, (text.dropWhile isBlank).rtakeWhile isBlank, ?_, ?_, ?_⟩
  · rw [stripBy, List.append_assoc, List.rdropWhile_append_rtakeWhile,
      List.takeWhile_append_dropWhile]
  · exact fun character hmem => List.mem_takeWhile_imp hmem
  · exact fun character hmem => List.mem_rtakeWhile_imp hmem

theorem inked_stripBy (isBlank : Char → Bool) (text : List Char) :
    Inked isBlank (stripBy isBlank text) := by
  constructor
  · intro character hhead
    have hdropped : (text.dropWhile isBlank).head? = some character := by
      obtain ⟨rest, hrest⟩ := List.rdropWhile_prefix isBlank (text.dropWhile isBlank)
      rw [← hrest, List.head?_append, ← stripBy, hhead]
      rfl
    have hnot := List.head?_dropWhile_not isBlank text
    rw [hdropped] at hnot
    simpa using hnot
  · intro character hlast
    have hne : stripBy isBlank text ≠ [] := by
      intro hnil
      rw [hnil] at hlast
      cases hlast
    rw [List.getLast?_eq_some_getLast hne, Option.some.injEq] at hlast
    have hnot := List.rdropWhile_last_not isBlank (text.dropWhile isBlank) hne
    rw [← hlast]
    exact (Bool.not_eq_true _).mp hnot

theorem dropWhile_of_inked (hinked : Inked isBlank text) :
    text.dropWhile isBlank = text := by
  cases text with
  | nil => rfl
  | cons first rest => exact List.dropWhile_cons_of_neg (by simp [hinked.1 first rfl])

theorem stripBy_of_inked (hinked : Inked isBlank text) :
    stripBy isBlank text = text := by
  rw [stripBy, dropWhile_of_inked hinked, List.rdropWhile_eq_self_iff]
  intro hne hblank
  have hlast := hinked.2 _ (List.getLast?_eq_some_getLast hne)
  rw [hblank] at hlast
  cases hlast

theorem rdropWhile_blank_append (hink : isBlank character = false) :
    (front ++ character :: rest).rdropWhile isBlank =
      front ++ character :: rest.rdropWhile isBlank := by
  rw [List.rdropWhile, List.reverse_append, List.reverse_cons, List.append_assoc,
    List.singleton_append, dropWhile_blank_append hink, List.rdropWhile]
  simp

/-- Stripping a text does not touch a part with ink at its ends. -/
theorem stripBy_append_inked (front rest : List Char) (hinked : Inked isBlank core)
    (hne : core ≠ []) :
    stripBy isBlank (front ++ core ++ rest) =
      front.dropWhile isBlank ++ core ++ rest.rdropWhile isBlank := by
  obtain ⟨before, last, hsnoc⟩ := (List.eq_nil_or_concat core).resolve_left hne
  have hlast : isBlank last = false := hinked.2 last (by rw [hsnoc]; simp)
  obtain ⟨first, tail, hcons⟩ := List.exists_cons_of_ne_nil hne
  have hfirst : isBlank first = false := hinked.1 first (by rw [hcons]; rfl)
  have hdropped : (front ++ core ++ rest).dropWhile isBlank =
      front.dropWhile isBlank ++ core ++ rest := by
    rw [hcons, List.append_assoc, List.cons_append, dropWhile_blank_append hfirst,
      List.append_assoc, List.cons_append]
  rw [stripBy, hdropped, hsnoc, List.concat_eq_append]
  simp only [List.append_assoc, List.singleton_append]
  rw [← List.append_assoc, rdropWhile_blank_append hlast]
  simp

theorem stripBy_around (hinked : Inked isBlank core)
    (hfront : ∀ character ∈ front, isBlank character = true)
    (hrest : ∀ character ∈ rest, isBlank character = true) (hne : core ≠ []) :
    stripBy isBlank (front ++ core ++ rest) = core := by
  rw [stripBy_append_inked front rest hinked hne, List.dropWhile_eq_nil_iff.mpr hfront,
    List.rdropWhile_eq_nil_iff.mpr hrest, List.nil_append, List.append_nil]

theorem inked_collapse (hinked : Inked isBlank text) :
    Inked isBlank (collapse isBlank text) := by
  cases hne : text with
  | nil => simp [Inked]
  | cons first tail =>
    have hfirst := hinked.1 first (by rw [hne]; rfl)
    obtain ⟨before, last, hsnoc⟩ := (List.eq_nil_or_concat text).resolve_left (by simp [hne])
    have hlast : isBlank last = false := hinked.2 last (by rw [hsnoc]; simp)
    rw [← hne]
    constructor
    · intro character hhead
      rw [hne, collapse_cons_ink tail hfirst, List.head?_cons, Option.some.injEq] at hhead
      rw [← hhead]
      exact hfirst
    · intro character hend
      rw [hsnoc, List.concat_eq_append, collapse_append before [] hlast, collapse_nil] at hend
      simp only [List.getLast?_append, List.getLast?_singleton, Option.some_or,
        Option.some.injEq] at hend
      rw [← hend]
      exact hlast

theorem collapse_ne_nil (hne : text ≠ []) : collapse isBlank text ≠ [] := by
  obtain ⟨first, tail, rfl⟩ := List.exists_cons_of_ne_nil hne
  rw [collapse]
  split <;> simp

/-- Stripping and collapsing commute. -/
theorem stripBy_collapse (hspace : isBlank ' ' = true) (text : List Char) :
    stripBy isBlank (collapse isBlank text) = collapse isBlank (stripBy isBlank text) := by
  obtain ⟨front, rest, htext, hfront, hrest⟩ := exists_core isBlank text
  by_cases hne : stripBy isBlank text = []
  · have hblank : ∀ character ∈ text, isBlank character = true := by
      intro character hmem
      rw [htext, hne, List.append_nil, List.mem_append] at hmem
      exact hmem.elim (hfront character) (hrest character)
    rw [hne, collapse_nil, stripBy_eq_nil_iff]
    rcases collapse_all_blank hblank with hnone | hone
    · simp [hnone]
    · simp [hone, hspace]
  · have hcore := inked_stripBy isBlank text
    have hblank : ∀ blanks : List Char, (∀ character ∈ blanks, isBlank character = true) →
        ∀ character ∈ collapse isBlank blanks, isBlank character = true := by
      intro blanks hblanks
      rcases collapse_all_blank hblanks with hnone | hone
      · simp [hnone]
      · simp [hone, hspace]
    have hcollapsed := congrArg (collapse isBlank) htext
    rw [collapse_append_inked front rest hcore hne] at hcollapsed
    rw [hcollapsed]
    exact stripBy_around (inked_collapse hcore) (hblank front hfront) (hblank rest hrest)
      (collapse_ne_nil hne)

theorem collapse_collapse (hspace : isBlank ' ' = true) (text : List Char) :
    collapse isBlank (collapse isBlank text) = collapse isBlank text := by
  induction text using collapse.induct isBlank with
  | case1 => simp
  | case2 first rest hblank ih =>
    have hkept : (collapse isBlank (rest.dropWhile isBlank)).dropWhile isBlank =
        collapse isBlank (rest.dropWhile isBlank) := by
      cases hrest : rest.dropWhile isBlank with
      | nil => simp
      | cons second tail =>
        have hsecond : isBlank second = false := by
          have hnot := List.head?_dropWhile_not isBlank rest
          rw [hrest] at hnot
          simpa using hnot
        rw [collapse_cons_ink tail hsecond]
        exact List.dropWhile_cons_of_neg (by simp [hsecond])
    rw [collapse_cons_blank rest hblank, collapse_cons_blank _ hspace, hkept, ih]
  | case3 first rest hblank ih =>
    have hfirst : isBlank first = false := by simpa using hblank
    rw [collapse_cons_ink rest hfirst, collapse_cons_ink _ hfirst, ih]

end Ends

/-! ## Gaps -/

/-- A collapsed text with ink at its ends. -/
structure Tidy (isBlank : Char → Bool) (text : List Char) : Prop where
  nonempty : text ≠ []
  inked : Inked isBlank text
  collapsed : collapse isBlank text = text

/-- The pieces of a text that is cut at some of the blanks behind a mark. -/
inductive CutAtGaps (isBlank marks : Char → Bool) : List Char → List (List Char) → Prop
  | whole (text : List Char) (htidy : Tidy isBlank text) : CutAtGaps isBlank marks text [text]
  | gap (front rest : List Char) (pieces : List (List Char)) (mark : Char)
      (hmark : marks mark = true) (htidy : Tidy isBlank (front ++ [mark]))
      (hrest : CutAtGaps isBlank marks rest pieces) :
      CutAtGaps isBlank marks (front ++ mark :: ' ' :: rest) ((front ++ [mark]) :: pieces)

section Gaps

variable {text : List Char}

theorem length_collapse_le (isBlank : Char → Bool) (text : List Char) :
    (collapse isBlank text).length ≤ text.length := by
  induction text using collapse.induct isBlank with
  | case1 => simp
  | case2 first rest hblank ih =>
    have hshorter := (List.dropWhile_sublist (p := isBlank) (l := rest)).length_le
    rw [collapse_cons_blank rest hblank, List.length_cons, List.length_cons]
    omega
  | case3 first rest hblank ih =>
    rw [collapse_cons_ink rest (by simpa using hblank), List.length_cons, List.length_cons]
    omega

/-- Around a character that is no blank, the parts of a collapsed text are collapsed. -/
theorem collapsed_around {mark : Char} (hink : isBlank mark = false)
    (hcollapsed : collapse isBlank (front ++ mark :: rest) = front ++ mark :: rest) :
    collapse isBlank front = front ∧ collapse isBlank rest = rest := by
  rw [collapse_append front rest hink] at hcollapsed
  have hfront := length_collapse_le isBlank front
  have hrest := length_collapse_le isBlank rest
  have hlength := congrArg List.length hcollapsed
  simp only [List.length_append, List.length_cons] at hlength
  obtain ⟨hsame, htail⟩ := List.append_inj hcollapsed (by omega)
  exact ⟨hsame, (List.cons.inj htail).2⟩

theorem CutAtGaps.tidy (hcut : CutAtGaps isBlank marks text pieces) :
    ∀ piece ∈ pieces, Tidy isBlank piece := by
  induction hcut with
  | whole text htidy => simpa using htidy
  | gap front rest pieces mark hmark htidy _ ih =>
    intro piece hpiece
    rcases List.mem_cons.mp hpiece with rfl | hlater
    · exact htidy
    · exact ih piece hlater

theorem CutAtGaps.ne_nil (hcut : CutAtGaps isBlank marks text pieces) : pieces ≠ [] := by
  cases hcut <;> simp

/-- A tidy text whose blank behind a mark is a gap. -/
theorem Tidy.cut {mark blank : Char} (hink : isBlank mark = false) (hblank : isBlank blank = true)
    (htidy : Tidy isBlank (front ++ mark :: blank :: rest)) :
    blank = ' ' ∧ rest.dropWhile isBlank = rest ∧ Tidy isBlank (front ++ [mark]) ∧
      Tidy isBlank rest := by
  obtain ⟨hfront, hbehind⟩ := collapsed_around hink htidy.collapsed
  rw [collapse_cons_blank rest hblank] at hbehind
  obtain ⟨hspace, hsame⟩ := List.cons.inj hbehind
  have hlonger := length_collapse_le isBlank (rest.dropWhile isBlank)
  rw [hsame] at hlonger
  have hkept : rest.dropWhile isBlank = rest :=
    (List.dropWhile_sublist _).eq_of_length_le hlonger
  have hlast := htidy.inked.2
  have hne : rest ≠ [] := by
    rintro rfl
    rw [hlast blank (by simp)] at hblank
    cases hblank
  obtain ⟨first, tail, rfl⟩ := List.exists_cons_of_ne_nil hne
  refine ⟨hspace.symm, hkept, ⟨by simp, ⟨?_, ?_⟩, ?_⟩, hne, ⟨?_, ?_⟩, ?_⟩
  · intro character hhead
    apply htidy.inked.1
    cases front <;> exact hhead
  · intro character hend
    rw [List.getLast?_append, List.getLast?_singleton, Option.some_or] at hend
    exact Option.some.inj hend ▸ hink
  · rw [collapse_append front [] hink, hfront, collapse_nil]
  · intro character hhead
    cases hhead
    have hnot := List.head?_dropWhile_not isBlank (first :: tail)
    rw [hkept] at hnot
    simpa using hnot
  · intro character hend
    apply hlast
    simp [List.getLast?_append, List.getLast?_cons_cons, hend]
  · rw [hkept] at hsame
    exact hsame

/-- Reading a tidy text, a pattern for the blanks behind a mark cuts at gaps. -/
theorem cutAtGaps_splitFrom (hmarks : ∀ mark, marks mark = true → isBlank mark = false)
    {read : List Char} {place : Place}
    (hbefore : read ≠ [] → place.before.head? = read.head?)
    (htidy : Tidy isBlank (read.reverse ++ place.after)) :
    CutAtGaps isBlank marks (read.reverse ++ place.after)
      (splitFrom (.seq (.assert (precededBy marks)) (many1 (char isBlank))) fuel read place) := by
  induction fuel generalizing read place with
  | zero => exact .whole _ htidy
  | succ fuel ih =>
    obtain ⟨before, after⟩ := place
    rw [splitFrom]
    split
    · next next later hends =>
      obtain ⟨hpreceded, hmember⟩ : precededBy marks ⟨before, after⟩ = true ∧
          (many1 (char isBlank)).ends ⟨before, after⟩ = next :: later := by
        simp only [ends] at hends
        split at hends
        · next hholds => exact ⟨hholds, by simpa [ends] using hends⟩
        · cases hends
      cases after with
      | nil =>
        rw [ends_many1_eq_nil_iff.mpr (by simp)] at hmember
        cases hmember
      | cons blank rest =>
        have hblank : isBlank blank = true := by
          by_contra hink
          rw [ends_many1_eq_nil_iff.mpr (by simpa using hink)] at hmember
          cases hmember
        obtain ⟨reached, others, hreached, hafter⟩ := ends_many1_head before rest hblank
        obtain ⟨rfl, rfl⟩ := List.cons.inj (hmember.symm.trans hreached)
        cases read with
        | nil =>
          have hink := htidy.inked.1 blank rfl
          rw [hblank] at hink
          cases hink
        | cons mark read =>
          have hmark : marks mark = true := by
            rw [precededBy, hbefore (by simp)] at hpreceded
            exact hpreceded
          rw [List.reverse_cons, List.append_assoc, List.singleton_append] at htidy ⊢
          obtain ⟨rfl, hkept, hfront, hrest⟩ := htidy.cut (hmarks mark hmark) hblank
          refine .gap _ rest _ mark hmark hfront ?_
          have hnext := @ih [] next (fun hne => absurd rfl hne)
            (by rwa [hafter, hkept])
          rwa [hafter, hkept] at hnext
    · next hends =>
      cases after with
      | nil =>
        rw [List.append_nil] at htidy ⊢
        exact .whole _ htidy
      | cons character rest =>
        have hread : read.reverse ++ character :: rest =
            (character :: read).reverse ++ rest := by simp
        rw [hread] at htidy ⊢
        exact @ih _ ⟨character :: before, rest⟩ (fun _ => rfl) htidy

end Gaps

end JobApplyAgent.Library
