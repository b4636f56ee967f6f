import JobApplyAgent.Materials.ClaimBinding

/-!
# Excerpts of a curriculum vitae

The bounded text of a CV that a model is shown.  Unsafe lines, boundaries and runs
of lines are found in the order of the source; segments are dropped afterwards, by
safety and by size, and what is left is joined.
-/

namespace JobApplyAgent.Materials

open Library Regex

def ContentPolicy.objectsTo (policy : ContentPolicy) (text : List Char) : Bool :=
  policy.containsSensitiveText text || policy.containsPromptInjection text

/-! ## Lines -/

section Lines

variable (table : CharacterTable)

def lineBreaksRe : Regex := many1 (member ['\r', '\n'])

/-- The lines of a text that are not blank, with their blanks collapsed. -/
def physicalLines (text : List Char) : List (List Char) :=
  ((lineBreaksRe.split text).filter fun raw => !(stripBy table.isBlank raw).isEmpty).map
    (clean table)

def bulletCharacters : List Char := ['-', '*', '•', '▪', '◦', '‣']

/-- `^(?:[-*•▪◦‣]\s*)?(\S+)`. -/
def firstToken (line : List Char) : List Char :=
  let token := fun text : List Char => text.takeWhile fun character => !table.isBlank character
  let body := match line with
    | [] => []
    | character :: rest =>
      if bulletCharacters.contains character then rest.dropWhile table.isBlank else line
  if (token body).isEmpty then token line else token body

def isHyphen (character : Char) : Bool :=
  ['-', '\u058a', '\u05be', '\u2e3a', '\u2e3b'].contains character
    || between '\u2010' '\u2015' character

/-- A line without the hyphen at its end. -/
def dehyphenated (line : List Char) : List Char :=
  match line.reverse.dropWhile table.isBlank with
  | [] => line
  | character :: rest => if isHyphen character then rest.reverse else line

/-- The last 240 characters. -/
def leftContext (line : List Char) : List Char :=
  line.drop (line.length - 240)

/-- `(?<=[.!?])\s+`. -/
def sentenceGapRe : Regex :=
  .seq (.assert (precededBy fun character => ['.', '!', '?'].contains character))
    (many1 (blank table))

def lineSentences (line : List Char) : List (List Char) :=
  (((sentenceGapRe table).split line).map (clean table)).filter fun sentence => !sentence.isEmpty

end Lines

/-! ## Chunks -/

section Chunks

variable (table : CharacterTable) (policy : ContentPolicy)

/-- Two safe lines whose joint reads as something else. -/
def boundaryUnsafe (left right : List Char) : Bool :=
  let token := firstToken table right
  let context := leftContext left
  !token.isEmpty && !policy.objectsTo context && !policy.objectsTo token
    && ([context ++ '\n' :: token, dehyphenated table context ++ token,
      dehyphenated table context ++ ' ' :: token].any policy.objectsTo)

/-- Whether each joint of adjacent lines is unsafe. -/
def joints (lines : List (List Char)) : List Bool :=
  lines.zipWith (boundaryUnsafe table policy) lines.tail

/-- Each line with whether it, or one of its joints, is unsafe. -/
def flaggedLines (lines : List (List Char)) : List (Bool × List Char) :=
  let around := (false :: joints table policy lines).zipWith or
    (joints table policy lines ++ [false])
  (lines.zip around).map fun (line, joint) => (policy.objectsTo line || joint, line)

def lineRuns (lines : List (List Char)) : List (List (List Char)) :=
  (((flaggedLines table policy lines).splitOnP Prod.fst).map (List.map Prod.snd)).filter
    fun run => !run.isEmpty

def safeRuns (lines : List (List Char)) : List (List (List Char)) :=
  (lineRuns table policy lines).filter fun run =>
    !policy.objectsTo (['\n'].intercalate run)

def maxChunkChars : ℕ := 600

def maxChunks : ℕ := 24

/-- A sentence is kept whole or not at all. -/
def keepsSentence (sentence : List Char) : Bool :=
  !policy.objectsTo sentence && decide (sentence.length ≤ maxChunkChars)

/-- Create deterministic bounded evidence chunks without semantic inference. -/
def cvChunks (text : List Char) : List (List Char) :=
  (((safeRuns table policy (physicalLines table text)).flatten.flatMap
    (lineSentences table)).filter (keepsSentence policy)).take maxChunks

/-- The room that a segment takes up after the others. -/
def required (segments : List (List Char)) (segment : List Char) : ℕ :=
  (if segments.isEmpty then 0 else 1) + segment.length

def takeSegment (maxChars : ℤ) (taken : List (List Char) × ℕ) (segment : List Char) :
    List (List Char) × ℕ :=
  if policy.objectsTo segment then taken
  else if maxChars - taken.2 < required taken.1 segment then taken
  else (taken.1 ++ [segment], taken.2 + required taken.1 segment)

def safeSegments (chunks : List (List Char)) (maxChars : ℤ) : List (List Char) :=
  (chunks.foldl (takeSegment policy maxChars) ([], 0)).1

def nonSensitiveCvExcerpt (text : List Char) (maxChars : ℤ) : List Char :=
  if maxChars < 1 then []
  else ['\n'].intercalate (safeSegments policy (cvChunks table policy text) maxChars)

end Chunks

/-! ## What an excerpt is made of -/

section Excerpts

variable {table : CharacterTable} {policy : ContentPolicy} {text : List Char} {maxChars : ℤ}

def sourceSentences (table : CharacterTable) (text : List Char) : List (List Char) :=
  (physicalLines table text).flatMap (lineSentences table)

theorem mem_clean {value : List Char} {char : Char}
    (hchar : char ∈ clean table value) : char = ' ' ∨ char ∈ value := by
  have hsub : char ∈ (spaceRe table).sub [' '] value := by
    rw [clean, stripBy] at hchar
    exact (List.dropWhile_sublist _).subset ((List.rdropWhile_prefix _ _).subset hchar)
  rcases mem_of_mem_intercalate hsub with hspace | ⟨piece, hpiece, hmem⟩
  · exact .inl (List.mem_singleton.mp hspace)
  · exact .inr (mem_of_mem_split hpiece hmem)

theorem newline_notMem_physicalLine (hline : line ∈ physicalLines table text) :
    '\n' ∉ line := by
  obtain ⟨raw, hraw, rfl⟩ := List.mem_map.mp hline
  intro hnewline
  rcases mem_clean hnewline with hspace | hmem
  · exact absurd hspace (by decide)
  · exact absurd (not_accepts_of_mem_split_many1 (List.mem_filter.mp hraw).1 hmem) (by decide)

theorem newline_notMem_lineSentence (hsentence : sentence ∈ lineSentences table line)
    (hline : '\n' ∉ line) :
    '\n' ∉ sentence := by
  obtain ⟨raw, hraw, rfl⟩ := List.mem_map.mp (List.mem_filter.mp hsentence).1
  intro hnewline
  rcases mem_clean hnewline with hspace | hmem
  · exact absurd hspace (by decide)
  · exact hline (mem_of_mem_split hraw hmem)

/-! ### Taking segments -/

/-- The segments taken so far, with the length of the text that they make. -/
structure Packed (policy : ContentPolicy) (chunks : List (List Char)) (maxChars : ℤ)
    (taken : List (List Char) × ℕ) : Prop where
  size : taken.2 = (['\n'].intercalate taken.1).length
  room : (taken.2 : ℤ) ≤ maxChars
  fromChunks : ∀ segment ∈ taken.1, segment ∈ chunks ∧ policy.objectsTo segment = false

theorem length_intercalate_snoc (segments : List (List Char)) (segment : List Char) :
    (['\n'].intercalate (segments ++ [segment])).length =
      (['\n'].intercalate segments).length + required segments segment := by
  induction segments with
  | nil => simp [required]
  | cons first rest ih =>
    rw [List.cons_append, List.intercalate_cons_of_ne_nil (by simp)]
    cases rest with
    | nil =>
      simp [required]
      omega
    | cons second rest =>
      rw [List.intercalate_cons_of_ne_nil (by simp), List.length_append, ih]
      simp [required]
      omega

theorem length_intercalate_le (front rest : List (List Char)) :
    (['\n'].intercalate front).length ≤ (['\n'].intercalate (front ++ rest)).length := by
  induction rest generalizing front with
  | nil => simp
  | cons segment rest ih =>
    have hlater := ih (front ++ [segment])
    rw [length_intercalate_snoc, List.append_assoc, List.singleton_append] at hlater
    omega

variable {rest : List (List Char)} {segment : List Char}

theorem takeSegment_packed (hpacked : Packed policy chunks maxChars taken)
    (hsegment : segment ∈ chunks) :
    Packed policy chunks maxChars (takeSegment policy maxChars taken segment) := by
  unfold takeSegment
  split
  · exact hpacked
  next hsafe =>
    split
    · exact hpacked
    next hroom =>
      constructor
      · rw [length_intercalate_snoc, ← hpacked.size]
      · push_cast at hroom ⊢
        omega
      · intro other hother
        rcases List.mem_append.mp hother with hother | hother
        · exact hpacked.fromChunks other hother
        · rw [List.mem_singleton.mp hother]
          exact ⟨hsegment, by simpa using hsafe⟩

theorem foldl_takeSegment_packed (hpacked : Packed policy chunks maxChars taken)
    (hrest : ∀ segment ∈ rest, segment ∈ chunks) :
    Packed policy chunks maxChars (rest.foldl (takeSegment policy maxChars) taken) := by
  induction rest generalizing taken with
  | nil => exact hpacked
  | cons segment rest ih =>
    exact ih (takeSegment_packed hpacked (hrest segment (.head _)))
      fun other hother => hrest other (.tail _ hother)

/-- What is taken fits and comes from the chunks. -/
theorem safeSegments_packed (policy : ContentPolicy) (chunks : List (List Char))
    (hmax : 0 ≤ maxChars) :
    Packed policy chunks maxChars (chunks.foldl (takeSegment policy maxChars) ([], 0)) :=
  foldl_takeSegment_packed ⟨rfl, hmax, by simp⟩ fun _ hsegment => hsegment

/-- Safe chunks for which there is room are all taken. -/
theorem foldl_takeSegment_all (done : List (List Char))
    (hsize : size = (['\n'].intercalate done).length)
    (hsafe : ∀ segment ∈ rest, policy.objectsTo segment = false)
    (hroom : ((['\n'].intercalate (done ++ rest)).length : ℤ) ≤ maxChars) :
    (rest.foldl (takeSegment policy maxChars) (done, size)).1 = done ++ rest := by
  induction rest generalizing done size with
  | nil => simp
  | cons segment rest ih =>
    have hassoc : done ++ segment :: rest = (done ++ [segment]) ++ rest := by simp
    have hfits := length_intercalate_le (done ++ [segment]) rest
    rw [length_intercalate_snoc, ← hassoc] at hfits
    have htaken : takeSegment policy maxChars (done, size) segment =
        (done ++ [segment], size + required done segment) := by
      rw [takeSegment, if_neg (by simp [hsafe segment (.head _)]), if_neg]
      push_cast
      omega
    rw [List.foldl_cons, htaken, hassoc]
    apply ih
    · rw [length_intercalate_snoc, hsize]
    · exact fun other hother => hsafe other (.tail _ hother)
    · rw [← hassoc]
      exact hroom

theorem foldl_takeSegment_none {size : ℕ}
    (hnone : ∀ segment ∈ rest, maxChars < size + required done segment) :
    rest.foldl (takeSegment policy maxChars) (done, size) = (done, size) := by
  induction rest with
  | nil => rfl
  | cons segment rest ih =>
    have hfull := hnone segment (.head _)
    have hkept : takeSegment policy maxChars (done, size) segment = (done, size) := by
      unfold takeSegment
      split
      · rfl
      · rw [if_pos (by dsimp only; omega)]
    rw [List.foldl_cons, hkept]
    exact ih fun other hother => hnone other (.tail _ hother)

/-! ### Sentences read as a whole -/

def isSentenceMark (character : Char) : Bool :=
  ['.', '!', '?'].contains character

/-- What the code relies on in the tables and in the shared policy.  A line break behind the end of
a sentence is read like a blank there, since only the wraps between two letters are joined; and
a text is read on its own up to the end of a sentence as it is in front of a further line. -/
structure ReadsSentences (table : CharacterTable) (policy : ContentPolicy) : Prop where
  space : table.isBlank ' ' = true
  marks : ∀ mark, isSentenceMark mark = true → table.isBlank mark = false
  empty : policy.objectsTo [] = false
  gaps : ∀ front rest mark, isSentenceMark mark = true →
    policy.objectsTo (front ++ mark :: ' ' :: rest) =
      policy.objectsTo (front ++ mark :: '\n' :: rest)
  beginnings : ∀ front rest mark, isSentenceMark mark = true →
    policy.objectsTo (front ++ mark :: '\n' :: rest) = false →
      policy.objectsTo (front ++ [mark]) = false

theorem intercalate_append {first : List (List Char)} (hfirst : first ≠ [])
    (hrest : rest ≠ []) : ['\n'].intercalate (first ++ rest) =
      ['\n'].intercalate first ++ '\n' :: ['\n'].intercalate rest := by
  induction first with
  | nil => exact absurd rfl hfirst
  | cons segment later ih =>
    cases later with
    | nil => simp [List.intercalate_cons_of_ne_nil hrest]
    | cons next later =>
      have hlater : next :: later ≠ [] := List.cons_ne_nil _ _
      rw [List.cons_append, List.intercalate_cons_of_ne_nil (List.append_ne_nil_of_left_ne_nil
        hlater _), ih hlater, List.intercalate_cons_of_ne_nil hlater]
      simp only [List.append_assoc]

theorem physicalLine_tidy (hspace : table.isBlank ' ' = true)
    (hline : line ∈ physicalLines table text) : Tidy table.isBlank line := by
  obtain ⟨raw, hraw, rfl⟩ := List.mem_map.mp hline
  have hne : stripBy table.isBlank raw ≠ [] := by simpa using (List.mem_filter.mp hraw).2
  rw [clean_eq_core hspace]
  exact ⟨collapse_ne_nil hne, inked_collapse (inked_stripBy _ _), collapse_collapse hspace _⟩

theorem clean_tidy (htidy : Tidy table.isBlank line) : clean table line = line := by
  rw [clean_eq, htidy.collapsed, stripBy_of_inked htidy.inked]

variable {run segments : List (List Char)}

section Reads

variable (hreads : ReadsSentences table policy)
include hreads

/-- The sentences of a line are cut at gaps. -/
theorem ReadsSentences.lineSentences (hline : Tidy table.isBlank line) :
    CutAtGaps table.isBlank isSentenceMark line (lineSentences table line) := by
  have hcut : CutAtGaps table.isBlank isSentenceMark line ((sentenceGapRe table).split line) :=
    @cutAtGaps_splitFrom _ _ _ hreads.marks [] ⟨[], line⟩ (fun hne => absurd rfl hne) hline
  have hclean : ((sentenceGapRe table).split line).map (clean table) =
      (sentenceGapRe table).split line :=
    (List.map_congr_left fun piece hpiece => clean_tidy (hcut.tidy piece hpiece)).trans
      (List.map_id' _)
  rw [Materials.lineSentences, hclean, List.filter_eq_self.mpr]
  · exact hcut
  · intro piece hpiece
    simpa using (hcut.tidy piece hpiece).nonempty

/-- A text that is cut at gaps reads like its pieces on lines of their own. -/
theorem ReadsSentences.respaced (hcut : CutAtGaps table.isBlank isSentenceMark line pieces)
    (before after : List Char) :
    policy.objectsTo (before ++ line ++ after) =
      policy.objectsTo (before ++ ['\n'].intercalate pieces ++ after) := by
  induction hcut generalizing before with
  | whole => simp
  | gap front rest pieces mark hmark _ hrest ih =>
    have hread := hreads.gaps (before ++ front) (rest ++ after) mark hmark
    have hnext := ih (before ++ front ++ [mark, '\n'])
    rw [List.intercalate_cons_of_ne_nil hrest.ne_nil]
    simp only [List.append_assoc, List.cons_append, List.nil_append] at hread hnext ⊢
    rw [hread, hnext]

/-- A run of lines reads like its sentences. -/
theorem ReadsSentences.lines (hrun : ∀ line ∈ run, Tidy table.isBlank line) (before : List Char) :
    policy.objectsTo (before ++ ['\n'].intercalate run) =
      policy.objectsTo
        (before ++ ['\n'].intercalate (run.flatMap (Materials.lineSentences table))) := by
  induction run generalizing before with
  | nil => rfl
  | cons line rest ih =>
    have hcut := hreads.lineSentences (hrun line (.head _))
    cases rest with
    | nil => simpa using hreads.respaced hcut before []
    | cons next rest =>
      have hnext := hreads.lineSentences (hrun next (.tail _ (.head _)))
      have hline := hreads.respaced hcut before ('\n' :: ['\n'].intercalate (next :: rest))
      have hlater := ih (fun other hother => hrun other (.tail _ hother))
        (before ++ ['\n'].intercalate (Materials.lineSentences table line) ++ ['\n'])
      rw [List.intercalate_cons_of_ne_nil (by simp), List.flatMap_cons,
        intercalate_append hcut.ne_nil (by simp [hnext.ne_nil])]
      simp only [List.append_assoc, List.cons_append, List.nil_append] at hline hlater ⊢
      rw [hline, hlater]

end Reads

/-! ### Excerpts -/

theorem excerpt_eq (hmax : 0 ≤ maxChars) :
    nonSensitiveCvExcerpt table policy text maxChars =
      ['\n'].intercalate (safeSegments policy (cvChunks table policy text) maxChars) := by
  rw [nonSensitiveCvExcerpt]
  split
  next hless =>
    have hpacked := safeSegments_packed policy (cvChunks table policy text) hmax
    apply Eq.symm
    rw [← List.length_eq_zero_iff, safeSegments, ← hpacked.size]
    have hroom := hpacked.room
    omega
  · rfl

theorem mem_of_mem_lineRuns {lines run : List (List Char)}
    (hrun : run ∈ lineRuns table policy lines) (hline : line ∈ run) : line ∈ lines := by
  obtain ⟨flagged, hflagged, rfl⟩ := List.mem_map.mp (List.mem_filter.mp hrun).1
  obtain ⟨entry, hentry, rfl⟩ := List.mem_map.mp hline
  obtain ⟨⟨found, joint⟩, hzipped, rfl⟩ := List.mem_map.mp (mem_of_mem_splitOnP hflagged hentry)
  exact (List.of_mem_zip hzipped).1

theorem cvChunks_spec (hsegment : segment ∈ cvChunks table policy text) :
    segment ∈ sourceSentences table text ∧ '\n' ∉ segment ∧
      policy.objectsTo segment = false := by
  have hkept := List.mem_filter.mp (List.mem_of_mem_take hsegment)
  obtain ⟨line, hline, hsentence⟩ := List.mem_flatMap.mp hkept.1
  obtain ⟨run, hrun, hmem⟩ := List.mem_flatten.mp hline
  have hphysical := mem_of_mem_lineRuns (List.mem_filter.mp hrun).1 hmem
  refine ⟨List.mem_flatMap.mpr ⟨line, hphysical, hsentence⟩, ?_, ?_⟩
  · exact newline_notMem_lineSentence hsentence (newline_notMem_physicalLine hphysical)
  · have hsafe := hkept.2
    rw [keepsSentence, Bool.and_eq_true] at hsafe
    simpa using hsafe.1

/-- The excerpt has room, keeps whole sentences and is safe when it is read as one text. -/
structure CleanExcerpt (table : CharacterTable) (policy : ContentPolicy) (text : List Char)
    (maxChars : ℤ) : Prop where
  bounded : ((nonSensitiveCvExcerpt table policy text maxChars).length : ℤ) ≤ maxChars
  complete : nonSensitiveCvExcerpt table policy text maxChars ≠ [] →
    ∀ line ∈ (nonSensitiveCvExcerpt table policy text maxChars).splitOn '\n',
      line ∈ sourceSentences table text
  safe : policy.objectsTo (nonSensitiveCvExcerpt table policy text maxChars) = false

/-- The segments are the first sentences of a run: all of them, or those up to the end of one. -/
def OpensRun (table : CharacterTable) (run segments : List (List Char)) : Prop :=
  ∃ rest, run.flatMap (lineSentences table) = segments ++ rest ∧
    (rest = [] ∨ ∃ body mark, isSentenceMark mark = true ∧
      ['\n'].intercalate segments = body ++ [mark])

/-- The chunks for which there is room follow each other; and there is one of them at most, or
they open a run of lines that was classified as a whole. -/
def ReadAsOne (table : CharacterTable) (policy : ContentPolicy) (text : List Char)
    (maxChars : ℤ) : Prop :=
  ∃ skipped front rest, cvChunks table policy text = skipped ++ front ++ rest ∧
    (∀ segment ∈ skipped, maxChars < segment.length) ∧
    ((['\n'].intercalate front).length : ℤ) ≤ maxChars ∧
    (∀ segment ∈ rest, maxChars < (['\n'].intercalate (front ++ [segment])).length) ∧
    (front.length ≤ 1 ∨ ∃ run ∈ safeRuns table policy (physicalLines table text),
      OpensRun table run front)

theorem excerpt_bounded (hmax : 0 ≤ maxChars) :
    ((nonSensitiveCvExcerpt table policy text maxChars).length : ℤ) ≤ maxChars := by
  have hpacked := safeSegments_packed policy (cvChunks table policy text) hmax
  rw [excerpt_eq hmax, safeSegments, ← hpacked.size]
  exact hpacked.room

theorem excerpt_complete (hmax : 0 ≤ maxChars)
    (hexcerpt : nonSensitiveCvExcerpt table policy text maxChars ≠ [])
    (hline : line ∈ (nonSensitiveCvExcerpt table policy text maxChars).splitOn '\n') :
    line ∈ sourceSentences table text := by
  have hpacked := safeSegments_packed policy (cvChunks table policy text) hmax
  have hspec : ∀ segment ∈ safeSegments policy (cvChunks table policy text) maxChars,
      segment ∈ sourceSentences table text ∧ '\n' ∉ segment ∧
        policy.objectsTo segment = false :=
    fun segment hsegment => cvChunks_spec (hpacked.fromChunks segment hsegment).1
  rw [excerpt_eq hmax] at hexcerpt hline
  rw [List.splitOn_intercalate] at hline
  · exact (hspec line hline).1
  · exact fun segment hsegment => (hspec segment hsegment).2.1
  · intro hnone
    exact hexcerpt (by rw [hnone]; rfl)

/-- The chunks for which there is room are taken. -/
theorem safeSegments_eq (hmax : 0 ≤ maxChars)
    (hsafe : ∀ segment ∈ front, policy.objectsTo segment = false)
    (hskipped : ∀ segment ∈ skipped, maxChars < segment.length)
    (hroom : ((['\n'].intercalate front).length : ℤ) ≤ maxChars)
    (hrest : ∀ segment ∈ rest, maxChars < (['\n'].intercalate (front ++ [segment])).length) :
    safeSegments policy (skipped ++ front ++ rest) maxChars = front := by
  have hnone : skipped.foldl (takeSegment policy maxChars) ([], 0) = ([], 0) :=
    foldl_takeSegment_none fun segment hsegment => by
      simpa [required] using hskipped segment hsegment
  have hpacked := safeSegments_packed policy front hmax
  have hall : (front.foldl (takeSegment policy maxChars) ([], 0)).1 = front :=
    foldl_takeSegment_all [] rfl hsafe hroom
  have htaken : front.foldl (takeSegment policy maxChars) ([], 0) =
      (front, (['\n'].intercalate front).length) :=
    Prod.ext hall (hpacked.size.trans (by rw [hall]))
  have hfull : ∀ segment ∈ rest,
      maxChars < ((['\n'].intercalate front).length : ℕ) + required front segment := by
    intro segment hsegment
    have hlonger := hrest segment hsegment
    rw [length_intercalate_snoc] at hlonger
    exact_mod_cast hlonger
  rw [safeSegments, List.foldl_append, List.foldl_append, hnone, htaken,
    foldl_takeSegment_none hfull]

/-- What opens a safe run is safe. -/
theorem safe_of_opensRun (hreads : ReadsSentences table policy)
    (hrun : run ∈ safeRuns table policy (physicalLines table text))
    (hopens : OpensRun table run segments) :
    policy.objectsTo (['\n'].intercalate segments) = false := by
  obtain ⟨hlines, hsafe⟩ := List.mem_filter.mp hrun
  have htidy : ∀ line ∈ run, Tidy table.isBlank line := fun line hline =>
    physicalLine_tidy hreads.space (mem_of_mem_lineRuns hlines hline)
  have hwhole : policy.objectsTo
      (['\n'].intercalate (run.flatMap (lineSentences table))) = false :=
    (hreads.lines htidy []).symm.trans (by simpa using hsafe)
  obtain ⟨rest, hsentences, hended⟩ := hopens
  rw [hsentences] at hwhole
  by_cases hrest : rest = []
  · rwa [hrest, List.append_nil] at hwhole
  obtain ⟨body, mark, hmark, hbody⟩ := hended.resolve_left hrest
  have hne : segments ≠ [] := by
    rintro rfl
    simp at hbody
  rw [intercalate_append hne hrest, hbody, List.append_assoc, List.singleton_append] at hwhole
  rw [hbody]
  exact hreads.beginnings body _ mark hmark hwhole

theorem excerpt_safe (hreads : ReadsSentences table policy) (hmax : 0 ≤ maxChars)
    (hone : ReadAsOne table policy text maxChars) :
    policy.objectsTo (nonSensitiveCvExcerpt table policy text maxChars) = false := by
  obtain ⟨skipped, front, rest, hchunks, hskipped, hroom, hrest, hfew | ⟨run, hrun, hopens⟩⟩ := hone
  all_goals
    have hsafe : ∀ segment ∈ front, policy.objectsTo segment = false := by
      intro segment hsegment
      have hchunk : segment ∈ cvChunks table policy text := by
        rw [hchunks]
        simp [hsegment]
      exact (cvChunks_spec hchunk).2.2
    rw [excerpt_eq hmax, hchunks, safeSegments_eq hmax hsafe hskipped hroom hrest]
  · cases front with
    | nil => exact hreads.empty
    | cons segment others =>
      obtain rfl : others = [] := List.length_eq_zero_iff.mp (by simpa using hfew)
      rw [List.intercalate_singleton]
      exact hsafe segment (.head _)
  · exact safe_of_opensRun hreads hrun hopens

end Excerpts

/-! ## Lines brought together -/

/-- Two of the phrases of the shared policy, over a text whose line breaks are blanks. -/
def phrasePolicy : ContentPolicy where
  containsSensitiveText text :=
    ["work permit", "nationality"].any fun phrase =>
      occursIn phrase.toList (normalized basicCharacters text)
  containsPromptInjection _ := false

theorem phrasePolicy_infix {text : List Char} (hpart : part <:+: text)
    (hsafe : phrasePolicy.objectsTo text = false) : phrasePolicy.objectsTo part = false := by
  simp only [ContentPolicy.objectsTo, phrasePolicy, Bool.or_false, List.any_eq_false] at hsafe ⊢
  intro phrase hphrase hoccurs
  apply hsafe phrase hphrase
  exact occursIn_of_infix ((infix_of_occursIn hoccurs).trans (infix_normalized rfl hpart))

theorem sentenceMark_ink (mark : Char) (hmark : isSentenceMark mark = true) :
    basicCharacters.isBlank mark = false := by
  simp only [isSentenceMark, List.contains_eq_mem, decide_eq_true_eq, List.mem_cons,
    List.not_mem_nil, or_false] at hmark
  rcases hmark with rfl | rfl | rfl <;> decide

theorem phrasePolicy_reads : ReadsSentences basicCharacters phrasePolicy where
  space := rfl
  marks := sentenceMark_ink
  empty := by decide +kernel
  gaps front rest mark hmark := by
    have hclean : clean basicCharacters (front ++ mark :: ' ' :: rest) =
        clean basicCharacters (front ++ mark :: '\n' :: rest) := by
      have hink := sentenceMark_ink mark hmark
      rw [clean_eq, clean_eq, collapse_append _ _ hink, collapse_append _ _ hink,
        collapse_cons_blank rest rfl, collapse_cons_blank rest rfl]
    simp only [ContentPolicy.objectsTo, phrasePolicy, normalized, hclean]
  beginnings front rest mark hmark hsafe := by
    apply phrasePolicy_infix _ hsafe
    exact ⟨[], '\n' :: rest, by simp⟩

end JobApplyAgent.Materials
