import JobApplyAgent.Library.Regex

/-!
# Finding all matches

A pattern without assertions reads on from a place without looking back, so that finding all
its matches is a scan of the text: what is no match is passed over character by character,
and a match is read as a whole.
-/

namespace JobApplyAgent.Library

/-! ## Scanning a text -/

section Scan

variable (next : List Char → Option (List Char))

/-- Read on in a text; `next` gives what a match leaves of it. -/
def scanFrom : ℕ → List Char → List (List Char)
  | 0, _ => []
  | _ + 1, [] => []
  | fuel + 1, character :: tail =>
    match next (character :: tail) with
    | some rest =>
      (character :: tail).take (tail.length + 1 - rest.length) :: scanFrom fuel rest
    | none => scanFrom fuel tail

def scan (text : List Char) : List (List Char) :=
  scanFrom next text.length text

/-- A match reads something. -/
def Shortens : Prop :=
  ∀ text rest, next text = some rest → rest.length < text.length

variable {next}

variable {text : List Char}

theorem scanFrom_of_le (hshortens : Shortens next) (hfuel : text.length ≤ fuel) :
    scanFrom next fuel text = scan next text := by
  have hsame : ∀ bound (text : List Char) first second, text.length ≤ bound →
      text.length ≤ first → text.length ≤ second →
      scanFrom next first text = scanFrom next second text := by
    intro bound
    induction bound with
    | zero =>
      intro text first second hbound _ _
      rw [List.length_eq_zero_iff.mp (Nat.le_zero.mp hbound)]
      cases first <;> cases second <;> rfl
    | succ bound ih =>
      intro text first second hbound hfirst hsecond
      cases text with
      | nil => exact ih [] first second (Nat.zero_le _) hfirst hsecond
      | cons character tail =>
        rw [List.length_cons] at hbound hfirst hsecond
        obtain ⟨first, rfl⟩ := Nat.exists_eq_succ_of_ne_zero (by omega : first ≠ 0)
        obtain ⟨second, rfl⟩ := Nat.exists_eq_succ_of_ne_zero (by omega : second ≠ 0)
        rw [scanFrom, scanFrom]
        cases hnext : next (character :: tail) with
        | none => exact ih tail first second (by omega) (by omega) (by omega)
        | some rest =>
          have hrest := hshortens _ _ hnext
          rw [List.length_cons] at hrest
          simp only
          rw [ih rest first second (by omega) (by omega) (by omega)]
  exact hsame text.length text fuel text.length (Nat.le_refl _) hfuel (Nat.le_refl _)

theorem scan_skip (hnone : next (character :: text) = none) :
    scan next (character :: text) = scan next text := by
  rw [scan, List.length_cons, scanFrom, hnone]
  rfl

variable {word : List Char}

/-- Where no match begins, the scan passes on to what follows. -/
theorem scan_gap (gap : List Char)
    (hnone : ∀ tail, tail <:+ gap → tail ≠ [] → next (tail ++ rest) = none) :
    scan next (gap ++ rest) = scan next rest := by
  induction gap with
  | nil => rfl
  | cons character gap ih =>
    have hhere := hnone (character :: gap) List.suffix_rfl (List.cons_ne_nil _ _)
    rw [List.cons_append] at hhere ⊢
    rw [scan_skip hhere]
    exact ih fun tail htail => hnone tail (htail.trans (List.suffix_cons _ _))

/-- A match is read as a whole. -/
theorem scan_read (hshortens : Shortens next) (hnext : next (word ++ rest) = some rest) :
    scan next (word ++ rest) = word :: scan next rest := by
  have hlonger := hshortens _ _ hnext
  cases word with
  | nil => exact absurd hlonger (Nat.lt_irrefl _)
  | cons character word =>
    rw [List.cons_append] at hnext ⊢
    rw [scan, List.length_cons, scanFrom, hnext]
    simp only
    rw [scanFrom_of_le hshortens (by rw [List.length_append]; omega)]
    simp [Nat.succ_sub]

/-- What is found is a span of the text, and a match begins with it. -/
theorem of_mem_scan (hreads : ∀ text rest, next text = some rest → rest <:+ text)
    (hword : word ∈ scan next text) :
    ∃ before rest, text = before ++ (word ++ rest) ∧ next (word ++ rest) = some rest := by
  have hfrom : ∀ fuel (text : List Char), word ∈ scanFrom next fuel text →
      ∃ before rest, text = before ++ (word ++ rest) ∧ next (word ++ rest) = some rest := by
    intro fuel
    induction fuel with
    | zero => intro text hmem; cases hmem
    | succ fuel ih =>
      intro text hmem
      cases text with
      | nil => cases hmem
      | cons character tail =>
        rw [scanFrom] at hmem
        cases hnext : next (character :: tail) with
        | some rest =>
          obtain ⟨read, hread⟩ := hreads _ rest hnext
          have htake : (character :: tail).take (tail.length + 1 - rest.length) = read := by
            rw [← List.length_cons, ← hread]
            simp
          simp only [hnext, htake] at hmem
          rcases List.mem_cons.mp hmem with rfl | hlater
          · exact ⟨[], rest, hread.symm, by rw [hread]; exact hnext⟩
          · obtain ⟨before, after, hafter, hfound⟩ := ih rest hlater
            exact ⟨read ++ before, after, by rw [← hread, hafter, List.append_assoc], hfound⟩
        | none =>
          rw [hnext] at hmem
          obtain ⟨before, after, hafter, hfound⟩ := ih tail hmem
          exact ⟨character :: before, after, by rw [hafter, List.cons_append], hfound⟩
  exact hfrom _ text hword

end Scan

/-! ## Matches of a pattern -/

namespace Regex

/-- `pattern.findall(text)`, for a pattern that has no groups and never matches an empty
text. -/
def findall (regex : Regex) (text : List Char) : List (List Char) :=
  (regex.findIter text).map fun found =>
    found.1.after.take (found.1.after.length - found.2.after.length)

/-- The first match at a place is read off what stands after it. -/
def ReadsBy (regex : Regex) (next : List Char → Option (List Char)) : Prop :=
  ∀ place, ((regex.ends place).head?).map Place.after = next place.after

variable {next : List Char → Option (List Char)} {first second : Regex}

theorem findall_eq_scan {regex : Regex} (hreads : regex.ReadsBy next) (hshortens : Shortens next)
    (text : List Char) :
    regex.findall text = scan next text := by
  have hfrom : ∀ fuel place, (regex.findFrom fuel place).map (fun found =>
      found.1.after.take (found.1.after.length - found.2.after.length)) =
        scanFrom next fuel place.after := by
    intro fuel
    induction fuel with
    | zero => intro place; rfl
    | succ fuel ih =>
      rintro ⟨before, after⟩
      have hnext := hreads ⟨before, after⟩
      rw [findFrom]
      cases after with
      | nil =>
        have hnone : next [] = none := by
          cases hrest : next [] with
          | none => rfl
          | some rest => exact absurd (hshortens [] rest hrest) (Nat.not_lt_zero _)
        rw [hnone, Option.map_eq_none_iff, List.head?_eq_none_iff] at hnext
        rw [hnext]
        rfl
      | cons character tail =>
        cases hends : regex.ends ⟨before, character :: tail⟩ with
        | cons found rest =>
          rw [hends, List.head?_cons, Option.map_some] at hnext
          rw [scanFrom, ← hnext]
          simp only [List.map_cons, List.length_cons]
          rw [ih]
        | nil =>
          rw [hends] at hnext
          rw [scanFrom, ← hnext]
          exact ih _
  exact hfrom text.length ⟨[], text⟩

/-- A greedy run of a set of characters first reads all of them. -/
theorem head_greedy_char (accepts : Char → Bool) {fuel : ℕ} {place : Place}
    (hfuel : place.after.length ≤ fuel) :
    ((greedy (char accepts).ends fuel 0 place).head?).map Place.after =
      some (place.after.dropWhile accepts) := by
  induction fuel generalizing place with
  | zero =>
    rw [List.length_eq_zero_iff.mp (Nat.le_zero.mp hfuel)]
    simp [greedy, List.length_eq_zero_iff.mp (Nat.le_zero.mp hfuel)]
  | succ fuel ih =>
    rw [greedy, ends_char]
    cases hafter : place.after with
    | nil => simp [hafter]
    | cons character rest =>
      rw [hafter, List.length_cons] at hfuel
      cases haccepts : accepts character with
      | false => simp [haccepts, hafter]
      | true =>
        have hrest := @ih ⟨character :: place.before, rest⟩ (by simpa using hfuel)
        obtain ⟨found, hfound, hfoundAfter⟩ := Option.map_eq_some_iff.mp hrest
        simp only [haccepts, if_true, List.flatMap_cons, List.flatMap_nil, List.append_nil,
          List.head?_append, hfound, Option.some_or, Option.map_some,
          List.dropWhile_cons_of_pos]
        rw [hfoundAfter]

theorem readsBy_many1_char (accepts : Char → Bool) :
    (many1 (char accepts)).ReadsBy fun text =>
      if text.head?.any accepts then some (text.dropWhile accepts) else none := by
  rintro ⟨before, after⟩
  cases after with
  | nil => simp [many1, ends, greedy]
  | cons character rest =>
    cases haccepts : accepts character with
    | false =>
      have hnil := (@ends_many1_eq_nil_iff accepts ⟨before, character :: rest⟩).mpr
        (by simpa using haccepts)
      simp [hnil, haccepts]
    | true =>
      have hrest := @head_greedy_char accepts rest.length ⟨character :: before, rest⟩
        (Nat.le_refl _)
      have hgreedy : (many1 (char accepts)).ends ⟨before, character :: rest⟩ =
          greedy (char accepts).ends rest.length 0 ⟨character :: before, rest⟩ := by
        have hends : (char accepts).ends ⟨before, character :: rest⟩ =
            [⟨character :: before, rest⟩] := by
          simp [ends_char, haccepts]
        change greedy (char accepts).ends (min (rest.length + 1) (rest.length + 1)) 1 _ = _
        rw [Nat.min_self, greedy, hends]
        simp
      rw [hgreedy, hrest]
      simp [haccepts]

/-! ## What is left of a text -/

/-- All matches at a place are read off what stands after it. -/
def Reads (regex : Regex) (rests : List Char → List (List Char)) : Prop :=
  ∀ place, (regex.ends place).map Place.after = rests place.after

def dropWord (same : Char → Char → Bool) : List Char → List Char → Option (List Char)
  | [], text => some text
  | _ :: _, [] => none
  | letter :: letters, character :: text =>
    if same letter character then dropWord same letters text else none

theorem Reads.seq {read : List Char → List (List Char)} (hfirst : first.Reads read)
    (hsecond : second.Reads rests) :
    (Regex.seq first second).Reads fun text => (read text).flatMap rests := by
  intro place
  change _ = (read place.after).flatMap rests
  rw [ends_seq, List.map_flatMap, ← hfirst place, List.flatMap_map]
  exact List.flatMap_congr fun middle _ => hsecond middle

theorem reads_char (accepts : Char → Bool) :
    (char accepts).Reads fun text => (dropWord (fun _ => accepts) [' '] text).toList := by
  rintro ⟨before, after⟩
  rw [ends_char]
  cases after with
  | nil => rfl
  | cons character rest => cases haccepts : accepts character <;> simp [dropWord, haccepts]

theorem reads_word (same : Char → Char → Bool) (letters : List Char) :
    (word same letters).Reads fun text => (dropWord same letters text).toList := by
  induction letters with
  | nil => exact fun place => rfl
  | cons letter letters ih =>
    intro place
    rw [word, List.map_cons, inOrder, List.foldr_cons]
    refine (Reads.seq (reads_char (same letter)) ih place).trans ?_
    cases place.after with
    | nil => rfl
    | cons character rest => cases hsame : same letter character <;> simp [dropWord, hsame]

theorem reads_optional_char (accepts : Char → Bool) :
    (optional (char accepts)).Reads fun text =>
      (dropWord (fun _ => accepts) [' '] text).toList ++ [text] := by
  rintro ⟨before, after⟩
  cases after with
  | nil => simp [optional, ends, greedy, dropWord]
  | cons character rest =>
    have hends : (optional (char accepts)).ends ⟨before, character :: rest⟩ =
        greedy (char accepts).ends 1 0 ⟨before, character :: rest⟩ := by
      change greedy _ (min 1 (rest.length + 1)) 0 _ = _
      rw [Nat.min_eq_left (by omega)]
    rw [hends, greedy, ends_char]
    cases haccepts : accepts character <;> simp [greedy, dropWord, haccepts]

/-- One pattern behind another, when the first matches in one way at most. -/
theorem ReadsBy.seq {read : List Char → Option (List Char)}
    (hfirst : first.Reads fun text => (read text).toList) (hsecond : second.ReadsBy next) :
    (Regex.seq first second).ReadsBy fun text => (read text).bind next := by
  intro place
  have hread : (first.ends place).map Place.after = (read place.after).toList := hfirst place
  change _ = (read place.after).bind next
  rw [ends_seq]
  cases htext : read place.after with
  | none =>
    rw [htext, Option.toList_none, List.map_eq_nil_iff] at hread
    rw [hread]
    rfl
  | some rest =>
    rw [htext, Option.toList_some, List.map_eq_singleton_iff] at hread
    obtain ⟨middle, hends, rfl⟩ := hread
    rw [hends]
    simpa using hsecond middle

end Regex

end JobApplyAgent.Library
