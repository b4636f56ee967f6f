import JobApplyAgent.Discovery.Catalog

/-!
# What a snapshot closes

Every posting that the source has offered since the snapshot began was seen in it, or
stands at the offset of the cursor or behind it.  A scan whose pages are steady keeps
this from page to page, so a complete snapshot closes absent postings only.
-/

namespace JobApplyAgent.Discovery

open Domain Library TransitionSystem

/-- The occurrence with this key, if there is one, was seen since the instant. -/
def SeenSince (records : List SourceRecord) (startedAt : Timestamp) (key : String) : Prop :=
  ∀ record ∈ records, record.occurrenceKey = key → startedAt ≤ record.lastSeenAt

theorem SeenSince.map (hseen : SeenSince records startedAt key)
    (hkey : ∀ record, (change record).occurrenceKey = record.occurrenceKey)
    (hlater : ∀ record, startedAt ≤ record.lastSeenAt →
      startedAt ≤ (change record).lastSeenAt) :
    SeenSince (records.map change) startedAt key := by
  intro changed hmem hsame
  obtain ⟨record, hrecord, rfl⟩ := List.mem_map.mp hmem
  rw [hkey] at hsame
  exact hlater record (hseen record hrecord hsame)

theorem SeenSince.observe (hobserved : startedAt ≤ observedAt)
    (hseen : SeenSince records startedAt key) (posting : String) :
    SeenSince (observeRecord observedAt records posting) startedAt key := by
  unfold observeRecord
  split
  · apply hseen.map
    · intro record
      split <;> rfl
    · intro record hlater
      split
      · exact hobserved
      · exact hlater
  · intro record hmem hsame
    rcases List.mem_append.mp hmem with hold | hnew
    · exact hseen record hold hsame
    · rw [List.mem_singleton] at hnew
      rw [hnew]
      exact hobserved

theorem SeenSince.ingest (hobserved : startedAt ≤ observedAt)
    (hseen : SeenSince records startedAt key) (keys : List String) :
    SeenSince (ingestPage observedAt keys records) startedAt key := by
  unfold ingestPage
  induction keys generalizing records with
  | nil => exact hseen
  | cons posting keys ih => exact ih (hseen.observe hobserved posting)

theorem SeenSince.mark (hseen : SeenSince records startedAt key) (seenAt : Timestamp)
    (keys : List String) :
    SeenSince (markSnapshotOccurrencesSeen seenAt keys records) startedAt key := by
  apply hseen.map
  · intro record
    split <;> rfl
  · intro record hlater
    split
    · exact hlater.trans (le_max_left _ _)
    · exact hlater

theorem seenSince_marked (hkey : key ∈ keys)
    (hseen : startedAt ≤ seenAt) :
    SeenSince (markSnapshotOccurrencesSeen seenAt keys records) startedAt key := by
  intro marked hmem hsame
  obtain ⟨record, _, rfl⟩ := List.mem_map.mp hmem
  split at hsame
  · next hmarked =>
    rw [if_pos hmarked]
    exact hseen.trans (le_max_right _ _)
  · next hother => exact absurd (hsame ▸ hkey) hother

theorem SeenSince.reconcile (hseen : SeenSince records startedAt key)
    (origin closedAt : Timestamp) :
    SeenSince (reconcileSourceSnapshot origin closedAt records) startedAt key := by
  apply hseen.map
  · intro record
    split <;> rfl
  · intro record hlater
    split <;> exact hlater

/-! ## Snapshots and cursors -/

/-- What a snapshot relies on at a cursor: its postings are still offered while it is
open, and each was seen or is not before the offset. -/
structure Covers (now : Timestamp) (ids : List String) (seen : String → Prop)
    (cursor : CatalogCursor) (snapshot : SnapshotState) : Prop where
  started : snapshot.startedAt ≤ now
  offered : snapshot.pending = false → ∀ id ∈ snapshot.present, id ∈ ids
  covered : ∀ id ∈ snapshot.present, seen id ∨
    snapshot.pending = false ∧ id ∉ jobIds (cursor.origin.take cursor.offset)

theorem Covers.mono {seen : String → Prop}
    (hcovers : Covers now ids seen cursor snapshot) (hnow : now ≤ later)
    (hseen : ∀ id, seen id → sooner id) : Covers later ids sooner cursor snapshot where
  started := hcovers.started.trans hnow
  offered := hcovers.offered
  covered := fun id hid => (hcovers.covered id hid).imp_left (hseen id)

theorem Covers.follow {seen : String → Prop}
    (hcovers : Covers now ids seen cursor snapshot) :
    Covers now more seen cursor (snapshot.follow more) := by
  unfold SnapshotState.follow
  split
  · next hpending =>
    refine ⟨hcovers.started, fun hopen => ?_, hcovers.covered⟩
    rw [hpending] at hopen
    cases hopen
  · constructor
    · exact hcovers.started
    · intro _ id hid
      simpa using (List.mem_filter.mp hid).2
    · intro id hid
      exact hcovers.covered id (List.mem_filter.mp hid).1

theorem Covers.at_cursor {seen : String → Prop}
    (hcovers : Covers now ids seen cursor snapshot) (hoffset : other.offset = cursor.offset)
    (horigin : other.origin = cursor.origin) : Covers now ids seen other snapshot where
  started := hcovers.started
  offered := hcovers.offered
  covered := by
    rw [hoffset, horigin]
    exact hcovers.covered

/-- A complete snapshot has seen all that it relies on. -/
theorem Covers.seen {seen : String → Prop} (hcovers : Covers now ids seen cursor snapshot)
    (hpending : snapshot.pending = true) {id : String} (hid : id ∈ snapshot.present) : seen id := by
  rcases hcovers.covered id hid with hseen | ⟨hopen, _⟩
  · exact hseen
  · rw [hpending] at hopen
    cases hopen

theorem beginSnapshot_covers (seen : String → Prop) (hoffset : cursor.offset = 0) :
    Covers state.now (jobIds (offeredNow ats state)) seen cursor (beginSnapshot ats state) := by
  refine ⟨le_rfl, fun _ id hid => hid, fun id _ => .inr ⟨rfl, ?_⟩⟩
  rw [hoffset]
  exact List.not_mem_nil

/-! ## Pages -/

section Pages

theorem fetchSlice_shape (hfetch : fetchSlice cursor source response limit complete = some page) :
    page.cursor.origin = source ∧ page.rows = response.rows := by
  unfold fetchSlice at hfetch
  split at hfetch
  · cases hfetch
  cases hfetch
  exact ⟨rfl, rfl⟩

theorem fetchWholeList_shape
    (hrestart : (fetchWholeList ats cursor response maxJobs).restart = false)
    (hmodified : (fetchWholeList ats cursor response maxJobs).notModified = false) :
    (fetchWholeList ats cursor response maxJobs).cursor.origin = offered ats response.rows ∧
      (fetchWholeList ats cursor response maxJobs).rows =
        ((offered ats response.rows).drop cursor.offset).take maxJobs := by
  unfold fetchWholeList at hrestart hmodified ⊢
  simp only at hrestart hmodified ⊢
  split at hrestart
  · cases hrestart
  next hsame =>
  rw [if_neg hsame] at hmodified ⊢
  split at hmodified
  · cases hmodified
  next hnew =>
  rw [if_neg hnew]
  exact ⟨rfl, rfl⟩

theorem readPage_shape
    (hread : readPage ats state maxJobs size totalFound notModified etag lastModified =
      some page) (hrestart : page.restart = false) (hmodified : page.notModified = false) :
    page.cursor.origin = offeredNow ats state ∧
      ∃ count, page.rows = ((offeredNow ats state).drop state.cursor.offset).take count := by
  unfold readPage at hread
  cases ats with
  | greenhouse =>
    cases hread
    obtain ⟨horigin, hrows⟩ := fetchWholeList_shape hrestart hmodified
    exact ⟨horigin, maxJobs, hrows⟩
  | ashby =>
    cases hread
    obtain ⟨horigin, hrows⟩ := fetchWholeList_shape hrestart hmodified
    exact ⟨horigin, maxJobs, hrows⟩
  | lever =>
    obtain ⟨horigin, hrows⟩ := fetchSlice_shape hread
    exact ⟨horigin, size, hrows⟩
  | smartrecruiters =>
    obtain ⟨horigin, hrows⟩ := fetchSlice_shape hread
    exact ⟨horigin, size, hrows⟩

variable {rows : List SourceRow} {row : SourceRow}

theorem mem_take_cases {first second : ℕ} (hrow : row ∈ rows.take second) :
    row ∈ rows.take first ∨ row ∈ (rows.drop first).take (second - first) := by
  by_cases hle : first ≤ second
  · have hsplit : rows.take second =
        rows.take first ++ (rows.drop first).take (second - first) := by
      rw [← List.take_add]
      congr
      omega
    rw [hsplit] at hrow
    exact List.mem_append.mp hrow
  · left
    have hshort : rows.take second = (rows.take first).take second := by
      rw [List.take_take]
      congr
      omega
    rw [hshort] at hrow
    exact List.mem_of_mem_take hrow

theorem mem_page_of_reached {count : ℕ}
    (hwindow : window = rows.take count)
    (hreach : reach ≤ window.length ∨ rows.length ≤ window.length) (hrow : row ∈ rows.take reach) :
    row ∈ window := by
  have hlength : window.length = min count rows.length := by
    rw [hwindow, List.length_take]
  by_cases hall : rows.length ≤ count
  · rw [hwindow, List.take_of_length_le hall]
    exact List.mem_of_mem_take hrow
  · have hle : reach ≤ count := by omega
    have hshort : rows.take reach = (rows.take count).take reach := by
      rw [List.take_take, Nat.min_eq_left hle]
    rw [hshort] at hrow
    rw [hwindow]
    exact List.mem_of_mem_take hrow

theorem mem_pageKeys (hrow : row ∈ rows) (haccepts : accepts ats row = true) :
    occurrenceKey row.jobId ∈ pageKeys ats occurrenceKey rows :=
  List.mem_map_of_mem (List.mem_map_of_mem (List.mem_filter.mpr ⟨hrow, haccepts⟩))

/-- A steady page carries what the snapshot relies on to the next cursor. -/
theorem Covers.read {seen : String → Prop}
    (hcovers : Covers state.now (jobIds (offeredNow ats state)) seen state.cursor snapshot)
    (hopen : snapshot.pending = false)
    (hread : readPage ats state maxJobs size totalFound notModified etag lastModified =
      some page) (hrestart : page.restart = false) (hmodified : page.notModified = false)
    (hsteady : SteadyPage ats state snapshot page) :
    Covers state.now (jobIds (offeredNow ats state))
      (fun id => seen id ∨ occurrenceKey id ∈ pageKeys ats occurrenceKey page.rows)
      page.cursor { snapshot with pending := page.complete } := by
  obtain ⟨horigin, count, hrows⟩ := readPage_shape hread hrestart hmodified
  refine ⟨hcovers.started, fun _ => hcovers.offered hopen, fun id hid => ?_⟩
  rcases hcovers.covered id hid with hseen | ⟨_, hahead⟩
  · exact .inl (.inl hseen)
  have hnot : id ∉ jobIds ((offeredNow ats state).take state.cursor.offset) :=
    (hsteady.order id hid).resolve_left hahead
  have hbehind : ∀ row ∈ offeredNow ats state, row.jobId = id →
      row ∉ (offeredNow ats state).take state.cursor.offset := by
    rintro row _ rfl hmem
    exact hnot (List.mem_map_of_mem hmem)
  have hlength : ((offeredNow ats state).drop state.cursor.offset).length =
      (offeredNow ats state).length - state.cursor.offset := List.length_drop
  cases hcomplete : page.complete with
  | true =>
    obtain ⟨row, hrow, rfl⟩ := List.mem_map.mp (hcovers.offered hopen id hid)
    have hlast := hsteady.last hcomplete
    have hall : row ∈ (offeredNow ats state).take (offeredNow ats state).length := by
      rwa [List.take_length]
    have hmem := (mem_take_cases hall).resolve_left (hbehind row hrow rfl)
    have hpage := mem_page_of_reached hrows (.inr (by omega)) hmem
    exact .inl (.inr (mem_pageKeys hpage (hsteady.rows row hrow)))
  | false =>
    by_cases hserved : id ∈ jobIds (page.cursor.origin.take page.cursor.offset)
    · rw [horigin] at hserved
      obtain ⟨row, hrow, rfl⟩ := List.mem_map.mp hserved
      have hoffered := List.mem_of_mem_take hrow
      have hbetween := hsteady.between hcomplete
      have hmem := (mem_take_cases hrow).resolve_left (hbehind row hoffered rfl)
      have hreach : page.cursor.offset - state.cursor.offset ≤ page.rows.length ∨
          ((offeredNow ats state).drop state.cursor.offset).length ≤ page.rows.length := by
        omega
      have hpage := mem_page_of_reached hrows hreach hmem
      exact .inl (.inr (mem_pageKeys hpage (hsteady.rows row hoffered)))
    · exact .inr ⟨rfl, hserved⟩

end Pages

end JobApplyAgent.Discovery
