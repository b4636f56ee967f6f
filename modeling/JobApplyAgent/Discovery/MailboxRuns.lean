import Mathlib.Data.List.ReduceOption
import Mathlib.Order.MinMax
import JobApplyAgent.Discovery.Mailbox

/-!
# What the mailbox cursor keeps

The date of the cursor only grows, and only when a listing whose pages were all ingested
is finished.  A message that arrives in order is ingested before the second listing after
its arrival is finished; one that arrives behind the cursor never is.
-/

namespace JobApplyAgent.Discovery

open Library TransitionSystem

variable {before state : MailState}

section Pages

variable {rows : List (Option AlertMessage)}

/-- What reading the messages of a page yields from what was read before. -/
structure RowsRead (last : ℤ) (served : List AlertMessage)
    (start result : ℤ × List ParsedMessage) : Prop where
  grown : start.1 ≤ result.1
  bounded : ∀ message ∈ served, message.internalDate ≤ result.1
  reached : result.1 = start.1 ∨ ∃ message ∈ served, message.internalDate = result.1
  kept : ∀ parsed ∈ start.2, parsed ∈ result.2
  parsed : ∀ message ∈ served, last < message.internalDate →
    message ∈ result.2.map Prod.fst
  newer : ∀ parsed ∈ result.2, parsed ∈ start.2 ∨ last < parsed.1.internalDate

variable {message : AlertMessage}

theorem readRow_some (hread : readRow parser last start (some message) = .ok middle) :
    middle.1 = max start.1 message.internalDate ∧
      (message.internalDate ≤ last ∧ middle.2 = start.2 ∨
        last < message.internalDate ∧
          ∃ postings, middle.2 = start.2 ++ [(message, postings)]) := by
  unfold readRow at hread
  simp only [bind_eq_ok] at hread
  obtain ⟨bytes, _, hread⟩ := hread
  split at hread
  · next hold =>
    cases hread
    exact ⟨rfl, .inl ⟨hold, rfl⟩⟩
  · next hnew =>
    rw [bind_eq_ok] at hread
    obtain ⟨postings, _, hread⟩ := hread
    cases hread
    exact ⟨rfl, .inr ⟨not_le.mp hnew, postings, rfl⟩⟩

theorem readRows_read (hread : rows.foldlM (readRow parser last) start = .ok result) :
    RowsRead last rows.reduceOption start result := by
  induction rows generalizing start with
  | nil =>
    cases hread
    refine ⟨le_rfl, ?_, .inl rfl, fun _ hmem => hmem, ?_, fun _ hmem => .inl hmem⟩
    · exact fun _ hmem => absurd hmem (by simp)
    · exact fun _ hmem => absurd hmem (by simp)
  | cons row rows ih =>
    rw [List.foldlM_cons, bind_eq_ok] at hread
    obtain ⟨middle, hrow, hrest⟩ := hread
    have hrows := ih hrest
    cases row with
    | none =>
      cases hrow
      rw [List.reduceOption_cons_of_none]
      exact hrows
    | some message =>
      obtain ⟨hnewest, hparsed⟩ := readRow_some hrow
      have hstart : start.1 ≤ middle.1 := by
        rw [hnewest]
        exact le_max_left _ _
      have hdate : message.internalDate ≤ middle.1 := by
        rw [hnewest]
        exact le_max_right _ _
      have hkept : ∀ parsed ∈ start.2, parsed ∈ middle.2 := by
        intro parsed hmem
        rcases hparsed with ⟨_, hsame⟩ | ⟨_, postings, happended⟩
        · rwa [hsame]
        · rw [happended]
          exact List.mem_append_left _ hmem
      rw [List.reduceOption_cons_of_some]
      refine ⟨hstart.trans hrows.grown, ?_, ?_, ?_, ?_, ?_⟩
      · intro found hfound
        rcases List.mem_cons.mp hfound with rfl | hfound
        · exact hdate.trans hrows.grown
        · exact hrows.bounded found hfound
      · rcases hrows.reached with hsame | ⟨found, hfound, hreached⟩
        · rw [hsame, hnewest]
          rcases max_choice start.1 message.internalDate with hmax | hmax
          · exact .inl hmax
          · exact .inr ⟨message, List.mem_cons_self, hmax.symm⟩
        · exact .inr ⟨found, List.mem_cons_of_mem _ hfound, hreached⟩
      · exact fun parsed hmem => hrows.kept parsed (hkept parsed hmem)
      · intro found hfound hnew
        rcases List.mem_cons.mp hfound with rfl | hfound
        · rcases hparsed with ⟨hold, _⟩ | ⟨_, postings, happended⟩
          · exact absurd hnew (not_lt.mpr hold)
          · have hmiddle : (found, postings) ∈ middle.2 := by simp [happended]
            exact List.mem_map_of_mem (hrows.kept _ hmiddle)
        · exact hrows.parsed found hfound hnew
      · intro parsed hmem
        rcases hrows.newer parsed hmem with hmiddle | hnew
        · rcases hparsed with ⟨_, hsame⟩ | ⟨hnew, postings, happended⟩
          · exact .inl (hsame ▸ hmiddle)
          rw [happended, List.mem_append, List.mem_singleton] at hmiddle
          rcases hmiddle with hstart | rfl
          · exact .inl hstart
          · exact .inr hnew
        · exact .inr hnew

theorem readRow_readable (hreadable : readable parser message = true) :
    ∃ middle, readRow parser last start (some message) = .ok middle := by
  unfold readable at hreadable
  unfold readRow
  cases hbytes : messageBytes parser message with
  | error failure => simp [hbytes] at hreadable
  | ok bytes =>
    simp only [hbytes] at hreadable
    cases hparse : parseJobAlertMessage parser bytes message with
    | error failure => simp [hparse, Except.toBool] at hreadable
    | ok postings =>
      simp only [hbytes, hparse, bind, Except.bind]
      by_cases hold : message.internalDate ≤ last
      · rw [if_pos hold]
        exact ⟨_, rfl⟩
      · rw [if_neg hold]
        exact ⟨_, rfl⟩

theorem readRows_readable
    (hreadable : ∀ message ∈ rows.reduceOption, readable parser message = true) :
    ∃ result, rows.foldlM (readRow parser last) start = .ok result := by
  induction rows generalizing start with
  | nil => exact ⟨start, rfl⟩
  | cons row rows ih =>
    have hrow : ∃ middle, readRow parser last start row = .ok middle ∧
        ∀ message ∈ rows.reduceOption, readable parser message = true := by
      cases row with
      | none =>
        rw [List.reduceOption_cons_of_none] at hreadable
        exact ⟨start, rfl, hreadable⟩
      | some message =>
        rw [List.reduceOption_cons_of_some] at hreadable
        obtain ⟨middle, hmiddle⟩ := readRow_readable (hreadable message List.mem_cons_self)
        exact ⟨middle, hmiddle, fun found hmem =>
          hreadable found (List.mem_cons_of_mem _ hmem)⟩
    obtain ⟨middle, hmiddle, hrest⟩ := hrow
    obtain ⟨result, hresult⟩ := ih hrest
    refine ⟨result, ?_⟩
    rw [List.foldlM_cons, hmiddle]
    exact hresult

theorem fetchGmailAlertPage_eq_ok
    (hfetch : fetchGmailAlertPage parser cursor rows token = .ok page) :
    ∃ newest, page.cursor = pageCursor cursor newest token ∧
      RowsRead cursor.lastInternalDate rows.reduceOption (cursor.newest, [])
        (newest, page.messages) := by
  unfold fetchGmailAlertPage at hfetch
  rw [bind_eq_ok] at hfetch
  obtain ⟨⟨newest, messages⟩, hread, hpage⟩ := hfetch
  cases hpage
  exact ⟨newest, rfl, readRows_read hread⟩

end Pages

/-! ## The listing of a cursor -/

/-- A cursor within or at the end of its listing, over the date of the last finished one:
all that the listing began with was served or is owed, and the new ones among the served
are ready. -/
structure ListingOk (labelled : List AlertMessage) (last : ℤ) (ready : AlertMessage → Prop)
    (cursor : MailCursor) (listing : Listing) : Prop where
  date : cursor.lastInternalDate =
    if cursor.pageToken.isSome then last else cursor.maxInternalDate
  grown : last ≤ cursor.maxInternalDate
  covered : ∀ message ∈ listing.begun, message ∈ listing.served ∨
    ∃ rest ∈ cursor.pageToken, message ∈ rest.owed
  bounded : ∀ message ∈ listing.served, message.internalDate ≤ cursor.maxInternalDate
  reached : cursor.maxInternalDate = last ∨
    ∃ message ∈ listing.served, message.internalDate = cursor.maxInternalDate
  ready : ∀ message ∈ listing.served, last < message.internalDate → ready message
  owed : ∀ rest ∈ cursor.pageToken, ∀ message ∈ rest.owed, message ∈ labelled

theorem ListingOk.mono {ready : AlertMessage → Prop}
    (hlisting : ListingOk labelled last ready cursor listing)
    (hlabelled : ∀ message ∈ labelled, message ∈ more)
    (hready : ∀ message, ready message → sooner message) :
    ListingOk more last sooner cursor listing where
  date := hlisting.date
  grown := hlisting.grown
  covered := hlisting.covered
  bounded := hlisting.bounded
  reached := hlisting.reached
  ready := fun message hmem hnew => hready message (hlisting.ready message hmem hnew)
  owed := fun rest hrest message hmem => hlabelled message (hlisting.owed rest hrest message hmem)

def RunOk (state : MailState) : MailRun → Prop
  | .idle => True
  | .fetching cursor listing _ => cursor = state.cursor ∧ listing = state.listing
  | .ingesting page listing _ =>
    ListingOk state.labelled state.cursor.lastInternalDate
      (fun message => state.Handed message ∨ message ∈ page.messages.map Prod.fst)
      page.cursor listing
  | .saving cursor listing _ =>
    ListingOk state.labelled state.cursor.lastInternalDate state.Handed cursor listing

structure MailOk (state : MailState) : Prop where
  nonneg : 0 ≤ state.cursor.lastInternalDate
  atRest : state.cursor.pageToken = none →
    state.cursor.maxInternalDate = state.cursor.lastInternalDate
  within : state.cursor.pageToken.isSome = true →
    ListingOk state.labelled state.cursor.lastInternalDate state.Handed state.cursor
      state.listing
  run : RunOk state state.run

theorem MailOk.newest_eq (hok : MailOk state) :
    state.cursor.newest = state.cursor.maxInternalDate := by
  unfold MailCursor.newest
  split
  · next hzero =>
    have hnonneg := hok.nonneg
    cases htoken : state.cursor.pageToken with
    | none => rw [hok.atRest htoken]
    | some token =>
      have hgrown := (hok.within (by simp [htoken])).grown
      omega
  · rfl

/-- A page that the service has served for the durable cursor goes on with its listing. -/
theorem MailOk.fetched (hok : MailOk state)
    (howed : ∀ message ∈ owedMessages state.labelled state.cursor,
      message ∈ rows.reduceOption ∨ ∃ rest ∈ token, message ∈ rest.owed)
    (htoken : ∀ rest ∈ token, ∀ message ∈ rest.owed, message ∈ state.labelled)
    (hfetch : fetchGmailAlertPage parser state.cursor rows token = .ok page) :
    ListingOk state.labelled state.cursor.lastInternalDate
      (fun message => state.Handed message ∨ message ∈ page.messages.map Prod.fst)
      page.cursor (nextListing state.labelled state.cursor state.listing rows) := by
  obtain ⟨newest, hcursor, hread⟩ := fetchGmailAlertPage_eq_ok hfetch
  have hstart := hread.grown
  have hreached := hread.reached
  simp only [hok.newest_eq] at hstart hreached
  rw [hcursor]
  unfold nextListing
  cases hdurable : state.cursor.pageToken with
  | none =>
    rw [hok.atRest hdurable] at hstart hreached
    exact ⟨rfl, hstart, howed, hread.bounded, hreached,
      fun message hmem hnew => .inr (hread.parsed message hmem hnew), htoken⟩
  | some durable =>
    have hlisting := hok.within (by simp [hdurable])
    unfold owedMessages at howed
    simp only [hdurable] at howed
    refine ⟨rfl, hlisting.grown.trans hstart, ?_, ?_, ?_, ?_, htoken⟩
    · intro message hbegun
      rcases hlisting.covered message hbegun with hserved | ⟨rest, hrest, hmem⟩
      · exact .inl (List.mem_append_left _ hserved)
      rw [hdurable, Option.mem_some_iff] at hrest
      subst hrest
      rcases howed message hmem with hrow | hlater
      · exact .inl (List.mem_append_right _ hrow)
      · exact .inr hlater
    · intro message hmem
      rcases List.mem_append.mp hmem with hserved | hrow
      · exact (hlisting.bounded message hserved).trans hstart
      · exact hread.bounded message hrow
    · rcases hreached with hsame | ⟨message, hrow, hdate⟩
      · rcases hlisting.reached with hlast | ⟨message, hserved, hdate⟩
        · exact .inl (hsame.trans hlast)
        · exact .inr ⟨message, List.mem_append_left _ hserved, hdate.trans hsame.symm⟩
      · exact .inr ⟨message, List.mem_append_right _ hrow, hdate⟩
    · intro message hmem hnew
      rcases List.mem_append.mp hmem with hserved | hrow
      · exact .inl (hlisting.ready message hserved hnew)
      · exact .inr (hread.parsed message hrow hnew)

theorem handed_append {message : AlertMessage} :
    message ∈ (state.handed ++ messages).map Prod.fst ↔
      state.Handed message ∨ message ∈ messages.map Prod.fst := by
  unfold MailState.Handed
  rw [List.map_append, List.mem_append]

theorem mailStart_ok : MailOk mailStart where
  nonneg := le_rfl
  atRest := fun _ => rfl
  within := fun htoken => by simp [mailStart, MailCursor.empty] at htoken
  run := trivial

theorem nextRun_cases (cursor : MailCursor) (listing : Listing) (remaining : ℕ) :
    nextRun cursor listing remaining = .idle ∨
      ∃ rest, nextRun cursor listing remaining = .fetching cursor listing rest := by
  unfold nextRun
  simp only
  split
  · exact .inl rfl
  · exact .inr ⟨_, rfl⟩

theorem MailOk.saved (hok : MailOk state)
    (hrun : state.run = .saving cursor listing remaining) :
    MailOk { state with
      cursor := cursor
      listing := listing
      finished := if cursor.pageToken.isNone then state.finished + 1 else state.finished
      run := nextRun cursor listing remaining } := by
  have hlisting : ListingOk state.labelled state.cursor.lastInternalDate state.Handed cursor
      listing := by
    have hrunOk := hok.run
    rw [hrun] at hrunOk
    exact hrunOk
  have hdate := hlisting.date
  refine ⟨?_, ?_, ?_, ?_⟩
  · change 0 ≤ cursor.lastInternalDate
    rw [hdate]
    split
    · exact hok.nonneg
    · exact hok.nonneg.trans hlisting.grown
  · intro htoken
    change cursor.pageToken = none at htoken
    rw [htoken] at hdate
    exact hdate.symm
  · intro htoken
    change cursor.pageToken.isSome = true at htoken
    rw [if_pos htoken] at hdate
    change ListingOk state.labelled cursor.lastInternalDate state.Handed cursor listing
    rw [hdate]
    exact hlisting
  · change RunOk _ (nextRun cursor listing remaining)
    rcases nextRun_cases cursor listing remaining with hidle | ⟨rest, hfetching⟩
    · rw [hidle]
      trivial
    · rw [hfetching]
      exact ⟨rfl, rfl⟩

/-- What a step does to the state: a page that cannot be read ends the run like a failure. -/
inductive MailMove (parser : AlertParser) (before : MailState) : MailAction → MailState → Prop
  | arrived (message : AlertMessage) : MailMove parser before (.arrive message)
      { before with labelled := message :: before.labelled }
  | begun (maxMessages : ℕ) : MailMove parser before (.begin maxMessages)
      { before with run := .fetching before.cursor before.listing maxMessages }
  | stopped (action : MailAction) : MailMove parser before action { before with run := .idle }
  | fetched {rows : List (Option AlertMessage)} {token : Option PageToken} {cursor : MailCursor}
      {listing : Listing} {remaining : ℕ} {page : MailPage}
      (hrun : before.run = .fetching cursor listing remaining)
      (hfetch : fetchGmailAlertPage parser cursor rows token = .ok page) :
      MailMove parser before (.fetch rows token) { before with
        run := .ingesting page (nextListing before.labelled cursor listing rows) remaining }
  | ingested {page : MailPage} {listing : Listing} {remaining : ℕ}
      (hrun : before.run = .ingesting page listing remaining) :
      MailMove parser before .ingest { before with
        handed := before.handed ++ page.messages
        run := .saving page.cursor listing remaining }
  | saved {cursor : MailCursor} {listing : Listing} {remaining : ℕ}
      (hrun : before.run = .saving cursor listing remaining) :
      MailMove parser before .save { before with
        cursor := cursor
        listing := listing
        finished := if cursor.pageToken.isNone then before.finished + 1 else before.finished
        run := nextRun cursor listing remaining }

theorem performMail_moves (hstep : performMail parser before action = some after) :
    MailMove parser before action after := by
  cases action with
  | arrive message =>
    cases hstep
    exact .arrived message
  | begin maxMessages =>
    simp only [performMail] at hstep
    split at hstep
    · split at hstep
      · cases hstep
      cases hstep
      exact .begun maxMessages
    · cases hstep
  | fetch rows token =>
    simp only [performMail] at hstep
    split at hstep
    · next hrun =>
      split at hstep
      · cases hstep
        exact .stopped _
      · next hfetch =>
        cases hstep
        exact .fetched hrun hfetch
    · cases hstep
  | ingest =>
    simp only [performMail] at hstep
    split at hstep
    · next hrun =>
      cases hstep
      exact .ingested hrun
    · cases hstep
  | save =>
    simp only [performMail] at hstep
    split at hstep
    · next hrun =>
      cases hstep
      exact .saved hrun
    · cases hstep
  | fail =>
    cases hstep
    exact .stopped _

theorem MailOk.step (hok : MailOk before) (hserves : Serves before action)
    (hstep : performMail parser before action = some after) : MailOk after := by
  have hrunOk := hok.run
  cases performMail_moves hstep with
  | arrived message =>
    have hmore : ∀ found ∈ before.labelled, found ∈ message :: before.labelled :=
      fun found hfound => List.mem_cons_of_mem _ hfound
    refine ⟨hok.nonneg, hok.atRest, fun htoken => (hok.within htoken).mono hmore ?_, ?_⟩
    · exact fun _ hhanded => hhanded
    · change RunOk { before with labelled := message :: before.labelled } before.run
      cases hphase : before.run with
      | idle => trivial
      | fetching cursor listing remaining =>
        rw [hphase] at hrunOk
        exact hrunOk
      | ingesting page listing remaining | saving cursor listing remaining =>
        rw [hphase] at hrunOk
        exact ListingOk.mono hrunOk hmore fun _ hready => hready
  | begun maxMessages => exact ⟨hok.nonneg, hok.atRest, hok.within, ⟨rfl, rfl⟩⟩
  | stopped => exact ⟨hok.nonneg, hok.atRest, hok.within, trivial⟩
  | fetched hrun hfetch =>
    rw [hrun] at hrunOk
    obtain ⟨rfl, rfl⟩ := hrunOk
    simp only [Serves, hrun] at hserves
    exact ⟨hok.nonneg, hok.atRest, hok.within, hok.fetched hserves.1 hserves.2.2 hfetch⟩
  | ingested hrun =>
    rw [hrun] at hrunOk
    refine ⟨hok.nonneg, hok.atRest, fun htoken => (hok.within htoken).mono ?_ ?_, ?_⟩
    · exact fun _ hmem => hmem
    · exact fun _ hhanded => handed_append.mpr (.inl hhanded)
    · exact ListingOk.mono hrunOk (fun _ hmem => hmem) fun _ hready =>
        handed_append.mpr hready
  | saved hrun => exact hok.saved hrun

theorem mailOk_invariant (guard : MailState → MailAction → Prop) :
    (mailSystem parser).Invariant guard MailOk where
  init := by
    rintro state rfl
    exact mailStart_ok
  step := fun _ _ _ hok _ hstep => hok.step hstep.1 hstep.2

/-! ## The date of the cursor -/

/-- The run is about to save the end of a listing: all that it began with was served, and
what was new of it is ingested. -/
def ListingDone (state : MailState) : Prop :=
  ∃ cursor listing remaining, state.run = .saving cursor listing remaining ∧
    cursor.pageToken = none ∧ (∀ message ∈ listing.begun, message ∈ listing.served) ∧
    ∀ message ∈ listing.served,
      state.cursor.lastInternalDate < message.internalDate → state.Handed message

/-- The date of the cursor after a step. -/
def DateKept (before after : MailState) : Prop :=
  before.cursor.lastInternalDate ≤ after.cursor.lastInternalDate ∧
    (after.cursor.lastInternalDate ≠ before.cursor.lastInternalDate → ListingDone before)

theorem dateKept_of_eq (hsame : after.cursor = before.cursor) : DateKept before after := by
  unfold DateKept
  rw [hsame]
  exact ⟨le_rfl, fun hmoved => absurd rfl hmoved⟩

theorem MailOk.dateKept (hok : MailOk before)
    (hstep : performMail parser before action = some after) : DateKept before after := by
  cases performMail_moves hstep with
  | @saved cursor listing remaining hrun =>
    have hlisting := hok.run
    rw [hrun] at hlisting
    have hdate := hlisting.date
    unfold DateKept
    change _ ≤ cursor.lastInternalDate ∧ (cursor.lastInternalDate ≠ _ → _)
    cases htoken : cursor.pageToken with
    | some token =>
      rw [htoken, Option.isSome_some, if_pos rfl] at hdate
      rw [hdate]
      exact ⟨le_rfl, fun hmoved => absurd rfl hmoved⟩
    | none =>
      rw [htoken, Option.isSome_none, if_neg Bool.false_ne_true] at hdate
      refine ⟨hdate ▸ hlisting.grown, fun _ =>
        ⟨cursor, listing, remaining, hrun, htoken, ?_, hlisting.ready⟩⟩
      intro message hbegun
      rcases hlisting.covered message hbegun with hserved | ⟨rest, hrest, _⟩
      · exact hserved
      · rw [htoken] at hrest
        cases hrest
  | arrived | begun | stopped | fetched | ingested => exact dateKept_of_eq rfl

end JobApplyAgent.Discovery
