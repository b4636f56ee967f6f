import JobApplyAgent.Discovery.MailboxRuns

/-!
# Every message in order is delivered

A labelled message is ingested or still newer than the cursor, so a listing that begins
after its arrival contains it.  A message behind the cursor is filtered for good.
-/

namespace JobApplyAgent.Discovery

open Library TransitionSystem

variable {parser : AlertParser} {before after state : MailState} {action : MailAction}
  {message : AlertMessage}

/-- A step that keeps the messages, the cursor and the count of finished listings. -/
structure Calm (before after : MailState) : Prop where
  labelled : after.labelled = before.labelled
  cursor : after.cursor = before.cursor
  listing : after.listing = before.listing
  finished : after.finished = before.finished
  handed : ∀ message, before.Handed message → after.Handed message

theorem performMail_cases (hstep : performMail parser before action = some after) :
    (∃ message, action = .arrive message ∧
        after = { before with labelled := message :: before.labelled }) ∨
      (action = .save ∧ ∃ cursor listing remaining,
        before.run = .saving cursor listing remaining ∧ after.labelled = before.labelled ∧
        after.cursor = cursor ∧ after.listing = listing ∧ after.handed = before.handed ∧
        after.finished = (if cursor.pageToken.isNone then before.finished + 1
          else before.finished) ∧ after.run = nextRun cursor listing remaining) ∨
      Calm before after := by
  cases performMail_moves hstep with
  | arrived message => exact .inl ⟨message, rfl, rfl⟩
  | @saved cursor listing remaining hrun =>
    exact .inr (.inl ⟨rfl, cursor, listing, remaining, hrun, rfl, rfl, rfl, rfl, rfl, rfl⟩)
  | begun | stopped | fetched => exact .inr (.inr ⟨rfl, rfl, rfl, rfl, fun _ hhanded => hhanded⟩)
  | ingested =>
    exact .inr (.inr ⟨rfl, rfl, rfl, rfl, fun _ hhanded => handed_append.mpr (.inl hhanded)⟩)

/-! ## In order -/

/-- Every labelled message can be read, and is ingested or newer than the cursor. -/
structure NewOk (parser : AlertParser) (state : MailState) : Prop where
  readable : ∀ message ∈ state.labelled, readable parser message = true
  pending : ∀ message ∈ state.labelled, state.Handed message ∨
    state.cursor.lastInternalDate < message.internalDate

variable {cursor : MailCursor} {listing : Listing} {remaining : ℕ} {later : MailState}

/-- At the end of a listing in order, what is not ingested is newer than its date. -/
theorem NewOk.saved (hok : MailOk state) (hnew : NewOk parser state)
    (horder : InOrder parser state .save) (hrun : state.run = .saving cursor listing remaining)
    (hmem : message ∈ state.labelled) :
    state.Handed message ∨ cursor.lastInternalDate < message.internalDate := by
  have hlisting := hok.run
  rw [hrun] at hlisting
  simp only [InOrder, hrun] at horder
  by_cases hhanded : state.Handed message
  · exact .inl hhanded
  have hlast := (hnew.pending message hmem).resolve_left hhanded
  have hdate := hlisting.date
  cases htoken : cursor.pageToken with
  | some token =>
    rw [htoken, Option.isSome_some, if_pos rfl] at hdate
    exact .inr (hdate ▸ hlast)
  | none =>
    rw [htoken, Option.isSome_none, if_neg Bool.false_ne_true] at hdate
    by_cases hserved : message ∈ listing.served
    · exact .inl (hlisting.ready message hserved hlast)
    right
    rw [hdate]
    rcases hlisting.reached with hsame | ⟨newest, hnewest, hreached⟩
    · rwa [hsame]
    · rw [← hreached]
      exact horder htoken message hmem hhanded hserved newest hnewest

theorem NewOk.step (hok : MailOk before) (hnew : NewOk parser before)
    (horder : InOrder parser before action)
    (hstep : performMail parser before action = some after) : NewOk parser after := by
  rcases performMail_cases hstep with ⟨arrived, rfl, rfl⟩ |
    ⟨rfl, cursor, listing, remaining, hrun, hlabelled, hcursor, _, hhanded, _⟩ | hcalm
  · constructor
    · intro message hmem
      rcases List.mem_cons.mp hmem with rfl | hold
      · exact horder.1
      · exact hnew.readable message hold
    · intro message hmem
      rcases List.mem_cons.mp hmem with rfl | hold
      · exact .inr horder.2
      · exact hnew.pending message hold
  · constructor
    · rw [hlabelled]
      exact hnew.readable
    · intro message hmem
      rw [hlabelled] at hmem
      unfold MailState.Handed
      rw [hcursor, hhanded]
      exact hnew.saved hok horder hrun hmem
  · constructor
    · rw [hcalm.labelled]
      exact hnew.readable
    · intro message hmem
      rw [hcalm.labelled] at hmem
      rw [hcalm.cursor]
      exact (hnew.pending message hmem).imp_left (hcalm.handed message)

theorem orderOk_invariant (parser : AlertParser) :
    (mailSystem parser).Invariant (InOrder parser)
      (fun state => MailOk state ∧ NewOk parser state) where
  init := by
    rintro state rfl
    refine ⟨mailStart_ok, ?_, ?_⟩
    · exact fun _ hmem => absurd hmem List.not_mem_nil
    · exact fun _ hmem => absurd hmem List.not_mem_nil
  step := fun _ _ _ hok horder hstep =>
    ⟨hok.1.step hstep.1 hstep.2, hok.2.step hok.1 horder hstep.2⟩

def RunBegun (message : AlertMessage) : MailRun → Prop
  | .ingesting _ listing _ | .saving _ listing _ => message ∈ listing.begun
  | _ => True

/-- The listing under way, if there is one, began with the message. -/
def BegunWith (message : AlertMessage) (state : MailState) : Prop :=
  (state.cursor.pageToken.isSome = true → message ∈ state.listing.begun) ∧
    RunBegun message state.run

theorem runBegun_nextRun (message : AlertMessage) (cursor : MailCursor) (listing : Listing)
    (remaining : ℕ) : RunBegun message (nextRun cursor listing remaining) := by
  rcases nextRun_cases cursor listing remaining with hidle | ⟨rest, hfetching⟩
  · rw [hidle]
    trivial
  · rw [hfetching]
    trivial

/-- The message is ingested before the second listing after the given count is finished. -/
def DueAfter (count : ℕ) (message : AlertMessage) (state : MailState) : Prop :=
  message ∈ state.labelled ∧
    (state.Handed message ∨ state.finished ≤ count ∨
      state.finished = count + 1 ∧ BegunWith message state)

theorem matchesQuery_newer {last : ℤ} (hnew : last < message.internalDate)
    (hlast : 0 ≤ last) : matchesQuery last message = true := by
  unfold matchesQuery
  rw [Bool.or_eq_true, decide_eq_true_eq, decide_eq_true_eq]
  right
  omega

/-- A listing goes on with what it began with. -/
theorem BegunWith.step (hok : MailOk before) (hbegun : BegunWith message before)
    (hmem : message ∈ before.labelled)
    (hnew : before.cursor.lastInternalDate < message.internalDate)
    (hstep : performMail parser before action = some after)
    (hcursor : after.cursor = before.cursor) (hlisting : after.listing = before.listing) :
    BegunWith message after := by
  refine ⟨by rw [hcursor, hlisting]; exact hbegun.1, ?_⟩
  have hwithin := hbegun.2
  cases performMail_moves hstep with
  | arrived => exact hwithin
  | begun | stopped => trivial
  | fetched hrun =>
    have hrunOk := hok.run
    rw [hrun] at hrunOk
    obtain ⟨rfl, rfl⟩ := hrunOk
    change message ∈ (nextListing _ _ _ _).begun
    unfold nextListing
    cases htoken : before.cursor.pageToken with
    | some rest => exact hbegun.1 (by simp [htoken])
    | none =>
      change message ∈ owedMessages before.labelled before.cursor
      unfold owedMessages
      rw [htoken]
      exact List.mem_filter.mpr ⟨hmem, matchesQuery_newer hnew hok.nonneg⟩
  | ingested hrun =>
    rw [hrun] at hwithin
    exact hwithin
  | saved => exact runBegun_nextRun ..

theorem DueAfter.step {count : ℕ} (hok : MailOk before) (hnew : NewOk parser before)
    (horder : InOrder parser before action)
    (hstep : performMail parser before action = some after)
    (hdue : DueAfter count message before) : DueAfter count message after := by
  obtain ⟨hmem, hdue⟩ := hdue
  by_cases hhanded : before.Handed message
  · rcases performMail_cases hstep with ⟨arrived, rfl, rfl⟩ |
      ⟨rfl, _, _, _, _, hlabelled, _, _, hsame, _⟩ | hcalm
    · exact ⟨List.mem_cons_of_mem _ hmem, .inl hhanded⟩
    · refine ⟨hlabelled ▸ hmem, .inl ?_⟩
      unfold MailState.Handed
      rw [hsame]
      exact hhanded
    · exact ⟨hcalm.labelled ▸ hmem, .inl (hcalm.handed message hhanded)⟩
  · have hlast : before.cursor.lastInternalDate < message.internalDate :=
      (hnew.pending message hmem).resolve_left hhanded
    have hcount := hdue.resolve_left hhanded
    rcases performMail_cases hstep with ⟨arrived, rfl, rfl⟩ |
      ⟨rfl, cursor, listing, remaining, hrun, hlabelled, hcursor, hlisting, hsame, hfinished,
        hrunAfter⟩ | hcalm
    · exact ⟨List.mem_cons_of_mem _ hmem, .inr hcount⟩
    · refine ⟨hlabelled ▸ hmem, ?_⟩
      have hrunOk := hok.run
      rw [hrun] at hrunOk
      cases htoken : cursor.pageToken with
      | some token =>
        rw [htoken, Option.isNone_some, if_neg Bool.false_ne_true] at hfinished
        rcases hcount with hle | ⟨heq, hbegun⟩
        · exact .inr (.inl (hfinished ▸ hle))
        refine .inr (.inr ⟨hfinished ▸ heq, ?_, ?_⟩)
        · intro _
          have hsaving := hbegun.2
          rw [hrun] at hsaving
          rw [hlisting]
          exact hsaving
        · rw [hrunAfter]
          exact runBegun_nextRun ..
      | none =>
        rw [htoken, Option.isNone_none, if_pos rfl] at hfinished
        rcases hcount with hle | ⟨heq, hbegun⟩
        · by_cases hlt : before.finished + 1 ≤ count
          · exact .inr (.inl (hfinished ▸ hlt))
          refine .inr (.inr ⟨by omega, ?_, ?_⟩)
          · intro hsome
            rw [hcursor, htoken] at hsome
            cases hsome
          · rw [hrunAfter]
            exact runBegun_nextRun ..
        · left
          have hsaving := hbegun.2
          rw [hrun] at hsaving
          unfold MailState.Handed
          rw [hsame]
          rcases hrunOk.covered message hsaving with hserved | ⟨rest, hrest, _⟩
          · exact hrunOk.ready message hserved hlast
          · rw [htoken] at hrest
            cases hrest
    · refine ⟨hcalm.labelled ▸ hmem, .inr ?_⟩
      rw [hcalm.finished]
      refine hcount.imp_right fun hbegun => ⟨hbegun.1, ?_⟩
      exact hbegun.2.step hok hmem hlast hstep hcalm.cursor hcalm.listing

/-- In every run in order, a labelled message is ingested once two more listings are
finished. -/
theorem handed_after_two (hreach : (mailSystem parser).Reachable (InOrder parser) state)
    (hmem : message ∈ state.labelled)
    (hpath : (mailSystem parser).Path (InOrder parser) state later)
    (hfinished : state.finished + 2 ≤ later.finished) : later.Handed message := by
  have hstart : DueAfter state.finished message state := ⟨hmem, .inr (.inl le_rfl)⟩
  have hdue : ∀ reached, (mailSystem parser).Path (InOrder parser) state reached →
      DueAfter state.finished message reached := by
    intro reached hreached
    induction hreached with
    | refl => exact hstart
    | tail hhead hnext ih =>
      obtain ⟨label, horder, hserves, hstep⟩ := hnext
      obtain ⟨hok, hnew⟩ := (orderOk_invariant parser).reachable (hreach.trans hhead)
      exact ih.step hok hnew horder hstep
  rcases (hdue later hpath).2 with hhanded | hle | ⟨heq, _⟩
  · exact hhanded
  · omega
  · omega

/-- From every state of a run in order, one page with everything delivers the message. -/
theorem can_be_handed (hreach : (mailSystem parser).Reachable (InOrder parser) state)
    (hmem : message ∈ state.labelled) :
    ∃ later, (mailSystem parser).Path (InOrder parser) state later ∧
      later.Handed message := by
  obtain ⟨hok, hnew⟩ := (orderOk_invariant parser).reachable hreach
  by_cases hhanded : state.Handed message
  · exact ⟨state, .refl, hhanded⟩
  have hlast := (hnew.pending message hmem).resolve_left hhanded
  have hrows : (state.labelled.map some).reduceOption = state.labelled := by
    simp [List.reduceOption]
  have hread : ∃ result, (state.labelled.map some).foldlM
      (readRow parser state.cursor.lastInternalDate) (state.cursor.newest, []) =
        .ok result :=
    readRows_readable (by rw [hrows]; exact hnew.readable)
  obtain ⟨⟨newest, messages⟩, hread⟩ := hread
  have hfetch : fetchGmailAlertPage parser state.cursor (state.labelled.map some) none =
      .ok ⟨messages, pageCursor state.cursor newest none⟩ := by
    unfold fetchGmailAlertPage
    rw [hread]
    rfl
  -- The run starts again and serves every labelled message on one page.
  let idle : MailState := { state with run := .idle }
  let fetching : MailState :=
    { state with run := .fetching state.cursor state.listing 1 }
  let ingesting : MailState :=
    { state with
      run := .ingesting ⟨messages, pageCursor state.cursor newest none⟩
        (nextListing state.labelled state.cursor state.listing (state.labelled.map some)) 1 }
  have howed : ∀ found ∈ owedMessages state.labelled state.cursor,
      found ∈ state.labelled := by
    intro found hfound
    unfold owedMessages at hfound
    split at hfound
    · next rest hrest =>
      exact (hok.within (by simp [hrest])).owed rest hrest found hfound
    · exact (List.mem_filter.mp hfound).1
  have hserves : Serves fetching (.fetch (state.labelled.map some) none) := by
    refine ⟨fun found hfound => .inl ?_, fun found hfound => ?_, ?_⟩
    · rw [hrows]
      exact howed found hfound
    · rwa [hrows] at hfound
    · exact fun _ hrest => nomatch hrest
  have hstepFetch : performMail parser fetching
      (.fetch (state.labelled.map some) none) = some ingesting := by
    simp only [performMail, fetching, hfetch, ingesting]
  refine ⟨{ ingesting with
      handed := state.handed ++ messages
      run := .saving (pageCursor state.cursor newest none)
        (nextListing state.labelled state.cursor state.listing (state.labelled.map some)) 1 },
    ?_, handed_append.mpr (.inr ?_)⟩
  · have hidle : (mailSystem parser).Path (InOrder parser) state idle :=
      Relation.ReflTransGen.single ⟨.fail, trivial, trivial, rfl⟩
    have hbegun := hidle.tail ⟨.begin 1, trivial, trivial, (rfl : _ = some fetching)⟩
    have hfetched := hbegun.tail
      ⟨.fetch (state.labelled.map some) none, trivial, hserves, hstepFetch⟩
    exact hfetched.tail ⟨.ingest, trivial, trivial, rfl⟩
  · exact (readRows_read hread).parsed message (by rwa [hrows]) hlast

/-! ## Behind the cursor -/

/-- The message is behind the cursor and no page under way has parsed it. -/
structure Behind (message : AlertMessage) (state : MailState) : Prop where
  date : message.internalDate ≤ state.cursor.lastInternalDate
  notHanded : ¬ state.Handed message
  notParsed : ∀ page listing remaining, state.run = .ingesting page listing remaining →
    message ∉ page.messages.map Prod.fst

theorem nextRun_ne_ingesting {inner : Listing} {rest : ℕ} {page : MailPage} :
    nextRun cursor listing remaining ≠ .ingesting page inner rest := by
  rcases nextRun_cases cursor listing remaining with hidle | ⟨_, hfetching⟩
  · simp [hidle]
  · simp [hfetching]

theorem Behind.step (hok : MailOk before) (hbehind : Behind message before)
    (hstep : performMail parser before action = some after) : Behind message after := by
  have hdate : message.internalDate ≤ after.cursor.lastInternalDate :=
    hbehind.date.trans (hok.dateKept hstep).1
  cases performMail_moves hstep with
  | arrived => exact ⟨hdate, hbehind.notHanded, hbehind.notParsed⟩
  | begun | stopped => exact ⟨hdate, hbehind.notHanded, fun _ _ _ hrun => by cases hrun⟩
  | fetched hrun hfetch =>
    have hrunOk := hok.run
    rw [hrun] at hrunOk
    obtain ⟨rfl, rfl⟩ := hrunOk
    refine ⟨hdate, hbehind.notHanded, fun _ _ _ hrun => ?_⟩
    cases hrun
    obtain ⟨newest, _, hread⟩ := fetchGmailAlertPage_eq_ok hfetch
    intro hparsed
    obtain ⟨parsed, hmem, rfl⟩ := List.mem_map.mp hparsed
    rcases hread.newer parsed hmem with hstart | hnew
    · cases hstart
    · exact absurd hbehind.date (not_le.mpr hnew)
  | ingested hrun =>
    refine ⟨hdate, fun hhanded => ?_, fun _ _ _ hrun => by cases hrun⟩
    rcases handed_append.mp hhanded with hold | hparsed
    · exact hbehind.notHanded hold
    · exact hbehind.notParsed _ _ _ hrun hparsed
  | saved =>
    exact ⟨hdate, hbehind.notHanded, fun _ _ _ hrun => absurd hrun nextRun_ne_ingesting⟩

/-- A message behind the cursor is ingested by no later run. -/
theorem behind_forever (hreach : (mailSystem parser).Reachable anyMail state)
    (hbehind : Behind message state) (hpath : (mailSystem parser).Path anyMail state later) :
    ¬ later.Handed message := by
  have hlater : Behind message later := by
    induction hpath with
    | refl => exact hbehind
    | tail hhead hnext ih =>
      obtain ⟨label, _, _, hstep⟩ := hnext
      exact ih.step ((mailOk_invariant anyMail).reachable (hreach.trans hhead)) hstep
  exact hlater.notHanded

/-- The date of the cursor only moves forward, at the end of a listing whose messages were
all ingested; and in every run in order each labelled message is ingested, at the latest
when two more listings are finished. -/
theorem mailbox_delivers (parser : AlertParser) :
    (∀ state, (mailSystem parser).Reachable anyMail state →
      ∀ action after, (mailSystem parser).step state action after → DateKept state after) ∧
    (∀ state, (mailSystem parser).Reachable (InOrder parser) state →
      ∀ message ∈ state.labelled,
        (∀ later, (mailSystem parser).Path (InOrder parser) state later →
          state.finished + 2 ≤ later.finished → later.Handed message) ∧
        ∃ later, (mailSystem parser).Path (InOrder parser) state later ∧
          later.Handed message) := by
  constructor
  · intro state hreach action after hstep
    exact ((mailOk_invariant anyMail).reachable hreach).dateKept hstep.2
  · intro state hreach message hmem
    exact ⟨fun later hpath => handed_after_two hreach hmem hpath, can_be_handed hreach hmem⟩

/-- A decoder and an extractor that accept every message. -/
def sampleParser : AlertParser where
  decodeRaw := fun _ => some [0]
  extract := fun _ _ _ => some []

def newerAlert : AlertMessage := ⟨"m-2", 2000, "AA"⟩

def olderAlert : AlertMessage := ⟨"m-1", 1000, "AA"⟩

/-- A listing with the newer message is finished; then the older one gets the label. -/
def lateRun : List MailAction :=
  [.arrive newerAlert, .begin 50, .fetch [some newerAlert] none, .ingest, .save,
    .arrive olderAlert]

def laterAlert : AlertMessage := ⟨"m-3", 9000, "AA"⟩

/-- Three listings.  The query of the second one still matches the last second, that of the third
one leaves out the first message, which was ingested long ago. -/
def orderedRun : List MailAction :=
  [.begin 50, .fetch [some newerAlert] none, .ingest, .save, .arrive laterAlert,
    .begin 50, .fetch [some laterAlert, some newerAlert] none, .ingest, .save,
    .begin 50, .fetch [some laterAlert] none, .ingest, .save]

instance (state : MailState) : (action : MailAction) → Decidable (Serves state action)
  | .fetch rows token =>
    match hrun : state.run with
    | .fetching cursor _ _ =>
      decidable_of_iff
        ((∀ message ∈ owedMessages state.labelled cursor,
          message ∈ rows.reduceOption ∨ ∃ rest ∈ token, message ∈ rest.owed) ∧
        (∀ message ∈ rows.reduceOption, message ∈ state.labelled) ∧
        ∀ rest ∈ token, ∀ message ∈ rest.owed, message ∈ state.labelled)
        (by simp only [Serves, hrun])
    | .idle | .ingesting _ _ _ | .saving _ _ _ =>
      .isTrue (by simp only [Serves, hrun])
  | .arrive _ | .begin _ | .ingest | .save | .fail => .isTrue trivial

instance (state : MailState) : (action : MailAction) →
    Decidable (InOrder sampleParser state action)
  | .save =>
    match hrun : state.run with
    | .saving cursor listing _ =>
      decidable_of_iff
        (cursor.pageToken = none → ∀ message ∈ state.labelled,
          message ∉ state.handed.map Prod.fst → message ∉ listing.served →
          ∀ served ∈ listing.served, served.internalDate < message.internalDate)
        (by simp only [InOrder, hrun, MailState.Handed])
    | .idle | .fetching _ _ _ | .ingesting _ _ _ =>
      .isTrue (by simp only [InOrder, hrun])
  | .arrive message => inferInstanceAs (Decidable (_ ∧ _))
  | .begin _ | .fetch _ _ | .ingest | .fail => .isTrue trivial

/-- One step that the service and the code go through with. -/
def sampleStep (state : MailState) (action : MailAction) : Option MailState :=
  if Serves state action then performMail sampleParser state action else none

theorem sampleStep_step (before : MailState) (action : MailAction) (after : MailState)
    (hstep : sampleStep before action = some after) :
    (mailSystem sampleParser).step before action after := by
  unfold sampleStep at hstep
  split at hstep
  · next hserves => exact ⟨hserves, hstep⟩
  · cases hstep

def orderedStart : MailState :=
  runEnd sampleStep (fun state action => decide (InOrder sampleParser state action)) mailStart
    [.arrive newerAlert]

def orderedEnd : Option MailState :=
  runWhile sampleStep (fun state action => decide (InOrder sampleParser state action))
    orderedStart orderedRun

theorem mailbox_delivers_sample :
    DateKept orderedStart ((sampleStep orderedStart (.begin 50)).getD mailStart) ∧
      ∃ later, orderedEnd = some later ∧ orderedStart.finished + 2 ≤ later.finished ∧
        later.Handed newerAlert := by
  have hreach : (mailSystem sampleParser).Reachable (InOrder sampleParser) orderedStart :=
    runEnd_reachable sampleStep_step (fun _ _ hcheck => of_decide_eq_true hcheck) rfl _
  have hmem : newerAlert ∈ orderedStart.labelled := by decide
  have hsome : orderedEnd.any (fun later => orderedStart.finished + 2 ≤ later.finished) =
      true := by decide
  constructor
  · exact (mailbox_delivers sampleParser).1 orderedStart (hreach.mono fun _ _ _ => trivial)
      (.begin 50) _ (sampleStep_step _ _ _ rfl)
  · obtain ⟨later, hlater, hfinished⟩ := (Option.any_eq_true ..).mp hsome
    have hpath : (mailSystem sampleParser).Path (InOrder sampleParser) orderedStart later :=
      runWhile_path sampleStep_step (fun _ _ hcheck => of_decide_eq_true hcheck) hlater
    have htwo := of_decide_eq_true hfinished
    refine ⟨later, hlater, htwo, ?_⟩
    exact ((mailbox_delivers sampleParser).2 orderedStart hreach newerAlert hmem).1 later
      hpath htwo

def lateEnd : MailState :=
  runEnd sampleStep (fun _ _ => true) mailStart lateRun

/-- The older message is labelled, and no later run ever ingests it. -/
theorem late_alert_lost :
    (mailSystem sampleParser).Reachable anyMail lateEnd ∧ olderAlert ∈ lateEnd.labelled ∧
      ∀ later, (mailSystem sampleParser).Path anyMail lateEnd later →
        ¬ later.Handed olderAlert := by
  have hreach : (mailSystem sampleParser).Reachable anyMail lateEnd :=
    runEnd_reachable sampleStep_step (fun _ _ _ => trivial) rfl _
  have hidle : lateEnd.run = .idle := rfl
  have hbehind : Behind olderAlert lateEnd := by
    refine ⟨by decide, ?_, fun _ _ _ hrun => ?_⟩
    · unfold MailState.Handed
      decide
    · rw [hidle] at hrun
      cases hrun
  exact ⟨hreach, by decide, fun later hpath => behind_forever hreach hbehind hpath⟩

end JobApplyAgent.Discovery
