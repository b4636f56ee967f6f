import JobApplyAgent.Bridge.Forwarding
import JobApplyAgent.Ingestion.ExtractorAgreement

/-!
# Links that are seen again

Whatever the index retains was forwarded.  So a link that no forward has delivered is passed
over only while the entry of an earlier forward is retained, one that failed or has not been
answered; and everything else a handler comes to is forwarded.
-/

namespace JobApplyAgent.Bridge

open Library

variable {Digest : Type} [DecidableEq Digest]

/-! ## Turns -/

/-- A turn that comes to a link. -/
def Reaches (session : Session Digest) (event : Event) (link : List Char) (lookedAt : ℤ) : Prop :=
  ∃ handler markedAt remaining, event = .turn handler lookedAt markedAt ∧
    session.handlers.entry handler = some ⟨.url link :: remaining, none⟩

section Turns

variable (platform : Platform Digest) (config : Config) (limits : Limits)

/-- The index still holds an entry for an item. -/
def Retained (session : Session Digest) (item : Item) (lookedAt : ℤ) : Prop :=
  platform.digest item.dedupKey ∈ (session.seenArchiveItems.prune limits lookedAt).keys

/-- A turn that begins the forward of a link. -/
def Forwards (session : Session Digest) (event : Event) (link : List Char) : Prop :=
  ∃ handler lookedAt markedAt remaining, event = .turn handler lookedAt markedAt ∧
    session.handlers.entry handler = some ⟨.url link :: remaining, none⟩ ∧
    (perform platform config limits session event).handlers.entry handler =
      some ⟨remaining, some (.url link)⟩

/-- The forward of an item has been asked for and has not been answered. -/
def UnderWay (session : Session Digest) (item : Item) : Prop :=
  ∃ handler remaining, session.handlers.entry handler = some ⟨remaining, some item⟩

/-- The forward of an item has been asked for. -/
def Begun (session : Session Digest) (item : Item) : Prop :=
  item ∈ session.succeeded ∨ item ∈ session.failed ∨ UnderWay session item

variable {platform config limits} {session : Session Digest}

variable {item : Item} {lookedAt : ℤ}

theorem perform_turn (hentry : session.handlers.entry handler = some ⟨item :: remaining, none⟩) :
    perform platform config limits session (.turn handler lookedAt markedAt) =
      visit platform limits session handler item remaining lookedAt markedAt := by
  rw [perform, hentry]

theorem entry_visit (hentry : session.handlers.entry handler = some ⟨item :: remaining, none⟩) :
    (visit platform limits session handler item remaining lookedAt markedAt).handlers.entry
        handler =
      some ⟨remaining, if (session.seenArchiveItems.has limits lookedAt
        (platform.digest item.dedupKey)).1 then none else some item⟩ := by
  rw [visit]
  split
  · exact Slots.entry_put_self hentry _
  · exact Slots.entry_put_self hentry _

theorem forwards_iff (hreaches : Reaches session event link lookedAt) :
    Forwards platform config limits session event link ↔
      ¬ Retained platform limits session (.url link) lookedAt := by
  obtain ⟨handler, markedAt, remaining, rfl, hentry⟩ := hreaches
  rw [Retained, ← SeenIndex.has_iff_mem_keys]
  constructor
  · rintro ⟨other, _, _, others, hevent, hother, hforwards⟩ hseen
    cases hevent
    rw [hentry] at hother
    cases hother
    rw [perform_turn hentry, entry_visit hentry, if_pos hseen] at hforwards
    cases hforwards
  · intro hunseen
    refine ⟨handler, lookedAt, markedAt, remaining, rfl, hentry, ?_⟩
    rw [perform_turn hentry, entry_visit hentry, if_neg hunseen]

/-! ## What a handler goes through -/

/-- What an event does to a handler: it leaves the items that remain, or takes the first. -/
theorem entry_perform (hentry : session.handlers.entry index = some handler)
    (event : Event) :
    ∃ next, (perform platform config limits session event).handlers.entry index = some next ∧
      (next.remaining = handler.remaining ∨ ∃ item lookedAt markedAt,
        event = .turn index lookedAt markedAt ∧ handler = ⟨item :: next.remaining, none⟩) := by
  cases event with
  | live message => exact ⟨handler, Slots.entry_add_of_entry hentry _, .inl rfl⟩
  | archived message => exact ⟨handler, Slots.entry_add_of_entry hentry _, .inl rfl⟩
  | turn place lookedAt markedAt =>
    by_cases hplace : index = place
    · subst hplace
      obtain ⟨remaining, underWay⟩ := handler
      cases underWay with
      | some item =>
        refine ⟨_, ?_, .inl rfl⟩
        simp only [perform, hentry]
      | none =>
        cases remaining with
        | nil =>
          refine ⟨_, ?_, .inl rfl⟩
          simp only [perform, hentry]
        | cons item remaining =>
          refine ⟨_, by rw [perform_turn hentry]; exact entry_visit hentry, .inr ?_⟩
          exact ⟨item, lookedAt, markedAt, rfl, rfl⟩
    · refine ⟨handler, ?_, .inl rfl⟩
      rw [perform]
      split
      · rw [visit]
        split
        · exact (Slots.entry_put_of_ne _ _ hplace).trans hentry
        · exact (Slots.entry_put_of_ne _ _ hplace).trans hentry
      · exact hentry
  | answered place ok =>
    by_cases hplace : index = place
    · subst hplace
      obtain ⟨remaining, underWay⟩ := handler
      cases underWay with
      | none =>
        refine ⟨_, ?_, .inl rfl⟩
        simp only [perform, hentry]
      | some item =>
        refine ⟨⟨remaining, none⟩, ?_, .inl rfl⟩
        rw [perform, hentry]
        exact Slots.entry_put_self hentry _
    · refine ⟨handler, ?_, .inl rfl⟩
      rw [perform]
      split
      · exact (Slots.entry_put_of_ne _ _ hplace).trans hentry
      · exact hentry

/-- Every item of a handler still remains, or a turn has come to it. -/
theorem remains_or_visited (hentry : session.handlers.entry index = some handler)
    (hitem : item ∈ handler.remaining)
    (events : List Event) :
    (∃ last, (events.foldl (perform platform config limits) session).handlers.entry index =
        some last ∧ item ∈ last.remaining) ∨
      ∃ middle lookedAt markedAt later remaining,
        events = middle ++ .turn index lookedAt markedAt :: later ∧
          (middle.foldl (perform platform config limits) session).handlers.entry index =
            some ⟨item :: remaining, none⟩ := by
  induction events generalizing session handler with
  | nil => exact .inl ⟨handler, hentry, hitem⟩
  | cons event events ih =>
    obtain ⟨next, hnext, hchange⟩ := @entry_perform _ _ platform config limits _ _ _
      hentry event
    have hgo : item ∈ next.remaining →
        (∃ last, ((event :: events).foldl (perform platform config limits)
            session).handlers.entry index = some last ∧ item ∈ last.remaining) ∨
          ∃ middle lookedAt markedAt later remaining,
            event :: events = middle ++ .turn index lookedAt markedAt :: later ∧
              (middle.foldl (perform platform config limits) session).handlers.entry index =
                some ⟨item :: remaining, none⟩ := by
      intro hmem
      rcases ih hnext hmem with hlast | ⟨middle, lookedAt, markedAt, later, remaining, rfl, hhere⟩
      · exact .inl hlast
      · exact .inr ⟨event :: middle, lookedAt, markedAt, later, remaining, rfl, hhere⟩
    rcases hchange with hsame | ⟨first, lookedAt, markedAt, rfl, rfl⟩
    · exact hgo (by rw [hsame]; exact hitem)
    · rcases List.mem_cons.mp hitem with rfl | hmem
      · exact .inr ⟨[], lookedAt, markedAt, events, next.remaining, rfl, hentry⟩
      · exact hgo hmem

/-! ## Whatever is retained was forwarded -/

/-- A forward that was asked for stays asked for. -/
theorem Begun.perform (hbegun : Begun session item) (event : Event) :
    Begun (perform platform config limits session event) item := by
  cases event with
  | live message =>
    refine hbegun.imp id (Or.imp id ?_)
    rintro ⟨handler, remaining, hentry⟩
    exact ⟨handler, remaining, Slots.entry_add_of_entry hentry _⟩
  | archived message =>
    refine hbegun.imp id (Or.imp id ?_)
    rintro ⟨handler, remaining, hentry⟩
    exact ⟨handler, remaining, Slots.entry_add_of_entry hentry _⟩
  | turn place lookedAt markedAt =>
    rw [Bridge.perform]
    split
    · next first others hplace =>
      have hsucceeded : (visit platform limits session place first others lookedAt
          markedAt).succeeded = session.succeeded := by
        rw [visit]
        split <;> rfl
      have hfailed : (visit platform limits session place first others lookedAt
          markedAt).failed = session.failed := by
        rw [visit]
        split <;> rfl
      rw [Begun, hsucceeded, hfailed]
      refine hbegun.imp id (Or.imp id ?_)
      rintro ⟨handler, remaining, hentry⟩
      have hother : handler ≠ place := by
        rintro rfl
        rw [hplace] at hentry
        cases hentry
      refine ⟨handler, remaining, ?_⟩
      rw [visit]
      split
      · exact (Slots.entry_put_of_ne _ _ hother).trans hentry
      · exact (Slots.entry_put_of_ne _ _ hother).trans hentry
    · exact hbegun
  | answered place ok =>
    rw [Bridge.perform]
    split
    · next remaining answered hplace =>
      rcases hbegun with hsucceeded | hfailed | ⟨handler, others, hentry⟩
      · left
        cases ok with
        | true => exact .tail _ hsucceeded
        | false => exact hsucceeded
      · right
        left
        cases ok with
        | true => exact hfailed
        | false => exact .tail _ hfailed
      · by_cases hother : handler = place
        · subst hother
          rw [hplace] at hentry
          cases hentry
          cases ok with
          | true => exact .inl (.head _)
          | false => exact .inr (.inl (.head _))
        · exact .inr (.inr ⟨handler, others, (Slots.entry_put_of_ne _ _ hother).trans hentry⟩)
    · exact hbegun

variable (platform) in
/-- Every digest in the index is the one of an item whose forward was asked for. -/
def Traced (session : Session Digest) : Prop :=
  ∀ key ∈ session.seenArchiveItems.keys, ∃ item,
    platform.digest item.dedupKey = key ∧ Begun session item

theorem Traced.perform (htraced : Traced platform session) (event : Event) :
    Traced platform (perform platform config limits session event) := by
  have hkept : ∀ key ∈ session.seenArchiveItems.keys, ∃ item,
      platform.digest item.dedupKey = key ∧
        Begun (Bridge.perform platform config limits session event) item := by
    intro key hkey
    obtain ⟨item, hdigest, hbegun⟩ := htraced key hkey
    exact ⟨item, hdigest, hbegun.perform event⟩
  intro key hkey
  cases event with
  | live message => exact hkept key hkey
  | archived message => exact hkept key hkey
  | turn place lookedAt markedAt =>
    cases hplace : session.handlers.entry place with
    | none =>
      simp only [Bridge.perform, hplace] at hkey
      exact hkept key hkey
    | some handler =>
      obtain ⟨remaining, underWay⟩ := handler
      cases underWay with
      | some item =>
        simp only [Bridge.perform, hplace] at hkey
        exact hkept key hkey
      | none =>
        cases remaining with
        | nil =>
          simp only [Bridge.perform, hplace] at hkey
          exact hkept key hkey
        | cons item remaining =>
          have hentry := @entry_visit _ _ platform limits _ _ lookedAt _ _ markedAt
            hplace
          rw [perform_turn hplace] at hkey
          rw [visit] at hkey
          split at hkey
          · exact hkept key (SeenIndex.mem_keys_of_mem_has hkey)
          next hunseen =>
          rcases SeenIndex.mem_keys_of_mem_add hkey with rfl | hold
          · refine ⟨item, rfl, .inr (.inr ⟨place, remaining, ?_⟩)⟩
            rw [perform_turn hplace, hentry, if_neg hunseen]
          · exact hkept key (SeenIndex.mem_keys_of_mem_has hold)
  | answered place ok =>
    have hindex : (Bridge.perform platform config limits session
        (.answered place ok)).seenArchiveItems = session.seenArchiveItems := by
      rw [Bridge.perform]
      split <;> rfl
    rw [hindex] at hkey
    exact hkept key hkey

theorem traced_performAll (events : List Event) :
    Traced platform (performAll platform config limits events) := by
  have hfrom : ∀ session : Session Digest, Traced platform session →
      Traced platform (events.foldl (perform platform config limits) session) := by
    induction events with
    | nil => exact fun _ htraced => htraced
    | cons event events ih => exact fun session htraced => ih _ (htraced.perform event)
  exact hfrom .start fun key hkey => by cases hkey

end Turns

/-! ## No link is lost and none repeated -/

section Runs

variable (platform : Platform Digest) (config : Config) (limits : Limits)

/-- In a run, a link whose forward succeeded is not forwarded again while its entry is
retained; a link that no forward has delivered is forwarded by every turn that comes to it;
and every link of a message stays before its handler until a turn comes to it. -/
structure Delivers (events : List Event) : Prop where
  notRepeated : ∀ before event after, events = before ++ event :: after → ∀ link lookedAt,
    Reaches (performAll platform config limits before) event link lookedAt →
      .url link ∈ (performAll platform config limits before).succeeded →
      Retained platform limits (performAll platform config limits before) (.url link) lookedAt →
        ¬ Forwards platform config limits (performAll platform config limits before) event link
  retried : ∀ before event after, events = before ++ event :: after → ∀ link lookedAt,
    Reaches (performAll platform config limits before) event link lookedAt →
      .url link ∉ (performAll platform config limits before).succeeded →
        Forwards platform config limits (performAll platform config limits before) event link
  visited : ∀ before event after message, events = before ++ event :: after →
    event = .live message ∨ event = .archived message →
      ∀ link, .url link ∈ processMessage platform config message →
        (∃ handler, (performAll platform config limits events).handlers.entry
            (performAll platform config limits before).handlers.length = some handler ∧
          .url link ∈ handler.remaining) ∨
        ∃ middle turn later lookedAt, after = middle ++ turn :: later ∧
          Reaches (performAll platform config limits (before ++ event :: middle)) turn link lookedAt

/-- A turn comes to a link that no forward has delivered, while an entry is retained for it:
the one of a forward that failed or has not been answered, or of another item with the same
digest. -/
def PassesOver (session : Session Digest) (event : Event) : Prop :=
  ∃ link lookedAt, Reaches session event link lookedAt ∧ .url link ∉ session.succeeded ∧
    Retained platform limits session (.url link) lookedAt ∧
      (.url link ∈ session.failed ∨ UnderWay session (.url link) ∨
        ∃ item ≠ .url link, platform.digest item.dedupKey = platform.digest link ∧
          Begun session item)

variable {platform config limits}

theorem performAll_append (before after : List Event) :
    performAll platform config limits (before ++ after) =
      after.foldl (perform platform config limits) (performAll platform config limits before) :=
  List.foldl_append

omit [DecidableEq Digest] in
/-- What is retained and not delivered failed, or is under way, or shares its digest. -/
theorem retained_cause {session : Session Digest} (htraced : Traced platform session)
    (hfresh : .url link ∉ session.succeeded)
    (hretained : Retained platform limits session (.url link) lookedAt) :
    .url link ∈ session.failed ∨ UnderWay session (.url link) ∨
      ∃ item ≠ .url link, platform.digest item.dedupKey = platform.digest link ∧
        Begun session item := by
  obtain ⟨item, hdigest, hbegun⟩ := htraced _ (SeenIndex.mem_keys_of_mem_prune hretained)
  by_cases hsame : item = .url link
  · subst hsame
    exact (hbegun.resolve_left hfresh).imp id .inl
  · exact .inr (.inr ⟨item, hsame, hdigest, hbegun⟩)

theorem visited_of_observed {before : List Event} {message : Message}
    (hobserved : event = .live message ∨ event = .archived message)
    (hlink : .url link ∈ processMessage platform config message) :
    (∃ handler, (performAll platform config limits (before ++ event :: after)).handlers.entry
        (performAll platform config limits before).handlers.length = some handler ∧
      .url link ∈ handler.remaining) ∨
    ∃ middle turn later lookedAt, after = middle ++ turn :: later ∧
      Reaches (performAll platform config limits (before ++ event :: middle)) turn link
        lookedAt := by
  have hentry : (perform platform config limits (performAll platform config limits before)
      event).handlers.entry (performAll platform config limits before).handlers.length =
        some ⟨processMessage platform config message, none⟩ := by
    rcases hobserved with rfl | rfl
    · exact Slots.entry_add_self _ _
    · rw [← processArchiveMessage_eq]
      exact Slots.entry_add_self _ _
  rw [performAll_append]
  rcases remains_or_visited hentry hlink after with hlast | ⟨middle, lookedAt, markedAt, later,
    remaining, rfl, hhere⟩
  · exact .inl hlast
  · refine .inr ⟨middle, _, later, lookedAt, rfl, _, markedAt, remaining, rfl, ?_⟩
    rw [performAll_append]
    exact hhere

/-- A run delivers exactly when no turn of it passes over a link that was not delivered. -/
theorem delivers_iff (events : List Event) :
    Delivers platform config limits events ↔
      ∀ before event after, events = before ++ event :: after →
        ¬ PassesOver platform limits (performAll platform config limits before) event := by
  constructor
  · rintro hdelivers before event after hevents ⟨link, lookedAt, hreaches, hfresh, hretained, _⟩
    have hforwards := hdelivers.retried before event after hevents link lookedAt hreaches hfresh
    exact (forwards_iff hreaches).mp hforwards hretained
  · intro hnone
    constructor
    · intro before event after _ link lookedAt hreaches _ hretained hforwards
      exact (forwards_iff hreaches).mp hforwards hretained
    · intro before event after hevents link lookedAt hreaches hfresh
      rw [forwards_iff hreaches]
      intro hretained
      exact hnone before event after hevents ⟨link, lookedAt, hreaches, hfresh, hretained,
        retained_cause (traced_performAll before) hfresh hretained⟩
    · rintro before event after message rfl hobserved link hlink
      exact visited_of_observed hobserved hlink

end Runs

/-! ## A rescan after a failure -/

def postingLink : List Char := "https://jobs.lever.co/acme/1".toList

def postingMessage : Message where
  body := postingLink
  quotedBody := []

/-- A runtime that knows the host of the posting, and whose digests are the values. -/
def samplePlatform : Platform (List Char) where
  digest := id
  hostname url := if url = postingLink then some "jobs.lever.co".toList else none
  toLowerCase text := text.map Char.toLower

def defaultConfig : Config where
  jobUrlOnly := true
  forwardTextPosts := false

/-- The forward of a link fails, and a second later a rescan finds the same message. -/
def outage : List Event :=
  [.live postingMessage, .turn 0 0 0, .answered 0 false, .archived postingMessage]

theorem processMessage_postingMessage :
    processMessage samplePlatform defaultConfig postingMessage = [.url postingLink] := by
  have hextracted : Ingestion.bridgeExtractUrls postingMessage.fullText = [postingLink] := by
    rw [Ingestion.bridgeExtractUrls_eq, Ingestion.found_eq_scan Ingestion.lawful_bridge]
    decide
  have hhost : isJobUrl samplePlatform postingLink = true := by decide
  rw [processMessage, hextracted]
  simp [forwardable, hhost]

theorem performAll_outage :
    performAll samplePlatform defaultConfig defaultLimits outage =
      { seenArchiveItems := SeenIndex.empty.add defaultLimits 0 postingLink
        handlers := [some ⟨[], none⟩, some ⟨[.url postingLink], none⟩]
        succeeded := []
        failed := [.url postingLink] } := by
  simp only [performAll, outage, List.foldl_cons, List.foldl_nil, perform,
    processArchiveMessage_eq, processMessage_postingMessage]
  rfl

theorem outage_loses_link :
    ¬ Delivers samplePlatform defaultConfig defaultLimits (outage ++ [.turn 1 1000 1000]) := by
  intro hdelivers
  have hreaches : Reaches (performAll samplePlatform defaultConfig defaultLimits outage)
      (.turn 1 1000 1000) postingLink 1000 := by
    rw [performAll_outage]
    exact ⟨1, 1000, [], rfl, rfl⟩
  have hforwards := hdelivers.retried outage _ [] rfl postingLink 1000 hreaches (by
    rw [performAll_outage]
    exact List.not_mem_nil)
  refine (forwards_iff hreaches).mp hforwards ?_
  rw [performAll_outage, Retained]
  decide

end JobApplyAgent.Bridge
