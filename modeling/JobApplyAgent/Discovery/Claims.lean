import JobApplyAgent.Discovery.Hashes
import JobApplyAgent.Library.Hands

/-!
# Hashes in hand

An ingest that has looked a hash up in vain has it in hand until it creates the job.  A
lookup takes a hash that is free, a decision brings a hash that was taken or that no other
job carries; so every hash stays with one job or in one hand, whoever else takes hashes.
-/

namespace JobApplyAgent.Discovery

open Domain Library

variable {τ : Type} {other : τ → String → Prop}
  {before : DiscoveryState}
  {session moved : IngestSession}

/-! ## Lookups in vain -/

/-- What the lookup of the next posting changes besides the loaded rows. -/
theorem lookup_matched (hlookup : lookup db session = some moved) :
    session.phase = .querying ∧ ∃ posting rest, session.postings = posting :: rest ∧
      moved.postings = rest ∧ moved.phase = .matched posting (findTarget db session posting) := by
  unfold lookup at hlookup
  split at hlookup
  · next posting rest hphase hpostings =>
    refine ⟨hphase, posting, rest, hpostings, ?_⟩
    simp only [Option.some.injEq] at hlookup
    subst hlookup
    cases (findTarget db session posting).occurrenceId <;> simp only <;> split <;>
      exact ⟨rfl, rfl⟩
  · cases hlookup

variable {hash : String}

theorem findTarget_missing (htarget : findTarget db session posting = .missing catalogId) :
    firstJob db session (fun row =>
      row.applyUrlHash = some posting.occurrence.normalizedUrlHash) = none := by
  unfold findTarget at htarget
  split at htarget
  · cases htarget
  simp only at htarget
  split at htarget
  · cases htarget
  split at htarget
  · cases htarget
  · next hnone => exact hnone

/-- A posting that is not found has no job, unless a running ingest has its hash. -/
theorem findTarget_missing_free
    (hbound : ∀ (id : ℕ) (row : JobRow), state.db.jobs id = some row → id < state.db.nextJob)
    (hsession : runningIngest state index = some session)
    (htarget : findTarget state.db session posting = .missing catalogId)
    (hinHand : ¬InHand state posting.occurrence.normalizedUrlHash) (id : ℕ) :
    ¬CarriesHash state id posting.occurrence.normalizedUrlHash := by
  intro hcarries
  cases hcarries with
  | running place found hfound hheld =>
    exact hinHand (.inl ⟨place, found, hfound, id, .inl hheld⟩)
  | committed row hrow hhash =>
    cases hflushed : session.flushedJobs id with
    | some flushed =>
      refine hinHand (.inl ⟨index, session, hsession, id, .inr ⟨?_, row, hrow, hhash⟩⟩)
      rw [hflushed]
      rfl
    | none =>
      have hview : viewJobs state.db session id = some row :=
        Table.overlay_eq_some.mpr (.inr ⟨hflushed, hrow⟩)
      have hnone := Table.first_eq_none.mp (findTarget_missing htarget)
      exact of_decide_eq_false (hnone id row (hbound id row hrow) hview) hhash

/-! ## Steps -/

/-- The ingests that have taken a hash, and whoever else has. -/
def Takers (other : τ → String → Prop) (state : DiscoveryState) : ℕ ⊕ τ → String → Prop :=
  Sum.elim (Taken state) other

theorem taken_advance {session : Option IngestSession}
    (htaken : Taken (advance before index db session) place hash) :
    place ≠ index ∧ Taken before place hash ∨
      place = index ∧ ∃ moved posting catalogId, session = some moved ∧
        moved.phase = .matched posting (.missing catalogId) ∧
        hash = posting.occurrence.normalizedUrlHash := by
  obtain ⟨found, posting, catalogId, hfound, hphase, hhash⟩ := htaken
  rcases runningIngest_advance hfound with ⟨hsame, hsession⟩ | ⟨hne, hold⟩
  · exact .inr ⟨hsame, found, posting, catalogId, hsession, hphase, hhash⟩
  · exact .inl ⟨hne, found, posting, catalogId, hold, hphase, hhash⟩

/-- An ingest that has taken nothing leaves the other hands as they are. -/
theorem takers_quiet {session : Option IngestSession}
    (hquiet : ∀ moved, session = some moved → moved.phase = .querying)
    (htaker : Takers other (advance before index db session) taker hash) :
    Takers other before taker hash ∧ taker ≠ .inl index := by
  cases taker with
  | inr place => exact ⟨htaker, Sum.inr_ne_inl⟩
  | inl place =>
    rcases taken_advance htaker with ⟨hne, hold⟩ | ⟨_, found, posting, _, hfound, hphase, _⟩
    · exact ⟨hold, fun hsame => hne (Sum.inl.inj hsame)⟩
    · rw [hquiet found hfound] at hphase
      cases hphase

section

variable (hclaimed : Claimed (CarriesHash before) (Takers other before))
include hclaimed

theorem claimed_lookup (hsession : runningIngest before index = some session)
    (hlookup : lookup before.db session = some moved)
    (hfree : ∀ posting catalogId, session.postings.head? = some posting →
      findTarget before.db session posting = .missing catalogId →
      (∀ id, ¬CarriesHash before id posting.occurrence.normalizedUrlHash) ∧
        ∀ taker, ¬Takers other before taker posting.occurrence.normalizedUrlHash) :
    Claimed (CarriesHash (advance before index before.db (some moved)))
      (Takers other (advance before index before.db (some moved))) := by
  have hcarries : ∀ id key, CarriesHash (advance before index before.db (some moved)) id key →
      CarriesHash before id key := by
    intro id key hid
    refine carriesHash_advance (fun row hrow hhash => .committed row hrow hhash) ?_ hid
    rintro found hfound hheld
    cases hfound
    exact .running index session hsession ((lookup_lookedUp hlookup).carries hheld)
  obtain ⟨_, posting, rest, hpostings, _, hphase⟩ := lookup_matched hlookup
  have hhead : session.postings.head? = some posting := by
    rw [hpostings]
    rfl
  have htakes : ∀ taker key,
      Takers other (advance before index before.db (some moved)) taker key →
      Takers other before taker key ∨ taker = .inl index ∧
        key = posting.occurrence.normalizedUrlHash ∧
        ∃ catalogId, findTarget before.db session posting = .missing catalogId := by
    intro taker key htaker
    cases taker with
    | inr place => exact .inl htaker
    | inl place =>
      rcases taken_advance htaker with ⟨_, hold⟩ | ⟨rfl, found, _, catalogId, hfound, hother, hkey⟩
      · exact .inl hold
      cases hfound
      rw [hphase] at hother
      obtain ⟨rfl, htarget⟩ := IngestPhase.matched.inj hother
      exact .inr ⟨rfl, hkey, catalogId, htarget⟩
  by_cases hmissing : ∃ catalogId, findTarget before.db session posting = .missing catalogId
  · obtain ⟨catalogId, htarget⟩ := hmissing
    obtain ⟨hstored, hheld⟩ := hfree posting catalogId hhead htarget
    refine hclaimed.take (.inl index) hstored hheld hcarries fun taker key htaker => ?_
    rcases htakes taker key htaker with hold | ⟨hplace, hkey, _⟩
    · exact .inl hold
    · exact .inr ⟨hplace, hkey⟩
  · refine hclaimed.mono hcarries fun taker key htaker => ?_
    rcases htakes taker key htaker with hold | ⟨_, _, hfound⟩
    · exact hold
    · exact absurd hfound hmissing

theorem claimed_decide (hsession : runningIngest before index = some session)
    (hphase : session.phase = .matched posting target)
    (hdecide : decideMatched codec before.db session (heldBy before index) = .ok (db, moved))
    (hmoves : insertsJob session = false →
      rewritesJob codec before.db session posting target = true →
      MovesAlone before session posting target ∧
        ∀ taker, ¬other taker posting.occurrence.normalizedUrlHash) :
    Claimed (CarriesHash (advance before index db (some moved)))
      (Takers other (advance before index db (some moved))) := by
  have heffect := DiscoveryEffect.decided index session db moved hsession hdecide
  obtain ⟨_, _, hmatched, hcases⟩ := decideMatched_cases hdecide
  rw [hphase] at hmatched
  obtain ⟨rfl, rfl⟩ := IngestPhase.matched.inj hmatched
  have hquiet : ∀ found, some moved = some found → found.phase = .querying := by
    rintro found hfound
    cases hfound
    rcases hcases with ⟨_, hcreates⟩ | ⟨_, _, hstages⟩
    · exact hcreates.phase
    · exact hstages.phase
  have hbrought : ∀ id key, CarriesHash (advance before index db (some moved)) id key →
      CarriesHash before id key ∨ Brings codec before (.decide index) id key :=
    fun id key hid => heffect.carries hid
  have htakes : ∀ taker key, Takers other (advance before index db (some moved)) taker key →
      Takers other before taker key ∧ taker ≠ .inl index :=
    fun taker key htaker => takers_quiet hquiet htaker
  rcases hcases with ⟨hinserts, _⟩ | ⟨hkeeps, rfl, hstages⟩
  · have htaken : Takers other before (.inl index) posting.occurrence.normalizedUrlHash := by
      unfold insertsJob at hinserts
      rw [hphase] at hinserts
      cases target with
      | missing catalogId => exact ⟨session, posting, catalogId, hsession, hphase, rfl⟩
      | known | seen | canonical => cases hinserts
    refine hclaimed.bring before.db.nextJob posting.occurrence.normalizedUrlHash
      (fun id hid => ?_) (fun taker htaker => ?_) (fun id key hid => ?_)
      fun taker key htaker => (htakes taker key htaker).1
    · exact absurd hid (hclaimed.untaken _ _ htaken id)
    · obtain ⟨hold, hne⟩ := htakes taker _ htaker
      exact hne (hclaimed.takers _ _ _ hold htaken)
    · rcases hbrought id key hid with hold | hbrings
      · exact .inl hold
      obtain ⟨_, hkey, ⟨_, hnew⟩ | ⟨hkeeps, _⟩⟩ := hbrings.of_decide hsession hphase
      · exact .inr ⟨hnew, hkey⟩
      · rw [hinserts] at hkeeps
        cases hkeeps
  · cases hrewritten : rewritesJob codec before.db session posting target with
    | false =>
      refine hclaimed.mono (fun id key hid => ?_) fun taker key htaker =>
        (htakes taker key htaker).1
      rcases hbrought id key hid with hold | hbrings
      · exact hold
      · have htrue := (hbrings.of_decide hsession hphase).1
        rw [hrewritten] at htrue
        cases htrue
    | true =>
      obtain ⟨⟨halone, huntaken⟩, hothers⟩ := hmoves hkeeps hrewritten
      obtain ⟨jobId, tracked, _, hloaded, _⟩ := hstages.jobs
      have htarget := (loadedJob_eq_some hloaded).1
      refine hclaimed.bring jobId posting.occurrence.normalizedUrlHash (fun id hid => ?_)
        (fun taker htaker => ?_) (fun id key hid => ?_)
        fun taker key htaker => (htakes taker key htaker).1
      · exact Option.some.inj ((halone id hid).symm.trans htarget)
      · have hold := (htakes taker _ htaker).1
        cases taker with
        | inl place => exact huntaken place hold
        | inr place => exact hothers place hold
      · rcases hbrought id key hid with hold | hbrings
        · exact .inl hold
        obtain ⟨_, hkey, ⟨hinserts, _⟩ | ⟨_, hid⟩⟩ := hbrings.of_decide hsession hphase
        · rw [hkeeps] at hinserts
          cases hinserts
        · exact .inr ⟨Option.some.inj (hid.symm.trans htarget), hkey⟩

/-- Any other step takes nothing and brings nothing. -/
theorem claimed_effect (heffect : DiscoveryEffect codec before action after)
    (hlookup : ∀ index, action ≠ .lookup index) (hdecide : ∀ index, action ≠ .decide index) :
    Claimed (CarriesHash after) (Takers other after) := by
  have hended : ∀ moved : IngestSession, none = some moved → moved.phase = .querying := by
    intro moved hmoved
    cases hmoved
  refine hclaimed.mono (fun id key hid => ?_) fun taker key htaker => ?_
  · rcases heffect.carries hid with hold | ⟨index, _, _, _, haction, _⟩
    · exact hold
    · exact absurd haction (hdecide index)
  · cases heffect with
    | began postings =>
      cases taker with
      | inr place => exact htaker
      | inl place =>
        obtain ⟨session, posting, catalogId, hsession, hphase, hkey⟩ := htaker
        rcases runningIngest_began hsession with hold | rfl
        · exact ⟨session, posting, catalogId, hold, hphase, hkey⟩
        · cases hphase
    | lookedUp index session moved hsession hmoved => exact absurd rfl (hlookup index)
    | decided index session db moved hsession hmoved => exact absurd rfl (hdecide index)
    | committed index session db hsession hcommit =>
      exact (takers_quiet hended htaker).1
    | aborted index session hsession =>
      exact (takers_quiet hended htaker).1
    | wrote _ jobId row new applications haction hlocked hcontent hhash => exact htaker

end

end JobApplyAgent.Discovery
