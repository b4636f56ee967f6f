import JobApplyAgent.Kernel.Effects

/-!
# The invariant of the tables

The unique keys of attempts and receipts, the logs of the accepted commands and
the links between a receipt and its attempt, kept by every change.  No change touches an
application whose row lock another transaction holds.
-/

namespace JobApplyAgent.Kernel

open Domain Store Library

/-- An attempt is stored whose command carries a client idempotency key. -/
def Keyed (db : Db) (id : ℕ) (key : String) : Prop :=
  ∃ attempt, db.submissions[id]? = some attempt ∧
    (attemptBindings attempt).commandKey = some key

/-- The unique keys of the attempts and their table checks. -/
structure AttemptsOk (db : Db) : Prop where
  keyed : ∀ (id other : ℕ) (key : String), Keyed db id key → Keyed db other key → id = other
  unfinished : ∀ (id other : ℕ) (attempt rival : Submission),
    db.submissions[id]? = some attempt → db.submissions[other]? = some rival →
    attempt.applicationId = rival.applicationId → attempt.stage ≠ .finished →
    rival.stage ≠ .finished → id = other
  checks : AllRows db.submissions fun attempt => attempt.checks = true

/-- The unique keys of the receipts. -/
structure ReceiptsOk (receipts : List CommandReceipt) : Prop where
  command : ∀ first ∈ receipts, ∀ second ∈ receipts,
    first.remoteCommandRef = second.remoteCommandRef → first = second
  key : ∀ first ∈ receipts, ∀ second ∈ receipts,
    first.clientIdempotencyKey = second.clientIdempotencyKey → first = second
  grant : ∀ first ∈ receipts, ∀ second ∈ receipts,
    first.reviewGrantId = second.reviewGrantId → first = second

/-- Every log of the outbox belongs to an accepted command, and every accepted
command has opened its log. -/
structure LogsOk (db : Db) : Prop where
  outbox : OutboxConsistent db
  owned : ∀ row ∈ db.outbox,
    ∃ receipt ∈ db.receipts, receipt.remoteCommandRef = row.remoteCommandRef
  opened : ∀ receipt ∈ db.receipts, eventsFor db receipt.remoteCommandRef ≠ []
  receipts : ReceiptsOk db.receipts

/-- Receipts and control-plane attempts belong together. -/
structure LinksOk (db : Db) : Prop where
  backed : ∀ (id : ℕ) (attempt : Submission) (key : String),
    db.submissions[id]? = some attempt → attempt.authorityKind = .controlPlane →
    (attemptBindings attempt).commandKey = some key →
    ∃ receipt ∈ db.receipts, receipt.clientIdempotencyKey = key
  answered : ∀ receipt ∈ db.receipts, ∃ id, Keyed db id receipt.clientIdempotencyKey

/-- Every attempt belongs to a stored application. -/
def Homed (db : Db) : Prop :=
  AllRows db.submissions fun attempt =>
    ∃ application, db.applications[attempt.applicationId]? = some application

structure StoreOk (db : Db) : Prop where
  attempts : AttemptsOk db
  homed : Homed db
  logs : LogsOk db
  links : LinksOk db

variable {before : Db}

/-! ## Attempts -/

def BindingsKept (old new : Submission) : Prop :=
  attemptBindings new = attemptBindings old

theorem BindingsKept.refl (attempt : Submission) : BindingsKept attempt attempt := rfl

/-- The attempts kept their bindings. -/
def Rebound (before after : Db) : Prop :=
  Carried BindingsKept before.submissions after.submissions

theorem Rebound.of_eq (hsame : after.submissions = before.submissions) :
    Rebound before after := by
  unfold Rebound
  rw [hsame]
  exact .refl BindingsKept.refl _

variable {id : ℕ} {key : String} {row : Submission}

theorem Rebound.keyed_iff (hrebound : Rebound before after) :
    Keyed after id key ↔ Keyed before id key := by
  constructor
  · rintro ⟨new, hnew, hkey⟩
    obtain ⟨old, hold, hsame⟩ := hrebound.origin hnew
    unfold BindingsKept at hsame
    exact ⟨old, hold, hsame ▸ hkey⟩
  · rintro ⟨old, hold, hkey⟩
    obtain ⟨new, hnew, hsame⟩ := hrebound.kept id old hold
    unfold BindingsKept at hsame
    exact ⟨new, hnew, hsame.symm ▸ hkey⟩

theorem LegacyStep.bindings (hstep : LegacyStep before old new) :
    attemptBindings new = attemptBindings old := by
  cases hstep with
  | marked | closed => rfl

theorem RowStep.bindings (hstep : RowStep before kind old new) :
    attemptBindings new = attemptBindings old := by
  cases hstep with
  | same => rfl
  | moved _ hstep => exact hstep.bindings
  | quarantined hstep => exact hstep.bindings

theorem Change.application_kept (hchange : Change held kind before after)
    (happlication : before.applications[id]? = some application) :
    ∃ kept, after.applications[id]? = some kept := by
  rcases hchange.applications with rfl | hevolved
  · cases hchange with
    | moved hmove => simp [ActionKind.allows] at hmove
    | content hkind => rcases hkind with hkind | hkind <;> cases hkind
    | @retried _ applicationId old new hfree hold _ =>
      by_cases heq : applicationId = id
      · subst heq
        exact ⟨new, getElem?_set_self_of_some hold⟩
      · exact ⟨application, (List.getElem?_set_ne heq).trans happlication⟩
  · obtain ⟨kept, hkept, _⟩ := hevolved.kept id application happlication
    exact ⟨kept, hkept⟩

theorem Change.homed (hchange : Change held kind before after) (hbefore : Homed before) :
    Homed after := by
  have hkept : ∀ {id : ℕ}, (∃ application, before.applications[id]? = some application) →
      ∃ application, after.applications[id]? = some application := by
    rintro id ⟨application, happlication⟩
    exact hchange.application_kept happlication
  have hrows : AllRows before.submissions fun attempt =>
      ∃ application, after.applications[attempt.applicationId]? = some application :=
    fun id attempt hattempt => hkept (hbefore id attempt hattempt)
  refine hchange.submissions.allRows hrows ?_ ?_
  · intro old new hold hstep
    rw [show new.applicationId = old.applicationId from
      congrArg AttemptBindings.applicationId hstep.bindings]
    exact hold
  · intro row hfresh
    cases hfresh with
    | admitted _ _ hadmissible =>
      obtain ⟨application, happlication, _⟩ := hadmissible.application
      exact hkept ⟨application, happlication⟩
    | inserted _ _ _ _ hexists => exact hkept hexists

theorem AttemptTransaction.rebound (htransaction : AttemptTransaction before id new after)
    (hrow : before.submissions[id]? = some old)
    (hbindings : attemptBindings new = attemptBindings old) : Rebound before after := by
  unfold Rebound
  rw [htransaction.submissions]
  exact .set BindingsKept.refl hrow hbindings

theorem AttemptsOk.transaction (hattempts : AttemptsOk before)
    (htransaction : AttemptTransaction before id new after)
    (hrow : before.submissions[id]? = some old)
    (hbindings : attemptBindings new = attemptBindings old) : AttemptsOk after where
  keyed := by
    intro first second key hfirst hsecond
    have hrebound := htransaction.rebound hrow hbindings
    exact hattempts.keyed first second key (hrebound.keyed_iff.mp hfirst)
      (hrebound.keyed_iff.mp hsecond)
  unfinished := by
    intro first second attempt rival hfirst hsecond happ hattempt hrival
    rw [htransaction.submissions] at hfirst hsecond
    have hfree := Db.unfinishedFree_iff.mp htransaction.free
    rcases getElem?_set_eq_some hfirst with ⟨rfl, rfl⟩ | ⟨hne, hrow₁⟩ <;>
      rcases getElem?_set_eq_some hsecond with ⟨rfl, rfl⟩ | ⟨hne', hrow₂⟩
    · rfl
    · exact absurd (hfree hattempt second rival hrow₂ hne' happ.symm) hrival
    · exact absurd (hfree hrival first attempt hrow₁ hne happ) hattempt
    · exact hattempts.unfinished first second attempt rival hrow₁ hrow₂ happ hattempt
        hrival
  checks := by
    rw [htransaction.submissions]
    exact hattempts.checks.set htransaction.checks

theorem AttemptsOk.congr (hattempts : AttemptsOk before)
    (hsame : after.submissions = before.submissions) : AttemptsOk after := by
  refine ⟨fun first second key hfirst hsecond => ?_, ?_, ?_⟩
  · exact hattempts.keyed first second key ((Rebound.of_eq hsame).keyed_iff.mp hfirst)
      ((Rebound.of_eq hsame).keyed_iff.mp hsecond)
  · rw [hsame]
    exact hattempts.unfinished
  · rw [hsame]
    exact hattempts.checks

theorem keyed_append :
    Keyed { db with submissions := db.submissions ++ [row] } id key →
      id = db.submissions.length ∧ (attemptBindings row).commandKey = some key ∨
        Keyed db id key := by
  rintro ⟨attempt, hattempt, hkey⟩
  rcases getElem?_append_singleton_eq_some hattempt with ⟨rfl, rfl⟩ | hold
  · exact .inl ⟨rfl, hkey⟩
  · exact .inr ⟨attempt, hold, hkey⟩

theorem not_keyed_of_keysFree (hfree : db.keysFree row = true)
    (hkey : (attemptBindings row).commandKey = some key) (id : ℕ) : ¬Keyed db id key := by
  rintro ⟨stored, hstored, hstoredKey⟩
  obtain ⟨added, hadded, rfl⟩ := Option.map_eq_some_iff.mp hkey
  obtain ⟨command, hcommand, hsame⟩ := Option.map_eq_some_iff.mp hstoredKey
  have hrow := List.all_eq_true.mp hfree stored (List.mem_of_getElem? hstored)
  simp only [hadded, hcommand, Bool.and_eq_true, decide_eq_true_eq] at hrow
  exact hrow.2 hsame

/-- An insertion under the constraints keeps the unique keys. -/
theorem AttemptsOk.insert (hattempts : AttemptsOk db)
    (hinsert : db.insertSubmission row = .ok stored) : AttemptsOk stored := by
  obtain ⟨rfl, hchecks, hfree, hkeys⟩ := Db.insertSubmission_eq_ok hinsert
  refine ⟨fun first second key hfirst hsecond => ?_, ?_, hattempts.checks.concat hchecks⟩
  · rcases keyed_append hfirst with ⟨rfl, hkey⟩ | hfirst <;>
      rcases keyed_append hsecond with ⟨rfl, hkey'⟩ | hsecond
    · rfl
    · exact absurd hsecond (not_keyed_of_keysFree hkeys hkey second)
    · exact absurd hfirst (not_keyed_of_keysFree hkeys hkey' first)
    · exact hattempts.keyed first second key hfirst hsecond
  · intro first second attempt rival hfirst hsecond happ hattempt hrival
    have hlone := Db.unfinishedFree_iff.mp hfree
    have hbound : ∀ {id : ℕ} {found : Submission}, db.submissions[id]? = some found →
        id ≠ db.submissions.length := by
      intro id found hfound heq
      exact absurd (List.getElem?_eq_some_iff.mp hfound).1 (by omega)
    rcases getElem?_append_singleton_eq_some hfirst with ⟨rfl, rfl⟩ | hrow₁ <;>
      rcases getElem?_append_singleton_eq_some hsecond with ⟨rfl, rfl⟩ | hrow₂
    · rfl
    · exact absurd (hlone hattempt second rival hrow₂ (hbound hrow₂) happ.symm) hrival
    · exact absurd (hlone hrival first attempt hrow₁ (hbound hrow₁) happ) hattempt
    · exact hattempts.unfinished first second attempt rival hrow₁ hrow₂ happ hattempt
        hrival

/-! ## Logs -/

theorem receiptFor_eq_some_iff (hreceipts : ReceiptsOk db.receipts) :
    receiptFor db key = some receipt ↔
      receipt ∈ db.receipts ∧ receipt.clientIdempotencyKey = key := by
  constructor
  · intro hfound
    exact ⟨List.mem_of_find?_eq_some hfound, by simpa using List.find?_some hfound⟩
  · rintro ⟨hmem, rfl⟩
    cases hfound : receiptFor db receipt.clientIdempotencyKey with
    | none =>
      have hnone := List.find?_eq_none.mp hfound receipt hmem
      simp at hnone
    | some found =>
      have hkey : found.clientIdempotencyKey = receipt.clientIdempotencyKey := by
        simpa using List.find?_some hfound
      exact congrArg some
        (hreceipts.key found (List.mem_of_find?_eq_some hfound) receipt hmem hkey)

theorem LogsOk.congr (hlogs : LogsOk before) (hreceipts : after.receipts = before.receipts)
    (houtbox : after.outbox = before.outbox) : LogsOk after := by
  have hevents : ∀ commandRef, eventsFor after commandRef = eventsFor before commandRef := by
    intro commandRef
    simp only [eventsFor, houtbox]
  refine ⟨hlogs.outbox.congr houtbox, ?_, ?_, hreceipts ▸ hlogs.receipts⟩
  · rw [houtbox, hreceipts]
    exact hlogs.owned
  · rw [hreceipts]
    exact fun receipt hmem => hevents _ ▸ hlogs.opened receipt hmem

/-- A published transition extends the log of an accepted command only. -/
theorem LogsOk.published (hlogs : LogsOk before)
    (hpublished : Published before after attempt key)
    (hreceipts : after.receipts = before.receipts) :
    LogsOk after where
  outbox := hpublished.consistent
  owned := by
    rw [hreceipts]
    intro row hrow
    by_contra hnone
    have hsame := hpublished.others row.remoteCommandRef fun receipt hreceipt heq =>
      hnone ⟨receipt, ((receiptFor_eq_some_iff hlogs.receipts).mp hreceipt).1, heq⟩
    have hafter : row ∈ eventsFor after row.remoteCommandRef :=
      mem_eventsFor.mpr ⟨hrow, rfl⟩
    rw [hsame] at hafter
    exact hnone (hlogs.owned row (mem_eventsFor.mp hafter).1)
  opened := by
    rw [hreceipts]
    intro receipt hmem
    obtain ⟨row, hrow⟩ := List.exists_mem_of_ne_nil _ (hlogs.opened receipt hmem)
    obtain ⟨hold, href⟩ := mem_eventsFor.mp hrow
    exact List.ne_nil_of_mem (mem_eventsFor.mpr ⟨hpublished.grown.subset hold, href⟩)
  receipts := hreceipts ▸ hlogs.receipts

theorem EventsDelivered.events (hdelivered : EventsDelivered before after)
    (commandRef : String) :
    Carried EventCarried (eventsFor before commandRef) (eventsFor after commandRef) := by
  obtain ⟨outbox, rfl, hcarried⟩ := hdelivered
  refine hcarried.filter fun old new hsame => ?_
  rw [hsame]

theorem RowConsistent.carried (hold : RowConsistent old)
    (hcarried : EventCarried old new) : RowConsistent new := by
  rw [hcarried]
  exact ⟨hold.digest, hold.checked, hold.eventRef, hold.payloadRef, hold.command,
    hold.sequence⟩

/-- Delivery rewrites no content of a log. -/
theorem OutboxConsistent.delivered (hbefore : OutboxConsistent before)
    (hdelivered : EventsDelivered before after) : OutboxConsistent after where
  rows := by
    obtain ⟨outbox, rfl, hcarried⟩ := hdelivered
    intro row hrow
    obtain ⟨key, hkey⟩ := List.getElem?_of_mem hrow
    obtain ⟨old, hold, hrel⟩ := hcarried.origin hkey
    exact (hbefore.rows old (List.mem_of_getElem? hold)).carried hrel
  sequenced := by
    intro commandRef
    have hcarried := hdelivered.events commandRef
    have hsequences : (eventsFor after commandRef).map OutboxRow.sequence =
        (eventsFor before commandRef).map OutboxRow.sequence :=
      hcarried.map_eq fun old new hsame => by rw [hsame]
    have hbefore := hbefore.sequenced commandRef
    unfold IsSequenced at hbefore ⊢
    rw [hsequences, hbefore, hcarried.length]

theorem LogsOk.delivered (hlogs : LogsOk before)
    (hdelivered : EventsDelivered before after) : LogsOk after where
  outbox := hlogs.outbox.delivered hdelivered
  owned := by
    obtain ⟨outbox, rfl, hcarried⟩ := hdelivered
    intro row hrow
    obtain ⟨key, hkey⟩ := List.getElem?_of_mem hrow
    obtain ⟨old, hold, hrel⟩ := hcarried.origin hkey
    obtain ⟨receipt, hmem, href⟩ := hlogs.owned old (List.mem_of_getElem? hold)
    exact ⟨receipt, hmem, by rw [href, hrel]⟩
  opened := by
    intro receipt hmem hnone
    have hlength := (hdelivered.events receipt.remoteCommandRef).length
    obtain ⟨outbox, rfl, _⟩ := hdelivered
    refine hlogs.opened receipt hmem (List.length_eq_zero_iff.mp ?_)
    rw [← hlength, hnone]
    rfl
  receipts := by
    obtain ⟨outbox, rfl, _⟩ := hdelivered
    exact hlogs.receipts

theorem receiptKeysFree_eq_true (hfree : receiptKeysFree db receipt = true) :
    ∀ row ∈ db.receipts, row.remoteCommandRef ≠ receipt.remoteCommandRef ∧
      row.clientIdempotencyKey ≠ receipt.clientIdempotencyKey ∧
      row.reviewGrantId ≠ receipt.reviewGrantId := by
  intro row hrow
  have hkeys := List.all_eq_true.mp hfree row hrow
  simp only [Bool.and_eq_true, decide_eq_true_eq] at hkeys
  exact ⟨hkeys.1.1.1.1, hkeys.2, hkeys.1.1.2⟩

theorem ReceiptsOk.append (hreceipts : ReceiptsOk receipts)
    (hfresh : ∀ row ∈ receipts, row.remoteCommandRef ≠ receipt.remoteCommandRef ∧
      row.clientIdempotencyKey ≠ receipt.clientIdempotencyKey ∧
      row.reviewGrantId ≠ receipt.reviewGrantId) :
    ReceiptsOk (receipts ++ [receipt]) := by
  have hunique : ∀ {γ : Type} (column : CommandReceipt → γ),
      (∀ first ∈ receipts, ∀ second ∈ receipts, column first = column second →
        first = second) →
      (∀ row ∈ receipts, column row ≠ column receipt) →
      ∀ first ∈ receipts ++ [receipt], ∀ second ∈ receipts ++ [receipt],
        column first = column second → first = second := by
    intro γ column hold hnew first hfirst second hsecond heq
    rw [List.mem_append, List.mem_singleton] at hfirst hsecond
    rcases hfirst with hfirst | rfl <;> rcases hsecond with hsecond | rfl
    · exact hold first hfirst second hsecond heq
    · exact absurd heq (hnew first hfirst)
    · exact absurd heq.symm (hnew second hsecond)
    · rfl
  exact ⟨hunique _ hreceipts.command fun row hrow => (hfresh row hrow).1,
    hunique _ hreceipts.key fun row hrow => (hfresh row hrow).2.1,
    hunique _ hreceipts.grant fun row hrow => (hfresh row hrow).2.2⟩

section Acceptance

variable {acceptance : Acceptance}

/-- The first event of a command opens its log. -/
theorem Accepted.outbox_eq (hlogs : LogsOk before)
    (haccepted : Accepted before acceptance grant after)
    (hevent : acceptance.event =
      acceptedEvent acceptance.receipt.remoteCommandRef acceptance.receipt.acceptedAt) :
    after.outbox = before.outbox ++ [outboxRow acceptance.event] := by
  obtain ⟨outbox, rfl, rfl | ⟨_, row, hrow, href⟩⟩ := haccepted.outbox
  · rfl
  exfalso
  obtain ⟨receipt, hreceipt, howner⟩ := hlogs.owned row hrow
  rw [(hlogs.outbox.rows row hrow).eventRef, hevent] at href
  have hcommand : row.remoteCommandRef = acceptance.receipt.remoteCommandRef :=
    congrArg EventRef.commandId href
  exact (receiptKeysFree_eq_true haccepted.keysFree receipt hreceipt).1
    (howner.trans hcommand)

theorem eventsFor_eq_nil_of_keysFree (hlogs : LogsOk before)
    (hfree : receiptKeysFree before acceptance.receipt = true) :
    eventsFor before acceptance.receipt.remoteCommandRef = [] := by
  rw [List.eq_nil_iff_forall_not_mem]
  intro row hrow
  obtain ⟨hmem, href⟩ := mem_eventsFor.mp hrow
  obtain ⟨receipt, hreceipt, howner⟩ := hlogs.owned row hmem
  exact (receiptKeysFree_eq_true hfree receipt hreceipt).1 (howner.trans href)

theorem rowConsistent_acceptedEvent (commandId : String) (now : Timestamp) :
    RowConsistent (outboxRow (acceptedEvent commandId now)) :=
  ⟨rfl, rfl, rfl, rfl, rfl, rfl⟩

theorem LogsOk.accepted (hlogs : LogsOk before)
    (haccepted : Accepted before acceptance grant after)
    (hevent : acceptance.event =
      acceptedEvent acceptance.receipt.remoteCommandRef acceptance.receipt.acceptedAt) :
    LogsOk after := by
  have hfresh := receiptKeysFree_eq_true haccepted.keysFree
  have hempty := eventsFor_eq_nil_of_keysFree hlogs haccepted.keysFree
  have houtbox := haccepted.outbox_eq hlogs hevent
  obtain ⟨outbox, hafter, _⟩ := haccepted.outbox
  have hreceipts : after.receipts = before.receipts ++ [acceptance.receipt] := by
    rw [hafter]
  have hgrown : OutboxConsistent
      { before with outbox := before.outbox ++ [outboxRow acceptance.event] } := by
    refine hlogs.outbox.append ?_ ?_
    · rw [hevent]
      exact rowConsistent_acceptedEvent _ _
    · rw [hevent]
      change 1 = (eventsFor before acceptance.receipt.remoteCommandRef).length + 1
      rw [hempty]
      rfl
  refine ⟨hgrown.congr houtbox, ?_, ?_, hreceipts ▸ hlogs.receipts.append hfresh⟩
  · rw [houtbox, hreceipts]
    intro row hrow
    rw [List.mem_append, List.mem_singleton] at hrow
    rcases hrow with hrow | rfl
    · obtain ⟨receipt, hmem, href⟩ := hlogs.owned row hrow
      exact ⟨receipt, by simp [hmem], href⟩
    · exact ⟨acceptance.receipt, by simp, by rw [hevent]; rfl⟩
  · rw [hreceipts]
    intro receipt hmem
    rw [List.mem_append, List.mem_singleton] at hmem
    have hevents : ∀ row ∈ after.outbox, row.remoteCommandRef = receipt.remoteCommandRef →
        eventsFor after receipt.remoteCommandRef ≠ [] :=
      fun row hrow href => List.ne_nil_of_mem (mem_eventsFor.mpr ⟨hrow, href⟩)
    rcases hmem with hmem | rfl
    · obtain ⟨row, hrow⟩ := List.exists_mem_of_ne_nil _ (hlogs.opened receipt hmem)
      obtain ⟨hold, href⟩ := mem_eventsFor.mp hrow
      exact hevents row (by simp [houtbox, hold]) href
    · exact hevents (outboxRow acceptance.event) (by simp [houtbox]) (by rw [hevent]; rfl)

end Acceptance

/-! ## Links -/

theorem LinksOk.rebound (hlinks : LinksOk before) (hrebound : Rebound before after)
    (hreceipts : after.receipts = before.receipts) : LinksOk after where
  backed := by
    rw [hreceipts]
    intro id attempt key hattempt hkind hkey
    obtain ⟨old, hold, hsame⟩ := hrebound.origin hattempt
    rw [hsame] at hkey
    exact hlinks.backed id old key hold ((congrArg AttemptBindings.authorityKind hsame).symm.trans
      hkind) hkey
  answered := by
    rw [hreceipts]
    intro receipt hmem
    obtain ⟨id, hkeyed⟩ := hlinks.answered receipt hmem
    exact ⟨id, hrebound.keyed_iff.mpr hkeyed⟩

theorem Keyed.append (hkeyed : Keyed db id key)
    (hafter : after.submissions = db.submissions ++ added) :
    Keyed after id key := by
  obtain ⟨attempt, hattempt, hkey⟩ := hkeyed
  exact ⟨attempt, by rw [hafter]; exact getElem?_append_of_some hattempt, hkey⟩

/-- New attempts must bring the receipts of their own. -/
theorem LinksOk.grow (hlinks : LinksOk before)
    (hsubmissions : after.submissions = before.submissions ++ added)
    (hreceipts : after.receipts = before.receipts ++ receipts)
    (hbacked : ∀ row ∈ added, row.authorityKind = .controlPlane →
      ∀ key, (attemptBindings row).commandKey = some key →
        ∃ receipt ∈ receipts, receipt.clientIdempotencyKey = key)
    (hanswered : ∀ receipt ∈ receipts, ∃ row ∈ added,
      (attemptBindings row).commandKey = some receipt.clientIdempotencyKey) :
    LinksOk after where
  backed := by
    rw [hreceipts]
    intro id attempt key hattempt hkind hkey
    rw [hsubmissions] at hattempt
    by_cases hlt : id < before.submissions.length
    · rw [List.getElem?_append_left hlt] at hattempt
      obtain ⟨receipt, hmem, howner⟩ := hlinks.backed id attempt key hattempt hkind hkey
      exact ⟨receipt, by simp [hmem], howner⟩
    · rw [List.getElem?_append_right (not_lt.mp hlt)] at hattempt
      obtain ⟨receipt, hmem, howner⟩ :=
        hbacked attempt (List.mem_of_getElem? hattempt) hkind key hkey
      exact ⟨receipt, by simp [hmem], howner⟩
  answered := by
    rw [hreceipts]
    intro receipt hmem
    rcases List.mem_append.mp hmem with hmem | hmem
    · obtain ⟨id, hkeyed⟩ := hlinks.answered receipt hmem
      exact ⟨id, hkeyed.append hsubmissions⟩
    · obtain ⟨row, hrow, hkey⟩ := hanswered receipt hmem
      obtain ⟨index, hindex⟩ := List.getElem?_of_mem hrow
      refine ⟨before.submissions.length + index, row, ?_, hkey⟩
      rw [hsubmissions, List.getElem?_append_right (by omega)]
      simpa using hindex

theorem LinksOk.growLocal (hlinks : LinksOk before)
    (hsubmissions : after.submissions = before.submissions ++ added)
    (hreceipts : after.receipts = before.receipts)
    (hlocal : ∀ row ∈ added, row.authorityKind ≠ .controlPlane) : LinksOk after := by
  have hnone : after.receipts = before.receipts ++ [] := by rw [hreceipts, List.append_nil]
  exact hlinks.grow hsubmissions hnone
    (fun row hrow hkind => absurd hkind (hlocal row hrow)) (by simp)

theorem AdmittedRow.commandKey (hrow : AdmittedRow request row) :
    (attemptBindings row).commandKey = some request.clientIdempotencyKey := by
  obtain ⟨now, hcommand⟩ := hrow.command
  simp [attemptBindings, hcommand, pendingCommand]

theorem Accepted.receipts (haccepted : Accepted before acceptance grant after) :
    after.receipts = before.receipts ++ [acceptance.receipt] ∧
      after.submissions = before.submissions := by
  obtain ⟨outbox, rfl, _⟩ := haccepted.outbox
  exact ⟨rfl, rfl⟩

/-! ## Every change keeps the tables -/

theorem StoreOk.congr (hdb : StoreOk before)
    (hhomed : Homed after) (hsubmissions : after.submissions = before.submissions)
    (hreceipts : after.receipts = before.receipts) (houtbox : after.outbox = before.outbox) :
    StoreOk after :=
  ⟨hdb.attempts.congr hsubmissions, hhomed, hdb.logs.congr hreceipts houtbox,
    hdb.links.rebound (.of_eq hsubmissions) hreceipts⟩

variable {move : AttemptMove}

section

variable (hdb : StoreOk before)
include hdb

theorem StoreOk.movedTo (hhomed : Homed after)
    (hmoved : MovedTo before id move old new after) :
    StoreOk after := by
  have hbindings := hmoved.step.bindings
  have hreceipts := hmoved.transaction.authority.receipts
  refine ⟨hdb.attempts.transaction hmoved.transaction hmoved.row hbindings, hhomed, ?_,
    hdb.links.rebound (hmoved.transaction.rebound hmoved.row hbindings) hreceipts⟩
  cases hmoved.effect with
  | silent _ hsame => exact hdb.logs.congr hreceipts hsame
  | published command _ hpublished => exact hdb.logs.published hpublished hreceipts

/-- A commit stores a receipt exactly with the attempt it names. -/
theorem StoreOk.committed (hhomed : Homed after)
    (hstaged : StagedOk before locks staged) (hbound : AcceptanceBound staged)
    (hadmitted : Admitted before staged after) : StoreOk after := by
  obtain ⟨accepted, stored, canaries, haccepted, hinserted, rfl⟩ := hadmitted.steps
  have hattempts : ∀ {db : Db}, db.submissions = before.submissions →
      Inserted db staged.added stored → AttemptsOk stored := by
    intro db hsame hinserted
    exact hinserted.preserves (fun _ _ _ _ hdb hinsert => hdb.insert hinsert)
      (hdb.attempts.congr hsame)
  have hstored := hinserted.eq
  unfold StagedAcceptance at haccepted
  unfold AcceptanceBound at hbound
  cases hacceptance : staged.acceptance with
  | none =>
    rw [hacceptance] at haccepted hbound
    simp only at haccepted hbound
    subst haccepted
    refine ⟨(hattempts rfl hinserted).congr rfl, hhomed, hdb.logs.congr ?_ ?_, ?_⟩
    · rw [hstored]
    · rw [hstored]
    · exact hdb.links.growLocal (by rw [hstored]) (by rw [hstored])
        hbound
  | some acceptance =>
    rw [hacceptance] at haccepted hbound
    obtain ⟨grant, haccepted⟩ := haccepted
    obtain ⟨row, request, hadded, hrow, _, hkey⟩ := hbound
    obtain ⟨hreceipts, hsubmissions⟩ := haccepted.receipts
    have hevent := (hstaged.acceptance acceptance hacceptance).event
    have hrowKey := hrow.commandKey
    rw [hkey] at hrowKey
    refine ⟨(hattempts hsubmissions hinserted).congr rfl, hhomed,
      (hdb.logs.accepted haccepted hevent).congr (by rw [hstored]) (by rw [hstored]), ?_⟩
    have hrows : stored.submissions = before.submissions ++ [row] := by
      rw [hstored, hsubmissions, hadded]
    have htold : stored.receipts = before.receipts ++ [acceptance.receipt] := by
      rw [hstored, hreceipts]
    refine hdb.links.grow hrows htold ?_ ?_
    · intro stored hmem _ key hstoredKey
      rw [List.mem_singleton] at hmem
      subst hmem
      exact ⟨acceptance.receipt, by simp, Option.some.inj (hrowKey.symm.trans hstoredKey)⟩
    · intro receipt hmem
      rw [List.mem_singleton] at hmem
      subst hmem
      exact ⟨row, by simp, hrowKey⟩

/-- The invariant of the tables is kept by every change of every kind. -/
theorem StoreOk.change (hchange : Change held kind before after) :
    StoreOk after := by
  have hhomed := hchange.homed hdb.homed
  cases hchange with
  | moved _ _ _ hmoved =>
    obtain ⟨old, new, hmoved⟩ := hmoved
    exact hdb.movedTo hhomed hmoved
  | cancelled _ _ _ hmoved => exact hdb.movedTo hhomed hmoved
  | content _ _ hcontent =>
    exact hdb.congr hhomed hcontent.submissions hcontent.authority.receipts hcontent.outbox
  | canaries | retried | minted => exact hdb.congr hhomed rfl rfl rfl
  | automated _ hautomated =>
    exact hdb.congr hhomed hautomated.submissions hautomated.receipts hautomated.outbox
  | committed _ hstaged hbound hadmitted => exact hdb.committed hhomed hstaged hbound hadmitted
  | granted hdelivered =>
    obtain ⟨grants, rfl, _⟩ := hdelivered
    exact hdb.congr hhomed rfl rfl rfl
  | delivered hdelivered =>
    have hlogs := hdb.logs.delivered hdelivered
    obtain ⟨outbox, rfl, _⟩ := hdelivered
    exact ⟨hdb.attempts.congr rfl, hhomed, hlogs, hdb.links.rebound (.of_eq rfl) rfl⟩
  | quarantined _ hlegacy =>
    have htransaction := hlegacy.transaction
    have hbindings := hlegacy.step.bindings
    have hreceipts := htransaction.authority.receipts
    exact ⟨hdb.attempts.transaction htransaction hlegacy.row hbindings, hhomed,
      hdb.logs.congr hreceipts hlegacy.outbox,
      hdb.links.rebound (htransaction.rebound hlegacy.row hbindings) hreceipts⟩
  | inserted now _ _ hinsert =>
    have hattempts := hdb.attempts.insert hinsert
    obtain ⟨rfl, _⟩ := Db.insertSubmission_eq_ok hinsert
    refine ⟨hattempts, hhomed, hdb.logs.congr rfl rfl, ?_⟩
    refine hdb.links.growLocal rfl rfl ?_
    simp [legacyAttempt]

theorem StoreOk.changes (hchanges : Changes held kind before after) :
    StoreOk after := by
  induction hchanges with
  | refl => exact hdb
  | tail _ hchange ih => exact ih.change hchange

/-- A step of one attempt leaves the logs of the others as they are. -/
theorem MovedTo.eventsFor (hmoved : MovedTo before id move old new after) (hne : other ≠ id)
    (hkeyed : Keyed before other key) (hreceipt : receiptFor before key = some receipt) :
    Kernel.eventsFor after receipt.remoteCommandRef =
      Kernel.eventsFor before receipt.remoteCommandRef := by
  cases hmoved.effect with
  | silent _ hsame => simp only [Kernel.eventsFor, hsame]
  | published command hcommand hpublished =>
    refine hpublished.others _ fun found hfound href => hne ?_
    obtain ⟨hmem, hkey⟩ := (receiptFor_eq_some_iff hdb.logs.receipts).mp hreceipt
    obtain ⟨hmem', hkey'⟩ := (receiptFor_eq_some_iff hdb.logs.receipts).mp hfound
    have hsame := hdb.logs.receipts.command found hmem' receipt hmem href
    subst hsame
    have howned : Keyed before id key := by
      refine ⟨old, hmoved.row, ?_⟩
      rw [← hmoved.step.bindings, ← hkey, hkey']
      simp [attemptBindings, hcommand]
    exact hdb.attempts.keyed other id key hkeyed howned

end

/-! ## What a row lock keeps -/

/-- Everything of one application that an admission may rely on is unchanged. -/
structure Framed (applicationId : ℕ) (before after : Db) : Prop where
  application : ∀ application, before.applications[applicationId]? = some application →
    after.applications[applicationId]? = some application
  attempts : ∀ attempt ∈ after.submissions, attempt.applicationId = applicationId →
    attempt ∈ before.submissions
  grants : ∀ (key : ℕ) (grant : ReviewGrant), before.reviewGrants[key]? = some grant →
    grant.applicationId = applicationId →
    ∃ kept, after.reviewGrants[key]? = some kept ∧ DeliveryCarried grant kept

variable {held : ℕ → Bool} {before : Db}

theorem Framed.refl (applicationId : ℕ) (db : Db) : Framed applicationId db db :=
  ⟨fun _ happlication => happlication, fun _ hattempt _ => hattempt,
    fun _ grant hgrant _ => ⟨grant, hgrant, .refl grant⟩⟩

theorem Framed.trans {first second : Db}
    (hfirst : Framed applicationId first second)
    (hsecond : Framed applicationId second third) : Framed applicationId first third where
  application := fun application happlication =>
    hsecond.application application (hfirst.application application happlication)
  attempts := fun attempt hattempt happ =>
    hfirst.attempts attempt (hsecond.attempts attempt hattempt happ) happ
  grants := by
    intro key grant hgrant happ
    obtain ⟨middle, hmiddle, hkept⟩ := hfirst.grants key grant hgrant happ
    have hsame : middle.applicationId = applicationId := by rw [hkept]; exact happ
    obtain ⟨last, hlast, hkept'⟩ := hsecond.grants key middle hmiddle hsame
    exact ⟨last, hlast, hkept.trans _ _ _ hkept'⟩

theorem framed_of_same
    (happlication : ∀ application, before.applications[applicationId]? = some application →
      after.applications[applicationId]? = some application)
    (hsubmissions : after.submissions = before.submissions)
    (hgrants : after.reviewGrants = before.reviewGrants) : Framed applicationId before after where
  application := happlication
  attempts := fun _ hattempt _ => hsubmissions ▸ hattempt
  grants := fun _ grant hgrant _ => ⟨grant, hgrants ▸ hgrant, .refl grant⟩

variable {id : ℕ}

theorem AttemptTransaction.framed (htransaction : AttemptTransaction before id new after)
    (hbindings : attemptBindings new = attemptBindings old)
    (hother : old.applicationId ≠ applicationId) : Framed applicationId before after := by
  have hnew : new.applicationId ≠ applicationId := by
    rw [show new.applicationId = old.applicationId from
      congrArg AttemptBindings.applicationId hbindings]
    exact hother
  refine ⟨fun application happlication => ?_, fun attempt hattempt happ => ?_,
    fun key grant hgrant _ => ⟨grant, ?_, .refl grant⟩⟩
  · rw [htransaction.others applicationId hnew.symm]
    exact happlication
  · rw [htransaction.submissions] at hattempt
    rcases List.mem_or_eq_of_mem_set hattempt with hold | rfl
    · exact hold
    · exact absurd happ hnew
  · rw [htransaction.authority.reviewGrants]
    exact hgrant

theorem ne_of_held (hheld : held applicationId = true) (hfree : held id = false) :
    id ≠ applicationId := by
  rintro rfl
  rw [hheld] at hfree
  cases hfree

/-- A commit adds attempts and spends a grant of its own applications only. -/
theorem Admitted.framed (hstaged : StagedOk before locks staged)
    (hadmitted : Admitted before staged after)
    (hother : applicationId ∉ locks) : Framed applicationId before after := by
  obtain ⟨hsubmissions, happlications, _⟩ := hadmitted.tables
  refine ⟨fun application happlication => happlications ▸ happlication, ?_, ?_⟩
  · intro attempt hattempt happ
    rw [hsubmissions] at hattempt
    rcases List.mem_append.mp hattempt with hold | hnew
    · exact hold
    · obtain ⟨_, _, _, hlock⟩ := hstaged.rows attempt hnew
      exact absurd (happ ▸ hlock) hother
  · intro key grant hgrant happ
    obtain ⟨accepted, stored, canaries, haccepted, hinserted, rfl⟩ := hadmitted.steps
    rw [hinserted.eq]
    unfold StagedAcceptance at haccepted
    cases hacceptance : staged.acceptance with
    | none =>
      rw [hacceptance] at haccepted
      simp only at haccepted
      exact ⟨grant, haccepted ▸ hgrant, .refl grant⟩
    | some acceptance =>
      rw [hacceptance] at haccepted
      obtain ⟨spent, haccepted⟩ := haccepted
      obtain ⟨row, hrow, hlock, _⟩ := (hstaged.acceptance acceptance hacceptance).grant
      have hne : acceptance.receipt.reviewGrantId ≠ key := by
        rintro rfl
        rw [hgrant, Option.some.injEq] at hrow
        subst hrow
        exact hother (happ ▸ hlock)
      obtain ⟨outbox, rfl, _⟩ := haccepted.outbox
      exact ⟨grant, (List.getElem?_set_ne hne).trans hgrant, .refl grant⟩

/-- No change touches an application that another transaction holds. -/
theorem Change.framed (hchange : Change held kind before after)
    (hheld : held applicationId = true) : Framed applicationId before after := by
  cases hchange with
  | moved _ _ hfree hmoved =>
    obtain ⟨old, new, hmoved⟩ := hmoved
    obtain ⟨attempt, hattempt, hfree⟩ := hfree
    rw [hmoved.row, Option.some.injEq] at hattempt
    subst hattempt
    exact hmoved.transaction.framed hmoved.step.bindings (ne_of_held hheld hfree)
  | cancelled hfree _ howner hmoved =>
    exact hmoved.transaction.framed hmoved.step.bindings
      (howner ▸ ne_of_held hheld hfree)
  | content _ hfree hcontent =>
    refine framed_of_same (fun application happlication => ?_) hcontent.submissions
      hcontent.authority.reviewGrants
    exact hcontent.others applicationId application happlication fun htouched =>
      ne_of_held hheld (hfree applicationId htouched) rfl
  | canaries => exact framed_of_same (fun _ happlication => happlication) rfl rfl
  | retried hfree _ _ =>
    refine framed_of_same (fun application happlication => ?_) rfl rfl
    rw [Db.setApplication_applications, List.getElem?_set_ne (ne_of_held hheld hfree)]
    exact happlication
  | automated hfree hautomated =>
    refine framed_of_same (fun application happlication => ?_) hautomated.submissions
      hautomated.reviewGrants
    rw [hautomated.others applicationId fun htouched =>
      ne_of_held hheld (hfree applicationId htouched) rfl]
    exact happlication
  | committed hfree hstaged _ hadmitted =>
    exact hadmitted.framed hstaged fun hmem => ne_of_held hheld (hfree _ hmem) rfl
  | @minted _ minted refs now hfree =>
    refine ⟨fun _ happlication => happlication, fun _ hattempt _ => hattempt, ?_⟩
    intro key grant hgrant happ
    refine ⟨grant, ?_, .refl grant⟩
    have hsame : revokeGrant minted.applicationId now grant = grant := by
      have hne := ne_of_held hheld hfree
      rw [← happ] at hne
      simp [revokeGrant, hne.symm]
    exact getElem?_append_of_some
      (by rw [List.getElem?_map, hgrant, Option.map_some, hsame])
  | granted hdelivered =>
    obtain ⟨grants, rfl, hcarried⟩ := hdelivered
    exact ⟨fun _ happlication => happlication, fun _ hattempt _ => hattempt,
      fun key grant hgrant _ => hcarried.kept key grant hgrant⟩
  | delivered hdelivered =>
    obtain ⟨outbox, rfl, _⟩ := hdelivered
    exact framed_of_same (fun _ happlication => happlication) rfl rfl
  | quarantined hfree hlegacy =>
    obtain ⟨attempt, hattempt, hfree⟩ := hfree
    rw [hlegacy.row, Option.some.injEq] at hattempt
    subst hattempt
    exact hlegacy.transaction.framed hlegacy.step.bindings (ne_of_held hheld hfree)
  | inserted now hfree _ hinsert =>
    obtain ⟨rfl, _⟩ := Db.insertSubmission_eq_ok hinsert
    refine ⟨fun _ happlication => happlication, fun attempt hattempt happ => ?_,
      fun _ grant hgrant _ => ⟨grant, hgrant, .refl grant⟩⟩
    rcases List.mem_append.mp hattempt with hold | hnew
    · exact hold
    · rw [List.mem_singleton] at hnew
      subst hnew
      exact absurd happ (ne_of_held hheld hfree)

theorem Changes.framed (hchanges : Changes held kind before after)
    (hheld : held applicationId = true) : Framed applicationId before after := by
  induction hchanges with
  | refl => exact .refl _ _
  | tail _ hchange ih => exact ih.trans (hchange.framed hheld)

end JobApplyAgent.Kernel
