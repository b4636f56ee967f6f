import JobApplyAgent.Kernel.Immutability
import JobApplyAgent.Kernel.RemoteAgreement

/-!
# The mirror of accepted commands

The hosted view of an accepted command is the last event of its log.  Every transition of
the worker is mirrored there, and so is the operator's reconciliation; the operator's skip
and the quarantine of the old tables end an attempt without an event.
-/

namespace JobApplyAgent.Kernel

open Domain Store Library

def remoteCommandOf (db : Db) (attempt : Submission) : Option String :=
  attempt.command.bind fun command =>
    (receiptFor db command.idempotencyKey).map CommandReceipt.remoteCommandRef

/-- What the event with the greatest number tells of a command. -/
def lastTold (db : Db) (commandRef : String) :
    Option (AttemptStage × Option AttemptOutcome) :=
  (latestBy OutboxRow.sequence (eventsFor db commandRef)).map fun row =>
    (row.payload.stage, row.payload.outcome)

/-- The hosted view of the attempt's command is its current stage and outcome. -/
def Announced (db : Db) (attempt : Submission) : Prop :=
  ∀ commandRef, remoteCommandOf db attempt = some commandRef →
    lastTold db commandRef = some (attempt.stage, attempt.outcome)

/-- The hosted view of every accepted command is current. -/
def AllAnnounced (db : Db) : Prop :=
  AllRows db.submissions (Announced db)

section Changes

variable {held : ℕ → Bool} {kind : ActionKind} {before : Db} {id : ℕ}

variable {move : AttemptMove}

theorem remoteCommandOf_eq_some (hcommand : remoteCommandOf db attempt = some commandRef) :
    ∃ command receipt, attempt.command = some command ∧
      receiptFor db command.idempotencyKey = some receipt ∧
      receipt.remoteCommandRef = commandRef := by
  obtain ⟨command, hcommand, hreceipt⟩ := Option.bind_eq_some_iff.mp hcommand
  obtain ⟨receipt, hreceipt, href⟩ := Option.map_eq_some_iff.mp hreceipt
  exact ⟨command, receipt, hcommand, hreceipt, href⟩

theorem remoteCommandOf_bindings (db : Db) (attempt : Submission) :
    remoteCommandOf db attempt = (attemptBindings attempt).commandKey.bind fun key =>
      (receiptFor db key).map CommandReceipt.remoteCommandRef := by
  unfold remoteCommandOf attemptBindings
  cases attempt.command <;> rfl

theorem remoteCommandOf_congr (hreceipts : after.receipts = before.receipts)
    (hbindings : attemptBindings new = attemptBindings old) :
    remoteCommandOf after new = remoteCommandOf before old := by
  rw [remoteCommandOf_bindings, remoteCommandOf_bindings, hbindings]
  simp only [receiptFor, hreceipts]

theorem lastTold_congr (hevents : eventsFor after commandRef = eventsFor before commandRef) :
    lastTold after commandRef = lastTold before commandRef := by
  unfold lastTold
  rw [hevents]

theorem eventsFor_congr (houtbox : after.outbox = before.outbox) (commandRef : String) :
    eventsFor after commandRef = eventsFor before commandRef := by
  simp only [eventsFor, houtbox]

theorem lastTold_eq (hdb : OutboxConsistent db) (commandRef : String) :
    lastTold db commandRef = (eventsFor db commandRef).getLast?.map fun row =>
      (row.payload.stage, row.payload.outcome) := by
  unfold lastTold
  rw [(hdb.sequenced commandRef).latestBy_eq]

variable {key : String}

theorem Published.lastTold (hpublished : Published before after attempt key)
    (hreceipt : receiptFor before key = some receipt) :
    Kernel.lastTold after receipt.remoteCommandRef =
      some (attempt.stage, attempt.outcome) := by
  obtain ⟨last, hlast, hstage, houtcome⟩ := hpublished.told receipt hreceipt
  rw [lastTold_eq hpublished.consistent, hlast, Option.map_some, hstage, houtcome]

/-- An attempt that kept its state, next to a log that kept its last word. -/
theorem Announced.congr (hold : Announced before old)
    (hcommand : remoteCommandOf after new = remoteCommandOf before old)
    (hstate : (new.stage, new.outcome) = (old.stage, old.outcome))
    (hlast : ∀ commandRef, remoteCommandOf before old = some commandRef →
      lastTold after commandRef = lastTold before commandRef) : Announced after new := by
  intro commandRef hnew
  rw [hcommand] at hnew
  rw [hlast commandRef hnew, hold commandRef hnew, hstate]

theorem announced_of_local (hlocal : remoteCommandOf after new = none) :
    Announced after new := by
  intro commandRef hcommand
  rw [hlocal] at hcommand
  cases hcommand

/-- A change that touches neither attempts nor logs nor receipts. -/
theorem AllAnnounced.congr (hall : AllAnnounced before)
    (hsubmissions : after.submissions = before.submissions)
    (hreceipts : after.receipts = before.receipts) (houtbox : after.outbox = before.outbox) :
    AllAnnounced after := by
  intro id attempt hattempt
  rw [hsubmissions] at hattempt
  apply (hall id attempt hattempt).congr (remoteCommandOf_congr hreceipts rfl) rfl
  intro commandRef _
  exact lastTold_congr (eventsFor_congr houtbox commandRef)

/-- A transaction on one attempt leaves the other commands as they were told. -/
theorem AllAnnounced.set (hall : AllAnnounced before)
    (hsubmissions : after.submissions = before.submissions.set id new)
    (hreceipts : after.receipts = before.receipts)
    (hself : Announced after new)
    (hothers : ∀ (other : ℕ) (attempt : Submission) (commandRef : String), other ≠ id →
      before.submissions[other]? = some attempt →
      remoteCommandOf before attempt = some commandRef →
      lastTold after commandRef = lastTold before commandRef) : AllAnnounced after := by
  intro other attempt hattempt
  rw [hsubmissions] at hattempt
  rcases getElem?_set_eq_some hattempt with ⟨_, rfl⟩ | ⟨hne, hrow⟩
  · exact hself
  · exact (hall other attempt hrow).congr (remoteCommandOf_congr hreceipts rfl) rfl
      fun commandRef hcommand => hothers other attempt commandRef hne hrow hcommand

theorem MovedTo.announced (hmoved : MovedTo before id move old new after)
    (hold : Announced before old) (hmove : move ≠ .cancel ∨ remoteCommandOf before old = none) :
    Announced after new := by
  have hcommand : remoteCommandOf after new = remoteCommandOf before old :=
    remoteCommandOf_congr hmoved.transaction.authority.receipts hmoved.step.bindings
  cases hmoved.effect with
  | silent hsilent hsame =>
    rcases hsilent with rfl | rfl | hnone
    · cases hmoved.step with
      | cancelInvalid =>
        exact hold.congr hcommand rfl fun commandRef _ =>
          lastTold_congr (eventsFor_congr hsame commandRef)
    · exact announced_of_local (hcommand.trans (hmove.resolve_left (· rfl)))
    · apply announced_of_local
      simp [remoteCommandOf, hnone]
  | published command hstored hpublished =>
    intro commandRef hfound
    obtain ⟨found, receipt, howner, hreceipt, rfl⟩ := remoteCommandOf_eq_some hfound
    rw [hstored, Option.some.injEq] at howner
    subst howner
    apply hpublished.lastTold
    simpa only [receiptFor, hmoved.transaction.authority.receipts] using hreceipt

theorem AllAnnounced.movedTo (hall : AllAnnounced before) (hdb : StoreOk before)
    (hmoved : MovedTo before id move old new after)
    (hmove : move ≠ .cancel ∨ remoteCommandOf before old = none) : AllAnnounced after := by
  apply hall.set hmoved.transaction.submissions hmoved.transaction.authority.receipts
  · exact hmoved.announced (hall id old hmoved.row) hmove
  · intro other attempt commandRef hne hrow hcommand
    obtain ⟨command, receipt, howned, hreceipt, rfl⟩ := remoteCommandOf_eq_some hcommand
    have hkeyed : Keyed before other command.idempotencyKey :=
      ⟨attempt, hrow, by simp [attemptBindings, howned]⟩
    apply lastTold_congr
    exact hmoved.eventsFor hdb hne hkeyed hreceipt

/-- The old writers tell nothing, so they may not end an accepted command. -/
theorem AllAnnounced.quarantined (hall : AllAnnounced before)
    (hlegacy : LegacyTransaction before id old new after)
    (hkept : remoteCommandOf before old = none ∨
      (new.stage, new.outcome) = (old.stage, old.outcome)) : AllAnnounced after := by
  have hreceipts := hlegacy.transaction.authority.receipts
  have hcommand : remoteCommandOf after new = remoteCommandOf before old :=
    remoteCommandOf_congr hreceipts hlegacy.step.bindings
  have hlast : ∀ commandRef, lastTold after commandRef = lastTold before commandRef :=
    fun commandRef => lastTold_congr (eventsFor_congr hlegacy.outbox commandRef)
  apply hall.set hlegacy.transaction.submissions hreceipts
  · rcases hkept with hlocal | hstate
    · exact announced_of_local (hcommand.trans hlocal)
    · exact (hall id old hlegacy.row).congr hcommand hstate fun commandRef _ => hlast commandRef
  · exact fun _ _ commandRef _ _ _ => hlast commandRef

theorem EventsDelivered.lastTold (hdelivered : EventsDelivered before after)
    (hbefore : OutboxConsistent before) (commandRef : String) :
    Kernel.lastTold after commandRef = Kernel.lastTold before commandRef := by
  have hcolumn : ∀ old new : OutboxRow, EventCarried old new →
      (new.payload.stage, new.payload.outcome) = (old.payload.stage, old.payload.outcome) :=
    fun old new hsame => by rw [hsame]
  have hlogs := (hdelivered.events commandRef).map_eq hcolumn
  rw [lastTold_eq hbefore, lastTold_eq (hbefore.delivered hdelivered), ← List.getLast?_map,
    ← List.getLast?_map, hlogs]

theorem AllAnnounced.delivered (hall : AllAnnounced before) (hbefore : OutboxConsistent before)
    (hdelivered : EventsDelivered before after) : AllAnnounced after := by
  have hlast := hdelivered.lastTold hbefore
  obtain ⟨outbox, rfl, _⟩ := hdelivered
  intro id attempt hattempt
  exact (hall id attempt hattempt).congr rfl rfl fun commandRef _ => hlast commandRef

/-! ## Commits of an admission -/

/-- What a commit adds to the receipts and to the logs. -/
structure LogsGrown (before : Db) (acceptance : Option Acceptance) (after : Db) : Prop where
  receipts : after.receipts = before.receipts ++ acceptance.toList.map Acceptance.receipt
  outbox : after.outbox =
    before.outbox ++ acceptance.toList.map fun found => outboxRow found.event
  fresh : ∀ found ∈ acceptance, receiptKeysFree before found.receipt = true
  opening : ∀ found ∈ acceptance, found.event =
    acceptedEvent found.receipt.remoteCommandRef found.receipt.acceptedAt

theorem Admitted.logsGrown (hlogs : LogsOk before) (hstaged : StagedOk before locks staged)
    (hadmitted : Admitted before staged after) :
    LogsGrown before staged.acceptance after := by
  obtain ⟨accepted, stored, canaries, haccepted, hinserted, rfl⟩ := hadmitted.steps
  rw [hinserted.eq]
  unfold StagedAcceptance at haccepted
  cases hacceptance : staged.acceptance with
  | none =>
    rw [hacceptance] at haccepted
    simp only at haccepted
    subst haccepted
    constructor <;> simp
  | some acceptance =>
    rw [hacceptance] at haccepted
    obtain ⟨grant, haccepted⟩ := haccepted
    have hevent := (hstaged.acceptance acceptance hacceptance).event
    have hreceipts := haccepted.receipts.1
    have houtbox := haccepted.outbox_eq hlogs hevent
    have hfree := haccepted.keysFree
    exact ⟨hreceipts, houtbox, by simpa using hfree, by simpa using hevent⟩

theorem LogsGrown.lastTold_old (hgrown : LogsGrown before acceptance after)
    (hmem : receipt ∈ before.receipts) :
    lastTold after receipt.remoteCommandRef = lastTold before receipt.remoteCommandRef := by
  apply lastTold_congr
  unfold eventsFor
  rw [hgrown.outbox, List.filter_append, List.append_right_eq_self, List.filter_eq_nil_iff]
  intro row hrow
  obtain ⟨found, hfound, rfl⟩ := List.mem_map.mp hrow
  rw [Option.mem_toList] at hfound
  have hother := (receiptKeysFree_eq_true (hgrown.fresh found hfound) receipt hmem).1
  rw [hgrown.opening found hfound, decide_eq_true_eq]
  exact fun hsame => hother hsame.symm

theorem LogsGrown.lastTold_new (hlogs : LogsOk before)
    (hgrown : LogsGrown before (some acceptance) after) :
    lastTold after acceptance.receipt.remoteCommandRef = some (.queued, none) := by
  have hempty := eventsFor_eq_nil_of_keysFree hlogs (hgrown.fresh acceptance rfl)
  have hopening := hgrown.opening acceptance rfl
  have hevents : eventsFor after acceptance.receipt.remoteCommandRef =
      [outboxRow acceptance.event] := by
    have hcommand : (outboxRow acceptance.event).remoteCommandRef =
        acceptance.receipt.remoteCommandRef := by
      rw [hopening]
      rfl
    unfold eventsFor at hempty ⊢
    rw [hgrown.outbox, List.filter_append, hempty]
    simp [hcommand]
  unfold lastTold
  rw [hevents, hopening]
  rfl

theorem Admitted.receipt_old (hdb : StoreOk before) (hstored : StoreOk after)
    (hstaged : StagedOk before locks staged) (hbound : AcceptanceBound staged)
    (hadmitted : Admitted before staged after) (hkeyed : Keyed before id key)
    (hreceipt : receiptFor after key = some receipt) :
    receipt ∈ before.receipts := by
  obtain ⟨hmem, hkey⟩ := (receiptFor_eq_some_iff hstored.logs.receipts).mp hreceipt
  rw [(hadmitted.logsGrown hdb.logs hstaged).receipts, List.mem_append] at hmem
  rcases hmem with hmem | hmem
  · exact hmem
  exfalso
  obtain ⟨acceptance, hacceptance, rfl⟩ := List.mem_map.mp hmem
  rw [Option.mem_toList] at hacceptance
  unfold AcceptanceBound at hbound
  rw [hacceptance] at hbound
  obtain ⟨row, request, hadded, hrow, _, hrequest⟩ := hbound
  have hsubmissions := hadmitted.tables.1
  rw [hadded] at hsubmissions
  have hnew : Keyed after before.submissions.length key := by
    refine ⟨row, by rw [hsubmissions, List.getElem?_concat_length], ?_⟩
    rw [hrow.commandKey, hrequest, hkey]
  have hsame := hstored.attempts.keyed _ _ key (hkeyed.append hsubmissions) hnew
  obtain ⟨attempt, hattempt, _⟩ := hkeyed
  have hbound := (List.getElem?_eq_some_iff.mp hattempt).1
  omega

theorem Admitted.receipt_new (hdb : StoreOk before) (hstored : StoreOk after)
    (hadmitted : Admitted before staged after) (hkeyed : Keyed after id key)
    (hid : before.submissions.length ≤ id) (hreceipt : receipt ∈ before.receipts) :
    receipt.clientIdempotencyKey ≠ key := by
  rintro rfl
  obtain ⟨other, hother⟩ := hdb.links.answered receipt hreceipt
  have hsame := hstored.attempts.keyed _ _ _ (hother.append hadmitted.tables.1) hkeyed
  obtain ⟨attempt, hattempt, _⟩ := hother
  have hbound := (List.getElem?_eq_some_iff.mp hattempt).1
  omega

section

variable (hall : AllAnnounced before)
include hall

/-- A commit tells the attempt of the command that it accepts, and no other. -/
theorem AllAnnounced.committed (hdb : StoreOk before)
    (hstored : StoreOk after) (hstaged : StagedOk before locks staged)
    (hbound : AcceptanceBound staged) (hadmitted : Admitted before staged after) :
    AllAnnounced after := by
  have hgrown := hadmitted.logsGrown hdb.logs hstaged
  intro id attempt hattempt commandRef hcommand
  obtain ⟨command, receipt, howner, hreceipt, rfl⟩ := remoteCommandOf_eq_some hcommand
  have hkey : (attemptBindings attempt).commandKey = some command.idempotencyKey := by
    simp [attemptBindings, howner]
  have hrow := hattempt
  rw [hadmitted.tables.1, List.getElem?_append] at hrow
  split at hrow
  · have hmem := hadmitted.receipt_old hdb hstored hstaged hbound ⟨attempt, hrow, hkey⟩ hreceipt
    have hfound := (receiptFor_eq_some_iff hstored.logs.receipts).mp hreceipt
    have hbefore := (receiptFor_eq_some_iff hdb.logs.receipts).mpr ⟨hmem, hfound.2⟩
    rw [hgrown.lastTold_old hmem]
    apply hall id attempt hrow
    simp [remoteCommandOf, howner, hbefore]
  · next hnew =>
    obtain ⟨hmem, hmatch⟩ := (receiptFor_eq_some_iff hstored.logs.receipts).mp hreceipt
    rw [hgrown.receipts, List.mem_append] at hmem
    rcases hmem with hmem | hmem
    · exact absurd hmatch (hadmitted.receipt_new hdb hstored ⟨attempt, hattempt, hkey⟩
        (not_lt.mp hnew) hmem)
    · obtain ⟨acceptance, hacceptance, rfl⟩ := List.mem_map.mp hmem
      rw [Option.mem_toList] at hacceptance
      rw [hacceptance] at hgrown
      obtain ⟨request, hadded, _⟩ := hstaged.rows attempt (List.mem_of_getElem? hrow)
      rw [hgrown.lastTold_new hdb.logs, hadded.stage, hadded.outcome]

/-- An attempt without a command belongs to no remote command. -/
theorem AllAnnounced.concat (hlocal : new.command = none) :
    AllAnnounced { before with submissions := before.submissions ++ [new] } := by
  intro id attempt hattempt
  rcases getElem?_append_singleton_eq_some hattempt with ⟨_, rfl⟩ | hold
  · apply announced_of_local
    simp [remoteCommandOf, hlocal]
  · exact hall id attempt hold

/-- Every change but those of the skip and of the old writers tells what it does. -/
theorem AllAnnounced.change (hdb : StoreOk before)
    (hskip : kind ≠ .skip) (hlegacy : kind ≠ .legacy)
    (hchange : Change held kind before after) : AllAnnounced after := by
  have hstored := hdb.change hchange
  cases hchange with
  | moved _ hcancel _ hmoved =>
    obtain ⟨old, new, hmoved⟩ := hmoved
    exact hall.movedTo hdb hmoved (.inl hcancel)
  | cancelled => exact absurd rfl hskip
  | content _ _ hcontent =>
    exact hall.congr hcontent.submissions hcontent.authority.receipts hcontent.outbox
  | canaries | retried | minted => exact hall.congr rfl rfl rfl
  | automated _ hautomated =>
    exact hall.congr hautomated.submissions hautomated.receipts hautomated.outbox
  | committed _ hstaged hbound hadmitted =>
    exact hall.committed hdb hstored hstaged hbound hadmitted
  | granted hdelivered =>
    obtain ⟨grants, rfl, _⟩ := hdelivered
    exact hall.congr rfl rfl rfl
  | delivered hdelivered => exact hall.delivered hdb.logs.outbox hdelivered
  | quarantined => exact absurd rfl hlegacy
  | inserted => exact absurd rfl hlegacy

theorem AllAnnounced.changes (hdb : StoreOk before)
    (hskip : kind ≠ .skip) (hlegacy : kind ≠ .legacy)
    (hchanges : Changes held kind before after) : AllAnnounced after := by
  induction hchanges with
  | refl => exact hall
  | tail hhead hchange ih => exact ih.change (hdb.changes hhead) hskip hlegacy hchange

end

/-! ## The silent writers -/

theorem AllAnnounced.markedStale {ids : List ℕ}
    (hlocal : ∀ id ∈ ids, ∀ attempt, before.submissions[id]? = some attempt →
      attempt.command = none)
    (hfold : ids.foldlM (fun stored id => markAttemptUnknown stored id reason now) before =
      .ok after) (hall : AllAnnounced before) : AllAnnounced after := by
  induction ids generalizing before with
  | nil =>
    cases hfold
    exact hall
  | cons id rest ih =>
    rw [List.foldlM_cons, bind_eq_ok] at hfold
    obtain ⟨middle, hmiddle, hrest⟩ := hfold
    obtain ⟨old, hlegacy⟩ := markAttemptUnknown_eq_ok hmiddle
    have hnone := hlocal id (by simp) old hlegacy.row
    apply ih ?_ hrest (hall.quarantined hlegacy (.inl (by simp [remoteCommandOf, hnone])))
    intro other hother attempt hattempt
    rw [hlegacy.transaction.submissions] at hattempt
    rcases getElem?_set_eq_some hattempt with ⟨_, rfl⟩ | ⟨_, hsame⟩
    · exact hnone
    · exact hlocal other (by simp [hother]) attempt hsame

theorem AllAnnounced.claimedLegacy (hall : AllAnnounced before) (hends : EndsOk before)
    (hclaim : claimAttempt before applicationId key now = .ok after) :
    AllAnnounced after := by
  rcases claimAttempt_eq_ok hclaim with rfl | ⟨flushed, number, hclosed, _, hinsert⟩
  · exact hall
  obtain ⟨rfl, _⟩ := Db.insertSubmission_eq_ok hinsert
  rcases hclosed with rfl | ⟨id, old, hlegacy, _⟩
  · exact hall.concat rfl
  obtain ⟨application, happlication, happroved, _⟩ := hlegacy.step.approved
  have hlocal : old.command = none := by
    by_contra hcommand
    exact hends.unapproved id old application hlegacy.row hcommand happlication happroved
  exact (hall.quarantined hlegacy (.inl (by simp [remoteCommandOf, hlocal]))).concat rfl

/-- A transaction that told nothing leaves a changed attempt behind its log. -/
theorem not_allAnnounced_of_silent (hall : AllAnnounced before)
    (hrow : before.submissions[id]? = some old)
    (htransaction : AttemptTransaction before id new after)
    (hbindings : attemptBindings new = attemptBindings old)
    (hsilent : after.outbox = before.outbox) (hremote : remoteCommandOf before old ≠ none)
    (hchanged : (new.stage, new.outcome) ≠ (old.stage, old.outcome)) :
    ¬AllAnnounced after := by
  intro hafter
  obtain ⟨commandRef, hcommand⟩ := Option.ne_none_iff_exists'.mp hremote
  have hnew : after.submissions[id]? = some new := by
    rw [htransaction.submissions]
    exact getElem?_set_self_of_some hrow
  have hsame := remoteCommandOf_congr htransaction.authority.receipts hbindings
  have htold := hafter id new hnew commandRef (hsame.trans hcommand)
  rw [lastTold_congr (eventsFor_congr hsilent commandRef), hall id old hrow commandRef hcommand,
    Option.some.injEq] at htold
  exact hchanged htold.symm

end Changes

/-! ## Every action -/

/-- The action ends no accepted command in silence: no skip cancels its unfinished attempt,
and the quarantine of the old tables leaves it unless it is unknown already. -/
def EndsAnnounced (state : LocalState) : Action → Prop
  | .skip applicationId _ _ _ => ∀ attempt id,
      latestAttempt state.db applicationId = some (attempt, id) → attempt.stage ≠ .finished →
      remoteCommandOf state.db attempt = none
  | .legacyMarkUnknown id _ _ => ∀ attempt, state.db.submissions[id]? = some attempt →
      remoteCommandOf state.db attempt = none ∨
        (attempt.stage, attempt.outcome) = (.finished, some .unknown)
  | _ => True

theorem skip_announced_iff (hlocal : LocalOk state) (hall : AllAnnounced state.db)
    {text : String}
    (hskip : skipApplication state.db applicationId reason text now = .ok db) :
    AllAnnounced db ↔ EndsAnnounced state (.skip applicationId reason text now) := by
  rcases skipApplication_eq_ok hskip with
    ⟨hcontent, _, hended⟩ | ⟨id, old, new, hlatest, _, hmoved, hsilent⟩
  · have hafter : AllAnnounced db :=
      hall.congr hcontent.submissions hcontent.authority.receipts hcontent.outbox
    refine iff_of_true hafter fun attempt id hlatest hstage => ?_
    exact absurd (hended _ hlatest) hstage
  · have hunfinished : old.stage ≠ .finished := by
      rintro hfinished
      cases hmoved.step with
      | cancel _ _ hprecommit => simp [hfinished, AttemptStage.precommit] at hprecommit
    constructor
    · intro hafter attempt found hfound _
      rw [hlatest, Option.some.injEq, Prod.mk.injEq] at hfound
      obtain ⟨rfl, rfl⟩ := hfound
      by_contra hremote
      refine not_allAnnounced_of_silent hall hmoved.row hmoved.transaction hmoved.step.bindings
        hsilent hremote ?_ hafter
      cases hmoved.step
      exact fun hsame => hunfinished (congrArg Prod.fst hsame).symm
    · intro hsafe
      exact hall.movedTo hlocal.store hmoved (.inr (hsafe old id hlatest hunfinished))

theorem markUnknown_announced_iff (hall : AllAnnounced state.db) {id : ℕ}
    (hmark : markAttemptUnknown state.db id reason now = .ok db) :
    AllAnnounced db ↔ EndsAnnounced state (.legacyMarkUnknown id reason now) := by
  obtain ⟨old, hlegacy⟩ := markAttemptUnknown_eq_ok hmark
  constructor
  · intro hafter attempt hattempt
    rw [hlegacy.row, Option.some.injEq] at hattempt
    subst hattempt
    by_contra hunsafe
    rw [not_or] at hunsafe
    exact not_allAnnounced_of_silent hall hlegacy.row hlegacy.transaction hlegacy.step.bindings
      hlegacy.outbox hunsafe.1 (Ne.symm hunsafe.2) hafter
  · intro hsafe
    apply hall.quarantined hlegacy
    exact (hsafe old hlegacy.row).imp_right Eq.symm

/-- An action keeps the hosted views current exactly under the condition. -/
theorem perform_announced_iff (hlocal : LocalOk state) (hends : EndsOk state.db)
    (hall : AllAnnounced state.db)
    (hperform : perform zone state action = .ok after) :
    AllAnnounced after.db ↔ EndsAnnounced state action := by
  have hchanges := perform_change hlocal.store.logs.outbox hlocal.admissions hperform
  have hother : action.kind ≠ .skip → action.kind ≠ .legacy → AllAnnounced after.db :=
    fun hskip hlegacy => hall.changes hlocal.store hskip hlegacy hchanges
  cases action with
  | skip applicationId reason text now =>
    obtain ⟨_, db, hskip, rfl⟩ := transact_eq_ok hperform
    exact skip_announced_iff hlocal hall hskip
  | legacyClaim applicationId key now =>
    obtain ⟨_, db, hclaim, rfl⟩ := transact_eq_ok hperform
    exact iff_of_true (hall.claimedLegacy hends hclaim) trivial
  | legacyMarkStale now staleMinutes =>
    obtain ⟨_, db, hmark, rfl⟩ := transact_eq_ok hperform
    refine iff_of_true (AllAnnounced.markedStale (fun id hid attempt hattempt => ?_) hmark hall)
      trivial
    obtain ⟨⟨found, index⟩, hentry, rfl⟩ := List.mem_map.mp hid
    obtain ⟨hzip, hstale⟩ := List.mem_filter.mp hentry
    rw [List.mk_mem_zipIdx_iff_getElem?, hattempt, Option.some.injEq] at hzip
    subst hzip
    simp only [legacyStale, Bool.and_eq_true, Option.isNone_iff_eq_none] at hstale
    exact hstale.2
  | legacyMarkUnknown id reason now =>
    obtain ⟨_, db, hmark, rfl⟩ := transact_eq_ok hperform
    exact markUnknown_announced_iff hall hmark
  | _ => exact iff_of_true (hother (by simp [Action.kind]) (by simp [Action.kind])) trivial

theorem announced_invariant :
    (localSystem zone).Invariant EndsAnnounced fun state =>
      (LocalOk state ∧ EndsOk state.db) ∧ AllAnnounced state.db where
  init := by
    intro state hinitial
    refine ⟨(endsOk_invariant EndsAnnounced).init state hinitial, fun id attempt hattempt => ?_⟩
    have hnone := (hinitial.db.imported id attempt hattempt).command
    exact announced_of_local (by simp [remoteCommandOf, hnone])
  step := fun state action after ⟨hlocal, hall⟩ hsafe hstep =>
    ⟨(endsOk_invariant EndsAnnounced).step state action after hlocal hsafe hstep,
      (perform_announced_iff hlocal.1 hlocal.2 hall hstep).mpr hsafe⟩

/-- The logs of all commands are gap-free in every run; in a run that ends no accepted
command in silence every log ends in its attempt's stage and outcome, and the next action
keeps that exactly when it does not either. -/
theorem transitions_announced (hreach : (localSystem zone).Reachable EndsAnnounced state) :
    (∀ later, (localSystem zone).Path anyStep state later →
      ∀ commandRef, IsSequenced OutboxRow.sequence (eventsFor later.db commandRef)) ∧
    AllAnnounced state.db ∧
    ∀ action after, perform zone state action = .ok after →
      (AllAnnounced after.db ↔ EndsAnnounced state action) := by
  have hstate := announced_invariant.reachable hreach
  refine ⟨fun later hpath commandRef => ?_, hstate.2, fun action after hperform => ?_⟩
  · have hlater := (localOk_invariant anyStep).path hstate.1.1 hpath
    exact hlater.store.logs.outbox.sequenced commandRef
  · exact perform_announced_iff hstate.1.1 hstate.1.2 hstate.2 hperform

/-- The runner accepts the command of the minted grant, with a portal that qualifies the
plan. -/
def acceptedSteps : List Action :=
  [.accept grantedCommand grantedAcceptance, .lookup 0,
    .admitItem 0
      { sampleAdmission with
        descriptor :=
          some ⟨⟨"greenhouse", "1.0.0", qualifiedPlan.selectorVersion⟩, true, true⟩ },
    .commitAdmission 0 4]

def acceptedState : LocalState :=
  endOf sampleZone mintedState acceptedSteps

def acceptedAttempt : Submission :=
  acceptedState.db.submissions.get ⟨0, by decide⟩

theorem acceptedState_reachable {guard : LocalState → Action → Prop}
    (hmint : ∀ state request now, guard state (.mint request now))
    (haccepted : ∀ state, ∀ action ∈ acceptedSteps, guard state action) :
    (localSystem sampleZone).Reachable guard acceptedState := by
  have hminted : (localSystem sampleZone).Reachable guard mintedState :=
    endOf_reachable (by simpa using fun state => hmint state _ _) qualifiedState_initial
  obtain ⟨first, hinitial, hpath⟩ := hminted
  exact ⟨first, hinitial, hpath.trans (endOf_path haccepted mintedState)⟩

theorem transitions_announced_sample :
    remoteCommandOf acceptedState.db acceptedAttempt = some "command-0000-0001" ∧
      AllAnnounced acceptedState.db := by
  have hreach : (localSystem sampleZone).Reachable EndsAnnounced acceptedState :=
    acceptedState_reachable (fun _ _ _ => trivial) fun _ => by
      simp [EndsAnnounced, acceptedSteps]
  exact ⟨by decide, (transitions_announced hreach).2.1⟩

def operatorCancelled : AttemptReason := .code .operatorCancelled

/-- The operator skips the application of the accepted command. -/
def skippedState : LocalState :=
  endOf sampleZone acceptedState [.skip 0 operatorCancelled "Rejected by user" 5]

/-- The hosted view of a command whose attempt the operator has cancelled stays queued. -/
theorem cancellation_untold :
    ¬∀ state, (localSystem sampleZone).Reachable anyStep state → AllAnnounced state.db := by
  intro htold
  have haccepted : (localSystem sampleZone).Reachable anyStep acceptedState :=
    acceptedState_reachable (fun _ _ _ => trivial) fun _ _ _ => trivial
  obtain ⟨first, hinitial, hpath⟩ := haccepted
  have hskipped : (localSystem sampleZone).Reachable anyStep skippedState :=
    ⟨first, hinitial, hpath.trans (endOf_path (fun _ _ _ => trivial) acceptedState)⟩
  have hview := htold skippedState hskipped 0 _ rfl "command-0000-0001" (by decide)
  exact absurd hview (by decide)

end JobApplyAgent.Kernel
